import Bmdwire.Program.MacroHelpers

/-!
# Macro ops: media players, macro flow and HyperDecks

`macrotransfer/media.py`, `flow.py` and `hyperdeck.py`. An op that binds a HyperDeck has its
IPv4 address reversed. `inetAton` is the C library's: one to four numbers in decimal, octal or
hexadecimal, the last of which fills the octets that are left, and white space may end it.
-/

set_option autoImplicit false

namespace Bmdwire.Macros

open Library

/-! ## Media players -/

def dMediaPlayerStillIndex : Decoder := fun params => do
  let player ← byteAt params 0
  let index ← u16le params 2
  return [("mediaPlayer", str player.toNat), ("index", str index)]

def eMediaPlayerStillIndex : Encoder := fun attrs => do
  let head ← bytesOf [← intAttr attrs "mediaPlayer", 0]
  let index ← intAttr attrs "index"
  return head ++ u16leBytes index

def dMediaPlayerStillOnly : Decoder := fun params => do
  let player ← byteAt params 0
  return [("mediaPlayer", str player.toNat)]

def eMediaPlayerStillOnly : Encoder := fun attrs => do
  bytesOf [← intAttr attrs "mediaPlayer", 0, 0, 0]

/-! ## Macro flow -/

def dMacroSleep : Decoder := fun params => do
  let frames ← u32le params 0
  return [("frames", str frames)]

def eMacroSleep : Encoder := fun attrs => do
  return u32leBytes (← intAttrOrZero attrs "frames")

/-! ## Addresses -/

/-- `socket.inet_ntoa`. -/
def inetNtoa (packed : Bytes) : Except String String :=
  if packed.length = 4 then .ok (".".intercalate (packed.map fun b => str b.toNat))
  else .error "packed IP wrong length"

/-- The digits of a number at the front of a text, read in the base, and the rest. -/
def numberIn (base : ℕ) (cs : List Char) : ℕ × List Char :=
  (digitsValue base 0 (cs.takeWhile (digitVal · < base)), cs.dropWhile (digitVal · < base))

/-- A number as C writes them. -/
def addressNumber (cs : List Char) : Option (ℕ × List Char) :=
  match cs with
  | [] => none
  | c :: rest =>
    if c.isDigit then
      if c = '0' then
        match rest with
        | x :: d :: more =>
          if (x = 'x' ∨ x = 'X') ∧ digitVal d < 16 then some (numberIn 16 (d :: more))
          else some (numberIn 8 cs)
        | _ => some (numberIn 8 cs)
      else some (numberIn 10 cs)
    else none

/-- The numbers between dots, at most so many after the first, and the rest. -/
def addressParts : ℕ → List Char → Option (List ℕ × List Char)
  | more, cs =>
    match addressNumber cs with
    | none => none
    | some (n, '.' :: rest) =>
      match more with
      | 0 => none
      | more + 1 =>
        if n ≤ 0xff then (addressParts more rest).map fun p => (n :: p.1, p.2) else none
    | some (n, rest) => some ([n], rest)

/-- The text ends, or goes on with white space. -/
def endsAddress : List Char → Bool
  | [] => true
  | c :: _ => isBlank c

/-- `socket.inet_aton`. -/
def inetAton (text : String) : Except EncodeError Bytes :=
  if '\x00' ∈ text.toList then .error (.embeddedNull text)
  else
    match addressParts 3 text.toList with
    | none => .error (.badAddress text)
    | some (parts, rest) =>
      let last := parts.getLastD 0
      if endsAddress rest ∧ last < 256 ^ (5 - parts.length) then
        .ok (parts.dropLast.map UInt8.ofNat ++ (leBytes (5 - parts.length) last).reverse)
      else .error (.badAddress text)

/-! ## HyperDecks -/

/-- `_HD_IP_MARKER`. -/
def hdIpMarker : Bytes := [0x4a, 0x02]

def dHdNetworkAddress : Decoder := fun params => do
  let slot ← byteAt params 0
  let address ← inetNtoa ((params.drop 4).take 4).reverse
  return [("slot", str slot.toNat), ("networkAddress", address)]

def eHdNetworkAddress : Encoder := fun attrs => do
  let address ← inetAton (← attr attrs "networkAddress")
  let head ← bytesOf [← intAttr attrs "slot", 0]
  return head ++ hdIpMarker ++ address.reverse

def dHdInput : Decoder := fun params => do
  let slot ← byteAt params 0
  let input ← u16le params 2
  return [("slot", str slot.toNat), ("input", str input)]

def eHdInput : Encoder := fun attrs => do
  let head ← bytesOf [← intAttr attrs "slot", 0]
  return head ++ (← packU16 (← intAttr attrs "input"))

end Bmdwire.Macros
