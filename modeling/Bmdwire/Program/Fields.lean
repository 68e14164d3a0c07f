import Bmdwire.Model.Udp

/-!
# The fields of a payload

A payload is a row of fields, each behind a header with its length and its code.
`Send.get_command` makes one field, `send_commands` joins some, and `decode_packet` takes a
received payload apart. Every class that has a `get_command` of its own writes the same header.
-/

set_option autoImplicit false

namespace Bmdwire

open Packet (packU16 unpackU16)

/-! ## Making a field -/

/-- The `CODE` of a class, which `'4s'` writes as it is. -/
structure WireCode where
  octets : Bytes
  length_octets : octets.length = 4
deriving DecidableEq, Repr

/-- `struct.pack('>H 2x 4s', len(body) + 8, code) + body`; `none` is the `struct.error` of a
length that does not fit its 16 bits. -/
def frameCommand (code : WireCode) (body : Bytes) : Option Bytes :=
  if body.length + 8 < 0x10000 then
    some (packU16 (body.length + 8) ++ [0, 0] ++ code.octets ++ body)
  else none

/-- How a declared field writes its value: with `struct.pack_into`, where `none` is a value
that the format refuses, or at the end of the buffer, as a `tail` does. -/
inductive FieldWrite
  | packInto (offset : ℕ) (octets : Option Bytes)
  | extend (octets : Bytes)
deriving DecidableEq, Repr

/-- A declared field of a message; `value` is `none` where the attribute is `None`. -/
structure SendField where
  maskBit : Option ℕ
  value : Option FieldWrite
deriving DecidableEq, Repr

/-- A `Send` object; `maskSize` is the width of its `MASK_TYPE`. -/
structure Send where
  code : WireCode
  size : ℕ
  maskAt : Option ℕ
  maskSize : ℕ
  fields : List SendField
deriving DecidableEq, Repr

namespace Send

/-- `struct.pack_into`; `none` is the `struct.error` of a buffer that is too short. -/
def packInto (offset : ℕ) (octets buf : Bytes) : Option Bytes :=
  if offset + octets.length ≤ buf.length then
    some (buf.take offset ++ octets ++ buf.drop (offset + octets.length))
  else none

/-- `f.pack(buf, value)`. -/
def packField (buf : Bytes) : FieldWrite → Option Bytes
  | .packInto offset octets => octets.bind fun octets => packInto offset octets buf
  | .extend octets => some (buf ++ octets)

/-- The loop over the declared fields, which sets the bits of the mask. -/
def packFields : List SendField → Bytes → ℕ → Option (Bytes × ℕ)
  | [], buf, mask => some (buf, mask)
  | f :: rest, buf, mask =>
    match f.value with
    | none => packFields rest buf mask
    | some value =>
      let mask := match f.maskBit with
        | some bit => mask ||| 2 ^ bit
        | none => mask
      (packField buf value).bind fun buf => packFields rest buf mask

/-- A big-endian number of so many octets; `none` is one that does not fit. -/
def packBig (size n : ℕ) : Option Bytes :=
  if n < 256 ^ size then
    some ((List.range size).map fun i => UInt8.ofNat (n / 256 ^ (size - 1 - i)))
  else none

/-- The buffer of `get_command`. -/
def buffer (m : Send) : Option Bytes :=
  (packFields m.fields (List.replicate m.size 0) 0).bind fun r =>
    match m.maskAt with
    | some offset => (packBig m.maskSize r.2).bind fun mask => packInto offset mask r.1
    | none => some r.1

end Send

/-- An outgoing command: a `Send` that declares its fields, or an object of a class that packs
the body in a `get_command` of its own, with `none` for the exception of a body that cannot be
packed. -/
inductive Outgoing
  | declared (m : Send)
  | packed (code : WireCode) (body : Option Bytes)
deriving DecidableEq, Repr

namespace Outgoing

def code : Outgoing → WireCode
  | .declared m => m.code
  | .packed code _ => code

def body : Outgoing → Option Bytes
  | .declared m => m.buffer
  | .packed _ body => body

/-- `get_command`. -/
def getCommand (c : Outgoing) : Option Bytes := c.body.bind (frameCommand c.code)

end Outgoing

/-- `TransferDataCommand`, the `FTDa` of one chunk. -/
def transferDataCommand (transfer : ℕ) (data : Bytes) : Outgoing :=
  .packed ⟨[0x46, 0x54, 0x44, 0x61], rfl⟩
    (if transfer < 0x10000 ∧ data.length < 0x10000 then
      some (packU16 transfer ++ packU16 data.length ++ data)
    else none)

/-! ## Taking a payload apart -/

/-- How `decode_packet` ends: at the end of the payload, or with an exception. -/
inductive Decoding
  | consumed
  | connectionError
  | structError
deriving DecidableEq, Repr

/-- The length that the header at the front declares. -/
def declaredLength (rest : Bytes) : ℕ := unpackU16 rest 0

/-- The code in the header at the front. -/
def headerCode (rest : Bytes) : Bytes := (rest.drop 4).take 4

/-- `raw`: what is between the header and the declared length. -/
def fieldBody (rest : Bytes) : Bytes := (rest.take (declaredLength rest)).drop 8

/-- The loop of `decode_packet` over `data[offset:]`: the fields it yields, and its end.
`unpack_from` needs a whole header, which is the `struct.error`. -/
def decodePacket (rest : Bytes) : List (Bytes × Bytes) × Decoding :=
  if rest = [] then ([], .consumed)
  else if rest.length < 8 then ([], .structError)
  else if _ : declaredLength rest = 0 then ([], .connectionError)
  else
    let next := decodePacket (rest.drop (declaredLength rest))
    ((headerCode rest, fieldBody rest) :: next.1, next.2)
termination_by rest.length
decreasing_by
  rw [List.length_drop]
  omega

/-! ## Sending -/

/-- `send_commands`: the payload of the packet that leaves. -/
inductive CommandsSent
  | sent (payload : Bytes)
  | structError
  | valueError
deriving DecidableEq, Repr

/-- `send_commands`. -/
def sendCommands (commands : List Outgoing) : CommandsSent :=
  match commands.mapM Outgoing.getCommand with
  | none => .structError
  | some parts => if parts.flatten.length > 1300 then .valueError else .sent parts.flatten

end Bmdwire
