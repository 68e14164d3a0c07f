import Mathlib.Data.Nat.Notation

/-!
# Text from octets

UTF-8, with a replacement character for what is not UTF-8: one for each longest run of octets
that begins a character and is not continued. An octet that breaks such a run off is read anew.
-/

set_option autoImplicit false

namespace Library

/-- A character begun: how many octets it still needs, the range of the next one, and its
value so far. -/
structure Begun where
  needed : ℕ
  low : ℕ
  high : ℕ
  value : ℕ
deriving DecidableEq, Repr

/-- U+FFFD. -/
def replacement : Char := Char.ofNat 0xfffd

/-- What an octet begins: a whole character, or one that needs more octets. -/
def beginChar (b : ℕ) : Char ⊕ Begun :=
  if b < 0x80 then .inl (Char.ofNat b)
  else if b < 0xc2 then .inl replacement
  else if b < 0xe0 then .inr ⟨1, 0x80, 0xbf, b - 0xc0⟩
  else if b = 0xe0 then .inr ⟨2, 0xa0, 0xbf, 0⟩
  else if b = 0xed then .inr ⟨2, 0x80, 0x9f, 0xd⟩
  else if b < 0xf0 then .inr ⟨2, 0x80, 0xbf, b - 0xe0⟩
  else if b = 0xf0 then .inr ⟨3, 0x90, 0xbf, 0⟩
  else if b < 0xf4 then .inr ⟨3, 0x80, 0xbf, b - 0xf0⟩
  else if b = 0xf4 then .inr ⟨3, 0x80, 0x8f, 4⟩
  else .inl replacement

/-- Read octets after the beginning of a character, if there is one. -/
def decodeFrom : Option Begun → List UInt8 → List Char
  | none, [] => []
  | some _, [] => [replacement]
  | none, b :: bs =>
    match beginChar b.toNat with
    | .inl c => c :: decodeFrom none bs
    | .inr begun => decodeFrom (some begun) bs
  | some begun, b :: bs =>
    if begun.low ≤ b.toNat ∧ b.toNat ≤ begun.high then
      let value := begun.value * 64 + (b.toNat - 0x80)
      if begun.needed = 1 then Char.ofNat value :: decodeFrom none bs
      else decodeFrom (some ⟨begun.needed - 1, 0x80, 0xbf, value⟩) bs
    else
      match beginChar b.toNat with
      | .inl c => replacement :: c :: decodeFrom none bs
      | .inr begun => replacement :: decodeFrom (some begun) bs

/-- Read octets as text. -/
def decodeUtf8 (bs : List UInt8) : List Char := decodeFrom none bs

example : decodeUtf8 [0x41, 0xc3, 0xa9, 0xe2, 0x82, 0x42] = ['A', 'é', replacement, 'B'] := by
  decide

end Library
