import Bmdwire.Model.Transfer

/-!
# The data of the macro codec

The switcher keeps a macro as bytecode: for each op a header of two little-endian 16-bit
numbers, its length and its kind, and then its parameters. The codec turns it into a list of
ops as the profile XML has them, an id with attributes that are all text, and back.

A decoder's exceptions are caught and their text goes into the op, so here a decoder fails
with that text. An encoder's exceptions reach the caller, so here an encoder fails with what
was raised and for which value.
-/

set_option autoImplicit false

namespace Bmdwire.Macros

/-- The attributes of an op beside its id, in the order they were put in. -/
abbrev Attrs := List (String × String)

/-- An op descriptor. -/
structure Op where
  id : String
  attrs : Attrs
deriving DecidableEq, Repr

/-- The exceptions of the encoders, with the value they are about. -/
inductive EncodeError
  /-- the `KeyError` of a missing attribute, made a `ValueError` for the caller -/
  | missing (key : String)
  | noEncoder (id : String)
  | malformedId (id : String)
  | malformedParams (id : String)
  | unresolvable (name : String)
  | unknownName (text : String)
  | badSourceId (text : String)
  | modeRange (mode : ℤ)
  /-- text that `int` or `float` does not take -/
  | notInteger (text : String)
  | notNumber (text : String)
  /-- a float that is not a number has no nearest integer, nor has an infinite one -/
  | nanToInteger
  | infiniteToInteger
  /-- a number outside the range of `bytes`, of `_i32le_bytes` or of a `struct` format -/
  | byteRange (value : ℤ)
  | int32Range (value : ℤ)
  | structRange (value : ℤ)
  | badAddress (text : String)
  | embeddedNull (text : String)
deriving DecidableEq, Repr

/-- The exception types that reach the caller of `encode_single_op`. -/
inductive ErrorType
  | valueError
  | overflowError
  | structError
  | osError
deriving DecidableEq, Repr

def EncodeError.type : EncodeError → ErrorType
  | .infiniteToInteger => .overflowError
  | .structRange _ => .structError
  | .badAddress _ => .osError
  | .missing _ | .noEncoder _ | .malformedId _ | .malformedParams _ | .unresolvable _
  | .unknownName _ | .badSourceId _ | .modeRange _ | .notInteger _ | .notNumber _
  | .nanToInteger | .byteRange _ | .int32Range _ | .embeddedNull _ => .valueError

/-- The parameters of an op, read into attributes. -/
abbrev Decoder := Bytes → Except String Attrs

/-- The attributes of an op, packed into parameters. -/
abbrev Encoder := Attrs → Except EncodeError Bytes

/-- A row of `_KNOWN_OPS`. -/
structure KnownOp where
  code : ℕ
  id : String
  decode : Decoder
  encode : Encoder

end Bmdwire.Macros
