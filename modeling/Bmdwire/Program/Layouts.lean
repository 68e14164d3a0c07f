import Bmdwire.Library.Octets
import Bmdwire.Library.Rounding
import Bmdwire.Library.Utf8Encode
import Bmdwire.Model.Sockets
import Bmdwire.Program.Fields

/-!
# Declared layouts

`messages/_dsl.py`: the types of declared fields, how each writes and reads a value, and the
`Send` that a layout and the attributes of an object make. `TransferFileDataCommand` and
`InputPropertiesCommand`, which write text in a `get_command` of their own, are here too.
-/

set_option autoImplicit false

namespace Bmdwire

open Library (FloatVal roundHalfEven encodeUtf8 decodeUtf8 paddedTo beforeNul)
open Packet (packU16)

/-! ## Values -/

/-- What an attribute is set to, when it is not `None`. -/
inductive Value
  | int (n : ℤ)
  | float (x : FloatVal)
  | bool (b : Bool)
  | text (s : Line)
  | octets (bs : Bytes)
deriving DecidableEq, Repr

/-- The `scale` of a field. -/
inductive Scale
  | int (n : ℤ)
  | float (q : ℚ)
deriving DecidableEq, Repr

/-- `float(n)`; `none` is an `OverflowError`. -/
def floatOf (n : ℤ) : Option ℚ :=
  match FloatVal.ofRat n with
  | .finite q => some q
  | _ => none

/-- A product of floating-point numbers. -/
def timesFloat (x : FloatVal) (q : ℚ) : FloatVal :=
  match x with
  | .finite p => FloatVal.ofRat (p * q)
  | .infinite negative =>
    if q = 0 then .nan else .infinite (if q < 0 then !negative else negative)
  | .nan => .nan

/-- `round(x)`; `none` is an `OverflowError` or a `ValueError`. -/
def roundFloat? (x : FloatVal) : Option ℤ :=
  match x with
  | .finite q => some (roundHalfEven q)
  | _ => none

/-- `int(round(value * scale))` of an integer. -/
def scaledInt (n : ℤ) (scale : Scale) : Option ℤ :=
  match scale with
  | .int s => some (n * s)
  | .float s => (floatOf n).bind fun q => roundFloat? (timesFloat (.finite q) s)

/-- `int(round(value * scale))` of a floating-point number. -/
def scaledFloat (x : FloatVal) (scale : Scale) : Option ℤ :=
  match scale with
  | .int s => (floatOf s).bind fun q => roundFloat? (timesFloat x q)
  | .float s => roundFloat? (timesFloat x s)

/-- `self.scale != 1.0` -/
def Scale.scales (scale : Scale) : Bool :=
  match scale with
  | .int n => n ≠ 1
  | .float q => q ≠ 1

/-- The integer that `struct.pack_into` is given; `none` is an exception. -/
def wireInt (scale : Scale) (value : Value) : Option ℤ :=
  match value with
  | .int n => if scale.scales then scaledInt n scale else some n
  | .bool b => if scale.scales then scaledInt b.toInt scale else some b.toInt
  | .float x => if scale.scales then scaledFloat x scale else none
  | .text _ => none
  | .octets _ => none

/-- `bool(value)` -/
def Value.truthy : Value → Bool
  | .int n => n ≠ 0
  | .float x => x ≠ .finite 0
  | .bool b => b
  | .text s => s ≠ []
  | .octets bs => bs ≠ []

/-- `bytes(value)` of what is no text; `none` is an exception. -/
def Value.bytes? : Value → Option Bytes
  | .int n => if 0 ≤ n then some (List.replicate n.toNat 0) else none
  | .float _ => none
  | .bool b => some (List.replicate b.toNat 0)
  | .text _ => none
  | .octets bs => some bs

/-! ## Fields -/

/-- The widths of numbers. -/
inductive Width
  | one
  | two
  | four
deriving DecidableEq, Repr

def Width.octets : Width → ℕ
  | .one => 1
  | .two => 2
  | .four => 4

/-- The classes of declared fields, but for `tail`. -/
inductive FieldType
  | number (width : Width) (signed : Bool) (scale : Scale)
  | boolean
  | string (size : ℕ)
deriving DecidableEq, Repr

namespace FieldType

def u8 (scale : Scale) : FieldType := .number .one false scale
def u16 (scale : Scale) : FieldType := .number .two false scale
def u32 (scale : Scale) : FieldType := .number .four false scale
def i8 (scale : Scale) : FieldType := .number .one true scale
def i16 (scale : Scale) : FieldType := .number .two true scale
def i32 (scale : Scale) : FieldType := .number .four true scale

/-- `size` -/
def size : FieldType → ℕ
  | .number width _ _ => width.octets
  | .boolean => 1
  | .string size => size

end FieldType

/-- A number in so many octets, the highest first; `none` is one out of their range. -/
def packNumber (size : ℕ) (signed : Bool) (n : ℤ) : Option Bytes :=
  if signed then
    if -2 ^ (8 * size - 1) ≤ n ∧ n < 2 ^ (8 * size - 1) then
      Send.packBig size (n % 256 ^ size).toNat
    else none
  else if 0 ≤ n then Send.packBig size n.toNat
  else none

/-- The octets that `pack` writes. -/
def FieldType.pack (type : FieldType) (value : Value) : Option Bytes :=
  match type with
  | .number width signed scale => (wireInt scale value).bind (packNumber width.octets signed)
  | .boolean => some [if value.truthy then 1 else 0]
  | .string size =>
    match value with
    | .text s => some (paddedTo size (encodeUtf8 s))
    | value => value.bytes?.map (paddedTo size)

/-- The number in the octets, the highest first. -/
def unpackBig (octets : Bytes) : ℕ := octets.foldl (fun n b => n * 256 + b.toNat) 0

/-- `struct.unpack_from`, of a number. -/
def unpackNumber (signed : Bool) (octets : Bytes) : ℤ :=
  if signed then Library.asSigned (8 * octets.length) (unpackBig octets) else unpackBig octets

/-- What `unpack` gives. -/
def FieldType.unpack (type : FieldType) (octets : Bytes) : Value :=
  match type with
  | .number _ signed scale =>
    let wire := unpackNumber signed octets
    match scale with
    | .int s => if s ≠ 1 then .float (FloatVal.ofRat (wire / s)) else .int wire
    | .float s => if s ≠ 1 then .float (FloatVal.ofRat (wire / s)) else .int wire
  | .boolean => .bool (unpackNumber false octets ≠ 0)
  | .string _ => .text (decodeUtf8 (beforeNul octets))

/-- A declared field. -/
structure Field where
  name : String
  offset : ℕ
  maskBit : Option ℕ
  type : FieldType
deriving DecidableEq, Repr

/-- The `tail` of a layout: it is written behind the fixed part, and padded. -/
structure Tail where
  name : String
  padTo : Option ℕ
deriving DecidableEq, Repr

/-- The data of a tail, with zeros up to `pad_to`. -/
def Tail.data (tail : Tail) (bs : Bytes) : Bytes :=
  match tail.padTo with
  | some n => bs ++ List.replicate (n - bs.length) 0
  | none => bs

/-- What a subclass of `Send` declares; a tail is declared last. -/
structure Layout where
  code : WireCode
  size : ℕ
  maskAt : Option ℕ
  maskSize : ℕ
  fields : List Field
  tail : Option Tail
deriving DecidableEq, Repr

/-- The attributes of an object; `none` stands for `None` and for one that is not set. -/
abbrev Attributes := String → Option Value

/-- A field as the loop of `get_command` meets it. -/
def Field.written (f : Field) (attrs : Attributes) : SendField where
  maskBit := f.maskBit
  value := (attrs f.name).map fun value => .packInto f.offset (f.type.pack value)

/-- The tail as the loop of `get_command` meets it. -/
def Tail.written (tail : Tail) (attrs : Attributes) : SendField where
  maskBit := none
  value := (attrs tail.name).map fun value =>
    match value.bytes? with
    | some bs => .extend (tail.data bs)
    | none => .packInto 0 none

/-- The object, ready for `get_command`. -/
def Layout.send (layout : Layout) (attrs : Attributes) : Send where
  code := layout.code
  size := layout.size
  maskAt := layout.maskAt
  maskSize := layout.maskSize
  fields := layout.fields.map (·.written attrs) ++ layout.tail.toList.map (·.written attrs)

/-! ## Commands that write text themselves -/

/-- A text that is given is cut and put into its place. -/
def packText (offset size : ℕ) (text : Option Line) (buf : Bytes) : Option Bytes :=
  match text with
  | some text => Send.packInto offset (paddedTo size ((encodeUtf8 text).take size)) buf
  | none => some buf

/-- `struct.pack_into('>H', buf, offset, n)` of a number that is given. -/
def packShort (offset : ℕ) (n : Option ℕ) (buf : Bytes) : Option Bytes :=
  match n with
  | some n => (Send.packBig 2 n).bind fun octets => Send.packInto offset octets buf
  | none => some buf

/-- `InputPropertiesCommand` -/
def inputPropertiesCommand (sourceIndex : ℕ) (label shortLabel : Option Line)
    (portType : Option ℕ) : Outgoing :=
  let mask := (if label.isSome then 1 else 0) + (if shortLabel.isSome then 2 else 0) +
    (if portType.isSome then 4 else 0)
  .packed ⟨[0x43, 0x49, 0x6e, 0x4c], rfl⟩
    ((((packShort 2 (some sourceIndex) (UInt8.ofNat mask :: List.replicate 31 0)).bind
      (packText 4 20 label)).bind (packText 24 4 shortLabel)).bind (packShort 28 portType))

/-- `TransferFileDataCommand` -/
def transferFileDataCommand (transfer : ℕ) (hash : Bytes) (name description : Option Line) :
    Outgoing :=
  let name := (name.map encodeUtf8).getD []
  let description := (description.map encodeUtf8).getD []
  .packed ⟨[0x46, 0x54, 0x46, 0x44], rfl⟩
    ((Send.packBig 2 transfer).map fun transfer =>
      transfer ++ paddedTo 64 name ++ paddedTo 128 description ++ paddedTo 16 hash ++ [0, 0])

end Bmdwire
