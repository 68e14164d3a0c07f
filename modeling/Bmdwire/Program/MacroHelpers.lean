import Bmdwire.Library.FixedPoint
import Bmdwire.Library.Octets
import Bmdwire.Model.Macros

/-!
# The shared part of the macro codec

`macrotransfer/_helpers.py`: reading and packing numbers, the names of sources, scalars as
text, and the layouts that many ops share. A decoder is also given the mixer state, which no
decoder looks at, so it is left out. The layouts with a scalar take the divisor `65536.0` that
every op uses.
-/

set_option autoImplicit false

namespace Bmdwire.Macros

open Library

/-! ## Reading -/

/-- `params[i]`. -/
def byteAt (params : Bytes) (i : ℕ) : Except String UInt8 :=
  match params[i]? with
  | some b => .ok b
  | none => .error "index out of range"

/-- `struct.unpack_from` for one unsigned number. -/
def unpackFrom (size : ℕ) (buf : Bytes) (offset : ℕ) : Except String ℕ :=
  match leRead size (buf.drop offset) with
  | some n => .ok n
  | none => .error s!"unpack_from requires a buffer of at least {offset + size} bytes for unpacking {size} bytes at offset {offset} (actual buffer size is {buf.length})"

def u16le (buf : Bytes) (offset : ℕ) : Except String ℕ := unpackFrom 2 buf offset

def u32le (buf : Bytes) (offset : ℕ) : Except String ℕ := unpackFrom 4 buf offset

def u64le (buf : Bytes) (offset : ℕ) : Except String ℕ := unpackFrom 8 buf offset

def i32le (buf : Bytes) (offset : ℕ) : Except String ℤ :=
  (unpackFrom 4 buf offset).map (asSigned 32)

/-- A number of 32 bits, with a sign or without. -/
def int32le (signed : Bool) (buf : Bytes) (offset : ℕ) : Except String ℤ :=
  if signed then i32le buf offset else (u32le buf offset).map (↑)

/-- `str` of a number. -/
def str (n : ℕ) : String := n.repr

/-! ## Names of sources -/

/-- `_INTERNAL_SOURCE_NAMES`. -/
def internalSourceNames : List (ℕ × String) :=
  [(0, "Black"), (1000, "Bars"), (2001, "Color1"), (2002, "Color2"),
   (3010, "MediaPlayer1"), (3011, "MediaPlayer1Key"),
   (3020, "MediaPlayer2"), (3021, "MediaPlayer2Key"),
   (1301, "XLRMic"), (1401, "ExternalTRS"), (4000, "ProgramOut"), (4010, "PreviewOut"),
   (4030, "CleanFeed1"), (7001, "CleanFeed1"), (7002, "CleanFeed2"),
   (5010, "ME1Program"), (5011, "ME1Preview"),
   (8001, "Auxiliary1"), (8002, "Auxiliary2"), (8003, "Auxiliary3"),
   (8004, "Auxiliary4"), (8005, "Auxiliary5"), (8006, "Auxiliary6"),
   (9000, "MultiViewer1"), (10010, "ProgramOut"), (10011, "PreviewOut")]

def resolveSourceToSymbol (sourceId : ℕ) : String :=
  if 1 ≤ sourceId ∧ sourceId ≤ 20 then "Camera" ++ str sourceId
  else (internalSourceNames.lookup sourceId).getD (str sourceId)

/-- `_SYMBOL_TO_SOURCE`. -/
def symbolToSource : List (String × ℤ) :=
  [("Black", 0), ("Bars", 1000), ("Color1", 2001), ("Color2", 2002),
   ("MediaPlayer1", 3010), ("MediaPlayer1Key", 3011),
   ("MediaPlayer2", 3020), ("MediaPlayer2Key", 3021),
   ("XLRMic", 1301), ("ExternalTRS", 1401),
   ("ProgramOut", 10010), ("PreviewOut", 10011),
   ("CleanFeed1", 7001), ("CleanFeed2", 7002),
   ("ME1Program", 5010), ("ME1Preview", 5011), ("MultiViewer1", 9000),
   ("Auxiliary1", 8001), ("Auxiliary2", 8002), ("Auxiliary3", 8003),
   ("Auxiliary4", 8004), ("Auxiliary5", 8005), ("Auxiliary6", 8006)]

/-- The text after a prefix it starts with. -/
def afterPrefix (start : List Char) (s : List Char) : Option (List Char) :=
  if start.isPrefixOf s then some (s.drop start.length) else none

def resolveSymbolToSource (name : String) : Except EncodeError ℤ :=
  let s := strip name.toList
  match parseInt 10 s with
  | some n => .ok n
  | none =>
    match (afterPrefix "Camera".toList s).bind (parseInt 10) with
    | some n => .ok n
    | none =>
      match symbolToSource.lookup (String.ofList s) with
      | some n => .ok n
      | none => .error (.unresolvable name)

/-! ## Text -/

/-- `_bool_str` -/
def boolStr (v : ℕ) : String := if v ≠ 0 then "True" else "False"

/-- `_fmt_scalar` -/
def fmtScalar (v : ℚ) : String := if v = 0 then "0" else String.ofList (formatG 6 v)

/-- The text of a raw fixed-point number. The quotient is a float. -/
def fixedStr (n : ℤ) : String := fmtScalar (nearestDouble (n / 65536))

/-- `int` of a text. -/
def toInt (text : String) : Except EncodeError ℤ :=
  match parseInt 10 text.toList with
  | some n => .ok n
  | none => .error (.notInteger text)

/-- `float` of a text. -/
def toFloat (text : String) : Except EncodeError FloatVal :=
  match parseReal text.toList with
  | some (.finite q) => .ok (FloatVal.ofRat q)
  | some v => .ok v
  | none => .error (.notNumber text)

/-- A float times `65536.0`. -/
def timesDivisor : FloatVal → FloatVal
  | .finite q => FloatVal.ofRat (q * 65536)
  | .infinite negative => .infinite negative
  | .nan => .nan

/-- `round` of a float. -/
def roundFloat : FloatVal → Except EncodeError ℤ
  | .finite q => .ok (roundHalfEven q)
  | .infinite _ => .error .infiniteToInteger
  | .nan => .error .nanToInteger

/-- `round(float(text) * 65536.0)`. -/
def toFixed (text : String) : Except EncodeError ℤ := do
  roundFloat (timesDivisor (← toFloat text))

def lower (cs : List Char) : String := String.ofList (cs.map Char.toLower)

/-- One of the words, white space around it and the case of its letters aside. -/
def isWord (words : List String) (text : String) : Bool := lower (strip text.toList) ∈ words

/-- One of the words, the case of its letters aside. -/
def isBareWord (words : List String) (text : String) : Bool := lower text.toList ∈ words

/-! ## Attributes -/

/-- `attrs[key]`. -/
def attr (attrs : Attrs) (key : String) : Except EncodeError String :=
  match attrs.lookup key with
  | some text => .ok text
  | none => .error (.missing key)

/-- `int(attrs[key])`. -/
def intAttr (attrs : Attrs) (key : String) : Except EncodeError ℤ := do toInt (← attr attrs key)

/-- `int(attrs.get(key, 0))`. -/
def intAttrOrZero (attrs : Attrs) (key : String) : Except EncodeError ℤ :=
  match attrs.lookup key with
  | some text => toInt text
  | none => .ok 0

/-- The number a name stands for, else the text read as a number. -/
def namedInt (names : List (String × ℤ)) (text : String) : Except EncodeError ℤ :=
  match names.lookup text with
  | some n => .ok n
  | none =>
    match parseInt 10 text.toList with
    | some n => .ok n
    | none => .error (.unknownName text)

/-- The name of a number, or its digits. -/
def nameOf (names : List (ℕ × String)) (n : ℕ) : String := (names.lookup n).getD (str n)

/-- The numbers by their names: `{v: k for k, v in names.items()}`. -/
def byName (names : List (ℕ × String)) : List (String × ℤ) := names.map fun p => (p.2, p.1)

/-! ## Packing -/

/-- The low octet of a number: `v & 0xFF`. -/
def lowByte (v : ℤ) : UInt8 := UInt8.ofNat (v % 0x100).toNat

def u16leBytes (v : ℤ) : Bytes := leBytes 2 (v % 0x10000).toNat

def u32leBytes (v : ℤ) : Bytes := leBytes 4 (v % 0x100000000).toNat

def i32leBytes (v : ℤ) : Except EncodeError Bytes :=
  if v < -0x80000000 ∨ v ≥ 0x80000000 then .error (.int32Range v)
  else .ok (leBytes 4 (v % 0x100000000).toNat)

/-- A number of 32 bits, with a sign or without. -/
def int32leBytes (signed : Bool) (v : ℤ) : Except EncodeError Bytes :=
  if signed then i32leBytes v else .ok (u32leBytes v)

/-- `bytes` of a list of numbers. -/
def bytesOf : List ℤ → Except EncodeError Bytes
  | [] => .ok []
  | v :: vs =>
    if 0 ≤ v ∧ v < 0x100 then (bytesOf vs).map (UInt8.ofNat v.toNat :: ·)
    else .error (.byteRange v)

/-- `struct.pack('<H', v)`. -/
def packU16 (v : ℤ) : Except EncodeError Bytes :=
  if 0 ≤ v ∧ v < 0x10000 then .ok (leBytes 2 v.toNat) else .error (.structRange v)

/-- `struct.pack('<i', v)`. -/
def packI32 (v : ℤ) : Except EncodeError Bytes :=
  if -0x80000000 ≤ v ∧ v < 0x80000000 then .ok (leBytes 4 (v % 0x100000000).toNat)
  else .error (.structRange v)

/-- `_bool_byte` -/
def boolByte (text : String) : UInt8 := if isWord ["true", "1", "yes", "on"] text then 1 else 0

/-- `_pack_fixed_value` and `_pack_signed_fixed_value`. -/
def packFixedValue (signed : Bool) (text : String) : Except EncodeError Bytes := do
  int32leBytes signed (← toFixed text)

/-! ## Layouts

`_d_me_marker_u16` to `_e_gen_marker_fp`. -/

/-- The index of the mix-effect block, which need not be there and loses what does not fit. -/
def meByte (attrs : Attrs) : Except EncodeError UInt8 :=
  (intAttrOrZero attrs "mixEffectBlockIndex").map lowByte

def keyerByte (attrs : Attrs) : Except EncodeError UInt8 := (intAttr attrs "keyIndex").map lowByte

def dMeMarkerU16 (attrName : String) : Decoder := fun params => do
  let me ← byteAt params 0
  let v ← u16le params 2
  return [("mixEffectBlockIndex", str me.toNat), (attrName, str v)]

def eMeMarkerU16 (attrName : String) (familyMarker : UInt8) : Encoder := fun attrs => do
  let me ← meByte attrs
  let v ← intAttr attrs attrName
  return [me, familyMarker] ++ u16leBytes v

def dMeMarkerSource (attrName : String) : Decoder := fun params => do
  let me ← byteAt params 0
  let source ← u16le params 2
  return [("mixEffectBlockIndex", str me.toNat), (attrName, resolveSourceToSymbol source)]

def eMeMarkerSource (familyMarker : UInt8) (attrName : String) : Encoder := fun attrs => do
  let me ← meByte attrs
  let src ← resolveSymbolToSource (← attr attrs attrName)
  return [me, familyMarker] ++ u16leBytes src

def dMeValueMarkerBool (attrName : String) : Decoder := fun params => do
  let me ← byteAt params 0
  let v ← byteAt params 1
  return [("mixEffectBlockIndex", str me.toNat), (attrName, boolStr v.toNat)]

def eMeValueMarkerBool (attrName : String) (opMarker : ℤ) : Encoder := fun attrs => do
  let me ← meByte attrs
  let val := boolByte (← attr attrs attrName)
  return [me, val] ++ u16leBytes opMarker

def dMeKeyerBool (attrName : String) : Decoder := fun params => do
  let me ← byteAt params 0
  let keyer ← byteAt params 1
  let v ← byteAt params 2
  return [("mixEffectBlockIndex", str me.toNat), ("keyIndex", str keyer.toNat),
    (attrName, boolStr v.toNat)]

def eMeKeyerBool (attrName : String) (byte3Marker : UInt8) : Encoder := fun attrs => do
  let me ← meByte attrs
  let keyer ← keyerByte attrs
  let val := boolByte (← attr attrs attrName)
  return [me, keyer, val, byte3Marker]

def dMeKeyerU16 (attrName : String) : Decoder := fun params => do
  let me ← byteAt params 0
  let keyer ← byteAt params 1
  let v ← u16le params 2
  return [("mixEffectBlockIndex", str me.toNat), ("keyIndex", str keyer.toNat),
    (attrName, str v)]

def eMeKeyerU16 (attrName : String) : Encoder := fun attrs => do
  let me ← meByte attrs
  let keyer ← keyerByte attrs
  let v ← intAttr attrs attrName
  return [me, keyer] ++ u16leBytes v

def dMeKeyerMarkerFp (signed : Bool) (attrName : String) : Decoder := fun params => do
  let valInt ← int32le signed params 4
  let me ← byteAt params 0
  let keyer ← byteAt params 1
  return [("mixEffectBlockIndex", str me.toNat), ("keyIndex", str keyer.toNat),
    (attrName, fixedStr valInt)]

def eMeKeyerMarkerFp (signed : Bool) (attrName : String) (markerU16 : ℤ) : Encoder :=
  fun attrs => do
    let me ← meByte attrs
    let keyer ← keyerByte attrs
    let valInt ← toFixed (← attr attrs attrName)
    return [me, keyer] ++ u16leBytes markerU16 ++ (← int32leBytes signed valInt)

def dMeDoubleMarkerFp (signed : Bool) (attrName : String) : Decoder := fun params => do
  let valInt ← int32le signed params 4
  let me ← byteAt params 0
  return [("mixEffectBlockIndex", str me.toNat), (attrName, fixedStr valInt)]

def eMeDoubleMarkerFp (signed : Bool) (attrName : String) (familyMarker : UInt8)
    (opMarker : ℤ) : Encoder := fun attrs => do
  let me ← meByte attrs
  let valInt ← toFixed (← attr attrs attrName)
  return [me, familyMarker] ++ u16leBytes opMarker ++ (← int32leBytes signed valInt)

def dGenMarkerFp (signed : Bool) (attrName : String) : Decoder := fun params => do
  let valInt ← int32le signed params 4
  let gen ← byteAt params 0
  return [("colorGeneratorIndex", str gen.toNat), (attrName, fixedStr valInt)]

def eGenMarkerFp (signed : Bool) (attrName : String) (markerU16 : ℤ) : Encoder := fun attrs => do
  let gen := lowByte (← intAttrOrZero attrs "colorGeneratorIndex")
  let valInt ← toFixed (← attr attrs attrName)
  return [gen, 0] ++ u16leBytes markerU16 ++ (← int32leBytes signed valInt)

/-! ## Names and markers -/

/-- `_WIPE_PATTERN_NAMES`. -/
def wipePatternNames : List (ℕ × String) :=
  [(0, "LeftToRightBar"), (1, "TopToBottomBar"), (2, "HorizontalBarnDoor"),
   (3, "VerticalBarnDoor"), (4, "CornersInFourBox"), (5, "RectangleIris"),
   (6, "DiamondIris"), (7, "CircleIris"), (8, "TopLeftBox"), (9, "TopRightBox"),
   (10, "BottomRightBox"), (11, "BottomLeftBox"), (12, "TopCentreBox"),
   (13, "RightCentreBox"), (14, "BottomCentreBox"), (15, "LeftCentreBox"),
   (16, "TopLeftDiagonal"), (17, "TopRightDiagonal")]

/-- `_DVE_PATTERN_NAMES`. -/
def dvePatternNames : List (ℕ × String) :=
  [(16, "SqueezeTopLeft"), (17, "SqueezeTop"), (18, "SqueezeTopRight"), (19, "SqueezeLeft"),
   (20, "SqueezeRight"), (21, "SqueezeBottomLeft"), (22, "SqueezeBottom"),
   (23, "SqueezeBottomRight"), (24, "PushTopLeft"), (25, "PushTop"), (26, "PushTopRight"),
   (27, "PushLeft"), (28, "PushRight"), (29, "PushBottomLeft"), (30, "PushBottom"),
   (31, "PushBottomRight"), (34, "GraphicLogoWipe")]

/-- `FLYKEY_LOCATION_NAMES`. -/
def flykeyLocationNames : List (ℕ × String) :=
  [(0, "CentreOfKey"), (1, "TopLeft"), (2, "TopCentre"), (3, "TopRight"), (4, "MiddleLeft"),
   (5, "MiddleCentre"), (6, "MiddleRight"), (7, "BottomLeft"), (8, "BottomCentre"),
   (9, "BottomRight")]

/-- `_USK_TYPE_NAMES`. -/
def uskTypeNames : List (ℕ × String) := [(0, "Luma"), (1, "Chroma"), (2, "Pattern"), (3, "DVE")]

def famMix : UInt8 := 0x4D
def famDip : UInt8 := 0x4E
def famWipe : UInt8 := 0x88
def famDve : UInt8 := 0x88
def famStinger : UInt8 := 0x88
def famFtbRate : UInt8 := 0x00
def opMarker026C : ℤ := 0x026C
def fairlightFam4346 : ℤ := 0x4346
def fairlightFam03E1 : ℤ := 0x03E1
def fairlightFam024A : ℤ := 0x024A
def dveMarker : ℤ := 0x000C

end Bmdwire.Macros
