import Bmdwire.Program.MacroHelpers

/-!
# Macro ops: Fairlight audio

`macrotransfer/fairlight.py`: the strips with their equaliser and dynamics, the master fader
and the headphones. The strip ops begin with a prefix of twelve octets, the source, a marker
of the family and the source id.
-/

set_option autoImplicit false

namespace Bmdwire.Macros

open Library

/-! ## Strips -/

def fairlightStripMarker : ℤ := 0x4346

/-- `_MIX_TYPE_NAMES`. -/
def mixTypeNames : List (ℕ × String) := [(1, "Off"), (2, "On"), (4, "AFV")]

def fairlightMixTypeTrailingMarker : ℤ := 0x000C

def dFairlightStripFaderGain : Decoder := fun params => do
  let source ← u16le params 0
  let sourceId ← u64le params 4
  let gainInt ← i32le params 12
  return [("input", resolveSourceToSymbol source), ("sourceId", str sourceId),
    ("gain", fixedStr gainInt)]

def dFairlightStripMixType : Decoder := fun params => do
  let source ← u16le params 0
  let sourceId ← u64le params 4
  let state ← u16le params 12
  return [("input", resolveSourceToSymbol source), ("sourceId", str sourceId),
    ("mixType", nameOf mixTypeNames state)]

def dFairlightMasterFaderGain : Decoder := fun params => do
  let gainInt ← i32le params 0
  return [("gain", fixedStr gainInt)]

/-- `_resolve_source_id`: a missing id is that of a stereo source. -/
def resolveSourceId (value : Option String) : Except EncodeError ℕ :=
  match value with
  | none => .ok 0xFFFFFFFFFFFF0100
  | some "" => .ok 0xFFFFFFFFFFFF0100
  | some text =>
    match parseInt 10 text.toList with
    | some n => .ok (n % 2 ^ 64).toNat
    | none => .error (.badSourceId text)

/-- The first twelve octets. -/
def stripPrefix (src marker : ℤ) (sid : ℕ) : Bytes :=
  u16leBytes src ++ u16leBytes marker ++ leBytes 8 sid

def stripPrefixEncode (attrs : Attrs) (familyMarker : ℤ) : Except EncodeError Bytes := do
  let src ← resolveSymbolToSource (← attr attrs "input")
  let sid ← resolveSourceId (attrs.lookup "sourceId")
  return stripPrefix src familyMarker sid

def eFairlightStripFaderGain : Encoder := fun attrs => do
  let head ← stripPrefixEncode attrs fairlightStripMarker
  let gainInt ← toFixed (← attr attrs "gain")
  return head ++ (← packI32 gainInt)

/-- A mix type that has no name is taken for `On`. -/
def eFairlightStripMixType : Encoder := fun attrs => do
  let head ← stripPrefixEncode attrs fairlightStripMarker
  let mixType ← attr attrs "mixType"
  let state := ((byName mixTypeNames).lookup mixType).getD 2
  return head ++ (← packU16 state) ++ u16leBytes fairlightMixTypeTrailingMarker

def eFairlightMasterFaderGain : Encoder := fun attrs => do
  packI32 (← toFixed (← attr attrs "gain"))

/-! ## Layouts -/

/-- `_FAIRLIGHT_EQ_SHAPE_NAMES`. -/
def fairlightEqShapeNames : List (ℕ × String) :=
  [(1, "LowShelf"), (2, "LowPass"), (4, "BandPass"), (8, "Notch"), (16, "HighPass"),
   (32, "HighShelf")]

/-- `_FAIRLIGHT_EQ_RANGE_NAMES`. -/
def fairlightEqRangeNames : List (ℕ × String) :=
  [(1, "Low"), (2, "MidLow"), (4, "MidHigh"), (8, "High")]

def fairlightEnableTrailingMarker : ℤ := 0x000C

/-- The source and the source id; the marker is read and left. -/
def stripPrefixDecode (params : Bytes) : Except String (ℕ × ℕ) := do
  let source ← u16le params 0
  let _ ← u16le params 2
  let sid ← u64le params 4
  return (source, sid)

def dStripValueFp (signed : Bool) (attrName : String) : Decoder := fun params => do
  let (source, sid) ← stripPrefixDecode params
  let valInt ← int32le signed params 12
  return [("input", resolveSourceToSymbol source), ("sourceId", str sid),
    (attrName, fixedStr valInt)]

def eStripValueFp (signed : Bool) (familyMarker : ℤ) (attrName : String) : Encoder :=
  fun attrs => do
    let valInt ← toFixed (← attr attrs attrName)
    let payload ← int32leBytes signed valInt
    return (← stripPrefixEncode attrs familyMarker) ++ payload

def dStripEnable : Decoder := fun params => do
  let (source, sid) ← stripPrefixDecode params
  let v ← byteAt params 12
  return [("input", resolveSourceToSymbol source), ("sourceId", str sid),
    ("enabled", boolStr v.toNat)]

def eStripEnable (familyMarker : ℤ) (byte13 : UInt8) (trailingMarker : ℤ) : Encoder :=
  fun attrs => do
    let enabled := isWord ["true", "1", "yes"] (← attr attrs "enabled")
    let head ← stripPrefixEncode attrs familyMarker
    return head ++ [if enabled then 1 else 0, byte13] ++ u16leBytes trailingMarker

/-- A band setting with a name: the shape or the range. -/
def dEqBandName (attrName : String) (names : List (ℕ × String)) : Decoder := fun params => do
  let (source, sid) ← stripPrefixDecode params
  let nameInt ← u16le params 14
  let band ← byteAt params 12
  return [("input", resolveSourceToSymbol source), ("sourceId", str sid),
    ("band", str band.toNat), (attrName, nameOf names nameInt)]

def eEqBandName (attrName : String) (names : List (ℕ × String)) : Encoder := fun attrs => do
  let band := lowByte (← intAttr attrs "band")
  let nameInt ← namedInt (byName names) (← attr attrs attrName)
  let head ← stripPrefixEncode attrs fairlightFam03E1
  return head ++ [band, 0xAC] ++ u16leBytes nameInt

/-- A band setting with a scalar: the gain or the quality factor. -/
def dEqBandFixed (attrName : String) : Decoder := fun params => do
  let (source, sid) ← stripPrefixDecode params
  let valInt ← i32le params 16
  let band ← byteAt params 12
  return [("input", resolveSourceToSymbol source), ("sourceId", str sid),
    ("band", str band.toNat), (attrName, fixedStr valInt)]

def eEqBandFixed (attrName : String) : Encoder := fun attrs => do
  let band := lowByte (← intAttr attrs "band")
  let valInt ← toFixed (← attr attrs attrName)
  let head ← stripPrefixEncode attrs fairlightFam03E1
  return head ++ [band, 0xAC] ++ u16leBytes 0x000C ++ (← i32leBytes valInt)

/-! ## Equaliser -/

def dEqGain : Decoder := dStripValueFp true "gain"

def eEqGain : Encoder := eStripValueFp true fairlightFam4346 "gain"

def dEqBandEnabled : Decoder := fun params => do
  let (source, sid) ← stripPrefixDecode params
  let band ← byteAt params 12
  let v ← byteAt params 13
  return [("input", resolveSourceToSymbol source), ("sourceId", str sid),
    ("band", str band.toNat), ("enabled", boolStr v.toNat)]

def eEqBandEnabled : Encoder := fun attrs => do
  let band := lowByte (← intAttr attrs "band")
  let enabled := isWord ["true", "1", "yes"] (← attr attrs "enabled")
  let head ← stripPrefixEncode attrs fairlightFam03E1
  return head ++ [band, if enabled then 1 else 0] ++ u16leBytes 0x000C

def dEqBandShape : Decoder := dEqBandName "shape" fairlightEqShapeNames

def eEqBandShape : Encoder := eEqBandName "shape" fairlightEqShapeNames

def dEqBandRange : Decoder := dEqBandName "range" fairlightEqRangeNames

def eEqBandRange : Encoder := eEqBandName "range" fairlightEqRangeNames

def dEqBandFrequency : Decoder := fun params => do
  let (source, sid) ← stripPrefixDecode params
  let band ← byteAt params 12
  let freq ← u32le params 16
  return [("input", resolveSourceToSymbol source), ("sourceId", str sid),
    ("band", str band.toNat), ("frequency", str freq)]

def eEqBandFrequency : Encoder := fun attrs => do
  let band := lowByte (← intAttr attrs "band")
  let freq ← intAttr attrs "frequency"
  let head ← stripPrefixEncode attrs fairlightFam03E1
  return head ++ [band, 0xAC] ++ u16leBytes 0x000C ++ u32leBytes freq

def dEqBandGain : Decoder := dEqBandFixed "gain"

def eEqBandGain : Encoder := eEqBandFixed "gain"

def dEqBandQfactor : Decoder := dEqBandFixed "qFactor"

def eEqBandQfactor : Encoder := eEqBandFixed "qFactor"

/-! ## Compressor, limiter and expander -/

def dCompEnabled : Decoder := dStripEnable

def eCompEnabled : Encoder := eStripEnable fairlightFam4346 0xAC fairlightEnableTrailingMarker

def dCompThreshold : Decoder := dStripValueFp true "threshold"

def eCompThreshold : Encoder := eStripValueFp true fairlightFam4346 "threshold"

def dCompRatio : Decoder := dStripValueFp true "ratio"

def eCompRatio : Encoder := eStripValueFp true fairlightFam4346 "ratio"

def dCompAttack : Decoder := dStripValueFp true "attack"

def eCompAttack : Encoder := eStripValueFp true fairlightFam4346 "attack"

def dCompHold : Decoder := dStripValueFp true "hold"

def eCompHold : Encoder := eStripValueFp true fairlightFam4346 "hold"

def dCompRelease : Decoder := dStripValueFp true "release"

def eCompRelease : Encoder := eStripValueFp true fairlightFam4346 "release"

def dLimiterEnabled : Decoder := dStripEnable

def eLimiterEnabled : Encoder := eStripEnable fairlightFam03E1 0xAC fairlightEnableTrailingMarker

def dLimiterThreshold : Decoder := dStripValueFp true "threshold"

def eLimiterThreshold : Encoder := eStripValueFp true fairlightFam03E1 "threshold"

def dLimiterAttack : Decoder := dStripValueFp true "attack"

def eLimiterAttack : Encoder := eStripValueFp true fairlightFam03E1 "attack"

def dLimiterHold : Decoder := dStripValueFp true "hold"

def eLimiterHold : Encoder := eStripValueFp true fairlightFam03E1 "hold"

def dLimiterRelease : Decoder := dStripValueFp true "release"

def eLimiterRelease : Encoder := eStripValueFp true fairlightFam03E1 "release"

def dExpanderEnabled : Decoder := dStripEnable

def eExpanderEnabled : Encoder := eStripEnable fairlightFam024A 0x60 0x01B4

def dExpanderGateModeEnabled : Decoder := dStripEnable

def eExpanderGateModeEnabled : Encoder := eStripEnable fairlightFam024A 0x60 0x01B4

def dExpanderThreshold : Decoder := dStripValueFp true "threshold"

def eExpanderThreshold : Encoder := eStripValueFp true fairlightFam024A "threshold"

def dExpanderRange : Decoder := dStripValueFp true "range"

def eExpanderRange : Encoder := eStripValueFp true fairlightFam024A "range"

def dExpanderRatio : Decoder := dStripValueFp true "ratio"

def eExpanderRatio : Encoder := eStripValueFp true fairlightFam024A "ratio"

def dExpanderAttack : Decoder := dStripValueFp true "attack"

def eExpanderAttack : Encoder := eStripValueFp true fairlightFam024A "attack"

def dExpanderHold : Decoder := dStripValueFp true "hold"

def eExpanderHold : Encoder := eStripValueFp true fairlightFam024A "hold"

def dExpanderRelease : Decoder := dStripValueFp true "release"

def eExpanderRelease : Encoder := eStripValueFp true fairlightFam024A "release"

/-! ## Gains and headphones -/

def dInputGain : Decoder := dStripValueFp true "gain"

def eInputGain : Encoder := eStripValueFp true fairlightFam4346 "gain"

def dDynamicsGain : Decoder := dStripValueFp true "gain"

def eDynamicsGain : Encoder := eStripValueFp true fairlightFam4346 "gain"

def dHpGain : Decoder := fun params => do
  let val ← i32le params 0
  return [("gain", fixedStr val)]

def eHpGain : Encoder := fun attrs => do
  i32leBytes (← toFixed (← attr attrs "gain"))

end Bmdwire.Macros
