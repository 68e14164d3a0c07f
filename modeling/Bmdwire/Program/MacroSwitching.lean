import Bmdwire.Program.MacroHelpers

/-!
# Macro ops: switching

`macrotransfer/switching.py`: bus and transition ops, fade to black, auxiliaries, colour
generators and the video mode. A decoder is `d…`, the encoder beside it `e…`.
-/

set_option autoImplicit false

namespace Bmdwire.Macros

open Library

/-! ## Bus and transition -/

def dProgramInput : Decoder := dMeMarkerSource "input"

def dPreviewInput : Decoder := dMeMarkerSource "input"

def dAuxiliaryInput : Decoder := fun params => do
  let aux ← byteAt params 0
  let source ← u16le params 2
  return [("auxiliaryIndex", str aux.toNat), ("input", resolveSourceToSymbol source)]

/-- The ops that name a mix-effect block and nothing else. -/
def dMeOnly : Decoder := fun params => do
  let me ← byteAt params 0
  return [("mixEffectBlockIndex", str me.toNat)]

def dCut : Decoder := dMeOnly

def dAuto : Decoder := dMeOnly

def dFadeToBlack : Decoder := dMeOnly

/-- `_TRANSITION_STYLES`. -/
def transitionStyles : List (ℕ × String) :=
  [(0, "Mix"), (1, "Dip"), (2, "Wipe"), (3, "DVE"), (4, "Stinger")]

def dTransitionStyle : Decoder := fun params => do
  let me ← byteAt params 0
  let style ← byteAt params 1
  return [("mixEffectBlockIndex", str me.toNat), ("style", nameOf transitionStyles style.toNat)]

/-- The bits of a layer mask and what they select. -/
def layerNames : List (ℕ × String) :=
  [(0, "Background"), (1, "Key1"), (2, "Key2"), (3, "Key3"), (4, "Key4")]

def resolveLayerMask (mask : ℕ) : String :=
  let parts := (layerNames.filter fun p => mask.testBit p.1).map Prod.snd
  if parts = [] then "Background" else ",".intercalate parts

def dTransitionSource : Decoder := fun params => do
  let me ← byteAt params 0
  let mask ← u16le params 2
  return [("mixEffectBlockIndex", str me.toNat), ("source", resolveLayerMask mask)]

/-- An op that sends `mixEffectBlockIndex` and `input`, the index being written as it is. -/
def eInput (key : Attrs → Except EncodeError ℤ) : Encoder := fun attrs => do
  let src ← resolveSymbolToSource (← attr attrs "input")
  let head ← bytesOf [← key attrs, 0]
  return head ++ u16leBytes src

def eProgramInput : Encoder := eInput (intAttrOrZero · "mixEffectBlockIndex")

def ePreviewInput : Encoder := eInput (intAttrOrZero · "mixEffectBlockIndex")

def eAuxiliaryInput : Encoder := eInput (intAttr · "auxiliaryIndex")

def eMeOnly : Encoder := fun attrs => do
  bytesOf [← intAttrOrZero attrs "mixEffectBlockIndex", 0, 0, 0]

def eCut : Encoder := eMeOnly

def eAuto : Encoder := eMeOnly

def eFadeToBlack : Encoder := eMeOnly

/-- A style that has no name is taken for the first. -/
def eTransitionStyle : Encoder := fun attrs => do
  let style := (attrs.lookup "style").getD "Mix"
  let styleInt := ((byName transitionStyles).lookup style).getD 0
  bytesOf [← intAttrOrZero attrs "mixEffectBlockIndex", styleInt, 0, 0]

/-- The parts of a text between commas. -/
def splitCommas (s : List Char) : List (List Char) := s.splitOnP (· = ',')

def packLayerMask (s : String) : ℤ :=
  let parts := (splitCommas s.toList).map strip
  ((layerNames.filter fun p => p.2.toList ∈ parts).map fun p => 2 ^ p.1).sum

def eTransitionSource : Encoder := fun attrs => do
  let head ← bytesOf [← intAttrOrZero attrs "mixEffectBlockIndex", 0]
  return head ++ u16leBytes (packLayerMask ((attrs.lookup "source").getD ""))

/-! ## Fade-to-black enable -/

def dFtbEnabled : Decoder := dMeValueMarkerBool "enabled"

def eFtbEnabled : Encoder := fun attrs => do
  let me ← meByte attrs
  let enabled := isWord ["true", "1", "yes"] (← attr attrs "enabled")
  return [me, if enabled then 1 else 0, 0, 0]

/-! ## Video mode -/

/-- `VIDEO_MODE_XML_NAMES`. -/
def videoModeIntToName : List (ℕ × String) :=
  [(0, "525i5994"), (1, "625i50"), (2, "NTSC_widescreen"), (3, "PAL_widescreen"),
   (4, "720p50"), (5, "720p5994"), (28, "720p60"),
   (6, "1080i50"), (7, "1080i5994"), (29, "1080i60"),
   (8, "1080p2398"), (9, "1080p24"), (10, "1080p25"),
   (11, "1080p2997"), (26, "1080p30"),
   (12, "1080p50"), (13, "1080p5994"), (27, "1080p60"),
   (14, "4KHDp2398"), (15, "4KHDp24"), (16, "4KHDp25"), (17, "4KHDp2997"),
   (18, "4KHDp50"), (19, "4KHDp5994"),
   (20, "8KHDp2398"), (21, "8KHDp24"), (22, "8KHDp25"), (23, "8KHDp2997"),
   (24, "8KHDp50"), (25, "8KHDp5994")]

/-- `VIDEO_MODE_NAMES`. -/
def videoModeNames : List (String × ℤ) :=
  [("NTSC", 0), ("525i5994", 0), ("PAL", 1), ("625i50", 1),
   ("NTSC_widescreen", 2), ("PAL_widescreen", 3),
   ("720p50", 4), ("720p5994", 5), ("720p60", 28),
   ("1080i50", 6), ("1080i5994", 7), ("1080i60", 29),
   ("1080p2398", 8), ("1080p24", 9), ("1080p25", 10),
   ("1080p2997", 11), ("1080p30", 26),
   ("1080p50", 12), ("1080p5994", 13), ("1080p60", 27),
   ("4KHDp2398", 14), ("4KHDp24", 15), ("4KHDp25", 16), ("4KHDp2997", 17),
   ("4KHDp50", 18), ("4KHDp5994", 19),
   ("8KHDp2398", 20), ("8KHDp24", 21), ("8KHDp25", 22), ("8KHDp2997", 23),
   ("8KHDp50", 24), ("8KHDp5994", 25),
   ("2160p2398", 14), ("2160p24", 15), ("2160p25", 16), ("2160p2997", 17),
   ("2160p50", 18), ("2160p5994", 19),
   ("4320p2398", 20), ("4320p24", 21), ("4320p25", 22), ("4320p2997", 23),
   ("4320p50", 24), ("4320p5994", 25)]

/-- `_video_mode_number`: a name, or the label of a mode that has none. -/
def videoModeNumber (name : String) : Option ℤ :=
  match videoModeNames.lookup name with
  | some mode => some mode
  | none =>
    match afterPrefix "mode-".toList name.toList with
    | some digits =>
      if digits ≠ [] ∧ digits.all Char.isDigit ∧ digitsValue 10 0 digits ≤ 0xFF then
        some (digitsValue 10 0 digits)
      else none
    | none => none

def dVideoMode : Decoder := fun params => do
  let mode ← byteAt params 0
  return [("videoMode", nameOf videoModeIntToName mode.toNat)]

def eVideoMode : Encoder := fun attrs => do
  let mode ← attr attrs "videoMode"
  let modeInt ←
    match videoModeNumber mode with
    | some n => .ok n
    | none =>
      match parseInt 10 mode.toList with
      | some n => .ok n
      | none => .error (.unknownName mode)
  if 0 ≤ modeInt ∧ modeInt ≤ 0xFF then bytesOf [modeInt, 0, 0, 0]
  else .error (.modeRange modeInt)

/-! ## Transition settings -/

def dTransitionMixRate : Decoder := dMeMarkerU16 "rate"

def eTransitionMixRate : Encoder := eMeMarkerU16 "rate" famMix

def dTransitionDipRate : Decoder := dMeMarkerU16 "rate"

def eTransitionDipRate : Encoder := eMeMarkerU16 "rate" famDip

def dTransitionDipInput : Decoder := dMeMarkerSource "input"

def eTransitionDipInput : Encoder := eMeMarkerSource famDip "input"

def dTransitionWipeRate : Decoder := dMeMarkerU16 "rate"

def eTransitionWipeRate : Encoder := eMeMarkerU16 "rate" famWipe

def dTransitionWipePattern : Decoder := fun params => do
  let patternInt ← u16le params 2
  let me ← byteAt params 0
  return [("mixEffectBlockIndex", str me.toNat), ("pattern", nameOf wipePatternNames patternInt)]

def eTransitionWipePattern : Encoder := fun attrs => do
  let me ← meByte attrs
  let patInt ← namedInt (byName wipePatternNames) (← attr attrs "pattern")
  return [me, famWipe] ++ u16leBytes patInt

def dTransitionWipeBorderSoftness : Decoder := dMeDoubleMarkerFp true "softness"

def eTransitionWipeBorderSoftness : Encoder := eMeDoubleMarkerFp true "softness" famWipe opMarker026C

def dTransitionWipeBorderWidth : Decoder := dMeDoubleMarkerFp true "width"

def eTransitionWipeBorderWidth : Encoder := eMeDoubleMarkerFp true "width" famWipe opMarker026C

def dTransitionWipeBorderFillInput : Decoder := dMeMarkerSource "input"

def eTransitionWipeBorderFillInput : Encoder := eMeMarkerSource famWipe "input"

def dTransitionWipeXPosition : Decoder := dMeDoubleMarkerFp true "xPosition"

def eTransitionWipeXPosition : Encoder := eMeDoubleMarkerFp true "xPosition" famWipe opMarker026C

def dTransitionWipeYPosition : Decoder := dMeDoubleMarkerFp true "yPosition"

def eTransitionWipeYPosition : Encoder := eMeDoubleMarkerFp true "yPosition" famWipe opMarker026C

def dTransitionWipeDveFlipflop : Decoder := dMeValueMarkerBool "flipFlop"

def eTransitionWipeDveFlipflop : Encoder := eMeValueMarkerBool "flipFlop" opMarker026C

def dTransitionWipeDveReverse : Decoder := dMeValueMarkerBool "reverse"

def eTransitionWipeDveReverse : Encoder := eMeValueMarkerBool "reverse" opMarker026C

def dTransitionDveRate : Decoder := dMeMarkerU16 "rate"

def eTransitionDveRate : Encoder := eMeMarkerU16 "rate" famDve

def dTransitionDvePattern : Decoder := fun params => do
  let patInt ← byteAt params 1
  let me ← byteAt params 0
  return [("mixEffectBlockIndex", str me.toNat), ("pattern", nameOf dvePatternNames patInt.toNat)]

def eTransitionDvePattern : Encoder := fun attrs => do
  let me ← meByte attrs
  let patInt ← namedInt (byName dvePatternNames) (← attr attrs "pattern")
  return [me, lowByte patInt] ++ u16leBytes opMarker026C

def dTransitionDveFillInput : Decoder := dMeMarkerSource "input"

def eTransitionDveFillInput : Encoder := eMeMarkerSource famDve "input"

def dTransitionDveCutInput : Decoder := dMeMarkerSource "input"

def eTransitionDveCutInput : Encoder := eMeMarkerSource famDve "input"

def dTransitionDveCutInputEnable : Decoder := dMeValueMarkerBool "enable"

def eTransitionDveCutInputEnable : Encoder := eMeValueMarkerBool "enable" opMarker026C

def dTransitionStingerSourceMediaplayer : Decoder := dMeMarkerU16 "mediaPlayer"

def eTransitionStingerSourceMediaplayer : Encoder := eMeMarkerU16 "mediaPlayer" famStinger

def dTransitionStingerPreRoll : Decoder := dMeMarkerU16 "preRoll"

def eTransitionStingerPreRoll : Encoder := eMeMarkerU16 "preRoll" famStinger

def dTransitionStingerClipDuration : Decoder := dMeMarkerU16 "clipDuration"

def eTransitionStingerClipDuration : Encoder := eMeMarkerU16 "clipDuration" famStinger

def dTransitionStingerTriggerPoint : Decoder := dMeMarkerU16 "triggerPoint"

def eTransitionStingerTriggerPoint : Encoder := eMeMarkerU16 "triggerPoint" famStinger

def dTransitionStingerMixRate : Decoder := dMeMarkerU16 "mixRate"

def eTransitionStingerMixRate : Encoder := eMeMarkerU16 "mixRate" famStinger

def dTransitionStingerDveClip : Decoder := dMeDoubleMarkerFp true "clip"

def eTransitionStingerDveClip : Encoder := eMeDoubleMarkerFp true "clip" famStinger opMarker026C

def dTransitionStingerDveGain : Decoder := dMeDoubleMarkerFp true "gain"

def eTransitionStingerDveGain : Encoder := eMeDoubleMarkerFp true "gain" famStinger opMarker026C

def dTransitionStingerDveInvert : Decoder := dMeValueMarkerBool "invert"

def eTransitionStingerDveInvert : Encoder := eMeValueMarkerBool "invert" opMarker026C

def dTransitionStingerDvePremultiply : Decoder := dMeValueMarkerBool "preMultiply"

def eTransitionStingerDvePremultiply : Encoder := eMeValueMarkerBool "preMultiply" opMarker026C

/-! ## Colour generators and the fade-to-black rate -/

def dColorGenHue : Decoder := dGenMarkerFp true "hue"

def eColorGenHue : Encoder := eGenMarkerFp true "hue" 0x026C

def dColorGenSaturation : Decoder := dGenMarkerFp true "saturation"

def eColorGenSaturation : Encoder := eGenMarkerFp true "saturation" 0x026C

def dColorGenLuminescence : Decoder := dGenMarkerFp true "luminescence"

def eColorGenLuminescence : Encoder := eGenMarkerFp true "luminescence" 0x026C

def dFtbRate : Decoder := dMeMarkerU16 "rate"

def eFtbRate : Encoder := eMeMarkerU16 "rate" famFtbRate

end Bmdwire.Macros
