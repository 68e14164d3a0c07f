import Bmdwire.Program.MacroHelpers

/-!
# Macro ops: upstream keyers

`macrotransfer/upstream_keyer.py`: key type and sources, luma keys, masks, fly keys with
their borders and shadows, the advanced chroma key and key frames.
-/

set_option autoImplicit false

namespace Bmdwire.Macros

open Library

/-! ## Layouts

The ops here write both indices as they are. -/

/-- The mix-effect block and the keyer. -/
def meKeyer (attrs : Attrs) : Except EncodeError (List ℤ) := do
  return [← intAttrOrZero attrs "mixEffectBlockIndex", ← intAttr attrs "keyIndex"]

def dKeySource : Decoder := fun params => do
  let me ← byteAt params 0
  let keyer ← byteAt params 1
  let source ← u16le params 2
  return [("mixEffectBlockIndex", str me.toNat), ("keyIndex", str keyer.toNat),
    ("input", resolveSourceToSymbol source)]

def eKeySource : Encoder := fun attrs => do
  let src ← resolveSymbolToSource (← attr attrs "input")
  let head ← bytesOf (← meKeyer attrs)
  return head ++ u16leBytes src

def eKeyBool (attrName : String) (last : UInt8) : Encoder := fun attrs => do
  let head ← bytesOf (← meKeyer attrs)
  let val := boolByte (← attr attrs attrName)
  return head ++ [val] ++ [last]

def dKeyFixed (signed : Bool) (attrName : String) : Decoder := fun params => do
  let me ← byteAt params 0
  let keyer ← byteAt params 1
  let valInt ← int32le signed params 4
  return [("mixEffectBlockIndex", str me.toNat), ("keyIndex", str keyer.toNat),
    (attrName, fixedStr valInt)]

def eKeyFixed (signed : Bool) (attrName : String) (marker : ℤ) : Encoder := fun attrs => do
  let head ← bytesOf (← meKeyer attrs)
  let value ← packFixedValue signed (← attr attrs attrName)
  return head ++ u16leBytes marker ++ value

/-! ## Key type, sources and luma keys -/

def dKeyType : Decoder := fun params => do
  let me ← byteAt params 0
  let keyer ← byteAt params 1
  let typeInt ← byteAt params 2
  return [("mixEffectBlockIndex", str me.toNat), ("keyIndex", str keyer.toNat),
    ("type", nameOf uskTypeNames typeInt.toNat)]

/-- A type that has no name is taken for the first. -/
def eKeyType : Encoder := fun attrs => do
  let typeName := (attrs.lookup "type").getD "Luma"
  let typeInt := ((byName uskTypeNames).lookup typeName).getD 0
  bytesOf ((← meKeyer attrs) ++ [typeInt, 0x03])

def dKeyOnAir : Decoder := fun params => do
  let me ← byteAt params 0
  let keyer ← byteAt params 1
  let v ← u16le params 2
  return [("mixEffectBlockIndex", str me.toNat), ("keyIndex", str keyer.toNat),
    ("onAir", boolStr v)]

def eKeyOnAir : Encoder := fun attrs => do
  let on := isBareWord ["true", "1"] (← attr attrs "onAir")
  let head ← bytesOf (← meKeyer attrs)
  return head ++ u16leBytes (if on then 1 else 0)

def dKeyFillInput : Decoder := dKeySource

def eKeyFillInput : Encoder := eKeySource

def dKeyCutInput : Decoder := dKeySource

def eKeyCutInput : Encoder := eKeySource

def dKeyMaskEnable : Decoder := dMeKeyerBool "enable"

def eKeyMaskEnable : Encoder := eKeyBool "enable" 0x00

def dKeyFlyEnable : Decoder := dMeKeyerBool "enable"

def eKeyFlyEnable : Encoder := eKeyBool "enable" 0x03

def lumaClipGainMarker : ℤ := 0x000C

def dLumaKeyClip : Decoder := dKeyFixed false "clip"

def eLumaKeyClip : Encoder := eKeyFixed false "clip" lumaClipGainMarker

def dLumaKeyGain : Decoder := dKeyFixed false "gain"

def eLumaKeyGain : Encoder := eKeyFixed false "gain" lumaClipGainMarker

def dLumaKeyInvert : Decoder := dMeKeyerBool "invert"

def eLumaKeyInvert : Encoder := eKeyBool "invert" 0x00

def dLumaKeyPreMultiply : Decoder := dMeKeyerBool "preMultiply"

def eLumaKeyPreMultiply : Encoder := eKeyBool "preMultiply" 0x00

/-! ## Fly keys -/

def dDveXsize : Decoder := dKeyFixed false "xSize"

def eDveXsize : Encoder := eKeyFixed false "xSize" dveMarker

def dDveYsize : Decoder := dKeyFixed false "ySize"

def eDveYsize : Encoder := eKeyFixed false "ySize" dveMarker

def dDveXpos : Decoder := dKeyFixed true "xPosition"

def eDveXpos : Encoder := eKeyFixed true "xPosition" dveMarker

def dDveYpos : Decoder := dKeyFixed true "yPosition"

def eDveYpos : Encoder := eKeyFixed true "yPosition" dveMarker

def dDveMaskEnable : Decoder := dMeKeyerBool "enable"

def eDveMaskEnable : Encoder := eKeyBool "enable" 0x00

def dDveMaskTop : Decoder := dKeyFixed true "top"

def eDveMaskTop : Encoder := eKeyFixed true "top" dveMarker

def dDveMaskBottom : Decoder := dKeyFixed true "bottom"

def eDveMaskBottom : Encoder := eKeyFixed true "bottom" dveMarker

def dDveMaskLeft : Decoder := dKeyFixed true "left"

def eDveMaskLeft : Encoder := eKeyFixed true "left" dveMarker

def dDveMaskRight : Decoder := dKeyFixed true "right"

def eDveMaskRight : Encoder := eKeyFixed true "right" dveMarker

/-! ## Mask edges and the rate -/

def dUskMaskTop : Decoder := dMeKeyerMarkerFp true "top"

def eUskMaskTop : Encoder := eMeKeyerMarkerFp true "top" 0x000C

def dUskMaskBottom : Decoder := dMeKeyerMarkerFp true "bottom"

def eUskMaskBottom : Encoder := eMeKeyerMarkerFp true "bottom" 0x000C

def dUskMaskLeft : Decoder := dMeKeyerMarkerFp true "left"

def eUskMaskLeft : Encoder := eMeKeyerMarkerFp true "left" 0x000C

def dUskMaskRight : Decoder := dMeKeyerMarkerFp true "right"

def eUskMaskRight : Encoder := eMeKeyerMarkerFp true "right" 0x000C

def dDveFlykeyRate : Decoder := dMeKeyerU16 "rate"

def eDveFlykeyRate : Encoder := eMeKeyerU16 "rate"

/-! ## Border and shadow -/

def dDveBorderEnable : Decoder := dMeKeyerBool "enable"

def eDveBorderEnable : Encoder := eMeKeyerBool "enable" 0

def dDveBorderHue : Decoder := dMeKeyerMarkerFp true "hue"

def eDveBorderHue : Encoder := eMeKeyerMarkerFp true "hue" 0x000C

def dDveBorderSaturation : Decoder := dMeKeyerMarkerFp true "saturation"

def eDveBorderSaturation : Encoder := eMeKeyerMarkerFp true "saturation" 0x000C

def dDveBorderLuminescence : Decoder := dMeKeyerMarkerFp true "luminescence"

def eDveBorderLuminescence : Encoder := eMeKeyerMarkerFp true "luminescence" 0x000C

def dDveBorderInnerWidth : Decoder := dMeKeyerMarkerFp true "innerWidth"

def eDveBorderInnerWidth : Encoder := eMeKeyerMarkerFp true "innerWidth" 0x000C

def dDveBorderOuterWidth : Decoder := dMeKeyerMarkerFp true "outerWidth"

def eDveBorderOuterWidth : Encoder := eMeKeyerMarkerFp true "outerWidth" 0x000C

def dDveBorderInnerSoftness : Decoder := dMeKeyerU16 "innerSoftness"

def eDveBorderInnerSoftness : Encoder := eMeKeyerU16 "innerSoftness"

def dDveBorderOuterSoftness : Decoder := dMeKeyerU16 "outerSoftness"

def eDveBorderOuterSoftness : Encoder := eMeKeyerU16 "outerSoftness"

def dDveBorderOpacity : Decoder := dMeKeyerU16 "opacity"

def eDveBorderOpacity : Encoder := eMeKeyerU16 "opacity"

def dDveShadowEnable : Decoder := dMeKeyerBool "enable"

def eDveShadowEnable : Encoder := eMeKeyerBool "enable" 0

def dDveShadowDirection : Decoder := dMeKeyerMarkerFp true "direction"

def eDveShadowDirection : Encoder := eMeKeyerMarkerFp true "direction" 0x000C

def dDveShadowAltitude : Decoder := dMeKeyerU16 "altitude"

def eDveShadowAltitude : Encoder := eMeKeyerU16 "altitude"

/-! ## Advanced chroma key -/

def dAckFp000c (attrName : String) : Decoder := dMeKeyerMarkerFp true attrName

def eAckFp000c (attrName : String) : Encoder := eMeKeyerMarkerFp true attrName 0x000C

def dAckFp026c (attrName : String) : Decoder := dMeKeyerMarkerFp true attrName

def eAckFp026c (attrName : String) : Encoder := eMeKeyerMarkerFp true attrName 0x026C

def dAckForegroundLevel : Decoder := dAckFp000c "foregroundLevel"

def eAckForegroundLevel : Encoder := eAckFp000c "foregroundLevel"

def dAckBackgroundLevel : Decoder := dAckFp000c "backgroundLevel"

def eAckBackgroundLevel : Encoder := eAckFp000c "backgroundLevel"

def dAckKeyEdge : Decoder := dAckFp000c "keyEdge"

def eAckKeyEdge : Encoder := eAckFp000c "keyEdge"

def dAckSpillSuppress : Decoder := dAckFp000c "spillSuppress"

def eAckSpillSuppress : Encoder := eAckFp000c "spillSuppress"

def dAckFlareSuppress : Decoder := dAckFp000c "flareSuppress"

def eAckFlareSuppress : Encoder := eAckFp000c "flareSuppress"

def dAckForegroundBrightness : Decoder := dAckFp000c "foregroundBrightness"

def eAckForegroundBrightness : Encoder := eAckFp000c "foregroundBrightness"

def dAckForegroundContrast : Decoder := dAckFp000c "foregroundContrast"

def eAckForegroundContrast : Encoder := eAckFp000c "foregroundContrast"

def dAckForegroundColour : Decoder := dAckFp000c "foregroundColour"

def eAckForegroundColour : Encoder := eAckFp000c "foregroundColour"

def dAckForegroundRed : Decoder := dAckFp000c "foregroundRed"

def eAckForegroundRed : Encoder := eAckFp000c "foregroundRed"

def dAckForegroundGreen : Decoder := dAckFp000c "foregroundGreen"

def eAckForegroundGreen : Encoder := eAckFp000c "foregroundGreen"

def dAckForegroundBlue : Decoder := dAckFp000c "foregroundBlue"

def eAckForegroundBlue : Encoder := eAckFp000c "foregroundBlue"

def dAckSamplingModeEnabled : Decoder := dMeKeyerBool "enabled"

def eAckSamplingModeEnabled : Encoder := eMeKeyerBool "enabled" 0x02

def dAckPreviewEnabled : Decoder := dMeKeyerBool "enabled"

def eAckPreviewEnabled : Encoder := eMeKeyerBool "enabled" 0x04

def dAckCursorX : Decoder := dAckFp026c "xPosition"

def eAckCursorX : Encoder := eAckFp026c "xPosition"

def dAckCursorY : Decoder := dAckFp026c "yPosition"

def eAckCursorY : Encoder := eAckFp026c "yPosition"

def dAckCursorSize : Decoder := dAckFp026c "size"

def eAckCursorSize : Encoder := eAckFp026c "size"

/-! ## Key frames -/

def dFlykeySetKeyframe : Decoder := dMeKeyerU16 "keyFrameIndex"

def eFlykeySetKeyframe : Encoder := eMeKeyerU16 "keyFrameIndex"

def dFlykeyRunToKeyframe : Decoder := dMeKeyerU16 "keyFrameIndex"

def eFlykeyRunToKeyframe : Encoder := eMeKeyerU16 "keyFrameIndex"

def dFlykeyRunToFull : Decoder := fun params => do
  let me ← byteAt params 0
  let keyer ← byteAt params 1
  return [("mixEffectBlockIndex", str me.toNat), ("keyIndex", str keyer.toNat)]

def eFlykeyRunToFull : Encoder := fun attrs => do
  let me ← meByte attrs
  let keyer ← keyerByte attrs
  return [me, keyer] ++ u16leBytes 0x024A

def dFlykeyRunToInfinity : Decoder := fun params => do
  let locInt ← byteAt params 2
  let me ← byteAt params 0
  let keyer ← byteAt params 1
  return [("mixEffectBlockIndex", str me.toNat), ("keyIndex", str keyer.toNat),
    ("location", nameOf flykeyLocationNames locInt.toNat)]

def eFlykeyRunToInfinity : Encoder := fun attrs => do
  let me ← meByte attrs
  let keyer ← keyerByte attrs
  let locInt ← namedInt (byName flykeyLocationNames) (← attr attrs "location")
  return [me, keyer, lowByte locInt, 0x02]

end Bmdwire.Macros
