import Bmdwire.Program.MacroHelpers

/-!
# Macro ops: downstream keyers

`macrotransfer/downstream_keyer.py`: the two sources, the rate, going on air and the key's
settings.
-/

set_option autoImplicit false

namespace Bmdwire.Macros

open Library

/-! ## Layouts -/

/-- The keyer and an octet of zero, the index being written as it is. -/
def dskHead (attrs : Attrs) : Except EncodeError Bytes := do
  bytesOf [← intAttr attrs "keyIndex", 0]

def dDskSource : Decoder := fun params => do
  let key ← byteAt params 0
  let source ← u16le params 2
  return [("keyIndex", str key.toNat), ("input", resolveSourceToSymbol source)]

def eDskSource : Encoder := fun attrs => do
  let head ← dskHead attrs
  let src ← resolveSymbolToSource (← attr attrs "input")
  return head ++ u16leBytes src

def dDskBool (attrName : String) : Decoder := fun params => do
  let key ← byteAt params 0
  let v ← byteAt params 1
  return [("keyIndex", str key.toNat), (attrName, boolStr v.toNat)]

/-- A switch that takes no white space around its word. -/
def eDskBareBool (attrName : String) : Encoder := fun attrs => do
  let on := isBareWord ["true", "1"] (← attr attrs attrName)
  bytesOf [← intAttr attrs "keyIndex", if on then 1 else 0, 0, 0]

def eDskBool (attrName : String) (marker : ℤ) : Encoder := fun attrs => do
  let head ← bytesOf [← intAttr attrs "keyIndex"]
  let val := boolByte (← attr attrs attrName)
  return head ++ [val] ++ u16leBytes marker

def dDskFixed (attrName : String) : Decoder := fun params => do
  let key ← byteAt params 0
  let valInt ← int32le false params 4
  return [("keyIndex", str key.toNat), (attrName, fixedStr valInt)]

def dskMarker : ℤ := 0x0000

def eDskFixed (attrName : String) : Encoder := fun attrs => do
  let head ← dskHead attrs
  let value ← packFixedValue false (← attr attrs attrName)
  return head ++ u16leBytes dskMarker ++ value

/-! ## The ops -/

def dDskFillInput : Decoder := dDskSource

def eDskFillInput : Encoder := eDskSource

def dDskCutInput : Decoder := dDskSource

def eDskCutInput : Encoder := eDskSource

def dDskRate : Decoder := fun params => do
  let key ← byteAt params 0
  let v ← u16le params 2
  return [("keyIndex", str key.toNat), ("rate", str v)]

def eDskRate : Encoder := fun attrs => do
  let head ← dskHead attrs
  let v ← intAttr attrs "rate"
  return head ++ u16leBytes v

def dDskAuto : Decoder := fun params => do
  let key ← byteAt params 0
  return [("keyIndex", str key.toNat)]

def eDskAuto : Encoder := fun attrs => do
  bytesOf [← intAttr attrs "keyIndex", 0, 0, 0]

def dDskOnAir : Decoder := dDskBool "onAir"

def eDskOnAir : Encoder := eDskBareBool "onAir"

def dDskTie : Decoder := dDskBool "tie"

def eDskTie : Encoder := eDskBareBool "tie"

def dDskClip : Decoder := dDskFixed "clip"

def eDskClip : Encoder := eDskFixed "clip"

def dDskGain : Decoder := dDskFixed "gain"

def eDskGain : Encoder := eDskFixed "gain"

def dDskMaskEnable : Decoder := dDskBool "enable"

def eDskMaskEnable : Encoder := eDskBool "enable" dveMarker

def dDskPreMultiply : Decoder := dDskBool "preMultiply"

def eDskPreMultiply : Encoder := eDskBool "preMultiply" dskMarker

end Bmdwire.Macros
