import Bmdwire.Program.MediaConvert

/-!
# The pixels of a frame

`rgb_to_atem` and `atem_to_rgb` of `mediaconvertmodule.c` convert two pixels at a time, eight bytes
to eight bytes, and `imaging.atem_to_rgb` a long frame in pieces. The floating-point arithmetic of
a colour is a parameter; what is done in integers, the clamps, the alpha and the packing of the
10-bit components, is done here. The functions are taken with their allocations successful.
-/

set_option autoImplicit false

namespace Bmdwire

/-- A pixel of 8-bit components. -/
structure Rgba where
  r : UInt8
  g : UInt8
  b : UInt8
  a : UInt8
deriving DecidableEq, Repr

/-- The arithmetic of the colours. Of `rgb_to_atem`: luma and the two differences of a pixel,
scaled, as the `unsigned short`s before they are clamped, given `premultiply`. Of `atem_to_rgb`:
the colour of a luma with its two differences, and the alpha, as `unsigned char`s. -/
structure ColourMath where
  luma : Bool → Rgba → UInt16
  blue : Bool → Rgba → UInt16
  red : Bool → Rgba → UInt16
  colour : ℕ → ℕ → ℕ → UInt8 × UInt8 × UInt8
  alpha : ℕ → UInt8

/-- `clamp`. Between the two tests the value is a `short`, from 0x8000 on a negative one. -/
def clampShort (v min max : UInt16) : UInt16 :=
  let t := if v < min then min else v
  if t < 0x8000 ∧ max < t then max else t

/-- The components of two pixels, which share the differences. -/
structure PixelPair where
  alpha1 : ℕ
  alpha2 : ℕ
  blue : ℕ
  red : ℕ
  luma1 : ℕ
  luma2 : ℕ
deriving DecidableEq, Repr

namespace PixelPair

/-- What `rgb_to_atem` writes for two pixels, each byte cast to an `unsigned char`. -/
def pack (p : PixelPair) : Word :=
  [p.alpha1 >>> 4, ((p.alpha1 &&& 0x0f) <<< 4) ||| (p.blue >>> 6),
    ((p.blue &&& 0x3f) <<< 2) ||| (p.luma1 >>> 8), p.luma1 &&& 0xff,
    p.alpha2 >>> 4, ((p.alpha2 &&& 0x0f) <<< 4) ||| (p.red >>> 6),
    ((p.red &&& 0x3f) <<< 2) ||| (p.luma2 >>> 8), p.luma2 &&& 0xff].map UInt8.ofNat

/-- The alpha that `atem_to_rgb` reads from two bytes: the first is a signed `char`, and the sum is
put in an `unsigned short`. -/
def readAlpha (first second : UInt8) : ℕ :=
  ((if first < 0x80 then first.toNat else first.toNat + (0x1000 - 0x100)) <<< 4 +
    ((second.toNat &&& 0xf0) >>> 4)) % 0x10000

/-- A difference in the low bits of one byte and the high bits of the next. -/
def readDifference (first second : UInt8) : ℕ :=
  ((first.toNat &&& 0x0f) <<< 6) + ((second.toNat &&& 0xfc) >>> 2)

/-- A luma in the low bits of one byte and the next. -/
def readLuma (first second : UInt8) : ℕ :=
  ((first.toNat &&& 0x03) <<< 8) + (second.toNat &&& 0xff)

/-- What `atem_to_rgb` reads from eight bytes. -/
def unpack : Word → PixelPair
  | [b0, b1, b2, b3, b4, b5, b6, b7] =>
    { alpha1 := readAlpha b0 b1
      alpha2 := readAlpha b4 b5
      blue := readDifference b1 b2
      red := readDifference b5 b6
      luma1 := readLuma b2 b3
      luma2 := readLuma b6 b7 }
  | _ => ⟨0, 0, 0, 0, 0, 0⟩

end PixelPair

/-- The `ValueError` of a frame that is not whole groups of eight bytes. -/
structure RaggedFrame where
  length : ℕ
deriving DecidableEq, Repr

/-- Its text. -/
def RaggedFrame.message (e : RaggedFrame) : String :=
  "frame length " ++ toString e.length ++ " is not a multiple of 8"

/-- The alpha of `rgb_to_atem`, in integers. -/
def alpha10 (a : UInt8) : ℕ := (a.toNat <<< 2) * 219 / 255 + (15 <<< 2) + 1

namespace ColourMath

variable (m : ColourMath)

/-- The components of two pixels. The differences are those of the second. -/
def pair (premultiply : Bool) (first second : Rgba) : PixelPair where
  alpha1 := alpha10 first.a
  alpha2 := alpha10 second.a
  blue := (clampShort (m.blue premultiply second) 44 960).toNat
  red := (clampShort (m.red premultiply second) 44 960).toNat
  luma1 := (clampShort (m.luma premultiply first) 64 940).toNat
  luma2 := (clampShort (m.luma premultiply second) 64 940).toNat

/-- One iteration of `rgb_to_atem`. -/
def packGroup (premultiply : Bool) : Word → Word
  | [r1, g1, b1, a1, r2, g2, b2, a2] =>
    (m.pair premultiply ⟨r1, g1, b1, a1⟩ ⟨r2, g2, b2, a2⟩).pack
  | _ => []

/-- The two pixels of a group of components. -/
def pixels (p : PixelPair) : Word :=
  let first := m.colour p.luma1 p.blue p.red
  let second := m.colour p.luma2 p.blue p.red
  [first.1, first.2.1, first.2.2, m.alpha p.alpha1,
    second.1, second.2.1, second.2.2, m.alpha p.alpha2]

/-- One iteration of `atem_to_rgb`. -/
def unpackGroup (w : Word) : Word := m.pixels (PixelPair.unpack w)

/-- A loop over the groups of a frame. -/
def convert (group : Word → Word) (data : Bytes) : Except RaggedFrame Bytes :=
  if data.length % 8 ≠ 0 then .error ⟨data.length⟩
  else if data.length = 0 then .ok []
  else .ok ((words data).map group).flatten

/-- `method_rgb_to_atem`. -/
def rgbToAtem (premultiply : Bool) : Bytes → Except RaggedFrame Bytes :=
  convert (m.packGroup premultiply)

/-- `method_atem_to_rgb`. -/
def atemToRgb : Bytes → Except RaggedFrame Bytes := convert m.unpackGroup

end ColourMath

/-- `CONVERT_PIECE`. -/
def convertPiece : ℕ := 1024 * 1024

/-- The slices `view[i:i + piece]` for `i` in `range(0, len(view), piece)`. -/
def slices (piece : ℕ) (data : Bytes) : List Bytes :=
  (List.range ((data.length + piece - 1) / piece)).map fun i => (data.drop (i * piece)).take piece

/-- `imaging.atem_to_rgb`. -/
def imagingAtemToRgb (m : ColourMath) (data : Bytes) : Except RaggedFrame Bytes :=
  if data.length ≤ convertPiece ∨ data.length % 8 ≠ 0 then m.atemToRgb data
  else ((slices convertPiece data).mapM m.atemToRgb).map List.flatten

end Bmdwire
