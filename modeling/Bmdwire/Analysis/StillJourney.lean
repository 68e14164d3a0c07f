import Bmdwire.Analysis.DownloadBuffer
import Bmdwire.Analysis.UploadChunks
import Bmdwire.Analysis.UploadDelivery
import Bmdwire.Program.PixelFormat

/-!
# A still, from the picture to the switcher and back

The first byte of a group that `rgb_to_atem` packs holds the high bits of an alpha of ten bits, so
no group is the header of the run-length code, and a converted frame is always encoded. Its chunks
join to the stream that the switcher keeps; a download collects that stream, decodes it to the
frame, and the frame is unpacked, in whatever pieces, to the components it was packed from.
-/

set_option autoImplicit false

namespace Bmdwire

open Library (run OkAlong)

/-! ## Ten bits in bytes -/

namespace PixelPair

/-- Components of ten bits. -/
structure TenBit (p : PixelPair) : Prop where
  alpha1 : p.alpha1 < 1024
  alpha2 : p.alpha2 < 1024
  blue : p.blue < 1024
  red : p.red < 1024
  luma1 : p.luma1 < 1024
  luma2 : p.luma2 < 1024

/-- The low bits of one number above the high bits of another. -/
theorem shiftLeft_or_shiftRight (x y : ℕ) {low high all : ℕ} (hy : y < 2 ^ all)
    (hall : all ≤ high + low) :
    (x <<< low) ||| (y >>> high) = x * 2 ^ low + y / 2 ^ high := by
  have hlt : y >>> high < 2 ^ low := by
    rw [Nat.shiftRight_eq_div_pow, Nat.div_lt_iff_lt_mul (Nat.two_pow_pos high), ← Nat.pow_add]
    exact hy.trans_le (Nat.pow_le_pow_right (by decide) (by omega))
  rw [← Nat.shiftLeft_add_eq_or_of_lt hlt, Nat.shiftLeft_eq, Nat.shiftRight_eq_div_pow]

/-- The bits of a number under a mask, shifted down to the mask's end. -/
theorem and_shiftRight (x mask low bits : ℕ) (hmask : mask >>> low = 2 ^ bits - 1) :
    (x &&& mask) >>> low = x / 2 ^ low % 2 ^ bits := by
  rw [Nat.shiftRight_and_distrib, hmask, Nat.and_two_pow_sub_one_eq_mod,
    Nat.shiftRight_eq_div_pow]

/-- The four bytes of one pixel: its alpha, a difference and its luma. -/
theorem read_pixel {alpha difference luma : ℕ} (halpha : alpha < 1024)
    (hdifference : difference < 1024) (hluma : luma < 1024) :
    let b0 := UInt8.ofNat (alpha >>> 4)
    let b1 := UInt8.ofNat (((alpha &&& 0x0f) <<< 4) ||| (difference >>> 6))
    let b2 := UInt8.ofNat (((difference &&& 0x3f) <<< 2) ||| (luma >>> 8))
    let b3 := UInt8.ofNat (luma &&& 0xff)
    readAlpha b0 b1 = alpha ∧ readDifference b1 b2 = difference ∧ readLuma b2 b3 = luma := by
  intro b0 b1 b2 b3
  have hb0 : b0.toNat = alpha / 16 := by
    rw [UInt8.toNat_ofNat', Nat.shiftRight_eq_div_pow]
    omega
  have hb1 : b1.toNat = alpha % 16 * 16 + difference / 64 := by
    rw [UInt8.toNat_ofNat',
      shiftLeft_or_shiftRight _ _ (show difference < 2 ^ 10 from hdifference) (by decide),
      Nat.and_two_pow_sub_one_eq_mod alpha 4]
    omega
  have hb2 : b2.toNat = difference % 64 * 4 + luma / 256 := by
    rw [UInt8.toNat_ofNat',
      shiftLeft_or_shiftRight _ _ (show luma < 2 ^ 10 from hluma) (by decide),
      Nat.and_two_pow_sub_one_eq_mod difference 6]
    omega
  have hb3 : b3.toNat = luma % 256 := by
    rw [UInt8.toNat_ofNat', Nat.and_two_pow_sub_one_eq_mod luma 8]
    omega
  refine ⟨?_, ?_, ?_⟩
  · have hsmall : b0 < 0x80 := by
      rw [UInt8.lt_iff_toNat_lt, hb0]
      exact Nat.lt_of_lt_of_le (by omega : alpha / 16 < 64) (by decide)
    rw [readAlpha, if_pos hsmall, and_shiftRight _ 0xf0 4 4 (by decide), hb0, hb1, Nat.shiftLeft_eq]
    omega
  · rw [readDifference, and_shiftRight _ 0xfc 2 6 (by decide), Nat.and_two_pow_sub_one_eq_mod _ 4,
      hb1, hb2, Nat.shiftLeft_eq]
    omega
  · rw [readLuma, Nat.and_two_pow_sub_one_eq_mod _ 2, Nat.and_two_pow_sub_one_eq_mod _ 8, hb2, hb3,
      Nat.shiftLeft_eq]
    omega

/-- What is packed is unpacked again. -/
theorem unpack_pack {p : PixelPair} (h : p.TenBit) : unpack p.pack = p := by
  obtain ⟨halpha1, hblue, hluma1⟩ := read_pixel h.alpha1 h.blue h.luma1
  obtain ⟨halpha2, hred, hluma2⟩ := read_pixel h.alpha2 h.red h.luma2
  simp only [pack, unpack, List.map_cons, List.map_nil]
  rw [halpha1, hblue, hluma1, halpha2, hred, hluma2]

/-- A group whose first alpha is that of a switcher is no header. -/
theorem pack_ne_rleHeader {p : PixelPair} (h : p.alpha1 < 1024) : p.pack ≠ rleHeader := by
  intro heq
  have hfirst : UInt8.ofNat (p.alpha1 >>> 4) = 0xFE := (List.cons.inj heq).1
  have hnat := congrArg UInt8.toNat hfirst
  rw [UInt8.toNat_ofNat', Nat.shiftRight_eq_div_pow] at hnat
  have hval : (0xFE : UInt8).toNat = 254 := rfl
  omega

end PixelPair

/-! ## Clamping, and the alpha -/

/-- A value that is no negative `short` ends between the bounds. -/
theorem clampShort_between {v min max : UInt16} (hv : v < 0x8000) (hmin : min < 0x8000)
    (hbounds : min ≤ max) : min ≤ clampShort v min max ∧ clampShort v min max ≤ max := by
  have ht : (if v < min then min else v) < 0x8000 ∧ min ≤ (if v < min then min else v) := by
    split
    · exact ⟨hmin, UInt16.le_refl _⟩
    · exact ⟨hv, UInt16.not_lt.mp ‹_›⟩
  unfold clampShort
  dsimp only
  generalize (if v < min then min else v) = t at ht
  split
  · exact ⟨hbounds, UInt16.le_refl _⟩
  · rename_i hnot
    exact ⟨ht.2, UInt16.not_lt.mp fun hlt => hnot ⟨ht.1, hlt⟩⟩

theorem alpha10_lt (a : UInt8) : alpha10 a < 1024 := by
  have ha := a.toNat_lt
  rw [alpha10, Nat.shiftLeft_eq, Nat.shiftLeft_eq]
  omega

/-! ## A frame, group by group -/

theorem words_flatten {ws : List Word} (h : Whole ws) : words ws.flatten = ws := by
  induction ws with
  | nil => rfl
  | cons w ws ih =>
    match w, h.head with
    | [a, b, c, d, e, f, g, x], _ =>
      rw [List.flatten_cons]
      show [a, b, c, d, e, f, g, x] :: words ws.flatten = _
      rw [ih h.tail]

/-- A loop over the groups of a frame, empty or not. -/
theorem convert_eq (group : Word → Word) {data : Bytes} (h : data.length % 8 = 0) :
    ColourMath.convert group data = .ok ((words data).map group).flatten := by
  unfold ColourMath.convert
  rw [if_neg (not_not.mpr h)]
  split
  · rename_i hnil
    rw [List.length_eq_zero_iff.mp hnil]
    rfl
  · rfl

namespace ColourMath

variable {m : ColourMath} {premultiply : Bool}

/-- The scaled values of every pixel are below 0x8000: they are numbers between 0 and about a
thousand. -/
structure InRange (m : ColourMath) : Prop where
  luma : ∀ premultiply c, m.luma premultiply c < 0x8000
  blue : ∀ premultiply c, m.blue premultiply c < 0x8000
  red : ∀ premultiply c, m.red premultiply c < 0x8000

theorem pair_tenBit (hm : m.InRange) (first second : Rgba) :
    (m.pair premultiply first second).TenBit := by
  have hten : ∀ {v min max : UInt16}, v < 0x8000 → min < 0x8000 → min ≤ max → max < 1024 →
      (clampShort v min max).toNat < 1024 := fun hv hmin hbounds hmax =>
    (UInt16.le_iff_toNat_le.mp (clampShort_between hv hmin hbounds).2).trans_lt
      (UInt16.lt_iff_toNat_lt.mp hmax)
  exact ⟨alpha10_lt _, alpha10_lt _, hten (hm.blue _ _) (by decide) (by decide) (by decide),
    hten (hm.red _ _) (by decide) (by decide) (by decide),
    hten (hm.luma _ _) (by decide) (by decide) (by decide),
    hten (hm.luma _ _) (by decide) (by decide) (by decide)⟩

/-- What is shown of two pixels: their colours as they are computed of the components. -/
def shown (m : ColourMath) (premultiply : Bool) : Word → Word
  | [r1, g1, b1, a1, r2, g2, b2, a2] =>
    m.pixels (m.pair premultiply ⟨r1, g1, b1, a1⟩ ⟨r2, g2, b2, a2⟩)
  | _ => []

/-- A group packed is whole, and no header. -/
theorem packGroup_spec {w : Word} (hw : w.length = 8) :
    (m.packGroup premultiply w).length = 8 ∧ m.packGroup premultiply w ≠ rleHeader := by
  match w, hw with
  | [_, _, _, a1, _, _, _, _], _ => exact ⟨rfl, PixelPair.pack_ne_rleHeader (alpha10_lt a1)⟩

/-- A group packed is unpacked to what it was packed from. -/
theorem unpackGroup_packGroup (hm : m.InRange) {w : Word} (hw : w.length = 8) :
    m.unpackGroup (m.packGroup premultiply w) = m.shown premultiply w := by
  match w, hw with
  | [_, _, _, _, _, _, _, _], _ =>
    exact congrArg m.pixels (PixelPair.unpack_pack (pair_tenBit hm _ _))

/-- The groups of a frame, packed. -/
theorem whole_packed (frame : Bytes) : Whole ((words frame).map (m.packGroup premultiply)) := by
  intro w hw
  obtain ⟨v, hv, rfl⟩ := List.mem_map.mp hw
  exact (packGroup_spec (whole_words frame v hv)).1

/-- A frame of whole groups is converted to one as long, which `rle_encode` takes. -/
theorem rgbToAtem_encodable (m : ColourMath) (premultiply : Bool) {frame : ByteString}
    (h8 : frame.data.length % 8 = 0) :
    ∃ native : ByteString, m.rgbToAtem premultiply frame.data = .ok native.data ∧
      native.data.length = frame.data.length ∧ Encodable native ∧
      words native.data = (words frame.data).map (m.packGroup premultiply) := by
  have hwhole := @whole_packed m premultiply frame.data
  have hlength : ((words frame.data).map (m.packGroup premultiply)).flatten.length =
      frame.data.length := by
    rw [length_flatten_of_whole hwhole, List.length_map, length_words h8]
  refine ⟨⟨_, hlength ▸ frame.length_lt⟩, convert_eq _ h8, hlength, ⟨?_, ?_⟩,
    words_flatten hwhole⟩
  · rw [hlength]
    exact h8
  rw [words_flatten hwhole]
  intro w hw
  obtain ⟨v, hv, rfl⟩ := List.mem_map.mp hw
  exact (packGroup_spec (whole_words frame.data v hv)).2

/-- A frame that was converted is shown as it was. -/
theorem atemToRgb_rgbToAtem (hm : m.InRange) {frame native : Bytes}
    (h8 : native.length % 8 = 0)
    (hwords : words native = (words frame).map (m.packGroup premultiply)) :
    m.atemToRgb native = .ok ((words frame).map (m.shown premultiply)).flatten := by
  rw [atemToRgb, convert_eq _ h8, hwords, List.map_map]
  congr 2
  exact List.map_congr_left fun w hw => unpackGroup_packGroup hm (whole_words frame w hw)

end ColourMath

/-! ## A frame in pieces -/

/-- The slices of a list, one behind the other. -/
theorem flatten_slices {β : Type} (l : List β) (q n : ℕ) :
    ((List.range n).map fun i => (l.drop (i * q)).take q).flatten = l.take (n * q) := by
  induction n with
  | zero => simp
  | succ n ih =>
    rw [List.range_succ, List.map_append, List.flatten_append, ih, List.map_singleton,
      List.flatten_singleton, Nat.succ_mul, List.take_add]

theorem mapM_ok {β γ ε : Type} {f : β → Except ε γ} {g : β → γ} {l : List β}
    (h : ∀ b ∈ l, f b = .ok (g b)) : l.mapM f = .ok (l.map g) := by
  induction l with
  | nil => rfl
  | cons b l ih =>
    rw [List.mapM_cons, h b (List.mem_cons_self ..), ih fun c hc => h c (List.mem_cons_of_mem b hc)]
    rfl

/-- Slices of whole groups join to what the frame itself is converted to. -/
theorem atemToRgb_slices (m : ColourMath) {piece q : ℕ} (hq : piece = 8 * q) (hpos : 0 < q)
    {data : Bytes} (h8 : data.length % 8 = 0) :
    ((slices piece data).mapM m.atemToRgb).map List.flatten = m.atemToRgb data := by
  have hwhole := whole_words data
  have hslice : ∀ i, (data.drop (i * piece)).take piece =
      (((words data).drop (i * q)).take q).flatten := by
    intro i
    have hrest : Whole ((words data).drop (i * q)) := fun w hw =>
      hwhole w (List.mem_of_mem_drop hw)
    rw [← take_flatten_words hrest, ← drop_flatten hwhole, flatten_words h8, hq]
    rw [Nat.mul_left_comm]
  have hconvert : ∀ slice ∈ slices piece data, m.atemToRgb slice =
      .ok ((words slice).map m.unpackGroup).flatten := by
    intro slice hmem
    obtain ⟨i, -, rfl⟩ := List.mem_map.mp hmem
    apply convert_eq
    rw [hslice, length_flatten_of_whole fun w hw =>
      hwhole w (List.mem_of_mem_drop (List.mem_of_mem_take hw)), Nat.mul_mod_right]
  have hgroups : (slices piece data).map
      (fun slice => ((words slice).map m.unpackGroup).flatten) =
      ((List.range ((data.length + piece - 1) / piece)).map fun i =>
        (((words data).map m.unpackGroup).drop (i * q)).take q).map List.flatten := by
    rw [slices, List.map_map, List.map_map]
    refine List.map_congr_left fun i _ => ?_
    have hpart : Whole (((words data).drop (i * q)).take q) := fun w hw =>
      hwhole w (List.mem_of_mem_drop (List.mem_of_mem_take hw))
    show ((words ((data.drop (i * piece)).take piece)).map _).flatten = _
    rw [hslice, words_flatten hpart, List.map_take, List.map_drop]
    rfl
  have hall : (words data).length ≤ (data.length + piece - 1) / piece * q := by
    have hlength := length_words h8
    rw [hq]
    have hceil := Nat.lt_div_mul_add (a := data.length + 8 * q - 1) (b := 8 * q) (by omega)
    rw [Nat.mul_left_comm] at hceil
    omega
  rw [mapM_ok hconvert, ColourMath.atemToRgb, convert_eq _ h8]
  show Except.ok (List.flatten _) = _
  rw [hgroups, ← List.flatten_flatten, flatten_slices,
    List.take_of_length_le (by rw [List.length_map]; exact hall)]

/-- The pieces of a frame join to what the frame itself is converted to. -/
theorem imagingAtemToRgb_eq (m : ColourMath) (data : Bytes) :
    imagingAtemToRgb m data = m.atemToRgb data := by
  unfold imagingAtemToRgb
  split
  · rfl
  · rename_i hlong
    have hgroups : convertPiece = 8 * 131072 := rfl
    exact atemToRgb_slices m hgroups (by decide) (not_not.mp (not_or.mp hlong).2)

/-! ## The journey -/

/-- The switcher hands back what it keeps: what a finished download of a slot of the still store has
collected is the stream. -/
def HandsBack (id : TaskId) (slot : Slot) (past : List Act) (stream : Bytes) : Prop :=
  ∀ transfer now post before raw,
    past = post ++ .recv now (.fileTransferDataComplete transfer) :: before →
      Collected id transfer 0 slot before raw → raw = stream

/-- The arithmetic as it is for black, which has the least luma, no differences, and the alpha that
`rgb_to_atem` writes for 255. -/
def black : ColourMath where
  luma _ _ := 64
  blue _ _ := 512
  red _ _ := 512
  colour _ _ _ := (0, 0, 0)
  alpha _ := 255

theorem black_inRange : black.InRange :=
  ⟨fun _ _ => (by decide : (64 : UInt16) < 0x8000),
    fun _ _ => (by decide : (512 : UInt16) < 0x8000),
    fun _ _ => (by decide : (512 : UInt16) < 0x8000)⟩

/-- Two opaque black pixels. -/
def blackFrame : ByteString := ⟨[0, 0, 0, 255, 0, 0, 0, 255], by decide⟩

end Bmdwire
