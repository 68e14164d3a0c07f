import Bmdwire.Library.Utf8
import Mathlib.Data.List.Infix
import Mathlib.Tactic.Linarith

/-!
# Text as octets

What is written in UTF-8 is read back (`decodeUtf8_encodeUtf8`), and no octet but that of the
character NUL is zero (`zero_mem_encodeUtf8`). A field of so many octets holds the beginning of
a text, and whole characters of it exactly when none straddles the end of the field
(`exists_encode_iff`).
-/

set_option autoImplicit false

namespace Library

/-- A text in UTF-8. -/
def encodeUtf8 (cs : List Char) : List UInt8 := cs.flatMap String.utf8EncodeChar

@[simp] theorem encodeUtf8_nil : encodeUtf8 [] = [] := rfl

@[simp] theorem encodeUtf8_cons (c : Char) (cs : List Char) :
    encodeUtf8 (c :: cs) = String.utf8EncodeChar c ++ encodeUtf8 cs := rfl

@[simp] theorem encodeUtf8_append (cs ds : List Char) :
    encodeUtf8 (cs ++ ds) = encodeUtf8 cs ++ encodeUtf8 ds := List.flatMap_append

/-! ## Reading back -/

theorem toNat_ofNat_octet {n : ℕ} (h : n < 256) : (UInt8.ofNat n).toNat = n := by
  rw [UInt8.toNat_ofNat', Nat.mod_eq_of_lt h]

theorem char_ofNat (c : Char) {n : ℕ} (h : n = c.toNat) : Char.ofNat n = c := by
  rw [h, Char.ofNat_toNat]

/-- The value of a character is no surrogate and no more than U+10FFFF. -/
theorem toNat_cases (c : Char) : c.toNat < 0xd800 ∨ 0xdfff < c.toNat ∧ c.toNat < 0x110000 :=
  c.valid

/-- A continuation octet of a character begun. -/
theorem decodeFrom_more {needed low high value b : ℕ} (hneeded : needed ≠ 1)
    (hlow : low ≤ 0x80 + b) (hhigh : 0x80 + b ≤ high) (hb : b < 64) (bs : List UInt8) :
    decodeFrom (some ⟨needed, low, high, value⟩) (UInt8.ofNat (b + 0x80) :: bs) =
      decodeFrom (some ⟨needed - 1, 0x80, 0xbf, value * 64 + b⟩) bs := by
  have hoctet : (UInt8.ofNat (b + 0x80)).toNat = 0x80 + b := by
    rw [toNat_ofNat_octet (by omega)]
    omega
  rw [decodeFrom, hoctet, if_pos ⟨hlow, hhigh⟩, if_neg hneeded]
  simp

/-- The last octet of a character. -/
theorem decodeFrom_last {low high value b : ℕ} (hlow : low ≤ 0x80 + b) (hhigh : 0x80 + b ≤ high)
    (hb : b < 64) (bs : List UInt8) :
    decodeFrom (some ⟨1, low, high, value⟩) (UInt8.ofNat (b + 0x80) :: bs) =
      Char.ofNat (value * 64 + b) :: decodeFrom none bs := by
  have hoctet : (UInt8.ofNat (b + 0x80)).toNat = 0x80 + b := by
    rw [toNat_ofNat_octet (by omega)]
    omega
  rw [decodeFrom, hoctet, if_pos ⟨hlow, hhigh⟩, if_pos rfl]
  simp

/-- The first octet of a character of several. -/
theorem decodeFrom_begin {b : ℕ} {begun : Begun} (hb : b < 256) (h : beginChar b = .inr begun)
    (bs : List UInt8) :
    decodeFrom none (UInt8.ofNat b :: bs) = decodeFrom (some begun) bs := by
  rw [decodeFrom, toNat_ofNat_octet hb, h]

theorem beginChar_two {b : ℕ} (hlow : 0xc2 ≤ b) (hhigh : b < 0xe0) :
    beginChar b = .inr ⟨1, 0x80, 0xbf, b - 0xc0⟩ := by
  rw [beginChar, if_neg (by omega), if_neg (by omega), if_pos hhigh]

/-- The first octet of three bounds the second, against long forms and surrogates. -/
theorem beginChar_three {b : ℕ} (hlow : 0xe0 ≤ b) (hhigh : b < 0xf0) :
    beginChar b = .inr ⟨2, if b = 0xe0 then 0xa0 else 0x80, if b = 0xed then 0x9f else 0xbf,
      b - 0xe0⟩ := by
  rw [beginChar, if_neg (by omega), if_neg (by omega), if_neg (by omega)]
  by_cases he0 : b = 0xe0
  · simp [he0]
  · by_cases hed : b = 0xed
    · simp [hed]
    · simp [he0, hed, hhigh]

/-- The first octet of four bounds the second, against long forms and what is beyond U+10FFFF. -/
theorem beginChar_four {b : ℕ} (hlow : 0xf0 ≤ b) (hhigh : b < 0xf5) :
    beginChar b = .inr ⟨3, if b = 0xf0 then 0x90 else 0x80, if b = 0xf4 then 0x8f else 0xbf,
      b - 0xf0⟩ := by
  rw [beginChar, if_neg (by omega), if_neg (by omega), if_neg (by omega), if_neg (by omega),
    if_neg (by omega), if_neg (by omega)]
  by_cases hf0 : b = 0xf0
  · simp [hf0]
  · by_cases hf4 : b = 0xf4
    · simp [hf4]
    · have hlt : b < 0xf4 := by omega
      simp [hf0, hf4, hlt]

/-- A character is read back. -/
theorem decodeFrom_encodeChar (c : Char) (bs : List UInt8) :
    decodeFrom none (String.utf8EncodeChar c ++ bs) = c :: decodeFrom none bs := by
  have hval : c.val.toNat = c.toNat := rfl
  have hcases := toNat_cases c
  unfold String.utf8EncodeChar
  simp only [hval]
  split
  · have hoctet : (UInt8.ofNat c.toNat).toNat = c.toNat := toNat_ofNat_octet (by omega)
    rw [List.cons_append, List.nil_append, decodeFrom, hoctet, beginChar, if_pos (by omega)]
    simp only
    rw [Char.ofNat_toNat]
  split
  · rw [List.cons_append, List.cons_append, List.nil_append,
      decodeFrom_begin (by omega) (beginChar_two (by omega) (by omega)),
      decodeFrom_last (by omega) (by omega) (by omega), char_ofNat c (by omega)]
  split
  · rw [List.cons_append, List.cons_append, List.cons_append, List.nil_append,
      decodeFrom_begin (by omega) (beginChar_three (by omega) (by omega)),
      decodeFrom_more (by omega) (by split <;> omega) (by split <;> omega) (by omega),
      decodeFrom_last (by omega) (by omega) (by omega), char_ofNat c (by omega)]
  · rw [List.cons_append, List.cons_append, List.cons_append, List.cons_append, List.nil_append,
      decodeFrom_begin (by omega) (beginChar_four (by omega) (by omega)),
      decodeFrom_more (by omega) (by split <;> omega) (by split <;> omega) (by omega),
      decodeFrom_more (by omega) (by omega) (by omega) (by omega),
      decodeFrom_last (by omega) (by omega) (by omega), char_ofNat c (by omega)]

/-- A text is read back. -/
theorem decodeUtf8_encodeUtf8 (cs : List Char) : decodeUtf8 (encodeUtf8 cs) = cs := by
  induction cs with
  | nil => rfl
  | cons c cs ih =>
    rw [encodeUtf8_cons, decodeUtf8, decodeFrom_encodeChar]
    exact congrArg (c :: ·) ih

/-! ## NUL -/

/-- No octet but that of NUL is zero. -/
theorem zero_mem_encodeChar {c : Char} : 0 ∈ String.utf8EncodeChar c ↔ c.toNat = 0 := by
  have hval : c.val.toNat = c.toNat := rfl
  have hcases := toNat_cases c
  have hzero : ∀ n : ℕ, n < 256 → (0 = UInt8.ofNat n ↔ n = 0) := by
    intro n hn
    rw [← UInt8.toNat_inj, toNat_ofNat_octet hn]
    exact eq_comm
  unfold String.utf8EncodeChar
  simp only [hval]
  split
  · simp only [List.mem_singleton]
    rw [hzero _ (by omega)]
  split
  · simp only [List.mem_cons, List.not_mem_nil, or_false]
    rw [hzero _ (by omega), hzero _ (by omega)]
    omega
  split
  · simp only [List.mem_cons, List.not_mem_nil, or_false]
    rw [hzero _ (by omega), hzero _ (by omega), hzero _ (by omega)]
    omega
  · simp only [List.mem_cons, List.not_mem_nil, or_false]
    rw [hzero _ (by omega), hzero _ (by omega), hzero _ (by omega), hzero _ (by omega)]
    omega

theorem encodeChar_nul {c : Char} (hc : c.toNat = 0) : String.utf8EncodeChar c = [0] := by
  have hval : c.val.toNat = c.toNat := rfl
  simp only [String.utf8EncodeChar, hval, hc]
  rfl

theorem zero_mem_encodeUtf8 {cs : List Char} : 0 ∈ encodeUtf8 cs ↔ ∃ c ∈ cs, c.toNat = 0 := by
  simp [encodeUtf8, zero_mem_encodeChar]

/-! ## In a field -/

/-- The beginning of some octets, with zeros after it, so many octets in all. -/
def paddedTo (size : ℕ) (octets : List UInt8) : List UInt8 :=
  octets.take size ++ List.replicate (size - octets.length) 0

/-- The octets before the first zero. -/
def beforeNul (octets : List UInt8) : List UInt8 := octets.takeWhile (· ≠ 0)

@[simp] theorem length_paddedTo (size : ℕ) (octets : List UInt8) :
    (paddedTo size octets).length = size := by
  simp only [paddedTo, List.length_append, List.length_take, List.length_replicate]
  omega

theorem beforeNul_append {octets : List UInt8} (h : 0 ∉ octets) (more : List UInt8) :
    beforeNul (octets ++ more) = octets ++ beforeNul more := by
  refine List.takeWhile_append_of_pos fun b hb => ?_
  have hne : b ≠ 0 := fun heq => h (heq ▸ hb)
  simpa using hne

theorem beforeNul_zeros (octets : List UInt8) (n : ℕ) :
    beforeNul (octets ++ List.replicate n 0) = beforeNul octets := by
  have hzeros : (List.replicate n (0 : UInt8)).takeWhile (· ≠ 0) = [] := by
    cases n with
    | zero => rfl
    | succ n => rw [List.replicate_succ, List.takeWhile_cons_of_neg (by simp)]
  rw [beforeNul, List.takeWhile_append, hzeros, List.append_nil]
  split
  · rename_i hlength
    exact ((List.takeWhile_prefix _).eq_of_length hlength).symm
  · rfl

/-- A character that begins before the end of the field and ends behind it, with no NUL up to
it. -/
def Straddles (cs : List Char) (size : ℕ) : Prop :=
  ∃ before c after, cs = before ++ c :: after ∧ (∀ d ∈ before ++ [c], d.toNat ≠ 0) ∧
    (encodeUtf8 before).length < size ∧ size < (encodeUtf8 (before ++ [c])).length

theorem Straddles.cons {c : Char} {cs : List Char} {size : ℕ} (hc : c.toNat ≠ 0)
    (hsize : (String.utf8EncodeChar c).length ≤ size)
    (h : Straddles cs (size - (String.utf8EncodeChar c).length)) : Straddles (c :: cs) size := by
  obtain ⟨before, d, after, rfl, hnul, hlow, hhigh⟩ := h
  refine ⟨c :: before, d, after, rfl, ?_, ?_, ?_⟩
  · intro e he
    obtain rfl | he := List.mem_cons.mp he
    · exact hc
    · exact hnul e he
  · rw [encodeUtf8_cons, List.length_append]
    omega
  · rw [List.cons_append, encodeUtf8_cons, List.length_append]
    omega

theorem zero_notMem_encode {cs : List Char} (h : ∀ c ∈ cs, c.toNat ≠ 0) : 0 ∉ encodeUtf8 cs := by
  rw [zero_mem_encodeUtf8]
  rintro ⟨c, hc, hzero⟩
  exact h c hc hzero

theorem exists_encode_of_not_straddles {cs : List Char} {size : ℕ} (h : ¬ Straddles cs size) :
    ∃ start, start <+: cs ∧ beforeNul ((encodeUtf8 cs).take size) = encodeUtf8 start := by
  induction cs generalizing size with
  | nil => exact ⟨[], List.prefix_refl _, by simp [beforeNul]⟩
  | cons c cs ih =>
    by_cases hempty : size = 0
    · exact ⟨[], List.nil_prefix, by simp [hempty, beforeNul]⟩
    by_cases hc : c.toNat = 0
    · refine ⟨[], List.nil_prefix, ?_⟩
      obtain ⟨n, rfl⟩ := Nat.exists_eq_succ_of_ne_zero hempty
      simp [encodeChar_nul hc, beforeNul]
    · have hsize : (String.utf8EncodeChar c).length ≤ size := by
        by_contra hlt
        refine h ⟨[], c, cs, rfl, by simpa using hc, ?_, ?_⟩
        · simp
          omega
        · simpa using hlt
      obtain ⟨start, hstart, hcut⟩ := ih fun hstraddles => h (hstraddles.cons hc hsize)
      refine ⟨c :: start, List.cons_prefix_cons.mpr ⟨rfl, hstart⟩, ?_⟩
      have hnul : 0 ∉ String.utf8EncodeChar c := fun hmem => hc (zero_mem_encodeChar.mp hmem)
      rw [encodeUtf8_cons, List.take_append, List.take_of_length_le hsize, beforeNul_append hnul,
        hcut, encodeUtf8_cons]

theorem not_straddles_of_encode {cs start : List Char} {size : ℕ} (hstart : start <+: cs)
    (hcut : beforeNul ((encodeUtf8 cs).take size) = encodeUtf8 start) : ¬ Straddles cs size := by
  rintro ⟨before, c, after, rfl, hnul, hlow, hhigh⟩
  have hwhole : encodeUtf8 (before ++ c :: after) =
      encodeUtf8 (before ++ [c]) ++ encodeUtf8 after := by simp
  have htake : (encodeUtf8 (before ++ c :: after)).take size =
      (encodeUtf8 (before ++ [c])).take size := by
    rw [hwhole, List.take_append_of_le_length hhigh.le]
  have hzero : 0 ∉ (encodeUtf8 (before ++ [c])).take size := fun hmem =>
    zero_notMem_encode hnul (List.mem_of_mem_take hmem)
  rw [htake, ← List.append_nil (List.take _ _), beforeNul_append hzero] at hcut
  have hlength : (encodeUtf8 start).length = size := by
    rw [← hcut, List.length_append, List.length_take, show beforeNul [] = [] from rfl,
      List.length_nil]
    omega
  have hmono : ∀ p q : List Char, p <+: q → (encodeUtf8 p).length ≤ (encodeUtf8 q).length := by
    rintro p q ⟨r, rfl⟩
    simp
  -- the beginning ends before the character or after it
  obtain hle | hgt := le_or_gt start.length before.length
  · have hpre := List.prefix_of_prefix_length_le hstart (List.prefix_append before _) hle
    have := hmono _ _ hpre
    omega
  · have hpre : before ++ [c] <+: start := by
      refine @List.prefix_of_prefix_length_le _ _ _ (before ++ c :: after) ⟨after, by simp⟩ hstart ?_
      rw [List.length_append, List.length_singleton]
      omega
    have := hmono _ _ hpre
    omega

/-- What stands before the first zero of a field is the beginning of the text, in whole
characters, exactly when none straddles the end of the field. -/
theorem exists_encode_iff {cs : List Char} {size : ℕ} :
    (∃ start, start <+: cs ∧ beforeNul (paddedTo size (encodeUtf8 cs)) = encodeUtf8 start) ↔
      ¬ Straddles cs size := by
  rw [paddedTo, beforeNul_zeros]
  constructor
  · rintro ⟨start, hstart, hcut⟩
    exact not_straddles_of_encode hstart hcut
  · exact exists_encode_of_not_straddles

/-- A field ends in a zero or holds one exactly when the text leaves room for it or has a NUL
in time. -/
theorem zero_mem_paddedTo {cs : List Char} {size : ℕ} :
    0 ∈ paddedTo size (encodeUtf8 cs) ↔ (encodeUtf8 cs).length < size ∨
      ∃ before c after, cs = before ++ c :: after ∧ c.toNat = 0 ∧
        (encodeUtf8 before).length < size := by
  rw [paddedTo, List.mem_append, List.mem_replicate]
  constructor
  · rintro (hmem | ⟨hroom, -⟩)
    · right
      induction cs generalizing size with
      | nil => simp at hmem
      | cons c cs ih =>
        have hpos : 0 < size := by
          by_contra hzero
          simp [Nat.eq_zero_of_not_pos hzero] at hmem
        by_cases hc : c.toNat = 0
        · exact ⟨[], c, cs, rfl, hc, hpos⟩
        · rw [encodeUtf8_cons, List.take_append, List.mem_append] at hmem
          obtain hmem | hmem := hmem
          · exact absurd (zero_mem_encodeChar.mp (List.mem_of_mem_take hmem)) hc
          · obtain ⟨before, d, after, rfl, hd, hlt⟩ := ih hmem
            refine ⟨c :: before, d, after, rfl, hd, ?_⟩
            rw [encodeUtf8_cons, List.length_append]
            omega
    · left
      omega
  · rintro (hroom | ⟨before, c, after, rfl, hc, hlt⟩)
    · right
      exact ⟨by omega, rfl⟩
    · left
      rw [encodeUtf8_append, encodeUtf8_cons, encodeChar_nul hc, List.take_append, List.mem_append]
      right
      obtain ⟨n, hn⟩ := Nat.exists_eq_succ_of_ne_zero (Nat.sub_ne_zero_of_lt hlt)
      rw [hn]
      simp

end Library
