import Bmdwire.Library.Decimal

/-!
# Fixed-point numbers through six significant digits

A fixed-point number counts 65536ths. Written to six significant digits and read back through
binary64 arithmetic it may come out as a neighbour, but always as one that is written the same
(`formatG_refixed`), and never on the other side of zero or further from it than the next whole
number (`refixed_below`, `refixed_near`).
-/

set_option autoImplicit false

namespace Library

/-- The fixed-point number that binary64 arithmetic makes of the decimal number `t`. -/
def fixedOf (t : ℚ) : ℤ := roundHalfEven (nearestDouble (nearestDouble t * 65536))

/-- A fixed-point number after it was written and read back. -/
def refixed (n : ℤ) : ℤ := fixedOf (significant 6 (n / 65536))

/-! ## Reading -/

/-- The two roundings of the arithmetic hardly move the number. -/
theorem abs_product_sub {t : ℚ} (ht : |t| < 2 ^ 17) :
    |nearestDouble (nearestDouble t * 65536) - t * 65536| ≤ 1 / 2 ^ 19 := by
  have hread := abs_nearestDouble_sub (k := 17) (by decide) (by exact_mod_cast ht)
  have hsmall : |nearestDouble t| < 2 ^ 17 + 1 := by
    have htri := abs_add_le (nearestDouble t - t) t
    rw [sub_add_cancel] at htri
    have : (2 : ℚ) ^ (17 - 54 : ℤ) ≤ 1 := zpow_le_one_of_nonpos₀ (by norm_num) (by norm_num)
    linarith
  have hproduct : |nearestDouble t * 65536| < 2 ^ (34 : ℤ) := by
    rw [abs_mul, abs_of_pos (by norm_num : (0 : ℚ) < 65536)]
    calc |nearestDouble t| * 65536 < (2 ^ 17 + 1) * 65536 := by linarith
      _ ≤ 2 ^ (34 : ℤ) := by norm_num
  have hround := abs_nearestDouble_sub (k := 34) (by decide) hproduct
  have hscaled : |nearestDouble t * 65536 - t * 65536| ≤ 2 ^ (17 - 54 : ℤ) * 65536 := by
    rw [← sub_mul, abs_mul, abs_of_pos (by norm_num : (0 : ℚ) < 65536)]
    exact mul_le_mul_of_nonneg_right hread (by norm_num)
  calc |nearestDouble (nearestDouble t * 65536) - t * 65536|
      ≤ |nearestDouble (nearestDouble t * 65536) - nearestDouble t * 65536| +
        |nearestDouble t * 65536 - t * 65536| := abs_sub_le ..
    _ ≤ 2 ^ (34 - 54 : ℤ) + 2 ^ (17 - 54 : ℤ) * 65536 := add_le_add hround hscaled
    _ ≤ 1 / 2 ^ 19 := by norm_num [zpow_neg]

theorem abs_fixedOf_sub {t : ℚ} (ht : |t| < 2 ^ 17) :
    |fixedOf t - t * 65536| ≤ 1 / 2 + 1 / 2 ^ 19 := by
  have hproduct := abs_product_sub ht
  have hround := abs_sub_roundHalfEven (nearestDouble (nearestDouble t * 65536))
  rw [abs_sub_comm] at hround
  exact (abs_sub_le _ _ _).trans (add_le_add hround hproduct)

/-- A decimal number that is a fixed-point number is read as it. -/
theorem fixedOf_exact {N : ℤ} (hN : |N| < 2 ^ 53) : fixedOf (N / 65536) = N := by
  have hquotient := nearestDouble_exact (n := N) (j := 16) hN (by norm_num)
  have hwhole := nearestDouble_exact (n := N) (j := 0) hN (by norm_num)
  rw [pow_zero, div_one] at hwhole
  have h16 : (2 : ℚ) ^ 16 = 65536 := by norm_num
  rw [h16] at hquotient
  rw [fixedOf, hquotient, div_mul_cancel₀ _ (by norm_num), hwhole, roundHalfEven_intCast]

/-! ## Six significant digits -/

section

variable {n : ℤ}

/-- What the six digits `s.1` and the size `s.2` of a fixed-point number say. -/
structure SixDigits (n : ℤ) (s : ℕ × ℤ) : Prop where
  low : 10 ^ 5 ≤ s.1
  high : s.1 < 10 ^ 6
  size : s.2 ≤ 4
  close : |(|n| : ℚ) / 65536 - s.1 * 10 ^ (s.2 - 5)| ≤ 10 ^ (s.2 - 5) / 2
  value : significant 6 (n / 65536) =
    (if n < 0 then -1 else 1) * (s.1 * 10 ^ (s.2 - 5))

theorem abs_fixed : |(n : ℚ) / 65536| = (|n| : ℚ) / 65536 := by
  rw [abs_div, abs_of_pos (by norm_num : (0 : ℚ) < 65536)]

theorem sixDigits (hn : n ≠ 0) (hle : |n| ≤ 2 ^ 32) :
    SixDigits n (scientific 6 |(n : ℚ) / 65536|) := by
  have hpos : 0 < |(n : ℚ) / 65536| := by
    apply abs_pos.mpr
    exact div_ne_zero (by exact_mod_cast hn) (by norm_num)
  have hq : (|n| : ℚ) / 65536 ≤ 65536 := by
    have : (|n| : ℚ) ≤ 2 ^ 32 := by exact_mod_cast hle
    rw [div_le_iff₀ (by norm_num)]
    linarith
  obtain ⟨hlow, hhigh, hclose⟩ := @scientific_spec 6 _ (by norm_num) hpos
  have hvalue : significant 6 ((n : ℚ) / 65536) =
      (if (n : ℚ) / 65536 < 0 then -1 else 1) * ((scientific 6 |(n : ℚ) / 65536|).1 *
        10 ^ ((scientific 6 |(n : ℚ) / 65536|).2 + 1 - (6 : ℕ))) := rfl
  rw [abs_fixed] at *
  generalize scientific 6 ((|n| : ℚ) / 65536) = s at *
  have hunit : s.2 + 1 - ((6 : ℕ) : ℤ) = s.2 - 5 := by push_cast; ring
  rw [hunit] at hclose hvalue
  have hsign : (n : ℚ) / 65536 < 0 ↔ n < 0 := by
    rw [div_lt_iff₀ (by norm_num), zero_mul]
    exact Int.cast_lt_zero
  simp only [hsign] at hvalue
  refine ⟨hlow, hhigh, ?_, hclose, hvalue⟩
  -- a greater size would make the number greater than it is
  by_contra hsize
  have hten : (1 : ℚ) ≤ 10 ^ (s.2 - 5) := one_le_zpow₀ (by norm_num) (by omega)
  have hm : (10 ^ 5 : ℚ) ≤ s.1 := by exact_mod_cast hlow
  have hlarge := mul_le_mul_of_nonneg_right hm (by linarith : (0 : ℚ) ≤ 10 ^ (s.2 - 5))
  have := (abs_le.mp hclose).1
  linarith

variable {s : ℕ × ℤ}

theorem SixDigits.abs_value (h : SixDigits n s) :
    |significant 6 ((n : ℚ) / 65536)| = s.1 * 10 ^ (s.2 - 5) := by
  have hpos : (0 : ℚ) ≤ s.1 * 10 ^ (s.2 - 5) := by positivity
  rw [h.value, abs_mul, abs_of_nonneg hpos]
  split <;> norm_num

theorem SixDigits.value_sub (h : SixDigits n s) :
    |significant 6 ((n : ℚ) / 65536) - n / 65536| ≤ 10 ^ (s.2 - 5) / 2 := by
  have hclose := h.close
  rw [h.value, abs_sub_comm]
  split
  · rename_i hneg
    have habs : (|n| : ℚ) = -n := abs_of_neg (by exact_mod_cast hneg)
    rw [habs] at hclose
    rw [← abs_neg]
    convert hclose using 2
    ring
  · rename_i hneg
    have habs : (|n| : ℚ) = n := abs_of_nonneg (by exact_mod_cast not_lt.mp hneg)
    rw [habs] at hclose
    rwa [one_mul]

/-- The last of the six digits counts for little. -/
theorem SixDigits.unit_le (h : SixDigits n s) :
    10 ^ 5 * (10 : ℚ) ^ (s.2 - 5) ≤ s.1 * 10 ^ (s.2 - 5) := by
  have hm : (10 ^ 5 : ℚ) ≤ s.1 := by exact_mod_cast h.low
  exact mul_le_mul_of_nonneg_right hm (by positivity)

theorem SixDigits.abs_value_lt (h : SixDigits n s) (hle : |n| ≤ 2 ^ 32) :
    |significant 6 ((n : ℚ) / 65536)| < 2 ^ 17 := by
  have hq : (|n| : ℚ) / 65536 ≤ 65536 := by
    have : (|n| : ℚ) ≤ 2 ^ 32 := by exact_mod_cast hle
    rw [div_le_iff₀ (by norm_num)]
    linarith
  have hunit := h.unit_le
  have hlow := (abs_le.mp h.close).1
  rw [h.abs_value]
  linarith

/-- The binary places say more than six digits do not, for a small number. -/
theorem SixDigits.product_close (h : SixDigits n s) (hsize : s.2 ≤ 0) :
    |significant 6 ((n : ℚ) / 65536) * 65536 - n| ≤ 1 / 3 := by
  have hunit : (10 : ℚ) ^ (s.2 - 5) ≤ 10 ^ (-5 : ℤ) :=
    zpow_le_zpow_right₀ (by norm_num) (by omega)
  have hscaled : significant 6 ((n : ℚ) / 65536) * 65536 - n =
      (significant 6 ((n : ℚ) / 65536) - n / 65536) * 65536 := by ring
  rw [hscaled, abs_mul, abs_of_pos (by norm_num : (0 : ℚ) < 65536)]
  have hhalf : (10 : ℚ) ^ (s.2 - 5) / 2 ≤ 1 / 200000 :=
    (div_le_div_of_nonneg_right hunit (by norm_num)).trans (by norm_num [zpow_neg])
  calc |significant 6 ((n : ℚ) / 65536) - n / 65536| * 65536
      ≤ 1 / 200000 * 65536 :=
        mul_le_mul_of_nonneg_right (h.value_sub.trans hhalf) (by norm_num)
    _ ≤ 1 / 3 := by norm_num

/-- A small number comes back as it was. -/
theorem SixDigits.refixed_small (h : SixDigits n s) (hle : |n| ≤ 2 ^ 32) (hsize : s.2 ≤ 0) :
    refixed n = n := by
  have hproduct := abs_product_sub (h.abs_value_lt hle)
  have hclose := h.product_close hsize
  apply roundHalfEven_eq
  calc |nearestDouble (nearestDouble (significant 6 ((n : ℚ) / 65536)) * 65536) - n|
      ≤ _ + |significant 6 ((n : ℚ) / 65536) * 65536 - n| := abs_sub_le ..
    _ ≤ 1 / 2 ^ 19 + 1 / 3 := add_le_add hproduct hclose
    _ < 1 / 2 := by norm_num

/-- Below ten, six digits have one of them before the point. -/
theorem size_le_zero (hne : n ≠ 0) (hn : |n| < 10 * 65536) :
    (scientific 6 |(n : ℚ) / 65536|).2 ≤ 0 := by
  have hlt : (|n| : ℚ) ≤ 10 * 65536 - 1 := by exact_mod_cast (by omega : |n| ≤ 10 * 65536 - 1)
  have hpos : (0 : ℚ) < |n| := by exact_mod_cast abs_pos.mpr hne
  have hq : (|n| : ℚ) / 65536 < 10 ^ (0 + 1 : ℤ) := by
    rw [div_lt_iff₀ (by norm_num)]
    norm_num
    linarith
  have hlog : Int.log 10 ((|n| : ℚ) / 65536) < 0 + 1 :=
    (Int.lt_zpow_iff_log_lt (by norm_num) (by positivity)).mp (by exact_mod_cast hq)
  rw [abs_fixed]
  unfold scientific
  dsimp only
  split
  next hcarry =>
    -- the digits do not carry over ten
    by_contra hsize
    have hzero : Int.log 10 ((|n| : ℚ) / 65536) = 0 := by
      have hsize : ¬ Int.log 10 ((|n| : ℚ) / 65536) + 1 ≤ 0 := hsize
      omega
    rw [hzero] at hcarry
    have hround := abs_sub_roundHalfEven
      ((|n| : ℚ) / 65536 / 10 ^ (0 + 1 - ((6 : ℕ) : ℤ)))
    have hint : roundHalfEven ((|n| : ℚ) / 65536 / 10 ^ (0 + 1 - ((6 : ℕ) : ℤ))) = 10 ^ 6 := by
      omega
    rw [hint] at hround
    have hlow := (abs_le.mp hround).1
    norm_num at hlow
    linarith
  next => exact Int.lt_add_one_iff.mp hlog

/-- Below ten, a fixed-point number comes back as it was. -/
theorem refixed_of_lt (hn : |n| < 10 * 65536) : refixed n = n := by
  rcases eq_or_ne n 0 with rfl | hne
  · have hread : significant 6 (((0 : ℤ) : ℚ) / 65536) = ((0 : ℤ) : ℚ) / 65536 := by
      norm_num [significant, scientific, roundHalfEven]
    rw [refixed, hread, fixedOf_exact (by norm_num)]
  · have hle : |n| ≤ 2 ^ 32 := by omega
    exact (sixDigits hne hle).refixed_small hle (size_le_zero hne hn)

/-- A greater number comes back near to what the six digits say. -/
theorem SixDigits.refixed_close (h : SixDigits n s) (hle : |n| ≤ 2 ^ 32) :
    |(refixed n : ℚ) / 65536 - significant 6 ((n : ℚ) / 65536)| ≤ 1 / 10 ^ 5 := by
  have hread := abs_fixedOf_sub (h.abs_value_lt hle)
  have hscaled : (refixed n : ℚ) / 65536 - significant 6 ((n : ℚ) / 65536) =
      (fixedOf (significant 6 ((n : ℚ) / 65536)) - significant 6 ((n : ℚ) / 65536) * 65536) /
        65536 := by
    rw [refixed]
    ring
  rw [hscaled, abs_div, abs_of_pos (by norm_num : (0 : ℚ) < 65536), div_le_iff₀ (by norm_num)]
  exact hread.trans (by norm_num)

/-- One followed by zeros is read exactly. -/
theorem SixDigits.refixed_power (h : SixDigits n s) (hsize : 0 ≤ s.2) (hm : s.1 = 10 ^ 5) :
    (refixed n : ℚ) / 65536 = (if n < 0 then -1 else 1) * 10 ^ s.2 := by
  obtain ⟨k, hk⟩ := Int.eq_ofNat_of_zero_le hsize
  have hk4 : k ≤ 4 := by have := h.size; omega
  have hvalue : significant 6 ((n : ℚ) / 65536) =
      (((if n < 0 then -1 else 1) * 10 ^ k * 65536 : ℤ) : ℚ) / 65536 := by
    rw [h.value, hm, hk]
    have hpower : ((10 ^ 5 : ℕ) : ℚ) * 10 ^ ((k : ℤ) - 5) = 10 ^ k := by
      rw [Nat.cast_pow, Nat.cast_ofNat, ← zpow_natCast, ← zpow_add₀ (by norm_num),
        ← zpow_natCast]
      congr 1
      push_cast
      ring
    rw [hpower]
    push_cast
    ring
  have hpower : (10 : ℤ) ^ k ≤ 10 ^ 4 := pow_le_pow_right₀ (by norm_num) hk4
  have hpos : (0 : ℤ) < 10 ^ k := by positivity
  have hexact : |(if n < 0 then -1 else 1) * 10 ^ k * 65536| < (2 : ℤ) ^ 53 := by
    rw [abs_lt]
    split <;> constructor <;> omega
  rw [refixed, hvalue, fixedOf_exact hexact, hk, zpow_natCast]
  push_cast
  ring

theorem unit_ge {k : ℤ} (hsize : 0 < k) : 1 / 10 ^ 4 ≤ (10 : ℚ) ^ (k - 5) := by
  have hle : (10 : ℚ) ^ (-4 : ℤ) ≤ 10 ^ (k - 5) := zpow_le_zpow_right₀ (by norm_num) (by omega)
  rwa [zpow_neg, zpow_ofNat, ← one_div] at hle

/-- A greater number comes back no smaller than its size says. -/
theorem SixDigits.power_le_refixed (h : SixDigits n s) (hle : |n| ≤ 2 ^ 32) (hsize : 0 < s.2) :
    (10 : ℚ) ^ s.2 ≤ |(refixed n : ℚ) / 65536| := by
  by_cases hm : s.1 = 10 ^ 5
  · rw [h.refixed_power hsize.le hm, abs_mul, abs_of_pos (by positivity : (0 : ℚ) < 10 ^ s.2)]
    split <;> norm_num
  · have hclose := h.refixed_close hle
    have habs := abs_abs_sub_abs_le ((refixed n : ℚ) / 65536) (significant 6 ((n : ℚ) / 65536))
    rw [h.abs_value] at habs
    have hnext : (10 ^ 5 + 1 : ℚ) ≤ s.1 := by
      have := h.low
      exact_mod_cast (by omega : 10 ^ 5 + 1 ≤ s.1)
    have hunit := unit_ge hsize
    have hpower : (10 : ℚ) ^ s.2 = 10 ^ 5 * 10 ^ (s.2 - 5) := by
      rw [← zpow_natCast, ← zpow_add₀ (by norm_num)]
      congr 1
      push_cast
      ring
    have hmore := mul_le_mul_of_nonneg_right hnext
      (by positivity : (0 : ℚ) ≤ 10 ^ (s.2 - 5))
    have hlow := (abs_le.mp (habs.trans hclose)).1
    rw [hpower]
    linarith

/-- A greater number comes back written with the same digits. -/
theorem SixDigits.scientific_refixed (h : SixDigits n s) (hle : |n| ≤ 2 ^ 32)
    (hsize : 0 < s.2) : scientific 6 |(refixed n : ℚ) / 65536| = s := by
  refine scientific_eq (h.power_le_refixed hle hsize) h.high ?_
  have hunit := unit_ge hsize
  have hpos : (0 : ℚ) < 10 ^ (s.2 - 5) := by positivity
  have habs := abs_abs_sub_abs_le ((refixed n : ℚ) / 65536) (significant 6 ((n : ℚ) / 65536))
  rw [h.abs_value] at habs
  have hexp : s.2 + 1 - ((6 : ℕ) : ℤ) = s.2 - 5 := by push_cast; ring
  have hscaled : |(refixed n : ℚ) / 65536| / 10 ^ (s.2 - 5) - s.1 =
      (|(refixed n : ℚ) / 65536| - s.1 * 10 ^ (s.2 - 5)) / 10 ^ (s.2 - 5) := by
    field_simp
  rw [hexp, hscaled, abs_div, abs_of_pos hpos, div_lt_iff₀ hpos]
  exact (habs.trans (h.refixed_close hle)).trans_lt (by linarith)

/-- A greater number keeps its sign. -/
theorem SixDigits.refixed_sign (h : SixDigits n s) (hle : |n| ≤ 2 ^ 32) (hsize : 0 < s.2) :
    (refixed n < 0 ↔ n < 0) ∧ refixed n ≠ 0 := by
  have hclose := abs_le.mp (h.refixed_close hle)
  have hlarge : (1 : ℚ) ≤ s.1 * 10 ^ (s.2 - 5) := by
    have hunit := unit_ge hsize
    have := h.unit_le
    linarith
  rw [h.value] at hclose
  have hcast : (refixed n : ℚ) = refixed n / 65536 * 65536 := by ring
  by_cases hn : n < 0
  · rw [if_pos hn] at hclose
    have hneg : (refixed n : ℚ) < 0 := by linarith [hclose.2]
    have hneg : refixed n < 0 := by exact_mod_cast hneg
    exact ⟨iff_of_true hneg hn, hneg.ne⟩
  · rw [if_neg hn] at hclose
    have hpos : (0 : ℚ) < refixed n := by linarith [hclose.1]
    have hpos : 0 < refixed n := by exact_mod_cast hpos
    exact ⟨iff_of_false (by omega) hn, hpos.ne'⟩

/-- A fixed-point number that comes back is written with the same digits. -/
theorem formatG_refixed (hn : n ≠ 0) (hle : |n| ≤ 2 ^ 32) :
    formatG 6 ((refixed n : ℚ) / 65536) = formatG 6 ((n : ℚ) / 65536) := by
  have h := sixDigits hn hle
  rcases le_or_gt (scientific 6 |(n : ℚ) / 65536|).2 0 with hsize | hsize
  · rw [h.refixed_small hle hsize]
  · obtain ⟨hsign, hne⟩ := h.refixed_sign hle hsize
    have hdigits := h.scientific_refixed hle hsize
    have hneg : ∀ m : ℤ, (m : ℚ) / 65536 < 0 ↔ m < 0 := by
      intro m
      rw [div_lt_iff₀ (by norm_num), zero_mul]
      exact Int.cast_lt_zero
    have hzero : ∀ m : ℤ, (m : ℚ) / 65536 = 0 ↔ m = 0 := by
      intro m
      rw [div_eq_zero_iff, or_iff_left (by norm_num), Int.cast_eq_zero]
    unfold formatG signText
    simp only [hdigits, hneg, hzero, hsign, hn, hne]

theorem refixed_zero : refixed 0 = 0 := refixed_of_lt (by norm_num)

/-- No text of six digits says a number half-way between two fixed-point numbers, and the
arithmetic rounds as exact arithmetic would. -/
theorem refixed_eq (hle : |n| ≤ 2 ^ 32) :
    refixed n = roundHalfEven (significant 6 (n / 65536) * 65536) := by
  rcases eq_or_ne n 0 with rfl | hn
  · rw [refixed_zero]
    norm_num [significant, scientific, roundHalfEven]
  have h := sixDigits hn hle
  generalize scientific 6 |(n : ℚ) / 65536| = s at h
  rcases le_or_gt s.2 0 with hsize | hsize
  · rw [h.refixed_small hle hsize, eq_comm]
    exact roundHalfEven_eq ((h.product_close hsize).trans_lt (by norm_num))
  have hproduct := abs_product_sub (h.abs_value_lt hle)
  have hround := abs_sub_roundHalfEven (significant 6 ((n : ℚ) / 65536) * 65536)
  generalize roundHalfEven (significant 6 ((n : ℚ) / 65536) * 65536) = r at hround ⊢
  -- the number said counts ten thousandths of a fixed-point number, sixteen at a time
  obtain ⟨m, hm⟩ : ∃ m : ℤ, significant 6 ((n : ℚ) / 65536) * 65536 = (m * 16 : ℤ) / 10 ^ 4 := by
    obtain ⟨k, hk⟩ := Int.eq_ofNat_of_zero_le (by omega : 0 ≤ s.2 - 1)
    refine ⟨(if n < 0 then -1 else 1) * (s.1 * 4096 * 10 ^ k), ?_⟩
    have hunit : (10 : ℚ) ^ (s.2 - 5) = 10 ^ k / 10 ^ 4 := by
      rw [← zpow_natCast (10 : ℚ) k, ← hk, ← zpow_natCast (10 : ℚ) 4,
        ← zpow_sub₀ (by norm_num)]
      congr 1
      push_cast
      ring
    rw [h.value, hunit]
    push_cast
    ring
  rw [hm] at hproduct hround
  have hnear : |m * 16 - r * 10 ^ 4| ≤ 5000 := by
    have hscaled : ((m * 16 : ℤ) : ℚ) / 10 ^ 4 - r = ((m * 16 - r * 10 ^ 4 : ℤ) : ℚ) / 10 ^ 4 := by
      push_cast
      ring
    rw [hscaled, abs_div, abs_of_pos (by norm_num : (0 : ℚ) < 10 ^ 4),
      div_le_iff₀ (by norm_num)] at hround
    norm_num at hround
    exact_mod_cast hround
  have hnearer : |m * 16 - r * 10 ^ 4| ≤ 4992 := by
    rw [abs_le] at hnear ⊢
    constructor <;> omega
  have hclose : |((m * 16 : ℤ) : ℚ) / 10 ^ 4 - r| ≤ 4992 / 10 ^ 4 := by
    have hscaled : ((m * 16 : ℤ) : ℚ) / 10 ^ 4 - r = ((m * 16 - r * 10 ^ 4 : ℤ) : ℚ) / 10 ^ 4 := by
      push_cast
      ring
    rw [hscaled, abs_div, abs_of_pos (by norm_num : (0 : ℚ) < 10 ^ 4)]
    exact div_le_div_of_nonneg_right (by exact_mod_cast hnearer) (by norm_num)
  apply roundHalfEven_eq
  calc |nearestDouble (nearestDouble (significant 6 ((n : ℚ) / 65536)) * 65536) - r|
      ≤ _ + |((m * 16 : ℤ) : ℚ) / 10 ^ 4 - r| := abs_sub_le ..
    _ ≤ 1 / 2 ^ 19 + 4992 / 10 ^ 4 := add_le_add hproduct hclose
    _ < 1 / 2 := by norm_num

/-- It has the sign it had. -/
theorem refixed_nonneg (hpos : 0 ≤ n) (hle : |n| ≤ 2 ^ 32) : 0 ≤ refixed n := by
  rcases eq_or_lt_of_le hpos with rfl | hpos
  · exact refixed_zero.ge
  · have h := sixDigits hpos.ne' hle
    rcases le_or_gt (scientific 6 |(n : ℚ) / 65536|).2 0 with hsize | hsize
    · rw [h.refixed_small hle hsize]
      exact hpos.le
    · exact not_lt.mp fun hneg => absurd ((h.refixed_sign hle hsize).1.mp hneg) (by omega)

/-! ## The ends of the range -/

/-- Near a whole number of five digits the six digits say the whole number. -/
theorem refixed_near (top : ℕ) (htop : 10 ^ 4 < top) (htop' : top < 10 ^ 5) (hle : |n| ≤ top * 65536)
    (hnear : top * 65536 - 3276 ≤ |n|) :
    refixed n = (if n < 0 then -1 else 1) * (top * 65536) := by
  have hlarge : (10 ^ 4 + 1 : ℤ) ≤ top := by exact_mod_cast htop
  have hlow : ((top : ℚ) * 65536 - 3276) ≤ (|n| : ℚ) := by exact_mod_cast hnear
  have hhigh : (|n| : ℚ) ≤ top * 65536 := by exact_mod_cast hle
  have hlarge' : (10 ^ 4 + 1 : ℚ) ≤ top := by exact_mod_cast htop
  have htenth : (10 : ℚ) ^ (4 + 1 - ((6 : ℕ) : ℤ)) = 1 / 10 := by norm_num
  have hdigits : scientific 6 |(n : ℚ) / 65536| = (top * 10, 4) := by
    rw [abs_fixed]
    refine scientific_eq ?_ (by omega) ?_
    · rw [le_div_iff₀ (by norm_num)]
      norm_num
      linarith
    · rw [htenth, abs_lt]
      push_cast
      constructor <;> linarith
  have hvalue : significant 6 ((n : ℚ) / 65536) =
      (((if n < 0 then -1 else 1) * (top * 65536) : ℤ) : ℚ) / 65536 := by
    have hneg : (n : ℚ) / 65536 < 0 ↔ n < 0 := by
      rw [div_lt_iff₀ (by norm_num), zero_mul]
      exact Int.cast_lt_zero
    simp only [significant, hdigits, hneg, htenth]
    push_cast
    ring
  have hexact : |(if n < 0 then -1 else 1) * ((top : ℤ) * 65536)| < (2 : ℤ) ^ 53 := by
    rw [abs_lt]
    split <;> constructor <;> omega
  rw [refixed, hvalue, fixedOf_exact hexact]

/-- Further below it the number comes back below it too. -/
theorem refixed_below (top : ℕ) (htop : 10 ^ 4 < top) (htop' : top ≤ 65536)
    (hbelow : |n| < top * 65536 - 3276) : |refixed n| < top * 65536 := by
  rcases eq_or_ne n 0 with rfl | hn
  · rw [refixed_zero]
    norm_num
    omega
  have hle : |n| ≤ 2 ^ 32 := by omega
  have h := sixDigits hn hle
  generalize scientific 6 |(n : ℚ) / 65536| = s at h
  rcases le_or_gt s.2 0 with hsize | hsize
  · rw [h.refixed_small hle hsize]
    omega
  by_contra hreach
  have hlarge : (10 ^ 4 + 1 : ℚ) ≤ top := by exact_mod_cast htop
  have habs := abs_abs_sub_abs_le ((refixed n : ℚ) / 65536) (significant 6 ((n : ℚ) / 65536))
  have hhigh := (abs_le.mp (habs.trans (h.refixed_close hle))).2
  rw [h.abs_value, abs_fixed] at hhigh
  have hreach : (top : ℚ) ≤ (|refixed n| : ℚ) / 65536 := by
    rw [le_div_iff₀ (by norm_num)]
    exact_mod_cast not_lt.mp hreach
  -- only numbers of five digits before the point come this far
  have hfour : s.2 = 4 := by
    by_contra hother
    have hsmall : (10 : ℚ) ^ (s.2 - 5) ≤ 10 ^ (-2 : ℤ) :=
      zpow_le_zpow_right₀ (by norm_num) (by have := h.size; omega)
    have hm : (s.1 : ℚ) ≤ 10 ^ 6 := by exact_mod_cast h.high.le
    have hproduct := mul_le_mul hm hsmall (by positivity) (by norm_num)
    norm_num at hproduct
    linarith
  have htenth : (10 : ℚ) ^ (s.2 - 5) = 1 / 10 := by
    rw [hfour]
    norm_num
  have hclose := (abs_le.mp h.close).1
  rw [htenth] at hhigh hclose
  have hm : top * 10 ≤ s.1 := by
    have : ((top * 10 : ℕ) : ℚ) < s.1 + 1 := by
      push_cast
      linarith
    exact Nat.lt_add_one_iff.mp (by exact_mod_cast this)
  have hm : (top : ℚ) * 10 ≤ s.1 := by exact_mod_cast hm
  have hback : (top : ℚ) * 65536 - 3277 < (|n| : ℚ) := by linarith
  have hback : (top : ℤ) * 65536 - 3277 < |n| := by exact_mod_cast hback
  omega

end

end Library
