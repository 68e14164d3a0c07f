import Mathlib.Algebra.Order.Field.Power
import Mathlib.Data.Int.Log
import Mathlib.Data.Rat.Floor
import Mathlib.Tactic.Linarith
import Mathlib.Tactic.NormNum
import Mathlib.Tactic.Positivity
import Mathlib.Tactic.FieldSimp

/-!
# Rounding rationals

Rounding to the nearest integer with ties to even, and to the nearest number of the binary64
format: 53 bits of significand, exponents down to -1074. The proofs use only how far a rounded
number can be from the one it stands for.
-/

set_option autoImplicit false

namespace Library

/-- The nearest integer, the even one of two equally near. -/
def roundHalfEven (q : ℚ) : ℤ :=
  let f := ⌊q⌋
  if q - f < 1 / 2 then f
  else if 1 / 2 < q - f then f + 1
  else if f % 2 = 0 then f
  else f + 1

/-- The exponent of the last bit of the binary64 numbers around `q`. -/
def lastBit (q : ℚ) : ℤ := max (Int.log 2 |q| - 52) (-1074)

/-- The nearest number of the binary64 format, its exponent unbounded above. -/
def nearestDouble (q : ℚ) : ℚ := roundHalfEven (q / 2 ^ lastBit q) * 2 ^ lastBit q

/-- The values of a floating-point number; the sign of a zero is not kept. -/
inductive FloatVal
  | finite (value : ℚ)
  | infinite (negative : Bool)
  | nan
deriving DecidableEq, Repr

/-- The floating-point number a rational is rounded to. -/
def FloatVal.ofRat (q : ℚ) : FloatVal :=
  if |nearestDouble q| < 2 ^ 1024 then .finite (nearestDouble q) else .infinite (q < 0)

/-! ## To an integer -/

theorem roundHalfEven_intCast (n : ℤ) : roundHalfEven n = n := by
  simp [roundHalfEven]

theorem abs_sub_roundHalfEven (q : ℚ) : |q - roundHalfEven q| ≤ 1 / 2 := by
  have hlow := Int.floor_le q
  have hhigh := Int.lt_floor_add_one q
  unfold roundHalfEven
  dsimp only
  rw [abs_le]
  split
  · constructor <;> linarith
  · split
    · push_cast
      constructor <;> linarith
    · split
      · constructor <;> linarith
      · push_cast
        constructor <;> linarith

/-- A number less than one half from an integer is rounded to it. -/
theorem roundHalfEven_eq {q : ℚ} {n : ℤ} (h : |q - n| < 1 / 2) : roundHalfEven q = n := by
  have hround := abs_sub_roundHalfEven q
  have hclose : |(roundHalfEven q - n : ℚ)| < 1 := by
    calc |(roundHalfEven q - n : ℚ)| = |(q - n) - (q - roundHalfEven q)| := by
          congr 1
          ring
      _ ≤ |q - n| + |q - roundHalfEven q| := abs_sub _ _
      _ < 1 := by linarith
  have hint : |roundHalfEven q - n| < 1 := by
    exact_mod_cast hclose
  have := Int.abs_lt_one_iff.mp hint
  omega

theorem roundHalfEven_le {q : ℚ} {n : ℤ} (h : q ≤ n) : roundHalfEven q ≤ n := by
  have hround := (abs_le.mp (abs_sub_roundHalfEven q)).1
  have hlt : (roundHalfEven q : ℚ) < n + 1 := by linarith
  exact Int.lt_add_one_iff.mp (by exact_mod_cast hlt)

theorem le_roundHalfEven {q : ℚ} {n : ℤ} (h : n ≤ q) : n ≤ roundHalfEven q := by
  have hround := (abs_le.mp (abs_sub_roundHalfEven q)).2
  have hlt : (n : ℚ) < roundHalfEven q + 1 := by linarith
  exact Int.lt_add_one_iff.mp (by exact_mod_cast hlt)

/-- Half of an odd number is rounded to the even one of its neighbours. -/
theorem roundHalfEven_half (k : ℤ) : roundHalfEven (k + 1 / 2) = k + k % 2 := by
  have hfloor : ⌊(k : ℚ) + 1 / 2⌋ = k := by
    rw [Int.floor_eq_iff]
    constructor <;> linarith
  have hhalf : (k : ℚ) + 1 / 2 - k = 1 / 2 := by ring
  simp only [roundHalfEven, hfloor, hhalf, lt_irrefl, if_false]
  split <;> omega

/-! ## To a binary64 number -/

theorem nearestDouble_zero : nearestDouble 0 = 0 := by
  have h := roundHalfEven_intCast 0
  rw [Int.cast_zero] at h
  rw [nearestDouble, zero_div, h, Int.cast_zero, zero_mul]

/-- The last bit of a number below a power of two. -/
theorem lastBit_le {q : ℚ} {k : ℤ} (hzero : q ≠ 0) (hk : -1021 ≤ k) (hq : |q| < 2 ^ k) :
    lastBit q ≤ k - 53 := by
  have hlog := (Int.lt_zpow_iff_log_lt (R := ℚ) (b := 2) (by norm_num)
    (abs_pos.mpr hzero)).mp (by exact_mod_cast hq)
  apply max_le
  · omega
  · omega

/-- The error of rounding is at most half of the last bit. -/
theorem abs_nearestDouble_sub_lastBit (q : ℚ) :
    |nearestDouble q - q| ≤ 1 / 2 * (2 : ℚ) ^ lastBit q := by
  have hpos : (0 : ℚ) < 2 ^ lastBit q := by positivity
  have hround := abs_sub_roundHalfEven (q / 2 ^ lastBit q)
  have heq : nearestDouble q - q =
      -(q / 2 ^ lastBit q - roundHalfEven (q / 2 ^ lastBit q)) * 2 ^ lastBit q := by
    rw [nearestDouble]
    field_simp
    ring
  rw [heq, abs_mul, abs_neg, abs_of_pos hpos]
  exact mul_le_mul_of_nonneg_right hround hpos.le

/-- The error of rounding a number below a power of two. -/
theorem abs_nearestDouble_sub {q : ℚ} {k : ℤ} (hk : -1021 ≤ k) (hq : |q| < 2 ^ k) :
    |nearestDouble q - q| ≤ 2 ^ (k - 54) := by
  by_cases hzero : q = 0
  · rw [hzero, nearestDouble_zero, sub_zero, abs_zero]
    positivity
  calc |nearestDouble q - q|
      ≤ 1 / 2 * (2 : ℚ) ^ lastBit q := abs_nearestDouble_sub_lastBit q
    _ ≤ 1 / 2 * (2 : ℚ) ^ (k - 53) := by
        have := zpow_le_zpow_right₀ (one_le_two (α := ℚ)) (lastBit_le hzero hk hq)
        linarith
    _ = 2 ^ (k - 54) := by
        rw [show k - 53 = (k - 54) + 1 by ring, zpow_add_one₀ (by norm_num)]
        ring

/-- The error of rounding, of any number. -/
theorem abs_nearestDouble_sub_le (q : ℚ) :
    |nearestDouble q - q| ≤ |q| / 2 ^ 53 + 1 / 2 ^ 1075 := by
  have htiny : (0 : ℚ) < 1 / 2 ^ 1075 := by positivity
  by_cases hzero : q = 0
  · rw [hzero, nearestDouble_zero, sub_zero, abs_zero, zero_div, zero_add]
    exact htiny.le
  have hbit := abs_nearestDouble_sub_lastBit q
  obtain hle | hgt := le_or_gt (Int.log 2 |q| - 52) (-1074)
  · have hlast : (2 : ℚ) ^ lastBit q = 1 / 2 ^ 1074 := by
      rw [lastBit, max_eq_right hle, zpow_neg, one_div]
      norm_cast
    have hhalf : (1 / 2 : ℚ) * (1 / 2 ^ 1074) = 1 / 2 ^ 1075 := by
      rw [pow_succ 2 1074, div_mul_div_comm, one_mul, mul_comm]
    rw [hlast, hhalf] at hbit
    exact hbit.trans (le_add_of_nonneg_left (by positivity))
  · have hlog := Int.zpow_log_le_self (R := ℚ) (b := 2) (by norm_num) (abs_pos.mpr hzero)
    have hlast : (2 : ℚ) ^ lastBit q = 2 ^ Int.log 2 |q| / 2 ^ 52 := by
      rw [lastBit, max_eq_left hgt.le, zpow_sub₀ (by norm_num)]
      norm_cast
    rw [hlast] at hbit
    push_cast at hlog
    have hfirst : (1 / 2 : ℚ) * (2 ^ Int.log 2 |q| / 2 ^ 52) ≤ |q| / 2 ^ 53 := by
      rw [pow_succ 2 52, ← div_div, le_div_iff₀ (by norm_num)]
      have := div_le_div_of_nonneg_right hlog (by positivity : (0 : ℚ) ≤ 2 ^ 52)
      linarith
    exact hbit.trans (hfirst.trans (le_add_of_nonneg_right htiny.le))

/-- Half integers lie on the grid of the numbers below `2 ^ 51`. -/
theorem half_on_grid {q : ℚ} (hzero : q ≠ 0) (hq : |q| < 2 ^ 51) (n : ℤ) :
    ∃ m : ℤ, (n : ℚ) / 2 = m * 2 ^ lastBit q := by
  have hbit := lastBit_le (k := 51) hzero (by norm_num) (by exact_mod_cast hq)
  obtain ⟨r, hr⟩ := Int.eq_ofNat_of_zero_le (show 0 ≤ -1 - lastBit q by omega)
  have hlast : lastBit q = -1 - r := by omega
  refine ⟨n * 2 ^ r, ?_⟩
  rw [hlast, zpow_sub₀ (by norm_num), zpow_neg_one, zpow_natCast]
  push_cast
  field_simp

/-- Rounding does not cross a half integer. -/
theorem nearestDouble_le_half {q : ℚ} (hq : |q| < 2 ^ 51) {n : ℤ} (h : q ≤ n / 2) :
    nearestDouble q ≤ n / 2 := by
  by_cases hzero : q = 0
  · rwa [hzero, nearestDouble_zero, ← hzero]
  obtain ⟨m, hm⟩ := half_on_grid hzero hq n
  have hpos : (0 : ℚ) < 2 ^ lastBit q := by positivity
  rw [hm] at h ⊢
  have hround := roundHalfEven_le ((div_le_iff₀ hpos).mpr h)
  rw [nearestDouble]
  exact mul_le_mul_of_nonneg_right (by exact_mod_cast hround) hpos.le

theorem half_le_nearestDouble {q : ℚ} (hq : |q| < 2 ^ 51) {n : ℤ} (h : n / 2 ≤ q) :
    n / 2 ≤ nearestDouble q := by
  by_cases hzero : q = 0
  · rwa [hzero, nearestDouble_zero, ← hzero]
  obtain ⟨m, hm⟩ := half_on_grid hzero hq n
  have hpos : (0 : ℚ) < 2 ^ lastBit q := by positivity
  rw [hm] at h ⊢
  have hround := le_roundHalfEven ((le_div_iff₀ hpos).mpr h)
  rw [nearestDouble]
  exact mul_le_mul_of_nonneg_right (by exact_mod_cast hround) hpos.le

/-- Rounding twice, to the format and to an integer, is close to the number where the integer
has no more than 32 bits. -/
theorem abs_roundHalfEven_nearestDouble_sub {q : ℚ}
    (h : |roundHalfEven (nearestDouble q)| ≤ 2 ^ 32) :
    |(roundHalfEven (nearestDouble q) : ℚ) - q| ≤ 1 / 2 + 1 / 2 ^ 16 := by
  have hint : |(roundHalfEven (nearestDouble q) : ℚ)| ≤ 2 ^ 32 := by exact_mod_cast h
  have hround := abs_le.mp (abs_sub_roundHalfEven (nearestDouble q))
  have hdouble := abs_le.mp (abs_nearestDouble_sub_le q)
  have hint := abs_le.mp hint
  have htiny : (1 : ℚ) / 2 ^ 1075 ≤ 1 / 2 ^ 20 :=
    one_div_le_one_div_of_le (by positivity) (pow_le_pow_right₀ (by norm_num) (by norm_num))
  generalize (1 : ℚ) / 2 ^ 1075 = ε at hdouble htiny
  have hsmall : |q| ≤ 2 ^ 33 := by
    have hq : |q| - |q| / 2 ^ 53 ≤ 2 ^ 32 + 1 / 2 + 1 / 2 ^ 20 := by
      obtain hneg | hpos := abs_cases q
      · linarith
      · linarith
    norm_num at hq ⊢
    linarith
  rw [abs_le]
  norm_num at hdouble htiny hsmall ⊢
  constructor
  · linarith
  · linarith

/-- A number of 53 bits over a power of two is a number of the format. -/
theorem nearestDouble_exact {n : ℤ} {j : ℕ} (hn : |n| < 2 ^ 53) (hj : j ≤ 1074) :
    nearestDouble (n / 2 ^ j) = n / 2 ^ j := by
  by_cases hzero : (n / 2 ^ j : ℚ) = 0
  · rw [hzero, nearestDouble_zero]
  have hlt : |(n / 2 ^ j : ℚ)| < 2 ^ (53 - j : ℤ) := by
    rw [abs_div, abs_of_pos (by positivity : (0 : ℚ) < 2 ^ j), div_lt_iff₀ (by positivity),
      zpow_sub₀ (by norm_num), zpow_natCast, div_mul_cancel₀ _ (by positivity)]
    exact_mod_cast hn
  have hbit : lastBit (n / 2 ^ j : ℚ) ≤ -j := by
    have := lastBit_le hzero (by omega) hlt
    omega
  obtain ⟨r, hr⟩ := Int.eq_ofNat_of_zero_le (show 0 ≤ -(j : ℤ) - lastBit (n / 2 ^ j : ℚ) by omega)
  have hscale : (n / 2 ^ j : ℚ) / 2 ^ lastBit (n / 2 ^ j : ℚ) = ((n * 2 ^ r : ℤ) : ℚ) := by
    push_cast
    rw [div_div, div_eq_iff (by positivity), mul_assoc, ← zpow_natCast 2 r, ← zpow_natCast 2 j,
      ← zpow_add₀ (by norm_num), ← zpow_add₀ (by norm_num), ← hr]
    simp
  rw [nearestDouble, hscale, roundHalfEven_intCast, ← hscale, div_mul_cancel₀ _ (by positivity)]

end Library
