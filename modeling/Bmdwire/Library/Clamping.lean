import Bmdwire.Library.Rounding

/-!
# Rounding into a range

A number is rounded to an integer and clamped into a range. When the rounded number stands on the
side of every half integer on which the exact one does, the result is the nearest integer of
the range, but for a half integer that the exact number is not (`nearest_clamp_iff`).
Truncation is compared with the nearest integer in the same way (`nearest_truncate_iff`).
-/

set_option autoImplicit false

namespace Library

/-- The integer is legal, and no legal one is nearer to the number. -/
def Nearest (legal : ℤ → Prop) (x : ℚ) (w : ℤ) : Prop :=
  legal w ∧ ∀ m, legal m → |(w : ℚ) - x| ≤ |(m : ℚ) - x|

/-- The integers from `lo` to `hi`. -/
def Within (lo hi m : ℤ) : Prop := lo ≤ m ∧ m ≤ hi

/-- The integer of the range. -/
def clamp (lo hi m : ℤ) : ℤ := max lo (min hi m)

/-- The half integers on the two sides of the number are on the same sides of the other. -/
def SameSide (x p : ℚ) : Prop :=
  ∀ n : ℤ, |n| ≤ 2 ^ 40 → (x ≤ n / 2 → p ≤ n / 2) ∧ ((n : ℚ) / 2 ≤ x → (n : ℚ) / 2 ≤ p)

/-- The number is rounded from a half integer of the range to the integer farther from the exact
one. -/
def MissesTie (lo hi : ℤ) (x p : ℚ) : Prop :=
  ∃ k : ℤ, lo ≤ k ∧ k < hi ∧ p = k + 1 / 2 ∧ (x < p ∧ k % 2 = 1 ∨ p < x ∧ k % 2 = 0)

variable {lo hi w : ℤ} {x p : ℚ}

theorem within_clamp (h : lo ≤ hi) (m : ℤ) : Within lo hi (clamp lo hi m) := by
  simp only [Within, clamp]
  omega

theorem clamp_of_within (h : Within lo hi w) : clamp lo hi w = w := by
  simp only [Within, clamp] at *
  omega

/-! ## The nearest integer of a range -/

theorem nearest_of_le (hw : Within lo hi w) (hx : x ≤ lo) :
    Nearest (Within lo hi) x w ↔ w = lo := by
  have hlow : (lo : ℚ) ≤ w := by exact_mod_cast hw.1
  constructor
  · intro h
    have := h.2 lo ⟨le_refl _, hw.1.trans hw.2⟩
    rw [abs_of_nonneg (by linarith), abs_of_nonneg (by linarith)] at this
    have hle : w ≤ lo := by exact_mod_cast (show (w : ℚ) ≤ lo by linarith)
    exact le_antisymm hle hw.1
  · rintro rfl
    refine ⟨hw, fun m hm => ?_⟩
    have hm : (w : ℚ) ≤ m := by exact_mod_cast hm.1
    rw [abs_of_nonneg (by linarith), abs_of_nonneg (by linarith)]
    linarith

theorem nearest_of_ge (hw : Within lo hi w) (hx : hi ≤ x) :
    Nearest (Within lo hi) x w ↔ w = hi := by
  have hhigh : (w : ℚ) ≤ hi := by exact_mod_cast hw.2
  constructor
  · intro h
    have := h.2 hi ⟨hw.1.trans hw.2, le_refl _⟩
    rw [abs_of_nonpos (by linarith), abs_of_nonpos (by linarith)] at this
    have hle : hi ≤ w := by exact_mod_cast (show (hi : ℚ) ≤ w by linarith)
    exact le_antisymm hw.2 hle
  · rintro rfl
    refine ⟨hw, fun m hm => ?_⟩
    have hm : (m : ℚ) ≤ w := by exact_mod_cast hm.2
    rw [abs_of_nonpos (by linarith), abs_of_nonpos (by linarith)]
    linarith

/-- Inside the range the nearest is that within one half. -/
theorem nearest_of_between (hw : Within lo hi w) (hlow : lo < x) (hhigh : x < hi) :
    Nearest (Within lo hi) x w ↔ |(w : ℚ) - x| ≤ 1 / 2 := by
  constructor
  · intro h
    -- the rounded number is legal itself
    have hround := abs_sub_roundHalfEven x
    have hlegal : Within lo hi (roundHalfEven x) :=
      ⟨le_roundHalfEven hlow.le, roundHalfEven_le hhigh.le⟩
    rw [abs_sub_comm] at hround
    exact (h.2 _ hlegal).trans hround
  · intro h
    refine ⟨hw, fun m _ => ?_⟩
    by_cases hm : m = w
    · rw [hm]
    · have hint : (1 : ℤ) ≤ |m - w| := Int.one_le_abs (sub_ne_zero.mpr hm)
      have hrat : (1 : ℚ) ≤ |(m : ℚ) - w| := by exact_mod_cast hint
      have htriangle := abs_sub_le (m : ℚ) x w
      rw [abs_sub_comm x] at htriangle
      linarith

/-- Of zero and one, zero is the nearest. -/
theorem nearest_zero_iff : Nearest (Within 0 1) x 0 ↔ x ≤ 1 / 2 := by
  constructor
  · intro h
    have := sq_le_sq.mpr (h.2 1 ⟨by norm_num, le_rfl⟩)
    push_cast at this
    nlinarith
  · intro hx
    refine ⟨⟨le_rfl, by norm_num⟩, fun m hm => ?_⟩
    obtain rfl | rfl : m = 0 ∨ m = 1 := by have := hm.1; have := hm.2; omega
    · exact le_rfl
    · push_cast
      rw [← sq_le_sq]
      nlinarith

theorem nearest_one_iff : Nearest (Within 0 1) x 1 ↔ 1 / 2 ≤ x := by
  constructor
  · intro h
    have := sq_le_sq.mpr (h.2 0 ⟨le_rfl, by norm_num⟩)
    push_cast at this
    nlinarith
  · intro hx
    refine ⟨⟨by norm_num, le_rfl⟩, fun m hm => ?_⟩
    obtain rfl | rfl : m = 0 ∨ m = 1 := by have := hm.1; have := hm.2; omega
    · push_cast
      rw [← sq_le_sq]
      nlinarith
    · exact le_rfl

/-! ## Rounding and clamping -/

/-- Rounding keeps to the side of an integer. -/
theorem SameSide.round (h : SameSide x p) {n : ℤ} (hn : |n| ≤ 2 ^ 38) :
    (x ≤ n → roundHalfEven p ≤ n) ∧ ((n : ℚ) ≤ x → n ≤ roundHalfEven p) := by
  have hdouble : ((2 * n : ℤ) : ℚ) / 2 = n := by
    push_cast
    ring
  have hsides := h (2 * n) (by rw [abs_mul, abs_two]; omega)
  rw [hdouble] at hsides
  exact ⟨fun hx => roundHalfEven_le (hsides.1 hx), fun hx => le_roundHalfEven (hsides.2 hx)⟩

/-- A rounded number is more than one half away only where a tie is missed. -/
theorem SameSide.missesTie_iff (h : SameSide x p) (hlo : |lo| ≤ 2 ^ 38) (hhi : |hi| ≤ 2 ^ 38)
    (hlow : lo < x) (hhigh : x < hi) :
    MissesTie lo hi x p ↔ ¬ |(roundHalfEven p : ℚ) - x| ≤ 1 / 2 := by
  constructor
  · rintro ⟨k, -, -, rfl, ⟨hlt, hodd⟩ | ⟨hlt, heven⟩⟩ hle
    · rw [roundHalfEven_half, hodd, abs_le] at hle
      push_cast at hle
      linarith
    · rw [roundHalfEven_half, heven, abs_le] at hle
      push_cast at hle
      linarith
  · intro hfar
    have hwithin : Within lo hi (roundHalfEven p) :=
      ⟨(h.round hlo).2 hlow.le, (h.round hhi).1 hhigh.le⟩
    have hround := abs_le.mp (abs_sub_roundHalfEven p)
    have hbound : |2 * roundHalfEven p - 1| ≤ 2 ^ 40 ∧ |2 * roundHalfEven p + 1| ≤ 2 ^ 40 := by
      rw [abs_le] at hlo hhi
      constructor <;> rw [abs_le] <;> constructor <;> linarith [hwithin.1, hwithin.2]
    have hbelow : ((2 * roundHalfEven p - 1 : ℤ) : ℚ) / 2 = (roundHalfEven p - 1 : ℤ) + 1 / 2 := by
      push_cast
      ring
    have habove : ((2 * roundHalfEven p + 1 : ℤ) : ℚ) / 2 = (roundHalfEven p : ℤ) + 1 / 2 := by
      push_cast
      ring
    rw [abs_le, not_and_or, not_le, not_le] at hfar
    obtain hfar | hfar := hfar
    · -- the exact number is above the half integer behind the rounded one
      have hside := (h _ hbound.2).2 (by rw [habove]; linarith)
      rw [habove] at hside
      have hp : p = (roundHalfEven p : ℤ) + 1 / 2 := le_antisymm (by linarith) hside
      refine ⟨roundHalfEven p, hwithin.1, ?_, hp, .inr ⟨?_, ?_⟩⟩
      · have : (roundHalfEven p : ℚ) < hi := by linarith
        exact_mod_cast this
      · linarith
      · have heven := roundHalfEven_half (roundHalfEven p)
        rw [← hp] at heven
        omega
    · have hside := (h _ hbound.1).1 (by rw [hbelow]; push_cast; linarith)
      rw [hbelow] at hside
      have hp : p = (roundHalfEven p - 1 : ℤ) + 1 / 2 :=
        le_antisymm hside (by push_cast; linarith)
      refine ⟨roundHalfEven p - 1, ?_, by linarith [hwithin.2], hp, .inl ⟨?_, ?_⟩⟩
      · have : (lo : ℚ) < roundHalfEven p := by linarith
        have : lo < roundHalfEven p := by exact_mod_cast this
        omega
      · rw [hp]
        push_cast
        linarith
      · have hodd := roundHalfEven_half (roundHalfEven p - 1)
        rw [← hp] at hodd
        omega

/-- A number is rounded into a range with even ends exactly when it is at most one half outside. -/
theorem within_roundHalfEven (heven : lo % 2 = 0) (heven' : hi % 2 = 0) :
    Within lo hi (roundHalfEven p) ↔ lo - 1 / 2 ≤ p ∧ p ≤ hi + 1 / 2 := by
  have hround := abs_le.mp (abs_sub_roundHalfEven p)
  constructor
  · rintro ⟨hlow, hhigh⟩
    have hlow : (lo : ℚ) ≤ roundHalfEven p := by exact_mod_cast hlow
    have hhigh : (roundHalfEven p : ℚ) ≤ hi := by exact_mod_cast hhigh
    constructor <;> linarith
  · rintro ⟨hlow, hhigh⟩
    constructor
    · obtain rfl | hlt := hlow.eq_or_lt
      · rw [show (lo : ℚ) - 1 / 2 = (lo - 1 : ℤ) + 1 / 2 by push_cast; ring, roundHalfEven_half]
        omega
      · have hlt : (lo : ℚ) < roundHalfEven p + 1 := by linarith
        exact Int.lt_add_one_iff.mp (by exact_mod_cast hlt)
    · obtain rfl | hlt := hhigh.eq_or_lt
      · rw [roundHalfEven_half]
        omega
      · have hlt : (roundHalfEven p : ℚ) < hi + 1 := by linarith
        exact Int.lt_add_one_iff.mp (by exact_mod_cast hlt)

/-- Rounded and clamped, the number is the nearest of the range exactly when no tie is
missed. -/
theorem nearest_clamp_iff (h : SameSide x p) (hle : lo ≤ hi) (hlo : |lo| ≤ 2 ^ 38)
    (hhi : |hi| ≤ 2 ^ 38) :
    Nearest (Within lo hi) x (clamp lo hi (roundHalfEven p)) ↔ ¬ MissesTie lo hi x p := by
  have hwithin := within_clamp hle (roundHalfEven p)
  obtain hx | hx := le_or_gt x lo
  · -- at the low end or below it
    refine iff_of_true ((nearest_of_le hwithin hx).mpr ?_) ?_
    · have := (h.round hlo).1 hx
      simp only [clamp]
      omega
    · rintro ⟨k, hk, -, rfl, -⟩
      have hside := (h (2 * lo) (by rw [abs_mul, abs_two]; omega)).1 (by push_cast; linarith)
      have hk : (lo : ℚ) ≤ k := by exact_mod_cast hk
      push_cast at hside
      linarith
  obtain hx' | hx' := le_or_gt (hi : ℚ) x
  · refine iff_of_true ((nearest_of_ge hwithin hx').mpr ?_) ?_
    · have := (h.round hhi).2 hx'
      simp only [clamp]
      omega
    · rintro ⟨k, -, hk, rfl, -⟩
      have hside := (h (2 * hi) (by rw [abs_mul, abs_two]; omega)).2 (by push_cast; linarith)
      have hk : (k : ℚ) + 1 ≤ hi := by exact_mod_cast hk
      push_cast at hside
      linarith
  · rw [nearest_of_between hwithin hx hx',
      clamp_of_within ⟨(h.round hlo).2 hx.le, (h.round hhi).1 hx'.le⟩,
      h.missesTie_iff hlo hhi hx hx', not_not]

/-! ## Numbers of the binary64 format -/

/-- Numbers far out on one side. -/
theorem sameSide_of_far (h : 2 ^ 40 ≤ x ∧ 2 ^ 40 ≤ p ∨ x ≤ -2 ^ 40 ∧ p ≤ -2 ^ 40) :
    SameSide x p := by
  intro n hn
  have hn : |(n : ℚ)| ≤ 2 ^ 40 := by exact_mod_cast hn
  rw [abs_le] at hn
  obtain ⟨hx, hp⟩ | ⟨hx, hp⟩ := h
  · exact ⟨fun hle => by linarith, fun _ => by linarith⟩
  · exact ⟨fun _ => by linarith, fun hle => by linarith⟩

/-- A rounded number is not half as far out. -/
theorem abs_nearestDouble_sub_le_half {q : ℚ} (hq : 2 ^ 41 ≤ |q|) :
    |nearestDouble q - q| ≤ |q| / 2 := by
  have herror := abs_nearestDouble_sub_le q
  have htiny : (1 : ℚ) / 2 ^ 1075 ≤ 1 :=
    (div_le_one (by positivity)).mpr (one_le_pow₀ (by norm_num))
  generalize (1 : ℚ) / 2 ^ 1075 = ε at herror htiny
  have hpart : |q| / 2 ^ 53 ≤ |q| / 4 :=
    div_le_div_of_nonneg_left (abs_nonneg q) (by norm_num) (by norm_num)
  linarith

theorem nearestDouble_far {q : ℚ} :
    (2 ^ 41 ≤ q → 2 ^ 40 ≤ nearestDouble q) ∧ (q ≤ -2 ^ 41 → nearestDouble q ≤ -2 ^ 40) := by
  constructor
  · intro hq
    have habs : |q| = q := abs_of_nonneg (by linarith)
    have herror := abs_le.mp (abs_nearestDouble_sub_le_half (habs.symm ▸ hq))
    rw [habs] at herror
    linarith
  · intro hq
    have habs : |q| = -q := abs_of_nonpos (by linarith)
    have herror := abs_le.mp (abs_nearestDouble_sub_le_half (q := q) (by linarith))
    rw [habs] at herror
    linarith

/-- Rounding to the format keeps to the sides of the half integers. -/
theorem sameSide_nearestDouble (x : ℚ) : SameSide x (nearestDouble x) := by
  by_cases hx : |x| < 2 ^ 51
  · exact fun n _ => ⟨nearestDouble_le_half hx, half_le_nearestDouble hx⟩
  · refine sameSide_of_far ?_
    obtain h | h := le_abs.mp (not_lt.mp hx)
    · exact .inl ⟨by linarith, nearestDouble_far.1 (by linarith)⟩
    · exact .inr ⟨by linarith, nearestDouble_far.2 (by linarith)⟩

/-- So does a product with a positive factor, of a number rounded before it. -/
theorem sameSide_product {v f c : ℚ} (hc : 1 ≤ c) (hf : f = v ∨ f = nearestDouble v ∧ 2 ^ 53 ≤ |v|) :
    SameSide (v * c) (nearestDouble (f * c)) := by
  obtain rfl | ⟨rfl, hv⟩ := hf
  · exact sameSide_nearestDouble _
  · refine sameSide_of_far ?_
    have hfar := abs_le.mp (abs_nearestDouble_sub_le_half (q := v) (by linarith))
    obtain h | h := le_abs.mp hv
    · left
      rw [abs_of_nonneg (by linarith)] at hfar
      have hproduct : 2 ^ 52 ≤ nearestDouble v * c := by nlinarith
      exact ⟨by nlinarith, nearestDouble_far.1 (by linarith)⟩
    · right
      rw [abs_of_nonpos (by linarith)] at hfar
      have hproduct : nearestDouble v * c ≤ -2 ^ 52 := by nlinarith
      exact ⟨by nlinarith, nearestDouble_far.2 (by linarith)⟩

/-! ## Truncation -/

/-- The integer part, toward zero. -/
def truncate (q : ℚ) : ℤ := if 0 ≤ q then ⌊q⌋ else ⌈q⌉

theorem truncate_within (hlo : lo ≤ 0) (hhi : 0 ≤ hi) :
    Within lo hi (truncate x) ↔ lo - 1 < x ∧ x < hi + 1 := by
  have hlo' : (lo : ℚ) ≤ 0 := by exact_mod_cast hlo
  have hhi' : (0 : ℚ) ≤ hi := by exact_mod_cast hhi
  rw [Within, truncate]
  split
  · rename_i hx
    have hfloor : 0 ≤ ⌊x⌋ := Int.floor_nonneg.mpr hx
    rw [and_iff_right (by omega), and_iff_right (by linarith), ← Int.lt_add_one_iff,
      Int.floor_lt]
    push_cast
    rfl
  · rename_i hx
    have hceil : ⌈x⌉ ≤ 0 := Int.ceil_le.mpr (by push_cast; linarith)
    rw [and_iff_left (by omega), and_iff_left (by linarith), ← Int.sub_one_lt_iff, Int.lt_ceil]
    push_cast
    rfl

/-- The numbers truncated to a positive integer. -/
theorem truncate_eq_iff (hw : 0 < w) : truncate x = w ↔ w ≤ x ∧ x < w + 1 := by
  have hw' : (0 : ℚ) < w := by exact_mod_cast hw
  rw [truncate]
  split
  · exact Int.floor_eq_iff
  · rename_i hx
    have hceil : ⌈x⌉ ≤ 0 := Int.ceil_le.mpr (by push_cast; linarith)
    exact iff_of_false (by omega) fun h => by linarith [h.1]

/-- The truncated number is the nearest of a range about zero exactly when it is one of the range,
and at most one half away or at an end. -/
theorem nearest_truncate_iff (hlo : lo ≤ 0) (hhi : 0 ≤ hi) :
    Nearest (Within lo hi) x (truncate x) ↔
      lo - 1 < x ∧ x < hi + 1 ∧ (x ≤ lo ∨ hi ≤ x ∨ |(truncate x : ℚ) - x| ≤ 1 / 2) := by
  rw [← and_assoc, ← truncate_within hlo hhi]
  refine ⟨fun h => ⟨h.1, ?_⟩, fun ⟨hwithin, h⟩ => ?_⟩
  · obtain hx | hx := le_or_gt x lo
    · exact .inl hx
    obtain hx' | hx' := le_or_gt (hi : ℚ) x
    · exact .inr (.inl hx')
    · exact .inr (.inr ((nearest_of_between h.1 hx hx').mp h))
  · obtain hx | hx := le_or_gt x lo
    · refine (nearest_of_le hwithin hx).mpr (le_antisymm ?_ hwithin.1)
      have hlo' : (lo : ℚ) ≤ 0 := by exact_mod_cast hlo
      rw [truncate]
      split
      · exact Int.floor_le_iff.mpr (by linarith)
      · exact Int.ceil_le.mpr hx
    obtain hx' | hx' := le_or_gt (hi : ℚ) x
    · refine (nearest_of_ge hwithin hx').mpr (le_antisymm hwithin.2 ?_)
      have hhi' : (0 : ℚ) ≤ hi := by exact_mod_cast hhi
      rw [truncate, if_pos (by linarith)]
      exact Int.le_floor.mpr hx'
    · obtain hle | hge | hround := h
      · exact absurd hle (not_le.mpr hx)
      · exact absurd hge (not_le.mpr hx')
      · exact (nearest_of_between hwithin hx hx').mpr hround

end Library
