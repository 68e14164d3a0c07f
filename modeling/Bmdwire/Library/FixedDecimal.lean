import Bmdwire.Library.Decimal
import Mathlib.Algebra.Order.Group.MinMax
import Mathlib.Data.List.DropRight

/-!
# Numbers of so many decimal places

Rounding to decimal places and writing with them, trailing zeros dropped. An integer over a power
of ten keeps its value on the way through the format, through further rounding to as many places
or more, and through its text; multiplied by the power of ten again, it is the integer.
-/

set_option autoImplicit false

namespace Library

/-! ## Definitions -/

/-- The nearest number with so many decimal places, as the format has it. -/
def roundPlaces (places : ℕ) (q : ℚ) : ℚ :=
  nearestDouble (roundHalfEven (q * 10 ^ places) / 10 ^ places)

/-- Digits with a point before the last so many of them. -/
def pointed (places : ℕ) (ds : List Char) : List Char :=
  ds.take (ds.length - places) ++ '.' :: ds.drop (ds.length - places)

/-- A number with so many decimal places. -/
def formatF (places : ℕ) (q : ℚ) : List Char :=
  signText q ++
    pointed places (padded 10 (places + 1) (roundHalfEven (|q| * 10 ^ places)).toNat)

/-- The text without the points at its end. -/
def dropPoints (cs : List Char) : List Char := cs.rdropWhile (· = '.')

/-- The text without the zeros at its end, and without the point if it ends there. -/
def trimmed (cs : List Char) : List Char := dropPoints (dropZeros cs)

/-- The number of the format for an integer over a power of ten. -/
def decimal (places : ℕ) (w : ℤ) : ℚ := nearestDouble (w / 10 ^ places)

/-! ## The text -/

/-- What stands before a character that is no zero is left. -/
theorem dropZeros_after {c : Char} (hc : c ≠ '0') (cs ds : List Char) :
    dropZeros (cs ++ c :: ds) = cs ++ c :: dropZeros ds := by
  have hstop : ¬ decide (c = '0') = true := by simpa using hc
  induction ds using List.reverseRecOn with
  | nil => exact List.rdropWhile_concat_neg _ _ _ hstop
  | append_singleton ds d ih =>
    have hassoc : cs ++ c :: (ds ++ [d]) = (cs ++ c :: ds) ++ [d] := by simp
    have hdrop := fun l => List.rdropWhile_concat (fun d => decide (d = '0')) l d
    rw [hassoc]
    refine (hdrop _).trans ?_
    rw [show dropZeros (ds ++ [d]) = _ from hdrop ds]
    split
    · exact ih
    · rw [hassoc]

/-- A text that ends in a digit ends in no point. -/
theorem dropPoints_digits (cs : List Char) {ds : List Char} (hds : AllDigits ds) (hne : ds ≠ []) :
    dropPoints (cs ++ ds) = cs ++ ds := by
  have hlast := (hds _ (List.getLast_mem hne)).isDigit
  rw [← List.dropLast_append_getLast hne, ← List.append_assoc]
  refine List.rdropWhile_concat_neg _ _ _ fun hpoint => ?_
  rw [of_decide_eq_true hpoint] at hlast
  cases hlast

theorem placed_append_zeros (ds : List Char) (n : ℕ) (e : ℤ) :
    placed (ds ++ List.replicate n '0') (e - n) = placed ds e := by
  rw [placed, placed, digitsValue_append_zeros, Nat.cast_mul, Nat.cast_pow, Nat.cast_ofNat,
    mul_assoc, ← zpow_natCast, ← zpow_add₀ (by norm_num), add_sub_cancel]

/-- Digits on both sides of a point, trimmed. -/
def trimmedDigits (ws fs : List Char) : List Char :=
  ws ++ if dropZeros fs = [] then [] else '.' :: dropZeros fs

theorem trimmedDigits_plain {ws fs : List Char} (hws : AllDigits ws) (hfs : AllDigits fs) :
    ∀ c ∈ trimmedDigits ws fs, Plain c := by
  intro c hc
  rcases List.mem_append.mp hc with hc | hc
  · exact hws.plain c hc
  · split at hc
    · cases hc
    · rcases List.mem_cons.mp hc with rfl | hc
      · rfl
      · exact hfs.dropZeros.plain c hc

section
variable {ws fs : List Char} (hws : AllDigits ws) (hne : ws ≠ [])
include hws hne

theorem trimmed_point (sign : List Char) (hfs : AllDigits fs) :
    trimmed (sign ++ (ws ++ '.' :: fs)) = sign ++ trimmedDigits ws fs := by
  rw [trimmed, ← List.append_assoc, dropZeros_after (by decide), trimmedDigits]
  split_ifs with hnil
  · rw [hnil, show dropPoints (sign ++ ws ++ ['.']) = _ from List.rdropWhile_concat_pos _ _ _ rfl,
      List.append_nil]
    exact dropPoints_digits sign hws hne
  · have happend : sign ++ ws ++ '.' :: dropZeros fs = (sign ++ ws ++ ['.']) ++ dropZeros fs := by
      simp
    rw [happend, dropPoints_digits _ hfs.dropZeros hnil]
    simp

/-- What the digits say is left. -/
theorem unsignedNumber_trimmedDigits (hfs : AllDigits fs) :
    unsignedNumber (trimmedDigits ws fs) = some (placed (ws ++ fs) (-fs.length)) := by
  obtain ⟨n, hzeros⟩ := dropZeros_append fs
  have hlength : (fs.length : ℤ) = (dropZeros fs).length + n := by
    conv_lhs => rw [hzeros]
    simp
  have hplaced : placed (ws ++ fs) (-fs.length) =
      placed (ws ++ dropZeros fs) (-(dropZeros fs).length) := by
    have h := placed_append_zeros (ws ++ dropZeros fs) n (-(dropZeros fs).length)
    rw [List.append_assoc, ← hzeros] at h
    rw [← h, hlength]
    congr 1
    ring
  rw [hplaced, trimmedDigits]
  split_ifs with hnil
  · have hread := @unsignedNumber_whole ws [] 0 hws hne trivial (by simp) rfl
    rw [hnil, hread]
    simp
  · have hread := @unsignedNumber_point _ _ [] 0 hws hne hfs.dropZeros trivial rfl
    rw [List.append_nil] at hread
    rw [hread, zero_sub]

end

/-- The digits of so many places and one more, on both sides of the point. -/
theorem pointed_padded (places n : ℕ) :
    ∃ ws fs, pointed places (padded 10 (places + 1) n) = ws ++ '.' :: fs ∧ AllDigits ws ∧
      ws ≠ [] ∧ AllDigits fs ∧ fs.length = places ∧ digitsValue 10 0 (ws ++ fs) = n := by
  have hall : AllDigits (padded 10 (places + 1) n) := isNumeral_padded (by decide)
  have hvalue := @digitsValue_padded 10 (places + 1) n (by decide) (by decide)
  have hlength : places + 1 ≤ (padded 10 (places + 1) n).length := by
    simp only [padded, List.length_append, List.length_replicate]
    omega
  refine ⟨_, _, rfl, fun c hc => hall c (List.mem_of_mem_take hc), ?_,
    fun c hc => hall c (List.mem_of_mem_drop hc), ?_, ?_⟩
  · intro hnil
    rcases List.take_eq_nil_iff.mp hnil with hzero | hnil
    · omega
    · simp [hnil] at hlength
  · rw [List.length_drop]
    omega
  · rw [List.take_append_drop, hvalue]

/-- A number is written rounded to the places, and read back so. -/
theorem parseReal_formatF (places : ℕ) (q : ℚ) :
    parseReal (trimmed (formatF places q)) =
      some (.finite ((if q < 0 then -1 else 1) *
        (roundHalfEven (|q| * 10 ^ places) / 10 ^ places))) := by
  obtain ⟨ws, fs, htext, hws, hne, hfs, hlength, hvalue⟩ :=
    pointed_padded places (roundHalfEven (|q| * 10 ^ places)).toNat
  have hround : 0 ≤ roundHalfEven (|q| * 10 ^ places) :=
    le_roundHalfEven (by rw [Int.cast_zero]; positivity)
  have hcast : (((roundHalfEven (|q| * 10 ^ places)).toNat : ℕ) : ℚ) =
      roundHalfEven (|q| * 10 ^ places) := by
    exact_mod_cast Int.toNat_of_nonneg hround
  have hplaced : placed (ws ++ fs) (-fs.length) =
      roundHalfEven (|q| * 10 ^ places) / 10 ^ places := by
    rw [placed, hvalue, hlength, hcast, zpow_neg, zpow_natCast, div_eq_mul_inv]
  have hfirst : ∃ c cs, trimmedDigits ws fs = c :: cs ∧ IsNumeral 10 c := by
    obtain ⟨d, ds, rfl⟩ := List.exists_cons_of_ne_nil hne
    exact ⟨d, _, rfl, hws d (List.mem_cons_self ..)⟩
  rw [formatF, htext, trimmed_point hws hne _ hfs, parseReal_signed
    (trimmedDigits_plain hws hfs) hfirst (unsignedNumber_trimmedDigits hws hne hfs), hplaced]
  split <;> simp

/-! ## The numbers -/

/-- The number stands for the integer over the power of ten. -/
def About (places : ℕ) (w : ℤ) (x : ℚ) : Prop := |x - w / 10 ^ places| ≤ 1 / 2 ^ 26

theorem abs_nearestDouble_sub_small {q : ℚ} (hq : |q| < 2 ^ 20) :
    |nearestDouble q - q| ≤ 1 / 2 ^ 34 := by
  have h := abs_nearestDouble_sub (q := q) (k := 20) (by norm_num) (by exact_mod_cast hq)
  refine h.trans_eq ?_
  norm_num

theorem ofRat_small {q : ℚ} (hq : |q| < 2 ^ 20) : FloatVal.ofRat q = .finite (nearestDouble q) := by
  have hnear := abs_nearestDouble_sub_small hq
  have hbound : |nearestDouble q| < 2 ^ 21 := by
    rw [abs_le] at hnear
    rw [abs_lt] at hq ⊢
    norm_num at hnear hq ⊢
    constructor <;> linarith
  exact if_pos (hbound.trans (pow_lt_pow_right₀ (by norm_num) (by norm_num)))

section
variable {places : ℕ} {w : ℤ}

theorem abs_div_lt (hw : |w| < 2 ^ 19) : |(w : ℚ) / 10 ^ places| < 2 ^ 19 := by
  have hcast : |(w : ℚ)| < 2 ^ 19 := by exact_mod_cast hw
  rw [abs_div, abs_of_pos (by positivity : (0 : ℚ) < 10 ^ places)]
  exact lt_of_le_of_lt (div_le_self (abs_nonneg _) (one_le_pow₀ (by norm_num))) hcast

theorem abs_decimal_sub (hw : |w| < 2 ^ 19) : |decimal places w - w / 10 ^ places| ≤ 1 / 2 ^ 34 :=
  abs_nearestDouble_sub_small ((abs_div_lt hw).trans (by norm_num))

theorem about_decimal (hw : |w| < 2 ^ 19) : About places w (decimal places w) :=
  (abs_decimal_sub hw).trans (by norm_num)

/-- Multiplied by a power of ten, the number is close to an integer. -/
theorem About.scaled {x : ℚ} (h : About places w x) {more : ℕ} (hle : places ≤ more)
    (hmore : more ≤ 6) :
    |x * 10 ^ more - (w * 10 ^ (more - places) : ℤ)| ≤ 1 / 2 ^ 6 := by
  have hpower : (10 : ℚ) ^ more ≤ 10 ^ 6 := pow_le_pow_right₀ (by norm_num) hmore
  have hsplit := pow_mul_pow_sub (10 : ℚ) hle
  have hpos : (0 : ℚ) < 10 ^ more := by positivity
  have heq : x * 10 ^ more - (w * 10 ^ (more - places) : ℤ) =
      (x - w / 10 ^ places) * 10 ^ more := by
    push_cast
    rw [← hsplit]
    field_simp
  rw [heq, abs_mul, abs_of_pos hpos]
  calc |x - w / 10 ^ places| * 10 ^ more
      ≤ 1 / 2 ^ 26 * 10 ^ 6 := mul_le_mul h hpower hpos.le (by norm_num)
    _ ≤ 1 / 2 ^ 6 := by norm_num

theorem About.round {x : ℚ} (h : About places w x) {more : ℕ} (hle : places ≤ more)
    (hmore : more ≤ 6) : roundHalfEven (x * 10 ^ more) = w * 10 ^ (more - places) :=
  roundHalfEven_eq (lt_of_le_of_lt (h.scaled hle hmore) (by norm_num))

/-- What stands for an integer over a power of ten is rounded to it. -/
theorem roundPlaces_about {x : ℚ} (h : About places w x) {more : ℕ} (hle : places ≤ more)
    (hmore : more ≤ 6) : roundPlaces more x = decimal places w := by
  have hsplit := pow_mul_pow_sub (10 : ℚ) hle
  rw [roundPlaces, h.round hle hmore, decimal]
  congr 1
  push_cast
  rw [← hsplit]
  field_simp

/-- It is the integer that the power of ten makes of it. -/
theorem round_nearestDouble_about {x : ℚ} (h : About places w x) (hplaces : places ≤ 6)
    (hw : |w| < 2 ^ 19) : |x * 10 ^ places| < 2 ^ 20 ∧
      roundHalfEven (nearestDouble (x * 10 ^ places)) = w := by
  have hscaled := h.scaled le_rfl hplaces
  rw [Nat.sub_self, pow_zero, mul_one] at hscaled
  have hcast : |(w : ℚ)| < 2 ^ 19 := by exact_mod_cast hw
  have hsmall : |x * 10 ^ places| < 2 ^ 20 := by
    rw [abs_le] at hscaled
    rw [abs_lt] at hcast ⊢
    norm_num at hscaled hcast ⊢
    constructor <;> linarith
  have hround := abs_nearestDouble_sub_small hsmall
  refine ⟨hsmall, roundHalfEven_eq ?_⟩
  rw [abs_le] at hscaled hround
  rw [abs_lt]
  norm_num at hscaled hround ⊢
  constructor <;> linarith

/-- The sign of the number is that of the integer, if it has one. -/
theorem About.sign {x : ℚ} (h : About places w x) (hplaces : places ≤ 6) :
    (x < 0 → w ≤ 0) ∧ (0 ≤ x → 0 ≤ w) := by
  have hscaled := h.scaled le_rfl hplaces
  rw [Nat.sub_self, pow_zero, mul_one, abs_le] at hscaled
  have hpos : (0 : ℚ) < 10 ^ places := by positivity
  constructor
  · intro hneg
    have hlt : (w : ℚ) < 1 := by
      have := mul_neg_of_neg_of_pos hneg hpos
      norm_num at hscaled
      linarith
    exact Int.lt_add_one_iff.mp (by exact_mod_cast hlt)
  · intro hnonneg
    have hlt : (-1 : ℚ) < w := by
      have := mul_nonneg hnonneg hpos.le
      norm_num at hscaled
      linarith
    have : -1 < w := by exact_mod_cast hlt
    omega

theorem About.abs {x : ℚ} (h : About places w x) : About places |w| |x| := by
  have heq : ((|w| : ℤ) : ℚ) / 10 ^ places = |(w : ℚ) / 10 ^ places| := by
    rw [Int.cast_abs, abs_div, abs_of_pos (by positivity : (0 : ℚ) < 10 ^ places)]
  rw [About, heq]
  exact (abs_abs_sub_abs_le_abs_sub _ _).trans h

/-- It is written as the integer over the power of ten. -/
theorem parseReal_about {x : ℚ} (h : About places w x) {more : ℕ} (hle : places ≤ more)
    (hmore : more ≤ 6) :
    parseReal (trimmed (formatF more x)) = some (.finite (w / 10 ^ places)) := by
  obtain ⟨hneg, hnonneg⟩ := h.sign (hle.trans hmore)
  have hsplit := pow_mul_pow_sub (10 : ℚ) hle
  have hquotient :
      ((|w| * 10 ^ (more - places) : ℤ) : ℚ) / 10 ^ more = |(w : ℚ)| / 10 ^ places := by
    push_cast
    rw [← hsplit]
    field_simp
  rw [parseReal_formatF, h.abs.round hle hmore, hquotient]
  congr 2
  split_ifs with hx
  · rw [abs_of_nonpos (by exact_mod_cast hneg hx)]
    ring
  · rw [abs_of_nonneg (by exact_mod_cast hnonneg (not_lt.mp hx)), one_mul]

/-- A number of the format that is written and read is the same one. -/
theorem ofRat_decimal (hw : |w| < 2 ^ 19) :
    FloatVal.ofRat (w / 10 ^ places) = .finite (decimal places w) :=
  ofRat_small ((abs_div_lt hw).trans (by norm_num))

/-- A hundred times the number has two places less. -/
theorem about_percent (hw : |w| < 2 ^ 19) : |decimal (places + 2) w * 100| < 2 ^ 20 ∧
    About places w (nearestDouble (decimal (places + 2) w * 100)) := by
  have hnear := @abs_decimal_sub (places + 2) w hw
  have hlt := @abs_div_lt places w hw
  have hhundred : (w : ℚ) / 10 ^ (places + 2) = w / 10 ^ places / 100 := by
    rw [pow_add, div_div]
    norm_num
  rw [hhundred] at hnear
  unfold About
  generalize (w : ℚ) / 10 ^ places = v at hnear hlt ⊢
  generalize decimal (places + 2) w = x at hnear ⊢
  have hsmall : |x * 100| < 2 ^ 20 := by
    rw [abs_le] at hnear
    rw [abs_lt] at hlt ⊢
    norm_num at hnear hlt ⊢
    constructor <;> linarith
  have hround := abs_nearestDouble_sub_small hsmall
  refine ⟨hsmall, ?_⟩
  rw [abs_le] at hnear hround ⊢
  norm_num at hnear hround ⊢
  constructor <;> linarith

/-- The hundredth part of the number has two places more. -/
theorem about_hundredth (hw : |w| < 2 ^ 19) : |decimal places w / 100| < 2 ^ 20 ∧
    About (places + 2) w (nearestDouble (decimal places w / 100)) := by
  have hnear := @abs_decimal_sub places w hw
  have hlt := @abs_div_lt places w hw
  have hhundred : (w : ℚ) / 10 ^ (places + 2) = w / 10 ^ places / 100 := by
    rw [pow_add, div_div]
    norm_num
  unfold About
  rw [hhundred]
  generalize (w : ℚ) / 10 ^ places = v at hnear hlt ⊢
  generalize decimal places w = x at hnear ⊢
  have hsmall : |x / 100| < 2 ^ 20 := by
    rw [abs_le] at hnear
    rw [abs_lt] at hlt ⊢
    norm_num at hnear hlt ⊢
    constructor <;> linarith
  have hround := abs_nearestDouble_sub_small hsmall
  refine ⟨hsmall, ?_⟩
  rw [abs_le] at hnear hround ⊢
  norm_num at hnear hround ⊢
  constructor <;> linarith

/-- Kept between zero and one, the number stands for the integer kept up to the power of ten. -/
theorem About.unit {x : ℚ} (h : About places w x) :
    About places (max 0 (min (10 ^ places) w)) (max 0 (min 1 x)) := by
  have hpos : (0 : ℚ) < 10 ^ places := by positivity
  have hbounds : ((max 0 (min (10 ^ places) w) : ℤ) : ℚ) / 10 ^ places =
      max 0 (min 1 ((w : ℚ) / 10 ^ places)) := by
    push_cast
    rw [← max_div_div_right hpos.le, ← min_div_div_right hpos.le, zero_div, div_self hpos.ne']
  rw [About, hbounds]
  calc |max 0 (min 1 x) - max 0 (min 1 ((w : ℚ) / 10 ^ places))|
      ≤ |min 1 x - min 1 ((w : ℚ) / 10 ^ places)| := by
        simpa using abs_max_sub_max_le_max (0 : ℚ) (min 1 x) 0 (min 1 ((w : ℚ) / 10 ^ places))
    _ ≤ |x - w / 10 ^ places| := by
        simpa using abs_min_sub_min_le_max (1 : ℚ) x 1 ((w : ℚ) / 10 ^ places)
    _ ≤ 1 / 2 ^ 26 := h

end

end Library
