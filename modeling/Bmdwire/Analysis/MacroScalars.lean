import Bmdwire.Interface.MacroFields

/-!
# Fixed-point scalars through their text

The scalars of the macro ops are 65536ths, read into six significant digits. The text of a
scalar is read back as a number that has the same text (`toFixed_fixedStr`,
`fixedStr_refixed`), and it fits where the scalar stood unless six digits round it up to the
end of the range: from `scalarLimit` on the text says 32768 or 65536.
-/

set_option autoImplicit false

namespace Bmdwire.Macros

open Library

/-! ## The text of a scalar -/

theorem fixedStr_eq {n : ℤ} (hn : |n| < 2 ^ 53) : fixedStr n = fmtScalar (n / 65536) := by
  have hexact := nearestDouble_exact (n := n) (j := 16) hn (by norm_num)
  have hpower : (2 : ℚ) ^ 16 = 65536 := by norm_num
  rw [hpower] at hexact
  rw [fixedStr, hexact]

theorem fixedStr_of_ne {n : ℤ} (hn : |n| < 2 ^ 53) (hne : n ≠ 0) :
    fixedStr n = String.ofList (formatG 6 (n / 65536)) := by
  have hquotient : (n : ℚ) / 65536 ≠ 0 := div_ne_zero (by exact_mod_cast hne) (by norm_num)
  rw [fixedStr_eq hn, fmtScalar, if_neg hquotient]

theorem fixedStr_zero : fixedStr 0 = "0" := by
  rw [fixedStr_eq (by norm_num), fmtScalar, if_pos (by norm_num)]

theorem ofRat_of_lt {q : ℚ} (hq : |q| < 2 ^ 64) :
    FloatVal.ofRat q = .finite (nearestDouble q) := by
  have hround := abs_nearestDouble_sub (k := 64) (by decide) (by exact_mod_cast hq)
  have hsmall : (2 : ℚ) ^ (64 - 54 : ℤ) ≤ 2 ^ 64 := by norm_num
  have htri := abs_add_le (nearestDouble q - q) q
  rw [sub_add_cancel] at htri
  have hbound : (2 : ℚ) ^ 65 ≤ 2 ^ 1024 := pow_le_pow_right₀ (by norm_num) (by norm_num)
  have hlt : |nearestDouble q| < 2 ^ 65 := by
    rw [pow_succ]
    linarith
  rw [FloatVal.ofRat, if_pos (hlt.trans_le hbound)]

/-- A text that says a number of moderate size is read as the float arithmetic has it. -/
theorem toFixed_of_parseReal {text : String} {t : ℚ}
    (hread : parseReal text.toList = some (.finite t)) (ht : |t| < 2 ^ 17) :
    toFixed text = .ok (fixedOf t) := by
  have hround := abs_nearestDouble_sub (k := 17) (by decide) (by exact_mod_cast ht)
  have hunit : (2 : ℚ) ^ (17 - 54 : ℤ) ≤ 1 := zpow_le_one_of_nonpos₀ (by norm_num) (by norm_num)
  have htri := abs_add_le (nearestDouble t - t) t
  rw [sub_add_cancel] at htri
  have hproduct : |nearestDouble t * 65536| < 2 ^ 64 := by
    rw [abs_mul, abs_of_pos (by norm_num : (0 : ℚ) < 65536)]
    linarith
  have hsize : |t| < 2 ^ 64 := ht.trans (by norm_num)
  rw [toFixed, toFloat, hread]
  show roundFloat (timesDivisor (FloatVal.ofRat t)) = _
  rw [ofRat_of_lt hsize, timesDivisor, ofRat_of_lt hproduct]
  rfl

theorem parseReal_zero : parseReal "0".toList = some (.finite 0) := by
  have hread := @parseReal_general ['0'] (allDigits_zeros 1) (by simp) 6 0 0
  have htext : signText 0 ++ generalText 6 ['0'] 0 = "0".toList := by decide
  have hvalue : digitsValue 10 0 ['0'] = 0 := rfl
  rw [htext, if_neg (by norm_num), placed, hvalue, Nat.cast_zero, zero_mul] at hread
  exact hread

/-- The text of a scalar is read as the fixed-point number that six digits make of it. -/
theorem toFixed_fixedStr {n : ℤ} (hle : |n| ≤ 2 ^ 32) : toFixed (fixedStr n) = .ok (refixed n) := by
  have hsmall : |n| < 2 ^ 53 := hle.trans_lt (by norm_num)
  rcases eq_or_ne n 0 with rfl | hne
  · rw [fixedStr_zero, toFixed_of_parseReal parseReal_zero (by norm_num), refixed_zero]
    have hzero := fixedOf_exact (N := 0) (by norm_num)
    rw [Int.cast_zero, zero_div] at hzero
    rw [hzero]
  · have hquotient : (n : ℚ) / 65536 ≠ 0 := div_ne_zero (by exact_mod_cast hne) (by norm_num)
    rw [fixedStr_of_ne hsmall hne]
    apply toFixed_of_parseReal
    · rw [String.toList_ofList]
      exact parseReal_formatG (by norm_num) hquotient
    · exact (sixDigits hne hle).abs_value_lt hle

theorem refixed_ne_zero {n : ℤ} (hne : n ≠ 0) (hle : |n| ≤ 2 ^ 32) : refixed n ≠ 0 := by
  have h := sixDigits hne hle
  rcases le_or_gt (scientific 6 |(n : ℚ) / 65536|).2 0 with hsize | hsize
  · rw [h.refixed_small hle hsize]
    exact hne
  · exact (h.refixed_sign hle hsize).2

theorem abs_refixed_lt {n : ℤ} (hle : |n| ≤ 2 ^ 32) : |refixed n| < 2 ^ 53 := by
  rcases eq_or_ne n 0 with rfl | hne
  · rw [refixed_zero]
    norm_num
  · have hread := abs_fixedOf_sub ((sixDigits hne hle).abs_value_lt hle)
    have hvalue := (sixDigits hne hle).abs_value_lt hle
    have htri := abs_add_le ((refixed n : ℚ) - significant 6 (n / 65536) * 65536)
      (significant 6 (n / 65536) * 65536)
    rw [sub_add_cancel, abs_mul, abs_of_pos (by norm_num : (0 : ℚ) < 65536)] at htri
    have hlt : (|refixed n| : ℚ) < 2 ^ 53 := by
      have : |(refixed n : ℚ) - significant 6 (n / 65536) * 65536| ≤ 1 / 2 + 1 / 2 ^ 19 := hread
      linarith
    exact_mod_cast hlt

/-- What comes back is written the same. -/
theorem fixedStr_refixed {n : ℤ} (hle : |n| ≤ 2 ^ 32) : fixedStr (refixed n) = fixedStr n := by
  rcases eq_or_ne n 0 with rfl | hne
  · rw [refixed_zero]
  · rw [fixedStr_of_ne (abs_refixed_lt hle) (refixed_ne_zero hne hle),
      fixedStr_of_ne (hle.trans_lt (by norm_num)) hne, formatG_refixed hne hle]

/-- Only zero is written as zero. -/
theorem fixedStr_ne_zero {n : ℤ} (hne : n ≠ 0) (hle : |n| ≤ 2 ^ 32) :
    fixedStr n ≠ fixedStr 0 := by
  intro heq
  have hread := toFixed_fixedStr hle
  have hzero := toFixed_fixedStr (n := 0) (by norm_num)
  rw [heq, hzero, refixed_zero] at hread
  exact refixed_ne_zero hne hle (Except.ok.inj hread).symm

/-! ## The range -/

/-- From here on six digits round up to the end of the range. -/
def scalarLimit (signed : Bool) : ℤ := if signed then 2147480372 else 4294964020

/-- A number that 32 bits hold, with a sign or without. -/
def InRange (signed : Bool) (n : ℤ) : Prop :=
  if signed then -0x80000000 ≤ n ∧ n < 0x80000000 else 0 ≤ n ∧ n < 0x100000000

theorem inRange_of_int32le {signed : Bool} {buf : Bytes} {offset : ℕ} {n : ℤ}
    (h : int32le signed buf offset = .ok n) : InRange signed n := by
  cases signed with
  | false =>
    obtain ⟨m, hm, rfl⟩ := map_eq_ok.mp h
    have hlt := u32le_lt hm
    exact ⟨by omega, by omega⟩
  | true =>
    obtain ⟨m, hm, rfl⟩ := map_eq_ok.mp h
    have hlt : m < 2 ^ 32 := unpackFrom_lt hm
    exact asSigned_bounds (by decide) hlt

variable {signed : Bool} {n : ℤ}

theorem InRange.abs_bound (h : InRange signed n) : |n| ≤ 2 ^ 32 := by
  unfold InRange at h
  rw [abs_le]
  split at h <;> constructor <;> omega

/-- Below the limit a scalar that comes back is in the range it was in. -/
theorem InRange.comesBack (h : InRange signed n) (hlimit : n < scalarLimit signed) :
    InRange signed (refixed n) := by
  have hle := h.abs_bound
  cases signed with
  | false =>
    obtain ⟨hlow, hhigh⟩ : 0 ≤ n ∧ n < 0x100000000 := h
    have hlimit : n < 4294964020 := hlimit
    have hbelow := @refixed_below n 65536 (by norm_num) (by norm_num)
      (by rw [abs_of_nonneg hlow]; norm_num; omega)
    have hpos := refixed_nonneg hlow hle
    rw [abs_of_nonneg hpos] at hbelow
    exact ⟨hpos, by omega⟩
  | true =>
    obtain ⟨hlow, hhigh⟩ : -0x80000000 ≤ n ∧ n < 0x80000000 := h
    have hlimit : n < 2147480372 := hlimit
    show -0x80000000 ≤ refixed n ∧ refixed n < 0x80000000
    by_cases hbottom : n ≤ -2147480372
    · -- the lower end of the range belongs to it
      have hnear := @refixed_near n 32768 (by norm_num) (by norm_num)
        (by rw [abs_of_neg (by omega)]; norm_num; omega)
        (by rw [abs_of_neg (by omega)]; norm_num; omega)
      rw [if_pos (by omega)] at hnear
      omega
    · have hbelow := @refixed_below n 32768 (by norm_num) (by norm_num)
        (by rw [abs_lt]; norm_num; omega)
      rw [abs_lt] at hbelow
      omega

/-- From the limit on it is the number after the end of the range. -/
theorem InRange.refixed_end (h : InRange signed n) (hlimit : scalarLimit signed ≤ n) :
    refixed n = if signed then 0x80000000 else 0x100000000 := by
  cases signed with
  | false =>
    obtain ⟨hlow, hhigh⟩ : 0 ≤ n ∧ n < 0x100000000 := h
    have hlimit : 4294964020 ≤ n := hlimit
    have hnear := @refixed_near n 65536 (by norm_num) (by norm_num)
      (by rw [abs_of_nonneg hlow]; norm_num; omega)
      (by rw [abs_of_nonneg hlow]; norm_num; omega)
    rw [if_neg (by omega)] at hnear
    exact hnear
  | true =>
    obtain ⟨hlow, hhigh⟩ : -0x80000000 ≤ n ∧ n < 0x80000000 := h
    have hlimit : 2147480372 ≤ n := hlimit
    have hnear := @refixed_near n 32768 (by norm_num) (by norm_num)
      (by rw [abs_of_nonneg (by omega)]; norm_num; omega)
      (by rw [abs_of_nonneg (by omega)]; norm_num; omega)
    rw [if_neg (by omega)] at hnear
    exact hnear

/-! ## Packing -/

theorem InRange.pack (h : InRange signed n) :
    int32leBytes signed n = .ok (leBytes 4 (n % 0x100000000).toNat) := by
  cases signed with
  | false => rfl
  | true =>
    obtain ⟨hlow, hhigh⟩ : -0x80000000 ≤ n ∧ n < 0x80000000 := h
    show i32leBytes n = _
    rw [i32leBytes, if_neg (by omega)]

/-- A scalar in its range is read where it was packed. -/
theorem InRange.readBack (h : InRange signed n) (head : Bytes) :
    int32le signed (head ++ leBytes 4 (n % 0x100000000).toNat) head.length = .ok n := by
  have hread := @unpackFrom_leBytes 4 (n % 0x100000000).toNat head [] (by omega)
  rw [List.append_nil] at hread
  cases signed with
  | false =>
    obtain ⟨hlow, hhigh⟩ : 0 ≤ n ∧ n < 0x100000000 := h
    have hmod : (((n % 0x100000000).toNat : ℕ) : ℤ) = n := by omega
    show (u32le _ _).map _ = _
    rw [u32le, hread, map_ok, hmod]
  | true =>
    obtain ⟨hlow, hhigh⟩ : -0x80000000 ≤ n ∧ n < 0x80000000 := h
    show (unpackFrom 4 _ _).map _ = _
    rw [hread, map_ok]
    exact congrArg _ (@asSigned_emod 32 _ (by decide) hlow hhigh)

/-- The packers of a scalar differ only in the exception they raise. -/
def Packs (signed : Bool) (pack : ℤ → Except EncodeError Bytes) : Prop :=
  ∀ v packed, pack v = .ok packed ↔ int32leBytes signed v = .ok packed

theorem packs_int32leBytes (signed : Bool) : Packs signed (int32leBytes signed) :=
  fun _ _ => Iff.rfl

theorem packs_packI32 : Packs true packI32 := by
  intro v packed
  show packI32 v = _ ↔ i32leBytes v = _
  unfold packI32 i32leBytes
  by_cases hv : -0x80000000 ≤ v ∧ v < 0x80000000
  · rw [if_pos hv, if_neg (by omega)]
  · rw [if_neg hv, if_pos (by omega)]
    simp

/-- Past the end of the range nothing is packed, or zero is. -/
theorem InRange.pack_end (h : InRange signed n) (hlimit : scalarLimit signed ≤ n)
    {packed : Bytes} (hpack : int32leBytes signed (refixed n) = .ok packed) :
    signed = false ∧ packed = leBytes 4 0 := by
  rw [h.refixed_end hlimit] at hpack
  cases signed with
  | false => exact ⟨rfl, (Except.ok.inj hpack).symm⟩
  | true => cases hpack

/-! ## There and back -/

/-- The text of a scalar is encoded, and what is decoded from it has the same text; below ten it
is the scalar itself. -/
def Reencodes (signed : Bool) (pack : ℤ → Except EncodeError Bytes) (n : ℤ) : Prop :=
  ∃ packed n', toFixed (fixedStr n) >>= pack = .ok packed ∧ int32le signed packed 0 = .ok n' ∧
    fixedStr n' = fixedStr n ∧ (|n| < 10 * 65536 → n' = n)

theorem reencodes_iff (h : InRange signed n) {pack : ℤ → Except EncodeError Bytes}
    (hpack : Packs signed pack) : Reencodes signed pack n ↔ n < scalarLimit signed := by
  have hle := h.abs_bound
  have hread : toFixed (fixedStr n) >>= pack = pack (refixed n) := by
    rw [toFixed_fixedStr hle]
    rfl
  constructor
  · rintro ⟨packed, n', hpacked, hn', htext, -⟩
    rw [hread] at hpacked
    by_contra hlimit
    have hlimit := not_lt.mp hlimit
    obtain ⟨rfl, rfl⟩ := h.pack_end hlimit ((hpack _ _).mp hpacked)
    have hzero : (0 : ℤ) = n' := by
      have hpacked : int32le false (leBytes 4 0) 0 = .ok 0 := rfl
      exact Except.ok.inj (hpacked.symm.trans hn')
    have hne : n ≠ 0 := by
      have hlimit : 4294964020 ≤ n := hlimit
      omega
    exact fixedStr_ne_zero hne hle (hzero ▸ htext).symm
  · intro hlimit
    have hback := h.comesBack hlimit
    refine ⟨_, refixed n, hread.trans ((hpack _ _).mpr hback.pack), hback.readBack [],
      fixedStr_refixed hle, refixed_of_lt⟩

/-- A scalar of 32 bits is encoded again from its text, with the same text, if and only if it is
below the limit. The number encoded is the one that exact arithmetic makes of the text. -/
theorem scalar_reencodes_iff (h : InRange signed n) :
    fixedStr n = fmtScalar (n / 65536) ∧
    toFixed (fixedStr n) = .ok (roundHalfEven (significant 6 (n / 65536) * 65536)) ∧
    (Reencodes signed (int32leBytes signed) n ↔ n < scalarLimit signed) ∧
    (signed = true → (Reencodes signed packI32 n ↔ n < scalarLimit signed)) := by
  have hle := h.abs_bound
  refine ⟨fixedStr_eq (hle.trans_lt (by norm_num)), ?_,
    reencodes_iff h (packs_int32leBytes signed), ?_⟩
  · rw [toFixed_fixedStr hle, refixed_eq hle]
  · rintro rfl
    exact reencodes_iff h packs_packI32

/-- A scalar that comes back as its neighbour, and one that comes back as itself. -/
theorem scalar_reencodes_neighbour :
    Reencodes true packI32 (-21474835) ∧ Reencodes false (int32leBytes false) 655359 :=
  ⟨((@scalar_reencodes_iff true (-21474835) ⟨by decide, by decide⟩).2.2.2
      rfl).mpr (by decide),
    (@scalar_reencodes_iff false 655359 ⟨by decide, by decide⟩).2.2.1.mpr
      (by decide)⟩

/-- The greatest scalar with a sign has the text 32768, which is rejected. -/
theorem scalar_reencodes_greatest :
    InRange true 0x7fffffff ∧ ¬ Reencodes true (int32leBytes true) 0x7fffffff := by
  have hrange : InRange true 0x7fffffff := ⟨by decide, by decide⟩
  refine ⟨hrange, fun h => ?_⟩
  exact absurd ((reencodes_iff hrange (packs_int32leBytes true)).mp h) (by decide)

end Bmdwire.Macros
