import Bmdwire.Library.Numerals
import Bmdwire.Library.Rounding

/-!
# Real numbers as decimal text

Reading decimal numbers with an optional fraction and exponent, and writing them with a given
number of significant digits or of decimal places. A number written from its digits is read
back as those digits say (`unsignedNumber_general`), whichever notation the size of it calls for.
-/

set_option autoImplicit false

namespace Library

/-! ## Reading -/

def nextIsDigit : List Char → Bool
  | c :: _ => c.isDigit
  | [] => false

/-- The digits at the front, without the single underscores between them, and the rest. -/
def digitRun : List Char → List Char × List Char
  | [] => ([], [])
  | c :: cs =>
    if c.isDigit then (c :: (digitRun cs).1, (digitRun cs).2)
    else if c = '_' ∧ nextIsDigit cs then digitRun cs
    else ([], c :: cs)

/-- A row of digits does not start with an underscore. -/
def digitPart (cs : List Char) : List Char × List Char :=
  match cs with
  | '_' :: _ => ([], cs)
  | _ => digitRun cs

/-- The digits after a decimal point, if one is here. -/
def fraction : List Char → List Char × List Char
  | '.' :: cs => digitPart cs
  | cs => ([], cs)

def exponentDigits (cs : List Char) : Option ℤ :=
  match digitPart cs with
  | (d :: ds, []) => some (digitsValue 10 0 (d :: ds))
  | _ => none

/-- The exponent that ends the text, if there is one. -/
def exponent : List Char → Option ℤ
  | [] => some 0
  | c :: cs =>
    if c = 'e' ∨ c = 'E' then
      match cs with
      | '-' :: cs => (exponentDigits cs).map fun e => -e
      | '+' :: cs => exponentDigits cs
      | cs => exponentDigits cs
    else none

/-- The number that the digits make, the last of them standing for `10 ^ e`. -/
def placed (ds : List Char) (e : ℤ) : ℚ := digitsValue 10 0 ds * 10 ^ e

/-- A number without a sign, as it is written. -/
def unsignedNumber (cs : List Char) : Option ℚ :=
  let whole := digitPart cs
  let part := fraction whole.2
  if whole.1 = [] ∧ part.1 = [] then none
  else (exponent part.2).map fun e => placed (whole.1 ++ part.1) (e - part.1.length)

def unsignedReal (negative : Bool) (cs : List Char) : Option FloatVal :=
  let word := String.ofList (cs.map Char.toLower)
  if word = "inf" ∨ word = "infinity" then some (.infinite negative)
  else if word = "nan" then some .nan
  else (unsignedNumber cs).map fun q => .finite (if negative then -q else q)

/-- Read a real number, exactly. -/
def parseReal (cs : List Char) : Option FloatVal :=
  match strip cs with
  | '-' :: cs => unsignedReal true cs
  | '+' :: cs => unsignedReal false cs
  | cs => unsignedReal false cs

/-! ## Writing -/

/-- The digits of a positive number, rounded to so many of them, as an integer, and the power of
ten its first digit stands for. -/
def scientific (digits : ℕ) (q : ℚ) : ℕ × ℤ :=
  let k := Int.log 10 q
  let m := (roundHalfEven (q / 10 ^ (k + 1 - digits))).toNat
  if m = 10 ^ digits then (10 ^ (digits - 1), k + 1) else (m, k)

def dropZeros (ds : List Char) : List Char := (ds.reverse.dropWhile (· = '0')).reverse

/-- Digits of which the first stands for `10 ^ k`, with a decimal point among them. -/
def fixedText (ds : List Char) (k : ℤ) : List Char :=
  if k < 0 then '0' :: '.' :: (List.replicate (-k - 1).toNat '0' ++ ds)
  else if ds.length ≤ (k + 1).toNat then ds ++ List.replicate ((k + 1).toNat - ds.length) '0'
  else ds.take (k + 1).toNat ++ '.' :: ds.drop (k + 1).toNat

/-- Digits of which the first stands for `10 ^ k`, with an exponent. -/
def exponentText (ds : List Char) (k : ℤ) : List Char :=
  ds.take 1 ++ (if ds.drop 1 = [] then [] else '.' :: ds.drop 1) ++
    'e' :: (if k < 0 then '-' else '+') :: padded 10 2 k.natAbs

/-- The digits in the notation that suits their size. -/
def generalText (digits : ℕ) (ds : List Char) (k : ℤ) : List Char :=
  if -4 ≤ k ∧ k < digits then fixedText ds k else exponentText ds k

def signText (q : ℚ) : List Char := if q < 0 then ['-'] else []

/-- A number with so many significant digits, trailing zeros dropped. -/
def formatG (digits : ℕ) (q : ℚ) : List Char :=
  if q = 0 then ['0']
  else
    let s := scientific digits |q|
    signText q ++ generalText digits (dropZeros (Nat.toDigits 10 s.1)) s.2

/-! ## What is written is read back -/

/-- A row of decimal digits. -/
def AllDigits (cs : List Char) : Prop := ∀ c ∈ cs, IsNumeral 10 c

theorem IsNumeral.isDigit {c : Char} (h : IsNumeral 10 c) : c.isDigit = true := by
  obtain ⟨d, hd, rfl⟩ := h
  interval_cases d <;> rfl

/-- The text does not go on with digits. -/
def Stops : List Char → Prop
  | [] => True
  | c :: _ => c.isDigit = false ∧ c ≠ '_'

theorem digitRun_append {ds rest : List Char} (hds : AllDigits ds) (hrest : Stops rest) :
    digitRun (ds ++ rest) = (ds, rest) := by
  induction ds with
  | nil =>
    cases rest with
    | nil => rfl
    | cons c cs => simp [digitRun, hrest.1, hrest.2]
  | cons d ds ih =>
    have hd := (hds d (List.mem_cons_self ..)).isDigit
    have ih := ih fun c hc => hds c (List.mem_cons_of_mem _ hc)
    rw [List.cons_append, digitRun, if_pos hd, ih]

theorem digitPart_append {ds rest : List Char} (hds : AllDigits ds) (hrest : Stops rest) :
    digitPart (ds ++ rest) = (ds, rest) := by
  have hrun := digitRun_append hds hrest
  unfold digitPart
  split
  · rename_i rest' heq
    exfalso
    cases ds with
    | nil =>
      obtain rfl : rest = '_' :: rest' := heq
      exact hrest.2 rfl
    | cons d ds =>
      obtain rfl : d = '_' := (List.cons.inj heq).1
      exact ((hds '_' (List.mem_cons_self ..)).ne (by decide)).1 rfl
  · exact hrun

theorem digitPart_digits {ds : List Char} (hds : AllDigits ds) : digitPart ds = (ds, []) := by
  have h := @digitPart_append ds [] hds trivial
  rwa [List.append_nil] at h

theorem exponentDigits_padded (width n : ℕ) :
    exponentDigits (padded 10 width n) = some (n : ℤ) := by
  have hall : AllDigits (padded 10 width n) := isNumeral_padded (by decide)
  have hne := @padded_ne_nil 10 width n
  have hvalue := @digitsValue_padded 10 width n (by decide) (by decide)
  unfold exponentDigits
  rw [digitPart_digits hall]
  cases hpadded : padded 10 width n with
  | nil => exact absurd hpadded hne
  | cons d ds =>
    rw [hpadded] at hvalue
    simp [hvalue]

/-- A number without a fraction. -/
theorem unsignedNumber_whole {ds rest : List Char} {e : ℤ} (hds : AllDigits ds) (hne : ds ≠ [])
    (hrest : Stops rest) (hpoint : ∀ cs, rest ≠ '.' :: cs) (hexp : exponent rest = some e) :
    unsignedNumber (ds ++ rest) = some (placed ds e) := by
  have hfraction : fraction rest = ([], rest) := by
    unfold fraction
    split
    · rename_i cs
      exact absurd rfl (hpoint cs)
    · rfl
  rw [unsignedNumber, digitPart_append hds hrest]
  simp [hfraction, hne, hexp]

/-- A number with a fraction. -/
theorem unsignedNumber_point {ds fs rest : List Char} {e : ℤ} (hds : AllDigits ds)
    (hne : ds ≠ []) (hfs : AllDigits fs) (hrest : Stops rest) (hexp : exponent rest = some e) :
    unsignedNumber (ds ++ '.' :: (fs ++ rest)) =
      some (placed (ds ++ fs) (e - fs.length)) := by
  have hstop : Stops ('.' :: (fs ++ rest)) := ⟨rfl, by decide⟩
  have hfraction : fraction ('.' :: (fs ++ rest)) = (fs, rest) := digitPart_append hfs hrest
  rw [unsignedNumber, digitPart_append hds hstop]
  simp [hfraction, hne, hexp]

theorem AllDigits.append {l m : List Char} (hl : AllDigits l) (hm : AllDigits m) :
    AllDigits (l ++ m) := fun c hc => (List.mem_append.mp hc).elim (hl c) (hm c)

theorem allDigits_zeros (n : ℕ) : AllDigits (List.replicate n '0') := fun _ hc =>
  ⟨0, by decide, List.eq_of_mem_replicate hc⟩

theorem digitsValue_append_zeros (ds : List Char) (n acc : ℕ) :
    digitsValue 10 acc (ds ++ List.replicate n '0') = digitsValue 10 acc ds * 10 ^ n := by
  rw [digitsValue_append]
  generalize digitsValue 10 acc ds = m
  induction n generalizing m with
  | zero => simp [digitsValue]
  | succ n ih =>
    rw [List.replicate_succ]
    show digitsValue 10 (m * 10 + digitVal '0') (List.replicate n '0') = _
    have hzero : digitVal '0' = 0 := rfl
    rw [hzero, ih, pow_succ]
    ring

theorem digitsValue_zeros_append (ds : List Char) (n : ℕ) :
    digitsValue 10 0 (List.replicate n '0' ++ ds) = digitsValue 10 0 ds := by
  rw [digitsValue_append, digitsValue_zeros]

/-- The digits with a decimal point among them say what the digits say. -/
theorem unsignedNumber_fixed {ds : List Char} (hds : AllDigits ds) (hne : ds ≠ []) (k : ℤ) :
    unsignedNumber (fixedText ds k) = some (placed ds (k + 1 - ds.length)) := by
  unfold fixedText
  split
  · -- the point comes before the digits
    rename_i hk
    have hzeros := allDigits_zeros (-k - 1).toNat
    have hread := @unsignedNumber_point ['0'] _ [] 0
      (allDigits_zeros 1) (by simp) (hzeros.append hds) trivial rfl
    rw [List.append_nil] at hread
    have hvalue : digitsValue 10 0 (['0'] ++ (List.replicate (-k - 1).toNat '0' ++ ds)) =
        digitsValue 10 0 ds := by
      rw [← List.append_assoc]
      exact digitsValue_zeros_append ds ((-k - 1).toNat + 1)
    refine hread.trans ?_
    rw [placed, placed, hvalue, List.length_append, List.length_replicate]
    congr 3
    push_cast
    omega
  · rename_i hk
    split
    · -- zeros follow the digits
      rename_i hlen
      have hread := @unsignedNumber_whole _ [] 0
        (hds.append (allDigits_zeros ((k + 1).toNat - ds.length))) (by simp [hne]) trivial
        (by simp) rfl
      rw [List.append_nil] at hread
      rw [hread, placed, placed, digitsValue_append_zeros, zpow_zero, mul_one, Nat.cast_mul,
        Nat.cast_pow, Nat.cast_ofNat, ← zpow_natCast]
      congr 3
      omega
    · -- the point stands among the digits
      rename_i hlen
      have htake : ds.take (k + 1).toNat ≠ [] := by
        intro hnil
        rcases List.take_eq_nil_iff.mp hnil with h | h
        · omega
        · exact hne h
      have hread := @unsignedNumber_point _ (ds.drop (k + 1).toNat) [] 0
        (fun c hc => hds c (List.mem_of_mem_take hc))
        htake
        (fun c hc => hds c (List.mem_of_mem_drop hc)) trivial rfl
      rw [List.append_nil, List.take_append_drop] at hread
      refine hread.trans ?_
      rw [List.length_drop]
      congr 2
      omega

/-- The digits with an exponent say what the digits say. -/
theorem unsignedNumber_exponent {ds : List Char} (hds : AllDigits ds) (hne : ds ≠ []) (k : ℤ) :
    unsignedNumber (exponentText ds k) =
      some (placed ds (k + 1 - ds.length)) := by
  have hexp : exponent ('e' :: (if k < 0 then '-' else '+') :: padded 10 2 k.natAbs) = some k := by
    by_cases hk : k < 0
    · rw [if_pos hk, exponent, if_pos (.inl rfl), exponentDigits_padded]
      show some (-(k.natAbs : ℤ)) = some k
      congr 1
      omega
    · rw [if_neg hk, exponent, if_pos (.inl rfl), exponentDigits_padded]
      congr 1
      omega
  have hstop : Stops ('e' :: (if k < 0 then '-' else '+') :: padded 10 2 k.natAbs) :=
    ⟨rfl, by decide⟩
  obtain ⟨d, rest, rfl⟩ := List.exists_cons_of_ne_nil hne
  have hd : AllDigits [d] := fun c hc => hds c (by simp_all)
  have hrest : AllDigits rest := fun c hc => hds c (List.mem_cons_of_mem _ hc)
  unfold exponentText
  rw [List.take_succ_cons, List.take_zero, List.drop_succ_cons, List.drop_zero]
  by_cases hnil : rest = []
  · subst hnil
    rw [if_pos rfl, List.append_nil, unsignedNumber_whole hd (by simp) hstop (by simp) hexp]
    simp
  · rw [if_neg hnil, List.append_assoc]
    refine (unsignedNumber_point hd (by simp) hrest hstop hexp).trans ?_
    rw [List.singleton_append, List.length_cons]
    congr 2
    push_cast
    omega

theorem unsignedNumber_general {ds : List Char} (hds : AllDigits ds) (hne : ds ≠ []) (digits : ℕ)
    (k : ℤ) : unsignedNumber (generalText digits ds k) =
      some (placed ds (k + 1 - ds.length)) := by
  unfold generalText
  split
  · exact unsignedNumber_fixed hds hne k
  · exact unsignedNumber_exponent hds hne k

/-! ## Significant digits -/

/-- Rounding to significant digits: as many digits as asked for, and off by at most half of the
last one. -/
theorem scientific_spec {digits : ℕ} {q : ℚ} (hdigits : 0 < digits) (hq : 0 < q) :
    10 ^ (digits - 1) ≤ (scientific digits q).1 ∧ (scientific digits q).1 < 10 ^ digits ∧
      |q - (scientific digits q).1 * 10 ^ ((scientific digits q).2 + 1 - digits)| ≤
        10 ^ ((scientific digits q).2 + 1 - digits) / 2 := by
  have hlow := Int.zpow_log_le_self (b := 10) (by norm_num) hq
  have hhigh := Int.lt_zpow_succ_log_self (b := 10) (by norm_num) q
  unfold scientific
  dsimp only
  generalize Int.log 10 q = k at hlow hhigh ⊢
  rw [Nat.cast_ofNat] at hlow hhigh
  have hunit : (0 : ℚ) < 10 ^ (k + 1 - digits) := by positivity
  have hround := abs_sub_roundHalfEven (q / 10 ^ (k + 1 - digits))
  generalize hr : roundHalfEven (q / 10 ^ (k + 1 - digits)) = r at hround ⊢
  have hscale : ((10 ^ digits : ℕ) : ℚ) * 10 ^ (k + 1 - digits) = 10 ^ (k + 1) := by
    rw [Nat.cast_pow, Nat.cast_ofNat, ← zpow_natCast, ← zpow_add₀ (by norm_num)]
    congr 1
    omega
  have hscale' : ((10 ^ (digits - 1) : ℕ) : ℚ) * 10 ^ (k + 1 - digits) = 10 ^ k := by
    rw [Nat.cast_pow, Nat.cast_ofNat, ← zpow_natCast, ← zpow_add₀ (by norm_num)]
    congr 1
    omega
  have hle : ((10 ^ (digits - 1) : ℕ) : ℤ) ≤ r := by
    have hx : ((10 ^ (digits - 1) : ℕ) : ℚ) ≤ q / 10 ^ (k + 1 - digits) := by
      rw [le_div_iff₀ hunit, hscale']
      exact hlow
    have hlt : (((10 ^ (digits - 1) : ℕ) : ℤ) : ℚ) < r + 1 := by
      rw [Int.cast_natCast]
      linarith [(abs_le.mp hround).2]
    exact Int.lt_add_one_iff.mp (by exact_mod_cast hlt)
  have hge : r ≤ ((10 ^ digits : ℕ) : ℤ) := by
    have hx : q / 10 ^ (k + 1 - digits) < ((10 ^ digits : ℕ) : ℚ) := by
      rw [div_lt_iff₀ hunit, hscale]
      exact hhigh
    have hlt : (r : ℚ) < (((10 ^ digits : ℕ) : ℤ) : ℚ) + 1 := by
      rw [Int.cast_natCast]
      linarith [(abs_le.mp hround).1]
    exact Int.lt_add_one_iff.mp (by exact_mod_cast hlt)
  have hpos : (0 : ℤ) < ((10 ^ (digits - 1) : ℕ) : ℤ) := by positivity
  obtain ⟨m, rfl⟩ := Int.eq_ofNat_of_zero_le (hpos.le.trans hle)
  have hclose : |q - m * 10 ^ (k + 1 - digits)| ≤ 10 ^ (k + 1 - digits) / 2 := by
    have heq : q - m * 10 ^ (k + 1 - digits) =
        (q / 10 ^ (k + 1 - digits) - ((m : ℤ) : ℚ)) * 10 ^ (k + 1 - digits) := by
      rw [Int.cast_natCast]
      field_simp
    rw [heq, abs_mul, abs_of_pos hunit]
    calc |q / 10 ^ (k + 1 - digits) - ((m : ℤ) : ℚ)| * (10 : ℚ) ^ (k + 1 - digits)
        ≤ 1 / 2 * (10 : ℚ) ^ (k + 1 - digits) := mul_le_mul_of_nonneg_right hround hunit.le
      _ = 10 ^ (k + 1 - digits) / 2 := by ring
  rw [Int.toNat_natCast]
  split
  · -- the digits carried into one more
    rename_i hcarry
    refine ⟨le_rfl, Nat.pow_lt_pow_right (by norm_num) (by omega), ?_⟩
    have hnext : (10 : ℚ) ^ (k + 1 + 1 - digits : ℤ) = 10 * 10 ^ (k + 1 - digits : ℤ) := by
      rw [show k + 1 + 1 - (digits : ℤ) = (k + 1 - digits) + 1 by ring,
        zpow_add_one₀ (by norm_num)]
      ring
    have hvalue : ((10 ^ (digits - 1) : ℕ) : ℚ) * 10 ^ (k + 1 + 1 - digits : ℤ) =
        m * 10 ^ (k + 1 - digits) := by
      rw [hcarry, hscale, hnext, mul_left_comm, hscale', zpow_add_one₀ (by norm_num)]
      ring
    rw [hvalue, hnext]
    linarith
  · rename_i hcarry
    refine ⟨by exact_mod_cast hle, ?_, hclose⟩
    have hle' : m ≤ 10 ^ digits := by exact_mod_cast hge
    omega

/-- A number near enough to one of so many digits is rounded to it. -/
theorem scientific_eq {digits m : ℕ} {k : ℤ} {q : ℚ} (hlow : (10 : ℚ) ^ k ≤ q)
    (hm : m < 10 ^ digits) (hclose : |q / 10 ^ (k + 1 - digits) - m| < 1 / 2) :
    scientific digits q = (m, k) := by
  have hq : 0 < q := lt_of_lt_of_le (by positivity) hlow
  have hunit : (0 : ℚ) < 10 ^ (k + 1 - digits) := by positivity
  have hscale : ((10 ^ digits : ℕ) : ℚ) * 10 ^ (k + 1 - digits) = 10 ^ (k + 1) := by
    rw [Nat.cast_pow, Nat.cast_ofNat, ← zpow_natCast, ← zpow_add₀ (by norm_num)]
    congr 1
    omega
  have hhigh : q < 10 ^ (k + 1) := by
    have hle : (m : ℚ) + 1 ≤ ((10 ^ digits : ℕ) : ℚ) := by exact_mod_cast hm
    rw [← hscale, ← div_lt_iff₀ hunit]
    linarith [(abs_lt.mp hclose).2]
  have hlog : Int.log 10 q = k := by
    apply le_antisymm
    · have := (Int.lt_zpow_iff_log_lt (R := ℚ) (b := 10) (x := k + 1) (by norm_num) hq).mp
        (by exact_mod_cast hhigh)
      omega
    · exact (Int.zpow_le_iff_le_log (R := ℚ) (b := 10) (by norm_num) hq).mp
        (by exact_mod_cast hlow)
  have hround : roundHalfEven (q / 10 ^ (k + 1 - digits)) = (m : ℤ) :=
    roundHalfEven_eq (by rw [Int.cast_natCast]; exact hclose)
  unfold scientific
  dsimp only
  rw [hlog, hround, Int.toNat_natCast, if_neg hm.ne]

/-! ## Dropping trailing zeros -/

theorem dropZeros_append (ds : List Char) :
    ∃ n, ds = dropZeros ds ++ List.replicate n '0' := by
  have hsplit := List.takeWhile_append_dropWhile (p := (· = '0')) (l := ds.reverse)
  have htake : ds.reverse.takeWhile (· = '0') =
      List.replicate (ds.reverse.takeWhile (· = '0')).length '0' := by
    apply List.eq_replicate_of_mem
    intro c hc
    simpa using List.all_eq_true.mp List.all_takeWhile c hc
  refine ⟨(ds.reverse.takeWhile (· = '0')).length, ?_⟩
  rw [dropZeros, ← List.reverse_replicate, ← htake, ← List.reverse_append, hsplit,
    List.reverse_reverse]

theorem AllDigits.dropZeros {ds : List Char} (hds : AllDigits ds) : AllDigits (dropZeros ds) := by
  obtain ⟨n, heq⟩ := dropZeros_append ds
  intro c hc
  exact hds c (heq ▸ List.mem_append_left _ hc)

/-- Zeros dropped at the end leave what the digits say as it is. -/
theorem placed_dropZeros (ds : List Char) (k : ℤ) :
    placed (dropZeros ds) (k - (dropZeros ds).length) = placed ds (k - ds.length) := by
  obtain ⟨n, heq⟩ := dropZeros_append ds
  have hlength : ds.length = (dropZeros ds).length + n := by
    conv_lhs => rw [heq]
    simp
  have hvalue : digitsValue 10 0 ds = digitsValue 10 0 (dropZeros ds) * 10 ^ n := by
    conv_lhs => rw [heq]
    exact digitsValue_append_zeros ..
  rw [placed, placed, hvalue, hlength, Nat.cast_mul, Nat.cast_pow, Nat.cast_ofNat, mul_assoc,
    ← zpow_natCast, ← zpow_add₀ (by norm_num)]
  congr 2
  push_cast
  ring

theorem dropZeros_ne_nil {ds : List Char} (hds : digitsValue 10 0 ds ≠ 0) :
    dropZeros ds ≠ [] := by
  intro hnil
  obtain ⟨n, heq⟩ := dropZeros_append ds
  apply hds
  rw [heq, hnil, List.nil_append, digitsValue_zeros]

/-! ## The text as a whole -/

/-- A character a number is written with. -/
def Plain (c : Char) : Prop := isSpace c = false

theorem AllDigits.plain {ds : List Char} (hds : AllDigits ds) : ∀ c ∈ ds, Plain c :=
  fun c hc => (hds c hc).not_space (by decide)

theorem fixedText_plain {ds : List Char} (hds : AllDigits ds) (k : ℤ) :
    ∀ c ∈ fixedText ds k, Plain c := by
  have hpoint : Plain '.' := rfl
  have hzero : Plain '0' := rfl
  have hzeros := fun n => (allDigits_zeros n).plain
  unfold fixedText
  split
  · intro c hc
    simp only [List.mem_cons, List.mem_append] at hc
    rcases hc with rfl | rfl | hc | hc
    · exact hzero
    · exact hpoint
    · exact hzeros _ c hc
    · exact hds.plain c hc
  · split
    · intro c hc
      rcases List.mem_append.mp hc with hc | hc
      · exact hds.plain c hc
      · exact hzeros _ c hc
    · intro c hc
      rcases List.mem_append.mp hc with hc | hc
      · exact hds.plain c (List.mem_of_mem_take hc)
      · rcases List.mem_cons.mp hc with rfl | hc
        · exact hpoint
        · exact hds.plain c (List.mem_of_mem_drop hc)

theorem exponentText_plain {ds : List Char} (hds : AllDigits ds) (k : ℤ) :
    ∀ c ∈ exponentText ds k, Plain c := by
  have hpadded : AllDigits (padded 10 2 k.natAbs) := isNumeral_padded (by decide)
  have hexp := hpadded.plain
  intro c hc
  unfold exponentText at hc
  rcases List.mem_append.mp hc with hc | hc
  · rcases List.mem_append.mp hc with hc | hc
    · exact hds.plain c (List.mem_of_mem_take hc)
    · split at hc
      · cases hc
      · rcases List.mem_cons.mp hc with rfl | hc
        · rfl
        · exact hds.plain c (List.mem_of_mem_drop hc)
  · rcases List.mem_cons.mp hc with rfl | hc
    · rfl
    · rcases List.mem_cons.mp hc with rfl | hc
      · split <;> rfl
      · exact hexp c hc

theorem generalText_plain {ds : List Char} (hds : AllDigits ds) (digits : ℕ) (k : ℤ) :
    ∀ c ∈ generalText digits ds k, Plain c := by
  unfold generalText
  split
  · exact fixedText_plain hds k
  · exact exponentText_plain hds k

/-- A number is written with a digit first. -/
theorem generalText_first {ds : List Char} (hds : AllDigits ds) (hne : ds ≠ []) (digits : ℕ)
    (k : ℤ) : ∃ c cs, generalText digits ds k = c :: cs ∧ IsNumeral 10 c := by
  obtain ⟨d, rest, rfl⟩ := List.exists_cons_of_ne_nil hne
  have hd := hds d (List.mem_cons_self ..)
  unfold generalText
  split
  · unfold fixedText
    split
    · exact ⟨_, _, rfl, 0, by decide, rfl⟩
    · rename_i hk
      split
      · exact ⟨d, _, rfl, hd⟩
      · obtain ⟨n, hn⟩ : ∃ n, (k + 1).toNat = n + 1 := ⟨k.toNat, by omega⟩
        exact ⟨d, rest.take n ++ '.' :: (d :: rest).drop (k + 1).toNat, by rw [hn]; rfl, hd⟩
  · exact ⟨d, _, rfl, hd⟩

/-- A text that starts with a digit is no word for a special value. -/
theorem unsignedReal_digit {c : Char} (hc : IsNumeral 10 c) (cs : List Char) (negative : Bool) :
    unsignedReal negative (c :: cs) =
      (unsignedNumber (c :: cs)).map fun q => .finite (if negative then -q else q) := by
  have hlower : c.toLower ≠ 'i' ∧ c.toLower ≠ 'n' := by
    obtain ⟨d, hd, rfl⟩ := hc
    interval_cases d <;> decide
  have hword : ∀ {w : String}, String.ofList ((c :: cs).map Char.toLower) = w →
      w.toList.head? = some c.toLower := by
    rintro w rfl
    rw [String.toList_ofList]
    rfl
  unfold unsignedReal
  dsimp only
  rw [if_neg, if_neg]
  · intro hnan
    exact hlower.2 (Option.some.inj (hword hnan)).symm
  · rintro (hinf | hinf)
    · exact hlower.1 (Option.some.inj (hword hinf)).symm
    · exact hlower.1 (Option.some.inj (hword hinf)).symm

/-- A number with its sign is read as it is without it. -/
theorem parseReal_signed {text : List Char} {v : ℚ} (hplain : ∀ c ∈ text, Plain c)
    (hfirst : ∃ c cs, text = c :: cs ∧ IsNumeral 10 c) (hread : unsignedNumber text = some v)
    (q : ℚ) : parseReal (signText q ++ text) = some (.finite (if q < 0 then -v else v)) := by
  obtain ⟨c, cs, rfl, hc⟩ := hfirst
  have hminus : Plain '-' := rfl
  have hstrip : strip (signText q ++ c :: cs) = signText q ++ c :: cs := by
    have hall : ∀ x ∈ signText q ++ c :: cs, Plain x := by
      intro x hx
      rcases List.mem_append.mp hx with hx | hx
      · unfold signText at hx
        split at hx
        · exact (List.mem_singleton.mp hx) ▸ hminus
        · cases hx
      · exact hplain x hx
    exact strip_of_ends (fun x hx => hall x (List.mem_of_mem_head? hx))
      fun x hx => hall x (List.mem_of_getLast? hx)
  rw [parseReal, hstrip]
  by_cases hq : q < 0
  · rw [signText, if_pos hq, if_pos hq]
    show unsignedReal true (c :: cs) = _
    rw [unsignedReal_digit hc, hread]
    rfl
  · rw [signText, if_neg hq, if_neg hq, List.nil_append]
    have hsign := hc.ne (by decide)
    have hother : unsignedReal false (c :: cs) = some (.finite v) := by
      rw [unsignedReal_digit hc, hread]
      rfl
    split
    · exact absurd (List.cons.inj (by assumption : c :: cs = _)).1 hsign.2.1
    · exact absurd (List.cons.inj (by assumption : c :: cs = _)).1 hsign.2.2.1
    · exact hother

/-- A number with its sign is read as its digits say. -/
theorem parseReal_general {ds : List Char} (hds : AllDigits ds) (hne : ds ≠ []) (digits : ℕ)
    (k : ℤ) (q : ℚ) :
    parseReal (signText q ++ generalText digits ds k) =
      some (.finite (if q < 0 then -placed ds (k + 1 - ds.length)
        else placed ds (k + 1 - ds.length))) :=
  parseReal_signed (generalText_plain hds digits k) (generalText_first hds hne digits k)
    (unsignedNumber_general hds hne digits k) q

theorem length_toDigits {digits m : ℕ} (hdigits : 0 < digits) (hlow : 10 ^ (digits - 1) ≤ m)
    (hhigh : m < 10 ^ digits) : (Nat.toDigits 10 m).length = digits := by
  apply le_antisymm ((Nat.length_toDigits_le_iff (by decide) hdigits).mpr hhigh)
  by_contra hlt
  have hshort : (Nat.toDigits 10 m).length ≤ digits - 1 := by omega
  rcases Nat.eq_zero_or_pos (digits - 1) with hone | hmore
  · have hpos := @Nat.length_toDigits_pos 10 m
    omega
  · exact absurd ((Nat.length_toDigits_le_iff (by decide) hmore).mp hshort) (not_lt.mpr hlow)

/-- The number a number is rounded to by so many significant digits. -/
def significant (digits : ℕ) (q : ℚ) : ℚ :=
  let s := scientific digits |q|
  (if q < 0 then -1 else 1) * (s.1 * 10 ^ (s.2 + 1 - digits))

/-- What is written with so many significant digits is read back rounded to them. -/
theorem parseReal_formatG {digits : ℕ} {q : ℚ} (hdigits : 0 < digits) (hq : q ≠ 0) :
    parseReal (formatG digits q) = some (.finite (significant digits q)) := by
  obtain ⟨hlow, hhigh, -⟩ := scientific_spec hdigits (abs_pos.mpr hq)
  rw [formatG, if_neg hq, significant]
  dsimp only
  generalize scientific digits |q| = s at hlow hhigh ⊢
  have hds : AllDigits (Nat.toDigits 10 s.1) := isNumeral_toDigits (by decide)
  have hvalue := @digitsValue_toDigits 10 s.1 (by decide) (by decide)
  have hpos : digitsValue 10 0 (Nat.toDigits 10 s.1) ≠ 0 := by
    have hpower : 0 < 10 ^ (digits - 1) := by positivity
    omega
  rw [parseReal_general hds.dropZeros (dropZeros_ne_nil hpos), placed_dropZeros,
    length_toDigits hdigits hlow hhigh, placed, hvalue]
  congr 2
  split <;> ring

end Library
