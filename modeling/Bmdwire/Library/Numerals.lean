import Mathlib.Data.Nat.Digits.Defs
import Mathlib.Tactic.IntervalCases
import Mathlib.Tactic.Ring

/-!
# Integers as text

Reading integers the way scripting languages do: white space around them and a sign before
them are allowed, single underscores between digits too, and a base-sixteen number may carry
its prefix. What the printer writes, the reader reads back (`parseInt_repr`, `parseInt_padded`);
so for octets in hexadecimal (`fromHex_toHex`).
-/

set_option autoImplicit false

namespace Library

/-- The white space that stripping removes. -/
def isSpace (c : Char) : Bool :=
  let n := c.toNat
  (9 ≤ n ∧ n ≤ 13) ∨ (28 ≤ n ∧ n ≤ 32) ∨ n = 0x85 ∨ n = 0xa0 ∨ n = 0x1680 ∨
    (0x2000 ≤ n ∧ n ≤ 0x200a) ∨ n = 0x2028 ∨ n = 0x2029 ∨ n = 0x202f ∨ n = 0x205f ∨ n = 0x3000

/-- The text without the white space around it. -/
def strip (cs : List Char) : List Char :=
  ((cs.dropWhile isSpace).reverse.dropWhile isSpace).reverse

/-- The value of a digit or letter as a digit; 36, a digit of no base, for anything else. -/
def digitVal (c : Char) : ℕ :=
  if c.isDigit then c.toNat - 48
  else if 'a' ≤ c ∧ c ≤ 'z' then c.toNat - 87
  else if 'A' ≤ c ∧ c ≤ 'Z' then c.toNat - 55
  else 36

/-- The value of a row of digits after the value `acc`. -/
def digitsValue (base : ℕ) (acc : ℕ) (cs : List Char) : ℕ :=
  cs.foldl (fun acc c => acc * base + digitVal c) acc

/-- Read digits with single underscores between them; `after` says whether the character
before was a digit. -/
def digitsFrom (base : ℕ) : ℕ → Bool → List Char → Option ℕ
  | acc, after, [] => if after then some acc else none
  | acc, after, c :: cs =>
    if c = '_' then
      if after then digitsFrom base acc false cs else none
    else if digitVal c < base then digitsFrom base (acc * base + digitVal c) true cs
    else none

/-- The number without its sign; base sixteen may have its prefix. -/
def magnitude (base : ℕ) (cs : List Char) : Option ℕ :=
  match cs with
  | '0' :: x :: c :: rest =>
    if base = 16 ∧ (x = 'x' ∨ x = 'X') then digitsFrom base 0 true (c :: rest)
    else digitsFrom base 0 false cs
  | _ => digitsFrom base 0 false cs

/-- Read an integer. -/
def parseInt (base : ℕ) (cs : List Char) : Option ℤ :=
  match strip cs with
  | '-' :: cs => (magnitude base cs).map fun n => -(n : ℤ)
  | '+' :: cs => (magnitude base cs).map fun n => (n : ℤ)
  | cs => (magnitude base cs).map fun n => (n : ℤ)

/-- The number in the base, with zeros before it up to the width. -/
def padded (base width n : ℕ) : List Char :=
  let ds := Nat.toDigits base n
  List.replicate (width - ds.length) '0' ++ ds

/-- Two hexadecimal digits for each octet. -/
def toHex (bs : List UInt8) : List Char :=
  bs.flatMap fun b => [(b.toNat / 16).digitChar, (b.toNat % 16).digitChar]

/-- The white space that may stand between octets. -/
def isBlank (c : Char) : Bool :=
  c = ' ' ∨ c = '\t' ∨ c = '\n' ∨ c = '\r' ∨ c.toNat = 0x0b ∨ c.toNat = 0x0c

/-- Read octets in hexadecimal, with white space between them allowed. -/
def fromHex : List Char → Option (List UInt8)
  | [] => some []
  | [c] => if isBlank c then some [] else none
  | c :: d :: cs =>
    if isBlank c then fromHex (d :: cs)
    else if digitVal c < 16 ∧ digitVal d < 16 then
      (fromHex cs).map (UInt8.ofNat (digitVal c * 16 + digitVal d) :: ·)
    else none

/-! ## Digits -/

theorem digitVal_digitChar {n : ℕ} (h : n < 16) : digitVal n.digitChar = n := by
  interval_cases n <;> rfl

theorem isBlank_digitChar {n : ℕ} (h : n < 16) : isBlank n.digitChar = false := by
  interval_cases n <;> rfl

theorem isSpace_digitChar {n : ℕ} (h : n < 16) : isSpace n.digitChar = false := by
  interval_cases n <;> rfl

/-- A character of a number in a base up to sixteen: no sign, no prefix, no white space. -/
def IsNumeral (base : ℕ) (c : Char) : Prop := ∃ d < base, c = d.digitChar

theorem isNumeral_toDigits {base n : ℕ} (hbase : 1 < base) :
    ∀ c ∈ Nat.toDigits base n, IsNumeral base c := by
  induction n using Nat.strong_induction_on with
  | _ n ih =>
    by_cases hlt : n < base
    · rw [Nat.toDigits_of_lt_base hlt]
      intro c hc
      exact ⟨n, hlt, List.mem_singleton.mp hc⟩
    · have hle := not_lt.mp hlt
      rw [Nat.toDigits_of_base_le hbase hle]
      intro c hc
      rcases List.mem_append.mp hc with hc | hc
      · exact ih (n / base) (Nat.div_lt_self (by omega) hbase) c hc
      · exact ⟨n % base, Nat.mod_lt _ (by omega), List.mem_singleton.mp hc⟩

variable {base : ℕ}

theorem IsNumeral.digitVal_lt (hbase : base ≤ 16) {c : Char} (h : IsNumeral base c) :
    digitVal c < base := by
  obtain ⟨d, hd, rfl⟩ := h
  rw [digitVal_digitChar (by omega)]
  exact hd

theorem IsNumeral.not_space (hbase : base ≤ 16) {c : Char} (h : IsNumeral base c) :
    isSpace c = false := by
  obtain ⟨d, hd, rfl⟩ := h
  exact isSpace_digitChar (by omega)

theorem IsNumeral.ne (hbase : base ≤ 16) {c : Char} (h : IsNumeral base c) :
    c ≠ '_' ∧ c ≠ '-' ∧ c ≠ '+' ∧ c ≠ 'x' ∧ c ≠ 'X' := by
  obtain ⟨d, hd, rfl⟩ := h
  have hd : d < 16 := by omega
  interval_cases d <;> decide

theorem digitsValue_append (acc : ℕ) (l m : List Char) :
    digitsValue base acc (l ++ m) = digitsValue base (digitsValue base acc l) m :=
  List.foldl_append

theorem digitsValue_toDigits {n : ℕ} (hbase : 1 < base) (hle : base ≤ 16) :
    digitsValue base 0 (Nat.toDigits base n) = n := by
  induction n using Nat.strong_induction_on with
  | _ n ih =>
    by_cases hlt : n < base
    · rw [Nat.toDigits_of_lt_base hlt]
      simp [digitsValue, digitVal_digitChar (hlt.trans_le hle)]
    · rw [Nat.toDigits_of_base_le hbase (not_lt.mp hlt), digitsValue_append,
        ih (n / base) (Nat.div_lt_self (by omega) hbase)]
      have hmod : n % base < base := Nat.mod_lt _ (by omega)
      show n / base * base + digitVal (n % base).digitChar = n
      rw [digitVal_digitChar (hmod.trans_le hle)]
      exact Nat.div_add_mod' n base

theorem digitsValue_zeros (k : ℕ) : digitsValue base 0 (List.replicate k '0') = 0 := by
  induction k with
  | zero => rfl
  | succ k ih =>
    rw [List.replicate_succ]
    show digitsValue base (0 * base + digitVal '0') (List.replicate k '0') = 0
    rw [Nat.zero_mul]
    exact ih

/-- Digits in a row are read as one number. -/
theorem digitsFrom_numerals (hle : base ≤ 16) {cs : List Char}
    (h : ∀ c ∈ cs, IsNumeral base c) (acc : ℕ) (after : Bool) (hcs : cs ≠ [] ∨ after = true) :
    digitsFrom base acc after cs = some (digitsValue base acc cs) := by
  induction cs generalizing acc after with
  | nil =>
    have hafter := hcs.resolve_left (by simp)
    simp [digitsFrom, digitsValue, hafter]
  | cons c cs ih =>
    have hc := h c (List.mem_cons_self ..)
    rw [digitsFrom, if_neg (hc.ne hle).1, if_pos (hc.digitVal_lt hle),
      ih (fun d hd => h d (List.mem_cons_of_mem _ hd)) _ true (.inr rfl)]
    rfl

theorem magnitude_numerals (hle : base ≤ 16) {cs : List Char} (h : ∀ c ∈ cs, IsNumeral base c)
    (hcs : cs ≠ []) : magnitude base cs = some (digitsValue base 0 cs) := by
  have hread := digitsFrom_numerals hle h 0 false (.inl hcs)
  unfold magnitude
  split
  · rename_i x c rest
    have hx := (h x (by simp)).ne hle
    rw [if_neg (by simp [hx]), hread]
  · exact hread

theorem strip_of_ends {cs : List Char} (hfirst : ∀ c ∈ cs.head?, isSpace c = false)
    (hlast : ∀ c ∈ cs.getLast?, isSpace c = false) : strip cs = cs := by
  have hkeep : ∀ l : List Char, (∀ c ∈ l.head?, isSpace c = false) → l.dropWhile isSpace = l := by
    intro l hl
    cases l with
    | nil => rfl
    | cons c l =>
      rw [List.dropWhile_cons_of_neg]
      rw [hl c rfl]
      simp
  rw [strip, hkeep cs hfirst, hkeep, List.reverse_reverse]
  rw [List.head?_reverse]
  exact hlast

theorem strip_numerals (hle : base ≤ 16) {cs : List Char} (h : ∀ c ∈ cs, IsNumeral base c) :
    strip cs = cs :=
  strip_of_ends (fun c hc => (h c (List.mem_of_mem_head? hc)).not_space hle)
    fun c hc => (h c (List.mem_of_getLast? hc)).not_space hle

theorem parseInt_numerals (hle : base ≤ 16) {cs : List Char} (h : ∀ c ∈ cs, IsNumeral base c)
    (hcs : cs ≠ []) : parseInt base cs = some (digitsValue base 0 cs : ℤ) := by
  rw [parseInt, strip_numerals hle h]
  have hread := magnitude_numerals hle h hcs
  split
  · exact absurd rfl ((h '-' (List.mem_cons_self ..)).ne hle).2.1
  · exact absurd rfl ((h '+' (List.mem_cons_self ..)).ne hle).2.2.1
  · rw [hread]
    rfl

/-- A natural number is read back. -/
theorem parseInt_repr (n : ℕ) : parseInt 10 n.repr.toList = some (n : ℤ) := by
  rw [Nat.toList_repr, parseInt_numerals (by decide) (isNumeral_toDigits (by decide))
    Nat.toDigits_ne_nil, digitsValue_toDigits (by decide) (by decide)]

theorem isNumeral_padded {width n : ℕ} (hbase : 1 < base) :
    ∀ c ∈ padded base width n, IsNumeral base c := by
  intro c hc
  rcases List.mem_append.mp hc with hc | hc
  · exact ⟨0, by omega, List.eq_of_mem_replicate hc⟩
  · exact isNumeral_toDigits hbase c hc

theorem padded_ne_nil (width n : ℕ) : padded base width n ≠ [] := fun hnil =>
  Nat.toDigits_ne_nil (List.append_eq_nil_iff.mp hnil).2

theorem digitsValue_padded {width n : ℕ} (hbase : 1 < base) (hle : base ≤ 16) :
    digitsValue base 0 (padded base width n) = n := by
  rw [padded, digitsValue_append, digitsValue_zeros, digitsValue_toDigits hbase hle]

/-- A natural number with zeros before it is read back. -/
theorem parseInt_padded {width n : ℕ} (hbase : 1 < base) (hle : base ≤ 16) :
    parseInt base (padded base width n) = some (n : ℤ) := by
  rw [parseInt_numerals hle (isNumeral_padded hbase) (padded_ne_nil _ _),
    digitsValue_padded hbase hle]

/-- Octets in hexadecimal are read back. -/
theorem fromHex_toHex (bs : List UInt8) : fromHex (toHex bs) = some bs := by
  induction bs with
  | nil => rfl
  | cons b bs ih =>
    have hb := b.toNat_lt
    have hhigh : b.toNat / 16 < 16 := by omega
    have hlow : b.toNat % 16 < 16 := by omega
    show fromHex ((b.toNat / 16).digitChar :: (b.toNat % 16).digitChar :: toHex bs) = _
    rw [fromHex, isBlank_digitChar hhigh, digitVal_digitChar hhigh, digitVal_digitChar hlow,
      if_neg (by simp), if_pos ⟨hhigh, hlow⟩, ih, Nat.div_add_mod']
    simp

end Library
