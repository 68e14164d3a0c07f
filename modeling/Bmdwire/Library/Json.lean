import Mathlib.Data.Rat.Defs

/-!
# JSON values

The values of JSON as a scripting language reads them: an object is a dictionary, a number or a
truth value equals the number it stands for, and what is empty or zero counts as false.
-/

set_option autoImplicit false

namespace Library

inductive Json
  | null
  | bool (b : Bool)
  | num (q : ℚ)
  | str (s : String)
  | arr (items : List Json)
  | obj (fields : List (String × Json))

namespace Json

/-- The value of a key; of keys given twice, the last counts. -/
def lookup (key : String) : List (String × Json) → Option Json
  | [] => none
  | (k, value) :: fields =>
    match lookup key fields with
    | some later => some later
    | none => if k = key then some value else none

/-- What counts as true. -/
def truthy : Json → Bool
  | null => false
  | bool b => b
  | num q => q ≠ 0
  | str s => s ≠ ""
  | arr items => !items.isEmpty
  | obj fields => !fields.isEmpty

/-- The number that a truth value stands for. -/
def ofBool (b : Bool) : ℚ := if b then 1 else 0

mutual

/-- Equality of values. -/
def same : Json → Json → Bool
  | null, null => true
  | bool a, bool b => a = b
  | bool a, num q => ofBool a = q
  | num q, bool b => q = ofBool b
  | num p, num q => p = q
  | str s, str t => s = t
  | arr xs, arr ys => sameAll xs ys
  | obj fields, obj others => sameFields fields others && others.all fun f =>
      fields.any fun g => g.1 = f.1
  | _, _ => false

/-- Equality of lists of values. -/
def sameAll : List Json → List Json → Bool
  | [], [] => true
  | x :: xs, y :: ys => same x y && sameAll xs ys
  | _, _ => false

/-- Every field has an equal one. -/
def sameFields : List (String × Json) → List (String × Json) → Bool
  | [], _ => true
  | (key, value) :: fields, others =>
    (match lookup key others with
      | some other => same value other
      | none => false) && sameFields fields others

end

/-- A text equals nothing but itself. -/
theorem same_str {value : Json} {s : String} (h : same value (str s) = true) : value = str s := by
  cases value with
  | str t => exact congrArg str (by simpa [same] using h)
  | null | bool _ | num _ | arr _ | obj _ => simp [same] at h

/-- So does a list of texts. -/
theorem sameAll_str {values : List Json} {texts : List String}
    (h : sameAll values (texts.map str) = true) : values = texts.map str := by
  induction texts generalizing values with
  | nil =>
    cases values with
    | nil => rfl
    | cons v values => simp [sameAll] at h
  | cons t texts ih =>
    cases values with
    | nil => simp [sameAll] at h
    | cons v values =>
      simp only [List.map_cons, sameAll, Bool.and_eq_true] at h
      rw [List.map_cons, same_str h.1, ih h.2]

end Json

end Library
