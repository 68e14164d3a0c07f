import Mathlib.Data.List.Basic
import Mathlib.Data.List.Induction
import Mathlib.Data.List.Nodup
import Mathlib.Logic.Function.Basic

/-!
# Insertion-ordered dictionaries

A finite map that remembers the order in which its keys were first inserted, as the
built-in dictionary of several languages does: assigning to a present key keeps its
place, deleting a key and assigning it again moves it to the end. The key list has no
repetition and lists exactly the keys with a value, which the structure carries as
fields, so every operation below returns a dictionary again.
-/

set_option autoImplicit false

namespace Library

/-- A finite map with its keys in insertion order. -/
structure Dict (κ ν : Type) where
  keys : List κ
  get? : κ → Option ν
  nodup : keys.Nodup
  mem_keys : ∀ k, k ∈ keys ↔ (get? k).isSome

namespace Dict

variable {κ ν : Type} [DecidableEq κ]

/-- The empty dictionary. -/
def empty : Dict κ ν where
  keys := []
  get? := fun _ => none
  nodup := List.nodup_nil
  mem_keys := by simp

/-- The value of a key, or a default. -/
def getD (d : Dict κ ν) (k : κ) (v : ν) : ν :=
  (d.get? k).getD v

/-- Assignment: a present key keeps its place, a new one goes to the end. -/
def set (d : Dict κ ν) (k : κ) (v : ν) : Dict κ ν where
  keys := if k ∈ d.keys then d.keys else d.keys ++ [k]
  get? := fun j => if j = k then some v else d.get? j
  nodup := by
    split
    · exact d.nodup
    · rename_i h
      exact List.Nodup.append d.nodup (List.nodup_singleton k) (by simpa using h)
  mem_keys := by
    intro j
    by_cases hj : j = k
    · subst hj
      split <;> simp_all
    · split
      · simpa [hj] using d.mem_keys j
      · simpa [hj] using d.mem_keys j

/-- Deletion; deleting an absent key changes nothing. -/
def erase (d : Dict κ ν) (k : κ) : Dict κ ν where
  keys := d.keys.filter (· ≠ k)
  get? := fun j => if j = k then none else d.get? j
  nodup := d.nodup.filter _
  mem_keys := by
    intro j
    by_cases hj : j = k
    · simp [hj]
    · simpa [hj] using d.mem_keys j

/-- Assignments one after the other. -/
def setAll (d : Dict κ ν) (entries : List (κ × ν)) : Dict κ ν :=
  entries.foldl (fun d e => d.set e.1 e.2) d

/-- How many values meet a test. -/
def count (p : ν → Bool) (d : Dict κ ν) : ℕ :=
  d.keys.countP fun k => (d.get? k).any p

/-- Replace every value, keys and order unchanged. -/
def mapValues {ν' : Type} (f : ν → ν') (d : Dict κ ν) : Dict κ ν' where
  keys := d.keys
  get? := fun k => (d.get? k).map f
  nodup := d.nodup
  mem_keys := by
    intro j
    simpa using d.mem_keys j

omit [DecidableEq κ] in
@[simp] theorem keys_empty : (empty : Dict κ ν).keys = [] := rfl

omit [DecidableEq κ] in
@[simp] theorem get?_empty (k : κ) : (empty : Dict κ ν).get? k = none := rfl

theorem get?_set (d : Dict κ ν) (k j : κ) (v : ν) :
    (d.set k v).get? j = if j = k then some v else d.get? j := rfl

@[simp] theorem get?_set_self (d : Dict κ ν) (k : κ) (v : ν) :
    (d.set k v).get? k = some v := by
  simp [get?_set]

theorem get?_set_ne (d : Dict κ ν) {k j : κ} (v : ν) (h : j ≠ k) :
    (d.set k v).get? j = d.get? j := by
  simp [get?_set, h]

theorem get?_erase (d : Dict κ ν) (k j : κ) :
    (d.erase k).get? j = if j = k then none else d.get? j := rfl

@[simp] theorem get?_erase_self (d : Dict κ ν) (k : κ) : (d.erase k).get? k = none := by
  simp [get?_erase]

theorem get?_erase_ne (d : Dict κ ν) {k j : κ} (h : j ≠ k) :
    (d.erase k).get? j = d.get? j := by
  simp [get?_erase, h]

omit [DecidableEq κ] in
@[simp] theorem get?_mapValues {ν' : Type} (f : ν → ν') (d : Dict κ ν) (k : κ) :
    (d.mapValues f).get? k = (d.get? k).map f := rfl

omit [DecidableEq κ] in
/-- A key with a value is listed. -/
theorem mem_keys_of_get? (d : Dict κ ν) {k : κ} {v : ν} (h : d.get? k = some v) :
    k ∈ d.keys := by
  rw [d.mem_keys, h]
  rfl

omit [DecidableEq κ] in
/-- A listed key has a value. -/
theorem exists_get?_of_mem_keys (d : Dict κ ν) {k : κ} (h : k ∈ d.keys) :
    ∃ v, d.get? k = some v :=
  Option.isSome_iff_exists.mp ((d.mem_keys k).mp h)

/-- The key deleted is the only one that goes. -/
theorem keys_erase (d : Dict κ ν) (k : κ) : (d.erase k).keys = d.keys.erase k := by
  rw [d.nodup.erase_eq_filter]
  apply List.filter_congr
  intro j _
  by_cases hj : j = k
  · simp [hj]
  · simp [hj]

omit [DecidableEq κ] in
@[simp] theorem count_empty (p : ν → Bool) : (empty : Dict κ ν).count p = 0 := rfl

/-- A new key adds its value. -/
theorem count_set_new (d : Dict κ ν) {k : κ} (v : ν) (p : ν → Bool) (hk : d.get? k = none) :
    (d.set k v).count p = d.count p + if p v then 1 else 0 := by
  have hkeys : k ∉ d.keys := by
    rw [d.mem_keys, hk]
    simp
  have hold : d.keys.countP (fun j => ((d.set k v).get? j).any p) = d.count p := by
    apply List.countP_congr
    intro j hj
    rw [get?_set_ne d v (ne_of_mem_of_not_mem hj hkeys)]
  have hset : (d.set k v).keys = d.keys ++ [k] := if_neg hkeys
  unfold count at *
  rw [hset, List.countP_append, hold, List.countP_singleton, get?_set_self, Option.any_some]

/-- A new value that fares as the old one did changes nothing. -/
theorem count_set_same (d : Dict κ ν) {k : κ} {v v' : ν} {p : ν → Bool} (hk : d.get? k = some v)
    (hv : p v' = p v) : (d.set k v').count p = d.count p := by
  have hset : (d.set k v').keys = d.keys := if_pos (d.mem_keys_of_get? hk)
  unfold count
  rw [hset]
  apply List.countP_congr
  intro j _
  rw [get?_set]
  split
  · rename_i hj
    rw [hj, hk, Option.any_some, Option.any_some, hv]
  · rfl

/-- Deletion takes the value off. -/
theorem count_erase (d : Dict κ ν) {k : κ} {v : ν} {p : ν → Bool} (hk : d.get? k = some v) :
    (d.erase k).count p + (if p v then 1 else 0) = d.count p := by
  have hold : (d.keys.erase k).countP (fun j => ((d.erase k).get? j).any p) =
      (d.keys.erase k).countP (fun j => (d.get? j).any p) := by
    apply List.countP_congr
    intro j hj
    rw [get?_erase_ne d (d.nodup.mem_erase_iff.mp hj).1]
  have hmem := d.mem_keys_of_get? hk
  unfold count
  rw [keys_erase, hold, (List.perm_cons_erase hmem).countP_eq, List.countP_cons, hk, Option.any_some]

/-- After assignments a key has the value they give it, or the one it had. -/
theorem get?_setAll (d : Dict κ ν) (entries : List (κ × ν)) (k : κ) :
    (d.setAll entries).get? k = ((empty.setAll entries).get? k).or (d.get? k) := by
  induction entries using List.reverseRecOn with
  | nil => rfl
  | append_singleton entries e ih =>
    have hlast : ∀ d : Dict κ ν, d.setAll (entries ++ [e]) = (d.setAll entries).set e.1 e.2 :=
      fun d => List.foldl_concat ..
    rw [hlast, hlast, get?_set, get?_set]
    split
    · rfl
    · exact ih

theorem setAll_append (d : Dict κ ν) (l m : List (κ × ν)) :
    d.setAll (l ++ m) = (d.setAll l).setAll m :=
  List.foldl_append

omit [DecidableEq κ] in
/-- A dictionary is empty when no key has a value. -/
theorem keys_eq_nil_iff (d : Dict κ ν) : d.keys = [] ↔ ∀ k, d.get? k = none := by
  constructor
  · intro hnil k
    rw [← Option.not_isSome_iff_eq_none, ← d.mem_keys k, hnil]
    exact List.not_mem_nil
  · intro hnone
    rw [List.eq_nil_iff_forall_not_mem]
    intro k hk
    rw [d.mem_keys, hnone k] at hk
    exact Bool.false_ne_true hk

end Dict

end Library
