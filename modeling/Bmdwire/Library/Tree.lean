import Mathlib.Data.List.Nodup

/-!
# Nested dictionaries

A dictionary whose values are contents or dictionaries again, as a list of entries with one
entry for each key. A path of keys leads to contents, or ends on the way.
-/

set_option autoImplicit false

namespace Library

variable {ι β : Type} [DecidableEq ι]

/-! ## Entries -/

/-- Assignment: a present key keeps its place, a new one goes to the end. -/
def assign (k : ι) (v : β) : List (ι × β) → List (ι × β)
  | [] => [(k, v)]
  | (j, w) :: rest => if j = k then (j, v) :: rest else (j, w) :: assign k v rest

/-- Every entry of the second dictionary assigned in the first. -/
def update (d e : List (ι × β)) : List (ι × β) := e.foldl (fun d x => assign x.1 x.2 d) d

theorem lookup_cons_ne {i j : ι} (h : j ≠ i) (w : β) (d : List (ι × β)) :
    ((i, w) :: d).lookup j = d.lookup j := by
  have hbeq : (j == i) = false := beq_eq_false_iff_ne.mpr h
  rw [List.lookup_cons, hbeq]

theorem lookup_of_not_mem {j : ι} {d : List (ι × β)} (h : j ∉ d.map Prod.fst) :
    d.lookup j = none := by
  induction d with
  | nil => rfl
  | cons x d ih =>
    obtain ⟨i, w⟩ := x
    rw [List.map_cons, List.mem_cons, not_or] at h
    rw [lookup_cons_ne h.1, ih h.2]

theorem lookup_assign (k j : ι) (v : β) (d : List (ι × β)) :
    (assign k v d).lookup j = if j = k then some v else d.lookup j := by
  induction d with
  | nil =>
    split
    next hj => rw [hj, assign, List.lookup_cons_self]
    next hj => rw [assign, lookup_cons_ne hj]
  | cons x d ih =>
    obtain ⟨i, w⟩ := x
    unfold assign
    by_cases hi : i = k
    · rw [if_pos hi, hi]
      split
      next hj => rw [hj, List.lookup_cons_self]
      next hj => rw [lookup_cons_ne hj, lookup_cons_ne hj]
    · rw [if_neg hi]
      by_cases hj : j = i
      · rw [hj, List.lookup_cons_self, List.lookup_cons_self, if_neg hi]
      · rw [lookup_cons_ne hj, lookup_cons_ne hj, ih]

theorem lookup_single (k j : ι) (v : β) : [(k, v)].lookup j = if j = k then some v else none :=
  lookup_assign k j v []

theorem mem_keys_assign (k j : ι) (v : β) (d : List (ι × β)) :
    j ∈ (assign k v d).map Prod.fst ↔ j = k ∨ j ∈ d.map Prod.fst := by
  induction d with
  | nil => simp [assign]
  | cons x d ih =>
    obtain ⟨i, w⟩ := x
    unfold assign
    split
    next hi => simp [hi]
    next hi =>
      simp only [List.map_cons, List.mem_cons, ih]
      tauto

theorem nodup_assign (k : ι) (v : β) {d : List (ι × β)} (hd : (d.map Prod.fst).Nodup) :
    ((assign k v d).map Prod.fst).Nodup := by
  induction d with
  | nil => simp [assign]
  | cons x d ih =>
    obtain ⟨i, w⟩ := x
    rw [List.map_cons, List.nodup_cons] at hd
    unfold assign
    split
    next hi =>
      rw [List.map_cons, List.nodup_cons]
      exact hd
    next hi =>
      rw [List.map_cons, List.nodup_cons, mem_keys_assign]
      exact ⟨fun h => h.elim hi hd.1, ih hd.2⟩

theorem nodup_update {d e : List (ι × β)} (hd : (d.map Prod.fst).Nodup) :
    ((update d e).map Prod.fst).Nodup := by
  induction e generalizing d with
  | nil => exact hd
  | cons x e ih => exact ih (nodup_assign x.1 x.2 hd)

/-- What the second dictionary lacks stays as it is in the first. -/
theorem lookup_update {d e : List (ι × β)} (he : (e.map Prod.fst).Nodup) (j : ι) :
    (update d e).lookup j = (e.lookup j).or (d.lookup j) := by
  induction e generalizing d with
  | nil => rfl
  | cons x e ih =>
    obtain ⟨i, w⟩ := x
    rw [List.map_cons, List.nodup_cons] at he
    have hstep : update d ((i, w) :: e) = update (assign i w d) e := rfl
    rw [hstep, ih he.2, lookup_assign]
    by_cases hj : j = i
    · rw [hj, lookup_of_not_mem he.1, List.lookup_cons_self, if_pos rfl, Option.none_or,
        Option.some_or]
    · rw [if_neg hj, lookup_cons_ne hj]

/-! ## Trees -/

/-- Contents, or a dictionary of trees. -/
inductive Tree (ι α : Type) : Type
  | leaf (contents : α)
  | dict (entries : List (ι × Tree ι α))

namespace Tree

variable {α : Type}

/-- The contents that a path leads to. -/
def lookup : Tree ι α → List ι → Option α
  | .leaf contents, [] => some contents
  | .dict entries, k :: path => (entries.lookup k).bind fun t => t.lookup path
  | _, _ => none

/-- The path leads to contents or to a dictionary. -/
def reaches : Tree ι α → List ι → Bool
  | _, [] => true
  | .leaf _, _ :: _ => false
  | .dict entries, k :: path => (entries.lookup k).any fun t => t.reaches path

/-- All contents are this deep, and no key has two entries. -/
inductive Uniform : ℕ → Tree ι α → Prop
  | leaf (contents : α) : Uniform 0 (.leaf contents)
  | dict {n : ℕ} {entries : List (ι × Tree ι α)} : (entries.map Prod.fst).Nodup →
      (∀ k t, entries.lookup k = some t → Uniform n t) → Uniform (n + 1) (.dict entries)

theorem Uniform.empty (n : ℕ) : Uniform (n + 1) (.dict [] : Tree ι α) :=
  .dict List.nodup_nil fun _ _ h => nomatch h

/-- Contents lie at the ends of the longest paths only. -/
theorem Uniform.lookup_eq_none {n : ℕ} {t : Tree ι α} (h : Uniform n t) {path : List ι}
    (hpath : path.length ≠ n) : t.lookup path = none := by
  induction h generalizing path with
  | leaf contents =>
    cases path with
    | nil => exact absurd rfl hpath
    | cons k path => rfl
  | @dict n entries _ _ ih =>
    cases path with
    | nil => rfl
    | cons k path =>
      rw [Tree.lookup]
      cases hk : entries.lookup k with
      | none => rfl
      | some t =>
        rw [Option.bind_some]
        refine ih k t hk fun hn => hpath ?_
        rw [List.length_cons, hn]

end Tree

end Library
