import Bmdwire.Program.MixerState

/-!
# The merge into the mixer state

All fields of a key have as many indices, so what is stored under the key is equally deep all
over (`Tree.Uniform`). Merging two such trees takes the contents of each path from the second,
or from the first where the second has none; with one path in the second, every other path
stays. A run of fields then leaves the last contents received under each path.
-/

set_option autoImplicit false

namespace Bmdwire

open Library (Dict Tree assign update)
open Library.Tree (Uniform)

variable {κ ι α : Type} [DecidableEq κ] [DecidableEq ι]

/-! ## One dictionary -/

/-- The entry that the items of `d1` leave in `d2`, when `d1` and `d2` have these for a key. -/
def mergeEntry : Option (Tree ι α) → Option (Tree ι α) → Option (Tree ι α)
  | some v, some w => recursiveMerge v w
  | none, some w => some w
  | _, none => none

/-- Each entry that both dictionaries have is merged, once. -/
theorem mergeItems_entries {d1 d2 : List (ι × Tree ι α)} (h1 : (d1.map Prod.fst).Nodup)
    (h2 : (d2.map Prod.fst).Nodup)
    (hmerge : ∀ k v w, d1.lookup k = some v → d2.lookup k = some w →
      (recursiveMerge v w).isSome = true) :
    ∃ d, mergeItems d1 d2 = some d ∧ (d.map Prod.fst).Nodup ∧
      ∀ k, d.lookup k = mergeEntry (d1.lookup k) (d2.lookup k) := by
  induction d1 generalizing d2 with
  | nil =>
    refine ⟨d2, rfl, h2, fun k => ?_⟩
    cases d2.lookup k <;> rfl
  | cons x d1 ih =>
    obtain ⟨i, v⟩ := x
    rw [List.map_cons, List.nodup_cons] at h1
    have hi := Library.lookup_of_not_mem h1.1
    cases hw : d2.lookup i with
    | none =>
      have hrest : mergeItems ((i, v) :: d1) d2 = mergeItems d1 d2 := by
        rw [mergeItems, hw]
      obtain ⟨d, hd, hnodup, hentries⟩ := ih h1.2 h2 (by
        intro k v' w' hk hk'
        have hne : k ≠ i := by
          rintro rfl
          rw [hi] at hk
          cases hk
        exact hmerge k v' w' (by rw [Library.lookup_cons_ne hne, hk]) hk')
      refine ⟨d, hrest.trans hd, hnodup, fun k => ?_⟩
      rw [hentries]
      by_cases hk : k = i
      · rw [hk, hw, hi, List.lookup_cons_self]
        rfl
      · rw [Library.lookup_cons_ne hk]
    | some w =>
      obtain ⟨merged, hmerged⟩ :=
        Option.isSome_iff_exists.mp (hmerge i v w List.lookup_cons_self hw)
      have hrest : mergeItems ((i, v) :: d1) d2 = mergeItems d1 (assign i merged d2) := by
        rw [mergeItems, hw]
        simp only [hmerged, Option.bind_some]
      obtain ⟨d, hd, hnodup, hentries⟩ := ih h1.2 (Library.nodup_assign i merged h2) (by
        intro k v' w' hk hk'
        have hne : k ≠ i := by
          rintro rfl
          rw [hi] at hk
          cases hk
        rw [Library.lookup_assign, if_neg hne] at hk'
        exact hmerge k v' w' (by rw [Library.lookup_cons_ne hne, hk]) hk')
      refine ⟨d, hrest.trans hd, hnodup, fun k => ?_⟩
      rw [hentries, Library.lookup_assign]
      by_cases hk : k = i
      · rw [if_pos hk, hk, hi, hw, List.lookup_cons_self, mergeEntry, mergeEntry, hmerged]
      · rw [if_neg hk, Library.lookup_cons_ne hk]

/-! ## Trees -/

/-- What merging two trees comes to: it succeeds, and it reads as the second tree over the
first. -/
structure MergesTo (n : ℕ) (d1 d2 result : Tree ι α) : Prop where
  merges : recursiveMerge d1 d2 = some result
  uniform : Uniform n result
  lookup : ∀ path, result.lookup path = (d2.lookup path).or (d1.lookup path)
  reaches : ∀ path, result.reaches path = (d2.reaches path || d1.reaches path)

theorem MergesTo.leaf (c1 c2 : α) : MergesTo 0 (.leaf c1 : Tree ι α) (.leaf c2) (.leaf c2) where
  merges := by rw [recursiveMerge]
  uniform := .leaf c2
  lookup := by
    intro path
    cases path <;> rfl
  reaches := by
    intro path
    cases path <;> rfl

/-- The entry of a key in the result: the one that a dictionary has alone, or a merged one. -/
inductive EntryFrom (n : ℕ) : Option (Tree ι α) → Option (Tree ι α) → Option (Tree ι α) → Prop
  | first (x : Option (Tree ι α)) : EntryFrom n x none x
  | second (y : Option (Tree ι α)) : EntryFrom n none y y
  | both {v w result : Tree ι α} : MergesTo n v w result →
      EntryFrom n (some v) (some w) (some result)

theorem MergesTo.dict {n : ℕ} {d1 d2 result : List (ι × Tree ι α)}
    (h1 : ∀ k t, d1.lookup k = some t → Uniform n t)
    (h2 : ∀ k t, d2.lookup k = some t → Uniform n t)
    (hmerges : recursiveMerge (.dict d1) (.dict d2) = some (.dict result))
    (hnodup : (result.map Prod.fst).Nodup)
    (hentries : ∀ k, EntryFrom n (d1.lookup k) (d2.lookup k) (result.lookup k)) :
    MergesTo (n + 1) (.dict d1) (.dict d2) (.dict result) where
  merges := hmerges
  uniform := by
    refine .dict hnodup fun k t ht => ?_
    have hk := hentries k
    have hk1 := h1 k
    have hk2 := h2 k
    rw [ht] at hk
    generalize d1.lookup k = x at hk hk1
    generalize d2.lookup k = y at hk hk2
    cases hk with
    | first => exact hk1 t rfl
    | second => exact hk2 t rfl
    | both hmerge => exact hmerge.uniform
  lookup := by
    intro path
    cases path with
    | nil => rfl
    | cons k path =>
      rw [Tree.lookup, Tree.lookup, Tree.lookup]
      have hk := hentries k
      generalize d1.lookup k = x at hk ⊢
      generalize d2.lookup k = y at hk ⊢
      generalize result.lookup k = z at hk ⊢
      cases hk with
      | first => rw [Option.bind_none, Option.none_or]
      | second => rw [Option.bind_none, Option.or_none]
      | both hmerge => exact hmerge.lookup path
  reaches := by
    intro path
    cases path with
    | nil => rfl
    | cons k path =>
      rw [Tree.reaches, Tree.reaches, Tree.reaches]
      have hk := hentries k
      generalize d1.lookup k = x at hk ⊢
      generalize d2.lookup k = y at hk ⊢
      generalize result.lookup k = z at hk ⊢
      cases hk with
      | first => rw [Option.any_none, Bool.false_or]
      | second => rw [Option.any_none, Bool.or_false]
      | both hmerge => exact hmerge.reaches path

theorem recursiveMerge_uniform {n : ℕ} {d1 d2 : Tree ι α} (h1 : Uniform n d1)
    (h2 : Uniform n d2) : ∃ result, MergesTo n d1 d2 result := by
  induction n generalizing d1 d2 with
  | zero =>
    cases h1 with
    | leaf c1 =>
      cases h2 with
      | leaf c2 => exact ⟨_, .leaf c1 c2⟩
  | succ n ih =>
    cases h1 with
    | @dict _ d1 hnodup1 hd1 =>
      cases h2 with
      | @dict _ d2 hnodup2 hd2 =>
        obtain ⟨d, hd, hnodup, hentries⟩ := mergeItems_entries hnodup1 hnodup2 (by
          intro k v w hv hw
          obtain ⟨result, hresult⟩ := ih (hd1 k v hv) (hd2 k w hw)
          rw [hresult.merges, Option.isSome_some])
        have hmerges : recursiveMerge (.dict d1) (.dict d2) = some (.dict (update d1 d)) := by
          rw [recursiveMerge, hd, Option.map_some]
        refine ⟨_, .dict hd1 hd2 hmerges (Library.nodup_update hnodup1) fun k => ?_⟩
        rw [Library.lookup_update hnodup, hentries]
        cases hv : d1.lookup k with
        | none =>
          rw [Option.or_none]
          cases d2.lookup k with
          | none => exact .first none
          | some w => exact .second (some w)
        | some v =>
          cases hw : d2.lookup k with
          | none => exact .first (some v)
          | some w =>
            obtain ⟨result, hresult⟩ := ih (hd1 k v hv) (hd2 k w hw)
            rw [mergeEntry, hresult.merges, Option.some_or]
            exact .both hresult

/-! ## One field -/

theorem uniform_single {n : ℕ} {t : Tree ι α} (h : Uniform n t) (index : ι) :
    Uniform (n + 1) (.dict [(index, t)]) := by
  refine .dict (List.nodup_singleton index) fun k t' ht => ?_
  rw [Library.lookup_single] at ht
  split at ht
  next =>
    obtain rfl : t = t' := Option.some.inj ht
    exact h
  next => cases ht

theorem makeUniqueDict_uniform (contents : α) (index : ι) (rest : List ι) :
    Uniform (rest.length + 1) (makeUniqueDict contents index rest) := by
  induction rest generalizing index with
  | nil => exact uniform_single (.leaf contents) index
  | cons next rest ih => exact uniform_single (ih next) index

theorem lookup_makeUniqueDict (contents : α) (index : ι) (rest path : List ι) :
    (makeUniqueDict contents index rest).lookup path =
      if path = index :: rest then some contents else none := by
  induction rest generalizing index path with
  | nil =>
    cases path with
    | nil => simp [makeUniqueDict, Tree.lookup]
    | cons k path =>
      rw [makeUniqueDict, Tree.lookup, Library.lookup_single]
      by_cases hk : k = index
      · rw [if_pos hk, Option.bind_some, hk]
        cases path <;> simp [Tree.lookup]
      · simp [hk]
  | cons next rest ih =>
    cases path with
    | nil => simp [makeUniqueDict, Tree.lookup]
    | cons k path =>
      rw [makeUniqueDict, Tree.lookup, Library.lookup_single]
      by_cases hk : k = index
      · rw [if_pos hk, Option.bind_some, ih, hk]
        simp
      · simp [hk]

theorem reaches_makeUniqueDict (contents : α) (index : ι) (rest path : List ι) :
    (makeUniqueDict contents index rest).reaches path = true ↔ path <+: index :: rest := by
  induction rest generalizing index path with
  | nil =>
    cases path with
    | nil => simp [Tree.reaches]
    | cons k path =>
      rw [makeUniqueDict, Tree.reaches, Library.lookup_single, List.cons_prefix_cons]
      by_cases hk : k = index
      · rw [if_pos hk, Option.any_some]
        cases path <;> simp [Tree.reaches, hk]
      · simp [hk]
  | cons next rest ih =>
    cases path with
    | nil => simp [Tree.reaches]
    | cons k path =>
      rw [makeUniqueDict, Tree.reaches, Library.lookup_single, List.cons_prefix_cons]
      by_cases hk : k = index
      · rw [if_pos hk, Option.any_some, ih]
        simp [hk]
      · simp [hk]

/-! ## The state -/

namespace MixerState

/-- The contents stored under a key at a path. -/
def lookup (s : MixerState κ ι α) (key : κ) (path : List ι) : Option α :=
  (s.get? key).bind fun t => t.lookup path

/-- The state has contents or a dictionary under a key at a path. -/
def reaches (s : MixerState κ ι α) (key : κ) (path : List ι) : Bool :=
  (s.get? key).any fun t => t.reaches path

/-- What is stored under a key is as deep as its fields have indices. -/
def Deep (indices : κ → ℕ) (s : MixerState κ ι α) : Prop :=
  ∀ key t, s.get? key = some t → Uniform (indices key) t

/-- The tree that a field leaves under its key. -/
structure StoredTree (indices : κ → ℕ) (s : MixerState κ ι α) (f : ParsedField κ ι α)
    (t : Tree ι α) : Prop where
  get? : ∀ key, (s.storeField f).get? key = if key = f.key then some t else s.get? key
  uniform : Uniform (indices f.key) t
  lookup : ∀ path,
    t.lookup path = if path = f.path then some f.contents else s.lookup f.key path
  reaches : ∀ path, t.reaches path = true ↔ path <+: f.path ∨ s.reaches f.key path = true

theorem storedTree_plain {indices : κ → ℕ} {s : MixerState κ ι α} (hs : s.Deep indices)
    {f : ParsedField κ ι α} (hf : f.path.length = indices f.key) (hpath : f.path = []) :
    StoredTree indices s f (.leaf f.contents) where
  get? := by
    intro key
    unfold storeField
    rw [hpath]
    exact Dict.get?_set s f.key key _
  uniform := by
    rw [← hf, hpath]
    exact .leaf f.contents
  lookup := by
    intro path
    cases path with
    | nil => rw [hpath, if_pos rfl, Tree.lookup]
    | cons k path =>
      rw [hpath, if_neg (List.cons_ne_nil k path)]
      cases ht : s.get? f.key with
      | none =>
        rw [MixerState.lookup, ht, Option.bind_none]
        rfl
      | some t =>
        have huniform := hs f.key t ht
        rw [← hf, hpath] at huniform
        rw [MixerState.lookup, ht, Option.bind_some, huniform.lookup_eq_none (by simp)]
        rfl
  reaches := by
    intro path
    cases path with
    | nil => simp [Tree.reaches]
    | cons k path =>
      have hold : s.reaches f.key (k :: path) = false := by
        cases ht : s.get? f.key with
        | none => rw [MixerState.reaches, ht, Option.any_none]
        | some t =>
          have huniform := hs f.key t ht
          rw [← hf, hpath] at huniform
          rw [MixerState.reaches, ht, Option.any_some]
          cases huniform
          rfl
      simp [Tree.reaches, hold, hpath]

theorem storedTree_indexed {indices : κ → ℕ} {s : MixerState κ ι α} (hs : s.Deep indices)
    {f : ParsedField κ ι α} (hf : f.path.length = indices f.key) {index : ι} {rest : List ι}
    (hpath : f.path = index :: rest) : ∃ t, StoredTree indices s f t := by
  have hnew := makeUniqueDict_uniform f.contents index rest
  have hlength : rest.length + 1 = indices f.key := by
    rw [← hf, hpath, List.length_cons]
  rw [hlength] at hnew
  -- what is under the key by the time of the merge
  have hold : Uniform (indices f.key) (s.getD f.key (.dict [])) := by
    unfold Dict.getD
    cases ht : s.get? f.key with
    | none =>
      rw [Option.getD_none, ← hlength]
      exact .empty rest.length
    | some t =>
      rw [Option.getD_some]
      exact hs f.key t ht
  have hempty : ∀ path, (s.getD f.key (.dict [])).lookup path = s.lookup f.key path := by
    intro path
    unfold Dict.getD MixerState.lookup
    cases s.get? f.key with
    | none => cases path <;> rfl
    | some t => rfl
  have hreach : ∀ path, (s.getD f.key (.dict [])).reaches path = true ↔
      path = [] ∨ s.reaches f.key path = true := by
    intro path
    unfold Dict.getD MixerState.reaches
    cases s.get? f.key with
    | none => cases path <;> simp [Tree.reaches]
    | some t => cases path <;> simp [Tree.reaches]
  obtain ⟨result, hresult⟩ := recursiveMerge_uniform hold hnew
  refine ⟨result, ?_, hresult.uniform, ?_, ?_⟩
  · intro key
    unfold storeField
    rw [hpath]
    simp only
    cases ht : s.get? f.key with
    | none =>
      rw [Option.isNone_none, if_pos rfl]
      have hD : (s.set f.key (.dict [])).getD f.key (.dict []) = s.getD f.key (.dict []) := by
        rw [Dict.getD, Dict.get?_set_self, Dict.getD, ht, Option.getD_some, Option.getD_none]
      rw [hD, hresult.merges]
      simp only [Dict.get?_set]
      split <;> rfl
    | some t =>
      rw [Option.isNone_some, if_neg Bool.false_ne_true, hresult.merges]
      exact Dict.get?_set s f.key key result
  · intro path
    rw [hresult.lookup, lookup_makeUniqueDict, hempty, hpath]
    split <;> rfl
  · intro path
    rw [hresult.reaches, Bool.or_eq_true, reaches_makeUniqueDict, hreach, hpath]
    constructor
    · rintro (h | rfl | h)
      · exact .inl h
      · exact .inl List.nil_prefix
      · exact .inr h
    · rintro (h | h)
      · exact .inl h
      · exact .inr (.inr h)

theorem exists_storedTree {indices : κ → ℕ} {s : MixerState κ ι α} (hs : s.Deep indices)
    {f : ParsedField κ ι α} (hf : f.path.length = indices f.key) :
    ∃ t, StoredTree indices s f t := by
  cases hpath : f.path with
  | nil => exact ⟨_, storedTree_plain hs hf hpath⟩
  | cons index rest => exact storedTree_indexed hs hf hpath

/-- One field: its contents at its path, and everything else as it was. -/
theorem StoredTree.step {indices : κ → ℕ} {s : MixerState κ ι α} (hs : s.Deep indices)
    {f : ParsedField κ ι α} {t : Tree ι α} (h : StoredTree indices s f t) :
    (s.storeField f).Deep indices ∧
    (∀ key path, (s.storeField f).lookup key path =
      if key = f.key ∧ path = f.path then some f.contents else s.lookup key path) ∧
    (∀ key path, (s.storeField f).reaches key path = true ↔
      key = f.key ∧ path <+: f.path ∨ s.reaches key path = true) := by
  refine ⟨?_, ?_, ?_⟩
  · intro key t' ht'
    rw [h.get?] at ht'
    split at ht'
    next hkey =>
      obtain rfl := Option.some.inj ht'
      rw [hkey]
      exact h.uniform
    next => exact hs key t' ht'
  · intro key path
    rw [MixerState.lookup, h.get?]
    by_cases hkey : key = f.key
    · rw [if_pos hkey, Option.bind_some, h.lookup, hkey]
      simp
    · rw [if_neg hkey, if_neg fun hboth => hkey hboth.1]
      rfl
  · intro key path
    rw [MixerState.reaches, h.get?]
    by_cases hkey : key = f.key
    · rw [if_pos hkey, Option.any_some, h.reaches, hkey]
      simp
    · rw [if_neg hkey]
      simp only [hkey, false_and, false_or]
      rfl

/-! ## A run of fields -/

/-- The contents of the last field received with a key and a path. -/
def lastContents (fields : List (ParsedField κ ι α)) (key : κ) (path : List ι) : Option α :=
  (fields.filter fun f => f.key = key ∧ f.path = path).getLast?.map ParsedField.contents

/-- The fields of a key have as many indices. -/
def SameLength (indices : κ → ℕ) (fields : List (ParsedField κ ι α)) : Prop :=
  ∀ f ∈ fields, f.path.length = indices f.key

theorem received_run {indices : κ → ℕ} {fields : List (ParsedField κ ι α)}
    (h : SameLength indices fields) :
    (received fields).Deep indices ∧
    (∀ key path, (received fields).lookup key path = lastContents fields key path) ∧
    ∀ key path, (received fields).reaches key path = true ↔
      ∃ f ∈ fields, f.key = key ∧ path <+: f.path := by
  induction fields using List.reverseRecOn with
  | nil =>
    refine ⟨(fun _ _ ht => nomatch ht), fun _ _ => rfl, fun key path => ?_⟩
    simp [received, reaches]
  | append_singleton fields f ih =>
    obtain ⟨hdeep, hlookup, hreaches⟩ := ih fun g hg => h g (List.mem_append_left _ hg)
    have hf : f.path.length = indices f.key := h f (by simp)
    obtain ⟨t, ht⟩ := exists_storedTree hdeep hf
    obtain ⟨hdeep', hlookup', hreaches'⟩ := ht.step hdeep
    have hlast : received (fields ++ [f]) = (received fields).storeField f :=
      List.foldl_concat ..
    rw [hlast]
    refine ⟨hdeep', fun key path => ?_, fun key path => ?_⟩
    · rw [hlookup', hlookup]
      unfold lastContents
      rw [List.filter_append]
      by_cases hboth : key = f.key ∧ path = f.path
      · simp [hboth]
      · have hnot : ¬ (f.key = key ∧ f.path = path) := fun heq => hboth ⟨heq.1.symm, heq.2.symm⟩
        simp [hboth, hnot]
    · rw [hreaches', hreaches]
      constructor
      · rintro (⟨rfl, hpath⟩ | ⟨g, hg, hgpath⟩)
        · exact ⟨f, by simp, rfl, hpath⟩
        · exact ⟨g, List.mem_append_left _ hg, hgpath⟩
      · rintro ⟨g, hg, rfl, hpath⟩
        rcases List.mem_append.mp hg with hg | hg
        · exact .inr ⟨g, hg, rfl, hpath⟩
        · obtain rfl := List.mem_singleton.mp hg
          exact .inl ⟨rfl, hpath⟩

/-- After any run of fields, of which those of a key have as many indices, the state has the
last contents received under each path, and a path only if a field was received on it; and one
more field changes nothing else. -/
theorem received_lookup (indices : κ → ℕ) (fields : List (ParsedField κ ι α))
    (h : SameLength indices fields) :
    (∀ key path, (received fields).lookup key path = lastContents fields key path) ∧
    (∀ key path, (received fields).reaches key path = true ↔
      ∃ f ∈ fields, f.key = key ∧ path <+: f.path) ∧
    ∀ f : ParsedField κ ι α, f.path.length = indices f.key →
      (∀ key path, ¬ (key = f.key ∧ path = f.path) →
        ((received fields).storeField f).lookup key path = (received fields).lookup key path) ∧
      ∀ key ≠ f.key, ((received fields).storeField f).get? key = (received fields).get? key := by
  obtain ⟨hdeep, hlookup, hreaches⟩ := received_run h
  refine ⟨hlookup, hreaches, fun f hf => ?_⟩
  obtain ⟨t, ht⟩ := exists_storedTree hdeep hf
  refine ⟨fun key path hother => ?_, fun key hkey => ?_⟩
  · rw [(ht.step hdeep).2.1, if_neg hother]
  · rw [ht.get?, if_neg hkey]

/-- Two keyers of one mix effect, the first of them twice. -/
theorem received_lookup_keyers :
    (received [⟨"key-properties-base", 1, some (0, [0]), none⟩,
        ⟨"key-properties-base", 2, some (0, [1]), none⟩,
        ⟨"key-properties-base", 3, some (0, [0]), none⟩]).lookup "key-properties-base" [0, 1] =
      some 2 ∧
    (received [⟨"key-properties-base", 1, some (0, [0]), none⟩,
        ⟨"key-properties-base", 2, some (0, [1]), none⟩,
        ⟨"key-properties-base", 3, some (0, [0]), none⟩]).lookup "key-properties-base" [0, 0] =
      some 3 := by
  have h := received_lookup (fun _ => 2) [⟨"key-properties-base", 1, some (0, [0]), none⟩,
    ⟨"key-properties-base", 2, some (0, [1]), none⟩,
    ⟨"key-properties-base", 3, some (0, [0]), none⟩] (by
      unfold SameLength
      decide)
  exact ⟨h.1 "key-properties-base" [0, 1], h.1 "key-properties-base" [0, 0]⟩

end MixerState

end Bmdwire
