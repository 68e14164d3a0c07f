import Bmdwire.Analysis.LaneRefinement

/-!
# The loops that release locks

`abort_transfers` and `release_locks_now` walk through `locks` and release what they find
held. Each turn of these loops is a `ReleaseMove`; here is what the loops are made of and
what is left held after them. The trigger's own clean-up walks through `locks` too, but
only sends.
-/

set_option autoImplicit false

namespace Bmdwire

open Library (Dict)

namespace Lane

/-- Give up the belief in one lock and send its release. -/
def dropLock (now : Time) (k : Store) (s : Lane) : Lane :=
  { s.send now (.lock k false) with locks := s.locks.set k false }

/-- One release of a held lock that may be released (`may`), with or without leaving the
store its turn. -/
inductive ReleaseMove (now : Time) (yields : Bool) (may : Store → Prop) : Lane → Lane → Prop
  | release {s : Lane} {k : Store} : s.held k = true → may k →
      ReleaseMove now yields may s
        (if yields then (s.dropLock now k).startYield now k else s.dropLock now k)

/-- Any number of releases. -/
def ReleaseMoves (now : Time) (yields : Bool) (may : Store → Prop) : Lane → Lane → Prop :=
  Relation.ReflTransGen (ReleaseMove now yields may)

/-- What every release keeps, any number of releases keeps. -/
theorem ReleaseMoves.keep {now : Time} {yields : Bool} {may : Store → Prop} {P : Lane → Prop}
    (hP : ∀ s t, ReleaseMove now yields may s t → P s → P t) {s t : Lane}
    (h : ReleaseMoves now yields may s t) (hs : P s) : P t := by
  induction h with
  | refl => exact hs
  | tail _ hm ih => exact hP _ _ hm ih

section Loops

variable {now : Time} {yields : Bool} {may : Store → Prop} {f : Lane → Store → Lane}

/-- A loop whose every turn is a release, or nothing, is made of releases. -/
theorem releaseMoves_foldl
    (hf : ∀ (s : Lane) k, f s k = s ∨ ReleaseMove now yields may s (f s k))
    (ks : List Store) (s : Lane) : ReleaseMoves now yields may s (ks.foldl f s) := by
  induction ks generalizing s with
  | nil => exact Relation.ReflTransGen.refl
  | cons k ks ih =>
    rcases hf s k with h | h
    · rw [List.foldl_cons, h]
      exact ih s
    · exact (Relation.ReflTransGen.single h).trans (ih (f s k))

/-- A release never makes a belief. -/
theorem ReleaseMove.held {s t : Lane} (h : ReleaseMove now yields may s t) (k : Store) :
    t.held k = true → s.held k = true := by
  obtain ⟨hk, -⟩ := h
  rename_i j
  have hset : (s.dropLock now j).held k = true → s.held k = true := by
    intro h
    have := (held_set s j k false).symm.trans h
    by_cases hkj : k = j
    · simp [hkj] at this
    · simpa [hkj] using this
  cases yields with
  | false => exact hset
  | true => exact hset

theorem ReleaseMoves.held {s t : Lane} (h : ReleaseMoves now yields may s t) (k : Store) :
    t.held k = true → s.held k = true := by
  refine h.keep (P := fun t => t.held k = true → s.held k = true) ?_ id
  intro t u hm ht hu
  exact ht (hm.held k hu)

/-- Releases change the belief, the yields and the log, and nothing else. -/
theorem ReleaseMoves.fields {s t : Lane} (h : ReleaseMoves now yields may s t) :
    ∃ locks yielding ownRelease log, t =
      { s with locks := locks, yielding := yielding, ownRelease := ownRelease, log := log } := by
  refine h.keep (P := fun t => ∃ locks yielding ownRelease log, t =
      { s with locks := locks, yielding := yielding, ownRelease := ownRelease, log := log }) ?_
    ⟨_, _, _, _, rfl⟩
  rintro t u ⟨-, -⟩ ⟨_, _, _, _, rfl⟩
  cases yields with
  | false => exact ⟨_, _, _, _, rfl⟩
  | true => exact ⟨_, _, _, _, rfl⟩

/-- Releases add nothing but releases to the log. -/
theorem ReleaseMoves.log_eq {s t : Lane} (h : ReleaseMoves now yields may s t) :
    ∃ new, t.log = new ++ s.log ∧ ∀ a ∈ new, ∃ k, may k ∧ a = .send now (.lock k false) := by
  refine h.keep (P := fun t => ∃ new, t.log = new ++ s.log ∧
    ∀ a ∈ new, ∃ k, may k ∧ a = .send now (.lock k false)) ?_ ⟨[], rfl, by simp⟩
  rintro t u ⟨-, hk⟩ ⟨new, hlog, hnew⟩
  rename_i k
  refine ⟨.send now (.lock k false) :: new, ?_, ?_⟩
  · cases yields with
    | false => exact congrArg _ hlog
    | true => exact congrArg _ hlog
  · intro a ha
    rcases List.mem_cons.mp ha with rfl | ha
    · exact ⟨k, hk, rfl⟩
    · exact hnew a ha

/-- After a loop over `locks` a store is held only if the loop passes it over. -/
theorem held_foldl (hf : ∀ (s : Lane) k, f s k = s ∨ ReleaseMove now yields may s (f s k))
    {k : Store} (hk : ∀ s, (f s k).held k = false) (s : Lane) :
    (s.locks.keys.foldl f s).held k = false := by
  have hkeep : ∀ (ks : List Store) (t : Lane), t.held k = false →
      (ks.foldl f t).held k = false := by
    intro ks t ht
    by_contra h
    rw [Bool.not_eq_false] at h
    rw [(releaseMoves_foldl hf ks t).held k h] at ht
    cases ht
  have hloop : ∀ (ks : List Store) (t : Lane), k ∈ ks → (ks.foldl f t).held k = false := by
    intro ks
    induction ks with
    | nil => simp
    | cons j ks ih =>
      intro t hmem
      rcases List.mem_cons.mp hmem with rfl | hmem
      · exact hkeep ks _ (hk t)
      · exact ih _ hmem
  by_cases hmem : k ∈ s.locks.keys
  · exact hloop _ s hmem
  · refine hkeep _ s ?_
    rw [s.locks.mem_keys] at hmem
    rw [held_eq, Option.not_isSome_iff_eq_none.mp hmem]
    rfl

end Loops

/-! ## The three loops -/

theorem held_dropLock (now : Time) (k : Store) (s : Lane) : (s.dropLock now k).held k = false := by
  have := held_set s k k false
  rwa [if_pos rfl] at this

theorem abortLock_move (now : Time) (s : Lane) (k : Store) :
    s.abortLock now k = s ∨ ReleaseMove now true (fun _ => True) s (s.abortLock now k) := by
  unfold abortLock
  split
  · rename_i hk
    exact .inr (.release hk trivial)
  · exact .inl rfl

theorem abortOtherLock_move (now : Time) (store : Store) (s : Lane) (k : Store) :
    s.abortOtherLock now store k = s ∨
      ReleaseMove now false (fun k => k ≠ store) s (s.abortOtherLock now store k) := by
  unfold abortOtherLock
  split
  · rename_i hk
    exact .inr (.release hk.2 hk.1)
  · exact .inl rfl

theorem releaseLockNow_move (now : Time) (s : Lane) (k : Store) :
    s.releaseLockNow now k = s ∨
      ReleaseMove now false (fun k => k ≠ macroStore) s (s.releaseLockNow now k) := by
  unfold releaseLockNow
  split
  · rename_i hk
    exact .inr (.release hk.1 hk.2)
  · exact .inl rfl

/-- The lane an abort without a drain starts to release locks in. -/
def allAbandoned (s : Lane) : Lane := { s.clearTransfers with lockRequested := .empty }

/-- An abort that leaves no drain releases every lock, leaving each store its turn. -/
theorem abortTransfers_all {now : Time} {s : Lane} (h : s.leavesDraining now = false) :
    ReleaseMoves now true (fun _ => True) s.allAbandoned (s.abortTransfers now) ∧
      ∀ k, (s.abortTransfers now).held k = false := by
  have heq : s.abortTransfers now =
      s.allAbandoned.locks.keys.foldl (fun t k => t.abortLock now k) s.allAbandoned := by
    unfold abortTransfers
    rw [if_neg (by simp [h])]
    rfl
  rw [heq]
  refine ⟨releaseMoves_foldl (abortLock_move now) _ _, fun k => ?_⟩
  refine held_foldl (abortLock_move now) (fun t => ?_) _
  unfold abortLock
  split
  · exact held_dropLock now k t
  · rename_i hk
    simpa using hk

/-- The store of the download an abort leaves draining. -/
theorem exists_inFlight_of_leavesDraining {now : Time} {s : Lane}
    (h : s.leavesDraining now = true) :
    ∃ id last, s.transfer = some id ∧ s.transferLastData = some last ∧
      (s.tasks id).kind = .download ∧ (s.tasks id).store ≠ macroStore ∧
      s.transferRequested = true ∧ (s.tasks id).tid.isSome ∧
      s.held (s.tasks id).store = true ∧ now - last < drainStall ∧ s.draining = none := by
  unfold leavesDraining at h
  split at h
  · rename_i id last hid hlast
    simp only [canWake, true_and, Bool.decide_and, Bool.and_eq_true, decide_eq_true_eq,
      Option.isNone_iff_eq_none] at h
    exact ⟨id, last, hid, hlast, h⟩
  · cases h

/-- An abort that leaves a drain releases every lock but the drain's, with no turn left. -/
theorem abortTransfers_drain {now : Time} {s : Lane} (h : s.leavesDraining now = true)
    {id : TaskId} (hid : s.transfer = some id) :
    ReleaseMoves now false (fun k => k ≠ (s.tasks id).store) (s.drainBegun now)
        (s.abortTransfers now) ∧
      ∀ k, k ≠ (s.tasks id).store → (s.abortTransfers now).held k = false := by
  have hstore : (s.inFlight.map (·.store)).getD 0 = (s.tasks id).store := by
    simp [inFlight, hid]
  have heq : s.abortTransfers now = (s.drainBegun now).locks.keys.foldl
      (fun t k => t.abortOtherLock now (s.tasks id).store k) (s.drainBegun now) := by
    unfold abortTransfers
    rw [if_pos h, ← hstore]
    rfl
  rw [heq]
  refine ⟨releaseMoves_foldl (abortOtherLock_move now _) _ _, fun k hk => ?_⟩
  refine held_foldl (abortOtherLock_move now _) (fun t => ?_) _
  unfold abortOtherLock
  split
  · exact held_dropLock now k t
  · rename_i hn
    simpa [hk] using hn

/-- The teardown releases every lock but the macro store's, or has none to release. -/
theorem releaseLocksNow_cases (now : Time) (s : Lane) :
    ((∀ k, s.held k = false) ∧ s.releaseLocksNow now = s) ∨
      ∃ t, ReleaseMoves now false (fun k => k ≠ macroStore) s t ∧
        (∀ k, k ≠ macroStore → t.held k = false) ∧
        s.releaseLocksNow now =
          { t with lockRequested := .empty, yielding := .empty, ownRelease := .empty } := by
  unfold releaseLocksNow
  split
  · refine .inr ⟨_, releaseMoves_foldl (releaseLockNow_move now) _ _, fun k hk => ?_, rfl⟩
    refine held_foldl (releaseLockNow_move now) (fun t => ?_) _
    unfold releaseLockNow
    split
    · exact held_dropLock now k t
    · rename_i hn
      simpa [hk] using hn
  · rename_i hany
    refine .inl ⟨fun k => ?_, rfl⟩
    by_contra hk
    rw [Bool.not_eq_false] at hk
    apply hany
    rw [List.any_eq_true]
    refine ⟨k, ?_, hk⟩
    rw [s.locks.mem_keys]
    rw [held_eq] at hk
    cases hl : s.locks.get? k with
    | none => simp [hl] at hk
    | some b => rfl

/-- The objects stay as they are through an abort. -/
theorem tasks_abortTransfers (now : Time) (s : Lane) : (s.abortTransfers now).tasks = s.tasks := by
  cases hl : s.leavesDraining now with
  | true =>
    obtain ⟨id, _, hid, -⟩ := exists_inFlight_of_leavesDraining hl
    obtain ⟨_, _, _, _, heq⟩ := (abortTransfers_drain hl hid).1.fields
    rw [heq]
    rfl
  | false =>
    obtain ⟨_, _, _, _, heq⟩ := (abortTransfers_all hl).1.fields
    rw [heq]
    rfl

/-- The objects stay as they are through the teardown. -/
theorem tasks_releaseLocksNow (now : Time) (s : Lane) :
    (s.releaseLocksNow now).tasks = s.tasks := by
  rcases releaseLocksNow_cases now s with ⟨-, heq⟩ | ⟨t, hm, -, heq⟩
  · rw [heq]
  · obtain ⟨_, _, _, _, ht⟩ := hm.fields
    rw [heq, ht]

/-- The trigger's clean-up sends a release for every lock held, and changes nothing. -/
theorem cleanLocks_eq (now : Time) (s : Lane) :
    ∃ new, s.cleanLocks now = { s with log := new ++ s.log } ∧
      ∀ a ∈ new, ∃ k, s.held k = true ∧ a = .send now (.lock k false) := by
  have hloop : ∀ (ks : List Store) (t : Lane), (∃ new, t = { s with log := new ++ s.log } ∧
      ∀ a ∈ new, ∃ k, s.held k = true ∧ a = .send now (.lock k false)) →
      ∃ new, ks.foldl (fun t k => if s.held k then t.send now (.lock k false) else t) t =
          { s with log := new ++ s.log } ∧
        ∀ a ∈ new, ∃ k, s.held k = true ∧ a = .send now (.lock k false) := by
    intro ks
    induction ks with
    | nil => exact fun t ht => ht
    | cons k ks ih =>
      rintro t ⟨new, rfl, hnew⟩
      rw [List.foldl_cons]
      apply ih
      split
      · rename_i hk
        refine ⟨.send now (.lock k false) :: new, rfl, ?_⟩
        intro a ha
        rcases List.mem_cons.mp ha with rfl | ha
        · exact ⟨k, hk, rfl⟩
        · exact hnew a ha
      · exact ⟨new, rfl, hnew⟩
  exact hloop s.locks.keys s ⟨[], rfl, by simp⟩

/-! ## What the openings add to the log, and to the tasks -/

/-- An opening adds bulk and releases to the log. -/
theorem opening_log_eq {now : Time} {s t : Lane} {e : LaneEvent} {closing : Option Notice}
    (ho : Opening now s e t closing) :
    ∃ new, t.log = new ++ s.log ∧
      ∀ a ∈ new, a.bulk = true ∨ ∃ k, a = .send now (.lock k false) := by
  have hnone : t.log = s.log → ∃ new, t.log = new ++ s.log ∧
      ∀ a ∈ new, a.bulk = true ∨ ∃ k, a = .send now (.lock k false) := fun h => ⟨[], h, by simp⟩
  have hletGo : ∀ (k : Store) (u : Lane), u.log = s.log →
      ∃ new, (u.letGo now k).log = new ++ s.log ∧
        ∀ a ∈ new, a.bulk = true ∨ ∃ k, a = .send now (.lock k false) := by
    intro k u hu
    obtain ⟨new, hlog, hnew⟩ := letGo_log now k u
    exact ⟨new, by rw [hlog, hu], fun a ha => .inr ⟨k, hnew a ha⟩⟩
  have hreleases : ∀ {yields may} {u v : Lane}, ReleaseMoves now yields may u v →
      u.log = s.log → ∃ new, v.log = new ++ s.log ∧
        ∀ a ∈ new, a.bulk = true ∨ ∃ k, a = .send now (.lock k false) := by
    intro yields may u v hm hu
    obtain ⟨new, hlog, hrel⟩ := hm.log_eq
    refine ⟨new, by rw [hlog, hu], fun a ha => .inr ?_⟩
    obtain ⟨k, -, rfl⟩ := hrel a ha
    exact ⟨k, rfl⟩
  cases ho with
  | quiet _ hq =>
    obtain ⟨new, hlog, hbulk⟩ := hq.log
    exact ⟨new, hlog, fun a ha => .inl (hbulk a ha)⟩
  | granted store => exact hnone rfl
  | @taken store _ =>
    obtain ⟨_, _, _, _, heq⟩ := lockTaken_eq now store s
    exact hnone (by rw [heq])
  | @freed store _ =>
    obtain ⟨_, _, heq⟩ := freed_eq now store s
    exact hnone (by rw [heq])
  | drained data _ =>
    exact ⟨[_], rfl, fun a ha => by rw [List.mem_singleton.mp ha]; exact .inl rfl⟩
  | drainFailed status hd => exact hletGo _ _ rfl
  | drainCompleted hd => exact hletGo _ _ rfl
  | tryAgain _ _ => exact hnone rfl
  | triedOut _ _ => exact hletGo _ _ rfl
  | lockLost _ => exact hnone rfl
  | yielded _ => exact hletGo _ _ rfl
  | failed _ _ _ _ => exact hletGo _ _ rfl
  | completed _ => exact hletGo _ _ rfl
  | strangeCompletion _ => exact hnone rfl
  | enqueue _ => exact hnone rfl
  | dequeue id =>
    obtain ⟨q, heq⟩ := dequeueClear_eq id s
    exact hnone (by rw [heq])
  | abort =>
    cases hl : s.leavesDraining now with
    | true =>
      obtain ⟨id, _, hid, -⟩ := exists_inFlight_of_leavesDraining hl
      exact hreleases (abortTransfers_drain hl hid).1 rfl
    | false => exact hreleases (abortTransfers_all hl).1 rfl
  | fire _ _ => exact hnone rfl
  | poke => exact hnone rfl
  | woken _ _ => exact hnone rfl
  | drainOverdue _ hd _ => exact hletGo _ _ rfl
  | reset => exact hnone rfl
  | teardown =>
    rcases releaseLocksNow_cases now s with ⟨-, heq⟩ | ⟨u, hm, -, heq⟩
    · exact hnone (by rw [heq])
    · rw [heq]
      have hlog := hreleases hm rfl
      exact hlog

/-- An opening creates the task of the call it handles, or leaves every task its target. -/
theorem opening_tasks {now : Time} {s t : Lane} {e : LaneEvent} {closing : Option Notice}
    (ho : Opening now s e t closing) :
    (∃ task, newTask e = some task ∧ t = s.enqueue task) ∨
      ∀ id, (t.tasks id).target = (s.tasks id).target := by
  have hsame : t.tasks = s.tasks → (∃ task, newTask e = some task ∧ t = s.enqueue task) ∨
      ∀ id, (t.tasks id).target = (s.tasks id).target := by
    intro h
    exact .inr fun id => by rw [h]
  have hcount : ∀ id j, ((s.countTry id).tasks j).target = (s.tasks j).target := fun id j =>
    modifyTask_keeps TransferTask.target
      (f := fun t => { t with tryAgain := t.tryAgain + 1 }) (fun _ => rfl) id j _
  cases ho with
  | quiet _ hq =>
    right
    intro id
    obtain ⟨hkind, hstore, hslot, -⟩ := core_eq (hq.core id)
    rw [TransferTask.target, hkind, hstore, hslot]
    rfl
  | granted store => exact hsame rfl
  | @taken store _ =>
    obtain ⟨_, _, _, _, heq⟩ := lockTaken_eq now store s
    exact hsame (by rw [heq])
  | @freed store _ =>
    obtain ⟨_, _, heq⟩ := freed_eq now store s
    exact hsame (by rw [heq])
  | drained data _ => exact hsame rfl
  | drainFailed status _ => exact hsame (letGo_tasks ..)
  | drainCompleted _ => exact hsame (letGo_tasks ..)
  | @tryAgain id transfer _ _ => exact .inr (hcount id)
  | @triedOut id transfer _ _ =>
    right
    intro j
    rw [dropFailed, letGo_tasks]
    exact hcount id j
  | lockLost _ => exact hsame rfl
  | yielded _ => exact hsame (letGo_tasks ..)
  | failed _ _ _ _ => exact hsame (letGo_tasks ..)
  | completed _ => exact hsame (letGo_tasks ..)
  | strangeCompletion _ => exact hsame rfl
  | enqueue he => exact .inl ⟨_, he, rfl⟩
  | dequeue id =>
    obtain ⟨q, heq⟩ := dequeueClear_eq id s
    exact hsame (by rw [heq])
  | abort => exact hsame (tasks_abortTransfers now s)
  | fire _ _ => exact hsame rfl
  | poke => exact hsame rfl
  | woken _ _ => exact hsame rfl
  | drainOverdue _ _ _ => exact hsame (letGo_tasks ..)
  | reset => exact hsame rfl
  | teardown => exact hsame (tasks_releaseLocksNow now s)

end Lane

end Bmdwire
