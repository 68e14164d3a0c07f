import Bmdwire.Interface.PoolFields

/-!
# Reference counts and grace timers

In every run the reference count of a registered entry is the number of callers that have
that very entry (`Counted`). A timer that waits for the lock belongs to the entry it will find
at zero, as long as no count falls to zero while an older timer of the address waits there
(`Timed`): then an entry is taken down by the timer of its own last drop, a grace period after
it (`grace_kept`).
-/

set_option autoImplicit false

namespace Bmdwire

open Library (Dict)

namespace Pool

/-- How many callers have an entry. -/
def holding (s : Pool) (e : ℕ) : ℕ := s.holders.count (fun x => x.entry = e)

/-! ## What the books show -/

/-- The changes that the counts do not depend on: of timers, connections, workers and
lifecycle states, and of where callers are. -/
structure SameCounts (s t : Pool) : Prop where
  instances : t.instances = s.instances
  nextEntry : t.nextEntry = s.nextEntry
  entry : ∀ e, (t.entries e).ip = (s.entries e).ip ∧
    (t.entries e).refCount = (s.entries e).refCount
  holder : ∀ h x, t.holders.get? h = some x →
    ∃ y, s.holders.get? h = some y ∧ y.entry = x.entry ∧ y.ip = x.ip
  holding : ∀ e, t.holding e = s.holding e
  nextHolder : t.nextHolder = s.nextHolder
  acquired : ∀ e, t.log.count (.acquired e) = s.log.count (.acquired e)
  released : ∀ e, t.log.count (.released e) = s.log.count (.released e)

/-- The timer that the last drop of an entry armed, and when. -/
def lastDrop (e : ℕ) (log : List PoolAct) : Option (ℕ × Time) :=
  log.findSome? fun
    | .dropped e' t at_ => if e' = e then some (t, at_) else none
    | _ => none

/-- The changes that the timers do not depend on: of connections, workers and callers, and of
counts that do not fall to zero. -/
structure SameTimers (s t : Pool) : Prop where
  instances : t.instances = s.instances
  zero : ∀ e, (t.entries e).refCount = 0 → (s.entries e).refCount = 0
  disconnectTimer : ∀ e, (t.entries e).disconnectTimer = (s.entries e).disconnectTimer
  timers : t.timers = s.timers
  nextTimer : t.nextTimer = s.nextTimer
  teardown : t.teardown.map Teardown.ip = s.teardown.map Teardown.ip
  clock : t.clock = s.clock
  lastDrop : ∀ e, lastDrop e t.log = lastDrop e s.log

/-- The changes that neither depends on. -/
structure SameBooks (s t : Pool) : Prop extends SameCounts s t, SameTimers s t where
  log : t.log = s.log

theorem SameCounts.refl (s : Pool) : SameCounts s s :=
  ⟨rfl, rfl, fun _ => ⟨rfl, rfl⟩, fun _ x hx => ⟨x, hx, rfl, rfl⟩, fun _ => rfl, rfl,
    fun _ => rfl, fun _ => rfl⟩

theorem SameCounts.trans {s t u : Pool} (h : SameCounts s t) (h' : SameCounts t u) :
    SameCounts s u where
  instances := h'.instances.trans h.instances
  nextEntry := h'.nextEntry.trans h.nextEntry
  entry e := ⟨(h'.entry e).1.trans (h.entry e).1, (h'.entry e).2.trans (h.entry e).2⟩
  holder i x hx := by
    obtain ⟨y, hy, he, hip⟩ := h'.holder i x hx
    obtain ⟨z, hz, he', hip'⟩ := h.holder i y hy
    exact ⟨z, hz, he'.trans he, hip'.trans hip⟩
  holding e := (h'.holding e).trans (h.holding e)
  nextHolder := h'.nextHolder.trans h.nextHolder
  acquired e := (h'.acquired e).trans (h.acquired e)
  released e := (h'.released e).trans (h.released e)

theorem SameTimers.refl (s : Pool) : SameTimers s s :=
  ⟨rfl, fun _ h => h, fun _ => rfl, rfl, rfl, rfl, rfl, fun _ => rfl⟩

theorem SameTimers.trans {s t u : Pool} (h : SameTimers s t) (h' : SameTimers t u) :
    SameTimers s u where
  instances := h'.instances.trans h.instances
  zero e he := h.zero e (h'.zero e he)
  disconnectTimer e := (h'.disconnectTimer e).trans (h.disconnectTimer e)
  timers := h'.timers.trans h.timers
  nextTimer := h'.nextTimer.trans h.nextTimer
  teardown := h'.teardown.trans h.teardown
  clock := h'.clock.trans h.clock
  lastDrop e := (h'.lastDrop e).trans (h.lastDrop e)

theorem SameBooks.refl (s : Pool) : SameBooks s s :=
  { SameCounts.refl s, SameTimers.refl s with log := rfl }

theorem SameBooks.trans {s t u : Pool} (h : SameBooks s t) (h' : SameBooks t u) :
    SameBooks s u where
  __ := h.toSameCounts.trans h'.toSameCounts
  __ := h.toSameTimers.trans h'.toSameTimers
  log := h'.log.trans h.log

section Frames

variable {s : Pool}

theorem setConnection_books (e : ℕ) (f : Connection → Connection) :
    SameBooks s (s.setConnection e f) where
  __ := SameBooks.refl s
  entry i := ⟨setEntry_frame e i Entry.ip fun _ => rfl,
    setEntry_frame e i Entry.refCount fun _ => rfl⟩
  zero i h := by
    have hcount : ((s.setConnection e f).entries i).refCount = (s.entries i).refCount :=
      setEntry_frame e i Entry.refCount fun _ => rfl
    rwa [hcount] at h
  disconnectTimer i := setEntry_frame e i Entry.disconnectTimer fun _ => rfl

theorem setWorker_books (w : ℕ) (status : WorkerStatus) : SameBooks s (s.setWorker w status) :=
  { SameBooks.refl s with }

theorem setPhase_books {h : ℕ} {x : Holder} (hx : s.holders.get? h = some x)
    (phase : HolderPhase) : SameBooks s (s.setPhase h x phase) where
  __ := SameBooks.refl s
  holder i y hy := by
    change (s.holders.set h { x with phase }).get? i = some y at hy
    rw [Dict.get?_set] at hy
    split at hy
    · rename_i hi
      cases hy
      exact ⟨x, hi ▸ hx, rfl, rfl⟩
    · exact ⟨y, hy, rfl, rfl⟩
  holding e := Dict.count_set_same s.holders hx rfl

theorem disconnectLocked_books (e : ℕ) : SameBooks s (s.disconnectLocked e) := by
  unfold disconnectLocked
  dsimp only
  split
  · exact setConnection_books _ _
  · split
    · exact (setConnection_books _ _).trans (setWorker_books _ _)
    · exact setConnection_books _ _

theorem startWorker_books (h e : ℕ) (ip : String) : SameBooks s (s.startWorker h e ip) := by
  have hstart : ∀ t : Pool, ∀ f workers nextWorker, SameBooks t
      { t.setConnection e f with workers, nextWorker } := fun t f _ _ =>
    (setConnection_books e f).trans { SameBooks.refl _ with }
  unfold startWorker
  dsimp only
  split
  · exact (disconnectLocked_books e).trans (hstart _ _ _ _)
  · exact hstart _ _ _ _

theorem workerExit_books (w : ℕ) (unexpected : Bool) : SameBooks s (s.workerExit w unexpected) := by
  unfold workerExit
  dsimp only
  split
  · exact ((setConnection_books _ _).trans (setConnection_books _ _)).trans (setWorker_books _ _)
  · exact (setConnection_books _ _).trans (setWorker_books _ _)

theorem diedRead_books (w : ℕ) : SameBooks s (s.diedRead w) := by
  unfold diedRead
  split
  · exact setWorker_books _ _
  · exact setWorker_books _ _

theorem disconnectTorn_books {td : Teardown} (htd : s.teardown = some td) :
    SameBooks s (s.disconnectTorn td) := by
  have h := disconnectLocked_books (s := s) td.entry
  exact { h with teardown := by rw [htd]; rfl }

theorem cancelTimer_counts (t : Option ℕ) : SameCounts s (s.cancelTimer t) := by
  unfold cancelTimer
  split
  · exact .refl s
  · split
    · exact { SameCounts.refl s with }
    · exact .refl s

theorem arm_counts (now : Time) (ip : String) (e : ℕ) : SameCounts s (s.arm now ip e) where
  __ := SameCounts.refl s
  entry i := by
    rw [entries_arm]
    split
    · rename_i hi
      rw [hi]
      exact ⟨rfl, rfl⟩
    · exact ⟨rfl, rfl⟩
  acquired i := List.count_cons_of_ne (by simp)
  released i := List.count_cons_of_ne (by simp)

variable {h : ℕ} {x : Holder} (hx : s.holders.get? h = some x)

include hx

theorem check_books : SameBooks s (check h x s) := by
  unfold check
  split
  · exact setPhase_books hx _
  · exact setPhase_books hx _

theorem connect_books : SameBooks s (connect h x s) := by
  unfold connect
  split
  · exact setPhase_books hx _
  · refine (startWorker_books h x.entry x.ip).trans (setPhase_books ?_ _)
    rwa [startWorker_holders]

theorem connectDone_books (timedOut : Bool) : SameBooks s (connectDone h x timedOut s) := by
  unfold connectDone
  dsimp only
  split
  · refine ((disconnectLocked_books x.entry).trans (setConnection_books _ _)).trans
      (setPhase_books ?_ _)
    show (s.disconnectLocked x.entry).holders.get? h = some x
    rwa [disconnectLocked_holders]
  · refine (setConnection_books _ _).trans (setPhase_books ?_ _)
    exact hx

end Frames

/-! ## Reference counts -/

/-- The books are in order: a registered entry is one made for its address, a caller has an
entry of its address, and the count of a registered entry is the number of its callers. The
log has as many callers' comings and goings. -/
structure Counted (s : Pool) : Prop where
  registered : ∀ ip e, s.instances.get? ip = some e → e < s.nextEntry ∧ (s.entries e).ip = ip
  held : ∀ h x, s.holders.get? h = some x →
    h < s.nextHolder ∧ x.entry < s.nextEntry ∧ (s.entries x.entry).ip = x.ip
  counted : ∀ ip e, s.instances.get? ip = some e → (s.entries e).refCount = s.holding e
  logged : ∀ e, s.log.count (.acquired e) = s.log.count (.released e) + s.holding e

namespace Counted

variable {s t : Pool}

theorem frame (h : Counted s) (hb : SameCounts s t) : Counted t where
  registered ip e he := by
    rw [hb.instances] at he
    rw [hb.nextEntry, (hb.entry e).1]
    exact h.registered ip e he
  held i x hx := by
    obtain ⟨y, hy, he, hip⟩ := hb.holder i x hx
    rw [hb.nextHolder, hb.nextEntry, (hb.entry x.entry).1, ← he, ← hip]
    exact h.held i y hy
  counted ip e he := by
    rw [hb.instances] at he
    rw [(hb.entry e).2, hb.holding]
    exact h.counted ip e he
  logged e := by
    rw [hb.acquired, hb.released, hb.holding]
    exact h.logged e

/-- Nobody has an entry that is not made yet. -/
theorem holding_new (h : Counted s) : s.holding s.nextEntry = 0 := by
  unfold holding Dict.count
  rw [List.countP_eq_zero]
  intro i hi
  obtain ⟨x, hx⟩ := s.holders.exists_get?_of_mem_keys hi
  have := (h.held i x hx).2.1
  simp only [hx, Option.any_some, decide_eq_true_eq]
  omega

/-- An entry off the registry is nobody's concern. -/
theorem erase (h : Counted s) (ip : String) (ht : Option Teardown) :
    Counted { s with instances := s.instances.erase ip, teardown := ht } where
  registered ip' e he := by
    change (s.instances.erase ip).get? ip' = some e at he
    rw [Dict.get?_erase] at he
    split at he
    · cases he
    · exact h.registered ip' e he
  held := h.held
  counted ip' e he := by
    change (s.instances.erase ip).get? ip' = some e at he
    rw [Dict.get?_erase] at he
    split at he
    · cases he
    · exact h.counted ip' e he
  logged := h.logged

/-- A new caller takes a reference. -/
theorem reference (h : Counted s) {ip : String} {e : ℕ} (he : e < s.nextEntry)
    (hip : (s.entries e).ip = ip) : Counted (s.reference ip e) := by
  have hnew : s.holders.get? s.nextHolder = none := by
    cases hx : s.holders.get? s.nextHolder with
    | none => rfl
    | some x => exact absurd (h.held _ x hx).1 (lt_irrefl _)
  have hholding : ∀ i, (s.reference ip e).holding i = s.holding i + if e = i then 1 else 0 := by
    intro i
    refine (Dict.count_set_new s.holders _ _ hnew).trans ?_
    simp [holding]
  have hframe : ∀ i, ((s.reference ip e).entries i).ip = (s.entries i).ip := by
    intro i
    rw [entries_reference]
    split
    · rename_i hi
      rw [hi]
    · rfl
  refine ⟨?_, ?_, ?_, ?_⟩
  · intro ip' i hi
    rw [hframe]
    exact h.registered ip' i hi
  · intro i x hx
    change (s.holders.set s.nextHolder ⟨ip, e, .acquired⟩).get? i = some x at hx
    rw [Dict.get?_set] at hx
    rw [hframe]
    split at hx
    · rename_i hi
      cases hx
      exact ⟨hi ▸ Nat.lt_succ_self _, he, hip⟩
    · obtain ⟨hlt, hx'⟩ := h.held i x hx
      exact ⟨Nat.lt_succ_of_lt hlt, hx'⟩
  · intro ip' i hi
    have hold := h.counted ip' i hi
    rw [hholding, entries_reference]
    split
    · rename_i hie
      subst hie
      simp [hold]
    · rename_i hie
      rw [if_neg (Ne.symm hie), hold, Nat.add_zero]
  · intro i
    rw [hholding]
    show (PoolAct.acquired e :: s.log).count _ = (PoolAct.acquired e :: s.log).count _ + _
    rw [List.count_cons, List.count_cons, h.logged i]
    by_cases hie : e = i
    · simp [hie]
      omega
    · simp [hie]

/-- A new entry is registered at zero. -/
theorem register (h : Counted s) (ip : String) : Counted (s.register ip) := by
  have hget : ∀ ip' e, (s.register ip).instances.get? ip' = some e →
      ip' = ip ∧ e = s.nextEntry ∨ s.instances.get? ip' = some e ∧ e < s.nextEntry := by
    intro ip' e he
    change (s.instances.set ip s.nextEntry).get? ip' = some e at he
    rw [Dict.get?_set] at he
    split at he
    · cases he
      exact Or.inl ⟨‹_›, rfl⟩
    · exact Or.inr ⟨he, (h.registered ip' e he).1⟩
  refine ⟨?_, ?_, ?_, h.logged⟩
  · intro ip' e he
    rw [entries_register]
    rcases hget ip' e he with ⟨rfl, rfl⟩ | ⟨hold, hlt⟩
    · exact ⟨Nat.lt_succ_self _, by rw [if_pos rfl]⟩
    · rw [if_neg hlt.ne]
      exact ⟨Nat.lt_succ_of_lt hlt, (h.registered ip' e hold).2⟩
  · intro i x hx
    obtain ⟨hlt, hentry, hip⟩ := h.held i x hx
    rw [entries_register, if_neg hentry.ne]
    exact ⟨hlt, Nat.lt_succ_of_lt hentry, hip⟩
  · intro ip' e he
    rw [entries_register]
    rcases hget ip' e he with ⟨rfl, rfl⟩ | ⟨hold, hlt⟩
    · rw [if_pos rfl]
      exact congrArg Nat.cast h.holding_new.symm
    · rw [if_neg hlt.ne]
      exact h.counted ip' e hold

theorem createInstance (h : Counted s) (ip : String) : Counted (s.createInstance ip) := by
  refine (h.register ip).reference (Nat.lt_succ_self _) ?_
  rw [entries_register, if_pos rfl]

theorem getInstance (h : Counted s) (ip : String) : Counted (s.getInstance ip) := by
  unfold Pool.getInstance
  split
  · exact h.createInstance ip
  · rename_i e he
    dsimp only
    split
    · have hcancel := h.frame (cancelTimer_counts (s.entries e).disconnectTimer)
      exact hcancel.frame { SameCounts.refl _ with }
    · obtain ⟨hlt, hip⟩ := h.registered ip e he
      unfold rejoin
      dsimp only
      split
      · have hcancel := cancelTimer_counts (s := s) (s.entries e).disconnectTimer
        have hactive : SameCounts (s.cancelTimer (s.entries e).disconnectTimer)
            ((s.cancelTimer (s.entries e).disconnectTimer).setEntry e fun entry =>
              { entry with disconnectTimer := none, state := .active }) := {
          SameCounts.refl _ with
          entry := fun i => ⟨setEntry_frame e i Entry.ip fun _ => rfl,
            setEntry_frame e i Entry.refCount fun _ => rfl⟩ }
        have hsame := hcancel.trans hactive
        apply (h.frame hsame).reference
        · rwa [hsame.nextEntry]
        · rwa [(hsame.entry e).1]
      · exact h.reference hlt hip

section Leaving

variable {i : ℕ} {x : Holder} (hx : s.holders.get? i = some x)

include hx

theorem holding_leave (e : ℕ) :
    (s.leave i x).holding e + (if x.entry = e then 1 else 0) = s.holding e := by
  have h := Dict.count_erase s.holders (p := fun y => y.entry = e) hx
  simpa [holding, Pool.leave] using h

/-- A caller leaves an entry that is registered no longer. -/
theorem leave (h : Counted s) (hgone : ∀ ip, s.instances.get? ip ≠ some x.entry) :
    Counted (s.leave i x) := by
  refine ⟨h.registered, ?_, ?_, ?_⟩
  · intro j y hy
    change (s.holders.erase i).get? j = some y at hy
    rw [Dict.get?_erase] at hy
    split at hy
    · cases hy
    · exact h.held j y hy
  · intro ip e he
    have hne : x.entry ≠ e := fun heq => hgone ip (heq ▸ he)
    have hleave := holding_leave hx e
    rw [if_neg hne, Nat.add_zero] at hleave
    rw [hleave]
    exact h.counted ip e he
  · intro e
    have hleave := holding_leave hx e
    show (PoolAct.released x.entry :: s.log).count _ =
      (PoolAct.released x.entry :: s.log).count _ + _
    rw [List.count_cons, List.count_cons, h.logged e, ← hleave]
    by_cases he : x.entry = e
    · simp [he]
      omega
    · simp [he]

/-- A caller leaves, and gives its reference back. -/
theorem leave_dereference (h : Counted s) :
    Counted ((s.leave i x).dereference x.entry) := by
  have hentry : ∀ e, ((s.leave i x).dereference x.entry).entries e = if e = x.entry then
      { s.entries x.entry with refCount := (s.entries x.entry).refCount - 1 }
      else s.entries e := fun e => Function.update_apply ..
  have hip : ∀ e, (((s.leave i x).dereference x.entry).entries e).ip = (s.entries e).ip := by
    intro e
    rw [hentry]
    split
    · rename_i he
      rw [he]
    · rfl
  refine ⟨?_, ?_, ?_, ?_⟩
  · intro ip e he
    rw [hip]
    exact h.registered ip e he
  · intro j y hy
    change (s.holders.erase i).get? j = some y at hy
    rw [Dict.get?_erase] at hy
    rw [hip]
    split at hy
    · cases hy
    · exact h.held j y hy
  · intro ip e he
    have hleave := holding_leave hx e
    have hold := h.counted ip e he
    show _ = (((s.leave i x).holding e : ℕ) : ℤ)
    rw [hentry]
    split
    · rename_i heq
      subst heq
      simp only [↓reduceIte] at hleave
      dsimp only
      omega
    · rename_i hne
      rw [if_neg (Ne.symm hne), Nat.add_zero] at hleave
      rw [hold, hleave]
  · intro e
    have hleave := holding_leave hx e
    show (PoolAct.released x.entry :: s.log).count _ =
      (PoolAct.released x.entry :: s.log).count _ + (s.leave i x).holding e
    rw [List.count_cons, List.count_cons, h.logged e, ← hleave]
    by_cases he : x.entry = e
    · simp [he]
      omega
    · simp [he]

/-- What an exit does: the entry is registered no longer, or it has one caller less and, if it
was the last, its timer is armed. -/
theorem release_cases (h : Counted s) (now : Time) {guarded : Bool}
    (hown : guarded = false → ∀ e, s.instances.get? x.ip = some e → e = x.entry) :
    (∀ ip, s.instances.get? ip ≠ some x.entry) ∧ Pool.release now i x guarded s = s.leave i x ∨
    s.instances.get? x.ip = some x.entry ∧ 1 < (s.entries x.entry).refCount ∧
      Pool.release now i x guarded s = (s.leave i x).dereference x.entry ∨
    s.instances.get? x.ip = some x.entry ∧ (s.entries x.entry).refCount = 1 ∧
      Pool.release now i x guarded s = (((s.leave i x).dereference x.entry).cancelTimer
        (s.entries x.entry).disconnectTimer).arm now x.ip x.entry := by
  have hat : ∀ ip, s.instances.get? ip = some x.entry → ip = x.ip := by
    intro ip hip
    exact (h.registered ip _ hip).2.symm.trans (h.held i x hx).2.2
  have hinstances : (s.leave i x).instances = s.instances := rfl
  unfold Pool.release releaseInstance
  rw [hinstances]
  split
  · rename_i hnone
    refine Or.inl ⟨fun ip hip => ?_, rfl⟩
    rw [hat ip hip, hnone] at hip
    cases hip
  · rename_i e he
    by_cases heq : e = x.entry
    · subst heq
      have hsame : (if guarded then some x.entry else none).any (· ≠ x.entry) = false := by
        cases guarded with
        | false => rfl
        | true => simp
      rw [hsame, if_neg Bool.false_ne_true]
      have hone : 1 ≤ s.holding x.entry := by
        have hleave := holding_leave hx x.entry
        rw [if_pos rfl] at hleave
        omega
      have hcount := h.counted _ _ he
      have hentries : (s.leave i x).entries = s.entries := rfl
      unfold releaseEntry
      rw [hentries]
      dsimp only
      split
      · omega
      · split
        · exact Or.inr (Or.inl ⟨he, by omega, rfl⟩)
        · exact Or.inr (Or.inr ⟨he, by omega, rfl⟩)
    · have hother : (if guarded then some x.entry else none).any (· ≠ e) = true := by
        cases guarded with
        | false => exact absurd (hown rfl e he) heq
        | true => simpa using Ne.symm heq
      rw [hother, if_pos rfl]
      refine Or.inl ⟨fun ip hip => ?_, rfl⟩
      rw [hat ip hip, he] at hip
      exact heq (Option.some.inj hip)

/-- A caller that leaves gives its own reference back. -/
theorem release (h : Counted s) {now : Time} {guarded : Bool}
    (hown : guarded = false → ∀ e, s.instances.get? x.ip = some e → e = x.entry) :
    Counted (Pool.release now i x guarded s) := by
  rcases release_cases hx h now hown with ⟨hgone, heq⟩ | ⟨-, -, heq⟩ | ⟨-, -, heq⟩
  · rw [heq]
    exact leave hx h hgone
  · rw [heq]
    exact leave_dereference hx h
  · rw [heq]
    exact (leave_dereference hx h).frame ((cancelTimer_counts _).trans (arm_counts now x.ip _))

end Leaving

theorem delayedDisconnect (h : Counted s) (now : Time) (i : ℕ) :
    Counted (s.delayedDisconnect now i) := by
  have hfinished : SameCounts s (s.setTimer i .finished) := { SameCounts.refl s with }
  unfold Pool.delayedDisconnect
  dsimp only
  split
  · exact h.frame hfinished
  · split
    · exact h.frame hfinished
    · rename_i e _ _
      let f : Entry → Entry := fun entry => { entry with state := .tearingDown }
      exact h.frame {
        hfinished with
        entry := fun j => ⟨setEntry_frame (f := f) e j Entry.ip fun _ => rfl,
          setEntry_frame (f := f) e j Entry.refCount fun _ => rfl⟩
        acquired := fun _ => List.count_cons_of_ne (by simp)
        released := fun _ => List.count_cons_of_ne (by simp) }

theorem finishTeardown (h : Counted s) (td : Teardown) : Counted (s.finishTeardown td) := by
  unfold Pool.finishTeardown
  dsimp only
  split
  · exact (h.erase td.ip none).createInstance td.ip
  · exact h.erase td.ip none

theorem onConnectionDied (h : Counted s) (w : ℕ) (ip : String) :
    Counted (s.onConnectionDied w ip) := by
  have hended := (setWorker_books (s := s) w .ended).toSameCounts
  unfold Pool.onConnectionDied
  dsimp only
  split
  · exact h.frame hended
  · split
    · exact h.frame hended
    · exact (h.frame (hended.trans (cancelTimer_counts _))).erase ip _

end Counted

/-! ## Grace timers -/

/-- An entry is taken down when as many callers have left as came, by the timer its last drop
armed, a grace period later. -/
def GraceKept : PoolAct → List PoolAct → Prop
  | .tornDown e t at_, past =>
    past.count (.acquired e) = past.count (.released e) ∧
      ∃ since, lastDrop e past = some (t, since) ∧ since + gracePeriod ≤ at_
  | _, _ => True

/-- The timers are in order. One that is armed is that of the registered entry of its address,
which is not being taken down; one that waits for the lock has let its grace period pass, and is
that of the registered entry if it finds it at zero. The timer of a registered entry was armed
by the entry's last drop. -/
structure Timed (s : Pool) : Prop where
  armed : ∀ t, (s.timers t).status = .armed → s.teardown.map Teardown.ip ≠ some (s.timers t).ip ∧
    ∃ e, s.instances.get? (s.timers t).ip = some e ∧ (s.entries e).disconnectTimer = some t
  fired : ∀ t, (s.timers t).status = .fired → (s.timers t).armedAt + gracePeriod ≤ s.clock ∧
    ∀ e, s.instances.get? (s.timers t).ip = some e → (s.entries e).refCount = 0 →
      (s.entries e).disconnectTimer = some t
  timer : ∀ ip e t, s.instances.get? ip = some e → (s.entries e).disconnectTimer = some t →
    t < s.nextTimer ∧ (s.timers t).ip = ip ∧ lastDrop e s.log = some (t, (s.timers t).armedAt)

namespace Timed

variable {s t : Pool}

theorem frame (h : Timed s) (hb : SameTimers s t) : Timed t where
  armed i hi := by
    rw [hb.timers] at hi ⊢
    obtain ⟨htd, e, he, htimer⟩ := h.armed i hi
    rw [hb.teardown, hb.instances]
    exact ⟨htd, e, he, (hb.disconnectTimer e).trans htimer⟩
  fired i hi := by
    rw [hb.timers] at hi ⊢
    rw [hb.clock, hb.instances]
    obtain ⟨hdue, hfired⟩ := h.fired i hi
    exact ⟨hdue, fun e he hzero => (hb.disconnectTimer e).trans (hfired e he (hb.zero e hzero))⟩
  timer ip e i he htimer := by
    rw [hb.instances] at he
    rw [hb.disconnectTimer] at htimer
    rw [hb.nextTimer, hb.timers, hb.lastDrop]
    exact h.timer ip e i he htimer

theorem tick (h : Timed s) {now : Time} (hnow : s.clock ≤ now) :
    Timed { s with clock := now } where
  armed := h.armed
  fired i hi := ⟨(h.fired i hi).1.trans hnow, (h.fired i hi).2⟩
  timer := h.timer

/-- A timer that is set to a status neither armed nor fired is out of the way. -/
theorem retire (h : Timed s) (i : ℕ) (status : TimerStatus) (harmed : status ≠ .armed)
    (hfired : status ≠ .fired) : Timed (s.setTimer i status) where
  armed j hj := by
    rw [timers_setTimer] at hj ⊢
    split at hj
    · exact absurd hj harmed
    · rename_i hji
      rw [if_neg hji]
      exact h.armed j hj
  fired j hj := by
    rw [timers_setTimer] at hj ⊢
    split at hj
    · exact absurd hj hfired
    · rename_i hji
      rw [if_neg hji]
      exact h.fired j hj
  timer ip e j he htimer := by
    rw [timers_setTimer]
    obtain ⟨hlt, hip, hdrop⟩ := h.timer ip e j he htimer
    split
    · rename_i hji
      subst hji
      exact ⟨hlt, hip, hdrop⟩
    · exact ⟨hlt, hip, hdrop⟩

theorem cancelTimer (h : Timed s) (i : Option ℕ) : Timed (s.cancelTimer i) := by
  unfold Pool.cancelTimer
  split
  · exact h
  · split
    · exact h.retire _ _ (by simp) (by simp)
    · exact h

/-- An address has no armed timer once that of its entry is cancelled. -/
theorem not_armed_of_cancelTimer (h : Timed s) {ip : String} {e : ℕ}
    (he : s.instances.get? ip = some e) (i : ℕ)
    (hi : ((s.cancelTimer (s.entries e).disconnectTimer).timers i).status = .armed) :
    ((s.cancelTimer (s.entries e).disconnectTimer).timers i).ip ≠ ip := by
  intro hip
  obtain ⟨-, e', he', htimer⟩ := (h.cancelTimer (s.entries e).disconnectTimer).armed i hi
  have hinstances : (s.cancelTimer (s.entries e).disconnectTimer).instances = s.instances :=
    (cancelTimer_counts _).instances
  rw [hinstances, hip, he] at he'
  cases he'
  unfold Pool.cancelTimer at hi htimer
  cases hold : (s.entries e).disconnectTimer with
  | none =>
    rw [hold] at htimer
    exact absurd (hold.symm.trans htimer) (by simp)
  | some j =>
    rw [hold] at hi htimer
    dsimp only at hi htimer
    split at hi
    · rename_i harmed
      rw [if_pos harmed] at htimer
      have hij : j = i := Option.some.inj (hold.symm.trans htimer)
      rw [timers_setTimer, if_pos hij.symm] at hi
      cases hi
    · rename_i harmed
      rw [if_neg harmed] at htimer
      have hij : j = i := Option.some.inj (hold.symm.trans htimer)
      exact harmed (hij ▸ hi)

/-- The entry of an address without an armed timer goes. -/
theorem erase (h : Timed s) (ip : String) (ht : Option Teardown)
    (hnone : ∀ i, (s.timers i).status = .armed →
      (s.timers i).ip ≠ ip ∧ ht.map Teardown.ip ≠ some (s.timers i).ip) :
    Timed { s with instances := s.instances.erase ip, teardown := ht } where
  armed i hi := by
    obtain ⟨-, e, he, htimer⟩ := h.armed i hi
    obtain ⟨hip, htd⟩ := hnone i hi
    refine ⟨htd, e, ?_, htimer⟩
    exact (Dict.get?_erase_ne s.instances hip).trans he
  fired i hi := by
    obtain ⟨hdue, hfired⟩ := h.fired i hi
    refine ⟨hdue, fun e he hzero => hfired e ?_ hzero⟩
    change (s.instances.erase ip).get? (s.timers i).ip = some e at he
    rw [Dict.get?_erase] at he
    split at he
    · cases he
    · exact he
  timer ip' e i he htimer := by
    change (s.instances.erase ip).get? ip' = some e at he
    rw [Dict.get?_erase] at he
    split at he
    · cases he
    · exact h.timer ip' e i he htimer

/-- A reference more, to an entry whose count is not negative. -/
theorem reference (h : Timed s) {ip : String} {e : ℕ} (hcount : 0 ≤ (s.entries e).refCount) :
    Timed (s.reference ip e) := by
  apply h.frame
  refine { SameTimers.refl s with zero := ?_, disconnectTimer := ?_ }
  · intro i hi
    rw [entries_reference] at hi
    split at hi
    · dsimp only at hi
      omega
    · exact hi
  · intro i
    rw [entries_reference]
    split
    · rename_i hie
      rw [hie]
    · rfl

/-- A new entry has a caller, and no timer. -/
theorem createInstance (h : Timed s) (hc : Counted s) {ip : String}
    (hnone : ∀ i, (s.timers i).status = .armed → (s.timers i).ip ≠ ip) :
    Timed (s.createInstance ip) := by
  have hget : ∀ ip' e, (s.createInstance ip).instances.get? ip' = some e →
      e = s.nextEntry ∨ s.instances.get? ip' = some e ∧ e ≠ s.nextEntry := by
    intro ip' e he
    change (s.instances.set ip s.nextEntry).get? ip' = some e at he
    rw [Dict.get?_set] at he
    split at he
    · cases he
      exact Or.inl rfl
    · exact Or.inr ⟨he, (hc.registered ip' e he).1.ne⟩
  have hnew : (s.createInstance ip).entries s.nextEntry = { ip, refCount := 1 } := by
    unfold Pool.createInstance
    rw [entries_reference, if_pos rfl, entries_register, if_pos rfl]
    rfl
  have hold : ∀ e, e ≠ s.nextEntry → (s.createInstance ip).entries e = s.entries e := by
    intro e he
    unfold Pool.createInstance
    rw [entries_reference, if_neg he, entries_register, if_neg he]
  refine ⟨?_, ?_, ?_⟩
  · intro i hi
    obtain ⟨htd, e, he, htimer⟩ := h.armed i hi
    refine ⟨htd, e, ?_, ?_⟩
    · exact (Dict.get?_set_ne s.instances _ (hnone i hi)).trans he
    · rwa [hold e (hc.registered _ e he).1.ne]
  · intro i hi
    obtain ⟨hdue, hfired⟩ := h.fired i hi
    refine ⟨hdue, fun e he hzero => ?_⟩
    rcases hget _ e he with rfl | ⟨he', hne⟩
    · rw [hnew] at hzero
      cases hzero
    · rw [hold e hne] at hzero ⊢
      exact hfired e he' hzero
  · intro ip' e i he htimer
    rcases hget _ e he with rfl | ⟨he', hne⟩
    · rw [hnew] at htimer
      cases htimer
    · rw [hold e hne] at htimer
      exact h.timer ip' e i he' htimer

/-- An entry is registered for one address. -/
theorem address_unique (hc : Counted s) {ip ip' : String} {e : ℕ}
    (he : s.instances.get? ip = some e) (he' : s.instances.get? ip' = some e) : ip = ip' :=
  (hc.registered ip e he).2.symm.trans (hc.registered ip' e he').2

/-- An entry joined while it waits for its teardown has a caller again, and no timer. -/
theorem rejoin (h : Timed s) (hc : Counted s) {ip : String} {e : ℕ}
    (he : s.instances.get? ip = some e) : Timed (s.rejoin ip e) := by
  have hcount : 0 ≤ (s.entries e).refCount := by
    rw [hc.counted ip e he]
    exact Int.natCast_nonneg _
  unfold Pool.rejoin
  dsimp only
  split
  · have hcancel := h.cancelTimer (s.entries e).disconnectTimer
    have hcounts := cancelTimer_counts (s := s) (s.entries e).disconnectTimer
    have hnone := h.not_armed_of_cancelTimer he
    generalize hs' : s.cancelTimer (s.entries e).disconnectTimer = s' at *
    have hc' := hc.frame hcounts
    have he' : s'.instances.get? ip = some e := by rwa [hcounts.instances]
    let f : Entry → Entry := fun entry =>
      { entry with disconnectTimer := none, state := .active }
    have hself : (((s'.setEntry e f).reference ip e).entries e) =
        { f (s'.entries e) with refCount := (s'.entries e).refCount + 1 } := by
      rw [entries_reference, if_pos rfl, entries_setEntry, if_pos rfl]
    have hother : ∀ i, i ≠ e → ((s'.setEntry e f).reference ip e).entries i = s'.entries i := by
      intro i hi
      rw [entries_reference, if_neg hi, entries_setEntry, if_neg hi]
    refine ⟨?_, ?_, ?_⟩
    · intro i hi
      obtain ⟨htd, e', hi', htimer⟩ := hcancel.armed i hi
      refine ⟨htd, e', hi', ?_⟩
      rwa [hother]
      rintro rfl
      exact hnone i hi (address_unique hc' hi' he')
    · intro i hi
      obtain ⟨hdue, hfired⟩ := hcancel.fired i hi
      refine ⟨hdue, fun e' hi' hzero => ?_⟩
      by_cases hee : e' = e
      · subst hee
        rw [hself] at hzero
        have := (hcounts.entry e').2
        dsimp only at hzero
        omega
      · rw [hother e' hee] at hzero ⊢
        exact hfired e' hi' hzero
    · intro ip' e' i hi htimer
      by_cases hee : e' = e
      · subst hee
        rw [hself] at htimer
        cases htimer
      · rw [hother e' hee] at htimer
        exact hcancel.timer ip' e' i hi htimer
  · exact h.reference hcount

theorem getInstance (h : Timed s) (hc : Counted s) (ip : String) : Timed (s.getInstance ip) := by
  unfold Pool.getInstance
  split
  · rename_i hnone
    apply h.createInstance hc
    intro i hi hip
    obtain ⟨-, e, he, -⟩ := h.armed i hi
    rw [hip, hnone] at he
    cases he
  · rename_i e he
    dsimp only
    split
    · have hcancel := h.cancelTimer (s.entries e).disconnectTimer
      refine ⟨fun i hi => ⟨?_, (hcancel.armed i hi).2⟩, hcancel.fired, hcancel.timer⟩
      have hip := h.not_armed_of_cancelTimer he i hi
      exact fun heq => hip (Option.some.inj heq).symm
    · exact h.rejoin hc he

/-- An entry's count falls to zero while nothing of its address waits for the lock. -/
theorem arm (h : Timed s) (hc : Counted s) {now : Time} {ip : String} {e : ℕ}
    (he : s.instances.get? ip = some e) (htd : s.teardown = none)
    (harmed : ∀ i, (s.timers i).status = .armed → (s.timers i).ip ≠ ip)
    (hfired : ∀ i, (s.timers i).status = .fired → (s.timers i).ip ≠ ip) :
    Timed (s.arm now ip e) := by
  have htimers : ∀ i, (s.arm now ip e).timers i =
      if i = s.nextTimer then ⟨ip, now, .armed⟩ else s.timers i := fun i => Function.update_apply ..
  have hself : (s.arm now ip e).entries e =
      { s.entries e with disconnectTimer := some s.nextTimer, state := .draining } := by
    rw [entries_arm, if_pos rfl]
  have hother : ∀ i, i ≠ e → (s.arm now ip e).entries i = s.entries i := by
    intro i hi
    rw [entries_arm, if_neg hi]
  refine ⟨?_, ?_, ?_⟩
  · intro i hi
    rw [htimers] at hi ⊢
    have htd' : (s.arm now ip e).teardown = none := htd
    rw [htd']
    split at hi
    · rename_i hnew
      subst hnew
      rw [if_pos rfl]
      exact ⟨by simp, e, he, by rw [hself]⟩
    · rename_i hold
      rw [if_neg hold]
      obtain ⟨-, e', hi', htimer⟩ := h.armed i hi
      refine ⟨by simp, e', hi', ?_⟩
      rwa [hother]
      rintro rfl
      exact harmed i hi (address_unique hc hi' he)
  · intro i hi
    rw [htimers] at hi ⊢
    split at hi
    · cases hi
    · rename_i hold
      rw [if_neg hold]
      obtain ⟨hdue, hpending⟩ := h.fired i hi
      refine ⟨hdue, fun e' hi' hzero => ?_⟩
      have hee : e' ≠ e := by
        rintro rfl
        exact hfired i hi (address_unique hc hi' he)
      rw [hother e' hee] at hzero ⊢
      exact hpending e' hi' hzero
  · intro ip' e' i hi htimer
    have hlog : (s.arm now ip e).log = .dropped e s.nextTimer now :: s.log := rfl
    rw [htimers, hlog]
    by_cases hee : e' = e
    · subst hee
      rw [hself] at htimer
      cases htimer
      rw [if_pos rfl]
      exact ⟨Nat.lt_succ_self _, address_unique hc he hi, by simp [lastDrop]⟩
    · rw [hother e' hee] at htimer
      obtain ⟨hlt, hip, hdrop⟩ := h.timer ip' e' i hi htimer
      rw [if_neg hlt.ne]
      refine ⟨Nat.lt_succ_of_lt hlt, hip, ?_⟩
      simpa [lastDrop, Ne.symm hee] using hdrop

theorem leave (h : Timed s) (i : ℕ) (x : Holder) : Timed (s.leave i x) :=
  h.frame { SameTimers.refl s with }

/-- A count falls, to zero only while nothing of its address waits for the lock. -/
theorem dereference (h : Timed s) (hc : Counted s) {ip : String} {e : ℕ}
    (he : s.instances.get? ip = some e)
    (hfired : (s.entries e).refCount = 1 →
      ∀ i, (s.timers i).status = .fired → (s.timers i).ip ≠ ip) :
    Timed (s.dereference e) := by
  have hself : (s.dereference e).entries e =
      { s.entries e with refCount := (s.entries e).refCount - 1 } := Function.update_self ..
  have hother : ∀ i, i ≠ e → (s.dereference e).entries i = s.entries i :=
    fun i hi => Function.update_of_ne hi ..
  have htimer : ∀ i, ((s.dereference e).entries i).disconnectTimer =
      (s.entries i).disconnectTimer := by
    intro i
    by_cases hi : i = e
    · subst hi
      rw [hself]
    · rw [hother i hi]
  refine ⟨?_, ?_, ?_⟩
  · intro i hi
    obtain ⟨htd, e', hi', htimer'⟩ := h.armed i hi
    exact ⟨htd, e', hi', (htimer e').trans htimer'⟩
  · intro i hi
    obtain ⟨hdue, hpending⟩ := h.fired i hi
    refine ⟨hdue, fun e' hi' hzero => ?_⟩
    by_cases hee : e' = e
    · subst hee
      rw [hself] at hzero
      dsimp only at hzero
      exact absurd (address_unique hc hi' he) (hfired (by omega) i hi)
    · rw [hother e' hee] at hzero ⊢
      exact hpending e' hi' hzero
  · intro ip' e' i hi ht
    rw [htimer] at ht
    exact h.timer ip' e' i hi ht

/-- An exit that drops a count to zero does so while nothing of the address waits for the
lock. -/
theorem release (h : Timed s) (hc : Counted s) {now : Time} {i : ℕ} {x : Holder} {guarded : Bool}
    (hx : s.holders.get? i = some x) (htd : s.teardown = none)
    (hown : guarded = false → ∀ e, s.instances.get? x.ip = some e → e = x.entry)
    (hfired : s.instances.get? x.ip = some x.entry → (s.entries x.entry).refCount = 1 →
      ∀ j, (s.timers j).status = .fired → (s.timers j).ip ≠ x.ip) :
    Timed (Pool.release now i x guarded s) := by
  have hderef : ∀ e, s.instances.get? x.ip = some e → e = x.entry →
      Timed ((s.leave i x).dereference x.entry) := by
    rintro e he rfl
    exact (h.dereference hc he (hfired he)).frame { SameTimers.refl _ with }
  rcases Counted.release_cases hx hc now hown with ⟨-, heq⟩ | ⟨he, -, heq⟩ | ⟨he, hone, heq⟩
  · rw [heq]
    exact h.leave i x
  · rw [heq]
    exact hderef _ he rfl
  · rw [heq]
    have hd := hderef _ he rfl
    have hcd := Counted.leave_dereference hx hc
    have hsame : (((s.leave i x).dereference x.entry).entries x.entry).disconnectTimer =
        (s.entries x.entry).disconnectTimer :=
      setEntry_frame (s := s.leave i x) x.entry x.entry Entry.disconnectTimer fun _ => rfl
    rw [← hsame]
    have hcounts := cancelTimer_counts (s := (s.leave i x).dereference x.entry)
      (((s.leave i x).dereference x.entry).entries x.entry).disconnectTimer
    apply (hd.cancelTimer _).arm (hcd.frame hcounts)
    · rw [hcounts.instances]
      exact he
    · rw [cancelTimer_teardown]
      exact htd
    · exact hd.not_armed_of_cancelTimer he
    · intro j hj
      obtain ⟨hold, hip⟩ := fired_of_cancelTimer hj
      rw [hip]
      exact hfired he hone j hold

/-- A timer's time has come. -/
theorem timerFires (h : Timed s) {i : ℕ} (harmed : (s.timers i).status = .armed)
    (hdue : (s.timers i).armedAt + gracePeriod ≤ s.clock) : Timed (s.setTimer i .fired) where
  armed j hj := by
    rw [timers_setTimer] at hj ⊢
    split at hj
    · cases hj
    · rename_i hji
      rw [if_neg hji]
      exact h.armed j hj
  fired j hj := by
    rw [timers_setTimer] at hj ⊢
    split at hj
    · rename_i hji
      subst hji
      rw [if_pos rfl]
      obtain ⟨-, e, he, htimer⟩ := h.armed j harmed
      refine ⟨hdue, fun e' he' _ => ?_⟩
      have hee : e' = e := Option.some.inj (he'.symm.trans he)
      rwa [hee]
    · rename_i hji
      rw [if_neg hji]
      exact h.fired j hj
  timer ip e j he htimer := by
    obtain ⟨hlt, hip, hdrop⟩ := h.timer ip e j he htimer
    rw [timers_setTimer]
    split
    · rename_i hji
      subst hji
      exact ⟨hlt, hip, hdrop⟩
    · exact ⟨hlt, hip, hdrop⟩

/-- A callback that waited gets the lock: an entry it takes down is one its timer was armed for
by the last drop, a grace period ago, and that nobody has. -/
theorem delayedDisconnect (h : Timed s) (hc : Counted s) {now : Time} {i : ℕ}
    (hnow : s.clock = now) (hi : (s.timers i).status = .fired)
    (hlog : Library.Every GraceKept s.log) :
    Timed (s.delayedDisconnect now i) ∧
      Library.Every GraceKept (s.delayedDisconnect now i).log := by
  have hretire := h.retire i .finished (by simp) (by simp)
  unfold Pool.delayedDisconnect
  dsimp only
  split
  · exact ⟨hretire, hlog⟩
  · rename_i e he
    split
    · exact ⟨hretire, hlog⟩
    · rename_i hkeep
      have hzero : (s.entries e).refCount = 0 := by
        have hcount := hc.counted _ e he
        have : ¬ (s.entries e).refCount > 0 := fun hpos => hkeep (Or.inl hpos)
        omega
      obtain ⟨hdue, hfired⟩ := h.fired i hi
      have htimer := hfired e he hzero
      obtain ⟨-, -, hdrop⟩ := h.timer _ e i he htimer
      constructor
      · let f : Entry → Entry := fun entry => { entry with state := .tearingDown }
        have hframe : SameTimers (s.setTimer i .finished)
            (((s.setTimer i .finished).setEntry e f).note (.tornDown e i now)) := {
          SameTimers.refl _ with
          zero := fun j hj => by
            have hcount : (((s.setTimer i .finished).setEntry e f).entries j).refCount =
                ((s.setTimer i .finished).entries j).refCount :=
              setEntry_frame e j Entry.refCount fun _ => rfl
            exact hcount.symm.trans hj
          disconnectTimer := fun j => setEntry_frame (f := f) e j Entry.disconnectTimer fun _ => rfl }
        have htorn := hretire.frame hframe
        refine ⟨fun j hj => ⟨?_, (htorn.armed j hj).2⟩, htorn.fired, htorn.timer⟩
        intro hip
        have hip : (s.timers i).ip = ((s.setTimer i .finished).timers j).ip := Option.some.inj hip
        obtain ⟨-, e', he', hj'⟩ := hretire.armed j hj
        have hee : e' = e := by
          rw [← hip, he] at he'
          exact (Option.some.inj he').symm
        subst hee
        have hij : i = j := Option.some.inj (htimer.symm.trans hj')
        have hj : ((s.setTimer i .finished).timers j).status = .armed := hj
        rw [timers_setTimer, if_pos hij.symm] at hj
        cases hj
      · have hgone : s.log.count (.acquired e) = s.log.count (.released e) := by
          have hlogged := hc.logged e
          have hcount := hc.counted _ e he
          omega
        exact ⟨⟨hgone, _, hdrop, hnow ▸ hdue⟩, hlog⟩

/-- The entry goes, and one found dead is replaced. -/
theorem finishTeardown (h : Timed s) (hc : Counted s) {td : Teardown}
    (htd : s.teardown = some td) : Timed (s.finishTeardown td) := by
  have hnone : ∀ i, (s.timers i).status = .armed → (s.timers i).ip ≠ td.ip := by
    intro i hi hip
    apply (h.armed i hi).1
    rw [htd, hip]
    rfl
  have herase := h.erase td.ip none fun i hi => ⟨hnone i hi, by simp⟩
  unfold Pool.finishTeardown
  dsimp only
  split
  · exact herase.createInstance (hc.erase td.ip none) hnone
  · exact herase

theorem onConnectionDied (h : Timed s) {w : ℕ} {ip : String} (htd : s.teardown = none) :
    Timed (s.onConnectionDied w ip) := by
  have hended := h.frame (setWorker_books (s := s) w .ended).toSameTimers
  unfold Pool.onConnectionDied
  dsimp only
  split
  · exact hended
  · rename_i e he
    split
    · exact hended
    · apply (hended.cancelTimer _).erase
      intro i hi
      refine ⟨hended.not_armed_of_cancelTimer he i hi, ?_⟩
      rw [cancelTimer_teardown]
      have htd' : (s.setWorker w .ended).teardown = none := htd
      rw [htd']
      simp

end Timed

/-! ## Runs -/

/-- A caller that releases by its address alone finds its own entry there, or none. -/
def ReleasesOwn (s : Pool) (a : Time × PoolEvent) : Prop :=
  match a.2 with
  | .release h false => ∀ x, s.holders.get? h = some x →
      ∀ e, s.instances.get? x.ip = some e → e = x.entry
  | _ => True

/-- A caller that gives the last reference of an entry back does so while no callback of an
older timer of the address waits for the lock. -/
def DropsAlone (s : Pool) (a : Time × PoolEvent) : Prop :=
  match a.2 with
  | .release h _ => ∀ x, s.holders.get? h = some x → s.instances.get? x.ip = some x.entry →
      (s.entries x.entry).refCount = 1 →
      ∀ t, (s.timers t).status = .fired → (s.timers t).ip ≠ x.ip
  | _ => True

section Steps

variable {s : Pool}

/-- The events that the books do not depend on. -/
theorem handle_books {now : Time} {e : PoolEvent}
    (he : match e with
      | .check _ | .connect _ | .connectDone _ _ | .disconnect | .workerReady _
      | .workerExits _ _ | .diedRead _ => True
      | _ => False) : SameBooks s (s.handle now e) := by
  have hon : ∀ (h : ℕ) (f : Holder → Pool → Pool),
      (∀ x, s.holders.get? h = some x → SameBooks s (f x s)) → SameBooks s (s.onHolder h f) := by
    intro h f hf
    unfold onHolder
    split
    · exact .refl s
    · exact hf _ ‹_›
  cases e with
  | check h => exact hon h _ fun x hx => check_books hx
  | connect h => exact hon h _ fun x hx => connect_books hx
  | connectDone h timedOut => exact hon h _ fun x hx => connectDone_books hx timedOut
  | disconnect =>
    unfold handle
    dsimp only
    split
    · exact .refl s
    · exact disconnectTorn_books ‹_›
  | workerReady w =>
    exact setConnection_books (s.workers w).entry fun conn => { conn with handshakeDone := true }
  | workerExits w unexpected => exact workerExit_books w unexpected
  | diedRead w => exact diedRead_books w
  | _ => exact he.elim

theorem Counted.step (h : Counted s) {a : Time × PoolEvent} (hown : ReleasesOwn s a) :
    Counted (step s a) := by
  obtain ⟨now, e⟩ := a
  have htick : Counted { s with clock := now } := h.frame { SameCounts.refl s with }
  unfold Pool.step
  cases e with
  | getInstance ip => exact htick.getInstance ip
  | release i guarded =>
    show Counted (onHolder i _ _)
    unfold onHolder
    split
    · exact htick
    · rename_i x hx
      apply Counted.release hx htick
      rintro rfl e he
      exact hown x hx e he
  | finish =>
    unfold handle
    dsimp only
    split
    · exact htick
    · exact htick.finishTeardown _
  | timerFires t => exact htick.frame { SameCounts.refl _ with }
  | timerRuns t => exact htick.delayedDisconnect now t
  | diedRuns w =>
    unfold handle
    dsimp only
    split
    · exact htick.onConnectionDied w _
    · exact htick
  | _ => exact htick.frame (handle_books trivial).toSameCounts

/-- The log grows by what is no teardown. -/
def LogsNoTeardown (s t : Pool) : Prop :=
  ∃ new, t.log = new ++ s.log ∧ ∀ a ∈ new, ∀ e i at_, a ≠ .tornDown e i at_

theorem LogsNoTeardown.graceKept {t : Pool} (h : LogsNoTeardown s t)
    (hlog : Library.Every GraceKept s.log) : Library.Every GraceKept t.log := by
  obtain ⟨new, heq, hnew⟩ := h
  rw [heq]
  apply hlog.append
  rintro post b past rfl
  have hb := hnew b (by simp)
  cases b with
  | tornDown e t at_ => exact absurd rfl (hb e t at_)
  | _ => trivial

theorem LogsNoTeardown.refl {t : Pool} (h : t.log = s.log) : LogsNoTeardown s t :=
  ⟨[], h, by simp⟩

theorem createInstance_logs (ip : String) : LogsNoTeardown s (s.createInstance ip) :=
  ⟨[.acquired s.nextEntry], rfl, by simp⟩

theorem getInstance_logs (ip : String) : LogsNoTeardown s (s.getInstance ip) := by
  unfold Pool.getInstance
  split
  · exact createInstance_logs ip
  · rename_i e _
    dsimp only
    split
    · exact .refl (cancelTimer_log _)
    · refine ⟨[.acquired e], ?_, by simp⟩
      unfold Pool.rejoin
      dsimp only
      split
      · exact congrArg (PoolAct.acquired e :: ·) (cancelTimer_log (s.entries e).disconnectTimer)
      · rfl

theorem release_logs (hc : Counted s) {now : Time} {i : ℕ} {x : Holder} {guarded : Bool}
    (hx : s.holders.get? i = some x)
    (hown : guarded = false → ∀ e, s.instances.get? x.ip = some e → e = x.entry) :
    LogsNoTeardown s (Pool.release now i x guarded s) := by
  rcases Counted.release_cases hx hc now hown with ⟨-, heq⟩ | ⟨-, -, heq⟩ | ⟨-, -, heq⟩
  · exact ⟨[.released x.entry], by rw [heq]; rfl, by simp⟩
  · exact ⟨[.released x.entry], by rw [heq]; rfl, by simp⟩
  · rw [heq]
    set d := ((s.leave i x).dereference x.entry).cancelTimer (s.entries x.entry).disconnectTimer
    refine ⟨[.dropped x.entry d.nextTimer now, .released x.entry], ?_, by simp⟩
    exact congrArg (PoolAct.dropped x.entry d.nextTimer now :: ·) (cancelTimer_log _)

theorem finishTeardown_logs (td : Teardown) : LogsNoTeardown s (s.finishTeardown td) := by
  unfold Pool.finishTeardown
  dsimp only
  split
  · exact createInstance_logs _
  · exact .refl rfl

theorem onConnectionDied_logs (w : ℕ) (ip : String) :
    LogsNoTeardown s (s.onConnectionDied w ip) := by
  unfold Pool.onConnectionDied
  dsimp only
  split
  · exact .refl rfl
  · split
    · exact .refl rfl
    · exact .refl (cancelTimer_log _)

theorem Timed.step (h : Timed s) (hc : Counted s) {a : Time × PoolEvent}
    (hlog : Library.Every GraceKept s.log) (hpossible : s.Possible a) (hown : ReleasesOwn s a)
    (halone : DropsAlone s a) : Timed (step s a) ∧ Library.Every GraceKept (step s a).log := by
  obtain ⟨now, e⟩ := a
  obtain ⟨hclock, hcan⟩ := hpossible
  have htick : Timed { s with clock := now } := h.tick hclock
  have hctick : Counted { s with clock := now } := hc.frame { SameCounts.refl s with }
  have hbooks : ∀ e', SameBooks { s with clock := now } (handle now { s with clock := now } e') →
      Timed (handle now { s with clock := now } e') ∧
        Library.Every GraceKept (handle now { s with clock := now } e').log :=
    fun e' hb => ⟨htick.frame hb.toSameTimers, (LogsNoTeardown.refl hb.log).graceKept hlog⟩
  unfold Pool.step
  cases e with
  | getInstance ip =>
    exact ⟨htick.getInstance hctick ip, (getInstance_logs ip).graceKept hlog⟩
  | release i guarded =>
    show Timed (onHolder i _ _) ∧ Library.Every GraceKept (onHolder i _ _).log
    unfold onHolder
    split
    · exact ⟨htick, hlog⟩
    · rename_i x hx
      have hown' : guarded = false → ∀ e, s.instances.get? x.ip = some e → e = x.entry := by
        rintro rfl e he
        exact hown x hx e he
      exact ⟨htick.release hctick hx hcan.1 hown' (halone x hx),
        (release_logs hctick hx hown').graceKept hlog⟩
  | finish =>
    unfold handle
    dsimp only
    split
    · exact ⟨htick, hlog⟩
    · exact ⟨htick.finishTeardown hctick ‹_›, (finishTeardown_logs _).graceKept hlog⟩
  | timerFires t => exact ⟨htick.timerFires hcan.1 hcan.2, hlog⟩
  | timerRuns t => exact htick.delayedDisconnect hctick rfl hcan.2 hlog
  | diedRuns w =>
    unfold handle
    dsimp only
    split
    · exact ⟨htick.onConnectionDied hcan.1, (onConnectionDied_logs w _).graceKept hlog⟩
    · exact ⟨htick, hlog⟩
  | check i => exact hbooks _ (handle_books trivial)
  | connect i => exact hbooks _ (handle_books trivial)
  | connectDone i timedOut => exact hbooks _ (handle_books trivial)
  | disconnect => exact hbooks _ (handle_books trivial)
  | workerReady w => exact hbooks _ (handle_books trivial)
  | workerExits w unexpected => exact hbooks _ (handle_books trivial)
  | diedRead w => exact hbooks _ (handle_books trivial)

/-- An exit changes no other entry. -/
theorem entries_release (hc : Counted s) {now : Time} {i e : ℕ} {x : Holder} {guarded : Bool}
    (hx : s.holders.get? i = some x) (hown : ReleasesOwn s (now, .release i guarded))
    (he : e ≠ x.entry) : (step s (now, .release i guarded)).entries e = s.entries e := by
  have hctick : Counted { s with clock := now } := hc.frame { SameCounts.refl s with }
  have hown' : guarded = false → ∀ e, s.instances.get? x.ip = some e → e = x.entry := by
    rintro rfl e he
    exact hown x hx e he
  have hstep : step s (now, .release i guarded) =
      Pool.release now i x guarded { s with clock := now } := by
    show onHolder i _ _ = _
    unfold onHolder
    rw [show ({ s with clock := now } : Pool).holders.get? i = some x from hx]
  have hcancel : ∀ (t : Pool) o, (t.cancelTimer o).entries = t.entries := by
    intro t o
    unfold Pool.cancelTimer
    split
    · rfl
    · split
      · rfl
      · rfl
  have hderef : ((Pool.leave i x { s with clock := now }).dereference x.entry).entries e =
      s.entries e := Function.update_of_ne he ..
  rw [hstep]
  rcases Counted.release_cases (s := { s with clock := now }) hx hctick now hown' with
    ⟨-, heq⟩ | ⟨-, -, heq⟩ | ⟨-, -, heq⟩
  · rw [heq]
    rfl
  · rw [heq]
    exact hderef
  · rw [heq, entries_arm, if_neg he, hcancel]
    exact hderef

end Steps

theorem counted_reachable {s : Pool} (h : ReachableWhen ReleasesOwn s) : Counted s := by
  apply Library.Reach.invariant (P := Counted) _ _ h
  · rintro s ⟨now, rfl⟩
    exact ⟨by simp [fresh], by simp [fresh], by simp [fresh], by simp [fresh, holding]⟩
  · intro s a _ hs hok
    exact hs.step hok.2

/-- The state of the books and timers that every run of separate drops keeps. -/
theorem timed_reachable {s : Pool}
    (h : ReachableWhen (fun s a => ReleasesOwn s a ∧ DropsAlone s a) s) :
    Timed s ∧ Library.Every GraceKept s.log := by
  have hboth : Counted s ∧ Timed s ∧ Library.Every GraceKept s.log := by
    apply Library.Reach.invariant
      (P := fun s => Counted s ∧ Timed s ∧ Library.Every GraceKept s.log) _ _ h
    · rintro s ⟨now, rfl⟩
      refine ⟨⟨by simp [fresh], by simp [fresh], by simp [fresh], by simp [fresh, holding]⟩, ?_,
        Library.every_nil⟩
      exact ⟨by simp [fresh], by simp [fresh], by simp [fresh]⟩
    · rintro s a _ ⟨hc, ht, hlog⟩ ⟨hpossible, hown, halone⟩
      exact ⟨hc.step hown, ht.step hc hlog hpossible hown halone⟩
  exact hboth.2

/-- In every run the count of a registered entry is the number of callers that have it, and an
exit changes no entry but the caller's; and where no count falls to zero while a callback of an
older timer waits, an entry is taken down a grace period after its last drop, by its timer. -/
theorem counts_and_grace {s : Pool} (h : ReachableWhen ReleasesOwn s) :
    (∀ ip e, s.instances.get? ip = some e → (s.entries e).refCount = s.holding e) ∧
    (∀ now i x guarded e, s.holders.get? i = some x →
      ReleasesOwn s (now, .release i guarded) → e ≠ x.entry →
      (step s (now, .release i guarded)).entries e = s.entries e) ∧
    (ReachableWhen (fun s a => ReleasesOwn s a ∧ DropsAlone s a) s →
      Library.Every GraceKept s.log) := by
  have hc := counted_reachable h
  exact ⟨hc.counted, fun _ _ _ _ _ hx hown he => entries_release hc hx hown he,
    fun halone => (timed_reachable halone).2⟩

/-- A caller comes, connects and leaves, and its entry's timer fires. -/
def lastCallerLeaves : List (Time × PoolEvent) :=
  [(0, .getInstance "10.0.0.1"), (0, .check 0), (0, .connect 0), (0, .workerReady 0),
    (0, .connectDone 0 false), (0, .release 0 true), (gracePeriod, .timerFires 0)]

/-- The entry of a caller that left is taken down when its grace period is over. -/
theorem counts_and_grace_one_caller :
    let s := Library.run step (fresh 0) (lastCallerLeaves ++ [(gracePeriod, .timerRuns 0)])
    s.log.head? = some (.tornDown 0 0 gracePeriod) ∧
    (∀ ip e, s.instances.get? ip = some e → (s.entries e).refCount = s.holding e) ∧
    Library.Every GraceKept s.log := by
  intro s
  have hown : ReachableWhen ReleasesOwn s := by
    have hstart : ReachableWhen ReleasesOwn (fresh 0) := .start ⟨0, rfl⟩
    apply hstart.run
    exact ⟨⟨by decide, trivial⟩, ⟨by decide, trivial⟩, ⟨by decide, trivial⟩,
      ⟨by decide, trivial⟩, ⟨by decide, trivial⟩, ⟨by decide, trivial⟩, ⟨by decide, trivial⟩,
      ⟨by decide, trivial⟩, trivial⟩
  have halone : ReachableWhen (fun s a => ReleasesOwn s a ∧ DropsAlone s a) s := by
    have hstart : ReachableWhen (fun s a => ReleasesOwn s a ∧ DropsAlone s a) (fresh 0) :=
      .start ⟨0, rfl⟩
    apply hstart.run
    exact ⟨⟨by decide, trivial, trivial⟩, ⟨by decide, trivial, trivial⟩,
      ⟨by decide, trivial, trivial⟩, ⟨by decide, trivial, trivial⟩,
      ⟨by decide, trivial, trivial⟩, ⟨by decide, trivial, fun _ _ _ _ _ ht => by cases ht⟩,
      ⟨by decide, trivial, trivial⟩, ⟨by decide, trivial, trivial⟩, trivial⟩
  exact ⟨by decide, (counts_and_grace hown).1, (counts_and_grace hown).2.2 halone⟩

/-- A run in which another caller comes and leaves before the callback of the timer gets the
lock. -/
def lateCallback : List (Time × PoolEvent) :=
  lastCallerLeaves ++ [(gracePeriod, .getInstance "10.0.0.1"), (gracePeriod, .check 1),
    (gracePeriod, .release 1 true), (gracePeriod, .timerRuns 0)]

/-- The callback of the first timer takes the entry down at the moment of its last drop. -/
theorem late_callback_tears_down :
    Reachable (Library.run step (fresh 0) lateCallback) ∧
    (Library.run step (fresh 0) lateCallback).log.head? = some (.tornDown 0 0 gracePeriod) ∧
    lastDrop 0 (Library.run step (fresh 0) lateCallback).log = some (1, gracePeriod) ∧
    ¬ Library.Every GraceKept (Library.run step (fresh 0) lateCallback).log := by
  have hstart : Reachable (fresh 0) := .start ⟨0, rfl⟩
  refine ⟨hstart.run lateCallback (by decide), by decide, by decide, ?_⟩
  have hlog : (Library.run step (fresh 0) lateCallback).log = .tornDown 0 0 gracePeriod ::
      (Library.run step (fresh 0) lateCallback).log.tail := by decide
  have hlast : lastDrop 0 (Library.run step (fresh 0) lateCallback).log.tail =
      some (1, gracePeriod) := by decide
  intro h
  rw [hlog] at h
  obtain ⟨-, since, hdrop, -⟩ := h.1
  rw [hlast] at hdrop
  cases hdrop

end Pool

end Bmdwire
