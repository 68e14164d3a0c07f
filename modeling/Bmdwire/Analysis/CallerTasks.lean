import Bmdwire.Interface.CallerNotes

/-!
# Whose task is whose

Every call queues one task of its own, with its own target, after it began (`Tasks`). While
no other task with the target of an open call is queued (`Alone`), a success that names the
target is of the call's own task (`Alone.told`): matching by store and slot is then matching by
task.
-/

set_option autoImplicit false

namespace Bmdwire

/-- The task is one the lane has made, with the target, or the one that handling the event
will make. -/
def Lane.Makes (lane : Lane) (event : Option LaneEvent) (id : TaskId)
    (target : TransferKind × Store × Slot) : Prop :=
  id < lane.nextTask ∧ (lane.tasks id).target = target ∨
    ∃ e task, event = some e ∧ Lane.newTask e = some task ∧ id = lane.nextTask ∧
      task.target = target

/-- What a call's task and its start have to do with the lane. -/
structure Call.Tasked (lane : Lane) (event : Option LaneEvent) (c : Call) : Prop where
  made : ∀ id, c.task? = some id → lane.Makes event id c.kind.target
  began : ∃ new, lane.log = new ++ c.began
  earlier : ∀ r, lastRequest c.began = some r → r.1 < c.task?.getD lane.nextTask

namespace Callers

/-- What is true of the calls and their tasks. The lane is about to handle `event`, for which
a call may have been put down as waiting already. -/
structure Tasks (s : Callers) (event : Option LaneEvent) : Prop where
  lane : s.lane.Reachable
  unmade : ∀ i, s.nextCall ≤ i → s.calls i = .unmade
  tasked : ∀ i, (s.calls i).Tasked s.lane event
  own : ∀ i j id, (s.calls i).task? = some id → (s.calls j).task? = some id → i = j
  serial : ∀ i, (s.calls i).kind.target.1 = .download → (s.calls i).isOpen = true →
    s.serial = some i

theorem Tasks.wf {s : Callers} {event : Option LaneEvent} (h : s.Tasks event) : s.lane.Wf :=
  Lane.wf_reachableWhen h.lane

/-- A call after a step of the lane differs in its notes. -/
theorem laneStep_same (s : Callers) (a : Env × LaneEvent) (i : ℕ) :
    (s.calls i).Same ((s.laneStep a).calls i) :=
  Call.hears_same _ _

/-- A step of the lane makes the task its event was put down for. -/
theorem Tasks.laneStep {s : Callers} {a : Env × LaneEvent} (h : s.Tasks (some a.2))
    (ha : s.lane.Possible a) : (s.laneStep a).Tasks none := by
  have hwf := h.wf
  obtain ⟨htarget, hnew, new, hlog, -, -⟩ := Lane.step_tells hwf a
  have hnext := Lane.step_nextTask hwf a
  have htasked : ∀ i, ((s.laneStep a).calls i).Tasked (s.lane.step a) none := by
    intro i
    have hsame := s.laneStep_same a i
    have hi := h.tasked i
    refine ⟨fun id hid => .inl ?_, ?_, ?_⟩
    · rw [hsame.task?] at hid
      rw [hsame.kind]
      rcases hi.made id hid with ⟨hlt, heq⟩ | ⟨e, task, he, htask, rfl, heq⟩
      · exact ⟨hlt.trans_le (Lane.here_step hwf a id).1, (htarget id hlt).trans heq⟩
      · obtain rfl := Option.some.inj he
        refine ⟨?_, (hnew task htask).trans heq⟩
        rw [hnext, htask]
        exact Nat.lt_succ_self _
    · obtain ⟨old, hold⟩ := hi.began
      refine ⟨new ++ .recv a.1.now a.2 :: old, ?_⟩
      rw [hlog, hsame.began, hold]
      simp
    · intro r hr
      rw [hsame.began] at hr
      rw [hsame.task?]
      have hlt := hi.earlier r hr
      cases htask : (s.calls i).task? with
      | none =>
        rw [htask] at hlt
        exact hlt.trans_le (Lane.here_step hwf a 0).1
      | some id =>
        rw [htask] at hlt
        exact hlt
  constructor
  case lane => exact .next h.lane ⟨ha, trivial⟩
  case unmade =>
    intro i hi
    have hnone : ∀ ns : List Notice, ns.foldl Call.hear .unmade = .unmade := by
      intro ns
      induction ns with
      | nil => rfl
      | cons n ns ih => exact ih
    show (s.lane.raised (s.lane.step a)).foldl Call.hear (s.calls i) = .unmade
    rw [h.unmade i hi, hnone]
  case tasked => exact htasked
  case own =>
    intro i j id hi hj
    rw [(s.laneStep_same a i).task?] at hi
    rw [(s.laneStep_same a j).task?] at hj
    exact h.own i j id hi hj
  case serial =>
    intro i hkind hopen
    rw [(s.laneStep_same a i).kind] at hkind
    rw [(s.laneStep_same a i).isOpen] at hopen
    exact h.serial i hkind hopen

/-- What a plain state has, a state about to handle any event has. -/
theorem Tasks.before {s : Callers} (h : s.Tasks none) (event : Option LaneEvent) :
    s.Tasks event where
  lane := h.lane
  unmade := h.unmade
  tasked i := by
    refine ⟨fun id hid => ?_, (h.tasked i).began, (h.tasked i).earlier⟩
    rcases (h.tasked i).made id hid with hmade | ⟨_, _, hnone, -⟩
    · exact .inl hmade
    · cases hnone
  own := h.own
  serial := h.serial

/-- An open call has been made. -/
theorem Tasks.lt_nextCall {s : Callers} {event : Option LaneEvent} (h : s.Tasks event) {i : ℕ}
    (hopen : (s.calls i).isOpen = true) : i < s.nextCall := by
  by_contra hle
  rw [h.unmade i (not_lt.mp hle)] at hopen
  cases hopen

/-- 'disconnected' leaves the tasks alone. -/
theorem Tasks.lose {s : Callers} {event : Option LaneEvent} (h : s.Tasks event) :
    Tasks { s with calls := fun i => (s.calls i).lose } event where
  lane := h.lane
  unmade i hi := by
    show (s.calls i).lose = .unmade
    rw [h.unmade i hi]
    rfl
  tasked i := by
    have hsame := (s.calls i).lose_same
    refine ⟨fun id hid => ?_, ?_, fun r hr => ?_⟩
    · rw [hsame.kind]
      exact (h.tasked i).made id (hsame.task? ▸ hid)
    · rw [hsame.began]
      exact (h.tasked i).began
    · rw [hsame.task?]
      exact (h.tasked i).earlier r (hsame.began ▸ hr)
  own i j id hi hj := by
    rw [(s.calls i).lose_same.task?] at hi
    rw [(s.calls j).lose_same.task?] at hj
    exact h.own i j id hi hj
  serial i hkind hopen := by
    rw [(s.calls i).lose_same.kind] at hkind
    rw [(s.calls i).lose_same.isOpen] at hopen
    exact h.serial i hkind hopen

/-- One call is changed. -/
theorem setCall_calls (s : Callers) (i j : ℕ) (c : Call) :
    (s.setCall i c).calls j = if j = i then c else s.calls j := by
  show Function.update s.calls i c j = _
  rw [Function.update_apply]

/-- A call that moves on keeps its task. -/
theorem Tasks.moved {s : Callers} {event : Option LaneEvent} (h : s.Tasks event) {i : ℕ}
    {c : Call} (hopen : (s.calls i).isOpen = true) (hc : (s.calls i).Moved c) :
    (s.setCall i c).Tasks event := by
  have hcalls := s.setCall_calls i (c := c)
  have htask : ∀ j, ((s.setCall i c).calls j).task? = (s.calls j).task? := by
    intro j
    rw [hcalls j]
    split
    · rename_i hj
      rw [hj, hc.task?]
    · rfl
  constructor
  case lane => exact h.lane
  case unmade =>
    intro j hj
    rw [hcalls j, if_neg, h.unmade j hj]
    rintro rfl
    exact absurd (h.lt_nextCall hopen) (not_lt.mpr hj)
  case tasked =>
    intro j
    rw [hcalls j]
    split
    · rename_i hj
      have hi := h.tasked i
      refine ⟨fun id hid => ?_, ?_, fun r hr => ?_⟩
      · rw [hc.kind]
        exact hi.made id (hc.task? ▸ hid)
      · rw [hc.began]
        exact hi.began
      · rw [hc.task?]
        exact hi.earlier r (hc.began ▸ hr)
    · exact h.tasked j
  case own =>
    intro j k id hj hk
    rw [htask] at hj hk
    exact h.own j k id hj hk
  case serial =>
    intro j hkind hj
    rw [hcalls j] at hkind hj
    split at hkind
    · rename_i heq
      rw [if_pos heq] at hj
      rw [heq]
      exact h.serial i (hc.kind ▸ hkind) (hc.isOpen hj)
    · rename_i hne
      rw [if_neg hne] at hj
      exact h.serial j hkind hj

theorem unlock_calls (s : Callers) (i : ℕ) : (s.unlock i).calls = s.calls := by
  unfold Callers.unlock
  split <;> rfl

theorem unlock_lane (s : Callers) (i : ℕ) : (s.unlock i).lane = s.lane := by
  unfold Callers.unlock
  split <;> rfl

/-- A call that is over gives back a lock that no other call holds. -/
theorem Tasks.unlock {s : Callers} {event : Option LaneEvent} (h : s.Tasks event) (i : ℕ) :
    (s.unlock i).Tasks event := by
  unfold Callers.unlock
  split
  · exact h
  · rename_i hover
    refine ⟨h.lane, h.unmade, h.tasked, h.own, fun j hkind hj => ?_⟩
    have hserial := h.serial j hkind hj
    show (if s.serial = some i then none else s.serial) = some j
    rw [if_neg, hserial]
    rw [hserial]
    rintro ⟨rfl⟩
    exact hover hj

/-- A new call has no task yet. -/
theorem Tasks.beginCall {s : Callers} (h : s.Tasks none) {kind : CallKind}
    (hserial : kind.target.1 = .download → s.serial = none) : (s.beginCall kind).Tasks none := by
  have hcalls : ∀ j, (s.beginCall kind).calls j =
      if j = s.nextCall then { kind := kind, began := s.lane.log } else s.calls j := fun j => by
    show Function.update s.calls s.nextCall _ j = _
    rw [Function.update_apply]
  constructor
  case lane => exact h.lane
  case unmade =>
    intro j hj
    have hlt : s.nextCall < j := hj
    rw [hcalls j, if_neg hlt.ne', h.unmade j hlt.le]
  case tasked =>
    intro j
    rw [hcalls j]
    split
    · refine ⟨nofun, ⟨[], rfl⟩, fun r hr => ?_⟩
      exact Lane.requests_made h.lane hr
    · exact h.tasked j
  case own =>
    intro j k id hj hk
    rw [hcalls] at hj hk
    split at hj
    · cases hj
    · split at hk
      · cases hk
      · exact h.own j k id hj hk
  case serial =>
    intro j hkind hj
    rw [hcalls] at hkind hj
    show (if kind.target.1 = .download then some s.nextCall else s.serial) = some j
    split at hkind
    · rename_i heq
      rw [if_pos hkind, heq]
    · rename_i hne
      rw [if_neg hne] at hj
      have hheld := h.serial j hkind hj
      rw [if_neg, hheld]
      intro hdownload
      rw [hserial hdownload] at hheld
      cases hheld

/-- The task a call queues is of the call's target. -/
theorem queues_newTask (kind : CallKind) :
    ∃ task, Lane.newTask kind.queues = some task ∧ task.target = kind.target := by
  cases kind <;> exact ⟨_, rfl, rfl⟩

/-- The call is put down as waiting for the task it is about to queue. -/
theorem Tasks.enrol {s : Callers} (h : s.Tasks none) {i : ℕ}
    (hi : (s.calls i).phase = .listening) :
    (s.setCall i { s.calls i with phase := .waiting s.lane.nextTask }).Tasks
      (some (s.calls i).kind.queues) := by
  have hcalls := s.setCall_calls i (c := { s.calls i with phase := .waiting s.lane.nextTask })
  have hopen : (s.calls i).isOpen = true := by rw [Call.isOpen, hi]
  have hnone : (s.calls i).task? = none := by rw [Call.task?, hi]
  have hmade : ∀ j id, (s.calls j).task? = some id → id < s.lane.nextTask := by
    intro j id hid
    rcases (h.tasked j).made id hid with ⟨hlt, -⟩ | ⟨_, _, hevent, -⟩
    · exact hlt
    · cases hevent
  constructor
  case lane => exact h.lane
  case unmade =>
    intro j hj
    rw [hcalls j, if_neg, h.unmade j hj]
    rintro rfl
    exact absurd (h.lt_nextCall hopen) (not_lt.mpr hj)
  case tasked =>
    intro j
    rw [hcalls j]
    split
    · obtain ⟨task, htask, htarget⟩ := queues_newTask (s.calls i).kind
      refine ⟨fun id hid => .inr ⟨_, task, rfl, htask, ?_, htarget⟩, (h.tasked i).began, ?_⟩
      · exact (Option.some.inj hid).symm
      · intro r hr
        have := (h.tasked i).earlier r hr
        rw [hnone] at this
        exact this
    · exact (h.before _).tasked j
  case own =>
    intro j k id hj hk
    rw [hcalls] at hj hk
    split at hj
    · rename_i hji
      split at hk
      · rename_i hki
        rw [hji, hki]
      · obtain rfl := Option.some.inj hj
        exact absurd (hmade k _ hk) (Nat.lt_irrefl _)
    · split at hk
      · obtain rfl := Option.some.inj hk
        exact absurd (hmade j _ hj) (Nat.lt_irrefl _)
      · exact h.own j k id hj hk
  case serial =>
    intro j hkind hj
    rw [hcalls] at hkind hj
    split at hkind
    · rename_i hji
      rw [hji]
      exact h.serial i hkind hopen
    · rename_i hne
      rw [if_neg hne] at hj
      exact h.serial j hkind hj

/-! ## Steps -/

/-- A call's task keeps the lane's promise to `dequeue_clear`. -/
theorem Tasks.possible_dequeue {s : Callers} (h : s.Tasks none) {env : Env}
    (hclock : s.lane.clock ≤ env.now) {i : ℕ} {id : TaskId}
    (hid : (s.calls i).task? = some id) (hkind : (s.calls i).kind.target.1 = .clear) :
    s.lane.Possible (env, .dequeueClear id) := by
  rcases (h.tasked i).made id hid with ⟨hlt, htarget⟩ | ⟨_, _, hevent, -⟩
  · refine ⟨hclock, hlt, ?_⟩
    rw [← hkind, ← htarget]
    rfl
  · cases hevent

theorem possible_of_outside {s : Lane} {env : Env} {e : LaneEvent} (hclock : s.clock ≤ env.now)
    (he : ∀ id, e ≠ .dequeueClear id) : s.Possible (env, e) := by
  cases e with
  | dequeueClear id => exact absurd rfl (he id)
  | _ => exact ⟨hclock, trivial⟩

theorem queues_ne_dequeue (kind : CallKind) (id : TaskId) : kind.queues ≠ .dequeueClear id := by
  cases kind <;> nofun

/-- The lane's part in cleaning up: the clear of a clear call is dequeued, any other call
aborts the transfers. -/
theorem cleanUp_eq {s : Callers} (env : Env) {i : ℕ} (h : (s.calls i).isCleaning = true) :
    (∃ id slot, (s.calls i).phase = .cleaning id ∧ (s.calls i).kind = .clearStill slot ∧
      s.cleanUp env i = (s.laneStep (env, .dequeueClear id)).setCall i
        (((s.laneStep (env, .dequeueClear id)).calls i).finish
          (if id ∈ s.lane.queue (s.lane.tasks id).store then .timedOut else .returned none))) ∨
    (s.calls i).kind.target.1 ≠ .clear ∧
      s.cleanUp env i = ((s.laneStep (env, .abortTransfers)).setCall i
        (((s.laneStep (env, .abortTransfers)).calls i).finish .timedOut)).unlock i := by
  unfold Call.isCleaning at h
  split at h
  · rename_i id hphase
    cases hkind : (s.calls i).kind with
    | clearStill slot =>
      refine .inl ⟨id, slot, hphase, rfl, ?_⟩
      simp only [cleanUp, hkind, hphase]
    | uploadMacroBytecode slot payload =>
      refine .inr ⟨nofun, ?_⟩
      simp only [cleanUp, hkind, hphase]
    | downloadTransfer store index =>
      refine .inr ⟨nofun, ?_⟩
      simp only [cleanUp, hkind, hphase]
  · cases h

/-- Every step keeps each call's task its own. -/
theorem Tasks.step {s : Callers} {a : Env × CallerEvent} (h : s.Tasks none)
    (ha : s.Possible a) : (s.step a).Tasks none := by
  obtain ⟨env, e⟩ := a
  obtain ⟨hclock, ha⟩ := ha
  have hlane : ∀ {t : Callers} {e : LaneEvent}, t.lane = s.lane → t.Tasks (some e) →
      (∀ id, e ≠ .dequeueClear id) → (t.laneStep (env, e)).Tasks none := by
    intro t e hst ht he
    exact ht.laneStep (possible_of_outside (hst ▸ hclock) he)
  cases e with
  | lane e =>
    by_cases he : e = .resetTransferLane
    · subst he
      exact hlane (t := { s with calls := fun i => (s.calls i).lose }) rfl (h.before _).lose (by intro _ h; cases h)
    · have hstep : s.step (env, .lane e) = s.laneStep (env, e) := by
        cases e <;> first | rfl | exact absurd rfl he
      rw [hstep]
      refine hlane rfl (h.before _) ?_
      rintro id rfl
      cases ha
  | begin kind => exact h.beginCall ha
  | queue i => exact hlane rfl (h.enrol ha) (queues_ne_dequeue _)
  | wake i =>
    have hopen := Call.isOpen_of_isWaiting ha
    exact (h.moved hopen (Call.decide_moved _ hopen)).unlock i
  | cleanUp i =>
    have hopen := Call.isOpen_of_isCleaning ha
    have hafter : ∀ a : Env × LaneEvent, ((s.laneStep a).calls i).isOpen = true := fun a => by
      rw [(s.laneStep_same a i).isOpen]
      exact hopen
    rcases cleanUp_eq env ha with ⟨id, slot, hphase, hkind, heq⟩ | ⟨-, heq⟩
    · have hid : (s.calls i).task? = some id := by rw [Call.task?, hphase]
      have hclear : (s.calls i).kind.target.1 = .clear := by rw [hkind]; rfl
      have ht := (h.before (some (.dequeueClear id))).laneStep (a := (env, .dequeueClear id))
        (h.possible_dequeue hclock hid hclear)
      show (s.cleanUp env i).Tasks none
      rw [heq]
      exact ht.moved (hafter _) (Call.finish_moved ..)
    · have ht := hlane (e := .abortTransfers) rfl (h.before _) (by intro _ h; cases h)
      show (s.cleanUp env i).Tasks none
      rw [heq]
      exact (ht.moved (hafter _) (Call.finish_moved ..)).unlock i

theorem tasks_reachableWhen {ok : Callers → Env × CallerEvent → Prop} {s : Callers}
    (h : ReachableWhen ok s) : s.Tasks none := by
  refine Library.Reach.invariant (P := fun s => s.Tasks none) ?_
    (fun s a _ hs ha => hs.step ha.1) h
  rintro s ⟨tid, hlow, hhigh, rfl⟩
  exact ⟨.start ⟨tid, hlow, hhigh, rfl⟩, fun _ _ => rfl, fun _ => ⟨nofun, ⟨[], rfl⟩, nofun⟩,
    fun _ _ _ => nofun, fun _ _ => nofun⟩

/-- A step is a step of the lane, or leaves the lane alone. -/
theorem step_lane {s : Callers} {a : Env × CallerEvent} (h : s.Tasks none) (ha : s.Possible a) :
    (s.step a).lane = s.lane ∨ ∃ e, s.lane.Possible (a.1, e) ∧
      (s.step a).lane = s.lane.step (a.1, e) := by
  obtain ⟨env, e⟩ := a
  obtain ⟨hclock, ha⟩ := ha
  cases e with
  | lane e =>
    refine .inr ⟨e, possible_of_outside hclock ?_, ?_⟩
    · rintro id rfl
      cases ha
    · cases e <;> rfl
  | begin kind => exact .inl rfl
  | queue i => exact .inr ⟨_, possible_of_outside hclock (queues_ne_dequeue _), rfl⟩
  | wake i => exact .inl (unlock_lane ..)
  | cleanUp i =>
    right
    have hstep : s.step (env, .cleanUp i) = s.cleanUp env i := rfl
    rw [hstep]
    rcases cleanUp_eq env ha with ⟨id, slot, hphase, hkind, heq⟩ | ⟨-, heq⟩
    · refine ⟨.dequeueClear id, h.possible_dequeue (i := i) hclock ?_ ?_, by rw [heq]; rfl⟩
      · rw [Call.task?, hphase]
      · rw [hkind]
        rfl
    · exact ⟨.abortTransfers, possible_of_outside hclock (by intro _ h; cases h), by rw [heq, unlock_lane]; rfl⟩

/-- A call moves on in its own steps only. -/
theorem step_same (s : Callers) (a : Env × CallerEvent) (i : ℕ) :
    (s.calls i).Same ((s.step a).calls i) ∨ a.2 = .queue i ∨ a.2 = .wake i ∨ a.2 = .cleanUp i ∨
      ∃ kind, a.2 = .begin kind ∧ i = s.nextCall := by
  obtain ⟨env, e⟩ := a
  have hset : ∀ {t : Callers} {j : ℕ} {c : Call}, (s.calls i).Same (t.calls i) → i ≠ j →
      (s.calls i).Same ((t.setCall j c).calls i) := by
    intro t j c ht hne
    rw [setCall_calls, if_neg hne]
    exact ht
  cases e with
  | lane e =>
    left
    by_cases he : e = .resetTransferLane
    · subst he
      exact (s.calls i).lose_same.trans
        (laneStep_same { s with calls := fun i => (s.calls i).lose } _ i)
    · have hstep : s.step (env, .lane e) = s.laneStep (env, e) := by
        cases e <;> first | rfl | exact absurd rfl he
      rw [hstep]
      exact s.laneStep_same _ i
  | begin kind =>
    by_cases hi : i = s.nextCall
    · exact .inr (.inr (.inr (.inr ⟨kind, rfl, hi⟩)))
    · left
      show (s.calls i).Same (Function.update s.calls s.nextCall _ i)
      rw [Function.update_of_ne hi]
      exact .refl _
  | queue j =>
    by_cases hi : i = j
    · exact .inr (.inl (by rw [hi]))
    · exact .inl ((hset (.refl _) hi).trans (laneStep_same _ _ i))
  | wake j =>
    by_cases hi : i = j
    · exact .inr (.inr (.inl (by rw [hi])))
    · left
      show (s.calls i).Same (((s.setCall j (s.calls j).decide).unlock j).calls i)
      rw [unlock_calls]
      exact hset (.refl _) hi
  | cleanUp j =>
    by_cases hi : i = j
    · exact .inr (.inr (.inr (.inl (by rw [hi]))))
    · left
      show (s.calls i).Same ((s.cleanUp env j).calls i)
      unfold cleanUp
      split
      · exact hset (s.laneStep_same _ i) hi
      · rw [unlock_calls]
        exact hset (s.laneStep_same _ i) hi

/-! ## Matching by target -/

/-- The task of the call is queued. -/
def taskQueued (s : Callers) (i : ℕ) : Bool := (s.calls i).task?.any fun id => id ∈ s.lane.queued

theorem not_mem_queued {s : Callers} {i : ℕ} {id : TaskId} (h : s.taskQueued i = false)
    (hid : (s.calls i).task? = some id) : id ∉ s.lane.queued := by
  simpa [taskQueued, hid] using h

/-- Nobody is about to move what the target names: no open call, and no queued task. -/
def FreeFor (s : Callers) (target : TransferKind × Store × Slot) : Prop :=
  (∀ i < s.nextCall, (s.calls i).isOpen = true → (s.calls i).kind.target ≠ target) ∧
    ∀ id ∈ s.lane.queued, (s.lane.tasks id).target ≠ target

instance FreeFor.decidable (s : Callers) (target : TransferKind × Store × Slot) :
    Decidable (s.FreeFor target) :=
  inferInstanceAs (Decidable ((∀ i < s.nextCall, (s.calls i).isOpen = true →
    (s.calls i).kind.target ≠ target) ∧ ∀ id ∈ s.lane.queued, (s.lane.tasks id).target ≠ target))

/-- The open calls of a kind have targets of their own, and no other task with such a target
is queued. -/
structure Alone (k : TransferKind) (s : Callers) : Prop where
  sole : ∀ i id, (s.calls i).kind.target.1 = k → (s.calls i).isOpen = true →
    id ∈ s.lane.queued → (s.lane.tasks id).target = (s.calls i).kind.target →
    (s.calls i).task? = some id
  apart : ∀ i j, (s.calls i).kind.target.1 = k → (s.calls i).isOpen = true →
    (s.calls j).isOpen = true → (s.calls i).kind.target = (s.calls j).kind.target → i = j

/-- A task that the event creates with the target of an open call of the kind is that call's. -/
def CreatesOwn (k : TransferKind) (s : Callers) (e : LaneEvent) : Prop :=
  ∀ task, Lane.newTask e = some task → ∀ i, (s.calls i).kind.target.1 = k →
    (s.calls i).isOpen = true → (s.calls i).kind.target = task.target →
    (s.calls i).task? = some s.lane.nextTask

section Alone

variable {k : TransferKind} {s : Callers} {a : Env × LaneEvent}

/-- A task queued before a step or created in it, with the target of an open call, is the
call's own. -/
theorem Alone.own (h : s.Alone k) (hs : s.Tasks (some a.2)) (hown : s.CreatesOwn k a.2) {i : ℕ}
    {id : TaskId} (hk : (s.calls i).kind.target.1 = k) (hopen : (s.calls i).isOpen = true)
    (hid : s.lane.Pending a.2 id)
    (htarget : ((s.lane.step a).tasks id).target = (s.calls i).kind.target) :
    (s.calls i).task? = some id := by
  obtain ⟨hold, hnew, -⟩ := Lane.step_tells hs.wf a
  rcases hid with hq | ⟨hsome, rfl⟩
  · rw [hold id (Lane.lt_nextTask_of_queued hs.wf hq)] at htarget
    exact h.sole i id hk hopen hq htarget
  · obtain ⟨task, htask⟩ := Option.isSome_iff_exists.mp hsome
    rw [hnew task htask] at htarget
    exact hown task htask i hk hopen htarget.symm

/-- A success that names the target of an open call is of the call's own task. -/
theorem Alone.told (h : s.Alone k) (hs : s.Tasks (some a.2)) (hown : s.CreatesOwn k a.2) {i : ℕ}
    (hk : (s.calls i).kind.target.1 = k) (hopen : (s.calls i).isOpen = true) {n : Notice}
    {id : TaskId} {new : List Act} (hlog : (s.lane.step a).log = new ++ s.lane.log)
    (hn : .notice n ∈ new) (hid : n.success? = some (id, (s.calls i).kind.target)) :
    (s.calls i).task? = some id := by
  have hleaves := Lane.said_leaves hs.wf hlog hn (Lane.outcome?_of_success? hid)
  obtain ⟨-, -, new', hlog', -, htells⟩ := Lane.step_tells hs.wf a
  have hnew : new = new' ++ [.recv a.1.now a.2] := by
    have heq : new ++ s.lane.log = (new' ++ [.recv a.1.now a.2]) ++ s.lane.log := by
      rw [← hlog, hlog']
      simp
    exact List.append_cancel_right heq
  have hn' : .notice n ∈ new' := by
    rw [hnew] at hn
    rcases List.mem_append.mp hn with hn | hn
    · exact hn
    · cases List.mem_singleton.mp hn
  exact h.own hs hown hk hopen hleaves.2.2 ((htells n hn').target hid)

/-- A step of the lane keeps the targets apart. -/
theorem Alone.laneStep (h : s.Alone k) (hs : s.Tasks (some a.2)) (hown : s.CreatesOwn k a.2) :
    (s.laneStep a).Alone k where
  sole i id hk hopen hq htarget := by
    have hsame := s.laneStep_same a i
    rw [hsame.kind] at hk htarget
    rw [hsame.isOpen] at hopen
    rw [hsame.task?]
    exact h.own hs hown hk hopen (Lane.queued_step hs.wf hq) htarget
  apart i j hk hi hj htarget := by
    rw [(s.laneStep_same a i).kind] at hk htarget
    rw [(s.laneStep_same a i).isOpen] at hi
    rw [(s.laneStep_same a j).isOpen] at hj
    rw [(s.laneStep_same a j).kind] at htarget
    exact h.apart i j hk hi hj htarget

/-- 'disconnected' leaves the targets apart. -/
theorem Alone.lose (h : s.Alone k) : Alone k { s with calls := fun i => (s.calls i).lose } where
  sole i id hk hopen hq htarget := by
    have hsame := (s.calls i).lose_same
    rw [hsame.kind] at hk htarget
    rw [hsame.isOpen] at hopen
    exact hsame.task?.trans (h.sole i id hk hopen hq htarget)
  apart i j hk hi hj htarget := by
    rw [(s.calls i).lose_same.kind] at hk htarget
    rw [(s.calls i).lose_same.isOpen] at hi
    rw [(s.calls j).lose_same.isOpen] at hj
    rw [(s.calls j).lose_same.kind] at htarget
    exact h.apart i j hk hi hj htarget

/-- A call that moves on keeps the targets apart. -/
theorem Alone.moved (h : s.Alone k) {i : ℕ} {c : Call} (hc : (s.calls i).Moved c) :
    (s.setCall i c).Alone k := by
  have hmoved : ∀ j, (s.calls j).Moved ((s.setCall i c).calls j) := by
    intro j
    rw [setCall_calls]
    split
    · rename_i hj
      rw [hj]
      exact hc
    · exact ⟨rfl, rfl, rfl, id⟩
  constructor
  case sole =>
    intro j id hk hopen hq htarget
    rw [(hmoved j).kind] at hk htarget
    rw [(hmoved j).task?]
    exact h.sole j id hk ((hmoved j).isOpen hopen) hq htarget
  case apart =>
    intro j l hk hj hl htarget
    rw [(hmoved j).kind] at hk htarget
    rw [(hmoved l).kind] at htarget
    exact h.apart j l hk ((hmoved j).isOpen hj) ((hmoved l).isOpen hl) htarget

theorem Alone.unlock (h : s.Alone k) (i : ℕ) : (s.unlock i).Alone k := by
  unfold Callers.unlock
  split
  · exact h
  · exact ⟨h.sole, h.apart⟩

/-- A call that begins with its target free keeps the targets apart. -/
theorem Alone.beginCall (h : s.Alone k) (hs : s.Tasks none) {kind : CallKind}
    (hfree : kind.target.1 = k → s.FreeFor kind.target) : (s.beginCall kind).Alone k := by
  have hcalls : ∀ j, (s.beginCall kind).calls j =
      if j = s.nextCall then { kind := kind, began := s.lane.log } else s.calls j := fun j => by
    show Function.update s.calls s.nextCall _ j = _
    rw [Function.update_apply]
  have hother : kind.target.1 = k → ∀ j, (s.calls j).isOpen = true →
      (s.calls j).kind.target ≠ kind.target := fun hk j hj =>
    (hfree hk).1 j (hs.lt_nextCall hj) hj
  constructor
  case sole =>
    intro i id hk hopen hq htarget
    rw [hcalls] at hk hopen htarget ⊢
    split
    · rename_i hi
      rw [if_pos hi] at hk htarget
      exact absurd htarget ((hfree hk).2 id hq)
    · rename_i hi
      rw [if_neg hi] at hk hopen htarget
      exact h.sole i id hk hopen hq htarget
  case apart =>
    intro i j hk hi hj htarget
    rw [hcalls] at hk hi hj htarget
    rw [hcalls] at htarget
    split at hk
    · rename_i hinew
      rw [if_pos hinew] at htarget
      by_cases hjnew : j = s.nextCall
      · rw [hinew, hjnew]
      · rw [if_neg hjnew] at hj htarget
        exact absurd htarget.symm (hother hk j hj)
    · rename_i hiold
      rw [if_neg hiold] at hi htarget
      by_cases hjnew : j = s.nextCall
      · rw [if_pos hjnew] at htarget
        exact absurd htarget (hother (by rw [← htarget]; exact hk) i hi)
      · rw [if_neg hjnew] at hj htarget
        exact h.apart i j hk hi hj htarget

/-- A call put down as waiting keeps the targets apart, and is the one its task is for. -/
theorem Alone.enrol (h : s.Alone k) {i : ℕ} (hi : (s.calls i).phase = .listening) :
    (s.setCall i { s.calls i with phase := .waiting s.lane.nextTask }).Alone k ∧
      (s.setCall i { s.calls i with phase := .waiting s.lane.nextTask }).CreatesOwn k
        (s.calls i).kind.queues := by
  have hcalls := s.setCall_calls i (c := { s.calls i with phase := .waiting s.lane.nextTask })
  have hopen : (s.calls i).isOpen = true := by rw [Call.isOpen, hi]
  have hkind : ∀ j, ((s.setCall i { s.calls i with
      phase := .waiting s.lane.nextTask }).calls j).kind = (s.calls j).kind := by
    intro j
    rw [hcalls j]
    split
    · rename_i hj
      rw [hj]
    · rfl
  have hopens : ∀ j, ((s.setCall i { s.calls i with
      phase := .waiting s.lane.nextTask }).calls j).isOpen = (s.calls j).isOpen := by
    intro j
    rw [hcalls j]
    split
    · rename_i hj
      rw [hj, hopen]
      rfl
    · rfl
  refine ⟨⟨fun j id hk hj hq htarget => ?_, fun j l hk hj hl htarget => ?_⟩, ?_⟩
  · rw [hkind] at hk htarget
    rw [hopens] at hj
    have hold := h.sole j id hk hj hq htarget
    rw [hcalls j]
    split
    · rename_i hji
      rw [hji, Call.task?, hi] at hold
      cases hold
    · exact hold
  · rw [hkind] at hk htarget
    rw [hopens] at hj hl
    rw [hkind] at htarget
    exact h.apart j l hk hj hl htarget
  · intro task htask j hk hj htarget
    obtain ⟨task', htask', htarget'⟩ := queues_newTask (s.calls i).kind
    obtain rfl : task = task' := Option.some.inj (htask.symm.trans htask')
    rw [hkind] at hk htarget
    rw [hopens] at hj
    have hji : j = i := h.apart j i hk hj hopen (htarget.trans htarget')
    rw [hcalls j, if_pos hji]
    rfl

/-- The events that no call makes create no task with a call's target. -/
theorem createsOwn_outside {e : LaneEvent} (he : outside e = true) : s.CreatesOwn k e := by
  intro task htask i _ _ htarget
  exfalso
  cases e with
  | upload store index payload =>
    obtain rfl := Option.some.inj htask
    cases hkind : (s.calls i).kind with
    | uploadMacroBytecode slot payload =>
      rw [hkind] at htarget
      have hstore : macroStore = store := congrArg (·.2.1) htarget
      simp [outside, ← hstore] at he
    | _ =>
      rw [hkind] at htarget
      cases htarget
  | download | queueClear => cases he
  | _ => cases htask

theorem createsOwn_of_none {e : LaneEvent} (he : Lane.newTask e = none) : s.CreatesOwn k e := by
  intro task htask
  rw [he] at htask
  cases htask

end Alone

/-- Before any call there is no target to keep apart. -/
theorem alone_initial {k : TransferKind} {s : Callers} (h : s.Initial) : s.Alone k := by
  obtain ⟨tid, -, -, rfl⟩ := h
  exact ⟨fun _ _ _ => nofun, fun _ _ _ => nofun⟩

/-- Every step whose calls begin with their targets free keeps the targets apart. -/
theorem Alone.step {k : TransferKind} {s : Callers} {a : Env × CallerEvent} (h : s.Alone k)
    (hs : s.Tasks none) (ha : s.Possible a)
    (hfree : ∀ kind, a.2 = .begin kind → kind.target.1 = k → s.FreeFor kind.target) :
    (s.step a).Alone k := by
  obtain ⟨env, e⟩ := a
  obtain ⟨hclock, ha⟩ := ha
  cases e with
  | lane e =>
    by_cases he : e = .resetTransferLane
    · subst he
      exact h.lose.laneStep (a := (env, .resetTransferLane)) (hs.before _).lose
        (createsOwn_of_none rfl)
    · have hstep : s.step (env, .lane e) = s.laneStep (env, e) := by
        cases e <;> first | rfl | exact absurd rfl he
      rw [hstep]
      exact h.laneStep (hs.before _) (createsOwn_outside ha)
  | begin kind => exact h.beginCall hs (hfree kind rfl)
  | queue i =>
    obtain ⟨halone, hown⟩ := h.enrol ha
    exact halone.laneStep (a := (env, (s.calls i).kind.queues)) (hs.enrol ha) hown
  | wake i =>
    have hopen := Call.isOpen_of_isWaiting ha
    exact (h.moved (Call.decide_moved _ hopen)).unlock i
  | cleanUp i =>
    show (s.cleanUp env i).Alone k
    rcases cleanUp_eq env ha with ⟨id, slot, -, -, heq⟩ | ⟨-, heq⟩
    · rw [heq]
      exact (h.laneStep (a := (env, .dequeueClear id)) (hs.before _)
        (createsOwn_of_none rfl)).moved (Call.finish_moved ..)
    · rw [heq]
      exact ((h.laneStep (a := (env, .abortTransfers)) (hs.before _)
        (createsOwn_of_none rfl)).moved (Call.finish_moved ..)).unlock i

/-! ## What every call of a kind knows -/

/-- `P` holds of the lane and every call of the kind. -/
def Each (k : TransferKind) (P : Lane → Call → Prop) (s : Callers) : Prop :=
  ∀ i, (s.calls i).kind.target.1 = k → P s.lane (s.calls i)

section Each

variable {k : TransferKind} {P : Lane → Call → Prop} {s : Callers}

theorem Each.setCall (h : s.Each k P) {i : ℕ} {c : Call}
    (hc : c.kind.target.1 = k → P s.lane c) : (s.setCall i c).Each k P := by
  intro j hk
  rw [setCall_calls] at hk ⊢
  split
  · rename_i hj
    rw [if_pos hj] at hk
    exact hc hk
  · rename_i hj
    rw [if_neg hj] at hk
    exact h j hk

theorem Each.unlock (h : s.Each k P) (i : ℕ) : (s.unlock i).Each k P := by
  intro j hk
  rw [unlock_calls] at hk ⊢
  rw [unlock_lane]
  exact h j hk

theorem Each.beginCall (h : s.Each k P) {kind : CallKind}
    (hnew : kind.target.1 = k → P s.lane { kind := kind, began := s.lane.log }) :
    (s.beginCall kind).Each k P := by
  intro i hk
  have hcalls : (s.beginCall kind).calls i =
      if i = s.nextCall then { kind := kind, began := s.lane.log } else s.calls i := by
    show Function.update s.calls s.nextCall _ i = _
    rw [Function.update_apply]
  rw [hcalls] at hk ⊢
  split
  · rename_i hi
    rw [if_pos hi] at hk
    exact hnew hk
  · rename_i hi
    rw [if_neg hi] at hk
    exact h i hk

end Each

/-- An event that no call makes is a step of the lane, if it is not the reset of one. -/
theorem step_lane_eq {s : Callers} {env : Env} {e : LaneEvent} (he : e ≠ .resetTransferLane) :
    s.step (env, .lane e) = s.laneStep (env, e) := by
  cases e <;> first | rfl | exact absurd rfl he

/-- The task of a call was made. -/
theorem Tasks.lt_nextTask {s : Callers} (h : s.Tasks none) {i : ℕ} {id : TaskId}
    (hid : (s.calls i).task? = some id) : id < s.lane.nextTask := by
  rcases (h.tasked i).made id hid with ⟨hlt, -⟩ | ⟨_, _, hnone, -⟩
  · exact hlt
  · cases hnone

end Callers

end Bmdwire
