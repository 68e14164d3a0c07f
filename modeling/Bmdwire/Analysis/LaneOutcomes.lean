import Bmdwire.Analysis.LaneReleases

/-!
# Every task leaves the lane once, in order

A task that was queued leaves by one outcome: an event the lane raises for it, or the call
that took it off the queues. `outcomes` reads them off a run, and `tasks_leave_once` is the
count. Between two states a run passes through, the number of places a task is queued in
and the number of its outcomes add up to one; each move of the trigger keeps that sum
(`Shrinks`), and takes tasks off the front of their queues only.
-/

set_option autoImplicit false

namespace Bmdwire

open Library (Dict)

/-- How a task leaves the lane. `undecoded` is a download whose data does not decode: its
completion is logged, and no event is raised. -/
inductive Outcome
  | completed
  | undecoded
  | failed
  | cleared
  | dequeued
  | aborted
  | reset
deriving DecidableEq, Repr

/-- The outcome of the task that raising the event is. -/
def Notice.outcome? (id : TaskId) : Notice → Option Outcome
  | .uploadDone task _ _ => if task = id then some .completed else none
  | .downloadDone task _ _ _ => if task = id then some .completed else none
  | .completionHandlingFailed task => if task = id then some .undecoded else none
  | .fileTransferError task _ _ => if task = id then some .failed else none
  | .clearDispatched task _ _ => if task = id then some .cleared else none
  | _ => none

def Act.outcome? (id : TaskId) : Act → Option Outcome
  | .notice n => n.outcome? id
  | _ => none

/-- The outcomes of the task raised in a stretch of the log. -/
def outcomesIn (id : TaskId) (log : List Act) : List Outcome := log.filterMap (Act.outcome? id)

namespace Lane

/-- The outcome a call gives a task that is queued when it is made. -/
def callOutcome (s : Lane) (e : LaneEvent) (id : TaskId) : List Outcome :=
  if id ∈ s.queued then
    match e with
    | .dequeueClear task => if task = id then [.dequeued] else []
    | .abortTransfers => [.aborted]
    | .resetTransferLane => [.reset]
    | _ => []
  else []

/-- The outcomes a step gives a task. -/
def stepOutcomes (s : Lane) (a : Env × LaneEvent) (id : TaskId) : List Outcome :=
  s.callOutcome a.2 id ++
    outcomesIn id ((s.step a).log.take ((s.step a).log.length - s.log.length))

/-- The outcomes a run gives a task. -/
def outcomes : Lane → List (Env × LaneEvent) → TaskId → List Outcome
  | _, [], _ => []
  | s, a :: as, id => s.stepOutcomes a id ++ outcomes (s.step a) as id

/-- How often a task is queued: not at all, or once. -/
def here (s : Lane) (id : TaskId) : ℕ := if id ∈ s.queued then 1 else 0

theorem here_congr {s t : Lane} {id : TaskId} (h : id ∈ t.queued ↔ id ∈ s.queued) :
    t.here id = s.here id := by
  simp only [here, h]

theorem here_same {s t : Lane} (h : ∀ k, t.queue k = s.queue k) (id : TaskId) :
    t.here id = s.here id := by
  apply here_congr
  simp only [mem_queued, h]

/-- From `s` to `t` tasks only leave, from the front of their queues, each with its
outcome in the log, or owed. -/
structure Shrinks (owed : List Act) (s t : Lane) : Prop where
  nextTask : t.nextTask = s.nextTask
  queue : ∀ k, t.queue k <:+ s.queue k
  log : ∃ new, t.log = new ++ s.log ∧
    ∀ id, s.here id = t.here id + (outcomesIn id (owed ++ new)).length

theorem outcomesIn_append (id : TaskId) (l l' : List Act) :
    outcomesIn id (l ++ l') = outcomesIn id l ++ outcomesIn id l' :=
  List.filterMap_append

/-- Bulk is nobody's outcome. -/
theorem outcomesIn_eq_nil {id : TaskId} {l : List Act} (h : ∀ a ∈ l, a.outcome? id = none) :
    outcomesIn id l = [] :=
  List.filterMap_eq_nil_iff.mpr h

theorem outcome?_of_bulk {a : Act} (h : a.bulk = true) (id : TaskId) : a.outcome? id = none := by
  cases a with
  | notice n => cases n <;> simp_all [Act.bulk, Act.outcome?, Notice.outcome?]
  | _ => rfl

/-- Nothing left, nothing raised. -/
theorem Shrinks.same {s t : Lane} (hnext : t.nextTask = s.nextTask)
    (hqueue : ∀ k, t.queue k = s.queue k)
    (hlog : ∃ new, t.log = new ++ s.log ∧ ∀ id, ∀ a ∈ new, a.outcome? id = none) :
    Shrinks [] s t where
  nextTask := hnext
  queue k := by rw [hqueue k]
  log := by
    obtain ⟨new, hnew, hnone⟩ := hlog
    refine ⟨new, hnew, fun id => ?_⟩
    rw [List.nil_append, outcomesIn_eq_nil (hnone id), here_same hqueue id]
    rfl

theorem Shrinks.refl (s : Lane) : Shrinks [] s s :=
  .same rfl (fun _ => rfl) ⟨[], rfl, by simp⟩

theorem Shrinks.trans {owed : List Act} {s t u : Lane} (h : Shrinks owed s t)
    (h' : Shrinks [] t u) : Shrinks owed s u where
  nextTask := h'.nextTask.trans h.nextTask
  queue k := (h'.queue k).trans (h.queue k)
  log := by
    obtain ⟨new, hnew, hsum⟩ := h.log
    obtain ⟨new', hnew', hsum'⟩ := h'.log
    refine ⟨new' ++ new, by rw [hnew', hnew, List.append_assoc], fun id => ?_⟩
    have h1 := hsum id
    have h2 := hsum' id
    simp only [outcomesIn_append, List.length_append, List.nil_append] at h1 h2 ⊢
    omega

/-- What is owed is raised. -/
theorem Shrinks.close {n : Notice} {s t : Lane} (h : Shrinks [.notice n] s t) :
    Shrinks [] s (t.raise n) where
  nextTask := h.nextTask
  queue := h.queue
  log := by
    obtain ⟨new, hnew, hsum⟩ := h.log
    exact ⟨.notice n :: new, by rw [← List.singleton_append, List.append_assoc, ← hnew]; rfl, hsum⟩

/-- Once its head is popped, a queue holds the other tasks. -/
theorem mem_queued_pop {s t : Lane} {id : TaskId} (hwf : s.Wf) (hfront : s.Front id)
    (hqueue : ∀ k, t.queue k = if k = (s.tasks id).store then (s.queue k).tail else s.queue k)
    (j : TaskId) : j ∈ t.queued ↔ j ∈ s.queued ∧ j ≠ id := by
  obtain ⟨rest, hrest⟩ := List.head?_eq_some_iff.mp hfront
  have hnot : id ∉ rest := by
    intro hmem
    have hlt := hwf.ordered (s.tasks id).store
    rw [hrest] at hlt
    exact lt_irrefl id (List.rel_of_pairwise_cons hlt hmem)
  simp only [mem_queued, hqueue]
  constructor
  · rintro ⟨k, hk⟩
    split at hk
    · rename_i hks
      subst hks
      rw [hrest, List.tail_cons] at hk
      refine ⟨⟨_, by rw [hrest]; exact List.mem_cons_of_mem _ hk⟩, ?_⟩
      rintro rfl
      exact hnot hk
    · rename_i hks
      refine ⟨⟨k, hk⟩, ?_⟩
      rintro rfl
      exact hks (hwf.store k j hk).symm
  · rintro ⟨⟨k, hk⟩, hne⟩
    refine ⟨k, ?_⟩
    split
    · rename_i hks
      rw [hks, hrest] at hk
      rw [hks, hrest, List.tail_cons]
      exact (List.mem_cons.mp hk).resolve_left hne
    · exact hk

/-- A task popped with one outcome of its own, raised or owed. -/
theorem Shrinks.pop {owed : List Act} {s t : Lane} {id : TaskId} (hwf : s.Wf)
    (hfront : s.Front id) (hnext : t.nextTask = s.nextTask)
    (hqueue : ∀ k, t.queue k = if k = (s.tasks id).store then (s.queue k).tail else s.queue k)
    (hlog : ∃ new, t.log = new ++ s.log ∧
      ∀ j, (outcomesIn j (owed ++ new)).length = if j = id then 1 else 0) :
    Shrinks owed s t where
  nextTask := hnext
  queue k := by
    rw [hqueue k]
    split
    · exact List.tail_suffix _
    · exact List.suffix_refl _
  log := by
    obtain ⟨new, hnew, hone⟩ := hlog
    refine ⟨new, hnew, fun j => ?_⟩
    have hmem := mem_queued_pop hwf hfront hqueue j
    rw [hone]
    by_cases hj : j = id
    · subst hj
      simp [here, hmem, mem_queued.mpr ⟨_, hfront.mem⟩]
    · simp [here, hmem, hj]

/-- What letting go of a store adds to the log is nobody's outcome. -/
theorem letGo_log_outcome (now : Time) (store : Store) (s : Lane) :
    ∃ new, (s.letGo now store).log = new ++ s.log ∧ ∀ id, ∀ a ∈ new, a.outcome? id = none := by
  obtain ⟨new, hlog, hnew⟩ := letGo_log now store s
  refine ⟨new, hlog, fun id a ha => ?_⟩
  rw [hnew a ha]
  rfl

/-- Every move of the trigger takes tasks off the front of their queues, with their
outcomes. -/
theorem shrinks_triggerMove {now : Time} {stale : Prop} {s t : Lane}
    (hm : TriggerMove now stale s t) (hwf : s.Wf) : Shrinks [] s t := by
  cases hm with
  | wake due => exact .same rfl (fun _ => rfl) ⟨[], rfl, by simp⟩
  | fail => exact .same rfl (fun _ => rfl) ⟨[_], rfl, fun id a ha => by
      rw [List.mem_singleton.mp ha]; rfl⟩
  | pauseOver _ _ _ => exact .same rfl (fun _ => rfl) ⟨[], rfl, by simp⟩
  | endYield _ _ => exact .same rfl (fun _ => rfl) ⟨[], rfl, by simp⟩
  | clean _ _ =>
    obtain ⟨new, heq, hnew⟩ := cleanLocks_eq now s
    rw [heq]
    refine .same rfl (fun _ => rfl) ⟨new, rfl, fun id a ha => ?_⟩
    obtain ⟨k, -, rfl⟩ := hnew a ha
    rfl
  | askForLock _ _ _ _ _ _ => exact .same rfl (fun _ => rfl) ⟨[_], rfl, fun id a ha => by
      rw [List.mem_singleton.mp ha]; rfl⟩
  | @clear id _ hfront _ _ _ =>
    obtain ⟨new, hlog, hnone⟩ := letGo_log_outcome now (s.tasks id).store (s.dispatchClear now id)
    refine .pop hwf hfront (letGo_nextTask ..) ?_ ?_
    · intro k
      rw [letGo_queue]
      exact queue_popHead hfront k
    · refine ⟨new ++ [.notice (.clearDispatched id (s.tasks id).store (s.tasks id).slot),
        .send now (.clearStill id (s.tasks id).store (s.tasks id).slot)], ?_, fun j => ?_⟩
      · rw [hlog, List.append_assoc]
        rfl
      · rw [List.nil_append, outcomesIn_append, outcomesIn_eq_nil (hnone j)]
        by_cases hj : j = id
        · simp [outcomesIn, Act.outcome?, Notice.outcome?, hj]
        · simp [outcomesIn, Act.outcome?, Notice.outcome?, hj, Ne.symm hj]
  | @request id retry _ _ _ _ _ _ =>
    have hr := requested_requestTransfer now retry id s
    obtain ⟨new, c, hlog, hbulk, -⟩ := hr.log
    refine .same hr.nextTask (fun k => by rw [queue_eq, hr.transferQueue, queue_eq])
      ⟨new ++ [.send now c], by rw [hlog, List.append_assoc]; rfl, fun j a ha => ?_⟩
    rcases List.mem_append.mp ha with ha | ha
    · exact outcome?_of_bulk (hbulk a ha) j
    · rw [List.mem_singleton.mp ha]
      rfl

theorem shrinks_triggerMoves {now : Time} {stale : Prop} {s t : Lane}
    (hm : TriggerMoves now stale s t) (hwf : s.Wf) : Shrinks [] s t := by
  have h : Shrinks [] s t ∧ t.Wf := by
    refine hm.keep (P := fun t => Shrinks [] s t ∧ t.Wf) ?_ ⟨.refl s, hwf⟩
    rintro t u hmove ⟨hs, ht⟩
    exact ⟨hs.trans (shrinks_triggerMove hmove ht), wf_triggerMove t u hmove ht⟩
  exact h.1

/-! ## Openings -/

/-- The lane's own messages and signals, as against the calls that queue tasks or take them
off the queues. -/
def Plain (e : LaneEvent) : Prop :=
  newTask e = none ∧ (∀ id, e ≠ .dequeueClear id) ∧ e ≠ .abortTransfers ∧ e ≠ .resetTransferLane

/-- A drain that ends takes no task. -/
theorem shrinks_letGo {s t : Lane} (now : Time) (store : Store) (hnext : t.nextTask = s.nextTask)
    (hqueue : t.transferQueue = s.transferQueue) (hlog : t.log = s.log) :
    Shrinks [] s (t.letGo now store) := by
  obtain ⟨new, hnew, hnone⟩ := letGo_log_outcome now store t
  refine .same ((letGo_nextTask ..).trans hnext) (fun k => ?_) ⟨new, by rw [hnew, hlog], hnone⟩
  rw [letGo_queue, queue_eq, hqueue, queue_eq]

/-- A failed task is popped and its failure owed. -/
theorem shrinks_dropFailed {now : Time} {id : TaskId} {s t : Lane} {transfer status : ℕ}
    (hwf : s.Wf) (hfront : s.Front id) (hst : SameTransfers { s with transferRequested := false } t)
    (hlog : t.log = s.log) :
    Shrinks [.notice (.fileTransferError id transfer status)] s (t.dropFailed now id) := by
  have hfront' : Front { t with tryAgainDue := none } id := by
    show (t.queue (t.tasks id).store).head? = some id
    rw [hst.store, hst.queue]
    exact hfront
  have hpop := queue_popHead hfront'
  obtain ⟨new, hnew, hnone⟩ := letGo_log_outcome now (t.tasks id).store
    { popHead id { t with tryAgainDue := none } with
      transfer := none, transferBuffer := [], transferBufferBytes := 0 }
  refine .pop hwf hfront ((letGo_nextTask ..).trans hst.nextTask) ?_ ⟨new, ?_, fun j => ?_⟩
  · intro k
    refine (letGo_queue ..).trans ?_
    refine (hpop k).trans ?_
    show (if k = (t.tasks id).store then (t.queue k).tail else t.queue k) = _
    rw [hst.store, hst.queue]
    rfl
  · exact hnew.trans (by rw [← hlog]; rfl)
  · rw [outcomesIn_append, outcomesIn_eq_nil (hnone j)]
    by_cases hj : j = id
    · simp [outcomesIn, Act.outcome?, Notice.outcome?, hj]
    · simp [outcomesIn, Act.outcome?, Notice.outcome?, hj, Ne.symm hj]

/-- The notice of a completion is the task's own outcome. -/
theorem outcome?_completionNotice (id j : TaskId) (task : TransferTask) (raw : Bytes) :
    ((completionNotice id task raw).outcome? j).isSome = decide (id = j) := by
  unfold completionNotice
  split
  · by_cases h : id = j <;> simp [Notice.outcome?, h]
  · split <;> by_cases h : id = j <;> simp [Notice.outcome?, h]

/-- A completed task is popped and its completion owed. -/
theorem shrinks_dropCompleted {now : Time} {id : TaskId} {s : Lane} (raw : Bytes)
    (hwf : s.Wf) (hfront : s.Front id) :
    Shrinks [.notice (completionNotice id (s.tasks id) raw)] s (s.dropCompleted now id) := by
  obtain ⟨new, hnew, hnone⟩ := letGo_log_outcome now (s.tasks id).store
    { s with
      transferQueue := s.transferQueue.set (s.tasks id).store (s.queue (s.tasks id).store).tail
      transferBuffer := []
      transferBufferBytes := 0
      transferRequested := false }
  refine .pop hwf hfront (letGo_nextTask ..) ?_ ⟨new, hnew, fun j => ?_⟩
  · intro k
    refine (letGo_queue ..).trans ((queue_set s _ k _).trans ?_)
    split
    · rename_i hk
      rw [hk]
    · rfl
  · rw [outcomesIn_append, outcomesIn_eq_nil (hnone j), List.append_nil]
    have h := outcome?_completionNotice id j (s.tasks id) raw
    cases ho : (completionNotice id (s.tasks id) raw).outcome? j with
    | none =>
      rw [ho] at h
      have hne : ¬ id = j := by simpa using h.symm
      simp [outcomesIn, Act.outcome?, ho, Ne.symm hne]
    | some o =>
      rw [ho] at h
      obtain rfl : id = j := by simpa using h.symm
      simp [outcomesIn, Act.outcome?, ho]

/-- The openings of the lane's messages and signals take tasks off the front of their
queues, their outcomes owed. -/
theorem shrinks_opening {now : Time} {s t : Lane} {e : LaneEvent} {closing : Option Notice}
    (ho : Opening now s e t closing) (hwf : s.Wf) (he : Plain e) :
    Shrinks (closing.toList.map Act.notice) s t := by
  cases ho with
  | quiet _ hq =>
    obtain ⟨new, hlog, hbulk⟩ := hq.log
    exact .same hq.nextTask hq.sameTransfers.queue
      ⟨new, hlog, fun id a ha => outcome?_of_bulk (hbulk a ha) id⟩
  | granted store => exact .same rfl (fun _ => rfl) ⟨[], rfl, by simp⟩
  | @taken store _ =>
    obtain ⟨_, _, _, _, heq⟩ := lockTaken_eq now store s
    rw [heq]
    exact .same rfl (fun _ => rfl) ⟨[], rfl, by simp⟩
  | @freed store _ =>
    obtain ⟨_, _, heq⟩ := freed_eq now store s
    rw [heq]
    exact .same rfl (fun _ => rfl) ⟨[], rfl, by simp⟩
  | drained data _ =>
    exact .same rfl (fun _ => rfl) ⟨[_], rfl, fun id a ha => by
      rw [List.mem_singleton.mp ha]; rfl⟩
  | drainFailed status _ => exact shrinks_letGo now _ rfl rfl rfl
  | drainCompleted _ => exact shrinks_letGo now _ rfl rfl rfl
  | tryAgain _ _ => exact .same rfl (fun _ => rfl) ⟨[], rfl, by simp⟩
  | @triedOut id transfer ha _ =>
    exact shrinks_dropFailed hwf (hwf.inFlight id ha.inFlight).1 (sameTransfers_countTry id s) rfl
  | lockLost _ => exact .same rfl (fun _ => rfl) ⟨[], rfl, by simp⟩
  | yielded _ => exact shrinks_letGo now _ rfl rfl rfl
  | @failed id transfer status ha _ _ _ =>
    exact shrinks_dropFailed hwf (hwf.inFlight id ha.inFlight).1 (.refl _) rfl
  | @completed id transfer ha =>
    exact shrinks_dropCompleted _ hwf (hwf.inFlight id ha.inFlight).1
  | strangeCompletion _ => exact .same rfl (fun _ => rfl) ⟨[], rfl, by simp⟩
  | enqueue hnew => rw [he.1] at hnew; cases hnew
  | dequeue id => exact absurd rfl (he.2.1 id)
  | abort => exact absurd rfl he.2.2.1
  | fire _ _ => exact .same rfl (fun _ => rfl) ⟨[], rfl, by simp⟩
  | poke => exact .same rfl (fun _ => rfl) ⟨[], rfl, by simp⟩
  | woken _ _ => exact .same rfl (fun _ => rfl) ⟨[], rfl, by simp⟩
  | drainOverdue _ _ _ => exact shrinks_letGo now _ rfl rfl rfl
  | reset => exact absurd rfl he.2.2.2
  | teardown =>
    rcases releaseLocksNow_cases now s with ⟨-, heq⟩ | ⟨u, hm, -, heq⟩
    · rw [heq]
      exact .refl s
    · obtain ⟨_, _, _, _, hu⟩ := hm.fields
      obtain ⟨new, hnew, hrel⟩ := hm.log_eq
      rw [heq]
      refine .same (by rw [hu]) (fun k => ?_) ⟨new, hnew, fun id a ha => ?_⟩
      · rw [hu]
        rfl
      · obtain ⟨k, -, rfl⟩ := hrel a ha
        rfl

/-! ## Steps -/

/-- The trigger and the closing event finish what an opening began. -/
theorem shrinks_rest {now : Time} {stale : Prop} {closing : Option Notice} {s m m' : Lane}
    (h : Shrinks (closing.toList.map Act.notice) s m) (hm : TriggerMoves now stale m m')
    (hwf : m.Wf) : Shrinks [] s (m'.close closing) := by
  have hall := h.trans (shrinks_triggerMoves hm hwf)
  cases closing with
  | none => exact hall
  | some n => exact hall.close

theorem shrinks_receive (s : Lane) (env : Env) (e : LaneEvent) :
    Shrinks [] s (s.receive env e) :=
  .same rfl (fun _ => rfl) ⟨[_], rfl, fun id a ha => by rw [List.mem_singleton.mp ha]; rfl⟩

/-- A message or a signal takes tasks off the front of their queues, with their outcomes. -/
theorem shrinks_step {s : Lane} {a : Env × LaneEvent} (hwf : s.Wf) (he : Plain a.2) :
    Shrinks [] s (s.step a) := by
  obtain ⟨m, m', closing, hopen, hmoves, heq⟩ := step_splits hwf a
  have hr := wf_receive hwf a.1 a.2
  have hm := wf_opening hopen hr fun id hid => absurd hid (he.2.1 id)
  rw [heq]
  exact (shrinks_receive s a.1 a.2).trans (shrinks_rest (shrinks_opening hopen hr he) hmoves hm)

/-- A new task is queued at the end of its store's queue; then the trigger takes tasks off
the front of their queues, with their outcomes. -/
theorem shrinks_step_enqueue {s : Lane} {a : Env × LaneEvent} {task : TransferTask} (hwf : s.Wf)
    (he : newTask a.2 = some task) :
    Shrinks [] ((s.receive a.1 a.2).enqueue task) (s.step a) := by
  have hwf' : ((s.receive a.1 a.2).enqueue task).Wf := wf_enqueue (wf_receive hwf a.1 a.2)
  have hstep : s.step a =
      ((s.receive a.1 a.2).enqueue task).transferTrigger a.1.now task.store false := by
    obtain ⟨env, e⟩ := a
    cases e with
    | download store index => obtain rfl := Option.some.inj he; rfl
    | upload store index payload => obtain rfl := Option.some.inj he; rfl
    | queueClear store index => obtain rfl := Option.some.inj he; rfl
    | _ => cases he
  rw [hstep]
  have hmoves : TriggerMoves a.1.now True ((s.receive a.1 a.2).enqueue task)
      (((s.receive a.1 a.2).enqueue task).transferTrigger a.1.now task.store false) :=
    transferTrigger_moves _ false _ hwf'.store (by simp) fun _ _ _ => .inr trivial
  exact shrinks_triggerMoves hmoves hwf'

/-- Every event is the lane's own, creates a task, or is a call that takes tasks off. -/
theorem event_cases (e : LaneEvent) : Plain e ∨ (∃ task, newTask e = some task) ∨
    (∃ id, e = .dequeueClear id) ∨ e = .abortTransfers ∨ e = .resetTransferLane := by
  cases e <;> simp [Plain, newTask]

/-- The task a step creates. -/
def created (s : Lane) (e : LaneEvent) (store : Store) : List TaskId :=
  match newTask e with
  | some task => if task.store = store then [s.nextTask] else []
  | none => []

/-- A step takes the tasks of a store off the front of its queue, a new one at its end, but
for the three calls that take tasks off the queues. -/
def LeavesInOrder (s : Lane) (a : Env × LaneEvent) (store : Store) : Prop :=
  match a.2 with
  | .dequeueClear id => (s.step a).queue store = (s.queue store).filter (· ≠ id)
  | .abortTransfers => (s.step a).queue store = []
  | .resetTransferLane => (s.step a).queue store = []
  | e => (s.step a).queue store <:+ s.queue store ++ s.created e store

theorem leavesInOrder {s : Lane} (hwf : s.Wf) (a : Env × LaneEvent) (store : Store) :
    s.LeavesInOrder a store := by
  obtain ⟨env, e⟩ := a
  rcases event_cases e with he | ⟨task, he⟩ | ⟨id, rfl⟩ | rfl | rfl
  · have h := (shrinks_step (a := (env, e)) hwf he).queue store
    have hc : s.created e store = [] := by simp [created, he.1]
    have happ : (s.step (env, e)).queue store <:+ s.queue store ++ s.created e store := by
      rwa [hc, List.append_nil]
    cases e with
    | dequeueClear id => exact absurd rfl (he.2.1 id)
    | abortTransfers => exact absurd rfl he.2.2.1
    | resetTransferLane => exact absurd rfl he.2.2.2
    | _ => exact happ
  · have h := (shrinks_step_enqueue (a := (env, e)) hwf he).queue store
    rw [queue_enqueue] at h
    have happ : (s.step (env, e)).queue store <:+ s.queue store ++ s.created e store := by
      simp only [created, he]
      by_cases hk : store = task.store
      · rw [if_pos hk] at h
        rw [if_pos hk.symm]
        exact h
      · rw [if_neg hk] at h
        rw [if_neg (Ne.symm hk), List.append_nil]
        exact h
    cases e with
    | dequeueClear id => cases he
    | abortTransfers => cases he
    | resetTransferLane => cases he
    | _ => exact happ
  · exact queue_dequeueClear id (s.receive env _) hwf.store store
  · obtain h | h := sameTransfers_abortTransfers env.now (s.receive env .abortTransfers)
    · exact h.2.queue store
    · exact h.2.queue store
  · rfl

/-- The outcomes of a step, from what it adds to the log. -/
theorem stepOutcomes_eq {s : Lane} {a : Env × LaneEvent} {new : List Act} (id : TaskId)
    (h : (s.step a).log = new ++ s.log) :
    s.stepOutcomes a id = s.callOutcome a.2 id ++ outcomesIn id new := by
  unfold stepOutcomes
  rw [h]
  simp

/-- An abort adds only releases to the log. -/
theorem abortTransfers_log (now : Time) (s : Lane) :
    ∃ new, (s.abortTransfers now).log = new ++ s.log ∧
      ∀ a ∈ new, ∃ k, a = .send now (.lock k false) := by
  cases hl : s.leavesDraining now with
  | true =>
    obtain ⟨id, _, hid, -⟩ := exists_inFlight_of_leavesDraining hl
    obtain ⟨new, hlog, hrel⟩ := (abortTransfers_drain hl hid).1.log_eq
    refine ⟨new, hlog, fun a ha => ?_⟩
    obtain ⟨k, -, h⟩ := hrel a ha
    exact ⟨k, h⟩
  | false =>
    obtain ⟨new, hlog, hrel⟩ := (abortTransfers_all hl).1.log_eq
    refine ⟨new, hlog, fun a ha => ?_⟩
    obtain ⟨k, -, h⟩ := hrel a ha
    exact ⟨k, h⟩

/-- The calls that take tasks off the queues raise nothing. -/
theorem step_call_log {s : Lane} {a : Env × LaneEvent}
    (h : (∃ id, a.2 = .dequeueClear id) ∨ a.2 = .abortTransfers ∨ a.2 = .resetTransferLane) :
    ∃ new, (s.step a).log = new ++ s.log ∧ ∀ id, outcomesIn id new = [] := by
  obtain ⟨env, e⟩ := a
  rcases h with ⟨id, rfl⟩ | rfl | rfl
  · obtain ⟨q, hq⟩ := dequeueClear_eq id (s.receive env (.dequeueClear id))
    refine ⟨[.recv env.now (.dequeueClear id)], ?_, fun _ => rfl⟩
    show (dequeueClear id (s.receive env (.dequeueClear id))).log = _
    rw [hq]
    rfl
  · obtain ⟨new, hlog, hrel⟩ := abortTransfers_log env.now (s.receive env .abortTransfers)
    refine ⟨new ++ [.recv env.now .abortTransfers], ?_, fun j => outcomesIn_eq_nil ?_⟩
    · rw [List.append_assoc]
      exact hlog
    · intro a ha
      rcases List.mem_append.mp ha with ha | ha
      · obtain ⟨k, rfl⟩ := hrel a ha
        rfl
      · rw [List.mem_singleton.mp ha]
        rfl
  · exact ⟨[.recv env.now .resetTransferLane], rfl, fun _ => rfl⟩

/-- The calls that take tasks off the queues create none. -/
theorem step_call_nextTask {s : Lane} {a : Env × LaneEvent}
    (h : (∃ id, a.2 = .dequeueClear id) ∨ a.2 = .abortTransfers ∨ a.2 = .resetTransferLane) :
    (s.step a).nextTask = s.nextTask := by
  obtain ⟨env, e⟩ := a
  rcases h with ⟨id, rfl⟩ | rfl | rfl
  · obtain ⟨q, hq⟩ := dequeueClear_eq id (s.receive env (.dequeueClear id))
    show (dequeueClear id (s.receive env (.dequeueClear id))).nextTask = _
    rw [hq]
    rfl
  · obtain h | h := sameTransfers_abortTransfers env.now (s.receive env .abortTransfers)
    · exact h.2.nextTask
    · exact h.2.nextTask
  · rfl

/-- A call that empties the queues is the outcome of every task queued. -/
theorem here_step_empty {s : Lane} {a : Env × LaneEvent} {id : TaskId}
    (hq : ∀ k, (s.step a).queue k = []) (hnext : (s.step a).nextTask = s.nextTask)
    (hcount : (s.stepOutcomes a id).length = (s.callOutcome a.2 id).length)
    (hcall : (s.callOutcome a.2 id).length = s.here id) :
    (s.step a).here id + (s.stepOutcomes a id).length =
      s.here id + if s.nextTask ≤ id ∧ id < (s.step a).nextTask then 1 else 0 := by
  have hnone : (s.step a).here id = 0 := by
    simp [here, mem_queued, hq]
  rw [hnone, hcount, hcall, hnext, if_neg fun h => absurd h.2 (not_lt.mpr h.1), Nat.zero_add,
    Nat.add_zero]

/-- Nothing is queued that was not created. -/
theorem here_eq_zero {s : Lane} (hwf : s.Wf) {id : TaskId} (h : s.nextTask ≤ id) :
    s.here id = 0 := by
  unfold here
  rw [if_neg]
  intro hq
  obtain ⟨k, hk⟩ := mem_queued.mp hq
  exact absurd (hwf.made k id hk) (not_lt.mpr h)

/-- A created task is queued where it was not before, the others where they were. -/
theorem here_enqueue {s : Lane} (hwf : s.Wf) (task : TransferTask) (id : TaskId) :
    (s.enqueue task).here id = s.here id + if id = s.nextTask then 1 else 0 := by
  by_cases hid : id = s.nextTask
  · subst hid
    have hmem : s.nextTask ∈ (s.enqueue task).queued := by
      refine mem_queued.mpr ⟨task.store, ?_⟩
      rw [queue_enqueue, if_pos rfl]
      simp
    rw [here_eq_zero hwf le_rfl]
    simp [here, hmem]
  · rw [if_neg hid, Nat.add_zero]
    apply here_congr
    simp only [mem_queued, queue_enqueue]
    constructor
    · rintro ⟨k, hk⟩
      refine ⟨k, ?_⟩
      split at hk
      · simpa [hid] using hk
      · exact hk
    · rintro ⟨k, hk⟩
      refine ⟨k, ?_⟩
      split
      · exact List.mem_append_left _ hk
      · exact hk

/-- A step's outcomes make up for where a task is queued before and after. -/
theorem here_step {s : Lane} (hwf : s.Wf) (a : Env × LaneEvent) (id : TaskId) :
    s.nextTask ≤ (s.step a).nextTask ∧
    (s.step a).here id + (s.stepOutcomes a id).length =
      s.here id + if s.nextTask ≤ id ∧ id < (s.step a).nextTask then 1 else 0 := by
  have hcount : ∀ (h : (∃ j, a.2 = .dequeueClear j) ∨ a.2 = .abortTransfers ∨
      a.2 = .resetTransferLane), (s.stepOutcomes a id).length =
        (s.callOutcome a.2 id).length := by
    intro h
    obtain ⟨new, hlog, hnone⟩ := step_call_log h
    rw [stepOutcomes_eq id hlog, hnone, List.append_nil]
  rcases event_cases a.2 with he | ⟨task, he⟩ | ⟨j, he⟩ | he | he
  · have h := shrinks_step hwf he
    obtain ⟨new, hlog, hsum⟩ := h.log
    have hcall : s.callOutcome a.2 id = [] := by
      unfold callOutcome
      split
      · obtain ⟨-, h1, h2, h3⟩ := he
        split
        · rename_i j hj
          exact absurd hj (h1 j)
        · rename_i hj
          exact absurd hj h2
        · rename_i hj
          exact absurd hj h3
        · rfl
      · rfl
    have hsum := hsum id
    rw [List.nil_append] at hsum
    rw [h.nextTask, stepOutcomes_eq id hlog, hcall, List.nil_append,
      if_neg fun h => absurd h.2 (not_lt.mpr h.1)]
    exact ⟨le_rfl, hsum.symm⟩
  · have h := shrinks_step_enqueue hwf he
    obtain ⟨new, hlog, hsum⟩ := h.log
    have hcall : s.callOutcome a.2 id = [] := by
      unfold callOutcome
      split
      · cases ha : a.2 <;> simp_all [newTask]
      · rfl
    have hlog' : (s.step a).log = (new ++ [.recv a.1.now a.2]) ++ s.log := by
      rw [hlog, List.append_assoc]
      rfl
    have hnext : (s.step a).nextTask = s.nextTask + 1 := h.nextTask
    have hsum := hsum id
    rw [here_enqueue (wf_receive hwf a.1 a.2)] at hsum
    have hhere : (s.receive a.1 a.2).here id = s.here id := here_same (fun _ => rfl) id
    have hnextr : (s.receive a.1 a.2).nextTask = s.nextTask := rfl
    rw [hhere, hnextr, List.nil_append] at hsum
    rw [hnext, stepOutcomes_eq id hlog', hcall, List.nil_append, outcomesIn_append,
      outcomesIn_eq_nil (l := [.recv a.1.now a.2]) (by simp [Act.outcome?]), List.append_nil]
    refine ⟨Nat.le_succ _, ?_⟩
    rw [← hsum]
    congr 1
    by_cases hid : id = s.nextTask
    · simp [hid]
    · rw [if_neg hid, if_neg]
      rintro ⟨h1, h2⟩
      exact hid (Nat.le_antisymm (Nat.lt_succ_iff.mp h2) h1)
  · have hnext : (s.step a).nextTask = s.nextTask := step_call_nextTask (.inl ⟨j, he⟩)
    have hmem : id ∈ (s.step a).queued ↔ id ∈ s.queued ∧ id ≠ j := by
      have hq := leavesInOrder hwf a
      simp only [LeavesInOrder, he] at hq
      simp only [mem_queued, hq]
      simp
    rw [hcount (.inl ⟨j, he⟩), hnext, if_neg fun h => absurd h.2 (not_lt.mpr h.1)]
    refine ⟨le_rfl, ?_⟩
    simp only [callOutcome, he, here, hmem]
    by_cases hq : id ∈ s.queued <;> by_cases hj : j = id
    · simp [hq, hj]
    · simp [hq, hj, Ne.symm hj]
    · simp [hq]
    · simp [hq]
  · have hq := leavesInOrder hwf a
    simp only [LeavesInOrder, he] at hq
    exact ⟨(step_call_nextTask (.inr (.inl he))).ge,
      here_step_empty hq (step_call_nextTask (.inr (.inl he))) (hcount (.inr (.inl he)))
        (by simp [callOutcome, here, he, apply_ite List.length])⟩
  · have hq := leavesInOrder hwf a
    simp only [LeavesInOrder, he] at hq
    exact ⟨(step_call_nextTask (.inr (.inr he))).ge,
      here_step_empty hq (step_call_nextTask (.inr (.inr he))) (hcount (.inr (.inr he)))
        (by simp [callOutcome, here, he, apply_ite List.length])⟩

/-! ## Runs -/

/-- Over a run, a task's outcomes and the places it is queued in at the end make up for
those at the start, and for its creation. -/
theorem here_run {s : Lane} (hwf : s.Wf) (as : List (Env × LaneEvent))
    (has : Library.OkAlong step Possible s as) (id : TaskId) :
    s.nextTask ≤ (Library.run step s as).nextTask ∧
    (Library.run step s as).here id + (s.outcomes as id).length =
      s.here id +
        if s.nextTask ≤ id ∧ id < (Library.run step s as).nextTask then 1 else 0 := by
  induction as generalizing s with
  | nil =>
    refine ⟨le_rfl, ?_⟩
    rw [if_neg fun h => absurd h.2 (not_lt.mpr h.1)]
    rfl
  | cons a as ih =>
    obtain ⟨hle, hstep⟩ := here_step hwf a id
    obtain ⟨hle', hrun⟩ := ih (wf_step hwf has.1) has.2
    have hrun_eq : Library.run step s (a :: as) = Library.run step (s.step a) as := rfl
    have houtcomes : s.outcomes (a :: as) id =
        s.stepOutcomes a id ++ (s.step a).outcomes as id := rfl
    rw [hrun_eq, houtcomes, List.length_append]
    refine ⟨hle.trans hle', ?_⟩
    -- a task is created in this step, or after it, or not at all
    rcases lt_or_ge id (s.step a).nextTask with hlt | hge
    · rw [if_neg fun h => absurd hlt (not_lt.mpr h.1)] at hrun
      have hlt' := lt_of_lt_of_le hlt hle'
      simp only [hlt, hlt', and_true] at hstep ⊢
      omega
    · rw [if_neg fun h => absurd h.2 (not_lt.mpr hge)] at hstep
      simp only [hge, hle.trans hge, true_and] at hrun ⊢
      omega

theorem wf_run {s : Lane} (hwf : s.Wf) (as : List (Env × LaneEvent))
    (has : Library.OkAlong step Possible s as) : (Library.run step s as).Wf := by
  induction as generalizing s with
  | nil => exact hwf
  | cons a as ih => exact ih (wf_step hwf has.1) has.2

/-- A message about a transfer that is neither in flight nor draining changes neither the
queues, the transfer in flight nor the receive buffer. -/
theorem strange_unchanged {s : Lane} {transfer : ℕ} (h : s.Strange transfer) (env : Env)
    {e : LaneEvent} (he : (∃ data, e = .fileTransferData transfer data) ∨
      (∃ status, e = .fileTransferError transfer status) ∨
        e = .fileTransferDataComplete transfer) :
    (s.step (env, e)).transferQueue = s.transferQueue ∧
      (s.step (env, e)).transfer = s.transfer ∧
      (s.step (env, e)).transferBuffer = s.transferBuffer := by
  rcases he with ⟨data, rfl⟩ | ⟨status, rfl⟩ | rfl
  · have hsame : s.step (env, .fileTransferData transfer data) =
        s.receive env (.fileTransferData transfer data) :=
      Strange.fileTransferData (s := s.receive env _) ⟨h.notInFlight, h.notDrained⟩ env data
    rw [hsame]
    exact ⟨rfl, rfl, rfl⟩
  · have hsame : s.step (env, .fileTransferError transfer status) =
        s.receive env (.fileTransferError transfer status) :=
      Strange.fileTransferError (s := s.receive env _) ⟨h.notInFlight, h.notDrained⟩ env.now
        status
    rw [hsame]
    exact ⟨rfl, rfl, rfl⟩
  · have hsame : s.step (env, .fileTransferDataComplete transfer) =
        (s.receive env (.fileTransferDataComplete transfer)).someoneAtWork env.now :=
      Strange.fileTransferDataComplete (s := s.receive env _) ⟨h.notInFlight, h.notDrained⟩
        env.now
    rw [hsame]
    exact ⟨rfl, rfl, rfl⟩

/-- In every run, with calls and messages in any order: every task that was created is
still queued and has had no outcome, or has left by exactly one; the transfer in flight is
the front task of its own store; a step takes tasks off the front of their queues only, but
for a dequeue, an abort and a reset; and a message about a transfer neither in flight nor
draining changes neither the queues, the transfer in flight nor the receive buffer. -/
theorem tasks_leave_once {s : Lane} (hs : Initial s) (as : List (Env × LaneEvent))
    (has : Library.OkAlong step Possible s as) :
    (∀ id, id < (Library.run step s as).nextTask →
      (id ∈ (Library.run step s as).queued ∧ s.outcomes as id = []) ∨
        (id ∉ (Library.run step s as).queued ∧ ∃ o, s.outcomes as id = [o])) ∧
    (∀ id, (Library.run step s as).transfer = some id → (Library.run step s as).Front id) ∧
    (∀ a store, (Library.run step s as).LeavesInOrder a store) ∧
    ∀ transfer env e, (Library.run step s as).Strange transfer →
      ((∃ data, e = .fileTransferData transfer data) ∨
        (∃ status, e = .fileTransferError transfer status) ∨
          e = .fileTransferDataComplete transfer) →
      ((Library.run step s as).step (env, e)).transferQueue =
          (Library.run step s as).transferQueue ∧
        ((Library.run step s as).step (env, e)).transfer = (Library.run step s as).transfer ∧
        ((Library.run step s as).step (env, e)).transferBuffer =
          (Library.run step s as).transferBuffer := by
  have hwf₀ : s.Wf := by
    obtain ⟨tid, h1, h2, rfl⟩ := hs
    exact wf_fresh h1 h2
  have hwf : (Library.run step s as).Wf := wf_run hwf₀ as has
  refine ⟨fun id hid => ?_, fun id hid => (hwf.inFlight id hid).1, leavesInOrder hwf,
    fun transfer env e hstrange he => strange_unchanged hstrange env he⟩
  have hnext : s.nextTask = 0 := by
    obtain ⟨tid, -, -, rfl⟩ := hs
    rfl
  have hzero : s.here id = 0 := by
    obtain ⟨tid, -, -, rfl⟩ := hs
    simp [here, mem_queued, queue_eq, fresh]
  have hsum := (here_run hwf₀ as has id).2
  rw [if_pos ⟨by rw [hnext]; exact Nat.zero_le _, hid⟩, hzero, Nat.zero_add] at hsum
  by_cases hq : id ∈ (Library.run step s as).queued
  · left
    simp only [here, if_pos hq] at hsum
    exact ⟨hq, List.length_eq_zero_iff.mp (by omega)⟩
  · right
    simp only [here, if_neg hq, Nat.zero_add] at hsum
    exact ⟨hq, List.length_eq_one_iff.mp hsum⟩

/-- A download whose caller gives up while the next one is waiting: its data does not
decode, or it is drained. -/
def undecodableDownload : List (Env × LaneEvent) :=
  [(⟨0, none⟩, .download 0 1), (⟨1, none⟩, .lockObtained 0),
   (⟨2, none⟩, .fileTransferData 43 (List.replicate 8 0xFE)),
   (⟨3, none⟩, .fileTransferDataComplete 43)]

theorem tasks_leave_once_undecodable :
    0 ∉ (Library.run step (fresh 42) undecodableDownload).queued ∧
      ∃ o, (fresh 42).outcomes undecodableDownload 0 = [o] := by
  refine ((tasks_leave_once ⟨42, by decide, by decide, rfl⟩ undecodableDownload
    (by decide)).1 0 (by decide)).resolve_left fun h => ?_
  exact absurd h.1 (by decide)

/-- An abandoned download, and another queued behind it. -/
def drainedDownload : List (Env × LaneEvent) :=
  [(⟨0, none⟩, .download 0 1), (⟨1, none⟩, .lockObtained 0),
   (⟨2, none⟩, .fileTransferData 43 [1]), (⟨3, none⟩, .abortTransfers),
   (⟨4, none⟩, .download macroStore 5)]

/-- A completed task may leave without any event, and the completion of a download being
drained starts the next transfer although it is not the one in flight. -/
theorem leaves_without_event_and_drain_starts :
    (¬ ∀ as, Library.OkAlong step Possible (fresh 42) as →
      ∀ id, id < (Library.run step (fresh 42) as).nextTask →
        id ∉ (Library.run step (fresh 42) as).queued →
        ∃ o, o ≠ .undecoded ∧ (fresh 42).outcomes as id = [o]) ∧
    ¬ ∀ as, Library.OkAlong step Possible (fresh 42) as → ∀ env transfer,
      (∀ id, (Library.run step (fresh 42) as).transfer = some id →
        ((Library.run step (fresh 42) as).tasks id).tid ≠ some transfer) →
      ((Library.run step (fresh 42) as).step (env, .fileTransferDataComplete transfer)).transfer =
        (Library.run step (fresh 42) as).transfer := by
  constructor
  · intro h
    obtain ⟨o, hne, ho⟩ := h undecodableDownload (by decide) 0 (by decide) (by decide)
    have hund : (fresh 42).outcomes undecodableDownload 0 = [.undecoded] := by decide
    rw [hund] at ho
    exact hne (List.head_eq_of_cons_eq ho).symm
  · intro h
    have hnone : (Library.run step (fresh 42) drainedDownload).transfer = none := by decide
    have := h drainedDownload (by decide) ⟨5, none⟩ 43 (by rw [hnone]; simp)
    exact absurd this (by decide)

end Lane

end Bmdwire
