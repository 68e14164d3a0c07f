import Bmdwire.Analysis.LaneOutcomes
import Bmdwire.Analysis.Outstanding

/-!
# What the lane's events tell their listeners

Whoever waits for a transfer learns of it by the events the lane raises. This file says
what each event that a step raises can be relied on for (`step_tells`): a completion is of
the task whose FTDC came, a rejection of the task whose FTDE came, a dispatched clear has
sent its CSTL, and each names the target of its own task. A task that an event speaks of was
queued until then (`said_leaves`), and a queued task leaves by such an event or by a call
(`leaves_said`).
-/

set_option autoImplicit false

namespace Bmdwire

/-- The task an event reports a success of, and the target it names. -/
def Notice.success? : Notice → Option (TaskId × TransferKind × Store × Slot)
  | .uploadDone id store slot => some (id, .upload, store, slot)
  | .downloadDone id store slot _ => some (id, .download, store, slot)
  | .clearDispatched id store slot => some (id, .clear, store, slot)
  | _ => none

/-- The entry clears nothing and tells nobody anything but progress. -/
def Act.hushed : Act → Bool
  | .send _ (.clearStill _ _ _) => false
  | .notice n => (Act.notice n).bulk
  | _ => true

theorem Act.hushed_of_bulk {a : Act} (h : a.bulk = true) : a.hushed = true := by
  cases a with
  | send now c => cases c <;> simp_all [Act.bulk, Act.hushed]
  | notice n => exact h
  | _ => rfl

theorem lockRequestFor_hushed (now : Time) (task : TransferTask) :
    (Act.send now (Lane.lockRequestFor task)).hushed = true := by
  unfold Lane.lockRequestFor
  cases task.kind <;> rfl

theorem Command.request?.hushed {c : Command} {r : TaskId × ℕ × Store × Slot}
    (h : c.request? = some r) (now : Time) : (Act.send now c).hushed = true := by
  cases c <;> first | rfl | cases h

/-- The CSTLs in a stretch of the log are those of the clears announced in it. -/
def ClearsAnnounced (new : List Act) : Prop :=
  ∀ id store slot, (∃ now, .send now (.clearStill id store slot) ∈ new) ↔
    .notice (.clearDispatched id store slot) ∈ new

theorem ClearsAnnounced.append {new new' : List Act} (h : ClearsAnnounced new)
    (h' : ClearsAnnounced new') : ClearsAnnounced (new' ++ new) := by
  intro id store slot
  simp only [List.mem_append, exists_or]
  rw [h id store slot, h' id store slot]

theorem clearsAnnounced_of_hushed {new : List Act} (h : ∀ a ∈ new, a.hushed = true) :
    ClearsAnnounced new := by
  intro id store slot
  constructor
  · rintro ⟨now, hsend⟩
    cases h _ hsend
  · intro hnotice
    cases h _ hnotice

namespace Lane

/-! ## The trigger -/

/-- From `s` to `t` the trigger announces nothing but the clears it dispatches. -/
structure Dispatches (s t : Lane) : Prop where
  target : ∀ id, (t.tasks id).target = (s.tasks id).target
  log : ∃ new, t.log = new ++ s.log ∧ ClearsAnnounced new ∧ ∀ n, .notice n ∈ new →
    (Act.notice n).bulk = true ∨ ∃ id store slot, n = .clearDispatched id store slot ∧
      (s.tasks id).target = (.clear, store, slot)

theorem Dispatches.refl (s : Lane) : s.Dispatches s where
  target _ := rfl
  log := ⟨[], rfl, clearsAnnounced_of_hushed (by simp), by simp⟩

theorem Dispatches.trans {s t u : Lane} (h : s.Dispatches t) (h' : t.Dispatches u) :
    s.Dispatches u where
  target id := (h'.target id).trans (h.target id)
  log := by
    obtain ⟨new, hnew, hclears, hsaid⟩ := h.log
    obtain ⟨new', hnew', hclears', hsaid'⟩ := h'.log
    refine ⟨new' ++ new, by rw [hnew', hnew, List.append_assoc], hclears.append hclears', ?_⟩
    intro n hn
    rcases List.mem_append.mp hn with hn | hn
    · rcases hsaid' n hn with hbulk | ⟨id, store, slot, heq, htarget⟩
      · exact .inl hbulk
      · exact .inr ⟨id, store, slot, heq, (h.target id).symm.trans htarget⟩
    · exact hsaid n hn

/-- A move whose entries are hushed announces nothing. -/
theorem Dispatches.of_hushed {s t : Lane}
    (htarget : ∀ id, (t.tasks id).target = (s.tasks id).target)
    (hlog : ∃ new, t.log = new ++ s.log ∧ ∀ a ∈ new, a.hushed = true) : s.Dispatches t where
  target := htarget
  log := by
    obtain ⟨new, hnew, hhushed⟩ := hlog
    exact ⟨new, hnew, clearsAnnounced_of_hushed hhushed, fun n hn => .inl (hhushed _ hn)⟩

theorem dispatches_triggerMove {now : Time} {stale : Prop} {s t : Lane}
    (hm : TriggerMove now stale s t) : s.Dispatches t := by
  cases hm with
  | wake due => exact .of_hushed (fun _ => rfl) ⟨[], rfl, by simp⟩
  | fail => exact .of_hushed (fun _ => rfl) ⟨[_], rfl, by simp [Act.hushed]⟩
  | pauseOver _ _ _ => exact .of_hushed (fun _ => rfl) ⟨[], rfl, by simp⟩
  | endYield _ _ => exact .of_hushed (fun _ => rfl) ⟨[], rfl, by simp⟩
  | clean _ _ =>
    obtain ⟨new, heq, hnew⟩ := cleanLocks_eq now s
    rw [heq]
    refine .of_hushed (fun _ => rfl) ⟨new, rfl, fun a ha => ?_⟩
    obtain ⟨k, -, rfl⟩ := hnew a ha
    rfl
  | askForLock _ _ _ _ _ _ =>
    refine .of_hushed (fun _ => rfl) ⟨[_], rfl, fun a ha => ?_⟩
    rw [List.mem_singleton.mp ha]
    exact lockRequestFor_hushed ..
  | @clear id _ hfront _ _ hkind =>
    obtain ⟨new, hlog, hnew⟩ := letGo_log now (s.tasks id).store (s.dispatchClear now id)
    have hrelease : ∀ a ∈ new, a.hushed = true := fun a ha => by rw [hnew a ha]; rfl
    refine ⟨fun j => by rw [letGo_tasks]; rfl,
      new ++ [.notice (.clearDispatched id (s.tasks id).store (s.tasks id).slot),
        .send now (.clearStill id (s.tasks id).store (s.tasks id).slot)],
      by rw [hlog, List.append_assoc]; rfl, ?_, ?_⟩
    · refine ClearsAnnounced.append ?_ (clearsAnnounced_of_hushed hrelease)
      intro j store slot
      simp
    · intro n hn
      rcases List.mem_append.mp hn with hn | hn
      · cases hnew _ hn
      · obtain rfl : n = .clearDispatched id (s.tasks id).store (s.tasks id).slot := by
          simpa using hn
        exact .inr ⟨id, _, _, rfl, by rw [TransferTask.target, hkind]⟩
  | @request id retry _ _ _ _ _ _ =>
    have hr := requested_requestTransfer now retry id s
    obtain ⟨new, c, hlog, hbulk, hc⟩ := hr.log
    refine .of_hushed (fun j => ?_) ⟨new ++ [.send now c], by rw [hlog, List.append_assoc]; rfl,
      fun a ha => ?_⟩
    · rw [TransferTask.target, hr.kind, hr.store, hr.slot]
      rfl
    · rcases List.mem_append.mp ha with ha | ha
      · exact Act.hushed_of_bulk (hbulk a ha)
      · rw [List.mem_singleton.mp ha]
        exact Command.request?.hushed hc now

theorem dispatches_triggerMoves {now : Time} {stale : Prop} {s t : Lane}
    (hm : TriggerMoves now stale s t) : s.Dispatches t :=
  hm.keep (P := s.Dispatches) (fun _ _ hmove hs => hs.trans (dispatches_triggerMove hmove))
    (.refl s)

/-! ## Steps -/

/-- The switcher's error ends the task's transfer: it is no refusal that is tried again. -/
def Fatal (s : Lane) (id : TaskId) (status : ℕ) : Prop :=
  status ≠ 5 ∧ status ≠ 6 ∧ (status = 1 → tryAgainAttempts ≤ (s.tasks id).tryAgain)

/-- What an event raised in a step from `s` to `t` can be relied on for. -/
inductive Said (s : Lane) (e : LaneEvent) (t : Lane) : Notice → Prop
  | progress {n : Notice} : (Act.notice n).bulk = true → Said s e t n
  | cleared {id : TaskId} {store : Store} {slot : Slot} :
      (t.tasks id).target = (.clear, store, slot) → Said s e t (.clearDispatched id store slot)
  | uploaded {id : TaskId} {transfer : ℕ} {store : Store} {slot : Slot} :
      e = .fileTransferDataComplete transfer → s.Answers transfer id →
      (t.tasks id).target = (.upload, store, slot) → Said s e t (.uploadDone id store slot)
  | downloaded {id : TaskId} {transfer : ℕ} {store : Store} {slot : Slot} {data : Bytes} :
      e = .fileTransferDataComplete transfer → s.Answers transfer id →
      (t.tasks id).target = (.download, store, slot) →
      Said s e t (.downloadDone id store slot data)
  | undecoded {id : TaskId} {transfer : ℕ} :
      e = .fileTransferDataComplete transfer → s.Answers transfer id →
      Said s e t (.completionHandlingFailed id)
  | failed {id : TaskId} {transfer status : ℕ} :
      e = .fileTransferError transfer status → s.Answers transfer id → s.Fatal id status →
      Said s e t (.fileTransferError id transfer status)

/-- An event that reports a success names the task's target. -/
theorem Said.target {s t : Lane} {e : LaneEvent} {n : Notice} (h : Said s e t n) {id : TaskId}
    {target : TransferKind × Store × Slot} (hn : n.success? = some (id, target)) :
    (t.tasks id).target = target := by
  cases h with
  | progress hbulk =>
    cases n with
    | transferProgress | uploadProgress => cases hn
    | _ => cases hbulk
  | cleared htarget | uploaded _ _ htarget | downloaded _ _ htarget =>
    cases hn
    exact htarget
  | undecoded _ _ => cases hn
  | failed _ _ _ => cases hn

theorem outcome?_of_success? {n : Notice} {id : TaskId} {target : TransferKind × Store × Slot}
    (hn : n.success? = some (id, target)) : (n.outcome? id).isSome := by
  cases n with
  | uploadDone | downloadDone | clearDispatched =>
    cases hn
    simp [Notice.outcome?]
  | _ => cases hn

/-- The completion of the task in flight is told as one. -/
theorem said_completionNotice {s t : Lane} (hwf : s.Wf) {id : TaskId} {transfer : ℕ}
    (ha : s.Answers transfer id) (raw : Bytes)
    (htarget : (t.tasks id).target = (s.tasks id).target) :
    Said s (.fileTransferDataComplete transfer) t (completionNotice id (s.tasks id) raw) := by
  have hclear := (hwf.inFlight id ha.inFlight).2.1
  unfold completionNotice
  split
  · rename_i hkind
    exact .uploaded rfl ha (by rw [htarget, TransferTask.target, hkind])
  · rename_i hkind
    split
    · refine .downloaded rfl ha ?_
      rw [htarget, TransferTask.target]
      cases hk : (s.tasks id).kind with
      | download => rfl
      | upload => exact absurd hk hkind
      | clear => exact absurd hk hclear
    · exact .undecoded rfl ha

/-- Taking in the event changes nothing that an event raised is about. -/
theorem Said.of_receive {s t : Lane} {env : Env} {e e' : LaneEvent} {n : Notice}
    (h : Said (s.receive env e') e t n) : Said s e t n := by
  have hanswers : ∀ {transfer id}, (s.receive env e').Answers transfer id →
      s.Answers transfer id := fun ha => ⟨ha.inFlight, ha.tid, ha.notDrained⟩
  cases h with
  | progress hbulk => exact .progress hbulk
  | cleared htarget => exact .cleared htarget
  | uploaded he ha htarget => exact .uploaded he (hanswers ha) htarget
  | downloaded he ha htarget => exact .downloaded he (hanswers ha) htarget
  | undecoded he ha => exact .undecoded he (hanswers ha)
  | failed he ha hfatal => exact .failed he (hanswers ha) hfatal

/-- What an opening raises at its end can be relied on. -/
theorem said_closing {now : Time} {s m t : Lane} {e : LaneEvent} {n : Notice} (hwf : s.Wf)
    (ho : Opening now s e m (some n)) (htarget : ∀ id, s.transfer = some id →
      (t.tasks id).target = (s.tasks id).target) : Said s e t n := by
  cases ho with
  | triedOut ha htries => exact .failed rfl ha ⟨by simp, by simp, fun _ => htries⟩
  | failed ha h1 h5 h6 => exact .failed rfl ha ⟨h5, h6, fun h => absurd h h1⟩
  | completed ha => exact said_completionNotice hwf ha _ (htarget _ ha.inFlight)

/-- A clear is announced by the trigger alone. -/
theorem no_clear_closing {now : Time} {s m : Lane} {e : LaneEvent} {id : TaskId} {store : Store}
    {slot : Slot} (ho : Opening now s e m (some (.clearDispatched id store slot))) : False := by
  generalize hn : (some (.clearDispatched id store slot) : Option Notice) = closing at ho
  cases ho with
  | completed _ =>
    unfold completionNotice at hn
    split at hn
    · cases hn
    · split at hn <;> cases hn
  | _ => cases hn

/-- A call that creates a task opens with it. -/
theorem opening_newTask {now : Time} {s m : Lane} {e : LaneEvent} {closing : Option Notice}
    {task : TransferTask} (ho : Opening now s e m closing) (h : newTask e = some task) :
    m = s.enqueue task := by
  cases ho with
  | quiet hidle _ => cases e <;> first | exact absurd hidle id | cases h
  | enqueue he =>
    obtain rfl := Option.some.inj (h.symm.trans he)
    rfl
  | _ => cases h

/-- A step logs the event first, leaves every task its target, sends no CSTL unannounced, and
raises nothing that cannot be relied on. -/
theorem step_tells {s : Lane} (hwf : s.Wf) (a : Env × LaneEvent) :
    (∀ id < s.nextTask, ((s.step a).tasks id).target = (s.tasks id).target) ∧
    (∀ task, newTask a.2 = some task → ((s.step a).tasks s.nextTask).target = task.target) ∧
    ∃ new, (s.step a).log = new ++ .recv a.1.now a.2 :: s.log ∧ ClearsAnnounced new ∧
      ∀ n, .notice n ∈ new → Said s a.2 (s.step a) n := by
  obtain ⟨m, m', closing, hopen, hmoves, heq⟩ := step_splits hwf a
  have hr := wf_receive hwf a.1 a.2
  have hdispatch := dispatches_triggerMoves hmoves
  have htasks : (s.step a).tasks = m'.tasks := by
    rw [heq]
    cases closing <;> rfl
  have hold : ∀ id < s.nextTask, (m.tasks id).target = (s.tasks id).target := by
    intro id hid
    rcases opening_tasks hopen with ⟨task, -, rfl⟩ | h
    · have hne : id ≠ (s.receive a.1 a.2).nextTask := Nat.ne_of_lt hid
      rw [tasks_enqueue, if_neg hne]
      rfl
    · exact h id
  have htarget : ∀ id < s.nextTask, ((s.step a).tasks id).target = (s.tasks id).target := by
    intro id hid
    rw [htasks, hdispatch.target, hold id hid]
  refine ⟨htarget, fun task htask => ?_, ?_⟩
  · obtain rfl := opening_newTask hopen htask
    rw [htasks, hdispatch.target]
    have hnew : s.nextTask = (s.receive a.1 a.2).nextTask := rfl
    rw [tasks_enqueue, if_pos hnew]
  · obtain ⟨new, hnew, hadds⟩ := opening_log_eq hopen
    obtain ⟨new', hnew', hclears', hsaid'⟩ := hdispatch.log
    have hhushed : ∀ b ∈ new, b.hushed = true := by
      intro b hb
      rcases hadds b hb with hbulk | ⟨k, rfl⟩
      · exact Act.hushed_of_bulk hbulk
      · rfl
    have hclears := (clearsAnnounced_of_hushed hhushed).append hclears'
    have hlog : m'.log = (new' ++ new) ++ .recv a.1.now a.2 :: s.log := by
      rw [hnew', hnew, List.append_assoc]
      rfl
    have hsaid : ∀ n, .notice n ∈ new' ++ new → Said s a.2 (s.step a) n := by
      intro n hn
      rcases List.mem_append.mp hn with hn | hn
      · rcases hsaid' n hn with hbulk | ⟨id, store, slot, rfl, hid⟩
        · exact .progress hbulk
        · exact .cleared (by rw [htasks, hdispatch.target, hid])
      · exact .progress (hhushed _ hn)
    cases closing with
    | none => exact ⟨new' ++ new, by rw [heq, ← hlog]; rfl, hclears, hsaid⟩
    | some n =>
      have hclosing : Said s a.2 (s.step a) n := by
        refine (said_closing hr hopen fun id hid => ?_).of_receive
        exact htarget id (hwf.made _ id (hwf.inFlight id hid).1.mem)
      refine ⟨.notice n :: (new' ++ new), by rw [heq, List.cons_append, ← hlog]; rfl, ?_, ?_⟩
      · have hsilent : ∀ id store slot, n ≠ .clearDispatched id store slot := by
          rintro id store slot rfl
          exact no_clear_closing hopen
        intro id store slot
        simpa [Ne.symm (hsilent id store slot)] using hclears id store slot
      · intro n' hn'
        rcases List.mem_cons.mp hn' with heq' | hn'
        · cases heq'
          exact hclosing
        · exact hsaid n' hn'

/-! ## The tasks an event speaks of -/

/-- A step creates at most the task of the call it handles. -/
theorem step_nextTask {s : Lane} (hwf : s.Wf) (a : Env × LaneEvent) :
    (s.step a).nextTask = s.nextTask + if (newTask a.2).isSome then 1 else 0 := by
  rcases event_cases a.2 with he | ⟨task, he⟩ | hcall
  · rw [he.1, (shrinks_step hwf he).nextTask]
    rfl
  · rw [he, (shrinks_step_enqueue hwf he).nextTask]
    rfl
  · rw [step_call_nextTask hcall]
    rcases hcall with ⟨id, he⟩ | he | he <;> rw [he] <;> rfl

/-- `here_step`, with the task a step creates named. -/
theorem here_created {s : Lane} (hwf : s.Wf) (a : Env × LaneEvent) (id : TaskId) :
    (s.step a).here id + (s.stepOutcomes a id).length =
      s.here id + if (newTask a.2).isSome ∧ id = s.nextTask then 1 else 0 := by
  have hrange : (s.nextTask ≤ id ∧ id < (s.step a).nextTask) ↔
      (newTask a.2).isSome ∧ id = s.nextTask := by
    rw [step_nextTask hwf a]
    cases (newTask a.2).isSome with
    | true =>
      rw [if_pos rfl, Nat.lt_succ_iff]
      exact ⟨fun h => ⟨rfl, Nat.le_antisymm h.2 h.1⟩, fun h => ⟨h.2.ge, h.2.le⟩⟩
    | false => simp
  rw [(here_step hwf a id).2, if_congr hrange rfl rfl]

/-- The task is queued, or the event is the call that creates it. -/
def Pending (s : Lane) (e : LaneEvent) (id : TaskId) : Prop :=
  id ∈ s.queued ∨ (newTask e).isSome ∧ id = s.nextTask

/-- What is queued after a step was queued before, or is the task the step creates. -/
theorem queued_step {s : Lane} (hwf : s.Wf) {a : Env × LaneEvent} {id : TaskId}
    (h : id ∈ (s.step a).queued) : s.Pending a.2 id := by
  have hsum := here_created hwf a id
  by_contra hnot
  obtain ⟨hq, hnew⟩ := not_or.mp hnot
  simp only [here, if_pos h, if_neg hq, if_neg hnew] at hsum
  omega

theorem lt_nextTask_of_queued {s : Lane} (hwf : s.Wf) {id : TaskId} (h : id ∈ s.queued) :
    id < s.nextTask := by
  obtain ⟨k, hk⟩ := mem_queued.mp h
  exact hwf.made k id hk

/-- A task an event speaks of was queued until the step that raised it, or created in it. -/
theorem said_leaves {s : Lane} (hwf : s.Wf) {a : Env × LaneEvent} {new : List Act}
    (hlog : (s.step a).log = new ++ s.log) {id : TaskId} {n : Notice} (hn : .notice n ∈ new)
    (hid : (n.outcome? id).isSome) :
    id ∉ (s.step a).queued ∧ id < (s.step a).nextTask ∧ s.Pending a.2 id := by
  have hsum := here_created hwf a id
  have hlen : 1 ≤ (s.stepOutcomes a id).length := by
    obtain ⟨o, ho⟩ := Option.isSome_iff_exists.mp hid
    have hmem : o ∈ outcomesIn id new := List.mem_filterMap.mpr ⟨_, hn, ho⟩
    rw [stepOutcomes_eq id hlog, List.length_append]
    have := List.length_pos_of_mem hmem
    omega
  by_cases hq : id ∈ s.queued
  · have hlt := lt_nextTask_of_queued hwf hq
    simp only [here, if_pos hq, Nat.ne_of_lt hlt, and_false, if_false] at hsum
    refine ⟨fun h => ?_, hlt.trans_le (here_step hwf a id).1, .inl hq⟩
    rw [if_pos h] at hsum
    omega
  · by_cases hnew : (newTask a.2).isSome ∧ id = s.nextTask
    · simp only [here, if_neg hq, if_pos hnew] at hsum
      refine ⟨fun h => ?_, ?_, .inr hnew⟩
      swap
      · rw [step_nextTask hwf a, if_pos hnew.1, hnew.2]
        exact Nat.lt_succ_self _
      rw [if_pos h] at hsum
      omega
    · simp only [here, if_neg hq, if_neg hnew] at hsum
      omega

/-- A task leaves, or is not queued when it is created, with an event that speaks of it or by
a call. -/
theorem leaves_said {s : Lane} (hwf : s.Wf) {a : Env × LaneEvent} {new : List Act}
    (hlog : (s.step a).log = new ++ s.log) {id : TaskId} (hq : s.Pending a.2 id)
    (hgone : id ∉ (s.step a).queued) :
    (∃ n, .notice n ∈ new ∧ (n.outcome? id).isSome) ∨
      a.2 = .dequeueClear id ∨ a.2 = .abortTransfers ∨ a.2 = .resetTransferLane := by
  have hsum := here_created hwf a id
  have hone : s.here id + (if (newTask a.2).isSome ∧ id = s.nextTask then 1 else 0) ≠ 0 := by
    rcases hq with hq | hq
    · simp [here, hq]
    · simp [hq]
  simp only [here, if_neg hgone, stepOutcomes_eq id hlog, List.length_append] at hsum hone
  by_cases hraised : outcomesIn id new = []
  · right
    have hcall : s.callOutcome a.2 id ≠ [] := by
      intro h
      rw [h, hraised] at hsum
      simp only [List.length_nil] at hsum
      omega
    unfold callOutcome at hcall
    split at hcall
    · split at hcall
      · rename_i task heq
        split at hcall
        · rename_i hid
          exact .inl (by rw [heq, hid])
        · exact absurd rfl hcall
      · rename_i heq
        exact .inr (.inl heq)
      · rename_i heq
        exact .inr (.inr heq)
      · exact absurd rfl hcall
    · exact absurd rfl hcall
  · left
    obtain ⟨o, ho⟩ := List.exists_mem_of_ne_nil _ hraised
    obtain ⟨b, hb, hbo⟩ := List.mem_filterMap.mp ho
    cases b with
    | notice n => exact ⟨n, hb, Option.isSome_iff_exists.mpr ⟨o, hbo⟩⟩
    | _ => cases hbo

/-- A call that takes a task off its queue leaves it off, and raises nothing for it. -/
theorem call_takes {s : Lane} (hwf : s.Wf) {a : Env × LaneEvent} {id : TaskId}
    (ha : a.2 = .dequeueClear id ∨ a.2 = .abortTransfers ∨ a.2 = .resetTransferLane)
    (hid : id < s.nextTask) : id ∉ (s.step a).queued ∧
      ∀ new, (s.step a).log = new ++ s.log → ∀ n, .notice n ∈ new → n.outcome? id = none := by
  have hcalls : (∃ j, a.2 = .dequeueClear j) ∨ a.2 = .abortTransfers ∨
      a.2 = .resetTransferLane := ha.imp_left fun h => ⟨id, h⟩
  constructor
  · intro hq
    have hsum := here_created hwf a id
    have hold : id ∈ s.queued := (queued_step hwf hq).resolve_right fun h =>
      absurd h.2 hid.ne
    have hcall : 1 ≤ (s.callOutcome a.2 id).length := by
      unfold callOutcome
      rw [if_pos hold]
      rcases ha with h | h | h <;> simp [h]
    have hlen : (s.stepOutcomes a id).length =
        (s.callOutcome a.2 id).length + (outcomesIn id _).length := List.length_append
    simp only [here, if_pos hq, if_pos hold, if_neg fun h : _ ∧ id = s.nextTask =>
      absurd h.2 hid.ne] at hsum
    omega
  · intro new hlog n hn
    obtain ⟨new', hlog', hnone⟩ := step_call_log hcalls
    obtain rfl : new = new' := List.append_cancel_right (hlog.symm.trans hlog')
    by_contra hsome
    obtain ⟨o, ho⟩ := Option.ne_none_iff_exists'.mp hsome
    have hmem : o ∈ outcomesIn id new := List.mem_filterMap.mpr ⟨_, hn, ho⟩
    rw [hnone id] at hmem
    cases hmem

/-- The task was created, and is neither queued nor in flight any more. -/
def Gone (s : Lane) (id : TaskId) : Prop := id < s.nextTask ∧ id ∉ s.queued

theorem Gone.step {s : Lane} (hwf : s.Wf) {id : TaskId} (h : s.Gone id) (a : Env × LaneEvent) :
    (s.step a).Gone id := by
  refine ⟨h.1.trans_le (here_step hwf a id).1, fun hq => ?_⟩
  rcases queued_step hwf hq with hq | ⟨-, rfl⟩
  · exact h.2 hq
  · exact absurd h.1 (Nat.lt_irrefl _)

/-- The task in flight is queued. -/
theorem Gone.not_inFlight {s : Lane} (hwf : s.Wf) {id : TaskId} (h : s.Gone id) :
    s.transfer ≠ some id := fun hid =>
  h.2 (mem_queued.mpr ⟨_, (hwf.inFlight id hid).1.mem⟩)

/-- The task an FTDE would end. -/
def rejected (s : Lane) (transfer status : ℕ) : Option TaskId :=
  s.transfer.filter fun id =>
    (s.tasks id).tid = some transfer ∧ (s.draining.all fun d => d.tid ≠ transfer) ∧
      status ≠ 5 ∧ status ≠ 6 ∧ (status = 1 → tryAgainAttempts ≤ (s.tasks id).tryAgain)

theorem rejected_eq {s : Lane} {transfer status : ℕ} {id : TaskId} (ha : s.Answers transfer id)
    (hf : s.Fatal id status) : s.rejected transfer status = some id := by
  have hdrain : (s.draining.all fun d => d.tid ≠ transfer) = true := by
    cases hd : s.draining with
    | none => rfl
    | some d => simpa using ha.notDrained d hd
  rw [rejected, ha.inFlight, Option.filter_some, if_pos]
  exact decide_eq_true ⟨ha.tid, hdrain, hf⟩

/-- A task in flight is no clear. -/
theorem Answers.not_clear {s : Lane} (hwf : s.Wf) {transfer : ℕ} {id : TaskId}
    (ha : s.Answers transfer id) {a : Env × LaneEvent} :
    ((s.step a).tasks id).target.1 ≠ .clear := by
  obtain ⟨hfront, hkind, -⟩ := hwf.inFlight id ha.inFlight
  rw [(step_tells hwf a).1 id (hwf.made _ id hfront.mem)]
  exact hkind

/-- A clear that leaves by itself has been dispatched. -/
theorem clear_leaves {s : Lane} (hwf : s.Wf) {a : Env × LaneEvent} {id : TaskId} {store : Store}
    {slot : Slot} (hq : s.Pending a.2 id) (hgone : id ∉ (s.step a).queued)
    (htarget : ((s.step a).tasks id).target = (.clear, store, slot)) :
    (∃ now, .send now (.clearStill id store slot) ∈ (s.step a).log) ∨
      a.2 = .dequeueClear id ∨ a.2 = .abortTransfers ∨ a.2 = .resetTransferLane := by
  obtain ⟨-, -, new, hlog, hclears, htells⟩ := step_tells hwf a
  have hlog' : (s.step a).log = (new ++ [.recv a.1.now a.2]) ++ s.log := by simp [hlog]
  rcases leaves_said hwf hlog' hq hgone with ⟨n, hn, hid⟩ | hcall
  · left
    have hn : .notice n ∈ new := by
      rcases List.mem_append.mp hn with hn | hn
      · exact hn
      · cases List.mem_singleton.mp hn
    have hnot : ∀ {transfer}, ¬ s.Answers transfer id := fun ha =>
      ha.not_clear hwf (a := a) (by rw [htarget])
    have htask : ∀ {task : TaskId} {o : Outcome}, (if task = id then some o else none).isSome →
        task = id := by
      intro task o h
      by_contra hne
      rw [if_neg hne] at h
      cases h
    have hdispatched : n = .clearDispatched id store slot := by
      have hsaid := htells n hn
      cases hsaid with
      | progress hbulk =>
        cases n with
        | transferProgress | uploadProgress => cases hid
        | _ => cases hbulk
      | cleared hclear =>
        obtain rfl := htask hid
        rw [htarget] at hclear
        cases hclear
        rfl
      | uploaded _ ha _ =>
        obtain rfl := htask hid
        exact absurd ha hnot
      | downloaded _ ha _ =>
        obtain rfl := htask hid
        exact absurd ha hnot
      | undecoded _ ha =>
        obtain rfl := htask hid
        exact absurd ha hnot
      | failed _ ha _ =>
        obtain rfl := htask hid
        exact absurd ha hnot
    obtain ⟨now, hsend⟩ := (hclears id store slot).mpr (hdispatched ▸ hn)
    exact ⟨now, by rw [hlog]; exact List.mem_append_left _ hsend⟩
  · exact .inr hcall

/-! ## What the log says of a task -/

/-- A task whose CSTL is in the log is gone. -/
theorem cleared_gone {s : Lane} (h : Reachable s) {id : TaskId} {now : Time} {store : Store}
    {slot : Slot} (hsent : .send now (.clearStill id store slot) ∈ s.log) :
    id < s.nextTask ∧ id ∉ s.queued := by
  have key : ∀ id now store slot, .send now (.clearStill id store slot) ∈ s.log →
      id < s.nextTask ∧ id ∉ s.queued := by
    refine Library.Reach.invariant (P := fun s => ∀ id now store slot,
      .send now (.clearStill id store slot) ∈ s.log → id < s.nextTask ∧ id ∉ s.queued) ?_ ?_ h
    · rintro s ⟨tid, -, -, rfl⟩ id now store slot hmem
      cases hmem
    · intro s a hreach hs ha id now store slot hmem
      have hwf := wf_reachableWhen hreach
      obtain ⟨-, -, new, hlog, hclears, -⟩ := step_tells hwf a
      have hlog' : (s.step a).log = (new ++ [.recv a.1.now a.2]) ++ s.log := by simp [hlog]
      rw [hlog] at hmem
      rcases List.mem_append.mp hmem with hmem | hmem
      · have hnotice := (hclears id store slot).mp ⟨now, hmem⟩
        have hsaid := @said_leaves _ hwf _ _ hlog' id _ (List.mem_append_left _ hnotice)
          (by simp [Notice.outcome?])
        exact ⟨hsaid.2.1, hsaid.1⟩
      · have hold := hs id now store slot ((List.mem_cons.mp hmem).resolve_left (by simp))
        refine ⟨?_, fun hq => ?_⟩
        · exact hold.1.trans_le (here_step hwf a id).1
        · rcases queued_step hwf hq with hq | ⟨-, rfl⟩
          · exact hold.2 hq
          · exact absurd hold.1 (Nat.lt_irrefl _)
  exact key id now store slot hsent

/-- The task is gone and its CSTL was not sent. -/
structure Abandoned (s : Lane) (id : TaskId) : Prop where
  made : id < s.nextTask
  gone : id ∉ s.queued
  unsent : ∀ now store slot, .send now (.clearStill id store slot) ∉ s.log

/-- An abandoned clear is never dispatched. -/
theorem Abandoned.step {s : Lane} (hwf : s.Wf) {id : TaskId} (h : s.Abandoned id)
    (a : Env × LaneEvent) : (s.step a).Abandoned id := by
  have hpending : ¬ s.Pending a.2 id := by
    rintro (hq | ⟨-, rfl⟩)
    · exact h.gone hq
    · exact absurd h.made (Nat.lt_irrefl _)
  obtain ⟨-, -, new, hlog, hclears, -⟩ := step_tells hwf a
  have hlog' : (s.step a).log = (new ++ [.recv a.1.now a.2]) ++ s.log := by simp [hlog]
  refine ⟨h.made.trans_le (here_step hwf a id).1, fun hq => hpending (queued_step hwf hq), ?_⟩
  intro now store slot hsend
  rw [hlog] at hsend
  rcases List.mem_append.mp hsend with hsend | hsend
  · have hnotice := (hclears id store slot).mp ⟨now, hsend⟩
    exact hpending (@said_leaves _ hwf _ _ hlog' id _ (List.mem_append_left _ hnotice)
      (by simp [Notice.outcome?])).2.2
  · exact h.unsent now store slot ((List.mem_cons.mp hsend).resolve_left (by simp))

/-- A clear that is taken off its queue is abandoned. -/
theorem abandoned_dequeue {s : Lane} (h : Reachable s) {id : TaskId} (hq : id ∈ s.queued)
    (env : Env) : (s.step (env, .dequeueClear id)).Abandoned id := by
  have hwf := wf_reachableWhen h
  have hmade := lt_nextTask_of_queued hwf hq
  obtain ⟨hgone, hraised⟩ := call_takes hwf (a := (env, .dequeueClear id)) (.inl rfl) hmade
  obtain ⟨-, -, new, hlog, hclears, -⟩ := step_tells hwf (env, .dequeueClear id)
  refine ⟨hmade.trans_le (here_step hwf _ id).1, hgone, fun now store slot hsend => ?_⟩
  have hold : .send now (.clearStill id store slot) ∉ s.log := fun hsent =>
    (cleared_gone h hsent).2 hq
  rw [hlog] at hsend
  rcases List.mem_append.mp hsend with hsend | hsend
  · have hnotice := (hclears id store slot).mp ⟨now, hsend⟩
    have hnone := hraised (new ++ [_]) (by rw [hlog, List.append_assoc]; rfl) _
      (List.mem_append_left _ hnotice)
    simp [Notice.outcome?] at hnone
  · exact hold ((List.mem_cons.mp hsend).resolve_left (by simp))

/-- A move of the trigger sends a request for a front task, or says nothing about requests. -/
theorem triggerMove_log {now : Time} {stale : Prop} {s t : Lane}
    (hm : TriggerMove now stale s t) : SameRequests s.log t.log ∨
      ∃ id transfer, s.Front id ∧ lastRequest t.log = some (id, transfer) := by
  cases hm with
  | wake due => exact .inl (sameRequests_refl _)
  | fail => exact .inl (sameRequests_cons ⟨rfl, fun _ => rfl⟩)
  | pauseOver _ _ _ => exact .inl (sameRequests_refl _)
  | endYield _ _ => exact .inl (sameRequests_refl _)
  | clean _ _ =>
    left
    obtain ⟨new, heq, hnew⟩ := cleanLocks_eq now s
    rw [heq]
    refine sameRequests_append fun a ha => ?_
    obtain ⟨k, -, rfl⟩ := hnew a ha
    exact Act.silent_lock ..
  | askForLock _ _ _ _ _ _ => exact .inl (sameRequests_cons (lockRequestFor_silent ..))
  | @clear id _ _ _ _ _ =>
    left
    refine SameRequests.trans ?_ (sameRequests_letGo now _ rfl)
    exact (sameRequests_cons ⟨rfl, fun _ => rfl⟩).trans (sameRequests_cons (Act.silent_notice _))
  | @request id retry _ hfront _ _ _ _ =>
    have hr := requested_requestTransfer now retry id s
    obtain ⟨new, c, hlog, hbulk, hc⟩ := hr.log
    have hsame : SameRequests (.send now c :: s.log) (s.requestTransfer now retry id).log := by
      rw [hlog]
      exact sameRequests_append fun a ha => Act.silent_of_bulk (hbulk a ha)
    refine .inr ⟨id, s.nextTransferId retry, hfront, ?_⟩
    rw [hsame.lastRequest]
    simp [lastRequest, Act.request?, hc]

/-- The last request was for a task that was created. -/
theorem requests_made {s : Lane} (h : Reachable s) {r : TaskId × ℕ}
    (hr : lastRequest s.log = some r) : r.1 < s.nextTask := by
  have key : ∀ r, lastRequest s.log = some r → r.1 < s.nextTask := by
    refine Library.Reach.invariant
      (P := fun s => ∀ r, lastRequest s.log = some r → r.1 < s.nextTask) ?_ ?_ h
    · rintro s ⟨tid, -, -, rfl⟩ r hr
      cases hr
    · intro s a hreach hs ha
      have hwf := wf_reachableWhen hreach
      obtain ⟨m, m', closing, hopen, hmoves, heq⟩ := step_splits hwf a
      have hstep := step_nextTask hwf a
      have hnext : m'.nextTask = (s.step a).nextTask ∧
          lastRequest (s.step a).log = lastRequest m'.log := by
        rw [heq]
        cases closing with
        | none => exact ⟨rfl, rfl⟩
        | some n => exact ⟨rfl, lastRequest_cons rfl⟩
      have hm : m.Wf := wf_opening hopen (wf_receive hwf a.1 a.2) fun id hid => by
        obtain ⟨env, e⟩ := a
        obtain rfl : e = .dequeueClear id := hid
        exact ha.1.2.2
      have hmoved : m'.Wf ∧ m'.nextTask = m.nextTask ∧ ∀ r, lastRequest m'.log = some r →
          lastRequest m.log = some r ∨ r.1 < m'.nextTask := by
        refine hmoves.keep (P := fun t => t.Wf ∧ t.nextTask = m.nextTask ∧
          ∀ r, lastRequest t.log = some r → lastRequest m.log = some r ∨ r.1 < t.nextTask) ?_
          ⟨hm, rfl, fun r hr => .inl hr⟩
        rintro t u hmove ⟨ht, htnext, hlast⟩
        have hu := (shrinks_triggerMove hmove ht).nextTask
        refine ⟨wf_triggerMove t u hmove ht, hu.trans htnext, fun r hr => ?_⟩
        rw [hu]
        rcases triggerMove_log hmove with hsame | ⟨id, transfer, hfront, hid⟩
        · rw [hsame.lastRequest] at hr
          exact hlast r hr
        · obtain rfl := Option.some.inj (hid.symm.trans hr)
          exact .inr (ht.made _ id hfront.mem)
      intro r hr
      rw [hnext.2] at hr
      rw [← hnext.1]
      rcases hmoved.2.2 r hr with hr | hr
      · rw [(opening_log hopen).lastRequest] at hr
        have hrecv : lastRequest (s.receive a.1 a.2).log = lastRequest s.log := lastRequest_cons rfl
        rw [hrecv] at hr
        refine (hs r hr).trans_le ?_
        rw [hnext.1, hstep]
        exact Nat.le_add_right _ _
      · exact hr
  exact key r hr

/-- The log has a message that answers a request of the task: the last request before it is
the task's, under the id the message carries. -/
def AnsweredBy (id : TaskId) (message : ℕ → LaneEvent) (log : List Act) : Prop :=
  ∃ post now transfer past, log = post ++ .recv now (message transfer) :: past ∧
    lastRequest past = some (id, transfer)

/-- An answer stays in the log. -/
theorem AnsweredBy.append {id : TaskId} {message : ℕ → LaneEvent} {log : List Act}
    (h : AnsweredBy id message log) (new : List Act) : AnsweredBy id message (new ++ log) := by
  obtain ⟨post, now, transfer, past, rfl, hlast⟩ := h
  exact ⟨new ++ post, now, transfer, past, (List.append_assoc ..).symm, hlast⟩

/-- A message that the lane takes for the task in flight answers its last request. -/
theorem answeredBy_step {s : Lane} (hwf : s.Wf) (h : s.Orderly) {a : Env × LaneEvent}
    {message : ℕ → LaneEvent} {id : TaskId} {transfer : ℕ} (he : a.2 = message transfer)
    (ha : s.Answers transfer id) : AnsweredBy id message (s.step a).log := by
  obtain ⟨-, -, new, hlog, -, -⟩ := step_tells hwf a
  have htid := (hwf.inFlight id ha.inFlight).2.2
  have htransfer : transfer = s.transferId := Option.some.inj (ha.tid.symm.trans htid)
  refine ⟨new, a.1.now, transfer, s.log, by rw [hlog, he], ?_⟩
  rw [h.lastTask id ha.inFlight, htransfer]

end Lane

end Bmdwire
