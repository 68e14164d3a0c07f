import Bmdwire.Analysis.LaneReleases
import Bmdwire.Interface.LaneLog

/-!
# One transfer request at a time

Between two transfer requests the first is answered, by its FTDC or FTDE, an abort or a
reset, and a task is asked for again after FTDE 1 at most `TRY_AGAIN_ATTEMPTS` times, in
every run. A request for another task carries another id as long as no elapsed pause is
handed to a task it was not for (`PauseKept`); the trigger that does hand it on repeats the
id of the refused request for the task it picks.
-/

set_option autoImplicit false

namespace Bmdwire

open Library (Dict Every every_cons)

/-- The retries of a task, and the one to come if its request was refused last. -/
def toll (id : TaskId) (log : List Act) : ℕ :=
  retries id log + if refusedLast log = some id then 1 else 0

theorem SameRequests.toll {l l' : List Act} (h : SameRequests l l') (id : TaskId) :
    toll id l' = toll id l := by
  simp only [Bmdwire.toll, h.retries, h.refusedLast]

namespace Lane

/-- The log's account of the requests agrees with the lane's: the outstanding request is
the one in flight, the last one carries the current id, and refusals are counted against
their tasks. -/
structure Orderly (s : Lane) : Prop where
  outstanding : outstanding s.log =
    if s.transferRequested then s.transfer.map fun id => (id, s.transferId) else none
  lastId : ∀ r, lastRequest s.log = some r → r.2 = s.transferId
  lastTask : ∀ id, s.transfer = some id → lastRequest s.log = some (id, s.transferId)
  toll : ∀ id, toll id s.log ≤ (s.tasks id).tryAgain
  unknown : ∀ id, s.nextTask ≤ id → Bmdwire.toll id s.log = 0
  patient : ∀ k, ∀ id ∈ s.queue k, (s.tasks id).tryAgain ≤ tryAgainAttempts
  bounded : ∀ id, retries id s.log ≤ tryAgainAttempts
  alone : Every RequestedAlone s.log

/-- A change that leaves the request and what the log says of it alone. -/
theorem Orderly.frame {s t : Lane} (h : s.Orderly) (hlog : SameRequests s.log t.log)
    (hreq : t.transferRequested = s.transferRequested) (htransfer : t.transfer = s.transfer)
    (hid : t.transferId = s.transferId) (hnext : s.nextTask ≤ t.nextTask)
    (htry : ∀ id, Bmdwire.toll id s.log ≤ (t.tasks id).tryAgain)
    (hpatient : ∀ k, ∀ id ∈ t.queue k, (t.tasks id).tryAgain ≤ tryAgainAttempts) :
    t.Orderly where
  outstanding := by
    rw [hlog.outstanding, hreq, htransfer, hid]
    exact h.outstanding
  lastId := by
    rw [hlog.lastRequest, hid]
    exact h.lastId
  lastTask := by
    rw [hlog.lastRequest, hid, htransfer]
    exact h.lastTask
  toll id := (hlog.toll id).trans_le (htry id)
  unknown id hle := (hlog.toll id).trans (h.unknown id (hnext.trans hle))
  patient := hpatient
  bounded id := (hlog.retries id).trans_le (h.bounded id)
  alone := hlog.alone h.alone

/-- A change that touches no task and takes none on. -/
theorem Orderly.same {s t : Lane} (h : s.Orderly) (hlog : SameRequests s.log t.log)
    (hreq : t.transferRequested = s.transferRequested) (htransfer : t.transfer = s.transfer)
    (hid : t.transferId = s.transferId) (hnext : t.nextTask = s.nextTask)
    (htry : ∀ id, (t.tasks id).tryAgain = (s.tasks id).tryAgain)
    (hqueue : ∀ k, ∀ id ∈ t.queue k, id ∈ s.queue k) : t.Orderly := by
  refine h.frame hlog hreq htransfer hid hnext.ge ?_ ?_
  · intro id
    rw [htry]
    exact h.toll id
  · intro k id hid
    rw [htry]
    exact h.patient k id (hqueue k id hid)

/-- The request is answered, or there is none, and the transfer may be forgotten. -/
theorem Orderly.settle {s t : Lane} {a : Act} (h : s.Orderly) (ha : a.request? = none)
    (hanswers : ∀ r, Bmdwire.outstanding s.log = some r → a.answers r.2 = true)
    (hlog : SameRequests (a :: s.log) t.log) (hreq : t.transferRequested = false)
    (htransfer : ∀ id, t.transfer = some id → s.transfer = some id)
    (hid : t.transferId = s.transferId) (hnext : t.nextTask = s.nextTask)
    (htoll : ∀ id, Bmdwire.toll id (a :: s.log) ≤ (t.tasks id).tryAgain)
    (hunknown : ∀ id, s.nextTask ≤ id → Bmdwire.toll id (a :: s.log) = 0)
    (hpatient : ∀ k, ∀ id ∈ t.queue k, (t.tasks id).tryAgain ≤ tryAgainAttempts) :
    t.Orderly where
  outstanding := by
    rw [hlog.outstanding, hreq]
    simp only [Bmdwire.outstanding, ha]
    cases ho : Bmdwire.outstanding s.log with
    | none => rfl
    | some r => simp [Option.filter, hanswers r ho]
  lastId := by
    rw [hlog.lastRequest, lastRequest_cons ha, hid]
    exact h.lastId
  lastTask := by
    intro id hid'
    rw [hlog.lastRequest, lastRequest_cons ha, hid]
    exact h.lastTask id (htransfer id hid')
  toll id := (hlog.toll id).trans_le (htoll id)
  unknown id hle := (hlog.toll id).trans (hunknown id (hnext.ge.trans hle))
  patient := hpatient
  bounded id := by
    rw [hlog.retries, retries_cons id ha]
    exact h.bounded id
  alone := hlog.alone ⟨requestedAlone_of_none ha, h.alone⟩

/-! ## The moves of the trigger -/

/-- A release is silent. -/
theorem sameRequests_letGo {s t : Lane} (now : Time) (store : Store) (hst : t.log = s.log) :
    SameRequests s.log (t.letGo now store).log := by
  obtain ⟨new, hlog, hnew⟩ := letGo_log now store t
  rw [hlog, hst]
  refine sameRequests_append fun a ha => ?_
  rw [hnew a ha]
  exact Act.silent_lock ..

/-- What a request of a front task does to the log's account. -/
theorem orderly_requested {now : Time} {retry : Bool} {id : TaskId} {s t : Lane}
    (h : s.Orderly) (hfront : s.Front id) (hfree : s.transferRequested = false)
    (hr : Requested now retry id s t) : t.Orderly := by
  obtain ⟨new, c, hlog, hbulk, hc⟩ := hr.log
  have hreq : (Act.send now c).request? = some (id, s.nextTransferId retry) := by
    simp [Act.request?, hc]
  have hsame : SameRequests (.send now c :: s.log) t.log := by
    rw [hlog]
    exact sameRequests_append fun a ha => Act.silent_of_bulk (hbulk a ha)
  have hnone : Bmdwire.outstanding s.log = none := by rw [h.outstanding, hfree]; rfl
  have hrefused : refusedLast (.send now c :: s.log) = none := by
    simp [refusedLast, hreq]
  have hretries : ∀ j, retries j (.send now c :: s.log) =
      retries j s.log + if id = j ∧ refusedLast s.log = some j then 1 else 0 := by
    intro j
    simp [retries, hreq]
  have htoll : ∀ j, retries j (.send now c :: s.log) ≤ Bmdwire.toll j s.log := by
    intro j
    rw [hretries, Bmdwire.toll]
    by_cases hj : refusedLast s.log = some j
    · simp only [hj, and_true]
      split <;> simp
    · simp [hj]
  have htoll' : ∀ j, Bmdwire.toll j (.send now c :: s.log) ≤ Bmdwire.toll j s.log := by
    intro j
    rw [Bmdwire.toll, hrefused]
    simpa using htoll j
  constructor
  case outstanding =>
    rw [hsame.outstanding, hr.transferRequested, hr.transfer, hr.transferId]
    simp [Bmdwire.outstanding, hreq]
  case lastId =>
    intro r hlast
    rw [hsame.lastRequest, lastRequest, List.findSome?_cons, hreq] at hlast
    rw [hr.transferId, ← Option.some.inj hlast]
  case lastTask =>
    intro j hj
    rw [hr.transfer] at hj
    obtain rfl := Option.some.inj hj
    rw [hsame.lastRequest, lastRequest, List.findSome?_cons, hreq, hr.transferId]
  case toll =>
    intro j
    rw [hsame.toll, hr.tryAgain]
    exact (htoll' j).trans (h.toll j)
  case unknown =>
    intro j hj
    rw [hr.nextTask] at hj
    rw [hsame.toll]
    exact Nat.le_zero.mp ((htoll' j).trans (h.unknown j hj).le)
  case patient =>
    intro k j hj
    rw [queue_eq, hr.transferQueue] at hj
    rw [hr.tryAgain]
    exact h.patient k j hj
  case bounded =>
    intro j
    rw [hsame.retries, hretries]
    by_cases hj : id = j
    · -- the task is queued, so its refusals are within the limit
      subst hj
      have := (htoll id).trans ((h.toll id).trans (h.patient _ id hfront.mem))
      rwa [hretries] at this
    · rw [if_neg fun hc => hj hc.1]
      exact h.bounded j
  case alone =>
    exact hsame.alone ⟨fun _ => hnone, h.alone⟩

/-- Every move of the trigger keeps the accounts in agreement. -/
theorem orderly_triggerMove {now : Time} {stale : Prop} {s t : Lane}
    (hm : TriggerMove now stale s t) (h : s.Orderly) : t.Orderly := by
  have hplain : ∀ {u : Lane}, SameRequests s.log u.log → u.transferRequested = s.transferRequested →
      u.transfer = s.transfer → u.transferId = s.transferId → u.nextTask = s.nextTask →
      u.tasks = s.tasks → u.transferQueue = s.transferQueue → u.Orderly := by
    intro u h1 h2 h3 h4 h5 h6 h7
    refine h.same h1 h2 h3 h4 h5 (fun id => by rw [h6]) fun k id hid => ?_
    rwa [queue_eq, h7] at hid
  cases hm with
  | wake due => exact hplain (sameRequests_refl _) rfl rfl rfl rfl rfl rfl
  | fail =>
    exact hplain (sameRequests_cons ⟨rfl, fun _ => rfl⟩) rfl rfl rfl rfl rfl rfl
  | pauseOver _ _ _ => exact hplain (sameRequests_refl _) rfl rfl rfl rfl rfl rfl
  | endYield _ _ => exact hplain (sameRequests_refl _) rfl rfl rfl rfl rfl rfl
  | clean _ _ =>
    obtain ⟨new, heq, hnew⟩ := cleanLocks_eq now s
    rw [heq]
    refine hplain (sameRequests_append fun a ha => ?_) rfl rfl rfl rfl rfl rfl
    obtain ⟨k, -, rfl⟩ := hnew a ha
    exact Act.silent_lock ..
  | askForLock _ _ _ _ _ _ =>
    exact hplain (sameRequests_cons (lockRequestFor_silent ..)) rfl rfl rfl rfl rfl rfl
  | @clear id _ hfront _ hfree _ =>
    have hsame : SameRequests s.log ((s.dispatchClear now id).letGo now (s.tasks id).store).log := by
      refine SameRequests.trans ?_ (sameRequests_letGo now _ rfl)
      exact (sameRequests_cons ⟨rfl, fun _ => rfl⟩).trans (sameRequests_cons (Act.silent_notice _))
    constructor
    case outstanding =>
      rw [hsame.outstanding, letGo_transferRequested, h.outstanding]
      show (if s.transferRequested then _ else _) = if s.transferRequested then _ else _
      rw [hfree]
      rfl
    case lastId =>
      rw [hsame.lastRequest, letGo_transferId]
      exact h.lastId
    case lastTask =>
      intro j hj
      rw [letGo_transfer] at hj
      cases hj
    case toll =>
      intro j
      rw [hsame.toll, letGo_tasks]
      exact h.toll j
    case unknown =>
      intro j hj
      rw [letGo_nextTask] at hj
      exact (hsame.toll j).trans (h.unknown j hj)
    case patient =>
      intro k j hj
      rw [letGo_queue] at hj
      rw [letGo_tasks]
      have hj : j ∈ (s.popHead id).queue k := hj
      rw [queue_popHead hfront] at hj
      split at hj
      · exact h.patient k j (List.mem_of_mem_tail hj)
      · exact h.patient k j hj
    case bounded =>
      intro j
      rw [hsame.retries]
      exact h.bounded j
    case alone => exact hsame.alone h.alone
  | request retry _ hfront _ hfree _ _ =>
    exact orderly_requested h hfront hfree (requested_requestTransfer now retry _ s)

/-! ## The openings -/

/-- What an opening adds to the log is silent. -/
theorem opening_log {now : Time} {s t : Lane} {e : LaneEvent} {closing : Option Notice}
    (ho : Opening now s e t closing) : SameRequests s.log t.log := by
  obtain ⟨new, hlog, hnew⟩ := opening_log_eq ho
  rw [hlog]
  apply sameRequests_append
  intro a ha
  rcases hnew a ha with hbulk | ⟨k, rfl⟩
  · exact Act.silent_of_bulk hbulk
  · exact Act.silent_lock ..

/-- The request outstanding is the one of the task in flight. -/
theorem Orderly.outstanding_spec {s : Lane} (h : s.Orderly) {r : TaskId × ℕ}
    (hr : Bmdwire.outstanding s.log = some r) :
    s.transferRequested = true ∧ s.transfer = some r.1 ∧ r.2 = s.transferId := by
  rw [h.outstanding] at hr
  split at hr
  · rename_i hreq
    obtain ⟨id, hid, rfl⟩ := Option.map_eq_some_iff.mp hr
    exact ⟨hreq, hid, rfl⟩
  · cases hr

/-- A message about no transfer of ours answers nothing. -/
theorem unheard_strange {s : Lane} (h : s.Orderly) (hwf : s.Wf) {now : Time} {transfer : ℕ}
    (hs : s.Strange transfer) {e : LaneEvent}
    (he : (∃ status, e = .fileTransferError transfer status) ∨
      e = .fileTransferDataComplete transfer) : Unheard (.recv now e) s.log := by
  refine ⟨rfl, fun r hr => ?_⟩
  obtain ⟨-, hid, hx⟩ := h.outstanding_spec hr
  have htid := (hwf.inFlight r.1 hid).2.2
  have hne : transfer ≠ r.2 := by
    rintro rfl
    exact hs.notInFlight r.1 hid (by rw [htid, hx])
  rcases he with ⟨status, rfl⟩ | rfl
  · simp [Act.answers, hne]
  · simp [Act.answers, hne]

/-- While a drain is on nothing is outstanding. -/
theorem unheard_draining {s : Lane} (h : s.Orderly) (hwf : s.Wf) {d : Drain}
    (hd : s.draining = some d) (now : Time) (e : LaneEvent) : Unheard (.recv now e) s.log := by
  refine ⟨rfl, fun r hr => ?_⟩
  have hnone := (hwf.draining (by simp [hd])).1
  rw [(h.outstanding_spec hr).2.1] at hnone
  cases hnone

/-- Taking in an event that answers nothing. -/
theorem Orderly.receive {s : Lane} (h : s.Orderly) {env : Env} {e : LaneEvent}
    (he : Unheard (.recv env.now e) s.log) : (s.receive env e).Orderly :=
  h.same (sameRequests_unheard he) rfl rfl rfl rfl (fun _ => rfl) fun _ _ hid => hid

/-- A message for the task in flight answers the outstanding request. -/
theorem answers_inFlight {s : Lane} (h : s.Orderly) (hwf : s.Wf) {now : Time} {id : TaskId}
    {transfer : ℕ} (ha : s.Answers transfer id) {e : LaneEvent}
    (he : (∃ status, e = .fileTransferError transfer status) ∨
      e = .fileTransferDataComplete transfer) :
    ∀ r, Bmdwire.outstanding s.log = some r → (Act.recv now e).answers r.2 = true := by
  intro r hr
  obtain ⟨-, hid, hx⟩ := h.outstanding_spec hr
  have htid := (hwf.inFlight r.1 hid).2.2
  obtain rfl : r.1 = id := Option.some.inj (hid.symm.trans ha.inFlight)
  have heq : transfer = r.2 := Option.some.inj (by rw [← ha.tid, htid, hx])
  rcases he with ⟨status, rfl⟩ | rfl
  · simp [Act.answers, heq]
  · simp [Act.answers, heq]

/-- The toll grows by an FTDE 1 only, and only that of the task it is for. -/
theorem toll_recv (id : TaskId) (a : Act) (log : List Act) (ha : a.request? = none) :
    Bmdwire.toll id (a :: log) ≤ Bmdwire.toll id log ∨
      (a.refuses?.isSome ∧ (∃ x, Bmdwire.outstanding log = some (id, x)) ∧
        Bmdwire.toll id (a :: log) ≤ Bmdwire.toll id log + 1) := by
  simp only [Bmdwire.toll, retries_cons id ha]
  by_cases hr : refusedLast (a :: log) = some id
  · by_cases hold : refusedLast log = some id
    · left
      simp [hr, hold]
    · right
      simp only [refusedLast, ha] at hr
      split at hr
      · rename_i x task y hx ho
        split at hr
        · rename_i hxy
          obtain rfl := Option.some.inj hr
          refine ⟨by simp [hx], ⟨y, ho⟩, ?_⟩
          split <;> simp
        · exact absurd hr hold
      · exact absurd hr hold
  · left
    simp [hr]

/-- An FTDE 1 for the task in flight, counted against it. -/
theorem toll_countTry {s : Lane} (h : s.Orderly) {id : TaskId} {a : Act}
    (ha : a.request? = none) (hid : s.transfer = some id) (j : TaskId) :
    Bmdwire.toll j (a :: s.log) ≤ ((s.countTry id).tasks j).tryAgain := by
  by_cases hj : j = id
  · subst hj
    have hcount : ((s.countTry j).tasks j).tryAgain = (s.tasks j).tryAgain + 1 := by
      simp [countTry]
    have htoll := h.toll j
    rcases toll_recv j a s.log ha with hle | ⟨-, -, hle⟩ <;> omega
  · have hsame : ((s.countTry id).tasks j).tryAgain = (s.tasks j).tryAgain := by
      simp [countTry, modifyTask, hj]
    rw [hsame]
    rcases toll_recv j a s.log ha with hle | ⟨-, ⟨x, hx⟩, -⟩
    · exact hle.trans (h.toll j)
    · have := (h.outstanding_spec hx).2.1
      rw [hid] at this
      exact absurd (Option.some.inj this).symm hj

/-- No refusal is counted against a task that was not created. -/
theorem toll_unknown {s : Lane} (h : s.Orderly) (hwf : s.Wf) {a : Act} (ha : a.request? = none)
    (j : TaskId) (hj : s.nextTask ≤ j) : Bmdwire.toll j (a :: s.log) = 0 := by
  rcases toll_recv j a s.log ha with hle | ⟨-, ⟨x, hx⟩, -⟩
  · exact Nat.le_zero.mp (hle.trans (h.unknown j hj).le)
  · have hid := (h.outstanding_spec hx).2.1
    have hlt := hwf.made _ j (hwf.inFlight j hid).1.mem
    exact absurd hlt (not_lt.mpr hj)

/-- An entry that refuses nothing leaves the toll. -/
theorem toll_of_refuses? {a : Act} (ha : a.request? = none) (hr : a.refuses? = none)
    (j : TaskId) (log : List Act) : Bmdwire.toll j (a :: log) ≤ Bmdwire.toll j log := by
  rcases toll_recv j a log ha with hle | ⟨h, -⟩
  · exact hle
  · rw [hr] at h
    cases h

/-- Below the limit, one more refusal stays within it. -/
theorem tryAgain_countTry_le {s : Lane} {id j : TaskId} (hn : (s.tasks id).tryAgain < tryAgainAttempts)
    (hj : (s.tasks j).tryAgain ≤ tryAgainAttempts) :
    ((s.countTry id).tasks j).tryAgain ≤ tryAgainAttempts := by
  by_cases hjid : j = id
  · subst hjid
    simp only [countTry, modifyTask_self]
    exact hn
  · simpa [countTry, modifyTask, hjid] using hj

/-- A new task has been refused by nobody. -/
theorem orderly_enqueue {s : Lane} {task : TransferTask} (h : s.Orderly)
    (htry : task.tryAgain = 0) : (s.enqueue task).Orderly := by
  refine h.frame (sameRequests_refl _) rfl rfl rfl (Nat.le_succ _) ?_ ?_
  · intro id
    rw [tasks_enqueue]
    split
    · rename_i hid
      rw [h.unknown id hid.ge]
      exact Nat.zero_le _
    · exact h.toll id
  · intro k id hid
    rw [queue_enqueue] at hid
    rw [tasks_enqueue]
    split
    · rw [htry]
      exact Nat.zero_le _
    · rename_i hne
      have hold : id ∈ s.queue k := by
        split at hid
        · exact (List.mem_append.mp hid).resolve_right fun h => hne (List.mem_singleton.mp h)
        · exact hid
      exact h.patient k id hold

/-- Every opening keeps the accounts in agreement. -/
theorem orderly_opening {env : Env} {s t : Lane} {e : LaneEvent} {closing : Option Notice}
    (ho : Opening env.now (s.receive env e) e t closing) (hwf : s.Wf) (h : s.Orderly) :
    t.Orderly := by
  have hlog := opening_log ho
  -- events that answer nothing: the request and what is said of it stay
  have hquiet : Unheard (.recv env.now e) s.log → t.transferRequested = s.transferRequested →
      t.transfer = s.transfer → t.transferId = s.transferId → t.nextTask = s.nextTask →
      (∀ id, (t.tasks id).tryAgain = (s.tasks id).tryAgain) →
      (∀ k, ∀ id ∈ t.queue k, id ∈ s.queue k) → t.Orderly :=
    fun hu h1 h2 h3 h4 h5 h6 => (h.receive hu).same hlog h1 h2 h3 h4 h5 h6
  have hsilent : (∀ x, (Act.recv env.now e).answers x = false) → Unheard (.recv env.now e) s.log :=
    fun hs => ⟨rfl, fun r _ => hs r.2⟩
  -- events that settle the request, refusing nothing
  have hsettle : (∀ r, Bmdwire.outstanding s.log = some r →
        (Act.recv env.now e).answers r.2 = true) → (Act.recv env.now e).refuses? = none →
      t.transferRequested = false → (∀ id, t.transfer = some id → s.transfer = some id) →
      t.transferId = s.transferId → t.nextTask = s.nextTask →
      (∀ id, (t.tasks id).tryAgain = (s.tasks id).tryAgain) →
      (∀ k, ∀ id ∈ t.queue k, id ∈ s.queue k) → t.Orderly := by
    intro ha hr h1 h2 h3 h4 h5 h6
    refine h.settle rfl ha hlog h1 h2 h3 h4 ?_ (toll_unknown h hwf rfl) ?_
    · intro id
      rw [h5]
      exact (toll_of_refuses? rfl hr id s.log).trans (h.toll id)
    · intro k id hid
      rw [h5]
      exact h.patient k id (h6 k id hid)
  cases ho with
  | quiet hidle hq =>
    have hst := hq.sameTransfers
    refine hquiet ?_ hq.transferRequested hq.transfer hq.transferId hq.nextTask
      (fun id => (core_eq (hq.core id)).2.2.2.2) fun k id hid => by rwa [hst.queue] at hid
    cases e with
    | fileTransferError transfer status =>
      exact unheard_strange h hwf ⟨hidle.notInFlight, hidle.notDrained⟩ (.inl ⟨status, rfl⟩)
    | fileTransferDataComplete transfer => exact absurd hidle id
    | abortTransfers => exact absurd hidle id
    | resetTransferLane => exact absurd hidle id
    | _ => exact hsilent fun _ => rfl
  | granted store =>
    exact hquiet (hsilent fun _ => rfl) rfl rfl rfl rfl (fun _ => rfl) fun _ _ hid => hid
  | @taken store _ =>
    have hst := sameTransfers_lockTaken env.now store (s.receive env (.lockState store true))
    obtain ⟨_, _, _, _, heq⟩ := lockTaken_eq env.now store (s.receive env (.lockState store true))
    refine hquiet (hsilent fun _ => rfl) hst.transferRequested hst.transfer hst.transferId
      hst.nextTask (fun id => by rw [heq]; rfl) fun k id hid => by rwa [hst.queue] at hid
  | @freed store _ =>
    have hst := sameTransfers_freed env.now store (s.receive env (.lockState store false))
    obtain ⟨_, _, heq⟩ := freed_eq env.now store (s.receive env (.lockState store false))
    refine hquiet (hsilent fun _ => rfl) hst.transferRequested hst.transfer hst.transferId
      hst.nextTask (fun id => by rw [heq]; rfl) fun k id hid => by rwa [hst.queue] at hid
  | drained data _ =>
    exact hquiet (hsilent fun _ => rfl) rfl rfl rfl rfl (fun _ => rfl) fun _ _ hid => hid
  | @drainFailed d status hd =>
    refine hquiet (unheard_draining h hwf hd _ _) ?_ ?_ ?_ ?_ ?_ ?_ <;>
      simp [(hwf.draining (by rw [show s.draining = some d from hd]; simp)).1, receive, queue_eq]
  | @drainCompleted d hd =>
    refine hquiet (unheard_draining h hwf hd _ _) ?_ ?_ ?_ ?_ ?_ ?_ <;>
      simp [(hwf.draining (by rw [show s.draining = some d from hd]; simp)).1, receive, queue_eq]
  | @tryAgain id transfer ha hn =>
    have ha : s.Answers transfer id := ⟨ha.inFlight, ha.tid, ha.notDrained⟩
    refine h.settle (a := .recv env.now _) rfl (answers_inFlight h hwf ha (.inl ⟨1, rfl⟩)) hlog rfl
      (fun _ hid => hid) rfl rfl (toll_countTry h rfl ha.inFlight) (toll_unknown h hwf rfl) ?_
    intro k j hj
    exact tryAgain_countTry_le hn (h.patient k j hj)
  | @triedOut id transfer ha hn =>
    have ha : s.Answers transfer id := ⟨ha.inFlight, ha.tid, ha.notDrained⟩
    have hfront := (hwf.inFlight id ha.inFlight).1
    have hfront' := front_countTry (s := s.receive env (.fileTransferError transfer 1)) hfront
    refine h.settle (a := .recv env.now _) rfl (answers_inFlight h hwf ha (.inl ⟨1, rfl⟩)) hlog
      (letGo_transferRequested ..) ?_ (letGo_transferId ..) (letGo_nextTask ..) ?_
      (toll_unknown h hwf rfl) ?_
    · intro j hj
      simp [dropFailed] at hj
    · intro j
      rw [dropFailed, letGo_tasks]
      exact toll_countTry h rfl ha.inFlight j
    · intro k j hj
      have hmem : j ∈ s.queue k ∧ j ≠ id := by
        have hst := sameTransfers_countTry id (s.receive env (.fileTransferError transfer 1))
        rw [queue_dropFailed env.now hfront', hst.store, hst.queue] at hj
        exact hwf.mem_pop hfront hj
      rw [dropFailed, letGo_tasks]
      have hsame : ((s.countTry id).tasks j).tryAgain = (s.tasks j).tryAgain := by
        simp [countTry, modifyTask, hmem.2]
      exact hsame.trans_le (h.patient k j hmem.1)
  | @lockLost id transfer ha =>
    have ha : s.Answers transfer id := ⟨ha.inFlight, ha.tid, ha.notDrained⟩
    exact hsettle (answers_inFlight h hwf ha (.inl ⟨5, rfl⟩)) rfl rfl (fun _ hid => hid) rfl rfl
      (fun _ => rfl) fun _ _ hid => hid
  | @yielded id transfer ha =>
    have ha : s.Answers transfer id := ⟨ha.inFlight, ha.tid, ha.notDrained⟩
    refine hsettle (answers_inFlight h hwf ha (.inl ⟨6, rfl⟩)) rfl ?_ ?_ ?_ ?_ ?_ ?_ <;>
      simp [receive, queue_eq]
  | @failed id transfer status ha h1 h5 h6 =>
    have ha : s.Answers transfer id := ⟨ha.inFlight, ha.tid, ha.notDrained⟩
    have hrefuses : (Act.recv env.now (.fileTransferError transfer status)).refuses? = none := by
      unfold Act.refuses?
      split
      · rename_i heq
        cases heq
        exact absurd rfl h1
      · rfl
    refine hsettle (answers_inFlight h hwf ha (.inl ⟨status, rfl⟩)) hrefuses ?_ ?_ ?_ ?_ ?_ ?_
    · simp [dropFailed, popHead]
    · simp [dropFailed]
    · simp [dropFailed, popHead, receive]
    · simp [dropFailed, popHead, receive]
    · simp [dropFailed, popHead, receive]
    · intro k j hj
      have hfront := (hwf.inFlight id ha.inFlight).1
      rw [queue_dropFailed env.now (s := { s.receive env _ with transferRequested := false })
        hfront] at hj
      exact (hwf.mem_pop hfront hj).1
  | @completed id transfer ha =>
    have ha : s.Answers transfer id := ⟨ha.inFlight, ha.tid, ha.notDrained⟩
    refine hsettle (answers_inFlight h hwf ha (.inr rfl)) rfl ?_ ?_ ?_ ?_ ?_ ?_
    · simp [dropCompleted]
    · simp [dropCompleted]
    · simp [dropCompleted, receive]
    · simp [dropCompleted, receive]
    · simp [dropCompleted, receive]
    · intro k j hj
      have hfront := (hwf.inFlight id ha.inFlight).1
      rw [queue_dropCompleted] at hj
      exact (hwf.mem_pop hfront hj).1
  | @strangeCompletion transfer hs =>
    exact hquiet (unheard_strange h hwf ⟨hs.notInFlight, hs.notDrained⟩ (.inr rfl)) rfl rfl rfl rfl
      (fun _ => rfl) fun _ _ hid => hid
  | @enqueue _ task he =>
    have htry : task.tryAgain = 0 := by
      cases e with
      | download store index => obtain rfl := Option.some.inj he; rfl
      | upload store index payload => obtain rfl := Option.some.inj he; rfl
      | queueClear store index => obtain rfl := Option.some.inj he; rfl
      | _ => cases he
    have hu : Unheard (.recv env.now e) s.log := by
      cases e with
      | download store index => exact hsilent fun _ => rfl
      | upload store index payload => exact hsilent fun _ => rfl
      | queueClear store index => exact hsilent fun _ => rfl
      | _ => cases he
    exact orderly_enqueue (h.receive hu) htry
  | dequeue id =>
    have hqueue := queue_dequeueClear id (s.receive env (.dequeueClear id)) hwf.store
    obtain ⟨q, heq⟩ := dequeueClear_eq id (s.receive env (.dequeueClear id))
    refine hquiet (hsilent fun _ => rfl) (by rw [heq]; rfl) (by rw [heq]; rfl) (by rw [heq]; rfl)
      (by rw [heq]; rfl) (fun _ => by rw [heq]; rfl) fun k j hj => ?_
    rw [hqueue] at hj
    exact List.mem_of_mem_filter hj
  | abort =>
    have hst := sameTransfers_abortTransfers env.now (s.receive env .abortTransfers)
    have hempty : ∀ k, (abortTransfers env.now (s.receive env .abortTransfers)).queue k = [] := by
      intro k
      rcases hst with hst | hst
      · exact hst.2.queue k
      · exact hst.2.queue k
    have hfields : (abortTransfers env.now (s.receive env .abortTransfers)).transferRequested =
          false ∧ (abortTransfers env.now (s.receive env .abortTransfers)).transfer = none ∧
        (abortTransfers env.now (s.receive env .abortTransfers)).transferId = s.transferId ∧
        (abortTransfers env.now (s.receive env .abortTransfers)).nextTask = s.nextTask := by
      rcases hst with ⟨-, hst⟩ | ⟨-, hst⟩
      · exact ⟨hst.transferRequested, hst.transfer, hst.transferId, hst.nextTask⟩
      · exact ⟨hst.transferRequested, hst.transfer, hst.transferId, hst.nextTask⟩
    obtain ⟨hreq, htransfer, hid, hnext⟩ := hfields
    refine hsettle (fun _ _ => rfl) rfl hreq ?_ hid hnext ?_ ?_
    · intro j hj
      rw [htransfer] at hj
      cases hj
    · intro j
      rw [tasks_abortTransfers]
      rfl
    · intro k j hj
      rw [hempty] at hj
      cases hj
  | fire _ _ =>
    exact hquiet (hsilent fun _ => rfl) rfl rfl rfl rfl (fun _ => rfl) fun _ _ hid => hid
  | poke => exact hquiet (hsilent fun _ => rfl) rfl rfl rfl rfl (fun _ => rfl) fun _ _ hid => hid
  | woken _ _ =>
    exact hquiet (hsilent fun _ => rfl) rfl rfl rfl rfl (fun _ => rfl) fun _ _ hid => hid
  | @drainOverdue d hw hd _ =>
    refine hquiet (unheard_draining h hwf hd _ _) ?_ ?_ ?_ ?_ ?_ ?_ <;>
      simp [(hwf.draining (by rw [show s.draining = some d from hd]; simp)).1, receive, queue_eq]
  | reset =>
    refine hsettle (fun _ _ => rfl) rfl rfl ?_ rfl rfl (fun _ => rfl) ?_
    · intro id hid
      cases hid
    · intro k id hid
      simp [resetTransferLane, queue_eq] at hid
  | teardown =>
    have hst := sameTransfers_releaseLocksNow env.now (s.receive env .releaseLocksNow)
    refine hquiet (hsilent fun _ => rfl) hst.transferRequested hst.transfer hst.transferId
      hst.nextTask (fun id => by rw [tasks_releaseLocksNow]; rfl)
      fun k id hid => by rwa [hst.queue] at hid

theorem reachable_of_reachableWhen {ok : Lane → Env × LaneEvent → Prop} {s : Lane}
    (h : ReachableWhen ok s) : Reachable s :=
  Library.Reach.mono (fun _ _ h => ⟨h.1, trivial⟩) h

/-- The accounts agree in every state of every run. -/
theorem orderly_reachable {s : Lane} (h : Reachable s) : s.Orderly := by
  refine Library.Reach.invariant (P := fun s => s.Orderly) ?_ ?_ h
  · rintro s ⟨tid, -, -, rfl⟩
    constructor
    case outstanding => rfl
    case lastId => exact fun r hr => by cases hr
    case lastTask => exact fun id hid => by cases hid
    case toll => exact fun id => Nat.zero_le _
    case unknown => exact fun id _ => rfl
    case patient => exact fun k id hid => by simp [fresh, queue_eq] at hid
    case bounded => exact fun id => Nat.zero_le _
    case alone => trivial
  · rintro s ⟨env, e⟩ hreach hs ⟨hposs, -⟩
    have hwf := wf_reachableWhen hreach
    obtain ⟨m, m', closing, hopen, hmoves, heq⟩ := step_splits hwf (env, e)
    have hm' : m'.Orderly := hmoves.keep (fun _ _ => orderly_triggerMove)
      (orderly_opening hopen hwf hs)
    rw [heq]
    cases closing with
    | none => exact hm'
    | some n =>
      exact hm'.same (sameRequests_cons (Act.silent_notice n)) rfl rfl rfl rfl
        (fun _ => rfl) fun _ _ hid => hid

/-! ## A pause is for the task in flight -/

/-- A pause is on for a task in flight only. -/
def PausesInFlight (s : Lane) : Prop := s.tryAgainDue ≠ none → s.transfer ≠ none

/-- Every move leaves a pause its task. -/
theorem pause_triggerMove {now : Time} {stale : Prop} {s t : Lane}
    (hm : TriggerMove now stale s t) (h : s.PausesInFlight) : t.PausesInFlight := by
  cases hm with
  | wake due => exact h
  | fail => exact h
  | pauseOver _ _ _ => exact fun hdue => absurd rfl hdue
  | endYield _ _ => exact h
  | clean _ _ =>
    obtain ⟨new, heq, -⟩ := cleanLocks_eq now s
    rw [heq]
    exact h
  | askForLock _ _ _ _ _ _ => exact h
  | clear hready _ _ _ _ =>
    intro hdue
    rw [letGo_tryAgainDue] at hdue
    exact absurd hready.2 hdue
  | @request id retry _ _ _ _ _ _ =>
    intro _
    rw [(requested_requestTransfer now retry id s).transfer]
    simp

/-- The event ends no transfer by an FTDC or an FTDE 6 during its pause. -/
def PauseEnds (s : Lane) : LaneEvent → Prop
  | .fileTransferError transfer status => status = 6 → s.NoPauseFor transfer
  | .fileTransferDataComplete transfer => s.NoPauseFor transfer
  | _ => True

/-- No opening leaves a pause without its task, if no pause outlasts a transfer completed or
yielded. -/
theorem pause_opening {env : Env} {s t : Lane} {e : LaneEvent} {closing : Option Notice}
    (ho : Opening env.now (s.receive env e) e t closing) (hwf : s.Wf) (hok : s.PauseEnds e)
    (h : s.PausesInFlight) : t.PausesInFlight := by
  have hkeep : t.tryAgainDue = s.tryAgainDue → t.transfer = s.transfer → t.PausesInFlight := by
    intro h1 h2
    unfold PausesInFlight
    rw [h1, h2]
    exact h
  have hover : t.tryAgainDue = none → t.PausesInFlight := fun h1 h2 => absurd h1 h2
  have hdrain : ∀ {d}, s.draining = some d → s.tryAgainDue = none := fun hd =>
    (hwf.draining (by simp [hd])).2
  cases ho with
  | quiet _ hq => exact hkeep hq.tryAgainDue hq.transfer
  | granted store => exact hkeep rfl rfl
  | @taken store _ =>
    have hst := sameTransfers_lockTaken env.now store (s.receive env (.lockState store true))
    exact hkeep hst.tryAgainDue hst.transfer
  | @freed store _ =>
    have hst := sameTransfers_freed env.now store (s.receive env (.lockState store false))
    exact hkeep hst.tryAgainDue hst.transfer
  | drained data _ => exact hkeep rfl rfl
  | drainFailed status hd => exact hover ((letGo_tryAgainDue ..).trans (hdrain hd))
  | drainCompleted hd => exact hover ((letGo_tryAgainDue ..).trans (hdrain hd))
  | @tryAgain id transfer ha _ =>
    intro _
    exact ha.inFlight.trans_ne (by simp)
  | triedOut _ _ => exact hover (letGo_tryAgainDue ..)
  | lockLost _ => exact hkeep rfl rfl
  | @yielded id transfer ha =>
    exact hover ((letGo_tryAgainDue ..).trans
      (NoPauseFor.of_answers (s := s) (hok rfl) ⟨ha.inFlight, ha.tid, ha.notDrained⟩))
  | failed _ _ _ _ => exact hover (letGo_tryAgainDue ..)
  | @completed id transfer ha =>
    exact hover ((letGo_tryAgainDue ..).trans
      (NoPauseFor.of_answers (s := s) hok ⟨ha.inFlight, ha.tid, ha.notDrained⟩))
  | strangeCompletion _ => exact hkeep rfl rfl
  | enqueue _ => exact hkeep rfl rfl
  | dequeue id =>
    obtain ⟨q, heq⟩ := dequeueClear_eq id (s.receive env (.dequeueClear id))
    exact hkeep (by rw [heq]; rfl) (by rw [heq]; rfl)
  | abort =>
    rcases sameTransfers_abortTransfers env.now (s.receive env .abortTransfers) with
      ⟨-, hst⟩ | ⟨-, hst⟩
    · exact hover hst.tryAgainDue
    · exact hover hst.tryAgainDue
  | fire _ _ => exact hkeep rfl rfl
  | poke => exact hkeep rfl rfl
  | woken _ _ => exact hkeep rfl rfl
  | drainOverdue _ hd _ => exact hover ((letGo_tryAgainDue ..).trans (hdrain hd))
  | reset => exact hover rfl
  | teardown =>
    have hst := sameTransfers_releaseLocksNow env.now (s.receive env .releaseLocksNow)
    exact hkeep hst.tryAgainDue hst.transfer

/-! ## A new id for another task -/

/-- A pause is on for the task in flight only, and every request so far carried a new id. -/
structure Renewing (s : Lane) : Prop where
  pause : s.PausesInFlight
  anew : Every RequestedAnew s.log

/-- The id after another is another one. -/
theorem nextTransferId_ne (s : Lane) : s.nextTransferId false ≠ s.transferId := by
  simp only [nextTransferId, Bool.false_eq_true, if_false]
  omega

/-- A request for the task in flight may repeat the last id, any other one takes the next. -/
theorem requestedAnew_request {now : Time} {retry : Bool} {id : TaskId} {c : Command} {s : Lane}
    (h : s.Orderly) (hwf : s.Wf) (hretry : retry = true → s.transfer = some id)
    (hc : (Act.send now c).request? = some (id, s.nextTransferId retry)) :
    RequestedAnew (.send now c) s.log := by
  intro r hr
  obtain rfl := Option.some.inj (hc.symm.trans hr)
  have hrange := nextTransferId_range retry hwf.idRange
  refine ⟨hrange.1, hrange.2, fun r' hlast hne => ?_⟩
  cases retry with
  | true =>
    have hsame := h.lastTask id (hretry rfl)
    rw [hsame] at hlast
    exact absurd (congrArg Prod.fst (Option.some.inj hlast)).symm hne
  | false =>
    rw [h.lastId r' hlast]
    exact nextTransferId_ne s

/-- Every move keeps the ids new, when a request is repeated for the task in flight only. -/
theorem anew_triggerMove {now : Time} {s t : Lane} (hm : TriggerMove now False s t)
    (horderly : s.Orderly) (hwf : s.Wf) (h : Every RequestedAnew s.log) :
    Every RequestedAnew t.log := by
  have hsilent : ∀ {a : Act}, a.silent → Every RequestedAnew (a :: s.log) := fun ha =>
    (sameRequests_cons ha).anew h
  cases hm with
  | wake due => exact h
  | fail => exact hsilent ⟨rfl, fun _ => rfl⟩
  | pauseOver _ _ _ => exact h
  | endYield _ _ => exact h
  | clean hready _ =>
    obtain ⟨new, heq, hnew⟩ := cleanLocks_eq now s
    rw [heq]
    refine (sameRequests_append fun a ha => ?_).anew h
    obtain ⟨k, -, rfl⟩ := hnew a ha
    exact Act.silent_lock ..
  | askForLock _ _ _ _ _ _ => exact hsilent (lockRequestFor_silent ..)
  | @clear id _ _ _ _ _ =>
    refine (sameRequests_letGo now _ rfl).anew ?_
    exact (sameRequests_cons (Act.silent_notice _)).anew (hsilent ⟨rfl, fun _ => rfl⟩)
  | @request id retry _ _ _ _ _ hretry =>
    have hr := requested_requestTransfer now retry id s
    obtain ⟨new, c, hlog, hbulk, hc⟩ := hr.log
    rw [hlog]
    refine (sameRequests_append fun a ha => Act.silent_of_bulk (hbulk a ha)).anew ⟨?_, h⟩
    exact requestedAnew_request horderly hwf (fun hr => (hretry hr).resolve_right not_false)
      (by simp [Act.request?, hc])

/-- An entry of the log takes no part in the condition. -/
theorem pauseKept_receive {s : Lane} {env : Env} {e : LaneEvent} (h : s.PauseKept env.now e) :
    (s.receive env e).PauseKept env.now e := h

theorem pauseEnds_of_pauseKept {now : Time} {s : Lane} {e : LaneEvent} (h : s.PauseKept now e) :
    s.PauseEnds e := by
  cases e with
  | fileTransferError transfer status => exact h
  | fileTransferDataComplete transfer => exact h
  | _ => trivial

/-- The steps at which no elapsed pause meets another task. -/
def PausesKept (s : Lane) (a : Env × LaneEvent) : Prop := s.PauseKept a.1.now a.2

/-- The ids are new in every state of a run that keeps its pauses. -/
theorem renewing_reachable {s : Lane} (h : ReachableWhen PausesKept s) : s.Renewing := by
  refine Library.Reach.invariant (P := fun s => s.Renewing) ?_ ?_ h
  · rintro s ⟨tid, -, -, rfl⟩
    exact ⟨fun hdue => absurd rfl hdue, trivial⟩
  · rintro s ⟨env, e⟩ hreach hs ⟨hposs, hok⟩
    have hwf := wf_reachableWhen hreach
    have horderly := orderly_reachable (reachable_of_reachableWhen hreach)
    have hsplits : Splits env.now False (s.receive env e) e (handle env e (s.receive env e)) :=
      handle_splits (wf_receive hwf env e) env e (.inr ⟨pauseKept_receive hok, hs.pause⟩)
    obtain ⟨m, m', closing, hopen, hmoves, heq⟩ := hsplits
    have hlog : Every RequestedAnew m.log :=
      (opening_log hopen).anew ⟨requestedAnew_of_none rfl, hs.anew⟩
    have hm : m.Wf ∧ m.Orderly ∧ m.Renewing := by
      refine ⟨wf_opening hopen (wf_receive hwf env e) ?_, orderly_opening hopen hwf horderly,
        pause_opening hopen hwf (pauseEnds_of_pauseKept hok) hs.pause, hlog⟩
      rintro id rfl
      exact hposs.2.2
    have hm' : m'.Wf ∧ m'.Orderly ∧ m'.Renewing :=
      hmoves.keep (P := fun t => t.Wf ∧ t.Orderly ∧ t.Renewing) (fun _ _ hmove h =>
        ⟨wf_triggerMove _ _ hmove h.1, orderly_triggerMove hmove h.2.1,
          pause_triggerMove hmove h.2.2.pause, anew_triggerMove hmove h.2.1 h.1 h.2.2.anew⟩) hm
    show (handle env e (s.receive env e)).Renewing
    rw [heq]
    cases closing with
    | none => exact hm'.2.2
    | some n =>
      exact ⟨hm'.2.2.pause, requestedAnew_of_none rfl, hm'.2.2.anew⟩

/-- In every run a request goes out only when none is outstanding, and a task is requested
again at most `TRY_AGAIN_ATTEMPTS` times after an FTDE 1. In every run that hands no elapsed
pause to another task, a request for another task than the last one's carries another id in
1 .. 0xFFFF. -/
theorem one_request_outstanding {s : Lane} (h : Reachable s) :
    Every RequestedAlone s.log ∧ (∀ task, retries task s.log ≤ tryAgainAttempts) ∧
      (ReachableWhen PausesKept s → Every RequestedAnew s.log) :=
  ⟨(orderly_reachable h).alone, (orderly_reachable h).bounded, fun hkept =>
    (renewing_reachable hkept).anew⟩

instance PausesKept.decidable (s : Lane) (a : Env × LaneEvent) : Decidable (s.PausesKept a) :=
  PauseKept.decidable a.1.now s a.2

/-- A download refused once with FTDE 1 and asked for again after its pause, and a second
one once it is complete. -/
def triedAgain : List (Env × LaneEvent) :=
  [(⟨0, none⟩, .download 0 1), (⟨1, none⟩, .lockObtained 0),
   (⟨2, none⟩, .fileTransferError 43 1), (⟨milliseconds 60, none⟩, .fireWake),
   (⟨milliseconds 60, none⟩, .wakeup), (⟨milliseconds 70, none⟩, .fileTransferDataComplete 43),
   (⟨milliseconds 80, none⟩, .download 0xffff 7)]

theorem one_request_outstanding_tried_again :
    retries 0 (Library.run step (fresh 42) triedAgain).log = 1 ∧
      lastRequest (Library.run step (fresh 42) triedAgain).log = some (1, 44) ∧
      Every RequestedAlone (Library.run step (fresh 42) triedAgain).log ∧
      Every RequestedAnew (Library.run step (fresh 42) triedAgain).log := by
  have hkept : ReachableWhen PausesKept (Library.run step (fresh 42) triedAgain) :=
    Library.Reach.run (.start ⟨42, by decide, by decide, rfl⟩) _ (by decide)
  obtain ⟨halone, -, hanew⟩ := one_request_outstanding (reachable_of_reachableWhen hkept)
  exact ⟨by decide, by decide, halone, hanew hkept⟩

/-- A macro is asked for when the pause of a refused still is over, before the wakeup that
would ask for the still again. -/
def pauseMeetsMacro : List (Env × LaneEvent) :=
  [(⟨0, none⟩, .download 0 1), (⟨1, none⟩, .lockObtained 0),
   (⟨2, none⟩, .fileTransferError 43 1), (⟨milliseconds 60, none⟩, .download 0xffff 7)]

theorem pause_meets_macro_repeats_id :
    ¬ ∀ s, Reachable s → Every RequestedAlone s.log ∧
      (∀ task, retries task s.log ≤ tryAgainAttempts) ∧ Every RequestedAnew s.log := by
  intro h
  have hreach : Reachable (Library.run step (fresh 42) pauseMeetsMacro) :=
    Library.Reach.run (.start ⟨42, by decide, by decide, rfl⟩) _ (by decide)
  have hlog : (Library.run step (fresh 42) pauseMeetsMacro).log =
      .send (milliseconds 60) (.downloadRequest 1 43 0xffff 7) ::
      .recv (milliseconds 60) (.download 0xffff 7) :: .recv 2 (.fileTransferError 43 1) ::
      .send 1 (.downloadRequest 0 43 0 1) :: .recv 1 (.lockObtained 0) ::
      .send 0 (.partialLock 0 1) :: .recv 0 (.download 0 1) :: [] := by
    decide
  have hanew := (h _ hreach).2.2
  rw [hlog] at hanew
  exact (hanew.1 (1, 43) rfl).2.2 (0, 43) rfl (by decide) rfl

end Lane

end Bmdwire
