import Bmdwire.Analysis.LaneWellFormed
import Bmdwire.Analysis.TriggerRecursion

/-!
# Every step is an opening, moves of the trigger, and a closing event

`step_splits`: the handlers of `Bmdwire.Program.LaneEvents` do nothing but what
`Bmdwire.Interface.LaneMoves` lists. `transferTrigger_moves` is the same for the trigger
alone, by induction on its fuel.
-/

set_option autoImplicit false

namespace Bmdwire

open Library (Dict)

namespace Lane

/-! ## Quiet changes -/

theorem Quiet.refl (s : Lane) : s.Quiet s := by
  constructor
  case log => exact ⟨[], rfl, by simp⟩
  all_goals intros; rfl

theorem Quiet.trans {s t u : Lane} (h : s.Quiet t) (h' : t.Quiet u) : s.Quiet u where
  locks := h'.locks.trans h.locks
  lockRequested := h'.lockRequested.trans h.lockRequested
  yielding := h'.yielding.trans h.yielding
  foreignHeld := h'.foreignHeld.trans h.foreignHeld
  ownRelease := h'.ownRelease.trans h.ownRelease
  othersSeen := h'.othersSeen.trans h.othersSeen
  lastGrant := h'.lastGrant.trans h.lastGrant
  transferQueue := h'.transferQueue.trans h.transferQueue
  transferId := h'.transferId.trans h.transferId
  transfer := h'.transfer.trans h.transfer
  transferRequested := h'.transferRequested.trans h.transferRequested
  tryAgainDue := h'.tryAgainDue.trans h.tryAgainDue
  draining := h'.draining.trans h.draining
  nextTask := h'.nextTask.trans h.nextTask
  wakeDue := h'.wakeDue.trans h.wakeDue
  wakeups := h'.wakeups.trans h.wakeups
  clock := h'.clock.trans h.clock
  core id := (h'.core id).trans (h.core id)
  log := by
    obtain ⟨new, hlog, hnew⟩ := h.log
    obtain ⟨new', hlog', hnew'⟩ := h'.log
    refine ⟨new' ++ new, by rw [hlog', hlog, List.append_assoc], ?_⟩
    intro a ha
    rcases List.mem_append.mp ha with ha | ha
    · exact hnew' a ha
    · exact hnew a ha

/-- Bulk goes out quietly. -/
theorem quiet_send {now : Time} {c : Command} (h : (Act.send now c).bulk = true) (s : Lane) :
    s.Quiet (s.send now c) := by
  constructor
  case log => exact ⟨[.send now c], rfl, by simpa using h⟩
  all_goals intros; rfl

theorem quiet_raise {n : Notice} (h : (Act.notice n).bulk = true) (s : Lane) :
    s.Quiet (s.raise n) := by
  constructor
  case log => exact ⟨[.notice n], rfl, by simpa using h⟩
  all_goals intros; rfl

theorem quiet_throw (e : PyError) (s : Lane) : s.Quiet (s.throw e) := by
  constructor
  case log => exact ⟨[.throw e], rfl, by simp [Act.bulk]⟩
  all_goals intros; rfl

theorem quiet_modifyTask {f : TransferTask → TransferTask} (hf : ∀ t, (f t).core = t.core)
    (id : TaskId) (s : Lane) : s.Quiet (s.modifyTask id f) := by
  constructor
  case log => exact ⟨[], rfl, by simp⟩
  case core => exact fun j => modifyTask_keeps TransferTask.core hf id j s
  all_goals rfl

theorem quiet_transferBudget (b : TransferBudget) (s : Lane) :
    s.Quiet { s with transferBudget := b } := by
  constructor
  case log => exact ⟨[], rfl, by simp⟩
  all_goals intros; rfl

theorem quiet_sendFileMetadata (now : Time) (id : TaskId) (s : Lane) :
    s.Quiet (s.sendFileMetadata now id) := by
  unfold sendFileMetadata
  dsimp only
  refine Quiet.trans ?_ (quiet_modifyTask (by intro t; rfl) id _)
  exact quiet_send rfl s

theorem quiet_queuePacket (transfer : ℕ) (chunk : Bytes) (s : Lane) :
    s.Quiet (s.queuePacket transfer chunk) := by
  constructor
  case log => exact ⟨[], rfl, by simp⟩
  all_goals intros; rfl

theorem quiet_queueCallback (size : ℕ) (s : Lane) : s.Quiet (s.queueCallback size) := by
  unfold queueCallback
  cases s.transfer with
  | none => exact .refl s
  | some id =>
    refine Quiet.trans ?_ (quiet_raise rfl _)
    exact quiet_modifyTask (by intro t; rfl) id s

theorem quiet_drainPackets (now : Time) (packets : List (ℕ × Bytes)) (s : Lane) :
    s.Quiet (drainPackets now packets s) := by
  induction packets generalizing s with
  | nil => exact .refl s
  | cons p packets ih =>
    have hpop : s.Quiet { s with sendQueue := packets } := by
      constructor
      case log => exact ⟨[], rfl, by simp⟩
      all_goals intros; rfl
    exact ((hpop.trans (quiet_send rfl _)).trans (quiet_queueCallback _ _)).trans (ih _)

theorem quiet_cutChunks (id : TaskId) (budgetTransfer size count : ℕ) (s : Lane) :
    s.Quiet (s.cutChunks id budgetTransfer size count) := by
  induction count generalizing s with
  | zero => exact .refl s
  | succ count ih =>
    unfold cutChunks
    dsimp only
    split
    · exact .refl s
    · refine Quiet.trans ?_ (ih _)
      refine Quiet.trans ?_ (quiet_queuePacket _ _ _)
      refine Quiet.trans ?_ (quiet_transferBudget _ _)
      exact quiet_modifyTask (by intro t; rfl) id s

theorem quiet_queueChunks (now : Time) (s : Lane) : s.Quiet (s.queueChunks now) := by
  unfold queueChunks
  split
  · exact .refl s
  · exact .refl s
  · split
    · exact .refl s
    · split
      · exact (quiet_cutChunks _ _ _ _ s).trans (quiet_drainPackets now _ _)
      · exact quiet_throw _ s

theorem quiet_fileTransferContinueData (now : Time) (transfer size count : ℕ) (s : Lane) :
    s.Quiet (s.fileTransferContinueData now transfer size count) := by
  unfold fileTransferContinueData
  refine (quiet_transferBudget (.granted transfer (size / 8 * 8) count) s).trans ?_
  refine Quiet.trans ?_ (quiet_queueChunks now _)
  split
  · split
    · exact quiet_sendFileMetadata now _ _
    · exact .refl _
  · exact .refl _

theorem quiet_queueFlushed (now : Time) (s : Lane) : s.Quiet (s.queueFlushed now) := by
  unfold queueFlushed
  split
  · exact .refl s
  · split
    · exact quiet_throw _ s
    · split
      · exact quiet_queueChunks now s
      · split
        · exact quiet_sendFileMetadata now _ s
        · exact .refl s

theorem quiet_downloadProgress (pixels : Option ℕ) (id : TaskId) (s : Lane) :
    s.Quiet (s.downloadProgress pixels id) := by
  unfold downloadProgress
  dsimp only
  split
  · split
    · exact quiet_raise rfl s
    · exact .refl s
  · exact .refl s

theorem quiet_dataInFlight (env : Env) (transfer : ℕ) (data : Bytes) (s : Lane) :
    s.Quiet (s.dataInFlight env transfer data) := by
  unfold dataInFlight
  split
  · exact .refl s
  · split
    · refine Quiet.trans ?_ (quiet_send rfl _)
      refine Quiet.trans ?_ (quiet_downloadProgress _ _ _)
      constructor
      case log => exact ⟨[], rfl, by simp⟩
      all_goals intros; rfl
    · exact .refl s

/-! ## Messages about the drain, and not -/

section Drain

variable {s : Lane} {transfer : ℕ}

/-- A message that is not about the drain is taken for the transfer in flight. -/
theorem fileTransferData_eq (hd : ∀ d, s.draining = some d → d.tid ≠ transfer) (env : Env)
    (data : Bytes) :
    s.fileTransferData env transfer data = s.dataInFlight env transfer data := by
  unfold fileTransferData
  split
  · rename_i d h
    rw [if_neg (hd d h).symm]
  · rfl

theorem fileTransferError_eq (hd : ∀ d, s.draining = some d → d.tid ≠ transfer) (now : Time)
    (status : ℕ) :
    s.fileTransferError now transfer status = s.errorInFlight now transfer status := by
  unfold fileTransferError
  split
  · rename_i d h
    rw [if_neg (hd d h).symm]
  · rfl

theorem fileTransferDataComplete_eq (hd : ∀ d, s.draining = some d → d.tid ≠ transfer)
    (now : Time) :
    s.fileTransferDataComplete now transfer = s.completionInFlight now transfer := by
  unfold fileTransferDataComplete
  split
  · rename_i d h
    rw [if_neg (hd d h).symm]
  · rfl

/-- A message is about the drain, answers the task in flight, or is about neither. -/
theorem message_cases (s : Lane) (transfer : ℕ) :
    (∃ d, s.draining = some d ∧ d.tid = transfer) ∨
      (∃ id, s.Answers transfer id) ∨ s.Strange transfer := by
  by_cases hd : ∃ d, s.draining = some d ∧ d.tid = transfer
  · exact .inl hd
  · have hd : ∀ d, s.draining = some d → d.tid ≠ transfer := fun d h ht => hd ⟨d, h, ht⟩
    by_cases ht : ∃ id, s.transfer = some id ∧ (s.tasks id).tid = some transfer
    · obtain ⟨id, hid, htid⟩ := ht
      exact .inr (.inl ⟨id, hid, htid, hd⟩)
    · exact .inr (.inr ⟨fun id hid htid => ht ⟨id, hid, htid⟩, hd⟩)

/-- Data of neither changes nothing. -/
theorem Strange.fileTransferData (h : s.Strange transfer) (env : Env) (data : Bytes) :
    s.fileTransferData env transfer data = s := by
  rw [fileTransferData_eq h.notDrained]
  unfold dataInFlight
  split
  · rfl
  · rename_i id hid
    rw [if_neg (h.notInFlight id hid)]

/-- An error of neither changes nothing. -/
theorem Strange.fileTransferError (h : s.Strange transfer) (now : Time) (status : ℕ) :
    s.fileTransferError now transfer status = s := by
  rw [fileTransferError_eq h.notDrained]
  unfold errorInFlight
  split
  · rfl
  · rename_i id hid
    rw [if_neg (h.notInFlight id hid)]

/-- A completion of neither is another client's. -/
theorem Strange.fileTransferDataComplete (h : s.Strange transfer) (now : Time) :
    s.fileTransferDataComplete now transfer = s.someoneAtWork now := by
  rw [fileTransferDataComplete_eq h.notDrained]
  unfold completionInFlight
  split
  · rfl
  · rename_i id hid
    rw [if_neg (h.notInFlight id hid)]

/-- An error of the task in flight is handled for it. -/
theorem Answers.fileTransferError {id : TaskId} (h : s.Answers transfer id) (now : Time)
    (status : ℕ) :
    s.fileTransferError now transfer status = s.transferRefused now id transfer status := by
  rw [fileTransferError_eq h.notDrained]
  simp only [errorInFlight, h.inFlight, h.tid, if_true]

/-- A completion of the task in flight is handled for it. -/
theorem Answers.fileTransferDataComplete {id : TaskId} (h : s.Answers transfer id)
    (now : Time) : s.fileTransferDataComplete now transfer = s.transferComplete now id := by
  rw [fileTransferDataComplete_eq h.notDrained]
  simp only [completionInFlight, h.inFlight, h.tid, if_true]

end Drain

/-! ## The trigger -/

section Trigger

variable {now : Time} {stale : Prop}

theorem TriggerMoves.trans {s t u : Lane} (h : TriggerMoves now stale s t)
    (h' : TriggerMoves now stale t u) : TriggerMoves now stale s u :=
  Relation.ReflTransGen.trans h h'

theorem TriggerMove.moves {s t : Lane} (h : TriggerMove now stale s t) :
    TriggerMoves now stale s t :=
  Relation.ReflTransGen.single h

theorem TriggerMoves.refl (s : Lane) : TriggerMoves now stale s s :=
  Relation.ReflTransGen.refl

/-- A move with more allowed. -/
theorem TriggerMoves.mono {stale' : Prop} (hst : stale → stale') {s t : Lane}
    (h : TriggerMoves now stale s t) : TriggerMoves now stale' s t := by
  induction h with
  | refl => exact .refl _
  | tail _ hm ih =>
    refine ih.trans (TriggerMove.moves ?_)
    cases hm with
    | wake due => exact .wake _ due
    | fail => exact .fail _
    | pauseOver h1 h2 h3 => exact .pauseOver h1 h2 h3
    | endYield h1 h2 => exact .endYield h1 h2
    | clean h1 h2 => exact .clean h1 h2
    | askForLock h1 h2 h3 h4 h5 h6 => exact .askForLock h1 h2 h3 h4 h5 h6
    | clear h1 h2 h3 h4 h5 => exact .clear h1 h2 h3 h4 h5
    | request retry h1 h2 h3 h4 h5 h6 =>
      exact .request retry h1 h2 h3 h4 h5 fun hr => (h6 hr).imp_right hst

/-- Well-formedness lasts through any number of moves. -/
theorem TriggerMoves.wf {s t : Lane} (h : TriggerMoves now stale s t) (hs : s.Wf) : t.Wf :=
  h.keep wf_triggerMove hs

/-- A lock request already on the wire is not repeated. -/
theorem requestLock_moves {id : TaskId} {s : Lane} (hready : s.Ready) (hfront : s.Front id)
    (hm : (s.tasks id).store ≠ macroStore) (hh : s.held (s.tasks id).store = false)
    (hf : (s.tasks id).store ∉ s.foreignHeld)
    (hy : s.yielding.get? (s.tasks id).store = none) :
    TriggerMoves now stale s (s.requestLock now (s.tasks id)) := by
  have hask : TriggerMoves now stale s (s.sendLockRequest now (s.tasks id)) :=
    (TriggerMove.askForLock hready hfront hm hh hf hy).moves
  unfold requestLock
  split
  · split
    · exact .refl s
    · exact hask
  · exact hask

/-- The lock of a front task's store is asked for once its yield is over. -/
theorem askForLock_moves {id : TaskId} {s : Lane} (hready : s.Ready) (hfront : s.Front id)
    (hm : (s.tasks id).store ≠ macroStore) (hh : s.held (s.tasks id).store = false) :
    TriggerMoves now stale s (s.askForLock now (s.tasks id)) := by
  unfold askForLock
  split
  · exact .refl s
  · rename_i hf
    split
    · rename_i y hy
      dsimp only
      split
      · exact (TriggerMove.wake s _).moves
      · rename_i hdue
        refine (TriggerMove.endYield hy (Nat.le_of_not_lt hdue)).moves.trans ?_
        exact requestLock_moves (s := s.endYield (s.tasks id).store) hready hfront hm hh hf
          (Dict.get?_erase_self _ _)
    · rename_i hy
      exact requestLock_moves hready hfront hm hh hf hy

/-- Starting the next transfer is made of moves, if the trigger after a clear is. -/
theorem startNext_moves {trigger : Store → Lane → Lane} {store : Store} {retry : Bool} {s : Lane}
    (hs : s.StoresMatch) (hready : s.Ready)
    (hretry : retry = true → s.transfer = s.nextFor store ∨ stale)
    (htrigger : ∀ id, s.Front id →
      TriggerMoves now stale ((s.dispatchClear now id).letGo now (s.tasks id).store)
        (trigger (s.tasks id).store ((s.dispatchClear now id).letGo now (s.tasks id).store))) :
    TriggerMoves now stale s (startNext trigger now store retry s) := by
  unfold startNext
  split
  · rename_i hn
    exact (TriggerMove.clean hready (nextFor_eq_none_iff.mp hn)).moves
  · rename_i id hn
    have hfront := front_of_nextFor hs hn
    dsimp only
    split
    · rename_i hlock
      exact askForLock_moves hready hfront hlock.1 (by simpa using hlock.2)
    · rename_i hlock
      have husable : s.Usable (s.tasks id).store := by
        by_contra hu
        simp only [Usable, not_or, Bool.not_eq_true] at hu
        exact hlock ⟨hu.1, by simp [hu.2]⟩
      split
      · exact .refl s
      · rename_i hreq
        split
        · rename_i hkind
          rw [releaseThenContinueWith_eq]
          refine (TriggerMove.clear hready hfront husable (by simpa using hreq) hkind).moves.trans ?_
          exact htrigger id hfront
        · rename_i hkind
          refine (TriggerMove.request retry hready hfront husable (by simpa using hreq) hkind
            ?_).moves
          intro hr
          rw [← hn]
          exact hretry hr

/-- The trigger is made of moves. It repeats a request only for the task in flight, unless
an elapsed pause meets another task first. -/
theorem transferTriggerFuel_moves (fuel : ℕ) (store : Store) (retry : Bool) (s : Lane)
    (hs : s.StoresMatch) (hretry : retry = true → s.transfer = s.nextFor store ∨ stale)
    (hpause : ∀ due, s.tryAgainDue = some due → due ≤ now →
      s.transfer = s.nextFor store ∨ stale) :
    TriggerMoves now stale s (transferTriggerFuel now fuel store retry s) := by
  induction fuel generalizing store retry s with
  | zero => exact .refl s
  | succ fuel ih =>
    have hnext : ∀ (r : Bool) (t : Lane), t.StoresMatch → t.Ready →
        (r = true → t.transfer = t.nextFor store ∨ stale) → TriggerMoves now stale t
          (startNext (fun k u => transferTriggerFuel now fuel k false u) now store r t) := by
      intro r t ht hready hr
      refine startNext_moves ht hready hr fun id hid => ?_
      refine ih _ false _ (storesMatch_dispatched now _ ht hid) (by simp) ?_
      intro due hdue
      rw [letGo_tryAgainDue] at hdue
      exact absurd (hdue.symm.trans hready.2) (by simp)
    unfold transferTriggerFuel
    dsimp only
    split
    · exact .refl s
    · rename_i hd
      have hdrain : s.draining = none := by simpa using hd
      split
      · rename_i due hdue
        split
        · exact (TriggerMove.wake s due).moves
        · rename_i hlate
          have hlate := Nat.le_of_not_lt hlate
          refine (TriggerMove.pauseOver hdrain hdue hlate).moves.trans ?_
          exact hnext true { s with tryAgainDue := none } hs ⟨hdrain, rfl⟩
            fun _ => hpause due hdue hlate
      · rename_i hdue
        exact hnext retry s hs ⟨hdrain, hdue⟩ hretry

theorem transferTrigger_moves (store : Store) (retry : Bool) (s : Lane)
    (hs : s.StoresMatch) (hretry : retry = true → s.transfer = s.nextFor store ∨ stale)
    (hpause : ∀ due, s.tryAgainDue = some due → due ≤ now →
      s.transfer = s.nextFor store ∨ stale) :
    TriggerMoves now stale s (s.transferTrigger now store retry) :=
  transferTriggerFuel_moves _ store retry s hs hretry hpause

/-- The pause is only ever forgotten by the trigger. -/
theorem TriggerMoves.tryAgainDue {s t : Lane} (h : TriggerMoves now stale s t) :
    t.tryAgainDue = s.tryAgainDue ∨ t.tryAgainDue = none := by
  refine h.keep (P := fun t => t.tryAgainDue = s.tryAgainDue ∨ t.tryAgainDue = none) ?_ (.inl rfl)
  intro t u hm ht
  cases hm with
  | wake due => exact ht
  | fail => exact ht
  | pauseOver _ _ _ => exact .inr rfl
  | endYield _ _ => exact ht
  | clean _ _ => rwa [(sameTransfers_cleanLocks now t).tryAgainDue]
  | askForLock _ _ _ _ _ _ => exact ht
  | clear _ _ _ _ _ =>
    rw [letGo_tryAgainDue]
    exact ht
  | request retry _ _ _ _ _ _ =>
    rw [(requested_requestTransfer now retry _ t).tryAgainDue]
    exact ht

/-- One store of the wakeup's loop. -/
theorem serviceYield_moves {store : Store} {y : Yield} {s : Lane} (hs : s.Wf)
    (hy : s.yielding.get? store = some y)
    (hpause : ∀ due, s.tryAgainDue = some due → now < due ∨ stale) :
    TriggerMoves now stale s (s.serviceYield now store y) := by
  unfold serviceYield
  dsimp only
  split
  · split
    · rename_i hdue
      exact (TriggerMove.endYield hy hdue).moves
    · exact .refl s
  · split
    · exact .refl s
    · split
      · exact (TriggerMove.wake s _).moves
      · refine transferTrigger_moves store false s hs.store (by simp) ?_
        intro due hdue hle
        exact .inr ((hpause due hdue).resolve_left (Nat.not_lt.mpr hle))

/-- The wakeup's loop over the stores left free. -/
theorem serviceYieldList_moves (stores : List Store) {s : Lane} (hs : s.Wf)
    (hpause : ∀ due, s.tryAgainDue = some due → now < due ∨ stale) :
    TriggerMoves now stale s (serviceYieldList now stores s) := by
  induction stores generalizing s with
  | nil => exact .refl s
  | cons store stores ih =>
    unfold serviceYieldList
    split
    · rename_i y hy
      have hm := serviceYield_moves hs hy hpause
      refine hm.trans (ih (hm.wf hs) ?_)
      intro due hdue
      rcases hm.tryAgainDue with h | h
      · exact hpause due (h ▸ hdue)
      · rw [h] at hdue
        cases hdue
    · exact (TriggerMove.fail s).moves

/-- The task in flight is the one the trigger picks for its store. -/
theorem Wf.nextFor {s : Lane} (h : s.Wf) {id : TaskId} (hid : s.transfer = some id) :
    s.transfer = s.nextFor (s.tasks id).store :=
  hid.trans (nextFor_of_queue (h.inFlight id hid).1).symm

/-- A wakeup once the drain has been looked after. -/
theorem serviceTryAgain_moves (now : Time) {s : Lane} (hs : s.Wf)
    (hpause : stale ∨ (s.tryAgainDue ≠ none → s.transfer ≠ none)) :
    TriggerMoves now stale s (s.serviceTryAgain now) ∧
      ∀ due, (s.serviceTryAgain now).tryAgainDue = some due → now < due ∨ stale := by
  unfold serviceTryAgain
  split
  · rename_i due id hdue hid
    split
    · rename_i hle
      have hdrain : s.draining = none := by
        by_contra hd
        have := (hs.draining hd).2
        simp [hdue] at this
      have hm : TriggerMoves now stale { s with tryAgainDue := none }
          (transferTrigger now (s.tasks id).store true { s with tryAgainDue := none }) :=
        transferTrigger_moves _ true { s with tryAgainDue := none } hs.store
          (fun _ => .inl (hs.nextFor hid)) (by simp)
      refine ⟨(TriggerMove.pauseOver hdrain hdue hle).moves.trans hm, ?_⟩
      intro due' hdue'
      rcases hm.tryAgainDue with h | h <;> simp [h] at hdue'
    · rename_i hlt
      refine ⟨.refl s, ?_⟩
      intro due' hdue'
      rw [hdue] at hdue'
      obtain rfl := Option.some.inj hdue'
      exact .inl (Nat.lt_of_not_le hlt)
  · rename_i hnot
    refine ⟨.refl s, ?_⟩
    intro due hdue
    rcases hpause with h | h
    · exact .inr h
    · obtain ⟨id, hid⟩ := Option.ne_none_iff_exists'.mp (h (by simp [hdue]))
      exact absurd hid (hnot due id hdue)

/-- A wakeup once the drain has been looked after, to its end. -/
theorem serviceRest_moves {s : Lane} (hs : s.Wf)
    (hpause : stale ∨ (s.tryAgainDue ≠ none → s.transfer ≠ none)) :
    TriggerMoves now stale s (serviceYieldList now (s.serviceTryAgain now).yielding.keys
      (s.serviceTryAgain now)) := by
  obtain ⟨hm, hp⟩ := serviceTryAgain_moves now hs hpause
  exact hm.trans (serviceYieldList_moves _ (hm.wf hs) hp)

end Trigger

/-! ## Every handler splits -/

/-- The handler's own change, moves of the trigger, and the event it raises last. -/
def Splits (now : Time) (stale : Prop) (s : Lane) (e : LaneEvent) (t : Lane) : Prop :=
  ∃ m m' closing, Opening now s e m closing ∧ TriggerMoves now stale m m' ∧ t = m'.close closing

/-- The pause after an FTDE 1 is over. -/
def pauseElapsed (now : Time) (s : Lane) : Bool :=
  match s.tryAgainDue with
  | some due => due ≤ now
  | none => false

theorem pauseElapsed_of {now due : Time} {s : Lane} (hdue : s.tryAgainDue = some due)
    (hle : due ≤ now) : s.pauseElapsed now = true := by
  simp [pauseElapsed, hdue, hle]

/-- The trigger for this store, run now, gives an elapsed pause to the task it is for. -/
def PauseMeets (now : Time) (store : Store) (s : Lane) : Prop :=
  s.pauseElapsed now = true → s.transfer = s.nextFor store

/-- A task created for this store now is not picked before the one an elapsed pause is
for. -/
def NewTaskWaits (now : Time) (store : Store) (s : Lane) : Prop :=
  s.pauseElapsed now = true → s.queue store ≠ [] ∧ s.transfer = s.nextFor store

/-- No pause is on if the message is for the task in flight. -/
def NoPauseFor (transfer : ℕ) (s : Lane) : Prop :=
  s.inFlight.bind (·.tid) = some transfer → s.tryAgainDue = none

/-- An elapsed pause is not handed to another task by this event: a grant, an announced
release or a new task finds the task in flight picked, and no pause outlasts a transfer
completed or yielded. -/
def PauseKept (now : Time) (s : Lane) : LaneEvent → Prop
  | .lockObtained store => s.PauseMeets now store
  | .lockState store state => state = false → s.queue store ≠ [] → s.PauseMeets now store
  | .fileTransferError transfer status => status = 6 → s.NoPauseFor transfer
  | .fileTransferDataComplete transfer => s.NoPauseFor transfer
  | .download store _ => s.NewTaskWaits now store
  | .upload store _ _ => s.NewTaskWaits now store
  | .queueClear store _ => s.NewTaskWaits now store
  | _ => True

instance PauseMeets.decidable (now : Time) (store : Store) (s : Lane) :
    Decidable (s.PauseMeets now store) :=
  inferInstanceAs (Decidable (_ → _))

instance NewTaskWaits.decidable (now : Time) (store : Store) (s : Lane) :
    Decidable (s.NewTaskWaits now store) :=
  inferInstanceAs (Decidable (_ → _ ∧ _))

instance NoPauseFor.decidable (transfer : ℕ) (s : Lane) : Decidable (s.NoPauseFor transfer) :=
  inferInstanceAs (Decidable (_ → _))

instance PauseKept.decidable (now : Time) (s : Lane) :
    (e : LaneEvent) → Decidable (s.PauseKept now e)
  | .lockObtained store => inferInstanceAs (Decidable (s.PauseMeets now store))
  | .lockState store state =>
    inferInstanceAs (Decidable (state = false → s.queue store ≠ [] → s.PauseMeets now store))
  | .fileTransferError transfer status =>
    inferInstanceAs (Decidable (status = 6 → s.NoPauseFor transfer))
  | .fileTransferDataComplete transfer => inferInstanceAs (Decidable (s.NoPauseFor transfer))
  | .download store _ | .upload store _ _ | .queueClear store _ =>
    inferInstanceAs (Decidable (s.NewTaskWaits now store))
  | .fileTransferContinueData _ _ _ | .fileTransferData _ _ | .dequeueClear _ | .abortTransfers
  | .fireWake | .poke | .wakeup | .queueFlushed | .resetTransferLane | .releaseLocksNow =>
    inferInstanceAs (Decidable True)

theorem NoPauseFor.of_answers {transfer : ℕ} {id : TaskId} {s : Lane}
    (h : s.NoPauseFor transfer) (ha : s.Answers transfer id) : s.tryAgainDue = none :=
  h (by simp [inFlight, ha.inFlight, ha.tid])

section Handlers

variable {now : Time} {stale : Prop} {s : Lane}

/-- An opening alone. -/
theorem splits_opening {e : LaneEvent} {t : Lane} (h : Opening now s e t none) :
    Splits now stale s e t :=
  ⟨t, t, none, h, .refl t, rfl⟩

/-- A quiet handler. -/
theorem splits_quiet {e : LaneEvent} {t : Lane} (hi : s.Idle now e) (h : s.Quiet t) :
    Splits now stale s e t :=
  splits_opening (.quiet hi h)

theorem splits_lockObtained (hs : s.Wf) (store : Store)
    (hpause : stale ∨ s.PauseMeets now store) :
    Splits now stale s (.lockObtained store) (s.lockObtained now store) := by
  refine ⟨_, _, none, .granted s store, ?_, rfl⟩
  refine transferTrigger_moves store false _ ?_ (by simp) ?_
  · exact hs.store
  · intro due hdue hle
    exact (hpause.imp_right fun h => h (pauseElapsed_of hdue hle)).symm

/-- LKST free is the change to the store's yield, perhaps a wake, perhaps the trigger. -/
theorem lockFreed_eq (now : Time) {store : Store} (hh : s.held store = false) :
    ∃ t, (t = s.freed now store ∨ t = (s.freed now store).wakeAt (now + lockCourtesy)) ∧
      s.lockFreed now store =
        if t.queue store ≠ [] ∧ ¬ t.transferRequested ∧ ¬ t.held store then
          t.transferTrigger now store false
        else t := by
  let u := announceFree now store { s with foreignHeld := s.foreignHeld.filter (· ≠ store) }
  unfold lockFreed
  rw [if_neg (by simp [hh])]
  by_cases hc : (u.yielding.get? store).isSome ∧ u.queue store ≠ []
  · refine ⟨_, .inr rfl, ?_⟩
    dsimp only
    rw [if_pos hc]
    rfl
  · refine ⟨_, .inl rfl, ?_⟩
    dsimp only
    rw [if_neg hc]
    rfl

theorem splits_lockState (hs : s.Wf) (store : Store) (state : Bool)
    (hpause : stale ∨ (state = false → s.queue store ≠ [] → s.PauseMeets now store)) :
    Splits now stale s (.lockState store state) (s.lockState now store state) := by
  cases hh : s.held store with
  | true =>
    have hsame : s.lockState now store state = s := by
      cases state <;> simp [lockState, lockTaken, lockFreed, hh]
    rw [hsame]
    exact splits_quiet hh (.refl s)
  | false =>
    cases state with
    | true => exact splits_opening (.taken hh)
    | false =>
      have hst := sameTransfers_freed now store s
      have hwf : (s.freed now store).Wf := hs.same hst
      have htrigger : ∀ t, (s.freed now store).SameTransfers t → s.queue store ≠ [] →
          TriggerMoves now stale t (t.transferTrigger now store false) := by
        intro t ht hq
        refine transferTrigger_moves store false t (hwf.same ht).store (by simp) ?_
        intro due hdue hle
        have hall := hst.trans ht
        have hnext : t.nextFor store = s.nextFor store := by
          unfold nextFor
          simp only [hall.queue, hall.transferQueue]
        rw [hall.transfer, hnext]
        rw [hall.tryAgainDue] at hdue
        exact (hpause.imp_right fun h => h rfl hq (pauseElapsed_of hdue hle)).symm
      obtain ⟨t, ht, heq⟩ := lockFreed_eq now hh
      have hwake : TriggerMoves now stale (s.freed now store) t := by
        rcases ht with rfl | rfl
        · exact .refl _
        · exact (TriggerMove.wake _ _).moves
      have hsame : (s.freed now store).SameTransfers t := by
        rcases ht with rfl | rfl
        · exact .refl _
        · constructor <;> intros <;> rfl
      refine ⟨_, _, none, .freed hh, hwake.trans ?_, rfl⟩
      show TriggerMoves now stale t (s.lockFreed now store)
      rw [heq]
      split
      · rename_i hq
        refine htrigger t hsame ?_
        rw [← hst.queue, ← hsame.queue]
        exact hq.1
      · exact .refl t

theorem splits_enqueue (hs : s.Wf) {e : LaneEvent} {task : TransferTask}
    (he : newTask e = some task) (hpause : stale ∨ s.NewTaskWaits now task.store) :
    Splits now stale s e ((s.enqueue task).transferTrigger now task.store false) := by
  refine ⟨_, _, none, .enqueue s he, ?_, rfl⟩
  refine transferTrigger_moves task.store false _ (wf_enqueue hs).store (by simp) ?_
  intro due hdue hle
  rcases hpause with h | h
  · exact .inr h
  · obtain ⟨hq, hnext⟩ := h (pauseElapsed_of hdue hle)
    left
    show s.transfer = _
    rw [hnext]
    cases hqs : s.queue task.store with
    | nil => exact absurd hqs hq
    | cons head rest =>
      have hhead : (s.queue task.store).head? = some head := by rw [hqs]; rfl
      have hhead' : ((s.enqueue task).queue task.store).head? = some head := by
        rw [queue_enqueue, if_pos rfl, hqs]
        rfl
      rw [nextFor_of_queue hhead, nextFor_of_queue hhead']

/-- The end of a drain: its lock is given back, and the trigger carries on. -/
theorem endDrain_moves (hs : s.Wf) {d : Drain} (hd : s.draining = some d) :
    TriggerMoves now stale ({ s with draining := none }.letGo now d.store) (s.endDrain now) := by
  unfold endDrain
  rw [hd]
  dsimp only [releaseThenContinue]
  rw [releaseThenContinueWith_eq]
  refine transferTrigger_moves d.store false _ (wf_drainEnded now hs hd s.wakeups).store (by simp) ?_
  intro due hdue
  rw [letGo_tryAgainDue] at hdue
  have := (hs.draining (by simp [hd])).2
  simp [this] at hdue

theorem splits_fileTransferData (env : Env) (transfer : ℕ) (data : Bytes) :
    Splits env.now stale s (.fileTransferData transfer data)
      (s.fileTransferData env transfer data) := by
  by_cases hd : ∃ d, s.draining = some d ∧ d.tid = transfer
  · obtain ⟨d, hd, rfl⟩ := hd
    have heq : s.fileTransferData env d.tid data =
        ({ s with draining := some { d with last := env.now } }.send env.now
          (.transferAck d.tid 0)) := by
      unfold fileTransferData
      simp only [hd, if_true]
    rw [heq]
    exact splits_opening (.drained data hd)
  · have hd : ∀ d, s.draining = some d → d.tid ≠ transfer := by
      intro d h ht
      exact hd ⟨d, h, ht⟩
    rw [fileTransferData_eq hd]
    exact splits_quiet hd (quiet_dataInFlight env transfer data s)

/-- A failed transfer: its task dropped, the trigger run, the failure raised. -/
theorem failTransfer_moves (transfer status : ℕ) {id : TaskId} (hs : s.Wf) (hfront : s.Front id)
    (hreq : s.transferRequested = false) :
    ∃ t, TriggerMoves now stale (s.dropFailed now id) t ∧
      s.failTransfer now id transfer status =
        t.close (some (.fileTransferError id transfer status)) := by
  refine ⟨(s.dropFailed now id).transferTrigger now (s.tasks id).store false, ?_, ?_⟩
  · refine transferTrigger_moves _ false _ (wf_dropFailed hs hfront hreq).store (by simp) ?_
    simp [dropFailed, popHead]
  · simp only [failTransfer, releaseThenContinue, releaseThenContinueWith_eq]
    rfl

theorem splits_transferRefused (hs : s.Wf) {id : TaskId} {transfer status : ℕ}
    (ha : s.Answers transfer id)
    (hpause : stale ∨ s.PauseKept now (.fileTransferError transfer status)) :
    Splits now stale s (.fileTransferError transfer status)
      (s.transferRefused now id transfer status) := by
  have hfront := (hs.inFlight id ha.inFlight).1
  unfold transferRefused
  dsimp only
  split
  · rename_i h1
    subst h1
    have hcount : ((s.countTry id).tasks id).tryAgain = (s.tasks id).tryAgain + 1 := by
      simp [countTry]
    show Splits now stale s _ (tryAgain now id transfer { s with transferRequested := false })
    unfold tryAgain
    dsimp only
    change Splits now stale s _ (if ((s.countTry id).tasks id).tryAgain > tryAgainAttempts then
      (s.countTry id).failTransfer now id transfer 1 else _)
    split
    · rename_i hmany
      obtain ⟨t, hm, heq⟩ := failTransfer_moves transfer 1 (wf_countTry hs) (front_countTry hfront) rfl
      exact ⟨_, t, _, .triedOut ha (by omega), hm, heq⟩
    · rename_i hmany
      refine ⟨_, _, none, .tryAgain ha (by omega), (TriggerMove.wake _
        (now + tryAgainPause ((s.countTry id).tasks id).tryAgain)).moves, ?_⟩
      rw [← hcount]
      rfl
  · rename_i h1
    split
    · rename_i h5
      subst h5
      refine ⟨_, _, none, .lockLost ha, ?_, rfl⟩
      refine transferTrigger_moves _ true _ hs.store (fun _ => .inl ?_) (fun _ _ _ => .inl ?_)
      · exact hs.nextFor ha.inFlight
      · exact hs.nextFor ha.inFlight
    · rename_i h5
      split
      · rename_i h6
        subst h6
        refine ⟨_, _, none, .yielded ha, ?_, rfl⟩
        rw [releaseThenContinueWith_false]
        split
        · exact .refl _
        · refine transferTrigger_moves _ false _ ?_ (by simp) ?_
          · intro k j hj
            rw [letGo_queue] at hj
            rw [letGo_tasks]
            exact hs.store k j hj
          · intro due hdue hle
            rw [letGo_tryAgainDue] at hdue
            refine .inr (hpause.resolve_right fun h => ?_)
            have hnone := NoPauseFor.of_answers (h rfl) ha
            exact absurd (hdue.symm.trans hnone) (by simp)
      · rename_i h6
        obtain ⟨t, hm, heq⟩ := failTransfer_moves transfer status hs.unrequested hfront rfl
        exact ⟨_, t, _, .failed ha h1 h5 h6, hm, heq⟩

theorem splits_fileTransferError (hs : s.Wf) (transfer status : ℕ)
    (hpause : stale ∨ s.PauseKept now (.fileTransferError transfer status)) :
    Splits now stale s (.fileTransferError transfer status)
      (s.fileTransferError now transfer status) := by
  rcases message_cases s transfer with ⟨d, hd, rfl⟩ | ⟨id, ha⟩ | hstrange
  · have heq : s.fileTransferError now d.tid status = s.endDrain now := by
      simp only [fileTransferError, hd, if_true]
    rw [heq]
    exact ⟨_, _, none, .drainFailed status hd, endDrain_moves hs hd, rfl⟩
  · rw [ha.fileTransferError]
    exact splits_transferRefused hs ha hpause
  · rw [hstrange.fileTransferError]
    exact splits_quiet (e := .fileTransferError transfer status) hstrange (.refl s)

theorem splits_transferComplete (hs : s.Wf) {id : TaskId} {transfer : ℕ}
    (ha : s.Answers transfer id)
    (hpause : stale ∨ s.PauseKept now (.fileTransferDataComplete transfer)) :
    Splits now stale s (.fileTransferDataComplete transfer) (s.transferComplete now id) := by
  refine ⟨_, (s.dropCompleted now id).transferTrigger now (s.tasks id).store false, _,
    .completed ha, ?_, ?_⟩
  · refine transferTrigger_moves _ false _ (wf_dropCompleted hs).store (by simp) ?_
    intro due hdue hle
    simp only [dropCompleted, letGo_tryAgainDue] at hdue
    refine .inr (hpause.resolve_right fun h => ?_)
    exact absurd (hdue.symm.trans (NoPauseFor.of_answers h ha)) (by simp)
  · simp only [transferComplete, releaseThenContinue, releaseThenContinueWith_eq]
    rfl

theorem splits_fileTransferDataComplete (hs : s.Wf) (transfer : ℕ)
    (hpause : stale ∨ s.PauseKept now (.fileTransferDataComplete transfer)) :
    Splits now stale s (.fileTransferDataComplete transfer)
      (s.fileTransferDataComplete now transfer) := by
  rcases message_cases s transfer with ⟨d, hd, rfl⟩ | ⟨id, ha⟩ | hstrange
  · have heq : s.fileTransferDataComplete now d.tid = s.endDrain now := by
      simp only [fileTransferDataComplete, hd, if_true]
    rw [heq]
    exact ⟨_, _, none, .drainCompleted hd, endDrain_moves hs hd, rfl⟩
  · rw [ha.fileTransferDataComplete]
    exact splits_transferComplete hs ha hpause
  · rw [hstrange.fileTransferDataComplete]
    exact splits_opening (.strangeCompletion hstrange)

theorem splits_handleWakeup (hs : s.Wf)
    (hpause : stale ∨ (s.tryAgainDue ≠ none → s.transfer ≠ none)) :
    Splits now stale s .wakeup (s.handleWakeup now) := by
  unfold handleWakeup
  split
  · rename_i hw
    exact splits_quiet hw (.refl s)
  · rename_i hw
    have hs' : Wf { s with wakeups := s.wakeups - 1 } := hs.same (by constructor <;> intros <;> rfl)
    unfold serviceYields
    dsimp only
    rcases Option.eq_none_or_eq_some s.draining with hd | ⟨d, hd⟩
    · refine ⟨_, _, none, .woken hw (by simp [hd]), ?_, rfl⟩
      have hsame : serviceDrain now { s with wakeups := s.wakeups - 1 } =
          { s with wakeups := s.wakeups - 1 } := by
        simp only [serviceDrain, hd]
      rw [hsame]
      exact serviceRest_moves hs' hpause
    · have hend : serviceDrain now { s with wakeups := s.wakeups - 1 } =
          if now - d.last ≥ drainStall ∨ now - d.since ≥ drainMax then
            endDrain now { s with wakeups := s.wakeups - 1 }
          else wakeAt (min (d.last + drainStall) (d.since + drainMax))
            { s with wakeups := s.wakeups - 1 } := by
        simp only [serviceDrain, hd]
      rw [hend]
      split
      · rename_i hover
        have hm : TriggerMoves now stale
            (letGo now d.store { s with wakeups := s.wakeups - 1, draining := none })
            (endDrain now { s with wakeups := s.wakeups - 1 }) := endDrain_moves hs' hd
        have hwf := wf_drainEnded now hs' hd (s.wakeups - 1)
        refine ⟨_, _, none, .drainOverdue hw hd hover, hm.trans ?_, rfl⟩
        refine serviceRest_moves (hm.wf hwf) (.inr ?_)
        intro hdue
        have hnone := (hs.draining (by simp [hd])).2
        rcases hm.tryAgainDue with h | h
        · rw [h, letGo_tryAgainDue] at hdue
          exact absurd hnone hdue
        · exact absurd h hdue
      · rename_i hover
        refine ⟨_, _, none, .woken hw ?_, ?_, rfl⟩
        · intro d' hd'
          rw [hd] at hd'
          rw [← Option.some.inj hd']
          exact hover
        · refine (TriggerMove.wake _ _).moves.trans (serviceRest_moves ?_ hpause)
          exact hs'.same (by constructor <;> intros <;> rfl)

theorem splits_fireWake : Splits now stale s .fireWake (s.fireWake now) := by
  unfold fireWake
  split
  · rename_i due hdue
    split
    · rename_i hlt
      refine splits_quiet (e := .fireWake) ?_ (.refl s)
      intro due' hdue'
      rw [hdue] at hdue'
      rw [← Option.some.inj hdue']
      exact hlt
    · rename_i hle
      exact splits_opening (.fire hdue (Nat.le_of_not_lt hle))
  · rename_i hnone
    refine splits_quiet (e := .fireWake) ?_ (.refl s)
    intro due hdue
    exact absurd (hnone.symm.trans hdue) (by simp)

end Handlers

/-- Every handler splits. -/
theorem handle_splits {stale : Prop} {s : Lane} (hs : s.Wf) (env : Env) (e : LaneEvent)
    (hpause : stale ∨ s.PauseKept env.now e ∧ (s.tryAgainDue ≠ none → s.transfer ≠ none)) :
    Splits env.now stale s e (handle env e s) := by
  cases e with
  | lockObtained store => exact splits_lockObtained hs store (hpause.imp_right And.left)
  | lockState store state => exact splits_lockState hs store state (hpause.imp_right And.left)
  | fileTransferContinueData transfer size count =>
    exact splits_quiet trivial (quiet_fileTransferContinueData ..)
  | fileTransferData transfer data => exact splits_fileTransferData env transfer data
  | fileTransferError transfer status =>
    exact splits_fileTransferError hs transfer status (hpause.imp_right And.left)
  | fileTransferDataComplete transfer =>
    exact splits_fileTransferDataComplete hs transfer (hpause.imp_right And.left)
  | download store index => exact splits_enqueue hs rfl (hpause.imp_right And.left)
  | upload store index payload => exact splits_enqueue hs rfl (hpause.imp_right And.left)
  | queueClear store index => exact splits_enqueue hs rfl (hpause.imp_right And.left)
  | dequeueClear task => exact splits_opening (.dequeue s task)
  | abortTransfers => exact splits_opening (.abort s)
  | fireWake => exact splits_fireWake
  | poke => exact splits_opening (.poke s)
  | wakeup => exact splits_handleWakeup hs (hpause.imp_right And.right)
  | queueFlushed => exact splits_quiet trivial (quiet_queueFlushed env.now s)
  | resetTransferLane => exact splits_opening (.reset s)
  | releaseLocksNow => exact splits_opening (.teardown s)

/-- A step is an opening from the state with the event logged, moves of the trigger, and a
closing event. -/
theorem step_splits {s : Lane} (hs : s.Wf) (a : Env × LaneEvent) :
    Splits a.1.now True (s.receive a.1 a.2) a.2 (s.step a) :=
  handle_splits (wf_receive hs a.1 a.2) a.1 a.2 (.inl trivial)

/-- A possible step keeps the lane well-formed. -/
theorem wf_step {s : Lane} {a : Env × LaneEvent} (hs : s.Wf) (ha : s.Possible a) :
    (s.step a).Wf := by
  obtain ⟨m, m', closing, hopen, hmoves, heq⟩ := step_splits hs a
  rw [heq]
  refine wf_close (hmoves.wf (wf_opening hopen (wf_receive hs a.1 a.2) ?_)) closing
  intro id hid
  obtain ⟨env, e⟩ := a
  obtain rfl : e = .dequeueClear id := hid
  exact ha.2.2

/-- Every reachable lane is well-formed. -/
theorem wf_reachableWhen {ok : Lane → Env × LaneEvent → Prop} {s : Lane}
    (h : ReachableWhen ok s) : s.Wf := by
  refine Library.Reach.invariant ?_ (fun s a _ hs ha => wf_step hs ha.1) h
  rintro s ⟨tid, h1, h2, rfl⟩
  exact wf_fresh h1 h2

end Lane

end Bmdwire
