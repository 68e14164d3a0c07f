import Bmdwire.Analysis.LaneReleases
import Bmdwire.Interface.LaneData

/-!
# The events that move no data

Every step on an event other than FTCD, FTDa and the flush signal is made of `DataMove`s
(`step_dataMoves`): of its opening, the moves of the trigger, and the event raised at the end.
-/

set_option autoImplicit false

namespace Bmdwire

namespace Lane

variable {now : Time} {e : LaneEvent} {s t : Lane}

/-! ## What leaves the data where it was -/

/-- A change that has nothing to do with tasks and data, with entries that say nothing of
them. -/
theorem unmoved_of {new : List Act} (hbudget : t.transferBudget = s.transferBudget)
    (hqueue : t.sendQueue = s.sendQueue) (hnext : t.nextTask = s.nextTask)
    (htasks : ∀ id, (t.tasks id).untried = (s.tasks id).untried)
    (htransfer : t.transfer = none ∨ t.transfer = s.transfer ∧ t.transferBuffer = s.transferBuffer)
    (hlog : t.log = new ++ s.log) (hnew : ∀ a ∈ new, a.moving = false ∧ a.ack? = none) :
    s.Unmoved t :=
  ⟨hbudget, hqueue, hnext, htasks, htransfer, new, hlog,
    fun a ha => ⟨(hnew a ha).1, fun _ => (hnew a ha).2⟩⟩

/-- A change elsewhere, of which the log says nothing. -/
theorem unmoved_elsewhere (hbudget : t.transferBudget = s.transferBudget)
    (hqueue : t.sendQueue = s.sendQueue) (hnext : t.nextTask = s.nextTask)
    (htasks : t.tasks = s.tasks) (htransfer : t.transfer = s.transfer)
    (hbuffer : t.transferBuffer = s.transferBuffer) (hlog : t.log = s.log) : s.Unmoved t :=
  @unmoved_of s t [] hbudget hqueue hnext (fun id => by rw [htasks]) (.inr ⟨htransfer, hbuffer⟩)
    hlog (by simp)

theorem Unmoved.refl (s : Lane) : s.Unmoved s := unmoved_elsewhere rfl rfl rfl rfl rfl rfl rfl

theorem unmoved_raise {n : Notice} (h : (Act.notice n).moving = false) (s : Lane) :
    s.Unmoved (s.raise n) :=
  @unmoved_of s _ [.notice n] rfl rfl rfl (fun _ => rfl) (.inr ⟨rfl, rfl⟩) rfl
    (fun a ha => by rw [List.mem_singleton.mp ha]; exact ⟨h, rfl⟩)

theorem unmoved_send {c : Command} (h : (Act.send now c).moving = false)
    (h' : (Act.send now c).ack? = none) (s : Lane) : s.Unmoved (s.send now c) :=
  @unmoved_of s _ [.send now c] rfl rfl rfl (fun _ => rfl) (.inr ⟨rfl, rfl⟩) rfl
    (fun a ha => by rw [List.mem_singleton.mp ha]; exact ⟨h, h'⟩)

theorem unmoved_countTry (id : TaskId) (s : Lane) : s.Unmoved (s.countTry id) :=
  @unmoved_of s _ [] rfl rfl rfl
    (fun j => modifyTask_keeps TransferTask.untried
      (f := fun t => { t with tryAgain := t.tryAgain + 1 }) (fun _ => rfl) id j _)
    (.inr ⟨rfl, rfl⟩) rfl (by simp)

/-- A frame's release gives the transfer in flight up, and its buffer. -/
theorem unmoved_letGo (now : Time) (store : Store) (hbudget : t.transferBudget = s.transferBudget)
    (hqueue : t.sendQueue = s.sendQueue) (hnext : t.nextTask = s.nextTask)
    (htasks : ∀ id, (t.tasks id).untried = (s.tasks id).untried) (hlog : t.log = s.log) :
    s.Unmoved (t.letGo now store) := by
  rcases letGo_cases now store t with ⟨-, -, h⟩ | ⟨-, h⟩
  · rw [h]
    exact @unmoved_of s _ [.send now (.lock store false)] hbudget hqueue hnext htasks (.inl rfl)
      (congrArg _ hlog) (fun a ha => by rw [List.mem_singleton.mp ha]; exact ⟨rfl, rfl⟩)
  · rw [h]
    exact @unmoved_of s _ [] hbudget hqueue hnext htasks (.inl rfl) hlog (by simp)

/-- Releases leave the data alone. -/
theorem ReleaseMoves.unmoved {yields : Bool} {may : Store → Prop}
    (h : ReleaseMoves now yields may s t) : s.Unmoved t := by
  obtain ⟨new, hlog, hnew⟩ := h.log_eq
  obtain ⟨_, _, _, _, rfl⟩ := h.fields
  refine unmoved_of rfl rfl rfl (fun _ => rfl) (.inr ⟨rfl, rfl⟩) hlog fun a ha => ?_
  obtain ⟨k, -, rfl⟩ := hnew a ha
  exact ⟨rfl, rfl⟩

theorem unmoved_dropFailed (now : Time) (id : TaskId) (s : Lane) :
    s.Unmoved (s.dropFailed now id) :=
  unmoved_letGo now _ rfl rfl rfl (fun _ => rfl) rfl

theorem unmoved_abortTransfers (now : Time) (s : Lane) : s.Unmoved (s.abortTransfers now) := by
  cases hleaves : s.leavesDraining now with
  | true =>
    obtain ⟨id, _, hid, -⟩ := exists_inFlight_of_leavesDraining hleaves
    refine Unmoved.trans ?_ (abortTransfers_drain hleaves hid).1.unmoved
    exact @unmoved_of s _ [] rfl rfl rfl (fun _ => rfl) (.inl rfl) rfl (by simp)
  | false =>
    refine Unmoved.trans ?_ (abortTransfers_all hleaves).1.unmoved
    exact @unmoved_of s _ [] rfl rfl rfl (fun _ => rfl) (.inl rfl) rfl (by simp)

/-! ## The parts of a step -/

theorem Unmoved.moves (h : s.Unmoved t) : DataMoves now e s t :=
  Relation.ReflTransGen.single (.unmoved h)

/-- A move of the trigger requests a transfer, or leaves the data alone. -/
theorem triggerMove_dataMove {stale : Prop} (h : TriggerMove now stale s t) (hwf : s.Wf) :
    DataMove now e s t := by
  cases h with
  | wake due => exact .unmoved (unmoved_elsewhere rfl rfl rfl rfl rfl rfl rfl)
  | fail =>
    exact .unmoved (@unmoved_of s _ [.throw .keyError] rfl rfl rfl (fun _ => rfl)
      (.inr ⟨rfl, rfl⟩) rfl (fun a ha => by rw [List.mem_singleton.mp ha]; exact ⟨rfl, rfl⟩))
  | pauseOver _ _ _ => exact .unmoved (unmoved_elsewhere rfl rfl rfl rfl rfl rfl rfl)
  | endYield _ _ => exact .unmoved (unmoved_elsewhere rfl rfl rfl rfl rfl rfl rfl)
  | clean _ _ =>
    obtain ⟨new, heq, hnew⟩ := cleanLocks_eq now s
    rw [heq]
    refine .unmoved (unmoved_of rfl rfl rfl (fun _ => rfl) (.inr ⟨rfl, rfl⟩) rfl fun a ha => ?_)
    obtain ⟨k, -, rfl⟩ := hnew a ha
    exact ⟨rfl, rfl⟩
  | @askForLock id _ _ _ _ _ _ =>
    have hask : (Act.send now (lockRequestFor (s.tasks id))).moving = false ∧
        (Act.send now (lockRequestFor (s.tasks id))).ack? = none := by
      unfold lockRequestFor
      cases (s.tasks id).kind <;> exact ⟨rfl, rfl⟩
    exact .unmoved (@unmoved_of s _ [.send now (lockRequestFor (s.tasks id))] rfl rfl rfl
      (fun _ => rfl) (.inr ⟨rfl, rfl⟩) rfl (fun a ha => by rw [List.mem_singleton.mp ha]; exact hask))
  | @clear id _ _ _ _ _ =>
    refine .unmoved (Unmoved.trans ?_ (unmoved_letGo now _ rfl rfl rfl (fun _ => rfl) rfl))
    refine @unmoved_of s _ [.notice _, .send now _] rfl rfl rfl (fun _ => rfl) (.inr ⟨rfl, rfl⟩) rfl
      fun a ha => ?_
    rcases List.mem_cons.mp ha with rfl | ha
    · exact ⟨rfl, rfl⟩
    · rw [List.mem_singleton.mp ha]
      exact ⟨rfl, rfl⟩
  | request retry _ hfront _ _ hkind _ =>
    exact .request retry (hwf.made _ _ hfront.mem) hkind

theorem triggerMoves_dataMoves {stale : Prop} (h : TriggerMoves now stale s t) (hwf : s.Wf) :
    DataMoves now e s t := by
  refine (h.keep (P := fun t => t.Wf ∧ DataMoves now e s t) ?_ ⟨hwf, .refl⟩).2
  rintro t u hm ⟨ht, hmoves⟩
  exact ⟨wf_triggerMove t u hm ht, hmoves.tail (triggerMove_dataMove hm ht)⟩

/-- An event that the lane decides nothing by, and that moves no data, changes nothing. -/
theorem handle_idle {env : Env} (h : s.Idle env.now e)
    (hdata : e.movesData = false) : handle env e s = s := by
  cases e with
  | lockState store state =>
    have hheld : s.held store = true := h
    show s.lockState env.now store state = s
    unfold Lane.lockState lockTaken lockFreed
    rw [if_pos hheld, if_pos hheld, ite_self]
  | fileTransferError transfer status => exact Strange.fileTransferError h env.now status
  | wakeup =>
    have hzero : s.wakeups = 0 := h
    show s.handleWakeup env.now = s
    rw [handleWakeup, if_pos hzero]
  | fireWake =>
    show s.fireWake env.now = s
    unfold Lane.fireWake
    cases hdue : s.wakeDue with
    | none => rfl
    | some due => exact if_pos (h due hdue)
  | fileTransferContinueData | fileTransferData | queueFlushed => cases hdata
  | _ => cases h

/-- An opening puts a task at the end of a queue, or leaves the data alone. -/
theorem opening_dataMove {closing : Option Notice} (h : Opening now s e t closing)
    (hidle : ¬ s.Idle now e) (hdata : e.movesData = false) : DataMove now e s t := by
  cases h with
  | quiet h _ => exact absurd h hidle
  | granted store => exact .unmoved (unmoved_elsewhere rfl rfl rfl rfl rfl rfl rfl)
  | @taken store _ =>
    obtain ⟨_, _, _, _, heq⟩ := lockTaken_eq now store s
    rw [heq]
    exact .unmoved (unmoved_elsewhere rfl rfl rfl rfl rfl rfl rfl)
  | @freed store _ =>
    obtain ⟨_, _, heq⟩ := freed_eq now store s
    rw [heq]
    exact .unmoved (unmoved_elsewhere rfl rfl rfl rfl rfl rfl rfl)
  | drained data _ => cases hdata
  | drainFailed status _ =>
    exact .unmoved (unmoved_letGo now _ rfl rfl rfl (fun _ => rfl) rfl)
  | drainCompleted hd => exact .unmoved (unmoved_letGo now _ rfl rfl rfl (fun _ => rfl) rfl)
  | tryAgain _ _ =>
    exact .unmoved ((unmoved_countTry _ s).trans (unmoved_elsewhere rfl rfl rfl rfl rfl rfl rfl))
  | triedOut _ _ => exact .unmoved ((unmoved_countTry ..).trans (unmoved_dropFailed ..))
  | lockLost _ => exact .unmoved (unmoved_elsewhere rfl rfl rfl rfl rfl rfl rfl)
  | yielded _ => exact .unmoved (unmoved_letGo now _ rfl rfl rfl (fun _ => rfl) rfl)
  | failed _ _ _ _ =>
    refine .unmoved (Unmoved.trans ?_ (unmoved_dropFailed ..))
    exact unmoved_elsewhere rfl rfl rfl rfl rfl rfl rfl
  | completed _ => exact .unmoved (unmoved_letGo now _ rfl rfl rfl (fun _ => rfl) rfl)
  | strangeCompletion _ => exact .unmoved (unmoved_elsewhere rfl rfl rfl rfl rfl rfl rfl)
  | enqueue hnew => exact .enqueue s hnew
  | dequeue id =>
    obtain ⟨q, hq⟩ := dequeueClear_eq id s
    rw [hq]
    exact .unmoved (unmoved_elsewhere rfl rfl rfl rfl rfl rfl rfl)
  | abort => exact .unmoved (unmoved_abortTransfers now s)
  | fire _ _ => exact .unmoved (unmoved_elsewhere rfl rfl rfl rfl rfl rfl rfl)
  | poke => exact .unmoved (unmoved_elsewhere rfl rfl rfl rfl rfl rfl rfl)
  | woken _ _ => exact .unmoved (unmoved_elsewhere rfl rfl rfl rfl rfl rfl rfl)
  | drainOverdue _ _ _ => exact .unmoved (unmoved_letGo now _ rfl rfl rfl (fun _ => rfl) rfl)
  | reset => exact .unmoved (@unmoved_of s _ [] rfl rfl rfl (fun _ => rfl) (.inl rfl) rfl (by simp))
  | teardown =>
    rcases releaseLocksNow_cases now s with ⟨-, heq⟩ | ⟨u, hm, -, heq⟩
    · rw [heq]
      exact .unmoved (unmoved_elsewhere rfl rfl rfl rfl rfl rfl rfl)
    · rw [heq]
      exact .unmoved (hm.unmoved.trans (unmoved_elsewhere rfl rfl rfl rfl rfl rfl rfl))

/-- What an event raises at the end is not about data on its way. -/
theorem unmoved_close {s m : Lane} {closing : Option Notice}
    (h : Opening now s e m closing) (t : Lane) : t.Unmoved (t.close closing) := by
  cases h with
  | triedOut _ _ => exact unmoved_raise rfl t
  | failed _ _ _ _ => exact unmoved_raise rfl t
  | completed _ =>
    apply unmoved_raise
    unfold completionNotice
    split
    · rfl
    · split <;> rfl
  | _ => exact .refl t

/-- Taking in an event that moves no data. -/
theorem unmoved_receive (env : Env) (h : e.movesData = false) (s : Lane) :
    s.Unmoved (s.receive env e) :=
  @unmoved_of s _ [.recv env.now e] rfl rfl rfl (fun _ => rfl) (.inr ⟨rfl, rfl⟩) rfl
    (fun a ha => by rw [List.mem_singleton.mp ha]; exact ⟨h, rfl⟩)

/-- A step on an event that moves no data is made of `DataMove`s. -/
theorem step_dataMoves (hwf : s.Wf) {a : Env × LaneEvent} (hposs : s.Possible a)
    (hdata : a.2.movesData = false) : DataMoves a.1.now a.2 (s.receive a.1 a.2) (s.step a) := by
  by_cases hidle : (s.receive a.1 a.2).Idle a.1.now a.2
  · have hstep : s.step a = s.receive a.1 a.2 := handle_idle hidle hdata
    rw [hstep]
    exact .refl
  · obtain ⟨m, m', closing, hopen, hmoves, heq⟩ := step_splits hwf a
    have hm : m.Wf := wf_opening hopen (wf_receive hwf a.1 a.2) fun id hid => by
      obtain ⟨env, e⟩ := a
      obtain rfl : e = .dequeueClear id := hid
      exact hposs.2.2
    rw [heq]
    have hopened : DataMoves a.1.now a.2 (s.receive a.1 a.2) m :=
      .single (opening_dataMove hopen hidle hdata)
    exact (hopened.trans (triggerMoves_dataMoves hmoves hm)).tail
      (.unmoved (unmoved_close hopen m'))

/-- The request of an upload, with the metadata of an empty one. -/
theorem requestTransfer_upload {id : TaskId} (retry : Bool) (h : (s.tasks id).kind = .upload) :
    ∃ mode, s.requestTransfer now retry id = { s with
      transferId := s.nextTransferId retry
      transfer := some id
      transferRequested := true
      transferLastData := none
      tasks := Function.update s.tasks id { s.tasks id with
        tid := some (s.nextTransferId retry)
        metadataSent := decide ((s.tasks id).dataLength = 0)
        offset := 0 }
      log := (if (s.tasks id).dataLength = 0 then
          [.send now (.fileData (s.nextTransferId retry) (s.tasks id).hash (s.tasks id).name
            (s.tasks id).description)] else []) ++
        .send now (.uploadRequest id (s.nextTransferId retry) (s.tasks id).store
          (s.tasks id).slot (s.tasks id).dataLength mode) :: s.log } := by
  refine ⟨if (s.tasks id).store = macroStore then 0x0300 else 1, ?_⟩
  unfold requestTransfer sendRequest nextTransferId
  simp only [h, if_true, modifyTask, Function.update_self, Option.getD_some]
  by_cases hzero : (s.tasks id).dataLength = 0
  · simp [hzero, send]
  · simp [hzero, send]

/-- The request of a download, on an empty buffer. -/
theorem requestTransfer_download {id : TaskId} (retry : Bool) (h : (s.tasks id).kind ≠ .upload) :
    s.requestTransfer now retry id = { s with
      transferId := s.nextTransferId retry
      transfer := some id
      transferBuffer := []
      transferBufferBytes := 0
      transferRequested := true
      transferLastData := none
      tasks := Function.update s.tasks id { s.tasks id with
        tid := some (s.nextTransferId retry) }
      log := .send now (.downloadRequest id (s.nextTransferId retry) (s.tasks id).store
          (s.tasks id).slot) :: s.log } := by
  unfold requestTransfer sendRequest nextTransferId
  cases hk : (s.tasks id).kind with
  | upload => exact absurd hk h
  | download => simp [hk, modifyTask, send]
  | clear => simp [hk, modifyTask, send]

end Lane

end Bmdwire
