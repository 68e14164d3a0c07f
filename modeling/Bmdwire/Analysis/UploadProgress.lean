import Bmdwire.Analysis.Outstanding
import Bmdwire.Analysis.UploadSteps

/-!
# The progress of an upload

`send_done` grows by eight more than the payload of every chunk sent, and no request resets it:
it is the size of all that was ever sent for the task (`wireBytes`), not the payload of its
attempt (`attemptBytes`). The two agree only until the first chunk is sent
(`progress_right_iff`).
-/

set_option autoImplicit false

namespace Bmdwire

/-- The task of the last request. -/
def owner (log : List Act) : Option TaskId := (lastRequest log).map Prod.fst

/-- The payload bytes sent for a task since its last request. -/
def attemptBytes (id : TaskId) : List Act → ℕ
  | [] => 0
  | .send _ (.uploadRequest task _ _ _ _ _) :: past => if task = id then 0 else attemptBytes id past
  | .send _ (.transferData _ chunk) :: past =>
    if owner past = some id then chunk.length + attemptBytes id past else attemptBytes id past
  | _ :: past => attemptBytes id past

/-- The amounts reported for a task since its last request. -/
def reportedSince (id : TaskId) : List Act → List ℕ
  | [] => []
  | .send _ (.uploadRequest task _ _ _ _ _) :: past =>
    if task = id then [] else reportedSince id past
  | .notice (.uploadProgress task _ _ sendDone _) :: past =>
    if task = id then sendDone :: reportedSince id past else reportedSince id past
  | _ :: past => reportedSince id past

/-- A report of the task is of no more than the whole, of the whole exactly when all of it was
sent in the attempt, and of no less than the reports before it in the attempt. -/
def ReportRight (id : TaskId) (a : Act) (past : List Act) : Prop :=
  match a with
  | .notice (.uploadProgress task _ _ sendDone sendLength) => task = id →
    sendDone ≤ sendLength ∧ (sendDone = sendLength ↔ attemptBytes id past = sendLength) ∧
      ∀ before ∈ reportedSince id past, before ≤ sendDone
  | _ => True

/-- The size of all FTDa sent for a task, without their transfer ids: in all its attempts, and
with eight bytes more than the payload for each. -/
def wireBytes (id : TaskId) : List Act → ℕ
  | [] => 0
  | .send _ (.transferData _ chunk) :: past =>
    if owner past = some id then 8 + chunk.length + wireBytes id past else wireBytes id past
  | _ :: past => wireBytes id past

/-- A report of progress for the task. -/
def Act.reports (id : TaskId) : Act → Bool
  | .notice (.uploadProgress task _ _ _ _) => task = id
  | _ => false

/-- A report among entries of which the new ones are none. -/
theorem mem_of_reports {id : TaskId} {a : Act} {new log : List Act}
    (h : ∀ b ∈ new, b.reports id = false) (ha : a ∈ new ++ log) (hreport : a.reports id = true) :
    a ∈ log := by
  refine (List.mem_append.mp ha).resolve_left fun hnew => ?_
  rw [h a hnew] at hreport
  cases hreport

/-- As soon as anything was sent, its size is more than the payload of the attempt. -/
theorem attemptBytes_lt (id : TaskId) (log : List Act) :
    wireBytes id log = 0 ∧ attemptBytes id log = 0 ∨ attemptBytes id log < wireBytes id log := by
  induction log with
  | nil => exact .inl ⟨rfl, rfl⟩
  | cons a past ih =>
    cases a with
    | send now c =>
      cases c with
      | transferData transfer chunk =>
        simp only [attemptBytes, wireBytes]
        split
        · omega
        · exact ih
      | uploadRequest task transfer store slot length mode =>
        simp only [attemptBytes, wireBytes]
        split
        · omega
        · exact ih
      | _ => exact ih
    | _ => exact ih

/-- Entries that are not about uploads. -/
theorem wireBytes_append {new log : List Act} (h : ∀ a ∈ new, a.uploads = false) (id : TaskId) :
    wireBytes id (new ++ log) = wireBytes id log ∧ owner (new ++ log) = owner log ∧
      ∀ a ∈ new, a.reports id = false := by
  induction new with
  | nil => exact ⟨rfl, rfl, by simp⟩
  | cons a new ih =>
    obtain ⟨hwire, howner, hreports⟩ := ih fun b hb => h b (List.mem_cons_of_mem a hb)
    have ha := h a (List.mem_cons_self ..)
    have hone : wireBytes id (a :: (new ++ log)) = wireBytes id (new ++ log) ∧
        owner (a :: (new ++ log)) = owner (new ++ log) ∧ a.reports id = false := by
      cases a with
      | recv now e => exact ⟨rfl, rfl, rfl⟩
      | send now c => cases c <;> first | exact ⟨rfl, rfl, rfl⟩ | cases ha
      | notice n => cases n <;> first | exact ⟨rfl, rfl, rfl⟩ | cases ha
      | throw e => exact ⟨rfl, rfl, rfl⟩
    refine ⟨hone.1.trans hwire, hone.2.1.trans howner, fun b hb => ?_⟩
    rcases List.mem_cons.mp hb with rfl | hb
    · exact hone.2.2
    · exact hreports b hb

namespace Lane

/-- `send_done` is the payload sent in the attempt, and the data cut into chunks; and every
report is right. -/
structure ProgressRight (s : Lane) (id : TaskId) : Prop where
  sent : (s.tasks id).sendDone = attemptBytes id s.log
  queued : (s.tasks id).sendDone =
    (((s.tasks id).data.getD []).take (s.tasks id).offset).length
  reports : Library.Every (ReportRight id) s.log

/-- What `send_done` is. -/
structure Counted (s : Lane) : Prop where
  requested : ∀ id, s.transfer = some id → owner s.log = some id
  sendDone : ∀ id, (s.tasks id).sendDone = wireBytes id s.log
  reports : ∀ id, (s.tasks id).sendDone = 0 → ∀ a ∈ s.log, a.reports id = false

variable {now : Time} {s t : Lane} {id : TaskId}

theorem Counted.same (h : s.Counted) (hsame : s.SameUploads t) : t.Counted := by
  obtain ⟨new, hlog, hnew⟩ := hsame.log
  constructor
  · intro id hid
    rw [hlog, (wireBytes_append hnew id).2.1]
    refine h.requested id ?_
    rcases hsame.transfer with hnone | heq
    · rw [hnone] at hid
      cases hid
    · exact heq ▸ hid
  · intro id
    rw [hsame.task TransferTask.sendDone (fun _ => rfl), hlog, (wireBytes_append hnew id).1]
    exact h.sendDone id
  · intro id hzero a ha
    rw [hsame.task TransferTask.sendDone (fun _ => rfl)] at hzero
    rw [hlog] at ha
    rcases List.mem_append.mp ha with ha | ha
    · exact (@wireBytes_append new [] hnew id).2.2 a ha
    · exact h.reports id hzero a ha

/-- What leaves the progress and its counts as they were. -/
theorem Counted.keep (h : s.Counted) (htransfer : t.transfer = s.transfer)
    (hdone : ∀ id, (t.tasks id).sendDone = (s.tasks id).sendDone)
    (howner : owner t.log = owner s.log) (hwire : ∀ id, wireBytes id t.log = wireBytes id s.log)
    (hreports : ∀ id, ∀ a ∈ t.log, a.reports id = true → a ∈ s.log) : t.Counted := by
  constructor
  · intro id hid
    rw [howner]
    exact h.requested id (htransfer ▸ hid)
  · intro id
    rw [hdone, hwire]
    exact h.sendDone id
  · intro id hzero a ha
    by_contra hreport
    rw [Bool.not_eq_false] at hreport
    rw [h.reports id (hdone id ▸ hzero) a (hreports id a ha hreport)] at hreport
    cases hreport

theorem counted_dataMove {e : LaneEvent} (hm : DataMove now e s t) (hd : s.DataWf)
    (h : s.Counted) : t.Counted := by
  cases hm with
  | unmoved hs => exact h.same hs.sameUploads
  | @enqueue task hnew =>
    refine h.keep rfl (fun id => ?_) rfl (fun _ => rfl) fun _ _ ha _ => ha
    rw [tasks_enqueue]
    split
    · rename_i hid
      rw [(newTask_data hnew).2.1, hid, hd.unsent _ le_rfl]
    · rfl
  | @request id retry _ _ =>
    have hdone : ∀ j, ((s.requestTransfer now retry id).tasks j).sendDone = (s.tasks j).sendDone :=
      fun j => requestTransfer_keeps TransferTask.sendDone (fun _ _ _ _ => rfl) ..
    have htransfer : (s.requestTransfer now retry id).transfer = some id :=
      (requested_requestTransfer now retry id s).transfer
    have hlog : owner (s.requestTransfer now retry id).log = some id ∧
        (∀ j, wireBytes j (s.requestTransfer now retry id).log = wireBytes j s.log) ∧
        ∀ j, ∀ a ∈ (s.requestTransfer now retry id).log, a.reports j = true → a ∈ s.log := by
      by_cases hk : (s.tasks id).kind = .upload
      · obtain ⟨mode, heq⟩ := @requestTransfer_upload now _ _ retry hk
        rw [heq]
        by_cases hzero : (s.tasks id).dataLength = 0
        · simp only [hzero, if_true]
          exact ⟨rfl, fun _ => rfl, fun j a =>
            @mem_of_reports j a [_, _] s.log (by simp [Act.reports])⟩
        · simp only [hzero, if_false]
          exact ⟨rfl, fun _ => rfl, fun j a =>
            @mem_of_reports j a [_] s.log (by simp [Act.reports])⟩
      · rw [requestTransfer_download retry hk]
        exact ⟨rfl, fun _ => rfl, fun j a =>
          @mem_of_reports j a [_] s.log (by simp [Act.reports])⟩
    refine ⟨fun j hj => ?_, fun j => ?_, fun j hzero a ha => ?_⟩
    · rw [hlog.1, ← hj, htransfer]
    · rw [hdone, hlog.2.1]
      exact h.sendDone j
    · by_contra hreport
      rw [Bool.not_eq_false] at hreport
      rw [h.reports j (hdone j ▸ hzero) a (hlog.2.2 j a ha hreport)] at hreport
      cases hreport

theorem Counted.receive (h : s.Counted) (env : Env) (e : LaneEvent) : (s.receive env e).Counted := by
  refine h.keep rfl (fun _ => rfl) rfl (fun _ => rfl) fun id a ha hreport => ?_
  rcases List.mem_cons.mp ha with rfl | ha
  · cases hreport
  · exact ha

theorem Counted.announce (h : s.Counted) (now : Time) (id : TaskId) :
    (s.announce now id).Counted := by
  refine h.keep (announce_same now id s).1
    (fun j => announce_keeps TransferTask.sendDone (fun _ _ => rfl) ..) ?_ (fun j => ?_)
    fun j a ha hreport => ?_
  · unfold Lane.announce
    split <;> rfl
  · unfold Lane.announce
    split <;> rfl
  · unfold Lane.announce at ha
    split at ha
    · exact ha
    · rcases List.mem_cons.mp ha with rfl | ha
      · cases hreport
      · exact ha

/-- A chunk sent is counted with eight bytes more than its payload, and reported. -/
theorem Counted.sendNext {transfer : ℕ} {chunk : Bytes} {rest : List (ℕ × Bytes)} (h : s.Counted)
    (htransfer : s.transfer = some id) (now : Time) :
    (s.sendNext now transfer chunk rest).Counted := by
  have hdone := sendNext_sendDone htransfer now transfer chunk rest
  have hother : ∀ j, j ≠ id →
      ((s.sendNext now transfer chunk rest).tasks j).sendDone = (s.tasks j).sendDone := by
    intro j hj
    rw [sendNext_eq htransfer]
    exact congrArg TransferTask.sendDone (Function.update_of_ne hj ..)
  have hlog : (s.sendNext now transfer chunk rest).log =
      .notice (.uploadProgress id (s.tasks id).store (s.tasks id).slot
        ((s.tasks id).sendDone + (8 + chunk.length)) (s.tasks id).sendLength) ::
        .send now (.transferData transfer chunk) :: s.log := by
    rw [sendNext_eq htransfer]
    rfl
  have howner := h.requested id htransfer
  refine ⟨fun j hj => ?_, fun j => ?_, fun j hzero a ha => ?_⟩
  · rw [hlog]
    refine h.requested j ?_
    rw [sendNext_eq htransfer] at hj
    exact hj
  · rw [hlog]
    simp only [wireBytes]
    by_cases hj : j = id
    · subst hj
      rw [if_pos howner, hdone, h.sendDone]
      omega
    · rw [if_neg (fun heq => hj (Option.some.inj (heq.symm.trans howner))), hother j hj]
      exact h.sendDone j
  · have hj : j ≠ id := by
      rintro rfl
      rw [hdone] at hzero
      omega
    rw [hother j hj] at hzero
    rw [hlog] at ha
    rcases List.mem_cons.mp ha with rfl | ha
    · simpa [Act.reports] using Ne.symm hj
    · rcases List.mem_cons.mp ha with rfl | ha
      · rfl
      · exact h.reports j hzero a ha

theorem Counted.spent (h : s.Counted) (hspent : Spent now id s t) : t.Counted := by
  refine hspent.moves.keep (fun u v hm hu => ?_) h
  cases hm with
  | cut _ _ _ _ =>
    exact hu.keep rfl (fun j => cutNext_keeps TransferTask.sendDone (fun _ _ => rfl) ..) rfl
      (fun _ => rfl) fun _ _ ha _ => ha
  | send htransfer _ _ => exact hu.sendNext htransfer now

theorem counted_step {a : Env × LaneEvent} (hwf : s.Wf) (hd : s.DataWf) (hposs : s.Possible a)
    (h : s.Counted) : (s.step a).Counted := by
  have hstep := step_uploads hwf hd hposs
  have hreceive := h.receive a.1 a.2
  generalize s.step a = t at hstep
  obtain ⟨env, e⟩ := a
  have hgrant : ∀ transfer size count,
      ((s.receive env e).grant transfer size count).Counted := fun _ _ _ =>
    ⟨hreceive.requested, hreceive.sendDone, hreceive.reports⟩
  cases hstep with
  | moves _ hmoves =>
    refine (hmoves.keep (P := fun t => t.DataWf ∧ t.Counted) (fun u v hm hu => ?_)
      ⟨⟨hd.queue, hd.made, hd.data, hd.unsent⟩, hreceive⟩).2
    exact ⟨dataWf_dataMove hm hu.1, counted_dataMove hm hu.1 hu.2⟩
  | same _ _ hsame => exact hreceive.same hsame
  | granted _ => exact hgrant ..
  | @continued id transfer size count _ _ => exact (hgrant transfer size count).announce ..
  | @spent id transfer size count _ _ _ hspent =>
    exact ((hgrant transfer size count).announce env.now id).spent hspent
  | flushed _ _ hspent => exact hreceive.spent hspent
  | announced _ _ => exact hreceive.announce ..

theorem counted_reachable (h : Reachable s) : s.Counted := by
  refine Library.Reach.invariant ?_ (fun t a hreach ht ha =>
    counted_step (wf_reachableWhen hreach) (dataWf_reachableWhen hreach) ha.1 ht) h
  rintro t ⟨tid, -, -, rfl⟩
  exact ⟨(fun id hid => nomatch hid), fun _ => rfl, fun _ _ a ha => nomatch ha⟩

/-- Nothing of the task was sent or cut into chunks. -/
def Untouched (s : Lane) (id : TaskId) : Prop :=
  (s.tasks id).sendDone = 0 ∧ (s.tasks id).offset = 0

theorem untouched_dataMove {e : LaneEvent} (hm : DataMove now e s t) (h : s.Untouched id) :
    t.Untouched id := by
  cases hm with
  | unmoved hs =>
    unfold Untouched
    rw [hs.sameUploads.task TransferTask.sendDone (fun _ => rfl),
      hs.sameUploads.task TransferTask.offset (fun _ => rfl)]
    exact h
  | enqueue hnew =>
    obtain ⟨-, hdone, hoffset, -⟩ := newTask_data hnew
    unfold Untouched
    rw [tasks_enqueue]
    split
    · exact ⟨hdone, hoffset⟩
    · exact h
  | @request j retry _ _ =>
    refine ⟨(requestTransfer_keeps TransferTask.sendDone (fun _ _ _ _ => rfl) ..).trans h.1, ?_⟩
    by_cases hk : (s.tasks j).kind = .upload
    · obtain ⟨mode, heq⟩ := @requestTransfer_upload now _ _ retry hk
      rw [heq]
      by_cases hid : id = j
      · simp [hid]
      · simpa [hid] using h.2
    · rw [requestTransfer_download retry hk]
      by_cases hid : id = j
      · subst hid
        simpa using h.2
      · simpa [hid] using h.2

/-- Only an event that spends on the task touches it. -/
theorem untouched_step {a : Env × LaneEvent} (hwf : s.Wf) (hd : s.DataWf) (hposs : s.Possible a)
    (hspends : ∀ r ∈ s.spends a.2, r.1 ≠ id) (h : s.Untouched id) :
    (s.step a).Untouched id := by
  have hstep := step_uploads hwf hd hposs
  have hreceive : (s.receive a.1 a.2).Untouched id := h
  generalize s.step a = t at hstep
  obtain ⟨env, e⟩ := a
  have hannounce : ∀ {u : Lane} j, u.Untouched id → (u.announce env.now j).Untouched id := by
    intro u j hu
    exact ⟨(announce_keeps TransferTask.sendDone (fun _ _ => rfl) ..).trans hu.1,
      (announce_keeps TransferTask.offset (fun _ _ => rfl) ..).trans hu.2⟩
  have hspent : ∀ {u v : Lane} {j}, id ≠ j → u.Untouched id → Spent env.now j u v →
      v.Untouched id := by
    intro u v j hj hu hspent
    unfold Untouched
    rw [hspent.moves.same.2.2 id hj]
    exact hu
  cases hstep with
  | moves _ hmoves => exact hmoves.keep (fun u v hm hu => untouched_dataMove hm hu) hreceive
  | same _ _ hsame =>
    unfold Untouched
    rw [hsame.task TransferTask.sendDone (fun _ => rfl),
      hsame.task TransferTask.offset (fun _ => rfl)]
    exact h
  | granted _ => exact h
  | continued _ _ => exact hannounce _ h
  | @spent j transfer size count _ _ hsome hmoves =>
    have hother : id ≠ j := Ne.symm (hspends (j, transfer) hsome)
    refine hspent hother (hannounce j ?_) hmoves
    exact h
  | @flushed j transfer _ _ hsome hmoves =>
    have hother : id ≠ j := Ne.symm (hspends (j, transfer) hsome)
    exact hspent hother hreceive hmoves
  | announced _ _ => exact hannounce _ h

/-- The progress of a task nothing of which was sent is right. -/
theorem Untouched.right (h : s.Untouched id) (hc : s.Counted) : s.ProgressRight id := by
  have hnone : attemptBytes id s.log = 0 := by
    have hwire := (hc.sendDone id).symm.trans h.1
    rcases attemptBytes_lt id s.log with hzero | hlt
    · exact hzero.2
    · omega
  refine ⟨h.1.trans hnone.symm, by rw [h.1, h.2]; rfl, ?_⟩
  rw [Library.every_iff]
  rintro post a past heq
  have hreport := hc.reports id h.1 a (by rw [heq]; simp)
  unfold ReportRight
  split
  · rename_i task store slot sendDone sendLength
    intro htask
    simp [Act.reports, htask] at hreport
  · trivial

/-- In every run, what is reported of a task is right in all states exactly when no event finds
chunks to send for it. -/
theorem progress_right_iff (hs : Initial s) (as : List (Env × LaneEvent))
    (has : Library.OkAlong step Possible s as) (id : TaskId) :
    (∀ bs, bs <+: as → (Library.run step s bs).ProgressRight id) ↔
      ∀ bs a, bs ++ [a] <+: as → ∀ r ∈ (Library.run step s bs).spends a.2, r.1 ≠ id := by
  have hreach : ∀ bs, bs <+: as → Reachable (Library.run step s bs) := by
    rintro bs ⟨cs, rfl⟩
    have hbs := ((Library.okAlong_append bs cs).mp has).1
    exact Library.Reach.run (.start hs) bs (hbs.mono fun _ _ h => ⟨h, trivial⟩)
  have hnext : ∀ bs a, bs ++ [a] <+: as → bs <+: as ∧ (Library.run step s bs).Possible a ∧
      Library.run step s (bs ++ [a]) = (Library.run step s bs).step a := by
    rintro bs a ⟨cs, rfl⟩
    rw [Library.okAlong_append, Library.okAlong_append] at has
    exact ⟨⟨[a] ++ cs, (List.append_assoc ..).symm⟩, has.1.2.1, List.foldl_append ..⟩
  constructor
  · -- the first chunk makes more than its payload of progress
    rintro hright bs a hprefix ⟨j, transfer⟩ hspends rfl
    obtain ⟨hbs, hposs, heq⟩ := hnext bs a hprefix
    have hb := hreach bs hbs
    have hstep := (step_uploads (wf_reachableWhen hb) (dataWf_reachableWhen hb) hposs).sent hspends
    have hcounted := counted_reachable (hreach _ hprefix)
    have hsent : ((Library.run step s (bs ++ [a])).tasks j).sendDone =
        attemptBytes j (Library.run step s (bs ++ [a])).log := (hright _ hprefix).sent
    rw [← heq] at hstep
    rcases attemptBytes_lt j (Library.run step s (bs ++ [a])).log with hzero | hlt
    · omega
    · have := hcounted.sendDone j
      omega
  · intro hspends bs hprefix
    have huntouched : ∀ bs, bs <+: as → (Library.run step s bs).Untouched id := by
      intro bs
      induction bs using List.reverseRecOn with
      | nil =>
        intro _
        obtain ⟨tid, -, -, rfl⟩ := hs
        exact ⟨rfl, rfl⟩
      | append_singleton bs a ih =>
        intro hprefix
        obtain ⟨hbs, hposs, heq⟩ := hnext bs a hprefix
        have hb := hreach bs hbs
        rw [heq]
        exact untouched_step (wf_reachableWhen hb) (dataWf_reachableWhen hb) hposs
          (hspends bs a hprefix) (ih hbs)
    exact (huntouched bs hprefix).right (counted_reachable (hreach bs hprefix))

/-- An empty upload is announced, has no chunk to send, and is complete. -/
def emptyUpload : List (Env × LaneEvent) :=
  [(⟨0, none⟩, .upload macroStore 0 (macroPayload 0)),
   (⟨1, none⟩, .fileTransferContinueData 43 8 1), (⟨2, none⟩, .fileTransferDataComplete 43)]

theorem progress_right_iff_empty :
    (∀ bs, bs <+: emptyUpload → (Library.run step (fresh 42) bs).ProgressRight 0) ↔
      ∀ bs a, bs ++ [a] <+: emptyUpload →
        ∀ r ∈ (Library.run step (fresh 42) bs).spends a.2, r.1 ≠ 0 :=
  progress_right_iff ⟨42, by decide, by decide, rfl⟩ emptyUpload (by decide) 0

/-- An upload of eight bytes in one chunk: sixteen of eight bytes are reported. -/
theorem header_counted :
    ¬ ∀ s, Reachable s → ∀ id, s.ProgressRight id := by
  intro h
  have hreach : Reachable (Library.run step (fresh 42)
      [(⟨0, none⟩, .upload macroStore 0 (macroPayload 8)),
       (⟨1, none⟩, .fileTransferContinueData 43 8 1)]) :=
    Library.Reach.run (.start ⟨42, by decide, by decide, rfl⟩) _ (by decide)
  exact absurd (h _ hreach 0).sent (by decide)

end Lane

end Bmdwire
