import Bmdwire.Analysis.DataMoves

/-!
# The steps of an upload

FTCD and the flush signal announce the upload in flight and spend the budget on its chunks;
`step_uploads` says what every step does about uploads. Between events no chunk waits in the
send queue, and only uploads have data (`DataWf`).
-/

set_option autoImplicit false

namespace Bmdwire

namespace Lane

variable {now : Time} {s t : Lane}

/-! ## Chunks -/

section Chunks

variable {id : TaskId}

/-- A cut moves the offset of the task, and changes nothing else about tasks. -/
theorem cutNext_keeps {β : Type} (g : TransferTask → β) (hg : ∀ t n, g { t with offset := n } = g t)
    (transfer size count : ℕ) (j : TaskId) :
    g ((s.cutNext id transfer size count).tasks j) = g (s.tasks j) :=
  modifyTask_keeps g (f := fun t => { t with
    offset := (s.tasks id).offset +
      (cutChunk size ((s.tasks id).data.getD []) (s.tasks id).offset).2 }) (fun t => hg t _) id j s

theorem cutChunks_succ (transfer size count : ℕ) :
    s.cutChunks id transfer size (count + 1) =
      if ((s.tasks id).data.getD []).length ≤ (s.tasks id).offset then s
      else (s.cutNext id transfer size count).cutChunks id transfer size count := rfl

/-- The loop of `_queue_chunks` cuts chunk after chunk. -/
theorem cutChunks_moves (htransfer : s.transfer = some id) (hkind : (s.tasks id).kind = .upload)
    (transfer size count : ℕ) (hbudget : s.transferBudget = .granted transfer size count) :
    ChunkMoves now id s (s.cutChunks id transfer size count) := by
  induction count generalizing s with
  | zero => exact .refl
  | succ count ih =>
    rw [cutChunks_succ]
    split
    · exact .refl
    · rename_i hleft
      have hcut : ChunkMove now id s (s.cutNext id transfer size count) :=
        .cut htransfer hkind hbudget (not_le.mp hleft)
      refine Relation.ReflTransGen.head hcut ?_
      cases count with
      | zero => exact .refl
      | succ count =>
        apply ih
        · exact htransfer
        · exact (cutNext_keeps TransferTask.kind (fun _ _ => rfl) ..).trans hkind
        · rfl

theorem sendNext_eq (htransfer : s.transfer = some id) (now : Time) (transfer : ℕ) (chunk : Bytes)
    (rest : List (ℕ × Bytes)) :
    s.sendNext now transfer chunk rest =
      (({ s with sendQueue := rest }.send now (.transferData transfer chunk)).modifyTask id
        fun t => { t with sendDone := t.sendDone + (8 + chunk.length) }).raise
          (.uploadProgress id (s.tasks id).store (s.tasks id).slot
            ((s.tasks id).sendDone + (8 + chunk.length)) (s.tasks id).sendLength) := by
  have hsize : 8 + 4 + chunk.length - 4 = 8 + chunk.length := by omega
  have hsame : ({ s with sendQueue := rest }.send now (.transferData transfer chunk)).transfer =
      some id := htransfer
  unfold sendNext queueCallback
  rw [hsame, hsize]
  simp only [modifyTask_self]
  rfl

/-- A chunk sent adds to the progress of the task, and changes nothing else about tasks. -/
theorem sendNext_keeps (htransfer : s.transfer = some id) {β : Type} (g : TransferTask → β)
    (hg : ∀ t n, g { t with sendDone := n } = g t) (transfer : ℕ) (chunk : Bytes)
    (rest : List (ℕ × Bytes)) (j : TaskId) :
    g ((s.sendNext now transfer chunk rest).tasks j) = g (s.tasks j) := by
  rw [sendNext_eq htransfer]
  exact modifyTask_keeps g (f := fun t => { t with sendDone := t.sendDone + (8 + chunk.length) })
    (fun t => hg t _) id j s

theorem sendNext_sendDone (htransfer : s.transfer = some id) (now : Time) (transfer : ℕ)
    (chunk : Bytes) (rest : List (ℕ × Bytes)) :
    ((s.sendNext now transfer chunk rest).tasks id).sendDone =
      (s.tasks id).sendDone + (8 + chunk.length) := by
  rw [sendNext_eq htransfer]
  simp only [raise, modifyTask, send, Function.update_self]

/-- `drain_queue` sends chunk after chunk. -/
theorem drainPackets_moves (htransfer : s.transfer = some id)
    (hkind : (s.tasks id).kind = .upload) {packets : List (ℕ × Bytes)}
    (hqueue : s.sendQueue = packets) :
    ChunkMoves now id s (drainPackets now packets s) ∧
      (drainPackets now packets s).sendQueue = [] := by
  induction packets generalizing s with
  | nil => exact ⟨.refl, hqueue⟩
  | cons packet rest ih =>
    have hsend : ChunkMove now id s (s.sendNext now packet.1 packet.2 rest) :=
      .send htransfer hkind hqueue
    have heq := sendNext_eq htransfer now packet.1 packet.2 rest
    have hrest := @ih (s.sendNext now packet.1 packet.2 rest) (by rw [heq]; exact htransfer)
      ((sendNext_keeps htransfer TransferTask.kind (fun _ _ => rfl) ..).trans hkind)
      (by rw [heq]; rfl)
    exact ⟨.head hsend hrest.1, hrest.2⟩

theorem ChunkMoves.transfer (h : ChunkMoves now id s t) (hs : s.transfer = some id) :
    t.transfer = some id := by
  refine h.keep (P := fun t => t.transfer = some id) (fun u v hm hu => ?_) hs
  cases hm with
  | cut => exact hu
  | send htransfer _ _ =>
    rw [sendNext_eq htransfer]
    exact hu

/-- Chunks change no more of a task than its offset and its progress. -/
theorem ChunkMoves.keeps (h : ChunkMoves now id s t) {β : Type} (g : TransferTask → β)
    (hoffset : ∀ t n, g { t with offset := n } = g t)
    (hdone : ∀ t n, g { t with sendDone := n } = g t) (j : TaskId) :
    g (t.tasks j) = g (s.tasks j) := by
  refine h.keep (P := fun t => g (t.tasks j) = g (s.tasks j)) (fun u v hm hu => ?_) rfl
  cases hm with
  | cut => exact (cutNext_keeps g hoffset ..).trans hu
  | send htransfer _ _ => exact (sendNext_keeps htransfer g hdone ..).trans hu

/-- Chunks touch neither the buffer nor any other task. -/
theorem ChunkMoves.same (h : ChunkMoves now id s t) :
    t.nextTask = s.nextTask ∧ t.transferBuffer = s.transferBuffer ∧
      ∀ j, j ≠ id → t.tasks j = s.tasks j := by
  refine h.keep (P := fun t => t.nextTask = s.nextTask ∧ t.transferBuffer = s.transferBuffer ∧
    ∀ j, j ≠ id → t.tasks j = s.tasks j) (fun u v hm hu => ?_) ⟨rfl, rfl, fun _ _ => rfl⟩
  cases hm with
  | cut =>
    refine ⟨hu.1, hu.2.1, fun j hj => (Function.update_of_ne hj ..).trans (hu.2.2 j hj)⟩
  | send htransfer _ _ =>
    rw [sendNext_eq htransfer]
    exact ⟨hu.1, hu.2.1, fun j hj => (Function.update_of_ne hj ..).trans (hu.2.2 j hj)⟩

/-- The loop of `_queue_chunks` moves the offset of the task, and changes nothing else about
tasks. -/
theorem cutChunks_keeps {β : Type} (g : TransferTask → β)
    (hg : ∀ t n, g { t with offset := n } = g t) (transfer size count : ℕ) (j : TaskId) :
    g ((s.cutChunks id transfer size count).tasks j) = g (s.tasks j) := by
  induction count generalizing s with
  | zero => rfl
  | succ count ih =>
    rw [cutChunks_succ]
    split
    · rfl
    · exact ih.trans (cutNext_keeps g hg ..)

/-- A packet that is queued leaves the queue not empty. -/
theorem cutChunks_queue {transfer size count : ℕ} (h : s.sendQueue ≠ []) :
    (s.cutChunks id transfer size count).sendQueue ≠ [] := by
  induction count generalizing s with
  | zero => exact h
  | succ count ih =>
    rw [cutChunks_succ]
    split
    · exact h
    · apply ih
      simp [cutNext, queuePacket]

/-- `drain_queue` adds the size of every packet to the progress. -/
theorem drainPackets_sendDone (htransfer : s.transfer = some id) (packets : List (ℕ × Bytes)) :
    ((drainPackets now packets s).tasks id).sendDone =
      (s.tasks id).sendDone + (packets.map fun packet => 8 + packet.2.length).sum := by
  induction packets generalizing s with
  | nil => rfl
  | cons packet rest ih =>
    have heq := sendNext_eq htransfer now packet.1 packet.2 rest
    have hrest := @ih (s.sendNext now packet.1 packet.2 rest) (by rw [heq]; exact htransfer)
    rw [List.map_cons, List.sum_cons, ← Nat.add_assoc, ← sendNext_sendDone htransfer now]
    exact hrest

/-- `_queue_chunks` with a budget and data left: chunks are cut, and sent until the queue is
empty. -/
theorem queueChunks_spent (h : s.Uploading id) {transfer size count : ℕ}
    (hbudget : s.transferBudget = .granted transfer size (count + 1))
    (hleft : (s.tasks id).offset < ((s.tasks id).data.getD []).length) :
    Spent now id s (s.queueChunks now) := by
  obtain ⟨htransfer, hkind⟩ := h
  have hcut := @cutChunks_moves now s id htransfer hkind transfer size (count + 1) hbudget
  have heq : s.queueChunks now = (s.cutChunks id transfer size (count + 1)).drainQueue now := by
    unfold queueChunks
    rw [hbudget, htransfer]
    exact if_neg (not_not.mpr hkind)
  have hkind' := (hcut.keeps TransferTask.kind (fun _ _ => rfl) (fun _ _ => rfl) id).trans hkind
  have hdrain := @drainPackets_moves now _ id (hcut.transfer htransfer) hkind' _ rfl
  rw [heq]
  refine ⟨hcut.trans hdrain.1, hdrain.2, ?_⟩
  have hqueue : (s.cutChunks id transfer size (count + 1)).sendQueue ≠ [] := by
    rw [cutChunks_succ, if_neg (not_le.mpr hleft)]
    apply cutChunks_queue
    simp [cutNext, queuePacket]
  have hsame : ((s.cutChunks id transfer size (count + 1)).tasks id).sendDone =
      (s.tasks id).sendDone := cutChunks_keeps TransferTask.sendDone (fun _ _ => rfl) ..
  unfold drainQueue
  rw [drainPackets_sendDone (hcut.transfer htransfer), hsame]
  obtain ⟨packet, rest, hcons⟩ := List.exists_cons_of_ne_nil hqueue
  rw [hcons, List.map_cons, List.sum_cons]
  omega

/-- `_queue_chunks` with no chunks granted, or no data left. -/
theorem queueChunks_granted (h : s.Uploading id) (hqueue : s.sendQueue = [])
    {transfer size count : ℕ} (hbudget : s.transferBudget = .granted transfer size count)
    (hnothing : count = 0 ∨ ((s.tasks id).data.getD []).length ≤ (s.tasks id).offset)
    (now : Time) : s.queueChunks now = s := by
  have hcut : s.cutChunks id transfer size count = s := by
    cases count with
    | zero => rfl
    | succ count =>
      rw [cutChunks_succ]
      exact if_pos (hnothing.resolve_left (by omega))
  unfold queueChunks
  rw [hbudget, h.1]
  dsimp only
  rw [hcut, drainQueue, hqueue]
  exact ite_self s

/-- The metadata touches neither the budget nor the queue. -/
theorem announce_same (now : Time) (id : TaskId) (s : Lane) :
    (s.announce now id).transfer = s.transfer ∧
      (s.announce now id).transferBudget = s.transferBudget ∧
      (s.announce now id).sendQueue = s.sendQueue ∧
      (s.announce now id).nextTask = s.nextTask := by
  unfold announce
  split
  · exact ⟨rfl, rfl, rfl, rfl⟩
  · exact ⟨rfl, rfl, rfl, rfl⟩

/-- The metadata changes no more of a task than its flag. -/
theorem announce_keeps {β : Type} (g : TransferTask → β)
    (hg : ∀ t b, g { t with metadataSent := b } = g t) (now : Time) (id j : TaskId) (s : Lane) :
    g ((s.announce now id).tasks j) = g (s.tasks j) := by
  unfold announce
  split
  · rfl
  · exact modifyTask_keeps g (f := fun t => { t with metadataSent := true }) (fun t => hg t _) id j
      _

end Chunks

/-! ## FTCD and the flush signal -/

section Handlers

variable {id : TaskId}

/-- `_queue_chunks` with no upload in flight. -/
theorem queueChunks_other (h : ∀ id, ¬ s.Uploading id) (now : Time) : s.queueChunks now = s := by
  unfold queueChunks
  cases htransfer : s.transfer with
  | none => cases s.transferBudget <;> rfl
  | some id =>
    have hkind : (s.tasks id).kind ≠ .upload := fun hkind => h id ⟨htransfer, hkind⟩
    cases s.transferBudget with
    | exhausted => rfl
    | initial => exact if_pos hkind
    | granted transfer size count => exact if_pos hkind

theorem fileTransferContinueData_eq (now : Time) (transfer size count : ℕ) (s : Lane) :
    s.fileTransferContinueData now transfer size count =
      (match s.transfer with
      | some id =>
        if (s.tasks id).kind = TransferKind.upload ∧ ¬ (s.tasks id).metadataSent then
          (s.grant transfer size count).sendFileMetadata now id
        else s.grant transfer size count
      | none => s.grant transfer size count).queueChunks now := rfl

/-- FTCD with no upload in flight leaves its grant behind. -/
theorem fileTransferContinueData_other (h : ∀ id, ¬ s.Uploading id) (now : Time)
    (transfer size count : ℕ) :
    s.fileTransferContinueData now transfer size count = s.grant transfer size count := by
  have hgranted : ∀ id, ¬ (s.grant transfer size count).Uploading id := h
  rw [fileTransferContinueData_eq]
  cases htransfer : s.transfer with
  | none => exact queueChunks_other hgranted now
  | some id =>
    dsimp only
    rw [if_neg fun hboth => h id ⟨htransfer, hboth.1⟩]
    exact queueChunks_other hgranted now

/-- FTCD for an upload in flight: its metadata if it is due, then the chunks. -/
theorem fileTransferContinueData_upload (h : s.Uploading id) (now : Time)
    (transfer size count : ℕ) :
    s.fileTransferContinueData now transfer size count =
      ((s.grant transfer size count).announce now id).queueChunks now := by
  have hsent : ((s.grant transfer size count).tasks id).metadataSent =
    (s.tasks id).metadataSent := rfl
  rw [fileTransferContinueData_eq, h.1, announce, hsent]
  cases hm : (s.tasks id).metadataSent with
  | true => simp [hm]
  | false => simp [hm, h.2]

/-- The flush signal with no upload in flight. -/
theorem queueFlushed_other (h : ∀ id, ¬ s.Uploading id)
    (hdata : ∀ id, (s.tasks id).kind ≠ .upload → (s.tasks id).data = none) (now : Time) :
    s.queueFlushed now = s ∨ s.queueFlushed now = s.throw .typeError := by
  unfold queueFlushed
  cases htransfer : s.transfer with
  | none => exact .inl rfl
  | some id =>
    dsimp only
    rw [hdata id fun hkind => h id ⟨htransfer, hkind⟩]
    exact .inr rfl

/-- The flush signal for an upload in flight: more chunks, or else its metadata if it is due. -/
theorem queueFlushed_upload (h : s.Uploading id) {data : Bytes}
    (hdata : (s.tasks id).data = some data) (now : Time) :
    s.queueFlushed now =
      if (s.tasks id).offset < data.length then s.queueChunks now else s.announce now id := by
  unfold queueFlushed announce
  rw [h.1]
  dsimp only
  rw [hdata]
  cases (s.tasks id).metadataSent with
  | true => simp
  | false => simp

/-- FTDa is no matter of uploads. -/
theorem sameUploads_fileTransferData (env : Env) (transfer : ℕ) (data : Bytes) (s : Lane) :
    s.SameUploads (s.fileTransferData env transfer data) := by
  have hack : ∀ {t : Lane} (now : Time) (tid : ℕ), s.SameUploads t →
      s.SameUploads (t.send now (.transferAck tid 0)) := by
    intro t now tid h
    obtain ⟨new, hlog, hnew⟩ := h.log
    refine ⟨h.1, h.2, h.3, h.4, h.5, .send now (.transferAck tid 0) :: new,
      congrArg _ hlog, fun a ha => ?_⟩
    rcases List.mem_cons.mp ha with rfl | ha
    · rfl
    · exact hnew a ha
  have hflight : s.SameUploads (s.dataInFlight env transfer data) := by
    unfold dataInFlight
    split
    · exact (Unmoved.refl s).sameUploads
    · split
      · apply hack
        unfold downloadProgress
        dsimp only
        split
        · split
          · exact ⟨rfl, rfl, rfl, fun _ => rfl, .inr rfl, [_], rfl, fun a ha => by
              rw [List.mem_singleton.mp ha]; rfl⟩
          · exact ⟨rfl, rfl, rfl, fun _ => rfl, .inr rfl, [], rfl, by simp⟩
        · exact ⟨rfl, rfl, rfl, fun _ => rfl, .inr rfl, [], rfl, by simp⟩
      · exact (Unmoved.refl s).sameUploads
  unfold fileTransferData
  split
  · split
    · exact hack _ _ ⟨rfl, rfl, rfl, fun _ => rfl, .inr rfl, [], rfl, by simp⟩
    · exact hflight
  · exact hflight

end Handlers

/-! ## The invariant of the data -/

/-- Between events no chunk waits; the task in flight was created, only uploads have data, and a
task to come has sent none. -/
structure DataWf (s : Lane) : Prop where
  queue : s.sendQueue = []
  made : ∀ id, s.transfer = some id → id < s.nextTask
  data : ∀ id, (s.tasks id).data.isSome = true ↔ (s.tasks id).kind = .upload
  unsent : ∀ id, s.nextTask ≤ id → (s.tasks id).sendDone = 0

theorem DataWf.same (hd : s.DataWf) (h : s.SameUploads t) : t.DataWf where
  queue := h.sendQueue.trans hd.queue
  made id hid := by
    rcases h.transfer with hnone | htransfer
    · rw [hnone] at hid
      cases hid
    · rw [h.nextTask]
      exact hd.made id (htransfer ▸ hid)
  data id := by
    rw [h.task TransferTask.data (fun _ => rfl), h.task TransferTask.kind (fun _ => rfl)]
    exact hd.data id
  unsent id hid := by
    rw [h.task TransferTask.sendDone (fun _ => rfl)]
    exact hd.unsent id (h.nextTask ▸ hid)

theorem newTask_data {e : LaneEvent} {task : TransferTask} (h : newTask e = some task) :
    (task.data.isSome = true ↔ task.kind = .upload) ∧ task.sendDone = 0 ∧ task.offset = 0 ∧
      task.metadataSent = false := by
  cases e with
  | download | upload | queueClear =>
    cases h
    simp
  | _ => cases h

/-- A request keeps what it keeps of a task. -/
theorem requestTransfer_keeps {β : Type} (g : TransferTask → β)
    (hg : ∀ (t : TransferTask) tid sent offset,
      g { t with tid := tid, metadataSent := sent, offset := offset } = g t)
    (retry : Bool) (id j : TaskId) :
    g ((s.requestTransfer now retry id).tasks j) = g (s.tasks j) := by
  by_cases hk : (s.tasks id).kind = .upload
  · obtain ⟨mode, heq⟩ := @requestTransfer_upload now _ _ retry hk
    rw [heq]
    by_cases hj : j = id
    · subst hj
      simpa using hg (s.tasks j) _ _ _
    · simp [hj]
  · rw [requestTransfer_download retry hk]
    by_cases hj : j = id
    · subst hj
      simpa using hg (s.tasks j) _ (s.tasks j).metadataSent (s.tasks j).offset
    · simp [hj]

theorem spends_continueData {id : TaskId} (h : s.Uploading id) (transfer size count : ℕ) :
    s.spends (.fileTransferContinueData transfer size count) =
      if ((s.tasks id).data.getD []).length ≤ (s.tasks id).offset ∨ count = 0 then none
      else some (id, transfer) := by
  unfold spends
  rw [h.1]
  dsimp only
  by_cases hle : ((s.tasks id).data.getD []).length ≤ (s.tasks id).offset
  · rw [if_pos (.inr hle), if_pos (.inl hle)]
  · rw [if_neg (by simp [h.2, hle])]
    by_cases hzero : count = 0
    · rw [if_pos hzero, if_pos (.inr hzero)]
    · rw [if_neg hzero, if_neg (by simp [hle, hzero])]

theorem spends_queueFlushed_eq {id : TaskId} (h : s.Uploading id)
    (hlt : (s.tasks id).offset < ((s.tasks id).data.getD []).length) :
    s.spends .queueFlushed =
      match s.transferBudget with
      | .granted transfer _ count => if count = 0 then none else some (id, transfer)
      | _ => none := by
  unfold spends
  rw [h.1]
  dsimp only
  rw [if_neg (by simp [h.2, hlt])]
  cases s.transferBudget <;> rfl

/-- Nothing is spent with no upload in flight. -/
theorem spends_other (h : ∀ id, ¬ s.Uploading id) (e : LaneEvent) : s.spends e = none := by
  unfold spends
  cases htransfer : s.transfer with
  | none => rfl
  | some id => exact if_pos (.inl fun hkind => h id ⟨htransfer, hkind⟩)

/-- Nothing is spent when all the data is queued. -/
theorem spends_whole {id : TaskId} (h : s.transfer = some id)
    (hle : ((s.tasks id).data.getD []).length ≤ (s.tasks id).offset) (e : LaneEvent) :
    s.spends e = none := by
  unfold spends
  rw [h]
  exact if_pos (.inr hle)

/-- Only an FTCD and a flush signal spend. -/
theorem spends_unmoved {e : LaneEvent} (h : ∀ transfer size count,
    e ≠ .fileTransferContinueData transfer size count) (hflush : e ≠ .queueFlushed) :
    s.spends e = none := by
  unfold spends
  split
  · rfl
  · split
    · rfl
    · cases e with
      | fileTransferContinueData transfer size count => exact absurd rfl (h transfer size count)
      | queueFlushed => exact absurd rfl hflush
      | _ => rfl

/-- An event that spends adds to the progress of the upload. -/
theorem UploadStep.sent {e : LaneEvent} {id : TaskId} {transfer : ℕ} (h : UploadStep now s e t)
    (hspends : s.spends e = some (id, transfer)) :
    (s.tasks id).sendDone < (t.tasks id).sendDone := by
  cases h with
  | moves hdata _ =>
    rw [spends_unmoved (fun _ _ _ he => by rw [he] at hdata; cases hdata)
      (fun he => by rw [he] at hdata; cases hdata)] at hspends
    cases hspends
  | same _ hnone _ =>
    rw [hnone] at hspends
    cases hspends
  | granted hnone =>
    rw [spends_other hnone] at hspends
    cases hspends
  | continued _ hnone =>
    rw [hnone] at hspends
    cases hspends
  | @spent j x size count _ _ hsome hspent =>
    rw [hsome] at hspends
    cases hspends
    have hsent := hspent.sent
    rw [announce_keeps TransferTask.sendDone (fun _ _ => rfl)] at hsent
    exact hsent
  | flushed _ hsome hspent =>
    rw [hsome] at hspends
    cases hspends
    exact hspent.sent
  | announced hid hle =>
    rw [spends_whole hid.1 hle] at hspends
    cases hspends

/-- What a flush signal spends is of the budget. -/
theorem spends_flushed {id : TaskId} {transfer x size count : ℕ}
    (h : s.spends .queueFlushed = some (id, transfer))
    (hbudget : s.transferBudget = .granted x size count) : transfer = x := by
  unfold spends at h
  rw [hbudget] at h
  split at h
  · cases h
  · split at h
    · cases h
    · dsimp only at h
      split at h
      · cases h
      · cases h
        rfl

/-- FTCD for the upload in flight. -/
theorem uploadStep_continueData {id : TaskId} (h : s.Uploading id) (hqueue : s.sendQueue = [])
    {transfer size count : ℕ} :
    UploadStep now s (.fileTransferContinueData transfer size count)
      (((s.grant transfer size count).announce now id).queueChunks now) := by
  have hsame := announce_same now id (s.grant transfer size count)
  have huploading : ((s.grant transfer size count).announce now id).Uploading id :=
    ⟨hsame.1.trans h.1, (announce_keeps TransferTask.kind (fun _ _ => rfl) ..).trans h.2⟩
  have hoffset : (((s.grant transfer size count).announce now id).tasks id).offset =
      (s.tasks id).offset := announce_keeps TransferTask.offset (fun _ _ => rfl) ..
  have hdata : (((s.grant transfer size count).announce now id).tasks id).data =
      (s.tasks id).data := announce_keeps TransferTask.data (fun _ _ => rfl) ..
  have hspends := spends_continueData h transfer size count
  by_cases hnothing : ((s.tasks id).data.getD []).length ≤ (s.tasks id).offset ∨ count = 0
  · rw [if_pos hnothing] at hspends
    have hleave : ((s.grant transfer size count).announce now id).queueChunks now =
        (s.grant transfer size count).announce now id := by
      refine queueChunks_granted huploading (hsame.2.2.1.trans hqueue) (hsame.2.1.trans rfl) ?_ now
      rwa [hdata, hoffset, Or.comm]
    rw [hleave]
    exact .continued h hspends
  · rw [if_neg hnothing] at hspends
    rw [not_or, not_le] at hnothing
    obtain ⟨count, rfl⟩ := Nat.exists_eq_succ_of_ne_zero hnothing.2
    refine .spent h hspends (queueChunks_spent huploading (hsame.2.1.trans rfl) ?_)
    rw [hdata, hoffset]
    exact hnothing.1

/-- The flush signal while the upload in flight has data left. -/
theorem uploadStep_flushed {id : TaskId} (h : s.Uploading id) (hqueue : s.sendQueue = [])
    (hlt : (s.tasks id).offset < ((s.tasks id).data.getD []).length) :
    UploadStep now s .queueFlushed (s.queueChunks now) := by
  have hsame : s.queueChunks now = s → s.spends .queueFlushed = none →
      UploadStep now s .queueFlushed (s.queueChunks now) := by
    intro heq hnone
    rw [heq]
    exact .same (fun _ _ _ => by simp) hnone (Unmoved.refl s).sameUploads
  have hspends := spends_queueFlushed_eq h hlt
  cases hbudget : s.transferBudget with
  | initial =>
    rw [hbudget] at hspends
    have hthrow : s.queueChunks now = s.throw .attributeError := by
      unfold queueChunks
      rw [h.1, hbudget]
      exact if_neg (not_not.mpr h.2)
    rw [hthrow]
    exact .same (fun _ _ _ => by simp) hspends ⟨rfl, rfl, rfl, fun _ => rfl, .inr rfl,
      [.throw .attributeError], rfl, fun a ha => by rw [List.mem_singleton.mp ha]; rfl⟩
  | exhausted =>
    rw [hbudget] at hspends
    refine hsame ?_ hspends
    unfold queueChunks
    rw [hbudget]
  | granted transfer size count =>
    rw [hbudget] at hspends
    cases count with
    | zero => exact hsame (queueChunks_granted h hqueue hbudget (.inl rfl) now) hspends
    | succ count => exact .flushed h hspends (queueChunks_spent h hbudget hlt)

/-- Every step is one of uploads, or leaves them alone. -/
theorem step_uploads (hwf : s.Wf) (hd : s.DataWf) {a : Env × LaneEvent} (hposs : s.Possible a) :
    UploadStep a.1.now (s.receive a.1 a.2) a.2 (s.step a) := by
  obtain ⟨env, e⟩ := a
  cases e with
  | fileTransferContinueData transfer size count =>
    show UploadStep env.now _ _ (fileTransferContinueData env.now transfer size count _)
    by_cases h : ∃ id, (s.receive env (.fileTransferContinueData transfer size count)).Uploading id
    · obtain ⟨id, hid⟩ := h
      rw [fileTransferContinueData_upload hid]
      exact uploadStep_continueData hid hd.queue
    · rw [not_exists] at h
      rw [fileTransferContinueData_other h]
      exact .granted h
  | fileTransferData transfer data =>
    exact .same (fun _ _ _ => by simp) (spends_unmoved (fun _ _ _ => by simp) (by simp))
      (sameUploads_fileTransferData env transfer data _)
  | queueFlushed =>
    show UploadStep env.now _ _ (queueFlushed env.now _)
    by_cases h : ∃ id, (s.receive env .queueFlushed).Uploading id
    · obtain ⟨id, hid⟩ := h
      obtain ⟨data, hdata⟩ := Option.isSome_iff_exists.mp ((hd.data id).mpr hid.2)
      have hgetD : ((s.receive env .queueFlushed).tasks id).data.getD [] = data := by
        show (s.tasks id).data.getD [] = data
        rw [hdata, Option.getD_some]
      rw [queueFlushed_upload hid hdata]
      split
      · rename_i hlt
        exact uploadStep_flushed hid hd.queue (hgetD ▸ hlt)
      · rename_i hle
        exact .announced hid (hgetD ▸ not_lt.mp hle)
    · rw [not_exists] at h
      have hnone : ∀ id, (s.tasks id).kind ≠ .upload → (s.tasks id).data = none := by
        intro id hkind
        by_contra hsome
        exact hkind ((hd.data id).mp (Option.ne_none_iff_isSome.mp hsome))
      rcases queueFlushed_other h hnone env.now with heq | heq
      · rw [heq]
        exact .same (fun _ _ _ => by simp) (spends_other h _) (Unmoved.refl _).sameUploads
      · rw [heq]
        exact .same (fun _ _ _ => by simp) (spends_other h _)
          ⟨rfl, rfl, rfl, fun _ => rfl, .inr rfl, [.throw .typeError], rfl,
            fun a ha => by rw [List.mem_singleton.mp ha]; rfl⟩
  | _ => exact .moves rfl (step_dataMoves hwf hposs rfl)

theorem dataWf_dataMove {e : LaneEvent} {u : Lane} (h : DataMove now e s u) (hd : s.DataWf) :
    u.DataWf := by
  cases h with
  | unmoved hs => exact hd.same hs.sameUploads
  | @enqueue task hnew =>
    obtain ⟨hdata, hdone, -⟩ := newTask_data hnew
    refine ⟨hd.queue, fun id hid => Nat.lt_succ_of_lt (hd.made id hid), fun id => ?_,
      fun id hid => ?_⟩
    · rw [tasks_enqueue]
      split
      · exact hdata
      · exact hd.data id
    · rw [tasks_enqueue]
      split
      · exact hdone
      · exact hd.unsent id (Nat.le_of_succ_le hid)
  | @request id retry hid _ =>
    have hrequested := requested_requestTransfer now retry id s
    refine ⟨?_, fun j hj => ?_, fun j => ?_, fun j hj => ?_⟩
    · by_cases hk : (s.tasks id).kind = .upload
      · obtain ⟨mode, heq⟩ := @requestTransfer_upload now _ _ retry hk
        rw [heq]
        exact hd.queue
      · rw [requestTransfer_download retry hk]
        exact hd.queue
    · rw [hrequested.transfer] at hj
      rw [hrequested.nextTask]
      exact Option.some.inj hj ▸ hid
    · rw [requestTransfer_keeps TransferTask.data (fun _ _ _ _ => rfl),
        requestTransfer_keeps TransferTask.kind (fun _ _ _ _ => rfl)]
      exact hd.data j
    · rw [requestTransfer_keeps TransferTask.sendDone (fun _ _ _ _ => rfl)]
      exact hd.unsent j (hrequested.nextTask ▸ hj)

/-- Chunks touch neither the data nor the tasks to come. -/
theorem DataWf.spent {u : Lane} {id : TaskId} (hd : s.DataWf) (hid : s.transfer = some id)
    (h : Spent now id s u) : u.DataWf := by
  obtain ⟨hnext, -, hother⟩ := h.moves.same
  refine ⟨h.queue, fun j hj => ?_, fun j => ?_, fun j hj => ?_⟩
  · rw [h.moves.transfer hid] at hj
    rw [hnext]
    exact hd.made j (hid.trans hj)
  · rw [h.moves.keeps TransferTask.data (fun _ _ => rfl) (fun _ _ => rfl),
      h.moves.keeps TransferTask.kind (fun _ _ => rfl) (fun _ _ => rfl)]
    exact hd.data j
  · rw [hnext] at hj
    rw [hother j ((hd.made id hid).trans_le hj).ne']
    exact hd.unsent j hj

theorem DataWf.announced (hd : s.DataWf) (now : Time) (id : TaskId) :
    (s.announce now id).DataWf := by
  obtain ⟨htransfer, -, hqueue, hnext⟩ := announce_same now id s
  refine ⟨hqueue.trans hd.queue, fun j hj => ?_, fun j => ?_, fun j hj => ?_⟩
  · rw [hnext]
    exact hd.made j (htransfer ▸ hj)
  · rw [announce_keeps TransferTask.data (fun _ _ => rfl),
      announce_keeps TransferTask.kind (fun _ _ => rfl)]
    exact hd.data j
  · rw [announce_keeps TransferTask.sendDone (fun _ _ => rfl)]
    exact hd.unsent j (hnext ▸ hj)

/-- Every step keeps the invariant of the data. -/
theorem dataWf_step (hwf : s.Wf) (hd : s.DataWf) {a : Env × LaneEvent} (hposs : s.Possible a) :
    (s.step a).DataWf := by
  have hreceive : (s.receive a.1 a.2).DataWf := ⟨hd.queue, hd.made, hd.data, hd.unsent⟩
  have hstep := step_uploads hwf hd hposs
  generalize s.step a = t at hstep
  obtain ⟨env, e⟩ := a
  have hgranted : ∀ transfer size count, ((s.receive env e).grant transfer size count).DataWf :=
    fun _ _ _ => ⟨hd.queue, hd.made, hd.data, hd.unsent⟩
  cases hstep with
  | moves _ hmoves => exact hmoves.keep (fun u v hm hu => dataWf_dataMove hm hu) hreceive
  | same _ _ hsame => exact hreceive.same hsame
  | granted _ => exact ⟨hd.queue, hd.made, hd.data, hd.unsent⟩
  | @continued id transfer size count _ _ => exact (hgranted transfer size count).announced ..
  | @spent id transfer size count _ hid _ hspent =>
    exact ((hgranted transfer size count).announced env.now id).spent
      ((announce_same ..).1.trans hid.1) hspent
  | flushed hid _ hspent => exact hreceive.spent hid.1 hspent
  | announced _ _ => exact hreceive.announced ..

theorem dataWf_reachableWhen {ok : Lane → Env × LaneEvent → Prop} (h : ReachableWhen ok s) :
    s.DataWf := by
  refine Library.Reach.invariant ?_ (fun t a hreach ht ha =>
    dataWf_step (wf_reachableWhen hreach) ht ha.1) h
  rintro t ⟨tid, -, -, rfl⟩
  exact ⟨rfl, fun id hid => by simp [fresh] at hid, fun id => by simp [fresh], fun id _ => rfl⟩

/-! ## A flush signal that comes late -/

/-- The payload of a macro of so many bytes. -/
def macroPayload (length : ℕ) : UploadPayload where
  data := List.replicate length 1
  dataLength := length
  hash := []
  name := none
  description := none

/-- An upload that leaves most of its grant, then another one, and the flush signal of the
first, which comes late. -/
def lateFlush : List (Env × LaneEvent) :=
  [(⟨0, none⟩, .upload macroStore 0 (macroPayload 8)),
   (⟨1, none⟩, .fileTransferContinueData 43 8 5),
   (⟨2, none⟩, .fileTransferDataComplete 43),
   (⟨3, none⟩, .upload macroStore 1 (macroPayload 24)), (⟨4, none⟩, .queueFlushed)]

end Lane

end Bmdwire
