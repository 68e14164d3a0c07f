import Bmdwire.Interface.LaneMoves

/-!
# What an event does to the data

The lane has one budget, one receive buffer and one send queue for all its tasks. Only three
events move data: FTCD, FTDa and the signal of the flushed queue. Whatever another event does
is made of `DataMove`s: the data is left where it was (`Unmoved`), a task comes, or a transfer
is requested. `Bmdwire.Analysis.DataMoves` proves it, and what the three events do.
-/

set_option autoImplicit false

namespace Bmdwire

/-- A message that grants or carries data, or the signal of the flushed queue. -/
def LaneEvent.movesData : LaneEvent → Bool
  | .fileTransferContinueData _ _ _ => true
  | .fileTransferData _ _ => true
  | .queueFlushed => true
  | _ => false

/-- The entry is about the data of a transfer: its request, what is granted and received, and
what is sent of it. -/
def Act.moving : Act → Bool
  | .recv _ e => e.movesData
  | .send _ (.uploadRequest _ _ _ _ _ _) => true
  | .send _ (.downloadRequest _ _ _ _) => true
  | .send _ (.transferData _ _) => true
  | .send _ (.fileData _ _ _ _) => true
  | .notice (.uploadProgress _ _ _ _ _) => true
  | _ => false

/-- The entry is about an upload: a request, a grant, a chunk, its progress, or metadata. -/
def Act.uploads : Act → Bool
  | .recv _ (.fileTransferContinueData _ _ _) => true
  | .recv _ _ => false
  | a => a.moving

theorem Act.not_uploads {a : Act} (h : a.moving = false) : a.uploads = false := by
  unfold Act.uploads
  split
  · cases h
  · rfl
  · exact h

/-- The id an FTUA carries. -/
def Act.ack? : Act → Option ℕ
  | .send _ (.transferAck transfer _) => some transfer
  | _ => none

/-- A task but for the count of its refusals. -/
def TransferTask.untried (t : TransferTask) : TransferTask := { t with tryAgain := 0 }

namespace Lane

/-- The data is left where it was. The transfer in flight may be given up, its buffer with it;
as long as it is not, nothing is acknowledged. -/
structure Unmoved (s t : Lane) : Prop where
  transferBudget : t.transferBudget = s.transferBudget
  sendQueue : t.sendQueue = s.sendQueue
  nextTask : t.nextTask = s.nextTask
  tasks : ∀ id, (t.tasks id).untried = (s.tasks id).untried
  transfer : t.transfer = none ∨ t.transfer = s.transfer ∧ t.transferBuffer = s.transferBuffer
  log : ∃ new, t.log = new ++ s.log ∧ ∀ a ∈ new, a.moving = false ∧
    (t.transfer ≠ none → a.ack? = none)

/-- Nothing is done about uploads. -/
structure SameUploads (s t : Lane) : Prop where
  transferBudget : t.transferBudget = s.transferBudget
  sendQueue : t.sendQueue = s.sendQueue
  nextTask : t.nextTask = s.nextTask
  tasks : ∀ id, (t.tasks id).untried = (s.tasks id).untried
  transfer : t.transfer = none ∨ t.transfer = s.transfer
  log : ∃ new, t.log = new ++ s.log ∧ ∀ a ∈ new, a.uploads = false

/-- What an event that moves no data does to it. -/
inductive DataMove (now : Time) (e : LaneEvent) : Lane → Lane → Prop
  | unmoved {s t : Lane} : s.Unmoved t → DataMove now e s t
  | enqueue (s : Lane) {task : TransferTask} : newTask e = some task →
      DataMove now e s (s.enqueue task)
  | request {s : Lane} {id : TaskId} (retry : Bool) : id < s.nextTask →
      (s.tasks id).kind ≠ .clear → DataMove now e s (s.requestTransfer now retry id)

/-- Any number of moves. -/
def DataMoves (now : Time) (e : LaneEvent) : Lane → Lane → Prop :=
  Relation.ReflTransGen (DataMove now e)

/-- What every move keeps, any number of moves keeps. -/
theorem DataMoves.keep {now : Time} {e : LaneEvent} {P : Lane → Prop}
    (hP : ∀ s t, DataMove now e s t → P s → P t) {s t : Lane} (h : DataMoves now e s t)
    (hs : P s) : P t := by
  induction h with
  | refl => exact hs
  | tail _ hm ih => exact hP _ _ hm ih

/-! ## The chunks of the upload in flight -/

/-- The task whose data the event cuts into chunks, and the id under which they were granted. -/
def spends (s : Lane) (e : LaneEvent) : Option (TaskId × ℕ) :=
  match s.transfer with
  | none => none
  | some id =>
    if (s.tasks id).kind ≠ .upload ∨ ((s.tasks id).data.getD []).length ≤ (s.tasks id).offset then
      none
    else
      match e, s.transferBudget with
      | .fileTransferContinueData transfer _ count, _ =>
        if count = 0 then none else some (id, transfer)
      | .queueFlushed, .granted transfer _ count =>
        if count = 0 then none else some (id, transfer)
      | _, _ => none

/-- FTCD: the budget that it grants. -/
def grant (transfer size count : ℕ) (s : Lane) : Lane :=
  { s with transferBudget := .granted transfer (size / 8 * 8) count }

/-- The metadata of the upload in flight, unless it has been sent. -/
def announce (now : Time) (id : TaskId) (s : Lane) : Lane :=
  if (s.tasks id).metadataSent then s else s.sendFileMetadata now id

/-- One turn of the loop of `_queue_chunks`. -/
def cutNext (id : TaskId) (transfer size count : ℕ) (s : Lane) : Lane :=
  let task := s.tasks id
  let cut := cutChunk size (task.data.getD []) task.offset
  let s := s.modifyTask id fun t => { t with offset := task.offset + cut.2 }
  { s with transferBudget :=
      if count = 0 then .exhausted else .granted transfer size count }.queuePacket
    (task.tid.getD 0) cut.1

/-- One turn of the loop of `drain_queue`. -/
def sendNext (now : Time) (transfer : ℕ) (chunk : Bytes) (rest : List (ℕ × Bytes)) (s : Lane) :
    Lane :=
  ({ s with sendQueue := rest }.send now (.transferData transfer chunk)).queueCallback
    (8 + 4 + chunk.length - 4)

/-- A chunk of the upload in flight is cut, or sent. -/
inductive ChunkMove (now : Time) (id : TaskId) : Lane → Lane → Prop
  | cut {s : Lane} {transfer size count : ℕ} : s.transfer = some id →
      (s.tasks id).kind = .upload → s.transferBudget = .granted transfer size (count + 1) →
      (s.tasks id).offset < ((s.tasks id).data.getD []).length →
      ChunkMove now id s (s.cutNext id transfer size count)
  | send {s : Lane} {transfer : ℕ} {chunk : Bytes} {rest : List (ℕ × Bytes)} :
      s.transfer = some id → (s.tasks id).kind = .upload →
      s.sendQueue = (transfer, chunk) :: rest →
      ChunkMove now id s (s.sendNext now transfer chunk rest)

/-- Any number of chunks. -/
def ChunkMoves (now : Time) (id : TaskId) : Lane → Lane → Prop :=
  Relation.ReflTransGen (ChunkMove now id)

/-- What every chunk keeps, any number of chunks keeps. -/
theorem ChunkMoves.keep {now : Time} {id : TaskId} {P : Lane → Prop}
    (hP : ∀ s t, ChunkMove now id s t → P s → P t) {s t : Lane} (h : ChunkMoves now id s t)
    (hs : P s) : P t := by
  induction h with
  | refl => exact hs
  | tail _ hm ih => exact hP _ _ hm ih

/-- An upload is in flight. -/
def Uploading (s : Lane) (id : TaskId) : Prop :=
  s.transfer = some id ∧ (s.tasks id).kind = .upload

/-- Chunks are cut and sent, some of them at least, until none is queued. -/
structure Spent (now : Time) (id : TaskId) (s t : Lane) : Prop where
  moves : ChunkMoves now id s t
  queue : t.sendQueue = []
  sent : (s.tasks id).sendDone < (t.tasks id).sendDone

/-- What the lane does about uploads when it handles an event. -/
inductive UploadStep (now : Time) (s : Lane) : LaneEvent → Lane → Prop
  | moves {e : LaneEvent} {t : Lane} : e.movesData = false → DataMoves now e s t →
      UploadStep now s e t
  | same {e : LaneEvent} {t : Lane} : (∀ transfer size count,
      e ≠ .fileTransferContinueData transfer size count) → s.spends e = none →
      s.SameUploads t → UploadStep now s e t
  | granted {transfer size count : ℕ} : (∀ id, ¬ s.Uploading id) →
      UploadStep now s (.fileTransferContinueData transfer size count)
        (s.grant transfer size count)
  | continued {id : TaskId} {transfer size count : ℕ} : s.Uploading id →
      s.spends (.fileTransferContinueData transfer size count) = none →
      UploadStep now s (.fileTransferContinueData transfer size count)
        ((s.grant transfer size count).announce now id)
  | spent {id : TaskId} {transfer size count : ℕ} {t : Lane} : s.Uploading id →
      s.spends (.fileTransferContinueData transfer size count) = some (id, transfer) →
      Spent now id ((s.grant transfer size count).announce now id) t →
      UploadStep now s (.fileTransferContinueData transfer size count) t
  | flushed {id : TaskId} {transfer : ℕ} {t : Lane} : s.Uploading id →
      s.spends .queueFlushed = some (id, transfer) → Spent now id s t →
      UploadStep now s .queueFlushed t
  | announced {id : TaskId} : s.Uploading id →
      ((s.tasks id).data.getD []).length ≤ (s.tasks id).offset →
      UploadStep now s .queueFlushed (s.announce now id)

section Unmoved

variable {s t u : Lane}

theorem Unmoved.sameUploads (h : s.Unmoved t) : s.SameUploads t where
  transferBudget := h.transferBudget
  sendQueue := h.sendQueue
  nextTask := h.nextTask
  tasks := h.tasks
  transfer := h.transfer.imp_right And.left
  log := by
    obtain ⟨new, hlog, hnew⟩ := h.log
    exact ⟨new, hlog, fun a ha => Act.not_uploads (hnew a ha).1⟩

theorem SameUploads.task (h : s.SameUploads t) {β : Type} (f : TransferTask → β)
    (hf : ∀ task : TransferTask, f task.untried = f task) (id : TaskId) :
    f (t.tasks id) = f (s.tasks id) := by
  rw [← hf (t.tasks id), h.tasks id, hf]

theorem Unmoved.trans (h : s.Unmoved t) (h' : t.Unmoved u) : s.Unmoved u where
  transferBudget := h'.transferBudget.trans h.transferBudget
  sendQueue := h'.sendQueue.trans h.sendQueue
  nextTask := h'.nextTask.trans h.nextTask
  tasks id := (h'.tasks id).trans (h.tasks id)
  transfer := by
    rcases h'.transfer with hnone | ⟨htransfer, hbuffer⟩
    · exact .inl hnone
    · rcases h.transfer with hnone | ⟨htransfer', hbuffer'⟩
      · exact .inl (htransfer.trans hnone)
      · exact .inr ⟨htransfer.trans htransfer', hbuffer.trans hbuffer'⟩
  log := by
    obtain ⟨new, hlog, hnew⟩ := h.log
    obtain ⟨new', hlog', hnew'⟩ := h'.log
    refine ⟨new' ++ new, by rw [hlog', hlog, List.append_assoc], fun a ha => ?_⟩
    rcases List.mem_append.mp ha with ha | ha
    · exact hnew' a ha
    · refine ⟨(hnew a ha).1, fun hsome => (hnew a ha).2 ?_⟩
      rcases h'.transfer with hnone | ⟨htransfer, -⟩
      · exact absurd hnone hsome
      · rwa [← htransfer]

end Unmoved

end Lane

end Bmdwire
