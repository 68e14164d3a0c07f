import Bmdwire.Program.Upload

/-!
# An upload within the lane

What the lane does to the upload in flight, to its budget and to the send queue is what
`Upload` does (`shows_continueData`, `shows_queueFlushed`); besides, it keeps the task's other
fields and reports the progress.
-/

set_option autoImplicit false

namespace Bmdwire

/-- The payload of an `FTDa`. -/
def Act.chunk? : Act → Option Bytes
  | .send _ (.transferData _ chunk) => some chunk
  | _ => none

/-- The payloads sent, oldest first. -/
def sentChunks (log : List Act) : List Bytes := (log.filterMap Act.chunk?).reverse

/-- The lane's transfer in flight is this upload. -/
structure Shows (s : Lane) (id : TaskId) (u : Upload) : Prop where
  transfer : s.transfer = some id
  kind : (s.tasks id).kind = .upload
  data : (s.tasks id).data = some u.data
  offset : (s.tasks id).offset = u.offset
  budget : s.transferBudget = u.budget
  queue : s.sendQueue.map Prod.snd = u.sendQueue
  sent : sentChunks s.log = u.sent

variable {s : Lane} {id : TaskId} {u : Upload}

theorem shows_queuePacket (h : Shows s id u) (transfer : ℕ) (chunk : Bytes) :
    Shows (s.queuePacket transfer chunk) id (u.queuePacket chunk) := by
  have hlen : s.sendQueue.length = u.sendQueue.length := by
    rw [← h.queue, List.length_map]
  constructor
  · exact h.transfer
  · exact h.kind
  · exact h.data
  · exact h.offset
  · exact h.budget
  · unfold Lane.queuePacket Upload.queuePacket
    dsimp only
    rw [hlen, List.map_append, ← h.queue]
    split
    · rw [List.map_tail]
      rfl
    · rfl
  · exact h.sent

/-- The loop of `_queue_chunks`. -/
theorem shows_cutChunks (transfer size count : ℕ) (h : Shows s id u) :
    Shows (s.cutChunks id transfer size count) id (u.cutChunks transfer size count) := by
  induction count generalizing s u with
  | zero => exact h
  | succ count ih =>
    unfold Lane.cutChunks Upload.cutChunks
    dsimp only
    rw [h.data, h.offset, Option.getD_some]
    split
    · exact h
    · apply ih
      apply shows_queuePacket
      constructor
      · exact h.transfer
      · simp only [Lane.modifyTask, Function.update_self]
        exact h.kind
      · simp only [Lane.modifyTask, Function.update_self]
        exact h.data
      · simp only [Lane.modifyTask, Function.update_self]
      · rfl
      · exact h.queue
      · exact h.sent

/-- What an upload shows does not depend on the flag of the queue, nor on the payloads queued. -/
theorem Shows.congr {v : Upload} (h : Shows s id u) (hdata : v.data = u.data)
    (hoffset : v.offset = u.offset) (hbudget : v.budget = u.budget)
    (hqueue : v.sendQueue = u.sendQueue) (hsent : v.sent = u.sent) : Shows s id v where
  transfer := h.transfer
  kind := h.kind
  data := hdata ▸ h.data
  offset := hoffset ▸ h.offset
  budget := hbudget ▸ h.budget
  queue := hqueue ▸ h.queue
  sent := hsent ▸ h.sent

theorem sentChunks_cons (a : Act) (log : List Act) :
    sentChunks (a :: log) = sentChunks log ++ a.chunk?.toList := by
  unfold sentChunks
  rw [List.filterMap_cons]
  cases a.chunk? with
  | none => simp
  | some chunk => simp

/-- The packet at the front of the queue sent, and its progress reported. -/
theorem shows_sendFront (now : Time) {transfer : ℕ} {chunk : Bytes} {rest : List (ℕ × Bytes)}
    (h : Shows s id u) (hqueue : s.sendQueue = (transfer, chunk) :: rest) (size : ℕ) :
    Shows (({ s with sendQueue := rest }.send now (.transferData transfer chunk)).queueCallback
      size) id (u.sendFirst 1) := by
  have hfront : u.sendQueue = chunk :: rest.map Prod.snd := by
    rw [← h.queue, hqueue]
    rfl
  have htransfer : ({ s with sendQueue := rest }.send now (.transferData transfer chunk)).transfer =
      some id := h.transfer
  unfold Lane.queueCallback
  rw [htransfer]
  dsimp only
  constructor
  · exact h.transfer
  · simp only [Lane.raise, Lane.modifyTask, Function.update_self]
    exact h.kind
  · simp only [Lane.raise, Lane.modifyTask, Function.update_self]
    exact h.data
  · simp only [Lane.raise, Lane.modifyTask, Function.update_self]
    exact h.offset
  · exact h.budget
  · show rest.map Prod.snd = u.sendQueue.drop 1
    rw [hfront]
    rfl
  · show sentChunks (_ :: _ :: s.log) = u.sent ++ u.sendQueue.take 1
    rw [sentChunks_cons, sentChunks_cons, h.sent, hfront]
    simp [Act.chunk?]

theorem sendFirst_sendFirst (u : Upload) (n : ℕ) :
    (u.sendFirst 1).sendFirst n = u.sendFirst (n + 1) := by
  unfold Upload.sendFirst
  simp only [List.append_assoc, List.drop_drop, Nat.add_comm 1 n]
  rw [Nat.add_comm n 1, List.take_add]

theorem shows_drainPackets (now : Time) (packets : List (ℕ × Bytes)) (h : Shows s id u)
    (hqueue : s.sendQueue = packets) :
    Shows (Lane.drainPackets now packets s) id (u.sendFirst packets.length) := by
  induction packets generalizing s u with
  | nil =>
    exact h.congr rfl rfl rfl (List.drop_zero ..) (by simp [Upload.sendFirst])
  | cons packet packets ih =>
    unfold Lane.drainPackets
    have htransfer : ({ s with sendQueue := packets }.send now
        (.transferData packet.1 packet.2)).transfer = some id := h.transfer
    have hleft : (({ s with sendQueue := packets }.send now
        (.transferData packet.1 packet.2)).queueCallback (8 + 4 + packet.2.length - 4)).sendQueue =
          packets := by
      unfold Lane.queueCallback
      rw [htransfer]
      rfl
    have hrest := ih (shows_sendFront now h hqueue (8 + 4 + packet.2.length - 4)) hleft
    rw [sendFirst_sendFirst] at hrest
    exact hrest

theorem shows_drainQueue (now : Time) (h : Shows s id u) :
    Shows (s.drainQueue now) id u.drainQueue := by
  have hlen : s.sendQueue.length = u.sendQueue.length := by
    rw [← h.queue, List.length_map]
  have hdrained := shows_drainPackets now s.sendQueue h rfl
  unfold Lane.drainQueue Upload.drainQueue
  split
  · rename_i hnil
    have hnone : s.sendQueue = [] := by
      rw [← List.length_eq_zero_iff, hlen, hnil]
      rfl
    rw [hnone]
    exact h
  · rw [← hlen]
    exact hdrained

theorem shows_queueChunks (now : Time) (h : Shows s id u) :
    Shows (s.queueChunks now) id u.queueChunks := by
  have hkind := h.kind
  unfold Lane.queueChunks Upload.queueChunks
  rw [h.transfer, h.budget]
  cases hbudget : u.budget with
  | initial =>
    dsimp only
    rw [if_neg (not_not.mpr hkind)]
    refine ⟨h.transfer, h.kind, h.data, h.offset, h.budget, h.queue, ?_⟩
    rw [Lane.throw, sentChunks_cons, h.sent]
    simp [Act.chunk?]
  | exhausted => exact h
  | granted transfer size count =>
    dsimp only
    rw [if_neg (not_not.mpr hkind)]
    exact shows_drainQueue now (shows_cutChunks transfer size count h)

theorem shows_sendFileMetadata (now : Time) (h : Shows s id u) :
    Shows (s.sendFileMetadata now id) id u := by
  unfold Lane.sendFileMetadata
  constructor
  · exact h.transfer
  · simp only [Lane.modifyTask, Function.update_self]
    exact h.kind
  · simp only [Lane.modifyTask, Function.update_self]
    exact h.data
  · simp only [Lane.modifyTask, Function.update_self]
    exact h.offset
  · exact h.budget
  · exact h.queue
  · show sentChunks (_ :: s.log) = u.sent
    rw [sentChunks_cons, h.sent]
    simp [Act.chunk?]

/-- FTCD is a grant to the upload. -/
theorem shows_continueData (now : Time) (transfer size count : ℕ) (h : Shows s id u) :
    Shows (s.fileTransferContinueData now transfer size count) id
      (u.step (.continueData transfer size count)) := by
  have hgranted : Shows
      { s with transfer := some id, transferBudget := .granted transfer (size / 8 * 8) count } id
      { u with budget := .granted transfer (size / 8 * 8) count } :=
    ⟨rfl, h.kind, h.data, h.offset, rfl, h.queue, h.sent⟩
  have hstep : u.step (.continueData transfer size count) =
      Upload.queueChunks { u with budget := .granted transfer (size / 8 * 8) count } := rfl
  unfold Lane.fileTransferContinueData
  dsimp only
  rw [h.transfer, hstep]
  apply shows_queueChunks
  dsimp only
  split
  · exact shows_sendFileMetadata now hgranted
  · exact hgranted

/-- `_queue_flushed` of the lane is that of the upload. -/
theorem shows_queueFlushed (now : Time) (h : Shows s id u) :
    Shows (s.queueFlushed now) id (u.step .queueFlushed) := by
  unfold Lane.queueFlushed Upload.step
  simp only [h.transfer, h.data, h.offset]
  split
  · exact shows_queueChunks now h
  · split
    · exact shows_sendFileMetadata now h
    · exact h

end Bmdwire
