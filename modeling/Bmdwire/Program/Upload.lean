import Bmdwire.Program.LaneEvents
import Bmdwire.Program.MediaConvert

/-!
# The chunks of one upload

The upload in flight with its budget, and the transport's send queue that its chunks go
through: FTCD and `_queue_flushed` cut chunks and queue them, `queue_trigger` and
`drain_queue` send them. The chunk is the payload of its `FTDa`, as `Lane.cutChunk` cuts it.
`Bmdwire.Interface.UploadShown` ties these steps to those of the lane.

`upload` itself is the lane's event; `uploadPayload` is what it puts on the task before.
-/

set_option autoImplicit false

namespace Bmdwire

/-- What `upload` puts on a fresh task, or `none` when `rle_encode` or `rle_decode` raises. The
hash and `data_length` are those of the uncompressed data. -/
def uploadPayload (md5 : Bytes → Bytes) (compress compressed : Bool) (data : ByteString)
    (name description : Option Bytes) : Option UploadPayload :=
  (if compressed then rleDecode data.data else some data.data).bind fun uncompressed =>
    (if compress then (rleEncode data).toOption else some data.data).map fun sent =>
      { data := sent, dataLength := uncompressed.length, hash := md5 uncompressed,
        name := name, description := description }

/-- The upload in flight and the send queue, with all that was handed to `queue_packet` and to
`_send_packet`, oldest first. -/
structure Upload where
  data : Bytes
  offset : ℕ
  budget : TransferBudget
  sendQueue : List Bytes
  queueEnabled : Bool
  queued : List Bytes
  sent : List Bytes
deriving DecidableEq, Repr

/-- What happens to an upload. -/
inductive UploadEvent
  /-- FTCD -/
  | continueData (transfer size count : ℕ)
  | queueFlushed
  | queueTrigger (aggressive : Bool) (batchSize : ℕ)
  | drainQueue
deriving DecidableEq, Repr

namespace Upload

/-- `queue_packet`: a full queue drops its oldest packet. -/
def queuePacket (chunk : Bytes) (u : Upload) : Upload :=
  let queue := if u.sendQueue.length = sendQueueMaxlen then u.sendQueue.tail else u.sendQueue
  { u with
    sendQueue := queue ++ [chunk]
    queued := u.queued ++ [chunk] }

/-- So many packets of the queue sent. -/
def sendFirst (n : ℕ) (u : Upload) : Upload :=
  { u with
    queueEnabled := true
    sent := u.sent ++ u.sendQueue.take n
    sendQueue := u.sendQueue.drop n }

/-- `queue_trigger`, and whether the queue has just run empty. -/
def queueTrigger (aggressive : Bool) (batchSize : ℕ) (u : Upload) : Bool × Upload :=
  if u.sendQueue ≠ [] then
    (false, u.sendFirst (if aggressive then u.sendQueue.length else batchSize))
  else if u.queueEnabled then (true, { u with queueEnabled := false })
  else (false, u)

/-- `drain_queue`. -/
def drainQueue (u : Upload) : Upload :=
  if u.sendQueue = [] then u else u.sendFirst u.sendQueue.length

/-- The loop of `_queue_chunks`, with `count` chunks of the budget left. -/
def cutChunks (transfer size : ℕ) : ℕ → Upload → Upload
  | 0, u => u
  | count + 1, u =>
    if u.data.length ≤ u.offset then u
    else
      let cut := Lane.cutChunk size u.data u.offset
      let budget := if count = 0 then .exhausted else .granted transfer size count
      cutChunks transfer size count
        ({ u with offset := u.offset + cut.2, budget := budget }.queuePacket cut.1)

/-- `_queue_chunks`. A budget that was never granted has no size: an `AttributeError`. -/
def queueChunks (u : Upload) : Upload :=
  match u.budget with
  | .initial | .exhausted => u
  | .granted transfer size count => (u.cutChunks transfer size count).drainQueue

/-- One event. -/
def step (u : Upload) : UploadEvent → Upload
  | .continueData transfer size count =>
    queueChunks { u with budget := .granted transfer (size / 8 * 8) count }
  | .queueFlushed => if u.offset < u.data.length then u.queueChunks else u
  | .queueTrigger aggressive batchSize => (u.queueTrigger aggressive batchSize).2
  | .drainQueue => u.drainQueue

/-- An upload before its first chunk. The budget may be left from the upload before. -/
def start (data : Bytes) (budget : TransferBudget) (queueEnabled : Bool) : Upload where
  data := data
  offset := 0
  budget := budget
  sendQueue := []
  queueEnabled := queueEnabled
  queued := []
  sent := []

/-- The uploads of the data that the runs from a budget lead to, when every step meets `ok`. -/
def ReachableWhen (data : Bytes) (budget : TransferBudget) (ok : Upload → UploadEvent → Prop) :
    Upload → Prop :=
  Library.Reach (fun u => ∃ enabled, u = start data budget enabled) step ok

end Upload

end Bmdwire
