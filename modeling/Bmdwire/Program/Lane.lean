import Bmdwire.Model.Transfer
import Bmdwire.Program.Imaging

/-!
# The operations of the transfer lane

The methods of `AtemProtocol` that the lane's handlers are made of: sending and waking,
the turns left to other clients, the trigger that starts the next transfer, the release
after each frame, and the chunks of an upload. `Bmdwire.Program.LaneEvents` has the
handlers.

`_transfer_trigger` and `_release_then_continue` call each other, once for each clear
task dispatched. The trigger therefore takes fuel, and `transferTrigger` gives it one
more than the number of queued tasks; `transferTrigger_eq` is the recursion without
fuel.
-/

set_option autoImplicit false

namespace Bmdwire

open Library (Dict)

namespace Lane

/-! ## Sending, raising, waking -/

/-- `send_commands([command])`. -/
def send (now : Time) (c : Command) (s : Lane) : Lane :=
  { s with log := .send now c :: s.log }

/-- `_raise(event, ...)`. -/
def raise (n : Notice) (s : Lane) : Lane := { s with log := .notice n :: s.log }

/-- An exception that leaves the handler here. -/
def throw (e : PyError) (s : Lane) : Lane := { s with log := .throw e :: s.log }

/-- `UdpProtocol.wake_at`, by way of `_wake_at`: the earliest of several wins. -/
def wakeAt (due : Time) (s : Lane) : Lane :=
  { s with wakeDue :=
      match s.wakeDue with
      | some earlier => if earlier ≤ due then some earlier else some due
      | none => some due }

/-- `_can_wake`: the transport of every `AtemProtocol` is a `UdpProtocol`, which defines
`wake_at`. -/
def canWake : Bool := true

/-- Change the object of a task in place. -/
def modifyTask (id : TaskId) (f : TransferTask → TransferTask) (s : Lane) : Lane :=
  { s with tasks := Function.update s.tasks id (f (s.tasks id)) }

/-! ## Turns left to other clients -/

/-- `_others_recently`. -/
def othersRecently (now : Time) (s : Lane) : Bool :=
  match s.othersSeen with
  | some seen => now - seen < lockQuiet
  | none => false

/-- `_yield_due`, of the yield stored for `store`. -/
def yieldDue (now : Time) (store : Store) (y : Yield) (s : Lane) : Time :=
  match y.announced with
  | some announced =>
    if (s.ownRelease.get? store).isSome ∧ s.othersRecently now then
      announced + lockCourtesy + lockHandover
    else announced + lockCourtesy
  | none => y.since + lockQuiet

/-- `_end_yield`. -/
def endYield (store : Store) (s : Lane) : Lane :=
  { s with yielding := s.yielding.erase store, ownRelease := s.ownRelease.erase store }

/-- `_someone_at_work`. -/
def someoneAtWork (now : Time) (s : Lane) : Lane :=
  { s with
    othersSeen := some now
    yielding := s.yielding.mapValues fun y =>
      if y.announced.isNone then { y with since := now } else y }

/-- Leave the store free from now on: the yield every release of ours starts. -/
def startYield (now : Time) (store : Store) (s : Lane) : Lane :=
  { s with
    yielding := s.yielding.set store ⟨now, none⟩
    ownRelease := s.ownRelease.set store now }

/-! ## The trigger -/

/-- The task `_transfer_trigger(store)` picks: the head of the preferred queue, else the
head of the first queue that has one. -/
def nextFor (store : Store) (s : Lane) : Option TaskId :=
  match s.queue store with
  | id :: _ => some id
  | [] => s.transferQueue.keys.findSome? fun k => (s.queue k).head?

/-- "All transfers done, clean locks": a release for every lock held, which stays held in
`self.locks`. -/
def cleanLocks (now : Time) (s : Lane) : Lane :=
  s.locks.keys.foldl (fun t lock => if s.held lock then t.send now (.lock lock false) else t) s

/-- The lock request of a clear is for the full store, any other one for a slot. -/
def lockRequestFor (task : TransferTask) : Command :=
  match task.kind with
  | .clear => .lock task.store true
  | _ => .partialLock task.store task.slot

/-- Ask for the lock of the task's store, and note when. -/
def sendLockRequest (now : Time) (task : TransferTask) (s : Lane) : Lane :=
  { s with lockRequested := s.lockRequested.set task.store now }.send now (lockRequestFor task)

/-- Ask for the lock of the task's store, unless a request is already on the wire. -/
def requestLock (now : Time) (task : TransferTask) (s : Lane) : Lane :=
  match s.lockRequested.get? task.store with
  | some asked =>
    if now - asked < lockRerequestSeconds then s else s.sendLockRequest now task
  | none => s.sendLockRequest now task

/-- "Request a lock if needed", for a task whose store is not locked. -/
def askForLock (now : Time) (task : TransferTask) (s : Lane) : Lane :=
  if task.store ∈ s.foreignHeld then s
  else
    match s.yielding.get? task.store with
    | some y =>
      let due := s.yieldDue now task.store y
      if now < due then s.wakeAt due else (s.endYield task.store).requestLock now task
    | none => s.requestLock now task

/-- The request of a download or an upload, with the metadata of an empty upload. -/
def sendRequest (now : Time) (id : TaskId) (s : Lane) : Lane :=
  let task := s.tasks id
  match task.kind with
  | .upload =>
    let mode := if task.store = macroStore then 0x0300 else 1
    let s := s.send now
      (.uploadRequest id (task.tid.getD 0) task.store task.slot task.dataLength mode)
    if task.dataLength = 0 then
      (s.send now (.fileData (task.tid.getD 0) task.hash task.name task.description)).modifyTask id
        fun t => { t with metadataSent := true }
    else s
  | _ => s.send now (.downloadRequest id (task.tid.getD 0) task.store task.slot)

/-- "Assign a transfer id and start the transfer." Only a download starts on an empty
buffer, only an upload on its first byte. -/
def requestTransfer (now : Time) (retry : Bool) (id : TaskId) (s : Lane) : Lane :=
  let transferId := if retry then s.transferId else s.transferId % 0xFFFF + 1
  let upload := (s.tasks id).kind = .upload
  let s := { s with
    transferId := transferId
    transfer := some id
    transferBuffer := if upload then s.transferBuffer else []
    transferBufferBytes := if upload then s.transferBufferBytes else 0
    transferRequested := true
    transferLastData := none }
  let s := s.modifyTask id fun t => { t with
    tid := some transferId
    metadataSent := if upload then false else t.metadataSent
    offset := if upload then 0 else t.offset }
  s.sendRequest now id

/-- Take the task off the head of its queue, if it is there. -/
def popHead (id : TaskId) (s : Lane) : Lane :=
  let store := (s.tasks id).store
  { s with transferQueue :=
      if (s.queue store).head? = some id then s.transferQueue.set store (s.queue store).tail
      else s.transferQueue }

/-- A clear with the lock held: pop it, send the CSTL, say so. -/
def dispatchClear (now : Time) (id : TaskId) (s : Lane) : Lane :=
  let task := s.tasks id
  ((s.popHead id).send now (.clearStill id task.store task.slot)).raise
    (.clearDispatched id task.store task.slot)

/-- Release a store's lock for now, and leave the store its turn. -/
def giveBack (now : Time) (store : Store) (s : Lane) : Lane :=
  let s := { s with locks := s.locks.set store false }.send now (.lock store false)
  if canWake then s.startYield now store else s

/-- `_release_then_continue`, with the trigger it ends in. -/
def releaseThenContinueWith (trigger : Store → Lane → Lane) (now : Time) (store : Store)
    (requestNext : Bool) (s : Lane) : Lane :=
  let s := { s with transfer := none }
  if store ≠ macroStore ∧ s.held store then
    let s := s.giveBack now store
    if requestNext then trigger store s else s
  else trigger store s

/-- `_transfer_trigger` once the drain and the try-again pause are out of the way, with
the trigger a dispatched clear ends in. -/
def startNext (trigger : Store → Lane → Lane) (now : Time) (store : Store) (retry : Bool)
    (s : Lane) : Lane :=
  match s.nextFor store with
  | none => s.cleanLocks now
  | some id =>
    let task := s.tasks id
    if task.store ≠ macroStore ∧ ¬ s.held task.store then s.askForLock now task
    else if s.transferRequested then s
    else if task.kind = .clear then
      releaseThenContinueWith trigger now task.store true (s.dispatchClear now id)
    else s.requestTransfer now retry id

/-- `_transfer_trigger`, at most `fuel` clears deep. -/
def transferTriggerFuel (now : Time) : ℕ → Store → Bool → Lane → Lane
  | 0, _, _, s => s
  | fuel + 1, store, retry, s =>
    let next := startNext (fun store s => transferTriggerFuel now fuel store false s) now store
    if s.draining.isSome then s
    else
      match s.tryAgainDue with
      | some due =>
        if now < due then s.wakeAt due else next true { s with tryAgainDue := none }
      | none => next retry s

/-- `_transfer_trigger`. -/
def transferTrigger (now : Time) (store : Store) (retry : Bool) (s : Lane) : Lane :=
  transferTriggerFuel now (s.queued.length + 1) store retry s

/-- `_release_then_continue`. -/
def releaseThenContinue (now : Time) (store : Store) (requestNext : Bool) (s : Lane) : Lane :=
  releaseThenContinueWith (fun store s => s.transferTrigger now store false) now store
    requestNext s

/-! ## The end of a transfer, of a drain, of a session -/

/-- `_fail_transfer`, of the task in flight. -/
def failTransfer (now : Time) (id : TaskId) (transfer status : ℕ) (s : Lane) : Lane :=
  let s := { s with tryAgainDue := none }.popHead id
  let s := { s with transfer := none, transferBuffer := [], transferBufferBytes := 0 }
  (s.releaseThenContinue now (s.tasks id).store true).raise (.fileTransferError id transfer status)

/-- `_end_drain`. -/
def endDrain (now : Time) (s : Lane) : Lane :=
  match s.draining with
  | some d => { s with draining := none }.releaseThenContinue now d.store true
  | none => s

/-- `_service_drain`. -/
def serviceDrain (now : Time) (s : Lane) : Lane :=
  match s.draining with
  | some d =>
    if now - d.last ≥ drainStall ∨ now - d.since ≥ drainMax then s.endDrain now
    else s.wakeAt (min (d.last + drainStall) (d.since + drainMax))
  | none => s

/-- `_reset_transfer_lane`. -/
def resetTransferLane (s : Lane) : Lane :=
  { s with
    transferQueue := .empty
    transfer := none
    transferRequested := false
    tryAgainDue := none
    draining := none
    transferBuffer := []
    transferBufferBytes := 0
    locks := .empty
    lockRequested := .empty
    yielding := .empty
    ownRelease := .empty
    foreignHeld := []
    lastGrant := .empty }

/-! ## Waking up -/

/-- One store of `_service_yields`. -/
def serviceYield (now : Time) (store : Store) (y : Yield) (s : Lane) : Lane :=
  let due := s.yieldDue now store y
  if s.queue store = [] then
    if now ≥ due then s.endYield store else s
  else if s.transferRequested ∨ s.held store ∨ store ∈ s.foreignHeld then s
  else if now < due then s.wakeAt due
  else s.transferTrigger now store false

/-- The loop of `_service_yields` over the stores listed when it starts. A store whose
yield ended meanwhile is a `KeyError` in `_yield_due`. -/
def serviceYieldList (now : Time) : List Store → Lane → Lane
  | [], s => s
  | store :: rest, s =>
    match s.yielding.get? store with
    | some y => serviceYieldList now rest (s.serviceYield now store y)
    | none => s.throw .keyError

/-- The retry of `_service_yields`, once its pause is over. -/
def serviceTryAgain (now : Time) (s : Lane) : Lane :=
  match s.tryAgainDue, s.transfer with
  | some due, some id =>
    if now ≥ due then { s with tryAgainDue := none }.transferTrigger now (s.tasks id).store true
    else s
  | _, _ => s

/-- `_service_yields`. -/
def serviceYields (now : Time) (s : Lane) : Lane :=
  let s := (s.serviceDrain now).serviceTryAgain now
  s.serviceYieldList now s.yielding.keys

/-! ## The chunks of an upload -/

/-- The chunk cut at `start`, and how far the offset moves: a chunk is cut short before a
run header that would fall in its last two words. -/
def cutChunk (size : ℕ) (data : Bytes) (start : ℕ) : Bytes × ℕ :=
  let chunk := (data.drop start).take size
  -- chunk[-8:] and chunk[-16:-8]
  let last := chunk.drop (chunk.length - 8)
  let beforeLast := (chunk.take (chunk.length - 8)).drop (chunk.length - 16)
  if last = rleHeader then ((data.drop start).take (size - 8), size - 8)
  else if beforeLast = rleHeader then ((data.drop start).take (size - 16), size - 16)
  else (chunk, size)

/-- `queue_packet`: a full queue drops its oldest packet. -/
def queuePacket (transfer : ℕ) (chunk : Bytes) (s : Lane) : Lane :=
  let queue := if s.sendQueue.length = sendQueueMaxlen then s.sendQueue.tail else s.sendQueue
  { s with sendQueue := queue ++ [(transfer, chunk)] }

/-- `queue_callback(remaining, size)`, the size being the packet's payload less four. -/
def queueCallback (size : ℕ) (s : Lane) : Lane :=
  match s.transfer with
  | none => s
  | some id =>
    let s := s.modifyTask id fun t => { t with sendDone := t.sendDone + size }
    let task := s.tasks id
    s.raise (.uploadProgress id task.store task.slot task.sendDone task.sendLength)

/-- `drain_queue`: a chunk's command is a header of eight bytes, its transfer id and size,
and its data. -/
def drainPackets (now : Time) : List (ℕ × Bytes) → Lane → Lane
  | [], s => s
  | (transfer, chunk) :: rest, s =>
    drainPackets now rest
      (({ s with sendQueue := rest }.send now (.transferData transfer chunk)).queueCallback
        (8 + 4 + chunk.length - 4))

/-- `drain_queue`. -/
def drainQueue (now : Time) (s : Lane) : Lane := drainPackets now s.sendQueue s

/-- The loop of `_queue_chunks`, with `count` chunks of the budget left. -/
def cutChunks (id : TaskId) (budgetTransfer size : ℕ) : ℕ → Lane → Lane
  | 0, s => s
  | count + 1, s =>
    let task := s.tasks id
    let data := task.data.getD []
    if data.length ≤ task.offset then s
    else
      let cut := cutChunk size data task.offset
      let s := s.modifyTask id fun t => { t with offset := task.offset + cut.2 }
      let s := { s with transferBudget :=
        if count = 0 then .exhausted else .granted budgetTransfer size count }
      cutChunks id budgetTransfer size count (s.queuePacket (task.tid.getD 0) cut.1)

/-- `_queue_chunks`. -/
def queueChunks (now : Time) (s : Lane) : Lane :=
  match s.transferBudget, s.transfer with
  | .exhausted, _ => s
  | _, none => s
  | budget, some id =>
    if (s.tasks id).kind ≠ .upload then s
    else
      match budget with
      | .granted transfer size count => (s.cutChunks id transfer size count).drainQueue now
      | _ => s.throw .attributeError

/-- `_send_file_metadata`. -/
def sendFileMetadata (now : Time) (id : TaskId) (s : Lane) : Lane :=
  let task := s.tasks id
  (s.send now (.fileData (task.tid.getD 0) task.hash task.name task.description)).modifyTask id
    fun t => { t with metadataSent := true }

end Lane

end Bmdwire
