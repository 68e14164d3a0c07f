import Bmdwire.Program.Lane

/-!
# The handlers of the transfer lane

One definition for each branch of `save_field_data`, each call and each signal that
touches the lane, and `Lane.step`, which logs an event and handles it. A step is one
event handled to its end; the clock is read once.
-/

set_option autoImplicit false

namespace Bmdwire

namespace Lane

/-! ## The lock messages -/

/-- LKOB. -/
def lockObtained (now : Time) (store : Store) (s : Lane) : Lane :=
  { s with
    locks := s.locks.set store true
    lastGrant := s.lastGrant.set store now
    lockRequested := s.lockRequested.erase store }.transferTrigger now store false

/-- A lock taken so soon after a grant of ours is that grant, announced late. -/
def grantedJustNow (now : Time) (store : Store) (s : Lane) : Bool :=
  match s.lastGrant.get? store with
  | some granted => ¬ now - granted > lockEchoWindow
  | none => false

/-- LKST, lock taken. -/
def lockTaken (now : Time) (store : Store) (s : Lane) : Lane :=
  if s.held store then s
  else
    { s with
      foreignHeld := s.foreignHeld.insert store
      othersSeen := if s.grantedJustNow now store then s.othersSeen else some now
      yielding :=
        if (s.yielding.get? store).isSome then s.yielding.set store ⟨now, none⟩ else s.yielding
      ownRelease :=
        if (s.yielding.get? store).isSome then s.ownRelease.erase store else s.ownRelease }

/-- A store announced free this long after our release was not announced for it. -/
def releasedLongAgo (now : Time) (store : Store) (s : Lane) : Bool :=
  match s.ownRelease.get? store with
  | some released => now - released > lockEchoWindow
  | none => false

/-- The yield of a store announced free: a fresh one, or the one it has, announced now. -/
def announceFree (now : Time) (store : Store) (s : Lane) : Lane :=
  match s.yielding.get? store with
  | none =>
    if canWake then
      { s with
        yielding := s.yielding.set store ⟨now, some now⟩
        ownRelease := s.ownRelease.erase store }
    else s
  | some y =>
    if y.announced.isNone then
      { s with
        yielding := s.yielding.set store { y with announced := some now }
        ownRelease :=
          if s.releasedLongAgo now store then s.ownRelease.erase store else s.ownRelease }
    else s

/-- LKST, lock free. -/
def lockFreed (now : Time) (store : Store) (s : Lane) : Lane :=
  if s.held store then s
  else
    let s := { s with foreignHeld := s.foreignHeld.filter (· ≠ store) }
    let s := s.announceFree now store
    let s :=
      if (s.yielding.get? store).isSome ∧ s.queue store ≠ [] then s.wakeAt (now + lockCourtesy)
      else s
    let s := { s with lockRequested := s.lockRequested.erase store }
    if s.queue store ≠ [] ∧ ¬ s.transferRequested ∧ ¬ s.held store then
      s.transferTrigger now store false
    else s

/-- LKST. -/
def lockState (now : Time) (store : Store) (state : Bool) (s : Lane) : Lane :=
  if state then s.lockTaken now store else s.lockFreed now store

/-! ## The transfer messages -/

/-- FTCD. -/
def fileTransferContinueData (now : Time) (transfer size count : ℕ) (s : Lane) : Lane :=
  let s := { s with transferBudget := .granted transfer (size / 8 * 8) count }
  let s :=
    match s.transfer with
    | some id =>
      if (s.tasks id).kind = TransferKind.upload ∧ ¬ (s.tasks id).metadataSent then s.sendFileMetadata now id
      else s
    | none => s
  s.queueChunks now

/-- The progress of a still download, every twentieth chunk. -/
def downloadProgress (pixels : Option ℕ) (id : TaskId) (s : Lane) : Lane :=
  let task := s.tasks id
  match pixels with
  | some pixels =>
    if s.transferPackets % 20 = 0 ∧ pixels ≠ 0 ∧ task.store ≠ macroStore then
      s.raise (.transferProgress id task.store task.slot s.transferBufferBytes (pixels * 4))
    else s
  | none => s

/-- FTDa, unless it is of the download being drained. -/
def dataInFlight (env : Env) (transfer : ℕ) (data : Bytes) (s : Lane) : Lane :=
  match s.transfer with
  | none => s
  | some id =>
    if (s.tasks id).tid = some transfer then
      let s := { s with
        transferLastData := some env.now
        transferPackets := s.transferPackets + 1
        transferBuffer := s.transferBuffer ++ [data]
        transferBufferBytes := s.transferBufferBytes + data.length }
      (s.downloadProgress env.pixels id).send env.now (.transferAck transfer 0)
    else s

/-- FTDa. -/
def fileTransferData (env : Env) (transfer : ℕ) (data : Bytes) (s : Lane) : Lane :=
  match s.draining with
  | some d =>
    if transfer = d.tid then
      { s with draining := some { d with last := env.now } }.send env.now (.transferAck d.tid 0)
    else s.dataInFlight env transfer data
  | none => s.dataInFlight env transfer data

/-- The pause before try number `n` is asked again. -/
def tryAgainPause (n : ℕ) : Time := min tryAgainMax (tryAgainFirst * 2 ^ (n - 1))

/-- FTDE 1, try again. -/
def tryAgain (now : Time) (id : TaskId) (transfer : ℕ) (s : Lane) : Lane :=
  let s := s.modifyTask id fun t => { t with tryAgain := t.tryAgain + 1 }
  let tries := (s.tasks id).tryAgain
  if tries > tryAgainAttempts then s.failTransfer now id transfer 1
  else if canWake then
    { s with tryAgainDue := some (now + tryAgainPause tries) }.wakeAt (now + tryAgainPause tries)
  else s.transferTrigger now (s.tasks id).store true

/-- FTDE for the task in flight. -/
def transferRefused (now : Time) (id : TaskId) (transfer status : ℕ) (s : Lane) : Lane :=
  let s := { s with transferRequested := false }
  let store := (s.tasks id).store
  if status = 1 then s.tryAgain now id transfer
  else if status = 5 then
    { s with locks := s.locks.set store false }.transferTrigger now store true
  else if status = 6 then
    { s with
      lockRequested := s.lockRequested.erase store
      othersSeen := some now }.releaseThenContinue now store false
  else s.failTransfer now id transfer status

/-- FTDE, unless it is of the download being drained. -/
def errorInFlight (now : Time) (transfer status : ℕ) (s : Lane) : Lane :=
  match s.transfer with
  | none => s
  | some id =>
    if (s.tasks id).tid = some transfer then s.transferRefused now id transfer status else s

/-- FTDE. -/
def fileTransferError (now : Time) (transfer status : ℕ) (s : Lane) : Lane :=
  match s.draining with
  | some d => if transfer = d.tid then s.endDrain now else s.errorInFlight now transfer status
  | none => s.errorInFlight now transfer status

/-- What a finished task is told: an upload that it is done, a download its data, RLE
decoded for the still store. -/
def completionNotice (id : TaskId) (task : TransferTask) (raw : Bytes) : Notice :=
  if task.kind = .upload then .uploadDone id task.store task.slot
  else
    match if task.store = 0 then rleDecode raw else some raw with
    | some data => .downloadDone id task.store task.slot data
    | none => .completionHandlingFailed id

/-- FTDC for the task in flight. -/
def transferComplete (now : Time) (id : TaskId) (s : Lane) : Lane :=
  let task := s.tasks id
  let raw := s.transferBuffer.flatten
  let s := { s with
    transferQueue := s.transferQueue.set task.store (s.queue task.store).tail
    transferBuffer := []
    transferBufferBytes := 0
    transferRequested := false }
  (s.releaseThenContinue now task.store true).raise (completionNotice id task raw)

/-- FTDC, unless it is of the download being drained. -/
def completionInFlight (now : Time) (transfer : ℕ) (s : Lane) : Lane :=
  match s.transfer with
  | none => s.someoneAtWork now
  | some id =>
    if (s.tasks id).tid = some transfer then s.transferComplete now id else s.someoneAtWork now

/-- FTDC. -/
def fileTransferDataComplete (now : Time) (transfer : ℕ) (s : Lane) : Lane :=
  match s.draining with
  | some d => if transfer = d.tid then s.endDrain now else s.completionInFlight now transfer
  | none => s.completionInFlight now transfer

/-! ## The calls -/

/-- Create a task and put it at the end of its store's queue. -/
def enqueue (task : TransferTask) (s : Lane) : Lane :=
  { s with
    tasks := Function.update s.tasks s.nextTask task
    nextTask := s.nextTask + 1
    transferQueue := s.transferQueue.set task.store (s.queue task.store ++ [s.nextTask]) }

/-- `download`. -/
def download (now : Time) (store : Store) (index : Slot) (s : Lane) : Lane :=
  (s.enqueue { kind := .download, store := store, slot := index }).transferTrigger now store false

/-- `upload`, from the task's payload on. -/
def upload (now : Time) (store : Store) (index : Slot) (payload : UploadPayload) (s : Lane) :
    Lane :=
  (s.enqueue {
    kind := .upload, store := store, slot := index, data := some payload.data,
    dataLength := payload.dataLength, hash := payload.hash,
    sendLength := payload.data.length, name := payload.name,
    description := payload.description }).transferTrigger now store false

/-- `queue_clear`. -/
def queueClear (now : Time) (store : Store) (index : UInt8) (s : Lane) : Lane :=
  (s.enqueue { kind := .clear, store := store, slot := index.toUInt16 }).transferTrigger now store
    false

/-- `dequeue_clear`. -/
def dequeueClear (id : TaskId) (s : Lane) : Lane :=
  let store := (s.tasks id).store
  if id ∈ s.queue store then
    { s with transferQueue := s.transferQueue.set store ((s.queue store).filter (· ≠ id)) }
  else s

/-- Whether `abort_transfers` leaves the download in flight draining: a still the switcher
is sending, under its lock, with data not older than the stall limit. -/
def leavesDraining (now : Time) (s : Lane) : Bool :=
  match s.transfer, s.transferLastData with
  | some id, some last =>
    (s.tasks id).kind = .download ∧ (s.tasks id).store ≠ macroStore ∧ s.transferRequested ∧
      (s.tasks id).tid.isSome ∧ s.held (s.tasks id).store ∧ now - last < drainStall ∧ canWake ∧
      s.draining.isNone
  | _, _ => false

/-- The release of one lock by `abort_transfers`, leaving the store its turn. -/
def abortLock (now : Time) (lock : Store) (s : Lane) : Lane :=
  if s.held lock then
    let s := { s.send now (.lock lock false) with locks := s.locks.set lock false }
    if canWake then s.startYield now lock else s
  else s

/-- The release of one lock by `abort_transfers` while the download of `store` drains. -/
def abortOtherLock (now : Time) (store lock : Store) (s : Lane) : Lane :=
  if lock ≠ store ∧ s.held lock then
    { s.send now (.lock lock false) with locks := s.locks.set lock false }
  else s

/-- The lane emptied by `abort_transfers`, locks and timers aside. -/
def clearTransfers (s : Lane) : Lane :=
  { s with
    transferQueue := .empty
    transfer := none
    transferRequested := false
    tryAgainDue := none
    transferBuffer := []
    transferBufferBytes := 0 }

/-- The drain `abort_transfers` leaves of the task in flight. -/
def beginDrain (now : Time) (s : Lane) : Option Drain :=
  s.inFlight.map fun task => ⟨task.tid.getD 0, task.store, now, now⟩

/-- `abort_transfers`. -/
def abortTransfers (now : Time) (s : Lane) : Lane :=
  if s.leavesDraining now then
    let store := (s.inFlight.map (·.store)).getD 0
    let t := { s.clearTransfers with
      draining := s.beginDrain now, lockRequested := .empty }.wakeAt (now + drainStall)
    t.locks.keys.foldl (fun t lock => t.abortOtherLock now store lock) t
  else
    let t := { s.clearTransfers with lockRequested := .empty }
    t.locks.keys.foldl (fun t lock => t.abortLock now lock) t

/-- The release of one lock at teardown; the macro store is passed over. -/
def releaseLockNow (now : Time) (lock : Store) (s : Lane) : Lane :=
  if s.held lock ∧ lock ≠ macroStore then
    { s.send now (.lock lock false) with locks := s.locks.set lock false }
  else s

/-- `release_locks_now`. -/
def releaseLocksNow (now : Time) (s : Lane) : Lane :=
  if s.locks.keys.any s.held then
    let s := s.locks.keys.foldl (fun t lock => t.releaseLockNow now lock) s
    { s with lockRequested := .empty, yielding := .empty, ownRelease := .empty }
  else s

/-! ## The signals -/

/-- `_queue_flushed`. -/
def queueFlushed (now : Time) (s : Lane) : Lane :=
  match s.transfer with
  | none => s
  | some id =>
    match (s.tasks id).data with
    | none => s.throw .typeError
    | some data =>
      if (s.tasks id).offset < data.length then s.queueChunks now
      else if ¬ (s.tasks id).metadataSent then s.sendFileMetadata now id
      else s

/-- `UdpProtocol._fire_wake`. -/
def fireWake (now : Time) (s : Lane) : Lane :=
  match s.wakeDue with
  | some due => if now < due then s else { s with wakeDue := none, wakeups := s.wakeups + 1 }
  | none => s

/-- The loop taking a `Wakeup` off the receive queue and handling it. -/
def handleWakeup (now : Time) (s : Lane) : Lane :=
  if s.wakeups = 0 then s else { s with wakeups := s.wakeups - 1 }.serviceYields now

/-! ## Steps -/

/-- The handler of an event. -/
def handle (env : Env) : LaneEvent → Lane → Lane
  | .lockObtained store => lockObtained env.now store
  | .lockState store state => lockState env.now store state
  | .fileTransferContinueData transfer size count =>
    fileTransferContinueData env.now transfer size count
  | .fileTransferData transfer data => fileTransferData env transfer data
  | .fileTransferError transfer status => fileTransferError env.now transfer status
  | .fileTransferDataComplete transfer => fileTransferDataComplete env.now transfer
  | .download store index => download env.now store index
  | .upload store index payload => upload env.now store index payload
  | .queueClear store index => queueClear env.now store index
  | .dequeueClear task => dequeueClear task
  | .abortTransfers => abortTransfers env.now
  | .fireWake => fireWake env.now
  | .poke => fun s => { s with wakeups := s.wakeups + 1 }
  | .wakeup => handleWakeup env.now
  | .queueFlushed => queueFlushed env.now
  | .resetTransferLane => resetTransferLane
  | .releaseLocksNow => releaseLocksNow env.now

/-- The event is logged, and the clock moves to its time. -/
def receive (env : Env) (e : LaneEvent) (s : Lane) : Lane :=
  { s with clock := env.now, log := .recv env.now e :: s.log }

/-- One event of a run. -/
def step (s : Lane) (a : Env × LaneEvent) : Lane := handle a.1 a.2 (s.receive a.1 a.2)

/-- The events a state can meet: the clock does not go back, and the handle given to
`dequeue_clear` is one `queue_clear` returned. -/
def Possible (s : Lane) (a : Env × LaneEvent) : Prop :=
  s.clock ≤ a.1.now ∧
    match a.2 with
    | .dequeueClear id => id < s.nextTask ∧ (s.tasks id).kind = .clear
    | _ => True

instance Possible.decidable (s : Lane) (a : Env × LaneEvent) : Decidable (s.Possible a) := by
  obtain ⟨env, e⟩ := a
  cases e <;> (dsimp only [Possible]; infer_instance)

/-- A fresh protocol object, with any first transfer id `_first_transfer_id` can draw. -/
def Initial (s : Lane) : Prop := ∃ tid, 1 ≤ tid ∧ tid ≤ 0xFFFF ∧ s = fresh tid

/-- The states of the runs whose every step meets `ok` besides being possible. -/
def ReachableWhen (ok : Lane → Env × LaneEvent → Prop) : Lane → Prop :=
  Library.Reach Initial step fun s a => s.Possible a ∧ ok s a

/-- The states of all runs. -/
def Reachable : Lane → Prop := ReachableWhen fun _ _ => True

end Lane

end Bmdwire
