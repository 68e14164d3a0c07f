import Bmdwire.Library.Dict
import Bmdwire.Library.Runs
import Mathlib.Data.UInt

/-!
# The data of the transfer lane

`AtemProtocol` moves stills and macros over a lane: one queue of `TransferTask` objects
for each store, the belief which stores' locks are held, the transfer in flight, and the
timers that leave other clients their turn. This file has the task, what the lane sends
and raises, what happens to it, and its state.

A `TransferTask` is a Python object that the queue and `self.transfer` share and that the
handlers change in place. Here the objects live in a heap `tasks`, and the queues and
`transfer` hold identities into it. Times are the readings of `time.monotonic()` in
nanoseconds, the clock's own resolution.

The lane keeps a log of what it received, sent and raised, newest entry first, which the
specifications read.
-/

set_option autoImplicit false

namespace Bmdwire

open Library (Dict)

abbrev Bytes := List UInt8

/-- A `time.monotonic()` reading, in nanoseconds. -/
abbrev Time := ℕ

abbrev Store := UInt16

abbrev Slot := UInt16

/-- The identity of a `TransferTask` object, given in order of creation. -/
abbrev TaskId := ℕ

/-- The macro store, which takes no lock. -/
def macroStore : Store := 0xffff

/-! ## Constants -/

def milliseconds (n : ℕ) : Time := n * 1000000

def lockRerequestSeconds : Time := milliseconds 1000
def lockCourtesy : Time := milliseconds 60
def lockQuiet : Time := milliseconds 10000
def lockHandover : Time := milliseconds 100
def lockEchoWindow : Time := milliseconds 250
def tryAgainFirst : Time := milliseconds 50
def tryAgainMax : Time := milliseconds 1000
def tryAgainAttempts : ℕ := 20
def drainStall : Time := milliseconds 5000
def drainMax : Time := milliseconds 120000

/-- `BaseProtocol.send_queue` is a `deque(maxlen=1024)`. -/
def sendQueueMaxlen : ℕ := 1024

/-! ## Tasks -/

/-- The `upload` and `clear` flags of a task, of which at most one is set. -/
inductive TransferKind
  | download
  | upload
  | clear
deriving DecidableEq, Repr

/-- `TransferTask`. `data` is `None` until `upload` sets it. -/
structure TransferTask where
  kind : TransferKind
  store : Store
  slot : Slot
  tid : Option ℕ := none
  data : Option Bytes := none
  dataLength : ℕ := 0
  hash : Bytes := []
  sendLength : ℕ := 0
  sendDone : ℕ := 0
  name : Option Bytes := none
  description : Option Bytes := none
  metadataSent : Bool := false
  offset : ℕ := 0
  tryAgain : ℕ := 0
deriving DecidableEq, Repr

/-- What `upload` has put on a fresh task by the time it queues it: the data as it goes
out (compressed or not), its uncompressed length, the MD5 digest and the texts. -/
structure UploadPayload where
  data : Bytes
  dataLength : ℕ
  hash : Bytes
  name : Option Bytes
  description : Option Bytes
deriving DecidableEq, Repr

/-! ## What the lane sends and raises -/

/-- The commands the lane sends. `task` is the object a command was made from, which is
not on the wire; neither is the store of a `clearStill`. -/
inductive Command
  | lock (store : Store) (state : Bool)
  | partialLock (store : Store) (slot : Slot)
  | clearStill (task : TaskId) (store : Store) (slot : Slot)
  | downloadRequest (task : TaskId) (transfer : ℕ) (store : Store) (slot : Slot)
  | uploadRequest (task : TaskId) (transfer : ℕ) (store : Store) (slot : Slot)
      (length mode : ℕ)
  | transferData (transfer : ℕ) (data : Bytes)
  | fileData (transfer : ℕ) (hash : Bytes) (name description : Option Bytes)
  | transferAck (transfer : ℕ) (slot : ℕ)
deriving DecidableEq, Repr

/-- The events the lane raises, and the log line of a completion whose handling failed.
`task` is the object the handler took `store` and `slot` from. -/
inductive Notice
  | uploadDone (task : TaskId) (store : Store) (slot : Slot)
  | downloadDone (task : TaskId) (store : Store) (slot : Slot) (data : Bytes)
  | completionHandlingFailed (task : TaskId)
  | fileTransferError (task : TaskId) (transfer status : ℕ)
  | clearDispatched (task : TaskId) (store : Store) (slot : Slot)
  | transferProgress (task : TaskId) (store : Store) (slot : Slot) (bytes totalSize : ℕ)
  | uploadProgress (task : TaskId) (store : Store) (slot : Slot) (sendDone sendLength : ℕ)
deriving DecidableEq, Repr

/-- The exceptions that leave a lane handler. -/
inductive PyError
  | attributeError
  | typeError
  | keyError
deriving DecidableEq, Repr

/-! ## What happens to the lane -/

/-- The messages, calls and signals the lane reacts to. `fireWake` is the transport's
timer thread finding its wake due, `poke` a caller putting a `Wakeup`, `wakeup` the
protocol loop handling one. `resetTransferLane` is the lane's part of a lost session. -/
inductive LaneEvent
  | lockObtained (store : Store)
  | lockState (store : Store) (state : Bool)
  | fileTransferContinueData (transfer size count : ℕ)
  | fileTransferData (transfer : ℕ) (data : Bytes)
  | fileTransferError (transfer status : ℕ)
  | fileTransferDataComplete (transfer : ℕ)
  | download (store : Store) (index : Slot)
  | upload (store : Store) (index : Slot) (payload : UploadPayload)
  | queueClear (store : Store) (index : UInt8)
  | dequeueClear (task : TaskId)
  | abortTransfers
  | fireWake
  | poke
  | wakeup
  | queueFlushed
  | resetTransferLane
  | releaseLocksNow
deriving DecidableEq, Repr

/-- What a handler reads from outside the lane: the clock, and the pixels of a frame in
the current video mode (`None` when the mode is unknown). -/
structure Env where
  now : Time
  pixels : Option ℕ := none
deriving DecidableEq, Repr

/-- An entry of the lane's log. -/
inductive Act
  | recv (now : Time) (event : LaneEvent)
  | send (now : Time) (command : Command)
  | notice (n : Notice)
  | throw (e : PyError)
deriving DecidableEq, Repr

/-! ## The state of the lane -/

/-- `_yielding[store] = [since, announced]`. -/
structure Yield where
  since : Time
  announced : Option Time
deriving DecidableEq, Repr

/-- `_draining`, the abandoned download being drained. -/
structure Drain where
  tid : ℕ
  store : Store
  since : Time
  last : Time
deriving DecidableEq, Repr

/-- `transfer_budget`: `[]` before the first FTCD, `None` once used up. -/
inductive TransferBudget
  | initial
  | exhausted
  | granted (transfer size count : ℕ)
deriving DecidableEq, Repr

/-- The lane's part of `AtemProtocol`, with the transport's wake timer, the `Wakeup`s in
its receive queue and its send queue of chunks. -/
structure Lane where
  locks : Dict Store Bool
  lockRequested : Dict Store Time
  yielding : Dict Store Yield
  foreignHeld : List Store
  ownRelease : Dict Store Time
  othersSeen : Option Time
  lastGrant : Dict Store Time
  transferQueue : Dict Store (List TaskId)
  transferId : ℕ
  transferBuffer : List Bytes
  transferBufferBytes : ℕ
  transfer : Option TaskId
  transferRequested : Bool
  tryAgainDue : Option Time
  draining : Option Drain
  transferLastData : Option Time
  transferPackets : ℕ
  transferBudget : TransferBudget
  tasks : TaskId → TransferTask
  nextTask : TaskId
  wakeDue : Option Time
  wakeups : ℕ
  sendQueue : List (ℕ × Bytes)
  clock : Time
  log : List Act

/-- The lane of a fresh protocol object, whose first transfer id `_first_transfer_id`
drew. -/
def Lane.fresh (firstTransferId : ℕ) : Lane where
  locks := .empty
  lockRequested := .empty
  yielding := .empty
  foreignHeld := []
  ownRelease := .empty
  othersSeen := none
  lastGrant := .empty
  transferQueue := .empty
  transferId := firstTransferId
  transferBuffer := []
  transferBufferBytes := 0
  transfer := none
  transferRequested := false
  tryAgainDue := none
  draining := none
  transferLastData := none
  transferPackets := 0
  transferBudget := .initial
  tasks := fun _ => { kind := .download, store := 0, slot := 0 }
  nextTask := 0
  wakeDue := none
  wakeups := 0
  sendQueue := []
  clock := 0
  log := []

namespace Lane

/-- `self.locks.get(store)`, as a truth value. -/
def held (s : Lane) (store : Store) : Bool := s.locks.getD store false

/-- `self.transfer_queue.get(store) or []`. -/
def queue (s : Lane) (store : Store) : List TaskId := s.transferQueue.getD store []

/-- Every queued task, store by store. -/
def queued (s : Lane) : List TaskId := s.transferQueue.keys.flatMap s.queue

/-- The task in flight, as an object. -/
def inFlight (s : Lane) : Option TransferTask := s.transfer.map s.tasks

end Lane

end Bmdwire
