import Bmdwire.Program.LaneEvents

/-!
# The data of the calls that wait on the transfer lane

`clear_still`, `upload_macro_bytecode` and `_download_transfer` block a caller's thread: each
subscribes to events of the lane, queues a task, waits on a `threading.Event`, and decides by
what its handlers noted. This file has a call as its thread and its handlers see it, and the
calls of one connection together with their lane.
-/

set_option autoImplicit false

namespace Bmdwire

/-- The calls, with the arguments they queue their task from. `_download_transfer` is
`download_still` on the still store and `download_macro` on the macro store. -/
inductive CallKind
  | clearStill (slot : UInt8)
  | uploadMacroBytecode (slot : Slot) (payload : UploadPayload)
  | downloadTransfer (store : Store) (index : Slot)
deriving DecidableEq, Repr

/-- How a call ends: normally, a download with its data, or by `ConnectionDeadError`,
`TimeoutError`, or the `RuntimeError` of a rejection by the switcher. -/
inductive CallResult
  | returned (data : Option Bytes)
  | connectionDead
  | timedOut
  | rejected
deriving DecidableEq, Repr

/-- Where a call is: not made yet, subscribed, waiting with its task queued, past the wait with
nothing heard and about to take its task back, or over. -/
inductive CallPhase
  | unmade
  | listening
  | waiting (task : TaskId)
  | cleaning (task : TaskId)
  | over (task : TaskId) (result : CallResult)
deriving DecidableEq, Repr

/-- A call. `heard` is `dispatched` of a clear and the `upload-done` of an upload, `data`,
`error` and `lost` are what the handlers put into `result`; `error` is the transfer and status
of an FTDE. `began` is the lane's log at the start of the call. -/
structure Call where
  kind : CallKind
  began : List Act
  phase : CallPhase := .listening
  heard : Bool := false
  data : Option Bytes := none
  error : Option (ℕ × ℕ) := none
  lost : Bool := false
deriving DecidableEq, Repr

/-- A connection's lane and the calls made on it, numbered in order. `serial` is the call that
holds `_transfer_serial_lock`. -/
structure Callers where
  lane : Lane
  calls : ℕ → Call
  nextCall : ℕ
  serial : Option ℕ

/-- What happens: an event of the lane that no call makes, or a call taking its next step. -/
inductive CallerEvent
  | lane (event : LaneEvent)
  | begin (kind : CallKind)
  | queue (call : ℕ)
  | wake (call : ℕ)
  | cleanUp (call : ℕ)
deriving DecidableEq, Repr

namespace CallKind

/-- What the task of the call moves, and where. -/
def target : CallKind → TransferKind × Store × Slot
  | .clearStill slot => (.clear, 0, slot.toUInt16)
  | .uploadMacroBytecode slot _ => (.upload, macroStore, slot)
  | .downloadTransfer store index => (.download, store, index)

end CallKind

namespace Call

/-- The task the call has queued. -/
def task? (c : Call) : Option TaskId :=
  match c.phase with
  | .waiting task => some task
  | .cleaning task => some task
  | .over task _ => some task
  | _ => none

/-- The call was made, and is not over. -/
def isOpen (c : Call) : Bool :=
  match c.phase with
  | .unmade => false
  | .over _ _ => false
  | _ => true

/-- The call is in its wait. -/
def isWaiting (c : Call) : Bool :=
  match c.phase with
  | .waiting _ => true
  | _ => false

/-- The call is past its wait, with its task still to be taken back. -/
def isCleaning (c : Call) : Bool :=
  match c.phase with
  | .cleaning _ => true
  | _ => false

/-- A number no call has yet. -/
def unmade : Call := { kind := .clearStill 0, began := [], phase := .unmade }

end Call

end Bmdwire
