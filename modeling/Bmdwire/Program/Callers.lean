import Bmdwire.Model.Callers

/-!
# The calls that wait on the transfer lane

What the handlers of `clear_still`, `upload_macro_bytecode` and `_download_transfer` note of
the lane's events, and what each call does: subscribe, queue its task, wait, decide, clean up.
A step of the lane delivers every event it raised to every call not over; the worker raises
'disconnected' and resets the lane in one handler, before any other thread's step.
-/

set_option autoImplicit false

namespace Bmdwire

namespace CallKind

/-- The method of `AtemProtocol` that queues the call's task. -/
def queues : CallKind → LaneEvent
  | .clearStill slot => .queueClear 0 slot
  | .uploadMacroBytecode slot payload => .upload macroStore slot payload
  | .downloadTransfer store index => .download store index

end CallKind

/-- The event an entry of the log raises. -/
def Act.notice? : Act → Option Notice
  | .notice n => some n
  | _ => none

/-- The events raised between two states of the lane, the first one first. -/
def Lane.raised (s t : Lane) : List Notice :=
  ((t.log.take (t.log.length - s.log.length)).filterMap Act.notice?).reverse

namespace Call

/-- `_on_dispatched`, `_on_done` and `_on_error` of the call. -/
def note (c : Call) (n : Notice) : Call :=
  match c.kind, n with
  | .clearStill slot, .clearDispatched _ store slotIdx =>
    if store = 0 ∧ slotIdx = slot.toUInt16 then { c with heard := true } else c
  | .uploadMacroBytecode slot _, .uploadDone _ store slotIdx =>
    if store = macroStore ∧ slotIdx = slot then { c with heard := true } else c
  | .uploadMacroBytecode _ _, .fileTransferError _ transfer status =>
    { c with error := some (transfer, status) }
  | .downloadTransfer store index, .downloadDone _ storeId slotIdx data =>
    if storeId = store ∧ slotIdx = index then { c with data := some data } else c
  | .downloadTransfer _ _, .fileTransferError _ transfer status =>
    { c with error := some (transfer, status) }
  | _, _ => c

/-- An event is raised: the handlers of a call that is over are unsubscribed. -/
def hear (c : Call) (n : Notice) : Call := if c.isOpen then c.note n else c

/-- `_on_lost`, which an upload does not subscribe. -/
def lose (c : Call) : Call :=
  match c.kind with
  | .uploadMacroBytecode _ _ => c
  | _ => if c.isOpen then { c with lost := true } else c

/-- The call ends. -/
def finish (r : CallResult) (c : Call) : Call :=
  match c.task? with
  | some task => { c with phase := .over task r }
  | none => c

/-- The wait ends with nothing heard: the task is to be taken back. -/
def goOn (c : Call) : Call :=
  match c.task? with
  | some task => { c with phase := .cleaning task }
  | none => c

/-- The decision after the wait. A clear or a download that heard nothing goes on to take its
task back; an upload that heard nothing timed out. -/
def decide (c : Call) : Call :=
  match c.kind with
  | .clearStill _ =>
    if c.heard then c.finish (.returned none)
    else if c.lost then c.finish .connectionDead
    else c.goOn
  | .uploadMacroBytecode _ _ =>
    if ¬ c.heard ∧ c.error = none then c.finish .timedOut
    else if c.error.isSome then c.finish .rejected
    else c.finish (.returned none)
  | .downloadTransfer _ _ =>
    match c.data with
    | some data => c.finish (.returned (some data))
    | none =>
      if c.lost then c.finish .connectionDead
      else if c.error.isSome then c.finish .rejected
      else c.goOn

end Call

namespace Callers

/-- Change one call. -/
def setCall (i : ℕ) (c : Call) (s : Callers) : Callers :=
  { s with calls := Function.update s.calls i c }

/-- A step of the lane, and its events delivered. -/
def laneStep (a : Env × LaneEvent) (s : Callers) : Callers :=
  { s with
    lane := s.lane.step a
    calls := fun i => (s.lane.raised (s.lane.step a)).foldl Call.hear (s.calls i) }

/-- The worker finds the session lost: 'disconnected' is raised, and the lane reset. -/
def loseSession (env : Env) (s : Callers) : Callers :=
  { s with calls := fun i => (s.calls i).lose }.laneStep (env, .resetTransferLane)

/-- A call subscribes; a download has taken the serial lock. -/
def beginCall (kind : CallKind) (s : Callers) : Callers :=
  { s with
    calls := Function.update s.calls s.nextCall { kind := kind, began := s.lane.log }
    nextCall := s.nextCall + 1
    serial := if kind.target.1 = .download then some s.nextCall else s.serial }

/-- The call queues its task, and waits. -/
def queueTask (env : Env) (i : ℕ) (s : Callers) : Callers :=
  (s.setCall i { s.calls i with phase := .waiting s.lane.nextTask }).laneStep
    (env, (s.calls i).kind.queues)

/-- A call that is over gives the serial lock back. -/
def unlock (i : ℕ) (s : Callers) : Callers :=
  if (s.calls i).isOpen then s
  else { s with serial := if s.serial = some i then none else s.serial }

/-- The wait is over: `done` was set, or the time is up. -/
def wake (i : ℕ) (s : Callers) : Callers := (s.setCall i (s.calls i).decide).unlock i

/-- `dequeue_clear` of a clear that heard nothing, `abort_transfers` of a download. A clear
whose task is no longer queued is taken to have been dispatched. -/
def cleanUp (env : Env) (i : ℕ) (s : Callers) : Callers :=
  match (s.calls i).kind, (s.calls i).phase with
  | .clearStill _, .cleaning id =>
    let dequeued := id ∈ s.lane.queue (s.lane.tasks id).store
    let t := s.laneStep (env, .dequeueClear id)
    t.setCall i ((t.calls i).finish (if dequeued then .timedOut else .returned none))
  | _, _ =>
    let t := s.laneStep (env, .abortTransfers)
    (t.setCall i ((t.calls i).finish .timedOut)).unlock i

/-- One step of a run. -/
def step (s : Callers) (a : Env × CallerEvent) : Callers :=
  match a.2 with
  | .lane .resetTransferLane => s.loseSession a.1
  | .lane e => s.laneStep (a.1, e)
  | .begin kind => s.beginCall kind
  | .queue i => s.queueTask a.1 i
  | .wake i => s.wake i
  | .cleanUp i => s.cleanUp a.1 i

/-- The events of the lane that the calls of the connection do not make: messages, signals,
uploads of stills and the aborts of other users of the protocol. -/
def outside : LaneEvent → Bool
  | .download _ _ => false
  | .queueClear _ _ => false
  | .dequeueClear _ => false
  | .upload store _ _ => store ≠ macroStore
  | _ => true

/-- The events a state can meet: time does not go back, and a call takes its steps in order. -/
def Possible (s : Callers) (a : Env × CallerEvent) : Prop :=
  s.lane.clock ≤ a.1.now ∧
    match a.2 with
    | .lane e => outside e = true
    | .begin kind => kind.target.1 = .download → s.serial = none
    | .queue i => (s.calls i).phase = .listening
    | .wake i => (s.calls i).isWaiting = true
    | .cleanUp i => (s.calls i).isCleaning = true

instance Possible.decidable (s : Callers) (a : Env × CallerEvent) : Decidable (s.Possible a) :=
  match a with
  | (_, .lane _) | (_, .begin _) | (_, .queue _) | (_, .wake _) | (_, .cleanUp _) =>
    inferInstanceAs (Decidable (_ ∧ _))

/-- A connection whose protocol object is fresh, before any call. -/
def fresh (firstTransferId : ℕ) : Callers where
  lane := .fresh firstTransferId
  calls := fun _ => .unmade
  nextCall := 0
  serial := none

/-- A fresh connection, with any first transfer id `_first_transfer_id` can draw. -/
def Initial (s : Callers) : Prop := ∃ tid, 1 ≤ tid ∧ tid ≤ 0xFFFF ∧ s = fresh tid

/-- The states of the runs whose every step meets `ok` besides being possible. -/
def ReachableWhen (ok : Callers → Env × CallerEvent → Prop) : Callers → Prop :=
  Library.Reach Initial step fun s a => s.Possible a ∧ ok s a

/-- The states of all runs. -/
def Reachable : Callers → Prop := ReachableWhen fun _ _ => True

end Callers

end Bmdwire
