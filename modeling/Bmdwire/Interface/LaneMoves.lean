import Bmdwire.Interface.LaneQueues

/-!
# What one event can do to the lane

An event is handled in three parts: the handler's own change to the lane (`Opening`),
whatever the trigger then does, in any number of `TriggerMove`s, and sometimes an event
raised at the end. `Bmdwire.Analysis.LaneRefinement` proves that every step of the lane
splits so. An invariant is then one short argument for each opening and each move, and
never unfolds a handler.

Entries of the log that say nothing about locks, requests or outcomes are *bulk*, and a
change that touches only what a transfer moves is `Quiet`.
-/

set_option autoImplicit false

namespace Bmdwire

open Library (Dict)

/-- The log entries of the data moved by a transfer. -/
def Act.bulk : Act → Bool
  | .send _ (.transferData _ _) => true
  | .send _ (.fileData _ _ _ _) => true
  | .send _ (.transferAck _ _) => true
  | .notice (.transferProgress _ _ _ _ _) => true
  | .notice (.uploadProgress _ _ _ _ _) => true
  | .throw _ => true
  | _ => false

/-- The part of a task that moving its data leaves alone. -/
def TransferTask.core (t : TransferTask) : TransferKind × Store × Slot × Option ℕ × ℕ :=
  (t.kind, t.store, t.slot, t.tid, t.tryAgain)

/-- What a task moves, and where: what those who wait for it know it by. -/
def TransferTask.target (t : TransferTask) : TransferKind × Store × Slot :=
  (t.kind, t.store, t.slot)

/-- The task, transfer id, store and slot a transfer request is for. -/
def Command.request? : Command → Option (TaskId × ℕ × Store × Slot)
  | .uploadRequest task transfer store slot _ _ => some (task, transfer, store, slot)
  | .downloadRequest task transfer store slot => some (task, transfer, store, slot)
  | _ => none

namespace Lane

/-- Two states that agree on everything the lane decides by; the log has grown by bulk. -/
structure Quiet (s t : Lane) : Prop where
  locks : t.locks = s.locks
  lockRequested : t.lockRequested = s.lockRequested
  yielding : t.yielding = s.yielding
  foreignHeld : t.foreignHeld = s.foreignHeld
  ownRelease : t.ownRelease = s.ownRelease
  othersSeen : t.othersSeen = s.othersSeen
  lastGrant : t.lastGrant = s.lastGrant
  transferQueue : t.transferQueue = s.transferQueue
  transferId : t.transferId = s.transferId
  transfer : t.transfer = s.transfer
  transferRequested : t.transferRequested = s.transferRequested
  tryAgainDue : t.tryAgainDue = s.tryAgainDue
  draining : t.draining = s.draining
  nextTask : t.nextTask = s.nextTask
  wakeDue : t.wakeDue = s.wakeDue
  wakeups : t.wakeups = s.wakeups
  clock : t.clock = s.clock
  core : ∀ id, (t.tasks id).core = (s.tasks id).core
  log : ∃ new, t.log = new ++ s.log ∧ ∀ a ∈ new, a.bulk = true

/-! ## The trigger, move by move -/

/-- The trigger may start something: nothing drains and no pause is on. -/
def Ready (s : Lane) : Prop := s.draining = none ∧ s.tryAgainDue = none

/-- A transfer on the store needs no lock, or has it. -/
def Usable (s : Lane) (store : Store) : Prop := store = macroStore ∨ s.held store = true

/-- The things `_transfer_trigger` and the loop of `_service_yields` can do. A request is
repeated under its id (`retry`) for the task in flight; `stale` allows it for another
task. -/
inductive TriggerMove (now : Time) (stale : Prop) : Lane → Lane → Prop
  | wake (s : Lane) (due : Time) : TriggerMove now stale s (s.wakeAt due)
  | fail (s : Lane) : TriggerMove now stale s (s.throw .keyError)
  | pauseOver {s : Lane} {due : Time} : s.draining = none → s.tryAgainDue = some due →
      due ≤ now → TriggerMove now stale s { s with tryAgainDue := none }
  | endYield {s : Lane} {store : Store} {y : Yield} : s.yielding.get? store = some y →
      s.yieldDue now store y ≤ now → TriggerMove now stale s (s.endYield store)
  | clean {s : Lane} : s.Ready → (∀ k, s.queue k = []) →
      TriggerMove now stale s (s.cleanLocks now)
  | askForLock {s : Lane} {id : TaskId} : s.Ready → s.Front id →
      (s.tasks id).store ≠ macroStore → s.held (s.tasks id).store = false →
      (s.tasks id).store ∉ s.foreignHeld → s.yielding.get? (s.tasks id).store = none →
      TriggerMove now stale s (s.sendLockRequest now (s.tasks id))
  | clear {s : Lane} {id : TaskId} : s.Ready → s.Front id → s.Usable (s.tasks id).store →
      s.transferRequested = false → (s.tasks id).kind = .clear →
      TriggerMove now stale s ((s.dispatchClear now id).letGo now (s.tasks id).store)
  | request {s : Lane} {id : TaskId} (retry : Bool) : s.Ready → s.Front id →
      s.Usable (s.tasks id).store → s.transferRequested = false → (s.tasks id).kind ≠ .clear →
      (retry = true → s.transfer = some id ∨ stale) →
      TriggerMove now stale s (s.requestTransfer now retry id)

/-- Any number of moves. -/
def TriggerMoves (now : Time) (stale : Prop) : Lane → Lane → Prop :=
  Relation.ReflTransGen (TriggerMove now stale)

/-- What every move keeps, any number of moves keeps. -/
theorem TriggerMoves.keep {now : Time} {stale : Prop} {P : Lane → Prop}
    (hP : ∀ s t, TriggerMove now stale s t → P s → P t) {s t : Lane}
    (h : TriggerMoves now stale s t) (hs : P s) : P t := by
  induction h with
  | refl => exact hs
  | tail _ hm ih => exact hP _ _ hm ih

/-! ## The handlers, without the trigger -/

/-- The lane once `_fail_transfer` has dropped the task in flight and released its lock. -/
def dropFailed (now : Time) (id : TaskId) (s : Lane) : Lane :=
  let s := { s with tryAgainDue := none }.popHead id
  { s with transfer := none, transferBuffer := [], transferBufferBytes := 0 }.letGo now
    (s.tasks id).store

/-- The lane once an FTDC has taken the task in flight off its queue and released its
lock. -/
def dropCompleted (now : Time) (id : TaskId) (s : Lane) : Lane :=
  { s with
    transferQueue := s.transferQueue.set (s.tasks id).store (s.queue (s.tasks id).store).tail
    transferBuffer := []
    transferBufferBytes := 0
    transferRequested := false }.letGo now (s.tasks id).store

/-- One more FTDE 1 is counted against a task. -/
def countTry (id : TaskId) (s : Lane) : Lane :=
  { s with transferRequested := false }.modifyTask id
    fun t => { t with tryAgain := t.tryAgain + 1 }

/-- LKST free up to the wake and the trigger. -/
def freed (now : Time) (store : Store) (s : Lane) : Lane :=
  let s := announceFree now store
    { s with foreignHeld := s.foreignHeld.filter (· ≠ store) }
  { s with lockRequested := s.lockRequested.erase store }

/-- The message carries the id of the task in flight, and no drain takes it. -/
structure Answers (s : Lane) (transfer : ℕ) (id : TaskId) : Prop where
  inFlight : s.transfer = some id
  tid : (s.tasks id).tid = some transfer
  notDrained : ∀ d, s.draining = some d → d.tid ≠ transfer

/-- The message carries neither the id of the task in flight nor that of the drain. -/
structure Strange (s : Lane) (transfer : ℕ) : Prop where
  notInFlight : ∀ id, s.transfer = some id → (s.tasks id).tid ≠ some transfer
  notDrained : ∀ d, s.draining = some d → d.tid ≠ transfer

/-- A drain that has stalled, or has run too long. -/
def Drain.overdue (now : Time) (d : Drain) : Prop :=
  now - d.last ≥ drainStall ∨ now - d.since ≥ drainMax

/-- The task a call creates. -/
def newTask : LaneEvent → Option TransferTask
  | .download store index => some { kind := .download, store := store, slot := index }
  | .upload store index payload => some {
      kind := .upload, store := store, slot := index, data := some payload.data,
      dataLength := payload.dataLength, hash := payload.hash,
      sendLength := payload.data.length, name := payload.name,
      description := payload.description }
  | .queueClear store index => some { kind := .clear, store := store, slot := index.toUInt16 }
  | _ => none

/-- Events that leave the lane's decisions alone, whatever they move. -/
def Idle (now : Time) (s : Lane) : LaneEvent → Prop
  | .fileTransferContinueData _ _ _ => True
  | .fileTransferData transfer _ => ∀ d, s.draining = some d → d.tid ≠ transfer
  | .queueFlushed => True
  | .lockState store _ => s.held store = true
  | .fileTransferError transfer _ => s.Strange transfer
  | .wakeup => s.wakeups = 0
  | .fireWake => ∀ due, s.wakeDue = some due → now < due
  | _ => False

/-- The handler's own change, and what it raises when the trigger is done. -/
inductive Opening (now : Time) : Lane → LaneEvent → Lane → Option Notice → Prop
  | quiet {s t : Lane} {e : LaneEvent} : s.Idle now e → s.Quiet t → Opening now s e t none
  | granted (s : Lane) (store : Store) :
      Opening now s (.lockObtained store)
        { s with
          locks := s.locks.set store true
          lastGrant := s.lastGrant.set store now
          lockRequested := s.lockRequested.erase store } none
  | taken {s : Lane} {store : Store} : s.held store = false →
      Opening now s (.lockState store true) (s.lockTaken now store) none
  | freed {s : Lane} {store : Store} : s.held store = false →
      Opening now s (.lockState store false) (s.freed now store) none
  | drained {s : Lane} {d : Drain} (data : Bytes) : s.draining = some d →
      Opening now s (.fileTransferData d.tid data)
        ({ s with draining := some { d with last := now } }.send now (.transferAck d.tid 0)) none
  | drainFailed {s : Lane} {d : Drain} (status : ℕ) : s.draining = some d →
      Opening now s (.fileTransferError d.tid status)
        ({ s with draining := none }.letGo now d.store) none
  | drainCompleted {s : Lane} {d : Drain} : s.draining = some d →
      Opening now s (.fileTransferDataComplete d.tid)
        ({ s with draining := none }.letGo now d.store) none
  | tryAgain {s : Lane} {id : TaskId} {transfer : ℕ} : s.Answers transfer id →
      (s.tasks id).tryAgain < tryAgainAttempts →
      Opening now s (.fileTransferError transfer 1)
        { s.countTry id with
          tryAgainDue := some (now + tryAgainPause ((s.tasks id).tryAgain + 1)) } none
  | triedOut {s : Lane} {id : TaskId} {transfer : ℕ} : s.Answers transfer id →
      tryAgainAttempts ≤ (s.tasks id).tryAgain →
      Opening now s (.fileTransferError transfer 1) ((s.countTry id).dropFailed now id)
        (some (.fileTransferError id transfer 1))
  | lockLost {s : Lane} {id : TaskId} {transfer : ℕ} : s.Answers transfer id →
      Opening now s (.fileTransferError transfer 5)
        { s with
          transferRequested := false
          locks := s.locks.set (s.tasks id).store false } none
  | yielded {s : Lane} {id : TaskId} {transfer : ℕ} : s.Answers transfer id →
      Opening now s (.fileTransferError transfer 6)
        ({ s with
          transferRequested := false
          lockRequested := s.lockRequested.erase (s.tasks id).store
          othersSeen := some now }.letGo now (s.tasks id).store) none
  | failed {s : Lane} {id : TaskId} {transfer status : ℕ} : s.Answers transfer id →
      status ≠ 1 → status ≠ 5 → status ≠ 6 →
      Opening now s (.fileTransferError transfer status)
        ({ s with transferRequested := false }.dropFailed now id)
        (some (.fileTransferError id transfer status))
  | completed {s : Lane} {id : TaskId} {transfer : ℕ} : s.Answers transfer id →
      Opening now s (.fileTransferDataComplete transfer) (s.dropCompleted now id)
        (some (completionNotice id (s.tasks id) s.transferBuffer.flatten))
  | strangeCompletion {s : Lane} {transfer : ℕ} : s.Strange transfer →
      Opening now s (.fileTransferDataComplete transfer) (s.someoneAtWork now) none
  | enqueue (s : Lane) {e : LaneEvent} {task : TransferTask} : newTask e = some task →
      Opening now s e (s.enqueue task) none
  | dequeue (s : Lane) (id : TaskId) : Opening now s (.dequeueClear id) (s.dequeueClear id) none
  | abort (s : Lane) : Opening now s .abortTransfers (s.abortTransfers now) none
  | fire {s : Lane} {due : Time} : s.wakeDue = some due → due ≤ now →
      Opening now s .fireWake { s with wakeDue := none, wakeups := s.wakeups + 1 } none
  | poke (s : Lane) : Opening now s .poke { s with wakeups := s.wakeups + 1 } none
  | woken {s : Lane} : s.wakeups ≠ 0 →
      (∀ d, s.draining = some d → ¬ Drain.overdue now d) →
      Opening now s .wakeup { s with wakeups := s.wakeups - 1 } none
  | drainOverdue {s : Lane} {d : Drain} : s.wakeups ≠ 0 → s.draining = some d →
      Drain.overdue now d →
      Opening now s .wakeup
        ({ s with wakeups := s.wakeups - 1, draining := none }.letGo now d.store) none
  | reset (s : Lane) : Opening now s .resetTransferLane s.resetTransferLane none
  | teardown (s : Lane) : Opening now s .releaseLocksNow (s.releaseLocksNow now) none

/-- The event raised once the trigger is done. -/
def close (closing : Option Notice) (s : Lane) : Lane :=
  match closing with
  | some n => s.raise n
  | none => s

end Lane

end Bmdwire
