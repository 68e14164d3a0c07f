import Bmdwire.Library.Runs
import Bmdwire.Model.Pool

/-!
# The pool

The functions of `pool.py`, and those of `connection.py` that start and end a worker, in the
pieces between which another thread can run: a section under `_instance_lock`, cut at a
`disconnect()` inside it, and a section under `_lifecycle_lock`, cut at the wait in
`connect`.
-/

set_option autoImplicit false

namespace Bmdwire

open Library (Dict)

namespace Pool

/-- Change an entry. -/
def setEntry (e : ℕ) (f : Entry → Entry) (s : Pool) : Pool :=
  { s with entries := Function.update s.entries e (f (s.entries e)) }

/-- Change the connection of an entry. -/
def setConnection (e : ℕ) (f : Connection → Connection) (s : Pool) : Pool :=
  s.setEntry e fun entry => { entry with connection := f entry.connection }

/-- Set the status of a timer. -/
def setTimer (t : ℕ) (status : TimerStatus) (s : Pool) : Pool :=
  { s with timers := Function.update s.timers t { s.timers t with status } }

/-- Set the status of a worker. -/
def setWorker (w : ℕ) (status : WorkerStatus) (s : Pool) : Pool :=
  { s with workers := Function.update s.workers w { s.workers w with status } }

/-- An entry for the log. -/
def note (a : PoolAct) (s : Pool) : Pool := { s with log := a :: s.log }

/-! ## Connections and workers -/

/-- `worker.is_alive()`: a worker that has died of itself still runs its callback. -/
def isAlive (s : Pool) (w : ℕ) : Bool := (s.workers w).status ≠ .ended

/-- `is_connected`. -/
def isConnected (s : Pool) (e : ℕ) : Bool :=
  let conn := (s.entries e).connection
  conn.handshakeDone && conn.worker.any s.isAlive

/-- `_disconnect_locked`: a worker in its session ends it. One that waits in its callback is
left to itself when the joins time out. -/
def disconnectLocked (e : ℕ) (s : Pool) : Pool :=
  let s' := s.setConnection e fun conn => { conn with
    diedSignalled := true, handshakeDone := false, worker := none, ipAddress := none }
  match (s.entries e).connection.worker with
  | none => s'
  | some w => if (s.workers w).status = .running then s'.setWorker w .ended else s'

/-- `_connect_locked` up to its wait: what is left of an old worker is disconnected, and a new
one started. -/
def startWorker (h e : ℕ) (ip : String) (s : Pool) : Pool :=
  let s := if (s.entries e).connection.worker.any s.isAlive then s.disconnectLocked e else s
  { s.setConnection e fun _ => {
      ipAddress := some ip
      worker := some s.nextWorker
      handshakeDone := false
      diedSignalled := false
      connecting := some h } with
    workers := Function.update s.workers s.nextWorker ⟨e, .running⟩
    nextWorker := s.nextWorker + 1 }

/-- The exit of a worker that nobody disconnected; `_fire_died` calls back once a worker. -/
def workerExit (w : ℕ) (unexpected : Bool) (s : Pool) : Pool :=
  let e := (s.workers w).entry
  let conn := (s.entries e).connection
  let s' := s.setConnection e fun conn => { conn with handshakeDone := false }
  if (unexpected ∨ conn.handshakeDone) ∧ ¬ conn.diedSignalled then
    (s'.setConnection e fun conn => { conn with diedSignalled := true }).setWorker w .died
  else s'.setWorker w .ended

/-- `_on_connection_died` reads the connection's address. -/
def diedRead (w : ℕ) (s : Pool) : Pool :=
  match (s.entries (s.workers w).entry).connection.ipAddress with
  | none => s.setWorker w .ended
  | some ip => s.setWorker w (.waiting ip)

/-! ## The registry -/

/-- `timer.cancel()`; a timer that has fired is past it. -/
def cancelTimer (t : Option ℕ) (s : Pool) : Pool :=
  match t with
  | none => s
  | some t => if (s.timers t).status = .armed then s.setTimer t .cancelled else s

/-- Take a reference, for a new caller. -/
def reference (ip : String) (e : ℕ) (s : Pool) : Pool :=
  let s := (s.setEntry e fun entry => { entry with refCount := entry.refCount + 1 }).note
    (.acquired e)
  { s with
    holders := s.holders.set s.nextHolder ⟨ip, e, .acquired⟩
    nextHolder := s.nextHolder + 1 }

/-- Register a new entry. -/
def register (ip : String) (s : Pool) : Pool :=
  { s with
    entries := Function.update s.entries s.nextEntry { ip }
    instances := s.instances.set ip s.nextEntry
    nextEntry := s.nextEntry + 1 }

/-- A new entry, and its first reference. -/
def createInstance (ip : String) (s : Pool) : Pool :=
  (s.register ip).reference ip s.nextEntry

/-- A new reference to an entry that may be waiting for its teardown. -/
def rejoin (ip : String) (e : ℕ) (s : Pool) : Pool :=
  let timer := (s.entries e).disconnectTimer
  let s := if timer.isSome then
      (s.cancelTimer timer).setEntry e fun entry =>
        { entry with disconnectTimer := none, state := .active }
    else s
  s.reference ip e

/-- `_get_instance_locked`, up to the `disconnect()` of an entry found dead. -/
def getInstance (ip : String) (s : Pool) : Pool :=
  match s.instances.get? ip with
  | none => s.createInstance ip
  | some e =>
    let entry := s.entries e
    if entry.connection.worker.any (fun w => !s.isAlive w) ∧ entry.state = .active then
      { s.cancelTimer entry.disconnectTimer with teardown := some ⟨ip, e, true, false⟩ }
    else s.rejoin ip e

/-- Give a reference back. -/
def dereference (e : ℕ) (s : Pool) : Pool :=
  s.setEntry e fun entry => { entry with refCount := entry.refCount - 1 }

/-- Arm the timer of an entry that nobody has any more. -/
def arm (now : Time) (ip : String) (e : ℕ) (s : Pool) : Pool :=
  let t := s.nextTimer
  let s := { s with
    timers := Function.update s.timers t ⟨ip, now, .armed⟩
    nextTimer := t + 1 }
  (s.setEntry e fun entry =>
    { entry with disconnectTimer := some t, state := .draining }).note (.dropped e t now)

/-- `release_instance` of an entry still registered. -/
def releaseEntry (now : Time) (ip : String) (e : ℕ) (s : Pool) : Pool :=
  let entry := s.entries e
  if entry.refCount ≤ 0 then s
  else if entry.refCount - 1 > 0 then s.dereference e
  else ((s.dereference e).cancelTimer entry.disconnectTimer).arm now ip e

/-- `release_instance` by address and, if the caller gives it, by entry. -/
def releaseInstance (now : Time) (ip : String) (instance_ : Option ℕ) (s : Pool) : Pool :=
  match s.instances.get? ip with
  | none => s
  | some e =>
    if instance_.any (· ≠ e) then s else s.releaseEntry now ip e

/-- `_delayed_disconnect`, up to its `disconnect()`. -/
def delayedDisconnect (now : Time) (t : ℕ) (s : Pool) : Pool :=
  let ip := (s.timers t).ip
  let s := s.setTimer t .finished
  match s.instances.get? ip with
  | none => s
  | some e =>
    let entry := s.entries e
    if entry.refCount > 0 ∨ entry.state = .tearingDown then s
    else
      { (s.setEntry e fun entry => { entry with state := .tearingDown }).note
          (.tornDown e t now) with teardown := some ⟨ip, e, false, false⟩ }

/-- The `disconnect()` inside a section. -/
def disconnectTorn (td : Teardown) (s : Pool) : Pool :=
  { s.disconnectLocked td.entry with teardown := some { td with disconnected := true } }

/-- The end of a section: the entry is deleted, and one found dead is replaced. -/
def finishTeardown (td : Teardown) (s : Pool) : Pool :=
  let s := { s with instances := s.instances.erase td.ip, teardown := none }
  if td.evicting then s.createInstance td.ip else s

/-- `_on_connection_died` under the lock. -/
def onConnectionDied (w : ℕ) (ip : String) (s : Pool) : Pool :=
  let s := s.setWorker w .ended
  match s.instances.get? ip with
  | none => s
  | some e =>
    if e ≠ (s.workers w).entry then s
    else
      let s := s.cancelTimer (s.entries e).disconnectTimer
      { s with instances := s.instances.erase ip }

/-! ## Callers -/

/-- Set where a caller is. -/
def setPhase (h : ℕ) (holder : Holder) (phase : HolderPhase) (s : Pool) : Pool :=
  { s with holders := s.holders.set h { holder with phase } }

/-- A caller's look at its connection. -/
def check (h : ℕ) (holder : Holder) (s : Pool) : Pool :=
  if s.isConnected holder.entry ∧
      (s.entries holder.entry).connection.ipAddress = some holder.ip then
    s.setPhase h holder .holding
  else s.setPhase h holder .unconnected

/-- Whether `connect` joins the session there is. -/
def isWarm (e : ℕ) (ip : String) (s : Pool) : Bool :=
  s.isConnected e && (s.entries e).connection.ipAddress = some ip

/-- `connect`, up to its wait for a new worker. -/
def connect (h : ℕ) (holder : Holder) (s : Pool) : Pool :=
  if s.isWarm holder.entry holder.ip then s.setPhase h holder .holding
  else (s.startWorker h holder.entry holder.ip).setPhase h holder .connecting

/-- The rest of `_connect_locked`. -/
def connectDone (h : ℕ) (holder : Holder) (timedOut : Bool) (s : Pool) : Pool :=
  let e := holder.entry
  let s' := if timedOut ∨ ¬ (s.entries e).connection.handshakeDone then s.disconnectLocked e else s
  (s'.setConnection e fun conn => { conn with connecting := none }).setPhase h holder .holding

/-- A caller has left. -/
def leave (h : ℕ) (holder : Holder) (s : Pool) : Pool :=
  { s.note (.released holder.entry) with holders := s.holders.erase h }

/-- The exit of `acquire_connection`, or of a caller that releases by its address alone. -/
def release (now : Time) (h : ℕ) (holder : Holder) (guarded : Bool) (s : Pool) : Pool :=
  (s.leave h holder).releaseInstance now holder.ip (if guarded then some holder.entry else none)

/-! ## Runs -/

/-- What the threads do: a caller enters, looks at its connection, connects, returns from
`connect`, and leaves, with its entry or without; a section disconnects its entry, and ends; a
timer fires, and its callback gets the lock; a worker is ready, exits, and its callback reads
the address, and gets the lock. -/
inductive PoolEvent
  | getInstance (ip : String)
  | check (h : ℕ)
  | connect (h : ℕ)
  | connectDone (h : ℕ) (timedOut : Bool)
  | release (h : ℕ) (guarded : Bool)
  | disconnect
  | finish
  | timerFires (t : ℕ)
  | timerRuns (t : ℕ)
  | workerReady (w : ℕ)
  | workerExits (w : ℕ) (unexpected : Bool)
  | diedRead (w : ℕ)
  | diedRuns (w : ℕ)
deriving DecidableEq, Repr

/-- Act on a caller. -/
def onHolder (h : ℕ) (f : Holder → Pool → Pool) (s : Pool) : Pool :=
  match s.holders.get? h with
  | none => s
  | some holder => f holder s

/-- What an event does. -/
def handle (now : Time) (s : Pool) : PoolEvent → Pool
  | .getInstance ip => s.getInstance ip
  | .check h => s.onHolder h (check h)
  | .connect h => s.onHolder h (connect h)
  | .connectDone h timedOut => s.onHolder h fun holder => connectDone h holder timedOut
  | .release h guarded => s.onHolder h fun holder => release now h holder guarded
  | .disconnect =>
    match s.teardown with
    | none => s
    | some td => s.disconnectTorn td
  | .finish =>
    match s.teardown with
    | none => s
    | some td => s.finishTeardown td
  | .timerFires t => s.setTimer t .fired
  | .timerRuns t => s.delayedDisconnect now t
  | .workerReady w =>
    s.setConnection (s.workers w).entry fun conn => { conn with handshakeDone := true }
  | .workerExits w unexpected => s.workerExit w unexpected
  | .diedRead w => s.diedRead w
  | .diedRuns w =>
    match (s.workers w).status with
    | .waiting ip => s.onConnectionDied w ip
    | _ => s

/-- One event of a run, at a time. -/
def step (s : Pool) (a : Time × PoolEvent) : Pool := { s with clock := a.1 }.handle a.1 a.2

/-- The phase of a caller, if there is one. -/
def phase (s : Pool) (h : ℕ) : Option HolderPhase := (s.holders.get? h).map Holder.phase

/-- Whether nobody is inside `connect` on a caller's connection. -/
def lifecycleFree (s : Pool) (h : ℕ) : Prop :=
  (s.holders.get? h).all (fun x => (s.entries x.entry).connection.connecting.isNone) = true

/-- Whether a callback waits for the lock. -/
def isWaiting : WorkerStatus → Bool
  | .waiting _ => true
  | _ => false

/-- When an event can happen: `_instance_lock` and `_lifecycle_lock` are had by one thread at
a time, a timer fires when its time has come and it is not cancelled. -/
def CanHappen (s : Pool) (now : Time) : PoolEvent → Prop
  | .getInstance _ => s.teardown = none
  | .check h => s.phase h = some .acquired
  | .connect h => s.phase h = some .unconnected ∧ s.lifecycleFree h
  | .connectDone h _ => s.phase h = some .connecting
  | .release h _ => s.teardown = none ∧ (s.phase h).isSome = true ∧ s.phase h ≠ some .connecting
  | .disconnect => s.teardown.any (fun td => !td.disconnected &&
      (s.entries td.entry).connection.connecting.isNone) = true
  | .finish => s.teardown.any (·.disconnected) = true
  | .timerFires t => (s.timers t).status = .armed ∧ (s.timers t).armedAt + gracePeriod ≤ now
  | .timerRuns t => s.teardown = none ∧ (s.timers t).status = .fired
  | .workerReady w => (s.workers w).status = .running
  | .workerExits w _ => (s.workers w).status = .running
  | .diedRead w => (s.workers w).status = .died
  | .diedRuns w => s.teardown = none ∧ isWaiting (s.workers w).status = true

/-- An event happens when it can, and time does not run back. -/
def Possible (s : Pool) (a : Time × PoolEvent) : Prop := s.clock ≤ a.1 ∧ s.CanHappen a.1 a.2

instance CanHappen.decidable (s : Pool) (now : Time) :
    (e : PoolEvent) → Decidable (s.CanHappen now e)
  | .getInstance _ => inferInstanceAs (Decidable (_ = _))
  | .check _ => inferInstanceAs (Decidable (_ = _))
  | .connect _ => inferInstanceAs (Decidable (_ = _ ∧ _ = _))
  | .connectDone _ _ => inferInstanceAs (Decidable (_ = _))
  | .release _ _ => inferInstanceAs (Decidable (_ = _ ∧ _ = _ ∧ _ ≠ _))
  | .disconnect => inferInstanceAs (Decidable (_ = _))
  | .finish => inferInstanceAs (Decidable (_ = _))
  | .timerFires t => inferInstanceAs
      (Decidable ((s.timers t).status = .armed ∧ (s.timers t).armedAt + gracePeriod ≤ now))
  | .timerRuns _ => inferInstanceAs (Decidable (_ = _ ∧ _ = _))
  | .workerReady _ => inferInstanceAs (Decidable (_ = _))
  | .workerExits _ _ => inferInstanceAs (Decidable (_ = _))
  | .diedRead _ => inferInstanceAs (Decidable (_ = _))
  | .diedRuns _ => inferInstanceAs (Decidable (_ = _ ∧ _ = _))

instance Possible.decidable (s : Pool) (a : Time × PoolEvent) : Decidable (s.Possible a) :=
  inferInstanceAs (Decidable (s.clock ≤ a.1 ∧ s.CanHappen a.1 a.2))

/-- A pool that has just been loaded. -/
def Initial (s : Pool) : Prop := ∃ now, s = fresh now

/-- The states of the runs whose every step meets `ok` besides being possible. -/
def ReachableWhen (ok : Pool → Time × PoolEvent → Prop) : Pool → Prop :=
  Library.Reach Initial step fun s a => s.Possible a ∧ ok s a

/-- The states of all runs. -/
def Reachable : Pool → Prop := ReachableWhen fun _ _ => True

end Pool

end Bmdwire
