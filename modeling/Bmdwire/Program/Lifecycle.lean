import Bmdwire.Library.Runs

/-!
# Starting and ending a worker

`connect` and `disconnect` of `ATEMConnection`, whose callers take turns under `_lifecycle_lock`,
and the workers they start. The flags they share have no lock: each read and each write of one is a
step of its own, and the steps of the caller and of the workers come in any order. What a worker
does with its protocol is an outcome here. A callback for `on_died` is set.
-/

set_option autoImplicit false

namespace Bmdwire

/-- The flags: `_stop_event`, `_ready_event`, `_handshake_done`, `_died_signalled`. -/
inductive LifeFlag
  | stopEvent
  | readyEvent
  | handshakeDone
  | diedSignalled
deriving DecidableEq, Repr

/-- Where `_run` is. Before `wait_ready` has returned: at its work, or about to set `_ready_event`
and return. Then: about to set `_handshake_done`, about to set `_ready_event`, at the test of the
main loop, in its body. At its end, with `unexpected_exit`: at the test of `_stop_event`, at that of
`_handshake_done`, about to clear it; in `_fire_died`, at the test of `_died_signalled`, about to
set it, about to call back. -/
inductive RunStage
  | starting
  | failing
  | dumped
  | announcing
  | testing
  | pumping
  | leaving (unexpected : Bool)
  | checking (unexpected : Bool)
  | ending (unexpected : Bool)
  | firing
  | marking
  | calling
  | gone
deriving DecidableEq, Repr

/-- What the worker's own work comes to: it goes on, it ends in one of the ways that `_run` returns
from, or an exception leaves it. -/
inductive RunOutcome
  | goesOn
  | fails
  | raises
deriving DecidableEq, Repr

/-- A worker, and what has come of it: whether it has set `_handshake_done`; whether an exception
took it out of its work, once it is out; whether a disconnect was begun for it; and how often it has
called back. -/
structure LifeWorker where
  stage : RunStage := .gone
  announced : Bool := false
  left : Option Bool := none
  told : Bool := false
  calls : ℕ := 0
deriving DecidableEq, Repr

/-- Where the caller with the lock is. `_connect_locked`: at its first test, about to clear the
flags left, about to start a worker, waiting, at its last test. `_disconnect_locked`, with the
address to connect to behind it: about to set or clear each flag, in the joins before and after the
socket is closed, about to forget the worker. -/
inductive CallerStage
  | idle
  | opening (ip : String)
  | resetting (ip : String) (rest : List LifeFlag)
  | starting
  | waiting
  | verdict
  | signalling (next : Option String)
  | dropping (next : Option String)
  | stopping (next : Option String)
  | joining (next : Option String)
  | forcing (next : Option String)
  | rejoining (next : Option String)
  | forgetting (next : Option String)
  | clearing (next : Option String)
deriving DecidableEq, Repr

/-- A connection, as far as its workers go. -/
structure Lifecycle where
  flags : LifeFlag → Bool := fun _ => false
  worker : Option ℕ := none
  ipAddress : Option String := none
  workers : ℕ → LifeWorker := fun _ => {}
  nextWorker : ℕ := 0
  caller : CallerStage := .idle

/-- What happens: a caller gets the lock, for `connect` or for `disconnect`; it takes its next
step, whose wait may have run out; a worker takes its next step. -/
inductive LifeEvent
  | connect (ip : String)
  | disconnect
  | caller (timesOut : Bool)
  | worker (w : ℕ) (outcome : RunOutcome)
deriving DecidableEq, Repr

namespace Lifecycle

def setFlag (f : LifeFlag) (b : Bool) (s : Lifecycle) : Lifecycle :=
  { s with flags := Function.update s.flags f b }

def setWorker (w : ℕ) (x : LifeWorker) (s : Lifecycle) : Lifecycle :=
  { s with workers := Function.update s.workers w x }

def setStage (w : ℕ) (stage : RunStage) (s : Lifecycle) : Lifecycle :=
  s.setWorker w { s.workers w with stage }

/-- `worker.is_alive()` -/
def alive (w : ℕ) (s : Lifecycle) : Bool := (s.workers w).stage ≠ .gone

/-- `self._worker is not None and self._worker.is_alive()` -/
def workerAlive (s : Lifecycle) : Bool := s.worker.any fun w => s.alive w

/-- `is_connected` -/
def isConnected (s : Lifecycle) : Bool := s.flags .handshakeDone && s.workerAlive

/-- A worker goes out of its work. -/
def leave (w : ℕ) (unexpected : Bool) (s : Lifecycle) : Lifecycle :=
  s.setWorker w { s.workers w with stage := .leaving unexpected, left := some unexpected }

/-- The next step of `_run`. -/
def runStep (w : ℕ) (outcome : RunOutcome) (s : Lifecycle) : Lifecycle :=
  match (s.workers w).stage with
  | .starting =>
    match outcome with
    | .goesOn => s.setStage w .dumped
    | .fails => s.setStage w .failing
    | .raises => s.leave w true
  | .failing => (s.setFlag .readyEvent true).leave w false
  | .dumped =>
    (s.setFlag .handshakeDone true).setWorker w
      { s.workers w with stage := .announcing, announced := true }
  | .announcing => (s.setFlag .readyEvent true).setStage w .testing
  | .testing =>
    -- what is logged before the loop may raise
    if outcome = .raises then s.leave w true
    else if s.flags .stopEvent then s.leave w false
    else s.setStage w .pumping
  | .pumping => if outcome = .raises then s.leave w true else s.setStage w .testing
  | .leaving unexpected =>
    s.setStage w (if s.flags .stopEvent then .ending unexpected else .checking unexpected)
  | .checking unexpected => s.setStage w (.ending (unexpected || s.flags .handshakeDone))
  | .ending unexpected =>
    (s.setFlag .handshakeDone false).setStage w (if unexpected then .firing else .gone)
  | .firing => s.setStage w (if s.flags .diedSignalled then .gone else .marking)
  | .marking => (s.setFlag .diedSignalled true).setStage w .calling
  | .calling =>
    s.setWorker w { s.workers w with stage := .gone, calls := (s.workers w).calls + 1 }
  | .gone => s

/-- The flags that `_connect_locked` clears. -/
def cleared : List LifeFlag := [.stopEvent, .readyEvent, .handshakeDone, .diedSignalled]

/-- A disconnect is begun for the worker there is. -/
def tell (s : Lifecycle) : Lifecycle :=
  match s.worker with
  | none => s
  | some w => s.setWorker w { s.workers w with told := true }

/-- The next step of `_connect_locked` or of `_disconnect_locked`. One that waits for a flag or a
worker takes none until that is there, or its time is over. -/
def callerStep (timesOut : Bool) (s : Lifecycle) : Lifecycle :=
  match s.caller with
  | .idle => s
  | .opening ip =>
    { s with caller := if s.workerAlive then .signalling (some ip) else .resetting ip cleared }
  | .resetting ip (f :: rest) => { s.setFlag f false with caller := .resetting ip rest }
  | .resetting ip [] => { s with ipAddress := some ip, caller := .starting }
  | .starting =>
    { s.setWorker s.nextWorker { stage := .starting } with
      worker := some s.nextWorker, nextWorker := s.nextWorker + 1, caller := .waiting }
  | .waiting =>
    if s.flags .readyEvent then { s with caller := .verdict }
    else if timesOut then { s with caller := .signalling none }
    else s
  | .verdict =>
    { s with caller := if s.flags .handshakeDone then .idle else .signalling none }
  | .signalling next => { s.tell.setFlag .diedSignalled true with caller := .dropping next }
  | .dropping next => { s.setFlag .handshakeDone false with caller := .stopping next }
  | .stopping next => { s.setFlag .stopEvent true with caller := .joining next }
  | .joining next =>
    if s.workerAlive then if timesOut then { s with caller := .forcing next } else s
    else { s with caller := .forgetting next }
  | .forcing next => { s with caller := .rejoining next }
  | .rejoining next =>
    if s.workerAlive ∧ ¬ timesOut then s else { s with caller := .forgetting next }
  | .forgetting next => { s with worker := none, ipAddress := none, caller := .clearing next }
  | .clearing next =>
    { s.setFlag .readyEvent false with
      caller := match next with
        | none => .idle
        | some ip => .resetting ip cleared }

/-- One event. A `connect` that finds its session there joins it. -/
def step (s : Lifecycle) (e : LifeEvent) : Lifecycle :=
  match e with
  | .connect ip =>
    if s.isConnected ∧ s.ipAddress = some ip then s else { s with caller := .opening ip }
  | .disconnect => { s with caller := .signalling none }
  | .caller timesOut => s.callerStep timesOut
  | .worker w outcome => s.runStep w outcome

/-- The lock is had by one caller at a time. -/
def Possible (s : Lifecycle) (e : LifeEvent) : Prop :=
  match e with
  | .connect _ => s.caller = .idle
  | .disconnect => s.caller = .idle
  | .caller _ => True
  | .worker _ _ => True

instance Possible.decidable (s : Lifecycle) : (e : LifeEvent) → Decidable (s.Possible e)
  | .connect _ => inferInstanceAs (Decidable (_ = _))
  | .disconnect => inferInstanceAs (Decidable (_ = _))
  | .caller _ => inferInstanceAs (Decidable True)
  | .worker _ _ => inferInstanceAs (Decidable True)

/-- The join after the socket is closed finds the worker gone, so that none is left to itself. -/
def Joined (s : Lifecycle) (e : LifeEvent) : Prop :=
  match e, s.caller with
  | .caller true, .rejoining _ => s.workerAlive = false
  | _, _ => True

instance Joined.decidable (s : Lifecycle) (e : LifeEvent) : Decidable (s.Joined e) := by
  unfold Joined
  split <;> infer_instance

/-- A connection just made. -/
def Initial (s : Lifecycle) : Prop := s = {}

/-- The states of the runs whose every step meets `ok` besides being possible. -/
def ReachableWhen (ok : Lifecycle → LifeEvent → Prop) : Lifecycle → Prop :=
  Library.Reach Initial step fun s e => s.Possible e ∧ ok s e

end Lifecycle

end Bmdwire
