import Bmdwire.Library.Dict
import Bmdwire.Model.Transfer
import Mathlib.Logic.Function.Basic

/-!
# The data of the connection pool

`ATEMInstanceManager` shares one connection a switcher among its callers. An entry of its
registry holds a connection, a reference count and the grace timer that will take it down.
Entries, timers and workers are objects, numbered as they are made; an entry made by
`get_instance` has a connection of its own, so one number stands for both.

`_instance_lock` guards the registry, and stays taken while an eviction or a teardown waits
in `disconnect()`: `teardown` says who is in there. A connection's `_lifecycle_lock` stays
taken while `connect` waits for its worker: `connecting` says for whom.
-/

set_option autoImplicit false

namespace Bmdwire

open Library (Dict)

/-- `DISCONNECT_GRACE_PERIOD`. -/
def gracePeriod : Time := milliseconds 2000

/-- The fields of an `ATEMConnection` that its life depends on. -/
structure Connection where
  ipAddress : Option String := none
  worker : Option ℕ := none
  handshakeDone : Bool := false
  diedSignalled : Bool := false
  connecting : Option ℕ := none
deriving DecidableEq, Repr

/-- The lifecycle states of an entry. -/
inductive EntryState
  | active
  | draining
  | tearingDown
deriving DecidableEq, Repr

/-- An entry, with the address it is made for. -/
structure Entry where
  ip : String
  connection : Connection := {}
  refCount : ℤ := 0
  disconnectTimer : Option ℕ := none
  state : EntryState := .active
deriving DecidableEq, Repr

/-- A timer waits, is cancelled in time, or has fired: its callback then waits for the lock,
whatever `cancel` does. -/
inductive TimerStatus
  | armed
  | cancelled
  | fired
  | finished
deriving DecidableEq, Repr

/-- A grace timer, for an address, and when it was armed. -/
structure GraceTimer where
  ip : String
  armedAt : Time
  status : TimerStatus
deriving DecidableEq, Repr

/-- A worker runs its session; or has died of itself, its session closed, and is about to
call `_on_connection_died`, or has read the connection's address there and waits for the
lock; or has ended. -/
inductive WorkerStatus
  | running
  | died
  | waiting (ip : String)
  | ended
deriving DecidableEq, Repr

/-- A worker thread, of the connection of an entry. -/
structure Worker where
  entry : ℕ
  status : WorkerStatus
deriving DecidableEq, Repr

/-- Where a caller is in `acquire_connection`: before its look at the connection, on its way
to `connect`, inside it, or past it. -/
inductive HolderPhase
  | acquired
  | unconnected
  | connecting
  | holding
deriving DecidableEq, Repr

/-- A caller of `acquire_connection` that has an entry for its address. -/
structure Holder where
  ip : String
  entry : ℕ
  phase : HolderPhase
deriving DecidableEq, Repr

/-- The entry that is being disconnected under `_instance_lock`: for a caller that found its
worker dead and makes a new one, or by its timer; and whether its `disconnect()` is over. -/
structure Teardown where
  ip : String
  entry : ℕ
  evicting : Bool
  disconnected : Bool
deriving DecidableEq, Repr

/-- An entry of the log: a caller got an entry, a caller gave one back, an entry's count fell
to zero and armed a timer, a timer took an entry down. -/
inductive PoolAct
  | acquired (entry : ℕ)
  | released (entry : ℕ)
  | dropped (entry timer : ℕ) (at_ : Time)
  | tornDown (entry timer : ℕ) (at_ : Time)
deriving DecidableEq, Repr

/-- The pool, its callers, timers and workers, and the log. -/
structure Pool where
  instances : Dict String ℕ
  entries : ℕ → Entry
  nextEntry : ℕ
  timers : ℕ → GraceTimer
  nextTimer : ℕ
  workers : ℕ → Worker
  nextWorker : ℕ
  holders : Dict ℕ Holder
  nextHolder : ℕ
  teardown : Option Teardown
  clock : Time
  log : List PoolAct

/-- The pool at the start of the process. -/
def Pool.fresh (now : Time) : Pool where
  instances := .empty
  entries := fun _ => { ip := "" }
  nextEntry := 0
  timers := fun _ => ⟨"", 0, .finished⟩
  nextTimer := 0
  workers := fun _ => ⟨0, .ended⟩
  nextWorker := 0
  holders := .empty
  nextHolder := 0
  teardown := none
  clock := now
  log := []

end Bmdwire
