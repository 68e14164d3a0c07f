import Bmdwire.Program.LoopErrors

/-!
# The client, all of it

The protocol with its transport and its lane, and everybody who does something to it: the thread
that pumps `loop`, the UDP thread, the timer that wakes the loop, and the threads that call
`download`, `upload`, `queue_clear`, `dequeue_clear`, `abort_transfers` and `release_locks_now`. A
`Wakeup` is an item of the receive queue; the lane counts those that are there.
-/

set_option autoImplicit false

namespace Bmdwire

/-- The messages of the lane: what `save_field_data` hands to its handlers. -/
def LaneEvent.message : LaneEvent → Bool
  | .lockObtained _ => true
  | .lockState _ _ => true
  | .fileTransferContinueData _ _ _ => true
  | .fileTransferData _ _ => true
  | .fileTransferError _ _ => true
  | .fileTransferDataComplete _ => true
  | _ => false

/-- The calls of other threads. -/
def LaneEvent.called : LaneEvent → Bool
  | .download _ _ => true
  | .upload _ _ _ => true
  | .queueClear _ _ => true
  | .dequeueClear _ => true
  | .abortTransfers => true
  | .releaseLocksNow => true
  | _ => false

/-- What happens to a client: a turn of the packet loop, given what each field comes to; a call;
the timer looking at its wake; a caller that wakes the loop; an event of the transport. -/
inductive ClientEvent (κ ι α : Type)
  | turn (handling : Bytes → Bytes → FieldHandling κ ι α)
  | call (e : LaneEvent)
  | fireWake
  | poke
  | udp (e : Udp.UdpEvent)

namespace LoopState

variable {κ ι α : Type} [DecidableEq κ] [DecidableEq ι] (keys : FieldKeys κ α) (socket : Socket)
  (aggressive : Bool)

/-- A `Wakeup` put in the receive queue. -/
def woken (s : LoopState κ ι α) : LoopState κ ι α :=
  let udp := s.protocol.udp
  { s with protocol := { s.protocol with
      udp := { udp with threadRecvQueue := udp.threadRecvQueue ++ [.wakeup] } } }

/-- A turn of the packet loop. A `Wakeup` that is taken is one less that waits. -/
def clientTurn (handling : Bytes → Bytes → FieldHandling κ ι α) (env : Env)
    (s : LoopState κ ι α) : LoopState κ ι α :=
  match s.protocol.udp.receiveTurn socket env.now aggressive with
  | (.ok (some .wakeup), udp) =>
    { protocol := { s.protocol with udp }, lane := s.lane.step (env, .wakeup) }
  | _ => (s.turn keys handling socket env aggressive).2

/-- One event. -/
def clientStep (s : LoopState κ ι α) (a : Env × ClientEvent κ ι α) : LoopState κ ι α :=
  match a.2 with
  | .turn handling => s.clientTurn keys socket aggressive handling a.1
  | .call e => { s with lane := s.lane.step (a.1, e) }
  | .fireWake =>
    let t := { s with lane := s.lane.step (a.1, .fireWake) }
    match s.lane.wakeDue with
    | some due => if a.1.now < due then t else t.woken
    | none => t
  | .poke => { s with lane := s.lane.step (a.1, .poke) }.woken
  | .udp e =>
    { s with protocol := { s.protocol with
        udp := s.protocol.udp.step socket aggressive (a.1.now, e) } }

/-- The clock does not go back. The fields of the lane are its messages, the state of a lock stored
besides; a call is one of those other threads make, of a task that `queue_clear` returned; and the
packets, the mark and the goodbye are the loop's, a `Wakeup` somebody's. -/
def ClientPossible (s : LoopState κ ι α) (a : Env × ClientEvent κ ι α) : Prop :=
  s.lane.clock ≤ a.1.now ∧
    match a.2 with
    | .turn handling => ∀ code contents e f, handling code contents = .message e f →
        e.message = true ∧ (f.isSome → ∃ store state, e = .lockState store state)
    | .call e => e.called = true ∧ s.lane.Possible (a.1, e)
    | .fireWake => True
    | .poke => True
    | .udp e => s.protocol.udp.Possible (a.1.now, e) ∧ e ≠ .receiveTurn ∧ e ≠ .wakeup ∧
        e ≠ .markNextConnected ∧ e ≠ .closeSession

/-- A client just made. -/
def ClientInitial (s : LoopState κ ι α) : Prop :=
  (∃ now, s.protocol = { udp := .fresh now }) ∧ s.lane.Initial

/-- The clients of all runs. -/
def ClientReachable : LoopState κ ι α → Prop :=
  Library.Reach ClientInitial (clientStep keys socket aggressive) ClientPossible

end LoopState

end Bmdwire
