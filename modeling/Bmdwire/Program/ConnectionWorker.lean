import Bmdwire.Program.PacketLoop

/-!
# The worker, from its start to its end

`ATEMConnection._run` connects the protocol, waits in `wait_ready` for the dump of the session, and
then pumps `loop` until it is told to stop or the UDP thread is gone. Other threads look at
`is_ready`, which follows the events `connected` and `disconnected` that `loop` raises. A turn of
`receive_packet`, and a look at the clock or at a flag, is a step of its own.
-/

set_option autoImplicit false

namespace Bmdwire

/-- What `loop` raises about the session. -/
inductive SessionSignal
  | connected
  | disconnected
deriving DecidableEq, Repr

namespace AtemProtocol

variable {κ ι α : Type} [DecidableEq κ] [DecidableEq ι] (keys : FieldKeys κ α)
  (act : Bytes → Bytes → FieldAction κ ι α)

/-- What `loop` raises on what `receive_packet` returns. -/
def raisesOn (r : Udp.RecvResult) (s : AtemProtocol κ ι α) : Option SessionSignal :=
  match r with
  | .none => if s.connected then some .disconnected else none
  | .connectionReady => some .connected
  | .wakeup => none
  | .transferQueueFlushed => none
  | .packet p =>
    let d := decodePacket (p.data.getD [])
    let r := { s with connected := true }.saveFields keys act d.1
    if r.1 ∨ d.2 = .connectionError then some .disconnected else none

/-- What a turn raises. -/
def turnRaises (socket : Socket) (now : Time) (aggressive : Bool) (s : AtemProtocol κ ι α) :
    Option SessionSignal :=
  let r := s.udp.receiveTurn socket now aggressive
  match r.1 with
  | .ok (some result) => { s with udp := r.2 }.raisesOn keys act result
  | _ => none

/-- `initialized`, with the video mode in the mixer state. -/
def dumped (s : AtemProtocol κ ι α) : Bool :=
  s.initialized && (s.mixer.get? keys.videoMode).isSome

end AtemProtocol

/-! ## Waiting for the dump -/

/-- How long `wait_ready` waits: at all, and for something from the switcher, before its first
answer and after. -/
structure WaitLimits where
  timeout : Time
  stallTimeout : Option Time
  helloTimeout : Option Time

/-- The limits of `_run`: `CONNECT_MAX`, `CONNECT_STALL_TIMEOUT` and `CONNECT_HELLO_TIMEOUT`. -/
def connectLimits : WaitLimits where
  timeout := milliseconds 60000
  stallTimeout := some (milliseconds 5000)
  helloTimeout := some (milliseconds 10000)

/-- How `wait_ready` gives up: `TimeoutError` at its deadline or in a silence, `NoFreeConnection`,
`WaitAborted`. -/
inductive WaitError
  | timedOut
  | stalled
  | noFreeConnection
  | aborted
deriving DecidableEq, Repr

/-- Whether nothing has come for too long, given `last_rx_monotonic`. -/
def WaitLimits.stalled (limits : WaitLimits) (started lastRx now : Time) : Bool :=
  match limits.stallTimeout with
  | none => false
  | some stall =>
    let limit := if started < lastRx then stall else limits.helloTimeout.getD stall
    limit < now - max started lastRx

/-- Where `wait_ready` is: at the head of its loop, in `loop`, or past it. -/
inductive WaitPlace
  | head
  | looping
  | looped
deriving DecidableEq, Repr

/-- Where `_run` is: before `connect`; in `wait_ready`; past it; at the test of the main loop; in
`loop`; past it; at its end. -/
inductive RunPlace
  | starting
  | waiting (place : WaitPlace)
  | dumped
  | round
  | pumping
  | pumped
  | exited
deriving DecidableEq, Repr

/-- A worker, its protocol, and the flags that other threads look at. `heard` is the flag that
`wait_ready` keeps for `connected`. -/
structure ConnectionWorker (κ ι α : Type) where
  protocol : AtemProtocol κ ι α
  place : RunPlace := .starting
  started : Time := 0
  heard : Bool := false
  sessionReady : Bool := false
  handshakeDone : Bool := false
  readyEvent : Bool := false
  stopEvent : Bool := false
  waitError : Option WaitError := none

/-- What happens: the worker's steps; another thread asks it to stop; or an event of the
transport. `look` is given `last_rx_monotonic`, `turn` what each field comes to. -/
inductive WorkerEvent (κ ι α : Type)
  | connect
  | head
  | turn (act : Bytes → Bytes → FieldAction κ ι α)
  | look (lastRx : Time)
  | announce
  | nextRound
  | checkThread
  | stop
  | other (e : Udp.UdpEvent)

namespace ConnectionWorker

variable {κ ι α : Type} [DecidableEq κ] [DecidableEq ι] (keys : FieldKeys κ α) (socket : Socket)
  (aggressive : Bool) (limits : WaitLimits)

/-- `is_connected`. -/
def isConnected (w : ConnectionWorker κ ι α) : Bool :=
  w.handshakeDone && decide (w.place ≠ .exited)

/-- `is_ready`. -/
def isReady (w : ConnectionWorker κ ι α) : Bool := w.sessionReady && w.isConnected

/-- `_run` ends: `_close_protocol` says goodbye. -/
def exit (now : Time) (w : ConnectionWorker κ ι α) : ConnectionWorker κ ι α :=
  { w with
    protocol := { w.protocol with udp := w.protocol.udp.closeSession socket now }
    handshakeDone := false
    place := .exited }

/-- `_run` ends before the handshake is done, and sets `_ready_event`. -/
def givesUp (now : Time) (error : Option WaitError) (w : ConnectionWorker κ ι α) :
    ConnectionWorker κ ι α :=
  { w.exit socket now with readyEvent := true, waitError := error }

/-- A handler of `connected` or `disconnected`. -/
def signalled (signal : Option SessionSignal) (w : ConnectionWorker κ ι α) :
    ConnectionWorker κ ι α :=
  match signal with
  | none => w
  | some .connected => { w with sessionReady := true, heard := true }
  | some .disconnected => { w with sessionReady := false }

/-- A turn of `receive_packet` in `loop`, which goes on at `back` when it has come back. -/
def pump (now : Time) (act : Bytes → Bytes → FieldAction κ ι α) (back : RunPlace)
    (w : ConnectionWorker κ ι α) : ConnectionWorker κ ι α :=
  let place :=
    match (w.protocol.udp.receiveTurn socket now aggressive).1 with
    | .ok none => w.place
    | _ => back
  { w.signalled (w.protocol.turnRaises keys act socket now aggressive) with
    protocol := (w.protocol.turn keys act socket now aggressive).2
    place }

/-- `protocol.connect()`, and `wait_ready` up to its loop. -/
def connect (now : Time) (w : ConnectionWorker κ ι α) : ConnectionWorker κ ι α :=
  let r := w.protocol.udp.connect socket now false
  let w := { w with protocol := { w.protocol with udp := r.2 } }
  if r.1 then w.givesUp socket now none
  else if w.protocol.dumped keys then { w with place := .dumped }
  else { w with started := now, place := .waiting .head }

/-- The tests of `wait_ready` behind `loop`. -/
def look (now lastRx : Time) (w : ConnectionWorker κ ι α) : ConnectionWorker κ ι α :=
  if w.protocol.udp.refused then w.givesUp socket now (some .noFreeConnection)
  else if limits.stalled w.started lastRx now then w.givesUp socket now (some .stalled)
  else if (w.heard || w.protocol.initialized) &&
      (w.protocol.mixer.get? keys.videoMode).isSome then { w with place := .dumped }
  else { w with place := .waiting .head }

/-- One event. A worker that is elsewhere does nothing. -/
def step (w : ConnectionWorker κ ι α) (a : Time × WorkerEvent κ ι α) : ConnectionWorker κ ι α :=
  match a.2, w.place with
  | .connect, .starting => w.connect keys socket a.1
  | .head, .waiting .head =>
    if w.started + limits.timeout ≤ a.1 then w.givesUp socket a.1 (some .timedOut)
    else if w.stopEvent then w.givesUp socket a.1 (some .aborted)
    else { w with place := .waiting .looping }
  | .turn act, .waiting .looping => w.pump keys socket aggressive a.1 act (.waiting .looped)
  | .look lastRx, .waiting .looped => w.look keys socket limits a.1 lastRx
  | .announce, .dumped => { w with handshakeDone := true, readyEvent := true, place := .round }
  | .nextRound, .round =>
    if w.stopEvent then w.exit socket a.1 else { w with place := .pumping }
  | .turn act, .pumping => w.pump keys socket aggressive a.1 act .pumped
  | .checkThread, .pumped =>
    if w.protocol.udp.threadAlive then { w with place := .round } else w.exit socket a.1
  | .stop, .exited => { w with handshakeDone := false, stopEvent := true }
  | .stop, _ =>
    -- `_disconnect_locked` wakes a worker that waits on the empty queue
    let udp := w.protocol.udp
    { w with
      handshakeDone := false
      stopEvent := true
      protocol := { w.protocol with
        udp := { udp with threadRecvQueue := udp.threadRecvQueue ++ [.disconnected] } } }
  | .other e, _ =>
    { w with protocol := { w.protocol with udp := w.protocol.udp.step socket aggressive (a.1, e) } }
  | _, _ => w

end ConnectionWorker

end Bmdwire
