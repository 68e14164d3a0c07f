import Bmdwire.Program.UdpReceive

/-!
# Runs of the transport

The events of a transport's life, on its own thread and on the protocol's, and the states
they lead to. Every event is handled to its end at one reading of the clock.
-/

set_option autoImplicit false

namespace Bmdwire

namespace Udp

/-- What happens to a transport. On its own thread: datagrams waiting, each with whether it
comes from the switcher's address; silence for the whole window; a look at the resend timer;
a packet left by another thread. On other threads: the handshake started, a turn of
`receive_packet`, a packet sent, queued or sent past the thread at teardown, the chunk queue
drained, a `Wakeup`, the `InCm` that marks the dump's end, and the goodbye. -/
inductive UdpEvent
  | drain (datagrams : List (Bool × Bytes))
  | silence
  | resendTick
  | takeQueued
  | connect
  | receiveTurn
  | sendPacket (p : Packet)
  | sendPacketLow (p : Packet)
  | queuePacket (p : Packet)
  | drainQueue
  | wakeup
  | markNextConnected
  | closeSession
deriving DecidableEq, Repr

/-- The goodbye that `close_session` sends. -/
def byePacket : Packet :=
  { flags := flagSyn, label := some "closing", data := some [0x04, 0, 0, 0, 0, 0, 0, 0] }

/-- `close_session`; an exception of its send is swallowed. -/
def closeSession (socket : Socket) (now : Time) (s : Udp) : Udp :=
  if s.state ≠ .established then s
  else { (s.sendPacketLow socket now byePacket).2 with state := .closed }

/-- `queue_packet`: a full queue drops its oldest packet. -/
def queuePacket (p : Packet) (s : Udp) : Udp :=
  let queue := if s.sendQueue.length = sendQueueMaxlen then s.sendQueue.tail else s.sendQueue
  { s with sendQueue := queue ++ [p] }

/-- `drain_queue` on the protocol's thread. -/
def drainQueue (s : Udp) : Udp :=
  if s.sendQueue = [] then s
  else { s with
    queueEnabled := true
    threadQueue := s.threadQueue ++ s.sendQueue
    sendQueue := [] }

/-- One event of a run. -/
def step (socket : Socket) (aggressive : Bool) (s : Udp) (a : Time × UdpEvent) : Udp :=
  match a.2 with
  | .drain datagrams => endThread (s.drainSocket socket a.1 datagrams)
  | .silence => s.silence socket a.1
  | .resendTick => endThread (s.resendUnacked socket a.1)
  | .takeQueued => s.takeQueued socket a.1
  | .connect => (s.connect socket a.1 false).2
  | .receiveTurn => (s.receiveTurn socket a.1 aggressive).2
  | .sendPacket p => (s.sendPacket socket a.1 false p).2
  | .sendPacketLow p => (s.sendPacketLow socket a.1 p).2
  | .queuePacket p => s.queuePacket p
  | .drainQueue => s.drainQueue
  | .wakeup => { s with threadRecvQueue := s.threadRecvQueue ++ [.wakeup] }
  | .markNextConnected => { s with markNextConnected := true }
  | .closeSession => s.closeSession socket a.1

/-- The UDP thread does something only while it runs. -/
def Possible (s : Udp) (a : Time × UdpEvent) : Prop :=
  match a.2 with
  | .drain _ | .silence | .resendTick | .takeQueued => s.threadAlive = true
  | _ => True

instance Possible.decidable (s : Udp) : (a : Time × UdpEvent) → Decidable (s.Possible a)
  | (_, .drain _) | (_, .silence) | (_, .resendTick) | (_, .takeQueued) =>
    inferInstanceAs (Decidable (s.threadAlive = true))
  | (_, .connect) | (_, .receiveTurn) | (_, .sendPacket _) | (_, .sendPacketLow _)
  | (_, .queuePacket _) | (_, .drainQueue) | (_, .wakeup) | (_, .markNextConnected)
  | (_, .closeSession) => inferInstanceAs (Decidable True)

/-- A fresh transport. -/
def Initial (s : Udp) : Prop := ∃ now, s = fresh now

/-- The states of the runs whose every step meets `ok` besides being possible. -/
def ReachableWhen (socket : Socket) (aggressive : Bool) (ok : Udp → Time × UdpEvent → Prop) :
    Udp → Prop :=
  Library.Reach Initial (step socket aggressive) fun s a => s.Possible a ∧ ok s a

/-- The states of all runs. -/
def Reachable (socket : Socket) (aggressive : Bool) : Udp → Prop :=
  ReachableWhen socket aggressive fun _ _ => True

end Udp

end Bmdwire
