import Bmdwire.Program.UdpRun

/-!
# `receive_packet`, look by look

`receiveTurn` goes through a turn of the loop of `receive_packet` at once. Other threads change
the flags that the loop looks at whenever they like, so here the turn is taken apart at its
looks (`pump`). A `Pump` is a transport whose receive queue is pumped by call after call of
`receive_packet` while other threads do with the transport what they like, and a record of the
packets pulled and returned.
-/

set_option autoImplicit false

namespace Bmdwire

namespace Udp

/-- What `receive_packet` looks at next: `mark_next_connected`, `enable_ack`, `queue_trigger`,
whether the state is `STATE_SYN_SENT`, and whether it is `STATE_ESTABLISHED`. -/
inductive Look
  | mark
  | enableAck
  | trigger
  | synSent
  | established
deriving DecidableEq, Repr

/-- The packet that `receive_packet` has in its hands, and what it looks at next. -/
abbrev Hand := Option (Look × Packet)

/-- One look of `receive_packet`: what it returns, if it does, or an exception; and what is in
its hands then. With nothing in its hands it takes the packet put aside or the next item of the
queue; on an empty queue it waits. -/
def pump (socket : Socket) (now : Time) (aggressive : Bool) (hand : Hand) (s : Udp) :
    Except Unit (Option RecvResult) × Hand × Udp :=
  match hand with
  | none =>
    match s.stashedPacket, s.threadRecvQueue with
    | some p, _ => (.ok none, some (.mark, p), { s with stashedPacket := none })
    | none, [] => (.ok none, none, s)
    | none, .packet p :: rest => (.ok none, some (.mark, p), { s with threadRecvQueue := rest })
    | none, .disconnected :: rest =>
      let r := { s with threadRecvQueue := rest }.receiveDisconnected socket now
      (r.1, none, r.2)
    | none, .wakeup :: rest => (.ok (some .wakeup), none, { s with threadRecvQueue := rest })
  | some (.mark, p) =>
    if s.markNextConnected then
      (.ok (some .connectionReady), none,
        { s with markNextConnected := false, stashedPacket := some p })
    else (.ok none, some (.enableAck, p), s)
  | some (.enableAck, p) =>
    (.ok none, some (if s.enableAck then .trigger else .synSent, p), s)
  | some (.trigger, p) =>
    let r := s.queueTrigger aggressive
    if r.1 then (.ok (some .transferQueueFlushed), none, { r.2 with stashedPacket := some p })
    else (.ok none, some (.synSent, p), r.2)
  | some (.synSent, p) =>
    if s.state = .synSent then
      let r := s.receiveData aggressive p
      (r.1, none, r.2)
    else (.ok none, some (.established, p), s)
  | some (.established, p) =>
    if s.state = .established then
      let r := s.receiveData aggressive p
      (r.1, none, r.2)
    else (.ok none, none, s)

/-! ## Pumping -/

/-- A packet for the upper layer: longer than a control packet. -/
def isData (p : Packet) : Bool := p.length ≠ 12

end Udp

open Udp

/-- A transport that is pumped. `whileUp` is whether the connection was established when the
packet in hand or put aside was pulled off the queue. From the start of the pumping: the items
of the queue, those in it then among them, the packets pulled off it and the packets that
`receive_packet` returned, each with its `whileUp`, oldest first. -/
structure Pump where
  udp : Udp
  hand : Hand := none
  whileUp : Bool := false
  arrived : List RecvItem := udp.threadRecvQueue
  pulled : List (Packet × Bool) := []
  returned : List (Packet × Bool) := []

/-- What happens: a look of `receive_packet`, which is called again when it returns; or another
thread does something to the transport. -/
inductive PumpEvent
  | look (now : Time)
  | other (udp : Udp)

namespace Pump

/-- The packet that the next look pulls off the queue. -/
def pulls (m : Pump) : Option Packet :=
  match m.hand, m.udp.stashedPacket, m.udp.threadRecvQueue with
  | none, none, .packet p :: _ => some p
  | _, _, _ => none

/-- Whether the next look finds that the socket is gone, and connects again. -/
def reconnects (m : Pump) : Bool :=
  match m.hand, m.udp.stashedPacket, m.udp.threadRecvQueue with
  | none, none, .disconnected :: _ =>
    m.udp.hadTraffic ∧ m.udp.state = .synSent ∧ ¬ m.udp.refused
  | _, _, _ => false

/-- One event. -/
def step (socket : Socket) (aggressive : Bool) (m : Pump) : PumpEvent → Pump
  | .look now =>
    let r := m.udp.pump socket now aggressive m.hand
    let up : Bool := m.udp.state = .established
    { m with
      udp := r.2.2
      hand := r.2.1
      whileUp := if m.pulls.isSome then up else m.whileUp
      pulled := m.pulled ++ m.pulls.toList.map fun p => (p, up)
      returned :=
        match r.1 with
        | .ok (some (.packet p)) => m.returned ++ [(p, m.whileUp)]
        | _ => m.returned }
  | .other t =>
    { m with
      udp := t
      arrived := m.arrived ++ t.threadRecvQueue.drop m.udp.threadRecvQueue.length }

end Pump

end Bmdwire
