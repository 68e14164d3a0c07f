import Bmdwire.Program.UdpSend

/-!
# Receiving

`_receive_packet_low` with its gates, the drain it is called from, the handshake, and one
turn of the loop of `receive_packet`. The UDP thread is the only one that reads the socket,
and always in a drain, which sends the ACK owed when it is over.
-/

set_option autoImplicit false

namespace Bmdwire

open Library (Dict)

/-- `_SeenWindow.append`, on the numbers seen, oldest first. -/
def seenAppend (maxlen seq : ℕ) (seen : List ℕ) : List ℕ :=
  let seen := seen.erase seq ++ [seq]
  if seen.length > maxlen then seen.tail else seen

/-- What `_receive_packet_low` returns: nothing for a datagram ignored, `True` for a packet
dropped or already handed on, or a packet. -/
inductive LowResult
  | nothing
  | handled
  | packet (p : Packet)
deriving DecidableEq, Repr

namespace Udp

/-! ## One datagram -/

/-- The datagrams that get past the guards at the session: none of the session replaced, and
only a SYN reply while our SYN is out. -/
def accepts (p : Packet) (s : Udp) : Bool :=
  ¬ (s.prevSessionId.isSome ∧ p.session = s.prevSessionId) ∧
    (s.state = .synSent → p.has flagSyn ∧ p.session = some handshakeSession)

/-- What every packet let in sets: the number last received, the session's id if none is
known, the silence clock, and what the switcher has of ours. -/
def hear (now : Time) (p : Packet) (s : Udp) : Udp :=
  let s := { s with
    remoteSequenceNumber := p.sequenceNumber
    sessionId := if s.sessionId.isNone then p.session else s.sessionId
    lastHeard := now }
  if p.has flagAck then s.onAck now p.acknowledgementNumber else s

/-- The walk of `_update_ack_number` over the numbers received. -/
def ackWalk (received : List ℕ) : ℕ → ℕ → ℕ
  | 0, ack => ack
  | fuel + 1, ack =>
    if (ack + 1) % 0x8000 ∈ received then ackWalk received fuel ((ack + 1) % 0x8000) else ack

/-- `_update_ack_number`. Each step of the walk finds another number, so it ends within the
window's length. -/
def updateAckNumber (p : Packet) (s : Udp) : Udp :=
  if s.rxEstablished then
    { s with ackNumber := ackWalk s.receivedPackets s.receivedPackets.length s.ackNumber }
  else { s with
    ackNumber := s.remoteSequenceNumber
    rxEstablished := p.has flagReliable }

/-- Whether a reliable packet is acknowledged as it comes. -/
def acksReliable (p : Packet) (s : Udp) : Bool :=
  p.has flagReliable ∧ (s.enableAck ∨ s.state = .established)

/-- The ACK a new packet is owed: a reliable one, or the first control packet. -/
def oweAck (p : Packet) (s : Udp) : Udp :=
  if s.acksReliable p ∨ ¬ s.enableAck ∧ (p.data.getD []).length = 0 then
    { s with enableAck := true, acksOwed := s.acksOwed + 1 }
  else s

/-- Hand the parked packets on while the next one owed is among them. -/
def drainParked : ℕ → ℕ → Udp → Udp
  | 0, _, s => s
  | fuel + 1, next, s =>
    match s.parked.get? next with
    | none => s
    | some p =>
      drainParked fuel ((next + 1) % 0x8000) { s with
        threadRecvQueue := s.threadRecvQueue ++ [.packet p]
        parked := s.parked.erase next
        deliverNext := some ((next + 1) % 0x8000) }

/-- The in-order delivery gate. -/
def gate (p : Packet) (s : Udp) : LowResult × Udp :=
  let next := (p.sequenceNumber + 1) % 0x8000
  if ¬ p.has flagReliable ∨ ¬ s.rxEstablished then (.packet p, s)
  else
    match s.deliverNext with
    | none => (.packet p, { s with deliverNext := some next })
    | some cursor =>
      let dist := seqDist p.sequenceNumber cursor
      if dist = 0 then
        let s := { s with deliverNext := some next }
        if s.parked.keys = [] then (.packet p, s)
        else
          (.handled, drainParked s.parked.keys.length next
            { s with threadRecvQueue := s.threadRecvQueue ++ [.packet p] })
      else if dist > 0x4000 then (.handled, s)
      else if dist ≤ deliveryParkWindow then
        (.handled, { s with parked := s.parked.set p.sequenceNumber p })
      else (.packet p, { s with parked := .empty, deliverNext := some next })

/-- A packet let in, once a resend it asks for is done. -/
def receiveHeard (now : Time) (p : Packet) (s : Udp) : LowResult × Udp :=
  let s := s.hear now p
  if p.has flagRetransmission ∧ s.remoteSequenceNumber ∈ s.receivedPackets then
    (.handled, if s.acksReliable p then { s with acksOwed := s.acksOwed + 1 } else s)
  else
    let s := { s with
      receivedPackets := seenAppend seenMaxlen s.remoteSequenceNumber s.receivedPackets }
    ((s.updateAckNumber p).oweAck p).gate p

/-- `_receive_packet_low` on a datagram, and whether a `struct.error` of a resend leaves it. -/
def receivePacketLow (socket : Socket) (now : Time) (fromPeer : Bool) (raw : Bytes) (s : Udp) :
    Bool × LowResult × Udp :=
  if ¬ fromPeer then (false, .nothing, s)
  else
    match Packet.fromBytes raw with
    | none => (false, .nothing, s)
    | some p =>
      if ¬ s.accepts p then (false, .nothing, s)
      else if p.has flagRequestRetransmission then
        let r := s.retransmitFrom socket p.retransmissionRequest
        if r.1 then (true, .nothing, r.2) else (false, r.2.receiveHeard now p)
      else (false, s.receiveHeard now p)

/-! ## A drain -/

/-- The ACK that `_flush_ack` sends. -/
def ackPacket (s : Udp) : Packet :=
  { flags := flagAck, acknowledgementNumber := s.ackNumber, remoteSequenceNumber := 0x61 }

/-- `_flush_ack` on the UDP thread, and whether its error ends the thread. -/
def flushAck (socket : Socket) (now : Time) (s : Udp) : Bool × Udp :=
  if s.acksOwed = 0 then (false, s)
  else { s with acksOwed := 0 }.sendOnUdpThread socket now s.ackPacket

/-- A packet for the protocol goes to its queue. -/
def handOn (r : LowResult) (s : Udp) : Udp :=
  match r with
  | .packet p => { s with threadRecvQueue := s.threadRecvQueue ++ [.packet p] }
  | _ => s

/-- The loop of `_drain_socket`, over the datagrams waiting with their senders. -/
def drainDatagrams (socket : Socket) (now : Time) : List (Bool × Bytes) → Udp → Bool × Udp
  | [], s => (false, s)
  | (fromPeer, raw) :: rest, s =>
    let r := s.receivePacketLow socket now fromPeer raw
    if r.1 then (true, r.2.2)
    else
      let s := r.2.2.handOn r.2.1
      let f := if s.acksOwed ≥ ackEvery then s.flushAck socket now else (false, s)
      if f.1 then (true, f.2) else drainDatagrams socket now rest f.2

/-- `_drain_socket`, and whether an exception leaves it. -/
def drainSocket (socket : Socket) (now : Time) (datagrams : List (Bool × Bytes)) (s : Udp) :
    Bool × Udp :=
  let r := s.drainDatagrams socket now (datagrams.take drainMaxDatagrams)
  let f := r.2.flushAck socket now
  (r.1 || f.1, f.2)

/-! ## The UDP thread -/

/-- An exception that leaves the thread's loop: the thread ends, with a last sentinel. -/
def endThread (r : Bool × Udp) : Udp :=
  if r.1 then { r.2 with
    threadAlive := false
    threadRecvQueue := r.2.threadRecvQueue ++ [.disconnected] }
  else r.2

/-- `Timeout reading from ATEM`: a new handshake, and a sentinel. -/
def silence (socket : Socket) (now : Time) (s : Udp) : Udp :=
  let r := { s with state := .closed }.connect socket now true
  { r.2 with
    threadAlive := !r.1
    threadRecvQueue := r.2.threadRecvQueue ++ [.disconnected] }

/-- One packet that other threads left to the UDP thread. An error ends the thread with two
sentinels. -/
def takeQueued (socket : Socket) (now : Time) (s : Udp) : Udp :=
  match s.threadQueue with
  | [] => s
  | p :: rest =>
    let r := { s with threadQueue := rest }.sendOnUdpThread socket now p
    if r.1 then { r.2 with
      threadAlive := false
      threadRecvQueue := r.2.threadRecvQueue ++ [.disconnected, .disconnected] }
    else r.2

/-! ## The protocol's thread -/

/-- What `receive_packet` returns. -/
inductive RecvResult
  | none
  | wakeup
  | connectionReady
  | transferQueueFlushed
  | packet (p : Packet)
deriving DecidableEq, Repr

/-- `queue_trigger`, the queued packets left to the UDP thread: `batch` of them, or all in an
aggressive drain; and whether the queue has just run empty. -/
def queueTrigger (aggressive : Bool) (s : Udp) : Bool × Udp :=
  if s.sendQueue ≠ [] then
    let batch := if aggressive then s.sendQueue.length else 5
    (false, { s with
      queueEnabled := true
      threadQueue := s.threadQueue ++ s.sendQueue.take batch
      sendQueue := s.sendQueue.drop batch })
  else if s.queueEnabled then (true, { s with queueEnabled := false })
  else (false, s)

/-- The third packet of a handshake. -/
def handshakePacket : Packet := { flags := flagAck, label := some "_handshake" }

/-- `_handshake`, and whether it raises `IndexError`: on a reply with no data. -/
def handshake (p : Packet) (s : Udp) : Bool × Udp :=
  if ¬ p.has flagSyn ∨ p.session ≠ s.sessionId then (false, s)
  else
    match p.data.getD [] with
    | [] => (true, s)
    | code :: _ =>
      if code = 3 then (false, { s with refused := true })
      else
        let s := if code = 2 then { s with state := .established } else s
        (false, { s with threadQueue := s.threadQueue ++ [handshakePacket] })

/-- The ACK that answers the first control packet. -/
def initialAck (s : Udp) : Packet :=
  { s.ackPacket with label := some "initial ack after connection" }

/-- A packet in the hands of `receive_packet`, past the sentinels it may owe: what is returned,
if anything, or an `IndexError`. -/
def receiveData (aggressive : Bool) (p : Packet) (s : Udp) : Except Unit (Option RecvResult) × Udp :=
  match s.state with
  | .synSent =>
    let r := { s with hadTraffic := true }.handshake p
    (if r.1 then .error () else .ok (if r.2.refused then some .none else none), r.2)
  | .established =>
    if p.length = 12 then
      let s := if s.enableAck then s
        else { s with enableAck := true, threadQueue := s.threadQueue ++ [s.initialAck] }
      let r := s.queueTrigger aggressive
      (.ok (if r.1 then some .transferQueueFlushed else none), r.2)
    else (.ok (some (.packet p)), s)
  | _ => (.ok none, s)

/-- A packet pulled by `receive_packet`: a sentinel owed first is returned in its place, the
packet put aside. -/
def receiveTaken (aggressive : Bool) (p : Packet) (s : Udp) :
    Except Unit (Option RecvResult) × Udp :=
  if s.markNextConnected then
    (.ok (some .connectionReady), { s with markNextConnected := false, stashedPacket := some p })
  else if s.enableAck then
    let r := s.queueTrigger aggressive
    if r.1 then (.ok (some .transferQueueFlushed), { r.2 with stashedPacket := some p })
    else r.2.receiveData aggressive p
  else s.receiveData aggressive p

/-- A disconnect sentinel pulled by `receive_packet`. -/
def receiveDisconnected (socket : Socket) (now : Time) (s : Udp) :
    Except Unit (Option RecvResult) × Udp :=
  if s.hadTraffic ∧ s.state = .synSent ∧ ¬ s.refused then
    let r := { s with state := .closed, hadTraffic := false }.connect socket now false
    (if r.1 then .error () else .ok (some .none), r.2)
  else (.ok (some .none), s)

/-- One turn of the loop of `receive_packet`: what it returns, if it does, or an exception. A
packet put aside comes first; on an empty queue the turn waits. -/
def receiveTurn (socket : Socket) (now : Time) (aggressive : Bool) (s : Udp) :
    Except Unit (Option RecvResult) × Udp :=
  match s.stashedPacket, s.threadRecvQueue with
  | some p, _ => { s with stashedPacket := none }.receiveTaken aggressive p
  | none, [] => (.ok none, s)
  | none, .packet p :: rest => { s with threadRecvQueue := rest }.receiveTaken aggressive p
  | none, .disconnected :: rest => { s with threadRecvQueue := rest }.receiveDisconnected socket now
  | none, .wakeup :: rest => (.ok (some .wakeup), { s with threadRecvQueue := rest })

end Udp

end Bmdwire
