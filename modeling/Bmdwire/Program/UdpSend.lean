import Bmdwire.Model.Udp

/-!
# Sending, and sending again

The methods of `UdpProtocol` that number, buffer, send and resend packets. A socket is
asked at most twenty times for one datagram, and its results are numbered through the
whole run.
-/

set_option autoImplicit false

namespace Bmdwire

open Library (Dict)

namespace Udp

/-- The distance from `b` to `a` in the 15-bit space: `(a - b) & 0x7FFF`. -/
def seqDist (a : ℤ) (b : ℕ) : ℕ := ((a - b) % 0x8000).toNat

/-- The loop of `_sendto`, with `retries` attempts left after this one: the result, and the
number of `sendto` calls made by then. -/
def sendtoFrom (socket : Socket) : ℕ → ℕ → Except Errno ℕ × ℕ
  | 0, calls =>
    match socket calls with
    | .sent bytes => (.ok bytes, calls + 1)
    | .refused e => (.error e, calls + 1)
  | retries + 1, calls =>
    match socket calls with
    | .sent bytes => (.ok bytes, calls + 1)
    | .refused e =>
      if e.retried then sendtoFrom socket retries (calls + 1) else (.error e, calls + 1)

/-- What `_sendto` gives for the next datagram. -/
def sendto (socket : Socket) (s : Udp) : Except Errno ℕ :=
  (sendtoFrom socket (sendRetries - 1) s.calls).1

/-- The calls `_sendto` makes for it. -/
def called (socket : Socket) (s : Udp) : Udp :=
  { s with calls := (sendtoFrom socket (sendRetries - 1) s.calls).2 }

/-- An entry for the log. -/
def note (a : NetAct) (s : Udp) : Udp := { s with log := a :: s.log }

/-- The number `_send_packet_low` gives a packet that is no ACK. -/
def nextSequenceNumber (s : Udp) : ℕ := ((s.localSequenceNumber + 1) % 0x8000).toNat

/-- A reliable packet is neither a SYN nor an ACK. -/
def isReliable (p : Packet) : Bool := p.flags &&& (flagSyn ||| flagAck) = 0

/-- Put a packet just numbered into the retransmission buffer. -/
def buffer (now : Time) (p : Packet) (s : Udp) : Udp :=
  let next := s.nextSequenceNumber
  { s with
    localSequenceNumber := next
    retransmissionBuffer :=
      (s.retransmissionBuffer.set next p).erase (seqDist next retransmitWindow)
    resendDue := if s.resendDue.isNone then some (now + resendAfter) else s.resendDue }

/-- The ACK of a handshake clears the session id. -/
def forgetSession (p : Packet) (s : Udp) : Udp :=
  if p.label = some "_handshake" then { s with sessionId := none } else s

/-- What follows a send: a reliable packet is buffered. -/
def afterSend (now : Time) (p : Packet) (s : Udp) : Udp :=
  (if isReliable p then s.buffer now p else s).forgetSession p

/-- A first packet of a session makes its last number 0. -/
def begun (s : Udp) : Udp :=
  if s.localSequenceNumber = -1 then { s with localSequenceNumber := 0 } else s

/-- The packet with the session's id and, unless it is an ACK, the next number. -/
def numbered (p : Packet) (s : Udp) : Packet × Udp :=
  let p := { p with session := s.sessionId }
  if p.has flagAck then (p, s)
  else ({ p with sequenceNumber := s.begun.nextSequenceNumber }, s.begun)

/-- A numbered packet handed to the network, and the `OSError` that leaves. A reliable one the
network refuses for a moment keeps its number and is buffered all the same. -/
def transmit (socket : Socket) (now : Time) (p : Packet) (s : Udp) : Option Errno × Udp :=
  match s.sendto socket with
  | .ok _ => (none, ((s.called socket).note (.send p)).afterSend now p)
  | .error e =>
    if isReliable p ∧ e.transient then
      (none, ((s.called socket).note (.keep p)).afterSend now p)
    else (some e, (s.called socket).note (.fail p))

/-- `_send_packet_low`, and the `OSError` that leaves it. A packet that does not serialise is
dropped. -/
def sendPacketLow (socket : Socket) (now : Time) (p : Packet) (s : Udp) : Option Errno × Udp :=
  let r := s.numbered p
  match r.1.toBytes with
  | none => (none, r.2.note (.drop r.1))
  | some _ => r.2.transmit socket now r.1

/-- `_send_on_udp_thread`, and whether its error ends the thread. -/
def sendOnUdpThread (socket : Socket) (now : Time) (p : Packet) (s : Udp) : Bool × Udp :=
  let r := s.sendPacketLow socket now p
  (r.1.any fun e => !e.transient, r.2)

/-- `_on_ack`. -/
def onAck (now : Time) (number : ℕ) (s : Udp) : Udp :=
  if s.ackedThrough = some number then s
  else
    let outstanding := seqDist s.localSequenceNumber number
    { s with
      ackedThrough := some number
      resendDue :=
        if outstanding = 0 ∨ outstanding ≥ retransmitWindow then none else some (now + resendAfter) }

/-- A buffered packet marked as sent again. -/
def mark (seq : ℕ) (p : Packet) (s : Udp) : Udp :=
  { s with retransmissionBuffer := s.retransmissionBuffer.set seq p.retransmitted }

/-- The loop of `_retransmit_from` over the next `count` numbers from `seq` on, and whether it
ended in a `struct.error`. A number with nothing buffered is passed over, a refused send ends
the loop. -/
def resendFrom (socket : Socket) : ℕ → ℕ → Udp → Bool × Udp
  | 0, _, s => (false, s)
  | count + 1, seq, s =>
    match s.retransmissionBuffer.get? seq with
    | none => resendFrom socket count ((seq + 1) % 0x8000) s
    | some p =>
      let s := s.mark seq p
      match p.retransmitted.toBytes with
      | none => (true, s)
      | some _ =>
        match s.sendto socket with
        | .ok _ =>
          resendFrom socket count ((seq + 1) % 0x8000)
            ((s.called socket).note (.resend p.retransmitted))
        | .error _ => (false, s.called socket)

/-- `_retransmit_from`, and whether it ended in a `struct.error`. -/
def retransmitFrom (socket : Socket) (requestSeq : ℕ) (s : Udp) : Bool × Udp :=
  let span := seqDist s.localSequenceNumber requestSeq
  if span ≥ retransmitWindow then (false, s)
  else resendFrom socket (min (span + 1) retransmitMaxBurst) (requestSeq % 0x8000) s

/-- What is sent beyond the last acknowledgement, of a session that can resend it. -/
def unacked? (s : Udp) : Option ℕ :=
  match s.ackedThrough with
  | none => none
  | some acked =>
    let outstanding := seqDist s.localSequenceNumber acked
    if s.state = .established ∧ outstanding ≠ 0 ∧ outstanding < retransmitWindow then
      some ((acked + 1) % 0x8000)
    else none

/-- `_resend_unacked`, and whether it ended in a `struct.error`. -/
def resendUnacked (socket : Socket) (now : Time) (s : Udp) : Bool × Udp :=
  match s.resendDue with
  | none => (false, s)
  | some due =>
    if now < due then (false, s)
    else
      let s := { s with resendDue := none }
      match s.unacked? with
      | none => (false, s)
      | some first =>
        let r := s.retransmitFrom socket first
        (r.1, if r.1 then r.2 else { r.2 with resendDue := some (now + resendAfter) })

/-- The SYN `connect` makes. -/
def synPacket : Packet := { flags := flagSyn, data := some [0x01, 0, 0, 0, 0, 0, 0, 0] }

/-- The session state `connect` resets. -/
def resetSession (now : Time) (s : Udp) : Udp :=
  note .reset { s with
    localSequenceNumber := -1
    remoteSequenceNumber := 0
    ackNumber := 0
    rxEstablished := false
    deliverNext := none
    parked := .empty
    stashedPacket := none
    prevSessionId :=
      if s.sessionId ≠ none ∧ s.sessionId ≠ some handshakeSession then s.sessionId else none
    sessionId := some handshakeSession
    enableAck := false
    retransmissionBuffer := .empty
    ackedThrough := none
    resendDue := none
    receivedPackets := []
    hadTraffic := false
    refused := false
    lastHeard := now }

/-- `_send_packet` from the UDP thread, or from another one, which leaves the packet to it;
and whether an error leaves it. -/
def sendPacket (socket : Socket) (now : Time) (onUdpThread : Bool) (p : Packet) (s : Udp) :
    Bool × Udp :=
  if onUdpThread then s.sendOnUdpThread socket now p
  else (false, { s with threadQueue := s.threadQueue ++ [p] })

/-- `connect`, and whether an exception leaves it: of a session that is not closed, or of the
SYN. The thread is started if it does not run. -/
def connect (socket : Socket) (now : Time) (onUdpThread : Bool) (s : Udp) : Bool × Udp :=
  if s.state ≠ .closed then (true, s)
  else
    let r := ({ s with threadAlive := true }.resetSession now).sendPacket socket now onUdpThread
      synPacket
    (r.1, if r.1 then r.2 else { r.2 with state := .synSent })

end Udp

end Bmdwire
