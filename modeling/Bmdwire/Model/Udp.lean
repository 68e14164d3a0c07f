import Bmdwire.Model.Transfer

/-!
# The data of the UDP transport

`UdpProtocol` carries a session with a switcher over UDP: a handshake that gives the
session its id, reliable packets numbered in a space of 15 bits, and acknowledgements and
resends in both directions. This file has the packet and its bytes, the results a socket
can give, and the transport's state.

`None` where the source has an integer is `Option`; `local_sequence_number` is an integer
because a reset sets it to -1. The transport keeps a log of its sending, newest entry
first, which the specifications read.
-/

set_option autoImplicit false

namespace Bmdwire

open Library (Dict)

/-! ## Packets -/

def flagReliable : ℕ := 1
def flagSyn : ℕ := 2
def flagRetransmission : ℕ := 4
def flagRequestRetransmission : ℕ := 8
def flagAck : ℕ := 16

/-- `Packet`. `length` and `retransmissionRequest` are set by `from_bytes` alone. -/
structure Packet where
  flags : ℕ := 0
  length : ℕ := 0
  session : Option ℕ := some 0
  sequenceNumber : ℕ := 0
  acknowledgementNumber : ℕ := 0
  remoteSequenceNumber : ℕ := 0
  retransmissionRequest : ℕ := 0
  data : Option Bytes := none
  label : Option String := none
deriving DecidableEq, Repr

namespace Packet

/-- `packet.flags & flag`, as a truth value. -/
def has (p : Packet) (flag : ℕ) : Bool := p.flags &&& flag ≠ 0

/-- The packet with the retransmission flag set. -/
def retransmitted (p : Packet) : Packet := { p with flags := p.flags ||| flagRetransmission }

/-- `'>H'` of a number below `2 ^ 16`. -/
def packU16 (n : ℕ) : Bytes := [UInt8.ofNat (n / 256), UInt8.ofNat n]

/-- The big-endian 16-bit number at an index of the data. -/
def unpackU16 (data : Bytes) (i : ℕ) : ℕ := (data.getD i 0).toNat * 256 + (data.getD (i + 1) 0).toNat

/-- `to_bytes`; `none` is the `struct.error` of a field that does not fit its 16 bits, or of
a session that is `None`. The flags are added above the 11 bits of the length. -/
def toBytes (p : Packet) : Option Bytes :=
  let data := p.data.getD []
  let head := 12 + data.length + p.flags * 2048
  match p.session with
  | none => none
  | some session =>
    if head < 0x10000 ∧ session < 0x10000 ∧ p.acknowledgementNumber < 0x10000 ∧
        p.remoteSequenceNumber < 0x10000 ∧ p.sequenceNumber < 0x10000 then
      some (packU16 head ++ packU16 session ++ packU16 p.acknowledgementNumber ++ [0, 0] ++
        packU16 p.remoteSequenceNumber ++ packU16 p.sequenceNumber ++ data)
    else none

/-- `from_bytes`; `none` is the `struct.error` of a header cut short, or the `ValueError` of
a length that is not the datagram's. -/
def fromBytes (raw : Bytes) : Option Packet :=
  if raw.length < 12 then none
  else
    let head := unpackU16 raw 0
    if head % 2048 ≠ raw.length then none
    else some {
      flags := head / 2048
      length := head % 2048
      session := some (unpackU16 raw 2)
      acknowledgementNumber := unpackU16 raw 4
      retransmissionRequest := unpackU16 raw 6
      remoteSequenceNumber := unpackU16 raw 8
      sequenceNumber := unpackU16 raw 10
      data := some (raw.drop 12) }

end Packet

/-! ## The socket -/

/-- The error numbers of a refused send that the source tells apart. -/
inductive Errno
  | enetunreach
  | ehostunreach
  | econnrefused
  | enobufs
  | eagain
  | eperm
  | eintr
  | other (code : ℕ)
deriving DecidableEq, Repr

/-- `TRANSIENT_SEND_ERRNOS`. -/
def Errno.transient : Errno → Bool
  | .other _ => false
  | _ => true

/-- `SEND_RETRY_ERRNOS`. -/
def Errno.retried : Errno → Bool
  | .enobufs => true
  | .eagain => true
  | _ => false

/-- What one `sock.sendto` gives: the number of bytes it took, or an `OSError`. -/
inductive SendResult
  | sent (bytes : ℕ)
  | refused (e : Errno)
deriving DecidableEq, Repr

/-- What the socket gives at its first, second, … `sendto`. -/
abbrev Socket := ℕ → SendResult

/-! ## The transport -/

/-- `RETRANSMIT_WINDOW`. -/
def retransmitWindow : ℕ := 4096

/-- `RETRANSMIT_MAX_BURST`. -/
def retransmitMaxBurst : ℕ := 128

/-- `RESEND_AFTER`. -/
def resendAfter : Time := milliseconds 250

/-- `SEND_RETRIES`. -/
def sendRetries : ℕ := 20

/-- `DELIVERY_PARK_WINDOW`. -/
def deliveryParkWindow : ℕ := 512

/-- `DRAIN_MAX`: how many datagrams one turn of the UDP thread reads. -/
def drainMaxDatagrams : ℕ := 512

/-- `ACK_EVERY`. -/
def ackEvery : ℕ := 32

/-- `received_packets` is a `_SeenWindow(1024)`. -/
def seenMaxlen : ℕ := 1024

/-- The session id of a handshake. -/
def handshakeSession : ℕ := 0x1337

/-- `STATE_CLOSED` to `STATE_ESTABLISHED`. -/
inductive UdpState
  | closed
  | synSent
  | synReceived
  | established
deriving DecidableEq, Repr

/-- The items of `thread_recv_queue`. -/
inductive RecvItem
  | packet (p : Packet)
  | disconnected
  | wakeup
deriving DecidableEq, Repr

/-- An entry of the log: a packet handed to the network for the first time, or numbered and
kept though the network refused it; a buffered packet sent again; a packet dropped because
it does not serialise; an error that leaves the sender; a reset of the session. -/
inductive NetAct
  | send (p : Packet)
  | keep (p : Packet)
  | resend (p : Packet)
  | drop (p : Packet)
  | fail (p : Packet)
  | reset
deriving DecidableEq, Repr

/-- The session state of `UdpProtocol`, its queues, whether its thread runs, the number of
times `sendto` was called, and the log. -/
structure Udp where
  localSequenceNumber : ℤ
  remoteSequenceNumber : ℕ
  ackNumber : ℕ
  rxEstablished : Bool
  deliverNext : Option ℕ
  parked : Dict ℕ Packet
  stashedPacket : Option Packet
  state : UdpState
  sessionId : Option ℕ
  prevSessionId : Option ℕ
  enableAck : Bool
  hadTraffic : Bool
  refused : Bool
  receivedPackets : List ℕ
  acksOwed : ℕ
  retransmissionBuffer : Dict ℕ Packet
  ackedThrough : Option ℕ
  resendDue : Option Time
  lastHeard : Time
  markNextConnected : Bool
  sendQueue : List Packet
  queueEnabled : Bool
  threadQueue : List Packet
  threadRecvQueue : List RecvItem
  threadAlive : Bool
  calls : ℕ
  log : List NetAct

/-- A fresh transport object, made at `now`. -/
def Udp.fresh (now : Time) : Udp where
  localSequenceNumber := 0
  remoteSequenceNumber := 0
  ackNumber := 0
  rxEstablished := false
  deliverNext := none
  parked := .empty
  stashedPacket := none
  state := .closed
  sessionId := some handshakeSession
  prevSessionId := none
  enableAck := false
  hadTraffic := false
  refused := false
  receivedPackets := []
  acksOwed := 0
  retransmissionBuffer := .empty
  ackedThrough := none
  resendDue := none
  lastHeard := now
  markNextConnected := false
  sendQueue := []
  queueEnabled := false
  threadQueue := []
  threadRecvQueue := []
  threadAlive := false
  calls := 0
  log := []

end Bmdwire
