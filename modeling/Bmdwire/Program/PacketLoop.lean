import Bmdwire.Program.Fields
import Bmdwire.Program.MixerState
import Bmdwire.Program.UdpRun

/-!
# The loop of the protocol

`AtemProtocol.loop` over the UDP transport, as far as readiness goes: what it makes of a packet,
of a disconnect and of the sentinels, with the mixer state and the two flags. The parsers of the
fields and the transfer lane are not here: a turn is given what each field comes to, and what
their handlers send are events of the transport.
-/

set_option autoImplicit false

namespace Bmdwire

open Library (Dict)

/-- What `save_field_data` makes of a field other than `InCm`: it is stored; it is a lock's or a
transfer's, and not stored; or its parser or handler raises. -/
inductive FieldAction (κ ι α : Type)
  | store (f : ParsedField κ ι α)
  | handled
  | raises

/-- The keys of the mixer state that the loop asks for, and the contents of a field that has no
parser. -/
structure FieldKeys (κ α : Type) where
  videoMode : κ
  inCm : κ
  raw : Bytes → α

/-- `INCOMPLETE_DUMP_RETRIES`. -/
def incompleteDumpRetries : ℕ := 3

/-- The code of the field that ends a dump: `InCm`. -/
def inCmCode : Bytes := [0x49, 0x6e, 0x43, 0x6d]

/-- `AtemProtocol`, as far as readiness goes. -/
structure AtemProtocol (κ ι α : Type) where
  udp : Udp
  connected : Bool := false
  initialized : Bool := false
  mixer : MixerState κ ι α := .empty
  incompleteDumps : ℕ := 0

/-- The fields stored, with their codes, oldest first. -/
abbrev StoredFields (κ ι α : Type) := List (Bytes × ParsedField κ ι α)

namespace AtemProtocol

variable {κ ι α : Type} [DecidableEq κ] [DecidableEq ι] (keys : FieldKeys κ α)
  (act : Bytes → Bytes → FieldAction κ ι α) (socket : Socket) (now : Time)

/-- `InCm` as it is stored. -/
def inCmField (contents : Bytes) : ParsedField κ ι α :=
  { key := keys.inCm, contents := keys.raw contents, idxes := none, stripId := none }

/-- `_save_field_guarded`: whether a `ConnectionError` leaves it, what is stored, and the
protocol after it. Any other exception loses the field. -/
def saveField (code contents : Bytes) (s : AtemProtocol κ ι α) :
    Bool × StoredFields κ ι α × AtemProtocol κ ι α :=
  if code = inCmCode then
    if (s.mixer.get? keys.videoMode).isSome ∨ incompleteDumpRetries ≤ s.incompleteDumps then
      let f : ParsedField κ ι α := inCmField keys contents
      (false, [(code, f)], { s with
        incompleteDumps := 0
        mixer := s.mixer.storeField f
        udp := { s.udp with markNextConnected := true } })
    else (true, [], { s with incompleteDumps := s.incompleteDumps + 1 })
  else
    match act code contents with
    | .store f => (false, [(code, f)], { s with mixer := s.mixer.storeField f })
    | .handled => (false, [], s)
    | .raises => (false, [], s)

/-- The fields of a packet, up to a `ConnectionError`. -/
def saveFields : List (Bytes × Bytes) → AtemProtocol κ ι α →
    Bool × StoredFields κ ι α × AtemProtocol κ ι α
  | [], s => (false, [], s)
  | (code, contents) :: rest, s =>
    let r := s.saveField keys act code contents
    if r.1 then r
    else
      let more := saveFields rest r.2.2
      (more.1, r.2.1 ++ more.2.1, more.2.2)

/-- `loop` after a `ConnectionError`: the state is emptied, and a new session begun. -/
def reconnect (s : AtemProtocol κ ι α) : AtemProtocol κ ι α :=
  { s with
    connected := false
    initialized := false
    mixer := .empty
    udp := ((s.udp.closeSession socket now).connect socket now false).2 }

/-- `loop` on a data packet. A `struct.error` of the framing leaves it, with what was stored by
then. -/
def loopPacket (p : Packet) (s : AtemProtocol κ ι α) :
    StoredFields κ ι α × AtemProtocol κ ι α :=
  let d := decodePacket (p.data.getD [])
  let r := { s with connected := true }.saveFields keys act d.1
  if r.1 ∨ d.2 = .connectionError then (r.2.1, r.2.2.reconnect socket now)
  else r.2

/-- `loop` on what `receive_packet` returns. -/
def loopOn (r : Udp.RecvResult) (s : AtemProtocol κ ι α) :
    StoredFields κ ι α × AtemProtocol κ ι α :=
  match r with
  | .none =>
    let s := if s.connected then { s with initialized := false, mixer := .empty } else s
    ([], { s with connected := false })
  | .connectionReady => ([], { s with connected := true, initialized := true })
  | .wakeup => ([], s)
  | .transferQueueFlushed => ([], { s with connected := true })
  | .packet p => s.loopPacket keys act socket now p

/-- A turn of the loop of `receive_packet`, and of `loop` if it returns. An `IndexError` of the
handshake leaves both. -/
def turn (aggressive : Bool) (s : AtemProtocol κ ι α) :
    StoredFields κ ι α × AtemProtocol κ ι α :=
  let r := s.udp.receiveTurn socket now aggressive
  let s := { s with udp := r.2 }
  match r.1 with
  | .ok (some result) => s.loopOn keys act socket now result
  | _ => ([], s)

end AtemProtocol

end Bmdwire
