import Bmdwire.Program.LaneEvents
import Bmdwire.Program.PacketLoop

/-!
# The loop with its exceptions

`AtemProtocol.loop` over the UDP transport with its lane, and the exceptions that leave it. The
fields' parsers are not here: a turn is given what each field comes to, a field to store or a
message for the lane.
-/

set_option autoImplicit false

namespace Bmdwire

open Library (Dict)

/-- The exceptions that leave `loop`: a `struct.error` of a header cut short, an `IndexError` of
the handshake, and those of the lane. -/
inductive LoopError
  | structError
  | indexError
  | lane (e : PyError)
deriving DecidableEq, Repr

/-- What `save_field_data` makes of a field other than `InCm`: it is stored; it is a message for
the lane, a lock's state stored besides; or its parser raises. -/
inductive FieldHandling (κ ι α : Type)
  | store (f : ParsedField κ ι α)
  | message (e : LaneEvent) (stored : Option (ParsedField κ ι α))
  | raises

/-- What the field comes to where the lane is left out. -/
def FieldHandling.action {κ ι α : Type} : FieldHandling κ ι α → FieldAction κ ι α
  | .store f => .store f
  | .message _ (some f) => .store f
  | .message _ none => .handled
  | .raises => .raises

/-- How a field comes out of `save_field_data`. -/
inductive FieldOutcome
  | saved
  | raised
  | connectionError
deriving DecidableEq, Repr

/-- `AtemProtocol` with its lane. -/
structure LoopState (κ ι α : Type) where
  protocol : AtemProtocol κ ι α
  lane : Lane

/-- The exception that a handler of the lane has ended with. -/
def Lane.raised? (s t : Lane) : Option PyError :=
  match t.log with
  | .throw e :: _ => if s.log.length < t.log.length then some e else none
  | _ => none

namespace LoopState

variable {κ ι α : Type} [DecidableEq κ] [DecidableEq ι] (keys : FieldKeys κ α)
  (handling : Bytes → Bytes → FieldHandling κ ι α) (socket : Socket) (env : Env)

/-- Whether the merge of a field ends with an exception. -/
def mergeFails (f : ParsedField κ ι α) (s : MixerState κ ι α) : Bool :=
  match f.path with
  | [] => false
  | index :: rest =>
    (recursiveMerge (s.getD f.key (.dict [])) (makeUniqueDict f.contents index rest)).isNone

/-- The store of `save_field_data`. -/
def storeField (f : ParsedField κ ι α) (s : LoopState κ ι α) : FieldOutcome × LoopState κ ι α :=
  (if mergeFails f s.protocol.mixer then .raised else .saved,
    { s with protocol := { s.protocol with mixer := s.protocol.mixer.storeField f } })

/-- `save_field_data`. -/
def saveFieldData (code contents : Bytes) (s : LoopState κ ι α) :
    FieldOutcome × LoopState κ ι α :=
  if code = inCmCode then
    let r := s.protocol.saveField keys (fun _ _ => .raises) code contents
    (if r.1 then .connectionError else .saved, { s with protocol := r.2.2 })
  else
    match handling code contents with
    | .store f => s.storeField f
    | .message e stored =>
      let t := { s with lane := s.lane.step (env, e) }
      if (s.lane.raised? t.lane).isSome then (.raised, t)
      else
        match stored with
        | some f => t.storeField f
        | none => (.saved, t)
    | .raises => (.raised, s)

/-- `_save_field_guarded` on the fields of a packet: those handled, whether a `ConnectionError`
leaves the last of them, and the state then. -/
def saveFields : List (Bytes × Bytes) → LoopState κ ι α →
    List (Bytes × Bytes) × Bool × LoopState κ ι α
  | [], s => ([], false, s)
  | f :: rest, s =>
    let r := s.saveFieldData keys handling env f.1 f.2
    if r.1 = .connectionError then ([f], true, r.2)
    else
      let more := saveFields rest r.2
      (f :: more.1, more.2)

/-- `loop` after a `ConnectionError`. -/
def reconnect (s : LoopState κ ι α) : LoopState κ ι α :=
  { protocol := s.protocol.reconnect socket env.now
    lane := s.lane.step (env, .resetTransferLane) }

/-- `loop` on a data packet. -/
def loopPacket (p : Packet) (s : LoopState κ ι α) : Option LoopError × LoopState κ ι α :=
  let d := decodePacket (p.data.getD [])
  let r := { s with protocol := { s.protocol with connected := true } }.saveFields keys handling
    env d.1
  if r.2.1 ∨ d.2 = .connectionError then (none, r.2.2.reconnect socket env)
  else if d.2 = .structError then (some .structError, r.2.2)
  else (none, r.2.2)

/-- `loop` on a disconnect. -/
def loopNone (s : LoopState κ ι α) : LoopState κ ι α :=
  if s.protocol.connected then
    { protocol := { s.protocol with connected := false, initialized := false, mixer := .empty }
      lane := s.lane.step (env, .resetTransferLane) }
  else s

/-- A signal handled by the lane. -/
def signalled (t : Lane) (s : LoopState κ ι α) : Option LoopError × LoopState κ ι α :=
  ((s.lane.raised? t).map .lane, { s with lane := t })

/-- `loop` on what `receive_packet` returns. -/
def loopOn (r : Udp.RecvResult) (s : LoopState κ ι α) : Option LoopError × LoopState κ ι α :=
  match r with
  | .none => (none, s.loopNone env)
  | .connectionReady =>
    (none, { s with protocol := { s.protocol with connected := true, initialized := true } })
  | .wakeup => s.signalled ((s.lane.receive env .wakeup).serviceYields env.now)
  | .transferQueueFlushed =>
    { s with protocol := { s.protocol with connected := true } }.signalled
      (s.lane.step (env, .queueFlushed))
  | .packet p => s.loopPacket keys handling socket env p

/-- A turn of the loop of `receive_packet`, and of `loop` if it returns, with the exception that
leaves them. -/
def turn (aggressive : Bool) (s : LoopState κ ι α) : Option LoopError × LoopState κ ι α :=
  let r := s.protocol.udp.receiveTurn socket env.now aggressive
  let s := { s with protocol := { s.protocol with udp := r.2 } }
  match r.1 with
  | .error _ => (some .indexError, s)
  | .ok none => (none, s)
  | .ok (some result) => s.loopOn keys handling socket env result

end LoopState

end Bmdwire
