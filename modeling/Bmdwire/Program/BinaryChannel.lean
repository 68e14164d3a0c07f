import Bmdwire.Library.Octets
import Bmdwire.Model.Sockets

/-!
# The binary channel of an Ultimatte

`ultimattewire/_protocol.py`: reading and writing a slot or a resource, one connection for each.
-/

set_option autoImplicit false

namespace Bmdwire.Ultimatte

open Library (leBytes leRead)

/-- `str.encode()` -/
def encode (text : Line) : List UInt8 := text.flatMap String.utf8EncodeChar

/-- How a connection goes: it is refused, it breaks while the request is sent, or the unit sends
octets and then closes it or stays silent. -/
inductive Contact
  | refused
  | broken
  | replied (octets : List UInt8) (closes : Bool)
deriving DecidableEq, Repr

/-- What a request raises. -/
inductive WireError
  | tooLong (length : ℕ)
  | refused
  | broken
  | timedOut (got : ℕ)
  | shortLength (got : ℕ)
  | shortBody (got length : ℕ)
  | noAck
  | nonZeroAck (ack : List UInt8)
deriving DecidableEq, Repr

/-- `struct.pack(">I", n)` -/
def packLength (n : ℕ) : Except WireError (List UInt8) :=
  if n < 2 ^ 32 then .ok (leBytes 4 n).reverse else .error (.tooLong n)

/-- `struct.pack(">H", opcode)` -/
def packOpcode (opcode : UInt16) : List UInt8 := (leBytes 2 opcode.toNat).reverse

/-- `_recv_exact`, with what is left: short when the unit closes the connection. -/
def recvExact (n : ℕ) (octets : List UInt8) (closes : Bool) :
    Except WireError (List UInt8 × List UInt8) :=
  if n ≤ octets.length ∨ closes then .ok (octets.take n, octets.drop n)
  else .error (.timedOut octets.length)

/-- `binary_request` with `opcode` and `payload`. -/
def binaryRequest (payload : List UInt8) (contact : Contact) : Except WireError (List UInt8) :=
  match contact with
  | .refused => .error .refused
  | .broken => do
    let _ ← packLength payload.length
    .error .broken
  | .replied octets closes => do
    let _ ← packLength payload.length
    let (header, octets) ← recvExact 4 octets closes
    match leRead 4 header.reverse with
    | none => .error (.shortLength header.length)
    | some length =>
      let (body, _) ← recvExact length octets closes
      if body.length = length then .ok body else .error (.shortBody body.length length)

/-- What `upload_one` is asked to write. -/
structure Upload where
  opcode : UInt16
  name : Line
  payload : List UInt8
deriving DecidableEq, Repr

/-- `ACK_LEN` -/
def ackLen : ℕ := 6

namespace Upload

/-- `[opcode:2BE][name_len:4BE][name:N][data_len:4BE][data:M][0x00]` -/
def frame (u : Upload) : Except WireError (List UInt8) := do
  let nameBytes := encode u.name
  let nameLen ← packLength nameBytes.length
  let dataLen ← packLength u.payload.length
  .ok (packOpcode u.opcode ++ nameLen ++ nameBytes ++ dataLen ++ u.payload ++ [0])

/-- `upload_one`. A short acknowledgement passes when the unit closes the connection. -/
def send (u : Upload) (contact : Contact) : Except WireError Unit := do
  let _ ← u.frame
  match contact with
  | .refused => .error .refused
  | .broken => .error .broken
  | .replied octets closes =>
    let (ack, _) ← recvExact ackLen octets closes
    if ack = [] then .error .noAck
    else if ack.any (· ≠ 0) then .error (.nonZeroAck ack)
    else .ok ()

end Upload

end Bmdwire.Ultimatte
