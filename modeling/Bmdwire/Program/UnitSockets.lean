import Bmdwire.Library.Streams
import Bmdwire.Library.Utf8
import Bmdwire.Program.BinaryChannel
import Bmdwire.Program.Preamble

/-!
# The sockets of an Ultimatte

The loops of `ultimattewire/_protocol.py` and `_preamble.py` over a socket that hands over what the
unit sends in pieces. `binary_request` and `upload_one` are as in `Bmdwire.Ultimatte.binaryRequest`
and `Bmdwire.Ultimatte.Upload.send`, with the reads of the source in place of all the octets.
-/

set_option autoImplicit false

namespace Bmdwire.Ultimatte

open Library (Stream leRead decodeUtf8)

/-! ## Connecting -/

/-- An attempt to connect, and what becomes of the connection: whether it breaks while the request
is sent, and what can be read of it. -/
inductive Attempt
  | failed
  | opened (breaks : Bool) (s : Stream UInt8)
deriving DecidableEq, Repr

/-- `_connect_with_retry` -/
def connectWithRetry (first second : Attempt) : Attempt :=
  match first with
  | .failed => second
  | .opened breaks s => .opened breaks s

/-- What the attempts come to, with all that the unit sends. -/
def Attempt.contact : Attempt → Contact
  | .failed => .refused
  | .opened true _ => .broken
  | .opened false s => .replied s.items s.closes

/-! ## The binary channel -/

/-- `_recv_exact` -/
def recvExactLoop (n : ℕ) (s : Stream UInt8) :
    Except WireError (List UInt8 × Stream UInt8) :=
  match s.readUpTo n [] with
  | .ok r => .ok r
  | .error got => .error (.timedOut got)

/-- `binary_request` over the two attempts to connect. -/
def binaryRequestOver (payload : List UInt8) (first second : Attempt) :
    Except WireError (List UInt8) :=
  match connectWithRetry first second with
  | .failed => .error .refused
  | .opened breaks s => do
    let _ ← packLength payload.length
    if breaks then .error .broken
    else
      let (header, s) ← recvExactLoop 4 s
      match leRead 4 header.reverse with
      | none => .error (.shortLength header.length)
      | some length =>
        if length = 0 then .ok []
        else
          let (body, _) ← recvExactLoop length s
          if body.length = length then .ok body else .error (.shortBody body.length length)

/-- `upload_one` over the two attempts to connect. -/
def Upload.sendOver (u : Upload) (first second : Attempt) : Except WireError Unit := do
  let _ ← u.frame
  match connectWithRetry first second with
  | .failed => .error .refused
  | .opened breaks s =>
    if breaks then .error .broken
    else
      let (ack, _) ← recvExactLoop ackLen s
      if ack = [] then .error .noAck
      else if ack.any (· ≠ 0) then .error (.nonZeroAck ack)
      else .ok ()

/-! ## The prelude -/

/-- A piece of the prelude, after so many seconds without one; an empty piece is the end of the
connection. -/
structure Arrival where
  gap : ℚ
  chunk : List UInt8
deriving DecidableEq, Repr

/-- `b"END PRELUDE:" in buf` -/
def hasEnd (buf : List UInt8) : Bool := encode endPrelude <:+: buf

/-- The time-out of the next read, in seconds. -/
def preludeTimeout (quiet : ℚ) (buf : List UInt8) : ℚ := if hasEnd buf then 3 / 10 else quiet

/-- The loops of `read_preamble`: up to the end of the prelude, and after it. They go on in the
same way but for the time-out. -/
def readPieces (quiet : ℚ) : List Arrival → List UInt8 → List UInt8
  | [], buf => buf
  | a :: more, buf =>
    if a.gap > preludeTimeout quiet buf then buf
    else if a.chunk = [] then buf
    else readPieces quiet more (buf ++ a.chunk)

/-- `read_preamble`, over a connection. -/
def readPreamble (quiet : ℚ) (arrivals : List Arrival) : Line :=
  decodeUtf8 (readPieces quiet arrivals [])

end Bmdwire.Ultimatte
