import Bmdwire.Library.Framing
import Bmdwire.Library.Numerals
import Bmdwire.Library.Utf8
import Bmdwire.Model.Sockets

/-!
# The data of the HyperDeck client

A `Hyperdeck` holds one connection, the greeting it began with, and the notifications kept for
`read_notifications`. The bytes read and not yet taken as lines, which are only looked at while
there is a connection, are the connection's. Its record, of the bytes received, the responses
taken and the notifications handed out, is kept for the proofs alone.
-/

set_option autoImplicit false

namespace Bmdwire

/-- `NOTIFICATION_BACKLOG` -/
def notificationBacklog : ℕ := 1000

/-- One response block parsed off the wire. -/
structure Response where
  code : ℤ
  text : Line
  lines : List Line
deriving DecidableEq, Repr

namespace Response

def isError (r : Response) : Bool := 100 ≤ r.code ∧ r.code < 200

def isAsync (r : Response) : Bool := 500 ≤ r.code ∧ r.code < 600

end Response

/-- What is read as one: a response, or a head line that is none. -/
inductive Frame
  | response (resp : Response)
  | malformed (head : Line)
deriving DecidableEq, Repr

/-- What was done on a connection. -/
inductive DeckEvent
  | parsed (frame : Frame)
  | delivered (out : List Response)
deriving DecidableEq, Repr

/-- A connection, with the record of it: the bytes read and the events, newest first. -/
structure Link where
  turns : List Turn
  buf : List UInt8 := []
  received : List UInt8 := []
  log : List DeckEvent := []
deriving DecidableEq, Repr

structure Hyperdeck where
  sock : Option Link := none
  greeting : Option Response := none
  notifications : List Response := []
deriving DecidableEq, Repr

/-- What the calls raise. `unfinished` stands for a loop that has not ended. -/
inductive DeckError
  | lineBreak (line : Line)
  | notConnected
  | cannotConnect
  | timedOut
  | peerClosed
  | malformedHead (head : Line)
  | unexpectedGreeting (greeting : Response)
  | refused (code : ℤ) (text : Line)
  | unfinished
deriving DecidableEq, Repr

end Bmdwire
