import Bmdwire.Library.Dict
import Bmdwire.Library.Framing
import Bmdwire.Model.Sockets
import Bmdwire.Library.Numerals
import Bmdwire.Library.Utf8

/-!
# The data of the Videohub client

A `Videohub` holds one socket, the bytes read from it and not yet taken as blocks, and the state
put together from the blocks. The record of what was sent and taken on the socket is kept for the
proofs alone: no function of the client reads it.
-/

set_option autoImplicit false

namespace Bmdwire

open Library (Dict strip parseInt cutAt decodeUtf8)

/-- A block, its header line first. -/
abbrev Block := List Line

/-- What went over a connection. -/
inductive WireEvent
  | sent (text : Line)
  | took (block : Block)
deriving DecidableEq, Repr

/-- A connection, with the record of it: the bytes read and the events, newest first. -/
structure Wire where
  turns : List Turn
  received : List UInt8 := []
  log : List WireEvent := []
deriving DecidableEq, Repr

/-- The state assembled from the preamble and the pushed blocks. -/
structure HubState where
  protocolVersion : String := ""
  device : Dict String String := .empty
  inputLabels : Dict ℤ String := .empty
  outputLabels : Dict ℤ String := .empty
  routing : Dict ℤ ℤ := .empty
  locks : Dict ℤ String := .empty

structure Videohub where
  host : String
  sock : Option Wire := none
  buf : List UInt8 := []
  state : HubState := {}

/-- What the calls raise. `unfinished` stands for a loop that has not ended. -/
inductive HubError
  | videohubError (message : String)
  | osError
  | attributeError
  | valueError (text : String)
  | unfinished
deriving DecidableEq, Repr

/-- An input or an output of `state()`. -/
structure InputPort where
  index : ℤ
  label : String
deriving DecidableEq, Repr

structure OutputPort where
  index : ℤ
  label : String
  source : Option ℤ
  lock : String
deriving DecidableEq, Repr

/-- What `state()` returns. -/
structure Snapshot where
  modelName : String
  friendlyName : String
  videoInputs : ℤ
  videoOutputs : ℤ
  protocolVersion : String
  inputs : List InputPort
  outputs : List OutputPort
deriving DecidableEq, Repr

end Bmdwire
