import Bmdwire.Library.Numerals
import Bmdwire.Library.Polling
import Bmdwire.Model.Sockets

/-!
# The network settings of an Ultimatte

`ultimattewire/network.py`: blocks and their answers, the parsing of an interface section, and
`set_network` with its read-back.
-/

set_option autoImplicit false

namespace Bmdwire.Ultimatte

open Library (isSpace strip parseInt Look poll)

/-- One `NETWORK INTERFACE n` section, as the unit reports it. -/
structure NetworkInterface where
  index : ℕ
  name : Line
  mac : Line
  priority : Option ℤ
  dynamic : Option Bool
  address : Line
  netmask : Line
  gateway : Line
  dns : List Line
  staticAddress : Line
  staticNetmask : Line
  staticGateway : Line
  staticDns : List Line
  raw : Line
deriving DecidableEq, Repr

/-- What the calls raise. -/
inductive NetworkError
  | halfAddress
  | nothingToSet
  | unreachable
  | nak (block : Line)
  | noAck (reply : Line)
  | notSettled (fields : List Line)
deriving DecidableEq, Repr

/-- How a session with the unit goes: an `OSError`, or the text of its reply. -/
inductive Session
  | unreachable
  | replied (text : Line)
deriving DecidableEq, Repr

/-- `UNCONFIGURED` -/
def unconfigured : Line := "0.0.0.0".toList

/-- `str.split()`, after the character before. -/
def wordsFrom : Line → Line → List Line
  | word, [] => if word = [] then [] else [word.reverse]
  | word, c :: text =>
    if isSpace c then
      if word = [] then wordsFrom [] text else word.reverse :: wordsFrom [] text
    else wordsFrom (c :: word) text

/-- `value.replace(",", " ").split()`, which is `_split_list`. -/
def splitList (value : Line) : List Line :=
  wordsFrom [] (value.map fun c => if c = ',' then ' ' else c)

/-- `_split_address`: of several, the first. -/
def splitAddress (value : Line) : Line × Line :=
  match splitList value with
  | [] => ([], [])
  | first :: _ =>
    if '/' ∈ first then
      (strip (first.takeWhile (· ≠ '/')), strip ((first.dropWhile (· ≠ '/')).drop 1))
    else (strip first, [])

/-- The value behind `^{key}:[ \t]*(.*)$`, stripped, and nothing without such a line. -/
def fieldOf (text : Line) (key : String) : Line :=
  match (text.splitOn '\n').findSome? fun line => (key.toList ++ [':']).isPrefixOf? line with
  | some value => strip (value.dropWhile fun c => c = ' ' ∨ c = '\t')
  | none => []

/-- `parse_interface` -/
def parseInterface (text : Line) (index : ℕ) : NetworkInterface :=
  let get := fieldOf text
  let priority := get "Priority"
  let dynamic := (get "Dynamic IP").map Char.toLower
  let (address, netmask) := splitAddress (get "Current Addresses")
  let (staticAddress, staticNetmask) := splitAddress (get "Static Addresses")
  { index := index
    name := get "Name"
    mac := get "MAC Address"
    priority := if priority ≠ [] ∧ priority.all Char.isDigit then parseInt 10 priority else none
    dynamic :=
      if dynamic = "true".toList then some true
      else if dynamic = "false".toList then some false
      else none
    address := address
    netmask := netmask
    gateway := get "Current Gateway"
    dns := splitList (get "Current DNS Servers")
    staticAddress := staticAddress
    staticNetmask := staticNetmask
    staticGateway := get "Static Gateway"
    staticDns := splitList (get "Static DNS Servers")
    raw := text }

/-- `build_block` -/
def buildBlock (index : ℕ) (fields : List (Line × Line)) : Line :=
  let header := "NETWORK INTERFACE ".toList ++ index.repr.toList ++ [':']
  ['\n'].intercalate (header :: fields.map fun f => f.1 ++ ": ".toList ++ f.2) ++ "\n\n".toList

/-- `exchange`, after the reply was read. -/
def exchange (block : Line) (session : Session) : Except NetworkError Line :=
  match session with
  | .unreachable => .error .unreachable
  | .replied reply =>
    let stripped := reply.dropWhile isSpace
    if "NAK".toList.isPrefixOf stripped then .error (.nak block)
    else
      match "ACK".toList.isPrefixOf? stripped with
      | none => .error (.noAck reply)
      | some body => .ok (body.dropWhile (· = '\n'))

/-- `read_network` -/
def readNetwork (index : ℕ) (session : Session) : Except NetworkError NetworkInterface := do
  let body ← exchange (buildBlock index []) session
  return parseInterface body index

/-- What `set_network` is asked to set. -/
structure NetworkRequest where
  address : Option Line := none
  netmask : Option Line := none
  gateway : Option Line := none
  dns : Option (List Line) := none
  dynamic : Option Bool := none
deriving DecidableEq, Repr

/-- The fields of the block, in their order. -/
def NetworkRequest.fields (req : NetworkRequest) : List (Line × Line) :=
  (req.dynamic.toList.map fun dynamic =>
    ("Dynamic IP".toList, if dynamic then "true".toList else "false".toList)) ++
  (req.address.toList.map fun address =>
    ("Static Addresses".toList, address ++ '/' :: req.netmask.getD "None".toList)) ++
  (req.gateway.toList.map fun gateway => ("Static Gateway".toList, gateway)) ++
  (req.dns.toList.map fun dns => ("Static DNS Servers".toList, [' '].intercalate dns))

/-- `_settled` -/
def settled (iface : NetworkInterface) (addressWasSet : Bool) : Bool :=
  if !addressWasSet then true
  else if iface.address = [] ∨ iface.address = unconfigured then false
  else iface.address = iface.staticAddress ∧ iface.netmask = iface.staticNetmask

/-- One turn of the read-back: a failure, and an interface that has not settled, are no use. -/
def lookBack (index : ℕ) (req : NetworkRequest) (session : Session) :
    Look NetworkInterface NetworkError :=
  match readNetwork index session with
  | .ok iface => if settled iface req.address.isSome then .done iface else .again
  | .error _ => .again

/-- `set_network`, with how the unit takes the block and the sessions of the read-back up to
its deadline. -/
def setNetwork (index : ℕ) (req : NetworkRequest) (unit : Line → Session)
    (readBack : List Session) : Except NetworkError NetworkInterface :=
  if req.address.isNone ≠ req.netmask.isNone then .error .halfAddress
  else if req.fields = [] then .error .nothingToSet
  else
    let block := buildBlock index req.fields
    match exchange block (unit block) with
    | .error e => .error e
    | .ok _ => poll (lookBack index req) (.notSettled (req.fields.map Prod.fst)) readBack

end Bmdwire.Ultimatte
