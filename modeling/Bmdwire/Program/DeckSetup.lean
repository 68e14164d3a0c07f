import Bmdwire.Library.Json
import Bmdwire.Library.Numerals
import Bmdwire.Library.Polling

/-!
# The network settings of a HyperDeck

`hyperdeckwire/setup.py`: the answers of the configuration API, the parsing of an interface, and
`HyperdeckSetup.set_network` with its read-back.
-/

set_option autoImplicit false

namespace Bmdwire.DeckSetup

open Library (Json Look poll parseInt)

/-- What a request to the deck comes to: a connection that fails, a refusal, or a body. -/
inductive Answer
  | osError
  | httpError (status : ℕ)
  | empty
  | notJson
  | json (value : Json)

/-- What the calls raise. `crashed` stands for the exceptions of a body of another shape, such as
`AttributeError`. -/
inductive SetupError
  | nothingToSet
  | osError
  | refused (status : Option ℕ)
  | crashed
  | notSettled
deriving DecidableEq, Repr

/-- One network interface as the deck reports it. The configured values and those the interface
is running are what the API says, of whatever JSON type. -/
structure NetworkInterface where
  id : Json
  name : Json
  mac : Json
  hostname : Json
  dhcp : Option Bool
  address : Json
  netmask : Json
  gateway : Json
  dns : List Json
  activeAddress : Json
  activeNetmask : Json
  activeGateway : Json
  activeDns : List Json
  linked : Option Bool
  speedBps : Option ℤ

/-- `value.get(key)`; only an object has one. -/
def get (value : Json) (key : String) : Except SetupError (Option Json) :=
  match value with
  | .obj fields => .ok (Json.lookup key fields)
  | _ => .error .crashed

/-- `value.get(key, default)` -/
def getOr (value : Json) (key : String) (default : Json) : Except SetupError Json := do
  return (← get value key).getD default

/-- `value.get(key) or default` -/
def getTruthy (value : Json) (key : String) (default : Json) : Except SetupError Json := do
  match ← get value key with
  | some found => return if found.truthy then found else default
  | none => return default

/-- `list(value)` -/
def listOf (value : Json) : Except SetupError (List Json) :=
  match value with
  | .arr items => .ok items
  | .str s => .ok (s.toList.map fun c => .str (String.singleton c))
  | .obj fields => .ok (fields.map fun f => .str f.1)
  | _ => .error .crashed

/-- `value.lower()` -/
def lower (value : Json) : Except SetupError (List Char) :=
  match value with
  | .str s => .ok (s.toList.map Char.toLower)
  | _ => .error .crashed

/-- `None if value is None else int(value)` -/
def intOf (value : Option Json) : Except SetupError (Option ℤ) :=
  match value with
  | none => .ok none
  | some .null => .ok none
  | some (.num q) => .ok (some (q.num.tdiv q.den))
  | some (.bool b) => .ok (some (if b then 1 else 0))
  | some (.str s) =>
    match parseInt 10 s.toList with
    | some n => .ok (some n)
    | none => .error .crashed
  | some _ => .error .crashed

/-- `parse_interface` -/
def parseInterface (payload : Json) : Except SetupError NetworkInterface := do
  let iface ← getTruthy payload "interface" (.obj [])
  let manual ← getTruthy iface "manualConfig" (.obj [])
  let active ← getTruthy iface "activeConfig" (.obj [])
  let kind ← lower (← getTruthy iface "type" (.str ""))
  let linked ← get iface "physicallyLinked"
  let speed ← get iface "currentSpeedBps"
  return {
    id := ← getOr iface "id" (.str "0")
    name := ← getOr iface "name" (.str "")
    mac := ← getOr iface "macAddress" (.str "")
    hostname := ← getOr payload "hostname" (.str "")
    dhcp := if kind = "dhcp".toList then some true
      else if kind = "static".toList then some false
      else none
    address := ← getOr manual "address" (.str "")
    netmask := ← getOr manual "netmask" (.str "")
    gateway := ← getOr manual "gateway" (.str "")
    dns := ← listOf (← getTruthy manual "dnsServers" (.arr []))
    activeAddress := ← getOr active "address" (.str "")
    activeNetmask := ← getOr active "netmask" (.str "")
    activeGateway := ← getOr active "gateway" (.str "")
    activeDns := ← listOf (← getTruthy active "dnsServers" (.arr []))
    linked := match linked with
      | none => none
      | some .null => none
      | some value => some value.truthy
    speedBps := ← intOf speed }

namespace NetworkInterface

/-- `settled` -/
def settled (iface : NetworkInterface) : Bool :=
  if iface.dhcp = some true then iface.activeAddress.truthy
  else iface.activeAddress.truthy && iface.activeAddress.same iface.address &&
    iface.activeNetmask.same iface.netmask && iface.activeGateway.same iface.gateway

end NetworkInterface

/-- `_call` -/
def call (answer : Answer) : Except SetupError Json :=
  match answer with
  | .osError => .error .osError
  | .httpError status => .error (.refused (some status))
  | .empty => .ok (.obj [])
  | .notJson => .error (.refused none)
  | .json (.obj fields) =>
    match Json.lookup "success" fields with
    | some (.bool false) => .error (.refused none)
    | _ => .ok (.obj fields)
  | .json value => .ok (.obj [("response", value)])

/-- `network` -/
def network (answer : Answer) : Except SetupError NetworkInterface := do
  let body ← call answer
  parseInterface (← getTruthy body "response" (.obj []))

/-- What `set_network` is asked to set. -/
structure NetworkRequest where
  address : Option String := none
  netmask : Option String := none
  gateway : Option String := none
  dns : Option (List String) := none
  dhcp : Option Bool := none
deriving DecidableEq, Repr

/-- The configuration that is written, but for its id. -/
structure Body where
  dhcp : Bool
  address : Json
  netmask : Json
  gateway : Json
  dnsServers : List Json

/-- `want_dhcp` -/
def NetworkRequest.wantDhcp (req : NetworkRequest) (before : NetworkInterface) : Bool :=
  (req.dhcp.or before.dhcp).getD false

/-- `body`: what is not asked for stays. -/
def NetworkRequest.body (req : NetworkRequest) (before : NetworkInterface) : Body where
  dhcp := req.wantDhcp before
  address := (req.address.map Json.str).getD before.address
  netmask := (req.netmask.map Json.str).getD before.netmask
  gateway := (req.gateway.map Json.str).getD before.gateway
  dnsServers := (req.dns.map (·.map Json.str)).getD before.dns

/-- `configured_ok` -/
def configuredOk (body : Body) (after : NetworkInterface) : Bool :=
  if body.dhcp then after.dhcp = some true
  else after.dhcp = some false && after.address.same body.address &&
    after.netmask.same body.netmask && after.gateway.same body.gateway &&
    Json.sameAll after.dns body.dnsServers

/-- One turn of the read-back. A refusal and a connection that fails are no use. -/
def lookBack (body : Body) (answer : Answer) : Look NetworkInterface SetupError :=
  match network answer with
  | .ok after => if configuredOk body after && after.settled then .done after else .again
  | .error .osError => .again
  | .error (.refused _) => .again
  | .error e => .raised e

/-- `set_network`, with the answer to the first read, how the deck takes the new configuration,
and the answers of the read-back up to its deadline. -/
def setNetwork (req : NetworkRequest) (before : Answer) (deck : Body → Answer)
    (readBack : List Answer) : Except SetupError NetworkInterface := do
  if req = {} then .error .nothingToSet
  else
    let before ← network before
    let body := req.body before
    let _ ← call (deck body)
    poll (lookBack body) .notSettled readBack

end Bmdwire.DeckSetup
