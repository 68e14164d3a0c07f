import Bmdwire.Model.Videohub

/-!
# The Videohub client

`videohubwire/client.py`: reading blocks, applying them to the state, the preamble of a
connection, and the calls that send a request and wait for its `ACK` or `NAK`.
-/

set_option autoImplicit false

namespace Bmdwire

open Library (Dict strip parseInt cutAt decodeUtf8 Framing)

/-! ## Block parsing -/

/-- `lines[0].strip()`. -/
def headerOf (lines : Block) : Line := strip (lines.headD [])

/-- The other lines, without the blank ones. -/
def bodyOf (lines : Block) : List Line := lines.tail.filter fun ln => strip ln ≠ []

/-- `.lower()`; letters outside ASCII stay. -/
def lowered (cs : Line) : String := String.ofList (cs.map Char.toLower)

/-- `_kv` -/
def kv (body : List Line) : List (String × String) :=
  body.filterMap fun line =>
    (cutAt [':'] line).map fun p => (lowered (strip p.1), String.ofList (strip p.2))

/-- A line `<index> <value>`; `none` when it is malformed. -/
def indexedEntry {ν : Type} (cast : Line → Option ν) (line : Line) : Option (ℤ × ν) :=
  let (tok, rest) := (cutAt [' '] (strip line)).getD (strip line, [])
  match cast (strip rest), parseInt 10 tok with
  | some value, some index => some (index, value)
  | _, _ => none

/-- `_apply_indexed`; a malformed line is skipped. -/
def applyIndexed {ν : Type} (body : List Line) (target : Dict ℤ ν) (cast : Line → Option ν) :
    Dict ℤ ν :=
  target.setAll (body.filterMap (indexedEntry cast))

/-- `str` and `int` as casts. -/
def castStr (cs : Line) : Option String := some (String.ofList cs)

def castInt (cs : Line) : Option ℤ := parseInt 10 cs

/-- The last version named, or the one before. -/
def lastVersion (entries : List (String × String)) (version : String) : String :=
  entries.foldl (fun version e => if e.1 = "version" then e.2 else version) version

/-- `_apply_block`; the header it returns is `headerOf`. -/
def applyBlock (s : HubState) (lines : Block) : HubState :=
  let body := bodyOf lines
  if headerOf lines = "PROTOCOL PREAMBLE:".toList then
    { s with protocolVersion := lastVersion (kv body) s.protocolVersion }
  else if headerOf lines = "VIDEOHUB DEVICE:".toList then
    { s with device := s.device.setAll (kv body) }
  else if headerOf lines = "INPUT LABELS:".toList then
    { s with inputLabels := applyIndexed body s.inputLabels castStr }
  else if headerOf lines = "OUTPUT LABELS:".toList then
    { s with outputLabels := applyIndexed body s.outputLabels castStr }
  else if headerOf lines = "VIDEO OUTPUT ROUTING:".toList then
    { s with routing := applyIndexed body s.routing castInt }
  else if headerOf lines = "VIDEO OUTPUT LOCKS:".toList then
    { s with locks := applyIndexed body s.locks castStr }
  else s

/-- `bool(self.device) and bool(self.routing)` -/
def hasEssentials (s : HubState) : Bool := s.device.keys ≠ [] ∧ s.routing.keys ≠ []

/-- Whether a block is the marker that ends a preamble. -/
def isMarker (block : Block) : Bool := headerOf block = "END PRELUDE:".toList

/-! ## Wire I/O -/

/-- `raw.decode('utf-8', 'replace').split('\n')` -/
def linesOf (raw : List UInt8) : Block := (decodeUtf8 raw).splitOn '\n'

/-- Blocks end in a blank line. -/
def blocks : Framing UInt8 Block := (Framing.delimited [0x0a, 0x0a] (by decide)).map linesOf

/-- What a wait for a block ends in. -/
inductive Arrival
  | block (lines : Block)
  | none
  | closed
deriving DecidableEq, Repr

/-- The loop of `_recv_block` on a socket: turns, bytes received and buffer, before and after. -/
def recvTurns : List Turn → List UInt8 → List UInt8 →
    Arrival × List Turn × List UInt8 × List UInt8
  | [], received, buf =>
    match blocks.next buf with
    | some (lines, rest) => (.block lines, [], received, rest)
    | none => (.closed, [], received, buf)
  | turn :: turns, received, buf =>
    match blocks.next buf with
    | some (lines, rest) => (.block lines, turn :: turns, received, rest)
    | none =>
      match turn with
      | .chunk first others =>
        recvTurns turns (received ++ first :: others) (buf ++ first :: others)
      | .quiet => (.none, turns, received, buf)
      | .late => (.none, turns, received, buf)

namespace Videohub

/-- `_recv_block`: a block, or `none` when the time passes first. -/
def recvBlock (vh : Videohub) : Except HubError (Option Block) × Videohub :=
  match vh.sock with
  | none =>
    match blocks.next vh.buf with
    | some (lines, rest) => (.ok (some lines), { vh with buf := rest })
    | none => (.error .attributeError, vh)
  | some wire =>
    match recvTurns wire.turns wire.received vh.buf with
    | (.block lines, turns, received, buf) =>
      (.ok (some lines), { vh with
        sock := some ⟨turns, received, .took lines :: wire.log⟩
        buf := buf })
    | (.none, turns, received, buf) =>
      (.ok none, { vh with sock := some ⟨turns, received, wire.log⟩, buf := buf })
    | (.closed, turns, received, buf) =>
      (.error (.videohubError "connection closed by hub"),
        { vh with sock := some ⟨turns, received, wire.log⟩, buf := buf })

/-- The bytes buffered and still to come, which bound the blocks a loop can read. -/
def pending (vh : Videohub) : ℕ :=
  vh.buf.length + stillToCome (vh.sock.elim [] Wire.turns)

/-- A handler of a block: the new state, and the end of the loop when there is one. -/
abbrev Handler := HubState → Block → HubState × Option (Except HubError Unit)

/-- Read block after block until a handler or a wait that runs out ends the loop. -/
def readUntil (handle : Handler) (expired : HubState → Except HubError Unit) :
    ℕ → Videohub → Except HubError Unit × Videohub
  | 0, vh => (.error .unfinished, vh)
  | fuel + 1, vh =>
    match vh.recvBlock with
    | (.error e, vh) => (.error e, vh)
    | (.ok none, vh) => (expired vh.state, vh)
    | (.ok (some block), vh) =>
      match handle vh.state block with
      | (state, some result) => (result, { vh with state := state })
      | (state, none) => readUntil handle expired fuel { vh with state := state }

/-- A `while True` around `_recv_block`. -/
def readLoop (handle : Handler) (expired : HubState → Except HubError Unit) (vh : Videohub) :
    Except HubError Unit × Videohub :=
  readUntil handle expired (vh.pending + 1) vh

/-- A block of the preamble is applied; the marker is the last. -/
def preambleBlock : Handler := fun s block =>
  (applyBlock s block, if isMarker block then some (.ok ()) else none)

/-- A quiet wire ends the preamble when the essentials are there. -/
def preambleQuiet (host : String) (s : HubState) : Except HubError Unit :=
  if hasEssentials s then .ok ()
  else .error (.videohubError ("no state preamble from " ++ host ++ " — is this a Videohub?"))

/-- `_read_preamble` -/
def readPreamble (vh : Videohub) : Except HubError Unit × Videohub :=
  vh.readLoop preambleBlock (preambleQuiet vh.host)

/-- `_drain` -/
def drain (vh : Videohub) : Except HubError Unit × Videohub :=
  vh.readLoop (fun s block => (applyBlock s block, none)) fun _ => .ok ()

/-- `_send` -/
def send (vh : Videohub) (text : Line) : Except HubError Unit × Videohub :=
  match vh.sock with
  | none => (.error (.videohubError "not connected"), vh)
  | some wire => (.ok (), { vh with sock := some { wire with log := .sent text :: wire.log } })

/-! ## Lifecycle -/

/-- `close` -/
def close (vh : Videohub) : Videohub := { vh with sock := none }

/-- `connect`: what the two attempts at a connection come to, the second made only after the
first failed, and the turns of the connection. -/
def connect (vh : Videohub) (first second : Bool) (turns : List Turn) :
    Except HubError Unit × Videohub :=
  if first ∨ second then
    match readPreamble { vh with sock := some { turns := turns }, buf := [] } with
    | (.ok (), vh) => (.ok (), vh)
    | (.error e, vh) => (.error e, vh.close)
  else (.error .osError, vh.close)

/-! ## Public API -/

/-- `int(self.device.get(key) or 0)` -/
def count (key : String) (s : HubState) : Except HubError ℤ :=
  match s.device.get? key with
  | none => .ok 0
  | some text =>
    if text = "" then .ok 0
    else match parseInt 10 text.toList with
      | some n => .ok n
      | none => .error (.valueError text)

def videoInputs (s : HubState) : Except HubError ℤ := count "video inputs" s

def videoOutputs (s : HubState) : Except HubError ℤ := count "video outputs" s

/-- `n or (max(labels, default=-1) + 1)` -/
def orLabelled (n : ℤ) (labels : Dict ℤ String) : ℤ :=
  if n ≠ 0 then n else (labels.keys.max?.getD (-1)) + 1

/-- `labels.get(i) or f'{name} {i + 1}'` -/
def labelOf (labels : Dict ℤ String) (name : String) (i : ℤ) : String :=
  let label := labels.getD i ""
  if label ≠ "" then label else name ++ " " ++ toString (i + 1)

/-- `range(n)` -/
def range (n : ℤ) : List ℤ := (List.range n.toNat).map fun i => (i : ℤ)

/-- The snapshot that `state()` builds. -/
def snapshot (s : HubState) : Except HubError Snapshot := do
  let nIn := orLabelled (← videoInputs s) s.inputLabels
  let nOut := orLabelled (← videoOutputs s) s.outputLabels
  return {
    modelName := s.device.getD "model name" ""
    friendlyName := s.device.getD "friendly name" ""
    videoInputs := nIn
    videoOutputs := nOut
    protocolVersion := s.protocolVersion
    inputs := (range nIn).map fun i => ⟨i, labelOf s.inputLabels "Input" i⟩
    outputs := (range nOut).map fun i =>
      ⟨i, labelOf s.outputLabels "Output" i, s.routing.get? i, s.locks.getD i "U"⟩ }

/-- `state()` -/
def getState (vh : Videohub) : Except HubError Snapshot × Videohub :=
  match vh.drain with
  | (.error e, vh) => (.error e, vh)
  | (.ok (), vh) => (snapshot vh.state, vh)

/-- A block while an answer is awaited: what an `ACK` does to the state, and what a `NAK` ends
in, if anything. Any other is a push and applied. -/
def answerBlock (acked : HubState → HubState) (refused : Option HubError) : Handler :=
  fun s block =>
    if headerOf block = "ACK".toList then (acked s, some (.ok ()))
    else
      match refused with
      | some e =>
        if headerOf block = "NAK".toList then (s, some (.error e)) else (applyBlock s block, none)
      | none => (applyBlock s block, none)

/-- Send a request and wait for its answer. -/
def request (text : Line) (acked : HubState → HubState) (refused : Option HubError)
    (timedOut : HubError) (vh : Videohub) : Except HubError Unit × Videohub :=
  match vh.send text with
  | (.error e, vh) => (.error e, vh)
  | (.ok (), vh) => vh.readLoop (answerBlock acked refused) fun _ => .error timedOut

/-- The text of a route in the messages. -/
def pair (dest src : ℤ) : String := toString dest ++ " <- " ++ toString src

/-- The checks of `route`. -/
def checkRoute (dest src : ℤ) (s : HubState) : Except HubError Unit :=
  if dest < 0 ∨ src < 0 then .error (.videohubError ("invalid route " ++ pair dest src))
  else do
    let nOut ← videoOutputs s
    let nIn ← videoInputs s
    if (nOut ≠ 0 ∧ nOut ≤ dest) ∨ (nIn ≠ 0 ∧ nIn ≤ src) then
      .error (.videohubError ("route " ++ pair dest src ++ " outside this hub (" ++
        toString nIn ++ "x" ++ toString nOut ++ ")"))
    else .ok ()

/-- `route` -/
def route (dest src : ℤ) (vh : Videohub) : Except HubError Unit × Videohub :=
  match checkRoute dest src vh.state with
  | .error e => (.error e, vh)
  | .ok () =>
    request ("VIDEO OUTPUT ROUTING:\n" ++ toString dest ++ " " ++ toString src ++ "\n\n").toList
      (fun s => { s with routing := s.routing.set dest src })
      (some (.videohubError ("hub refused route " ++ pair dest src ++ " (destination locked?)")))
      (.videohubError ("timed out waiting for ACK routing " ++ pair dest src)) vh

/-- `' '.join(str(label).split())` -/
def oneLine (label : String) : String :=
  " ".intercalate (((label.toList.splitOnP Library.isSpace).filter (· ≠ [])).map String.ofList)

/-- The checks of `_set_label`, after the number of ports is known. -/
def checkLabel (block : String) (count : Except HubError ℤ) (index : ℤ) (label : String) :
    Except HubError Unit := do
  let count ← count
  if 64 < (oneLine label).length then
    .error (.videohubError "label too long (max 64 characters)")
  else if index < 0 ∨ (count ≠ 0 ∧ count ≤ index) then
    .error (.videohubError (block.toLower ++ " index " ++ toString index ++ " outside this hub"))
  else .ok ()

/-- `_set_label`, for the table of labels that `store` writes. -/
def setLabel (block : String) (table : HubState → Dict ℤ String)
    (store : HubState → Dict ℤ String → HubState) (count : Except HubError ℤ) (index : ℤ)
    (label : String) (vh : Videohub) : Except HubError Unit × Videohub :=
  match checkLabel block count index label with
  | .error e => (.error e, vh)
  | .ok () =>
    request (block ++ ":\n" ++ toString index ++ " " ++ oneLine label ++ "\n\n").toList
      (fun s => store s ((table s).set index (oneLine label)))
      (some (.videohubError
        ("hub refused label change on " ++ block.toLower ++ " " ++ toString index)))
      (.videohubError
        ("timed out waiting for ACK renaming " ++ block.toLower ++ " " ++ toString index)) vh

/-- `set_input_label` -/
def setInputLabel (index : ℤ) (label : String) (vh : Videohub) :
    Except HubError Unit × Videohub :=
  setLabel "INPUT LABELS" HubState.inputLabels (fun s labels => { s with inputLabels := labels })
    (videoInputs vh.state) index label vh

/-- `set_output_label` -/
def setOutputLabel (index : ℤ) (label : String) (vh : Videohub) :
    Except HubError Unit × Videohub :=
  setLabel "OUTPUT LABELS" HubState.outputLabels
    (fun s labels => { s with outputLabels := labels }) (videoOutputs vh.state) index label vh

/-- `ping`; it takes no notice of a `NAK`. -/
def ping (vh : Videohub) : Except HubError Unit × Videohub :=
  request "PING:\n\n".toList id none (.videohubError "timed out waiting for PING ack") vh

/-- The calls of a client object; the socket factory and the hub decide what a `connect`
meets. -/
inductive Call
  | connect (first second : Bool) (turns : List Turn)
  | close
  | state
  | route (dest src : ℤ)
  | setInputLabel (index : ℤ) (label : String)
  | setOutputLabel (index : ℤ) (label : String)
  | ping
deriving DecidableEq, Repr

/-- The checks a call makes before it sends anything. -/
def check (s : HubState) : Call → Except HubError Unit
  | .route dest src => checkRoute dest src s
  | .setInputLabel index label => checkLabel "INPUT LABELS" (videoInputs s) index label
  | .setOutputLabel index label => checkLabel "OUTPUT LABELS" (videoOutputs s) index label
  | _ => .ok ()

/-- A call, and what it raises. -/
def perform (vh : Videohub) : Call → Except HubError Unit × Videohub
  | .connect first second turns => vh.connect first second turns
  | .close => (.ok (), vh.close)
  | .state => (vh.getState.1.map fun _ => (), vh.getState.2)
  | .route dest src => vh.route dest src
  | .setInputLabel index label => vh.setInputLabel index label
  | .setOutputLabel index label => vh.setOutputLabel index label
  | .ping => vh.ping

/-- A new client after a history of calls. -/
def after (host : String) (history : List Call) : Videohub :=
  history.foldl (fun vh call => (vh.perform call).2) { host := host }

end Videohub

end Bmdwire
