import Bmdwire.Analysis.Readiness
import Bmdwire.Analysis.SignalErrors

/-!
# What leaves the loop

A turn of the loop contains the failures of single fields, but not those around them: a header cut
short at the end of a payload, a reply to the SYN without data, and a flush signal that finds the
lane elsewhere (`Survives`). `contained_iff` says that there are no others.
-/

set_option autoImplicit false

namespace Bmdwire

open Library (Dict)

/-! ## An empty reply -/

namespace Udp

section Replies

variable {socket : Socket} {aggressive : Bool} {now : Time} {s : Udp} {p : Packet}

/-- A sentinel comes before the packet that is taken: the dump is over, or the send queue has run
empty. -/
def OwesSentinel (s : Udp) : Prop :=
  s.markNextConnected = true ∨ s.enableAck = true ∧ s.queueEnabled = true ∧ s.sendQueue = []

/-- The packet is a reply to the SYN that is out, and has no data. -/
def RepliesEmpty (p : Packet) (s : Udp) : Prop :=
  s.state = .synSent ∧ p.has flagSyn = true ∧ p.session = s.sessionId ∧ p.data.getD [] = []

/-- The next packet is an empty reply to the SYN. -/
def EmptyReply (s : Udp) : Prop :=
  match s.pending with
  | .packet p :: _ => ¬ s.OwesSentinel ∧ s.RepliesEmpty p
  | _ => False

theorem handshake_raises (p : Packet) (s : Udp) : (s.handshake p).1 = true ↔
    p.has flagSyn = true ∧ p.session = s.sessionId ∧ p.data.getD [] = [] := by
  unfold handshake
  split
  · rename_i hother
    constructor
    · simp
    · rintro ⟨hsyn, hsession, -⟩
      exact absurd hother (by simp [hsyn, hsession])
  · rename_i hreply
    obtain ⟨hsyn, hsession⟩ : p.has flagSyn = true ∧ p.session = s.sessionId := by
      simpa [not_or] using hreply
    split
    · rename_i hnone
      exact ⟨fun _ => ⟨hsyn, hsession, hnone⟩, fun _ => rfl⟩
    · rename_i code rest hsome
      constructor
      · split
        · simp
        · simp
      · rintro ⟨-, -, hnone⟩
        rw [hnone] at hsome
        cases hsome

theorem receiveData_error : (s.receiveData aggressive p).1 = .error () ↔ s.RepliesEmpty p := by
  unfold receiveData
  split
  · rename_i hsyn
    have hraises := handshake_raises p { s with hadTraffic := true }
    dsimp only at hraises ⊢
    generalize { s with hadTraffic := true }.handshake p = r at hraises ⊢
    have hempty : s.RepliesEmpty p ↔ r.1 = true :=
      ⟨fun h => hraises.mpr h.2, fun h => ⟨hsyn, hraises.mp h⟩⟩
    rw [hempty]
    cases r.1 with
    | true => simp
    | false => simp
  · rename_i hup
    split
    · simp [RepliesEmpty, hup]
    · simp [RepliesEmpty, hup]
  · rename_i hsyn _
    exact ⟨fun h => (nomatch h), fun h => absurd h.1 hsyn⟩

/-- `queue_trigger` reports a queue that has run empty. -/
theorem queueTrigger_iff : (s.queueTrigger aggressive).1 = true ↔
    s.queueEnabled = true ∧ s.sendQueue = [] := by
  unfold queueTrigger
  by_cases hempty : s.sendQueue = []
  · rw [if_neg (not_not.mpr hempty)]
    cases s.queueEnabled with
    | true => simp [hempty]
    | false => simp
  · simp [hempty]

theorem receiveTaken_error : (s.receiveTaken aggressive p).1 = .error () ↔
    ¬ s.OwesSentinel ∧ s.RepliesEmpty p := by
  unfold receiveTaken OwesSentinel
  cases s.markNextConnected with
  | true => simp
  | false =>
    cases s.enableAck with
    | false => simp [receiveData_error]
    | true =>
      have hsame : (s.queueTrigger aggressive).2.RepliesEmpty p ↔ s.RepliesEmpty p := by
        unfold RepliesEmpty queueTrigger
        split
        · rfl
        · split
          · rfl
          · rfl
      rw [← @queueTrigger_iff aggressive s]
      dsimp only
      rw [if_neg (by simp), if_pos rfl]
      cases (s.queueTrigger aggressive).1 with
      | true => simp
      | false => simp [receiveData_error, hsame]

theorem receiveTurn_error :
    (s.receiveTurn socket now aggressive).1 = .error () ↔ s.EmptyReply := by
  have hpending : ∀ {stashed : Option Packet} {queue : List RecvItem}, s.stashedPacket = stashed →
      s.threadRecvQueue = queue → s.pending = (stashed.map .packet).toList ++ queue := by
    rintro stashed queue rfl rfl
    rfl
  unfold receiveTurn EmptyReply
  split
  · rename_i _ p hstash
    rw [hpending hstash rfl]
    exact @receiveTaken_error aggressive { s with stashedPacket := none } p
  · rename_i hstash hqueue
    rw [hpending hstash hqueue]
    simp
  · rename_i p rest hstash hqueue
    rw [hpending hstash hqueue]
    exact @receiveTaken_error aggressive { s with threadRecvQueue := rest } p
  · rename_i rest hstash hqueue
    rw [hpending hstash hqueue]
    unfold receiveDisconnected
    split
    · obtain ⟨hok, -⟩ := @connect_spec socket now
        { s with threadRecvQueue := rest, state := .closed, hadTraffic := false } rfl
      dsimp only at hok ⊢
      rw [hok]
      simp
    · simp
  · rename_i rest hstash hqueue
    rw [hpending hstash hqueue]
    simp

end Replies

end Udp

namespace LoopState

section Turns

variable {κ ι α : Type} [DecidableEq κ] [DecidableEq ι] (keys : FieldKeys κ α)
  (handling : Bytes → Bytes → FieldHandling κ ι α) (socket : Socket) (env : Env)
  (aggressive : Bool)

/-! ## The loop without its lane -/

/-- Of the messages for the lane, only the state of a lock is stored. -/
def StoresLocks : Prop :=
  ∀ code contents e f, handling code contents = .message e (some f) →
    ∃ store state, e = .lockState store state

section Protocol

variable {keys handling socket env aggressive} {s : LoopState κ ι α}

theorem saveFieldData_protocol (hlocks : StoresLocks handling) (code contents : Bytes) :
    ((s.saveFieldData keys handling env code contents).1 = .connectionError ↔
      (s.protocol.saveField keys (fun c d => (handling c d).action) code contents).1 = true) ∧
    (s.saveFieldData keys handling env code contents).2.protocol =
      (s.protocol.saveField keys (fun c d => (handling c d).action) code contents).2.2 := by
  have hstore : ∀ (f : ParsedField κ ι α) (t : LoopState κ ι α),
      (t.storeField f).1 ≠ .connectionError := by
    intro f t
    unfold storeField
    dsimp only
    split
    · simp
    · simp
  unfold saveFieldData AtemProtocol.saveField
  by_cases hcode : code = inCmCode
  · rw [if_pos hcode, if_pos hcode]
    split
    · exact ⟨by simp, rfl⟩
    · exact ⟨by simp, rfl⟩
  · rw [if_neg hcode, if_neg hcode]
    dsimp only
    cases hfield : handling code contents with
    | store f => exact ⟨by simp [FieldHandling.action, hstore], rfl⟩
    | raises => exact ⟨by simp [FieldHandling.action], rfl⟩
    | message e stored =>
      cases stored with
      | some f =>
        obtain ⟨store, state, rfl⟩ := hlocks code contents e f hfield
        dsimp only
        rw [(Lane.calm_lockState store state s.lane).raised?]
        exact ⟨by simp [FieldHandling.action, hstore], rfl⟩
      | none =>
        dsimp only
        split
        · exact ⟨by simp [FieldHandling.action], rfl⟩
        · exact ⟨by simp [FieldHandling.action], rfl⟩

theorem saveFields_protocol (hlocks : StoresLocks handling) (fields : List (Bytes × Bytes)) :
    (s.saveFields keys handling env fields).2.1 =
      (s.protocol.saveFields keys (fun c d => (handling c d).action) fields).1 ∧
    (s.saveFields keys handling env fields).2.2.protocol =
      (s.protocol.saveFields keys (fun c d => (handling c d).action) fields).2.2 := by
  induction fields generalizing s with
  | nil => exact ⟨rfl, rfl⟩
  | cons f fields ih =>
    obtain ⟨herror, hprotocol⟩ := @saveFieldData_protocol _ _ _ _ _ keys handling env s hlocks
      f.1 f.2
    unfold saveFields AtemProtocol.saveFields
    dsimp only
    by_cases hraised : (s.saveFieldData keys handling env f.1 f.2).1 = .connectionError
    · rw [if_pos hraised, if_pos (herror.mp hraised)]
      exact ⟨(herror.mp hraised).symm, hprotocol⟩
    · rw [if_neg hraised, if_neg (fun h => hraised (herror.mpr h)), ← hprotocol]
      exact ih

/-- A turn of the loop with its lane is one of the protocol by itself. -/
theorem turn_protocol (hlocks : StoresLocks handling) :
    (s.turn keys handling socket env aggressive).2.protocol =
      (s.protocol.turn keys (fun c d => (handling c d).action) socket env.now aggressive).2 := by
  unfold turn AtemProtocol.turn
  dsimp only
  cases (s.protocol.udp.receiveTurn socket env.now aggressive).1 with
  | error _ => rfl
  | ok o =>
    cases o with
    | none => rfl
    | some r =>
      dsimp only
      generalize (s.protocol.udp.receiveTurn socket env.now aggressive).2 = u
      cases r with
      | none =>
        unfold loopOn loopNone AtemProtocol.loopOn
        dsimp only
        cases hconnected : s.protocol.connected with
        | true => rfl
        | false => simp
      | connectionReady => rfl
      | wakeup => rfl
      | transferQueueFlushed => rfl
      | packet p =>
        unfold loopOn loopPacket AtemProtocol.loopOn AtemProtocol.loopPacket
        dsimp only
        obtain ⟨herror, hprotocol⟩ := @saveFields_protocol _ _ _ _ _ keys handling env
          { s with protocol := { s.protocol with udp := u, connected := true } } hlocks
          (decodePacket (p.data.getD [])).1
        dsimp only at herror hprotocol
        rw [← herror]
        split
        · unfold reconnect
          rw [hprotocol]
        · rw [← hprotocol]
          split
          · rfl
          · rfl

end Protocol

/-! ## The fields of a packet -/

/-- The fields are handled one after the other, up to a `ConnectionError`. One that raises is lost
by itself: those behind it are handled, and one whose parser raises might as well not be there. -/
structure FieldsHandled (fields : List (Bytes × Bytes)) (s : LoopState κ ι α) : Prop where
  order : (s.saveFields keys handling env fields).1 <+: fields
  all : (s.saveFields keys handling env fields).2.1 = false →
    (s.saveFields keys handling env fields).1 = fields
  behind : ∀ before f after, fields = before ++ f :: after →
    (s.saveFields keys handling env before).2.1 = false →
    ((s.saveFields keys handling env before).2.2.saveFieldData keys handling env f.1 f.2).1 =
      .raised →
    (s.saveFields keys handling env fields).2 =
      (((s.saveFields keys handling env before).2.2.saveFieldData keys handling env f.1
        f.2).2.saveFields keys handling env after).2
  lost : ∀ before f after, fields = before ++ f :: after → f.1 ≠ inCmCode →
    handling f.1 f.2 = .raises →
    (s.saveFields keys handling env fields).2 =
      (s.saveFields keys handling env (before ++ after)).2

/-- The state in which `loop` handles what `receive_packet` has returned. -/
def received (s : LoopState κ ι α) : LoopState κ ι α :=
  { s with protocol := { s.protocol with
      udp := (s.protocol.udp.receiveTurn socket env.now aggressive).2 } }

/-- The state in which it handles the fields of a packet. -/
def connected (s : LoopState κ ι α) : LoopState κ ι α :=
  { s with protocol := { s.protocol with connected := true } }

/-! ## Containment -/

/-- A turn returns; it handles the fields of a packet; and a flush signal while no upload is in
flight does nothing. -/
structure Contained (s : LoopState κ ι α) : Prop where
  returns : (s.turn keys handling socket env aggressive).1 = none
  fields : ∀ p, (s.protocol.udp.receiveTurn socket env.now aggressive).1 =
      .ok (some (.packet p)) →
    FieldsHandled keys handling env (decodePacket (p.data.getD [])).1
      (s.received socket env aggressive).connected
  flushed : (s.protocol.udp.receiveTurn socket env.now aggressive).1 =
      .ok (some .transferQueueFlushed) →
    (∀ task, s.lane.inFlight = some task → task.kind ≠ .upload) →
    (s.turn keys handling socket env aggressive).2 =
      { s.received socket env aggressive with lane := s.lane.receive env .queueFlushed }

/-- The next packet is no empty reply to the SYN; a payload that ends in a header cut short has a
`ConnectionError` before that; and a flush signal finds the lane with an upload that has all its
chunks cut or was granted a budget, or a connected protocol with nothing in flight. -/
structure Survives (s : LoopState κ ι α) : Prop where
  replies : ¬ s.protocol.udp.EmptyReply
  framed : ∀ p, (s.protocol.udp.receiveTurn socket env.now aggressive).1 =
      .ok (some (.packet p)) → (decodePacket (p.data.getD [])).2 = .structError →
    ((s.received socket env aggressive).connected.saveFields keys handling env
      (decodePacket (p.data.getD [])).1).2.1 = true
  flushable : (s.protocol.udp.receiveTurn socket env.now aggressive).1 =
      .ok (some .transferQueueFlushed) →
    s.lane.Flushable ∧ (s.lane.inFlight = none → s.protocol.connected = true)

variable {keys handling socket env aggressive} {s : LoopState κ ι α}

theorem saveFields_cons (f : Bytes × Bytes) (rest : List (Bytes × Bytes)) :
    s.saveFields keys handling env (f :: rest) =
      if (s.saveFieldData keys handling env f.1 f.2).1 = .connectionError then
        ([f], true, (s.saveFieldData keys handling env f.1 f.2).2)
      else
        (f :: ((s.saveFieldData keys handling env f.1 f.2).2.saveFields keys handling env rest).1,
          ((s.saveFieldData keys handling env f.1 f.2).2.saveFields keys handling env rest).2) :=
  rfl

theorem saveFields_append (before after : List (Bytes × Bytes))
    (h : (s.saveFields keys handling env before).2.1 = false) :
    (s.saveFields keys handling env (before ++ after)).2 =
      ((s.saveFields keys handling env before).2.2.saveFields keys handling env after).2 := by
  induction before generalizing s with
  | nil => rfl
  | cons f before ih =>
    rw [saveFields_cons] at h
    rw [List.cons_append, saveFields_cons f before, saveFields_cons f (before ++ after)]
    split
    · rename_i herror
      rw [if_pos herror] at h
      cases h
    · rename_i hno
      rw [if_neg hno] at h
      exact ih h

/-- A `ConnectionError` ends the handling of the fields. -/
theorem saveFields_error (before after : List (Bytes × Bytes))
    (h : (s.saveFields keys handling env before).2.1 = true) :
    s.saveFields keys handling env (before ++ after) = s.saveFields keys handling env before := by
  induction before generalizing s with
  | nil => cases h
  | cons f before ih =>
    rw [saveFields_cons] at h
    rw [List.cons_append, saveFields_cons f before, saveFields_cons f (before ++ after)]
    split
    · rfl
    · rename_i hno
      rw [if_neg hno] at h
      rw [ih h]

theorem fieldsHandled (fields : List (Bytes × Bytes)) (s : LoopState κ ι α) :
    FieldsHandled keys handling env fields s where
  order := by
    induction fields generalizing s with
    | nil => exact List.prefix_rfl
    | cons f fields ih =>
      rw [saveFields_cons]
      split
      · exact ⟨fields, rfl⟩
      · exact List.cons_prefix_cons.mpr ⟨rfl, ih _⟩
  all := by
    induction fields generalizing s with
    | nil => exact fun _ => rfl
    | cons f fields ih =>
      rw [saveFields_cons]
      split
      · exact fun h => (nomatch h)
      · exact fun h => congrArg _ (ih _ h)
  behind := by
    rintro before f after rfl hno hraised
    rw [saveFields_append before (f :: after) hno]
    generalize (s.saveFields keys handling env before).2.2 = t at hraised ⊢
    rw [saveFields_cons, if_neg (by rw [hraised]; simp)]
  lost := by
    rintro before f after rfl hcode hraises
    cases hno : (s.saveFields keys handling env before).2.1 with
    | true => rw [saveFields_error before _ hno, saveFields_error before _ hno]
    | false =>
      rw [saveFields_append before _ hno, saveFields_append before _ hno]
      generalize (s.saveFields keys handling env before).2.2 = t
      have hdata : t.saveFieldData keys handling env f.1 f.2 = (.raised, t) := by
        unfold saveFieldData
        rw [if_neg hcode, hraises]
      rw [saveFields_cons, hdata, if_neg (by simp)]

/-! ## The turns that return -/

/-- A turn in which `receive_packet` returns. -/
theorem turn_of_ok {r : Udp.RecvResult}
    (h : (s.protocol.udp.receiveTurn socket env.now aggressive).1 = .ok (some r)) :
    s.turn keys handling socket env aggressive =
      (s.received socket env aggressive).loopOn keys handling socket env r := by
  unfold turn
  dsimp only
  rw [h]
  rfl

theorem loopPacket_returns {t : LoopState κ ι α} (p : Packet) :
    (t.loopPacket keys handling socket env p).1 = none ↔
      ((decodePacket (p.data.getD [])).2 = .structError →
        (t.connected.saveFields keys handling env (decodePacket (p.data.getD [])).1).2.1 =
          true) := by
  unfold loopPacket
  dsimp only
  rw [show { t with protocol := { t.protocol with connected := true } } = t.connected from rfl]
  generalize t.connected.saveFields keys handling env (decodePacket (p.data.getD [])).1 = r
  cases r.2.1 with
  | true => simp
  | false =>
    cases (decodePacket (p.data.getD [])).2 with
    | consumed => simp
    | connectionError => simp
    | structError => simp

theorem flush_returns {t : LoopState κ ι α} (hd : t.lane.DataWf) :
    (t.loopOn keys handling socket env .transferQueueFlushed).1 = none ↔ t.lane.Flushable := by
  rw [← @Lane.queueFlushed_raised? env t.lane hd]
  exact Option.map_eq_none_iff

theorem wakeup_returns {t : LoopState κ ι α} (hs : t.lane.Wf) (hclears : t.lane.StillClears) :
    (t.loopOn keys handling socket env .wakeup).1 = none := by
  have hreceive : t.lane.Calm (t.lane.receive env .wakeup) := .one rfl rfl
  have hcalm := hreceive.trans (@Lane.calm_serviceYields env.now _ (Lane.wf_receive hs env .wakeup)
    hclears)
  exact Option.map_eq_none_iff.mpr hcalm.raised?

/-- A turn returns just if the next packet is no empty reply, its payload is framed, and a flush
signal is expected. -/
theorem turn_returns (hlane : s.lane.ReachableWhen Lane.ClearsStills) :
    (s.turn keys handling socket env aggressive).1 = none ↔
      ¬ s.protocol.udp.EmptyReply ∧
      (∀ p, (s.protocol.udp.receiveTurn socket env.now aggressive).1 = .ok (some (.packet p)) →
        (decodePacket (p.data.getD [])).2 = .structError →
        ((s.received socket env aggressive).connected.saveFields keys handling env
          (decodePacket (p.data.getD [])).1).2.1 = true) ∧
      ((s.protocol.udp.receiveTurn socket env.now aggressive).1 =
        .ok (some .transferQueueFlushed) → s.lane.Flushable) := by
  rw [← @Udp.receiveTurn_error socket aggressive env.now]
  cases hr : (s.protocol.udp.receiveTurn socket env.now aggressive).1 with
  | error e =>
    have hturn : (s.turn keys handling socket env aggressive).1 = some .indexError := by
      unfold turn
      dsimp only
      rw [hr]
    rw [hturn]
    simp
  | ok o =>
    cases o with
    | none =>
      have hturn : (s.turn keys handling socket env aggressive).1 = none := by
        unfold turn
        dsimp only
        rw [hr]
      rw [hturn]
      simp
    | some r =>
      rw [turn_of_ok hr]
      cases r with
      | none => simp [loopOn]
      | connectionReady => simp [loopOn]
      | wakeup =>
        have hreturns := @wakeup_returns _ _ _ _ _ keys handling socket env
          (s.received socket env aggressive) (Lane.wf_reachableWhen hlane)
          (Lane.stillClears_reach hlane)
        rw [hreturns]
        simp
      | transferQueueFlushed =>
        have hreturns := @flush_returns _ _ _ _ _ keys handling socket env
          (s.received socket env aggressive) (Lane.dataWf_reachableWhen hlane)
        rw [hreturns]
        simp [received]
      | packet p =>
        show (loopPacket keys handling socket env p _).1 = none ↔ _
        rw [loopPacket_returns]
        simp

/-- With nothing in flight a flush signal only tells that there is a connection. -/
theorem turn_idle (h : (s.protocol.udp.receiveTurn socket env.now aggressive).1 =
      .ok (some .transferQueueFlushed)) (hidle : s.lane.inFlight = none) :
    (s.turn keys handling socket env aggressive).2 =
      { (s.received socket env aggressive).connected with
        lane := s.lane.receive env .queueFlushed } := by
  have htransfer : s.lane.transfer = none := Option.map_eq_none_iff.mp hidle
  have hlane : s.lane.step (env, .queueFlushed) = s.lane.receive env .queueFlushed := by
    show (s.lane.receive env .queueFlushed).queueFlushed env.now = _
    unfold Lane.queueFlushed
    rw [show (s.lane.receive env .queueFlushed).transfer = none from htransfer]
  rw [turn_of_ok h]
  exact congrArg (fun lane => { (s.received socket env aggressive).connected with lane }) hlane

end Turns

/-! ## A packet with a ragged tail -/

/-- Every field is stored under the key of the video mode. -/
def storesAll (_ contents : Bytes) : FieldHandling ℕ ℕ ℕ :=
  .store { key := Dump.numbered.videoMode, contents := contents.length, idxes := none,
           stripId := none }

/-- A video mode with `tail` behind it. -/
def tailed (tail : Bytes) : Packet :=
  { Dump.dumpPacket with sequenceNumber := 2,
                         data := some ([0, 8, 0, 0, 0x56, 0x69, 0x64, 0x4d] ++ tail) }

/-- The protocol in a session whose dump is over. A video mode with `tail` behind it waits. -/
def behindDump (tail : Bytes) : Dump ℕ ℕ ℕ :=
  Library.run (Dump.step Dump.numbered Pump.allSent false) Dump.fresh
    (Dump.dumping ++ [Dump.datagram (tailed tail), (0, .turn Dump.videoMode)])

/-- The loop in that session, before any transfer. -/
def inSession (tail : Bytes) : LoopState ℕ ℕ ℕ where
  protocol := (behindDump tail).protocol
  lane := .fresh 1

end LoopState

end Bmdwire
