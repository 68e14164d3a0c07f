import Bmdwire.Interface.PacketTurns
import Bmdwire.Program.PacketLoop
import Bmdwire.Analysis.PulledPackets

/-!
# Ready on the dump of the session

`initialized` and the event `connected` announce a dump: the fields of the session, with `InCm` at
their end. A `Dump` records the fields stored since the session's handshake, of packets that came
after the handshake was begun. The mark that `InCm` leaves outlives its session; so this is about
runs in which no handshake is begun while it is set, and in which a SYN reply is not taken before
what an older session left in the queue.
-/

set_option autoImplicit false

namespace Bmdwire

open Library (Dict Reach)

/-- A protocol; how many of the items that wait for it were there before the handshake; and the
fields of the session last established. -/
structure Dump (κ ι α : Type) where
  protocol : AtemProtocol κ ι α
  stale : ℕ := 0
  fields : StoredFields κ ι α := []

/-- What happens to a protocol: a turn of its loop, given what each field comes to; or an event of
the transport. -/
inductive LoopEvent (κ ι α : Type)
  | turn (act : Bytes → Bytes → FieldAction κ ι α)
  | udp (e : Udp.UdpEvent)

namespace Dump

section Steps

variable {κ ι α : Type} [DecidableEq κ] [DecidableEq ι] (keys : FieldKeys κ α) (socket : Socket)
  (aggressive : Bool)

/-- The record after an event that stored these fields. The session's fields begin with its
handshake done. -/
def after (d : Dump κ ι α) (r : StoredFields κ ι α × AtemProtocol κ ι α) : Dump κ ι α :=
  let s := d.protocol.udp
  let t := r.2.udp
  { protocol := r.2
    stale :=
      if t.handshakes = s.handshakes then d.stale - (s.pending.length - t.pending.length)
      else t.pending.length
    fields :=
      if s.state ≠ .established ∧ t.state = .established then []
      else if d.stale = 0 then d.fields ++ r.1 else d.fields }

/-- One event. -/
def step (d : Dump κ ι α) (a : Time × LoopEvent κ ι α) : Dump κ ι α :=
  match a.2 with
  | .turn act => d.after (d.protocol.turn keys act socket a.1 aggressive)
  | .udp e =>
    d.after ([], { d.protocol with udp := d.protocol.udp.step socket aggressive (a.1, e) })

/-- The loop alone takes packets, sets the mark and says goodbye. -/
def Possible (d : Dump κ ι α) (a : Time × LoopEvent κ ι α) : Prop :=
  match a.2 with
  | .turn _ => True
  | .udp e => d.protocol.udp.Possible (a.1, e) ∧
    e ≠ .receiveTurn ∧ e ≠ .markNextConnected ∧ e ≠ .closeSession

/-- A reply to the SYN that is taken has nothing behind it that was there before the handshake. -/
def Answered (d : Dump κ ι α) (a : Time × LoopEvent κ ι α) : Prop :=
  match a.2, d.protocol.udp.pending with
  | .turn _, .packet p :: _ =>
    d.protocol.udp.state = .synSent → p.has flagSyn = true → d.stale ≤ 1
  | _, _ => True

/-- No handshake is begun while the mark is set, and a reply to the SYN is not taken before what
waits since before it. -/
def Orderly (d : Dump κ ι α) (a : Time × LoopEvent κ ι α) : Prop :=
  ((d.step keys socket aggressive a).protocol.udp.handshakes ≠ d.protocol.udp.handshakes →
      (d.step keys socket aggressive a).protocol.udp.markNextConnected = false) ∧ d.Answered a

/-- A fresh protocol. -/
def Initial (d : Dump κ ι α) : Prop := ∃ now, d = { protocol := { udp := .fresh now } }

/-- The records of the runs whose every step meets `ok` besides being possible. -/
def ReachableWhen (ok : Dump κ ι α → Time × LoopEvent κ ι α → Prop) : Dump κ ι α → Prop :=
  Reach Initial (step keys socket aggressive) fun d a => d.Possible a ∧ ok d a

/-- The records of all runs. -/
def Reachable : Dump κ ι α → Prop := ReachableWhen keys socket aggressive fun _ _ => True

/-- `InCm` is among the fields of the session, and they are what the mixer state holds. -/
def Complete (d : Dump κ ι α) : Prop :=
  (∃ f ∈ d.fields, f.1 = inCmCode) ∧
    d.protocol.mixer = MixerState.received (d.fields.map Prod.snd)

end Steps

end Dump

/-! ## The fields of a packet -/

namespace AtemProtocol

section Saving

variable {κ ι α : Type} [DecidableEq κ] [DecidableEq ι] {keys : FieldKeys κ α}
  {act : Bytes → Bytes → FieldAction κ ι α} {s t : AtemProtocol κ ι α}

/-- The mixer state is emptied, and the protocol not ready. -/
def Off (s : AtemProtocol κ ι α) : Prop := s.initialized = false ∧ s.mixer = .empty

/-- The fields stored are in the mixer state, and `InCm` among them leaves the mark. -/
structure Saves (s : AtemProtocol κ ι α) (stored : StoredFields κ ι α)
    (t : AtemProtocol κ ι α) : Prop where
  connected : t.connected = s.connected
  initialized : t.initialized = s.initialized
  mixer : t.mixer = (stored.map Prod.snd).foldl MixerState.storeField s.mixer
  udp : ∃ mark, t.udp = { s.udp with markNextConnected := mark } ∧
    (mark = true → s.udp.markNextConnected = true ∨ ∃ f ∈ stored, f.1 = inCmCode)

theorem Saves.none (h : t = { s with incompleteDumps := t.incompleteDumps }) : Saves s [] t := by
  rw [h]
  exact ⟨rfl, rfl, rfl, s.udp.markNextConnected, rfl, .inl⟩

theorem saveField_saves (code contents : Bytes) (s : AtemProtocol κ ι α) :
    Saves s (s.saveField keys act code contents).2.1 (s.saveField keys act code contents).2.2 := by
  unfold saveField
  split
  · rename_i hcode
    split
    · refine ⟨rfl, rfl, rfl, true, rfl, fun _ => .inr ⟨_, List.mem_singleton_self _, hcode⟩⟩
    · exact .none rfl
  · split
    · exact ⟨rfl, rfl, rfl, s.udp.markNextConnected, rfl, .inl⟩
    · exact .none rfl
    · exact .none rfl

/-- The fields of a packet are stored one after the other. -/
theorem saveFields_saves (fields : List (Bytes × Bytes)) (s : AtemProtocol κ ι α) :
    Saves s (s.saveFields keys act fields).2.1 (s.saveFields keys act fields).2.2 := by
  induction fields generalizing s with
  | nil => exact .none rfl
  | cons field rest ih =>
    have hone := @saveField_saves κ ι α _ _ keys act field.1 field.2 s
    unfold saveFields
    dsimp only
    split
    · exact hone
    · have hrest := ih (s.saveField keys act field.1 field.2).2.2
      obtain ⟨mark, hudp, hmark⟩ := hone.udp
      obtain ⟨mark', hudp', hmark'⟩ := hrest.udp
      refine ⟨hrest.connected.trans hone.connected, hrest.initialized.trans hone.initialized, ?_,
        mark', ?_, fun hset => ?_⟩
      · rw [List.map_append, List.foldl_append, ← hone.mixer]
        exact hrest.mixer
      · rw [hudp', hudp]
      · rcases hmark' hset with hset | ⟨f, hf, hcode⟩
        · rw [hudp] at hset
          rcases hmark hset with hset | ⟨f, hf, hcode⟩
          · exact .inl hset
          · exact .inr ⟨f, List.mem_append_left _ hf, hcode⟩
        · exact .inr ⟨f, List.mem_append_right _ hf, hcode⟩

/-- What the loop makes of a disconnect. -/
def disconnected (s : AtemProtocol κ ι α) : AtemProtocol κ ι α :=
  { s with connected := false, initialized := false, mixer := .empty }

theorem loopOn_none (socket : Socket) (now : Time) (hoff : s.connected = false → s.Off) :
    s.loopOn keys act socket now .none = ([], s.disconnected) := by
  unfold loopOn disconnected
  dsimp only
  cases hconnected : s.connected with
  | true => rfl
  | false =>
    obtain ⟨hinitialized, hmixer⟩ := hoff hconnected
    rw [if_neg (by simp), ← hinitialized, ← hmixer]

end Saving

end AtemProtocol

/-! ## The phases of a session -/

namespace Dump

open Udp

section Records

variable {κ ι α : Type} {socket : Socket} {d : Dump κ ι α}

/-- The session goes on. -/
theorem after_goes {r : StoredFields κ ι α × AtemProtocol κ ι α}
    (hcount : r.2.udp.handshakes = d.protocol.udp.handshakes)
    (hstate : r.2.udp.state = d.protocol.udp.state) :
    d.after r = { protocol := r.2,
                  stale := d.stale - (d.protocol.udp.pending.length - r.2.udp.pending.length),
                  fields := if d.stale = 0 then d.fields ++ r.1 else d.fields } := by
  unfold after
  dsimp only
  rw [if_pos hcount, hstate, if_neg (fun h => h.1 h.2)]

/-- The session is established. -/
theorem after_established {r : StoredFields κ ι α × AtemProtocol κ ι α}
    (hcount : r.2.udp.handshakes = d.protocol.udp.handshakes)
    (hnot : d.protocol.udp.state ≠ .established) (hstate : r.2.udp.state = .established) :
    d.after r = { protocol := r.2,
                  stale := d.stale - (d.protocol.udp.pending.length - r.2.udp.pending.length),
                  fields := [] } := by
  unfold after
  dsimp only
  rw [if_pos hcount, if_pos ⟨hnot, hstate⟩]

/-- A session is begun. -/
theorem after_begins {r : StoredFields κ ι α × AtemProtocol κ ι α}
    (hcount : d.protocol.udp.handshakes < r.2.udp.handshakes)
    (hstate : r.2.udp.state ≠ .established) :
    d.after r = { protocol := r.2, stale := r.2.udp.pending.length,
                  fields := if d.stale = 0 then d.fields ++ r.1 else d.fields } := by
  unfold after
  dsimp only
  rw [if_neg (Nat.ne_of_gt hcount), if_neg (fun h => hstate h.2)]

theorem fields_nil (d : Dump κ ι α) :
    (if d.stale = 0 then d.fields ++ [] else d.fields) = d.fields := by
  rw [List.append_nil, ite_self]

/-- A protocol that goes on after a `ConnectionError` has begun a session. -/
theorem reconnect_spec {s : AtemProtocol κ ι α} (hup : s.udp.state = .established) (now : Time) :
    (s.reconnect socket now).Off ∧
      (s.reconnect socket now).udp.handshakes = s.udp.handshakes + 1 ∧
      (s.reconnect socket now).udp.state ≠ .established := by
  have hbye := quiet_of_moves
    ((@sendPacketLow_moves socket now s.udp byePacket).mono (by decide))
  obtain ⟨-, hstate, -, hcount, -⟩ := @connect_spec socket now
    { (s.udp.sendPacketLow socket now byePacket).2 with state := .closed } rfl
  have hclose : s.udp.closeSession socket now =
      { (s.udp.sendPacketLow socket now byePacket).2 with state := .closed } :=
    if_neg (not_not.mpr hup)
  refine ⟨⟨rfl, rfl⟩, ?_, ?_⟩
  · unfold AtemProtocol.reconnect
    dsimp only
    rw [hclose, hcount]
    exact congrArg (· + 1) hbye.2.2.2
  · unfold AtemProtocol.reconnect
    dsimp only
    rw [hclose, hstate]
    simp

end Records

section Phases

variable {κ ι α : Type} [DecidableEq κ] [DecidableEq ι] {keys : FieldKeys κ α} {socket : Socket}
  {aggressive : Bool} {d : Dump κ ι α}

/-- No session is established. What the one before left is gone, or a sentinel that says so waits
among what was there before the handshake. -/
structure Between (d : Dump κ ι α) : Prop where
  state : d.protocol.udp.state ≠ .established
  mark : d.protocol.udp.markNextConnected = false
  told : d.protocol.Off ∨ .disconnected ∈ d.protocol.udp.pending.take d.stale

/-- A session is established, and the mixer state holds its fields. -/
structure Live (d : Dump κ ι α) : Prop where
  state : d.protocol.udp.state = .established
  stale : d.stale = 0
  mixer : d.protocol.mixer = MixerState.received (d.fields.map Prod.snd)
  mark : d.protocol.udp.markNextConnected = true → ∃ f ∈ d.fields, f.1 = inCmCode

/-- The loop has been told that the thread of a session is gone, and no packet comes any more. -/
structure Gone (d : Dump κ ι α) : Prop where
  state : d.protocol.udp.state = .established
  stale : d.stale = 0
  alive : d.protocol.udp.threadAlive = false
  none : ∀ p, .packet p ∉ d.protocol.udp.pending
  initialized : d.protocol.initialized = false

/-- What every event keeps. -/
structure Steady (d : Dump κ ι α) : Prop where
  off : d.protocol.connected = false → d.protocol.Off
  closing : Closing d.protocol.udp.threadAlive (d.protocol.udp.pending.drop d.stale)
  ready : d.protocol.initialized = true → d.Complete
  phase : d.Between ∨ d.Live ∨ d.Gone

/-! ## An event of the transport -/

/-- Items are added. -/
theorem Steady.adds (h : d.Steady) {t : Udp} (ht : Adds d.protocol.udp t) :
    (d.after ([], { d.protocol with udp := t })).Steady := by
  obtain ⟨items, hpending, hclosing, hgone⟩ := ht.items
  have hlength : d.protocol.udp.pending.length - t.pending.length = 0 := by
    rw [hpending, List.length_append]
    omega
  rw [after_goes ht.handshakes ht.state, hlength, Nat.sub_zero, fields_nil]
  have hdrop : Closing t.threadAlive (t.pending.drop d.stale) := by
    rw [hpending, List.drop_append]
    exact h.closing.append (hclosing.drop _) fun halive =>
      ⟨(hgone halive).1, fun p hp => (hgone halive).2 p (List.mem_of_mem_drop hp)⟩
  refine ⟨h.off, hdrop, h.ready, ?_⟩
  rcases h.phase with hphase | hphase | hphase
  · refine .inl ⟨?_, ht.mark.trans hphase.mark, hphase.told.imp id fun htold => ?_⟩
    · rw [ht.state]
      exact hphase.state
    · dsimp only
      rw [hpending, List.take_append]
      exact List.mem_append_left _ htold
  · refine .inr (.inl ⟨ht.state.trans hphase.state, hphase.stale, hphase.mixer, fun hmark => ?_⟩)
    exact hphase.mark (ht.mark.symm.trans hmark)
  · obtain ⟨halive, hnone⟩ := hgone hphase.alive
    refine .inr (.inr ⟨ht.state.trans hphase.state, hphase.stale, halive, fun p hp => ?_,
      hphase.initialized⟩)
    dsimp only at hp
    rw [hpending] at hp
    rcases List.mem_append.mp hp with hp | hp
    · exact hphase.none p hp
    · exact hnone p hp

/-- A session is begun by the transport, or by the loop. -/
theorem Steady.begins (h : d.Steady) {r : StoredFields κ ι α × AtemProtocol κ ι α}
    (hcount : d.protocol.udp.handshakes < r.2.udp.handshakes)
    (hstate : r.2.udp.state ≠ .established) (hmark : r.2.udp.markNextConnected = false)
    (hoff : r.2.connected = false → r.2.Off)
    (htold : r.2.Off ∨ r = ([], { d.protocol with udp := r.2.udp }) ∧
      .disconnected ∈ r.2.udp.pending) : (d.after r).Steady := by
  rw [after_begins hcount hstate]
  refine ⟨hoff, ?_, fun hready => ?_, .inl ⟨hstate, hmark, ?_⟩⟩
  · dsimp only
    rw [List.drop_length]
    exact closing_of_not_mem (by simp)
  · rcases htold with htold | ⟨hsame, -⟩
    · exact absurd hready (by rw [htold.1]; simp)
    · rw [hsame] at hready ⊢
      dsimp only at hready ⊢
      rw [fields_nil]
      exact h.ready hready
  · refine htold.imp id fun htold => ?_
    dsimp only
    rw [List.take_length]
    exact htold.2

/-- An event of the transport. -/
theorem Steady.udp (h : d.Steady) {now : Time} {e : UdpEvent}
    (hpossible : d.Possible (now, .udp e)) (hok : d.Orderly keys socket aggressive (now, .udp e)) :
    (d.step keys socket aggressive (now, .udp e)).Steady := by
  obtain ⟨hunmarked, -⟩ := hok
  unfold step at hunmarked ⊢
  dsimp only at hunmarked ⊢
  rcases @step_adds socket aggressive now _ e hpossible.1 hpossible.2 with ht | ht
  · exact h.adds ht
  · refine h.begins ht.handshakes ht.state (hunmarked (Nat.ne_of_gt ht.handshakes)) h.off ?_
    rcases h.phase with hphase | hphase | hphase
    · refine hphase.told.imp id fun htold => ⟨rfl, ht.told fun _ => List.mem_of_mem_take htold⟩
    · refine .inr ⟨rfl, ht.told fun hclosed => ?_⟩
      rw [hphase.state] at hclosed
      cases hclosed
    · refine .inr ⟨rfl, ht.told fun hclosed => ?_⟩
      rw [hphase.state] at hclosed
      cases hclosed

/-! ## A turn of the loop -/

/-- Nothing is taken, or an item that brings nothing about. -/
theorem Steady.took (h : d.Steady) {s : AtemProtocol κ ι α} (hquiet : Quiet d.protocol.udp s.udp)
    (hinitialized : s.initialized = d.protocol.initialized) (hmixer : s.mixer = d.protocol.mixer)
    (hconnected : s.connected = false → d.protocol.connected = false)
    (hpending : s.udp.pending = d.protocol.udp.pending ∨
      ∃ item, item ≠ .disconnected ∧ d.protocol.udp.pending = item :: s.udp.pending) :
    (d.after ([], s)).Steady := by
  obtain ⟨hstate, hmark, halive, hcount⟩ := hquiet
  rw [after_goes hcount hstate, fields_nil]
  have hoff : d.protocol.Off → s.Off := fun hoff =>
    ⟨hinitialized.trans hoff.1, hmixer.trans hoff.2⟩
  refine ⟨fun hnot => hoff (h.off (hconnected hnot)), ?_, fun hready => ?_, ?_⟩
  · dsimp only
    rw [halive]
    rcases hpending with hsame | ⟨item, -, hcons⟩
    · rw [hsame, Nat.sub_self, Nat.sub_zero]
      exact h.closing
    · have hclosing := h.closing
      rw [hcons] at hclosing ⊢
      rw [List.length_cons, Nat.add_sub_cancel_left]
      exact hclosing.drop_cons
  · obtain ⟨hinCm, hholds⟩ := h.ready (hinitialized.symm.trans hready)
    exact ⟨hinCm, hmixer.trans hholds⟩
  · rcases h.phase with hphase | hphase | hphase
    · refine .inl ⟨?_, hmark.trans hphase.mark, ?_⟩
      · dsimp only
        rw [hstate]
        exact hphase.state
      · dsimp only
        refine hphase.told.imp hoff fun htold => ?_
        rcases hpending with hsame | ⟨item, hitem, hcons⟩
        · rw [hsame, Nat.sub_self, Nat.sub_zero]
          exact htold
        · rw [hcons] at htold ⊢
          rw [List.length_cons, Nat.add_sub_cancel_left]
          exact mem_take_of_cons htold hitem
    · refine .inr (.inl ⟨hstate.trans hphase.state, ?_, hmixer.trans hphase.mixer, fun hset => ?_⟩)
      · dsimp only
        rw [hphase.stale, Nat.zero_sub]
      · exact hphase.mark (hmark.symm.trans hset)
    · refine .inr (.inr ⟨hstate.trans hphase.state, ?_, halive.trans hphase.alive, fun p hp => ?_,
        hinitialized.trans hphase.initialized⟩)
      · dsimp only
        rw [hphase.stale, Nat.zero_sub]
      · dsimp only at hp
        rcases hpending with hsame | ⟨item, -, hcons⟩
        · exact hphase.none p (hsame ▸ hp)
        · exact hphase.none p (hcons ▸ List.mem_cons_of_mem item hp)

/-- The loop is told that the thread is gone. -/
theorem Steady.told (h : d.Steady) {s : AtemProtocol κ ι α} (hquiet : Quiet d.protocol.udp s.udp)
    (hoff : s.Off) (hpending : d.protocol.udp.pending = .disconnected :: s.udp.pending) :
    (d.after ([], s)).Steady := by
  obtain ⟨hstate, hmark, halive, hcount⟩ := hquiet
  rw [after_goes hcount hstate, fields_nil]
  have hclosing := h.closing
  rw [hpending] at hclosing
  have hgone : d.stale = 0 → s.udp.threadAlive = false ∧ ∀ p, .packet p ∉ s.udp.pending := by
    intro hzero
    rw [hzero] at hclosing
    rw [halive]
    exact hclosing [] _ rfl
  refine ⟨fun _ => hoff, ?_, fun hready => absurd hready (by rw [hoff.1]; simp), ?_⟩
  · dsimp only
    rw [halive, hpending, List.length_cons, Nat.add_sub_cancel_left]
    exact hclosing.drop_cons
  · rcases h.phase with hphase | hphase
    · refine .inl ⟨?_, hmark.trans hphase.mark, .inl hoff⟩
      dsimp only
      rw [hstate]
      exact hphase.state
    · obtain ⟨hup, hzero⟩ : d.protocol.udp.state = .established ∧ d.stale = 0 :=
        hphase.elim (fun hlive => ⟨hlive.state, hlive.stale⟩) fun hgone =>
          ⟨hgone.state, hgone.stale⟩
      refine .inr (.inr ⟨hstate.trans hup, ?_, (hgone hzero).1, (hgone hzero).2, hoff.1⟩)
      dsimp only
      rw [hzero, Nat.zero_sub]

/-- The loop is told that the dump is complete. -/
theorem Steady.announced (h : d.Steady) {s : AtemProtocol κ ι α} {p : Packet}
    (hmarked : d.protocol.udp.markNextConnected = true)
    (hcons : d.protocol.udp.pending = .packet p :: s.udp.pending.tail)
    (hpending : s.udp.pending = d.protocol.udp.pending)
    (hmark : s.udp.markNextConnected = false) (hstate : s.udp.state = d.protocol.udp.state)
    (halive : s.udp.threadAlive = d.protocol.udp.threadAlive)
    (hcount : s.udp.handshakes = d.protocol.udp.handshakes) (hmixer : s.mixer = d.protocol.mixer)
    (hconnected : s.connected = true) :
    (d.after ([], s)).Steady ∧ (d.after ([], s)).Complete ∧ s.udp.state = .established := by
  rw [after_goes hcount hstate, fields_nil]
  rcases h.phase with hphase | hphase | hphase
  · rw [hphase.mark] at hmarked
    cases hmarked
  · have hcomplete : (∃ f ∈ d.fields, f.1 = inCmCode) ∧
        s.mixer = MixerState.received (d.fields.map Prod.snd) :=
      ⟨hphase.mark hmarked, hmixer.trans hphase.mixer⟩
    refine ⟨⟨fun hnot => ?_, ?_, fun _ => hcomplete, .inr (.inl ?_)⟩, hcomplete,
      hstate.trans hphase.state⟩
    · rw [hconnected] at hnot
      cases hnot
    · dsimp only
      rw [halive, hpending, Nat.sub_self, Nat.sub_zero]
      exact h.closing
    · refine ⟨hstate.trans hphase.state, ?_, hcomplete.2, fun hset => ?_⟩
      · dsimp only
        rw [hphase.stale, Nat.zero_sub]
      · rw [hmark] at hset
        cases hset
  · exact absurd (hcons ▸ List.mem_cons_self) (hphase.none p)

/-- A data packet of the session. -/
theorem Steady.packet (h : d.Steady) {s : AtemProtocol κ ι α} {now : Time} {p : Packet}
    {act : Bytes → Bytes → FieldAction κ ι α} (hup : d.protocol.udp.state = .established)
    (hpending : d.protocol.udp.pending = .packet p :: s.udp.pending)
    (hquiet : Quiet d.protocol.udp s.udp) (hmixer : s.mixer = d.protocol.mixer)
    (hinitialized : s.initialized = d.protocol.initialized)
    (hunmarked : (s.loopPacket keys act socket now p).2.udp.handshakes ≠
        d.protocol.udp.handshakes →
      (s.loopPacket keys act socket now p).2.udp.markNextConnected = false) :
    (d.after (s.loopPacket keys act socket now p)).Steady := by
  obtain ⟨hstate, hmark, halive, hcount⟩ := hquiet
  have hlive : d.Live := by
    rcases h.phase with hphase | hphase | hphase
    · exact absurd hup hphase.state
    · exact hphase
    · exact absurd (hpending ▸ List.mem_cons_self) (hphase.none p)
  have hsaves := @AtemProtocol.saveFields_saves κ ι α _ _ keys act (decodePacket (p.data.getD [])).1
    { s with connected := true }
  unfold AtemProtocol.loopPacket at hunmarked ⊢
  dsimp only at hunmarked ⊢
  generalize { s with connected := true }.saveFields keys act
    (decodePacket (p.data.getD [])).1 = r at hsaves hunmarked ⊢
  obtain ⟨raises, stored, t⟩ := r
  obtain ⟨mark, hudp, hset⟩ := hsaves.udp
  dsimp only at hsaves hudp hset hunmarked ⊢
  have hstateT : t.udp.state = .established := by
    rw [hudp]
    exact hstate.trans hup
  split
  · rename_i herror
    rw [if_pos herror] at hunmarked
    obtain ⟨hoff, hbegun, hnot⟩ := @reconnect_spec κ ι α socket t hstateT now
    have hmore : d.protocol.udp.handshakes < (t.reconnect socket now).udp.handshakes := by
      rw [hbegun, hudp]
      exact Nat.lt_succ_of_le hcount.ge
    exact h.begins hmore hnot (hunmarked (Nat.ne_of_gt hmore)) (fun _ => hoff) (.inl hoff)
  · have hcountT : t.udp.handshakes = d.protocol.udp.handshakes := by
      rw [hudp]
      exact hcount
    have hpendingT : d.protocol.udp.pending = .packet p :: t.udp.pending := by
      rw [hudp]
      exact hpending
    have haliveT : t.udp.threadAlive = d.protocol.udp.threadAlive := by
      rw [hudp]
      exact halive
    have hholds : t.mixer = MixerState.received ((d.fields ++ stored).map Prod.snd) := by
      rw [hsaves.mixer, hmixer, hlive.mixer, List.map_append]
      exact (List.foldl_append ..).symm
    rw [after_goes hcountT (hstateT.trans hup.symm), if_pos hlive.stale]
    refine ⟨fun hnot => ?_, ?_, fun hready => ⟨?_, hholds⟩, .inr (.inl ?_)⟩
    · rw [hsaves.connected] at hnot
      cases hnot
    · dsimp only
      rw [haliveT, hpendingT, List.length_cons, Nat.add_sub_cancel_left]
      have hclosing := h.closing
      rw [hpendingT] at hclosing
      exact hclosing.drop_cons
    · rw [hsaves.initialized] at hready
      obtain ⟨⟨f, hf, hcode⟩, -⟩ := h.ready (hinitialized.symm.trans hready)
      exact ⟨f, List.mem_append_left _ hf, hcode⟩
    · refine ⟨hstateT, ?_, hholds, fun hmarked => ?_⟩
      · dsimp only
        rw [hlive.stale, Nat.zero_sub]
      · rw [hudp] at hmarked
        rcases hset hmarked with hmarked | ⟨f, hf, hcode⟩
        · obtain ⟨f, hf, hcode⟩ := hlive.mark (hmark.symm.trans hmarked)
          exact ⟨f, List.mem_append_left _ hf, hcode⟩
        · exact ⟨f, List.mem_append_right _ hf, hcode⟩

/-- A packet is taken while the SYN is out. -/
theorem Steady.replied (h : d.Steady) {s : AtemProtocol κ ι α} {p : Packet}
    (hsyn : d.protocol.udp.state = .synSent)
    (hpending : d.protocol.udp.pending = .packet p :: s.udp.pending)
    (hanswered : p.has flagSyn = true → d.stale ≤ 1)
    (hstate : s.udp.state = .synSent ∨ s.udp.state = .established ∧ p.has flagSyn = true)
    (hmark : s.udp.markNextConnected = false)
    (halive : s.udp.threadAlive = d.protocol.udp.threadAlive)
    (hcount : s.udp.handshakes = d.protocol.udp.handshakes)
    (hflags : s.Off ∨ s = { d.protocol with udp := s.udp }) : (d.after ([], s)).Steady := by
  have hnot : d.protocol.udp.state ≠ .established := by
    rw [hsyn]
    simp
  have hbetween : d.Between := by
    rcases h.phase with hphase | hphase | hphase
    · exact hphase
    · exact absurd hphase.state hnot
    · exact absurd hphase.state hnot
  have hoff : d.protocol.Off → s.Off := by
    rcases hflags with hflags | hflags
    · exact fun _ => hflags
    · rw [hflags]
      exact id
  have hconnected : s.connected = false → s.Off := by
    rcases hflags with hflags | hflags
    · exact fun _ => hflags
    · rw [hflags]
      exact h.off
  have hlength : d.protocol.udp.pending.length - s.udp.pending.length = 1 := by
    rw [hpending, List.length_cons, Nat.add_sub_cancel_left]
  have hclosing : Closing s.udp.threadAlive (s.udp.pending.drop (d.stale - 1)) := by
    have hclosing := h.closing
    rw [hpending] at hclosing
    rw [halive]
    exact hclosing.drop_cons
  rcases hstate with hstate | ⟨hstate, hreply⟩
  · rw [after_goes hcount (hstate.trans hsyn.symm), hlength, fields_nil]
    refine ⟨hconnected, hclosing, fun hready => ?_, .inl ⟨?_, hmark, hbetween.told.imp hoff ?_⟩⟩
    · rcases hflags with hflags | hflags
      · exact absurd hready (by rw [hflags.1]; simp)
      · rw [hflags] at hready ⊢
        exact h.ready hready
    · dsimp only
      rw [hstate]
      simp
    · intro htold
      rw [hpending] at htold
      exact mem_take_of_cons htold (by simp)
  · -- nothing that was there before the handshake is left, a sentinel neither
    have hone := hanswered hreply
    have hdone : s.Off := by
      refine hoff (hbetween.told.resolve_right fun htold => ?_)
      rw [hpending] at htold
      have hrest := mem_take_of_cons htold (by simp)
      rw [Nat.sub_eq_zero_of_le hone] at hrest
      cases hrest
    rw [after_established hcount hnot hstate, hlength]
    refine ⟨fun _ => hdone, hclosing, fun hready => absurd hready (by rw [hdone.1]; simp),
      .inr (.inl ⟨hstate, Nat.sub_eq_zero_of_le hone, hdone.2, fun hset => ?_⟩)⟩
    rw [hmark] at hset
    cases hset

/-- A turn of the loop. -/
theorem Steady.turn (h : d.Steady) {now : Time} {act : Bytes → Bytes → FieldAction κ ι α}
    (hok : d.Orderly keys socket aggressive (now, .turn act)) :
    (d.step keys socket aggressive (now, .turn act)).Steady := by
  obtain ⟨hunmarked, hanswered⟩ := hok
  have hnone : ∀ t : Udp, { d.protocol with udp := t }.loopOn keys act socket now .none =
      ([], { d.protocol with udp := t }.disconnected) := fun t =>
    AtemProtocol.loopOn_none socket now h.off
  have hturned := receiveTurn_turned socket now aggressive d.protocol.udp
  unfold step AtemProtocol.turn at hunmarked ⊢
  dsimp only at hunmarked ⊢
  generalize d.protocol.udp.receiveTurn socket now aggressive = r at hturned hunmarked ⊢
  obtain ⟨r, t⟩ := r
  dsimp only at hturned hunmarked ⊢
  cases hturned with
  | waits => exact h.took ⟨rfl, rfl, rfl, rfl⟩ rfl rfl id (.inl rfl)
  | wakeup hpending hquiet => exact h.took hquiet rfl rfl id (.inr ⟨_, by simp, hpending⟩)
  | gone hpending hquiet =>
    dsimp only
    rw [hnone t]
    exact h.told hquiet ⟨rfl, rfl⟩ hpending
  | again hcount hmark hstate =>
    dsimp only at hunmarked ⊢
    rw [hnone t] at hunmarked ⊢
    exact h.begins hcount hstate (hunmarked (Nat.ne_of_gt hcount)) (fun _ => ⟨rfl, rfl⟩)
      (.inl ⟨rfl, rfl⟩)
  | ready hmarked hcons hpending hmark hstate halive hcount =>
    exact (h.announced (s := { d.protocol with udp := t, connected := true, initialized := true })
      hmarked hcons hpending hmark hstate halive hcount rfl rfl).1
  | control hr hleaves hquiet =>
    have htakes : t.pending = d.protocol.udp.pending ∨
        ∃ item, item ≠ .disconnected ∧ d.protocol.udp.pending = item :: t.pending := by
      rcases hleaves with hsame | ⟨p, hcons⟩
      · exact .inl hsame
      · exact .inr ⟨_, by simp, hcons⟩
    rcases hr with rfl | rfl
    · exact h.took hquiet rfl rfl id htakes
    · exact h.took hquiet rfl rfl (by simp) htakes
  | data hup hmark hpending hquiet => exact h.packet hup hpending hquiet rfl rfl hunmarked
  | @reply _ p _ hr hsyn hmark hpending hstate hmark' halive hcount =>
    have hone : p.has flagSyn = true → d.stale ≤ 1 := by
      unfold Answered at hanswered
      rw [hpending] at hanswered
      exact hanswered hsyn
    rcases hr with rfl | rfl | rfl
    · exact h.replied hsyn hpending hone hstate hmark' halive hcount (.inr rfl)
    · exact h.replied hsyn hpending hone hstate hmark' halive hcount (.inr rfl)
    · dsimp only
      rw [hnone t]
      exact h.replied hsyn hpending hone hstate hmark' halive hcount (.inl ⟨rfl, rfl⟩)

/-- A turn that announces the dump. -/
theorem Steady.announces (h : d.Steady) {now : Time} {act : Bytes → Bytes → FieldAction κ ι α}
    (hready : (d.protocol.udp.receiveTurn socket now aggressive).1 =
      .ok (some .connectionReady)) :
    (d.step keys socket aggressive (now, .turn act)).Complete ∧
      (d.step keys socket aggressive (now, .turn act)).protocol.udp.state = .established := by
  have hturned := receiveTurn_turned socket now aggressive d.protocol.udp
  unfold step AtemProtocol.turn
  dsimp only
  generalize d.protocol.udp.receiveTurn socket now aggressive = r at hturned hready ⊢
  obtain ⟨r, t⟩ := r
  dsimp only at hturned hready ⊢
  subst hready
  cases hturned with
  | ready hmarked hcons hpending hmark hstate halive hcount =>
    exact (h.announced (s := { d.protocol with udp := t, connected := true, initialized := true })
      hmarked hcons hpending hmark hstate halive hcount rfl rfl).2
  | control hr => simp at hr
  | reply hr => simp at hr

theorem steady_reach
    (h : d.ReachableWhen keys socket aggressive (Orderly keys socket aggressive)) : d.Steady := by
  apply h.invariant
  · rintro d ⟨now, rfl⟩
    have hclosing := @closing_of_not_mem false _ (List.not_mem_nil (a := RecvItem.disconnected))
    refine ⟨fun _ => ⟨rfl, rfl⟩, hclosing, by simp, .inl ?_⟩
    exact ⟨by simp [Udp.fresh], rfl, .inl ⟨rfl, rfl⟩⟩
  · rintro d ⟨now, e⟩ - hd ⟨hpossible, hok⟩
    cases e with
    | turn act => exact hd.turn hok
    | udp e => exact hd.udp hpossible hok

/-- While no handshake is begun with the mark of a dump set, and no reply to a SYN is taken before
what waits since before it, a protocol is ready on the dump of the session: whenever it is
initialized, and when a turn raises `connected`, `InCm` is among the fields stored since the
session's handshake, and they are what the mixer state holds. -/
theorem ready_complete
    (h : d.ReachableWhen keys socket aggressive (Orderly keys socket aggressive)) :
    (d.protocol.initialized = true → d.Complete) ∧
      ∀ now act, (d.protocol.udp.receiveTurn socket now aggressive).1 =
          .ok (some .connectionReady) →
        (d.step keys socket aggressive (now, .turn act)).Complete ∧
          (d.step keys socket aggressive (now, .turn act)).protocol.udp.state = .established :=
  ⟨(steady_reach h).ready, fun _ _ hready => (steady_reach h).announces hready⟩

end Phases

/-! ## A mark that outlives its session -/

/-- Keys and contents that are numbers. -/
def numbered : FieldKeys ℕ ℕ := ⟨0, 1, fun _ => 0⟩

/-- Every field has the key of the video mode. -/
def videoMode (_ contents : Bytes) : FieldAction ℕ ℕ ℕ :=
  .store { key := numbered.videoMode, contents := contents.length, idxes := none, stripId := none }

instance Possible.decidable (d : Dump ℕ ℕ ℕ) :
    (a : Time × LoopEvent ℕ ℕ ℕ) → Decidable (d.Possible a)
  | (_, .turn _) => inferInstanceAs (Decidable True)
  | (now, .udp e) => inferInstanceAs (Decidable (d.protocol.udp.Possible (now, e) ∧
      e ≠ .receiveTurn ∧ e ≠ .markNextConnected ∧ e ≠ .closeSession))

instance Answered.decidable (d : Dump ℕ ℕ ℕ) (a : Time × LoopEvent ℕ ℕ ℕ) :
    Decidable (d.Answered a) := by
  unfold Answered
  split
  · infer_instance
  · infer_instance

instance Orderly.decidable (d : Dump ℕ ℕ ℕ) (a : Time × LoopEvent ℕ ℕ ℕ) :
    Decidable (d.Orderly numbered Pump.allSent false a) := by
  unfold Orderly
  infer_instance

/-- The packets of a switcher. -/
def datagram (p : Packet) : Time × LoopEvent ℕ ℕ ℕ :=
  (0, .udp (.drain [(true, p.toBytes.getD [])]))

/-- A reliable packet with a video mode and the end of the dump. -/
def dumpPacket : Packet :=
  { flags := flagReliable, session := some 0x8001, sequenceNumber := 1,
    data := some [0, 8, 0, 0, 0x56, 0x69, 0x64, 0x4d, 0, 8, 0, 0, 0x49, 0x6e, 0x43, 0x6d] }

/-- A session is established, and its dump received. -/
def dumping : List (Time × LoopEvent ℕ ℕ ℕ) :=
  [(0, .udp .connect), (0, .udp .takeQueued), datagram Pump.synReply, (0, .turn videoMode),
    (0, .udp .takeQueued), datagram dumpPacket, (0, .turn videoMode)]

/-- A protocol just made. -/
def fresh : Dump ℕ ℕ ℕ := { protocol := { udp := .fresh 0 } }

/-- The packet after the dump is taken. -/
def announced : Dump ℕ ℕ ℕ :=
  Library.run (step numbered Pump.allSent false) fresh
    (dumping ++ [datagram { Pump.firstData with sequenceNumber := 2 }, (0, .turn videoMode)])

theorem ready_complete_announced : announced.protocol.initialized = true ∧
    (announced.protocol.initialized = true → announced.Complete) ∧
      ∀ now act, (announced.protocol.udp.receiveTurn Pump.allSent now false).1 =
          .ok (some .connectionReady) →
        (announced.step numbered Pump.allSent false (now, .turn act)).Complete ∧
          (announced.step numbered Pump.allSent false (now, .turn act)).protocol.udp.state =
            .established := by
  have hstart : ReachableWhen numbered Pump.allSent false
      (Orderly numbered Pump.allSent false) fresh := .start ⟨0, rfl⟩
  exact ⟨by decide +kernel, ready_complete (hstart.run _ (by decide +kernel))⟩

/-- The switcher is silent before the packet after the dump, and then a session is established. -/
def outlived : Dump ℕ ℕ ℕ :=
  Library.run (step numbered Pump.allSent false) fresh
    (dumping ++ [(0, .udp .silence), (0, .turn videoMode), datagram Pump.synReply,
      (0, .turn videoMode), (0, .turn videoMode)])

theorem outlived_not_complete : outlived.Reachable numbered Pump.allSent false ∧
    outlived.protocol.udp.state = .established ∧ outlived.protocol.initialized = true ∧
    outlived.fields = [] ∧ outlived.protocol.mixer.keys = [] ∧ ¬ outlived.Complete := by
  have hstart : Reachable numbered Pump.allSent false fresh := .start ⟨0, rfl⟩
  have hfields : outlived.fields = [] := by decide +kernel
  refine ⟨hstart.run _ (by decide +kernel), by decide +kernel, by decide +kernel, hfields,
    by decide +kernel, fun hcomplete => ?_⟩
  obtain ⟨⟨f, hf, -⟩, -⟩ := hcomplete
  rw [hfields] at hf
  cases hf

end Dump

end Bmdwire
