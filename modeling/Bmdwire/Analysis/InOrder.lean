import Bmdwire.Analysis.PulledPackets
import Bmdwire.Interface.UdpSessions
import Mathlib.Data.List.Chain

/-!
# Delivery in order

The cursor is one behind the last reliable packet handed on, and what is parked lies ahead of it
by no more than the window (`InOrder`). A datagram keeps this: the next one owed moves the cursor
past itself and the parked ones behind it, a later one is parked, an earlier one dropped, and one
beyond the window makes a jump. A number of 16 bits is parked as it is, while the cursor has 15;
so this is about numbers that are parked below `0x8000`.
-/

set_option autoImplicit false

namespace Bmdwire

open Library (Dict Reach)

namespace Udp

/-- The number owed after a packet. -/
def nextNumber (p : Packet) : ℕ := (p.sequenceNumber + 1) % 0x8000

/-- One packet is the next after another. -/
def Next (p q : Packet) : Prop := seqDist q.sequenceNumber (nextNumber p) = 0

/-- One packet is handed on after another: the next one, or one that the park window does not
reach. -/
def Follows (p q : Packet) : Prop :=
  Next p q ∨ deliveryParkWindow < seqDist q.sequenceNumber (nextNumber p) ∧
    seqDist q.sequenceNumber (nextNumber p) ≤ 0x4000

/-! ## Distances -/

theorem seqDist_lt (a : ℤ) (b : ℕ) : seqDist a b < 0x8000 := by
  unfold seqDist
  omega

theorem seqDist_self_mod (n : ℕ) : seqDist n (n % 0x8000) = 0 := by
  unfold seqDist
  omega

theorem eq_of_seqDist {n c : ℕ} (hn : n < 0x8000) (hc : c < 0x8000) (h : seqDist n c = 0) :
    n = c := by
  unfold seqDist at h
  omega

/-- One number further the distance is one less. -/
theorem seqDist_succ {n c : ℕ} (h : 0 < seqDist n c) :
    seqDist n ((c + 1) % 0x8000) = seqDist n c - 1 := by
  unfold seqDist at h ⊢
  omega

theorem nextNumber_lt (p : Packet) : nextNumber p < 0x8000 := Nat.mod_lt _ (by decide)

theorem nextNumber_of_seqDist {p : Packet} {c : ℕ} (h : seqDist p.sequenceNumber c = 0) :
    nextNumber p = (c + 1) % 0x8000 := by
  unfold seqDist at h
  unfold nextNumber
  omega

/-! ## The cursor and what is parked -/

/-- Ahead of the cursor, within the park window. -/
def Ahead (next : Option ℕ) (n : ℕ) : Prop :=
  ∃ cursor, next = some cursor ∧ 0 < seqDist n cursor ∧ seqDist n cursor ≤ deliveryParkWindow

instance Ahead.decidable : (next : Option ℕ) → (n : ℕ) → Decidable (Ahead next n)
  | none, _ => isFalse (by rintro ⟨cursor, hcursor, -⟩; cases hcursor)
  | some cursor, n =>
    decidable_of_iff (0 < seqDist n cursor ∧ seqDist n cursor ≤ deliveryParkWindow)
      ⟨fun h => ⟨cursor, rfl, h⟩, by rintro ⟨c, hc, h⟩; cases hc; exact h⟩

/-- What is parked is reliable, and parked under its own number, which has 15 bits. -/
def Own (parked : Dict ℕ Packet) : Prop :=
  ∀ n p, parked.get? n = some p → p.sequenceNumber = n ∧ p.has flagReliable = true ∧ n < 0x8000

/-- The packets handed on are in order up to the cursor, and what is parked lies ahead of it. -/
structure InOrder (handed : List Packet) (next : Option ℕ) (parked : Dict ℕ Packet) : Prop where
  last : next = handed.getLast?.map nextNumber
  chain : handed.IsChain Follows
  own : Own parked
  ahead : ∀ n ∈ parked.keys, Ahead next n

/-- While the parked packets are drained one may be at the cursor. -/
structure Draining (handed : List Packet) (cursor : ℕ) (parked : Dict ℕ Packet) : Prop where
  last : some cursor = handed.getLast?.map nextNumber
  chain : handed.IsChain Follows
  own : Own parked
  within : ∀ n ∈ parked.keys, seqDist n cursor ≤ deliveryParkWindow

theorem own_erase {parked : Dict ℕ Packet} (h : Own parked) (c : ℕ) : Own (parked.erase c) := by
  intro n p hp
  by_cases hn : n = c
  · subst hn
    simp at hp
  · rw [Dict.get?_erase_ne _ hn] at hp
    exact h n p hp

theorem Own.lt {parked : Dict ℕ Packet} (h : Own parked) {n : ℕ} (hn : n ∈ parked.keys) :
    n < 0x8000 := by
  obtain ⟨p, hp⟩ := parked.exists_get?_of_mem_keys hn
  exact (h n p hp).2.2

section Handed

variable {handed : List Packet} {next : Option ℕ} {cursor : ℕ} {p : Packet}
  {parked : Dict ℕ Packet}

theorem getLast_append (handed : List Packet) (p : Packet) :
    some (nextNumber p) = (handed ++ [p]).getLast?.map nextNumber := by
  rw [List.getLast?_concat, Option.map_some]

/-- A packet is handed on after the last one. -/
theorem chain_append (h : handed.IsChain Follows)
    (hp : ∀ q, handed.getLast? = some q → Follows q p) : (handed ++ [p]).IsChain Follows := by
  apply h.append (List.isChain_singleton p)
  intro q hq r hr
  cases hr
  exact hp q hq

/-- The packet after the last one is at the cursor, or behind a gap. -/
theorem chain_cursor (h : handed.IsChain Follows)
    (hlast : some cursor = handed.getLast?.map nextNumber)
    (hp : seqDist p.sequenceNumber cursor = 0 ∨
      deliveryParkWindow < seqDist p.sequenceNumber cursor ∧
        seqDist p.sequenceNumber cursor ≤ 0x4000) : (handed ++ [p]).IsChain Follows := by
  apply chain_append h
  intro q hq
  rw [hq, Option.map_some, Option.some_inj] at hlast
  subst hlast
  exact hp

theorem cursor_lt (hlast : some cursor = handed.getLast?.map nextNumber) : cursor < 0x8000 := by
  obtain ⟨q, -, rfl⟩ := Option.map_eq_some_iff.mp hlast.symm
  exact nextNumber_lt q

/-- Past the number at the cursor, what is parked is one nearer. -/
theorem nearer {n : ℕ} (hpos : 0 < seqDist n cursor)
    (hle : seqDist n cursor ≤ deliveryParkWindow) :
    seqDist n ((cursor + 1) % 0x8000) ≤ deliveryParkWindow := by
  rw [seqDist_succ hpos]
  omega

/-- No parked packet is at the cursor. -/
theorem Draining.done (h : Draining handed cursor parked) (hnone : parked.get? cursor = none) :
    InOrder handed (some cursor) parked := by
  refine ⟨h.last, h.chain, h.own, fun n hn => ⟨cursor, rfl, ?_, h.within n hn⟩⟩
  apply Nat.pos_of_ne_zero
  intro hzero
  have heq := eq_of_seqDist (h.own.lt hn) (cursor_lt h.last) hzero
  rw [heq, parked.mem_keys, hnone] at hn
  cases hn

/-- The parked packet at the cursor is handed on. -/
theorem Draining.turn (h : Draining handed cursor parked) (hp : parked.get? cursor = some p) :
    Draining (handed ++ [p]) ((cursor + 1) % 0x8000) (parked.erase cursor) := by
  obtain ⟨hnumber, -, hlt⟩ := h.own cursor p hp
  have hzero : seqDist p.sequenceNumber cursor = 0 := by
    rw [hnumber]
    unfold seqDist
    omega
  refine ⟨?_, chain_cursor h.chain h.last (.inl hzero), own_erase h.own cursor, fun n hn => ?_⟩
  · rw [← nextNumber_of_seqDist hzero]
    exact getLast_append handed p
  · rw [Dict.keys_erase, parked.nodup.mem_erase_iff] at hn
    obtain ⟨hne, hmem⟩ := hn
    have hpos : 0 < seqDist n cursor := by
      apply Nat.pos_of_ne_zero
      intro hsame
      exact hne (eq_of_seqDist (h.own.lt hmem) hlt hsame)
    exact nearer hpos (h.within n hmem)

/-! ## The four ways through the gate -/

/-- The first packet sets the cursor. -/
theorem InOrder.first (h : InOrder handed none parked) (p : Packet) :
    InOrder (handed ++ [p]) (some (nextNumber p)) parked := by
  refine ⟨getLast_append handed p, chain_append h.chain fun q hq => ?_, h.own, fun n hn => ?_⟩
  · have hlast := h.last
    rw [hq] at hlast
    cases hlast
  · obtain ⟨cursor, hcursor, -⟩ := h.ahead n hn
    cases hcursor

/-- The packet owed fills the gap. -/
theorem InOrder.fill (h : InOrder handed (some cursor) parked)
    (hzero : seqDist p.sequenceNumber cursor = 0) :
    Draining (handed ++ [p]) (nextNumber p) parked := by
  refine ⟨getLast_append handed p, chain_cursor h.chain h.last (.inl hzero), h.own,
    fun n hn => ?_⟩
  obtain ⟨c, hc, hpos, hle⟩ := h.ahead n hn
  cases hc
  rw [nextNumber_of_seqDist hzero]
  exact nearer hpos hle

/-- A packet ahead is parked. -/
theorem InOrder.park (h : InOrder handed next parked) (hahead : Ahead next p.sequenceNumber)
    (hreliable : p.has flagReliable = true) (hshort : p.sequenceNumber < 0x8000) :
    InOrder handed next (parked.set p.sequenceNumber p) := by
  refine ⟨h.last, h.chain, fun n q hq => ?_, fun n hn => ?_⟩
  · rw [Dict.get?_set] at hq
    split at hq
    · rename_i hn
      cases hq
      exact ⟨hn.symm, hreliable, hn ▸ hshort⟩
    · exact h.own n q hq
  · obtain ⟨q, hq⟩ := Dict.exists_get?_of_mem_keys _ hn
    rw [Dict.get?_set] at hq
    split at hq
    · rename_i hn
      exact hn ▸ hahead
    · exact h.ahead n (parked.mem_keys_of_get? hq)

/-- A jump drops what is parked. -/
theorem InOrder.jump (h : InOrder handed (some cursor) parked)
    (hfar : deliveryParkWindow < seqDist p.sequenceNumber cursor)
    (hhalf : seqDist p.sequenceNumber cursor ≤ 0x4000) :
    InOrder (handed ++ [p]) (some (nextNumber p)) .empty := by
  refine ⟨getLast_append handed p, chain_cursor h.chain h.last (.inr ⟨hfar, hhalf⟩), ?_, ?_⟩
  · intro n q hq
    cases hq
  · intro n hn
    cases hn

end Handed

/-! ## What is handed on -/

section HandsOn

variable {handed : List Packet} {cursor : ℕ} {p : Packet} {s t u : Udp}

/-- Packets, which are reliable, are handed on in order after those before. -/
def HandsOn (handed : List Packet) (s t : Udp) : Prop :=
  ∃ ps : List Packet, t.threadRecvQueue = s.threadRecvQueue ++ ps.map .packet ∧
    (∀ p ∈ ps, p.has flagReliable = true) ∧ InOrder (handed ++ ps) t.deliverNext t.parked

theorem HandsOn.nil (h : InOrder handed t.deliverNext t.parked)
    (hqueue : t.threadRecvQueue = s.threadRecvQueue) : HandsOn handed s t := by
  refine ⟨[], ?_, by simp, ?_⟩
  · simpa using hqueue
  · rwa [List.append_nil]

/-- A packet is handed on, then others. -/
theorem HandsOn.cons (h : HandsOn (handed ++ [p]) t u)
    (hqueue : t.threadRecvQueue = s.threadRecvQueue ++ [.packet p])
    (hp : p.has flagReliable = true) : HandsOn handed s u := by
  obtain ⟨ps, hps, hreliable, horder⟩ := h
  refine ⟨p :: ps, ?_, ?_, ?_⟩
  · rw [hps, hqueue, List.map_cons, List.append_assoc, List.singleton_append]
  · intro q hq
    rcases List.mem_cons.mp hq with rfl | hq
    · exact hp
    · exact hreliable q hq
  · rwa [List.append_assoc] at horder

theorem HandsOn.one (h : InOrder (handed ++ [p]) t.deliverNext t.parked)
    (hqueue : t.threadRecvQueue = s.threadRecvQueue ++ [.packet p])
    (hp : p.has flagReliable = true) : HandsOn handed s t :=
  (HandsOn.nil h rfl).cons hqueue hp

/-- The parked packets are handed on up to the first that is missing. The fuel lasts, as each
one handed on is no longer parked. -/
theorem drainParked_handsOn (fuel : ℕ) (hnext : s.deliverNext = some cursor)
    (h : Draining handed cursor s.parked) (hfuel : s.parked.keys.length ≤ fuel) :
    HandsOn handed s (s.drainParked fuel cursor) := by
  induction fuel generalizing handed cursor s with
  | zero =>
    have hkeys : s.parked.keys = [] := List.eq_nil_of_length_eq_zero (Nat.le_zero.mp hfuel)
    have hdone := h.done (s.parked.keys_eq_nil_iff.mp hkeys cursor)
    rw [← hnext] at hdone
    exact .nil hdone rfl
  | succ fuel ih =>
    unfold drainParked
    split
    · rename_i hnone
      have hdone := h.done hnone
      rw [← hnext] at hdone
      exact .nil hdone rfl
    · rename_i p hp
      have hmem := s.parked.mem_keys_of_get? hp
      have hlength : (s.parked.erase cursor).keys.length ≤ fuel := by
        rw [Dict.keys_erase, List.length_erase_of_mem hmem]
        omega
      exact (ih rfl (h.turn hp) hlength).cons rfl (h.own cursor p hp).2.1

/-- A reliable packet at the gate is handed on, with the parked ones behind it, or parked, or
dropped. -/
theorem gate_handsOn (h : InOrder handed s.deliverNext s.parked)
    (hreliable : p.has flagReliable = true) (hestablished : s.rxEstablished = true)
    (hshort : Ahead s.deliverNext p.sequenceNumber → p.sequenceNumber < 0x8000) :
    HandsOn handed s ((s.gate p).2.handOn (s.gate p).1) := by
  unfold gate
  dsimp only
  rw [if_neg (by simp [hreliable, hestablished])]
  split
  · rename_i hnone
    rw [hnone] at h
    exact .one (h.first p) rfl hreliable
  · rename_i cursor hcursor
    rw [hcursor] at h
    by_cases hzero : seqDist p.sequenceNumber cursor = 0
    · rw [if_pos hzero]
      have hfill := h.fill hzero
      by_cases hkeys : s.parked.keys = []
      · rw [if_pos hkeys]
        exact .one (hfill.done (s.parked.keys_eq_nil_iff.mp hkeys _)) rfl hreliable
      · rw [if_neg hkeys]
        have hdrain := @drainParked_handsOn _ _ { s with
          deliverNext := some (nextNumber p)
          threadRecvQueue := s.threadRecvQueue ++ [.packet p] } _ rfl hfill le_rfl
        exact hdrain.cons rfl hreliable
    · rw [if_neg hzero]
      by_cases hbehind : seqDist p.sequenceNumber cursor > 0x4000
      · rw [if_pos hbehind]
        exact .nil (hcursor ▸ h) rfl
      · rw [if_neg hbehind]
        by_cases hnear : seqDist p.sequenceNumber cursor ≤ deliveryParkWindow
        · rw [if_pos hnear]
          have hahead : Ahead s.deliverNext p.sequenceNumber :=
            ⟨cursor, hcursor, Nat.pos_of_ne_zero hzero, hnear⟩
          exact .nil ((hcursor ▸ h).park hahead hreliable (hshort hahead)) rfl
        · rw [if_neg hnear]
          exact .one (h.jump (by omega) (by omega)) rfl hreliable

end HandsOn

/-! ## A datagram -/

section Datagram

variable {handed : List Packet} {socket : Socket} {now : Time} {s t u : Udp}

/-- What is parked and handed on, and where the cursor is, stay the same. -/
def SameInbound (s t : Udp) : Prop :=
  t.deliverNext = s.deliverNext ∧ t.parked = s.parked ∧ t.threadRecvQueue = s.threadRecvQueue

theorem SameInbound.trans (h : SameInbound s t) (h' : SameInbound t u) : SameInbound s u :=
  ⟨h'.1.trans h.1, h'.2.1.trans h.2.1, h'.2.2.trans h.2.2⟩

theorem SameInbound.inOrder (h : SameInbound s t) (horder : InOrder handed s.deliverNext s.parked) :
    InOrder handed t.deliverNext t.parked := by
  rw [h.1, h.2.1]
  exact horder

theorem SameInbound.handsOn (h : SameInbound s t) (ht : HandsOn handed t u) :
    HandsOn handed s u := by
  obtain ⟨ps, hqueue, hps⟩ := ht
  exact ⟨ps, h.2.2 ▸ hqueue, hps⟩

/-- The received window and the ACK stay the same. -/
def SameWindow (s t : Udp) : Prop :=
  t.receivedPackets = s.receivedPackets ∧ t.ackNumber = s.ackNumber ∧
    t.rxEstablished = s.rxEstablished

theorem same_of_moves (h : Moves [.resend, .hear, .ack] s t) :
    SameInbound s t ∧ SameWindow s t := by
  apply h.keep (P := fun t => SameInbound s t ∧ SameWindow s t) ?_
    ⟨⟨rfl, rfl, rfl⟩, rfl, rfl, rfl⟩
  rintro part hpart u v hm hu
  cases hm with
  | called => exact hu
  | mark => exact hu
  | resent => exact hu
  | hear => exact hu
  | ack =>
    unfold onAck
    split
    · exact hu
    · exact hu
  | _ => simp at hpart

/-- The packet let in is one that the gate parks if it is not the next one owed. -/
def Parks (p : Packet) (s : Udp) : Prop :=
  p.has flagReliable = true ∧
    ¬ (p.has flagRetransmission = true ∧ p.sequenceNumber ∈ s.receivedPackets) ∧
    Ahead s.deliverNext p.sequenceNumber

instance Parks.decidable (p : Packet) (s : Udp) : Decidable (Parks p s) :=
  inferInstanceAs (Decidable (p.has flagReliable = true ∧
    ¬ (p.has flagRetransmission = true ∧ p.sequenceNumber ∈ s.receivedPackets) ∧
    Ahead s.deliverNext p.sequenceNumber))

theorem onAck_remote (number : ℕ) (s : Udp) :
    (s.onAck now number).remoteSequenceNumber = s.remoteSequenceNumber := by
  unfold onAck
  split
  · rfl
  · rfl

theorem hear_remote (p : Packet) (s : Udp) :
    (s.hear now p).remoteSequenceNumber = p.sequenceNumber := by
  unfold hear
  by_cases hack : p.has flagAck = true
  · rw [if_pos hack]
    exact onAck_remote _ _
  · rw [if_neg hack]

/-- A reliable packet establishes the reception. -/
theorem updateAckNumber_established {p : Packet} (hp : p.has flagReliable = true) (s : Udp) :
    (s.updateAckNumber p).rxEstablished = true := by
  unfold updateAckNumber
  split
  · assumption
  · exact hp

theorem updateAckNumber_inbound (p : Packet) (s : Udp) : SameInbound s (s.updateAckNumber p) := by
  unfold updateAckNumber
  split
  · exact ⟨rfl, rfl, rfl⟩
  · exact ⟨rfl, rfl, rfl⟩

theorem oweAck_inbound (p : Packet) (s : Udp) : SameInbound s (s.oweAck p) ∧
    (s.oweAck p).rxEstablished = s.rxEstablished := by
  unfold oweAck
  split
  · exact ⟨⟨rfl, rfl, rfl⟩, rfl⟩
  · exact ⟨⟨rfl, rfl, rfl⟩, rfl⟩

theorem window_inbound (received : List ℕ) (p : Packet) (s : Udp) :
    SameInbound s (({ s with receivedPackets := received }.updateAckNumber p).oweAck p) := by
  have hupdate := updateAckNumber_inbound p { s with receivedPackets := received }
  exact SameInbound.trans hupdate (oweAck_inbound p _).1

/-- A reliable packet let in is dropped as seen, or comes to the gate. -/
theorem receiveHeard_handsOn {p : Packet} (h : InOrder handed s.deliverNext s.parked)
    (hp : p.has flagReliable = true) (hshort : s.Parks p → p.sequenceNumber < 0x8000) :
    HandsOn handed s ((s.receiveHeard now p).2.handOn (s.receiveHeard now p).1) := by
  obtain ⟨hhear, hreceived, -⟩ := same_of_moves ((@hear_moves now s p).mono (by decide))
  have hremote := @hear_remote now p s
  unfold receiveHeard
  dsimp only
  generalize s.hear now p = t at hhear hreceived hremote ⊢
  have horder := hhear.inOrder h
  refine hhear.handsOn ?_
  split
  · dsimp only [handOn]
    split
    · exact .nil horder rfl
    · exact .nil horder rfl
  · rename_i hnew
    rw [hremote, hreceived] at hnew
    have hsame :=
      window_inbound (seenAppend seenMaxlen t.remoteSequenceNumber t.receivedPackets) p t
    refine hsame.handsOn (gate_handsOn (hsame.inOrder horder) hp ?_ ?_)
    · rw [(oweAck_inbound p _).2]
      exact updateAckNumber_established hp _
    · rw [hsame.1, hhear.1]
      exact fun hahead => hshort ⟨hp, hnew, hahead⟩

/-- What comes to the receive queue: its reliable packets are in order after those before. -/
def Delivers (handed : List Packet) (s t : Udp) : Prop :=
  ∃ items, t.threadRecvQueue = s.threadRecvQueue ++ items ∧
    InOrder (handed ++ reliableItems items) t.deliverNext t.parked

theorem reliableItems_packets {ps : List Packet} (h : ∀ p ∈ ps, p.has flagReliable = true) :
    reliableItems (ps.map .packet) = ps := by
  induction ps with
  | nil => rfl
  | cons p ps ih =>
    have hp := h p (List.mem_cons_self)
    have hps := ih fun q hq => h q (List.mem_cons_of_mem p hq)
    unfold reliableItems at hps ⊢
    rw [List.map_cons, List.filterMap_cons]
    simp only [hp, if_true, hps]

theorem HandsOn.delivers (h : HandsOn handed s t) : Delivers handed s t := by
  obtain ⟨ps, hqueue, hreliable, horder⟩ := h
  refine ⟨ps.map .packet, hqueue, ?_⟩
  rwa [reliableItems_packets hreliable]

theorem SameInbound.delivers (h : SameInbound s t) (ht : Delivers handed t u) :
    Delivers handed s u := by
  obtain ⟨items, hqueue, horder⟩ := ht
  exact ⟨items, h.2.2 ▸ hqueue, horder⟩

theorem gate_unreliable {p : Packet} (hp : p.has flagReliable = false) (s : Udp) :
    s.gate p = (.packet p, s) := by
  unfold gate
  simp [hp]

/-- Other packets than reliable ones go on as they come. -/
theorem receiveHeard_delivers {p : Packet} (h : InOrder handed s.deliverNext s.parked)
    (hshort : s.Parks p → p.sequenceNumber < 0x8000) :
    Delivers handed s ((s.receiveHeard now p).2.handOn (s.receiveHeard now p).1) := by
  cases hp : p.has flagReliable with
  | true => exact (receiveHeard_handsOn h hp hshort).delivers
  | false =>
    have hhear := (same_of_moves ((@hear_moves now s p).mono (by decide))).1
    unfold receiveHeard
    dsimp only
    generalize s.hear now p = t at hhear ⊢
    have horder := hhear.inOrder h
    refine hhear.delivers ?_
    split
    · dsimp only [handOn]
      split
      · exact (HandsOn.nil horder rfl).delivers
      · exact (HandsOn.nil horder rfl).delivers
    · have hsame :=
        window_inbound (seenAppend seenMaxlen t.remoteSequenceNumber t.receivedPackets) p t
      rw [gate_unreliable hp]
      refine hsame.delivers ⟨[.packet p], rfl, ?_⟩
      have hnone : reliableItems [.packet p] = [] := by simp [reliableItems, hp]
      rw [hnone, List.append_nil]
      exact hsame.inOrder horder

/-- A datagram of a drain. -/
theorem hearOne_delivers {fromPeer : Bool} {raw : Bytes}
    (h : InOrder handed s.deliverNext s.parked)
    (hshort : ∀ p, s.letIn socket fromPeer raw = some p → s.Parks p → p.sequenceNumber < 0x8000) :
    Delivers handed s (s.hearOne socket now fromPeer raw).2 := by
  rcases @hearOne_cases socket fromPeer raw now s with ⟨-, hresend⟩ | ⟨p, t, hin, hresend, heq⟩
  · have hsame := (same_of_moves (hresend.mono (by decide))).1
    exact (HandsOn.nil (hsame.inOrder h) hsame.2.2).delivers
  · obtain ⟨hsame, hreceived, -⟩ := same_of_moves (hresend.mono (by decide))
    rw [heq]
    refine hsame.delivers (receiveHeard_delivers (hsame.inOrder h) fun hparks => ?_)
    rw [Parks, hreceived, hsame.1] at hparks
    exact hshort p hin hparks

end Datagram

/-! ## The other events -/

section Others

variable {socket : Socket} {aggressive : Bool} {now : Time} {s t : Udp}

/-- The cursor and what is parked stay the same, the window and the ACK too. -/
def SameReceiver (s t : Udp) : Prop :=
  t.deliverNext = s.deliverNext ∧ t.parked = s.parked ∧ SameWindow s t

/-- Nothing is received yet. -/
def NothingReceived (s : Udp) : Prop :=
  s.deliverNext = none ∧ s.parked = .empty ∧ s.rxEstablished = false ∧ s.receivedPackets = []

/-- An event that is no drain leaves the receiver alone, unless a new session begins. -/
theorem step_receiver {e : UdpEvent} (he : ∀ datagrams, e ≠ .drain datagrams) :
    GoesOnOrNew (SameReceiver s) NothingReceived s (s.step socket aggressive (now, e)) := by
  refine goesOnOrNew_of_moves (step_outbound he aggressive) ⟨rfl, rfl, rfl, rfl, rfl⟩ ?_
    fun _ _ _ => ⟨rfl, rfl, rfl, rfl⟩
  rintro part hpart u v hm hcount
  cases hm with
  | reset =>
    rw [count_resetSession] at hcount
    omega
  | receive => simp [outbound] at hpart
  | hear => simp [outbound] at hpart
  | ack => simp [outbound] at hpart
  | _ => exact ⟨id, id⟩

/-- So does the sending of an ACK. -/
theorem sendAck_receiver {p : Packet} (hack : p.has flagAck = true) (s : Udp) :
    SameReceiver s (s.sendPacketLow socket now p).2 := by
  apply (sendPacketLow_note socket now hack).keep (P := SameReceiver s) ?_
    ⟨rfl, rfl, rfl, rfl, rfl⟩
  rintro part hpart u v hm hu
  cases hm with
  | called => exact hu
  | note => exact hu
  | forget => exact hu
  | _ => simp at hpart

theorem flushAck_receiver (s : Udp) : SameReceiver s (s.flushAck socket now).2 := by
  unfold flushAck
  split
  · exact ⟨rfl, rfl, rfl, rfl, rfl⟩
  · have hack : s.ackPacket.has flagAck = true := by simp [ackPacket, Packet.has, flagAck]
    exact sendAck_receiver hack { s with acksOwed := 0 }

end Others

end Udp

/-! ## Runs -/

namespace Session

open Udp

variable {socket : Socket} {aggressive : Bool} {s : Session}

/-- A datagram that is parked has a number of 15 bits. -/
def ParksShort (socket : Socket) (s : Session) (a : Time × SessionEvent) : Prop :=
  match a.2 with
  | .datagram fromPeer raw => ∀ p ∈ s.udp.letIn socket fromPeer raw,
      s.udp.Parks p → p.sequenceNumber < 0x8000
  | _ => True

instance ParksShort.decidable (socket : Socket) (s : Session) :
    (a : Time × SessionEvent) → Decidable (s.ParksShort socket a)
  | (_, .datagram fromPeer raw) =>
    inferInstanceAs (Decidable (∀ p ∈ s.udp.letIn socket fromPeer raw,
      s.udp.Parks p → p.sequenceNumber < 0x8000))
  | (_, .flushAck) | (_, .endThread) | (_, .other _) => inferInstanceAs (Decidable True)

/-- The record of a session is in order. -/
def Ordered (s : Session) : Prop := InOrder s.handed s.udp.deliverNext s.udp.parked

theorem ordered_start (u : Udp) (hnext : u.deliverNext = none) (hparked : u.parked = .empty) :
    Ordered { udp := u } := by
  unfold Ordered
  rw [hnext, hparked]
  refine ⟨rfl, List.isChain_nil, ?_, ?_⟩
  · intro n p hp
    cases hp
  · intro n hn
    cases hn

theorem step_ordered {a : Time × SessionEvent} (h : s.Ordered) (ha : s.Possible a)
    (hshort : s.ParksShort socket a) : (s.step socket aggressive a).Ordered := by
  obtain ⟨now, e⟩ := a
  cases e with
  | datagram fromPeer raw =>
    obtain ⟨items, hqueue, horder⟩ := @hearOne_delivers _ socket now _ fromPeer raw h hshort
    unfold step Ordered
    dsimp only
    rwa [hqueue, List.drop_left]
  | flushAck =>
    obtain ⟨hnext, hparked, -⟩ := @flushAck_receiver socket now s.udp
    unfold step Ordered
    dsimp only
    rw [hnext, hparked]
    exact h
  | endThread => exact h
  | other e =>
    have hsame := @step_receiver socket aggressive now s.udp e (by
      rintro datagrams rfl
      exact ha)
    unfold step Ordered
    dsimp only
    rcases hsame with ⟨hcount, hnext, hparked, -⟩ | ⟨hcount, hnext, hparked, -⟩
    · rw [if_pos hcount]
      dsimp only
      rw [hnext, hparked]
      exact h
    · rw [if_neg hcount.ne']
      exact ordered_start _ hnext hparked

/-- The numbers of packets handed on one after the other, with no jump between. -/
theorem number_of_chain {p q : Packet} {between : List Packet}
    (h : (p :: between ++ [q]).IsChain Next) :
    q.sequenceNumber % 0x8000 = (p.sequenceNumber + between.length + 1) % 0x8000 := by
  induction between generalizing p with
  | nil =>
    have hnext : Next p q := by simpa using h
    unfold Next nextNumber seqDist at hnext
    simp only [List.length_nil]
    omega
  | cons r between ih =>
    obtain ⟨hnext, hrest⟩ := List.isChain_cons_cons.mp h
    have hlast := ih hrest
    unfold Next nextNumber seqDist at hnext
    rw [List.length_cons]
    omega

theorem ordered_reach (h : s.ReachableWhen socket aggressive (ParksShort socket)) : s.Ordered := by
  apply h.invariant
  · rintro s ⟨now, rfl⟩
    exact ordered_start _ rfl rfl
  · intro s a _ hs hok
    exact step_ordered hs hok.1 hok.2

/-- While the packets that are parked have numbers of 15 bits, each packet is handed on as the
next after the one before, or by a jump beyond the park window; without a jump between them two
of one number are a whole cycle apart; and what is parked lies strictly ahead of the cursor,
within the window. -/
theorem handed_in_order (h : s.ReachableWhen socket aggressive (ParksShort socket)) :
    s.handed.IsChain Follows ∧
      (∀ before p between q after, s.handed = before ++ p :: between ++ q :: after →
        (p :: between ++ [q]).IsChain Next →
        p.sequenceNumber % 0x8000 = q.sequenceNumber % 0x8000 → 0x8000 ∣ between.length + 1) ∧
      ∀ n ∈ s.udp.parked.keys, Ahead s.udp.deliverNext n := by
  have hordered := ordered_reach h
  refine ⟨hordered.chain, fun before p between q after _ hchain hsame => ?_, hordered.ahead⟩
  have hnumber := number_of_chain hchain
  omega

/-! ## A parked number of 16 bits -/

/-- A reliable packet of the session. -/
def reliableData (number : ℕ) : Packet :=
  { flags := flagReliable, session := some 0x8001, sequenceNumber := number,
    data := some [1, 2, 3, 4] }

/-- A datagram of the switcher. -/
def fromSwitcher (p : Packet) : Time × SessionEvent := (0, .datagram true (p.toBytes.getD []))

/-- An established session, and then reliable packets. -/
def hears (numbers : List ℕ) : List (Time × SessionEvent) :=
  [(0, .other .connect), (0, .other .takeQueued), fromSwitcher Pump.synReply,
    (0, .other .receiveTurn), (0, .other .takeQueued)] ++
    numbers.map fun n => fromSwitcher (reliableData n)

/-- A packet numbered `0x8006` comes before the one numbered 5, and stays parked. -/
def overtaken : Session :=
  Library.run (step Pump.allSent false) { udp := .fresh 0 } (hears [4, 0x8006, 5])

theorem overtaken_not_ahead : overtaken.Reachable Pump.allSent false ∧
    ∃ n ∈ overtaken.udp.parked.keys, ¬ Ahead overtaken.udp.deliverNext n := by
  have hstart : Reachable Pump.allSent false { udp := .fresh 0 } := .start ⟨0, rfl⟩
  exact ⟨hstart.run _ (by decide), by decide⟩

/-- The packet numbered 6 comes before the one numbered 5. -/
def reordered : Session :=
  Library.run (step Pump.allSent false) { udp := .fresh 0 } (hears [4, 6, 5])

theorem handed_in_order_reordered : reordered.handed.map (·.sequenceNumber) = [4, 5, 6] ∧
    reordered.handed.IsChain Follows ∧
      (∀ before p between q after, reordered.handed = before ++ p :: between ++ q :: after →
        (p :: between ++ [q]).IsChain Next →
        p.sequenceNumber % 0x8000 = q.sequenceNumber % 0x8000 → 0x8000 ∣ between.length + 1) ∧
      ∀ n ∈ reordered.udp.parked.keys, Ahead reordered.udp.deliverNext n := by
  have hstart : ReachableWhen Pump.allSent false (ParksShort Pump.allSent) { udp := .fresh 0 } :=
    .start ⟨0, rfl⟩
  exact ⟨by decide, handed_in_order (hstart.run _ (by decide))⟩

end Session

end Bmdwire
