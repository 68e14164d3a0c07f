import Bmdwire.Analysis.InOrder

/-!
# Whose session it is

The id of a session is set by the first packet let in after the handshake's ACK, and no datagram
changes it afterwards. Of the sessions before, one is remembered, the one that the handshake
replaced: no packet of it is let in. A datagram of any other session is.
-/

set_option autoImplicit false

namespace Bmdwire

open Library (Reach)

namespace Udp

section Ids

variable {socket : Socket} {aggressive : Bool} {now : Time} {s t u : Udp}

/-! ## The ids under a datagram -/

/-- The ids of the session and of the one before stay the same. -/
def SameIds (s t : Udp) : Prop :=
  t.sessionId = s.sessionId ∧ t.prevSessionId = s.prevSessionId

theorem SameIds.trans (h : SameIds s t) (h' : SameIds t u) : SameIds s u :=
  ⟨h'.1.trans h.1, h'.2.trans h.2⟩

theorem sameIds_of_moves (h : Moves [.resend, .ack, .receive] s t) : SameIds s t := by
  apply h.keep (P := SameIds s) ?_ ⟨rfl, rfl⟩
  rintro part hpart u v hm hu
  cases hm with
  | called => exact hu
  | mark => exact hu
  | resent => exact hu
  | receive => exact hu
  | ack =>
    unfold onAck
    split
    · exact hu
    · exact hu
  | _ => simp at hpart

/-- A packet heard gives the session its id, if it has none. -/
theorem hear_ids (p : Packet) (s : Udp) :
    (s.hear now p).sessionId = (if s.sessionId.isNone then p.session else s.sessionId) ∧
      (s.hear now p).prevSessionId = s.prevSessionId := by
  have hack : ∀ u : Udp, SameIds u (u.onAck now p.acknowledgementNumber) := fun u =>
    sameIds_of_moves ((Move.ack u now _).moves (by decide))
  unfold hear
  by_cases hp : p.has flagAck = true
  · rw [if_pos hp]
    exact hack _
  · rw [if_neg hp]
    exact ⟨rfl, rfl⟩

/-- What a datagram makes of the ids. -/
theorem hearOne_ids (fromPeer : Bool) (raw : Bytes) :
    (s.hearOne socket now fromPeer raw).2.prevSessionId = s.prevSessionId ∧
      (s.hearOne socket now fromPeer raw).2.sessionId =
        if s.sessionId.isNone then (s.letIn socket fromPeer raw).bind (·.session)
        else s.sessionId := by
  rcases @hearOne_cases socket fromPeer raw now s with ⟨hin, hresend⟩ | ⟨p, t, hin, hresend, heq⟩
  · obtain ⟨hid, hprev⟩ := sameIds_of_moves (hresend.mono (by decide))
    refine ⟨hprev, ?_⟩
    rw [hin, hid]
    cases s.sessionId with
    | none => rfl
    | some id => rfl
  · obtain ⟨hid, hprev⟩ := sameIds_of_moves (hresend.mono (by decide))
    obtain ⟨hheard, hheardPrev⟩ := @hear_ids now p t
    have hgate := (heard_moves now p (s := t)).trans (handOn_moves (t.receiveHeard now p).1)
    obtain ⟨hon, honPrev⟩ := sameIds_of_moves (hgate.mono (by decide))
    rw [heq, hin]
    refine ⟨honPrev.trans (hheardPrev.trans hprev), hon.trans (hheard.trans ?_)⟩
    rw [hid]
    rfl

/-- A datagram of the session replaced is ignored. -/
theorem hearOne_replaced {fromPeer : Bool} {raw : Bytes} {p : Packet}
    (hread : Packet.fromBytes raw = some p) (hprev : s.prevSessionId.isSome = true)
    (hp : p.session = s.prevSessionId) : (s.hearOne socket now fromPeer raw).2 = s := by
  have haccepts : ¬ s.accepts p = true := by simp [accepts, hprev, hp]
  unfold hearOne receivePacketLow
  by_cases hpeer : fromPeer = true
  · rw [if_neg (not_not.mpr hpeer), hread]
    dsimp only
    rw [if_pos haccepts]
    rfl
  · rw [if_pos hpeer]
    rfl

/-- So is anything but a SYN reply while the SYN is out. -/
theorem hearOne_synSent {fromPeer : Bool} {raw : Bytes} {p : Packet}
    (hread : Packet.fromBytes raw = some p) (hsyn : s.state = .synSent)
    (hp : ¬ (p.has flagSyn = true ∧ p.session = some handshakeSession)) :
    (s.hearOne socket now fromPeer raw).2 = s := by
  have haccepts : ¬ s.accepts p = true := by
    unfold accepts
    rw [decide_eq_true_iff]
    exact fun h => hp (h.2 hsyn)
  unfold hearOne receivePacketLow
  by_cases hpeer : fromPeer = true
  · rw [if_neg (not_not.mpr hpeer), hread]
    dsimp only
    rw [if_pos haccepts]
    rfl
  · rw [if_pos hpeer]
    rfl

/-! ## The ids under the other events -/

/-- A new session remembers the one before, or none, and never the provisional id. -/
def Replaces (s t : Udp) : Prop :=
  (t.prevSessionId = none ∨ t.prevSessionId = s.sessionId) ∧
    t.prevSessionId ≠ some handshakeSession ∧
    (t.sessionId = some handshakeSession ∨ t.sessionId = none)

/-- The id stays, or is cleared. -/
def KeepsId (s t : Udp) : Prop :=
  t.prevSessionId = s.prevSessionId ∧ (t.sessionId = s.sessionId ∨ t.sessionId = none)

theorem replaces_resetSession (h : KeepsId s u ∨ Replaces s u) (now : Time) :
    Replaces s ({ u with threadAlive := true }.resetSession now) := by
  have hprev : ({ u with threadAlive := true }.resetSession now).prevSessionId =
      if u.sessionId ≠ none ∧ u.sessionId ≠ some handshakeSession then u.sessionId else none := rfl
  refine ⟨?_, ?_, .inl rfl⟩
  · rw [hprev]
    split
    · rename_i hadopted
      rcases h with ⟨-, hid⟩ | ⟨-, -, hid⟩
      · exact .inr (hid.resolve_right hadopted.1)
      · exact absurd (hid.resolve_right hadopted.1) hadopted.2
    · exact .inl rfl
  · rw [hprev]
    split
    · rename_i hadopted
      exact hadopted.2
    · simp

theorem step_ids {e : UdpEvent} (he : ∀ datagrams, e ≠ .drain datagrams) :
    GoesOnOrNew (KeepsId s) (Replaces s) s (s.step socket aggressive (now, e)) := by
  refine goesOnOrNew_of_moves (step_outbound he aggressive) ⟨rfl, .inl rfl⟩ ?_
    fun u now hu => replaces_resetSession hu now
  rintro part hpart u v hm hcount
  cases hm with
  | reset =>
    rw [count_resetSession] at hcount
    omega
  | forget =>
    exact ⟨fun h => ⟨h.1, .inr rfl⟩, fun h => ⟨h.1, h.2.1, .inr rfl⟩⟩
  | receive => simp [outbound] at hpart
  | hear => simp [outbound] at hpart
  | ack => simp [outbound] at hpart
  | _ => exact ⟨id, id⟩

theorem flushAck_ids (s : Udp) : KeepsId s (s.flushAck socket now).2 := by
  apply (flushAck_moves socket now (s := s)).keep (P := KeepsId s) ?_ ⟨rfl, .inl rfl⟩
  rintro part hpart u v hm hu
  cases hm with
  | called => exact hu
  | note => exact hu
  | forget => exact ⟨hu.1, .inr rfl⟩
  | receive => exact hu
  | _ => simp at hpart

end Ids

end Udp

/-! ## Runs -/

namespace Session

open Udp

variable {socket : Socket} {aggressive : Bool} {s : Session}

/-- The packets let in are of other sessions than the one replaced, and the id of the session is
the provisional one or that of one of them. -/
structure Identified (s : Session) : Prop where
  prev : s.udp.prevSessionId ≠ some handshakeSession
  heard : ∀ p ∈ s.heard, s.udp.prevSessionId.isSome = true → p.session ≠ s.udp.prevSessionId
  id : ∀ id, s.udp.sessionId = some id →
    id = handshakeSession ∨ ∃ p ∈ s.heard, p.session = some id

/-- The id stays, or is cleared. -/
theorem Identified.keeps {t : Udp} (h : s.Identified) (ht : KeepsId s.udp t) :
    Identified { s with udp := t } := by
  obtain ⟨hprev, hid⟩ := ht
  refine ⟨?_, ?_, fun id hsome => ?_⟩
  · exact hprev ▸ h.prev
  · dsimp only
    rw [hprev]
    exact h.heard
  · dsimp only at hsome
    rcases hid with hid | hid
    · exact h.id id (hid.symm.trans hsome)
    · rw [hid] at hsome
      cases hsome

theorem Identified.replaces {t u : Udp} (h : Replaces u t) : Identified { udp := t } := by
  obtain ⟨-, hprev, hid⟩ := h
  refine ⟨hprev, fun p hp => ?_, fun id hsome => ?_⟩
  · cases hp
  · dsimp only at hsome
    rcases hid with hid | hid
    · rw [hid, Option.some_inj] at hsome
      exact .inl hsome.symm
    · rw [hid] at hsome
      cases hsome

theorem step_identified {a : Time × SessionEvent} (h : s.Identified) (ha : s.Possible a) :
    (s.step socket aggressive a).Identified := by
  obtain ⟨now, e⟩ := a
  cases e with
  | datagram fromPeer raw =>
    obtain ⟨hprev, hid⟩ := @hearOne_ids socket now s.udp fromPeer raw
    unfold step
    dsimp only
    refine ⟨?_, ?_, ?_⟩
    · dsimp only
      rw [hprev]
      exact h.prev
    · dsimp only
      rw [hprev]
      intro p hp hsome
      rcases List.mem_append.mp hp with hp | hp
      · exact h.heard p hp hsome
      · have haccepts := letIn_accepts (Option.mem_toList.mp hp)
        unfold accepts at haccepts
        rw [decide_eq_true_iff] at haccepts
        exact fun hsame => haccepts.1 ⟨hsome, hsame⟩
    · dsimp only
      rw [hid]
      intro id hsome
      split at hsome
      · obtain ⟨p, hin, hsession⟩ := Option.bind_eq_some_iff.mp hsome
        exact .inr ⟨p, List.mem_append_right _ (Option.mem_toList.mpr hin), hsession⟩
      · obtain hprovisional | ⟨p, hp, hsession⟩ := h.id id hsome
        · exact .inl hprovisional
        · exact .inr ⟨p, List.mem_append_left _ hp, hsession⟩
  | flushAck => exact h.keeps (flushAck_ids s.udp)
  | endThread => exact h.keeps ⟨rfl, .inl rfl⟩
  | other e =>
    have hids := @step_ids socket aggressive now s.udp e (by
      rintro datagrams rfl
      exact ha)
    unfold step
    dsimp only
    rcases hids with ⟨hcount, hkeeps⟩ | ⟨hcount, hreplaces⟩
    · rw [if_pos hcount]
      exact h.keeps hkeeps
    · rw [if_neg hcount.ne']
      exact .replaces hreplaces

theorem identified_reach (h : s.Reachable socket aggressive) : s.Identified := by
  apply h.invariant
  · rintro s ⟨now, rfl⟩
    exact ⟨by simp [fresh], by simp, by simp [fresh]⟩
  · intro s a _ hs hok
    exact step_identified hs hok.1

/-- A session is silent, and its handshake begun again. -/
def silenced : Session :=
  Library.run (step Pump.allSent false) { udp := .fresh 0 } (hears [1] ++ [(0, .other .silence)])

/-- A packet of another session. -/
def dataOf (session number : ℕ) : Packet :=
  { reliableData number with session := some session }

/-- A session is silent, the handshake after it unanswered, and a third one established. -/
def forgotten : Session :=
  Library.run (step Pump.allSent false) { udp := .fresh 0 }
    (hears [1] ++ [(0, .other .receiveTurn), (0, .other .silence), (0, .other .silence),
      (0, .other .receiveTurn), (0, .other .receiveTurn), fromSwitcher Pump.synReply,
      (0, .other .receiveTurn), (0, .other .takeQueued), fromSwitcher (dataOf 0x8002 1)])

/-- A packet of the first session, sent again meanwhile. -/
def straggler : Session := forgotten.step Pump.allSent false (fromSwitcher (dataOf 0x8001 2))

end Session

end Bmdwire
