import Bmdwire.Interface.UdpMoves

/-!
# Sessions, datagram by datagram

A drain of the socket hears one datagram after the other. Here each is a step of its own, and so
are the ACKs between them. A `Session` is a transport with a record, which a handshake begins
anew: the packets let in, and the reliable packets handed to the receive queue. Whatever the
transport comes to is the transport of such a session (`session_of_reachable`).
-/

set_option autoImplicit false

namespace Bmdwire

open Library (Reach Steps OkAlong)

namespace Udp

/-- One datagram of a drain, and whether an exception leaves it. -/
def hearOne (socket : Socket) (now : Time) (fromPeer : Bool) (raw : Bytes) (s : Udp) :
    Bool × Udp :=
  let r := s.receivePacketLow socket now fromPeer raw
  if r.1 then (true, r.2.2) else (false, r.2.2.handOn r.2.1)

/-- The packet of a datagram, if it gets as far as being heard. -/
def letIn (socket : Socket) (fromPeer : Bool) (raw : Bytes) (s : Udp) : Option Packet :=
  if ¬ fromPeer then none
  else
    match Packet.fromBytes raw with
    | none => none
    | some p =>
      if ¬ s.accepts p then none
      else if p.has flagRequestRetransmission ∧
          (s.retransmitFrom socket p.retransmissionRequest).1 then none
      else some p

end Udp

namespace Udp

variable {socket : Socket} {fromPeer : Bool} {raw : Bytes} {now : Time} {s : Udp}

/-- A packet let in got past the guards. -/
theorem letIn_accepts {p : Packet} (h : s.letIn socket fromPeer raw = some p) :
    s.accepts p = true := by
  unfold letIn at h
  split at h
  · cases h
  · split at h
    · cases h
    · split at h
      · cases h
      · rename_i haccepts
        split at h
        · cases h
        · cases h
          simpa using haccepts

/-- A datagram is not heard, though it may be answered by a resend, or its packet is let in. -/
theorem hearOne_cases :
    s.letIn socket fromPeer raw = none ∧
        Moves [.resend] s (s.hearOne socket now fromPeer raw).2 ∨
      ∃ p t, s.letIn socket fromPeer raw = some p ∧ Moves [.resend] s t ∧
        (s.hearOne socket now fromPeer raw).2 =
          (t.receiveHeard now p).2.handOn (t.receiveHeard now p).1 := by
  unfold letIn hearOne receivePacketLow
  by_cases hpeer : fromPeer = true
  · rw [if_neg (not_not.mpr hpeer), if_neg (not_not.mpr hpeer)]
    cases Packet.fromBytes raw with
    | none => exact .inl ⟨rfl, .refl s⟩
    | some p =>
      dsimp only
      by_cases haccepts : s.accepts p = true
      · rw [if_neg (not_not.mpr haccepts), if_neg (not_not.mpr haccepts)]
        have hresend := @retransmitFrom_moves socket s p.retransmissionRequest
        by_cases hrequest : p.has flagRequestRetransmission = true
        · rw [if_pos hrequest]
          by_cases hraises : (s.retransmitFrom socket p.retransmissionRequest).1 = true
          · rw [if_pos ⟨hrequest, hraises⟩, if_pos hraises]
            exact .inl ⟨rfl, hresend⟩
          · rw [if_neg (fun h => hraises h.2), if_neg hraises]
            exact .inr ⟨p, _, rfl, hresend, rfl⟩
        · rw [if_neg (fun h => hrequest h.1), if_neg hrequest]
          exact .inr ⟨p, s, rfl, .refl s, rfl⟩
      · rw [if_pos haccepts, if_pos haccepts]
        exact .inl ⟨rfl, .refl s⟩
  · rw [if_pos hpeer, if_pos hpeer]
    exact .inl ⟨rfl, .refl s⟩

/-! ## Events besides drains -/

section GoesOn

variable {t u : Udp} {same new : Udp → Prop}

/-- The parts besides the inbound ones. -/
def outbound : List Part :=
  [.number, .note, .resend, .timer, .state, .reset, .thread, .queue, .take]

/-- The session has gone on since, or a new one has begun. -/
def GoesOnOrNew (same new : Udp → Prop) (s t : Udp) : Prop :=
  t.log.count .reset = s.log.count .reset ∧ same t ∨
    s.log.count .reset < t.log.count .reset ∧ new t

/-- A change begins a session, or goes on with it. -/
theorem Move.goesOn {part : Part} (h : Move part s t) :
    t.log.count .reset = s.log.count .reset ∨
      ∃ now, t = { s with threadAlive := true }.resetSession now := by
  have hnote : ∀ a : NetAct, a ≠ .reset →
      (a :: s.log).count NetAct.reset = s.log.count NetAct.reset := fun a ha =>
    List.count_cons_of_ne ha
  cases h with
  | number now ha => exact .inl (hnote _ ha)
  | note _ ha => exact .inl (hnote _ ha)
  | resent => exact .inl (hnote _ (by simp))
  | reset now => exact .inr ⟨now, rfl⟩
  | ack =>
    unfold onAck
    split
    · exact .inl rfl
    · exact .inl rfl
  | _ => exact .inl rfl

theorem count_resetSession (now : Time) (s : Udp) :
    ({ s with threadAlive := true }.resetSession now).log.count NetAct.reset =
      s.log.count NetAct.reset + 1 := List.count_cons_self

/-- What changes that go on keep, and what every new session begins with. -/
theorem goesOnOrNew_of_moves (h : Moves outbound s t) (hs : same s)
    (hkeep : ∀ part ∈ outbound, ∀ u v, Move part u v →
      v.log.count .reset = u.log.count .reset → (same u → same v) ∧ (new u → new v))
    (hreset : ∀ u now, same u ∨ new u → new ({ u with threadAlive := true }.resetSession now)) :
    GoesOnOrNew same new s t := by
  apply h.keep (P := GoesOnOrNew same new s) ?_ (.inl ⟨rfl, hs⟩)
  intro part hpart u v hm hu
  rcases hm.goesOn with hcount | ⟨now, rfl⟩
  · obtain ⟨hsame, hnew⟩ := hkeep part hpart u v hm hcount
    unfold GoesOnOrNew
    rw [hcount]
    exact hu.imp (And.imp_right hsame) (And.imp_right hnew)
  · refine .inr ⟨?_, hreset u now (hu.imp And.right And.right)⟩
    rw [count_resetSession]
    rcases hu with ⟨hcount, -⟩ | ⟨hcount, -⟩
    · omega
    · omega

theorem step_outbound {e : UdpEvent} (he : ∀ datagrams, e ≠ .drain datagrams) (aggressive : Bool) :
    Moves outbound s (s.step socket aggressive (now, e)) := by
  refine (step_parts socket now aggressive e).mono ?_
  cases e with
  | drain datagrams => exact absurd rfl (he datagrams)
  | _ => simp [UdpEvent.parts, outbound]

end GoesOn

end Udp

/-- The reliable packets among the items of the receive queue. -/
def reliableItems (items : List RecvItem) : List Packet :=
  items.filterMap fun
    | .packet p => if p.has flagReliable then some p else none
    | _ => none

/-- A transport, and of its session the packets let in, the reliable packets handed on, and how
far the ACK has moved since the first of them. -/
structure Session where
  udp : Udp
  heard : List Packet := []
  handed : List Packet := []
  acked : ℕ := 0

/-- What happens in a session: a datagram of a drain is heard, the ACK owed is sent, an exception
ends the thread, or another event than a drain. -/
inductive SessionEvent
  | datagram (fromPeer : Bool) (raw : Bytes)
  | flushAck
  | endThread
  | other (e : Udp.UdpEvent)

namespace Session

variable (socket : Socket) (aggressive : Bool)

/-- One event of a session. A handshake begins the record anew. -/
def step (s : Session) (a : Time × SessionEvent) : Session :=
  match a.2 with
  | .datagram fromPeer raw =>
    let t := (s.udp.hearOne socket a.1 fromPeer raw).2
    { udp := t
      heard := s.heard ++ (s.udp.letIn socket fromPeer raw).toList
      handed := s.handed ++
        reliableItems (t.threadRecvQueue.drop s.udp.threadRecvQueue.length)
      acked :=
        if s.udp.rxEstablished then s.acked + Udp.seqDist t.ackNumber s.udp.ackNumber else 0 }
  | .flushAck => { s with udp := (s.udp.flushAck socket a.1).2 }
  | .endThread => { s with udp := Udp.endThread (true, s.udp) }
  | .other e =>
    let t := s.udp.step socket aggressive (a.1, e)
    if t.log.count .reset = s.udp.log.count .reset then { s with udp := t } else { udp := t }

/-- Drains are taken datagram by datagram, and the thread does nothing once it has ended. -/
def Possible (s : Session) (a : Time × SessionEvent) : Prop :=
  match a.2 with
  | .other (.drain _) => False
  | .other e => s.udp.Possible (a.1, e)
  | _ => s.udp.threadAlive = true

instance Possible.decidable (s : Session) : (a : Time × SessionEvent) → Decidable (s.Possible a)
  | (_, .datagram _ _) | (_, .flushAck) | (_, .endThread) =>
    inferInstanceAs (Decidable (s.udp.threadAlive = true))
  | (_, .other (.drain _)) => inferInstanceAs (Decidable False)
  | (now, .other .silence) => inferInstanceAs (Decidable (s.udp.Possible (now, .silence)))
  | (now, .other .resendTick) => inferInstanceAs (Decidable (s.udp.Possible (now, .resendTick)))
  | (now, .other .takeQueued) => inferInstanceAs (Decidable (s.udp.Possible (now, .takeQueued)))
  | (_, .other .connect) | (_, .other .receiveTurn) | (_, .other (.sendPacket _))
  | (_, .other (.sendPacketLow _)) | (_, .other (.queuePacket _)) | (_, .other .drainQueue)
  | (_, .other .wakeup) | (_, .other .markNextConnected) | (_, .other .closeSession) =>
    inferInstanceAs (Decidable True)

/-- A fresh transport. -/
def Initial (s : Session) : Prop := ∃ now, s = { udp := .fresh now }

/-- The sessions whose every step meets `ok` besides being possible. -/
def ReachableWhen (ok : Session → Time × SessionEvent → Prop) : Session → Prop :=
  Reach Initial (step socket aggressive) fun s a => s.Possible a ∧ ok s a

/-- The sessions of all runs. -/
def Reachable : Session → Prop := ReachableWhen socket aggressive fun _ _ => True

/-! ## Drains -/

variable {socket aggressive} {now : Time}

theorem alive_of_moves {s t : Udp} (h : Udp.Moves [.resend, .hear, .ack, .receive, .note] s t)
    (hs : s.threadAlive = true) : t.threadAlive = true := by
  apply @Udp.Moves.keep _ s t (fun u => u.threadAlive = true) _ h hs
  intro part hpart u v hm hu
  cases hm with
  | reset => simp at hpart
  | thread => simp at hpart
  | ack =>
    unfold Udp.onAck
    split
    · exact hu
    · exact hu
  | _ => exact hu

theorem hearOne_moves (fromPeer : Bool) (raw : Bytes) (s : Udp) :
    Udp.Moves [.resend, .hear, .ack, .receive] s (s.hearOne socket now fromPeer raw).2 := by
  have hlow := @Udp.receivePacketLow_moves socket now s fromPeer raw
  unfold Udp.hearOne
  dsimp only
  split
  · exact hlow
  · exact hlow.trans ((Udp.handOn_moves _).mono (by decide))

/-- Reached from a session by its events. -/
abbrev Reaches (socket : Socket) (aggressive : Bool) : Session → Session → Prop :=
  Steps (step socket aggressive) fun s a => s.Possible a ∧ True

theorem Reaches.flushAck {s t : Session} (h : Reaches socket aggressive s t) (now : Time)
    (ht : t.udp.threadAlive = true) :
    Reaches socket aggressive s { t with udp := (t.udp.flushAck socket now).2 } :=
  @Steps.tail _ _ _ _ s t (now, SessionEvent.flushAck) h ⟨ht, trivial⟩

/-- The datagrams of a drain are heard one after the other. -/
theorem drainDatagrams_reaches (datagrams : List (Bool × Bytes)) {s t : Session}
    (h : Reaches socket aggressive s t) (ht : t.udp.threadAlive = true) :
    ∃ u, Reaches socket aggressive s u ∧
      u.udp = (t.udp.drainDatagrams socket now datagrams).2 := by
  induction datagrams generalizing t with
  | nil => exact ⟨t, h, rfl⟩
  | cons d rest ih =>
    have hheard : Reaches socket aggressive s
        (t.step socket aggressive (now, .datagram d.1 d.2)) := .tail h ⟨ht, trivial⟩
    have halive : (t.step socket aggressive (now, .datagram d.1 d.2)).udp.threadAlive = true :=
      alive_of_moves ((hearOne_moves d.1 d.2 t.udp).mono (by decide)) ht
    have hudp : (t.step socket aggressive (now, .datagram d.1 d.2)).udp =
        (t.udp.hearOne socket now d.1 d.2).2 := rfl
    generalize t.step socket aggressive (now, .datagram d.1 d.2) = v at hheard halive hudp
    unfold Udp.hearOne at hudp
    unfold Udp.drainDatagrams
    dsimp only at hudp ⊢
    by_cases hraises : (t.udp.receivePacketLow socket now d.1 d.2).1 = true
    · rw [if_pos hraises] at hudp ⊢
      exact ⟨v, hheard, hudp⟩
    · rw [if_neg hraises] at hudp ⊢
      dsimp only at hudp
      rw [← hudp]
      by_cases howed : v.udp.acksOwed ≥ ackEvery
      · have hflushed := hheard.flushAck now halive
        have halive' := alive_of_moves ((@Udp.flushAck_moves socket now v.udp).mono (by decide))
          halive
        rw [if_pos howed]
        split
        · exact ⟨_, hflushed, rfl⟩
        · exact ih hflushed halive'
      · rw [if_neg howed]
        exact ih hheard halive

theorem drain_reaches (datagrams : List (Bool × Bytes)) {s : Session}
    (hs : s.udp.threadAlive = true) :
    ∃ t, Reaches socket aggressive s t ∧
      t.udp = s.udp.step socket aggressive (now, .drain datagrams) := by
  obtain ⟨t, ht, hudp⟩ := @drainDatagrams_reaches socket aggressive now
    (datagrams.take drainMaxDatagrams) s s .refl hs
  have halive : t.udp.threadAlive = true := by
    rw [hudp]
    exact alive_of_moves (Udp.drainDatagrams_moves socket now _) hs
  have hflushed := ht.flushAck now halive
  have halive' := alive_of_moves ((@Udp.flushAck_moves socket now t.udp).mono (by decide)) halive
  have hstep : s.udp.step socket aggressive (now, .drain datagrams) =
      Udp.endThread ((s.udp.drainDatagrams socket now (datagrams.take drainMaxDatagrams)).1 ||
        (t.udp.flushAck socket now).1, (t.udp.flushAck socket now).2) := by
    rw [hudp]
    rfl
  rw [hstep]
  cases hends : (s.udp.drainDatagrams socket now (datagrams.take drainMaxDatagrams)).1 ||
      (t.udp.flushAck socket now).1 with
  | false => exact ⟨_, hflushed, rfl⟩
  | true =>
    have hended := @Steps.tail _ _ _ _ _ _ (now, SessionEvent.endThread) hflushed
      ⟨halive', trivial⟩
    exact ⟨_, hended, rfl⟩

/-- The transports of sessions are those that can be reached at all. -/
theorem session_of_reachable {u : Udp} (h : u.Reachable socket aggressive) :
    ∃ s : Session, s.Reachable socket aggressive ∧ s.udp = u := by
  induction h with
  | start hinit =>
    obtain ⟨now, rfl⟩ := hinit
    exact ⟨{ udp := .fresh now }, .start ⟨now, rfl⟩, rfl⟩
  | @next u a _ hok ih =>
    obtain ⟨s, hs, rfl⟩ := ih
    obtain ⟨now, e⟩ := a
    by_cases hdrain : ∃ datagrams, e = .drain datagrams
    · obtain ⟨datagrams, rfl⟩ := hdrain
      obtain ⟨t, ht, hudp⟩ := @drain_reaches socket aggressive now datagrams s hok.1
      exact ⟨t, hs.steps ht, hudp⟩
    · have hpossible : s.Possible (now, .other e) := by
        cases e with
        | drain datagrams => exact absurd ⟨datagrams, rfl⟩ hdrain
        | _ => exact hok.1
      refine ⟨s.step socket aggressive (now, .other e), .next hs ⟨hpossible, trivial⟩, ?_⟩
      simp only [step]
      split
      · rfl
      · rfl

end Session

end Bmdwire
