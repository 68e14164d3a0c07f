import Bmdwire.Analysis.Sequencing

/-!
# The resend timer

The number of reliable packets sent beyond the one that the last acknowledgement names is a
number of the session's packets, which the transport knows modulo `2 ^ 15` only. A `Watch`
reads it off the datagrams and the log, and `Timed` says what the deadline has to do with it.
Every move keeps it, but for an acknowledgement and a look at the deadline: `onAck_timed` and
`resendUnacked_timed` say when these do.
-/

set_option autoImplicit false

namespace Bmdwire

open Library (Dict Reach)

/-- How many sessions were begun. -/
def sessions : List NetAct → ℕ
  | [] => 0
  | .reset :: past => sessions past + 1
  | _ :: past => sessions past

theorem sessions_cons {a : NetAct} (ha : a ≠ .reset) (past : List NetAct) :
    sessions (a :: past) = sessions past := by
  cases a with
  | reset => exact absurd rfl ha
  | _ => rfl

namespace Udp

/-! ## The packet that an acknowledgement names -/

/-- How many reliable packets the session has sent. -/
def sentCount (s : Udp) : ℕ := (sessionSent s.log).length

/-- The place of the last packet sent with this number, counted from 1; 0 is before the first. -/
def placeOf (sent n : ℕ) : ℕ := sent - (sent + 0x8000 - n) % 0x8000

/-- The number is one of a packet sent, or the one before the first. -/
def WasSent (sent n : ℕ) : Prop := ∃ place ≤ sent, n = place % 0x8000

instance WasSent.decidable (sent n : ℕ) : Decidable (WasSent sent n) :=
  inferInstanceAs (Decidable (∃ place ≤ sent, n = place % 0x8000))

/-- The acknowledgement that a datagram brings, if `_receive_packet_low` comes to it. -/
def ackHeard (socket : Socket) (fromPeer : Bool) (raw : Bytes) (s : Udp) : Option ℕ :=
  if ¬ fromPeer then none
  else
    match Packet.fromBytes raw with
    | none => none
    | some p =>
      if ¬ s.accepts p then none
      else if p.has flagRequestRetransmission ∧
          (s.retransmitFrom socket p.retransmissionRequest).1 then none
      else if p.has flagAck then some p.acknowledgementNumber
      else none

/-- The acknowledgements that a drain hears, in order. -/
def acksHeard (socket : Socket) (now : Time) : List (Bool × Bytes) → Udp → List ℕ
  | [], _ => []
  | (fromPeer, raw) :: rest, s =>
    let r := s.receivePacketLow socket now fromPeer raw
    let after :=
      if r.1 then []
      else
        let s := r.2.2.handOn r.2.1
        let f := if s.acksOwed ≥ ackEvery then s.flushAck socket now else (false, s)
        if f.1 then [] else acksHeard socket now rest f.2
    (s.ackHeard socket fromPeer raw).toList ++ after

end Udp

open Udp

/-- A transport, and the place of the packet that the acknowledgement received last names, with
the session it was received in. -/
structure Watch where
  udp : Udp
  named : Option (ℕ × ℕ) := none

namespace Watch

/-- The packet that the last of some acknowledgements names, or the one named before. -/
def nameLast (session sent : ℕ) (named : Option (ℕ × ℕ)) (acks : List ℕ) : Option (ℕ × ℕ) :=
  acks.foldl (fun _ n => some (session, placeOf sent n)) named

/-- The acknowledgements that an event hears. -/
def acks (socket : Socket) (s : Udp) (a : Time × UdpEvent) : List ℕ :=
  match a.2 with
  | .drain datagrams => s.acksHeard socket a.1 (datagrams.take drainMaxDatagrams)
  | _ => []

/-- One event. -/
def step (socket : Socket) (aggressive : Bool) (w : Watch) (a : Time × UdpEvent) : Watch where
  udp := w.udp.step socket aggressive a
  named := nameLast (sessions w.udp.log) w.udp.sentCount w.named (acks socket w.udp a)

/-- The place named in this session, if one is. -/
def place? (w : Watch) : Option ℕ :=
  w.named.bind fun n => if n.1 = sessions w.udp.log then some n.2 else none

end Watch

namespace Udp

/-! ## What the deadline has to do with it -/

/-- The connection is established, or may become so. -/
def Live (s : Udp) : Prop := s.state = .synSent ∨ s.state = .established

/-- As the code counts the packets beyond the one named, the window holds them and there are
some. -/
def Within (beyond : ℕ) : Prop := 0 < beyond % 0x8000 ∧ beyond % 0x8000 < retransmitWindow

/-- The transport knows the number of the packet named in this session; it is armed while the
window holds what was sent beyond it, and not when nothing was. -/
structure Timed (named : Option (ℕ × ℕ)) (s : Udp) : Prop where
  old : ∀ n, named = some n → n.1 ≤ sessions s.log
  acked : ∀ n, s.ackedThrough = some n ↔
    ∃ place, named = some (sessions s.log, place) ∧ n = place % 0x8000
  sent : ∀ place, named = some (sessions s.log, place) → place ≤ s.sentCount
  armed : ∀ place, named = some (sessions s.log, place) → s.Live →
    Within (s.sentCount - place) → s.resendDue.isSome
  disarmed : ∀ place, named = some (sessions s.log, place) → s.Live →
    s.sentCount = place → s.resendDue = none

variable {named : Option (ℕ × ℕ)} {s t : Udp}

/-- A change that the timer does not look at. -/
theorem Timed.same (h : Timed named s) (hsession : sessions t.log = sessions s.log)
    (hsent : t.sentCount = s.sentCount) (hacked : t.ackedThrough = s.ackedThrough)
    (hdue : t.resendDue = s.resendDue) (hlive : t.Live → s.Live) : Timed named t := by
  refine ⟨?_, ?_, ?_, ?_, ?_⟩
  · rw [hsession]
    exact h.old
  · rw [hsession, hacked]
    exact h.acked
  · rw [hsession, hsent]
    exact h.sent
  · rw [hsession, hsent, hdue]
    exact fun place hplace hl => h.armed place hplace (hlive hl)
  · rw [hsession, hsent, hdue]
    exact fun place hplace hl => h.disarmed place hplace (hlive hl)

/-- Nothing is named in a session in which nothing was acknowledged. -/
theorem Timed.none_named (h : Timed named s) (hnone : s.ackedThrough = none) (place : ℕ) :
    named ≠ some (sessions s.log, place) := by
  intro hplace
  have hacked := (h.acked _).mpr ⟨place, hplace, rfl⟩
  rw [hnone] at hacked
  cases hacked

/-- In such a session there is nothing to show. -/
theorem Timed.of_none (hold : ∀ n, named = some n → n.1 ≤ sessions s.log)
    (hnone : s.ackedThrough = none) (hnamed : ∀ place, named ≠ some (sessions s.log, place)) :
    Timed named s := by
  refine ⟨hold, fun n => ?_, ?_, ?_, ?_⟩
  · rw [hnone]
    constructor
    · intro h
      cases h
    · rintro ⟨place, hplace, -⟩
      exact absurd hplace (hnamed place)
  · exact fun place hplace => absurd hplace (hnamed place)
  · exact fun place hplace => absurd hplace (hnamed place)
  · exact fun place hplace => absurd hplace (hnamed place)

/-- A packet more is sent, and the deadline is armed with it. -/
theorem Timed.buffer (h : Timed named s) {a : NetAct} {now : Time} {p : Packet} (ha : a ≠ .reset)
    (hnum : a.numbered? = some p) : Timed named ((s.note a).buffer now p) := by
  have hsession : sessions ((s.note a).buffer now p).log = sessions s.log := sessions_cons ha _
  have hsent : ((s.note a).buffer now p).sentCount = s.sentCount + 1 := by
    show (sessionSent (a :: s.log)).length = _
    rw [sessionSent_cons ha, hnum, List.length_append]
    rfl
  refine ⟨?_, ?_, ?_, ?_, ?_⟩
  · rw [hsession]
    exact h.old
  · rw [hsession]
    exact h.acked
  · rw [hsession, hsent]
    exact fun place hplace => (h.sent place hplace).trans (Nat.le_succ _)
  · intro place _ _ _
    unfold Udp.buffer
    dsimp only
    cases (s.note a).resendDue with
    | none => rfl
    | some due => rfl
  · rw [hsession, hsent]
    intro place hplace _ hlast
    have := h.sent place hplace
    omega

/-- Every move but of an acknowledgement and of the timer. -/
theorem Move.timed {part : Part} (hm : Move part s t) (hack : part ≠ .ack)
    (htimer : part ≠ .timer) (h : Timed named s) : Timed named t := by
  cases hm with
  | number now ha hnum => exact h.buffer ha hnum
  | @note _ a ha hnum =>
    refine h.same (sessions_cons ha _) ?_ rfl rfl id
    show (sessionSent (a :: s.log)).length = _
    rw [sessionSent_cons ha, hnum]
    simp [sentCount]
  | resent _ p =>
    refine h.same rfl ?_ rfl rfl id
    show (sessionSent (.resend p :: s.log)).length = _
    rw [sessionSent_cons (by simp)]
    simp [sentCount, NetAct.numbered?]
  | due => exact absurd rfl htimer
  | ack => exact absurd rfl hack
  | closed => exact h.same rfl rfl rfl rfl (by simp [Live])
  | synSent hclosed hnone => exact .of_none h.old hnone (h.none_named hnone)
  | established hsyn => exact h.same rfl rfl rfl rfl fun _ => .inl hsyn
  | reset now hclosed =>
    have hsession : sessions ({ s with threadAlive := true }.resetSession now).log =
        sessions s.log + 1 := rfl
    refine .of_none ?_ rfl ?_
    · rw [hsession]
      exact fun n hn => (h.old n hn).trans (Nat.le_succ _)
    · intro place hplace
      have hle := h.old _ hplace
      rw [hsession] at hle
      exact absurd hle (by simp)
  | _ => exact h.same rfl rfl rfl rfl id

theorem Moves.timed {parts : List Part} (hm : Moves parts s t) (hack : .ack ∉ parts)
    (htimer : .timer ∉ parts) (h : Timed named s) : Timed named t := by
  apply hm.keep (P := Timed named) ?_ h
  intro part hpart a b hab ha
  exact hab.timed (fun h => hack (h ▸ hpart)) (fun h => htimer (h ▸ hpart)) ha

/-! ## Acknowledgements -/

theorem placeOf_le (sent n : ℕ) : placeOf sent n ≤ sent := Nat.sub_le _ _

/-- What lies beyond the packet named, as the code counts it. -/
theorem WasSent.beyond {sent n : ℕ} (h : WasSent sent n) :
    placeOf sent n % 0x8000 = n ∧ sent - placeOf sent n = (sent + 0x8000 - n) % 0x8000 := by
  obtain ⟨place, hle, rfl⟩ := h
  unfold placeOf
  omega

/-- The last number given to a packet, and how many packets were. -/
theorem Numbering.seqDist_eq (h : Numbering s (sessionSent s.log)) {n : ℕ}
    (hn : WasSent s.sentCount n) (hpos : 0 < s.sentCount) :
    seqDist s.localSequenceNumber n = (s.sentCount + 0x8000 - n) % 0x8000 := by
  have hlast : s.localSequenceNumber = s.sentCount % 0x8000 := by
    apply h.last.resolve_left
    intro hnone
    have hzero : s.sentCount = 0 := by
      unfold sentCount
      rw [hnone.2]
      rfl
    omega
  obtain ⟨place, -, rfl⟩ := hn
  rw [hlast]
  unfold seqDist
  omega

/-- An acknowledgement names its packet. Only one with the number of the last must not name the
newest packet while the last named another. -/
theorem onAck_timed (h : Timed named s) (hnumbers : Numbering s (sessionSent s.log)) {now : Time}
    {n : ℕ} (hn : WasSent s.sentCount n)
    (hrepeat : ∀ place, named = some (sessions s.log, place) → n = place % 0x8000 →
      placeOf s.sentCount n = s.sentCount → place ≠ s.sentCount → s.resendDue = none) :
    Timed (some (sessions s.log, placeOf s.sentCount n)) (s.onAck now n) := by
  obtain ⟨hnumber, hbeyond⟩ := hn.beyond
  unfold onAck
  split
  · rename_i hsame
    obtain ⟨place, hplace, hmod⟩ := (h.acked n).mp hsame
    have hle := h.sent place hplace
    refine ⟨?_, ?_, ?_, ?_, ?_⟩
    · rintro _ ⟨⟩
      exact le_rfl
    · intro m
      rw [hsame]
      constructor
      · rintro ⟨⟩
        exact ⟨_, rfl, hnumber.symm⟩
      · rintro ⟨_, ⟨⟩, rfl⟩
        rw [hnumber]
    · rintro _ ⟨⟩
      exact placeOf_le _ _
    · rintro _ ⟨⟩ hlive hwithin
      apply h.armed place hplace hlive
      unfold Within at hwithin ⊢
      omega
    · rintro _ ⟨⟩ hlive hlast
      by_cases hnewest : place = s.sentCount
      · exact h.disarmed place hplace hlive hnewest.symm
      · exact hrepeat place hplace hmod hlast.symm hnewest
  · refine ⟨?_, ?_, ?_, ?_, ?_⟩
    · rintro _ ⟨⟩
      exact le_rfl
    · intro m
      constructor
      · rintro ⟨⟩
        exact ⟨_, rfl, hnumber.symm⟩
      · rintro ⟨_, ⟨⟩, rfl⟩
        exact congrArg some hnumber.symm
    · rintro _ ⟨⟩
      exact placeOf_le _ _
    · rintro _ ⟨⟩ _ hwithin
      show (if _ then none else some (now + resendAfter)).isSome = true
      have hwithin : Within (s.sentCount - placeOf s.sentCount n) := hwithin
      have hpos : 0 < s.sentCount := by
        unfold Within at hwithin
        omega
      rw [hnumbers.seqDist_eq hn hpos, if_neg]
      · rfl
      · unfold Within at hwithin
        unfold retransmitWindow at *
        omega
    · rintro _ ⟨⟩ _ hlast
      show (if _ then none else some (now + resendAfter)) = none
      have hlast : s.sentCount = placeOf s.sentCount n := hlast
      rw [if_pos]
      by_cases hpos : 0 < s.sentCount
      · rw [hnumbers.seqDist_eq hn hpos]
        omega
      · obtain ⟨place, hle, hplace⟩ := hn
        rcases hnumbers.last with ⟨hlast, -⟩ | hlast
        · rw [hlast, hplace]
          unfold seqDist retransmitWindow
          omega
        · have hzero : (sessionSent s.log).length = 0 := by
            unfold sentCount at hpos
            omega
          rw [hlast, hzero, hplace]
          unfold seqDist retransmitWindow
          omega

/-! ## A drain -/

/-- Nothing was sent, no session begun, and the deadline let alone. -/
structure Still (s t : Udp) : Prop where
  session : sessions t.log = sessions s.log
  sent : t.sentCount = s.sentCount
  due : t.resendDue = s.resendDue

theorem Still.trans {u : Udp} (h : Still s t) (h' : Still t u) : Still s u :=
  ⟨h'.session.trans h.session, h'.sent.trans h.sent, h'.due.trans h.due⟩

theorem Moves.still (h : Moves [.resend, .hear, .receive, .note] s t) : Still s t := by
  apply h.keep (P := Still s) ?_ ⟨rfl, rfl, rfl⟩
  intro part hpart a b hm ha
  refine ha.trans ?_
  cases hm with
  | @note _ c hc hnum =>
    refine ⟨sessions_cons hc _, ?_, rfl⟩
    show (sessionSent (c :: a.log)).length = _
    rw [sessionSent_cons hc, hnum]
    simp [sentCount]
  | resent _ p =>
    refine ⟨rfl, ?_, rfl⟩
    show (sessionSent (.resend p :: a.log)).length = _
    rw [sessionSent_cons (by simp)]
    simp [sentCount, NetAct.numbered?]
  | called => exact ⟨rfl, rfl, rfl⟩
  | forget => exact ⟨rfl, rfl, rfl⟩
  | mark => exact ⟨rfl, rfl, rfl⟩
  | hear => exact ⟨rfl, rfl, rfl⟩
  | receive => exact ⟨rfl, rfl, rfl⟩
  | _ => simp at hpart

/-- The numbers and the buffer stay in order. -/
theorem Moves.numbering {parts : List Part} (hm : Moves parts s t)
    (h : Numbering s (sessionSent s.log)) : Numbering t (sessionSent t.log) := by
  apply hm.keep (P := fun u => Numbering u (sessionSent u.log)) ?_ h
  intro part _ a b hab ha
  exact hab.sendMoves.keep (fun _ _ hmove h => hmove.numbering h) ha

section Drain

variable {socket : Socket} {now : Time}

/-- A packet heard without an acknowledgement, -/
theorem hear_silent {p : Packet} (hack : p.has flagAck = false) :
    Moves [.hear] s (s.hear now p) := by
  unfold hear
  rw [hack, if_neg (by simp)]
  exact (Move.hear s now p).moves (by decide)

/-- and one with an acknowledgement. -/
theorem hear_ack {p : Packet} (hack : p.has flagAck = true) :
    ∃ t, Moves [.hear] s t ∧ s.hear now p = t.onAck now p.acknowledgementNumber := by
  unfold hear
  rw [hack, if_pos rfl]
  exact ⟨_, (Move.hear s now p).moves (by decide), rfl⟩

/-- A datagram that brings no acknowledgement. -/
theorem receivePacketLow_silent {fromPeer : Bool} {raw : Bytes}
    (h : s.ackHeard socket fromPeer raw = none) :
    Moves [.resend, .hear, .receive] s (s.receivePacketLow socket now fromPeer raw).2.2 := by
  unfold ackHeard at h
  unfold receivePacketLow
  split
  · exact .refl s
  · rename_i hpeer
    rw [if_neg hpeer] at h
    split
    · exact .refl s
    · rename_i p hp
      simp only [hp] at h
      split
      · exact .refl s
      · rename_i haccepts
        rw [if_neg haccepts] at h
        have hheard : ∀ t : Udp, p.has flagAck = false →
            Moves [.resend, .hear, .receive] t (t.receiveHeard now p).2 := fun t hack =>
          ((hear_silent hack).mono (by decide)).trans ((heard_moves now p).mono (by decide))
        split
        · rename_i hrequest
          refine ((retransmitFrom_moves socket p.retransmissionRequest).mono (by decide)).trans ?_
          dsimp only
          split
          · exact .refl _
          · rename_i hraise
            rw [if_neg (by simp [hrequest, hraise])] at h
            apply hheard
            simpa using h
        · rename_i hrequest
          rw [if_neg (by simp [hrequest])] at h
          apply hheard
          simpa using h

/-- A datagram that brings an acknowledgement. -/
theorem receivePacketLow_ack {fromPeer : Bool} {raw : Bytes} {n : ℕ}
    (h : s.ackHeard socket fromPeer raw = some n) :
    ∃ t, Moves [.resend, .hear] s t ∧
      Moves [.receive] (t.onAck now n) (s.receivePacketLow socket now fromPeer raw).2.2 := by
  unfold ackHeard at h
  unfold receivePacketLow
  split
  · rename_i hpeer
    rw [if_pos hpeer] at h
    cases h
  · rename_i hpeer
    rw [if_neg hpeer] at h
    split
    · rename_i hp
      simp only [hp] at h
      cases h
    · rename_i p hp
      simp only [hp] at h
      split
      · rename_i haccepts
        rw [if_pos haccepts] at h
        cases h
      · rename_i haccepts
        rw [if_neg haccepts] at h
        have hheard : ∀ u : Udp, p.has flagAck = true → p.acknowledgementNumber = n →
            ∃ t, Moves [.resend, .hear] u t ∧
              Moves [.receive] (t.onAck now n) (u.receiveHeard now p).2 := by
          intro u hack hn
          obtain ⟨t, ht, heq⟩ := @hear_ack u now p hack
          have hreceive := @heard_moves now u p
          rw [heq, hn] at hreceive
          exact ⟨t, ht.mono (by decide), hreceive⟩
        split
        · rename_i hrequest
          dsimp only
          split
          · rename_i hraise
            rw [if_pos ⟨hrequest, hraise⟩] at h
            cases h
          · rename_i hraise
            rw [if_neg (by simp [hraise])] at h
            split at h
            · rename_i hack
              obtain ⟨t, ht, hreceive⟩ := hheard
                (s.retransmitFrom socket p.retransmissionRequest).2 hack (Option.some.inj h)
              have hresend := @retransmitFrom_moves socket s p.retransmissionRequest
              exact ⟨t, (hresend.mono (by decide)).trans ht, hreceive⟩
            · cases h
        · rename_i hrequest
          rw [if_neg (by simp [hrequest])] at h
          split at h
          · rename_i hack
            exact hheard s hack (Option.some.inj h)
          · cases h

/-- The number of the last acknowledgement may come again, unless it names the newest packet, the
last one named another, and the deadline is armed. -/
def RepeatOk (named : Option (ℕ × ℕ)) (s : Udp) (n : ℕ) : Prop :=
  ∀ place, named = some (sessions s.log, place) → n = place % 0x8000 →
    placeOf s.sentCount n = s.sentCount → place ≠ s.sentCount → s.resendDue = none

/-- An acknowledgement just heard may come again. -/
theorem RepeatOk.again {n m : ℕ} (hn : WasSent s.sentCount n) :
    RepeatOk (some (sessions s.log, placeOf s.sentCount n)) s m := by
  rintro _ ⟨⟩ hm hnewest hne
  rw [hn.beyond.1] at hm
  subst hm
  exact absurd hnewest hne

theorem RepeatOk.still {n : ℕ} (h : RepeatOk named s n) (hstill : Still s t) :
    RepeatOk named t n := by
  unfold RepeatOk
  rw [hstill.session, hstill.sent, hstill.due]
  exact h

/-- What one datagram does to the timer. -/
theorem receivePacketLow_timed {fromPeer : Bool} {raw : Bytes} (h : Timed named s)
    (hnumbers : Numbering s (sessionSent s.log))
    (hsent : ∀ n ∈ s.ackHeard socket fromPeer raw, WasSent s.sentCount n)
    (hrepeat : ∀ n ∈ s.ackHeard socket fromPeer raw, RepeatOk named s n) :
    Timed (Watch.nameLast (sessions s.log) s.sentCount named
        (s.ackHeard socket fromPeer raw).toList)
        (s.receivePacketLow socket now fromPeer raw).2.2 ∧
      sessions (s.receivePacketLow socket now fromPeer raw).2.2.log = sessions s.log ∧
      (s.receivePacketLow socket now fromPeer raw).2.2.sentCount = s.sentCount ∧
      ∀ m, (s.ackHeard socket fromPeer raw = none → RepeatOk named s m) →
        RepeatOk (Watch.nameLast (sessions s.log) s.sentCount named
          (s.ackHeard socket fromPeer raw).toList)
          (s.receivePacketLow socket now fromPeer raw).2.2 m := by
  cases hheard : s.ackHeard socket fromPeer raw with
  | none =>
    have hmoves := @receivePacketLow_silent s socket now fromPeer raw hheard
    have hstill := (hmoves.mono (by decide)).still
    exact ⟨hmoves.timed (by decide) (by decide) h, hstill.session, hstill.sent,
      fun m hm => (hm rfl).still hstill⟩
  | some n =>
    obtain ⟨t, hbefore, hafter⟩ := @receivePacketLow_ack s socket now fromPeer raw n hheard
    have hstill := (hbefore.mono (by decide)).still
    have hstill' := (hafter.mono (by decide)).still
    have hack : sessions (t.onAck now n).log = sessions t.log ∧
        (t.onAck now n).sentCount = t.sentCount := by
      unfold onAck
      split
      · exact ⟨rfl, rfl⟩
      · exact ⟨rfl, rfl⟩
    have hn : WasSent t.sentCount n := by
      rw [hstill.sent]
      exact hsent n hheard
    have htimed : Timed (some (sessions t.log, placeOf t.sentCount n)) (t.onAck now n) :=
      onAck_timed (hbefore.timed (by decide) (by decide) h) (hbefore.numbering hnumbers) hn
        ((hrepeat n hheard).still hstill)
    have hsession := (hstill'.session.trans hack.1).trans hstill.session
    have hcount := (hstill'.sent.trans hack.2).trans hstill.sent
    rw [hstill.session, hstill.sent] at htimed
    refine ⟨hafter.timed (by decide) (by decide) htimed, hsession, hcount, fun m _ => ?_⟩
    show RepeatOk (some (sessions s.log, placeOf s.sentCount n)) _ m
    rw [← hsession, ← hcount]
    apply RepeatOk.again
    rw [hcount]
    exact hsent n hheard

theorem nameLast_append (session sent : ℕ) (named : Option (ℕ × ℕ)) (acks more : List ℕ) :
    Watch.nameLast session sent named (acks ++ more) =
      Watch.nameLast session sent (Watch.nameLast session sent named acks) more :=
  List.foldl_append

/-- A drain names the packet of the last acknowledgement it hears. -/
theorem drainDatagrams_timed (datagrams : List (Bool × Bytes)) (h : Timed named s)
    (hnumbers : Numbering s (sessionSent s.log))
    (hsent : ∀ n ∈ s.acksHeard socket now datagrams, WasSent s.sentCount n)
    (hrepeat : ∀ n ∈ (s.acksHeard socket now datagrams).head?, RepeatOk named s n) :
    Timed (Watch.nameLast (sessions s.log) s.sentCount named
      (s.acksHeard socket now datagrams)) (s.drainDatagrams socket now datagrams).2 := by
  induction datagrams generalizing s named with
  | nil => exact h
  | cons d rest ih =>
    obtain ⟨fromPeer, raw⟩ := d
    unfold acksHeard at hsent hrepeat ⊢
    unfold drainDatagrams
    dsimp only at hsent hrepeat ⊢
    obtain ⟨htimed, hsession, hcount, hagain⟩ := @receivePacketLow_timed named s socket now
      fromPeer raw h hnumbers
      (fun n hn => hsent n (List.mem_append_left _ (Option.mem_toList.mpr hn)))
      (fun n hn => hrepeat n (by rw [Option.mem_def.mp hn]; rfl))
    have hnumbers' := (@receivePacketLow_moves socket now s fromPeer raw).numbering hnumbers
    rw [nameLast_append]
    by_cases hraise : (s.receivePacketLow socket now fromPeer raw).1 = true
    · rw [if_pos hraise, if_pos hraise]
      exact htimed
    · rw [if_neg hraise] at hsent hrepeat ⊢
      rw [if_neg hraise]
      have hon := @handOn_moves (s.receivePacketLow socket now fromPeer raw).2.2
        (s.receivePacketLow socket now fromPeer raw).2.1
      obtain ⟨u, hu⟩ : ∃ u, (s.receivePacketLow socket now fromPeer raw).2.2.handOn
        (s.receivePacketLow socket now fromPeer raw).2.1 = u := ⟨_, rfl⟩
      rw [hu] at hsent hrepeat hon ⊢
      obtain ⟨f, hf⟩ : ∃ f, (if u.acksOwed ≥ ackEvery then u.flushAck socket now
        else (false, u)) = f := ⟨_, rfl⟩
      rw [hf] at hsent hrepeat ⊢
      have hflush : Moves [.receive, .note] u f.2 := by
        rw [← hf]
        split
        · exact flushAck_moves socket now
        · exact .refl u
      have hmoves := (hon.mono (by decide : [Part.receive] ⊆ [.receive, .note])).trans hflush
      have hstill := (hmoves.mono (by decide)).still
      have htimed' := hmoves.timed (by decide) (by decide) htimed
      by_cases hstop : f.1 = true
      · rw [if_pos hstop, if_pos hstop]
        exact htimed'
      · rw [if_neg hstop] at hsent hrepeat ⊢
        rw [if_neg hstop]
        have hsession' := hstill.session.trans hsession
        have hcount' := hstill.sent.trans hcount
        rw [← hsession', ← hcount'] at htimed' ⊢
        refine ih htimed' (hmoves.numbering hnumbers') ?_ ?_
        · intro n hn
          rw [hcount']
          exact hsent n (List.mem_append_right _ hn)
        · intro n hn
          rw [hsession', hcount']
          refine (hagain n fun hnone => hrepeat n ?_).still hstill
          rw [hnone]
          exact hn

/-- A whole drain. -/
theorem drainSocket_timed (datagrams : List (Bool × Bytes)) (h : Timed named s)
    (hnumbers : Numbering s (sessionSent s.log))
    (hsent : ∀ n ∈ s.acksHeard socket now (datagrams.take drainMaxDatagrams),
      WasSent s.sentCount n)
    (hrepeat : ∀ n ∈ (s.acksHeard socket now (datagrams.take drainMaxDatagrams)).head?,
      RepeatOk named s n) :
    Timed (Watch.nameLast (sessions s.log) s.sentCount named
      (s.acksHeard socket now (datagrams.take drainMaxDatagrams)))
      (endThread (s.drainSocket socket now datagrams)) := by
  have hdrained := drainDatagrams_timed (datagrams.take drainMaxDatagrams) h hnumbers hsent hrepeat
  have hflushed : Moves [.receive, .note] _ (s.drainSocket socket now datagrams).2 :=
    flushAck_moves socket now
  exact (endThread_moves _).timed (by decide) (by decide)
    (hflushed.timed (by decide) (by decide) hdrained)

end Drain

/-! ## The deadline -/

/-- A resend leaves the state alone, and what is acknowledged. -/
theorem resend_keeps (h : Moves [.resend] s t) :
    t.state = s.state ∧ t.ackedThrough = s.ackedThrough := by
  apply h.keep (P := fun u => u.state = s.state ∧ u.ackedThrough = s.ackedThrough) ?_ ⟨rfl, rfl⟩
  rintro part hpart a b hm ⟨hstate, hacked⟩
  cases hm with
  | called => exact ⟨hstate, hacked⟩
  | mark => exact ⟨hstate, hacked⟩
  | resent => exact ⟨hstate, hacked⟩
  | _ => simp at hpart

/-- The packets buffered under `count` numbers from `seq` on serialise when marked as resent. -/
def Serialise (s : Udp) (seq count : ℕ) : Prop :=
  ∀ k < count, ∀ p, s.retransmissionBuffer.get? ((seq + k) % 0x8000) = some p →
    p.retransmitted.toBytes ≠ none

/-- If they do, nothing is raised. -/
theorem resendFrom_serialise {socket : Socket} {count seq : ℕ} (hseq : seq < 0x8000)
    (h : s.Serialise seq count) : (s.resendFrom socket count seq).1 = false := by
  induction count generalizing seq s with
  | zero => rfl
  | succ count ih =>
    have hnext : ∀ t : Udp, (∀ n, t.retransmissionBuffer.get? n =
          s.retransmissionBuffer.get? n ∨ ∃ p, s.retransmissionBuffer.get? n = some p ∧
            t.retransmissionBuffer.get? n = some p.retransmitted) →
        t.Serialise ((seq + 1) % 0x8000) count := by
      intro t ht k hk p hp
      have hplace : ((seq + 1) % 0x8000 + k) % 0x8000 = (seq + (k + 1)) % 0x8000 := by omega
      rw [hplace] at hp
      rcases ht ((seq + (k + 1)) % 0x8000) with hsame | ⟨q, hq, hmarked⟩
      · rw [hsame] at hp
        exact h (k + 1) (by omega) p hp
      · rw [hmarked] at hp
        cases hp
        rw [q.retransmitted_retransmitted]
        exact h (k + 1) (by omega) q hq
    unfold resendFrom
    split
    · exact ih (by omega) (hnext s fun n => .inl rfl)
    · rename_i p hp
      have hbytes : p.retransmitted.toBytes ≠ none := by
        apply h 0 (by omega) p
        rwa [Nat.add_zero, Nat.mod_eq_of_lt hseq]
      dsimp only
      split
      · rename_i hnone
        exact absurd hnone hbytes
      · split
        · apply ih (by omega) (hnext _ fun n => ?_)
          by_cases hn : n = seq
          · subst hn
            refine .inr ⟨p, hp, ?_⟩
            exact if_pos rfl
          · exact .inl (if_neg hn)
        · rfl

/-- A look at a deadline that is past, with packets to resend, comes in an established connection,
and they all serialise. -/
def ExpiryOk (named : Option (ℕ × ℕ)) (s : Udp) (now : Time) : Prop :=
  ∀ place due, named = some (sessions s.log, place) → s.resendDue = some due → due ≤ now →
    Within (s.sentCount - place) → s.state ≠ .synSent ∧ (s.state = .established →
      s.Serialise ((place + 1) % 0x8000)
        (min ((s.sentCount - place) % 0x8000) retransmitMaxBurst))

/-- What is beyond the packet named, as `_resend_unacked` computes it. -/
theorem Timed.outstanding (h : Timed named s) (hnumbers : Numbering s (sessionSent s.log))
    {place : ℕ} (hplace : named = some (sessions s.log, place)) :
    (seqDist s.localSequenceNumber (place % 0x8000) ≠ 0 ∧
      seqDist s.localSequenceNumber (place % 0x8000) < retransmitWindow ↔
      Within (s.sentCount - place)) ∧
    (Within (s.sentCount - place) → seqDist s.localSequenceNumber (place % 0x8000) =
      (s.sentCount - place) % 0x8000) := by
  have hle := h.sent place hplace
  by_cases hpos : 0 < s.sentCount
  · rw [hnumbers.seqDist_eq ⟨place, hle, rfl⟩ hpos]
    unfold Within retransmitWindow
    omega
  · have hzero : (sessionSent s.log).length = 0 := by
      unfold sentCount at hpos
      omega
    have hcount : s.sentCount = 0 := hzero
    have hplace0 : place = 0 := by omega
    have hfar : seqDist s.localSequenceNumber (place % 0x8000) = 0 ∨
        retransmitWindow ≤ seqDist s.localSequenceNumber (place % 0x8000) := by
      subst hplace0
      unfold seqDist retransmitWindow
      rcases hnumbers.last with ⟨hlast, -⟩ | hlast
      · rw [hlast]
        omega
      · rw [hlast, hzero]
        omega
    unfold Within
    rw [hcount]
    omega

/-- What `_resend_unacked` starts from. -/
theorem unacked?_some {first : ℕ} (h : s.unacked? = some first) :
    ∃ acked, s.ackedThrough = some acked ∧ s.state = .established ∧
      (seqDist s.localSequenceNumber acked ≠ 0 ∧
        seqDist s.localSequenceNumber acked < retransmitWindow) ∧
      first = (acked + 1) % 0x8000 := by
  unfold unacked? at h
  split at h
  · cases h
  · rename_i acked hacked
    dsimp only at h
    split at h
    · rename_i hcond
      exact ⟨acked, hacked, hcond.1, hcond.2, (Option.some.inj h).symm⟩
    · cases h

/-- The resend after the packet named raises nothing if the packets serialise. -/
theorem retransmitFrom_serialise {socket : Socket} {place beyond : ℕ}
    (hdist : seqDist s.localSequenceNumber (place % 0x8000) = beyond) (hpos : beyond ≠ 0)
    (hwindow : beyond < retransmitWindow)
    (h : s.Serialise ((place + 1) % 0x8000) (min beyond retransmitMaxBurst)) :
    (s.retransmitFrom socket ((place + 1) % 0x8000)).1 = false := by
  have hspan : seqDist s.localSequenceNumber ((place + 1) % 0x8000) + 1 = beyond := by
    unfold seqDist retransmitWindow at *
    omega
  unfold retransmitFrom
  dsimp only
  rw [if_neg (by omega), hspan, Nat.mod_mod]
  exact resendFrom_serialise (Nat.mod_lt _ (by decide)) h

/-- A look at the deadline. -/
theorem resendUnacked_timed {socket : Socket} {now : Time} (h : Timed named s)
    (hnumbers : Numbering s (sessionSent s.log)) (hok : ExpiryOk named s now) :
    Timed named (s.resendUnacked socket now).2 := by
  unfold resendUnacked
  split
  · exact h
  · rename_i due hdue
    split
    · exact h
    · rename_i hpast
      have hpast : due ≤ now := Nat.le_of_not_lt hpast
      dsimp only
      split
      · rename_i hnone
        -- nothing to resend: in an established connection nothing is beyond the packet named
        refine ⟨h.old, h.acked, h.sent, fun place hplace hlive hwithin => ?_, fun _ _ _ _ => rfl⟩
        have hacked : s.ackedThrough = some (place % 0x8000) :=
          (h.acked _).mpr ⟨place, hplace, rfl⟩
        have hrange := ((h.outstanding hnumbers hplace).1).mpr hwithin
        obtain ⟨hsyn, -⟩ := hok place due hplace hdue hpast hwithin
        have hup : s.state = .established := hlive.resolve_left hsyn
        unfold unacked? at hnone
        simp only [hacked] at hnone
        rw [if_pos ⟨hup, hrange⟩] at hnone
        cases hnone
      · rename_i first hfirst
        obtain ⟨acked, hacked, hup, hrange, rfl⟩ := unacked?_some hfirst
        obtain ⟨place, hplace, rfl⟩ := (h.acked acked).mp hacked
        have hwithin := ((h.outstanding hnumbers hplace).1).mp hrange
        have hdist := (h.outstanding hnumbers hplace).2 hwithin
        have hserialise := (hok place due hplace hdue hpast hwithin).2 hup
        have hfirst : (place % 0x8000 + 1) % 0x8000 = (place + 1) % 0x8000 := by omega
        rw [hfirst]
        obtain ⟨r, hr⟩ : ∃ r, { s with resendDue := none }.retransmitFrom socket
          ((place + 1) % 0x8000) = r := ⟨_, rfl⟩
        have hraise : r.1 = false := by
          rw [← hr]
          exact retransmitFrom_serialise hdist hwithin.1.ne' hwithin.2 hserialise
        have hmoves := @retransmitFrom_moves socket { s with resendDue := none }
          ((place + 1) % 0x8000)
        rw [hr] at hmoves ⊢
        rw [hraise, if_neg (by simp)]
        obtain ⟨hstate, hsame⟩ := resend_keeps hmoves
        have hstill := (hmoves.mono (by decide)).still
        have harmed : Timed named { s with resendDue := some (now + resendAfter) } := by
          refine ⟨h.old, h.acked, h.sent, fun _ _ _ _ => rfl, fun other hother _ hlast => ?_⟩
          have heq : other = place := by
            rw [hplace] at hother
            exact (Prod.mk.inj (Option.some.inj hother)).2.symm
          have hlast : s.sentCount = place := hlast.trans heq
          have hpos := hwithin.1
          omega
        exact harmed.same hstill.session hstill.sent hsame rfl
          (by unfold Live; rw [hstate]; exact id)

end Udp

namespace Watch

open Udp

/-! ## Every run -/

/-- An acknowledgement is of a number sent in the session, or of the one before the first. -/
def AcksSent (socket : Socket) (w : Watch) (a : Time × UdpEvent) : Prop :=
  w.udp.Possible a ∧ ∀ n ∈ acks socket w.udp a, WasSent w.udp.sentCount n

instance AcksSent.decidable (socket : Socket) (w : Watch) (a : Time × UdpEvent) :
    Decidable (AcksSent socket w a) :=
  inferInstanceAs (Decidable
    (w.udp.Possible a ∧ ∀ n ∈ acks socket w.udp a, WasSent w.udp.sentCount n))

/-- What a look at the deadline and a repeated acknowledgement must not come to. -/
def Ok (socket : Socket) (w : Watch) (a : Time × UdpEvent) : Prop :=
  AcksSent socket w a ∧
    (a.2 = .resendTick → ExpiryOk w.named w.udp a.1) ∧
    ∀ n ∈ (acks socket w.udp a).head?, RepeatOk w.named w.udp n

/-- A fresh transport. -/
def Begins (w : Watch) : Prop := ∃ now, w = { udp := fresh now }

/-- The deadline is armed while the number of reliable packets sent beyond the one named is
between 1 and 4095, and disarmed when it is 0, in an established connection. -/
def ArmedRight (w : Watch) : Prop :=
  w.udp.state = .established → ∀ place, w.named = some (sessions w.udp.log, place) →
    (1 ≤ w.udp.sentCount - place → w.udp.sentCount - place < retransmitWindow →
      w.udp.resendDue.isSome) ∧
    (w.udp.sentCount - place = 0 → w.udp.resendDue = none)

section Runs

variable {socket : Socket} {aggressive : Bool} {w : Watch}

/-- One event. -/
theorem step_timed (a : Time × UdpEvent) (h : Timed w.named w.udp)
    (hnumbers : Numbering w.udp (sessionSent w.udp.log)) (hok : Ok socket w a) :
    Timed (w.step socket aggressive a).named (w.step socket aggressive a).udp := by
  obtain ⟨⟨-, hsent⟩, hexpiry, hrepeat⟩ := hok
  obtain ⟨now, e⟩ := a
  have hparts := @step_parts socket now w.udp aggressive e
  cases e with
  | drain datagrams => exact drainSocket_timed datagrams h hnumbers hsent hrepeat
  | resendTick =>
    have htimed := @resendUnacked_timed _ _ socket _ h hnumbers (hexpiry rfl)
    exact (endThread_moves _).timed (by decide) (by decide) htimed
  | _ => exact hparts.timed (by simp [UdpEvent.parts]) (by simp [UdpEvent.parts]) h

/-- In every run whose events are all such, the deadline is armed when it has to be. -/
theorem deadline_armed (h : Reach Begins (step socket aggressive) (Ok socket) w) :
    ArmedRight w := by
  have hinv : Timed w.named w.udp ∧ Numbering w.udp (sessionSent w.udp.log) := by
    apply h.invariant (P := fun w => Timed w.named w.udp ∧
      Numbering w.udp (sessionSent w.udp.log))
    · rintro w ⟨now, rfl⟩
      refine ⟨.of_none (by simp) rfl (by simp), ?_⟩
      exact @numbered_reachable socket aggressive _ (.start ⟨now, rfl⟩)
    · rintro w a - ⟨htimed, hnumbers⟩ hok
      exact ⟨step_timed a htimed hnumbers hok, (step_parts _ _ _ _).numbering hnumbers⟩
  obtain ⟨htimed, -⟩ := hinv
  intro hup place hplace
  have hle := htimed.sent place hplace
  refine ⟨fun hpos hlt => htimed.armed place hplace (.inr hup) ?_, fun hnone =>
    htimed.disarmed place hplace (.inr hup) (by omega)⟩
  unfold Within retransmitWindow at *
  omega

end Runs

/-! ## A deadline that passes before the connection is established -/

/-- A socket that takes every datagram. -/
def allSent : Socket := fun _ => .sent 0

/-- The switcher's answer to a SYN, with these flags besides, and an acknowledgement. -/
def synReply (flags acked : ℕ) : Bytes :=
  (Packet.toBytes { flags := flagSyn ||| flags, session := some handshakeSession,
                    acknowledgementNumber := acked, data := some [2, 0, 0, 0, 0, 0, 0, 0] }).getD []

/-- The first packet of the switcher's session, and an acknowledgement in it. -/
def fromSwitcher (flags acked : ℕ) : Bytes :=
  (Packet.toBytes { flags := flags, session := some 0x8001, sequenceNumber := 1,
                    acknowledgementNumber := acked }).getD []

/-- Two packets sent. -/
def twoCommands : List (Time × UdpEvent) :=
  [(0, .sendPacket (commandPacket 1)), (0, .takeQueued), (0, .sendPacket (commandPacket 2)),
    (0, .takeQueued)]

/-- Both are sent while our SYN is out, and the answer to it acknowledges the first. The deadline
passes before the answer is looked at. -/
def earlyExpiry : Watch :=
  Library.run (step allSent false) { udp := fresh 0 }
    ([(0, .connect), (0, .takeQueued)] ++ twoCommands ++
      [(0, .drain [(true, synReply flagAck 1)]), (resendAfter, .resendTick),
        (resendAfter, .receiveTurn)])

theorem early_expiry_disarms :
    Reach Begins (step allSent false) (AcksSent allSent) earlyExpiry ∧
      ¬ ArmedRight earlyExpiry := by
  have hstart : Reach Begins (step allSent false) (AcksSent allSent) { udp := fresh 0 } :=
    .start ⟨0, rfl⟩
  refine ⟨hstart.run _ ?_, ?_⟩
  · decide
  · intro h
    have harmed := (h (by decide) 1 (by decide)).1 (by decide)
      (by decide)
    exact absurd harmed (by decide)

/-- The deadline is not looked at, and the first acknowledgements are still to come. -/
def FirstAck (socket : Socket) (w : Watch) (a : Time × UdpEvent) : Prop :=
  AcksSent socket w a ∧ a.2 ≠ .resendTick ∧ (acks socket w.udp a = [] ∨ w.named = none)

instance FirstAck.decidable (socket : Socket) (w : Watch) (a : Time × UdpEvent) :
    Decidable (FirstAck socket w a) :=
  inferInstanceAs (Decidable
    (AcksSent socket w a ∧ a.2 ≠ .resendTick ∧ (acks socket w.udp a = [] ∨ w.named = none)))

theorem FirstAck.ok {socket : Socket} {w : Watch} {a : Time × UdpEvent}
    (h : FirstAck socket w a) : Ok socket w a := by
  obtain ⟨hsent, htick, hfirst⟩ := h
  refine ⟨hsent, fun h => absurd h htick, fun n hn place hplace => ?_⟩
  rcases hfirst with hnil | hnone
  · rw [hnil] at hn
    cases hn
  · rw [hnone] at hplace
    cases hplace

/-- In an established connection the first of two packets is acknowledged. -/
def acknowledged : Watch :=
  Library.run (step allSent false) { udp := fresh 0 }
    ([(0, .connect), (0, .takeQueued), (0, .drain [(true, synReply 0 0)]), (0, .receiveTurn),
      (0, .takeQueued), (0, .drain [(true, fromSwitcher flagReliable 0)])] ++ twoCommands ++
      [(0, .drain [(true, fromSwitcher flagAck 1)])])

/-- There the deadline is armed. -/
theorem deadline_armed_acknowledged : acknowledged.named = some (1, 1) ∧
    ArmedRight acknowledged := by
  have hstart : Reach Begins (step allSent false) (FirstAck allSent) { udp := fresh 0 } :=
    .start ⟨0, rfl⟩
  have hreach : Reach Begins (step allSent false) (FirstAck allSent) acknowledged :=
    hstart.run _ (by decide)
  exact ⟨by decide, deadline_armed (hreach.mono fun _ _ h => h.ok)⟩

end Watch

end Bmdwire
