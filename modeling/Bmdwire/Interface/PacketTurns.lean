import Bmdwire.Interface.UdpSessions

/-!
# What the loop is given, and when

The items that wait for `receive_packet` are the packet put aside and the receive queue. A turn
takes the first of them or leaves them as they are, and `Turned` says what comes of it; another
event adds to them at the end (`Adds`), or begins a session. An item that says that the UDP
thread is gone is behind the last packet, unless it was there before the session (`Closing`).
-/

set_option autoImplicit false

namespace Bmdwire

namespace Udp

/-- The items that wait for `receive_packet`, in the order in which it takes them. -/
def pending (s : Udp) : List RecvItem :=
  (s.stashedPacket.map RecvItem.packet).toList ++ s.threadRecvQueue

/-- The handshakes begun. -/
def handshakes (s : Udp) : ℕ := s.log.count .reset

/-- The state, the mark, the thread and the session stay the same. -/
def Quiet (s t : Udp) : Prop :=
  t.state = s.state ∧ t.markNextConnected = s.markNextConnected ∧
    t.threadAlive = s.threadAlive ∧ t.handshakes = s.handshakes

theorem Quiet.trans {s t u : Udp} (h : Quiet s t) (h' : Quiet t u) : Quiet s u :=
  ⟨h'.1.trans h.1, h'.2.1.trans h.2.1, h'.2.2.1.trans h.2.2.1, h'.2.2.2.trans h.2.2.2⟩

section Quiets

variable {socket : Socket} {now : Time} {aggressive : Bool} {s t : Udp}

/-- The parts that are not the state, the mark, the thread or the session. -/
theorem quiet_of_moves (h : Moves [.number, .note, .resend, .timer, .hear, .ack, .receive] s t) :
    Quiet s t := by
  apply h.keep (P := Quiet s) ?_ ⟨rfl, rfl, rfl, rfl⟩
  intro part hpart u v hm hu
  refine hu.trans ?_
  cases hm with
  | number _ ha => exact ⟨rfl, rfl, rfl, List.count_cons_of_ne ha⟩
  | note _ ha => exact ⟨rfl, rfl, rfl, List.count_cons_of_ne ha⟩
  | resent => exact ⟨rfl, rfl, rfl, List.count_cons_of_ne (by simp)⟩
  | ack =>
    unfold onAck
    split
    · exact ⟨rfl, rfl, rfl, rfl⟩
    · exact ⟨rfl, rfl, rfl, rfl⟩
  | closed => simp at hpart
  | synSent => simp at hpart
  | established => simp at hpart
  | reset => simp at hpart
  | thread => simp at hpart
  | queue => simp at hpart
  | flags => simp at hpart
  | take => simp at hpart
  | _ => exact ⟨rfl, rfl, rfl, rfl⟩

end Quiets

/-! ## What a drain brings -/

/-- Packets are put at the end of the receive queue. -/
def Brings (s t : Udp) : Prop :=
  t.stashedPacket = s.stashedPacket ∧
    ∃ ps : List Packet, t.threadRecvQueue = s.threadRecvQueue ++ ps.map .packet

section Drains

variable {socket : Socket} {now : Time} {s t u : Udp}

theorem Brings.nil (hstash : t.stashedPacket = s.stashedPacket)
    (hqueue : t.threadRecvQueue = s.threadRecvQueue) : Brings s t :=
  ⟨hstash, [], by rw [hqueue, List.map_nil, List.append_nil]⟩

theorem Brings.one (p : Packet) (hstash : t.stashedPacket = s.stashedPacket)
    (hqueue : t.threadRecvQueue = s.threadRecvQueue ++ [.packet p]) : Brings s t :=
  ⟨hstash, [p], hqueue⟩

theorem Brings.trans (h : Brings s t) (h' : Brings t u) : Brings s u := by
  obtain ⟨hstash, ps, hps⟩ := h
  obtain ⟨hstash', qs, hqs⟩ := h'
  refine ⟨hstash'.trans hstash, ps ++ qs, ?_⟩
  rw [hqs, hps, List.map_append, List.append_assoc]

/-- The other parts of a drain leave the packets alone. -/
theorem brings_of_moves (h : Moves [.number, .note, .resend, .hear, .ack] s t) : Brings s t := by
  apply h.keep (P := Brings s) ?_ (.nil rfl rfl)
  intro part hpart u v hm hu
  refine hu.trans ?_
  cases hm with
  | ack =>
    unfold onAck
    split
    · exact .nil rfl rfl
    · exact .nil rfl rfl
  | receive => simp at hpart
  | thread => simp at hpart
  | reset => simp at hpart
  | take => simp at hpart
  | _ => exact .nil rfl rfl

theorem drainParked_brings (fuel next : ℕ) (s : Udp) : Brings s (s.drainParked fuel next) := by
  induction fuel generalizing next s with
  | zero => exact .nil rfl rfl
  | succ fuel ih =>
    unfold drainParked
    split
    · exact .nil rfl rfl
    · rename_i p _
      refine Brings.trans ?_ (ih _ _)
      exact .one p rfl rfl

/-- The gate hands on the packet, and those parked behind it, or neither. -/
theorem gate_brings (p : Packet) (s : Udp) :
    Brings s ((s.gate p).2.handOn (s.gate p).1) := by
  unfold gate
  dsimp only
  split
  · exact .one p rfl rfl
  · split
    · exact .one p rfl rfl
    · split
      · split
        · exact .one p rfl rfl
        · refine Brings.trans ?_ (drainParked_brings _ _ _)
          exact .one p rfl rfl
      · split
        · exact .nil rfl rfl
        · split
          · exact .nil rfl rfl
          · exact .one p rfl rfl

theorem window_brings (received : List ℕ) (p : Packet) (s : Udp) :
    Brings s (({ s with receivedPackets := received }.updateAckNumber p).oweAck p) := by
  have hupdate : Brings s ({ s with receivedPackets := received }.updateAckNumber p) := by
    unfold updateAckNumber
    split
    · exact .nil rfl rfl
    · exact .nil rfl rfl
  refine hupdate.trans ?_
  unfold oweAck
  split
  · exact .nil rfl rfl
  · exact .nil rfl rfl

theorem receiveHeard_brings (p : Packet) (s : Udp) :
    Brings s ((s.receiveHeard now p).2.handOn (s.receiveHeard now p).1) := by
  have hhear := brings_of_moves ((@hear_moves now s p).mono (by decide))
  unfold receiveHeard
  dsimp only
  generalize s.hear now p = t at hhear ⊢
  refine hhear.trans ?_
  split
  · dsimp only [handOn]
    split
    · exact .nil rfl rfl
    · exact .nil rfl rfl
  · exact (window_brings _ p t).trans (gate_brings p _)

/-- A datagram of a drain. -/
theorem hearOne_brings (fromPeer : Bool) (raw : Bytes) (s : Udp) :
    Brings s (s.hearOne socket now fromPeer raw).2 := by
  rcases @hearOne_cases socket fromPeer raw now s with ⟨-, hresend⟩ | ⟨p, t, -, hresend, heq⟩
  · exact brings_of_moves (hresend.mono (by decide))
  · rw [heq]
    exact (brings_of_moves (hresend.mono (by decide))).trans (receiveHeard_brings p t)

theorem flushAck_brings (s : Udp) : Brings s (s.flushAck socket now).2 := by
  unfold flushAck
  split
  · exact .nil rfl rfl
  · have hsend := brings_of_moves
      ((@sendPacketLow_moves socket now { s with acksOwed := 0 } s.ackPacket).mono (by decide))
    exact hsend

theorem drainDatagrams_brings (datagrams : List (Bool × Bytes)) (s : Udp) :
    Brings s (s.drainDatagrams socket now datagrams).2 := by
  induction datagrams generalizing s with
  | nil => exact .nil rfl rfl
  | cons d rest ih =>
    have hheard := @hearOne_brings socket now d.1 d.2 s
    unfold hearOne at hheard
    unfold drainDatagrams
    dsimp only at hheard ⊢
    split
    · rename_i hraises
      rwa [if_pos hraises] at hheard
    · rename_i hraises
      rw [if_neg hraises] at hheard
      refine hheard.trans ?_
      split
      · split
        · exact flushAck_brings _
        · exact (flushAck_brings _).trans (ih _)
      · exact ih _

theorem drainSocket_brings (datagrams : List (Bool × Bytes)) (s : Udp) :
    Brings s (s.drainSocket socket now datagrams).2 :=
  (drainDatagrams_brings _ s).trans (flushAck_brings _)

end Drains


/-! ## What an event adds -/

/-- Where the thread says that it is gone, it is, and no packet comes after. -/
def Closing (alive : Bool) (items : List RecvItem) : Prop :=
  ∀ before after, items = before ++ .disconnected :: after →
    alive = false ∧ ∀ p, .packet p ∉ after

section Closings

variable {alive alive' : Bool} {item : RecvItem} {items more : List RecvItem}

theorem closing_of_not_mem (h : .disconnected ∉ items) : Closing alive items := by
  rintro before after rfl
  exact absurd (List.mem_append_right _ List.mem_cons_self) h

/-- A thread that is gone may say so more than once. -/
theorem closing_gone (h : ∀ p, .packet p ∉ items) : Closing false items := by
  rintro before after rfl
  exact ⟨rfl, fun p hp => h p (List.mem_append_right _ (List.mem_cons_of_mem _ hp))⟩

theorem Closing.tail (h : Closing alive (item :: items)) : Closing alive items := by
  rintro before after rfl
  exact h (item :: before) after rfl

theorem Closing.drop (h : Closing alive items) (n : ℕ) : Closing alive (items.drop n) := by
  intro before after heq
  exact h (items.take n ++ before) after (by rw [List.append_assoc, ← heq, List.take_append_drop])

/-- The first item is taken. -/
theorem Closing.drop_cons {n : ℕ} (h : Closing alive ((item :: items).drop n)) :
    Closing alive (items.drop (n - 1)) := by
  cases n with
  | zero => exact h.tail
  | succ n => exact h

theorem mem_take_of_cons {n : ℕ} (h : .disconnected ∈ (item :: items).take n)
    (hitem : item ≠ .disconnected) : .disconnected ∈ items.take (n - 1) := by
  cases n with
  | zero => cases h
  | succ n => exact (List.mem_cons.mp h).resolve_left hitem.symm

/-- Behind a thread that is gone come no packets. -/
theorem Closing.append (h : Closing alive items) (hmore : Closing alive' more)
    (hgone : alive = false → alive' = false ∧ ∀ p, .packet p ∉ more) :
    Closing alive' (items ++ more) := by
  intro before after heq
  rcases List.append_eq_append_iff.mp heq with ⟨mid, rfl, hmid⟩ | ⟨mid, hmid, hafter⟩
  · exact hmore mid after hmid
  · cases mid with
    | nil =>
      exact hmore [] after hafter.symm
    | cons first mid =>
      obtain ⟨rfl, rfl⟩ := List.cons.inj hafter
      obtain ⟨halive, hnone⟩ := h before mid hmid
      obtain ⟨halive', hmore'⟩ := hgone halive
      refine ⟨halive', fun p hp => ?_⟩
      rcases List.mem_append.mp hp with hp | hp
      · exact hnone p hp
      · exact hmore' p hp

end Closings

/-- The session goes on, and items are added to those that wait: packets, while the thread runs,
and at its end that it is gone. -/
structure Adds (s t : Udp) : Prop where
  state : t.state = s.state
  mark : t.markNextConnected = s.markNextConnected
  handshakes : t.handshakes = s.handshakes
  items : ∃ items, t.pending = s.pending ++ items ∧ Closing t.threadAlive items ∧
    (s.threadAlive = false → t.threadAlive = false ∧ ∀ p, .packet p ∉ items)

/-- A session is begun. If the one before was up, it is said to be gone. -/
structure Begins (s t : Udp) : Prop where
  mark : t.markNextConnected = s.markNextConnected
  handshakes : s.handshakes < t.handshakes
  state : t.state ≠ .established
  told : (s.state = .closed → .disconnected ∈ s.pending) → .disconnected ∈ t.pending

section Events

variable {socket : Socket} {aggressive : Bool} {now : Time} {s t : Udp}

theorem pending_of_eq (hstash : t.stashedPacket = s.stashedPacket) {items : List RecvItem}
    (hqueue : t.threadRecvQueue = s.threadRecvQueue ++ items) : t.pending = s.pending ++ items := by
  unfold pending
  rw [hstash, hqueue, List.append_assoc]

theorem pending_append (s : Udp) (alive : Bool) (items : List RecvItem) :
    { s with
      threadAlive := alive
      threadRecvQueue := s.threadRecvQueue ++ items }.pending = s.pending ++ items :=
  (List.append_assoc _ _ _).symm

/-- Nothing is added. -/
theorem Adds.none (h : Quiet s t) (hpending : t.pending = s.pending) : Adds s t := by
  obtain ⟨hstate, hmark, halive, hcount⟩ := h
  refine ⟨hstate, hmark, hcount, [], ?_, closing_of_not_mem (by simp), fun hgone => ?_⟩
  · rw [hpending, List.append_nil]
  · exact ⟨halive.trans hgone, by simp⟩

theorem Brings.pending (h : Brings s t) :
    ∃ ps : List Packet, t.pending = s.pending ++ ps.map .packet := by
  obtain ⟨hstash, ps, hps⟩ := h
  exact ⟨ps, pending_of_eq hstash hps⟩

theorem same_of_moves_outbound (h : Moves [.number, .note, .resend, .timer, .queue] s t) :
    t.pending = s.pending := by
  apply h.keep (P := fun t => t.pending = s.pending) ?_ rfl
  intro part hpart u v hm hu
  cases hm with
  | ack => simp at hpart
  | receive => simp at hpart
  | thread => simp at hpart
  | reset => simp at hpart
  | take => simp at hpart
  | _ => exact hu

/-- The thread ends, or goes on. -/
theorem endThread_adds {r : Bool × Udp} (hquiet : Quiet s r.2)
    (hpackets : ∃ ps : List Packet, r.2.pending = s.pending ++ ps.map .packet)
    (halive : s.threadAlive = true) : Adds s (endThread r) := by
  obtain ⟨hstate, hmark, -, hcount⟩ := hquiet
  obtain ⟨ps, hps⟩ := hpackets
  have hnone : RecvItem.disconnected ∉ ps.map RecvItem.packet := by simp
  unfold endThread
  split
  · refine ⟨hstate, hmark, hcount, ps.map .packet ++ [.disconnected], ?_, ?_, ?_⟩
    · rw [← List.append_assoc, ← hps]
      exact pending_append r.2 false [.disconnected]
    · have hps : Closing true (ps.map RecvItem.packet) := closing_of_not_mem hnone
      exact hps.append (closing_gone (by simp)) (by simp)
    · intro hgone
      rw [halive] at hgone
      cases hgone
  · refine ⟨hstate, hmark, hcount, ps.map .packet, hps, closing_of_not_mem hnone, fun hgone => ?_⟩
    rw [halive] at hgone
    cases hgone

/-- A `connect` on another thread begins a session, if the last one is closed. -/
theorem connect_spec (hclosed : s.state = .closed) :
    (s.connect socket now false).1 = false ∧
      (s.connect socket now false).2.state = .synSent ∧
      (s.connect socket now false).2.markNextConnected = s.markNextConnected ∧
      (s.connect socket now false).2.handshakes = s.handshakes + 1 ∧
      (s.connect socket now false).2.pending = s.threadRecvQueue := by
  unfold connect sendPacket
  rw [if_neg (not_not.mpr hclosed)]
  exact ⟨rfl, rfl, rfl, List.count_cons_self, rfl⟩

theorem connect_begins (hclosed : s.state = .closed) :
    Begins s (s.connect socket now false).2 := by
  obtain ⟨-, hstate, hmark, hcount, hpending⟩ := @connect_spec socket now s hclosed
  refine ⟨hmark, by omega, by rw [hstate]; simp, fun htold => ?_⟩
  have hmem := htold hclosed
  unfold pending at hmem
  rw [hpending]
  rcases List.mem_append.mp hmem with hmem | hmem
  · simp at hmem
  · exact hmem

theorem silence_begins : Begins s (s.silence socket now) := by
  have hconnect : ∀ u : Udp, u.state = .closed →
      (u.connect socket now true).2.markNextConnected = u.markNextConnected ∧
        u.handshakes < (u.connect socket now true).2.handshakes ∧
        (u.connect socket now true).2.state ≠ .established := by
    intro u hclosed
    obtain ⟨hstate, hmark, -, hcount⟩ := quiet_of_moves ((@sendOnUdpThread_moves socket now
      ({ u with threadAlive := true }.resetSession now) synPacket).mono (by decide))
    have hbegun : u.handshakes < (({ u with threadAlive := true }.resetSession now).sendOnUdpThread
        socket now synPacket).2.handshakes := by
      rw [hcount]
      show u.log.count .reset < List.count NetAct.reset (.reset :: u.log)
      rw [List.count_cons_self]
      exact Nat.lt_succ_self _
    unfold connect sendPacket
    rw [if_neg (not_not.mpr hclosed), if_pos rfl]
    refine ⟨?_, ?_, ?_⟩
    · dsimp only
      split
      · exact hmark
      · exact hmark
    · dsimp only
      split
      · exact hbegun
      · exact hbegun
    · dsimp only
      split
      · rw [hstate]
        show u.state ≠ .established
        rw [hclosed]
        simp
      · simp
  obtain ⟨hmark, hcount, hstate⟩ := hconnect { s with state := .closed } rfl
  refine ⟨hmark, hcount, hstate, fun _ => ?_⟩
  unfold silence pending
  simp

/-- An event besides the turns adds to what waits, or begins a session. -/
theorem step_adds {e : UdpEvent} (hpossible : s.Possible (now, e))
    (he : e ≠ .receiveTurn ∧ e ≠ .markNextConnected ∧ e ≠ .closeSession) :
    Adds s (s.step socket aggressive (now, e)) ∨
      Begins s (s.step socket aggressive (now, e)) := by
  have hsend : ∀ {t : Udp}, Moves [.number, .note] s t → Adds s t := fun h =>
    .none (quiet_of_moves (h.mono (by decide))) (same_of_moves_outbound (h.mono (by decide)))
  cases e with
  | drain datagrams =>
    exact .inl (endThread_adds
      (quiet_of_moves ((drainSocket_moves socket now datagrams).mono (by decide)))
      (drainSocket_brings datagrams s).pending hpossible)
  | silence => exact .inr silence_begins
  | resendTick =>
    have hmoves := @resendUnacked_moves socket now s
    refine .inl (endThread_adds (quiet_of_moves (hmoves.mono (by decide))) ⟨[], ?_⟩ hpossible)
    rw [same_of_moves_outbound (hmoves.mono (by decide)), List.map_nil, List.append_nil]
  | takeQueued =>
    show Adds s (s.takeQueued socket now) ∨ Begins s (s.takeQueued socket now)
    unfold takeQueued
    split
    · exact .inl (hsend (.refl s))
    · rename_i p rest _
      have hmoves := @sendOnUdpThread_moves socket now { s with threadQueue := rest } p
      have hquiet := quiet_of_moves (hmoves.mono (by decide))
      have hpending := same_of_moves_outbound (hmoves.mono (by decide))
      dsimp only
      split
      · obtain ⟨hstate, hmark, halive, hcount⟩ := hquiet
        refine .inl ⟨hstate, hmark, hcount, [.disconnected, .disconnected], ?_, ?_, fun hgone => ?_⟩
        · rw [pending_append, hpending]
          rfl
        · exact closing_gone (by simp)
        · exact ⟨rfl, by simp⟩
      · exact .inl (.none hquiet hpending)
  | connect =>
    show Adds s (s.connect socket now false).2 ∨ Begins s (s.connect socket now false).2
    by_cases hclosed : s.state = .closed
    · exact .inr (connect_begins hclosed)
    · unfold connect
      rw [if_pos hclosed]
      exact .inl (hsend (.refl s))
  | receiveTurn => exact absurd rfl he.1
  | sendPacket p => exact .inl (.none ⟨rfl, rfl, rfl, rfl⟩ rfl)
  | sendPacketLow p => exact .inl (hsend (sendPacketLow_moves socket now p))
  | queuePacket p => exact .inl (.none ⟨rfl, rfl, rfl, rfl⟩ rfl)
  | drainQueue =>
    show Adds s s.drainQueue ∨ Begins s s.drainQueue
    unfold drainQueue
    split
    · exact .inl (.none ⟨rfl, rfl, rfl, rfl⟩ rfl)
    · exact .inl (.none ⟨rfl, rfl, rfl, rfl⟩ rfl)
  | wakeup =>
    refine .inl ⟨rfl, rfl, rfl, [.wakeup], pending_append s s.threadAlive _, ?_, fun hgone => ?_⟩
    · exact closing_of_not_mem (by simp)
    · exact ⟨hgone, by simp⟩
  | markNextConnected => exact absurd rfl he.2.1
  | closeSession => exact absurd rfl he.2.2

end Events

/-! ## What a turn comes to -/

/-- The items that wait are left, or the first, a packet, is taken. -/
def Leaves (s t : Udp) : Prop :=
  t.pending = s.pending ∨ ∃ p, s.pending = .packet p :: t.pending

/-- What a turn of `receive_packet` comes to: nothing waits; the loop is woken; it is told that the
thread is gone, or so told and a handshake begun; it is told that the dump is complete, and the
packet that comes next left where it is; it is told that the send queue has run empty, or nothing;
it is given a data packet; or a packet is looked at while the SYN is out. -/
inductive Turned (s : Udp) : Except Unit (Option RecvResult) → Udp → Prop
  | waits : Turned s (.ok none) s
  | wakeup {t : Udp} : s.pending = .wakeup :: t.pending → Quiet s t →
      Turned s (.ok (some .wakeup)) t
  | gone {t : Udp} : s.pending = .disconnected :: t.pending → Quiet s t →
      Turned s (.ok (some .none)) t
  | again {t : Udp} : s.handshakes < t.handshakes → t.markNextConnected = s.markNextConnected →
      t.state ≠ .established → Turned s (.ok (some .none)) t
  | ready {p : Packet} {t : Udp} : s.markNextConnected = true →
      s.pending = .packet p :: t.pending.tail →
      t.pending = s.pending → t.markNextConnected = false → t.state = s.state →
      t.threadAlive = s.threadAlive → t.handshakes = s.handshakes →
      Turned s (.ok (some .connectionReady)) t
  | control {r : Option RecvResult} {t : Udp} : r = none ∨ r = some .transferQueueFlushed →
      Leaves s t → Quiet s t → Turned s (.ok r) t
  | data {p : Packet} {t : Udp} : s.state = .established → s.markNextConnected = false →
      s.pending = .packet p :: t.pending → Quiet s t → Turned s (.ok (some (.packet p))) t
  | reply {r : Except Unit (Option RecvResult)} {p : Packet} {t : Udp} :
      r = .error () ∨ r = .ok none ∨ r = .ok (some .none) → s.state = .synSent →
      s.markNextConnected = false → s.pending = .packet p :: t.pending →
      t.state = .synSent ∨ t.state = .established ∧ p.has flagSyn = true →
      t.markNextConnected = false → t.threadAlive = s.threadAlive → t.handshakes = s.handshakes →
      Turned s r t

section Turns

variable {socket : Socket} {aggressive : Bool} {now : Time} {s u : Udp} {p : Packet}

theorem queueTrigger_quiet (aggressive : Bool) (s : Udp) :
    Quiet s (s.queueTrigger aggressive).2 ∧
      (s.queueTrigger aggressive).2.stashedPacket = s.stashedPacket ∧
      (s.queueTrigger aggressive).2.pending = s.pending := by
  unfold queueTrigger
  split
  · exact ⟨⟨rfl, rfl, rfl, rfl⟩, rfl, rfl⟩
  · split
    · exact ⟨⟨rfl, rfl, rfl, rfl⟩, rfl, rfl⟩
    · exact ⟨⟨rfl, rfl, rfl, rfl⟩, rfl, rfl⟩

/-- A reply to the SYN may establish the session. -/
theorem handshake_spec (p : Packet) (s : Udp) :
    ((s.handshake p).2.state = s.state ∨
        (s.handshake p).2.state = .established ∧ p.has flagSyn = true) ∧
      (s.handshake p).2.markNextConnected = s.markNextConnected ∧
      (s.handshake p).2.threadAlive = s.threadAlive ∧
      (s.handshake p).2.handshakes = s.handshakes ∧
      (s.handshake p).2.pending = s.pending := by
  unfold handshake
  split
  · exact ⟨.inl rfl, rfl, rfl, rfl, rfl⟩
  · rename_i hreply
    have hsyn : p.has flagSyn = true := by
      by_contra h
      exact hreply (.inl h)
    split
    · exact ⟨.inl rfl, rfl, rfl, rfl, rfl⟩
    · split
      · exact ⟨.inl rfl, rfl, rfl, rfl, rfl⟩
      · dsimp only
        split
        · exact ⟨.inr ⟨rfl, hsyn⟩, rfl, rfl, rfl, rfl⟩
        · exact ⟨.inl rfl, rfl, rfl, rfl, rfl⟩

/-- A packet in hand. -/
theorem receiveData_turned (hpending : s.pending = .packet p :: u.pending) (hquiet : Quiet s u)
    (hmark : s.markNextConnected = false) :
    Turned s (u.receiveData aggressive p).1 (u.receiveData aggressive p).2 := by
  have hleaves : Leaves s u := .inr ⟨p, hpending⟩
  unfold receiveData
  split
  · rename_i hsyn
    obtain ⟨hstate, hmark', halive, hcount, hsame⟩ :=
      handshake_spec p { u with hadTraffic := true }
    obtain ⟨hquietState, hquietMark, hquietAlive, hquietCount⟩ := hquiet
    refine .reply (p := p) ?_ (hquietState.symm.trans hsyn) hmark ?_ ?_ ?_ ?_ ?_
    · dsimp only
      split
      · exact .inl rfl
      · split
        · exact .inr (.inr rfl)
        · exact .inr (.inl rfl)
    · rw [hpending, hsame]
      rfl
    · rcases hstate with hstate | hstate
      · exact .inl (hstate.trans hsyn)
      · exact .inr hstate
    · exact hmark'.trans (hquietMark.trans hmark)
    · exact halive.trans hquietAlive
    · exact hcount.trans hquietCount
  · rename_i hup
    split
    · dsimp only
      generalize hacked : (if u.enableAck then u else { u with
        enableAck := true
        threadQueue := u.threadQueue ++ [u.initialAck] }) = v
      have hv : Quiet u v ∧ v.pending = u.pending := by
        rw [← hacked]
        split
        · exact ⟨⟨rfl, rfl, rfl, rfl⟩, rfl⟩
        · exact ⟨⟨rfl, rfl, rfl, rfl⟩, rfl⟩
      obtain ⟨htrigger, -, hsame⟩ := queueTrigger_quiet aggressive v
      refine .control ?_ (.inr ⟨p, ?_⟩) ((hquiet.trans hv.1).trans htrigger)
      · split
        · exact .inr rfl
        · exact .inl rfl
      · rw [hpending, hsame, hv.2]
    · exact .data (hquiet.1.symm.trans hup) hmark hpending hquiet
  · exact .control (.inl rfl) hleaves hquiet

/-- A packet taken. -/
theorem receiveTaken_turned (hpending : s.pending = .packet p :: u.pending)
    (hnone : u.stashedPacket = none) (hquiet : Quiet s u) :
    Turned s (u.receiveTaken aggressive p).1 (u.receiveTaken aggressive p).2 := by
  have hstashed : ∀ t : Udp, t.pending = u.pending → t.stashedPacket = none →
      { t with stashedPacket := some p }.pending = s.pending := by
    intro t hsame ht
    rw [hpending, ← hsame]
    unfold pending
    rw [ht]
    rfl
  obtain ⟨hstate, hmark, halive, hcount⟩ := hquiet
  unfold receiveTaken
  split
  · rename_i hmarked
    have hsame := hstashed { u with markNextConnected := false } rfl hnone
    refine .ready (p := p) (hmark.symm.trans hmarked) ?_ hsame rfl hstate halive hcount
    exact hsame.symm
  · rename_i hunmarked
    have hunmarked : s.markNextConnected = false := by
      rw [← hmark]
      simpa using hunmarked
    obtain ⟨htrigger, hstash, hsame⟩ := queueTrigger_quiet aggressive u
    split
    · dsimp only
      split
      · refine .control (.inr rfl) (.inl (hstashed _ hsame (hstash.trans hnone))) ?_
        exact Quiet.trans ⟨hstate, hmark, halive, hcount⟩ htrigger
      · refine receiveData_turned ?_ ?_ hunmarked
        · rw [hsame]
          exact hpending
        · exact Quiet.trans ⟨hstate, hmark, halive, hcount⟩ htrigger
    · exact receiveData_turned hpending ⟨hstate, hmark, halive, hcount⟩ hunmarked

theorem receiveTurn_turned (socket : Socket) (now : Time) (aggressive : Bool) (s : Udp) :
    Turned s (s.receiveTurn socket now aggressive).1 (s.receiveTurn socket now aggressive).2 := by
  unfold receiveTurn
  split
  · rename_i p _ hstash
    refine receiveTaken_turned ?_ rfl ⟨rfl, rfl, rfl, rfl⟩
    unfold pending
    rw [hstash]
    rfl
  · exact .waits
  · rename_i p rest hstash hqueue
    refine receiveTaken_turned ?_ hstash ⟨rfl, rfl, rfl, rfl⟩
    unfold pending
    rw [hstash, hqueue]
    rfl
  · rename_i rest hstash hqueue
    have hpending : s.pending = .disconnected :: { s with threadRecvQueue := rest }.pending := by
      unfold pending
      rw [hstash, hqueue]
      rfl
    unfold receiveDisconnected
    split
    · obtain ⟨hok, hstate, hmark, hcount, -⟩ := @connect_spec socket now
        { s with threadRecvQueue := rest, state := .closed, hadTraffic := false } rfl
      dsimp only at hok hstate hmark hcount ⊢
      rw [hok]
      refine .again ?_ hmark ?_
      · rw [hcount]
        exact Nat.lt_succ_self _
      · rw [hstate]
        simp
    · exact .gone hpending ⟨rfl, rfl, rfl, rfl⟩
  · rename_i rest hstash hqueue
    refine .wakeup ?_ ⟨rfl, rfl, rfl, rfl⟩
    unfold pending
    rw [hstash, hqueue]
    rfl

end Turns

end Udp

end Bmdwire
