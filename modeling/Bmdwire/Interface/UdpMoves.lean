import Bmdwire.Program.UdpRun

/-!
# What the steps of a transport do to it

Every method of `UdpProtocol` changes the transport by `Move`s, each of one `Part` of its
state: a packet is numbered and buffered, an acknowledgement is heard, a packet is taken off
the receive queue, the session is reset. Each method has one lemma here that lists the parts it
touches, and what is proved of the parts is so proved of the methods.
-/

set_option autoImplicit false

namespace Bmdwire

open Library (Dict)

/-! ## The reliable packets of a session -/

/-- The reliable packet that this entry says was given its number. -/
def NetAct.numbered? : NetAct → Option Packet
  | .send p => if Udp.isReliable p then some p else none
  | .keep p => if Udp.isReliable p then some p else none
  | _ => none

/-- The reliable packets numbered since the last reset, oldest first. -/
def sessionSent : List NetAct → List Packet
  | [] => []
  | .reset :: _ => []
  | a :: past => sessionSent past ++ a.numbered?.toList

theorem sessionSent_cons {a : NetAct} (ha : a ≠ .reset) (past : List NetAct) :
    sessionSent (a :: past) = sessionSent past ++ a.numbered?.toList := by
  cases a with
  | reset => exact absurd rfl ha
  | _ => rfl

namespace Udp

/-! ## Moves -/

/-- The parts of a transport: the numbers of what it sends; what else a send leaves behind; the
packets sent again; the resend timer's look at its deadline; the number, session and time of
what is heard; an acknowledgement heard; the received window and the items it hands on; the
state of the connection; a new session; the UDP thread; the queues and flags of the protocol's
thread; the receive queue and the packet put aside, as `receive_packet` takes them. -/
inductive Part
  | number
  | note
  | resend
  | timer
  | hear
  | ack
  | receive
  | state
  | reset
  | thread
  | queue
  | take
deriving DecidableEq, Repr

/-- A change to one part. -/
inductive Move : Part → Udp → Udp → Prop
  | called (s : Udp) {part : Part} (calls : ℕ) : Move part s { s with calls := calls }
  | begin {s : Udp} : s.localSequenceNumber = -1 →
      Move .number s { s with localSequenceNumber := 0 }
  | number {s : Udp} {a : NetAct} (now : Time) {p : Packet} : a ≠ .reset →
      a.numbered? = some p → s.localSequenceNumber ≠ -1 →
      p.sequenceNumber = s.nextSequenceNumber →
      Move .number s ((s.note a).buffer now p)
  | note (s : Udp) {a : NetAct} : a ≠ .reset → a.numbered? = none → Move .note s (s.note a)
  | forget (s : Udp) : Move .note s { s with sessionId := none }
  | mark {s : Udp} {n : ℕ} {p : Packet} : s.retransmissionBuffer.get? n = some p →
      Move .resend s (s.mark n p)
  | resent (s : Udp) (p : Packet) : Move .resend s (s.note (.resend p))
  | due (s : Udp) (due : Option Time) : Move .timer s { s with resendDue := due }
  | hear (s : Udp) (now : Time) (p : Packet) : Move .hear s { s with
      remoteSequenceNumber := p.sequenceNumber
      sessionId := if s.sessionId.isNone then p.session else s.sessionId
      lastHeard := now }
  | ack (s : Udp) (now : Time) (number : ℕ) : Move .ack s (s.onAck now number)
  | receive (s : Udp) (received : List ℕ) (ack : ℕ) (established enableAck : Bool) (owed : ℕ)
      (cursor : Option ℕ) (parked : Dict ℕ Packet) (items : List RecvItem) :
      Move .receive s { s with
        receivedPackets := received
        ackNumber := ack
        rxEstablished := established
        enableAck := enableAck
        acksOwed := owed
        deliverNext := cursor
        parked := parked
        threadRecvQueue := s.threadRecvQueue ++ items }
  | closed (s : Udp) : Move .state s { s with state := .closed }
  | synSent {s : Udp} : s.state = .closed → s.ackedThrough = none →
      Move .state s { s with state := .synSent }
  | established {s : Udp} : s.state = .synSent → Move .state s { s with state := .established }
  | reset {s : Udp} (now : Time) : s.state = .closed →
      Move .reset s ({ s with threadAlive := true }.resetSession now)
  | thread (s : Udp) (alive : Bool) (items : List RecvItem) : Move .thread s { s with
      threadAlive := alive
      threadRecvQueue := s.threadRecvQueue ++ items }
  | queue (s : Udp) (sendQueue : List Packet) (queueEnabled : Bool) (threadQueue : List Packet) :
      Move .queue s { s with
        sendQueue := sendQueue
        queueEnabled := queueEnabled
        threadQueue := threadQueue }
  | flags (s : Udp) (mark enableAck hadTraffic refused : Bool) : Move .queue s { s with
      markNextConnected := mark
      enableAck := enableAck
      hadTraffic := hadTraffic
      refused := refused }
  | take (s : Udp) (rest : List RecvItem) (stashed : Option Packet) : Move .take s { s with
      threadRecvQueue := rest
      stashedPacket := stashed }

/-- Any number of changes to some parts. -/
def Moves (parts : List Part) : Udp → Udp → Prop :=
  Relation.ReflTransGen fun s t => ∃ part ∈ parts, Move part s t

section Moves

variable {parts parts' : List Part} {s t u : Udp}

/-- What the changes to these parts keep, any number of them keeps. -/
theorem Moves.keep {P : Udp → Prop} (hP : ∀ part ∈ parts, ∀ s t, Move part s t → P s → P t)
    (h : Moves parts s t) (hs : P s) : P t := by
  induction h with
  | refl => exact hs
  | tail _ hm ih =>
    obtain ⟨part, hpart, hm⟩ := hm
    exact hP part hpart _ _ hm ih

theorem Moves.refl (s : Udp) : Moves parts s s := Relation.ReflTransGen.refl

theorem Moves.trans (h : Moves parts s t) (h' : Moves parts t u) : Moves parts s u :=
  Relation.ReflTransGen.trans h h'

/-- Fewer parts are some of more. -/
theorem Moves.mono (h : Moves parts s t) (hparts : parts ⊆ parts') : Moves parts' s t := by
  refine Relation.ReflTransGen.mono (fun a b hab => ?_) _ _ h
  obtain ⟨part, hpart, hm⟩ := hab
  exact ⟨part, hparts hpart, hm⟩

theorem Move.moves {part : Part} (h : Move part s t) (hpart : part ∈ parts) : Moves parts s t :=
  Relation.ReflTransGen.single ⟨part, hpart, h⟩

/-- A change, then others. -/
theorem Move.then {part : Part} (h : Move part s t) (hpart : part ∈ parts)
    (h' : Moves parts t u) : Moves parts s u :=
  (h.moves hpart).trans h'

end Moves

variable (socket : Socket) (now : Time) {s : Udp}

/-! ## Sending -/

/-- A reliable packet is no ACK. -/
theorem not_ack_of_isReliable {p : Packet} (h : isReliable p = true) : p.has flagAck = false := by
  have h18 : p.flags &&& 18 = 0 := of_decide_eq_true h
  have h16 : p.flags &&& 16 = 0 := by
    have hand : (p.flags &&& 18) &&& 16 = p.flags &&& 16 := Nat.and_assoc ..
    rw [← hand, h18, Nat.zero_and]
  simp [Packet.has, flagAck, h16]

theorem begun_moves : Moves [.number] s s.begun := by
  unfold begun
  split
  · rename_i h
    exact (Move.begin h).moves (by decide)
  · exact .refl s

theorem begun_ne (s : Udp) : s.begun.localSequenceNumber ≠ -1 := by
  unfold begun
  split
  · simp
  · assumption

theorem forgetSession_moves (p : Packet) : Moves [.note] s (s.forgetSession p) := by
  unfold forgetSession
  split
  · exact (Move.forget s).moves (by decide)
  · exact .refl s

/-- The packet as it is sent, if it is reliable, bears the next number. -/
theorem numbered_spec (p : Packet) (s : Udp) : Moves [.number] s (s.numbered p).2 ∧
    (isReliable (s.numbered p).1 = true → (s.numbered p).2.localSequenceNumber ≠ -1 ∧
      (s.numbered p).1.sequenceNumber = (s.numbered p).2.nextSequenceNumber) := by
  unfold numbered
  dsimp only
  split
  · rename_i hack
    refine ⟨.refl s, fun hr => ?_⟩
    rw [not_ack_of_isReliable hr] at hack
    cases hack
  · exact ⟨begun_moves, fun _ => ⟨begun_ne s, rfl⟩⟩

/-- What follows a send of a packet that is not reliable. -/
theorem afterSend_note {a : NetAct} {p : Packet} (ha : a ≠ .reset)
    (hnum : a.numbered? = if isReliable p then some p else none) (hr : isReliable p = false) :
    Moves [.note] s ((s.note a).afterSend now p) := by
  unfold afterSend
  rw [hr, if_neg (by simp)] at hnum
  rw [hr, if_neg (by simp)]
  exact ((Move.note s ha hnum).moves (by decide)).trans (forgetSession_moves p)

/-- What follows a send of a packet whose number, if it is reliable, is the next. -/
theorem afterSend_moves {a : NetAct} {p : Packet} (ha : a ≠ .reset)
    (hnum : a.numbered? = if isReliable p then some p else none)
    (hbegun : isReliable p = true →
      s.localSequenceNumber ≠ -1 ∧ p.sequenceNumber = s.nextSequenceNumber) :
    Moves [.number, .note] s ((s.note a).afterSend now p) := by
  cases hr : isReliable p with
  | true =>
    unfold afterSend
    rw [hr, if_pos rfl] at hnum
    rw [hr, if_pos rfl]
    have hmove : Move .number s ((s.note a).buffer now p) :=
      .number now ha hnum (hbegun hr).1 (hbegun hr).2
    exact (hmove.moves (by decide)).trans ((forgetSession_moves p).mono (by decide))
  | false => exact (afterSend_note now ha hnum hr).mono (by decide)

theorem called_moves (part : Part) : Moves [part] s (s.called socket) :=
  (Move.called s _).moves (List.mem_singleton_self part)

/-- A packet that is not reliable is noted. -/
theorem transmit_note {p : Packet} (hr : isReliable p = false) :
    Moves [.note] s (s.transmit socket now p).2 := by
  refine (called_moves socket .note).trans ?_
  unfold transmit
  split
  · exact afterSend_note now (by simp) rfl hr
  · rw [hr, if_neg (by simp)]
    exact (Move.note (s.called socket) (by simp) rfl).moves (by decide)

/-- A packet handed to the network is noted, or numbered. -/
theorem transmit_moves {p : Packet} (hbegun : isReliable p = true →
    s.localSequenceNumber ≠ -1 ∧ p.sequenceNumber = s.nextSequenceNumber) :
    Moves [.number, .note] s (s.transmit socket now p).2 := by
  refine ((called_moves socket .note).mono (by decide)).trans ?_
  unfold transmit
  split
  · exact afterSend_moves now (by simp) rfl hbegun
  · split
    · exact afterSend_moves now (by simp) rfl hbegun
    · exact (Move.note (s.called socket) (by simp) rfl).moves (by decide)

/-- An ACK takes no number. -/
theorem sendPacketLow_note {p : Packet} (hp : p.has flagAck = true) :
    Moves [.note] s (s.sendPacketLow socket now p).2 := by
  have hnumbered : s.numbered p = ({ p with session := s.sessionId }, s) := if_pos hp
  have hr : isReliable { p with session := s.sessionId } = false := by
    apply Bool.eq_false_iff.mpr
    intro hr
    have hnot := not_ack_of_isReliable hr
    exact absurd (hp.symm.trans hnot) (by simp)
  unfold sendPacketLow
  rw [hnumbered]
  dsimp only
  split
  · exact (Move.note _ (by simp) rfl).moves (by decide)
  · exact transmit_note socket now hr

/-- `_send_packet_low` numbers the packet, drops it, or raises. -/
theorem sendPacketLow_moves (p : Packet) :
    Moves [.number, .note] s (s.sendPacketLow socket now p).2 := by
  obtain ⟨hm, hbegun⟩ := numbered_spec p s
  unfold sendPacketLow
  dsimp only
  split
  · exact (hm.mono (by decide)).trans ((Move.note _ (by simp) rfl).moves (by decide))
  · exact (hm.mono (by decide)).trans (transmit_moves socket now hbegun)

theorem sendOnUdpThread_moves (p : Packet) :
    Moves [.number, .note] s (s.sendOnUdpThread socket now p).2 :=
  sendPacketLow_moves socket now p

theorem sendPacket_moves (onUdpThread : Bool) (p : Packet) :
    Moves [.number, .note, .queue] s (s.sendPacket socket now onUdpThread p).2 := by
  unfold sendPacket
  split
  · exact (sendOnUdpThread_moves socket now p).mono (by decide)
  · exact (Move.queue s _ _ _).moves (by decide)

/-- A send leaves the state alone, and what is acknowledged. -/
theorem sendPacket_keeps (onUdpThread : Bool) (p : Packet) :
    (s.sendPacket socket now onUdpThread p).2.state = s.state ∧
      (s.sendPacket socket now onUdpThread p).2.ackedThrough = s.ackedThrough := by
  apply (sendPacket_moves socket now onUdpThread p).keep
    (P := fun t => t.state = s.state ∧ t.ackedThrough = s.ackedThrough) ?_ ⟨rfl, rfl⟩
  rintro part hpart a b hm ⟨hstate, hacked⟩
  cases hm with
  | called => exact ⟨hstate, hacked⟩
  | begin => exact ⟨hstate, hacked⟩
  | number => exact ⟨hstate, hacked⟩
  | note => exact ⟨hstate, hacked⟩
  | forget => exact ⟨hstate, hacked⟩
  | queue => exact ⟨hstate, hacked⟩
  | flags => exact ⟨hstate, hacked⟩
  | _ => simp at hpart

theorem connect_moves (onUdpThread : Bool) :
    Moves [.reset, .number, .note, .queue, .state] s (s.connect socket now onUdpThread).2 := by
  unfold connect
  split
  · exact .refl s
  · rename_i hclosed
    have hstate : s.state = .closed := by simpa using hclosed
    refine (Move.reset now hstate).then (by decide) ?_
    refine ((sendPacket_moves socket now onUdpThread synPacket).mono (by decide)).trans ?_
    dsimp only
    split
    · exact .refl _
    · obtain ⟨hsame, hacked⟩ := @sendPacket_keeps socket now
        ({ s with threadAlive := true }.resetSession now) onUdpThread synPacket
      exact (Move.synSent (hsame.trans hstate) hacked).moves (by decide)

theorem resendFrom_moves (count seq : ℕ) : Moves [.resend] s (s.resendFrom socket count seq).2 := by
  induction count generalizing seq s with
  | zero => exact .refl s
  | succ count ih =>
    unfold resendFrom
    split
    · exact ih _
    · rename_i p hp
      refine (Move.mark hp).then (by decide) ?_
      dsimp only
      split
      · exact .refl _
      · refine (called_moves socket .resend).trans ?_
        split
        · exact (Move.resent _ _).then (by decide) (ih _)
        · exact .refl _

theorem retransmitFrom_moves (requestSeq : ℕ) :
    Moves [.resend] s (s.retransmitFrom socket requestSeq).2 := by
  unfold retransmitFrom
  dsimp only
  split
  · exact .refl s
  · exact resendFrom_moves socket _ _

theorem resendUnacked_moves : Moves [.timer, .resend] s (s.resendUnacked socket now).2 := by
  unfold resendUnacked
  split
  · exact .refl s
  · split
    · exact .refl s
    · refine (Move.due s none).then (by decide) ?_
      dsimp only
      split
      · exact .refl _
      · rename_i first _
        refine ((retransmitFrom_moves socket first).mono (by decide)).trans ?_
        split
        · exact .refl _
        · exact (Move.due _ _).moves (by decide)

/-! ## Receiving -/

theorem hear_moves (p : Packet) : Moves [.hear, .ack] s (s.hear now p) := by
  have hhear : Moves [.hear, .ack] s { s with
      remoteSequenceNumber := p.sequenceNumber
      sessionId := if s.sessionId.isNone then p.session else s.sessionId
      lastHeard := now } := (Move.hear s now p).moves (by decide)
  unfold hear
  by_cases hack : p.has flagAck = true
  · rw [if_pos hack]
    exact hhear.trans ((Move.ack _ now _).moves (by decide))
  · rw [if_neg hack]
    exact hhear

theorem drainParked_moves (fuel next : ℕ) : Moves [.receive] s (s.drainParked fuel next) := by
  induction fuel generalizing next s with
  | zero => exact .refl s
  | succ fuel ih =>
    unfold drainParked
    split
    · exact .refl s
    · exact (Move.receive s _ _ _ _ _ _ _ [_]).then (by decide) (ih _)

/-- A change to the received window that hands nothing on. -/
theorem Move.window (s : Udp) (received : List ℕ) (ack : ℕ) (established enableAck : Bool)
    (owed : ℕ) (cursor : Option ℕ) (parked : Dict ℕ Packet) : Move .receive s { s with
      receivedPackets := received
      ackNumber := ack
      rxEstablished := established
      enableAck := enableAck
      acksOwed := owed
      deliverNext := cursor
      parked := parked } := by
  have h := Move.receive s received ack established enableAck owed cursor parked []
  rwa [List.append_nil] at h

theorem gate_moves (p : Packet) : Moves [.receive] s (s.gate p).2 := by
  unfold gate
  dsimp only
  split
  · exact .refl s
  · split
    · exact (Move.window s _ _ _ _ _ _ _).moves (by decide)
    · split
      · split
        · exact (Move.window s _ _ _ _ _ _ _).moves (by decide)
        · exact (Move.receive s _ _ _ _ _ _ _ [_]).then (by decide) (drainParked_moves _ _)
      · split
        · exact .refl s
        · split
          · exact (Move.window s _ _ _ _ _ _ _).moves (by decide)
          · exact (Move.window s _ _ _ _ _ _ _).moves (by decide)

theorem updateAckNumber_moves (p : Packet) : Moves [.receive] s (s.updateAckNumber p) := by
  unfold updateAckNumber
  split
  · exact (Move.window s _ _ _ _ _ _ _).moves (by decide)
  · exact (Move.window s _ _ _ _ _ _ _).moves (by decide)

theorem oweAck_moves (p : Packet) : Moves [.receive] s (s.oweAck p) := by
  unfold oweAck
  split
  · exact (Move.window s _ _ _ _ _ _ _).moves (by decide)
  · exact .refl s

/-- What a packet heard does to the received window. -/
theorem heard_moves (p : Packet) :
    Moves [.receive] (s.hear now p) (s.receiveHeard now p).2 := by
  unfold receiveHeard
  dsimp only
  split
  · dsimp only
    split
    · exact (Move.window _ _ _ _ _ _ _ _).moves (by decide)
    · exact .refl _
  · refine Moves.trans ?_ (gate_moves p)
    refine Moves.trans ?_ (oweAck_moves p)
    refine Moves.trans ?_ (updateAckNumber_moves p)
    exact (Move.window _ _ _ _ _ _ _ _).moves (by decide)

theorem receiveHeard_moves (p : Packet) :
    Moves [.hear, .ack, .receive] s (s.receiveHeard now p).2 :=
  ((hear_moves now p).mono (by decide)).trans ((heard_moves now p).mono (by decide))

theorem receivePacketLow_moves (fromPeer : Bool) (raw : Bytes) :
    Moves [.resend, .hear, .ack, .receive] s
      (s.receivePacketLow socket now fromPeer raw).2.2 := by
  unfold receivePacketLow
  split
  · exact .refl s
  · split
    · exact .refl s
    · split
      · exact .refl s
      · split
        · rename_i p _ _ _
          have hresend := @retransmitFrom_moves socket s p.retransmissionRequest
          refine (hresend.mono (by decide)).trans ?_
          dsimp only
          split
          · exact .refl _
          · exact (receiveHeard_moves now _).mono (by decide)
        · exact (receiveHeard_moves now _).mono (by decide)

theorem flushAck_moves : Moves [.receive, .note] s (s.flushAck socket now).2 := by
  unfold flushAck
  split
  · exact .refl s
  · have hack : s.ackPacket.has flagAck = true := by simp [ackPacket, Packet.has, flagAck]
    refine Moves.trans ?_ ((sendPacketLow_note socket now hack).mono (by decide))
    exact (Move.window s _ _ _ _ 0 _ _).moves (by decide)

theorem handOn_moves (r : LowResult) : Moves [.receive] s (s.handOn r) := by
  cases r with
  | packet p => exact (Move.receive s _ _ _ _ _ _ _ [_]).moves (by decide)
  | _ => exact .refl s

theorem drainDatagrams_moves (datagrams : List (Bool × Bytes)) :
    Moves [.resend, .hear, .ack, .receive, .note] s
      (s.drainDatagrams socket now datagrams).2 := by
  induction datagrams generalizing s with
  | nil => exact .refl s
  | cons d rest ih =>
    unfold drainDatagrams
    refine ((receivePacketLow_moves socket now d.1 d.2).mono (by decide)).trans ?_
    dsimp only
    split
    · exact .refl _
    · refine ((handOn_moves (s.receivePacketLow socket now d.1 d.2).2.1).mono
        (by decide)).trans ?_
      split
      · refine ((flushAck_moves socket now).mono (by decide)).trans ?_
        split
        · exact .refl _
        · exact ih
      · exact ih

theorem drainSocket_moves (datagrams : List (Bool × Bytes)) :
    Moves [.resend, .hear, .ack, .receive, .note] s (s.drainSocket socket now datagrams).2 :=
  (drainDatagrams_moves socket now _).trans ((flushAck_moves socket now).mono (by decide))

/-! ## The UDP thread -/

theorem endThread_moves (r : Bool × Udp) : Moves [.thread] r.2 (endThread r) := by
  unfold endThread
  split
  · exact (Move.thread r.2 _ [_]).moves (by decide)
  · exact .refl _

theorem silence_moves : Moves [.state, .reset, .number, .note, .queue, .thread] s
    (s.silence socket now) := by
  refine (Move.closed s).then (by decide) ?_
  refine ((connect_moves socket now true).mono (by decide)).trans ?_
  exact (Move.thread _ _ [_]).moves (by decide)

theorem takeQueued_moves : Moves [.queue, .number, .note, .thread] s
    (s.takeQueued socket now) := by
  unfold takeQueued
  split
  · exact .refl s
  · rename_i p rest _
    refine (Move.queue s s.sendQueue s.queueEnabled rest).then (by decide) ?_
    refine ((sendOnUdpThread_moves socket now p).mono (by decide)).trans ?_
    dsimp only
    split
    · exact (Move.thread _ _ [_, _]).moves (by decide)
    · exact .refl _

/-! ## The protocol's thread -/

theorem queueTrigger_moves (aggressive : Bool) :
    Moves [.queue] s (s.queueTrigger aggressive).2 := by
  unfold queueTrigger
  split
  · exact (Move.queue s _ _ _).moves (by decide)
  · split
    · exact (Move.queue s _ _ _).moves (by decide)
    · exact .refl s

theorem handshake_moves (p : Packet) (hsyn : s.state = .synSent) :
    Moves [.queue, .state] s (s.handshake p).2 := by
  unfold handshake
  split
  · exact .refl s
  · split
    · exact .refl s
    · split
      · exact (Move.flags s _ _ _ _).moves (by decide)
      · dsimp only
        split
        · exact (Move.established hsyn).then (by decide) ((Move.queue _ _ _ _).moves (by decide))
        · exact (Move.queue _ _ _ _).moves (by decide)

theorem receiveData_moves (aggressive : Bool) (p : Packet) :
    Moves [.queue, .state] s (s.receiveData aggressive p).2 := by
  unfold receiveData
  split
  · rename_i hsyn
    exact (Move.flags s s.markNextConnected s.enableAck true s.refused).then (by decide)
      (handshake_moves p hsyn)
  · split
    · dsimp only
      refine Moves.trans ?_ ((queueTrigger_moves aggressive).mono (by decide))
      split
      · exact .refl s
      · exact (Move.flags s s.markNextConnected true s.hadTraffic s.refused).then (by decide)
          ((Move.queue _ _ _ _).moves (by decide))
    · exact .refl s
  · exact .refl s

/-- The packet put aside, or not. -/
theorem stash_moves (stashed : Option Packet) :
    Moves [.take] s { s with stashedPacket := stashed } :=
  (Move.take s _ stashed).moves (by decide)

theorem receiveTaken_moves (aggressive : Bool) (p : Packet) :
    Moves [.take, .queue, .state] s (s.receiveTaken aggressive p).2 := by
  unfold receiveTaken
  split
  · exact (Move.flags s false s.enableAck s.hadTraffic s.refused).then (by decide)
      ((stash_moves _).mono (by decide))
  · split
    · refine ((queueTrigger_moves aggressive).mono (by decide)).trans ?_
      dsimp only
      split
      · exact (stash_moves _).mono (by decide)
      · exact (receiveData_moves aggressive p).mono (by decide)
    · exact (receiveData_moves aggressive p).mono (by decide)

theorem receiveDisconnected_moves :
    Moves [.queue, .state, .reset, .number, .note] s (s.receiveDisconnected socket now).2 := by
  unfold receiveDisconnected
  split
  · refine (Move.closed s).then (by decide) ?_
    exact (Move.flags _ s.markNextConnected s.enableAck false s.refused).then (by decide)
      ((connect_moves socket now false).mono (by decide))
  · exact .refl s

theorem receiveTurn_moves (aggressive : Bool) :
    Moves [.take, .queue, .state, .reset, .number, .note] s
      (s.receiveTurn socket now aggressive).2 := by
  unfold receiveTurn
  split
  · exact (Move.take s s.threadRecvQueue none).then (by decide)
      ((receiveTaken_moves aggressive _).mono (by decide))
  · exact .refl s
  · exact (Move.take s _ s.stashedPacket).then (by decide)
      ((receiveTaken_moves aggressive _).mono (by decide))
  · exact (Move.take s _ s.stashedPacket).then (by decide)
      ((receiveDisconnected_moves socket now).mono (by decide))
  · exact (Move.take s _ _).moves (by decide)

/-! ## A step -/

/-- The parts an event touches. -/
def UdpEvent.parts : UdpEvent → List Part
  | .drain _ => [.resend, .hear, .ack, .receive, .note, .thread]
  | .silence => [.state, .reset, .number, .note, .queue, .thread]
  | .resendTick => [.timer, .resend, .thread]
  | .takeQueued => [.queue, .number, .note, .thread]
  | .connect => [.reset, .number, .note, .queue, .state]
  | .receiveTurn => [.take, .queue, .state, .reset, .number, .note]
  | .sendPacket _ => [.number, .note, .queue]
  | .sendPacketLow _ => [.number, .note]
  | .queuePacket _ => [.queue]
  | .drainQueue => [.queue]
  | .wakeup => [.thread]
  | .markNextConnected => [.queue]
  | .closeSession => [.number, .note, .state]

/-- What a step does. -/
theorem step_parts (aggressive : Bool) (e : UdpEvent) :
    Moves e.parts s (step socket aggressive s (now, e)) := by
  cases e with
  | drain datagrams =>
    exact ((drainSocket_moves socket now datagrams).mono (by simp [UdpEvent.parts])).trans
      ((endThread_moves _).mono (by simp [UdpEvent.parts]))
  | silence => exact silence_moves socket now
  | resendTick =>
    exact ((resendUnacked_moves socket now).mono (by decide)).trans
      ((endThread_moves _).mono (by decide))
  | takeQueued => exact takeQueued_moves socket now
  | connect => exact connect_moves socket now false
  | receiveTurn => exact receiveTurn_moves socket now aggressive
  | sendPacket p => exact sendPacket_moves socket now false p
  | sendPacketLow p => exact sendPacketLow_moves socket now p
  | queuePacket p => exact (Move.queue s _ _ _).moves (List.mem_singleton_self _)
  | drainQueue =>
    show Moves _ s s.drainQueue
    unfold drainQueue
    split
    · exact .refl s
    · exact (Move.queue s _ _ _).moves (by decide)
  | wakeup => exact (Move.thread s _ [_]).moves (by decide)
  | markNextConnected => exact (Move.flags s _ _ _ _).moves (by decide)
  | closeSession =>
    show Moves _ s (s.closeSession socket now)
    unfold closeSession
    split
    · exact .refl s
    · refine ((sendPacketLow_moves socket now byePacket).mono (by decide)).trans ?_
      exact (Move.closed _).moves (by decide)

end Udp

end Bmdwire
