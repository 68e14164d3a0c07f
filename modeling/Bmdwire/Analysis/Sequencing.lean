import Bmdwire.Interface.UdpMoves

/-!
# The numbers of reliable packets, and what is sent again

Whatever moves a transport, its sending state changes by `SendMove`s: a packet is numbered
and buffered, a buffered one is marked as resent, or the session is reset. From these, in
every run, the reliable packets of a session bear consecutive numbers, and the
buffer holds the last 4096 of them (`numbered_reachable`). `retransmitFrom_spec` is what a
request is answered with.
-/

set_option autoImplicit false

namespace Bmdwire

open Library (Dict)

/-! ## Copies -/

/-- A buffered packet is the one sent, perhaps marked as resent. -/
def Packet.CopyOf (q p : Packet) : Prop := q = p ∨ q = p.retransmitted

theorem Packet.retransmitted_retransmitted (p : Packet) :
    p.retransmitted.retransmitted = p.retransmitted := by
  unfold Packet.retransmitted
  dsimp only
  rw [Nat.or_assoc, Nat.or_self]

theorem Packet.CopyOf.retransmitted {q p : Packet} (h : q.CopyOf p) :
    q.retransmitted = p.retransmitted := by
  rcases h with rfl | rfl
  · rfl
  · exact p.retransmitted_retransmitted

namespace Udp

/-! ## What happens to the sending state -/

/-- The changes to the sending state. -/
inductive SendMove : Udp → Udp → Prop
  | other {s t : Udp} : t.localSequenceNumber = s.localSequenceNumber →
      t.retransmissionBuffer = s.retransmissionBuffer → t.log = s.log → SendMove s t
  | begin {s : Udp} : s.localSequenceNumber = -1 → SendMove s { s with localSequenceNumber := 0 }
  | note (s : Udp) {a : NetAct} : a ≠ .reset → a.numbered? = none → SendMove s (s.note a)
  | number {s : Udp} {a : NetAct} (now : Time) {p : Packet} : a ≠ .reset →
      a.numbered? = some p → s.localSequenceNumber ≠ -1 →
      p.sequenceNumber = s.nextSequenceNumber →
      SendMove s ((s.note a).buffer now p)
  | mark {s : Udp} {n : ℕ} {p : Packet} : s.retransmissionBuffer.get? n = some p →
      SendMove s (s.mark n p)
  | reset (s : Udp) (now : Time) : SendMove s (s.resetSession now)

/-- Any number of changes. -/
def SendMoves : Udp → Udp → Prop := Relation.ReflTransGen SendMove

/-- What every change keeps, any number of changes keeps. -/
theorem SendMoves.keep {P : Udp → Prop} (hP : ∀ s t, SendMove s t → P s → P t) {s t : Udp}
    (h : SendMoves s t) (hs : P s) : P t := by
  induction h with
  | refl => exact hs
  | tail _ hm ih => exact hP _ _ hm ih

theorem SendMoves.refl (s : Udp) : SendMoves s s := Relation.ReflTransGen.refl

theorem SendMoves.trans {s t u : Udp} (h : SendMoves s t) (h' : SendMoves t u) : SendMoves s u :=
  Relation.ReflTransGen.trans h h'

theorem SendMove.moves {s t : Udp} (h : SendMove s t) : SendMoves s t :=
  Relation.ReflTransGen.single h

/-- A change that sending does not look at. -/
theorem sendMoves_other {s t : Udp} (hseq : t.localSequenceNumber = s.localSequenceNumber)
    (hbuffer : t.retransmissionBuffer = s.retransmissionBuffer) (hlog : t.log = s.log) :
    SendMoves s t := (SendMove.other hseq hbuffer hlog).moves

/-- What a change to any part does to the sending state. -/
theorem Move.sendMoves {part : Part} {s t : Udp} (h : Move part s t) : SendMoves s t := by
  cases h with
  | begin h => exact (SendMove.begin h).moves
  | number now ha hnum hne hp => exact (SendMove.number now ha hnum hne hp).moves
  | note _ ha hnum => exact (SendMove.note s ha hnum).moves
  | mark hp => exact (SendMove.mark hp).moves
  | resent _ p => exact (SendMove.note s (by simp) rfl).moves
  | ack _ now number =>
    unfold onAck
    split
    · exact .refl s
    · exact sendMoves_other rfl rfl rfl
  | reset now _ =>
    have hstart : SendMoves s { s with threadAlive := true } := sendMoves_other rfl rfl rfl
    exact hstart.trans (SendMove.reset { s with threadAlive := true } now).moves
  | _ => exact sendMoves_other rfl rfl rfl

/-- What a step does to the sending state. -/
theorem step_moves {socket : Socket} {now : Time} {s : Udp} (aggressive : Bool) (e : UdpEvent) :
    SendMoves s (step socket aggressive s (now, e)) := by
  apply (step_parts socket now aggressive e).keep (P := SendMoves s) ?_ (.refl s)
  intro part _ t u hm h
  exact h.trans hm.sendMoves

/-! ## The numbers and the buffer -/

/-- The sending state against the reliable packets of the session: the last number is how
many there are, each bears the number of its place, and the buffer holds the last 4096 of
them. All numbers are below `2 ^ 15`. -/
structure Numbering (s : Udp) (sent : List Packet) : Prop where
  last : s.localSequenceNumber = -1 ∧ sent = [] ∨ s.localSequenceNumber = sent.length % 0x8000
  numbers : ∀ i p, sent[i]? = some p → p.sequenceNumber = (i + 1) % 0x8000
  buffered : ∀ n q, s.retransmissionBuffer.get? n = some q → ∃ i p, sent[i]? = some p ∧
    sent.length ≤ i + retransmitWindow ∧ n = (i + 1) % 0x8000 ∧ q.CopyOf p
  kept : ∀ i p, sent[i]? = some p → sent.length ≤ i + retransmitWindow →
    ∃ q, s.retransmissionBuffer.get? ((i + 1) % 0x8000) = some q

namespace Numbering

variable {s : Udp} {sent : List Packet}

/-- Two places of the window with one number are the same. -/
theorem place_unique {i j n : ℕ} (hi : i < n) (hj : j < n) (hiw : n ≤ i + retransmitWindow)
    (hjw : n ≤ j + retransmitWindow) (h : (i + 1) % 0x8000 = (j + 1) % 0x8000) : i = j := by
  unfold retransmitWindow at *
  omega

/-- The packet at a place of the window is buffered under its number. -/
theorem get?_place (h : Numbering s sent) {i : ℕ} {p : Packet} (hp : sent[i]? = some p)
    (hw : sent.length ≤ i + retransmitWindow) :
    ∃ q, s.retransmissionBuffer.get? ((i + 1) % 0x8000) = some q ∧ q.CopyOf p := by
  obtain ⟨q, hq⟩ := h.kept i p hp hw
  obtain ⟨j, p', hp', hw', hn, hcopy⟩ := h.buffered _ q hq
  obtain ⟨hi, -⟩ := List.getElem?_eq_some_iff.mp hp
  obtain ⟨hj, -⟩ := List.getElem?_eq_some_iff.mp hp'
  obtain rfl := place_unique hi hj hw hw' hn
  rw [hp] at hp'
  cases hp'
  exact ⟨q, hq, hcopy⟩

/-- The next packet is put at the end, and the one it pushes out of the window forgotten. -/
theorem buffer {now : Time} {p : Packet} (h : Numbering s sent) (hne : s.localSequenceNumber ≠ -1)
    (hp : p.sequenceNumber = s.nextSequenceNumber) :
    Numbering (s.buffer now p) (sent ++ [p]) := by
  have hlast : s.localSequenceNumber = sent.length % 0x8000 :=
    h.last.resolve_left fun h => hne h.1
  have hnext : s.nextSequenceNumber = (sent.length + 1) % 0x8000 := by
    unfold nextSequenceNumber
    omega
  have hgone : seqDist s.nextSequenceNumber retransmitWindow =
      (sent.length + 1 + 0x7000) % 0x8000 := by
    unfold seqDist retransmitWindow
    omega
  have hget : ∀ n, (s.buffer now p).retransmissionBuffer.get? n =
      if n = (sent.length + 1 + 0x7000) % 0x8000 then none
      else if n = (sent.length + 1) % 0x8000 then some p else s.retransmissionBuffer.get? n := by
    intro n
    rw [← hgone, ← hnext]
    rfl
  refine ⟨?_, ?_, ?_, ?_⟩
  · right
    show ((s.nextSequenceNumber : ℕ) : ℤ) = _
    rw [hnext, List.length_append]
    simp
  · intro i q hq
    rcases Nat.lt_trichotomy i sent.length with hlt | rfl | hgt
    · apply h.numbers i q
      rwa [List.getElem?_append_left hlt] at hq
    · rw [List.getElem?_concat_length] at hq
      cases hq
      rw [hp, hnext]
    · rw [List.getElem?_eq_none (by simp; omega)] at hq
      cases hq
  · intro n q hq
    rw [hget] at hq
    split at hq
    · cases hq
    · rename_i hold
      split at hq
      · rename_i hn
        cases hq
        refine ⟨sent.length, p, List.getElem?_concat_length, ?_, hn, Or.inl rfl⟩
        simp [retransmitWindow]
      · obtain ⟨i, p', hp', hw, hn, hcopy⟩ := h.buffered n q hq
        obtain ⟨hi, -⟩ := List.getElem?_eq_some_iff.mp hp'
        refine ⟨i, p', ?_, ?_, hn, hcopy⟩
        · rwa [List.getElem?_append_left hi]
        · rw [List.length_append, List.length_singleton]
          unfold retransmitWindow at *
          omega
  · intro i q hq hw
    rw [List.length_append, List.length_singleton] at hw
    rw [hget]
    have hi : i < sent.length + 1 := by
      obtain ⟨hi, -⟩ := List.getElem?_eq_some_iff.mp hq
      simpa using hi
    have hin : (i + 1) % 0x8000 ≠ (sent.length + 1 + 0x7000) % 0x8000 := by
      unfold retransmitWindow at hw
      omega
    rw [if_neg hin]
    split
    · exact ⟨p, rfl⟩
    · rename_i hne
      have hlt : i < sent.length := by
        rcases Nat.lt_succ_iff_lt_or_eq.mp hi with hlt | rfl
        · exact hlt
        · exact absurd rfl hne
      rw [List.getElem?_append_left hlt] at hq
      apply h.kept i q hq
      omega

/-- A packet marked as resent stays a copy of the one sent. -/
theorem mark (h : Numbering s sent) {n : ℕ} {p : Packet}
    (hp : s.retransmissionBuffer.get? n = some p) : Numbering (s.mark n p) sent := by
  have hget : ∀ m, (s.mark n p).retransmissionBuffer.get? m =
      if m = n then some p.retransmitted else s.retransmissionBuffer.get? m := fun _ => rfl
  refine ⟨h.last, h.numbers, ?_, ?_⟩
  · intro m q hq
    rw [hget] at hq
    split at hq
    · rename_i hm
      cases hq
      obtain ⟨i, p', hp', hw, hn, hcopy⟩ := h.buffered n p hp
      exact ⟨i, p', hp', hw, hm.trans hn, Or.inr hcopy.retransmitted⟩
    · exact h.buffered m q hq
  · intro i q hq hw
    rw [hget]
    split
    · exact ⟨_, rfl⟩
    · exact h.kept i q hq hw

end Numbering

/-- Every change keeps the numbers and the buffer in step with the log. -/
theorem SendMove.numbering {s t : Udp} (hm : SendMove s t)
    (h : Numbering s (sessionSent s.log)) : Numbering t (sessionSent t.log) := by
  cases hm with
  | other hseq hbuffer hlog =>
    rw [hlog]
    exact ⟨by rw [hseq]; exact h.last, h.numbers, by rw [hbuffer]; exact h.buffered,
      by rw [hbuffer]; exact h.kept⟩
  | begin hseq =>
    have hsent : sessionSent s.log = [] := by
      rcases h.last with h | h
      · exact h.2
      · omega
    exact ⟨Or.inr (by simp [hsent]), h.numbers, h.buffered, h.kept⟩
  | note ha hnum =>
    rename_i a
    have hlog : sessionSent (s.note a).log = sessionSent s.log := by
      rw [Udp.note, sessionSent_cons ha, hnum, Option.toList_none, List.append_nil]
    rw [hlog]
    exact ⟨h.last, h.numbers, h.buffered, h.kept⟩
  | @number a now p ha hnum hne hp =>
    have hlog : sessionSent ((s.note a).buffer now p).log = sessionSent s.log ++ [p] := by
      show sessionSent (a :: s.log) = _
      rw [sessionSent_cons ha, hnum, Option.toList_some]
    rw [hlog]
    have hnote : Numbering (s.note a) (sessionSent s.log) :=
      ⟨h.last, h.numbers, h.buffered, h.kept⟩
    exact hnote.buffer hne hp
  | mark hp => exact h.mark hp
  | reset now => exact ⟨Or.inl ⟨rfl, rfl⟩, by simp [sessionSent, resetSession, Udp.note],
      by simp [resetSession, Udp.note], by simp [sessionSent, resetSession, Udp.note]⟩

/-- In every run the reliable packets of the session bear consecutive numbers and the buffer
holds the last 4096 of them. -/
theorem numbered_reachable {socket : Socket} {aggressive : Bool} {s : Udp}
    (h : Reachable socket aggressive s) : Numbering s (sessionSent s.log) := by
  apply Library.Reach.invariant (P := fun s => Numbering s (sessionSent s.log)) _ _ h
  · rintro s ⟨now, rfl⟩
    exact ⟨Or.inr rfl, by simp [sessionSent, fresh], by simp [fresh],
      by simp [sessionSent, fresh]⟩
  · intro s a _ hs _
    exact (step_moves aggressive a.2).keep (fun _ _ hm h => hm.numbering h) hs

/-! ## What a request is answered with -/

/-- The packets a request is owed, as they go out: of the first 128 numbers from the one
requested to the last, those of the session. A request as far back as the window, or further,
is owed nothing. -/
def owed (s : Udp) (requestSeq : ℕ) : List Packet :=
  let sent := sessionSent s.log
  let span := seqDist s.localSequenceNumber requestSeq
  if span ≥ retransmitWindow then []
  else ((sent.drop (sent.length - (span + 1))).take
    (retransmitMaxBurst - (span + 1 - sent.length))).map Packet.retransmitted

/-- The packets go out in order, up to one that no longer serialises or that the socket
refuses. -/
def Resent (socket : Socket) (owed : List Packet) (s : Udp) (r : Bool × Udp) : Prop :=
  ∃ out rest, owed = out ++ rest ∧ r.2.log = (out.map NetAct.resend).reverse ++ s.log ∧
    (rest = [] ∨ ∃ p rest', rest = p :: rest' ∧ (p.toBytes = none ∨
      ∃ calls e, sendtoFrom socket (sendRetries - 1) calls = (.error e, r.2.calls)))

theorem resent_nil (socket : Socket) (s : Udp) (b : Bool) : Resent socket [] s (b, s) :=
  ⟨[], [], rfl, rfl, Or.inl rfl⟩

/-- One more packet went out first. -/
theorem Resent.cons {socket : Socket} {owed : List Packet} {p : Packet} {s t : Udp}
    {r : Bool × Udp} (h : Resent socket owed t r) (ht : t.log = .resend p :: s.log) :
    Resent socket (p :: owed) s r := by
  obtain ⟨out, rest, rfl, hlog, hrest⟩ := h
  refine ⟨p :: out, rest, rfl, ?_, hrest⟩
  rw [hlog, ht]
  simp

/-- A packet did not go out. -/
theorem Resent.stop {socket : Socket} {owed : List Packet} {p : Packet} {s : Udp}
    {r : Bool × Udp} (hlog : r.2.log = s.log) (h : p.toBytes = none ∨
      ∃ calls e, sendtoFrom socket (sendRetries - 1) calls = (.error e, r.2.calls)) :
    Resent socket (p :: owed) s r :=
  ⟨[], p :: owed, rfl, hlog, Or.inr ⟨p, owed, rfl, h⟩⟩

/-- The loop, with `left` numbers from the one it is at to the last. -/
theorem resendFrom_spec {socket : Socket} {sent : List Packet} (count : ℕ) {left seq : ℕ}
    {s : Udp} (h : Numbering s sent) (hcount : count ≤ left) (hleft : left ≤ retransmitWindow)
    (hseq : sent ≠ [] → seq = (sent.length + 1 + 0x8000 - left) % 0x8000) :
    Resent socket (((sent.drop (sent.length - left)).take
      (count - (left - sent.length))).map Packet.retransmitted) s
      (s.resendFrom socket count seq) := by
  induction count generalizing left seq s with
  | zero =>
    rw [Nat.zero_sub, List.take_zero]
    exact resent_nil socket s false
  | succ count ih =>
    have hnext : sent ≠ [] → (seq + 1) % 0x8000 =
        (sent.length + 1 + 0x8000 - (left - 1)) % 0x8000 := by
      intro hne
      have := hseq hne
      unfold retransmitWindow at hleft
      omega
    unfold resendFrom
    rcases Nat.lt_or_ge sent.length left with hbefore | hwithin
    · -- a number before the first of the session
      have hnone : s.retransmissionBuffer.get? seq = none := by
        cases hq : s.retransmissionBuffer.get? seq with
        | none => rfl
        | some q =>
          obtain ⟨i, p, hp, hw, hn, -⟩ := h.buffered seq q hq
          obtain ⟨hi, -⟩ := List.getElem?_eq_some_iff.mp hp
          have hne : sent ≠ [] := List.ne_nil_of_length_pos (by omega)
          have := hseq hne
          unfold retransmitWindow at *
          omega
      rw [hnone]
      have hdrop : sent.length - left = sent.length - (left - 1) := by omega
      have htake : count + 1 - (left - sent.length) = count - (left - 1 - sent.length) := by omega
      rw [hdrop, htake]
      exact ih h (by omega) (by omega) hnext
    · have hlt : sent.length - left < sent.length := by omega
      obtain ⟨p, hp⟩ : ∃ p, sent[sent.length - left]? = some p :=
        ⟨_, List.getElem?_eq_getElem hlt⟩
      have hplace : seq = (sent.length - left + 1) % 0x8000 := by
        have := hseq (List.ne_nil_of_length_pos (by omega))
        unfold retransmitWindow at hleft
        omega
      obtain ⟨q, hq, hcopy⟩ := h.get?_place hp (by omega)
      rw [← hplace] at hq
      have hdrop : sent.drop (sent.length - left) = p :: sent.drop (sent.length - (left - 1)) := by
        rw [List.drop_eq_getElem_cons hlt]
        have hsucc : sent.length - left + 1 = sent.length - (left - 1) := by omega
        rw [hsucc]
        congr
        exact Option.some.inj ((List.getElem?_eq_getElem hlt).symm.trans hp)
      have htake : count + 1 - (left - sent.length) = count - (left - 1 - sent.length) + 1 := by
        omega
      rw [hdrop, htake, List.take_succ_cons, List.map_cons, hq, ← hcopy.retransmitted]
      dsimp only
      split
      · rename_i hbytes
        exact Resent.stop rfl (Or.inl hbytes)
      · split
        · have hmark : Numbering (((s.mark seq q).called socket).note (.resend q.retransmitted))
              sent := by
            have := h.mark hq
            exact ⟨this.last, this.numbers, this.buffered, this.kept⟩
          exact (ih hmark (by omega) (by omega) hnext).cons rfl
        · rename_i e he
          refine Resent.stop rfl (Or.inr ⟨s.calls, e, ?_⟩)
          exact Prod.ext he rfl

/-- A request is answered with what it is owed. -/
theorem retransmitFrom_spec {socket : Socket} {s : Udp} (h : Numbering s (sessionSent s.log))
    (requestSeq : ℕ) :
    Resent socket (s.owed requestSeq) s (s.retransmitFrom socket requestSeq) := by
  unfold owed retransmitFrom
  dsimp only
  split
  · exact resent_nil socket s false
  · rename_i hspan
    have hloop := @resendFrom_spec socket _
      (min (seqDist s.localSequenceNumber requestSeq + 1) retransmitMaxBurst)
      (seqDist s.localSequenceNumber requestSeq + 1) (requestSeq % 0x8000) _ h
      (by omega) (by omega) ?_
    · convert hloop using 2
      apply List.take_eq_take_iff.mpr
      rw [List.length_drop]
      omega
    · intro hne
      have hlast := h.last.resolve_left fun h => hne h.2
      rw [hlast] at hspan ⊢
      unfold seqDist retransmitWindow at *
      omega

/-- The session's packets are numbered in order and the last 4096 buffered, and a request gets
the packets it is owed, up to one that does not go out. -/
theorem requests_answered {socket : Socket} {aggressive : Bool} {s : Udp}
    (h : Reachable socket aggressive s) :
    Numbering s (sessionSent s.log) ∧
      ∀ requestSeq, Resent socket (s.owed requestSeq) s (s.retransmitFrom socket requestSeq) :=
  ⟨numbered_reachable h, retransmitFrom_spec (numbered_reachable h)⟩

/-! ## A refused resend -/

/-- A reliable packet with two bytes of data. -/
def commandPacket (byte : UInt8) : Packet := { flags := flagReliable, data := some [byte, 0] }

/-- Two reliable packets of a session, sent after its SYN. -/
def twoSent (socket : Socket) : Udp :=
  Library.run (step socket false) (fresh 0)
    [(0, .connect), (0, .takeQueued), (0, .sendPacket (commandPacket 1)), (0, .takeQueued),
      (0, .sendPacket (commandPacket 2)), (0, .takeQueued)]

/-- A socket that refuses its fifth packet. -/
def fifthRefused : Socket := fun n => if n = 4 then .refused .ehostunreach else .sent 0

theorem twoSent_reachable : Reachable fifthRefused false (twoSent fifthRefused) := by
  have hstart : Reachable fifthRefused false (fresh 0) := .start ⟨0, rfl⟩
  apply hstart.run
  decide

/-- Both packets of the session are asked for and buffered, and the first is all that is sent
again: the socket refuses the second. -/
theorem refused_resend_stops : Reachable fifthRefused false (twoSent fifthRefused) ∧
    (twoSent fifthRefused).retransmissionBuffer.keys = [1, 2] ∧
    ((twoSent fifthRefused).owed 1).length = 2 ∧
    ∃ p, ((twoSent fifthRefused).retransmitFrom fifthRefused 1).2.log =
      .resend p :: (twoSent fifthRefused).log :=
  ⟨twoSent_reachable, by decide, by decide, _, rfl⟩

/-- In that run the numbers and the buffer are in order all the same. -/
theorem requests_answered_twoSent :
    Numbering (twoSent fifthRefused) (sessionSent (twoSent fifthRefused).log) ∧
      ∀ requestSeq, Resent fifthRefused ((twoSent fifthRefused).owed requestSeq)
        (twoSent fifthRefused) ((twoSent fifthRefused).retransmitFrom fifthRefused requestSeq) :=
  requests_answered twoSent_reachable

end Udp

end Bmdwire
