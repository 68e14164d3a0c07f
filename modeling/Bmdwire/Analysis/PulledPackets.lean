import Bmdwire.Interface.UdpMoves
import Bmdwire.Program.UdpPump

/-!
# A packet pulled is a packet returned

`pumps_eq` says that the looks of `receive_packet` make up its turns, and `step_leaves` what
other threads do to the packets meanwhile: nothing, but for a new session. So a packet pulled is
at all times returned, in hand or put aside (`Kept`), and one look after the other brings it
closer to being returned (`owed`).
-/

set_option autoImplicit false

namespace Bmdwire

open Library (Reach OkAlong)

namespace Udp

/-! ## The looks of a turn -/

/-- Looks, one after the other, until the hands are empty. -/
def pumps (socket : Socket) (now : Time) (aggressive : Bool) :
    ℕ → Hand → Udp → Except Unit (Option RecvResult) × Udp
  | 0, _, s => (.ok none, s)
  | fuel + 1, hand, s =>
    let r := s.pump socket now aggressive hand
    match r.2.1 with
    | none => (r.1, r.2.2)
    | some held => pumps socket now aggressive fuel (some held) r.2.2

section Turns

variable {socket : Socket} {now : Time} {aggressive : Bool} {s s' : Udp} {hand : Hand}
variable {r : Except Unit (Option RecvResult)}

/-- A look, and then those that follow. -/
theorem pumps_more {held : Look × Packet} (fuel : ℕ)
    (h : s.pump socket now aggressive hand = (r, some held, s')) :
    pumps socket now aggressive (fuel + 1) hand s =
      pumps socket now aggressive fuel (some held) s' := by
  simp only [pumps, h]

/-- The last look. -/
theorem pumps_last (fuel : ℕ) (h : s.pump socket now aggressive hand = (r, none, s')) :
    pumps socket now aggressive (fuel + 1) hand s = (r, s') := by
  simp only [pumps, h]

/-- The packet put aside comes first. -/
theorem pump_stashed {p : Packet} (h : s.stashedPacket = some p) :
    s.pump socket now aggressive none =
      (.ok none, some (.mark, p), { s with stashedPacket := none }) := by
  unfold pump
  rw [h]

theorem pump_empty (h : s.stashedPacket = none) (hqueue : s.threadRecvQueue = []) :
    s.pump socket now aggressive none = (.ok none, none, s) := by
  unfold pump
  rw [h, hqueue]

/-- Then the first of the queue. -/
theorem pump_packet {p : Packet} {rest : List RecvItem} (h : s.stashedPacket = none)
    (hqueue : s.threadRecvQueue = .packet p :: rest) :
    s.pump socket now aggressive none =
      (.ok none, some (.mark, p), { s with threadRecvQueue := rest }) := by
  unfold pump
  rw [h, hqueue]

theorem pump_disconnected {rest : List RecvItem} (h : s.stashedPacket = none)
    (hqueue : s.threadRecvQueue = .disconnected :: rest) :
    s.pump socket now aggressive none =
      (({ s with threadRecvQueue := rest }.receiveDisconnected socket now).1, none,
        ({ s with threadRecvQueue := rest }.receiveDisconnected socket now).2) := by
  unfold pump
  rw [h, hqueue]

theorem pump_wakeup {rest : List RecvItem} (h : s.stashedPacket = none)
    (hqueue : s.threadRecvQueue = .wakeup :: rest) :
    s.pump socket now aggressive none =
      (.ok (some .wakeup), none, { s with threadRecvQueue := rest }) := by
  unfold pump
  rw [h, hqueue]

theorem pump_marked (p : Packet) (h : s.markNextConnected = true) :
    s.pump socket now aggressive (some (.mark, p)) = (.ok (some .connectionReady), none,
      { s with markNextConnected := false, stashedPacket := some p }) := if_pos h

theorem pump_unmarked (p : Packet) (h : s.markNextConnected = false) :
    s.pump socket now aggressive (some (.mark, p)) = (.ok none, some (.enableAck, p), s) :=
  if_neg (by rw [h]; simp)

theorem pump_enableAck (p : Packet) :
    s.pump socket now aggressive (some (.enableAck, p)) =
      (.ok none, some (if s.enableAck then .trigger else .synSent, p), s) := rfl

theorem pump_flushed (p : Packet) (h : (s.queueTrigger aggressive).1 = true) :
    s.pump socket now aggressive (some (.trigger, p)) = (.ok (some .transferQueueFlushed), none,
      { (s.queueTrigger aggressive).2 with stashedPacket := some p }) := if_pos h

theorem pump_triggered (p : Packet) (h : (s.queueTrigger aggressive).1 = false) :
    s.pump socket now aggressive (some (.trigger, p)) =
      (.ok none, some (.synSent, p), (s.queueTrigger aggressive).2) :=
  if_neg (by rw [h]; simp)

/-- A look at the state that finds it. -/
theorem pump_state (p : Packet) {look : Look}
    (h : look = .synSent ∧ s.state = .synSent ∨ look = .established ∧ s.state = .established) :
    s.pump socket now aggressive (some (look, p)) =
      ((s.receiveData aggressive p).1, none, (s.receiveData aggressive p).2) := by
  rcases h with ⟨rfl, h⟩ | ⟨rfl, h⟩
  · exact if_pos h
  · exact if_pos h

theorem pump_not_synSent (p : Packet) (h : s.state ≠ .synSent) :
    s.pump socket now aggressive (some (.synSent, p)) = (.ok none, some (.established, p), s) :=
  if_neg h

theorem pump_not_established (p : Packet) (h : s.state ≠ .established) :
    s.pump socket now aggressive (some (.established, p)) = (.ok none, none, s) := if_neg h

/-- The looks at the state. -/
theorem pumps_synSent (p : Packet) (fuel : ℕ) :
    pumps socket now aggressive (fuel + 2) (some (.synSent, p)) s = s.receiveData aggressive p := by
  by_cases hsyn : s.state = .synSent
  · exact pumps_last (fuel + 1) (pump_state p (.inl ⟨rfl, hsyn⟩))
  · rw [pumps_more (fuel + 1) (pump_not_synSent p hsyn)]
    by_cases hup : s.state = .established
    · exact pumps_last fuel (pump_state p (.inr ⟨rfl, hup⟩))
    · rw [pumps_last fuel (pump_not_established p hup)]
      unfold receiveData
      cases hstate : s.state with
      | synSent => exact absurd hstate hsyn
      | established => exact absurd hstate hup
      | _ => rfl

/-- The looks at a packet just taken. -/
theorem pumps_mark (p : Packet) :
    pumps socket now aggressive 5 (some (.mark, p)) s = s.receiveTaken aggressive p := by
  unfold receiveTaken
  cases hmark : s.markNextConnected with
  | true => exact pumps_last 4 (pump_marked p hmark)
  | false =>
    rw [pumps_more 4 (pump_unmarked p hmark), pumps_more 3 (pump_enableAck p)]
    cases s.enableAck with
    | true =>
      dsimp only
      cases hflushed : (s.queueTrigger aggressive).1 with
      | true => exact pumps_last 2 (pump_flushed p hflushed)
      | false =>
        rw [if_pos rfl, pumps_more 2 (pump_triggered p hflushed)]
        exact pumps_synSent p 0
    | false => exact pumps_synSent p 1

/-- A turn is its looks. -/
theorem pumps_eq : pumps socket now aggressive 6 none s = s.receiveTurn socket now aggressive := by
  unfold receiveTurn
  split
  · rename_i _ p hstash
    rw [pumps_more 5 (pump_stashed hstash)]
    exact pumps_mark p
  · rename_i hstash hqueue
    exact pumps_last 5 (pump_empty hstash hqueue)
  · rename_i p rest hstash hqueue
    rw [pumps_more 5 (pump_packet hstash hqueue)]
    exact pumps_mark p
  · rename_i rest hstash hqueue
    exact pumps_last 5 (pump_disconnected hstash hqueue)
  · rename_i rest hstash hqueue
    exact pumps_last 5 (pump_wakeup hstash hqueue)

end Turns

/-! ## What other threads leave alone -/

/-- The packet put aside is left alone, and items are put at the end of the queue. -/
def LeavesPackets (s t : Udp) : Prop :=
  t.stashedPacket = s.stashedPacket ∧ s.threadRecvQueue <+: t.threadRecvQueue

theorem LeavesPackets.trans {s t u : Udp} (h : LeavesPackets s t) (h' : LeavesPackets t u) :
    LeavesPackets s u :=
  ⟨h'.1.trans h.1, h.2.trans h'.2⟩

/-- Every part but a new session and the taking of packets leaves them alone. -/
theorem Move.leaves {part : Part} {s t : Udp} (h : Move part s t) (hreset : part ≠ .reset)
    (htake : part ≠ .take) : LeavesPackets s t := by
  cases h with
  | receive => exact ⟨rfl, List.prefix_append _ _⟩
  | thread => exact ⟨rfl, List.prefix_append _ _⟩
  | reset => exact absurd rfl hreset
  | take => exact absurd rfl htake
  | ack _ now number =>
    unfold onAck
    split
    · exact ⟨rfl, List.prefix_rfl⟩
    · exact ⟨rfl, List.prefix_rfl⟩
  | _ => exact ⟨rfl, List.prefix_rfl⟩

theorem Moves.leaves {parts : List Part} {s t : Udp} (h : Moves parts s t)
    (hreset : .reset ∉ parts) (htake : .take ∉ parts) : LeavesPackets s t := by
  apply h.keep (P := LeavesPackets s) ?_ ⟨rfl, List.prefix_rfl⟩
  intro part hpart a b hm ha
  exact ha.trans (hm.leaves (fun h => hreset (h ▸ hpart)) fun h => htake (h ▸ hpart))

/-- An event that is neither a turn of `receive_packet` nor a `connect` leaves them alone. -/
theorem step_leaves {socket : Socket} {aggressive : Bool} {s : Udp} (a : Time × UdpEvent)
    (hturn : a.2 ≠ .receiveTurn) (hconnect : a.2 ≠ .connect) (hsilence : a.2 ≠ .silence) :
    LeavesPackets s (step socket aggressive s a) := by
  obtain ⟨now, e⟩ := a
  have hparts : .reset ∉ e.parts ∧ .take ∉ e.parts := by
    cases e with
    | receiveTurn => exact absurd rfl hturn
    | connect => exact absurd rfl hconnect
    | silence => exact absurd rfl hsilence
    | _ => simp [UdpEvent.parts]
  exact (step_parts socket now aggressive e).leaves hparts.1 hparts.2

/-! ## What a look leaves alone -/

/-- The receive queue and the packet put aside are as they were. -/
def SamePackets (s t : Udp) : Prop :=
  t.stashedPacket = s.stashedPacket ∧ t.threadRecvQueue = s.threadRecvQueue

/-- The flags and the state change by themselves. -/
theorem Moves.same {s t : Udp} (h : Moves [.queue, .state] s t) : SamePackets s t := by
  apply h.keep (P := SamePackets s) ?_ ⟨rfl, rfl⟩
  rintro part hpart a b hm ⟨hstash, hqueue⟩
  cases hm with
  | called => exact ⟨hstash, hqueue⟩
  | closed => exact ⟨hstash, hqueue⟩
  | synSent => exact ⟨hstash, hqueue⟩
  | established => exact ⟨hstash, hqueue⟩
  | queue => exact ⟨hstash, hqueue⟩
  | flags => exact ⟨hstash, hqueue⟩
  | _ => simp at hpart

/-- A packet in established state that is data is returned. -/
theorem receiveData_data {aggressive : Bool} {p : Packet} {s : Udp} (hup : s.state = .established)
    (hdata : isData p = true) : s.receiveData aggressive p = (.ok (some (.packet p)), s) := by
  unfold receiveData
  rw [hup]
  exact if_neg (by simpa [isData] using hdata)

/-- No other packet is. -/
theorem receiveData_other {aggressive : Bool} {p : Packet} {s : Udp}
    (h : s.state = .synSent ∨ isData p = false) (q : Packet) :
    (s.receiveData aggressive p).1 ≠ .ok (some (.packet q)) := by
  unfold receiveData
  split
  · dsimp only
    split
    · simp
    · split <;> simp
  · rename_i hup
    have hlength : p.length = 12 := by
      rw [hup] at h
      simpa [isData] using h
    rw [if_pos hlength]
    dsimp only
    split <;> simp
  · simp

end Udp

namespace Pump

open Udp

/-! ## The packets kept -/

/-- The packet in hand, or put aside. -/
def held (m : Pump) : Option Packet :=
  match m.hand with
  | some (_, p) => some p
  | none => m.udp.stashedPacket

/-- A data packet that was pulled while the connection was established. -/
def counted (r : Packet × Bool) : Bool := isData r.1 && r.2

/-- Of the packet in hand or put aside, what is counted. -/
def holding (m : Pump) : List (Packet × Bool) :=
  (m.held.toList.map fun p => (p, m.whileUp)).filter counted

/-- The packets among the items of a queue. -/
def packets (items : List RecvItem) : List Packet :=
  items.filterMap fun
    | .packet p => some p
    | _ => none

theorem packets_append (items more : List RecvItem) :
    packets (items ++ more) = packets items ++ packets more :=
  List.filterMap_append

/-- A packet counted is returned, in hand, or put aside: each once, in the order in which they
were pulled. They are pulled in the order of the queue. -/
structure Kept (m : Pump) : Prop where
  kept : m.pulled.filter counted = m.returned.filter counted ++ m.holding
  order : packets m.arrived = m.pulled.map Prod.fst ++ packets m.udp.threadRecvQueue
  alone : m.hand ≠ none → m.udp.stashedPacket = none

/-- No `connect()`, and the connection is established when the loop looks at the state for a
packet counted. -/
def Ok (m : Pump) : PumpEvent → Prop
  | .look _ => m.reconnects = false ∧
    ∀ look p, m.hand = some (look, p) → look = .synSent ∨ look = .established →
      counted (p, m.whileUp) → m.udp.state = .established
  | .other t => LeavesPackets m.udp t

section Step

variable {socket : Socket} {now : Time} {aggressive : Bool} {m : Pump} {s : Udp} {hand : Hand}
variable {r : Except Unit (Option RecvResult)}

/-- A look that pulls nothing and returns no packet. -/
theorem step_look (hlook : m.udp.pump socket now aggressive m.hand = (r, hand, s))
    (hpulls : m.pulls = none) (hr : ∀ p, r ≠ .ok (some (.packet p))) :
    m.step socket aggressive (.look now) = { m with udp := s, hand := hand } := by
  unfold step
  dsimp only
  rw [hlook, hpulls]
  cases r with
  | error e => simp
  | ok o =>
    cases o with
    | none => simp
    | some result =>
      cases result with
      | packet p => exact absurd rfl (hr p)
      | _ => simp

/-- A look that returns a packet. -/
theorem step_return {p : Packet}
    (hlook : m.udp.pump socket now aggressive m.hand = (.ok (some (.packet p)), hand, s))
    (hpulls : m.pulls = none) :
    m.step socket aggressive (.look now) =
      { m with udp := s, hand := hand, returned := m.returned ++ [(p, m.whileUp)] } := by
  unfold step
  dsimp only
  rw [hlook, hpulls]
  simp

/-- A look that pulls a packet. -/
theorem step_pull {p : Packet}
    (hlook : m.udp.pump socket now aggressive m.hand = (.ok none, hand, s))
    (hpulls : m.pulls = some p) :
    m.step socket aggressive (.look now) =
      { m with
        udp := s
        hand := hand
        whileUp := m.udp.state = .established
        pulled := m.pulled ++ [(p, decide (m.udp.state = .established))] } := by
  unfold step
  dsimp only
  rw [hlook, hpulls]
  simp

/-- Nothing is pulled while there is a packet in hand. -/
theorem pulls_of_hand (h : m.hand ≠ none) : m.pulls = none := by
  unfold pulls
  cases hhand : m.hand with
  | none => exact absurd hhand h
  | some held => rfl

/-- A packet that is not lost by a look stays what is held. -/
theorem Kept.look (h : Kept m) (hqueue : packets s.threadRecvQueue = packets m.udp.threadRecvQueue)
    (hheld : { m with udp := s, hand := hand }.holding = m.holding)
    (halone : hand ≠ none → s.stashedPacket = none) : Kept { m with udp := s, hand := hand } := by
  refine ⟨?_, ?_, halone⟩
  · rw [hheld]
    exact h.kept
  · rw [hqueue]
    exact h.order

/-- A look with nothing in hand. -/
theorem Kept.top (h : Kept m) (hhand : m.hand = none) (hreconnects : m.reconnects = false) :
    Kept (m.step socket aggressive (.look now)) := by
  have hpump : ∀ {x}, m.udp.pump socket now aggressive none = x →
      m.udp.pump socket now aggressive m.hand = x := by
    intro x hx
    rw [hhand]
    exact hx
  cases hstash : m.udp.stashedPacket with
  | some p =>
    have hpulls : m.pulls = none := by
      unfold pulls
      rw [hhand, hstash]
    rw [step_look (hpump (pump_stashed hstash)) hpulls (by simp)]
    refine h.look rfl ?_ fun _ => rfl
    unfold holding held
    rw [hhand, hstash]
  | none =>
    cases hqueue : m.udp.threadRecvQueue with
    | nil =>
      have hpulls : m.pulls = none := by
        unfold pulls
        rw [hhand, hstash, hqueue]
      rw [step_look (hpump (pump_empty hstash hqueue)) hpulls (by simp)]
      refine h.look rfl ?_ fun _ => hstash
      unfold holding held
      rw [hhand]
    | cons item rest =>
      cases item with
      | packet p =>
        have hpulls : m.pulls = some p := by
          unfold pulls
          rw [hhand, hstash, hqueue]
        rw [step_pull (hpump (pump_packet hstash hqueue)) hpulls]
        have hnone : m.holding = [] := by
          unfold holding held
          rw [hhand, hstash]
          rfl
        refine ⟨?_, ?_, fun _ => hstash⟩
        · have hkept := h.kept
          rw [hnone, List.append_nil] at hkept
          rw [List.filter_append, hkept]
          rfl
        · have horder := h.order
          rw [hqueue] at horder
          rw [horder, List.map_append, List.append_assoc]
          rfl
      | disconnected =>
        have hpulls : m.pulls = none := by
          unfold pulls
          rw [hhand, hstash, hqueue]
        have hsame : { m.udp with threadRecvQueue := rest }.receiveDisconnected socket now =
            (.ok (some .none), { m.udp with threadRecvQueue := rest }) := by
          unfold reconnects at hreconnects
          rw [hhand, hstash, hqueue] at hreconnects
          exact if_neg (by simpa using hreconnects)
        have hlook := @pump_disconnected socket now aggressive _ _ hstash hqueue
        rw [hsame] at hlook
        rw [step_look (hpump hlook) hpulls (by simp)]
        refine h.look ?_ ?_ fun _ => hstash
        · rw [hqueue]
          rfl
        · unfold holding held
          rw [hhand]
      | wakeup =>
        have hpulls : m.pulls = none := by
          unfold pulls
          rw [hhand, hstash, hqueue]
        rw [step_look (hpump (pump_wakeup hstash hqueue)) hpulls (by simp)]
        refine h.look ?_ ?_ fun _ => hstash
        · rw [hqueue]
          rfl
        · unfold holding held
          rw [hhand]

/-- A look at a packet in hand that neither returns nor drops it. -/
theorem Kept.held (h : Kept m) {look : Look} {p : Packet} (hhand : m.hand = some (look, p))
    (hlook : m.udp.pump socket now aggressive m.hand = (r, hand, s))
    (hr : ∀ p, r ≠ .ok (some (.packet p)))
    (hqueue : s.threadRecvQueue = m.udp.threadRecvQueue)
    (hkeeps : hand = none ∧ s.stashedPacket = some p ∨
      (∃ next, hand = some (next, p)) ∧ s.stashedPacket = m.udp.stashedPacket) :
    Kept (m.step socket aggressive (.look now)) := by
  have hsome : m.hand ≠ none := by
    rw [hhand]
    simp
  rw [step_look hlook (pulls_of_hand hsome) hr]
  refine h.look (by rw [hqueue]) ?_ fun hne => ?_
  · unfold holding Pump.held
    rw [hhand]
    rcases hkeeps with ⟨rfl, hstash⟩ | ⟨⟨next, rfl⟩, -⟩
    · dsimp only
      rw [hstash]
    · rfl
  · rcases hkeeps with ⟨rfl, -⟩ | ⟨-, hstash⟩
    · exact absurd rfl hne
    · rw [hstash]
      exact h.alone hsome

/-- A look at a packet in hand that is done with it: it is returned, or not counted. -/
theorem Kept.done (h : Kept m) {look : Look} {p : Packet} (hhand : m.hand = some (look, p))
    (hlook : m.udp.pump socket now aggressive m.hand = (r, none, s)) (hsame : SamePackets m.udp s)
    (hr : r = .ok (some (.packet p)) ∨
      (∀ q, r ≠ .ok (some (.packet q))) ∧ counted (p, m.whileUp) = false) :
    Kept (m.step socket aggressive (.look now)) := by
  have hsome : m.hand ≠ none := by
    rw [hhand]
    simp
  have hholding : m.holding = [(p, m.whileUp)].filter counted := by
    unfold holding Pump.held
    rw [hhand]
    rfl
  have hnone : s.stashedPacket = none := hsame.1.trans (h.alone hsome)
  rcases hr with rfl | ⟨hr, hcounted⟩
  · rw [step_return hlook (pulls_of_hand hsome)]
    refine ⟨?_, ?_, fun hne => absurd rfl hne⟩
    · have hempty : { m with
          udp := s
          hand := none
          returned := m.returned ++ [(p, m.whileUp)] }.holding = [] := by
        unfold holding Pump.held
        dsimp only
        rw [hnone]
        rfl
      rw [hempty, List.append_nil, List.filter_append, ← hholding]
      exact h.kept
    · have horder := h.order
      rw [← hsame.2] at horder
      exact horder
  · rw [step_look hlook (pulls_of_hand hsome) hr]
    refine h.look (by rw [hsame.2]) ?_ fun hne => absurd rfl hne
    rw [hholding]
    unfold holding Pump.held
    dsimp only
    rw [hnone]
    simp [hcounted]

/-- Every look keeps the packets. -/
theorem Kept.step_look (h : Kept m) (hok : m.Ok (.look now)) :
    Kept (m.step socket aggressive (.look now)) := by
  obtain ⟨hreconnects, hup⟩ := hok
  cases hhand : m.hand with
  | none => exact h.top hhand hreconnects
  | some held =>
    obtain ⟨look, p⟩ := held
    have hpump : ∀ {x}, m.udp.pump socket now aggressive (some (look, p)) = x →
        m.udp.pump socket now aggressive m.hand = x := by
      intro x hx
      rw [hhand]
      exact hx
    have hsame := (@receiveData_moves m.udp aggressive p).same
    cases look with
    | mark =>
      cases hmark : m.udp.markNextConnected with
      | true =>
        exact h.held hhand (hpump (pump_marked p hmark)) (by simp) rfl (.inl ⟨rfl, rfl⟩)
      | false =>
        exact h.held hhand (hpump (pump_unmarked p hmark)) (by simp) rfl (.inr ⟨⟨_, rfl⟩, rfl⟩)
    | enableAck =>
      exact h.held hhand (hpump (pump_enableAck p)) (by simp) rfl (.inr ⟨⟨_, rfl⟩, rfl⟩)
    | trigger =>
      have htrigger : SamePackets m.udp (m.udp.queueTrigger aggressive).2 :=
        ((queueTrigger_moves aggressive).mono (by decide)).same
      cases hflushed : (m.udp.queueTrigger aggressive).1 with
      | true =>
        exact h.held hhand (hpump (pump_flushed p hflushed)) (by simp) htrigger.2
          (.inl ⟨rfl, rfl⟩)
      | false =>
        exact h.held hhand (hpump (pump_triggered p hflushed)) (by simp) htrigger.2
          (.inr ⟨⟨_, rfl⟩, htrigger.1⟩)
    | synSent =>
      by_cases hsyn : m.udp.state = .synSent
      · -- a packet counted is not looked at while our SYN is out
        have hcounted : counted (p, m.whileUp) = false := by
          apply Bool.eq_false_iff.mpr
          intro hcounted
          have := hup _ p hhand (.inl rfl) hcounted
          exact absurd (hsyn.symm.trans this) (by simp)
        exact h.done hhand (hpump (pump_state p (.inl ⟨rfl, hsyn⟩))) hsame
          (.inr ⟨receiveData_other (.inl hsyn), hcounted⟩)
      · exact h.held hhand (hpump (pump_not_synSent p hsyn)) (by simp) rfl
          (.inr ⟨⟨_, rfl⟩, rfl⟩)
    | established =>
      by_cases hstate : m.udp.state = .established
      · have hlook := @pump_state socket now aggressive _ p _ (.inr ⟨rfl, hstate⟩)
        cases hdata : isData p with
        | true =>
          apply h.done hhand (hpump hlook) hsame
          rw [receiveData_data hstate hdata]
          exact .inl rfl
        | false =>
          apply h.done hhand (hpump hlook) hsame
          exact .inr ⟨receiveData_other (.inr hdata), by simp [counted, hdata]⟩
      · have hcounted : counted (p, m.whileUp) = false := by
          apply Bool.eq_false_iff.mpr
          intro hcounted
          exact hstate (hup _ p hhand (.inr rfl) hcounted)
        exact h.done hhand (hpump (pump_not_established p hstate)) ⟨rfl, rfl⟩
          (.inr ⟨by simp, hcounted⟩)

/-- What other threads do keeps them. -/
theorem Kept.step_other (h : Kept m) {t : Udp} (hleaves : LeavesPackets m.udp t) :
    Kept (m.step socket aggressive (.other t)) := by
  obtain ⟨hstash, more, hqueue⟩ := hleaves
  refine ⟨?_, ?_, ?_⟩
  · have hholding : (m.step socket aggressive (.other t)).holding = m.holding := by
      unfold holding Pump.held step
      cases m.hand with
      | none =>
        dsimp only
        rw [hstash]
      | some held => rfl
    rw [hholding]
    exact h.kept
  · show packets (m.arrived ++ t.threadRecvQueue.drop m.udp.threadRecvQueue.length) = _
    rw [← hqueue, List.drop_left, packets_append, h.order, List.append_assoc,
      ← packets_append, hqueue]
    rfl
  · exact fun hne => hstash.trans (h.alone hne)

/-- The start of a pumping. -/
def Begins (m : Pump) : Prop := ∃ udp, m = { udp := udp }

theorem kept_reach (h : Reach Begins (step socket aggressive) Ok m) : Kept m := by
  apply h.invariant
  · rintro m ⟨udp, rfl⟩
    refine ⟨?_, rfl, fun hne => absurd rfl hne⟩
    unfold holding Pump.held
    cases udp.stashedPacket with
    | none => rfl
    | some p => simp [counted]
  · intro m e _ hkept hok
    cases e with
    | look now => exact hkept.step_look hok
    | other t => exact hkept.step_other hok

/-! ## A packet held is returned -/

/-- The looks of the rounds that the two sentinels send a packet on. -/
def rounds (s : Udp) : ℕ :=
  (if s.markNextConnected then 6 else 0) + if s.queueEnabled ∧ s.sendQueue = [] then 6 else 0

/-- The looks of the round that it is on, and of those to come. -/
def away (rounds : ℕ) : Hand → ℕ
  | none => 6 + rounds
  | some (.mark, _) => 5 + rounds
  | some (.enableAck, _) => 4 + rounds
  | some (.trigger, _) => 3 + rounds
  | some (.synSent, _) => 2
  | some (.established, _) => 1

/-- How many looks a packet held is at most away from being returned, if the connection is
established and the flags are let alone. -/
def owed (m : Pump) : ℕ := away (rounds m.udp) m.hand

theorem owed_le (m : Pump) : m.owed ≤ 18 := by
  have hrounds : rounds m.udp ≤ 12 := by
    unfold rounds
    split <;> split <;> omega
  unfold owed away
  split <;> omega

theorem owed_pos (m : Pump) : 0 < m.owed := by
  unfold owed away
  split <;> omega

/-- The mark is used up by its sentinel, -/
theorem rounds_marked (stashed : Option Packet) (h : s.markNextConnected = true) :
    rounds s = 6 + rounds { s with markNextConnected := false, stashedPacket := stashed } := by
  unfold rounds
  rw [h]
  simp only [if_true, Bool.false_eq_true, if_false, Nat.zero_add]

/-- and the queue run empty by its own. -/
theorem rounds_flushed (stashed : Option Packet) (henabled : s.queueEnabled = true)
    (hempty : s.sendQueue = []) :
    rounds s = 6 + rounds { s with queueEnabled := false, stashedPacket := stashed } := by
  unfold rounds
  simp only [henabled, hempty, and_self, if_true, Bool.false_eq_true, false_and, if_false]
  omega

/-- Other threads leave the connection and the flags alone too that put a packet aside. -/
def Calm (m : Pump) : PumpEvent → Prop
  | .look _ => True
  | .other t => LeavesPackets m.udp t ∧ t.state = m.udp.state ∧
    t.markNextConnected = m.udp.markNextConnected ∧ t.queueEnabled = m.udp.queueEnabled ∧
    t.sendQueue = m.udp.sendQueue

/-- The looks among some events. -/
def looks : List PumpEvent → ℕ
  | [] => 0
  | .look _ :: events => looks events + 1
  | .other _ :: events => looks events

/-- A data packet held over an established connection. -/
structure Waits (m : Pump) (p : Packet) : Prop where
  held : m.held = some p
  data : isData p = true
  up : m.udp.state = .established

/-- A look has brought the packet closer to its return. -/
structure Closer (m m' : Pump) (p : Packet) : Prop where
  waits : m'.Waits p
  whileUp : m'.whileUp = m.whileUp
  returned : m'.returned = m.returned
  owed : m'.owed < m.owed

/-- `queue_trigger` reports a queue run empty only once. -/
theorem queueTrigger_true (h : (s.queueTrigger aggressive).1 = true) :
    s.queueEnabled = true ∧ s.sendQueue = [] ∧
      (s.queueTrigger aggressive).2 = { s with queueEnabled := false } := by
  unfold queueTrigger at h ⊢
  split at h
  · cases h
  · rename_i hempty
    have hempty : s.sendQueue = [] := by simpa using hempty
    split at h
    · rename_i henabled
      rw [if_neg (by simp [hempty]), if_pos henabled]
      exact ⟨henabled, hempty, rfl⟩
    · cases h

theorem queueTrigger_state : (s.queueTrigger aggressive).2.state = s.state := by
  unfold queueTrigger
  split
  · rfl
  · split <;> rfl

/-- A look at a packet that waits. -/
theorem Waits.look {p : Packet} (h : m.Waits p) :
    (m.step socket aggressive (.look now)).returned = m.returned ++ [(p, m.whileUp)] ∨
      Closer m (m.step socket aggressive (.look now)) p := by
  obtain ⟨hheld, hdata, hup⟩ := h
  unfold Pump.held at hheld
  cases hhand : m.hand with
  | none =>
    rw [hhand] at hheld
    have hstash : m.udp.stashedPacket = some p := hheld
    have hpulls : m.pulls = none := by
      unfold pulls
      rw [hhand, hstash]
    rw [step_look (by rw [hhand, pump_stashed hstash]) hpulls (by simp)]
    refine .inr ⟨⟨rfl, hdata, hup⟩, rfl, rfl, ?_⟩
    unfold owed
    rw [hhand]
    show 5 + rounds m.udp < 6 + rounds m.udp
    omega
  | some inHand =>
    obtain ⟨look, q⟩ := inHand
    rw [hhand] at hheld
    obtain rfl : q = p := Option.some.inj hheld
    have hpulls : m.pulls = none := pulls_of_hand (by simp [hhand])
    cases look with
    | mark =>
      cases hmark : m.udp.markNextConnected with
      | true =>
        rw [step_look (by rw [hhand, pump_marked q hmark]) hpulls (by simp)]
        refine .inr ⟨⟨rfl, hdata, hup⟩, rfl, rfl, ?_⟩
        unfold owed
        rw [hhand, rounds_marked (some q) hmark]
        simp only [away]
        omega
      | false =>
        rw [step_look (by rw [hhand, pump_unmarked q hmark]) hpulls (by simp)]
        refine .inr ⟨⟨rfl, hdata, hup⟩, rfl, rfl, ?_⟩
        unfold owed
        rw [hhand]
        simp only [away]
        omega
    | enableAck =>
      rw [step_look (by rw [hhand, pump_enableAck q]) hpulls (by simp)]
      refine .inr ⟨⟨rfl, hdata, hup⟩, rfl, rfl, ?_⟩
      unfold owed
      rw [hhand]
      cases m.udp.enableAck with
      | true =>
        simp only [away, if_true]
        omega
      | false =>
        simp only [away, Bool.false_eq_true, if_false]
        omega
    | trigger =>
      cases hflushed : (m.udp.queueTrigger aggressive).1 with
      | true =>
        obtain ⟨henabled, hempty, hafter⟩ := queueTrigger_true hflushed
        rw [step_look (by rw [hhand, pump_flushed q hflushed]) hpulls (by simp), hafter]
        refine .inr ⟨⟨rfl, hdata, hup⟩, rfl, rfl, ?_⟩
        unfold owed
        rw [hhand, rounds_flushed (some q) henabled hempty]
        simp only [away]
        omega
      | false =>
        rw [step_look (by rw [hhand, pump_triggered q hflushed]) hpulls (by simp)]
        refine .inr ⟨⟨rfl, hdata, queueTrigger_state.trans hup⟩, rfl, rfl, ?_⟩
        unfold owed
        rw [hhand]
        simp only [away]
        omega
    | synSent =>
      rw [step_look (by rw [hhand, pump_not_synSent q (by simp [hup])]) hpulls (by simp)]
      refine .inr ⟨⟨rfl, hdata, hup⟩, rfl, rfl, ?_⟩
      unfold owed
      rw [hhand]
      simp only [away]
      omega
    | established =>
      have hlook := @pump_state socket now aggressive _ q _ (.inr ⟨rfl, hup⟩)
      rw [receiveData_data hup hdata] at hlook
      rw [step_return (by rw [hhand, hlook]) hpulls]
      exact .inl rfl

/-- What others do to it in the meantime. -/
theorem Waits.other {p : Packet} (h : m.Waits p) {t : Udp} (hcalm : m.Calm (.other t)) :
    (m.step socket aggressive (.other t)).Waits p ∧
      (m.step socket aggressive (.other t)).owed = m.owed := by
  obtain ⟨⟨hstash, -⟩, hstate, hmark, henabled, hqueue⟩ := hcalm
  refine ⟨⟨?_, h.data, hstate.trans h.up⟩, ?_⟩
  · have hheld := h.held
    unfold Pump.held at hheld ⊢
    rw [← hstash] at hheld
    exact hheld
  · unfold owed rounds step
    dsimp only
    rw [hmark, henabled, hqueue]

/-- What is returned stays returned. -/
theorem returned_prefix (events : List PumpEvent) :
    m.returned <+: (Library.run (step socket aggressive) m events).returned := by
  induction events generalizing m with
  | nil => exact List.prefix_rfl
  | cons e events ih =>
    refine List.IsPrefix.trans ?_ ih
    cases e with
    | other t => exact List.prefix_rfl
    | look now =>
      unfold step
      dsimp only
      split
      · exact List.prefix_append _ _
      · exact List.prefix_rfl

/-- A packet that waits is returned next, within eighteen looks. -/
theorem Waits.returned {p : Packet} (events : List PumpEvent) (h : m.Waits p)
    (hcalm : OkAlong (step socket aggressive) Calm m events) (hlooks : m.owed ≤ looks events) :
    m.returned ++ [(p, m.whileUp)] <+:
      (Library.run (step socket aggressive) m events).returned := by
  induction events generalizing m with
  | nil =>
    have := m.owed_pos
    simp only [looks] at hlooks
    omega
  | cons e events ih =>
    obtain ⟨he, hrest⟩ := hcalm
    cases e with
    | other t =>
      obtain ⟨hwaits, howed⟩ := @Waits.other socket aggressive _ _ h _ he
      exact ih hwaits hrest (howed.trans_le hlooks)
    | look now =>
      simp only [looks] at hlooks
      rcases @Waits.look socket now aggressive _ _ h with hreturned | hcloser
      · rw [← hreturned]
        exact returned_prefix events
      · have howed := hcloser.owed
        have hnext := ih hcloser.waits hrest (by omega)
        rwa [hcloser.returned, hcloser.whileUp] at hnext

/-- The data packets pulled while the connection is established are returned by the calls of
`receive_packet`, each once and in the order of the queue, up to one that is in hand or put
aside; and that one is returned next, within eighteen looks, once the flags are let alone and
while the connection stays established. -/
theorem pulled_returned (h : Reach Begins (step socket aggressive) Ok m) :
    m.pulled.filter counted = m.returned.filter counted ++ m.holding ∧
      packets m.arrived = m.pulled.map Prod.fst ++ packets m.udp.threadRecvQueue ∧
      ∀ held ∈ m.holding, m.udp.state = .established →
        ∀ events, OkAlong (step socket aggressive) Calm m events → 18 ≤ looks events →
          m.returned ++ [held] <+: (Library.run (step socket aggressive) m events).returned := by
  obtain ⟨hkept, horder, -⟩ := kept_reach h
  refine ⟨hkept, horder, fun held hheld hup events hcalm hlooks => ?_⟩
  obtain ⟨hmem, hcounted⟩ := List.mem_filter.mp hheld
  obtain ⟨p, hp, rfl⟩ := List.mem_map.mp hmem
  have hdata : isData p = true := (Bool.and_eq_true_iff.mp hcounted).1
  have hwaits : m.Waits p := ⟨Option.mem_toList.mp hp, hdata, hup⟩
  exact hwaits.returned events hcalm (m.owed_le.trans hlooks)

end Step

/-! ## A packet put aside when the session is closed -/

/-- A socket that takes every datagram. -/
def allSent : Socket := fun _ => .sent 0

/-- The switcher's answer to a SYN. -/
def synReply : Packet :=
  { flags := flagSyn, session := some handshakeSession, data := some [2, 0, 0, 0, 0, 0, 0, 0] }

/-- The first reliable packet of its session. -/
def firstData : Packet :=
  { flags := flagReliable, session := some 0x8001, sequenceNumber := 1, data := some [1, 2, 3, 4] }

/-- An established connection. Its dump is over, and a packet waits in the queue. -/
def dumped : Udp :=
  Library.run (Udp.step allSent false) (fresh 0)
    [(0, .connect), (0, .takeQueued), (0, .drain [(true, (synReply.toBytes).getD [])]),
      (0, .receiveTurn), (0, .takeQueued), (0, .drain [(true, (firstData.toBytes).getD [])]),
      (0, .markNextConnected)]

theorem dumped_reachable : Reachable allSent false dumped := by
  have hstart : Reachable allSent false (fresh 0) := .start ⟨0, rfl⟩
  apply hstart.run
  decide

/-- The packet is pulled, and put aside for `ConnectionReady`. -/
def putAside : Pump := Library.run (step allSent false) { udp := dumped } [.look 0, .look 0]

/-- Then `close_session` is called, and `receive_packet` goes on. -/
def closedThen : Pump :=
  Library.run (step allSent false) putAside
    [.other (putAside.udp.closeSession allSent 0), .look 0, .look 0, .look 0, .look 0, .look 0,
      .look 0]

/-- No `connect()`, and any change of the flags and the state. -/
def AnyFlags (m : Pump) : PumpEvent → Prop
  | .look _ => m.reconnects = false
  | .other t => LeavesPackets m.udp t

instance AnyFlags.decidable (m : Pump) : (e : PumpEvent) → Decidable (m.AnyFlags e)
  | .look _ => inferInstanceAs (Decidable (m.reconnects = false))
  | .other t => inferInstanceAs (Decidable
      (t.stashedPacket = m.udp.stashedPacket ∧ m.udp.threadRecvQueue <+: t.threadRecvQueue))

/-- The packet was pulled while the connection was established, and is neither returned nor
held. -/
theorem closed_session_drops : Reachable allSent false dumped ∧
    Reach Begins (step allSent false) AnyFlags closedThen ∧
    closedThen.pulled.filter counted ≠
      closedThen.returned.filter counted ++ closedThen.holding := by
  have hleaves : LeavesPackets putAside.udp (putAside.udp.closeSession allSent 0) :=
    @step_leaves allSent false putAside.udp (0, .closeSession) (by simp) (by simp) (by simp)
  have haside : Reach Begins (step allSent false) AnyFlags putAside := by
    have hstart : Reach Begins (step allSent false) AnyFlags { udp := dumped } := .start ⟨_, rfl⟩
    exact hstart.run _ (by decide)
  exact ⟨dumped_reachable, haside.run _ ⟨hleaves, by decide⟩, by decide⟩

/-- While the session stays open the packet put aside is returned. -/
theorem pulled_returned_putAside :
    putAside.pulled.filter counted = putAside.returned.filter counted ++ putAside.holding ∧
      packets putAside.arrived =
        putAside.pulled.map Prod.fst ++ packets putAside.udp.threadRecvQueue ∧
      ∀ held ∈ putAside.holding, putAside.udp.state = .established →
        ∀ events, OkAlong (step allSent false) Calm putAside events → 18 ≤ looks events →
          putAside.returned ++ [held] <+:
            (Library.run (step allSent false) putAside events).returned := by
  have hstart : Reach Begins (step allSent false) Ok { udp := dumped } := .start ⟨_, rfl⟩
  have hfirst : Pump.Ok { udp := dumped } (.look 0) := by
    refine ⟨by decide, fun look p hhand => ?_⟩
    cases hhand
  have hsecond : Pump.Ok (step allSent false { udp := dumped } (.look 0)) (.look 0) := by
    refine ⟨by decide, fun look p hhand hlook => ?_⟩
    have hmark : (step allSent false { udp := dumped } (.look 0)).hand.map Prod.fst =
        some .mark := by decide
    rw [hhand] at hmark
    rcases hlook with rfl | rfl
    · cases hmark
    · cases hmark
  exact pulled_returned (hstart.run _ ⟨hfirst, hsecond, trivial⟩)

end Pump

end Bmdwire
