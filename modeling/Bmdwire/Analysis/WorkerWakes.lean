import Bmdwire.Analysis.PulledPackets
import Bmdwire.Program.Connection

/-!
# No command waits for a packet

A thread that calls `send` puts its command on one queue and then a `Wakeup` on the other. The
worker takes a `Wakeup` off only to go and drain the commands, and drains them until there are
none. So while it is not on its way to a drain, a command that is queued has a `Wakeup` in the
receive queue, or one is about to be put there (`Awake`).
-/

set_option autoImplicit false

namespace Bmdwire

open Udp (Hand UdpEvent Move Moves)

/-! ## What stays in the receive queue -/

namespace Udp

/-- Only `receive_packet` takes items off the receive queue. -/
theorem Moves.items_kept {parts : List Part} {s t : Udp} (h : Moves parts s t)
    (htake : .take ∉ parts) : s.threadRecvQueue <+: t.threadRecvQueue := by
  apply h.keep (P := fun t => s.threadRecvQueue <+: t.threadRecvQueue) ?_ List.prefix_rfl
  intro part hpart a b hm ha
  refine ha.trans ?_
  cases hm with
  | receive => exact List.prefix_append _ _
  | thread => exact List.prefix_append _ _
  | take => exact absurd hpart htake
  | ack _ now number =>
    unfold onAck
    split <;> exact List.prefix_rfl
  | _ => exact List.prefix_rfl

theorem step_items_kept (socket : Socket) (aggressive : Bool) (s : Udp) {a : Time × UdpEvent}
    (ha : a.2 ≠ .receiveTurn) :
    s.threadRecvQueue <+: (s.step socket aggressive a).threadRecvQueue := by
  obtain ⟨now, e⟩ := a
  apply (step_parts socket now aggressive e).items_kept
  cases e with
  | receiveTurn => exact absurd rfl ha
  | _ => simp [UdpEvent.parts]

section Look

variable {socket : Socket} {now : Time} {aggressive : Bool} {s : Udp}

/-- A look with nothing in hand that goes on leaves a `Wakeup` in the queue. -/
theorem wakeup_mem_pump_none (hgoes : (s.pump socket now aggressive none).1 = .ok none)
    (hwake : .wakeup ∈ s.threadRecvQueue) :
    .wakeup ∈ (s.pump socket now aggressive none).2.2.threadRecvQueue := by
  cases hstash : s.stashedPacket with
  | some p =>
    rw [pump_stashed hstash]
    exact hwake
  | none =>
    cases hqueue : s.threadRecvQueue with
    | nil =>
      rw [hqueue] at hwake
      cases hwake
    | cons item rest =>
      have hrest : item ≠ .wakeup → .wakeup ∈ rest := by
        intro hitem
        rw [hqueue] at hwake
        exact (List.mem_cons.mp hwake).resolve_left hitem.symm
      cases item with
      | packet p =>
        rw [pump_packet hstash hqueue]
        exact hrest (by simp)
      | disconnected =>
        rw [pump_disconnected hstash hqueue]
        exact ((receiveDisconnected_moves socket now).items_kept (by decide)).subset
          (hrest (by simp))
      | wakeup =>
        rw [pump_wakeup hstash hqueue] at hgoes
        cases hgoes

/-- A look at the packet in hand leaves the queue as it is, or longer. -/
theorem pump_some_kept (look : Look) (p : Packet) :
    s.threadRecvQueue <+:
      (s.pump socket now aggressive (some (look, p))).2.2.threadRecvQueue := by
  have hdata := ((@receiveData_moves s aggressive p)).items_kept (by decide)
  unfold pump
  cases look with
  | mark =>
    dsimp only
    split <;> exact List.prefix_rfl
  | enableAck => exact List.prefix_rfl
  | trigger =>
    have htrigger := (@queueTrigger_moves s aggressive).items_kept (by decide)
    dsimp only
    split <;> exact htrigger
  | synSent =>
    dsimp only
    split
    · exact hdata
    · exact List.prefix_rfl
  | established =>
    dsimp only
    split
    · exact hdata
    · exact List.prefix_rfl

/-- A look that goes on leaves a `Wakeup` in the queue. -/
theorem wakeup_mem_pump {hand : Hand} (hgoes : (s.pump socket now aggressive hand).1 = .ok none)
    (hwake : .wakeup ∈ s.threadRecvQueue) :
    .wakeup ∈ (s.pump socket now aggressive hand).2.2.threadRecvQueue := by
  cases hand with
  | none => exact wakeup_mem_pump_none hgoes hwake
  | some held =>
    obtain ⟨look, p⟩ := held
    exact (pump_some_kept look p).subset hwake

end Look

end Udp

/-! ## What the drain leaves in the receive queue -/

theorem sendPending_items (socket : Socket) (now : Time) (pending : List Outgoing) (s : Udp) :
    (sendPending socket now pending s).threadRecvQueue = s.threadRecvQueue := by
  unfold sendPending
  induction fillBatches pending [] [] 0 generalizing s with
  | nil => rfl
  | cons batch batches ih =>
    rw [List.foldl_cons, ih]
    unfold sendBatch
    split <;> rfl

/-- The handshake is not done yet. -/
def WorkerPhase.beforeReady : WorkerPhase → Bool
  | .receiving ready _ => !ready
  | .handling ready => !ready
  | _ => false

/-- The worker drains the commands before it waits for anything again, or never waits again. -/
def WorkerPhase.drainsNext : WorkerPhase → Bool
  | .handling _ | .draining _ | .exited => true
  | _ => false

namespace ConnectionThreads

/-! ## Awake -/

/-- A command on the queue has a `Wakeup` in the receive queue, or a thread is about to put one
there. -/
def Awake (c : ConnectionThreads) : Prop :=
  c.cmdQueue ≠ [] → (∃ i, c.senders i = .enqueued) ∨
    ∃ s, c.transport = some s ∧ .wakeup ∈ s.threadRecvQueue

/-- No thread has come past `is_connected` yet. -/
def Quiet (c : ConnectionThreads) : Prop :=
  c.handshakeDone = false ∧ c.cmdQueue = [] ∧ ∀ i, c.senders i = .idle

/-- Before the handshake is done all is quiet; and the connection is awake, unless the worker is
on its way to a drain. -/
structure Inv (c : ConnectionThreads) : Prop where
  quiet : c.worker.beforeReady = true → c.Quiet
  awake : c.worker.drainsNext = false → c.Awake

theorem Quiet.awake {c : ConnectionThreads} (h : c.Quiet) : c.Awake := fun hne => absurd h.2.1 hne

/-- What keeps the commands and the senders, and the `Wakeup`s in the receive queue. -/
theorem Awake.keep {c d : ConnectionThreads} (h : c.Awake) (hqueue : d.cmdQueue = c.cmdQueue)
    (hsenders : d.senders = c.senders)
    (hwake : ∀ s, c.transport = some s → .wakeup ∈ s.threadRecvQueue →
      ∃ t, d.transport = some t ∧ .wakeup ∈ t.threadRecvQueue) : d.Awake := by
  intro hne
  rw [hqueue] at hne
  rcases h hne with ⟨i, hi⟩ | ⟨s, hs, hmem⟩
  · exact .inl ⟨i, by rw [hsenders, hi]⟩
  · exact .inr (hwake s hs hmem)

section Step

variable {socket : Socket} {aggressive : Bool} {c : ConnectionThreads}

theorem Inv.of_quiet (h : c.Quiet) : c.Inv := ⟨fun _ => h, fun _ => h.awake⟩

theorem Inv.of_awake (hready : c.worker.beforeReady = false) (h : c.Awake) : c.Inv :=
  ⟨fun hbefore => absurd hbefore (by simp [hready]), fun _ => h⟩

theorem Inv.of_drainsNext (hready : c.worker.beforeReady = false)
    (h : c.worker.drainsNext = true) : c.Inv :=
  ⟨fun hbefore => absurd hbefore (by simp [hready]), fun hnext => absurd hnext (by simp [h])⟩

/-! ### The worker -/

theorem Inv.look (h : c.Inv) (now : Time) : (c.step socket aggressive (.look now)).Inv := by
  cases hworker : c.worker with
  | receiving ready hand =>
    cases htransport : c.transport with
    | none => simpa [step, hworker, htransport] using h
    | some s =>
      have hstep : c.step socket aggressive (.look now) =
          c.lookOnce socket now aggressive ready hand s := by
        simp [step, hworker, htransport]
      have hquiet : ready = false → c.Quiet := by
        intro hready
        apply h.quiet
        rw [hworker, hready]
        rfl
      have hawake : c.Awake := h.awake (by rw [hworker]; rfl)
      rw [hstep]
      unfold lookOnce
      generalize hr : s.pump socket now aggressive hand = r
      have hwake : r.1 = .ok none → .wakeup ∈ s.threadRecvQueue →
          .wakeup ∈ r.2.2.threadRecvQueue := by
        rw [← hr]
        exact Udp.wakeup_mem_pump
      obtain ⟨result, held, t⟩ := r
      have hready : (!ready) = true → c.Quiet := fun hready => hquiet (by simpa using hready)
      cases result with
      | error e => exact ⟨hready, fun hno => nomatch hno⟩
      | ok returned =>
        cases returned with
        | some result => exact ⟨hready, fun hno => nomatch hno⟩
        | none =>
          refine ⟨hready, fun _ => hawake.keep rfl rfl fun s' hs' hmem => ⟨t, rfl, hwake rfl ?_⟩⟩
          rw [htransport] at hs'
          obtain rfl := Option.some.inj hs'
          exact hmem
  | _ => simpa [step, hworker] using h

theorem Inv.handled (h : c.Inv) : (c.step socket aggressive .handled).Inv := by
  cases hworker : c.worker with
  | handling ready =>
    cases ready with
    | true =>
      have hstep : c.step socket aggressive .handled = { c with worker := .draining [] } := by
        simp [step, hworker]
      rw [hstep]
      exact .of_drainsNext rfl rfl
    | false =>
      have hstep : c.step socket aggressive .handled =
          { c with worker := .receiving false none } := by
        simp [step, hworker]
      have hquiet : c.Quiet := h.quiet (by rw [hworker]; rfl)
      rw [hstep]
      exact .of_quiet hquiet
  | _ => simpa [step, hworker] using h

theorem Inv.ready (h : c.Inv) : (c.step socket aggressive .ready).Inv := by
  cases hworker : c.worker with
  | receiving ready hand =>
    cases ready with
    | true => simpa [step, hworker] using h
    | false =>
      cases hand with
      | some held => simpa [step, hworker] using h
      | none =>
        have hstep : c.step socket aggressive .ready =
            { c with handshakeDone := true, worker := .receiving true none } := by
          simp [step, hworker]
        have hquiet : c.Quiet := h.quiet (by rw [hworker]; rfl)
        rw [hstep]
        exact .of_awake rfl fun hne => absurd hquiet.2.1 hne
  | _ => simpa [step, hworker] using h

/-- The queue is found empty before the worker goes on from a drain. -/
theorem Inv.getNowait (h : c.Inv) : (c.step socket aggressive .getNowait).Inv := by
  cases hworker : c.worker with
  | draining pending =>
    cases hqueue : c.cmdQueue with
    | nil =>
      have hstep : c.step socket aggressive .getNowait = { c with worker := .sending pending } := by
        simp [step, hworker, hqueue]
      rw [hstep]
      exact .of_awake rfl fun hne => absurd hqueue hne
    | cons command rest =>
      have hstep : c.step socket aggressive .getNowait =
          { c with cmdQueue := rest, worker := .draining (pending ++ [command]) } := by
        simp [step, hworker, hqueue]
      rw [hstep]
      exact .of_drainsNext rfl rfl
  | _ => simpa [step, hworker] using h

theorem Inv.sendPending (h : c.Inv) (now : Time) :
    (c.step socket aggressive (.sendPending now)).Inv := by
  cases hworker : c.worker with
  | sending pending =>
    have hstep : c.step socket aggressive (.sendPending now) =
        { c with
          transport := c.transport.map fun s => Bmdwire.sendPending socket now pending s
          worker := .resting } := by
      simp [step, hworker]
    have hawake : c.Awake := h.awake (by rw [hworker]; rfl)
    rw [hstep]
    refine .of_awake rfl (hawake.keep rfl rfl fun s hs hmem => ?_)
    refine ⟨Bmdwire.sendPending socket now pending s, by simp [hs], ?_⟩
    rwa [sendPending_items]
  | _ => simpa [step, hworker] using h

theorem Inv.nextRound (h : c.Inv) : (c.step socket aggressive .nextRound).Inv := by
  cases hworker : c.worker with
  | resting =>
    have hstep : c.step socket aggressive .nextRound =
        { c with worker := .receiving true none } := by
      simp [step, hworker]
    have hawake : c.Awake := h.awake (by rw [hworker]; rfl)
    rw [hstep]
    exact .of_awake rfl hawake
  | _ => simpa [step, hworker] using h

theorem Inv.exit : (c.step socket aggressive .exit).Inv := .of_drainsNext rfl rfl

/-! ### The threads that send -/

/-- What a sending thread does leaves the worker where it is, and is nothing while all is
quiet. -/
theorem Inv.sender (h : c.Inv) {d : ConnectionThreads} (hworker : d.worker = c.worker)
    (hquiet : c.Quiet → d = c) (hawake : c.Awake → d.Awake) : d.Inv where
  quiet := by
    intro hbefore
    rw [hworker] at hbefore
    have hq := h.quiet hbefore
    rwa [hquiet hq]
  awake := by
    intro hnext
    rw [hworker] at hnext
    exact hawake (h.awake hnext)

/-- A thread that is not past its `put` before a step of its own is no sender awaited. -/
theorem Awake.setSender {i : ℕ} {phase : SenderPhase} (h : c.Awake)
    (hi : c.senders i ≠ .enqueued) : (c.setSender i phase).Awake := by
  intro hne
  rcases h hne with ⟨j, hj⟩ | hwake
  · have hij : j ≠ i := by
      rintro rfl
      exact hi hj
    exact .inl ⟨j, by simp [ConnectionThreads.setSender, hij, hj]⟩
  · exact .inr hwake

theorem Inv.isConnected (h : c.Inv) (i : ℕ) :
    (c.step socket aggressive (.isConnected i)).Inv := by
  cases hi : c.senders i with
  | idle =>
    have hstep : c.step socket aggressive (.isConnected i) =
        if c.handshakeDone then c.setSender i .flagged else c := by
      simp [step, hi]
    rw [hstep]
    split
    next hdone =>
      exact h.sender rfl (fun hquiet => absurd hquiet.1 (by simp [hdone]))
        fun hawake => hawake.setSender (by simp [hi])
    next => exact h
  | flagged =>
    have hstep : c.step socket aggressive (.isConnected i) =
        c.setSender i (if c.worker = .exited then .idle else .connected) := by
      simp [step, hi]
    rw [hstep]
    exact h.sender rfl (fun hquiet => absurd (hquiet.2.2 i) (by simp [hi]))
      fun hawake => hawake.setSender (by simp [hi])
  | _ => simpa [step, hi] using h

theorem Inv.put (h : c.Inv) (i : ℕ) (command : Outgoing) :
    (c.step socket aggressive (.put i command)).Inv := by
  cases hi : c.senders i with
  | connected =>
    have hstep : c.step socket aggressive (.put i command) =
        { c with cmdQueue := c.cmdQueue ++ [command] }.setSender i .enqueued := by
      simp [step, hi]
    rw [hstep]
    refine h.sender rfl (fun hquiet => absurd (hquiet.2.2 i) (by simp [hi])) fun _ _ => ?_
    exact .inl ⟨i, by simp [ConnectionThreads.setSender]⟩
  | _ => simpa [step, hi] using h

/-- Once the worker is there, the `Wakeup` is put where it looks. -/
theorem Inv.wake (h : c.Inv) (i : ℕ) (hup : c.worker ≠ .exited → c.transport.isSome = true) :
    (c.step socket aggressive (.wake i)).Inv := by
  cases hi : c.senders i with
  | enqueued =>
    have hstep : c.step socket aggressive (.wake i) =
        c.wakeWorkerForDrain.setSender i .idle := by
      simp [step, hi]
    rw [hstep]
    refine ⟨fun hbefore => ?_, fun hnext => ?_⟩
    · exact absurd ((h.quiet hbefore).2.2 i) (by simp [hi])
    · have hworker : c.worker ≠ .exited := by
        intro hexited
        have hnext : c.worker.drainsNext = false := hnext
        rw [hexited] at hnext
        cases hnext
      obtain ⟨s, hs⟩ := Option.isSome_iff_exists.mp (hup hworker)
      intro _
      exact .inr ⟨{ s with threadRecvQueue := s.threadRecvQueue ++ [.wakeup] },
        by simp [ConnectionThreads.setSender, wakeWorkerForDrain, hs], by simp⟩
  | _ => simpa [step, hi] using h

theorem Inv.other (h : c.Inv) {a : Time × UdpEvent} (ha : a.2 ≠ .receiveTurn) :
    (c.step socket aggressive (.other a)).Inv where
  quiet := h.quiet
  awake := by
    intro hnext
    refine (h.awake hnext).keep rfl rfl fun s hs hmem => ?_
    refine ⟨s.step socket aggressive a, by simp [step, hs], ?_⟩
    exact (Udp.step_items_kept socket aggressive s ha).subset hmem

end Step

/-! ## Every run -/

/-- While the worker is there, so is its transport. -/
def Up (c : ConnectionThreads) : Prop := c.worker ≠ .exited → c.transport.isSome = true

theorem step_up (socket : Socket) (aggressive : Bool) {c : ConnectionThreads} (h : c.Up)
    (e : ConnectionEvent) : (c.step socket aggressive e).Up := by
  unfold Up at h ⊢
  cases e with
  | exit => exact fun hno => absurd rfl hno
  | look now =>
    unfold step
    dsimp only
    split
    · exact fun _ => rfl
    · exact h
  | sendPending now =>
    unfold step
    dsimp only
    split
    next hworker =>
      intro _
      rw [Option.isSome_map]
      exact h (by simp [hworker])
    next => exact h
  | wake i =>
    unfold step
    dsimp only
    split
    · intro hno
      exact (Option.isSome_map ..).trans (h hno)
    · exact h
  | other a => exact fun hno => (Option.isSome_map ..).trans (h hno)
  | isConnected i =>
    unfold step
    dsimp only
    split
    · split <;> exact h
    · exact h
    · exact h
  | put i command =>
    unfold step
    dsimp only
    split <;> exact h
  | handled =>
    unfold step
    dsimp only
    split
    next hworker => exact fun _ => h (by simp [hworker])
    next hworker => exact fun _ => h (by simp [hworker])
    next => exact h
  | ready =>
    unfold step
    dsimp only
    split
    next hworker => exact fun _ => h (by simp [hworker])
    next => exact h
  | getNowait =>
    unfold step
    dsimp only
    split
    next hworker _ => exact fun _ => h (by simp [hworker])
    next hworker _ => exact fun _ => h (by simp [hworker])
    next => exact h
  | nextRound =>
    unfold step
    dsimp only
    split
    next hworker => exact fun _ => h (by simp [hworker])
    next => exact h

theorem reachable_inv {socket : Socket} {aggressive : Bool} {c : ConnectionThreads}
    (h : Reachable socket aggressive c) : c.Inv ∧ c.Up := by
  refine h.invariant (P := fun c => c.Inv ∧ c.Up) ?_ ?_
  · rintro c ⟨hqueue, htransport, hdone, -, hsenders⟩
    have hquiet : c.Quiet := ⟨hdone, hqueue, hsenders⟩
    exact ⟨.of_quiet hquiet, fun _ => htransport⟩
  · rintro c e - ⟨hinv, hup⟩ he
    refine ⟨?_, step_up socket aggressive hup e⟩
    cases e with
    | look now => exact hinv.look now
    | handled => exact hinv.handled
    | ready => exact hinv.ready
    | getNowait => exact hinv.getNowait
    | sendPending now => exact hinv.sendPending now
    | nextRound => exact hinv.nextRound
    | exit => exact .exit
    | isConnected i => exact hinv.isConnected i
    | put i command => exact hinv.put i command
    | wake i => exact hinv.wake i hup
    | other a => exact hinv.other he

/-- Whenever the worker waits on the empty receive queue with a command on the other one, some
thread has put its command and is about to wake the worker. Whatever it does in
`receive_packet`, a `Wakeup` is in the queue or about to be put there. -/
theorem command_wakes (socket : Socket) (aggressive : Bool) (c : ConnectionThreads)
    (h : Reachable socket aggressive c) :
    (c.Blocked → c.cmdQueue ≠ [] → ∃ i, c.senders i = .enqueued) ∧
    ∀ hand, c.worker = .receiving true hand → c.cmdQueue ≠ [] →
      (∃ i, c.senders i = .enqueued) ∨
        ∃ s, c.transport = some s ∧ .wakeup ∈ s.threadRecvQueue := by
  have hawake : ∀ hand, c.worker = .receiving true hand → c.Awake := by
    intro hand hworker
    exact (reachable_inv h).1.awake (by rw [hworker]; rfl)
  refine ⟨?_, hawake⟩
  rintro ⟨hworker, s, hs, -, hempty⟩ hne
  rcases hawake none hworker hne with hsender | ⟨s', hs', hmem⟩
  · exact hsender
  · rw [hs] at hs'
    obtain rfl := Option.some.inj hs'
    rw [hempty] at hmem
    cases hmem

/-- The worker of a transport that has nothing to do, with the handshake done. -/
def waiting : ConnectionThreads where
  cmdQueue := []
  transport := some { Udp.fresh 0 with state := .established }
  handshakeDone := false
  worker := .receiving false none
  senders := fun _ => .idle

/-- A command is put while the worker waits, before its `Wakeup`. -/
def late : ConnectionThreads :=
  Library.run (step (fun _ => .sent 0) false) waiting
    [.ready, .isConnected 3, .isConnected 3, .put 3 (transferDataCommand 1 [])]

theorem late_reachable : Reachable (fun _ => .sent 0) false late := by
  have hstart : Reachable (fun _ => .sent 0) false waiting :=
    .start ⟨rfl, rfl, rfl, rfl, fun _ => rfl⟩
  exact hstart.run _ ⟨trivial, trivial, trivial, trivial, trivial⟩

/-- The worker waits, and the thread that put the command is the one to wake it. -/
theorem command_wakes_late :
    late.cmdQueue = [transferDataCommand 1 []] ∧ ∃ i, late.senders i = .enqueued := by
  have hqueue : late.cmdQueue = [transferDataCommand 1 []] := rfl
  have hblocked : late.Blocked := ⟨rfl, _, rfl, rfl, rfl⟩
  exact ⟨hqueue, (command_wakes _ _ late late_reachable).1 hblocked (by simp [hqueue])⟩

end ConnectionThreads

end Bmdwire
