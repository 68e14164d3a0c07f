import Bmdwire.Analysis.Containment
import Bmdwire.Analysis.LaneRefinement
import Bmdwire.Program.Client

/-!
# A run of the client is a run of its parts

The lane was given its messages one by one, and the transport its turns one by one. Here both go in
one run, with the packets bundled as they come: the lane of a client is one that the lane's own runs
reach, its protocol one of the runs of dumps, and the `Wakeup`s that the lane counts are those that
wait in the receive queue, so that none is taken that the lane does not handle. And while the
protocol is not connected, the lane believes nothing about locks, whatever is called meanwhile.
-/

set_option autoImplicit false

namespace Bmdwire

open Library (Dict Reach Steps)

/-! ## The `Wakeup`s that wait -/

namespace Udp

/-- The `Wakeup`s in the receive queue. -/
def wakes (s : Udp) : ℕ := s.threadRecvQueue.count .wakeup

section Wakes

variable {socket : Socket} {now : Time} {aggressive : Bool} {s t : Udp}

/-- The other parts leave the receive queue alone. -/
theorem Moves.queue_same {parts : List Part} (h : Moves parts s t)
    (hparts : .receive ∉ parts ∧ .thread ∉ parts ∧ .take ∉ parts) :
    t.threadRecvQueue = s.threadRecvQueue := by
  apply h.keep (P := fun t => t.threadRecvQueue = s.threadRecvQueue) ?_ rfl
  intro part hpart a b hm ha
  rw [← ha]
  cases hm with
  | receive => exact absurd hpart hparts.1
  | thread => exact absurd hpart hparts.2.1
  | take => exact absurd hpart hparts.2.2
  | ack =>
    unfold onAck
    split <;> rfl
  | _ => rfl

theorem wakes_append (items : List RecvItem) (hitems : .wakeup ∉ items)
    (h : t.threadRecvQueue = s.threadRecvQueue ++ items) : t.wakes = s.wakes := by
  rw [wakes, h, List.count_append, List.count_eq_zero_of_not_mem hitems, Nat.add_zero]
  rfl

theorem Moves.wakes_same {parts : List Part} (h : Moves parts s t)
    (hparts : .receive ∉ parts ∧ .thread ∉ parts ∧ .take ∉ parts) : t.wakes = s.wakes := by
  unfold wakes
  rw [h.queue_same hparts]

theorem endThread_wakes (r : Bool × Udp) : (endThread r).wakes = r.2.wakes := by
  unfold endThread
  split
  · exact wakes_append [.disconnected] (by simp) rfl
  · rfl

/-- Only `Wakeup`s put there and taken change their number. -/
theorem step_wakes (e : UdpEvent) (he : e ≠ .receiveTurn ∧ e ≠ .wakeup) :
    (s.step socket aggressive (now, e)).wakes = s.wakes := by
  have hparts := step_parts socket now aggressive (s := s) e
  cases e with
  | drain datagrams =>
    obtain ⟨-, ps, hps⟩ := @drainSocket_brings socket now datagrams s
    exact (endThread_wakes _).trans (wakes_append _ (by simp) hps)
  | silence =>
    have hconnect := (connect_moves socket now (s := { s with state := .closed }) true).wakes_same
      (by decide)
    exact (wakes_append [.disconnected] (by simp) rfl).trans hconnect
  | resendTick =>
    exact (endThread_wakes _).trans ((resendUnacked_moves socket now).wakes_same (by decide))
  | takeQueued =>
    show (s.takeQueued socket now).wakes = s.wakes
    unfold takeQueued
    split
    · rfl
    · rename_i p rest _
      have hsend := (sendOnUdpThread_moves socket now (s := { s with threadQueue := rest })
        p).wakes_same (by decide)
      dsimp only
      split
      · exact (wakes_append [.disconnected, .disconnected] (by simp) rfl).trans hsend
      · exact hsend
  | receiveTurn => exact absurd rfl he.1
  | wakeup => exact absurd rfl he.2
  | _ => exact hparts.wakes_same (by simp [UdpEvent.parts])

theorem receiveData_ne_wakeup (p : Packet) :
    (s.receiveData aggressive p).1 ≠ .ok (some .wakeup) := by
  unfold receiveData
  split
  · dsimp only
    split
    · simp
    · split <;> simp
  · split
    · dsimp only
      split <;> simp
    · simp
  · simp

/-- A packet in hand leaves the receive queue alone, and is no `Wakeup`. -/
theorem receiveTaken_wakes (p : Packet) :
    (s.receiveTaken aggressive p).2.wakes = s.wakes ∧
      (s.receiveTaken aggressive p).1 ≠ .ok (some .wakeup) := by
  have htrigger := (queueTrigger_moves (s := s) aggressive).wakes_same (by decide)
  unfold receiveTaken
  split
  · exact ⟨rfl, by simp⟩
  · split
    · dsimp only
      split
      · exact ⟨htrigger, by simp⟩
      · exact ⟨((receiveData_moves aggressive p).wakes_same (by decide)).trans htrigger,
          receiveData_ne_wakeup p⟩
    · exact ⟨(receiveData_moves aggressive p).wakes_same (by decide), receiveData_ne_wakeup p⟩

/-- A turn takes a `Wakeup` or leaves them all. -/
theorem receiveTurn_wakes : s.wakes = (s.receiveTurn socket now aggressive).2.wakes +
    (if (s.receiveTurn socket now aggressive).1 = .ok (some .wakeup) then 1 else 0) := by
  unfold receiveTurn
  split
  · rename_i p _
    obtain ⟨hwakes, hne⟩ := @receiveTaken_wakes aggressive
      { s with stashedPacket := none } p
    rw [if_neg hne, hwakes]
    rfl
  · rfl
  · rename_i p rest _ hqueue
    obtain ⟨hwakes, hne⟩ := @receiveTaken_wakes aggressive
      { s with threadRecvQueue := rest } p
    rw [if_neg hne, hwakes, wakes, hqueue, List.count_cons_of_ne (by simp)]
    rfl
  · rename_i rest _ hqueue
    have hwakes := (receiveDisconnected_moves socket now
      (s := { s with threadRecvQueue := rest })).wakes_same (by decide)
    have hne : ({ s with threadRecvQueue := rest }.receiveDisconnected socket now).1 ≠
        .ok (some .wakeup) := by
      unfold receiveDisconnected
      split
      · dsimp only
        split <;> simp
      · simp
    rw [if_neg hne, hwakes, wakes, hqueue, List.count_cons_of_ne (by simp)]
    rfl
  · rename_i rest _ hqueue
    rw [if_pos rfl, wakes, hqueue, List.count_cons_self]
    rfl

end Wakes

end Udp

/-! ## The `Wakeup`s that the lane counts -/

namespace Lane

section Counted

variable {now : Time} {stale : Prop} {s t : Lane}

@[simp] theorem letGo_wakeups (store : Store) : (s.letGo now store).wakeups = s.wakeups := by
  rcases letGo_cases now store s with ⟨-, -, h⟩ | ⟨-, h⟩ <;> rw [h]

theorem ReleaseMoves.timed {yields : Bool} {may : Store → Prop}
    (h : ReleaseMoves now yields may s t) : t.clock = s.clock ∧ t.wakeups = s.wakeups := by
  obtain ⟨_, _, _, _, heq⟩ := h.fields
  rw [heq]
  exact ⟨rfl, rfl⟩

/-- The trigger neither takes a `Wakeup` nor puts one there, and takes no time. -/
theorem TriggerMove.timed (h : TriggerMove now stale s t) :
    t.clock = s.clock ∧ t.wakeups = s.wakeups := by
  cases h with
  | clean =>
    obtain ⟨new, heq, -⟩ := cleanLocks_eq now s
    rw [heq]
    exact ⟨rfl, rfl⟩
  | clear => exact ⟨letGo_clock .., letGo_wakeups ..⟩
  | request retry =>
    rename_i id _ _ _ _ _ _
    have hr := requested_requestTransfer now retry id s
    exact ⟨hr.clock, hr.wakeups⟩
  | _ => exact ⟨rfl, rfl⟩

/-- How many there are after an event. -/
def wakeupsAfter (now : Time) (s : Lane) : LaneEvent → ℕ
  | .fireWake =>
    match s.wakeDue with
    | some due => if now < due then s.wakeups else s.wakeups + 1
    | none => s.wakeups
  | .poke => s.wakeups + 1
  | .wakeup => s.wakeups - 1
  | _ => s.wakeups

theorem opening_timed {e : LaneEvent} {closing : Option Notice}
    (h : Opening now s e t closing) :
    t.clock = s.clock ∧ t.wakeups = s.wakeupsAfter now e := by
  cases h with
  | quiet hidle hq =>
    refine ⟨hq.clock, ?_⟩
    rw [hq.wakeups]
    cases e with
    | fireWake =>
      unfold wakeupsAfter
      dsimp only
      split
      · rename_i due hdue
        rw [if_pos (hidle due hdue)]
      · rfl
    | wakeup =>
      have hzero : s.wakeups = 0 := hidle
      rw [wakeupsAfter, hzero]
    | poke => exact absurd hidle id
    | _ => rfl
  | taken _ =>
    obtain ⟨_, _, _, _, heq⟩ := lockTaken_eq now _ s
    rw [heq]
    exact ⟨rfl, rfl⟩
  | freed _ =>
    obtain ⟨_, _, heq⟩ := freed_eq now _ s
    rw [heq]
    exact ⟨rfl, rfl⟩
  | drainFailed _ _ => exact ⟨letGo_clock .., letGo_wakeups ..⟩
  | drainCompleted _ => exact ⟨letGo_clock .., letGo_wakeups ..⟩
  | triedOut _ _ => exact ⟨letGo_clock .., letGo_wakeups ..⟩
  | yielded _ => exact ⟨letGo_clock .., letGo_wakeups ..⟩
  | failed _ _ _ _ => exact ⟨letGo_clock .., letGo_wakeups ..⟩
  | completed _ => exact ⟨letGo_clock .., letGo_wakeups ..⟩
  | drainOverdue _ _ _ => exact ⟨letGo_clock .., letGo_wakeups ..⟩
  | enqueue htask =>
    cases e with
    | download store index => exact ⟨rfl, rfl⟩
    | upload store index payload => exact ⟨rfl, rfl⟩
    | queueClear store index => exact ⟨rfl, rfl⟩
    | _ => cases htask
  | dequeue id =>
    unfold dequeueClear
    dsimp only
    split
    · exact ⟨rfl, rfl⟩
    · exact ⟨rfl, rfl⟩
  | abort =>
    cases hl : s.leavesDraining now with
    | true =>
      obtain ⟨_, _, hid, -⟩ := exists_inFlight_of_leavesDraining hl
      exact (abortTransfers_drain hl hid).1.timed
    | false => exact (abortTransfers_all hl).1.timed
  | teardown =>
    rcases releaseLocksNow_cases now s with ⟨-, heq⟩ | ⟨u, hm, -, heq⟩
    · rw [heq]
      exact ⟨rfl, rfl⟩
    · rw [heq]
      exact hm.timed
  | fire hdue hnow =>
    refine ⟨rfl, ?_⟩
    simp only [wakeupsAfter, hdue]
    rw [if_neg (Nat.not_lt.mpr hnow)]
  | _ => exact ⟨rfl, rfl⟩

/-- The clock is that of the event, and only a `Wakeup` put there or taken changes their number. -/
theorem step_timed (hs : s.Wf) (a : Env × LaneEvent) :
    (s.step a).clock = a.1.now ∧ (s.step a).wakeups = s.wakeupsAfter a.1.now a.2 := by
  obtain ⟨m, m', closing, hopen, hmoves, heq⟩ := step_splits hs a
  have hopened := opening_timed hopen
  have hmoved : m'.clock = m.clock ∧ m'.wakeups = m.wakeups :=
    hmoves.keep (P := fun u => u.clock = m.clock ∧ u.wakeups = m.wakeups)
      (fun _ _ h hu => ⟨h.timed.1.trans hu.1, h.timed.2.trans hu.2⟩) ⟨rfl, rfl⟩
  have hclosed : (m'.close closing).clock = m'.clock ∧ (m'.close closing).wakeups = m'.wakeups := by
    cases closing with
    | none => exact ⟨rfl, rfl⟩
    | some n => exact ⟨rfl, rfl⟩
  rw [heq, hclosed.1, hclosed.2, hmoved.1, hmoved.2, hopened.1, hopened.2]
  exact ⟨rfl, rfl⟩

end Counted

/-! ## A lane without a session -/

/-- The lane believes nothing about locks, has nobody's turn to wait for, no drain and no pause,
and nothing in flight that needs a lock. -/
structure Unlocked (s : Lane) : Prop where
  held : ∀ k, s.held k = false
  foreign : s.foreignHeld = []
  turns : ∀ k, s.yielding.get? k = none
  granted : ∀ k, s.lastGrant.get? k = none
  draining : s.draining = none
  pause : s.tryAgainDue = none
  inFlight : ∀ id, s.transfer = some id → (s.tasks id).store = macroStore

section Unlocked

variable {now : Time} {stale : Prop} {s t : Lane}

theorem unlocked_resetTransferLane (s : Lane) : s.resetTransferLane.Unlocked :=
  ⟨fun _ => rfl, rfl, fun _ => rfl, fun _ => rfl, rfl, rfl, nofun⟩

theorem Unlocked.letGo {k : Store} (h : s.Unlocked) : (s.letGo now k).Unlocked := by
  rw [letGo_of_not_held (.inr (h.held k))]
  exact ⟨h.held, h.foreign, h.turns, h.granted, h.draining, h.pause, nofun⟩

/-- With no locks the trigger starts what needs none. -/
theorem Unlocked.triggerMove (hm : TriggerMove now stale s t) (h : s.Unlocked) :
    t.Unlocked := by
  cases hm with
  | wake due => exact ⟨h.held, h.foreign, h.turns, h.granted, h.draining, h.pause, h.inFlight⟩
  | fail => exact ⟨h.held, h.foreign, h.turns, h.granted, h.draining, h.pause, h.inFlight⟩
  | pauseOver _ hdue _ =>
    rw [h.pause] at hdue
    cases hdue
  | endYield hy _ =>
    rw [h.turns] at hy
    cases hy
  | clean =>
    obtain ⟨new, heq, -⟩ := cleanLocks_eq now s
    rw [heq]
    exact ⟨h.held, h.foreign, h.turns, h.granted, h.draining, h.pause, h.inFlight⟩
  | askForLock =>
    exact ⟨h.held, h.foreign, h.turns, h.granted, h.draining, h.pause, h.inFlight⟩
  | clear =>
    refine Unlocked.letGo ?_
    exact ⟨h.held, h.foreign, h.turns, h.granted, h.draining, h.pause, h.inFlight⟩
  | request retry _ _ husable _ _ _ =>
    rename_i id _ _ _ _ _
    have hr := requested_requestTransfer now retry id s
    refine ⟨fun k => ?_, hr.foreignHeld.trans h.foreign, fun k => ?_, fun k => ?_,
      hr.draining.trans h.draining, hr.tryAgainDue.trans h.pause, fun j hj => ?_⟩
    · rw [held_eq, hr.locks, ← held_eq]
      exact h.held k
    · rw [hr.yielding]
      exact h.turns k
    · rw [hr.lastGrant]
      exact h.granted k
    · rw [hr.transfer] at hj
      cases hj
      rw [hr.store]
      rcases husable with hmacro | hheld
      · exact hmacro
      · rw [h.held] at hheld
        cases hheld

/-- There is nothing to release. -/
theorem Unlocked.releaseMoves {yields : Bool} {may : Store → Prop}
    (hm : ReleaseMoves now yields may s t) (h : s.Unlocked) : t.Unlocked := by
  refine hm.keep ?_ h
  rintro u v ⟨hheld, -⟩ hu
  rw [hu.held] at hheld
  cases hheld

theorem Unlocked.quiet (hq : s.Quiet t) (h : s.Unlocked) : t.Unlocked where
  held k := by
    rw [held_eq, hq.locks, ← held_eq]
    exact h.held k
  foreign := hq.foreignHeld.trans h.foreign
  turns k := by
    rw [hq.yielding]
    exact h.turns k
  granted k := by
    rw [hq.lastGrant]
    exact h.granted k
  draining := hq.draining.trans h.draining
  pause := hq.tryAgainDue.trans h.pause
  inFlight id hid := by
    rw [hq.transfer] at hid
    rw [(core_eq (hq.core id)).2.1]
    exact h.inFlight id hid

theorem Unlocked.receive (env : Env) (e : LaneEvent) (h : s.Unlocked) :
    (s.receive env e).Unlocked :=
  ⟨h.held, h.foreign, h.turns, h.granted, h.draining, h.pause, h.inFlight⟩

theorem Unlocked.close (closing : Option Notice) (h : s.Unlocked) : (s.close closing).Unlocked := by
  cases closing with
  | none => exact h
  | some n => exact ⟨h.held, h.foreign, h.turns, h.granted, h.draining, h.pause, h.inFlight⟩

/-- Only the switcher's messages bring the belief in a lock. -/
theorem Unlocked.opening {e : LaneEvent} {closing : Option Notice}
    (ho : Opening now s e t closing) (hs : s.Wf) (he : e.message = false) (h : s.Unlocked) :
    t.Unlocked := by
  have hdrained : ∀ {d}, s.draining ≠ some d := fun {d} hd => by
    rw [h.draining] at hd
    cases hd
  cases ho with
  | quiet _ hq => exact h.quiet hq
  | enqueue htask =>
    refine ⟨h.held, h.foreign, h.turns, h.granted, h.draining, h.pause, fun id hid => ?_⟩
    have hfront := (hs.inFlight id hid).1
    have hne : id ≠ s.nextTask :=
      (hs.made _ id (List.mem_of_mem_head? hfront)).ne
    show (Function.update s.tasks s.nextTask _ id).store = macroStore
    rw [Function.update_of_ne hne]
    exact h.inFlight id hid
  | dequeue id =>
    unfold dequeueClear
    dsimp only
    split
    · exact ⟨h.held, h.foreign, h.turns, h.granted, h.draining, h.pause, h.inFlight⟩
    · exact h
  | abort =>
    have hnone : s.leavesDraining now = false := by
      by_contra hl
      rw [Bool.not_eq_false] at hl
      obtain ⟨id, _, -, -, -, -, -, -, hheld, -⟩ := exists_inFlight_of_leavesDraining hl
      rw [h.held] at hheld
      cases hheld
    refine Unlocked.releaseMoves (abortTransfers_all hnone).1 ?_
    exact ⟨h.held, h.foreign, h.turns, h.granted, h.draining, rfl, nofun⟩
  | fire _ _ => exact ⟨h.held, h.foreign, h.turns, h.granted, h.draining, h.pause, h.inFlight⟩
  | poke => exact ⟨h.held, h.foreign, h.turns, h.granted, h.draining, h.pause, h.inFlight⟩
  | woken _ _ => exact ⟨h.held, h.foreign, h.turns, h.granted, h.draining, h.pause, h.inFlight⟩
  | drainOverdue _ hd _ => exact absurd hd hdrained
  | reset => exact unlocked_resetTransferLane s
  | teardown =>
    rcases releaseLocksNow_cases now s with ⟨-, heq⟩ | ⟨u, hm, -, heq⟩
    · rw [heq]
      exact h
    · have hu := h.releaseMoves hm
      rw [heq]
      exact ⟨hu.held, hu.foreign, fun _ => rfl, hu.granted, hu.draining, hu.pause, hu.inFlight⟩
  | _ => cases he

/-- Without messages a lane that is unlocked stays so. -/
theorem Unlocked.step (hs : s.Wf) (a : Env × LaneEvent) (he : a.2.message = false)
    (h : s.Unlocked) : (s.step a).Unlocked := by
  obtain ⟨m, m', closing, hopen, hmoves, heq⟩ := step_splits hs a
  have hm := (h.receive a.1 a.2).opening hopen (wf_receive hs a.1 a.2) he
  rw [heq]
  exact (hmoves.keep (fun _ _ hmove hu => hu.triggerMove hmove) hm).close closing

end Unlocked

end Lane

/-! ## A turn of the loop -/

namespace AtemProtocol

section Turns

variable {κ ι α : Type} [DecidableEq κ] [DecidableEq ι] {keys : FieldKeys κ α}
  {act : Bytes → Bytes → FieldAction κ ι α} {socket : Socket} {now : Time} {aggressive : Bool}
  {s : AtemProtocol κ ι α}

/-- What the loop makes of an item puts no `Wakeup` in the receive queue, and takes none. -/
theorem loopOn_wakes (r : Udp.RecvResult) :
    (s.loopOn keys act socket now r).2.udp.wakes = s.udp.wakes := by
  have hreconnect : ∀ t : AtemProtocol κ ι α,
      (t.reconnect socket now).udp.wakes = t.udp.wakes := by
    intro t
    have hclose := @Udp.step_wakes socket now false t.udp .closeSession ⟨by simp, by simp⟩
    refine Eq.trans ?_ hclose
    exact (Udp.connect_moves socket now false).wakes_same (by decide)
  cases r with
  | packet p =>
    have hsaves := @saveFields_saves κ ι α _ _ keys act (decodePacket (p.data.getD [])).1
      { s with connected := true }
    obtain ⟨mark, hudp, -⟩ := hsaves.udp
    have hsaved : ({ s with connected := true }.saveFields keys act
        (decodePacket (p.data.getD [])).1).2.2.udp.wakes = s.udp.wakes := by
      rw [hudp]
      rfl
    unfold loopOn loopPacket
    dsimp only
    split
    · exact (hreconnect _).trans hsaved
    · exact hsaved
  | none =>
    unfold loopOn
    dsimp only
    split
    · rfl
    · rfl
  | _ => rfl

/-- A turn takes at most the `Wakeup` it returns. -/
theorem turn_wakes : s.udp.wakes = (s.turn keys act socket now aggressive).2.udp.wakes +
    (if (s.udp.receiveTurn socket now aggressive).1 = .ok (some .wakeup) then 1 else 0) := by
  have hreceive := @Udp.receiveTurn_wakes socket now aggressive s.udp
  have hturn : (s.turn keys act socket now aggressive).2.udp.wakes =
      (s.udp.receiveTurn socket now aggressive).2.wakes := by
    unfold turn
    dsimp only
    split
    · exact loopOn_wakes _
    · rfl
  rw [hturn]
  exact hreceive

end Turns

end AtemProtocol

namespace LoopState

section Turns

variable {κ ι α : Type} [DecidableEq κ] [DecidableEq ι] {keys : FieldKeys κ α}
  {handling : Bytes → Bytes → FieldHandling κ ι α} {socket : Socket} {env : Env}
  {aggressive : Bool} {s : LoopState κ ι α} {P : Lane → Prop}

/-- The fields of a packet do to the lane what its messages do. -/
theorem saveFields_lane
    (hmessage : ∀ code contents e f, handling code contents = .message e f →
      ∀ t, P t → P (t.step (env, e)))
    (fields : List (Bytes × Bytes)) (h : P s.lane) :
    P (s.saveFields keys handling env fields).2.2.lane := by
  have hfield : ∀ (code contents : Bytes) (t : LoopState κ ι α), P t.lane →
      P (t.saveFieldData keys handling env code contents).2.lane := by
    intro code contents t ht
    unfold saveFieldData
    split
    · exact ht
    · split
      · exact ht
      · rename_i e f hf
        have hstep := hmessage code contents e f hf t.lane ht
        dsimp only
        split
        · exact hstep
        · split
          · exact hstep
          · exact hstep
      · exact ht
  induction fields generalizing s with
  | nil => exact h
  | cons f fields ih =>
    unfold saveFields
    dsimp only
    split
    · exact hfield f.1 f.2 s h
    · exact ih (hfield f.1 f.2 s h)

/-- A turn does to the lane what its messages, the flush signal and the reset do. -/
theorem turn_lane
    (hmessage : ∀ code contents e f, handling code contents = .message e f →
      ∀ t, P t → P (t.step (env, e)))
    (hflushed : ∀ t, P t → P (t.step (env, .queueFlushed)))
    (hreset : ∀ t, P t → P (t.step (env, .resetTransferLane)))
    (hwake : (s.protocol.udp.receiveTurn socket env.now aggressive).1 ≠ .ok (some .wakeup))
    (h : P s.lane) : P (s.turn keys handling socket env aggressive).2.lane := by
  unfold turn
  dsimp only
  split
  · exact h
  · exact h
  · rename_i r hr
    cases r with
    | none =>
      unfold loopOn loopNone
      dsimp only
      split
      · exact hreset _ h
      · exact h
    | connectionReady => exact h
    | wakeup => exact absurd hr hwake
    | transferQueueFlushed => exact hflushed _ h
    | packet p =>
      unfold loopOn loopPacket
      dsimp only
      generalize hstart : LoopState.mk _ _ = t
      have ht : P t.lane := by
        rw [← hstart]
        exact h
      have hsaved := @saveFields_lane κ ι α _ _ keys handling env t P hmessage
        (decodePacket (p.data.getD [])).1 ht
      split
      · exact hreset _ hsaved
      · split
        · exact hsaved
        · exact hsaved

/-- A turn that leaves the protocol unconnected leaves the lane without locks. -/
theorem turn_unlocked (hlocks : StoresLocks handling)
    (hwake : (s.protocol.udp.receiveTurn socket env.now aggressive).1 ≠ .ok (some .wakeup))
    (h : s.protocol.connected = false → s.lane.Unlocked)
    (hoff : (s.turn keys handling socket env aggressive).2.protocol.connected = false) :
    (s.turn keys handling socket env aggressive).2.lane.Unlocked := by
  unfold turn at hoff ⊢
  dsimp only at hoff ⊢
  split at hoff
  · exact h hoff
  · exact h hoff
  · rename_i r hr
    cases r with
    | none =>
      unfold loopOn loopNone at hoff ⊢
      dsimp only at hoff ⊢
      split
      · exact Lane.unlocked_resetTransferLane _
      · rename_i hconnected
        exact h (by simpa using hconnected)
    | connectionReady => cases hoff
    | wakeup => exact absurd hr hwake
    | transferQueueFlushed => cases hoff
    | packet p =>
      unfold loopOn loopPacket at hoff ⊢
      dsimp only at hoff ⊢
      split
      · exact Lane.unlocked_resetTransferLane _
      · rename_i hgoes
        -- a packet connects, and so does what its fields leave
        rw [if_neg hgoes] at hoff
        obtain ⟨-, hprotocol⟩ := @saveFields_protocol κ ι α _ _ keys handling env
          { s with protocol := { s.protocol with
              udp := (s.protocol.udp.receiveTurn socket env.now aggressive).2, connected := true } }
          hlocks (decodePacket (p.data.getD [])).1
        have hsaves := @AtemProtocol.saveFields_saves κ ι α _ _ keys
          (fun c d => (handling c d).action) (decodePacket (p.data.getD [])).1
          { s.protocol with
            udp := (s.protocol.udp.receiveTurn socket env.now aggressive).2, connected := true }
        have hconnected := hsaves.connected
        rw [← hprotocol] at hconnected
        split at hoff
        · exact absurd (hconnected.symm.trans hoff) (by simp)
        · exact absurd (hconnected.symm.trans hoff) (by simp)

end Turns

/-! ## A run -/

section Runs

variable {κ ι α : Type} [DecidableEq κ] [DecidableEq ι] {keys : FieldKeys κ α} {socket : Socket}
  {aggressive : Bool} {c : LoopState κ ι α}

/-- The lane of a client is a lane of its own runs, the protocol one of the runs of dumps, and both
agree on the `Wakeup`s. -/
structure Composed (keys : FieldKeys κ α) (socket : Socket) (aggressive : Bool)
    (c : LoopState κ ι α) : Prop where
  lane : c.lane.Reachable
  counted : c.lane.wakeups = c.protocol.udp.wakes
  protocol : ∃ d, Dump.Reachable keys socket aggressive d ∧ d.protocol = c.protocol

/-- A turn that takes a `Wakeup`, and the others. -/
theorem clientTurn_cases (handling : Bytes → Bytes → FieldHandling κ ι α) (env : Env)
    (c : LoopState κ ι α) :
    ((c.protocol.udp.receiveTurn socket env.now aggressive).1 = .ok (some .wakeup) ∧
      c.clientTurn keys socket aggressive handling env =
        { protocol := { c.protocol with
            udp := (c.protocol.udp.receiveTurn socket env.now aggressive).2 }
          lane := c.lane.step (env, .wakeup) }) ∨
    ((c.protocol.udp.receiveTurn socket env.now aggressive).1 ≠ .ok (some .wakeup) ∧
      c.clientTurn keys socket aggressive handling env =
        (c.turn keys handling socket env aggressive).2) := by
  unfold clientTurn
  generalize c.protocol.udp.receiveTurn socket env.now aggressive = r
  obtain ⟨result, udp⟩ := r
  by_cases hwake : result = .ok (some .wakeup)
  · subst hwake
    exact .inl ⟨rfl, rfl⟩
  · refine .inr ⟨hwake, ?_⟩
    dsimp only
    split
    · rename_i heq
      exact absurd (congrArg Prod.fst heq) hwake
    · rfl

/-- The protocol of a client does what it does by itself. -/
theorem clientTurn_protocol {handling : Bytes → Bytes → FieldHandling κ ι α}
    (hlocks : StoresLocks handling) (env : Env) :
    (c.clientTurn keys socket aggressive handling env).protocol =
      (c.protocol.turn keys (fun c d => (handling c d).action) socket env.now aggressive).2 := by
  rcases @clientTurn_cases κ ι α _ _ keys socket aggressive handling env c with
    ⟨hwake, heq⟩ | ⟨-, heq⟩
  · rw [heq]
    unfold AtemProtocol.turn
    dsimp only
    rw [hwake]
    rfl
  · rw [heq]
    exact turn_protocol hlocks

/-- A lane that takes an event at a time that is not before its clock. -/
theorem lane_step {s : Lane} {env : Env} {e : LaneEvent} (h : s.Reachable ∧ s.clock ≤ env.now)
    (he : s.Possible (env, e)) :
    (s.step (env, e)).Reachable ∧ (s.step (env, e)).clock ≤ env.now :=
  ⟨.next h.1 ⟨he, trivial⟩, (Lane.step_timed (Lane.wf_reachableWhen h.1) (env, e)).1.le⟩

/-- A message of the switcher can always come. -/
theorem possible_of_message {s : Lane} {env : Env} {e : LaneEvent} (hclock : s.clock ≤ env.now)
    (he : e.message = true) : s.Possible (env, e) := by
  cases e with
  | dequeueClear id => cases he
  | _ => exact ⟨hclock, trivial⟩

theorem wakeupsAfter_of_message {s : Lane} {now : Time} {e : LaneEvent} (he : e.message = true) :
    s.wakeupsAfter now e = s.wakeups := by
  cases e with
  | _ => first | rfl | cases he

theorem wakeupsAfter_of_called {s : Lane} {now : Time} {e : LaneEvent} (he : e.called = true) :
    s.wakeupsAfter now e = s.wakeups := by
  cases e with
  | _ => first | rfl | cases he

theorem message_of_called {e : LaneEvent} (he : e.called = true) : e.message = false := by
  cases e with
  | _ => first | rfl | cases he

/-- A turn keeps the parts together. -/
theorem Composed.turn {handling : Bytes → Bytes → FieldHandling κ ι α} {env : Env}
    (h : c.Composed keys socket aggressive) (hclock : c.lane.clock ≤ env.now)
    (hlocks : StoresLocks handling)
    (hmessages : ∀ code contents e f, handling code contents = .message e f →
      e.message = true) :
    (c.clientTurn keys socket aggressive handling env).Composed keys socket aggressive := by
  have hprotocol := @clientTurn_protocol κ ι α _ _ keys socket aggressive c handling hlocks env
  have hwakes := @AtemProtocol.turn_wakes κ ι α _ _ keys (fun c d => (handling c d).action) socket
    env.now aggressive c.protocol
  have hdump : ∃ d, Dump.Reachable keys socket aggressive d ∧
      d.protocol = (c.clientTurn keys socket aggressive handling env).protocol := by
    obtain ⟨d, hd, hprotocols⟩ := h.protocol
    have hpossible : d.Possible (env.now, .turn fun c d => (handling c d).action) := trivial
    refine ⟨_, .next hd ⟨hpossible, trivial⟩, ?_⟩
    rw [hprotocol, ← hprotocols]
    rfl
  rw [← hprotocol] at hwakes
  rcases @clientTurn_cases κ ι α _ _ keys socket aggressive handling env c with
    ⟨hwake, heq⟩ | ⟨hwake, heq⟩
  · rw [if_pos hwake] at hwakes
    have hlane : (c.clientTurn keys socket aggressive handling env).lane =
        c.lane.step (env, .wakeup) := by
      rw [heq]
    have hcount := (Lane.step_timed (Lane.wf_reachableWhen h.lane) (env, .wakeup)).2
    refine ⟨?_, ?_, hdump⟩
    · rw [hlane]
      exact .next h.lane ⟨⟨hclock, trivial⟩, trivial⟩
    · have hcounted := h.counted
      rw [hlane, hcount]
      show c.lane.wakeups - 1 = _
      omega
  · rw [if_neg hwake] at hwakes
    have hlane : (c.clientTurn keys socket aggressive handling env).lane =
        (c.turn keys handling socket env aggressive).2.lane := by
      rw [heq]
    have hkept : ((c.turn keys handling socket env aggressive).2.lane.Reachable ∧
        (c.turn keys handling socket env aggressive).2.lane.clock ≤ env.now) ∧
        (c.turn keys handling socket env aggressive).2.lane.wakeups = c.lane.wakeups := by
      refine @turn_lane κ ι α _ _ keys handling socket env aggressive c
        (fun t => (t.Reachable ∧ t.clock ≤ env.now) ∧ t.wakeups = c.lane.wakeups)
        (fun code contents e f hf t ht => ?_) (fun t ht => ?_) (fun t ht => ?_) hwake
        ⟨⟨h.lane, hclock⟩, rfl⟩
      · have he := hmessages code contents e f hf
        refine ⟨lane_step ht.1 (possible_of_message ht.1.2 he), ?_⟩
        rw [(Lane.step_timed (Lane.wf_reachableWhen ht.1.1) (env, e)).2,
          wakeupsAfter_of_message he]
        exact ht.2
      · refine ⟨lane_step ht.1 ⟨ht.1.2, trivial⟩, ?_⟩
        rw [(Lane.step_timed (Lane.wf_reachableWhen ht.1.1) (env, .queueFlushed)).2]
        exact ht.2
      · refine ⟨lane_step ht.1 ⟨ht.1.2, trivial⟩, ?_⟩
        rw [(Lane.step_timed (Lane.wf_reachableWhen ht.1.1) (env, .resetTransferLane)).2]
        exact ht.2
    refine ⟨?_, ?_, hdump⟩
    · rw [hlane]
      exact hkept.1.1
    · rw [hlane, hkept.2, h.counted]
      exact hwakes

/-- An event of the transport, seen by the record of dumps. -/
theorem dump_udp {e : Udp.UdpEvent} {now : Time}
    (h : ∃ d, Dump.Reachable keys socket aggressive d ∧ d.protocol = c.protocol)
    (he : c.protocol.udp.Possible (now, e) ∧ e ≠ .receiveTurn ∧ e ≠ .markNextConnected ∧
      e ≠ .closeSession) :
    ∃ d, Dump.Reachable keys socket aggressive d ∧ d.protocol =
      { c.protocol with udp := c.protocol.udp.step socket aggressive (now, e) } := by
  obtain ⟨d, hd, hprotocol⟩ := h
  rw [← hprotocol] at he ⊢
  have hpossible : d.Possible (now, .udp e) := he
  exact ⟨_, .next hd ⟨hpossible, trivial⟩, rfl⟩

theorem Composed.woken {t : Lane} (now : Time)
    (h : c.Composed keys socket aggressive) (ht : t.Reachable)
    (hcount : t.wakeups = c.lane.wakeups + 1) :
    (LoopState.woken { c with lane := t }).Composed keys socket aggressive := by
  have hpossible : c.protocol.udp.Possible (now, .wakeup) := trivial
  refine ⟨ht, ?_, dump_udp h.protocol ⟨hpossible, by simp, by simp, by simp⟩⟩
  show t.wakeups = List.count _ (_ ++ _)
  rw [List.count_append, hcount, h.counted]
  rfl

/-- The timer does nothing to the connection. -/
theorem clientStep_fireWake (env : Env) :
    (c.clientStep keys socket aggressive (env, .fireWake)).lane = c.lane.step (env, .fireWake) ∧
    (c.clientStep keys socket aggressive (env, .fireWake)).protocol.connected =
      c.protocol.connected := by
  unfold clientStep
  dsimp only
  split
  · split
    · exact ⟨rfl, rfl⟩
    · exact ⟨rfl, rfl⟩
  · exact ⟨rfl, rfl⟩

omit [DecidableEq κ] [DecidableEq ι] in
/-- The fields' handlings of a possible turn. -/
theorem storesLocks_of_possible {handling : Bytes → Bytes → FieldHandling κ ι α} {env : Env}
    (h : c.ClientPossible (env, .turn handling)) :
    StoresLocks handling ∧ ∀ code contents e f, handling code contents = .message e f →
      e.message = true :=
  ⟨fun code contents e f hf => (h.2 code contents e (some f) hf).2 rfl,
    fun code contents e f hf => (h.2 code contents e f hf).1⟩

/-- Every event keeps the parts together. -/
theorem Composed.step {a : Env × ClientEvent κ ι α} (h : c.Composed keys socket aggressive)
    (ha : c.ClientPossible a) :
    (c.clientStep keys socket aggressive a).Composed keys socket aggressive := by
  obtain ⟨env, e⟩ := a
  have hclock := ha.1
  have hwf := Lane.wf_reachableWhen h.lane
  cases e with
  | turn handling =>
    obtain ⟨hlocks, hmessages⟩ := storesLocks_of_possible ha
    exact h.turn hclock hlocks hmessages
  | call e =>
    obtain ⟨-, hcalled, hpossible⟩ := ha
    refine ⟨.next h.lane ⟨hpossible, trivial⟩, ?_, h.protocol⟩
    show (c.lane.step (env, e)).wakeups = _
    rw [(Lane.step_timed hwf (env, e)).2, wakeupsAfter_of_called hcalled]
    exact h.counted
  | fireWake =>
    have hlane : (c.lane.step (env, .fireWake)).Reachable :=
      .next h.lane ⟨⟨hclock, trivial⟩, trivial⟩
    have hcount := (Lane.step_timed hwf (env, .fireWake)).2
    unfold Lane.wakeupsAfter at hcount
    unfold clientStep
    dsimp only at hcount ⊢
    cases hdue : c.lane.wakeDue with
    | none =>
      rw [hdue] at hcount
      exact ⟨hlane, hcount.trans h.counted, h.protocol⟩
    | some due =>
      rw [hdue] at hcount
      dsimp only at hcount ⊢
      split
      · rename_i hearly
        rw [if_pos hearly] at hcount
        exact ⟨hlane, hcount.trans h.counted, h.protocol⟩
      · rename_i hfires
        rw [if_neg hfires] at hcount
        exact h.woken env.now hlane hcount
  | poke =>
    have hlane : (c.lane.step (env, .poke)).Reachable := .next h.lane ⟨⟨hclock, trivial⟩, trivial⟩
    exact h.woken env.now hlane (Lane.step_timed hwf (env, .poke)).2
  | udp e =>
    obtain ⟨-, hpossible, hturn, hwakeup, hmark, hbye⟩ := ha
    refine ⟨h.lane, ?_, dump_udp h.protocol ⟨hpossible, hturn, hmark, hbye⟩⟩
    show c.lane.wakeups = (c.protocol.udp.step socket aggressive (env.now, e)).wakes
    rw [Udp.step_wakes e ⟨hturn, hwakeup⟩]
    exact h.counted

theorem composed_reachable (h : ClientReachable keys socket aggressive c) :
    c.Composed keys socket aggressive := by
  refine Reach.invariant ?_ (fun c a _ hc ha => hc.step ha) h
  rintro ⟨protocol, lane⟩ ⟨⟨now, rfl⟩, hlane⟩
  refine ⟨.start hlane, ?_, _, .start ⟨now, rfl⟩, rfl⟩
  obtain ⟨tid, -, -, rfl⟩ := hlane
  rfl

/-- While the protocol is not connected the lane has no locks, whatever is called meanwhile. -/
theorem disconnected_unlocked (h : ClientReachable keys socket aggressive c) :
    c.protocol.connected = false → c.lane.Unlocked := by
  induction h with
  | start hc =>
    intro _
    obtain ⟨-, tid, -, -, heq⟩ := hc
    rw [heq]
    exact ⟨fun _ => rfl, rfl, fun _ => rfl, fun _ => rfl, rfl, rfl, nofun⟩
  | next hc ha ih =>
    rename_i c a
    have hwf := Lane.wf_reachableWhen (composed_reachable hc).lane
    obtain ⟨env, e⟩ := a
    cases e with
    | turn handling =>
      intro hoff
      have hlocks := (storesLocks_of_possible ha).1
      unfold clientStep at hoff ⊢
      dsimp only at hoff ⊢
      rcases @clientTurn_cases κ ι α _ _ keys socket aggressive handling env c with
        ⟨-, heq⟩ | ⟨hwake, heq⟩
      · rw [heq] at hoff ⊢
        exact (ih hoff).step hwf (env, .wakeup) rfl
      · rw [heq] at hoff ⊢
        exact turn_unlocked hlocks hwake ih hoff
    | call e =>
      intro hoff
      exact (ih hoff).step hwf _ (message_of_called ha.2.1)
    | fireWake =>
      intro hoff
      obtain ⟨hlane, hconnected⟩ := @clientStep_fireWake κ ι α _ _ keys socket aggressive c env
      rw [hconnected] at hoff
      rw [hlane]
      exact (ih hoff).step hwf (env, .fireWake) rfl
    | poke => exact fun hoff => (ih hoff).step hwf (env, .poke) rfl
    | udp e => exact ih

end Runs

/-! ## A session that goes silent -/

/-- A client just made. -/
def justMade : LoopState ℕ ℕ ℕ := { protocol := { udp := .fresh 0 }, lane := .fresh 1 }

/-- Every field grants the still store. -/
def granting (_ _ : Bytes) : FieldHandling ℕ ℕ ℕ := .message (.lockObtained 0) none

/-- The events of the run below. -/
inductive Scene
  | turn
  | poke
  | call (e : LaneEvent)
  | udp (e : Udp.UdpEvent)

def Scene.event : Scene → Env × ClientEvent ℕ ℕ ℕ
  | .turn => (⟨0, none⟩, .turn granting)
  | .poke => (⟨0, none⟩, .poke)
  | .call e => (⟨0, none⟩, .call e)
  | .udp e => (⟨0, none⟩, .udp e)

instance Scene.decidablePossible (c : LoopState ℕ ℕ ℕ) :
    (scene : Scene) → Decidable (c.ClientPossible scene.event)
  | .turn => decidable_of_iff (c.lane.clock ≤ 0)
      ⟨fun h => ⟨h, fun _ _ _ _ hf => by cases hf; exact ⟨rfl, nofun⟩⟩, And.left⟩
  | .poke => inferInstanceAs (Decidable (c.lane.clock ≤ 0 ∧ True))
  | .call e => inferInstanceAs (Decidable (c.lane.clock ≤ 0 ∧ e.called = true ∧
      c.lane.Possible (⟨0, none⟩, e)))
  | .udp e => inferInstanceAs (Decidable (c.lane.clock ≤ 0 ∧ c.protocol.udp.Possible (0, e) ∧
      e ≠ .receiveTurn ∧ e ≠ .wakeup ∧ e ≠ .markNextConnected ∧ e ≠ .closeSession))

/-- A client after these events. -/
def playing (scenes : List Scene) : LoopState ℕ ℕ ℕ :=
  Library.run (fun c scene => c.clientStep Dump.numbered Pump.allSent false scene.event) justMade
    scenes

/-- The still store is granted in a session, and the loop is woken. -/
def grantedScenes : List Scene :=
  [.udp .connect, .udp .takeQueued, .udp (.drain [(true, Pump.synReply.toBytes.getD [])]), .turn,
    .udp .takeQueued,
    .udp (.drain [(true, { Dump.dumpPacket with
      data := some [0, 8, 0, 0, 0x4c, 0x4b, 0x4f, 0x42] }.toBytes.getD [])]), .turn, .poke]

/-- Then the switcher goes silent, and a download is queued. -/
def silencedScenes : List Scene :=
  grantedScenes ++ [.udp .silence, .turn, .turn, .call (.download 0 1)]

theorem disconnected_unlocked_silenced :
    (playing grantedScenes).lane.held 0 = true ∧
      (playing silencedScenes).protocol.connected = false ∧
      (playing silencedScenes).lane.Unlocked := by
  have hstart : ClientReachable Dump.numbered Pump.allSent false justMade :=
    .start ⟨⟨0, rfl⟩, 1, by decide, by decide, rfl⟩
  exact ⟨by decide +kernel, by decide +kernel,
    disconnected_unlocked (hstart.run_map Scene.event _ (by decide +kernel)) (by decide +kernel)⟩

end LoopState

end Bmdwire
