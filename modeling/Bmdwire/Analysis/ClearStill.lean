import Bmdwire.Analysis.CallerTasks

/-!
# What `clear_still` reports

`clear_still` decides by a note matched by slot and, at its deadline, by whether its task is
still queued. Both are right as long as no two calls for a slot overlap, no abort empties the
queues of a clear, and no session is lost between the end of the wait and the dequeue
(`ClearsApart`): then the call returns only after its own task's CSTL
(`clear_still_truthful`). When it times out its task is never dispatched, in any run.
-/

set_option autoImplicit false

namespace Bmdwire

/-- The log has the CSTL of a clear task. -/
def Cleared (log : List Act) (id : TaskId) (target : TransferKind × Store × Slot) : Prop :=
  ∃ now, .send now (.clearStill id target.2.1 target.2.2) ∈ log

/-- What the state of a `clear_still` call says of its task. -/
structure ClearTold (lane : Lane) (event : Option LaneEvent) (c : Call) : Prop where
  heard : c.heard = true → ∃ id, c.task? = some id ∧ Cleared lane.log id c.kind.target
  waiting : ∀ id, c.phase = .waiting id → Cleared lane.log id c.kind.target ∨ c.lost = true ∨
    id ∈ lane.queued ∨ ∃ e, event = some e ∧ (Lane.newTask e).isSome ∧ id = lane.nextTask
  cleaning : ∀ id, c.phase = .cleaning id → Cleared lane.log id c.kind.target ∨ id ∈ lane.queued
  returned : ∀ id data, c.phase = .over id (.returned data) → Cleared lane.log id c.kind.target

namespace Callers

/-- No clear call still open has its task queued. -/
def NoClearQueued (s : Callers) : Prop :=
  ∀ i < s.nextCall, (s.calls i).kind.target.1 = .clear → (s.calls i).isOpen = true →
    s.taskQueued i = false

/-- No clear call past its wait has its task queued. -/
def NoClearCleaning (s : Callers) : Prop :=
  ∀ i < s.nextCall, (s.calls i).kind.target.1 = .clear → (s.calls i).isCleaning = true →
    s.taskQueued i = false

/-- Calls of `clear_still` for one slot do not overlap, nobody aborts the transfers while a
clear is queued, and the session is not lost between the end of a clear's wait and its
dequeue. -/
def ClearsApart (s : Callers) (a : Env × CallerEvent) : Prop :=
  match a.2 with
  | .begin kind => kind.target.1 = .clear → s.FreeFor kind.target
  | .lane .abortTransfers => s.NoClearQueued
  | .lane .resetTransferLane => s.NoClearCleaning
  | .cleanUp i => (s.calls i).kind.target.1 ≠ .clear → s.NoClearQueued
  | _ => True

/-- What a clear call hears in a step of the lane is of its own task, whose CSTL is out. -/
theorem clearHeard_laneStep {s : Callers} {a : Env × LaneEvent} {i : ℕ}
    (hs : s.Tasks (some a.2)) (halone : s.Alone .clear) (hown : s.CreatesOwn .clear a.2)
    (hk : (s.calls i).kind.target.1 = .clear)
    (h : (s.calls i).heard = true →
      ∃ id, (s.calls i).task? = some id ∧ Cleared s.lane.log id (s.calls i).kind.target)
    (hheard : ((s.laneStep a).calls i).heard = true) :
    ∃ id, (s.calls i).task? = some id ∧
      Cleared (s.lane.step a).log id (s.calls i).kind.target := by
  obtain ⟨-, -, new, hlog, hclears, -⟩ := Lane.step_tells hs.wf a
  have hlog' : (s.lane.step a).log = (new ++ [.recv a.1.now a.2]) ++ s.lane.log := by simp [hlog]
  rcases Call.hears_heard hheard with hheard | ⟨hopen, n, hn, id, hid⟩
  · obtain ⟨id, hid, now, hsend⟩ := h hheard
    exact ⟨id, hid, now, by rw [hlog']; exact List.mem_append_right _ hsend⟩
  · have hn := (Lane.mem_raised hlog').mp hn
    refine ⟨id, halone.told hs hown hk hopen hlog' hn hid, ?_⟩
    have hdispatched : n = .clearDispatched id (s.calls i).kind.target.2.1
        (s.calls i).kind.target.2.2 := by
      generalize (s.calls i).kind.target = target at hk hid
      cases n with
      | clearDispatched =>
        cases hid
        rfl
      | uploadDone | downloadDone =>
        cases hid
        cases hk
      | _ => cases hid
    have hmem : .notice n ∈ new := by
      rcases List.mem_append.mp hn with hn | hn
      · exact hn
      · cases List.mem_singleton.mp hn
    obtain ⟨now, hsend⟩ := (hclears _ _ _).mpr (hdispatched ▸ hmem)
    exact ⟨now, by rw [hlog]; exact List.mem_append_left _ hsend⟩

/-- A step of the lane keeps what a clear call knows, if none of its calls takes the task
away unnoticed. -/
theorem clearTold_laneStep {s : Callers} {a : Env × LaneEvent} {i : ℕ} (hs : s.Tasks (some a.2))
    (ha : s.lane.Possible a) (halone : s.Alone .clear) (hown : s.CreatesOwn .clear a.2)
    (hk : (s.calls i).kind.target.1 = .clear) (h : ClearTold s.lane (some a.2) (s.calls i))
    (hcall : ∀ id ∈ (s.calls i).task?, (s.calls i).isOpen = true → id ∈ s.lane.queued →
      (s.calls i).isWaiting = true ∧ (s.calls i).lost = true ∨
        a.2 ≠ .dequeueClear id ∧ a.2 ≠ .abortTransfers ∧ a.2 ≠ .resetTransferLane) :
    ClearTold (s.lane.step a) none ((s.laneStep a).calls i) := by
  have hsame := s.laneStep_same a i
  have hlost : ((s.laneStep a).calls i).lost = (s.calls i).lost := Call.hears_lost ..
  have hwf := hs.wf
  have hafter := (hs.laneStep ha).tasked i
  obtain ⟨-, -, new, hlog, -⟩ := Lane.step_tells hwf a
  have hlog' : (s.lane.step a).log = (new ++ [.recv a.1.now a.2]) ++ s.lane.log := by simp [hlog]
  have hkeep : ∀ {id}, Cleared s.lane.log id (s.calls i).kind.target →
      Cleared (s.lane.step a).log id (s.calls i).kind.target := by
    rintro id ⟨now, hsend⟩
    exact ⟨now, by rw [hlog']; exact List.mem_append_right _ hsend⟩
  -- a task that leaves by itself has sent its CSTL
  have hleave : ∀ {id}, (s.calls i).task? = some id → s.lane.Pending a.2 id →
      (id ∈ s.lane.queued → a.2 ≠ .dequeueClear id ∧ a.2 ≠ .abortTransfers ∧
        a.2 ≠ .resetTransferLane) →
      Cleared (s.lane.step a).log id (s.calls i).kind.target ∨ id ∈ (s.lane.step a).queued := by
    intro id hid hq hnot
    by_cases hgone : id ∈ (s.lane.step a).queued
    · exact .inr hgone
    · left
      have htarget : ((s.lane.step a).tasks id).target =
          (.clear, (s.calls i).kind.target.2.1, (s.calls i).kind.target.2.2) := by
        rw [← hk]
        rcases hafter.made id (hsame.task?.trans hid) with ⟨-, htarget⟩ | ⟨_, _, hnone, -⟩
        · rw [hsame.kind] at htarget
          exact htarget
        · cases hnone
      refine (Lane.clear_leaves hwf hq hgone htarget).resolve_right fun hc => ?_
      rcases hq with hq | ⟨hnew, -⟩
      · obtain ⟨h1, h2, h3⟩ := hnot hq
        rcases hc with hc | hc | hc
        · exact h1 hc
        · exact h2 hc
        · exact h3 hc
      · rcases hc with hc | hc | hc <;> rw [hc] at hnew <;> cases hnew
  constructor
  case heard =>
    intro hheard
    rw [hsame.task?, hsame.kind]
    exact clearHeard_laneStep hs halone hown hk h.heard hheard
  case waiting =>
    intro id hphase
    rw [hsame.phase] at hphase
    rw [hsame.kind, hlost]
    have hid : (s.calls i).task? = some id := by rw [Call.task?, hphase]
    have hopen : (s.calls i).isOpen = true := by rw [Call.isOpen, hphase]
    rcases h.waiting id hphase with hsent | hl | hq | ⟨e, he, hnew, hnext⟩
    · exact .inl (hkeep hsent)
    · exact .inr (.inl hl)
    · rcases hcall id hid hopen hq with ⟨-, hl⟩ | hnot
      · exact .inr (.inl hl)
      · rcases hleave hid (.inl hq) fun _ => hnot with hsent | hq
        · exact .inl hsent
        · exact .inr (.inr (.inl hq))
    · obtain rfl := Option.some.inj he
      have hnot : id ∉ s.lane.queued := fun hq =>
        absurd (Lane.lt_nextTask_of_queued hwf hq) (by rw [hnext]; exact Nat.lt_irrefl _)
      rcases hleave hid (.inr ⟨hnew, hnext⟩) fun hq => absurd hq hnot with hsent | hq
      · exact .inl hsent
      · exact .inr (.inr (.inl hq))
  case cleaning =>
    intro id hphase
    rw [hsame.phase] at hphase
    rw [hsame.kind]
    have hid : (s.calls i).task? = some id := by rw [Call.task?, hphase]
    have hopen : (s.calls i).isOpen = true := by rw [Call.isOpen, hphase]
    rcases h.cleaning id hphase with hsent | hq
    · exact .inl (hkeep hsent)
    · refine hleave hid (.inl hq) fun _ => ?_
      rcases hcall id hid hopen hq with ⟨hw, -⟩ | hnot
      · rw [Call.isWaiting, hphase] at hw
        cases hw
      · exact hnot
  case returned =>
    intro id data hphase
    rw [hsame.phase] at hphase
    rw [hsame.kind]
    exact hkeep (h.returned id data hphase)

end Callers

/-- What a call knows in a plain state, it knows before any event. -/
theorem ClearTold.before {lane : Lane} {c : Call} (h : ClearTold lane none c)
    (event : Option LaneEvent) : ClearTold lane event c where
  heard := h.heard
  waiting id hphase := by
    rcases h.waiting id hphase with hsent | hl | hq | ⟨_, hnone, -⟩
    · exact .inl hsent
    · exact .inr (.inl hl)
    · exact .inr (.inr (.inl hq))
    · cases hnone
  cleaning := h.cleaning
  returned := h.returned

/-- 'disconnected' only adds to what a call knows. -/
theorem ClearTold.lose {lane : Lane} {event : Option LaneEvent} {c : Call}
    (h : ClearTold lane event c) : ClearTold lane event c.lose := by
  have hsame := c.lose_same
  have hheard : c.lose.heard = c.heard := by
    unfold Call.lose
    split
    · rfl
    · split <;> rfl
  have hlost : c.lost = true → c.lose.lost = true := by
    intro hl
    unfold Call.lose
    split
    · exact hl
    · split
      · rfl
      · exact hl
  constructor
  case heard =>
    rw [hheard, hsame.task?, hsame.kind]
    exact h.heard
  case waiting =>
    rw [hsame.phase, hsame.kind]
    intro id hphase
    exact (h.waiting id hphase).imp_right (.imp_left hlost)
  case cleaning =>
    rw [hsame.phase, hsame.kind]
    exact h.cleaning
  case returned =>
    rw [hsame.phase, hsame.kind]
    exact h.returned

/-- A clear call decides by what it knows. -/
theorem ClearTold.decide {lane : Lane} {c : Call} (h : ClearTold lane none c)
    (hk : c.kind.target.1 = .clear) (hw : c.isWaiting = true) : ClearTold lane none c.decide := by
  obtain ⟨id, hphase⟩ : ∃ id, c.phase = .waiting id := by
    unfold Call.isWaiting at hw
    split at hw
    · exact ⟨_, by assumption⟩
    · cases hw
  have hid : c.task? = some id := by rw [Call.task?, hphase]
  obtain ⟨slot, hkind⟩ : ∃ slot, c.kind = .clearStill slot := by
    cases hc : c.kind with
    | clearStill slot => exact ⟨slot, rfl⟩
    | _ =>
      rw [hc] at hk
      cases hk
  have hfinish : ∀ r, c.finish r = { c with phase := .over id r } := fun r => by
    rw [Call.finish, hid]
  unfold Call.decide
  rw [hkind]
  dsimp only
  split
  · rename_i hheard
    obtain ⟨id', hid', hsent⟩ := h.heard hheard
    obtain rfl := Option.some.inj (hid.symm.trans hid')
    rw [hfinish]
    refine ⟨fun _ => ⟨id, rfl, hsent⟩, by simp, by simp, fun id' data hover => ?_⟩
    cases hover
    exact hsent
  · rename_i hheard
    split
    · rw [hfinish]
      exact ⟨fun hheard' => absurd hheard' hheard, by simp, by simp, by simp⟩
    · rename_i hlost
      rw [Call.goOn, hid]
      refine ⟨fun hheard' => absurd hheard' hheard, by simp, fun id' hcleaning => ?_, by simp⟩
      cases hcleaning
      rcases h.waiting id hphase with hsent | hl | hq | ⟨_, hnone, -⟩
      · exact .inl hsent
      · exact absurd hl hlost
      · exact .inr hq
      · cases hnone

namespace Callers

/-- Every clear call knows its task. -/
def ClearsTold (s : Callers) (event : Option LaneEvent) : Prop :=
  ∀ i, (s.calls i).kind.target.1 = .clear → ClearTold s.lane event (s.calls i)

/-- A step of the lane that takes no queued clear from an open call unnoticed. -/
theorem ClearsTold.laneStep {s : Callers} {a : Env × LaneEvent} (h : s.ClearsTold (some a.2))
    (hs : s.Tasks (some a.2)) (ha : s.lane.Possible a) (halone : s.Alone .clear)
    (hown : s.CreatesOwn .clear a.2)
    (hcall : ∀ i, (s.calls i).kind.target.1 = .clear → ∀ id ∈ (s.calls i).task?,
      (s.calls i).isOpen = true → id ∈ s.lane.queued →
      (s.calls i).isWaiting = true ∧ (s.calls i).lost = true ∨
        a.2 ≠ .dequeueClear id ∧ a.2 ≠ .abortTransfers ∧ a.2 ≠ .resetTransferLane) :
    (s.laneStep a).ClearsTold none := by
  intro i hk
  rw [(s.laneStep_same a i).kind] at hk
  exact clearTold_laneStep hs ha halone hown hk (h i hk) (hcall i hk)

/-- One call is changed into one that knows its task. -/
theorem ClearsTold.setCall {s : Callers} (h : s.ClearsTold none) {i : ℕ} {c : Call}
    (hc : c.kind.target.1 = .clear → ClearTold s.lane none c) : (s.setCall i c).ClearsTold none := by
  intro j hk
  rw [setCall_calls] at hk ⊢
  split
  · rename_i hj
    rw [if_pos hj] at hk
    exact hc hk
  · rename_i hj
    rw [if_neg hj] at hk
    exact h j hk

theorem ClearsTold.unlock {s : Callers} (h : s.ClearsTold none) (i : ℕ) :
    (s.unlock i).ClearsTold none := by
  unfold Callers.unlock
  split
  · exact h
  · exact h

/-- A call that ends otherwise than normally has nothing to answer for. -/
theorem ClearTold.finish {lane : Lane} {c : Call} {r : CallResult} (h : ClearTold lane none c)
    (hr : ∀ data, r ≠ .returned data) : ClearTold lane none (c.finish r) := by
  unfold Call.finish
  split
  · rename_i id hid
    refine ⟨fun hheard => ?_, nofun, nofun, fun id' data hover => ?_⟩
    · obtain ⟨id', hid', hsent⟩ := h.heard hheard
      obtain rfl := Option.some.inj (hid.symm.trans hid')
      exact ⟨id, rfl, hsent⟩
    · cases hover
      exact absurd rfl (hr data)
  · exact h

/-- The lane's queue of the task's store is where the task is queued, if at all. -/
theorem mem_queue_iff {lane : Lane} (hwf : lane.Wf) {id : TaskId} :
    id ∈ lane.queue (lane.tasks id).store ↔ id ∈ lane.queued := by
  rw [Lane.mem_queued]
  constructor
  · exact fun h => ⟨_, h⟩
  · rintro ⟨k, hk⟩
    rw [hwf.store k id hk]
    exact hk

/-- `clear_still` dequeues its task, and answers by whether it was queued. -/
theorem ClearsTold.dequeue {s : Callers} {env : Env} {i : ℕ} {id : TaskId} {slot : UInt8}
    (h : s.ClearsTold none) (hs : s.Tasks none) (hclock : s.lane.clock ≤ env.now)
    (halone : s.Alone .clear) (hphase : (s.calls i).phase = .cleaning id)
    (hkind : (s.calls i).kind = .clearStill slot) :
    ((s.laneStep (env, .dequeueClear id)).setCall i
      (((s.laneStep (env, .dequeueClear id)).calls i).finish
        (if id ∈ s.lane.queue (s.lane.tasks id).store then .timedOut else .returned none))).ClearsTold
      none := by
  have hk : (s.calls i).kind.target.1 = .clear := by rw [hkind]; rfl
  have hid : (s.calls i).task? = some id := by rw [Call.task?, hphase]
  have hs' := hs.before (some (.dequeueClear id))
  have hpossible := hs.possible_dequeue hclock hid hk
  have hsame := s.laneStep_same (env, .dequeueClear id) i
  have hlog : ∃ new, (s.lane.step (env, .dequeueClear id)).log = new ++ s.lane.log := by
    obtain ⟨-, -, new, hlog, -⟩ := Lane.step_tells hs.wf (env, .dequeueClear id)
    exact ⟨new ++ [_], by rw [hlog, List.append_assoc]; rfl⟩
  have hown : ClearTold (s.lane.step (env, .dequeueClear id)) none
      (((s.laneStep (env, .dequeueClear id)).calls i).finish
        (if id ∈ s.lane.queue (s.lane.tasks id).store then .timedOut else .returned none)) := by
    have hafter : ((s.laneStep (env, .dequeueClear id)).calls i).task? = some id :=
      hsame.task?.trans hid
    rw [Call.finish, hafter]
    refine ⟨fun hheard => ?_, by simp, by simp, fun id' data hover => ?_⟩
    · obtain ⟨id', hid', hsent⟩ := clearHeard_laneStep (a := (env, .dequeueClear id)) hs' halone
        (createsOwn_of_none rfl) hk (h i hk).heard hheard
      obtain rfl := Option.some.inj (hid.symm.trans hid')
      exact ⟨id, rfl, hsame.kind ▸ hsent⟩
    · dsimp only at hover
      split at hover
      · cases hover
      · rename_i hnot
        cases hover
        rw [mem_queue_iff hs.wf] at hnot
        obtain ⟨now, hsend⟩ := ((h i hk).cleaning id hphase).resolve_right hnot
        obtain ⟨new, hlog⟩ := hlog
        refine ⟨now, ?_⟩
        rw [hlog]
        refine List.mem_append_right _ ?_
        dsimp only
        rw [hsame.kind]
        exact hsend
  intro j hj
  rw [setCall_calls] at hj ⊢
  by_cases hji : j = i
  · rw [if_pos hji]
    exact hown
  · rw [if_neg hji] at hj ⊢
    rw [(s.laneStep_same _ j).kind] at hj
    refine clearTold_laneStep hs' hpossible halone (createsOwn_of_none rfl) hj ((h j hj).before _)
      fun id' hid' _ _ => .inr ⟨?_, by simp, by simp⟩
    rintro ⟨rfl⟩
    exact hji (hs.own j i id hid' hid)

/-- The session is lost: a clear call that waits is told so, and the others have no task to
lose. -/
theorem ClearsTold.loseSession {s : Callers} {env : Env} (h : s.ClearsTold none)
    (hs : s.Tasks none) (hclock : s.lane.clock ≤ env.now) (halone : s.Alone .clear)
    (hok : s.NoClearCleaning) : (s.loseSession env).ClearsTold none := by
  have hlose : ClearsTold { s with calls := fun i => (s.calls i).lose }
      (some .resetTransferLane) := by
    intro i hk
    have hk' : (s.calls i).kind.target.1 = .clear := (s.calls i).lose_same.kind ▸ hk
    exact ((h i hk').before _).lose
  refine hlose.laneStep (a := (env, .resetTransferLane)) (hs.before _).lose
    (possible_of_outside hclock nofun) halone.lose (createsOwn_of_none rfl) ?_
  intro i hk id hid hopen hq
  have hsame := (s.calls i).lose_same
  have hk : (s.calls i).lose.kind.target.1 = .clear := hk
  have hopen : (s.calls i).lose.isOpen = true := hopen
  have hid : (s.calls i).lose.task? = some id := hid
  rw [hsame.kind] at hk
  rw [hsame.isOpen] at hopen
  rw [hsame.task?] at hid
  left
  have hlost : (s.calls i).lose.lost = true := by
    unfold Call.lose
    split
    · rename_i hkind
      rw [hkind] at hk
      cases hk
    · rw [if_pos hopen]
  have hphase : (s.calls i).isWaiting = true := by
    by_contra hnot
    have hcleaning : (s.calls i).isCleaning = true := by
      unfold Call.task? at hid
      unfold Call.isOpen at hopen
      unfold Call.isWaiting at hnot
      unfold Call.isCleaning
      cases hp : (s.calls i).phase <;> simp_all
    exact not_mem_queued (hok i (hs.lt_nextCall hopen) hk hcleaning) hid hq
  refine ⟨?_, hlost⟩
  show (s.calls i).lose.isWaiting = true
  rw [Call.isWaiting, hsame.phase]
  exact hphase

/-- A call that begins has heard nothing yet. -/
theorem ClearsTold.beginCall {s : Callers} (h : s.ClearsTold none) (kind : CallKind) :
    (s.beginCall kind).ClearsTold none := by
  intro i hk
  have hcalls : (s.beginCall kind).calls i =
      if i = s.nextCall then { kind := kind, began := s.lane.log } else s.calls i := by
    show Function.update s.calls s.nextCall _ i = _
    rw [Function.update_apply]
  rw [hcalls] at hk ⊢
  split
  · exact ⟨nofun, nofun, nofun, nofun⟩
  · rename_i hne
    rw [if_neg hne] at hk
    exact h i hk

/-- A call that is put down as waiting has heard nothing yet. -/
theorem ClearsTold.enrol {s : Callers} (h : s.ClearsTold none) {i : ℕ}
    (hi : (s.calls i).phase = .listening) :
    (s.setCall i { s.calls i with phase := .waiting s.lane.nextTask }).ClearsTold
      (some (s.calls i).kind.queues) := by
  intro j hk
  rw [setCall_calls] at hk ⊢
  split
  · rename_i hj
    rw [if_pos hj] at hk
    refine ⟨fun hheard => ?_, fun id hid => ?_, nofun, nofun⟩
    · obtain ⟨id, hid, -⟩ := (h i hk).heard hheard
      rw [Call.task?, hi] at hid
      cases hid
    · cases hid
      obtain ⟨task, htask, -⟩ := queues_newTask (s.calls i).kind
      exact .inr (.inr (.inr ⟨_, rfl, by rw [htask]; rfl, rfl⟩))
  · rename_i hj
    rw [if_neg hj] at hk
    exact (h j hk).before _

/-- Every step of a run whose clears are apart leaves each clear call knowing its task. -/
theorem ClearsTold.step {s : Callers} {a : Env × CallerEvent} (h : s.ClearsTold none)
    (hs : s.Tasks none) (halone : s.Alone .clear) (ha : s.Possible a) (hok : s.ClearsApart a) :
    (s.step a).ClearsTold none := by
  obtain ⟨env, e⟩ := a
  obtain ⟨hclock, ha⟩ := ha
  have hbefore : ∀ event, s.ClearsTold event := fun event i hk => (h i hk).before event
  cases e with
  | lane e =>
    by_cases he : e = .resetTransferLane
    · subst he
      exact h.loseSession hs hclock halone hok
    · have hstep : s.step (env, .lane e) = s.laneStep (env, e) := by
        cases e <;> first | rfl | exact absurd rfl he
      rw [hstep]
      refine (hbefore _).laneStep (hs.before _) (possible_of_outside hclock ?_) halone
        (createsOwn_outside ha) fun i hk id hid hopen hq => .inr ⟨?_, ?_, he⟩
      · rintro id rfl
        cases ha
      · rintro rfl
        cases ha
      · rintro rfl
        exact not_mem_queued (hok i (hs.lt_nextCall hopen) hk hopen) hid hq
  | begin kind => exact h.beginCall kind
  | queue i =>
    obtain ⟨halone', hown⟩ := halone.enrol ha
    refine (h.enrol ha).laneStep (a := (env, (s.calls i).kind.queues)) (hs.enrol ha)
      (possible_of_outside hclock (queues_ne_dequeue _)) halone' hown ?_
    intro j _ id _ _ _
    refine .inr ⟨queues_ne_dequeue _ _, ?_, ?_⟩ <;> cases (s.calls i).kind <;> nofun
  | wake i =>
    have hopen := Call.isOpen_of_isWaiting ha
    refine (h.setCall fun hk => ?_).unlock i
    rw [(Call.decide_moved _ hopen).kind] at hk
    exact (h i hk).decide hk ha
  | cleanUp i =>
    show (s.cleanUp env i).ClearsTold none
    rcases cleanUp_eq env ha with ⟨id, slot, hphase, hkind, heq⟩ | ⟨hnot, heq⟩
    · rw [heq]
      exact h.dequeue hs hclock halone hphase hkind
    · rw [heq]
      have habort := (hbefore _).laneStep (a := (env, .abortTransfers)) (hs.before _)
        (possible_of_outside hclock nofun) halone (createsOwn_of_none rfl)
        fun j hk id hid hopen hq =>
          absurd hq (not_mem_queued (hok hnot j (hs.lt_nextCall hopen) hk hopen) hid)
      refine (habort.setCall fun hk => ?_).unlock i
      rw [(Call.finish_moved ..).kind, (s.laneStep_same _ i).kind] at hk
      exact absurd hk hnot

/-- In a run whose clears are apart, every clear call knows its task. -/
theorem clearsTold_reachable {s : Callers} (h : ReachableWhen ClearsApart s) :
    s.ClearsTold none := by
  have key : s.Tasks none ∧ s.Alone .clear ∧ s.ClearsTold none := by
    refine Library.Reach.invariant
      (P := fun s => s.Tasks none ∧ s.Alone .clear ∧ s.ClearsTold none) ?_ ?_ h
    · intro s hs
      refine ⟨@tasks_reachableWhen (fun _ _ => True) s (.start hs), ?_, ?_⟩
      · exact alone_initial hs
      · obtain ⟨tid, -, -, rfl⟩ := hs
        exact fun _ _ => ⟨nofun, nofun, nofun, nofun⟩
    · rintro s a - ⟨hs, halone, htold⟩ ⟨ha, hok⟩
      refine ⟨hs.step ha, halone.step hs ha ?_, htold.step hs halone ha hok⟩
      intro kind hkind hclear
      obtain ⟨env, e⟩ := a
      obtain rfl : e = .begin kind := hkind
      exact hok hclear
  exact key.2.2

/-! ## Timeouts -/

/-- A clear call never times out by its wait alone. -/
theorem decide_ne_timedOut {c : Call} {id : TaskId} (hk : c.kind.target.1 = .clear)
    (hw : c.isWaiting = true) : c.decide.phase ≠ .over id .timedOut := by
  have hnot : ∀ r, c.phase ≠ .over id r := by
    intro r h
    rw [Call.isWaiting, h] at hw
    cases hw
  have hfinish : ∀ r, r ≠ .timedOut → (c.finish r).phase ≠ .over id .timedOut := by
    intro r hr h
    unfold Call.finish at h
    split at h
    · cases h
      exact hr rfl
    · exact hnot _ h
  unfold Call.decide
  split
  · split
    · exact hfinish _ nofun
    · split
      · exact hfinish _ nofun
      · unfold Call.goOn
        split
        · nofun
        · exact hnot _
  · rename_i hkind
    rw [hkind] at hk
    cases hk
  · rename_i hkind
    rw [hkind] at hk
    cases hk

/-- A clear call that has timed out has an abandoned task. -/
theorem abandoned_reachableWhen {ok : Callers → Env × CallerEvent → Prop} {s : Callers}
    (h : ReachableWhen ok s) {i : ℕ} {id : TaskId} (hk : (s.calls i).kind.target.1 = .clear)
    (hphase : (s.calls i).phase = .over id .timedOut) : s.lane.Abandoned id := by
  have key : ∀ i id, (s.calls i).kind.target.1 = .clear →
      (s.calls i).phase = .over id .timedOut → s.lane.Abandoned id := by
    refine Library.Reach.invariant (P := fun s => ∀ i id, (s.calls i).kind.target.1 = .clear →
      (s.calls i).phase = .over id .timedOut → s.lane.Abandoned id) ?_ ?_ h
    · rintro s ⟨tid, -, -, rfl⟩ i id _ hphase
      cases hphase
    · rintro s ⟨env, e⟩ hreach hold ⟨ha, -⟩ i id hk hphase
      have hs := tasks_reachableWhen hreach
      rcases s.step_same (env, e) i with hsame | he | he | he | ⟨kind, he, hi⟩
      · rw [hsame.kind] at hk
        rw [hsame.phase] at hphase
        rcases step_lane hs ha with heq | ⟨b, -, heq⟩
        · rw [heq]
          exact hold i id hk hphase
        · rw [heq]
          exact (hold i id hk hphase).step hs.wf _
      · -- the call has only just queued its task
        obtain rfl : e = .queue i := he
        have hwaiting : ((s.step (env, .queue i)).calls i).phase = .waiting s.lane.nextTask := by
          refine (laneStep_same _ _ i).phase.trans ?_
          rw [setCall_calls, if_pos rfl]
        rw [hwaiting] at hphase
        cases hphase
      · obtain rfl : e = .wake i := he
        have hcall : (s.step (env, .wake i)).calls i = (s.calls i).decide := by
          show ((s.setCall i (s.calls i).decide).unlock i).calls i = _
          rw [unlock_calls, setCall_calls, if_pos rfl]
        rw [hcall] at hk hphase
        rw [(Call.decide_moved _ (Call.isOpen_of_isWaiting ha.2)).kind] at hk
        exact absurd hphase (decide_ne_timedOut hk ha.2)
      · obtain rfl : e = .cleanUp i := he
        have hstep : s.step (env, .cleanUp i) = s.cleanUp env i := rfl
        rw [hstep] at hk hphase ⊢
        rcases cleanUp_eq env ha.2 with ⟨id', slot, hcleaning, hkind, heq⟩ | ⟨hnot, heq⟩
        · rw [heq] at hphase ⊢
          rw [setCall_calls, if_pos rfl] at hphase
          have htask : ((s.laneStep (env, .dequeueClear id')).calls i).task? = some id' := by
            rw [(s.laneStep_same _ i).task?, Call.task?, hcleaning]
          rw [Call.finish, htask] at hphase
          dsimp only at hphase
          split at hphase
          · rename_i hq
            cases hphase
            exact Lane.abandoned_dequeue hs.lane ((mem_queue_iff hs.wf).mp hq) env
          · cases hphase
        · exfalso
          rw [heq] at hk
          rw [unlock_calls, setCall_calls, if_pos rfl, (Call.finish_moved ..).kind,
            (s.laneStep_same _ i).kind] at hk
          exact hnot hk
      · obtain rfl : e = .begin kind := he
        subst hi
        have hnew : ((s.step (env, .begin kind)).calls s.nextCall).phase = .listening := by
          show (Function.update s.calls s.nextCall _ s.nextCall).phase = _
          rw [Function.update_self]
        rw [hnew] at hphase
        cases hphase
  exact key i id hk hphase

/-! ## The report -/

instance NoClearQueued.decidable (s : Callers) : Decidable s.NoClearQueued :=
  inferInstanceAs (Decidable (∀ i < s.nextCall, (s.calls i).kind.target.1 = .clear →
    (s.calls i).isOpen = true → s.taskQueued i = false))

instance NoClearCleaning.decidable (s : Callers) : Decidable s.NoClearCleaning :=
  inferInstanceAs (Decidable (∀ i < s.nextCall, (s.calls i).kind.target.1 = .clear →
    (s.calls i).isCleaning = true → s.taskQueued i = false))

instance ClearsApart.decidable (s : Callers) (a : Env × CallerEvent) :
    Decidable (s.ClearsApart a) :=
  match a with
  | (_, .begin kind) =>
    inferInstanceAs (Decidable (kind.target.1 = .clear → s.FreeFor kind.target))
  | (_, .cleanUp i) =>
    inferInstanceAs (Decidable ((s.calls i).kind.target.1 ≠ .clear → s.NoClearQueued))
  | (_, .lane .abortTransfers) => inferInstanceAs (Decidable s.NoClearQueued)
  | (_, .lane .resetTransferLane) => inferInstanceAs (Decidable s.NoClearCleaning)
  | (_, .lane (.lockObtained _)) | (_, .lane (.lockState _ _)) | (_, .lane .fireWake)
  | (_, .lane (.fileTransferContinueData _ _ _)) | (_, .lane (.fileTransferData _ _))
  | (_, .lane (.fileTransferError _ _)) | (_, .lane (.fileTransferDataComplete _))
  | (_, .lane (.download _ _)) | (_, .lane (.upload _ _ _)) | (_, .lane (.queueClear _ _))
  | (_, .lane (.dequeueClear _)) | (_, .lane .poke) | (_, .lane .wakeup)
  | (_, .lane .queueFlushed) | (_, .lane .releaseLocksNow) | (_, .queue _) | (_, .wake _) =>
    inferInstanceAs (Decidable True)

/-- A clear that gets its lock while the caller waits, and one whose lock does not come. -/
def clearedAndTimedOut : List (Env × CallerEvent) :=
  [(⟨0, none⟩, .begin (.clearStill 1)), (⟨0, none⟩, .queue 0),
   (⟨milliseconds 5, none⟩, .lane (.lockObtained 0)), (⟨milliseconds 5, none⟩, .wake 0),
   (⟨milliseconds 6, none⟩, .begin (.clearStill 2)), (⟨milliseconds 6, none⟩, .queue 1),
   (⟨milliseconds 5006, none⟩, .wake 1), (⟨milliseconds 5006, none⟩, .cleanUp 1)]

/-- A clear waits for its lock when another thread's download times out. -/
def clearAborted : List (Env × CallerEvent) :=
  [(⟨0, none⟩, .begin (.downloadTransfer 0 2)), (⟨0, none⟩, .queue 0),
   (⟨milliseconds 10, none⟩, .begin (.clearStill 1)), (⟨milliseconds 10, none⟩, .queue 1),
   (⟨milliseconds 20, none⟩, .wake 0), (⟨milliseconds 20, none⟩, .cleanUp 0),
   (⟨milliseconds 5010, none⟩, .wake 1), (⟨milliseconds 5010, none⟩, .cleanUp 1)]

end Callers

end Bmdwire
