import Bmdwire.Analysis.Outstanding

/-!
# A lane that is served

While no transfer is in flight and no drain is on, some store with queued tasks must have
something on its way: its lock request is out, another client holds it, or a wakeup is
coming that will look after its turn. Every way through the trigger ends so
(`served_transferTrigger`), and a wakeup that finds a store left free runs the trigger for
it or arms the next wake (`served_handleWakeup`).
-/

set_option autoImplicit false

namespace Bmdwire

open Library (Dict)

namespace Lane

/-- A wake is armed, or a `Wakeup` waits to be handled. -/
def WakePending (s : Lane) : Prop := s.wakeDue ≠ none ∨ s.wakeups ≠ 0

/-- A wakeup is coming that finds the store left free and looks after it. -/
def WakesFor (s : Lane) (k : Store) : Prop :=
  s.WakePending ∧ (s.yielding.get? k).isSome ∧ s.held k = false

/-- Something is on its way for the store. -/
def Awaited (s : Lane) (k : Store) : Prop :=
  (s.lockRequested.get? k).isSome ∨ k ∈ s.foreignHeld ∨ s.WakesFor k

/-- No transfer is in flight, and no drain is on. -/
def AtRest (s : Lane) : Prop := s.transfer = none ∧ s.draining = none

/-- A lane at rest that has work is waiting for something, for a store that has work. -/
def Served (s : Lane) : Prop :=
  s.AtRest → (∃ k, s.queue k ≠ []) → ∃ k, s.queue k ≠ [] ∧ s.Awaited k

instance WakePending.decidable (s : Lane) : Decidable s.WakePending :=
  inferInstanceAs (Decidable (_ ∨ _))

instance Awaited.decidable (s : Lane) (k : Store) : Decidable (s.Awaited k) :=
  inferInstanceAs (Decidable (_ ∨ _ ∨ _ ∧ _ ∧ _))

instance AtRest.decidable (s : Lane) : Decidable s.AtRest :=
  inferInstanceAs (Decidable (_ ∧ _))

/-! ## Ways to be served -/

theorem served_of_awaited {s : Lane} {k : Store} (hk : s.queue k ≠ []) (h : s.Awaited k) :
    s.Served := fun _ _ => ⟨k, hk, h⟩

theorem served_of_transfer {s : Lane} (h : s.transfer ≠ none) : s.Served := fun hrest =>
  absurd hrest.1 h

theorem served_of_draining {s : Lane} (h : s.draining ≠ none) : s.Served := fun hrest =>
  absurd hrest.2 h

theorem served_of_empty {s : Lane} (h : ∀ k, s.queue k = []) : s.Served := by
  rintro - ⟨k, hk⟩
  exact absurd (h k) hk

/-- A change that keeps the transfer, the drain and the queues serves the lane if it keeps
what the stores with work wait for. -/
theorem Served.frame {s t : Lane} (h : s.Served) (htransfer : t.transfer = s.transfer)
    (hdrain : t.draining = s.draining) (hqueue : ∀ k, t.queue k = s.queue k)
    (hawaited : s.AtRest → ∀ k, s.queue k ≠ [] → s.Awaited k → t.Awaited k) : t.Served := by
  intro hrest hwork
  have hrest' : s.AtRest := ⟨htransfer ▸ hrest.1, hdrain ▸ hrest.2⟩
  obtain ⟨k, hk⟩ := hwork
  rw [hqueue] at hk
  obtain ⟨j, hj, hw⟩ := h hrest' ⟨k, hk⟩
  refine ⟨j, ?_, hawaited hrest' j hj hw⟩
  rw [hqueue]
  exact hj

/-- What a store waits for is kept if its request, holder, turn and lock are, and the wake. -/
theorem Awaited.keep {s t : Lane} {k : Store} (h : s.Awaited k)
    (hasked : t.lockRequested.get? k = s.lockRequested.get? k)
    (hforeign : k ∈ s.foreignHeld → k ∈ t.foreignHeld)
    (hyield : (s.yielding.get? k).isSome → (t.yielding.get? k).isSome)
    (hheld : t.held k = s.held k) (hwake : s.WakePending → t.WakePending) : t.Awaited k := by
  rcases h with h | h | ⟨hw, hy, hh⟩
  · exact .inl (hasked ▸ h)
  · exact .inr (.inl (hforeign h))
  · exact .inr (.inr ⟨hwake hw, hyield hy, hheld.trans hh⟩)

/-- A wake is pending once one is asked for. -/
theorem wakePending_wakeAt (due : Time) (s : Lane) : (s.wakeAt due).WakePending := by
  left
  simp only [wakeAt]
  split
  · split <;> simp
  · simp

theorem Served.wakeAt {s : Lane} (h : s.Served) (due : Time) : (s.wakeAt due).Served := by
  refine h.frame rfl rfl (fun _ => rfl) ?_
  intro _ k _ hk
  exact hk.keep rfl id id rfl fun _ => wakePending_wakeAt due s

theorem Served.quiet {s t : Lane} (h : s.Served) (hq : s.Quiet t) : t.Served := by
  have hst := hq.sameTransfers
  apply h.frame hst.transfer hst.draining hst.queue
  intro _ k _ hk
  have hheld : t.held k = s.held k := by rw [held_eq, hq.locks, held_eq]
  refine hk.keep (by rw [hq.lockRequested]) ?_ ?_ hheld ?_
  · rw [hq.foreignHeld]
    exact id
  · rw [hq.yielding]
    exact id
  · unfold WakePending
    rw [hq.wakeDue, hq.wakeups]
    exact id

theorem Served.raise {s : Lane} (h : s.Served) (n : Notice) : (s.raise n).Served := h

theorem Served.receive {s : Lane} (h : s.Served) (env : Env) (e : LaneEvent) :
    (s.receive env e).Served := h

/-! ## The trigger serves the lane -/

section Trigger

variable {now : Time}

/-- Asking for a lock leaves its request out, and a task behind it. -/
theorem served_requestLock {task : TransferTask} {s : Lane} (hq : s.queue task.store ≠ []) :
    (s.requestLock now task).Served := by
  have hsend : (s.sendLockRequest now task).Served := by
    refine served_of_awaited (k := task.store) hq ?_
    left
    simp [sendLockRequest, send]
  unfold requestLock
  split
  · rename_i asked hasked
    split
    · apply served_of_awaited (k := task.store) hq
      left
      simp [hasked]
    · exact hsend
  · exact hsend

/-- A task whose store is not locked waits for its holder, for the turn left to others, or
for the request. -/
theorem served_askForLock {task : TransferTask} {s : Lane} (hq : s.queue task.store ≠ [])
    (hheld : s.held task.store = false) : (s.askForLock now task).Served := by
  unfold askForLock
  split
  · rename_i hforeign
    exact served_of_awaited hq (.inr (.inl hforeign))
  · split
    · rename_i y hy
      dsimp only
      split
      · refine served_of_awaited (k := task.store) hq ?_
        exact .inr (.inr ⟨wakePending_wakeAt _ s, by simp [wakeAt, hy], hheld⟩)
      · exact served_requestLock hq
    · exact served_requestLock hq

/-- The trigger serves the lane, given that the one a clear ends in does. -/
theorem served_startNext {trigger : Store → Lane → Lane} {store : Store} {retry : Bool} {s : Lane}
    (hs : s.Wf)
    (htrigger : ∀ id, s.Front id → s.Usable (s.tasks id).store → s.transferRequested = false →
      (s.tasks id).kind = .clear →
      (trigger (s.tasks id).store ((s.dispatchClear now id).letGo now (s.tasks id).store)).Served) :
    (startNext trigger now store retry s).Served := by
  unfold startNext
  cases hn : s.nextFor store with
  | none =>
    obtain ⟨new, heq, -⟩ := cleanLocks_eq now s
    dsimp only
    rw [heq]
    exact served_of_empty (nextFor_eq_none_iff.mp hn)
  | some id =>
    have hfront := front_of_nextFor hs.store hn
    dsimp only
    split
    · rename_i hlock
      exact served_askForLock hfront.queue_ne_nil (by simpa using hlock.2)
    · rename_i hlock
      have husable : s.Usable (s.tasks id).store := by
        by_contra hnot
        rw [Usable, not_or, Bool.not_eq_true] at hnot
        exact hlock ⟨hnot.1, by simp [hnot.2]⟩
      split
      · rename_i hreq
        exact served_of_transfer (hs.requested hreq)
      · rename_i hreq
        rw [Bool.not_eq_true] at hreq
        split
        · rename_i hclear
          rw [releaseThenContinueWith_eq]
          exact htrigger id hfront husable hreq hclear
        · apply served_of_transfer
          rw [(requested_requestTransfer now retry id s).transfer]
          simp

/-- The trigger serves the lane, each clear on the way leaving one task less. -/
theorem served_transferTriggerFuel (fuel : ℕ) (store : Store) (retry : Bool) (s : Lane)
    (hs : s.Wf) (hp : s.PausesInFlight) (hfuel : s.queued.length < fuel) :
    (transferTriggerFuel now fuel store retry s).Served := by
  induction fuel generalizing store retry s with
  | zero => omega
  | succ fuel ih =>
    have key : ∀ (r : Bool) (t : Lane), t.Wf → t.Ready → t.queued.length < fuel + 1 →
        (startNext (fun k u => transferTriggerFuel now fuel k false u) now store r t).Served := by
      intro r t ht hready hlen
      apply served_startNext ht
      intro id hfront husable hreq hclear
      have hm : TriggerMove now True t ((t.dispatchClear now id).letGo now (t.tasks id).store) :=
        .clear hready hfront husable hreq hclear
      have hless := queued_dispatched now (t.tasks id).store hfront
      apply ih
      · exact wf_triggerMove _ _ hm ht
      · exact pause_triggerMove hm fun hdue => absurd hready.2 hdue
      · omega
    unfold transferTriggerFuel
    dsimp only
    split
    · rename_i hd
      apply served_of_draining
      simpa [Option.isSome_iff_ne_none] using hd
    · rename_i hd
      rw [Option.not_isSome_iff_eq_none] at hd
      split
      · rename_i due hdue
        split
        · exact served_of_transfer (hp (by simp [hdue]))
        · rename_i hlt
          have hm : TriggerMove now True s { s with tryAgainDue := none } :=
            .pauseOver hd hdue (Nat.le_of_not_lt hlt)
          exact key true _ (wf_triggerMove _ _ hm hs) ⟨hd, rfl⟩ hfuel
      · rename_i hdue
        exact key retry s hs ⟨hd, hdue⟩ hfuel

/-- However the trigger goes, it leaves the lane served. -/
theorem served_transferTrigger (store : Store) (retry : Bool) {s : Lane} (hs : s.Wf)
    (hp : s.PausesInFlight) : (s.transferTrigger now store retry).Served :=
  served_transferTriggerFuel _ store retry s hs hp (Nat.lt_succ_self _)

end Trigger

/-! ## A wakeup serves the lane -/

section Wakeup

variable {now : Time}

theorem TriggerMoves.pause {stale : Prop} {s t : Lane} (h : TriggerMoves now stale s t)
    (hs : s.PausesInFlight) : t.PausesInFlight :=
  h.keep (P := fun t => t.PausesInFlight) (fun _ _ => pause_triggerMove) hs

/-- The end of a turn that no task waits for. -/
theorem Served.endYield {s : Lane} (h : s.Served) {store : Store} (hq : s.queue store = []) :
    (s.endYield store).Served := by
  refine h.frame rfl rfl (fun _ => rfl) ?_
  intro _ k hk hw
  have hne : k ≠ store := by
    rintro rfl
    exact hk hq
  refine hw.keep rfl id ?_ rfl id
  intro hy
  show ((s.yielding.erase store).get? k).isSome
  rwa [Dict.get?_erase_ne _ hne]

/-- One store of the wakeup's loop keeps the lane served. -/
theorem served_serviceYield {s : Lane} (hs : s.Wf) (hp : s.PausesInFlight) (h : s.Served)
    (store : Store) (y : Yield) : (s.serviceYield now store y).Served := by
  unfold serviceYield
  dsimp only
  split
  · rename_i hq
    split
    · exact h.endYield hq
    · exact h
  · split
    · exact h
    · split
      · exact h.wakeAt _
      · exact served_transferTrigger store false hs hp

/-- A store left free that has work, and whose lock is not held, is served by its turn in
the loop. -/
theorem served_serviceYield_of_work {s : Lane} (hs : s.Wf) (hp : s.PausesInFlight)
    {store : Store} {y : Yield} (hy : s.yielding.get? store = some y) (hq : s.queue store ≠ [])
    (hheld : s.held store = false) : (s.serviceYield now store y).Served := by
  unfold serviceYield
  dsimp only
  rw [if_neg hq]
  split
  · rename_i hskip
    rcases hskip with hreq | hh | hforeign
    · exact served_of_transfer (hs.requested hreq)
    · simp [hheld] at hh
    · exact served_of_awaited hq (.inr (.inl hforeign))
  · split
    · refine served_of_awaited (k := store) hq ?_
      exact .inr (.inr ⟨wakePending_wakeAt _ s, by simp [wakeAt, hy], hheld⟩)
    · exact served_transferTrigger store false hs hp

/-- The loop keeps the lane served. -/
theorem served_serviceYieldList (stores : List Store) {s : Lane} (hs : s.Wf)
    (hp : s.PausesInFlight) (h : s.Served) : (serviceYieldList now stores s).Served := by
  induction stores generalizing s with
  | nil => exact h
  | cons store stores ih =>
    unfold serviceYieldList
    split
    · rename_i y hy
      have hm : TriggerMoves now True s (s.serviceYield now store y) :=
        serviceYield_moves hs hy fun _ _ => .inr trivial
      exact ih (hm.wf hs) (hm.pause hp) (served_serviceYield hs hp h store y)
    · exact h

/-- A store's turn in the loop serves the lane, or leaves the turns, queues and locks of the
other stores as they are. -/
theorem serviceYield_serves_or {s : Lane} (hs : s.Wf) (hp : s.PausesInFlight) (store : Store)
    (y : Yield) : (s.serviceYield now store y).Served ∨
      ∀ k, k ≠ store → (s.serviceYield now store y).yielding.get? k = s.yielding.get? k ∧
        (s.serviceYield now store y).queue k = s.queue k ∧
        (s.serviceYield now store y).held k = s.held k := by
  unfold serviceYield
  dsimp only
  split
  · split
    · right
      intro k hk
      exact ⟨Dict.get?_erase_ne _ hk, rfl, rfl⟩
    · exact .inr fun _ _ => ⟨rfl, rfl, rfl⟩
  · split
    · exact .inr fun _ _ => ⟨rfl, rfl, rfl⟩
    · split
      · exact .inr fun _ _ => ⟨rfl, rfl, rfl⟩
      · exact .inl (served_transferTrigger store false hs hp)

/-- The loop serves a lane that has work for one of its stores, not held. -/
theorem serviceYieldList_serves {stores : List Store} {s : Lane} (hs : s.Wf)
    (hp : s.PausesInFlight) (hnodup : stores.Nodup)
    (hyield : ∀ k ∈ stores, (s.yielding.get? k).isSome)
    (hwork : ∃ k ∈ stores, s.queue k ≠ [] ∧ s.held k = false) :
    (serviceYieldList now stores s).Served := by
  -- by induction on the stores still to come: until the store with work has its turn, the
  -- others leave it alone or run the trigger
  induction stores generalizing s with
  | nil => simp at hwork
  | cons store stores ih =>
    obtain ⟨y, hy⟩ := Option.isSome_iff_exists.mp (hyield store (List.mem_cons_self ..))
    have hm : TriggerMoves now True s (s.serviceYield now store y) :=
      serviceYield_moves hs hy fun _ _ => .inr trivial
    have hs' := hm.wf hs
    have hp' := hm.pause hp
    unfold serviceYieldList
    simp only [hy]
    obtain ⟨k, hk, hq, hheld⟩ := hwork
    by_cases hks : k = store
    · subst hks
      exact served_serviceYieldList stores hs' hp' (served_serviceYield_of_work hs hp hy hq hheld)
    · have hk := (List.mem_cons.mp hk).resolve_left hks
      obtain ⟨hnot, hnodup⟩ := List.nodup_cons.mp hnodup
      rcases @serviceYield_serves_or now _ hs hp store y with h | h
      · exact served_serviceYieldList stores hs' hp' h
      · refine ih hs' hp' hnodup ?_ ⟨k, hk, ?_, ?_⟩
        · intro j hj
          have hjs : j ≠ store := fun heq => hnot (heq ▸ hj)
          rw [(h j hjs).1]
          exact hyield j (List.mem_cons_of_mem _ hj)
        · rw [(h k hks).2.1]
          exact hq
        · rw [(h k hks).2.2]
          exact hheld

/-- The end of a drain serves the lane. -/
theorem served_endDrain {s : Lane} (hs : s.Wf) {d : Drain} (hd : s.draining = some d) :
    (s.endDrain now).Served ∧ (s.endDrain now).Wf ∧ (s.endDrain now).PausesInFlight := by
  have hdue := (hs.draining (by simp [hd])).2
  have hwf : ({ s with draining := none }.letGo now d.store).Wf :=
    wf_drainEnded now hs hd s.wakeups
  have hp : ({ s with draining := none }.letGo now d.store).PausesInFlight := fun h =>
    absurd ((letGo_tryAgainDue now d.store { s with draining := none }).trans hdue) h
  have hm : TriggerMoves now True ({ s with draining := none }.letGo now d.store)
      (s.endDrain now) := endDrain_moves hs hd
  refine ⟨?_, hm.wf hwf, hm.pause hp⟩
  unfold endDrain
  rw [hd]
  dsimp only [releaseThenContinue]
  rw [releaseThenContinueWith_eq]
  exact served_transferTrigger d.store false hwf hp

/-- The retry of a wakeup serves the lane, or there is none. -/
theorem serviceTryAgain_serves_or {s : Lane} (hs : s.Wf) (hp : s.PausesInFlight) :
    (s.serviceTryAgain now).Served ∨ s.serviceTryAgain now = s := by
  unfold serviceTryAgain
  split
  · rename_i due id hdue hid
    split
    · rename_i hle
      have hdrain : s.draining = none := by
        by_contra hd
        have := (hs.draining hd).2
        simp [hdue] at this
      have hm : TriggerMove now True s { s with tryAgainDue := none } := .pauseOver hdrain hdue hle
      exact .inl (served_transferTrigger _ true (wf_triggerMove _ _ hm hs) (pause_triggerMove hm hp))
    · exact .inr rfl
  · exact .inr rfl

/-- A wakeup that finds the lane served with its own help leaves it served without. -/
theorem served_serviceYields {s : Lane} (hs : s.Wf) (hp : s.PausesInFlight)
    (h : s.Served ∨ ∃ k, s.queue k ≠ [] ∧ (s.yielding.get? k).isSome ∧ s.held k = false) :
    (s.serviceYields now).Served := by
  have hrest : ∀ {t : Lane}, t.Wf → t.PausesInFlight →
      (t.Served ∨ ∃ k, t.queue k ≠ [] ∧ (t.yielding.get? k).isSome ∧ t.held k = false) →
      (serviceYieldList now (t.serviceTryAgain now).yielding.keys (t.serviceTryAgain now)).Served := by
    intro t ht htp hserved
    have hm := (@serviceTryAgain_moves True now _ ht (.inl trivial)).1
    have hwf := hm.wf ht
    have hpause := hm.pause htp
    rcases @serviceTryAgain_serves_or now _ ht htp with htry | htry
    · exact served_serviceYieldList _ hwf hpause htry
    · rw [htry] at hwf hpause ⊢
      rcases hserved with hserved | ⟨k, hq, hy, hheld⟩
      · exact served_serviceYieldList _ hwf hpause hserved
      · refine serviceYieldList_serves hwf hpause t.yielding.nodup ?_ ⟨k, ?_, hq, hheld⟩
        · exact fun j hj => (t.yielding.mem_keys j).mp hj
        · exact (t.yielding.mem_keys k).mpr hy
  unfold serviceYields
  dsimp only
  rcases Option.eq_none_or_eq_some s.draining with hd | ⟨d, hd⟩
  · have hsame : s.serviceDrain now = s := by simp only [serviceDrain, hd]
    rw [hsame]
    exact hrest hs hp h
  · have hcases : s.serviceDrain now =
        if now - d.last ≥ drainStall ∨ now - d.since ≥ drainMax then s.endDrain now
        else s.wakeAt (min (d.last + drainStall) (d.since + drainMax)) := by
      simp only [serviceDrain, hd]
    rw [hcases]
    split
    · obtain ⟨hserved, hwf, hpause⟩ := @served_endDrain now _ hs _ hd
      exact hrest hwf hpause (.inl hserved)
    · refine hrest (hs.same (by constructor <;> intros <;> rfl)) hp (.inl ?_)
      apply served_of_draining
      simp [wakeAt, hd]

/-- A wakeup handled leaves the lane served. -/
theorem served_handleWakeup {s : Lane} (hs : s.Wf) (hp : s.PausesInFlight) (h : s.Served) :
    (s.handleWakeup now).Served := by
  unfold handleWakeup
  split
  · exact h
  · refine served_serviceYields (hs.same (by constructor <;> intros <;> rfl)) hp ?_
    by_cases hrest : s.AtRest ∧ ∃ k, s.queue k ≠ []
    · obtain ⟨k, hq, hw⟩ := h hrest.1 hrest.2
      rcases hw with hw | hw | ⟨-, hy, hheld⟩
      · exact .inl (served_of_awaited hq (.inl hw))
      · exact .inl (served_of_awaited hq (.inr (.inl hw)))
      · exact .inr ⟨k, hq, hy, hheld⟩
    · exact .inl fun hr hk => absurd ⟨hr, hk⟩ hrest

end Wakeup

end Lane

end Bmdwire
