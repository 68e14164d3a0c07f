import Bmdwire.Analysis.Served

/-!
# A macro behind a still

The macro store needs no lock, but the trigger looks at one task only: that of the store it is
called for, or else the first in the queues. Where that task waits for its store's lock, a macro
queued beside it waits too. `macro_served` says that it waits for nothing else.
-/

set_option autoImplicit false

namespace Bmdwire

open Library (Dict)

namespace Lane

/-! ## What the trigger comes to -/

/-- Going through these queues, the trigger comes to a task that it can start: a macro store's, or
one whose store's lock is held. A clear gives its lock back, and the trigger goes on. -/
def leadsOn (s : Lane) : List Store → Bool
  | [] => false
  | store :: rest =>
    match s.queue store with
    | [] => s.leadsOn rest
    | id :: behind =>
      store = macroStore ∨
        s.held store ∧ ((s.tasks id).kind ≠ .clear ∨ behind = [] ∧ s.leadsOn rest)

/-- The trigger called for this store starts something. -/
def leads (s : Lane) (store : Store) : Bool := s.leadsOn (store :: s.transferQueue.keys)

/-- A macro is queued, and the trigger may start something now. -/
structure MacroReady (now : Time) (s : Lane) : Prop where
  queued : s.queue macroStore ≠ []
  idle : s.transferRequested = false
  undrained : s.draining = none
  rested : ∀ due, s.tryAgainDue = some due → due ≤ now

/-- No macro is queued, or there is something else to wait for. -/
def Occupied (now : Time) (s : Lane) : Prop :=
  s.queue macroStore = [] ∨ s.transferRequested = true ∨ s.draining ≠ none ∨
    ∃ due, s.tryAgainDue = some due ∧ now < due

section Trigger

variable {now : Time} {stale : Prop} {s t : Lane} {store : Store}

theorem occupied_or_ready (now : Time) (s : Lane) : s.Occupied now ∨ s.MacroReady now := by
  by_cases hbusy : s.Occupied now
  · exact .inl hbusy
  · unfold Occupied at hbusy
    push Not at hbusy
    obtain ⟨hqueued, hidle, hundrained, hrested⟩ := hbusy
    exact .inr ⟨hqueued, by simpa using hidle, hundrained, hrested⟩

/-- The trigger takes nothing away that a macro waits for, but for what it starts. -/
theorem occupied_triggerMove (hm : TriggerMove now stale s t) (hs : s.Occupied now) :
    t.Occupied now := by
  have hempty : s.Ready → s.transferRequested = false → s.queue macroStore = [] := by
    rintro ⟨hdraining, hdue⟩ hidle
    rcases hs with hempty | hrequested | hdrains | ⟨due, hpause, -⟩
    · exact hempty
    · rw [hidle] at hrequested
      cases hrequested
    · exact absurd hdraining hdrains
    · rw [hdue] at hpause
      cases hpause
  cases hm with
  | wake due => exact hs
  | fail => exact hs
  | @pauseOver due _ hdue hover =>
    rcases hs with hempty | hrequested | hdrains | ⟨due', hpause, hlater⟩
    · exact .inl hempty
    · exact .inr (.inl hrequested)
    · exact .inr (.inr (.inl hdrains))
    · rw [hdue] at hpause
      cases hpause
      exact absurd hlater (Nat.not_lt.mpr hover)
  | endYield _ _ => exact hs
  | clean _ hnone => exact .inl (by rw [(sameTransfers_cleanLocks now s).queue]; exact hnone _)
  | askForLock _ _ _ _ _ _ => exact hs
  | @clear id hready hfront _ hidle _ =>
    left
    have hqueue := hempty hready hidle
    rw [letGo_queue]
    show (s.popHead id).queue macroStore = []
    rw [queue_popHead hfront, hqueue]
    split
    · rfl
    · rfl
  | request retry _ _ _ _ _ _ =>
    exact .inr (.inl (requested_requestTransfer now retry _ s).transferRequested)

theorem occupied_triggerMoves (hm : TriggerMoves now stale s t) (hs : s.Occupied now) :
    t.Occupied now :=
  hm.keep (fun _ _ => occupied_triggerMove) hs

theorem nextFor_eq (s : Lane) (store : Store) : s.nextFor store =
    (store :: s.transferQueue.keys).findSome? fun k => (s.queue k).head? := by
  unfold nextFor
  rw [List.findSome?_cons]
  cases s.queue store with
  | nil => rfl
  | cons id behind => rfl

/-- What the trigger comes to first. -/
theorem leadsOn_first (hs : s.StoresMatch) {stores : List Store} (h : s.leadsOn stores = true) :
    ∃ id, stores.findSome? (fun k => (s.queue k).head?) = some id ∧
      ((s.tasks id).store = macroStore ∨ s.held (s.tasks id).store = true ∧
        ((s.tasks id).kind = .clear → s.queue (s.tasks id).store = [id])) := by
  induction stores with
  | nil => cases h
  | cons store stores ih =>
    unfold leadsOn at h
    rw [List.findSome?_cons]
    cases hqueue : s.queue store with
    | nil =>
      rw [hqueue] at h
      exact ih h
    | cons id behind =>
      have hstore : (s.tasks id).store = store :=
        hs store id (by rw [hqueue]; exact List.mem_cons_self)
      rw [hqueue] at h
      refine ⟨id, rfl, ?_⟩
      rw [hstore]
      rcases of_decide_eq_true h with hexempt | ⟨hheld, hfirst⟩
      · exact .inl hexempt
      · refine .inr ⟨hheld, fun hclear => ?_⟩
        rw [hqueue, (hfirst.resolve_left (not_not.mpr hclear)).1]

/-- A clear dispatched on the way leaves the way as it was behind it. -/
theorem leadsOn_cleared {id : TaskId} {stores : List Store} (h : s.leadsOn stores = true)
    (hqueue : s.queue store = [id]) (hclear : (s.tasks id).kind = .clear)
    (hexempt : store ≠ macroStore) (hgone : t.queue store = [])
    (hqueues : ∀ k, k ≠ store → t.queue k = s.queue k)
    (hheld : ∀ k, k ≠ store → t.held k = s.held k) (htasks : t.tasks = s.tasks) :
    t.leadsOn stores = true := by
  induction stores with
  | nil => cases h
  | cons k stores ih =>
    unfold leadsOn at h ⊢
    by_cases hk : k = store
    · subst hk
      rw [hqueue] at h
      rw [hgone]
      rcases of_decide_eq_true h with hexempt' | ⟨-, hfirst⟩
      · exact absurd hexempt' hexempt
      · exact ih (hfirst.resolve_left (not_not.mpr hclear)).2
    · rw [hqueues k hk, hheld k hk, htasks]
      cases hkqueue : s.queue k with
      | nil =>
        rw [hkqueue] at h
        exact ih h
      | cons j behind =>
        rw [hkqueue] at h
        refine decide_eq_true ?_
        rcases of_decide_eq_true h with hexempt' | ⟨hlocked, hfirst⟩
        · exact .inl hexempt'
        · exact .inr ⟨hlocked, hfirst.imp_right fun hlast => ⟨hlast.1, ih hlast.2⟩⟩

/-- With the head of its queue gone or not, a store that has work is what the trigger for it comes
to. -/
theorem leads_exempt (h : s.queue macroStore ≠ []) : s.leads macroStore = true := by
  obtain ⟨id, behind, hqueue⟩ := List.exists_cons_of_ne_nil h
  unfold leads leadsOn
  rw [hqueue]
  exact decide_eq_true (.inl rfl)

/-- The queues behind the preferred one lead on too, when that has no work, or a clear alone. -/
theorem leadsOn_behind (h : s.leads store = true) (hexempt : store ≠ macroStore) {id : TaskId}
    (hqueue : s.queue store = [id] ∧ (s.tasks id).kind = .clear ∨ s.queue store = []) :
    s.leadsOn s.transferQueue.keys = true := by
  unfold leads leadsOn at h
  rcases hqueue with ⟨hqueue, hclear⟩ | hqueue
  · rw [hqueue] at h
    rcases of_decide_eq_true h with hexempt' | ⟨-, hfirst⟩
    · exact absurd hexempt' hexempt
    · exact (hfirst.resolve_left (not_not.mpr hclear)).2
  · rw [hqueue] at h
    exact h

/-- Where the trigger leads on depends on the queues, the tasks and the locks held. -/
theorem leadsOn_congr (hqueue : t.queue = s.queue) (hheld : t.held = s.held)
    (htasks : t.tasks = s.tasks) (stores : List Store) : t.leadsOn stores = s.leadsOn stores := by
  induction stores with
  | nil => rfl
  | cons k stores ih =>
    unfold leadsOn
    rw [hqueue, hheld, htasks]
    split
    · exact ih
    · rw [ih]

/-- The clear that the trigger comes to, where the trigger leads on, leads on from there. -/
theorem leads_dispatched {id : TaskId} (hs : s.StoresMatch) (h : s.leads store = true)
    (hnext : s.nextFor store = some id) (hclear : (s.tasks id).kind = .clear)
    (hexempt : (s.tasks id).store ≠ macroStore) :
    ((s.dispatchClear now id).letGo now (s.tasks id).store).leads (s.tasks id).store = true := by
  have hfront := front_of_nextFor hs hnext
  obtain ⟨id', hfirst, hcomes⟩ := leadsOn_first hs h
  rw [← nextFor_eq, hnext] at hfirst
  obtain rfl := Option.some.inj hfirst
  obtain ⟨-, hlast⟩ := hcomes.resolve_left hexempt
  have hqueue := hlast hclear
  have hbehind : s.leadsOn s.transferQueue.keys = true := by
    by_cases hstore : (s.tasks id).store = store
    · exact leadsOn_behind h (by rwa [← hstore]) (.inl ⟨by rwa [← hstore], hclear⟩)
    · unfold leads leadsOn at h
      cases hpreferred : s.queue store with
      | nil =>
        rw [hpreferred] at h
        exact h
      | cons j behind =>
        rw [nextFor_of_queue (by rw [hpreferred]; rfl)] at hnext
        obtain rfl := Option.some.inj hnext
        exact absurd (hs store j (by rw [hpreferred]; exact List.mem_cons_self)) hstore
  have hkeys : ((s.dispatchClear now id).letGo now (s.tasks id).store).transferQueue.keys =
      s.transferQueue.keys := by
    rw [letGo_transferQueue]
    exact keys_popHead hfront
  have hgone : ((s.dispatchClear now id).letGo now (s.tasks id).store).queue (s.tasks id).store =
      [] := by
    rw [queue_dispatched, queue_popHead hfront, if_pos rfl, hqueue]
    rfl
  unfold leads leadsOn
  rw [hgone, hkeys]
  refine leadsOn_cleared hbehind hqueue hclear hexempt hgone (fun k hk => ?_) (fun k hk => ?_) ?_
  · rw [queue_dispatched, queue_popHead hfront, if_neg hk]
  · rw [letGo_held now _ _ hexempt, if_neg hk]
    rfl
  · rw [letGo_tasks]
    rfl

/-- Where the trigger leads on, a macro waits for something. -/
theorem occupied_startNext {trigger : Store → Lane → Lane} (retry : Bool) (hs : s.StoresMatch)
    (hidle : s.transferRequested = false) (h : s.leads store = true)
    (htrigger : ∀ id, s.nextFor store = some id → (s.tasks id).kind = .clear →
      (trigger (s.tasks id).store
        ((s.dispatchClear now id).letGo now (s.tasks id).store)).Occupied now) :
    (startNext trigger now store retry s).Occupied now := by
  obtain ⟨id, hfirst, hcomes⟩ := leadsOn_first hs h
  rw [← nextFor_eq] at hfirst
  have hlocked : ¬ ((s.tasks id).store ≠ macroStore ∧ ¬ s.held (s.tasks id).store) := by
    rintro ⟨hexempt, hfree⟩
    exact hfree (hcomes.resolve_left hexempt).1
  unfold startNext
  rw [hfirst]
  dsimp only
  rw [if_neg hlocked, if_neg (by simp [hidle])]
  split
  · rename_i hclear
    rw [releaseThenContinueWith_eq]
    exact htrigger id hfirst hclear
  · exact .inr (.inl (requested_requestTransfer now retry id s).transferRequested)

/-- After the trigger a macro waits for something, if it was before, or if the trigger leads on. -/
theorem occupied_trigger (store : Store) (retry : Bool) (hs : s.StoresMatch)
    (h : s.MacroReady now → s.leads store = true) :
    (s.transferTrigger now store retry).Occupied now := by
  induction hn : s.queued.length using Nat.strong_induction_on generalizing s store retry with
  | _ n ih =>
    rcases occupied_or_ready now s with hbusy | hready
    · have hmoves : TriggerMoves now True s (s.transferTrigger now store retry) :=
        transferTrigger_moves store retry s hs (fun _ => .inr trivial) fun _ _ _ => .inr trivial
      exact occupied_triggerMoves hmoves hbusy
    · have hstart : ∀ (r : Bool) (u : Lane), u.queue = s.queue → u.held = s.held →
          u.tasks = s.tasks → u.transferQueue.keys = s.transferQueue.keys →
          u.transferRequested = false →
          (startNext (fun k t => t.transferTrigger now k false) now store r u).Occupied now := by
        intro r u hqueue hheld htasks hkeys hidle
        have hmatch : u.StoresMatch := by
          unfold StoresMatch
          rw [hqueue, htasks]
          exact hs
        have hleads : u.leads store = true := by
          unfold leads
          rw [hkeys, leadsOn_congr hqueue hheld htasks]
          exact h hready
        refine occupied_startNext r hmatch hidle hleads fun id hnext hclear => ?_
        have hfront := front_of_nextFor hmatch hnext
        have hfewer := queued_dispatched now (u.tasks id).store hfront
        have hcount : u.queued.length = s.queued.length := by
          unfold queued
          rw [hqueue, hkeys]
        refine ih _ (by omega) _ false (storesMatch_dispatched now _ hmatch hfront)
          (fun hready' => ?_) rfl
        by_cases hexempt : (u.tasks id).store = macroStore
        · rw [hexempt]
          rw [hexempt] at hready'
          exact leads_exempt hready'.queued
        · exact leads_dispatched hmatch hleads hnext hclear hexempt
      rw [transferTrigger_eq now store retry hs, if_neg (by simp [hready.undrained])]
      split
      · rename_i due hdue
        rw [if_neg (Nat.not_lt.mpr (hready.rested due hdue))]
        exact hstart true { s with tryAgainDue := none } rfl rfl rfl rfl hready.idle
      · exact hstart retry s rfl rfl rfl rfl hready.idle

end Trigger

/-! ## The stores that handlers go on with -/

section Handlers

variable (now : Time) (s : Lane)

/-- The drain's store, and the lane once the drain is over. -/
def drainEnded (d : Drain) : Store × Lane :=
  (d.store, { s with draining := none }.letGo now d.store)

/-- The task in flight that a message with this id is for. -/
def answered (transfer : ℕ) : Option TaskId :=
  s.transfer.filter fun id => (s.tasks id).tid = some transfer

/-- What `transferRefused` goes on with. -/
def refusedTurn (id : TaskId) (status : ℕ) : List (Store × Lane) :=
  let store := (s.tasks id).store
  if status = 1 then
    if tryAgainAttempts ≤ (s.tasks id).tryAgain then
      [(store, (s.countTry id).dropFailed now id)]
    else []
  else if status = 5 then
    [(store, { s with transferRequested := false, locks := s.locks.set store false })]
  else if status = 6 then
    [(store, { s with
      transferRequested := false
      lockRequested := s.lockRequested.erase store
      othersSeen := some now }.letGo now store)]
  else [(store, { s with transferRequested := false }.dropFailed now id)]

/-- A store left free whose turn `_service_yields` finds over, with work for it. -/
def yieldOver (store : Store) : Bool :=
  match s.yielding.get? store with
  | some y => s.queue store ≠ [] ∧ s.held store = false ∧ store ∉ s.foreignHeld ∧
      s.yieldDue now store y ≤ now
  | none => false

/-- The task that an elapsed pause is for. -/
def resumed : Option TaskId := if s.pauseElapsed now then s.transfer else none

/-- What a wakeup goes on with first. -/
def wakeupTurn : List (Store × Lane) :=
  match s.draining with
  | some d =>
    if now - d.last ≥ drainStall ∨ now - d.since ≥ drainMax then [s.drainEnded now d] else []
  | none =>
    match s.resumed now with
    | some id => [((s.tasks id).store, { s with tryAgainDue := none })]
    | none => (s.yielding.keys.filter (s.yieldOver now)).map fun store => (store, s)

/-- The store that the handler of an event goes on with, and the lane then. The trigger is called
for it, but for an FTDE 6 that gives the store's lock back: that leaves it to its announcement. -/
def nextTurn : LaneEvent → List (Store × Lane)
  | .lockObtained store =>
    [(store, { s with
      locks := s.locks.set store true
      lastGrant := s.lastGrant.set store now
      lockRequested := s.lockRequested.erase store })]
  | .lockState store state =>
    if state = false ∧ s.held store = false ∧ s.queue store ≠ [] then [(store, s.freed now store)]
    else []
  | .fileTransferError transfer status =>
    match s.draining with
    | some d => if d.tid = transfer then [s.drainEnded now d] else []
    | none => (s.answered transfer).elim [] fun id => s.refusedTurn now id status
  | .fileTransferDataComplete transfer =>
    match s.draining with
    | some d => if d.tid = transfer then [s.drainEnded now d] else []
    | none => (s.answered transfer).elim [] fun id =>
        [((s.tasks id).store, s.dropCompleted now id)]
  | .wakeup =>
    if s.wakeups = 0 then [] else { s with wakeups := s.wakeups - 1 }.wakeupTurn now
  | e => (newTask e).elim [] fun task => [(task.store, s.enqueue task)]

/-- Where the lane may start a macro, what the handler goes on with leads to a task that can be
started: a macro, or one whose store's lock is held. -/
def Unhindered (e : LaneEvent) : Prop :=
  ∀ next ∈ s.nextTurn now e, next.2.MacroReady now → next.2.leads next.1 = true

/-- A macro that is queued waits for a transfer, a drain or a pause, or a wakeup will trigger for
its store. -/
def MacroServed : Prop :=
  s.queue macroStore ≠ [] → s.transferRequested = true ∨ s.draining ≠ none ∨
    s.tryAgainDue ≠ none ∨ s.WakesFor macroStore

/-- No macro is queued, or there is something else to wait for, be it a pause that is over. -/
def Engaged : Prop :=
  s.queue macroStore = [] ∨ s.transferRequested = true ∨ s.draining ≠ none ∨ s.tryAgainDue ≠ none

end Handlers

/-! ## Steps -/

section Steps

variable {now : Time} {env : Env} {e : LaneEvent} {s t : Lane} {store : Store}

theorem Occupied.engaged (h : s.Occupied now) : s.Engaged := by
  rcases h with hempty | hrequested | hdrains | ⟨due, hdue, -⟩
  · exact .inl hempty
  · exact .inr (.inl hrequested)
  · exact .inr (.inr (.inl hdrains))
  · exact .inr (.inr (.inr (by simp [hdue])))

theorem Engaged.same (h : s.Engaged) (hst : s.SameTransfers t) : t.Engaged := by
  unfold Engaged
  rw [hst.queue, hst.transferRequested, hst.draining, hst.tryAgainDue]
  exact h

/-- The trigger called in the state that the handler goes on with. -/
theorem occupied_turn (retry : Bool) (hok : s.Unhindered now e)
    (hnext : (store, t) ∈ s.nextTurn now e) (hmatch : t.StoresMatch) : (t.transferTrigger now store retry).Occupied now :=
  occupied_trigger store retry hmatch (hok _ hnext)

theorem engaged_lockState (hs : s.Wf) (h : s.Engaged) (store : Store) (state : Bool)
    (hok : s.Unhindered now (.lockState store state)) :
    (s.lockState now store state).Engaged := by
  unfold lockState
  cases state with
  | true => exact h.same (sameTransfers_lockTaken now store s)
  | false =>
    rw [if_neg (by simp)]
    cases hheld : s.held store with
    | true =>
      unfold lockFreed
      rw [if_pos hheld]
      exact h
    | false =>
      have hsame := sameTransfers_freed now store s
      obtain ⟨t, ht, heq⟩ := lockFreed_eq now hheld
      have hfields : t.queue = (s.freed now store).queue ∧ t.held = (s.freed now store).held ∧
          t.tasks = (s.freed now store).tasks ∧
          t.transferQueue.keys = (s.freed now store).transferQueue.keys ∧
          (t.MacroReady now → (s.freed now store).MacroReady now) ∧
          (s.freed now store).SameTransfers t := by
        rcases ht with rfl | rfl
        · exact ⟨rfl, rfl, rfl, rfl, id, .refl _⟩
        · refine ⟨rfl, rfl, rfl, rfl, fun hready => ⟨hready.1, hready.2, hready.3, hready.4⟩, ?_⟩
          constructor <;> intros <;> rfl
      obtain ⟨hqueue, hlocks, htasks, hkeys, hready, hwoken⟩ := hfields
      rw [heq]
      split
      · rename_i hpounce
        have hwork : s.queue store ≠ [] := by
          rw [← hsame.queue, ← hwoken.queue]
          exact hpounce.1
        refine Occupied.engaged (occupied_trigger store false ((hs.same hsame).same hwoken).store
          fun hexempt => ?_)
        have hnext : (store, s.freed now store) ∈ s.nextTurn now (.lockState store false) := by
          unfold nextTurn
          dsimp only
          rw [if_pos ⟨rfl, hheld, hwork⟩]
          exact List.mem_singleton_self _
        have hleads := hok _ hnext (hready hexempt)
        unfold leads at hleads ⊢
        rw [hkeys, leadsOn_congr hqueue hlocks htasks]
        exact hleads
      · exact h.same (hsame.trans hwoken)

theorem engaged_fileTransferData (h : s.Engaged) (transfer : ℕ) (data : Bytes) :
    (s.fileTransferData env transfer data).Engaged := by
  rcases message_cases s transfer with ⟨d, hd, rfl⟩ | ⟨id, ha⟩ | hstrange
  · right; right; left
    unfold fileTransferData
    rw [hd]
    dsimp only
    rw [if_pos rfl]
    simp [send]
  · rw [fileTransferData_eq ha.notDrained]
    exact h.same (quiet_dataInFlight env transfer data s).sameTransfers
  · rw [hstrange.fileTransferData]
    exact h

/-- The end of a drain. -/
theorem occupied_endDrain {d : Drain} (hs : s.Wf) (hd : s.draining = some d)
    (hok : (s.drainEnded now d).2.MacroReady now → (s.drainEnded now d).2.leads d.store = true) :
    (s.endDrain now).Occupied now := by
  unfold endDrain
  rw [hd]
  dsimp only [releaseThenContinue]
  rw [releaseThenContinueWith_eq]
  exact occupied_trigger d.store false (wf_drainEnded now hs hd s.wakeups).store hok

theorem occupied_failTransfer (transfer status : ℕ) {id : TaskId} (hs : s.Wf) (hfront : s.Front id)
    (hidle : s.transferRequested = false)
    (hok : (s.dropFailed now id).MacroReady now →
      (s.dropFailed now id).leads (s.tasks id).store = true) :
    (s.failTransfer now id transfer status).Occupied now := by
  have hbusy := occupied_trigger (s.tasks id).store false (wf_dropFailed hs hfront hidle).store hok
  unfold failTransfer
  dsimp only [releaseThenContinue]
  rw [releaseThenContinueWith_eq]
  exact hbusy

theorem answered_of {transfer : ℕ} {id : TaskId} (ha : s.Answers transfer id) :
    s.answered transfer = some id := by
  unfold answered
  rw [ha.inFlight]
  simp [ha.tid]

/-- While a drain is on no transfer is in flight. -/
theorem undrained_of {transfer : ℕ} {id : TaskId} (hs : s.Wf) (ha : s.Answers transfer id) :
    s.draining = none := by
  by_contra hd
  have hnone := (hs.draining hd).1
  rw [ha.inFlight] at hnone
  cases hnone

/-- A store given back, with work left, does not lead on. -/
theorem not_leads_letGo {id : TaskId} (hfront : s.Front id)
    (hexempt : (s.tasks id).store ≠ macroStore) :
    (s.letGo now (s.tasks id).store).leads (s.tasks id).store = false := by
  obtain ⟨j, behind, hqueue⟩ := List.exists_cons_of_ne_nil hfront.queue_ne_nil
  unfold leads leadsOn
  rw [letGo_queue, hqueue, letGo_held now _ _ hexempt, if_pos rfl]
  exact decide_eq_false (by simp [hexempt])

theorem engaged_transferRefused (hs : s.Wf) {transfer status : ℕ} {id : TaskId}
    (ha : s.Answers transfer id) (hok : s.Unhindered now (.fileTransferError transfer status)) :
    (s.transferRefused now id transfer status).Engaged := by
  have hfront := (hs.inFlight id ha.inFlight).1
  have hturn : ∀ next ∈ s.refusedTurn now id status,
      next.2.MacroReady now → next.2.leads next.1 = true := by
    intro next hnext
    refine hok next ?_
    unfold nextTurn
    dsimp only
    rw [undrained_of hs ha, answered_of ha]
    exact hnext
  unfold refusedTurn at hturn
  unfold transferRefused
  dsimp only at hturn ⊢
  split
  · rename_i h1
    rw [if_pos h1] at hturn
    have hcount : ((s.countTry id).tasks id).tryAgain = (s.tasks id).tryAgain + 1 := by
      simp [countTry]
    show (tryAgain now id transfer { s with transferRequested := false }).Engaged
    unfold tryAgain
    dsimp only
    change (if ((s.countTry id).tasks id).tryAgain > tryAgainAttempts then
      (s.countTry id).failTransfer now id transfer 1 else _).Engaged
    split
    · rename_i hmany
      rw [if_pos (by omega)] at hturn
      have hstore : ((s.countTry id).tasks id).store = (s.tasks id).store :=
        (sameTransfers_countTry id s).store id
      have hlast := hturn _ (List.mem_singleton_self _)
      rw [← hstore] at hlast
      exact (occupied_failTransfer transfer 1 (wf_countTry hs) (front_countTry hfront) rfl
        hlast).engaged
    · exact .inr (.inr (.inr (by simp [canWake, wakeAt])))
  · rename_i h1
    rw [if_neg h1] at hturn
    split
    · rename_i h5
      rw [if_pos h5] at hturn
      have hlast := hturn _ (List.mem_singleton_self _)
      refine (occupied_trigger _ true ?_ hlast).engaged
      exact hs.store
    · rename_i h5
      rw [if_neg h5] at hturn
      split
      · rename_i h6
        rw [if_pos h6] at hturn
        have hlast := hturn _ (List.mem_singleton_self _)
        dsimp only at hlast
        unfold releaseThenContinue
        rw [releaseThenContinueWith_false]
        split
        · rename_i hgives
          generalize hu : ({ s with
            transferRequested := false
            lockRequested := s.lockRequested.erase (s.tasks id).store
            othersSeen := some now } : Lane) = u at hlast ⊢
          have htasks : (s.tasks id).store = (u.tasks id).store := by rw [← hu]
          have hfront' : u.Front id := by
            rw [← hu]
            exact hfront
          rcases occupied_or_ready now (u.letGo now (s.tasks id).store) with hbusy | hready
          · exact hbusy.engaged
          · have hleads := hlast hready
            rw [htasks, not_leads_letGo hfront' (by rw [← htasks]; exact hgives.1)] at hleads
            cases hleads
        · refine (occupied_trigger _ false ?_ hlast).engaged
          intro k j hj
          rw [letGo_queue] at hj
          rw [letGo_tasks]
          exact hs.store k j hj
      · rename_i h6
        rw [if_neg h6] at hturn
        have hlast := hturn _ (List.mem_singleton_self _)
        exact (occupied_failTransfer transfer status hs.unrequested hfront rfl hlast).engaged

theorem engaged_fileTransferError (hs : s.Wf) (h : s.Engaged) (transfer status : ℕ)
    (hok : s.Unhindered now (.fileTransferError transfer status)) :
    (s.fileTransferError now transfer status).Engaged := by
  rcases message_cases s transfer with ⟨d, hd, rfl⟩ | ⟨id, ha⟩ | hstrange
  · have heq : s.fileTransferError now d.tid status = s.endDrain now := by
      simp only [fileTransferError, hd, if_true]
    rw [heq]
    refine (occupied_endDrain hs hd (hok (s.drainEnded now d) ?_)).engaged
    unfold nextTurn
    dsimp only
    rw [hd]
    simp
  · rw [ha.fileTransferError]
    exact engaged_transferRefused hs ha hok
  · rw [hstrange.fileTransferError]
    exact h

theorem engaged_fileTransferDataComplete (hs : s.Wf) (h : s.Engaged) (transfer : ℕ)
    (hok : s.Unhindered now (.fileTransferDataComplete transfer)) :
    (s.fileTransferDataComplete now transfer).Engaged := by
  rcases message_cases s transfer with ⟨d, hd, rfl⟩ | ⟨id, ha⟩ | hstrange
  · have heq : s.fileTransferDataComplete now d.tid = s.endDrain now := by
      simp only [fileTransferDataComplete, hd, if_true]
    rw [heq]
    refine (occupied_endDrain hs hd (hok (s.drainEnded now d) ?_)).engaged
    unfold nextTurn
    dsimp only
    rw [hd]
    simp
  · have hnext : ((s.tasks id).store, s.dropCompleted now id) ∈
        s.nextTurn now (.fileTransferDataComplete transfer) := by
      unfold nextTurn
      dsimp only
      rw [undrained_of hs ha, answered_of ha]
      exact List.mem_singleton_self _
    have hbusy := occupied_turn false hok hnext (wf_dropCompleted hs).store
    rw [ha.fileTransferDataComplete]
    simp only [transferComplete, releaseThenContinue, releaseThenContinueWith_eq]
    exact hbusy.engaged
  · rw [hstrange.fileTransferDataComplete]
    exact h.same (sameTransfers_someoneAtWork now s)

/-! ### A wakeup -/

/-- `t` is `s` after the wakeup's loop has passed over `store`: its yield ended, or a wake asked
for, or nothing. -/
structure Passed (store : Store) (s t : Lane) : Prop where
  transfers : s.SameTransfers t
  tasks : t.tasks = s.tasks
  locks : t.locks = s.locks
  foreignHeld : t.foreignHeld = s.foreignHeld
  othersSeen : t.othersSeen = s.othersSeen
  yielding : ∀ k, k ≠ store → t.yielding.get? k = s.yielding.get? k
  ownRelease : ∀ k, k ≠ store → t.ownRelease.get? k = s.ownRelease.get? k

theorem Passed.refl (store : Store) (s : Lane) : s.Passed store s :=
  ⟨.refl s, rfl, rfl, rfl, rfl, fun _ _ => rfl, fun _ _ => rfl⟩

theorem Passed.queue (h : s.Passed store t) : t.queue = s.queue := funext h.transfers.queue

theorem Passed.held (h : s.Passed store t) : t.held = s.held := by
  unfold Lane.held
  rw [h.locks]

theorem Passed.leads (h : s.Passed store t) (k : Store) : t.leads k = s.leads k := by
  unfold Lane.leads
  rw [h.transfers.transferQueue, leadsOn_congr h.queue h.held h.tasks]

theorem Passed.yieldOver (h : s.Passed store t) {k : Store} (hk : k ≠ store) :
    t.yieldOver now k = s.yieldOver now k := by
  unfold Lane.yieldOver yieldDue othersRecently
  rw [h.yielding k hk, h.queue, h.held, h.foreignHeld, h.ownRelease k hk, h.othersSeen]

theorem Passed.macroReady (h : s.Passed store t) (hready : t.MacroReady now) :
    s.MacroReady now where
  queued := by
    rw [← h.queue]
    exact hready.queued
  idle := h.transfers.transferRequested ▸ hready.idle
  undrained := h.transfers.draining ▸ hready.undrained
  rested := h.transfers.tryAgainDue ▸ hready.rested

/-- Only a store whose yield is over is triggered for. -/
theorem serviceYield_passed {y : Yield} (hy : s.yielding.get? store = some y)
    (hwaits : s.transferRequested = true ∨ s.yieldOver now store = false) :
    s.Passed store (s.serviceYield now store y) := by
  unfold serviceYield
  dsimp only
  split
  · split
    · refine ⟨?_, rfl, rfl, rfl, rfl, fun k hk => ?_, fun k hk => ?_⟩
      · constructor <;> intros <;> rfl
      · exact Dict.get?_erase_ne _ hk
      · exact Dict.get?_erase_ne _ hk
    · exact .refl store s
  · rename_i hwork
    split
    · exact .refl store s
    · rename_i hfree
      split
      · refine ⟨?_, rfl, rfl, rfl, rfl, fun _ _ => rfl, fun _ _ => rfl⟩
        constructor <;> intros <;> rfl
      · rename_i hdue
        rw [not_or, not_or] at hfree
        obtain ⟨hidle, hheld, hforeign⟩ := hfree
        have hover : s.yieldOver now store = true := by
          unfold Lane.yieldOver
          rw [hy]
          exact decide_eq_true ⟨hwork, by simpa using hheld, hforeign, Nat.not_lt.mp hdue⟩
        rcases hwaits with hrequested | hnot
        · exact absurd hrequested hidle
        · rw [hover] at hnot
          cases hnot

theorem serviceYield_over {y : Yield} (hy : s.yielding.get? store = some y)
    (hidle : s.transferRequested = false) (hover : s.yieldOver now store = true) :
    s.serviceYield now store y = s.transferTrigger now store false := by
  unfold Lane.yieldOver at hover
  rw [hy] at hover
  obtain ⟨hwork, hheld, hforeign, hdue⟩ := of_decide_eq_true hover
  unfold serviceYield
  dsimp only
  rw [if_neg hwork, if_neg (by simp [hidle, hheld, hforeign]), if_neg (Nat.not_lt.mpr hdue)]

theorem engaged_serviceYieldList (stores : List Store) (hs : s.Wf) (h : s.Engaged)
    (hnodup : stores.Nodup)
    (hok : ∀ k ∈ stores, s.yieldOver now k = true → s.MacroReady now → s.leads k = true) :
    (serviceYieldList now stores s).Engaged := by
  induction stores generalizing s with
  | nil => exact h
  | cons store stores ih =>
    obtain ⟨hnot, hnodup⟩ := List.nodup_cons.mp hnodup
    unfold serviceYieldList
    cases hy : s.yielding.get? store with
    | none => exact h
    | some y =>
      dsimp only
      by_cases hwaits : s.transferRequested = true ∨ s.yieldOver now store = false
      · have hpassed := serviceYield_passed hy hwaits
        refine ih (hs.same hpassed.transfers) (h.same hpassed.transfers) hnodup fun k hk => ?_
        have hne : k ≠ store := by
          rintro rfl
          exact hnot hk
        rw [hpassed.yieldOver hne, hpassed.leads]
        exact fun hover hready =>
          hok k (List.mem_cons_of_mem store hk) hover (hpassed.macroReady hready)
      · rw [not_or] at hwaits
        have hidle : s.transferRequested = false := by simpa using hwaits.1
        have hover : s.yieldOver now store = true := by simpa using hwaits.2
        have hmoves := @serviceYield_moves now True store y s hs hy fun _ _ => .inr trivial
        have hbusy : (s.serviceYield now store y).Occupied now := by
          rw [serviceYield_over hy hidle hover]
          exact occupied_trigger store false hs.store (hok store List.mem_cons_self hover)
        have hrest := @serviceYieldList_moves now True stores _ (hmoves.wf hs)
          fun _ _ => .inr trivial
        exact (occupied_triggerMoves hrest hbusy).engaged

/-- What a macro waits for lasts to the wakeup's end. -/
theorem occupied_rest (hs : s.Wf) (h : s.Occupied now) :
    (serviceYieldList now (s.serviceTryAgain now).yielding.keys (s.serviceTryAgain now)).Engaged :=
  (occupied_triggerMoves (@serviceRest_moves now True s hs (.inl trivial)) h).engaged

theorem engaged_handleWakeup (hs : s.Wf) (h : s.Engaged) (hok : s.Unhindered now .wakeup) :
    (s.handleWakeup now).Engaged := by
  unfold handleWakeup
  split
  · exact h
  · rename_i hwoken
    have hturn : ∀ next ∈ { s with wakeups := s.wakeups - 1 }.wakeupTurn now,
        next.2.MacroReady now → next.2.leads next.1 = true := by
      intro next hnext
      refine hok next ?_
      unfold nextTurn
      dsimp only
      rw [if_neg hwoken]
      exact hnext
    have hs' : Wf { s with wakeups := s.wakeups - 1 } := hs.same (by constructor <;> intros <;> rfl)
    have h' : Engaged { s with wakeups := s.wakeups - 1 } := h
    generalize ({ s with wakeups := s.wakeups - 1 } : Lane) = u at hturn hs' h' ⊢
    unfold serviceYields
    dsimp only
    cases hd : u.draining with
    | some d =>
      have hdrain : u.serviceDrain now =
          if now - d.last ≥ drainStall ∨ now - d.since ≥ drainMax then u.endDrain now
          else u.wakeAt (min (d.last + drainStall) (d.since + drainMax)) := by
        simp only [serviceDrain, hd]
      rw [hdrain]
      split
      · rename_i hover
        have hnext : u.drainEnded now d ∈ u.wakeupTurn now := by
          unfold wakeupTurn
          rw [hd]
          dsimp only
          rw [if_pos hover]
          exact List.mem_singleton_self _
        have hmoves := @endDrain_moves now True u hs' d hd
        exact occupied_rest (hmoves.wf (wf_drainEnded now hs' hd u.wakeups))
          (occupied_endDrain hs' hd (hturn _ hnext))
      · refine occupied_rest (hs'.same (by constructor <;> intros <;> rfl)) ?_
        exact .inr (.inr (.inl (by simp [wakeAt, hd])))
    | none =>
      have hdrain : u.serviceDrain now = u := by simp only [serviceDrain, hd]
      rw [hdrain]
      rcases occupied_or_ready now u with hbusy | hready
      · exact occupied_rest hs' hbusy
      · obtain ⟨due, hdue⟩ : ∃ due, u.tryAgainDue = some due := by
          rcases h' with hempty | hrequested | hdrains | hpause
          · exact absurd hempty hready.queued
          · rw [hready.idle] at hrequested
            cases hrequested
          · exact absurd hd hdrains
          · exact Option.ne_none_iff_exists'.mp hpause
        have hover := hready.rested due hdue
        have hresumed : u.resumed now = u.transfer := by
          unfold resumed
          rw [if_pos (pauseElapsed_of hdue hover)]
        cases hid : u.transfer with
        | some id =>
          have hagain : u.serviceTryAgain now =
              { u with tryAgainDue := none }.transferTrigger now (u.tasks id).store true := by
            simp only [serviceTryAgain, hdue, hid]
            exact if_pos hover
          have hnext : ((u.tasks id).store, { u with tryAgainDue := none }) ∈ u.wakeupTurn now := by
            unfold wakeupTurn
            rw [hresumed]
            simp only [hd, hid]
            exact List.mem_singleton_self _
          have hwf : Wf { u with tryAgainDue := none } :=
            ⟨hs'.store, hs'.made, hs'.ordered, hs'.inFlight, hs'.requested,
              fun hdrains => absurd hd hdrains, hs'.idRange⟩
          have hlast := hturn _ hnext
          dsimp only at hlast
          rw [hagain]
          generalize ({ u with tryAgainDue := none } : Lane) = v at hwf hlast ⊢
          have hmoves : TriggerMoves now True v (v.transferTrigger now (u.tasks id).store true) :=
            transferTrigger_moves _ true _ hwf.store (fun _ => .inr trivial)
              fun _ _ _ => .inr trivial
          have hbusy := occupied_trigger (u.tasks id).store true hwf.store hlast
          exact (occupied_triggerMoves (@serviceYieldList_moves now True _ _ (hmoves.wf hwf)
            fun _ _ => .inr trivial) hbusy).engaged
        | none =>
          have hagain : u.serviceTryAgain now = u := by simp only [serviceTryAgain, hdue, hid]
          rw [hagain]
          refine engaged_serviceYieldList _ hs' h' (Dict.nodup _) fun k hk hyield => ?_
          refine hturn (k, u) ?_
          unfold wakeupTurn
          rw [hd, hresumed, hid]
          exact List.mem_map.mpr ⟨k, List.mem_filter.mpr ⟨hk, hyield⟩, rfl⟩

theorem engaged_enqueue {task : TransferTask} (hs : s.Wf) (hok : s.Unhindered now e)
    (hplain : s.nextTurn now e = [(task.store, s.enqueue task)]) :
    ((s.enqueue task).transferTrigger now task.store false).Engaged :=
  (occupied_turn false hok (hplain ▸ List.mem_singleton_self _) (wf_enqueue hs).store).engaged

/-- No handler that leads on leaves a macro waiting for nothing. -/
theorem engaged_handle (hs : s.Wf) (h : s.Engaged) (hok : s.Unhindered env.now e) :
    (handle env e s).Engaged := by
  cases e with
  | lockObtained store =>
    exact (occupied_turn false hok (List.mem_singleton_self _) hs.store).engaged
  | lockState store state => exact engaged_lockState hs h store state hok
  | fileTransferContinueData transfer size count =>
    exact h.same (quiet_fileTransferContinueData env.now transfer size count s).sameTransfers
  | fileTransferData transfer data => exact engaged_fileTransferData h transfer data
  | fileTransferError transfer status => exact engaged_fileTransferError hs h transfer status hok
  | fileTransferDataComplete transfer => exact engaged_fileTransferDataComplete hs h transfer hok
  | download store index => exact engaged_enqueue hs hok rfl
  | upload store index payload => exact engaged_enqueue hs hok rfl
  | queueClear store index => exact engaged_enqueue hs hok rfl
  | dequeueClear id =>
    obtain ⟨q, hq⟩ := dequeueClear_eq id s
    have hempty : s.queue macroStore = [] → (s.dequeueClear id).queue macroStore = [] := by
      intro hnone
      rw [queue_dequeueClear id s hs.store, hnone]
      rfl
    show (s.dequeueClear id).Engaged
    rw [hq] at hempty ⊢
    exact h.imp_left hempty
  | abortTransfers =>
    left
    rcases sameTransfers_abortTransfers env.now s with ⟨-, hst⟩ | ⟨-, hst⟩
    · exact hst.queue macroStore
    · exact hst.queue macroStore
  | fireWake =>
    show (s.fireWake env.now).Engaged
    unfold fireWake
    split
    · split
      · exact h
      · exact h
    · exact h
  | poke => exact h
  | wakeup => exact engaged_handleWakeup hs h hok
  | queueFlushed => exact h.same (quiet_queueFlushed env.now s).sameTransfers
  | resetTransferLane => exact .inl rfl
  | releaseLocksNow => exact h.same (sameTransfers_releaseLocksNow env.now s)

end Steps

/-! ## Runs -/

/-- The handler of the event leads on. -/
def GoesOn (s : Lane) (a : Env × LaneEvent) : Prop := (s.receive a.1 a.2).Unhindered a.1.now a.2

/-- While every handler that lets a macro be started comes to a task it can start, no macro is
held up: one that is queued waits for a transfer, a drain or a pause. -/
theorem macro_served {s : Lane} (h : s.ReachableWhen GoesOn) : s.MacroServed := by
  have hengaged : s.Engaged := by
    refine Library.Reach.invariant ?_ (fun t a hreach ht ha => ?_) h
    · rintro t ⟨tid, -, -, rfl⟩
      exact .inl rfl
    · exact engaged_handle (wf_receive (wf_reachableWhen hreach) a.1 a.2) ht ha.2
  intro hqueued
  rcases hengaged with hempty | hrequested | hdrains | hpause
  · exact absurd hempty hqueued
  · exact .inl hrequested
  · exact .inr (.inl hdrains)
  · exact .inr (.inr (.inl hpause))

/-! ## A still that waits, before a macro -/

instance MacroReady.decidable (now : Time) (s : Lane) : Decidable (s.MacroReady now) :=
  decidable_of_iff (s.queue macroStore ≠ [] ∧ s.transferRequested = false ∧ s.draining = none ∧
      s.tryAgainDue.all (· ≤ now) = true) (by
    rw [Option.all_eq_true]
    constructor
    · rintro ⟨hqueued, hidle, hundrained, hrested⟩
      exact ⟨hqueued, hidle, hundrained, fun due hdue => of_decide_eq_true (hrested due hdue)⟩
    · rintro ⟨hqueued, hidle, hundrained, hrested⟩
      exact ⟨hqueued, hidle, hundrained, fun due hdue => decide_eq_true (hrested due hdue)⟩)

instance GoesOn.decidable (s : Lane) (a : Env × LaneEvent) : Decidable (s.GoesOn a) :=
  inferInstanceAs (Decidable (∀ next ∈ (s.receive a.1 a.2).nextTurn a.1.now a.2,
    next.2.MacroReady a.1.now → next.2.leads next.1 = true))

/-- A macro is asked for while a still is in flight, which then ends. -/
def behindStill : List (Env × LaneEvent) :=
  [(⟨0, none⟩, .download 0 1), (⟨1, none⟩, .lockObtained 0), (⟨2, none⟩, .download 0xffff 7),
   (⟨3, none⟩, .fileTransferDataComplete 43)]

theorem macro_served_behind_still :
    (Library.run step (fresh 42) behindStill).queue macroStore = [1] ∧
      (Library.run step (fresh 42) behindStill).transfer = some 1 ∧
      (Library.run step (fresh 42) behindStill).MacroServed := by
  have hgoes : ReachableWhen GoesOn (Library.run step (fresh 42) behindStill) :=
    Library.Reach.run (.start ⟨42, by decide, by decide, rfl⟩) _ (by decide)
  exact ⟨by decide, by decide, macro_served hgoes⟩

/-- The same, with another still queued. -/
def behindStills : List (Env × LaneEvent) :=
  [(⟨0, none⟩, .download 0 1), (⟨1, none⟩, .lockObtained 0), (⟨2, none⟩, .download 0 2),
   (⟨2, none⟩, .download 0xffff 7), (⟨3, none⟩, .fileTransferDataComplete 43)]

theorem macro_behind_stills_held_up :
    (Library.run step (fresh 42) behindStills).Reachable ∧
      (Library.run step (fresh 42) behindStills).queue macroStore = [2] ∧
      (Library.run step (fresh 42) behindStills).transfer = none ∧
      ¬ (Library.run step (fresh 42) behindStills).MacroServed := by
  refine ⟨Library.Reach.run (.start ⟨42, by decide, by decide, rfl⟩) _ (by decide), by decide,
    by decide, fun hbusy => ?_⟩
  rcases hbusy (by decide) with hrequested | hdrains | hpause | hpending
  · exact absurd hrequested (by decide)
  · exact hdrains (by decide)
  · exact hpause (by decide)
  · exact absurd hpending.2.1 (by decide)

end Lane

end Bmdwire
