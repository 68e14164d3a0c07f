import Bmdwire.Analysis.Served
import Bmdwire.Interface.LaneTurns

/-!
# No task is stranded

Three handlers leave a lane at rest without the trigger: the FTDE 6 that gives the lock
back, `dequeue_clear` and `release_locks_now`. In every run in which these find the lane
served without it, and in which no transfer ends during its pause, no task is stranded
(`no_task_stranded`).
-/

set_option autoImplicit false

namespace Bmdwire

open Library (Dict)

/-- A lock request for the store is out: sent in this session, with no LKOB since. -/
def lockAsked (store : Store) : List Act → Bool
  | [] => false
  | .recv _ (.lockObtained k) :: past => k ≠ store && lockAsked store past
  | .recv _ .resetTransferLane :: _ => false
  | a :: past => a.asksLock? = some store || lockAsked store past

namespace Lane

/-- The same by the log: the request the lane is waiting for was sent and not answered. -/
def NotStranded (s : Lane) : Prop :=
  s.AtRest → (∃ k, s.queue k ≠ []) →
    ∃ k, s.queue k ≠ [] ∧ (lockAsked k s.log = true ∨ k ∈ s.foreignHeld ∨ s.WakesFor k)

/-! ## Every handler serves the lane -/

section Handlers

variable {now : Time} {s : Lane}

theorem served_lockTaken (store : Store) (h : s.Served) : (s.lockTaken now store).Served := by
  unfold lockTaken
  split
  · exact h
  · refine h.frame rfl rfl (fun _ => rfl) ?_
    intro _ k _ hw
    refine hw.keep rfl (fun hk => List.mem_insert_of_mem hk) ?_ rfl id
    intro hy
    dsimp only
    split
    · rw [Dict.get?_set]
      split <;> simp [hy]
    · exact hy

/-- LKST free leaves the turns of the other stores alone. -/
theorem yielding_freed {store k : Store} (hk : k ≠ store) :
    (s.freed now store).yielding.get? k = s.yielding.get? k := by
  unfold freed announceFree
  dsimp only
  split
  · simp [canWake, Dict.get?_set_ne _ _ hk]
  · split
    · simp [Dict.get?_set_ne _ _ hk]
    · rfl

/-- LKST free, before the wake and the trigger, takes nothing from the other stores. -/
theorem served_freed (store : Store) (hq : s.AtRest → s.queue store = []) (h : s.Served) :
    (s.freed now store).Served := by
  have hst := sameTransfers_freed now store s
  obtain ⟨_, _, heq⟩ := freed_eq now store s
  refine h.frame hst.transfer hst.draining hst.queue ?_
  intro hrest k hk hw
  have hne : k ≠ store := by
    rintro rfl
    exact hk (hq hrest)
  refine hw.keep ?_ ?_ ?_ ?_ ?_
  · rw [heq]
    exact Dict.get?_erase_ne _ hne
  · rw [heq]
    intro hmem
    simp [hmem, hne]
  · rw [yielding_freed hne]
    exact id
  · rw [heq]
    rfl
  · rw [heq]
    exact id

theorem served_lockFreed (hs : s.Wf) (hp : s.PausesInFlight) {store : Store}
    (hheld : s.held store = false) (h : s.Served) : (s.lockFreed now store).Served := by
  have hst := sameTransfers_freed now store s
  have hfreedHeld : (s.freed now store).held store = false := by
    obtain ⟨_, _, heq⟩ := freed_eq now store s
    rw [heq]
    exact hheld
  obtain ⟨t, ht, heq⟩ := lockFreed_eq now hheld
  have hsame : s.SameTransfers t := by
    rcases ht with rfl | rfl
    · exact hst
    · refine hst.trans ?_
      constructor <;> intros <;> rfl
  have htheld : t.held store = false := by
    rcases ht with rfl | rfl
    · exact hfreedHeld
    · exact hfreedHeld
  rw [heq]
  split
  · apply served_transferTrigger store false (hs.same hsame)
    unfold PausesInFlight
    rw [hsame.tryAgainDue, hsame.transfer]
    exact hp
  · rename_i hnot
    -- at rest no request is out, so the trigger was passed over for want of work
    have hq : s.AtRest → s.queue store = [] := by
      intro hrest
      by_contra hq
      refine hnot ⟨?_, ?_, by simp [htheld]⟩
      · rw [hsame.queue]
        exact hq
      · rw [hsame.transferRequested]
        intro hreq
        exact hs.requested hreq hrest.1
    have hfreed := @served_freed now s store hq h
    rcases ht with rfl | rfl
    · exact hfreed
    · exact hfreed.wakeAt _

theorem served_lockState (hs : s.Wf) (hp : s.PausesInFlight) (store : Store) (state : Bool)
    (h : s.Served) : (s.lockState now store state).Served := by
  cases state with
  | true => exact served_lockTaken store h
  | false =>
    cases hheld : s.held store with
    | true =>
      have hsame : s.lockState now store false = s := by simp [lockState, lockFreed, hheld]
      rw [hsame]
      exact h
    | false => exact served_lockFreed hs hp hheld h

theorem served_enqueue (hs : s.Wf) (hp : s.PausesInFlight) (task : TransferTask) :
    ((s.enqueue task).transferTrigger now task.store false).Served :=
  served_transferTrigger task.store false (wf_enqueue hs) hp

theorem served_failTransfer (hs : s.Wf) {id : TaskId} (hfront : s.Front id)
    (hreq : s.transferRequested = false) (transfer status : ℕ) :
    (s.failTransfer now id transfer status).Served := by
  have heq : s.failTransfer now id transfer status =
      ((s.dropFailed now id).transferTrigger now (s.tasks id).store false).raise
        (.fileTransferError id transfer status) := by
    simp only [failTransfer, releaseThenContinue, releaseThenContinueWith_eq]
    rfl
  rw [heq]
  apply Served.raise
  apply served_transferTrigger _ false (wf_dropFailed hs hfront hreq)
  intro hdue
  simp [dropFailed, popHead] at hdue

theorem served_transferComplete (hs : s.Wf) {id : TaskId} (hdue : s.tryAgainDue = none) :
    (s.transferComplete now id).Served := by
  have heq : s.transferComplete now id =
      ((s.dropCompleted now id).transferTrigger now (s.tasks id).store false).raise
        (completionNotice id (s.tasks id) s.transferBuffer.flatten) := by
    simp only [transferComplete, releaseThenContinue, releaseThenContinueWith_eq]
    rfl
  rw [heq]
  apply Served.raise
  apply served_transferTrigger _ false (wf_dropCompleted hs)
  intro hne
  simp [dropCompleted, hdue] at hne

end Handlers

/-! ## The three handlers that pass the trigger over -/

/-- An FTDE 6 that gives the lock of the task in flight back does so with a wake pending, or
while a store with work waits for its holder or, the task's own store apart, its request. -/
def YieldServed (transfer : ℕ) (s : Lane) : Prop :=
  ∀ task ∈ s.inFlight, task.tid = some transfer → task.store ≠ macroStore →
    s.held task.store = true →
    s.WakePending ∨ ∃ k ∈ s.transferQueue.keys, s.queue k ≠ [] ∧
      (k ∈ s.foreignHeld ∨ k ≠ task.store ∧ (s.lockRequested.get? k).isSome)

/-- Taking this task off a lane at rest leaves no work, or work that something is on its way
for. -/
def DequeueServed (id : TaskId) (s : Lane) : Prop :=
  s.AtRest → (∃ k ∈ s.transferQueue.keys, (s.queue k).filter (· ≠ id) ≠ []) →
    ∃ k ∈ s.transferQueue.keys, (s.queue k).filter (· ≠ id) ≠ [] ∧ s.Awaited k

/-- The teardown finds no lock held, or no lane at rest with work for stores that nobody else
holds. -/
def TeardownServed (s : Lane) : Prop :=
  (∃ k ∈ s.locks.keys, s.held k = true) → s.AtRest →
    (∃ k ∈ s.transferQueue.keys, s.queue k ≠ []) →
    ∃ k ∈ s.transferQueue.keys, s.queue k ≠ [] ∧ k ∈ s.foreignHeld

/-- This event does not strand a task: what passes the trigger over finds the lane served
without it, and no transfer ends by an FTDC or an FTDE 6 during its pause. -/
def EventServed (s : Lane) : LaneEvent → Prop
  | .fileTransferError transfer status =>
    status = 6 → s.NoPauseFor transfer ∧ s.YieldServed transfer
  | .fileTransferDataComplete transfer => s.NoPauseFor transfer
  | .dequeueClear id => s.DequeueServed id
  | .releaseLocksNow => s.TeardownServed
  | _ => True

instance YieldServed.decidable (transfer : ℕ) (s : Lane) : Decidable (s.YieldServed transfer) :=
  inferInstanceAs (Decidable (∀ task ∈ s.inFlight, _ → _ → _ → _ ∨ _))

instance DequeueServed.decidable (id : TaskId) (s : Lane) : Decidable (s.DequeueServed id) :=
  inferInstanceAs (Decidable (_ → _ → _))

instance TeardownServed.decidable (s : Lane) : Decidable s.TeardownServed :=
  inferInstanceAs (Decidable (_ → _ → _ → _))

instance EventServed.decidable (s : Lane) : (e : LaneEvent) → Decidable (s.EventServed e)
  | .fileTransferError transfer status =>
    inferInstanceAs (Decidable (status = 6 → s.NoPauseFor transfer ∧ s.YieldServed transfer))
  | .fileTransferDataComplete transfer => inferInstanceAs (Decidable (s.NoPauseFor transfer))
  | .dequeueClear id => inferInstanceAs (Decidable (s.DequeueServed id))
  | .releaseLocksNow => inferInstanceAs (Decidable s.TeardownServed)
  | .lockObtained _ | .lockState _ _ | .fileTransferContinueData _ _ _ | .fileTransferData _ _
  | .download _ _ | .upload _ _ _ | .queueClear _ _ | .abortTransfers | .fireWake | .poke
  | .wakeup | .queueFlushed | .resetTransferLane => inferInstanceAs (Decidable True)

section Passed

variable {now : Time} {s : Lane}

/-- The FTDE 6 arms the turn of the task's store, which a pending wake then looks after. -/
theorem served_yielded (hs : s.Wf) {id : TaskId} {transfer : ℕ} (ha : s.Answers transfer id)
    (hpause : s.NoPauseFor transfer) (hok : s.YieldServed transfer) :
    (s.transferRefused now id transfer 6).Served := by
  have hdue := hpause.of_answers ha
  have hopen := @Opening.yielded now _ _ _ ha
  have hq : s.queue (s.tasks id).store ≠ [] := (hs.inFlight id ha.inFlight).1.queue_ne_nil
  show ({ s with
    transferRequested := false
    lockRequested := s.lockRequested.erase (s.tasks id).store
    othersSeen := some now }.releaseThenContinue now (s.tasks id).store false).Served
  unfold releaseThenContinue
  rw [releaseThenContinueWith_false]
  split
  · rename_i hc
    rw [letGo_of_held hc.1 hc.2]
    have hin : s.tasks id ∈ s.inFlight := by simp [inFlight, ha.inFlight]
    rcases hok _ hin ha.tid hc.1 hc.2 with hw | ⟨k, -, hk, hw⟩
    · refine served_of_awaited (k := (s.tasks id).store) hq (.inr (.inr ⟨hw, ?_, ?_⟩))
      · simp
      · exact (held_set s _ _ false).trans (if_pos rfl)
    · refine served_of_awaited (k := k) hk ?_
      rcases hw with hw | ⟨hne, hw⟩
      · exact .inr (.inl hw)
      · left
        show ((s.lockRequested.erase _).get? k).isSome
        rwa [Dict.get?_erase_ne _ hne]
  · apply served_transferTrigger _ false (wf_opening hopen hs (by simp))
    intro hne
    rw [letGo_tryAgainDue] at hne
    exact absurd hdue hne

theorem served_transferRefused (hs : s.Wf) (hp : s.PausesInFlight) {id : TaskId}
    {transfer status : ℕ} (ha : s.Answers transfer id)
    (hok : status = 6 → s.NoPauseFor transfer ∧ s.YieldServed transfer) :
    (s.transferRefused now id transfer status).Served := by
  by_cases h6 : status = 6
  · subst h6
    exact served_yielded hs ha (hok rfl).1 (hok rfl).2
  have hfront := (hs.inFlight id ha.inFlight).1
  unfold transferRefused
  dsimp only
  split
  · show (tryAgain now id transfer { s with transferRequested := false }).Served
    unfold tryAgain
    dsimp only
    change (if ((s.countTry id).tasks id).tryAgain > tryAgainAttempts then
      (s.countTry id).failTransfer now id transfer 1 else _).Served
    split
    · exact served_failTransfer (wf_countTry hs) (front_countTry hfront) rfl transfer 1
    · apply served_of_transfer
      exact ha.inFlight.trans_ne (by simp)
  · split
    · have hlost : Wf { s with
          transferRequested := false
          locks := s.locks.set (s.tasks id).store false } :=
        hs.unrequested.same (by constructor <;> intros <;> rfl)
      exact served_transferTrigger _ true hlost hp
    · exact served_failTransfer hs.unrequested hfront rfl transfer status

theorem served_fileTransferError (hs : s.Wf) (hp : s.PausesInFlight) (transfer status : ℕ)
    (hok : s.EventServed (.fileTransferError transfer status)) (h : s.Served) :
    (s.fileTransferError now transfer status).Served := by
  rcases message_cases s transfer with ⟨d, hd, rfl⟩ | ⟨id, ha⟩ | hstrange
  · have heq : s.fileTransferError now d.tid status = s.endDrain now := by
      simp only [fileTransferError, hd, if_true]
    rw [heq]
    exact (served_endDrain hs hd).1
  · rw [ha.fileTransferError]
    exact served_transferRefused hs hp ha hok
  · rw [hstrange.fileTransferError]
    exact h

theorem served_fileTransferDataComplete (hs : s.Wf) (transfer : ℕ)
    (hok : s.EventServed (.fileTransferDataComplete transfer)) (h : s.Served) :
    (s.fileTransferDataComplete now transfer).Served := by
  rcases message_cases s transfer with ⟨d, hd, rfl⟩ | ⟨id, ha⟩ | hstrange
  · have heq : s.fileTransferDataComplete now d.tid = s.endDrain now := by
      simp only [fileTransferDataComplete, hd, if_true]
    rw [heq]
    exact (served_endDrain hs hd).1
  · rw [ha.fileTransferDataComplete]
    exact served_transferComplete hs (NoPauseFor.of_answers hok ha)
  · rw [hstrange.fileTransferDataComplete]
    refine h.frame rfl rfl (fun _ => rfl) ?_
    intro _ k _ hw
    refine hw.keep rfl id ?_ rfl id
    simp [someoneAtWork]

theorem served_dequeueClear (hs : s.Wf) {id : TaskId} (hok : s.DequeueServed id) :
    (s.dequeueClear id).Served := by
  obtain ⟨q, heq⟩ := dequeueClear_eq id s
  have hqueue := queue_dequeueClear id s hs.store
  have hkeys : ∀ {k}, (s.queue k).filter (· ≠ id) ≠ [] → k ∈ s.transferQueue.keys := by
    intro k hk
    apply mem_keys_of_queue
    intro hnil
    simp [hnil] at hk
  have hrest : (s.dequeueClear id).AtRest → s.AtRest := by
    rw [heq]
    exact fun h => h
  have hawaited : ∀ k, s.Awaited k → (s.dequeueClear id).Awaited k := by
    intro k hk
    rw [heq]
    exact hk
  rintro hr ⟨k, hk⟩
  rw [hqueue] at hk
  obtain ⟨j, -, hj, hw⟩ := hok (hrest hr) ⟨k, hkeys hk, hk⟩
  refine ⟨j, ?_, hawaited j hw⟩
  rw [hqueue]
  exact hj

theorem served_releaseLocksNow (hok : s.TeardownServed) (h : s.Served) :
    (s.releaseLocksNow now).Served := by
  have hst := sameTransfers_releaseLocksNow now s
  rcases releaseLocksNow_cases now s with ⟨-, heq⟩ | ⟨t, hm, -, heq⟩
  · rw [heq]
    exact h
  · by_cases hany : s.locks.keys.any s.held
    · rintro hrest ⟨k, hk⟩
      rw [List.any_eq_true] at hany
      rw [hst.queue] at hk
      obtain ⟨j, -, hj, hforeign⟩ := hok hany ⟨hst.transfer ▸ hrest.1, hst.draining ▸ hrest.2⟩
        ⟨k, mem_keys_of_queue hk, hk⟩
      obtain ⟨_, _, _, _, ht⟩ := hm.fields
      refine ⟨j, ?_, .inr (.inl ?_)⟩
      · rw [hst.queue]
        exact hj
      · rw [heq, ht]
        exact hforeign
    · rw [releaseLocksNow, if_neg hany]
      exact h

end Passed

/-- Every event that does not strand a task leaves the lane served. -/
theorem served_handle {env : Env} {e : LaneEvent} {s : Lane} (hs : s.Wf) (hp : s.PausesInFlight)
    (hok : s.EventServed e) (h : s.Served) : (handle env e s).Served := by
  cases e with
  | lockObtained store =>
    have hwf := wf_opening (@Opening.granted env.now s store) hs (by simp)
    exact served_transferTrigger store false hwf hp
  | lockState store state => exact served_lockState hs hp store state h
  | fileTransferContinueData transfer size count =>
    exact h.quiet (quiet_fileTransferContinueData ..)
  | fileTransferData transfer data =>
    show (s.fileTransferData env transfer data).Served
    by_cases hd : ∃ d, s.draining = some d ∧ d.tid = transfer
    · obtain ⟨d, hd, rfl⟩ := hd
      apply served_of_draining
      simp [fileTransferData, hd, send]
    · have hd : ∀ d, s.draining = some d → d.tid ≠ transfer := fun d h ht => hd ⟨d, h, ht⟩
      rw [fileTransferData_eq hd]
      exact h.quiet (quiet_dataInFlight env transfer data s)
  | fileTransferError transfer status =>
    exact served_fileTransferError hs hp transfer status hok h
  | fileTransferDataComplete transfer =>
    exact served_fileTransferDataComplete hs transfer hok h
  | download store index => exact served_enqueue hs hp _
  | upload store index payload => exact served_enqueue hs hp _
  | queueClear store index => exact served_enqueue hs hp _
  | dequeueClear id => exact served_dequeueClear hs hok
  | abortTransfers =>
    apply served_of_empty
    intro k
    rcases sameTransfers_abortTransfers env.now s with ⟨-, hst⟩ | ⟨-, hst⟩
    · exact hst.queue k
    · exact hst.queue k
  | fireWake =>
    show (s.fireWake env.now).Served
    unfold fireWake
    split
    · split
      · exact h
      · refine h.frame rfl rfl (fun _ => rfl) ?_
        intro _ k _ hw
        exact hw.keep rfl id id rfl fun _ => .inr (Nat.succ_ne_zero _)
    · exact h
  | poke =>
    refine h.frame rfl rfl (fun _ => rfl) ?_
    intro _ k _ hw
    exact hw.keep rfl id id rfl fun _ => .inr (Nat.succ_ne_zero _)
  | wakeup => exact served_handleWakeup hs hp h
  | queueFlushed => exact h.quiet (quiet_queueFlushed env.now s)
  | resetTransferLane => exact served_of_empty fun _ => rfl
  | releaseLocksNow => exact served_releaseLocksNow hok h

/-! ## Requests, by the log -/

section Log

variable {store : Store} {log new : List Act}

/-- Entries that are no events received leave a request out. -/
theorem lockAsked_append (hnew : ∀ a ∈ new, a.own) (h : lockAsked store log = true) :
    lockAsked store (new ++ log) = true := by
  induction new with
  | nil => exact h
  | cons a new ih =>
    have ih := ih fun b hb => hnew b (List.mem_cons_of_mem a hb)
    have ha := hnew a (List.mem_cons_self ..)
    cases a with
    | recv now e => exact absurd rfl (ha now e)
    | _ => simp [lockAsked, ih]

/-- An event leaves a request out, unless it is its LKOB or a reset. -/
theorem lockAsked_recv {now : Time} {e : LaneEvent} (hgrant : e ≠ .lockObtained store)
    (hreset : e ≠ .resetTransferLane) (h : lockAsked store log = true) :
    lockAsked store (.recv now e :: log) = true := by
  cases e with
  | resetTransferLane => exact absurd rfl hreset
  | lockObtained k =>
    have hk : k ≠ store := fun heq => hgrant (heq ▸ rfl)
    simp [lockAsked, hk, h]
  | _ => simp [lockAsked, h]

end Log

/-- Every request the lane waits for was sent and not answered. -/
def RequestsLogged (s : Lane) : Prop :=
  ∀ k, (s.lockRequested.get? k).isSome → lockAsked k s.log = true

/-- No opening adds a request, and an LKOB or a reset takes theirs away. -/
theorem lockRequested_opening {now : Time} {s t : Lane} {e : LaneEvent} {closing : Option Notice}
    (ho : Opening now s e t closing) {k : Store} (h : (t.lockRequested.get? k).isSome) :
    (s.lockRequested.get? k).isSome ∧ e ≠ .lockObtained k ∧ e ≠ .resetTransferLane := by
  have herase : ∀ {j : Store}, ((s.lockRequested.erase j).get? k).isSome →
      k ≠ j ∧ (s.lockRequested.get? k).isSome := by
    intro j hj
    by_cases hk : k = j
    · simp [hk] at hj
    · rw [Dict.get?_erase_ne _ hk] at hj
      exact ⟨hk, hj⟩
  cases ho with
  | quiet hi hq =>
    rw [hq.lockRequested] at h
    refine ⟨h, ?_, ?_⟩
    · rintro rfl
      exact hi
    · rintro rfl
      exact hi
  | granted store =>
    obtain ⟨hk, h⟩ := herase h
    refine ⟨h, ?_, by simp⟩
    rintro ⟨⟩
    exact hk rfl
  | @taken store _ =>
    obtain ⟨_, _, _, _, heq⟩ := lockTaken_eq now store s
    rw [heq] at h
    exact ⟨h, by simp, by simp⟩
  | @freed store _ =>
    obtain ⟨_, _, heq⟩ := freed_eq now store s
    rw [heq] at h
    exact ⟨(herase h).2, by simp, by simp⟩
  | drained data _ => exact ⟨h, by simp, by simp⟩
  | drainFailed status _ =>
    rw [letGo_lockRequested] at h
    exact ⟨h, by simp, by simp⟩
  | drainCompleted _ =>
    rw [letGo_lockRequested] at h
    exact ⟨h, by simp, by simp⟩
  | tryAgain _ _ => exact ⟨h, by simp, by simp⟩
  | triedOut _ _ =>
    rw [dropFailed, letGo_lockRequested] at h
    exact ⟨h, by simp, by simp⟩
  | lockLost _ => exact ⟨h, by simp, by simp⟩
  | yielded _ =>
    rw [letGo_lockRequested] at h
    exact ⟨(herase h).2, by simp, by simp⟩
  | failed _ _ _ _ =>
    rw [dropFailed, letGo_lockRequested] at h
    exact ⟨h, by simp, by simp⟩
  | completed _ =>
    rw [dropCompleted, letGo_lockRequested] at h
    exact ⟨h, by simp, by simp⟩
  | strangeCompletion _ => exact ⟨h, by simp, by simp⟩
  | enqueue he =>
    refine ⟨h, ?_, ?_⟩
    · rintro rfl
      cases he
    · rintro rfl
      cases he
  | dequeue id =>
    obtain ⟨q, heq⟩ := dequeueClear_eq id s
    rw [heq] at h
    exact ⟨h, by simp, by simp⟩
  | abort =>
    have hnone : (s.abortTransfers now).lockRequested = .empty := by
      cases hl : s.leavesDraining now with
      | true =>
        obtain ⟨id, _, hid, -⟩ := exists_inFlight_of_leavesDraining hl
        obtain ⟨_, _, _, _, heq⟩ := (abortTransfers_drain hl hid).1.fields
        rw [heq]
        rfl
      | false =>
        obtain ⟨_, _, _, _, heq⟩ := (abortTransfers_all hl).1.fields
        rw [heq]
        rfl
    simp [hnone] at h
  | fire _ _ => exact ⟨h, by simp, by simp⟩
  | poke => exact ⟨h, by simp, by simp⟩
  | woken _ _ => exact ⟨h, by simp, by simp⟩
  | drainOverdue _ _ _ =>
    rw [letGo_lockRequested] at h
    exact ⟨h, by simp, by simp⟩
  | reset => simp [resetTransferLane] at h
  | teardown =>
    rcases releaseLocksNow_cases now s with ⟨-, heq⟩ | ⟨u, -, -, heq⟩
    · rw [heq] at h
      exact ⟨h, by simp, by simp⟩
    · simp [heq] at h

/-- Every move logs the request it makes, and forgets none that it did not. -/
theorem requestsLogged_triggerMove {now : Time} {stale : Prop} {s t : Lane}
    (hm : TriggerMove now stale s t) (h : s.RequestsLogged) : t.RequestsLogged := by
  have hsame : ∀ {t : Lane}, t.lockRequested = s.lockRequested →
      (∃ new, t.log = new ++ s.log ∧ ∀ a ∈ new, a.own) → t.RequestsLogged := by
    rintro t hreq ⟨new, hlog, hnew⟩ k hk
    rw [hlog]
    exact lockAsked_append hnew (h k (hreq ▸ hk))
  cases hm with
  | wake due => exact h
  | fail => exact hsame rfl ⟨[_], rfl, by simp [Act.own]⟩
  | pauseOver _ _ _ => exact h
  | endYield _ _ => exact h
  | clean _ _ =>
    obtain ⟨new, heq, hnew⟩ := cleanLocks_eq now s
    rw [heq]
    refine hsame rfl ⟨new, rfl, fun a ha => ?_⟩
    obtain ⟨k, -, rfl⟩ := hnew a ha
    exact Act.own_send _ _
  | @askForLock id _ _ _ _ _ _ =>
    intro k hk
    show lockAsked k (.send now (lockRequestFor (s.tasks id)) :: s.log) = true
    by_cases hks : k = (s.tasks id).store
    · subst hks
      simp [lockAsked, lockRequestFor_asks]
    · have hk : (s.lockRequested.get? k).isSome := by
        rw [← Dict.get?_set_ne s.lockRequested now hks]
        exact hk
      simp [lockAsked, h k hk]
  | @clear id _ _ _ _ _ =>
    obtain ⟨new, hlog, hnew⟩ := letGo_log now (s.tasks id).store (s.dispatchClear now id)
    refine hsame (letGo_lockRequested ..) ⟨new ++ [_, _], by rw [hlog, List.append_assoc]; rfl, ?_⟩
    intro a ha
    rcases List.mem_append.mp ha with ha | ha
    · rw [hnew a ha]
      exact Act.own_send _ _
    · rcases List.mem_pair.mp ha with rfl | rfl
      · exact Act.own_notice _
      · exact Act.own_send _ _
  | @request id retry _ _ _ _ _ _ =>
    have hr := requested_requestTransfer now retry id s
    obtain ⟨new, c, hlog, hbulk, -⟩ := hr.log
    refine hsame hr.lockRequested ⟨new ++ [.send now c], by rw [hlog, List.append_assoc]; rfl, ?_⟩
    intro a ha
    rcases List.mem_append.mp ha with ha | ha
    · exact Act.own_of_bulk (hbulk a ha)
    · rw [List.mem_singleton.mp ha]
      exact Act.own_send _ _

/-- The requests the lane waits for are in the log, in every state of every run. -/
theorem requestsLogged_reachable {s : Lane} (h : Reachable s) : s.RequestsLogged := by
  refine Library.Reach.invariant (P := fun s => s.RequestsLogged) ?_ ?_ h
  · rintro s ⟨tid, -, -, rfl⟩ k hk
    simp [fresh] at hk
  · rintro s ⟨env, e⟩ hreach hs -
    obtain ⟨m, m', closing, hopen, hmoves, heq⟩ := step_splits (wf_reachableWhen hreach) (env, e)
    have hm : m.RequestsLogged := by
      intro k hk
      obtain ⟨hk, hgrant, hreset⟩ := lockRequested_opening hopen hk
      obtain ⟨new, hlog, hnew⟩ := opening_log_eq hopen
      rw [hlog]
      refine lockAsked_append (fun a ha => ?_) (lockAsked_recv hgrant hreset (hs k hk))
      rcases hnew a ha with hbulk | ⟨j, rfl⟩
      · exact Act.own_of_bulk hbulk
      · exact Act.own_send _ _
    have hm' : m'.RequestsLogged :=
      hmoves.keep (P := fun t => t.RequestsLogged) (fun _ _ => requestsLogged_triggerMove) hm
    rw [heq]
    cases closing with
    | none => exact hm'
    | some n =>
      intro k hk
      exact @lockAsked_append _ _ [.notice n] (by simp [Act.own]) (hm' k hk)

/-! ## Every run -/

/-- The steps whose events strand no task. -/
def ProgressKept (s : Lane) (a : Env × LaneEvent) : Prop := s.EventServed a.2

instance ProgressKept.decidable (s : Lane) (a : Env × LaneEvent) : Decidable (s.ProgressKept a) :=
  EventServed.decidable s a.2

theorem pauseEnds_of_eventServed {s : Lane} {e : LaneEvent} (h : s.EventServed e) :
    s.PauseEnds e := by
  cases e with
  | fileTransferError transfer status => exact fun h6 => (h h6).1
  | fileTransferDataComplete transfer => exact h
  | _ => trivial

/-- Every state of a run whose events strand no task is served. -/
theorem served_reachable {s : Lane} (h : ReachableWhen ProgressKept s) :
    s.PausesInFlight ∧ s.Served := by
  refine Library.Reach.invariant (P := fun s => s.PausesInFlight ∧ s.Served) ?_ ?_ h
  · rintro s ⟨tid, -, -, rfl⟩
    exact ⟨fun hdue => absurd rfl hdue, served_of_empty fun _ => rfl⟩
  · rintro s ⟨env, e⟩ hreach ⟨hp, hs⟩ ⟨-, hok⟩
    have hwf := wf_reachableWhen hreach
    refine ⟨?_, served_handle (wf_receive hwf env e) hp hok (hs.receive env e)⟩
    obtain ⟨m, m', closing, hopen, hmoves, heq⟩ := step_splits hwf (env, e)
    have hm : m'.PausesInFlight :=
      hmoves.pause (pause_opening hopen hwf (pauseEnds_of_eventServed hok) hp)
    rw [heq]
    cases closing with
    | none => exact hm
    | some n => exact hm

/-- In every run whose events strand no task, a lane at rest that has work is waiting, for a
store that has work: for an LKOB to a request sent, for another client, or for a wakeup. -/
theorem no_task_stranded {s : Lane} (h : ReachableWhen ProgressKept s) : s.NotStranded := by
  intro hrest hwork
  obtain ⟨k, hk, hw⟩ := (served_reachable h).2 hrest hwork
  refine ⟨k, hk, hw.imp_left ?_⟩
  exact requestsLogged_reachable (reachable_of_reachableWhen h) k

/-- Two stills asked for: the second waits for the turn left to others after the first. -/
def twoStills : List (Env × LaneEvent) :=
  [(⟨0, none⟩, .download 0 1), (⟨1, none⟩, .lockObtained 0), (⟨2, none⟩, .download 0 2),
   (⟨3, none⟩, .fileTransferDataComplete 43)]

theorem no_task_stranded_two_stills :
    (Library.run step (fresh 42) twoStills).AtRest ∧
      (Library.run step (fresh 42) twoStills).queue 0 = [1] ∧
      (Library.run step (fresh 42) twoStills).NotStranded := by
  refine ⟨by decide, by decide, ?_⟩
  exact no_task_stranded (Library.Reach.run (.start ⟨42, by decide, by decide, rfl⟩) _ (by decide))

/-- A still refused with FTDE 6 under its lock. -/
def yieldedUnderLock : List (Env × LaneEvent) :=
  [(⟨0, none⟩, .download 0 1), (⟨1, none⟩, .lockObtained 0), (⟨2, none⟩, .fileTransferError 43 6)]

theorem yield_under_lock_strands : ¬ ∀ s, Reachable s → s.NotStranded := by
  intro h
  have hreach : Reachable (Library.run step (fresh 42) yieldedUnderLock) :=
    Library.Reach.run (.start ⟨42, by decide, by decide, rfl⟩) _ (by decide)
  have hrest : (Library.run step (fresh 42) yieldedUnderLock).AtRest := by decide
  have hqueue : (Library.run step (fresh 42) yieldedUnderLock).queue 0 = [0] := by decide
  have hwake : ¬ (Library.run step (fresh 42) yieldedUnderLock).WakePending := by decide
  have hforeign : (Library.run step (fresh 42) yieldedUnderLock).foreignHeld = [] := by decide
  have hkeys : (Library.run step (fresh 42) yieldedUnderLock).transferQueue.keys = [0] := by decide
  have hasked : lockAsked 0 (Library.run step (fresh 42) yieldedUnderLock).log = false := by decide
  obtain ⟨k, hk, hw⟩ := h _ hreach hrest ⟨0, by rw [hqueue]; simp⟩
  have hk0 : k = 0 := by
    have hmem := mem_keys_of_queue hk
    rw [hkeys] at hmem
    exact List.mem_singleton.mp hmem
  subst hk0
  rcases hw with hw | hw | ⟨hw, -⟩
  · rw [hasked] at hw
    cases hw
  · rw [hforeign] at hw
    cases hw
  · exact hwake hw

end Lane

end Bmdwire
