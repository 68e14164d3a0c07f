import Bmdwire.Analysis.LaneReleases
import Bmdwire.Interface.LaneLog

/-!
# The belief which locks are held

`locks[store]` is True only while the switcher's last word on the store is a grant of
ours: true in every run in which each LKOB finds its store with work, or with a drain
(`belief_sound`). It fails without that: the trigger that finds every queue empty sends a
release for each lock held and leaves `locks` as it is.
-/

set_option autoImplicit false

namespace Bmdwire

open Library (Dict Every every_cons)

namespace Lane

/-- The belief in each lock is backed by the log and by work for the store. -/
structure Belief (s : Lane) : Prop where
  granted : ∀ k, k ≠ macroStore → s.held k = true → granted k s.log = true
  used : ∀ k, k ≠ macroStore → s.held k = true →
    s.queue k ≠ [] ∨ ∃ d, s.draining = some d ∧ d.store = k

/-- An LKOB finds its store with work or a drain, and a dequeued clear leaves a held store
other work. -/
def GrantsMeetWork (s : Lane) (a : Env × LaneEvent) : Prop :=
  match a.2 with
  | .lockObtained store =>
    store = macroStore ∨ s.queue store ≠ [] ∨ s.draining.map (·.store) = some store
  | .dequeueClear id => s.held (s.tasks id).store = true →
      s.queue (s.tasks id).store ≠ [id] ∨ s.draining.map (·.store) = some (s.tasks id).store
  | _ => True

/-- Besides, no clear is queued on the macro store. -/
def LocksMeetWork (s : Lane) (a : Env × LaneEvent) : Prop :=
  s.GrantsMeetWork a ∧
    match a.2 with
    | .queueClear store _ => store ≠ macroStore
    | _ => True

instance GrantsMeetWork.decidable (s : Lane) :
    (a : Env × LaneEvent) → Decidable (s.GrantsMeetWork a)
  | (_, .lockObtained _) => inferInstanceAs (Decidable (_ ∨ _ ∨ _))
  | (_, .dequeueClear _) => inferInstanceAs (Decidable (_ → _ ∨ _))
  | (_, .lockState _ _) | (_, .fileTransferContinueData _ _ _) | (_, .fileTransferData _ _)
  | (_, .fileTransferError _ _) | (_, .fileTransferDataComplete _) | (_, .download _ _)
  | (_, .upload _ _ _) | (_, .queueClear _ _) | (_, .abortTransfers) | (_, .fireWake)
  | (_, .poke) | (_, .wakeup) | (_, .queueFlushed) | (_, .resetTransferLane)
  | (_, .releaseLocksNow) => inferInstanceAs (Decidable True)

instance LocksMeetWork.decidable (s : Lane) :
    (a : Env × LaneEvent) → Decidable (s.LocksMeetWork a)
  | (env, .queueClear store index) =>
    inferInstanceAs (Decidable (s.GrantsMeetWork (env, .queueClear store index) ∧ _ ≠ _))
  | (env, .lockObtained store) =>
    inferInstanceAs (Decidable (s.GrantsMeetWork (env, .lockObtained store) ∧ True))
  | (env, .dequeueClear id) =>
    inferInstanceAs (Decidable (s.GrantsMeetWork (env, .dequeueClear id) ∧ True))
  | (_, .lockState _ _) | (_, .fileTransferContinueData _ _ _) | (_, .fileTransferData _ _)
  | (_, .fileTransferError _ _) | (_, .fileTransferDataComplete _) | (_, .download _ _)
  | (_, .upload _ _ _) | (_, .abortTransfers) | (_, .fireWake) | (_, .poke) | (_, .wakeup)
  | (_, .queueFlushed) | (_, .resetTransferLane) | (_, .releaseLocksNow) =>
    inferInstanceAs (Decidable (True ∧ True))

/-- A change that makes no belief, and releases only what it stops believing in. -/
theorem Belief.frame {s t : Lane} (h : s.Belief)
    (hheld : ∀ k, t.held k = true → s.held k = true)
    (hused : ∀ k, k ≠ macroStore → t.held k = true →
      (s.queue k ≠ [] ∨ ∃ d, s.draining = some d ∧ d.store = k) →
      t.queue k ≠ [] ∨ ∃ d, t.draining = some d ∧ d.store = k)
    (hlog : ∃ new, t.log = new ++ s.log ∧ ∀ a ∈ new,
      ∀ k, k ≠ macroStore → t.held k = true → a.releases k = false) : t.Belief where
  granted := by
    intro k hk ht
    obtain ⟨new, hnew, hneutral⟩ := hlog
    rw [hnew]
    exact granted_append (fun a ha => hneutral a ha k hk ht) (h.granted k hk (hheld k ht))
  used := by
    intro k hk ht
    exact hused k hk ht (h.used k hk (hheld k ht))

/-- A change that touches neither belief, queues, drain nor log. -/
theorem Belief.same {s t : Lane} (h : s.Belief) (hlocks : t.locks = s.locks)
    (hst : s.SameTransfers t) (hlog : t.log = s.log) : t.Belief := by
  have hheld : ∀ k, t.held k = s.held k := fun k => by rw [held_eq, hlocks, held_eq]
  refine h.frame (fun k hk => by rwa [hheld] at hk) ?_ ⟨[], hlog, by simp⟩
  intro k _ _ hu
  rwa [hst.queue, hst.draining]

theorem Belief.quiet {s t : Lane} (h : s.Belief) (hq : s.Quiet t) : t.Belief := by
  have hheld : ∀ k, t.held k = s.held k := fun k => by rw [held_eq, hq.locks, held_eq]
  have hst := hq.sameTransfers
  refine h.frame (fun k hk => by rwa [hheld] at hk) ?_ ?_
  · intro k _ _ hu
    rwa [hst.queue, hst.draining]
  · obtain ⟨new, hlog, hbulk⟩ := hq.log
    exact ⟨new, hlog, fun a ha k _ _ => (Act.bulk_spec (hbulk a ha) k).2.1⟩

/-- Letting go of a store: its work may go with its lock. -/
theorem Belief.letGo {s t : Lane} {now : Time} {store : Store} (h : s.Belief)
    (hlocks : t.locks = s.locks) (hlog : t.log = s.log)
    (hqueue : ∀ k, k ≠ store → t.queue k = s.queue k)
    (hdrain : t.draining = s.draining ∨
      (∀ d, s.draining = some d → d.store = store) ∧ t.draining = none) :
    (t.letGo now store).Belief := by
  have hheldt : ∀ k, t.held k = s.held k := fun k => by rw [held_eq, hlocks, held_eq]
  refine h.frame ?_ ?_ ?_
  · intro k hk
    rw [← hheldt]
    exact held_of_letGo_held now store t hk
  · intro k hk hheld hu
    rw [letGo_queue, letGo_draining]
    by_cases hks : k = store
    · subst hks
      rw [letGo_held now k t hk, if_pos rfl] at hheld
      cases hheld
    · rw [hqueue k hks]
      rcases hdrain with hd | ⟨hd, -⟩
      · rwa [hd]
      · refine hu.imp_right ?_
        rintro ⟨d, hsd, hdk⟩
        exact absurd (hdk.symm.trans (hd d hsd)) hks
  · rcases letGo_cases now store t with ⟨hm, -, heq⟩ | ⟨-, heq⟩
    · refine ⟨[.send now (.lock store false)], by rw [heq, ← hlog]; rfl, ?_⟩
      intro a ha
      rw [List.mem_singleton.mp ha]
      intro k hk hheld
      by_cases hks : k = store
      · rw [letGo_held now store t hm, if_pos hks] at hheld
        cases hheld
      · simp [Act.releases, Ne.symm hks]
    · exact ⟨[], by rw [heq]; exact hlog, by simp⟩

/-- Entries that release nothing, and no change to what the belief is about. -/
theorem Belief.send {s t : Lane} (h : s.Belief) (hlocks : t.locks = s.locks)
    (hqueue : t.transferQueue = s.transferQueue) (hdrain : t.draining = s.draining)
    (hlog : ∃ new, t.log = new ++ s.log ∧ ∀ a ∈ new, ∀ k, a.releases k = false) :
    t.Belief := by
  have hheld : ∀ k, t.held k = s.held k := fun k => by rw [held_eq, hlocks, held_eq]
  obtain ⟨new, hlog, hfree⟩ := hlog
  refine h.frame (fun k hk => by rwa [hheld] at hk) ?_
    ⟨new, hlog, fun a ha k _ _ => hfree a ha k⟩
  intro k _ _ hu
  rwa [queue_eq, hqueue, hdrain]

/-- With every queue empty and no drain nothing is held. -/
theorem Belief.not_held_idle {s : Lane} (h : s.Belief) (hready : s.Ready)
    (hempty : ∀ k, s.queue k = []) {k : Store} (hk : k ≠ macroStore) : ¬ s.held k = true := by
  intro hheld
  rcases h.used k hk hheld with hu | ⟨d, hd, -⟩
  · exact hu (hempty k)
  · rw [hready.1] at hd
    cases hd

/-- Every move of the trigger keeps the belief sound. With every queue empty and no drain
nothing is held that the clean-up could release. -/
theorem belief_triggerMove {now : Time} {stale : Prop} (s t : Lane)
    (hm : TriggerMove now stale s t) (h : s.Belief) : t.Belief := by
  cases hm with
  | wake due => exact h.same rfl (by constructor <;> intros <;> rfl) rfl
  | fail => exact h.quiet (quiet_throw _ s)
  | pauseOver _ _ _ => exact ⟨h.granted, h.used⟩
  | endYield _ _ => exact h.same rfl (by constructor <;> intros <;> rfl) rfl
  | clean hready hempty =>
    obtain ⟨new, heq, hnew⟩ := cleanLocks_eq now s
    rw [heq]
    refine h.frame (fun k hk => hk) (fun k _ _ hu => hu) ⟨new, rfl, ?_⟩
    intro a ha j hj _
    obtain ⟨k, hk, rfl⟩ := hnew a ha
    have hkm : k = macroStore := by
      by_contra hkm
      exact h.not_held_idle hready hempty hkm hk
    simp [Act.releases, hkm, Ne.symm hj]
  | @askForLock id _ _ _ _ _ _ =>
    refine h.send rfl rfl rfl ⟨[_], rfl, fun a ha => ?_⟩
    rw [List.mem_singleton.mp ha]
    exact (lockRequestFor_spec now (s.tasks id)).1
  | @clear id hready hfront husable _ _ =>
    have hsend : Belief { s with
        log := .notice (.clearDispatched id (s.tasks id).store (s.tasks id).slot) ::
          .send now (.clearStill id (s.tasks id).store (s.tasks id).slot) :: s.log } := by
      refine h.send rfl rfl rfl ⟨[_, _], rfl, fun a ha k => ?_⟩
      rcases List.mem_cons.mp ha with rfl | ha
      · rfl
      · rw [List.mem_singleton.mp ha]
        rfl
    refine hsend.letGo rfl rfl ?_ (.inl rfl)
    intro k hk
    exact (queue_popHead hfront k).trans (if_neg hk)
  | @request id retry hready hfront husable _ hkind _ =>
    have hr := requested_requestTransfer now retry id s
    obtain ⟨new, c, hlog, hbulk, hc⟩ := hr.log
    refine h.send hr.locks hr.transferQueue hr.draining
      ⟨new ++ [.send now c], by rw [hlog]; simp, fun a ha k => ?_⟩
    rcases List.mem_append.mp ha with ha | ha
    · exact (Act.bulk_spec (hbulk a ha) k).2.1
    · rw [List.mem_singleton.mp ha]
      exact (Command.request_spec now hc).1 k

/-- Releases keep the belief sound, whatever becomes of the queues. -/
theorem ReleaseMoves.granted {s t : Lane} {now : Time} {yields : Bool} {may : Store → Prop}
    (hm : ReleaseMoves now yields may s t)
    (hgranted : ∀ k, k ≠ macroStore → s.held k = true → Bmdwire.granted k s.log = true) :
    ∀ k, k ≠ macroStore → t.held k = true → Bmdwire.granted k t.log = true := by
  refine hm.keep (P := fun t =>
    ∀ k, k ≠ macroStore → t.held k = true → Bmdwire.granted k t.log = true) ?_ hgranted
  intro t u hmove hg
  have hheld := hmove.held
  obtain ⟨hj, -⟩ := hmove
  rename_i j
  have hlog : ∀ u : Lane, u.log = .send now (.lock j false) :: t.log → u.held j = false →
      (∀ k, u.held k = true → t.held k = true) →
      ∀ k, k ≠ macroStore → u.held k = true → Bmdwire.granted k u.log = true := by
    intro u hu hdrop hle k hk hheld
    have hkj : j ≠ k := by
      rintro rfl
      rw [hdrop] at hheld
      cases hheld
    rw [hu]
    simp [Bmdwire.granted, Act.releases, hkj, hg k hk (hle k hheld)]
  cases yields with
  | false => exact hlog _ rfl (held_dropLock now j t) hheld
  | true => exact hlog _ rfl (held_dropLock now j t) hheld

/-- A drain that ends takes its lock with it. -/
theorem belief_drainEnded {now : Time} {s : Lane} {d : Drain} (h : s.Belief)
    (hd : s.draining = some d) (wakeups : ℕ) :
    Belief (letGo now d.store { s with wakeups := wakeups, draining := none }) := by
  refine h.letGo rfl rfl (fun _ _ => rfl) (.inr ⟨?_, rfl⟩)
  intro d' hd'
  rw [hd] at hd'
  rw [← Option.some.inj hd']

/-- A task that leaves the head of its store's queue takes the lock with it. -/
theorem belief_dropFailed {now : Time} {s t : Lane} {id : TaskId} (h : s.Belief)
    (hfront : s.Front id) (hst : SameTransfers { s with transferRequested := false } t)
    (hlocks : t.locks = s.locks) (hlog : t.log = s.log) : (t.dropFailed now id).Belief := by
  have hfront' : Front { t with tryAgainDue := none } id := by
    show (t.queue (t.tasks id).store).head? = some id
    rw [hst.store, hst.queue]
    exact hfront
  have hpop := queue_popHead hfront'
  refine h.letGo hlocks hlog ?_ (.inl hst.draining)
  intro k hk
  exact ((hpop k).trans (if_neg hk)).trans (hst.queue k)

/-- A new task makes no belief. -/
theorem belief_enqueue {s : Lane} {task : TransferTask} (h : s.Belief) :
    (s.enqueue task).Belief where
  granted := h.granted
  used := by
    intro k hk hheld
    refine (h.used k hk hheld).imp_left fun hq => ?_
    rw [queue_enqueue]
    split
    · simp
    · exact hq

/-- A dequeued clear leaves a held store work, or its drain. -/
theorem belief_dequeueClear {s : Lane} {id : TaskId} (h : s.Belief) (hwf : s.Wf)
    (hok : s.held (s.tasks id).store = true →
      s.queue (s.tasks id).store ≠ [id] ∨
        s.draining.map (·.store) = some (s.tasks id).store) :
    (s.dequeueClear id).Belief := by
  have hqueue := queue_dequeueClear id s hwf.store
  obtain ⟨q, heq⟩ := dequeueClear_eq id s
  rw [heq] at hqueue ⊢
  refine h.frame (fun k hk => hk) ?_ ⟨[], rfl, by simp⟩
  · intro k hk hheld hu
    rw [hqueue]
    rcases hu with hu | hu
    · by_cases hfilter : (s.queue k).filter (· ≠ id) = []
      · -- every task queued for the store is the dequeued one
        have hall : ∀ j ∈ s.queue k, j = id := by
          intro j hj
          by_contra hne
          have := List.filter_eq_nil_iff.mp hfilter j hj
          simp [hne] at this
        have hsingle : s.queue k = [id] := by
          have hlt := hwf.ordered k
          match hq : s.queue k, hu with
          | [a], _ => rw [hall a (by simp [hq])]
          | a :: b :: rest, _ =>
            rw [hq] at hlt hall
            have ha := hall a (by simp)
            have hb := hall b (by simp)
            have hab := List.rel_of_pairwise_cons hlt (List.mem_cons_self ..)
            rw [ha, hb] at hab
            exact absurd hab (lt_irrefl id)
        have hstore : (s.tasks id).store = k := hwf.store k id (by simp [hsingle])
        rw [hstore] at hok
        exact .inr (Option.map_eq_some_iff.mp ((hok hheld).resolve_left fun hn => hn hsingle))
      · exact .inl hfilter
    · exact .inr hu

/-- An abort keeps at most the belief in the lock of the download it leaves draining. -/
theorem belief_abortTransfers {s : Lane} {now : Time} (h : s.Belief) :
    (s.abortTransfers now).Belief := by
  cases hl : s.leavesDraining now with
  | true =>
    obtain ⟨id, last, hid, -⟩ := exists_inFlight_of_leavesDraining hl
    obtain ⟨hm, hheld⟩ := abortTransfers_drain hl hid
    obtain ⟨_, _, _, _, heq⟩ := hm.fields
    refine ⟨hm.granted h.granted, ?_⟩
    · intro k hk hk'
      have hks : k = (s.tasks id).store := by
        by_contra hne
        rw [hheld k hne] at hk'
        cases hk'
      refine .inr ⟨⟨(s.tasks id).tid.getD 0, (s.tasks id).store, now, now⟩, ?_, hks.symm⟩
      rw [heq]
      simp [drainBegun, wakeAt, beginDrain, inFlight, hid]
  | false =>
    obtain ⟨hm, hheld⟩ := abortTransfers_all hl
    refine ⟨hm.granted h.granted, ?_⟩
    intro k _ hk
    rw [hheld k] at hk
    cases hk

/-- The teardown keeps at most the belief in the macro store's lock. -/
theorem belief_releaseLocksNow {s : Lane} {now : Time} (h : s.Belief) :
    (s.releaseLocksNow now).Belief := by
  rcases releaseLocksNow_cases now s with ⟨-, heq⟩ | ⟨t, hm, hheld, heq⟩
  · rw [heq]
    exact h
  · rw [heq]
    refine ⟨hm.granted h.granted, ?_⟩
    intro k hk hk'
    have hk' : t.held k = true := hk'
    rw [hheld k hk] at hk'
    cases hk'

/-- Every opening under the condition keeps the belief sound. -/
theorem belief_opening {env : Env} {s t : Lane} {e : LaneEvent} {closing : Option Notice}
    (ho : Opening env.now (s.receive env e) e t closing) (hwf : s.Wf) (h : (s.receive env e).Belief)
    (hok : s.GrantsMeetWork (env, e)) : t.Belief := by
  cases ho with
  | quiet _ hq => exact h.quiet hq
  | granted store =>
    constructor
    case granted =>
      intro k hk hheld
      by_cases hks : store = k
      · simp [Bmdwire.granted, receive, Act.grants, hks]
      · refine h.granted k hk ?_
        exact ((held_set (s.receive env _) store k true).trans (if_neg (Ne.symm hks))).symm.trans
          hheld
    case used =>
      intro k hk hheld
      by_cases hks : store = k
      · subst hks
        exact (hok.resolve_left hk).imp_right Option.map_eq_some_iff.mp
      · refine h.used k hk ?_
        exact ((held_set (s.receive env _) store k true).trans (if_neg (Ne.symm hks))).symm.trans
          hheld
  | @taken store _ =>
    obtain ⟨_, _, _, _, heq⟩ := lockTaken_eq env.now store (s.receive env _)
    exact h.same (by rw [heq]) (sameTransfers_lockTaken ..) (by rw [heq])
  | @freed store _ =>
    obtain ⟨_, _, heq⟩ := freed_eq env.now store (s.receive env _)
    exact h.same (by rw [heq]) (sameTransfers_freed ..) (by rw [heq])
  | @drained d data hd =>
    refine h.frame (fun k hk => hk) ?_ ⟨[.send env.now (.transferAck d.tid 0)], rfl, by
      simp [Act.releases]⟩
    intro k _ _ hu
    refine hu.imp_right ?_
    rintro ⟨d', hd', hk⟩
    rw [hd] at hd'
    obtain rfl := Option.some.inj hd'
    exact ⟨_, rfl, hk⟩
  | drainFailed status hd => exact belief_drainEnded h hd _
  | drainCompleted hd => exact belief_drainEnded h hd _
  | @tryAgain id transfer _ _ =>
    exact h.frame (fun k hk => hk) (fun k _ _ hu => hu) ⟨[], rfl, by simp⟩
  | @triedOut id transfer hans _ =>
    exact belief_dropFailed h (hwf.inFlight id hans.inFlight).1 (sameTransfers_countTry id _) rfl rfl
  | @lockLost id transfer hans =>
    have hset := held_set (s.receive env (.fileTransferError transfer 5))
      (s.tasks id).store
    refine h.frame ?_ (fun k _ _ hu => hu) ⟨[], rfl, by simp⟩
    intro k hk
    by_cases hks : k = (s.tasks id).store
    · have := (hset k false).symm.trans hk
      simp [hks] at this
    · have := (hset k false).symm.trans hk
      simpa [hks] using this
  | yielded _ => exact h.letGo rfl rfl (fun _ _ => rfl) (.inl rfl)
  | @failed id transfer status hans _ _ _ =>
    exact belief_dropFailed h (hwf.inFlight id hans.inFlight).1 (.refl _) rfl rfl
  | @completed id transfer hans =>
    refine h.letGo rfl rfl ?_ (.inl rfl)
    intro k hk
    exact (queue_set (s.receive env (.fileTransferDataComplete transfer)) _ k _).trans (if_neg hk)
  | strangeCompletion _ => exact h.same rfl (sameTransfers_someoneAtWork ..) rfl
  | enqueue _ => exact belief_enqueue h
  | dequeue id => exact belief_dequeueClear h (wf_receive hwf env _) hok
  | abort => exact belief_abortTransfers h
  | fire _ _ => exact h.same rfl (by constructor <;> intros <;> rfl) rfl
  | poke => exact h.same rfl (by constructor <;> intros <;> rfl) rfl
  | woken _ _ => exact h.same rfl (by constructor <;> intros <;> rfl) rfl
  | drainOverdue _ hd _ => exact belief_drainEnded h hd _
  | reset =>
    refine h.frame ?_ ?_ ⟨[], rfl, by simp⟩
    · intro k hk
      simp [resetTransferLane, held_eq] at hk
    · intro k _ hk
      simp [resetTransferLane, held_eq] at hk
  | teardown => exact belief_releaseLocksNow h

/-- Logging an event keeps the belief sound. -/
theorem belief_receive {s : Lane} (h : s.Belief) (env : Env) (e : LaneEvent) :
    (s.receive env e).Belief :=
  h.send rfl rfl rfl ⟨[.recv env.now e], rfl, fun a ha k => by rw [List.mem_singleton.mp ha]; rfl⟩

/-- A step under the condition keeps the belief sound. -/
theorem belief_step {s : Lane} {a : Env × LaneEvent} (hwf : s.Wf) (h : s.Belief)
    (hok : s.GrantsMeetWork a) : (s.step a).Belief := by
  obtain ⟨m, m', closing, hopen, hmoves, heq⟩ := step_splits hwf a
  have hm := belief_opening hopen hwf (belief_receive h a.1 a.2) hok
  have hm' : m'.Belief := hmoves.keep belief_triggerMove hm
  rw [heq]
  cases closing with
  | none => exact hm'
  | some n =>
    exact hm'.send rfl rfl rfl ⟨[.notice n], rfl, fun a ha k => by
      rw [List.mem_singleton.mp ha]; rfl⟩

/-- The belief is sound in every state of a run whose grants meet work. -/
theorem belief_reachable {s : Lane} (h : ReachableWhen GrantsMeetWork s) : s.Belief := by
  refine Library.Reach.invariant (P := fun s => s.Belief) ?_ ?_ h
  · rintro s ⟨tid, -, -, rfl⟩
    constructor
    · intro k _ hk
      simp [fresh, held_eq] at hk
    · intro k _ hk
      simp [fresh, held_eq] at hk
  · rintro s a hreach hs ⟨-, hok⟩
    exact belief_step (wf_reachableWhen hreach) hs hok

/-! ## What is sent under the locks -/

/-- No clear is for the macro store, and what needs a lock went out under it. -/
structure Rightly (s : Lane) : Prop where
  clears : ∀ id, (s.tasks id).kind = .clear → (s.tasks id).store ≠ macroStore
  sent : Every SentUnderLock s.log

/-- A change of no task, with nothing sent that needs a lock. -/
theorem Rightly.frame {s t : Lane} (h : s.Rightly)
    (htasks : ∀ id, (t.tasks id).kind = (s.tasks id).kind ∧
      (t.tasks id).store = (s.tasks id).store)
    (hlog : ∃ new, t.log = new ++ s.log ∧ ∀ a ∈ new, a.needsLock? = none) : t.Rightly where
  clears := by
    intro id hkind
    rw [(htasks id).1] at hkind
    rw [(htasks id).2]
    exact h.clears id hkind
  sent := by
    obtain ⟨new, hlog, hnew⟩ := hlog
    rw [hlog]
    exact every_sentUnderLock_append hnew h.sent

/-- Every move sends what needs a lock under it. -/
theorem rightly_triggerMove {now : Time} {stale : Prop} {s t : Lane}
    (hm : TriggerMove now stale s t) (hbelief : s.Belief) (h : s.Rightly) : t.Rightly := by
  have hgranted : ∀ {store : Store}, s.Usable store → store ≠ macroStore →
      Bmdwire.granted store s.log = true :=
    fun hu hk => hbelief.granted _ hk (hu.resolve_left hk)
  have hone : ∀ {u : Lane} {a : Act}, (∀ id, (u.tasks id).kind = (s.tasks id).kind ∧
      (u.tasks id).store = (s.tasks id).store) → u.log = a :: s.log → a.needsLock? = none →
      u.Rightly := by
    intro u a htasks hlog ha
    exact h.frame htasks ⟨[a], hlog, fun b hb => by rw [List.mem_singleton.mp hb]; exact ha⟩
  cases hm with
  | wake due => exact ⟨h.clears, h.sent⟩
  | fail => exact hone (fun _ => ⟨rfl, rfl⟩) rfl rfl
  | pauseOver _ _ _ => exact ⟨h.clears, h.sent⟩
  | endYield _ _ => exact ⟨h.clears, h.sent⟩
  | clean _ _ =>
    obtain ⟨new, heq, hnew⟩ := cleanLocks_eq now s
    rw [heq]
    refine h.frame (fun _ => ⟨rfl, rfl⟩) ⟨new, rfl, fun a ha => ?_⟩
    obtain ⟨k, -, rfl⟩ := hnew a ha
    rfl
  | @askForLock id _ _ _ _ _ _ =>
    exact hone (fun _ => ⟨rfl, rfl⟩) rfl (lockRequestFor_spec now (s.tasks id)).2
  | @clear id _ _ husable _ hkind =>
    obtain ⟨new, hlog, hnew⟩ := letGo_log now (s.tasks id).store (s.dispatchClear now id)
    have hsent : (s.dispatchClear now id).Rightly := by
      refine ⟨h.clears, fun store hneed => (by cases hneed), ?_, h.sent⟩
      intro store hneed
      obtain rfl := Option.some.inj hneed
      exact hgranted husable (h.clears id hkind)
    refine hsent.frame (fun j => by rw [letGo_tasks]; exact ⟨rfl, rfl⟩) ⟨new, hlog, fun a ha => ?_⟩
    rw [hnew a ha]
    rfl
  | @request id retry _ _ husable _ _ _ =>
    have hr := requested_requestTransfer now retry id s
    obtain ⟨new, c, hlog, hbulk, hc⟩ := hr.log
    have hneed := (Command.request_spec now hc).2
    have hsent : Rightly { s with log := .send now c :: s.log } := by
      refine ⟨h.clears, ?_, h.sent⟩
      intro k hk
      rw [hneed] at hk
      split at hk
      · cases hk
      · rename_i hm
        obtain rfl := Option.some.inj hk
        exact hgranted husable hm
    exact hsent.frame (fun j => ⟨hr.kind j, hr.store j⟩)
      ⟨new, hlog, fun a ha => (Act.bulk_spec (hbulk a ha) 0).2.2⟩

/-- No opening sends anything that needs a lock. -/
theorem rightly_opening {env : Env} {s t : Lane} {e : LaneEvent} {closing : Option Notice}
    (ho : Opening env.now (s.receive env e) e t closing) (h : s.Rightly)
    (hok : s.LocksMeetWork (env, e)) : t.Rightly := by
  have hreceive : (s.receive env e).Rightly := ⟨h.clears, fun _ hneed => (by cases hneed), h.sent⟩
  obtain ⟨new, hlog, hnew⟩ := opening_log_eq ho
  have hneeds : ∀ a ∈ new, a.needsLock? = none := by
    intro a ha
    rcases hnew a ha with hbulk | ⟨k, rfl⟩
    · exact (Act.bulk_spec hbulk 0).2.2
    · rfl
  rcases opening_tasks ho with ⟨task, htask, rfl⟩ | htasks
  · refine ⟨?_, hreceive.sent⟩
    intro id hkind
    rw [tasks_enqueue] at hkind ⊢
    split at hkind
    · rename_i hid
      rw [if_pos hid]
      cases e with
      | queueClear store index =>
        obtain rfl := Option.some.inj htask
        exact hok.2
      | download store index =>
        obtain rfl := Option.some.inj htask
        cases hkind
      | upload store index payload =>
        obtain rfl := Option.some.inj htask
        cases hkind
      | _ => cases htask
    · rename_i hid
      rw [if_neg hid]
      exact h.clears id hkind
  · refine hreceive.frame (fun id => ?_) ⟨new, hlog, hneeds⟩
    exact ⟨congrArg Prod.fst (htasks id), congrArg (·.2.1) (htasks id)⟩

/-- What needs a lock went out under it, in every state of a run whose locks meet work. -/
theorem rightly_reachable {s : Lane} (h : ReachableWhen LocksMeetWork s) : s.Rightly := by
  refine Library.Reach.invariant (P := fun s => s.Rightly) ?_ ?_ h
  · rintro s ⟨tid, -, -, rfl⟩
    refine ⟨fun id hkind => ?_, trivial⟩
    cases hkind
  · rintro s ⟨env, e⟩ hreach hs ⟨-, hok⟩
    have hwf := wf_reachableWhen hreach
    have hbelief := belief_reachable (s := s)
      (Library.Reach.mono (fun _ _ h => ⟨h.1, h.2.1⟩) hreach)
    obtain ⟨m, m', closing, hopen, hmoves, heq⟩ := step_splits hwf (env, e)
    have hm : m.Belief ∧ m.Rightly :=
      ⟨belief_opening hopen hwf (belief_receive hbelief env e) hok.1, rightly_opening hopen hs hok⟩
    have hm' : m'.Belief ∧ m'.Rightly := hmoves.keep (P := fun t => t.Belief ∧ t.Rightly)
      (fun _ _ hmove h => ⟨belief_triggerMove _ _ hmove h.1, rightly_triggerMove hmove h.1 h.2⟩) hm
    rw [heq]
    cases closing with
    | none => exact hm'.2
    | some n => exact ⟨hm'.2.clears, fun _ hneed => (by cases hneed), hm'.2.sent⟩

/-- In every run in which each LKOB finds its store with work, or with its drain, a store
believed locked was granted and not released since, and every transfer request and every
clear went out under a lock granted and not released since. -/
theorem locks_granted_not_released {s : Lane} (h : ReachableWhen LocksMeetWork s) :
    (∀ store, store ≠ macroStore → s.held store = true → granted store s.log = true) ∧
      Every SentUnderLock s.log :=
  ⟨(belief_reachable (Library.Reach.mono (fun _ _ h => ⟨h.1, h.2.1⟩) h)).granted,
    (rightly_reachable h).sent⟩

/-- A download of a still, its lock granted. -/
def lockedDownload : List (Env × LaneEvent) :=
  [(⟨0, none⟩, .download 0 1), (⟨milliseconds 2, none⟩, .lockObtained 0)]

theorem locks_granted_not_released_download :
    (Library.run step (fresh 42) lockedDownload).held 0 = true ∧
      granted 0 (Library.run step (fresh 42) lockedDownload).log = true := by
  have hheld : (Library.run step (fresh 42) lockedDownload).held 0 = true := by decide
  refine ⟨hheld, (locks_granted_not_released ?_).1 0 (by decide) hheld⟩
  exact Library.Reach.run (.start ⟨42, by decide, by decide, rfl⟩) _ (by decide)

/-- A caller that gives up between the lock request and its LKOB: the lock is granted to an
empty lane, which releases it and goes on believing, and the next download starts without
it. -/
def grantAfterAbort : List (Env × LaneEvent) :=
  [(⟨0, none⟩, .download 0 1), (⟨milliseconds 1, none⟩, .abortTransfers),
   (⟨milliseconds 2, none⟩, .lockObtained 0), (⟨milliseconds 3, none⟩, .download 0 2)]

theorem grant_after_abort_unsound :
    ¬ ∀ s, Reachable s →
      (∀ store, store ≠ macroStore → s.held store = true → granted store s.log = true) ∧
        Every SentUnderLock s.log := by
  intro h
  have hreach : Reachable (Library.run step (fresh 42) grantAfterAbort) :=
    Library.Reach.run (.start ⟨42, by decide, by decide, rfl⟩) _ (by decide)
  have hheld : (Library.run step (fresh 42) grantAfterAbort).held 0 = true := by decide
  have hgranted := (h _ hreach).1 0 (by decide) hheld
  exact absurd hgranted (by decide)

end Lane

end Bmdwire
