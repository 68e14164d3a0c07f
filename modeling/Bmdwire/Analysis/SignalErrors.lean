import Bmdwire.Analysis.LaneNotices
import Bmdwire.Analysis.UploadSteps
import Bmdwire.Program.LoopErrors

/-!
# The exceptions of the lane's signals

A flush signal raises while a download is in flight, and for an upload that no budget was ever
granted to. A `Wakeup` does not raise: a `KeyError` would need a yield that ends while another
store is served, and only the trigger after a clear goes on to another store, which needs a clear
on the macro store.
-/

set_option autoImplicit false

namespace Bmdwire

open Library (Dict)

/-- The entry is an exception. -/
def Act.thrown : Act → Bool
  | .throw _ => true
  | _ => false

namespace Lane

/-! ## Entries that are no exceptions -/

/-- From `s` to `t` no exception is logged. -/
def Calm (s t : Lane) : Prop := ∃ new, t.log = new ++ s.log ∧ ∀ a ∈ new, a.thrown = false

section Calm

variable {now : Time} {env : Env} {s t u : Lane}

theorem Calm.same (h : t.log = s.log) : s.Calm t := ⟨[], h, by simp⟩

theorem Calm.one {a : Act} (h : t.log = a :: s.log) (ha : a.thrown = false) : s.Calm t :=
  ⟨[a], h, by simpa using ha⟩

theorem Calm.trans (h : s.Calm t) (h' : t.Calm u) : s.Calm u := by
  obtain ⟨new, hnew, hcalm⟩ := h
  obtain ⟨more, hmore, hcalm'⟩ := h'
  refine ⟨more ++ new, by rw [hmore, hnew, List.append_assoc], fun a ha => ?_⟩
  rcases List.mem_append.mp ha with ha | ha
  · exact hcalm' a ha
  · exact hcalm a ha

/-- No handler that is calm raises. -/
theorem Calm.raised? (h : s.Calm t) : s.raised? t = none := by
  obtain ⟨new, hnew, hcalm⟩ := h
  unfold Lane.raised?
  rw [hnew]
  cases new with
  | nil =>
    rw [List.nil_append]
    cases hlog : s.log with
    | nil => rfl
    | cons a past =>
      cases a with
      | throw e => simp
      | _ => rfl
  | cons a new =>
    have ha := hcalm a List.mem_cons_self
    cases a with
    | throw e => cases ha
    | _ => rfl

/-- An exception thrown last is raised. -/
theorem raised?_throw (e : PyError) (h : s.log.length ≤ t.log.length) :
    s.raised? (t.throw e) = some e := by
  unfold Lane.raised? throw
  dsimp only
  rw [if_pos (by rw [List.length_cons]; omega)]

/-! ## The trigger -/

theorem calm_askForLock (task : TransferTask) (s : Lane) : s.Calm (s.askForLock now task) := by
  have hrequest : ∀ t : Lane, t.Calm (t.requestLock now task) := by
    intro t
    have hsend : t.Calm (t.sendLockRequest now task) := .one rfl rfl
    unfold requestLock
    split
    · split
      · exact .same rfl
      · exact hsend
    · exact hsend
  unfold askForLock
  split
  · exact .same rfl
  · split
    · dsimp only
      split
      · exact .same rfl
      · exact hrequest (s.endYield task.store)
    · exact hrequest s

theorem calm_requestTransfer (retry : Bool) (id : TaskId) (s : Lane) :
    s.Calm (s.requestTransfer now retry id) := by
  have hsend : ∀ t : Lane, t.Calm (t.sendRequest now id) := by
    intro t
    unfold sendRequest
    dsimp only
    split
    · split
      · exact ⟨[_, _], rfl, by simp [Act.thrown]⟩
      · exact .one rfl rfl
    · exact .one rfl rfl
  unfold requestTransfer
  refine Calm.trans ?_ (hsend _)
  exact .same rfl

theorem calm_letGo (store : Store) (s : Lane) : s.Calm (s.letGo now store) := by
  obtain ⟨new, hnew, hsends⟩ := letGo_log now store s
  refine ⟨new, hnew, fun a ha => ?_⟩
  rw [hsends a ha]
  rfl

theorem calm_startNext {trigger : Store → Lane → Lane}
    (htrigger : ∀ store (t : Lane), t.Calm (trigger store t)) (store : Store) (retry : Bool)
    (s : Lane) :
    s.Calm (startNext trigger now store retry s) := by
  unfold startNext
  split
  · obtain ⟨new, heq, hsends⟩ := cleanLocks_eq now s
    rw [heq]
    refine ⟨new, rfl, fun a ha => ?_⟩
    obtain ⟨k, -, rfl⟩ := hsends a ha
    rfl
  · rename_i id _
    dsimp only
    split
    · exact calm_askForLock _ s
    · split
      · exact .same rfl
      · split
        · rw [releaseThenContinueWith_eq]
          have hclear : s.Calm (s.dispatchClear now id) := ⟨[_, _], rfl, by simp [Act.thrown]⟩
          exact (hclear.trans (calm_letGo _ _)).trans (htrigger _ _)
        · exact calm_requestTransfer retry id s

theorem calm_transferTriggerFuel (fuel : ℕ) (store : Store) (retry : Bool) (s : Lane) :
    s.Calm (transferTriggerFuel now fuel store retry s) := by
  induction fuel generalizing store retry s with
  | zero => exact .same rfl
  | succ fuel ih =>
    have hnext : ∀ (r : Bool) (t : Lane), t.Calm
        (startNext (fun k u => transferTriggerFuel now fuel k false u) now store r t) := fun r t =>
      calm_startNext (fun k u => ih k false u) store r t
    unfold transferTriggerFuel
    dsimp only
    split
    · exact .same rfl
    · split
      · split
        · exact .same rfl
        · refine Calm.trans ?_ (hnext true _)
          exact .same rfl
      · exact hnext retry s

theorem calm_transferTrigger (store : Store) (retry : Bool) (s : Lane) :
    s.Calm (s.transferTrigger now store retry) :=
  calm_transferTriggerFuel _ store retry s

/-! ## The state of a lock -/

theorem calm_lockTaken (store : Store) (s : Lane) : s.Calm (s.lockTaken now store) := by
  unfold lockTaken
  split
  · exact .same rfl
  · exact .same rfl

theorem calm_lockFreed (store : Store) (s : Lane) : s.Calm (s.lockFreed now store) := by
  have hfree : ∀ t : Lane, (t.announceFree now store).log = t.log := by
    intro t
    unfold announceFree
    split
    · split
      · rfl
      · rfl
    · split
      · rfl
      · rfl
  have hpounce : ∀ u : Lane, u.log = s.log → s.Calm
      (if u.queue store ≠ [] ∧ ¬ u.transferRequested ∧ ¬ u.held store then
        u.transferTrigger now store false
      else u) := by
    intro u hlog
    split
    · exact (Calm.same hlog).trans (calm_transferTrigger _ _ _)
    · exact .same hlog
  unfold lockFreed
  split
  · exact .same rfl
  · refine hpounce _ ?_
    have hannounced := hfree { s with foreignHeld := s.foreignHeld.filter (· ≠ store) }
    dsimp only
    split
    · exact hannounced
    · exact hannounced

/-- The state of a lock is handled without an exception. -/
theorem calm_lockState (store : Store) (state : Bool) (s : Lane) :
    s.Calm (s.step (env, .lockState store state)) := by
  have hreceive : s.Calm (s.receive env (.lockState store state)) := .one rfl rfl
  show s.Calm ((s.receive env (.lockState store state)).lockState env.now store state)
  unfold lockState
  split
  · exact hreceive.trans (calm_lockTaken store _)
  · exact hreceive.trans (calm_lockFreed store _)

/-! ## A wakeup -/

theorem calm_serviceDrain (s : Lane) : s.Calm (s.serviceDrain now) := by
  unfold serviceDrain
  split
  · split
    · unfold endDrain
      split
      · dsimp only [releaseThenContinue]
        rw [releaseThenContinueWith_eq]
        refine Calm.trans ?_ (calm_transferTrigger _ _ _)
        refine Calm.trans ?_ (calm_letGo _ _)
        exact .same rfl
      · exact .same rfl
    · exact .same rfl
  · exact .same rfl

theorem calm_serviceTryAgain (s : Lane) : s.Calm (s.serviceTryAgain now) := by
  unfold serviceTryAgain
  split
  · split
    · refine Calm.trans ?_ (calm_transferTrigger _ _ _)
      exact .same rfl
    · exact .same rfl
  · exact .same rfl

/-- No clear is on the macro store. -/
def StillClears (s : Lane) : Prop :=
  ∀ id, (s.tasks id).kind = .clear → (s.tasks id).store ≠ macroStore

theorem StillClears.same (h : s.StillClears)
    (htarget : ∀ id, (t.tasks id).target = (s.tasks id).target) : t.StillClears := by
  intro id
  have heq := htarget id
  unfold TransferTask.target at heq
  obtain ⟨hkind, hrest⟩ := Prod.mk.inj heq
  obtain ⟨hstore, -⟩ := Prod.mk.inj hrest
  rw [hkind, hstore]
  exact h id

/-- Served alone, a store with work ends no yield but its own. -/
theorem startNext_yields {trigger : Store → Lane → Lane} {store : Store} (retry : Bool)
    (hs : s.StoresMatch) (hclears : s.StillClears) (hwork : s.queue store ≠ [])
    (hheld : s.held store = false) {k : Store} (hk : k ≠ store) :
    (startNext trigger now store retry s).yielding.get? k = s.yielding.get? k := by
  obtain ⟨id, rest, hqueue⟩ := List.exists_cons_of_ne_nil hwork
  have hnext : s.nextFor store = some id := nextFor_of_queue (by rw [hqueue]; rfl)
  have hstore : (s.tasks id).store = store := hs store id (by rw [hqueue]; exact List.mem_cons_self)
  unfold startNext
  rw [hnext]
  dsimp only
  rw [hstore]
  split
  · have hrequest : ∀ t : Lane,
        (t.requestLock now (s.tasks id)).yielding.get? k = t.yielding.get? k := by
      intro t
      unfold requestLock
      split
      · split
        · rfl
        · rfl
      · rfl
    unfold askForLock
    split
    · rfl
    · split
      · dsimp only
        split
        · rfl
        · rw [hrequest, hstore]
          exact Dict.get?_erase_ne _ hk
      · exact hrequest s
  · rename_i hlock
    have hmacro : store = macroStore := by
      by_contra hne
      exact hlock ⟨hne, by simp [hheld]⟩
    split
    · rfl
    · split
      · rename_i hkind
        exact absurd (hstore.trans hmacro) (hclears id hkind)
      · rw [(requested_requestTransfer now retry id s).yielding]

theorem serviceYield_yields {store : Store} {y : Yield} (hs : s.StoresMatch)
    (hclears : s.StillClears) {k : Store} (hk : k ≠ store) :
    (s.serviceYield now store y).yielding.get? k = s.yielding.get? k := by
  unfold serviceYield
  dsimp only
  split
  · split
    · exact Dict.get?_erase_ne _ hk
    · rfl
  · rename_i hwork
    split
    · rfl
    · rename_i hfree
      have hheld : s.held store = false := by
        rw [not_or, not_or] at hfree
        simpa using hfree.2.1
      split
      · rfl
      · unfold transferTrigger transferTriggerFuel
        dsimp only
        split
        · rfl
        · split
          · split
            · rfl
            · exact startNext_yields (s := { s with tryAgainDue := none }) true hs hclears hwork
                hheld hk
          · exact startNext_yields false hs hclears hwork hheld hk

/-- A yield is there when its store is come to. -/
theorem calm_serviceYieldList (stores : List Store) (hs : s.Wf) (hclears : s.StillClears)
    (hnodup : stores.Nodup) (hyields : ∀ k ∈ stores, (s.yielding.get? k).isSome = true) :
    s.Calm (serviceYieldList now stores s) := by
  induction stores generalizing s with
  | nil => exact .same rfl
  | cons store stores ih =>
    obtain ⟨hnot, hnodup⟩ := List.nodup_cons.mp hnodup
    obtain ⟨y, hy⟩ := Option.isSome_iff_exists.mp (hyields store List.mem_cons_self)
    unfold serviceYieldList
    rw [hy]
    dsimp only
    have hmoves := @serviceYield_moves now True store y s hs hy fun _ _ => .inr trivial
    have hcalm : s.Calm (s.serviceYield now store y) := by
      unfold serviceYield
      dsimp only
      split
      · split
        · exact .same rfl
        · exact .same rfl
      · split
        · exact .same rfl
        · split
          · exact .same rfl
          · exact calm_transferTrigger store false s
    refine hcalm.trans (ih (hmoves.wf hs) ?_ hnodup fun k hk => ?_)
    · exact hclears.same (dispatches_triggerMoves hmoves).target
    · have hne : k ≠ store := by
        rintro rfl
        exact hnot hk
      rw [serviceYield_yields hs.store hclears hne]
      exact hyields k (List.mem_cons_of_mem store hk)

theorem serviceDrain_wf (hs : s.Wf) : (s.serviceDrain now).Wf ∧
    ∀ id, ((s.serviceDrain now).tasks id).target = (s.tasks id).target := by
  unfold serviceDrain
  split
  · rename_i d hd
    split
    · have hmoves := @endDrain_moves now True s hs d hd
      refine ⟨hmoves.wf (wf_drainEnded now hs hd s.wakeups), fun id => ?_⟩
      rw [(dispatches_triggerMoves hmoves).target, letGo_tasks]
    · exact ⟨hs.same (by constructor <;> intros <;> rfl), fun _ => rfl⟩
  · exact ⟨hs, fun _ => rfl⟩

/-- A wakeup does not raise. -/
theorem calm_serviceYields (hs : s.Wf) (hclears : s.StillClears) :
    s.Calm (s.serviceYields now) := by
  obtain ⟨hdrained, htarget⟩ := @serviceDrain_wf now s hs
  obtain ⟨hmoves, -⟩ := @serviceTryAgain_moves True now _ hdrained (.inl trivial)
  have hclears := (hclears.same htarget).same (dispatches_triggerMoves hmoves).target
  unfold serviceYields
  dsimp only
  refine ((@calm_serviceDrain now s).trans (@calm_serviceTryAgain now _)).trans ?_
  refine calm_serviceYieldList _ (hmoves.wf hdrained) hclears (Dict.nodup _) fun k hk => ?_
  rw [Dict.mem_keys] at hk
  exact hk

/-! ## The flush signal -/

theorem calm_sendFileMetadata (id : TaskId) (s : Lane) : s.Calm (s.sendFileMetadata now id) :=
  .one rfl rfl

theorem calm_drainPackets (packets : List (ℕ × Bytes)) (s : Lane) :
    s.Calm (drainPackets now packets s) := by
  induction packets generalizing s with
  | nil => exact .same rfl
  | cons packet rest ih =>
    have hsend : s.Calm ({ s with sendQueue := rest }.send now
        (.transferData packet.1 packet.2)) := .one rfl rfl
    have hcall : ∀ (size : ℕ) (t : Lane), t.Calm (t.queueCallback size) := by
      intro size t
      unfold queueCallback
      split
      · exact .same rfl
      · exact .one rfl rfl
    exact (hsend.trans (hcall _ _)).trans (ih _)

theorem cutChunks_log (id : TaskId) (transfer size count : ℕ) (s : Lane) :
    (s.cutChunks id transfer size count).log = s.log := by
  induction count generalizing s with
  | zero => rfl
  | succ count ih =>
    unfold cutChunks
    dsimp only
    split
    · rfl
    · exact ih _

/-- The signal finds nothing in flight, or an upload with no chunk left to cut or with a budget
that was granted once. -/
def Flushable (s : Lane) : Prop :=
  match s.inFlight with
  | none => True
  | some task => task.kind = .upload ∧
    ((task.data.getD []).length ≤ task.offset ∨ s.transferBudget ≠ .initial)

/-- A flush signal raises just where it is not expected. -/
theorem queueFlushed_raised? (hd : s.DataWf) :
    s.raised? ((s.receive env .queueFlushed).queueFlushed env.now) = none ↔ s.Flushable := by
  have hreceive : s.Calm (s.receive env .queueFlushed) := .one rfl rfl
  have hlength : s.log.length ≤ (s.receive env .queueFlushed).log.length := Nat.le_succ _
  have htransfer : (s.receive env .queueFlushed).transfer = s.transfer := rfl
  have htasks : (s.receive env .queueFlushed).tasks = s.tasks := rfl
  have hbudget : (s.receive env .queueFlushed).transferBudget = s.transferBudget := rfl
  generalize s.receive env .queueFlushed = u at hreceive hlength htransfer htasks hbudget ⊢
  unfold queueFlushed Flushable inFlight
  rw [htransfer]
  cases hid : s.transfer with
  | none => exact ⟨fun _ => trivial, fun _ => hreceive.raised?⟩
  | some id =>
    rw [Option.map_some, htasks]
    dsimp only
    have hkind := hd.data id
    cases hdata : (s.tasks id).data with
    | none =>
      have hnot : (s.tasks id).kind ≠ .upload := fun h => by
        rw [hdata] at hkind
        exact absurd (hkind.mpr h) (by simp)
      dsimp only
      rw [raised?_throw .typeError hlength]
      exact ⟨fun h => (nomatch h), fun h => absurd h.1 hnot⟩
    | some data =>
      have hup : (s.tasks id).kind = .upload := hkind.mp (by rw [hdata]; rfl)
      dsimp only
      by_cases hleft : (s.tasks id).offset < data.length
      · rw [if_pos hleft]
        have hshort : ¬ data.length ≤ (s.tasks id).offset := Nat.not_le.mpr hleft
        unfold queueChunks
        rw [htransfer, hid, hbudget]
        cases hb : s.transferBudget with
        | initial =>
          dsimp only
          rw [htasks, if_neg (not_not.mpr hup), raised?_throw .attributeError hlength]
          exact ⟨fun h => (nomatch h), fun h => absurd (h.2.resolve_left hshort) (by simp)⟩
        | exhausted =>
          exact ⟨fun _ => ⟨hup, .inr (by simp)⟩, fun _ => hreceive.raised?⟩
        | granted transfer size count =>
          dsimp only
          rw [htasks, if_neg (not_not.mpr hup)]
          have hcut : u.Calm (u.cutChunks id transfer size count) :=
            .same (cutChunks_log id transfer size count u)
          have hdrained := @calm_drainPackets env.now (u.cutChunks id transfer size count).sendQueue
            (u.cutChunks id transfer size count)
          have hchunks := (hreceive.trans hcut).trans hdrained
          exact ⟨fun _ => ⟨hup, .inr (by simp)⟩, fun _ => hchunks.raised?⟩
      · rw [if_neg hleft]
        refine ⟨fun _ => ⟨hup, .inl (Nat.not_lt.mp hleft)⟩, fun _ => ?_⟩
        split
        · exact (hreceive.trans (calm_sendFileMetadata id u)).raised?
        · exact hreceive.raised?

/-! ## Runs -/

/-- `queue_clear` is called for the still store. -/
def ClearsStills (_ : Lane) (a : Env × LaneEvent) : Prop :=
  ∀ store index, a.2 = .queueClear store index → store ≠ macroStore

theorem stillClears_step {a : Env × LaneEvent} (hs : s.Wf) (h : s.StillClears)
    (ha : ClearsStills s a) : (s.step a).StillClears := by
  obtain ⟨m, m', closing, hopen, hmoves, heq⟩ := step_splits hs a
  have hreceive : (s.receive a.1 a.2).StillClears := h
  have hm : m.StillClears := by
    rcases opening_tasks hopen with ⟨task, htask, rfl⟩ | htarget
    · intro id
      by_cases hid : id = (s.receive a.1 a.2).nextTask
      · have hnew : ((s.receive a.1 a.2).enqueue task).tasks id = task := by
          rw [hid]
          exact Function.update_self ..
        rw [hnew]
        intro hkind
        cases he : a.2 with
        | queueClear store index =>
          rw [he] at htask
          cases htask
          exact ha store index he
        | download store index =>
          rw [he] at htask
          cases htask
          cases hkind
        | upload store index payload =>
          rw [he] at htask
          cases htask
          cases hkind
        | _ =>
          rw [he] at htask
          cases htask
      · have hold : ((s.receive a.1 a.2).enqueue task).tasks id = s.tasks id :=
          Function.update_of_ne hid ..
        rw [hold]
        exact h id
    · exact hreceive.same htarget
  have hm' := hm.same (dispatches_triggerMoves hmoves).target
  rw [heq]
  cases closing with
  | none => exact hm'
  | some n => exact hm'

theorem stillClears_reach (h : ReachableWhen ClearsStills s) : s.StillClears := by
  refine Library.Reach.invariant ?_ (fun t a hreach ht ha =>
    stillClears_step (wf_reachableWhen hreach) ht ha.2) h
  rintro t ⟨tid, -, -, rfl⟩ id hkind
  simp [fresh] at hkind

end Calm

end Lane

end Bmdwire
