import Bmdwire.Analysis.CallerTasks

/-!
# What `upload_macro_bytecode` reports

The upload waits for an `upload-done` of its store and slot, or for any FTDE, and leaves its
task where it is when the time is up. It reports truthfully as long as no two uploads to a
slot overlap, no FTDE ends another transfer while an upload's task is queued, and no upload
gives up on a task still queued (`UploadsApart`): then it returns only after the FTDC of its
own transfer, and raises only with its task gone (`upload_macro_truthful`).
-/

set_option autoImplicit false

namespace Bmdwire

/-- What the state of an `upload_macro_bytecode` call says of its task. -/
structure UploadTold (lane : Lane) (c : Call) : Prop where
  heard : c.heard = true → ∃ id, c.task? = some id ∧ lane.Gone id ∧
    Lane.AnsweredBy id .fileTransferDataComplete lane.log
  error : c.error ≠ none → ∃ id, c.task? = some id ∧ lane.Gone id
  ended : ∀ id r, c.phase = .over id r → lane.Gone id
  returned : ∀ id data, c.phase = .over id (.returned data) →
    Lane.AnsweredBy id .fileTransferDataComplete lane.log

/-- A call that ends keeps what it knows, if its task is gone and a normal end is deserved. -/
theorem UploadTold.finish {lane : Lane} {c : Call} {id : TaskId} {r : CallResult}
    (h : UploadTold lane c) (hid : c.task? = some id) (hgone : lane.Gone id)
    (hr : ∀ data, r = .returned data →
      Lane.AnsweredBy id .fileTransferDataComplete lane.log) : UploadTold lane (c.finish r) := by
  have hfinish : c.finish r = { c with phase := .over id r } := by rw [Call.finish, hid]
  rw [hfinish]
  constructor
  case heard =>
    intro hheard
    obtain ⟨id', hid', hgone', hanswered⟩ := h.heard hheard
    obtain rfl := Option.some.inj (hid.symm.trans hid')
    exact ⟨id, rfl, hgone', hanswered⟩
  case error => exact fun _ => ⟨id, rfl, hgone⟩
  case ended =>
    intro id' r' hphase
    cases hphase
    exact hgone
  case returned =>
    intro id' data hphase
    cases hphase
    exact hr data rfl

namespace Callers

/-- An FTDE ends no other transfer while the task of an open upload is queued, or about to be. -/
def UploadErrorsOwn (s : Callers) (transfer status : ℕ) : Prop :=
  ∀ id ∈ s.lane.rejected transfer status, ∀ i < s.nextCall, (s.calls i).kind.target.1 = .upload →
    (s.calls i).isOpen = true → ((s.calls i).task? = none ∨ s.taskQueued i = true) →
    (s.calls i).task? = some id

/-- Calls of `upload_macro_bytecode` for one slot do not overlap, no other transfer fails while
the task of one is queued, and none times out with its task still queued. -/
def UploadsApart (s : Callers) (a : Env × CallerEvent) : Prop :=
  match a.2 with
  | .begin kind => kind.target.1 = .upload → s.FreeFor kind.target
  | .lane (.fileTransferError transfer status) => s.UploadErrorsOwn transfer status
  | .wake i => (s.calls i).kind.target.1 = .upload → (s.calls i).heard = false →
      (s.calls i).error = none → s.taskQueued i = false
  | _ => True

/-- A step of the lane keeps what an upload knows, if it ends no other transfer meanwhile. -/
theorem uploadTold_laneStep {s : Callers} {a : Env × LaneEvent} {i : ℕ}
    (hs : s.Tasks (some a.2)) (halone : s.Alone .upload) (hown : s.CreatesOwn .upload a.2)
    (hk : (s.calls i).kind.target.1 = .upload) (h : UploadTold s.lane (s.calls i))
    (hok : ∀ transfer status, a.2 = .fileTransferError transfer status →
      s.UploadErrorsOwn transfer status) :
    UploadTold (s.lane.step a) ((s.laneStep a).calls i) := by
  have hsame := s.laneStep_same a i
  have hwf := hs.wf
  obtain ⟨-, -, new, hlog, -, htells⟩ := Lane.step_tells hwf a
  have hlog' : (s.lane.step a).log = (new ++ [.recv a.1.now a.2]) ++ s.lane.log := by simp [hlog]
  have hmem : ∀ {n}, .notice n ∈ new ++ [.recv a.1.now a.2] → .notice n ∈ new := by
    intro n hn
    rcases List.mem_append.mp hn with hn | hn
    · exact hn
    · cases List.mem_singleton.mp hn
  have hgone : ∀ {n id}, .notice n ∈ new ++ [.recv a.1.now a.2] → (n.outcome? id).isSome →
      (s.lane.step a).Gone id := fun hn hid =>
    have hleaves := Lane.said_leaves hwf hlog' hn hid
    ⟨hleaves.2.1, hleaves.1⟩
  constructor
  case heard =>
    intro hheard
    rw [hsame.task?]
    rcases Call.hears_heard hheard with hheard | ⟨hopen, n, hn, id, hid⟩
    · obtain ⟨id, hid, hold, hanswered⟩ := h.heard hheard
      exact ⟨id, hid, hold.step hwf a, by rw [hlog']; exact hanswered.append _⟩
    · have hn := (Lane.mem_raised hlog').mp hn
      refine ⟨id, halone.told hs hown hk hopen hlog' hn hid,
        hgone hn (Lane.outcome?_of_success? hid), ?_⟩
      have horderly := Lane.orderly_reachable hs.lane
      generalize (s.calls i).kind.target = target at hk hid
      have hsaid := htells n (hmem hn)
      cases hsaid with
      | uploaded he ha _ =>
        cases hid
        exact Lane.answeredBy_step hwf horderly he ha
      | cleared _ | downloaded _ _ _ =>
        cases hid
        cases hk
      | undecoded _ _ | failed _ _ _ => cases hid
      | progress hbulk =>
        cases n with
        | transferProgress | uploadProgress => cases hid
        | _ => cases hbulk
  case error =>
    intro herror
    rw [hsame.task?]
    obtain ⟨e, he⟩ := Option.ne_none_iff_exists'.mp herror
    rcases Call.hears_error he with hold | ⟨hopen, -, id, hn⟩
    · obtain ⟨id, hid, hold⟩ := h.error (by rw [hold]; simp)
      exact ⟨id, hid, hold.step hwf a⟩
    · have hn := (Lane.mem_raised hlog').mp hn
      have hsaid := htells _ (hmem hn)
      cases hsaid with
      | progress hbulk => cases hbulk
      | failed hevent ha hfatal =>
        by_cases hq : (s.calls i).task? = none ∨ s.taskQueued i = true
        · have hid := hok _ _ hevent id (Lane.rejected_eq ha hfatal) i (hs.lt_nextCall hopen) hk
            hopen hq
          exact ⟨id, hid, hgone hn (by simp [Notice.outcome?])⟩
        · obtain ⟨htask, hq⟩ := not_or.mp hq
          obtain ⟨own, hid⟩ := Option.ne_none_iff_exists'.mp htask
          have hnot := not_mem_queued (Bool.eq_false_iff.mpr hq) hid
          refine ⟨own, hid, Lane.Gone.step hwf ⟨?_, hnot⟩ a⟩
          rcases (hs.tasked i).made own hid with ⟨hlt, -⟩ | ⟨e', task, he', htask, -⟩
          · exact hlt
          · obtain rfl := Option.some.inj he'
            rw [hevent] at htask
            cases htask
  case ended =>
    intro id r hphase
    rw [hsame.phase] at hphase
    exact (h.ended id r hphase).step hwf a
  case returned =>
    intro id data hphase
    rw [hsame.phase] at hphase
    rw [hlog']
    exact (h.returned id data hphase).append _

/-- `uploadTold_laneStep` for every upload. -/
theorem uploadsTold_laneStep {s : Callers} {a : Env × LaneEvent} (h : s.Each .upload UploadTold)
    (hs : s.Tasks (some a.2)) (halone : s.Alone .upload) (hown : s.CreatesOwn .upload a.2)
    (hok : ∀ transfer status, a.2 = .fileTransferError transfer status →
      s.UploadErrorsOwn transfer status) : (s.laneStep a).Each .upload UploadTold := by
  intro i hk
  rw [(s.laneStep_same a i).kind] at hk
  exact uploadTold_laneStep hs halone hown hk (h i hk) hok

/-- An upload decides by what it knows. -/
theorem uploadTold_decide {s : Callers} {i : ℕ} (hs : s.Tasks none)
    (hk : (s.calls i).kind.target.1 = .upload) (hw : (s.calls i).isWaiting = true)
    (h : UploadTold s.lane (s.calls i))
    (hok : (s.calls i).heard = false → (s.calls i).error = none → s.taskQueued i = false) :
    UploadTold s.lane (s.calls i).decide := by
  obtain ⟨id, hid⟩ := Call.task?_of_isWaiting hw
  obtain ⟨slot, payload, hkind⟩ : ∃ slot payload,
      (s.calls i).kind = .uploadMacroBytecode slot payload := by
    cases hc : (s.calls i).kind with
    | uploadMacroBytecode slot payload => exact ⟨slot, payload, rfl⟩
    | _ =>
      rw [hc] at hk
      cases hk
  unfold Call.decide
  rw [hkind]
  dsimp only
  split
  · -- the time is up: the task is not in the lane
    rename_i hnone
    have hgone := not_mem_queued (hok (Bool.eq_false_iff.mpr hnone.1) hnone.2) hid
    exact h.finish hid ⟨hs.lt_nextTask hid, hgone⟩ nofun
  · rename_i hsome
    split
    · rename_i herror
      obtain ⟨id', hid', hgone⟩ := h.error (Option.isSome_iff_ne_none.mp herror)
      obtain rfl := Option.some.inj (hid.symm.trans hid')
      exact h.finish hid hgone nofun
    · rename_i herror
      have hheard : (s.calls i).heard = true := by
        by_contra hheard
        exact hsome ⟨hheard, Option.not_isSome_iff_eq_none.mp herror⟩
      obtain ⟨id', hid', hgone, hanswered⟩ := h.heard hheard
      obtain rfl := Option.some.inj (hid.symm.trans hid')
      exact h.finish hid hgone fun _ _ => hanswered

/-- Every step of a run whose uploads are apart leaves each upload knowing its task. -/
theorem uploadsTold_step {s : Callers} {a : Env × CallerEvent} (h : s.Each .upload UploadTold)
    (hs : s.Tasks none) (halone : s.Alone .upload) (ha : s.Possible a) (hok : s.UploadsApart a) :
    (s.step a).Each .upload UploadTold := by
  obtain ⟨env, e⟩ := a
  obtain ⟨hclock, ha⟩ := ha
  -- a step of the lane on `s` itself
  have hlane : ∀ e : LaneEvent, s.CreatesOwn .upload e →
      (∀ transfer status, e = .fileTransferError transfer status →
        s.UploadErrorsOwn transfer status) → (s.laneStep (env, e)).Each .upload UploadTold :=
    fun e hown => uploadsTold_laneStep (a := (env, e)) h (hs.before _) halone hown
  cases e with
  | lane e =>
    by_cases he : e = .resetTransferLane
    · subst he
      refine uploadsTold_laneStep (a := (env, .resetTransferLane)) ?_ (hs.before _).lose
        halone.lose (createsOwn_of_none rfl) (by simp)
      intro i hk
      have hk : (s.calls i).lose.kind.target.1 = .upload := hk
      rw [(s.calls i).lose_same.kind] at hk
      show UploadTold s.lane (s.calls i).lose
      rw [Call.lose_upload hk]
      exact h i hk
    · rw [step_lane_eq he]
      refine hlane e (createsOwn_outside ha) ?_
      rintro transfer status rfl
      exact hok
  | begin kind =>
    exact h.beginCall fun _ => ⟨by simp, fun herror => absurd rfl herror, by simp, by simp⟩
  | queue i =>
    obtain ⟨halone', hown⟩ := halone.enrol ha
    refine uploadsTold_laneStep (a := (env, (s.calls i).kind.queues)) (h.setCall fun hk => ?_)
      (hs.enrol ha) halone' hown fun transfer status he => ?_
    · have hnone : (s.calls i).task? = none := by rw [Call.task?, ha]
      refine ⟨fun hheard => ?_, fun herror => ?_, by simp, by simp⟩
      · obtain ⟨id, hid, -⟩ := (h i hk).heard hheard
        rw [hnone] at hid
        cases hid
      · obtain ⟨id, hid, -⟩ := (h i hk).error herror
        rw [hnone] at hid
        cases hid
    · cases hkind : (s.calls i).kind <;> rw [hkind] at he <;> cases he
  | wake i =>
    have hopen := Call.isOpen_of_isWaiting ha
    refine (h.setCall fun hk => ?_).unlock i
    rw [(Call.decide_moved _ hopen).kind] at hk
    exact uploadTold_decide hs hk ha (h i hk) (hok hk)
  | cleanUp i =>
    show (s.cleanUp env i).Each .upload UploadTold
    rcases cleanUp_eq env ha with ⟨id, slot, hphase, hkind, heq⟩ | ⟨hnot, heq⟩
    · rw [heq]
      refine (hlane (.dequeueClear id) (createsOwn_of_none rfl) (by simp)).setCall fun hk => ?_
      rw [(Call.finish_moved ..).kind, (s.laneStep_same _ i).kind, hkind] at hk
      cases hk
    · rw [heq]
      have hafter := hlane .abortTransfers (createsOwn_of_none rfl) (by simp)
      refine (hafter.setCall fun hk => ?_).unlock i
      rw [(Call.finish_moved ..).kind] at hk
      obtain ⟨id, hid⟩ := Call.task?_of_isCleaning ha
      have hmade := hs.lt_nextTask hid
      refine (hafter i hk).finish ((s.laneStep_same _ i).task?.trans hid) ?_ (by simp)
      exact ⟨hmade.trans_le (Lane.here_step hs.wf _ id).1,
        (Lane.call_takes hs.wf (a := (env, .abortTransfers)) (.inr (.inl rfl)) hmade).1⟩

/-- In a run whose uploads are apart, every upload knows its task. -/
theorem uploadsTold_reachable {s : Callers} (h : ReachableWhen UploadsApart s) :
    s.Each .upload UploadTold := by
  have key : s.Tasks none ∧ s.Alone .upload ∧ s.Each .upload UploadTold := by
    refine Library.Reach.invariant
      (P := fun s => s.Tasks none ∧ s.Alone .upload ∧ s.Each .upload UploadTold) ?_ ?_ h
    · intro s hs
      refine ⟨@tasks_reachableWhen (fun _ _ => True) s (.start hs), alone_initial hs, ?_⟩
      obtain ⟨tid, -, -, rfl⟩ := hs
      rintro i ⟨⟩
    · rintro s a - ⟨hs, halone, htold⟩ ⟨ha, hok⟩
      refine ⟨hs.step ha, halone.step hs ha ?_, uploadsTold_step htold hs halone ha hok⟩
      intro kind hkind hupload
      obtain ⟨env, e⟩ := a
      obtain rfl : e = .begin kind := hkind
      exact hok hupload
  exact key.2.2

/-- In every run whose uploads are apart, with other calls, aborts, lost sessions and messages in
any order: a call of `upload_macro_bytecode` has returned only if an FTDC answered the last
request of its own task, and the task of one that raised is neither queued nor in flight. -/
theorem upload_macro_truthful {s : Callers} (h : ReachableWhen UploadsApart s) {i : ℕ}
    {slot : Slot} {payload : UploadPayload}
    (hkind : (s.calls i).kind = .uploadMacroBytecode slot payload) :
    (∀ id data, (s.calls i).phase = .over id (.returned data) →
      Lane.AnsweredBy id .fileTransferDataComplete s.lane.log) ∧
    ∀ id r, (s.calls i).phase = .over id r → (∀ data, r ≠ .returned data) →
      id ∉ s.lane.queued ∧ s.lane.transfer ≠ some id := by
  have hk : (s.calls i).kind.target.1 = .upload := by rw [hkind]; rfl
  have htold := uploadsTold_reachable h i hk
  refine ⟨htold.returned, fun id r hphase _ => ?_⟩
  have hgone := htold.ended id r hphase
  exact ⟨hgone.2, hgone.not_inFlight (Lane.wf_reachableWhen (tasks_reachableWhen h).lane)⟩

instance UploadErrorsOwn.decidable (s : Callers) (transfer status : ℕ) :
    Decidable (s.UploadErrorsOwn transfer status) :=
  inferInstanceAs (Decidable (∀ id ∈ s.lane.rejected transfer status, ∀ i < s.nextCall,
    (s.calls i).kind.target.1 = .upload → (s.calls i).isOpen = true →
    ((s.calls i).task? = none ∨ s.taskQueued i = true) → (s.calls i).task? = some id))

instance UploadsApart.decidable (s : Callers) (a : Env × CallerEvent) :
    Decidable (s.UploadsApart a) :=
  match a with
  | (_, .begin kind) =>
    inferInstanceAs (Decidable (kind.target.1 = .upload → s.FreeFor kind.target))
  | (_, .lane (.fileTransferError transfer status)) =>
    inferInstanceAs (Decidable (s.UploadErrorsOwn transfer status))
  | (_, .wake i) =>
    inferInstanceAs (Decidable ((s.calls i).kind.target.1 = .upload → (s.calls i).heard = false →
      (s.calls i).error = none → s.taskQueued i = false))
  | (_, .lane (.lockObtained _)) | (_, .lane (.lockState _ _)) | (_, .lane .fireWake)
  | (_, .lane (.fileTransferContinueData _ _ _)) | (_, .lane (.fileTransferData _ _))
  | (_, .lane (.fileTransferDataComplete _)) | (_, .lane .abortTransfers)
  | (_, .lane (.download _ _)) | (_, .lane (.upload _ _ _)) | (_, .lane (.queueClear _ _))
  | (_, .lane (.dequeueClear _)) | (_, .lane .poke) | (_, .lane .wakeup)
  | (_, .lane .queueFlushed) | (_, .lane .resetTransferLane) | (_, .lane .releaseLocksNow)
  | (_, .queue _) | (_, .cleanUp _) =>
    inferInstanceAs (Decidable True)

/-- The bytes of a macro, small enough for one chunk. -/
def macroBytes : UploadPayload where
  data := [8, 0, 4, 0, 0, 0, 1, 0]
  dataLength := 8
  hash := [210, 8, 113, 178, 88, 206, 99, 228, 185, 229, 179, 103, 157, 45, 73, 112]
  name := some [75, 101, 121]
  description := some []

/-- An upload that completes, and one that the switcher rejects. -/
def uploadedAndRejected : List (Env × CallerEvent) :=
  [(⟨0, none⟩, .begin (.uploadMacroBytecode 1 macroBytes)), (⟨0, none⟩, .queue 0),
   (⟨milliseconds 5, none⟩, .lane (.fileTransferContinueData 43 1396 1)),
   (⟨milliseconds 6, none⟩, .lane .queueFlushed),
   (⟨milliseconds 9, none⟩, .lane (.fileTransferDataComplete 43)),
   (⟨milliseconds 9, none⟩, .wake 0),
   (⟨milliseconds 10, none⟩, .begin (.uploadMacroBytecode 1 macroBytes)),
   (⟨milliseconds 10, none⟩, .queue 1),
   (⟨milliseconds 15, none⟩, .lane (.fileTransferError 44 2)), (⟨milliseconds 15, none⟩, .wake 1)]

theorem upload_macro_truthful_both :
    Lane.AnsweredBy 0 .fileTransferDataComplete
      (Library.run step (fresh 42) uploadedAndRejected).lane.log ∧
    1 ∉ (Library.run step (fresh 42) uploadedAndRejected).lane.queued ∧
      (Library.run step (fresh 42) uploadedAndRejected).lane.transfer ≠ some 1 := by
  have h : ReachableWhen UploadsApart (Library.run step (fresh 42) uploadedAndRejected) :=
    Library.Reach.run (.start ⟨42, by decide, by decide, rfl⟩) _ (by decide)
  exact ⟨(@upload_macro_truthful _ h 0 1 macroBytes (by decide)).1 0 none (by decide),
    (@upload_macro_truthful _ h 1 1 macroBytes (by decide)).2 1 .rejected (by decide) nofun⟩

/-- An upload whose FTDC is late. -/
def uploadLate : List (Env × CallerEvent) :=
  [(⟨0, none⟩, .begin (.uploadMacroBytecode 1 macroBytes)), (⟨0, none⟩, .queue 0),
   (⟨milliseconds 5, none⟩, .lane (.fileTransferContinueData 43 1396 1)),
   (⟨milliseconds 6, none⟩, .lane .queueFlushed), (⟨milliseconds 10000, none⟩, .wake 0)]

/-- The upload raises `TimeoutError`, and its transfer is still in flight. -/
theorem timed_out_upload_stays :
    ¬ ∀ s, Reachable s → ∀ i slot payload,
      (s.calls i).kind = .uploadMacroBytecode slot payload →
      (∀ id data, (s.calls i).phase = .over id (.returned data) →
        Lane.AnsweredBy id .fileTransferDataComplete s.lane.log) ∧
      ∀ id r, (s.calls i).phase = .over id r → (∀ data, r ≠ .returned data) →
        id ∉ s.lane.queued ∧ s.lane.transfer ≠ some id := by
  intro h
  have hreach : Reachable (Library.run step (fresh 42) uploadLate) :=
    Library.Reach.run (.start ⟨42, by decide, by decide, rfl⟩) _ (by decide)
  have hgone := (h _ hreach 0 1 macroBytes (by decide)).2 0 .timedOut (by decide) nofun
  exact hgone.2 (by decide)

end Callers

end Bmdwire
