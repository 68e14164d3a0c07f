import Bmdwire.Analysis.CallerTasks

/-!
# What `_download_transfer` reports

Downloads take turns, so an event that names the target of an open download is of its own task
(`Owned.freeFor`). An FTDE names no target: a download takes any for its own. It reports
truthfully as long as no other transfer fails while it waits, and the session is not lost
between its subscription and its request (`DownloadsApart`): then it returns the data of its
own completed transfer, is rejected only by an FTDE of its own, and leaves no task behind
(`download_truthful`).
-/

set_option autoImplicit false

namespace Bmdwire

/-- A completion that answers the task's request came since the call began, and raised the
download of the target with the data. -/
def Downloaded (log : List Act) (c : Call) (id : TaskId) (data : Bytes) : Prop :=
  ∃ new, log = new ++ c.began ∧ Lane.AnsweredBy id .fileTransferDataComplete new ∧
    .notice (.downloadDone id c.kind.target.2.1 c.kind.target.2.2 data) ∈ new

/-- An FTDE answers the task's request. -/
def Rejected (log : List Act) (id : TaskId) : Prop :=
  ∃ status, Lane.AnsweredBy id (fun transfer => .fileTransferError transfer status) log

/-- What the state of a `_download_transfer` call says of its task. The lane is about to handle
`event`, of whose session loss the call may know already. -/
structure DownloadTold (event : Option LaneEvent) (lane : Lane) (c : Call) : Prop where
  listening : c.phase = .listening → c.data = none ∧ c.error = none ∧ c.lost = false
  data : ∀ data, c.data = some data →
    ∃ id, c.task? = some id ∧ lane.Gone id ∧ Downloaded lane.log c id data
  error : c.error ≠ none → c.isWaiting = true → c.data ≠ none ∨ c.lost = true ∨
    ∃ id, c.task? = some id ∧ lane.Gone id ∧ Rejected lane.log id
  lost : c.lost = true → c.isWaiting = true → ∃ id, c.task? = some id ∧
    (lane.Gone id ∨ event = some .resetTransferLane)
  ended : ∀ id r, c.phase = .over id r → lane.Gone id
  returned : ∀ id result, c.phase = .over id (.returned result) →
    ∃ data, result = some data ∧ Downloaded lane.log c id data
  rejected : ∀ id, c.phase = .over id .rejected → Rejected lane.log id

theorem Downloaded.append {log : List Act} {c : Call} {id : TaskId} {data : Bytes}
    (h : Downloaded log c id data) (new : List Act) : Downloaded (new ++ log) c id data := by
  obtain ⟨old, rfl, hanswered, hnotice⟩ := h
  exact ⟨new ++ old, (List.append_assoc ..).symm, hanswered.append new,
    List.mem_append_right _ hnotice⟩

theorem Rejected.append {log : List Act} {id : TaskId} (h : Rejected log id) (new : List Act) :
    Rejected (new ++ log) id := by
  obtain ⟨status, hanswered⟩ := h
  exact ⟨status, hanswered.append new⟩

/-- An answer to a request made since a point of the log is an answer since then. -/
theorem Lane.AnsweredBy.since {id : TaskId} {message : ℕ → LaneEvent} {now : Time}
    {transfer : ℕ} {post past began : List Act}
    (hbegan : ∀ r, lastRequest began = some r → r.1 ≠ id)
    (hlast : lastRequest (past ++ began) = some (id, transfer)) :
    Lane.AnsweredBy id message (post ++ .recv now (message transfer) :: past) := by
  refine ⟨post, now, transfer, past, rfl, ?_⟩
  rw [lastRequest, List.findSome?_append] at hlast
  cases hpast : past.findSome? Act.request? with
  | some r =>
    rw [hpast] at hlast
    exact hpast.trans hlast
  | none =>
    rw [hpast] at hlast
    exact absurd rfl (hbegan _ hlast)

namespace Callers

/-- Every download that is queued was queued by a call. -/
def Owned (s : Callers) : Prop :=
  ∀ id ∈ s.lane.queued, (s.lane.tasks id).target.1 = .download →
    ∃ i, (s.calls i).kind.target.1 = .download ∧ (s.calls i).task? = some id

/-- An FTDE ends no other transfer while a download still waits for its outcome. -/
def DownloadErrorsOwn (s : Callers) (transfer status : ℕ) : Prop :=
  ∀ id ∈ s.lane.rejected transfer status, ∀ i < s.nextCall,
    (s.calls i).kind.target.1 = .download → (s.calls i).isOpen = true →
    (s.calls i).isCleaning = false → (s.calls i).data = none → (s.calls i).error = none →
    (s.calls i).lost = false → (s.calls i).task? = some id

/-- No download has subscribed and not yet queued its task. -/
def NoDownloadListening (s : Callers) : Prop :=
  ∀ i < s.nextCall, (s.calls i).kind.target.1 = .download → (s.calls i).phase ≠ .listening

/-- No other transfer fails while a download waits for its outcome, and the session is not lost
between a download's subscription and its request. -/
def DownloadsApart (s : Callers) (a : Env × CallerEvent) : Prop :=
  match a.2 with
  | .lane (.fileTransferError transfer status) => s.DownloadErrorsOwn transfer status
  | .lane .resetTransferLane => s.NoDownloadListening
  | _ => True

/-- A step of the lane keeps what a download knows, if it ends no other transfer meanwhile. -/
theorem downloadTold_laneStep {s : Callers} {a : Env × LaneEvent} {i : ℕ}
    (hs : s.Tasks (some a.2)) (halone : s.Alone .download) (hown : s.CreatesOwn .download a.2)
    (hk : (s.calls i).kind.target.1 = .download)
    (h : DownloadTold (some a.2) s.lane (s.calls i))
    (hok : ∀ transfer status, a.2 = .fileTransferError transfer status →
      s.DownloadErrorsOwn transfer status) :
    DownloadTold none (s.lane.step a) ((s.laneStep a).calls i) := by
  have hsame := s.laneStep_same a i
  have hlost : ((s.laneStep a).calls i).lost = (s.calls i).lost := Call.hears_lost ..
  have hwf := hs.wf
  have horderly := Lane.orderly_reachable hs.lane
  obtain ⟨-, -, new, hlog, -, htells⟩ := Lane.step_tells hwf a
  have hlog' : (s.lane.step a).log = (new ++ [.recv a.1.now a.2]) ++ s.lane.log := by simp [hlog]
  have hmem : ∀ {n}, .notice n ∈ new ++ [.recv a.1.now a.2] → .notice n ∈ new := by
    intro n hn
    rcases List.mem_append.mp hn with hn | hn
    · exact hn
    · cases List.mem_singleton.mp hn
  have hgone : ∀ {n id}, .notice n ∈ new ++ [.recv a.1.now a.2] → (n.outcome? id).isSome →
      (s.lane.step a).Gone id := fun hn hid =>
    have hleaves := Lane.said_leaves hwf hlog' hn hid
    ⟨hleaves.2.1, hleaves.1⟩
  have hdownloaded : ∀ {id data}, Downloaded s.lane.log (s.calls i) id data →
      Downloaded (s.lane.step a).log ((s.laneStep a).calls i) id data := by
    intro id data hold
    rw [Downloaded, hsame.kind, hsame.began, hlog']
    exact hold.append _
  have hrejected : ∀ {id}, Rejected s.lane.log id → Rejected (s.lane.step a).log id := by
    intro id hold
    rw [hlog']
    exact hold.append _
  -- what the call hears is of its own task
  have hheard : ∀ data, ((s.laneStep a).calls i).data = some data →
      ∃ id, (s.calls i).task? = some id ∧ (s.lane.step a).Gone id ∧
        Downloaded (s.lane.step a).log ((s.laneStep a).calls i) id data := by
    intro data hdata
    rcases Call.hears_data hdata with hold | ⟨hopen, id, store, index, hkind, hn⟩
    · obtain ⟨id, hid, hold, hdone⟩ := h.data data hold
      exact ⟨id, hid, hold.step hwf a, hdownloaded hdone⟩
    · have hn := (Lane.mem_raised hlog').mp hn
      have htarget : (s.calls i).kind.target = (.download, store, index) := by rw [hkind]; rfl
      have hid : (s.calls i).task? = some id :=
        halone.told hs hown hk hopen hlog' hn (by rw [htarget]; rfl)
      refine ⟨id, hid, hgone hn (by simp [Notice.outcome?]), ?_⟩
      have hsaid := htells _ (hmem hn)
      cases hsaid with
      | progress hbulk => cases hbulk
      | downloaded he ha _ =>
        obtain ⟨old, hold⟩ := (hs.tasked i).began
        have hlast := horderly.lastTask id ha.inFlight
        have htid := (hwf.inFlight id ha.inFlight).2.2
        rw [Option.some.inj (htid.symm.trans ha.tid), hold] at hlast
        refine ⟨new ++ .recv a.1.now a.2 :: old, ?_, ?_, ?_⟩
        · rw [hsame.began, hlog, hold, List.append_assoc]
          rfl
        · rw [he]
          refine Lane.AnsweredBy.since (fun r hr => ?_) hlast
          have hlt := (hs.tasked i).earlier r hr
          rw [hid] at hlt
          exact hlt.ne
        · rw [hsame.kind, htarget]
          exact List.mem_append_left _ (hmem hn)
  constructor
  case listening =>
    intro hphase
    rw [hsame.phase] at hphase
    have hopen : (s.calls i).isOpen = true := by rw [Call.isOpen, hphase]
    have hnone : (s.calls i).task? = none := by rw [Call.task?, hphase]
    obtain ⟨hdata, herror, hl⟩ := h.listening hphase
    refine ⟨?_, ?_, hlost.trans hl⟩
    · by_contra hsome
      obtain ⟨data, hdata⟩ := Option.ne_none_iff_exists'.mp hsome
      obtain ⟨id, hid, -⟩ := hheard data hdata
      rw [hnone] at hid
      cases hid
    · by_contra hsome
      obtain ⟨e, he⟩ := Option.ne_none_iff_exists'.mp hsome
      rcases Call.hears_error he with hold | ⟨-, -, id, hn⟩
      · rw [herror] at hold
        cases hold
      · have hn := hmem ((Lane.mem_raised hlog').mp hn)
        have hsaid := htells _ hn
        cases hsaid with
        | progress hbulk => cases hbulk
        | failed hevent ha hfatal =>
          have hid := hok _ _ hevent id (Lane.rejected_eq ha hfatal) i (hs.lt_nextCall hopen) hk
            hopen (by rw [Call.isCleaning, hphase]) hdata herror hl
          rw [hnone] at hid
          cases hid
  case data =>
    intro data hdata
    rw [hsame.task?]
    exact hheard data hdata
  case error =>
    intro herror hwaiting
    have hwaiting : (s.calls i).isWaiting = true := by
      rw [Call.isWaiting, hsame.phase] at hwaiting
      exact hwaiting
    rw [hlost, hsame.task?]
    by_cases hnone : ((s.laneStep a).calls i).data = none
    swap
    · exact .inl hnone
    right
    have hdata : (s.calls i).data = none := by
      by_contra hsome
      exact Call.hears_data_ne_none hsome hnone
    obtain ⟨e, he⟩ := Option.ne_none_iff_exists'.mp herror
    by_cases hold : (s.calls i).error = none
    · rcases Call.hears_error he with hsome | ⟨hopen, -, id, hn⟩
      · rw [hold] at hsome
        cases hsome
      · by_cases hl : (s.calls i).lost = true
        · exact .inl hl
        · right
          have hn := (Lane.mem_raised hlog').mp hn
          have hsaid := htells _ (hmem hn)
          cases hsaid with
          | progress hbulk => cases hbulk
          | failed hevent ha hfatal =>
            have hid := hok _ _ hevent id (Lane.rejected_eq ha hfatal) i (hs.lt_nextCall hopen) hk
              hopen (Call.not_isCleaning_of_isWaiting hwaiting) hdata hold
              (Bool.eq_false_iff.mpr hl)
            refine ⟨id, hid, hgone hn (by simp [Notice.outcome?]), e.2, ?_⟩
            exact @Lane.answeredBy_step _ hwf horderly _
              (fun transfer => .fileTransferError transfer e.2) _ _ hevent ha
    · rcases h.error hold hwaiting with hsome | hl | ⟨id, hid, hgone, hrej⟩
      · exact absurd hdata hsome
      · exact .inl hl
      · exact .inr ⟨id, hid, hgone.step hwf a, hrejected hrej⟩
  case lost =>
    intro hl hwaiting
    rw [hlost] at hl
    rw [Call.isWaiting, hsame.phase] at hwaiting
    rw [hsame.task?]
    obtain ⟨id, hid, hgone | hreset⟩ := h.lost hl hwaiting
    · exact ⟨id, hid, .inl (hgone.step hwf a)⟩
    · have hreset := Option.some.inj hreset
      have hmade : id < s.lane.nextTask := by
        rcases (hs.tasked i).made id hid with ⟨hlt, -⟩ | ⟨e, task, he, htask, -⟩
        · exact hlt
        · obtain rfl := Option.some.inj he
          rw [hreset] at htask
          cases htask
      exact ⟨id, hid, .inl ⟨hmade.trans_le (Lane.here_step hwf a id).1,
        (Lane.call_takes hwf (.inr (.inr hreset)) hmade).1⟩⟩
  case ended =>
    intro id r hphase
    rw [hsame.phase] at hphase
    exact (h.ended id r hphase).step hwf a
  case returned =>
    intro id result hphase
    rw [hsame.phase] at hphase
    obtain ⟨data, heq, hdone⟩ := h.returned id result hphase
    exact ⟨data, heq, hdownloaded hdone⟩
  case rejected =>
    intro id hphase
    rw [hsame.phase] at hphase
    exact hrejected (h.rejected id hphase)

/-- `downloadTold_laneStep` for every download. -/
theorem downloadsTold_laneStep {s : Callers} {a : Env × LaneEvent}
    (h : s.Each .download (DownloadTold (some a.2))) (hs : s.Tasks (some a.2))
    (halone : s.Alone .download) (hown : s.CreatesOwn .download a.2)
    (hok : ∀ transfer status, a.2 = .fileTransferError transfer status →
      s.DownloadErrorsOwn transfer status) :
    (s.laneStep a).Each .download (DownloadTold none) := by
  intro i hk
  rw [(s.laneStep_same a i).kind] at hk
  exact downloadTold_laneStep hs halone hown hk (h i hk) hok

end Callers

/-- What a call knows in a plain state, it knows before any event. -/
theorem DownloadTold.before {lane : Lane} {c : Call} (h : DownloadTold none lane c)
    (event : Option LaneEvent) : DownloadTold event lane c where
  listening := h.listening
  data := h.data
  error := h.error
  lost hl hwaiting := by
    obtain ⟨id, hid, hgone | hnone⟩ := h.lost hl hwaiting
    · exact ⟨id, hid, .inl hgone⟩
    · cases hnone
  ended := h.ended
  returned := h.returned
  rejected := h.rejected

/-- 'disconnected' reaches a download that waits, just before the lane is reset. -/
theorem DownloadTold.lose {lane : Lane} {c : Call} (h : DownloadTold none lane c)
    (hphase : c.phase ≠ .listening) : DownloadTold (some .resetTransferLane) lane c.lose := by
  have hsame := c.lose_same
  have hnotes : c.lose.data = c.data ∧ c.lose.error = c.error := by
    unfold Call.lose
    split
    · exact ⟨rfl, rfl⟩
    · split <;> exact ⟨rfl, rfl⟩
  have hdownloaded : ∀ {id data}, Downloaded lane.log c id data →
      Downloaded lane.log c.lose id data := by
    intro id data hold
    rw [Downloaded, hsame.kind, hsame.began]
    exact hold
  constructor
  case listening => exact fun hl => absurd (hsame.phase.symm.trans hl) hphase
  case data =>
    intro data hdata
    rw [hsame.task?]
    obtain ⟨id, hid, hgone, hdone⟩ := h.data data (hnotes.1.symm.trans hdata)
    exact ⟨id, hid, hgone, hdownloaded hdone⟩
  case error =>
    intro herror hwaiting
    rw [Call.isWaiting, hsame.phase] at hwaiting
    rw [hnotes.2] at herror
    rw [hnotes.1, hsame.task?]
    rcases h.error herror hwaiting with hdata | hl | hown
    · exact .inl hdata
    · right; left
      unfold Call.lose
      split
      · exact hl
      · split
        · rfl
        · exact hl
    · exact .inr (.inr hown)
  case lost =>
    intro _ hwaiting
    rw [Call.isWaiting, hsame.phase] at hwaiting
    rw [hsame.task?]
    obtain ⟨id, hid⟩ := Call.task?_of_isWaiting hwaiting
    exact ⟨id, hid, .inr rfl⟩
  case ended =>
    rw [hsame.phase]
    exact h.ended
  case returned =>
    rw [hsame.phase]
    intro id result hphase
    obtain ⟨data, heq, hdone⟩ := h.returned id result hphase
    exact ⟨data, heq, hdownloaded hdone⟩
  case rejected =>
    rw [hsame.phase]
    exact h.rejected

/-- A download that ends with its task gone keeps what it knows, if its end is deserved. -/
theorem DownloadTold.finish {lane : Lane} {c : Call} {id : TaskId} {r : CallResult}
    (h : DownloadTold none lane c) (hid : c.task? = some id) (hgone : lane.Gone id)
    (hreturned : ∀ result, r = .returned result →
      ∃ data, result = some data ∧ Downloaded lane.log c id data)
    (hrejected : r = .rejected → Rejected lane.log id) :
    DownloadTold none lane (c.finish r) := by
  have hfinish : c.finish r = { c with phase := .over id r } := by rw [Call.finish, hid]
  rw [hfinish]
  constructor
  case listening => nofun
  case data =>
    intro data hdata
    obtain ⟨id', hid', hdone⟩ := h.data data hdata
    obtain rfl := Option.some.inj (hid.symm.trans hid')
    exact ⟨id, rfl, hdone⟩
  case error => nofun
  case lost => nofun
  case ended =>
    intro id' r' hphase
    cases hphase
    exact hgone
  case returned =>
    intro id' result hphase
    cases hphase
    exact hreturned result rfl
  case rejected =>
    intro id' hphase
    cases hphase
    exact hrejected rfl

/-- A download decides by what it knows. -/
theorem DownloadTold.decide {lane : Lane} {c : Call} (h : DownloadTold none lane c)
    (hk : c.kind.target.1 = .download) (hw : c.isWaiting = true) :
    DownloadTold none lane c.decide := by
  obtain ⟨id, hid⟩ := Call.task?_of_isWaiting hw
  obtain ⟨store, index, hkind⟩ : ∃ store index, c.kind = .downloadTransfer store index := by
    cases hc : c.kind with
    | downloadTransfer store index => exact ⟨store, index, rfl⟩
    | _ =>
      rw [hc] at hk
      cases hk
  unfold Call.decide
  rw [hkind]
  dsimp only
  split
  · rename_i data hdata
    obtain ⟨id', hid', hgone, hdone⟩ := h.data data hdata
    obtain rfl := Option.some.inj (hid.symm.trans hid')
    refine h.finish hid hgone (fun result hr => ?_) nofun
    cases hr
    exact ⟨data, rfl, hdone⟩
  · rename_i hdata
    split
    · rename_i hl
      obtain ⟨id', hid', hgone | hnone⟩ := h.lost hl hw
      · obtain rfl := Option.some.inj (hid.symm.trans hid')
        exact h.finish hid hgone nofun nofun
      · cases hnone
    · rename_i hl
      split
      · rename_i herror
        rcases h.error (Option.isSome_iff_ne_none.mp herror) hw with hsome | hl' | hown
        · exact absurd hdata hsome
        · exact absurd hl' hl
        · obtain ⟨id', hid', hgone, hrejected⟩ := hown
          obtain rfl := Option.some.inj (hid.symm.trans hid')
          exact h.finish hid hgone nofun fun _ => hrejected
      · rw [Call.goOn, hid]
        refine ⟨nofun, fun data hsome => ?_, nofun, nofun, nofun, nofun, nofun⟩
        rw [show c.data = some data from hsome] at hdata
        cases hdata

namespace Callers

/-! ## Whose downloads are queued -/

/-- A step of the lane that queues no download but a call's. -/
theorem Owned.laneStep {s : Callers} {a : Env × LaneEvent} (h : s.Owned)
    (hs : s.Tasks (some a.2))
    (hnew : ∀ task, Lane.newTask a.2 = some task → task.target.1 = .download →
      ∃ i, (s.calls i).kind.target.1 = .download ∧ (s.calls i).task? = some s.lane.nextTask) :
    (s.laneStep a).Owned := by
  intro id hq hk
  obtain ⟨hold, hmade, -⟩ := Lane.step_tells hs.wf a
  have howner : ∃ i, (s.calls i).kind.target.1 = .download ∧ (s.calls i).task? = some id := by
    have hk : ((s.lane.step a).tasks id).target.1 = .download := hk
    rcases Lane.queued_step hs.wf hq with hq | ⟨hsome, rfl⟩
    · rw [hold id (Lane.lt_nextTask_of_queued hs.wf hq)] at hk
      exact h id hq hk
    · obtain ⟨task, htask⟩ := Option.isSome_iff_exists.mp hsome
      rw [hmade task htask] at hk
      exact hnew task htask hk
  obtain ⟨i, hkind, hid⟩ := howner
  refine ⟨i, ?_, (s.laneStep_same a i).task?.trans hid⟩
  rw [(s.laneStep_same a i).kind]
  exact hkind

/-- A step of the lane that queues nothing. -/
theorem Owned.laneStep_of_none {s : Callers} {a : Env × LaneEvent} (h : s.Owned)
    (hs : s.Tasks (some a.2)) (he : Lane.newTask a.2 = none) : (s.laneStep a).Owned := by
  refine h.laneStep hs fun task htask => ?_
  rw [he] at htask
  cases htask

/-- Calls that keep their kind and task keep what they own. -/
theorem Owned.of_calls {s t : Callers} (h : s.Owned) (hlane : t.lane = s.lane)
    (hcalls : ∀ i id, (s.calls i).task? = some id →
      (t.calls i).kind = (s.calls i).kind ∧ (t.calls i).task? = some id) : t.Owned := by
  intro id hq hk
  rw [hlane] at hq hk
  obtain ⟨i, hkind, hid⟩ := h id hq hk
  obtain ⟨hsame, htask⟩ := hcalls i id hid
  exact ⟨i, by rw [hsame]; exact hkind, htask⟩

theorem Owned.moved {s : Callers} (h : s.Owned) {i : ℕ} {c : Call} (hc : (s.calls i).Moved c) :
    (s.setCall i c).Owned := by
  refine h.of_calls rfl fun j id hid => ?_
  rw [setCall_calls]
  split
  · rename_i hj
    rw [hj] at hid ⊢
    exact ⟨hc.kind, hc.task?.trans hid⟩
  · exact ⟨rfl, hid⟩

theorem Owned.unlock {s : Callers} (h : s.Owned) (i : ℕ) : (s.unlock i).Owned :=
  h.of_calls (unlock_lane ..) fun j id hid => by
    rw [unlock_calls]
    exact ⟨rfl, hid⟩

/-- Every step queues downloads for their calls only. -/
theorem Owned.step {s : Callers} {a : Env × CallerEvent} (h : s.Owned) (hs : s.Tasks none)
    (ha : s.Possible a) : (s.step a).Owned := by
  obtain ⟨env, e⟩ := a
  obtain ⟨hclock, ha⟩ := ha
  cases e with
  | lane e =>
    by_cases he : e = .resetTransferLane
    · subst he
      refine Owned.laneStep_of_none (a := (env, .resetTransferLane)) ?_ (hs.before _).lose rfl
      refine h.of_calls rfl fun i id hid => ?_
      exact ⟨(s.calls i).lose_same.kind, (s.calls i).lose_same.task?.trans hid⟩
    · rw [step_lane_eq he]
      refine h.laneStep (hs.before _) fun task htask hk => ?_
      exfalso
      cases e with
      | upload => cases Option.some.inj htask; cases hk
      | download | queueClear => cases ha
      | _ => cases htask
  | begin kind =>
    refine h.of_calls rfl fun i id hid => ?_
    have hi : i ≠ s.nextCall := by
      rintro rfl
      rw [hs.unmade _ le_rfl] at hid
      cases hid
    show (Function.update s.calls s.nextCall _ i).kind = _ ∧
      (Function.update s.calls s.nextCall _ i).task? = some id
    rw [Function.update_of_ne hi]
    exact ⟨rfl, hid⟩
  | queue i =>
    refine Owned.laneStep (a := (env, (s.calls i).kind.queues)) ?_ (hs.enrol ha)
      fun task htask hk => ⟨i, ?_, ?_⟩
    · refine h.of_calls rfl fun j id hid => ?_
      rw [setCall_calls]
      split
      · rename_i hj
        rw [hj, Call.task?, ha] at hid
        cases hid
      · exact ⟨rfl, hid⟩
    · obtain ⟨task', htask', htarget⟩ := queues_newTask (s.calls i).kind
      obtain rfl : task = task' := Option.some.inj (htask.symm.trans htask')
      rw [htarget] at hk
      rw [setCall_calls, if_pos rfl]
      exact hk
    · rw [setCall_calls, if_pos rfl]
      rfl
  | wake i => exact (h.moved (Call.decide_moved _ (Call.isOpen_of_isWaiting ha))).unlock i
  | cleanUp i =>
    show (s.cleanUp env i).Owned
    rcases cleanUp_eq env ha with ⟨id, slot, -, -, heq⟩ | ⟨-, heq⟩
    · rw [heq]
      exact (h.laneStep_of_none (a := (env, .dequeueClear id)) (hs.before _) rfl).moved
        (Call.finish_moved ..)
    · rw [heq]
      exact ((h.laneStep_of_none (a := (env, .abortTransfers)) (hs.before _) rfl).moved
        (Call.finish_moved ..)).unlock i

/-- When nobody holds the serial lock, nobody moves what a download would. -/
theorem Owned.freeFor {s : Callers} (h : s.Owned) (hs : s.Tasks none)
    (htold : s.Each .download (DownloadTold none)) (hserial : s.serial = none)
    {target : TransferKind × Store × Slot} (hk : target.1 = .download) : s.FreeFor target := by
  have hover : ∀ i, (s.calls i).kind.target.1 = .download → (s.calls i).isOpen = false := by
    intro i hkind
    by_contra hopen
    have hheld := hs.serial i hkind (Bool.not_eq_false _ ▸ hopen)
    rw [hserial] at hheld
    cases hheld
  constructor
  · rintro i - hopen rfl
    rw [hover i hk] at hopen
    cases hopen
  · rintro id hq rfl
    obtain ⟨i, hkind, hid⟩ := h id hq hk
    have hclosed := hover i hkind
    unfold Call.task? at hid
    unfold Call.isOpen at hclosed
    split at hid
    · rename_i hphase
      rw [hphase] at hclosed
      cases hclosed
    · rename_i hphase
      rw [hphase] at hclosed
      cases hclosed
    · rename_i hphase
      cases hid
      exact ((htold i hkind).ended _ _ hphase).2 hq
    · cases hid

/-! ## Runs -/

/-- Every step of a run whose downloads are apart leaves each download knowing its task. -/
theorem downloadsTold_step {s : Callers} {a : Env × CallerEvent}
    (h : s.Each .download (DownloadTold none)) (hs : s.Tasks none) (halone : s.Alone .download)
    (ha : s.Possible a) (hok : s.DownloadsApart a) :
    (s.step a).Each .download (DownloadTold none) := by
  obtain ⟨env, e⟩ := a
  obtain ⟨hclock, ha⟩ := ha
  -- a step of the lane on `s` itself
  have hlane : ∀ e : LaneEvent, s.CreatesOwn .download e →
      (∀ transfer status, e = .fileTransferError transfer status →
        s.DownloadErrorsOwn transfer status) →
      (s.laneStep (env, e)).Each .download (DownloadTold none) :=
    fun e hown => downloadsTold_laneStep (a := (env, e)) (fun i hk => (h i hk).before _)
      (hs.before _) halone hown
  cases e with
  | lane e =>
    by_cases he : e = .resetTransferLane
    · subst he
      refine downloadsTold_laneStep (a := (env, .resetTransferLane)) ?_ (hs.before _).lose
        halone.lose (createsOwn_of_none rfl) (by simp)
      intro i hk
      have hk : (s.calls i).lose.kind.target.1 = .download := hk
      rw [(s.calls i).lose_same.kind] at hk
      refine (h i hk).lose fun hphase => ?_
      have hopen : (s.calls i).isOpen = true := by rw [Call.isOpen, hphase]
      exact hok i (hs.lt_nextCall hopen) hk hphase
    · rw [step_lane_eq he]
      refine hlane e (createsOwn_outside ha) ?_
      rintro transfer status rfl
      exact hok
  | begin kind =>
    exact h.beginCall fun _ => ⟨fun _ => ⟨rfl, rfl, rfl⟩, by simp, fun herror => absurd rfl herror,
      (by simp), by simp, by simp, by simp⟩
  | queue i =>
    obtain ⟨halone', hown⟩ := halone.enrol ha
    refine downloadsTold_laneStep (a := (env, (s.calls i).kind.queues)) ?_ (hs.enrol ha) halone'
      hown fun transfer status he => ?_
    · refine Each.setCall (fun j hk => (h j hk).before _) fun hk => ?_
      -- nothing was heard before the task was queued
      obtain ⟨hdata, herror, hlost⟩ := (h i hk).listening ha
      refine ⟨by simp, fun data hd => ?_, fun he => absurd herror he, fun hl => ?_, by simp, by simp,
        by simp⟩
      · rw [show (s.calls i).data = some data from hd] at hdata
        cases hdata
      · rw [show (s.calls i).lost = true from hl] at hlost
        cases hlost
    · cases hkind : (s.calls i).kind <;> rw [hkind] at he <;> cases he
  | wake i =>
    refine (h.setCall fun hk => ?_).unlock i
    rw [(Call.decide_moved _ (Call.isOpen_of_isWaiting ha)).kind] at hk
    exact (h i hk).decide hk ha
  | cleanUp i =>
    show (s.cleanUp env i).Each .download (DownloadTold none)
    rcases cleanUp_eq env ha with ⟨id, slot, hphase, hkind, heq⟩ | ⟨hnot, heq⟩
    · rw [heq]
      refine (hlane (.dequeueClear id) (createsOwn_of_none rfl) (by simp)).setCall fun hk => ?_
      rw [(Call.finish_moved ..).kind, (s.laneStep_same _ i).kind, hkind] at hk
      cases hk
    · rw [heq]
      have hafter := hlane .abortTransfers (createsOwn_of_none rfl) (by simp)
      refine (hafter.setCall fun hk => ?_).unlock i
      rw [(Call.finish_moved ..).kind] at hk
      obtain ⟨id, hid⟩ := Call.task?_of_isCleaning ha
      have hmade := hs.lt_nextTask hid
      refine (hafter i hk).finish ((s.laneStep_same _ i).task?.trans hid) ?_ (by simp) (by simp)
      exact ⟨hmade.trans_le (Lane.here_step hs.wf _ id).1,
        (Lane.call_takes hs.wf (a := (env, .abortTransfers)) (.inr (.inl rfl)) hmade).1⟩

/-- In a run whose downloads are apart, every download knows its task. -/
theorem downloadsTold_reachable {s : Callers} (h : ReachableWhen DownloadsApart s) :
    s.Each .download (DownloadTold none) := by
  have key : s.Tasks none ∧ s.Owned ∧ s.Alone .download ∧
      s.Each .download (DownloadTold none) := by
    refine Library.Reach.invariant (P := fun s => s.Tasks none ∧ s.Owned ∧ s.Alone .download ∧
      s.Each .download (DownloadTold none)) ?_ ?_ h
    · intro s hs
      refine ⟨@tasks_reachableWhen (fun _ _ => True) s (.start hs), ?_, alone_initial hs, ?_⟩
      · obtain ⟨tid, -, -, rfl⟩ := hs
        intro id hq
        cases hq
      · obtain ⟨tid, -, -, rfl⟩ := hs
        rintro i ⟨⟩
    · rintro s a - ⟨hs, howned, halone, htold⟩ ⟨ha, hok⟩
      refine ⟨hs.step ha, howned.step hs ha, halone.step hs ha ?_,
        downloadsTold_step htold hs halone ha hok⟩
      intro kind hkind hdownload
      obtain ⟨env, e⟩ := a
      obtain rfl : e = .begin kind := hkind
      exact howned.freeFor hs htold (ha.2 hdownload) hdownload
  exact key.2.2.2

instance DownloadErrorsOwn.decidable (s : Callers) (transfer status : ℕ) :
    Decidable (s.DownloadErrorsOwn transfer status) :=
  inferInstanceAs (Decidable (∀ id ∈ s.lane.rejected transfer status, ∀ i < s.nextCall,
    (s.calls i).kind.target.1 = .download → (s.calls i).isOpen = true →
    (s.calls i).isCleaning = false → (s.calls i).data = none → (s.calls i).error = none →
    (s.calls i).lost = false → (s.calls i).task? = some id))

instance NoDownloadListening.decidable (s : Callers) : Decidable s.NoDownloadListening :=
  inferInstanceAs (Decidable (∀ i < s.nextCall, (s.calls i).kind.target.1 = .download →
    (s.calls i).phase ≠ .listening))

instance DownloadsApart.decidable (s : Callers) (a : Env × CallerEvent) :
    Decidable (s.DownloadsApart a) :=
  match a with
  | (_, .lane (.fileTransferError transfer status)) =>
    inferInstanceAs (Decidable (s.DownloadErrorsOwn transfer status))
  | (_, .lane .resetTransferLane) => inferInstanceAs (Decidable s.NoDownloadListening)
  | (_, .lane (.lockObtained _)) | (_, .lane (.lockState _ _)) | (_, .lane .fireWake)
  | (_, .lane (.fileTransferContinueData _ _ _)) | (_, .lane (.fileTransferData _ _))
  | (_, .lane (.fileTransferDataComplete _)) | (_, .lane .abortTransfers)
  | (_, .lane (.download _ _)) | (_, .lane (.upload _ _ _)) | (_, .lane (.queueClear _ _))
  | (_, .lane (.dequeueClear _)) | (_, .lane .poke) | (_, .lane .wakeup)
  | (_, .lane .queueFlushed) | (_, .lane .releaseLocksNow)
  | (_, .begin _) | (_, .queue _) | (_, .wake _) | (_, .cleanUp _) =>
    inferInstanceAs (Decidable True)

/-- A macro that is downloaded, and one that the switcher rejects. -/
def downloadedAndRejected : List (Env × CallerEvent) :=
  [(⟨0, none⟩, .begin (.downloadTransfer macroStore 3)), (⟨0, none⟩, .queue 0),
   (⟨milliseconds 5, none⟩, .lane (.fileTransferData 43 [8, 0, 4, 0, 0, 0, 1, 0])),
   (⟨milliseconds 9, none⟩, .lane (.fileTransferDataComplete 43)),
   (⟨milliseconds 9, none⟩, .wake 0),
   (⟨milliseconds 10, none⟩, .begin (.downloadTransfer macroStore 3)),
   (⟨milliseconds 10, none⟩, .queue 1),
   (⟨milliseconds 15, none⟩, .lane (.fileTransferError 44 2)), (⟨milliseconds 15, none⟩, .wake 1)]

/-- A still waits for its lock while the switcher rejects the upload of a macro. -/
def uploadRejected : List (Env × CallerEvent) :=
  [(⟨0, none⟩, .begin (.uploadMacroBytecode 1 ⟨[8, 0, 4, 0, 0, 0, 1, 0], 8, [], none, none⟩)),
   (⟨0, none⟩, .queue 0), (⟨milliseconds 1, none⟩, .begin (.downloadTransfer 0 2)),
   (⟨milliseconds 1, none⟩, .queue 1),
   (⟨milliseconds 15, none⟩, .lane (.fileTransferError 43 2)), (⟨milliseconds 15, none⟩, .wake 1)]

end Callers

end Bmdwire
