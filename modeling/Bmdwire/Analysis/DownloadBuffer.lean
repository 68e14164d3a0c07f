import Mathlib.Data.List.DropRight
import Bmdwire.Analysis.LaneNotices
import Bmdwire.Analysis.UploadSteps

/-!
# The bytes of a download

All tasks share one receive buffer. A download's request empties it, and nothing but the FTDa
of its own id goes into it from then on, so what its FTDC hands over is what came for it since
that request, each FTDa answered by one FTUA (`download_collected`).
-/

set_option autoImplicit false

namespace Bmdwire

/-- What the FTDa of a transfer id carried, in order. -/
def received (transfer : ℕ) : List Act → Bytes
  | [] => []
  | .recv _ (.fileTransferData x data) :: past =>
    received transfer past ++ if x = transfer then data else []
  | _ :: past => received transfer past

/-- The entry is an event that the lane handles. -/
def Act.arrives : Act → Bool
  | .recv _ _ => true
  | _ => false

/-- The ids of the FTUAs sent after an event and before the next one. -/
def acksNext (after : List Act) : List ℕ :=
  (after.rtakeWhile fun a => !a.arrives).filterMap Act.ack?

/-- What came under a transfer id is `raw`, each FTDa of it was answered by one FTUA with that
id, and no transfer was requested meanwhile. -/
structure Exchange (transfer : ℕ) (since : List Act) (raw : Bytes) : Prop where
  alone : ∀ a ∈ since, a.request? = none
  received : received transfer since = raw
  acked : ∀ after now data before,
    since = after ++ .recv now (.fileTransferData transfer data) :: before →
      acksNext after = [transfer]

/-- What came for a download since its last request. -/
def Collected (id : TaskId) (transfer : ℕ) (store : Store) (slot : Slot) (log : List Act)
    (raw : Bytes) : Prop :=
  ∃ now since earlier,
    log = since ++ .send now (.downloadRequest id transfer store slot) :: earlier ∧
      Exchange transfer since raw

/-! ## The log -/

/-- Where an entry stands in a log that has grown by others. -/
theorem split_append {new log after before : List Act} {a : Act} (ha : a ∉ new)
    (h : new ++ log = after ++ a :: before) :
    ∃ later, after = new ++ later ∧ log = later ++ a :: before := by
  rcases List.append_eq_append_iff.mp h with ⟨later, hafter, hlog⟩ | ⟨rest, hnew, hrest⟩
  · exact ⟨later, hafter, hlog⟩
  · cases rest with
    | nil => exact ⟨[], by simpa using hnew.symm, by simpa using hrest.symm⟩
    | cons b rest =>
      obtain ⟨rfl, -⟩ := List.cons.inj hrest
      exact absurd (by rw [hnew]; simp) ha

/-- What comes after the next event says nothing of the answer to this one. -/
theorem acksNext_arrived {a : Act} (h : a.arrives = true) (new after : List Act) :
    acksNext (new ++ a :: after) = acksNext after := by
  have hstop : (new ++ a :: after).rtakeWhile (fun a => !a.arrives) =
      after.rtakeWhile fun a => !a.arrives := by
    induction after using List.reverseRecOn with
    | nil => exact List.rtakeWhile_concat_neg _ _ _ (by simp [h])
    | append_singleton after b ih =>
      rw [← List.cons_append, ← List.append_assoc, List.rtakeWhile_concat, List.rtakeWhile_concat, ih]
  rw [acksNext, acksNext, hstop]

theorem acksNext_silent {new : List Act} (h : ∀ a ∈ new, a.ack? = none) (after : List Act) :
    acksNext (new ++ after) = acksNext after := by
  unfold acksNext
  induction after using List.reverseRecOn with
  | nil =>
    rw [List.append_nil]
    exact List.filterMap_eq_nil_iff.mpr fun a ha =>
      h a ((List.rtakeWhile_suffix _ new).subset ha)
  | append_singleton after b ih =>
    rw [← List.append_assoc, List.rtakeWhile_concat, List.rtakeWhile_concat]
    split
    · rw [List.filterMap_append, List.filterMap_append, ih]
    · rfl

theorem acksNext_eq {after : List Act} (h : ∀ a ∈ after, a.arrives = false) :
    acksNext after = after.filterMap Act.ack? := by
  have hall : after.rtakeWhile (fun a => !a.arrives) = after :=
    List.rtakeWhile_eq_self_iff.mpr fun a ha => by simp [h a ha]
  rw [acksNext, hall]

theorem received_append {transfer : ℕ} {new : List Act}
    (h : ∀ a ∈ new, ∀ now data, a ≠ .recv now (.fileTransferData transfer data))
    (past : List Act) : received transfer (new ++ past) = received transfer past := by
  induction new with
  | nil => rfl
  | cons a new ih =>
    have hnew := ih fun b hb => h b (List.mem_cons_of_mem a hb)
    cases a with
    | recv now e =>
      cases e with
      | fileTransferData x data =>
        have hx : x ≠ transfer := fun hx => h _ (List.mem_cons_self ..) now data (by rw [hx])
        rw [List.cons_append, received, if_neg hx, List.append_nil, hnew]
      | _ => exact hnew
    | _ => exact hnew

theorem Act.request?_of_moving {a : Act} (h : a.moving = false) : a.request? = none := by
  cases a with
  | send now c => cases c <;> first | rfl | cases h
  | _ => rfl

/-- The entry is no event, requests no transfer of the task, and hands no download over. -/
def Act.Continues (id : TaskId) (a : Act) : Prop :=
  a.arrives = false ∧ a.request?.map Prod.fst ≠ some id ∧
    ∀ id store slot data, a ≠ .notice (.downloadDone id store slot data)

theorem Act.continues_of_bulk {a : Act} (h : a.bulk = true) (id : TaskId) : a.Continues id := by
  refine ⟨?_, by simp [(Act.silent_of_bulk h).1], ?_⟩
  · cases a with
    | recv now e => cases h
    | _ => rfl
  · rintro id store slot data rfl
    cases h

section Exchange

variable {transfer : ℕ} {since : List Act} {raw : Bytes}

/-- Entries that move no data and acknowledge none. -/
theorem Exchange.quiet (h : Exchange transfer since raw) {new : List Act}
    (hnew : ∀ a ∈ new, a.moving = false ∧ a.ack? = none) :
    Exchange transfer (new ++ since) raw where
  alone a ha := by
    rcases List.mem_append.mp ha with ha | ha
    · exact Act.request?_of_moving (hnew a ha).1
    · exact h.alone a ha
  received := by
    rw [received_append fun a ha _ _ heq => by rw [heq] at ha; cases (hnew _ ha).1]
    exact h.received
  acked := by
    intro after now data before heq
    have hnot : .recv now (.fileTransferData transfer data) ∉ new := fun hmem => by
      cases (hnew _ hmem).1
    obtain ⟨later, rfl, hsince⟩ := split_append hnot heq
    rw [acksNext_silent fun a ha => (hnew a ha).2]
    exact h.acked later now data before hsince

/-- An event comes, and the entries of its step: an FTDa of the id is answered among them. -/
theorem Exchange.arrive (h : Exchange transfer since raw) (now : Time) (e : LaneEvent)
    {new : List Act} (hnew : ∀ a ∈ new, a.arrives = false ∧ a.request? = none) {more : Bytes}
    (hdata : ∀ data, e = .fileTransferData transfer data →
      new.filterMap Act.ack? = [transfer] ∧ more = data)
    (hother : (∀ data, e ≠ .fileTransferData transfer data) → more = []) :
    Exchange transfer (new ++ .recv now e :: since) (raw ++ more) where
  alone a ha := by
    rcases List.mem_append.mp ha with ha | ha
    · exact (hnew a ha).2
    · rcases List.mem_cons.mp ha with rfl | ha
      · rfl
      · exact h.alone a ha
  received := by
    rw [received_append fun a ha _ _ heq => by rw [heq] at ha; cases (hnew _ ha).1]
    by_cases hmine : ∃ data, e = .fileTransferData transfer data
    · obtain ⟨data, rfl⟩ := hmine
      rw [Bmdwire.received, if_pos rfl, h.received, (hdata data rfl).2]
    · rw [hother fun data he => hmine ⟨data, he⟩, List.append_nil]
      cases e with
      | fileTransferData x data =>
        have hx : x ≠ transfer := fun hx => hmine ⟨data, by rw [hx]⟩
        rw [Bmdwire.received, if_neg hx, List.append_nil, h.received]
      | _ => exact h.received
  acked := by
    intro after now' data before heq
    have hnot : .recv now' (.fileTransferData transfer data) ∉ new := fun hmem => by
      cases (hnew _ hmem).1
    obtain ⟨later, rfl, hsince⟩ := split_append hnot heq
    cases later with
    | nil =>
      obtain ⟨hrecv, -⟩ := List.cons.inj hsince
      injection hrecv with _ he
      rw [List.append_nil, acksNext_eq fun a ha => (hnew a ha).1, (hdata data he).1]
    | cons a later =>
      obtain ⟨rfl, hsince'⟩ := List.cons.inj hsince
      rw [acksNext_arrived rfl]
      exact h.acked later now' data before hsince'

end Exchange

section Collected

variable {id : TaskId} {transfer : ℕ} {store : Store} {slot : Slot} {log : List Act} {raw : Bytes}

theorem Collected.quiet (h : Collected id transfer store slot log raw) {new : List Act}
    (hnew : ∀ a ∈ new, a.moving = false ∧ a.ack? = none) :
    Collected id transfer store slot (new ++ log) raw := by
  obtain ⟨now, since, earlier, rfl, hexchange⟩ := h
  exact ⟨now, new ++ since, earlier, (List.append_assoc ..).symm, hexchange.quiet hnew⟩

theorem Collected.arrive (h : Collected id transfer store slot log raw) (now : Time)
    (e : LaneEvent) {new : List Act} (hnew : ∀ a ∈ new, a.arrives = false ∧ a.request? = none)
    {more : Bytes} (hdata : ∀ data, e = .fileTransferData transfer data →
      new.filterMap Act.ack? = [transfer] ∧ more = data)
    (hother : (∀ data, e ≠ .fileTransferData transfer data) → more = []) :
    Collected id transfer store slot (new ++ .recv now e :: log) (raw ++ more) := by
  obtain ⟨asked, since, earlier, rfl, hexchange⟩ := h
  exact ⟨asked, new ++ .recv now e :: since, earlier, by simp,
    hexchange.arrive now e hnew hdata hother⟩

end Collected

namespace Lane

variable {s t : Lane}

/-! ## The buffer -/

/-- The buffer holds what came for the download in flight since its last request. -/
def Collecting (s : Lane) : Prop :=
  ∀ id transfer, s.transfer = some id → (s.tasks id).kind = .download →
    (s.tasks id).tid = some transfer →
      Collected id transfer (s.tasks id).store (s.tasks id).slot s.log s.transferBuffer.flatten

/-- Nothing is collected while an upload is in flight. -/
theorem Uploading.collecting {id : TaskId} (h : s.Uploading id) (hst : s.Quiet t) :
    t.Collecting := by
  intro j transfer hj hkind _
  rw [hst.transfer, h.1] at hj
  obtain rfl := Option.some.inj hj
  have hcore := congrArg Prod.fst (hst.core id)
  have hupload : (t.tasks id).kind = .upload := hcore.trans h.2
  rw [hupload] at hkind
  cases hkind

theorem collecting_dataMove {now : Time} {e : LaneEvent} (h : DataMove now e s t)
    (hd : s.DataWf) (hs : s.Collecting) : t.Collecting := by
  intro id transfer hid hkind htid
  cases h with
  | unmoved hu =>
    have hsame := hu.sameUploads
    rcases hu.transfer with hnone | ⟨htransfer, hbuffer⟩
    · rw [hnone] at hid
      cases hid
    · obtain ⟨new, hlog, hnew⟩ := hu.log
      have hsome : t.transfer ≠ none := by rw [hid]; simp
      rw [hsame.task TransferTask.kind (fun _ => rfl)] at hkind
      rw [hsame.task TransferTask.tid (fun _ => rfl)] at htid
      rw [hlog, hbuffer, hsame.task TransferTask.store (fun _ => rfl),
        hsame.task TransferTask.slot (fun _ => rfl)]
      exact (hs id transfer (htransfer ▸ hid) hkind htid).quiet
        fun a ha => ⟨(hnew a ha).1, (hnew a ha).2 hsome⟩
  | enqueue _ =>
    have hne : id ≠ s.nextTask := (hd.made id hid).ne
    rw [tasks_enqueue, if_neg hne] at hkind htid ⊢
    exact hs id transfer hid hkind htid
  | @request j retry _ _ =>
    have hrequested := requested_requestTransfer now retry j s
    rw [hrequested.transfer] at hid
    obtain rfl := Option.some.inj hid
    rw [hrequested.kind] at hkind
    have hupload : (s.tasks j).kind ≠ .upload := by rw [hkind]; simp
    rw [requestTransfer_download retry hupload] at htid ⊢
    simp only [Function.update_self, Option.some.injEq] at htid
    simp only [Function.update_self]
    refine ⟨now, [], s.log, by rw [htid]; rfl, by simp, rfl, fun after _ _ _ heq => ?_⟩
    simp at heq

/-- FTDa of the transfer in flight is put in the buffer and answered. -/
theorem Answers.fileTransferData {id : TaskId} {transfer : ℕ} (h : s.Answers transfer id)
    (env : Env) (data : Bytes) :
    ∃ new, (s.fileTransferData env transfer data).log = new ++ s.log ∧
      (∀ a ∈ new, a.arrives = false ∧ a.request? = none) ∧
      new.filterMap Act.ack? = [transfer] ∧
      (s.fileTransferData env transfer data).transferBuffer = s.transferBuffer ++ [data] ∧
      (s.fileTransferData env transfer data).tasks = s.tasks ∧
      (s.fileTransferData env transfer data).transfer = s.transfer := by
  rw [fileTransferData_eq h.notDrained]
  unfold dataInFlight
  rw [h.inFlight]
  dsimp only
  rw [if_pos h.tid]
  unfold downloadProgress
  dsimp only
  split
  · split
    · exact ⟨[_, _], rfl, by simp [Act.arrives, Act.request?, Command.request?],
        by simp [Act.ack?], rfl, rfl, rfl⟩
    · exact ⟨[_], rfl, by simp [Act.arrives, Act.request?, Command.request?],
        by simp [Act.ack?], rfl, rfl, rfl⟩
  · exact ⟨[_], rfl, by simp [Act.arrives, Act.request?, Command.request?],
      by simp [Act.ack?], rfl, rfl, rfl⟩

/-- The entry of an event that is no FTDa of the download in flight. -/
theorem collecting_receive (hs : s.Collecting) (env : Env) {e : LaneEvent}
    (hother : ∀ id transfer data, s.transfer = some id → (s.tasks id).tid = some transfer →
      e ≠ .fileTransferData transfer data) : (s.receive env e).Collecting := by
  intro id transfer hid hkind htid
  have hnot := fun data => hother id transfer data hid htid
  have h := @Collected.arrive _ _ _ _ _ _ (hs id transfer hid hkind htid) env.now e [] (by simp) []
    (fun data he => absurd he (hnot data)) (fun _ => rfl)
  rwa [List.append_nil] at h

/-- FTDa: of the download in flight it is collected, else nothing of it is kept. -/
theorem collecting_fileTransferData {env : Env} {x : ℕ} {data : Bytes} (hwf : s.Wf)
    (hs : s.Collecting) :
    ((s.receive env (.fileTransferData x data)).fileTransferData env x data).Collecting := by
  rcases message_cases (s.receive env (.fileTransferData x data)) x with
    ⟨d, hd, rfl⟩ | ⟨j, ha⟩ | hstrange
  · -- nothing is in flight while a download drains
    intro id transfer hid _ _
    have hnone := (hwf.draining (by rw [show s.draining = some d from hd]; simp)).1
    unfold Lane.fileTransferData at hid
    rw [hd] at hid
    dsimp only at hid
    rw [if_pos rfl] at hid
    have hid : s.transfer = some id := hid
    rw [hnone] at hid
    cases hid
  · obtain ⟨new, hlog, hnew, hack, hbuffer, htasks, htransfer⟩ := ha.fileTransferData env data
    intro id transfer hid hkind htid
    rw [htransfer, ha.inFlight] at hid
    obtain rfl := Option.some.inj hid
    rw [htasks] at hkind htid ⊢
    obtain rfl := Option.some.inj (ha.tid.symm.trans htid)
    have hinFlight : s.transfer = some j := ha.inFlight
    rw [hlog, hbuffer, List.flatten_append, List.flatten_singleton]
    refine (hs j x hinFlight hkind htid).arrive env.now _ hnew (fun data' he => ?_) fun hnone => ?_
    · injection he with _ hdata
      exact ⟨hack, hdata⟩
    · exact absurd rfl (hnone data)
  · rw [hstrange.fileTransferData]
    refine collecting_receive hs env fun id transfer data' hid htid he => ?_
    injection he with hx _
    exact hstrange.notInFlight id hid (hx ▸ htid)

theorem collecting_step {a : Env × LaneEvent} (hwf : s.Wf) (hd : s.DataWf) (hposs : s.Possible a)
    (hs : s.Collecting) : (s.step a).Collecting := by
  obtain ⟨env, e⟩ := a
  have hreceive : (∀ transfer data, e ≠ .fileTransferData transfer data) →
      (s.receive env e).Collecting := fun hne =>
    collecting_receive hs env fun _ transfer data _ _ => hne transfer data
  have hreceived : (s.receive env e).DataWf := ⟨hd.queue, hd.made, hd.data, hd.unsent⟩
  have hmoves : e.movesData = false → (s.step (env, e)).Collecting := by
    intro hdata
    have hnone : ∀ transfer data, e ≠ .fileTransferData transfer data := by
      rintro transfer data rfl
      cases hdata
    refine ((step_dataMoves hwf hposs hdata).keep (P := fun t => t.Collecting ∧ t.DataWf) ?_
      ⟨hreceive hnone, hreceived⟩).1
    rintro t u hm ⟨ht, htd⟩
    exact ⟨collecting_dataMove hm htd ht, dataWf_dataMove hm htd⟩
  cases e with
  | fileTransferData x data => exact collecting_fileTransferData hwf hs
  | fileTransferContinueData x size count =>
    have hquiet := quiet_fileTransferContinueData env.now x size count
      (s.receive env (.fileTransferContinueData x size count))
    by_cases hup : ∃ id, (s.receive env (.fileTransferContinueData x size count)).Uploading id
    · obtain ⟨id, hup⟩ := hup
      exact hup.collecting hquiet
    · have heq := fileTransferContinueData_other (fun id hid => hup ⟨id, hid⟩) env.now x size count
      show ((s.receive env _).fileTransferContinueData env.now x size count).Collecting
      rw [heq]
      exact hreceive nofun
  | queueFlushed =>
    by_cases hup : ∃ id, (s.receive env .queueFlushed).Uploading id
    · obtain ⟨id, hup⟩ := hup
      exact hup.collecting (quiet_queueFlushed env.now _)
    · have hnodata : ∀ id, (s.tasks id).kind ≠ .upload → (s.tasks id).data = none := fun id hkind =>
        Option.not_isSome_iff_eq_none.mp fun hsome => hkind ((hd.data id).mp hsome)
      show ((s.receive env .queueFlushed).queueFlushed env.now).Collecting
      rcases queueFlushed_other (fun id hid => hup ⟨id, hid⟩) hnodata env.now with heq | heq
      · rw [heq]
        exact hreceive nofun
      · rw [heq]
        intro id transfer hid hkind htid
        exact @Collected.quiet _ _ _ _ _ _ (hreceive nofun id transfer hid hkind htid)
          [.throw .typeError] (by simp [Act.moving, Act.ack?])
  | _ => exact hmoves rfl

theorem collecting_reachable {s : Lane} (h : Reachable s) : s.Collecting := by
  refine Library.Reach.invariant ?_ (fun t a hreach ht ha =>
    collecting_step (wf_reachableWhen hreach) (dataWf_reachableWhen hreach) ha.1 ht) h
  rintro t ⟨tid, -, -, rfl⟩ id transfer hid
  cases hid

/-! ## What a download hands over -/

/-- From `s` to `t` the log grows by entries that are no events, request other tasks only, and
hand nothing over. -/
def Follows (id : TaskId) (s t : Lane) : Prop :=
  ∃ new, t.log = new ++ s.log ∧ ∀ a ∈ new, a.Continues id

theorem Follows.refl (id : TaskId) (s : Lane) : s.Follows id s := ⟨[], rfl, by simp⟩

theorem Follows.trans {id : TaskId} {u : Lane} (h : s.Follows id t) (h' : t.Follows id u) :
    s.Follows id u := by
  obtain ⟨new, hlog, hnew⟩ := h
  obtain ⟨new', hlog', hnew'⟩ := h'
  refine ⟨new' ++ new, by rw [hlog', hlog, List.append_assoc], fun a ha => ?_⟩
  rcases List.mem_append.mp ha with ha | ha
  · exact hnew' a ha
  · exact hnew a ha

theorem follows_letGo (id : TaskId) (now : Time) (store : Store) (s : Lane) :
    s.Follows id (s.letGo now store) := by
  obtain ⟨new, hlog, hnew⟩ := letGo_log now store s
  refine ⟨new, hlog, fun a ha => ?_⟩
  rw [hnew a ha]
  exact ⟨rfl, by simp [Act.request?, Command.request?], by simp⟩

/-- The trigger requests only what is queued. -/
theorem follows_triggerMove {now : Time} {stale : Prop} {id : TaskId}
    (hm : TriggerMove now stale s t) (hid : id ∉ s.queued) : s.Follows id t := by
  cases hm with
  | wake due => exact .refl id s
  | fail =>
    refine ⟨[_], rfl, fun a ha => ?_⟩
    rw [List.mem_singleton.mp ha]
    exact ⟨rfl, by simp [Act.request?], by simp⟩
  | pauseOver _ _ _ => exact .refl id _
  | endYield _ _ => exact .refl id _
  | clean _ _ =>
    obtain ⟨new, heq, hnew⟩ := cleanLocks_eq now s
    rw [heq]
    refine ⟨new, rfl, fun a ha => ?_⟩
    obtain ⟨k, -, rfl⟩ := hnew a ha
    exact ⟨rfl, by simp [Act.request?, Command.request?], by simp⟩
  | @askForLock j _ _ _ _ _ _ =>
    refine ⟨[_], rfl, fun a ha => ?_⟩
    rw [List.mem_singleton.mp ha]
    refine ⟨rfl, ?_, by simp⟩
    rw [(lockRequestFor_silent now (s.tasks j)).1]
    simp
  | @clear j _ _ _ _ _ =>
    refine Follows.trans ?_ (follows_letGo id now _ _)
    refine ⟨[_, _], rfl, fun a ha => ?_⟩
    rcases List.mem_cons.mp ha with rfl | ha
    · exact ⟨rfl, by simp [Act.request?], by simp⟩
    · rw [List.mem_singleton.mp ha]
      exact ⟨rfl, by simp [Act.request?, Command.request?], by simp⟩
  | @request j retry _ hfront _ _ _ _ =>
    have hne : j ≠ id := by
      rintro rfl
      exact hid (mem_queued.mpr ⟨_, hfront.mem⟩)
    obtain ⟨new, c, hlog, hbulk, hc⟩ := (requested_requestTransfer now retry j s).log
    refine ⟨new ++ [.send now c], by rw [hlog, List.append_assoc]; rfl, fun a ha => ?_⟩
    rcases List.mem_append.mp ha with ha | ha
    · exact Act.continues_of_bulk (hbulk a ha) id
    · rw [List.mem_singleton.mp ha]
      exact ⟨rfl, by simp [Act.request?, hc, hne], by simp⟩

theorem follows_triggerMoves {now : Time} {stale : Prop} {id : TaskId}
    (hm : TriggerMoves now stale s t) (hwf : s.Wf) (hid : id ∉ s.queued) : s.Follows id t := by
  refine (hm.keep (P := fun t => t.Wf ∧ id ∉ t.queued ∧ s.Follows id t) ?_
    ⟨hwf, hid, .refl id s⟩).2.2
  rintro t u hmove ⟨ht, hidt, hfollows⟩
  refine ⟨wf_triggerMove t u hmove ht, fun hmem => hidt ?_,
    hfollows.trans (follows_triggerMove hmove hidt)⟩
  obtain ⟨k, hk⟩ := mem_queued.mp hmem
  exact mem_queued.mpr ⟨k, ((shrinks_triggerMove hmove ht).queue k).subset hk⟩

/-- The step of an FTDC for the task in flight ends with the task's completion. -/
theorem step_completed (hwf : s.Wf) (env : Env) {transfer : ℕ} {id : TaskId}
    (ha : s.Answers transfer id) :
    ∃ post, (s.step (env, .fileTransferDataComplete transfer)).log =
        .notice (completionNotice id (s.tasks id) s.transferBuffer.flatten) ::
          (post ++ .recv env.now (.fileTransferDataComplete transfer) :: s.log) ∧
      ∀ a ∈ post, a.Continues id := by
  have hr := wf_receive hwf env (.fileTransferDataComplete transfer)
  obtain ⟨m, m', closing, hopen, hmoves, heq⟩ :=
    step_splits hwf (env, .fileTransferDataComplete transfer)
  generalize hs' : s.receive env (.fileTransferDataComplete transfer) = s' at hopen hr
  have ha' : s'.Answers transfer id := by
    rw [← hs']
    exact ⟨ha.inFlight, ha.tid, ha.notDrained⟩
  have hm : m.Wf := wf_opening hopen hr nofun
  cases hopen with
  | quiet hidle _ => exact absurd hidle not_false
  | drainCompleted hd => exact absurd rfl (ha'.notDrained _ hd)
  | strangeCompletion hstrange => exact absurd ha'.tid (hstrange.notInFlight id ha'.inFlight)
  | enqueue hnew => cases hnew
  | @completed j _ hj =>
    obtain rfl := Option.some.inj (hj.inFlight.symm.trans ha'.inFlight)
    have hqueue : ∀ k, (s'.dropCompleted env.now j).queue k =
        if k = (s'.tasks j).store then (s'.queue k).tail else s'.queue k := by
      intro k
      refine (letGo_queue ..).trans ((queue_set s' _ k _).trans ?_)
      split
      · rename_i hk
        rw [hk]
      · rfl
    have hgone : j ∉ (s'.dropCompleted env.now j).queued := fun hmem =>
      ((mem_queued_pop hr (hr.inFlight j hj.inFlight).1 hqueue j).mp hmem).2 rfl
    have hopened : s'.Follows j (s'.dropCompleted env.now j) := follows_letGo j env.now _ _
    obtain ⟨post, hlog, hpost⟩ := hopened.trans (follows_triggerMoves hmoves hm hgone)
    refine ⟨post, ?_, hpost⟩
    rw [heq]
    show .notice _ :: m'.log = _
    rw [hlog, ← hs']
    rfl

/-- Downloads are handed over with what came for them since their last request, decoded for the
still store; all of it had come when the FTDC arrived. -/
def Delivered (id : TaskId) (store : Store) (slot : Slot) (data : Bytes) (past : List Act) : Prop :=
  ∃ transfer now post before raw,
    past = post ++ .recv now (.fileTransferDataComplete transfer) :: before ∧
      (∀ a ∈ post, a.Continues id) ∧ Collected id transfer store slot before raw ∧
      if store = 0 then rleDecode raw = some data else raw = data

/-- What the completion of a download hands over. -/
theorem delivered_of_completion {id : TaskId} {store : Store} {slot : Slot} {data : Bytes}
    {transfer : ℕ} {now : Time} {post : List Act} (hs : s.Collecting) (hwf : s.Wf)
    (ha : s.Answers transfer id) (hpost : ∀ a ∈ post, a.Continues id) {id' : TaskId}
    (hnotice : completionNotice id (s.tasks id) s.transferBuffer.flatten =
      .downloadDone id' store slot data) :
    Delivered id' store slot data
      (post ++ .recv now (.fileTransferDataComplete transfer) :: s.log) := by
  unfold completionNotice at hnotice
  split at hnotice
  · cases hnotice
  · rename_i hupload
    split at hnotice
    · rename_i decoded hdecoded
      cases hnotice
      have hkind : (s.tasks id).kind = .download := by
        cases hk : (s.tasks id).kind with
        | download => rfl
        | upload => exact absurd hk hupload
        | clear => exact absurd hk (hwf.inFlight id ha.inFlight).2.1
      refine ⟨transfer, now, post, s.log, _, rfl, hpost, hs id transfer ha.inFlight hkind ha.tid, ?_⟩
      split at hdecoded
      · rename_i hzero
        rwa [if_pos hzero]
      · rename_i hzero
        rw [if_neg hzero]
        exact Option.some.inj hdecoded
    · cases hnotice

/-- Every download handed over in a run is. -/
theorem delivered_reachable (h : Reachable s) : ∀ later past id store slot data,
    s.log = later ++ .notice (.downloadDone id store slot data) :: past →
      Delivered id store slot data past := by
  refine Library.Reach.invariant (P := fun s => ∀ later past id store slot data,
    s.log = later ++ .notice (.downloadDone id store slot data) :: past →
      Delivered id store slot data past) ?_ (fun t a hreach ht ha => ?_) h
  · rintro t ⟨tid, -, -, rfl⟩ later past id store slot data hlog
    cases later <;> cases hlog
  · intro later past id store slot data hlog
    have hwf := wf_reachableWhen hreach
    by_cases hanswers : ∃ transfer j, a.2 = .fileTransferDataComplete transfer ∧
        t.Answers transfer j
    · obtain ⟨transfer, j, he, hj⟩ := hanswers
      obtain ⟨env, e⟩ := a
      obtain rfl : e = _ := he
      obtain ⟨post, hnew, hpost⟩ := step_completed hwf env hj
      rw [hnew] at hlog
      cases later with
      | nil =>
        obtain ⟨hhead, rfl⟩ := List.cons.inj hlog
        injection hhead with hnotice
        exact delivered_of_completion (collecting_reachable hreach) hwf hj hpost hnotice
      | cons b later =>
        obtain ⟨-, htail⟩ := List.cons.inj hlog
        have hnot : .notice (.downloadDone id store slot data) ∉
            post ++ [.recv env.now (.fileTransferDataComplete transfer)] := by
          intro hmem
          rcases List.mem_append.mp hmem with hmem | hmem
          · exact (hpost _ hmem).2.2 id store slot data rfl
          · cases List.mem_singleton.mp hmem
        obtain ⟨later', -, hold⟩ := split_append hnot (by simpa using htail)
        exact ht later' past id store slot data hold
    · obtain ⟨-, -, new, hnew, -, htells⟩ := step_tells hwf a
      have hnot : .notice (.downloadDone id store slot data) ∉ new ++ [.recv a.1.now a.2] := by
        intro hmem
        rcases List.mem_append.mp hmem with hmem | hmem
        · have hsaid := htells _ hmem
          cases hsaid with
          | progress hbulk => cases hbulk
          | downloaded he hj _ => exact hanswers ⟨_, id, he, hj⟩
        · cases List.mem_singleton.mp hmem
      rw [hnew] at hlog
      obtain ⟨later', -, hold⟩ := split_append hnot (by simpa using hlog)
      exact ht later' past id store slot data hold

/-- In every run the bytes of a finished download are those received under its transfer id
since its last request, RLE-decoded for the still store, and each of its FTDa was answered by
one FTUA with that id; of the download in flight, the buffer holds them. -/
theorem download_collected (h : Reachable s) :
    (∀ later past id store slot data,
      s.log = later ++ .notice (.downloadDone id store slot data) :: past →
        Delivered id store slot data past) ∧ s.Collecting :=
  ⟨delivered_reachable h, collecting_reachable h⟩

/-- A still is asked for again after a first part of it has come, under the next id; then it
comes in two parts, between them one that is another client's. -/
def interleavedDownload : List (Env × LaneEvent) :=
  [(⟨0, none⟩, .download 0 2), (⟨1, none⟩, .lockObtained 0),
   (⟨2, none⟩, .fileTransferData 43 [9, 9, 9, 9, 9, 9, 9, 9]),
   (⟨3, none⟩, .fileTransferError 43 5), (⟨4, none⟩, .lockObtained 0),
   (⟨5, none⟩, .fileTransferData 44 [1, 2, 3, 4, 5, 6, 7, 8]),
   (⟨6, none⟩, .fileTransferData 99 [9, 9, 9, 9, 9, 9, 9, 9]),
   (⟨7, none⟩, .fileTransferData 44 [8, 7, 6, 5, 4, 3, 2, 1]),
   (⟨8, none⟩, .fileTransferDataComplete 44)]

theorem download_collected_interleaved :
    Delivered 0 0 2 [1, 2, 3, 4, 5, 6, 7, 8, 8, 7, 6, 5, 4, 3, 2, 1]
      (Library.run step (fresh 42) interleavedDownload).log.tail := by
  have hreach : Reachable (Library.run step (fresh 42) interleavedDownload) :=
    Library.Reach.run (.start ⟨42, by decide, by decide, rfl⟩) _ (by decide)
  exact (download_collected hreach).1 [] _ 0 0 2 _ rfl

end Lane

end Bmdwire
