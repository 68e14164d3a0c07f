import Bmdwire.Analysis.UploadChunks
import Bmdwire.Analysis.UploadSteps

/-!
# The metadata of an upload

FTFD goes out with the first FTCD of an attempt, with the request of an empty upload, or when
the queue is flushed. A flush signal that finds a budget of before sends chunks first, so the
order is kept by the runs in which none does (`MetadataKept`): there each FTFD is the only one
of its attempt, each FTDa comes after it, and when all the data is queued it is out
(`metadata_once`).
-/

set_option autoImplicit false

namespace Bmdwire

/-- The transfer id of the last request, if that was for an upload. -/
def lastUpload : List Act → Option ℕ
  | [] => none
  | .send _ (.uploadRequest _ transfer _ _ _ _) :: _ => some transfer
  | .send _ (.downloadRequest _ _ _ _) :: _ => none
  | _ :: past => lastUpload past

/-- An FTFD was sent since the last request. -/
def metadataOut : List Act → Bool
  | [] => false
  | .send _ (.fileData _ _ _ _) :: _ => true
  | .send _ (.uploadRequest _ _ _ _ _ _) :: _ => false
  | .send _ (.downloadRequest _ _ _ _) :: _ => false
  | _ :: past => metadataOut past

/-- An FTFD carries the id of the upload requested last, and is the first since its request. An
FTDa carries that id too, and comes after the FTFD. -/
def MetadataFirst (a : Act) (past : List Act) : Prop :=
  match a with
  | .send _ (.fileData transfer _ _ _) =>
    lastUpload past = some transfer ∧ metadataOut past = false
  | .send _ (.transferData transfer _) =>
    lastUpload past = some transfer ∧ metadataOut past = true
  | _ => True

instance MetadataFirst.decidable (a : Act) (past : List Act) : Decidable (MetadataFirst a past) := by
  unfold MetadataFirst
  split <;> infer_instance

theorem Act.metadataFirst {a : Act} (h : a.uploads = false) (past : List Act) :
    MetadataFirst a past ∧ lastUpload (a :: past) = lastUpload past ∧
      metadataOut (a :: past) = metadataOut past := by
  cases a with
  | recv now e => exact ⟨trivial, rfl, rfl⟩
  | send now c => cases c <;> simp_all [Act.uploads, Act.moving, MetadataFirst, lastUpload, metadataOut]
  | notice n => exact ⟨trivial, rfl, rfl⟩
  | throw e => exact ⟨trivial, rfl, rfl⟩

/-- Entries that are not about uploads. -/
theorem metadataFirst_append {new log : List Act} (h : ∀ a ∈ new, a.uploads = false)
    (hlog : Library.Every MetadataFirst log) :
    Library.Every MetadataFirst (new ++ log) ∧ lastUpload (new ++ log) = lastUpload log ∧
      metadataOut (new ++ log) = metadataOut log := by
  induction new with
  | nil => exact ⟨hlog, rfl, rfl⟩
  | cons a new ih =>
    obtain ⟨hevery, hlast, hout⟩ := ih fun b hb => h b (List.mem_cons_of_mem a hb)
    obtain ⟨hfirst, hlast', hout'⟩ := Act.metadataFirst (h a (List.mem_cons_self ..)) (new ++ log)
    exact ⟨⟨hfirst, hevery⟩, hlast'.trans hlast, hout'.trans hout⟩

/-- `upload` made this payload. -/
def UploadPayload.Made (md5 : Bytes → Bytes) (p : UploadPayload) : Prop :=
  ∃ compress compressed data name description,
    uploadPayload md5 compress compressed data name description = some p

/-- The calls of `upload` are with payloads that it makes. -/
def LaneEvent.PayloadMade (md5 : Bytes → Bytes) : LaneEvent → Prop
  | .upload _ _ payload => payload.Made md5
  | _ => True

/-- What `rle_encode` makes nothing of is nothing. -/
theorem eq_nil_of_rleEncode {input : ByteString} (h : rleEncode input = .ok []) :
    input.data = [] := by
  obtain ⟨ws, hwhole, -, hflat, hdecode⟩ := rleEncode_words h
  have hlen := length_flatten_of_whole hwhole
  rw [hflat, List.length_nil] at hlen
  have hws : ws = [] := List.length_eq_zero_iff.mp (by omega)
  rw [hws] at hdecode
  exact (Option.some.inj hdecode).symm

/-- An upload with nothing to send is one of nothing. -/
theorem UploadPayload.Made.empty {md5 : Bytes → Bytes} {p : UploadPayload} (h : p.Made md5)
    (hempty : p.data = []) : p.dataLength = 0 := by
  obtain ⟨compress, compressed, data, name, description, h⟩ := h
  rw [uploadPayload, Option.bind_eq_some_iff] at h
  obtain ⟨uncompressed, hplain, h⟩ := h
  rw [Option.map_eq_some_iff] at h
  obtain ⟨sent, hsent, rfl⟩ := h
  have hnil : sent = [] := hempty
  subst hnil
  have hdata : data.data = [] := by
    cases compress with
    | false => exact Option.some.inj hsent
    | true =>
      apply eq_nil_of_rleEncode
      simp only [if_true] at hsent
      cases hencode : rleEncode data with
      | error e =>
        rw [hencode] at hsent
        cases hsent
      | ok out =>
        rw [hencode] at hsent
        exact congrArg _ (Option.some.inj hsent)
  have hnone : uncompressed = [] := by
    rw [hdata] at hplain
    cases compressed with
    | false => exact (Option.some.inj hplain).symm
    | true => exact (Option.some.inj hplain).symm
  exact List.length_eq_zero_iff.mpr hnone

theorem Lane.newTask_empty {md5 : Bytes → Bytes} {e : LaneEvent} {task : TransferTask}
    (hmade : e.PayloadMade md5) (h : newTask e = some task) (hempty : task.data = some []) :
    task.dataLength = 0 := by
  cases e with
  | upload store index payload =>
    cases h
    exact UploadPayload.Made.empty hmade (Option.some.inj hempty)
  | download | queueClear =>
    cases h
    cases hempty
  | _ => cases h

namespace Lane

/-- The metadata of every upload attempt is sent once at most, under its own id, and before its
first chunk; and it is out when all the data of the upload in flight is queued. -/
structure MetadataOnce (s : Lane) : Prop where
  log : Library.Every MetadataFirst s.log
  whole : ∀ id, s.Uploading id → ((s.tasks id).data.getD []).length ≤ (s.tasks id).offset →
    metadataOut s.log = true

/-- A flush signal spends nothing before the metadata is out. -/
def MetadataKept (md5 : Bytes → Bytes) (s : Lane) (a : Env × LaneEvent) : Prop :=
  a.2.PayloadMade md5 ∧
    (a.2 = .queueFlushed → ∀ r ∈ s.spends .queueFlushed, (s.tasks r.1).metadataSent = true)

/-- What the flag of the upload in flight says of the log. -/
structure Announced (s : Lane) : Prop where
  log : Library.Every MetadataFirst s.log
  requested : ∀ id, s.Uploading id → ∃ transfer, (s.tasks id).tid = some transfer ∧
    lastUpload s.log = some transfer
  flag : ∀ id, s.Uploading id → metadataOut s.log = (s.tasks id).metadataSent
  whole : ∀ id, s.Uploading id → ((s.tasks id).data.getD []).length ≤ (s.tasks id).offset →
    (s.tasks id).metadataSent = true
  empty : ∀ id, (s.tasks id).data = some [] → (s.tasks id).dataLength = 0

variable {now : Time} {s t : Lane} {id : TaskId}

theorem Announced.once (h : s.Announced) : s.MetadataOnce where
  log := h.log
  whole id hid hle := (h.flag id hid).trans (h.whole id hid hle)

theorem Announced.same (h : s.Announced) (hsame : s.SameUploads t) : t.Announced := by
  obtain ⟨new, hlog, hnew⟩ := hsame.log
  obtain ⟨hevery, hlast, hout⟩ := metadataFirst_append hnew h.log
  have hup : ∀ id, t.Uploading id → s.Uploading id := by
    rintro id ⟨htransfer, hkind⟩
    refine ⟨?_, ?_⟩
    · rcases hsame.transfer with hnone | heq
      · rw [hnone] at htransfer
        cases htransfer
      · exact heq ▸ htransfer
    · rw [← hsame.task TransferTask.kind (fun _ => rfl)]
      exact hkind
  constructor
  · rw [hlog]
    exact hevery
  · intro id hid
    rw [hsame.task TransferTask.tid (fun _ => rfl), hlog, hlast]
    exact h.requested id (hup id hid)
  · intro id hid
    rw [hsame.task TransferTask.metadataSent (fun _ => rfl), hlog, hout]
    exact h.flag id (hup id hid)
  · intro id hid
    rw [hsame.task TransferTask.metadataSent (fun _ => rfl),
      hsame.task TransferTask.data (fun _ => rfl), hsame.task TransferTask.offset (fun _ => rfl)]
    exact h.whole id (hup id hid)
  · intro id
    rw [hsame.task TransferTask.data (fun _ => rfl),
      hsame.task TransferTask.dataLength (fun _ => rfl)]
    exact h.empty id

/-- A request starts an attempt, the metadata of an empty upload with it. -/
theorem announced_request {retry : Bool} (hsome : (s.tasks id).data.isSome = true ↔
      (s.tasks id).kind = .upload) (hk : (s.tasks id).kind = .upload) (h : s.Announced)
    (hempty : ∀ j, ((s.requestTransfer now retry id).tasks j).data = some [] →
      ((s.requestTransfer now retry id).tasks j).dataLength = 0) :
    (s.requestTransfer now retry id).Announced := by
  obtain ⟨mode, heq⟩ := @requestTransfer_upload now _ _ retry hk
  have hup : ∀ j, (s.requestTransfer now retry id).Uploading j → j = id := by
    intro j hj
    rw [Uploading, (requested_requestTransfer now retry id s).transfer] at hj
    exact (Option.some.inj hj.1).symm
  refine ⟨?_, fun j hj => ?_, fun j hj => ?_, fun j hj hle => ?_, hempty⟩
  · rw [heq]
    by_cases hzero : (s.tasks id).dataLength = 0
    · simp only [hzero, if_true]
      exact ⟨⟨rfl, rfl⟩, trivial, h.log⟩
    · simp only [hzero, if_false]
      exact ⟨trivial, h.log⟩
  · rw [hup j hj, heq]
    refine ⟨s.nextTransferId retry, by simp, ?_⟩
    by_cases hzero : (s.tasks id).dataLength = 0
    · simp only [hzero, if_true]
      rfl
    · simp only [hzero, if_false]
      rfl
  · rw [hup j hj, heq]
    by_cases hzero : (s.tasks id).dataLength = 0
    · simp [hzero, metadataOut]
    · simp [hzero, metadataOut]
  · rw [hup j hj] at hle ⊢
    obtain ⟨data, hdata⟩ := Option.isSome_iff_exists.mp (hsome.mpr hk)
    rw [heq] at hle ⊢
    simp only [Function.update_self, hdata, Option.getD_some, Nat.le_zero] at hle
    rw [List.length_eq_zero_iff] at hle
    subst hle
    simp [h.empty id hdata]

theorem announced_dataMove {md5 : Bytes → Bytes} {e : LaneEvent} (hmade : e.PayloadMade md5)
    (hm : DataMove now e s t) (hd : s.DataWf) (h : s.Announced) : t.Announced := by
  cases hm with
  | unmoved hs => exact h.same hs.sameUploads
  | @enqueue task hnew =>
    have hold : ∀ id, (s.enqueue task).Uploading id →
        s.Uploading id ∧ (s.enqueue task).tasks id = s.tasks id := by
      rintro id ⟨htransfer, hkind⟩
      have hne : id ≠ s.nextTask := (hd.made id htransfer).ne
      have heq : (s.enqueue task).tasks id = s.tasks id := by rw [tasks_enqueue, if_neg hne]
      exact ⟨⟨htransfer, heq ▸ hkind⟩, heq⟩
    constructor
    · exact h.log
    · intro id hid
      rw [(hold id hid).2]
      exact h.requested id (hold id hid).1
    · intro id hid
      rw [(hold id hid).2]
      exact h.flag id (hold id hid).1
    · intro id hid
      rw [(hold id hid).2]
      exact h.whole id (hold id hid).1
    · intro id
      rw [tasks_enqueue]
      split
      · exact newTask_empty hmade hnew
      · exact h.empty id
  | @request id retry _ _ =>
    have hdata : ∀ j, (((s.requestTransfer now retry id).tasks j).data = some [] →
        ((s.requestTransfer now retry id).tasks j).dataLength = 0) := by
      intro j
      rw [requestTransfer_keeps TransferTask.data (fun _ _ _ _ => rfl),
        requestTransfer_keeps TransferTask.dataLength (fun _ _ _ _ => rfl)]
      exact h.empty j
    by_cases hk : (s.tasks id).kind = .upload
    · exact announced_request (hd.data id) hk h hdata
    · -- no upload is in flight
      have hnone : ∀ j, ¬ (s.requestTransfer now retry id).Uploading j := by
        rintro j ⟨htransfer, hkind⟩
        rw [requestTransfer_keeps TransferTask.kind (fun _ _ _ _ => rfl)] at hkind
        rw [(requested_requestTransfer now retry id s).transfer] at htransfer
        obtain rfl := Option.some.inj htransfer
        exact hk hkind
      refine ⟨?_, fun j hj => absurd hj (hnone j), fun j hj => absurd hj (hnone j),
        fun j hj => absurd hj (hnone j), hdata⟩
      rw [requestTransfer_download retry hk]
      exact ⟨trivial, h.log⟩

theorem Announced.granted (h : s.Announced) (env : Env) (e : LaneEvent)
    (transfer size count : ℕ) : ((s.receive env e).grant transfer size count).Announced :=
  ⟨⟨trivial, h.log⟩, h.requested, h.flag, h.whole, h.empty⟩

/-- The metadata of an attempt is announced once. -/
theorem Announced.announce (h : s.Announced) (hid : s.Uploading id) (now : Time) :
    (s.announce now id).Announced ∧ ((s.announce now id).tasks id).metadataSent = true := by
  unfold Lane.announce
  split
  · rename_i hsent
    exact ⟨h, hsent⟩
  · rename_i hsent
    obtain ⟨transfer, htid, hlast⟩ := h.requested id hid
    have hout : metadataOut s.log = false := by
      rw [h.flag id hid]
      exact Bool.eq_false_iff.mpr hsent
    have hself : ((s.sendFileMetadata now id).tasks id).metadataSent = true := by
      unfold sendFileMetadata
      simp [modifyTask]
    have hkeep : ∀ {β : Type} (g : TransferTask → β),
        (∀ t b, g { t with metadataSent := b } = g t) → ∀ j,
        g ((s.sendFileMetadata now id).tasks j) = g (s.tasks j) := fun g hg j =>
      modifyTask_keeps g (f := fun t => { t with metadataSent := true }) (fun t => hg t _) id j _
    have hup : ∀ j, (s.sendFileMetadata now id).Uploading j → j = id := fun j hj =>
      Option.some.inj (hj.1.symm.trans hid.1)
    refine ⟨⟨?_, fun j hj => ?_, fun j hj => ?_, fun j hj => ?_, fun j => ?_⟩, hself⟩
    · show MetadataFirst (.send now (.fileData ((s.tasks id).tid.getD 0) _ _ _)) s.log ∧ _
      rw [htid]
      exact ⟨⟨hlast, hout⟩, h.log⟩
    · rw [hkeep TransferTask.tid (fun _ _ => rfl), hup j hj]
      exact ⟨transfer, htid, hlast⟩
    · rw [hup j hj, hself]
      rfl
    · intro _
      rw [hup j hj]
      exact hself
    · rw [hkeep TransferTask.data (fun _ _ => rfl), hkeep TransferTask.dataLength (fun _ _ => rfl)]
      exact h.empty j

/-- Once the metadata is out, and what is queued is the upload's own, chunks keep the order. -/
structure Sending (s : Lane) (id : TaskId) (transfer : ℕ) : Prop where
  announced : s.Announced
  uploading : s.Uploading id
  tid : (s.tasks id).tid = some transfer
  sent : (s.tasks id).metadataSent = true
  queue : ∀ packet ∈ s.sendQueue, packet.1 = transfer

theorem Sending.cutNext {transfer : ℕ} (h : s.Sending id transfer) (x size count : ℕ) :
    (s.cutNext id x size count).Sending id transfer := by
  have hkeep : ∀ {β : Type} (g : TransferTask → β), (∀ t n, g { t with offset := n } = g t) →
      ∀ j, g ((s.cutNext id x size count).tasks j) = g (s.tasks j) := fun g hg j =>
    cutNext_keeps g hg ..
  have hup : ∀ j, (s.cutNext id x size count).Uploading j → j = id := fun j hj =>
    Option.some.inj (hj.1.symm.trans h.uploading.1)
  have hsent : ((s.cutNext id x size count).tasks id).metadataSent = true := by
    rw [hkeep TransferTask.metadataSent (fun _ _ => rfl)]
    exact h.sent
  have htid : ((s.cutNext id x size count).tasks id).tid = some transfer := by
    rw [hkeep TransferTask.tid (fun _ _ => rfl)]
    exact h.tid
  refine ⟨⟨h.announced.log, fun j hj => ?_, fun j hj => ?_, fun j hj => ?_, fun j => ?_⟩,
    ⟨h.uploading.1, ?_⟩, htid, hsent, ?_⟩
  · rw [hup j hj]
    obtain ⟨y, hy, hlast⟩ := h.announced.requested id h.uploading
    exact ⟨y, (htid.trans h.tid.symm).trans hy, hlast⟩
  · rw [hup j hj, hsent]
    exact (h.announced.flag id h.uploading).trans h.sent
  · intro _
    rw [hup j hj]
    exact hsent
  · rw [hkeep TransferTask.data (fun _ _ => rfl), hkeep TransferTask.dataLength (fun _ _ => rfl)]
    exact h.announced.empty j
  · rw [hkeep TransferTask.kind (fun _ _ => rfl)]
    exact h.uploading.2
  · intro packet hp
    unfold Lane.cutNext queuePacket at hp
    dsimp only at hp
    rw [h.tid, List.mem_append] at hp
    rcases hp with hp | hp
    · split at hp
      · exact h.queue packet (List.mem_of_mem_tail hp)
      · exact h.queue packet hp
    · rw [List.mem_singleton.mp hp]
      rfl

theorem Sending.sendNext {transfer x : ℕ} {chunk : Bytes} {rest : List (ℕ × Bytes)}
    (h : s.Sending id transfer) (hqueue : s.sendQueue = (x, chunk) :: rest) (now : Time) :
    (s.sendNext now x chunk rest).Sending id transfer := by
  have hx : x = transfer := h.queue (x, chunk) (by rw [hqueue]; exact List.mem_cons_self ..)
  subst hx
  have hkeep : ∀ {β : Type} (g : TransferTask → β), (∀ t n, g { t with sendDone := n } = g t) →
      ∀ j, g ((s.sendNext now x chunk rest).tasks j) = g (s.tasks j) := fun g hg j =>
    sendNext_keeps h.uploading.1 g hg ..
  have heq := sendNext_eq h.uploading.1 now x chunk rest
  have htransfer : (s.sendNext now x chunk rest).transfer = some id := by
    rw [heq]
    exact h.uploading.1
  have hup : ∀ j, (s.sendNext now x chunk rest).Uploading j → j = id := fun j hj =>
    Option.some.inj (hj.1.symm.trans htransfer)
  have hsent : ((s.sendNext now x chunk rest).tasks id).metadataSent = true := by
    rw [hkeep TransferTask.metadataSent (fun _ _ => rfl)]
    exact h.sent
  have htid : ((s.sendNext now x chunk rest).tasks id).tid = some x := by
    rw [hkeep TransferTask.tid (fun _ _ => rfl)]
    exact h.tid
  obtain ⟨y, hy, hlast⟩ := h.announced.requested id h.uploading
  obtain rfl := Option.some.inj (h.tid.symm.trans hy)
  have hout : metadataOut s.log = true := (h.announced.flag id h.uploading).trans h.sent
  refine ⟨⟨?_, fun j hj => ?_, fun j hj => ?_, fun j hj => ?_, fun j => ?_⟩,
    ⟨htransfer, ?_⟩, htid, hsent, ?_⟩
  · rw [heq]
    exact ⟨trivial, ⟨hlast, hout⟩, h.announced.log⟩
  · rw [hup j hj, heq]
    exact ⟨x, (heq ▸ htid), hlast⟩
  · rw [hup j hj, hsent, heq]
    exact hout
  · intro _
    rw [hup j hj]
    exact hsent
  · rw [hkeep TransferTask.data (fun _ _ => rfl), hkeep TransferTask.dataLength (fun _ _ => rfl)]
    exact h.announced.empty j
  · rw [hkeep TransferTask.kind (fun _ _ => rfl)]
    exact h.uploading.2
  · rw [heq]
    exact fun packet hp => h.queue packet (by rw [hqueue]; exact List.mem_cons_of_mem _ hp)

/-- Chunks after the metadata. -/
theorem Announced.spent (h : s.Announced) (hid : s.Uploading id)
    (hsent : (s.tasks id).metadataSent = true) (hqueue : s.sendQueue = [])
    (hspent : Spent now id s t) : t.Announced := by
  obtain ⟨transfer, htid, -⟩ := h.requested id hid
  have hstart : s.Sending id transfer := ⟨h, hid, htid, hsent, by rw [hqueue]; simp⟩
  refine (hspent.moves.keep (P := fun t => t.Sending id transfer) (fun u v hm hu => ?_)
    hstart).announced
  cases hm with
  | cut _ _ _ _ => exact hu.cutNext ..
  | send _ _ hqueue => exact hu.sendNext hqueue now

/-- A step whose chunks come after the metadata keeps the order. -/
theorem announced_step {md5 : Bytes → Bytes} {a : Env × LaneEvent} (hwf : s.Wf) (hd : s.DataWf)
    (hposs : s.Possible a) (hkept : s.MetadataKept md5 a) (h : s.Announced) :
    (s.step a).Announced := by
  have hstep := step_uploads hwf hd hposs
  generalize s.step a = t at hstep
  obtain ⟨env, e⟩ := a
  have hreceive : (s.receive env e).Announced :=
    ⟨⟨trivial, h.log⟩, h.requested, h.flag, h.whole, h.empty⟩
  cases hstep with
  | moves _ hmoves =>
    refine (hmoves.keep (P := fun t => t.DataWf ∧ t.Announced) (fun u v hm hu => ?_)
      ⟨⟨hd.queue, hd.made, hd.data, hd.unsent⟩, hreceive⟩).2
    exact ⟨dataWf_dataMove hm hu.1, announced_dataMove hkept.1 hm hu.1 hu.2⟩
  | same _ _ hsame => exact hreceive.same hsame
  | @granted transfer size count _ => exact h.granted env _ transfer size count
  | @continued id transfer size count hid _ =>
    exact ((h.granted env _ transfer size count).announce hid env.now).1
  | @spent id transfer size count _ hid _ hspent =>
    have hgranted := h.granted env (.fileTransferContinueData transfer size count) transfer size
      count
    obtain ⟨hannounced, hsent⟩ := hgranted.announce hid env.now
    have hsame := announce_same env.now id ((s.receive env
      (.fileTransferContinueData transfer size count)).grant transfer size count)
    refine hannounced.spent ⟨hsame.1.trans hid.1, ?_⟩ hsent (hsame.2.2.1.trans hd.queue) hspent
    rw [announce_keeps TransferTask.kind (fun _ _ => rfl)]
    exact hid.2
  | @flushed id transfer _ hid hspends hspent =>
    exact hreceive.spent hid (hkept.2 rfl (id, transfer) hspends) hd.queue hspent
  | announced hid _ => exact (hreceive.announce hid env.now).1

/-- When no flush signal spends a grant before the metadata is out: an upload attempt sends its
metadata once at most, under its own transfer id, and before its first chunk; it is out when all
the data is queued; and a download or a clear has none. -/
theorem metadata_once (md5 : Bytes → Bytes) (h : ReachableWhen (MetadataKept md5) s) :
    s.MetadataOnce := by
  refine Announced.once (Library.Reach.invariant (P := Announced) ?_ (fun t a hreach ht ha =>
    announced_step (wf_reachableWhen hreach) (dataWf_reachableWhen hreach) ha.1 ha.2 ht) h)
  rintro t ⟨tid, -, -, rfl⟩
  have hnone : ∀ id, ¬ (fresh tid).Uploading id := fun id hid => nomatch hid.1
  exact ⟨trivial, fun id hid => absurd hid (hnone id), fun id hid => absurd hid (hnone id),
    fun id hid => absurd hid (hnone id), fun id hid => nomatch hid⟩

/-- `upload` of bytes of one, without compression. -/
theorem macroPayload_made (md5 : Bytes → Bytes) (hmd5 : ∀ data, md5 data = []) {length : ℕ}
    (h : length < 2 ^ 63) : (macroPayload length).Made md5 := by
  refine ⟨false, false, ⟨List.replicate length 1, by rwa [List.length_replicate]⟩, none, none, ?_⟩
  simp [uploadPayload, macroPayload, hmd5]

/-- An upload that the flush signals follow. -/
def flushedUpload : List (Env × LaneEvent) :=
  [(⟨0, none⟩, .upload macroStore 0 (macroPayload 24)),
   (⟨1, none⟩, .fileTransferContinueData 43 8 2), (⟨2, none⟩, .queueFlushed),
   (⟨3, none⟩, .fileTransferContinueData 43 8 4), (⟨4, none⟩, .queueFlushed)]

theorem metadata_once_flushed : (Library.run step (fresh 42) flushedUpload).MetadataOnce := by
  have hmade : (macroPayload 24).Made fun _ => [] := macroPayload_made _ (fun _ => rfl) (by decide)
  have hok : Library.OkAlong step (fun s a => s.Possible a ∧ s.MetadataKept (fun _ => []) a)
      (fresh 42) flushedUpload :=
    ⟨⟨by decide, hmade, by decide⟩, ⟨by decide, trivial, by decide⟩,
      ⟨by decide, trivial, by decide⟩, ⟨by decide, trivial, by decide⟩,
      ⟨by decide, trivial, by decide⟩, trivial⟩
  exact metadata_once (fun _ => [])
    (Library.Reach.run (.start ⟨42, by decide, by decide, rfl⟩) flushedUpload hok)

/-- The late flush signal of one upload sends the chunks of the next one before its metadata. -/
theorem late_flush_before_metadata :
    ¬ ∀ s, ReachableWhen (fun _ a => a.2.PayloadMade fun _ => []) s → s.MetadataOnce := by
  intro h
  have hmade : ∀ n < 100, (macroPayload n).Made fun _ => [] := fun n hn =>
    macroPayload_made _ (fun _ => rfl) (by omega)
  have hok : Library.OkAlong step (fun s a => s.Possible a ∧ a.2.PayloadMade fun _ => [])
      (fresh 42) lateFlush :=
    ⟨⟨by decide, hmade 8 (by decide)⟩, ⟨by decide, trivial⟩, ⟨by decide, trivial⟩,
      ⟨by decide, hmade 24 (by decide)⟩, ⟨by decide, trivial⟩, trivial⟩
  have honce := h _ (Library.Reach.run (.start ⟨42, by decide, by decide, rfl⟩) lateFlush hok)
  exact absurd honce.log (by decide)

end Lane

end Bmdwire
