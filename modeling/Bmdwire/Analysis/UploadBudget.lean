import Bmdwire.Analysis.UploadSteps

/-!
# The chunks an upload may send

The budget is the lane's, not the upload's: FTCD overwrites it whatever transfer it names, and
no request resets it. As long as every chunk is spent from a grant under its own transfer id
(`SpendsOwn`), the chunks sent, queued and still to spend under an id are covered by its grants
(`Solvent`), so that no more are sent than were granted (`chunks_within_grants`).
-/

set_option autoImplicit false

namespace Bmdwire

/-- The transfer id an FTDa is sent under. -/
def Act.chunkUnder? : Act → Option ℕ
  | .send _ (.transferData transfer _) => some transfer
  | _ => none

/-- The FTDa sent under a transfer id. -/
def chunksUnder (transfer : ℕ) (log : List Act) : ℕ :=
  log.countP fun a => a.chunkUnder? = some transfer

/-- The chunks that an FTCD grants to a transfer id. -/
def Act.allowance (transfer : ℕ) : Act → ℕ
  | .recv _ (.fileTransferContinueData x _ count) => if x = transfer then count else 0
  | _ => 0

/-- The chunks granted by all FTCDs that carry a transfer id. -/
def allowed (transfer : ℕ) (log : List Act) : ℕ := (log.map (Act.allowance transfer)).sum

theorem Act.no_chunk {a : Act} (h : a.uploads = false) (transfer : ℕ) :
    a.chunkUnder? ≠ some transfer ∧ a.allowance transfer = 0 := by
  cases a with
  | recv now e => cases e <;> simp_all [Act.uploads, Act.chunkUnder?, Act.allowance]
  | send now c =>
    cases c <;> simp_all [Act.uploads, Act.moving, Act.chunkUnder?, Act.allowance]
  | notice n => exact ⟨nofun, rfl⟩
  | throw e => exact ⟨nofun, rfl⟩

theorem chunksUnder_append (transfer : ℕ) (new log : List Act) :
    chunksUnder transfer (new ++ log) = chunksUnder transfer new + chunksUnder transfer log :=
  List.countP_append

theorem allowed_append (transfer : ℕ) (new log : List Act) :
    allowed transfer (new ++ log) = allowed transfer new + allowed transfer log := by
  simp [allowed]

namespace Lane

/-- The chunks left of a grant to a transfer id. -/
def left (transfer : ℕ) : TransferBudget → ℕ
  | .granted x _ count => if x = transfer then count else 0
  | _ => 0

/-- The chunks queued for a transfer id. -/
def queuedUnder (transfer : ℕ) (s : Lane) : ℕ := s.sendQueue.countP fun packet => packet.1 = transfer

/-- What was sent, is queued and is left to spend under an id, was granted to it. -/
def Solvent (s : Lane) : Prop := ∀ transfer,
  chunksUnder transfer s.log + s.queuedUnder transfer + left transfer s.transferBudget ≤
    allowed transfer s.log

/-- The chunks the event sends are spent from a grant under the upload's own transfer id. -/
def SpendsOwn (s : Lane) (a : Env × LaneEvent) : Prop :=
  ∀ r ∈ s.spends a.2, (s.tasks r.1).tid = some r.2

instance SpendsOwn.decidable (s : Lane) (a : Env × LaneEvent) : Decidable (s.SpendsOwn a) :=
  inferInstanceAs (Decidable (∀ r ∈ s.spends a.2, (s.tasks r.1).tid = some r.2))

variable {now : Time} {s t : Lane} {id : TaskId}

/-- Entries that neither spend nor grant keep the lane solvent. -/
theorem Solvent.extend {new : List Act} (h : s.Solvent)
    (hbudget : t.transferBudget = s.transferBudget) (hqueue : t.sendQueue = s.sendQueue)
    (hlog : t.log = new ++ s.log) (hnew : ∀ a ∈ new, ∀ transfer,
      a.chunkUnder? ≠ some transfer ∧ a.allowance transfer = 0) : t.Solvent := by
  intro transfer
  have hchunks : chunksUnder transfer new = 0 := by
    rw [chunksUnder, List.countP_eq_zero]
    intro a ha
    simpa using (hnew a ha transfer).1
  have hallowed : allowed transfer new = 0 := by
    apply List.sum_eq_zero
    intro n hn
    obtain ⟨a, ha, rfl⟩ := List.mem_map.mp hn
    exact (hnew a ha transfer).2
  have hs := h transfer
  rw [hlog, chunksUnder_append, allowed_append, hchunks, hallowed, queuedUnder, hqueue, hbudget]
  rw [queuedUnder] at hs
  omega

theorem Solvent.same (h : s.Solvent) (hsame : s.SameUploads t) : t.Solvent := by
  obtain ⟨new, hlog, hnew⟩ := hsame.log
  exact h.extend hsame.transferBudget hsame.sendQueue hlog
    fun a ha transfer => Act.no_chunk (hnew a ha) transfer

theorem solvent_dataMove {e : LaneEvent} (hm : DataMove now e s t) (h : s.Solvent) : t.Solvent := by
  cases hm with
  | unmoved hs => exact h.same hs.sameUploads
  | enqueue _ => exact h
  | @request id retry _ _ =>
    by_cases hk : (s.tasks id).kind = .upload
    · obtain ⟨mode, heq⟩ := @requestTransfer_upload now _ _ retry hk
      rw [heq]
      refine h.extend rfl rfl (List.append_cons ..) fun a ha transfer => ?_
      rcases List.mem_append.mp ha with ha | ha
      · split at ha
        · rw [List.mem_singleton.mp ha]
          exact ⟨nofun, rfl⟩
        · cases ha
      · rw [List.mem_singleton.mp ha]
        exact ⟨nofun, rfl⟩
    · rw [requestTransfer_download retry hk]
      refine @Solvent.extend _ _ [_] h rfl rfl rfl fun a ha transfer => ?_
      rw [List.mem_singleton.mp ha]
      exact ⟨nofun, rfl⟩

/-- An FTCD puts its own grant in the place of what was left. -/
theorem Solvent.grant (h : s.Solvent) (env : Env) (transfer size count : ℕ) :
    ((s.receive env (.fileTransferContinueData transfer size count)).grant transfer size
      count).Solvent := by
  intro x
  have hs := h x
  have hlog : allowed x (s.receive env (.fileTransferContinueData transfer size count)).log =
      (if transfer = x then count else 0) + allowed x s.log := List.sum_cons ..
  have hchunks : chunksUnder x (s.receive env
      (.fileTransferContinueData transfer size count)).log = chunksUnder x s.log := by
    rw [receive, chunksUnder, List.countP_cons_of_neg (by simp [Act.chunkUnder?])]
    rfl
  show chunksUnder x (s.receive env _).log + s.queuedUnder x +
    (if transfer = x then count else 0) ≤ allowed x (s.receive env _).log
  rw [hlog, hchunks]
  omega

theorem Solvent.announce (h : s.Solvent) (now : Time) (id : TaskId) :
    (s.announce now id).Solvent := by
  unfold Lane.announce
  split
  · exact h
  · refine @Solvent.extend _ _ [_] h rfl rfl rfl fun a ha transfer => ?_
    rw [List.mem_singleton.mp ha]
    exact ⟨nofun, rfl⟩

/-- A packet queued under an id; a full queue loses one of some id. -/
theorem queuedUnder_queuePacket (x transfer : ℕ) (chunk : Bytes) :
    (s.queuePacket transfer chunk).queuedUnder x ≤
      s.queuedUnder x + if transfer = x then 1 else 0 := by
  have htail : (s.sendQueue.tail).countP (fun packet => packet.1 = x) ≤ s.queuedUnder x :=
    s.sendQueue.tail_sublist.countP_le
  unfold queuePacket queuedUnder
  rw [List.countP_append, List.countP_singleton]
  have hone : (if decide (transfer = x) = true then 1 else 0) = if transfer = x then 1 else 0 := by
    simp
  dsimp only
  rw [hone]
  split
  · exact Nat.add_le_add_right htail _
  · exact le_rfl

/-- A chunk cut goes from the grant into the queue, unless the queue is full. -/
theorem Solvent.cutNext {transfer size count : ℕ} (h : s.Solvent)
    (hbudget : s.transferBudget = .granted transfer size (count + 1))
    (htid : (s.tasks id).tid = some transfer) : (s.cutNext id transfer size count).Solvent := by
  intro x
  have hs := h x
  rw [hbudget] at hs
  have hqueued : (s.cutNext id transfer size count).queuedUnder x ≤
      s.queuedUnder x + if transfer = x then 1 else 0 := by
    unfold Lane.cutNext
    dsimp only
    rw [htid]
    exact queuedUnder_queuePacket x transfer _
  have hleft : left x (s.cutNext id transfer size count).transferBudget =
      if transfer = x then count else 0 := by
    show left x (if count = 0 then _ else _) = _
    split
    · rename_i hzero
      rw [hzero, ite_self]
      rfl
    · rfl
  have hlog : (s.cutNext id transfer size count).log = s.log := rfl
  rw [hleft, hlog]
  rw [left] at hs
  split at hs
  · rename_i hx
    rw [if_pos hx] at hqueued ⊢
    omega
  · rename_i hx
    rw [if_neg hx] at hqueued ⊢
    omega

/-- A chunk sent goes from the queue into the log. -/
theorem Solvent.sendNext {transfer : ℕ} {chunk : Bytes} {rest : List (ℕ × Bytes)} (h : s.Solvent)
    (htransfer : s.transfer = some id) (hqueue : s.sendQueue = (transfer, chunk) :: rest) :
    (s.sendNext now transfer chunk rest).Solvent := by
  intro x
  have hs := h x
  rw [queuedUnder, hqueue, List.countP_cons] at hs
  have heq := sendNext_eq htransfer now transfer chunk rest
  rw [heq]
  show chunksUnder x (.notice _ :: .send now (.transferData transfer chunk) :: s.log) +
    rest.countP (fun packet => packet.1 = x) + left x s.transferBudget ≤
      allowed x (.notice _ :: .send now (.transferData transfer chunk) :: s.log)
  have hchunks : chunksUnder x (.notice (.uploadProgress id (s.tasks id).store (s.tasks id).slot
      ((s.tasks id).sendDone + (8 + chunk.length)) (s.tasks id).sendLength) ::
        .send now (.transferData transfer chunk) :: s.log) =
      chunksUnder x s.log + if transfer = x then 1 else 0 := by
    simp [chunksUnder, List.countP_cons, Act.chunkUnder?]
  have hallowed : allowed x (.notice (.uploadProgress id (s.tasks id).store (s.tasks id).slot
      ((s.tasks id).sendDone + (8 + chunk.length)) (s.tasks id).sendLength) ::
        .send now (.transferData transfer chunk) :: s.log) = allowed x s.log := by
    simp [allowed, Act.allowance]
  rw [hchunks, hallowed]
  simp only [decide_eq_true_eq] at hs
  omega

/-- Chunks spent from a grant under the upload's own id. -/
theorem Solvent.spent {transfer : ℕ} (h : s.Solvent) (htid : (s.tasks id).tid = some transfer)
    (hbudget : ∀ x size count, s.transferBudget = .granted x size count → x = transfer)
    (hspent : Spent now id s t) : t.Solvent := by
  have hkeep := hspent.moves.keep (P := fun t => t.Solvent ∧ (t.tasks id).tid = some transfer ∧
    ∀ x size count, t.transferBudget = .granted x size count → x = transfer) ?_ ⟨h, htid, hbudget⟩
  · exact hkeep.1
  · rintro u v hm ⟨hu, htid, hbudget⟩
    cases hm with
    | @cut x size count _ _ hgrant _ =>
      obtain rfl := hbudget x size (count + 1) hgrant
      refine ⟨hu.cutNext hgrant htid, ?_, fun y size' count' hy => ?_⟩
      · exact (cutNext_keeps TransferTask.tid (fun _ _ => rfl) ..).trans htid
      · change (if count = 0 then _ else _) = _ at hy
        split at hy
        · cases hy
        · cases hy
          rfl
    | send htransfer _ hqueue =>
      refine ⟨hu.sendNext htransfer hqueue, ?_, ?_⟩
      · exact (sendNext_keeps htransfer TransferTask.tid (fun _ _ => rfl) ..).trans htid
      · rw [sendNext_eq htransfer]
        exact hbudget

/-- A step that spends from the upload's own grants keeps the lane solvent. -/
theorem solvent_step {a : Env × LaneEvent} (hwf : s.Wf) (hd : s.DataWf) (hposs : s.Possible a)
    (hown : s.SpendsOwn a) (h : s.Solvent) : (s.step a).Solvent := by
  have hstep := step_uploads hwf hd hposs
  have hspends : (s.receive a.1 a.2).spends a.2 = s.spends a.2 := rfl
  generalize s.step a = t at hstep
  obtain ⟨env, e⟩ := a
  have hreceive : (∀ transfer size count, e ≠ .fileTransferContinueData transfer size count) →
      (s.receive env e).Solvent := by
    intro hne
    refine @Solvent.extend _ _ [.recv env.now e] h rfl rfl rfl fun a ha transfer => ?_
    rw [List.mem_singleton.mp ha]
    refine ⟨nofun, ?_⟩
    cases e with
    | fileTransferContinueData x size count => exact absurd rfl (hne x size count)
    | _ => rfl
  cases hstep with
  | moves hdata hmoves =>
    refine hmoves.keep (fun u v hm hu => solvent_dataMove hm hu) (hreceive fun _ _ _ he => ?_)
    rw [he] at hdata
    cases hdata
  | same hne _ hsame => exact (hreceive hne).same hsame
  | @granted transfer size count _ => exact h.grant env transfer size count
  | @continued id transfer size count _ _ =>
    exact (h.grant env transfer size count).announce env.now id
  | @spent id transfer size count _ _ hsome hspent =>
    have hsame := announce_same env.now id ((s.receive env
      (.fileTransferContinueData transfer size count)).grant transfer size count)
    have htid := hown (id, transfer) hsome
    refine @Solvent.spent env.now _ t id transfer
      ((h.grant env transfer size count).announce env.now id) ?_ (fun x size' count' hx => ?_)
      hspent
    · rw [announce_keeps TransferTask.tid (fun _ _ => rfl)]
      exact htid
    · rw [hsame.2.1] at hx
      cases hx
      rfl
  | @flushed id transfer _ _ hsome hspent =>
    refine (hreceive fun _ _ _ => by simp).spent (hown (id, transfer) hsome)
      (fun x size count hx => ?_) hspent
    exact (spends_flushed hsome hx).symm
  | @announced id _ _ => exact (hreceive fun _ _ _ => by simp).announce env.now id

/-- When every chunk is spent from a grant under the upload's own transfer id, no more are sent
under an id than were granted to it. -/
theorem chunks_within_grants (h : ReachableWhen SpendsOwn s) (transfer : ℕ) :
    chunksUnder transfer s.log ≤ allowed transfer s.log := by
  have hsolvent : s.Solvent := by
    refine Library.Reach.invariant ?_ (fun t a hreach ht ha =>
      solvent_step (wf_reachableWhen hreach) (dataWf_reachableWhen hreach) ha.1 ha.2 ht) h
    rintro t ⟨tid, -, -, rfl⟩ x
    exact le_rfl
  have := hsolvent transfer
  omega

/-- An upload of 24 bytes in two grants. -/
def twoGrants : List (Env × LaneEvent) :=
  [(⟨0, none⟩, .upload macroStore 0 (macroPayload 24)),
   (⟨1, none⟩, .fileTransferContinueData 43 8 2), (⟨2, none⟩, .queueFlushed),
   (⟨3, none⟩, .fileTransferContinueData 43 8 1)]

theorem chunks_within_grants_two :
    chunksUnder 43 (Library.run step (fresh 42) twoGrants).log ≤
      allowed 43 (Library.run step (fresh 42) twoGrants).log :=
  chunks_within_grants (Library.Reach.run (.start ⟨42, by decide, by decide, rfl⟩) twoGrants
    (by decide)) 43

/-- The second upload sends three chunks without any grant of its own. -/
theorem late_flush_spends :
    ¬ ∀ s, Reachable s → ∀ transfer, chunksUnder transfer s.log ≤ allowed transfer s.log := by
  intro h
  have hreach : Reachable (Library.run step (fresh 42) lateFlush) :=
    Library.Reach.run (.start ⟨42, by decide, by decide, rfl⟩) lateFlush (by decide)
  exact absurd (h _ hreach 44) (by decide)

end Lane

end Bmdwire
