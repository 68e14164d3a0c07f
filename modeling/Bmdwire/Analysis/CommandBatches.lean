import Bmdwire.Program.Connection

/-!
# The batches of a drain

`_drain_cmd_queue` puts the commands that serialise and fit into batches, each of them a packet
no larger than the budget. `send_commands` has a larger limit of its own, so it refuses none of
them, and a command that is dropped is dropped before it is in a batch.
-/

set_option autoImplicit false

namespace Bmdwire

/-- The bytes of a command that serialises and fits the budget. -/
def Outgoing.fits (c : Outgoing) : Option Bytes :=
  c.getCommand.filter fun command => command.length ≤ drainBudget

/-- A batch of commands and their bytes. -/
def Renders (batch : List Outgoing) (parts : List Bytes) : Prop :=
  batch.mapM Outgoing.getCommand = some parts

theorem Renders.append {batch : List Outgoing} {parts : List Bytes} (h : Renders batch parts)
    {c : Outgoing} {command : Bytes} (hc : c.getCommand = some command) :
    Renders (batch ++ [c]) (parts ++ [command]) := by
  unfold Renders at *
  rw [List.mapM_append, h, List.mapM_cons, hc, List.mapM_nil]
  rfl

theorem Renders.eq_nil_iff {batch : List Outgoing} {parts : List Bytes}
    (h : Renders batch parts) : batch = [] ↔ parts = [] := by
  unfold Renders at h
  cases batch with
  | nil =>
    obtain rfl : [] = parts := by simpa using h
    simp
  | cons c batch =>
    rw [List.mapM_cons] at h
    obtain ⟨command, -, h⟩ := Option.bind_eq_some_iff.mp h
    obtain ⟨more, -, h⟩ := Option.bind_eq_some_iff.mp h
    obtain rfl : command :: more = parts := Option.some.inj h
    simp

/-- The chunks found so far come first. -/
theorem fillBatches_chunks (pending : List Outgoing) (chunks : List (List Outgoing))
    (batch : List Outgoing) (total : ℕ) :
    fillBatches pending chunks batch total = chunks ++ fillBatches pending [] batch total := by
  induction pending generalizing chunks batch total with
  | nil =>
    unfold fillBatches
    split
    · rw [List.append_nil]
    · rw [List.nil_append]
  | cons c pending ih =>
    unfold fillBatches
    cases c.getCommand with
    | none => exact ih chunks batch total
    | some command =>
      dsimp only
      split
      · exact ih chunks batch total
      · split
        · rw [ih (chunks ++ [batch]), ih ([] ++ [batch]), List.nil_append, List.append_assoc]
        · exact ih chunks (batch ++ [c]) _

/-- What the batches hold: packets within the budget, of the commands that are kept, in order. -/
structure Groups (kept : List Bytes) (batches : List (List Outgoing))
    (groups : List (List Bytes)) : Prop where
  renders : List.Forall₂ Renders batches groups
  flatten : groups.flatten = kept
  within : ∀ group ∈ groups, group ≠ [] ∧ group.flatten.length ≤ drainBudget

theorem Groups.cons {kept parts : List Bytes} {batch : List Outgoing}
    {batches : List (List Outgoing)} {groups : List (List Bytes)} (hbatch : Renders batch parts)
    (hne : batch ≠ []) (hwithin : parts.flatten.length ≤ drainBudget)
    (h : Groups kept batches groups) :
    Groups (parts ++ kept) (batch :: batches) (parts :: groups) where
  renders := .cons hbatch h.renders
  flatten := by rw [List.flatten_cons, h.flatten]
  within := by
    intro group hgroup
    rcases List.mem_cons.mp hgroup with rfl | hgroup
    · exact ⟨fun hnil => hne (hbatch.eq_nil_iff.mpr hnil), hwithin⟩
    · exact h.within group hgroup

/-- The loop, with a batch of this size being filled. -/
theorem fillBatches_groups (pending : List Outgoing) {batch : List Outgoing} {parts : List Bytes}
    {total : ℕ} (hbatch : Renders batch parts) (htotal : total = parts.flatten.length)
    (hwithin : total ≤ drainBudget) :
    ∃ groups, Groups (parts ++ pending.filterMap Outgoing.fits)
      (fillBatches pending [] batch total) groups := by
  induction pending generalizing batch parts total with
  | nil =>
    rw [fillBatches, List.filterMap_nil]
    by_cases hempty : batch = []
    · have hparts := hbatch.eq_nil_iff.mp hempty
      rw [if_pos hempty, hparts]
      exact ⟨[], .nil, rfl, by simp⟩
    · rw [if_neg hempty, List.nil_append]
      exact ⟨[parts], Groups.cons hbatch hempty (htotal ▸ hwithin) ⟨.nil, rfl, by simp⟩⟩
  | cons c pending ih =>
    rw [List.filterMap_cons]
    unfold fillBatches
    cases hc : c.getCommand with
    | none =>
      have hfits : c.fits = none := by rw [Outgoing.fits, hc, Option.filter_none]
      rw [hfits]
      exact ih hbatch htotal hwithin
    | some command =>
      dsimp only
      by_cases hlong : command.length > drainBudget
      · have hfits : c.fits = none := by
          rw [Outgoing.fits, hc, Option.filter_some, if_neg (by simpa using hlong)]
        rw [if_pos hlong, hfits]
        exact ih hbatch htotal hwithin
      · have hsmall := not_lt.mp hlong
        have hfits : c.fits = some command := by
          rw [Outgoing.fits, hc, Option.filter_some, if_pos (by simpa using hsmall)]
        rw [if_neg hlong, hfits]
        by_cases hflush : batch ≠ [] ∧ total + command.length > drainBudget
        · -- the command starts a batch of its own
          rw [if_pos hflush, fillBatches_chunks]
          obtain ⟨groups, hgroups⟩ := @ih [c] [command] command.length
            (@Renders.append [] [] rfl c command hc) (by simp) hsmall
          exact ⟨parts :: groups, Groups.cons hbatch hflush.1 (htotal ▸ hwithin) hgroups⟩
        · rw [if_neg hflush]
          obtain ⟨groups, hgroups⟩ := @ih (batch ++ [c]) (parts ++ [command])
            (total + command.length) (hbatch.append hc) (by simp [htotal]) (by
              by_cases hempty : batch = []
              · have hparts := hbatch.eq_nil_iff.mp hempty
                rw [htotal, hparts]
                simpa using hsmall
              · exact not_lt.mp fun hover => hflush ⟨hempty, hover⟩)
          rw [List.append_assoc] at hgroups
          exact ⟨groups, hgroups⟩

/-! ## Sending the batches -/

theorem sendBatch_sent (socket : Socket) (now : Time) {batch : List Outgoing}
    {parts : List Bytes} (h : Renders batch parts) (hwithin : parts.flatten.length ≤ drainBudget)
    (s : Udp) : sendBatch socket now batch s =
      { s with threadQueue := s.threadQueue ++ [rawPacket parts.flatten] } := by
  have hmax : ¬ parts.flatten.length > 1300 := by
    have hwithin : parts.flatten.length ≤ 1200 := hwithin
    omega
  have hsent : sendCommands batch = .sent parts.flatten := by
    unfold sendCommands
    rw [h]
    exact if_neg hmax
  rw [sendBatch, hsent]
  rfl

theorem sendBatches_sent (socket : Socket) (now : Time) {batches : List (List Outgoing)}
    {groups : List (List Bytes)} (h : List.Forall₂ Renders batches groups)
    (hwithin : ∀ group ∈ groups, group.flatten.length ≤ drainBudget) (s : Udp) :
    batches.foldl (fun s batch => sendBatch socket now batch s) s =
      { s with threadQueue :=
          s.threadQueue ++ groups.map fun group => rawPacket group.flatten } := by
  induction h generalizing s with
  | nil => simp
  | @cons batch group batches groups hbatch _ ih =>
    rw [List.foldl_cons, sendBatch_sent socket now hbatch (hwithin group List.mem_cons_self),
      ih fun g hg => hwithin g (List.mem_cons_of_mem _ hg)]
    simp

/-! ## The drain as the worker runs it -/

/-- `get_nowait` until the queue is empty. -/
theorem getNowait_run (socket : Socket) (aggressive : Bool) (c : ConnectionThreads)
    (queue pending : List Outgoing) :
    Library.run (ConnectionThreads.step socket aggressive)
        { c with cmdQueue := queue, worker := .draining pending }
        (List.replicate (queue.length + 1) .getNowait) =
      { c with cmdQueue := [], worker := .sending (pending ++ queue) } := by
  induction queue generalizing pending with
  | nil =>
    rw [List.append_nil]
    rfl
  | cons command queue ih =>
    rw [List.length_cons, List.replicate_succ]
    refine (ih (pending ++ [command])).trans ?_
    rw [List.append_assoc, List.singleton_append]

/-- When nothing is put on the queue meanwhile, the steps of the worker are `_drain_cmd_queue`. -/
theorem drain_run (socket : Socket) (aggressive : Bool) (now : Time) (c : ConnectionThreads)
    {s : Udp} (htransport : c.transport = some s) (hworker : c.worker = .draining []) :
    Library.run (ConnectionThreads.step socket aggressive) c
        (List.replicate (c.cmdQueue.length + 1) .getNowait ++ [.sendPending now]) =
      { c.drainCmdQueue socket now with worker := .resting } := by
  have hrun := getNowait_run socket aggressive c c.cmdQueue []
  have hself : { c with cmdQueue := c.cmdQueue, worker := .draining [] } = c := by
    rw [← hworker]
  rw [hself] at hrun
  unfold Library.run at hrun ⊢
  rw [List.foldl_append, hrun, ConnectionThreads.drainCmdQueue, htransport]
  rfl

/-- A drain takes every command off the queue, and sends those that serialise and fit the
budget: each of them once, in the order of the queue, in packets within the budget. -/
theorem drainCmdQueue_sends (socket : Socket) (now : Time) (queue : List Outgoing) (s : Udp)
    (c : ConnectionThreads) :
    ∃ groups : List (List Bytes),
      groups.flatten = queue.filterMap Outgoing.fits ∧
      (∀ group ∈ groups, group ≠ [] ∧ group.flatten.length ≤ drainBudget) ∧
      { c with cmdQueue := queue, transport := some s }.drainCmdQueue socket now =
        { c with
          cmdQueue := []
          transport := some { s with threadQueue :=
            s.threadQueue ++ groups.map fun group => rawPacket group.flatten } } := by
  obtain ⟨groups, hgroups⟩ := @fillBatches_groups queue [] [] 0 rfl rfl (Nat.zero_le _)
  refine ⟨groups, hgroups.flatten, hgroups.within, ?_⟩
  have hsent := sendBatches_sent socket now hgroups.renders
    (fun group hgroup => (hgroups.within group hgroup).2) s
  unfold ConnectionThreads.drainCmdQueue sendPending
  dsimp only
  rw [hsent]

end Bmdwire
