import Bmdwire.Library.Bounded
import Bmdwire.Library.Runs
import Bmdwire.Interface.UploadShown

/-!
# The chunks that reach the wire

`queue_packet` keeps the newest 1024 packets, and `_queue_chunks` queues all the chunks of a
grant before it drains any. A grant that cuts more loses the oldest of them; what a run sends
is all it cut, in order, exactly when no grant does (`chunks_sent_iff`).
-/

set_option autoImplicit false

namespace Bmdwire

open Library

namespace Upload

/-! ## A grant -/

/-- The chunks that a grant of `count` cuts from an offset on. -/
def chunksFrom (size : ℕ) (data : Bytes) : ℕ → ℕ → List Bytes
  | 0, _ => []
  | count + 1, offset =>
    if data.length ≤ offset then []
    else
      (Lane.cutChunk size data offset).1 ::
        chunksFrom size data count (offset + (Lane.cutChunk size data offset).2)

/-- The offset after so many chunks, or at the end of the data. -/
def offsetAfter (size : ℕ) (data : Bytes) : ℕ → ℕ → ℕ
  | 0, offset => offset
  | count + 1, offset =>
    if data.length ≤ offset then offset
    else offsetAfter size data count (offset + (Lane.cutChunk size data offset).2)

/-- A grant cuts no more chunks than `m` when it grants no more, or the data end by then. -/
theorem length_chunksFrom_le {size count offset : ℕ} {data : Bytes} (m : ℕ) :
    (chunksFrom size data count offset).length ≤ m ↔
      count ≤ m ∨ data.length ≤ offsetAfter size data m offset := by
  induction m generalizing count offset with
  | zero =>
    cases count with
    | zero => simp [chunksFrom]
    | succ count =>
      rw [chunksFrom, offsetAfter]
      split
      · simp_all
      · simp_all
  | succ m ih =>
    cases count with
    | zero => simp [chunksFrom]
    | succ count =>
      rw [chunksFrom, offsetAfter]
      split
      · simp_all
      · rw [List.length_cons, Nat.add_le_add_iff_right, ih, Nat.add_le_add_iff_right]

theorem cutChunk_le (size : ℕ) (data : Bytes) (start : ℕ) :
    (Lane.cutChunk size data start).2 ≤ size := by
  unfold Lane.cutChunk
  dsimp only
  split
  · exact Nat.sub_le ..
  · split
    · exact Nat.sub_le ..
    · exact Nat.le_refl _

theorem offsetAfter_le (size : ℕ) (data : Bytes) (m offset : ℕ) :
    offsetAfter size data m offset ≤ offset + m * size := by
  induction m generalizing offset with
  | zero => simp [offsetAfter]
  | succ m ih =>
    rw [offsetAfter]
    split
    · exact Nat.le_add_right ..
    · have hcut := cutChunk_le size data offset
      have hrest := ih (offset + (Lane.cutChunk size data offset).2)
      rw [Nat.succ_mul]
      omega

/-! ## The send queue -/

/-- The loop of `_queue_chunks`, from a queue that keeps the newest of `all`. -/
theorem cutChunks_spec (transfer size count : ℕ) {u : Upload} {all : List Bytes}
    (hqueue : u.sendQueue = all.rtake sendQueueMaxlen) :
    (u.cutChunks transfer size count).data = u.data ∧
      (u.cutChunks transfer size count).sent = u.sent ∧
      (u.cutChunks transfer size count).queued =
        u.queued ++ chunksFrom size u.data count u.offset ∧
      (u.cutChunks transfer size count).sendQueue =
        (all ++ chunksFrom size u.data count u.offset).rtake sendQueueMaxlen := by
  induction count generalizing u all with
  | zero => simp [cutChunks, chunksFrom, hqueue]
  | succ count ih =>
    unfold cutChunks
    rw [chunksFrom]
    split
    · simp [hqueue]
    · have hlen : u.sendQueue.length ≤ sendQueueMaxlen := by
        rw [hqueue, length_rtake]
        exact Nat.min_le_left ..
      have hpushed := push_eq_rtake (by decide) hlen (Lane.cutChunk size u.data u.offset).1
      rw [hqueue, rtake_append_rtake] at hpushed
      obtain ⟨hdata, hsent, hqueued, hkept⟩ := @ih (queuePacket
        (Lane.cutChunk size u.data u.offset).1 { u with
          offset := u.offset + (Lane.cutChunk size u.data u.offset).2
          budget := if count = 0 then .exhausted else .granted transfer size count })
        (all ++ [(Lane.cutChunk size u.data u.offset).1]) (by
          rw [← hpushed, ← hqueue]
          rfl)
      refine ⟨hdata, hsent, ?_, ?_⟩
      · rw [hqueued]
        simp [queuePacket]
      · rw [hkept]
        simp [queuePacket]

/-- `_queue_chunks` from an empty queue sends the newest of the chunks it cuts. -/
structure Sends (u v : Upload) (chunks : List Bytes) : Prop where
  queued : v.queued = u.queued ++ chunks
  sent : v.sent = u.sent ++ chunks.rtake sendQueueMaxlen
  empty : v.sendQueue = []

theorem drainQueue_spec (u : Upload) :
    u.drainQueue.queued = u.queued ∧ u.drainQueue.sent = u.sent ++ u.sendQueue ∧
      u.drainQueue.sendQueue = [] := by
  unfold drainQueue
  split
  · rename_i hnil
    exact ⟨rfl, by rw [hnil, List.append_nil], hnil⟩
  · exact ⟨rfl, by simp [sendFirst], by simp [sendFirst]⟩

theorem sends_nothing {u : Upload} (hempty : u.sendQueue = []) : Sends u u [] where
  queued := by simp
  sent := by simp
  empty := hempty

theorem sends_granted {u : Upload} (hempty : u.sendQueue = []) {transfer size count : ℕ}
    (hbudget : u.budget = .granted transfer size count) :
    Sends u u.queueChunks (chunksFrom size u.data count u.offset) := by
  obtain ⟨-, hsent, hqueued, hkept⟩ :=
    @cutChunks_spec transfer size count u [] (by rw [hempty, List.rtake_nil])
  obtain ⟨hdrained, hall, hnone⟩ := drainQueue_spec (u.cutChunks transfer size count)
  have heq : u.queueChunks = (u.cutChunks transfer size count).drainQueue := by
    rw [queueChunks, hbudget]
  rw [heq]
  constructor
  · rw [hdrained, hqueued]
  · rw [hall, hsent, hkept, List.nil_append]
  · exact hnone

/-- The chunks fit the send queue: no more are granted, or the data end by then. -/
def Fits (u : Upload) (size count : ℕ) : Prop :=
  count ≤ sendQueueMaxlen ∨ u.data.length ≤ offsetAfter size u.data sendQueueMaxlen u.offset

/-- What the budget that is left allows fits. -/
def BudgetFits (u : Upload) : TransferBudget → Prop
  | .initial | .exhausted => True
  | .granted _ size count => u.Fits size count

/-- An event that cuts no more chunks than the send queue holds. -/
def WithinQueue (u : Upload) : UploadEvent → Prop
  | .continueData _ size count => u.Fits (size / 8 * 8) count
  | .queueFlushed => u.BudgetFits u.budget
  | .queueTrigger _ _ | .drainQueue => True

theorem fits_iff {u : Upload} {size count : ℕ} :
    u.Fits size count ↔ (chunksFrom size u.data count u.offset).length ≤ sendQueueMaxlen :=
  (length_chunksFrom_le sendQueueMaxlen).symm

/-- An event sends the newest of the chunks it cuts, and they fit or do not. -/
theorem step_sends {u : Upload} (hempty : u.sendQueue = []) (e : UploadEvent) :
    ∃ chunks, Sends u (u.step e) chunks ∧
      (u.WithinQueue e ↔ chunks.length ≤ sendQueueMaxlen) := by
  cases e with
  | continueData transfer size count =>
    obtain ⟨hqueued, hsent, hnone⟩ := @sends_granted
      { u with budget := .granted transfer (size / 8 * 8) count } hempty _ _ _ rfl
    exact ⟨_, ⟨hqueued, hsent, hnone⟩, fits_iff⟩
  | queueFlushed =>
    unfold step WithinQueue
    dsimp only
    split
    · cases hbudget : u.budget with
      | initial =>
        rw [queueChunks, hbudget]
        exact ⟨[], sends_nothing hempty, by simp [BudgetFits]⟩
      | exhausted =>
        rw [queueChunks, hbudget]
        exact ⟨[], sends_nothing hempty, by simp [BudgetFits]⟩
      | granted transfer size count => exact ⟨_, sends_granted hempty hbudget, fits_iff⟩
    · rename_i hdone
      refine ⟨[], sends_nothing hempty, iff_of_true ?_ (Nat.zero_le _)⟩
      cases u.budget with
      | initial => trivial
      | exhausted => trivial
      | granted transfer size count =>
        right
        rw [show sendQueueMaxlen = 1023 + 1 from rfl, offsetAfter, if_pos (by omega)]
        omega
  | queueTrigger aggressive batchSize =>
    refine ⟨[], ?_, iff_of_true trivial (Nat.zero_le _)⟩
    unfold step queueTrigger
    dsimp only
    rw [if_neg (not_not.mpr hempty)]
    split
    · exact ⟨by simp, by simp, hempty⟩
    · exact sends_nothing hempty
  | drainQueue =>
    refine ⟨[], ?_, iff_of_true trivial (Nat.zero_le _)⟩
    unfold step drainQueue
    dsimp only
    rw [if_pos hempty]
    exact sends_nothing hempty

/-! ## Whole runs -/

/-- Once a chunk is lost, it is missing for good. -/
theorem short_step {u : Upload} (hempty : u.sendQueue = []) (hshort : u.sent.length < u.queued.length)
    (e : UploadEvent) :
    (u.step e).sendQueue = [] ∧ (u.step e).sent.length < (u.step e).queued.length := by
  obtain ⟨chunks, hsends, -⟩ := step_sends hempty e
  refine ⟨hsends.empty, ?_⟩
  rw [hsends.sent, hsends.queued, List.length_append, List.length_append, length_rtake]
  omega

theorem short_run {u : Upload} (hempty : u.sendQueue = []) (hshort : u.sent.length < u.queued.length)
    (es : List UploadEvent) :
    (run step u es).sent.length < (run step u es).queued.length := by
  induction es generalizing u with
  | nil => exact hshort
  | cons e es ih =>
    obtain ⟨hempty, hshort⟩ := short_step hempty hshort e
    exact ih hempty hshort

/-- What a run sends is all it cut, from a state where that holds, exactly when every event
cuts no more than the queue holds. -/
theorem sent_run_iff {u : Upload} (hempty : u.sendQueue = []) (hsent : u.sent = u.queued)
    (es : List UploadEvent) :
    (run step u es).sent = (run step u es).queued ↔ OkAlong step WithinQueue u es := by
  induction es generalizing u with
  | nil => exact iff_of_true hsent trivial
  | cons e es ih =>
    obtain ⟨chunks, hsends, hwithin⟩ := step_sends hempty e
    show (run step (u.step e) es).sent = (run step (u.step e) es).queued ↔
      u.WithinQueue e ∧ OkAlong step WithinQueue (u.step e) es
    by_cases hlen : chunks.length ≤ sendQueueMaxlen
    · have hall : (u.step e).sent = (u.step e).queued := by
        rw [hsends.sent, hsends.queued, rtake_of_length_le hlen, hsent]
      rw [ih hsends.empty hall]
      exact (and_iff_right (hwithin.mpr hlen)).symm
    · have hshort : (u.step e).sent.length < (u.step e).queued.length := by
        rw [hsends.sent, hsends.queued, List.length_append, List.length_append, length_rtake, hsent]
        omega
      have hfar := short_run hsends.empty hshort es
      constructor
      · intro heq
        rw [heq] at hfar
        exact absurd hfar (Nat.lt_irrefl _)
      · intro hok
        exact absurd (hwithin.mp hok.1) hlen

/-- The events that 16 bits of size and count can express. -/
def Expressible : UploadEvent → Prop
  | .continueData _ size count => size < 0x10000 ∧ count < 0x10000
  | .queueFlushed | .queueTrigger _ _ | .drainQueue => True

end Upload

end Bmdwire
