import Bmdwire.Analysis.DecodeRefinement
import Bmdwire.Program.Upload

/-!
# Cutting an upload into chunks

What `rle_encode` writes is `Tripled`: every header has its count and its value after it, and
neither looks like a header. A cut that would fall behind a header, or behind its count, is
moved before the header, so both sides of it are `Tripled` again. The chunks queued so far are
therefore lists of whole words and triples that decode each on its own
(`chunks_lossless`).
-/

set_option autoImplicit false

namespace Bmdwire

/-! ## Words in triples -/

/-- Every header is followed by a count and a value, neither of them a header. -/
inductive Tripled : List Word → Prop
  | nil : Tripled []
  | literal {w : Word} {ws : List Word} : w ≠ rleHeader → Tripled ws → Tripled (w :: ws)
  | run {count value : Word} {ws : List Word} : count ≠ rleHeader → value ≠ rleHeader →
      Tripled ws → Tripled (rleHeader :: count :: value :: ws)

theorem Tripled.append {ws vs : List Word} (h : Tripled ws) (h' : Tripled vs) :
    Tripled (ws ++ vs) := by
  induction h with
  | nil => exact h'
  | literal hw _ ih => exact .literal hw ih
  | run hcount hvalue _ ih => exact .run hcount hvalue ih

theorem tripled_literals {ws : List Word} (h : ∀ w ∈ ws, w ≠ rleHeader) : Tripled ws := by
  induction ws with
  | nil => exact .nil
  | cons w ws ih =>
    exact .literal (h w (List.mem_cons_self ..)) (ih fun v hv => h v (List.mem_cons_of_mem w hv))

/-- What follows a header. -/
theorem Tripled.after {ws : List Word} (h : Tripled ws) {i : ℕ} (hi : ws[i]? = some rleHeader) :
    ∃ count value, ws[i + 1]? = some count ∧ count ≠ rleHeader ∧
      ws[i + 2]? = some value ∧ value ≠ rleHeader := by
  induction h generalizing i with
  | nil => simp at hi
  | literal hw _ ih =>
    cases i with
    | zero => exact absurd (Option.some.inj hi) hw
    | succ i => exact ih hi
  | @run count value _ hcount hvalue _ ih =>
    rcases i with _ | _ | _ | i
    · exact ⟨count, value, rfl, hcount, rfl, hvalue⟩
    · exact absurd (Option.some.inj hi) hcount
    · exact absurd (Option.some.inj hi) hvalue
    · exact ih hi

/-- A place between two words is outside the triples, or behind a header, or behind the count
of one. -/
theorem Tripled.split {ws : List Word} (h : Tripled ws) (j : ℕ) :
    (Tripled (ws.take j) ∧ Tripled (ws.drop j)) ∨
      (∃ i, j = i + 1 ∧ ws[i]? = some rleHeader) ∨ ∃ i, j = i + 2 ∧ ws[i]? = some rleHeader := by
  induction h generalizing j with
  | nil =>
    left
    simp only [List.take_nil, List.drop_nil]
    exact ⟨.nil, .nil⟩
  | @literal w ws hw hrest ih =>
    cases j with
    | zero => exact .inl ⟨.nil, .literal hw hrest⟩
    | succ j =>
      rcases ih j with ⟨htake, hdrop⟩ | ⟨i, rfl, hi⟩ | ⟨i, rfl, hi⟩
      · exact .inl ⟨.literal hw htake, hdrop⟩
      · exact .inr (.inl ⟨i + 1, rfl, hi⟩)
      · exact .inr (.inr ⟨i + 1, rfl, hi⟩)
  | @run count value ws hcount hvalue hrest ih =>
    rcases j with _ | _ | _ | j
    · exact .inl ⟨.nil, .run hcount hvalue hrest⟩
    · exact .inr (.inl ⟨0, rfl, rfl⟩)
    · exact .inr (.inr ⟨0, rfl, rfl⟩)
    · rcases ih j with ⟨htake, hdrop⟩ | ⟨i, rfl, hi⟩ | ⟨i, rfl, hi⟩
      · exact .inl ⟨.run hcount hvalue htake, hdrop⟩
      · exact .inr (.inl ⟨i + 3, rfl, hi⟩)
      · exact .inr (.inr ⟨i + 3, rfl, hi⟩)

/-- Triples decode before what follows them, and apart from it. -/
theorem Tripled.decodeWords_append {ws : List Word} (h : Tripled ws) (vs : List Word) :
    decodeWords (ws ++ vs) =
      (decodeWords ws).bind fun first => (decodeWords vs).map (first ++ ·) := by
  induction h with
  | nil =>
    rw [List.nil_append]
    simp [decodeWords]
  | literal hw _ ih =>
    rw [List.cons_append, decodeWords_literal hw, decodeWords_literal hw, ih]
    cases decodeWords _ with
    | none => rfl
    | some first =>
      rw [Option.bind_some, Option.map_map, Option.map_some, Option.bind_some]
      simp only [Function.comp_def, List.append_assoc]
  | @run count value ws _ _ _ ih =>
    have hrun : ∀ tail, decodeWords (rleHeader :: count :: value :: tail) =
        (repeatBytes value (bigEndian count)).bind fun run =>
          (decodeWords tail).map (run ++ ·) := by
      intro tail
      rw [decodeWords, if_pos rfl]
      cases repeatBytes value (bigEndian count) with
      | none => rfl
      | some run => rfl
    rw [List.cons_append, List.cons_append, List.cons_append, hrun, hrun, ih]
    cases repeatBytes value (bigEndian count) with
    | none => rfl
    | some run =>
      rw [Option.bind_some, Option.bind_some]
      cases decodeWords ws with
      | none => rfl
      | some first =>
        rw [Option.bind_some, Option.map_map, Option.map_some, Option.bind_some]
        simp only [Function.comp_def, List.append_assoc]

/-! ## The encoder's words -/

/-- A count of the encoder does not look like a header. -/
theorem beputu64_ne_header {c : ℕ} (h : c < 2 ^ 63) : beputu64 c ≠ rleHeader := by
  intro heq
  have hread := @bigEndian_beputu64 c (by omega)
  have hheader : bigEndian rleHeader = 0xFEFEFEFEFEFEFEFE := by decide
  rw [heq, hheader] at hread
  omega

theorem tripled_flushRun {word : Word} (h : word ≠ rleHeader) {c : ℕ} (hc : c < 2 ^ 63) :
    Tripled (flushRun c word) := by
  unfold flushRun
  split
  · exact .run (beputu64_ne_header hc) h .nil
  · apply tripled_literals
    intro w hw
    rw [List.eq_of_mem_replicate hw]
    exact h

/-- The loop of the encoder adds triples and literals only. -/
theorem encodeFrom_tripled {len i c : ℕ} {rest buf out : List Word} {before : Word}
    (h : encodeFrom len rest i before c buf = .ok out) (hbuf : Tripled buf)
    (hbefore : before ≠ rleHeader) (hc : c + rest.length < 2 ^ 63) : Tripled out := by
  induction rest generalizing i c before buf with
  | nil =>
    obtain rfl := Except.ok.inj h
    exact hbuf.append (tripled_flushRun hbefore (by simpa using hc))
  | cons word rest ih =>
    simp only [List.length_cons] at hc
    unfold encodeFrom at h
    by_cases hword : word = rleHeader
    · rw [if_pos hword] at h
      cases h
    · rw [if_neg hword] at h
      dsimp only at h
      by_cases hrepeat : i ≠ 0 ∧ before = word
      · rw [if_pos hrepeat] at h
        split at h
        · exact ih h hbuf hword (by omega)
        · have hflush := tripled_flushRun hbefore (c := c + 1) (by omega)
          exact ih h ((hbuf.append hflush).append (.literal hword .nil)) hword (by omega)
      · rw [if_neg hrepeat, if_neg (fun hnot => hrepeat hnot.1)] at h
        have hflush := tripled_flushRun hbefore (c := c) (by omega)
        exact ih h ((hbuf.append hflush).append (.literal hword .nil)) hword (by omega)

/-- What `rle_encode` writes: whole words in triples that decode to its input. -/
theorem rleEncode_words {input : ByteString} {out : Bytes} (h : rleEncode input = .ok out) :
    ∃ ws, Whole ws ∧ Tripled ws ∧ ws.flatten = out ∧ decodeWords ws = some input.data := by
  have hlt := input.length_lt
  unfold rleEncode at h
  dsimp only at h
  by_cases h8 : input.data.length % 8 = 0
  · have hlen := length_words h8
    rw [if_neg (not_not.mpr h8)] at h
    split at h
    · rename_i h0
      obtain rfl := Except.ok.inj h
      rw [List.length_eq_zero_iff] at h0
      exact ⟨[], by simp [Whole], .nil, rfl, by rw [h0]; rfl⟩
    · by_cases hfree : rleHeader ∈ words input.data
      · rw [encodeFrom_reserved _ _ _ _ _ _ hfree] at h
        cases h
      · obtain ⟨ws, hws, hwhole, -, hdecode⟩ :=
          encodeFrom_words input.data.length (words input.data) (by omega) (by omega)
            (whole_words _) hfree
        have htripled := encodeFrom_tripled hws .nil (by decide) (by omega)
        rw [hws] at h
        rw [flatten_words h8] at hdecode
        exact ⟨ws, hwhole, htripled, Except.ok.inj h, hdecode⟩
  · rw [if_pos h8] at h
    cases h

/-! ## One cut -/

/-- Where the words of a chunk of `n` words end: before a header among its last two. -/
def cutWords (n : ℕ) (ws : List Word) : ℕ :=
  if (ws.take n).getLast? = some rleHeader then n - 1
  else if (ws.take n).dropLast.getLast? = some rleHeader then n - 2
  else n

/-- The two words after a header are there, and are no headers. -/
theorem Tripled.not_header {ws : List Word} (h : Tripled ws) {i j : ℕ}
    (hi : ws[i]? = some rleHeader) (hj : j = i + 1 ∨ j = i + 2) :
    j < ws.length ∧ ws[j]? ≠ some rleHeader := by
  obtain ⟨count, value, hcount, hne, hvalue, hne'⟩ := h.after hi
  rcases hj with rfl | rfl
  · refine ⟨(List.getElem?_eq_some_iff.mp hcount).1, ?_⟩
    rw [hcount]
    exact fun heq => hne (Option.some.inj heq)
  · refine ⟨(List.getElem?_eq_some_iff.mp hvalue).1, ?_⟩
    rw [hvalue]
    exact fun heq => hne' (Option.some.inj heq)

/-- A chunk that ends with a header is a full one. -/
theorem Tripled.getLast?_take {ws : List Word} (h : Tripled ws) {n : ℕ} (hn : 0 < n) :
    (ws.take n).getLast? = some rleHeader ↔ ws[n - 1]? = some rleHeader := by
  rw [List.getLast?_eq_getElem?, List.length_take, List.getElem?_take]
  constructor
  · intro hlast
    rw [Option.ite_none_right_eq_some] at hlast
    have hfar := (h.not_header hlast.2 (.inr rfl)).1
    rw [show n - 1 = min n ws.length - 1 by omega]
    exact hlast.2
  · intro hlast
    have hlt := (List.getElem?_eq_some_iff.mp hlast).1
    rw [show min n ws.length - 1 = n - 1 by omega, if_pos (by omega)]
    exact hlast

/-- So is one whose last word but one is a header. -/
theorem Tripled.getLast?_dropLast_take {ws : List Word} (h : Tripled ws) {n : ℕ} (hn : 2 ≤ n) :
    (ws.take n).dropLast.getLast? = some rleHeader ↔ ws[n - 2]? = some rleHeader := by
  have hdrop : (ws.take n).dropLast = ws.take (min n ws.length - 1) := by
    rw [List.dropLast_eq_take, List.length_take, List.take_take]
    congr 1
    omega
  rw [hdrop, List.getLast?_eq_getElem?, List.length_take, List.getElem?_take]
  constructor
  · intro hlast
    rw [Option.ite_none_right_eq_some] at hlast
    have hfar := (h.not_header hlast.2 (.inr rfl)).1
    rw [show n - 2 = min (min n ws.length - 1) ws.length - 1 by omega]
    exact hlast.2
  · intro hlast
    have hfar := (h.not_header hlast (.inl rfl)).1
    rw [show min (min n ws.length - 1) ws.length - 1 = n - 2 by omega, if_pos (by omega)]
    exact hlast

/-- The cut falls outside the triples. -/
theorem Tripled.cut {ws : List Word} (h : Tripled ws) {n : ℕ} (hn : 3 ≤ n) :
    Tripled (ws.take (cutWords n ws)) ∧ Tripled (ws.drop (cutWords n ws)) := by
  unfold cutWords
  split
  · -- behind a header: one word back there is no header in sight
    rename_i hlast
    rw [h.getLast?_take (by omega)] at hlast
    rcases h.split (n - 1) with hsplit | ⟨i, hi, hat⟩ | ⟨i, hi, hat⟩
    · exact hsplit
    · exact absurd hlast (h.not_header hat (.inl hi)).2
    · exact absurd hlast (h.not_header hat (.inr hi)).2
  · rename_i hlast
    rw [h.getLast?_take (by omega)] at hlast
    split
    · rename_i hprev
      rw [h.getLast?_dropLast_take (by omega)] at hprev
      rcases h.split (n - 2) with hsplit | ⟨i, hi, hat⟩ | ⟨i, hi, hat⟩
      · exact hsplit
      · exact absurd hprev (h.not_header hat (.inl hi)).2
      · exact absurd hprev (h.not_header hat (.inr hi)).2
    · rename_i hprev
      rw [h.getLast?_dropLast_take (by omega)] at hprev
      rcases h.split n with hsplit | ⟨i, rfl, hat⟩ | ⟨i, rfl, hat⟩
      · exact hsplit
      · exact absurd hat hlast
      · exact absurd hat hprev

theorem cutWords_pos (ws : List Word) {n : ℕ} (hn : 3 ≤ n) : 0 < cutWords n ws := by
  unfold cutWords
  split
  · omega
  · split <;> omega

/-! ## The cut on bytes -/

/-- The first words of an input. -/
theorem take_flatten_words {ws : List Word} (h : Whole ws) (n : ℕ) :
    ws.flatten.take (8 * n) = (ws.take n).flatten := by
  have hlen : (ws.take n).flatten.length = 8 * min n ws.length := by
    rw [length_flatten_of_whole fun w hw => h w (List.mem_of_mem_take hw), List.length_take]
  have hall := length_flatten_of_whole h
  conv_lhs => rw [← List.take_append_drop n ws, List.flatten_append]
  rcases Nat.le_total n ws.length with hle | hle
  · rw [List.take_append_of_le_length (by omega), List.take_of_length_le (by omega)]
  · rw [List.drop_eq_nil_of_le hle, List.flatten_nil, List.append_nil,
      List.take_of_length_le (by omega)]

/-- The last eight bytes of whole words are their last word. -/
theorem lastWord_eq_header {ws : List Word} (h : Whole ws) :
    ws.flatten.drop (ws.flatten.length - 8) = rleHeader ↔ ws.getLast? = some rleHeader := by
  rcases List.eq_nil_or_concat ws with rfl | ⟨init, w, rfl⟩
  · simp [rleHeader]
  · rw [List.concat_eq_append] at h ⊢
    have hw : w.length = 8 := h w (by simp)
    rw [List.flatten_append, List.flatten_singleton, List.length_append, hw, Nat.add_sub_cancel,
      List.drop_left, List.getLast?_concat, Option.some.injEq]

/-- A chunk of whole words is cut at a word. -/
theorem cutChunk_flatten {ws : List Word} (h : Whole ws) {n k : ℕ} (hn : 3 ≤ n) :
    Lane.cutChunk (8 * n) ws.flatten (8 * k) =
      (((ws.drop k).take (cutWords n (ws.drop k))).flatten, 8 * cutWords n (ws.drop k)) := by
  have hrest : Whole (ws.drop k) := fun w hw => h w (List.mem_of_mem_drop hw)
  have hchunk : Whole ((ws.drop k).take n) := fun w hw => hrest w (List.mem_of_mem_take hw)
  have hinit : Whole ((ws.drop k).take n).dropLast := fun w hw =>
    hchunk w (List.mem_of_mem_dropLast hw)
  have htake : ∀ m, (ws.flatten.drop (8 * k)).take (8 * m) = ((ws.drop k).take m).flatten := by
    intro m
    rw [drop_flatten h, take_flatten_words hrest]
  have hlen := length_flatten_of_whole hchunk
  have hlenInit := length_flatten_of_whole hinit
  rw [List.length_dropLast] at hlenInit
  have hbefore : ((ws.drop k).take n).flatten.take (((ws.drop k).take n).flatten.length - 8) =
      ((ws.drop k).take n).dropLast.flatten := by
    rw [List.dropLast_eq_take, ← take_flatten_words hchunk]
    congr 1
    omega
  have hprev : ((ws.drop k).take n).dropLast.flatten.drop
      (((ws.drop k).take n).flatten.length - 16) = rleHeader ↔
        ((ws.drop k).take n).dropLast.getLast? = some rleHeader := by
    rw [← lastWord_eq_header hinit, hlen, hlenInit]
    congr! 2
    omega
  unfold Lane.cutChunk
  dsimp only
  rw [htake, hbefore]
  unfold cutWords
  simp only [lastWord_eq_header hchunk, hprev]
  rw [show 8 * n - 8 = 8 * (n - 1) by omega, show 8 * n - 16 = 8 * (n - 2) by omega, htake, htake]
  split
  · rfl
  · split <;> rfl

/-! ## The chunks of a run -/

namespace Upload

/-- A budget whose chunks have room for a triple. -/
def GoodBudget : TransferBudget → Prop
  | .initial | .exhausted => True
  | .granted _ size _ => 24 ≤ size ∧ size % 8 = 0

/-- A grant of at least one chunk that has room for a triple. -/
def GoodGrant : UploadEvent → Prop
  | .continueData _ size count => 24 ≤ size / 8 * 8 ∧ 0 < count
  | .queueFlushed | .queueTrigger _ _ | .drainQueue => True

instance GoodGrant.decidable : (e : UploadEvent) → Decidable (GoodGrant e)
  | .continueData _ _ _ => inferInstanceAs (Decidable (_ ∧ _))
  | .queueFlushed | .queueTrigger _ _ | .drainQueue => inferInstanceAs (Decidable True)

/-- The chunks queued are groups of words and triples, and so is what is still to be cut. -/
structure Chunked (ws : List Word) (groups : List (List Word)) (k : ℕ) (u : Upload) : Prop where
  data : u.data = ws.flatten
  offset : u.offset = 8 * k
  left : Tripled (ws.drop k)
  tripled : ∀ g ∈ groups, g ≠ [] ∧ Tripled g
  queued : u.queued = groups.map List.flatten
  joined : groups.flatten = ws.take k
  budget : GoodBudget u.budget

section

variable {ws : List Word} {groups : List (List Word)} {k : ℕ} {u v : Upload}

/-- Sending changes nothing of this. -/
theorem Chunked.same (h : Chunked ws groups k u) (hdata : v.data = u.data)
    (hoffset : v.offset = u.offset) (hbudget : v.budget = u.budget) (hqueued : v.queued = u.queued) :
    Chunked ws groups k v where
  data := hdata.trans h.data
  offset := hoffset.trans h.offset
  left := h.left
  tripled := h.tripled
  queued := hqueued.trans h.queued
  joined := h.joined
  budget := hbudget ▸ h.budget

theorem Chunked.sendFirst (h : Chunked ws groups k u) (n : ℕ) :
    Chunked ws groups k (u.sendFirst n) := h.same rfl rfl rfl rfl

theorem Chunked.drainQueue (h : Chunked ws groups k u) : Chunked ws groups k u.drainQueue := by
  unfold Upload.drainQueue
  split
  · exact h
  · exact h.sendFirst _

/-- One chunk cut and queued. -/
theorem Chunked.cut (h : Chunked ws groups k u) (hwhole : Whole ws) {n : ℕ} (hn : 3 ≤ n)
    (hleft : u.offset < u.data.length) {budget : TransferBudget} (hbudget : GoodBudget budget) :
    Chunked ws (groups ++ [(ws.drop k).take (cutWords n (ws.drop k))])
      (k + cutWords n (ws.drop k))
      ({ u with
        offset := u.offset + (Lane.cutChunk (8 * n) u.data u.offset).2
        budget := budget }.queuePacket (Lane.cutChunk (8 * n) u.data u.offset).1) := by
  have hcut := @cutChunk_flatten ws hwhole n k hn
  rw [← h.data, ← h.offset] at hcut
  obtain ⟨htake, hdrop⟩ := h.left.cut hn
  have hpos := cutWords_pos (ws.drop k) hn
  have hne : (ws.drop k).take (cutWords n (ws.drop k)) ≠ [] := by
    rw [h.data, length_flatten_of_whole hwhole, h.offset] at hleft
    rw [← List.length_pos_iff, List.length_take, List.length_drop]
    omega
  rw [hcut]
  constructor
  · exact h.data
  · show u.offset + 8 * _ = _
    rw [h.offset]
    omega
  · rwa [← List.drop_drop]
  · intro g hg
    rcases List.mem_append.mp hg with hg | hg
    · exact h.tripled g hg
    · obtain rfl := List.mem_singleton.mp hg
      exact ⟨hne, htake⟩
  · show u.queued ++ _ = _
    rw [h.queued, List.map_append]
    rfl
  · rw [List.flatten_append, h.joined, List.flatten_singleton, ← List.take_add]
  · exact hbudget

/-- The loop of `_queue_chunks`: every turn cuts a chunk, until the budget or the data run out. -/
theorem chunked_cutChunks (hwhole : Whole ws) (transfer : ℕ) {n : ℕ} (hn : 3 ≤ n) (count : ℕ)
    (h : Chunked ws groups k u) :
    (∃ groups k, Chunked ws groups k (u.cutChunks transfer (8 * n) count)) ∧
      (u.data.length ≤ (u.cutChunks transfer (8 * n) count).offset ∨
        u.offset + 8 * count ≤ (u.cutChunks transfer (8 * n) count).offset) := by
  induction count generalizing u groups k with
  | zero => exact ⟨⟨groups, k, h⟩, .inr (Nat.le_refl _)⟩
  | succ count ih =>
    unfold Upload.cutChunks
    by_cases hend : u.data.length ≤ u.offset
    · rw [if_pos hend]
      exact ⟨⟨groups, k, h⟩, .inl hend⟩
    · rw [if_neg hend]
      have hbudget : GoodBudget (if count = 0 then .exhausted else .granted transfer (8 * n) count) := by
        split
        · trivial
        · exact ⟨by omega, by omega⟩
      have hmoved : u.offset + 8 ≤ u.offset + (Lane.cutChunk (8 * n) u.data u.offset).2 := by
        have hpos := cutWords_pos (ws.drop k) hn
        rw [h.data, h.offset, cutChunk_flatten hwhole hn]
        dsimp only
        omega
      obtain ⟨hchunked, hprogress⟩ := ih (h.cut hwhole hn (by omega) hbudget)
      refine ⟨hchunked, ?_⟩
      rcases hprogress with hdone | hgone
      · exact .inl hdone
      · right
        have hoffset : (queuePacket (Lane.cutChunk (8 * n) u.data u.offset).1 { u with
            offset := u.offset + (Lane.cutChunk (8 * n) u.data u.offset).2
            budget := if count = 0 then .exhausted else .granted transfer (8 * n) count }).offset =
              u.offset + (Lane.cutChunk (8 * n) u.data u.offset).2 := rfl
        rw [hoffset] at hgone
        dsimp only
        omega

theorem chunked_queueChunks (h : Chunked ws groups k u) (hwhole : Whole ws) :
    ∃ groups k, Chunked ws groups k u.queueChunks := by
  have hbudget := h.budget
  unfold queueChunks
  cases hgrant : u.budget with
  | initial => exact ⟨groups, k, h⟩
  | exhausted => exact ⟨groups, k, h⟩
  | granted transfer size count =>
    rw [hgrant] at hbudget
    obtain ⟨n, rfl⟩ : ∃ n, size = 8 * n := ⟨size / 8, by have := hbudget.2; omega⟩
    have hroom := hbudget.1
    have hn : 3 ≤ n := by omega
    obtain ⟨⟨groups, k, hcut⟩, -⟩ := chunked_cutChunks hwhole transfer hn count h
    exact ⟨groups, k, hcut.drainQueue⟩

theorem Chunked.granted (h : Chunked ws groups k u) {size : ℕ} (hsize : 24 ≤ size / 8 * 8)
    (transfer count : ℕ) :
    Chunked ws groups k { u with budget := .granted transfer (size / 8 * 8) count } where
  data := h.data
  offset := h.offset
  left := h.left
  tripled := h.tripled
  queued := h.queued
  joined := h.joined
  budget := ⟨hsize, by omega⟩

theorem chunked_step (h : Chunked ws groups k u) (hwhole : Whole ws) {e : UploadEvent}
    (hgood : GoodGrant e) : ∃ groups k, Chunked ws groups k (u.step e) := by
  cases e with
  | continueData transfer size count =>
    exact chunked_queueChunks (h.granted hgood.1 transfer count) hwhole
  | queueFlushed =>
    unfold step
    dsimp only
    split
    · exact chunked_queueChunks h hwhole
    · exact ⟨groups, k, h⟩
  | queueTrigger aggressive batchSize =>
    refine ⟨groups, k, ?_⟩
    unfold step queueTrigger
    dsimp only
    split
    · exact h.sendFirst _
    · split
      · exact h.same rfl rfl rfl rfl
      · exact h
  | drainQueue => exact ⟨groups, k, h.drainQueue⟩

/-- The chunks of every run are groups of words and triples. -/
theorem chunked_reachable (hwhole : Whole ws) (htripled : Tripled ws) {budget : TransferBudget}
    (hbudget : GoodBudget budget)
    (hreach : ReachableWhen ws.flatten budget (fun _ e => GoodGrant e) u) :
    ∃ groups k, Chunked ws groups k u := by
  apply hreach.invariant
  · rintro _ ⟨enabled, rfl⟩
    exact ⟨[], 0, rfl, rfl, htripled, by simp, rfl, rfl, hbudget⟩
  · rintro u e - ⟨groups, k, h⟩ hgood
    exact chunked_step h hwhole hgood

end

end Upload

/-! ## Where triples are -/

/-- The offsets at which the plain decoder takes up a word. -/
inductive Walked (data : Bytes) : ℕ → Prop
  | start : Walked data 0
  | literal {i : ℕ} : Walked data i → i < data.length → ¬ HeaderAt data i → Walked data (i + 8)
  | triple {i : ℕ} : Walked data i → HeaderAt data i → Walked data (i + 24)

/-- A header that the plain decoder takes for one. -/
def TripleAt (data : Bytes) (i : ℕ) : Prop := Walked data i ∧ HeaderAt data i

theorem Walked.dvd {data : Bytes} {i : ℕ} (h : Walked data i) : 8 ∣ i := by
  induction h with
  | start => exact Nat.dvd_zero 8
  | literal _ _ _ ih => omega
  | triple _ _ ih => omega

theorem headerAt_flatten {ws : List Word} (h : Whole ws) (i : ℕ) :
    HeaderAt ws.flatten (8 * i) ↔ ws[i]? = some rleHeader := by
  rw [HeaderAt, drop_flatten h, ← List.head?_drop]
  cases hd : ws.drop i with
  | nil => simp [rleHeader]
  | cons w rest =>
    have hw : w.length = 8 := h w (List.mem_of_mem_drop (hd ▸ List.mem_cons_self ..))
    rw [rleHeader_prefix_flatten hw, List.head?_cons, Option.some.injEq]

/-- A place with triples on both sides is in none of them. -/
theorem not_inside_triple {ws : List Word} (hwhole : Whole ws) {k : ℕ} (hk : k ≤ ws.length)
    (htake : Tripled (ws.take k)) {header : ℕ} (h : TripleAt ws.flatten header) :
    ¬ (header < 8 * k ∧ 8 * k < header + 24) := by
  rintro ⟨hlow, hhigh⟩
  obtain ⟨i, rfl⟩ := h.1.dvd
  have hat := (headerAt_flatten hwhole i).mp h.2
  have htaken : (ws.take k)[i]? = some rleHeader := by
    rw [List.getElem?_take, if_pos (by omega)]
    exact hat
  have hfar := (htake.not_header htaken (.inr rfl)).1
  rw [List.length_take] at hfar
  omega

/-! ## The chunks of an upload -/

/-- The chunks queued of an upload of `out`, which `rle_encode` made of an input: none is
empty, they join to what was cut so far, no end of one falls inside a triple, and they decode
each on its own to pieces of the input. -/
structure Lossless (input : ByteString) (out : Bytes) (u : Upload) : Prop where
  data : u.data = out
  nonempty : ∀ chunk ∈ u.queued, chunk ≠ []
  joined : u.queued.flatten = out.take u.offset
  whole : ∀ first later, u.queued = first ++ later → ∀ header, TripleAt out header →
    ¬ (header < first.flatten.length ∧ first.flatten.length < header + 24)
  decoded : ∃ pieces, List.Forall₂ (fun chunk piece => rleDecode chunk = some piece) u.queued pieces ∧
    pieces.flatten <+: input.data ∧ (out.length ≤ u.offset → pieces.flatten = input.data)

/-- Groups of triples decode one by one. -/
theorem decode_groups {groups : List (List Word)} {rest : List Word} {data : Bytes}
    (h : ∀ g ∈ groups, Whole g ∧ Tripled g)
    (hdecode : decodeWords (groups.flatten ++ rest) = some data) :
    ∃ pieces left, List.Forall₂ (fun chunk piece => rleDecode chunk = some piece)
      (groups.map List.flatten) pieces ∧ decodeWords rest = some left ∧
        pieces.flatten ++ left = data := by
  induction groups generalizing data with
  | nil => exact ⟨[], data, .nil, hdecode, rfl⟩
  | cons g groups ih =>
    obtain ⟨hwhole, htripled⟩ := h g (List.mem_cons_self ..)
    rw [List.flatten_cons, List.append_assoc, htripled.decodeWords_append,
      Option.bind_eq_some_iff] at hdecode
    obtain ⟨piece, hpiece, hmore⟩ := hdecode
    obtain ⟨tail, htail, rfl⟩ := Option.map_eq_some_iff.mp hmore
    obtain ⟨pieces, left, hpieces, hleft, hjoin⟩ :=
      ih (fun g hg => h g (List.mem_cons_of_mem _ hg)) htail
    refine ⟨piece :: pieces, left, .cons ?_ hpieces, hleft, ?_⟩
    · rw [rleDecode_flatten hwhole, hpiece]
    · rw [List.flatten_cons, List.append_assoc, hjoin]

theorem tripled_flatten {groups : List (List Word)} (h : ∀ g ∈ groups, Tripled g) :
    Tripled groups.flatten := by
  induction groups with
  | nil => exact .nil
  | cons g groups ih =>
    rw [List.flatten_cons]
    exact (h g (List.mem_cons_self ..)).append (ih fun v hv => h v (List.mem_cons_of_mem g hv))

/-- Groups of words and triples are lossless chunks of an upload. -/
theorem Upload.Chunked.lossless {input : ByteString} {ws : List Word} {groups : List (List Word)}
    {k : ℕ} {u : Upload} (h : Chunked ws groups k u) (hwhole : Whole ws)
    (hdecode : decodeWords ws = some input.data) : Lossless input ws.flatten u := by
  have hmem : ∀ g ∈ groups, Whole g := by
    intro g hg w hw
    apply hwhole w
    apply List.mem_of_mem_take
    rw [← h.joined]
    exact List.mem_flatten.mpr ⟨g, hg, hw⟩
  have hjoined : u.queued.flatten = ws.flatten.take u.offset := by
    rw [h.queued, h.offset, take_flatten_words hwhole, ← h.joined, List.flatten_flatten]
  constructor
  · exact h.data
  · intro chunk hchunk
    rw [h.queued] at hchunk
    obtain ⟨g, hg, rfl⟩ := List.mem_map.mp hchunk
    obtain ⟨w, hw⟩ := List.exists_mem_of_ne_nil g (h.tripled g hg).1
    have h8 := hmem g hg w hw
    intro hnil
    rw [List.flatten_eq_nil_iff.mp hnil w hw] at h8
    cases h8
  · exact hjoined
  · intro first later hsplit header hheader
    rw [h.queued] at hsplit
    obtain ⟨early, late, rfl, rfl, rfl⟩ := List.map_eq_append_iff.mp hsplit
    -- the end of `first` is the end of the words of its groups
    have hearly : early.flatten = ws.take early.flatten.length := by
      have hprefix : early.flatten <+: ws := by
        refine List.IsPrefix.trans ?_ (List.take_prefix k ws)
        rw [← h.joined, List.flatten_append]
        exact List.prefix_append ..
      exact List.prefix_iff_eq_take.mp hprefix
    have hlen : (early.map List.flatten).flatten.length = 8 * early.flatten.length := by
      rw [← List.flatten_flatten]
      apply length_flatten_of_whole
      intro w hw
      obtain ⟨g, hg, hw⟩ := List.mem_flatten.mp hw
      exact hmem g (List.mem_append_left _ hg) w hw
    have hle : early.flatten.length ≤ ws.length := by
      have hcut := congrArg List.length hearly
      rw [List.length_take] at hcut
      omega
    have htripled : Tripled (ws.take early.flatten.length) := by
      rw [← hearly]
      exact tripled_flatten fun g hg => (h.tripled g (List.mem_append_left _ hg)).2
    rw [hlen]
    exact not_inside_triple hwhole hle htripled hheader
  · have hall : decodeWords (groups.flatten ++ ws.drop k) = some input.data := by
      rw [h.joined, List.take_append_drop]
      exact hdecode
    obtain ⟨pieces, left, hpieces, hleft, hjoin⟩ :=
      decode_groups (fun g hg => ⟨hmem g hg, (h.tripled g hg).2⟩) hall
    refine ⟨pieces, ?_, ⟨left, hjoin⟩, ?_⟩
    · rw [h.queued]
      exact hpieces
    · intro hdone
      rw [length_flatten_of_whole hwhole, h.offset] at hdone
      rw [List.drop_eq_nil_of_le (by omega)] at hleft
      obtain rfl : [] = left := Option.some.inj hleft
      rw [← hjoin, List.append_nil]

end Bmdwire
