import Bmdwire.Program.MediaConvert
import Mathlib.Data.List.TakeWhile

/-!
# Run-length coding, there and back

The encoder works on eight-byte words, the decoder searches bytes for the header. Between
them stands `decodeWords`, the decoder on a list of words: `rleDecode_flatten` says that on
whole words the search finds the headers of the list and no others, and `encodeFrom_spec`
that the words the encoder writes decode to the words it read.
-/

set_option autoImplicit false

namespace Bmdwire

/-! ## Words -/

/-- Every word of the list is eight bytes. -/
def Whole (ws : List Word) : Prop := ∀ w ∈ ws, w.length = 8

theorem Whole.tail {w : Word} {ws : List Word} (h : Whole (w :: ws)) : Whole ws := fun v hv =>
  h v (List.mem_cons_of_mem w hv)

theorem Whole.head {w : Word} {ws : List Word} (h : Whole (w :: ws)) : w.length = 8 :=
  h w (List.mem_cons_self ..)

theorem Whole.append {ws vs : List Word} (h : Whole ws) (h' : Whole vs) : Whole (ws ++ vs) := by
  intro w hw
  rcases List.mem_append.mp hw with hw | hw
  · exact h w hw
  · exact h' w hw

/-- The words of an input are whole. -/
theorem whole_words (data : Bytes) : Whole (words data) := by
  fun_induction words data with
  | case1 a b c d e f g h rest ih =>
    intro w hw
    rcases List.mem_cons.mp hw with rfl | hw
    · rfl
    · exact ih w hw
  | case2 => simp [Whole]

/-- The words of an input of whole words are the input. -/
theorem flatten_words {data : Bytes} (h : data.length % 8 = 0) : (words data).flatten = data := by
  fun_induction words data with
  | case1 a b c d e f g h rest ih =>
    rw [List.flatten_cons, ih (by simp only [List.length_cons] at h; omega)]
    rfl
  | case2 data hshort =>
    rcases data with _ | ⟨a, _ | ⟨b, _ | ⟨c, _ | ⟨d, _ | ⟨e, _ | ⟨f, _ | ⟨g, _ | ⟨x, rest⟩⟩⟩⟩⟩⟩⟩⟩
    · rfl
    all_goals first
      | exact absurd rfl (hshort _ _ _ _ _ _ _ _ _)
      | simp at h

theorem length_flatten_of_whole {ws : List Word} (h : Whole ws) :
    ws.flatten.length = 8 * ws.length := by
  induction ws with
  | nil => rfl
  | cons w ws ih =>
    rw [List.flatten_cons, List.length_append, h.head, ih h.tail, List.length_cons]
    omega

/-- Eight bytes from the start of a word are that word. -/
theorem take_flatten {w : Word} {ws : List Word} (h : w.length = 8) :
    ((w :: ws).flatten).take 8 = w := by
  rw [List.flatten_cons, ← h, List.take_left]

/-- Past `n` words are the words from the `n`th on. -/
theorem drop_flatten {ws : List Word} (h : Whole ws) (n : ℕ) :
    (ws.flatten).drop (8 * n) = (ws.drop n).flatten := by
  induction n generalizing ws with
  | zero => rfl
  | succ n ih =>
    cases ws with
    | nil => simp
    | cons w ws =>
      have hn : 8 * (n + 1) = w.length + 8 * n := by
        rw [h.head]
        omega
      rw [List.flatten_cons, hn, ← List.drop_drop, List.drop_left, ih h.tail, List.drop_succ_cons]

theorem rleHeader_length : rleHeader.length = 8 := rfl

/-- A header starts a list of words where the first one is the header. -/
theorem rleHeader_prefix_flatten {w : Word} {ws : List Word} (h : w.length = 8) :
    rleHeader <+: (w :: ws).flatten ↔ w = rleHeader := by
  rw [List.prefix_iff_eq_take, rleHeader_length, take_flatten h]
  exact eq_comm

/-! ## The search for a header -/

/-- A header starts at index `i`. -/
def HeaderAt (data : Bytes) (i : ℕ) : Prop := rleHeader <+: data.drop i

/-- The index found is the first. -/
theorem findHeaderIn_spec (bs : Bytes) (i : ℕ) :
    match findHeaderIn bs i with
    | some h => i ≤ h ∧ HeaderAt bs (h - i) ∧ ∀ j, i ≤ j → j < h → ¬ HeaderAt bs (j - i)
    | none => ∀ j, i ≤ j → ¬ HeaderAt bs (j - i) := by
  induction bs generalizing i with
  | nil =>
    intro j _ hj
    simp [HeaderAt, rleHeader] at hj
  | cons b bs ih =>
    -- past the first byte an index into `b :: bs` is one into `bs`
    have hshift : ∀ j, i + 1 ≤ j → (HeaderAt (b :: bs) (j - i) ↔ HeaderAt bs (j - (i + 1))) := by
      intro j hj
      have hsub : j - i = (j - (i + 1)) + 1 := by omega
      rw [HeaderAt, hsub, List.drop_succ_cons, HeaderAt]
    unfold findHeaderIn
    by_cases hhead : rleHeader <+: b :: bs
    · rw [if_pos (List.isPrefixOf_iff_prefix.mpr hhead)]
      refine ⟨Nat.le_refl i, ?_, ?_⟩
      · simpa [HeaderAt] using hhead
      · intro j hj hlt
        omega
    · have hstart : ¬ HeaderAt (b :: bs) (i - i) := by simpa [HeaderAt] using hhead
      rw [if_neg (by simpa [List.isPrefixOf_iff_prefix] using hhead)]
      have hrest := ih (i + 1)
      cases hf : findHeaderIn bs (i + 1) with
      | none =>
        rw [hf] at hrest
        intro j hj
        rcases Nat.eq_or_lt_of_le hj with rfl | hlt
        · exact hstart
        · rw [hshift j hlt]
          exact hrest j hlt
      | some h =>
        rw [hf] at hrest
        obtain ⟨hle, hat, hfirst⟩ := hrest
        refine ⟨by omega, (hshift h hle).mpr hat, ?_⟩
        intro j hj hlt
        rcases Nat.eq_or_lt_of_le hj with rfl | hij
        · exact hstart
        · rw [hshift j hij]
          exact hfirst j hij hlt

/-- `data.find` from `start` on. -/
theorem findHeader_spec (data : Bytes) (start : ℕ) :
    match findHeader data start with
    | some h => start ≤ h ∧ HeaderAt data h ∧ ∀ j, start ≤ j → j < h → ¬ HeaderAt data j
    | none => ∀ j, start ≤ j → ¬ HeaderAt data j := by
  have hdrop : ∀ j, start ≤ j → (HeaderAt (data.drop start) (j - start) ↔ HeaderAt data j) := by
    intro j hj
    rw [HeaderAt, List.drop_drop, Nat.add_sub_cancel' hj, HeaderAt]
  have h := findHeaderIn_spec (data.drop start) start
  unfold findHeader
  cases hf : findHeaderIn (data.drop start) start with
  | none =>
    rw [hf] at h
    intro j hj
    rw [← hdrop j hj]
    exact h j hj
  | some i =>
    rw [hf] at h
    obtain ⟨hle, hat, hfirst⟩ := h
    refine ⟨hle, (hdrop i hle).mp hat, ?_⟩
    intro j hj hlt
    rw [← hdrop j hj]
    exact hfirst j hj hlt

/-- A header starts inside the data. -/
theorem HeaderAt.lt {data : Bytes} {i : ℕ} (h : HeaderAt data i) : i < data.length := by
  have hle := h.length_le
  rw [rleHeader_length, List.length_drop] at hle
  omega

/-- The search on the grid of `offset` finds the first header there is on it. -/
theorem alignedHeader_spec (data : Bytes) (offset fuel start : ℕ) (hstart : offset ≤ start)
    (hgrid : (start - offset) % 8 = 0) (hfuel : data.length - start < fuel) :
    match alignedHeader data offset fuel start with
    | some h => start ≤ h ∧ (h - offset) % 8 = 0 ∧ HeaderAt data h ∧
        ∀ j, start ≤ j → j < h → (j - offset) % 8 = 0 → ¬ HeaderAt data j
    | none => ∀ j, start ≤ j → (j - offset) % 8 = 0 → ¬ HeaderAt data j := by
  induction fuel generalizing start with
  | zero => omega
  | succ fuel ih =>
    have hfind := findHeader_spec data start
    unfold alignedHeader
    cases hf : findHeader data start with
    | none =>
      rw [hf] at hfind
      exact fun j hj _ => hfind j hj
    | some h =>
      rw [hf] at hfind
      obtain ⟨hle, hat, hfirst⟩ := hfind
      by_cases halign : (h - offset) % 8 = 0
      · simp only [if_pos halign]
        exact ⟨hle, halign, hat, fun j hj hlt _ => hfirst j hj hlt⟩
      · simp only [if_neg halign]
        -- no grid point lies between the header found off the grid and the next grid point
        have hnext := hat.lt
        have hskip : ∀ j, start ≤ j → j < h + 8 - (h - offset) % 8 → (j - offset) % 8 = 0 →
            ¬ HeaderAt data j := by
          intro j hj hlt hj8
          apply hfirst j hj
          omega
        have hrest := ih (h + 8 - (h - offset) % 8) (by omega) (by omega) (by omega)
        cases ha : alignedHeader data offset fuel (h + 8 - (h - offset) % 8) with
        | none =>
          rw [ha] at hrest
          intro j hj hj8
          by_cases hlt : j < h + 8 - (h - offset) % 8
          · exact hskip j hj hlt hj8
          · exact hrest j (by omega) hj8
        | some i =>
          rw [ha] at hrest
          obtain ⟨hi, hi8, hiat, hifirst⟩ := hrest
          refine ⟨by omega, hi8, hiat, ?_⟩
          intro j hj hlt hj8
          by_cases hjh : j < h + 8 - (h - offset) % 8
          · exact hskip j hj hjh hj8
          · exact hifirst j (by omega) hlt hj8

/-! ## The decoder on words -/

/-- `rle_decode` on a list of words. -/
def decodeWords : List Word → Option Bytes
  | [] => some []
  | w :: ws =>
    if w = rleHeader then
      match ws with
      | [] => none
      | [count] => repeatBytes [] (bigEndian count)
      | count :: value :: rest =>
        match repeatBytes value (bigEndian count) with
        | none => none
        | some run => (decodeWords rest).map fun tail => run ++ tail
    else (decodeWords ws).map fun tail => w ++ tail

/-- A word that is no header stands for itself. -/
theorem decodeWords_literal {w : Word} (h : w ≠ rleHeader) (ws : List Word) :
    decodeWords (w :: ws) = (decodeWords ws).map fun tail => w ++ tail := by
  cases ws with
  | nil => simp [decodeWords, h]
  | cons v ws => cases ws <;> simp [decodeWords, h]

/-- Words that are no headers stand for themselves. -/
theorem decodeWords_append {ws : List Word} (h : ∀ w ∈ ws, w ≠ rleHeader) (vs : List Word) :
    decodeWords (ws ++ vs) = (decodeWords vs).map fun tail => ws.flatten ++ tail := by
  induction ws with
  | nil => simp
  | cons w ws ih =>
    rw [List.cons_append, decodeWords_literal (h w (List.mem_cons_self ..)),
      ih fun v hv => h v (List.mem_cons_of_mem w hv), Option.map_map]
    simp [Function.comp_def]

/-- The literal words at the front, up to the first header. -/
theorem literals_split (ws : List Word) :
    ∃ lits rest, ws = lits ++ rest ∧ (∀ w ∈ lits, w ≠ rleHeader) ∧
      (rest = [] ∨ ∃ tail, rest = rleHeader :: tail) := by
  refine ⟨ws.takeWhile (· ≠ rleHeader), ws.dropWhile (· ≠ rleHeader),
    List.takeWhile_append_dropWhile.symm, ?_, ?_⟩
  · intro w hw
    simpa using List.mem_takeWhile_imp hw
  · have hhead := List.head?_dropWhile_not (· ≠ rleHeader) ws
    cases hd : ws.dropWhile (· ≠ rleHeader) with
    | nil => exact .inl rfl
    | cons v tail =>
      rw [hd] at hhead
      obtain rfl : v = rleHeader := by simpa using hhead
      exact .inr ⟨tail, rfl⟩

/-- The header the search finds among whole words is the one after the literals. -/
theorem alignedHeader_flatten {data : Bytes} {offset fuel : ℕ} {lits rest : List Word}
    (hdata : data.drop offset = (lits ++ rest).flatten) (hwhole : Whole (lits ++ rest))
    (hlits : ∀ w ∈ lits, w ≠ rleHeader)
    (hfuel : data.length < fuel) :
    (rest = [] → alignedHeader data offset fuel offset = none) ∧
      (∀ tail, rest = rleHeader :: tail →
        alignedHeader data offset fuel offset = some (offset + 8 * lits.length)) := by
  -- on the grid, a header starts exactly where a word is the header
  have hat : ∀ k, HeaderAt data (offset + 8 * k) ↔ (lits ++ rest)[k]? = some rleHeader := by
    intro k
    have hsplit : data.drop (offset + 8 * k) = ((lits ++ rest).drop k).flatten := by
      rw [← List.drop_drop, hdata, drop_flatten hwhole]
    rw [HeaderAt, hsplit, ← List.head?_drop]
    cases hd : (lits ++ rest).drop k with
    | nil => simp [rleHeader]
    | cons w ws =>
      have hw : w.length = 8 := hwhole w (List.mem_of_mem_drop (hd ▸ List.mem_cons_self ..))
      rw [rleHeader_prefix_flatten hw, List.head?_cons, Option.some.injEq]
  have hgrid : ∀ j, offset ≤ j → (j - offset) % 8 = 0 → j = offset + 8 * ((j - offset) / 8) := by
    intro j hj hj8
    omega
  have hlit : ∀ k, k < lits.length → (lits ++ rest)[k]? ≠ some rleHeader := by
    intro k hk heq
    rw [List.getElem?_append_left hk] at heq
    exact hlits _ (List.mem_of_getElem? heq) rfl
  have hspec := alignedHeader_spec data offset fuel offset (Nat.le_refl _) (by simp) (by omega)
  refine ⟨?_, ?_⟩
  · rintro rfl
    cases ha : alignedHeader data offset fuel offset with
    | none => rfl
    | some h =>
      rw [ha] at hspec
      obtain ⟨hle, h8, hh, -⟩ := hspec
      rw [hgrid h hle h8, hat, List.append_nil] at hh
      exact absurd rfl (hlits _ (List.mem_of_getElem? hh))
  · rintro tail rfl
    have hhere : HeaderAt data (offset + 8 * lits.length) := by
      rw [hat]
      simp
    cases ha : alignedHeader data offset fuel offset with
    | none =>
      rw [ha] at hspec
      exact absurd hhere (hspec _ (by omega) (by omega))
    | some h =>
      rw [ha] at hspec
      obtain ⟨hle, h8, hh, hfirst⟩ := hspec
      congr 1
      rcases Nat.lt_trichotomy h (offset + 8 * lits.length) with hlt | heq | hgt
      · rw [hgrid h hle h8, hat] at hh
        exact absurd hh (hlit _ (by omega))
      · exact heq
      · exact absurd hhere (hfirst _ (by omega) hgt (by omega))

/-- On whole words `rle_decode` is the decoder on words. -/
theorem rleDecodeFrom_flatten (fuel : ℕ) {data : Bytes} {offset : ℕ} {ws : List Word}
    (hdata : data.drop offset = ws.flatten) (hwhole : Whole ws) (hfuel : ws.length < fuel) :
    rleDecodeFrom data fuel offset = decodeWords ws := by
  -- by induction on the fuel: each turn takes the literals and one header with its run
  induction fuel generalizing offset ws with
  | zero => omega
  | succ fuel ih =>
    unfold rleDecodeFrom
    by_cases hend : data.length ≤ offset
    · have hnil : ws = [] := by
        have hlen := length_flatten_of_whole hwhole
        rw [← hdata, List.drop_eq_nil_of_le hend] at hlen
        rw [← List.length_eq_zero_iff]
        simp only [List.length_nil] at hlen
        omega
      rw [if_pos hend, hnil]
      rfl
    · rw [if_neg hend]
      obtain ⟨lits, rest, rfl, hlits, hrest⟩ := literals_split ws
      have hlitsWhole : Whole lits := fun w hw => hwhole w (List.mem_append_left _ hw)
      have hlen : data.length = offset + 8 * (lits ++ rest).length := by
        have := length_flatten_of_whole hwhole
        rw [← hdata, List.length_drop] at this
        omega
      obtain ⟨hnone, hsome⟩ :=
        alignedHeader_flatten hdata hwhole hlits (Nat.lt_succ_self data.length)
      rcases hrest with rfl | ⟨tail, rfl⟩
      · rw [hnone rfl, decodeWords_append hlits]
        simp only [decodeWords, Option.map_some, List.append_nil] at hdata ⊢
        rw [hdata]
      · rw [hsome tail rfl, decodeWords_append hlits]
        -- what lies at the header and after it
        have hdrop : ∀ n, data.drop (offset + 8 * lits.length + 8 * n) =
            ((rleHeader :: tail).drop n).flatten := by
          intro n
          have hsum : 8 * lits.length + 8 * n = 8 * (lits.length + n) := by omega
          rw [Nat.add_assoc, ← List.drop_drop, hdata, hsum, drop_flatten hwhole, List.drop_append,
            List.drop_eq_nil_of_le (Nat.le_add_right _ n), Nat.add_sub_cancel_left]
          rfl
        simp only [List.length_append, List.length_cons] at hlen hfuel
        have hliterals : (data.drop offset).take (offset + 8 * lits.length - offset) =
            lits.flatten := by
          rw [hdata, Nat.add_sub_cancel_left, ← length_flatten_of_whole hlitsWhole,
            List.flatten_append, List.take_left]
        dsimp only
        rw [hliterals, hdrop 1, hdrop 2]
        cases tail with
        | nil =>
          rw [if_pos (by simp only [List.length_nil] at hlen; omega)]
          rfl
        | cons count tail =>
          have hcount : count.length = 8 := hwhole count (by simp)
          have htakeCount : (((rleHeader :: count :: tail).drop 1).flatten).take 8 = count :=
            take_flatten hcount
          rw [if_neg (by simp only [List.length_cons] at hlen; omega), htakeCount]
          have hwholeRest : Whole (tail.drop 1) := fun w hw =>
            hwhole w (by simp [List.mem_of_mem_drop hw])
          rw [ih (hdrop 3) hwholeRest (by simp only [List.length_cons] at hfuel; simp; omega)]
          cases tail with
          | nil =>
            cases hrun : repeatBytes [] (bigEndian count) with
            | none => simp [decodeWords, hrun]
            | some run => simp [decodeWords, hrun]
          | cons value rest =>
            have hvalue : value.length = 8 := hwhole value (by simp)
            have htake : (((rleHeader :: count :: value :: rest).drop 2).flatten).take 8 = value :=
              take_flatten hvalue
            rw [htake, decodeWords, if_pos rfl]
            cases hrun : repeatBytes value (bigEndian count) with
            | none => rfl
            | some run => simp [Function.comp_def]

/-- `rle_decode` of whole words. -/
theorem rleDecode_flatten {ws : List Word} (h : Whole ws) :
    rleDecode ws.flatten = decodeWords ws := by
  refine rleDecodeFrom_flatten _ List.drop_zero h ?_
  rw [length_flatten_of_whole h]
  omega

/-! ## The encoder -/

/-- `beputu64` writes eight bytes. -/
theorem beputu64_length (v : ℕ) : (beputu64 v).length = 8 := by
  simp [beputu64]

/-- A number below `2 ^ 64` is read back. -/
theorem bigEndian_beputu64 {v : ℕ} (h : v < 2 ^ 64) : bigEndian (beputu64 v) = v := by
  simp only [beputu64, bigEndian, List.range, List.range.loop, List.map_cons, List.map_nil,
    List.foldl_cons, List.foldl_nil, UInt8.toNat_ofNat']
  omega

theorem whole_flushRun {word : Word} (h : word.length = 8) (c : ℕ) : Whole (flushRun c word) := by
  unfold flushRun
  split
  · simp [Whole, rleHeader_length, beputu64_length, h]
  · intro w hw
    rw [List.eq_of_mem_replicate hw]
    exact h

/-- A flush decodes to the words counted. -/
theorem decodeWords_flushRun {word : Word} (h8 : word.length = 8) (hword : word ≠ rleHeader)
    {c : ℕ} (hc : 8 * c < 2 ^ 63) (ws : List Word) :
    decodeWords (flushRun c word ++ ws) =
      (decodeWords ws).map fun tail => (List.replicate c word).flatten ++ tail := by
  unfold flushRun
  split
  · have hrepeat : repeatBytes word c = some (List.replicate c word).flatten := by
      rw [repeatBytes, h8, if_pos ⟨by omega, hc⟩]
    have hcount : bigEndian (beputu64 c) = c := bigEndian_beputu64 (by omega)
    simp [decodeWords, hcount, hrepeat]
  · refine decodeWords_append (fun w hw => ?_) ws
    rw [List.eq_of_mem_replicate hw]
    exact hword

/-- A flush takes no more room than the words counted. -/
theorem length_flushRun_le (c : ℕ) (word : Word) : (flushRun c word).length ≤ c := by
  unfold flushRun
  split
  · simp only [List.length_cons, List.length_nil]
    omega
  · simp

/-- The loop past the first word: what it adds to the buffer decodes to the words counted and
the words still to come, and takes no more room than they do. -/
theorem encodeFrom_spec (len : ℕ) (rest : List Word) {i c : ℕ} {before : Word} (buf : List Word)
    (hi : i ≠ 0) (hlen : i + rest.length < len) (hc : 8 * (c + rest.length) < 2 ^ 63)
    (hbefore : before.length = 8 ∧ before ≠ rleHeader)
    (hrest : ∀ w ∈ rest, w.length = 8 ∧ w ≠ rleHeader) :
    ∃ out, encodeFrom len rest i before c buf = .ok (buf ++ out) ∧ Whole out ∧
      out.length ≤ c + rest.length ∧
      decodeWords out = some (List.replicate c before ++ rest).flatten := by
  induction rest generalizing i c before buf with
  | nil =>
    refine ⟨flushRun c before, rfl, whole_flushRun hbefore.1 c, length_flushRun_le c before, ?_⟩
    have h := decodeWords_flushRun hbefore.1 hbefore.2 (c := c) (by simpa using hc) []
    simpa [decodeWords] using h
  | cons word rest ih =>
    simp only [List.length_cons] at hlen hc
    have hword := hrest word (List.mem_cons_self ..)
    have hrest' : ∀ w ∈ rest, w.length = 8 ∧ w ≠ rleHeader := fun w hw =>
      hrest w (List.mem_cons_of_mem word hw)
    unfold encodeFrom
    rw [if_neg hword.2]
    by_cases heq : before = word
    · subst heq
      obtain ⟨out, hout, hwhole, hroom, hdecode⟩ :=
        ih buf (Nat.succ_ne_zero i) (c := c + 1) (by omega) (by omega) hbefore hrest'
      refine ⟨out, ?_, hwhole, by simp only [List.length_cons]; omega, ?_⟩
      · simp only [ne_eq, hi, not_false_eq_true, and_self, if_true, true_and]
        rw [if_pos (by omega)]
        exact hout
      · rw [hdecode, List.replicate_succ', List.append_assoc, List.singleton_append]
    · obtain ⟨out, hout, hwhole, hroom, hdecode⟩ :=
        ih (buf ++ flushRun c before ++ [word]) (Nat.succ_ne_zero i) (c := 0) (by omega)
          (by omega) hword hrest'
      refine ⟨flushRun c before ++ word :: out, ?_, ?_, ?_, ?_⟩
      · simp only [heq, and_false, false_and, if_false]
        rw [hout]
        simp
      · refine (whole_flushRun hbefore.1 c).append fun w hw => ?_
        rcases List.mem_cons.mp hw with rfl | hw
        · exact hword.1
        · exact hwhole w hw
      · have hflush := length_flushRun_le c before
        simp only [List.length_append, List.length_cons]
        omega
      · rw [decodeWords_flushRun hbefore.1 hbefore.2 (by omega), decodeWords_literal hword.2, hdecode]
        simp

/-- The loop stops at the first header there is. -/
theorem encodeFrom_reserved (len : ℕ) (rest : List Word) (i : ℕ) (before : Word) (c : ℕ)
    (buf : List Word) (h : rleHeader ∈ rest) :
    encodeFrom len rest i before c buf = .error .reservedHeader := by
  induction rest generalizing i before c buf with
  | nil => simp at h
  | cons word rest ih =>
    unfold encodeFrom
    by_cases hword : word = rleHeader
    · rw [if_pos hword]
    · rw [if_neg hword]
      have hrest := (List.mem_cons.mp h).resolve_left (Ne.symm hword)
      dsimp only
      split
      · exact ih _ _ _ _ hrest
      · exact ih _ _ _ _ hrest

/-- The loop on the words of an input: the words it writes decode to those it read, and fit
into the buffer allocated for them. -/
theorem encodeFrom_words (len : ℕ) (ws : List Word) (hlen : ws.length < len)
    (hcount : 8 * ws.length < 2 ^ 63) (hwhole : Whole ws) (hfree : rleHeader ∉ ws) :
    ∃ out, encodeFrom len ws 0 [] 0 [] = .ok out ∧ Whole out ∧ out.length ≤ ws.length ∧
      decodeWords out = some ws.flatten := by
  cases ws with
  | nil => exact ⟨[], rfl, by simp [Whole], Nat.le_refl _, rfl⟩
  | cons word rest =>
    have hmem : ∀ w ∈ word :: rest, w.length = 8 ∧ w ≠ rleHeader := fun w hw =>
      ⟨hwhole w hw, fun heq => hfree (heq ▸ hw)⟩
    have hword := hmem word (List.mem_cons_self ..)
    simp only [List.length_cons] at hlen hcount
    obtain ⟨out, hout, hwholeOut, hroom, hdecode⟩ :=
      encodeFrom_spec len rest (i := 1) (c := 0) [word] (by omega) (by omega) (by omega)
        hword fun w hw => hmem w (List.mem_cons_of_mem word hw)
    refine ⟨word :: out, ?_, ?_, by simp only [List.length_cons]; omega, ?_⟩
    · unfold encodeFrom
      rw [if_neg hword.2]
      simpa [flushRun] using hout
    · intro w hw
      rcases List.mem_cons.mp hw with rfl | hw
      · exact hword.1
      · exact hwholeOut w hw
    · rw [decodeWords_literal hword.2, hdecode]
      simp

/-! ## There and back -/

/-- The inputs the encoder takes: whole words, none of them the header. -/
def Encodable (input : ByteString) : Prop :=
  input.data.length % 8 = 0 ∧ ∀ w ∈ words input.data, w ≠ rleHeader

instance Encodable.decidable (input : ByteString) : Decidable (Encodable input) :=
  inferInstanceAs (Decidable (_ ∧ _))

/-- The words of an input are no longer than an eighth of it. -/
theorem length_words {data : Bytes} (h : data.length % 8 = 0) :
    8 * (words data).length = data.length := by
  rw [← length_flatten_of_whole (whole_words data), flatten_words h]

/-- What is encoded is decoded again, and takes no more room than it did. -/
theorem rleDecode_rleEncode {input : ByteString} (h : Encodable input) :
    ∃ out, rleEncode input = .ok out ∧ out.length ≤ input.data.length ∧
      rleDecode out = some input.data := by
  obtain ⟨h8, hfree⟩ := h
  have hlen := length_words h8
  have hlt := input.length_lt
  unfold rleEncode
  dsimp only
  rw [if_neg (not_not.mpr h8)]
  split
  · rename_i h0
    rw [List.length_eq_zero_iff] at h0
    exact ⟨[], rfl, Nat.zero_le _, by rw [h0]; rfl⟩
  · rename_i h0
    obtain ⟨out, hout, hwhole, hroom, hdecode⟩ :=
      encodeFrom_words input.data.length (words input.data) (by omega) (by omega)
        (whole_words _) fun hmem => hfree _ hmem rfl
    refine ⟨out.flatten, by rw [hout]; rfl, ?_, ?_⟩
    · rw [length_flatten_of_whole hwhole]
      omega
    · rw [rleDecode_flatten hwhole, hdecode, flatten_words h8]

/-- Every byte string of whole words without the header is encoded and decoded back to
itself; `rle_encode` raises on every other one and on no more. -/
theorem rle_round_trip (input : ByteString) :
    (Encodable input → ∃ out, rleEncode input = .ok out ∧ rleDecode out = some input.data) ∧
      ((∃ e, rleEncode input = .error e) ↔
        input.data.length % 8 ≠ 0 ∨ ∃ w ∈ words input.data, w = rleHeader) := by
  refine ⟨fun h => ?_, ?_⟩
  · obtain ⟨out, hout, -, hdecode⟩ := rleDecode_rleEncode h
    exact ⟨out, hout, hdecode⟩
  · constructor
    · rintro ⟨e, he⟩
      by_contra hnot
      rw [not_or, not_not] at hnot
      have henc : Encodable input := ⟨hnot.1, fun w hw heq => hnot.2 ⟨w, hw, heq⟩⟩
      obtain ⟨out, hout, -, -⟩ := rleDecode_rleEncode henc
      rw [hout] at he
      cases he
    · intro h
      unfold rleEncode
      dsimp only
      by_cases h8 : input.data.length % 8 = 0
      · obtain ⟨w, hw, rfl⟩ := h.resolve_left (not_not.mpr h8)
        have h0 : input.data.length ≠ 0 := by
          have hlen := length_words h8
          have := List.length_pos_of_mem hw
          omega
        rw [if_neg (not_not.mpr h8), if_neg h0, encodeFrom_reserved _ _ _ _ _ _ hw]
        exact ⟨_, rfl⟩
      · rw [if_pos h8]
        exact ⟨_, rfl⟩

/-- A word, then a word repeated four times: the repetition is written as a header, a count
of three and the word. -/
def shortRun : ByteString := ⟨List.replicate 8 1 ++ List.replicate 32 2, by decide⟩

theorem rle_round_trip_short_run : Encodable shortRun ∧
    ∃ out, rleEncode shortRun = .ok out ∧ rleDecode out = some shortRun.data :=
  ⟨by decide, (rle_round_trip shortRun).1 (by decide)⟩

end Bmdwire
