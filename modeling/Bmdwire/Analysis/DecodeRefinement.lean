import Bmdwire.Analysis.RunLength

/-!
# The search-based decoder refines the plain one

The plain decoder walks the words one by one, as `rle_decode` did before it searched for
headers. The loops of `rle_decode` end on every byte string, with the result of the walk: a
header that the search finds on the grid is the next word that the walk takes for one, and
all it passes over are literals to the walk (`rle_decode_refines`).
-/

set_option autoImplicit false

namespace Bmdwire

/-! ## The plain decoder -/

/-- The walk of the plain decoder from `offset` on. -/
def referenceFrom (data : Bytes) (offset : ℕ) : Option Bytes :=
  if offset < data.length then
    let block := (data.drop offset).take 8
    if block = rleHeader then
      if data.length < offset + 16 then none
      else
        let count := bigEndian ((data.drop (offset + 8)).take 8)
        let value := (data.drop (offset + 16)).take 8
        match repeatBytes value count with
        | none => none
        | some run => (referenceFrom data (offset + 24)).map (run ++ ·)
    else (referenceFrom data (offset + 8)).map (block ++ ·)
  else some []
termination_by data.length - offset

/-- `_reference_rle_decode`. -/
def referenceDecode (data : Bytes) : Option Bytes := referenceFrom data 0

variable {data : Bytes} {offset : ℕ}

theorem referenceFrom_end (h : data.length ≤ offset) : referenceFrom data offset = some [] := by
  rw [referenceFrom, if_neg (by omega)]

/-- A word is the header where a header starts. -/
theorem block_eq_header : (data.drop offset).take 8 = rleHeader ↔ HeaderAt data offset := by
  rw [HeaderAt, List.prefix_iff_eq_take, rleHeader_length, eq_comm]

/-- Words that are no headers are copied, the last of them as far as it goes. -/
theorem referenceFrom_literals (count : ℕ)
    (h : ∀ k, k < count → ¬ HeaderAt data (offset + 8 * k)) :
    referenceFrom data offset =
      (referenceFrom data (offset + 8 * count)).map ((data.drop offset).take (8 * count) ++ ·) := by
  induction count generalizing offset with
  | zero => simp
  | succ count ih =>
    by_cases hend : offset < data.length
    · have hfirst : (data.drop offset).take 8 ≠ rleHeader := by
        rw [Ne, block_eq_header]
        exact h 0 (Nat.succ_pos count)
      have hrest := @ih (offset + 8) fun k hk => by
        rw [Nat.add_assoc, show 8 + 8 * k = 8 * (k + 1) by omega]
        exact h (k + 1) (by omega)
      have hsplit : (data.drop offset).take (8 * (count + 1)) =
          (data.drop offset).take 8 ++ (data.drop (offset + 8)).take (8 * count) := by
        rw [show 8 * (count + 1) = 8 + 8 * count by omega, List.take_add, List.drop_drop]
      rw [referenceFrom, if_pos hend]
      dsimp only
      rw [if_neg hfirst, hrest, hsplit, Option.map_map,
        show offset + 8 + 8 * count = offset + 8 * (count + 1) by omega]
      simp only [Function.comp_def, List.append_assoc]
    · rw [referenceFrom_end (by omega), referenceFrom_end (by omega),
        List.drop_eq_nil_of_le (by omega)]
      rfl

/-- With no header on the grid all that is left is copied. -/
theorem referenceFrom_no_header (h : ∀ j, offset ≤ j → (j - offset) % 8 = 0 → ¬ HeaderAt data j) :
    referenceFrom data offset = some (data.drop offset) := by
  rw [referenceFrom_literals data.length fun k _ => h _ (by omega) (by omega),
    referenceFrom_end (by omega), List.take_of_length_le (by rw [List.length_drop]; omega)]
  simp

/-- The first header on the grid ends the literals. -/
theorem referenceFrom_header {header : ℕ} (hle : offset ≤ header)
    (hgrid : (header - offset) % 8 = 0) (hat : HeaderAt data header)
    (hfirst : ∀ j, offset ≤ j → j < header → (j - offset) % 8 = 0 → ¬ HeaderAt data j) :
    referenceFrom data offset =
      if data.length < header + 16 then none
      else
        (repeatBytes ((data.drop (header + 16)).take 8)
          (bigEndian ((data.drop (header + 8)).take 8))).bind fun run =>
            (referenceFrom data (header + 24)).map fun rest =>
              (data.drop offset).take (header - offset) ++ run ++ rest := by
  have hcount : 8 * ((header - offset) / 8) = header - offset := by omega
  have hhere : offset + 8 * ((header - offset) / 8) = header := by omega
  have hblock := block_eq_header.mpr hat
  rw [referenceFrom_literals ((header - offset) / 8) fun k hk =>
    hfirst _ (by omega) (by omega) (by omega), hhere, hcount, referenceFrom, if_pos hat.lt]
  dsimp only
  rw [if_pos hblock]
  split
  · rfl
  · cases repeatBytes ((data.drop (header + 16)).take 8)
      (bigEndian ((data.drop (header + 8)).take 8)) with
    | none => rfl
    | some run =>
      rw [Option.map_map]
      simp only [Option.bind_some, Function.comp_def, List.append_assoc]

/-! ## The search -/

/-- The inner loop: from what was found last to what it leaves in `header`. -/
inductive Aligns (data : Bytes) (offset : ℕ) : Option ℕ → Option ℕ → Prop
  | missing : Aligns data offset none none
  | onGrid {header : ℕ} : (header - offset) % 8 = 0 → Aligns data offset (some header) (some header)
  | again {header : ℕ} {result : Option ℕ} : (header - offset) % 8 ≠ 0 →
      Aligns data offset (findHeader data (header + 8 - (header - offset) % 8)) result →
        Aligns data offset (some header) result

theorem Aligns.unique {found result result' : Option ℕ} (h : Aligns data offset found result)
    (h' : Aligns data offset found result') : result = result' := by
  induction h with
  | missing =>
    cases h'
    rfl
  | onGrid hgrid =>
    cases h' with
    | onGrid => rfl
    | again hoff => exact absurd hgrid hoff
  | again hoff _ ih =>
    cases h' with
    | onGrid hgrid => exact absurd hgrid hoff
    | again _ hrest => exact ih hrest

/-- The inner loop ends: every search starts further on. -/
theorem aligns_alignedHeader (fuel : ℕ) {start : ℕ} (hfuel : data.length - start < fuel) :
    Aligns data offset (findHeader data start) (alignedHeader data offset fuel start) := by
  induction fuel generalizing start with
  | zero => omega
  | succ fuel ih =>
    have hfind := findHeader_spec data start
    unfold alignedHeader
    cases hf : findHeader data start with
    | none => exact .missing
    | some header =>
      rw [hf] at hfind
      obtain ⟨hle, hat, -⟩ := hfind
      have hlt := hat.lt
      dsimp only
      by_cases hgrid : (header - offset) % 8 = 0
      · rw [if_pos hgrid]
        exact .onGrid hgrid
      · rw [if_neg hgrid]
        exact .again hgrid (ih (by omega))

/-- What the search of a turn finds. -/
def nextHeader (data : Bytes) (offset : ℕ) : Option ℕ :=
  alignedHeader data offset (data.length + 1) offset

theorem aligns_iff {result : Option ℕ} :
    Aligns data offset (findHeader data offset) result ↔ result = nextHeader data offset := by
  have hends := @aligns_alignedHeader data offset (data.length + 1) offset (by omega)
  constructor
  · intro h
    exact h.unique hends
  · rintro rfl
    exact hends

/-- A turn that finds no header. -/
theorem referenceFrom_of_none (h : nextHeader data offset = none) :
    referenceFrom data offset = some (data.drop offset) := by
  have hspec := alignedHeader_spec data offset (data.length + 1) offset (Nat.le_refl _) (by simp)
    (by omega)
  rw [show alignedHeader data offset (data.length + 1) offset = none from h] at hspec
  exact referenceFrom_no_header hspec

/-- A turn that finds one. -/
theorem referenceFrom_of_some {header : ℕ} (h : nextHeader data offset = some header) :
    offset ≤ header ∧ header < data.length ∧
      referenceFrom data offset =
        if data.length < header + 16 then none
        else
          (repeatBytes ((data.drop (header + 16)).take 8)
            (bigEndian ((data.drop (header + 8)).take 8))).bind fun run =>
              (referenceFrom data (header + 24)).map fun rest =>
                (data.drop offset).take (header - offset) ++ run ++ rest := by
  have hspec := alignedHeader_spec data offset (data.length + 1) offset (Nat.le_refl _) (by simp)
    (by omega)
  rw [show alignedHeader data offset (data.length + 1) offset = some header from h] at hspec
  obtain ⟨hle, hgrid, hat, hfirst⟩ := hspec
  exact ⟨hle, hat.lt, referenceFrom_header hle hgrid hat hfirst⟩

/-! ## The loop -/

/-- The outer loop of `rle_decode`: from the offset and what is decoded so far to its outcome,
`none` being an error. -/
inductive Decodes (data : Bytes) : ℕ → Bytes → Option Bytes → Prop
  | finished {offset : ℕ} {result : Bytes} : ¬ offset < data.length →
      Decodes data offset result (some result)
  | literals {offset : ℕ} {result : Bytes} : offset < data.length →
      Aligns data offset (findHeader data offset) none →
        Decodes data offset result (some (result ++ data.drop offset))
  | cutOff {offset header : ℕ} {result : Bytes} : offset < data.length →
      Aligns data offset (findHeader data offset) (some header) →
        data.length < header + 16 → Decodes data offset result none
  | tooLong {offset header : ℕ} {result : Bytes} : offset < data.length →
      Aligns data offset (findHeader data offset) (some header) →
        ¬ data.length < header + 16 →
          repeatBytes ((data.drop (header + 16)).take 8)
            (bigEndian ((data.drop (header + 8)).take 8)) = none →
              Decodes data offset result none
  | run {offset header : ℕ} {result run : Bytes} {outcome : Option Bytes} : offset < data.length →
      Aligns data offset (findHeader data offset) (some header) →
        ¬ data.length < header + 16 →
          repeatBytes ((data.drop (header + 16)).take 8)
            (bigEndian ((data.drop (header + 8)).take 8)) = some run →
              Decodes data (header + 24)
                (result ++ (data.drop offset).take (header - offset) ++ run) outcome →
                  Decodes data offset result outcome

/-- Where the loop ends, it ends as the walk does. -/
theorem Decodes.sound {result : Bytes} {outcome : Option Bytes}
    (h : Decodes data offset result outcome) :
    outcome = (referenceFrom data offset).map (result ++ ·) := by
  induction h with
  | finished hend =>
    rw [referenceFrom_end (by omega)]
    simp
  | literals _ hnone =>
    rw [referenceFrom_of_none (aligns_iff.mp hnone).symm]
    rfl
  | cutOff _ hsome hshort =>
    obtain ⟨-, -, hturn⟩ := referenceFrom_of_some (aligns_iff.mp hsome).symm
    rw [hturn, if_pos hshort]
    rfl
  | tooLong _ hsome hshort hlong =>
    obtain ⟨-, -, hturn⟩ := referenceFrom_of_some (aligns_iff.mp hsome).symm
    rw [hturn, if_neg hshort, hlong]
    rfl
  | run _ hsome hshort hrun _ ih =>
    obtain ⟨-, -, hturn⟩ := referenceFrom_of_some (aligns_iff.mp hsome).symm
    rw [ih, hturn, if_neg hshort, hrun, Option.bind_some, Option.map_map]
    simp only [Function.comp_def, List.append_assoc]

/-- The loop ends: every turn that goes on moves the offset forward. -/
theorem decodes_total (data : Bytes) (offset : ℕ) (result : Bytes) :
    ∃ outcome, Decodes data offset result outcome := by
  induction hleft : data.length - offset using Nat.strong_induction_on generalizing offset result
    with
  | _ left ih =>
    by_cases hend : offset < data.length
    · cases hheader : nextHeader data offset with
      | none => exact ⟨_, .literals hend (aligns_iff.mpr hheader.symm)⟩
      | some header =>
        have hfound := aligns_iff.mpr hheader.symm
        obtain ⟨hle, -, -⟩ := referenceFrom_of_some hheader
        by_cases hshort : data.length < header + 16
        · exact ⟨none, .cutOff hend hfound hshort⟩
        · cases hrun : repeatBytes ((data.drop (header + 16)).take 8)
            (bigEndian ((data.drop (header + 8)).take 8)) with
          | none => exact ⟨none, .tooLong hend hfound hshort hrun⟩
          | some run =>
            obtain ⟨outcome, hrest⟩ := ih (data.length - (header + 24)) (by omega) (header + 24)
              (result ++ (data.drop offset).take (header - offset) ++ run) rfl
            exact ⟨outcome, .run hend hfound hshort hrun hrest⟩
    · exact ⟨some result, .finished hend⟩

/-- The loop run with enough fuel. -/
theorem rleDecodeFrom_eq (fuel : ℕ) (h : data.length - offset < fuel) :
    rleDecodeFrom data fuel offset = referenceFrom data offset := by
  induction fuel generalizing offset with
  | zero => omega
  | succ fuel ih =>
    unfold rleDecodeFrom
    by_cases hend : data.length ≤ offset
    · rw [if_pos hend, referenceFrom_end hend]
    · rw [if_neg hend]
      cases hheader : alignedHeader data offset (data.length + 1) offset with
      | none => exact (referenceFrom_of_none hheader).symm
      | some header =>
        obtain ⟨hle, -, hturn⟩ := referenceFrom_of_some hheader
        rw [hturn]
        dsimp only
        split
        · rfl
        · rw [ih (by omega)]
          cases repeatBytes ((data.drop (header + 16)).take 8)
            (bigEndian ((data.drop (header + 8)).take 8)) with
          | none => rfl
          | some run => rfl

/-- The loops of `rle_decode` end on every byte string, and only with what the plain decoder
gives: the same bytes, or an error where it has one. -/
theorem rle_decode_refines (data : Bytes) :
    rleDecode data = referenceDecode data ∧
      ∀ outcome, Decodes data 0 [] outcome ↔ outcome = referenceDecode data := by
  refine ⟨rleDecodeFrom_eq _ (by omega), ?_⟩
  have hid : (referenceFrom data 0).map (([] : Bytes) ++ ·) = referenceDecode data := by
    simp [referenceDecode]
  intro outcome
  constructor
  · intro h
    rw [h.sound, hid]
  · rintro rfl
    obtain ⟨outcome, h⟩ := decodes_total data 0 []
    rw [← hid, ← h.sound]
    exact h

/-- A run of `0xFE` off the grid is pixel data. -/
example : rleDecode ([1] ++ List.replicate 8 0xFE ++ List.replicate 7 2) =
    some ([1] ++ List.replicate 8 0xFE ++ List.replicate 7 2) := by decide

end Bmdwire
