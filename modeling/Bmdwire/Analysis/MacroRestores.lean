import Bmdwire.Analysis.MacroFaults
import Bmdwire.Analysis.SavedProfiles
import Bmdwire.Program.MacroRestore

/-!
# Macros saved and put back

A profile saved from one switcher, written, loaded and applied to another uploads every used macro
into its slot, in the order of the slots, whatever becomes of the uploads before it. What is
uploaded is what the ops of the macro are encoded to: an op within its limit is there as it was and
in its place, an op that no table has is there octet for octet, and an op that cannot be encoded is
left out and reported. So a macro whose ops are all within their limits is the same macro.
-/

set_option autoImplicit false

namespace Bmdwire.Profile

open Library
open Macros (Op FramedOp Fits opFrame Answers TidyOp EncodeError encodeSingleOp decodeOp
  decodeMacroBytecode decodeMacroBytecode_tidy decodeMacroBytecode_cons encodeSingleOp_frame
  comesBack_iff unknown_exact str)

/-! ## Numbers -/

theorem number_ne_nil (n : ℕ) : number n ≠ [] := by
  rw [number, Macros.str, Nat.toList_repr]
  exact Nat.toDigits_ne_nil

theorem allDigits_number (n : ℕ) : AllDigits (number n) := by
  rw [number, Macros.str, Nat.toList_repr]
  exact isNumeral_toDigits (by decide)

theorem digitsValue_number (n : ℕ) : digitsValue 10 0 (number n) = n := by
  rw [number, Macros.str, Nat.toList_repr]
  exact digitsValue_toDigits (by decide) (by decide)

theorem parseReal_number (n : ℕ) : parseReal (number n) = some (.finite n) := by
  have hdigits := allDigits_number n
  have hvalue : placed (number n) 0 = n := by
    rw [placed, digitsValue_number, zpow_zero, mul_one]
  have hread := @unsignedNumber_whole (number n) [] 0 hdigits (number_ne_nil n) trivial
    (by simp) rfl
  rw [List.append_nil, hvalue] at hread
  have hstrip : strip (number n) = number n := strip_numerals (by decide) hdigits
  cases hnumber : number n with
  | nil => exact absurd hnumber (number_ne_nil n)
  | cons c cs =>
    rw [hnumber] at hread hstrip hdigits
    have hc := hdigits c List.mem_cons_self
    have hsign := hc.ne (by decide)
    rw [parseReal, hstrip]
    split
    · rename_i heq
      exact absurd (List.cons.inj heq).1 hsign.2.1
    · rename_i heq
      exact absurd (List.cons.inj heq).1 hsign.2.2.1
    · rw [unsignedReal_digit hc, hread]
      rfl

/-- A number that is written is read back. -/
theorem intOf_number (default : ℤ) {n : ℕ} (h : n < 2 ^ 16) :
    intOf default (some (number n)) = .ok n := by
  have hbound : |(n : ℤ)| < 2 ^ 53 := by
    rw [abs_of_nonneg (by omega)]
    omega
  have hexact : nearestDouble n = n := by
    have h := @nearestDouble_exact n 0 hbound (by decide)
    simpa using h
  have hpower : ∀ k, 16 ≤ k → |(n : ℚ)| < 2 ^ k := by
    intro k hk
    have hlt : (n : ℚ) < 2 ^ 16 := by exact_mod_cast h
    rw [abs_of_nonneg (by positivity)]
    exact lt_of_lt_of_le hlt (pow_le_pow_right₀ (by norm_num) hk)
  have hsmall := hpower 1024 (by norm_num)
  have hround : FloatVal.ofRat n = .finite n := by
    rw [FloatVal.ofRat, hexact, if_pos hsmall]
  have htruncate : truncate n = n := by
    rw [truncate, if_pos (Nat.cast_nonneg n)]
    exact Int.floor_natCast n
  unfold intOf
  split
  · rename_i heq
    cases heq
  · rename_i heq
    exact absurd (Option.some.inj heq) (number_ne_nil n)
  · rename_i s _ heq
    obtain rfl := Option.some.inj heq
    rw [parseReal_number]
    dsimp only
    rw [hround]
    dsimp only
    rw [htruncate]

/-! ## The ops of a macro -/

/-- The octets of the ops that can be encoded. -/
def kept (ops : List Op) : List Bytes := ops.filterMap fun op => (encodeSingleOp op).toOption

/-- The ids of the others. -/
def dropped (ops : List Op) : List String :=
  ops.filterMap fun op =>
    match encodeSingleOp op with
    | .ok _ => none
    | .error _ => some (if op.id = "" then "<no-id>" else op.id)

/-- No op fails with anything but a `ValueError`. -/
def Calm (ops : List Op) : Prop := ∀ op ∈ ops, Answers (encodeSingleOp op)

section
variable {op : Op} (ops : List Op)

theorem kept_ok {chunk : Bytes} (h : encodeSingleOp op = .ok chunk) :
    kept (op :: ops) = chunk :: kept ops := by
  simp [kept, h, Except.toOption]

theorem kept_error {e : EncodeError} (h : encodeSingleOp op = .error e) :
    kept (op :: ops) = kept ops := by
  simp [kept, h, Except.toOption]

theorem dropped_ok {chunk : Bytes} (h : encodeSingleOp op = .ok chunk) :
    dropped (op :: ops) = dropped ops := by
  simp [dropped, h]

theorem dropped_error {e : EncodeError} (h : encodeSingleOp op = .error e) :
    dropped (op :: ops) = (if op.id = "" then "<no-id>" else op.id) :: dropped ops := by
  simp [dropped, h]

end

theorem encodeOps_calm {ops : List Op} (h : Calm ops) :
    encodeOps ops = .ok (kept ops, dropped ops) := by
  induction ops with
  | nil => rfl
  | cons op ops ih =>
    have hrest := ih fun op' hop' => h op' (List.mem_cons_of_mem _ hop')
    have hop := h op List.mem_cons_self
    unfold encodeOps
    rw [hrest]
    cases hencode : encodeSingleOp op with
    | ok chunk =>
      rw [kept_ok ops hencode, dropped_ok ops hencode]
      rfl
    | error e =>
      rw [hencode] at hop
      rw [kept_error ops hencode, dropped_error ops hencode]
      exact if_pos hop

/-- An element of an op is read as the op. -/
theorem opOf_opElement {op : Op} (h : TidyOp op) : opOf (opElement op) = op := by
  have hnoId : ∀ p ∈ op.attrs, p.1 ≠ "id" := by
    intro p hp heq
    have hnodup := h.2.1.1
    rw [List.nodup_cons] at hnodup
    exact hnodup.1 (heq ▸ List.mem_map_of_mem hp)
  have hkeep : ((op.attrs.map fun p => (p.1.toList, p.2.toList)).filter
      fun p => p.1 ≠ "id".toList) = op.attrs.map fun p => (p.1.toList, p.2.toList) := by
    rw [List.filter_eq_self]
    intro p hp
    obtain ⟨q, hq, rfl⟩ := List.mem_map.mp hp
    simpa using fun heq => hnoId q hq (String.toList_injective heq)
  have hattrib : attribOf (opElement op) =
      ("id".toList, op.id.toList) :: op.attrs.map fun p => (p.1.toList, p.2.toList) := by
    simp [opElement, element, attribOf, Function.comp_def]
  have hid : attribOrEmpty "id" (opElement op) = op.id.toList := by
    rw [attribOrEmpty, attrib, hattrib, List.lookup_cons_self]
    rfl
  rw [opOf, hid, hattrib, List.filter_cons_of_neg (by simp), hkeep, List.map_map]
  simp [Function.comp_def]

section
variable {ops : List FramedOp}

/-- What is kept of framed ops is decoded: those within their limits are there, in order. -/
theorem sublist_kept (h : ∀ p ∈ ops, Fits p.opType p.params) {sub : List FramedOp}
    (hsub : sub.Sublist ops) (hmet : ∀ p ∈ sub, p.Met) :
    (sub.map FramedOp.decoded).Sublist
      (decodeMacroBytecode (kept (ops.map FramedOp.decoded)).flatten) := by
  induction hsub with
  | slnil => exact .slnil
  | @cons sub ops p hsub ih =>
    have hrest := ih (fun q hq => h q (List.mem_cons_of_mem _ hq)) hmet
    rw [List.map_cons]
    cases hencode : encodeSingleOp p.decoded with
    | error e =>
      rw [kept_error _ hencode]
      exact hrest
    | ok chunk =>
      obtain ⟨packed, hpacked, rfl⟩ := encodeSingleOp_frame (h p List.mem_cons_self) hencode
      rw [kept_ok _ hencode, List.flatten_cons, decodeMacroBytecode_cons hpacked]
      exact hrest.cons _
  | @cons_cons sub ops p hsub ih =>
    have hrest := ih (fun q hq => h q (List.mem_cons_of_mem _ hq))
      fun q hq => hmet q (List.mem_cons_of_mem _ hq)
    obtain ⟨packed, hpacked, hencode, hback⟩ :=
      (comesBack_iff (h p List.mem_cons_self)).mpr (hmet p List.mem_cons_self)
    have hop : encodeSingleOp p.decoded = .ok (opFrame p.opType packed) := hencode
    rw [List.map_cons, List.map_cons, kept_ok _ hop, List.flatten_cons,
      decodeMacroBytecode_cons hpacked, hback]
    exact hrest.cons_cons _

/-- When all are within their limits, nothing else is there. -/
theorem decode_kept (h : ∀ p ∈ ops, Fits p.opType p.params) (hmet : ∀ p ∈ ops, p.Met) :
    decodeMacroBytecode (kept (ops.map FramedOp.decoded)).flatten = ops.map FramedOp.decoded ∧
      dropped (ops.map FramedOp.decoded) = [] := by
  induction ops with
  | nil => exact ⟨rfl, rfl⟩
  | cons p ops ih =>
    obtain ⟨hdecode, hdropped⟩ := ih (fun q hq => h q (List.mem_cons_of_mem _ hq))
      fun q hq => hmet q (List.mem_cons_of_mem _ hq)
    obtain ⟨packed, hpacked, hencode, hback⟩ :=
      (comesBack_iff (h p List.mem_cons_self)).mpr (hmet p List.mem_cons_self)
    have hop : encodeSingleOp p.decoded = .ok (opFrame p.opType packed) := hencode
    constructor
    · rw [List.map_cons, kept_ok _ hop, List.flatten_cons, decodeMacroBytecode_cons hpacked, hback,
        hdecode]
      rfl
    · rw [List.map_cons, dropped_ok _ hop, hdropped]

/-- Ops within their limits are encoded. -/
theorem calm_of_met (h : ∀ p ∈ ops, Fits p.opType p.params) (hmet : ∀ p ∈ ops, p.Met) :
    Calm (ops.map FramedOp.decoded) := by
  unfold Calm
  rw [List.forall_mem_map]
  intro p hp
  obtain ⟨packed, hpacked, hencode, -⟩ := (comesBack_iff (h p hp)).mpr (hmet p hp)
  have hop : encodeSingleOp p.decoded = .ok (opFrame p.opType packed) := hencode
  have hshort := hpacked.2
  rw [hop, Answers, opFrame, List.append_assoc, leRead_leBytes]
  simp only [List.length_append, length_leBytes, Option.some.injEq]
  omega

/-- Unknown ops are kept octet for octet. -/
theorem flatten_kept (h : ∀ p ∈ ops, p.octets = opFrame p.opType p.params ∧
    Fits p.opType p.params) (hunknown : ∀ p ∈ ops, p.IsUnknown) :
    (kept (ops.map FramedOp.decoded)).flatten = (ops.map FramedOp.octets).flatten := by
  induction ops with
  | nil => rfl
  | cons p ops ih =>
    obtain ⟨hoctets, hfits⟩ := h p List.mem_cons_self
    have hop := unknown_exact hoctets hfits (hunknown p List.mem_cons_self)
    have hrest := ih (fun q hq => h q (List.mem_cons_of_mem _ hq))
      fun q hq => hunknown q (List.mem_cons_of_mem _ hq)
    rw [List.map_cons, kept_ok _ hop, List.flatten_cons, hrest]
    rfl

end

/-! ## The loop -/

/-- What the loop is about to do with a macro. -/
structure Planned where
  upload : MacroUpload
  droppedIds : List String
  metadataOnly : Bool

/-- The macro of a used slot, from what was downloaded of it. -/
def planOf (download : ℕ → Option Bytes) (p : ℕ × MacroProperties) : Planned :=
  let ops := decodeMacroBytecode ((download p.1).getD [])
  { upload := ⟨p.1, decodeName p.2.name, decodeName p.2.description, (kept ops).flatten⟩
    droppedIds := dropped ops
    metadataOnly := (kept ops).isEmpty }

section
variable (switcher : Switcher)

def Planned.run (r : Restoring) (p : Planned) : Restoring :=
  r.upload switcher p.upload p.droppedIds p.metadataOnly

/-- The macros with their answers, each given after the uploads before it. -/
def answered : List MacroUpload → List Planned → List (Planned × Option Text)
  | _, [] => []
  | before, p :: ps =>
    (p, switcher before p.upload) :: answered (before ++ [p.upload]) ps

/-- A macro that landed without some of its ops. -/
def dropOf (a : Planned × Option Text) : Option Drop :=
  if a.2 = none ∧ a.1.droppedIds ≠ [] then
    some ⟨a.1.upload.slot, a.1.upload.name, a.1.droppedIds, a.1.metadataOnly⟩
  else none

/-- A macro that did not land. -/
def failureOf (a : Planned × Option Text) : Option Failure :=
  a.2.map fun text => ⟨a.1.upload.slot, a.1.upload.name, "upload error: ".toList ++ text⟩

/-- What was noted is what was answered. -/
structure Accounted (before : List MacroUpload) (ps : List Planned) (r r' : Restoring) : Prop where
  uploads : r'.uploads = r.uploads ++ ps.map Planned.upload
  restored : r'.restored = r.restored + (answered switcher before ps).countP fun a => a.2.isNone
  drops : r'.drops = r.drops ++ (answered switcher before ps).filterMap dropOf
  failures : r'.failures = r.failures ++ (answered switcher before ps).filterMap failureOf

theorem accounted_run (r : Restoring) (p : Planned) :
    Accounted switcher r.uploads [p] r (p.run switcher r) := by
  unfold Planned.run Restoring.upload
  cases hanswer : switcher r.uploads p.upload with
  | none =>
    by_cases hdropped : p.droppedIds = []
    · constructor <;> simp [answered, hanswer, dropOf, failureOf, hdropped]
    · constructor <;> simp [answered, hanswer, dropOf, failureOf, hdropped]
  | some text => constructor <;> simp [answered, hanswer, dropOf, failureOf]

theorem accounted_foldl (ps : List Planned) (r : Restoring) :
    Accounted switcher r.uploads ps r (ps.foldl (Planned.run switcher) r) := by
  induction ps generalizing r with
  | nil => constructor <;> simp [answered]
  | cons p ps ih =>
    have hone := accounted_run switcher r p
    have hrest := ih (p.run switcher r)
    have hbefore : (p.run switcher r).uploads = r.uploads ++ [p.upload] := hone.uploads
    rw [hbefore] at hrest
    have hanswered : answered switcher r.uploads (p :: ps) =
        answered switcher r.uploads [p] ++ answered switcher (r.uploads ++ [p.upload]) ps := rfl
    rw [List.foldl_cons]
    constructor
    · rw [hrest.uploads, hbefore, List.map_cons, List.append_assoc]
      rfl
    · rw [hrest.restored, hone.restored, hanswered, List.countP_append, Nat.add_assoc]
    · rw [hrest.drops, hone.drops, hanswered, List.filterMap_append, List.append_assoc]
    · rw [hrest.failures, hone.failures, hanswered, List.filterMap_append, List.append_assoc]

/-- Every macro landed or is reported. -/
theorem Accounted.total {before : List MacroUpload} {ps : List Planned} {r : Restoring}
    (h : Accounted switcher before ps .start r) : r.restored + r.failures.length = ps.length := by
  have hcount : ∀ (before : List MacroUpload) (ps : List Planned),
      ((answered switcher before ps).countP fun a => a.2.isNone) +
        ((answered switcher before ps).filterMap failureOf).length = ps.length := by
    intro before ps
    induction ps generalizing before with
    | nil => rfl
    | cons p ps ih =>
      have hrest := ih (before ++ [p.upload])
      rw [answered, List.countP_cons, List.filterMap_cons, List.length_cons]
      cases hanswer : switcher before p.upload with
      | none =>
        simp only [failureOf, Option.map_none, Option.isNone_none, if_true]
        omega
      | some text =>
        simp only [failureOf, Option.map_some, Option.isNone_some, Bool.false_eq_true, if_false,
          List.length_cons]
        omega
  rw [h.restored, h.failures, ← hcount before ps]
  simp [Restoring.start]

end

section
variable {download : ℕ → Option Bytes} {p : ℕ × MacroProperties}

theorem findall_all {tag : String} {name : String} {attrs : List (String × Text)}
    {children : List Element} (h : ∀ c ∈ children, tagOf c = tag.toList) :
    findall tag (element name attrs children) = children := by
  unfold element findall
  rw [List.filter_eq_self]
  exact fun c hc => decide_eq_true (h c hc)

theorem attrib_element (key tag : String) (attrs : List (String × Text))
    (children : List Element) : attrib key (element tag attrs children) = attrs.lookup key := by
  unfold element attrib attribOf
  dsimp only
  induction attrs with
  | nil => rfl
  | cons a attrs ih =>
    have hsame : (key.toList == a.1.toList) = (key == a.1) := by
      rw [Bool.eq_iff_iff, beq_iff_eq, beq_iff_eq, String.toList_inj]
    rw [List.map_cons, List.lookup_cons, List.lookup_cons, ih, hsame]

/-- The ops of a saved macro are read as they were saved. -/
theorem ops_macroElement (raw : Option Bytes) :
    (findall "Op" (macroElement p.1 p.2 raw)).map opOf = decodeMacroBytecode (raw.getD []) := by
  have htag : ∀ c ∈ (decodeMacroBytecode (raw.getD [])).map opElement,
      tagOf c = "Op".toList := by
    rw [List.forall_mem_map]
    exact fun op _ => rfl
  unfold macroElement
  rw [findall_all htag, List.map_map]
  refine List.map_congr_left (fun op hop => ?_) |>.trans (List.map_id _)
  exact opOf_opElement (decodeMacroBytecode_tidy _ op hop)

/-- One turn, over a saved macro. -/
theorem turn_macroElement (switcher : Switcher) (r : Restoring) (hindex : p.1 < 2 ^ 16)
    (hcalm : Calm (decodeMacroBytecode ((download p.1).getD []))) :
    r.turn switcher (macroElement p.1 p.2 (download p.1)) =
      .ok ((planOf download p).run switcher r) := by
  have hslot : attrib "index" (macroElement p.1 p.2 (download p.1)) = some (number p.1) := by
    rw [macroElement, attrib_element, List.lookup_cons_self]
  have hname : attribOrEmpty "name" (macroElement p.1 p.2 (download p.1)) =
      decodeName p.2.name := by
    rw [attribOrEmpty, macroElement, attrib_element]
    rfl
  have hdescription : attribOrEmpty "description" (macroElement p.1 p.2 (download p.1)) =
      decodeName p.2.description := by
    rw [attribOrEmpty, macroElement, attrib_element]
    rfl
  have hnonneg : ¬ (p.1 : ℤ) < 0 := by omega
  unfold Restoring.turn
  rw [hslot, intOf_number _ hindex, ops_macroElement, encodeOps_calm hcalm, hname, hdescription]
  dsimp only
  rw [if_neg hnonneg, Int.toNat_natCast]
  rfl

theorem foldlM_turn (switcher : Switcher) (ps : List (ℕ × MacroProperties)) (r : Restoring)
    (hindex : ∀ p ∈ ps, p.1 < 2 ^ 16)
    (hcalm : ∀ p ∈ ps, Calm (decodeMacroBytecode ((download p.1).getD []))) :
    (ps.map fun p => macroElement p.1 p.2 (download p.1)).foldlM (Restoring.turn switcher) r =
      .ok ((ps.map (planOf download)).foldl (Planned.run switcher) r) := by
  induction ps generalizing r with
  | nil => rfl
  | cons p ps ih =>
    rw [List.map_cons, List.foldlM_cons, turn_macroElement switcher r
      (hindex p List.mem_cons_self) (hcalm p List.mem_cons_self)]
    exact ih _ (fun q hq => hindex q (List.mem_cons_of_mem _ hq))
      fun q hq => hcalm q (List.mem_cons_of_mem _ hq)

end

/-! ## The whole way -/

/-- The macros that are saved, by slot. -/
def State.usedMacros (s : State) : List (ℕ × MacroProperties) :=
  (sortedItems s.macroProperties).filter fun p => p.2.isUsed

/-- No other section has the tag of the macros. -/
def Shape.OnePool (shape : Shape) : Prop :=
  ∀ p ∈ shape.beforeSettings ++ shape.afterSettings ++ shape.afterMediaPool,
    tagOf p.element ≠ "MacroPool".toList

/-- What is uploaded for a used slot, and what is said to be missing. -/
structure PutBack (raw : Bytes) (p : ℕ × MacroProperties) (q : Planned) : Prop where
  slot : q.upload.slot = p.1
  name : q.upload.name = decodeName p.2.name
  description : q.upload.description = decodeName p.2.description
  bytecode : q.upload.bytecode = (kept (decodeMacroBytecode raw)).flatten
  droppedIds : q.droppedIds = dropped (decodeMacroBytecode raw)
  within : ∀ ops sub : List FramedOp, Macros.Framed raw ops → sub.Sublist ops →
    (∀ op ∈ sub, op.Met) →
    (sub.map FramedOp.decoded).Sublist (decodeMacroBytecode q.upload.bytecode)
  whole : ∀ ops, Macros.Framed raw ops → (∀ op ∈ ops, op.Met) →
    decodeMacroBytecode q.upload.bytecode = decodeMacroBytecode raw ∧ q.droppedIds = []
  unknown : ∀ ops, Macros.Framed raw ops → (∀ op ∈ ops, op.IsUnknown) → q.upload.bytecode = raw

section
variable {shape : Shape} {download : ℕ → Option Bytes} {s : State}

theorem flatten_octets {raw : Bytes} {ops : List FramedOp} (h : Macros.Framed raw ops) :
    (ops.map FramedOp.octets).flatten = raw := by
  induction h with
  | nil => rfl
  | cons hframe hrest ih => rw [List.map_cons, List.flatten_cons, ih]

theorem putBack_planOf (p : ℕ × MacroProperties) :
    PutBack ((download p.1).getD []) p (planOf download p) where
  slot := rfl
  name := rfl
  description := rfl
  bytecode := rfl
  droppedIds := rfl
  within ops sub hframed hsub hmet := by
    have h := sublist_kept (fun q hq => (hframed.fits q hq).2) hsub hmet
    rwa [← hframed.decoded] at h
  whole ops hframed hmet := by
    have h := decode_kept (fun q hq => (hframed.fits q hq).2) hmet
    rwa [← hframed.decoded] at h
  unknown ops hframed hunknown := by
    have h := flatten_kept hframed.fits hunknown
    rwa [← hframed.decoded, flatten_octets hframed] at h

theorem findall_given {tag : String} {ps : List PlainElement}
    (h : ∀ p ∈ ps, tagOf p.element ≠ tag.toList) :
    (ps.map PlainElement.element).filter (fun c => tagOf c = tag.toList) = [] := by
  rw [List.filter_eq_nil_iff, List.forall_mem_map]
  simpa using h

/-- Tags of the sections that are not the macros. -/
theorem tag_ne {c : Element} {tag : String} (h : tagOf c = tag.toList) (hne : tag ≠ "MacroPool") :
    [c].filter (fun c => tagOf c = "MacroPool".toList) = [] := by
  apply List.filter_cons_of_neg
  rw [h, decide_eq_true_eq, String.toList_inj]
  exact hne

theorem find_macroPool (hmacros : shape.macros = true) (hpool : shape.OnePool) :
    find "MacroPool" (fromAtem shape download s) =
      some (buildMacroPool s.macroProperties download) := by
  have hbefore := findall_given fun p hp =>
    hpool p (List.mem_append_left _ (List.mem_append_left _ hp))
  have hafter := findall_given fun p hp =>
    hpool p (List.mem_append_left _ (List.mem_append_right _ hp))
  have hmedia := findall_given fun p hp => hpool p (List.mem_append_right _ hp)
  have hsettings : ((shape.settings.map fun settings =>
      buildSettings settings s.inputProperties).toList).filter
        (fun c => tagOf c = "MacroPool".toList) = [] := by
    cases shape.settings with
    | none => rfl
    | some settings => exact @tag_ne _ "Settings" rfl (by decide)
  have hstills : (if shape.mediaPoolMetadata then [buildMediaPoolStills s.mediaplayerFileInfo]
      else []).filter (fun c => tagOf c = "MacroPool".toList) = [] := by
    split_ifs
    · exact @tag_ne _ "MediaPool" rfl (by decide)
    · rfl
  have hmine : (if shape.macros then [buildMacroPool s.macroProperties download] else []).filter
      (fun c => tagOf c = "MacroPool".toList) = [buildMacroPool s.macroProperties download] := by
    rw [if_pos hmacros]
    exact List.filter_cons_of_pos (decide_eq_true rfl)
  unfold fromAtem element find findall
  simp only [List.filter_append, hbefore, hafter, hmedia, hsettings, hstills, hmine,
    List.nil_append]
  rfl

theorem findall_macros :
    findall "Macro" (buildMacroPool s.macroProperties download) =
      s.usedMacros.map fun p => macroElement p.1 p.2 (download p.1) := by
  apply findall_all
  rw [List.forall_mem_map]
  exact fun p _ => rfl

/-- A saved profile uploads its macros. -/
theorem applyMacros_fromAtem (repr : Text → Text) (switcher : Switcher) (result : ApplyResult)
    (hmacros : shape.macros = true) (hpool : shape.OnePool)
    (hindex : ∀ p ∈ s.usedMacros, p.1 < 2 ^ 16)
    (hcalm : ∀ p ∈ s.usedMacros, Calm (decodeMacroBytecode ((download p.1).getD []))) :
    ∃ r, Accounted switcher [] (s.usedMacros.map (planOf download)) .start r ∧
      applyMacros repr true switcher (fromAtem shape download s) result =
        .ok (r, if s.usedMacros = [] then result
          else result.noteMacros repr s.usedMacros.length r) := by
  refine ⟨_, accounted_foldl switcher (s.usedMacros.map (planOf download)) .start, ?_⟩
  unfold applyMacros
  rw [find_macroPool hmacros hpool]
  dsimp only
  rw [findall_macros]
  by_cases hnone : s.usedMacros = []
  · rw [hnone]
    rfl
  · rw [if_neg (mt List.map_eq_nil_iff.mp hnone), if_neg hnone,
      foldlM_turn switcher _ _ hindex hcalm, List.length_map]
    rfl

end

/-- The macros alone. -/
def macrosOnly : Shape where
  settings := none
  mediaPoolMetadata := false
  macros := true
  beforeSettings := []
  afterSettings := []
  afterMediaPool := []
  afterMacros := []

/-- A macro `Cut` in the fourth slot. -/
def cutMacro : ℕ × MacroProperties := (3, ⟨true, [0x43, 0x75, 0x74], []⟩)

def cutState : State where
  productName := none
  inputProperties := []
  mediaplayerFileInfo := []
  macroProperties := [cutMacro]

/-- Its bytecode is that of a cut. -/
def cutDownload (_ : ℕ) : Option Bytes := some [8, 0, 4, 0, 1, 0, 0, 0]

theorem usedMacros_cut : cutState.usedMacros = [cutMacro] := by
  simp [State.usedMacros, sortedItems, cutState, cutMacro]

theorem legalNames_cut : LegalNames macrosOnly cutState := by
  refine ⟨by simp [cutState], by simp [macrosOnly], by simp [macrosOnly], ?_⟩
  intro _ p hp _
  obtain rfl := List.mem_singleton.mp hp
  constructor <;> decide

theorem calm_cut : Calm (decodeMacroBytecode ((cutDownload 3).getD [])) := by
  have hframed : Macros.Framed ((cutDownload 3).getD [])
      [⟨[8, 0, 4, 0, 1, 0, 0, 0], 4, [1, 0, 0, 0]⟩] :=
    @Macros.Framed.cons ⟨[8, 0, 4, 0, 1, 0, 0, 0], 4, [1, 0, 0, 0]⟩ [] _ rfl .nil
  rw [hframed.decoded]
  apply calm_of_met fun p hp => (hframed.fits p hp).2
  rw [List.forall_mem_singleton]
  exact trivial

end Bmdwire.Profile
