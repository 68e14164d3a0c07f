import Bmdwire.Analysis.MacroRestores
import Bmdwire.Analysis.RateRoundTrip
import Bmdwire.Program.ProfileSections

/-!
# From the wire to the wire

What a reader makes of a number of the wire, as a text in a profile and out of it again, is for a
setter the same number: the text has enough places for it, and what is rounded on the way is
rounded to it. A number beyond the range of the setter is sent as the end of the range.
-/

set_option autoImplicit false

namespace Bmdwire.Profile

open Library
open Macros (isPlain_numerals isPlain_dropZeros)
open Rates (intText)

/-! ## Texts -/

theorem intText_natCast (n : ℕ) : intText n = number n := by
  rw [intText, if_neg (by omega), List.nil_append, Int.natAbs_natCast, number, Macros.str,
    Nat.toList_repr]

/-- An integer of two octets is read back. -/
theorem intOf_fmt (default : ℤ) {n : ℤ} (h : 0 ≤ n ∧ n < 2 ^ 16) :
    intOf default (some (fmt (.int n))) = .ok n := by
  obtain ⟨m, rfl⟩ := Int.eq_ofNat_of_zero_le h.1
  rw [show fmt (.int m) = number m from intText_natCast m]
  exact intOf_number default (by omega)

theorem boolOf_fmt (default b : Bool) : boolOf default (some (fmt (.bool b))) = b := by
  cases b
  · rfl
  · rfl

theorem realOf_of_parse (default : ℚ) {s : Text} {q : ℚ}
    (h : parseReal s = some (.finite q)) : realOf default (some s) = FloatVal.ofRat q := by
  unfold realOf
  split
  · contradiction
  · rename_i heq
    obtain rfl := Option.some.inj heq
    cases h
  · rename_i heq
    obtain rfl := Option.some.inj heq
    rw [h]

/-- An integer over a power of ten is read back as the same number of the format. -/
theorem realOf_fmt (default : ℚ) {power : ℕ} {w : ℤ} (hpower : power ≤ 6) (hw : |w| < 2 ^ 19) :
    realOf default (some (fmt (.real (.finite (decimal power w))))) =
      .finite (decimal power w) := by
  rw [fmt]
  split_ifs with hzero
  · rw [hzero, realOf_of_parse default (q := 0) (by decide +kernel)]
    decide +kernel
  · have hread := parseReal_about (@about_decimal power w hw) hpower le_rfl
    rw [realOf_of_parse default hread]
    exact ofRat_decimal hw

/-! ## Plain texts -/

theorem isPlain_intText (n : ℤ) : IsPlain (intText n) := by
  have hdigits : IsPlain (Nat.toDigits 10 n.natAbs) :=
    isPlain_numerals (by decide) (isNumeral_toDigits (by decide))
  unfold intText
  split_ifs
  · exact List.forall_mem_cons.mpr ⟨by decide, hdigits⟩
  · exact hdigits

theorem isPlain_formatF (places : ℕ) (q : ℚ) : IsPlain (formatF places q) := by
  obtain ⟨ws, fs, htext, hws, -, hfs, -, -⟩ :=
    pointed_padded places (roundHalfEven (|q| * 10 ^ places)).toNat
  have hdigits : IsPlain (ws ++ '.' :: fs) := List.forall_mem_append.mpr
    ⟨isPlain_numerals (by decide) hws,
      List.forall_mem_cons.mpr ⟨by decide, isPlain_numerals (by decide) hfs⟩⟩
  rw [formatF, htext, signText]
  split_ifs
  · exact List.forall_mem_cons.mpr ⟨by decide, hdigits⟩
  · exact hdigits

theorem isPlain_fmt (v : Scalar) : IsPlain (fmt v) := by
  cases v with
  | int n => exact isPlain_intText n
  | bool b =>
    cases b
    · decide
    · decide
  | real x =>
    cases x with
    | finite q =>
      simp only [fmt]
      split_ifs
      · decide
      · intro c hc
        have hkept := (List.rdropWhile_prefix (fun d => decide (d = '.')) _).subset hc
        exact isPlain_dropZeros (isPlain_formatF 6 q) c hkept
    | infinite negative =>
      cases negative
      · decide
      · decide
    | nan => decide

/-- The names that something is written by are plain. -/
def Form.NamesPlain : Form → Prop
  | .named names other => (∀ p ∈ names, IsPlain p.2) ∧ IsPlain other
  | .cyclic names => ∀ name ∈ names, IsPlain name
  | _ => True

instance : (f : Form) → Decidable f.NamesPlain
  | .plain => inferInstanceAs (Decidable True)
  | .named .. => inferInstanceAs (Decidable (_ ∧ _))
  | .cyclic _ => inferInstanceAs (Decidable (∀ name ∈ _, _))
  | .player => inferInstanceAs (Decidable True)

theorem isPlain_form {f : Form} (h : f.NamesPlain) (v : Scalar) : IsPlain (f.of v) := by
  unfold Form.of
  split
  · -- by a table
    rename_i names other n
    cases hname : names.lookup n with
    | none => exact h.2
    | some name =>
      obtain ⟨before, after, rfl, -⟩ := List.lookup_eq_some_iff.mp hname
      exact h.1 (n, name) (by simp)
  · -- by a list of names
    rename_i names n
    rw [List.getD_eq_getElem?_getD]
    cases hname : names[(n % names.length).toNat]? with
    | none =>
      intro c hc
      cases hc
    | some name => exact h name (List.mem_of_getElem? hname)
  · -- a media player
    split_ifs
    · exact List.forall_mem_append.mpr ⟨show IsPlain _ by decide, isPlain_intText _⟩
    · exact isPlain_intText _
  · exact isPlain_fmt v

/-! ## Numbers of the wire -/

/-- The number in the octets of a field; that of a switch is 0 or 1. -/
def wireNumber (type : FieldType) (octets : Bytes) : ℤ :=
  match type with
  | .number _ signed _ => unpackNumber signed octets
  | _ => if unpackNumber false octets ≠ 0 then 1 else 0

/-- The number that a message has in a field. -/
def Recv.number {fields : List Field} (m : Recv fields) (name : String) : ℤ :=
  match fields.find? fun f => f.name = name with
  | some f => wireNumber f.type (slice f.offset f.type.size m.raw)
  | none => 0

/-- The number that was reported, or what stands for it when there is no message. -/
def told {fields : List Field} (m : Option (Recv fields)) (name : String) (default : ℤ) : ℤ :=
  match m with
  | some m => m.number name
  | none => default

/-- The numbers of a field. -/
def WireFits (type : FieldType) (w : ℤ) : Prop :=
  match type with
  | .number width signed _ => NumberFits width.octets signed w
  | _ => w = 0 ∨ w = 1

instance WireFits.decidable (type : FieldType) (w : ℤ) : Decidable (WireFits type w) :=
  match type with
  | .number width signed _ => inferInstanceAs (Decidable (NumberFits width.octets signed w))
  | .boolean => inferInstanceAs (Decidable (w = 0 ∨ w = 1))
  | .string _ => inferInstanceAs (Decidable (w = 0 ∨ w = 1))

/-- The field is for a text. -/
def isText : FieldType → Bool
  | .string _ => true
  | _ => false

/-- The attribute of a message whose field has the number. -/
def scalarAt (type : FieldType) (w : ℤ) : Scalar :=
  match type with
  | .number _ _ scale =>
    if scale.scales then .real (FloatVal.ofRat (w / scale.number)) else .int w
  | _ => .bool (w ≠ 0)

theorem unpackBig_lt (octets : Bytes) : unpackBig octets < 2 ^ (8 * octets.length) := by
  induction octets using List.reverseRecOn with
  | nil => decide
  | append_singleton octets b ih =>
    have hb := b.toNat_lt
    rw [unpackBig_concat, List.length_append, List.length_singleton, mul_add, mul_one, pow_add]
    omega

theorem wireFits_wireNumber {type : FieldType} {octets : Bytes}
    (h : octets.length = type.size) : WireFits type (wireNumber type octets) := by
  cases type with
  | number width signed scale =>
    have hpos := width.octets_pos
    have hlt : unpackBig octets < 2 ^ (8 * width.octets) := by
      have h := h ▸ unpackBig_lt octets
      exact h
    cases signed with
    | false =>
      have hcast : (unpackBig octets : ℤ) < 2 ^ (8 * width.octets) := by exact_mod_cast hlt
      exact ⟨Int.natCast_nonneg _, hcast⟩
    | true =>
      simp only [WireFits, wireNumber, unpackNumber, NumberFits, if_true, h]
      exact asSigned_bounds (Nat.mul_pos (by decide) hpos) hlt
  | boolean =>
    simp only [WireFits, wireNumber]
    split <;> simp
  | string size =>
    simp only [WireFits, wireNumber]
    split <;> simp

theorem scalarOf_unpack {type : FieldType} (htype : isText type = false)
    (octets : Bytes) : scalarOf (type.unpack octets) =
      some (scalarAt type (wireNumber type octets)) := by
  cases type with
  | number width signed scale =>
    simp only [FieldType.unpack, scalarAt, wireNumber]
    cases scale with
    | int s =>
      by_cases hs : s = 1
      · simp [hs, Scale.scales, scalarOf]
      · simp [hs, Scale.scales, Scale.number, scalarOf]
    | float s =>
      by_cases hs : s = 1
      · simp [hs, Scale.scales, scalarOf]
      · simp [hs, Scale.scales, Scale.number, scalarOf]
  | boolean =>
    simp only [FieldType.unpack, scalarAt, wireNumber, scalarOf]
    by_cases hzero : unpackNumber false octets = 0
    · simp [hzero]
    · simp [hzero]
  | string size => cases htype

/-! ## What readers give -/

section
variable (r : Reader)

/-- The field a reader looks at. -/
def Reader.type : FieldType :=
  match r.fields.find? fun f => f.name = r.name with
  | some f => f.type
  | none => .boolean

/-- The number that stands for what the reader gives without a message. -/
def Reader.absent : ℤ :=
  match r.default, r.showing with
  | .int n, _ => n
  | .bool b, _ => b.toInt
  | .real (.finite q), .over power _ => (q * 10 ^ power).num
  | _, _ => 0

/-- The number of the wire that is read. -/
def Reader.wire (mx : Mixer) (index : UInt8) : ℤ := told (r.entry mx index) r.name r.absent

/-- The field is there, and what is given without a message is what is given for a number. -/
structure Reader.Sound : Prop where
  has : (r.fields.find? fun f => f.name = r.name).isSome = true
  type : isText r.type = false
  fits : WireFits r.type r.absent
  default : r.showing.of r.default (scalarAt r.type r.absent) = r.default

end

instance (r : Reader) : Decidable r.Sound :=
  decidable_of_iff ((r.fields.find? fun f => f.name = r.name).isSome = true ∧
      isText r.type = false ∧ WireFits r.type r.absent ∧
      r.showing.of r.default (scalarAt r.type r.absent) = r.default)
    ⟨fun ⟨has, type, fits, default⟩ => ⟨has, type, fits, default⟩,
      fun h => ⟨h.has, h.type, h.fits, h.default⟩⟩

section
variable {r : Reader} (hr : r.Sound) (mx : Mixer) (index : UInt8)
include hr

theorem Reader.Sound.wire_fits : WireFits r.type (r.wire mx index) := by
  unfold Reader.wire told
  split
  · rename_i m hm
    have htype := hr.type
    unfold Recv.number
    unfold Reader.type at htype ⊢
    obtain ⟨f, hf⟩ := Option.isSome_iff_exists.mp hr.has
    rw [hf] at htype ⊢
    have hlong := m.enough f (List.mem_of_find?_eq_some hf)
    apply wireFits_wireNumber
    rw [slice, List.length_take, List.length_drop]
    dsimp only
    omega
  · exact hr.fits

/-- A reader gives what it makes of the number of the wire. -/
theorem Reader.Sound.read_eq :
    r.read mx index = r.showing.of r.default (scalarAt r.type (r.wire mx index)) := by
  unfold Reader.read Reader.wire told
  cases hm : r.entry mx index with
  | none => exact hr.default.symm
  | some m =>
    obtain ⟨f, hf⟩ := Option.isSome_iff_exists.mp hr.has
    have htype := hr.type
    unfold Reader.type at htype
    rw [hf] at htype
    have hget : m.get r.name = some (scalarAt f.type (m.number r.name)) := by
      unfold Recv.get Recv.number
      rw [hf]
      exact scalarOf_unpack htype _
    have hfield : r.type = f.type := by
      unfold Reader.type
      rw [hf]
    rw [Option.bind_some, hget, hfield]

end

/-! ## From the wire to the wire -/

/-- What a setter sends for a number of the wire. -/
def sentFor (form : Form) (reading : Reading) (writing : Writing) (w : ℤ) : ℤ :=
  match form, writing with
  | .plain, .scaled _ (some top) => max 0 (min top w)
  | .plain, .percentToUnit => min 1000 w
  | .plain, _ => w
  | form, _ =>
    match reading.of (some (form.of (.int w))) with
    | .ok (.int n) => n
    | _ => w

/-- A reader of a field and a setter go together, when numbers are written. -/
def goTogether (type : FieldType) : Showing → Reading → Writing → Bool
  | .int, .int _, .int => decide (type = Commands.u8 ∨ type = Commands.u16)
  | .bool, .bool, .bool => decide (type = .boolean)
  | .over power places, .float _, .scaled power' top =>
    decide (power' = power ∧ power ≤ places ∧ places ≤ 6 ∧
      (type = Commands.i16 ∧ top = none ∨
        type = Commands.u16 ∧ ∀ t ∈ top.toList, 0 ≤ t ∧ t < 2 ^ 16))
  | .float places, .float _, .float =>
    decide (1 ≤ places ∧ places ≤ 6 ∧ type = .u16 (.int 10))
  | .percentFromUnit, .float _, .percentToUnit => decide (type = .u16 (.int 1000))
  | _, _, _ => false

/-- What an octet is written as, by a name, is read as an octet. -/
def namesReturn : Form → Reading → Bool
  | .named .., .named numbers _ default | .cyclic _, .named numbers _ default =>
    decide (WireFits Commands.u8 default ∧ ∀ p ∈ numbers, WireFits Commands.u8 p.2)
  | .player, .player => true
  | _, _ => false

/-- A field of a message, its reader, the reading of the text, the setter and a field of its
command fit together. -/
def Matched (type : FieldType) (showing : Showing) (form : Form) (reading : Reading)
    (writing : Writing) (target : FieldType) : Prop :=
  target = type ∧
    (form = .plain ∧ goTogether type showing reading writing = true ∨
      namesReturn form reading = true ∧ type = Commands.u8 ∧ showing = .int ∧ writing = .int)

instance (type : FieldType) (showing : Showing) (form : Form) (reading : Reading)
    (writing : Writing) (target : FieldType) :
    Decidable (Matched type showing form reading writing target) :=
  inferInstanceAs (Decidable (_ ∧ _))

/-- What is sent of a number of the wire that was shown, written and read. -/
def Returns (form : Form) (reading : Reading) (writing : Writing) (target : FieldType)
    (shown : Scalar) (n : ℤ) : Prop :=
  ∃ v value, reading.of (some (form.of shown)) = .ok v ∧ writing.of v = .ok value ∧
    target.InRange value ∧ ∀ octets, target.ReadsBack value octets → wireNumber target octets = n

section
variable {w : ℤ} (default : Scalar)

theorem small_of_fits {width : Width} {signed : Bool} (h : NumberFits width.octets signed w)
    (hwidth : width ≠ .four) : |w| < 2 ^ 19 := by
  rw [abs_lt]
  cases width <;> cases signed <;> simp_all [NumberFits, Width.octets] <;> omega

/-- A number without a scale is sent as it is. -/
theorem sends_plain {width : Width} {signed : Bool} (h : NumberFits width.octets signed w) :
    (FieldType.number width signed (.float 1)).InRange (.int w) ∧
      ∀ octets, (FieldType.number width signed (.float 1)).ReadsBack (.int w) octets →
        wireNumber (.number width signed (.float 1)) octets = w := by
  have hplain : (Scale.float 1).scales = false := by simp [Scale.scales]
  refine ⟨⟨w, by simp [wireInt, hplain], h⟩, fun octets hback => ?_⟩
  simp only [FieldType.ReadsBack, hplain, Bool.false_eq_true, if_false] at hback
  obtain ⟨n, hn, hunpack⟩ := hback
  have hsame : (w : ℚ) = n := Option.some.inj hn
  rw [unpack_of_not_scales hplain, Value.int.injEq] at hunpack
  rw [Int.cast_injective hsame]
  exact hunpack

/-- A number with a scale is sent as it is packed. -/
theorem sends_scaled {width : Width} {s : ℤ} (hs : s ≠ 1) {value : Value}
    (hwire : wireInt (.int s) value = some w) (h : NumberFits width.octets false w) :
    (FieldType.number width false (.int s)).InRange value ∧
      ∀ octets, (FieldType.number width false (.int s)).ReadsBack value octets →
        wireNumber (.number width false (.int s)) octets = w := by
  have hscales : (Scale.int s).scales = true := by simpa [Scale.scales] using hs
  refine ⟨⟨w, hwire, h⟩, fun octets hback => ?_⟩
  simp only [FieldType.ReadsBack, hscales, if_true] at hback
  exact (Option.some.inj (hwire.symm.trans hback.1)).symm

theorem scalarAt_plain (width : Width) (signed : Bool) :
    scalarAt (.number width signed (.float 1)) w = .int w := by
  simp [scalarAt, Scale.scales]

theorem returns_int (width : Width) (hwidth : width ≠ .four)
    (h : NumberFits width.octets false w) (d : ℤ) :
    Returns .plain (.int d) .int (.number width false (.float 1))
      (Showing.int.of default (scalarAt (.number width false (.float 1)) w)) w := by
  have hrange : 0 ≤ w ∧ w < 2 ^ 16 := by
    cases width <;> simp_all [NumberFits, Width.octets]
    omega
  obtain ⟨hin, hback⟩ := sends_plain h
  refine ⟨.int w, .int w, ?_, rfl, hin, hback⟩
  rw [scalarAt_plain]
  show (intOf d (some (fmt (.int w)))).map Scalar.int = _
  rw [intOf_fmt d hrange]
  rfl

theorem returns_bool (h : w = 0 ∨ w = 1) :
    Returns .plain .bool .bool .boolean (Showing.bool.of default (scalarAt .boolean w)) w := by
  refine ⟨.bool (w ≠ 0), .bool (w ≠ 0), ?_, rfl, trivial, fun octets hback => ?_⟩
  · show Except.ok (Scalar.bool (boolOf false (some (fmt (.bool _))))) = _
    rw [boolOf_fmt]
    rfl
  · have hunpack : decide (unpackNumber false octets ≠ 0) = decide (w ≠ 0) :=
      Value.bool.inj hback
    have hiff : unpackNumber false octets ≠ 0 ↔ w ≠ 0 := decide_eq_decide.mp hunpack
    unfold wireNumber
    rcases h with rfl | rfl
    · exact if_neg (mt hiff.mp (by simp))
    · exact if_pos (hiff.mpr (by simp))

/-- Rounded to places, a number that stands for an integer over a power of ten is that one. -/
theorem reading_decimal (d : ℚ) {power : ℕ} (hpower : power ≤ 6) (hw : |w| < 2 ^ 19) :
    (Reading.float d).of (some (fmt (.real (.finite (decimal power w))))) =
      .ok (.real (.finite (decimal power w))) := by
  show Except.ok (Scalar.real (realOf d (some (fmt (.real (.finite (decimal power w))))))) = _
  rw [realOf_fmt d hpower hw]

theorem wholeOf_about {power : ℕ} {x : ℚ} (h : About power w x) (hpower : power ≤ 6)
    (hw : |w| < 2 ^ 19) :
    wholeOf roundHalfEven (timesFloat (.finite x) (10 ^ power)) = .ok w := by
  obtain ⟨hsmall, hround⟩ := round_nearestDouble_about h hpower hw
  show wholeOf roundHalfEven (FloatVal.ofRat (x * 10 ^ power)) = _
  rw [ofRat_small hsmall]
  exact congrArg Except.ok hround

theorem overPower_int (power : ℕ) (hw : |w| < 2 ^ 19) :
    overPower power (Scalar.int w).float = .finite (decimal power w) := by
  have hexact : FloatVal.ofRat w = .finite w := by
    have h := @ofRat_decimal 0 w hw
    have hdecimal : decimal 0 w = w := by
      have h := @nearestDouble_exact w 0 (hw.trans (by norm_num)) (by decide)
      simpa [decimal] using h
    rwa [hdecimal, pow_zero, div_one] at h
  rw [Scalar.float, hexact]
  exact ofRat_decimal hw

theorem returns_over {power places : ℕ} (width : Width) {signed : Bool} (top : Option ℤ)
    (hwidth : width ≠ .four) (hpower : power ≤ places) (hplaces : places ≤ 6)
    (h : NumberFits width.octets signed w)
    (d : ℚ) (htop : NumberFits width.octets signed
      (sentFor .plain (.float d) (.scaled power top) w)) :
    Returns .plain (.float d) (.scaled power top) (.number width signed (.float 1))
      ((Showing.over power places).of default (scalarAt (.number width signed (.float 1)) w))
      (sentFor .plain (.float d) (.scaled power top) w) := by
  have hw := small_of_fits h hwidth
  have hshown : (Showing.over power places).of default
      (scalarAt (.number width signed (.float 1)) w) = .real (.finite (decimal power w)) := by
    rw [scalarAt_plain]
    show Scalar.real (roundTo places (overPower power (Scalar.int w).float)) = _
    rw [overPower_int power hw]
    exact congrArg (Scalar.real ∘ FloatVal.finite)
      (roundPlaces_about (about_decimal hw) hpower hplaces)
  have hwritten : (Writing.scaled power top).of (.real (.finite (decimal power w))) =
      .ok (.int (sentFor .plain (.float d) (.scaled power top) w)) := by
    have hwhole := wholeOf_about (about_decimal hw) (hpower.trans hplaces) hw
    simp only [Writing.of, Scalar.float, hwhole, sentFor]
    cases top <;> rfl
  obtain ⟨hin, hback⟩ := sends_plain htop
  rw [hshown]
  exact ⟨_, _, reading_decimal d (hpower.trans hplaces) hw, hwritten, hin, hback⟩

/-- What is packed with a scale of ten or a thousand. -/
theorem wireInt_about {power : ℕ} {s : ℤ} (hs : (s : ℚ) = 10 ^ power) (hscale : s ≠ 1)
    (hfloat : floatOf s = some (s : ℚ)) {x : ℚ} (h : About power w x) (hpower : power ≤ 6)
    (hw : |w| < 2 ^ 19) : wireInt (.int s) (.float (.finite x)) = some w := by
  obtain ⟨hsmall, hround⟩ := round_nearestDouble_about h hpower hw
  have hscales : (Scale.int s).scales = true := by simpa [Scale.scales] using hscale
  rw [← hs] at hsmall hround
  simp only [wireInt, hscales, if_true, scaledFloat, hfloat, Option.bind_some]
  show roundFloat? (FloatVal.ofRat (x * s)) = some w
  rw [ofRat_small hsmall]
  exact congrArg some hround

theorem scalarAt_scaled (width : Width) {power : ℕ} {s : ℤ} (hs : (s : ℚ) = 10 ^ power)
    (hscale : s ≠ 1) (hw : |w| < 2 ^ 19) :
    scalarAt (.number width false (.int s)) w = .real (.finite (decimal power w)) := by
  have hscales : (Scale.int s).scales = true := by simpa [Scale.scales] using hscale
  simp only [scalarAt, hscales, if_true, Scale.number, hs]
  rw [ofRat_decimal hw]

theorem returns_float {places : ℕ} (hlow : 1 ≤ places) (hplaces : places ≤ 6)
    (h : NumberFits 2 false w) (d : ℚ) :
    Returns .plain (.float d) .float (.u16 (.int 10))
      ((Showing.float places).of default (scalarAt (.u16 (.int 10)) w)) w := by
  have hw : |w| < 2 ^ 19 := @small_of_fits w .two false h (by decide)
  have hten : ((10 : ℤ) : ℚ) = 10 ^ 1 := by norm_num
  have hshown : (Showing.float places).of default (scalarAt (.u16 (.int 10)) w) =
      .real (.finite (decimal 1 w)) := by
    rw [FieldType.u16, scalarAt_scaled .two hten (by decide) hw]
    exact congrArg (Scalar.real ∘ FloatVal.finite)
      (roundPlaces_about (about_decimal hw) hlow hplaces)
  have hwire := wireInt_about hten (by decide) (by decide +kernel) (about_decimal hw)
    (by decide) hw
  obtain ⟨hin, hback⟩ := @sends_scaled w .two 10 (by decide) _ hwire h
  rw [hshown]
  exact ⟨_, _, reading_decimal d (by decide) hw, rfl, hin, hback⟩

theorem unitClamp_finite (q : ℚ) : unitClamp (.finite q) = .finite (max 0 (min 1 q)) := by
  simp only [unitClamp]
  congr 1
  split_ifs with hlt hpos
  · rw [min_eq_right hlt.le, max_eq_right hpos.le]
  · rw [min_eq_right hlt.le, max_eq_left (not_lt.mp hpos)]
  · rw [min_eq_left (not_lt.mp hlt), max_eq_right zero_le_one]

theorem returns_percent (h : NumberFits 2 false w) (d : ℚ) :
    Returns .plain (.float d) .percentToUnit (.u16 (.int 1000))
      (Showing.percentFromUnit.of default (scalarAt (.u16 (.int 1000)) w))
      (sentFor .plain (.float d) .percentToUnit w) := by
  have hw : |w| < 2 ^ 19 := @small_of_fits w .two false h (by decide)
  have hthousand : ((1000 : ℤ) : ℚ) = 10 ^ 3 := by norm_num
  obtain ⟨hsmall, hpercent⟩ := @about_percent 1 w hw
  obtain ⟨hsmall', hunit⟩ := @about_hundredth 1 w hw
  have hshown : Showing.percentFromUnit.of default (scalarAt (.u16 (.int 1000)) w) =
      .real (.finite (decimal 1 w)) := by
    rw [FieldType.u16, scalarAt_scaled .two hthousand (by decide) hw]
    show Scalar.real (roundTo 2 (FloatVal.ofRat (decimal 3 w * 100))) = _
    rw [ofRat_small hsmall]
    exact congrArg (Scalar.real ∘ FloatVal.finite)
      (roundPlaces_about hpercent (by decide) (by decide))
  have hwritten : Writing.percentToUnit.of (.real (.finite (decimal 1 w))) =
      .ok (.float (.finite (max 0 (min 1 (nearestDouble (decimal 1 w / 100)))))) := by
    have hover : overPower 2 (.finite (decimal 1 w)) =
        .finite (nearestDouble (decimal 1 w / 100)) := by
      show FloatVal.ofRat (decimal 1 w / 10 ^ 2) = _
      rw [show (10 : ℚ) ^ 2 = 100 by norm_num, ofRat_small hsmall']
    simp only [Writing.of, Scalar.float, hover, unitClamp_finite]
  have hkept : max 0 (min (10 ^ 3) w) = sentFor .plain (.float d) .percentToUnit w := by
    have := h.1
    simp only [sentFor]
    omega
  have hclamped := hunit.unit
  rw [hkept] at hclamped
  have hfits : NumberFits 2 false (sentFor .plain (.float d) .percentToUnit w) := by
    have hlow := h.1
    have hhigh := h.2
    refine ⟨?_, ?_⟩
    · simp only [sentFor]
      omega
    · simp only [sentFor]
      omega
  have hwire := wireInt_about hthousand (by decide) (by decide +kernel) hclamped (by decide)
    (@small_of_fits _ .two false hfits (by decide))
  obtain ⟨hin, hback⟩ := @sends_scaled _ .two 1000 (by decide) _ hwire hfits
  rw [hshown]
  exact ⟨_, _, reading_decimal d (by decide) hw, hwritten, hin, hback⟩

/-- Where both ends fit, the number comes back, kept in the range of the setter. -/
theorem returns_together {type : FieldType} {showing : Showing} {reading : Reading}
    {writing : Writing} (h : goTogether type showing reading writing = true)
    (hfits : WireFits type w) :
    Returns .plain reading writing type (showing.of default (scalarAt type w))
      (sentFor .plain reading writing w) := by
  unfold goTogether at h
  split at h
  · -- integers
    obtain rfl | rfl := of_decide_eq_true h
    · exact returns_int default .one (by decide) hfits _
    · exact returns_int default .two (by decide) hfits _
  · -- switches
    obtain rfl := of_decide_eq_true h
    exact returns_bool default hfits
  · -- divided by a power of ten
    rename_i d _ top
    obtain ⟨rfl, hpower, hplaces, ⟨rfl, rfl⟩ | ⟨rfl, htop⟩⟩ := of_decide_eq_true h
    · exact returns_over default .two none (by decide) hpower hplaces hfits d hfits
    · refine returns_over default .two top (by decide) hpower hplaces hfits d ?_
      cases top with
      | none => exact hfits
      | some t =>
        have ht := htop t (by simp)
        have hlow := hfits.1
        have hhigh := hfits.2
        refine ⟨?_, ?_⟩
        · simp only [sentFor]
          omega
        · simp only [sentFor, Width.octets]
          omega
  · -- of the tenths of a degree
    obtain ⟨hlow, hplaces, rfl⟩ := of_decide_eq_true h
    exact returns_float default hlow hplaces hfits _
  · -- of the thousandths of a unit
    obtain rfl := of_decide_eq_true h
    exact returns_percent default hfits _
  · cases h

theorem lookup_fits {numbers : List (Text × ℤ)} (default : ℤ)
    (hdefault : WireFits Commands.u8 default) (h : ∀ p ∈ numbers, WireFits Commands.u8 p.2)
    (name : Text) : WireFits Commands.u8 ((numbers.lookup name).getD default) := by
  cases hname : numbers.lookup name with
  | none => exact hdefault
  | some n =>
    obtain ⟨before, after, rfl, -⟩ := List.lookup_eq_some_iff.mp hname
    exact h (name, n) (by simp)

/-- A media player is read as it was written. -/
theorem playerOf_written {n : ℤ} (h : 0 ≤ n) :
    playerOf (some (Form.player.of (.int n))) = some n := by
  have hdigits : ∀ c ∈ intText n, c ≠ 'M' := by
    intro c hc
    rw [intText, if_neg (by omega), List.nil_append] at hc
    obtain ⟨d, hd, rfl⟩ := isNumeral_toDigits (by decide) c hc
    interval_cases d <;> decide
  show playerOf (some (if 1 ≤ n ∧ n ≤ 4 then "MediaPlayer".toList ++ intText n else intText n)) = _
  split_ifs
  · have hstart : "MediaPlayer".toList.isPrefixOf ("MediaPlayer".toList ++ intText n) = true := by
      rw [List.isPrefixOf_iff_prefix]
      exact List.prefix_append ..
    have hdrop : ("MediaPlayer".toList ++ intText n).drop 11 = intText n := rfl
    simp only [playerOf, Option.getD_some, hstart, if_true, hdrop]
    exact Rates.parseInt_intText n
  · have hstart : "MediaPlayer".toList.isPrefixOf (intText n) = false := by
      rw [← Bool.not_eq_true, List.isPrefixOf_iff_prefix]
      intro hstart
      exact hdigits 'M' (hstart.subset (by decide)) rfl
    simp only [playerOf, Option.getD_some, hstart, Bool.false_eq_true, if_false]
    exact Rates.parseInt_intText n

/-- An octet that is written as a name is sent as the octet that the name is read as. -/
theorem returns_named {form : Form} {reading : Reading} (h : namesReturn form reading = true)
    (hfits : WireFits Commands.u8 w) :
    Returns form reading .int Commands.u8 (Showing.int.of default (scalarAt Commands.u8 w))
      (sentFor form reading .int w) := by
  have hshown : Showing.int.of default (scalarAt Commands.u8 w) = .int w :=
    congrArg (Showing.int.of default) (scalarAt_plain .one false)
  have hread : ∀ {m : ℤ}, WireFits Commands.u8 m →
      reading.of (some (form.of (.int w))) = .ok (.int m) → sentFor form reading .int w = m →
      Returns form reading .int Commands.u8 (.int w) (sentFor form reading .int w) := by
    intro m hm hread hsent
    obtain ⟨hin, hback⟩ := @sends_plain m .one false hm
    exact ⟨.int m, .int m, hread, rfl, hin, hsent ▸ hback⟩
  rw [hshown]
  unfold namesReturn at h
  split at h
  · obtain ⟨hdefault, hnumbers⟩ := of_decide_eq_true h
    exact hread (lookup_fits _ hdefault hnumbers _) rfl rfl
  · obtain ⟨hdefault, hnumbers⟩ := of_decide_eq_true h
    exact hread (lookup_fits _ hdefault hnumbers _) rfl rfl
  · have hplayer : Reading.player.of (some (Form.player.of (.int w))) = .ok (.int w) := by
      show Except.ok (Scalar.int ((playerOf (some (Form.player.of (.int w)))).getD 0)) = _
      rw [playerOf_written hfits.1]
      rfl
    refine hread hfits hplayer ?_
    show (match Reading.player.of (some (Form.player.of (.int w))) with
      | .ok (.int n) => n
      | _ => w) = w
    rw [hplayer]
  · cases h

/-- Where a field, its reader and a setter fit together, what is sent for the number is known. -/
theorem Matched.returns {type : FieldType} {showing : Showing} {form : Form} {reading : Reading}
    {writing : Writing} {target : FieldType}
    (h : Matched type showing form reading writing target) (hfits : WireFits type w) :
    Returns form reading writing target (showing.of default (scalarAt type w))
      (sentFor form reading writing w) := by
  obtain ⟨rfl, ⟨rfl, htogether⟩ | ⟨hnames, rfl, rfl, rfl⟩⟩ := h
  · exact returns_together default htogether hfits
  · exact returns_named default hnames hfits

end

end Bmdwire.Profile
