import Bmdwire.Interface.MacroFields
import Bmdwire.Library.Raising
import Bmdwire.Library.Utf8Encode
import Bmdwire.Library.XmlText
import Bmdwire.Program.MacroCodec

/-!
# The texts of decoded ops

A decoder writes numbers, switches and names of its tables, each under a key of its own. So what
an op holds can stand in an XML document, whatever its parameters were; so can the text of a
decoder's error.
-/

set_option autoImplicit false
set_option maxRecDepth 4000

namespace Bmdwire.Macros

open Library

/-! ## Values -/

/-- The text has plain characters only. -/
def PlainText (text : String) : Prop := IsPlain text.toList

instance (text : String) : Decidable (PlainText text) :=
  inferInstanceAs (Decidable (IsPlain text.toList))

/-- A character beyond ASCII has a first octet beyond it. -/
theorem encodeChar_first {c : Char} (h : 0x7f < c.toNat) :
    ∃ b ∈ String.utf8EncodeChar c, 0x7f < b.toNat := by
  have hval : c.val.toNat = c.toNat := rfl
  have hcases := toNat_cases c
  unfold String.utf8EncodeChar
  simp only [hval]
  split
  · omega
  split
  · exact ⟨_, List.mem_cons_self, by rw [toNat_ofNat_octet (by omega)]; omega⟩
  split
  · exact ⟨_, List.mem_cons_self, by rw [toNat_ofNat_octet (by omega)]; omega⟩
  · exact ⟨_, List.mem_cons_self, by rw [toNat_ofNat_octet (by omega)]; omega⟩

/-- The octets of a text tell that it is plain. -/
theorem plainText_of_octets {s : String}
    (h : (s.toByteArray.data.toList.all fun b => 0x20 ≤ b.toNat ∧ b.toNat < 0x7f) = true) :
    PlainText s := by
  intro c hc
  have hoctets : ∀ b ∈ String.utf8EncodeChar c, 0x20 ≤ b.toNat ∧ b.toNat < 0x7f := by
    intro b hb
    apply of_decide_eq_true
    apply List.all_eq_true.mp h
    rw [← String.utf8Encode_toList]
    have hmem : b ∈ s.toList.flatMap String.utf8EncodeChar := List.mem_flatMap.mpr ⟨c, hc, hb⟩
    simpa [List.utf8Encode] using hmem
  have hle : c.toNat ≤ 0x7f := by
    by_contra hlt
    obtain ⟨b, hb, hlarge⟩ := encodeChar_first (not_le.mp hlt)
    have hsmall := hoctets b hb
    omega
  have hself : String.utf8EncodeChar c = [UInt8.ofNat c.toNat] := by
    have hval : c.val.toNat = c.toNat := rfl
    simp [String.utf8EncodeChar, hval, hle]
  have hrange := hoctets (UInt8.ofNat c.toNat) (by simp [hself])
  rwa [toNat_ofNat_octet (by omega)] at hrange

theorem plainText_append {s t : String} (hs : PlainText s) (ht : PlainText t) :
    PlainText (s ++ t) := by
  unfold PlainText at *
  rw [String.toList_append]
  exact isPlain_append.mpr ⟨hs, ht⟩

theorem isPlain_numerals {base : ℕ} (hbase : base ≤ 16) {cs : List Char}
    (h : ∀ c ∈ cs, IsNumeral base c) : IsPlain cs := by
  intro c hc
  obtain ⟨d, hd, rfl⟩ := h c hc
  have hd' : d < 16 := by omega
  interval_cases d <;> decide

theorem plainText_str (n : ℕ) : PlainText (str n) := by
  have hchars : (str n).toList = Nat.toDigits 10 n := by
    simp [str, Nat.repr]
  unfold PlainText
  rw [hchars]
  exact isPlain_numerals (by decide) (isNumeral_toDigits (by decide))

theorem plainText_boolStr (n : ℕ) : PlainText (boolStr n) := by
  rcases boolStr_cases n with h | h
  · rw [h]
    decide
  · rw [h]
    decide

/-- All the names of a table are plain. -/
def PlainNames (names : List (ℕ × String)) : Prop := ∀ p ∈ names, PlainText p.2

instance (names : List (ℕ × String)) : Decidable (PlainNames names) :=
  inferInstanceAs (Decidable (∀ p ∈ names, PlainText p.2))

theorem plainText_nameOf {names : List (ℕ × String)} (h : PlainNames names) (n : ℕ) :
    PlainText (nameOf names n) := by
  unfold nameOf
  cases hlookup : names.lookup n with
  | none => exact plainText_str n
  | some name => exact h _ (mem_of_lookup hlookup)

theorem plainText_resolveSourceToSymbol (n : ℕ) : PlainText (resolveSourceToSymbol n) := by
  unfold resolveSourceToSymbol
  split
  · exact plainText_append (by decide) (plainText_str n)
  · exact plainText_nameOf (by decide) n

theorem plainText_intercalate {sep : String} (hsep : PlainText sep) {parts : List String}
    (h : ∀ p ∈ parts, PlainText p) : PlainText (sep.intercalate parts) := by
  induction parts with
  | nil =>
    rw [String.intercalate_nil]
    decide
  | cons p parts ih =>
    rw [List.forall_mem_cons] at h
    cases parts with
    | nil =>
      rw [String.intercalate_singleton]
      exact h.1
    | cons q parts =>
      rw [String.intercalate_cons_cons]
      exact plainText_append (plainText_append h.1 hsep) (ih h.2)

theorem plainText_resolveLayerMask (mask : ℕ) : PlainText (resolveLayerMask mask) := by
  unfold resolveLayerMask
  dsimp only
  split
  · decide
  · apply plainText_intercalate (by decide)
    intro name hname
    obtain ⟨p, hp, rfl⟩ := List.mem_map.mp hname
    have hall : PlainNames layerNames := by decide
    exact hall p (List.mem_of_mem_filter hp)

/-! ## Scalars -/

theorem isPlain_dropZeros {ds : List Char} (h : IsPlain ds) : IsPlain (dropZeros ds) := by
  intro c hc
  apply h
  have hmem := (List.dropWhile_suffix _).subset (List.mem_reverse.mp hc)
  exact List.mem_reverse.mp hmem

theorem isPlain_replicate (n : ℕ) : IsPlain (List.replicate n '0') := by
  intro c hc
  obtain rfl := List.eq_of_mem_replicate hc
  decide

theorem isPlain_fixedText {ds : List Char} (h : IsPlain ds) (k : ℤ) : IsPlain (fixedText ds k) := by
  have htake : ∀ n, IsPlain (ds.take n) := fun n c hc => h c (List.mem_of_mem_take hc)
  have hdrop : ∀ n, IsPlain (ds.drop n) := fun n c hc => h c (List.mem_of_mem_drop hc)
  unfold fixedText
  split_ifs
  · simp [isPlain_cons, isPlain_append, isPlain_replicate, h]
  · simp [isPlain_append, isPlain_replicate, h]
  · simp [isPlain_append, isPlain_cons, htake, hdrop]

theorem isPlain_exponentText {ds : List Char} (h : IsPlain ds) (k : ℤ) :
    IsPlain (exponentText ds k) := by
  have htake : IsPlain (ds.take 1) := fun c hc => h c (List.mem_of_mem_take hc)
  have hdrop : IsPlain (ds.drop 1) := fun c hc => h c (List.mem_of_mem_drop hc)
  have hpadded : IsPlain (padded 10 2 k.natAbs) :=
    isPlain_numerals (by decide) (isNumeral_padded (by decide))
  unfold exponentText
  have hpoint : IsPlain (if ds.drop 1 = [] then [] else '.' :: ds.drop 1) := by
    split_ifs
    · simp [IsPlain]
    · exact isPlain_cons.mpr ⟨by decide, hdrop⟩
  have hsign : 0x20 ≤ (if k < 0 then '-' else '+').toNat ∧
      (if k < 0 then '-' else '+').toNat < 0x7f := by
    split_ifs
    · decide
    · decide
  have he : 0x20 ≤ 'e'.toNat ∧ 'e'.toNat < 0x7f := by decide
  exact isPlain_append.mpr ⟨isPlain_append.mpr ⟨htake, hpoint⟩,
    isPlain_cons.mpr ⟨he, isPlain_cons.mpr ⟨hsign, hpadded⟩⟩⟩

theorem plainText_fixedStr (n : ℤ) : PlainText (fixedStr n) := by
  unfold fixedStr fmtScalar
  split
  · decide
  · unfold PlainText
    rw [String.toList_ofList, formatG]
    split
    · decide
    · have hdigits : ∀ m, IsPlain (dropZeros (Nat.toDigits 10 m)) := fun m =>
        isPlain_dropZeros (isPlain_numerals (by decide) (isNumeral_toDigits (by decide)))
      apply isPlain_append.mpr
      constructor
      · unfold signText
        split_ifs
        · decide
        · decide
      · unfold generalText
        split_ifs
        · exact isPlain_fixedText (hdigits _) _
        · exact isPlain_exponentText (hdigits _) _

/-! ## Reading -/

/-- The step returns anything, or tells a plain text. -/
abbrev Reads {α : Type} (x : Except String α) : Prop := Ends (fun _ => True) PlainText x

theorem byteAt_reads (params : Bytes) (i : ℕ) : Reads (byteAt params i) := by
  unfold byteAt
  split
  · trivial
  · rw [Reads, ends_error]
    decide

theorem unpackFrom_reads (size : ℕ) (buf : Bytes) (offset : ℕ) :
    Reads (unpackFrom size buf offset) := by
  have htoString : ∀ n : ℕ, PlainText (toString n) := plainText_str
  unfold unpackFrom
  split
  · trivial
  · rw [Reads, ends_error]
    have h1 : PlainText "unpack_from requires a buffer of at least " := by decide +kernel
    have h2 : PlainText " bytes for unpacking " := by decide +kernel
    have h3 : PlainText " bytes at offset " := by decide +kernel
    have h4 : PlainText " (actual buffer size is " := by decide +kernel
    have h5 : PlainText ")" := by decide +kernel
    have hfirst := plainText_append (plainText_append h1 (htoString (offset + size))) h2
    have hnext := plainText_append (plainText_append hfirst (htoString size)) h3
    have hlast := plainText_append (plainText_append hnext (htoString offset)) h4
    exact plainText_append (plainText_append hlast (htoString buf.length)) h5

theorem u16le_reads (buf : Bytes) (offset : ℕ) : Reads (u16le buf offset) :=
  unpackFrom_reads 2 buf offset

theorem u32le_reads (buf : Bytes) (offset : ℕ) : Reads (u32le buf offset) :=
  unpackFrom_reads 4 buf offset

theorem u64le_reads (buf : Bytes) (offset : ℕ) : Reads (u64le buf offset) :=
  unpackFrom_reads 8 buf offset

theorem i32le_reads (buf : Bytes) (offset : ℕ) : Reads (i32le buf offset) :=
  .map (unpackFrom_reads 4 buf offset)

theorem int32le_reads (signed : Bool) (buf : Bytes) (offset : ℕ) :
    Reads (int32le signed buf offset) := by
  cases signed with
  | false => exact .map (u32le_reads buf offset)
  | true => exact i32le_reads buf offset

theorem stripPrefixDecode_reads (params : Bytes) : Reads (stripPrefixDecode params) :=
  .bind (u16le_reads params 0) fun _ _ => .bind (u16le_reads params 2) fun _ _ =>
    .bind (u64le_reads params 4) fun _ _ => trivial

/-- Keys that an element can have beside its id. -/
def Keys (keys : List String) : Prop := ("id" :: keys).Nodup ∧ ∀ key ∈ keys, IsName key.toList

instance (keys : List String) : Decidable (Keys keys) := inferInstanceAs (Decidable (_ ∧ _))

/-- Attributes that an element can have beside its id, with plain values. -/
def TidyAttrs (attrs : Attrs) : Prop :=
  Keys (attrs.map Prod.fst) ∧ ∀ value ∈ attrs.map Prod.snd, PlainText value

/-- Whatever the parameters are, the decoder's attributes are tidy, or its error is plain. -/
def Tidy (decode : Decoder) : Prop := ∀ params, Ends TidyAttrs PlainText (decode params)

/-! ## Decoders -/

section

variable {name : String}

theorem meMarkerSource_tidy (h : Keys ["mixEffectBlockIndex", name]) :
    Tidy (dMeMarkerSource name) := fun params =>
  .bind (byteAt_reads params 0) fun me _ => .bind (u16le_reads params 2) fun source _ =>
    ⟨h, by simp [plainText_str, plainText_resolveSourceToSymbol]⟩

theorem meOnly_tidy : Tidy dMeOnly := fun params =>
  .bind (byteAt_reads params 0) fun me _ =>
    ⟨(by decide : Keys ["mixEffectBlockIndex"]), by simp [plainText_str]⟩

theorem videoMode_tidy : Tidy dVideoMode := fun params =>
  .bind (byteAt_reads params 0) fun mode _ =>
    ⟨(by decide : Keys ["videoMode"]),
      by simp [plainText_nameOf (by decide : PlainNames videoModeIntToName)]⟩

theorem meValueMarkerBool_tidy (h : Keys ["mixEffectBlockIndex", name]) :
    Tidy (dMeValueMarkerBool name) := fun params =>
  .bind (byteAt_reads params 0) fun me _ => .bind (byteAt_reads params 1) fun v _ =>
    ⟨h, by simp [plainText_str, plainText_boolStr]⟩

theorem transitionStyle_tidy : Tidy dTransitionStyle := fun params =>
  .bind (byteAt_reads params 0) fun me _ => .bind (byteAt_reads params 1) fun style _ =>
    ⟨(by decide : Keys ["mixEffectBlockIndex", "style"]),
      by simp [plainText_str, plainText_nameOf (by decide : PlainNames transitionStyles)]⟩

theorem transitionSource_tidy : Tidy dTransitionSource := fun params =>
  .bind (byteAt_reads params 0) fun me _ => .bind (u16le_reads params 2) fun mask _ =>
    ⟨(by decide : Keys ["mixEffectBlockIndex", "source"]),
      by simp [plainText_str, plainText_resolveLayerMask]⟩

theorem macroSleep_tidy : Tidy dMacroSleep := fun params =>
  .bind (u32le_reads params 0) fun frames _ =>
    ⟨(by decide : Keys ["frames"]), by simp [plainText_str]⟩

theorem auxiliaryInput_tidy : Tidy dAuxiliaryInput := fun params =>
  .bind (byteAt_reads params 0) fun aux _ => .bind (u16le_reads params 2) fun source _ =>
    ⟨(by decide : Keys ["auxiliaryIndex", "input"]),
      by simp [plainText_str, plainText_resolveSourceToSymbol]⟩

theorem keySource_tidy : Tidy dKeySource := fun params =>
  .bind (byteAt_reads params 0) fun me _ => .bind (byteAt_reads params 1) fun keyer _ =>
    .bind (u16le_reads params 2) fun source _ =>
    ⟨(by decide : Keys ["mixEffectBlockIndex", "keyIndex", "input"]),
      by simp [plainText_str, plainText_resolveSourceToSymbol]⟩

theorem keyOnAir_tidy : Tidy dKeyOnAir := fun params =>
  .bind (byteAt_reads params 0) fun me _ => .bind (byteAt_reads params 1) fun keyer _ =>
    .bind (u16le_reads params 2) fun v _ =>
    ⟨(by decide : Keys ["mixEffectBlockIndex", "keyIndex", "onAir"]),
      by simp [plainText_str, plainText_boolStr]⟩

theorem keyType_tidy : Tidy dKeyType := fun params =>
  .bind (byteAt_reads params 0) fun me _ => .bind (byteAt_reads params 1) fun keyer _ =>
    .bind (byteAt_reads params 2) fun type _ =>
    ⟨(by decide : Keys ["mixEffectBlockIndex", "keyIndex", "type"]),
      by simp [plainText_str, plainText_nameOf (by decide : PlainNames uskTypeNames)]⟩

theorem keyFixed_tidy {signed : Bool} (h : Keys ["mixEffectBlockIndex", "keyIndex", name]) :
    Tidy (dKeyFixed signed name) := fun params =>
  .bind (byteAt_reads params 0) fun me _ => .bind (byteAt_reads params 1) fun keyer _ =>
    .bind (int32le_reads signed params 4) fun n _ =>
    ⟨h, by simp [plainText_str, plainText_fixedStr]⟩

theorem meKeyerBool_tidy (h : Keys ["mixEffectBlockIndex", "keyIndex", name]) :
    Tidy (dMeKeyerBool name) := fun params =>
  .bind (byteAt_reads params 0) fun me _ => .bind (byteAt_reads params 1) fun keyer _ =>
    .bind (byteAt_reads params 2) fun v _ =>
    ⟨h, by simp [plainText_str, plainText_boolStr]⟩

theorem dskSource_tidy : Tidy dDskSource := fun params =>
  .bind (byteAt_reads params 0) fun key _ => .bind (u16le_reads params 2) fun source _ =>
    ⟨(by decide : Keys ["keyIndex", "input"]),
      by simp [plainText_str, plainText_resolveSourceToSymbol]⟩

theorem dskRate_tidy : Tidy dDskRate := fun params =>
  .bind (byteAt_reads params 0) fun key _ => .bind (u16le_reads params 2) fun v _ =>
    ⟨(by decide : Keys ["keyIndex", "rate"]), by simp [plainText_str]⟩

theorem dskAuto_tidy : Tidy dDskAuto := fun params =>
  .bind (byteAt_reads params 0) fun key _ =>
    ⟨(by decide : Keys ["keyIndex"]), by simp [plainText_str]⟩

theorem dskBool_tidy (h : Keys ["keyIndex", name]) : Tidy (dDskBool name) := fun params =>
  .bind (byteAt_reads params 0) fun key _ => .bind (byteAt_reads params 1) fun v _ =>
    ⟨h, by simp [plainText_str, plainText_boolStr]⟩

theorem dskFixed_tidy (h : Keys ["keyIndex", name]) : Tidy (dDskFixed name) := fun params =>
  .bind (byteAt_reads params 0) fun key _ => .bind (int32le_reads false params 4) fun n _ =>
    ⟨h, by simp [plainText_str, plainText_fixedStr]⟩

theorem mediaPlayerStillIndex_tidy : Tidy dMediaPlayerStillIndex := fun params =>
  .bind (byteAt_reads params 0) fun player _ => .bind (u16le_reads params 2) fun index _ =>
    ⟨(by decide : Keys ["mediaPlayer", "index"]), by simp [plainText_str]⟩

theorem mediaPlayerStillOnly_tidy : Tidy dMediaPlayerStillOnly := fun params =>
  .bind (byteAt_reads params 0) fun player _ =>
    ⟨(by decide : Keys ["mediaPlayer"]), by simp [plainText_str]⟩

theorem fairlightStripMixType_tidy : Tidy dFairlightStripMixType := fun params =>
  .bind (u16le_reads params 0) fun source _ => .bind (u64le_reads params 4) fun sid _ =>
    .bind (u16le_reads params 12) fun state _ =>
    ⟨(by decide : Keys ["input", "sourceId", "mixType"]),
      by simp [plainText_str, plainText_resolveSourceToSymbol,
        plainText_nameOf (by decide : PlainNames mixTypeNames)]⟩

theorem fairlightStripFaderGain_tidy : Tidy dFairlightStripFaderGain := fun params =>
  .bind (u16le_reads params 0) fun source _ => .bind (u64le_reads params 4) fun sid _ =>
    .bind (i32le_reads params 12) fun n _ =>
    ⟨(by decide : Keys ["input", "sourceId", "gain"]),
      by simp [plainText_str, plainText_resolveSourceToSymbol, plainText_fixedStr]⟩

theorem hpGain_tidy : Tidy dHpGain := fun params =>
  .bind (i32le_reads params 0) fun n _ =>
    ⟨(by decide : Keys ["gain"]), by simp [plainText_fixedStr]⟩

theorem meMarkerU16_tidy (h : Keys ["mixEffectBlockIndex", name]) :
    Tidy (dMeMarkerU16 name) := fun params =>
  .bind (byteAt_reads params 0) fun me _ => .bind (u16le_reads params 2) fun v _ =>
    ⟨h, by simp [plainText_str]⟩

theorem transitionWipePattern_tidy : Tidy dTransitionWipePattern := fun params =>
  .bind (u16le_reads params 2) fun pattern _ => .bind (byteAt_reads params 0) fun me _ =>
    ⟨(by decide : Keys ["mixEffectBlockIndex", "pattern"]),
      by simp [plainText_str, plainText_nameOf (by decide : PlainNames wipePatternNames)]⟩

theorem meDoubleMarkerFp_tidy {signed : Bool} (h : Keys ["mixEffectBlockIndex", name]) :
    Tidy (dMeDoubleMarkerFp signed name) := fun params =>
  .bind (int32le_reads signed params 4) fun n _ => .bind (byteAt_reads params 0) fun me _ =>
    ⟨h, by simp [plainText_str, plainText_fixedStr]⟩

theorem transitionDvePattern_tidy : Tidy dTransitionDvePattern := fun params =>
  .bind (byteAt_reads params 1) fun pattern _ => .bind (byteAt_reads params 0) fun me _ =>
    ⟨(by decide : Keys ["mixEffectBlockIndex", "pattern"]),
      by simp [plainText_str, plainText_nameOf (by decide : PlainNames dvePatternNames)]⟩

theorem genMarkerFp_tidy {signed : Bool} (h : Keys ["colorGeneratorIndex", name]) :
    Tidy (dGenMarkerFp signed name) := fun params =>
  .bind (int32le_reads signed params 4) fun n _ => .bind (byteAt_reads params 0) fun gen _ =>
    ⟨h, by simp [plainText_str, plainText_fixedStr]⟩

theorem meKeyerMarkerFp_tidy {signed : Bool} (h : Keys ["mixEffectBlockIndex", "keyIndex", name]) :
    Tidy (dMeKeyerMarkerFp signed name) := fun params =>
  .bind (int32le_reads signed params 4) fun n _ => .bind (byteAt_reads params 0) fun me _ =>
    .bind (byteAt_reads params 1) fun keyer _ =>
    ⟨h, by simp [plainText_str, plainText_fixedStr]⟩

theorem meKeyerU16_tidy (h : Keys ["mixEffectBlockIndex", "keyIndex", name]) :
    Tidy (dMeKeyerU16 name) := fun params =>
  .bind (byteAt_reads params 0) fun me _ => .bind (byteAt_reads params 1) fun keyer _ =>
    .bind (u16le_reads params 2) fun v _ =>
    ⟨h, by simp [plainText_str]⟩

theorem flykeyRunToFull_tidy : Tidy dFlykeyRunToFull := fun params =>
  .bind (byteAt_reads params 0) fun me _ => .bind (byteAt_reads params 1) fun keyer _ =>
    ⟨(by decide : Keys ["mixEffectBlockIndex", "keyIndex"]), by simp [plainText_str]⟩

theorem flykeyRunToInfinity_tidy : Tidy dFlykeyRunToInfinity := fun params =>
  .bind (byteAt_reads params 2) fun location _ => .bind (byteAt_reads params 0) fun me _ =>
    .bind (byteAt_reads params 1) fun keyer _ =>
    ⟨(by decide : Keys ["mixEffectBlockIndex", "keyIndex", "location"]),
      by simp [plainText_str,
        plainText_nameOf (by decide : PlainNames flykeyLocationNames)]⟩

theorem stripValueFp_tidy {signed : Bool} (h : Keys ["input", "sourceId", name]) :
    Tidy (dStripValueFp signed name) := fun params =>
  .bind (stripPrefixDecode_reads params) fun head _ =>
    .bind (int32le_reads signed params 12) fun n _ =>
    ⟨h, by simp [plainText_str, plainText_resolveSourceToSymbol, plainText_fixedStr]⟩

theorem eqBandEnabled_tidy : Tidy dEqBandEnabled := fun params =>
  .bind (stripPrefixDecode_reads params) fun head _ =>
    .bind (byteAt_reads params 12) fun band _ => .bind (byteAt_reads params 13) fun v _ =>
    ⟨(by decide : Keys ["input", "sourceId", "band", "enabled"]),
      by simp [plainText_str, plainText_resolveSourceToSymbol, plainText_boolStr]⟩

theorem eqBandName_tidy {names : List (ℕ × String)} (hnames : PlainNames names)
    (h : Keys ["input", "sourceId", "band", name]) :
    Tidy (dEqBandName name names) := fun params =>
  .bind (stripPrefixDecode_reads params) fun head _ => .bind (u16le_reads params 14) fun n _ =>
    .bind (byteAt_reads params 12) fun band _ =>
    ⟨h, by simp [plainText_str, plainText_resolveSourceToSymbol, plainText_nameOf hnames]⟩

theorem eqBandFrequency_tidy : Tidy dEqBandFrequency := fun params =>
  .bind (stripPrefixDecode_reads params) fun head _ =>
    .bind (byteAt_reads params 12) fun band _ => .bind (u32le_reads params 16) fun frequency _ =>
    ⟨(by decide : Keys ["input", "sourceId", "band", "frequency"]),
      by simp [plainText_str, plainText_resolveSourceToSymbol]⟩

theorem eqBandFixed_tidy (h : Keys ["input", "sourceId", "band", name]) :
    Tidy (dEqBandFixed name) := fun params =>
  .bind (stripPrefixDecode_reads params) fun head _ => .bind (i32le_reads params 16) fun n _ =>
    .bind (byteAt_reads params 12) fun band _ =>
    ⟨h, by simp [plainText_str, plainText_resolveSourceToSymbol, plainText_fixedStr]⟩

theorem stripEnable_tidy : Tidy dStripEnable := fun params =>
  .bind (stripPrefixDecode_reads params) fun head _ => .bind (byteAt_reads params 12) fun v _ =>
    ⟨(by decide : Keys ["input", "sourceId", "enabled"]),
      by simp [plainText_str, plainText_resolveSourceToSymbol, plainText_boolStr]⟩

theorem hdInput_tidy : Tidy dHdInput := fun params =>
  .bind (byteAt_reads params 0) fun slot _ => .bind (u16le_reads params 2) fun input _ =>
    ⟨(by decide : Keys ["slot", "input"]), by simp [plainText_str]⟩

theorem hdNetworkAddress_tidy : Tidy dHdNetworkAddress := by
  intro params
  refine .bind (byteAt_reads params 0) fun slot _ => ?_
  have hparts : ∀ packed : Bytes, ∀ p ∈ packed.map fun b => str b.toNat, PlainText p := by
    intro packed p hp
    obtain ⟨b, -, rfl⟩ := List.mem_map.mp hp
    exact plainText_str _
  have haddress : Ends PlainText PlainText (inetNtoa ((params.drop 4).take 4).reverse) := by
    unfold inetNtoa
    split
    · exact plainText_intercalate (by decide) (hparts _)
    · rw [ends_error]
      decide +kernel
  refine haddress.bind fun address hplain => ?_
  exact ⟨(by decide : Keys ["slot", "networkAddress"]), by simp [plainText_str, hplain]⟩

end

/-! ## Ops -/

/-- Every row of the table decodes tidily. -/
theorem knownOps_tidy : knownOps.Forall fun row => Tidy row.decode :=
  ⟨meMarkerSource_tidy (by decide), meMarkerSource_tidy (by decide), meOnly_tidy,
   meOnly_tidy, videoMode_tidy, meValueMarkerBool_tidy (by decide), meOnly_tidy,
   transitionStyle_tidy, transitionSource_tidy, macroSleep_tidy, auxiliaryInput_tidy,
   keySource_tidy, keySource_tidy, keyOnAir_tidy, keyType_tidy,
   keyFixed_tidy (by decide), keyFixed_tidy (by decide),
   meKeyerBool_tidy (by decide), meKeyerBool_tidy (by decide),
   meKeyerBool_tidy (by decide), meKeyerBool_tidy (by decide),
   meKeyerBool_tidy (by decide), keyFixed_tidy (by decide),
   keyFixed_tidy (by decide), keyFixed_tidy (by decide),
   keyFixed_tidy (by decide), keyFixed_tidy (by decide),
   keyFixed_tidy (by decide), keyFixed_tidy (by decide),
   keyFixed_tidy (by decide), dskSource_tidy, dskSource_tidy, dskRate_tidy,
   dskAuto_tidy, dskBool_tidy (by decide), dskBool_tidy (by decide),
   dskFixed_tidy (by decide), dskFixed_tidy (by decide),
   dskBool_tidy (by decide), dskBool_tidy (by decide),
   mediaPlayerStillIndex_tidy, mediaPlayerStillOnly_tidy, fairlightStripMixType_tidy,
   fairlightStripFaderGain_tidy, hpGain_tidy, meMarkerU16_tidy (by decide),
   meMarkerU16_tidy (by decide), meMarkerSource_tidy (by decide),
   meMarkerU16_tidy (by decide), transitionWipePattern_tidy,
   meDoubleMarkerFp_tidy (by decide), meDoubleMarkerFp_tidy (by decide),
   meMarkerSource_tidy (by decide), meValueMarkerBool_tidy (by decide),
   meValueMarkerBool_tidy (by decide), meDoubleMarkerFp_tidy (by decide),
   meDoubleMarkerFp_tidy (by decide), meMarkerU16_tidy (by decide),
   transitionDvePattern_tidy, meMarkerSource_tidy (by decide),
   meMarkerSource_tidy (by decide), meValueMarkerBool_tidy (by decide),
   meMarkerU16_tidy (by decide), meMarkerU16_tidy (by decide),
   meMarkerU16_tidy (by decide), meMarkerU16_tidy (by decide),
   meMarkerU16_tidy (by decide), meDoubleMarkerFp_tidy (by decide),
   meDoubleMarkerFp_tidy (by decide), meValueMarkerBool_tidy (by decide),
   meValueMarkerBool_tidy (by decide), genMarkerFp_tidy (by decide),
   genMarkerFp_tidy (by decide), genMarkerFp_tidy (by decide),
   meMarkerU16_tidy (by decide), meKeyerMarkerFp_tidy (by decide),
   meKeyerMarkerFp_tidy (by decide), meKeyerMarkerFp_tidy (by decide),
   meKeyerMarkerFp_tidy (by decide), meKeyerU16_tidy (by decide),
   meKeyerBool_tidy (by decide), meKeyerMarkerFp_tidy (by decide),
   meKeyerMarkerFp_tidy (by decide), meKeyerMarkerFp_tidy (by decide),
   meKeyerMarkerFp_tidy (by decide), meKeyerMarkerFp_tidy (by decide),
   meKeyerU16_tidy (by decide), meKeyerU16_tidy (by decide),
   meKeyerU16_tidy (by decide), meKeyerBool_tidy (by decide),
   meKeyerMarkerFp_tidy (by decide), meKeyerU16_tidy (by decide),
   meKeyerMarkerFp_tidy (by decide), meKeyerMarkerFp_tidy (by decide),
   meKeyerMarkerFp_tidy (by decide), meKeyerMarkerFp_tidy (by decide),
   meKeyerMarkerFp_tidy (by decide), meKeyerMarkerFp_tidy (by decide),
   meKeyerMarkerFp_tidy (by decide), meKeyerMarkerFp_tidy (by decide),
   meKeyerMarkerFp_tidy (by decide), meKeyerMarkerFp_tidy (by decide),
   meKeyerMarkerFp_tidy (by decide), meKeyerBool_tidy (by decide),
   meKeyerBool_tidy (by decide), meKeyerMarkerFp_tidy (by decide),
   meKeyerMarkerFp_tidy (by decide), meKeyerMarkerFp_tidy (by decide),
   meKeyerU16_tidy (by decide), flykeyRunToFull_tidy,
   meKeyerU16_tidy (by decide), flykeyRunToInfinity_tidy,
   stripValueFp_tidy (by decide), eqBandEnabled_tidy,
   eqBandName_tidy (by decide) (by decide),
   eqBandName_tidy (by decide) (by decide), eqBandFrequency_tidy,
   eqBandFixed_tidy (by decide), eqBandFixed_tidy (by decide),
   stripValueFp_tidy (by decide), stripValueFp_tidy (by decide),
   stripEnable_tidy, stripEnable_tidy, stripValueFp_tidy (by decide),
   stripValueFp_tidy (by decide), stripValueFp_tidy (by decide),
   stripValueFp_tidy (by decide), stripValueFp_tidy (by decide),
   stripValueFp_tidy (by decide), stripEnable_tidy,
   stripValueFp_tidy (by decide), stripValueFp_tidy (by decide),
   stripValueFp_tidy (by decide), stripValueFp_tidy (by decide),
   stripValueFp_tidy (by decide), stripEnable_tidy,
   stripValueFp_tidy (by decide), stripValueFp_tidy (by decide),
   stripValueFp_tidy (by decide), stripValueFp_tidy (by decide), hpGain_tidy,
   hpGain_tidy, hpGain_tidy, hpGain_tidy, hdNetworkAddress_tidy, hdInput_tidy⟩

theorem plainText_id {row : KnownOp} (h : row ∈ knownOps) : PlainText row.id := by
  have hall : ∀ row ∈ knownOps,
      (row.id.toByteArray.data.toList.all fun b => 0x20 ≤ b.toNat ∧ b.toNat < 0x7f) = true := by
    decide +kernel
  exact plainText_of_octets (hall row h)

theorem plainText_unknownId (opType : ℕ) : PlainText (unknownId opType) := by
  apply plainText_append (by decide)
  unfold PlainText
  rw [String.toList_ofList]
  exact isPlain_numerals (by decide) (isNumeral_padded (by decide))

theorem plainText_hex (params : Bytes) : PlainText (hex params) := by
  unfold PlainText hex
  rw [String.toList_ofList]
  intro c hc
  obtain ⟨b, -, hb⟩ := List.mem_flatMap.mp hc
  have hlt := b.toNat_lt
  have hdigit : ∀ d < 16, IsPlain [d.digitChar] := by
    intro d hd
    interval_cases d <;> decide
  simp only [List.mem_cons, List.not_mem_nil, or_false] at hb
  rcases hb with rfl | rfl
  · exact hdigit (b.toNat / 16) (by omega) _ (by simp)
  · exact hdigit (b.toNat % 16) (by omega) _ (by simp)

/-- An op that can be written as an element: its texts are plain and its keys are its own. -/
def TidyOp (op : Op) : Prop := PlainText op.id ∧ TidyAttrs op.attrs

theorem decodeOp_tidy (opType : ℕ) (params : Bytes) : TidyOp (decodeOp opType params) := by
  have hraw : Keys ["rawParams"] := by decide +kernel
  have hboth : Keys ["rawParams", "decodeError"] := by decide +kernel
  unfold decodeOp
  cases hrow : knownOps.find? (·.code = opType) with
  | none => exact ⟨plainText_unknownId _, hraw, by simp [plainText_hex]⟩
  | some row =>
    have hmem := List.mem_of_find?_eq_some hrow
    have htidy := List.forall_iff_forall_mem.mp knownOps_tidy row hmem params
    dsimp only
    cases hread : row.decode params with
    | ok attrs =>
      rw [hread] at htidy
      exact ⟨plainText_id hmem, htidy⟩
    | error text =>
      rw [hread, ends_error] at htidy
      exact ⟨plainText_unknownId _, hboth, by simp [plainText_hex, htidy]⟩

/-- Whatever the bytecode is, its ops are tidy. -/
theorem decodeMacroBytecode_tidy (raw : Bytes) : ∀ op ∈ decodeMacroBytecode raw, TidyOp op := by
  have hfrom : ∀ fuel raw, ∀ op ∈ decodeFrom fuel raw, TidyOp op := by
    intro fuel
    induction fuel with
    | zero => simp [decodeFrom]
    | succ fuel ih =>
      intro raw op hop
      rw [decodeFrom] at hop
      cases hframe : nextFrame raw with
      | op opType params rest =>
        rw [hframe] at hop
        rcases List.mem_cons.mp hop with rfl | hop
        · exact decodeOp_tidy opType params
        · exact ih rest op hop
      | finished => simp [hframe] at hop
      | truncated => simp [hframe] at hop
      | bogus opLen => simp [hframe] at hop
      | overruns opLen => simp [hframe] at hop
  exact hfrom _ raw

end Bmdwire.Macros
