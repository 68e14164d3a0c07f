import Bmdwire.Analysis.MacroRoundTrip
import Bmdwire.Interface.MacroRaising

/-!
# Ops that fail with something else than a `ValueError`

A caller of `encode_single_op` expects octets or a `ValueError`. Three kinds of known ops can
fail otherwise: a scalar may overflow, the two faders and the input of a HyperDeck are packed
as `struct` packs them, and `inet_aton` raises an `OSError`. An encoder gets that far only once
it has read what comes before, which is what the op's `Hazard` needs. An op that was unknown to
the decoder fails so when its header does not fit.
-/

set_option autoImplicit false
set_option maxRecDepth 4000

namespace Bmdwire.Macros

open Library

/-! ## Hazards -/

/-- What an encoder reads before it comes to the value that may be at fault. -/
inductive Need
  | integer (key : String)
  /-- an integer, where the attribute is there -/
  | integerIfAny (key : String)
  | octet (key : String)
  | octetIfAny (key : String)
  | source (key : String)
  | sourceId
deriving DecidableEq

def Need.Met (attrs : Attrs) : Need → Prop
  | .integer key => ∃ n, intAttr attrs key = .ok n
  | .integerIfAny key => ∃ n, intAttrOrZero attrs key = .ok n
  | .octet key => ∃ n, intAttr attrs key = .ok n ∧ IsOctet n
  | .octetIfAny key => ∃ n, intAttrOrZero attrs key = .ok n ∧ IsOctet n
  | .source key =>
    ∃ text n, attrs.lookup key = some text ∧ resolveSymbolToSource text = .ok n
  | .sourceId => ∃ n, resolveSourceId (attrs.lookup "sourceId") = .ok n

/-- A value that is at fault. -/
inductive Fault
  /-- a scalar that overflows -/
  | scalar (key : String)
  /-- a scalar that overflows, or whose raw number `struct` does not take -/
  | structScalar (key : String)
  /-- an integer that `struct` does not take -/
  | structNumber (key : String)
  | address (key : String)
deriving DecidableEq

def Fault.Occurs (attrs : Attrs) : Fault → Prop
  | .scalar key => ∃ text, attrs.lookup key = some text ∧ Overflows text
  | .structScalar key =>
    ∃ text, attrs.lookup key = some text ∧
      (Overflows text ∨ ∃ n, toFixed text = .ok n ∧ ¬ IsInt32 n)
  | .structNumber key => ∃ n, intAttr attrs key = .ok n ∧ ¬ IsWord16 n
  | .address key =>
    ∃ text, attrs.lookup key = some text ∧ '\x00' ∉ text.toList ∧ ¬ IsAddress text

/-- How an op can fail with something else than a `ValueError`. -/
structure Hazard where
  needs : List Need
  fault : Fault
deriving DecidableEq

def Hazard.Occurs (hazard : Hazard) (attrs : Attrs) : Prop :=
  (∀ need ∈ hazard.needs, need.Met attrs) ∧ hazard.fault.Occurs attrs

/-- An encoder strays exactly by its hazard, and packs few octets. -/
structure Encodes (hazard : Option Hazard) (encode : Encoder) : Prop where
  strays_iff : ∀ attrs, Strays (encode attrs) ↔ ∃ h ∈ hazard, h.Occurs attrs
  short : ∀ attrs, Returns (·.length ≤ 20) (encode attrs)

/-- An encoder without a hazard. -/
theorem Encodes.calm {encode : Encoder} (hcalm : ∀ attrs, ¬ Strays (encode attrs))
    (hshort : ∀ attrs, Returns (·.length ≤ 20) (encode attrs)) : Encodes none encode where
  strays_iff attrs := by simp [hcalm attrs]
  short := hshort

/-! ## Ops without one -/

theorem bytesOf_short {vs : List ℤ} (h : vs.length ≤ 20) : Returns (·.length ≤ 20) (bytesOf vs) :=
  (bytesOf_length vs).mono fun _ hlen => hlen.trans_le h

section

variable {name : String}

theorem input_calm {key : Attrs → Except EncodeError ℤ} (hkey : ∀ attrs, ¬ Strays (key attrs)) :
    Encodes none (eInput key) := by
  apply Encodes.calm
  · intro attrs
    simp [eInput, escapes_bind, hkey]
  · intro attrs
    refine .after fun text => .after fun src => .after fun n => ?_
    refine .bind (bytesOf_length _) fun head hhead => ?_
    simp [hhead]

theorem meOnly_calm : Encodes none eMeOnly := by
  apply Encodes.calm
  · intro attrs
    simp [eMeOnly, escapes_bind]
  · intro attrs
    exact .after fun me => bytesOf_short (by simp)

theorem videoMode_calm : Encodes none eVideoMode := by
  have hrange : ∀ n : ℤ, ¬ Strays (if 0 ≤ n ∧ n ≤ 0xFF then bytesOf [n, 0, 0, 0]
      else .error (.modeRange n)) := by
    intro n
    split
    · simp
    · simp [EncodeError.IsValueError, EncodeError.type]
  have hshort : ∀ n : ℤ, Returns (·.length ≤ 20)
      (if 0 ≤ n ∧ n ≤ 0xFF then bytesOf [n, 0, 0, 0] else .error (.modeRange n)) := by
    intro n
    split
    · exact bytesOf_short (by simp)
    · exact returns_error _
  apply Encodes.calm
  · intro attrs
    simp only [eVideoMode, escapes_bind, strays_attr, false_or, not_exists, not_and]
    intro mode _
    split
    · simpa using hrange _
    · split
      · simpa using hrange _
      · simp [escapes_bind, EncodeError.IsValueError, EncodeError.type]
  · intro attrs
    refine .after fun mode => ?_
    dsimp only
    split
    · exact .after hshort
    · split
      · exact .after hshort
      · exact .after hshort

theorem ftbEnabled_calm : Encodes none eFtbEnabled := by
  apply Encodes.calm
  · intro attrs
    simp [eFtbEnabled, escapes_bind]
  · intro attrs
    refine .after fun me => .after fun text => ?_
    simp

theorem transitionStyle_calm : Encodes none eTransitionStyle := by
  apply Encodes.calm
  · intro attrs
    simp [eTransitionStyle, escapes_bind]
  · intro attrs
    exact .after fun me => bytesOf_short (by simp)

theorem transitionSource_calm : Encodes none eTransitionSource := by
  apply Encodes.calm
  · intro attrs
    simp [eTransitionSource, escapes_bind]
  · intro attrs
    refine .after fun me => .bind (bytesOf_length _) fun head hhead => ?_
    simp [hhead]

theorem macroSleep_calm : Encodes none eMacroSleep := by
  apply Encodes.calm
  · intro attrs
    simp [eMacroSleep, escapes_bind]
  · intro attrs
    refine .after fun frames => ?_
    simp

theorem meMarkerU16_calm {family : UInt8} : Encodes none (eMeMarkerU16 name family) := by
  apply Encodes.calm
  · intro attrs
    simp [eMeMarkerU16, escapes_bind]
  · intro attrs
    refine .after fun me => .after fun v => ?_
    simp

theorem meMarkerSource_calm {family : UInt8} : Encodes none (eMeMarkerSource family name) := by
  apply Encodes.calm
  · intro attrs
    simp [eMeMarkerSource, escapes_bind]
  · intro attrs
    refine .after fun me => .after fun text => .after fun src => ?_
    simp

theorem meValueMarkerBool_calm {marker : ℤ} :
    Encodes none (eMeValueMarkerBool name marker) := by
  apply Encodes.calm
  · intro attrs
    simp [eMeValueMarkerBool, escapes_bind]
  · intro attrs
    refine .after fun me => .after fun text => ?_
    simp

theorem transitionWipePattern_calm : Encodes none eTransitionWipePattern := by
  apply Encodes.calm
  · intro attrs
    simp [eTransitionWipePattern, escapes_bind]
  · intro attrs
    refine .after fun me => .after fun text => .after fun pattern => ?_
    simp

theorem transitionDvePattern_calm : Encodes none eTransitionDvePattern := by
  apply Encodes.calm
  · intro attrs
    simp [eTransitionDvePattern, escapes_bind]
  · intro attrs
    refine .after fun me => .after fun text => .after fun pattern => ?_
    simp

theorem keySource_calm : Encodes none eKeySource := by
  apply Encodes.calm
  · intro attrs
    simp [eKeySource, escapes_bind]
  · intro attrs
    refine .after fun text => .after fun src => .bind (meKeyer_length attrs) fun key hkey => ?_
    refine .bind (bytesOf_length key) fun head hhead => ?_
    simp [hhead, hkey]

theorem keyBool_calm {last : UInt8} : Encodes none (eKeyBool name last) := by
  apply Encodes.calm
  · intro attrs
    simp [eKeyBool, escapes_bind]
  · intro attrs
    refine .bind (meKeyer_length attrs) fun key hkey => ?_
    refine .bind (bytesOf_length key) fun head hhead => .after fun text => ?_
    simp [hhead, hkey]

theorem keyType_calm : Encodes none eKeyType := by
  apply Encodes.calm
  · intro attrs
    simp [eKeyType, escapes_bind]
  · intro attrs
    refine .bind (meKeyer_length attrs) fun key hkey => bytesOf_short ?_
    simp [hkey]

theorem keyOnAir_calm : Encodes none eKeyOnAir := by
  apply Encodes.calm
  · intro attrs
    simp [eKeyOnAir, escapes_bind]
  · intro attrs
    refine .after fun text => .bind (meKeyer_length attrs) fun key hkey => ?_
    refine .bind (bytesOf_length key) fun head hhead => ?_
    simp [hhead, hkey]

theorem meKeyerU16_calm : Encodes none (eMeKeyerU16 name) := by
  apply Encodes.calm
  · intro attrs
    simp [eMeKeyerU16, escapes_bind]
  · intro attrs
    refine .after fun me => .after fun keyer => .after fun v => ?_
    simp

theorem meKeyerBool_calm {last : UInt8} : Encodes none (eMeKeyerBool name last) := by
  apply Encodes.calm
  · intro attrs
    simp [eMeKeyerBool, escapes_bind]
  · intro attrs
    refine .after fun me => .after fun keyer => .after fun text => ?_
    simp

theorem flykeyRunToFull_calm : Encodes none eFlykeyRunToFull := by
  apply Encodes.calm
  · intro attrs
    simp [eFlykeyRunToFull, escapes_bind]
  · intro attrs
    refine .after fun me => .after fun keyer => ?_
    simp

theorem flykeyRunToInfinity_calm : Encodes none eFlykeyRunToInfinity := by
  apply Encodes.calm
  · intro attrs
    simp [eFlykeyRunToInfinity, escapes_bind]
  · intro attrs
    refine .after fun me => .after fun keyer => .after fun text => .after fun location => ?_
    simp

theorem dskSource_calm : Encodes none eDskSource := by
  apply Encodes.calm
  · intro attrs
    simp [eDskSource, escapes_bind]
  · intro attrs
    refine .bind (dskHead_length attrs) fun head hhead => .after fun text => .after fun src => ?_
    simp [hhead]

theorem dskRate_calm : Encodes none eDskRate := by
  apply Encodes.calm
  · intro attrs
    simp [eDskRate, escapes_bind]
  · intro attrs
    refine .bind (dskHead_length attrs) fun head hhead => .after fun rate => ?_
    simp [hhead]

theorem dskAuto_calm : Encodes none eDskAuto := by
  apply Encodes.calm
  · intro attrs
    simp [eDskAuto, escapes_bind]
  · intro attrs
    exact .after fun key => bytesOf_short (by simp)

theorem dskBareBool_calm : Encodes none (eDskBareBool name) := by
  apply Encodes.calm
  · intro attrs
    simp [eDskBareBool, escapes_bind]
  · intro attrs
    exact .after fun text => .after fun key => bytesOf_short (by simp)

theorem dskBool_calm {marker : ℤ} : Encodes none (eDskBool name marker) := by
  apply Encodes.calm
  · intro attrs
    simp [eDskBool, escapes_bind]
  · intro attrs
    refine .after fun key => .bind (bytesOf_length _) fun head hhead => .after fun text => ?_
    simp [hhead]

theorem mediaPlayerStillIndex_calm : Encodes none eMediaPlayerStillIndex := by
  apply Encodes.calm
  · intro attrs
    simp [eMediaPlayerStillIndex, escapes_bind]
  · intro attrs
    refine .after fun player => .bind (bytesOf_length _) fun head hhead => .after fun index => ?_
    simp [hhead]

theorem mediaPlayerStillOnly_calm : Encodes none eMediaPlayerStillOnly := by
  apply Encodes.calm
  · intro attrs
    simp [eMediaPlayerStillOnly, escapes_bind]
  · intro attrs
    exact .after fun player => bytesOf_short (by simp)

/-- Every state of a strip has few bits, so `struct` takes it. -/
theorem fairlightStripMixType_calm : Encodes none eFairlightStripMixType := by
  have hstate : ∀ mixType, IsWord16 (((byName mixTypeNames).lookup mixType).getD 2) := by
    intro mixType
    have hall : ∀ p ∈ byName mixTypeNames, IsWord16 p.2 := by
      simp [byName, mixTypeNames, IsWord16]
    cases hlookup : (byName mixTypeNames).lookup mixType with
    | none => exact ⟨by decide, by decide⟩
    | some n => exact hall _ (mem_of_lookup hlookup)
  apply Encodes.calm
  · intro attrs
    simp [eFairlightStripMixType, escapes_bind, strays_packU16, hstate]
  · intro attrs
    refine .bind (stripPrefixEncode_length attrs _) fun head hhead => .after fun mixType => ?_
    refine .bind (packU16_length _) fun state hsize => ?_
    simp [hhead, hsize]

theorem stripEnable_calm {family marker : ℤ} {octet : UInt8} :
    Encodes none (eStripEnable family octet marker) := by
  apply Encodes.calm
  · intro attrs
    simp [eStripEnable, escapes_bind]
  · intro attrs
    refine .after fun text => .bind (stripPrefixEncode_length attrs _) fun head hhead => ?_
    simp [hhead]

theorem eqBandEnabled_calm : Encodes none eEqBandEnabled := by
  apply Encodes.calm
  · intro attrs
    simp [eEqBandEnabled, escapes_bind]
  · intro attrs
    refine .after fun band => .after fun text =>
      .bind (stripPrefixEncode_length attrs _) fun head hhead => ?_
    simp [hhead]

theorem eqBandName_calm {names : List (ℕ × String)} : Encodes none (eEqBandName name names) := by
  apply Encodes.calm
  · intro attrs
    simp [eEqBandName, escapes_bind]
  · intro attrs
    refine .after fun band => .after fun text => .after fun n =>
      .bind (stripPrefixEncode_length attrs _) fun head hhead => ?_
    simp [hhead]

theorem eqBandFrequency_calm : Encodes none eEqBandFrequency := by
  apply Encodes.calm
  · intro attrs
    simp [eEqBandFrequency, escapes_bind]
  · intro attrs
    refine .after fun band => .after fun frequency =>
      .bind (stripPrefixEncode_length attrs _) fun head hhead => ?_
    simp [hhead]

end

/-! ## Ops with one -/

def keyerScalar (name : String) : Hazard :=
  ⟨[.integerIfAny "mixEffectBlockIndex", .integer "keyIndex"], .scalar name⟩

def keyScalar (name : String) : Hazard :=
  ⟨[.octetIfAny "mixEffectBlockIndex", .octet "keyIndex"], .scalar name⟩

def meScalar (name : String) : Hazard := ⟨[.integerIfAny "mixEffectBlockIndex"], .scalar name⟩

def generatorScalar (name : String) : Hazard :=
  ⟨[.integerIfAny "colorGeneratorIndex"], .scalar name⟩

def dskScalar (name : String) : Hazard := ⟨[.octet "keyIndex"], .scalar name⟩

/-- The scalar is looked at before all else. -/
def firstScalar (name : String) : Hazard := ⟨[], .scalar name⟩

def bandScalar (name : String) : Hazard := ⟨[.integer "band"], .scalar name⟩

def stripFader : Hazard := ⟨[.source "input", .sourceId], .structScalar "gain"⟩

def masterFader : Hazard := ⟨[], .structScalar "gain"⟩

def deckAddress : Hazard := ⟨[], .address "networkAddress"⟩

def deckInput : Hazard := ⟨[.octet "slot"], .structNumber "input"⟩

/-- The ops with a hazard, by their code. -/
def hazards : List (ℕ × Hazard) :=
  [(0x0029, keyScalar "clip"), (0x002A, keyScalar "gain"), (0x0036, keyScalar "top"),
   (0x0037, keyScalar "bottom"), (0x0038, keyScalar "left"), (0x0039, keyScalar "right"),
   (0x0047, keyScalar "xSize"), (0x0048, keyScalar "ySize"), (0x004A, keyScalar "xPosition"),
   (0x004B, keyScalar "yPosition"), (0x009C, dskScalar "clip"), (0x009D, dskScalar "gain"),
   (0x014B, stripFader), (0x016B, masterFader), (0x007E, meScalar "width"),
   (0x007F, meScalar "softness"), (0x0015, meScalar "xPosition"),
   (0x0016, meScalar "yPosition"), (0x0092, meScalar "clip"), (0x0093, meScalar "gain"),
   (0x001C, generatorScalar "hue"), (0x001D, generatorScalar "saturation"),
   (0x001E, generatorScalar "luminescence"), (0x0030, keyerScalar "top"),
   (0x0031, keyerScalar "bottom"), (0x0032, keyerScalar "left"), (0x0033, keyerScalar "right"),
   (0x005A, keyerScalar "hue"), (0x005B, keyerScalar "saturation"),
   (0x005C, keyerScalar "luminescence"), (0x005E, keyerScalar "outerWidth"),
   (0x005F, keyerScalar "innerWidth"), (0x0058, keyerScalar "direction"),
   (0x012C, keyerScalar "foregroundLevel"), (0x012D, keyerScalar "backgroundLevel"),
   (0x012E, keyerScalar "keyEdge"), (0x012F, keyerScalar "spillSuppress"),
   (0x0130, keyerScalar "flareSuppress"), (0x0131, keyerScalar "foregroundBrightness"),
   (0x0132, keyerScalar "foregroundContrast"), (0x0133, keyerScalar "foregroundColour"),
   (0x0134, keyerScalar "foregroundRed"), (0x0135, keyerScalar "foregroundGreen"),
   (0x0136, keyerScalar "foregroundBlue"), (0x0139, keyerScalar "xPosition"),
   (0x013A, keyerScalar "yPosition"), (0x013B, keyerScalar "size"),
   (0x014D, firstScalar "gain"), (0x0152, bandScalar "gain"), (0x0153, bandScalar "qFactor"),
   (0x0147, firstScalar "gain"), (0x0156, firstScalar "gain"),
   (0x0159, firstScalar "threshold"), (0x015A, firstScalar "range"),
   (0x015B, firstScalar "ratio"), (0x015C, firstScalar "attack"), (0x015D, firstScalar "hold"),
   (0x015E, firstScalar "release"), (0x0160, firstScalar "threshold"),
   (0x0161, firstScalar "ratio"), (0x0162, firstScalar "attack"), (0x0163, firstScalar "hold"),
   (0x0164, firstScalar "release"), (0x0166, firstScalar "threshold"),
   (0x0167, firstScalar "attack"), (0x0168, firstScalar "hold"),
   (0x0169, firstScalar "release"), (0x0184, firstScalar "gain"), (0x0185, firstScalar "gain"),
   (0x0186, firstScalar "gain"), (0x0187, firstScalar "gain"), (0x0110, deckAddress),
   (0x011A, deckInput)]

/-- The hazard of an op, known or not. -/
def hazardOf (code : ℕ) : Option Hazard := hazards.lookup code

section

variable {name : String} {signed : Bool}

/-- What is read without fail before the fault is what the hazard needs. -/
theorem keyFixed_encodes {marker : ℤ} :
    Encodes (some (keyScalar name)) (eKeyFixed signed name marker) where
  strays_iff attrs := by
    simp only [eKeyFixed, escapes_bind, strays_meKeyer, strays_bytesOf, strays_attr,
      strays_packFixedValue, escapes_pure, false_or, and_false, exists_false, or_false,
      attr_eq_ok, meKeyer_eq_ok, Option.mem_def, Option.some.injEq, exists_eq_left',
      Hazard.Occurs, keyScalar, List.forall_mem_cons, List.not_mem_nil, false_imp_iff,
      implies_true, and_true, Need.Met, Fault.Occurs]
    constructor
    · rintro ⟨key, ⟨me, keyer, hme, hkeyer, rfl⟩, head, hhead, hover⟩
      have hoctets := bytesOf_returns.mp ⟨head, hhead⟩
      simp only [List.forall_mem_cons] at hoctets
      exact ⟨⟨⟨me, hme, hoctets.1⟩, keyer, hkeyer, hoctets.2.1⟩, hover⟩
    · rintro ⟨⟨⟨me, hme, hme'⟩, keyer, hkeyer, hkeyer'⟩, hover⟩
      obtain ⟨head, hhead⟩ := (@bytesOf_returns [me, keyer]).mpr (by simp [hme', hkeyer'])
      exact ⟨_, ⟨me, keyer, hme, hkeyer, rfl⟩, head, hhead, hover⟩
  short attrs := by
    refine .bind (meKeyer_length attrs) fun key hkey => .bind (bytesOf_length key) fun head hhead =>
      .after fun text => .bind (packFixedValue_length signed text) fun value hvalue => ?_
    simp [hhead, hkey, hvalue]

theorem meDoubleMarkerFp_encodes {family : UInt8} {marker : ℤ} :
    Encodes (some (meScalar name)) (eMeDoubleMarkerFp signed name family marker) where
  strays_iff attrs := by
    simp [eMeDoubleMarkerFp, escapes_bind, attr_eq_ok, strays_toFixed, Hazard.Occurs, meScalar,
      Need.Met, Fault.Occurs, meByte, map_eq_ok]
  short attrs := by
    refine .after fun me => .after fun text => .after fun n =>
      .bind (int32leBytes_length signed n) fun value hvalue => ?_
    simp [hvalue]

theorem genMarkerFp_encodes {marker : ℤ} :
    Encodes (some (generatorScalar name)) (eGenMarkerFp signed name marker) where
  strays_iff attrs := by
    simp [eGenMarkerFp, escapes_bind, attr_eq_ok, strays_toFixed, Hazard.Occurs, generatorScalar,
      Need.Met, Fault.Occurs]
  short attrs := by
    refine .after fun gen => .after fun text => .after fun n =>
      .bind (int32leBytes_length signed n) fun value hvalue => ?_
    simp [hvalue]

theorem meKeyerMarkerFp_encodes {marker : ℤ} :
    Encodes (some (keyerScalar name)) (eMeKeyerMarkerFp signed name marker) where
  strays_iff attrs := by
    simp [eMeKeyerMarkerFp, escapes_bind, attr_eq_ok, strays_toFixed, Hazard.Occurs, keyerScalar,
      Need.Met, Fault.Occurs, meByte, keyerByte, map_eq_ok, and_assoc]
  short attrs := by
    refine .after fun me => .after fun keyer => .after fun text => .after fun n =>
      .bind (int32leBytes_length signed n) fun value hvalue => ?_
    simp [hvalue]

theorem dskFixed_encodes : Encodes (some (dskScalar name)) (eDskFixed name) where
  strays_iff attrs := by
    have hhead : (∃ head, dskHead attrs = .ok head) ↔
        ∃ n, intAttr attrs "keyIndex" = .ok n ∧ IsOctet n := by
      simp only [dskHead, bind_eq_ok]
      rw [exists_comm]
      simp only [exists_and_left, bytesOf_returns]
      simp [IsOctet]
    simp [eDskFixed, escapes_bind, attr_eq_ok, strays_packFixedValue, Hazard.Occurs, dskScalar,
      Need.Met, Fault.Occurs, ← hhead]
  short attrs := by
    refine .bind (dskHead_length attrs) fun head hhead => .after fun text =>
      .bind (packFixedValue_length false text) fun value hvalue => ?_
    simp [hhead, hvalue]

theorem stripValueFp_encodes {family : ℤ} :
    Encodes (some (firstScalar name)) (eStripValueFp signed family name) where
  strays_iff attrs := by
    simp [eStripValueFp, escapes_bind, attr_eq_ok, strays_toFixed, Hazard.Occurs, firstScalar,
      Fault.Occurs]
  short attrs := by
    refine .after fun text => .after fun n => .bind (int32leBytes_length signed n)
      fun value hvalue => .bind (stripPrefixEncode_length attrs family) fun head hhead => ?_
    simp [hhead, hvalue]

theorem eqBandFixed_encodes : Encodes (some (bandScalar name)) (eEqBandFixed name) where
  strays_iff attrs := by
    simp [eEqBandFixed, escapes_bind, attr_eq_ok, strays_toFixed, Hazard.Occurs, bandScalar,
      Need.Met, Fault.Occurs]
  short attrs := by
    refine .after fun band => .after fun text => .after fun n =>
      .bind (stripPrefixEncode_length attrs _) fun head hhead =>
      .bind (i32leBytes_length n) fun value hvalue => ?_
    simp [hhead, hvalue]

theorem hpGain_encodes : Encodes (some (firstScalar "gain")) eHpGain where
  strays_iff attrs := by
    simp [eHpGain, escapes_bind, attr_eq_ok, strays_toFixed, Hazard.Occurs, firstScalar,
      Fault.Occurs]
  short attrs :=
    .after fun text => .after fun n => (i32leBytes_length n).mono fun _ hlen => by omega

theorem masterFader_encodes : Encodes (some masterFader) eFairlightMasterFaderGain where
  strays_iff attrs := by
    simp [eFairlightMasterFaderGain, escapes_bind, attr_eq_ok, strays_toFixed, strays_packI32,
      Hazard.Occurs, masterFader, Fault.Occurs]
  short attrs :=
    .after fun text => .after fun n => (packI32_length n).mono fun _ hlen => by omega

theorem stripFader_encodes : Encodes (some stripFader) eFairlightStripFaderGain where
  strays_iff attrs := by
    have hhead : (∃ head, stripPrefixEncode attrs fairlightStripMarker = .ok head) ↔
        Need.Met attrs (.source "input") ∧ Need.Met attrs .sourceId := by
      simp only [stripPrefixEncode, bind_eq_ok, pure_eq_ok, attr_eq_ok, Need.Met]
      constructor
      · rintro ⟨head, text, htext, src, hsrc, sid, hsid, -⟩
        exact ⟨⟨text, src, htext, hsrc⟩, sid, hsid⟩
      · rintro ⟨⟨text, src, htext, hsrc⟩, sid, hsid⟩
        exact ⟨_, text, htext, src, hsrc, sid, hsid, rfl⟩
    simp [eFairlightStripFaderGain, escapes_bind, attr_eq_ok, strays_toFixed, strays_packI32,
      Hazard.Occurs, stripFader, Fault.Occurs, ← hhead]
  short attrs := by
    refine .bind (stripPrefixEncode_length attrs _) fun head hhead => .after fun text =>
      .after fun n => .bind (packI32_length n) fun value hvalue => ?_
    simp [hhead, hvalue]

theorem deckAddress_encodes : Encodes (some deckAddress) eHdNetworkAddress where
  strays_iff attrs := by
    simp [eHdNetworkAddress, escapes_bind, attr_eq_ok, strays_inetAton, Hazard.Occurs,
      deckAddress, Fault.Occurs]
  short attrs := by
    refine .after fun text => .bind (inetAton_length text) fun address haddress =>
      .after fun slot => .bind (bytesOf_length _) fun head hhead => ?_
    simp [hhead, haddress, hdIpMarker]

theorem deckInput_encodes : Encodes (some deckInput) eHdInput where
  strays_iff attrs := by
    have hslot : ∀ slot : ℤ, (∃ head, bytesOf [slot, 0] = .ok head) ↔ IsOctet slot := by
      intro slot
      rw [bytesOf_returns]
      simp [IsOctet]
    simp [eHdInput, escapes_bind, strays_packU16, Hazard.Occurs, deckInput, Fault.Occurs,
      Need.Met, hslot]
    constructor
    · rintro ⟨slot, hread, hoctet, hinput⟩
      exact ⟨⟨slot, hread, hoctet⟩, hinput⟩
    · rintro ⟨⟨slot, hread, hoctet⟩, hinput⟩
      exact ⟨slot, hread, hoctet, hinput⟩
  short attrs := by
    refine .after fun slot => .bind (bytesOf_length _) fun head hhead => .after fun input =>
      .bind (packU16_length _) fun value hvalue => ?_
    simp [hhead, hvalue]

end

/-! ## The table -/

/-- Every row of the table strays by its hazard. -/
theorem knownOps_encode : knownOps.Forall fun row => Encodes (hazardOf row.code) row.encode :=
  ⟨input_calm fun _ => strays_intAttrOrZero, input_calm fun _ => strays_intAttrOrZero, meOnly_calm,
   meOnly_calm, videoMode_calm, ftbEnabled_calm, meOnly_calm, transitionStyle_calm,
   transitionSource_calm, macroSleep_calm, input_calm fun _ => strays_intAttr, keySource_calm,
   keySource_calm, keyOnAir_calm, keyType_calm, keyFixed_encodes, keyFixed_encodes,
   keyBool_calm, keyBool_calm, keyBool_calm, keyBool_calm, keyBool_calm, keyFixed_encodes,
   keyFixed_encodes, keyFixed_encodes, keyFixed_encodes, keyFixed_encodes, keyFixed_encodes,
   keyFixed_encodes, keyFixed_encodes, dskSource_calm, dskSource_calm, dskRate_calm,
   dskAuto_calm, dskBareBool_calm, dskBareBool_calm, dskFixed_encodes, dskFixed_encodes,
   dskBool_calm, dskBool_calm, mediaPlayerStillIndex_calm, mediaPlayerStillOnly_calm,
   fairlightStripMixType_calm, stripFader_encodes, masterFader_encodes, meMarkerU16_calm,
   meMarkerU16_calm, meMarkerSource_calm, meMarkerU16_calm, transitionWipePattern_calm,
   meDoubleMarkerFp_encodes, meDoubleMarkerFp_encodes, meMarkerSource_calm,
   meValueMarkerBool_calm, meValueMarkerBool_calm, meDoubleMarkerFp_encodes,
   meDoubleMarkerFp_encodes, meMarkerU16_calm, transitionDvePattern_calm, meMarkerSource_calm,
   meMarkerSource_calm, meValueMarkerBool_calm, meMarkerU16_calm, meMarkerU16_calm,
   meMarkerU16_calm, meMarkerU16_calm, meMarkerU16_calm, meDoubleMarkerFp_encodes,
   meDoubleMarkerFp_encodes, meValueMarkerBool_calm, meValueMarkerBool_calm,
   genMarkerFp_encodes, genMarkerFp_encodes, genMarkerFp_encodes, meMarkerU16_calm,
   meKeyerMarkerFp_encodes, meKeyerMarkerFp_encodes, meKeyerMarkerFp_encodes,
   meKeyerMarkerFp_encodes, meKeyerU16_calm, meKeyerBool_calm, meKeyerMarkerFp_encodes,
   meKeyerMarkerFp_encodes, meKeyerMarkerFp_encodes, meKeyerMarkerFp_encodes,
   meKeyerMarkerFp_encodes, meKeyerU16_calm, meKeyerU16_calm, meKeyerU16_calm, meKeyerBool_calm,
   meKeyerMarkerFp_encodes, meKeyerU16_calm, meKeyerMarkerFp_encodes, meKeyerMarkerFp_encodes,
   meKeyerMarkerFp_encodes, meKeyerMarkerFp_encodes, meKeyerMarkerFp_encodes,
   meKeyerMarkerFp_encodes, meKeyerMarkerFp_encodes, meKeyerMarkerFp_encodes,
   meKeyerMarkerFp_encodes, meKeyerMarkerFp_encodes, meKeyerMarkerFp_encodes, meKeyerBool_calm,
   meKeyerBool_calm, meKeyerMarkerFp_encodes, meKeyerMarkerFp_encodes, meKeyerMarkerFp_encodes,
   meKeyerU16_calm, flykeyRunToFull_calm, meKeyerU16_calm, flykeyRunToInfinity_calm,
   stripValueFp_encodes, eqBandEnabled_calm, eqBandName_calm, eqBandName_calm,
   eqBandFrequency_calm, eqBandFixed_encodes, eqBandFixed_encodes, stripValueFp_encodes,
   stripValueFp_encodes, stripEnable_calm, stripEnable_calm, stripValueFp_encodes,
   stripValueFp_encodes, stripValueFp_encodes, stripValueFp_encodes, stripValueFp_encodes,
   stripValueFp_encodes, stripEnable_calm, stripValueFp_encodes, stripValueFp_encodes,
   stripValueFp_encodes, stripValueFp_encodes, stripValueFp_encodes, stripEnable_calm,
   stripValueFp_encodes, stripValueFp_encodes, stripValueFp_encodes, stripValueFp_encodes,
   hpGain_encodes, hpGain_encodes, hpGain_encodes, hpGain_encodes, deckAddress_encodes,
   deckInput_encodes⟩

theorem encodes_of_mem {row : KnownOp} (h : row ∈ knownOps) :
    Encodes (hazardOf row.code) row.encode :=
  List.forall_iff_forall_mem.mp knownOps_encode row h

theorem code_lt {row : KnownOp} (h : row ∈ knownOps) : row.code < 0x10000 := by
  have hall : ∀ row ∈ knownOps, row.code < 0x10000 := by decide
  exact hall row h

theorem mem_of_encodeById {id : String} {code : ℕ} {encode : Encoder}
    (h : encodeById.lookup id = some (code, encode)) :
    ∃ row ∈ knownOps, row.id = id ∧ row.code = code ∧ row.encode = encode := by
  obtain ⟨row, hmem, heq⟩ := List.mem_map.mp (mem_of_lookup h)
  cases heq
  exact ⟨row, hmem, rfl, rfl, rfl⟩

/-! ## One op -/

/-- What a caller expects: octets that begin with how many they are, or a `ValueError`. -/
def Answers : Except EncodeError Bytes → Prop
  | .ok packed => leRead 2 packed = some packed.length
  | .error e => e.IsValueError

/-- What makes an op fail with something else than a `ValueError`. -/
def Hazardous (op : Op) : Prop :=
  match afterPrefix "Unknown_0x".toList op.id.toList with
  | some digits =>
    ∃ opCode params, parseInt 16 digits = some opCode ∧
      fromHex ((op.attrs.lookup "rawParams").getD "").toList = some params ∧
      ¬ (IsWord16 opCode ∧ params.length < 0xfffc)
  | none =>
    ∃ opCode encoder hazard, encodeById.lookup op.id = some (opCode, encoder) ∧
      hazardOf opCode = some hazard ∧ hazard.Occurs op.attrs

/-- The two numbers of the header are all that can stray, and the first is the length. -/
theorem answers_packOp {opCode : ℤ} {params : Bytes} :
    Answers (packOp opCode params) ↔ IsWord16 opCode ∧ params.length < 0xfffc := by
  by_cases hfits : IsWord16 opCode ∧ params.length < 0xfffc
  · have hcode : opCode = (opCode.toNat : ℤ) := (Int.toNat_of_nonneg hfits.1.1).symm
    have hlt : opCode.toNat < 0x10000 := by
      have hbound := hfits.1.2
      omega
    have hpacked := packOp_eq_ok.mpr ⟨rfl, hlt, hfits.2⟩
    rw [← hcode] at hpacked
    apply iff_of_true _ hfits
    rw [hpacked, Answers, opFrame, List.append_assoc, leRead_leBytes]
    simp only [List.length_append, length_leBytes, Option.some.injEq]
    omega
  · apply iff_of_false _ hfits
    have hstrays : Strays (packOp opCode params) := by
      simp only [packOp, escapes_bind, strays_packU16]
      by_cases hlen : params.length < 0xfffc
      · have hsize : packU16 (4 + params.length) = .ok (leBytes 2 (4 + params.length)) :=
          packU16_natCast (n := 4 + params.length) (by omega)
        exact .inr ⟨_, hsize, .inl fun hcode => hfits ⟨hcode, hlen⟩⟩
      · left
        rintro ⟨-, hsize⟩
        omega
    obtain ⟨e, he, hvalue⟩ := hstrays
    rw [he]
    exact hvalue

/-- An op of the table answers as expected exactly when its hazard does not occur. -/
theorem answers_known {row : KnownOp} (h : row ∈ knownOps) (attrs : Attrs) :
    Answers (row.encode attrs >>= packOp row.code) ↔
      ¬ ∃ hazard, hazardOf row.code = some hazard ∧ hazard.Occurs attrs := by
  have hencodes := encodes_of_mem h
  have hstrays := hencodes.strays_iff attrs
  cases hresult : row.encode attrs with
  | error e =>
    have herror : ¬ e.IsValueError ↔ ∃ hazard ∈ hazardOf row.code, hazard.Occurs attrs := by
      rw [← hstrays, hresult]
      exact (escapes_error e).symm
    have hsame : Answers (Except.error e >>= packOp row.code) ↔ e.IsValueError := Iff.rfl
    rw [hsame, ← not_iff_not, herror, not_not]
    rfl
  | ok params =>
    have hshort : params.length ≤ 20 := hencodes.short attrs params hresult
    have hlt := code_lt h
    have hnone : ¬ ∃ hazard, hazardOf row.code = some hazard ∧ hazard.Occurs attrs := by
      intro hoccurs
      have hstray := hstrays.mpr hoccurs
      rw [hresult] at hstray
      exact escapes_ok _ hstray
    rw [ok_bind, answers_packOp]
    exact iff_of_true ⟨⟨by omega, by omega⟩, by omega⟩ hnone

end Bmdwire.Macros
