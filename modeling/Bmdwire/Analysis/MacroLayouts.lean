import Bmdwire.Analysis.MacroScalars
import Bmdwire.Program.MacroCodec

/-!
# The layouts of macro ops come back

For each layout that ops share: what its decoder reads, its encoder packs into parameters that
the decoder reads the same. Three layouts give a name to a number and take an unknown name for
a default; they come back exactly for the numbers that have a name. The scalars come back
exactly below `scalarLimit`.
-/

set_option autoImplicit false

namespace Bmdwire.Macros

open Library

/-- The encoder packs the attributes so that the decoder reads them again; with the header the
length fits its 16 bits. -/
def Restores (decode : Decoder) (encode : Encoder) (attrs : Attrs) : Prop :=
  ∃ packed, encode attrs = .ok packed ∧ packed.length < 0xfffc ∧ decode packed = .ok attrs

/-- Whatever the decoder reads comes back. -/
def Faithful (decode : Decoder) (encode : Encoder) : Prop :=
  ∀ params attrs, decode params = .ok attrs → Restores decode encode attrs

/-- The tables of names are clear. -/
theorem clearNames_tables : ∀ names ∈
    [wipePatternNames, dvePatternNames, flykeyLocationNames, transitionStyles, uskTypeNames,
     mixTypeNames, fairlightEqShapeNames, fairlightEqRangeNames], ClearNames names := by
  decide

/-! ## Simple layouts -/

section

variable {name : String}

theorem meMarkerU16_faithful (hname : name ≠ "mixEffectBlockIndex") (marker : UInt8) :
    Faithful (dMeMarkerU16 name) (eMeMarkerU16 name marker) := by
  intro params attrs hread
  simp only [dMeMarkerU16, bind_eq_ok, pure_eq_ok] at hread
  obtain ⟨me, -, v, hv, rfl⟩ := hread
  have hlt := u16le_lt hv
  have hback : u16le (me :: marker :: leBytes 2 v) 2 = .ok v := u16le_packed [me, marker] hlt
  refine ⟨me :: marker :: leBytes 2 v, ?_, by simp, ?_⟩
  · simp [eMeMarkerU16, hname, u16leBytes_natCast hlt]
  · simp [dMeMarkerU16, hback]

theorem meMarkerSource_faithful (hname : name ≠ "mixEffectBlockIndex") (marker : UInt8) :
    Faithful (dMeMarkerSource name) (eMeMarkerSource marker name) := by
  intro params attrs hread
  simp only [dMeMarkerSource, bind_eq_ok, pure_eq_ok] at hread
  obtain ⟨me, -, source, hsource, rfl⟩ := hread
  obtain ⟨src, hlt, hresolve, hsame⟩ := resolveSymbolToSource_resolve (u16le_lt hsource)
  have hback : u16le (me :: marker :: leBytes 2 src) 2 = .ok src := u16le_packed [me, marker] hlt
  refine ⟨me :: marker :: leBytes 2 src, ?_, by simp, ?_⟩
  · simp [eMeMarkerSource, hname, hresolve, u16leBytes_natCast hlt]
  · simp [dMeMarkerSource, hback, hsame]

theorem meValueMarkerBool_faithful (hname : name ≠ "mixEffectBlockIndex") (marker : ℤ) :
    Faithful (dMeValueMarkerBool name) (eMeValueMarkerBool name marker) := by
  intro params attrs hread
  simp only [dMeValueMarkerBool, bind_eq_ok, pure_eq_ok] at hread
  obtain ⟨me, -, v, -, rfl⟩ := hread
  refine ⟨me :: boolByte (boolStr v.toNat) :: u16leBytes marker, ?_, by simp, ?_⟩
  · simp [eMeValueMarkerBool, hname]
  · simp [dMeValueMarkerBool, boolStr_boolByte]

theorem meKeyerBool_faithful (hme : name ≠ "mixEffectBlockIndex") (hkey : name ≠ "keyIndex")
    (marker : UInt8) : Faithful (dMeKeyerBool name) (eMeKeyerBool name marker) := by
  intro params attrs hread
  simp only [dMeKeyerBool, bind_eq_ok, pure_eq_ok] at hread
  obtain ⟨me, -, keyer, -, v, -, rfl⟩ := hread
  refine ⟨[me, keyer, boolByte (boolStr v.toNat), marker], ?_, by simp, ?_⟩
  · simp [eMeKeyerBool, hme, hkey]
  · simp [dMeKeyerBool, boolStr_boolByte]

theorem meKeyerU16_faithful (hme : name ≠ "mixEffectBlockIndex") (hkey : name ≠ "keyIndex") :
    Faithful (dMeKeyerU16 name) (eMeKeyerU16 name) := by
  intro params attrs hread
  simp only [dMeKeyerU16, bind_eq_ok, pure_eq_ok] at hread
  obtain ⟨me, -, keyer, -, v, hv, rfl⟩ := hread
  have hlt := u16le_lt hv
  have hback : u16le (me :: keyer :: leBytes 2 v) 2 = .ok v := u16le_packed [me, keyer] hlt
  refine ⟨me :: keyer :: leBytes 2 v, ?_, by simp, ?_⟩
  · simp [eMeKeyerU16, hme, hkey, u16leBytes_natCast hlt]
  · simp [dMeKeyerU16, hback]

end

/-! ## Switching -/

/-- The mix-effect and auxiliary inputs: one index, written as it is. -/
theorem busInput_faithful :
    Faithful (dMeMarkerSource "input") (eInput (intAttrOrZero · "mixEffectBlockIndex")) := by
  intro params attrs hread
  simp only [dMeMarkerSource, bind_eq_ok, pure_eq_ok] at hread
  obtain ⟨me, -, source, hsource, rfl⟩ := hread
  obtain ⟨src, hlt, hresolve, hsame⟩ := resolveSymbolToSource_resolve (u16le_lt hsource)
  have hback : u16le (me :: 0 :: leBytes 2 src) 2 = .ok src := u16le_packed [me, 0] hlt
  refine ⟨me :: 0 :: leBytes 2 src, ?_, by simp, ?_⟩
  · simp [eInput, hresolve, u16leBytes_natCast hlt]
  · simp [dMeMarkerSource, hback, hsame]

theorem auxiliaryInput_faithful : Faithful dAuxiliaryInput eAuxiliaryInput := by
  intro params attrs hread
  simp only [dAuxiliaryInput, bind_eq_ok, pure_eq_ok] at hread
  obtain ⟨aux, -, source, hsource, rfl⟩ := hread
  obtain ⟨src, hlt, hresolve, hsame⟩ := resolveSymbolToSource_resolve (u16le_lt hsource)
  have hback : u16le (aux :: 0 :: leBytes 2 src) 2 = .ok src := u16le_packed [aux, 0] hlt
  refine ⟨aux :: 0 :: leBytes 2 src, ?_, by simp, ?_⟩
  · simp [eAuxiliaryInput, eInput, hresolve, u16leBytes_natCast hlt]
  · simp [dAuxiliaryInput, hback, hsame]

theorem meOnly_faithful : Faithful dMeOnly eMeOnly := by
  intro params attrs hread
  simp only [dMeOnly, bind_eq_ok, pure_eq_ok] at hread
  obtain ⟨me, -, rfl⟩ := hread
  refine ⟨[me, 0, 0, 0], ?_, by simp, ?_⟩
  · simp [eMeOnly]
  · simp [dMeOnly]

theorem ftbEnabled_faithful : Faithful dFtbEnabled eFtbEnabled := by
  intro params attrs hread
  simp only [dFtbEnabled, dMeValueMarkerBool, bind_eq_ok, pure_eq_ok] at hread
  obtain ⟨me, -, v, -, rfl⟩ := hread
  have hsame := boolStr_isWord v.toNat
  refine ⟨[me, if isWord ["true", "1", "yes"] (boolStr v.toNat) then 1 else 0, 0, 0], ?_,
    by simp, ?_⟩
  · simp [eFtbEnabled]
  · simp only [dFtbEnabled, dMeValueMarkerBool, byteAt_cons_zero, byteAt_cons_succ, ok_bind, hsame,
      pure_ok]

theorem transitionWipePattern_faithful :
    Faithful dTransitionWipePattern eTransitionWipePattern := by
  intro params attrs hread
  simp only [dTransitionWipePattern, bind_eq_ok, pure_eq_ok] at hread
  obtain ⟨v, hv, me, -, rfl⟩ := hread
  have hlt := u16le_lt hv
  have hnames := clearNames_tables wipePatternNames (by simp)
  have hback : u16le (me :: famWipe :: leBytes 2 v) 2 = .ok v := u16le_packed [me, famWipe] hlt
  refine ⟨me :: famWipe :: leBytes 2 v, ?_, by simp, ?_⟩
  · simp [eTransitionWipePattern, namedInt_nameOf hnames, u16leBytes_natCast hlt]
  · simp [dTransitionWipePattern, hback]

theorem transitionDvePattern_faithful :
    Faithful dTransitionDvePattern eTransitionDvePattern := by
  intro params attrs hread
  simp only [dTransitionDvePattern, bind_eq_ok, pure_eq_ok] at hread
  obtain ⟨v, -, me, -, rfl⟩ := hread
  have hnames := clearNames_tables dvePatternNames (by simp)
  refine ⟨me :: v :: u16leBytes opMarker026C, ?_, by simp, ?_⟩
  · simp [eTransitionDvePattern, namedInt_nameOf hnames, lowByte_toNat]
  · simp [dTransitionDvePattern]

/-- A layer mask keeps its five bits, and an empty one selects the background. -/
theorem resolveLayerMask_pack (mask : ℕ) : ∃ m : ℕ, m < 0x10000 ∧
    packLayerMask (resolveLayerMask mask) = (m : ℤ) ∧
      resolveLayerMask m = resolveLayerMask mask := by
  have hlow : resolveLayerMask mask = resolveLayerMask (mask % 32) := by
    have hbits : ∀ p ∈ layerNames, mask.testBit p.1 = (mask % 32).testBit p.1 := by
      intro p hp
      have hall : ∀ p ∈ layerNames, p.1 < 5 := by decide
      have hlt := hall p hp
      rw [show 32 = 2 ^ 5 by norm_num, Nat.testBit_mod_two_pow]
      simp [hlt]
    rw [resolveLayerMask, resolveLayerMask, List.filter_congr hbits]
  have hall : ∀ m ∈ List.range 32, 0 ≤ packLayerMask (resolveLayerMask m) ∧
      packLayerMask (resolveLayerMask m) < 0x10000 ∧
      resolveLayerMask (packLayerMask (resolveLayerMask m)).toNat = resolveLayerMask m := by
    decide
  obtain ⟨hpos, hlt, hsame⟩ := hall (mask % 32) (List.mem_range.mpr (Nat.mod_lt _ (by decide)))
  rw [hlow]
  exact ⟨_, by omega, (Int.toNat_of_nonneg hpos).symm, hsame⟩

theorem transitionSource_faithful : Faithful dTransitionSource eTransitionSource := by
  intro params attrs hread
  simp only [dTransitionSource, bind_eq_ok, pure_eq_ok] at hread
  obtain ⟨me, -, mask, -, rfl⟩ := hread
  obtain ⟨m, hlt, hpack, hsame⟩ := resolveLayerMask_pack mask
  have hback : u16le (me :: 0 :: leBytes 2 m) 2 = .ok m := u16le_packed [me, 0] hlt
  refine ⟨me :: 0 :: leBytes 2 m, ?_, by simp, ?_⟩
  · simp [eTransitionSource, hpack, u16leBytes_natCast hlt, List.lookup_cons]
  · simp [dTransitionSource, hback, hsame]

/-- A mode with a name is known by it, and no name is a number. -/
theorem videoModeNames_clear :
    (∀ p ∈ videoModeIntToName, videoModeNames.lookup p.2 = some (p.1 : ℤ)) ∧
      ∀ p ∈ videoModeNames, parseInt 10 p.1.toList = none := by
  decide

/-- The digits of a number are no name of a mode, nor a label. -/
theorem videoModeNumber_str (n : ℕ) : videoModeNumber (str n) = none := by
  have hname : videoModeNames.lookup (str n) = none := by
    apply lookup_eq_none
    intro p hp heq
    have hread := videoModeNames_clear.2 p hp
    rw [heq, parseInt_str] at hread
    cases hread
  have hlabel : afterPrefix "mode-".toList (str n).toList = none := by
    have hfirst : ∀ c ∈ (str n).toList, c ≠ 'm' := by
      rw [str, Nat.toList_repr]
      intro c hc heq
      exact absurd (heq ▸ (isNumeral_toDigits (by decide) c hc).digitVal_lt (by decide))
        (by decide)
    cases hdigits : (str n).toList with
    | nil => decide
    | cons c cs =>
      have hne := hfirst c (hdigits ▸ List.mem_cons_self ..)
      have hlist : "mode-".toList = 'm' :: ['o', 'd', 'e', '-'] := by decide
      rw [afterPrefix, hlist]
      simp [List.isPrefixOf, Ne.symm hne]
  rw [videoModeNumber, hname, hlabel]

/-- Every octet is a video mode that comes back, with a name or without. -/
theorem videoMode_faithful : Faithful dVideoMode eVideoMode := by
  intro params attrs hread
  simp only [dVideoMode, bind_eq_ok, pure_eq_ok] at hread
  obtain ⟨mode, -, rfl⟩ := hread
  have hlt := mode.toNat_lt
  refine ⟨[mode, 0, 0, 0], ?_, by simp, rfl⟩
  unfold nameOf
  cases hname : videoModeIntToName.lookup mode.toNat with
  | some name =>
    have hnumber : videoModeNumber name = some (mode.toNat : ℤ) := by
      rw [videoModeNumber, videoModeNames_clear.1 _ (mem_of_lookup hname)]
    have hrange : (0 : ℤ) ≤ mode.toNat ∧ (mode.toNat : ℤ) ≤ 0xFF := by omega
    simp [eVideoMode, hnumber, hrange]
  | none =>
    have hrange : (0 : ℤ) ≤ mode.toNat ∧ (mode.toNat : ℤ) ≤ 0xFF := by omega
    simp [eVideoMode, videoModeNumber_str, parseInt_str, hrange]

/-! ## Keyers -/

theorem meKeyer_cons (me keyer : UInt8) (attrs : Attrs) :
    meKeyer (("mixEffectBlockIndex", str me.toNat) :: ("keyIndex", str keyer.toNat) :: attrs) =
      .ok [(me.toNat : ℤ), (keyer.toNat : ℤ)] := by
  simp [meKeyer]

theorem keySource_faithful : Faithful dKeySource eKeySource := by
  intro params attrs hread
  simp only [dKeySource, bind_eq_ok, pure_eq_ok] at hread
  obtain ⟨me, -, keyer, -, source, hsource, rfl⟩ := hread
  obtain ⟨src, hlt, hresolve, hsame⟩ := resolveSymbolToSource_resolve (u16le_lt hsource)
  have hback : u16le (me :: keyer :: leBytes 2 src) 2 = .ok src := u16le_packed [me, keyer] hlt
  refine ⟨me :: keyer :: leBytes 2 src, ?_, by simp, ?_⟩
  · simp [eKeySource, meKeyer_cons, hresolve, u16leBytes_natCast hlt]
  · simp [dKeySource, hback, hsame]

theorem keyBool_faithful {name : String} (hme : name ≠ "mixEffectBlockIndex")
    (hkey : name ≠ "keyIndex") (last : UInt8) :
    Faithful (dMeKeyerBool name) (eKeyBool name last) := by
  intro params attrs hread
  simp only [dMeKeyerBool, bind_eq_ok, pure_eq_ok] at hread
  obtain ⟨me, -, keyer, -, v, -, rfl⟩ := hread
  refine ⟨[me, keyer, boolByte (boolStr v.toNat), last], ?_, by simp, ?_⟩
  · simp [eKeyBool, meKeyer_cons, hme, hkey]
  · simp [dMeKeyerBool, boolStr_boolByte]

theorem keyOnAir_faithful : Faithful dKeyOnAir eKeyOnAir := by
  intro params attrs hread
  simp only [dKeyOnAir, bind_eq_ok, pure_eq_ok] at hread
  obtain ⟨me, -, keyer, -, v, -, rfl⟩ := hread
  have hsame := boolStr_isBareWord v
  generalize hon : isBareWord ["true", "1"] (boolStr v) = on at hsame
  have hlt : (if on then 1 else 0 : ℕ) < 0x10000 := by split <;> decide
  have hback : u16le (me :: keyer :: leBytes 2 (if on then 1 else 0)) 2 =
      .ok (if on then 1 else 0) := u16le_packed [me, keyer] hlt
  have hpack : u16leBytes (if on then 1 else 0) = leBytes 2 (if on then 1 else 0) := by
    cases on <;> rfl
  refine ⟨me :: keyer :: leBytes 2 (if on then 1 else 0), ?_, by simp, ?_⟩
  · simp only [eKeyOnAir, attr_cons_ne (by decide : "onAir" ≠ "mixEffectBlockIndex"),
      attr_cons_ne (by decide : "onAir" ≠ "keyIndex"), attr_cons_self, ok_bind, meKeyer_cons,
      bytesOf_toNat, bytesOf_nil, map_ok, hon, hpack, pure_ok]
    rfl
  · simp only [dKeyOnAir, byteAt_cons_zero, byteAt_cons_succ, ok_bind, hback, hsame, pure_ok]

theorem flykeyRunToFull_faithful : Faithful dFlykeyRunToFull eFlykeyRunToFull := by
  intro params attrs hread
  simp only [dFlykeyRunToFull, bind_eq_ok, pure_eq_ok] at hread
  obtain ⟨me, -, keyer, -, rfl⟩ := hread
  refine ⟨me :: keyer :: u16leBytes 0x024A, ?_, by simp, ?_⟩
  · simp [eFlykeyRunToFull]
  · simp [dFlykeyRunToFull]

theorem flykeyRunToInfinity_faithful : Faithful dFlykeyRunToInfinity eFlykeyRunToInfinity := by
  intro params attrs hread
  simp only [dFlykeyRunToInfinity, bind_eq_ok, pure_eq_ok] at hread
  obtain ⟨v, -, me, -, keyer, -, rfl⟩ := hread
  have hnames := clearNames_tables flykeyLocationNames (by simp)
  refine ⟨[me, keyer, v, 0x02], ?_, by simp, ?_⟩
  · simp [eFlykeyRunToInfinity, namedInt_nameOf hnames, lowByte_toNat]
  · simp [dFlykeyRunToInfinity]

theorem dskSource_faithful : Faithful dDskSource eDskSource := by
  intro params attrs hread
  simp only [dDskSource, bind_eq_ok, pure_eq_ok] at hread
  obtain ⟨key, -, source, hsource, rfl⟩ := hread
  obtain ⟨src, hlt, hresolve, hsame⟩ := resolveSymbolToSource_resolve (u16le_lt hsource)
  have hback : u16le (key :: 0 :: leBytes 2 src) 2 = .ok src := u16le_packed [key, 0] hlt
  refine ⟨key :: 0 :: leBytes 2 src, ?_, by simp, ?_⟩
  · simp [eDskSource, dskHead, hresolve, u16leBytes_natCast hlt]
  · simp [dDskSource, hback, hsame]

theorem dskRate_faithful : Faithful dDskRate eDskRate := by
  intro params attrs hread
  simp only [dDskRate, bind_eq_ok, pure_eq_ok] at hread
  obtain ⟨key, -, v, hv, rfl⟩ := hread
  have hlt := u16le_lt hv
  have hback : u16le (key :: 0 :: leBytes 2 v) 2 = .ok v := u16le_packed [key, 0] hlt
  refine ⟨key :: 0 :: leBytes 2 v, ?_, by simp, ?_⟩
  · simp [eDskRate, dskHead, u16leBytes_natCast hlt]
  · simp [dDskRate, hback]

theorem dskAuto_faithful : Faithful dDskAuto eDskAuto := by
  intro params attrs hread
  simp only [dDskAuto, bind_eq_ok, pure_eq_ok] at hread
  obtain ⟨key, -, rfl⟩ := hread
  refine ⟨[key, 0, 0, 0], ?_, by simp, ?_⟩
  · simp [eDskAuto]
  · simp [dDskAuto]

section

variable {name : String}

theorem dskBareBool_faithful (hname : name ≠ "keyIndex") :
    Faithful (dDskBool name) (eDskBareBool name) := by
  intro params attrs hread
  simp only [dDskBool, bind_eq_ok, pure_eq_ok] at hread
  obtain ⟨key, -, v, -, rfl⟩ := hread
  have hsame := boolStr_isBareWord v.toNat
  generalize hon : isBareWord ["true", "1"] (boolStr v.toNat) = on at hsame
  refine ⟨[key, if on then 1 else 0, 0, 0], ?_, by simp, ?_⟩
  · simp only [eDskBareBool, attr_cons_ne hname, attr_cons_self, ok_bind, hon,
      intAttr_cons_self, bytesOf_toNat]
    cases on <;> rfl
  · have hoctet : (if on then 1 else 0 : UInt8).toNat = if on then 1 else 0 := by cases on <;> rfl
    simp only [dDskBool, byteAt_cons_zero, byteAt_cons_succ, ok_bind, hoctet, hsame, pure_ok]

theorem dskBool_faithful (hname : name ≠ "keyIndex") (marker : ℤ) :
    Faithful (dDskBool name) (eDskBool name marker) := by
  intro params attrs hread
  simp only [dDskBool, bind_eq_ok, pure_eq_ok] at hread
  obtain ⟨key, -, v, -, rfl⟩ := hread
  refine ⟨key :: boolByte (boolStr v.toNat) :: u16leBytes marker, ?_, by simp, ?_⟩
  · simp [eDskBool, hname]
  · simp [dDskBool, boolStr_boolByte]

end

/-! ## Media players, macro flow and HyperDecks -/

theorem mediaPlayerStillIndex_faithful :
    Faithful dMediaPlayerStillIndex eMediaPlayerStillIndex := by
  intro params attrs hread
  simp only [dMediaPlayerStillIndex, bind_eq_ok, pure_eq_ok] at hread
  obtain ⟨player, -, v, hv, rfl⟩ := hread
  have hlt := u16le_lt hv
  have hback : u16le (player :: 0 :: leBytes 2 v) 2 = .ok v := u16le_packed [player, 0] hlt
  refine ⟨player :: 0 :: leBytes 2 v, ?_, by simp, ?_⟩
  · simp [eMediaPlayerStillIndex, u16leBytes_natCast hlt]
  · simp [dMediaPlayerStillIndex, hback]

theorem mediaPlayerStillOnly_faithful : Faithful dMediaPlayerStillOnly eMediaPlayerStillOnly := by
  intro params attrs hread
  simp only [dMediaPlayerStillOnly, bind_eq_ok, pure_eq_ok] at hread
  obtain ⟨player, -, rfl⟩ := hread
  refine ⟨[player, 0, 0, 0], ?_, by simp, ?_⟩
  · simp [eMediaPlayerStillOnly]
  · simp [dMediaPlayerStillOnly]

theorem macroSleep_faithful : Faithful dMacroSleep eMacroSleep := by
  intro params attrs hread
  simp only [dMacroSleep, bind_eq_ok, pure_eq_ok] at hread
  obtain ⟨v, hv, rfl⟩ := hread
  have hlt := u32le_lt hv
  have hback : u32le (leBytes 4 v) 0 = .ok v := u32le_packed [] hlt
  refine ⟨leBytes 4 v, ?_, by simp, ?_⟩
  · simp [eMacroSleep, u32leBytes_natCast hlt]
  · simp [dMacroSleep, hback]

theorem packU16_natCast {n : ℕ} (hn : n < 0x10000) : packU16 (n : ℤ) = .ok (leBytes 2 n) := by
  rw [packU16, if_pos (by omega), Int.toNat_natCast]

theorem hdInput_faithful : Faithful dHdInput eHdInput := by
  intro params attrs hread
  simp only [dHdInput, bind_eq_ok, pure_eq_ok] at hread
  obtain ⟨slot, -, v, hv, rfl⟩ := hread
  have hlt := u16le_lt hv
  have hback : u16le (slot :: 0 :: leBytes 2 v) 2 = .ok v := u16le_packed [slot, 0] hlt
  refine ⟨slot :: 0 :: leBytes 2 v, ?_, by simp, ?_⟩
  · simp [eHdInput, packU16_natCast hlt]
  · simp [dHdInput, hback]

/-- Digits that something else follows are read as a number. -/
theorem numberIn_append {base : ℕ} {ds rest : List Char} (hds : ∀ c ∈ ds, digitVal c < base)
    (hrest : ∀ c ∈ rest.head?, base ≤ digitVal c) :
    numberIn base (ds ++ rest) = (digitsValue base 0 ds, rest) := by
  have hds : ∀ c ∈ ds, decide (digitVal c < base) = true := fun c hc => decide_eq_true (hds c hc)
  have htake : rest.takeWhile (digitVal · < base) = [] := by
    cases rest with
    | nil => rfl
    | cons c cs => simp [hrest c rfl]
  have hdrop : rest.dropWhile (digitVal · < base) = rest := by
    cases rest with
    | nil => rfl
    | cons c cs => simp [hrest c rfl]
  rw [numberIn, List.takeWhile_append_of_pos hds, List.dropWhile_append_of_pos hds, htake, hdrop,
    List.append_nil]

/-- An octet of an address, whether a dot follows or nothing. -/
theorem addressNumber_octet {n : ℕ} (hn : n < 256) {rest : List Char}
    (hrest : rest = [] ∨ ∃ more, rest = '.' :: more) :
    addressNumber ((str n).toList ++ rest) = some (n, rest) := by
  have hstop : ∀ base ≤ 36, ∀ c ∈ rest.head?, base ≤ digitVal c := by
    intro base hbase c hc
    rcases hrest with rfl | ⟨more, rfl⟩
    · cases hc
    · obtain rfl := Option.some.inj hc
      exact hbase
  rw [str, Nat.toList_repr]
  rcases Nat.eq_zero_or_pos n with rfl | hpos
  · have hzero : Nat.toDigits 10 0 = ['0'] := rfl
    have hdigit : ∀ c ∈ ['0'], digitVal c < 8 := by
      intro c hc
      obtain rfl := List.mem_singleton.mp hc
      decide
    have hread := @numberIn_append 8 ['0'] rest hdigit (hstop 8 (by decide))
    rw [hzero]
    rcases hrest with rfl | ⟨more, rfl⟩
    · rfl
    · cases more with
      | nil => rfl
      | cons d more =>
        show (if ('.' = 'x' ∨ '.' = 'X') ∧ digitVal d < 16 then some (numberIn 16 (d :: more))
          else some (numberIn 8 ('0' :: '.' :: d :: more))) = _
        rw [if_neg (by simp)]
        exact congrArg some hread
  · have hnumerals : ∀ c ∈ Nat.toDigits 10 n, IsNumeral 10 c := isNumeral_toDigits (by decide)
    have hread := numberIn_append (fun c hc => (hnumerals c hc).digitVal_lt (by decide))
      (hstop 10 (by decide))
    have hvalue := @digitsValue_toDigits 10 n (by decide) (by decide)
    have hlead : ∀ m ∈ List.range 256, 0 < m → (Nat.toDigits 10 m).head? ≠ some '0' := by
      decide +kernel
    have hlead := hlead n (List.mem_range.mpr hn) hpos
    obtain ⟨c, cs, hdigits⟩ := List.exists_cons_of_ne_nil (@Nat.toDigits_ne_nil n 10)
    rw [hdigits] at hnumerals hlead hread hvalue ⊢
    have hc : c.isDigit = true := (hnumerals c (List.mem_cons_self ..)).isDigit
    have hne : c ≠ '0' := fun heq => hlead (by rw [heq]; rfl)
    rw [hvalue, List.cons_append] at hread
    rw [List.cons_append]
    unfold addressNumber
    dsimp only
    rw [if_pos hc, if_neg hne, hread]

theorem addressParts_dot {n : ℕ} (hn : n < 256) (more : ℕ) (rest : List Char) :
    addressParts (more + 1) ((str n).toList ++ '.' :: rest) =
      (addressParts more rest).map fun p => (n :: p.1, p.2) := by
  rw [addressParts.eq_def]
  dsimp only
  rw [addressNumber_octet hn (.inr ⟨rest, rfl⟩)]
  exact if_pos (by omega)

theorem addressParts_last {n : ℕ} (hn : n < 256) (more : ℕ) :
    addressParts more (str n).toList = some ([n], []) := by
  have hread := @addressNumber_octet n hn [] (.inl rfl)
  rw [List.append_nil] at hread
  rw [addressParts.eq_def]
  dsimp only
  rw [hread]

/-- A dotted address is read back. -/
theorem inetAton_inetNtoa {packed : Bytes} {text : String} (h : inetNtoa packed = .ok text) :
    inetAton text = .ok packed := by
  unfold inetNtoa at h
  split at h
  · rename_i hlen
    obtain rfl := Except.ok.inj h
    obtain ⟨a, b, c, d, rfl⟩ : ∃ a b c d, packed = [a, b, c, d] := by
      rcases packed with _ | ⟨a, _ | ⟨b, _ | ⟨c, _ | ⟨d, _ | ⟨e, rest⟩⟩⟩⟩⟩ <;> simp_all
    have htext : (".".intercalate ([a, b, c, d].map fun b => str b.toNat)).toList =
        (str a.toNat).toList ++ '.' :: ((str b.toNat).toList ++ '.' ::
          ((str c.toNat).toList ++ '.' :: (str d.toNat).toList)) := by
      rw [String.toList_intercalate]
      have hdot : ".".toList = ['.'] := by decide
      simp [hdot, List.intercalate]
    have hnull : '\x00' ∉ (".".intercalate ([a, b, c, d].map fun b => str b.toNat)).toList := by
      have hdigits : ∀ n : ℕ, '\x00' ∉ (str n).toList := by
        intro n hmem
        rw [str, Nat.toList_repr] at hmem
        exact absurd ((isNumeral_toDigits (by decide) _ hmem).digitVal_lt (by decide)) (by decide)
      rw [htext]
      simp [hdigits]
    have hparts : addressParts 3 (".".intercalate ([a, b, c, d].map fun b => str b.toNat)).toList =
        some ([a.toNat, b.toNat, c.toNat, d.toNat], []) := by
      rw [htext, addressParts_dot a.toNat_lt, addressParts_dot b.toNat_lt,
        addressParts_dot c.toNat_lt, addressParts_last d.toNat_lt]
      rfl
    rw [inetAton, if_neg hnull, hparts]
    have hlast := d.toNat_lt
    simp [endsAddress, hlast, leBytes]
  · cases h

theorem hdNetworkAddress_faithful : Faithful dHdNetworkAddress eHdNetworkAddress := by
  intro params attrs hread
  simp only [dHdNetworkAddress, bind_eq_ok, pure_eq_ok] at hread
  obtain ⟨slot, -, address, haddress, rfl⟩ := hread
  have hback := inetAton_inetNtoa haddress
  have hlen : ((params.drop 4).take 4).reverse.length = 4 := by
    unfold inetNtoa at haddress
    split at haddress
    · assumption
    · cases haddress
  generalize hpacked : ((params.drop 4).take 4).reverse = packed at *
  refine ⟨slot :: 0 :: (hdIpMarker ++ packed.reverse), ?_, by simp [hdIpMarker, hlen], ?_⟩
  · simp [eHdNetworkAddress, hback]
  · have htake : ((slot :: 0 :: (hdIpMarker ++ packed.reverse)).drop 4).take 4 =
        packed.reverse := by
      have hdrop : (slot :: 0 :: (hdIpMarker ++ packed.reverse)).drop 4 = packed.reverse := rfl
      rw [hdrop, List.take_of_length_le (by simp [hlen])]
    show (Except.ok slot >>= fun slot => inetNtoa _ >>= fun address =>
      pure [("slot", str slot.toNat), ("networkAddress", address)]) = _
    rw [htake, List.reverse_reverse, haddress]
    rfl

/-! ## Audio strips -/

/-- A number is read where it stands after other octets. -/
theorem unpackFrom_append {size i n : ℕ} {before rest : Bytes}
    (h : unpackFrom size rest i = .ok n) :
    unpackFrom size (before ++ rest) (before.length + i) = .ok n := by
  rw [unpackFrom_eq_ok] at h ⊢
  rwa [← List.drop_drop, List.drop_left]

theorem byteAt_append (before rest : Bytes) (i : ℕ) :
    byteAt (before ++ rest) (before.length + i) = byteAt rest i := by
  unfold byteAt
  rw [List.getElem?_append_right (by omega), Nat.add_sub_cancel_left]

section

variable {src sid : ℕ} {marker : ℤ}

@[simp] theorem length_stripPrefix (src marker : ℤ) (sid : ℕ) :
    (stripPrefix src marker sid).length = 12 := by
  simp [stripPrefix]

theorem stripPrefix_source (hsrc : src < 0x10000) (rest : Bytes) :
    u16le (stripPrefix src marker sid ++ rest) 0 = .ok src := by
  rw [stripPrefix, u16leBytes_natCast hsrc, List.append_assoc, List.append_assoc]
  exact unpackFrom_leBytes [] _ hsrc

theorem stripPrefix_sourceId (hsid : sid < 2 ^ 64) (rest : Bytes) :
    u64le (stripPrefix src marker sid ++ rest) 4 = .ok sid := by
  have hread := @unpackFrom_leBytes 8 sid (u16leBytes src ++ u16leBytes marker) rest
    (hsid.trans_eq (by norm_num))
  have hlen : (u16leBytes src ++ u16leBytes marker).length = 4 := by simp
  rw [hlen] at hread
  rwa [stripPrefix, List.append_assoc]

theorem stripPrefixDecode_prefix (hsrc : src < 0x10000) (hsid : sid < 2 ^ 64) (rest : Bytes) :
    stripPrefixDecode (stripPrefix src marker sid ++ rest) = .ok (src, sid) := by
  obtain ⟨_, hmarker⟩ : ∃ n, u16le (stripPrefix src marker sid ++ rest) 2 = .ok n :=
    unpackFrom_of_le (by simp; omega)
  simp [stripPrefixDecode, stripPrefix_source hsrc, hmarker, stripPrefix_sourceId hsid]

theorem stripPrefix_byteAt (rest : Bytes) (i : ℕ) :
    byteAt (stripPrefix src marker sid ++ rest) (12 + i) = byteAt rest i := by
  have hread := byteAt_append (stripPrefix src marker sid) rest i
  rwa [length_stripPrefix] at hread

theorem stripPrefix_unpackFrom {size i n : ℕ} {rest : Bytes}
    (h : unpackFrom size rest i = .ok n) :
    unpackFrom size (stripPrefix src marker sid ++ rest) (12 + i) = .ok n := by
  have hread := @unpackFrom_append size i n (stripPrefix src marker sid) rest h
  rwa [length_stripPrefix] at hread

/-- A source id is read back from its digits. -/
theorem resolveSourceId_str (hsid : sid < 2 ^ 64) : resolveSourceId (some (str sid)) = .ok sid := by
  have hread := parseInt_str sid
  have hmod : ((sid : ℤ) % 2 ^ 64).toNat = sid := by omega
  unfold resolveSourceId
  split
  · rename_i heq
    cases heq
  · rename_i heq
    have hempty : parseInt 10 "".toList = none := by decide
    rw [Option.some.inj heq, hempty] at hread
    cases hread
  · rename_i text _ heq
    obtain rfl := Option.some.inj heq
    rw [hread]
    exact congrArg _ hmod

theorem stripPrefixEncode_str {name : String} (hname : resolveSymbolToSource name = .ok (src : ℤ))
    (hsid : sid < 2 ^ 64) (attrs : Attrs) (marker : ℤ) :
    stripPrefixEncode (("input", name) :: ("sourceId", str sid) :: attrs) marker =
      .ok (stripPrefix src marker sid) := by
  have hlookup : (("input", name) :: ("sourceId", str sid) :: attrs).lookup "sourceId" =
      some (str sid) := by simp [List.lookup_cons]
  simp [stripPrefixEncode, hname, hlookup, resolveSourceId_str hsid]

/-- The source and the source id of a strip, with what stands for them on the way back. -/
theorem stripPrefixDecode_comesBack {params : Bytes} {p : ℕ × ℕ}
    (h : stripPrefixDecode params = .ok p) :
    ∃ src : ℕ, src < 0x10000 ∧ p.2 < 2 ^ 64 ∧
      resolveSymbolToSource (resolveSourceToSymbol p.1) = .ok (src : ℤ) ∧
        resolveSourceToSymbol src = resolveSourceToSymbol p.1 := by
  simp only [stripPrefixDecode, bind_eq_ok, pure_eq_ok] at h
  obtain ⟨source, hsource, -, -, sid, hsid, rfl⟩ := h
  obtain ⟨src, hlt, hresolve, hsame⟩ := resolveSymbolToSource_resolve (u16le_lt hsource)
  exact ⟨src, hlt, u64le_lt hsid, hresolve, hsame⟩

end

theorem stripEnable_faithful (marker : ℤ) (byte13 : UInt8) (trailing : ℤ) :
    Faithful dStripEnable (eStripEnable marker byte13 trailing) := by
  intro params attrs hread
  simp only [dStripEnable, bind_eq_ok, pure_eq_ok] at hread
  obtain ⟨⟨source, sid⟩, hhead, v, -, rfl⟩ := hread
  obtain ⟨src, hsrc, hsid, hresolve, hsame⟩ := stripPrefixDecode_comesBack hhead
  have hon := boolStr_isWord v.toNat
  generalize hval : (if isWord ["true", "1", "yes"] (boolStr v.toNat) then 1 else 0 : UInt8) = val
    at hon
  have hbyte : byteAt (stripPrefix src marker sid ++ val :: byte13 :: u16leBytes trailing) 12 =
      .ok val := stripPrefix_byteAt _ 0
  refine ⟨stripPrefix src marker sid ++ val :: byte13 :: u16leBytes trailing, ?_, by simp, ?_⟩
  · simp [eStripEnable, stripPrefixEncode_str hresolve hsid, hval]
  · simp only [dStripEnable, stripPrefixDecode_prefix hsrc hsid, ok_bind, hbyte, hsame, hon,
      pure_ok]

theorem eqBandEnabled_faithful : Faithful dEqBandEnabled eEqBandEnabled := by
  intro params attrs hread
  simp only [dEqBandEnabled, bind_eq_ok, pure_eq_ok] at hread
  obtain ⟨⟨source, sid⟩, hhead, band, -, v, -, rfl⟩ := hread
  obtain ⟨src, hsrc, hsid, hresolve, hsame⟩ := stripPrefixDecode_comesBack hhead
  have hon := boolStr_isWord v.toNat
  generalize hval : (if isWord ["true", "1", "yes"] (boolStr v.toNat) then 1 else 0 : UInt8) = val
    at hon
  have hband : byteAt (stripPrefix src fairlightFam03E1 sid ++ band :: val :: u16leBytes 0x000C)
      12 = .ok band := stripPrefix_byteAt _ 0
  have hbyte : byteAt (stripPrefix src fairlightFam03E1 sid ++ band :: val :: u16leBytes 0x000C)
      13 = .ok val := stripPrefix_byteAt _ 1
  refine ⟨stripPrefix src fairlightFam03E1 sid ++ band :: val :: u16leBytes 0x000C, ?_,
    by simp, ?_⟩
  · simp [eEqBandEnabled, stripPrefixEncode_str hresolve hsid, hval, lowByte_toNat]
  · simp only [dEqBandEnabled, stripPrefixDecode_prefix hsrc hsid, ok_bind, hband, hbyte, hsame,
      hon, pure_ok]

theorem eqBandFrequency_faithful : Faithful dEqBandFrequency eEqBandFrequency := by
  intro params attrs hread
  simp only [dEqBandFrequency, bind_eq_ok, pure_eq_ok] at hread
  obtain ⟨⟨source, sid⟩, hhead, band, -, freq, hfreq, rfl⟩ := hread
  obtain ⟨src, hsrc, hsid, hresolve, hsame⟩ := stripPrefixDecode_comesBack hhead
  have hlt := u32le_lt hfreq
  have hband : byteAt (stripPrefix src fairlightFam03E1 sid ++
      band :: 0xAC :: (u16leBytes 0x000C ++ leBytes 4 freq)) 12 = .ok band :=
    stripPrefix_byteAt _ 0
  have hback : u32le (stripPrefix src fairlightFam03E1 sid ++
      band :: 0xAC :: (u16leBytes 0x000C ++ leBytes 4 freq)) 16 = .ok freq :=
    stripPrefix_unpackFrom (i := 4) (u32le_packed (band :: 0xAC :: u16leBytes 0x000C) hlt)
  refine ⟨stripPrefix src fairlightFam03E1 sid ++
    band :: 0xAC :: (u16leBytes 0x000C ++ leBytes 4 freq), ?_, by simp, ?_⟩
  · simp [eEqBandFrequency, stripPrefixEncode_str hresolve hsid, lowByte_toNat,
      u32leBytes_natCast hlt]
  · simp only [dEqBandFrequency, stripPrefixDecode_prefix hsrc hsid, ok_bind, hband, hback, hsame,
      pure_ok]

theorem eqBandName_faithful {name : String} {names : List (ℕ × String)}
    (hname : name ∉ ["input", "sourceId", "band"]) (hnames : ClearNames names) :
    Faithful (dEqBandName name names) (eEqBandName name names) := by
  intro params attrs hread
  simp only [List.mem_cons, List.not_mem_nil, or_false, not_or] at hname
  simp only [dEqBandName, bind_eq_ok, pure_eq_ok] at hread
  obtain ⟨⟨source, sid⟩, hhead, n, hn, band, -, rfl⟩ := hread
  obtain ⟨src, hsrc, hsid, hresolve, hsame⟩ := stripPrefixDecode_comesBack hhead
  have hlt := u16le_lt hn
  have hband : byteAt (stripPrefix src fairlightFam03E1 sid ++ band :: 0xAC :: leBytes 2 n) 12 =
      .ok band := stripPrefix_byteAt _ 0
  have hback : u16le (stripPrefix src fairlightFam03E1 sid ++ band :: 0xAC :: leBytes 2 n) 14 =
      .ok n := stripPrefix_unpackFrom (i := 2) (u16le_packed [band, 0xAC] hlt)
  refine ⟨stripPrefix src fairlightFam03E1 sid ++ band :: 0xAC :: leBytes 2 n, ?_, by simp, ?_⟩
  · simp [eEqBandName, stripPrefixEncode_str hresolve hsid, hname, lowByte_toNat,
      namedInt_nameOf hnames, u16leBytes_natCast hlt]
  · simp only [dEqBandName, stripPrefixDecode_prefix hsrc hsid, ok_bind, hband, hback, hsame,
      pure_ok]

end Bmdwire.Macros
