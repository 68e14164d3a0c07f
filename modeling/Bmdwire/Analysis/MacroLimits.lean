import Bmdwire.Analysis.MacroLayouts

/-!
# Macro ops that come back only below a limit

A number without a name is taken for a default where the encoder expects a name, and a scalar
that six digits round up to the end of its range does not fit there again. Each such layout
comes back exactly when its `Limit` is met.
-/

set_option autoImplicit false

namespace Bmdwire.Macros

open Library

/-- What an op asks of its parameters to come back. -/
inductive Limit
  /-- nothing -/
  | free
  /-- the number of so many octets at the offset has a name -/
  | named (size offset : ℕ) (names : List (ℕ × String))
  /-- the scalar at the offset is below the end of its range -/
  | scalar (signed : Bool) (offset : ℕ)

/-- Parameters that are too short to hold the number meet the limit. -/
def Limit.Met : Limit → Bytes → Prop
  | .free, _ => True
  | .named size offset names, params =>
    ∀ n, unpackFrom size params offset = .ok n → (names.lookup n).isSome = true
  | .scalar signed offset, params =>
    ∀ n, int32le signed params offset = .ok n → n < scalarLimit signed

/-- What was read comes back exactly within the limit, which only concerns what can be read. -/
structure Keeps (limit : Limit) (decode : Decoder) (encode : Encoder) : Prop where
  restores : ∀ params attrs, decode params = .ok attrs →
    (Restores decode encode attrs ↔ limit.Met params)
  unread : ∀ params text, decode params = .error text → limit.Met params

theorem Faithful.keeps {decode : Decoder} {encode : Encoder} (h : Faithful decode encode) :
    Keeps .free decode encode where
  restores params attrs hread := iff_of_true (h params attrs hread) trivial
  unread _ _ _ := trivial

/-! ## Names with a default -/

/-- A number of one octet is that octet. -/
theorem unpackFrom_one {params : Bytes} {i n : ℕ} :
    unpackFrom 1 params i = .ok n ↔ ∃ b, byteAt params i = .ok b ∧ n = b.toNat := by
  rw [unpackFrom_eq_ok]
  simp only [byteAt_eq_ok]
  rw [← List.head?_drop]
  cases params.drop i with
  | nil => simp [leRead]
  | cons b bs => simp [leRead, eq_comm]

/-- One number decides whether the attributes come back. -/
theorem named_met {size offset n : ℕ} {names : List (ℕ × String)} {params : Bytes}
    (h : unpackFrom size params offset = .ok n) :
    (Limit.named size offset names).Met params ↔ (names.lookup n).isSome = true := by
  constructor
  · intro hmet
    exact hmet n h
  · intro hsome m hm
    rw [h] at hm
    exact Except.ok.inj hm ▸ hsome

theorem byteAt_lt {params : Bytes} {i : ℕ} {b : UInt8} (h : byteAt params i = .ok b) :
    i < params.length :=
  (List.getElem?_eq_some_iff.mp (byteAt_eq_ok.mp h)).1

theorem transitionStyle_keeps :
    Keeps (.named 1 1 transitionStyles) dTransitionStyle eTransitionStyle := by
  have hnames := clearNames_tables transitionStyles (by simp)
  constructor
  · intro params attrs hread
    simp only [dTransitionStyle, bind_eq_ok, pure_eq_ok] at hread
    obtain ⟨me, -, style, hstyle, rfl⟩ := hread
    rw [named_met (unpackFrom_one.mpr ⟨style, hstyle, rfl⟩)]
    have hlookup : ([("mixEffectBlockIndex", str me.toNat),
        ("style", nameOf transitionStyles style.toNat)] : Attrs).lookup "style" =
          some (nameOf transitionStyles style.toNat) := by simp [List.lookup_cons]
    have hencode : eTransitionStyle [("mixEffectBlockIndex", str me.toNat),
        ("style", nameOf transitionStyles style.toNat)] =
          .ok [me, if (transitionStyles.lookup style.toNat).isSome then style else 0, 0, 0] := by
      simp only [eTransitionStyle, hlookup, Option.getD_some, intAttrOrZero_cons_self, ok_bind,
        lookup_nameOf hnames]
      split <;> simp
    constructor
    · rintro ⟨packed, hpacked, -, hback⟩
      by_contra hnone
      rw [hencode, if_neg hnone] at hpacked
      obtain rfl := Except.ok.inj hpacked
      simp only [dTransitionStyle, byteAt_cons_zero, byteAt_cons_succ, ok_bind, pure_ok,
        Except.ok.injEq, List.cons.injEq, Prod.mk.injEq, true_and, and_true] at hback
      exact nameOf_ne hnames (by decide) (Bool.eq_false_iff.mpr hnone) hback
    · intro hsome
      refine ⟨_, hencode, by simp, ?_⟩
      rw [if_pos hsome]
      simp [dTransitionStyle]
  · intro params text hread n hn
    obtain ⟨style, hstyle, -⟩ := unpackFrom_one.mp hn
    have hlt := byteAt_lt hstyle
    obtain ⟨me, hme⟩ : ∃ b, byteAt params 0 = .ok b := byteAt_of_lt (by omega)
    simp [dTransitionStyle, hme, hstyle] at hread

theorem keyType_keeps : Keeps (.named 1 2 uskTypeNames) dKeyType eKeyType := by
  have hnames := clearNames_tables uskTypeNames (by simp)
  constructor
  · intro params attrs hread
    simp only [dKeyType, bind_eq_ok, pure_eq_ok] at hread
    obtain ⟨me, -, keyer, -, type, htype, rfl⟩ := hread
    rw [named_met (unpackFrom_one.mpr ⟨type, htype, rfl⟩)]
    have hlookup : ([("mixEffectBlockIndex", str me.toNat), ("keyIndex", str keyer.toNat),
        ("type", nameOf uskTypeNames type.toNat)] : Attrs).lookup "type" =
          some (nameOf uskTypeNames type.toNat) := by simp [List.lookup_cons]
    have hencode : eKeyType [("mixEffectBlockIndex", str me.toNat),
        ("keyIndex", str keyer.toNat), ("type", nameOf uskTypeNames type.toNat)] =
          .ok [me, keyer, if (uskTypeNames.lookup type.toNat).isSome then type else 0, 0x03] := by
      simp only [eKeyType, hlookup, Option.getD_some, meKeyer_cons, ok_bind, lookup_nameOf hnames,
        List.cons_append, List.nil_append, bytesOf_toNat]
      split <;> simp <;> rfl
    constructor
    · rintro ⟨packed, hpacked, -, hback⟩
      by_contra hnone
      rw [hencode, if_neg hnone] at hpacked
      obtain rfl := Except.ok.inj hpacked
      simp only [dKeyType, byteAt_cons_zero, byteAt_cons_succ, ok_bind, pure_ok,
        Except.ok.injEq, List.cons.injEq, Prod.mk.injEq, true_and, and_true] at hback
      exact nameOf_ne hnames (by decide) (Bool.eq_false_iff.mpr hnone) hback
    · intro hsome
      refine ⟨_, hencode, by simp, ?_⟩
      rw [if_pos hsome]
      simp [dKeyType]
  · intro params text hread n hn
    obtain ⟨type, htype, -⟩ := unpackFrom_one.mp hn
    have hlt := byteAt_lt htype
    obtain ⟨me, hme⟩ : ∃ b, byteAt params 0 = .ok b := byteAt_of_lt (by omega)
    obtain ⟨keyer, hkeyer⟩ : ∃ b, byteAt params 1 = .ok b := byteAt_of_lt (by omega)
    simp [dKeyType, hme, hkeyer, htype] at hread

theorem fairlightStripMixType_keeps :
    Keeps (.named 2 12 mixTypeNames) dFairlightStripMixType eFairlightStripMixType := by
  have hnames := clearNames_tables mixTypeNames (by simp)
  constructor
  · intro params attrs hread
    simp only [dFairlightStripMixType, bind_eq_ok, pure_eq_ok] at hread
    obtain ⟨source, hsource, sid, hsid, state, hstate, rfl⟩ := hread
    rw [named_met hstate]
    obtain ⟨src, hsrc, hresolve, hsame⟩ := resolveSymbolToSource_resolve (u16le_lt hsource)
    have hsid := u64le_lt hsid
    -- what a state is packed as is a number of 16 bits again
    have hencode : eFairlightStripMixType [("input", resolveSourceToSymbol source),
        ("sourceId", str sid), ("mixType", nameOf mixTypeNames state)] =
          .ok (stripPrefix src fairlightStripMarker sid ++
            (leBytes 2 (if (mixTypeNames.lookup state).isSome then state else 2) ++
              u16leBytes fairlightMixTypeTrailingMarker)) := by
      have hlt := u16le_lt hstate
      have hpack : packU16 (if (mixTypeNames.lookup state).isSome then (state : ℤ) else 2) =
          .ok (leBytes 2 (if (mixTypeNames.lookup state).isSome then state else 2)) := by
        split
        · exact packU16_natCast hlt
        · rfl
      simp [eFairlightStripMixType, stripPrefixEncode_str hresolve hsid, lookup_nameOf hnames,
        hpack]
    have hdecode : ∀ n < 0x10000, dFairlightStripMixType
        (stripPrefix src fairlightStripMarker sid ++
          (leBytes 2 n ++ u16leBytes fairlightMixTypeTrailingMarker)) =
          .ok [("input", resolveSourceToSymbol source), ("sourceId", str sid),
            ("mixType", nameOf mixTypeNames n)] := by
      intro n hn
      have hread : u16le (stripPrefix src fairlightStripMarker sid ++
          (leBytes 2 n ++ u16leBytes fairlightMixTypeTrailingMarker)) 12 = .ok n :=
        stripPrefix_unpackFrom (i := 0) (unpackFrom_leBytes [] _ hn)
      simp only [dFairlightStripMixType, stripPrefix_source hsrc, stripPrefix_sourceId hsid, hread,
        ok_bind, hsame, pure_ok]
    constructor
    · rintro ⟨packed, hpacked, -, hback⟩
      by_contra hnone
      rw [hencode, if_neg hnone] at hpacked
      obtain rfl := Except.ok.inj hpacked
      rw [hdecode 2 (by decide)] at hback
      simp only [Except.ok.injEq, List.cons.injEq, Prod.mk.injEq, true_and, and_true] at hback
      exact nameOf_ne hnames (by decide) (Bool.eq_false_iff.mpr hnone) hback
    · intro hsome
      refine ⟨_, hencode, by simp, ?_⟩
      rw [if_pos hsome]
      exact hdecode state (u16le_lt hstate)
  · intro params text hread n hn
    have hlen := length_of_unpackFrom (by decide) hn
    obtain ⟨source, hsource⟩ : ∃ n, u16le params 0 = .ok n := unpackFrom_of_le (by omega)
    obtain ⟨sid, hsid⟩ : ∃ n, u64le params 4 = .ok n := unpackFrom_of_le (by omega)
    have hn : u16le params 12 = .ok n := hn
    simp [dFairlightStripMixType, hsource, hsid, hn] at hread

/-! ## Scalars -/

/-- A layout with a scalar: what stands around it comes back, and its text alone tells two ops
of the layout apart. -/
structure ScalarLayout (signed : Bool) (offset : ℕ) (decode : Decoder) (encode : Encoder) :
    Prop where
  small : offset ≤ 16
  reads : ∀ params n, int32le signed params offset = .ok n → ∃ attrs, decode params = .ok attrs
  comesBack : ∀ params attrs, decode params = .ok attrs →
    ∃ (n : ℤ) (around : String → Attrs) (head : Bytes) (pack : ℤ → Except EncodeError Bytes),
      int32le signed params offset = .ok n ∧ attrs = around (fixedStr n) ∧
      Function.Injective around ∧ head.length = offset ∧ Packs signed pack ∧
      (∀ text, encode (around text) = (toFixed text >>= pack).map (head ++ ·)) ∧
      ∀ payload v, int32le signed (head ++ payload) offset = .ok v →
        decode (head ++ payload) = .ok (around (fixedStr v))

theorem ScalarLayout.keeps {signed : Bool} {offset : ℕ} {decode : Decoder} {encode : Encoder}
    (h : ScalarLayout signed offset decode encode) :
    Keeps (.scalar signed offset) decode encode := by
  constructor
  · intro params attrs hread
    obtain ⟨n, around, head, pack, hn, rfl, hinj, hlen, hpacks, hencode, hdecode⟩ :=
      h.comesBack params attrs hread
    have hrange := inRange_of_int32le hn
    have hsmall := h.small
    have hencoded : encode (around (fixedStr n)) = (pack (refixed n)).map (head ++ ·) := by
      rw [hencode, toFixed_fixedStr hrange.abs_bound, ok_bind]
    constructor
    · rintro ⟨packed, hpacked, -, hback⟩ m hm
      obtain rfl := Except.ok.inj (hn.symm.trans hm)
      by_contra hlimit
      rw [not_lt] at hlimit
      rw [hencoded, map_eq_ok] at hpacked
      obtain ⟨payload, hpayload, rfl⟩ := hpacked
      obtain ⟨rfl, rfl⟩ := hrange.pack_end hlimit ((hpacks _ _).mp hpayload)
      -- the packed scalar has wrapped to zero, and zero is not its text
      have hzero : int32le false (head ++ leBytes 4 0) offset = .ok 0 := by
        have hread := @InRange.readBack false 0 ⟨by decide, by decide⟩ head
        rwa [hlen] at hread
      rw [hdecode _ _ hzero] at hback
      have htext := hinj (Except.ok.inj hback)
      have hne : n ≠ 0 := by
        rintro rfl
        exact absurd hlimit (by decide)
      exact fixedStr_ne_zero hne hrange.abs_bound htext.symm
    · intro hmet
      have hagain := hrange.comesBack (hmet n hn)
      refine ⟨head ++ leBytes 4 (refixed n % 0x100000000).toNat, ?_, ?_, ?_⟩
      · rw [hencoded, (hpacks _ _).mpr hagain.pack, map_ok]
      · rw [List.length_append, length_leBytes]
        omega
      · have hback := hagain.readBack head
        rw [hlen] at hback
        rw [hdecode _ _ hback, fixedStr_refixed hrange.abs_bound]
  · intro params text hread n hn
    obtain ⟨attrs, hattrs⟩ := h.reads params n hn
    rw [hread] at hattrs
    cases hattrs

theorem length_of_int32le {signed : Bool} {params : Bytes} {offset : ℕ} {n : ℤ}
    (h : int32le signed params offset = .ok n) : offset + 4 ≤ params.length := by
  cases signed with
  | false =>
    obtain ⟨m, hm, -⟩ := map_eq_ok.mp h
    exact length_of_unpackFrom (by decide) hm
  | true =>
    obtain ⟨m, hm, -⟩ := map_eq_ok.mp h
    exact length_of_unpackFrom (by decide) hm

section

variable {name : String} {signed : Bool}

theorem meKeyerMarkerFp_scalar (hme : name ≠ "mixEffectBlockIndex") (hkey : name ≠ "keyIndex")
    (marker : ℤ) :
    ScalarLayout signed 4 (dMeKeyerMarkerFp signed name) (eMeKeyerMarkerFp signed name marker) where
  small := by decide
  reads params n hn := by
    have hlen := length_of_int32le hn
    obtain ⟨me, hme⟩ : ∃ b, byteAt params 0 = .ok b := byteAt_of_lt (by omega)
    obtain ⟨keyer, hkeyer⟩ : ∃ b, byteAt params 1 = .ok b := byteAt_of_lt (by omega)
    exact ⟨_, by simp only [dMeKeyerMarkerFp, hn, hme, hkeyer, ok_bind]; rfl⟩
  comesBack params attrs hread := by
    simp only [dMeKeyerMarkerFp, bind_eq_ok, pure_eq_ok] at hread
    obtain ⟨n, hn, me, -, keyer, -, rfl⟩ := hread
    refine ⟨n, fun text => [("mixEffectBlockIndex", str me.toNat), ("keyIndex", str keyer.toNat),
      (name, text)], me :: keyer :: u16leBytes marker, int32leBytes signed, hn, rfl, ?_, by simp,
      packs_int32leBytes signed, ?_, ?_⟩
    · intro text text' heq
      simpa using heq
    · intro text
      simp only [eMeKeyerMarkerFp, meByte_cons, keyerByte_cons, attr_cons_ne hme,
        attr_cons_ne hkey, attr_cons_self, ok_bind]
      cases toFixed text <;> rfl
    · intro payload v hv
      simp only [List.cons_append] at hv ⊢
      simp only [dMeKeyerMarkerFp, hv, ok_bind, byteAt_cons_zero, byteAt_cons_succ, pure_ok]

theorem meDoubleMarkerFp_scalar (hme : name ≠ "mixEffectBlockIndex") (family : UInt8)
    (marker : ℤ) :
    ScalarLayout signed 4 (dMeDoubleMarkerFp signed name)
      (eMeDoubleMarkerFp signed name family marker) where
  small := by decide
  reads params n hn := by
    have hlen := length_of_int32le hn
    obtain ⟨me, hme⟩ : ∃ b, byteAt params 0 = .ok b := byteAt_of_lt (by omega)
    exact ⟨_, by simp only [dMeDoubleMarkerFp, hn, hme, ok_bind]; rfl⟩
  comesBack params attrs hread := by
    simp only [dMeDoubleMarkerFp, bind_eq_ok, pure_eq_ok] at hread
    obtain ⟨n, hn, me, -, rfl⟩ := hread
    refine ⟨n, fun text => [("mixEffectBlockIndex", str me.toNat), (name, text)],
      me :: family :: u16leBytes marker, int32leBytes signed, hn, rfl, ?_, by simp,
      packs_int32leBytes signed, ?_, ?_⟩
    · intro text text' heq
      simpa using heq
    · intro text
      simp only [eMeDoubleMarkerFp, meByte_cons, attr_cons_ne hme, attr_cons_self, ok_bind]
      cases toFixed text <;> rfl
    · intro payload v hv
      simp only [List.cons_append] at hv ⊢
      simp only [dMeDoubleMarkerFp, hv, ok_bind, byteAt_cons_zero, pure_ok]

theorem genMarkerFp_scalar (hgen : name ≠ "colorGeneratorIndex") (marker : ℤ) :
    ScalarLayout signed 4 (dGenMarkerFp signed name) (eGenMarkerFp signed name marker) where
  small := by decide
  reads params n hn := by
    have hlen := length_of_int32le hn
    obtain ⟨gen, hgen⟩ : ∃ b, byteAt params 0 = .ok b := byteAt_of_lt (by omega)
    exact ⟨_, by simp only [dGenMarkerFp, hn, hgen, ok_bind]; rfl⟩
  comesBack params attrs hread := by
    simp only [dGenMarkerFp, bind_eq_ok, pure_eq_ok] at hread
    obtain ⟨n, hn, gen, -, rfl⟩ := hread
    refine ⟨n, fun text => [("colorGeneratorIndex", str gen.toNat), (name, text)],
      gen :: 0 :: u16leBytes marker, int32leBytes signed, hn, rfl, ?_, by simp,
      packs_int32leBytes signed, ?_, ?_⟩
    · intro text text' heq
      simpa using heq
    · intro text
      simp only [eGenMarkerFp, intAttrOrZero_cons_self, lowByte_toNat, attr_cons_ne hgen,
        attr_cons_self, ok_bind]
      cases toFixed text <;> rfl
    · intro payload v hv
      simp only [List.cons_append] at hv ⊢
      simp only [dGenMarkerFp, hv, ok_bind, byteAt_cons_zero, pure_ok]

theorem keyFixed_scalar (hme : name ≠ "mixEffectBlockIndex") (hkey : name ≠ "keyIndex")
    (marker : ℤ) :
    ScalarLayout signed 4 (dKeyFixed signed name) (eKeyFixed signed name marker) where
  small := by decide
  reads params n hn := by
    have hlen := length_of_int32le hn
    obtain ⟨me, hme⟩ : ∃ b, byteAt params 0 = .ok b := byteAt_of_lt (by omega)
    obtain ⟨keyer, hkeyer⟩ : ∃ b, byteAt params 1 = .ok b := byteAt_of_lt (by omega)
    exact ⟨_, by simp only [dKeyFixed, hn, hme, hkeyer, ok_bind]; rfl⟩
  comesBack params attrs hread := by
    simp only [dKeyFixed, bind_eq_ok, pure_eq_ok] at hread
    obtain ⟨me, -, keyer, -, n, hn, rfl⟩ := hread
    refine ⟨n, fun text => [("mixEffectBlockIndex", str me.toNat), ("keyIndex", str keyer.toNat),
      (name, text)], me :: keyer :: u16leBytes marker, int32leBytes signed, hn, rfl, ?_, by simp,
      packs_int32leBytes signed, ?_, ?_⟩
    · intro text text' heq
      simpa using heq
    · intro text
      simp only [eKeyFixed, meKeyer_cons, bytesOf_toNat, bytesOf_nil, map_ok, packFixedValue,
        attr_cons_ne hme, attr_cons_ne hkey, attr_cons_self, ok_bind]
      cases toFixed text <;> rfl
    · intro payload v hv
      simp only [List.cons_append] at hv ⊢
      simp only [dKeyFixed, hv, ok_bind, byteAt_cons_zero, byteAt_cons_succ, pure_ok]

theorem dskFixed_scalar (hkey : name ≠ "keyIndex") :
    ScalarLayout false 4 (dDskFixed name) (eDskFixed name) where
  small := by decide
  reads params n hn := by
    have hlen := length_of_int32le hn
    obtain ⟨key, hkey⟩ : ∃ b, byteAt params 0 = .ok b := byteAt_of_lt (by omega)
    exact ⟨_, by simp only [dDskFixed, hn, hkey, ok_bind]; rfl⟩
  comesBack params attrs hread := by
    simp only [dDskFixed, bind_eq_ok, pure_eq_ok] at hread
    obtain ⟨key, -, n, hn, rfl⟩ := hread
    refine ⟨n, fun text => [("keyIndex", str key.toNat), (name, text)],
      key :: 0 :: u16leBytes dskMarker, int32leBytes false, hn, rfl, ?_, by simp,
      packs_int32leBytes false, ?_, ?_⟩
    · intro text text' heq
      simpa using heq
    · intro text
      simp only [eDskFixed, dskHead, intAttr_cons_self, bytesOf_toNat, bytesOf_zero, bytesOf_nil,
        map_ok, packFixedValue, attr_cons_ne hkey, attr_cons_self, ok_bind]
      cases toFixed text <;> rfl
    · intro payload v hv
      simp only [List.cons_append] at hv ⊢
      simp only [dDskFixed, hv, ok_bind, byteAt_cons_zero, pure_ok]

end

/-! ## Scalars of audio strips -/

theorem stripPrefixDecode_of_le {params : Bytes} (h : 12 ≤ params.length) :
    ∃ p, stripPrefixDecode params = .ok p := by
  obtain ⟨source, hsource⟩ : ∃ n, u16le params 0 = .ok n := unpackFrom_of_le (by omega)
  obtain ⟨_, hmarker⟩ : ∃ n, u16le params 2 = .ok n := unpackFrom_of_le (by omega)
  obtain ⟨sid, hsid⟩ : ∃ n, u64le params 4 = .ok n := unpackFrom_of_le (by omega)
  exact ⟨(source, sid), by simp [stripPrefixDecode, hsource, hmarker, hsid]⟩

section

variable {name : String} {signed : Bool}

theorem stripValueFp_scalar (hinput : name ≠ "input") (hid : name ≠ "sourceId") (marker : ℤ) :
    ScalarLayout signed 12 (dStripValueFp signed name) (eStripValueFp signed marker name) where
  small := by decide
  reads params n hn := by
    have hlen := length_of_int32le hn
    obtain ⟨⟨source, sid⟩, hhead⟩ := @stripPrefixDecode_of_le params (by omega)
    exact ⟨_, by simp only [dStripValueFp, hn, hhead, ok_bind]; rfl⟩
  comesBack params attrs hread := by
    simp only [dStripValueFp, bind_eq_ok, pure_eq_ok] at hread
    obtain ⟨⟨source, sid⟩, hhead, n, hn, rfl⟩ := hread
    obtain ⟨src, hsrc, hsid, hresolve, hsame⟩ := stripPrefixDecode_comesBack hhead
    refine ⟨n, fun text => [("input", resolveSourceToSymbol source), ("sourceId", str sid),
      (name, text)], stripPrefix src marker sid, int32leBytes signed, hn, rfl, ?_, by simp,
      packs_int32leBytes signed, ?_, ?_⟩
    · intro text text' heq
      simpa using heq
    · intro text
      simp only [eStripValueFp, attr_cons_ne hinput, attr_cons_ne hid, attr_cons_self, ok_bind,
        stripPrefixEncode_str hresolve hsid]
      cases toFixed text <;> rfl
    · intro payload v hv
      simp only [dStripValueFp, stripPrefixDecode_prefix hsrc hsid, hv, ok_bind, hsame, pure_ok]

theorem fairlightStripFaderGain_scalar :
    ScalarLayout true 12 dFairlightStripFaderGain eFairlightStripFaderGain where
  small := by decide
  reads params n hn := by
    have hlen := length_of_int32le hn
    have hn : i32le params 12 = .ok n := hn
    obtain ⟨source, hsource⟩ : ∃ n, u16le params 0 = .ok n := unpackFrom_of_le (by omega)
    obtain ⟨sid, hsid⟩ : ∃ n, u64le params 4 = .ok n := unpackFrom_of_le (by omega)
    exact ⟨_, by simp only [dFairlightStripFaderGain, hsource, hsid, hn, ok_bind]; rfl⟩
  comesBack params attrs hread := by
    simp only [dFairlightStripFaderGain, bind_eq_ok, pure_eq_ok] at hread
    obtain ⟨source, hsource, sid, hsid, n, hn, rfl⟩ := hread
    obtain ⟨src, hsrc, hresolve, hsame⟩ := resolveSymbolToSource_resolve (u16le_lt hsource)
    have hsid := u64le_lt hsid
    refine ⟨n, fun text => [("input", resolveSourceToSymbol source), ("sourceId", str sid),
      ("gain", text)], stripPrefix src fairlightStripMarker sid, packI32, hn, rfl, ?_, by simp,
      packs_packI32, ?_, ?_⟩
    · intro text text' heq
      simpa using heq
    · intro text
      simp only [eFairlightStripFaderGain, attr_cons_ne (by decide : "gain" ≠ "input"),
        attr_cons_ne (by decide : "gain" ≠ "sourceId"), attr_cons_self, ok_bind,
        stripPrefixEncode_str hresolve hsid]
      cases toFixed text <;> rfl
    · intro payload v hv
      have hv : i32le (stripPrefix src fairlightStripMarker sid ++ payload) 12 = .ok v := hv
      simp only [dFairlightStripFaderGain, stripPrefix_source hsrc, stripPrefix_sourceId hsid, hv,
        ok_bind, hsame, pure_ok]

theorem eqBandFixed_scalar (hname : name ∉ ["input", "sourceId", "band"]) :
    ScalarLayout true 16 (dEqBandFixed name) (eEqBandFixed name) where
  small := by decide
  reads params n hn := by
    have hlen := length_of_int32le hn
    have hn : i32le params 16 = .ok n := hn
    obtain ⟨⟨source, sid⟩, hhead⟩ := @stripPrefixDecode_of_le params (by omega)
    obtain ⟨band, hband⟩ : ∃ b, byteAt params 12 = .ok b := byteAt_of_lt (by omega)
    exact ⟨_, by simp only [dEqBandFixed, hn, hhead, hband, ok_bind]; rfl⟩
  comesBack params attrs hread := by
    simp only [List.mem_cons, List.not_mem_nil, or_false, not_or] at hname
    simp only [dEqBandFixed, bind_eq_ok, pure_eq_ok] at hread
    obtain ⟨⟨source, sid⟩, hhead, n, hn, band, -, rfl⟩ := hread
    obtain ⟨src, hsrc, hsid, hresolve, hsame⟩ := stripPrefixDecode_comesBack hhead
    refine ⟨n, fun text => [("input", resolveSourceToSymbol source), ("sourceId", str sid),
      ("band", str band.toNat), (name, text)],
      stripPrefix src fairlightFam03E1 sid ++ band :: 0xAC :: u16leBytes 0x000C, i32leBytes, hn,
      rfl, ?_, by simp, packs_int32leBytes true, ?_, ?_⟩
    · intro text text' heq
      simpa using heq
    · intro text
      simp only [eEqBandFixed, attr_cons_ne hname.1, attr_cons_ne hname.2.1,
        attr_cons_ne hname.2.2, attr_cons_self, intAttr_cons_self, lowByte_toNat,
        intAttr_cons_ne (by decide : "band" ≠ "input"),
        intAttr_cons_ne (by decide : "band" ≠ "sourceId"), ok_bind,
        stripPrefixEncode_str hresolve hsid]
      cases toFixed text with
      | error e => rfl
      | ok v => cases hpack : i32leBytes v <;> simp [hpack, Except.map, bind, Except.bind]
    · intro payload v hv
      rw [List.append_assoc] at hv ⊢
      have hv : i32le (stripPrefix src fairlightFam03E1 sid ++
        (band :: 0xAC :: u16leBytes 0x000C ++ payload)) 16 = .ok v := hv
      have hband := @stripPrefix_byteAt src sid fairlightFam03E1
        (band :: 0xAC :: u16leBytes 0x000C ++ payload) 0
      simp only [Nat.add_zero, List.cons_append, byteAt_cons_zero] at hband
      simp only [List.cons_append] at hv ⊢
      simp only [dEqBandFixed, stripPrefixDecode_prefix hsrc hsid, hv, hband, ok_bind, hsame,
        pure_ok]

end

/-- The headphone gains, and the master fader, which packs as `struct` does. -/
theorem hpGain_scalar {pack : ℤ → Except EncodeError Bytes} (hpacks : Packs true pack) :
    ScalarLayout true 0 dHpGain (fun attrs => do pack (← toFixed (← attr attrs "gain"))) where
  small := by decide
  reads params n hn := by
    have hn : i32le params 0 = .ok n := hn
    exact ⟨_, by simp only [dHpGain, hn, ok_bind]; rfl⟩
  comesBack params attrs hread := by
    simp only [dHpGain, bind_eq_ok, pure_eq_ok] at hread
    obtain ⟨n, hn, rfl⟩ := hread
    refine ⟨n, fun text => [("gain", text)], [], pack, hn, rfl, ?_, rfl, hpacks, ?_, ?_⟩
    · intro text text' heq
      simpa using heq
    · intro text
      simp only [attr_cons_self, ok_bind]
      cases toFixed text with
      | error e => rfl
      | ok v => cases hpack : pack v <;> simp [hpack, Except.map]
    · intro payload v hv
      have hv : i32le payload 0 = .ok v := hv
      simp only [List.nil_append, dHpGain, hv, ok_bind, pure_ok]

end Bmdwire.Macros
