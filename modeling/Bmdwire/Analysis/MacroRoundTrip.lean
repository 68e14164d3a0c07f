import Bmdwire.Analysis.MacroLimits

/-!
# The round trip of macro bytecode

Bytecode whose ops are all whole is decoded, encoded and decoded again. Each op of the table
has its `limitOf` parameters; the ops come back as they were exactly when all meet it, and an
op that is decoded as unknown is encoded to its octets in any case (`roundTrip_iff`).
-/

set_option autoImplicit false
set_option maxRecDepth 4000

namespace Bmdwire.Macros

open Library

/-! ## The table -/

/-- The ops that come back only below a limit. -/
def opLimits : List (Limit × List ℕ) :=
  [(.named 1 1 transitionStyles, [0x0083]),
   (.named 1 2 uskTypeNames, [0x0028]),
   (.named 2 12 mixTypeNames, [0x014A]),
   (.scalar false 4, [0x0029, 0x002A, 0x0047, 0x0048, 0x009C, 0x009D]),
   (.scalar true 0, [0x016B, 0x0184, 0x0185, 0x0186, 0x0187]),
   (.scalar true 12,
    [0x014B, 0x014D, 0x0147, 0x0156, 0x0159, 0x015A, 0x015B, 0x015C, 0x015D, 0x015E, 0x0160,
     0x0161, 0x0162, 0x0163, 0x0164, 0x0166, 0x0167, 0x0168, 0x0169]),
   (.scalar true 16, [0x0152, 0x0153]),
   (.scalar true 4,
    [0x0036, 0x0037, 0x0038, 0x0039, 0x004A, 0x004B, 0x007E, 0x007F, 0x0015, 0x0016, 0x0092,
     0x0093, 0x001C, 0x001D, 0x001E, 0x0030, 0x0031, 0x0032, 0x0033, 0x005A, 0x005B, 0x005C,
     0x005E, 0x005F, 0x0058, 0x012C, 0x012D, 0x012E, 0x012F, 0x0130, 0x0131, 0x0132, 0x0133,
     0x0134, 0x0135, 0x0136, 0x0139, 0x013A, 0x013B])]

/-- The limit of an op, known or not. -/
def limitOf (code : ℕ) : Limit :=
  ((opLimits.find? fun p => code ∈ p.2).map Prod.fst).getD .free

/-- Every row of the table keeps its limit. -/
theorem knownOps_keep : knownOps.Forall fun row => Keeps (limitOf row.code) row.decode row.encode :=
  ⟨busInput_faithful.keeps, busInput_faithful.keeps, meOnly_faithful.keeps,
   meOnly_faithful.keeps, videoMode_faithful.keeps, ftbEnabled_faithful.keeps,
   meOnly_faithful.keeps, transitionStyle_keeps, transitionSource_faithful.keeps,
   macroSleep_faithful.keeps, auxiliaryInput_faithful.keeps, keySource_faithful.keeps,
   keySource_faithful.keeps, keyOnAir_faithful.keeps, keyType_keeps,
   (keyFixed_scalar (by decide) (by decide) _).keeps,
   (keyFixed_scalar (by decide) (by decide) _).keeps,
   (keyBool_faithful (by decide) (by decide) _).keeps,
   (keyBool_faithful (by decide) (by decide) _).keeps,
   (keyBool_faithful (by decide) (by decide) _).keeps,
   (keyBool_faithful (by decide) (by decide) _).keeps,
   (keyBool_faithful (by decide) (by decide) _).keeps,
   (keyFixed_scalar (by decide) (by decide) _).keeps,
   (keyFixed_scalar (by decide) (by decide) _).keeps,
   (keyFixed_scalar (by decide) (by decide) _).keeps,
   (keyFixed_scalar (by decide) (by decide) _).keeps,
   (keyFixed_scalar (by decide) (by decide) _).keeps,
   (keyFixed_scalar (by decide) (by decide) _).keeps,
   (keyFixed_scalar (by decide) (by decide) _).keeps,
   (keyFixed_scalar (by decide) (by decide) _).keeps, dskSource_faithful.keeps,
   dskSource_faithful.keeps, dskRate_faithful.keeps, dskAuto_faithful.keeps,
   (dskBareBool_faithful (by decide)).keeps, (dskBareBool_faithful (by decide)).keeps,
   (dskFixed_scalar (by decide)).keeps, (dskFixed_scalar (by decide)).keeps,
   (dskBool_faithful (by decide) _).keeps, (dskBool_faithful (by decide) _).keeps,
   mediaPlayerStillIndex_faithful.keeps, mediaPlayerStillOnly_faithful.keeps,
   fairlightStripMixType_keeps, fairlightStripFaderGain_scalar.keeps,
   (hpGain_scalar packs_packI32).keeps, (meMarkerU16_faithful (by decide) _).keeps,
   (meMarkerU16_faithful (by decide) _).keeps, (meMarkerSource_faithful (by decide) _).keeps,
   (meMarkerU16_faithful (by decide) _).keeps, transitionWipePattern_faithful.keeps,
   (meDoubleMarkerFp_scalar (by decide) _ _).keeps,
   (meDoubleMarkerFp_scalar (by decide) _ _).keeps,
   (meMarkerSource_faithful (by decide) _).keeps,
   (meValueMarkerBool_faithful (by decide) _).keeps,
   (meValueMarkerBool_faithful (by decide) _).keeps,
   (meDoubleMarkerFp_scalar (by decide) _ _).keeps,
   (meDoubleMarkerFp_scalar (by decide) _ _).keeps, (meMarkerU16_faithful (by decide) _).keeps,
   transitionDvePattern_faithful.keeps, (meMarkerSource_faithful (by decide) _).keeps,
   (meMarkerSource_faithful (by decide) _).keeps,
   (meValueMarkerBool_faithful (by decide) _).keeps, (meMarkerU16_faithful (by decide) _).keeps,
   (meMarkerU16_faithful (by decide) _).keeps, (meMarkerU16_faithful (by decide) _).keeps,
   (meMarkerU16_faithful (by decide) _).keeps, (meMarkerU16_faithful (by decide) _).keeps,
   (meDoubleMarkerFp_scalar (by decide) _ _).keeps,
   (meDoubleMarkerFp_scalar (by decide) _ _).keeps,
   (meValueMarkerBool_faithful (by decide) _).keeps,
   (meValueMarkerBool_faithful (by decide) _).keeps, (genMarkerFp_scalar (by decide) _).keeps,
   (genMarkerFp_scalar (by decide) _).keeps, (genMarkerFp_scalar (by decide) _).keeps,
   (meMarkerU16_faithful (by decide) _).keeps,
   (meKeyerMarkerFp_scalar (by decide) (by decide) _).keeps,
   (meKeyerMarkerFp_scalar (by decide) (by decide) _).keeps,
   (meKeyerMarkerFp_scalar (by decide) (by decide) _).keeps,
   (meKeyerMarkerFp_scalar (by decide) (by decide) _).keeps,
   (meKeyerU16_faithful (by decide) (by decide)).keeps,
   (meKeyerBool_faithful (by decide) (by decide) _).keeps,
   (meKeyerMarkerFp_scalar (by decide) (by decide) _).keeps,
   (meKeyerMarkerFp_scalar (by decide) (by decide) _).keeps,
   (meKeyerMarkerFp_scalar (by decide) (by decide) _).keeps,
   (meKeyerMarkerFp_scalar (by decide) (by decide) _).keeps,
   (meKeyerMarkerFp_scalar (by decide) (by decide) _).keeps,
   (meKeyerU16_faithful (by decide) (by decide)).keeps,
   (meKeyerU16_faithful (by decide) (by decide)).keeps,
   (meKeyerU16_faithful (by decide) (by decide)).keeps,
   (meKeyerBool_faithful (by decide) (by decide) _).keeps,
   (meKeyerMarkerFp_scalar (by decide) (by decide) _).keeps,
   (meKeyerU16_faithful (by decide) (by decide)).keeps,
   (meKeyerMarkerFp_scalar (by decide) (by decide) _).keeps,
   (meKeyerMarkerFp_scalar (by decide) (by decide) _).keeps,
   (meKeyerMarkerFp_scalar (by decide) (by decide) _).keeps,
   (meKeyerMarkerFp_scalar (by decide) (by decide) _).keeps,
   (meKeyerMarkerFp_scalar (by decide) (by decide) _).keeps,
   (meKeyerMarkerFp_scalar (by decide) (by decide) _).keeps,
   (meKeyerMarkerFp_scalar (by decide) (by decide) _).keeps,
   (meKeyerMarkerFp_scalar (by decide) (by decide) _).keeps,
   (meKeyerMarkerFp_scalar (by decide) (by decide) _).keeps,
   (meKeyerMarkerFp_scalar (by decide) (by decide) _).keeps,
   (meKeyerMarkerFp_scalar (by decide) (by decide) _).keeps,
   (meKeyerBool_faithful (by decide) (by decide) _).keeps,
   (meKeyerBool_faithful (by decide) (by decide) _).keeps,
   (meKeyerMarkerFp_scalar (by decide) (by decide) _).keeps,
   (meKeyerMarkerFp_scalar (by decide) (by decide) _).keeps,
   (meKeyerMarkerFp_scalar (by decide) (by decide) _).keeps,
   (meKeyerU16_faithful (by decide) (by decide)).keeps, flykeyRunToFull_faithful.keeps,
   (meKeyerU16_faithful (by decide) (by decide)).keeps, flykeyRunToInfinity_faithful.keeps,
   (stripValueFp_scalar (by decide) (by decide) _).keeps, eqBandEnabled_faithful.keeps,
   (eqBandName_faithful (by decide) (clearNames_tables _ (by simp))).keeps,
   (eqBandName_faithful (by decide) (clearNames_tables _ (by simp))).keeps,
   eqBandFrequency_faithful.keeps,
   (eqBandFixed_scalar (by decide)).keeps, (eqBandFixed_scalar (by decide)).keeps,
   (stripValueFp_scalar (by decide) (by decide) _).keeps,
   (stripValueFp_scalar (by decide) (by decide) _).keeps, (stripEnable_faithful _ _ _).keeps,
   (stripEnable_faithful _ _ _).keeps, (stripValueFp_scalar (by decide) (by decide) _).keeps,
   (stripValueFp_scalar (by decide) (by decide) _).keeps,
   (stripValueFp_scalar (by decide) (by decide) _).keeps,
   (stripValueFp_scalar (by decide) (by decide) _).keeps,
   (stripValueFp_scalar (by decide) (by decide) _).keeps,
   (stripValueFp_scalar (by decide) (by decide) _).keeps, (stripEnable_faithful _ _ _).keeps,
   (stripValueFp_scalar (by decide) (by decide) _).keeps,
   (stripValueFp_scalar (by decide) (by decide) _).keeps,
   (stripValueFp_scalar (by decide) (by decide) _).keeps,
   (stripValueFp_scalar (by decide) (by decide) _).keeps,
   (stripValueFp_scalar (by decide) (by decide) _).keeps, (stripEnable_faithful _ _ _).keeps,
   (stripValueFp_scalar (by decide) (by decide) _).keeps,
   (stripValueFp_scalar (by decide) (by decide) _).keeps,
   (stripValueFp_scalar (by decide) (by decide) _).keeps,
   (stripValueFp_scalar (by decide) (by decide) _).keeps,
   (hpGain_scalar (packs_int32leBytes true)).keeps,
   (hpGain_scalar (packs_int32leBytes true)).keeps,
   (hpGain_scalar (packs_int32leBytes true)).keeps,
   (hpGain_scalar (packs_int32leBytes true)).keeps, hdNetworkAddress_faithful.keeps,
   hdInput_faithful.keeps⟩

theorem keeps_of_mem {row : KnownOp} (h : row ∈ knownOps) :
    Keeps (limitOf row.code) row.decode row.encode :=
  List.forall_iff_forall_mem.mp knownOps_keep row h

/-- An op that is not in the table has no limit. -/
theorem limitOf_unknown {code : ℕ} (h : knownOps.find? (·.code = code) = none) (params : Bytes) :
    (limitOf code).Met params := by
  have hcodes : ∀ p ∈ opLimits, ∀ c ∈ p.2, (knownOps.find? (·.code = c)).isSome = true := by
    decide
  unfold limitOf
  cases hlimit : opLimits.find? fun p => code ∈ p.2 with
  | none => trivial
  | some p =>
    have hmem := List.find?_some hlimit
    have hsome := hcodes p (List.mem_of_find?_eq_some hlimit) code (of_decide_eq_true hmem)
    rw [h] at hsome
    cases hsome

/-! ## Ids -/

/-- A number that tells short texts apart. -/
def textCode (s : String) : ℕ :=
  s.toByteArray.data.toList.foldl (fun acc b => 256 * acc + b.toNat) 0

theorem ids_nodup : (knownOps.map KnownOp.id).Nodup := by
  have hcodes : ((knownOps.map KnownOp.id).map textCode).Nodup := by decide
  exact hcodes.of_map textCode

/-- Among distinct keys a member is what is looked up. -/
theorem lookup_of_nodup {α β : Type} [DecidableEq α] {l : List (α × β)} {a : α} {b : β}
    (hnodup : (l.map Prod.fst).Nodup) (hmem : (a, b) ∈ l) : l.lookup a = some b := by
  induction l with
  | nil => cases hmem
  | cons p l ih =>
    rw [List.map_cons, List.nodup_cons] at hnodup
    rw [List.lookup_cons]
    rcases List.mem_cons.mp hmem with rfl | hmem
    · simp
    · have hne : a ≠ p.1 := by
        rintro rfl
        exact hnodup.1 (List.mem_map.mpr ⟨_, hmem, rfl⟩)
      rw [beq_eq_false_iff_ne.mpr hne]
      exact ih hnodup.2 hmem

theorem encodeById_lookup {row : KnownOp} (h : row ∈ knownOps) :
    encodeById.lookup row.id = some (row.code, row.encode) := by
  apply lookup_of_nodup
  · rw [encodeById, List.map_map]
    exact ids_nodup
  · exact List.mem_map.mpr ⟨row, h, rfl⟩

theorem afterPrefix_eq_some {start s rest : List Char} :
    afterPrefix start s = some rest ↔ s = start ++ rest := by
  unfold afterPrefix
  split
  · rename_i hstart
    obtain ⟨tail, rfl⟩ := List.isPrefixOf_iff_prefix.mp hstart
    simp
  · rename_i hstart
    constructor
    · intro h
      cases h
    · rintro rfl
      exact absurd (List.isPrefixOf_iff_prefix.mpr (List.prefix_append ..)) hstart

/-- No id of the table looks like that of an unknown op. -/
theorem known_not_unknown {row : KnownOp} (h : row ∈ knownOps) :
    afterPrefix "Unknown_0x".toList row.id.toList = none := by
  have hfirst : ∀ row ∈ knownOps, row.id.toByteArray.data.toList.head? ≠ some 85 := by
    decide
  cases hafter : afterPrefix "Unknown_0x".toList row.id.toList with
  | none => rfl
  | some rest =>
    have hchars := afterPrefix_eq_some.mp hafter
    have hid : row.id = "Unknown_0x" ++ String.ofList rest := by
      rw [← String.toList_inj, String.toList_append, @String.toList_ofList rest, hchars]
    have hhead : row.id.toByteArray.data.toList.head? = some 85 := by
      rw [hid, String.toByteArray_append, ByteArray.data_append, Array.toList_append]
      rfl
    exact absurd hhead (hfirst row h)

theorem unknown_afterPrefix (opType : ℕ) :
    afterPrefix "Unknown_0x".toList (unknownId opType).toList = some (padded 16 4 opType) := by
  rw [afterPrefix_eq_some, unknownId, String.toList_append,
    @String.toList_ofList (padded 16 4 opType)]

theorem id_ne_unknownId {row : KnownOp} (h : row ∈ knownOps) (opType : ℕ) :
    row.id ≠ unknownId opType := by
  intro heq
  have hnone := known_not_unknown h
  rw [heq, unknown_afterPrefix] at hnone
  cases hnone

/-! ## Frames -/

/-- The octets of an op. -/
def opFrame (opType : ℕ) (params : Bytes) : Bytes :=
  leBytes 2 (4 + params.length) ++ leBytes 2 opType ++ params

/-- A header whose numbers fit. -/
def Fits (opType : ℕ) (params : Bytes) : Prop := opType < 0x10000 ∧ params.length < 0xfffc

theorem leBytes_two {n : ℕ} {a b : UInt8} (h : n = a.toNat + 256 * b.toNat) :
    leBytes 2 n = [a, b] := by
  have ha := a.toNat_lt
  have hb := b.toNat_lt
  have hlow : UInt8.ofNat n = a := by
    rw [← UInt8.toNat_inj, UInt8.toNat_ofNat']
    omega
  have hhigh : UInt8.ofNat (n / 256) = b := by
    rw [← UInt8.toNat_inj, UInt8.toNat_ofNat']
    omega
  rw [leBytes, leBytes, leBytes, hlow, hhigh]

theorem leBytes_two_toNat {n : ℕ} (h : n < 0x10000) :
    ∃ a b : UInt8, leBytes 2 n = [a, b] ∧ n = a.toNat + 256 * b.toNat := by
  refine ⟨UInt8.ofNat n, UInt8.ofNat (n / 256), rfl, ?_⟩
  rw [UInt8.toNat_ofNat', UInt8.toNat_ofNat']
  omega

/-- A frame is at the front of the bytecode, and is all of it that was read. -/
theorem nextFrame_eq_op {raw params rest : Bytes} {opType : ℕ} :
    nextFrame raw = .op opType params rest ↔
      raw = opFrame opType params ++ rest ∧ Fits opType params := by
  constructor
  · intro h
    rcases raw with _ | ⟨a, _ | ⟨b, _ | ⟨c, _ | ⟨d, more⟩⟩⟩⟩
    · cases h
    · cases h
    · cases h
    · cases h
    · have hb := b.toNat_lt
      have ha := a.toNat_lt
      have hc := c.toNat_lt
      have hd := d.toNat_lt
      unfold nextFrame at h
      dsimp only at h
      split at h
      · cases h
      · split at h
        · cases h
        · rename_i hroom hwhole
          simp only [List.length_cons] at hwhole
          injection h with htype hparams hrest
          subst htype hparams hrest
          have hlen : (more.take (a.toNat + 256 * b.toNat - 4)).length =
              a.toNat + 256 * b.toNat - 4 := by
            rw [List.length_take]
            omega
          refine ⟨?_, by omega, by omega⟩
          rw [opFrame, leBytes_two (show _ = a.toNat + 256 * b.toNat by omega), leBytes_two rfl]
          simp
  · rintro ⟨rfl, htype, hlen⟩
    obtain ⟨a, b, hsize, hab⟩ := leBytes_two_toNat (n := 4 + params.length) (by omega)
    obtain ⟨c, d, hcode, hcd⟩ := leBytes_two_toNat htype
    have hraw : opFrame opType params ++ rest = a :: b :: c :: d :: (params ++ rest) := by
      rw [opFrame, hsize, hcode]
      simp
    have hmore : a.toNat + 256 * b.toNat - 4 = params.length := by omega
    rw [hraw]
    unfold nextFrame
    dsimp only
    rw [if_neg (by omega), if_neg (by simp only [List.length_cons, List.length_append]; omega),
      hmore, List.take_left, List.drop_left, ← hcd]

theorem packOp_eq_ok {opType : ℕ} {params packed : Bytes} :
    packOp opType params = .ok packed ↔ packed = opFrame opType params ∧ Fits opType params := by
  unfold packOp
  constructor
  · intro h
    simp only [bind_eq_ok, pure_eq_ok] at h
    obtain ⟨size, hsize, code, hcode, rfl⟩ := h
    unfold packU16 at hsize hcode
    split at hsize
    · split at hcode
      · rename_i hlen htype
        obtain rfl := Except.ok.inj hsize
        obtain rfl := Except.ok.inj hcode
        refine ⟨?_, by omega, by omega⟩
        rw [opFrame, Int.toNat_natCast]
        congr 2
      · cases hcode
    · cases hsize
  · rintro ⟨rfl, htype, hlen⟩
    have hsize : packU16 (4 + params.length) = .ok (leBytes 2 (4 + params.length)) :=
      packU16_natCast (n := 4 + params.length) (by omega)
    simp [hsize, packU16_natCast htype, opFrame]

/-! ## Whole bytecode -/

/-- More turns than octets change nothing. -/
theorem decodeFrom_succ {fuel : ℕ} {raw : Bytes} (h : raw.length ≤ fuel) :
    decodeFrom (fuel + 1) raw = decodeFrom fuel raw := by
  induction fuel generalizing raw with
  | zero =>
    obtain rfl := List.length_eq_zero_iff.mp (Nat.le_zero.mp h)
    rfl
  | succ fuel ih =>
    rw [decodeFrom, decodeFrom]
    cases hframe : nextFrame raw with
    | op opType params rest =>
      obtain ⟨hraw, -⟩ := nextFrame_eq_op.mp hframe
      have hlen : rest.length ≤ fuel := by
        rw [hraw, opFrame] at h
        simp only [List.length_append, length_leBytes] at h
        omega
      dsimp only
      rw [ih hlen]
    | finished => rfl
    | truncated => rfl
    | bogus opLen => rfl
    | overruns opLen => rfl

theorem decodeFrom_enough {raw : Bytes} (more : ℕ) :
    decodeFrom (raw.length + more) raw = decodeMacroBytecode raw := by
  induction more with
  | zero => rfl
  | succ more ih => rw [← Nat.add_assoc, decodeFrom_succ (by omega), ih]

@[simp] theorem decodeMacroBytecode_nil : decodeMacroBytecode [] = [] := rfl

theorem decodeMacroBytecode_cons {opType : ℕ} {params : Bytes} (h : Fits opType params)
    (rest : Bytes) :
    decodeMacroBytecode (opFrame opType params ++ rest) =
      decodeOp opType params :: decodeMacroBytecode rest := by
  have hframe := nextFrame_eq_op.mpr (show opFrame opType params ++ rest = _ ∧ _ from ⟨rfl, h⟩)
  have hlen : (opFrame opType params ++ rest).length = rest.length + (3 + params.length) + 1 := by
    rw [opFrame]
    simp only [List.length_append, length_leBytes]
    omega
  rw [decodeMacroBytecode, hlen, decodeFrom, hframe]
  dsimp only
  rw [decodeFrom_enough]

theorem encodeMacroBytecode_cons {op : Op} {ops : List Op} {encoded : Bytes} :
    encodeMacroBytecode (op :: ops) = .ok encoded ↔
      ∃ first more, encodeSingleOp op = .ok first ∧ encodeMacroBytecode ops = .ok more ∧
        first ++ more = encoded := by
  rw [encodeMacroBytecode]
  simp only [bind_eq_ok, pure_eq_ok]
  constructor
  · rintro ⟨first, hfirst, more, hmore, heq⟩
    exact ⟨first, more, hfirst, hmore, heq⟩
  · rintro ⟨first, more, hfirst, hmore, heq⟩
    exact ⟨first, hfirst, more, hmore, heq⟩

/-! ## One op -/

section

variable {opType : ℕ} {params : Bytes}

theorem code_of_find {row : KnownOp} (h : knownOps.find? (·.code = opType) = some row) :
    row.code = opType := by
  simpa using List.find?_some h

/-- An op is read by its row of the table, or kept as it is. -/
theorem decodeOp_cases (opType : ℕ) (params : Bytes) :
    (∃ row attrs, knownOps.find? (·.code = opType) = some row ∧ row.decode params = .ok attrs ∧
      decodeOp opType params = ⟨row.id, attrs⟩) ∨
    (∃ more, decodeOp opType params = ⟨unknownId opType, ("rawParams", hex params) :: more⟩ ∧
      (limitOf opType).Met params) := by
  unfold decodeOp
  cases hrow : knownOps.find? (·.code = opType) with
  | none => exact .inr ⟨[], rfl, limitOf_unknown hrow params⟩
  | some row =>
    obtain rfl := code_of_find hrow
    have hkeeps := keeps_of_mem (List.mem_of_find?_eq_some hrow)
    cases hread : row.decode params with
    | ok attrs => exact .inl ⟨row, attrs, rfl, hread, by simp [hread]⟩
    | error text => exact .inr ⟨[("decodeError", text)], by simp [hread], hkeeps.unread _ _ hread⟩

theorem decodeOp_known {row : KnownOp} (hrow : knownOps.find? (·.code = opType) = some row)
    {attrs : Attrs} :
    decodeOp opType params = ⟨row.id, attrs⟩ ↔ row.decode params = .ok attrs := by
  have hid := id_ne_unknownId (List.mem_of_find?_eq_some hrow) opType
  unfold decodeOp
  rw [hrow]
  cases hread : row.decode params with
  | ok attrs' => simp [hread]
  | error text => simp [hread, hid.symm]

/-- What the decoder left is encoded as it was. -/
theorem encodeSingleOp_unknown (h : Fits opType params) (more : Attrs) :
    encodeSingleOp ⟨unknownId opType, ("rawParams", hex params) :: more⟩ =
      .ok (opFrame opType params) := by
  have hcode : parseInt 16 (padded 16 4 opType) = some (opType : ℤ) :=
    parseInt_padded (by decide) (by decide)
  have hparams : fromHex (hex params).toList = some params := by
    rw [hex, String.toList_ofList]
    exact fromHex_toHex params
  simp only [encodeSingleOp, unknown_afterPrefix, encodeUnknown, hcode, List.lookup_cons_self,
    Option.getD_some, hparams]
  exact packOp_eq_ok.mpr ⟨rfl, h⟩

theorem encodeSingleOp_known {row : KnownOp} (hrow : knownOps.find? (·.code = opType) = some row)
    {attrs : Attrs} {encoded : Bytes} :
    encodeSingleOp ⟨row.id, attrs⟩ = .ok encoded ↔
      ∃ packed, row.encode attrs = .ok packed ∧ encoded = opFrame opType packed ∧
        Fits opType packed := by
  have hmem := List.mem_of_find?_eq_some hrow
  obtain rfl := code_of_find hrow
  simp only [encodeSingleOp, known_not_unknown hmem, encodeById_lookup hmem, bind_eq_ok,
    packOp_eq_ok]

/-- The op is encoded to a frame of its type that is decoded the same. -/
def ComesBack (opType : ℕ) (params : Bytes) : Prop :=
  ∃ packed, Fits opType packed ∧
    encodeSingleOp (decodeOp opType params) = .ok (opFrame opType packed) ∧
      decodeOp opType packed = decodeOp opType params

/-- An op comes back exactly within its limit. -/
theorem comesBack_iff (h : Fits opType params) :
    ComesBack opType params ↔ (limitOf opType).Met params := by
  rcases decodeOp_cases opType params with ⟨row, attrs, hrow, hread, hop⟩ | ⟨more, hop, hmet⟩
  · have hkeeps := keeps_of_mem (List.mem_of_find?_eq_some hrow)
    have hcode := code_of_find hrow
    rw [← hcode, ← hkeeps.restores params attrs hread, hcode]
    unfold ComesBack
    rw [hop]
    constructor
    · rintro ⟨packed, hfits, hencode, hdecode⟩
      obtain ⟨packed', hpacked, hframe, hfits'⟩ := (encodeSingleOp_known hrow).mp hencode
      obtain rfl : packed = packed' := by
        have hlen : packed.length = packed'.length := by
          have hlen := congrArg List.length hframe
          simp only [opFrame, List.length_append, length_leBytes] at hlen
          omega
        exact (List.append_inj' hframe hlen).2
      exact ⟨packed, hpacked, hfits.2, (decodeOp_known hrow).mp hdecode⟩
    · rintro ⟨packed, hpacked, hlen, hback⟩
      have hfits : Fits opType packed := ⟨h.1, hlen⟩
      exact ⟨packed, hfits, (encodeSingleOp_known hrow).mpr ⟨packed, hpacked, rfl, hfits⟩,
        (decodeOp_known hrow).mpr hback⟩
  · apply iff_of_true _ hmet
    refine ⟨params, h, ?_, rfl⟩
    rw [hop]
    exact encodeSingleOp_unknown h more

/-- Whatever an op is encoded to is a frame of its type. -/
theorem encodeSingleOp_frame (h : Fits opType params) {encoded : Bytes}
    (hencode : encodeSingleOp (decodeOp opType params) = .ok encoded) :
    ∃ packed, Fits opType packed ∧ encoded = opFrame opType packed := by
  rcases decodeOp_cases opType params with ⟨row, attrs, hrow, -, hop⟩ | ⟨more, hop, -⟩
  · rw [hop] at hencode
    obtain ⟨packed, -, hframe, hfits⟩ := (encodeSingleOp_known hrow).mp hencode
    exact ⟨packed, hfits, hframe⟩
  · rw [hop, encodeSingleOp_unknown h more] at hencode
    exact ⟨params, h, (Except.ok.inj hencode).symm⟩

end

/-! ## The round trip -/

/-- An op as it stands in the bytecode. -/
structure FramedOp where
  octets : Bytes
  opType : ℕ
  params : Bytes

namespace FramedOp

def decoded (p : FramedOp) : Op := decodeOp p.opType p.params

/-- The op is decoded as one that is not in the table, or that its decoder cannot read. -/
def IsUnknown (p : FramedOp) : Prop := p.decoded.id = unknownId p.opType

def Met (p : FramedOp) : Prop := (limitOf p.opType).Met p.params

end FramedOp

/-- Bytecode whose ops are all whole. -/
inductive Framed : Bytes → List FramedOp → Prop
  | nil : Framed [] []
  | cons {p : FramedOp} {rest : Bytes} {ops : List FramedOp} :
      nextFrame (p.octets ++ rest) = .op p.opType p.params rest → Framed rest ops →
        Framed (p.octets ++ rest) (p :: ops)

/-- The ops come back as they were, and the unknown ones octet for octet. -/
structure RoundTrips (raw : Bytes) (ops : List FramedOp) : Prop where
  sameOps : ∃ encoded, encodeMacroBytecode (decodeMacroBytecode raw) = .ok encoded ∧
    decodeMacroBytecode encoded = decodeMacroBytecode raw
  unknownExact : ∀ p ∈ ops, p.IsUnknown → encodeSingleOp p.decoded = .ok p.octets

/-- The octets of a whole op are its frame. -/
theorem octets_eq {p : FramedOp} {rest : Bytes}
    (h : nextFrame (p.octets ++ rest) = .op p.opType p.params rest) :
    p.octets = opFrame p.opType p.params ∧ Fits p.opType p.params := by
  obtain ⟨heq, hfits⟩ := nextFrame_eq_op.mp h
  exact ⟨List.append_cancel_right heq, hfits⟩

theorem Framed.decoded {raw : Bytes} {ops : List FramedOp} (h : Framed raw ops) :
    decodeMacroBytecode raw = ops.map FramedOp.decoded := by
  induction h with
  | nil => rfl
  | cons hframe hrest ih =>
    obtain ⟨hoctets, hfits⟩ := octets_eq hframe
    rw [hoctets, decodeMacroBytecode_cons hfits, ih]
    rfl

/-- The decoded ops come back together exactly when each does. -/
theorem Framed.sameOps_iff {raw : Bytes} {ops : List FramedOp} (h : Framed raw ops) :
    (∃ encoded, encodeMacroBytecode (ops.map FramedOp.decoded) = .ok encoded ∧
      decodeMacroBytecode encoded = ops.map FramedOp.decoded) ↔
        ∀ p ∈ ops, ComesBack p.opType p.params := by
  induction h with
  | nil => simp [encodeMacroBytecode]
  | @cons p rest ops hframe hrest ih =>
    obtain ⟨-, hfits⟩ := octets_eq hframe
    rw [List.forall_mem_cons, ← ih, List.map_cons]
    constructor
    · rintro ⟨encoded, hencode, hdecode⟩
      obtain ⟨first, more, hfirst, hmore, rfl⟩ := encodeMacroBytecode_cons.mp hencode
      obtain ⟨packed, hpacked, rfl⟩ := encodeSingleOp_frame hfits hfirst
      rw [decodeMacroBytecode_cons hpacked] at hdecode
      injection hdecode with hhead htail
      exact ⟨⟨packed, hpacked, hfirst, hhead⟩, more, hmore, htail⟩
    · rintro ⟨⟨packed, hpacked, hfirst, hhead⟩, more, hmore, htail⟩
      refine ⟨_, encodeMacroBytecode_cons.mpr ⟨_, more, hfirst, hmore, rfl⟩, ?_⟩
      rw [decodeMacroBytecode_cons hpacked, hhead, htail]
      rfl

theorem Framed.fits {raw : Bytes} {ops : List FramedOp} (h : Framed raw ops) :
    ∀ p ∈ ops, p.octets = opFrame p.opType p.params ∧ Fits p.opType p.params := by
  induction h with
  | nil => simp
  | cons hframe hrest ih => exact List.forall_mem_cons.mpr ⟨octets_eq hframe, ih⟩

/-- An op that was decoded as unknown is encoded to its octets. -/
theorem unknown_exact {p : FramedOp} (hoctets : p.octets = opFrame p.opType p.params)
    (hfits : Fits p.opType p.params) (h : p.IsUnknown) :
    encodeSingleOp p.decoded = .ok p.octets := by
  unfold FramedOp.IsUnknown FramedOp.decoded at *
  rcases decodeOp_cases p.opType p.params with ⟨row, attrs, hrow, -, hop⟩ | ⟨more, hop, -⟩
  · rw [hop] at h
    exact absurd h (id_ne_unknownId (List.mem_of_find?_eq_some hrow) p.opType)
  · rw [hop, hoctets]
    exact encodeSingleOp_unknown hfits more

/-- The round trip holds exactly when every op is within its limit. -/
theorem roundTrip_iff {raw : Bytes} {ops : List FramedOp} (h : Framed raw ops) :
    RoundTrips raw ops ↔ ∀ p ∈ ops, p.Met := by
  have hback : (∀ p ∈ ops, ComesBack p.opType p.params) ↔ ∀ p ∈ ops, p.Met :=
    forall₂_congr fun p hp => comesBack_iff (h.fits p hp).2
  rw [← hback, ← h.sameOps_iff]
  constructor
  · intro htrip
    have hsame := htrip.sameOps
    rwa [h.decoded] at hsame
  · intro hsame
    constructor
    · rwa [h.decoded]
    · intro p hp hunknown
      obtain ⟨hoctets, hfits⟩ := h.fits p hp
      exact unknown_exact hoctets hfits hunknown

/-- A cut, a transition style that has a name and an op that is not in the table. -/
theorem roundTrip_three :
    RoundTrips [8, 0, 4, 0, 1, 0, 0, 0, 8, 0, 0x83, 0, 0, 2, 0, 0, 5, 0, 0xFF, 0xFF, 9]
      [⟨[8, 0, 4, 0, 1, 0, 0, 0], 4, [1, 0, 0, 0]⟩,
        ⟨[8, 0, 0x83, 0, 0, 2, 0, 0], 0x83, [0, 2, 0, 0]⟩, ⟨[5, 0, 0xFF, 0xFF, 9], 0xFFFF, [9]⟩] := by
  have hlast : Framed [5, 0, 0xFF, 0xFF, 9] [⟨[5, 0, 0xFF, 0xFF, 9], 0xFFFF, [9]⟩] :=
    @Framed.cons ⟨[5, 0, 0xFF, 0xFF, 9], 0xFFFF, [9]⟩ [] _ rfl .nil
  have hframed := @Framed.cons ⟨[8, 0, 4, 0, 1, 0, 0, 0], 4, [1, 0, 0, 0]⟩ _ _ rfl
    (@Framed.cons ⟨[8, 0, 0x83, 0, 0, 2, 0, 0], 0x83, [0, 2, 0, 0]⟩ _ _ rfl hlast)
  apply (roundTrip_iff hframed).mpr
  rw [List.forall_mem_cons, List.forall_mem_cons, List.forall_mem_singleton]
  exact ⟨trivial, (named_met (n := 2) rfl).mpr rfl, trivial⟩

/-- A style past the last name is encoded as a mix. -/
theorem style_mixed : ¬ ∀ raw ops, Framed raw ops → RoundTrips raw ops := by
  intro h
  have hframed : Framed [8, 0, 0x83, 0, 0, 7, 0, 0]
      [⟨[8, 0, 0x83, 0, 0, 7, 0, 0], 0x83, [0, 7, 0, 0]⟩] :=
    @Framed.cons ⟨[8, 0, 0x83, 0, 0, 7, 0, 0], 0x83, [0, 7, 0, 0]⟩ [] _ rfl .nil
  obtain ⟨encoded, hencode, hdecode⟩ := (h _ _ hframed).sameOps
  have hmix : encodeMacroBytecode (decodeMacroBytecode [8, 0, 0x83, 0, 0, 7, 0, 0]) =
      .ok [8, 0, 0x83, 0, 0, 0, 0, 0] := by decide
  rw [hmix] at hencode
  obtain rfl := Except.ok.inj hencode
  revert hdecode
  decide

end Bmdwire.Macros
