import Bmdwire.Library.Splice
import Bmdwire.Program.Layouts

/-!
# What a declared command carries

When the fields of a layout do not overlap and every value is in the range of its field, the
command that `get_command` makes is the header and the payload that `Carries` describes: the
mask says which fields are given, each of these is read back from its place, the data of the
tail follows, and every other octet is zero. A number with a scale is that of the
floating-point product, which need not be the nearest to the exact one
(`luma_misses_nearest`).
-/

set_option autoImplicit false

namespace Bmdwire

open Library (FloatVal roundHalfEven nearestDouble encodeUtf8 paddedTo beforeNul slice splice
  spliceAll Fits Apart Covers)
open Packet (packU16 unpackU16)

/-! ## Numbers, the highest octet first -/

@[simp] theorem unpackBig_nil : unpackBig [] = 0 := rfl

@[simp] theorem unpackBig_concat (octets : Bytes) (b : UInt8) :
    unpackBig (octets ++ [b]) = unpackBig octets * 256 + b.toNat := by
  simp [unpackBig]

/-- The octets of a number, whether it fits or not. -/
def bigOctets (size n : ℕ) : Bytes :=
  (List.range size).map fun i => UInt8.ofNat (n / 256 ^ (size - 1 - i))

@[simp] theorem length_bigOctets (size n : ℕ) : (bigOctets size n).length = size := by
  simp [bigOctets]

theorem bigOctets_succ (size n : ℕ) :
    bigOctets (size + 1) n = bigOctets size (n / 256) ++ [UInt8.ofNat n] := by
  have hfront : ∀ i ∈ List.range size, UInt8.ofNat (n / 256 ^ (size + 1 - 1 - i)) =
      UInt8.ofNat (n / 256 / 256 ^ (size - 1 - i)) := by
    intro i hi
    have hi := List.mem_range.mp hi
    rw [Nat.div_div_eq_div_mul, ← pow_succ', show size + 1 - 1 - i = size - 1 - i + 1 by omega]
  rw [bigOctets, List.range_succ, List.map_append, List.map_congr_left hfront, bigOctets]
  simp

theorem unpackBig_bigOctets (size n : ℕ) : unpackBig (bigOctets size n) = n % 256 ^ size := by
  induction size generalizing n with
  | zero => simp [bigOctets, Nat.mod_one]
  | succ size ih =>
    have hlow : (UInt8.ofNat n).toNat = n % 256 := UInt8.toNat_ofNat'
    rw [bigOctets_succ, unpackBig_concat, ih, hlow, pow_succ, Nat.mul_comm (256 ^ size),
      Nat.mod_mul]
    omega

theorem packBig_eq_some {size n : ℕ} {octets : Bytes} :
    Send.packBig size n = some octets ↔ n < 256 ^ size ∧ octets = bigOctets size n := by
  simp only [Send.packBig, bigOctets]
  constructor
  · intro h
    split at h
    · exact ⟨‹_›, (Option.some.inj h).symm⟩
    · cases h
  · rintro ⟨hlt, rfl⟩
    rw [if_pos hlt]

/-- A number that fits is read back. -/
theorem unpackBig_of_packBig {size n : ℕ} {octets : Bytes}
    (h : Send.packBig size n = some octets) : octets.length = size ∧ unpackBig octets = n := by
  obtain ⟨hlt, rfl⟩ := packBig_eq_some.mp h
  exact ⟨length_bigOctets .., by rw [unpackBig_bigOctets, Nat.mod_eq_of_lt hlt]⟩

/-- The range of a number of so many octets. -/
def NumberFits (size : ℕ) (signed : Bool) (n : ℤ) : Prop :=
  if signed then -2 ^ (8 * size - 1) ≤ n ∧ n < 2 ^ (8 * size - 1) else 0 ≤ n ∧ n < 2 ^ (8 * size)

instance (size : ℕ) (signed : Bool) (n : ℤ) : Decidable (NumberFits size signed n) :=
  inferInstanceAs (Decidable (if signed = true then
    -2 ^ (8 * size - 1) ≤ n ∧ n < 2 ^ (8 * size - 1) else 0 ≤ n ∧ n < 2 ^ (8 * size)))

theorem pow_octets (size : ℕ) : 256 ^ size = 2 ^ (8 * size) := by
  rw [Nat.pow_mul]

/-- A number in range is packed, and read back. -/
theorem packNumber_of_fits {size : ℕ} {signed : Bool} {n : ℤ} (hsize : 0 < size)
    (h : NumberFits size signed n) : ∃ octets, packNumber size signed n = some octets ∧
      octets.length = size ∧ unpackNumber signed octets = n := by
  cases signed with
  | false =>
    simp only [NumberFits, Bool.false_eq_true, if_false] at h
    have hlt : n.toNat < 256 ^ size := by
      have hcast : ((2 ^ (8 * size) : ℕ) : ℤ) = 2 ^ (8 * size) := by simp
      rw [pow_octets]
      omega
    have hpack : packNumber size false n = some (bigOctets size n.toNat) := by
      simp only [packNumber, Bool.false_eq_true, if_false]
      rw [if_pos h.1]
      exact packBig_eq_some.mpr ⟨hlt, rfl⟩
    refine ⟨_, hpack, length_bigOctets .., ?_⟩
    simp only [unpackNumber, Bool.false_eq_true, if_false]
    rw [unpackBig_bigOctets, Nat.mod_eq_of_lt hlt]
    exact Int.toNat_of_nonneg h.1
  | true =>
    simp only [NumberFits, if_true] at h
    have hpos : (0 : ℤ) < 256 ^ size := by positivity
    have hmod := Int.emod_lt_of_pos n hpos
    have hnonneg := Int.emod_nonneg n hpos.ne'
    have hlt : (n % 256 ^ size).toNat < 256 ^ size := by
      have hcast : ((256 ^ size : ℕ) : ℤ) = 256 ^ size := by simp
      omega
    have hpack : packNumber size true n = some (bigOctets size (n % 256 ^ size).toNat) := by
      simp only [packNumber, if_true]
      rw [if_pos h]
      exact packBig_eq_some.mpr ⟨hlt, rfl⟩
    have hwidth : (256 : ℤ) ^ size = 2 ^ (8 * size) := by exact_mod_cast pow_octets size
    refine ⟨_, hpack, length_bigOctets .., ?_⟩
    simp only [unpackNumber, if_true]
    rw [unpackBig_bigOctets, Nat.mod_eq_of_lt hlt, length_bigOctets, hwidth]
    exact Library.asSigned_emod (by omega) h.1 h.2

/-- What is packed is in range. -/
theorem fits_of_packNumber {size : ℕ} {signed : Bool} {n : ℤ} {octets : Bytes}
    (h : packNumber size signed n = some octets) : NumberFits size signed n := by
  cases signed with
  | false =>
    simp only [packNumber, Bool.false_eq_true, if_false] at h
    split at h
    · rename_i hnonneg
      obtain ⟨hlt, -⟩ := packBig_eq_some.mp h
      have hcast : ((2 ^ (8 * size) : ℕ) : ℤ) = 2 ^ (8 * size) := by simp
      rw [pow_octets] at hlt
      simp only [NumberFits, Bool.false_eq_true, if_false]
      omega
    · cases h
  | true =>
    simp only [packNumber, if_true] at h
    split at h
    · simpa only [NumberFits, if_true]
    · cases h

/-! ## Scaling -/

/-- The number that a value stands for. -/
def Value.number? : Value → Option ℚ
  | .int n => some n
  | .bool b => some (b.toInt : ℤ)
  | .float (.finite q) => some q
  | _ => none

def Scale.number : Scale → ℚ
  | .int n => n
  | .float q => q

/-- An integer that has no more than the 53 bits of a floating-point number. -/
def Value.Small (value : Value) : Prop := ∀ n : ℤ, value = .int n → |n| < 2 ^ 53

def Scale.Small (scale : Scale) : Prop := ∀ n : ℤ, scale = .int n → |n| < 2 ^ 53

/-- The integer is within half a unit of the exact product, and a little more. -/
def Near (exact : ℚ) (wire : ℤ) : Prop := |(wire : ℚ) - exact| ≤ 1 / 2 + 1 / 2 ^ 16

theorem Near.of_eq {exact : ℚ} {wire : ℤ} (h : (wire : ℚ) = exact) : Near exact wire := by
  rw [Near, h, sub_self, abs_zero]
  norm_num

theorem FloatVal.ofRat_eq_finite {q r : ℚ} (h : FloatVal.ofRat q = .finite r) :
    r = nearestDouble q := by
  unfold FloatVal.ofRat at h
  split at h
  · exact (FloatVal.finite.inj h).symm
  · cases h

theorem floatOf_eq_some {n : ℤ} {q : ℚ} (hn : |n| < 2 ^ 53) (h : floatOf n = some q) : q = n := by
  unfold floatOf at h
  split at h
  · rename_i r hr
    obtain rfl := Option.some.inj h
    have hexact := Library.nearestDouble_exact hn (Nat.zero_le 1074)
    rw [pow_zero, div_one] at hexact
    rw [FloatVal.ofRat_eq_finite hr, hexact]
  · cases h

/-- A rounded product is near the exact one. -/
theorem near_of_roundFloat {p q : ℚ} {wire : ℤ} (hwire : |wire| ≤ 2 ^ 32)
    (h : roundFloat? (timesFloat (.finite p) q) = some wire) : Near (p * q) wire := by
  simp only [timesFloat, roundFloat?] at h
  split at h
  · rename_i r hr
    obtain rfl := Option.some.inj h
    rw [FloatVal.ofRat_eq_finite hr] at hwire ⊢
    exact Library.abs_roundHalfEven_nearestDouble_sub hwire
  · cases h

theorem near_of_scaledInt {n : ℤ} {scale : Scale} {wire : ℤ} (hwire : |wire| ≤ 2 ^ 32)
    (hn : |n| < 2 ^ 53) (h : scaledInt n scale = some wire) : Near (n * scale.number) wire := by
  cases scale with
  | int s =>
    obtain rfl := Option.some.inj h
    exact Near.of_eq (by simp [Scale.number])
  | float s =>
    obtain ⟨q, hq, h⟩ := Option.bind_eq_some_iff.mp h
    rw [← floatOf_eq_some hn hq]
    exact near_of_roundFloat hwire h

theorem near_of_scaledFloat {p : ℚ} {scale : Scale} {wire : ℤ} (hwire : |wire| ≤ 2 ^ 32)
    (hscale : scale.Small) (h : scaledFloat (.finite p) scale = some wire) :
    Near (p * scale.number) wire := by
  cases scale with
  | int s =>
    obtain ⟨q, hq, h⟩ := Option.bind_eq_some_iff.mp h
    rw [Scale.number, ← floatOf_eq_some (hscale s rfl) hq]
    exact near_of_roundFloat hwire h
  | float s => exact near_of_roundFloat hwire h

/-- The integer that is packed for a scaled value is near the exact product. -/
theorem near_of_wireInt {scale : Scale} {value : Value} {exact : ℚ} {wire : ℤ}
    (hscales : scale.scales = true) (hwire : |wire| ≤ 2 ^ 32) (hvalue : value.Small)
    (hscale : scale.Small) (hexact : value.number? = some exact)
    (h : wireInt scale value = some wire) : Near (exact * scale.number) wire := by
  cases value with
  | int n =>
    obtain rfl := Option.some.inj hexact
    rw [wireInt, if_pos hscales] at h
    exact near_of_scaledInt hwire (hvalue n rfl) h
  | bool b =>
    obtain rfl := Option.some.inj hexact
    rw [wireInt, if_pos hscales] at h
    exact near_of_scaledInt hwire (by cases b <;> decide) h
  | float x =>
    rw [wireInt, if_pos hscales] at h
    cases x with
    | finite p =>
      obtain rfl := Option.some.inj hexact
      exact near_of_scaledFloat hwire hscale h
    | infinite negative => cases hexact
    | nan => cases hexact
  | text s => cases hexact
  | octets bs => cases hexact

/-! ## One field -/

/-- The value is in the range of the field. -/
def FieldType.InRange (type : FieldType) (value : Value) : Prop :=
  match type with
  | .number width signed scale =>
    ∃ wire, wireInt scale value = some wire ∧ NumberFits width.octets signed wire
  | .boolean => True
  | .string size =>
    ∃ s, value = .text s ∧ (encodeUtf8 s).length ≤ size ∧ ∀ c ∈ s, c.toNat ≠ 0

/-- The octets of the field give the value: an integer without a scale and a text as they are,
a boolean as its truth, and with a scale the integer of the rounded product. -/
def FieldType.ReadsBack (type : FieldType) (value : Value) (octets : Bytes) : Prop :=
  match type with
  | .number _ signed scale =>
    if scale.scales then
      wireInt scale value = some (unpackNumber signed octets) ∧
        ∀ exact, value.number? = some exact → value.Small → scale.Small →
          Near (exact * scale.number) (unpackNumber signed octets)
    else ∃ n : ℤ, value.number? = some (n : ℚ) ∧ type.unpack octets = .int n
  | .boolean => type.unpack octets = .bool value.truthy
  | .string _ => type.unpack octets = value

theorem Width.octets_pos (width : Width) : 0 < width.octets := by
  cases width <;> decide

/-- A number of no more than four octets. -/
theorem NumberFits.abs_bound {width : Width} {signed : Bool} {n : ℤ}
    (h : NumberFits width.octets signed n) : |n| ≤ 2 ^ 32 := by
  rw [abs_le]
  cases signed with
  | false =>
    simp only [NumberFits, Bool.false_eq_true, if_false] at h
    cases width <;> simp only [Width.octets] at h <;> norm_num at h ⊢ <;> omega
  | true =>
    simp only [NumberFits, if_true] at h
    cases width <;> simp only [Width.octets] at h <;> norm_num at h ⊢ <;> omega

theorem number_of_wireInt {scale : Scale} {value : Value} {wire : ℤ}
    (hscales : scale.scales = false) (h : wireInt scale value = some wire) :
    value.number? = some (wire : ℚ) := by
  cases value with
  | int n =>
    rw [wireInt, hscales, if_neg (by simp)] at h
    rw [Value.number?, Option.some.inj h]
  | bool b =>
    rw [wireInt, hscales, if_neg (by simp)] at h
    rw [Value.number?, Option.some.inj h]
  | float x =>
    rw [wireInt, hscales, if_neg (by simp)] at h
    cases h
  | text s => cases h
  | octets bs => cases h

/-- Without a scale the number is shown as it is. -/
theorem unpack_of_not_scales {width : Width} {signed : Bool} {scale : Scale}
    (hscales : scale.scales = false) (octets : Bytes) :
    (FieldType.number width signed scale).unpack octets = .int (unpackNumber signed octets) := by
  cases scale with
  | int s =>
    simp only [Scale.scales, decide_eq_false_iff_not, not_not] at hscales
    simp [FieldType.unpack, hscales]
  | float s =>
    simp only [Scale.scales, decide_eq_false_iff_not, not_not] at hscales
    simp [FieldType.unpack, hscales]

theorem beforeNul_paddedTo {size : ℕ} {octets : Bytes} (hlength : octets.length ≤ size)
    (hnul : 0 ∉ octets) : beforeNul (paddedTo size octets) = octets := by
  rw [paddedTo, List.take_of_length_le hlength, Library.beforeNul_zeros]
  have := Library.beforeNul_append hnul []
  rwa [List.append_nil, show beforeNul [] = [] from rfl, List.append_nil] at this

theorem length_of_packNumber {size : ℕ} {signed : Bool} {n : ℤ} {octets : Bytes}
    (h : packNumber size signed n = some octets) : octets.length = size := by
  unfold packNumber at h
  split at h
  · split at h
    · exact (unpackBig_of_packBig h).1
    · cases h
  · split at h
    · exact (unpackBig_of_packBig h).1
    · cases h

/-- A field writes as many octets as it has. -/
theorem FieldType.length_of_pack {type : FieldType} {value : Value} {octets : Bytes}
    (h : type.pack value = some octets) : octets.length = type.size := by
  cases type with
  | number width signed scale =>
    obtain ⟨wire, -, hpack⟩ := Option.bind_eq_some_iff.mp h
    exact length_of_packNumber hpack
  | boolean =>
    obtain rfl := Option.some.inj h
    rfl
  | string size =>
    have hpadded : ∃ bs, octets = paddedTo size bs := by
      simp only [FieldType.pack] at h
      split at h
      · exact ⟨_, (Option.some.inj h).symm⟩
      · obtain ⟨bs, -, hbs⟩ := Option.map_eq_some_iff.mp h
        exact ⟨bs, hbs.symm⟩
    obtain ⟨bs, rfl⟩ := hpadded
    exact Library.length_paddedTo ..

/-- A value in range is packed in the size of the field, and read back. -/
theorem FieldType.pack_of_inRange {type : FieldType} {value : Value} (h : type.InRange value) :
    ∃ octets, type.pack value = some octets ∧ type.ReadsBack value octets := by
  cases type with
  | number width signed scale =>
    obtain ⟨wire, hwire, hfits⟩ := h
    obtain ⟨octets, hpack, -, hread⟩ := packNumber_of_fits width.octets_pos hfits
    refine ⟨octets, ?_, ?_⟩
    · rw [FieldType.pack, hwire, Option.bind_some, hpack]
    · simp only [FieldType.ReadsBack]
      split
      · rename_i hscales
        rw [hread]
        exact ⟨hwire, fun exact hexact hvalue hscale =>
          near_of_wireInt hscales hfits.abs_bound hvalue hscale hexact hwire⟩
      · rename_i hscales
        rw [Bool.not_eq_true] at hscales
        exact ⟨wire, number_of_wireInt hscales hwire, by rw [unpack_of_not_scales hscales, hread]⟩
  | boolean =>
    refine ⟨[if value.truthy then 1 else 0], rfl, ?_⟩
    simp only [FieldType.ReadsBack, FieldType.unpack]
    cases value.truthy <;> rfl
  | string size =>
    obtain ⟨s, rfl, hlength, hnul⟩ := h
    refine ⟨_, rfl, ?_⟩
    simp only [FieldType.ReadsBack, FieldType.unpack]
    rw [beforeNul_paddedTo hlength (Library.zero_notMem_encode hnul),
      Library.decodeUtf8_encodeUtf8]

/-! ## The loop over the fields -/

section
variable (attrs : Attributes)

/-- A field that is given. -/
def Field.Given (f : Field) : Prop := ∃ value, attrs f.name = some value

/-- What the field writes, and where. -/
def Field.write? (f : Field) : Option (ℕ × Bytes) :=
  ((attrs f.name).bind f.type.pack).map fun octets => (f.offset, octets)

/-- The bit that the field sets. -/
def Field.bit (f : Field) : ℕ :=
  match attrs f.name, f.maskBit with
  | some _, some bit => 2 ^ bit
  | _, _ => 0

/-- The mask: the bits of the fields that are given. -/
def maskOf (fields : List Field) : ℕ := fields.foldr (fun f mask => f.bit attrs ||| mask) 0

variable {attrs}

theorem testBit_bit {f : Field} {i : ℕ} :
    (f.bit attrs).testBit i = true ↔ f.Given attrs ∧ f.maskBit = some i := by
  simp only [Field.bit, Field.Given]
  cases attrs f.name with
  | none => simp
  | some value =>
    cases f.maskBit with
    | none => simp
    | some bit => simp [Nat.testBit_two_pow]

/-- A bit of the mask is set exactly when a field that is given has it. -/
theorem testBit_maskOf {fields : List Field} {i : ℕ} :
    (maskOf attrs fields).testBit i = true ↔
      ∃ f ∈ fields, f.Given attrs ∧ f.maskBit = some i := by
  induction fields with
  | nil => simp [maskOf]
  | cons f fields ih =>
    rw [show maskOf attrs (f :: fields) = f.bit attrs ||| maskOf attrs fields from rfl,
      Nat.testBit_or, Bool.or_eq_true, ih, testBit_bit]
    simp

/-- Every given value can be packed. -/
def Packable (attrs : Attributes) (fields : List Field) : Prop :=
  ∀ f ∈ fields, ∀ value, attrs f.name = some value → ∃ octets, f.type.pack value = some octets

theorem packInto_eq_splice {offset : ℕ} {octets buf : Bytes}
    (h : offset + octets.length ≤ buf.length) :
    Send.packInto offset octets buf = some (splice offset octets buf) := by
  rw [Send.packInto, if_pos h, splice]

/-- What a field writes has the size of the field. -/
theorem mem_write {f : Field} {w : ℕ × Bytes} (hw : f.write? attrs = some w) :
    f.Given attrs ∧ w.1 = f.offset ∧ w.2.length = f.type.size := by
  obtain ⟨octets, hoctets, rfl⟩ := Option.map_eq_some_iff.mp hw
  obtain ⟨value, hvalue, hpack⟩ := Option.bind_eq_some_iff.mp hoctets
  exact ⟨⟨value, hvalue⟩, rfl, FieldType.length_of_pack hpack⟩

/-- One field: what it writes stands in the buffer, and its bit in the mask. -/
theorem packFields_written {f : Field} {rest : List SendField} {buf : Bytes} {mask : ℕ}
    (hpackable : ∀ value, attrs f.name = some value → ∃ octets, f.type.pack value = some octets)
    (hinside : f.offset + f.type.size ≤ buf.length) :
    Send.packFields (f.written attrs :: rest) buf mask =
      Send.packFields rest (spliceAll (f.write? attrs).toList buf) (mask ||| f.bit attrs) := by
  cases hvalue : attrs f.name with
  | none =>
    simp [Send.packFields, Field.written, Field.write?, Field.bit, hvalue, spliceAll]
  | some value =>
    obtain ⟨octets, hpack⟩ := hpackable value hvalue
    have hwrite := packInto_eq_splice ((FieldType.length_of_pack hpack).symm ▸ hinside)
    cases hbit : f.maskBit <;>
      simp [Send.packFields, Send.packField, Field.written, Field.write?, Field.bit, hvalue, hpack,
        hbit, hwrite, spliceAll]

theorem length_splice_write {f : Field} {buf : Bytes}
    (hinside : f.offset + f.type.size ≤ buf.length) :
    (spliceAll (f.write? attrs).toList buf).length = buf.length := by
  refine Library.length_spliceAll fun w hw => ?_
  obtain ⟨-, hoffset, hlength⟩ := mem_write (Option.mem_toList.mp hw)
  omega

/-- The whole loop. -/
theorem packFields_map_written {fields : List Field} {rest : List SendField} {buf : Bytes}
    {mask : ℕ} (hpackable : Packable attrs fields)
    (hinside : ∀ f ∈ fields, f.offset + f.type.size ≤ buf.length) :
    Send.packFields (fields.map (·.written attrs) ++ rest) buf mask =
      Send.packFields rest (spliceAll (fields.filterMap (·.write? attrs)) buf)
        (mask ||| maskOf attrs fields) := by
  induction fields generalizing buf mask with
  | nil => simp [maskOf, spliceAll]
  | cons f fields ih =>
    have hf := hinside f (List.mem_cons_self ..)
    rw [List.map_cons, List.cons_append,
      packFields_written (hpackable f (List.mem_cons_self ..)) hf,
      ih (fun g hg => hpackable g (List.mem_cons_of_mem _ hg)) fun g hg => by
        rw [length_splice_write hf]
        exact hinside g (List.mem_cons_of_mem _ hg)]
    congr 1
    · cases hw : f.write? attrs <;> simp [hw, spliceAll]
    · rw [Nat.or_assoc]
      rfl

/-- When the loop ends well, every given value could be packed. -/
theorem packable_of_packFields {fields : List Field} {rest : List SendField} {buf : Bytes}
    {mask : ℕ} {r : Bytes × ℕ}
    (h : Send.packFields (fields.map (·.written attrs) ++ rest) buf mask = some r) :
    Packable attrs fields ∧ ∃ buf' mask', Send.packFields rest buf' mask' = some r := by
  induction fields generalizing buf mask with
  | nil => exact ⟨fun f hf => absurd hf List.not_mem_nil, buf, mask, h⟩
  | cons f fields ih =>
    rw [List.map_cons, List.cons_append, Send.packFields] at h
    cases hvalue : attrs f.name with
    | none =>
      simp only [Field.written, hvalue, Option.map_none] at h
      obtain ⟨hpackable, hrest⟩ := ih h
      refine ⟨fun g hg value hg' => ?_, hrest⟩
      obtain rfl | hg := List.mem_cons.mp hg
      · rw [hvalue] at hg'
        cases hg'
      · exact hpackable g hg value hg'
    | some value =>
      simp only [Field.written, hvalue, Option.map_some, Send.packField] at h
      obtain ⟨buf', hbuf, h⟩ := Option.bind_eq_some_iff.mp h
      obtain ⟨octets, hpack, -⟩ := Option.bind_eq_some_iff.mp hbuf
      obtain ⟨hpackable, hrest⟩ := ih h
      refine ⟨fun g hg value' hg' => ?_, hrest⟩
      obtain rfl | hg := List.mem_cons.mp hg
      · obtain rfl : value = value' := Option.some.inj (hvalue.symm.trans hg')
        exact ⟨octets, hpack⟩
      · exact hpackable g hg value' hg'

end

/-! ## The payload -/

/-- The fields and the mask lie within the declared size and do not overlap. -/
structure Layout.Proper (layout : Layout) : Prop where
  inside : ∀ f ∈ layout.fields, f.offset + f.type.size ≤ layout.size
  apart : layout.fields.Pairwise fun f g =>
    f.offset + f.type.size ≤ g.offset ∨ g.offset + g.type.size ≤ f.offset
  mask_inside : ∀ place, layout.maskAt = some place → place + layout.maskSize ≤ layout.size
  mask_apart : ∀ place, layout.maskAt = some place → ∀ f ∈ layout.fields,
    f.offset + f.type.size ≤ place ∨ place + layout.maskSize ≤ f.offset

/-- Every value that is given can be packed. -/
structure Layout.Packable (layout : Layout) (attrs : Attributes) : Prop where
  fields : Bmdwire.Packable attrs layout.fields
  tail : ∀ tail, layout.tail = some tail → ∀ value, attrs tail.name = some value →
    ∃ bs, value.bytes? = some bs

/-- The given values are in the ranges of their fields, and the tail is given as octets. -/
structure Layout.InRange (layout : Layout) (attrs : Attributes) : Prop where
  fields : ∀ f ∈ layout.fields, ∀ value, attrs f.name = some value → f.type.InRange value
  tail : ∀ tail, layout.tail = some tail → ∀ value, attrs tail.name = some value →
    ∃ bs, value = .octets bs

/-- The data behind the fixed part. -/
def Layout.tailData (layout : Layout) (attrs : Attributes) : Bytes :=
  (layout.tail.bind fun tail =>
    (attrs tail.name).bind fun value => value.bytes?.map tail.data).getD []

/-- What the command carries. -/
structure Carries (layout : Layout) (attrs : Attributes) (command payload : Bytes) : Prop where
  header : command = packU16 command.length ++ [0, 0] ++ layout.code.octets ++ payload
  length_header : unpackU16 command 0 = command.length
  length_payload : payload.length = layout.size + (layout.tailData attrs).length
  mask : ∀ place, layout.maskAt = some place → ∀ i,
    (unpackBig (slice place layout.maskSize payload)).testBit i = true ↔
      ∃ f ∈ layout.fields, f.Given attrs ∧ f.maskBit = some i
  fields : ∀ f ∈ layout.fields, ∀ value, attrs f.name = some value →
    f.type.ReadsBack value (slice f.offset f.type.size payload)
  tail : payload.drop layout.size = layout.tailData attrs
  zeros : ∀ i < layout.size,
    (∀ f ∈ layout.fields, f.Given attrs → ¬ (f.offset ≤ i ∧ i < f.offset + f.type.size)) →
    (∀ place, layout.maskAt = some place → ¬ (place ≤ i ∧ i < place + layout.maskSize)) →
    payload[i]? = some 0

section
variable {layout : Layout} {attrs : Attributes}

/-- The writes into the fixed part, the mask last. -/
def Layout.writes (layout : Layout) (attrs : Attributes) : List (ℕ × Bytes) :=
  layout.fields.filterMap (·.write? attrs) ++
    layout.maskAt.toList.map (·, bigOctets layout.maskSize (maskOf attrs layout.fields))

theorem Layout.InRange.packable (h : layout.InRange attrs) : layout.Packable attrs where
  fields f hf value hvalue := (FieldType.pack_of_inRange (h.fields f hf value hvalue)).imp
    fun octets hoctets => hoctets.1
  tail tail htail value hvalue := (h.tail tail htail value hvalue).imp
    fun bs hbs => by rw [hbs, Value.bytes?]

theorem Layout.fits_writes (hproper : layout.Proper) :
    Fits (layout.writes attrs) layout.size := by
  intro w hw
  obtain hw | hw := List.mem_append.mp hw
  · obtain ⟨f, hf, hw⟩ := List.mem_filterMap.mp hw
    obtain ⟨-, hoffset, hlength⟩ := mem_write hw
    have := hproper.inside f hf
    omega
  · obtain ⟨place, hplace, rfl⟩ := List.mem_map.mp hw
    rw [length_bigOctets]
    exact hproper.mask_inside place (Option.mem_toList.mp hplace)

theorem Layout.apart_writes (hproper : layout.Proper) :
    (layout.writes attrs).Pairwise Apart := by
  refine List.pairwise_append.mpr ⟨?_, ?_, ?_⟩
  · refine (List.pairwise_filterMap).mpr (hproper.apart.imp_of_mem ?_)
    intro f g hf hg hapart v hv w hw
    obtain ⟨-, hv, hvlength⟩ := mem_write hv
    obtain ⟨-, hw, hwlength⟩ := mem_write hw
    rw [Apart, hv, hw, hvlength, hwlength]
    exact hapart
  · cases layout.maskAt <;> simp
  · intro v hv w hw
    obtain ⟨f, hf, hv⟩ := List.mem_filterMap.mp hv
    obtain ⟨place, hplace, rfl⟩ := List.mem_map.mp hw
    obtain ⟨-, hv, hvlength⟩ := mem_write hv
    rw [Apart, hv, hvlength, length_bigOctets]
    exact hproper.mask_apart place (Option.mem_toList.mp hplace) f hf

/-- The tail is put behind the buffer. -/
theorem packFields_tail (hpackable : layout.Packable attrs) (buf : Bytes) (mask : ℕ) :
    Send.packFields (layout.tail.toList.map (·.written attrs)) buf mask =
      some (buf ++ layout.tailData attrs, mask) := by
  unfold Layout.tailData
  cases htail : layout.tail with
  | none => simp [Send.packFields]
  | some tail =>
    cases hvalue : attrs tail.name with
    | none => simp [Send.packFields, Tail.written, hvalue]
    | some value =>
      obtain ⟨bs, hbs⟩ := hpackable.tail tail htail value hvalue
      simp [Send.packFields, Send.packField, Tail.written, hvalue, hbs]

/-- A write before the tail does not touch it. -/
theorem splice_append {offset : ℕ} {octets buf rest : Bytes}
    (h : offset + octets.length ≤ buf.length) :
    splice offset octets (buf ++ rest) = splice offset octets buf ++ rest := by
  simp only [splice]
  rw [List.take_append_of_le_length (by omega), List.drop_append_of_le_length h]
  simp

/-- The fixed part keeps its size. -/
theorem length_fixed {writes : List (ℕ × Bytes)} {size : ℕ} (h : Fits writes size) :
    (spliceAll writes (List.replicate size (0 : UInt8))).length = size := by
  refine (Library.length_spliceAll ?_).trans (List.length_replicate ..)
  rwa [List.length_replicate]

/-- The payload: the writes over zeros, and the tail behind them. -/
def Layout.payload (layout : Layout) (attrs : Attributes) : Bytes :=
  spliceAll (layout.writes attrs) (List.replicate layout.size 0) ++ layout.tailData attrs

theorem Layout.length_payload (hproper : layout.Proper) :
    (layout.payload attrs).length = layout.size + (layout.tailData attrs).length := by
  rw [payload, List.length_append, length_fixed (fits_writes hproper)]

/-- The mask fits its width, where there is one. -/
def Layout.MaskFits (layout : Layout) (attrs : Attributes) : Prop :=
  ∀ place, layout.maskAt = some place → maskOf attrs layout.fields < 256 ^ layout.maskSize

theorem Layout.buffer_send (hproper : layout.Proper) (hpackable : layout.Packable attrs) :
    (layout.send attrs).buffer = some (layout.payload attrs) ∧ layout.MaskFits attrs ∨
      (layout.send attrs).buffer = none ∧ ¬ layout.MaskFits attrs := by
  have hfields : ∀ f ∈ layout.fields,
      f.offset + f.type.size ≤ (List.replicate layout.size (0 : UInt8)).length := by
    intro f hf
    rw [List.length_replicate]
    exact hproper.inside f hf
  have hloop : Send.packFields (layout.send attrs).fields
      (List.replicate (layout.send attrs).size 0) 0 =
      some (spliceAll (layout.fields.filterMap (·.write? attrs)) (List.replicate layout.size 0) ++
        layout.tailData attrs, maskOf attrs layout.fields) := by
    refine (packFields_map_written hpackable.fields hfields).trans ?_
    rw [packFields_tail hpackable, Nat.zero_or]
  rw [Send.buffer, hloop, Option.bind_some]
  cases hmask : layout.maskAt with
  | none =>
    left
    refine ⟨?_, fun place hplace => ?_⟩
    · simp [Layout.send, hmask, Layout.payload, Layout.writes]
    · rw [hmask] at hplace
      cases hplace
  | some place =>
    have hsend : (layout.send attrs).maskAt = some place := hmask
    have hsize : (layout.send attrs).maskSize = layout.maskSize := rfl
    simp only [hsend, hsize]
    by_cases hfits : maskOf attrs layout.fields < 256 ^ layout.maskSize
    · left
      have hpack := packBig_eq_some.mpr ⟨hfits, rfl⟩
      have hinside := hproper.mask_inside place hmask
      have hlength : (spliceAll (layout.fields.filterMap (·.write? attrs))
          (List.replicate layout.size (0 : UInt8))).length = layout.size :=
        length_fixed fun w hw => fits_writes hproper w (List.mem_append_left _ hw)
      refine ⟨?_, fun _ _ => hfits⟩
      rw [hpack, Option.bind_some, packInto_eq_splice (by
        rw [List.length_append, length_bigOctets, hlength]
        omega), splice_append (by rw [length_bigOctets, hlength]; exact hinside)]
      simp [Layout.payload, Layout.writes, hmask, spliceAll]
    · right
      refine ⟨?_, fun h => hfits (h place hmask)⟩
      rw [Send.packBig, if_neg hfits, Option.bind_none]

theorem unpackU16_frame {code : WireCode} {body command : Bytes}
    (h : frameCommand code body = some command) : body.length + 8 < 0x10000 ∧
      command.length = body.length + 8 ∧
      command = packU16 command.length ++ [0, 0] ++ code.octets ++ body ∧
      unpackU16 command 0 = command.length := by
  unfold frameCommand at h
  split at h
  · rename_i hlt
    obtain rfl := Option.some.inj h
    have hlength : (packU16 (body.length + 8) ++ [0, 0] ++ code.octets ++ body).length =
        body.length + 8 := by
      simp [packU16, code.length_octets]
      omega
    refine ⟨hlt, hlength, by rw [hlength], ?_⟩
    rw [hlength]
    simp [packU16, unpackU16]
    omega
  · cases h

/-- A place behind the header of a command. -/
theorem slice_command {code : WireCode} {body command : Bytes}
    (h : frameCommand code body = some command) (offset size : ℕ) :
    slice (8 + offset) size command = slice offset size body := by
  obtain ⟨-, -, hheader, -⟩ := unpackU16_frame h
  have hlength : (packU16 command.length ++ [0, 0] ++ code.octets).length = 8 := by
    simp [packU16, code.length_octets]
  rw [slice, slice, ← List.drop_drop, hheader, ← hlength, List.drop_left]

/-- What is written is read from its place in the payload. -/
theorem Layout.slice_payload (hproper : layout.Proper) {w : ℕ × Bytes}
    (hw : w ∈ layout.writes attrs) : slice w.1 w.2.length (layout.payload attrs) = w.2 := by
  have hwrites := @fits_writes _ attrs hproper
  have hzeros : Fits (layout.writes attrs) (List.replicate layout.size (0 : UInt8)).length := by
    rwa [List.length_replicate]
  have hfixed := length_fixed hwrites
  have hinside := hwrites w hw
  rw [payload, slice, List.drop_append_of_le_length (by omega),
    List.take_append_of_le_length (by rw [List.length_drop]; omega)]
  exact Library.slice_spliceAll hzeros (apart_writes hproper) hw

/-- A given value stands packed in its place. -/
theorem Layout.pack_slice (hproper : layout.Proper) (hpackable : layout.Packable attrs)
    {f : Field} (hf : f ∈ layout.fields) {value : Value} (hvalue : attrs f.name = some value) :
    f.type.pack value = some (slice f.offset f.type.size (layout.payload attrs)) := by
  obtain ⟨octets, hpack⟩ := hpackable.fields f hf value hvalue
  have hmem : (f.offset, octets) ∈ layout.writes attrs := by
    refine List.mem_append_left _ (List.mem_filterMap.mpr ⟨f, hf, ?_⟩)
    rw [Field.write?, hvalue, Option.bind_some, hpack, Option.map_some]
  have hslice := slice_payload hproper hmem
  rw [FieldType.length_of_pack hpack] at hslice
  rw [hpack, hslice]

/-- The payload has what the command is to carry. -/
theorem Layout.carries (hproper : layout.Proper) (hrange : layout.InRange attrs)
    (hfits : layout.MaskFits attrs) {command : Bytes}
    (h : frameCommand layout.code (layout.payload attrs) = some command) :
    Carries layout attrs command (layout.payload attrs) := by
  obtain ⟨-, -, hheader, hlength⟩ := unpackU16_frame h
  have hfixed := length_fixed (@fits_writes _ attrs hproper)
  refine ⟨hheader, hlength, length_payload hproper, ?_, ?_, ?_, ?_⟩
  · intro place hplace i
    have hmem : (place, bigOctets layout.maskSize (maskOf attrs layout.fields)) ∈
        layout.writes attrs := by
      refine List.mem_append_right _ ?_
      rw [hplace]
      exact List.mem_singleton_self _
    have hmask := slice_payload hproper hmem
    rw [length_bigOctets] at hmask
    rw [hmask, unpackBig_bigOctets, Nat.mod_eq_of_lt (hfits place hplace), testBit_maskOf]
  · intro f hf value hvalue
    obtain ⟨octets, hpack, hreads⟩ := FieldType.pack_of_inRange (hrange.fields f hf _ hvalue)
    have hplaced := pack_slice hproper hrange.packable hf hvalue
    rwa [← Option.some.inj (hpack.symm.trans hplaced)]
  · rw [payload, List.drop_append_of_le_length hfixed.ge, List.drop_of_length_le hfixed.le,
      List.nil_append]
  · intro i hi hfields hmask
    have hzeros : Fits (layout.writes attrs) (List.replicate layout.size (0 : UInt8)).length := by
      rw [List.length_replicate]
      exact fits_writes hproper
    rw [payload, List.getElem?_append_left (by omega), Library.getElem?_spliceAll hzeros,
      List.getElem?_replicate_of_lt hi]
    intro w hw hcovers
    obtain hw | hw := List.mem_append.mp hw
    · obtain ⟨f, hf, hw⟩ := List.mem_filterMap.mp hw
      obtain ⟨hgiven, hoffset, hsize⟩ := mem_write hw
      rw [Covers, hoffset, hsize] at hcovers
      exact hfields f hf hgiven hcovers
    · obtain ⟨place, hplace, rfl⟩ := List.mem_map.mp hw
      rw [Covers, length_bigOctets] at hcovers
      exact hmask place (Option.mem_toList.mp hplace) hcovers

/-- The command of a layout is made exactly when its length fits the header and its mask the
width of the mask, and carries the values that are given. -/
theorem getCommand_carries (hproper : layout.Proper) (hrange : layout.InRange attrs) :
    ((Outgoing.declared (layout.send attrs)).getCommand ≠ none ↔
      layout.size + (layout.tailData attrs).length + 8 < 0x10000 ∧ layout.MaskFits attrs) ∧
    ∀ command, (Outgoing.declared (layout.send attrs)).getCommand = some command →
      ∃ payload, Carries layout attrs command payload := by
  have hlength := @Layout.length_payload _ attrs hproper
  have hcode : (Outgoing.declared (layout.send attrs)).code = layout.code := rfl
  rw [Outgoing.getCommand, Outgoing.body, hcode]
  obtain ⟨hbuffer, hfits⟩ | ⟨hbuffer, hfits⟩ := Layout.buffer_send hproper hrange.packable
  · rw [hbuffer, Option.bind_some]
    constructor
    · rw [frameCommand, hlength]
      split
      · rename_i hlt
        exact iff_of_true (by simp) ⟨hlt, hfits⟩
      · rename_i hlt
        exact iff_of_false (by simp) fun h => hlt h.1
    · intro command hcommand
      exact ⟨_, Layout.carries hproper hrange hfits hcommand⟩
  · rw [hbuffer, Option.bind_none]
    exact ⟨iff_of_false (by simp) fun h => hfits h.2, fun command hcommand => by cases hcommand⟩

end

/-! ## The color generator -/

/-- `ColorGeneratorCommand` -/
def colorGeneratorCommand : Layout where
  code := ⟨[0x43, 0x43, 0x6c, 0x56], rfl⟩
  size := 8
  maskAt := some 0
  maskSize := 1
  fields := [⟨"index", 1, none, .u8 (.float 1)⟩, ⟨"hue", 2, some 0, .u16 (.int 10)⟩,
    ⟨"saturation", 4, some 1, .u16 (.int 1000)⟩, ⟨"luma", 6, some 2, .u16 (.int 1000)⟩]
  tail := none

/-- The floating-point number that `0.0005` denotes. -/
def smallLuma : ℚ := nearestDouble (5 / 10000)

/-- A luma of `0.0005` on the first color generator. -/
def smallLumaAttrs : Attributes := fun name =>
  if name = "index" then some (.int 0)
  else if name = "luma" then some (.float (.finite smallLuma))
  else none

theorem colorGenerator_proper : colorGeneratorCommand.Proper := by
  constructor <;> decide

theorem smallLuma_inRange : colorGeneratorCommand.InRange smallLumaAttrs := by
  refine ⟨?_, fun tail htail => by cases htail⟩
  intro f hf value hvalue
  simp only [colorGeneratorCommand, List.mem_cons, List.not_mem_nil, or_false] at hf
  obtain rfl | rfl | rfl | rfl := hf
  · obtain rfl : Value.int 0 = value := Option.some.inj hvalue
    exact ⟨0, by decide +kernel, by decide⟩
  · cases hvalue
  · cases hvalue
  · obtain rfl : Value.float (.finite smallLuma) = value := Option.some.inj hvalue
    exact ⟨0, by decide +kernel, by decide⟩

/-- The command for the luma, which is packed as zero. -/
def smallLumaCommand : Bytes := [0, 16, 0, 0, 0x43, 0x43, 0x6c, 0x56, 4, 0, 0, 0, 0, 0, 0, 0]

theorem getCommand_smallLuma :
    (Outgoing.declared (colorGeneratorCommand.send smallLumaAttrs)).getCommand =
      some smallLumaCommand := by
  decide +kernel

theorem getCommand_carries_luma :
    ∃ payload, Carries colorGeneratorCommand smallLumaAttrs smallLumaCommand payload :=
  (getCommand_carries colorGenerator_proper smallLuma_inRange).2 _ getCommand_smallLuma

/-- The exact product is nearer to one than to the zero that is packed: the product in floating
point is one half, and half is rounded to the even number. -/
theorem luma_misses_nearest :
    colorGeneratorCommand.Proper ∧ colorGeneratorCommand.InRange smallLumaAttrs ∧
      (Outgoing.declared (colorGeneratorCommand.send smallLumaAttrs)).getCommand =
        some smallLumaCommand ∧
      unpackBig (slice 6 2 (smallLumaCommand.drop 8)) = 0 ∧
      |1 - smallLuma * 1000| < |0 - smallLuma * 1000| :=
  ⟨colorGenerator_proper, smallLuma_inRange, getCommand_smallLuma, by decide, by decide +kernel⟩

end Bmdwire
