import Bmdwire.Analysis.LayoutPacking
import Bmdwire.Program.FairlightSetters

/-!
# Fairlight setters on the wire

Whether the command of a call is made, and carries for every number the nearest one of the
range of its field, told by the numbers (`serialises_iff`). The master and the strip clamp
their levels; the compressor and the expander clamp nothing, and integers are truncated and
not clamped, so that a number out of range is sent as it is or cannot be packed.
-/

set_option autoImplicit false

namespace Bmdwire.Fairlight

open Library (FloatVal nearestDouble roundHalfEven truncate clamp slice Nearest Within MissesTie
  SameSide)

/-! ## Reading what is packed -/

/-- The octets before the item. -/
def offsetOf (items : List Item) (k : ℕ) : ℕ := ((items.take k).map Item.size).sum

/-- The value of an item can be packed. -/
def Item.Fits : Item → Prop
  | pad _ => True
  | number size signed value => 0 < size ∧ NumberFits size signed value
  | octets _ => True

theorem Item.pack_of_fits {item : Item} (h : item.Fits) : ∃ bs, item.pack = some bs := by
  cases item with
  | pad size => exact ⟨_, rfl⟩
  | number size signed value => exact (packNumber_of_fits h.1 h.2).imp fun bs hbs => hbs.1
  | octets bs => exact ⟨bs, rfl⟩

theorem Item.length_of_pack {item : Item} {bs : Bytes} (h : item.pack = some bs) :
    bs.length = item.size := by
  cases item with
  | pad size =>
    obtain rfl := Option.some.inj h
    exact List.length_replicate ..
  | number size signed value => exact length_of_packNumber h
  | octets bs' =>
    obtain rfl := Option.some.inj h
    rfl

theorem structPack_of_fits {items : List Item} (h : ∀ item ∈ items, item.Fits) :
    ∃ bs, structPack items = some bs := by
  induction items with
  | nil => exact ⟨[], rfl⟩
  | cons item items ih =>
    obtain ⟨first, hfirst⟩ := Item.pack_of_fits (h item (List.mem_cons_self ..))
    obtain ⟨rest, hrest⟩ := ih fun other hother => h other (List.mem_cons_of_mem _ hother)
    exact ⟨first ++ rest, by rw [structPack, hfirst, hrest]; rfl⟩

theorem length_structPack {items : List Item} {bs : Bytes} (h : structPack items = some bs) :
    bs.length = (items.map Item.size).sum := by
  induction items generalizing bs with
  | nil =>
    obtain rfl := Option.some.inj h
    rfl
  | cons item items ih =>
    obtain ⟨first, hfirst, h⟩ := Option.bind_eq_some_iff.mp h
    obtain ⟨rest, hrest, rfl⟩ := Option.map_eq_some_iff.mp h
    rw [List.length_append, Item.length_of_pack hfirst, ih hrest, List.map_cons, List.sum_cons]

/-- A packed item stands at its offset. -/
theorem slice_structPack {items : List Item} {bs : Bytes} (h : structPack items = some bs) {k : ℕ}
    {item : Item} (hk : items[k]? = some item) :
    item.pack = some (slice (offsetOf items k) item.size bs) := by
  induction items generalizing bs k with
  | nil => cases hk
  | cons first items ih =>
    obtain ⟨octets, hoctets, h⟩ := Option.bind_eq_some_iff.mp h
    obtain ⟨rest, hrest, rfl⟩ := Option.map_eq_some_iff.mp h
    have hlength := Item.length_of_pack hoctets
    cases k with
    | zero =>
      obtain rfl := Option.some.inj hk
      rw [hoctets, ← hlength]
      simp [offsetOf, slice]
    | succ k =>
      rw [ih hrest hk, slice, slice, offsetOf, offsetOf, List.take_succ_cons, List.map_cons,
        List.sum_cons, ← hlength, ← List.drop_drop, List.drop_left]

/-- A packed number is read back. -/
theorem unpackNumber_structPack {items : List Item} {bs : Bytes} (h : structPack items = some bs)
    {k size : ℕ} {signed : Bool} {value : ℤ} (hsize : 0 < size)
    (hk : items[k]? = some (.number size signed value)) :
    unpackNumber signed (slice (offsetOf items k) size bs) = value := by
  have hpack := slice_structPack h hk
  obtain ⟨octets, hoctets, -, hread⟩ := packNumber_of_fits hsize (fits_of_packNumber hpack)
  obtain rfl := Option.some.inj (hoctets.symm.trans hpack)
  exact hread

/-- A number of a body, in the command. -/
theorem unpackNumber_command {code : WireCode} {items : List Item} {bs command : Bytes}
    (hbody : structPack items = some bs) (hframe : frameCommand code bs = some command)
    {k place size : ℕ} {signed : Bool} {value : ℤ} (hsize : 0 < size)
    (hk : items[k]? = some (.number size signed value)) (hplace : offsetOf items k = place) :
    unpackNumber signed (slice (8 + place) size command) = value := by
  rw [slice_command hframe, ← hplace]
  exact unpackNumber_structPack hbody hsize hk

/-! ## One number -/

namespace Number

/-- The number is finite. -/
def Finite (v : Number) : Prop := ∀ x, v = float x → ∃ q, x = .finite q

/-- The number that a finite one stands for. -/
def exact : Number → ℚ
  | int n => n
  | float (.finite q) => q
  | float _ => 0

/-- The number that `float(value)` stands for. -/
def double : Number → ℚ
  | int n => nearestDouble n
  | float (.finite q) => q
  | float _ => 0

/-- The floating-point product `float(value) * 100`. -/
def product (v : Number) : ℚ := nearestDouble (v.double * 100)

/-- Neither `float(value)` nor the product overflows. -/
def Scales (v : Number) : Prop :=
  (∀ n, v = int n → |nearestDouble n| < 2 ^ 1024) ∧ |v.product| < 2 ^ 1024

variable {v : Number}

theorem toInt_of_finite (h : v.Finite) : v.toInt = some (truncate v.exact) := by
  cases v with
  | int n =>
    rw [toInt, exact, truncate]
    split <;> simp
  | float x =>
    obtain ⟨q, rfl⟩ := h x rfl
    rfl

theorem toBool_of_finite (h : v.Finite) : v.toBool = decide (v.exact ≠ 0) := by
  cases v with
  | int n => simp [toBool, exact]
  | float x =>
    obtain ⟨q, rfl⟩ := h x rfl
    by_cases hq : q = 0 <;> simp [toBool, exact, hq]

/-- `float(n)`, by cases on whether it overflows. -/
theorem floatOf_eq (n : ℤ) :
    floatOf n = if |nearestDouble n| < 2 ^ 1024 then some (nearestDouble n) else none := by
  delta floatOf FloatVal.ofRat
  by_cases h : |nearestDouble n| < 2 ^ 1024
  · rw [if_pos h, if_pos h]
  · rw [if_neg h, if_neg h]

theorem toFloat_eq_some (h : v.Finite) {x : FloatVal} : v.toFloat = some x ↔
    (∀ n, v = int n → |nearestDouble n| < 2 ^ 1024) ∧ x = .finite v.double := by
  cases v with
  | int n =>
    simp only [toFloat, floatOf_eq, double, int.injEq, forall_eq']
    by_cases hn : |nearestDouble n| < 2 ^ 1024
    · simp [hn, eq_comm]
    · simp [hn]
  | float y =>
    obtain ⟨q, rfl⟩ := h y rfl
    simp [toFloat, double, eq_comm]

theorem hundredths_finite {q : ℚ} {w : ℤ} : hundredths (.finite q) = some w ↔
    |nearestDouble (q * 100)| < 2 ^ 1024 ∧ w = roundHalfEven (nearestDouble (q * 100)) := by
  have hhundred : floatOf 100 = some 100 := by decide +kernel
  rw [hundredths, scaledFloat, hhundred, Option.bind_some]
  simp only [timesFloat, FloatVal.ofRat]
  by_cases hq : |nearestDouble (q * 100)| < 2 ^ 1024
  · rw [if_pos hq]
    simp [roundFloat?, hq, eq_comm]
  · rw [if_neg hq]
    simp [roundFloat?, hq]

/-- `int(round(float(value) * 100))` -/
def toHundredths (v : Number) : Option ℤ := v.toFloat.bind hundredths

theorem toHundredths_eq_some (h : v.Finite) {w : ℤ} :
    v.toHundredths = some w ↔ v.Scales ∧ w = roundHalfEven v.product := by
  rw [toHundredths, Option.bind_eq_some_iff]
  constructor
  · rintro ⟨x, hx, hw⟩
    obtain ⟨hconverts, rfl⟩ := (toFloat_eq_some h).mp hx
    obtain ⟨hproduct, rfl⟩ := hundredths_finite.mp hw
    exact ⟨⟨hconverts, hproduct⟩, rfl⟩
  · rintro ⟨⟨hconverts, hproduct⟩, rfl⟩
    exact ⟨_, (toFloat_eq_some h).mpr ⟨hconverts, rfl⟩, hundredths_finite.mpr ⟨hproduct, rfl⟩⟩

theorem dbToWire_eq_some (h : v.Finite) {lo hi w : ℤ} :
    dbToWire lo hi v = some w ↔ v.Scales ∧ w = clamp lo hi (roundHalfEven v.product) := by
  have hclamped : dbToWire lo hi v = v.toHundredths.map (clamp lo hi) := by
    rw [toHundredths, dbToWire]
    cases hfloat : v.toFloat with
    | none => rfl
    | some x =>
      obtain ⟨-, rfl⟩ := (toFloat_eq_some h).mp hfloat
      cases hx : hundredths (.finite v.double) <;> simp [hx]
  rw [hclamped, Option.map_eq_some_iff]
  constructor
  · rintro ⟨raw, hraw, rfl⟩
    obtain ⟨hscales, rfl⟩ := (toHundredths_eq_some h).mp hraw
    exact ⟨hscales, rfl⟩
  · rintro ⟨hscales, rfl⟩
    exact ⟨_, (toHundredths_eq_some h).mpr ⟨hscales, rfl⟩, rfl⟩

theorem panToWire_eq (v : Number) :
    panToWire v = v.toHundredths.map (clamp (-10000) 10000) := by
  rw [toHundredths, panToWire]
  cases v.toFloat with
  | none => rfl
  | some x => cases hx : hundredths x <;> simp [hx]

theorem panToWire_eq_some (h : v.Finite) {w : ℤ} : panToWire v = some w ↔
    v.Scales ∧ w = clamp (-10000) 10000 (roundHalfEven v.product) := by
  rw [panToWire_eq, Option.map_eq_some_iff]
  constructor
  · rintro ⟨raw, hraw, rfl⟩
    obtain ⟨hscales, rfl⟩ := (toHundredths_eq_some h).mp hraw
    exact ⟨hscales, rfl⟩
  · rintro ⟨hscales, rfl⟩
    exact ⟨_, (toHundredths_eq_some h).mpr ⟨hscales, rfl⟩, rfl⟩

/-- The product keeps to the sides of the half integers. -/
theorem sameSide_product (v : Number) : SameSide (v.exact * 100) v.product := by
  refine Library.sameSide_product (by norm_num) ?_
  cases v with
  | int n =>
    by_cases hn : |n| < 2 ^ 53
    · left
      have hexact := Library.nearestDouble_exact hn (Nat.zero_le 1074)
      rwa [pow_zero, div_one] at hexact
    · right
      refine ⟨rfl, ?_⟩
      have hn : (2 : ℤ) ^ 53 ≤ |n| := not_lt.mp hn
      rw [exact]
      exact_mod_cast hn
  | float x => cases x <;> exact .inl rfl

end Number

/-! ## Exactly when one number is served -/

section
variable {v : Number} {lo hi : ℤ}

/-- A level that is clamped is served. -/
def ClampedOk (lo hi : ℤ) (v : Number) : Prop :=
  v.Scales ∧ ¬ MissesTie lo hi (v.exact * 100) v.product

/-- A level that is not clamped is served. -/
def UnclampedOk (lo hi : ℤ) (v : Number) : Prop :=
  v.Scales ∧ lo - 1 / 2 ≤ v.product ∧ v.product ≤ hi + 1 / 2 ∧
    ¬ MissesTie lo hi (v.exact * 100) v.product

/-- An integer that is truncated and not clamped is served. -/
def WholeOk (lo hi : ℤ) (v : Number) : Prop :=
  lo - 1 < v.exact ∧ v.exact < hi + 1 ∧
    (v.exact ≤ lo ∨ hi ≤ v.exact ∨ |(truncate v.exact : ℚ) - v.exact| ≤ 1 / 2)

/-- A truth value is served. -/
def FlagOk (v : Number) : Prop := v.exact = 0 ∨ 1 / 2 ≤ v.exact

/-- The mode of an expander is served. -/
def ModeOk (v : Number) : Prop := -1 < v.exact ∧ v.exact ≤ 1 / 2 ∨ 1 ≤ v.exact

/-- The option of a mix is served. -/
def MixOk (v : Number) : Prop :=
  1 ≤ v.exact ∧ v.exact ≤ 3 / 2 ∨ 2 ≤ v.exact ∧ v.exact < 3 ∨ 4 ≤ v.exact ∧ v.exact < 5

/-- The values of `FAIRLIGHT_MIX_OPTIONS`. -/
def MixLegal (m : ℤ) : Prop := m = 1 ∨ m = 2 ∨ m = 4

theorem clamped_iff (h : v.Finite) (hle : lo ≤ hi) (hlo : |lo| ≤ 2 ^ 38) (hhi : |hi| ≤ 2 ^ 38) :
    (∃ w, dbToWire lo hi v = some w ∧ Nearest (Within lo hi) (v.exact * 100) w) ↔
      ClampedOk lo hi v := by
  have hiff := Library.nearest_clamp_iff v.sameSide_product hle hlo hhi
  constructor
  · rintro ⟨w, hw, hnear⟩
    obtain ⟨hscales, rfl⟩ := (Number.dbToWire_eq_some h).mp hw
    exact ⟨hscales, hiff.mp hnear⟩
  · rintro ⟨hscales, htie⟩
    exact ⟨_, (Number.dbToWire_eq_some h).mpr ⟨hscales, rfl⟩, hiff.mpr htie⟩

theorem pan_iff (h : v.Finite) :
    (∃ w, panToWire v = some w ∧ Nearest (Within (-10000) 10000) (v.exact * 100) w) ↔
      ClampedOk (-10000) 10000 v := by
  have hiff := @Library.nearest_clamp_iff (-10000) 10000 _ _ v.sameSide_product (by decide)
    (by decide) (by decide)
  constructor
  · rintro ⟨w, hw, hnear⟩
    obtain ⟨hscales, rfl⟩ := (Number.panToWire_eq_some h).mp hw
    exact ⟨hscales, hiff.mp hnear⟩
  · rintro ⟨hscales, htie⟩
    exact ⟨_, (Number.panToWire_eq_some h).mpr ⟨hscales, rfl⟩, hiff.mpr htie⟩

theorem unclamped_iff (h : v.Finite) (hle : lo ≤ hi) (hlo : |lo| ≤ 2 ^ 38) (hhi : |hi| ≤ 2 ^ 38)
    (heven : lo % 2 = 0) (heven' : hi % 2 = 0) :
    (∃ w, v.toHundredths = some w ∧ Nearest (Within lo hi) (v.exact * 100) w) ↔
      UnclampedOk lo hi v := by
  have hiff := Library.nearest_clamp_iff v.sameSide_product hle hlo hhi
  have hwithin := @Library.within_roundHalfEven lo hi v.product heven heven'
  constructor
  · rintro ⟨w, hw, hnear⟩
    obtain ⟨hscales, rfl⟩ := (Number.toHundredths_eq_some h).mp hw
    obtain ⟨hlow, hhigh⟩ := hwithin.mp hnear.1
    rw [← Library.clamp_of_within hnear.1] at hnear
    exact ⟨hscales, hlow, hhigh, hiff.mp hnear⟩
  · rintro ⟨hscales, hlow, hhigh, htie⟩
    refine ⟨_, (Number.toHundredths_eq_some h).mpr ⟨hscales, rfl⟩, ?_⟩
    rw [← Library.clamp_of_within (hwithin.mpr ⟨hlow, hhigh⟩)]
    exact hiff.mpr htie

theorem whole_iff (h : v.Finite) (hlo : lo ≤ 0) (hhi : 0 ≤ hi) :
    (∃ w, v.toInt = some w ∧ Nearest (Within lo hi) v.exact w) ↔ WholeOk lo hi v := by
  simp only [Number.toInt_of_finite h, Option.some.injEq, exists_eq_left']
  exact Library.nearest_truncate_iff hlo hhi

theorem flag_iff (h : v.Finite) :
    Nearest (Within 0 1) v.exact v.toBool.toInt ↔ FlagOk v := by
  rw [Number.toBool_of_finite h, FlagOk]
  by_cases hzero : v.exact = 0
  · refine iff_of_true ?_ (.inl hzero)
    simp [Nearest, Within, hzero]
  · rw [or_iff_right hzero]
    simp only [ne_eq, hzero, not_false_eq_true, decide_true, Bool.toInt_true]
    exact Library.nearest_one_iff

theorem mode_iff (h : v.Finite) :
    (∃ w, (Mode.number v).toInt = some w ∧ Nearest (Within 0 1) v.exact w) ↔ ModeOk v := by
  simp only [Mode.toInt, Number.toInt_of_finite h, Option.map_some, Option.some.injEq,
    exists_eq_left', ModeOk]
  have hzero : Within 0 0 (truncate v.exact) ↔ -1 < v.exact ∧ v.exact < 1 := by
    simpa using @Library.truncate_within 0 0 v.exact le_rfl le_rfl
  have htruncate : truncate v.exact ≠ 0 ↔ ¬ (-1 < v.exact ∧ v.exact < 1) := by
    rw [← hzero, Within]
    omega
  by_cases hsmall : -1 < v.exact ∧ v.exact < 1
  · rw [if_neg (by rw [htruncate, not_not]; exact hsmall), Library.nearest_zero_iff]
    constructor
    · exact fun hle => .inl ⟨hsmall.1, hle⟩
    · rintro (⟨-, hle⟩ | hge)
      · exact hle
      · linarith [hsmall.2]
  · rw [if_pos (htruncate.mpr hsmall), Library.nearest_one_iff]
    rw [not_and_or, not_lt, not_lt] at hsmall
    constructor
    · intro hge
      obtain hneg | hone := hsmall
      · linarith
      · exact .inr hone
    · rintro (⟨hgt, hle⟩ | hge)
      · obtain hneg | hone := hsmall <;> linarith
      · linarith

theorem mix_iff (h : v.Finite) :
    (∃ w, v.toInt = some w ∧ Nearest MixLegal v.exact w) ↔ MixOk v := by
  simp only [Number.toInt_of_finite h, Option.some.injEq, exists_eq_left']
  have hone := @Library.truncate_eq_iff 1 v.exact (by decide)
  have htwo := @Library.truncate_eq_iff 2 v.exact (by decide)
  have hfour := @Library.truncate_eq_iff 4 v.exact (by decide)
  push_cast at hone htwo hfour
  constructor
  · rintro ⟨hlegal | hlegal | hlegal, hnear⟩
    · have hdistance := sq_le_sq.mpr (hnear 2 (.inr (.inl rfl)))
      rw [hlegal] at hdistance
      push_cast at hdistance
      exact .inl ⟨(hone.mp hlegal).1, by nlinarith⟩
    · obtain ⟨hlow, hhigh⟩ := htwo.mp hlegal
      exact .inr (.inl ⟨hlow, by linarith⟩)
    · obtain ⟨hlow, hhigh⟩ := hfour.mp hlegal
      exact .inr (.inr ⟨hlow, by linarith⟩)
  · rintro (⟨hlow, hhigh⟩ | ⟨hlow, hhigh⟩ | ⟨hlow, hhigh⟩)
    · rw [hone.mpr ⟨hlow, by linarith⟩]
      refine ⟨.inl rfl, fun m hm => sq_le_sq.mp ?_⟩
      obtain rfl | rfl | rfl := hm <;> push_cast <;> nlinarith
    · rw [htwo.mpr ⟨hlow, by linarith⟩]
      refine ⟨.inr (.inl rfl), fun m hm => sq_le_sq.mp ?_⟩
      obtain rfl | rfl | rfl := hm <;> push_cast <;> nlinarith
    · rw [hfour.mpr ⟨hlow, by linarith⟩]
      refine ⟨.inr (.inr rfl), fun m hm => sq_le_sq.mp ?_⟩
      obtain rfl | rfl | rfl := hm <;> push_cast <;> nlinarith

end

/-! ## What may be left out -/

section
variable {α : Type} {convert : α → Option ℤ} {near : α → ℤ → Prop} {o : Option α} {w : Option ℤ}

/-- An argument that may be left out is converted, and what is sent for it is near. -/
def ServedBy (convert : α → Option ℤ) (near : α → ℤ → Prop) (o : Option α) (w : Option ℤ) :
    Prop := given convert o = some w ∧ ∀ v ∈ o, near v (w.getD 0)

theorem servedBy_iff {ok : α → Prop}
    (h : ∀ v ∈ o, (∃ w, convert v = some w ∧ near v w) ↔ ok v) :
    (∃ w, ServedBy convert near o w) ↔ ∀ v ∈ o, ok v := by
  cases o with
  | none => simp [ServedBy, given]
  | some v =>
    have hv := h v rfl
    simp only [ServedBy, given, Option.mem_some, forall_eq', ← hv]
    constructor
    · rintro ⟨w, hw, hnear⟩
      obtain ⟨y, hy, rfl⟩ := Option.map_eq_some_iff.mp hw
      exact ⟨y, hy, hnear⟩
    · rintro ⟨y, hy, hnear⟩
      exact ⟨some y, by rw [hy, Option.map_some], hnear⟩

/-- What is sent has a property that zero and all that is near have. -/
theorem ServedBy.getD {P : ℤ → Prop} (h : ServedBy convert near o w) (hzero : P 0)
    (hnear : ∀ v y, near v y → P y) : P (w.getD 0) := by
  cases o with
  | none =>
    obtain rfl := Option.some.inj h.1
    exact hzero
  | some v => exact hnear v _ (h.2 v rfl)

/-- Two conversions, one after the other. -/
theorem given_bind {β : Type} {f : α → Option β} {g : β → Option ℤ} :
    given (fun v => (f v).bind g) o = some w ↔
      ∃ x, given f o = some x ∧ given g x = some w := by
  cases o with
  | none => simp [given]
  | some v =>
    simp only [given, Option.map_eq_some_iff, Option.bind_eq_some_iff]
    constructor
    · rintro ⟨y, ⟨x, hx, hy⟩, rfl⟩
      exact ⟨some x, ⟨x, hx, rfl⟩, by simp only [hy, Option.map_some]⟩
    · rintro ⟨x, ⟨x', hx, rfl⟩, hw⟩
      obtain ⟨y, hy, rfl⟩ := Option.map_eq_some_iff.mp hw
      exact ⟨y, ⟨x', hx, hy⟩, rfl⟩

end

/-- A mask of no more than `n` bits. -/
theorem maskBits_lt {bits : List (ℕ × Bool)} {n : ℕ} (h : ∀ bit ∈ bits, bit.1 < n) :
    0 ≤ maskBits bits ∧ maskBits bits < 2 ^ n := by
  refine ⟨Int.natCast_nonneg _, ?_⟩
  have hfold : ∀ mask < 2 ^ n,
      bits.foldl (fun mask bit => if bit.2 then mask ||| 2 ^ bit.1 else mask) mask < 2 ^ n := by
    induction bits with
    | nil => exact fun mask hmask => hmask
    | cons bit bits ih =>
      intro mask hmask
      refine ih (fun other hother => h other (List.mem_cons_of_mem _ hother)) _ ?_
      have hbit := h bit (List.mem_cons_self ..)
      beta_reduce
      split
      · exact Nat.or_lt_two_pow hmask (Nat.pow_lt_pow_right (by norm_num) hbit)
      · exact hmask
  rw [maskBits]
  exact_mod_cast hfold 0 (by positivity)

end Bmdwire.Fairlight
