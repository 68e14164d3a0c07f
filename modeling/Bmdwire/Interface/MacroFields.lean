import Bmdwire.Program.MacroHelpers

/-!
# What the macro helpers read and write

One equation for each way a value goes from the parameters into text and back: numbers,
switches, names of sources, names from a table, and fixed-point scalars. The decoders' and
encoders' facts are put together from these.
-/

set_option autoImplicit false

namespace Bmdwire.Macros

open Library

/-! ## Results -/

section

variable {ε α β : Type}

theorem bind_eq_ok {x : Except ε α} {f : α → Except ε β} {b : β} :
    (x >>= f) = .ok b ↔ ∃ a, x = .ok a ∧ f a = .ok b := by
  cases x with
  | error e => simp [bind, Except.bind]
  | ok a => simp [bind, Except.bind]

theorem map_eq_ok {x : Except ε α} {f : α → β} {b : β} :
    x.map f = .ok b ↔ ∃ a, x = .ok a ∧ f a = b := by
  cases x with
  | error e => simp [Except.map]
  | ok a => simp [Except.map]

theorem pure_eq_ok {a b : α} : (pure a : Except ε α) = .ok b ↔ a = b :=
  ⟨fun h => Except.ok.inj h, fun h => h ▸ rfl⟩

-- not by `rfl`, which `simp` would leave to the kernel to unfold
@[simp] theorem ok_bind (a : α) (f : α → Except ε β) : (Except.ok a >>= f) = f a := by
  cases h : f a with
  | error e => exact h
  | ok b => exact h

@[simp] theorem pure_ok (a : α) : (pure a : Except ε α) = .ok a := rfl

@[simp] theorem map_ok (a : α) (f : α → β) : (Except.ok a : Except ε α).map f = .ok (f a) := rfl

end

/-! ## Octets -/

theorem byteAt_eq_ok {params : Bytes} {i : ℕ} {b : UInt8} :
    byteAt params i = .ok b ↔ params[i]? = some b := by
  unfold byteAt
  cases params[i]? with
  | none => simp
  | some b' => simp

/-- An octet that the parameters are long enough for. -/
theorem byteAt_of_lt {params : Bytes} {i : ℕ} (h : i < params.length) :
    ∃ b, byteAt params i = .ok b :=
  ⟨params[i], byteAt_eq_ok.mpr (List.getElem?_eq_getElem h)⟩

theorem unpackFrom_eq_ok {size offset n : ℕ} {buf : Bytes} :
    unpackFrom size buf offset = .ok n ↔ leRead size (buf.drop offset) = some n := by
  unfold unpackFrom
  cases leRead size (buf.drop offset) with
  | none => simp
  | some n' => simp

theorem unpackFrom_lt {size offset n : ℕ} {buf : Bytes} (h : unpackFrom size buf offset = .ok n) :
    n < 256 ^ size :=
  leRead_lt (unpackFrom_eq_ok.mp h)

theorem u16le_lt {offset n : ℕ} {buf : Bytes} (h : u16le buf offset = .ok n) : n < 0x10000 :=
  unpackFrom_lt h

theorem u32le_lt {offset n : ℕ} {buf : Bytes} (h : u32le buf offset = .ok n) : n < 0x100000000 :=
  unpackFrom_lt h

theorem u64le_lt {offset n : ℕ} {buf : Bytes} (h : u64le buf offset = .ok n) : n < 2 ^ 64 :=
  unpackFrom_lt h

/-- A number that was read leaves room for all before it. -/
theorem length_of_unpackFrom {size offset n : ℕ} {buf : Bytes} (hsize : 0 < size)
    (h : unpackFrom size buf offset = .ok n) : offset + size ≤ buf.length := by
  have hsome := leRead_isSome.mp (Option.isSome_iff_exists.mpr ⟨n, unpackFrom_eq_ok.mp h⟩)
  rw [List.length_drop] at hsome
  omega

theorem unpackFrom_of_le {size offset : ℕ} {buf : Bytes} (h : offset + size ≤ buf.length) :
    ∃ n, unpackFrom size buf offset = .ok n := by
  have hsome : (leRead size (buf.drop offset)).isSome = true :=
    leRead_isSome.mpr (by rw [List.length_drop]; omega)
  obtain ⟨n, hn⟩ := Option.isSome_iff_exists.mp hsome
  exact ⟨n, unpackFrom_eq_ok.mpr hn⟩

/-- A number is read where it was written. -/
theorem unpackFrom_leBytes {size n : ℕ} (before rest : Bytes) (hn : n < 256 ^ size) :
    unpackFrom size (before ++ (leBytes size n ++ rest)) before.length = .ok n := by
  rw [unpackFrom_eq_ok, List.drop_left, leRead_leBytes, Nat.mod_eq_of_lt hn]

/-- A number at the end of the parameters is read back. -/
theorem u16le_packed (before : Bytes) {n : ℕ} (hn : n < 0x10000) :
    u16le (before ++ leBytes 2 n) before.length = .ok n := by
  have hread := @unpackFrom_leBytes 2 n before [] hn
  rwa [List.append_nil] at hread

theorem u32le_packed (before : Bytes) {n : ℕ} (hn : n < 0x100000000) :
    u32le (before ++ leBytes 4 n) before.length = .ok n := by
  have hread := @unpackFrom_leBytes 4 n before [] (hn.trans_eq (by norm_num))
  rwa [List.append_nil] at hread

theorem u16leBytes_natCast {n : ℕ} (hn : n < 0x10000) : u16leBytes n = leBytes 2 n := by
  rw [u16leBytes]
  congr 1
  omega

theorem u32leBytes_natCast {n : ℕ} (hn : n < 0x100000000) : u32leBytes n = leBytes 4 n := by
  rw [u32leBytes]
  congr 1
  omega

@[simp] theorem length_u16leBytes (v : ℤ) : (u16leBytes v).length = 2 := length_leBytes ..

@[simp] theorem length_u32leBytes (v : ℤ) : (u32leBytes v).length = 4 := length_leBytes ..

@[simp] theorem byteAt_cons_zero (b : UInt8) (bs : Bytes) : byteAt (b :: bs) 0 = .ok b := rfl

@[simp] theorem byteAt_cons_succ (b : UInt8) (bs : Bytes) (i : ℕ) :
    byteAt (b :: bs) (i + 1) = byteAt bs i := rfl

theorem lowByte_toNat (b : UInt8) : lowByte (b.toNat : ℤ) = b := by
  have hb := b.toNat_lt
  have hmod : ((b.toNat : ℤ) % 0x100).toNat = b.toNat := by omega
  rw [lowByte, hmod, UInt8.ofNat_toNat]

@[simp] theorem bytesOf_nil : bytesOf [] = .ok [] := rfl

/-- An octet that was read is packed as it is. -/
@[simp] theorem bytesOf_toNat (b : UInt8) (vs : List ℤ) :
    bytesOf ((b.toNat : ℤ) :: vs) = (bytesOf vs).map (b :: ·) := by
  have hb := b.toNat_lt
  rw [bytesOf, if_pos ⟨by omega, by omega⟩, Int.toNat_natCast, UInt8.ofNat_toNat]

@[simp] theorem bytesOf_zero (vs : List ℤ) : bytesOf (0 :: vs) = (bytesOf vs).map (0 :: ·) := rfl

/-! ## Text -/

theorem parseInt_str (n : ℕ) : parseInt 10 (str n).toList = some (n : ℤ) := parseInt_repr n

theorem toInt_str (n : ℕ) : toInt (str n) = .ok (n : ℤ) := by
  rw [toInt, parseInt_str]

theorem boolStr_cases (n : ℕ) : boolStr n = "True" ∨ boolStr n = "False" := by
  unfold boolStr
  split
  · exact .inl rfl
  · exact .inr rfl

/-- What a switch is packed as reads as it did. -/
theorem boolStr_boolByte (n : ℕ) : boolStr (boolByte (boolStr n)).toNat = boolStr n := by
  rcases boolStr_cases n with h | h <;> rw [h] <;> decide

theorem boolStr_isWord (n : ℕ) :
    boolStr (if isWord ["true", "1", "yes"] (boolStr n) then (1 : UInt8) else 0).toNat =
      boolStr n := by
  rcases boolStr_cases n with h | h <;> rw [h] <;> decide

theorem boolStr_isBareWord (n : ℕ) :
    boolStr (if isBareWord ["true", "1"] (boolStr n) then (1 : ℕ) else 0) = boolStr n := by
  rcases boolStr_cases n with h | h <;> rw [h] <;> decide

/-! ## Names -/

section

variable {α β : Type} [DecidableEq α]

theorem mem_of_lookup {l : List (α × β)} {a : α} {b : β} (h : l.lookup a = some b) :
    (a, b) ∈ l := by
  induction l with
  | nil => cases h
  | cons p l ih =>
    rw [List.lookup_cons] at h
    split at h
    · rename_i heq
      obtain rfl := eq_of_beq heq
      obtain rfl := Option.some.inj h
      exact List.mem_cons_self ..
    · exact List.mem_cons_of_mem _ (ih h)

theorem lookup_eq_none {l : List (α × β)} {a : α} (h : ∀ p ∈ l, p.1 ≠ a) :
    l.lookup a = none := by
  induction l with
  | nil => rfl
  | cons p l ih =>
    have hne := h p (List.mem_cons_self ..)
    rw [List.lookup_cons, beq_eq_false_iff_ne.mpr hne.symm]
    exact ih fun q hq => h q (List.mem_cons_of_mem _ hq)

end

/-! ## Attributes -/

section

variable {key name text : String} {attrs : Attrs}

@[simp] theorem attr_cons_self : attr ((key, text) :: attrs) key = .ok text := by
  rw [attr, List.lookup_cons_self]

@[simp] theorem attr_cons_ne (h : key ≠ name) : attr ((name, text) :: attrs) key = attr attrs key := by
  rw [attr, attr, List.lookup_cons, beq_eq_false_iff_ne.mpr h]

/-- The text of a number where an integer is wanted. -/
@[simp] theorem intAttr_cons_self (n : ℕ) :
    intAttr ((key, str n) :: attrs) key = .ok (n : ℤ) := by
  rw [intAttr, attr_cons_self, ok_bind, toInt_str]

@[simp] theorem intAttr_cons_ne (h : key ≠ name) :
    intAttr ((name, text) :: attrs) key = intAttr attrs key := by
  rw [intAttr, intAttr, attr_cons_ne h]

@[simp] theorem intAttrOrZero_cons_self (n : ℕ) :
    intAttrOrZero ((key, str n) :: attrs) key = .ok (n : ℤ) := by
  rw [intAttrOrZero, List.lookup_cons_self]
  exact toInt_str n

@[simp] theorem meByte_cons (me : UInt8) :
    meByte (("mixEffectBlockIndex", str me.toNat) :: attrs) = .ok me := by
  rw [meByte, intAttrOrZero_cons_self, map_ok, lowByte_toNat]

@[simp] theorem keyerByte_cons (me keyer : UInt8) :
    keyerByte (("mixEffectBlockIndex", str me.toNat) :: ("keyIndex", str keyer.toNat) :: attrs) =
      .ok keyer := by
  rw [keyerByte, intAttr_cons_ne (by decide), intAttr_cons_self, map_ok, lowByte_toNat]

end

/-- The names of a table are told apart from each other and from numbers. -/
def ClearNames (names : List (ℕ × String)) : Prop :=
  ∀ p ∈ names, (byName names).lookup p.2 = some (p.1 : ℤ) ∧ parseInt 10 p.2.toList = none

instance (names : List (ℕ × String)) : Decidable (ClearNames names) :=
  inferInstanceAs (Decidable (∀ p ∈ names, _ ∧ _))

variable {names : List (ℕ × String)}

theorem ClearNames.lookup_name (h : ClearNames names) {n : ℕ} {name : String}
    (hname : names.lookup n = some name) : (byName names).lookup name = some (n : ℤ) :=
  (h (n, name) (mem_of_lookup hname)).1

/-- No name is the digits of a number. -/
theorem ClearNames.ne_str (h : ClearNames names) {p : ℕ × String} (hp : p ∈ names) (n : ℕ) :
    p.2 ≠ str n := by
  intro heq
  have hread := (h p hp).2
  rw [heq, parseInt_str] at hread
  cases hread

theorem ClearNames.lookup_str (h : ClearNames names) (n : ℕ) :
    (byName names).lookup (str n) = none := by
  apply lookup_eq_none
  intro q hq
  obtain ⟨p, hp, rfl⟩ := List.mem_map.mp hq
  exact h.ne_str hp n

/-- A number written by its name or with its digits is read back. -/
theorem namedInt_nameOf (h : ClearNames names) (n : ℕ) :
    namedInt (byName names) (nameOf names n) = .ok (n : ℤ) := by
  unfold namedInt nameOf
  cases hname : names.lookup n with
  | some name => simp [h.lookup_name hname]
  | none => simp [h.lookup_str n, parseInt_str]

/-- Where a text without a name stands for a default, a number is read back only if it has a
name. -/
theorem lookup_nameOf (h : ClearNames names) (n : ℕ) (default : ℤ) :
    ((byName names).lookup (nameOf names n)).getD default =
      if (names.lookup n).isSome then (n : ℤ) else default := by
  unfold nameOf
  cases hname : names.lookup n with
  | some name => simp [h.lookup_name hname]
  | none => simp [h.lookup_str n]

/-- A number that has a name is not written as one that has none. -/
theorem nameOf_ne (h : ClearNames names) {n m : ℕ} (hn : (names.lookup n).isSome = true)
    (hm : (names.lookup m).isSome = false) : nameOf names n ≠ nameOf names m := by
  obtain ⟨name, hname⟩ := Option.isSome_iff_exists.mp hn
  have hnone := Option.isSome_eq_false_iff.mp hm
  rw [Option.isNone_iff_eq_none] at hnone
  rw [nameOf, nameOf, hname, hnone]
  exact h.ne_str (mem_of_lookup hname) m

/-! ## Sources -/

theorem resolveSymbolToSource_camera :
    ∀ n ∈ List.range 20, resolveSymbolToSource (resolveSourceToSymbol (n + 1)) =
      .ok ((n + 1 : ℕ) : ℤ) := by decide

theorem resolveSymbolToSource_internal :
    ∀ p ∈ internalSourceNames, ∃ m : ℕ, m < 0x10000 ∧ resolveSymbolToSource p.2 = .ok (m : ℤ) ∧
      resolveSourceToSymbol m = p.2 := by
  have hall : ∀ p ∈ internalSourceNames,
      ((symbolToSource.lookup p.2).any fun v =>
        0 ≤ v ∧ v < 0x10000 ∧ resolveSymbolToSource p.2 = .ok v ∧
          resolveSourceToSymbol v.toNat = p.2) = true := by decide
  intro p hp
  obtain ⟨v, -, hv⟩ := (Option.any_eq_true ..).mp (hall p hp)
  obtain ⟨hlow, hhigh, hread, hname⟩ := of_decide_eq_true hv
  refine ⟨v.toNat, by omega, ?_, hname⟩
  rw [Int.toNat_of_nonneg hlow]
  exact hread

/-- A source is read back as one that has the same name. -/
theorem resolveSymbolToSource_resolve {n : ℕ} (hn : n < 0x10000) :
    ∃ m : ℕ, m < 0x10000 ∧ resolveSymbolToSource (resolveSourceToSymbol n) = .ok (m : ℤ) ∧
      resolveSourceToSymbol m = resolveSourceToSymbol n := by
  by_cases hcamera : 1 ≤ n ∧ n ≤ 20
  · obtain ⟨k, rfl⟩ := Nat.exists_eq_add_of_le' hcamera.1
    exact ⟨k + 1, hn, resolveSymbolToSource_camera k (List.mem_range.mpr (by omega)), rfl⟩
  · cases hname : internalSourceNames.lookup n with
    | some name =>
      have heq : resolveSourceToSymbol n = name := by
        rw [resolveSourceToSymbol, if_neg hcamera, hname]
        rfl
      rw [heq]
      exact resolveSymbolToSource_internal (n, name) (mem_of_lookup hname)
    | none =>
      have heq : resolveSourceToSymbol n = str n := by
        rw [resolveSourceToSymbol, if_neg hcamera, hname]
        rfl
      refine ⟨n, hn, ?_, rfl⟩
      have hstrip : strip n.repr.toList = n.repr.toList := by
        rw [Nat.toList_repr]
        exact strip_numerals (by decide) (isNumeral_toDigits (by decide))
      rw [heq, resolveSymbolToSource, str, hstrip, parseInt_repr]

end Bmdwire.Macros
