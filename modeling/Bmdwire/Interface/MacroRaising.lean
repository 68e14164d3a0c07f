import Bmdwire.Library.Raising
import Bmdwire.Interface.MacroFields
import Bmdwire.Program.MacroCodec

/-!
# What the macro helpers raise

A caller of the encoder expects a `ValueError`. Reading an integer, a name or an octet raises
nothing else; a scalar whose raw number is infinite, a number that `struct` does not take and
an address that the C library does not read do. Each step of an encoder has one lemma on what
escapes it and, where octets are packed, one on how many there are.
-/

set_option autoImplicit false

namespace Bmdwire.Macros

open Library

/-- The exception is a `ValueError`. -/
def EncodeError.IsValueError (e : EncodeError) : Prop := e.type = .valueError

/-- The encoder raises something else than a `ValueError`. -/
abbrev Strays {α : Type} (x : Except EncodeError α) : Prop := Escapes EncodeError.IsValueError x

/-! ## Reading -/

section

variable {attrs : Attrs} {key text : String}

@[simp] theorem strays_attr : ¬ Strays (attr attrs key) := by
  unfold attr
  cases attrs.lookup key with
  | none => simp [EncodeError.IsValueError, EncodeError.type]
  | some text => simp

theorem attr_eq_ok : attr attrs key = .ok text ↔ attrs.lookup key = some text := by
  unfold attr
  cases attrs.lookup key with
  | none => simp
  | some text => simp

@[simp] theorem strays_toInt : ¬ Strays (toInt text) := by
  unfold toInt
  cases parseInt 10 text.toList with
  | none => simp [EncodeError.IsValueError, EncodeError.type]
  | some n => simp

theorem toInt_eq_ok {n : ℤ} : toInt text = .ok n ↔ parseInt 10 text.toList = some n := by
  unfold toInt
  cases parseInt 10 text.toList with
  | none => simp
  | some n => simp

@[simp] theorem strays_intAttr : ¬ Strays (intAttr attrs key) := by
  simp [intAttr, escapes_bind]

theorem intAttr_eq_ok {n : ℤ} :
    intAttr attrs key = .ok n ↔
      ∃ text, attrs.lookup key = some text ∧ parseInt 10 text.toList = some n := by
  unfold intAttr
  cases h : attr attrs key with
  | error e =>
    have hnone : attrs.lookup key = none := by
      cases hlookup : attrs.lookup key with
      | none => rfl
      | some text => simp [attr_eq_ok.mpr hlookup] at h
    simp [bind, Except.bind, hnone]
  | ok text =>
    rw [attr_eq_ok] at h
    simp [bind, Except.bind, h, toInt_eq_ok]

@[simp] theorem strays_intAttrOrZero : ¬ Strays (intAttrOrZero attrs key) := by
  unfold intAttrOrZero
  cases attrs.lookup key with
  | none => simp
  | some text => simp

@[simp] theorem strays_meByte : ¬ Strays (meByte attrs) := by simp [meByte]

@[simp] theorem strays_keyerByte : ¬ Strays (keyerByte attrs) := by simp [keyerByte]

@[simp] theorem strays_meKeyer : ¬ Strays (meKeyer attrs) := by simp [meKeyer, escapes_bind]

@[simp] theorem strays_namedInt {names : List (String × ℤ)} : ¬ Strays (namedInt names text) := by
  unfold namedInt
  cases names.lookup text with
  | some n => simp
  | none =>
    cases parseInt 10 text.toList with
    | some n => simp
    | none => simp [EncodeError.IsValueError, EncodeError.type]

@[simp] theorem strays_resolveSymbolToSource : ¬ Strays (resolveSymbolToSource text) := by
  unfold resolveSymbolToSource
  dsimp only
  split
  · simp
  · split
    · simp
    · split
      · simp
      · simp [EncodeError.IsValueError, EncodeError.type]

@[simp] theorem strays_resolveSourceId {value : Option String} :
    ¬ Strays (resolveSourceId value) := by
  unfold resolveSourceId
  split
  · simp
  · simp
  · split
    · simp
    · simp [EncodeError.IsValueError, EncodeError.type]

@[simp] theorem strays_stripPrefixEncode {familyMarker : ℤ} :
    ¬ Strays (stripPrefixEncode attrs familyMarker) := by
  simp [stripPrefixEncode, escapes_bind]

end

/-! ## Scalars -/

/-- The float that the text stands for, times `65536.0`, is infinite. -/
def Overflows (text : String) : Prop :=
  ∃ x negative, toFloat text = .ok x ∧ timesDivisor x = .infinite negative

@[simp] theorem strays_toFloat {text : String} : ¬ Strays (toFloat text) := by
  unfold toFloat
  split
  · simp
  · simp
  · simp [EncodeError.IsValueError, EncodeError.type]

theorem strays_roundFloat {x : FloatVal} :
    Strays (roundFloat x) ↔ ∃ negative, x = .infinite negative := by
  cases x with
  | finite q => simp [roundFloat]
  | infinite negative => simp [roundFloat, EncodeError.IsValueError, EncodeError.type]
  | nan => simp [roundFloat, EncodeError.IsValueError, EncodeError.type]

/-- A scalar has no raw number, and no `ValueError` says so, exactly when it overflows. -/
theorem strays_toFixed {text : String} : Strays (toFixed text) ↔ Overflows text := by
  simp [toFixed, escapes_bind, strays_roundFloat, Overflows]

/-! ## Packing -/

@[simp] theorem strays_i32leBytes {v : ℤ} : ¬ Strays (i32leBytes v) := by
  unfold i32leBytes
  split
  · simp [EncodeError.IsValueError, EncodeError.type]
  · simp

@[simp] theorem strays_int32leBytes {signed : Bool} {v : ℤ} :
    ¬ Strays (int32leBytes signed v) := by
  cases signed with
  | false => simp [int32leBytes]
  | true => simp [int32leBytes]

@[simp] theorem strays_bytesOf (vs : List ℤ) : ¬ Strays (bytesOf vs) := by
  induction vs with
  | nil => simp [bytesOf]
  | cons v vs ih =>
    unfold bytesOf
    split
    · simpa using ih
    · simp [EncodeError.IsValueError, EncodeError.type]

@[simp] theorem strays_dskHead {attrs : Attrs} : ¬ Strays (dskHead attrs) := by
  simp [dskHead, escapes_bind]

theorem strays_packFixedValue {signed : Bool} {text : String} :
    Strays (packFixedValue signed text) ↔ Overflows text := by
  simp [packFixedValue, escapes_bind, strays_toFixed]

/-- A number that is packed in two octets. -/
def IsWord16 (v : ℤ) : Prop := 0 ≤ v ∧ v < 0x10000

/-- A number that is packed in four octets, with its sign. -/
def IsInt32 (v : ℤ) : Prop := -0x80000000 ≤ v ∧ v < 0x80000000

theorem strays_packU16 {v : ℤ} : Strays (packU16 v) ↔ ¬ IsWord16 v := by
  unfold packU16 IsWord16
  split
  · simp_all
  · simp_all [EncodeError.IsValueError, EncodeError.type]

theorem strays_packI32 {v : ℤ} : Strays (packI32 v) ↔ ¬ IsInt32 v := by
  unfold packI32 IsInt32
  split
  · simp_all
  · simp_all [EncodeError.IsValueError, EncodeError.type]

/-- A number that `bytes` takes. -/
def IsOctet (n : ℤ) : Prop := 0 ≤ n ∧ n < 0x100

theorem bytesOf_returns {vs : List ℤ} : (∃ bs, bytesOf vs = .ok bs) ↔ ∀ v ∈ vs, IsOctet v := by
  induction vs with
  | nil => simp
  | cons v vs ih =>
    rw [List.forall_mem_cons, ← ih, bytesOf, IsOctet]
    split
    · rename_i hv
      simp [hv, map_eq_ok]
    · rename_i hv
      simp [hv]

theorem bytesOf_length (vs : List ℤ) : Returns (·.length = vs.length) (bytesOf vs) := by
  induction vs with
  | nil => simp [bytesOf]
  | cons v vs ih =>
    unfold bytesOf
    split
    · apply Returns.map
      intro bs hbs
      simp [ih bs hbs]
    · exact returns_error _

theorem i32leBytes_length (v : ℤ) : Returns (·.length = 4) (i32leBytes v) := by
  unfold i32leBytes
  split
  · exact returns_error _
  · simp

theorem int32leBytes_length (signed : Bool) (v : ℤ) :
    Returns (·.length = 4) (int32leBytes signed v) := by
  cases signed with
  | false => simp [int32leBytes, u32leBytes]
  | true => exact i32leBytes_length v

theorem meKeyer_eq_ok {attrs : Attrs} {key : List ℤ} :
    meKeyer attrs = .ok key ↔
      ∃ me keyer, intAttrOrZero attrs "mixEffectBlockIndex" = .ok me ∧
        intAttr attrs "keyIndex" = .ok keyer ∧ key = [me, keyer] := by
  simp only [meKeyer, bind_eq_ok, pure_eq_ok]
  constructor
  · rintro ⟨me, hme, keyer, hkeyer, rfl⟩
    exact ⟨me, keyer, hme, hkeyer, rfl⟩
  · rintro ⟨me, keyer, hme, hkeyer, rfl⟩
    exact ⟨me, hme, keyer, hkeyer, rfl⟩

theorem meKeyer_length (attrs : Attrs) : Returns (·.length = 2) (meKeyer attrs) := by
  refine .after fun me => .after fun keyer => ?_
  simp

theorem dskHead_length (attrs : Attrs) : Returns (·.length = 2) (dskHead attrs) :=
  .after fun _ => bytesOf_length _

theorem packFixedValue_length (signed : Bool) (text : String) :
    Returns (·.length = 4) (packFixedValue signed text) :=
  .after fun n => int32leBytes_length signed n

theorem packU16_length (v : ℤ) : Returns (·.length = 2) (packU16 v) := by
  unfold packU16
  split
  · simp
  · exact returns_error _

theorem packI32_length (v : ℤ) : Returns (·.length = 4) (packI32 v) := by
  unfold packI32
  split
  · simp
  · exact returns_error _

theorem stripPrefixEncode_length (attrs : Attrs) (familyMarker : ℤ) :
    Returns (·.length = 12) (stripPrefixEncode attrs familyMarker) := by
  apply Returns.after
  intro text
  apply Returns.after
  intro src
  apply Returns.after
  intro sid
  simp [stripPrefix, u16leBytes]

/-! ## Addresses -/

/-- The text is an address as `inet_aton` reads them. -/
def IsAddress (text : String) : Prop :=
  ∃ parts rest, addressParts 3 text.toList = some (parts, rest) ∧ endsAddress rest = true ∧
    parts.getLastD 0 < 256 ^ (5 - parts.length)

/-- Only a null character is a `ValueError`; the rest that is no address is an `OSError`. -/
theorem strays_inetAton {text : String} :
    Strays (inetAton text) ↔ '\x00' ∉ text.toList ∧ ¬ IsAddress text := by
  unfold inetAton IsAddress
  split
  · rename_i hnull
    simp [EncodeError.IsValueError, EncodeError.type, hnull]
  · rename_i hnull
    cases hparts : addressParts 3 text.toList with
    | none => simp [EncodeError.IsValueError, EncodeError.type, hnull]
    | some p =>
      obtain ⟨parts, rest⟩ := p
      dsimp only
      split
      · rename_i hok
        apply iff_of_false (escapes_ok _)
        rintro ⟨-, hno⟩
        exact hno ⟨parts, rest, rfl, hok⟩
      · rename_i hok
        simp only [escapes_error, EncodeError.IsValueError, EncodeError.type, hnull,
          Option.some.injEq, Prod.mk.injEq]
        simp only [reduceCtorEq, not_false_eq_true, true_and, true_iff]
        rintro ⟨_, _, ⟨rfl, rfl⟩, hends, hlast⟩
        exact hok ⟨hends, hlast⟩

theorem addressParts_length {more : ℕ} {cs rest : List Char} {parts : List ℕ}
    (h : addressParts more cs = some (parts, rest)) : 0 < parts.length ∧ parts.length ≤ more + 1 := by
  induction more generalizing cs parts with
  | zero =>
    unfold addressParts at h
    split at h
    · cases h
    · cases h
    · cases h
      simp
  | succ more ih =>
    unfold addressParts at h
    split at h
    · cases h
    · rename_i n after _
      dsimp only at h
      split at h
      · obtain ⟨p, hp, heq⟩ := Option.map_eq_some_iff.mp h
        cases heq
        have hlen := ih hp
        simp only [List.length_cons]
        omega
      · cases h
    · cases h
      simp

theorem inetAton_length (text : String) : Returns (·.length = 4) (inetAton text) := by
  unfold inetAton
  split
  · exact returns_error _
  · cases hparts : addressParts 3 text.toList with
    | none => exact returns_error _
    | some p =>
      obtain ⟨parts, rest⟩ := p
      dsimp only
      split
      · have hlen := addressParts_length hparts
        simp only [returns_ok, List.length_append, List.length_map, List.length_dropLast,
          List.length_reverse, length_leBytes]
        omega
      · exact returns_error _

end Bmdwire.Macros
