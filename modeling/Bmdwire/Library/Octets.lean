import Mathlib.Data.UInt
import Mathlib.Tactic.Ring

/-!
# Numbers as octets

Numbers of a fixed width written with the lowest octet first, without a sign or in two's
complement. Reading looks at the front of the octets and takes no more than the width.
-/

set_option autoImplicit false

namespace Library

/-- A number in so many octets, the lowest first; what does not fit is left out. -/
def leBytes : ℕ → ℕ → List UInt8
  | 0, _ => []
  | size + 1, n => UInt8.ofNat n :: leBytes size (n / 256)

/-- The number in the first so many octets. -/
def leRead : ℕ → List UInt8 → Option ℕ
  | 0, _ => some 0
  | _ + 1, [] => none
  | size + 1, b :: bs => (leRead size bs).map fun n => b.toNat + 256 * n

/-- A number of so many bits in two's complement. -/
def asSigned (bits n : ℕ) : ℤ := if n < 2 ^ (bits - 1) then n else n - 2 ^ bits

@[simp] theorem length_leBytes (size n : ℕ) : (leBytes size n).length = size := by
  induction size generalizing n with
  | zero => rfl
  | succ size ih => simp [leBytes, ih]

theorem leRead_leBytes (size n : ℕ) (rest : List UInt8) :
    leRead size (leBytes size n ++ rest) = some (n % 256 ^ size) := by
  induction size generalizing n with
  | zero => simp [leRead, Nat.mod_one]
  | succ size ih =>
    have hlow : (UInt8.ofNat n).toNat = n % 256 := UInt8.toNat_ofNat'
    rw [leBytes, List.cons_append, leRead, ih, Option.map_some, hlow, pow_succ,
      Nat.mul_comm _ 256, Nat.mod_mul]

theorem leRead_lt {size n : ℕ} {bs : List UInt8} (h : leRead size bs = some n) :
    n < 256 ^ size := by
  induction size generalizing bs n with
  | zero =>
    obtain rfl : 0 = n := Option.some.inj h
    simp
  | succ size ih =>
    cases bs with
    | nil => cases h
    | cons b bs =>
      obtain ⟨m, hm, rfl⟩ := Option.map_eq_some_iff.mp h
      have hm := ih hm
      have hb := b.toNat_lt
      rw [pow_succ]
      omega

/-- Octets that are read whole are those of the number. -/
theorem eq_leBytes {size n : ℕ} {bs : List UInt8} (h : leRead size bs = some n)
    (hlength : bs.length ≤ size) : bs = leBytes size n := by
  induction size generalizing bs n with
  | zero => exact List.eq_nil_of_length_eq_zero (Nat.le_zero.mp hlength)
  | succ size ih =>
    cases bs with
    | nil => cases h
    | cons b bs =>
      obtain ⟨m, hm, rfl⟩ := Option.map_eq_some_iff.mp h
      have hrest := ih hm (Nat.le_of_succ_le_succ hlength)
      have hb := b.toNat_lt
      have hfirst : UInt8.ofNat (b.toNat + 256 * m) = b := by
        rw [← UInt8.toNat_inj, UInt8.toNat_ofNat']
        omega
      have hquotient : (b.toNat + 256 * m) / 256 = m := by omega
      rw [leBytes, hfirst, hquotient, ← hrest]

theorem leRead_isSome {size : ℕ} {bs : List UInt8} :
    (leRead size bs).isSome = true ↔ size ≤ bs.length := by
  induction size generalizing bs with
  | zero => simp [leRead]
  | succ size ih =>
    cases bs with
    | nil => simp [leRead]
    | cons b bs => simp [leRead, ih]

theorem asSigned_bounds {bits n : ℕ} (hbits : 0 < bits) (hn : n < 2 ^ bits) :
    -2 ^ (bits - 1) ≤ asSigned bits n ∧ asSigned bits n < 2 ^ (bits - 1) := by
  obtain ⟨bits, rfl⟩ := Nat.exists_eq_succ_of_ne_zero hbits.ne'
  rw [Nat.succ_eq_add_one, pow_succ] at hn
  have hcast : ((2 ^ bits : ℕ) : ℤ) = 2 ^ bits := by simp
  unfold asSigned
  rw [Nat.succ_eq_add_one, Nat.add_sub_cancel, pow_succ]
  split <;> constructor <;> omega

/-- A number in the range of its width is read back. -/
theorem asSigned_emod {bits : ℕ} {v : ℤ} (hbits : 0 < bits) (hlow : -2 ^ (bits - 1) ≤ v)
    (hhigh : v < 2 ^ (bits - 1)) : asSigned bits (v % 2 ^ bits).toNat = v := by
  obtain ⟨bits, rfl⟩ := Nat.exists_eq_succ_of_ne_zero hbits.ne'
  rw [Nat.succ_eq_add_one, Nat.add_sub_cancel] at hlow hhigh
  have hcast : ((2 ^ bits : ℕ) : ℤ) = 2 ^ bits := by simp
  have hpow : (2 : ℤ) ^ (bits + 1) = 2 ^ bits * 2 := pow_succ ..
  unfold asSigned
  rw [Nat.succ_eq_add_one, Nat.add_sub_cancel, hpow]
  rcases lt_or_ge v 0 with hneg | hpos
  · have hmod : v % (2 ^ bits * 2) = v + 2 ^ bits * 2 := by
      rw [← Int.add_emod_right]
      exact Int.emod_eq_of_lt (by omega) (by omega)
    rw [hmod, if_neg (by omega)]
    omega
  · rw [Int.emod_eq_of_lt hpos (by omega), if_pos (by omega)]
    omega

end Library
