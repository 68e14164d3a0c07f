import Mathlib.Data.List.Basic
import Mathlib.Tactic.Common

/-!
# Which exceptions leave a computation

A caller expects some of the exceptions of a computation. The others escape it: the first step
that raises one decides, so what escapes a sequence of steps is told step by step, together
with what the steps before it return.
-/

set_option autoImplicit false

namespace Library

variable {ε α β : Type}

/-- The computation fails with an exception that its caller does not expect. -/
def Escapes (expected : ε → Prop) (x : Except ε α) : Prop := ∃ e, x = .error e ∧ ¬ expected e

/-- What the computation returns, if it does, is as required. -/
def Returns (required : α → Prop) (x : Except ε α) : Prop := ∀ a, x = .ok a → required a

section

variable {expected : ε → Prop}

@[simp] theorem escapes_ok (a : α) : ¬ Escapes expected (.ok a : Except ε α) := by
  rintro ⟨e, h, -⟩
  cases h

@[simp] theorem escapes_pure (a : α) : ¬ Escapes expected (pure a : Except ε α) := escapes_ok a

@[simp] theorem escapes_error (e : ε) :
    Escapes expected (.error e : Except ε α) ↔ ¬ expected e := by
  constructor
  · rintro ⟨e', h, he⟩
    cases h
    exact he
  · intro he
    exact ⟨e, rfl, he⟩

theorem escapes_bind {x : Except ε α} {f : α → Except ε β} :
    Escapes expected (x >>= f) ↔
      Escapes expected x ∨ ∃ a, x = .ok a ∧ Escapes expected (f a) := by
  cases x with
  | error e => simp [bind, Except.bind]
  | ok a => simp [bind, Except.bind]

@[simp] theorem escapes_map {x : Except ε α} {f : α → β} :
    Escapes expected (x.map f) ↔ Escapes expected x := by
  cases x with
  | error e => simp [Except.map]
  | ok a => simp [Except.map]

@[simp] theorem escapes_fmap {x : Except ε α} {f : α → β} :
    Escapes expected (f <$> x) ↔ Escapes expected x :=
  escapes_map

end

section

variable {required : α → Prop} {required' : β → Prop}

@[simp] theorem returns_ok (a : α) : Returns required (.ok a : Except ε α) ↔ required a := by
  simp [Returns]

@[simp] theorem returns_pure (a : α) : Returns required (pure a : Except ε α) ↔ required a :=
  returns_ok a

@[simp] theorem returns_error (e : ε) : Returns required (.error e : Except ε α) := by
  intro a h
  cases h

theorem Returns.mono {x : Except ε α} {weaker : α → Prop} (hx : Returns required x)
    (h : ∀ a, required a → weaker a) : Returns weaker x := by
  intro a ha
  exact h a (hx a ha)

/-- What is returned meets the requirement of the last step for all that comes before it. -/
theorem Returns.bind {x : Except ε α} {f : α → Except ε β} (hx : Returns required x)
    (hf : ∀ a, required a → Returns required' (f a)) : Returns required' (x >>= f) := by
  intro b h
  cases x with
  | error e => cases h
  | ok a => exact hf a (hx a rfl) b h

/-- A step about whose result nothing need be known. -/
theorem Returns.after {x : Except ε α} {f : α → Except ε β} (hf : ∀ a, Returns required' (f a)) :
    Returns required' (x >>= f) := by
  have hx : Returns (fun _ => True) x := fun _ _ => trivial
  exact hx.bind fun a _ => hf a

theorem Returns.map {x : Except ε α} {f : α → β} (hx : Returns (fun a => required' (f a)) x) :
    Returns required' (x.map f) := by
  intro b h
  cases x with
  | error e => cases h
  | ok a =>
    cases h
    exact hx a rfl

end

/-! ## Results and errors together -/

/-- What the computation returns, or the error it tells, is as required. -/
def Ends (required : α → Prop) (told : ε → Prop) : Except ε α → Prop
  | .ok a => required a
  | .error e => told e

section

variable {required : α → Prop} {required' : β → Prop} {told : ε → Prop}

@[simp] theorem ends_ok (a : α) : Ends required told (.ok a) ↔ required a := Iff.rfl

@[simp] theorem ends_pure (a : α) : Ends required told (pure a) ↔ required a := Iff.rfl

@[simp] theorem ends_error (e : ε) : Ends required told (.error e) ↔ told e := Iff.rfl

theorem Ends.bind {x : Except ε α} {f : α → Except ε β} (hx : Ends required told x)
    (hf : ∀ a, required a → Ends required' told (f a)) : Ends required' told (x >>= f) := by
  cases x with
  | error e => exact hx
  | ok a => exact hf a hx

theorem Ends.map {x : Except ε α} {f : α → β} (hx : Ends (fun a => required' (f a)) told x) :
    Ends required' told (x.map f) := by
  cases x with
  | error e => exact hx
  | ok a => exact hx

end

end Library
