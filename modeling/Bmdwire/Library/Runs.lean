import Mathlib.Data.List.Basic
import Mathlib.Data.List.Infix
import Mathlib.Logic.Relation

/-!
# Runs of a labelled state machine, and logs read against their past

A machine is a step function on states and labels. `Reach` is the set of states its
runs visit when every label taken meets a side condition, `Steps` relates two states
with such a run between them, and `run` plays a list of labels. An invariant is proved
once for the start and once for a step; `Reach.invariant` makes it an invariant of every
run.

A machine that writes what it does into a log, newest entry first, is specified by what
each entry must find behind it: `Every P log` says that every entry of `log` stands in
relation `P` to the entries before it.
-/

set_option autoImplicit false

namespace Library

section Runs

variable {σ α : Type}

/-- The states reached from `init` by steps whose labels all meet `ok`. -/
inductive Reach (init : σ → Prop) (step : σ → α → σ) (ok : σ → α → Prop) : σ → Prop
  | start {s : σ} : init s → Reach init step ok s
  | next {s : σ} {a : α} : Reach init step ok s → ok s a → Reach init step ok (step s a)

/-- `s'` is reached from `s` by steps whose labels all meet `ok`. -/
inductive Steps (step : σ → α → σ) (ok : σ → α → Prop) (s : σ) : σ → Prop
  | refl : Steps step ok s s
  | tail {t : σ} {a : α} : Steps step ok s t → ok t a → Steps step ok s (step t a)

/-- Play a list of labels from a state. -/
def run (step : σ → α → σ) (s : σ) (as : List α) : σ := as.foldl step s

/-- Every label of the list meets `ok` at the state it is played in. -/
def OkAlong (step : σ → α → σ) (ok : σ → α → Prop) : σ → List α → Prop
  | _, [] => True
  | s, a :: as => ok s a ∧ OkAlong step ok (step s a) as

instance OkAlong.decidable (step : σ → α → σ) (ok : σ → α → Prop)
    [∀ s a, Decidable (ok s a)] : ∀ (s : σ) (as : List α), Decidable (OkAlong step ok s as)
  | _, [] => inferInstanceAs (Decidable True)
  | s, a :: as =>
      have := OkAlong.decidable step ok (step s a) as
      inferInstanceAs (Decidable (ok s a ∧ OkAlong step ok (step s a) as))

variable {init : σ → Prop} {step : σ → α → σ} {ok ok' : σ → α → Prop}

/-- What holds at the start and is kept by every step holds of every reachable state. -/
theorem Reach.invariant {P : σ → Prop} (hstart : ∀ s, init s → P s)
    (hstep : ∀ s a, Reach init step ok s → P s → ok s a → P (step s a))
    {s : σ} (h : Reach init step ok s) : P s := by
  induction h with
  | start h => exact hstart _ h
  | next h hok ih => exact hstep _ _ h ih hok

/-- A weaker side condition admits more runs. -/
theorem Reach.mono (hok : ∀ s a, ok s a → ok' s a) {s : σ} (h : Reach init step ok s) :
    Reach init step ok' s := by
  induction h with
  | start h => exact .start h
  | next _ ha ih => exact .next ih (hok _ _ ha)

/-- A run from a reachable state ends in a reachable state. -/
theorem Reach.steps {s t : σ} (h : Reach init step ok s) (hst : Steps step ok s t) :
    Reach init step ok t := by
  induction hst with
  | refl => exact h
  | tail _ ha ih => exact .next ih ha

/-- Playing admissible labels from a reachable state ends in a reachable state. -/
theorem Reach.run {s : σ} (h : Reach init step ok s) (as : List α)
    (has : OkAlong step ok s as) : Reach init step ok (run step s as) := by
  induction as generalizing s with
  | nil => exact h
  | cons a as ih => exact ih (.next h has.1) has.2

/-- The same of labels that stand for those of the machine. -/
theorem Reach.run_map {β : Type} (f : β → α) {s : σ} (h : Reach init step ok s) (bs : List β)
    (hbs : OkAlong (fun s b => step s (f b)) (fun s b => ok s (f b)) s bs) :
    Reach init step ok (Library.run (fun s b => step s (f b)) s bs) := by
  induction bs generalizing s with
  | nil => exact h
  | cons b bs ih => exact ih (.next h hbs.1) hbs.2

/-- A weaker side condition admits more labels. -/
theorem OkAlong.mono (hok : ∀ s a, ok s a → ok' s a) {s : σ} {as : List α}
    (h : OkAlong step ok s as) : OkAlong step ok' s as := by
  induction as generalizing s with
  | nil => trivial
  | cons a as ih => exact ⟨hok s a h.1, ih h.2⟩

/-- Labels are admissible when the first of them are, and then the others. -/
theorem okAlong_append {s : σ} (as bs : List α) :
    OkAlong step ok s (as ++ bs) ↔
      OkAlong step ok s as ∧ OkAlong step ok (Library.run step s as) bs := by
  induction as generalizing s with
  | nil => exact (and_iff_right trivial).symm
  | cons a as ih => exact (and_congr_right fun _ => ih).trans and_assoc.symm

/-- Admissible labels make a run. -/
theorem Steps.of_okAlong {s : σ} (as : List α) (has : OkAlong step ok s as) :
    Steps step ok s (Library.run step s as) := by
  have key : ∀ (as : List α) (r : σ), Steps step ok s r → OkAlong step ok r as →
      Steps step ok s (Library.run step r as) := by
    intro as
    induction as with
    | nil => exact fun _ h _ => h
    | cons a as ih => exact fun r h ha => ih (step r a) (.tail h ha.1) ha.2
  exact key as s .refl has

end Runs

section Logs

variable {β : Type}

/-- Every entry of the log, newest first, stands in `P` to the entries before it. -/
def Every (P : β → List β → Prop) : List β → Prop
  | [] => True
  | b :: past => P b past ∧ Every P past

instance Every.decidable (P : β → List β → Prop) [∀ b past, Decidable (P b past)] :
    ∀ log : List β, Decidable (Every P log)
  | [] => inferInstanceAs (Decidable True)
  | b :: past =>
      have := Every.decidable P past
      inferInstanceAs (Decidable (P b past ∧ Every P past))

variable {P Q : β → List β → Prop}

@[simp] theorem every_nil : Every P [] := trivial

@[simp] theorem every_cons (b : β) (past : List β) :
    Every P (b :: past) ↔ P b past ∧ Every P past := Iff.rfl

/-- The entry a log ends in, and everything before it, can be read off any split. -/
theorem Every.of_append {post past : List β} {b : β} (h : Every P (post ++ b :: past)) :
    P b past := by
  induction post with
  | nil => exact h.1
  | cons c post ih => exact ih h.2

/-- `Every` in the form of splits of the log. -/
theorem every_iff {log : List β} :
    Every P log ↔ ∀ post b past, log = post ++ b :: past → P b past := by
  constructor
  · rintro h post b past rfl
    exact h.of_append
  · intro h
    induction log with
    | nil => trivial
    | cons b past ih =>
      exact ⟨h [] b past rfl, ih fun post c past' hp => h (b :: post) c past' (by simp [hp])⟩

/-- A log extended by entries that all meet `P` keeps `Every P`. -/
theorem Every.append {log : List β} (new : List β) (h : Every P log)
    (hnew : ∀ post b past, new = post ++ b :: past → P b (past ++ log)) :
    Every P (new ++ log) := by
  induction new with
  | nil => exact h
  | cons b new ih =>
    exact ⟨hnew [] b new rfl, ih fun post c past hp => hnew (b :: post) c past (by simp [hp])⟩

theorem Every.mono (hPQ : ∀ b past, P b past → Q b past) {log : List β}
    (h : Every P log) : Every Q log := by
  induction log with
  | nil => trivial
  | cons b past ih => exact ⟨hPQ _ _ h.1, ih h.2⟩

end Logs

end Library
