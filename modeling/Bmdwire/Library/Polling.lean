import Mathlib.Data.List.Basic

/-!
# Asking again until an answer will do

A loop looks at one answer after the other. An answer ends it, with a value or by raising, or
it is no use and the next is awaited; when there are no more the loop is given up. What a poll
comes to is decided by the first answer that is of use (`poll_eq_ok_iff`).
-/

set_option autoImplicit false

namespace Library

/-- What the loop makes of an answer. -/
inductive Look (β ε : Type)
  | done (value : β)
  | raised (error : ε)
  | again
deriving DecidableEq, Repr

variable {α β ε : Type}

/-- The loop over the answers; `givenUp` is raised when there are no more. -/
def poll (look : α → Look β ε) (givenUp : ε) : List α → Except ε β
  | [] => .error givenUp
  | answer :: answers =>
    match look answer with
    | .done value => .ok value
    | .raised e => .error e
    | .again => poll look givenUp answers

/-- A value comes of the first answer that is of use. -/
theorem poll_eq_ok_iff {look : α → Look β ε} {givenUp : ε} {answers : List α} {value : β} :
    poll look givenUp answers = .ok value ↔
      ∃ before answer after, answers = before ++ answer :: after ∧
        (∀ a ∈ before, look a = .again) ∧ look answer = .done value := by
  induction answers with
  | nil => simp [poll]
  | cons a answers ih =>
    rw [poll]
    cases hlook : look a with
    | done other =>
      constructor
      · intro h
        cases h
        exact ⟨[], a, answers, rfl, by simp, hlook⟩
      · rintro ⟨before, answer, after, hsplit, hbefore, hdone⟩
        cases before with
        | nil =>
          obtain ⟨rfl, -⟩ := List.cons.inj hsplit
          rw [hlook] at hdone
          exact congrArg Except.ok (Look.done.inj hdone)
        | cons b before =>
          obtain ⟨rfl, -⟩ := List.cons.inj hsplit
          have hagain := hbefore a (List.mem_cons_self ..)
          rw [hlook] at hagain
          cases hagain
    | raised e =>
      constructor
      · intro h
        cases h
      · rintro ⟨before, answer, after, hsplit, hbefore, hdone⟩
        cases before with
        | nil =>
          obtain ⟨rfl, -⟩ := List.cons.inj hsplit
          rw [hlook] at hdone
          cases hdone
        | cons b before =>
          obtain ⟨rfl, -⟩ := List.cons.inj hsplit
          have hagain := hbefore a (List.mem_cons_self ..)
          rw [hlook] at hagain
          cases hagain
    | again =>
      rw [ih]
      constructor
      · rintro ⟨before, answer, after, rfl, hbefore, hdone⟩
        refine ⟨a :: before, answer, after, rfl, ?_, hdone⟩
        intro b hb
        obtain rfl | hb := List.mem_cons.mp hb
        · exact hlook
        · exact hbefore b hb
      · rintro ⟨before, answer, after, hsplit, hbefore, hdone⟩
        cases before with
        | nil =>
          obtain ⟨rfl, -⟩ := List.cons.inj hsplit
          rw [hlook] at hdone
          cases hdone
        | cons b before =>
          obtain ⟨rfl, hrest⟩ := List.cons.inj hsplit
          exact ⟨before, answer, after, hrest,
            fun c hc => hbefore c (List.mem_cons_of_mem _ hc), hdone⟩

end Library
