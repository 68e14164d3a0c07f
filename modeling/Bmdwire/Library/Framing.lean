import Mathlib.Data.List.Infix

/-!
# Frames of a byte stream

A reader that buffers what a stream delivers and takes complete frames off the front. When a
frame once complete stays the same whatever comes after it, the frames do not depend on how the
stream was cut into pieces: what has been taken and what the buffer still holds are together
the frames of everything received (`Framing.Read`).
-/

set_option autoImplicit false

namespace Library

variable {α φ : Type}

/-- A way to take the first frame off a buffer: what it takes is enough to see the frame by. -/
structure Framing (α φ : Type) where
  next : List α → Option (φ × List α)
  used : ∀ {buf rest : List α} {frame : φ}, next buf = some (frame, rest) →
    ∃ head, head ≠ [] ∧ buf = head ++ rest ∧ ∀ more, next (head ++ more) = some (frame, more)

namespace Framing

theorem shorter (F : Framing α φ) {buf rest : List α} {frame : φ}
    (h : F.next buf = some (frame, rest)) : rest.length < buf.length := by
  obtain ⟨head, hne, rfl, -⟩ := F.used h
  have hpos := List.length_pos_of_ne_nil hne
  rw [List.length_append]
  omega

/-- A complete frame stays the same when more comes. -/
theorem stable (F : Framing α φ) {buf rest : List α} {frame : φ} (more : List α)
    (h : F.next buf = some (frame, rest)) : F.next (buf ++ more) = some (frame, rest ++ more) := by
  obtain ⟨head, -, rfl, hnext⟩ := F.used h
  rw [List.append_assoc]
  exact hnext (rest ++ more)

variable (F : Framing α φ)

/-- At most so many frames off the front, and what is left. -/
def framesFrom : ℕ → List α → List φ × List α
  | 0, buf => ([], buf)
  | fuel + 1, buf =>
    match F.next buf with
    | none => ([], buf)
    | some (frame, rest) => (frame :: (framesFrom fuel rest).1, (framesFrom fuel rest).2)

/-- All complete frames, and the incomplete one after them. -/
def frames (buf : List α) : List φ × List α := F.framesFrom buf.length buf

variable {F}

theorem framesFrom_of_le {fuel more : ℕ} {buf : List α} (hfuel : buf.length ≤ fuel)
    (hmore : buf.length ≤ more) : F.framesFrom fuel buf = F.framesFrom more buf := by
  induction fuel generalizing buf more with
  | zero =>
    have hnil : buf = [] := List.length_eq_zero_iff.mp (by omega)
    subst hnil
    cases more with
    | zero => rfl
    | succ more =>
      cases hnext : F.next [] with
      | none => simp [framesFrom, hnext]
      | some next => exact absurd (F.shorter hnext) (by simp)
  | succ fuel ih =>
    cases hnext : F.next buf with
    | none => cases more <;> simp [framesFrom, hnext]
    | some next =>
      obtain ⟨frame, rest⟩ := next
      have hlt := F.shorter hnext
      cases more with
      | zero => omega
      | succ more =>
        simp only [framesFrom, hnext]
        have hrest : F.framesFrom fuel rest = F.framesFrom more rest := ih (by omega) (by omega)
        rw [hrest]

/-- Nothing complete. -/
theorem frames_of_none {buf : List α} (h : F.next buf = none) : F.frames buf = ([], buf) := by
  unfold frames
  cases buf.length <;> simp [framesFrom, h]

/-- The first frame, then the others. -/
theorem frames_of_some {buf rest : List α} {frame : φ} (h : F.next buf = some (frame, rest)) :
    F.frames buf = (frame :: (F.frames rest).1, (F.frames rest).2) := by
  have hlt := F.shorter h
  unfold frames
  cases hlen : buf.length with
  | zero => omega
  | succ n =>
    simp only [framesFrom, h]
    have hfuel : F.framesFrom n rest = F.framesFrom rest.length rest :=
      framesFrom_of_le (by omega) (Nat.le_refl _)
    rw [hfuel]

/-- What is left holds no complete frame. -/
theorem next_left (buf : List α) : F.next (F.frames buf).2 = none := by
  induction hn : buf.length using Nat.strong_induction_on generalizing buf with
  | _ n ih =>
    cases hnext : F.next buf with
    | none => rw [frames_of_none hnext]; exact hnext
    | some next =>
      obtain ⟨frame, rest⟩ := next
      have hlt := F.shorter hnext
      rw [frames_of_some hnext]
      exact ih rest.length (by omega) rest rfl

/-- The frames of a longer buffer: those of the shorter one, then those of what it left. -/
theorem frames_append (buf more : List α) :
    F.frames (buf ++ more) = ((F.frames buf).1 ++ (F.frames ((F.frames buf).2 ++ more)).1,
      (F.frames ((F.frames buf).2 ++ more)).2) := by
  induction hn : buf.length using Nat.strong_induction_on generalizing buf with
  | _ n ih =>
    cases hnext : F.next buf with
    | none =>
      rw [frames_of_none hnext]
      rfl
    | some next =>
      obtain ⟨frame, rest⟩ := next
      have hlt := F.shorter hnext
      rw [frames_of_some hnext, frames_of_some (F.stable more hnext),
        ih rest.length (by omega) rest rfl]
      rfl

theorem frames_nil : F.frames [] = ([], []) := rfl

variable (F)

/-- Frames taken so far and a buffer go together to all that was received. -/
def Read (received : List α) (taken : List φ) (buf : List α) : Prop :=
  F.frames received = (taken ++ (F.frames buf).1, (F.frames buf).2)

variable {F}

/-- Before anything comes. -/
theorem Read.start : F.Read [] [] [] := rfl

/-- A piece of the stream comes. -/
theorem Read.receive {received buf : List α} {taken : List φ} (h : F.Read received taken buf)
    (piece : List α) : F.Read (received ++ piece) taken (buf ++ piece) := by
  unfold Read at *
  rw [frames_append, h, frames_append buf piece, List.append_assoc]

/-- The first frame is taken. -/
theorem Read.take {received buf rest : List α} {taken : List φ} {frame : φ}
    (h : F.Read received taken buf) (hnext : F.next buf = some (frame, rest)) :
    F.Read received (taken ++ [frame]) rest := by
  unfold Read at *
  rw [h, frames_of_some hnext, List.append_assoc]
  rfl

/-- When nothing complete is buffered, all that was received has been taken. -/
theorem Read.taken_eq {received buf : List α} {taken : List φ} (h : F.Read received taken buf)
    (hnext : F.next buf = none) : taken = (F.frames received).1 := by
  unfold Read at h
  rw [h, frames_of_none hnext, List.append_nil]

/-- What was taken are the first of all frames. -/
theorem Read.first {received buf : List α} {taken : List φ} (h : F.Read received taken buf) :
    taken <+: (F.frames received).1 := by
  unfold Read at h
  rw [h]
  exact List.prefix_append _ _

/-- The same frames, each read by `f`. -/
def map {ψ : Type} (F : Framing α φ) (f : φ → ψ) : Framing α ψ where
  next := fun buf => (F.next buf).map fun p => (f p.1, p.2)
  used := by
    intro buf rest frame h
    obtain ⟨p, hp, hframe⟩ := Option.map_eq_some_iff.mp h
    obtain ⟨rfl, rfl⟩ := Prod.mk.inj hframe
    obtain ⟨head, hne, hbuf, hnext⟩ := F.used hp
    refine ⟨head, hne, hbuf, fun more => ?_⟩
    rw [hnext more]
    rfl

section Assemble

variable {σ ψ : Type} (F : Framing α φ) (step : σ → φ → σ ⊕ ψ)

/-- Frames put together to larger ones: `step` takes a frame and goes on, or is done. -/
def assembleFrom : ℕ → σ → List α → Option (ψ × List α)
  | 0, _, _ => none
  | fuel + 1, s, buf =>
    match F.next buf with
    | none => none
    | some (frame, rest) =>
      match step s frame with
      | .inl s' => assembleFrom fuel s' rest
      | .inr out => some (out, rest)

/-- A larger frame taken up in its middle, or at its start. -/
def resume (s : σ) (buf : List α) : Option (ψ × List α) := F.assembleFrom step buf.length s buf

variable {F step}

theorem assembleFrom_used {fuel : ℕ} {s : σ} {buf rest : List α} {out : ψ}
    (h : F.assembleFrom step fuel s buf = some (out, rest)) :
    ∃ head, head ≠ [] ∧ buf = head ++ rest ∧ ∀ fuel' more, head.length ≤ fuel' →
      F.assembleFrom step fuel' s (head ++ more) = some (out, more) := by
  induction fuel generalizing s buf with
  | zero => simp [assembleFrom] at h
  | succ fuel ih =>
    unfold assembleFrom at h
    cases hnext : F.next buf with
    | none => simp [hnext] at h
    | some next =>
      obtain ⟨frame, left⟩ := next
      obtain ⟨head, hne, rfl, hmore⟩ := F.used hnext
      have hpos := List.length_pos_of_ne_nil hne
      simp only [hnext] at h
      cases hstep : step s frame with
      | inr done =>
        simp only [hstep, Option.some.injEq, Prod.mk.injEq] at h
        obtain ⟨rfl, rfl⟩ := h
        refine ⟨head, hne, rfl, fun fuel' more hfuel => ?_⟩
        cases fuel' with
        | zero => omega
        | succ fuel' => simp [assembleFrom, hmore, hstep]
      | inl s' =>
        simp only [hstep] at h
        obtain ⟨later, -, rfl, hlater⟩ := ih h
        refine ⟨head ++ later, by simp [hne], (List.append_assoc ..).symm, ?_⟩
        intro fuel' more hfuel
        rw [List.length_append] at hfuel
        cases fuel' with
        | zero => omega
        | succ fuel' =>
          rw [List.append_assoc]
          simp only [assembleFrom, hmore, hstep]
          exact hlater fuel' more (by omega)

theorem assembleFrom_of_le {fuel more : ℕ} {s : σ} {buf : List α} (hfuel : buf.length ≤ fuel)
    (hmore : buf.length ≤ more) :
    F.assembleFrom step fuel s buf = F.assembleFrom step more s buf := by
  induction fuel generalizing s buf more with
  | zero =>
    have hnil : buf = [] := List.length_eq_zero_iff.mp (by omega)
    subst hnil
    cases more with
    | zero => rfl
    | succ more =>
      cases hnext : F.next [] with
      | none => simp [assembleFrom, hnext]
      | some next => exact absurd (F.shorter hnext) (by simp)
  | succ fuel ih =>
    cases hnext : F.next buf with
    | none => cases more <;> simp [assembleFrom, hnext]
    | some next =>
      have hlt := F.shorter hnext
      cases more with
      | zero => omega
      | succ more =>
        simp only [assembleFrom, hnext]
        cases step s next.1 with
        | inr out => rfl
        | inl s' => exact ih (by omega) (by omega)

theorem resume_of_none {s : σ} {buf : List α} (h : F.next buf = none) :
    F.resume step s buf = none := by
  unfold resume
  cases buf.length <;> simp [assembleFrom, h]

/-- One frame more of a larger one. -/
theorem resume_of_some {s : σ} {buf rest : List α} {frame : φ}
    (h : F.next buf = some (frame, rest)) :
    F.resume step s buf =
      (step s frame).elim (fun s' => F.resume step s' rest) fun out => some (out, rest) := by
  have hlt := F.shorter h
  unfold resume
  cases hlen : buf.length with
  | zero => omega
  | succ n =>
    simp only [assembleFrom, h]
    cases step s frame with
    | inr out => rfl
    | inl s' => exact assembleFrom_of_le (by omega) (Nat.le_refl _)

variable (F step)

/-- The larger frames. -/
def assemble (start : σ) : Framing α ψ where
  next := F.resume step start
  used := by
    intro buf rest frame h
    obtain ⟨head, hne, hbuf, hmore⟩ := assembleFrom_used h
    exact ⟨head, hne, hbuf, fun more => hmore _ more (by simp)⟩

/-- In the middle of a larger frame: the part of it that was taken is still to be counted. -/
def Midway (start s : σ) (received : List α) (taken : List ψ) (buf : List α) : Prop :=
  ∃ part, (F.assemble step start).Read received taken (part ++ buf) ∧
    ∀ more, F.resume step start (part ++ more) = F.resume step s more

variable {F step} {start s : σ} {received buf rest : List α} {taken : List ψ} {frame : φ}

theorem Midway.begin (h : (F.assemble step start).Read received taken buf) :
    F.Midway step start start received taken buf :=
  ⟨[], h, fun _ => rfl⟩

theorem Midway.receive (h : F.Midway step start s received taken buf) (piece : List α) :
    F.Midway step start s (received ++ piece) taken (buf ++ piece) := by
  obtain ⟨part, hread, hpart⟩ := h
  refine ⟨part, ?_, hpart⟩
  rw [← List.append_assoc]
  exact hread.receive piece

theorem Midway.advance {s' : σ} (h : F.Midway step start s received taken buf)
    (hnext : F.next buf = some (frame, rest)) (hstep : step s frame = .inl s') :
    F.Midway step start s' received taken rest := by
  obtain ⟨part, hread, hpart⟩ := h
  obtain ⟨head, -, rfl, hmore⟩ := F.used hnext
  refine ⟨part ++ head, by rwa [List.append_assoc], fun more => ?_⟩
  rw [List.append_assoc, hpart, resume_of_some (hmore more), hstep]
  rfl

theorem Midway.finish {out : ψ} (h : F.Midway step start s received taken buf)
    (hnext : F.next buf = some (frame, rest)) (hstep : step s frame = .inr out) :
    (F.assemble step start).Read received (taken ++ [out]) rest := by
  obtain ⟨part, hread, hpart⟩ := h
  apply hread.take
  show F.resume step start (part ++ buf) = some (out, rest)
  rw [hpart, resume_of_some hnext, hstep]
  rfl

/-- Nothing complete is left. -/
theorem Midway.taken_eq (h : F.Midway step start s received taken buf)
    (hnext : F.next buf = none) : taken = ((F.assemble step start).frames received).1 := by
  obtain ⟨part, hread, hpart⟩ := h
  apply hread.taken_eq
  show F.resume step start (part ++ buf) = none
  rw [hpart, resume_of_none hnext]

end Assemble

end Framing

section Cut

variable [DecidableEq α]

/-- What stands before the first occurrence of the separator, and what after it. -/
def cutAt (sep : List α) : List α → Option (List α × List α)
  | [] => none
  | a :: buf =>
    if sep <+: a :: buf then some ([], (a :: buf).drop sep.length)
    else (cutAt sep buf).map fun p => (a :: p.1, p.2)

omit [DecidableEq α] in
theorem isPrefix_append_iff {sep buf : List α} (more : List α) (h : sep.length ≤ buf.length) :
    sep <+: buf ++ more ↔ sep <+: buf := by
  constructor
  · intro hpre
    exact List.prefix_of_prefix_length_le hpre (List.prefix_append buf more) h
  · intro hpre
    exact hpre.trans (List.prefix_append buf more)

/-- The separator stands between the two, and what comes after it does not matter. -/
theorem cutAt_spec {sep buf before after : List α} (h : cutAt sep buf = some (before, after)) :
    buf = before ++ sep ++ after ∧ (sep ≠ [] → ∀ more,
      cutAt sep (before ++ sep ++ more) = some (before, more)) := by
  induction buf generalizing before with
  | nil => simp [cutAt] at h
  | cons a buf ih =>
    unfold cutAt at h
    split at h
    · rename_i hsep
      simp only [Option.some.injEq, Prod.mk.injEq] at h
      obtain ⟨rfl, rfl⟩ := h
      refine ⟨(List.prefix_append_drop hsep), fun hne more => ?_⟩
      cases sep with
      | nil => exact absurd rfl hne
      | cons b sep => simp [cutAt]
    · rename_i hsep
      cases hcut : cutAt sep buf with
      | none => simp [hcut] at h
      | some p =>
        simp only [hcut, Option.map_some, Option.some.injEq, Prod.mk.injEq] at h
        obtain ⟨rfl, rfl⟩ := h
        obtain ⟨rfl, hmore⟩ := ih hcut
        refine ⟨rfl, fun hne more => ?_⟩
        have hlen : sep.length ≤ (a :: (p.1 ++ sep)).length := by
          simp
          omega
        have hpre : ∀ tail : List α,
            sep <+: a :: (p.1 ++ sep ++ tail) ↔ sep <+: a :: (p.1 ++ sep) := fun tail =>
          isPrefix_append_iff tail hlen
        rw [List.cons_append, List.cons_append]
        unfold cutAt
        rw [if_neg (((hpre more).trans (hpre p.2).symm).not.mpr hsep), hmore hne]
        rfl

/-- Frames that end in a separator. -/
def Framing.delimited (sep : List α) (hsep : sep ≠ []) : Framing α (List α) where
  next := cutAt sep
  used := by
    intro buf rest frame h
    obtain ⟨hbuf, hmore⟩ := cutAt_spec h
    exact ⟨frame ++ sep, by simp [hsep], hbuf, hmore hsep⟩

end Cut

end Library
