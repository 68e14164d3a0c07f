import Bmdwire.Interface.LaneMoves

/-!
# What the log says

The specifications of the lane read its log, newest entry first: which locks the switcher
has granted, and which request it has not answered yet. Nothing here looks at the lane's
own belief.
-/

set_option autoImplicit false

namespace Bmdwire

/-! ## Locks -/

/-- The entry is an LKOB for the store. -/
def Act.grants (store : Store) : Act → Bool
  | .recv _ (.lockObtained k) => k = store
  | _ => false

/-- The entry is a release of the store's lock sent by this client. -/
def Act.releases (store : Store) : Act → Bool
  | .send _ (.lock k false) => k = store
  | _ => false

/-- An LKOB for the store arrived after the last release sent for it. -/
def granted (store : Store) : List Act → Bool
  | [] => false
  | a :: past => a.grants store || (!a.releases store && granted store past)

/-- The store whose lock a command is only right under: that of a transfer request, unless
it is the macro store, and that of any clear. -/
def Command.needsLock? : Command → Option Store
  | .uploadRequest _ _ store _ _ _ => if store = macroStore then none else some store
  | .downloadRequest _ _ store _ => if store = macroStore then none else some store
  | .clearStill _ store _ => some store
  | _ => none

def Act.needsLock? : Act → Option Store
  | .send _ c => c.needsLock?
  | _ => none

/-- A request or a clear was sent with its store's lock granted and not released since. -/
def SentUnderLock (a : Act) (past : List Act) : Prop :=
  ∀ store, a.needsLock? = some store → granted store past = true

/-- Entries that release nothing of a store leave it granted. -/
theorem granted_append {store : Store} {new log : List Act}
    (h : ∀ a ∈ new, a.releases store = false) (hg : granted store log = true) :
    granted store (new ++ log) = true := by
  induction new with
  | nil => exact hg
  | cons a new ih =>
    have ih := ih fun b hb => h b (List.mem_cons_of_mem a hb)
    simp only [List.cons_append, granted, h a (List.mem_cons_self ..), ih]
    simp

/-- Entries that need no lock are sent rightly. -/
theorem every_sentUnderLock_append {new log : List Act} (h : ∀ a ∈ new, a.needsLock? = none)
    (hlog : Library.Every SentUnderLock log) : Library.Every SentUnderLock (new ++ log) := by
  refine hlog.append new fun post b past hp store hb => ?_
  rw [h b (by rw [hp]; simp)] at hb
  cases hb

/-- Bulk neither grants nor releases, and needs no lock. -/
theorem Act.bulk_spec {a : Act} (h : a.bulk = true) (store : Store) :
    a.grants store = false ∧ a.releases store = false ∧ a.needsLock? = none := by
  cases a with
  | recv now e => simp [Act.bulk] at h
  | send now c => cases c <;> simp_all [Act.bulk, Act.grants, Act.releases, Act.needsLock?,
      Command.needsLock?]
  | notice n => exact ⟨rfl, rfl, rfl⟩
  | throw e => exact ⟨rfl, rfl, rfl⟩

/-- An entry that releases nothing and needs no lock. -/
def Act.lockFree (a : Act) : Prop := a.needsLock? = none ∧ ∀ store, a.releases store = false

theorem Act.lockFree_of_bulk {a : Act} (h : a.bulk = true) : a.lockFree :=
  ⟨(Act.bulk_spec h 0).2.2, fun store => (Act.bulk_spec h store).2.1⟩

theorem Act.lockFree_notice (n : Notice) : (Act.notice n).lockFree := ⟨rfl, fun _ => rfl⟩

/-- A transfer request for a store releases nothing, and needs that store's lock. -/
theorem Command.request_spec (now : Time) {c : Command} {task : TaskId} {transfer : ℕ}
    {store : Store} {slot : Slot} (h : c.request? = some (task, transfer, store, slot)) :
    (∀ k, (Act.send now c).releases k = false) ∧
      (Act.send now c).needsLock? = if store = macroStore then none else some store := by
  cases c <;> simp_all [Command.request?, Act.releases, Act.needsLock?, Command.needsLock?]

/-- The request for a lock releases nothing, and needs no lock. -/
theorem lockRequestFor_spec (now : Time) (task : TransferTask) :
    (∀ k, (Act.send now (Lane.lockRequestFor task)).releases k = false) ∧
      (Act.send now (Lane.lockRequestFor task)).needsLock? = none := by
  unfold Lane.lockRequestFor
  cases task.kind <;> exact ⟨fun _ => rfl, rfl⟩

/-! ## Requests -/

/-- The task and the transfer id a request carries. -/
def Act.request? : Act → Option (TaskId × ℕ)
  | .send _ c => c.request?.map fun r => (r.1, r.2.1)
  | _ => none

/-- The entry ends what a request under this id asked for: its FTDC, its FTDE, an abort or
a reset. -/
def Act.answers (transfer : ℕ) : Act → Bool
  | .recv _ (.fileTransferDataComplete x) => x = transfer
  | .recv _ (.fileTransferError x _) => x = transfer
  | .recv _ .abortTransfers => true
  | .recv _ .resetTransferLane => true
  | _ => false

/-- The id an FTDE 1 (try again) carries. -/
def Act.refuses? : Act → Option ℕ
  | .recv _ (.fileTransferError x 1) => some x
  | _ => none

/-- The request that nothing has answered yet. -/
def outstanding : List Act → Option (TaskId × ℕ)
  | [] => none
  | a :: past =>
    match a.request? with
    | some r => some r
    | none => (outstanding past).filter fun r => !a.answers r.2

/-- The last request. -/
def lastRequest (log : List Act) : Option (TaskId × ℕ) := log.findSome? Act.request?

/-- The task whose request was answered by an FTDE 1, if nothing was requested since. -/
def refusedLast : List Act → Option TaskId
  | [] => none
  | a :: past =>
    match a.request? with
    | some _ => none
    | none =>
      match a.refuses?, outstanding past with
      | some x, some (task, y) => if x = y then some task else refusedLast past
      | _, _ => refusedLast past

/-- How often the task was requested again after an FTDE 1. -/
def retries (task : TaskId) : List Act → ℕ
  | [] => 0
  | a :: past =>
    retries task past +
      if a.request?.map Prod.fst = some task ∧ refusedLast past = some task then 1 else 0

/-- A request goes out when none is outstanding. -/
def RequestedAlone (a : Act) (past : List Act) : Prop :=
  a.request?.isSome → outstanding past = none

/-- A request carries a nonzero 16-bit id, and another one than the request before it if
that was for another task. -/
def RequestedAnew (a : Act) (past : List Act) : Prop :=
  ∀ r, a.request? = some r → 1 ≤ r.2 ∧ r.2 ≤ 0xFFFF ∧
    ∀ r', lastRequest past = some r' → r'.1 ≠ r.1 → r.2 ≠ r'.2

/-- The entry is no request, and no answer to the outstanding one. -/
def Unheard (a : Act) (past : List Act) : Prop :=
  a.request? = none ∧ ∀ r, outstanding past = some r → a.answers r.2 = false

/-- The entry is no request, and no answer to any. -/
def Act.silent (a : Act) : Prop := a.request? = none ∧ ∀ x, a.answers x = false

theorem Act.silent.unheard {a : Act} (h : a.silent) (past : List Act) : Unheard a past :=
  ⟨h.1, fun r _ => h.2 r.2⟩

theorem Act.silent_of_bulk {a : Act} (h : a.bulk = true) : a.silent := by
  cases a with
  | recv now e => cases h
  | send now c => cases c <;> simp_all [Act.bulk, Act.silent, Act.request?, Command.request?,
      Act.answers]
  | notice n => exact ⟨rfl, fun _ => rfl⟩
  | throw e => exact ⟨rfl, fun _ => rfl⟩

theorem Act.silent_notice (n : Notice) : (Act.notice n).silent := ⟨rfl, fun _ => rfl⟩

theorem Act.silent_lock (now : Time) (store : Store) (state : Bool) :
    (Act.send now (.lock store state)).silent := ⟨rfl, fun _ => rfl⟩

theorem lockRequestFor_silent (now : Time) (task : TransferTask) :
    (Act.send now (Lane.lockRequestFor task)).silent := by
  unfold Lane.lockRequestFor
  cases task.kind <;> exact ⟨rfl, fun _ => rfl⟩

/-- An FTDE 1 answers its own id. -/
theorem Act.answers_of_refuses? {a : Act} {x : ℕ} (h : a.refuses? = some x) :
    a.answers x = true := by
  unfold Act.refuses? at h
  split at h
  · obtain rfl := Option.some.inj h
    simp [Act.answers]
  · cases h

section Unheard

variable {a : Act} {past : List Act}

theorem outstanding_unheard (h : Unheard a past) : outstanding (a :: past) = outstanding past := by
  simp only [outstanding, h.1]
  cases ho : outstanding past with
  | none => rfl
  | some r => simp [Option.filter, h.2 r ho]

theorem lastRequest_cons (h : a.request? = none) : lastRequest (a :: past) = lastRequest past := by
  simp [lastRequest, h]

theorem refusedLast_unheard (h : Unheard a past) : refusedLast (a :: past) = refusedLast past := by
  simp only [refusedLast, h.1]
  split
  · rename_i x task y hx ho
    split
    · rename_i hxy
      subst hxy
      have := h.2 _ ho
      rw [Act.answers_of_refuses? hx] at this
      cases this
    · rfl
  · rfl

theorem retries_cons (task : TaskId) (h : a.request? = none) :
    retries task (a :: past) = retries task past := by
  simp [retries, h]

theorem requestedAlone_of_none (h : a.request? = none) : RequestedAlone a past := by
  simp [RequestedAlone, h]

theorem requestedAnew_of_none (h : a.request? = none) : RequestedAnew a past := by
  simp [RequestedAnew, h]

end Unheard

/-- What the log says about requests, as one value: it stays when nothing is heard. -/
structure SameRequests (log log' : List Act) : Prop where
  outstanding : outstanding log' = outstanding log
  lastRequest : lastRequest log' = lastRequest log
  refusedLast : refusedLast log' = refusedLast log
  retries : ∀ task, retries task log' = retries task log
  alone : Library.Every RequestedAlone log → Library.Every RequestedAlone log'
  anew : Library.Every RequestedAnew log → Library.Every RequestedAnew log'

theorem sameRequests_refl (log : List Act) : SameRequests log log :=
  ⟨rfl, rfl, rfl, fun _ => rfl, id, id⟩

theorem sameRequests_unheard {a : Act} {past : List Act} (h : Unheard a past) :
    SameRequests past (a :: past) where
  outstanding := outstanding_unheard h
  lastRequest := lastRequest_cons h.1
  refusedLast := refusedLast_unheard h
  retries task := retries_cons task h.1
  alone hp := ⟨requestedAlone_of_none h.1, hp⟩
  anew hp := ⟨requestedAnew_of_none h.1, hp⟩

theorem SameRequests.trans {l l' l'' : List Act} (h : SameRequests l l')
    (h' : SameRequests l' l'') : SameRequests l l'' where
  outstanding := h'.outstanding.trans h.outstanding
  lastRequest := h'.lastRequest.trans h.lastRequest
  refusedLast := h'.refusedLast.trans h.refusedLast
  retries task := (h'.retries task).trans (h.retries task)
  alone := h'.alone ∘ h.alone
  anew := h'.anew ∘ h.anew

theorem sameRequests_cons {a : Act} {past : List Act} (h : a.silent) :
    SameRequests past (a :: past) :=
  sameRequests_unheard (h.unheard past)

theorem sameRequests_append {new log : List Act} (h : ∀ a ∈ new, a.silent) :
    SameRequests log (new ++ log) := by
  induction new with
  | nil => exact sameRequests_refl log
  | cons a new ih =>
    have ih := ih fun b hb => h b (List.mem_cons_of_mem a hb)
    exact ih.trans (sameRequests_cons (h a (List.mem_cons_self ..)))

end Bmdwire
