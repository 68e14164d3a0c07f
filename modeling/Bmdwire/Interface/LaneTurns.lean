import Bmdwire.Interface.LaneLog

/-!
# Whose turn it is, by the log

After a release of ours a store is left to other clients. The log says when that turn is
over: the store was announced free long enough ago, or nothing was heard of anyone else
for long enough. A turn is judged at an instant, by the log as it was then; a lock request
must find such an instant behind it.

A session of the locks ends with a reset or the teardown, and so do the turns its releases
began. The teardown's own releases begin none.
-/

set_option autoImplicit false

namespace Bmdwire

/-! ## Releases and what follows them -/

/-- The store a lock request of this client is for. -/
def Act.asksLock? : Act → Option Store
  | .send _ (.lock k true) => some k
  | .send _ (.partialLock k _) => some k
  | _ => none

/-- When an event came, or a lock was asked for or given back. -/
def Act.time? : Act → Option Time
  | .recv now _ => some now
  | .send now (.lock _ _) => some now
  | .send now (.partialLock _ _) => some now
  | _ => none

/-- When this client released the store, if this entry says so. -/
def Act.releasedAt? (store : Store) : Act → Option Time
  | .send now (.lock k false) => if k = store then some now else none
  | _ => none

/-- The locks' session ends here. -/
def Act.endsSession : Act → Bool
  | .recv _ .resetTransferLane => true
  | .recv _ .releaseLocksNow => true
  | _ => false

/-- The event being handled. -/
def lastEvent : List Act → Option LaneEvent
  | [] => none
  | .recv _ e :: _ => some e
  | _ :: past => lastEvent past

/-- The time of this session's last release of the store, and the entries since. -/
def sinceRelease (store : Store) : List Act → Option (Time × List Act)
  | [] => none
  | a :: past =>
    match a.releasedAt? store with
    | some now => if lastEvent past = some .releaseLocksNow then none else some (now, [])
    | none =>
      if a.endsSession then none else (sinceRelease store past).map fun r => (r.1, a :: r.2)

/-! ## Signs of other clients -/

/-- The entry is a sign of another client at `v`: an LKST "taken" that announces no grant of
ours, an FTDC of another transfer than our last, or an FTDE 6. -/
inductive Sign (past : List Act) (v : Time) : Act → Prop
  | lock {store : Store} : store ≠ macroStore → granted store past = false →
      (∀ t, .recv t (.lockObtained store) ∈ past → lockEchoWindow < v - t) →
      Sign past v (.recv v (.lockState store true))
  | completion {transfer : ℕ} : (∀ r, lastRequest past = some r → r.2 ≠ transfer) →
      Sign past v (.recv v (.fileTransferDataComplete transfer))
  | yielded {r : TaskId × ℕ} : outstanding past = some r →
      Sign past v (.recv v (.fileTransferError r.2 6))

/-- The log has a sign of another client at `v`. -/
def SignAt (v : Time) (log : List Act) : Prop :=
  ∃ post a past, log = post ++ a :: past ∧ Sign past v a

/-- Others were seen recently. -/
def OthersAt (u : Time) (log : List Act) : Prop := ∃ v, SignAt v log ∧ u - v < lockQuiet

/-- Every sign of another client since the store's release came by `q`. -/
def QuietSince (store : Store) (q : Time) : List Act → Prop
  | [] => True
  | a :: past =>
    (a.releasedAt? store).isSome ∨ (∀ v, Sign past v a → v ≤ q) ∧ QuietSince store q past

/-! ## Turns -/

/-- The announcement at `f` is the echo of our release at `r`: it came soon, and nobody took
the store in between. -/
def OwnEcho (store : Store) (r f : Time) (between : List Act) : Prop :=
  f - r ≤ lockEchoWindow ∧ ∀ v, .recv v (.lockState store true) ∉ between

/-- At `u`, by the log as it was then, the turn left to others is over: the store was
announced free at `f`, `LOCK_COURTESY` ago and, if that announced our own release and others
are about, `LOCK_HANDOVER` more; or there was no sign of anyone for `LOCK_QUIET`. -/
def TurnOver (store : Store) (u : Time) (log : List Act) : Prop :=
  ∃ r since, sinceRelease store log = some (r, since) ∧
    ((∃ f later between, since = later ++ .recv f (.lockState store false) :: between ∧
        f + lockCourtesy ≤ u ∧
        (OwnEcho store r f between → OthersAt u log → f + lockCourtesy + lockHandover ≤ u)) ∨
      ∃ q, r ≤ q ∧ q + lockQuiet ≤ u ∧ QuietSince store q log)

/-- The turn that the store's last release began was over at some instant by `t`. -/
def TurnTaken (store : Store) (t : Time) (log : List Act) : Prop :=
  ∃ u later past, log = later ++ past ∧ u ≤ t ∧ TurnOver store u past ∧
    ∀ a ∈ later, a.releasedAt? store = none ∧ ∀ v, a.time? = some v → u ≤ v

/-- A lock request for a store released in this session goes out with the turn over. -/
def AskedInTurn (a : Act) (past : List Act) : Prop :=
  ∀ store t, a.asksLock? = some store → a.time? = some t →
    (sinceRelease store past).isSome → TurnTaken store t past

/-! ## Entries that leave the turns alone -/

/-- The entry is not an event received. -/
def Act.own (a : Act) : Prop := ∀ now e, a ≠ .recv now e

/-- The entry neither releases the store nor ends the session. -/
def Act.keepsTurn (store : Store) (a : Act) : Prop :=
  a.releasedAt? store = none ∧ a.endsSession = false

theorem Act.releasedAt?_of_releases {a : Act} {store : Store} (h : a.releases store = false) :
    a.releasedAt? store = none := by
  cases a with
  | send now c =>
    cases c with
    | lock k state =>
      cases state with
      | true => rfl
      | false => simpa [Act.releases, Act.releasedAt?] using h
    | _ => rfl
  | _ => rfl

theorem Act.own.endsSession {a : Act} (h : a.own) : a.endsSession = false := by
  cases a with
  | recv now e => exact absurd rfl (h now e)
  | _ => rfl

theorem Act.own.not_sign {a : Act} (h : a.own) (past : List Act) (v : Time) : ¬ Sign past v a := by
  rintro (⟨-, -, -⟩ | ⟨-⟩ | ⟨-⟩)
  · exact h _ _ rfl
  · exact h _ _ rfl
  · exact h _ _ rfl

theorem Act.own_of_bulk {a : Act} (h : a.bulk = true) : a.own := by
  rintro now e rfl
  cases h

theorem Act.own_send (now : Time) (c : Command) : (Act.send now c).own := by
  rintro now e ⟨⟩

theorem Act.own_notice (n : Notice) : (Act.notice n).own := by
  rintro now e ⟨⟩

/-- Bulk asks for no lock. -/
theorem Act.asksLock?_of_bulk {a : Act} (h : a.bulk = true) : a.asksLock? = none := by
  cases a with
  | send now c => cases c <;> simp_all [Act.bulk, Act.asksLock?]
  | _ => rfl

/-- Bulk bears no time. -/
theorem Act.time?_of_bulk {a : Act} (h : a.bulk = true) : a.time? = none := by
  cases a with
  | recv now e => cases h
  | send now c => cases c <;> simp_all [Act.bulk, Act.time?]
  | _ => rfl

/-- A transfer request asks for no lock. -/
theorem Command.asksLock?_of_request (now : Time) {c : Command} (h : c.request?.isSome) :
    (Act.send now c).asksLock? = none ∧ (Act.send now c).time? = none := by
  cases c <;> simp_all [Command.request?, Act.asksLock?, Act.time?]

theorem lockRequestFor_asks (now : Time) (task : TransferTask) :
    (Act.send now (Lane.lockRequestFor task)).asksLock? = some task.store := by
  unfold Lane.lockRequestFor
  cases task.kind <;> rfl

theorem lockRequestFor_time (now : Time) (task : TransferTask) :
    (Act.send now (Lane.lockRequestFor task)).time? = some now := by
  unfold Lane.lockRequestFor
  cases task.kind <;> rfl

theorem askedInTurn_of_none {a : Act} {past : List Act} (h : a.asksLock? = none) :
    AskedInTurn a past := by
  intro store t ha
  rw [h] at ha
  cases ha

section Log

variable {store : Store} {log new : List Act}

theorem sinceRelease_cons {a : Act} (h : a.keepsTurn store) :
    sinceRelease store (a :: log) = (sinceRelease store log).map fun r => (r.1, a :: r.2) := by
  simp [sinceRelease, h.1, h.2]

theorem sinceRelease_append (h : ∀ a ∈ new, a.keepsTurn store) :
    sinceRelease store (new ++ log) =
      (sinceRelease store log).map fun r => (r.1, new ++ r.2) := by
  induction new with
  | nil => simp
  | cons a new ih =>
    have ih := ih fun b hb => h b (List.mem_cons_of_mem a hb)
    rw [List.cons_append, sinceRelease_cons (h a (List.mem_cons_self ..)), ih, Option.map_map]
    rfl

/-- The releases of the teardown begin no turn, and end those that were on. -/
theorem sinceRelease_teardown {now : Time} (store : Store)
    (h : ∀ a ∈ new, ∃ k, a = .send now (.lock k false)) :
    sinceRelease store (new ++ .recv now .releaseLocksNow :: log) = none := by
  have hlast : ∀ new : List Act, (∀ a ∈ new, ∃ k, a = .send now (.lock k false)) →
      lastEvent (new ++ .recv now .releaseLocksNow :: log) = some .releaseLocksNow := by
    intro new hnew
    induction new with
    | nil => rfl
    | cons a new ih =>
      obtain ⟨k, rfl⟩ := hnew a (List.mem_cons_self ..)
      exact ih fun b hb => hnew b (List.mem_cons_of_mem _ hb)
  induction new with
  | nil => rfl
  | cons a new ih =>
    have hnew : ∀ b ∈ new, ∃ k, b = .send now (.lock k false) := fun b hb =>
      h b (List.mem_cons_of_mem _ hb)
    obtain ⟨k, rfl⟩ := h a (List.mem_cons_self ..)
    by_cases hk : k = store
    · simp [sinceRelease, Act.releasedAt?, hk, hlast new hnew]
    · rw [List.cons_append, sinceRelease_cons ⟨by simp [Act.releasedAt?, hk], rfl⟩, ih hnew]
      rfl

/-- What was logged since the release is in the log, and so is the release. -/
theorem mem_of_sinceRelease {r : Time} {since : List Act}
    (h : sinceRelease store log = some (r, since)) :
    (∀ a ∈ since, a ∈ log) ∧ .send r (.lock store false) ∈ log := by
  induction log generalizing since with
  | nil => cases h
  | cons a past ih =>
    unfold sinceRelease at h
    split at h
    · rename_i now ha
      split at h
      · cases h
      · cases h
        refine ⟨by simp, ?_⟩
        unfold Act.releasedAt? at ha
        split at ha
        · split at ha
          · rename_i hk
            cases ha
            rw [hk]
            exact List.mem_cons_self ..
          · cases ha
        · cases ha
    · split at h
      · cases h
      · obtain ⟨⟨r', since'⟩, hr, heq⟩ := Option.map_eq_some_iff.mp h
        cases heq
        obtain ⟨hsince, hrel⟩ := ih hr
        refine ⟨?_, List.mem_cons_of_mem _ hrel⟩
        intro b hb
        rcases List.mem_cons.mp hb with rfl | hb
        · exact List.mem_cons_self ..
        · exact List.mem_cons_of_mem _ (hsince b hb)

/-- Entries that are no signs keep it quiet. -/
theorem quietSince_append {q : Time} (hsign : ∀ a ∈ new, ∀ past v, ¬ Sign past v a)
    (h : QuietSince store q log) : QuietSince store q (new ++ log) := by
  induction new with
  | nil => exact h
  | cons a new ih =>
    right
    refine ⟨fun v hv => absurd hv (hsign a (List.mem_cons_self ..) _ v), ?_⟩
    exact ih fun b hb => hsign b (List.mem_cons_of_mem a hb)

theorem QuietSince.mono {q q' : Time} (hq : q ≤ q') (h : QuietSince store q log) :
    QuietSince store q' log := by
  induction log with
  | nil => trivial
  | cons a past ih =>
    rcases h with h | ⟨h, hpast⟩
    · exact .inl h
    · exact .inr ⟨fun v hv => (h v hv).trans hq, ih hpast⟩

/-- A sign bears the time of its entry. -/
theorem Sign.time {past : List Act} {v : Time} {a : Act} (h : Sign past v a) :
    a.time? = some v := by
  cases h <;> rfl

/-- By the time of the last entry everything is quiet. -/
theorem quietSince_of_time {q : Time} (h : ∀ a ∈ log, ∀ v, a.time? = some v → v ≤ q) :
    QuietSince store q log := by
  induction log with
  | nil => trivial
  | cons a past ih =>
    right
    refine ⟨fun v hv => h a (List.mem_cons_self ..) v hv.time, ?_⟩
    exact ih fun b hb => h b (List.mem_cons_of_mem a hb)

theorem signAt_cons {v : Time} {a : Act} :
    SignAt v (a :: log) ↔ Sign log v a ∨ SignAt v log := by
  constructor
  · rintro ⟨post, b, past, heq, hb⟩
    cases post with
    | nil =>
      cases heq
      exact .inl hb
    | cons c post =>
      cases heq
      exact .inr ⟨post, b, past, rfl, hb⟩
  · rintro (h | ⟨post, b, past, rfl, hb⟩)
    · exact ⟨[], a, log, rfl, h⟩
    · exact ⟨a :: post, b, past, rfl, hb⟩

/-- Entries that are no signs add none. -/
theorem signAt_append {v : Time} (hsign : ∀ a ∈ new, ∀ past v, ¬ Sign past v a) :
    SignAt v (new ++ log) ↔ SignAt v log := by
  induction new with
  | nil => exact Iff.rfl
  | cons a new ih =>
    rw [List.cons_append, signAt_cons, ih fun b hb => hsign b (List.mem_cons_of_mem a hb)]
    exact or_iff_right (hsign a (List.mem_cons_self ..) _ v)

theorem TurnTaken.mono {t t' : Time} (ht : t ≤ t') (h : TurnTaken store t log) :
    TurnTaken store t' log := by
  obtain ⟨u, later, past, hlog, hu, hover, hlater⟩ := h
  exact ⟨u, later, past, hlog, hu.trans ht, hover, hlater⟩

/-- A turn that was over stays over while the store is not released again. -/
theorem TurnTaken.append {t : Time} (h : TurnTaken store t log)
    (hnew : ∀ a ∈ new, a.releasedAt? store = none ∧ ∀ v, a.time? = some v → t ≤ v) :
    TurnTaken store t (new ++ log) := by
  obtain ⟨u, later, past, rfl, hu, hover, hlater⟩ := h
  refine ⟨u, new ++ later, past, by rw [List.append_assoc], hu, hover, ?_⟩
  intro a ha
  rcases List.mem_append.mp ha with ha | ha
  · exact ⟨(hnew a ha).1, fun v hv => hu.trans ((hnew a ha).2 v hv)⟩
  · exact hlater a ha

end Log

/-- Entries that ask for no lock are asked in turn. -/
theorem every_askedInTurn_append {new log : List Act} (h : ∀ a ∈ new, a.asksLock? = none)
    (hlog : Library.Every AskedInTurn log) : Library.Every AskedInTurn (new ++ log) := by
  refine hlog.append new fun post b past hp => ?_
  exact askedInTurn_of_none (h b (by rw [hp]; simp))

end Bmdwire
