import Bmdwire.Interface.PoolFields

/-!
# The sessions of the pool

A running worker is the worker of a registered entry (`Sessions`) in every run in which
`connect` starts workers only for an entry that is registered, not past its `disconnect()` in an
eviction, and with no callback of a dead worker still to come. An exit from
`acquire_connection` disconnects nothing itself, so a worker off the registry stays.
-/

set_option autoImplicit false

namespace Bmdwire

open Library (Dict)

namespace Pool

/-- A worker that has died of itself and whose callback is still to come. -/
def isDying : WorkerStatus → Bool
  | .died => true
  | .waiting _ => true
  | _ => false

/-- A running worker is that of the registered entry of its address; it is not of an entry with
a callback to come, nor of one past its `disconnect()` in a section, which is registered till the
section's end. -/
structure Sessions (s : Pool) : Prop where
  registered : ∀ ip e, s.instances.get? ip = some e → e < s.nextEntry
  running : ∀ w, (s.workers w).status = .running →
    s.instances.get? (s.entries (s.workers w).entry).ip = some (s.workers w).entry ∧
    (s.entries (s.workers w).entry).connection.worker = some w
  dying : ∀ w, isDying (s.workers w).status = true → ∀ w', (s.workers w').status = .running →
    (s.workers w').entry ≠ (s.workers w).entry
  torn : ∀ td, s.teardown = some td → s.instances.get? td.ip = some td.entry ∧
    (td.disconnected = true →
      ∀ w, (s.workers w).status = .running → (s.workers w).entry ≠ td.entry)

/-- The changes that the sessions do not depend on. -/
structure SameSessions (s t : Pool) : Prop where
  instances : t.instances = s.instances
  nextEntry : t.nextEntry = s.nextEntry
  entry : ∀ e, (t.entries e).ip = (s.entries e).ip ∧
    (t.entries e).connection.worker = (s.entries e).connection.worker
  workers : t.workers = s.workers
  teardown : t.teardown = s.teardown

theorem SameSessions.refl (s : Pool) : SameSessions s s :=
  ⟨rfl, rfl, fun _ => ⟨rfl, rfl⟩, rfl, rfl⟩

theorem SameSessions.trans {s t u : Pool} (h : SameSessions s t) (h' : SameSessions t u) :
    SameSessions s u where
  instances := h'.instances.trans h.instances
  nextEntry := h'.nextEntry.trans h.nextEntry
  entry e := ⟨(h'.entry e).1.trans (h.entry e).1, (h'.entry e).2.trans (h.entry e).2⟩
  workers := h'.workers.trans h.workers
  teardown := h'.teardown.trans h.teardown

/-- A change of an entry that leaves its address and its worker. -/
theorem setEntry_sessions {s : Pool} (e : ℕ) {f : Entry → Entry}
    (hf : ∀ entry, (f entry).ip = entry.ip ∧ (f entry).connection.worker = entry.connection.worker) :
    SameSessions s (s.setEntry e f) where
  __ := SameSessions.refl s
  entry i := by
    have hentry : (s.setEntry e f).entries i = if i = e then f (s.entries e) else s.entries i :=
      Function.update_apply ..
    rw [hentry]
    split
    · rename_i hi
      rw [hi]
      exact hf _
    · exact ⟨rfl, rfl⟩

/-- A change of a connection that leaves its worker. -/
theorem setConnection_sessions {s : Pool} (e : ℕ) {f : Connection → Connection}
    (hf : ∀ conn, (f conn).worker = conn.worker) : SameSessions s (s.setConnection e f) :=
  setEntry_sessions e (f := fun entry => { entry with connection := f entry.connection })
    fun entry => ⟨rfl, hf entry.connection⟩

namespace Sessions

variable {s t : Pool}

theorem frame (h : Sessions s) (hs : SameSessions s t) : Sessions t where
  registered ip e he := by
    rw [hs.instances] at he
    rw [hs.nextEntry]
    exact h.registered ip e he
  running w hw := by
    rw [hs.workers] at hw ⊢
    rw [hs.instances, (hs.entry _).1, (hs.entry _).2]
    exact h.running w hw
  dying w hw w' hw' := by
    rw [hs.workers] at hw hw' ⊢
    exact h.dying w hw w' hw'
  torn td htd := by
    rw [hs.teardown] at htd
    rw [hs.instances, hs.workers]
    exact h.torn td htd

/-- A worker that is set to a status that is not running. -/
theorem setWorker (h : Sessions s) (w : ℕ) (status : WorkerStatus) (hrun : status ≠ .running)
    (hdying : isDying status = true → ∀ w', w' ≠ w → (s.workers w').status = .running →
      (s.workers w').entry ≠ (s.workers w).entry) :
    Sessions (s.setWorker w status) := by
  have hentry : ∀ w', ((s.setWorker w status).workers w').entry = (s.workers w').entry := by
    intro w'
    rw [workers_setWorker]
    split
    · rename_i hw
      rw [hw]
    · rfl
  have hold : ∀ w', ((s.setWorker w status).workers w').status = .running →
      w' ≠ w ∧ (s.workers w').status = .running := by
    intro w' hw'
    rw [workers_setWorker] at hw'
    split at hw'
    · exact absurd hw' hrun
    · exact ⟨‹_›, hw'⟩
  refine ⟨h.registered, ?_, ?_, ?_⟩
  · intro w' hw'
    rw [hentry]
    exact h.running w' (hold w' hw').2
  · intro i hi w' hw'
    obtain ⟨hne, hrunning⟩ := hold w' hw'
    rw [hentry, hentry]
    rw [workers_setWorker] at hi
    split at hi
    · rename_i hiw
      rw [hiw]
      exact hdying hi w' hne hrunning
    · exact h.dying i hi w' hrunning
  · intro td htd
    obtain ⟨hreg, hgone⟩ := h.torn td htd
    refine ⟨hreg, fun hd w' hw' => ?_⟩
    rw [hentry]
    exact hgone hd w' (hold w' hw').2

/-- Two running workers are not of one entry. -/
theorem running_unique (h : Sessions s) {w w' : ℕ} (hw : (s.workers w).status = .running)
    (hw' : (s.workers w').status = .running) (he : (s.workers w').entry = (s.workers w).entry) :
    w' = w := by
  have hworker := (h.running w hw).2
  have hworker' := (h.running w' hw').2
  rw [he, hworker] at hworker'
  exact (Option.some.inj hworker').symm

/-- No worker of an entry runs. -/
def Idle (s : Pool) (e : ℕ) : Prop :=
  ∀ w, (s.workers w).status = .running → (s.workers w).entry ≠ e

/-- The connection of an entry without a running worker changes. -/
theorem setConnection (h : Sessions s) {e : ℕ} (hidle : Idle s e) (f : Connection → Connection) :
    Sessions (s.setConnection e f) where
  registered := h.registered
  running w hw := by
    have hentry : (s.setConnection e f).entries (s.workers w).entry =
        s.entries (s.workers w).entry := Function.update_of_ne (hidle w hw) ..
    show s.instances.get? ((s.setConnection e f).entries (s.workers w).entry).ip = _ ∧
      ((s.setConnection e f).entries (s.workers w).entry).connection.worker = _
    rw [hentry]
    exact h.running w hw
  dying := h.dying
  torn := h.torn

/-- After `_disconnect_locked` the entry has no running worker. -/
theorem disconnectLocked (h : Sessions s) (e : ℕ) :
    Sessions (s.disconnectLocked e) ∧ Idle (s.disconnectLocked e) e := by
  have hidle : ∀ w, (s.entries e).connection.worker = some w →
      Idle (s.setWorker w .ended) e := by
    intro w hworker w' hw' he
    rw [workers_setWorker] at hw' he
    split at hw'
    · cases hw'
    · rename_i hne
      rw [if_neg hne] at he
      have hcurrent := (h.running w' hw').2
      rw [he, hworker] at hcurrent
      exact hne (Option.some.inj hcurrent).symm
  let f : Connection → Connection := fun conn =>
    { conn with diedSignalled := true, handshakeDone := false, worker := none, ipAddress := none }
  unfold Pool.disconnectLocked
  dsimp only
  split
  · rename_i hnone
    have hs : Idle s e := by
      intro w hw he
      have hcurrent := (h.running w hw).2
      rw [he, hnone] at hcurrent
      cases hcurrent
    exact ⟨h.setConnection hs _, hs⟩
  · rename_i w hworker
    split
    · have hend := h.setWorker w .ended (by simp) (by simp [isDying])
      exact ⟨hend.setConnection (hidle w hworker) f, hidle w hworker⟩
    · rename_i hstopped
      have hs : Idle s e := by
        intro w' hw' he
        have hcurrent := (h.running w' hw').2
        rw [he, hworker] at hcurrent
        cases hcurrent
        exact hstopped hw'
      exact ⟨h.setConnection hs _, hs⟩

/-- `_disconnect_locked` leaves the registry, the sections and the addresses. -/
theorem disconnectLocked_frame (e : ℕ) : (s.disconnectLocked e).instances = s.instances ∧
    (s.disconnectLocked e).nextEntry = s.nextEntry ∧
    (s.disconnectLocked e).teardown = s.teardown ∧
    (∀ i, ((s.disconnectLocked e).entries i).ip = (s.entries i).ip) ∧
    ∀ w, ((s.disconnectLocked e).workers w).entry = (s.workers w).entry ∧
      (((s.disconnectLocked e).workers w).status = (s.workers w).status ∨
        ((s.disconnectLocked e).workers w).status = .ended) := by
  have hip : ∀ f i, ((s.setConnection e f).entries i).ip = (s.entries i).ip := by
    intro f i
    have hentry : (s.setConnection e f).entries i = if i = e then
        { s.entries e with connection := f (s.entries e).connection } else s.entries i :=
      Function.update_apply ..
    rw [hentry]
    split
    · rename_i hi
      rw [hi]
    · rfl
  let f : Connection → Connection := fun conn =>
    { conn with diedSignalled := true, handshakeDone := false, worker := none, ipAddress := none }
  unfold Pool.disconnectLocked
  dsimp only
  split
  · exact ⟨rfl, rfl, rfl, hip f, fun w => ⟨rfl, Or.inl rfl⟩⟩
  · split
    · refine ⟨rfl, rfl, rfl, hip f, fun w => ?_⟩
      rw [workers_setWorker]
      split
      · rename_i hw
        rw [hw]
        exact ⟨rfl, Or.inr rfl⟩
      · exact ⟨rfl, Or.inl rfl⟩
    · exact ⟨rfl, rfl, rfl, hip f, fun w => ⟨rfl, Or.inl rfl⟩⟩

/-- A worker started for a registered entry that has none, and no callback to come. -/
theorem start (h : Sessions s) {e : ℕ} (hidle : Idle s e)
    (hreg : s.instances.get? (s.entries e).ip = some e)
    (htorn : ∀ td, s.teardown = some td → td.entry = e → td.disconnected = false)
    (hdying : ∀ w, (s.workers w).entry = e → isDying (s.workers w).status = false)
    {conn : Connection} (hconn : conn.worker = some s.nextWorker) :
    Sessions { s.setConnection e (fun _ => conn) with
      workers := Function.update s.workers s.nextWorker ⟨e, .running⟩
      nextWorker := s.nextWorker + 1 } := by
  have hworker : ∀ w, Function.update s.workers s.nextWorker ⟨e, .running⟩ w =
      if w = s.nextWorker then ⟨e, .running⟩ else s.workers w := fun w => Function.update_apply ..
  have hself : (s.setConnection e fun _ => conn).entries e =
      { s.entries e with connection := conn } := Function.update_self ..
  have hother : ∀ i, i ≠ e → (s.setConnection e fun _ => conn).entries i = s.entries i :=
    fun i hi => Function.update_of_ne hi ..
  refine ⟨h.registered, ?_, ?_, ?_⟩
  · intro w hw
    dsimp only at hw ⊢
    rw [hworker] at hw ⊢
    split at hw
    · rename_i hnew
      rw [if_pos hnew]
      dsimp only
      rw [hself, hnew]
      exact ⟨hreg, hconn⟩
    · rename_i hold
      rw [if_neg hold, hother _ (hidle w hw)]
      exact h.running w hw
  · intro w hw w' hw'
    dsimp only at hw hw' ⊢
    rw [hworker] at hw hw' ⊢
    rw [hworker]
    split at hw
    · cases hw
    · rename_i hold
      rw [if_neg hold]
      split at hw'
      · rename_i hnew
        rw [if_pos hnew]
        intro he
        rw [hdying w he.symm] at hw
        cases hw
      · rename_i hold'
        rw [if_neg hold']
        exact h.dying w hw w' hw'
  · intro td htd
    obtain ⟨htdreg, hgone⟩ := h.torn td htd
    refine ⟨htdreg, fun hd w hw => ?_⟩
    dsimp only at hw ⊢
    rw [hworker] at hw ⊢
    split at hw
    · rename_i hnew
      rw [if_pos hnew]
      intro he
      rw [htorn td htd he.symm] at hd
      cases hd
    · rename_i hold
      rw [if_neg hold]
      exact hgone hd w hw

/-- `_connect_locked` of a caller whose entry is registered. -/
theorem startWorker (h : Sessions s) {i e : ℕ} {ip : String}
    (hreg : s.instances.get? (s.entries e).ip = some e)
    (htorn : ∀ td, s.teardown = some td → td.entry = e → td.disconnected = false)
    (hdying : ∀ w, (s.workers w).entry = e → isDying (s.workers w).status = false) :
    Sessions (s.startWorker i e ip) := by
  unfold Pool.startWorker
  dsimp only
  split
  · obtain ⟨hd, hidle⟩ := h.disconnectLocked e
    obtain ⟨hinstances, -, hteardown, hip, hworkers⟩ := disconnectLocked_frame (s := s) e
    apply hd.start hidle
    · rw [hinstances, hip]
      exact hreg
    · rw [hteardown]
      exact htorn
    · intro w hw
      rw [(hworkers w).1] at hw
      rcases (hworkers w).2 with hstatus | hstatus
      · rw [hstatus]
        exact hdying w hw
      · rw [hstatus]
        rfl
    · rfl
  · rename_i hnone
    apply h.start _ hreg htorn hdying rfl
    intro w hw he
    have hcurrent := (h.running w hw).2
    rw [he] at hcurrent
    rw [hcurrent, Option.any_some] at hnone
    exact hnone (by simp [isAlive, hw])

/-- The registered entry of an address without a running worker goes. -/
theorem erase (h : Sessions s) {ip : String} {e : ℕ} (he : s.instances.get? ip = some e)
    (hidle : Idle s e) (ht : Option Teardown) (hnone : ht = none) :
    Sessions { s with instances := s.instances.erase ip, teardown := ht } where
  registered ip' e' he' := by
    change (s.instances.erase ip).get? ip' = some e' at he'
    rw [Dict.get?_erase] at he'
    split at he'
    · cases he'
    · exact h.registered ip' e' he'
  running w hw := by
    obtain ⟨hreg, hworker⟩ := h.running w hw
    refine ⟨?_, hworker⟩
    have hne : (s.entries (s.workers w).entry).ip ≠ ip := by
      intro hip
      rw [hip, he] at hreg
      exact hidle w hw (Option.some.inj hreg).symm
    exact (Dict.get?_erase_ne s.instances hne).trans hreg
  dying := h.dying
  torn td htd := by
    have htd : ht = some td := htd
    rw [hnone] at htd
    cases htd

/-- A new entry, under an address that has none. -/
theorem createInstance (h : Sessions s) {ip : String} (hnone : s.instances.get? ip = none)
    (htd : s.teardown = none) : Sessions (s.createInstance ip) := by
  have hold : ∀ e, e ≠ s.nextEntry → (s.createInstance ip).entries e = s.entries e := by
    intro e he
    unfold Pool.createInstance
    rw [entries_reference, if_neg he, entries_register, if_neg he]
  refine ⟨?_, ?_, h.dying, ?_⟩
  · intro ip' e he
    change (s.instances.set ip s.nextEntry).get? ip' = some e at he
    rw [Dict.get?_set] at he
    split at he
    · cases he
      exact Nat.lt_succ_self _
    · exact Nat.lt_succ_of_lt (h.registered ip' e he)
  · intro w hw
    obtain ⟨hreg, hworker⟩ := h.running w hw
    have hentry := hold _ (h.registered _ _ hreg).ne
    show (s.instances.set ip s.nextEntry).get? ((s.createInstance ip).entries (s.workers w).entry).ip
      = _ ∧ ((s.createInstance ip).entries (s.workers w).entry).connection.worker = _
    rw [hentry]
    refine ⟨?_, hworker⟩
    rw [Dict.get?_set_ne]
    · exact hreg
    · intro hip
      rw [hip, hnone] at hreg
      cases hreg
  · intro td htd'
    have htd' : s.teardown = some td := htd'
    rw [htd] at htd'
    cases htd'

theorem setPhase (h : Sessions s) (i : ℕ) (x : Holder) (phase : HolderPhase) :
    Sessions (s.setPhase i x phase) :=
  h.frame { SameSessions.refl s with }

theorem cancelTimer_sessions (o : Option ℕ) : SameSessions s (s.cancelTimer o) := by
  unfold Pool.cancelTimer
  split
  · exact .refl s
  · split
    · exact { SameSessions.refl s with }
    · exact .refl s

theorem reference_sessions (ip : String) (e : ℕ) : SameSessions s (s.reference ip e) where
  __ := SameSessions.refl s
  entry i := by
    rw [entries_reference]
    split
    · rename_i hi
      rw [hi]
      exact ⟨rfl, rfl⟩
    · exact ⟨rfl, rfl⟩

theorem rejoin_sessions (ip : String) (e : ℕ) : SameSessions s (s.rejoin ip e) := by
  unfold Pool.rejoin
  dsimp only
  split
  · let f : Entry → Entry := fun entry =>
      { entry with disconnectTimer := none, state := .active }
    exact ((cancelTimer_sessions _).trans (setEntry_sessions e (f := f) fun _ => ⟨rfl, rfl⟩)).trans
      (reference_sessions ip e)
  · exact reference_sessions ip e

theorem getInstance (h : Sessions s) (htd : s.teardown = none) (ip : String) :
    Sessions (s.getInstance ip) := by
  unfold Pool.getInstance
  split
  · rename_i hnone
    exact h.createInstance hnone htd
  · rename_i e he
    dsimp only
    split
    · have hcancel := h.frame (cancelTimer_sessions (s.entries e).disconnectTimer)
      refine ⟨hcancel.registered, hcancel.running, hcancel.dying, ?_⟩
      intro td htd'
      cases htd'
      exact ⟨(cancelTimer_sessions (s := s) _).instances ▸ he, fun hd => by cases hd⟩
    · exact h.frame (rejoin_sessions ip e)

theorem arm_sessions (now : Time) (ip : String) (e : ℕ) : SameSessions s (s.arm now ip e) where
  __ := SameSessions.refl s
  entry i := by
    rw [entries_arm]
    split
    · rename_i hi
      rw [hi]
      exact ⟨rfl, rfl⟩
    · exact ⟨rfl, rfl⟩

theorem releaseEntry_sessions (now : Time) (ip : String) (e : ℕ) :
    SameSessions s (s.releaseEntry now ip e) := by
  have hderef : SameSessions s (s.dereference e) := setEntry_sessions e fun _ => ⟨rfl, rfl⟩
  unfold releaseEntry
  dsimp only
  split
  · exact .refl s
  · split
    · exact hderef
    · exact (hderef.trans (cancelTimer_sessions (s.entries e).disconnectTimer)).trans
        (arm_sessions now ip e)

theorem release (h : Sessions s) (now : Time) (i : ℕ) (x : Holder) (guarded : Bool) :
    Sessions (Pool.release now i x guarded s) := by
  have hleave : Sessions (s.leave i x) := h.frame { SameSessions.refl s with }
  unfold Pool.release releaseInstance
  split
  · exact hleave
  · rename_i e _
    by_cases hother : (if guarded then some x.entry else none).any (· ≠ e) = true
    · rw [if_pos hother]
      exact hleave
    · rw [if_neg hother]
      exact hleave.frame (releaseEntry_sessions _ _ _)

theorem delayedDisconnect (h : Sessions s) (now : Time) (i : ℕ) :
    Sessions (s.delayedDisconnect now i) := by
  have hfinished : Sessions (s.setTimer i .finished) := h.frame { SameSessions.refl s with }
  unfold Pool.delayedDisconnect
  dsimp only
  split
  · exact hfinished
  · rename_i e he
    split
    · exact hfinished
    · have hmark := hfinished.frame
        (setEntry_sessions e (f := fun entry => { entry with state := .tearingDown })
          fun _ => ⟨rfl, rfl⟩)
      refine ⟨hmark.registered, hmark.running, hmark.dying, ?_⟩
      intro td htd
      cases htd
      exact ⟨he, fun hd => by cases hd⟩

theorem disconnectTorn (h : Sessions s) {td : Teardown} (htd : s.teardown = some td) :
    Sessions (s.disconnectTorn td) := by
  obtain ⟨hd, hidle⟩ := h.disconnectLocked td.entry
  refine ⟨hd.registered, hd.running, hd.dying, ?_⟩
  intro td' htd'
  cases htd'
  exact ⟨(disconnectLocked_frame (s := s) td.entry).1 ▸ (h.torn td htd).1, fun _ => hidle⟩

theorem finishTeardown (h : Sessions s) {td : Teardown} (htd : s.teardown = some td)
    (hdone : td.disconnected = true) : Sessions (s.finishTeardown td) := by
  obtain ⟨hreg, hidle⟩ := h.torn td htd
  have herase := h.erase hreg (hidle hdone) none rfl
  unfold Pool.finishTeardown
  dsimp only
  split
  · exact herase.createInstance (Dict.get?_erase_self s.instances td.ip) rfl
  · exact herase

theorem workerExit (h : Sessions s) {w : ℕ} (hw : (s.workers w).status = .running)
    (unexpected : Bool) : Sessions (s.workerExit w unexpected) := by
  let f : Connection → Connection := fun conn => { conn with handshakeDone := false }
  let g : Connection → Connection := fun conn => { conn with diedSignalled := true }
  have hflag := setConnection_sessions (s := s) (s.workers w).entry (f := f) fun _ => rfl
  unfold Pool.workerExit
  dsimp only
  split
  · have hsignal := hflag.trans
      (setConnection_sessions (s.workers w).entry (f := g) fun _ => rfl)
    apply (h.frame hsignal).setWorker w _ (by simp)
    intro _ w' hne hw' he
    exact hne (h.running_unique hw hw' he)
  · exact (h.frame hflag).setWorker w _ (by simp) (by simp [isDying])

theorem diedRead (h : Sessions s) {w : ℕ} (hw : (s.workers w).status = .died) :
    Sessions (s.diedRead w) := by
  unfold Pool.diedRead
  split
  · exact h.setWorker w _ (by simp) (by simp [isDying])
  · refine h.setWorker w _ (by simp) fun _ w' _ hw' => h.dying w ?_ w' hw'
    rw [hw]
    rfl

/-- The callback of a dead worker deletes the entry, which has no running worker. -/
theorem onConnectionDied (h : Sessions s) {w : ℕ} {ip : String} (htd : s.teardown = none)
    (hw : (s.workers w).status = .waiting ip) : Sessions (s.onConnectionDied w ip) := by
  have hended : Sessions (s.setWorker w .ended) := h.setWorker w _ (by simp) (by simp [isDying])
  unfold Pool.onConnectionDied
  dsimp only
  split
  · exact hended
  · rename_i e he
    split
    · exact hended
    · rename_i heq
      have hsame := cancelTimer_sessions (s := s.setWorker w .ended)
        ((s.setWorker w .ended).entries e).disconnectTimer
      refine (hended.frame hsame).erase (hsame.instances ▸ he) ?_ ((s.setWorker w
        .ended).cancelTimer ((s.setWorker w .ended).entries e).disconnectTimer).teardown ?_
      · intro w' hw' hentry
        rw [hsame.workers, workers_setWorker] at hw' hentry
        split at hw'
        · cases hw'
        · rename_i hne
          rw [if_neg hne] at hentry
          have hdying := h.dying w (by rw [hw]; rfl) w' hw'
          rw [workers_setWorker, if_pos rfl, ← hentry] at heq
          exact heq hdying
      · exact hsame.teardown.trans htd

end Sessions

/-! ## Runs -/

/-- `connect` starts a worker only for a registered entry that is not past its `disconnect()` in
an eviction, and has no callback of a dead worker to come. -/
def StartsRegistered (s : Pool) (a : Time × PoolEvent) : Prop :=
  match a.2 with
  | .connect h => ∀ x, s.holders.get? h = some x → s.isWarm x.entry x.ip = false →
      s.instances.get? (s.entries x.entry).ip = some x.entry ∧
      (∀ td, s.teardown = some td → td.entry = x.entry → td.disconnected = false) ∧
      ∀ w, (s.workers w).entry = x.entry → isDying (s.workers w).status = false
  | _ => True

theorem Sessions.step {s : Pool} (h : Sessions s) {a : Time × PoolEvent}
    (hpossible : s.Possible a) (hstart : StartsRegistered s a) : Sessions (step s a) := by
  obtain ⟨now, e⟩ := a
  obtain ⟨-, hcan⟩ := hpossible
  have htick : Sessions { s with clock := now } := h.frame { SameSessions.refl s with }
  have hon : ∀ (i : ℕ) (f : Holder → Pool → Pool),
      (∀ x, s.holders.get? i = some x → Sessions (f x { s with clock := now })) →
      Sessions (({ s with clock := now } : Pool).onHolder i f) := by
    intro i f hf
    unfold onHolder
    split
    · exact htick
    · exact hf _ ‹_›
  unfold Pool.step
  cases e with
  | getInstance ip => exact htick.getInstance hcan ip
  | check i =>
    apply hon
    intro x _
    unfold Pool.check
    split
    · exact htick.setPhase i x _
    · exact htick.setPhase i x _
  | connect i =>
    apply hon
    intro x hx
    unfold Pool.connect
    split
    · exact htick.setPhase i x _
    · rename_i hcold
      have hcold : s.isWarm x.entry x.ip = false := Bool.not_eq_true _ ▸ hcold
      obtain ⟨hreg, htorn, hdying⟩ := hstart x hx hcold
      exact (htick.startWorker hreg htorn hdying).setPhase i x _
  | connectDone i timedOut =>
    apply hon
    intro x _
    let f : Connection → Connection := fun conn => { conn with connecting := none }
    unfold Pool.connectDone
    dsimp only
    split
    · have hd := (htick.disconnectLocked x.entry).1
      exact (hd.frame (setConnection_sessions x.entry (f := f) fun _ => rfl)).setPhase i x _
    · exact (htick.frame (setConnection_sessions x.entry (f := f) fun _ => rfl)).setPhase i x _
  | release i guarded => exact hon i _ fun x _ => htick.release now i x guarded
  | disconnect =>
    unfold handle
    dsimp only
    split
    · exact htick
    · exact htick.disconnectTorn ‹_›
  | finish =>
    unfold handle
    dsimp only
    split
    · exact htick
    · rename_i td htd
      have hcan : s.teardown.any (·.disconnected) = true := hcan
      rw [show s.teardown = some td from htd] at hcan
      exact htick.finishTeardown htd hcan
  | timerFires t => exact htick.frame { SameSessions.refl _ with }
  | timerRuns t => exact htick.delayedDisconnect now t
  | workerReady w =>
    exact htick.frame (setConnection_sessions (s.workers w).entry
      (f := fun conn => { conn with handshakeDone := true }) fun _ => rfl)
  | workerExits w unexpected => exact htick.workerExit hcan unexpected
  | diedRead w => exact htick.diedRead hcan
  | diedRuns w =>
    unfold handle
    dsimp only
    split
    · exact htick.onConnectionDied hcan.1 ‹_›
    · exact htick

/-- In every run in which `connect` starts workers only for registered entries, a running
worker is that of the registered entry of its address. -/
theorem running_registered {s : Pool} (h : ReachableWhen StartsRegistered s) {w : ℕ}
    (hw : (s.workers w).status = .running) :
    s.instances.get? (s.entries (s.workers w).entry).ip = some (s.workers w).entry ∧
      (s.entries (s.workers w).entry).connection.worker = some w := by
  have hsessions : Sessions s := by
    apply Library.Reach.invariant (P := Sessions) _ _ h
    · rintro s ⟨now, rfl⟩
      exact ⟨by simp [fresh], by simp [fresh], by simp [fresh], by simp [fresh]⟩
    · intro s a _ hs hok
      exact hs.step hok.1 hok.2
  exact hsessions.running w hw

/-- A caller comes and connects. -/
def callerConnects : List (Time × PoolEvent) :=
  [(0, .getInstance "10.0.0.1"), (0, .check 0), (0, .connect 0), (0, .workerReady 0),
    (0, .connectDone 0 false)]

/-- Its worker is that of the registered entry. -/
theorem running_registered_one_caller :
    let s := Library.run step (fresh 0) callerConnects
    s.instances.get? (s.entries (s.workers 0).entry).ip = some (s.workers 0).entry ∧
      (s.entries (s.workers 0).entry).connection.worker = some 0 := by
  intro s
  apply running_registered
  · have hstart : ReachableWhen StartsRegistered (fresh 0) := .start ⟨0, rfl⟩
    apply hstart.run
    refine ⟨⟨by decide, trivial⟩, ⟨by decide, trivial⟩, ⟨by decide, ?_⟩, ⟨by decide, trivial⟩,
      ⟨by decide, trivial⟩, trivial⟩
    intro x hx _
    cases hx
    exact ⟨by decide, nofun, fun _ _ => rfl⟩
  · decide

/-- Another caller finds the entry, and before it looks at the connection the worker dies and
its callback deletes the entry; the caller connects all the same. Then both leave. -/
def reconnectAfterEviction : List (Time × PoolEvent) :=
  callerConnects ++ [(1, .getInstance "10.0.0.1"), (1, .workerExits 0 true), (1, .diedRead 0),
    (1, .diedRuns 0), (1, .check 1), (1, .connect 1), (1, .workerReady 1),
    (1, .connectDone 1 false), (2, .release 0 true), (2, .release 1 true)]

/-- A worker runs that neither the registry nor any caller has. -/
theorem reconnect_after_eviction_orphans :
    let s := Library.run step (fresh 0) reconnectAfterEviction
    Reachable s ∧ (s.workers 1).status = .running ∧ s.instances.keys = [] ∧
      s.holders.keys = [] := by
  intro s
  have hstart : Reachable (fresh 0) := .start ⟨0, rfl⟩
  exact ⟨hstart.run reconnectAfterEviction (by decide), by decide, by decide, by decide⟩

end Pool

end Bmdwire
