import Bmdwire.Program.Lifecycle

/-!
# What becomes of a worker

While no worker is left to itself, the one that is alive is the connection's own, and everything
that a worker leaves behind is told by how it went: `on_died` is called once for a worker that an
exception took out of its work with no disconnect begun for it, never twice for any, and never for
one that was told to stop and did. One that is left to itself ends the session of its successor
(`orphan_unconnected`).
-/

set_option autoImplicit false

namespace Bmdwire

namespace LifeWorker

/-- What a worker's place says about what has come of it. -/
def Placed (x : LifeWorker) : Prop :=
  match x.stage with
  | .starting | .failing | .dumped => x.announced = false ∧ x.left = none ∧ x.calls = 0
  | .announcing | .testing | .pumping => x.announced = true ∧ x.left = none ∧ x.calls = 0
  | .leaving unexpected | .ending unexpected => x.left = some unexpected ∧ x.calls = 0
  | .checking unexpected => x.left = some unexpected ∧ x.calls = 0 ∧
      (unexpected = false → x.announced = false)
  | .firing | .marking | .calling => x.left = some true ∧ x.calls = 0
  | .gone => x.calls ≤ 1 ∧ (x.calls = 1 → x.left = some true) ∧
      (x.left = some true → x.told = false → x.calls = 1)

/-- What its place says, and that one that was ready does not stop of itself. -/
structure History (x : LifeWorker) : Prop where
  placed : x.Placed
  stopped : x.announced = true → x.left = some false → x.told = true

/-- What the flags say about the worker that is alive. -/
structure Flagged (flags : LifeFlag → Bool) (x : LifeWorker) : Prop where
  stop : flags .stopEvent = true → x.told = true
  handshake : flags .handshakeDone = true → x.announced = true
  died : flags .diedSignalled = true → x.told = true ∨ x.stage = .calling
  left : x.left = some false → x.announced = true → flags .stopEvent = true

end LifeWorker

/-- No worker is alive in these. -/
def CallerStage.between : CallerStage → Bool
  | .resetting _ _ | .starting | .forgetting _ | .clearing _ => true
  | _ => false

/-- A disconnect is begun. -/
def CallerStage.telling : CallerStage → Bool
  | .dropping _ | .stopping _ => true
  | _ => false

namespace Lifecycle

open LifeWorker (History Flagged)

/-- What every step keeps, while no worker is left to itself. -/
structure Sound (s : Lifecycle) : Prop where
  alone : ∀ w, s.alive w = true → s.worker = some w
  between : s.caller.between = true → ∀ w, s.alive w = false
  telling : s.caller.telling = true → ∀ w, s.alive w = true → (s.workers w).told = true
  reset : ∀ ip rest, s.caller = .resetting ip rest → ∀ f, f ∉ rest → s.flags f = false
  started : s.caller = .starting → ∀ f, s.flags f = false
  fresh : ∀ w, s.nextWorker ≤ w → s.workers w = {}
  below : ∀ w, s.worker = some w → w < s.nextWorker
  history : ∀ w, (s.workers w).History
  flagged : ∀ w, s.alive w = true → Flagged s.flags (s.workers w)

section Steps

variable {s : Lifecycle} {w : ℕ}

theorem alive_iff : s.alive w = true ↔ (s.workers w).stage ≠ .gone := by
  simp [alive]

theorem workerAlive_iff : s.workerAlive = true ↔ ∃ w, s.worker = some w ∧ s.alive w = true := by
  simp [workerAlive, Option.any_eq_true]

/-! ## A step of a worker -/

/-- The worker that is alive does something. -/
theorem Sound.work (h : s.Sound) (hw : s.alive w = true) {flags : LifeFlag → Bool} {x : LifeWorker}
    (hhistory : x.History) (htold : x.told = (s.workers w).told)
    (hflagged : x.stage ≠ .gone → Flagged flags x) :
    Sound { s with flags, workers := Function.update s.workers w x } := by
  have hbetween : s.caller.between = false := by
    by_contra hb
    rw [Bool.not_eq_false] at hb
    rw [h.between hb w] at hw
    cases hw
  have hother : ∀ v, v ≠ w → s.alive v = false := by
    intro v hv
    by_contra ha
    rw [Bool.not_eq_false] at ha
    exact hv (Option.some.inj ((h.alone v ha).symm.trans (h.alone w hw)))
  have halive : ∀ v, Lifecycle.alive v { s with
      flags, workers := Function.update s.workers w x } = true → v = w ∧ x.stage ≠ .gone := by
    intro v hv
    rw [alive_iff] at hv
    dsimp only at hv
    by_cases hvw : v = w
    · subst hvw
      rw [Function.update_self] at hv
      exact ⟨rfl, hv⟩
    · rw [Function.update_of_ne hvw] at hv
      have hgone := hother v hvw
      rw [← Bool.not_eq_true, alive_iff] at hgone
      exact absurd hv hgone
  refine ⟨fun v hv => ?_, fun hb => ?_, fun ht v hv => ?_, fun ip rest hc => ?_, fun hc => ?_,
    fun v hv => ?_, h.below, fun v => ?_, fun v hv => ?_⟩
  · obtain ⟨rfl, -⟩ := halive v hv
    exact h.alone v hw
  · exact absurd hb (by simp [hbetween])
  · obtain ⟨rfl, -⟩ := halive v hv
    dsimp only
    rw [Function.update_self, htold]
    exact h.telling ht v hw
  · dsimp only at hc
    rw [hc] at hbetween
    cases hbetween
  · dsimp only at hc
    rw [hc] at hbetween
    cases hbetween
  · have hne : v ≠ w := (lt_of_lt_of_le (h.below w (h.alone w hw)) hv).ne'
    dsimp only
    rw [Function.update_of_ne hne]
    exact h.fresh v hv
  · dsimp only
    by_cases hvw : v = w
    · subst hvw
      rw [Function.update_self]
      exact hhistory
    · rw [Function.update_of_ne hvw]
      exact h.history v
  · obtain ⟨rfl, hx⟩ := halive v hv
    dsimp only
    rw [Function.update_self]
    exact hflagged hx

/-- A worker takes its next step. -/
theorem Sound.runStep (h : s.Sound) (w : ℕ) (outcome : RunOutcome) :
    (s.runStep w outcome).Sound := by
  by_cases hgone : s.alive w = true
  swap
  · have hstage : (s.workers w).stage = .gone := by
      rw [alive_iff, not_not] at hgone
      exact hgone
    unfold Lifecycle.runStep
    rw [hstage]
    exact h
  have hplaced := (h.history w).placed
  have hstopped := (h.history w).stopped
  obtain ⟨hstop, hhandshake, hdied, hleft⟩ := h.flagged w hgone
  -- out of its work, on the flags there are
  have hleave : ∀ unexpected, (s.workers w).calls = 0 →
      (unexpected = false → (s.workers w).announced = true → s.flags .stopEvent = true) →
      ∀ flags : LifeFlag → Bool, flags .stopEvent = s.flags .stopEvent →
        flags .handshakeDone = s.flags .handshakeDone →
        flags .diedSignalled = s.flags .diedSignalled → (s.workers w).stage ≠ .calling →
        Sound { s with
          flags
          workers := Function.update s.workers w
            { s.workers w with stage := .leaving unexpected, left := some unexpected } } := by
    intro unexpected hcalls hwhy flags hflag1 hflag2 hflag3 hcalling
    refine h.work hgone ⟨⟨rfl, hcalls⟩, fun ha hl => ?_⟩ rfl fun _ => ⟨fun hf => ?_, fun hf => ?_,
      fun hf => ?_, fun hl ha => ?_⟩
    · exact hstop (hwhy (Option.some.inj hl) ha)
    · exact hstop (hflag1 ▸ hf)
    · exact hhandshake (hflag2 ▸ hf)
    · exact .inl ((hdied (hflag3 ▸ hf)).resolve_right hcalling)
    · rw [hflag1]
      exact hwhy (Option.some.inj hl) ha
  unfold LifeWorker.Placed at hplaced
  unfold Lifecycle.runStep
  cases hstage : (s.workers w).stage with
  | starting =>
    rw [hstage] at hplaced hdied
    obtain ⟨hannounced, hnone, hcalls⟩ := hplaced
    have hdied := fun hf => (hdied hf).resolve_right (by simp)
    cases outcome with
    | goesOn =>
      exact h.work hgone ⟨⟨hannounced, hnone, hcalls⟩, hstopped⟩ rfl fun _ =>
        ⟨hstop, hhandshake, fun hf => .inl (hdied hf), hleft⟩
    | fails =>
      exact h.work hgone ⟨⟨hannounced, hnone, hcalls⟩, hstopped⟩ rfl fun _ =>
        ⟨hstop, hhandshake, fun hf => .inl (hdied hf), hleft⟩
    | raises => exact hleave true hcalls (by simp) s.flags rfl rfl rfl (by simp [hstage])
  | failing =>
    rw [hstage] at hplaced
    obtain ⟨hannounced, -, hcalls⟩ := hplaced
    exact hleave false hcalls (fun _ ha => absurd (hannounced.symm.trans ha) (by simp)) _ rfl rfl
      rfl (by simp [hstage])
  | dumped =>
    rw [hstage] at hplaced hdied
    obtain ⟨-, hnone, hcalls⟩ := hplaced
    refine h.work hgone ⟨⟨rfl, hnone, hcalls⟩, fun _ hl => ?_⟩ rfl fun _ => ⟨hstop, fun _ => rfl,
      fun hf => .inl ((hdied hf).resolve_right (by simp)), fun hl => ?_⟩
    · exact absurd (hnone.symm.trans hl) (by simp)
    · exact absurd (hnone.symm.trans hl) (by simp)
  | announcing =>
    rw [hstage] at hplaced hdied
    obtain ⟨hannounced, hnone, hcalls⟩ := hplaced
    exact h.work hgone ⟨⟨hannounced, hnone, hcalls⟩, hstopped⟩ rfl fun _ =>
      ⟨hstop, hhandshake, fun hf => .inl ((hdied hf).resolve_right (by simp)), hleft⟩
  | testing =>
    rw [hstage] at hplaced hdied
    obtain ⟨hannounced, hnone, hcalls⟩ := hplaced
    dsimp only
    split
    · exact hleave true hcalls (by simp) s.flags rfl rfl rfl (by simp [hstage])
    · split
      · rename_i hset
        exact hleave false hcalls (fun _ _ => hset) s.flags rfl rfl rfl (by simp [hstage])
      · exact h.work hgone ⟨⟨hannounced, hnone, hcalls⟩, hstopped⟩ rfl fun _ =>
          ⟨hstop, hhandshake, fun hf => .inl ((hdied hf).resolve_right (by simp)), hleft⟩
  | pumping =>
    rw [hstage] at hplaced hdied
    obtain ⟨hannounced, hnone, hcalls⟩ := hplaced
    dsimp only
    split
    · exact hleave true hcalls (by simp) s.flags rfl rfl rfl (by simp [hstage])
    · exact h.work hgone ⟨⟨hannounced, hnone, hcalls⟩, hstopped⟩ rfl fun _ =>
        ⟨hstop, hhandshake, fun hf => .inl ((hdied hf).resolve_right (by simp)), hleft⟩
  | leaving unexpected =>
    rw [hstage] at hplaced hdied
    obtain ⟨hout, hcalls⟩ := hplaced
    have hdied := fun hf => (hdied hf).resolve_right (by simp)
    dsimp only
    split
    · exact h.work hgone ⟨⟨hout, hcalls⟩, hstopped⟩ rfl fun _ =>
        ⟨hstop, hhandshake, fun hf => .inl (hdied hf), hleft⟩
    · rename_i hclear
      refine h.work hgone ⟨⟨hout, hcalls, fun hexpected => ?_⟩, hstopped⟩ rfl fun _ =>
        ⟨hstop, hhandshake, fun hf => .inl (hdied hf), hleft⟩
      by_contra ha
      rw [Bool.not_eq_false] at ha
      exact hclear (hleft (by rw [hout, hexpected]) ha)
  | checking unexpected =>
    rw [hstage] at hplaced hdied
    obtain ⟨hout, hcalls, hquiet⟩ := hplaced
    -- one that was never ready finds the flag clear
    have hsame : (unexpected || s.flags .handshakeDone) = unexpected := by
      cases unexpected with
      | true => rfl
      | false =>
        by_contra hset
        have hset : s.flags .handshakeDone = true := by simpa using hset
        exact absurd ((hquiet rfl).symm.trans (hhandshake hset)) (by simp)
    dsimp only
    rw [hsame]
    exact h.work hgone ⟨⟨hout, hcalls⟩, hstopped⟩ rfl fun _ =>
      ⟨hstop, hhandshake, fun hf => .inl ((hdied hf).resolve_right (by simp)), hleft⟩
  | ending unexpected =>
    rw [hstage] at hplaced hdied
    obtain ⟨hout, hcalls⟩ := hplaced
    cases unexpected with
    | true =>
      exact h.work hgone ⟨⟨hout, hcalls⟩, hstopped⟩ rfl fun _ =>
        ⟨hstop, nofun, fun hf => .inl ((hdied hf).resolve_right (by simp)), hleft⟩
    | false =>
      refine h.work hgone ⟨⟨hcalls.le.trans (by decide), fun hone => ?_, fun hl => ?_⟩, hstopped⟩
        rfl fun hx => absurd rfl hx
      · exact absurd (hcalls.symm.trans hone) (by simp)
      · exact absurd (hout.symm.trans hl) (by simp)
  | firing =>
    rw [hstage] at hplaced hdied
    obtain ⟨hout, hcalls⟩ := hplaced
    dsimp only
    split
    · rename_i hset
      have htold := (hdied hset).resolve_right (by simp)
      refine h.work hgone ⟨⟨hcalls.le.trans (by decide), fun hone => ?_, fun _ hnot => ?_⟩,
        hstopped⟩ rfl fun hx => absurd rfl hx
      · exact absurd (hcalls.symm.trans hone) (by simp)
      · exact absurd (htold.symm.trans hnot) (by simp)
    · exact h.work hgone ⟨⟨hout, hcalls⟩, hstopped⟩ rfl fun _ =>
        ⟨hstop, hhandshake, fun hf => .inl ((hdied hf).resolve_right (by simp)), hleft⟩
  | marking =>
    rw [hstage] at hplaced
    obtain ⟨hout, hcalls⟩ := hplaced
    exact h.work hgone ⟨⟨hout, hcalls⟩, hstopped⟩ rfl fun _ =>
      ⟨hstop, hhandshake, fun _ => .inr rfl, hleft⟩
  | calling =>
    rw [hstage] at hplaced
    obtain ⟨hout, hcalls⟩ := hplaced
    refine h.work hgone ⟨⟨?_, fun _ => hout, fun _ _ => ?_⟩, hstopped⟩ rfl
      fun hx => absurd rfl hx
    · dsimp only
      rw [hcalls]
    · dsimp only
      rw [hcalls]
  | gone => exact h

/-! ## A step of a caller -/

/-- The caller goes on, on flags that say what is so of the worker that is alive. -/
theorem Sound.move (h : s.Sound) {flags : LifeFlag → Bool} {caller : CallerStage}
    {ipAddress : Option String}
    (hflagged : ∀ w, s.alive w = true → Flagged flags (s.workers w))
    (hbetween : caller.between = true → ∀ w, s.alive w = false)
    (htelling : caller.telling = true → ∀ w, s.alive w = true → (s.workers w).told = true)
    (hreset : ∀ ip rest, caller = .resetting ip rest → ∀ f, f ∉ rest → flags f = false)
    (hstarted : caller = .starting → ∀ f, flags f = false) :
    Sound { s with flags, caller, ipAddress } :=
  ⟨h.alone, hbetween, htelling, hreset, hstarted, h.fresh, h.below, h.history, hflagged⟩

/-- The caller goes on, to where nothing is to be said. -/
theorem Sound.goOn (h : s.Sound) {caller : CallerStage} (hbetween : caller.between = false)
    (htelling : caller.telling = false) : Sound { s with caller } := by
  refine h.move h.flagged (fun hb => ?_) (fun ht => ?_) (fun ip rest hc => ?_) fun hc => ?_
  · exact absurd hb (by simp [hbetween])
  · exact absurd ht (by simp [htelling])
  · rw [hc] at hbetween
    cases hbetween
  · rw [hc] at hbetween
    cases hbetween

/-- Every flag is yet to be cleared. -/
theorem Sound.resetting (h : s.Sound) (hnone : ∀ w, s.alive w = false) (ip : String) :
    Sound { s with caller := .resetting ip cleared } := by
  refine h.move h.flagged (fun _ => hnone) nofun (fun _ rest hc f hf => ?_) nofun
  cases hc
  exact absurd (show f ∈ cleared by cases f <;> decide) hf

theorem Sound.none_alive (h : s.Sound) (hdead : s.workerAlive = false) (w : ℕ) :
    s.alive w = false := by
  by_contra hw
  rw [Bool.not_eq_false] at hw
  exact absurd (workerAlive_iff.mpr ⟨w, h.alone w hw, hw⟩) (by simp [hdead])

/-- A disconnect is begun for the worker there is. -/
theorem Sound.signal (h : s.Sound) (next : Option String) :
    Sound { s.tell.setFlag .diedSignalled true with caller := .dropping next } := by
  have hstage : ∀ v, (s.tell.workers v).stage = (s.workers v).stage := by
    intro v
    unfold tell
    split
    · rfl
    · rename_i w _
      by_cases hv : v = w
      · simp [setWorker, hv]
      · simp [setWorker, hv]
  have halive : ∀ v, s.tell.alive v = s.alive v := by
    intro v
    unfold alive
    rw [hstage]
  have htold : ∀ v, s.alive v = true → (s.tell.workers v).told = true := by
    intro v hv
    unfold tell
    rw [h.alone v hv]
    simp [setWorker]
  have hworker : ∀ v, s.tell.workers v = s.workers v ∨ s.worker = some v ∧
      s.tell.workers v = { s.workers v with told := true } := by
    intro v
    unfold tell
    split
    · exact .inl rfl
    · rename_i w hw
      by_cases hv : v = w
      · subst hv
        exact .inr ⟨hw, by simp [setWorker]⟩
      · exact .inl (by simp [setWorker, hv])
  have hsame : s.tell.worker = s.worker ∧ s.tell.nextWorker = s.nextWorker := by
    unfold tell
    split
    · exact ⟨rfl, rfl⟩
    · exact ⟨rfl, rfl⟩
  have hflags : s.tell.flags = s.flags := by
    unfold tell
    split
    · rfl
    · rfl
  refine ⟨fun v hv => ?_, nofun, fun _ v hv => ?_, nofun, nofun, fun v hv => ?_, fun v hv => ?_,
    fun v => ?_, fun v hv => ?_⟩
  · exact hsame.1.trans (h.alone v ((halive v).symm.trans hv))
  · exact htold v ((halive v).symm.trans hv)
  · have hv : s.nextWorker ≤ v := hsame.2.symm.trans_le hv
    rcases hworker v with heq | ⟨hw, -⟩
    · exact heq.trans (h.fresh v hv)
    · exact absurd (h.below v hw) (Nat.not_lt.mpr hv)
  · exact (h.below v (hsame.1.symm.trans hv)).trans_eq hsame.2.symm
  · obtain ⟨hplaced, hstopped⟩ := h.history v
    rcases hworker v with heq | ⟨-, heq⟩
    · show (s.tell.workers v).History
      rw [heq]
      exact ⟨hplaced, hstopped⟩
    · show (s.tell.workers v).History
      rw [heq]
      refine ⟨?_, fun _ _ => rfl⟩
      unfold LifeWorker.Placed at hplaced ⊢
      dsimp only
      cases hv : (s.workers v).stage with
      | gone =>
        rw [hv] at hplaced
        exact ⟨hplaced.1, hplaced.2.1, nofun⟩
      | _ =>
        rw [hv] at hplaced
        exact hplaced
  · have hv : s.alive v = true := (halive v).symm.trans hv
    obtain ⟨-, hhandshake, -, hleft⟩ := h.flagged v hv
    have htold := htold v hv
    have hrest : (s.tell.workers v).announced = (s.workers v).announced ∧
        (s.tell.workers v).left = (s.workers v).left := by
      rcases hworker v with heq | ⟨-, heq⟩
      · rw [heq]
        exact ⟨rfl, rfl⟩
      · rw [heq]
        exact ⟨rfl, rfl⟩
    refine ⟨fun _ => htold, fun hf => ?_, fun _ => .inl htold, fun hl ha => ?_⟩
    · exact hrest.1.trans (hhandshake (hflags ▸ hf))
    · show s.tell.flags .stopEvent = true
      rw [hflags]
      exact hleft (hrest.2.symm.trans hl) (hrest.1.symm.trans ha)

/-- A worker is started, on flags that are all clear. -/
theorem Sound.start (h : s.Sound) (hcaller : s.caller = .starting) :
    Sound { s.setWorker s.nextWorker { stage := .starting } with
      worker := some s.nextWorker, nextWorker := s.nextWorker + 1, caller := .waiting } := by
  have hclear := h.started hcaller
  have hnone : ∀ v, s.alive v = false := h.between (by rw [hcaller]; rfl)
  have halive : ∀ v, (Function.update s.workers s.nextWorker { stage := .starting } v).stage ≠
      .gone → v = s.nextWorker := by
    intro v hv
    by_contra hne
    rw [Function.update_of_ne hne] at hv
    exact absurd (alive_iff.mpr hv) (by simp [hnone])
  refine ⟨fun v hv => ?_, nofun, nofun, nofun, nofun, fun v hv => ?_, fun v hv => ?_, fun v => ?_,
    fun v hv => ?_⟩
  · rw [halive v (alive_iff.mp hv)]
  · have hne : v ≠ s.nextWorker := (Nat.lt_of_succ_le hv).ne'
    show Function.update s.workers _ _ v = {}
    rw [Function.update_of_ne hne]
    exact h.fresh v (Nat.le_of_succ_le hv)
  · obtain rfl : s.nextWorker = v := Option.some.inj hv
    exact Nat.lt_succ_self _
  · show (Function.update s.workers _ _ v).History
    by_cases hv : v = s.nextWorker
    · subst hv
      rw [Function.update_self]
      exact ⟨⟨rfl, rfl, rfl⟩, nofun⟩
    · rw [Function.update_of_ne hv]
      exact h.history v
  · obtain rfl := halive v (alive_iff.mp hv)
    show Flagged s.flags (Function.update s.workers _ _ _)
    rw [Function.update_self]
    refine ⟨fun hf => ?_, fun hf => ?_, fun hf => ?_, nofun⟩
    · exact absurd hf (by simp [hclear])
    · exact absurd hf (by simp [hclear])
    · exact absurd hf (by simp [hclear])

/-- The caller takes its next step. -/
theorem Sound.callerStep (h : s.Sound) (timesOut : Bool) (hjoined : s.Joined (.caller timesOut)) :
    (s.callerStep timesOut).Sound := by
  unfold Lifecycle.callerStep
  cases hcaller : s.caller with
  | idle => exact h
  | opening ip =>
    dsimp only
    split
    · exact h.goOn rfl rfl
    · rename_i hdead
      exact h.resetting (h.none_alive (by simpa using hdead)) ip
  | resetting ip rest =>
    have hnone := h.between (by rw [hcaller]; rfl)
    have hvacuous : ∀ {flags : LifeFlag → Bool} (w : ℕ), s.alive w = true →
        Flagged flags (s.workers w) := fun w hw => absurd hw (by simp [hnone])
    cases rest with
    | nil =>
      refine h.move h.flagged (fun _ => hnone) nofun nofun fun _ f => ?_
      exact h.reset ip [] hcaller f List.not_mem_nil
    | cons f rest =>
      refine h.move hvacuous (fun _ => hnone) nofun (fun _ _ hc g hg => ?_) nofun
      cases hc
      by_cases hgf : g = f
      · rw [hgf]
        exact Function.update_self ..
      · have hold := h.reset ip (f :: rest) hcaller g (by simp [hgf, hg])
        exact (Function.update_of_ne hgf false s.flags).trans hold
  | starting => exact h.start hcaller
  | waiting =>
    dsimp only
    split
    · exact h.goOn rfl rfl
    · split
      · exact h.goOn rfl rfl
      · exact h
  | verdict =>
    dsimp only
    split
    · exact h.goOn rfl rfl
    · exact h.goOn rfl rfl
  | signalling next => exact h.signal next
  | dropping next =>
    have htold := h.telling (by rw [hcaller]; rfl)
    refine h.move (fun w hw => ?_) nofun (fun _ => htold) nofun nofun
    obtain ⟨hstop, -, hdied, hleft⟩ := h.flagged w hw
    exact ⟨hstop, nofun, hdied, hleft⟩
  | stopping next =>
    have htold := h.telling (by rw [hcaller]; rfl)
    refine h.move (fun w hw => ?_) nofun nofun nofun nofun
    obtain ⟨-, hhandshake, hdied, -⟩ := h.flagged w hw
    exact ⟨fun _ => htold w hw, hhandshake, hdied, fun _ _ => rfl⟩
  | joining next =>
    dsimp only
    split
    · split
      · exact h.goOn rfl rfl
      · exact h
    · rename_i hdead
      exact h.move h.flagged (fun _ => h.none_alive (by simpa using hdead)) nofun nofun nofun
  | forcing next => exact h.goOn rfl rfl
  | rejoining next =>
    dsimp only
    split
    · exact h
    · rename_i hwaits
      have hdead : s.workerAlive = false := by
        cases timesOut with
        | true =>
          unfold Joined at hjoined
          rw [hcaller] at hjoined
          exact hjoined
        | false => simpa using hwaits
      exact h.move h.flagged (fun _ => h.none_alive hdead) nofun nofun nofun
  | forgetting next =>
    have hnone := h.between (by rw [hcaller]; rfl)
    refine ⟨fun w hw => ?_, fun _ => hnone, nofun, nofun, nofun, h.fresh, nofun, h.history,
      h.flagged⟩
    exact absurd (show s.alive w = true from hw) (by simp [hnone])
  | clearing next =>
    have hnone := h.between (by rw [hcaller]; rfl)
    have hcleared : Sound (s.setFlag .readyEvent false) := by
      refine ⟨h.alone, h.between, h.telling, ?_, ?_, h.fresh, h.below, h.history, fun w hw => ?_⟩
      · exact fun _ _ hc => absurd (hcaller.symm.trans hc) (by simp)
      · exact fun hc => absurd (hcaller.symm.trans hc) (by simp)
      · exact absurd (show s.alive w = true from hw) (by simp [hnone])
    cases next with
    | none => exact hcleared.goOn rfl rfl
    | some ip => exact hcleared.resetting hnone ip

/-! ## Runs -/

theorem Sound.step (h : s.Sound) {e : LifeEvent} (hjoined : s.Joined e) : (s.step e).Sound := by
  cases e with
  | connect ip =>
    unfold Lifecycle.step
    dsimp only
    split
    · exact h
    · exact h.goOn rfl rfl
  | disconnect => exact h.goOn rfl rfl
  | caller timesOut => exact h.callerStep timesOut hjoined
  | worker w outcome => exact h.runStep w outcome

theorem sound_reachable (h : s.ReachableWhen Joined) : s.Sound := by
  refine Library.Reach.invariant ?_ (fun s e _ hs he => hs.step he.2) h
  rintro s rfl
  exact ⟨nofun, nofun, nofun, nofun, nofun, fun _ _ => rfl, nofun,
    fun _ => ⟨⟨Nat.zero_le 1, nofun, nofun⟩, nofun⟩, nofun⟩

/-- What is known of the workers. The one that is alive is the connection's own, and none is behind
a `disconnect` that has returned. `on_died` is called at most once for a worker, and only for one
that an exception took out of its work; it has been called for such a one that is gone, unless a
disconnect was begun for it. One that was ready does not end without either. And the connection is
connected only by a worker that was ready. -/
structure Watched (s : Lifecycle) : Prop where
  alone : ∀ w, s.alive w = true → s.worker = some w
  disconnected : s.caller = .idle → s.worker = none → ∀ w, s.alive w = false
  once : ∀ w, (s.workers w).calls ≤ 1
  unexpected : ∀ w, (s.workers w).calls = 1 → (s.workers w).left = some true
  signalled : ∀ w, s.alive w = false → (s.workers w).left = some true →
    (s.workers w).told = false → (s.workers w).calls = 1
  deliberate : ∀ w, (s.workers w).announced = true → (s.workers w).left = some false →
    (s.workers w).told = true
  connected : s.isConnected = true →
    ∃ w, s.worker = some w ∧ s.alive w = true ∧ (s.workers w).announced = true

/-- So it is in every run in which no worker is left to itself, whatever the threads read and write
in between. -/
theorem watched_reachable (h : s.ReachableWhen Joined) : s.Watched := by
  have hs := sound_reachable h
  have hcalls : ∀ w, (s.workers w).calls ≤ 1 ∧
      ((s.workers w).calls = 1 → (s.workers w).left = some true) := by
    intro w
    have hplaced := (hs.history w).placed
    unfold LifeWorker.Placed at hplaced
    cases hstage : (s.workers w).stage with
    | gone =>
      rw [hstage] at hplaced
      exact ⟨hplaced.1, hplaced.2.1⟩
    | _ =>
      rw [hstage] at hplaced
      have hzero : (s.workers w).calls = 0 := by simp_all
      exact ⟨by omega, fun hone => by omega⟩
  refine ⟨hs.alone, fun _ hnone w => ?_, fun w => (hcalls w).1, fun w => (hcalls w).2,
    fun w hw hleft htold => ?_, fun w => (hs.history w).stopped, fun hconnected => ?_⟩
  · by_contra hw
    rw [Bool.not_eq_false] at hw
    exact absurd (hnone.symm.trans (hs.alone w hw)) (by simp)
  · have hgone : (s.workers w).stage = .gone := by
      rw [← Bool.not_eq_true, alive_iff, not_not] at hw
      exact hw
    have hplaced := (hs.history w).placed
    unfold LifeWorker.Placed at hplaced
    rw [hgone] at hplaced
    exact hplaced.2.2 hleft htold
  · rw [isConnected, Bool.and_eq_true, workerAlive_iff] at hconnected
    obtain ⟨hset, w, hworker, hw⟩ := hconnected
    exact ⟨w, hworker, hw, (hs.flagged w hw).handshake hset⟩

end Steps

/-! ## A worker left to itself -/

/-- A connection after these events. -/
def lived (events : List LifeEvent) : Lifecycle := Library.run step {} events

/-- A caller connects, and the worker gets ready. -/
def connecting (w : ℕ) (ip : String) : List LifeEvent :=
  .connect ip :: List.replicate 7 (.caller false) ++ List.replicate 4 (.worker w .goesOn) ++
    [.caller false, .caller false]

/-- A session is lost to an exception, and the connection connected again. -/
def crashing : List LifeEvent :=
  connecting 0 "10.0.0.1" ++ .worker 0 .raises :: List.replicate 6 (.worker 0 .goesOn) ++
    connecting 1 "10.0.0.1"

theorem watched_crashing : (lived crashing).workers 0 = ⟨.gone, true, some true, false, 1⟩ ∧
    (lived crashing).isConnected = true ∧ (lived crashing).Watched := by
  have hstart : ReachableWhen Joined {} := .start rfl
  exact ⟨by decide, by decide,
    watched_reachable (hstart.run _ (by decide))⟩

/-- A disconnect whose two joins run out, a new session, and then the end of the old worker. -/
def leavingBehind : List LifeEvent :=
  connecting 0 "10.0.0.1" ++ .disconnect :: List.replicate 8 (.caller true) ++
    connecting 1 "10.0.0.1" ++ .worker 0 .raises :: List.replicate 3 (.worker 0 .goesOn)

/-- The connection is not connected any more, with a worker that works and was never told. -/
theorem orphan_unconnected :
    (lived leavingBehind).isConnected = false ∧ (lived leavingBehind).worker = some 1 ∧
      (lived leavingBehind).workers 1 = ⟨.pumping, true, none, false, 0⟩ := by
  decide

end Lifecycle

end Bmdwire
