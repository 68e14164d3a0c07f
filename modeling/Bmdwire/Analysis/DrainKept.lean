import Bmdwire.Analysis.LaneReleases

/-!
# A drain is not cut short

While an abandoned download drains, the trigger does nothing, so no message, call or wakeup
gives its lock back or asks for anything (`drain_kept`), until the drain ends. A second
`abort_transfers` is the exception: it releases every lock held, the drain's with them.
-/

set_option autoImplicit false

namespace Bmdwire

open Library (Dict)

/-- What a drain of the store forbids: a release of its lock, any lock request and any
transfer request. -/
def Act.breaksDrain (store : Store) : Act → Bool
  | .send _ (.lock k false) => k = store
  | .send _ (.lock _ true) => true
  | .send _ (.partialLock _ _) => true
  | .send _ (.downloadRequest _ _ _ _) => true
  | .send _ (.uploadRequest _ _ _ _ _ _) => true
  | _ => false

theorem Act.breaksDrain_of_bulk {a : Act} (h : a.bulk = true) (store : Store) :
    a.breaksDrain store = false := by
  cases a with
  | send now c => cases c <;> simp_all [Act.bulk, Act.breaksDrain]
  | _ => rfl

namespace Lane

/-- The event ends the drain `d`: its FTDC or FTDE, the wakeup that finds it stalled or too
long, a reset or the teardown. -/
def EndedBy (s : Lane) (d : Drain) (a : Env × LaneEvent) : Prop :=
  match a.2 with
  | .fileTransferDataComplete transfer => transfer = d.tid
  | .fileTransferError transfer _ => transfer = d.tid
  | .wakeup => s.wakeups ≠ 0 ∧ Drain.overdue a.1.now d
  | .resetTransferLane => True
  | .releaseLocksNow => True
  | _ => False

/-- The event ends the drain in progress. -/
def EndsDrain (s : Lane) (a : Env × LaneEvent) : Prop :=
  ∃ d, s.draining = some d ∧ s.EndedBy d a

/-- The drain of `d` goes on, and nothing sent since breaks it. -/
structure Drains (d : Drain) (s t : Lane) : Prop where
  draining : ∃ d', t.draining = some d' ∧ d'.tid = d.tid ∧ d'.store = d.store ∧ d'.since = d.since
  log : ∃ new, t.log = new ++ s.log ∧ ∀ a ∈ new, a.breaksDrain d.store = false

theorem Drains.refl {d : Drain} {s : Lane} (hd : s.draining = some d) : Drains d s s :=
  ⟨⟨d, hd, rfl, rfl, rfl⟩, [], rfl, by simp⟩

/-- A change that leaves the drain alone, with nothing sent that breaks it. -/
theorem Drains.extend {d : Drain} {s t u : Lane} (h : Drains d s t)
    (hdrain : u.draining = t.draining)
    (hlog : ∃ new, u.log = new ++ t.log ∧ ∀ a ∈ new, a.breaksDrain d.store = false) :
    Drains d s u where
  draining := by rw [hdrain]; exact h.draining
  log := by
    obtain ⟨new, hnew, hok⟩ := h.log
    obtain ⟨new', hnew', hok'⟩ := hlog
    refine ⟨new' ++ new, by rw [hnew', hnew, List.append_assoc], ?_⟩
    intro a ha
    rcases List.mem_append.mp ha with ha | ha
    · exact hok' a ha
    · exact hok a ha

/-- While a drain is on, the trigger starts nothing. -/
theorem drains_triggerMove {now : Time} {stale : Prop} {d : Drain} {s t u : Lane}
    (hm : TriggerMove now stale t u) (h : Drains d s t) : Drains d s u := by
  obtain ⟨d', hd', -⟩ := h.draining
  have hnot : ∀ {P : Prop}, t.draining = none → P := by
    intro P hn
    rw [hn] at hd'
    cases hd'
  cases hm with
  | wake due => exact h.extend rfl ⟨[], rfl, by simp⟩
  | fail => exact h.extend rfl ⟨[_], rfl, fun a ha => by rw [List.mem_singleton.mp ha]; rfl⟩
  | pauseOver hn _ _ => exact hnot hn
  | endYield _ _ => exact h.extend rfl ⟨[], rfl, by simp⟩
  | clean hready _ => exact hnot hready.1
  | askForLock hready _ _ _ _ _ => exact hnot hready.1
  | clear hready _ _ _ _ => exact hnot hready.1
  | request retry hready _ _ _ _ _ => exact hnot hready.1

/-- An event that does not end the drain, and is no abort, opens nothing that breaks it. -/
theorem drains_opening {env : Env} {d : Drain} {s r t : Lane} {e : LaneEvent}
    {closing : Option Notice} (ho : Opening env.now r e t closing) (hwf : r.Wf)
    (h : Drains d s r) (hend : ¬ r.EndsDrain (env, e)) (habort : e ≠ .abortTransfers) :
    Drains d s t := by
  obtain ⟨d', hd', htid, hstore, hsince⟩ := h.draining
  have hends : r.EndedBy d' (env, e) → Drains d s t := fun he => absurd ⟨d', hd', he⟩ hend
  have hflight : ∀ {id transfer}, r.Answers transfer id → Drains d s t := by
    intro id transfer ha
    have hnone := (hwf.draining (by simp [hd'])).1
    rw [ha.inFlight] at hnone
    cases hnone
  have hdrain : ∀ {d''}, r.draining = some d'' → d'' = d' := fun h => by
    rw [hd'] at h
    exact (Option.some.inj h).symm
  cases ho with
  | quiet _ hq =>
    obtain ⟨new, hlog, hbulk⟩ := hq.log
    exact h.extend hq.draining
      ⟨new, hlog, fun a ha => Act.breaksDrain_of_bulk (hbulk a ha) _⟩
  | granted store => exact h.extend rfl ⟨[], rfl, by simp⟩
  | @taken store _ =>
    obtain ⟨_, _, _, _, heq⟩ := lockTaken_eq env.now store r
    rw [heq]
    exact h.extend rfl ⟨[], rfl, by simp⟩
  | @freed store _ =>
    obtain ⟨_, _, heq⟩ := freed_eq env.now store r
    rw [heq]
    exact h.extend rfl ⟨[], rfl, by simp⟩
  | @drained d'' data hd =>
    obtain rfl := hdrain hd
    obtain ⟨new, hlog, hok⟩ := h.log
    refine ⟨⟨_, rfl, htid, hstore, hsince⟩, .send env.now (.transferAck d''.tid 0) :: new,
      congrArg _ hlog, ?_⟩
    intro a ha
    rcases List.mem_cons.mp ha with rfl | ha
    · rfl
    · exact hok a ha
  | drainFailed status hd => exact hends (congrArg Drain.tid (hdrain hd))
  | drainCompleted hd => exact hends (congrArg Drain.tid (hdrain hd))
  | tryAgain ha _ => exact hflight ha
  | triedOut ha _ => exact hflight ha
  | lockLost ha => exact hflight ha
  | yielded ha => exact hflight ha
  | failed ha _ _ _ => exact hflight ha
  | completed ha => exact hflight ha
  | strangeCompletion _ => exact h.extend rfl ⟨[], rfl, by simp⟩
  | enqueue _ => exact h.extend rfl ⟨[], rfl, by simp⟩
  | dequeue id =>
    obtain ⟨q, heq⟩ := dequeueClear_eq id r
    rw [heq]
    exact h.extend rfl ⟨[], rfl, by simp⟩
  | abort => exact absurd rfl habort
  | fire _ _ => exact h.extend rfl ⟨[], rfl, by simp⟩
  | poke => exact h.extend rfl ⟨[], rfl, by simp⟩
  | woken _ _ => exact h.extend rfl ⟨[], rfl, by simp⟩
  | drainOverdue hw hd hover => exact hends ⟨hw, hdrain hd ▸ hover⟩
  | reset => exact hends trivial
  | teardown => exact hends trivial

/-- A step that does not end the drain, and is no abort, keeps it. -/
theorem drains_step {d : Drain} {s t : Lane} {a : Env × LaneEvent} (hwf : t.Wf)
    (h : Drains d s t) (hend : ¬ t.EndsDrain a) (habort : a.2 ≠ .abortTransfers) :
    Drains d s (t.step a) := by
  obtain ⟨m, m', closing, hopen, hmoves, heq⟩ := step_splits hwf a
  have hr : Drains d s (t.receive a.1 a.2) := h.extend rfl
    ⟨[_], rfl, fun b hb => by rw [List.mem_singleton.mp hb]; rfl⟩
  have hm := drains_opening hopen (wf_receive hwf a.1 a.2) hr hend habort
  have hm' : Drains d s m' :=
    hmoves.keep (P := Drains d s) (fun _ _ hmove => drains_triggerMove hmove) hm
  rw [heq]
  cases closing with
  | none => exact hm'
  | some n =>
    exact hm'.extend rfl ⟨[.notice n], rfl, fun b hb => by rw [List.mem_singleton.mp hb]; rfl⟩

/-- The abort that begins a drain sends nothing that breaks it. -/
theorem drains_abort {s : Lane} {env : Env} (hl : s.leavesDraining env.now = true) :
    ∃ d, (s.step (env, .abortTransfers)).draining = some d ∧
      ∃ new, (s.step (env, .abortTransfers)).log = new ++ s.log ∧
        ∀ a ∈ new, a.breaksDrain d.store = false := by
  have hl' : (s.receive env .abortTransfers).leavesDraining env.now = true := hl
  obtain ⟨id, last, hid, -⟩ := exists_inFlight_of_leavesDraining hl'
  obtain ⟨hm, -⟩ := abortTransfers_drain hl' hid
  obtain ⟨new, hlog, hrel⟩ := hm.log_eq
  obtain ⟨_, _, _, _, heq⟩ := hm.fields
  refine ⟨⟨((s.receive env .abortTransfers).tasks id).tid.getD 0,
    ((s.receive env .abortTransfers).tasks id).store, env.now, env.now⟩, ?_,
    new ++ [.recv env.now .abortTransfers], ?_, ?_⟩
  · show ((s.receive env .abortTransfers).abortTransfers env.now).draining = _
    rw [heq]
    simp [drainBegun, wakeAt, beginDrain, inFlight, hid]
  · rw [List.append_assoc]
    exact hlog
  · intro a ha
    rcases List.mem_append.mp ha with ha | ha
    · obtain ⟨k, hk, rfl⟩ := hrel a ha
      simpa [Act.breaksDrain] using hk
    · rw [List.mem_singleton.mp ha]
      rfl

/-- From the abort that leaves a download draining on, and for as long as no event ends the
drain and no second abort is called, the lane sends no release of the drain's lock, no lock
request and no transfer request, and the drain goes on. -/
theorem drain_kept {s : Lane} (h : Reachable s) {env : Env} (hposs : s.Possible (env, .abortTransfers))
    (hl : s.leavesDraining env.now = true) :
    ∃ d, (s.step (env, .abortTransfers)).draining = some d ∧
      ∀ t, Library.Steps step
          (fun u a => u.Possible a ∧ ¬ u.EndsDrain a ∧ a.2 ≠ .abortTransfers)
          (s.step (env, .abortTransfers)) t →
        (∃ d', t.draining = some d' ∧ d'.tid = d.tid ∧ d'.store = d.store) ∧
        ∃ new, t.log = new ++ s.log ∧ ∀ a ∈ new, a.breaksDrain d.store = false := by
  obtain ⟨d, hd, hlog⟩ := drains_abort hl
  have hwf := wf_step (wf_reachableWhen h) hposs
  refine ⟨d, hd, fun t hsteps => ?_⟩
  have hall : Drains d s t ∧ t.Wf := by
    induction hsteps with
    | refl => exact ⟨⟨⟨d, hd, rfl, rfl, rfl⟩, hlog⟩, hwf⟩
    | tail _ ha ih =>
      obtain ⟨hposs, hend, habort⟩ := ha
      exact ⟨drains_step ih.2 ih.1 hend habort, wf_step ih.2 hposs⟩
  obtain ⟨d', hd', htid, hstore, -⟩ := hall.1.draining
  exact ⟨⟨d', hd', htid, hstore⟩, hall.1.log⟩

/-- A download under way when its caller gives up. -/
def abandonedDownload : List (Env × LaneEvent) :=
  [(⟨0, none⟩, .download 0 1), (⟨1, none⟩, .lockObtained 0),
   (⟨2, none⟩, .fileTransferData 43 [1])]

theorem reachable_abandonedDownload :
    Reachable (Library.run step (fresh 42) abandonedDownload) :=
  Library.Reach.run (.start ⟨42, by decide, by decide, rfl⟩) _ (by decide)

theorem drain_kept_abandoned :
    ∃ d, ((Library.run step (fresh 42) abandonedDownload).step
      (⟨3, none⟩, .abortTransfers)).draining = some d := by
  obtain ⟨d, hd, -⟩ := @drain_kept _ reachable_abandonedDownload ⟨3, none⟩ (by decide)
    (by decide)
  exact ⟨d, hd⟩

/-- The same caller gives up a second operation while the first drains. -/
theorem second_abort_breaks_drain :
    ¬ ∀ s, Reachable s → ∀ env, s.Possible (env, .abortTransfers) →
      s.leavesDraining env.now = true →
      ∃ d, (s.step (env, .abortTransfers)).draining = some d ∧
        ∀ t, Library.Steps step (fun u a => u.Possible a ∧ ¬ u.EndsDrain a)
            (s.step (env, .abortTransfers)) t →
          ∃ new, t.log = new ++ s.log ∧ ∀ a ∈ new, a.breaksDrain d.store = false := by
  intro h
  obtain ⟨d, hd, hkept⟩ := h _ reachable_abandonedDownload ⟨3, none⟩ (by decide) (by decide)
  obtain ⟨new, hlog, hok⟩ := hkept _ (.tail (a := (⟨4, none⟩, .abortTransfers)) .refl
    ⟨by decide, by rintro ⟨d, -, hf⟩; exact hf⟩)
  have hstore : d.store = 0 := by
    have : ((Library.run step (fresh 42) abandonedDownload).step
      (⟨3, none⟩, .abortTransfers)).draining.map (·.store) = some 0 := by decide
    rw [hd] at this
    exact Option.some.inj this
  have hmem : Act.send 4 (.lock 0 false) ∈ new ++ (Library.run step (fresh 42) abandonedDownload).log := by
    rw [← hlog]
    decide
  rcases List.mem_append.mp hmem with hmem | hmem
  · have := hok _ hmem
    rw [hstore] at this
    cases this
  · exact absurd hmem (by decide)

end Lane

end Bmdwire
