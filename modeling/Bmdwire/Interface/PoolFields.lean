import Bmdwire.Program.Pool

/-!
# The fields of the pool after its operations

What an operation of the pool writes, field by field: the entries, the timers and the workers
at a number, and what is left as it is.
-/

set_option autoImplicit false

namespace Bmdwire

namespace Pool

variable {s : Pool}

/-! ## Entries -/

theorem entries_setEntry (e i : ℕ) (f : Entry → Entry) :
    (s.setEntry e f).entries i = if i = e then f (s.entries e) else s.entries i :=
  Function.update_apply ..

/-- What a change of an entry leaves as it is. -/
theorem setEntry_frame {α : Type} (e i : ℕ) {f : Entry → Entry} (get : Entry → α)
    (hf : ∀ entry, get (f entry) = get entry) :
    get ((s.setEntry e f).entries i) = get (s.entries i) := by
  rw [entries_setEntry]
  split
  · rename_i hi
    rw [hi, hf]
  · rfl

theorem entries_register (ip : String) (i : ℕ) :
    (s.register ip).entries i = if i = s.nextEntry then { ip } else s.entries i :=
  Function.update_apply ..

theorem entries_reference (ip : String) (e i : ℕ) : (s.reference ip e).entries i =
    if i = e then { s.entries e with refCount := (s.entries e).refCount + 1 }
    else s.entries i :=
  Function.update_apply ..

theorem entries_arm (now : Time) (ip : String) (e i : ℕ) : (s.arm now ip e).entries i =
    if i = e then { s.entries e with disconnectTimer := some s.nextTimer, state := .draining }
    else s.entries i :=
  Function.update_apply ..

/-! ## Timers -/

/-- A timer's status after another's is set. -/
theorem timers_setTimer (i j : ℕ) (status : TimerStatus) : (s.setTimer i status).timers j =
    if j = i then { s.timers i with status } else s.timers j :=
  Function.update_apply ..

theorem cancelTimer_teardown (i : Option ℕ) : (s.cancelTimer i).teardown = s.teardown := by
  unfold Pool.cancelTimer
  split
  · rfl
  · split
    · rfl
    · rfl

theorem cancelTimer_log (i : Option ℕ) : (s.cancelTimer i).log = s.log := by
  unfold Pool.cancelTimer
  split
  · rfl
  · split
    · rfl
    · rfl

/-- A timer that has fired cannot be cancelled. -/
theorem fired_of_cancelTimer {o : Option ℕ} {i : ℕ}
    (hi : ((s.cancelTimer o).timers i).status = .fired) :
    (s.timers i).status = .fired ∧ ((s.cancelTimer o).timers i).ip = (s.timers i).ip := by
  unfold Pool.cancelTimer at hi ⊢
  split
  · exact ⟨hi, rfl⟩
  · dsimp only at hi ⊢
    split
    · rename_i harmed
      rw [if_pos harmed, timers_setTimer] at hi
      rw [timers_setTimer]
      split at hi
      · cases hi
      · rename_i hne
        rw [if_neg hne]
        exact ⟨hi, rfl⟩
    · rename_i harmed
      rw [if_neg harmed] at hi
      exact ⟨hi, rfl⟩

/-! ## Workers -/

theorem workers_setWorker (w w' : ℕ) (status : WorkerStatus) : (s.setWorker w status).workers w' =
    if w' = w then { s.workers w with status } else s.workers w' :=
  Function.update_apply ..

theorem disconnectLocked_holders (e : ℕ) : (s.disconnectLocked e).holders = s.holders := by
  unfold disconnectLocked
  dsimp only
  split
  · rfl
  · split
    · rfl
    · rfl

theorem startWorker_holders (h e : ℕ) (ip : String) :
    (s.startWorker h e ip).holders = s.holders := by
  unfold startWorker
  dsimp only
  split
  · exact disconnectLocked_holders e
  · rfl

end Pool

end Bmdwire
