import Bmdwire.Interface.LaneQueues

/-!
# The trigger without fuel

`transferTriggerFuel` stops after as many clears as it has fuel for. Each clear it
dispatches leaves its queue, so with more fuel than queued tasks the bound is never met:
`transferTrigger_eq` is `_transfer_trigger` calling itself, as the source writes it. It
needs only that every queued task sits in the queue of its own store.
-/

set_option autoImplicit false

namespace Bmdwire

namespace Lane

/-- A dispatched clear has left its queue. -/
theorem queue_dispatched (s : Lane) (id : TaskId) (now : Time) (store k : Store) :
    ((s.dispatchClear now id).letGo now store).queue k = (s.popHead id).queue k := by
  rw [letGo_queue]
  rfl

/-- The state a dispatched clear hands to the trigger has one task less. -/
theorem queued_dispatched {s : Lane} {id : TaskId} (now : Time) (store : Store)
    (h : s.Front id) :
    ((s.dispatchClear now id).letGo now store).queued.length + 1 = s.queued.length := by
  have hkeys : ((s.dispatchClear now id).letGo now store).transferQueue =
      (s.popHead id).transferQueue := letGo_transferQueue now store _
  rw [← queued_popHead h, queued, queued, hkeys]
  simp only [List.length_flatMap, queue_dispatched]

/-- A dispatched clear keeps every task in the queue of its own store. -/
theorem storesMatch_dispatched {s : Lane} {id : TaskId} (now : Time) (store : Store)
    (hs : s.StoresMatch) (h : s.Front id) :
    ((s.dispatchClear now id).letGo now store).StoresMatch := by
  intro k j hj
  have htasks : ((s.dispatchClear now id).letGo now store).tasks = s.tasks :=
    letGo_tasks now store _
  rw [queue_dispatched, queue_popHead h] at hj
  rw [htasks]
  split at hj
  · exact hs k j (List.mem_of_mem_tail hj)
  · exact hs k j hj

/-- Only the continuation after a clear sees the trigger that `startNext` is given. -/
theorem startNext_congr {now : Time} {store : Store} {retry : Bool} {s : Lane}
    {f g : Store → Lane → Lane} (hs : s.StoresMatch)
    (hfg : ∀ (id : TaskId), s.Front id →
      ∀ k, f k ((s.dispatchClear now id).letGo now (s.tasks id).store) =
        g k ((s.dispatchClear now id).letGo now (s.tasks id).store)) :
    startNext f now store retry s = startNext g now store retry s := by
  unfold startNext
  cases hn : s.nextFor store with
  | none => rfl
  | some id =>
    simp only [releaseThenContinueWith_eq]
    rw [hfg id (front_of_nextFor hs hn)]

/-- Fuel beyond the number of queued tasks makes no difference. -/
theorem transferTriggerFuel_eq (now : Time) (m n : ℕ) (store : Store) (retry : Bool) (s : Lane)
    (hs : s.StoresMatch) (hm : s.queued.length < m) (hn : s.queued.length < n) :
    transferTriggerFuel now m store retry s = transferTriggerFuel now n store retry s := by
  induction m generalizing n store retry s with
  | zero => omega
  | succ m ih =>
    cases n with
    | zero => omega
    | succ n =>
      have key : ∀ (r : Bool) (t : Lane), t.StoresMatch → t.queued.length = s.queued.length →
          startNext (fun store s => transferTriggerFuel now m store false s) now store r t =
            startNext (fun store s => transferTriggerFuel now n store false s) now store r t := by
        intro r t ht hlen
        apply startNext_congr ht
        intro id hid k
        have hq := queued_dispatched now (t.tasks id).store hid
        exact ih n k false _ (storesMatch_dispatched now _ ht hid) (by omega) (by omega)
      have hdue := key true { s with tryAgainDue := none } hs rfl
      simp only [transferTriggerFuel, key retry s hs rfl, hdue]

/-- `_transfer_trigger`, calling itself. -/
theorem transferTrigger_eq (now : Time) (store : Store) (retry : Bool) {s : Lane}
    (hs : s.StoresMatch) :
    s.transferTrigger now store retry =
      if s.draining.isSome then s
      else
        match s.tryAgainDue with
        | some due =>
          if now < due then s.wakeAt due
          else startNext (fun k t => t.transferTrigger now k false) now store true
            { s with tryAgainDue := none }
        | none => startNext (fun k t => t.transferTrigger now k false) now store retry s := by
  have key : ∀ (r : Bool) (t : Lane), t.StoresMatch → t.queued.length = s.queued.length →
      startNext (fun k u => transferTriggerFuel now s.queued.length k false u) now store r t =
        startNext (fun k u => u.transferTrigger now k false) now store r t := by
    intro r t ht hlen
    apply startNext_congr ht
    intro id hid k
    have hq := queued_dispatched now (t.tasks id).store hid
    exact transferTriggerFuel_eq now _ _ k false _ (storesMatch_dispatched now _ ht hid)
      (by omega) (by omega)
  have hdue := key true { s with tryAgainDue := none } hs rfl
  rw [← hdue, ← key retry s hs rfl]
  rfl

end Lane

end Bmdwire
