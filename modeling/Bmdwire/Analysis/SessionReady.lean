import Bmdwire.Analysis.Readiness
import Bmdwire.Program.ConnectionWorker

/-!
# What a connection that says it is ready has received

A worker is followed with the record of its protocol's dumps. `is_ready` is kept by the handlers of
two events, and it says of every run what `initialized` says (`isReady_eq`). The flag that
`wait_ready` keeps for `connected` outlives the session it was set in; but a dump with no video mode
in it is sent for again, and accepted only when that has been tried often enough. Until then
`wait_ready` goes on in the very round that raises `connected`, and `_run` announces a connection
that has the whole dump.
-/

set_option autoImplicit false

namespace Bmdwire

open Library (Dict Reach)

/-! ## What is in the mixer state -/

namespace MixerState

variable {κ ι α : Type} [DecidableEq κ] [DecidableEq ι]

/-- A field leaves its key, and takes none away. -/
theorem isSome_storeField (s : MixerState κ ι α) (f : ParsedField κ ι α) (key : κ) :
    ((s.storeField f).get? key).isSome = true ↔ f.key = key ∨ (s.get? key).isSome = true := by
  have hset : ∀ (t : MixerState κ ι α) (v : Library.Tree ι α),
      ((t.set f.key v).get? key).isSome = true ↔ f.key = key ∨ (t.get? key).isSome = true := by
    intro t v
    rw [Dict.get?_set]
    split
    · rename_i hkey
      simp [hkey]
    · rename_i hkey
      simp [Ne.symm hkey]
  unfold storeField
  split
  · exact hset s _
  · rename_i index rest _
    dsimp only
    have hmade : ∀ t : MixerState κ ι α,
        t = (if (s.get? f.key).isNone then s.set f.key (.dict []) else s) →
        ((t.get? key).isSome = true ↔ f.key = key ∨ (s.get? key).isSome = true) := by
      rintro t rfl
      split
      · exact hset s _
      · rename_i hsome
        refine ⟨.inr, fun h => h.elim (fun hkey => ?_) id⟩
        rw [← hkey]
        exact Option.isSome_iff_ne_none.mpr fun hnone => hsome (by rw [hnone]; rfl)
    generalize (if (s.get? f.key).isNone then s.set f.key (.dict []) else s) = t at hmade
    have ht := hmade t rfl
    split
    · rw [hset, ht]
      exact ⟨fun h => h.elim .inl id, .inr⟩
    · exact ht

/-- A key is there once a field of that key has been received. -/
theorem isSome_received (fields : List (ParsedField κ ι α)) (key : κ) :
    ((received fields).get? key).isSome = true ↔ ∃ f ∈ fields, f.key = key := by
  induction fields using List.reverseRecOn with
  | nil => simp [received]
  | append_singleton fields f ih =>
    have hlast : received (fields ++ [f]) = (received fields).storeField f := List.foldl_append ..
    rw [hlast, isSome_storeField, ih]
    constructor
    · rintro (hkey | ⟨g, hg, hkey⟩)
      · exact ⟨f, by simp, hkey⟩
      · exact ⟨g, List.mem_append_left _ hg, hkey⟩
    · rintro ⟨g, hg, hkey⟩
      rcases List.mem_append.mp hg with hg | hg
      · exact .inr ⟨g, hg, hkey⟩
      · exact .inl (List.mem_singleton.mp hg ▸ hkey)

end MixerState

/-! ## A dump with no video mode -/

namespace AtemProtocol

section Videos

variable {κ ι α : Type} [DecidableEq κ] [DecidableEq ι] {keys : FieldKeys κ α}
  {act : Bytes → Bytes → FieldAction κ ι α}

/-- `InCm` is not stored before a video mode, unless dumps have been sent for often enough. -/
theorem saveFields_video (fields : List (Bytes × Bytes)) (s : AtemProtocol κ ι α)
    (before : List (ParsedField κ ι α)) (hmixer : s.mixer = MixerState.received before)
    (htries : s.incompleteDumps < incompleteDumpRetries)
    (hstored : ∃ f ∈ (s.saveFields keys act fields).2.1, f.1 = inCmCode) :
    ∃ f ∈ before ++ (s.saveFields keys act fields).2.1.map Prod.snd, f.key = keys.videoMode := by
  induction fields generalizing s before with
  | nil =>
    obtain ⟨f, hf, -⟩ := hstored
    cases hf
  | cons field rest ih =>
    obtain ⟨code, contents⟩ := field
    -- what one field stores, what is left to try, and that `InCm` finds a video mode
    have hone := @saveField_saves κ ι α _ _ keys act code contents s
    have hfirst : (s.saveField keys act code contents).2.2.incompleteDumps < incompleteDumpRetries ∨
        (s.saveField keys act code contents).1 = true := by
      unfold saveField
      split
      · split
        · exact .inl (by simp [incompleteDumpRetries])
        · exact .inr rfl
      · split <;> exact .inl htries
    have hvideo : (∃ f ∈ (s.saveField keys act code contents).2.1, f.1 = inCmCode) →
        ∃ f ∈ before, f.key = keys.videoMode := by
      rintro ⟨f, hf, hcode⟩
      unfold saveField at hf
      split at hf
      · split at hf
        · rename_i hsome
          have hsome := hsome.resolve_right (Nat.not_le.mpr htries)
          rwa [hmixer, MixerState.isSome_received] at hsome
        · cases hf
      · rename_i hother
        split at hf
        · obtain rfl := List.mem_singleton.mp hf
          exact absurd hcode hother
        · cases hf
        · cases hf
    unfold saveFields at hstored ⊢
    dsimp only at hstored ⊢
    generalize s.saveField keys act code contents = r at hone hfirst hvideo hstored ⊢
    split
    · rename_i hraised
      rw [if_pos hraised] at hstored
      obtain ⟨f, hf, hkey⟩ := hvideo hstored
      exact ⟨f, List.mem_append_left _ hf, hkey⟩
    · rename_i hraised
      rw [if_neg hraised] at hstored
      dsimp only at hstored ⊢
      have hafter : r.2.2.mixer = MixerState.received (before ++ r.2.1.map Prod.snd) := by
        rw [hone.mixer, hmixer]
        exact (List.foldl_append ..).symm
      rw [List.map_append, ← List.append_assoc]
      obtain ⟨f, hf, hcode⟩ := hstored
      rcases List.mem_append.mp hf with hf | hf
      · obtain ⟨g, hg, hkey⟩ := hvideo ⟨f, hf, hcode⟩
        exact ⟨g, List.mem_append_left _ (List.mem_append_left _ hg), hkey⟩
      · exact ih r.2.2 _ hafter (hfirst.resolve_right hraised) ⟨f, hf, hcode⟩

/-- What a turn stores is stored while the session is established, of a packet that waited. -/
theorem turn_stored {socket : Socket} {now : Time} {aggressive : Bool} (s : AtemProtocol κ ι α)
    (hstored : (s.turn keys act socket now aggressive).1 ≠ []) :
    s.udp.state = .established ∧ ∃ p t, .packet p ∈ s.udp.pending ∧ t.mixer = s.mixer ∧
      t.incompleteDumps = s.incompleteDumps ∧
      (s.turn keys act socket now aggressive).1 =
        (saveFields keys act (decodePacket (p.data.getD [])).1 t).2.1 := by
  have hturned := Udp.receiveTurn_turned socket now aggressive s.udp
  have hnone : ∀ t : Udp, ({ s with udp := t }.loopOn keys act socket now .none).1 = [] :=
    fun _ => rfl
  unfold turn at hstored ⊢
  dsimp only at hstored ⊢
  generalize s.udp.receiveTurn socket now aggressive = r at hturned hstored ⊢
  obtain ⟨r, u⟩ := r
  dsimp only at hturned hstored ⊢
  cases hturned with
  | @data p _ hup _ hpending =>
    refine ⟨hup, p, { s with udp := u, connected := true }, hpending ▸ List.mem_cons_self, rfl, rfl,
      ?_⟩
    dsimp only [loopOn, loopPacket]
    split <;> rfl
  | waits => exact absurd rfl hstored
  | wakeup => exact absurd rfl hstored
  | gone => exact absurd (hnone u) hstored
  | again => exact absurd (hnone u) hstored
  | ready => exact absurd rfl hstored
  | control hr =>
    rcases hr with rfl | rfl
    · exact absurd rfl hstored
    · exact absurd rfl hstored
  | reply hr =>
    rcases hr with rfl | rfl | rfl
    · exact absurd rfl hstored
    · exact absurd rfl hstored
    · exact absurd (hnone u) hstored

end Videos

end AtemProtocol

namespace Dump

section Videos

variable {κ ι α : Type} {keys : FieldKeys κ α} {d : Dump κ ι α}

/-- A dump that has come to its end has a video mode in it. -/
def Videoed (keys : FieldKeys κ α) (d : Dump κ ι α) : Prop :=
  (∃ f ∈ d.fields, f.1 = inCmCode) → ∃ f ∈ d.fields, f.2.key = keys.videoMode

/-- No dump is given up on: fewer than `INCOMPLETE_DUMP_RETRIES` in a row had no video mode. -/
def Patient (d : Dump κ ι α) (a : Time × LoopEvent κ ι α) : Prop :=
  match a.2 with
  | .turn _ => d.protocol.incompleteDumps < incompleteDumpRetries
  | .udp _ => True

/-- The record of the fields keeps a video mode before its end. -/
theorem Videoed.after (h : d.Videoed keys) {r : StoredFields κ ι α × AtemProtocol κ ι α}
    (hstored : d.stale = 0 → (∃ f ∈ r.1, f.1 = inCmCode) →
      ∃ f ∈ d.fields ++ r.1, f.2.key = keys.videoMode) : (d.after r).Videoed keys := by
  unfold Dump.after Videoed
  dsimp only
  split
  · rintro ⟨f, hf, -⟩
    cases hf
  · split
    · rename_i hstale
      rintro ⟨f, hf, hcode⟩
      rcases List.mem_append.mp hf with hf | hf
      · obtain ⟨g, hg, hkey⟩ := h ⟨f, hf, hcode⟩
        exact ⟨g, List.mem_append_left _ hg, hkey⟩
      · exact hstored hstale ⟨f, hf, hcode⟩
    · exact h

variable [DecidableEq κ] [DecidableEq ι] {socket : Socket} {aggressive : Bool}

/-- An event keeps a video mode in every dump. -/
theorem Videoed.step (h : d.Videoed keys) (hd : d.Steady) {a : Time × LoopEvent κ ι α}
    (hpatient : d.Patient a) : (d.step keys socket aggressive a).Videoed keys := by
  obtain ⟨now, e⟩ := a
  cases e with
  | udp e => exact h.after fun _ ⟨f, hf, _⟩ => absurd hf (List.not_mem_nil)
  | turn act =>
    refine h.after fun _ ⟨f, hf, hcode⟩ => ?_
    obtain ⟨hup, p, t, hp, hmixer, htries, hsame⟩ :=
      @AtemProtocol.turn_stored κ ι α _ _ keys act socket now aggressive d.protocol
        (List.ne_nil_of_mem hf)
    have hlive : d.Live := by
      rcases hd.phase with hphase | hphase | hphase
      · exact absurd hup hphase.state
      · exact hphase
      · exact absurd hp (hphase.none p)
    rw [hsame] at hf ⊢
    obtain ⟨g, hg, hkey⟩ := AtemProtocol.saveFields_video _ t (d.fields.map Prod.snd)
      (hmixer.trans hlive.mixer) (htries ▸ hpatient) ⟨f, hf, hcode⟩
    rw [← List.map_append] at hg
    obtain ⟨f, hf, rfl⟩ := List.mem_map.mp hg
    exact ⟨f, hf, hkey⟩

/-- A complete dump with a video mode in it is what the mixer state holds. -/
theorem Complete.video (h : d.Complete) (hvideo : d.Videoed keys) :
    (d.protocol.mixer.get? keys.videoMode).isSome = true := by
  obtain ⟨hinCm, hholds⟩ := h
  obtain ⟨f, hf, hkey⟩ := hvideo hinCm
  rw [hholds, MixerState.isSome_received]
  exact ⟨f.2, List.mem_map_of_mem hf, hkey⟩

end Videos

end Dump

/-! ## What the events say -/

namespace AtemProtocol

section Signals

variable {κ ι α : Type} [DecidableEq κ] [DecidableEq ι] (keys : FieldKeys κ α) (socket : Socket)
  (aggressive : Bool)

/-- Initialized only while connected. -/
def Tidy (s : AtemProtocol κ ι α) : Prop := s.connected = false → s.initialized = false

/-- What `initialized` is after a signal. -/
def initializedBy (s : AtemProtocol κ ι α) : Option SessionSignal → Bool
  | none => s.initialized
  | some .connected => true
  | some .disconnected => false

/-- A turn raises what it makes of `initialized`. -/
theorem turn_signals {s : AtemProtocol κ ι α} (h : s.Tidy) (now : Time)
    (act : Bytes → Bytes → FieldAction κ ι α) :
    (s.turn keys act socket now aggressive).2.Tidy ∧
      (s.turn keys act socket now aggressive).2.initialized =
        s.initializedBy (s.turnRaises keys act socket now aggressive) := by
  unfold turn turnRaises
  dsimp only
  generalize s.udp.receiveTurn socket now aggressive = r
  obtain ⟨r, u⟩ := r
  match r with
  | .error _ => exact ⟨h, rfl⟩
  | .ok none => exact ⟨h, rfl⟩
  | .ok (some .wakeup) => exact ⟨h, rfl⟩
  | .ok (some .connectionReady) => exact ⟨nofun, rfl⟩
  | .ok (some .transferQueueFlushed) => exact ⟨nofun, rfl⟩
  | .ok (some .none) =>
    dsimp only [loopOn, raisesOn]
    cases hconnected : s.connected with
    | true => exact ⟨fun _ => rfl, rfl⟩
    | false => exact ⟨fun _ => h hconnected, rfl⟩
  | .ok (some (.packet p)) =>
    dsimp only [loopOn, raisesOn, loopPacket]
    have hsaves := @saveFields_saves κ ι α _ _ keys act (decodePacket (p.data.getD [])).1
      { s with udp := u, connected := true }
    split
    · exact ⟨fun _ => rfl, rfl⟩
    · refine ⟨fun hnot => ?_, hsaves.initialized⟩
      rw [hsaves.connected] at hnot
      cases hnot

end Signals

end AtemProtocol

/-! ## What a step of the worker does -/

namespace ConnectionWorker

section Steps

variable {κ ι α : Type} [DecidableEq κ] [DecidableEq ι] (keys : FieldKeys κ α) (socket : Socket)
  (aggressive : Bool) (limits : WaitLimits)

/-- What a step of the worker means for its protocol. -/
def loopEvent (w : ConnectionWorker κ ι α) (e : WorkerEvent κ ι α) : Option (LoopEvent κ ι α) :=
  match e, w.place with
  | .connect, .starting => some (.udp .connect)
  | .turn act, .waiting .looping => some (.turn act)
  | .turn act, .pumping => some (.turn act)
  | .other e, _ => some (.udp e)
  | _, _ => none

/-- A step: the worker is told to stop, or ends; it is elsewhere; the transport moves; the protocol
connects, and is waited for, or ready already; a round begins; a turn is taken; `wait_ready` is
done, or goes on; or the worker goes on behind it. -/
inductive Stepped (w : ConnectionWorker κ ι α) :
    Time × WorkerEvent κ ι α → ConnectionWorker κ ι α → Prop
  | ends {a : Time × WorkerEvent κ ι α} {v : ConnectionWorker κ ι α} :
      v.stopEvent = true ∨ v.place = .exited → v.sessionReady = w.sessionReady →
      (∃ udp, v.protocol = { w.protocol with udp }) → Stepped w a v
  | idle {a : Time × WorkerEvent κ ι α} : w.loopEvent a.2 = none → Stepped w a w
  | other (now : Time) (e : Udp.UdpEvent) : Stepped w (now, .other e)
      { w with protocol :=
          { w.protocol with udp := w.protocol.udp.step socket aggressive (now, e) } }
  | connects (now : Time) {place : RunPlace} {started : Time} : w.place = .starting →
      place = .waiting .head ∨ place = .dumped ∧ w.protocol.dumped keys = true →
      Stepped w (now, .connect) { w with
        protocol :=
          { w.protocol with udp := w.protocol.udp.step socket aggressive (now, .connect) }
        started := started
        place := place }
  | round (now : Time) : w.place = .waiting .head →
      Stepped w (now, .head) { w with place := .waiting .looping }
  | turn (now : Time) (act : Bytes → Bytes → FieldAction κ ι α) {back : RunPlace} :
      w.place = .waiting .looping ∧ back = .waiting .looped ∨ w.place = .pumping ∧ back = .pumped →
      Stepped w (now, .turn act) (w.pump keys socket aggressive now act back)
  | passes (now lastRx : Time) : w.place = .waiting .looped →
      w.heard = true ∨ w.protocol.initialized = true →
      (w.protocol.mixer.get? keys.videoMode).isSome = true →
      Stepped w (now, .look lastRx) { w with place := .dumped }
  | again (now lastRx : Time) : w.place = .waiting .looped →
      ¬ ((w.heard = true ∨ w.protocol.initialized = true) ∧
        (w.protocol.mixer.get? keys.videoMode).isSome = true) →
      Stepped w (now, .look lastRx) { w with place := .waiting .head }
  | goes {a : Time × WorkerEvent κ ι α} {place : RunPlace} {done event : Bool} :
      w.place = .dumped ∨ w.place = .round ∨ w.place = .pumped → w.loopEvent a.2 = none →
      place = .round ∨ place = .pumping →
      Stepped w a { w with place := place, handshakeDone := done, readyEvent := event }

variable {keys socket aggressive limits}

theorem connect_stepped {w : ConnectionWorker κ ι α} (hplace : w.place = .starting) (now : Time) :
    Stepped keys socket aggressive w (now, .connect) (w.connect keys socket now) := by
  unfold ConnectionWorker.connect
  dsimp only
  split
  · exact .ends (.inr rfl) rfl ⟨_, rfl⟩
  · split
    · rename_i hdumped
      exact .connects now hplace (.inr ⟨rfl, hdumped⟩)
    · exact .connects now hplace (.inl rfl)

theorem look_stepped {w : ConnectionWorker κ ι α} (hplace : w.place = .waiting .looped)
    (now lastRx : Time) : Stepped keys socket aggressive w (now, .look lastRx)
      (w.look keys socket limits now lastRx) := by
  unfold ConnectionWorker.look
  split
  · exact .ends (.inr rfl) rfl ⟨_, rfl⟩
  · split
    · exact .ends (.inr rfl) rfl ⟨_, rfl⟩
    · split
      · rename_i hpasses
        rw [Bool.and_eq_true, Bool.or_eq_true] at hpasses
        exact .passes now lastRx hplace hpasses.1 hpasses.2
      · rename_i hagain
        rw [Bool.and_eq_true, Bool.or_eq_true] at hagain
        exact .again now lastRx hplace hagain

theorem step_stepped (w : ConnectionWorker κ ι α) (a : Time × WorkerEvent κ ι α) :
    Stepped keys socket aggressive w a (w.step keys socket aggressive limits a) := by
  obtain ⟨now, e⟩ := a
  unfold ConnectionWorker.step
  dsimp only
  split
  · exact connect_stepped ‹_› now
  · split
    · exact .ends (.inr rfl) rfl ⟨_, rfl⟩
    · split
      · exact .ends (.inr rfl) rfl ⟨_, rfl⟩
      · exact .round now ‹_›
  · exact .turn now _ (.inl ⟨‹_›, rfl⟩)
  · exact look_stepped ‹_› now _
  · exact .goes (.inl ‹_›) rfl (.inl rfl)
  · split
    · exact .ends (.inr rfl) rfl ⟨_, rfl⟩
    · exact .goes (.inr (.inl ‹_›)) rfl (.inr rfl)
  · exact .turn now _ (.inr ⟨‹_›, rfl⟩)
  · split
    · exact .goes (.inr (.inr ‹_›)) rfl (.inl rfl)
    · exact .ends (.inr rfl) rfl ⟨_, rfl⟩
  · exact .ends (.inl rfl) rfl ⟨_, rfl⟩
  · exact .ends (.inl rfl) rfl ⟨_, rfl⟩
  · exact .other now _
  · refine .idle ?_
    unfold loopEvent
    split <;> simp_all

end Steps

/-! ## Ready, and initialized -/

section Mirrors

variable {κ ι α : Type} {w v : ConnectionWorker κ ι α}

/-- The handlers of the two events keep up with `initialized`. -/
structure Mirrors (w : ConnectionWorker κ ι α) : Prop where
  tidy : w.protocol.Tidy
  same : w.sessionReady = w.protocol.initialized

theorem Mirrors.keeps (h : w.Mirrors) (hready : v.sessionReady = w.sessionReady)
    (hprotocol : ∃ udp, v.protocol = { w.protocol with udp }) : v.Mirrors := by
  obtain ⟨udp, hprotocol⟩ := hprotocol
  refine ⟨?_, ?_⟩
  · rw [hprotocol]
    exact h.tidy
  · rw [hready, hprotocol]
    exact h.same

theorem signalled_ready (signal : Option SessionSignal)
    (hsame : w.sessionReady = w.protocol.initialized) :
    (w.signalled signal).sessionReady = w.protocol.initializedBy signal := by
  match signal with
  | none => exact hsame
  | some .connected => rfl
  | some .disconnected => rfl

/-- What `wait_ready` has newly heard of is `connected`. -/
theorem signalled_heard (signal : Option SessionSignal) (h : (w.signalled signal).heard = true)
    (hold : w.heard ≠ true) : signal = some .connected := by
  match signal with
  | none => exact absurd h hold
  | some .connected => rfl
  | some .disconnected => exact absurd h hold

theorem Mirrors.isReady_eq (h : w.Mirrors) :
    w.isReady = (w.protocol.initialized && w.isConnected) := by
  unfold isReady
  rw [h.same]

variable [DecidableEq κ] [DecidableEq ι] {keys : FieldKeys κ α} {socket : Socket}
  {aggressive : Bool} {a : Time × WorkerEvent κ ι α}

theorem Mirrors.step (h : w.Mirrors) (hstep : Stepped keys socket aggressive w a v) :
    v.Mirrors := by
  cases hstep with
  | ends _ hready hprotocol => exact h.keeps hready hprotocol
  | idle => exact h
  | other => exact h.keeps rfl ⟨_, rfl⟩
  | connects => exact h.keeps rfl ⟨_, rfl⟩
  | round => exact h.keeps rfl ⟨_, rfl⟩
  | turn now act =>
    obtain ⟨htidy, hsignals⟩ := AtemProtocol.turn_signals keys socket aggressive h.tidy now act
    exact ⟨htidy, (signalled_ready _ h.same).trans hsignals.symm⟩
  | passes => exact h.keeps rfl ⟨_, rfl⟩
  | again => exact h.keeps rfl ⟨_, rfl⟩
  | goes => exact h.keeps rfl ⟨_, rfl⟩

/-- A worker that is told to stop stays so, and one at its end does. -/
theorem Stepped.over (hstep : Stepped keys socket aggressive w a v)
    (h : w.stopEvent = true ∨ w.place = .exited) : v.stopEvent = true ∨ v.place = .exited := by
  have hstop : ∀ {place : RunPlace}, w.place = place → place ≠ .exited → w.stopEvent = true :=
    fun hplace hne => h.resolve_right fun hexited => hne (hplace.symm.trans hexited)
  cases hstep with
  | ends hend => exact hend
  | idle => exact h
  | other => exact h
  | connects _ hplace => exact .inl (hstop hplace (by simp))
  | round _ hplace => exact .inl (hstop hplace (by simp))
  | turn now act hplace =>
    have hsame : ∀ signal, (w.signalled signal).stopEvent = w.stopEvent
      | none => rfl
      | some .connected => rfl
      | some .disconnected => rfl
    refine .inl ((hsame _).trans ?_)
    rcases hplace with ⟨hplace, -⟩ | ⟨hplace, -⟩
    · exact hstop hplace (by simp)
    · exact hstop hplace (by simp)
  | passes _ _ hplace => exact .inl (hstop hplace (by simp))
  | again _ _ hplace => exact .inl (hstop hplace (by simp))
  | goes hplace =>
    rcases hplace with hplace | hplace | hplace
    · exact .inl (hstop hplace (by simp))
    · exact .inl (hstop hplace (by simp))
    · exact .inl (hstop hplace (by simp))

/-- A turn that raises something ends in `loop`'s caller. -/
theorem pump_place (now : Time) (act : Bytes → Bytes → FieldAction κ ι α) (back : RunPlace) :
    (w.pump keys socket aggressive now act back).place = back ∨
      (w.pump keys socket aggressive now act back).place = w.place ∧
        w.protocol.turnRaises keys act socket now aggressive = none := by
  unfold pump AtemProtocol.turnRaises
  dsimp only
  split
  · rename_i hwaits
    rw [hwaits]
    exact .inr ⟨rfl, rfl⟩
  · exact .inl rfl

end Mirrors

end ConnectionWorker

/-! ## A worker and the record of its dumps -/

/-- A worker, and the record of its protocol's dumps. -/
structure FollowedWorker (κ ι α : Type) where
  worker : ConnectionWorker κ ι α
  dump : Dump κ ι α

namespace FollowedWorker

section Runs

variable {κ ι α : Type} [DecidableEq κ] [DecidableEq ι] (keys : FieldKeys κ α) (socket : Socket)
  (aggressive : Bool) (limits : WaitLimits)

/-- The record after an event. -/
def record (f : FollowedWorker κ ι α) (a : Time × WorkerEvent κ ι α) : Dump κ ι α :=
  match f.worker.loopEvent a.2 with
  | some e => f.dump.step keys socket aggressive (a.1, e)
  | none => f.dump

/-- One event. -/
def step (f : FollowedWorker κ ι α) (a : Time × WorkerEvent κ ι α) : FollowedWorker κ ι α where
  worker := f.worker.step keys socket aggressive limits a
  dump := f.record keys socket aggressive a

/-- What it means for the protocol can happen, in a run whose handshakes are in order. -/
def Orderly (f : FollowedWorker κ ι α) (a : Time × WorkerEvent κ ι α) : Prop :=
  ∀ e ∈ f.worker.loopEvent a.2,
    f.dump.Possible (a.1, e) ∧ f.dump.Orderly keys socket aggressive (a.1, e)

/-- No dump is given up on. -/
def Patient (f : FollowedWorker κ ι α) (a : Time × WorkerEvent κ ι α) : Prop :=
  ∀ e ∈ f.worker.loopEvent a.2, f.dump.Patient (a.1, e)

/-- A worker that is about to connect a fresh protocol. -/
def Initial (f : FollowedWorker κ ι α) : Prop :=
  ∃ now, f = { worker := { protocol := { udp := .fresh now } },
               dump := { protocol := { udp := .fresh now } } }

/-- The workers of the runs whose every step meets `ok`. -/
def ReachableWhen (ok : FollowedWorker κ ι α → Time × WorkerEvent κ ι α → Prop) :
    FollowedWorker κ ι α → Prop :=
  Reach Initial (step keys socket aggressive limits) ok

variable {keys socket aggressive limits} {f : FollowedWorker κ ι α} {v : ConnectionWorker κ ι α}
  {a : Time × WorkerEvent κ ι α}

/-- What an event means for the protocol that it means nothing to. -/
theorem record_none (h : f.worker.loopEvent a.2 = none) :
    f.record keys socket aggressive a = f.dump := by
  unfold record
  rw [h]

theorem record_some {e : LoopEvent κ ι α} (h : f.worker.loopEvent a.2 = some e) :
    f.record keys socket aggressive a = f.dump.step keys socket aggressive (a.1, e) := by
  unfold record
  rw [h]

/-- The record is of the worker's protocol. -/
structure Follows (f : FollowedWorker κ ι α) : Prop where
  protocol : f.dump.protocol = f.worker.protocol
  steady : f.dump.Steady

/-- An event that means something to the protocol. -/
theorem Follows.moves (h : f.Follows) (hok : f.Orderly keys socket aggressive a)
    {e : LoopEvent κ ι α} (he : f.worker.loopEvent a.2 = some e)
    (hprotocol : v.protocol =
      match e with
      | .turn act => (f.worker.protocol.turn keys act socket a.1 aggressive).2
      | .udp e => { f.worker.protocol with
          udp := f.worker.protocol.udp.step socket aggressive (a.1, e) }) :
    Follows ⟨v, f.record keys socket aggressive a⟩ := by
  obtain ⟨hpossible, horderly⟩ := hok e he
  rw [record_some he]
  cases e with
  | turn act => exact ⟨by rw [hprotocol, ← h.protocol]; rfl, h.steady.turn horderly⟩
  | udp e => exact ⟨by rw [hprotocol, ← h.protocol]; rfl, h.steady.udp hpossible horderly⟩

/-- While the worker is neither told to stop nor at its end, the record goes with it. -/
theorem Follows.step (h : f.Follows) (hok : f.Orderly keys socket aggressive a)
    (hstep : f.worker.Stepped keys socket aggressive a v)
    (hover : ¬ (v.stopEvent = true ∨ v.place = .exited)) :
    Follows ⟨v, f.record keys socket aggressive a⟩ := by
  have hstays : f.worker.loopEvent a.2 = none → v.protocol = f.worker.protocol →
      Follows ⟨v, f.record keys socket aggressive a⟩ := by
    intro hnone hsame
    rw [record_none hnone]
    exact ⟨h.protocol.trans hsame.symm, h.steady⟩
  cases hstep with
  | ends hend => exact absurd hend hover
  | idle hnone => exact hstays hnone rfl
  | other now e =>
    exact h.moves hok (e := .udp e) (by simp [ConnectionWorker.loopEvent]) rfl
  | connects now hplace =>
    exact h.moves hok (e := .udp .connect) (by simp [ConnectionWorker.loopEvent, hplace]) rfl
  | round now hplace => exact hstays (by simp [ConnectionWorker.loopEvent]) rfl
  | turn now act hplace =>
    refine h.moves hok (e := .turn act) ?_ rfl
    rcases hplace with ⟨hplace, -⟩ | ⟨hplace, -⟩
    · simp [ConnectionWorker.loopEvent, hplace]
    · simp [ConnectionWorker.loopEvent, hplace]
  | passes => exact hstays (by simp [ConnectionWorker.loopEvent]) rfl
  | again => exact hstays (by simp [ConnectionWorker.loopEvent]) rfl
  | goes _ hnone => exact hstays hnone rfl

/-- While the worker is neither told to stop nor at its end, the record goes with it. -/
theorem follows_reach (h : f.ReachableWhen keys socket aggressive limits
      fun f a => f.Orderly keys socket aggressive a) :
    f.worker.stopEvent = true ∨ f.worker.place = .exited ∨ f.Follows := by
  refine h.invariant
    (P := fun f => f.worker.stopEvent = true ∨ f.worker.place = .exited ∨ f.Follows)
    ?_ ?_
  · rintro f ⟨now, rfl⟩
    exact .inr (.inr ⟨rfl, @Dump.steady_reach κ ι α _ _ keys socket aggressive _
      (.start ⟨now, rfl⟩)⟩)
  · intro f a _ hf hok
    have hstep := @ConnectionWorker.step_stepped κ ι α _ _ keys socket aggressive limits
      f.worker a
    by_cases hover : (f.worker.step keys socket aggressive limits a).stopEvent = true ∨
        (f.worker.step keys socket aggressive limits a).place = .exited
    · exact hover.imp id .inl
    · have hlive : f.Follows :=
        (hf.resolve_left fun hstop => hover (hstep.over (.inl hstop))).resolve_left
          fun hexited => hover (hstep.over (.inr hexited))
      exact .inr (.inr (hlive.step hok hstep hover))

/-- Every dump has a video mode in it, and what `wait_ready` has heard of is still so. -/
structure Told (keys : FieldKeys κ α) (f : FollowedWorker κ ι α) : Prop where
  follows : f.Follows
  videoed : f.dump.Videoed keys
  heard : f.worker.heard = true → f.worker.place ≠ .starting ∧
    (f.worker.place = .waiting .looped → f.worker.protocol.initialized = true) ∧
    f.worker.place ≠ .waiting .head ∧ f.worker.place ≠ .waiting .looping
  dumped : f.worker.place = .dumped → f.worker.protocol.dumped keys = true

theorem Told.step (h : f.Told keys) (hmirrors : f.worker.Mirrors)
    (hok : f.Orderly keys socket aggressive a) (hpatient : f.Patient a)
    (hstep : f.worker.Stepped keys socket aggressive a v)
    (hover : ¬ (v.stopEvent = true ∨ v.place = .exited)) :
    Told keys ⟨v, f.record keys socket aggressive a⟩ := by
  have hfollows := h.follows.step hok hstep hover
  have hvideoed : (f.record keys socket aggressive a).Videoed keys := by
    cases he : f.worker.loopEvent a.2 with
    | none =>
      rw [record_none he]
      exact h.videoed
    | some e =>
      rw [record_some he]
      exact h.videoed.step h.follows.steady (hpatient e he)
  cases hstep with
  | ends hend => exact absurd hend hover
  | idle => exact ⟨hfollows, hvideoed, h.heard, h.dumped⟩
  | other => exact ⟨hfollows, hvideoed, h.heard, h.dumped⟩
  | connects _ hplace hat =>
    refine ⟨hfollows, hvideoed, fun hheard => absurd hplace (h.heard hheard).1, fun hdumped => ?_⟩
    rcases hat with hat | ⟨-, hready⟩
    · exact absurd (hat.symm.trans hdumped) (by simp)
    · exact hready
  | round _ hplace =>
    exact ⟨hfollows, hvideoed, fun hheard => absurd hplace (h.heard hheard).2.2.1, nofun⟩
  | @turn now act back hplace =>
    have hsignals := (AtemProtocol.turn_signals keys socket aggressive hmirrors.tidy now act).2
    have hat := @ConnectionWorker.pump_place κ ι α f.worker _ _ keys socket aggressive now act
      back
    rcases hplace with ⟨hplace, rfl⟩ | ⟨hplace, rfl⟩
    · refine ⟨hfollows, hvideoed, fun hheard => ?_, fun hdumped => ?_⟩
      · have hnew := ConnectionWorker.signalled_heard _ hheard fun hold =>
          (h.heard hold).2.2.2 hplace
        rw [hnew] at hsignals hat
        have hback := hat.resolve_right (by simp)
        exact ⟨by simp [hback], fun _ => hsignals, by simp [hback], by simp [hback]⟩
      · rcases hat with hat | ⟨hat, -⟩
        · exact absurd (hat.symm.trans hdumped) (by simp)
        · exact absurd (hplace.symm.trans (hat.symm.trans hdumped)) (by simp)
    · have hpast : (f.worker.pump keys socket aggressive now act .pumped).place = .pumped ∨
          (f.worker.pump keys socket aggressive now act .pumped).place = .pumping :=
        hat.imp id fun hat => hat.1.trans hplace
      refine ⟨hfollows, hvideoed, fun _ => ?_, fun hdumped => ?_⟩
      · rcases hpast with hpast | hpast
        · exact ⟨by simp [hpast], by simp [hpast], by simp [hpast], by simp [hpast]⟩
        · exact ⟨by simp [hpast], by simp [hpast], by simp [hpast], by simp [hpast]⟩
      · rcases hpast with hpast | hpast
        · exact absurd (hpast.symm.trans hdumped) (by simp)
        · exact absurd (hpast.symm.trans hdumped) (by simp)
  | passes _ _ hplace hheard hvideo =>
    have hready : f.worker.protocol.initialized = true :=
      hheard.elim (fun hheard => (h.heard hheard).2.1 hplace) id
    refine ⟨hfollows, hvideoed, fun _ => ⟨nofun, nofun, nofun, nofun⟩, fun _ => ?_⟩
    unfold AtemProtocol.dumped
    rw [hready, hvideo]
    rfl
  | again _ _ hplace hagain =>
    refine ⟨hfollows, hvideoed, fun hheard => ?_, nofun⟩
    -- what has been heard of is whole, so this round goes on
    have hready := (h.heard hheard).2.1 hplace
    have hcomplete := h.follows.steady.ready (h.follows.protocol ▸ hready)
    have hvideo := hcomplete.video h.videoed
    rw [h.follows.protocol] at hvideo
    exact absurd ⟨.inl hheard, hvideo⟩ hagain
  | goes _ _ hplace =>
    refine ⟨hfollows, hvideoed, fun _ => ?_, fun hdumped => ?_⟩
    · rcases hplace with rfl | rfl
      · exact ⟨nofun, nofun, nofun, nofun⟩
      · exact ⟨nofun, nofun, nofun, nofun⟩
    · rcases hplace with rfl | rfl
      · cases hdumped
      · cases hdumped

/-- When handshakes are in order, and fewer than `INCOMPLETE_DUMP_RETRIES` dumps in a row end
without a video mode, `wait_ready` returns with the whole dump of the session and the video mode in
it, to a connection whose handlers have heard of it. -/
theorem waitReady_complete (h : f.ReachableWhen keys socket aggressive limits
      fun f a => f.Orderly keys socket aggressive a ∧ f.Patient a)
    (hstop : f.worker.stopEvent = false) (hplace : f.worker.place = .dumped) :
    f.dump.protocol = f.worker.protocol ∧ f.dump.Complete ∧
      (f.worker.protocol.mixer.get? keys.videoMode).isSome = true ∧
      f.worker.protocol.initialized = true ∧ f.worker.sessionReady = true := by
  have htold : f.worker.Mirrors ∧
      (f.worker.stopEvent = true ∨ f.worker.place = .exited ∨ f.Told keys) := by
    refine h.invariant (P := fun f => f.worker.Mirrors ∧
      (f.worker.stopEvent = true ∨ f.worker.place = .exited ∨ f.Told keys)) ?_ ?_
    · rintro f ⟨now, rfl⟩
      refine ⟨⟨fun _ => rfl, rfl⟩, .inr (.inr ⟨⟨rfl, ?_⟩, fun ⟨f, hf, _⟩ => absurd hf (by simp),
        nofun, nofun⟩)⟩
      exact @Dump.steady_reach κ ι α _ _ keys socket aggressive _ (.start ⟨now, rfl⟩)
    · rintro f a - ⟨hmirrors, hf⟩ ⟨hok, hpatient⟩
      have hstep := @ConnectionWorker.step_stepped κ ι α _ _ keys socket aggressive limits
        f.worker a
      refine ⟨hmirrors.step hstep, ?_⟩
      by_cases hover : (f.worker.step keys socket aggressive limits a).stopEvent = true ∨
          (f.worker.step keys socket aggressive limits a).place = .exited
      · exact hover.imp id .inl
      · have hlive : f.Told keys :=
          (hf.resolve_left fun hstop => hover (hstep.over (.inl hstop))).resolve_left
            fun hexited => hover (hstep.over (.inr hexited))
        exact .inr (.inr (hlive.step hmirrors hok hpatient hstep hover))
  obtain ⟨hmirrors, htold⟩ := htold
  have htold := (htold.resolve_left (by simp [hstop])).resolve_left (by simp [hplace])
  obtain ⟨hready, hvideo⟩ := Bool.and_eq_true_iff.mp (htold.dumped hplace)
  refine ⟨htold.follows.protocol, htold.follows.steady.ready ?_, hvideo, hready,
    hmirrors.same.trans hready⟩
  rw [htold.follows.protocol]
  exact hready

end Runs

/-! ## A flag that outlives its session -/

instance Orderly.decidable (f : FollowedWorker ℕ ℕ ℕ) (a : Time × WorkerEvent ℕ ℕ ℕ) :
    Decidable (f.Orderly Dump.numbered Pump.allSent false a) := by
  unfold Orderly
  infer_instance

instance Patient.decidable (f : FollowedWorker ℕ ℕ ℕ) (a : Time × WorkerEvent ℕ ℕ ℕ) :
    Decidable (f.Patient a) := by
  have : ∀ e : LoopEvent ℕ ℕ ℕ, Decidable (f.dump.Patient (a.1, e))
    | .turn _ => inferInstanceAs (Decidable (_ < _))
    | .udp _ => inferInstanceAs (Decidable True)
  unfold Patient
  infer_instance

/-- A worker just started. -/
def fresh : FollowedWorker ℕ ℕ ℕ :=
  { worker := { protocol := { udp := .fresh 0 } }, dump := { protocol := { udp := .fresh 0 } } }

/-- A worker after these events, all at once. -/
def played (events : List (WorkerEvent ℕ ℕ ℕ)) : FollowedWorker ℕ ℕ ℕ :=
  Library.run (step Dump.numbered Pump.allSent false connectLimits) fresh
    (events.map fun e => (0, e))

/-- The packets of a switcher. -/
def datagram (p : Packet) : WorkerEvent ℕ ℕ ℕ := .other (.drain [(true, p.toBytes.getD [])])

/-- A turn in which every field is stored under the key of the video mode. -/
def turned : WorkerEvent ℕ ℕ ℕ := .turn Dump.videoMode

/-- The handshake of a session, in a round of `wait_ready`. -/
def handshake : List (WorkerEvent ℕ ℕ ℕ) :=
  [.other .takeQueued, datagram Pump.synReply, .head, turned, .other .takeQueued]

/-- The dump is received, and `wait_ready` comes to its end. -/
def received : List (WorkerEvent ℕ ℕ ℕ) :=
  .connect :: handshake ++ [datagram Dump.dumpPacket, turned, .look 0, .head,
    datagram { Pump.firstData with sequenceNumber := 2 }, turned, .look 0]

theorem waitReady_complete_received :
    (played received).worker.place = .dumped ∧
      (played received).dump.protocol = (played received).worker.protocol ∧
      (played received).dump.Complete ∧
      ((played received).worker.protocol.mixer.get? Dump.numbered.videoMode).isSome = true ∧
      (played received).worker.protocol.initialized = true ∧
      (played received).worker.sessionReady = true := by
  have hstart : ReachableWhen Dump.numbered Pump.allSent false connectLimits
      (fun f a => f.Orderly Dump.numbered Pump.allSent false a ∧ f.Patient a) fresh :=
    .start ⟨0, rfl⟩
  exact ⟨by decide +kernel,
    waitReady_complete (hstart.run _ (by decide +kernel)) (by decide +kernel) (by decide +kernel)⟩

/-- A reliable packet of a session. -/
def dataOf (session sequenceNumber : ℕ) (data : Bytes) : Packet :=
  { flags := flagReliable, session := some (0x8000 + session), sequenceNumber, data := some data }

/-- A session whose dump ends without a video mode. -/
def withoutVideo (session : ℕ) : List (WorkerEvent ℕ ℕ ℕ) :=
  handshake ++ [datagram (dataOf session 1 [0, 8, 0, 0, 0x49, 0x6e, 0x43, 0x6d]), turned, .look 0]

/-- Three dumps without a video mode are sent for again, the fourth is accepted; `connected` is
raised, the session lost, and another begun, of which a first field comes. -/
def givenUp : List (WorkerEvent ℕ ℕ ℕ) :=
  .connect :: withoutVideo 1 ++ withoutVideo 2 ++ withoutVideo 3 ++ withoutVideo 4 ++
    [.head, datagram { flags := flagAck, session := some 0x8004 }, turned, .look 0,
      .other .silence, .head, turned, .look 0, .head, turned, .look 0] ++ handshake ++
    [datagram (dataOf 5 1 [0, 8, 0, 0, 0x56, 0x69, 0x64, 0x4d]), turned, .look 0]

/-- Without patience `wait_ready` returns on the flag of a session that is gone. -/
theorem givenUp_not_initialized :
    ReachableWhen Dump.numbered Pump.allSent false connectLimits
      (fun f a => f.Orderly Dump.numbered Pump.allSent false a) (played givenUp) ∧
    (played givenUp).worker.stopEvent = false ∧ (played givenUp).worker.place = .dumped ∧
    (played givenUp).worker.protocol.initialized = false := by
  have hstart : ReachableWhen Dump.numbered Pump.allSent false connectLimits
      (fun f a => f.Orderly Dump.numbered Pump.allSent false a) fresh := .start ⟨0, rfl⟩
  exact ⟨hstart.run _ (by decide +kernel), by decide +kernel, by decide +kernel, by decide +kernel⟩

end FollowedWorker

end Bmdwire
