import Bmdwire.Interface.HubReads

/-!
# A Videohub client that connects again

A successful `connect` applies the blocks of the new connection's preamble, which the bytes
received determine, to the state that the object already has (`connect_state`). `connect` resets
the socket and the buffer but none of the fields that the blocks fill, so what an earlier
connection left stays where the preamble writes nothing, and counts among the essentials.
-/

set_option autoImplicit false

namespace Bmdwire

open Library (Dict Framing)

/-! ## What blocks make of a state -/

/-- What blocks make of a state that holds nothing. -/
def madeOf (bs : List Block) : HubState := bs.foldl applyBlock {}

/-- The lines of the blocks with this header. -/
def bodyUnder (header : String) (b : Block) : List Line :=
  if headerOf b = header.toList then bodyOf b else []

/-- Whether a block names a version. -/
def namesVersion (b : Block) : Bool :=
  (kv (bodyUnder "PROTOCOL PREAMBLE:" b)).any fun e => e.1 = "version"

/-- A field that a block assigns the same entries to whatever the state. -/
structure Assigned {κ ν : Type} [DecidableEq κ] (field : HubState → Dict κ ν)
    (entries : Block → List (κ × ν)) : Prop where
  start : field {} = .empty
  apply : ∀ s b, field (applyBlock s b) = (field s).setAll (entries b)

section Assigned

variable {κ ν : Type} [DecidableEq κ] {field : HubState → Dict κ ν}
  {entries : Block → List (κ × ν)}

theorem Assigned.foldl (h : Assigned field entries) (bs : List Block) (s : HubState) :
    field (bs.foldl applyBlock s) = (field s).setAll (bs.flatMap entries) := by
  induction bs generalizing s with
  | nil => rfl
  | cons b bs ih =>
    rw [List.foldl_cons, ih, h.apply, List.flatMap_cons, Dict.setAll_append]

/-- The blocks' entries go over those of the state. -/
theorem Assigned.get? (h : Assigned field entries) (bs : List Block) (s : HubState) (k : κ) :
    (field (bs.foldl applyBlock s)).get? k =
      ((field (madeOf bs)).get? k).or ((field s).get? k) := by
  unfold madeOf
  rw [h.foldl, h.foldl, h.start, Dict.get?_setAll]

/-- Two states come to agree on a key that the blocks assign, or if they agreed before. -/
theorem Assigned.get?_eq_iff (h : Assigned field entries) (bs : List Block) (s t : HubState)
    (k : κ) :
    (field (bs.foldl applyBlock s)).get? k = (field (bs.foldl applyBlock t)).get? k ↔
      ((field (madeOf bs)).get? k = none → (field s).get? k = (field t).get? k) := by
  rw [h.get?, h.get?]
  cases (field (madeOf bs)).get? k with
  | none => simp
  | some v => simp

/-- Entries come from the blocks or from before. -/
theorem Assigned.keys_eq_nil_iff (h : Assigned field entries) (bs : List Block) (s : HubState) :
    (field (bs.foldl applyBlock s)).keys = [] ↔
      (field (madeOf bs)).keys = [] ∧ (field s).keys = [] := by
  rw [Dict.keys_eq_nil_iff, Dict.keys_eq_nil_iff, Dict.keys_eq_nil_iff]
  simp only [h.get?, Option.or_eq_none_iff]
  exact forall_and

end Assigned

theorem assigned_device :
    Assigned HubState.device fun b => kv (bodyUnder "VIDEOHUB DEVICE:" b) where
  start := rfl
  apply s b := by
    unfold applyBlock bodyUnder
    split_ifs <;> simp_all [Dict.setAll, kv]

theorem assigned_inputLabels : Assigned HubState.inputLabels fun b =>
    (bodyUnder "INPUT LABELS:" b).filterMap (indexedEntry castStr) where
  start := rfl
  apply s b := by
    unfold applyBlock bodyUnder
    split_ifs <;> simp_all [Dict.setAll, applyIndexed]

theorem assigned_outputLabels : Assigned HubState.outputLabels fun b =>
    (bodyUnder "OUTPUT LABELS:" b).filterMap (indexedEntry castStr) where
  start := rfl
  apply s b := by
    unfold applyBlock bodyUnder
    split_ifs <;> simp_all [Dict.setAll, applyIndexed]

theorem assigned_routing : Assigned HubState.routing fun b =>
    (bodyUnder "VIDEO OUTPUT ROUTING:" b).filterMap (indexedEntry castInt) where
  start := rfl
  apply s b := by
    unfold applyBlock bodyUnder
    split_ifs <;> simp_all [Dict.setAll, applyIndexed]

theorem assigned_locks : Assigned HubState.locks fun b =>
    (bodyUnder "VIDEO OUTPUT LOCKS:" b).filterMap (indexedEntry castStr) where
  start := rfl
  apply s b := by
    unfold applyBlock bodyUnder
    split_ifs <;> simp_all [Dict.setAll, applyIndexed]

/-- The blocks' version goes over that of the state. -/
theorem protocolVersion_apply (s : HubState) (b : Block) :
    (applyBlock s b).protocolVersion =
      lastVersion (kv (bodyUnder "PROTOCOL PREAMBLE:" b)) s.protocolVersion := by
  unfold applyBlock bodyUnder
  split_ifs <;> simp_all [lastVersion, kv]

theorem lastVersion_eq_iff (entries : List (String × String)) (v w : String) :
    lastVersion entries v = lastVersion entries w ↔
      ((entries.any fun e => e.1 = "version") = false → v = w) := by
  unfold lastVersion
  induction entries generalizing v w with
  | nil => simp
  | cons e entries ih =>
    rw [List.foldl_cons, List.foldl_cons, ih, List.any_cons]
    by_cases he : e.1 = "version"
    · simp [he]
    · simp [he]

theorem protocolVersion_eq_iff (bs : List Block) (s t : HubState) :
    (bs.foldl applyBlock s).protocolVersion = (bs.foldl applyBlock t).protocolVersion ↔
      (bs.any namesVersion = false → s.protocolVersion = t.protocolVersion) := by
  induction bs generalizing s t with
  | nil => simp
  | cons b bs ih =>
    rw [List.foldl_cons, List.foldl_cons, ih, protocolVersion_apply, protocolVersion_apply,
      lastVersion_eq_iff, List.any_cons, Bool.or_eq_false_iff]
    unfold namesVersion
    tauto

/-! ## What connect reads -/

/-- The blocks up to the marker, or all when there is none. -/
def throughMarker : List Block → List Block
  | [] => []
  | b :: bs => if isMarker b then [b] else b :: throughMarker bs

/-- The blocks of the preamble in the bytes received. -/
def preamble (received : List UInt8) : List Block := throughMarker (blocks.frames received).1

theorem throughMarker_of_marker {bs : List Block} {b : Block} (rest : List Block)
    (hbs : ∀ c ∈ bs, isMarker c = false) (hb : isMarker b = true) :
    throughMarker (bs ++ b :: rest) = bs ++ [b] := by
  induction bs with
  | nil => simp [throughMarker, hb]
  | cons c bs ih =>
    have hc := hbs c List.mem_cons_self
    have htail := ih fun d hd => hbs d (List.mem_cons_of_mem c hd)
    simp [throughMarker, hc, htail]

theorem throughMarker_of_none {bs : List Block} (hbs : ∀ c ∈ bs, isMarker c = false) :
    throughMarker bs = bs := by
  induction bs with
  | nil => rfl
  | cons c bs ih =>
    have hc := hbs c List.mem_cons_self
    have htail := ih fun d hd => hbs d (List.mem_cons_of_mem c hd)
    simp [throughMarker, hc, htail]

namespace Videohub

/-- The bytes received on the connection. -/
def received (vh : Videohub) : List UInt8 := vh.sock.elim [] Wire.received

/-- How a preamble that was read ends: with the marker, or on a quiet wire with the essentials. -/
def PreambleEnds (vh : Videohub) (bs : List Block) : Prop :=
  (∃ before last, bs = before ++ [last] ∧ (∀ c ∈ before, isMarker c = false) ∧
      isMarker last = true) ∨
    (∀ c ∈ bs, isMarker c = false) ∧ blocks.next vh.buf = none ∧ hasEssentials vh.state = true

/-- A preamble read to its end: its blocks are applied one after the other. -/
theorem reading_preamble {vh vh' : Videohub} {host : String} {result : Except HubError Unit}
    {wire : Wire} {bs : List Block} {s : HubState}
    (h : Reading preambleBlock (preambleQuiet host) vh result vh') (hok : result = .ok ())
    (hsock : vh.sock = some wire) (hbs : takenOf wire.log = bs)
    (hno : ∀ c ∈ bs, isMarker c = false) (hstate : vh.state = bs.foldl applyBlock s) :
    ∃ wire', vh'.sock = some wire' ∧ Kept wire' vh'.buf ∧
      vh'.state = (takenOf wire'.log).foldl applyBlock s ∧
      PreambleEnds vh' (takenOf wire'.log) := by
  induction h generalizing wire bs with
  | closed hsock' hkept hlog => exact absurd hok (by simp)
  | @expired vh wire₁ wire' buf' hsock' hkept hlog hnext =>
    have hwire : wire₁ = wire := Option.some.inj (hsock'.symm.trans hsock)
    subst hwire
    refine ⟨wire', rfl, hkept, ?_, .inr ⟨?_, hnext, ?_⟩⟩
    · rw [hlog, hbs]
      exact hstate
    · rw [hlog, hbs]
      exact hno
    · unfold preambleQuiet at hok
      split at hok
      · assumption
      · exact absurd hok (by simp)
  | @ended vh wire₁ wire' buf' block state result hsock' hkept hlog hhandle =>
    have hwire : wire₁ = wire := Option.some.inj (hsock'.symm.trans hsock)
    subst hwire
    have htaken : takenOf wire'.log = bs ++ [block] := by
      rw [hlog, takenOf_took, hbs]
    unfold preambleBlock at hhandle
    obtain ⟨rfl, hstop⟩ := Prod.mk.inj hhandle
    refine ⟨wire', rfl, hkept, ?_, .inl ⟨bs, block, htaken, hno, ?_⟩⟩
    · rw [htaken, List.foldl_concat, ← hstate]
    · split at hstop
      · assumption
      · exact absurd hstop (by simp)
  | @again vh vh' wire₁ wire' buf' block state result hsock' hkept hlog hhandle _ ih =>
    have hwire : wire₁ = wire := Option.some.inj (hsock'.symm.trans hsock)
    subst hwire
    unfold preambleBlock at hhandle
    obtain ⟨rfl, hstop⟩ := Prod.mk.inj hhandle
    have htaken : takenOf wire'.log = bs ++ [block] := by
      rw [hlog, takenOf_took, hbs]
    apply ih hok rfl htaken
    · intro c hc
      rcases List.mem_append.mp hc with hc | hc
      · exact hno c hc
      · rw [List.mem_singleton.mp hc]
        split at hstop
        · exact absurd hstop (by simp)
        · simpa using ‹¬isMarker block = true›
    · rw [List.foldl_concat, ← hstate]

/-- What was taken is the preamble of what was received. -/
theorem PreambleEnds.eq_preamble {vh : Videohub} {wire : Wire} (hkept : Kept wire vh.buf)
    (h : PreambleEnds vh (takenOf wire.log)) : takenOf wire.log = preamble wire.received := by
  unfold Kept Framing.Read at hkept
  unfold preamble
  rw [hkept]
  rcases h with ⟨before, last, heq, hbefore, hlast⟩ | ⟨hno, hnext, -⟩
  · rw [heq, List.append_assoc, List.singleton_append,
      throughMarker_of_marker _ hbefore hlast]
  · rw [Framing.frames_of_none hnext, List.append_nil, throughMarker_of_none hno]

/-- A successful `connect` applies the preamble that the bytes received hold to the state that
is there. -/
theorem connect_state {vh : Videohub} {first second : Bool} {turns : List Turn}
    (h : (vh.connect first second turns).1 = .ok ()) :
    let after := (vh.connect first second turns).2
    after.state = (preamble after.received).foldl applyBlock vh.state ∧
      ((∃ b ∈ preamble after.received, isMarker b = true) ∨ hasEssentials after.state = true) := by
  unfold connect at h ⊢
  split at h
  case isFalse => exact absurd h (by simp)
  rename_i hdial
  rw [if_pos hdial]
  obtain ⟨⟨result, vh'⟩, hread⟩ : ∃ r, readPreamble { vh with
    sock := some { turns := turns }, buf := [] } = r := ⟨_, rfl⟩
  rw [hread] at h ⊢
  cases result with
  | error e => exact absurd h (by simp)
  | ok u =>
    have hsock : ({ vh with sock := some { turns := turns }, buf := [] } : Videohub).sock =
        some { turns := turns } := rfl
    have hreading := readLoop_reading preambleBlock (preambleQuiet vh.host) hsock
      Framing.Read.start
    unfold readPreamble at hread
    rw [hread] at hreading
    obtain ⟨wire', hsock, hkept, hstate, hends⟩ :=
      reading_preamble hreading rfl rfl rfl (by simp) rfl
    have htaken := hends.eq_preamble hkept
    have hreceived : vh'.received = wire'.received := by
      unfold received
      rw [hsock]
      rfl
    rw [htaken] at hstate hends
    simp only [hreceived]
    refine ⟨hstate, ?_⟩
    rcases hends with ⟨before, last, heq, -, hlast⟩ | ⟨-, -, hess⟩
    · exact .inl ⟨last, by simp [heq], hlast⟩
    · exact .inr hess

end Videohub

/-! ## What is left over -/

/-- Two states expose the same. -/
structure SameState (s t : HubState) : Prop where
  protocolVersion : s.protocolVersion = t.protocolVersion
  device : ∀ k, s.device.get? k = t.device.get? k
  inputLabels : ∀ i, s.inputLabels.get? i = t.inputLabels.get? i
  outputLabels : ∀ i, s.outputLabels.get? i = t.outputLabels.get? i
  routing : ∀ i, s.routing.get? i = t.routing.get? i
  locks : ∀ i, s.locks.get? i = t.locks.get? i

/-- The blocks write every entry in which two states differ. -/
structure Overwritten (bs : List Block) (s t : HubState) : Prop where
  protocolVersion : bs.any namesVersion = false → s.protocolVersion = t.protocolVersion
  device : ∀ k, (madeOf bs).device.get? k = none → s.device.get? k = t.device.get? k
  inputLabels : ∀ i, (madeOf bs).inputLabels.get? i = none →
    s.inputLabels.get? i = t.inputLabels.get? i
  outputLabels : ∀ i, (madeOf bs).outputLabels.get? i = none →
    s.outputLabels.get? i = t.outputLabels.get? i
  routing : ∀ i, (madeOf bs).routing.get? i = none → s.routing.get? i = t.routing.get? i
  locks : ∀ i, (madeOf bs).locks.get? i = none → s.locks.get? i = t.locks.get? i

theorem sameState_iff (bs : List Block) (s t : HubState) :
    SameState (bs.foldl applyBlock s) (bs.foldl applyBlock t) ↔ Overwritten bs s t := by
  constructor
  · intro h
    exact ⟨(protocolVersion_eq_iff bs s t).mp h.protocolVersion,
      fun k => (assigned_device.get?_eq_iff bs s t k).mp (h.device k),
      fun i => (assigned_inputLabels.get?_eq_iff bs s t i).mp (h.inputLabels i),
      fun i => (assigned_outputLabels.get?_eq_iff bs s t i).mp (h.outputLabels i),
      fun i => (assigned_routing.get?_eq_iff bs s t i).mp (h.routing i),
      fun i => (assigned_locks.get?_eq_iff bs s t i).mp (h.locks i)⟩
  · intro h
    exact ⟨(protocolVersion_eq_iff bs s t).mpr h.protocolVersion,
      fun k => (assigned_device.get?_eq_iff bs s t k).mpr (h.device k),
      fun i => (assigned_inputLabels.get?_eq_iff bs s t i).mpr (h.inputLabels i),
      fun i => (assigned_outputLabels.get?_eq_iff bs s t i).mpr (h.outputLabels i),
      fun i => (assigned_routing.get?_eq_iff bs s t i).mpr (h.routing i),
      fun i => (assigned_locks.get?_eq_iff bs s t i).mpr (h.locks i)⟩

/-- No left-over of a state stands in for an essential block, and the marker comes after them. -/
structure OwnEssentials (bs : List Block) (s : HubState) : Prop where
  marked : (∃ b ∈ bs, isMarker b = true) → hasEssentials (madeOf bs) = true
  device : s.device.keys ≠ [] → (madeOf bs).device.keys ≠ []
  routing : s.routing.keys ≠ [] → (madeOf bs).routing.keys ≠ []

theorem hasEssentials_iff (s : HubState) :
    hasEssentials s = true ↔ s.device.keys ≠ [] ∧ s.routing.keys ≠ [] := by
  simp [hasEssentials]

/-- A preamble that has ended has essentials of its own exactly when no left-over stands in. -/
theorem ownEssentials_iff {bs : List Block} {s : HubState}
    (h : (∃ b ∈ bs, isMarker b = true) ∨ hasEssentials (bs.foldl applyBlock s) = true) :
    hasEssentials (madeOf bs) = true ↔ OwnEssentials bs s := by
  constructor
  · intro hown
    have hboth := (hasEssentials_iff _).mp hown
    exact ⟨fun _ => hown, fun _ => hboth.1, fun _ => hboth.2⟩
  · intro hown
    rcases h with hmarked | hess
    · exact hown.marked hmarked
    · rw [hasEssentials_iff] at hess ⊢
      rw [ne_eq, ne_eq, assigned_device.keys_eq_nil_iff, assigned_routing.keys_eq_nil_iff] at hess
      constructor
      · intro hnone
        exact hess.1 ⟨hnone, by_contra fun hleft => hown.device hleft hnone⟩
      · intro hnone
        exact hess.2 ⟨hnone, by_contra fun hleft => hown.routing hleft hnone⟩

namespace Videohub

/-- Two histories that end in a successful `connect` which receives the same bytes: the states
are the same, and the essential blocks came on this connection, exactly when the preamble writes
every entry in which the states before differ and no left-over stands in for an essential. -/
theorem connect_fresh_iff {host₁ host₂ : String} (history₁ history₂ : List Call)
    {first₁ second₁ first₂ second₂ : Bool} {turns₁ turns₂ : List Turn} {bytes : List UInt8}
    (hok₁ : ((after host₁ history₁).connect first₁ second₁ turns₁).1 = .ok ())
    (hok₂ : ((after host₂ history₂).connect first₂ second₂ turns₂).1 = .ok ())
    (hbytes₁ : ((after host₁ history₁).connect first₁ second₁ turns₁).2.received = bytes)
    (hbytes₂ : ((after host₂ history₂).connect first₂ second₂ turns₂).2.received = bytes) :
    (SameState ((after host₁ history₁).connect first₁ second₁ turns₁).2.state
        ((after host₂ history₂).connect first₂ second₂ turns₂).2.state ∧
      hasEssentials (madeOf (preamble bytes)) = true) ↔
    (Overwritten (preamble bytes) (after host₁ history₁).state (after host₂ history₂).state ∧
      OwnEssentials (preamble bytes) (after host₁ history₁).state ∧
      OwnEssentials (preamble bytes) (after host₂ history₂).state) := by
  obtain ⟨hstate₁, hends₁⟩ := connect_state hok₁
  obtain ⟨hstate₂, hends₂⟩ := connect_state hok₂
  rw [hbytes₁] at hstate₁ hends₁
  rw [hbytes₂] at hstate₂ hends₂
  rw [hstate₁] at hends₁ ⊢
  rw [hstate₂] at hends₂ ⊢
  have hown₁ := ownEssentials_iff hends₁
  have hown₂ := ownEssentials_iff hends₂
  rw [sameState_iff]
  constructor
  · rintro ⟨hsame, hess⟩
    exact ⟨hsame, hown₁.mp hess, hown₂.mp hess⟩
  · rintro ⟨hover, hess, -⟩
    exact ⟨hover, hown₁.mpr hess⟩

/-- The preambles of a hub with two outputs and of one with one. -/
def twoOutputs : List Turn :=
  [piece "VIDEOHUB DEVICE:\nVideo outputs: 2\n\nVIDEO OUTPUT ROUTING:\n0 0\n1 1\n\n", .quiet]

def oneOutput : List Turn :=
  [piece "VIDEOHUB DEVICE:\nVideo outputs: 1\n\nVIDEO OUTPUT ROUTING:\n0 0\n\n", .quiet]

/-- A new client reads the preamble of the smaller hub. -/
theorem fresh_reads :
    let fresh := (after "hub" []).connect true true oneOutput
    fresh.1 = .ok () ∧ fresh.2.received = oneOutput.flatMap Turn.bytes ∧
      fresh.2.state.routing.get? 1 = none := by
  decide +kernel

/-- So does a client that has been on the larger one. -/
theorem again_reads :
    let again := (after "hub" [.connect true true twoOutputs]).connect true true oneOutput
    again.1 = .ok () ∧ again.2.received = oneOutput.flatMap Turn.bytes ∧
      again.2.state.routing.get? 1 = some 1 := by
  decide +kernel

theorem connect_fresh_iff_left_over :
    (SameState ((after "hub" []).connect true true oneOutput).2.state
        ((after "hub" [.connect true true twoOutputs]).connect true true oneOutput).2.state ∧
      hasEssentials (madeOf (preamble (oneOutput.flatMap Turn.bytes))) = true) ↔
    (Overwritten (preamble (oneOutput.flatMap Turn.bytes)) (after "hub" []).state
        (after "hub" [.connect true true twoOutputs]).state ∧
      OwnEssentials (preamble (oneOutput.flatMap Turn.bytes)) (after "hub" []).state ∧
      OwnEssentials (preamble (oneOutput.flatMap Turn.bytes))
        (after "hub" [.connect true true twoOutputs]).state) :=
  connect_fresh_iff [] [.connect true true twoOutputs] fresh_reads.1 again_reads.1
    fresh_reads.2.1 again_reads.2.1

/-- A route of the larger hub stays. -/
theorem left_over_route :
    let fresh := (after "hub" []).connect true true oneOutput
    let again := (after "hub" [.connect true true twoOutputs]).connect true true oneOutput
    fresh.1 = .ok () ∧ again.1 = .ok () ∧ fresh.2.received = again.2.received ∧
      ¬ SameState fresh.2.state again.2.state := by
  obtain ⟨hfresh, hbytes, hnone⟩ := fresh_reads
  obtain ⟨hagain, hbytes', hsome⟩ := again_reads
  refine ⟨hfresh, hagain, hbytes.trans hbytes'.symm, fun hsame => ?_⟩
  have hroute := (hnone.symm.trans (hsame.routing 1)).trans hsome
  exact absurd hroute (by simp)

/-- Where the left-overs have the essentials, a hub that says nothing connects. -/
theorem connect_silent {vh : Videohub} (hleft : hasEssentials vh.state = true) (second : Bool) :
    (vh.connect true second [.quiet]).1 = .ok () ∧
      (vh.connect true second [.quiet]).2.received = [] := by
  have hnext : blocks.next [] = none := rfl
  simp [connect, readPreamble, readLoop, readUntil, recvBlock, recvTurns, hnext,
    preambleQuiet, hleft, received]

end Videohub

end Bmdwire
