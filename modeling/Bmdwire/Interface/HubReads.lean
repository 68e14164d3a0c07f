import Bmdwire.Program.Videohub

/-!
# What the Videohub client reads

One lemma says what `_recv_block` does on a connection (`recvBlock_cases`), one what a loop
around it does (`Reading`, which `readLoop` always is). What was taken and the buffer go
together to the bytes received (`Kept`).
-/

set_option autoImplicit false

namespace Bmdwire

/-- The blocks taken off a connection, oldest first. -/
def takenOf (log : List WireEvent) : List Block :=
  (log.filterMap fun
    | .sent _ => none
    | .took block => some block).reverse

@[simp] theorem takenOf_nil : takenOf [] = [] := rfl

@[simp] theorem takenOf_sent (text : Line) (log : List WireEvent) :
    takenOf (.sent text :: log) = takenOf log := rfl

@[simp] theorem takenOf_took (block : Block) (log : List WireEvent) :
    takenOf (.took block :: log) = takenOf log ++ [block] := by
  simp [takenOf]

/-- A wait on a socket: some bytes come; then there is a complete block, or none. -/
theorem recvTurns_spec {turns turns' : List Turn} {received received' buf buf' : List UInt8}
    {arrival : Arrival}
    (h : recvTurns turns received buf = (arrival, turns', received', buf')) :
    ∃ piece, received' = received ++ piece ∧
      stillToCome turns = piece.length + stillToCome turns' ∧
      ((∃ lines, arrival = .block lines ∧ blocks.next (buf ++ piece) = some (lines, buf')) ∨
        (arrival = .none ∨ arrival = .closed) ∧ buf' = buf ++ piece ∧
          blocks.next buf' = none) := by
  induction turns generalizing received buf with
  | nil =>
    unfold recvTurns at h
    refine ⟨[], ?_⟩
    rw [List.append_nil, List.append_nil]
    cases hnext : blocks.next buf with
    | none =>
      simp only [hnext, Prod.mk.injEq] at h
      obtain ⟨rfl, rfl, rfl, rfl⟩ := h
      exact ⟨rfl, by simp, .inr ⟨.inr rfl, rfl, hnext⟩⟩
    | some next =>
      simp only [hnext, Prod.mk.injEq] at h
      obtain ⟨rfl, rfl, rfl, rfl⟩ := h
      exact ⟨rfl, by simp, .inl ⟨next.1, rfl, rfl⟩⟩
  | cons turn turns ih =>
    unfold recvTurns at h
    cases hnext : blocks.next buf with
    | some next =>
      simp only [hnext, Prod.mk.injEq] at h
      obtain ⟨rfl, rfl, rfl, rfl⟩ := h
      refine ⟨[], (List.append_nil _).symm, by simp, .inl ⟨next.1, rfl, ?_⟩⟩
      rw [List.append_nil, hnext]
    | none =>
      simp only [hnext] at h
      cases turn with
      | chunk first others =>
        obtain ⟨piece, hreceived, hsum, hcase⟩ := ih h
        refine ⟨first :: others ++ piece, by rw [hreceived, List.append_assoc], ?_, ?_⟩
        · rw [stillToCome_cons, hsum, List.length_append]
          exact (Nat.add_assoc ..).symm
        · rw [← List.append_assoc]
          exact hcase
      | quiet =>
        simp only [Prod.mk.injEq] at h
        obtain ⟨rfl, rfl, rfl, rfl⟩ := h
        exact ⟨[], by simp, by simp [Turn.bytes], .inr ⟨.inl rfl, by simp, hnext⟩⟩
      | late =>
        simp only [Prod.mk.injEq] at h
        obtain ⟨rfl, rfl, rfl, rfl⟩ := h
        exact ⟨[], by simp, by simp [Turn.bytes], .inr ⟨.inl rfl, by simp, hnext⟩⟩

namespace Videohub

/-- The record of the connection. -/
def log (vh : Videohub) : List WireEvent := vh.sock.elim [] Wire.log

theorem log_of_sock {vh : Videohub} {wire : Wire} (hsock : vh.sock = some wire) :
    vh.log = wire.log := by
  unfold log
  rw [hsock]
  rfl

/-- What was taken off a connection and the buffer are all that was received on it. -/
def Kept (wire : Wire) (buf : List UInt8) : Prop :=
  blocks.Read wire.received (takenOf wire.log) buf

/-- What `_recv_block` does on a connection: it takes a block, or finds none. -/
theorem recvBlock_cases {vh : Videohub} {wire : Wire} (hsock : vh.sock = some wire)
    (hkept : Kept wire vh.buf) :
    ∃ wire' buf', Kept wire' buf' ∧ vh.recvBlock.2 = { vh with sock := some wire', buf := buf' } ∧
      ((∃ block, vh.recvBlock.1 = .ok (some block) ∧ wire'.log = .took block :: wire.log ∧
          vh.recvBlock.2.pending < vh.pending) ∨
        (vh.recvBlock.1 = .ok none ∨
            vh.recvBlock.1 = .error (.videohubError "connection closed by hub")) ∧
          wire'.log = wire.log ∧ blocks.next buf' = none) := by
  unfold recvBlock
  rw [hsock]
  obtain ⟨⟨arrival, turns, received, buf⟩, hrecv⟩ :
    ∃ r, recvTurns wire.turns wire.received vh.buf = r := ⟨_, rfl⟩
  obtain ⟨piece, hreceived, hsum, hcase⟩ := recvTurns_spec hrecv
  have hread := hkept.receive piece
  subst hreceived
  rcases hcase with ⟨lines, rfl, hnext⟩ | ⟨harrival, rfl, hnext⟩
  · refine ⟨⟨turns, wire.received ++ piece, .took lines :: wire.log⟩, buf, ?_, ?_, .inl ⟨lines, ?_⟩⟩
    · unfold Kept
      rw [takenOf_took]
      exact hread.take hnext
    · simp [hrecv]
    · have hshort := blocks.shorter hnext
      simp only [hrecv, pending, hsock, Option.elim_some, List.length_append, true_and] at hshort ⊢
      omega
  · refine ⟨⟨turns, wire.received ++ piece, wire.log⟩, vh.buf ++ piece, hread, ?_, .inr ?_⟩
    · rcases harrival with rfl | rfl <;> simp [hrecv]
    · rcases harrival with rfl | rfl <;> simp [hrecv, hnext]

section Loop

variable (handle : Handler) (expired : HubState → Except HubError Unit)

/-- A loop around `_recv_block` on a connection: what it ends in, and the client after it. -/
inductive Reading : Videohub → Except HubError Unit → Videohub → Prop
  | closed {vh : Videohub} {wire wire' : Wire} {buf' : List UInt8} : vh.sock = some wire →
      Kept wire' buf' → wire'.log = wire.log →
      Reading vh (.error (.videohubError "connection closed by hub"))
        { vh with sock := some wire', buf := buf' }
  | expired {vh : Videohub} {wire wire' : Wire} {buf' : List UInt8} : vh.sock = some wire →
      Kept wire' buf' → wire'.log = wire.log → blocks.next buf' = none →
      Reading vh (expired vh.state) { vh with sock := some wire', buf := buf' }
  | ended {vh : Videohub} {wire wire' : Wire} {buf' : List UInt8} {block : Block} {state : HubState}
      {result : Except HubError Unit} : vh.sock = some wire →
      Kept wire' buf' → wire'.log = .took block :: wire.log →
      handle vh.state block = (state, some result) →
      Reading vh result { vh with sock := some wire', buf := buf', state := state }
  | again {vh vh' : Videohub} {wire wire' : Wire} {buf' : List UInt8} {block : Block}
      {state : HubState} {result : Except HubError Unit} : vh.sock = some wire →
      Kept wire' buf' → wire'.log = .took block :: wire.log →
      handle vh.state block = (state, none) →
      Reading { vh with sock := some wire', buf := buf', state := state } result vh' →
      Reading vh result vh'

variable {handle expired}

theorem readUntil_reading {fuel : ℕ} {vh : Videohub} {wire : Wire} (hfuel : vh.pending < fuel)
    (hsock : vh.sock = some wire) (hkept : Kept wire vh.buf) :
    Reading handle expired vh (readUntil handle expired fuel vh).1
      (readUntil handle expired fuel vh).2 := by
  induction fuel generalizing vh wire with
  | zero => omega
  | succ fuel ih =>
    obtain ⟨wire', buf', hkept', hafter, hcase⟩ := recvBlock_cases hsock hkept
    obtain ⟨⟨result, vh'⟩, hrecv⟩ : ∃ r, vh.recvBlock = r := ⟨_, rfl⟩
    simp only [hrecv] at hafter hcase
    subst hafter
    unfold readUntil
    rw [hrecv]
    rcases hcase with ⟨block, rfl, hlog, hless⟩ | ⟨hresult, hlog, hnext⟩
    · simp only
      cases hhandle : handle vh.state block with
      | mk state stop =>
        cases stop with
        | some result => exact .ended hsock hkept' hlog hhandle
        | none =>
          refine .again hsock hkept' hlog hhandle (ih ?_ rfl hkept')
          exact Nat.lt_of_lt_of_le hless (by omega)
    · rcases hresult with rfl | rfl
      · exact .expired hsock hkept' hlog hnext
      · exact .closed hsock hkept' hlog

/-- A loop always ends, and as a `Reading`. -/
theorem readLoop_reading (handle : Handler) (expired : HubState → Except HubError Unit)
    {vh : Videohub} {wire : Wire} (hsock : vh.sock = some wire)
    (hkept : Kept wire vh.buf) :
    Reading handle expired vh (readLoop handle expired vh).1 (readLoop handle expired vh).2 :=
  readUntil_reading (Nat.lt_succ_self _) hsock hkept

/-- A connection, and its record kept. -/
def Connected (vh : Videohub) : Prop := ∃ wire, vh.sock = some wire ∧ Kept wire vh.buf

/-- After a loop the client is on its connection still, and blocks were taken. -/
theorem Reading.connected {vh vh' : Videohub} {result : Except HubError Unit}
    (h : Reading handle expired vh result vh') :
    vh'.Connected ∧ ∃ bs : List Block, vh'.log = bs.map .took ++ vh.log := by
  induction h with
  | closed hsock hkept hlog =>
    refine ⟨⟨_, rfl, hkept⟩, [], ?_⟩
    rw [log_of_sock hsock]
    exact hlog
  | expired hsock hkept hlog hnext =>
    refine ⟨⟨_, rfl, hkept⟩, [], ?_⟩
    rw [log_of_sock hsock]
    exact hlog
  | @ended vh wire wire' buf' block state result hsock hkept hlog hhandle =>
    refine ⟨⟨_, rfl, hkept⟩, [block], ?_⟩
    rw [log_of_sock hsock]
    exact hlog
  | @again vh vh' wire wire' buf' block state result hsock hkept hlog hhandle _ ih =>
    obtain ⟨hconn, bs, hbs⟩ := ih
    refine ⟨hconn, bs ++ [block], ?_⟩
    have hmid : log { vh with sock := some wire', buf := buf', state := state } = wire'.log := rfl
    rw [hbs, hmid, hlog, log_of_sock hsock, List.map_append, List.append_assoc]
    rfl

end Loop

/-- A successful `connect` leaves a connection. -/
theorem connect_connected {vh : Videohub} {first second : Bool} {turns : List Turn}
    (h : (vh.connect first second turns).1 = .ok ()) :
    (vh.connect first second turns).2.Connected := by
  unfold connect at h ⊢
  split at h
  case isFalse => exact absurd h (by simp)
  rename_i hdial
  rw [if_pos hdial]
  obtain ⟨⟨result, vh'⟩, hread⟩ : ∃ r, readPreamble { vh with
    sock := some { turns := turns }, buf := [] } = r := ⟨_, rfl⟩
  rw [hread] at h ⊢
  cases result with
  | error e => exact absurd h (by simp)
  | ok u =>
    have hsock : ({ vh with sock := some { turns := turns }, buf := [] } : Videohub).sock =
        some { turns := turns } := rfl
    have hreading := readLoop_reading preambleBlock (preambleQuiet vh.host) hsock
      Library.Framing.Read.start
    unfold readPreamble at hread
    rw [hread] at hreading
    exact hreading.connected.1

end Videohub

end Bmdwire
