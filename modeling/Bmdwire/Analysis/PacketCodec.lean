import Bmdwire.Program.Fields
import Bmdwire.Program.Lane
import Mathlib.Data.List.GetD

/-!
# The bytes of a packet

The header word of a packet has its length in 11 bits and the flags above them, and `to_bytes`
adds the two. A packet of 2048 octets or more spills into the flags: `send_commands` refuses to
make one, while the size of a chunk is the switcher's.
-/

set_option autoImplicit false

namespace Bmdwire

namespace Packet

/-- The numbers of the header fit their fields. -/
structure HeaderFits (p : Packet) : Prop where
  flags : p.flags < 32
  session : ∃ session < 0x10000, p.session = some session
  acknowledgementNumber : p.acknowledgementNumber < 0x10000
  remoteSequenceNumber : p.remoteSequenceNumber < 0x10000
  sequenceNumber : p.sequenceNumber < 0x10000

/-- The bytes of the packet are read as its flags, numbers and data. -/
def RoundTrips (p : Packet) : Prop :=
  ∃ raw q, p.toBytes = some raw ∧ fromBytes raw = some q ∧ q.flags = p.flags ∧
    q.session = p.session ∧ q.acknowledgementNumber = p.acknowledgementNumber ∧
    q.remoteSequenceNumber = p.remoteSequenceNumber ∧ q.sequenceNumber = p.sequenceNumber ∧
    q.data = some (p.data.getD [])

theorem toNat_packU16 {n : ℕ} (hn : n < 0x10000) :
    (UInt8.ofNat (n / 256)).toNat * 256 + (UInt8.ofNat n).toNat = n := by
  rw [UInt8.toNat_ofNat', UInt8.toNat_ofNat']
  omega

theorem toBytes_length {p : Packet} {raw : Bytes} (h : p.toBytes = some raw) :
    raw.length = 12 + (p.data.getD []).length := by
  unfold toBytes at h
  cases hsession : p.session with
  | none =>
    rw [hsession] at h
    cases h
  | some session =>
    rw [hsession] at h
    simp only at h
    split at h
    next =>
      obtain rfl := Option.some.inj h
      simp only [packU16, List.length_append, List.length_cons, List.length_nil]
    next => cases h

/-- What `from_bytes` accepts is as long as its header says in 11 bits. -/
theorem fromBytes_length {raw : Bytes} {q : Packet} (h : fromBytes raw = some q) :
    raw.length < 2048 := by
  unfold fromBytes at h
  split at h
  next => cases h
  next =>
    simp only [ite_not] at h
    split at h
    next hlength =>
      rw [← hlength]
      exact Nat.mod_lt _ (by decide)
    next => cases h

/-- The header as it is read from the numbers it was made of. -/
theorem fromBytes_packed {head session ack remote sequence : ℕ} (data : Bytes)
    (hhead : head < 0x10000) (hsession : session < 0x10000) (hack : ack < 0x10000)
    (hremote : remote < 0x10000) (hsequence : sequence < 0x10000)
    (hlength : head % 2048 = 12 + data.length) :
    fromBytes (packU16 head ++ packU16 session ++ packU16 ack ++ [0, 0] ++ packU16 remote ++
        packU16 sequence ++ data) =
      some {
        flags := head / 2048
        length := 12 + data.length
        session := some session
        acknowledgementNumber := ack
        retransmissionRequest := 0
        remoteSequenceNumber := remote
        sequenceNumber := sequence
        data := some data } := by
  have hraw : (packU16 head ++ packU16 session ++ packU16 ack ++ [0, 0] ++ packU16 remote ++
      packU16 sequence ++ data).length = 12 + data.length := by
    simp only [packU16, List.length_append, List.length_cons, List.length_nil]
  unfold fromBytes
  rw [hraw, if_neg (by omega)]
  simp only [packU16, unpackU16, List.cons_append, List.nil_append, List.getD_cons_zero,
    List.getD_cons_succ, List.drop_succ_cons, List.drop_zero, toNat_packU16 hhead,
    toNat_packU16 hsession, toNat_packU16 hack, toNat_packU16 hremote,
    toNat_packU16 hsequence]
  rw [if_neg (not_not_intro hlength), hlength]
  rfl

theorem HeaderFits.roundTrips {p : Packet} (h : p.HeaderFits)
    (hlength : (p.data.getD []).length ≤ 2035) : p.RoundTrips := by
  obtain ⟨session, hsession, hp⟩ := h.session
  have hflags := h.flags
  have hhead : 12 + (p.data.getD []).length + p.flags * 2048 < 0x10000 := by omega
  have hmod : (12 + (p.data.getD []).length + p.flags * 2048) % 2048 =
      12 + (p.data.getD []).length := by omega
  have hdiv : (12 + (p.data.getD []).length + p.flags * 2048) / 2048 = p.flags := by omega
  have hbytes : p.toBytes = some (packU16 (12 + (p.data.getD []).length + p.flags * 2048) ++
      packU16 session ++ packU16 p.acknowledgementNumber ++ [0, 0] ++
      packU16 p.remoteSequenceNumber ++ packU16 p.sequenceNumber ++ p.data.getD []) := by
    unfold toBytes
    rw [hp]
    exact if_pos ⟨hhead, hsession, h.acknowledgementNumber, h.remoteSequenceNumber,
      h.sequenceNumber⟩
  have hread := fromBytes_packed (p.data.getD []) hhead hsession h.acknowledgementNumber
    h.remoteSequenceNumber h.sequenceNumber hmod
  exact ⟨_, _, hbytes, hread, hdiv, hp.symm, rfl, rfl, rfl, rfl⟩

theorem roundTrips_iff {p : Packet} (h : p.HeaderFits) :
    p.RoundTrips ↔ (p.data.getD []).length ≤ 2035 := by
  constructor
  · rintro ⟨raw, q, hraw, hq, -⟩
    have hlength := toBytes_length hraw
    have hmax := fromBytes_length hq
    omega
  · exact h.roundTrips

/-! ## What the client sends -/

theorem sendCommands_length {commands : List Outgoing} {payload : Bytes}
    (h : sendCommands commands = .sent payload) : payload.length ≤ 1300 := by
  unfold sendCommands at h
  split at h
  next => cases h
  next parts _ =>
    split at h
    next => cases h
    next hlength =>
      obtain rfl := CommandsSent.sent.inj h
      omega

theorem transferDataCommand_length {transfer : ℕ} {chunk payload : Bytes}
    (h : (transferDataCommand transfer chunk).getCommand = some payload) :
    payload.length = 12 + chunk.length := by
  obtain ⟨body, hbody, hframe⟩ := Option.bind_eq_some_iff.mp h
  change (if _ then _ else _) = some body at hbody
  split at hbody
  next =>
    obtain rfl := Option.some.inj hbody
    unfold frameCommand at hframe
    split at hframe
    next =>
      obtain rfl := Option.some.inj hframe
      have hcode := (transferDataCommand transfer chunk).code.length_octets
      simp only [packU16, List.length_append, List.length_cons, List.length_nil] at hcode ⊢
      omega
    next => cases hframe
  next => cases hbody

theorem cutChunk_length (size : ℕ) (data : Bytes) (start : ℕ) :
    (Lane.cutChunk size data start).1.length ≤ size := by
  unfold Lane.cutChunk
  simp only
  split
  · rw [List.length_take]
    omega
  · split <;> (rw [List.length_take]; omega)

/-- A packet comes back from its bytes if and only if its data has at most 2035 octets. That is
so of all that `send_commands` sends, and of a chunk of at most 2023 octets, such as one of a
size below 2024. -/
theorem roundTrips_sent {p : Packet} (h : p.HeaderFits) :
    (p.RoundTrips ↔ (p.data.getD []).length ≤ 2035) ∧
    (∀ commands payload, sendCommands commands = .sent payload → p.data = some payload →
      p.RoundTrips) ∧
    ∀ transfer size data start payload,
      (transferDataCommand transfer (Lane.cutChunk (size / 8 * 8) data start).1).getCommand =
          some payload →
        p.data = some payload →
        (p.RoundTrips ↔ (Lane.cutChunk (size / 8 * 8) data start).1.length ≤ 2023) ∧
        (size < 2024 → p.RoundTrips) := by
  refine ⟨roundTrips_iff h, ?_, ?_⟩
  · intro commands payload hsent hdata
    have hlength := sendCommands_length hsent
    rw [roundTrips_iff h, hdata, Option.getD_some]
    omega
  · intro transfer size data start payload hcommand hdata
    have hpayload := transferDataCommand_length hcommand
    have hchunk := cutChunk_length (size / 8 * 8) data start
    rw [roundTrips_iff h, hdata, Option.getD_some]
    omega

/-- The packet of `_queue_chunks`, once the transport has numbered it. -/
def chunkPacket (session sequence : ℕ) (payload : Bytes) : Packet where
  flags := flagReliable
  session := some session
  sequenceNumber := sequence
  data := some payload

theorem chunkPacket_headerFits {session sequence : ℕ} (payload : Bytes)
    (hsession : session < 0x10000) (hsequence : sequence < 0x10000) :
    (chunkPacket session sequence payload).HeaderFits :=
  ⟨(by decide : 1 < 32), ⟨session, hsession, rfl⟩, (by decide : 0 < 0x10000),
    (by decide : 0 < 0x10000), hsequence⟩

/-- The packet with a chunk of eight octets. -/
theorem roundTrips_sent_chunk :
    (chunkPacket 0x8001 7
      [0, 20, 0, 0, 0x46, 0x54, 0x44, 0x61, 0, 1, 0, 8, 1, 2, 3, 4, 5, 6, 7, 8]).RoundTrips ∧
    (Lane.cutChunk (12 / 8 * 8) [1, 2, 3, 4, 5, 6, 7, 8, 9] 0).1.length ≤ 2023 := by
  have hfits := chunkPacket_headerFits
    [0, 20, 0, 0, 0x46, 0x54, 0x44, 0x61, 0, 1, 0, 8, 1, 2, 3, 4, 5, 6, 7, 8]
    (by decide : 0x8001 < 0x10000) (by decide : 7 < 0x10000)
  have h := (roundTrips_sent hfits).2.2 1 12 [1, 2, 3, 4, 5, 6, 7, 8, 9] 0 _ (by decide) rfl
  exact ⟨h.2 (by decide), h.1.mp (h.2 (by decide))⟩

/-- A chunk of the size 2024 makes a packet of 2048 octets. -/
theorem roundTrips_large_chunk :
    ∃ payload,
      (transferDataCommand 1
        (Lane.cutChunk (2024 / 8 * 8) (List.replicate 2024 0) 0).1).getCommand = some payload ∧
      ¬ (chunkPacket 0x8001 1 payload).RoundTrips := by
  have hchunk : (Lane.cutChunk (2024 / 8 * 8) (List.replicate 2024 0) 0).1.length = 2024 := by
    decide +kernel
  have hsome : (transferDataCommand 1
      (Lane.cutChunk (2024 / 8 * 8) (List.replicate 2024 0) 0).1).getCommand.isSome = true := by
    decide +kernel
  obtain ⟨payload, hpayload⟩ := Option.isSome_iff_exists.mp hsome
  have hlength := transferDataCommand_length hpayload
  have hfits := chunkPacket_headerFits payload (by decide : 0x8001 < 0x10000)
    (by decide : 1 < 0x10000)
  refine ⟨payload, hpayload, fun hround => ?_⟩
  have hmax : payload.length ≤ 2035 := (roundTrips_iff hfits).mp hround
  omega

end Packet

end Bmdwire
