import Bmdwire.Analysis.InOrder
import Bmdwire.Library.Recency

/-!
# What an ACK says was received

The packets of a session are counted here from the first reliable one, so that their numbers of
15 bits become places. The received window holds the numbers of the last 1024 packets; while none
of them is that of a packet that is still to come (`Entries`), the walk of the ACK stops before
the cursor, and what is dropped as seen was received. A number that is appended far enough ahead
of the cursor has left the window when the cursor comes there.
-/

set_option autoImplicit false

namespace Bmdwire

open Library (Dict Reach recent mem_recent_iff)

namespace Udp

/-! ## Places -/

/-- The number at a place, counted from that of the first packet. -/
def numberAt (first place : ℕ) : ℕ := (first + place) % 0x8000

section Places

variable {first count place d n : ℕ} {parked : Dict ℕ Packet}

theorem numberAt_lt (first place : ℕ) : numberAt first place < 0x8000 :=
  Nat.mod_lt _ (by decide)

theorem numberAt_succ (first place : ℕ) :
    (numberAt first place + 1) % 0x8000 = numberAt first (place + 1) := by
  unfold numberAt
  omega

theorem seqDist_numberAt (h : d < 0x8000) :
    seqDist (numberAt first (place + d)) (numberAt first place) = d := by
  unfold seqDist numberAt
  omega

/-- A number is at the place that its distance says. -/
theorem eq_numberAt (hn : n < 0x8000) (h : seqDist n (numberAt first place) = d) :
    n = numberAt first (place + d) := by
  unfold seqDist at h
  unfold numberAt at h ⊢
  omega

theorem numberAt_inj (h : numberAt first place = numberAt first (place + d))
    (hd : d < 0x8000) : d = 0 := by
  have hdist := @seqDist_numberAt first place d hd
  rw [← h] at hdist
  unfold seqDist at hdist
  omega

/-- Received: handed on, or parked. -/
def Received (first count : ℕ) (parked : Dict ℕ Packet) (place : ℕ) : Prop :=
  place < count ∨
    place ≤ count + deliveryParkWindow ∧ numberAt first place ∈ parked.keys

/-- What is parked lies ahead of a gap at the cursor. -/
structure Gap (first count : ℕ) (parked : Dict ℕ Packet) : Prop where
  own : Own parked
  ahead : ∀ n ∈ parked.keys, 0 < seqDist n (numberAt first count) ∧
    seqDist n (numberAt first count) ≤ deliveryParkWindow

theorem Gap.not_received (h : Gap first count parked) : ¬ Received first count parked count := by
  rintro (hlt | ⟨-, hmem⟩)
  · exact absurd hlt (Nat.lt_irrefl _)
  · have hpos := (h.ahead _ hmem).1
    have hzero := @seqDist_numberAt first count 0 (by decide)
    rw [Nat.add_zero] at hzero
    omega

/-- Handing on the parked packet at the cursor receives no other. -/
theorem received_erase (hmem : numberAt first count ∈ parked.keys)
    (hwithin : ∀ n ∈ parked.keys, seqDist n (numberAt first count) ≤ deliveryParkWindow) :
    Received first (count + 1) (parked.erase (numberAt first count)) place ↔
      Received first count parked place := by
  have hkeys : ∀ n, n ∈ (parked.erase (numberAt first count)).keys ↔
      n ≠ numberAt first count ∧ n ∈ parked.keys := fun n => by
    rw [Dict.keys_erase, parked.nodup.mem_erase_iff]
  unfold Received
  rw [hkeys]
  constructor
  · rintro (hlt | ⟨hle, -, hplace⟩)
    · by_cases hcount : place = count
      · subst hcount
        exact .inr ⟨Nat.le_add_right _ _, hmem⟩
      · exact .inl (by omega)
    · by_cases hplaced : place < count
      · exact .inl hplaced
      · obtain ⟨d, rfl⟩ := Nat.exists_eq_add_of_le (Nat.not_lt.mp hplaced)
        have hd := hwithin _ hplace
        rw [seqDist_numberAt (by unfold deliveryParkWindow at hle; omega)] at hd
        exact .inr ⟨by omega, hplace⟩
  · rintro (hlt | ⟨hle, hplace⟩)
    · exact .inl (by omega)
    · by_cases hplaced : place ≤ count
      · exact .inl (by omega)
      · obtain ⟨d, rfl⟩ := Nat.exists_eq_add_of_le (Nat.le_of_not_le hplaced)
        refine .inr ⟨by omega, fun hsame => ?_, hplace⟩
        have hzero := numberAt_inj hsame.symm (by unfold deliveryParkWindow at hle; omega)
        omega

/-- The packet at the cursor is received. -/
theorem received_fill (h : Gap first count parked) :
    Received first (count + 1) parked place ↔
      Received first count parked place ∨ place = count := by
  unfold Received
  constructor
  · rintro (hlt | ⟨hle, hmem⟩)
    · omega
    · by_cases hplaced : place < count
      · exact .inl (.inl hplaced)
      · obtain ⟨d, rfl⟩ := Nat.exists_eq_add_of_le (Nat.not_lt.mp hplaced)
        have hd := (h.ahead _ hmem).2
        rw [seqDist_numberAt (by unfold deliveryParkWindow at hle; omega)] at hd
        exact .inl (.inr ⟨by omega, hmem⟩)
  · rintro ((hlt | ⟨hle, hmem⟩) | rfl)
    · exact .inl (by omega)
    · exact .inr ⟨by omega, hmem⟩
    · exact .inl (Nat.lt_succ_self _)

theorem mem_keys_set {p : Packet} {m : ℕ} :
    m ∈ (parked.set n p).keys ↔ m = n ∨ m ∈ parked.keys := by
  rw [Dict.mem_keys, Dict.mem_keys, Dict.get?_set]
  split
  · rename_i hm
    simp [hm]
  · rename_i hm
    simp [hm]

/-- A packet ahead is received when it is parked. -/
theorem received_set {p : Packet} (hd : d ≤ deliveryParkWindow) :
    Received first count (parked.set (numberAt first (count + d)) p) place ↔
      Received first count parked place ∨ place = count + d := by
  unfold Received
  rw [mem_keys_set]
  constructor
  · rintro (hlt | ⟨hle, hsame | hmem⟩)
    · exact .inl (.inl hlt)
    · by_cases hplaced : place < count
      · exact .inl (.inl hplaced)
      · obtain ⟨e, rfl⟩ := Nat.exists_eq_add_of_le (Nat.not_lt.mp hplaced)
        have he := congrArg (fun m : ℕ => seqDist m (numberAt first count)) hsame
        unfold deliveryParkWindow at hle hd
        rw [seqDist_numberAt (by omega), seqDist_numberAt (by omega)] at he
        exact .inr (by omega)
    · exact .inl (.inr ⟨hle, hmem⟩)
  · rintro ((hlt | ⟨hle, hmem⟩) | rfl)
    · exact .inl hlt
    · exact .inr ⟨hle, .inr hmem⟩
    · exact .inr ⟨by omega, .inl rfl⟩

theorem Gap.park {p : Packet} (h : Gap first count parked) (hp : p.has flagReliable = true)
    (hnumber : p.sequenceNumber = numberAt first (count + d)) (hpos : 0 < d)
    (hd : d ≤ deliveryParkWindow) :
    Gap first count (parked.set (numberAt first (count + d)) p) := by
  refine ⟨fun m q hq => ?_, fun m hm => ?_⟩
  · rw [Dict.get?_set] at hq
    split at hq
    · rename_i hm
      cases hq
      exact ⟨hnumber.trans hm.symm, hp, hm ▸ numberAt_lt _ _⟩
    · exact h.own m q hq
  · rcases mem_keys_set.mp hm with rfl | hm
    · rw [seqDist_numberAt (by unfold deliveryParkWindow at hd; omega)]
      exact ⟨hpos, hd⟩
    · exact h.ahead m hm

end Places

/-! ## What arrives -/

section Arrivals

variable {first count d : ℕ} {p : Packet} {s t u : Udp} {new : ℕ → Prop}

/-- The packets handed on are those of the next places, and those of the places `new` are
received besides. -/
def Arrives (first count : ℕ) (new : ℕ → Prop) (s t : Udp) : Prop :=
  ∃ ps : List Packet, t.threadRecvQueue = s.threadRecvQueue ++ ps.map .packet ∧
    (∀ p ∈ ps, p.has flagReliable = true) ∧
    (∀ i p, ps[i]? = some p → p.sequenceNumber = numberAt first (count + i)) ∧
    t.deliverNext = some (numberAt first (count + ps.length)) ∧
    Gap first (count + ps.length) t.parked ∧
    ∀ place, Received first (count + ps.length) t.parked place ↔
      Received first count s.parked place ∨ new place

theorem Arrives.nil (hqueue : t.threadRecvQueue = s.threadRecvQueue)
    (hnext : t.deliverNext = some (numberAt first count)) (hgap : Gap first count t.parked)
    (hreceived : ∀ place, Received first count t.parked place ↔
      Received first count s.parked place ∨ new place) : Arrives first count new s t := by
  refine ⟨[], ?_, by simp, by simp, hnext, hgap, hreceived⟩
  simpa using hqueue

/-- The packet at the cursor is handed on, then others. -/
theorem Arrives.cons (h : Arrives first (count + 1) (fun _ => False) t u)
    (hqueue : t.threadRecvQueue = s.threadRecvQueue ++ [.packet p])
    (hp : p.has flagReliable = true) (hnumber : p.sequenceNumber = numberAt first count)
    (hreceived : ∀ place, Received first (count + 1) t.parked place ↔
      Received first count s.parked place ∨ new place) : Arrives first count new s u := by
  obtain ⟨ps, hps, hreliable, hnumbers, hnext, hgap, hall⟩ := h
  have hlength : count + (p :: ps).length = count + 1 + ps.length := by
    rw [List.length_cons]
    omega
  refine ⟨p :: ps, ?_, ?_, ?_, ?_, ?_, ?_⟩
  · rw [hps, hqueue, List.map_cons, List.append_assoc, List.singleton_append]
  · intro q hq
    rcases List.mem_cons.mp hq with rfl | hq
    · exact hp
    · exact hreliable q hq
  · intro i q hq
    cases i with
    | zero =>
      cases hq
      exact hnumber
    | succ i =>
      rw [hnumbers i q hq]
      congr 1
      omega
  · rwa [hlength]
  · rwa [hlength]
  · intro place
    rw [hlength, hall place, hreceived place, or_false]

/-- No parked packet is at the cursor. -/
theorem gap_of_none {parked : Dict ℕ Packet} (hown : Own parked)
    (hwithin : ∀ n ∈ parked.keys, seqDist n (numberAt first count) ≤ deliveryParkWindow)
    (hnone : parked.get? (numberAt first count) = none) : Gap first count parked := by
  refine ⟨hown, fun n hn => ⟨Nat.pos_of_ne_zero fun hzero => ?_, hwithin n hn⟩⟩
  have heq := eq_of_seqDist (hown.lt hn) (numberAt_lt first count) hzero
  rw [heq, parked.mem_keys, hnone] at hn
  cases hn

/-- The parked packets are handed on up to the first that is missing. -/
theorem drainParked_arrives (fuel : ℕ) (hnext : s.deliverNext = some (numberAt first count))
    (hown : Own s.parked)
    (hwithin : ∀ n ∈ s.parked.keys, seqDist n (numberAt first count) ≤ deliveryParkWindow)
    (hfuel : s.parked.keys.length ≤ fuel) :
    Arrives first count (fun _ => False) s (s.drainParked fuel (numberAt first count)) := by
  induction fuel generalizing count s with
  | zero =>
    have hkeys : s.parked.keys = [] := List.eq_nil_of_length_eq_zero (Nat.le_zero.mp hfuel)
    have hnone := s.parked.keys_eq_nil_iff.mp hkeys (numberAt first count)
    have hgap := gap_of_none hown hwithin hnone
    unfold drainParked
    exact .nil rfl hnext hgap fun _ => by rw [or_false]
  | succ fuel ih =>
    unfold drainParked
    split
    · rename_i hnone
      exact .nil rfl hnext (gap_of_none hown hwithin hnone) fun _ => by rw [or_false]
    · rename_i p hp
      have hmem := s.parked.mem_keys_of_get? hp
      have hlength : (s.parked.erase (numberAt first count)).keys.length ≤ fuel := by
        rw [Dict.keys_erase, List.length_erase_of_mem hmem]
        omega
      have hnearer : ∀ n ∈ (s.parked.erase (numberAt first count)).keys,
          seqDist n (numberAt first (count + 1)) ≤ deliveryParkWindow := by
        intro n hn
        rw [Dict.keys_erase, s.parked.nodup.mem_erase_iff] at hn
        rw [← numberAt_succ]
        refine nearer (Nat.pos_of_ne_zero fun hzero => hn.1 ?_) (hwithin n hn.2)
        exact eq_of_seqDist (hown.lt hn.2) (numberAt_lt first count) hzero
      obtain ⟨hnumber, hreliable, -⟩ := hown _ p hp
      rw [numberAt_succ]
      refine (ih rfl (own_erase hown _) hnearer hlength).cons rfl hreliable hnumber ?_
      intro place
      rw [or_false]
      exact received_erase hmem hwithin

/-- The packet at a place that is not beyond the park window, or one behind the cursor. -/
theorem gate_arrives (hgap : Gap first count s.parked)
    (hnext : s.deliverNext = some (numberAt first count)) (hp : p.has flagReliable = true)
    (hestablished : s.rxEstablished = true)
    (hnumber : p.sequenceNumber = numberAt first (count + d)) (hd : d ≤ deliveryParkWindow) :
    Arrives first count (· = count + d) s ((s.gate p).2.handOn (s.gate p).1) := by
  have hdist : seqDist p.sequenceNumber (numberAt first count) = d := by
    rw [hnumber]
    exact seqDist_numberAt (by unfold deliveryParkWindow at hd; omega)
  unfold gate
  dsimp only
  rw [if_neg (by simp [hp, hestablished]), hnext]
  dsimp only
  rw [hdist]
  have hfollow : (p.sequenceNumber + 1) % 0x8000 = numberAt first (count + d + 1) := by
    rw [hnumber, numberAt_succ]
  rw [hfollow]
  by_cases hzero : d = 0
  · subst hzero
    have hwithin : ∀ n ∈ s.parked.keys, seqDist n (numberAt first (count + 1)) ≤
        deliveryParkWindow := fun n hn => by
      rw [← numberAt_succ]
      exact nearer (hgap.ahead n hn).1 (hgap.ahead n hn).2
    rw [if_pos rfl]
    by_cases hkeys : s.parked.keys = []
    · rw [if_pos hkeys]
      have hnone := s.parked.keys_eq_nil_iff.mp hkeys (numberAt first (count + 1))
      refine Arrives.cons (.nil rfl rfl (gap_of_none hgap.own hwithin hnone)
        fun _ => by rw [or_false]) rfl hp hnumber fun place => received_fill hgap
    · rw [if_neg hkeys]
      have hdrain := @drainParked_arrives first (count + 1) { s with
        deliverNext := some (numberAt first (count + 1))
        threadRecvQueue := s.threadRecvQueue ++ [.packet p] } _ rfl hgap.own hwithin le_rfl
      exact hdrain.cons rfl hp hnumber fun place => received_fill hgap
  · unfold deliveryParkWindow at hd
    rw [if_neg hzero, if_neg (by omega), if_pos (by unfold deliveryParkWindow; omega), hnumber]
    exact .nil rfl rfl (hgap.park hp hnumber (Nat.pos_of_ne_zero hzero) hd)
      fun place => received_set hd

end Arrivals

/-! ## The log of the numbers appended -/

/-- How far ahead of the cursor a number stays harmful: with the park window on both sides, as
many numbers can be received before it leaves the received window. -/
def reach : ℕ := seenMaxlen + 2 * deliveryParkWindow

section Log

variable {first count count' d n : ℕ} {parked parked' : Dict ℕ Packet} {log newer : List ℕ}
  {new : ℕ → Prop}

/-- What is known of a number of the log, with those appended after it: it was appended when the
cursor was at some place, is that of no packet within reach from there unless that one is
received; and what was received beyond the park window came later. -/
def Entry (first count : ℕ) (parked : Dict ℕ Packet) (n : ℕ) (newer : List ℕ) : Prop :=
  0x8000 ≤ n ∨ ∃ cursor ≤ count,
    (∀ d ≤ reach, n = numberAt first (cursor + d) → Received first count parked (cursor + d)) ∧
    ∀ place, cursor + deliveryParkWindow < place → Received first count parked place →
      numberAt first place ∈ newer

def Entries (first count : ℕ) (parked : Dict ℕ Packet) (log : List ℕ) : Prop :=
  ∀ older n newer, log = older ++ n :: newer → Entry first count parked n newer

/-- While a number is in the window the cursor moves on by no more than the window and the park
window. -/
theorem count_le_of_recent {cursor : ℕ} (hnewer : newer.dedup.length < seenMaxlen)
    (hlater : ∀ place, cursor + deliveryParkWindow < place → Received first count parked place →
      numberAt first place ∈ newer) : count ≤ cursor + deliveryParkWindow + seenMaxlen := by
  by_contra hlt
  have hmany : ((List.range seenMaxlen).map fun i =>
      numberAt first (cursor + deliveryParkWindow + 1 + i)).Nodup := by
    apply List.Nodup.map_on ?_ List.nodup_range
    intro i hi j hj hsame
    rw [List.mem_range] at hi hj
    unfold seenMaxlen numberAt at *
    omega
  have hsub : ((List.range seenMaxlen).map fun i =>
      numberAt first (cursor + deliveryParkWindow + 1 + i)) ⊆ newer.dedup := by
    intro m hm
    obtain ⟨i, hi, rfl⟩ := List.mem_map.mp hm
    rw [List.mem_range] at hi
    rw [List.mem_dedup]
    exact hlater _ (by omega) (.inl (by omega))
  have hlength := (hmany.subperm hsub).length_le
  rw [List.length_map, List.length_range] at hlength
  omega

/-- What is in the window, at the cursor or within the park window of it, was received. -/
theorem received_of_mem_window (hentries : Entries first count parked log)
    (hd : d ≤ deliveryParkWindow) (hmem : numberAt first (count + d) ∈ recent seenMaxlen log) :
    Received first count parked (count + d) := by
  obtain ⟨older, newer, hsplit, -, hnewer⟩ := mem_recent_iff.mp hmem
  rcases hentries older _ newer hsplit with hlong | ⟨cursor, hcursor, hharmless, hlater⟩
  · exact absurd (numberAt_lt first (count + d)) (Nat.not_lt.mpr hlong)
  · have hle := count_le_of_recent hnewer hlater
    obtain ⟨e, rfl⟩ := Nat.exists_eq_add_of_le hcursor
    rw [Nat.add_assoc]
    rw [Nat.add_assoc] at hharmless
    exact hharmless (e + d) (by unfold reach; omega) rfl

/-- The number at the cursor is not in the window. -/
theorem cursor_not_mem_window (hentries : Entries first count parked log)
    (hgap : Gap first count parked) : numberAt first count ∉ recent seenMaxlen log := fun hmem =>
  hgap.not_received (received_of_mem_window (d := 0) hentries (Nat.zero_le _) hmem)

/-- A number is appended. -/
theorem entries_append (hentries : Entries first count parked log) (hcount : count ≤ count')
    (hreceived : ∀ place, Received first count' parked' place ↔
      Received first count parked place ∨ new place)
    (hnew : ∀ place, new place → numberAt first place = n)
    (hentry : Entry first count' parked' n []) : Entries first count' parked' (log ++ [n]) := by
  intro older m newer hsplit
  rcases List.eq_nil_or_concat' newer with rfl | ⟨newer', last, rfl⟩
  · obtain ⟨-, hm⟩ := List.append_inj' hsplit rfl
    cases hm
    exact hentry
  · rw [← List.cons_append, ← List.append_assoc] at hsplit
    obtain ⟨hlog, hlast⟩ := List.append_inj' hsplit rfl
    cases hlast
    rcases hentries older m newer' hlog with hlong | ⟨cursor, hcursor, hharmless, hlater⟩
    · exact .inl hlong
    · refine .inr ⟨cursor, hcursor.trans hcount, fun d hd hm => ?_, fun place hplace hrec => ?_⟩
      · exact (hreceived _).mpr (.inl (hharmless d hd hm))
      · rw [List.mem_append]
        rcases (hreceived place).mp hrec with hold | hnow
        · exact .inl (hlater place hplace hold)
        · exact .inr (by rw [hnew place hnow]; exact List.mem_singleton_self _)

/-- Nothing is received beyond the park window. -/
theorem not_received_beyond {place : ℕ} (h : count + deliveryParkWindow < place) :
    ¬ Received first count parked place := by
  rintro (hlt | ⟨hle, -⟩)
  · omega
  · omega

/-- The number of a packet at the cursor, or within the park window. -/
theorem entry_received (hcount : count ≤ count') (hd : d ≤ deliveryParkWindow)
    (hreceived : ∀ place, Received first count' parked' place ↔
      Received first count parked place ∨ place = count + d) :
    Entry first count' parked' (numberAt first (count + d)) [] := by
  refine .inr ⟨count, hcount, fun e he hsame => ?_, fun place hplace hrec => ?_⟩
  · have hdist := congrArg (fun m : ℕ => seqDist m (numberAt first count)) hsame
    unfold reach seenMaxlen deliveryParkWindow at he
    unfold deliveryParkWindow at hd
    rw [seqDist_numberAt (by omega), seqDist_numberAt (by omega)] at hdist
    exact (hreceived _).mpr (.inr (by omega))
  · rcases (hreceived place).mp hrec with hold | rfl
    · exact absurd hold (not_received_beyond hplace)
    · omega

/-- A number out of reach. -/
theorem entry_far (h : 0x8000 ≤ n ∨ reach < seqDist n (numberAt first count))
    (newer : List ℕ) : Entry first count parked n newer := by
  refine h.imp_right fun hfar => ⟨count, le_rfl, fun d hd hsame => ?_, fun place hplace hrec => ?_⟩
  · subst hsame
    rw [seqDist_numberAt (by unfold reach seenMaxlen deliveryParkWindow at hd; omega)] at hfar
    omega
  · exact absurd hrec (not_received_beyond hplace)

end Log

/-! ## The window under a packet -/

section Window

variable {first count : ℕ} {window log : List ℕ} {p : Packet} {s t : Udp}

/-- An append to the window is one to the log. -/
theorem seenAppend_recent (n : ℕ) (log : List ℕ) :
    seenAppend seenMaxlen n (recent seenMaxlen log) = recent seenMaxlen (log ++ [n]) := by
  rw [Library.recent_concat, seenAppend,
    Library.erase_eq_filter_ne (Library.recent_nodup seenMaxlen log)]

/-- The walk of the ACK ends before a number that is not in the window. -/
theorem ackWalk_before (fuel : ℕ) {a : ℕ} (ha : a < count)
    (hcursor : numberAt first count ∉ window) :
    ∃ moved ≤ fuel, a + moved < count ∧
      ackWalk window fuel (numberAt first a) = numberAt first (a + moved) := by
  induction fuel generalizing a with
  | zero => exact ⟨0, le_rfl, ha, rfl⟩
  | succ fuel ih =>
    unfold ackWalk
    rw [numberAt_succ]
    split
    · rename_i hmem
      have hne : a + 1 ≠ count := by
        rintro rfl
        exact hcursor hmem
      obtain ⟨moved, hmoved, hlt, heq⟩ := ih (a := a + 1) (by omega)
      rw [Nat.add_assoc, Nat.add_comm 1] at hlt heq
      exact ⟨moved + 1, by omega, hlt, heq⟩
    · exact ⟨0, by omega, ha, rfl⟩

theorem drainParked_sameWindow (fuel next : ℕ) (s : Udp) :
    SameWindow s (s.drainParked fuel next) := by
  induction fuel generalizing next s with
  | zero => exact ⟨rfl, rfl, rfl⟩
  | succ fuel ih =>
    unfold drainParked
    split
    · exact ⟨rfl, rfl, rfl⟩
    · exact ih _ _

/-- The gate leaves the window and the ACK alone. -/
theorem gate_sameWindow (p : Packet) (s : Udp) :
    SameWindow s ((s.gate p).2.handOn (s.gate p).1) := by
  unfold gate
  dsimp only
  split
  · exact ⟨rfl, rfl, rfl⟩
  · split
    · exact ⟨rfl, rfl, rfl⟩
    · split
      · split
        · exact ⟨rfl, rfl, rfl⟩
        · exact drainParked_sameWindow _ _ _
      · split
        · exact ⟨rfl, rfl, rfl⟩
        · split
          · exact ⟨rfl, rfl, rfl⟩
          · exact ⟨rfl, rfl, rfl⟩

theorem oweAck_sameWindow (p : Packet) (s : Udp) : SameWindow s (s.oweAck p) := by
  unfold oweAck
  split
  · exact ⟨rfl, rfl, rfl⟩
  · exact ⟨rfl, rfl, rfl⟩

/-- The ACK walks over the window once the first reliable packet is there. -/
theorem updateAckNumber_window (p : Packet) (s : Udp) :
    (s.updateAckNumber p).receivedPackets = s.receivedPackets ∧
      (s.updateAckNumber p).ackNumber =
        (if s.rxEstablished then ackWalk s.receivedPackets s.receivedPackets.length s.ackNumber
        else s.remoteSequenceNumber) ∧
      (s.updateAckNumber p).rxEstablished = (s.rxEstablished || p.has flagReliable) := by
  unfold updateAckNumber
  cases s.rxEstablished with
  | true => exact ⟨rfl, rfl, rfl⟩
  | false => exact ⟨rfl, rfl, rfl⟩

end Window

/-! ## Before and after the first reliable packet -/

/-- A session that has handed on its first reliable packet: the cursor is at the place of the next
one, and the ACK at one before. -/
structure Going (first acked : ℕ) (log : List ℕ) (handed : List Packet) (s : Udp) : Prop where
  next : s.deliverNext = some (numberAt first handed.length)
  established : s.rxEstablished = true
  numbers : ∀ i p, handed[i]? = some p → p.sequenceNumber = numberAt first i
  gap : Gap first handed.length s.parked
  window : s.receivedPackets = recent seenMaxlen log
  entries : Entries first handed.length s.parked log
  behind : acked < handed.length
  ack : s.ackNumber = numberAt first acked

/-- A session that waits for it. -/
structure Waiting (handed : List Packet) (s : Udp) : Prop where
  handed : handed = []
  next : s.deliverNext = none
  established : s.rxEstablished = false
  parked : s.parked = .empty
  window : ∃ log, s.receivedPackets = recent seenMaxlen log

def AckSafe (acked : ℕ) (handed : List Packet) (s : Udp) : Prop :=
  Waiting handed s ∨ ∃ first log, Going first acked log handed s

/-- A packet let in meets what is expected. Before the first reliable packet: it may be one whose
number has 15 bits and is not near one in the window. Afterwards: a reliable one has 15 bits, and
is within the park window or among those handed on; another one is not near the cursor. -/
def Expected (handed : List Packet) (s : Udp) (p : Packet) : Prop :=
  match s.deliverNext with
  | none => p.has flagReliable = true → p.sequenceNumber < 0x8000 ∧
      ∀ n ∈ s.receivedPackets, n = p.sequenceNumber ∨ 0x8000 ≤ n ∨
        reach < seqDist n (nextNumber p)
  | some cursor =>
    if p.has flagReliable = true then
      p.sequenceNumber < 0x8000 ∧
        (seqDist p.sequenceNumber cursor ≤ deliveryParkWindow ∨
          0x4000 < seqDist p.sequenceNumber cursor ∧
            0x8000 ≤ handed.length + seqDist p.sequenceNumber cursor)
    else 0x8000 ≤ p.sequenceNumber ∨ reach < seqDist p.sequenceNumber cursor

instance Expected.decidable (handed : List Packet) (s : Udp) (p : Packet) :
    Decidable (Expected handed s p) :=
  match hnext : s.deliverNext with
  | none =>
    decidable_of_iff (p.has flagReliable = true → p.sequenceNumber < 0x8000 ∧
        ∀ n ∈ s.receivedPackets, n = p.sequenceNumber ∨ 0x8000 ≤ n ∨
          reach < seqDist n (nextNumber p)) (by rw [Expected, hnext])
  | some cursor =>
    decidable_of_iff (if p.has flagReliable = true then
        p.sequenceNumber < 0x8000 ∧
          (seqDist p.sequenceNumber cursor ≤ deliveryParkWindow ∨
            0x4000 < seqDist p.sequenceNumber cursor ∧
              0x8000 ≤ handed.length + seqDist p.sequenceNumber cursor)
      else 0x8000 ≤ p.sequenceNumber ∨ reach < seqDist p.sequenceNumber cursor)
      (by rw [Expected, hnext])

section Heard

variable {first acked : ℕ} {log : List ℕ} {handed : List Packet} {p : Packet} {s t u : Udp}
  {now : Time}

/-- What is expected of a packet does not depend on what else a datagram does. -/
theorem Expected.same (h : Expected handed s p) (hin : SameInbound s t)
    (hwindow : SameWindow s t) : Expected handed t p := by
  unfold Expected at h ⊢
  rw [hin.1, hwindow.1]
  exact h

/-- How far the ACK is after a packet. -/
def ackedAfter (acked : ℕ) (s t : Udp) : ℕ :=
  if s.rxEstablished then acked + seqDist t.ackNumber s.ackNumber else 0

/-- What comes to the receive queue, with the ACK safe. -/
def Acknowledges (acked : ℕ) (handed : List Packet) (s t : Udp) : Prop :=
  ∃ items, t.threadRecvQueue = s.threadRecvQueue ++ items ∧
    AckSafe (ackedAfter acked s t) (handed ++ reliableItems items) t

theorem AckSafe.same (h : AckSafe acked handed s) (hnext : t.deliverNext = s.deliverNext)
    (hparked : t.parked = s.parked) (hwindow : SameWindow s t) : AckSafe acked handed t := by
  obtain ⟨hreceived, hack, hestablished⟩ := hwindow
  rcases h with h | ⟨first, log, h⟩
  · refine .inl ⟨h.handed, hnext.trans h.next, hestablished.trans h.established,
      hparked.trans h.parked, ?_⟩
    rw [hreceived]
    exact h.window
  · refine .inr ⟨first, log, hnext.trans h.next, hestablished.trans h.established, h.numbers,
      ?_, hreceived.trans h.window, ?_, h.behind, hack.trans h.ack⟩
    · rw [hparked]
      exact h.gap
    · rw [hparked]
      exact h.entries

/-- A packet that changes nothing but the ACKs owed. -/
theorem AckSafe.acknowledges (h : AckSafe acked handed s) (hin : SameInbound s t)
    (hwindow : SameWindow s t) : Acknowledges acked handed s t := by
  refine ⟨[], ?_, ?_⟩
  · simpa using hin.2.2
  · have hself : seqDist s.ackNumber s.ackNumber = 0 := by
      unfold seqDist
      omega
    unfold ackedAfter
    rw [hwindow.2.1, hself]
    have ht := h.same hin.1 hin.2.1 hwindow
    rcases h with hwaiting | ⟨first, log, hgoing⟩
    · rw [if_neg (by simp [hwaiting.established])]
      have hsafe : AckSafe 0 handed t := AckSafe.same (.inl hwaiting) hin.1 hin.2.1 hwindow
      simpa [reliableItems] using hsafe
    · rw [if_pos hgoing.established]
      simpa [reliableItems] using ht

/-- The state before the gate. -/
def beforeGate (p : Packet) (s : Udp) : Udp :=
  ({ s with receivedPackets := seenAppend seenMaxlen s.remoteSequenceNumber s.receivedPackets
    }.updateAckNumber p).oweAck p

theorem beforeGate_window (p : Packet) (s : Udp) :
    (s.beforeGate p).receivedPackets =
        seenAppend seenMaxlen s.remoteSequenceNumber s.receivedPackets ∧
      (s.beforeGate p).ackNumber =
        (if s.rxEstablished then ackWalk (s.beforeGate p).receivedPackets
          (s.beforeGate p).receivedPackets.length s.ackNumber
        else s.remoteSequenceNumber) ∧
      (s.beforeGate p).rxEstablished = (s.rxEstablished || p.has flagReliable) := by
  obtain ⟨howed, hack, hestablished⟩ := oweAck_sameWindow p
    ({ s with receivedPackets :=
      seenAppend seenMaxlen s.remoteSequenceNumber s.receivedPackets }.updateAckNumber p)
  obtain ⟨hupdated, hwalked, hnow⟩ := updateAckNumber_window p { s with
    receivedPackets := seenAppend seenMaxlen s.remoteSequenceNumber s.receivedPackets }
  have hreceived : (s.beforeGate p).receivedPackets =
      seenAppend seenMaxlen s.remoteSequenceNumber s.receivedPackets := howed.trans hupdated
  refine ⟨hreceived, ?_, hestablished.trans hnow⟩
  rw [hreceived]
  exact hack.trans hwalked

/-- After the gate: the next places are filled, and the number is appended. -/
theorem Going.arrives (h : Going first acked log handed s) {new : ℕ → Prop} {ps : List Packet}
    (hnumbers : ∀ i q, ps[i]? = some q → q.sequenceNumber = numberAt first (handed.length + i))
    (hnext : t.deliverNext = some (numberAt first (handed.length + ps.length)))
    (hgap : Gap first (handed.length + ps.length) t.parked)
    (hreceived : ∀ place, Received first (handed.length + ps.length) t.parked place ↔
      Received first handed.length s.parked place ∨ new place)
    (hnew : ∀ place, new place → numberAt first place = s.remoteSequenceNumber)
    (hentry : Entry first (handed.length + ps.length) t.parked s.remoteSequenceNumber [])
    (hwindow : SameWindow (s.beforeGate p) t) :
    Going first (ackedAfter acked s t) (log ++ [s.remoteSequenceNumber]) (handed ++ ps) t := by
  have hlength : (handed ++ ps).length = handed.length + ps.length := List.length_append
  obtain ⟨hseen, hwalked, hestablished⟩ := beforeGate_window p s
  obtain ⟨htseen, htack, htestablished⟩ := hwindow
  have hentries := entries_append h.entries (Nat.le_add_right _ _) hreceived hnew hentry
  have htwindow : t.receivedPackets = recent seenMaxlen (log ++ [s.remoteSequenceNumber]) := by
    rw [htseen, hseen, h.window, seenAppend_recent]
  have hcursor := cursor_not_mem_window hentries hgap
  rw [← htwindow, htseen] at hcursor
  have hfuel : (s.beforeGate p).receivedPackets.length ≤ seenMaxlen := by
    rw [← htseen, htwindow, Library.length_recent]
    exact Nat.min_le_left _ _
  obtain ⟨moved, hmoved, hbehind, heq⟩ := ackWalk_before (a := acked)
    (s.beforeGate p).receivedPackets.length (Nat.lt_add_right ps.length h.behind) hcursor
  have hack : t.ackNumber = numberAt first (acked + moved) := by
    rw [htack, hwalked, if_pos h.established, h.ack, heq]
  have hafter : ackedAfter acked s t = acked + moved := by
    unfold ackedAfter
    unfold seenMaxlen at hfuel
    rw [if_pos h.established, hack, h.ack, seqDist_numberAt (by omega)]
  rw [← hafter] at hbehind hack
  rw [← hlength] at hnext hgap hentries hbehind
  refine ⟨hnext, ?_, fun i q hq => ?_, hgap, htwindow, hentries, hbehind, hack⟩
  · rw [htestablished, hestablished, h.established]
    rfl
  · rw [List.getElem?_append] at hq
    split at hq
    · exact h.numbers i q hq
    · rename_i hi
      rw [hnumbers _ q hq, Nat.add_sub_cancel' (Nat.not_lt.mp hi)]

/-- A number out of reach is appended. -/
theorem Going.appends (h : Going first acked log handed s) (hnext : t.deliverNext = s.deliverNext)
    (hparked : t.parked = s.parked) (hwindow : SameWindow (s.beforeGate p) t)
    (hfar : 0x8000 ≤ s.remoteSequenceNumber ∨
      reach < seqDist s.remoteSequenceNumber (numberAt first handed.length)) :
    Going first (ackedAfter acked s t) (log ++ [s.remoteSequenceNumber]) handed t := by
  have hgoing := @Going.arrives first acked log handed p s t h (fun _ => False) [] (by simp)
    (hnext.trans h.next) (hparked ▸ h.gap) (fun place => by rw [hparked, or_false]; rfl)
    (fun place hplace => hplace.elim) (entry_far hfar []) hwindow
  rwa [List.append_nil] at hgoing

/-- The first reliable packet. -/
theorem Waiting.begins (h : Waiting handed s) (hp : p.has flagReliable = true)
    (hremote : s.remoteSequenceNumber = p.sequenceNumber) (hshort : p.sequenceNumber < 0x8000)
    (hfar : ∀ n ∈ s.receivedPackets, n = p.sequenceNumber ∨ 0x8000 ≤ n ∨
      reach < seqDist n (nextNumber p))
    (hnext : t.deliverNext = some (nextNumber p)) (hparked : t.parked = s.parked)
    (hwindow : SameWindow (s.beforeGate p) t) :
    Going p.sequenceNumber 0 (s.receivedPackets ++ [p.sequenceNumber]) [p] t := by
  obtain ⟨hseen, hwalked, hestablished⟩ := beforeGate_window p s
  obtain ⟨htseen, htack, htestablished⟩ := hwindow
  obtain ⟨log, hlog⟩ := h.window
  have hzero : p.sequenceNumber = numberAt p.sequenceNumber 0 :=
    (Nat.mod_eq_of_lt hshort).symm
  have hempty : t.parked = .empty := hparked.trans h.parked
  refine ⟨hnext, ?_, fun i q hq => ?_, ?_, ?_, fun older n newer hsplit => ?_, by simp, ?_⟩
  · rw [htestablished, hestablished, hp, Bool.or_true]
  · cases i with
    | zero =>
      cases hq
      exact hzero
    | succ i => cases hq
  · rw [hempty]
    refine ⟨fun n q hq => ?_, fun n hn => ?_⟩
    · cases hq
    · cases hn
  · have hkept : s.receivedPackets = recent seenMaxlen s.receivedPackets := by
      rw [hlog, Library.recent_recent]
    calc t.receivedPackets = seenAppend seenMaxlen p.sequenceNumber s.receivedPackets := by
          rw [htseen, hseen, hremote]
      _ = seenAppend seenMaxlen p.sequenceNumber (recent seenMaxlen s.receivedPackets) :=
          congrArg _ hkept
      _ = recent seenMaxlen (s.receivedPackets ++ [p.sequenceNumber]) := seenAppend_recent _ _
  · apply entry_far
    have hself : 0x8000 ≤ p.sequenceNumber ∨
        reach < seqDist p.sequenceNumber (numberAt p.sequenceNumber 1) := by
      unfold reach seenMaxlen deliveryParkWindow seqDist numberAt
      omega
    have hmem : n ∈ s.receivedPackets ++ [p.sequenceNumber] := by simp [hsplit]
    rcases List.mem_append.mp hmem with hmem | hmem
    · rcases hfar n hmem with rfl | hfar
      · exact hself
      · exact hfar
    · rw [List.mem_singleton.mp hmem]
      exact hself
  · rw [htack, hwalked, if_neg (by simp [h.established]), hremote]
    exact hzero

theorem reliableItems_one (p : Packet) :
    reliableItems [.packet p] = if p.has flagReliable then [p] else [] := by
  cases hp : p.has flagReliable with
  | true => simp [reliableItems, hp]
  | false => simp [reliableItems, hp]

/-- The gate sets the cursor behind the first reliable packet. -/
theorem gate_first (hp : p.has flagReliable = true) (hestablished : s.rxEstablished = true)
    (hnext : s.deliverNext = none) :
    s.gate p = (.packet p, { s with deliverNext := some (nextNumber p) }) := by
  unfold gate
  dsimp only
  rw [if_neg (by simp [hp, hestablished]), hnext]
  rfl

/-- It drops a packet behind the cursor. -/
theorem gate_behind {cursor : ℕ} (hp : p.has flagReliable = true)
    (hestablished : s.rxEstablished = true) (hnext : s.deliverNext = some cursor)
    (hbehind : 0x4000 < seqDist p.sequenceNumber cursor) : s.gate p = (.handled, s) := by
  unfold gate
  dsimp only
  rw [if_neg (by simp [hp, hestablished]), hnext]
  dsimp only
  rw [if_neg (by omega), if_pos hbehind]

/-- The same as after a state that differs in neither queue, cursor nor ACK. -/
theorem Acknowledges.same (h : Acknowledges acked handed t u) (hin : SameInbound s t)
    (hwindow : SameWindow s t) : Acknowledges acked handed s u := by
  obtain ⟨items, hqueue, hsafe⟩ := h
  refine ⟨items, hin.2.2 ▸ hqueue, ?_⟩
  unfold ackedAfter at hsafe ⊢
  rwa [hwindow.2.1, hwindow.2.2] at hsafe

/-- A packet before the first reliable one, or that one. -/
theorem Waiting.acknowledges (h : Waiting handed s)
    (hremote : s.remoteSequenceNumber = p.sequenceNumber) (hp : Expected handed s p) :
    Acknowledges acked handed s
      (((s.beforeGate p).gate p).2.handOn ((s.beforeGate p).gate p).1) := by
  have hin : SameInbound s (s.beforeGate p) := window_inbound _ p s
  obtain ⟨hseen, -, hestablished⟩ := beforeGate_window p s
  have hwindow := gate_sameWindow p (s.beforeGate p)
  unfold Expected at hp
  rw [h.next] at hp
  dsimp only at hp
  have hafter : ∀ t : Udp, ackedAfter acked s t = 0 := fun t => if_neg (by simp [h.established])
  cases hreliable : p.has flagReliable with
  | true =>
    obtain ⟨hshort, hfar⟩ := hp hreliable
    have hgate := gate_first hreliable (hestablished.trans (by rw [hreliable, Bool.or_true]))
      (hin.1.trans h.next)
    rw [hgate] at hwindow ⊢
    refine ⟨[.packet p], congrArg (· ++ _) hin.2.2, ?_⟩
    rw [hafter, reliableItems_one, h.handed, hreliable]
    exact .inr ⟨_, _, h.begins hreliable hremote hshort hfar rfl hin.2.1 hwindow⟩
  | false =>
    rw [gate_unreliable hreliable]
    obtain ⟨log, hlog⟩ := h.window
    refine ⟨[.packet p], congrArg (· ++ _) hin.2.2, ?_⟩
    rw [hafter, reliableItems_one, h.handed, hreliable]
    refine .inl ⟨rfl, hin.1.trans h.next, ?_, hin.2.1.trans h.parked, ?_⟩
    · show (s.beforeGate p).rxEstablished = false
      rw [hestablished, h.established, hreliable]
      rfl
    · refine ⟨log ++ [s.remoteSequenceNumber], ?_⟩
      show (s.beforeGate p).receivedPackets = _
      rw [hseen, hlog, seenAppend_recent]

/-- A packet after the first reliable one. -/
theorem Going.acknowledges (h : Going first acked log handed s)
    (hremote : s.remoteSequenceNumber = p.sequenceNumber) (hp : Expected handed s p) :
    Acknowledges acked handed s
      (((s.beforeGate p).gate p).2.handOn ((s.beforeGate p).gate p).1) := by
  have hin : SameInbound s (s.beforeGate p) := window_inbound _ p s
  have hwindow := gate_sameWindow p (s.beforeGate p)
  have hnext := hin.1.trans h.next
  have hestablished : (s.beforeGate p).rxEstablished = true := by
    rw [(beforeGate_window p s).2.2, h.established]
    rfl
  unfold Expected at hp
  rw [h.next] at hp
  dsimp only at hp
  cases hreliable : p.has flagReliable with
  | true =>
    rw [hreliable, if_pos rfl] at hp
    obtain ⟨hshort, hnear | ⟨hbehind, -⟩⟩ := hp
    · have hnumber := @eq_numberAt first handed.length _ _ hshort rfl
      have hgap : Gap first handed.length (s.beforeGate p).parked := hin.2.1 ▸ h.gap
      obtain ⟨ps, hqueue, hall, hnumbers, hnext', hgap', hreceived⟩ :=
        gate_arrives hgap hnext hreliable hestablished hnumber hnear
      rw [hin.2.1] at hreceived
      refine ⟨ps.map .packet, hin.2.2 ▸ hqueue, ?_⟩
      rw [reliableItems_packets hall]
      refine .inr ⟨first, log ++ [s.remoteSequenceNumber], ?_⟩
      refine h.arrives hnumbers hnext' hgap' hreceived ?_ ?_ hwindow
      · rintro place rfl
        rw [hremote]
        exact hnumber.symm
      · rw [hremote, hnumber]
        exact entry_received (Nat.le_add_right _ _) hnear hreceived
    · have hgate := gate_behind hreliable hestablished hnext hbehind
      rw [hgate] at hwindow ⊢
      refine ⟨[], ?_, .inr ⟨first, log ++ [s.remoteSequenceNumber], ?_⟩⟩
      · rw [List.append_nil]
        exact hin.2.2
      rw [reliableItems, List.filterMap_nil, List.append_nil]
      refine h.appends hin.1 hin.2.1 hwindow (.inr ?_)
      rw [hremote]
      unfold reach seenMaxlen deliveryParkWindow
      omega
  | false =>
    rw [hreliable, if_neg (by simp)] at hp
    rw [gate_unreliable hreliable] at hwindow ⊢
    refine ⟨[.packet p], congrArg (· ++ _) hin.2.2, ?_⟩
    rw [reliableItems_one, hreliable, if_neg (by simp), List.append_nil]
    refine .inr ⟨first, _, h.appends hin.1 hin.2.1 hwindow ?_⟩
    rwa [hremote]

/-- A packet let in, past what the ACK of a resend and the clock see of it. -/
theorem receiveHeard_acknowledges (h : AckSafe acked handed s) (hp : Expected handed s p) :
    Acknowledges acked handed s ((s.receiveHeard now p).2.handOn (s.receiveHeard now p).1) := by
  obtain ⟨hhear, hwindow⟩ := same_of_moves ((@hear_moves now s p).mono (by decide))
  have hremote := @hear_remote now p s
  have hsafe := h.same hhear.1 hhear.2.1 hwindow
  have hexpected := hp.same hhear hwindow
  unfold receiveHeard
  dsimp only
  generalize s.hear now p = t at hhear hwindow hremote hsafe hexpected ⊢
  refine Acknowledges.same ?_ hhear hwindow
  split
  · dsimp only [handOn]
    split
    · exact hsafe.acknowledges ⟨rfl, rfl, rfl⟩ ⟨rfl, rfl, rfl⟩
    · exact hsafe.acknowledges ⟨rfl, rfl, rfl⟩ ⟨rfl, rfl, rfl⟩
  · rcases hsafe with hwaiting | ⟨first, log, hgoing⟩
    · exact hwaiting.acknowledges hremote hexpected
    · exact hgoing.acknowledges hremote hexpected

/-! ## What is dropped -/

theorem drainParked_prefix (fuel next : ℕ) (s : Udp) :
    s.threadRecvQueue <+: (s.drainParked fuel next).threadRecvQueue := by
  induction fuel generalizing next s with
  | zero => exact List.prefix_rfl
  | succ fuel ih =>
    unfold drainParked
    split
    · exact List.prefix_rfl
    · rename_i p _
      have hrest := ih ((next + 1) % 0x8000) { s with
        threadRecvQueue := s.threadRecvQueue ++ [.packet p]
        parked := s.parked.erase next
        deliverNext := some ((next + 1) % 0x8000) }
      exact (List.prefix_append s.threadRecvQueue _).trans hrest

/-- A packet at the cursor, or within the park window, is handed on or parked by the gate. -/
theorem gate_takes {cursor : ℕ} (hp : p.has flagReliable = true)
    (hestablished : s.rxEstablished = true) (hnext : s.deliverNext = some cursor)
    (hnear : seqDist p.sequenceNumber cursor ≤ deliveryParkWindow) :
    s.threadRecvQueue ++ [.packet p] <+:
        ((s.gate p).2.handOn (s.gate p).1).threadRecvQueue ∨
      ((s.gate p).2.handOn (s.gate p).1).parked.get? p.sequenceNumber = some p := by
  unfold deliveryParkWindow at hnear
  unfold gate
  dsimp only
  rw [if_neg (by simp [hp, hestablished]), hnext]
  dsimp only
  split
  · apply Or.inl
    split
    · exact List.prefix_rfl
    · have hdrain := drainParked_prefix s.parked.keys.length ((p.sequenceNumber + 1) % 0x8000)
        { s with
          deliverNext := some ((p.sequenceNumber + 1) % 0x8000)
          threadRecvQueue := s.threadRecvQueue ++ [.packet p] }
      exact hdrain
  · rw [if_neg (by omega), if_pos (by unfold deliveryParkWindow; omega)]
    exact .inr (Dict.get?_set_self _ _ _)

/-- A packet of this number is parked, or was handed on at its place behind the cursor. -/
def Had (handed : List Packet) (cursor : ℕ) (s : Udp) (p : Packet) : Prop :=
  (∃ q, s.parked.get? p.sequenceNumber = some q ∧ q.sequenceNumber = p.sequenceNumber) ∨
    ∃ place q, place + 0x8000 = handed.length + seqDist p.sequenceNumber cursor ∧
      handed[place]? = some q ∧ q.sequenceNumber = p.sequenceNumber

/-- What is behind the cursor was handed on. -/
theorem Going.had_behind (h : Going first acked log handed s)
    (hshort : p.sequenceNumber < 0x8000)
    (hbehind : 0x8000 ≤
      handed.length + seqDist p.sequenceNumber (numberAt first handed.length)) :
    Had handed (numberAt first handed.length) s p := by
  have hlt := seqDist_lt p.sequenceNumber (numberAt first handed.length)
  have hnumber := @eq_numberAt first handed.length _ _ hshort rfl
  obtain ⟨place, hplace⟩ := Nat.exists_eq_add_of_le' hbehind
  have hq := List.getElem?_eq_getElem (l := handed) (i := place) (by omega)
  refine .inr ⟨place, _, hplace.symm, hq, ?_⟩
  rw [h.numbers place _ hq, hnumber, hplace]
  unfold numberAt
  omega

/-- What is dropped as seen is parked. -/
theorem Going.had_seen (h : Going first acked log handed s) (hshort : p.sequenceNumber < 0x8000)
    (hnear : seqDist p.sequenceNumber (numberAt first handed.length) ≤ deliveryParkWindow)
    (hseen : p.sequenceNumber ∈ s.receivedPackets) :
    Had handed (numberAt first handed.length) s p := by
  have hnumber := @eq_numberAt first handed.length _ _ hshort rfl
  rw [h.window, hnumber] at hseen
  rcases received_of_mem_window h.entries hnear hseen with hlt | ⟨-, hmem⟩
  · omega
  · rw [← hnumber] at hmem
    obtain ⟨q, hq⟩ := s.parked.exists_get?_of_mem_keys hmem
    exact .inl ⟨q, hq, (h.gap.own _ q hq).1⟩

/-- A reliable packet let in is handed on, or parked, or was had before. -/
theorem receiveHeard_kept (h : AckSafe acked handed s) (hp : Expected handed s p)
    (hreliable : p.has flagReliable = true) {cursor : ℕ} (hnext : s.deliverNext = some cursor) :
    s.threadRecvQueue ++ [.packet p] <+:
        ((s.receiveHeard now p).2.handOn (s.receiveHeard now p).1).threadRecvQueue ∨
      ((s.receiveHeard now p).2.handOn (s.receiveHeard now p).1).parked.get? p.sequenceNumber =
        some p ∨ Had handed cursor s p := by
  rcases h with hwaiting | ⟨first, log, hgoing⟩
  · rw [hwaiting.next] at hnext
    cases hnext
  · have hcursor := hgoing.next
    rw [hnext, Option.some_inj] at hcursor
    subst hcursor
    unfold Expected at hp
    rw [hnext] at hp
    dsimp only at hp
    rw [if_pos hreliable] at hp
    obtain ⟨hshort, hnear | ⟨-, hbehind⟩⟩ := hp
    · obtain ⟨hhear, hwindow⟩ := same_of_moves ((@hear_moves now s p).mono (by decide))
      have hremote := @hear_remote now p s
      have hcursor := hhear.1.trans hnext
      have hestablished := hwindow.2.2.trans hgoing.established
      have hseen := hgoing.had_seen hshort hnear
      rw [← hwindow.1] at hseen
      unfold receiveHeard
      dsimp only
      generalize s.hear now p = t at hhear hwindow hremote hcursor hestablished hseen ⊢
      rw [← hremote] at hseen
      split
      · rename_i hdropped
        exact .inr (.inr (hseen hdropped.2))
      · have hin : SameInbound t (t.beforeGate p) := window_inbound _ p t
        have hgated : (t.beforeGate p).rxEstablished = true := by
          rw [(beforeGate_window p t).2.2, hestablished]
          rfl
        have htakes := gate_takes hreliable hgated (hin.1.trans hcursor) hnear
        rw [hin.2.2, hhear.2.2] at htakes
        exact htakes.imp id .inl
    · exact .inr (.inr (hgoing.had_behind hshort hbehind))

variable {socket : Socket} {fromPeer : Bool} {raw : Bytes}

/-- A datagram of a drain. -/
theorem hearOne_acknowledges (h : AckSafe acked handed s)
    (hp : ∀ p ∈ s.letIn socket fromPeer raw, Expected handed s p) :
    Acknowledges acked handed s (s.hearOne socket now fromPeer raw).2 := by
  rcases @hearOne_cases socket fromPeer raw now s with ⟨-, hresend⟩ | ⟨p, t, hin, hresend, heq⟩
  · obtain ⟨hsame, hwindow⟩ := same_of_moves (hresend.mono (by decide))
    exact h.acknowledges hsame hwindow
  · obtain ⟨hsame, hwindow⟩ := same_of_moves (hresend.mono (by decide))
    rw [heq]
    exact (receiveHeard_acknowledges (h.same hsame.1 hsame.2.1 hwindow)
      ((hp p hin).same hsame hwindow)).same hsame hwindow

theorem hearOne_kept (h : AckSafe acked handed s) (hin : p ∈ s.letIn socket fromPeer raw)
    (hp : Expected handed s p) (hreliable : p.has flagReliable = true) {cursor : ℕ}
    (hnext : s.deliverNext = some cursor) :
    s.threadRecvQueue ++ [.packet p] <+: (s.hearOne socket now fromPeer raw).2.threadRecvQueue ∨
      (s.hearOne socket now fromPeer raw).2.parked.get? p.sequenceNumber = some p ∨
        Had handed cursor s p := by
  rcases @hearOne_cases socket fromPeer raw now s with ⟨hnone, -⟩ | ⟨q, t, hq, hresend, heq⟩
  · rw [hnone] at hin
    cases hin
  · rw [hq] at hin
    cases hin
    obtain ⟨hsame, hwindow⟩ := same_of_moves (hresend.mono (by decide))
    have hkept := @receiveHeard_kept acked handed p t now (h.same hsame.1 hsame.2.1 hwindow)
      (hp.same hsame hwindow) hreliable cursor (hsame.1.trans hnext)
    unfold Had at hkept ⊢
    rw [hsame.2.2, hsame.2.1] at hkept
    rwa [heq]

end Heard

end Udp

/-! ## Runs -/

namespace Session

open Udp

variable {socket : Socket} {aggressive : Bool} {s : Session}

/-- A datagram brings a packet that is expected, or none. -/
def Timely (socket : Socket) (s : Session) (a : Time × SessionEvent) : Prop :=
  match a.2 with
  | .datagram fromPeer raw => ∀ p ∈ s.udp.letIn socket fromPeer raw, Expected s.handed s.udp p
  | _ => True

instance Timely.decidable (socket : Socket) (s : Session) :
    (a : Time × SessionEvent) → Decidable (s.Timely socket a)
  | (_, .datagram fromPeer raw) => inferInstanceAs (Decidable
      (∀ p ∈ s.udp.letIn socket fromPeer raw, Expected s.handed s.udp p))
  | (_, .flushAck) | (_, .endThread) | (_, .other _) => inferInstanceAs (Decidable True)

/-- The ACK of a session is safe. -/
def Safe (s : Session) : Prop := AckSafe s.acked s.handed s.udp

/-- A session begins. -/
theorem safe_begins {u : Udp} (h : NothingReceived u) : Safe { udp := u } := by
  obtain ⟨hnext, hparked, hestablished, hreceived⟩ := h
  refine .inl ⟨rfl, hnext, hestablished, hparked, [], ?_⟩
  rw [hreceived, Library.recent_nil]

theorem step_safe {a : Time × SessionEvent} (h : s.Safe) (ha : s.Possible a)
    (hok : s.Timely socket a) : (s.step socket aggressive a).Safe := by
  obtain ⟨now, e⟩ := a
  cases e with
  | datagram fromPeer raw =>
    obtain ⟨items, hqueue, hsafe⟩ :=
      @hearOne_acknowledges _ _ _ now socket fromPeer raw h hok
    unfold step Safe
    dsimp only
    rwa [hqueue, List.drop_left]
  | flushAck =>
    obtain ⟨hnext, hparked, hwindow⟩ := @flushAck_receiver socket now s.udp
    exact h.same hnext hparked hwindow
  | endThread => exact h.same rfl rfl ⟨rfl, rfl, rfl⟩
  | other e =>
    have hsame := @step_receiver socket aggressive now s.udp e (by
      rintro datagrams rfl
      exact ha)
    unfold step Safe
    dsimp only
    rcases hsame with ⟨hcount, hnext, hparked, hwindow⟩ | ⟨hcount, hnothing⟩
    · rw [if_pos hcount]
      exact h.same hnext hparked hwindow
    · rw [if_neg hcount.ne']
      exact safe_begins hnothing

theorem safe_reach (h : s.ReachableWhen socket aggressive (Timely socket)) : s.Safe := by
  apply h.invariant
  · rintro s ⟨now, rfl⟩
    exact safe_begins ⟨rfl, rfl, rfl, rfl⟩
  · intro s a _ hs hok
    exact step_safe hs hok.1 hok.2

theorem Safe.chain (h : s.Safe) : s.handed.IsChain Next := by
  rcases h with hwaiting | ⟨first, log, hgoing⟩
  · rw [hwaiting.handed]
    exact List.isChain_nil
  · apply List.isChain_iff_getElem.mpr
    intro i hi
    have hp := hgoing.numbers i _ (List.getElem?_eq_getElem (by omega))
    have hq := hgoing.numbers (i + 1) _ (List.getElem?_eq_getElem hi)
    unfold Next nextNumber
    rw [hp, hq, numberAt_succ]
    unfold seqDist
    omega

/-- A frame without data that is not reliable. -/
def controlFrame (number : ℕ) : Packet :=
  { flags := flagAck, session := some 0x8001, sequenceNumber := number, data := some [] }

/-- A reliable packet sent again. -/
def resentData (number : ℕ) : Packet :=
  { reliableData number with flags := flagReliable ||| flagRetransmission }

/-- The packet numbered 2 is lost, a control frame has its number, and the packet is sent
again. -/
def swallowed : Session :=
  Library.run (step Pump.allSent false) { udp := .fresh 0 }
    (hears [1] ++ [fromSwitcher (controlFrame 2), fromSwitcher (resentData 2)])

/-- The packet numbered 3 comes before the one numbered 2, which was lost, with a control frame
that is long behind. -/
def resent : Session :=
  Library.run (step Pump.allSent false) { udp := .fresh 0 }
    (hears [1, 3] ++ [fromSwitcher (controlFrame 0), fromSwitcher (resentData 2)])

end Session

end Bmdwire
