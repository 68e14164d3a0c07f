import Bmdwire.Program.UnitArchive
import Bmdwire.Program.UnitSockets

/-!
# What a unit says, in whatever pieces

The loops over the sockets of an Ultimatte come to the same however the network cuts what the unit
sends. A read returns the body behind its length and never a part of it, a write returns only
behind zeros, and a prelude that comes without long pauses is read as a whole.
-/

set_option autoImplicit false

namespace Bmdwire.Ultimatte

open Library

/-! ## The binary channel -/

section
variable (n : ℕ) (s : Stream UInt8)

/-- The reads come to the first of all the octets, or time out with them. -/
theorem recvExactLoop_cases :
    (∃ cuts, recvExact n s.items s.closes = .ok (s.items.take n, s.items.drop n) ∧
      recvExactLoop n s = .ok (s.items.take n, ⟨s.items.drop n, s.closes, cuts⟩)) ∨
    ∃ e, recvExact n s.items s.closes = .error e ∧ recvExactLoop n s = .error e := by
  obtain ⟨henough, hshort⟩ := s.readUpTo_spec n []
  rw [List.length_nil, Nat.zero_add, Nat.sub_zero, List.nil_append] at henough
  rw [List.length_nil, Nat.zero_add] at hshort
  unfold recvExactLoop recvExact
  by_cases h : n ≤ s.items.length ∨ s.closes = true
  · obtain ⟨cuts, hread⟩ := henough h
    exact .inl ⟨cuts, if_pos h, by rw [hread]⟩
  · exact .inr ⟨_, if_neg h, by rw [hshort h]⟩

end

section
variable (first second : Attempt)

/-- `binary_request` over a socket is `binary_request` over all the octets. -/
theorem binaryRequestOver_eq (payload : List UInt8) :
    binaryRequestOver payload first second =
      binaryRequest payload (connectWithRetry first second).contact := by
  unfold binaryRequestOver
  cases connectWithRetry first second with
  | failed => rfl
  | opened breaks s =>
    unfold Attempt.contact binaryRequest
    cases breaks with
    | true => rfl
    | false =>
      dsimp only [bind, Except.bind]
      cases packLength payload.length with
      | error e => rfl
      | ok packed =>
        rcases recvExactLoop_cases 4 s with ⟨cuts, hwhole, hloop⟩ | ⟨e, hwhole, hloop⟩
        · rw [hwhole, hloop]
          dsimp only
          rw [if_neg (by decide)]
          cases leRead 4 (s.items.take 4).reverse with
          | none => rfl
          | some length =>
            dsimp only
            by_cases hzero : length = 0
            · rw [if_pos hzero, hzero, recvExact, if_pos (.inl (Nat.zero_le _))]
              rfl
            · rw [if_neg hzero]
              rcases recvExactLoop_cases length ⟨s.items.drop 4, s.closes, cuts⟩ with
                ⟨cuts', hwhole', hloop'⟩ | ⟨e, hwhole', hloop'⟩
              · rw [hwhole', hloop']
              · rw [hwhole', hloop']
        · rw [hwhole, hloop]
          rfl

/-- `upload_one` over a socket is `upload_one` over all the octets. -/
theorem sendOver_eq (u : Upload) :
    u.sendOver first second = u.send (connectWithRetry first second).contact := by
  unfold Upload.sendOver Upload.send
  dsimp only [bind, Except.bind]
  cases u.frame with
  | error e => rfl
  | ok frame =>
    cases connectWithRetry first second with
    | failed => rfl
    | opened breaks s =>
      unfold Attempt.contact
      cases breaks with
      | true => rfl
      | false =>
        rcases recvExactLoop_cases ackLen s with ⟨cuts, hwhole, hloop⟩ | ⟨e, hwhole, hloop⟩
        · dsimp only
          rw [hwhole, hloop]
          rfl
        · dsimp only
          rw [hwhole, hloop]
          rfl

end

/-! ## What is returned -/

/-- A body behind its length. -/
def framedBody (body : List UInt8) : List UInt8 := (leBytes 4 body.length).reverse ++ body

theorem packLength_eq_ok {n : ℕ} {packed : List UInt8} :
    packLength n = .ok packed ↔ n < 2 ^ 32 ∧ packed = (leBytes 4 n).reverse := by
  unfold packLength
  split_ifs with h
  · rw [Except.ok.injEq]
    exact ⟨fun heq => ⟨h, heq.symm⟩, fun heq => heq.2.symm⟩
  · exact iff_of_false (fun heq => nomatch heq) fun heq => h heq.1

theorem recvExact_eq_ok {n : ℕ} {octets : List UInt8} {closes : Bool}
    {r : List UInt8 × List UInt8} :
    recvExact n octets closes = .ok r ↔
      (n ≤ octets.length ∨ closes = true) ∧ r = (octets.take n, octets.drop n) := by
  unfold recvExact
  split_ifs with h
  · rw [Except.ok.injEq]
    exact ⟨fun heq => ⟨h, heq.symm⟩, fun heq => heq.2.symm⟩
  · exact iff_of_false (fun heq => nomatch heq) fun heq => h heq.1

theorem bind_eq_ok {α β : Type} {x : Except WireError α} {f : α → Except WireError β} {b : β} :
    (x >>= f) = .ok b ↔ ∃ a, x = .ok a ∧ f a = .ok b := by
  cases x with
  | error e => simp [bind, Except.bind]
  | ok a =>
    refine ⟨fun h => ⟨a, rfl, h⟩, fun h => ?_⟩
    obtain ⟨a', heq, h⟩ := h
    obtain rfl := Except.ok.inj heq
    exact h

/-- A body is returned exactly when the unit sends it behind its length. -/
theorem binaryRequest_ok {payload body : List UInt8} {contact : Contact} :
    binaryRequest payload contact = .ok body ↔
      payload.length < 2 ^ 32 ∧ body.length < 2 ^ 32 ∧
        ∃ more closes, contact = .replied (framedBody body ++ more) closes := by
  constructor
  · intro h
    cases contact with
    | refused => cases h
    | broken =>
      obtain ⟨packed, -, h⟩ := bind_eq_ok.mp h
      cases h
    | replied octets closes =>
      obtain ⟨packed, hpacked, h⟩ := bind_eq_ok.mp h
      obtain ⟨⟨header, rest⟩, hheader, h⟩ := bind_eq_ok.mp h
      obtain ⟨rfl, rfl⟩ := Prod.mk.inj (recvExact_eq_ok.mp hheader).2
      dsimp only at h
      cases hlength : leRead 4 (octets.take 4).reverse with
      | none =>
        rw [hlength] at h
        cases h
      | some length =>
        rw [hlength] at h
        obtain ⟨⟨body', rest⟩, hbody, h⟩ := bind_eq_ok.mp h
        obtain ⟨rfl, rfl⟩ := Prod.mk.inj (recvExact_eq_ok.mp hbody).2
        dsimp only at h
        split_ifs at h with hwhole
        obtain rfl := Except.ok.inj h
        have hlt : length < 256 ^ 4 := leRead_lt hlength
        have hfour : (octets.take 4).reverse = leBytes 4 length := eq_leBytes hlength (by
          rw [List.length_reverse, List.length_take]
          omega)
        refine ⟨(packLength_eq_ok.mp hpacked).1, by rw [hwhole]; exact hlt,
          (octets.drop 4).drop length, closes, ?_⟩
        rw [framedBody, hwhole, ← hfour, List.reverse_reverse, List.append_assoc,
          List.take_append_drop, List.take_append_drop]
  · rintro ⟨hpayload, hbody, more, closes, rfl⟩
    have hfour : ((leBytes 4 body.length).reverse).length = 4 := by simp
    have htake : (framedBody body ++ more).take 4 = (leBytes 4 body.length).reverse := by
      rw [framedBody, List.append_assoc]
      exact List.take_left' hfour
    have hdrop : (framedBody body ++ more).drop 4 = body ++ more := by
      rw [framedBody, List.append_assoc]
      exact List.drop_left' hfour
    have hread : leRead 4 (leBytes 4 body.length) = some body.length := by
      have h := leRead_leBytes 4 body.length []
      rwa [List.append_nil, Nat.mod_eq_of_lt (show body.length < 256 ^ 4 from hbody)] at h
    refine bind_eq_ok.mpr ⟨_, packLength_eq_ok.mpr ⟨hpayload, rfl⟩, bind_eq_ok.mpr
      ⟨_, recvExact_eq_ok.mpr ⟨.inl ?_, rfl⟩, ?_⟩⟩
    · simp only [framedBody, List.length_append, hfour]
      omega
    · dsimp only
      rw [htake, List.reverse_reverse, hread, hdrop]
      refine bind_eq_ok.mpr ⟨_, recvExact_eq_ok.mpr ⟨.inl ?_, rfl⟩, ?_⟩
      · rw [List.length_append]
        omega
      · dsimp only
        rw [List.take_left' rfl, if_pos rfl]

/-- An upload returns exactly when its frame can be built and the unit answers with zeros, six of
them unless it closes the connection before. -/
theorem send_ok {u : Upload} {contact : Contact} :
    u.send contact = .ok () ↔
      (∃ frame, u.frame = .ok frame) ∧ ∃ octets closes, contact = .replied octets closes ∧
        octets ≠ [] ∧ (ackLen ≤ octets.length ∨ closes = true) ∧
          ∀ b ∈ octets.take ackLen, b = 0 := by
  constructor
  · intro h
    obtain ⟨frame, hframe, h⟩ := bind_eq_ok.mp h
    cases contact with
    | refused => cases h
    | broken => cases h
    | replied octets closes =>
      obtain ⟨⟨ack, rest⟩, hack, h⟩ := bind_eq_ok.mp h
      obtain ⟨henough, heq⟩ := recvExact_eq_ok.mp hack
      obtain ⟨rfl, rfl⟩ := Prod.mk.inj heq
      dsimp only at h
      split_ifs at h with hnone hzero
      refine ⟨⟨frame, hframe⟩, octets, closes, rfl, ?_, henough, ?_⟩
      · rintro rfl
        exact hnone rfl
      · simpa using hzero
  · rintro ⟨⟨frame, hframe⟩, octets, closes, rfl, hne, henough, hzero⟩
    refine bind_eq_ok.mpr
      ⟨frame, hframe, bind_eq_ok.mpr ⟨_, recvExact_eq_ok.mpr ⟨henough, rfl⟩, ?_⟩⟩
    have hack : octets.take ackLen ≠ [] := by
      rw [ne_eq, List.take_eq_nil_iff]
      simp [ackLen, hne]
    dsimp only
    rw [if_neg hack, if_neg (by simpa using hzero)]

/-! ## The prelude -/

/-- Pieces that come in time: none is waited for longer than its read allows. -/
def Timely (quiet : ℚ) : List Arrival → List UInt8 → Prop
  | [], _ => True
  | a :: more, buf =>
    a.gap ≤ preludeTimeout quiet buf ∧ a.chunk ≠ [] ∧ Timely quiet more (buf ++ a.chunk)

/-- Why the reading stops before the piece. -/
def Arrival.Stops (quiet : ℚ) (buf : List UInt8) (a : Arrival) : Prop :=
  a.chunk = [] ∨ preludeTimeout quiet buf < a.gap

/-- What is read is the pieces up to the first pause, or the end of the connection. -/
theorem readPieces_spec (quiet : ℚ) (arrivals : List Arrival) (buf : List UInt8) :
    ∃ k ≤ arrivals.length,
      readPieces quiet arrivals buf = buf ++ (arrivals.take k).flatMap Arrival.chunk ∧
      Timely quiet (arrivals.take k) buf ∧
      ∀ a, arrivals[k]? = some a → a.Stops quiet (readPieces quiet arrivals buf) := by
  induction arrivals generalizing buf with
  | nil => exact ⟨0, Nat.le_refl 0, (List.append_nil buf).symm, trivial, fun a ha => by cases ha⟩
  | cons a more ih =>
    by_cases hlate : a.gap > preludeTimeout quiet buf
    · have hstop : readPieces quiet (a :: more) buf = buf := by rw [readPieces, if_pos hlate]
      rw [hstop]
      refine ⟨0, Nat.zero_le _, (List.append_nil buf).symm, trivial, fun b hb => .inr ?_⟩
      obtain rfl : a = b := Option.some.inj hb
      exact hlate
    by_cases hempty : a.chunk = []
    · have hstop : readPieces quiet (a :: more) buf = buf := by
        rw [readPieces, if_neg hlate, if_pos hempty]
      rw [hstop]
      refine ⟨0, Nat.zero_le _, (List.append_nil buf).symm, trivial, fun b hb => .inl ?_⟩
      obtain rfl : a = b := Option.some.inj hb
      exact hempty
    · have hgo : readPieces quiet (a :: more) buf = readPieces quiet more (buf ++ a.chunk) := by
        rw [readPieces, if_neg hlate, if_neg hempty]
      obtain ⟨k, hk, hread, htimely, hstops⟩ := ih (buf ++ a.chunk)
      rw [hgo]
      refine ⟨k + 1, Nat.succ_le_succ hk, ?_, ⟨not_lt.mp hlate, hempty, htimely⟩, hstops⟩
      rw [hread, List.take_succ_cons, List.flatMap_cons, List.append_assoc]

/-- Pieces that come in time are all read. -/
theorem readPieces_timely {quiet : ℚ} {arrivals : List Arrival} {buf : List UInt8}
    (h : Timely quiet arrivals buf) :
    readPieces quiet arrivals buf = buf ++ arrivals.flatMap Arrival.chunk := by
  induction arrivals generalizing buf with
  | nil => exact (List.append_nil buf).symm
  | cons a more ih =>
    obtain ⟨hgap, hchunk, hmore⟩ := h
    rw [readPieces, if_neg (not_lt.mpr hgap), if_neg hchunk, ih hmore, List.flatMap_cons,
      List.append_assoc]

/-! ## All of it -/

/-- The uploads of a restore, each with its two attempts to connect. -/
def overSockets (attempts : List (Attempt × Attempt)) : Uploader := fun i u =>
  u.sendOver (attempts.getD i (.failed, .failed)).1 (attempts.getD i (.failed, .failed)).2

/-- What the attempts of each upload come to. -/
def contacts (attempts : List (Attempt × Attempt)) : List Contact :=
  attempts.map fun a => (connectWithRetry a.1 a.2).contact

theorem overSockets_eq (attempts : List (Attempt × Attempt)) :
    overSockets attempts = overContacts (contacts attempts) := by
  funext i u
  unfold overSockets overContacts contacts
  rw [sendOver_eq, List.getD_eq_getElem?_getD, List.getD_eq_getElem?_getD, List.getElem?_map]
  cases attempts[i]? with
  | none => rfl
  | some a => rfl

/-- A body of two octets, in pieces, at the second attempt. -/
example : binaryRequestOver [] .failed (.opened false ⟨[0, 0, 0, 2, 7, 9, 1], false, [2, 0, 5]⟩) =
    .ok [7, 9] := by
  rw [binaryRequestOver_eq]
  decide

end Bmdwire.Ultimatte
