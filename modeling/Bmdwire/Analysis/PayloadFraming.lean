import Bmdwire.Program.Fields
import Mathlib.Data.List.GetD
import Mathlib.Data.List.Infix

/-!
# Payload framing

`decode_packet` follows the lengths that the headers declare. What it yields tiles the payload
when these lengths are true (`Framed`): it reads a header that is cut short, takes a length that
is too small for its own header, and cuts off a body that is not all there.
-/

set_option autoImplicit false

namespace Bmdwire

open Packet (packU16 unpackU16)

/-! ## Fields that tile a payload -/

/-- The fields are those of pieces that follow one another from the front of the payload, each
as long as it declares; they end at its end, or with a `ConnectionError`. -/
def Tiled (data : Bytes) (r : List (Bytes × Bytes) × Decoding) : Prop :=
  ∃ pieces : List Bytes,
    (∀ piece ∈ pieces, 8 ≤ piece.length ∧ declaredLength piece = piece.length) ∧
    r.1 = pieces.map (fun piece => (headerCode piece, piece.drop 8)) ∧
    (r.2 = .consumed ∧ pieces.flatten = data ∨
      r.2 = .connectionError ∧ pieces.flatten <+: data)

/-- From the front to the end, or to a zero length, every header is whole, and it declares no
less than itself and no more than is there. -/
inductive Framed : Bytes → Prop
  | nil : Framed []
  | zero {rest : Bytes} : 8 ≤ rest.length → declaredLength rest = 0 → Framed rest
  | field {rest : Bytes} : 8 ≤ declaredLength rest → declaredLength rest ≤ rest.length →
      Framed (rest.drop (declaredLength rest)) → Framed rest

theorem declaredLength_append {piece : Bytes} (more : Bytes) (h : 2 ≤ piece.length) :
    declaredLength (piece ++ more) = declaredLength piece := by
  unfold declaredLength unpackU16
  rw [List.getD_append _ _ _ _ (by omega), List.getD_append _ _ _ _ (by omega)]

theorem headerCode_append {piece : Bytes} (more : Bytes) (h : 8 ≤ piece.length) :
    headerCode (piece ++ more) = headerCode piece := by
  have hdrop : 4 ≤ (piece.drop 4).length := by
    rw [List.length_drop]
    omega
  unfold headerCode
  rw [List.drop_append_of_le_length (by omega), List.take_append_of_le_length hdrop]

theorem fieldBody_append {piece : Bytes} (more : Bytes) (h : 8 ≤ piece.length)
    (hlength : declaredLength piece = piece.length) :
    fieldBody (piece ++ more) = piece.drop 8 := by
  unfold fieldBody
  rw [declaredLength_append more (by omega), hlength, List.take_left]

/-! ## The loop -/

theorem decodePacket_nil : decodePacket [] = ([], .consumed) := by
  simp [decodePacket]

theorem decodePacket_short {rest : Bytes} (hne : rest ≠ []) (h : rest.length < 8) :
    decodePacket rest = ([], .structError) := by
  rw [decodePacket, if_neg hne, if_pos h]

theorem decodePacket_zero {rest : Bytes} (h : 8 ≤ rest.length) (hzero : declaredLength rest = 0) :
    decodePacket rest = ([], .connectionError) := by
  have hne : rest ≠ [] := List.ne_nil_of_length_pos (by omega)
  rw [decodePacket, if_neg hne, if_neg (by omega), dif_pos hzero]

theorem decodePacket_field {rest : Bytes} (h : 8 ≤ rest.length) (hpos : declaredLength rest ≠ 0) :
    decodePacket rest =
      ((headerCode rest, fieldBody rest) :: (decodePacket (rest.drop (declaredLength rest))).1,
        (decodePacket (rest.drop (declaredLength rest))).2) := by
  have hne : rest ≠ [] := List.ne_nil_of_length_pos (by omega)
  rw [decodePacket, if_neg hne, if_neg (by omega), dif_neg hpos]

/-- One piece off the front. -/
theorem decodePacket_append {piece : Bytes} (more : Bytes) (h : 8 ≤ piece.length)
    (hlength : declaredLength piece = piece.length) :
    decodePacket (piece ++ more) =
      ((headerCode piece, piece.drop 8) :: (decodePacket more).1, (decodePacket more).2) := by
  have hlong : 8 ≤ (piece ++ more).length := by
    rw [List.length_append]
    omega
  have hdeclared : declaredLength (piece ++ more) = piece.length := by
    rw [declaredLength_append more (by omega), hlength]
  rw [decodePacket_field hlong (by omega), headerCode_append more h,
    fieldBody_append more h hlength, hdeclared, List.drop_left]

/-- The first of some pieces that tile a payload is what the payload declares. -/
theorem Tiled.first {data : Bytes} {r : List (Bytes × Bytes) × Decoding} {field : Bytes × Bytes}
    {fields : List (Bytes × Bytes)} (h : Tiled data r) (hr : r.1 = field :: fields) :
    8 ≤ declaredLength data ∧ declaredLength data ≤ data.length ∧
      Tiled (data.drop (declaredLength data)) (fields, r.2) := by
  obtain ⟨pieces, hpieces, hfields, hend⟩ := h
  cases pieces with
  | nil =>
    rw [hr] at hfields
    cases hfields
  | cons piece pieces =>
    rw [hr, List.map_cons] at hfields
    obtain ⟨hlong, hlength⟩ := hpieces piece List.mem_cons_self
    have hmore := fun p hp => hpieces p (List.mem_cons_of_mem _ hp)
    have hprefix : ∃ more, data = piece ++ more := by
      rcases hend with ⟨-, hdata⟩ | ⟨-, more, hdata⟩
      · exact ⟨pieces.flatten, by rw [← hdata, List.flatten_cons]⟩
      · exact ⟨pieces.flatten ++ more, by
          rw [← hdata, List.flatten_cons, List.append_assoc]⟩
    obtain ⟨more, rfl⟩ := hprefix
    have hdeclared : declaredLength (piece ++ more) = piece.length := by
      rw [declaredLength_append more (by omega), hlength]
    rw [hdeclared, List.drop_left]
    refine ⟨hlong, by simp, pieces, hmore, (List.cons.inj hfields).2, ?_⟩
    rcases hend with ⟨hr, hdata⟩ | ⟨hr, hdata⟩
    · rw [List.flatten_cons] at hdata
      exact .inl ⟨hr, List.append_cancel_left hdata⟩
    · rw [List.flatten_cons] at hdata
      exact .inr ⟨hr, (List.prefix_append_right_inj piece).mp hdata⟩

/-- A piece in front of a payload that is tiled. -/
theorem Tiled.cons {piece more : Bytes} (hlong : 8 ≤ piece.length)
    (hlength : declaredLength piece = piece.length) (h : Tiled more (decodePacket more)) :
    Tiled (piece ++ more) (decodePacket (piece ++ more)) := by
  obtain ⟨pieces, hpieces, hfields, hend⟩ := h
  rw [decodePacket_append more hlong hlength]
  refine ⟨piece :: pieces, ?_, by rw [hfields, List.map_cons], ?_⟩
  · intro p hp
    rcases List.mem_cons.mp hp with rfl | hp
    · exact ⟨hlong, hlength⟩
    · exact hpieces p hp
  · rw [List.flatten_cons]
    rcases hend with ⟨hr, hdata⟩ | ⟨hr, hdata⟩
    · exact .inl ⟨hr, by rw [hdata]⟩
    · exact .inr ⟨hr, (List.prefix_append_right_inj piece).mpr hdata⟩

theorem Framed.tiled {data : Bytes} (h : Framed data) : Tiled data (decodePacket data) := by
  induction h with
  | nil =>
    rw [decodePacket_nil]
    exact ⟨[], by simp, rfl, .inl ⟨rfl, rfl⟩⟩
  | zero hlong hzero =>
    rw [decodePacket_zero hlong hzero]
    exact ⟨[], by simp, rfl, .inr ⟨rfl, List.nil_prefix⟩⟩
  | @field rest hmin hmax _ ih =>
    have htake : (rest.take (declaredLength rest)).length = declaredLength rest := by
      rw [List.length_take]
      omega
    have hsplit := List.take_append_drop (declaredLength rest) rest
    have hdeclared : declaredLength (rest.take (declaredLength rest)) = declaredLength rest := by
      conv_rhs => rw [← hsplit]
      rw [declaredLength_append _ (by omega)]
    have hcons := Tiled.cons (by omega) (hdeclared.trans htake.symm) ih
    rwa [hsplit] at hcons

theorem framed_of_tiled (data : Bytes) (h : Tiled data (decodePacket data)) : Framed data := by
  induction hn : data.length using Nat.strong_induction_on generalizing data with
  | _ n ih =>
    by_cases hne : data = []
    · rw [hne]
      exact .nil
    by_cases hshort : data.length < 8
    · rw [decodePacket_short hne hshort] at h
      obtain ⟨-, -, -, ⟨hr, -⟩ | ⟨hr, -⟩⟩ := h <;> cases hr
    by_cases hzero : declaredLength data = 0
    · exact .zero (by omega) hzero
    rw [decodePacket_field (by omega) hzero] at h
    obtain ⟨hmin, hmax, hrest⟩ := h.first rfl
    refine .field hmin hmax (ih _ ?_ _ hrest rfl)
    rw [List.length_drop]
    omega

theorem tiled_iff (data : Bytes) : Tiled data (decodePacket data) ↔ Framed data :=
  ⟨framed_of_tiled data, Framed.tiled⟩

/-! ## Commands -/

theorem frameCommand_eq {code : WireCode} {body part : Bytes}
    (h : frameCommand code body = some part) :
    8 ≤ part.length ∧ declaredLength part = part.length ∧ headerCode part = code.octets ∧
      part.drop 8 = body := by
  unfold frameCommand at h
  split at h
  next hfits =>
    obtain rfl := Option.some.inj h
    have hcode := code.length_octets
    have hlength : (packU16 (body.length + 8) ++ [0, 0] ++ code.octets ++ body).length =
        body.length + 8 := by
      simp only [packU16, List.length_append, List.length_cons, List.length_nil, hcode]
      omega
    refine ⟨by omega, ?_, ?_, ?_⟩
    · rw [hlength]
      simp only [declaredLength, unpackU16, packU16, List.cons_append, List.nil_append,
        List.getD_cons_zero, List.getD_cons_succ, UInt8.toNat_ofNat']
      omega
    · simp only [headerCode, packU16, List.cons_append, List.nil_append, List.drop_succ_cons,
        List.drop_zero]
      rw [← hcode, List.take_left]
    · simp only [packU16, List.cons_append, List.nil_append, List.drop_succ_cons]
      rw [← hcode, List.drop_left]
  next => cases h

/-- The code and the body of a command on the wire. -/
def Outgoing.field (c : Outgoing) : Bytes × Bytes := (c.code.octets, c.body.getD [])

theorem Outgoing.getCommand_eq {c : Outgoing} {part : Bytes} (h : c.getCommand = some part) :
    8 ≤ part.length ∧ declaredLength part = part.length ∧
      (headerCode part, part.drop 8) = c.field := by
  obtain ⟨body, hbody, hframe⟩ := Option.bind_eq_some_iff.mp h
  obtain ⟨hlong, hlength, hcode, hdrop⟩ := frameCommand_eq hframe
  refine ⟨hlong, hlength, ?_⟩
  rw [hcode, hdrop, Outgoing.field, hbody, Option.getD_some]

theorem decodePacket_commands {commands : List Outgoing} {parts : List Bytes}
    (h : commands.mapM Outgoing.getCommand = some parts) :
    decodePacket parts.flatten = (commands.map Outgoing.field, .consumed) := by
  induction commands generalizing parts with
  | nil =>
    obtain rfl : [] = parts := by simpa using h
    exact decodePacket_nil
  | cons c commands ih =>
    rw [List.mapM_cons] at h
    obtain ⟨part, hpart, h⟩ := Option.bind_eq_some_iff.mp h
    obtain ⟨more, hmore, h⟩ := Option.bind_eq_some_iff.mp h
    obtain rfl : part :: more = parts := Option.some.inj h
    obtain ⟨hlong, hlength, hfield⟩ := c.getCommand_eq hpart
    rw [List.flatten_cons, decodePacket_append _ hlong hlength, ih hmore, hfield, List.map_cons]

/-- A payload is decoded into fields that tile it if and only if it is framed, and the commands
that were put together into one come back from it. -/
theorem decodePacket_tiled_iff (data : Bytes) :
    (Tiled data (decodePacket data) ↔ Framed data) ∧
    ∀ (commands : List Outgoing) (parts : List Bytes),
      commands.mapM Outgoing.getCommand = some parts →
        decodePacket parts.flatten = (commands.map Outgoing.field, .consumed) :=
  ⟨tiled_iff data, fun _ _ => decodePacket_commands⟩

/-- The acknowledgement of a download's chunk, and a payload that is framed. -/
theorem decodePacket_tiled_iff_ack :
    decodePacket [0, 12, 0, 0, 0x46, 0x54, 0x55, 0x41, 0, 1, 0, 2] =
        ([([0x46, 0x54, 0x55, 0x41], [0, 1, 0, 2])], .consumed) ∧
      Tiled [0, 0, 0, 0, 0, 0, 0, 0] (decodePacket [0, 0, 0, 0, 0, 0, 0, 0]) :=
  ⟨(decodePacket_tiled_iff []).2 [.packed ⟨[0x46, 0x54, 0x55, 0x41], rfl⟩ (some [0, 1, 0, 2])]
      [[0, 12, 0, 0, 0x46, 0x54, 0x55, 0x41, 0, 1, 0, 2]] (by decide),
    (decodePacket_tiled_iff _).1.mpr (.zero (by decide) (by decide))⟩

/-- A field that declares twelve octets, of which eight are there, is yielded all the same. -/
theorem decodePacket_short_field :
    decodePacket [0, 12, 0, 0, 0x56, 0x69, 0x64, 0x4d] =
        ([([0x56, 0x69, 0x64, 0x4d], [])], .consumed) ∧
      ¬ Tiled [0, 12, 0, 0, 0x56, 0x69, 0x64, 0x4d]
        (decodePacket [0, 12, 0, 0, 0x56, 0x69, 0x64, 0x4d]) := by
  have hframed : ¬ Framed [0, 12, 0, 0, 0x56, 0x69, 0x64, 0x4d] := by
    intro h
    cases h with
    | zero _ hzero => cases hzero
    | field _ hmax _ => exact absurd hmax (by decide)
  refine ⟨?_, fun h => hframed (framed_of_tiled _ h)⟩
  rw [decodePacket_field (by decide) (by decide)]
  exact congrArg (fun r : List (Bytes × Bytes) × Decoding => (_ :: r.1, r.2)) decodePacket_nil

end Bmdwire
