import Bmdwire.Analysis.LayoutPacking
import Bmdwire.Analysis.PayloadFraming
import Bmdwire.Program.Commands

/-!
# What a packet of commands says

Every layout that the library declares is proper, its mask has room for its bits, and no two have
the same code. So a command is made of every object whose values are in range, and a payload that
`send_commands` puts together is taken apart by `decode_packet` into the payloads of its commands,
and says which commands these were, which of their masked values were given, and what they were
(`commands_told`).
-/

set_option autoImplicit false

namespace Bmdwire


/-! ## The declarations -/

/-- The commands that the library declares. -/
def declaredCommands : List Layout := colorGeneratorCommand :: Commands.unscaled

/-- The bits of a mask are within its width. -/
def Layout.BitsFit (layout : Layout) : Prop :=
  ∀ f ∈ layout.fields, ∀ bit ∈ f.maskBit.toList, bit < 8 * layout.maskSize

instance Layout.BitsFit.decidable (layout : Layout) : Decidable layout.BitsFit := by
  unfold BitsFit
  infer_instance

instance Layout.Proper.decidable (layout : Layout) : Decidable layout.Proper :=
  decidable_of_iff
    ((∀ f ∈ layout.fields, f.offset + f.type.size ≤ layout.size) ∧
      (layout.fields.Pairwise fun f g =>
        f.offset + f.type.size ≤ g.offset ∨ g.offset + g.type.size ≤ f.offset) ∧
      (∀ place ∈ layout.maskAt.toList, place + layout.maskSize ≤ layout.size) ∧
      ∀ place ∈ layout.maskAt.toList, ∀ f ∈ layout.fields,
        f.offset + f.type.size ≤ place ∨ place + layout.maskSize ≤ f.offset)
    ⟨fun h => ⟨h.1, h.2.1, fun place hplace => h.2.2.1 place (Option.mem_toList.mpr hplace),
      fun place hplace => h.2.2.2 place (Option.mem_toList.mpr hplace)⟩,
    fun h => ⟨h.inside, h.apart,
      fun place hplace => h.mask_inside place (Option.mem_toList.mp hplace),
      fun place hplace => h.mask_apart place (Option.mem_toList.mp hplace)⟩⟩

theorem proper_of_declared : ∀ layout ∈ declaredCommands, layout.Proper := by
  decide

theorem bitsFit_of_declared : ∀ layout ∈ declaredCommands, layout.BitsFit := by
  decide

theorem size_of_declared : ∀ layout ∈ declaredCommands, layout.size ≤ 1100 := by
  decide

/-- No two have the same code. -/
theorem codes_nodup : (declaredCommands.map Layout.code).Nodup := by
  decide

section
variable {layout : Layout} {attrs : Attributes}

theorem maskFits_of_bitsFit (h : layout.BitsFit) : layout.MaskFits attrs := by
  intro place _
  rw [pow_octets]
  refine Nat.lt_pow_two_of_testBit _ fun i hi => ?_
  rw [← Bool.not_eq_true, testBit_maskOf]
  rintro ⟨f, hf, -, hbit⟩
  exact absurd (h f hf i (Option.mem_toList.mpr hbit)) (Nat.not_lt.mpr hi)

/-- The code says which it is. -/
theorem layout_of_code {layout' : Layout} (h : layout ∈ declaredCommands)
    (h' : layout' ∈ declaredCommands) (hcode : layout.code = layout'.code) : layout = layout' :=
  List.inj_on_of_nodup_map codes_nodup h h' hcode

end

/-! ## What the wire says of a value -/

/-- The values are the same on the wire: the same number, the same truth, the same text; with a
scale, the same integer of the rounded product. -/
def FieldType.Same (type : FieldType) (value value' : Value) : Prop :=
  match type with
  | .number _ _ scale =>
    if scale.scales then wireInt scale value = wireInt scale value'
    else value.number? = value'.number?
  | .boolean => value.truthy = value'.truthy
  | .string _ => value = value'

/-- Values that read back from the same octets are the same. -/
theorem FieldType.ReadsBack.same {type : FieldType} {value value' : Value} {octets : Bytes}
    (h : type.ReadsBack value octets) (h' : type.ReadsBack value' octets) :
    type.Same value value' := by
  cases type with
  | number width signed scale =>
    unfold FieldType.ReadsBack at h h'
    unfold FieldType.Same
    dsimp only at h h' ⊢
    split at h
    · rename_i hscales
      rw [if_pos hscales] at h' ⊢
      rw [h.1, h'.1]
    · rename_i hscales
      rw [if_neg hscales] at h' ⊢
      obtain ⟨n, hn, hread⟩ := h
      obtain ⟨n', hn', hread'⟩ := h'
      have hsame : n = n' := by
        have hint := hread.symm.trans hread'
        injection hint
      rw [hn, hn', hsame]
  | boolean =>
    have hbool := Eq.trans (Eq.symm h) h'
    injection hbool
  | string size => exact Eq.trans (Eq.symm h) h'

/-! ## A packet -/

/-- An object of a declared class, with values in range and a tail that leaves room for the
header. -/
structure DeclaredCommand where
  layout : Layout
  attrs : Attributes
  declared : layout ∈ declaredCommands
  inRange : layout.InRange attrs
  short : (layout.tailData attrs).length < 0xF000

namespace DeclaredCommand

/-- The object, ready for `get_command`. -/
def outgoing (c : DeclaredCommand) : Outgoing := .declared (c.layout.send c.attrs)

/-- What it is on the wire. -/
def wire (c : DeclaredCommand) : Bytes := c.outgoing.getCommand.getD []

/-- The objects are of one class, set the same bits in the mask, and have the same values on the
wire where both give them. -/
structure Same (c d : DeclaredCommand) : Prop where
  layout : c.layout = d.layout
  mask : ∀ i, c.layout.maskAt.isSome →
    ((∃ f ∈ c.layout.fields, f.Given c.attrs ∧ f.maskBit = some i) ↔
      ∃ f ∈ c.layout.fields, f.Given d.attrs ∧ f.maskBit = some i)
  values : ∀ f ∈ c.layout.fields, ∀ value value', c.attrs f.name = some value →
    d.attrs f.name = some value' → f.type.Same value value'
  tail : c.layout.tailData c.attrs = c.layout.tailData d.attrs

section
variable (c d : DeclaredCommand)

/-- The command is made of what the payload holds. -/
theorem getCommand_payload : ∃ command, c.outgoing.getCommand = some command ∧
    frameCommand c.layout.code (c.layout.payload c.attrs) = some command := by
  have hproper := proper_of_declared c.layout c.declared
  have hmask : c.layout.MaskFits c.attrs :=
    maskFits_of_bitsFit (bitsFit_of_declared c.layout c.declared)
  have hsize := size_of_declared c.layout c.declared
  have hlength := @Layout.length_payload _ c.attrs hproper
  have hshort := c.short
  have hfits : (c.layout.payload c.attrs).length + 8 < 0x10000 := by omega
  obtain ⟨hbuffer, -⟩ | ⟨-, hno⟩ := Layout.buffer_send hproper c.inRange.packable
  · refine ⟨_, ?_, if_pos hfits⟩
    show ((c.layout.send c.attrs).buffer.bind (frameCommand c.layout.code)) = _
    rw [hbuffer]
    exact if_pos hfits
  · exact absurd hmask hno

/-- A command is always made. -/
theorem getCommand_wire : c.outgoing.getCommand = some c.wire := by
  obtain ⟨command, hcommand, -⟩ := c.getCommand_payload
  unfold wire
  rw [hcommand]
  rfl

/-- It carries what is given. -/
theorem carries : ∃ payload, c.outgoing.field = (c.layout.code.octets, payload) ∧
    Carries c.layout c.attrs c.wire payload := by
  have hmask : c.layout.MaskFits c.attrs :=
    maskFits_of_bitsFit (bitsFit_of_declared c.layout c.declared)
  obtain ⟨command, hcommand, hframe⟩ := c.getCommand_payload
  obtain rfl : command = c.wire := Option.some.inj (hcommand.symm.trans c.getCommand_wire)
  obtain ⟨-, -, hfield⟩ := c.outgoing.getCommand_eq hcommand
  obtain ⟨-, -, hcode, hdrop⟩ := frameCommand_eq hframe
  refine ⟨_, ?_, Layout.carries (proper_of_declared c.layout c.declared) c.inRange hmask hframe⟩
  rw [← hfield, hcode, hdrop]

/-- Objects that are the same on the wire are the same. -/
theorem same_of_field (h : c.outgoing.field = d.outgoing.field) : c.Same d := by
  obtain ⟨payload, hfield, hc⟩ := c.carries
  obtain ⟨payload', hfield', hd⟩ := d.carries
  rw [hfield, hfield', Prod.mk.injEq] at h
  obtain ⟨hcode, rfl⟩ := h
  have hlayout : c.layout = d.layout := by
    refine layout_of_code c.declared d.declared ?_
    cases hcl : c.layout.code
    cases hdl : d.layout.code
    rw [hcl, hdl] at hcode
    congr
  refine ⟨hlayout, fun i hmask => ?_, fun f hf value value' hvalue hvalue' => ?_, ?_⟩
  · obtain ⟨place, hplace⟩ := Option.isSome_iff_exists.mp hmask
    have hmask' := hd.mask
    rw [← hlayout] at hmask'
    exact (hc.mask place hplace i).symm.trans (hmask' place hplace i)
  · have hfields := hd.fields
    rw [← hlayout] at hfields
    exact (hc.fields f hf value hvalue).same (hfields f hf value' hvalue')
  · have htail := hd.tail
    rw [← hlayout] at htail
    exact hc.tail.symm.trans htail

end

end DeclaredCommand

/-- What `send_commands` puts together of these. -/
def packetOf (batch : List DeclaredCommand) : Bytes := (batch.map DeclaredCommand.wire).flatten

section
variable (batch : List DeclaredCommand)

theorem mapM_getCommand :
    (batch.map DeclaredCommand.outgoing).mapM Outgoing.getCommand =
      some (batch.map DeclaredCommand.wire) := by
  induction batch with
  | nil => rfl
  | cons c batch ih =>
    rw [List.map_cons, List.mapM_cons, c.getCommand_wire, ih]
    rfl

theorem sendCommands_packetOf :
    sendCommands (batch.map DeclaredCommand.outgoing) =
      if (packetOf batch).length > 1300 then .valueError else .sent (packetOf batch) := by
  unfold sendCommands
  rw [mapM_getCommand]
  rfl

theorem decodePacket_packetOf :
    decodePacket (packetOf batch) = (batch.map fun c => c.outgoing.field, .consumed) := by
  have h := decodePacket_commands (mapM_getCommand batch)
  rwa [List.map_map] at h

/-- Packets that are the same are of commands that are the same. -/
theorem same_of_packetOf {batch other : List DeclaredCommand}
    (h : packetOf batch = packetOf other) : List.Forall₂ DeclaredCommand.Same batch other := by
  have hfields : (batch.map fun c => c.outgoing.field) = other.map fun d => d.outgoing.field := by
    have hdecoded := decodePacket_packetOf batch
    rw [h, decodePacket_packetOf other] at hdecoded
    exact (congrArg Prod.fst hdecoded).symm
  have hforall : List.Forall₂ (fun c d : DeclaredCommand => c.outgoing.field = d.outgoing.field)
      batch other := by
    rw [← List.forall₂_eq_eq_eq, List.forall₂_map_left_iff, List.forall₂_map_right_iff] at hfields
    exact hfields
  exact hforall.imp fun c d hsame => c.same_of_field d hsame

end

/-- The third input goes to the program of the first M/E. -/
def thirdInput : DeclaredCommand where
  layout := Commands.programInputCommand
  attrs name :=
    if name = "index" then some (.int 0) else if name = "source" then some (.int 3) else none
  declared := by decide
  inRange := by
    refine ⟨?_, fun tail htail => by cases htail⟩
    intro f hf value hvalue
    simp only [Commands.programInputCommand, Commands.unmasked, List.mem_cons, List.not_mem_nil,
      or_false] at hf
    obtain rfl | rfl := hf
    · obtain rfl : Value.int 0 = value := Option.some.inj hvalue
      exact ⟨0, by decide, by decide⟩
    · obtain rfl : Value.int 3 = value := Option.some.inj hvalue
      exact ⟨3, by decide, by decide⟩
  short := by decide

theorem packetOf_thirdInput :
    packetOf [thirdInput] = [0, 12, 0, 0, 0x43, 0x50, 0x67, 0x49, 0, 0, 0, 3] := by
  decide

end Bmdwire
