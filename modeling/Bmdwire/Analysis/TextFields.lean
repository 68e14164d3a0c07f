import Bmdwire.Analysis.LayoutPacking

/-!
# Text in commands

A text is put into a field of so many octets and cut where the field ends. The octets before the
first NUL are the beginning of the text, in whole characters, exactly when no character
straddles the end; a name or a description ends in a NUL exactly when it leaves room for one
or has one in time (`validText_iff`).
-/

set_option autoImplicit false

namespace Bmdwire

open Library (encodeUtf8 paddedTo beforeNul slice splice Straddles)
open Packet (packU16)

/-- The octets fill the field, and those before the first NUL are the beginning of the text in
whole characters. -/
def KeepsText (text : Line) (size : ℕ) (field : Bytes) : Prop :=
  field.length = size ∧ ∃ start, start <+: text ∧ beforeNul field = encodeUtf8 start

/-- The field holds a NUL. -/
def Terminated (field : Bytes) : Prop := 0 ∈ field

/-- The text leaves room for a NUL in a field of so many octets, or has one that begins within
it. -/
def LeavesNul (text : Line) (size : ℕ) : Prop :=
  (encodeUtf8 text).length < size ∨ ∃ before c after, text = before ++ c :: after ∧
    c.toNat = 0 ∧ (encodeUtf8 before).length < size

theorem keepsText_paddedTo (text : Line) (size : ℕ) :
    KeepsText text size (paddedTo size (encodeUtf8 text)) ↔ ¬ Straddles text size := by
  rw [KeepsText, and_iff_right (Library.length_paddedTo ..), Library.exists_encode_iff]

theorem terminated_paddedTo (text : Line) (size : ℕ) :
    Terminated (paddedTo size (encodeUtf8 text)) ↔ LeavesNul text size :=
  Library.zero_mem_paddedTo

/-- A text that straddles the end has no NUL in the field. -/
theorem not_leavesNul_of_straddles {text : Line} {size : ℕ} (h : Straddles text size) :
    ¬ LeavesNul text size := by
  rw [← terminated_paddedTo]
  obtain ⟨before, c, after, rfl, hnul, -, hhigh⟩ := h
  have hwhole : encodeUtf8 (before ++ c :: after) =
      encodeUtf8 (before ++ [c]) ++ encodeUtf8 after := by simp
  rw [Terminated, paddedTo, hwhole, List.take_append_of_le_length hhigh.le, List.mem_append,
    List.length_append, List.mem_replicate]
  rintro (hmem | ⟨hroom, -⟩)
  · exact Library.zero_notMem_encode hnul (List.mem_of_mem_take hmem)
  · omega

/-- A name is kept and ends in a NUL exactly when it leaves one. -/
theorem keepsText_and_terminated (text : Line) (size : ℕ) :
    KeepsText text size (paddedTo size (encodeUtf8 text)) ∧
        Terminated (paddedTo size (encodeUtf8 text)) ↔ LeavesNul text size := by
  rw [keepsText_paddedTo, terminated_paddedTo]
  exact ⟨fun h => h.2, fun h => ⟨fun hstraddles => not_leavesNul_of_straddles hstraddles h, h⟩⟩

/-- Cutting before the field does makes no difference. -/
theorem paddedTo_take (size : ℕ) (octets : Bytes) :
    paddedTo size (octets.take size) = paddedTo size octets := by
  rw [paddedTo, paddedTo, List.take_take, Nat.min_self, List.length_take]
  congr 2
  omega

/-! ## Declared fields -/

section
variable {layout : Layout} {attrs : Attributes}

/-- The command is made from values that can be packed. -/
theorem packable_of_getCommand {command : Bytes}
    (h : (Outgoing.declared (layout.send attrs)).getCommand = some command) :
    layout.Packable attrs := by
  obtain ⟨body, hbody, -⟩ := Option.bind_eq_some_iff.mp h
  obtain ⟨r, hloop, -⟩ := Option.bind_eq_some_iff.mp hbody
  obtain ⟨hpackable, buf, mask, htail⟩ := packable_of_packFields hloop
  refine ⟨hpackable, fun tail heq value hvalue => ?_⟩
  cases hbytes : value.bytes? with
  | some bs => exact ⟨bs, rfl⟩
  | none =>
    rw [heq] at htail
    simp [Send.packFields, Send.packField, Tail.written, hvalue, hbytes] at htail

/-- A text in a declared field. -/
theorem slice_string (hproper : layout.Proper) {command : Bytes}
    (h : (Outgoing.declared (layout.send attrs)).getCommand = some command) {f : Field}
    (hf : f ∈ layout.fields) {size : ℕ} (hsize : f.type = .string size) {text : Line}
    (htext : attrs f.name = some (.text text)) :
    slice (8 + f.offset) size command = paddedTo size (encodeUtf8 text) := by
  have hpackable := packable_of_getCommand h
  obtain ⟨body, hbody, hframe⟩ := Option.bind_eq_some_iff.mp h
  obtain ⟨hbuffer, -⟩ | ⟨hbuffer, -⟩ := Layout.buffer_send hproper hpackable
  · obtain rfl : layout.payload attrs = body := Option.some.inj (hbuffer.symm.trans hbody)
    have hpack := Layout.pack_slice hproper hpackable hf htext
    rw [hsize] at hpack
    rw [slice_command hframe]
    exact (Option.some.inj hpack).symm
  · cases hbuffer.symm.trans hbody

end

/-! ## Input labels -/

theorem packInto_eq_some {offset : ℕ} {octets buf buf' : Bytes}
    (h : Send.packInto offset octets buf = some buf') :
    offset + octets.length ≤ buf.length ∧ buf' = splice offset octets buf := by
  unfold Send.packInto at h
  split at h
  · exact ⟨‹_›, (Option.some.inj h).symm⟩
  · cases h

/-- A text that is given stands in its place. -/
theorem slice_packText {offset size : ℕ} {text : Option Line} {buf buf' : Bytes}
    (h : packText offset size text buf = some buf') : ∀ given, text = some given →
      slice offset size buf' = paddedTo size (encodeUtf8 given) := by
  rintro given rfl
  obtain ⟨hinside, rfl⟩ := packInto_eq_some h
  have hwritten := Library.slice_splice hinside
  rw [Library.length_paddedTo] at hwritten
  rw [hwritten, paddedTo_take]

theorem slice_packText_of_apart {offset size : ℕ} {text : Option Line} {buf buf' : Bytes}
    (h : packText offset size text buf = some buf') {place width : ℕ}
    (hplace : place + width ≤ offset) : slice place width buf' = slice place width buf := by
  cases text with
  | none =>
    obtain rfl := Option.some.inj h
    rfl
  | some text =>
    obtain ⟨hinside, rfl⟩ := packInto_eq_some h
    exact Library.slice_splice_of_apart hinside (.inl hplace)

theorem slice_packShort_of_apart {offset : ℕ} {n : Option ℕ} {buf buf' : Bytes}
    (h : packShort offset n buf = some buf') {place width : ℕ} (hplace : place + width ≤ offset) :
    slice place width buf' = slice place width buf := by
  cases n with
  | none =>
    obtain rfl := Option.some.inj h
    rfl
  | some n =>
    obtain ⟨octets, -, h⟩ := Option.bind_eq_some_iff.mp h
    obtain ⟨hinside, rfl⟩ := packInto_eq_some h
    exact Library.slice_splice_of_apart hinside (.inl hplace)

/-- The two labels of an input stand in their places. -/
theorem slice_labels {sourceIndex : ℕ} {label shortLabel : Option Line} {portType : Option ℕ}
    {command : Bytes}
    (h : (inputPropertiesCommand sourceIndex label shortLabel portType).getCommand =
      some command) :
    (∀ text, label = some text → slice 12 20 command = paddedTo 20 (encodeUtf8 text)) ∧
      ∀ text, shortLabel = some text → slice 32 4 command = paddedTo 4 (encodeUtf8 text) := by
  obtain ⟨body, hbody, hframe⟩ := Option.bind_eq_some_iff.mp h
  obtain ⟨buf₃, hbody, hport⟩ := Option.bind_eq_some_iff.mp hbody
  obtain ⟨buf₂, hbody, hshort⟩ := Option.bind_eq_some_iff.mp hbody
  obtain ⟨buf₁, -, hlabel⟩ := Option.bind_eq_some_iff.mp hbody
  rw [show 12 = 8 + 4 from rfl, show 32 = 8 + 24 from rfl, slice_command hframe,
    slice_command hframe, slice_packShort_of_apart hport (by decide),
    slice_packShort_of_apart hport (by decide), slice_packText_of_apart hshort (by decide)]
  exact ⟨slice_packText hlabel, slice_packText hshort⟩

/-! ## Names and descriptions of files -/

/-- The octets of a text that may be missing. -/
theorem getD_map_encode (text : Option Line) :
    (text.map encodeUtf8).getD [] = encodeUtf8 (text.getD []) := by
  cases text <;> rfl

/-- The name and the description of a file stand in their places. -/
theorem slice_fileData {transfer : ℕ} {hash : Bytes} {name description : Option Line}
    {command : Bytes}
    (h : (transferFileDataCommand transfer hash name description).getCommand = some command) :
    slice 10 64 command = paddedTo 64 (encodeUtf8 (name.getD [])) ∧
      slice 74 128 command = paddedTo 128 (encodeUtf8 (description.getD [])) := by
  obtain ⟨body, hbody, hframe⟩ := Option.bind_eq_some_iff.mp h
  obtain ⟨octets, hoctets, rfl⟩ := Option.map_eq_some_iff.mp hbody
  obtain ⟨hlength, -⟩ := unpackBig_of_packBig hoctets
  rw [show 10 = 8 + 2 from rfl, show 74 = 8 + 66 from rfl, slice_command hframe,
    slice_command hframe, getD_map_encode, getD_map_encode]
  generalize hname : paddedTo 64 (encodeUtf8 (name.getD [])) = first
  generalize hdescription : paddedTo 128 (encodeUtf8 (description.getD [])) = second
  have hfirst : first.length = 64 := hname ▸ Library.length_paddedTo ..
  have hsecond : second.length = 128 := hdescription ▸ Library.length_paddedTo ..
  rw [show octets ++ first ++ second ++ paddedTo 16 hash ++ [0, 0] =
    octets ++ (first ++ (second ++ (paddedTo 16 hash ++ [0, 0]))) by simp]
  constructor
  · rw [slice, List.drop_left' hlength, List.take_left' hfirst]
  · rw [slice, show 66 = 2 + 64 from rfl, ← List.drop_drop, List.drop_left' hlength,
      List.drop_left' hfirst, List.take_left' hsecond]

/-! ## Exactly when text stays valid -/

/-- A command that was given a text, with the place and the size of its field, and whether the
field is to end in a NUL. -/
inductive GivenText : Bytes → Line → ℕ → ℕ → Bool → Prop
  | label {sourceIndex : ℕ} {text : Line} {shortLabel : Option Line} {portType : Option ℕ}
      {command : Bytes} (h : (inputPropertiesCommand sourceIndex (some text) shortLabel
        portType).getCommand = some command) : GivenText command text 12 20 false
  | shortLabel {sourceIndex : ℕ} {text : Line} {label : Option Line} {portType : Option ℕ}
      {command : Bytes} (h : (inputPropertiesCommand sourceIndex label (some text)
        portType).getCommand = some command) : GivenText command text 32 4 false
  | string {layout : Layout} {attrs : Attributes} {f : Field} {size : ℕ} {text : Line}
      {command : Bytes} (hproper : layout.Proper)
      (h : (Outgoing.declared (layout.send attrs)).getCommand = some command)
      (hf : f ∈ layout.fields) (hsize : f.type = .string size)
      (htext : attrs f.name = some (.text text)) :
      GivenText command text (8 + f.offset) size false
  | name {transfer : ℕ} {hash : Bytes} {text : Line} {description : Option Line} {command : Bytes}
      (h : (transferFileDataCommand transfer hash (some text) description).getCommand =
        some command) : GivenText command text 10 64 true
  | description {transfer : ℕ} {hash : Bytes} {name : Option Line} {text : Line} {command : Bytes}
      (h : (transferFileDataCommand transfer hash name (some text)).getCommand =
        some command) : GivenText command text 74 128 true

/-- The field keeps the text, and has a NUL if it is to end in one. -/
def ValidText (text : Line) (size : ℕ) (ends : Bool) (field : Bytes) : Prop :=
  KeepsText text size field ∧ (ends = true → Terminated field)

/-- No character straddles the end of the field, and a NUL is left where there is to be one. -/
def Suits (text : Line) (size : ℕ) (ends : Bool) : Prop :=
  if ends then LeavesNul text size else ¬ Straddles text size

theorem slice_givenText {command : Bytes} {text : Line} {place size : ℕ} {ends : Bool}
    (h : GivenText command text place size ends) :
    slice place size command = paddedTo size (encodeUtf8 text) := by
  cases h with
  | label h => exact (slice_labels h).1 text rfl
  | shortLabel h => exact (slice_labels h).2 text rfl
  | string hproper h hf hsize htext => exact slice_string hproper h hf hsize htext
  | name h => exact (slice_fileData h).1
  | description h => exact (slice_fileData h).2

/-- The text of a field is valid exactly when it suits the field. -/
theorem validText_iff {command : Bytes} {text : Line} {place size : ℕ} {ends : Bool}
    (h : GivenText command text place size ends) :
    ValidText text size ends (slice place size command) ↔ Suits text size ends := by
  rw [slice_givenText h, ValidText, Suits]
  cases ends with
  | false => simp [keepsText_paddedTo]
  | true => simpa using keepsText_and_terminated text size

/-- A label of nineteen octets and a character of two. -/
def cutLabel : Line := List.replicate 19 'a' ++ ['é']

/-- A name that fills its field. -/
def fullName : Line := List.replicate 64 'a'

theorem cutLabel_straddles : Straddles cutLabel 20 := by
  refine ⟨List.replicate 19 'a', 'é', [], rfl, ?_, by decide, by decide⟩
  rw [List.forall_mem_append]
  constructor
  · intro d hd
    obtain rfl := List.eq_of_mem_replicate hd
    decide
  · intro d hd
    obtain rfl := List.mem_singleton.mp hd
    decide

theorem validText_iff_cutLabel : ∃ command, GivenText command cutLabel 12 20 false ∧
    (ValidText cutLabel 20 false (slice 12 20 command) ↔ Suits cutLabel 20 false) := by
  obtain ⟨command, h⟩ := Option.isSome_iff_exists.mp (show
    (inputPropertiesCommand 1 (some cutLabel) none none).getCommand.isSome by decide)
  exact ⟨command, .label h, validText_iff (.label h)⟩

/-- The label is cut within its last character, and the name has no NUL. -/
theorem cut_and_unterminated :
    (∃ command, GivenText command cutLabel 12 20 false ∧
      ¬ ValidText cutLabel 20 false (slice 12 20 command)) ∧
    ∃ command, GivenText command fullName 10 64 true ∧
      ¬ ValidText fullName 64 true (slice 10 64 command) := by
  constructor
  · obtain ⟨command, h⟩ := Option.isSome_iff_exists.mp (show
      (inputPropertiesCommand 1 (some cutLabel) none none).getCommand.isSome by decide)
    refine ⟨command, .label h, fun hvalid => ?_⟩
    rw [ValidText, (slice_labels h).1 cutLabel rfl, keepsText_paddedTo] at hvalid
    exact hvalid.1 cutLabel_straddles
  · obtain ⟨command, h⟩ := Option.isSome_iff_exists.mp (show
      (transferFileDataCommand 1 (List.replicate 16 0) (some fullName) none).getCommand.isSome by
        decide +kernel)
    refine ⟨command, .name h, fun hvalid => ?_⟩
    rw [ValidText, (slice_fileData h).1] at hvalid
    exact absurd (hvalid.2 rfl) (by rw [Terminated]; decide +kernel)

end Bmdwire
