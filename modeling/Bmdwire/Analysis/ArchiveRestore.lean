import Bmdwire.Analysis.FileLists
import Bmdwire.Program.UnitArchive

/-!
# A restore writes what the archive read

A restore asks for its uploads one after the other and stops at the first that fails
(`Pushes`). Out of an archive they are the presets, the GPI settings and the saved settings,
with the octets that were read, exactly when no archived slot has a name that ends in a slash:
such a member is taken for a directory (`restores_iff`).
-/

set_option autoImplicit false

namespace Bmdwire.Ultimatte

open Library (Dict Clean cutAt leRead)

/-! ## Frames -/

/-- How a unit reads a write request: the opcode, the name and the data. -/
def readWrite (octets : List UInt8) : Option (ℕ × List UInt8 × List UInt8) := do
  let opcode ← leRead 2 (octets.take 2).reverse
  let octets := octets.drop 2
  let nameLen ← leRead 4 (octets.take 4).reverse
  let octets := octets.drop 4
  let name := octets.take nameLen
  let octets := octets.drop nameLen
  let dataLen ← leRead 4 (octets.take 4).reverse
  some (opcode, name, (octets.drop 4).take dataLen)

theorem packLength_ok {n : ℕ} {octets : List UInt8} (h : packLength n = .ok octets) :
    octets.length = 4 ∧ leRead 4 octets.reverse = some n := by
  unfold packLength at h
  split at h
  · rename_i hlt
    cases h
    have hread := Library.leRead_leBytes 4 n []
    rw [List.append_nil, Nat.mod_eq_of_lt (by omega)] at hread
    exact ⟨by simp, by rw [List.reverse_reverse, hread]⟩
  · cases h

/-- The unit reads the name and the data that were to be written. -/
theorem readWrite_frame {u : Upload} {octets : List UInt8} (h : u.frame = .ok octets) :
    readWrite octets = some (u.opcode.toNat, encode u.name, u.payload) := by
  rw [Upload.frame] at h
  cases hname : packLength (encode u.name).length with
  | error e => simp [hname, bind, Except.bind] at h
  | ok nameLen =>
    cases hdata : packLength u.payload.length with
    | error e => simp [hname, hdata, bind, Except.bind] at h
    | ok dataLen =>
      simp only [hname, hdata, bind, Except.bind, Except.ok.injEq] at h
      obtain ⟨hnameLen, hnameRead⟩ := packLength_ok hname
      obtain ⟨hdataLen, hdataRead⟩ := packLength_ok hdata
      have hopcode : (packOpcode u.opcode).length = 2 := by simp [packOpcode]
      have hopRead : leRead 2 (packOpcode u.opcode).reverse = some u.opcode.toNat := by
        have hread := Library.leRead_leBytes 2 u.opcode.toNat []
        have hlt : u.opcode.toNat < 256 ^ 2 := u.opcode.toNat_lt
        rw [List.append_nil, Nat.mod_eq_of_lt hlt] at hread
        rw [packOpcode, List.reverse_reverse, hread]
      subst h
      simp only [readWrite, List.append_assoc]
      rw [List.take_left' hopcode, List.drop_left' hopcode, hopRead]
      simp only [Option.bind_eq_bind, Option.bind_some]
      rw [List.take_left' hnameLen, List.drop_left' hnameLen, hnameRead]
      simp only [Option.bind_some]
      rw [List.take_left' rfl, List.drop_left' rfl, List.take_left' hdataLen, hdataRead]
      simp only [Option.bind_some]
      rw [List.drop_left' hdataLen, List.take_left' rfl]

/-! ## Uploads in a row -/

/-- The uploads that are asked for: up to the first that fails. -/
def reached (uploader : Uploader) : ℕ → List Upload → List Upload
  | _, [] => []
  | i, u :: us =>
    match uploader i u with
    | .ok () => u :: reached uploader (i + 1) us
    | .error _ => [u]

/-- None of them fails. -/
def passes (uploader : Uploader) : ℕ → List Upload → Bool
  | _, [] => true
  | i, u :: us =>
    match uploader i u with
    | .ok () => passes uploader (i + 1) us
    | .error _ => false

/-- A part of a restore asks for these uploads, and goes on when none fails. -/
def Pushes (uploader : Uploader) (us : List Upload) (r : Restore) (out : Bool × Restore) : Prop :=
  out.1 = passes uploader r.uploads.length us ∧
    out.2.uploads = r.uploads ++ reached uploader r.uploads.length us

section Pushes

variable {uploader : Uploader} {us vs : List Upload} {r : Restore}

theorem Pushes.nil (r : Restore) : Pushes uploader [] r (true, r) := by
  simp [Pushes, passes, reached]

theorem passes_append (i : ℕ) :
    passes uploader i (us ++ vs) =
      (passes uploader i us && passes uploader (i + us.length) vs) := by
  induction us generalizing i with
  | nil => simp [passes]
  | cons u us ih =>
    rw [List.cons_append, passes, passes]
    cases uploader i u with
    | error e => rfl
    | ok _ => rw [ih, List.length_cons, Nat.add_assoc, Nat.add_comm 1]

theorem reached_append (i : ℕ) :
    reached uploader i (us ++ vs) =
      if passes uploader i us then us ++ reached uploader (i + us.length) vs
      else reached uploader i us := by
  induction us generalizing i with
  | nil => simp [passes]
  | cons u us ih =>
    rw [List.cons_append, reached, passes, reached]
    cases uploader i u with
    | error e => rfl
    | ok _ =>
      simp only [ih, List.length_cons, Nat.add_assoc, Nat.add_comm 1]
      split <;> rfl

theorem reached_of_passes {i : ℕ} (h : passes uploader i us = true) :
    reached uploader i us = us := by
  have happend := @reached_append uploader us [] i
  rw [List.append_nil, if_pos h] at happend
  simpa [reached] using happend

theorem Pushes.append {r' : Restore} {out : Bool × Restore} (h : Pushes uploader us r (true, r'))
    (h' : Pushes uploader vs r' out) : Pushes uploader (us ++ vs) r out := by
  have hpass : passes uploader r.uploads.length us = true := h.1.symm
  have huploads : r'.uploads = r.uploads ++ us := by rw [h.2, reached_of_passes hpass]
  have hlength : r'.uploads.length = r.uploads.length + us.length := by simp [huploads]
  constructor
  · rw [passes_append, hpass, h'.1, hlength, Bool.true_and]
  · rw [reached_append, if_pos hpass, h'.2, hlength, huploads, List.append_assoc]

theorem Pushes.stop {r' : Restore} (h : Pushes uploader us r (false, r')) :
    Pushes uploader (us ++ vs) r (false, r') := by
  have hpass : passes uploader r.uploads.length us = false := h.1.symm
  constructor
  · rw [passes_append, hpass, Bool.false_and]
  · rw [reached_append, if_neg (by simp [hpass]), h.2]

end Pushes

/-! ## The parts of a restore -/

/-- The upload of a preset. -/
def presetUpload (entry : Line × List UInt8) : Upload :=
  ⟨opWriteSlot, wireNamePrefix ++ '/' :: presets ++ entry.1, entry.2⟩

/-- The upload of a resource. -/
def resourceUpload (name : Line) (blob : List UInt8) : Upload :=
  ⟨opWriteResource, wireNamePrefix ++ '/' :: name, blob⟩

/-- The slot and the octets of a member. -/
def entryOf (members : List Member) (name : Line) : Line × List UInt8 :=
  (((cutAt ['/'] name).getD (name, [])).2, readMember members name)

/-- The upload of a resource that the container may hold. -/
def resourceUploads (members : List Member) (name : Line) : List Upload :=
  if members.any (·.name = name) then [resourceUpload name (readMember members name)] else []

section Parts

variable {uploader : Uploader} {members : List Member}

/-- One upload, after which the restore stops or goes on. -/
theorem Pushes.of_push {u : Upload} {us : List Upload} {r r₁ : Restore}
    {result : Option WireError} {out : Bool × Restore} (hpush : r.push uploader u = (result, r₁))
    (hstop : result.isSome = true → out.1 = false ∧ out.2.uploads = r₁.uploads)
    (hgo : result.isSome = false →
      ∃ r₂, r₂.uploads = r₁.uploads ∧ Pushes uploader us r₂ out) :
    Pushes uploader (u :: us) r out := by
  cases hsend : uploader r.uploads.length u with
  | error e =>
    simp only [Restore.push, hsend, Prod.mk.injEq] at hpush
    obtain ⟨rfl, rfl⟩ := hpush
    obtain ⟨hfalse, huploads⟩ := hstop rfl
    simp [Pushes, passes, reached, hsend, hfalse, huploads]
  | ok _ =>
    simp only [Restore.push, hsend, Prod.mk.injEq] at hpush
    obtain ⟨rfl, rfl⟩ := hpush
    obtain ⟨r₂, huploads, h⟩ := hgo rfl
    refine @Pushes.append uploader [u] us r r₂ out ?_ h
    simp [Pushes, passes, reached, hsend, huploads]

theorem pushPresets_pushes (names : List Line) (r : Restore) :
    Pushes uploader (names.map fun name => presetUpload (entryOf members name)) r
      (Restore.pushPresets uploader members names r) := by
  induction names generalizing r with
  | nil => exact Pushes.nil r
  | cons name names ih =>
    rw [Restore.pushPresets, List.map_cons]
    cases hpush : r.push uploader (presetUpload (entryOf members name)) with
    | mk result r₁ =>
      refine Pushes.of_push hpush ?_ ?_ <;> intro hresult <;>
        simp only [presetUpload, entryOf] at hpush <;> simp only [hpush, hresult]
      · exact ⟨rfl, rfl⟩
      · exact ⟨_, rfl, ih _⟩

theorem pushGpiSettings_pushes (r : Restore) :
    Pushes uploader (resourceUploads members "GPISettings".toList) r
      (r.pushGpiSettings uploader members) := by
  rw [Restore.pushGpiSettings, resourceUploads]
  split
  · cases hpush : r.push uploader
      (resourceUpload "GPISettings".toList (readMember members "GPISettings".toList)) with
    | mk result r₁ =>
      refine Pushes.of_push hpush ?_ ?_ <;> intro hresult <;>
        simp only [resourceUpload] at hpush <;> simp only [hpush, hresult]
      · exact ⟨rfl, rfl⟩
      · exact ⟨_, rfl, Pushes.nil _⟩
  · exact Pushes.nil r

theorem pushSavedSettings_pushes (r : Restore) :
    Pushes uploader (resourceUploads members "SavedSettings".toList) r
      (r.pushSavedSettings uploader members) := by
  rw [Restore.pushSavedSettings, resourceUploads]
  split
  · cases hpush : r.push uploader
      (resourceUpload "SavedSettings".toList (readMember members "SavedSettings".toList)) with
    | mk result r₁ =>
      refine Pushes.of_push hpush ?_ ?_ <;> intro hresult <;>
        simp only [resourceUpload] at hpush <;> simp only [hpush, hresult]
      · exact ⟨rfl, rfl⟩
      · exact ⟨_, rfl, Pushes.nil _⟩
  · exact Pushes.nil r

/-- What a restore asks for: the presets, the GPI settings, the saved settings. -/
theorem restoreUnit_pushes (members : List Member) :
    Pushes uploader ((presetNames members).map (fun name => presetUpload (entryOf members name)) ++
      resourceUploads members "GPISettings".toList ++
      resourceUploads members "SavedSettings".toList) {} (restoreUnit uploader members) := by
  have hpresets := @pushPresets_pushes uploader members (presetNames members) {}
  rw [restoreUnit, List.append_assoc]
  generalize Restore.pushPresets uploader members (presetNames members) {} = out at hpresets
  obtain ⟨passed, r⟩ := out
  cases passed with
  | false => exact hpresets.stop
  | true =>
    refine hpresets.append ?_
    have hgpi := @pushGpiSettings_pushes uploader members r
    dsimp only
    generalize r.pushGpiSettings uploader members = out at hgpi
    obtain ⟨passed, r'⟩ := out
    cases passed with
    | false => exact hgpi.stop
    | true => exact hgpi.append (pushSavedSettings_pushes r')

end Parts

/-! ## The members of an archive -/

theorem slash_notMem_sanitize (kept : Bool) (text : Line) : '/' ∉ sanitizeFrom kept text := by
  induction text generalizing kept with
  | nil => simp [sanitizeFrom]
  | cons c text ih =>
    rw [sanitizeFrom]
    split
    · rename_i hc
      have hne : '/' ≠ c := by
        rintro rfl
        exact absurd hc (by decide)
      simp [hne, ih]
    · split
      · simp [ih]
      · exact ih false

theorem slash_notMem_label (text : Line) : '/' ∉ extractLabel text := by
  rw [extractLabel]
  split
  · exact slash_notMem_sanitize _ _
  · decide

section Members

variable {files : UnitFiles} {label readable : Line}

theorem mem_zipMembers {m : Member} :
    m ∈ zipMembers files label readable ↔
      m = dirEntry "images/" ∨ (∃ blob, files.gpiSettings = some blob ∧
        m = ⟨"GPISettings".toList, blob⟩) ∨ (∃ blob, files.savedSettings = some blob ∧
        m = ⟨"SavedSettings".toList, blob⟩) ∨ m = dirEntry "quickfiles/" ∨
      m = dirEntry "presets/" ∨
      (∃ entry ∈ files.entries, m = ⟨presets ++ entry.1, entry.2⟩) ∨
      m = ⟨label ++ "_config_readable.txt".toList, encode readable⟩ := by
  simp [zipMembers, eq_comm]

/-- A member is read back when no other of its name holds anything else. -/
theorem readMember_eq {members : List Member} {m : Member} (hm : m ∈ members)
    (hone : ∀ m' ∈ members, m'.name = m.name → m'.data = m.data) :
    readMember members m.name = m.data := by
  rw [readMember]
  cases hfind : members.reverse.find? (·.name = m.name) with
  | none =>
    have hnone := List.find?_eq_none.mp hfind m (List.mem_reverse.mpr hm)
    simp at hnone
  | some m' =>
    have hname := List.find?_some hfind
    have hmem := List.mem_reverse.mp (List.mem_of_find?_eq_some hfind)
    exact hone m' hmem (by simpa using hname)

theorem getD_of_mem_entries {entry : Line × List UInt8} (h : entry ∈ files.entries) :
    entry.1 ∈ files.slots.keys ∧ files.slots.getD entry.1 [] = entry.2 := by
  obtain ⟨slot, hslot, rfl⟩ := List.mem_map.mp h
  exact ⟨hslot, rfl⟩

theorem presets_append_ne {name : Line} (h : name.head? ≠ some 'p') (slot : Line) :
    presets ++ slot ≠ name := by
  rintro rfl
  exact h rfl

theorem readable_ne {name : Line} (h : name.getLast? ≠ some 't') :
    label ++ "_config_readable.txt".toList ≠ name := by
  rintro rfl
  rw [List.getLast?_append_of_ne_nil _ (by decide)] at h
  exact h (by decide)

/-- Every slot is read back. -/
theorem readMember_preset (hlabel : '/' ∉ label) {entry : Line × List UInt8}
    (h : entry ∈ files.entries) (hne : entry.1 ≠ []) :
    readMember (zipMembers files label readable) (presets ++ entry.1) = entry.2 := by
  have hm : (⟨presets ++ entry.1, entry.2⟩ : Member) ∈ zipMembers files label readable :=
    mem_zipMembers.mpr (.inr (.inr (.inr (.inr (.inr (.inl ⟨entry, h, rfl⟩))))))
  refine readMember_eq hm fun m' hm' hname => ?_
  change m'.name = presets ++ entry.1 at hname
  obtain hm' | ⟨blob, -, hm'⟩ | ⟨blob, -, hm'⟩ | hm' | hm' | ⟨entry', h', hm'⟩ | hm' :=
    mem_zipMembers.mp hm' <;> rw [hm'] at hname ⊢
  · exact absurd hname.symm (presets_append_ne (by decide) _)
  · exact absurd hname.symm (@presets_append_ne "GPISettings".toList (by decide) _)
  · exact absurd hname.symm (@presets_append_ne "SavedSettings".toList (by decide) _)
  · exact absurd hname.symm (presets_append_ne (by decide) _)
  · exact absurd (List.append_right_eq_self.mp hname.symm) hne
  · have hslot : entry'.1 = entry.1 := List.append_cancel_left hname
    have hold := (getD_of_mem_entries h').2
    rw [hslot, (getD_of_mem_entries h).2] at hold
    exact hold.symm
  · have hslash : '/' ∈ presets ++ entry.1 := List.mem_append_left _ (by decide)
    rw [← hname] at hslash
    obtain hmem | hmem := List.mem_append.mp hslash
    · exact absurd hmem hlabel
    · exact absurd hmem (by decide)

/-- A resource is read back, when it was read. -/
theorem resourceUploads_of_name {members : List Member} {name : Line} {blob : Option (List UInt8)}
    (hmem : ∀ b, blob = some b → (⟨name, b⟩ : Member) ∈ members)
    (hname : ∀ m ∈ members, m.name = name → blob = some m.data) :
    resourceUploads members name = blob.toList.map (resourceUpload name) := by
  rw [resourceUploads]
  cases hblob : blob with
  | none =>
    rw [if_neg]
    · rfl
    · intro hany
      obtain ⟨m, hm, heq⟩ := List.any_eq_true.mp hany
      exact absurd (hname m hm (by simpa using heq)) (by simp [hblob])
  | some b =>
    have hm := hmem b hblob
    have hread := readMember_eq hm fun m' hm' heq => by
      have hdata := hname m' hm' heq
      rw [hblob] at hdata
      exact (Option.some.inj hdata).symm
    rw [if_pos (List.any_eq_true.mpr ⟨_, hm, by simp⟩), hread]
    rfl

theorem resourceUploads_gpiSettings :
    resourceUploads (zipMembers files label readable) "GPISettings".toList =
      files.gpiSettings.toList.map (resourceUpload "GPISettings".toList) := by
  refine resourceUploads_of_name (fun b hb => ?_) fun m hm hname => ?_
  · exact mem_zipMembers.mpr (.inr (.inl ⟨b, hb, rfl⟩))
  · obtain hm | ⟨blob, hblob, hm⟩ | ⟨blob, -, hm⟩ | hm | hm | ⟨entry, -, hm⟩ | hm :=
      mem_zipMembers.mp hm <;> rw [hm] at hname ⊢
    · exact absurd hname (by decide)
    · exact hblob
    · exact absurd (show "SavedSettings".toList = "GPISettings".toList from hname) (by decide)
    · exact absurd hname (by decide)
    · exact absurd hname (by decide)
    · exact absurd hname (presets_append_ne (by decide) _)
    · exact absurd hname (readable_ne (by decide))

theorem resourceUploads_savedSettings :
    resourceUploads (zipMembers files label readable) "SavedSettings".toList =
      files.savedSettings.toList.map (resourceUpload "SavedSettings".toList) := by
  refine resourceUploads_of_name (fun b hb => ?_) fun m hm hname => ?_
  · exact mem_zipMembers.mpr (.inr (.inr (.inl ⟨b, hb, rfl⟩)))
  · obtain hm | ⟨blob, -, hm⟩ | ⟨blob, hblob, hm⟩ | hm | hm | ⟨entry, -, hm⟩ | hm :=
      mem_zipMembers.mp hm <;> rw [hm] at hname ⊢
    · exact absurd hname (by decide)
    · exact absurd (show "GPISettings".toList = "SavedSettings".toList from hname) (by decide)
    · exact hblob
    · exact absurd hname (by decide)
    · exact absurd hname (by decide)
    · exact absurd hname (presets_append_ne (by decide) _)
    · exact absurd hname (readable_ne (by decide))

/-- The name of a preset: a slot behind the directory, and no slash at the end. -/
def isPresetName (name : Line) : Bool := presets.isPrefixOf name && !(['/'].isSuffixOf name)

/-- The presets that a restore finds: the slots with no slash at the end. -/
theorem presetNames_zipMembers (hlabel : '/' ∉ label) :
    (presetNames (zipMembers files label readable)).Perm
      ((files.entries.map fun entry => presets ++ entry.1).filter isPresetName) := by
  refine (List.perm_insertionSort _ _).trans (List.Perm.of_eq ?_)
  have hreadable : isPresetName (label ++ "_config_readable.txt".toList) = false := by
    rw [isPresetName, Bool.and_eq_false_iff]
    left
    rw [Bool.eq_false_iff, ne_eq, List.isPrefixOf_iff_prefix]
    intro hpre
    have hslash : '/' ∈ label ++ "_config_readable.txt".toList := hpre.subset (by decide)
    obtain hmem | hmem := List.mem_append.mp hslash
    · exact absurd hmem hlabel
    · exact absurd hmem (by decide)
  have hresource : ∀ (name : Line) (blob : Option (List UInt8)), isPresetName name = false →
      ((blob.toList.map (Member.mk name)).map Member.name).filter isPresetName = [] := by
    intro name blob hname
    cases blob with
    | none => rfl
    | some b => simp [hname]
  have hlast : ([(⟨label ++ "_config_readable.txt".toList, encode readable⟩ : Member)].map
      Member.name).filter isPresetName = [] := by
    rw [List.map_singleton, List.filter_cons_of_neg (by rw [hreadable]; decide)]
    rfl
  show ((zipMembers files label readable).map Member.name).filter isPresetName = _
  simp only [zipMembers, List.map_append, List.filter_append]
  rw [hresource _ _ (by decide), hresource _ _ (by decide),
    show ([dirEntry "images/"].map Member.name).filter isPresetName = [] by decide,
    show ([dirEntry "quickfiles/", dirEntry "presets/"].map Member.name).filter isPresetName = []
      by decide, hlast]
  simp [Function.comp_def]

end Members

/-! ## From archive to restore -/

/-- The uploads that a restore should ask for, with the presets in some order. -/
def wanted (order : List (Line × List UInt8)) (files : UnitFiles) : List Upload :=
  order.map presetUpload ++
    files.gpiSettings.toList.map (resourceUpload "GPISettings".toList) ++
    files.savedSettings.toList.map (resourceUpload "SavedSettings".toList)

/-- The archive is restored: whatever the uploads come to, those asked for are every slot that
was read, then the GPI settings, then the saved settings, up to the first that fails. -/
def Restores (members : List Member) (files : UnitFiles) : Prop :=
  ∃ order : List (Line × List UInt8), order.Perm files.entries ∧
    ∀ uploader, Pushes uploader (wanted order files) {} (restoreUnit uploader members)

section Restores

variable {files : UnitFiles} {label readable : Line}

theorem entryOf_preset (hlabel : '/' ∉ label) {entry : Line × List UInt8}
    (h : entry ∈ files.entries) (hne : entry.1 ≠ []) :
    entryOf (zipMembers files label readable) (presets ++ entry.1) = entry := by
  have hcut : cutAt ['/'] (presets ++ entry.1) = some ("presets".toList, entry.1) :=
    @Library.cutAt_of_notMem '/' "presets".toList (by decide) entry.1
  rw [entryOf, readMember_preset hlabel h hne, hcut]
  rfl

theorem isPresetName_iff {slot : Line} (hne : slot ≠ []) :
    isPresetName (presets ++ slot) = true ↔ slot.getLast? ≠ some '/' := by
  have hpre : presets.isPrefixOf (presets ++ slot) = true :=
    List.isPrefixOf_iff_prefix.mpr (List.prefix_append _ _)
  have hsuffix : ['/'].isSuffixOf (presets ++ slot) = true ↔ slot.getLast? = some '/' := by
    rw [List.isSuffixOf_iff_suffix, ← List.getLast?_append_of_ne_nil presets hne]
    constructor
    · rintro ⟨rest, hrest⟩
      rw [← hrest]
      simp
    · intro hlast
      obtain ⟨rest, hrest⟩ := List.getLast?_eq_some_iff.mp hlast
      exact ⟨rest, hrest.symm⟩
  rw [isPresetName, hpre, Bool.true_and, Bool.not_eq_true', Bool.eq_false_iff, ne_eq, ne_eq, hsuffix]

theorem restores_of_slots (hlabel : '/' ∉ label) (hne : ∀ slot ∈ files.slots.keys, slot ≠ [])
    (h : ∀ slot ∈ files.slots.keys, slot.getLast? ≠ some '/') :
    Restores (zipMembers files label readable) files := by
  have hentry : ∀ entry ∈ files.entries,
      entryOf (zipMembers files label readable) (presets ++ entry.1) = entry := fun entry he =>
    entryOf_preset hlabel he (hne _ (getD_of_mem_entries he).1)
  refine ⟨(presetNames (zipMembers files label readable)).map
    (entryOf (zipMembers files label readable)), ?_, fun uploader => ?_⟩
  · refine ((presetNames_zipMembers hlabel).map _).trans (List.Perm.of_eq ?_)
    rw [List.filter_eq_self.mpr]
    · rw [List.map_map]
      exact (List.map_congr_left hentry).trans (List.map_id _)
    · intro name hname
      obtain ⟨entry, he, rfl⟩ := List.mem_map.mp hname
      have hslot := (getD_of_mem_entries he).1
      exact (isPresetName_iff (hne _ hslot)).mpr (h _ hslot)
  · have hpushes := @restoreUnit_pushes uploader (zipMembers files label readable)
    rw [resourceUploads_gpiSettings, resourceUploads_savedSettings] at hpushes
    rw [wanted, List.map_map]
    exact hpushes

theorem slots_of_restores (hlabel : '/' ∉ label) (hne : ∀ slot ∈ files.slots.keys, slot ≠ [])
    (h : Restores (zipMembers files label readable) files) :
    ∀ slot ∈ files.slots.keys, slot.getLast? ≠ some '/' := by
  obtain ⟨order, hperm, hall⟩ := h
  intro slot hslot
  -- no upload fails, so all are asked for
  have hpass : ∀ us : List Upload, ∀ i, passes (fun _ _ => .ok ()) i us = true := by
    intro us
    induction us with
    | nil => exact fun i => rfl
    | cons u us ih => exact fun i => ih (i + 1)
  have hwanted := (hall fun _ _ => .ok ()).2
  have hasked := (@restoreUnit_pushes (fun _ _ => .ok ()) (zipMembers files label readable)).2
  rw [reached_of_passes (hpass _ _)] at hwanted hasked
  have huploads := hasked.symm.trans hwanted
  rw [resourceUploads_gpiSettings, resourceUploads_savedSettings] at huploads
  have hlength := congrArg List.length huploads
  simp only [wanted, List.length_append, List.length_map, hperm.length_eq,
    (presetNames_zipMembers hlabel).length_eq] at hlength
  -- as many presets are asked for as were read, so none is left out
  have hall : ((files.entries.map fun entry => presets ++ entry.1).filter isPresetName).length =
      (files.entries.map fun entry => presets ++ entry.1).length := by
    rw [List.length_map]
    omega
  have hname : presets ++ slot ∈ files.entries.map fun entry => presets ++ entry.1 :=
    List.mem_map.mpr ⟨_, List.mem_map.mpr ⟨slot, hslot, rfl⟩, rfl⟩
  exact (isPresetName_iff (hne slot hslot)).mp
    (List.length_filter_eq_length_iff.mp hall _ hname)

end Restores

theorem mem_keys_set {slots : Dict Line (List UInt8)} {slot key : Line} {blob : List UInt8}
    (h : key ∈ (slots.set slot blob).keys) : key ∈ slots.keys ∨ key = slot := by
  rw [Dict.mem_keys, Dict.get?_set] at h
  split at h
  · rename_i heq
    exact .inr heq
  · exact .inl ((slots.mem_keys key).mpr h)

theorem keys_readSlots {slots : List Line} {contacts : List Contact} {files : UnitFiles} :
    ∀ slot ∈ (readSlots slots contacts files).1.slots.keys,
      slot ∈ files.slots.keys ∨ slot ∈ slots := by
  induction slots generalizing contacts files with
  | nil => exact fun slot hslot => .inl hslot
  | cons next slots ih =>
    intro slot hslot
    rw [readSlots] at hslot
    split at hslot
    · obtain hkey | hrest := ih slot hslot
      · obtain hkey | rfl := mem_keys_set hkey
        · exact .inl hkey
        · exact .inr (List.mem_cons_self ..)
      · exact .inr (List.mem_cons_of_mem _ hrest)
    · obtain hkey | hrest := ih slot hslot
      · exact .inl hkey
      · exact .inr (List.mem_cons_of_mem _ hrest)

/-- The settings are read after the slots, and change none. -/
theorem slots_readUnit (slots : List Line) (contacts : List Contact) :
    (readUnit slots contacts).slots = (readSlots slots contacts {}).1.slots := by
  have hgpi : ∀ contact files, (readGpiSettings contact files).slots = files.slots := by
    intro contact files
    rw [readGpiSettings]
    split <;> rfl
  have hsaved : ∀ contact files, (readSavedSettings contact files).slots = files.slots := by
    intro contact files
    rw [readSavedSettings]
    split <;> rfl
  rw [readUnit, hsaved, hgpi]

/-- A slot of an archive holds what the unit answered when it was asked for. -/
theorem blob_readSlots {slots : List Line} {contacts : List Contact} {files : UnitFiles}
    {slot : Line} {blob : List UInt8}
    (h : (readSlots slots contacts files).1.slots.get? slot = some blob) :
    files.slots.get? slot = some blob ∨
      ∃ contact, binaryRequest (encode slot) contact = .ok blob := by
  induction slots generalizing contacts files with
  | nil => exact .inl h
  | cons next slots ih =>
    rw [readSlots] at h
    split at h
    · rename_i read hread
      obtain hold | hlater := ih h
      · rw [Dict.get?_set] at hold
        split at hold
        · rename_i heq
          cases hold
          exact .inr ⟨_, heq ▸ hread⟩
        · exact .inl hold
      · exact .inr hlater
    · have hrest := ih h
      exact hrest

/-- **What is restored**: out of an archive a restore asks for every slot that was read under
its name and with its octets, and for the two settings after them, up to the first upload that
fails, exactly when no such slot has a name that ends in a slash. -/
theorem restores_iff {annotatePreamble : Line → Line} {preamble : Line} {contacts : List Contact}
    {members : List Member} {info : ArchiveInfo}
    (h : archiveUnit annotatePreamble preamble contacts = some (members, info)) :
    Restores members (readUnit (parseFileList preamble) contacts) ↔
      ∀ slot ∈ (readUnit (parseFileList preamble) contacts).slots.keys,
        slot.getLast? ≠ some '/' := by
  obtain ⟨label, readable, hlabel, rfl⟩ : ∃ label readable, '/' ∉ label ∧
      zipMembers (readUnit (parseFileList preamble) contacts) label readable = members := by
    unfold archiveUnit at h
    split at h
    · cases h
    · have hmembers := (Prod.mk.inj (Option.some.inj h)).1
      exact ⟨_, _, slash_notMem_label preamble, hmembers⟩
  have hne : ∀ slot ∈ (readUnit (parseFileList preamble) contacts).slots.keys, slot ≠ [] := by
    intro slot hslot
    rw [slots_readUnit] at hslot
    obtain hkey | hlisted := keys_readSlots slot hslot
    · exact absurd hkey List.not_mem_nil
    · exact (clean_of_parseFileList preamble slot hlisted).ne_nil
  exact ⟨slots_of_restores hlabel hne, restores_of_slots hlabel hne⟩

/-- The answers of a unit with two slots of one octet each and empty settings. -/
def twoSlots : List Contact :=
  [.replied [0, 0, 0, 1, 0x41] true, .replied [0, 0, 0, 1, 0x42] true, .replied [0, 0, 0, 0] true,
    .replied [0, 0, 0, 0] true]

theorem restores_iff_two :
    ∃ members info,
      archiveUnit id "FILE LIST:\na\nb/c\n\nEND PRELUDE:\n".toList twoSlots =
        some (members, info) ∧
      Restores members
        (readUnit (parseFileList "FILE LIST:\na\nb/c\n\nEND PRELUDE:\n".toList) twoSlots) := by
  refine ⟨_, _, rfl, (@restores_iff id _ _ _ _ rfl).mpr ?_⟩
  decide

/-- The second slot has a name that ends in a slash, and is not written. -/
theorem slash_not_restored :
    ∃ members info,
      archiveUnit id "FILE LIST:\na\nb/\n\nEND PRELUDE:\n".toList twoSlots =
        some (members, info) ∧
      (restoreUnit (overContacts (List.replicate 4 (.replied (List.replicate 6 0) true)))
        members).2.uploads.map (·.name.drop wireNamePrefix.length) =
          ["/presets/a".toList, "/GPISettings".toList, "/SavedSettings".toList] ∧
      ¬ Restores members
        (readUnit (parseFileList "FILE LIST:\na\nb/\n\nEND PRELUDE:\n".toList) twoSlots) := by
  refine ⟨_, _, rfl, by decide +kernel, fun h => ?_⟩
  have hslots := slots_of_restores (slash_notMem_label _) (by decide) h
  exact absurd hslots (by decide)

end Bmdwire.Ultimatte
