import Bmdwire.Library.Dict
import Bmdwire.Program.BinaryChannel
import Bmdwire.Program.Preamble
import Mathlib.Data.Char
import Mathlib.Data.List.Lex
import Mathlib.Data.List.Sort

/-!
# Archive and restore of an Ultimatte

`ultimattewire/profile/archive.py` and `ultimattewire/profile/restore.py`. A zip container is
the list of its members, in the order in which they were written.
-/

set_option autoImplicit false

namespace Bmdwire.Ultimatte

open Library (Dict isSpace strip cutAt)

/-! ## Archive -/

/-- `[A-Za-z0-9._-]` -/
def isLabelChar (c : Char) : Bool := c.isAlphanum ∨ c = '.' ∨ c = '_' ∨ c = '-'

/-- `re.sub(r"[^A-Za-z0-9._-]+", "_", text)`, after a character that was kept or not. -/
def sanitizeFrom : Bool → Line → Line
  | _, [] => []
  | kept, c :: text =>
    if isLabelChar c then c :: sanitizeFrom true text
    else if kept then '_' :: sanitizeFrom false text
    else sanitizeFrom false text

/-- What `Label:\s*(.+)$` captures, stripped. -/
def labelAt (text : Line) : Option Line :=
  ("Label:".toList.isPrefixOf? text).bind fun rest =>
    match rest.dropWhile isSpace with
    -- nothing but white space follows, of which one character other than a line feed is captured
    | [] => if rest.all (· = '\n') then none else some []
    | value => some (strip (value.takeWhile (· ≠ '\n')))

/-- The search of `extract_label`. A match begins where a line begins. -/
def searchLabel : Bool → Line → Option Line
  | lineStart, [] => if lineStart then labelAt [] else none
  | lineStart, c :: text =>
    match if lineStart then labelAt (c :: text) else none with
    | some label => some label
    | none => searchLabel (c = '\n') text

/-- `extract_label` -/
def extractLabel (text : Line) : Line :=
  match searchLabel true text with
  | some label => sanitizeFrom true label
  | none => "unknown".toList

/-- A member of a zip container. -/
structure Member where
  name : Line
  data : List UInt8
deriving DecidableEq, Repr

/-- The soft failures of an archive. -/
inductive Warning
  | preset (slot : Line) (error : WireError)
  | gpiSettings (error : WireError)
  | savedSettings (error : WireError)
deriving DecidableEq, Repr

/-- What was read of a unit. -/
structure UnitFiles where
  slots : Dict Line (List UInt8) := Dict.empty
  gpiSettings : Option (List UInt8) := none
  savedSettings : Option (List UInt8) := none
  warnings : List Warning := []

/-- `info` -/
structure ArchiveInfo where
  label : Line
  slots : List Line
  slotSizes : Dict Line ℕ
  gpiSize : ℕ
  savedSize : ℕ
  warnings : List Warning

/-- The next contact of those to come; nobody is there once they are used up. -/
def nextContact (contacts : List Contact) : Contact := contacts.headD .refused

/-- The loop over the slots. -/
def readSlots : List Line → List Contact → UnitFiles → UnitFiles × List Contact
  | [], contacts, files => (files, contacts)
  | slot :: slots, contacts, files =>
    match binaryRequest (encode slot) (nextContact contacts) with
    | .ok blob =>
      readSlots slots contacts.tail { files with slots := files.slots.set slot blob }
    | .error e =>
      readSlots slots contacts.tail { files with warnings := files.warnings ++ [.preset slot e] }

/-- `_get_resource(host, "GPISettings")`; one that cannot be read is left out. -/
def readGpiSettings (contact : Contact) (files : UnitFiles) : UnitFiles :=
  match binaryRequest (encode "GPISettings".toList) contact with
  | .ok blob => { files with gpiSettings := some blob }
  | .error e => { files with warnings := files.warnings ++ [.gpiSettings e] }

/-- `_get_resource(host, "SavedSettings")` -/
def readSavedSettings (contact : Contact) (files : UnitFiles) : UnitFiles :=
  match binaryRequest (encode "SavedSettings".toList) contact with
  | .ok blob => { files with savedSettings := some blob }
  | .error e => { files with warnings := files.warnings ++ [.savedSettings e] }

/-- The reads of an archive, in their order. -/
def readUnit (slots : List Line) (contacts : List Contact) : UnitFiles :=
  let (files, contacts) := readSlots slots contacts {}
  let files := readGpiSettings (nextContact contacts) files
  readSavedSettings (nextContact contacts.tail) files

/-- `presets/` -/
def presets : Line := "presets/".toList

/-- A directory entry. -/
def dirEntry (name : String) : Member := ⟨name.toList, []⟩

/-- The entries of a dictionary, in its order. -/
def UnitFiles.entries (files : UnitFiles) : List (Line × List UInt8) :=
  files.slots.keys.map fun slot => (slot, files.slots.getD slot [])

/-- The members that are written, in the order of Smart Remote. -/
def zipMembers (files : UnitFiles) (label readable : Line) : List Member :=
  [dirEntry "images/"] ++
    (files.gpiSettings.toList.map (Member.mk "GPISettings".toList)) ++
    (files.savedSettings.toList.map (Member.mk "SavedSettings".toList)) ++
    [dirEntry "quickfiles/", dirEntry "presets/"] ++
    (files.entries.map fun entry => Member.mk (presets ++ entry.1) entry.2) ++
    [⟨label ++ "_config_readable.txt".toList, encode readable⟩]

/-- `archive_unit_to_bytes`, from the prelude, the annotation of it and the contacts to come.
An empty prelude is refused. -/
def archiveUnit (annotatePreamble : Line → Line) (preamble : Line) (contacts : List Contact) :
    Option (List Member × ArchiveInfo) :=
  if preamble = [] then none
  else
    let label := extractLabel preamble
    let slots := parseFileList preamble
    let files := readUnit slots contacts
    some (zipMembers files label (annotatePreamble preamble), {
      label := label
      slots := slots
      slotSizes := files.slots.mapValues List.length
      gpiSize := files.gpiSettings.elim 0 List.length
      savedSize := files.savedSettings.elim 0 List.length
      warnings := files.warnings })

/-! ## Restore -/

/-- `OP_WRITE_SLOT` -/
def opWriteSlot : UInt16 := 0x0100

/-- `OP_WRITE_RESOURCE` -/
def opWriteResource : UInt16 := 0x0103

/-- `_WIRE_NAME_PREFIX` -/
def wireNamePrefix : Line :=
  ("/private/var/folders/00/000000000000000000000000000000" ++
    "/T/Ultimatte Software Control-PYREST").toList

/-- `zf.read(name)`: of members of one name, the last. -/
def readMember (members : List Member) (name : Line) : List UInt8 :=
  (members.reverse.find? (·.name = name)).elim [] Member.data

/-- Where a restore stopped. -/
inductive Stop
  | preset (slot : Line)
  | gpiSettings
  | savedSettings
deriving DecidableEq, Repr

/-- `info`: what came of each upload, an error or none. -/
structure RestoreInfo where
  presets : List (Line × Option WireError) := []
  gpi : Option (Option WireError) := none
  saved : Option (Option WireError) := none
  stoppedAt : Option Stop := none
deriving DecidableEq, Repr

/-- A restore on its way: its log, and the uploads asked for so far. -/
structure Restore where
  info : RestoreInfo := {}
  uploads : List Upload := []
deriving DecidableEq, Repr

/-- What an upload comes to, by how many went before it. -/
abbrev Uploader := ℕ → Upload → Except WireError Unit

/-- The uploads over the contacts to come. -/
def overContacts (contacts : List Contact) : Uploader := fun i u => u.send (contacts.getD i .refused)

namespace Restore

/-- `upload_one` is called. -/
def push (uploader : Uploader) (r : Restore) (u : Upload) : Option WireError × Restore :=
  let result := match uploader r.uploads.length u with
    | .ok () => none
    | .error e => some e
  (result, { r with uploads := r.uploads ++ [u] })

/-- The loop over the presets. -/
def pushPresets (uploader : Uploader) (members : List Member) :
    List Line → Restore → Bool × Restore
  | [], r => (true, r)
  | name :: names, r =>
    -- `member.split("/", 1)[1]`
    let slot := ((cutAt ['/'] name).getD (name, [])).2
    let u : Upload := ⟨opWriteSlot, wireNamePrefix ++ '/' :: presets ++ slot,
      readMember members name⟩
    let (result, r) := r.push uploader u
    let r := { r with info.presets := r.info.presets ++ [(slot, result)] }
    if result.isSome then (false, { r with info.stoppedAt := some (.preset slot) })
    else pushPresets uploader members names r

/-- The upload of `GPISettings`, when there is one. -/
def pushGpiSettings (uploader : Uploader) (members : List Member) (r : Restore) :
    Bool × Restore :=
  let name := "GPISettings".toList
  if members.any (·.name = name) then
    let u : Upload := ⟨opWriteResource, wireNamePrefix ++ '/' :: name, readMember members name⟩
    let (result, r) := r.push uploader u
    let r := { r with info.gpi := some result }
    if result.isSome then (false, { r with info.stoppedAt := some .gpiSettings }) else (true, r)
  else (true, r)

/-- The upload of `SavedSettings`, when there is one. -/
def pushSavedSettings (uploader : Uploader) (members : List Member) (r : Restore) :
    Bool × Restore :=
  let name := "SavedSettings".toList
  if members.any (·.name = name) then
    let u : Upload := ⟨opWriteResource, wireNamePrefix ++ '/' :: name, readMember members name⟩
    let (result, r) := r.push uploader u
    let r := { r with info.saved := some result }
    if result.isSome then (false, { r with info.stoppedAt := some .savedSettings }) else (true, r)
  else (true, r)

end Restore

/-- The names of the presets in a container. -/
def presetNames (members : List Member) : List Line :=
  ((members.map Member.name).filter fun name =>
    presets.isPrefixOf name && !(['/'].isSuffixOf name)).insertionSort (· ≤ ·)

/-- `restore_unit_from_bytes` -/
def restoreUnit (uploader : Uploader) (members : List Member) : Bool × Restore :=
  match Restore.pushPresets uploader members (presetNames members) {} with
  | (false, r) => (false, r)
  | (true, r) =>
    match r.pushGpiSettings uploader members with
    | (false, r) => (false, r)
    | (true, r) => r.pushSavedSettings uploader members

end Bmdwire.Ultimatte
