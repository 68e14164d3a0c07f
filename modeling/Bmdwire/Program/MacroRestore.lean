import Bmdwire.Library.Clamping
import Bmdwire.Program.Profile

/-!
# Macros put back

`profile/apply.py`: `_apply_macros`, which uploads each macro of a profile into its slot, and what
it reports. How `upload_macro_bytecode` ends is the switcher's affair, so it is given as an answer
to every upload, which may depend on the uploads before it.
-/

set_option autoImplicit false

namespace Bmdwire.Profile

open Library (Element FloatVal parseReal truncate)
open Macros (Op EncodeError ErrorType encodeSingleOp str)

/-! ## Reading elements -/

/-- `e.tag` -/
def tagOf : Element → Text
  | .node tag _ _ => tag

/-- `e.attrib` -/
def attribOf : Element → List (Text × Text)
  | .node _ attrs _ => attrs

/-- `e.findall(tag)` -/
def findall (tag : String) : Element → List Element
  | .node _ _ children => children.filter fun c => tagOf c = tag.toList

/-- `e.find(tag)` -/
def find (tag : String) (e : Element) : Option Element := (findall tag e).head?

/-- `e.get(key)` -/
def attrib (key : String) (e : Element) : Option Text := (attribOf e).lookup key.toList

/-- `e.get(key, '')` -/
def attribOrEmpty (key : String) (e : Element) : Text := (attrib key e).getD []

/-- `_int`; the `OverflowError` of an infinite number is not caught. -/
def intOf (default : ℤ) (s : Option Text) : Except ErrorType ℤ :=
  match s with
  | none | some [] => .ok default
  | some s =>
    match parseReal s with
    | none | some .nan => .ok default
    | some (.infinite _) => .error .overflowError
    | some (.finite q) =>
      match FloatVal.ofRat q with
      | .finite x => .ok (truncate x)
      | _ => .error .overflowError

/-- `dict(op_e.attrib)` with its `id`. -/
def opOf (e : Element) : Op where
  id := String.ofList (attribOrEmpty "id" e)
  attrs := ((attribOf e).filter fun p => p.1 ≠ "id".toList).map fun p =>
    (String.ofList p.1, String.ofList p.2)

/-! ## Uploads -/

/-- The arguments of `upload_macro_bytecode`. -/
structure MacroUpload where
  slot : ℕ
  name : Text
  description : Text
  bytecode : Bytes
deriving DecidableEq

/-- How `upload_macro_bytecode` ends after the uploads before it: `none` when it returns, or the
text of what it raises. -/
abbrev Switcher := List MacroUpload → MacroUpload → Option Text

/-- The ops one by one: the octets of those that are encoded, and the ids of those that are
dropped. What is no `ValueError` is not caught. -/
def encodeOps : List Op → Except ErrorType (List Bytes × List String)
  | [] => .ok ([], [])
  | op :: ops =>
    match encodeSingleOp op with
    | .ok chunk => (encodeOps ops).map fun r => (chunk :: r.1, r.2)
    | .error e =>
      if e.type = .valueError then
        (encodeOps ops).map fun r => (r.1, (if op.id = "" then "<no-id>" else op.id) :: r.2)
      else .error e.type

/-- A macro that was uploaded without some of its ops. -/
structure Drop where
  slot : ℕ
  name : Text
  droppedIds : List String
  metadataOnly : Bool
deriving DecidableEq

/-- An upload that raised. -/
structure Failure where
  slot : ℕ
  name : Text
  reason : Text
deriving DecidableEq

/-- What the loop of `_apply_macros` keeps, with what it has uploaded. -/
structure Restoring where
  uploads : List MacroUpload
  restored : ℕ
  drops : List Drop
  failures : List Failure
deriving DecidableEq

namespace Restoring

def start : Restoring := ⟨[], 0, [], []⟩

/-- The upload of one macro and what is noted of it. -/
def upload (switcher : Switcher) (u : MacroUpload) (droppedIds : List String)
    (metadataOnly : Bool) (r : Restoring) : Restoring :=
  let uploads := r.uploads ++ [u]
  match switcher r.uploads u with
  | some text =>
    { r with
      uploads
      failures := r.failures ++ [⟨u.slot, u.name, "upload error: ".toList ++ text⟩] }
  | none =>
    { r with
      uploads
      restored := r.restored + 1
      drops := if droppedIds = [] then r.drops
        else r.drops ++ [⟨u.slot, u.name, droppedIds, metadataOnly⟩] }

/-- One turn of the loop; an exception that is not caught comes with what was uploaded. -/
def turn (switcher : Switcher) (r : Restoring) (e : Element) :
    Except (ErrorType × List MacroUpload) Restoring :=
  match intOf (-1) (attrib "index" e) with
  | .error raised => .error (raised, r.uploads)
  | .ok slot =>
    if slot < 0 then .ok r
    else
      match encodeOps ((findall "Op" e).map opOf) with
      | .error raised => .error (raised, r.uploads)
      | .ok (chunks, droppedIds) =>
        .ok (r.upload switcher
          ⟨slot.toNat, attribOrEmpty "name" e, attribOrEmpty "description" e,
            chunks.flatten⟩ droppedIds chunks.isEmpty)

end Restoring

/-! ## The report -/

/-- `ApplyResult` -/
structure ApplyResult where
  applied : List Text
  skipped : List Text
  errors : List Text
deriving DecidableEq

section
variable (repr : Text → Text)

/-- `sorted(set(ids))` -/
def sortedIds (ids : List String) : List String := ids.dedup.mergeSort fun a b => decide (a ≤ b)

/-- `_format_drop_entry` -/
def formatDropEntry (d : Drop) : Text :=
  let n := d.droppedIds.length
  "slot ".toList ++ number d.slot ++ " (".toList ++ repr d.name ++ ") dropped ".toList ++
    number n ++ (if n = 1 then " op (".toList else " ops (".toList) ++
    (String.intercalate ", " (sortedIds d.droppedIds)).toList ++ ")".toList ++
    if d.metadataOnly then " — metadata only".toList else []

/-- `_format_macro_summary` -/
def formatMacroSummary (total : ℕ) (r : Restoring) : Text :=
  let head := number r.restored ++ "/".toList ++ number total ++ " restored".toList
  if r.drops = [] ∧ r.failures = [] then head ++ ", 0 failed".toList
  else
    let dropped := number r.drops.length ++ " with dropped ops: ".toList ++
      List.intercalate "; ".toList (r.drops.map (formatDropEntry repr))
    let failed := number r.failures.length ++ " failed: ".toList ++
      List.intercalate "; ".toList (r.failures.map fun f =>
        "slot ".toList ++ number f.slot ++ " (".toList ++ repr f.name ++ ") — ".toList ++ f.reason)
    head ++ ", ".toList ++ List.intercalate ", ".toList
      ((if r.drops = [] then [] else [dropped]) ++ if r.failures = [] then [] else [failed])

/-- `note_applied` or `note_skipped`, and then a `note_error` for each failure. -/
def ApplyResult.noteMacros (result : ApplyResult) (total : ℕ) (r : Restoring) : ApplyResult :=
  let summary := formatMacroSummary repr total r
  { applied := result.applied ++
      if r.restored = 0 then [] else ["macros (".toList ++ summary ++ ")".toList]
    skipped := result.skipped ++ if r.restored = 0 then ["macros: ".toList ++ summary] else []
    errors := result.errors ++ r.failures.map fun f =>
      "macros: RuntimeError: slot ".toList ++ number f.slot ++ " (".toList ++ repr f.name ++
        "): ".toList ++ f.reason }

/-- `_apply_macros`, with `repr` of a text: what was uploaded, and the result. -/
def applyMacros (connected : Bool) (switcher : Switcher) (root : Element)
    (result : ApplyResult) : Except (ErrorType × List MacroUpload) (Restoring × ApplyResult) :=
  match find "MacroPool" root with
  | none => .ok (.start, result)
  | some pool =>
    let macros := findall "Macro" pool
    if macros = [] then .ok (.start, result)
    else if !connected then
      .ok (.start,
        { result with skipped := result.skipped ++ ["macros: no connected protocol".toList] })
    else do
      let r ← macros.foldlM (Restoring.turn switcher) .start
      return (r, result.noteMacros repr macros.length r)

end

end Bmdwire.Profile
