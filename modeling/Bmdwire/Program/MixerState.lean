import Bmdwire.Library.Dict
import Bmdwire.Library.Tree

/-!
# The mixer state

`save_field_data` stores the contents of a field in `mixerstate`. A key of `FIELDNAME_UNIQUE`
has a nested dictionary there: the field's indices make a dictionary with one path, which
`recursive_merge` merges into the one stored. That one is made afresh for each field, so no two
paths share a dictionary, and merging in place is an assignment.
-/

set_option autoImplicit false

namespace Bmdwire

open Library (Dict Tree assign update)

variable {κ ι α : Type} [DecidableEq κ] [DecidableEq ι]

/-- `make_unique_dict`; the path has a first index. -/
def makeUniqueDict (contents : α) : ι → List ι → Tree ι α
  | index, [] => .dict [(index, .leaf contents)]
  | index, next :: rest => .dict [(index, makeUniqueDict contents next rest)]

mutual

/-- `recursive_merge`; `none` is the `AttributeError` of contents where a dictionary is
needed. -/
def recursiveMerge : Tree ι α → Tree ι α → Option (Tree ι α)
  | _, .leaf contents => some (.leaf contents)
  | .leaf _, .dict _ => none
  | .dict d1, .dict d2 => (mergeItems d1 d2).map fun d2 => .dict (update d1 d2)

/-- The loop of `recursive_merge` over the items of the first dictionary. -/
def mergeItems : List (ι × Tree ι α) → List (ι × Tree ι α) → Option (List (ι × Tree ι α))
  | [], d2 => some d2
  | (k, v) :: rest, d2 =>
    match d2.lookup k with
    | none => mergeItems rest d2
    | some w => (recursiveMerge v w).bind fun merged => mergeItems rest (assign k merged d2)

end

/-- A parsed field: its key, its contents, the indices that `FIELDNAME_UNIQUE` unpacks for a
key of its own, and the `strip_id` of contents that have one. -/
structure ParsedField (κ ι α : Type) where
  key : κ
  contents : α
  idxes : Option (ι × List ι)
  stripId : Option ι
deriving DecidableEq, Repr

namespace ParsedField

/-- The indices that the contents are stored under; the `strip_id` stands in for the first. -/
def path (f : ParsedField κ ι α) : List ι :=
  match f.idxes with
  | some (first, rest) => f.stripId.getD first :: rest
  | none => []

end ParsedField

/-- `mixerstate`. -/
abbrev MixerState (κ ι α : Type) := Dict κ (Tree ι α)

namespace MixerState

/-- The store of `save_field_data`. A merge that fails leaves the state as it was by then. -/
def storeField (s : MixerState κ ι α) (f : ParsedField κ ι α) : MixerState κ ι α :=
  match f.path with
  | [] => s.set f.key (.leaf f.contents)
  | index :: rest =>
    let s := if (s.get? f.key).isNone then s.set f.key (.dict []) else s
    match recursiveMerge (s.getD f.key (.dict [])) (makeUniqueDict f.contents index rest) with
    | some merged => s.set f.key merged
    | none => s

/-- The state after the fields received since it was last emptied. -/
def received (fields : List (ParsedField κ ι α)) : MixerState κ ι α :=
  fields.foldl storeField .empty

end MixerState

end Bmdwire
