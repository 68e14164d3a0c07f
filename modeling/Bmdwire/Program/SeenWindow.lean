import Bmdwire.Library.Dict
import Bmdwire.Program.UdpReceive

/-!
# The window of numbers seen

`_SeenWindow` of `transport.py`, over the built-in dictionary that it keeps its numbers in.
`Bmdwire.Program.UdpReceive` has it as the list of these numbers.
-/

set_option autoImplicit false

namespace Bmdwire

open Library (Dict)

/-- `_SeenWindow`. -/
structure SeenWindow where
  maxlen : ℕ
  seen : Dict ℕ Unit

namespace SeenWindow

/-- `__init__`. -/
def init (maxlen : ℕ) : SeenWindow := ⟨maxlen, .empty⟩

/-- `del self._seen[next(iter(self._seen))]`. -/
def deleteFirst (seen : Dict ℕ Unit) : Dict ℕ Unit :=
  match seen.keys with
  | [] => seen
  | first :: _ => seen.erase first

def append (w : SeenWindow) (seq : ℕ) : SeenWindow :=
  let seen := (w.seen.erase seq).set seq ()
  { w with seen := if seen.keys.length > w.maxlen then deleteFirst seen else seen }

/-- `__contains__`. -/
def contains (w : SeenWindow) (seq : ℕ) : Bool := (w.seen.get? seq).isSome

/-- `__len__`. -/
def len (w : SeenWindow) : ℕ := w.seen.keys.length

/-- `__iter__`. -/
def iter (w : SeenWindow) : List ℕ := w.seen.keys

end SeenWindow

end Bmdwire
