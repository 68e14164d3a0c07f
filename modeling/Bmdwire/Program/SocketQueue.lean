import Bmdwire.Library.Runs
import Mathlib.Data.Finset.Card

/-!
# The queue that is also a socket

`SocketQueue` of `_socketqueue.py`. A put is two steps, the item and then its wake byte, and so
is what the getter does with them: it reads bytes, and then takes that many items. Each of these
steps is atomic, and any of them can come between two of another thread. Putters are told apart
by names of any type.
-/

set_option autoImplicit false

namespace Bmdwire

variable {ι α : Type}

/-- Where the getter is: outside; in `get`, its byte read; or in `get_waiting`, with so many items
still to take and these taken. -/
inductive Getter (α : Type)
  | outside
  | get
  | getWaiting (left : ℕ) (got : List α)

/-- The items taken by a call that has not returned. -/
def Getter.got : Getter α → List α
  | .getWaiting _ got => got
  | _ => []

/-- How many items the getter is to take for bytes it has read. -/
def Getter.left : Getter α → ℕ
  | .outside => 0
  | .get => 1
  | .getWaiting left _ => left

/-- The items queued, the wake bytes not read yet, the putters whose item is queued and whose
byte is not sent, and the getter; and all that was put and returned so far. -/
structure SocketQueue (ι α : Type) where
  items : List α
  bytes : ℕ
  putting : Finset ι
  getter : Getter α
  puts : List α
  returned : List α

namespace SocketQueue

/-- `__init__`. -/
def init : SocketQueue ι α := ⟨[], 0, ∅, .outside, [], []⟩

/-- The most bytes that one `recv` of `get_waiting` reads. -/
def recvSize : ℕ := 4096

/-- The atomic steps. `waitingNone` is a `get_waiting` whose `recv` finds nothing, or is
interrupted. -/
inductive Step (ι α : Type)
  | putItem (p : ι) (item : α)
  | putByte (p : ι)
  | getByte
  | getItem
  | waitingBytes (marks : ℕ)
  | waitingNone
  | waitingItem
  | waitingReturn

/-- The step can be taken; a step of the getter at which it stands and that cannot be taken
blocks it. A `recv` reads at least one byte if there are any. -/
def CanTake (s : SocketQueue ι α) : Step ι α → Prop
  | .putItem p _ => p ∉ s.putting
  | .putByte p => p ∈ s.putting
  | .getByte => s.getter = .outside ∧ 0 < s.bytes
  | .getItem => s.getter = .get ∧ s.items ≠ []
  | .waitingBytes marks => s.getter = .outside ∧ 0 < marks ∧ marks ≤ s.bytes ∧ marks ≤ recvSize
  | .waitingNone => s.getter = .outside
  | .waitingItem => (∃ left got, s.getter = .getWaiting (left + 1) got) ∧ s.items ≠ []
  | .waitingReturn => ∃ got, s.getter = .getWaiting 0 got

variable [DecidableEq ι]

/-- A step taken. -/
def take (s : SocketQueue ι α) : Step ι α → SocketQueue ι α
  | .putItem p item =>
    { s with items := s.items ++ [item], putting := insert p s.putting, puts := s.puts ++ [item] }
  | .putByte p => { s with bytes := s.bytes + 1, putting := s.putting.erase p }
  | .getByte => { s with bytes := s.bytes - 1, getter := .get }
  | .getItem =>
    { s with
      items := s.items.tail, getter := .outside, returned := s.returned ++ s.items.head?.toList }
  | .waitingBytes marks => { s with bytes := s.bytes - marks, getter := .getWaiting marks [] }
  | .waitingNone => s
  | .waitingItem =>
    match s.getter with
    | .getWaiting (left + 1) got =>
      { s with
        items := s.items.tail, getter := .getWaiting left (got ++ s.items.head?.toList) }
    | _ => s
  | .waitingReturn =>
    { s with getter := .outside, returned := s.returned ++ s.getter.got }

/-- `get_waiting`, the items included that it takes for `marks` bytes. -/
def getWaiting (marks : ℕ) : List (Step ι α) :=
  .waitingBytes marks :: (List.replicate marks .waitingItem ++ [.waitingReturn])

end SocketQueue

end Bmdwire
