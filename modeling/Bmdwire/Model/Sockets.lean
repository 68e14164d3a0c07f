import Mathlib.Data.Nat.Notation

/-!
# Sockets

A socket as its client meets it: what its waits for bytes will end in, turn by turn. When the
turns are over, the other side has closed it.
-/

set_option autoImplicit false

namespace Bmdwire

/-- What a wait for bytes ends in: bytes come; none come while `recv` waits; or the deadline is
past before the wait. -/
inductive Turn
  | chunk (first : UInt8) (others : List UInt8)
  | quiet
  | late
deriving DecidableEq, Repr

/-- The bytes a turn brings. -/
def Turn.bytes : Turn → List UInt8
  | .chunk first others => first :: others
  | .quiet => []
  | .late => []

/-- A line of text. -/
abbrev Line := List Char

/-- How many bytes the turns bring. -/
def stillToCome (turns : List Turn) : ℕ := (turns.flatMap Turn.bytes).length

@[simp] theorem stillToCome_nil : stillToCome [] = 0 := rfl

@[simp] theorem stillToCome_cons (turn : Turn) (turns : List Turn) :
    stillToCome (turn :: turns) = turn.bytes.length + stillToCome turns := by
  simp [stillToCome]

/-- The octets of an ASCII text, in one piece. -/
def piece (text : String) : Turn :=
  match text.toList.map fun c => UInt8.ofNat c.toNat with
  | [] => .quiet
  | b :: bs => .chunk b bs

end Bmdwire
