import Bmdwire.Program.Imaging

/-!
# The run-length encoder of `mediaconvertmodule.c`

`method_rle_encode` walks through its input eight bytes at a time. The words are compared
as `uint64_t`s, which on bytes is equality, and `RLE_HEADER` is the same bytes on every
host. The encoder is taken with its allocation successful.
-/

set_option autoImplicit false

namespace Bmdwire

/-- A byte string of the interpreter, whose length is a `Py_ssize_t`. -/
structure ByteString where
  data : Bytes
  length_lt : data.length < 2 ^ 63

/-- Eight bytes of the input, read as a `uint64_t`. -/
abbrev Word := Bytes

/-- The words of the input: `data[0]` to `data[len / 8 - 1]`. -/
def words : Bytes → List Word
  | a :: b :: c :: d :: e :: f :: g :: h :: rest => [a, b, c, d, e, f, g, h] :: words rest
  | _ => []

/-- `beputu64`: a number below `2 ^ 64`, most significant byte first. -/
def beputu64 (v : ℕ) : Word :=
  (List.range 8).map fun i => UInt8.ofNat (v / 2 ^ ((7 - i) * 8))

/-- The exceptions of `method_rle_encode`. -/
inductive RleError
  | raggedLength (length : ℕ)
  | reservedHeader
deriving DecidableEq, Repr

/-- The text of the `ValueError`. -/
def RleError.message : RleError → String
  | .raggedLength length => "RLE input length " ++ toString length ++ " is not a multiple of 8"
  | .reservedHeader => "RLE input contains the reserved header word 0xFEFEFEFEFEFEFEFE"

/-- What the `c` words counted after `word` are written as: a header, the count and the word
for more than two, else the words themselves. -/
def flushRun (c : ℕ) (word : Word) : List Word :=
  if c > 2 then [rleHeader, beputu64 c, word] else List.replicate c word

/-- The loop of `method_rle_encode` over the words from index `i` on, `before` being
`data[i - 1]`, and the flush after it. A repetition is counted and passed over unless it is
the last thing in the buffer of `len` bytes, where it falls through to the flush. -/
def encodeFrom (len : ℕ) : List Word → ℕ → Word → ℕ → List Word → Except RleError (List Word)
  | [], _, before, c, buf => .ok (buf ++ flushRun c before)
  | word :: rest, i, before, c, buf =>
    if word = rleHeader then .error .reservedHeader
    else
      let c := if i ≠ 0 ∧ before = word then c + 1 else c
      if (i ≠ 0 ∧ before = word) ∧ i + 1 < len then encodeFrom len rest (i + 1) word c buf
      else encodeFrom len rest (i + 1) word 0 (buf ++ flushRun c before ++ [word])

/-- The variables of the loop: `i`, `data[i - 1]`, `c` and the words of `buf` below `w`. -/
structure RleLoop where
  i : ℕ
  before : Word
  c : ℕ
  buf : List Word
deriving DecidableEq

/-- The variables before the first iteration. -/
def RleLoop.start : RleLoop := ⟨0, [], 0, []⟩

/-- One iteration of the loop, over the word `data[i]`. -/
def RleLoop.step (len : ℕ) (s : RleLoop) (word : Word) : Except RleError RleLoop :=
  if word = rleHeader then .error .reservedHeader
  else
    let c := if s.i ≠ 0 ∧ s.before = word then s.c + 1 else s.c
    if (s.i ≠ 0 ∧ s.before = word) ∧ s.i + 1 < len then .ok ⟨s.i + 1, word, c, s.buf⟩
    else .ok ⟨s.i + 1, word, 0, s.buf ++ flushRun c s.before ++ [word]⟩

/-- The buffer once the run in progress is flushed. -/
def RleLoop.flushed (s : RleLoop) : List Word := s.buf ++ flushRun s.c s.before

/-- `method_rle_encode`, the buffer written out as bytes. -/
def rleEncode (input : ByteString) : Except RleError Bytes :=
  let len := input.data.length
  if len % 8 ≠ 0 then .error (.raggedLength len)
  else if len = 0 then .ok []
  else (encodeFrom len (words input.data) 0 [] 0 []).map List.flatten

end Bmdwire
