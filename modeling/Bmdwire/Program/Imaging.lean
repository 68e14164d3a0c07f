import Bmdwire.Model.Transfer

/-!
# The run-length decoder of `imaging.py`

`rle_decode` copies the literal runs between headers whole, found with `bytes.find`, and
expands each header's count and value. `none` is the `struct.error` of a header whose
count is cut off, or the error of a repetition that is too long. Both loops only move forward in the data, so the fuel of one more than
its length is never used up.
-/

set_option autoImplicit false

namespace Bmdwire

/-- `_RLE_HEADER`: eight `0xFE` bytes. -/
def rleHeader : Bytes := List.replicate 8 0xFE

/-- `find(_RLE_HEADER, i)` on the bytes from index `i` on. -/
def findHeaderIn : Bytes → ℕ → Option ℕ
  | [], _ => none
  | b :: bs, i => if rleHeader.isPrefixOf (b :: bs) then some i else findHeaderIn bs (i + 1)

/-- `data.find(_RLE_HEADER, start)`. -/
def findHeader (data : Bytes) (start : ℕ) : Option ℕ := findHeaderIn (data.drop start) start

/-- The first header at or after `start` that sits on the 8-byte grid of `offset`. -/
def alignedHeader (data : Bytes) (offset : ℕ) : ℕ → ℕ → Option ℕ
  | 0, _ => none
  | fuel + 1, start =>
    match findHeader data start with
    | none => none
    | some header =>
      if (header - offset) % 8 = 0 then some header
      else alignedHeader data offset fuel (header + 8 - (header - offset) % 8)

/-- The big-endian number the bytes spell. -/
def bigEndian (bs : Bytes) : ℕ := bs.foldl (fun n b => n * 256 + b.toNat) 0

/-- `value * count`: the count and the length of the product are `Py_ssize_t`s. -/
def repeatBytes (value : Bytes) (count : ℕ) : Option Bytes :=
  if count < 2 ^ 63 ∧ value.length * count < 2 ^ 63 then
    some (List.replicate count value).flatten
  else none

/-- The loop of `rle_decode` from `offset` on. -/
def rleDecodeFrom (data : Bytes) : ℕ → ℕ → Option Bytes
  | 0, _ => some []
  | fuel + 1, offset =>
    if data.length ≤ offset then some []
    else
      match alignedHeader data offset (data.length + 1) offset with
      | none => some (data.drop offset)
      | some header =>
        -- struct.unpack_from needs the eight count bytes
        if data.length < header + 16 then none
        else
          let count := bigEndian ((data.drop (header + 8)).take 8)
          let value := (data.drop (header + 16)).take 8
          match repeatBytes value count with
          | none => none
          | some run =>
            (rleDecodeFrom data fuel (header + 24)).map fun rest =>
              (data.drop offset).take (header - offset) ++ run ++ rest

/-- `rle_decode`. -/
def rleDecode (data : Bytes) : Option Bytes := rleDecodeFrom data (data.length + 1) 0

end Bmdwire
