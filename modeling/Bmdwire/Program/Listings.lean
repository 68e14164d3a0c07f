import Bmdwire.Program.Hyperdeck

/-!
# The listings of the HyperDeck

`hyperdeckwire/client.py`: the rows of `disk list` and of `clips get`, read from the right.
-/

set_option autoImplicit false

namespace Bmdwire

open Library (parseInt strip cutAt)

/-- One row of a listing. Which listing it is from decides which fields are set. -/
structure Clip where
  clipId : ℤ
  name : Line
  duration : Line
  start : Option Line := none
  fileFormat : Option Line := none
  videoFormat : Option Line := none
deriving DecidableEq, Repr

/-- The `ValueError`s of the row parsers. -/
inductive RowError
  | notAnInteger (text : Line)
  | malformedDiskList (line : Line)
  | malformedClips (line : Line)
deriving DecidableEq, Repr

/-- `line.strip().partition(':')`, without the colon. -/
def partitionColon (line : Line) : Line × Line := (cutAt [':'] (strip line)).getD (strip line, [])

/-- `_looks_like_clip_line` -/
def looksLikeClipLine (line : Line) : Bool :=
  let head := (partitionColon line).1
  head ≠ [] ∧ head.all Char.isDigit

/-- The id of a row and its tokens, the last one first. -/
def rowTokens (line : Line) : Except RowError (ℤ × List Line) :=
  let (head, rest) := partitionColon line
  match parseInt 10 (strip head) with
  | none => .error (.notAnInteger (strip head))
  | some clipId => .ok (clipId, ((strip rest).splitOn ' ').reverse)

/-- `' '.join` of tokens of which the last comes first. -/
def joinBack (tokens : List Line) : Line := [' '].intercalate tokens.reverse

/-- `_parse_disk_line` -/
def parseDiskLine (line : Line) : Except RowError Clip :=
  match rowTokens line with
  | .error e => .error e
  | .ok (clipId, duration :: videoFormat :: fileFormat :: word :: words) =>
    .ok {
      clipId := clipId
      name := joinBack (word :: words)
      duration := duration
      fileFormat := some fileFormat
      videoFormat := some videoFormat }
  | .ok _ => .error (.malformedDiskList line)

/-- `_parse_clips_v1_line` -/
def parseClipsV1Line (line : Line) : Except RowError Clip :=
  match rowTokens line with
  | .error e => .error e
  | .ok (clipId, duration :: start :: word :: words) =>
    .ok {
      clipId := clipId
      name := joinBack (word :: words)
      duration := duration
      start := some start }
  | .ok _ => .error (.malformedClips line)

/-- `_parse_clip_lines`: headers are filtered out, and a row that is refused is skipped. -/
def parseClipLines (lines : List Line) (parser : Line → Except RowError Clip) : List Clip :=
  lines.filterMap fun line => if looksLikeClipLine line then (parser line).toOption else none

namespace Hyperdeck

/-- `disk_list` -/
def diskList (hd : Hyperdeck) (slotId : Option ℕ) : Except DeckError (List Clip) × Hyperdeck :=
  let command := match slotId with
    | none => "disk list".toList
    | some slotId => "disk list: slot id: ".toList ++ slotId.repr.toList
  match hd.request command with
  | (.error e, hd) => (.error e, hd)
  | (.ok resp, hd) =>
    if resp.isError then (.error (.refused resp.code resp.text), hd)
    else (.ok (parseClipLines resp.lines parseDiskLine), hd)

/-- `clips_get` -/
def clipsGet (hd : Hyperdeck) : Except DeckError (List Clip) × Hyperdeck :=
  match hd.request "clips get".toList with
  | (.error e, hd) => (.error e, hd)
  | (.ok resp, hd) =>
    -- an empty timeline
    if resp.code = 107 then (.ok [], hd)
    else if resp.isError then (.error (.refused resp.code resp.text), hd)
    else (.ok (parseClipLines resp.lines parseClipsV1Line), hd)

end Hyperdeck

end Bmdwire
