import Bmdwire.Library.Words
import Bmdwire.Program.Listings

/-!
# A row of a listing is read back

The id ends at the first colon, since digits hold none, and the formats and timecodes are the
last tokens, since they hold no white space. What is left between them is the name, whatever
colons, blanks and digits it holds (`rowTokens_text`). A row is read on its own, so one that is
refused changes no other (`rows_read_back`).
-/

set_option autoImplicit false

namespace Bmdwire.Hyperdeck

open Library (Token Trimmed strip withWords cutAt)

/-- A clip as `disk list` shows it. -/
structure DiskRow where
  clipId : ℕ
  name : {cs : Line // Trimmed cs}
  fileFormat : {cs : Line // Token cs}
  videoFormat : {cs : Line // Token cs}
  duration : {cs : Line // Token cs}

/-- A clip as `clips get` shows it. -/
structure ClipsRow where
  clipId : ℕ
  name : {cs : Line // Trimmed cs}
  start : {cs : Line // Token cs}
  duration : {cs : Line // Token cs}

/-- `{id}: {name} {word} {word}…` -/
def rowText (clipId : ℕ) (name : Line) (words : List Line) : Line :=
  clipId.repr.toList ++ ':' :: ' ' :: withWords name words

/-- `{id}: {name} {file format} {video format} {duration}` -/
def DiskRow.text (row : DiskRow) : Line :=
  rowText row.clipId row.name.1 [row.fileFormat.1, row.videoFormat.1, row.duration.1]

/-- `{id}: {name} {startT} {duration}` -/
def ClipsRow.text (row : ClipsRow) : Line :=
  rowText row.clipId row.name.1 [row.start.1, row.duration.1]

def DiskRow.clip (row : DiskRow) : Clip where
  clipId := row.clipId
  name := row.name.1
  duration := row.duration.1
  fileFormat := some row.fileFormat.1
  videoFormat := some row.videoFormat.1

def ClipsRow.clip (row : ClipsRow) : Clip where
  clipId := row.clipId
  name := row.name.1
  duration := row.duration.1
  start := some row.start.1

/-- The parser refuses the row. -/
def Malformed (parser : Line → Except RowError Clip) (line : Line) : Prop :=
  ∀ clip, parser line ≠ .ok clip

section Row

variable {clipId : ℕ} {name : Line} {words : List Line}

theorem partitionColon_text (hname : Trimmed name) (hwords : ∀ w ∈ words, Token w) :
    partitionColon (rowText clipId name words) =
      (clipId.repr.toList, ' ' :: withWords name words) := by
  have hid := Library.token_repr clipId
  have hwhole : Trimmed (rowText clipId name words) := by
    have happend := hid.trimmed.append (hname.withWords hwords) [':', ' ']
    simpa [rowText] using happend
  have hcolon : ':' ∉ clipId.repr.toList := fun hmem =>
    absurd (Library.isDigit_repr clipId ':' hmem) (by decide)
  rw [partitionColon, hwhole.strip, rowText, Library.cutAt_of_notMem hcolon]
  rfl

/-- The tokens of a row: those of the name, and the words after it. -/
theorem rowTokens_text (hname : Trimmed name) (hwords : ∀ w ∈ words, Token w) :
    rowTokens (rowText clipId name words) =
      .ok (clipId, words.reverse ++ (name.splitOn ' ').reverse) := by
  have hid := (Library.token_repr clipId).trimmed.strip
  have hrest : strip (' ' :: withWords name words) = withWords name words := by
    have hblank : ∀ c ∈ [' '], Library.isSpace c = true := List.forall_mem_singleton.mpr rfl
    have haround := Library.strip_around hblank (hname.withWords hwords) (List.forall_mem_nil _)
    simpa using haround
  rw [rowTokens, partitionColon_text hname hwords]
  simp only [hid, Library.parseInt_repr, hrest, Library.splitOn_words _ hwords,
    List.reverse_append]

/-- Every row of a listing looks like one. -/
theorem looksLikeClipLine_text (hname : Trimmed name) (hwords : ∀ w ∈ words, Token w) :
    looksLikeClipLine (rowText clipId name words) = true := by
  have hne := (Library.token_repr clipId).ne_nil
  have hdigits := List.all_eq_true.mpr (Library.isDigit_repr clipId)
  rw [looksLikeClipLine, partitionColon_text hname hwords]
  exact decide_eq_true ⟨hne, hdigits⟩

/-- The tokens of the name, last first, are put together to the name. -/
theorem exists_joinBack (name : Line) :
    ∃ word rest, (name.splitOn ' ').reverse = word :: rest ∧ joinBack (word :: rest) = name := by
  have hne : (name.splitOn ' ').reverse ≠ [] := by simp
  obtain ⟨word, rest, hback⟩ := List.exists_cons_of_ne_nil hne
  refine ⟨word, rest, hback, ?_⟩
  rw [joinBack, ← hback, List.reverse_reverse]
  exact List.intercalate_splitOn ' '

end Row

theorem parseDiskLine_text (row : DiskRow) : parseDiskLine row.text = .ok row.clip := by
  obtain ⟨word, rest, hback, hjoin⟩ := exists_joinBack row.name.1
  have htokens := @rowTokens_text row.clipId _
    [row.fileFormat.1, row.videoFormat.1, row.duration.1] row.name.2
    (by simp [row.fileFormat.2, row.videoFormat.2, row.duration.2])
  rw [hback] at htokens
  simp [parseDiskLine, DiskRow.text, DiskRow.clip, htokens, hjoin]

theorem parseClipsV1Line_text (row : ClipsRow) : parseClipsV1Line row.text = .ok row.clip := by
  obtain ⟨word, rest, hback, hjoin⟩ := exists_joinBack row.name.1
  have htokens := @rowTokens_text row.clipId _ [row.start.1, row.duration.1]
    row.name.2 (by simp [row.start.2, row.duration.2])
  rw [hback] at htokens
  simp [parseClipsV1Line, ClipsRow.text, ClipsRow.clip, htokens, hjoin]

section Listing

variable {parser : Line → Except RowError Clip} {row : Line}

/-- A row between others. -/
theorem parseClipLines_between (before after : List Line) :
    parseClipLines (before ++ row :: after) parser =
      parseClipLines before parser ++ parseClipLines [row] parser ++
        parseClipLines after parser := by
  rw [← List.singleton_append, ← List.append_assoc]
  simp only [parseClipLines, List.filterMap_append]

theorem parseClipLines_row {clip : Clip} (hlooks : looksLikeClipLine row = true)
    (hparse : parser row = .ok clip) : parseClipLines [row] parser = [clip] := by
  simp [parseClipLines, hlooks, hparse, Except.toOption]

theorem parseClipLines_malformed (hrow : Malformed parser row) :
    parseClipLines [row] parser = [] := by
  cases hparse : parser row with
  | error e => simp [parseClipLines, hparse, Except.toOption]
  | ok clip => exact absurd hparse (hrow clip)

end Listing

/-- **Rows are read back**: each row of the two listings gives the fields it was made of, alone
and between any other lines, and a row that is refused is as good as absent. -/
theorem rows_read_back :
    (∀ row : DiskRow, parseDiskLine row.text = .ok row.clip) ∧
    (∀ row : ClipsRow, parseClipsV1Line row.text = .ok row.clip) ∧
    ∀ before after : List Line,
      (∀ row : DiskRow, parseClipLines (before ++ row.text :: after) parseDiskLine =
        parseClipLines before parseDiskLine ++ row.clip :: parseClipLines after parseDiskLine) ∧
      (∀ row : ClipsRow, parseClipLines (before ++ row.text :: after) parseClipsV1Line =
        parseClipLines before parseClipsV1Line ++
          row.clip :: parseClipLines after parseClipsV1Line) ∧
      ∀ parser row, Malformed parser row →
        parseClipLines (before ++ row :: after) parser = parseClipLines (before ++ after) parser := by
  refine ⟨parseDiskLine_text, parseClipsV1Line_text, fun before after => ⟨?_, ?_, ?_⟩⟩
  · intro row
    have hlooks : looksLikeClipLine row.text = true :=
      looksLikeClipLine_text row.name.2
        (by simp [row.fileFormat.2, row.videoFormat.2, row.duration.2])
    rw [parseClipLines_between, parseClipLines_row hlooks (parseDiskLine_text row)]
    simp
  · intro row
    have hlooks : looksLikeClipLine row.text = true :=
      looksLikeClipLine_text row.name.2 (by simp [row.start.2, row.duration.2])
    rw [parseClipLines_between, parseClipLines_row hlooks (parseClipsV1Line_text row)]
    simp
  · intro parser row hrow
    rw [parseClipLines_between, parseClipLines_malformed hrow]
    simp [parseClipLines]

example : parseDiskLine "7: 00:00:01:00 take 2: a  b.mov H.264 1080p25 00:01:03:17".toList =
    .ok {
      clipId := 7
      name := "00:00:01:00 take 2: a  b.mov".toList
      duration := "00:01:03:17".toList
      fileFormat := some "H.264".toList
      videoFormat := some "1080p25".toList } := by
  decide

/-- A row cut short, between a header and a row that is whole. -/
theorem rows_read_back_short :
    parseClipLines ["slot id: 1".toList, "1: intro.mov H.264".toList,
      "2: intro.mov H.264 1080p25 00:00:30:00".toList] parseDiskLine =
    parseClipLines ["slot id: 1".toList, "2: intro.mov H.264 1080p25 00:00:30:00".toList]
      parseDiskLine :=
  (rows_read_back.2.2 ["slot id: 1".toList] ["2: intro.mov H.264 1080p25 00:00:30:00".toList]).2.2
    parseDiskLine "1: intro.mov H.264".toList fun clip hclip =>
      absurd (hclip.symm.trans (by decide : _ = Except.error
        (.malformedDiskList "1: intro.mov H.264".toList))) (by simp)

/-- The listing an answer brings. -/
theorem diskList_answer {hd hd' : Hyperdeck} {resp : Response}
    (hrequest : hd.request "disk list".toList = (.ok resp, hd')) (hok : resp.isError = false)
    {rows : List DiskRow} (hlines : resp.lines = rows.map DiskRow.text) :
    hd.diskList none = (.ok (rows.map DiskRow.clip), hd') := by
  have hrows : parseClipLines (rows.map DiskRow.text) parseDiskLine = rows.map DiskRow.clip := by
    clear hlines
    induction rows with
    | nil => rfl
    | cons row rows ih =>
      have hlooks : looksLikeClipLine row.text = true :=
        looksLikeClipLine_text row.name.2
          (by simp [row.fileFormat.2, row.videoFormat.2, row.duration.2])
      have hbetween := @parseClipLines_between parseDiskLine row.text []
        (rows.map DiskRow.text)
      rw [parseClipLines_row hlooks (parseDiskLine_text row), ih] at hbetween
      exact hbetween
  simp only [diskList, hrequest, hok, hlines, hrows]
  rfl

end Bmdwire.Hyperdeck
