import Bmdwire.Program.Preamble

/-!
# The file list of a prelude

What ends a section is told from how a line looks, and the first line after a heading is taken
whatever it looks like. So the file list is read back exactly when every name is `Clean`, no
name but the first looks like the end of the section, and an empty list has a blank line after
it or nothing at all (`parseFileList_iff`).
-/

set_option autoImplicit false

namespace Bmdwire.Ultimatte

open Library (isSpace strip stripped Clean Trimmed)

/-! ## Lines -/

/-- Lines, each with its line feed. -/
def writeLines (lines : List Line) : Line := lines.flatMap (· ++ ['\n'])

@[simp] theorem writeLines_nil : writeLines [] = [] := rfl

@[simp] theorem writeLines_append (lines others : List Line) :
    writeLines (lines ++ others) = writeLines lines ++ writeLines others := by
  simp [writeLines]

@[simp] theorem writeLines_cons (line : Line) (lines : List Line) :
    writeLines (line :: lines) = line ++ '\n' :: writeLines lines := by
  simp [writeLines]

/-- The line is the header, but for blanks after it. -/
def HeaderLine (header line : Line) : Prop :=
  ∃ blanks, line = header ++ ':' :: blanks ∧ ∀ c ∈ blanks, c = ' ' ∨ c = '\t'

/-- A capital, and then capitals, digits and blanks. -/
def IsHeading (cs : Line) : Prop :=
  ∃ c rest, cs = c :: rest ∧ isCapital c = true ∧ ∀ d ∈ rest, isHeadingChar d = true

/-- The line is a heading, but for white space after it. -/
def HeadingLine (line : Line) : Prop :=
  ∃ heading rest, line = heading ++ ':' :: rest ∧ IsHeading heading ∧
    ∀ c ∈ rest, isSpace c = true

/-- The line looks like the end of the section before it. -/
def EndsLine (line : Line) : Prop := HeadingLine line ∨ endPrelude <+: line

section Header

variable {header line : Line}

/-- The header is looked for within one line. -/
theorem afterHeader_of_headerLine (h : HeaderLine header line) (text : Line) :
    afterHeader header (line ++ '\n' :: text) = some text := by
  obtain ⟨blanks, rfl, hblanks⟩ := h
  have hrest : (blanks ++ '\n' :: text).dropWhile (fun c => c = ' ' ∨ c = '\t') =
      '\n' :: text := by
    rw [List.dropWhile_append_of_pos (by simpa using hblanks)]
    rfl
  have hcut : (header ++ [':']).isPrefixOf? (header ++ ':' :: blanks ++ '\n' :: text) =
      some (blanks ++ '\n' :: text) := by
    rw [List.isPrefixOf?_eq_some_iff_append_eq]
    simp
  rw [afterHeader, hcut, Option.bind_some, hrest]
  rfl

theorem afterHeader_of_not (hheader : '\n' ∉ header) (hline : '\n' ∉ line)
    (h : ¬ HeaderLine header line) (text : Line) :
    afterHeader header (line ++ '\n' :: text) = none := by
  unfold afterHeader
  cases hcut : (header ++ [':']).isPrefixOf? (line ++ '\n' :: text) with
  | none => rfl
  | some rest =>
    rw [List.isPrefixOf?_eq_some_iff_append_eq] at hcut
    -- the header has no line feed, so it lies in the line
    obtain ⟨blanks, hblanks, hrest⟩ | ⟨more, hmore, hfeed⟩ := List.append_eq_append_iff.mp hcut
    · rw [Option.bind_some, hrest]
      have hdrop : (blanks ++ '\n' :: text).dropWhile (fun c => c = ' ' ∨ c = '\t') =
          blanks.dropWhile (fun c => c = ' ' ∨ c = '\t') ++ '\n' :: text := by
        rw [List.dropWhile_append]
        split
        · rename_i hnil
          rw [List.isEmpty_iff.mp hnil]
          rfl
        · rfl
      rw [hdrop]
      cases hleft : blanks.dropWhile (fun c => c = ' ' ∨ c = '\t') with
      | nil =>
        refine absurd ⟨blanks, by simpa using hblanks, ?_⟩ h
        simpa using List.dropWhile_eq_nil_iff.mp hleft
      | cons c left =>
        have hmem : c ∈ line := by
          have hblank := (List.dropWhile_suffix _).subset (hleft ▸ List.mem_cons_self ..)
          rw [hblanks]
          exact List.mem_append_right _ hblank
        have hne : c ≠ '\n' := fun heq => hline (heq ▸ hmem)
        simp [hne]
    · cases more with
      | nil =>
        refine absurd ⟨[], by simpa using hmore.symm, ?_⟩ h
        simp
      | cons c more =>
        obtain ⟨rfl, -⟩ := List.cons.inj hfeed
        have hmem : '\n' ∈ header ++ [':'] := by
          rw [hmore]
          simp
        simp [hheader] at hmem

/-- Lines before the header are passed over. -/
theorem searchHeader_line (hheader : '\n' ∉ header) (hline : '\n' ∉ line)
    (h : ¬ HeaderLine header line) (text : Line) :
    searchHeader header true (line ++ '\n' :: text) = searchHeader header true text := by
  -- within a line nothing is looked for
  have hwithin : ∀ cs : Line, '\n' ∉ cs →
      searchHeader header false (cs ++ '\n' :: text) = searchHeader header true text := by
    intro cs hcs
    induction cs with
    | nil => rw [List.nil_append, searchHeader]; rfl
    | cons c cs ih =>
      have hc : c ≠ '\n' := fun heq => hcs (heq ▸ List.mem_cons_self ..)
      rw [List.cons_append, searchHeader]
      simpa [hc] using ih fun hmem => hcs (List.mem_cons_of_mem _ hmem)
  have hnone := afterHeader_of_not hheader hline h text
  cases line with
  | nil =>
    rw [List.nil_append] at hnone ⊢
    rw [searchHeader, if_pos rfl, hnone]
    rfl
  | cons c cs =>
    have hc : c ≠ '\n' := fun heq => hline (heq ▸ List.mem_cons_self ..)
    rw [List.cons_append] at hnone ⊢
    rw [searchHeader, if_pos rfl, hnone]
    simpa [hc] using hwithin cs fun hmem => hline (List.mem_cons_of_mem _ hmem)

theorem searchHeader_lines (hheader : '\n' ∉ header) {lines : List Line}
    (hlines : ∀ l ∈ lines, '\n' ∉ l ∧ ¬ HeaderLine header l) (hline : HeaderLine header line)
    (text : Line) :
    searchHeader header true (writeLines lines ++ (line ++ '\n' :: text)) = some text := by
  induction lines with
  | nil =>
    have hfound := afterHeader_of_headerLine hline text
    obtain ⟨c, rest, hcons⟩ : ∃ c rest, line ++ '\n' :: text = c :: rest := by
      cases line <;> simp
    rw [hcons] at hfound
    rw [writeLines_nil, List.nil_append, hcons, searchHeader, if_pos rfl, hfound]
  | cons l lines ih =>
    have hl := hlines l (List.mem_cons_self ..)
    rw [writeLines_cons, List.append_assoc, List.cons_append,
      searchHeader_line hheader hl.1 hl.2]
    exact ih fun k hk => hlines k (List.mem_cons_of_mem _ hk)

end Header

section Body

variable {line : Line}

theorem capsHeader_line (hline : '\n' ∉ line) (text : Line) :
    capsHeader (line ++ '\n' :: text) = true ↔ HeadingLine line := by
  constructor
  · intro h
    cases line with
    | nil => exact absurd h (by simp [capsHeader, isCapital])
    | cons c cs =>
      rw [List.cons_append, capsHeader, Bool.and_eq_true] at h
      obtain ⟨hc, h⟩ := h
      have hdrop : (cs ++ '\n' :: text).dropWhile isHeadingChar =
          cs.dropWhile isHeadingChar ++ '\n' :: text := by
        rw [List.dropWhile_append]
        split
        · rename_i hnil
          rw [List.isEmpty_iff.mp hnil]
          rfl
        · rfl
      rw [hdrop] at h
      cases hleft : cs.dropWhile isHeadingChar with
      | nil => simp [hleft] at h
      | cons d rest =>
        rw [hleft, List.cons_append] at h
        have hcolon : d = ':' := by
          by_contra hne
          simp [hne] at h
        subst hcolon
        have hcs := List.takeWhile_append_dropWhile (p := isHeadingChar) (l := cs)
        have hrest : '\n' ∉ rest := fun hmem => hline <| by
          rw [← hcs, hleft]
          simp [hmem]
        refine ⟨c :: cs.takeWhile isHeadingChar, rest, ?_, ⟨c, _, rfl, hc, ?_⟩, ?_⟩
        · rw [List.cons_append, ← hleft, hcs]
        · exact fun e he => List.mem_takeWhile_imp he
        · have hfeed : '\n' ∈ (rest ++ '\n' :: text).takeWhile isSpace := by simpa using h
          rw [List.takeWhile_append] at hfeed
          split at hfeed
          · rename_i hlength
            have hall := (List.takeWhile_prefix isSpace).eq_of_length hlength
            exact List.takeWhile_eq_self_iff.mp hall
          · exact absurd ((List.takeWhile_prefix isSpace).subset hfeed) hrest
  · rintro ⟨heading, rest, rfl, ⟨c, cs, rfl, hc, hcs⟩, hrest⟩
    have hdrop : (cs ++ ':' :: rest ++ '\n' :: text).dropWhile isHeadingChar =
        ':' :: (rest ++ '\n' :: text) := by
      rw [List.append_assoc, List.dropWhile_append_of_pos hcs]
      rfl
    have htake : (rest ++ '\n' :: text).takeWhile isSpace =
        rest ++ ('\n' :: text).takeWhile isSpace := List.takeWhile_append_of_pos hrest
    rw [List.cons_append, List.cons_append, capsHeader, hdrop]
    simp [hc, htake, isSpace]

theorem isPrefixOf_endPrelude (line text : Line) :
    endPrelude.isPrefixOf (line ++ '\n' :: text) = true ↔ endPrelude <+: line := by
  rw [List.isPrefixOf_iff_prefix]
  constructor
  · intro h
    -- the marker has no line feed, so it lies in the line
    obtain hle | hlt := le_or_gt endPrelude.length line.length
    · exact List.prefix_of_prefix_length_le h (List.prefix_append line _) hle
    · have hline : line ++ ['\n'] <+: endPrelude := by
        refine @List.prefix_of_prefix_length_le _ _ _ (line ++ '\n' :: text) ⟨text, by simp⟩ h ?_
        rw [List.length_append, List.length_singleton]
        omega
      have hmem : '\n' ∈ endPrelude := hline.subset (by simp)
      exact absurd hmem (by decide)
  · exact fun h => h.trans (List.prefix_append line _)

/-- The end of a section is looked for at the beginnings of lines. -/
theorem endsSection_line (hline : '\n' ∉ line) (text : Line) :
    endsSection ('\n' :: (line ++ '\n' :: text)) = true ↔ EndsLine line := by
  have hcaps := capsHeader_line hline text
  have hmarker := isPrefixOf_endPrelude line text
  simp only [endsSection, decide_true, Bool.true_and, Bool.or_eq_true, EndsLine, hcaps, hmarker]

theorem sectionBody_append (hline : '\n' ∉ line) (text : Line) :
    sectionBody (line ++ text) = line ++ sectionBody text := by
  induction line with
  | nil => rfl
  | cons c cs ih =>
    have hc : c ≠ '\n' := fun heq => hline (heq ▸ List.mem_cons_self ..)
    rw [List.cons_append, sectionBody, if_neg (by simp [endsSection, hc]),
      ih fun hmem => hline (List.mem_cons_of_mem _ hmem)]
    rfl

theorem sectionBody_stop (hline : '\n' ∉ line) (h : EndsLine line) (text : Line) :
    sectionBody ('\n' :: (line ++ '\n' :: text)) = [] := by
  rw [sectionBody, if_pos ((endsSection_line hline text).mpr h)]

theorem sectionBody_keep (hline : '\n' ∉ line) (h : ¬ EndsLine line) (text : Line) :
    sectionBody ('\n' :: (line ++ '\n' :: text)) =
      '\n' :: line ++ sectionBody ('\n' :: text) := by
  rw [sectionBody, if_neg (fun hends => h ((endsSection_line hline text).mp hends)),
    sectionBody_append hline]
  rfl

theorem sectionBody_lines {lines : List Line} (h : ∀ l ∈ lines, '\n' ∉ l ∧ ¬ EndsLine l)
    (text : Line) :
    sectionBody ('\n' :: (writeLines lines ++ text)) =
      lines.flatMap ('\n' :: ·) ++ sectionBody ('\n' :: text) := by
  induction lines with
  | nil => rfl
  | cons l lines ih =>
    have hl := h l (List.mem_cons_self ..)
    rw [writeLines_cons, List.append_assoc, List.cons_append, sectionBody_keep hl.1 hl.2,
      ih fun k hk => h k (List.mem_cons_of_mem _ hk)]
    simp

end Body

/-- Whatever is read is clean. -/
theorem clean_of_parseFileList (text : Line) : ∀ name ∈ parseFileList text, Clean name := by
  intro name hname
  simp only [parseFileList] at hname
  split at hname
  · exact absurd hname List.not_mem_nil
  · exact Library.clean_of_stripped hname

/-! ## Preludes -/

/-- A section: its heading, its lines, and a blank line when there is one. -/
structure Section where
  heading : {cs : Line // IsHeading cs}
  lines : List {l : Line // '\n' ∉ l}
  blank : Bool

/-- A blank line, when there is one. -/
def gap (blank : Bool) : List Line := if blank then [[]] else []

/-- The section, line by line. -/
def Section.written (s : Section) : List Line :=
  (s.heading.1 ++ [':']) :: (s.lines.map Subtype.val ++ gap s.blank)

/-- A prelude: sections, of which the first with the heading `FILE LIST` has the names of the
files for its lines. -/
structure Prelude where
  before : List Section
  names : List {name : Line // '\n' ∉ name}
  blank : Bool
  after : List Section
  first : ∀ s ∈ before, ∀ l ∈ s.written, ¬ HeaderLine fileList l

namespace Prelude

/-- The names of the files. -/
def files (p : Prelude) : List Line := p.names.map Subtype.val

/-- The lines after the heading `FILE LIST`. -/
def listed (p : Prelude) : List Line :=
  p.files ++ gap p.blank ++ p.after.flatMap Section.written

/-- The text that the unit sends. -/
def text (p : Prelude) : Line :=
  writeLines (p.before.flatMap Section.written) ++
    (fileList ++ [':'] ++ '\n' :: writeLines p.listed)

/-- The file list can be told from the sections around it. -/
structure Readable (p : Prelude) : Prop where
  clean : ∀ name ∈ p.files, Clean name
  inside : ∀ name ∈ p.files.tail, ¬ EndsLine name
  closed : p.files = [] → p.blank = true ∨ p.after = []

end Prelude

theorem lineFeed_notMem_heading {cs : Line} (h : IsHeading cs) : '\n' ∉ cs ++ [':'] := by
  obtain ⟨c, rest, rfl, hc, hrest⟩ := h
  intro hmem
  simp only [List.cons_append, List.mem_cons, List.mem_append, List.not_mem_nil, or_false] at hmem
  obtain rfl | hmem | hcolon := hmem
  · exact absurd hc (by decide)
  · exact absurd (hrest '\n' hmem) (by decide)
  · exact absurd hcolon (by decide)

theorem lineFeed_notMem_gap {blank : Bool} : ∀ l ∈ gap blank, '\n' ∉ l := by
  cases blank <;> simp [gap]

theorem lineFeed_notMem_written {sections : List Section} :
    ∀ l ∈ sections.flatMap Section.written, '\n' ∉ l := by
  intro l hl
  obtain ⟨s, -, hl⟩ := List.mem_flatMap.mp hl
  obtain rfl | hl := List.mem_cons.mp hl
  · exact lineFeed_notMem_heading s.heading.2
  · obtain hl | hl := List.mem_append.mp hl
    · obtain ⟨line, -, rfl⟩ := List.mem_map.mp hl
      exact line.2
    · exact lineFeed_notMem_gap l hl

theorem endsLine_heading {cs : Line} (h : IsHeading cs) : EndsLine (cs ++ [':']) :=
  .inl ⟨cs, [], rfl, h, by simp⟩

theorem not_endsLine_gap {blank : Bool} : ∀ l ∈ gap blank, '\n' ∉ l ∧ ¬ EndsLine l := by
  intro l hl
  refine ⟨lineFeed_notMem_gap l hl, ?_⟩
  obtain rfl : l = [] := by
    cases blank with
    | false => simp [gap] at hl
    | true => simpa [gap] using hl
  rintro (⟨heading, rest, hnil, -⟩ | hpre)
  · simp at hnil
  · exact absurd (List.prefix_nil.mp hpre) (by decide)

/-- The first of the lines that look like the end of the section. -/
theorem exists_first_stop {lines : List Line} (h : ¬ ∀ l ∈ lines, ¬ EndsLine l) :
    ∃ kept stop more, lines = kept ++ stop :: more ∧ (∀ l ∈ kept, ¬ EndsLine l) ∧
      EndsLine stop := by
  classical
  simp only [not_forall, not_not] at h
  obtain ⟨l, hl, hends⟩ := h
  obtain ⟨stop, hfind⟩ : ∃ stop, lines.find? (fun k => decide (EndsLine k)) = some stop :=
    Option.isSome_iff_exists.mp (List.find?_isSome.mpr ⟨l, hl, decide_eq_true hends⟩)
  obtain ⟨hstop, kept, more, hlines, hkept⟩ := List.find?_eq_some_iff_append.mp hfind
  exact ⟨kept, stop, more, hlines, fun k hk => by simpa using hkept k hk, of_decide_eq_true hstop⟩

theorem not_space_of_capital {c : Char} (h : isCapital c = true) : isSpace c = false := by
  have hrange : 'A' ≤ c ∧ c ≤ 'Z' := by simpa [isCapital] using h
  have hlow : 65 ≤ c.toNat := hrange.1
  have hhigh : c.toNat ≤ 90 := hrange.2
  simp only [isSpace, decide_eq_false_iff_not]
  omega

namespace Prelude

variable {p : Prelude}

theorem lineFeed_notMem_files : ∀ name ∈ p.files, '\n' ∉ name := by
  intro name hname
  obtain ⟨name, -, rfl⟩ := List.mem_map.mp hname
  exact name.2

/-- The file list is what the section's body makes it. -/
theorem parseFileList_text (p : Prelude) :
    parseFileList p.text =
      if strip (sectionBody (writeLines p.listed)) = [] then []
      else stripped (strip (sectionBody (writeLines p.listed))) := by
  have hsearch : searchHeader fileList true p.text = some (writeLines p.listed) := by
    refine searchHeader_lines (by decide) ?_ ⟨[], rfl, by simp⟩ _
    intro l hl
    obtain ⟨s, hs, hmem⟩ := List.mem_flatMap.mp hl
    exact ⟨lineFeed_notMem_written l hl, p.first s hs l hmem⟩
  rw [parseFileList, parseSection, hsearch]

/-- After the file list there is the end of the text, or a heading. -/
theorem sectionBody_after (sections : List Section) :
    ∃ feeds, (∀ c ∈ feeds, isSpace c = true) ∧
      sectionBody ('\n' :: writeLines (sections.flatMap Section.written)) = feeds := by
  cases sections with
  | nil => exact ⟨['\n'], List.forall_mem_singleton.mpr rfl, rfl⟩
  | cons s sections =>
    refine ⟨[], by simp, ?_⟩
    rw [List.flatMap_cons, Section.written, List.cons_append, writeLines_cons]
    exact sectionBody_stop (lineFeed_notMem_heading s.heading.2) (endsLine_heading s.heading.2) _

/-- Names that can be told from what follows are all in the body, with white space after them. -/
theorem sectionBody_listed {name : Line} {names : List Line} (hfiles : p.files = name :: names)
    (hinside : ∀ n ∈ names, ¬ EndsLine n) :
    ∃ after, (∀ c ∈ after, isSpace c = true) ∧
      sectionBody (writeLines p.listed) = name ++ names.flatMap ('\n' :: ·) ++ after := by
  have hplain : ∀ n ∈ name :: names, '\n' ∉ n := hfiles ▸ p.lineFeed_notMem_files
  obtain ⟨feeds, hfeeds, hafter⟩ := sectionBody_after p.after
  have hlines : ∀ l ∈ names ++ gap p.blank, '\n' ∉ l ∧ ¬ EndsLine l := by
    intro l hl
    obtain hl | hl := List.mem_append.mp hl
    · exact ⟨hplain l (List.mem_cons_of_mem _ hl), hinside l hl⟩
    · exact not_endsLine_gap l hl
  refine ⟨(gap p.blank).flatMap ('\n' :: ·) ++ feeds, ?_, ?_⟩
  · intro c hc
    obtain hc | hc := List.mem_append.mp hc
    · cases hblank : p.blank with
      | false => simp [hblank, gap] at hc
      | true =>
        obtain rfl : c = '\n' := by simpa [hblank, gap] using hc
        rfl
    · exact hfeeds c hc
  · have hwritten : writeLines p.listed = name ++ '\n' ::
        (writeLines (names ++ gap p.blank) ++ writeLines (p.after.flatMap Section.written)) := by
      simp [listed, hfiles]
    rw [hwritten, sectionBody_append (hplain name (List.mem_cons_self ..)),
      sectionBody_lines hlines, hafter]
    simp

/-- A name that looks like the end of the section ends it. -/
theorem sectionBody_cut {name stop : Line} {kept more : List Line}
    (hfiles : p.files = name :: (kept ++ stop :: more)) (hkept : ∀ n ∈ kept, ¬ EndsLine n)
    (hstop : EndsLine stop) :
    sectionBody (writeLines p.listed) = name ++ kept.flatMap ('\n' :: ·) := by
  have hplain : ∀ n ∈ name :: (kept ++ stop :: more), '\n' ∉ n := hfiles ▸ p.lineFeed_notMem_files
  have hwritten : writeLines p.listed = name ++ '\n' :: (writeLines kept ++ (stop ++ '\n' ::
      (writeLines (more ++ gap p.blank ++ p.after.flatMap Section.written)))) := by
    simp [listed, hfiles]
  rw [hwritten, sectionBody_append (hplain name (by simp)), sectionBody_lines,
    sectionBody_stop (hplain stop (by simp)) hstop, List.append_nil]
  exact fun l hl => ⟨hplain l (by simp [hl]), hkept l hl⟩

theorem parseFileList_of_readable (h : p.Readable) : parseFileList p.text = p.files := by
  rw [parseFileList_text]
  cases hfiles : p.files with
  | cons name names =>
    have hinside := h.inside
    rw [hfiles, List.tail_cons] at hinside
    obtain ⟨after, hafter, hbody⟩ := sectionBody_listed hfiles hinside
    have hread := Library.stripped_strip_lines (hfiles ▸ h.clean) hafter
    rw [hbody, if_neg hread.1, hread.2]
  | nil =>
    obtain ⟨feeds, hfeeds, hafter⟩ := sectionBody_after p.after
    -- nothing but white space
    have hbody : ∀ c ∈ sectionBody (writeLines p.listed), isSpace c = true := by
      obtain hblank | hnone := h.closed hfiles
      · have hwritten : writeLines p.listed =
            [] ++ '\n' :: writeLines (p.after.flatMap Section.written) := by
          simp [listed, hfiles, hblank, gap]
        rw [hwritten, sectionBody_append (by simp), hafter]
        exact hfeeds
      · cases hblank : p.blank with
        | false => simp [listed, hfiles, hblank, hnone, gap, sectionBody]
        | true =>
          have hwritten : writeLines p.listed = ['\n'] := by
            simp [listed, hfiles, hblank, hnone, gap]
          rw [hwritten]
          exact List.forall_mem_singleton.mpr rfl
    rw [if_pos (Library.strip_eq_nil_iff.mpr hbody)]

theorem readable_of_parseFileList (h : parseFileList p.text = p.files) : p.Readable where
  clean := h ▸ clean_of_parseFileList p.text
  inside := by
    have hclean : ∀ name ∈ p.files, Clean name := by
      rw [← h]
      exact clean_of_parseFileList p.text
    cases hfiles : p.files with
    | nil => simp
    | cons name names =>
      rw [List.tail_cons]
      by_contra hends
      obtain ⟨kept, stop, more, rfl, hkept, hstop⟩ := exists_first_stop hends
      have hkeptClean : ∀ n ∈ name :: kept, Clean n := by
        intro n hn
        refine hclean n (hfiles ▸ ?_)
        obtain rfl | hn := List.mem_cons.mp hn
        · exact List.mem_cons_self ..
        · exact List.mem_cons_of_mem _ (List.mem_append_left _ hn)
      have hread := @Library.stripped_strip_lines _ _ hkeptClean [] (by simp)
      rw [parseFileList_text, sectionBody_cut hfiles hkept hstop, ← List.append_nil (_ ++ _),
        if_neg hread.1, hread.2, hfiles] at h
      have hlength := congrArg List.length h
      simp only [List.length_cons, List.length_append] at hlength
      omega
  closed := by
    intro hfiles
    by_contra hopen
    rw [not_or, Bool.not_eq_true] at hopen
    obtain ⟨s, sections, hafter⟩ := List.exists_cons_of_ne_nil hopen.2
    obtain ⟨c, rest, hheading, hc, -⟩ := s.heading.2
    -- the heading of the next section is taken for a name
    have hspace : isSpace c = false := not_space_of_capital hc
    have hwritten : ∃ text, writeLines p.listed = [c] ++ text := by
      simp [listed, hfiles, hopen.1, hafter, gap, Section.written, hheading]
    obtain ⟨text, htext⟩ := hwritten
    have hne : c ≠ '\n' := by
      rintro rfl
      exact absurd hspace (by decide)
    have hbody := @sectionBody_append [c] (by simpa using hne.symm) text
    rw [parseFileList_text, htext, hbody, hfiles] at h
    have hstrip : strip ([c] ++ sectionBody text) ≠ [] := fun hnil =>
      absurd (Library.strip_eq_nil_iff.mp hnil c (by simp)) (by simp [hspace])
    rw [if_neg hstrip] at h
    obtain ⟨d, ds, hcons⟩ := List.exists_cons_of_ne_nil hstrip
    have hfirst := (Library.trimmed_strip hstrip).first d (by rw [hcons]; rfl)
    rw [hcons] at h
    exact Library.stripped_ne_nil hfirst ds h

end Prelude

/-- **What the file list reads as**: the names of the files, in order and no other line, exactly
when they can be told from the sections around them. -/
theorem parseFileList_iff (p : Prelude) : parseFileList p.text = p.files ↔ p.Readable :=
  ⟨Prelude.readable_of_parseFileList, Prelude.parseFileList_of_readable⟩

def preludeEnd : Section where
  heading := ⟨endPrelude.dropLast, 'E', _, rfl, rfl, List.all_eq_true.mp rfl⟩
  lines := []
  blank := false

/-- A unit with no files, which sends no blank line after the empty list. -/
def noFiles : Prelude where
  before := []
  names := []
  blank := false
  after := [preludeEnd]
  first := by simp

/-- A unit with a file whose name ends in a colon. -/
def fileWithColon : Prelude where
  before := []
  names := [⟨"preset-a".toList, by decide⟩, ⟨"TAKE 2:".toList, by decide⟩,
    ⟨"preset-b".toList, by decide⟩]
  blank := true
  after := [preludeEnd]
  first := by simp

/-- The end of the prelude is read as a file, and a file and the one after it are missed. -/
theorem parseFileList_misread :
    parseFileList noFiles.text = [endPrelude] ∧ noFiles.files = [] ∧
    parseFileList fileWithColon.text = ["preset-a".toList] ∧
    fileWithColon.files = ["preset-a".toList, "TAKE 2:".toList, "preset-b".toList] := by
  decide

end Bmdwire.Ultimatte
