import Bmdwire.Library.Words
import Mathlib.Data.List.TakeWhile

/-!
# The lines of a text

`splitLines` cuts a text at every line break, and `stripped` is its lines without the white
space around them and without the blank ones. A text written line by line is read back when the
lines are `Clean` (`stripped_lines`), and only clean lines are ever read (`clean_of_stripped`).
-/

set_option autoImplicit false

namespace Library

/-- The characters that end a line. -/
def isLineBreak (c : Char) : Bool :=
  let n := c.toNat
  (10 ≤ n ∧ n ≤ 13) ∨ (28 ≤ n ∧ n ≤ 30) ∨ n = 0x85 ∨ n = 0x2028 ∨ n = 0x2029

/-- The lines of a text. A carriage return and a line feed together end one line, and a line
break at the end begins no other. -/
def splitLines : List Char → List (List Char)
  | [] => []
  | '\r' :: '\n' :: cs => [] :: splitLines cs
  | c :: cs =>
    if isLineBreak c then [] :: splitLines cs
    else
      match splitLines cs with
      | [] => [[c]]
      | line :: lines => (c :: line) :: lines

/-- The lines of a text without the white space around them, less the blank ones. -/
def stripped (cs : List Char) : List (List Char) :=
  ((splitLines cs).map strip).filter (· ≠ [])

example : splitLines "a\r\n\nb \x0bc\n".toList = [['a'], [], ['b', ' '], ['c']] := by decide

/-- Read back from a text of lines: no white space at its ends, no line break in it. -/
structure Clean (line : List Char) : Prop extends Trimmed line where
  oneLine : ∀ c ∈ line, isLineBreak c = false

theorem splitLines_cons {c : Char} (hc : isLineBreak c = false) (cs : List Char) :
    splitLines (c :: cs) =
      ((splitLines cs).head?.getD []).cons c :: (splitLines cs).tail := by
  rw [splitLines]
  · rw [if_neg (by simp [hc])]
    cases splitLines cs <;> rfl
  · rintro rest rfl
    exact absurd hc (by decide)

/-- A line and its line feed. -/
theorem splitLines_line {line : List Char} (hline : ∀ c ∈ line, isLineBreak c = false)
    (cs : List Char) : splitLines (line ++ '\n' :: cs) = line :: splitLines cs := by
  induction line with
  | nil =>
    rw [List.nil_append, splitLines]
    · rfl
    · simp
  | cons c line ih =>
    have hrest := ih fun d hd => hline d (List.mem_cons_of_mem _ hd)
    rw [List.cons_append, splitLines_cons (hline c (List.mem_cons_self ..)), hrest]
    rfl

/-- The last line, without a line feed. -/
theorem splitLines_last {line : List Char} (hline : ∀ c ∈ line, isLineBreak c = false)
    (hne : line ≠ []) : splitLines line = [line] := by
  induction line with
  | nil => exact absurd rfl hne
  | cons c line ih =>
    rw [splitLines_cons (hline c (List.mem_cons_self ..))]
    cases line with
    | nil => rfl
    | cons d line =>
      rw [ih (fun e he => hline e (List.mem_cons_of_mem _ he)) (by simp)]
      rfl

/-- No line holds a line break. -/
theorem oneLine_of_splitLines {cs line : List Char} (h : line ∈ splitLines cs) :
    ∀ c ∈ line, isLineBreak c = false := by
  induction cs using splitLines.induct generalizing line with
  | case1 => simp [splitLines] at h
  | case2 cs ih =>
    rw [splitLines] at h
    rcases List.mem_cons.mp h with rfl | h
    · simp
    · exact ih h
  | case3 c cs hcrlf hbreak ih =>
    rw [splitLines, if_pos hbreak] at h
    · rcases List.mem_cons.mp h with rfl | h
      · simp
      · exact ih h
    · exact hcrlf
  | case4 c cs hcrlf hbreak hnil ih =>
    have hc := Bool.not_eq_true _ ▸ hbreak
    rw [splitLines_cons hc, hnil] at h
    simp only [List.head?_nil, Option.getD_none, List.tail_nil, List.mem_singleton] at h
    simpa [h] using hc
  | case5 c cs hcrlf hbreak first rest hlines ih =>
    have hc := Bool.not_eq_true _ ▸ hbreak
    rw [splitLines_cons hc, hlines] at h
    simp only [List.head?_cons, Option.getD_some, List.tail_cons, List.mem_cons] at h
    rcases h with rfl | h
    · intro d hd
      rcases List.mem_cons.mp hd with rfl | hd
      · exact hc
      · exact ih (hlines ▸ List.mem_cons_self ..) d hd
    · exact ih (hlines ▸ List.mem_cons_of_mem _ h)

theorem strip_eq_nil_iff {cs : List Char} : strip cs = [] ↔ ∀ c ∈ cs, isSpace c = true := by
  rw [strip, List.reverse_eq_nil_iff, List.dropWhile_eq_nil_iff]
  simp only [List.mem_reverse]
  constructor
  · intro h c hc
    rw [← List.takeWhile_append_dropWhile (p := isSpace) (l := cs)] at hc
    rcases List.mem_append.mp hc with hc | hc
    · exact List.mem_takeWhile_imp hc
    · exact h c hc
  · exact fun h c hc => h c ((List.dropWhile_suffix isSpace).subset hc)

theorem mem_of_mem_strip {cs : List Char} {c : Char} (h : c ∈ strip cs) : c ∈ cs := by
  rw [strip, List.mem_reverse] at h
  have hback := (List.dropWhile_suffix isSpace).subset h
  exact (List.dropWhile_suffix isSpace).subset (List.mem_reverse.mp hback)

/-- What dropping leaves does not begin with what is dropped. -/
theorem not_space_of_dropWhile {cs : List Char} {c : Char}
    (h : c ∈ (cs.dropWhile isSpace).head?) : isSpace c = false := by
  have hne : cs.dropWhile isSpace ≠ [] := by
    rintro hnil
    simp [hnil] at h
  have hfirst := List.head_dropWhile_not isSpace hne
  rw [List.head?_eq_some_head hne, Option.mem_some] at h
  rwa [h] at hfirst

theorem trimmed_strip {cs : List Char} (h : strip cs ≠ []) : Trimmed (strip cs) where
  ne_nil := h
  first c hc := by
    -- stripping the end leaves the first character
    have hpre : strip cs <+: cs.dropWhile isSpace := by
      rw [strip, ← List.reverse_suffix, List.reverse_reverse]
      exact List.dropWhile_suffix isSpace
    obtain ⟨rest, hrest⟩ := hpre
    refine @not_space_of_dropWhile cs c ?_
    rw [← hrest, List.head?_append_of_ne_nil _ h]
    exact hc
  last c hc := by
    rw [strip, List.getLast?_reverse] at hc
    exact not_space_of_dropWhile hc

/-- Only clean lines are read. -/
theorem clean_of_stripped {cs line : List Char} (h : line ∈ stripped cs) : Clean line := by
  obtain ⟨hmem, hne⟩ := List.mem_filter.mp h
  obtain ⟨raw, hraw, rfl⟩ := List.mem_map.mp hmem
  exact ⟨trimmed_strip (by simpa using hne), fun c hc =>
    oneLine_of_splitLines hraw c (mem_of_mem_strip hc)⟩

theorem stripped_line {line : List Char} (h : Clean line) (cs : List Char) :
    stripped (line ++ '\n' :: cs) = line :: stripped cs := by
  rw [stripped, splitLines_line h.oneLine, List.map_cons, h.toTrimmed.strip,
    List.filter_cons_of_pos (by simpa using h.ne_nil)]
  rfl

/-- Clean lines, with a line feed between them, are read back. -/
theorem stripped_lines {lines : List (List Char)} (h : ∀ line ∈ lines, Clean line) :
    stripped (['\n'].intercalate lines) = lines := by
  induction lines with
  | nil => rfl
  | cons line lines ih =>
    have hline := h line (List.mem_cons_self ..)
    have hrest := ih fun l hl => h l (List.mem_cons_of_mem _ hl)
    cases lines with
    | nil =>
      rw [List.intercalate_singleton, stripped, splitLines_last hline.oneLine hline.ne_nil]
      simp [hline.toTrimmed.strip, hline.ne_nil]
    | cons next lines =>
      rw [List.intercalate_cons_cons, List.append_assoc, List.singleton_append,
        stripped_line hline, hrest]

theorem intercalate_lines (line : List Char) (lines : List (List Char)) :
    ['\n'].intercalate (line :: lines) = line ++ lines.flatMap ('\n' :: ·) := by
  induction lines generalizing line with
  | nil => simp
  | cons next lines ih => rw [List.intercalate_cons_cons, ih]; simp

theorem trimmed_lines {line : List Char} {lines : List (List Char)} (hline : Trimmed line)
    (h : ∀ l ∈ lines, Trimmed l) : Trimmed (line ++ lines.flatMap ('\n' :: ·)) := by
  induction lines generalizing line with
  | nil => simpa using hline
  | cons next lines ih =>
    have hnext := h next (List.mem_cons_self ..)
    have hrest := ih (hline.append hnext ['\n']) fun l hl => h l (List.mem_cons_of_mem _ hl)
    simpa using hrest

/-- Clean lines are read back from a text with white space after it, which is stripped. -/
theorem stripped_strip_lines {line : List Char} {lines : List (List Char)}
    (h : ∀ l ∈ line :: lines, Clean l) {after : List Char} (hafter : ∀ c ∈ after, isSpace c = true) :
    strip (line ++ lines.flatMap ('\n' :: ·) ++ after) ≠ [] ∧
      stripped (strip (line ++ lines.flatMap ('\n' :: ·) ++ after)) = line :: lines := by
  have htrimmed := trimmed_lines (h line (List.mem_cons_self ..)).toTrimmed fun l hl =>
    (h l (List.mem_cons_of_mem _ hl)).toTrimmed
  have hstrip := @strip_around [] _ _ (by simp) htrimmed hafter
  rw [List.nil_append] at hstrip
  rw [hstrip]
  refine ⟨htrimmed.ne_nil, ?_⟩
  rw [← intercalate_lines, stripped_lines h]

/-- A text that begins with a character other than white space has a line. -/
theorem stripped_ne_nil {c : Char} (hc : isSpace c = false) (cs : List Char) :
    stripped (c :: cs) ≠ [] := by
  have hbreak : isLineBreak c = false := by
    simp only [isSpace, isLineBreak, decide_eq_false_iff_not] at hc ⊢
    omega
  rw [stripped, splitLines_cons hbreak, List.map_cons, List.filter_cons_of_pos]
  · simp
  · have hline : strip (((splitLines cs).head?.getD []).cons c) ≠ [] := fun hnil =>
      absurd (strip_eq_nil_iff.mp hnil c (List.mem_cons_self ..)) (by simp [hc])
    simpa using hline

end Library
