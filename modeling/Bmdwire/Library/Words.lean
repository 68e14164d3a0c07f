import Bmdwire.Library.Decimal
import Bmdwire.Library.Framing

/-!
# Words on a line

A text with no white space at its ends (`Trimmed`) survives stripping, whatever white space
stands around it (`strip_around`), and what stands between single blanks is read back by
splitting at them (`splitOn_words`).
-/

set_option autoImplicit false

namespace Library

/-- No white space at either end, and not empty. -/
structure Trimmed (cs : List Char) : Prop where
  ne_nil : cs ≠ []
  first : ∀ c ∈ cs.head?, isSpace c = false
  last : ∀ c ∈ cs.getLast?, isSpace c = false

/-- Not empty, and no white space in it. -/
structure Token (cs : List Char) : Prop where
  ne_nil : cs ≠ []
  solid : ∀ c ∈ cs, isSpace c = false

theorem Token.trimmed {cs : List Char} (h : Token cs) : Trimmed cs where
  ne_nil := h.ne_nil
  first c hc := h.solid c (List.mem_of_mem_head? hc)
  last c hc := h.solid c (List.mem_of_getLast? hc)

theorem Token.blank_notMem {cs : List Char} (h : Token cs) : ' ' ∉ cs := fun hmem =>
  absurd (h.solid ' ' hmem) (by decide)

theorem Trimmed.strip {cs : List Char} (h : Trimmed cs) : strip cs = cs :=
  strip_of_ends h.first h.last

/-- Two texts in a row have the first character of the one and the last of the other. -/
theorem Trimmed.append {cs ds : List Char} (hcs : Trimmed cs) (hds : Trimmed ds)
    (between : List Char) : Trimmed (cs ++ between ++ ds) where
  ne_nil := by simp [hcs.ne_nil]
  first := by
    rw [List.append_assoc, List.head?_append_of_ne_nil _ hcs.ne_nil]
    exact hcs.first
  last := by
    rw [List.getLast?_append_of_ne_nil _ hds.ne_nil]
    exact hds.last

theorem dropWhile_spaces {ws : List Char} (hws : ∀ c ∈ ws, isSpace c = true) (cs : List Char) :
    (ws ++ cs).dropWhile isSpace = cs.dropWhile isSpace := by
  induction ws with
  | nil => rfl
  | cons w ws ih =>
    rw [List.cons_append, List.dropWhile_cons_of_pos (hws w (List.mem_cons_self ..))]
    exact ih fun c hc => hws c (List.mem_cons_of_mem _ hc)

/-- White space around a text is stripped. -/
theorem strip_around {ws cs ws' : List Char} (hws : ∀ c ∈ ws, isSpace c = true)
    (h : Trimmed cs) (hws' : ∀ c ∈ ws', isSpace c = true) : strip (ws ++ cs ++ ws') = cs := by
  have hkeep : (cs ++ ws').dropWhile isSpace = cs ++ ws' := by
    obtain ⟨c, rest, rfl⟩ := List.exists_cons_of_ne_nil h.ne_nil
    rw [List.cons_append, List.dropWhile_cons_of_neg]
    rw [h.first c rfl]
    simp
  have hback : cs.reverse.dropWhile isSpace = cs.reverse := by
    have hne : cs.reverse ≠ [] := by simpa using h.ne_nil
    obtain ⟨c, rest, hrev⟩ := List.exists_cons_of_ne_nil hne
    have hlast : isSpace c = false := h.last c (by rw [← List.head?_reverse, hrev]; rfl)
    rw [hrev, List.dropWhile_cons_of_neg]
    rw [hlast]
    simp
  rw [strip, List.append_assoc, dropWhile_spaces hws, hkeep, List.reverse_append,
    dropWhile_spaces (by simpa using hws'), hback, List.reverse_reverse]

/-- A text before the separator, in which the separator does not occur. -/
theorem cutAt_of_notMem {sep : Char} {before : List Char} (h : sep ∉ before)
    (rest : List Char) : cutAt [sep] (before ++ sep :: rest) = some (before, rest) := by
  induction before with
  | nil => simp [cutAt]
  | cons c before ih =>
    have hne : sep ≠ c := fun heq => h (heq ▸ List.mem_cons_self ..)
    have hrest : sep ∉ before := fun hmem => h (List.mem_cons_of_mem _ hmem)
    rw [List.cons_append, cutAt, if_neg (by simp [hne]), ih hrest]
    rfl

/-- A text and the words after it, with a blank before each. -/
def withWords (cs : List Char) (words : List (List Char)) : List Char :=
  cs ++ words.flatMap (' ' :: ·)

/-- The words are the last tokens, and the tokens before them make up the text. -/
theorem splitOn_words (cs : List Char) {words : List (List Char)} (h : ∀ w ∈ words, Token w) :
    (withWords cs words).splitOn ' ' = cs.splitOn ' ' ++ words := by
  induction words generalizing cs with
  | nil => simp [withWords]
  | cons w words ih =>
    have hw : ' ' ∉ w := (h w (List.mem_cons_self ..)).blank_notMem
    have htail := ih w fun v hv => h v (List.mem_cons_of_mem _ hv)
    rw [withWords, List.flatMap_cons, List.cons_append, List.splitOn_append_cons_self]
    rw [withWords] at htail
    rw [htail, List.splitOn_eq_singleton hw]
    rfl

theorem Trimmed.withWords {cs : List Char} (hcs : Trimmed cs) {words : List (List Char)}
    (h : ∀ w ∈ words, Token w) : Trimmed (withWords cs words) := by
  induction words generalizing cs with
  | nil => simpa [Library.withWords] using hcs
  | cons w words ih =>
    have hw := (h w (List.mem_cons_self ..)).trimmed
    have htail := ih (hcs.append hw [' ']) fun v hv => h v (List.mem_cons_of_mem _ hv)
    simpa [Library.withWords] using htail

/-- The digits of a number are a token. -/
theorem token_repr (n : ℕ) : Token n.repr.toList := by
  rw [Nat.toList_repr]
  exact ⟨Nat.toDigits_ne_nil, fun c hc =>
    (isNumeral_toDigits (by decide) c hc).not_space (by decide)⟩

theorem isDigit_repr (n : ℕ) : ∀ c ∈ n.repr.toList, c.isDigit = true := by
  rw [Nat.toList_repr]
  exact fun c hc => IsNumeral.isDigit (isNumeral_toDigits (by decide) c hc)

end Library
