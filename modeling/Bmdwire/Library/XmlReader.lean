import Bmdwire.Library.XmlText
import Mathlib.Data.List.ReduceOption

/-!
# Reading an element back

A reader for documents of elements with attributes: a declaration, tags, and only white space
between them. The text is cut at its opening brackets, each segment is read as a tag, and the
tags are put together with a stack of the elements that are open. What the writer wrote is read
back (`readDocument_write`).
-/

set_option autoImplicit false

namespace Library

/-! ## Values -/

/-- The references that the writer makes. -/
def references : List (List Char × Char) :=
  [("amp".toList, '&'), ("lt".toList, '<'), ("gt".toList, '>'), ("quot".toList, '"'),
   ("#13".toList, '\r'), ("#10".toList, '\n'), ("#09".toList, '\t')]

/-- The value that was escaped; within a reference, what is read of its name so far. -/
def unescapeFrom : Option (List Char) → List Char → Option (List Char)
  | none, [] => some []
  | some _, [] => none
  | none, c :: cs =>
    if c = '&' then unescapeFrom (some []) cs else (unescapeFrom none cs).map (c :: ·)
  | some name, c :: cs =>
    if c = ';' then
      match references.lookup name with
      | some d => (unescapeFrom none cs).map (d :: ·)
      | none => none
    else unescapeFrom (some (name ++ [c])) cs

def unescape (text : List Char) : Option (List Char) := unescapeFrom none text

theorem unescape_escapeAttrib (value : List Char) : unescape (escapeAttrib value) = some value := by
  induction value with
  | nil => rfl
  | cons c cs ih =>
    have hchar : ∀ rest, unescapeFrom none (escapeChar c ++ rest) =
        (unescapeFrom none rest).map (c :: ·) := by
      intro rest
      rcases escapeChar_cases c with ⟨hself, -, -, -, hamp⟩ | -
      · rw [hself, List.singleton_append, unescapeFrom, if_neg hamp]
      · unfold escapeChar
        split_ifs with hamp hlt hgt hquot hcr hlf htab
        · subst hamp
          rfl
        · subst hlt
          rfl
        · subst hgt
          rfl
        · subst hquot
          rfl
        · subst hcr
          rfl
        · subst hlf
          rfl
        · subst htab
          rfl
        · rw [List.singleton_append, unescapeFrom, if_neg hamp]
    rw [unescape] at ih ⊢
    rw [escapeAttrib, List.flatMap_cons, hchar]
    rw [escapeAttrib] at ih
    rw [ih, Option.map_some]

/-! ## Tags -/

/-- The name at the front of a text, and the rest. -/
def readName (cs : List Char) : List Char × List Char :=
  (cs.takeWhile isNameChar, cs.dropWhile isNameChar)

/-- The attributes in the parts that the quotes cut a tag into, and its last part. -/
def readAttrs : List (List Char) → Option (List (List Char × List Char) × List Char)
  | [] => none
  | [ending] => some ([], ending)
  | name :: value :: more =>
    let key := readName (name.dropWhile isSpace)
    if key.2 = ['='] then
      match unescape value, readAttrs more with
      | some text, some (attrs, ending) => some ((key.1, text) :: attrs, ending)
      | _, _ => none
    else none

/-- The tag between two brackets. -/
def readMark (inside : List Char) : Option Mark :=
  match inside with
  | '/' :: tag => some (.stop tag)
  | _ =>
    let tag := readName inside
    match readAttrs (tag.2.splitOn '"') with
    | some (attrs, ending) =>
      if ending = [] then some (.start tag.1 attrs)
      else if ending.dropWhile isSpace = ['/'] then some (.empty tag.1 attrs)
      else none
    | none => none

/-- What stands after an opening bracket: a tag, or the declaration. -/
def readSegment (segment : List Char) : Option (Option Mark) :=
  let inside := segment.takeWhile (· ≠ '>')
  match segment.dropWhile (· ≠ '>') with
  | [] => none
  | _ :: after =>
    if after.all isSpace then
      if inside.head? = some '?' then some none else (readMark inside).map some
    else none

/-! ## Trees -/

/-- The elements that are open, the innermost first, with their children so far, and the
elements that stand in none. -/
structure Reader where
  opened : List (List Char × List (List Char × List Char) × List Element)
  done : List Element

namespace Reader

def add (r : Reader) (t : Element) : Reader :=
  match r.opened with
  | [] => { r with done := r.done ++ [t] }
  | (tag, attrs, children) :: outer => { r with opened := (tag, attrs, children ++ [t]) :: outer }

def step (r : Reader) : Mark → Option Reader
  | .start tag attrs => some { r with opened := (tag, attrs, []) :: r.opened }
  | .empty tag attrs => some (r.add (.node tag attrs []))
  | .stop tag =>
    match r.opened with
    | [] => none
    | (name, attrs, children) :: outer =>
      if tag = name then some (add { r with opened := outer } (.node name attrs children)) else none

def run : Reader → List Mark → Option Reader
  | r, [] => some r
  | r, m :: ms => (r.step m).bind fun r => run r ms

theorem run_append (r : Reader) (ms ms' : List Mark) :
    r.run (ms ++ ms') = (r.run ms).bind fun r => r.run ms' := by
  induction ms generalizing r with
  | nil => rfl
  | cons m ms ih =>
    rw [List.cons_append, run, run]
    cases r.step m with
    | none => rfl
    | some r' => exact ih r'

theorem foldl_add (tag : List Char) (attrs : List (List Char × List Char))
    (outer : List (List Char × List (List Char × List Char) × List Element)) (done : List Element)
    (children ts : List Element) :
    ts.foldl add ⟨(tag, attrs, children) :: outer, done⟩ =
      ⟨(tag, attrs, children ++ ts) :: outer, done⟩ := by
  induction ts generalizing children with
  | nil => simp
  | cons t ts ih =>
    rw [List.foldl_cons, add, ih]
    simp

/-- The tags of an element add it to what was read before. -/
theorem run_pieces {level : ℕ} {after : List Char} (t : Element) (r : Reader) :
    r.run ((t.pieces level after).map Piece.mark) = some (r.add t) := by
  induction t using Element.induct generalizing level after r with
  | node tag attrs children ih =>
    have hall : ∀ ts : List Element, (∀ c ∈ ts, c ∈ children) → ∀ r : Reader,
        r.run ((Element.piecesAll level ts).map Piece.mark) = some (ts.foldl add r) := by
      intro ts hts
      induction ts with
      | nil =>
        intro r
        rfl
      | cons c cs ihcs =>
        rw [List.forall_mem_cons] at hts
        intro r
        cases cs with
        | nil => exact ih c hts.1 r
        | cons c' cs =>
          rw [Element.piecesAll, List.map_append, run_append, ih c hts.1 r, Option.bind_some,
            ihcs hts.2]
          rfl
    cases children with
    | nil => rfl
    | cons c cs =>
      rw [Element.pieces, List.cons_append, List.map_cons, List.map_append, run, step,
        Option.bind_some, run_append, hall _ (fun _ h => h), Option.bind_some, foldl_add]
      simp [run, step]

end Reader

/-- The element of a document, if it is one and all its characters may stand in it. -/
def readDocument (text : List Char) : Option Element :=
  if text.all isXmlChar then
    match text.splitOn '<' with
    | [] => none
    | before :: segments =>
      if before.all isSpace then
        match segments.mapM readSegment with
        | none => none
        | some marks =>
          match Reader.run ⟨[], []⟩ marks.reduceOption with
          | some ⟨[], [t]⟩ => some t
          | _ => none
      else none
  else none

/-! ## What was written is read back -/

theorem readName_append {name rest : List Char} (hname : ∀ c ∈ name, isNameChar c = true)
    (hrest : ∀ c ∈ rest.head?, isNameChar c = false) : readName (name ++ rest) = (name, rest) := by
  rw [readName, List.takeWhile_append_of_pos hname, List.dropWhile_append_of_pos hname]
  cases rest with
  | nil => simp
  | cons c rest =>
    have hc := hrest c rfl
    rw [List.takeWhile_cons_of_neg (by simp [hc]), List.dropWhile_cons_of_neg (by simp [hc]),
      List.append_nil]

theorem readAttrs_write {attrs : List (List Char × List Char)} (h : ∀ p ∈ attrs, IsName p.1)
    {ending : List Char} (hending : '"' ∉ ending) :
    readAttrs ((attrs.flatMap writeAttr ++ ending).splitOn '"') = some (attrs, ending) := by
  induction attrs with
  | nil =>
    rw [List.flatMap_nil, List.nil_append, List.splitOn_eq_singleton hending]
    rfl
  | cons p attrs ih =>
    rw [List.forall_mem_cons] at h
    have hkey : '"' ∉ ' ' :: (p.1 ++ ['=']) := by
      intro hmem
      simp only [List.mem_cons, List.mem_append, List.not_mem_nil, or_false] at hmem
      rcases hmem with hmem | hmem | hmem
      · cases hmem
      · exact nameChar_ne (h.1.2 _ hmem) (by decide) rfl
      · cases hmem
    have hvalue : '"' ∉ escapeAttrib p.2 := fun hmem => (mem_escapeAttrib hmem).2.2 rfl
    have hsplit : ((p :: attrs).flatMap writeAttr ++ ending).splitOn '"' =
        (' ' :: (p.1 ++ ['='])) :: escapeAttrib p.2 ::
          (attrs.flatMap writeAttr ++ ending).splitOn '"' := by
      have hshape : (p :: attrs).flatMap writeAttr ++ ending = (' ' :: (p.1 ++ ['='])) ++
          '"' :: (escapeAttrib p.2 ++ '"' :: (attrs.flatMap writeAttr ++ ending)) := by
        simp [writeAttr]
      rw [hshape, List.splitOn_append_cons_self, List.splitOn_append_cons_self,
        List.splitOn_eq_singleton hkey, List.splitOn_eq_singleton hvalue]
      rfl
    have hname : readName ((' ' :: (p.1 ++ ['='])).dropWhile isSpace) = (p.1, ['=']) := by
      obtain ⟨c, rest, hp⟩ := List.exists_cons_of_ne_nil h.1.1
      have hc := nameChar_not_space (h.1.2 c (hp ▸ List.mem_cons_self))
      have hspace : isSpace ' ' = true := by decide
      rw [List.dropWhile_cons_of_pos hspace]
      have hequals : ∀ e ∈ ['='].head?, isNameChar e = false := by
        intro e he
        obtain rfl := Option.some.inj he
        decide
      rw [hp, List.cons_append, List.dropWhile_cons_of_neg (by simp [hc]), ← List.cons_append,
        ← hp]
      exact readName_append h.1.2 hequals
    rw [hsplit, readAttrs]
    simp only [hname, ih h.2, unescape_escapeAttrib, if_true]

/-- The text of a tag with attributes is read as its name, its attributes and its ending. -/
theorem readTag_write {tag : List Char} {attrs : List (List Char × List Char)} (htag : IsName tag)
    (hattrs : ∀ p ∈ attrs, IsName p.1) {ending : List Char} (hquote : '"' ∉ ending)
    (hhead : ∀ c ∈ ending.head?, isNameChar c = false) :
    readMark (tag ++ attrs.flatMap writeAttr ++ ending) =
      if ending = [] then some (.start tag attrs)
      else if ending.dropWhile isSpace = ['/'] then some (.empty tag attrs)
      else none := by
  have hrest : ∀ c ∈ (attrs.flatMap writeAttr ++ ending).head?, isNameChar c = false := by
    cases attrs with
    | nil => exact hhead
    | cons p attrs =>
      intro c hc
      obtain rfl := Option.some.inj hc
      decide
  have hname := readName_append htag.2 hrest
  obtain ⟨c, u, hcons⟩ := List.exists_cons_of_ne_nil htag.1
  have hslash : c ≠ '/' := nameChar_ne (htag.2 c (hcons ▸ List.mem_cons_self)) (by decide)
  have hinside : tag ++ attrs.flatMap writeAttr ++ ending =
      c :: (u ++ (attrs.flatMap writeAttr ++ ending)) := by
    simp [hcons]
  rw [List.append_assoc] at hinside ⊢
  unfold readMark
  split
  · rename_i heq
    rw [hinside] at heq
    exact absurd (List.cons.inj heq).1 hslash
  · simp only [hname, readAttrs_write hattrs hquote]

/-- A gap that the writer may leave before the end of an empty tag. -/
theorem readMark_inside {m : Mark} (h : m.WellNamed) {gap : List Char} (hgap : IsBlank gap) :
    readMark (m.inside gap) = some m := by
  cases m with
  | start tag attrs =>
    have hread := @readTag_write tag attrs h.1 h.2 [] (by simp) (by simp)
    rw [List.append_nil] at hread
    exact hread
  | stop tag => rfl
  | empty tag attrs =>
    have hquote : '"' ∉ gap ++ ['/'] := by
      simp [hgap.ne]
    have hhead : ∀ c ∈ (gap ++ ['/']).head?, isNameChar c = false := by
      intro c hc
      cases gap with
      | nil =>
        obtain rfl := Option.some.inj hc
        decide
      | cons d gap =>
        obtain rfl := Option.some.inj hc
        rcases hgap _ List.mem_cons_self with h | h
        · rw [h]
          decide
        · rw [h]
          decide
    have hdrop : (gap ++ ['/']).dropWhile isSpace = ['/'] := by
      rw [List.dropWhile_append_of_pos hgap.isSpace]
      rfl
    have hread := @readTag_write tag attrs h.1 h.2 (gap ++ ['/']) hquote hhead
    rw [if_neg (by simp), if_pos hdrop] at hread
    rw [← hread, Mark.inside, List.append_assoc _ gap]

theorem mem_inside {m : Mark} (h : m.WellNamed) {gap : List Char} (hgap : IsBlank gap) {c : Char}
    (hc : c ∈ m.inside gap) : c ≠ '<' ∧ c ≠ '>' := by
  rw [Mark.inside_eq, List.mem_append] at hc
  rcases hc with hc | hc
  · exact Mark.mem_body h hc
  · cases m with
    | start tag attrs => cases hc
    | stop tag => cases hc
    | empty tag attrs =>
      rcases List.mem_append.mp hc with hc | hc
      · rcases hgap c hc with rfl | rfl
        · decide
        · decide
      · obtain rfl := List.mem_singleton.mp hc
        decide

theorem readSegment_piece {p : Piece} (hmark : p.mark.WellNamed) (hafter : IsBlank p.after)
    {gap : List Char} (hgap : IsBlank gap) :
    readSegment (p.mark.inside gap ++ '>' :: p.after) = some (some p.mark) := by
  have hinside : ∀ c ∈ p.mark.inside gap, decide (c ≠ '>') = true :=
    fun c hc => decide_eq_true (mem_inside hmark hgap hc).2
  have hall : p.after.all isSpace = true := List.all_eq_true.mpr hafter.isSpace
  have hhead : (p.mark.inside gap).head? ≠ some '?' := by
    obtain ⟨c, u, hbody, hc⟩ := Mark.body_begins hmark
    rw [Mark.inside_eq, hbody]
    rintro heq
    obtain rfl := Option.some.inj heq
    revert hc
    decide
  unfold readSegment
  rw [List.takeWhile_append_of_pos hinside, List.dropWhile_append_of_pos hinside,
    List.takeWhile_cons_of_neg (by simp), List.dropWhile_cons_of_neg (by simp), List.append_nil]
  simp only [hall, hhead, if_true, if_false, readMark_inside hmark hgap, Option.map_some]

/-- What stands between the opening bracket of a piece and the next. -/
def Piece.segment (gap : List Char) (p : Piece) : List Char := p.mark.inside gap ++ '>' :: p.after

/-- The text of some pieces is cut at its opening brackets into them. -/
theorem splitOn_writePieces {ps : List Piece} (h : WellWritten ps) {gap : List Char}
    (hgap : IsBlank gap) {before : List Char} (hbefore : '<' ∉ before) :
    (before ++ writePieces gap ps).splitOn '<' = before :: ps.map (Piece.segment gap) := by
  induction ps generalizing before with
  | nil =>
    rw [writePieces, List.flatMap_nil, List.append_nil, List.splitOn_eq_singleton hbefore]
    rfl
  | cons p ps ih =>
    have hp : p.mark.WellNamed ∧ IsBlank p.after := h p List.mem_cons_self
    have hsegment : '<' ∉ p.segment gap := by
      intro hmem
      rcases List.mem_append.mp hmem with hmem | hmem
      · exact (mem_inside hp.1 hgap hmem).1 rfl
      · rcases List.mem_cons.mp hmem with hmem | hmem
        · cases hmem
        · exact hp.2.ne (by decide) (by decide) hmem
    have hsplit : before ++ writePieces gap (p :: ps) =
        before ++ '<' :: (p.segment gap ++ writePieces gap ps) := by
      simp [writePieces, Piece.write, Piece.segment]
    rw [hsplit, List.splitOn_append_cons_self, List.splitOn_eq_singleton hbefore,
      ih (fun q hq => h q (List.mem_cons_of_mem _ hq)) hsegment]
    rfl

theorem mapM_readSegment {ps : List Piece} (h : WellWritten ps) {gap : List Char}
    (hgap : IsBlank gap) :
    (ps.map (Piece.segment gap)).mapM readSegment = some (ps.map fun p => some p.mark) := by
  induction ps with
  | nil => rfl
  | cons p ps ih =>
    have hp : p.mark.WellNamed ∧ IsBlank p.after := h p List.mem_cons_self
    have hsegment : readSegment (p.segment gap) = some (some p.mark) :=
      readSegment_piece hp.1 hp.2 hgap
    rw [List.map_cons, List.mapM_cons, hsegment, ih fun q hq => h q (List.mem_cons_of_mem _ hq)]
    rfl

/-- The last tag is the one of the element itself, and what comes after it comes last. -/
theorem writePieces_after (gap after : List Char) (level : ℕ) (t : Element) :
    writePieces gap (t.pieces level after) = writePieces gap (t.pieces level []) ++ after := by
  cases t with
  | node tag attrs children =>
    cases children with
    | nil => simp [Element.pieces, writePieces, Piece.write]
    | cons c cs => simp [Element.pieces, writePieces, Piece.write]

/-- A document is read back as the element it was written for. -/
theorem readDocument_write {t : Element} (hnamed : t.WellNamed) (hlegal : t.Legal)
    {gap : List Char} (hgap : IsBlank gap) :
    readDocument (xmlDeclaration ++ t.write gap ++ ['\n']) = some t := by
  have hafter : IsBlank ['\n'] := by simp [IsBlank]
  have hwritten := @Element.wellWritten t hnamed 0 ['\n'] hafter
  have htext : t.write gap ++ ['\n'] = writePieces gap (t.pieces 0 ['\n']) := by
    rw [writePieces_after gap ['\n'], Element.write]
  have hchars : (xmlDeclaration ++ t.write gap ++ ['\n']).all isXmlChar = true := by
    have hall : IsXmlText (xmlDeclaration ++ t.write gap ++ ['\n']) := by
      rw [isXmlText_append, isXmlText_append]
      exact ⟨⟨by decide, (isXmlText_write hnamed hgap).mpr hlegal⟩, by decide⟩
    exact List.all_eq_true.mpr hall
  have hsplit : (xmlDeclaration ++ t.write gap ++ ['\n']).splitOn '<' =
      [] :: xmlDeclaration.tail :: (t.pieces 0 ['\n']).map (Piece.segment gap) := by
    have hdecl : xmlDeclaration ++ (t.write gap ++ ['\n']) =
        [] ++ '<' :: (xmlDeclaration.tail ++ writePieces gap (t.pieces 0 ['\n'])) := by
      rw [htext]
      rfl
    have hnone : '<' ∉ xmlDeclaration.tail := by decide
    rw [List.append_assoc, hdecl, List.splitOn_append_cons_self,
      splitOn_writePieces hwritten hgap hnone, List.splitOn_nil]
    rfl
  have hdecl : readSegment xmlDeclaration.tail = some none := by rfl
  have hmarks : (xmlDeclaration.tail :: (t.pieces 0 ['\n']).map (Piece.segment gap)).mapM
      readSegment = some (none :: (t.pieces 0 ['\n']).map fun p => some p.mark) := by
    rw [List.mapM_cons, hdecl, mapM_readSegment hwritten hgap]
    rfl
  have hreduce : (none :: (t.pieces 0 ['\n']).map fun p => some p.mark).reduceOption =
      (t.pieces 0 ['\n']).map Piece.mark := by
    rw [List.reduceOption_cons_of_none]
    induction t.pieces 0 ['\n'] with
    | nil => rfl
    | cons p ps ih => rw [List.map_cons, List.reduceOption_cons_of_some, ih, List.map_cons]
  unfold readDocument
  rw [if_pos hchars, hsplit]
  simp only [List.all_nil, if_true, hmarks, hreduce, Reader.run_pieces]
  rfl

end Library
