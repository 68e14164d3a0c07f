import Bmdwire.Library.Numerals

/-!
# Element trees as text

An element has a tag, attributes in order and children; no text stands between tags but the
white space that the writer puts there to indent them. What is written is a row of pieces, each
a tag with the white space after it. Attribute values are escaped, so the characters that end
a value, a tag or its opening stand in the text only where the writer put them. So white space
before the end of an empty tag can be taken out (`closeTight`) without touching anything else.
-/

set_option autoImplicit false

namespace Library

/-- The characters that may stand in a document at all. -/
def isXmlChar (c : Char) : Bool :=
  let n := c.toNat
  n = 0x09 ∨ n = 0x0a ∨ n = 0x0d ∨ (0x20 ≤ n ∧ n ≤ 0xd7ff) ∨ (0xe000 ≤ n ∧ n ≤ 0xfffd) ∨ 0x10000 ≤ n

/-- A character of a name; names with others are not used here. -/
def isNameChar (c : Char) : Bool := c.isAlphanum ∨ c = '_'

/-- A name: at least one character, all of them characters of names. -/
def IsName (name : List Char) : Prop := name ≠ [] ∧ ∀ c ∈ name, isNameChar c = true

instance (name : List Char) : Decidable (IsName name) :=
  @instDecidableAnd _ _ _ (List.decidableBAll _ name)

/-- An element, with no text between its tags. -/
inductive Element
  | node (tag : List Char) (attrs : List (List Char × List Char)) (children : List Element)

/-! ## Writing -/

/-- A character of an attribute value. -/
def escapeChar (c : Char) : List Char :=
  if c = '&' then "&amp;".toList
  else if c = '<' then "&lt;".toList
  else if c = '>' then "&gt;".toList
  else if c = '"' then "&quot;".toList
  else if c = '\r' then "&#13;".toList
  else if c = '\n' then "&#10;".toList
  else if c = '\t' then "&#09;".toList
  else [c]

def escapeAttrib (value : List Char) : List Char := value.flatMap escapeChar

/-- An attribute with the blank before it. -/
def writeAttr (attr : List Char × List Char) : List Char :=
  ' ' :: attr.1 ++ '=' :: '"' :: escapeAttrib attr.2 ++ ['"']

/-- The tags of a document. -/
inductive Mark
  | start (tag : List Char) (attrs : List (List Char × List Char))
  | empty (tag : List Char) (attrs : List (List Char × List Char))
  | stop (tag : List Char)

/-- What stands between the angle brackets of a tag, with the gap before the end of an empty
one. -/
def Mark.inside (gap : List Char) : Mark → List Char
  | .start tag attrs => tag ++ attrs.flatMap writeAttr
  | .empty tag attrs => tag ++ attrs.flatMap writeAttr ++ gap ++ ['/']
  | .stop tag => '/' :: tag

/-- A tag and the white space after it. -/
structure Piece where
  mark : Mark
  after : List Char

def Piece.write (gap : List Char) (p : Piece) : List Char :=
  '<' :: p.mark.inside gap ++ '>' :: p.after

/-- The white space before a tag of the level. -/
def indentation (level : ℕ) : List Char := '\n' :: List.replicate (4 * level) ' '

mutual

/-- The pieces of an element, its children indented one level more than it is. -/
def Element.pieces (level : ℕ) (after : List Char) : Element → List Piece
  | .node tag attrs [] => [⟨.empty tag attrs, after⟩]
  | .node tag attrs (c :: cs) =>
    ⟨.start tag attrs, indentation (level + 1)⟩ ::
      Element.piecesAll level (c :: cs) ++ [⟨.stop tag, after⟩]

/-- The pieces of the children of an element of the level. -/
def Element.piecesAll (level : ℕ) : List Element → List Piece
  | [] => []
  | [c] => Element.pieces (level + 1) (indentation level) c
  | c :: c' :: cs =>
    Element.pieces (level + 1) (indentation (level + 1)) c ++ Element.piecesAll level (c' :: cs)

end

/-- The text of some pieces. -/
def writePieces (gap : List Char) (ps : List Piece) : List Char := ps.flatMap (Piece.write gap)

/-- The text of an element, with a gap before the end of an empty tag. -/
def Element.write (gap : List Char) (t : Element) : List Char := writePieces gap (t.pieces 0 [])

/-- The declaration at the front of a document, on a line of its own. -/
def xmlDeclaration : List Char := "<?xml version=\"1.0\" encoding=\"UTF-8\"?>\n".toList

/-- The text begins with the end of an empty tag. -/
def closes : List Char → Bool
  | '/' :: '>' :: _ => true
  | _ => false

/-- The text without the white space that stands right before the end of an empty tag. -/
def closeTight : List Char → List Char
  | [] => []
  | c :: cs =>
    if isSpace c ∧ closes (cs.dropWhile isSpace) then closeTight cs else c :: closeTight cs

/-! ## What is written -/

mutual

/-- The tags and attributes of an element and of all below it. -/
def Element.nodes : Element → List (List Char × List (List Char × List Char))
  | .node tag attrs children => (tag, attrs) :: Element.nodesAll children

def Element.nodesAll : List Element → List (List Char × List (List Char × List Char))
  | [] => []
  | c :: cs => Element.nodes c ++ Element.nodesAll cs

end

/-- Tags and attribute names are names, and no element has an attribute twice. -/
def Element.WellNamed (t : Element) : Prop :=
  ∀ n ∈ t.nodes, IsName n.1 ∧ (∀ p ∈ n.2, IsName p.1) ∧ (n.2.map Prod.fst).Nodup

/-- The text has only characters that may stand in a document. -/
def IsXmlText (text : List Char) : Prop := ∀ c ∈ text, isXmlChar c = true

instance (text : List Char) : Decidable (IsXmlText text) :=
  List.decidableBAll _ text

/-- Characters that any text file can hold. -/
def IsPlain (text : List Char) : Prop := ∀ c ∈ text, 0x20 ≤ c.toNat ∧ c.toNat < 0x7f

instance (text : List Char) : Decidable (IsPlain text) :=
  List.decidableBAll _ text

/-- Every attribute value may stand in a document. -/
def Element.Legal (t : Element) : Prop := ∀ n ∈ t.nodes, ∀ p ∈ n.2, IsXmlText p.2

/-- The mark is a tag of the node. -/
def Mark.Tags (n : List Char × List (List Char × List Char)) (m : Mark) : Prop :=
  m = .start n.1 n.2 ∨ m = .empty n.1 n.2 ∨ m = .stop n.1

/-- White space that the writer puts between tags. -/
def IsBlank (text : List Char) : Prop := ∀ c ∈ text, c = '\n' ∨ c = ' '

theorem indentation_blank (level : ℕ) : IsBlank (indentation level) := by
  intro c hc
  rcases List.mem_cons.mp hc with rfl | hc
  · exact .inl rfl
  · exact .inr (List.eq_of_mem_replicate hc)

/-- What holds of an element when it holds of its children holds of all. -/
theorem Element.induct {motive : Element → Prop}
    (node : ∀ tag attrs children, (∀ c ∈ children, motive c) → motive (.node tag attrs children))
    (t : Element) : motive t := by
  have hnil : ∀ c ∈ ([] : List Element), motive c := by simp
  exact @Element.rec motive (fun ts => ∀ c ∈ ts, motive c) node hnil
    (fun c cs hc hcs => List.forall_mem_cons.mpr ⟨hc, hcs⟩) t

/-- Every piece is a tag of a node, with white space after it. -/
theorem Element.mem_pieces {level : ℕ} {after : List Char} (hafter : IsBlank after) (t : Element) :
    ∀ p ∈ t.pieces level after, IsBlank p.after ∧ ∃ n ∈ t.nodes, p.mark.Tags n := by
  induction t using Element.induct generalizing level after with
  | node tag attrs children ih =>
    have hall : ∀ ts : List Element, (∀ c ∈ ts, c ∈ children) → ∀ p ∈ Element.piecesAll level ts,
        IsBlank p.after ∧ ∃ n ∈ Element.nodesAll ts, p.mark.Tags n := by
      intro ts hts
      induction ts with
      | nil => simp [piecesAll]
      | cons c cs ihcs =>
        rw [List.forall_mem_cons] at hts
        intro p hp
        rw [nodesAll]
        cases cs with
        | nil =>
          obtain ⟨hblank, n, hn, htags⟩ := ih c hts.1 (indentation_blank level) p hp
          exact ⟨hblank, n, List.mem_append_left _ hn, htags⟩
        | cons c' cs =>
          rw [piecesAll, List.mem_append] at hp
          rcases hp with hp | hp
          · obtain ⟨hblank, n, hn, htags⟩ := ih c hts.1 (indentation_blank _) p hp
            exact ⟨hblank, n, List.mem_append_left _ hn, htags⟩
          · obtain ⟨hblank, n, hn, htags⟩ := ihcs hts.2 p hp
            exact ⟨hblank, n, List.mem_append_right _ hn, htags⟩
    intro p hp
    rw [nodes]
    cases children with
    | nil =>
      rw [pieces, List.mem_singleton] at hp
      subst hp
      exact ⟨hafter, _, List.mem_cons_self, .inr (.inl rfl)⟩
    | cons c cs =>
      simp only [pieces, List.cons_append, List.mem_cons, List.mem_append, List.not_mem_nil,
        or_false] at hp
      rcases hp with rfl | hp | rfl
      · exact ⟨indentation_blank _, _, List.mem_cons_self, .inl rfl⟩
      · obtain ⟨hblank, n, hn, htags⟩ := hall _ (fun _ h => h) p hp
        exact ⟨hblank, n, List.mem_cons_of_mem _ hn, htags⟩
      · exact ⟨hafter, _, List.mem_cons_self, .inr (.inr rfl)⟩

/-- Every node has a piece with its attributes. -/
theorem Element.exists_piece {level : ℕ} {after : List Char} (t : Element) :
    ∀ n ∈ t.nodes, ∃ p ∈ t.pieces level after, p.mark = .start n.1 n.2 ∨ p.mark = .empty n.1 n.2 := by
  induction t using Element.induct generalizing level after with
  | node tag attrs children ih =>
    have hall : ∀ ts : List Element, (∀ c ∈ ts, c ∈ children) → ∀ n ∈ Element.nodesAll ts,
        ∃ p ∈ Element.piecesAll level ts, p.mark = .start n.1 n.2 ∨ p.mark = .empty n.1 n.2 := by
      intro ts hts
      induction ts with
      | nil => simp [nodesAll]
      | cons c cs ihcs =>
        rw [List.forall_mem_cons] at hts
        intro n hn
        rw [nodesAll, List.mem_append] at hn
        cases cs with
        | nil =>
          rcases hn with hn | hn
          · exact ih c hts.1 n hn
          · cases hn
        | cons c' cs =>
          rw [piecesAll]
          rcases hn with hn | hn
          · obtain ⟨p, hp, hmark⟩ := ih c hts.1 n hn
            exact ⟨p, List.mem_append_left _ hp, hmark⟩
          · obtain ⟨p, hp, hmark⟩ := ihcs hts.2 n hn
            exact ⟨p, List.mem_append_right _ hp, hmark⟩
    intro n hn
    rw [nodes, List.mem_cons] at hn
    cases children with
    | nil =>
      rcases hn with rfl | hn
      · exact ⟨⟨.empty tag attrs, after⟩, by simp [pieces], .inr rfl⟩
      · cases hn
    | cons c cs =>
      rcases hn with rfl | hn
      · exact ⟨⟨.start tag attrs, indentation (level + 1)⟩, by simp [pieces], .inl rfl⟩
      · obtain ⟨p, hp, hmark⟩ := hall _ (fun _ h => h) n hn
        exact ⟨p, by simp [pieces, hp], hmark⟩

end Library
