import Bmdwire.Library.Xml
import Mathlib.Data.List.Chain

/-!
# What stands in the text of an element

Names and escaped values hold no angle bracket, so a tag is opened and closed only where a
piece is. Three things follow: white space before the end of an empty tag can be taken out
(`closeTight_write`), a tag is opened only with a name or a slash (`write_opens`), and the text
may stand in a document exactly when all attribute values may (`isXmlText_write`).
-/

set_option autoImplicit false

namespace Library

/-! ## Characters -/

theorem nameChar_range {c : Char} (h : isNameChar c = true) :
    0x30 ≤ c.toNat ∧ c.toNat ≤ 0x7a := by
  have hwithin : ∀ lo hi : Char, 0x30 ≤ lo.toNat → hi.toNat ≤ 0x7a → lo.val ≤ c.val →
      c.val ≤ hi.val → 0x30 ≤ c.toNat ∧ c.toNat ≤ 0x7a := by
    intro lo hi hlow hhigh hle hge
    exact ⟨hlow.trans (UInt32.le_iff_toNat_le.mp hle), (UInt32.le_iff_toNat_le.mp hge).trans hhigh⟩
  have hupper : c.isUpper = true → 0x30 ≤ c.toNat ∧ c.toNat ≤ 0x7a := by
    intro hc
    have hboth : 'A'.val ≤ c.val ∧ c.val ≤ 'Z'.val := of_decide_eq_true hc
    exact hwithin 'A' 'Z' (by decide) (by decide) hboth.1 hboth.2
  have hlower : c.isLower = true → 0x30 ≤ c.toNat ∧ c.toNat ≤ 0x7a := by
    intro hc
    have hboth := Bool.and_eq_true_iff.mp hc
    exact hwithin 'a' 'z' (by decide) (by decide) (of_decide_eq_true hboth.1)
      (of_decide_eq_true hboth.2)
  have hdigit : c.isDigit = true → 0x30 ≤ c.toNat ∧ c.toNat ≤ 0x7a := by
    intro hc
    have hboth := Bool.and_eq_true_iff.mp hc
    exact hwithin '0' '9' (by decide) (by decide) (of_decide_eq_true hboth.1)
      (of_decide_eq_true hboth.2)
  rcases of_decide_eq_true h with halnum | rfl
  · rcases Bool.or_eq_true_iff.mp halnum with halpha | hc
    · rcases Bool.or_eq_true_iff.mp halpha with hc | hc
      · exact hupper hc
      · exact hlower hc
    · exact hdigit hc
  · decide

theorem isSpace_range {c : Char} (h : isSpace c = true) : c.toNat ≤ 0x20 ∨ 0x85 ≤ c.toNat := by
  simp only [isSpace, decide_eq_true_eq] at h
  omega

theorem nameChar_not_space {c : Char} (h : isNameChar c = true) : isSpace c = false := by
  have hrange := nameChar_range h
  cases hspace : isSpace c with
  | false => rfl
  | true =>
    have hfar := isSpace_range hspace
    omega

theorem nameChar_legal {c : Char} (h : isNameChar c = true) : isXmlChar c = true := by
  have hrange := nameChar_range h
  simp only [isXmlChar, decide_eq_true_eq]
  omega

/-- No mark of the writer's own is in a name. -/
theorem nameChar_ne {c d : Char} (h : isNameChar c = true) (hd : isNameChar d = false) :
    c ≠ d := by
  rintro rfl
  rw [h] at hd
  cases hd

/-- The text holds no character that ends a value, a tag or its opening. -/
def IsReference (text : List Char) : Prop :=
  ∀ d ∈ text, d ≠ '<' ∧ d ≠ '>' ∧ d ≠ '"' ∧ isXmlChar d = true

instance (text : List Char) : Decidable (IsReference text) := List.decidableBAll _ text

/-- An escaped character is itself, or a reference. -/
theorem escapeChar_cases (c : Char) :
    (escapeChar c = [c] ∧ c ≠ '<' ∧ c ≠ '>' ∧ c ≠ '"' ∧ c ≠ '&') ∨
      (isXmlChar c = true ∧ IsReference (escapeChar c)) := by
  unfold escapeChar
  split_ifs with hamp hlt hgt hquot hcr hlf htab
  · exact .inr ⟨by subst hamp; decide, by decide⟩
  · exact .inr ⟨by subst hlt; decide, by decide⟩
  · exact .inr ⟨by subst hgt; decide, by decide⟩
  · exact .inr ⟨by subst hquot; decide, by decide⟩
  · exact .inr ⟨by subst hcr; decide, by decide⟩
  · exact .inr ⟨by subst hlf; decide, by decide⟩
  · exact .inr ⟨by subst htab; decide, by decide⟩
  · exact .inl ⟨rfl, hlt, hgt, hquot, hamp⟩

theorem mem_escapeAttrib {value : List Char} {d : Char} (h : d ∈ escapeAttrib value) :
    d ≠ '<' ∧ d ≠ '>' ∧ d ≠ '"' := by
  obtain ⟨c, -, hd⟩ := List.mem_flatMap.mp h
  rcases escapeChar_cases c with ⟨hself, hlt, hgt, hquot, -⟩ | ⟨-, hrest⟩
  · rw [hself, List.mem_singleton] at hd
    subst hd
    exact ⟨hlt, hgt, hquot⟩
  · have hd := hrest d hd
    exact ⟨hd.1, hd.2.1, hd.2.2.1⟩

theorem isXmlText_append {s t : List Char} :
    IsXmlText (s ++ t) ↔ IsXmlText s ∧ IsXmlText t := List.forall_mem_append

theorem isXmlText_cons {c : Char} {s : List Char} :
    IsXmlText (c :: s) ↔ isXmlChar c = true ∧ IsXmlText s := List.forall_mem_cons

theorem IsPlain.isXmlText {text : List Char} (h : IsPlain text) : IsXmlText text := by
  intro c hc
  have hrange := h c hc
  simp only [isXmlChar, decide_eq_true_eq]
  omega

theorem isPlain_append {s t : List Char} : IsPlain (s ++ t) ↔ IsPlain s ∧ IsPlain t :=
  List.forall_mem_append

theorem isPlain_cons {c : Char} {s : List Char} :
    IsPlain (c :: s) ↔ (0x20 ≤ c.toNat ∧ c.toNat < 0x7f) ∧ IsPlain s := List.forall_mem_cons

/-- Escaping neither takes a character that may not stand in a document out nor puts one in. -/
theorem isXmlText_escapeAttrib {value : List Char} :
    IsXmlText (escapeAttrib value) ↔ IsXmlText value := by
  induction value with
  | nil => rfl
  | cons c cs ih =>
    have hc : IsXmlText (escapeChar c) ↔ isXmlChar c = true := by
      rcases escapeChar_cases c with ⟨hself, -⟩ | ⟨hlegal, hrest⟩
      · simp [hself, IsXmlText]
      · exact iff_of_true (fun d hd => (hrest d hd).2.2.2) hlegal
    rw [escapeAttrib, List.flatMap_cons, isXmlText_append, hc, isXmlText_cons, ← ih]
    rfl

/-! ## Tags -/

/-- What stands between the angle brackets of a tag but for the end of an empty one. -/
def Mark.body : Mark → List Char
  | .start tag attrs => tag ++ attrs.flatMap writeAttr
  | .empty tag attrs => tag ++ attrs.flatMap writeAttr
  | .stop tag => '/' :: tag

/-- How the tag ends before its bracket. -/
def Mark.ending (gap : List Char) : Mark → List Char
  | .empty _ _ => gap ++ ['/']
  | .start _ _ | .stop _ => []

theorem Mark.inside_eq (gap : List Char) (m : Mark) : m.inside gap = m.body ++ m.ending gap := by
  cases m with
  | start tag attrs => simp [inside, body, ending]
  | empty tag attrs => simp [inside, body, ending]
  | stop tag => simp [inside, body, ending]

/-- A tag of a node whose names are names. -/
def Mark.WellNamed : Mark → Prop
  | .start tag attrs => IsName tag ∧ ∀ p ∈ attrs, IsName p.1
  | .empty tag attrs => IsName tag ∧ ∀ p ∈ attrs, IsName p.1
  | .stop tag => IsName tag

section

variable {tag : List Char} {attrs : List (List Char × List Char)}

theorem mem_tagText (htag : IsName tag) (hattrs : ∀ p ∈ attrs, IsName p.1) {c : Char}
    (h : c ∈ tag ++ attrs.flatMap writeAttr) : c ≠ '<' ∧ c ≠ '>' := by
  rcases List.mem_append.mp h with h | h
  · have hname := htag.2 c h
    exact ⟨nameChar_ne hname (by decide), nameChar_ne hname (by decide)⟩
  · obtain ⟨p, hp, hc⟩ := List.mem_flatMap.mp h
    simp only [writeAttr, List.cons_append, List.mem_cons, List.mem_append, List.not_mem_nil,
      or_false] at hc
    rcases hc with rfl | (hc | rfl | rfl | hc) | rfl
    · decide
    · have hname := (hattrs p hp).2 c hc
      exact ⟨nameChar_ne hname (by decide), nameChar_ne hname (by decide)⟩
    · decide
    · decide
    · have hesc := mem_escapeAttrib hc
      exact ⟨hesc.1, hesc.2.1⟩
    · decide

/-- A character after which no white space is looked at, and that begins no end of a tag. -/
def IsSolid (c : Char) : Prop := isSpace c = false ∧ c ≠ '/'

theorem nameChar_solid {c : Char} (h : isNameChar c = true) : IsSolid c :=
  ⟨nameChar_not_space h, nameChar_ne h (by decide)⟩

theorem name_ends (htag : IsName tag) : ∃ u d, tag = u ++ [d] ∧ IsSolid d := by
  refine ⟨tag.dropLast, tag.getLast htag.1, (List.dropLast_append_getLast htag.1).symm, ?_⟩
  exact nameChar_solid (htag.2 _ (List.getLast_mem htag.1))

theorem tagText_ends (htag : IsName tag) :
    ∃ u d, tag ++ attrs.flatMap writeAttr = u ++ [d] ∧ IsSolid d := by
  rcases List.eq_nil_or_concat attrs with rfl | ⟨before, last, rfl⟩
  · obtain ⟨u, d, heq, hsolid⟩ := name_ends htag
    exact ⟨u, d, by simpa using heq, hsolid⟩
  · refine ⟨tag ++ before.flatMap writeAttr ++ ' ' :: last.1 ++ '=' :: '"' :: escapeAttrib last.2,
      '"', ?_, by decide, by decide⟩
    simp [writeAttr]

end

section

variable {m : Mark}

theorem Mark.mem_body (h : m.WellNamed) {c : Char} (hc : c ∈ m.body) : c ≠ '<' ∧ c ≠ '>' := by
  cases m with
  | start tag attrs => exact mem_tagText h.1 h.2 hc
  | empty tag attrs => exact mem_tagText h.1 h.2 hc
  | stop tag =>
    rcases List.mem_cons.mp hc with rfl | hc
    · decide
    · have hname := h.2 c hc
      exact ⟨nameChar_ne hname (by decide), nameChar_ne hname (by decide)⟩

theorem Mark.body_ends (h : m.WellNamed) : ∃ u d, m.body = u ++ [d] ∧ IsSolid d := by
  cases m with
  | start tag attrs => exact tagText_ends h.1
  | empty tag attrs => exact tagText_ends h.1
  | stop tag =>
    obtain ⟨u, d, heq, hsolid⟩ := name_ends h
    exact ⟨'/' :: u, d, by simp [body, heq], hsolid⟩

theorem Mark.body_begins (h : m.WellNamed) :
    ∃ c u, m.body = c :: u ∧ (c = '/' ∨ isNameChar c = true) := by
  cases m with
  | start tag attrs =>
    obtain ⟨c, u, rfl⟩ := List.exists_cons_of_ne_nil h.1.1
    exact ⟨c, _, rfl, .inr (h.1.2 c List.mem_cons_self)⟩
  | empty tag attrs =>
    obtain ⟨c, u, rfl⟩ := List.exists_cons_of_ne_nil h.1.1
    exact ⟨c, _, rfl, .inr (h.1.2 c List.mem_cons_self)⟩
  | stop tag => exact ⟨'/', tag, rfl, .inl rfl⟩

end

theorem Mark.wellNamed_of_tags {n : List Char × List (List Char × List Char)} {m : Mark}
    (htags : m.Tags n) (htag : IsName n.1) (hattrs : ∀ p ∈ n.2, IsName p.1) : m.WellNamed := by
  rcases htags with rfl | rfl | rfl
  · exact ⟨htag, hattrs⟩
  · exact ⟨htag, hattrs⟩
  · exact htag

/-! ## White space before the end of a tag -/

theorem closeTight_cons {c : Char} (h : isSpace c = false) (cs : List Char) :
    closeTight (c :: cs) = c :: closeTight cs := by
  simp [closeTight, h]

/-- Text without a closing bracket that ends in a solid character is kept. -/
theorem closeTight_solid {u : List Char} {d : Char} (hu : ∀ c ∈ u ++ [d], c ≠ '>')
    (hd : IsSolid d) (v : List Char) :
    closeTight (u ++ d :: v) = u ++ d :: closeTight v := by
  induction u with
  | nil => exact closeTight_cons hd.1 v
  | cons c u ih =>
    have hu' : ∀ c ∈ u ++ [d], c ≠ '>' := fun c hc => hu c (List.mem_cons_of_mem _ hc)
    have hopen : closes ((u ++ d :: v).dropWhile isSpace) = false := by
      clear ih hu
      induction u with
      | nil =>
        rw [List.nil_append, List.dropWhile_cons_of_neg (by simp [hd.1])]
        unfold closes
        split
        · rename_i heq
          exact absurd (List.cons.inj heq).1 hd.2
        · rfl
      | cons e u ih =>
        rw [List.cons_append, List.dropWhile_cons]
        split
        · exact ih fun c hc => hu' c (List.mem_cons_of_mem _ hc)
        · unfold closes
          split
          · rename_i heq
            have htail := (List.cons.inj heq).2
            cases u with
            | nil => exact absurd (List.cons.inj htail).1 (hu' d (by simp))
            | cons f u => exact absurd (List.cons.inj htail).1 (hu' f (by simp))
          · rfl
    rw [List.cons_append, closeTight, hopen, ih hu']
    simp

theorem IsBlank.isSpace {text : List Char} (h : IsBlank text) : ∀ c ∈ text, isSpace c = true := by
  intro c hc
  rcases h c hc with rfl | rfl
  · decide
  · decide

theorem IsBlank.ne {text : List Char} (h : IsBlank text) {d : Char} (hlf : d ≠ '\n')
    (hspace : d ≠ ' ') : d ∉ text := by
  intro hd
  rcases h d hd with heq | heq
  · exact hlf heq
  · exact hspace heq

/-- White space between tags is kept. -/
theorem closeTight_blank {after v : List Char} (hafter : IsBlank after)
    (hv : ∀ c ∈ v.head?, c = '<') : closeTight (after ++ v) = after ++ closeTight v := by
  have hopen : ∀ w : List Char, IsBlank w → closes ((w ++ v).dropWhile isSpace) = false := by
    intro w hw
    rw [List.dropWhile_append_of_pos hw.isSpace]
    cases v with
    | nil => rfl
    | cons c v =>
      obtain rfl := hv c rfl
      rfl
  induction after with
  | nil => rfl
  | cons c after ih =>
    have hafter' : IsBlank after := fun c hc => hafter c (List.mem_cons_of_mem _ hc)
    rw [List.cons_append, closeTight, hopen after hafter', ih hafter']
    simp

/-! ## The whole text -/

theorem isBlank_nil : IsBlank [] := by simp [IsBlank]

/-- Pieces as an element has them. -/
def WellWritten (ps : List Piece) : Prop := ∀ p ∈ ps, p.mark.WellNamed ∧ IsBlank p.after

theorem Element.wellWritten {t : Element} (h : t.WellNamed) {level : ℕ} {after : List Char}
    (hafter : IsBlank after) : WellWritten (t.pieces level after) := by
  intro p hp
  obtain ⟨hblank, n, hn, htags⟩ := t.mem_pieces hafter p hp
  exact ⟨Mark.wellNamed_of_tags htags (h n hn).1 (h n hn).2.1, hblank⟩

theorem writePieces_cons (gap : List Char) (p : Piece) (ps : List Piece) :
    writePieces gap (p :: ps) =
      '<' :: p.mark.body ++ (p.mark.ending gap ++ '>' :: (p.after ++ writePieces gap ps)) := by
  simp [writePieces, Piece.write, Mark.inside_eq]

theorem head_writePieces (gap : List Char) (ps : List Piece) :
    ∀ c ∈ (writePieces gap ps).head?, c = '<' := by
  cases ps with
  | nil => simp [writePieces]
  | cons p ps => simp [writePieces_cons]

/-- Taking out the white space before the end of an empty tag leaves the same pieces. -/
theorem closeTight_writePieces {ps : List Piece} (h : WellWritten ps) :
    closeTight (writePieces [' '] ps) = writePieces [] ps := by
  induction ps with
  | nil => rfl
  | cons p ps ih =>
    have hp : p.mark.WellNamed ∧ IsBlank p.after := h p List.mem_cons_self
    have hrest : closeTight (p.after ++ writePieces [' '] ps) = p.after ++ writePieces [] ps := by
      rw [closeTight_blank hp.2 (head_writePieces _ ps),
        ih fun q hq => h q (List.mem_cons_of_mem _ hq)]
    have hbracket : closeTight ('>' :: (p.after ++ writePieces [' '] ps)) =
        '>' :: (p.after ++ writePieces [] ps) := by
      rw [closeTight_cons (by decide), hrest]
    -- what comes after the solid end of the body
    have hending : closeTight (p.mark.ending [' '] ++ '>' :: (p.after ++ writePieces [' '] ps)) =
        p.mark.ending [] ++ '>' :: (p.after ++ writePieces [] ps) := by
      cases p.mark with
      | start tag attrs => exact hbracket
      | stop tag => exact hbracket
      | empty tag attrs =>
        have hspace : isSpace ' ' = true := by decide
        have hslash : isSpace '/' = false := by decide
        simp only [Mark.ending, List.nil_append, List.cons_append]
        rw [closeTight, List.dropWhile_cons_of_neg (by simp [hslash])]
        rw [if_pos ⟨hspace, rfl⟩, closeTight_cons hslash, hbracket]
    obtain ⟨u, d, hbody, hsolid⟩ := Mark.body_ends hp.1
    have hnone : ∀ c ∈ '<' :: u ++ [d], c ≠ '>' := by
      intro c hc
      rcases List.mem_cons.mp hc with rfl | hc
      · decide
      · exact (Mark.mem_body hp.1 (hbody ▸ hc)).2
    have hsplit : ∀ v, '<' :: p.mark.body ++ v = '<' :: u ++ d :: v := by
      intro v
      simp [hbody]
    rw [writePieces_cons, writePieces_cons, hsplit, hsplit, closeTight_solid hnone hsolid, hending]

theorem closeTight_write {t : Element} (h : t.WellNamed) :
    closeTight (t.write [' ']) = t.write [] :=
  closeTight_writePieces (Element.wellWritten h isBlank_nil)

/-- A tag is opened with a name or a slash. -/
def Opens (c d : Char) : Prop := c = '<' → d = '/' ∨ isNameChar d = true

theorem isChain_opens {s : List Char} (h : ∀ c ∈ s, c ≠ '<') : s.IsChain Opens := by
  induction s with
  | nil => exact .nil
  | cons c s ih =>
    rw [List.forall_mem_cons] at h
    exact List.isChain_cons.mpr ⟨fun d _ hlt => absurd hlt h.1, ih h.2⟩

theorem writePieces_opens {ps : List Piece} (h : WellWritten ps) :
    (writePieces [] ps).IsChain Opens := by
  induction ps with
  | nil => exact .nil
  | cons p ps ih =>
    have hp : p.mark.WellNamed ∧ IsBlank p.after := h p List.mem_cons_self
    obtain ⟨c, u, hbody, hc⟩ := Mark.body_begins hp.1
    have hnone : ∀ e ∈ p.mark.body ++ (p.mark.ending [] ++ '>' :: p.after), e ≠ '<' := by
      intro e he
      simp only [List.mem_append, List.mem_cons] at he
      rcases he with he | he | rfl | he
      · exact (Mark.mem_body hp.1 he).1
      · cases hm : p.mark with
        | start tag attrs => simp [hm, Mark.ending] at he
        | stop tag => simp [hm, Mark.ending] at he
        | empty tag attrs =>
          obtain rfl : e = '/' := by simpa [hm, Mark.ending] using he
          decide
      · decide
      · rcases hp.2 e he with rfl | rfl
        · decide
        · decide
    have hsplit : writePieces [] (p :: ps) =
        '<' :: (p.mark.body ++ (p.mark.ending [] ++ '>' :: p.after)) ++ writePieces [] ps := by
      simp [writePieces_cons]
    rw [hsplit]
    apply List.IsChain.append
    · apply List.isChain_cons.mpr
      refine ⟨?_, isChain_opens hnone⟩
      intro e he _
      rw [hbody] at he
      obtain rfl := Option.some.inj he
      exact hc
    · exact ih fun q hq => h q (List.mem_cons_of_mem _ hq)
    · intro x hx y hy hlt
      have hne : p.mark.body ++ (p.mark.ending [] ++ '>' :: p.after) ≠ [] := by simp
      rw [Option.mem_def, List.getLast?_cons_of_ne_nil hne] at hx
      exact absurd hlt (hnone x (List.mem_of_getLast? hx))

theorem write_opens {t : Element} (h : t.WellNamed) : (t.write []).IsChain Opens :=
  writePieces_opens (Element.wellWritten h isBlank_nil)

theorem isXmlText_name {name : List Char} (h : IsName name) : IsXmlText name :=
  fun c hc => nameChar_legal (h.2 c hc)

theorem isXmlText_attrs {attrs : List (List Char × List Char)} (h : ∀ p ∈ attrs, IsName p.1) :
    IsXmlText (attrs.flatMap writeAttr) ↔ ∀ p ∈ attrs, IsXmlText p.2 := by
  have hattr : ∀ p ∈ attrs, (IsXmlText (writeAttr p) ↔ IsXmlText p.2) := by
    intro p hp
    have hname := isXmlText_name (h p hp)
    have hblank : isXmlChar ' ' = true := by decide
    have hequals : isXmlChar '=' = true := by decide
    have hquote : isXmlChar '"' = true := by decide
    have hlast : IsXmlText ['"'] := by simp [IsXmlText, hquote]
    simp [writeAttr, isXmlText_append, isXmlText_cons, isXmlText_escapeAttrib, hname, hblank,
      hequals, hquote, hlast]
  unfold IsXmlText at hattr ⊢
  simp only [List.forall_mem_flatMap]
  exact forall₂_congr hattr

/-- The attributes in a tag. -/
def Mark.attrs : Mark → List (List Char × List Char)
  | .start _ attrs => attrs
  | .empty _ attrs => attrs
  | .stop _ => []

theorem isXmlText_body {m : Mark} (h : m.WellNamed) :
    IsXmlText m.body ↔ ∀ p ∈ m.attrs, IsXmlText p.2 := by
  cases m with
  | start tag attrs =>
    rw [Mark.body, isXmlText_append, isXmlText_attrs h.2, iff_true_intro (isXmlText_name h.1),
      true_and]
    rfl
  | empty tag attrs =>
    rw [Mark.body, isXmlText_append, isXmlText_attrs h.2, iff_true_intro (isXmlText_name h.1),
      true_and]
    rfl
  | stop tag =>
    have hslash : isXmlChar '/' = true := by decide
    apply iff_of_true
    · exact isXmlText_cons.mpr ⟨hslash, isXmlText_name h⟩
    · simp [Mark.attrs]

theorem isXmlText_blank {after : List Char} (h : IsBlank after) : IsXmlText after := by
  intro c hc
  rcases h c hc with rfl | rfl
  · decide
  · decide

theorem isXmlText_writePieces {ps : List Piece} (h : WellWritten ps) {gap : List Char}
    (hgap : IsBlank gap) :
    IsXmlText (writePieces gap ps) ↔ ∀ p ∈ ps, IsXmlText p.mark.body := by
  induction ps with
  | nil => simp [writePieces, IsXmlText]
  | cons p ps ih =>
    have hp : p.mark.WellNamed ∧ IsBlank p.after := h p List.mem_cons_self
    have hopen : isXmlChar '<' = true := by decide
    have hclose : isXmlChar '>' = true := by decide
    have hending : IsXmlText (p.mark.ending gap) := by
      cases p.mark with
      | start tag attrs => simp [Mark.ending, IsXmlText]
      | stop tag => simp [Mark.ending, IsXmlText]
      | empty tag attrs =>
        have hslash : IsXmlText ['/'] := by decide
        exact isXmlText_append.mpr ⟨isXmlText_blank hgap, hslash⟩
    rw [writePieces_cons, List.forall_mem_cons,
      ← ih fun q hq => h q (List.mem_cons_of_mem _ hq)]
    simp [isXmlText_append, isXmlText_cons, hopen, hclose, hending, isXmlText_blank hp.2]

/-- The text of an element may stand in a document exactly when its values may. -/
theorem isXmlText_write {t : Element} (h : t.WellNamed) {gap : List Char} (hgap : IsBlank gap) :
    IsXmlText (t.write gap) ↔ t.Legal := by
  have hwritten := @Element.wellWritten t h 0 [] isBlank_nil
  rw [Element.write, isXmlText_writePieces hwritten hgap]
  constructor
  · intro hlegal n hn
    obtain ⟨p, hp, hmark⟩ := @Element.exists_piece 0 [] t n hn
    have hvalues := (isXmlText_body (hwritten p hp).1).mp (hlegal p hp)
    rcases hmark with hmark | hmark
    · rwa [hmark] at hvalues
    · rwa [hmark] at hvalues
  · intro hlegal p hp
    obtain ⟨-, n, hn, htags⟩ := t.mem_pieces isBlank_nil p hp
    rw [isXmlText_body (hwritten p hp).1]
    rcases htags with htags | htags | htags
    · rw [htags]
      exact hlegal n hn
    · rw [htags]
      exact hlegal n hn
    · simp [htags, Mark.attrs]

/-! ## Trees -/

theorem Element.mem_nodesAll {ts : List Element} {n : List Char × List (List Char × List Char)} :
    n ∈ Element.nodesAll ts ↔ ∃ t ∈ ts, n ∈ t.nodes := by
  induction ts with
  | nil => simp [nodesAll]
  | cons t ts ih => simp [nodesAll, ih]

/-- What holds of all nodes holds of the top one, and of those of all children. -/
theorem Element.forall_mem_nodes {p : List Char × List (List Char × List Char) → Prop}
    {tag : List Char} {attrs : List (List Char × List Char)} {children : List Element} :
    (∀ n ∈ (Element.node tag attrs children).nodes, p n) ↔
      p (tag, attrs) ∧ ∀ c ∈ children, ∀ n ∈ c.nodes, p n := by
  rw [nodes, List.forall_mem_cons]
  simp only [mem_nodesAll]
  constructor
  · rintro ⟨htop, hbelow⟩
    exact ⟨htop, fun c hc n hn => hbelow n ⟨c, hc, hn⟩⟩
  · rintro ⟨htop, hbelow⟩
    refine ⟨htop, ?_⟩
    rintro n ⟨c, hc, hn⟩
    exact hbelow c hc n hn

end Library
