import Bmdwire.Analysis.MacroTexts
import Bmdwire.Library.XmlReader
import Bmdwire.Program.Profile

/-!
# Saved profiles that load back

A saved profile loads back exactly when every name in it may stand in an XML document: the
white space that `to_xml` takes out is only that before the ends of empty tags, and neither
guard of `from_xml` is met by what was written. What the profile holds beside names is plain.
Nothing on the way from the switcher to the text looks for characters that XML does not have,
such as a bell in a label.
-/

set_option autoImplicit false

namespace Bmdwire.Profile

open Library
open Macros (decodeMacroBytecode decodeMacroBytecode_tidy TidyOp PlainText plainText_str)

/-- What is relied on of `ET.fromstring`: a document whose strings have only characters of XML
is read as the elements it was written for, with or without white space before the end of an
empty tag, and a text with another character is not well formed. -/
structure ReadsXml (fromstring : Text → Option Element) : Prop where
  reads : ∀ t : Element, t.WellNamed → t.Legal → ∀ gap, IsBlank gap →
    fromstring (xmlDeclaration ++ t.write gap ++ ['\n']) = some t
  rejects : ∀ text, ¬ IsXmlText text → fromstring text = none

/-- The reader of the library is one that can be relied on so. -/
theorem readsXml_readDocument : ReadsXml readDocument where
  reads t hnamed hlegal gap hgap := readDocument_write hnamed hlegal hgap
  rejects text h := by
    have hall : ¬ text.all isXmlChar = true := fun hall => h (List.all_eq_true.mp hall)
    rw [readDocument, if_neg hall]

/-! ## Text -/

theorem toXml_eq {t : Element} (h : t.WellNamed) :
    toXml t = xmlDeclaration ++ t.write [] ++ ['\n'] := by
  rw [toXml, closeTight_write h]

theorem isXmlText_toXml {t : Element} (h : t.WellNamed) : IsXmlText (toXml t) ↔ t.Legal := by
  have hdecl : IsXmlText xmlDeclaration := by decide
  have hlast : IsXmlText ['\n'] := by decide
  rw [toXml_eq h, isXmlText_append, isXmlText_append, isXmlText_write h isBlank_nil]
  simp [hdecl, hlast]

/-- A declaration begins with an opening that the writer does not make. -/
theorem not_declaresDtd {text : Text} (h : text.IsChain fun c d => c = '<' → d ≠ '!') :
    declaresDtd text = false := by
  induction text with
  | nil => rfl
  | cons c cs ih =>
    rw [List.isChain_cons] at h
    have hhead : ¬ (c = '<' ∧ cs.head? = some '!') := by
      rintro ⟨hlt, hbang⟩
      exact h.1 '!' hbang hlt rfl
    rw [declaresDtd, ih h.2]
    simp only [Bool.or_false, decide_eq_false_iff_not]
    rintro ⟨hlt, hbang, -⟩
    exact hhead ⟨hlt, hbang⟩

theorem isChain_declaration : xmlDeclaration.IsChain fun c d => c = '<' → d ≠ '!' := by
  decide

theorem toXml_opens {t : Element} (h : t.WellNamed) :
    (toXml t).IsChain fun c d => c = '<' → d ≠ '!' := by
  have hwrite : (t.write []).IsChain fun c d => c = '<' → d ≠ '!' := by
    apply (write_opens h).imp
    intro c d hopens hlt
    rcases hopens hlt with rfl | hname
    · decide
    · exact nameChar_ne hname (by decide)
  rw [toXml_eq h]
  apply List.IsChain.append
  · apply List.IsChain.append isChain_declaration hwrite
    intro c hc d _ hlt
    obtain rfl : '\n' = c := Option.some.inj hc
    cases hlt
  · exact .singleton _
  · intro c hc d hd _
    obtain rfl : '\n' = d := Option.some.inj hd
    decide

section

variable {fromstring : Text → Option Element} (hf : ReadsXml fromstring)
include hf

/-- What is saved is read back when its values may stand in a document; otherwise the load
fails, with the text called wide when the character is NUL. -/
theorem fromXml_legal {t : Element} (h : t.WellNamed) (hlegal : t.Legal) :
    fromXml fromstring (toXml t) = .ok t := by
  have hnul : '\x00' ∉ toXml t := by
    intro hmem
    have hchar := (isXmlText_toXml h).mpr hlegal _ hmem
    revert hchar
    decide
  have hread : fromstring (toXml t) = some t := by
    rw [toXml_eq h]
    exact hf.reads t h hlegal [] isBlank_nil
  rw [fromXml, if_neg hnul, not_declaresDtd (toXml_opens h), hread]
  rfl

theorem fromXml_illegal {t : Element} (h : t.WellNamed) (hillegal : ¬ t.Legal) :
    fromXml fromstring (toXml t) =
      .error (if '\x00' ∈ toXml t then .wideEncoding else .notWellFormed) := by
  have hread : fromstring (toXml t) = none :=
    hf.rejects _ (mt (isXmlText_toXml h).mp hillegal)
  rw [fromXml, not_declaresDtd (toXml_opens h), hread]
  by_cases hnul : '\x00' ∈ toXml t
  · simp [hnul]
  · simp [hnul]

theorem fromXml_iff {t : Element} (h : t.WellNamed) :
    fromXml fromstring (toXml t) = .ok t ↔ t.Legal := by
  constructor
  · intro hok
    by_contra hillegal
    rw [fromXml_illegal hf h hillegal] at hok
    cases hok
  · exact fromXml_legal hf h

end

/-! ## What a builder writes -/

/-- A tag and the keys of its attributes are names, and the keys differ. -/
def Shaped (tag : String) (keys : List String) : Prop :=
  IsName tag.toList ∧ (∀ key ∈ keys, IsName key.toList) ∧ keys.Nodup

instance (tag : String) (keys : List String) : Decidable (Shaped tag keys) :=
  inferInstanceAs (Decidable (_ ∧ _ ∧ _))

theorem wellNamed_element {tag : String} {attrs : List (String × Text)} {children : List Element}
    (h : Shaped tag (attrs.map Prod.fst)) (hchildren : ∀ c ∈ children, c.WellNamed) :
    (element tag attrs children).WellNamed := by
  unfold element Element.WellNamed
  rw [Element.forall_mem_nodes]
  refine ⟨⟨h.1, ?_, ?_⟩, hchildren⟩
  · intro p hp
    obtain ⟨q, hq, rfl⟩ := List.mem_map.mp hp
    exact h.2.1 q.1 (List.mem_map_of_mem hq)
  · have hkeys : (attrs.map fun p => (p.1.toList, p.2)).map Prod.fst =
        (attrs.map Prod.fst).map String.toList := by simp
    rw [hkeys]
    exact h.2.2.map fun a b hab => String.toList_injective hab

theorem legal_element {tag : String} {attrs : List (String × Text)} {children : List Element} :
    (element tag attrs children).Legal ↔
      (∀ p ∈ attrs, IsXmlText p.2) ∧ ∀ c ∈ children, c.Legal := by
  unfold element Element.Legal
  rw [Element.forall_mem_nodes, List.forall_mem_map]

theorem PlainElement.legal (p : PlainElement) : p.element.Legal :=
  fun n hn q hq => (p.plain n hn q hq).isXmlText

theorem isXmlText_plain {text : String} (h : PlainText text) : IsXmlText text.toList :=
  IsPlain.isXmlText h

theorem isXmlText_number (n : ℕ) : IsXmlText (number n) := isXmlText_plain (plainText_str n)

theorem mem_sortedItems {α : Type} {d : List (ℕ × α)} {p : ℕ × α} :
    p ∈ sortedItems d ↔ p ∈ d := List.mem_mergeSort

theorem opElement_wellNamed {op : Macros.Op} (h : TidyOp op) : (opElement op).WellNamed := by
  have hkeys := h.2.1
  have hid : IsName "id".toList := by decide
  have htag : IsName "Op".toList := by decide
  apply wellNamed_element _ (by simp)
  simp only [List.map_cons, List.map_map]
  exact ⟨htag, List.forall_mem_cons.mpr ⟨hid, hkeys.2⟩, hkeys.1⟩

theorem opElement_legal {op : Macros.Op} (h : TidyOp op) : (opElement op).Legal := by
  rw [opElement, legal_element]
  refine ⟨List.forall_mem_cons.mpr ⟨isXmlText_plain h.1, ?_⟩, by simp⟩
  intro p hp
  obtain ⟨q, hq, rfl⟩ := List.mem_map.mp hp
  exact isXmlText_plain (h.2.2 q.2 (List.mem_map_of_mem hq))

/-! ## Sections -/

theorem isXmlText_extPortTypeName (bitfield : ℕ) : IsXmlText (extPortTypeName bitfield) := by
  have hall : ∀ p ∈ extPortTypeNames, PlainText p.2 := by decide
  unfold extPortTypeName
  cases hfind : extPortTypeNames.find? fun p => bitfield &&& p.1 ≠ 0 with
  | none => exact isXmlText_plain (by decide)
  | some p => exact isXmlText_plain (hall p (List.mem_of_find?_eq_some hfind))

theorem inputElement_wellNamed (idx : ℕ) (ip : InputProperties) :
    (inputElement idx ip).WellNamed := by
  have hshape : Shaped "Input" ["id", "shortName", "longName", "externalPortType"] := by decide
  exact wellNamed_element hshape (by simp)

theorem inputElement_legal (idx : ℕ) (ip : InputProperties) :
    (inputElement idx ip).Legal ↔
      IsXmlText (fieldText ip.shortName) ∧ IsXmlText (fieldText ip.name) := by
  rw [inputElement, legal_element]
  simp [isXmlText_number, isXmlText_extPortTypeName]

theorem buildInputs_wellNamed (inputs : List (ℕ × InputProperties)) :
    (buildInputs inputs).WellNamed := by
  have hshape : Shaped "Inputs" [] := by decide
  apply wellNamed_element hshape
  rw [List.forall_mem_map]
  exact fun p _ => inputElement_wellNamed p.1 p.2

theorem buildInputs_legal (inputs : List (ℕ × InputProperties)) :
    (buildInputs inputs).Legal ↔ ∀ p ∈ inputs, p.2.portType = 0 →
      IsXmlText (fieldText p.2.shortName) ∧ IsXmlText (fieldText p.2.name) := by
  rw [buildInputs, legal_element, List.forall_mem_map]
  simp only [List.mem_filter, mem_sortedItems, decide_eq_true_eq, inputElement_legal, and_imp]
  simp

/-- Elements given as they are add no condition. -/
theorem wellNamed_given (ps : List PlainElement) :
    ∀ c ∈ ps.map PlainElement.element, c.WellNamed := by
  rw [List.forall_mem_map]
  exact fun p _ => p.wellNamed

theorem legal_given (ps : List PlainElement) : ∀ c ∈ ps.map PlainElement.element, c.Legal := by
  rw [List.forall_mem_map]
  exact fun p _ => p.legal

theorem isXmlText_switch (b : Bool) : IsXmlText (switch b) := by
  cases b with
  | false => exact isXmlText_plain (by decide)
  | true => exact isXmlText_plain (by decide)

theorem buildSettings_wellNamed (shape : SettingsShape) (inputs : List (ℕ × InputProperties)) :
    (buildSettings shape inputs).WellNamed := by
  have hshape :
      Shaped "Settings" ["abDirect", "cameraAux", "SDI3GOutputLevel", "ftbEnabled"] := by decide
  apply wellNamed_element hshape
  rw [List.forall_mem_append, List.forall_mem_cons]
  exact ⟨wellNamed_given _, buildInputs_wellNamed inputs, wellNamed_given _⟩

theorem buildSettings_legal (shape : SettingsShape) (inputs : List (ℕ × InputProperties)) :
    (buildSettings shape inputs).Legal ↔ (buildInputs inputs).Legal := by
  have hcamera : IsXmlText "-1".toList := isXmlText_plain (by decide)
  have hlevel : IsXmlText (if shape.levelA then "LevelA".toList else "LevelB".toList) := by
    split_ifs
    · exact isXmlText_plain (by decide)
    · exact isXmlText_plain (by decide)
  rw [buildSettings, legal_element]
  simp only [List.forall_mem_append, List.forall_mem_cons]
  have hbefore := legal_given shape.beforeInputs
  have hafter := legal_given shape.afterInputs
  constructor
  · rintro ⟨-, -, hinputs, -⟩
    exact hinputs
  · intro hinputs
    refine ⟨⟨isXmlText_switch _, hcamera, hlevel, isXmlText_switch _, ?_⟩, hbefore, hinputs,
      hafter⟩
    simp

theorem stillElement_wellNamed (idx : ℕ) (name : Text) : (stillElement idx name).WellNamed := by
  have hshape : Shaped "Still" ["index", "name", "path"] := by decide
  exact wellNamed_element hshape (by simp)

theorem stillElement_legal (idx : ℕ) (name : Text) :
    (stillElement idx name).Legal ↔ IsXmlText name := by
  have hpool : IsXmlText "ATEM Media Pool/".toList := isXmlText_plain (by decide)
  have hpng : IsXmlText ".png".toList := isXmlText_plain (by decide)
  rw [stillElement, legal_element]
  simp only [List.forall_mem_cons]
  constructor
  · rintro ⟨⟨-, hname, -⟩, -⟩
    exact hname
  · intro hname
    refine ⟨⟨isXmlText_number idx, hname, ?_, by simp⟩, by simp⟩
    split_ifs with hnil
    · rwa [← hnil]
    · exact isXmlText_append.mpr ⟨isXmlText_append.mpr ⟨hpool, hname⟩, hpng⟩

theorem buildMediaPoolStills_wellNamed (files : List (ℕ × FileInfo)) :
    (buildMediaPoolStills files).WellNamed := by
  have hpool : Shaped "MediaPool" [] := by decide
  have hstills : Shaped "Stills" [] := by decide
  apply wellNamed_element hpool
  rw [List.forall_mem_singleton]
  apply wellNamed_element hstills
  rw [List.forall_mem_map]
  exact fun p _ => stillElement_wellNamed _ _

theorem buildMediaPoolStills_legal (files : List (ℕ × FileInfo)) :
    (buildMediaPoolStills files).Legal ↔
      ∀ p ∈ files, p.2.isUsed = true → IsXmlText (decodeName p.2.name) := by
  rw [buildMediaPoolStills, legal_element, List.forall_mem_singleton, legal_element,
    List.forall_mem_map]
  simp only [List.mem_filter, mem_sortedItems, stillElement_legal, and_imp]
  simp

theorem macroElement_wellNamed (idx : ℕ) (m : MacroProperties) (raw : Option Bytes) :
    (macroElement idx m raw).WellNamed := by
  have hshape : Shaped "Macro" ["index", "name", "description"] := by decide
  apply wellNamed_element hshape
  rw [List.forall_mem_map]
  exact fun op hop => opElement_wellNamed (decodeMacroBytecode_tidy _ op hop)

theorem macroElement_legal (idx : ℕ) (m : MacroProperties) (raw : Option Bytes) :
    (macroElement idx m raw).Legal ↔
      IsXmlText (decodeName m.name) ∧ IsXmlText (decodeName m.description) := by
  have hops : ∀ c ∈ (decodeMacroBytecode (raw.getD [])).map opElement, c.Legal := by
    rw [List.forall_mem_map]
    exact fun op hop => opElement_legal (decodeMacroBytecode_tidy _ op hop)
  rw [macroElement, legal_element, iff_true_intro hops]
  simp [isXmlText_number]

theorem buildMacroPool_wellNamed (macros : List (ℕ × MacroProperties))
    (download : ℕ → Option Bytes) : (buildMacroPool macros download).WellNamed := by
  have hshape : Shaped "MacroPool" [] := by decide
  apply wellNamed_element hshape
  rw [List.forall_mem_map]
  exact fun p _ => macroElement_wellNamed _ _ _

theorem buildMacroPool_legal (macros : List (ℕ × MacroProperties))
    (download : ℕ → Option Bytes) :
    (buildMacroPool macros download).Legal ↔ ∀ p ∈ macros, p.2.isUsed = true →
      IsXmlText (decodeName p.2.name) ∧ IsXmlText (decodeName p.2.description) := by
  rw [buildMacroPool, legal_element, List.forall_mem_map]
  simp only [List.mem_filter, mem_sortedItems, macroElement_legal, and_imp]
  simp

/-! ## Whole profiles -/

theorem fromAtem_wellNamed (shape : Shape) (download : ℕ → Option Bytes) (s : State) :
    (fromAtem shape download s).WellNamed := by
  have hshape : Shaped "Profile" ["majorVersion", "minorVersion"] := by decide
  have hproduct : Shaped "Profile" ["majorVersion", "minorVersion", "product"] := by decide
  unfold fromAtem
  apply wellNamed_element
  · split_ifs
    · exact hshape
    · exact hproduct
  · simp only [List.forall_mem_append]
    refine ⟨⟨⟨⟨⟨⟨wellNamed_given _, ?_⟩, wellNamed_given _⟩, ?_⟩, wellNamed_given _⟩, ?_⟩,
      wellNamed_given _⟩
    · intro c hc
      obtain ⟨settings, -, rfl⟩ := Option.map_eq_some_iff.mp (Option.mem_toList.mp hc)
      exact buildSettings_wellNamed settings _
    · split_ifs
      · exact List.forall_mem_singleton.mpr (buildMediaPoolStills_wellNamed _)
      · simp
    · split_ifs
      · exact List.forall_mem_singleton.mpr (buildMacroPool_wellNamed _ _)
      · simp

/-- Every name that is saved has only characters that may stand in an XML document. -/
structure LegalNames (shape : Shape) (s : State) : Prop where
  product : ∀ octets ∈ s.productName, IsXmlText (strip (fieldText octets))
  inputs : shape.settings.isSome = true → ∀ p ∈ s.inputProperties, p.2.portType = 0 →
    IsXmlText (fieldText p.2.shortName) ∧ IsXmlText (fieldText p.2.name)
  stills : shape.mediaPoolMetadata = true → ∀ p ∈ s.mediaplayerFileInfo, p.2.isUsed = true →
    IsXmlText (decodeName p.2.name)
  macros : shape.macros = true → ∀ p ∈ s.macroProperties, p.2.isUsed = true →
    IsXmlText (decodeName p.2.name) ∧ IsXmlText (decodeName p.2.description)

theorem legal_root {product : Text} :
    (∀ p ∈ [("majorVersion", number 2), ("minorVersion", number 1)] ++
      if product = [] then [] else [("product", product)], IsXmlText p.2) ↔ IsXmlText product := by
  have hempty : IsXmlText [] := by simp [IsXmlText]
  split_ifs with hnil
  · simp [hnil, isXmlText_number, hempty]
  · simp [isXmlText_number]

theorem legal_when {b : Bool} {t : Element} :
    (∀ c ∈ if b then [t] else [], c.Legal) ↔ (b = true → t.Legal) := by
  cases b with
  | false => simp
  | true => simp

theorem fromAtem_legal (shape : Shape) (download : ℕ → Option Bytes) (s : State) :
    (fromAtem shape download s).Legal ↔ LegalNames shape s := by
  have hproduct : IsXmlText ((s.productName.map fun octets => strip (fieldText octets)).getD []) ↔
      ∀ octets ∈ s.productName, IsXmlText (strip (fieldText octets)) := by
    cases s.productName with
    | none => simp [IsXmlText]
    | some octets => simp
  have hsettings : (∀ c ∈ (shape.settings.map fun settings =>
      buildSettings settings s.inputProperties).toList, c.Legal) ↔
        (shape.settings.isSome = true → (buildInputs s.inputProperties).Legal) := by
    cases shape.settings with
    | none => simp
    | some settings => simp [buildSettings_legal]
  unfold fromAtem
  rw [legal_element, legal_root, hproduct]
  simp only [List.forall_mem_append]
  rw [hsettings, legal_when, legal_when, buildInputs_legal, buildMediaPoolStills_legal,
    buildMacroPool_legal]
  have hgiven := legal_given
  constructor
  · rintro ⟨hname, ⟨⟨⟨⟨⟨-, hinputs⟩, -⟩, hstills⟩, -⟩, hmacros⟩, -⟩
    exact ⟨hname, hinputs, hstills, hmacros⟩
  · rintro ⟨hname, hinputs, hstills, hmacros⟩
    exact ⟨hname, ⟨⟨⟨⟨⟨hgiven _, hinputs⟩, hgiven _⟩, hstills⟩, hgiven _⟩, hmacros⟩, hgiven _⟩

/-- A saved profile loads back exactly when its names may stand in an XML document. -/
theorem loads_iff {fromstring : Text → Option Element} (hf : ReadsXml fromstring) (shape : Shape)
    (download : ℕ → Option Bytes) (s : State) :
    fromXml fromstring (toXml (fromAtem shape download s)) = .ok (fromAtem shape download s) ↔
      LegalNames shape s := by
  rw [fromXml_iff hf (fromAtem_wellNamed shape download s)]
  exact fromAtem_legal shape download s

/-- The stills alone. -/
def stillsOnly : Shape where
  settings := none
  mediaPoolMetadata := true
  macros := false
  beforeSettings := []
  afterSettings := []
  afterMediaPool := []
  afterMacros := []

/-- One used still; the name is given as its octets. -/
def oneStill (name : Bytes) : State where
  productName := none
  inputProperties := []
  mediaplayerFileInfo := [(0, ⟨true, name⟩)]
  macroProperties := []

/-- `Logo`, with zeros after it. -/
theorem logo_loads : LegalNames stillsOnly (oneStill [0x4c, 0x6f, 0x67, 0x6f, 0, 0]) ∧
    fromXml readDocument
      (toXml (fromAtem stillsOnly (fun _ => none) (oneStill [0x4c, 0x6f, 0x67, 0x6f, 0, 0]))) =
      .ok (fromAtem stillsOnly (fun _ => none) (oneStill [0x4c, 0x6f, 0x67, 0x6f, 0, 0])) := by
  have hnames : LegalNames stillsOnly (oneStill [0x4c, 0x6f, 0x67, 0x6f, 0, 0]) := by
    refine ⟨by simp [oneStill], by simp [stillsOnly], ?_, by simp [stillsOnly]⟩
    intro _ p hp _
    obtain rfl := List.mem_singleton.mp hp
    decide
  exact ⟨hnames, (loads_iff readsXml_readDocument stillsOnly (fun _ => none) _).mpr hnames⟩

/-- A still named with a bell after an `A` is saved without an error, and the text saved is not
well formed. -/
theorem bell_lost : ¬ ∀ fromstring, ReadsXml fromstring → ∀ shape download s,
    fromXml fromstring (toXml (fromAtem shape download s)) = .ok (fromAtem shape download s) := by
  intro hall
  have hloads := hall readDocument readsXml_readDocument stillsOnly (fun _ => none)
    (oneStill [0x41, 0x07])
  have hlegal := (fromXml_iff readsXml_readDocument (fromAtem_wellNamed _ _ _)).mp hloads
  have hname := ((fromAtem_legal _ _ _).mp hlegal).stills rfl (0, ⟨true, [0x41, 0x07]⟩)
    List.mem_cons_self rfl
  revert hname
  decide

end Bmdwire.Profile
