import Bmdwire.Library.Utf8Encode
import Bmdwire.Library.Xml
import Bmdwire.Program.MacroCodec

/-!
# Profiles

`profile/__init__.py` and `profile/save.py`: the mixer state saved as an element tree, its text,
and the tree read from a text. What the switcher names, its product, its inputs, its stills and
its macros, goes into the tree as free text. Everything else that a builder writes is a number, a
switch or a name of a fixed table; such elements are given as they are, as `PlainElement`s.
-/

set_option autoImplicit false

namespace Bmdwire.Profile

open Library (Element IsPlain xmlDeclaration closeTight strip decodeUtf8 beforeNul)
open Macros (Op decodeMacroBytecode str)

abbrev Text := List Char

/-! ## Names -/

/-- A field of text as its class keeps it. -/
def fieldText (octets : Bytes) : Text := decodeUtf8 (beforeNul octets)

/-- `decode_name` of octets; of a text it is `strip`. -/
def decodeName (raw : Bytes) : Text := strip (decodeUtf8 (beforeNul raw))

/-! ## The mixer state -/

/-- `InPr`; the two names are the octets of the fields. -/
structure InputProperties where
  name : Bytes
  shortName : Bytes
  sourcePorts : ℕ
  portType : ℕ

/-- `MPfe`. -/
structure FileInfo where
  isUsed : Bool
  name : Bytes

/-- `MPrp`. -/
structure MacroProperties where
  isUsed : Bool
  name : Bytes
  description : Bytes

/-- The part of the mixer state that holds what the switcher names. -/
structure State where
  productName : Option Bytes
  inputProperties : List (ℕ × InputProperties)
  mediaplayerFileInfo : List (ℕ × FileInfo)
  macroProperties : List (ℕ × MacroProperties)

/-- `sorted(d.keys())`, with what is behind each key. -/
def sortedItems {α : Type} (d : List (ℕ × α)) : List (ℕ × α) := d.mergeSort fun a b => a.1 ≤ b.1

/-! ## Elements -/

/-- An element whose attributes are numbers, switches and names of fixed tables, and so are those
of its children. -/
structure PlainElement where
  element : Element
  wellNamed : element.WellNamed
  plain : ∀ n ∈ element.nodes, ∀ p ∈ n.2, IsPlain p.2

def element (tag : String) (attrs : List (String × Text)) (children : List Element) : Element :=
  .node tag.toList (attrs.map fun p => (p.1.toList, p.2)) children

/-- `_fmt` of a number. -/
def number (n : ℕ) : Text := (str n).toList

/-! ## Settings -/

/-- `EXT_PORT_TYPE_NAMES`. -/
def extPortTypeNames : List (ℕ × String) :=
  [(1, "SDI"), (2, "HDMI"), (4, "Component"), (8, "Composite"), (16, "SVideo")]

/-- `_ext_port_type_name`: the first bit of the table that is set. -/
def extPortTypeName (bitfield : ℕ) : Text :=
  match extPortTypeNames.find? fun p => bitfield &&& p.1 ≠ 0 with
  | some p => p.2.toList
  | none => "SDI".toList

def inputElement (idx : ℕ) (ip : InputProperties) : Element :=
  element "Input"
    [("id", number idx), ("shortName", fieldText ip.shortName), ("longName", fieldText ip.name),
     ("externalPortType", extPortTypeName (if ip.sourcePorts = 0 then 1 else ip.sourcePorts))] []

/-- The external sources among the inputs. -/
def buildInputs (inputs : List (ℕ × InputProperties)) : Element :=
  element "Inputs" []
    (((sortedItems inputs).filter fun p => p.2.portType = 0).map fun p => inputElement p.1 p.2)

/-- What `_build_settings` writes of its own beside the inputs. -/
structure SettingsShape where
  levelA : Bool
  ftbEnabled : Bool
  beforeInputs : List PlainElement
  afterInputs : List PlainElement

def switch (b : Bool) : Text := if b then "True".toList else "False".toList

def buildSettings (shape : SettingsShape) (inputs : List (ℕ × InputProperties)) : Element :=
  element "Settings"
    [("abDirect", switch false), ("cameraAux", "-1".toList),
     ("SDI3GOutputLevel", if shape.levelA then "LevelA".toList else "LevelB".toList),
     ("ftbEnabled", switch shape.ftbEnabled)]
    (shape.beforeInputs.map PlainElement.element ++ buildInputs inputs ::
      shape.afterInputs.map PlainElement.element)

/-! ## Stills and macros -/

def stillElement (idx : ℕ) (name : Text) : Element :=
  element "Still"
    [("index", number idx), ("name", name),
     ("path", if name = [] then [] else "ATEM Media Pool/".toList ++ name ++ ".png".toList)] []

def buildMediaPoolStills (files : List (ℕ × FileInfo)) : Element :=
  element "MediaPool" [] [element "Stills" []
    (((sortedItems files).filter fun p => p.2.isUsed).map fun p =>
      stillElement p.1 (decodeName p.2.name))]

def opElement (op : Op) : Element :=
  element "Op" (("id", op.id.toList) :: op.attrs.map fun p => (p.1, p.2.toList)) []

/-- A macro; a slot whose download failed, or that was empty, has no ops. -/
def macroElement (idx : ℕ) (m : MacroProperties) (raw : Option Bytes) : Element :=
  element "Macro"
    [("index", number idx), ("name", decodeName m.name), ("description", decodeName m.description)]
    ((decodeMacroBytecode (raw.getD [])).map opElement)

def buildMacroPool (macros : List (ℕ × MacroProperties)) (download : ℕ → Option Bytes) :
    Element :=
  element "MacroPool" []
    (((sortedItems macros).filter fun p => p.2.isUsed).map fun p =>
      macroElement p.1 p.2 (download p.1))

/-! ## The whole profile -/

/-- The sections to save that hold names, and what stands around them. -/
structure Shape where
  settings : Option SettingsShape
  mediaPoolMetadata : Bool
  macros : Bool
  beforeSettings : List PlainElement
  afterSettings : List PlainElement
  afterMediaPool : List PlainElement
  afterMacros : List PlainElement

/-- `Profile.from_atem`; `download` is what the switcher gives of a macro's slot. -/
def fromAtem (shape : Shape) (download : ℕ → Option Bytes) (s : State) : Element :=
  let product := (s.productName.map fun octets => strip (fieldText octets)).getD []
  element "Profile"
    ([("majorVersion", number 2), ("minorVersion", number 1)] ++
      if product = [] then [] else [("product", product)])
    (shape.beforeSettings.map PlainElement.element ++
      (shape.settings.map fun settings => buildSettings settings s.inputProperties).toList ++
      shape.afterSettings.map PlainElement.element ++
      (if shape.mediaPoolMetadata then [buildMediaPoolStills s.mediaplayerFileInfo] else []) ++
      shape.afterMediaPool.map PlainElement.element ++
      (if shape.macros then [buildMacroPool s.macroProperties download] else []) ++
      shape.afterMacros.map PlainElement.element)

/-! ## Text -/

/-- `Profile.to_xml`: `ET.tostring` leaves a blank before the end of an empty tag, which the
regular expression takes out. -/
def toXml (root : Element) : Text := xmlDeclaration ++ closeTight (root.write [' ']) ++ ['\n']

/-- A letter as a pattern without case compares it; two of them are an `i` with or without its
dot. -/
def foldCase (c : Char) : Char :=
  if c.toNat = 0x130 ∨ c.toNat = 0x131 then 'i' else c.toLower

/-- The word is at the front, and ends there. -/
def beginsWith (word cs : Text) : Bool :=
  (cs.take word.length).map foldCase = word ∧
    (cs.drop word.length).head?.all fun c => ¬ (c.isAlphanum ∨ c = '_')

/-- `_DTD_DECL_RE.search`. -/
def declaresDtd : Text → Bool
  | [] => false
  | c :: cs =>
    (c = '<' ∧ cs.head? = some '!' ∧
      (beginsWith "doctype".toList cs.tail ∨ beginsWith "entity".toList cs.tail)) ||
      declaresDtd cs

/-- Why a text is refused. -/
inductive LoadError
  | wideEncoding
  | dtd
  | notWellFormed
deriving DecidableEq

/-- `Profile.from_xml`, with `ET.fromstring`. -/
def fromXml (fromstring : Text → Option Element) (xml : Text) : Except LoadError Element :=
  if '\x00' ∈ xml then .error .wideEncoding
  else if declaresDtd xml then .error .dtd
  else
    match fromstring xml with
    | some root => .ok root
    | none => .error .notWellFormed

end Bmdwire.Profile
