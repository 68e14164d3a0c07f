import Bmdwire.Analysis.LayoutPacking
import Bmdwire.Library.FixedDecimal
import Bmdwire.Library.Splice
import Bmdwire.Program.MacroRestore
import Bmdwire.Program.Rates

/-!
# The state that profiles are saved from

The messages that the sections of a profile are saved from, the readers of `messages/` and
`state.py` behind `profile/save.py`, and the texts of `profile/_xml.py`.

A reader is told by the message and the attribute it looks at, by what it makes of it, and by what
it gives without a message.
-/

set_option autoImplicit false

namespace Bmdwire.Profile

open Library (FloatVal parseReal truncate strip roundPlaces trimmed formatF slice)
open Rates (intText)

/-! ## Numbers and their texts -/

/-- What readers give, and setters take. -/
inductive Scalar
  | int (n : ℤ)
  | real (x : FloatVal)
  | bool (b : Bool)
deriving DecidableEq, Repr

/-- `_fmt` -/
def fmt : Scalar → Text
  | .bool b => switch b
  | .int n => intText n
  | .real .nan => "nan".toList
  | .real (.infinite negative) => if negative then "-inf".toList else "inf".toList
  | .real (.finite q) => if q = 0 then "0".toList else trimmed (formatF 6 q)

/-- `_bool` -/
def boolOf (default : Bool) (s : Option Text) : Bool :=
  match s with
  | none => default
  | some s => String.ofList ((strip s).map Char.toLower) ∈ ["true", "1", "yes", "on"]

/-- `_float` -/
def realOf (default : ℚ) (s : Option Text) : FloatVal :=
  match s with
  | none | some [] => .finite default
  | some s =>
    match parseReal s with
    | none => .finite default
    | some (.finite q) => FloatVal.ofRat q
    | some x => x

/-- `float(v)` -/
def Scalar.float : Scalar → FloatVal
  | .int n => FloatVal.ofRat n
  | .real x => x
  | .bool b => FloatVal.ofRat (b.toInt : ℤ)

/-- `bool(v)` -/
def Scalar.truthy : Scalar → Bool
  | .int n => n ≠ 0
  | .real x => x ≠ .finite 0
  | .bool b => b

/-- The name and the text of an exception. -/
abbrev Raised := Text

/-- An integer made of a floating-point number. -/
def wholeOf (whole : ℚ → ℤ) : FloatVal → Except Raised ℤ
  | .finite q => .ok (whole q)
  | .infinite _ => .error "OverflowError: cannot convert float infinity to integer".toList
  | .nan => .error "ValueError: cannot convert float NaN to integer".toList

/-- `int(v)` -/
def Scalar.whole : Scalar → Except Raised ℤ
  | .int n => .ok n
  | .real x => wholeOf truncate x
  | .bool b => .ok b.toInt

/-! ## Messages -/

/-- An incoming message of declared fields; one that is too short for them is not made. -/
structure Recv (fields : List Field) where
  raw : Bytes
  enough : ∀ f ∈ fields, f.offset + f.type.size ≤ raw.length

/-- An attribute that is a number or a switch. -/
def scalarOf : Value → Option Scalar
  | .int n => some (.int n)
  | .float x => some (.real x)
  | .bool b => some (.bool b)
  | .text _ => none
  | .octets _ => none

/-- `getattr(message, name, None)` -/
def Recv.get {fields : List Field} (m : Recv fields) (name : String) : Option Scalar :=
  (fields.find? fun f => f.name = name).bind fun f =>
    scalarOf (f.type.unpack (slice f.offset f.type.size m.raw))

section
open Commands

/-- `ColorGeneratorField` -/
def colorGeneratorField : List Field :=
  [⟨"index", 0, none, u8⟩, ⟨"hue", 2, none, .u16 (.int 10)⟩,
   ⟨"saturation", 4, none, .u16 (.int 1000)⟩, ⟨"luma", 6, none, .u16 (.int 1000)⟩]

/-- `AuxOutputSourceField` -/
def auxOutputSourceField : List Field := [⟨"index", 0, none, u8⟩, ⟨"source", 2, none, u16⟩]

/-- `DkeyPropertiesBaseField` -/
def dkeyPropertiesBaseField : List Field :=
  [⟨"index", 0, none, u8⟩, ⟨"fill_source", 2, none, u16⟩, ⟨"key_source", 4, none, u16⟩]

/-- `DkeyPropertiesField` -/
def dkeyPropertiesField : List Field :=
  [⟨"index", 0, none, u8⟩, ⟨"tie", 1, none, boolean⟩, ⟨"rate", 2, none, u8⟩,
   ⟨"premultiplied", 3, none, boolean⟩, ⟨"clip", 4, none, u16⟩, ⟨"gain", 6, none, u16⟩,
   ⟨"invert_key", 8, none, boolean⟩, ⟨"masked", 9, none, boolean⟩, ⟨"top", 10, none, i16⟩,
   ⟨"bottom", 12, none, i16⟩, ⟨"left", 14, none, i16⟩, ⟨"right", 16, none, i16⟩]

/-- `DkeyStateField` -/
def dkeyStateField : List Field :=
  [⟨"index", 0, none, u8⟩, ⟨"on_air", 1, none, boolean⟩, ⟨"is_transitioning", 2, none, boolean⟩,
   ⟨"is_autotransitioning", 3, none, boolean⟩, ⟨"frames_remaining", 4, none, u8⟩]

/-- `MediaplayerSelectedField` -/
def mediaplayerSelectedField : List Field :=
  [⟨"index", 0, none, u8⟩, ⟨"source_type", 1, none, u8⟩, ⟨"slot", 2, none, u8⟩]

/-- `ProgramBusInputField` -/
def programBusInputField : List Field := [⟨"index", 0, none, u8⟩, ⟨"source", 2, none, u16⟩]

/-- `PreviewBusInputField` -/
def previewBusInputField : List Field :=
  [⟨"index", 0, none, u8⟩, ⟨"source", 2, none, u16⟩, ⟨"in_program", 4, none, boolean⟩]

/-- `TransitionSettingsField`; its switches are the bits of `next_transition`, and of the one that
is pending. -/
def transitionSettingsField : List Field :=
  [⟨"index", 0, none, u8⟩, ⟨"style", 1, none, u8⟩, ⟨"next_transition", 2, none, u8⟩,
   ⟨"style_next", 3, none, u8⟩, ⟨"next_transition_next", 4, none, u8⟩]

/-- `TransitionPositionField` -/
def transitionPositionField : List Field :=
  [⟨"index", 0, none, u8⟩, ⟨"in_transition", 1, none, boolean⟩,
   ⟨"frames_remaining", 2, none, u8⟩, ⟨"position", 4, none, u16⟩]

/-- `TransitionMixField` -/
def transitionMixField : List Field := [⟨"index", 0, none, u8⟩, ⟨"rate", 1, none, u8⟩]

/-- `TransitionDipField` -/
def transitionDipField : List Field :=
  [⟨"index", 0, none, u8⟩, ⟨"rate", 1, none, u8⟩, ⟨"source", 2, none, u16⟩]

/-- `TransitionWipeField` -/
def transitionWipeField : List Field :=
  [⟨"index", 0, none, u8⟩, ⟨"rate", 1, none, u8⟩, ⟨"pattern", 2, none, u8⟩,
   ⟨"width", 4, none, u16⟩, ⟨"source", 6, none, u16⟩, ⟨"symmetry", 8, none, u16⟩,
   ⟨"softness", 10, none, u16⟩, ⟨"positionx", 12, none, u16⟩, ⟨"positiony", 14, none, u16⟩,
   ⟨"reverse", 16, none, boolean⟩, ⟨"flipflop", 17, none, boolean⟩]

/-- `TransitionDveField` -/
def transitionDveField : List Field :=
  [⟨"index", 0, none, u8⟩, ⟨"logo_rate", 1, none, u8⟩, ⟨"rate", 2, none, u8⟩,
   ⟨"style", 3, none, u8⟩, ⟨"fill_source", 4, none, u16⟩, ⟨"key_source", 6, none, u16⟩,
   ⟨"key_enable", 8, none, boolean⟩, ⟨"key_premultiplied", 9, none, boolean⟩,
   ⟨"key_clip", 10, none, u16⟩, ⟨"key_gain", 12, none, u16⟩, ⟨"key_invert", 14, none, boolean⟩,
   ⟨"reverse", 15, none, boolean⟩, ⟨"flipflop", 16, none, boolean⟩]

/-- `TransitionStingerField` -/
def transitionStingerField : List Field :=
  [⟨"index", 0, none, u8⟩, ⟨"mediaplayer", 1, none, u8⟩,
   ⟨"key_premultiplied", 2, none, boolean⟩, ⟨"key_clip", 4, none, u16⟩,
   ⟨"key_gain", 6, none, u16⟩, ⟨"key_invert", 8, none, boolean⟩, ⟨"preroll", 10, none, u16⟩,
   ⟨"duration", 12, none, u16⟩, ⟨"triggerpoint", 14, none, u16⟩, ⟨"rate", 16, none, u16⟩]

/-- `FadeToBlackField` -/
def fadeToBlackField : List Field := [⟨"index", 0, none, u8⟩, ⟨"rate", 1, none, u8⟩]

/-- `FadeToBlackStateField` -/
def fadeToBlackStateField : List Field :=
  [⟨"index", 0, none, u8⟩, ⟨"done", 1, none, boolean⟩, ⟨"transitioning", 2, none, boolean⟩,
   ⟨"frames_remaining", 3, none, u8⟩]

end

/-- The part of the mixer state that these sections are saved from; the keys of its dicts are
octets. -/
structure Mixer where
  /-- `me_units` of the topology -/
  topologyMes : Option UInt8
  /-- The keys of `mixer-effect-config` -/
  mixerEffectConfig : List UInt8
  /-- `downstream_keyers` of the topology -/
  topologyDsks : Option UInt8
  dkeyState : List (UInt8 × Recv dkeyStateField)
  dkeyProperties : List (UInt8 × Recv dkeyPropertiesField)
  dkeyPropertiesBase : List (UInt8 × Recv dkeyPropertiesBaseField)
  colorGenerator : List (UInt8 × Recv colorGeneratorField)
  auxOutputSource : List (UInt8 × Recv auxOutputSourceField)
  mediaplayerSelected : List (UInt8 × Recv mediaplayerSelectedField)
  programBusInput : List (UInt8 × Recv programBusInputField)
  previewBusInput : List (UInt8 × Recv previewBusInputField)
  transitionSettings : List (UInt8 × Recv transitionSettingsField)
  transitionPosition : List (UInt8 × Recv transitionPositionField)
  transitionMix : List (UInt8 × Recv transitionMixField)
  transitionDip : List (UInt8 × Recv transitionDipField)
  transitionWipe : List (UInt8 × Recv transitionWipeField)
  transitionDve : List (UInt8 × Recv transitionDveField)
  transitionStinger : List (UInt8 × Recv transitionStingerField)
  fadeToBlack : List (UInt8 × Recv fadeToBlackField)
  fadeToBlackState : List (UInt8 × Recv fadeToBlackStateField)

/-- A switcher that has reported nothing yet. -/
def Mixer.silent : Mixer :=
  ⟨none, [], none, [], [], [], [], [], [], [], [], [], [], [], [], [], [], [], [], []⟩

/-- `sorted(d.keys())` -/
def sortedKeys {α : Type} (d : List (UInt8 × α)) : List UInt8 :=
  (d.map Prod.fst).mergeSort fun a b => a ≤ b

/-! ## Readers -/

/-- What a reader makes of an attribute. -/
inductive Showing
  /-- `safe_int` -/
  | int
  /-- `safe_bool` -/
  | bool
  /-- `safe_float` with places -/
  | float (places : ℕ)
  /-- `percent_from_thousandths`, `unit_from_thousandths`, `value_from_tenths` and the like: divided
  by a power of ten and rounded -/
  | over (power places : ℕ)
  /-- `percent_from_unit` -/
  | percentFromUnit
deriving DecidableEq

/-- A floating-point number rounded to places. -/
def roundTo (places : ℕ) : FloatVal → FloatVal
  | .finite q => .finite (roundPlaces places q)
  | x => x

/-- A floating-point number over a power of ten. -/
def overPower (power : ℕ) : FloatVal → FloatVal
  | .finite q => FloatVal.ofRat (q / 10 ^ power)
  | x => x

def Showing.of (s : Showing) (default v : Scalar) : Scalar :=
  match s with
  | .int =>
    match v.whole with
    | .ok n => .int n
    | .error _ => default
  | .bool => .bool v.truthy
  | .float places => .real (roundTo places v.float)
  | .over power places => .real (roundTo places (overPower power v.float))
  | .percentFromUnit => .real (roundTo 2 (timesFloat v.float 100))

/-- How what is read is written. -/
inductive Form
  /-- `_fmt` -/
  | plain
  /-- By a table of names, with a name for what has none -/
  | named (names : List (ℤ × Text)) (other : Text)
  /-- By a list of names, from its start again beyond its end -/
  | cyclic (names : List Text)
  /-- A media player by its name, when it is one of four -/
  | player
deriving DecidableEq

def Form.of (f : Form) (v : Scalar) : Text :=
  match f, v with
  | .named names other, .int n => (names.lookup n).getD other
  | .cyclic names, .int n => names.getD (n % names.length).toNat []
  | .player, .int n => if 1 ≤ n ∧ n ≤ 4 then "MediaPlayer".toList ++ intText n else intText n
  | _, v => fmt v

/-- A reader: the messages it looks at, the attribute, what it makes of it, what it gives when
there is no message, and how that is written. -/
structure Reader where
  fields : List Field
  entry : Mixer → UInt8 → Option (Recv fields)
  name : String
  showing : Showing
  default : Scalar
  form : Form := .plain

def Reader.read (r : Reader) (mx : Mixer) (index : UInt8) : Scalar :=
  match (r.entry mx index).bind fun m => m.get r.name with
  | some v => r.showing.of r.default v
  | none => r.default

/-- What is written of what is read. -/
def Reader.text (r : Reader) (mx : Mixer) (index : UInt8) : Text := r.form.of (r.read mx index)

end Bmdwire.Profile
