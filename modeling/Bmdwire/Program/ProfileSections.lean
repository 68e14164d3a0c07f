import Bmdwire.Program.ProfileState

/-!
# Sections of a profile

The sections of color generators, auxiliaries, downstream keys and media players: how
`profile/save.py` builds them, and the setters that `profile/apply.py` calls with what it reads of
them. The connection takes every command.

A setter is told by the class of its command and by what it makes of its arguments.
-/

set_option autoImplicit false

namespace Bmdwire.Profile

open Library (Element FloatVal parseInt roundHalfEven)
open Macros (ErrorType)
open Rates (RateSetter intText)

/-! ## Readers -/

namespace Readers

/-- A reader of the state of a color generator. -/
def colorGenerator (name : String) (showing : Showing) : Reader where
  fields := colorGeneratorField
  entry mx index := mx.colorGenerator.lookup index
  name := name
  showing := showing
  default := .real (.finite 0)

/-- `aux_source` -/
def auxSource : Reader where
  fields := auxOutputSourceField
  entry mx index := mx.auxOutputSource.lookup index
  name := "source"
  showing := .int
  default := .int 0

/-- `dsk_state`, of the sources. -/
def dskBase (name : String) : Reader where
  fields := dkeyPropertiesBaseField
  entry mx index := mx.dkeyPropertiesBase.lookup index
  name := name
  showing := .int
  default := .int 0

/-- `dsk_state`, of the properties. -/
def dskProperties (name : String) (showing : Showing) (default : Scalar) : Reader where
  fields := dkeyPropertiesField
  entry mx index := mx.dkeyProperties.lookup index
  name := name
  showing := showing
  default := default

/-- `dsk_state`, of what is on air. -/
def dskOnAir : Reader where
  fields := dkeyStateField
  entry mx index := mx.dkeyState.lookup index
  name := "on_air"
  showing := .bool
  default := .bool false

/-- `mediaplayer_selected` -/
def mediaplayerSelected (name : String) : Reader where
  fields := mediaplayerSelectedField
  entry mx index := mx.mediaplayerSelected.lookup index
  name := name
  showing := .int
  default := .int 0

end Readers

/-- `_dsk_count` -/
def dskCount (mx : Mixer) : ℕ :=
  let top := (mx.topologyDsks.map UInt8.toNat).getD 0
  let count := if top = 0 then
      match (mx.dkeyState.map fun p => p.1.toNat).max? with
      | some last => last + 1
      | none => 0
    else top
  if count = 0 then 1 else count

/-! ## Saving -/

/-- An attribute for each reader. -/
def savedAttributes (saved : List (String × Reader)) (mx : Mixer) (index : UInt8) :
    List (String × Text) :=
  saved.map fun p => (p.1, p.2.text mx index)

/-- An element with its number and its attributes. -/
def savedElement (tag : String) (index : UInt8) (mx : Mixer) (saved : List (String × Reader)) :
    Element :=
  element tag (("index", fmt (.int index.toNat)) :: savedAttributes saved mx index) []

def colorGeneratorAttributes : List (String × Reader) :=
  [("hue", Readers.colorGenerator "hue" (.float 1)),
   ("saturation", Readers.colorGenerator "saturation" .percentFromUnit),
   ("luma", Readers.colorGenerator "luma" .percentFromUnit)]

/-- `_build_color_generators` -/
def buildColorGenerators (mx : Mixer) : Element :=
  element "ColorGenerators" []
    ([0, 1].map fun index => savedElement "ColorGenerator" index mx colorGeneratorAttributes)

/-- `_build_auxiliaries` -/
def buildAuxiliaries (mx : Mixer) : Element :=
  element "Auxiliaries" []
    ((sortedKeys mx.auxOutputSource).map fun index =>
      element "Auxiliary"
        [("id", fmt (.int (8001 + index.toNat))), ("input", Readers.auxSource.text mx index)]
        [])

def dskAttributes : List (String × Reader) :=
  [("fillSource", Readers.dskBase "fill_source"),
   ("keySource", Readers.dskBase "key_source"),
   ("rate", Readers.dskProperties "rate" .int (.int 25)),
   ("maskEnabled", Readers.dskProperties "masked" .bool (.bool false)),
   ("maskTop", Readers.dskProperties "top" (.over 3 3) (.real (.finite 0))),
   ("maskBottom", Readers.dskProperties "bottom" (.over 3 3) (.real (.finite 0))),
   ("maskLeft", Readers.dskProperties "left" (.over 3 3) (.real (.finite 0))),
   ("maskRight", Readers.dskProperties "right" (.over 3 3) (.real (.finite 0))),
   ("preMultipliedKey", Readers.dskProperties "premultiplied" .bool (.bool false)),
   ("clip", Readers.dskProperties "clip" (.over 1 1) (.real (.finite 0))),
   ("gain", Readers.dskProperties "gain" (.over 1 1) (.real (.finite 0))),
   ("invert", Readers.dskProperties "invert_key" .bool (.bool false)),
   ("onAir", Readers.dskOnAir),
   ("tie", Readers.dskProperties "tie" .bool (.bool false))]

/-- `_build_downstream_keys` -/
def buildDownstreamKeys (mx : Mixer) : Element :=
  element "DownstreamKeys" []
    ((List.range (dskCount mx)).map fun index =>
      savedElement "DownstreamKey" (UInt8.ofNat index) mx dskAttributes)

/-- A media player, by the type of its source. -/
def mediaPlayerElement (mx : Mixer) (index : UInt8) : Element :=
  let still := (Readers.mediaplayerSelected "source_type").read mx index = .int 1
  element "MediaPlayer"
    [("index", fmt (.int index.toNat)),
     ("sourceType", if still then "Still".toList else "Clip".toList),
     ("sourceIndex", (Readers.mediaplayerSelected "slot").text mx index)] []

/-- `_build_media_players` -/
def buildMediaPlayers (mx : Mixer) : Element :=
  element "MediaPlayers" []
    (if mx.mediaplayerSelected = [] then
      [0, 1].map fun index =>
        element "MediaPlayer"
          [("index", fmt (.int index)), ("sourceType", "Still".toList),
           ("sourceIndex", fmt (.int 0))] []
    else (sortedKeys mx.mediaplayerSelected).map (mediaPlayerElement mx))

/-! ## Setters -/

/-- What a setter makes of an argument. -/
inductive Writing
  /-- `int(v)` -/
  | int
  /-- `bool(v)` -/
  | bool
  /-- `float(v)` -/
  | float
  /-- `percent_to_thousandths`, `percent_to_tenths` and the like: multiplied by a power of ten,
  rounded, and kept up to a bound, if there is one -/
  | scaled (power : ℕ) (top : Option ℤ)
  /-- `_percent_to_unit` -/
  | percentToUnit
deriving DecidableEq

/-- `max(0.0, min(1.0, x))` -/
def unitClamp : FloatVal → FloatVal
  | .finite q => .finite (if q < 1 then if 0 < q then q else 0 else 1)
  | .infinite negative => .finite (if negative then 0 else 1)
  | .nan => .finite 1

def Writing.of (w : Writing) (v : Scalar) : Except Raised Value :=
  match w with
  | .int => v.whole.map .int
  | .bool => .ok (.bool v.truthy)
  | .float => .ok (.float v.float)
  | .scaled power top =>
    (wholeOf roundHalfEven (timesFloat v.float (10 ^ power))).map fun n =>
      match top with
      | some top => .int (max 0 (min top n))
      | none => .int n
  | .percentToUnit => .ok (.float (unitClamp (overPower 2 v.float)))

/-- A setter: the class of its command, the attributes that it sets of its arguments, and those
that are fixed. -/
structure Setter where
  layout : Layout
  args : List (String × Writing)
  fixed : List (String × Value)

/-- The attributes of the command. -/
def Setter.attributes (setter : Setter) (index : ℤ) (values : List Value) : Attributes :=
  fun name =>
    (("index", Value.int index) :: ((setter.args.map Prod.fst).zip values ++ setter.fixed)).lookup
      name

/-- The command for the values of the arguments. -/
def Setter.set (setter : Setter) (index : ℤ) (values : List Scalar) : Except Raised Outgoing :=
  (((setter.args.map Prod.snd).zip values).mapM fun (p : Writing × Scalar) => p.1.of p.2).map
    fun values => .declared (setter.layout.send (setter.attributes index values))

section
open Commands

/-- `set_color_generator_hue` -/
def setColorGeneratorHue : Setter := ⟨colorGeneratorCommand, [("hue", .float)], []⟩

/-- `set_color_generator_saturation` -/
def setColorGeneratorSaturation : Setter :=
  ⟨colorGeneratorCommand, [("saturation", .percentToUnit)], []⟩

/-- `set_color_generator_luma` -/
def setColorGeneratorLuma : Setter := ⟨colorGeneratorCommand, [("luma", .percentToUnit)], []⟩

/-- `set_aux_output` -/
def setAuxOutput : Setter := ⟨auxSourceCommand, [("source", .int)], [("mask", .int 1)]⟩

/-- `set_dsk_fill_source` -/
def setDskFillSource : Setter := ⟨dkeySetFillCommand, [("source", .int)], []⟩

/-- `set_dsk_key_source` -/
def setDskKeySource : Setter := ⟨dkeySetKeyCommand, [("source", .int)], []⟩

/-- `set_dsk_mask_enabled` -/
def setDskMaskEnabled : Setter := ⟨dkeyMaskCommand, [("enabled", .bool)], []⟩

/-- `set_dsk_mask_top` -/
def setDskMaskTop : Setter := ⟨dkeyMaskCommand, [("top", .scaled 3 none)], []⟩

/-- `set_dsk_mask_bottom` -/
def setDskMaskBottom : Setter := ⟨dkeyMaskCommand, [("bottom", .scaled 3 none)], []⟩

/-- `set_dsk_mask_left` -/
def setDskMaskLeft : Setter := ⟨dkeyMaskCommand, [("left", .scaled 3 none)], []⟩

/-- `set_dsk_mask_right` -/
def setDskMaskRight : Setter := ⟨dkeyMaskCommand, [("right", .scaled 3 none)], []⟩

/-- `configure_dsk_gain`, with every argument given. -/
def configureDskGain : Setter :=
  ⟨dkeyGainCommand,
    [("premultiplied", .bool), ("clip", .scaled 1 (some 1000)), ("gain", .scaled 1 (some 1000)),
     ("invert", .bool)], []⟩

/-- `set_dsk_on_air` -/
def setDskOnAir : Setter := ⟨dkeyOnairCommand, [("on_air", .bool)], []⟩

/-- `set_dsk_tie` -/
def setDskTie : Setter := ⟨dkeyTieCommand, [("tie", .bool)], []⟩

/-- `set_media_player_still` -/
def setMediaPlayerStill : Setter :=
  ⟨mediaplayerSelectCommand, [("still", .int)],
    [("mask", .int 3), ("source_type", .int 1), ("clip", .int 0)]⟩

/-- `set_media_player_clip` -/
def setMediaPlayerClip : Setter :=
  ⟨mediaplayerSelectCommand, [("clip", .int)],
    [("mask", .int 5), ("source_type", .int 2), ("still", .int 0)]⟩

end

/-! ## Applying -/

/-- How an attribute is read. -/
inductive Reading
  /-- `_int` -/
  | int (default : ℤ)
  /-- `_bool` -/
  | bool
  /-- `_float` -/
  | float (default : ℚ)
  /-- By a table, with a name for a missing one and a number for what the table has not -/
  | named (numbers : List (Text × ℤ)) (missing : Text) (default : ℤ)
  /-- The number of a media player; one that cannot be read is not asked for -/
  | player
deriving DecidableEq

/-- The media player of a name or a number. -/
def playerOf (text : Option Text) : Option ℤ :=
  let text := text.getD []
  if "MediaPlayer".toList.isPrefixOf text then parseInt 10 (text.drop 11) else parseInt 10 text

def Reading.of (r : Reading) (text : Option Text) : Except ErrorType Scalar :=
  match r with
  | .int default => (intOf default text).map .int
  | .bool => .ok (.bool (boolOf false text))
  | .float default => .ok (.real (realOf default text))
  | .named numbers missing default =>
    .ok (.int ((numbers.lookup (text.getD missing)).getD default))
  | .player => .ok (.int ((playerOf text).getD 0))

/-- What has been sent, and what is reported. -/
structure Applying where
  sent : List Outgoing
  result : ApplyResult

namespace Applying

def send (a : Applying) (command : Outgoing) : Applying := { a with sent := a.sent ++ [command] }

/-- `note_applied` -/
def noteApplied (a : Applying) (label : Text) : Applying :=
  { a with result := { a.result with applied := a.result.applied ++ [label] } }

/-- `note_skipped` -/
def noteSkipped (a : Applying) (label reason : Text) : Applying :=
  { a with result :=
    { a.result with skipped := a.result.skipped ++ [label ++ ": ".toList ++ reason] } }

/-- `_safe` -/
def safe (a : Applying) (label : Text) (command : Except Raised Outgoing) : Applying :=
  match command with
  | .ok command => a.send command
  | .error raised =>
    { a with result :=
      { a.result with errors := a.result.errors ++ [label ++ ": ".toList ++ raised] } }

end Applying

/-- An exception that is not caught comes with what was sent. -/
abbrev Stopped := ErrorType × List Outgoing

/-- A call of a setter: the end of its name in the report, and the attributes its arguments are
read from. A rate is read as a number and handed on as a text. -/
inductive Call
  | rate (key : String) (default : ℤ) (setter : RateSetter)
  | set (label : String) (setter : Setter) (args : List (String × Reading))

/-- The call for an element; `rate` is that of the video mode. -/
def Call.run (rate : Option ℚ) (label : Text) (index : ℤ) (e : Element) (a : Applying) :
    Call → Except Stopped Applying
  | .rate key default setter =>
    match intOf default (attrib key e) with
    | .error raised => .error (raised, a.sent)
    | .ok frames => .ok (a.send (setter.set rate (some (intText frames)) index 0))
  | .set last setter args =>
    match args.mapM fun (p : String × Reading) => p.2.of (attrib p.1 e) with
    | .error raised => .error (raised, a.sent)
    | .ok values => .ok (a.safe (label ++ last.toList) (setter.set index values))

/-- One turn of the loop over the elements of a section; `address` is `none` for one that is passed
over. -/
def applyElement (rate : Option ℚ) (address : Element → Except ErrorType (Option ℤ))
    (label : ℤ → Text) (calls : Element → List Call) (a : Applying) (e : Element) :
    Except Stopped Applying :=
  match address e with
  | .error raised => .error (raised, a.sent)
  | .ok none => .ok a
  | .ok (some index) => (calls e).foldlM (fun a call => call.run rate (label index) index e a) a

/-- A section: the loop over its elements, and the note that it was applied. -/
def applyEach (rate : Option ℚ) (parent child : String)
    (address : Element → Except ErrorType (Option ℤ)) (label : ℤ → Text)
    (calls : Element → List Call) (done : Text) (root : Element) (a : Applying) :
    Except Stopped Applying :=
  match find parent root with
  | none => .ok a
  | some parent => do
    let a ← (findall child parent).foldlM (applyElement rate address label calls) a
    return a.noteApplied done

/-- `_int(e.get('index'))` -/
def indexOf (e : Element) : Except ErrorType (Option ℤ) :=
  (intOf 0 (attrib "index" e)).map some

/-- A name with a number in brackets. -/
def numbered (name : String) (index : ℤ) : Text :=
  name.toList ++ '[' :: (intText index ++ [']'])

def colorGeneratorCalls : List Call :=
  [.set ".hue" setColorGeneratorHue [("hue", .float 0)],
   .set ".saturation" setColorGeneratorSaturation [("saturation", .float 0)],
   .set ".luma" setColorGeneratorLuma [("luma", .float 0)]]

/-- `_apply_color_generators` -/
def applyColorGenerators (rate : Option ℚ) : Element → Applying → Except Stopped Applying :=
  applyEach rate "ColorGenerators" "ColorGenerator" indexOf (numbered "color_gen")
    (fun _ => colorGeneratorCalls) "color_generators".toList

/-- The number of an auxiliary: its `id` counts from 8001. -/
def auxOf (e : Element) : Except ErrorType (Option ℤ) :=
  (intOf 0 (attrib "id" e)).map fun id => if id - 8001 < 0 then none else some (id - 8001)

def auxCalls : List Call := [.set "" setAuxOutput [("input", .int 0)]]

/-- `_apply_auxiliaries` -/
def applyAuxiliaries (rate : Option ℚ) : Element → Applying → Except Stopped Applying :=
  applyEach rate "Auxiliaries" "Auxiliary" auxOf (numbered "aux") (fun _ => auxCalls)
    "aux_outputs".toList

def dskCalls : List Call :=
  [.set ".fill" setDskFillSource [("fillSource", .int 0)],
   .set ".key" setDskKeySource [("keySource", .int 0)],
   .rate "rate" 25 Rates.setDskRate,
   .set ".mask_enabled" setDskMaskEnabled [("maskEnabled", .bool)],
   .set ".maskTop" setDskMaskTop [("maskTop", .float 0)],
   .set ".maskBottom" setDskMaskBottom [("maskBottom", .float 0)],
   .set ".maskLeft" setDskMaskLeft [("maskLeft", .float 0)],
   .set ".maskRight" setDskMaskRight [("maskRight", .float 0)],
   .set ".gain_block" configureDskGain
     [("preMultipliedKey", .bool), ("clip", .float 0), ("gain", .float 0), ("invert", .bool)],
   .set ".on_air" setDskOnAir [("onAir", .bool)],
   .set ".tie" setDskTie [("tie", .bool)]]

/-- `_apply_downstream_keys` -/
def applyDownstreamKeys (rate : Option ℚ) : Element → Applying → Except Stopped Applying :=
  applyEach rate "DownstreamKeys" "DownstreamKey" indexOf (numbered "dsk") (fun _ => dskCalls)
    "downstream_keys".toList

def mediaPlayerCalls (e : Element) : List Call :=
  if (attrib "sourceType" e).getD "Still".toList = "Clip".toList then
    [.set ".clip" setMediaPlayerClip [("sourceIndex", .int 0)]]
  else [.set ".still" setMediaPlayerStill [("sourceIndex", .int 0)]]

/-- `_apply_media_players` -/
def applyMediaPlayers (rate : Option ℚ) : Element → Applying → Except Stopped Applying :=
  applyEach rate "MediaPlayers" "MediaPlayer" indexOf (numbered "mp") mediaPlayerCalls
    "media_players".toList

/-- `Profile.apply` with these four sections alone, in its order. -/
def applySections (rate : Option ℚ) (root : Element) (a : Applying) : Except Stopped Applying := do
  let a ← applyColorGenerators rate root a
  let a ← applyAuxiliaries rate root a
  let a ← applyDownstreamKeys rate root a
  applyMediaPlayers rate root a

end Bmdwire.Profile
