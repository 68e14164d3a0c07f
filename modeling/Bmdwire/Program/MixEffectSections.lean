import Bmdwire.Program.ProfileSections

/-!
# Mix effects of a profile

The block of a mix effect: its program and preview, the next transition, the style of transitions
with the settings of each style, and fade to black. How `profile/save.py` builds the blocks, and
what `_apply_transition`, `_apply_fade_to_black` and `_apply_program_preview` of
`profile/apply.py` make of them. The keys of a block are elements that these do not look at.
-/

set_option autoImplicit false

namespace Bmdwire.Profile

open Library (Element FloatVal roundHalfEven strip)
open Macros (ErrorType)
open Rates (RateSetter intText)

/-! ## Options -/

/-- `MixEffectOptions` -/
structure MixEffectOptions where
  program : Bool
  preview : Bool
  nextTransition : Bool
  transitionStyle : Bool
  fadeToBlack : Bool
  usk : List Bool
deriving DecidableEq

namespace MixEffectOptions

/-- `any_selected` -/
def anySelected (o : MixEffectOptions) : Bool :=
  o.program || o.preview || o.nextTransition || o.transitionStyle || o.fadeToBlack || o.usk.any id

/-- `none` -/
def none : MixEffectOptions := ⟨false, false, false, false, false, [false, false, false, false]⟩

end MixEffectOptions

/-- `me_options` -/
def meOptions (mes : List MixEffectOptions) (me : ℤ) : MixEffectOptions :=
  if 0 ≤ me then (mes[me.toNat]?).getD .none else .none

/-- `me_count` -/
def meCount (mx : Mixer) : ℕ :=
  let top := (mx.topologyMes.map UInt8.toNat).getD 0
  let count := if top = 0 then
      match (mx.mixerEffectConfig.map UInt8.toNat).max? with
      | some last => last + 1
      | none => 0
    else top
  if count = 0 then 1 else count

/-! ## Names -/

/-- `TRANS_STYLE_NAMES` -/
def transStyleNames : List (ℤ × Text) :=
  [(0, "Mix".toList), (1, "Dip".toList), (2, "Wipe".toList), (3, "DVE".toList),
   (4, "Stinger".toList)]

/-- `WIPE_PATTERN_NAMES` -/
def wipePatternNames : List Text :=
  ["LeftToRightBar".toList, "TopToBottomBar".toList, "HorizontalBarnDoor".toList,
   "VerticalBarnDoor".toList, "CornersInFourBox".toList, "RectangleIris".toList,
   "DiamondIris".toList, "CircleIris".toList, "TopLeftBox".toList, "TopRightBox".toList,
   "BottomRightBox".toList, "BottomLeftBox".toList, "TopCentreBox".toList,
   "RightCentreBox".toList, "BottomCentreBox".toList, "LeftCentreBox".toList,
   "TopLeftDiagonal".toList, "TopRightDiagonal".toList]

/-- `DVE_EFFECT_NAMES` -/
def dveEffectNames : List (ℤ × Text) :=
  [(16, "SqueezeTopLeft".toList), (17, "SqueezeTop".toList), (18, "SqueezeTopRight".toList),
   (19, "SqueezeLeft".toList), (20, "SqueezeRight".toList), (21, "SqueezeBottomLeft".toList),
   (22, "SqueezeBottom".toList), (23, "SqueezeBottomRight".toList), (24, "PushTopLeft".toList),
   (25, "PushTop".toList), (26, "PushTopRight".toList), (27, "PushLeft".toList),
   (28, "PushRight".toList), (29, "PushBottomLeft".toList), (30, "PushBottom".toList),
   (31, "PushBottomRight".toList)]

/-- `TRANS_STYLE_TO_INT` -/
def transStyleToInt : List (Text × ℤ) := transStyleNames.map Prod.swap

/-- `WIPE_PATTERN_TO_INT` -/
def wipePatternToInt : List (Text × ℤ) := wipePatternNames.zipIdx.map fun p => (p.1, (p.2 : ℤ))

/-- `DVE_EFFECT_TO_INT` -/
def dveEffectToInt : List (Text × ℤ) := dveEffectNames.map Prod.swap

/-! ## Readers -/

namespace Readers

/-- `program_source` -/
def programSource : Reader where
  fields := programBusInputField
  entry mx me := mx.programBusInput.lookup me
  name := "source"
  showing := .int
  default := .int 0

/-- `preview_source` -/
def previewSource : Reader where
  fields := previewBusInputField
  entry mx me := mx.previewBusInput.lookup me
  name := "source"
  showing := .int
  default := .int 0

/-- `transition_style`, by its name. -/
def transitionStyle : Reader where
  fields := transitionSettingsField
  entry mx me := mx.transitionSettings.lookup me
  name := "style"
  showing := .int
  default := .int 0
  form := .named transStyleNames "Mix".toList

/-- `mix_rate` -/
def mixRate : Reader where
  fields := transitionMixField
  entry mx me := mx.transitionMix.lookup me
  name := "rate"
  showing := .int
  default := .int 25

/-- A reader of the dip transition. -/
def dip (name : String) (default : Scalar) : Reader where
  fields := transitionDipField
  entry mx me := mx.transitionDip.lookup me
  name := name
  showing := .int
  default := default

/-- A reader of the wipe transition. -/
def wipe (name : String) (showing : Showing) (default : Scalar) : Reader where
  fields := transitionWipeField
  entry mx me := mx.transitionWipe.lookup me
  name := name
  showing := showing
  default := default

/-- A reader of the stinger transition. -/
def stinger (name : String) (showing : Showing) (default : Scalar) : Reader where
  fields := transitionStingerField
  entry mx me := mx.transitionStinger.lookup me
  name := name
  showing := showing
  default := default

/-- A reader of the DVE transition. -/
def dve (name : String) (showing : Showing) (default : Scalar) : Reader where
  fields := transitionDveField
  entry mx me := mx.transitionDve.lookup me
  name := name
  showing := showing
  default := default

/-- `ftb_rate` -/
def ftbRate : Reader where
  fields := fadeToBlackField
  entry mx me := mx.fadeToBlack.lookup me
  name := "rate"
  showing := .int
  default := .int 25

/-- `ftb_active` -/
def ftbActive : Reader where
  fields := fadeToBlackStateField
  entry mx me := mx.fadeToBlackState.lookup me
  name := "done"
  showing := .bool
  default := .bool false

end Readers

/-! ## Layers of the next transition -/

def layerNames : List Text :=
  ["Background".toList, "Key1".toList, "Key2".toList, "Key3".toList, "Key4".toList]

/-- `transition_selection`: whether each layer is selected. -/
def transitionSelection (mx : Mixer) (me : UInt8) : List Bool :=
  match mx.transitionSettings.lookup me with
  | none => [true, false, false, false, false]
  | some m => (List.range 5).map (m.raw.getD 2 0).toNat.testBit

/-- `_next_transition_to_str` -/
def nextTransitionToStr (selection : List Bool) : Text :=
  let parts := ((layerNames.zip selection).filter Prod.snd).map Prod.fst
  if parts = [] then "Background".toList else List.intercalate [','] parts

/-- `_str_to_next_transition` -/
def strToNextTransition (s : Text) : List Bool :=
  let parts := ((s.splitOn ',').map strip).filter (· ≠ [])
  layerNames.map fun name => parts.contains name

/-- `transition_mask_from_selection` -/
def transitionMask (selection : List Bool) : ℤ :=
  selection.foldr (fun b mask => b.toInt + 2 * mask) 0

/-- `set_next_transition_layers`: a mask of no layer is not sent. -/
def setNextTransitionLayers (selection : List Bool) (me : ℤ) : Option Outgoing :=
  let mask := transitionMask selection
  if mask = 0 then none
  else some (.declared (Commands.transitionSettingsCommand.send fun name =>
    [("index", Value.int me), ("next_transition", Value.int mask)].lookup name))

/-! ## Saving -/

/-- `int(round(pos * 10000))`, of what `transition_position` gives. -/
def savedPosition (mx : Mixer) (me : UInt8) : Text :=
  let position := match (mx.transitionPosition.lookup me).bind fun m => m.get "position" with
    | some v => v.float
    | none => .finite 0
  match wholeOf roundHalfEven (timesFloat position 10000) with
  | .ok n => intText n
  | .error _ => []

def mixAttributes : List (String × Reader) := [("rate", Readers.mixRate)]

def dipAttributes : List (String × Reader) :=
  [("rate", Readers.dip "rate" (.int 25)), ("input", Readers.dip "source" (.int 0))]

def wipeAttributes : List (String × Reader) :=
  [("rate", Readers.wipe "rate" .int (.int 25)),
   ("pattern", { Readers.wipe "pattern" .int (.int 0) with form := .cyclic wipePatternNames }),
   ("symmetry", Readers.wipe "symmetry" (.over 2 2) (.real (.finite 50))),
   ("xPosition", Readers.wipe "positionx" (.over 4 4) (.real (.finite (1 / 2)))),
   ("yPosition", Readers.wipe "positiony" (.over 4 4) (.real (.finite (1 / 2)))),
   ("reverseDirection", Readers.wipe "reverse" .bool (.bool false)),
   ("flipFlip", Readers.wipe "flipflop" .bool (.bool false)),
   ("borderInput", Readers.wipe "source" .int (.int 0)),
   ("borderWidth", Readers.wipe "width" (.over 2 2) (.real (.finite 0))),
   ("borderSoftness", Readers.wipe "softness" (.over 2 2) (.real (.finite 0)))]

def stingerAttributes : List (String × Reader) :=
  [("source", { Readers.stinger "mediaplayer" .int (.int 1) with form := .player }),
   ("preMultipliedKey", Readers.stinger "key_premultiplied" .bool (.bool true)),
   ("clip", Readers.stinger "key_clip" (.over 1 2) (.real (.finite 50))),
   ("gain", Readers.stinger "key_gain" (.over 1 2) (.real (.finite 70))),
   ("invert", Readers.stinger "key_invert" .bool (.bool false)),
   ("clipDuration", Readers.stinger "duration" .int (.int 150)),
   ("triggerPoint", Readers.stinger "triggerpoint" .int (.int 34)),
   ("mixRate", Readers.stinger "rate" .int (.int 25)),
   ("preroll", Readers.stinger "preroll" .int (.int 48))]

/-- Without a message, `dve_style` gives no number, and `DVE_EFFECT_NAMES` has no name for it, as
it has none for 0. -/
def dveAttributes : List (String × Reader) :=
  [("rate", Readers.dve "rate" .int (.int 25)),
   ("logoRate", Readers.dve "rate" .int (.int 25)),
   ("reverseDirection", Readers.dve "reverse" .bool (.bool false)),
   ("flipFlop", Readers.dve "flipflop" .bool (.bool false)),
   ("effect", { Readers.dve "style" .int (.int 0) with
      form := .named dveEffectNames "SqueezeTopLeft".toList }),
   ("fillSource", Readers.dve "fill_source" .int (.int 1)),
   ("keySource", Readers.dve "key_source" .int (.int 1)),
   ("enableKey", Readers.dve "key_enable" .bool (.bool false)),
   ("preMultipliedKey", Readers.dve "key_premultiplied" .bool (.bool false)),
   ("clip", Readers.dve "key_clip" (.over 1 2) (.real (.finite 0))),
   ("gain", Readers.dve "key_gain" (.over 1 2) (.real (.finite 100))),
   ("invertKey", Readers.dve "key_invert" .bool (.bool false))]

/-- The settings of each style. -/
def styleAttributes : List (String × List (String × Reader)) :=
  [("MixParameters", mixAttributes), ("DipParameters", dipAttributes),
   ("WipeParameters", wipeAttributes), ("StingerParameters", stingerAttributes),
   ("DVEParameters", dveAttributes)]

def transitionStyleElement (mx : Mixer) (me : UInt8) : Element :=
  element "TransitionStyle"
    (savedAttributes [("style", Readers.transitionStyle), ("nextStyle", Readers.transitionStyle)]
        mx me ++
      [("previewTransition", fmt (.bool false)), ("transitionPosition", savedPosition mx me)])
    (styleAttributes.map fun p => element p.1 (savedAttributes p.2 mx me) [])

def nextTransitionElement (mx : Mixer) (me : UInt8) : Element :=
  let selection := nextTransitionToStr (transitionSelection mx me)
  element "NextTransition" [("selection", selection), ("nextSelection", selection)] []

/-- The elements of a block, each with whether it is selected. -/
def blockParts (mx : Mixer) (o : MixEffectOptions) (keys : List Element) (me : UInt8) :
    List (Bool × Element) :=
  [(o.program, element "Program" (savedAttributes [("input", Readers.programSource)] mx me) []),
   (o.preview, element "Preview" (savedAttributes [("input", Readers.previewSource)] mx me) []),
   (o.nextTransition, nextTransitionElement mx me),
   (o.transitionStyle, transitionStyleElement mx me),
   (o.usk.any id, element "Keys" [] keys),
   (o.fadeToBlack, element "FadeToBlack"
      (savedAttributes [("rate", Readers.ftbRate), ("isFullyBlack", Readers.ftbActive)] mx me)
      [])]

/-- `_build_mix_effect_block`, with the elements of its keys. -/
def buildMixEffectBlock (mx : Mixer) (o : MixEffectOptions) (keys : List Element) (me : UInt8) :
    Element :=
  element "MixEffectBlock" [("index", fmt (.int me.toNat))]
    (((blockParts mx o keys me).filter Prod.fst).map Prod.snd)

/-- The mix effects with something selected. -/
def selectedMes (mx : Mixer) (mes : List MixEffectOptions) : List UInt8 :=
  ((List.range (meCount mx)).filter fun me : ℕ => (meOptions mes me).anySelected).map UInt8.ofNat

/-- `_build_mix_effect_blocks` -/
def buildMixEffectBlocks (mx : Mixer) (mes : List MixEffectOptions)
    (keys : UInt8 → List Element) : Option Element :=
  let selected := selectedMes mx mes
  if selected = [] then none
  else some (element "MixEffectBlocks" [] (selected.map fun me =>
    buildMixEffectBlock mx (meOptions mes me.toNat) (keys me) me))

/-! ## Setters -/

section
open Commands

/-- A setter of one argument. -/
def setOne (layout : Layout) (key : String) (writing : Writing) : Setter :=
  ⟨layout, [(key, writing)], []⟩

/-- `set_program` -/
def setProgram : Setter := setOne programInputCommand "source" .int

/-- `set_preview` -/
def setPreview : Setter := setOne previewInputCommand "source" .int

/-- `set_transition_style` -/
def setTransitionStyle : Setter := setOne transitionSettingsCommand "style" .int

/-- `set_dip_source` -/
def setDipSource : Setter := setOne dipSettingsCommand "source" .int

/-- `set_wipe_pattern` -/
def setWipePattern : Setter := setOne wipeSettingsCommand "pattern" .int

/-- `set_wipe_symmetry` -/
def setWipeSymmetry : Setter := setOne wipeSettingsCommand "symmetry" (.scaled 2 (some 10000))

/-- `set_wipe_softness` -/
def setWipeSoftness : Setter := setOne wipeSettingsCommand "softness" (.scaled 2 (some 10000))

/-- `set_wipe_width` -/
def setWipeWidth : Setter := setOne wipeSettingsCommand "width" (.scaled 2 (some 10000))

/-- `set_wipe_position_x` -/
def setWipePositionX : Setter := setOne wipeSettingsCommand "positionx" (.scaled 4 (some 10000))

/-- `set_wipe_position_y` -/
def setWipePositionY : Setter := setOne wipeSettingsCommand "positiony" (.scaled 4 (some 10000))

/-- `set_wipe_reverse` -/
def setWipeReverse : Setter := setOne wipeSettingsCommand "reverse" .bool

/-- `set_wipe_flip_flop` -/
def setWipeFlipFlop : Setter := setOne wipeSettingsCommand "flipflop" .bool

/-- `set_wipe_fill_source` -/
def setWipeFillSource : Setter := setOne wipeSettingsCommand "source" .int

/-- `set_stinger_source` -/
def setStingerSource : Setter := setOne stingerSettingsCommand "mediaplayer" .int

/-- `set_stinger_clip` -/
def setStingerClip : Setter := setOne stingerSettingsCommand "key_clip" (.scaled 1 none)

/-- `set_stinger_gain` -/
def setStingerGain : Setter := setOne stingerSettingsCommand "key_gain" (.scaled 1 none)

/-- `set_stinger_invert_key` -/
def setStingerInvertKey : Setter := setOne stingerSettingsCommand "key_invert" .bool

/-- `set_stinger_pre_multiplied` -/
def setStingerPreMultiplied : Setter :=
  setOne stingerSettingsCommand "key_premultiplied" .bool

/-- `set_dve_fill_source` -/
def setDveFillSource : Setter := setOne dveSettingsCommand "fill_source" .int

/-- `set_dve_key_source` -/
def setDveKeySource : Setter := setOne dveSettingsCommand "key_source" .int

/-- `set_dve_enable_key` -/
def setDveEnableKey : Setter := setOne dveSettingsCommand "key_enable" .bool

/-- `set_dve_clip` -/
def setDveClip : Setter := setOne dveSettingsCommand "key_clip" (.scaled 1 (some 1000))

/-- `set_dve_gain` -/
def setDveGain : Setter := setOne dveSettingsCommand "key_gain" (.scaled 1 (some 1000))

/-- `set_dve_invert_key` -/
def setDveInvertKey : Setter := setOne dveSettingsCommand "key_invert" .bool

/-- `set_dve_pre_multiplied` -/
def setDvePreMultiplied : Setter := setOne dveSettingsCommand "key_premultiplied" .bool

/-- `set_dve_style` -/
def setDveStyle : Setter := setOne dveSettingsCommand "style" .int

/-- `set_dve_reverse` -/
def setDveReverse : Setter := setOne dveSettingsCommand "reverse" .bool

/-- `set_dve_flip_flop` -/
def setDveFlipFlop : Setter := setOne dveSettingsCommand "flipflop" .bool

end

/-! ## Applying -/

def styleCalls : List Call :=
  [.set ".transition.style" setTransitionStyle
    [("style", .named transStyleToInt "Mix".toList 0)]]

def mixCalls : List Call := [.rate "rate" 25 Rates.setMixRate]

def dipCalls : List Call :=
  [.rate "rate" 25 Rates.setDipRate, .set ".dip_source" setDipSource [("input", .int 0)]]

def wipeCalls : List Call :=
  [.rate "rate" 25 Rates.setWipeRate,
   .set ".wipe_pattern" setWipePattern
     [("pattern", .named wipePatternToInt "LeftToRightBar".toList 0)],
   .set ".wipe_symmetry" setWipeSymmetry [("symmetry", .float 50)],
   .set ".wipe_softness" setWipeSoftness [("borderSoftness", .float 0)],
   .set ".wipe_width" setWipeWidth [("borderWidth", .float 0)],
   .set ".wipe_position_x" setWipePositionX [("xPosition", .float (1 / 2))],
   .set ".wipe_position_y" setWipePositionY [("yPosition", .float (1 / 2))],
   .set ".wipe_reverse" setWipeReverse [("reverseDirection", .bool)],
   .set ".wipe_flip_flop" setWipeFlipFlop [("flipFlip", .bool)],
   .set ".wipe_fill_source" setWipeFillSource [("borderInput", .int 0)]]

def stingerSourceCall : Call := .set ".stinger.source" setStingerSource [("source", .player)]

def stingerKeyCalls : List Call :=
  [.set ".stinger.clip" setStingerClip [("clip", .float 50)],
   .set ".stinger.gain" setStingerGain [("gain", .float 70)],
   .set ".stinger.invert_key" setStingerInvertKey [("invert", .bool)],
   .set ".stinger.pre_multiplied" setStingerPreMultiplied [("preMultipliedKey", .bool)],
   .rate "clipDuration" 73 Rates.setStingerClipDuration,
   .rate "triggerPoint" 34 Rates.setStingerTriggerPoint,
   .rate "mixRate" 5 Rates.setStingerRate,
   .rate "preroll" 0 Rates.setStingerPreRoll]

/-- A source that cannot be read is left out. -/
def stingerCalls (e : Element) : List Call :=
  (if (playerOf (attrib "source" e)).isSome then [stingerSourceCall] else []) ++ stingerKeyCalls

def dveKeyCalls : List Call :=
  [.rate "rate" 25 Rates.setDveRate,
   .set ".dve_t.fill_source" setDveFillSource [("fillSource", .int 0)],
   .set ".dve_t.key_source" setDveKeySource [("keySource", .int 0)],
   .set ".dve_t.enable_key" setDveEnableKey [("enableKey", .bool)],
   .set ".dve_t.clip" setDveClip [("clip", .float 50)],
   .set ".dve_t.gain" setDveGain [("gain", .float 70)],
   .set ".dve_t.invert_key" setDveInvertKey [("invertKey", .bool)],
   .set ".dve_t.pre_multiplied" setDvePreMultiplied [("preMultipliedKey", .bool)]]

def dveStyleCall : Call :=
  .set ".dve_t.style" setDveStyle [("effect", .named dveEffectToInt [] 0)]

def dveMotionCalls : List Call :=
  [.set ".dve_t.reverse" setDveReverse [("reverseDirection", .bool)],
   .set ".dve_t.flip_flop" setDveFlipFlop [("flipFlop", .bool)]]

/-- An effect that has no number is left out. -/
def dveCalls (e : Element) : List Call :=
  dveKeyCalls ++
    (if (dveEffectToInt.lookup ((attrib "effect" e).getD [])).isSome then [dveStyleCall] else []) ++
    dveMotionCalls

/-- The calls for the settings of each style. -/
def styleSettings : List (String × (Element → List Call)) :=
  [("MixParameters", fun _ => mixCalls), ("DipParameters", fun _ => dipCalls),
   ("WipeParameters", fun _ => wipeCalls), ("StingerParameters", stingerCalls),
   ("DVEParameters", dveCalls)]

section
variable (rate : Option ℚ) (me : ℤ)

/-- The calls for an element of a mix effect, one after another. -/
def runCalls (calls : List Call) (e : Element) (a : Applying) : Except Stopped Applying :=
  calls.foldlM (fun a call => call.run rate (numbered "me" me) me e a) a

/-- The calls for a child, where there is one. -/
def runIn (parent : Element) (a : Applying) (p : String × (Element → List Call)) :
    Except Stopped Applying :=
  match find p.1 parent with
  | none => .ok a
  | some e => runCalls rate me (p.2 e) e a

/-- `_apply_transition_block` -/
def applyTransitionBlock (o : MixEffectOptions) (block : Element) (a : Applying) :
    Except Stopped Applying := do
  let a ← match o.transitionStyle, find "TransitionStyle" block with
    | true, some style => do
      let a ← runCalls rate me styleCalls style a
      styleSettings.foldlM (runIn rate me style) a
    | _, _ => .ok a
  match o.nextTransition, find "NextTransition" block with
  | true, some next =>
    let selection := strToNextTransition ((attrib "selection" next).getD "Background".toList)
    return { a with sent := a.sent ++ (setNextTransitionLayers selection me).toList }
  | _, _ => .ok a

end

/-- What a loop over the blocks keeps: what was done, and two marks of what to report. -/
structure BlockLoop where
  a : Applying
  first : Bool
  second : Bool

/-- One turn of `_iter_me_blocks` on a switcher with so many mix effects: a block of another is
passed over. -/
def blockTurn (live : ℕ) (body : ℤ → Element → BlockLoop → Except Stopped BlockLoop)
    (s : BlockLoop) (block : Element) : Except Stopped BlockLoop :=
  match intOf 0 (attrib "index" block) with
  | .error raised => .error (raised, s.a.sent)
  | .ok me => if me < 0 ∨ live ≤ me then .ok s else body me block s

def iterMeBlocks (live : ℕ) (body : ℤ → Element → BlockLoop → Except Stopped BlockLoop)
    (root : Element) (a : Applying) : Except Stopped BlockLoop :=
  ((findall "MixEffectBlocks" root).flatMap (findall "MixEffectBlock")).foldlM
    (blockTurn live body) ⟨a, false, false⟩

/-- One note for both marks, or for one. -/
def noted (first second : Bool) (both one other : String) : List Text :=
  if first && second then [both.toList]
  else if first then [one.toList]
  else if second then [other.toList]
  else []

def BlockLoop.note (s : BlockLoop) (both one other : String) : Applying :=
  { s.a with
    result := { s.a.result with
      applied := s.a.result.applied ++ noted s.first s.second both one other } }

section
variable (rate : Option ℚ) (live : ℕ) (mes : List MixEffectOptions)

/-- The body of `_apply_transition`. -/
def transitionBody (me : ℤ) (block : Element) (s : BlockLoop) : Except Stopped BlockLoop := do
  let o := meOptions mes me
  let a ← applyTransitionBlock rate me o block s.a
  return ⟨a, s.first || o.transitionStyle, s.second || o.nextTransition⟩

/-- `_apply_transition` -/
def applyTransition (root : Element) (a : Applying) : Except Stopped Applying := do
  let s ← iterMeBlocks live (transitionBody rate mes) root a
  return s.note "transition" "transition_style" "next_transition"

/-- The body of `_apply_fade_to_black`. -/
def fadeToBlackBody (me : ℤ) (block : Element) (s : BlockLoop) : Except Stopped BlockLoop :=
  match (meOptions mes me).fadeToBlack, find "FadeToBlack" block with
  | true, some ftb => do
    let a ← runCalls rate me [.rate "rate" 25 Rates.setFtbRate] ftb s.a
    return ⟨a, true, s.second⟩
  | _, _ => .ok s

/-- `_apply_fade_to_black` -/
def applyFadeToBlack (root : Element) (a : Applying) : Except Stopped Applying := do
  let s ← iterMeBlocks live (fadeToBlackBody rate mes) root a
  return s.note "fade_to_black" "fade_to_black" "fade_to_black"

/-- The body of `_apply_program_preview`, which has the preview first. -/
def programPreviewBody (me : ℤ) (block : Element) (s : BlockLoop) :
    Except Stopped BlockLoop := do
  let o := meOptions mes me
  let s ← match o.preview, find "Preview" block with
    | true, some preview => do
      let a ← runCalls rate me [.set ".preview" setPreview [("input", .int 0)]] preview s.a
      pure ⟨a, s.first, true⟩
    | _, _ => .ok s
  match o.program, find "Program" block with
  | true, some program => do
    let a ← runCalls rate me [.set ".program" setProgram [("input", .int 0)]] program s.a
    return ⟨a, true, s.second⟩
  | _, _ => .ok s

/-- `_apply_program_preview` -/
def applyProgramPreview (root : Element) (a : Applying) : Except Stopped Applying := do
  let s ← iterMeBlocks live (programPreviewBody rate mes) root a
  return s.note "program_preview" "program" "preview"

/-- `Profile.apply` with these three sections alone, in its order: one that no mix effect asks for
is left out, and that of the program is then reported. -/
def applyMixEffects (root : Element) (a : Applying) : Except Stopped Applying := do
  let a ← if mes.any fun o => o.nextTransition || o.transitionStyle then
      applyTransition rate live mes root a
    else .ok a
  let a ← if mes.any MixEffectOptions.fadeToBlack then applyFadeToBlack rate live mes root a
    else .ok a
  if mes.any fun o => o.program || o.preview then applyProgramPreview rate live mes root a
  else
    return a.noteSkipped "program_preview".toList
      "gated off (default — would cut to air)".toList

end

end Bmdwire.Profile
