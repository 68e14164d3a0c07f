import Bmdwire.Library.Numerals
import Bmdwire.Library.Rounding
import Bmdwire.Program.Commands

/-!
# Rates

The rates of transitions and the like are numbers of frames on the wire, and `seconds:frames` in
the hands of a user: `parse_rate` and `format_rate` of `helpers.py`, `display_fps` of `state.py`,
and the setters of `messages/` that take such a text.
-/

set_option autoImplicit false

namespace Bmdwire.Rates

open Library (parseInt padded roundHalfEven)

/-! ## Texts -/

/-- `FALLBACK_FPS` -/
def fallbackFps : ℤ := 25

/-- `display_fps`, from the rate of the video mode, where one is known. -/
def displayFps (rate : Option ℚ) : ℤ :=
  match rate with
  | none => fallbackFps
  | some rate =>
    if rate ≤ 0 then fallbackFps
    else if rate ≥ 48 then roundHalfEven (rate / 2)
    else roundHalfEven rate

/-- The text of an integer. -/
def intText (n : ℤ) : Line := (if n < 0 then ['-'] else []) ++ Nat.toDigits 10 n.natAbs

/-- `parse_rate`; `none` is what is no text. -/
def parseRate (rateStr : Option Line) (fps : ℤ) : ℤ :=
  let fps := if fps ≤ 0 then fallbackFps else fps
  match rateStr with
  | none => fps
  | some text =>
    if ':' ∈ text then
      match text.splitOn ':' with
      | [seconds, frames] =>
        match parseInt 10 seconds, parseInt 10 frames with
        | some seconds, some frames => seconds * fps + frames
        | _, _ => fps
      | _ => fps
    else (parseInt 10 text).getD fps

/-- `format_rate`; `//` and `%` round down. -/
def formatRate (rateFrames : ℤ) (fps : ℤ) : Line :=
  let fps := if fps ≤ 0 then fallbackFps else fps
  intText (rateFrames / fps) ++ ':' :: padded 10 2 (rateFrames % fps).toNat

/-! ## Setters -/

/-- What the setters of a rate differ in: the class of the command, the attribute of the rate, and
what the class sets besides. -/
structure RateSetter where
  layout : Layout
  key : String
  more : List (String × Value)

namespace RateSetter

/-- The attributes of the command: of the rate, of its `index`, and of its `keyer` where the class
has one. -/
def attributes (setter : RateSetter) (index keyer frames : ℤ) : Attributes := fun name =>
  if name = setter.key then some (.int frames)
  else if name = "index" then some (.int index)
  else if name = "keyer" then some (.int keyer)
  else setter.more.lookup name

/-- The command that the setter sends for a text, `_resolve_rate` included. -/
def set (setter : RateSetter) (rate : Option ℚ) (rateStr : Option Line) (index keyer : ℤ) :
    Outgoing :=
  .declared (setter.layout.send
    (setter.attributes index keyer (parseRate rateStr (displayFps rate))))

end RateSetter

open Commands

/-- `set_ftb_rate` -/
def setFtbRate : RateSetter := ⟨fadeToBlackConfigCommand, "frames", [("mask", .int 1)]⟩

/-- `set_mix_rate` -/
def setMixRate : RateSetter := ⟨mixSettingsCommand, "rate", []⟩

/-- `set_dip_rate` -/
def setDipRate : RateSetter := ⟨dipSettingsCommand, "rate", []⟩

/-- `set_wipe_rate` -/
def setWipeRate : RateSetter := ⟨wipeSettingsCommand, "rate", []⟩

/-- `set_dve_rate` -/
def setDveRate : RateSetter := ⟨dveSettingsCommand, "rate", []⟩

/-- `set_stinger_rate`, and `set_stinger_mix_rate` -/
def setStingerRate : RateSetter := ⟨stingerSettingsCommand, "rate", []⟩

/-- `set_stinger_clip_duration` -/
def setStingerClipDuration : RateSetter := ⟨stingerSettingsCommand, "duration", []⟩

/-- `set_stinger_trigger_point` -/
def setStingerTriggerPoint : RateSetter := ⟨stingerSettingsCommand, "triggerpoint", []⟩

/-- `set_stinger_pre_roll` -/
def setStingerPreRoll : RateSetter := ⟨stingerSettingsCommand, "preroll", []⟩

/-- `set_dsk_rate` -/
def setDskRate : RateSetter := ⟨dkeyRateCommand, "rate", []⟩

/-- `set_usk_dve_rate` -/
def setUskDveRate : RateSetter := ⟨keyPropertiesDveCommand, "rate", []⟩

def rateSetters : List RateSetter :=
  [setFtbRate, setMixRate, setDipRate, setWipeRate, setDveRate, setStingerRate,
   setStingerClipDuration, setStingerTriggerPoint, setStingerPreRoll, setDskRate, setUskDveRate]

/-- `set_transition_rate`: the setter of the style; another style is a `ValueError`. -/
def setTransitionRate (style : ℤ) : Option RateSetter :=
  if style = 0 then some setMixRate
  else if style = 1 then some setDipRate
  else if style = 2 then some setWipeRate
  else if style = 3 then some setDveRate
  else if style = 4 then some setStingerRate
  else none

end Bmdwire.Rates
