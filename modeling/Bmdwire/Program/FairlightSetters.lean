import Bmdwire.Library.Clamping
import Bmdwire.Program.Layouts

/-!
# Fairlight setters

`messages/fairlight.py`: the commands for the master, a strip, its compressor and its expander,
and the operations that make them from what a caller gives. An operation converts each number
and queues the command; the worker calls `get_command` when it drains the queue.
-/

set_option autoImplicit false

namespace Bmdwire.Fairlight

open Library (FloatVal truncate clamp)

/-! ## Numbers -/

/-- A number that a caller gives; a truth value is the integer 0 or 1. -/
inductive Number
  | int (n : ℤ)
  | float (x : FloatVal)
deriving DecidableEq, Repr

namespace Number

/-- `float(value)`; `none` is an `OverflowError`. -/
def toFloat : Number → Option FloatVal
  | int n => (floatOf n).map .finite
  | float x => some x

/-- `int(value)`; `none` is an `OverflowError` or a `ValueError`. -/
def toInt : Number → Option ℤ
  | int n => some n
  | float (.finite q) => some (truncate q)
  | float _ => none

/-- `bool(value)` -/
def toBool : Number → Bool
  | int n => n ≠ 0
  | float x => x ≠ .finite 0

end Number

/-- An argument that may be `None`, converted when it is given. -/
def given {α β : Type} (convert : α → Option β) : Option α → Option (Option β)
  | none => some none
  | some value => (convert value).map some

/-- `int(round(x * 100))`; `none` is an exception. -/
def hundredths (x : FloatVal) : Option ℤ := scaledFloat x (.int 100)

/-- `_db_to_wire`, whose `scale` is always 100; `clamp` is `max(lo, min(hi, raw))`. -/
def dbToWire (lo hi : ℤ) (value : Number) : Option ℤ := do
  let f ← value.toFloat
  if f = .infinite true ∨ f = .nan then some lo
  else
    let raw ← hundredths f
    some (clamp lo hi raw)

/-- `_split_channel` -/
def splitChannel (channel : ℤ) : ℤ × ℤ :=
  if channel = -1 then (0x01, 0x00) else (0xff, channel)

/-! ## `struct.pack` -/

/-- An item of a format, with the value it is given. -/
inductive Item
  | pad (size : ℕ)
  | number (size : ℕ) (signed : Bool) (value : ℤ)
  | octets (bs : Bytes)
deriving DecidableEq, Repr

/-- The octets of an item; `none` is a `struct.error`. -/
def Item.pack : Item → Option Bytes
  | pad size => some (List.replicate size 0)
  | number size signed value => packNumber size signed value
  | octets bs => some bs

def Item.size : Item → ℕ
  | pad size => size
  | number size _ _ => size
  | octets bs => bs.length

/-- `struct.pack` -/
def structPack : List Item → Option Bytes
  | [] => some []
  | item :: items => item.pack.bind fun octets => (structPack items).map (octets ++ ·)

/-- `B`, `b`, `H`, `h`, `i` and `?` of a format. -/
def u8 (value : ℤ) : Item := .number 1 false value
def i8 (value : ℤ) : Item := .number 1 true value
def u16 (value : ℤ) : Item := .number 2 false value
def i16 (value : ℤ) : Item := .number 2 true value
def i32 (value : ℤ) : Item := .number 4 true value
def bool (value : Bool) : Item := .number 1 false value.toInt

/-- `_FAIRLIGHT_PAD` -/
def fairlightPad : Item := .octets (List.replicate 6 0xff)

/-- The mask: the bits of what is given. -/
def maskBits (bits : List (ℕ × Bool)) : ℤ :=
  (bits.foldl (fun mask bit => if bit.2 then mask ||| 2 ^ bit.1 else mask) 0 : ℕ)

/-! ## The commands -/

/-- `FairlightMasterPropertiesCommand` -/
structure MasterProperties where
  eqGain : Option ℤ
  dynamicsGain : Option ℤ
  volume : Option ℤ
  afv : Option Bool
  eqEnable : Option Bool
deriving DecidableEq, Repr

/-- What `get_command` packs behind the header. -/
def MasterProperties.items (c : MasterProperties) : List Item :=
  [ u8 (maskBits [(0, c.eqEnable.isSome), (1, c.eqGain.isSome), (2, c.dynamicsGain.isSome),
      (3, c.volume.isSome), (4, c.afv.isSome)]),
    bool (c.eqEnable.getD false), .pad 2, i32 (c.eqGain.getD 0), .pad 2,
    u16 (c.dynamicsGain.getD 0), i32 (c.volume.getD 0), bool (c.afv.getD false), .pad 3]

def MasterProperties.body (c : MasterProperties) : Option Bytes := structPack c.items

/-- `FairlightStripPropertiesCommand` -/
structure StripProperties where
  source : ℤ
  channel : ℤ
  delay : Option ℤ
  gain : Option ℤ
  eqGain : Option ℤ
  eqEnable : Option Bool
  dynamicsGain : Option ℤ
  balance : Option ℤ
  volume : Option ℤ
  state : Option ℤ
deriving DecidableEq, Repr

def StripProperties.items (c : StripProperties) : List Item :=
  [ u16 (maskBits [(0, c.delay.isSome), (1, c.gain.isSome), (3, c.eqEnable.isSome),
      (4, c.eqGain.isSome), (5, c.dynamicsGain.isSome), (6, c.balance.isSome),
      (7, c.volume.isSome), (8, c.state.isSome)]),
    u16 c.source, .pad 4, fairlightPad, u8 (splitChannel c.channel).1,
    i8 (splitChannel c.channel).2, u8 (c.delay.getD 0), .pad 3, i32 (c.gain.getD 0), .pad 2,
    bool (c.eqEnable.getD false), .pad 1, i32 (c.eqGain.getD 0), i32 (c.dynamicsGain.getD 0),
    i16 (c.balance.getD 0), .pad 2, i32 (c.volume.getD 0), u8 (c.state.getD 0), .pad 3]

def StripProperties.body (c : StripProperties) : Option Bytes := structPack c.items

/-- `FairlightCompressorPropertiesCommand` -/
structure CompressorProperties where
  source : ℤ
  channel : ℤ
  enabled : Option Bool
  threshold : Option FloatVal
  ratio : Option FloatVal
  attack : Option FloatVal
  hold : Option FloatVal
  release : Option FloatVal
deriving DecidableEq, Repr

/-- The parameters of the command in hundredths. -/
structure CompressorLevels where
  threshold : Option ℤ
  ratio : Option ℤ
  attack : Option ℤ
  hold : Option ℤ
  release : Option ℤ
deriving DecidableEq, Repr

def CompressorProperties.levels (c : CompressorProperties) : Option CompressorLevels := do
  let threshold ← given hundredths c.threshold
  let ratio ← given hundredths c.ratio
  let attack ← given hundredths c.attack
  let hold ← given hundredths c.hold
  let release ← given hundredths c.release
  some ⟨threshold, ratio, attack, hold, release⟩

def CompressorProperties.items (c : CompressorProperties) (l : CompressorLevels) : List Item :=
  [ u16 (maskBits [(8, c.enabled.isSome), (9, c.threshold.isSome), (10, c.ratio.isSome),
      (11, c.attack.isSome), (12, c.hold.isSome), (13, c.release.isSome)]),
    u16 c.source, .pad 4, fairlightPad, u8 (splitChannel c.channel).1,
    i8 (splitChannel c.channel).2, bool (c.enabled.getD false), .pad 3, i32 (l.threshold.getD 0),
    u16 (l.ratio.getD 0), .pad 2, i32 (l.attack.getD 0), i32 (l.hold.getD 0),
    i32 (l.release.getD 0)]

def CompressorProperties.body (c : CompressorProperties) : Option Bytes :=
  c.levels.bind fun l => structPack (c.items l)

/-- The `mode` of an expander. -/
inductive Mode
  | name (s : Line)
  | number (value : Number)
deriving DecidableEq, Repr

/-- `mode_int`; `none` is the exception of `int(self.mode)`. -/
def Mode.toInt : Mode → Option ℤ
  | name s => some (if s.map Char.toLower = "gate".toList then 1 else 0)
  | number value => value.toInt.map fun n => if n ≠ 0 then 1 else 0

/-- `FairlightExpanderPropertiesCommand` -/
structure ExpanderProperties where
  source : ℤ
  channel : ℤ
  enabled : Option Bool
  mode : Option Mode
  threshold : Option FloatVal
  range : Option FloatVal
  ratio : Option FloatVal
  attack : Option FloatVal
  hold : Option FloatVal
  release : Option FloatVal
deriving DecidableEq, Repr

/-- The mode, and the parameters of the command in hundredths. -/
structure ExpanderLevels where
  mode : Option ℤ
  threshold : Option ℤ
  range : Option ℤ
  ratio : Option ℤ
  attack : Option ℤ
  hold : Option ℤ
  release : Option ℤ
deriving DecidableEq, Repr

def ExpanderProperties.levels (c : ExpanderProperties) : Option ExpanderLevels := do
  let mode ← given Mode.toInt c.mode
  let threshold ← given hundredths c.threshold
  let range ← given hundredths c.range
  let ratio ← given hundredths c.ratio
  let attack ← given hundredths c.attack
  let hold ← given hundredths c.hold
  let release ← given hundredths c.release
  some ⟨mode, threshold, range, ratio, attack, hold, release⟩

def ExpanderProperties.items (c : ExpanderProperties) (l : ExpanderLevels) : List Item :=
  [ u16 (maskBits [(8, c.enabled.isSome), (9, c.mode.isSome), (10, c.threshold.isSome),
      (11, c.range.isSome), (12, c.ratio.isSome), (13, c.attack.isSome), (14, c.hold.isSome),
      (15, c.release.isSome)]),
    u16 c.source, .pad 4, fairlightPad, u8 (splitChannel c.channel).1,
    i8 (splitChannel c.channel).2, bool (c.enabled.getD false), u8 (l.mode.getD 0), .pad 2,
    i32 (l.threshold.getD 0), u16 (l.range.getD 0), u16 (l.ratio.getD 0), i32 (l.attack.getD 0),
    i32 (l.hold.getD 0), i32 (l.release.getD 0)]

def ExpanderProperties.body (c : ExpanderProperties) : Option Bytes :=
  c.levels.bind fun l => structPack (c.items l)

/-! ## The operations -/

/-- The arguments of `set_fairlight_master`. -/
structure MasterArgs where
  eqEnable : Option Number
  eqGainDb : Option Number
  dynamicsMakeupDb : Option Number
  volumeDb : Option Number
  afv : Option Number
deriving DecidableEq, Repr

/-- `set_fairlight_master`; `none` is an exception before the command is queued. -/
def setFairlightMaster (a : MasterArgs) : Option MasterProperties := do
  let eqGain ← given (dbToWire (-2000) 2000) a.eqGainDb
  let dynamicsGain ← given (dbToWire 0 2000) a.dynamicsMakeupDb
  let volume ← given (dbToWire (-10000) 1000) a.volumeDb
  some ⟨eqGain, dynamicsGain, volume, a.afv.map Number.toBool, a.eqEnable.map Number.toBool⟩

/-- The `mix_option` of a strip. -/
inductive MixOption
  | name (s : Line)
  | number (value : Number)
deriving DecidableEq, Repr

/-- `FAIRLIGHT_MIX_OPTIONS` -/
def mixOptions : List (Line × ℤ) :=
  [("Off".toList, 0x01), ("On".toList, 0x02), ("AudioFollowVideo".toList, 0x04)]

/-- `state`; `none` is the `ValueError` of an unknown name or the exception of `int`. -/
def MixOption.toInt : MixOption → Option ℤ
  | name s => mixOptions.lookup s
  | number value => value.toInt

/-- The arguments of `set_fairlight_strip`. -/
structure StripArgs where
  source : Number
  channel : Number
  inputGainDb : Option Number
  eqEnable : Option Number
  eqGainDb : Option Number
  dynamicsMakeupDb : Option Number
  pan : Option Number
  faderGainDb : Option Number
  mixOption : Option MixOption
  delayFrames : Option Number
deriving DecidableEq, Repr

/-- `max(-10000, min(10000, int(round(float(pan) * 100))))` -/
def panToWire (pan : Number) : Option ℤ := do
  let raw ← hundredths (← pan.toFloat)
  some (clamp (-10000) 10000 raw)

/-- `set_fairlight_strip` -/
def setFairlightStrip (a : StripArgs) : Option StripProperties := do
  let state ← given MixOption.toInt a.mixOption
  let source ← a.source.toInt
  let channel ← a.channel.toInt
  let delay ← given Number.toInt a.delayFrames
  let gain ← given (dbToWire (-10000) 600) a.inputGainDb
  let eqGain ← given (dbToWire (-2000) 2000) a.eqGainDb
  let dynamicsGain ← given (dbToWire 0 2000) a.dynamicsMakeupDb
  let balance ← given panToWire a.pan
  let volume ← given (dbToWire (-10000) 1000) a.faderGainDb
  some ⟨source, channel, delay, gain, eqGain, a.eqEnable.map Number.toBool, dynamicsGain, balance,
    volume, state⟩

/-- The arguments of `set_fairlight_compressor`. -/
structure CompressorArgs where
  source : Number
  channel : Number
  enabled : Option Number
  thresholdDb : Option Number
  ratio : Option Number
  attackMs : Option Number
  holdMs : Option Number
  releaseMs : Option Number
deriving DecidableEq, Repr

/-- `set_fairlight_compressor` -/
def setFairlightCompressor (a : CompressorArgs) : Option CompressorProperties := do
  let source ← a.source.toInt
  let channel ← a.channel.toInt
  let threshold ← given Number.toFloat a.thresholdDb
  let ratio ← given Number.toFloat a.ratio
  let attack ← given Number.toFloat a.attackMs
  let hold ← given Number.toFloat a.holdMs
  let release ← given Number.toFloat a.releaseMs
  some ⟨source, channel, a.enabled.map Number.toBool, threshold, ratio, attack, hold, release⟩

/-- The arguments of `set_fairlight_expander`. -/
structure ExpanderArgs where
  source : Number
  channel : Number
  enabled : Option Number
  mode : Option Mode
  thresholdDb : Option Number
  rangeDb : Option Number
  ratio : Option Number
  attackMs : Option Number
  holdMs : Option Number
  releaseMs : Option Number
deriving DecidableEq, Repr

/-- `set_fairlight_expander` -/
def setFairlightExpander (a : ExpanderArgs) : Option ExpanderProperties := do
  let source ← a.source.toInt
  let channel ← a.channel.toInt
  let threshold ← given Number.toFloat a.thresholdDb
  let range ← given Number.toFloat a.rangeDb
  let ratio ← given Number.toFloat a.ratio
  let attack ← given Number.toFloat a.attackMs
  let hold ← given Number.toFloat a.holdMs
  let release ← given Number.toFloat a.releaseMs
  some ⟨source, channel, a.enabled.map Number.toBool, a.mode, threshold, range, ratio, attack,
    hold, release⟩

/-- A call of one of the four. -/
inductive Call
  | master (a : MasterArgs)
  | strip (a : StripArgs)
  | compressor (a : CompressorArgs)
  | expander (a : ExpanderArgs)
deriving DecidableEq, Repr

/-- The command that a call queues; `none` is an exception. -/
def Call.queued : Call → Option Outgoing
  | master a => (setFairlightMaster a).map fun c =>
    .packed ⟨[0x43, 0x46, 0x4d, 0x50], rfl⟩ c.body
  | strip a => (setFairlightStrip a).map fun c =>
    .packed ⟨[0x43, 0x46, 0x53, 0x50], rfl⟩ c.body
  | compressor a => (setFairlightCompressor a).map fun c =>
    .packed ⟨[0x43, 0x49, 0x43, 0x50], rfl⟩ c.body
  | expander a => (setFairlightExpander a).map fun c =>
    .packed ⟨[0x43, 0x49, 0x58, 0x50], rfl⟩ c.body

end Bmdwire.Fairlight
