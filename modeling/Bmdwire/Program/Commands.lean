import Bmdwire.Program.Layouts

/-!
# The commands

The subclasses of `Send` whose `get_command` is the one they inherit, file by file, with the fields
they declare: the name, `at`, `mask_bit`, and the type. Only the numbers of `ColorGeneratorCommand`
have a scale; it is `Bmdwire.colorGeneratorCommand`.
-/

set_option autoImplicit false

namespace Bmdwire

/-- `CODE` -/
def WireCode.letters (a b c d : Char) : WireCode :=
  ⟨[a, b, c, d].map fun letter => UInt8.ofNat letter.toNat, rfl⟩

namespace Commands

def u8 : FieldType := .u8 (.float 1)
def u16 : FieldType := .u16 (.float 1)
def u32 : FieldType := .u32 (.float 1)
def i16 : FieldType := .i16 (.float 1)
def i32 : FieldType := .i32 (.float 1)
def boolean : FieldType := .boolean

/-- A class with `SIZE` and fields. -/
def unmasked (code : WireCode) (size : ℕ) (fields : List Field) : Layout :=
  { code, size, maskAt := none, maskSize := 1, fields, tail := none }

/-- A class with `MASK_AT`, and the size of its `MASK_TYPE`. -/
def masked (code : WireCode) (size maskAt maskSize : ℕ) (fields : List Field) : Layout :=
  { code, size, maskAt := some maskAt, maskSize, fields, tail := none }

/-! ## audio_legacy.py -/

/-- `AudioInputCommand` -/
def audioInputCommand : Layout :=
  masked (.letters 'C' 'A' 'M' 'I') 12 0 1
    [⟨"source", 2, none, u16⟩, ⟨"mix_option", 4, some 0, u8⟩, ⟨"volume", 6, some 1, u16⟩,
     ⟨"balance", 8, some 2, i16⟩]

/-- `AudioMasterPropertiesCommand` -/
def audioMasterPropertiesCommand : Layout :=
  masked (.letters 'C' 'A' 'M' 'M') 8 0 1
    [⟨"volume", 2, some 0, u16⟩, ⟨"afv", 6, some 2, boolean⟩]

/-- `AudioMonitorPropertiesCommand` -/
def audioMonitorPropertiesCommand : Layout :=
  masked (.letters 'C' 'A' 'M' 'm') 12 0 1
    [⟨"enabled", 1, some 0, boolean⟩, ⟨"volume", 2, some 1, u16⟩, ⟨"mute", 4, some 2, boolean⟩,
     ⟨"solo", 5, some 3, boolean⟩, ⟨"solo_source", 6, some 4, u16⟩, ⟨"dim", 8, some 5, boolean⟩,
     ⟨"dim_volume", 10, some 6, u16⟩]

/-- `SendAudioLevelsCommand` -/
def sendAudioLevelsCommand : Layout :=
  unmasked (.letters 'S' 'A' 'L' 'N') 4 [⟨"enable", 0, none, boolean⟩]

/-! ## camera_control.py -/

/-- `CameraControlCommand` -/
def cameraControlCommand : Layout :=
  { unmasked (.letters 'C' 'C' 'm' 'd') 16
      [⟨"destination", 0, none, u8⟩, ⟨"category", 1, none, u8⟩, ⟨"parameter", 2, none, u8⟩,
       ⟨"relative", 3, none, boolean⟩, ⟨"datatype", 4, none, u8⟩, ⟨"count_at_7", 7, none, u8⟩,
       ⟨"count_at_9", 9, none, u8⟩] with
    tail := some ⟨"data", some 8⟩ }

/-! ## downstream_keyer.py -/

/-- `DkeyOnairCommand` -/
def dkeyOnairCommand : Layout :=
  unmasked (.letters 'C' 'D' 's' 'L') 4 [⟨"index", 0, none, u8⟩, ⟨"on_air", 1, none, boolean⟩]

/-- `DkeyAutoCommand` -/
def dkeyAutoCommand : Layout :=
  unmasked (.letters 'D' 'D' 's' 'A') 4 [⟨"index", 0, none, u8⟩]

/-- `DkeyRateCommand` -/
def dkeyRateCommand : Layout :=
  unmasked (.letters 'C' 'D' 's' 'R') 4 [⟨"index", 0, none, u8⟩, ⟨"rate", 1, none, u8⟩]

/-- `DkeyTieCommand` -/
def dkeyTieCommand : Layout :=
  unmasked (.letters 'C' 'D' 's' 'T') 4 [⟨"index", 0, none, u8⟩, ⟨"tie", 1, none, boolean⟩]

/-- `DkeySetFillCommand` -/
def dkeySetFillCommand : Layout :=
  unmasked (.letters 'C' 'D' 's' 'F') 4 [⟨"index", 0, none, u8⟩, ⟨"source", 2, none, u16⟩]

/-- `DkeySetKeyCommand` -/
def dkeySetKeyCommand : Layout :=
  unmasked (.letters 'C' 'D' 's' 'C') 4 [⟨"index", 0, none, u8⟩, ⟨"source", 2, none, u16⟩]

/-- `DkeyGainCommand` -/
def dkeyGainCommand : Layout :=
  masked (.letters 'C' 'D' 's' 'G') 12 0 1
    [⟨"index", 1, none, u8⟩, ⟨"premultiplied", 2, some 0, boolean⟩, ⟨"clip", 4, some 1, u16⟩,
     ⟨"gain", 6, some 2, u16⟩, ⟨"invert", 8, some 3, boolean⟩]

/-- `DkeyMaskCommand` -/
def dkeyMaskCommand : Layout :=
  masked (.letters 'C' 'D' 's' 'M') 12 0 1
    [⟨"index", 1, none, u8⟩, ⟨"enabled", 2, some 0, boolean⟩, ⟨"top", 4, some 1, i16⟩,
     ⟨"bottom", 6, some 2, i16⟩, ⟨"left", 8, some 3, i16⟩, ⟨"right", 10, some 4, i16⟩]

/-! ## fade_to_black.py -/

/-- `FadeToBlackCommand` -/
def fadeToBlackCommand : Layout :=
  unmasked (.letters 'F' 't' 'b' 'A') 4 [⟨"index", 0, none, u8⟩]

/-- `FadeToBlackConfigCommand` -/
def fadeToBlackConfigCommand : Layout :=
  unmasked (.letters 'F' 't' 'b' 'C') 4
    [⟨"mask", 0, none, u8⟩, ⟨"index", 1, none, u8⟩, ⟨"frames", 2, none, u8⟩]

/-! ## fairlight.py -/

/-- `SendFairlightLevelsCommand` -/
def sendFairlightLevelsCommand : Layout :=
  unmasked (.letters 'S' 'F' 'L' 'N') 4 [⟨"enable", 0, none, boolean⟩]

/-! ## file_transfer.py -/

/-- `TransferDownloadRequestCommand` -/
def transferDownloadRequestCommand : Layout :=
  unmasked (.letters 'F' 'T' 'S' 'U') 12
    [⟨"transfer", 0, none, u16⟩, ⟨"store", 2, none, u16⟩, ⟨"slot", 4, none, u32⟩,
     ⟨"_u1", 8, none, u8⟩, ⟨"_u2", 9, none, u8⟩, ⟨"_u3", 10, none, u8⟩, ⟨"_u4", 11, none, u8⟩]

/-- `TransferUploadRequestCommand` -/
def transferUploadRequestCommand : Layout :=
  unmasked (.letters 'F' 'T' 'S' 'D') 16
    [⟨"transfer", 0, none, u16⟩, ⟨"store", 2, none, u16⟩, ⟨"slot", 6, none, u16⟩,
     ⟨"length", 8, none, u32⟩, ⟨"mode", 12, none, u16⟩]

/-- `TransferAckCommand` -/
def transferAckCommand : Layout :=
  unmasked (.letters 'F' 'T' 'U' 'A') 4 [⟨"transfer", 0, none, u16⟩, ⟨"slot", 2, none, u16⟩]

/-! ## input_video.py -/

/-- `VideoModeCommand` -/
def videoModeCommand : Layout :=
  unmasked (.letters 'C' 'V' 'd' 'M') 4 [⟨"mode", 0, none, u8⟩]

/-! ## lock.py -/

/-- `LockCommand` -/
def lockCommand : Layout :=
  unmasked (.letters 'L' 'O' 'C' 'K') 4 [⟨"store", 0, none, u16⟩, ⟨"state", 2, none, boolean⟩]

/-- `PartialLockCommand` -/
def partialLockCommand : Layout :=
  unmasked (.letters 'P' 'L' 'C' 'K') 8
    [⟨"store", 0, none, u16⟩, ⟨"slot", 2, none, u16⟩, ⟨"_const_ff", 4, none, u8⟩,
     ⟨"_const_01", 5, none, u8⟩]

/-! ## macros.py -/

/-- `MacroActionCommand` -/
def macroActionCommand : Layout :=
  unmasked (.letters 'M' 'A' 'c' 't') 4 [⟨"index", 0, none, u16⟩, ⟨"action", 2, none, u8⟩]

/-- `MacroSleepCommand` -/
def macroSleepCommand : Layout :=
  unmasked (.letters 'M' 'S' 'l' 'p') 4 [⟨"frames", 0, none, u32⟩]

/-! ## media.py -/

/-- `CaptureStillCommand` -/
def captureStillCommand : Layout :=
  unmasked (.letters 'C' 'a' 'p' 't') 0 []

/-- `ClearStillCommand` -/
def clearStillCommand : Layout :=
  unmasked (.letters 'C' 'S' 'T' 'L') 4 [⟨"slot", 0, none, u8⟩]

/-- `MediaplayerSelectCommand` -/
def mediaplayerSelectCommand : Layout :=
  unmasked (.letters 'M' 'P' 'S' 'S') 8
    [⟨"mask", 0, none, u8⟩, ⟨"index", 1, none, u8⟩, ⟨"source_type", 2, none, u8⟩,
     ⟨"still", 3, none, u8⟩, ⟨"clip", 4, none, u8⟩]

/-! ## multiviewer.py -/

/-- `MultiviewInputCommand` -/
def multiviewInputCommand : Layout :=
  unmasked (.letters 'C' 'M' 'v' 'I') 4
    [⟨"index", 0, none, u8⟩, ⟨"window", 1, none, u8⟩, ⟨"source", 2, none, u16⟩]

/-- `MultiviewPropertiesCommand` -/
def multiviewPropertiesCommand : Layout :=
  masked (.letters 'C' 'M' 'v' 'P') 4 0 1
    [⟨"index", 1, none, u8⟩, ⟨"layout", 2, some 0, u8⟩, ⟨"swap", 3, some 1, boolean⟩]

/-! ## recording.py -/

/-- `RecordingSettingsSetCommand` -/
def recordingSettingsSetCommand : Layout :=
  masked (.letters 'C' 'R' 'M' 'S') 144 0 1
    [⟨"filename", 1, some 0, .string 128⟩, ⟨"disk1", 132, some 1, u32⟩,
     ⟨"disk2", 136, some 2, u32⟩, ⟨"record_in_camera", 140, some 3, boolean⟩]

/-- `RecorderStatusCommand` -/
def recorderStatusCommand : Layout :=
  unmasked (.letters 'R' 'c' 'T' 'M') 4 [⟨"recording", 0, none, boolean⟩]

/-! ## streaming.py -/

/-- `StreamingServiceSetCommand` -/
def streamingServiceSetCommand : Layout :=
  masked (.letters 'C' 'R' 'S' 'S') 1100 0 1
    [⟨"name", 1, some 0, .string 64⟩, ⟨"url", 65, some 1, .string 512⟩,
     ⟨"key", 577, some 2, .string 512⟩, ⟨"bitrate_min", 1092, some 3, u32⟩,
     ⟨"bitrate_max", 1096, some 3, u32⟩]

/-- `StreamingAudioBitrateCommand` -/
def streamingAudioBitrateCommand : Layout :=
  unmasked (.letters 'S' 'T' 'A' 'B') 8
    [⟨"bitrate_min", 0, none, u32⟩, ⟨"bitrate_max", 4, none, u32⟩]

/-- `StreamingStatusSetCommand` -/
def streamingStatusSetCommand : Layout :=
  unmasked (.letters 'S' 't' 'r' 'R') 4 [⟨"streaming", 0, none, boolean⟩]

/-! ## supersource.py -/

/-- `SupersourceBoxPropertiesCommand` -/
def supersourceBoxPropertiesCommand : Layout :=
  masked (.letters 'C' 'S' 'B' 'P') 24 0 2
    [⟨"index", 2, none, u8⟩, ⟨"box", 3, none, u8⟩, ⟨"enabled", 4, some 0, boolean⟩,
     ⟨"source", 6, some 1, u16⟩, ⟨"x", 8, some 2, i16⟩, ⟨"y", 10, some 3, i16⟩,
     ⟨"size", 12, some 4, u16⟩, ⟨"masked", 14, some 5, boolean⟩, ⟨"top", 16, some 6, u16⟩,
     ⟨"bottom", 18, some 7, u16⟩, ⟨"left", 20, some 8, u16⟩, ⟨"right", 22, some 9, u16⟩]

/-- `SupersourcePropertiesCommand` -/
def supersourcePropertiesCommand : Layout :=
  masked (.letters 'C' 'S' 'S' 'c') 16 0 1
    [⟨"index", 1, none, u8⟩, ⟨"fill_source", 2, some 0, u16⟩, ⟨"key_source", 4, some 1, u16⟩,
     ⟨"layer", 6, some 2, u8⟩, ⟨"premultiplied", 7, some 3, boolean⟩, ⟨"clip", 8, some 4, u16⟩,
     ⟨"gain", 10, some 5, u16⟩, ⟨"invert", 12, some 6, boolean⟩]

/-! ## switching.py -/

/-- `CutCommand` -/
def cutCommand : Layout :=
  unmasked (.letters 'D' 'C' 'u' 't') 4 [⟨"index", 0, none, u8⟩]

/-- `AutoCommand` -/
def autoCommand : Layout :=
  unmasked (.letters 'D' 'A' 'u' 't') 4 [⟨"index", 0, none, u8⟩]

/-- `ProgramInputCommand` -/
def programInputCommand : Layout :=
  unmasked (.letters 'C' 'P' 'g' 'I') 4 [⟨"index", 0, none, u8⟩, ⟨"source", 2, none, u16⟩]

/-- `PreviewInputCommand` -/
def previewInputCommand : Layout :=
  unmasked (.letters 'C' 'P' 'v' 'I') 4 [⟨"index", 0, none, u8⟩, ⟨"source", 2, none, u16⟩]

/-- `AuxSourceCommand` -/
def auxSourceCommand : Layout :=
  unmasked (.letters 'C' 'A' 'u' 'S') 4
    [⟨"mask", 0, none, u8⟩, ⟨"index", 1, none, u8⟩, ⟨"source", 2, none, u16⟩]

/-! ## system_info.py -/

/-- `TimeRequestCommand` -/
def timeRequestCommand : Layout :=
  unmasked (.letters 'T' 'i' 'R' 'q') 0 []

/-- `AutoInputVideoModeCommand` -/
def autoInputVideoModeCommand : Layout :=
  unmasked (.letters 'A' 'i' 'V' 'M') 4 [⟨"enable", 0, none, boolean⟩]

/-- `SaveStartupStateCommand` -/
def saveStartupStateCommand : Layout :=
  unmasked (.letters 'S' 'R' 's' 'v') 4 []

/-- `ClearStartupStateCommand` -/
def clearStartupStateCommand : Layout :=
  unmasked (.letters 'S' 'R' 'c' 'l') 4 []

/-- `SetTimeOfDayCommand` -/
def setTimeOfDayCommand : Layout :=
  unmasked (.letters 'S' 'T' 'o' 'D') 8 [⟨"timestamp", 0, none, u32⟩]

/-! ## transition.py -/

/-- `TransitionSettingsCommand` -/
def transitionSettingsCommand : Layout :=
  masked (.letters 'C' 'T' 'T' 'p') 4 0 1
    [⟨"index", 1, none, u8⟩, ⟨"style", 2, some 0, u8⟩, ⟨"next_transition", 3, some 1, u8⟩]

/-- `MixSettingsCommand` -/
def mixSettingsCommand : Layout :=
  unmasked (.letters 'C' 'T' 'M' 'x') 4 [⟨"index", 0, none, u8⟩, ⟨"rate", 1, none, u8⟩]

/-- `DipSettingsCommand` -/
def dipSettingsCommand : Layout :=
  masked (.letters 'C' 'T' 'D' 'p') 8 0 1
    [⟨"index", 1, none, u8⟩, ⟨"rate", 2, some 0, u8⟩, ⟨"source", 4, some 1, u16⟩]

/-- `WipeSettingsCommand` -/
def wipeSettingsCommand : Layout :=
  masked (.letters 'C' 'T' 'W' 'p') 20 0 2
    [⟨"index", 2, none, u8⟩, ⟨"rate", 3, some 0, u8⟩, ⟨"pattern", 4, some 1, u8⟩,
     ⟨"width", 6, some 2, u16⟩, ⟨"source", 8, some 3, u16⟩, ⟨"symmetry", 10, some 4, u16⟩,
     ⟨"softness", 12, some 5, u16⟩, ⟨"positionx", 14, some 6, u16⟩,
     ⟨"positiony", 16, some 7, u16⟩, ⟨"reverse", 18, some 8, boolean⟩,
     ⟨"flipflop", 19, some 9, boolean⟩]

/-- `StingerSettingsCommand` -/
def stingerSettingsCommand : Layout :=
  masked (.letters 'C' 'T' 'S' 't') 20 0 2
    [⟨"index", 2, none, u8⟩, ⟨"mediaplayer", 3, some 0, u8⟩,
     ⟨"key_premultiplied", 4, some 1, boolean⟩, ⟨"key_clip", 6, some 2, u16⟩,
     ⟨"key_gain", 8, some 3, u16⟩, ⟨"key_invert", 10, some 4, boolean⟩,
     ⟨"preroll", 12, some 5, u16⟩, ⟨"duration", 14, some 6, u16⟩,
     ⟨"triggerpoint", 16, some 7, u16⟩, ⟨"rate", 18, some 8, u16⟩]

/-- `DveSettingsCommand` -/
def dveSettingsCommand : Layout :=
  masked (.letters 'C' 'T' 'D' 'v') 20 0 2
    [⟨"index", 2, none, u8⟩, ⟨"logo_rate", 3, some 0, u8⟩, ⟨"rate", 4, some 1, u8⟩,
     ⟨"style", 5, some 2, u8⟩, ⟨"fill_source", 6, some 3, u16⟩, ⟨"key_source", 8, some 4, u16⟩,
     ⟨"key_enable", 10, some 5, boolean⟩, ⟨"key_premultiplied", 11, some 6, boolean⟩,
     ⟨"key_clip", 12, some 7, u16⟩, ⟨"key_gain", 14, some 8, u16⟩,
     ⟨"key_invert", 16, some 9, boolean⟩, ⟨"reverse", 17, some 10, boolean⟩,
     ⟨"flipflop", 18, some 11, boolean⟩]

/-- `TransitionPreviewCommand` -/
def transitionPreviewCommand : Layout :=
  unmasked (.letters 'C' 'T' 'P' 'r') 4 [⟨"index", 0, none, u8⟩, ⟨"enabled", 1, none, boolean⟩]

/-- `TransitionPositionCommand` -/
def transitionPositionCommand : Layout :=
  unmasked (.letters 'C' 'T' 'P' 's') 4 [⟨"index", 0, none, u8⟩, ⟨"position", 2, none, u16⟩]

/-! ## upstream_keyer.py -/

/-- `KeyOnAirCommand` -/
def keyOnAirCommand : Layout :=
  unmasked (.letters 'C' 'K' 'O' 'n') 4
    [⟨"index", 0, none, u8⟩, ⟨"keyer", 1, none, u8⟩, ⟨"enabled", 2, none, boolean⟩]

/-- `KeyFillCommand` -/
def keyFillCommand : Layout :=
  unmasked (.letters 'C' 'K' 'e' 'F') 4
    [⟨"index", 0, none, u8⟩, ⟨"keyer", 1, none, u8⟩, ⟨"source", 2, none, u16⟩]

/-- `KeyCutCommand` -/
def keyCutCommand : Layout :=
  unmasked (.letters 'C' 'K' 'e' 'C') 4
    [⟨"index", 0, none, u8⟩, ⟨"keyer", 1, none, u8⟩, ⟨"source", 2, none, u16⟩]

/-- `KeyTypeCommand` -/
def keyTypeCommand : Layout :=
  masked (.letters 'C' 'K' 'T' 'p') 8 0 1
    [⟨"index", 1, none, u8⟩, ⟨"keyer", 2, none, u8⟩, ⟨"type", 3, some 0, u8⟩,
     ⟨"fly_enabled", 4, some 1, boolean⟩]

/-- `KeyPropertiesDveCommand` -/
def keyPropertiesDveCommand : Layout :=
  masked (.letters 'C' 'K' 'D' 'V') 64 0 4
    [⟨"index", 4, none, u8⟩, ⟨"keyer", 5, none, u8⟩, ⟨"size_x", 8, some 0, i32⟩,
     ⟨"size_y", 12, some 1, i32⟩, ⟨"pos_x", 16, some 2, i32⟩, ⟨"pos_y", 20, some 3, i32⟩,
     ⟨"rotation", 24, some 4, i32⟩, ⟨"border_enabled", 28, some 5, boolean⟩,
     ⟨"shadow_enabled", 29, some 6, boolean⟩, ⟨"border_bevel_enabled", 30, some 7, u8⟩,
     ⟨"outer_width", 32, some 8, u16⟩, ⟨"inner_width", 34, some 9, u16⟩,
     ⟨"outer_softness", 36, some 10, u8⟩, ⟨"inner_softness", 37, some 11, u8⟩,
     ⟨"bevel_softness", 38, some 12, u8⟩, ⟨"bevel_position", 39, some 13, u8⟩,
     ⟨"border_opacity", 40, some 14, u8⟩, ⟨"border_hue", 42, some 15, u16⟩,
     ⟨"border_saturation", 44, some 16, u16⟩, ⟨"border_luma", 46, some 17, u16⟩,
     ⟨"angle", 48, some 18, u16⟩, ⟨"altitude", 50, some 19, u8⟩,
     ⟨"mask_enabled", 51, some 20, boolean⟩, ⟨"mask_top", 52, some 21, i16⟩,
     ⟨"mask_bottom", 54, some 22, i16⟩, ⟨"mask_left", 56, some 23, i16⟩,
     ⟨"mask_right", 58, some 24, i16⟩, ⟨"rate", 60, some 25, u8⟩]

/-- `KeyPropertiesMaskCommand` -/
def keyPropertiesMaskCommand : Layout :=
  masked (.letters 'C' 'K' 'M' 's') 12 0 1
    [⟨"index", 1, none, u8⟩, ⟨"keyer", 2, none, u8⟩, ⟨"enabled", 3, some 0, boolean⟩,
     ⟨"top", 4, some 1, i16⟩, ⟨"bottom", 6, some 2, i16⟩, ⟨"left", 8, some 3, i16⟩,
     ⟨"right", 10, some 4, i16⟩]

/-- `KeyPropertiesPatternCommand` -/
def keyPropertiesPatternCommand : Layout :=
  masked (.letters 'C' 'K' 'P' 't') 16 0 1
    [⟨"index", 1, none, u8⟩, ⟨"keyer", 2, none, u8⟩, ⟨"pattern", 3, some 0, u8⟩,
     ⟨"size", 4, some 1, u16⟩, ⟨"symmetry", 6, some 2, u16⟩, ⟨"softness", 8, some 3, u16⟩,
     ⟨"position_x", 10, some 4, u16⟩, ⟨"position_y", 12, some 5, u16⟩,
     ⟨"invert_pattern", 14, some 6, boolean⟩]

/-- `KeyPropertiesAdvancedChromaColorpickerCommand` -/
def keyPropertiesAdvancedChromaColorpickerCommand : Layout :=
  masked (.letters 'C' 'A' 'C' 'C') 20 0 1
    [⟨"index", 1, none, u8⟩, ⟨"keyer", 2, none, u8⟩, ⟨"cursor", 3, some 0, boolean⟩,
     ⟨"preview", 4, some 1, boolean⟩, ⟨"x", 6, some 2, i16⟩, ⟨"y", 8, some 3, i16⟩,
     ⟨"size", 10, some 4, u16⟩, ⟨"Y", 12, some 5, u16⟩, ⟨"Cb", 14, some 6, i16⟩,
     ⟨"Cr", 16, some 7, i16⟩]

/-- `KeyPropertiesAdvancedChromaCommand` -/
def keyPropertiesAdvancedChromaCommand : Layout :=
  masked (.letters 'C' 'A' 'C' 'K') 28 0 2
    [⟨"index", 2, none, u8⟩, ⟨"keyer", 3, none, u8⟩, ⟨"foreground", 4, some 0, u16⟩,
     ⟨"background", 6, some 1, u16⟩, ⟨"key_edge", 8, some 2, u16⟩, ⟨"spill", 10, some 3, u16⟩,
     ⟨"flare", 12, some 4, u16⟩, ⟨"brightness", 14, some 5, i16⟩, ⟨"contrast", 16, some 6, i16⟩,
     ⟨"saturation", 18, some 7, u16⟩, ⟨"red", 20, some 8, i16⟩, ⟨"green", 22, some 9, i16⟩,
     ⟨"blue", 24, some 10, i16⟩]

/-- `KeyPropertiesLumaCommand` -/
def keyPropertiesLumaCommand : Layout :=
  masked (.letters 'C' 'K' 'L' 'm') 12 0 1
    [⟨"index", 1, none, u8⟩, ⟨"keyer", 2, none, u8⟩, ⟨"premultiplied", 3, some 0, boolean⟩,
     ⟨"clip", 4, some 1, u16⟩, ⟨"gain", 6, some 2, u16⟩, ⟨"invert_key", 8, some 3, boolean⟩]

/-- `KeyerKeyframeSetCommand` -/
def keyerKeyframeSetCommand : Layout :=
  unmasked (.letters 'S' 'F' 'K' 'F') 4
    [⟨"index", 0, none, u8⟩, ⟨"keyer", 1, none, u8⟩, ⟨"keyframe", 2, none, u8⟩]

/-- `KeyerKeyframeRunCommand` -/
def keyerKeyframeRunCommand : Layout :=
  masked (.letters 'R' 'F' 'l' 'K') 8 0 1
    [⟨"index", 1, none, u8⟩, ⟨"keyer", 2, none, u8⟩, ⟨"run_to", 4, none, u8⟩,
     ⟨"direction", 5, some 1, u8⟩]
/-! ## All of them -/

/-- The commands whose numbers have no scale. -/
def unscaled : List Layout :=
  [audioInputCommand, audioMasterPropertiesCommand, audioMonitorPropertiesCommand,
   sendAudioLevelsCommand, cameraControlCommand, dkeyOnairCommand, dkeyAutoCommand,
   dkeyRateCommand, dkeyTieCommand, dkeySetFillCommand, dkeySetKeyCommand, dkeyGainCommand,
   dkeyMaskCommand, fadeToBlackCommand, fadeToBlackConfigCommand, sendFairlightLevelsCommand,
   transferDownloadRequestCommand, transferUploadRequestCommand, transferAckCommand,
   videoModeCommand, lockCommand, partialLockCommand, macroActionCommand, macroSleepCommand,
   captureStillCommand, clearStillCommand, mediaplayerSelectCommand, multiviewInputCommand,
   multiviewPropertiesCommand, recordingSettingsSetCommand, recorderStatusCommand,
   streamingServiceSetCommand, streamingAudioBitrateCommand, streamingStatusSetCommand,
   supersourceBoxPropertiesCommand, supersourcePropertiesCommand, cutCommand, autoCommand,
   programInputCommand, previewInputCommand, auxSourceCommand, timeRequestCommand,
   autoInputVideoModeCommand, saveStartupStateCommand, clearStartupStateCommand,
   setTimeOfDayCommand, transitionSettingsCommand, mixSettingsCommand, dipSettingsCommand,
   wipeSettingsCommand, stingerSettingsCommand, dveSettingsCommand, transitionPreviewCommand,
   transitionPositionCommand, keyOnAirCommand, keyFillCommand, keyCutCommand, keyTypeCommand,
   keyPropertiesDveCommand, keyPropertiesMaskCommand, keyPropertiesPatternCommand,
   keyPropertiesAdvancedChromaColorpickerCommand, keyPropertiesAdvancedChromaCommand,
   keyPropertiesLumaCommand, keyerKeyframeSetCommand, keyerKeyframeRunCommand]

end Commands

end Bmdwire
