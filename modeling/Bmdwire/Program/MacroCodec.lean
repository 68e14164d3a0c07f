import Bmdwire.Program.MacroSwitching
import Bmdwire.Program.MacroUpstreamKeyer
import Bmdwire.Program.MacroDownstreamKeyer
import Bmdwire.Program.MacroFairlight
import Bmdwire.Program.MacroMedia

/-!
# The macro codec

`macrotransfer/__init__.py`: the table of known ops, `decode_macro_bytecode` and
`encode_macro_bytecode`.
-/

set_option autoImplicit false
set_option maxRecDepth 2000

namespace Bmdwire.Macros

open Library

/-- `_KNOWN_OPS`. -/
def knownOps : List KnownOp :=
  [⟨0x0002, "ProgramInput", dProgramInput, eProgramInput⟩,
   ⟨0x0003, "PreviewInput", dPreviewInput, ePreviewInput⟩,
   ⟨0x0004, "Cut", dCut, eCut⟩,
   ⟨0x0005, "Auto", dAuto, eAuto⟩,
   ⟨0x000C, "VideoMode", dVideoMode, eVideoMode⟩,
   ⟨0x0202, "FadeToBlackEnabled", dFtbEnabled, eFtbEnabled⟩,
   ⟨0x00A7, "FadeToBlack", dFadeToBlack, eFadeToBlack⟩,
   ⟨0x0083, "TransitionStyle", dTransitionStyle, eTransitionStyle⟩,
   ⟨0x0084, "TransitionSource", dTransitionSource, eTransitionSource⟩,
   ⟨0x0007, "MacroSleep", dMacroSleep, eMacroSleep⟩,
   ⟨0x001F, "AuxiliaryInput", dAuxiliaryInput, eAuxiliaryInput⟩,
   ⟨0x0025, "KeyCutInput", dKeyCutInput, eKeyCutInput⟩,
   ⟨0x0026, "KeyFillInput", dKeyFillInput, eKeyFillInput⟩,
   ⟨0x0027, "KeyOnAir", dKeyOnAir, eKeyOnAir⟩,
   ⟨0x0028, "KeyType", dKeyType, eKeyType⟩,
   ⟨0x0029, "LumaKeyClip", dLumaKeyClip, eLumaKeyClip⟩,
   ⟨0x002A, "LumaKeyGain", dLumaKeyGain, eLumaKeyGain⟩,
   ⟨0x002B, "KeyFlyEnable", dKeyFlyEnable, eKeyFlyEnable⟩,
   ⟨0x002C, "LumaKeyInvert", dLumaKeyInvert, eLumaKeyInvert⟩,
   ⟨0x002D, "LumaKeyPreMultiply", dLumaKeyPreMultiply, eLumaKeyPreMultiply⟩,
   ⟨0x002F, "KeyMaskEnable", dKeyMaskEnable, eKeyMaskEnable⟩,
   ⟨0x0035, "DVEKeyMaskEnable", dDveMaskEnable, eDveMaskEnable⟩,
   ⟨0x0036, "DVEKeyMaskTop", dDveMaskTop, eDveMaskTop⟩,
   ⟨0x0037, "DVEKeyMaskBottom", dDveMaskBottom, eDveMaskBottom⟩,
   ⟨0x0038, "DVEKeyMaskLeft", dDveMaskLeft, eDveMaskLeft⟩,
   ⟨0x0039, "DVEKeyMaskRight", dDveMaskRight, eDveMaskRight⟩,
   ⟨0x0047, "DVEAndFlyKeyXSize", dDveXsize, eDveXsize⟩,
   ⟨0x0048, "DVEAndFlyKeyYSize", dDveYsize, eDveYsize⟩,
   ⟨0x004A, "DVEAndFlyKeyXPosition", dDveXpos, eDveXpos⟩,
   ⟨0x004B, "DVEAndFlyKeyYPosition", dDveYpos, eDveYpos⟩,
   ⟨0x0096, "DownstreamKeyFillInput", dDskFillInput, eDskFillInput⟩,
   ⟨0x0097, "DownstreamKeyCutInput", dDskCutInput, eDskCutInput⟩,
   ⟨0x0098, "DownstreamKeyRate", dDskRate, eDskRate⟩,
   ⟨0x0099, "DownstreamKeyAuto", dDskAuto, eDskAuto⟩,
   ⟨0x009A, "DownstreamKeyOnAir", dDskOnAir, eDskOnAir⟩,
   ⟨0x009B, "DownstreamKeyTie", dDskTie, eDskTie⟩,
   ⟨0x009C, "DownstreamKeyClip", dDskClip, eDskClip⟩,
   ⟨0x009D, "DownstreamKeyGain", dDskGain, eDskGain⟩,
   ⟨0x009E, "DownstreamKeyMaskEnable", dDskMaskEnable, eDskMaskEnable⟩,
   ⟨0x00A4, "DownstreamKeyPreMultiply", dDskPreMultiply, eDskPreMultiply⟩,
   ⟨0x00DA, "MediaPlayerSourceStillIndex", dMediaPlayerStillIndex, eMediaPlayerStillIndex⟩,
   ⟨0x00E1, "MediaPlayerSourceStill", dMediaPlayerStillOnly, eMediaPlayerStillOnly⟩,
   ⟨0x014A, "FairlightAudioMixerInputSourceMixType",
     dFairlightStripMixType, eFairlightStripMixType⟩,
   ⟨0x014B, "FairlightAudioMixerInputSourceFaderGain",
     dFairlightStripFaderGain, eFairlightStripFaderGain⟩,
   ⟨0x016B, "FairlightAudioMixerMasterOutFaderGain",
     dFairlightMasterFaderGain, eFairlightMasterFaderGain⟩,
   ⟨0x0087, "TransitionMixRate", dTransitionMixRate, eTransitionMixRate⟩,
   ⟨0x0088, "TransitionDipRate", dTransitionDipRate, eTransitionDipRate⟩,
   ⟨0x0089, "TransitionDipInput", dTransitionDipInput, eTransitionDipInput⟩,
   ⟨0x007C, "TransitionWipeRate", dTransitionWipeRate, eTransitionWipeRate⟩,
   ⟨0x007D, "TransitionWipePattern", dTransitionWipePattern, eTransitionWipePattern⟩,
   ⟨0x007E, "TransitionWipeBorderWidth", dTransitionWipeBorderWidth, eTransitionWipeBorderWidth⟩,
   ⟨0x007F, "TransitionWipeBorderSoftness",
     dTransitionWipeBorderSoftness, eTransitionWipeBorderSoftness⟩,
   ⟨0x0080, "TransitionWipeBorderFillInput",
     dTransitionWipeBorderFillInput, eTransitionWipeBorderFillInput⟩,
   ⟨0x0081, "TransitionWipeAndDVEReverse", dTransitionWipeDveReverse, eTransitionWipeDveReverse⟩,
   ⟨0x0082, "TransitionWipeAndDVEFlipFlop", dTransitionWipeDveFlipflop, eTransitionWipeDveFlipflop⟩,
   ⟨0x0015, "TransitionWipeXPosition", dTransitionWipeXPosition, eTransitionWipeXPosition⟩,
   ⟨0x0016, "TransitionWipeYPosition", dTransitionWipeYPosition, eTransitionWipeYPosition⟩,
   ⟨0x003A, "TransitionDVERate", dTransitionDveRate, eTransitionDveRate⟩,
   ⟨0x0034, "TransitionDVEPattern", dTransitionDvePattern, eTransitionDvePattern⟩,
   ⟨0x00D7, "TransitionDVEFillInput", dTransitionDveFillInput, eTransitionDveFillInput⟩,
   ⟨0x00D8, "TransitionDVECutInput", dTransitionDveCutInput, eTransitionDveCutInput⟩,
   ⟨0x00D9, "TransitionDVECutInputEnable",
     dTransitionDveCutInputEnable, eTransitionDveCutInputEnable⟩,
   ⟨0x008C, "TransitionStingerSourceMediaPlayer",
     dTransitionStingerSourceMediaplayer, eTransitionStingerSourceMediaplayer⟩,
   ⟨0x008D, "TransitionStingerClipDuration",
     dTransitionStingerClipDuration, eTransitionStingerClipDuration⟩,
   ⟨0x008E, "TransitionStingerTriggerPoint",
     dTransitionStingerTriggerPoint, eTransitionStingerTriggerPoint⟩,
   ⟨0x008F, "TransitionStingerMixRate", dTransitionStingerMixRate, eTransitionStingerMixRate⟩,
   ⟨0x0090, "TransitionStingerPreRoll", dTransitionStingerPreRoll, eTransitionStingerPreRoll⟩,
   ⟨0x0092, "TransitionStingerDVEClip", dTransitionStingerDveClip, eTransitionStingerDveClip⟩,
   ⟨0x0093, "TransitionStingerDVEGain", dTransitionStingerDveGain, eTransitionStingerDveGain⟩,
   ⟨0x0094, "TransitionStingerDVEInvert", dTransitionStingerDveInvert, eTransitionStingerDveInvert⟩,
   ⟨0x0095, "TransitionStingerDVEPreMultiply",
     dTransitionStingerDvePremultiply, eTransitionStingerDvePremultiply⟩,
   ⟨0x001C, "ColorGeneratorHue", dColorGenHue, eColorGenHue⟩,
   ⟨0x001D, "ColorGeneratorSaturation", dColorGenSaturation, eColorGenSaturation⟩,
   ⟨0x001E, "ColorGeneratorLuminescence", dColorGenLuminescence, eColorGenLuminescence⟩,
   ⟨0x00A5, "FadeToBlackRate", dFtbRate, eFtbRate⟩,
   ⟨0x0030, "KeyMaskTop", dUskMaskTop, eUskMaskTop⟩,
   ⟨0x0031, "KeyMaskBottom", dUskMaskBottom, eUskMaskBottom⟩,
   ⟨0x0032, "KeyMaskLeft", dUskMaskLeft, eUskMaskLeft⟩,
   ⟨0x0033, "KeyMaskRight", dUskMaskRight, eUskMaskRight⟩,
   ⟨0x0046, "DVEAndFlyKeyRate", dDveFlykeyRate, eDveFlykeyRate⟩,
   ⟨0x004E, "DVEKeyBorderEnable", dDveBorderEnable, eDveBorderEnable⟩,
   ⟨0x005A, "DVEKeyBorderHue", dDveBorderHue, eDveBorderHue⟩,
   ⟨0x005B, "DVEKeyBorderSaturation", dDveBorderSaturation, eDveBorderSaturation⟩,
   ⟨0x005C, "DVEKeyBorderLuminescence", dDveBorderLuminescence, eDveBorderLuminescence⟩,
   ⟨0x005E, "DVEKeyBorderOuterWidth", dDveBorderOuterWidth, eDveBorderOuterWidth⟩,
   ⟨0x005F, "DVEKeyBorderInnerWidth", dDveBorderInnerWidth, eDveBorderInnerWidth⟩,
   ⟨0x0060, "DVEKeyBorderOuterSoftness", dDveBorderOuterSoftness, eDveBorderOuterSoftness⟩,
   ⟨0x0061, "DVEKeyBorderInnerSoftness", dDveBorderInnerSoftness, eDveBorderInnerSoftness⟩,
   ⟨0x0062, "DVEKeyBorderOpacity", dDveBorderOpacity, eDveBorderOpacity⟩,
   ⟨0x004D, "DVEKeyShadowEnable", dDveShadowEnable, eDveShadowEnable⟩,
   ⟨0x0058, "DVEKeyShadowDirection", dDveShadowDirection, eDveShadowDirection⟩,
   ⟨0x0059, "DVEKeyShadowAltitude", dDveShadowAltitude, eDveShadowAltitude⟩,
   ⟨0x012C, "AdvancedChromaKeyForegroundLevel", dAckForegroundLevel, eAckForegroundLevel⟩,
   ⟨0x012D, "AdvancedChromaKeyBackgroundLevel", dAckBackgroundLevel, eAckBackgroundLevel⟩,
   ⟨0x012E, "AdvancedChromaKeyKeyEdge", dAckKeyEdge, eAckKeyEdge⟩,
   ⟨0x012F, "AdvancedChromaKeySpillSuppress", dAckSpillSuppress, eAckSpillSuppress⟩,
   ⟨0x0130, "AdvancedChromaKeyFlareSuppress", dAckFlareSuppress, eAckFlareSuppress⟩,
   ⟨0x0131, "AdvancedChromaKeyForegroundBrightness",
     dAckForegroundBrightness, eAckForegroundBrightness⟩,
   ⟨0x0132, "AdvancedChromaKeyForegroundContrast", dAckForegroundContrast, eAckForegroundContrast⟩,
   ⟨0x0133, "AdvancedChromaKeyForegroundColour", dAckForegroundColour, eAckForegroundColour⟩,
   ⟨0x0134, "AdvancedChromaKeyForegroundRed", dAckForegroundRed, eAckForegroundRed⟩,
   ⟨0x0135, "AdvancedChromaKeyForegroundGreen", dAckForegroundGreen, eAckForegroundGreen⟩,
   ⟨0x0136, "AdvancedChromaKeyForegroundBlue", dAckForegroundBlue, eAckForegroundBlue⟩,
   ⟨0x0137, "AdvancedChromaKeySamplingModeEnabled",
     dAckSamplingModeEnabled, eAckSamplingModeEnabled⟩,
   ⟨0x0138, "AdvancedChromaKeyPreviewEnabled", dAckPreviewEnabled, eAckPreviewEnabled⟩,
   ⟨0x0139, "AdvancedChromaKeyCursorXPosition", dAckCursorX, eAckCursorX⟩,
   ⟨0x013A, "AdvancedChromaKeyCursorYPosition", dAckCursorY, eAckCursorY⟩,
   ⟨0x013B, "AdvancedChromaKeyCursorSize", dAckCursorSize, eAckCursorSize⟩,
   ⟨0x0050, "FlyKeySetKeyFrame", dFlykeySetKeyframe, eFlykeySetKeyframe⟩,
   ⟨0x0052, "FlyKeyRunToFull", dFlykeyRunToFull, eFlykeyRunToFull⟩,
   ⟨0x0054, "FlyKeyRunToKeyFrame", dFlykeyRunToKeyframe, eFlykeyRunToKeyframe⟩,
   ⟨0x0056, "FlyKeyRunToInfinity", dFlykeyRunToInfinity, eFlykeyRunToInfinity⟩,
   ⟨0x014D, "FairlightAudioMixerInputSourceEqualiserGain", dEqGain, eEqGain⟩,
   ⟨0x014E, "FairlightAudioMixerInputSourceEqualiserBandEnabled", dEqBandEnabled, eEqBandEnabled⟩,
   ⟨0x014F, "FairlightAudioMixerInputSourceEqualiserBandShape", dEqBandShape, eEqBandShape⟩,
   ⟨0x0150, "FairlightAudioMixerInputSourceEqualiserBandRange", dEqBandRange, eEqBandRange⟩,
   ⟨0x0151, "FairlightAudioMixerInputSourceEqualiserBandFrequency",
     dEqBandFrequency, eEqBandFrequency⟩,
   ⟨0x0152, "FairlightAudioMixerInputSourceEqualiserBandGain", dEqBandGain, eEqBandGain⟩,
   ⟨0x0153, "FairlightAudioMixerInputSourceEqualiserBandQFactor", dEqBandQfactor, eEqBandQfactor⟩,
   ⟨0x0147, "FairlightAudioMixerInputSourceInputGain", dInputGain, eInputGain⟩,
   ⟨0x0156, "FairlightAudioMixerInputSourceDynamicsGain", dDynamicsGain, eDynamicsGain⟩,
   ⟨0x0157, "FairlightAudioMixerInputSourceExpanderEnabled", dExpanderEnabled, eExpanderEnabled⟩,
   ⟨0x0158, "FairlightAudioMixerInputSourceExpanderGateModeEnabled",
     dExpanderGateModeEnabled, eExpanderGateModeEnabled⟩,
   ⟨0x0159, "FairlightAudioMixerInputSourceExpanderThreshold",
     dExpanderThreshold, eExpanderThreshold⟩,
   ⟨0x015A, "FairlightAudioMixerInputSourceExpanderRange", dExpanderRange, eExpanderRange⟩,
   ⟨0x015B, "FairlightAudioMixerInputSourceExpanderRatio", dExpanderRatio, eExpanderRatio⟩,
   ⟨0x015C, "FairlightAudioMixerInputSourceExpanderAttack", dExpanderAttack, eExpanderAttack⟩,
   ⟨0x015D, "FairlightAudioMixerInputSourceExpanderHold", dExpanderHold, eExpanderHold⟩,
   ⟨0x015E, "FairlightAudioMixerInputSourceExpanderRelease", dExpanderRelease, eExpanderRelease⟩,
   ⟨0x015F, "FairlightAudioMixerInputSourceCompressorEnabled", dCompEnabled, eCompEnabled⟩,
   ⟨0x0160, "FairlightAudioMixerInputSourceCompressorThreshold", dCompThreshold, eCompThreshold⟩,
   ⟨0x0161, "FairlightAudioMixerInputSourceCompressorRatio", dCompRatio, eCompRatio⟩,
   ⟨0x0162, "FairlightAudioMixerInputSourceCompressorAttack", dCompAttack, eCompAttack⟩,
   ⟨0x0163, "FairlightAudioMixerInputSourceCompressorHold", dCompHold, eCompHold⟩,
   ⟨0x0164, "FairlightAudioMixerInputSourceCompressorRelease", dCompRelease, eCompRelease⟩,
   ⟨0x0165, "FairlightAudioMixerInputSourceLimiterEnabled", dLimiterEnabled, eLimiterEnabled⟩,
   ⟨0x0166, "FairlightAudioMixerInputSourceLimiterThreshold", dLimiterThreshold, eLimiterThreshold⟩,
   ⟨0x0167, "FairlightAudioMixerInputSourceLimiterAttack", dLimiterAttack, eLimiterAttack⟩,
   ⟨0x0168, "FairlightAudioMixerInputSourceLimiterHold", dLimiterHold, eLimiterHold⟩,
   ⟨0x0169, "FairlightAudioMixerInputSourceLimiterRelease", dLimiterRelease, eLimiterRelease⟩,
   ⟨0x0184, "FairlightAudioMixerHeadphoneOutGain", dHpGain, eHpGain⟩,
   ⟨0x0185, "FairlightAudioMixerHeadphoneOutMasterGain", dHpGain, eHpGain⟩,
   ⟨0x0186, "FairlightAudioMixerHeadphoneOutTalkbackGain", dHpGain, eHpGain⟩,
   ⟨0x0187, "FairlightAudioMixerHeadphoneOutSidetoneGain", dHpGain, eHpGain⟩,
   ⟨0x0110, "HyperDeckNetworkAddress", dHdNetworkAddress, eHdNetworkAddress⟩,
   ⟨0x011A, "HyperDeckInput", dHdInput, eHdInput⟩]

/-- `_ENCODE_BY_ID`: the ids of the table are distinct. -/
def encodeById : List (String × ℕ × Encoder) :=
  knownOps.map fun row => (row.id, row.code, row.encode)

/-! ## Decoding -/

/-- `f'Unknown_0x{op_type:04x}'`. -/
def unknownId (opType : ℕ) : String := "Unknown_0x" ++ String.ofList (padded 16 4 opType)

/-- `params.hex()`. -/
def hex (params : Bytes) : String := String.ofList (toHex params)

/-- One op: a decoder's exception leaves the parameters undecoded, with its text beside them. -/
def decodeOp (opType : ℕ) (params : Bytes) : Op :=
  match knownOps.find? (·.code = opType) with
  | some row =>
    match row.decode params with
    | .ok attrs => ⟨row.id, attrs⟩
    | .error text => ⟨unknownId opType, [("rawParams", hex params), ("decodeError", text)]⟩
  | none => ⟨unknownId opType, [("rawParams", hex params)]⟩

/-- What stands at the front of the bytecode that is left. -/
inductive Frame
  | finished
  | op (opType : ℕ) (params rest : Bytes)
  /-- fewer than the four octets of a header -/
  | truncated
  /-- a length that does not even have room for the header -/
  | bogus (opLen : ℕ)
  | overruns (opLen : ℕ)
deriving DecidableEq, Repr

def nextFrame (raw : Bytes) : Frame :=
  match raw with
  | [] => .finished
  | a :: b :: c :: d :: more =>
    let opLen := a.toNat + 256 * b.toNat
    let opType := c.toNat + 256 * d.toNat
    if opLen < 4 then .bogus opLen
    else if opLen > raw.length then .overruns opLen
    else .op opType (more.take (opLen - 4)) (more.drop (opLen - 4))
  | _ => .truncated

/-- The loop of `decode_macro_bytecode`, so many ops at most; it stops at the first frame that
is not whole. -/
def decodeFrom : ℕ → Bytes → List Op
  | 0, _ => []
  | fuel + 1, raw =>
    match nextFrame raw with
    | .op opType params rest => decodeOp opType params :: decodeFrom fuel rest
    | .finished | .truncated | .bogus _ | .overruns _ => []

/-- There are never more ops than octets. -/
def decodeMacroBytecode (raw : Bytes) : List Op := decodeFrom raw.length raw

/-! ## Encoding -/

/-- The header, whose numbers `struct.pack` takes only below `0x10000`, and the parameters. -/
def packOp (opCode : ℤ) (params : Bytes) : Except EncodeError Bytes := do
  let opLen ← packU16 (4 + params.length)
  return opLen ++ (← packU16 opCode) ++ params

def encodeUnknown (id : String) (digits : List Char) (attrs : Attrs) :
    Except EncodeError Bytes :=
  match parseInt 16 digits with
  | none => .error (.malformedId id)
  | some opCode =>
    match fromHex ((attrs.lookup "rawParams").getD "").toList with
    | none => .error (.malformedParams id)
    | some params => packOp opCode params

def encodeSingleOp (op : Op) : Except EncodeError Bytes :=
  match afterPrefix "Unknown_0x".toList op.id.toList with
  | some digits => encodeUnknown op.id digits op.attrs
  | none =>
    match encodeById.lookup op.id with
    | none => .error (.noEncoder op.id)
    | some (opCode, encoder) => do packOp opCode (← encoder op.attrs)

def encodeMacroBytecode : List Op → Except EncodeError Bytes
  | [] => .ok []
  | op :: ops => do
    let first ← encodeSingleOp op
    return first ++ (← encodeMacroBytecode ops)

end Bmdwire.Macros
