import Bmdwire.Analysis.SectionRestores
import Bmdwire.Program.MixEffectSections

/-!
# What is put back of a mix effect

The settings of a mix effect, read of the elements they were saved in, send the numbers that were
reported. A number without a name is put back as that of the name it was saved by, and a next
transition of no layer as that of the background.
-/

set_option autoImplicit false

namespace Bmdwire.Profile

open Library
open Macros (ErrorType)
open Rates (intText)

/-! ## Names -/

theorem lookup_of_mem {α β : Type} [BEq α] [LawfulBEq α] {l : List (α × β)} {a : α} {b : β}
    (hnodup : (l.map Prod.fst).Nodup) (hmem : (a, b) ∈ l) : l.lookup a = some b := by
  obtain ⟨before, after, rfl⟩ := List.append_of_mem hmem
  rw [List.lookup_eq_some_iff]
  refine ⟨before, after, rfl, fun p hp => ?_⟩
  rw [bne_iff_ne]
  rintro rfl
  rw [List.map_append, List.map_cons, List.nodup_append] at hnodup
  exact hnodup.2.2 _ (List.mem_map_of_mem hp) _ List.mem_cons_self rfl

/-- A number that has a name comes back, and another as that of the name it is given. -/
theorem sentFor_named {names : List (ℤ × Text)} (hkeys : (names.map Prod.fst).Nodup)
    (hnames : (names.map Prod.snd).Nodup) (other missing : Text) (default w : ℤ) :
    sentFor (.named names other) (.named (names.map Prod.swap) missing default) .int w =
      if w ∈ names.map Prod.fst then w
      else ((names.map Prod.swap).lookup other).getD default := by
  show ((names.map Prod.swap).lookup ((names.lookup w).getD other)).getD default = _
  split_ifs with hw
  · obtain ⟨p, hp, rfl⟩ := List.mem_map.mp hw
    have hswapped : ((names.map Prod.swap).map Prod.fst).Nodup := by
      rwa [List.map_map]
    rw [lookup_of_mem hkeys hp]
    exact congrArg (Option.getD · default) (lookup_of_mem hswapped (List.mem_map_of_mem hp))
  · have hnone : names.lookup w = none := by
      rw [List.lookup_eq_none_iff]
      intro p hp
      rw [bne_iff_ne]
      rintro rfl
      exact hw (List.mem_map_of_mem hp)
    rw [hnone]
    rfl

/-- A number beyond a list of names comes back as its remainder. -/
theorem sentFor_cyclic {names : List Text} (hnames : names.Nodup) (hne : names ≠ [])
    (missing : Text) (default w : ℤ) :
    sentFor (.cyclic names) (.named (names.zipIdx.map fun p => (p.1, (p.2 : ℤ))) missing default)
      .int w = w % names.length := by
  have hpos : 0 < (names.length : ℤ) := by
    have := List.length_pos_iff.mpr hne
    omega
  obtain ⟨i, hi⟩ := Int.eq_ofNat_of_zero_le (Int.emod_nonneg w hpos.ne')
  have hlt : i < names.length := by
    have := Int.emod_lt_of_pos w hpos
    omega
  have hname : names.getD (w % names.length).toNat [] = names[i] := by
    rw [hi, Int.toNat_natCast, List.getD_eq_getElem _ _ hlt]
  have hkeys : ((names.zipIdx.map fun p => (p.1, (p.2 : ℤ))).map Prod.fst).Nodup := by
    rw [List.map_map]
    have hfst : names.zipIdx.map (Prod.fst ∘ fun p : Text × ℕ => (p.1, (p.2 : ℤ))) = names :=
      List.zipIdx_map_fst 0 names
    rwa [hfst]
  have hmem : (names[i], (i : ℤ)) ∈ names.zipIdx.map fun p => (p.1, (p.2 : ℤ)) :=
    List.mem_map.mpr ⟨(names[i], i),
      List.mk_mem_zipIdx_iff_getElem?.mpr (List.getElem?_eq_getElem hlt), rfl⟩
  show (List.lookup (names.getD (w % names.length).toNat []) _).getD default = _
  rw [hname, lookup_of_mem hkeys hmem, hi]
  rfl

/-- The layers are five bits of an octet. -/
theorem testBit_octet (n : ℕ) :
    (List.range 5).map n.testBit = (List.range 5).map (n % 32).testBit := by
  apply List.map_congr_left
  intro k hk
  have hsmall : k < 5 := List.mem_range.mp hk
  rw [show 32 = 2 ^ 5 from rfl, Nat.testBit_mod_two_pow, decide_eq_true hsmall, Bool.true_and]

/-- The layers of an octet come back, and the background for none. -/
theorem transitionMask_back (n : ℕ) :
    transitionMask (strToNextTransition (nextTransitionToStr ((List.range 5).map n.testBit))) =
      if n % 32 = 0 then 1 else (n : ℤ) % 32 := by
  have hback : ∀ n < 32, transitionMask (strToNextTransition (nextTransitionToStr
      ((List.range 5).map (n : ℕ).testBit))) = if n = 0 then 1 else (n : ℤ) := by
    decide +kernel
  rw [testBit_octet, hback _ (Nat.mod_lt n (by decide))]
  push_cast
  rfl

/-- What is saved of the style of transitions. -/
def transitionAttributes : List (String × Reader) :=
  [("style", Readers.transitionStyle), ("nextStyle", Readers.transitionStyle)]

/-- What is saved of fade to black. -/
def ftbAttributes : List (String × Reader) :=
  [("rate", Readers.ftbRate), ("isFullyBlack", Readers.ftbActive)]

/-- A style without a name is that of the mix. -/
def keptStyle (w : ℤ) : ℤ := if w ≤ 4 then w else 0

/-- An effect without a name is the first of those that have one. -/
def keptEffect (w : ℤ) : ℤ := if 16 ≤ w ∧ w ≤ 31 then w else 16

theorem kept_style {w : ℤ} (hw : 0 ≤ w) :
    sentFor (.named transStyleNames "Mix".toList) (.named transStyleToInt "Mix".toList 0) .int w =
      keptStyle w := by
  have hmem : w ∈ transStyleNames.map Prod.fst ↔ w ≤ 4 := by
    simp [transStyleNames]
    omega
  rw [transStyleToInt, sentFor_named (by decide) (by decide), if_congr hmem rfl rfl]
  rfl

theorem kept_effect (w : ℤ) :
    sentFor (.named dveEffectNames "SqueezeTopLeft".toList) (.named dveEffectToInt [] 0) .int w =
      keptEffect w := by
  have hmem : w ∈ dveEffectNames.map Prod.fst ↔ 16 ≤ w ∧ w ≤ 31 := by
    simp [dveEffectNames]
    omega
  rw [dveEffectToInt, sentFor_named (by decide) (by decide), if_congr hmem rfl rfl]
  rfl

theorem kept_pattern (w : ℤ) :
    sentFor (.cyclic wipePatternNames) (.named wipePatternToInt "LeftToRightBar".toList 0) .int w =
      w % 18 :=
  sentFor_cyclic (by decide) (by decide) _ _ w

theorem kept_player {w : ℤ} (hw : 0 ≤ w) : sentFor .player .player .int w = w := by
  have hread : Reading.player.of (some (Form.player.of (.int w))) = .ok (.int w) := by
    rw [Reading.of, playerOf_written hw]
    rfl
  simp only [sentFor, hread]

/-! ## The numbers of each setting -/

section
variable (mx : Mixer) (me : UInt8)

/-- A reader that divides, told by the number that stands for what it gives without a message. -/
theorem wire_over {r : Reader} {power places : ℕ} {q : ℚ} {n : ℤ}
    (hshowing : r.showing = .over power places) (hdefault : r.default = .real (.finite q))
    (hn : q * 10 ^ power = n) : r.wire mx me = told (r.entry mx me) r.name n := by
  have habsent : r.absent = n := by
    rw [Reader.absent, hdefault, hshowing]
    simp only [hn, Rat.num_intCast]
  rw [Reader.wire, habsent]

/-- The style of the transitions of a mix effect. -/
def styleTold : List Message :=
  [(Commands.transitionSettingsCommand,
    [("index", me.toNat),
     ("style", keptStyle (told (mx.transitionSettings.lookup me) "style" 0))])]

def mixTold : List Message :=
  [(Commands.mixSettingsCommand,
    [("rate", told (mx.transitionMix.lookup me) "rate" 25), ("index", me.toNat)])]

def dipTold : List Message :=
  let dip := mx.transitionDip.lookup me
  [(Commands.dipSettingsCommand, [("rate", told dip "rate" 25), ("index", me.toNat)]),
   (Commands.dipSettingsCommand, [("index", me.toNat), ("source", told dip "source" 0)])]

def wipeTold : List Message :=
  let wipe := mx.transitionWipe.lookup me
  let one (key : String) (n : ℤ) : Message :=
    (Commands.wipeSettingsCommand, [("index", me.toNat), (key, n)])
  let upTo (n : ℤ) : ℤ := max 0 (min 10000 n)
  [(Commands.wipeSettingsCommand, [("rate", told wipe "rate" 25), ("index", me.toNat)]),
   one "pattern" (told wipe "pattern" 0 % 18),
   one "symmetry" (upTo (told wipe "symmetry" 5000)),
   one "softness" (upTo (told wipe "softness" 0)), one "width" (upTo (told wipe "width" 0)),
   one "positionx" (upTo (told wipe "positionx" 5000)),
   one "positiony" (upTo (told wipe "positiony" 5000)),
   one "reverse" (told wipe "reverse" 0), one "flipflop" (told wipe "flipflop" 0),
   one "source" (told wipe "source" 0)]

def stingerTold : List Message :=
  let stinger := mx.transitionStinger.lookup me
  let one (key : String) (n : ℤ) : Message :=
    (Commands.stingerSettingsCommand, [("index", me.toNat), (key, n)])
  let frames (key : String) (n : ℤ) : Message :=
    (Commands.stingerSettingsCommand, [(key, n), ("index", me.toNat)])
  [one "mediaplayer" (told stinger "mediaplayer" 1), one "key_clip" (told stinger "key_clip" 500),
   one "key_gain" (told stinger "key_gain" 700), one "key_invert" (told stinger "key_invert" 0),
   one "key_premultiplied" (told stinger "key_premultiplied" 1),
   frames "duration" (told stinger "duration" 150),
   frames "triggerpoint" (told stinger "triggerpoint" 34), frames "rate" (told stinger "rate" 25),
   frames "preroll" (told stinger "preroll" 48)]

def dveTold : List Message :=
  let dve := mx.transitionDve.lookup me
  let one (key : String) (n : ℤ) : Message :=
    (Commands.dveSettingsCommand, [("index", me.toNat), (key, n)])
  let upTo (n : ℤ) : ℤ := max 0 (min 1000 n)
  [(Commands.dveSettingsCommand, [("rate", told dve "rate" 25), ("index", me.toNat)]),
   one "fill_source" (told dve "fill_source" 1), one "key_source" (told dve "key_source" 1),
   one "key_enable" (told dve "key_enable" 0), one "key_clip" (upTo (told dve "key_clip" 0)),
   one "key_gain" (upTo (told dve "key_gain" 1000)),
   one "key_invert" (told dve "key_invert" 0),
   one "key_premultiplied" (told dve "key_premultiplied" 0),
   one "style" (keptEffect (told dve "style" 0)),
   one "reverse" (told dve "reverse" 0), one "flipflop" (told dve "flipflop" 0)]

/-- The readers of what is written by its name. -/
theorem named_sound : Readers.transitionStyle.Sound ∧
    (Readers.stinger "mediaplayer" .int (.int 1)).Sound ∧
    (Readers.dve "style" .int (.int 0)).Sound := by
  decide +kernel

theorem stinger_sound : (Readers.stinger "mediaplayer" .int (.int 1)).Sound := named_sound.2.1

theorem style_messages :
    messagesOf transitionAttributes mx me styleCalls = styleTold mx me := by
  have hkept := kept_style (named_sound.1.wire_fits mx me).1
  show [(Commands.transitionSettingsCommand, [("index", (me.toNat : ℤ)), ("style",
    sentFor (.named transStyleNames "Mix".toList) (.named transStyleToInt "Mix".toList 0) .int
      (Readers.transitionStyle.wire mx me))])] = _
  rw [hkept]
  rfl

theorem mix_messages : messagesOf mixAttributes mx me mixCalls = mixTold mx me := rfl

theorem dip_messages : messagesOf dipAttributes mx me dipCalls = dipTold mx me := rfl

theorem wire_wipe (name : String) (power places : ℕ) {q : ℚ} {n : ℤ} (hn : q * 10 ^ power = n) :
    (Readers.wipe name (.over power places) (.real (.finite q))).wire mx me =
      told (mx.transitionWipe.lookup me) name n :=
  wire_over mx me rfl rfl hn

theorem wire_stinger (name : String) (power places : ℕ) {q : ℚ} {n : ℤ}
    (hn : q * 10 ^ power = n) :
    (Readers.stinger name (.over power places) (.real (.finite q))).wire mx me =
      told (mx.transitionStinger.lookup me) name n :=
  wire_over mx me rfl rfl hn

theorem wire_dve (name : String) (power places : ℕ) {q : ℚ} {n : ℤ} (hn : q * 10 ^ power = n) :
    (Readers.dve name (.over power places) (.real (.finite q))).wire mx me =
      told (mx.transitionDve.lookup me) name n :=
  wire_over mx me rfl rfl hn

theorem wipe_messages : messagesOf wipeAttributes mx me wipeCalls = wipeTold mx me := by
  have hkept := kept_pattern ((Readers.wipe "pattern" .int (.int 0)).wire mx me)
  have hpattern : (Readers.wipe "pattern" .int (.int 0)).wire mx me =
      told (mx.transitionWipe.lookup me) "pattern" 0 := rfl
  have hsymmetry := @wire_wipe mx me "symmetry" 2 2 50 5000 (by norm_num)
  have hsoftness := @wire_wipe mx me "softness" 2 2 0 0 (by norm_num)
  have hwidth := @wire_wipe mx me "width" 2 2 0 0 (by norm_num)
  have hx := @wire_wipe mx me "positionx" 4 4 (1 / 2) 5000 (by norm_num)
  have hy := @wire_wipe mx me "positiony" 4 4 (1 / 2) 5000 (by norm_num)
  simp only [wipeTold, ← hpattern, ← hkept, ← hsymmetry, ← hsoftness, ← hwidth, ← hx, ← hy]
  rfl

theorem stinger_wire : (Readers.stinger "mediaplayer" .int (.int 1)).wire mx me =
    told (mx.transitionStinger.lookup me) "mediaplayer" 1 := rfl

theorem stinger_messages : messagesOf stingerAttributes mx me
    (stingerSourceCall :: stingerKeyCalls) = stingerTold mx me := by
  have hkept := kept_player (stinger_sound.wire_fits mx me).1
  have hclip := @wire_stinger mx me "key_clip" 1 2 50 500 (by norm_num)
  have hgain := @wire_stinger mx me "key_gain" 1 2 70 700 (by norm_num)
  simp only [stingerTold, ← stinger_wire, ← hclip, ← hgain]
  rw [← hkept]
  rfl

theorem dve_wire : (Readers.dve "style" .int (.int 0)).wire mx me =
    told (mx.transitionDve.lookup me) "style" 0 := rfl

theorem dve_messages : messagesOf dveAttributes mx me
    (dveKeyCalls ++ [dveStyleCall] ++ dveMotionCalls) = dveTold mx me := by
  have hkept := kept_effect ((Readers.dve "style" .int (.int 0)).wire mx me)
  have hclip := @wire_dve mx me "key_clip" 1 2 0 0 (by norm_num)
  have hgain := @wire_dve mx me "key_gain" 1 2 100 1000 (by norm_num)
  simp only [dveTold, ← dve_wire, ← hkept, ← hclip, ← hgain]
  rfl

/-! ## The calls for what was saved -/

/-- An element has the attributes that it is saved with. -/
theorem saves_attributes (tag : String) {saved : List (String × Reader)}
    (more : List (String × Text)) (children : List Element) :
    Saves saved mx me (element tag (savedAttributes saved mx me ++ more) children) := by
  intro key r hr
  have hfound : (savedAttributes saved mx me).lookup key = some (r.text mx me) := by
    rw [savedAttributes, lookup_mapped (fun r : Reader => r.text mx me) saved key, hr]
    rfl
  rw [attrib_element, List.lookup_append, hfound]
  rfl

/-- The calls for the elements of a mix effect fit what is saved of them. -/
theorem settings_fit : ∀ p ∈
    [(transitionAttributes, styleCalls), (mixAttributes, mixCalls), (dipAttributes, dipCalls),
     (wipeAttributes, wipeCalls), (stingerAttributes, stingerSourceCall :: stingerKeyCalls),
     (dveAttributes, dveKeyCalls ++ [dveStyleCall] ++ dveMotionCalls),
     (ftbAttributes, [.rate "rate" 25 Rates.setFtbRate]),
     ([("input", Readers.programSource)], [.set ".program" setProgram [("input", .int 0)]]),
     ([("input", Readers.previewSource)], [.set ".preview" setPreview [("input", .int 0)]])],
    ∀ call ∈ p.2, call.Fits p.1 := by
  decide +kernel

/-- The source of the stinger is one that can be read. -/
theorem stingerCalls_saved (children : List Element) :
    stingerCalls (element "StingerParameters" (savedAttributes stingerAttributes mx me) children) =
      stingerSourceCall :: stingerKeyCalls := by
  have hfits := stinger_sound.wire_fits mx me
  have hread : (Readers.stinger "mediaplayer" .int (.int 1)).read mx me =
      .int ((Readers.stinger "mediaplayer" .int (.int 1)).wire mx me) := by
    rw [stinger_sound.read_eq]
    exact congrArg (Showing.int.of (.int 1)) (scalarAt_plain .one false)
  have hsource : playerOf (attrib "source" (element "StingerParameters"
      (savedAttributes stingerAttributes mx me) children)) =
        some ((Readers.stinger "mediaplayer" .int (.int 1)).wire mx me) := by
    rw [attrib_element]
    show playerOf (some (Form.player.of
      ((Readers.stinger "mediaplayer" .int (.int 1)).read mx me))) = _
    rw [hread, playerOf_written hfits.1]
  unfold stingerCalls
  rw [hsource]
  rfl

/-- Every name that is written has a number. -/
theorem lookup_named {names : List (ℤ × Text)} {other : Text}
    (hother : other ∈ names.map Prod.snd) (v : ℤ) :
    ((names.map Prod.swap).lookup ((names.lookup v).getD other)).isSome = true := by
  have hmem : (names.lookup v).getD other ∈ names.map Prod.snd := by
    cases hname : names.lookup v with
    | none => exact hother
    | some name =>
      obtain ⟨before, after, rfl, -⟩ := List.lookup_eq_some_iff.mp hname
      exact List.mem_map_of_mem (List.mem_append_right _ List.mem_cons_self)
  obtain ⟨p, hp, hname⟩ := List.mem_map.mp hmem
  rw [← hname, Option.isSome_iff_ne_none, Ne, List.lookup_eq_none_iff]
  intro hnone
  simpa using hnone p.swap (List.mem_map_of_mem hp)

/-- The effect of the DVE is one that has a number. -/
theorem dveCalls_saved (children : List Element) :
    dveCalls (element "DVEParameters" (savedAttributes dveAttributes mx me) children) =
      dveKeyCalls ++ [dveStyleCall] ++ dveMotionCalls := by
  have hsound := named_sound.2.2
  have hread : (Readers.dve "style" .int (.int 0)).read mx me =
      .int ((Readers.dve "style" .int (.int 0)).wire mx me) := by
    rw [hsound.read_eq]
    exact congrArg (Showing.int.of (.int 0)) (scalarAt_plain .one false)
  have heffect : attrib "effect" (element "DVEParameters" (savedAttributes dveAttributes mx me)
      children) = some ((dveEffectNames.lookup ((Readers.dve "style" .int (.int 0)).wire mx me)).getD
        "SqueezeTopLeft".toList) := by
    rw [attrib_element]
    show some ((Form.named dveEffectNames "SqueezeTopLeft".toList).of
      ((Readers.dve "style" .int (.int 0)).read mx me)) = _
    rw [hread]
    rfl
  unfold dveCalls
  rw [heffect, Option.getD_some, dveEffectToInt, if_pos (lookup_named (by decide) _)]

end

/-! ## Transitions -/

/-- The first turn of a loop, and the others. -/
theorem Does.cons {ι : Type} {turn : Applying → ι → Except Stopped Applying} {i : ι}
    {items : List ι} {first rest : List Message} (h : Does (fun a => turn a i) first [])
    (hrest : Does (fun a => items.foldlM turn a) rest []) :
    Does (fun a => (i :: items).foldlM turn a) (first ++ rest) [] :=
  h.andThen hrest

theorem Does.nil {ι : Type} {turn : Applying → ι → Except Stopped Applying} :
    Does (fun a => ([] : List ι).foldlM turn a) [] [] :=
  .skip

section
variable (rate : Option ℚ) (mx : Mixer) (me : UInt8)

/-- The calls for an element that has what was saved, and no more. -/
theorem does_runCalls {saved : List (String × Reader)} {calls : List Call}
    {messages : List Message} (tag : String)
    (hfits : ∀ call ∈ calls, call.Fits saved)
    (hmessages : messagesOf saved mx me calls = messages) :
    Does (runCalls rate me.toNat calls (element tag (savedAttributes saved mx me) [])) messages
      [] := by
  have hsaves := @saves_attributes mx me tag saved [] []
  rw [List.append_nil] at hsaves
  have hdoes := does_calls hsaves hfits rate (numbered "me" me.toNat)
  rwa [hmessages] at hdoes

/-- The settings of a style are found, and sent. -/
theorem does_runIn {p : String × (Element → List Call)} {parent : Element}
    {saved : List (String × Reader)} {tag : String} {calls : List Call}
    {messages : List Message}
    (hfind : find p.1 parent = some (element tag (savedAttributes saved mx me) []))
    (hcalls : p.2 (element tag (savedAttributes saved mx me) []) = calls)
    (hfits : ∀ call ∈ calls, call.Fits saved)
    (hmessages : messagesOf saved mx me calls = messages) :
    Does (fun a => runIn rate me.toNat parent a p) messages [] := by
  unfold runIn
  rw [hfind]
  dsimp only
  rw [hcalls]
  exact does_runCalls rate mx me tag hfits hmessages

/-- The messages for the style of transitions and for the settings of each style. -/
def transitionTold : List Message :=
  styleTold mx me ++ (mixTold mx me ++ (dipTold mx me ++ (wipeTold mx me ++
    (stingerTold mx me ++ dveTold mx me))))

theorem does_style :
    Does (fun a => runCalls rate me.toNat styleCalls (transitionStyleElement mx me) a >>=
      styleSettings.foldlM (runIn rate me.toNat (transitionStyleElement mx me)))
      (transitionTold mx me) [] := by
  have hsaves : Saves transitionAttributes mx me (transitionStyleElement mx me) :=
    saves_attributes mx me "TransitionStyle" _ _
  have hstyle := does_calls hsaves (settings_fit (transitionAttributes, styleCalls) (by simp)) rate
    (numbered "me" me.toNat)
  rw [style_messages] at hstyle
  have hmix := @does_runIn rate mx me ("MixParameters", fun _ => mixCalls)
    (transitionStyleElement mx me) mixAttributes "MixParameters" _ _ rfl rfl
    (settings_fit (mixAttributes, mixCalls) (by simp))
    (mix_messages mx me)
  have hdip := @does_runIn rate mx me ("DipParameters", fun _ => dipCalls)
    (transitionStyleElement mx me) dipAttributes "DipParameters" _ _ rfl rfl
    (settings_fit (dipAttributes, dipCalls) (by simp))
    (dip_messages mx me)
  have hwipe := @does_runIn rate mx me ("WipeParameters", fun _ => wipeCalls)
    (transitionStyleElement mx me) wipeAttributes "WipeParameters" _ _ rfl rfl
    (settings_fit (wipeAttributes, wipeCalls) (by simp))
    (wipe_messages mx me)
  have hstinger := @does_runIn rate mx me ("StingerParameters", stingerCalls)
    (transitionStyleElement mx me) stingerAttributes "StingerParameters" _ _ rfl
    (stingerCalls_saved mx me []) (settings_fit (stingerAttributes, _) (by simp))
    (stinger_messages mx me)
  have hdve := @does_runIn rate mx me ("DVEParameters", dveCalls)
    (transitionStyleElement mx me) dveAttributes "DVEParameters" _ _ rfl
    (dveCalls_saved mx me []) (settings_fit (dveAttributes, _) (by simp)) (dve_messages mx me)
  have hdves := hdve.cons .nil
  rw [List.append_nil] at hdves
  exact hstyle.andThen (hmix.cons (hdip.cons (hwipe.cons (hstinger.cons hdves))))

/-- The layers of the next transition; where there is none, the background. -/
def nextLayers : ℤ :=
  let layers := told (mx.transitionSettings.lookup me) "next_transition" 1
  if layers % 32 = 0 then 1 else layers % 32

def nextTold : List Message :=
  [(Commands.transitionSettingsCommand,
    [("index", me.toNat), ("next_transition", nextLayers mx me)])]

theorem number_nextTransition (m : Recv transitionSettingsField) :
    m.number "next_transition" = ((m.raw.getD 2 0).toNat : ℤ) := by
  obtain ⟨raw, enough⟩ := m
  have hlong := enough ⟨"next_transition_next", 4, none, Commands.u8⟩ (by decide)
  match raw, hlong with
  | _ :: _ :: layers :: rest, _ =>
    show ((unpackBig [layers] : ℕ) : ℤ) = layers.toNat
    simp [unpackBig]

/-- The layers are bits of the octet that was reported. -/
theorem selection_octet : ∃ n : ℕ, transitionSelection mx me = (List.range 5).map n.testBit ∧
    told (mx.transitionSettings.lookup me) "next_transition" 1 = n := by
  unfold transitionSelection told
  cases mx.transitionSettings.lookup me with
  | none => exact ⟨1, by decide, rfl⟩
  | some m => exact ⟨(m.raw.getD 2 0).toNat, rfl, number_nextTransition m⟩

/-- The mask of the layers, when those of the octet were saved. -/
theorem transitionMask_saved :
    transitionMask (strToNextTransition ((attrib "selection" (nextTransitionElement mx me)).getD
      "Background".toList)) = nextLayers mx me := by
  obtain ⟨n, hselection, htold⟩ := selection_octet mx me
  have hback := transitionMask_back n
  rw [← hselection] at hback
  rw [nextTransitionElement, attrib_element, nextLayers, htold]
  refine hback.trans (if_congr ?_ rfl rfl)
  omega

theorem nextLayers_range : 0 < nextLayers mx me ∧ nextLayers mx me < 256 := by
  unfold nextLayers
  dsimp only
  split_ifs with hnone
  · decide
  · omega

/-- A next transition is set as it was saved. -/
theorem does_next :
    Does (fun a => .ok { a with sent := a.sent ++ (setNextTransitionLayers
      (strToNextTransition ((attrib "selection" (nextTransitionElement mx me)).getD
        "Background".toList)) me.toNat).toList }) (nextTold mx me) [] := by
  obtain ⟨hpos, hsmall⟩ := nextLayers_range mx me
  have htold : Told Commands.transitionSettingsCommand
      [("index", .int me.toNat), ("next_transition", .int (nextLayers mx me))]
      [("index", me.toNat), ("next_transition", nextLayers mx me)] := by
    refine .cons ⟨rfl, ?_⟩ (.cons ⟨rfl, ?_⟩ .nil)
    · have hu8 : ∀ f ∈ Commands.transitionSettingsCommand.fields, f.name = "index" →
          f.type = Commands.u8 := by decide
      intro f hf hname
      rw [hu8 f hf hname]
      exact fieldTells_u8 index_range
    · have hu8 : ∀ f ∈ Commands.transitionSettingsCommand.fields, f.name = "next_transition" →
          f.type = Commands.u8 := by decide
      intro f hf hname
      rw [hu8 f hf hname]
      exact fieldTells_u8 ⟨hpos.le, hsmall⟩
  have hkeys : ["index", "next_transition"].Nodup := by decide
  have htells : Tells (.declared (Commands.transitionSettingsCommand.send fun name =>
      [("index", Value.int me.toNat), ("next_transition", .int (nextLayers mx me))].lookup name))
      _ _ := htold.tells hkeys (by decide) rfl fun f _ => rfl
  intro a
  refine ⟨_, ?_, .cons htells .nil⟩
  simp only [setNextTransitionLayers, transitionMask_saved, if_neg hpos.ne', List.append_nil]
  rfl

end

end Bmdwire.Profile
