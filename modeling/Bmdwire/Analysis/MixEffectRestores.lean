import Bmdwire.Analysis.MixEffectNumbers

/-!
# Mix effects saved and put back

The blocks of the mix effects, saved with some parts selected and applied with some, send for every
mix effect that the other switcher has the numbers that the first one reported, of what was selected
both times.
-/

set_option autoImplicit false

namespace Bmdwire.Profile

open Library
open Macros (ErrorType)

/-! ## Blocks -/

/-- Messages, if they are asked for. -/
def asked (b : Bool) (messages : List Message) : List Message := if b then messages else []

/-- A part of a block is found exactly when it is selected. -/
theorem find_selected {tag name : String} {attrs : List (String × Text)}
    {parts : List (Bool × Element)} (hnodup : (parts.map fun p => tagOf p.2).Nodup)
    {selected : Bool} {e : Element} (hmem : (selected, e) ∈ parts) (htag : tagOf e = tag.toList) :
    find tag (element name attrs ((parts.filter Prod.fst).map Prod.snd)) =
      if selected then some e else none := by
  obtain ⟨before, after, rfl⟩ := List.append_of_mem hmem
  rw [List.map_append, List.map_cons, List.nodup_append, List.nodup_cons] at hnodup
  obtain ⟨-, ⟨hafter, -⟩, hbefore⟩ := hnodup
  have hothers : ∀ {ps : List (Bool × Element)}, (∀ p ∈ ps, tagOf p.2 ≠ tag.toList) →
      ((ps.filter Prod.fst).map Prod.snd).filter (fun c => tagOf c = tag.toList) = [] := by
    intro ps h
    rw [List.filter_eq_nil_iff, List.forall_mem_map]
    intro p hp
    simpa using h p (List.mem_of_mem_filter hp)
  have hnone := @hothers before fun p hp heq =>
    hbefore _ (List.mem_map_of_mem hp) _ List.mem_cons_self (heq.trans htag.symm)
  have hnone' := @hothers after fun p hp heq =>
    hafter (List.mem_map.mpr ⟨p, hp, heq.trans htag.symm⟩)
  unfold find findall element
  cases selected with
  | false => simp [List.filter_append, hnone, hnone']
  | true => simp [List.filter_append, hnone, hnone', htag]

section
variable (mx : Mixer) (o : MixEffectOptions) (keys : List Element) (me : UInt8)

theorem tags_blockParts : ((blockParts mx o keys me).map fun p => tagOf p.2).Nodup := by
  have htags : ((blockParts mx o keys me).map fun p => tagOf p.2) =
      ["Program", "Preview", "NextTransition", "TransitionStyle", "Keys", "FadeToBlack"].map
        String.toList := rfl
  rw [htags]
  decide

/-- A part of a saved block. -/
theorem find_part {tag : String} {selected : Bool} {e : Element}
    (hmem : (selected, e) ∈ blockParts mx o keys me) (htag : tagOf e = tag.toList) :
    find tag (buildMixEffectBlock mx o keys me) = if selected then some e else none :=
  find_selected (tags_blockParts mx o keys me) hmem htag

theorem find_style : find "TransitionStyle" (buildMixEffectBlock mx o keys me) =
    if o.transitionStyle then some (transitionStyleElement mx me) else none :=
  find_part mx o keys me (by simp [blockParts]) rfl

theorem find_next : find "NextTransition" (buildMixEffectBlock mx o keys me) =
    if o.nextTransition then some (nextTransitionElement mx me) else none :=
  find_part mx o keys me (by simp [blockParts]) rfl

theorem find_program : find "Program" (buildMixEffectBlock mx o keys me) =
    if o.program then
      some (element "Program" (savedAttributes [("input", Readers.programSource)] mx me) [])
    else none :=
  find_part mx o keys me (by simp [blockParts]) rfl

theorem find_preview : find "Preview" (buildMixEffectBlock mx o keys me) =
    if o.preview then
      some (element "Preview" (savedAttributes [("input", Readers.previewSource)] mx me) [])
    else none :=
  find_part mx o keys me (by simp [blockParts]) rfl

theorem find_fadeToBlack : find "FadeToBlack" (buildMixEffectBlock mx o keys me) =
    if o.fadeToBlack then some (element "FadeToBlack" (savedAttributes ftbAttributes mx me) [])
    else none :=
  find_part mx o keys me (by simp [blockParts, ftbAttributes]) rfl

/-- The style first, and then the next transition. -/
theorem applyTransitionBlock_eq (rate : Option ℚ) (me : ℤ) (wanted : MixEffectOptions)
    (block : Element) : applyTransitionBlock rate me wanted block = fun a =>
      (match wanted.transitionStyle, find "TransitionStyle" block with
        | true, some style => do
          let a ← runCalls rate me styleCalls style a
          styleSettings.foldlM (runIn rate me style) a
        | _, _ => .ok a) >>= fun a =>
      match wanted.nextTransition, find "NextTransition" block with
        | true, some next =>
          let selection := strToNextTransition ((attrib "selection" next).getD "Background".toList)
          .ok { a with sent := a.sent ++ (setNextTransitionLayers selection me).toList }
        | _, _ => .ok a := by
  funext a
  unfold applyTransitionBlock
  cases wanted.transitionStyle with
  | false => rfl
  | true =>
    cases find "TransitionStyle" block with
    | none => rfl
    | some style => exact (bind_assoc _ _ _).symm

/-- A block sends of its transitions what was saved and is asked for. -/
theorem does_applyTransitionBlock (rate : Option ℚ) (wanted : MixEffectOptions) :
    Does (applyTransitionBlock rate me.toNat wanted (buildMixEffectBlock mx o keys me))
      (asked (o.transitionStyle && wanted.transitionStyle) (transitionTold mx me) ++
        asked (o.nextTransition && wanted.nextTransition) (nextTold mx me)) [] := by
  have hstyle : Does (fun a =>
      match wanted.transitionStyle, find "TransitionStyle" (buildMixEffectBlock mx o keys me) with
      | true, some style => do
        let a ← runCalls rate me.toNat styleCalls style a
        styleSettings.foldlM (runIn rate me.toNat style) a
      | _, _ => .ok a)
      (asked (o.transitionStyle && wanted.transitionStyle) (transitionTold mx me)) [] := by
    rw [find_style]
    cases o.transitionStyle with
    | false =>
      cases wanted.transitionStyle with
      | false => exact .skip
      | true => exact .skip
    | true =>
      cases wanted.transitionStyle with
      | false => exact .skip
      | true => exact does_style rate mx me
  have hnext : Does (fun a =>
      match wanted.nextTransition, find "NextTransition" (buildMixEffectBlock mx o keys me) with
      | true, some next =>
        let selection := strToNextTransition ((attrib "selection" next).getD "Background".toList)
        .ok { a with sent := a.sent ++ (setNextTransitionLayers selection me.toNat).toList }
      | _, _ => .ok a)
      (asked (o.nextTransition && wanted.nextTransition) (nextTold mx me)) [] := by
    rw [find_next]
    cases o.nextTransition with
    | false =>
      cases wanted.nextTransition with
      | false => exact .skip
      | true => exact .skip
    | true =>
      cases wanted.nextTransition with
      | false => exact .skip
      | true => exact does_next mx me
  rw [applyTransitionBlock_eq]
  exact hstyle.andThen hnext

end

/-! ## Loops over the blocks -/

/-- A turn that sends these messages, raises these marks and reports nothing. -/
def Marks (turn : BlockLoop → Except Stopped BlockLoop) (messages : List Message)
    (first second : Bool) : Prop :=
  ∀ s, ∃ sent, turn s =
      .ok ⟨⟨s.a.sent ++ sent, s.a.result⟩, s.first || first, s.second || second⟩ ∧
    Sends sent messages

theorem Does.silent {step : Applying → Except Stopped Applying} {messages : List Message}
    (h : Does step messages []) (a : Applying) :
    ∃ sent, step a = .ok ⟨a.sent ++ sent, a.result⟩ ∧ Sends sent messages := by
  obtain ⟨sent, hstep, hsends⟩ := h a
  exact ⟨sent, by rw [hstep, List.append_nil], hsends⟩

theorem Marks.skip : Marks .ok [] false false := by
  intro s
  exact ⟨[], by simp, .nil⟩

theorem Marks.andThen {turn next : BlockLoop → Except Stopped BlockLoop}
    {messages more : List Message} {first second third fourth : Bool}
    (h : Marks turn messages first second) (hnext : Marks next more third fourth) :
    Marks (fun s => turn s >>= next) (messages ++ more) (first || third) (second || fourth) := by
  intro s
  obtain ⟨sent, hturn, hsends⟩ := h s
  obtain ⟨sent', hturn', hsends'⟩ := hnext
    ⟨⟨s.a.sent ++ sent, s.a.result⟩, s.first || first, s.second || second⟩
  refine ⟨sent ++ sent', ?_, List.rel_append hsends hsends'⟩
  dsimp only
  rw [hturn, ← List.append_assoc, ← Bool.or_assoc, ← Bool.or_assoc]
  exact hturn'

/-- A loop that passes over some of its items. -/
theorem Marks.foldlM {ι : Type} {turn : BlockLoop → ι → Except Stopped BlockLoop} {items : List ι}
    {kept : ι → Bool} {messages : ι → List Message} {first second : ι → Bool}
    (hkept : ∀ i ∈ items, kept i = true →
      Marks (fun s => turn s i) (messages i) (first i) (second i))
    (hover : ∀ i ∈ items, kept i = false → ∀ s, turn s i = .ok s) :
    Marks (fun s => items.foldlM turn s) ((items.filter kept).flatMap messages)
      ((items.filter kept).any first) ((items.filter kept).any second) := by
  induction items with
  | nil => exact .skip
  | cons i items ih =>
    rw [List.forall_mem_cons] at hkept hover
    have hrest := ih hkept.2 hover.2
    cases hi : kept i with
    | false =>
      intro s
      obtain ⟨sent, hturn, hsends⟩ := hrest s
      rw [List.filter_cons_of_neg (by simp [hi])]
      refine ⟨sent, ?_, hsends⟩
      dsimp only
      rw [List.foldlM_cons, hover.1 hi s]
      exact hturn
    | true =>
      rw [List.filter_cons_of_pos hi, List.flatMap_cons, List.any_cons, List.any_cons]
      exact (hkept.1 hi).andThen hrest

/-- The saved mix effects that the other switcher has. -/
def presentMes (mx : Mixer) (saved : List MixEffectOptions) (live : ℕ) : List UInt8 :=
  (selectedMes mx saved).filter fun me => decide (me.toNat < live)

section
variable {mx : Mixer} {saved wanted : List MixEffectOptions} {keys : UInt8 → List Element}
  {root : Element} (live : ℕ)

theorem intOf_index (mx : Mixer) (o : MixEffectOptions) (keys : List Element) (me : UInt8) :
    intOf 0 (attrib "index" (buildMixEffectBlock mx o keys me)) = .ok (me.toNat : ℤ) := by
  have hrange := @index_range me
  rw [buildMixEffectBlock, attrib_element, List.lookup_cons_self]
  exact intOf_fmt 0 ⟨hrange.1, hrange.2.trans (by decide)⟩

/-- A loop over the saved blocks turns for each mix effect that is there. -/
theorem marks_iterMeBlocks {body : ℤ → Element → BlockLoop → Except Stopped BlockLoop}
    {messages : UInt8 → List Message} {first second : UInt8 → Bool}
    (hroot : findall "MixEffectBlocks" root = (buildMixEffectBlocks mx saved keys).toList)
    (hbody : ∀ me : UInt8, Marks
      (body me.toNat (buildMixEffectBlock mx (meOptions saved me.toNat) (keys me) me))
      (messages me) (first me) (second me)) (a : Applying) :
    ∃ sent, iterMeBlocks live body root a = .ok ⟨⟨a.sent ++ sent, a.result⟩,
        (presentMes mx saved live).any first, (presentMes mx saved live).any second⟩ ∧
      Sends sent ((presentMes mx saved live).flatMap messages) := by
  have hblocks : (findall "MixEffectBlocks" root).flatMap (findall "MixEffectBlock") =
      (selectedMes mx saved).map fun me =>
        buildMixEffectBlock mx (meOptions saved me.toNat) (keys me) me := by
    rw [hroot, buildMixEffectBlocks]
    split_ifs with hnone
    · rw [hnone]
      rfl
    · rw [Option.toList_some, List.flatMap_singleton]
      apply findall_all
      rw [List.forall_mem_map]
      exact fun me _ => rfl
  have hloop : Marks (fun s => (selectedMes mx saved).foldlM (fun s me => blockTurn live body s
      (buildMixEffectBlock mx (meOptions saved me.toNat) (keys me) me)) s)
      ((presentMes mx saved live).flatMap messages) ((presentMes mx saved live).any first)
      ((presentMes mx saved live).any second) := by
    refine Marks.foldlM (fun me _ hlive => ?_) fun me _ hover s => ?_
    · have hkept : ¬ ((me.toNat : ℤ) < 0 ∨ (live : ℤ) ≤ me.toNat) := by
        have := of_decide_eq_true hlive
        omega
      unfold blockTurn
      rw [intOf_index]
      simp only [if_neg hkept]
      exact hbody me
    · have hover : (me.toNat : ℤ) < 0 ∨ (live : ℤ) ≤ me.toNat := by
        have := of_decide_eq_false hover
        omega
      unfold blockTurn
      rw [intOf_index]
      exact if_pos hover
  obtain ⟨sent, hrun, hsends⟩ := hloop ⟨a, false, false⟩
  refine ⟨sent, ?_, hsends⟩
  rw [iterMeBlocks, hblocks, List.foldlM_map]
  simpa only [Bool.false_or] using hrun

end

/-! ## What each loop sends -/

section
variable (mx : Mixer) (me : UInt8)

def ftbTold : List Message :=
  [(Commands.fadeToBlackConfigCommand,
    [("frames", told (mx.fadeToBlack.lookup me) "rate" 25), ("index", me.toNat), ("mask", 1)])]

def programTold : List Message :=
  [(Commands.programInputCommand,
    [("index", me.toNat), ("source", told (mx.programBusInput.lookup me) "source" 0)])]

def previewTold : List Message :=
  [(Commands.previewInputCommand,
    [("index", me.toNat), ("source", told (mx.previewBusInput.lookup me) "source" 0)])]

theorem does_ftb (rate : Option ℚ) : Does (runCalls rate me.toNat
    [.rate "rate" 25 Rates.setFtbRate] (element "FadeToBlack" (savedAttributes ftbAttributes mx me)
      [])) (ftbTold mx me) [] :=
  does_runCalls rate mx me "FadeToBlack" (settings_fit (ftbAttributes, _) (by simp)) rfl

theorem does_program (rate : Option ℚ) : Does (runCalls rate me.toNat
    [.set ".program" setProgram [("input", .int 0)]] (element "Program"
      (savedAttributes [("input", Readers.programSource)] mx me) [])) (programTold mx me) [] :=
  does_runCalls rate mx me "Program"
    (settings_fit ([("input", Readers.programSource)], _) (by simp)) rfl

theorem does_preview (rate : Option ℚ) : Does (runCalls rate me.toNat
    [.set ".preview" setPreview [("input", .int 0)]] (element "Preview"
      (savedAttributes [("input", Readers.previewSource)] mx me) [])) (previewTold mx me) [] :=
  does_runCalls rate mx me "Preview"
    (settings_fit ([("input", Readers.previewSource)], _) (by simp)) rfl

end

/-- What was selected when a profile was saved, and is when it is applied. -/
def both (saved wanted : List MixEffectOptions) (part : MixEffectOptions → Bool) (me : UInt8) :
    Bool :=
  part (meOptions saved me.toNat) && part (meOptions wanted me.toNat)

section
variable {mx : Mixer} {saved wanted : List MixEffectOptions} {keys : UInt8 → List Element}
  {root : Element} (rate : Option ℚ) (live : ℕ)

theorem marks_transitionBody (me : UInt8) : Marks
    (transitionBody rate wanted me.toNat
      (buildMixEffectBlock mx (meOptions saved me.toNat) (keys me) me))
    (asked (both saved wanted MixEffectOptions.transitionStyle me) (transitionTold mx me) ++
      asked (both saved wanted MixEffectOptions.nextTransition me) (nextTold mx me))
    (meOptions wanted me.toNat).transitionStyle (meOptions wanted me.toNat).nextTransition := by
  intro s
  obtain ⟨sent, hblock, hsends⟩ := (does_applyTransitionBlock mx (meOptions saved me.toNat)
    (keys me) me rate (meOptions wanted me.toNat)).silent s.a
  refine ⟨sent, ?_, hsends⟩
  unfold transitionBody
  dsimp only
  rw [hblock]
  rfl

/-- A turn over one part of a block, when it is asked for and there. -/
def runPart (me : ℤ) (calls : List Call) (mark : BlockLoop → Applying → BlockLoop) (asks : Bool)
    (part : Option Element) (s : BlockLoop) : Except Stopped BlockLoop :=
  match asks, part with
  | true, some e => do
    let a ← runCalls rate me calls e s.a
    pure (mark s a)
  | _, _ => .ok s

theorem marks_runPart {me : ℤ} {calls : List Call} {mark : BlockLoop → Applying → BlockLoop}
    (asks : Bool) {part : Option Element} {selected : Bool} {e : Element}
    {messages : List Message} {first second : Bool}
    (hpart : part = if selected then some e else none)
    (hcalls : Does (runCalls rate me calls e) messages [])
    (hmark : ∀ s a, mark s a = ⟨a, s.first || first, s.second || second⟩) :
    Marks (runPart rate me calls mark asks part) (asked (selected && asks) messages)
      (selected && asks && first) (selected && asks && second) := by
  subst hpart
  cases selected with
  | false =>
    cases asks with
    | false => exact .skip
    | true => exact .skip
  | true =>
    cases asks with
    | false => exact .skip
    | true =>
      intro s
      obtain ⟨sent, hrun, hsends⟩ := hcalls.silent s.a
      refine ⟨sent, ?_, hsends⟩
      simp only [runPart, if_true, hrun]
      exact congrArg Except.ok (hmark s _)

theorem marks_fadeToBlackBody (me : UInt8) : Marks
    (fadeToBlackBody rate wanted me.toNat
      (buildMixEffectBlock mx (meOptions saved me.toNat) (keys me) me))
    (asked (both saved wanted MixEffectOptions.fadeToBlack me) (ftbTold mx me))
    (both saved wanted MixEffectOptions.fadeToBlack me) false := by
  have hpart := @marks_runPart rate me.toNat _ (fun s a => ⟨a, true, s.second⟩)
    (meOptions wanted me.toNat).fadeToBlack _ _ _ _ true false
    (find_fadeToBlack mx (meOptions saved me.toNat) (keys me) me) (does_ftb mx me rate)
    fun s a => by rw [Bool.or_true, Bool.or_false]
  rw [Bool.and_true, Bool.and_false] at hpart
  exact hpart

/-- The preview of a block, and its program. -/
theorem marks_programPreviewBody (me : UInt8) : Marks
    (programPreviewBody rate wanted me.toNat
      (buildMixEffectBlock mx (meOptions saved me.toNat) (keys me) me))
    (asked (both saved wanted MixEffectOptions.preview me) (previewTold mx me) ++
      asked (both saved wanted MixEffectOptions.program me) (programTold mx me))
    (both saved wanted MixEffectOptions.program me)
    (both saved wanted MixEffectOptions.preview me) := by
  have hpreview := @marks_runPart rate me.toNat _ (fun s a => ⟨a, s.first, true⟩)
    (meOptions wanted me.toNat).preview _ _ _ _ false true
    (find_preview mx (meOptions saved me.toNat) (keys me) me) (does_preview mx me rate)
    fun s a => by rw [Bool.or_true, Bool.or_false]
  have hprogram := @marks_runPart rate me.toNat _ (fun s a => ⟨a, true, s.second⟩)
    (meOptions wanted me.toNat).program _ _ _ _ true false
    (find_program mx (meOptions saved me.toNat) (keys me) me) (does_program mx me rate)
    fun s a => by rw [Bool.or_true, Bool.or_false]
  have hall := hpreview.andThen hprogram
  simp only [Bool.and_true, Bool.and_false, Bool.false_or, Bool.or_false] at hall
  intro s
  obtain ⟨sent, hrun, hsends⟩ := hall s
  refine ⟨sent, ?_, hsends⟩
  unfold both
  rw [← hrun]
  unfold programPreviewBody
  dsimp only
  cases (meOptions wanted me.toNat).preview with
  | false => rfl
  | true =>
    cases find "Preview" (buildMixEffectBlock mx (meOptions saved me.toNat) (keys me) me) with
    | none => rfl
    | some preview => exact (bind_assoc _ _ _).symm

variable (hroot : findall "MixEffectBlocks" root = (buildMixEffectBlocks mx saved keys).toList)
include hroot

/-- A loop over the saved blocks, and what is reported of it. -/
theorem does_loop {body : ℤ → Element → BlockLoop → Except Stopped BlockLoop}
    {messages : UInt8 → List Message} {first second : UInt8 → Bool}
    (hbody : ∀ me : UInt8, Marks
      (body me.toNat (buildMixEffectBlock mx (meOptions saved me.toNat) (keys me) me))
      (messages me) (first me) (second me)) (pair one other : String) :
    Does (fun a => do
        let s ← iterMeBlocks live body root a
        return s.note pair one other)
      ((presentMes mx saved live).flatMap messages)
      (noted ((presentMes mx saved live).any first) ((presentMes mx saved live).any second) pair
        one other) := by
  intro a
  obtain ⟨sent, hrun, hsends⟩ := marks_iterMeBlocks live hroot hbody a
  refine ⟨sent, ?_, hsends⟩
  dsimp only
  rw [hrun]
  rfl

end

/-! ## The three sections -/

/-- What no mix effect is asked for, none has. -/
theorem meOptions_none {wanted : List MixEffectOptions} {part : MixEffectOptions → Bool}
    (hnone : part .none = false) (h : wanted.any part = false) (me : ℤ) :
    part (meOptions wanted me) = false := by
  unfold meOptions
  split_ifs
  · cases hget : wanted[me.toNat]? with
    | none => exact hnone
    | some o =>
      rw [List.any_eq_false] at h
      simpa using h o (List.mem_of_getElem? hget)
  · exact hnone

/-- A section that is left out when it has nothing to send. -/
theorem Does.gated {step : Applying → Except Stopped Applying} {messages : List Message}
    {labels : List Text} {gate : Bool} (h : Does step messages labels)
    (hoff : gate = false → messages = [] ∧ labels = []) :
    Does (fun a => if gate then step a else .ok a) messages labels := by
  cases gate with
  | true => exact h
  | false =>
    obtain ⟨rfl, rfl⟩ := hoff rfl
    exact .skip

section
variable (mx : Mixer) (saved wanted : List MixEffectOptions) (live : ℕ)

/-- The messages for the mix effects: of all of them the transitions, then fade to black, then the
preview and the program. -/
def mixEffectsTold : List Message :=
  let present := presentMes mx saved live
  (present.flatMap fun me =>
    asked (both saved wanted MixEffectOptions.transitionStyle me) (transitionTold mx me) ++
      asked (both saved wanted MixEffectOptions.nextTransition me) (nextTold mx me)) ++
  (present.flatMap fun me =>
    asked (both saved wanted MixEffectOptions.fadeToBlack me) (ftbTold mx me)) ++
  present.flatMap fun me =>
    asked (both saved wanted MixEffectOptions.preview me) (previewTold mx me) ++
      asked (both saved wanted MixEffectOptions.program me) (programTold mx me)

/-- What is reported of them. Transitions are reported when they are asked for, whether or not they
were saved. -/
def mixEffectsNoted : List Text :=
  let present := presentMes mx saved live
  noted (present.any fun me => (meOptions wanted me.toNat).transitionStyle)
    (present.any fun me => (meOptions wanted me.toNat).nextTransition)
    "transition" "transition_style" "next_transition" ++
  noted (present.any (both saved wanted MixEffectOptions.fadeToBlack)) false
    "fade_to_black" "fade_to_black" "fade_to_black" ++
  noted (present.any (both saved wanted MixEffectOptions.program))
    (present.any (both saved wanted MixEffectOptions.preview))
    "program_preview" "program" "preview"

/-- Program and preview are reported when they are not asked for. -/
def programSkipped : List Text :=
  if wanted.any fun o => o.program || o.preview then []
  else ["program_preview".toList ++ ": ".toList ++
    "gated off (default — would cut to air)".toList]

end

section
variable {mx : Mixer} {saved wanted : List MixEffectOptions} {keys : UInt8 → List Element}
  {root : Element} (rate : Option ℚ) (live : ℕ)
  (hroot : findall "MixEffectBlocks" root = (buildMixEffectBlocks mx saved keys).toList)
include hroot

theorem does_transitions :
    Does (fun a => if wanted.any fun o => o.nextTransition || o.transitionStyle then
        applyTransition rate live wanted root a
      else .ok a)
      ((presentMes mx saved live).flatMap fun me =>
        asked (both saved wanted MixEffectOptions.transitionStyle me) (transitionTold mx me) ++
          asked (both saved wanted MixEffectOptions.nextTransition me) (nextTold mx me))
      (noted ((presentMes mx saved live).any fun me => (meOptions wanted me.toNat).transitionStyle)
        ((presentMes mx saved live).any fun me => (meOptions wanted me.toNat).nextTransition)
        "transition" "transition_style" "next_transition") := by
  have hloop := does_loop live hroot
    (fun me => @marks_transitionBody mx saved wanted keys rate me)
    "transition" "transition_style" "next_transition"
  refine hloop.gated fun hoff => ?_
  have hneither : ∀ me : UInt8, (meOptions wanted me.toNat).nextTransition = false ∧
      (meOptions wanted me.toNat).transitionStyle = false := by
    intro me
    have hnone := @meOptions_none wanted (fun o => o.nextTransition || o.transitionStyle) rfl hoff
      me.toNat
    simpa using hnone
  constructor
  · simp [List.flatMap_eq_nil_iff, both, asked, hneither]
  · simp [noted, hneither]

theorem does_ftbs :
    Does (fun a => if wanted.any MixEffectOptions.fadeToBlack then
        applyFadeToBlack rate live wanted root a
      else .ok a)
      ((presentMes mx saved live).flatMap fun me =>
        asked (both saved wanted MixEffectOptions.fadeToBlack me) (ftbTold mx me))
      (noted ((presentMes mx saved live).any (both saved wanted MixEffectOptions.fadeToBlack)) false
        "fade_to_black" "fade_to_black" "fade_to_black") := by
  have hloop := does_loop live hroot
    (fun me => @marks_fadeToBlackBody mx saved wanted keys rate me)
    "fade_to_black" "fade_to_black" "fade_to_black"
  have hnever : ((presentMes mx saved live).any fun _ => false) = false := by simp
  rw [hnever] at hloop
  refine hloop.gated fun hoff => ?_
  have hnone := fun me : UInt8 =>
    @meOptions_none wanted MixEffectOptions.fadeToBlack rfl hoff me.toNat
  constructor
  · simp [List.flatMap_eq_nil_iff, both, asked, hnone]
  · simp [noted, both, hnone]

/-- The blocks that were saved, applied. -/
theorem applyMixEffects_saved (a : Applying) :
    ∃ sent, applyMixEffects rate live wanted root a = .ok ⟨a.sent ++ sent, { a.result with
        applied := a.result.applied ++ mixEffectsNoted mx saved wanted live
        skipped := a.result.skipped ++ programSkipped wanted }⟩ ∧
      Sends sent (mixEffectsTold mx saved wanted live) := by
  have hfirst := (@does_transitions mx saved wanted keys root rate live hroot).andThen
    (@does_ftbs mx saved wanted keys root rate live hroot)
  obtain ⟨sent, hrun, hsends⟩ := hfirst a
  have happly : applyMixEffects rate live wanted root a =
      ((if wanted.any fun o => o.nextTransition || o.transitionStyle then
          applyTransition rate live wanted root a
        else .ok a) >>= fun a =>
          if wanted.any MixEffectOptions.fadeToBlack then applyFadeToBlack rate live wanted root a
          else .ok a) >>= fun a =>
        if wanted.any fun o => o.program || o.preview then
          applyProgramPreview rate live wanted root a
        else .ok (a.noteSkipped "program_preview".toList
          "gated off (default — would cut to air)".toList) := by
    rw [bind_assoc]
    unfold applyMixEffects
    cases wanted.any fun o => o.nextTransition || o.transitionStyle with
    | false => cases wanted.any MixEffectOptions.fadeToBlack <;> rfl
    | true => cases wanted.any MixEffectOptions.fadeToBlack <;> rfl
  dsimp only at hrun
  rw [happly, hrun]
  unfold mixEffectsTold mixEffectsNoted programSkipped
  dsimp only
  cases hgate : wanted.any fun o => o.program || o.preview with
  | true =>
    obtain ⟨sent', hrun', hsends'⟩ := does_loop live hroot
      (fun me => @marks_programPreviewBody mx saved wanted keys rate me) "program_preview"
      "program" "preview" ⟨a.sent ++ sent, { a.result with applied := a.result.applied ++
        (noted ((presentMes mx saved live).any fun me =>
            (meOptions wanted me.toNat).transitionStyle)
          ((presentMes mx saved live).any fun me => (meOptions wanted me.toNat).nextTransition)
          "transition" "transition_style" "next_transition" ++
        noted ((presentMes mx saved live).any (both saved wanted MixEffectOptions.fadeToBlack))
          false "fade_to_black" "fade_to_black" "fade_to_black") }⟩
    refine ⟨sent ++ sent', ?_, List.rel_append hsends hsends'⟩
    rw [List.append_assoc] at hrun'
    simp only [if_true, List.append_nil]
    refine hrun'.trans ?_
    simp only [List.append_assoc]
  | false =>
    have hneither : ∀ me : UInt8, (meOptions wanted me.toNat).program = false ∧
        (meOptions wanted me.toNat).preview = false := by
      intro me
      have hnone := @meOptions_none wanted (fun o => o.program || o.preview) rfl hgate me.toNat
      simpa using hnone
    have hmessages : ((presentMes mx saved live).flatMap fun me =>
        asked (both saved wanted MixEffectOptions.preview me) (previewTold mx me) ++
          asked (both saved wanted MixEffectOptions.program me) (programTold mx me)) = [] := by
      simp [List.flatMap_eq_nil_iff, both, asked, hneither]
    have hlabels : noted ((presentMes mx saved live).any (both saved wanted MixEffectOptions.program))
        ((presentMes mx saved live).any (both saved wanted MixEffectOptions.preview))
        "program_preview" "program" "preview" = [] := by
      simp [noted, both, hneither]
    rw [hmessages, hlabels, List.append_nil, List.append_nil]
    exact ⟨sent, rfl, hsends⟩

end

/-! ## In a profile -/

section
variable (mx : Mixer) (me : UInt8)

/-- An element of attributes that are saved. -/
theorem plain_attributes {tag : String} {saved : List (String × Reader)}
    (hshape : Shaped tag (saved.map Prod.fst)) (hnames : ∀ p ∈ saved, p.2.form.NamesPlain) :
    Plain (element tag (savedAttributes saved mx me) []) := by
  have hkeys : (savedAttributes saved mx me).map Prod.fst = saved.map Prod.fst := by
    rw [savedAttributes, List.map_map]
    rfl
  exact plain_element (hkeys ▸ hshape) (plain_saved mx me hnames) (by simp)

theorem plain_savedPosition : IsPlain (savedPosition mx me) := by
  unfold savedPosition
  dsimp only
  split
  · exact isPlain_intText _
  · intro c hc
    cases hc

theorem plain_nextTransition : IsPlain (nextTransitionToStr (transitionSelection mx me)) := by
  have hall : ∀ n < 32, IsPlain (nextTransitionToStr ((List.range 5).map (n : ℕ).testBit)) := by
    decide +kernel
  obtain ⟨n, hselection, -⟩ := selection_octet mx me
  rw [hselection, testBit_octet]
  exact hall _ (Nat.mod_lt n (by decide))

theorem plain_transitionStyle : Plain (transitionStyleElement mx me) := by
  have hkeys : Shaped "TransitionStyle"
      ["style", "nextStyle", "previewTransition", "transitionPosition"] := by decide
  have hnames : ∀ p ∈ transitionAttributes, p.2.form.NamesPlain := by decide
  refine plain_element hkeys ?_ ?_
  · rw [List.forall_mem_append]
    refine ⟨plain_saved mx me hnames, ?_⟩
    rw [List.forall_mem_cons, List.forall_mem_singleton]
    exact ⟨@isPlain_fmt (.bool false), plain_savedPosition mx me⟩
  · have hall : ∀ p ∈ styleAttributes, Shaped p.1 (p.2.map Prod.fst) ∧
        ∀ q ∈ p.2, q.2.form.NamesPlain := by decide +kernel
    rw [List.forall_mem_map]
    exact fun p hp => plain_attributes mx me (hall p hp).1 (hall p hp).2

theorem plain_next : Plain (nextTransitionElement mx me) := by
  have hkeys : Shaped "NextTransition" ["selection", "nextSelection"] := by decide
  refine plain_element hkeys ?_ (by simp)
  rw [List.forall_mem_cons, List.forall_mem_singleton]
  exact ⟨plain_nextTransition mx me, plain_nextTransition mx me⟩

theorem plain_block (o : MixEffectOptions) {keys : List Element} (hkeys : ∀ e ∈ keys, Plain e) :
    Plain (buildMixEffectBlock mx o keys me) := by
  have hblock : Shaped "MixEffectBlock" ["index"] := by decide
  have hwrapper : Shaped "Keys" [] := by decide
  have hparts : ∀ p ∈ blockParts mx o keys me, Plain p.2 := by
    simp only [blockParts, List.forall_mem_cons]
    refine ⟨?_, ?_, plain_next mx me, plain_transitionStyle mx me, ?_, ?_, by simp⟩
    · exact plain_attributes mx me (by decide) (by decide)
    · exact plain_attributes mx me (by decide) (by decide)
    · exact plain_element hwrapper (by simp) hkeys
    · exact plain_attributes mx me (by decide) (by decide)
  refine plain_element hblock (List.forall_mem_singleton.mpr
    (@isPlain_fmt (.int me.toNat))) ?_
  rw [List.forall_mem_map]
  exact fun p hp => hparts p (List.mem_of_mem_filter hp)

end

section
variable (mx : Mixer) (saved : List MixEffectOptions) (keys : UInt8 → List PlainElement)

/-- The keys of a mix effect are given as they are. -/
def givenKeys (me : UInt8) : List Element := (keys me).map PlainElement.element

theorem plain_mixEffectBlocks : ∀ e ∈ buildMixEffectBlocks mx saved (givenKeys keys), Plain e := by
  intro e he
  unfold buildMixEffectBlocks at he
  dsimp only at he
  split_ifs at he with hnone
  · cases he
  · obtain rfl := Option.some.inj he
    have hwrapper : Shaped "MixEffectBlocks" [] := by decide
    refine plain_element hwrapper (by simp) ?_
    rw [List.forall_mem_map]
    intro me _
    refine plain_block mx me _ ?_
    unfold givenKeys
    rw [List.forall_mem_map]
    exact fun p _ => ⟨p.wellNamed, p.plain⟩

/-- With the mix effects where `from_atem` has them. -/
def Shape.withMixEffects (shape : Shape) : Shape :=
  { shape with
    beforeSettings := ((buildMixEffectBlocks mx saved (givenKeys keys)).pmap
      (fun _ h => Plain.given h) (plain_mixEffectBlocks mx saved keys)).toList ++
        shape.beforeSettings }

/-- No other element has the tag of the mix effects. -/
def Shape.ClearOfMixEffects (shape : Shape) : Prop :=
  ∀ p ∈ shape.given, tagOf p.element ≠ "MixEffectBlocks".toList

theorem given_withMixEffects (shape : Shape) :
    (shape.withMixEffects mx saved keys).given.map PlainElement.element =
      (buildMixEffectBlocks mx saved (givenKeys keys)).toList ++
        shape.given.map PlainElement.element := by
  have hgiven : ((((buildMixEffectBlocks mx saved (givenKeys keys)).pmap
      (fun _ h => Plain.given h) (plain_mixEffectBlocks mx saved keys)).toList).map
        PlainElement.element) = (buildMixEffectBlocks mx saved (givenKeys keys)).toList := by
    generalize plain_mixEffectBlocks mx saved keys = hplain
    revert hplain
    cases buildMixEffectBlocks mx saved (givenKeys keys) with
    | none => exact fun _ => rfl
    | some e => exact fun _ => rfl
  unfold Shape.given Shape.withMixEffects
  simp only [List.map_append, hgiven, List.append_assoc]

/-- The mix effects are found where they were saved. -/
theorem findall_mixEffects {shape : Shape} (hclear : shape.ClearOfMixEffects)
    (download : ℕ → Option Bytes) (s : State) :
    findall "MixEffectBlocks" (fromAtem (shape.withMixEffects mx saved keys) download s) =
      (buildMixEffectBlocks mx saved (givenKeys keys)).toList := by
  have hothers := findall_given hclear
  have hmine : (buildMixEffectBlocks mx saved (givenKeys keys)).toList.filter
      (fun c => tagOf c = "MixEffectBlocks".toList) =
        (buildMixEffectBlocks mx saved (givenKeys keys)).toList := by
    rw [List.filter_eq_self]
    intro e he
    rw [Option.mem_toList] at he
    unfold buildMixEffectBlocks at he
    dsimp only at he
    split_ifs at he
    obtain rfl := Option.some.inj he
    exact decide_eq_true rfl
  rw [findall_fromAtem _ _ _ (by decide), given_withMixEffects, List.filter_append, hothers, hmine,
    List.append_nil]

end

/-- A wipe of half a second from a corner, reversed. -/
def cornerWipe : Recv transitionWipeField where
  raw := [0, 30, 8, 0, 0x03, 0xe8, 0, 7, 0x13, 0x88, 0, 33, 0x20, 0, 0x27, 0x10, 1, 0, 0, 0]
  enough := by decide

/-- The next transition is a wipe of the background and the second key. -/
def keyedNext : Recv transitionSettingsField where
  raw := [0, 2, 0b00101, 0, 0, 0, 0, 0]
  enough := by decide

def wipingMixer : Mixer :=
  { Mixer.silent with
    transitionWipe := [(0, cornerWipe)]
    transitionSettings := [(0, keyedNext)] }

/-- Transitions alone. -/
def transitionsOnly : MixEffectOptions := { MixEffectOptions.none with
  nextTransition := true
  transitionStyle := true }

end Bmdwire.Profile
