import Bmdwire.Analysis.RateRoundTrip
import Bmdwire.Analysis.WireNumbers

/-!
# Sections saved and put back

The sections of color generators, auxiliaries, downstream keys and media players, saved from one
switcher and applied to another, send the numbers that the switcher reported, in one command for
each setter.
-/

set_option autoImplicit false

namespace Bmdwire.Profile

open Library
open Macros (ErrorType)
open Rates (RateSetter intText rateSetters)

/-! ## Commands -/

/-- The command is one of the class, is made, and has the numbers in the fields of these names and
nothing in the others. -/
def Tells (o : Outgoing) (layout : Layout) (numbers : List (String × ℤ)) : Prop :=
  ∃ attrs command payload, o = .declared (layout.send attrs) ∧ o.getCommand = some command ∧
    Carries layout attrs command payload ∧
    (∀ f ∈ layout.fields, f.Given attrs ↔ ∃ n, (f.name, n) ∈ numbers) ∧
    ∀ f ∈ layout.fields, ∀ n, (f.name, n) ∈ numbers →
      wireNumber f.type (slice f.offset f.type.size payload) = n

/-- The value is in range of the field, and the number in its octets is this one. -/
def FieldTells (type : FieldType) (value : Value) (n : ℤ) : Prop :=
  type.InRange value ∧ ∀ octets, type.ReadsBack value octets → wireNumber type octets = n

/-- Attributes that are told by numbers, key by key. -/
def Told (layout : Layout) (given : List (String × Value)) (numbers : List (String × ℤ)) : Prop :=
  List.Forall₂ (fun p q => p.1 = q.1 ∧
    ∀ f ∈ layout.fields, f.name = p.1 → FieldTells f.type p.2 q.2) given numbers

section
variable {layout : Layout} {given : List (String × Value)} {numbers : List (String × ℤ)}

theorem Told.lookup (h : Told layout given numbers) (hnodup : (given.map Prod.fst).Nodup)
    {name : String} {n : ℤ} (hn : (name, n) ∈ numbers) :
    ∃ value, given.lookup name = some value ∧
      ∀ f ∈ layout.fields, f.name = name → FieldTells f.type value n := by
  induction h with
  | nil => cases hn
  | @cons p q given numbers hpq hrest ih =>
    obtain ⟨key, value⟩ := p
    rw [List.map_cons, List.nodup_cons] at hnodup
    obtain rfl | hn := List.mem_cons.mp hn
    · obtain ⟨hkey, hfield⟩ := hpq
      obtain rfl : key = name := hkey
      exact ⟨value, List.lookup_cons_self, hfield⟩
    · obtain ⟨value', hlookup, hfield⟩ := ih hnodup.2 hn
      refine ⟨value', ?_, hfield⟩
      have hmem : name ∈ given.map Prod.fst := by
        obtain ⟨before, after, rfl, -⟩ := List.lookup_eq_some_iff.mp hlookup
        simp
      have hne : (name == key) = false := by
        rw [beq_eq_false_iff_ne]
        rintro rfl
        exact hnodup.1 hmem
      rw [List.lookup_cons, hne]
      exact hlookup

theorem Told.mem (h : Told layout given numbers) {name : String} {value : Value}
    (hvalue : given.lookup name = some value) : ∃ n, (name, n) ∈ numbers := by
  induction h with
  | nil => cases hvalue
  | @cons p q given numbers hpq hrest ih =>
    obtain ⟨key, value'⟩ := p
    rw [List.lookup_cons] at hvalue
    cases hsame : name == key with
    | true =>
      obtain rfl := eq_of_beq hsame
      obtain ⟨key, n⟩ := q
      obtain rfl : name = key := hpq.1
      exact ⟨n, List.mem_cons_self ..⟩
    | false =>
      rw [hsame] at hvalue
      obtain ⟨n, hn⟩ := ih hvalue
      exact ⟨n, List.mem_cons_of_mem _ hn⟩

theorem Told.tells (h : Told layout given numbers) (hnodup : (given.map Prod.fst).Nodup)
    (hdeclared : layout ∈ declaredCommands) (htail : layout.tail = none) {attrs : Attributes}
    (hattrs : ∀ f ∈ layout.fields, attrs f.name = given.lookup f.name) :
    Tells (.declared (layout.send attrs)) layout numbers := by
  have hgiven : ∀ f ∈ layout.fields, f.Given attrs ↔ ∃ n, (f.name, n) ∈ numbers := by
    intro f hf
    unfold Field.Given
    rw [hattrs f hf]
    constructor
    · rintro ⟨value, hvalue⟩
      exact h.mem hvalue
    · rintro ⟨n, hn⟩
      obtain ⟨value, hvalue, -⟩ := h.lookup hnodup hn
      exact ⟨value, hvalue⟩
  have hrange : layout.InRange attrs := by
    refine ⟨fun f hf value hvalue => ?_, fun tail hsome => ?_⟩
    · obtain ⟨n, hn⟩ := (hgiven f hf).mp ⟨value, hvalue⟩
      obtain ⟨value', hvalue', hfield⟩ := h.lookup hnodup hn
      rw [hattrs f hf, hvalue'] at hvalue
      obtain rfl := Option.some.inj hvalue
      exact (hfield f hf rfl).1
    · rw [htail] at hsome
      cases hsome
  let c : DeclaredCommand :=
    { layout, attrs, declared := hdeclared, inRange := hrange
      short := by simp [Layout.tailData, htail] }
  obtain ⟨payload, -, hcarries⟩ := c.carries
  refine ⟨attrs, c.wire, payload, rfl, c.getCommand_wire, hcarries, hgiven,
    fun f hf n hn => ?_⟩
  obtain ⟨value, hvalue, hfield⟩ := h.lookup hnodup hn
  rw [← hattrs f hf] at hvalue
  exact (hfield f hf rfl).2 _ (hcarries.fields f hf value hvalue)

theorem fieldTells_u8 {n : ℤ} (h : 0 ≤ n ∧ n < 256) : FieldTells Commands.u8 (.int n) n :=
  sends_plain h

end

/-! ## Calls -/

instance (a b : RateSetter) : Decidable (a = b) :=
  decidable_of_iff (a.layout = b.layout ∧ a.key = b.key ∧ a.more = b.more) (by
    cases a
    cases b
    simp)

/-- The number of a value that is one. -/
def intPart : Value → ℤ
  | .int n => n
  | _ => 0

/-- Values that are fixed in a command are numbers of one octet. -/
def Octet (value : Value) : Prop :=
  value = .int (intPart value) ∧ 0 ≤ intPart value ∧ intPart value < 256

instance (value : Value) : Decidable (Octet value) := inferInstanceAs (Decidable (_ ∧ _))

/-- A class that is declared, without a tail, whose fields of these names have one octet. -/
def PlainClass (layout : Layout) (names : List String) : Prop :=
  layout ∈ declaredCommands ∧ layout.tail = none ∧
    ∀ f ∈ layout.fields, f.name ∈ names → f.type = Commands.u8

instance (layout : Layout) (names : List String) : Decidable (PlainClass layout names) :=
  inferInstanceAs (Decidable (_ ∧ _))

section
variable (saved : List (String × Reader))

/-- The number of the wire behind an attribute that is saved. -/
def wireOf (mx : Mixer) (index : UInt8) (key : String) : ℤ :=
  match saved.lookup key with
  | some r => r.wire mx index
  | none => 0

/-- A setter's argument is read from what a reader saves for it. -/
def ArgFits (layout : Layout) (target : String × Writing) (arg : String × Reading) : Prop :=
  ∃ r ∈ saved.lookup arg.1, r.Sound ∧ (∃ f ∈ layout.fields, f.name = target.1) ∧
    ∀ f ∈ layout.fields, f.name = target.1 →
      Matched r.type r.showing r.form arg.2 target.2 f.type

instance (layout : Layout) (target : String × Writing) (arg : String × Reading) :
    Decidable (ArgFits saved layout target arg) :=
  inferInstanceAs (Decidable (∃ r ∈ saved.lookup arg.1, _))

/-- A call fits what is saved. -/
def Call.Fits : Call → Prop
  | .rate key _ setter =>
    setter ∈ rateSetters ∧ PlainClass setter.layout [] ∧
      (∀ f ∈ setter.layout.fields, f.name ≠ "keyer") ∧
      (setter.key :: "index" :: setter.more.map Prod.fst).Nodup ∧
      ∃ r ∈ saved.lookup key, r.Sound ∧ r.showing = .int ∧ r.form = .plain ∧ r.type = setter.type
  | .set _ setter args =>
    PlainClass setter.layout ("index" :: setter.fixed.map Prod.fst) ∧
      (∀ p ∈ setter.fixed, Octet p.2) ∧
      ("index" :: (setter.args.map Prod.fst ++ setter.fixed.map Prod.fst)).Nodup ∧
      List.Forall₂ (ArgFits saved setter.layout) setter.args args

instance : (call : Call) → Decidable (call.Fits saved)
  | .rate .. => inferInstanceAs (Decidable (_ ∧ _))
  | .set .. => inferInstanceAs (Decidable (_ ∧ _))

/-- The class of the command. -/
def Call.layout : Call → Layout
  | .rate _ _ setter => setter.layout
  | .set _ setter _ => setter.layout

/-- What is sent for an argument. -/
def argSent (mx : Mixer) (index : UInt8) (target : String × Writing) (arg : String × Reading) :
    ℤ :=
  match saved.lookup arg.1 with
  | some r => sentFor r.form arg.2 target.2 (r.wire mx index)
  | none => 0

/-- The numbers of the command. -/
def Call.numbers (mx : Mixer) (index : UInt8) : Call → List (String × ℤ)
  | .rate key _ setter =>
    (setter.key, wireOf saved mx index key) :: ("index", (index.toNat : ℤ)) ::
      setter.more.map fun p => (p.1, intPart p.2)
  | .set _ setter args =>
    ("index", (index.toNat : ℤ)) ::
      (setter.args.zipWith (fun target arg => (target.1, argSent saved mx index target arg)) args ++
        setter.fixed.map fun p => (p.1, intPart p.2))

/-- The element has what is saved. -/
def Saves (mx : Mixer) (index : UInt8) (e : Element) : Prop :=
  ∀ key r, saved.lookup key = some r → attrib key e = some (r.text mx index)

end

section
variable {saved : List (String × Reader)} {mx : Mixer} {index : UInt8}

theorem wireOf_eq {key : String} {r : Reader} (hr : saved.lookup key = some r) :
    wireOf saved mx index key = r.wire mx index := by
  unfold wireOf
  rw [hr]

variable {e : Element} (he : Saves saved mx index e)
include he

/-- An argument is read and made a value, which has the number. -/
theorem ArgFits.returns {layout : Layout} {target : String × Writing} {arg : String × Reading}
    (h : ArgFits saved layout target arg) : ∃ v value, arg.2.of (attrib arg.1 e) = .ok v ∧
      target.2.of v = .ok value ∧ ∀ f ∈ layout.fields, f.name = target.1 →
        FieldTells f.type value (argSent saved mx index target arg) := by
  obtain ⟨r, hr, hsound, ⟨f, hf, hname⟩, hmatched⟩ := h
  have hreturns := fun g hg hgname => (hmatched g hg hgname).returns r.default
    (hsound.wire_fits mx index)
  rw [he arg.1 r hr, Reader.text, hsound.read_eq mx index, argSent, hr]
  obtain ⟨v, value, hread, hwritten, -⟩ := hreturns f hf hname
  refine ⟨v, value, hread, hwritten, fun g hg hgname => ?_⟩
  obtain ⟨v', value', hread', hwritten', hin, hback⟩ := hreturns g hg hgname
  obtain rfl := Except.ok.inj (hread.symm.trans hread')
  obtain rfl := Except.ok.inj (hwritten.symm.trans hwritten')
  exact ⟨hin, hback⟩

theorem args_return {layout : Layout} {targets : List (String × Writing)}
    {args : List (String × Reading)} (h : List.Forall₂ (ArgFits saved layout) targets args) :
    ∃ values written,
      (args.mapM fun (p : String × Reading) => p.2.of (attrib p.1 e)) = .ok values ∧
      (((targets.map Prod.snd).zip values).mapM fun (p : Writing × Scalar) => p.1.of p.2) =
        .ok written ∧
      Told layout ((targets.map Prod.fst).zip written)
        (targets.zipWith (fun target arg => (target.1, argSent saved mx index target arg)) args) ∧
      ((targets.map Prod.fst).zip written).map Prod.fst = targets.map Prod.fst := by
  induction h with
  | nil => exact ⟨[], [], rfl, rfl, .nil, rfl⟩
  | @cons target arg targets args hfits hrest ih =>
    obtain ⟨values, written, hread, hwritten, htold, hkeys⟩ := ih
    obtain ⟨v, value, hv, hvalue, hfield⟩ := hfits.returns he
    refine ⟨v :: values, value :: written, ?_, ?_, .cons ⟨rfl, hfield⟩ htold, ?_⟩
    · rw [List.mapM_cons, hv, hread]
      rfl
    · rw [List.map_cons, List.zip_cons_cons, List.mapM_cons, hvalue, hwritten]
      rfl
    · rw [List.map_cons, List.zip_cons_cons, List.map_cons, hkeys]

omit he in
/-- Values that are fixed, in fields of one octet. -/
theorem told_fixed {layout : Layout} {fixed : List (String × Value)}
    (hoctets : ∀ p ∈ fixed, Octet p.2)
    (htypes : ∀ f ∈ layout.fields, f.name ∈ fixed.map Prod.fst → f.type = Commands.u8) :
    Told layout fixed (fixed.map fun p => (p.1, intPart p.2)) := by
  rw [Told, List.forall₂_map_right_iff, List.forall₂_same]
  intro p hp
  refine ⟨rfl, fun f hf hname => ?_⟩
  obtain ⟨hvalue, hrange⟩ := hoctets p hp
  rw [htypes f hf (hname ▸ List.mem_map_of_mem hp)]
  have hint := fieldTells_u8 hrange
  rwa [← hvalue] at hint

omit he in
theorem index_range : 0 ≤ (index.toNat : ℤ) ∧ (index.toNat : ℤ) < 256 := by
  have := index.toNat_lt
  omega

/-- A rate is sent as the number of frames that was saved. -/
theorem rate_returns {key : String} {default : ℤ} {setter : RateSetter}
    (h : Call.Fits saved (.rate key default setter)) (rate : Option ℚ) :
    intOf default (attrib key e) = .ok (wireOf saved mx index key) ∧
      Tells (setter.set rate (some (intText (wireOf saved mx index key))) index.toNat 0)
        setter.layout (Call.numbers saved mx index (.rate key default setter)) := by
  obtain ⟨hmem, ⟨hdeclared, htail, -⟩, hkeyer, hnodup, r, hr, hsound, hshowing, hform, htype⟩ := h
  have hsetter := RateSetter.sound_of_mem setter hmem
  have hwire := @wireOf_eq _ mx index _ _ hr
  have hfits := hsound.wire_fits mx index
  rw [← hwire, htype] at hfits
  have hread : r.read mx index = .int (wireOf saved mx index key) := by
    rw [hsound.read_eq, hshowing, htype, ← hwire]
    obtain h | h := hsetter.type
    · rw [h]
      exact congrArg (Showing.int.of r.default) (scalarAt_plain ..)
    · rw [h]
      exact congrArg (Showing.int.of r.default) (scalarAt_plain ..)
  have hrange : 0 ≤ wireOf saved mx index key ∧ wireOf saved mx index key < 2 ^ 16 := by
    obtain h | h := hsetter.type
    · rw [h] at hfits
      exact ⟨hfits.1, hfits.2.trans (by decide)⟩
    · rw [h] at hfits
      exact hfits
  have hfield : FieldTells setter.type (.int (wireOf saved mx index key))
      (wireOf saved mx index key) := by
    obtain h | h := hsetter.type
    · rw [h] at hfits ⊢
      exact sends_plain hfits
    · rw [h] at hfits ⊢
      exact sends_plain hfits
  have hfound : intOf default (attrib key e) = .ok (wireOf saved mx index key) := by
    rw [he key r hr, Reader.text, hform, hread]
    exact intOf_fmt default hrange
  refine ⟨hfound, ?_⟩
  rw [List.nodup_cons, List.nodup_cons] at hnodup
  have hmore : Told setter.layout setter.more
      (setter.more.map fun p => (p.1, intPart p.2)) := by
    rw [Told, List.forall₂_map_right_iff, List.forall₂_same]
    intro p hp
    refine ⟨rfl, fun f hf hname => ?_⟩
    have hne : f.name ≠ setter.key := by
      rintro heq
      rw [← heq, hname] at hnodup
      exact hnodup.1 (List.mem_cons_of_mem _ (List.mem_map_of_mem hp))
    have hlookup := Macros.lookup_of_nodup hnodup.2.2 hp
    obtain ⟨hu8, hvalue⟩ := hsetter.more f hf hne p.2 (hname ▸ hlookup)
    rw [hu8, hvalue]
    exact fieldTells_u8 (by decide)
  have hindex : ∀ f ∈ setter.layout.fields, f.name = "index" →
      FieldTells f.type (.int index.toNat) index.toNat := by
    intro f hf hname
    have hne : f.name ≠ setter.key := by
      rintro heq
      rw [← heq, hname] at hnodup
      exact hnodup.1 List.mem_cons_self
    rw [hsetter.address f hf hne (.inl hname)]
    exact fieldTells_u8 index_range
  have htold : Told setter.layout
      ((setter.key, .int (wireOf saved mx index key)) :: ("index", .int index.toNat) ::
        setter.more) (Call.numbers saved mx index (.rate key default setter)) :=
    .cons ⟨rfl, fun f hf hname => by rw [hsetter.rate f hf hname]; exact hfield⟩
      (.cons ⟨rfl, hindex⟩ hmore)
  rw [RateSetter.set, Rates.parseRate_intText]
  refine htold.tells ?_ hdeclared htail fun f hf => ?_
  · rw [List.map_cons, List.map_cons, List.nodup_cons, List.nodup_cons]
    exact hnodup
  · unfold RateSetter.attributes
    rw [List.lookup_cons, List.lookup_cons]
    by_cases hkey : f.name = setter.key
    · rw [if_pos hkey, beq_iff_eq.mpr hkey]
    · rw [if_neg hkey, beq_eq_false_iff_ne.mpr hkey]
      by_cases hindexed : f.name = "index"
      · rw [if_pos hindexed, beq_iff_eq.mpr hindexed]
      · rw [if_neg hindexed, beq_eq_false_iff_ne.mpr hindexed, if_neg (hkeyer f hf)]

/-- A call that fits sends its numbers. -/
theorem Call.Fits.run {call : Call} (h : call.Fits saved) (rate : Option ℚ) (label : Text)
    (a : Applying) : ∃ o, call.run rate label index.toNat e a = .ok (a.send o) ∧
      Tells o call.layout (call.numbers saved mx index) := by
  cases call with
  | rate key default setter =>
    obtain ⟨hread, htells⟩ := rate_returns he h rate
    refine ⟨_, ?_, htells⟩
    simp only [Call.run, hread]
  | set last setter args =>
    obtain ⟨⟨hdeclared, htail, htypes⟩, hoctets, hnodup, hargs⟩ := h
    obtain ⟨values, written, hread, hwritten, htold, hkeys⟩ := args_return he hargs
    refine ⟨.declared (setter.layout.send (setter.attributes index.toNat written)), ?_, ?_⟩
    · have hset : setter.set index.toNat values =
          .ok (.declared (setter.layout.send (setter.attributes index.toNat written))) := by
        rw [Setter.set, hwritten]
        rfl
      simp only [Call.run, hread, hset]
      rfl
    · have hfixed := told_fixed hoctets fun f hf hmem =>
        htypes f hf (List.mem_cons_of_mem _ hmem)
      have hindex : ∀ f ∈ setter.layout.fields, f.name = "index" →
          FieldTells f.type (.int index.toNat) index.toNat := by
        intro f hf hname
        rw [htypes f hf (hname ▸ List.mem_cons_self)]
        exact fieldTells_u8 index_range
      have hall : Told setter.layout (("index", .int index.toNat) ::
          ((setter.args.map Prod.fst).zip written ++ setter.fixed))
          (Call.numbers saved mx index (.set last setter args)) :=
        .cons ⟨rfl, hindex⟩ (List.rel_append htold hfixed)
      refine hall.tells ?_ hdeclared htail fun f hf => rfl
      rw [List.map_cons, List.map_append, hkeys]
      exact hnodup

end

/-! ## What is sent -/

/-- A class of commands with numbers for its fields. -/
abbrev Message := Layout × List (String × ℤ)

/-- The commands are these messages. -/
def Sends (sent : List Outgoing) (messages : List Message) : Prop :=
  List.Forall₂ (fun o m => Tells o m.1 m.2) sent messages

/-- A step that sends these messages and reports these labels, and nothing else. -/
def Does (step : Applying → Except Stopped Applying) (messages : List Message)
    (labels : List Text) : Prop :=
  ∀ a, ∃ sent, step a = .ok ⟨a.sent ++ sent,
    { a.result with applied := a.result.applied ++ labels }⟩ ∧ Sends sent messages

namespace Does
variable {step next : Applying → Except Stopped Applying} {messages more : List Message}
  {labels others : List Text}

theorem skip : Does .ok [] [] := fun a => ⟨[], by simp, .nil⟩

/-- A report. -/
theorem note (labels : List Text) : Does (fun a => .ok { a with
    result := { a.result with applied := a.result.applied ++ labels } }) [] labels :=
  fun a => ⟨[], by simp, .nil⟩

/-- One step after another. -/
theorem andThen (h : Does step messages labels) (hnext : Does next more others) :
    Does (fun a => step a >>= next) (messages ++ more) (labels ++ others) := by
  intro a
  obtain ⟨sent, hstep, hsends⟩ := h a
  obtain ⟨sent', hstep', hsends'⟩ := hnext ⟨a.sent ++ sent,
    { a.result with applied := a.result.applied ++ labels }⟩
  refine ⟨sent ++ sent', ?_, List.rel_append hsends hsends'⟩
  dsimp only
  rw [hstep, ← List.append_assoc, ← List.append_assoc]
  exact hstep'

/-- A loop whose turns report nothing. -/
theorem foldlM {ι : Type} {turn : Applying → ι → Except Stopped Applying} {items : List ι}
    {messages : ι → List Message} (h : ∀ i ∈ items, Does (fun a => turn a i) (messages i) []) :
    Does (fun a => items.foldlM turn a) (items.flatMap messages) [] := by
  induction items with
  | nil => exact skip
  | cons i items ih =>
    rw [List.forall_mem_cons] at h
    exact h.1.andThen (ih h.2)

end Does

/-- The messages of the calls for an element. -/
def messagesOf (saved : List (String × Reader)) (mx : Mixer) (index : UInt8)
    (calls : List Call) : List Message :=
  calls.map fun call => (call.layout, call.numbers saved mx index)

/-- Calls that fit send their messages. -/
theorem does_calls {saved : List (String × Reader)} {mx : Mixer} {index : UInt8} {e : Element}
    (he : Saves saved mx index e) {calls : List Call} (h : ∀ call ∈ calls, call.Fits saved)
    (rate : Option ℚ) (label : Text) :
    Does (fun a => calls.foldlM (fun a call => call.run rate label index.toNat e a) a)
      (messagesOf saved mx index calls) [] := by
  have hone : ∀ call ∈ calls, Does (fun a => call.run rate label index.toNat e a)
      [(call.layout, call.numbers saved mx index)] [] := by
    intro call hcall a
    obtain ⟨o, hrun, htells⟩ := (h call hcall).run he rate label a
    exact ⟨[o], by simpa [Applying.send] using hrun, .cons htells .nil⟩
  have hall := Does.foldlM hone
  rwa [← List.map_eq_flatMap] at hall

/-! ## Sections -/

/-- A section whose elements send their messages. -/
theorem does_applyEach {ι : Type} {items : List ι} {elem : ι → Element} {number : ι → UInt8}
    {messages : ι → List Message} {rate : Option ℚ} {parent child : String}
    {address : Element → Except ErrorType (Option ℤ)} {label : ℤ → Text}
    {calls : Element → List Call} {root inner : Element} (done : Text)
    (hfind : find parent root = some inner) (hchildren : findall child inner = items.map elem)
    (haddress : ∀ i ∈ items, address (elem i) = .ok (some ((number i).toNat : ℤ)))
    (hcalls : ∀ i ∈ items, Does (fun a => (calls (elem i)).foldlM (fun a call =>
      call.run rate (label (number i).toNat) (number i).toNat (elem i) a) a) (messages i) []) :
    Does (applyEach rate parent child address label calls done root) (items.flatMap messages)
      [done] := by
  have hturn : ∀ i ∈ items, Does (fun a => applyElement rate address label calls a (elem i))
      (messages i) [] := by
    intro i hi
    unfold applyElement
    rw [haddress i hi]
    exact hcalls i hi
  have hdone := (Does.foldlM hturn).andThen (.note [done])
  rw [List.append_nil, List.nil_append] at hdone
  have hstep : applyEach rate parent child address label calls done root = fun a =>
      items.foldlM (fun a i => applyElement rate address label calls a (elem i)) a >>=
        fun a => .ok (a.noteApplied done) := by
    funext a
    unfold applyEach
    rw [hfind]
    dsimp only
    rw [hchildren, List.foldlM_map]
    rfl
  rw [hstep]
  exact hdone

/-- What is looked up among mapped values. -/
theorem lookup_mapped {α β : Type} (g : α → β) (l : List (String × α)) (key : String) :
    (l.map fun p => (p.1, g p.2)).lookup key = (l.lookup key).map g := by
  induction l with
  | nil => rfl
  | cons p l ih =>
    rw [List.map_cons, List.lookup_cons, List.lookup_cons, ih]
    cases key == p.1 <;> rfl

/-- An element that is saved has its number, and its attributes. -/
theorem saves_savedElement (tag : String) (index : UInt8) (mx : Mixer)
    {saved : List (String × Reader)} (hindex : (saved.lookup "index").isNone = true) :
    Saves saved mx index (savedElement tag index mx saved) := by
  intro key r hr
  have hne : (key == "index") = false := by
    rw [beq_eq_false_iff_ne]
    rintro rfl
    rw [hr] at hindex
    cases hindex
  rw [savedElement, attrib_element, List.lookup_cons, hne]
  show (savedAttributes saved mx index).lookup key = _
  rw [savedAttributes, lookup_mapped (fun r : Reader => r.text mx index) saved key, hr]
  rfl

/-- An element that has the only attribute. -/
theorem saves_one {mx : Mixer} {index : UInt8} {e : Element} {key : String} {r : Reader}
    (h : attrib key e = some (r.text mx index)) : Saves [(key, r)] mx index e := by
  intro key' r' hr
  rw [List.lookup_cons] at hr
  cases hkey : key' == key with
  | true =>
    rw [hkey] at hr
    rwa [eq_of_beq hkey, ← Option.some.inj hr]
  | false =>
    rw [hkey] at hr
    cases hr

theorem indexOf_element (tag : String) (index : UInt8) (attrs : List (String × Text)) :
    indexOf (element tag (("index", fmt (.int index.toNat)) :: attrs) []) =
      .ok (some (index.toNat : ℤ)) := by
  have hrange := @index_range index
  rw [indexOf, attrib_element, List.lookup_cons_self,
    intOf_fmt 0 ⟨hrange.1, hrange.2.trans (by decide)⟩]
  rfl

/-- The children of a section are found again. -/
theorem findall_children {ι : Type} (parent child : String) (items : List ι)
    (attrs : ι → List (String × Text)) :
    findall child (element parent [] (items.map fun i => element child (attrs i) [])) =
      items.map fun i => element child (attrs i) [] := by
  apply findall_all
  rw [List.forall_mem_map]
  exact fun i _ => rfl

/-- The calls for the elements of a section fit what is saved of them. -/
theorem sectionCalls_fit : ∀ p ∈
    [(colorGeneratorAttributes, colorGeneratorCalls), ([("input", Readers.auxSource)], auxCalls),
     (dskAttributes, dskCalls)], ∀ call ∈ p.2, call.Fits p.1 := by
  decide +kernel

section
variable (mx : Mixer)

/-! ### Color generators -/

/-- The commands for a color generator. -/
def colorGeneratorTold (index : UInt8) : List Message :=
  let node := mx.colorGenerator.lookup index
  [(colorGeneratorCommand, [("index", index.toNat), ("hue", told node "hue" 0)]),
   (colorGeneratorCommand,
    [("index", index.toNat), ("saturation", min 1000 (told node "saturation" 0))]),
   (colorGeneratorCommand, [("index", index.toNat), ("luma", min 1000 (told node "luma" 0))])]

theorem colorGenerator_messages (index : UInt8) :
    messagesOf colorGeneratorAttributes mx index colorGeneratorCalls =
      colorGeneratorTold mx index := rfl

theorem does_applyColorGenerators (rate : Option ℚ) {root : Element}
    (hfind : find "ColorGenerators" root = some (buildColorGenerators mx)) :
    Does (applyColorGenerators rate root) ([0, 1].flatMap (colorGeneratorTold mx))
      ["color_generators".toList] := by
  refine @does_applyEach UInt8 _ _ id _ _ _ _ _ _ _ _ _ _ hfind
    (findall_children _ _ _ _) (fun i _ => indexOf_element _ i _) fun i _ => ?_
  have hsaves := @saves_savedElement "ColorGenerator" i mx colorGeneratorAttributes (by decide)
  rw [← colorGenerator_messages]
  exact does_calls hsaves
    (sectionCalls_fit (colorGeneratorAttributes, colorGeneratorCalls) (by simp)) rate _

/-! ### Auxiliaries -/

/-- The command for an auxiliary. -/
def auxTold (index : UInt8) : List Message :=
  [(Commands.auxSourceCommand,
    [("index", index.toNat), ("source", told (mx.auxOutputSource.lookup index) "source" 0),
     ("mask", 1)])]

theorem aux_messages (index : UInt8) :
    messagesOf [("input", Readers.auxSource)] mx index auxCalls = auxTold mx index := rfl

theorem auxOf_element (index : UInt8) (attrs : List (String × Text)) :
    auxOf (element "Auxiliary" (("id", fmt (.int (8001 + index.toNat))) :: attrs) []) =
      .ok (some (index.toNat : ℤ)) := by
  have hrange := @index_range index
  have hread : intOf 0 (some (fmt (.int (8001 + index.toNat)))) =
      .ok (8001 + (index.toNat : ℤ)) := intOf_fmt 0 (by omega)
  rw [auxOf, attrib_element, List.lookup_cons_self, hread]
  simp [Except.map]

theorem does_applyAuxiliaries (rate : Option ℚ) {root : Element}
    (hfind : find "Auxiliaries" root = some (buildAuxiliaries mx)) :
    Does (applyAuxiliaries rate root) ((sortedKeys mx.auxOutputSource).flatMap (auxTold mx))
      ["aux_outputs".toList] := by
  refine @does_applyEach UInt8 _ _ id _ _ _ _ _ _ _ _ _ _ hfind
    (findall_children _ _ _ _) (fun i _ => auxOf_element i _) fun i _ => ?_
  rw [← aux_messages]
  refine does_calls (saves_one ?_)
    (sectionCalls_fit ([("input", Readers.auxSource)], auxCalls) (by simp)) rate _
  rw [attrib_element]
  rfl

/-! ### Downstream keys -/

/-- The commands for a downstream key. -/
def dskTold (index : UInt8) : List Message :=
  let base := mx.dkeyPropertiesBase.lookup index
  let props := mx.dkeyProperties.lookup index
  let state := mx.dkeyState.lookup index
  [(Commands.dkeySetFillCommand, [("index", index.toNat), ("source", told base "fill_source" 0)]),
   (Commands.dkeySetKeyCommand, [("index", index.toNat), ("source", told base "key_source" 0)]),
   (Commands.dkeyRateCommand, [("rate", told props "rate" 25), ("index", index.toNat)]),
   (Commands.dkeyMaskCommand, [("index", index.toNat), ("enabled", told props "masked" 0)]),
   (Commands.dkeyMaskCommand, [("index", index.toNat), ("top", told props "top" 0)]),
   (Commands.dkeyMaskCommand, [("index", index.toNat), ("bottom", told props "bottom" 0)]),
   (Commands.dkeyMaskCommand, [("index", index.toNat), ("left", told props "left" 0)]),
   (Commands.dkeyMaskCommand, [("index", index.toNat), ("right", told props "right" 0)]),
   (Commands.dkeyGainCommand,
    [("index", index.toNat), ("premultiplied", told props "premultiplied" 0),
     ("clip", max 0 (min 1000 (told props "clip" 0))),
     ("gain", max 0 (min 1000 (told props "gain" 0))), ("invert", told props "invert_key" 0)]),
   (Commands.dkeyOnairCommand, [("index", index.toNat), ("on_air", told state "on_air" 0)]),
   (Commands.dkeyTieCommand, [("index", index.toNat), ("tie", told props "tie" 0)])]

theorem absent_dskOver (name : String) (power places : ℕ) :
    (Readers.dskProperties name (.over power places) (.real (.finite 0))).absent = 0 := by
  simp [Readers.dskProperties, Reader.absent]

theorem wire_dskOver (name : String) (power places : ℕ) (index : UInt8) :
    (Readers.dskProperties name (.over power places) (.real (.finite 0))).wire mx index =
      told (mx.dkeyProperties.lookup index) name 0 := by
  rw [Reader.wire, absent_dskOver]
  rfl

theorem dsk_messages (index : UInt8) :
    messagesOf dskAttributes mx index dskCalls = dskTold mx index := by
  simp only [dskTold, ← wire_dskOver mx "top" 3 3, ← wire_dskOver mx "bottom" 3 3,
    ← wire_dskOver mx "left" 3 3, ← wire_dskOver mx "right" 3 3, ← wire_dskOver mx "clip" 1 1,
    ← wire_dskOver mx "gain" 1 1]
  rfl

theorem does_applyDownstreamKeys (rate : Option ℚ) {root : Element}
    (hfind : find "DownstreamKeys" root = some (buildDownstreamKeys mx)) :
    Does (applyDownstreamKeys rate root)
      ((List.range (dskCount mx)).flatMap fun i => dskTold mx (UInt8.ofNat i))
      ["downstream_keys".toList] := by
  refine @does_applyEach ℕ _ _ UInt8.ofNat _ _ _ _ _ _ _ _ _ _ hfind
    (findall_children _ _ _ _) (fun i _ => indexOf_element _ _ _) fun i _ => ?_
  have hsaves := @saves_savedElement "DownstreamKey" (UInt8.ofNat i) mx dskAttributes (by decide)
  rw [← dsk_messages]
  exact does_calls hsaves (sectionCalls_fit (dskAttributes, dskCalls) (by simp)) rate _

/-! ### Media players -/

/-- The media players that are saved. -/
def mediaPlayers : List UInt8 :=
  if mx.mediaplayerSelected = [] then [0, 1] else sortedKeys mx.mediaplayerSelected

/-- The command for a media player: a still, or a clip. -/
def mediaPlayerTold (index : UInt8) : List Message :=
  let node := mx.mediaplayerSelected.lookup index
  if told node "source_type" 1 = 1 then
    [(Commands.mediaplayerSelectCommand,
      [("index", index.toNat), ("still", told node "slot" 0), ("mask", 3), ("source_type", 1),
       ("clip", 0)])]
  else
    [(Commands.mediaplayerSelectCommand,
      [("index", index.toNat), ("clip", told node "slot" 0), ("mask", 5), ("source_type", 2),
       ("still", 0)])]

/-- What is saved of a media player, but for the type of its source. -/
def mediaPlayerAttributes : List (String × Reader) :=
  [("sourceIndex", Readers.mediaplayerSelected "slot")]

def stillCall : Call := .set ".still" setMediaPlayerStill [("sourceIndex", .int 0)]

def clipCall : Call := .set ".clip" setMediaPlayerClip [("sourceIndex", .int 0)]

theorem mediaPlayer_fits : ∀ call ∈ [stillCall, clipCall], call.Fits mediaPlayerAttributes := by
  decide

/-- The saved element of a media player: its source is a still, or a clip, as the messages tell. -/
def playerElement (index : UInt8) : Element :=
  element "MediaPlayer"
    [("index", fmt (.int index.toNat)),
     ("sourceType", if told (mx.mediaplayerSelected.lookup index) "source_type" 1 = 1 then
        "Still".toList else "Clip".toList),
     ("sourceIndex", (Readers.mediaplayerSelected "slot").text mx index)] []

theorem sourceType_read {index : UInt8} {m : Recv mediaplayerSelectedField}
    (hm : mx.mediaplayerSelected.lookup index = some m) :
    (Readers.mediaplayerSelected "source_type").read mx index = .int (m.number "source_type") := by
  have hsound : (Readers.mediaplayerSelected "source_type").Sound := by decide
  have hwire : (Readers.mediaplayerSelected "source_type").wire mx index =
      m.number "source_type" := by
    show told (mx.mediaplayerSelected.lookup index) "source_type" _ = _
    rw [hm]
    rfl
  rw [hsound.read_eq, hwire]
  exact congrArg (Showing.int.of (.int 0)) (scalarAt_plain .one false)

theorem mem_sortedKeys {α : Type} {d : List (UInt8 × α)} {index : UInt8}
    (h : index ∈ sortedKeys d) : ∃ v, d.lookup index = some v := by
  obtain ⟨p, hp, rfl⟩ := List.mem_map.mp (List.mem_mergeSort.mp h)
  rw [← Option.ne_none_iff_exists', Ne, List.lookup_eq_none_iff]
  intro hnone
  simpa using hnone p hp

theorem buildMediaPlayers_eq :
    buildMediaPlayers mx =
      element "MediaPlayers" [] ((mediaPlayers mx).map (playerElement mx)) := by
  unfold buildMediaPlayers mediaPlayers
  congr 1
  by_cases hnone : mx.mediaplayerSelected = []
  · rw [if_pos hnone, if_pos hnone]
    have hplayer : ∀ index : UInt8, playerElement mx index = element "MediaPlayer"
        [("index", fmt (.int index.toNat)), ("sourceType", "Still".toList),
         ("sourceIndex", fmt (.int 0))] [] := by
      intro index
      simp only [playerElement, Reader.text, Reader.read, Readers.mediaplayerSelected, hnone]
      rfl
    rw [List.map_congr_left fun index _ => hplayer index]
    rfl
  · rw [if_neg hnone, if_neg hnone]
    refine List.map_congr_left fun index hindex => ?_
    obtain ⟨m, hm⟩ := mem_sortedKeys hindex
    have htold : told (mx.mediaplayerSelected.lookup index) "source_type" 1 =
        m.number "source_type" := by
      rw [hm]
      rfl
    rw [mediaPlayerElement, playerElement, sourceType_read mx hm, htold]
    simp only [Scalar.int.injEq]

theorem mediaPlayerCalls_element (index : UInt8) :
    mediaPlayerCalls (playerElement mx index) =
      if told (mx.mediaplayerSelected.lookup index) "source_type" 1 = 1 then [stillCall]
      else [clipCall] := by
  have htype : attrib "sourceType" (playerElement mx index) =
      some (if told (mx.mediaplayerSelected.lookup index) "source_type" 1 = 1 then
        "Still".toList else "Clip".toList) := by
    rw [playerElement, attrib_element]
    rfl
  unfold mediaPlayerCalls
  rw [htype]
  split_ifs <;> first | rfl | simp_all

theorem does_applyMediaPlayers (rate : Option ℚ) {root : Element}
    (hfind : find "MediaPlayers" root = some (buildMediaPlayers mx)) :
    Does (applyMediaPlayers rate root) ((mediaPlayers mx).flatMap (mediaPlayerTold mx))
      ["media_players".toList] := by
  rw [buildMediaPlayers_eq] at hfind
  refine @does_applyEach UInt8 _ (playerElement mx) id _ _ _ _ _ _ _ _ _ _ hfind
    (findall_children _ _ _ _) (fun i _ => indexOf_element _ i _) fun i _ => ?_
  have hsaves : Saves mediaPlayerAttributes mx i (playerElement mx i) := by
    apply saves_one
    rw [playerElement, attrib_element]
    rfl
  have hfits := List.forall_mem_cons.mp mediaPlayer_fits
  rw [mediaPlayerCalls_element, mediaPlayerTold]
  split_ifs
  · exact does_calls hsaves (List.forall_mem_singleton.mpr hfits.1) rate _
  · exact does_calls hsaves hfits.2 rate _

end

/-! ## In a profile -/

/-- An element that may stand among those that hold no names. -/
def Plain (e : Element) : Prop :=
  e.WellNamed ∧ ∀ n ∈ e.nodes, ∀ p ∈ n.2, IsPlain p.2

theorem plain_element {tag : String} {attrs : List (String × Text)} {children : List Element}
    (h : Shaped tag (attrs.map Prod.fst)) (hattrs : ∀ p ∈ attrs, IsPlain p.2)
    (hchildren : ∀ c ∈ children, Plain c) : Plain (element tag attrs children) := by
  refine ⟨wellNamed_element h fun c hc => (hchildren c hc).1, ?_⟩
  unfold element
  rw [Element.forall_mem_nodes, List.forall_mem_map]
  exact ⟨hattrs, fun c hc => (hchildren c hc).2⟩

/-- A section whose elements have plain attributes. -/
theorem plain_section {ι : Type} {parent child : String} {keys : List String} (items : List ι)
    {attrs : ι → List (String × Text)} (hparent : Shaped parent []) (hchild : Shaped child keys)
    (hkeys : ∀ i, (attrs i).map Prod.fst = keys) (hattrs : ∀ i, ∀ p ∈ attrs i, IsPlain p.2) :
    Plain (element parent [] (items.map fun i => element child (attrs i) [])) := by
  refine plain_element hparent (by simp) ?_
  rw [List.forall_mem_map]
  intro i _
  exact plain_element (hkeys i ▸ hchild) (hattrs i) (by simp)

section
variable (mx : Mixer)

theorem plain_saved (index : UInt8) {saved : List (String × Reader)}
    (h : ∀ p ∈ saved, p.2.form.NamesPlain) : ∀ p ∈ savedAttributes saved mx index,
      IsPlain p.2 := by
  rw [savedAttributes, List.forall_mem_map]
  exact fun p hp => isPlain_form (h p hp) _

theorem plain_numbered (index : UInt8) {saved : List (String × Reader)}
    (h : ∀ p ∈ saved, p.2.form.NamesPlain) :
    ∀ p ∈ ("index", fmt (.int index.toNat)) :: savedAttributes saved mx index, IsPlain p.2 :=
  List.forall_mem_cons.mpr ⟨@isPlain_fmt (.int index.toNat), plain_saved mx index h⟩

theorem plain_colorGenerators : Plain (buildColorGenerators mx) :=
  @plain_section UInt8 _ _ ["index", "hue", "saturation", "luma"] [0, 1] _ (by decide) (by decide)
    (fun _ => rfl) fun i => plain_numbered mx i (by decide)

theorem plain_auxiliaries : Plain (buildAuxiliaries mx) := by
  refine @plain_section UInt8 _ _ ["id", "input"] _ _ (by decide) (by decide) (fun _ => rfl)
    fun i => ?_
  rw [List.forall_mem_cons, List.forall_mem_singleton]
  exact ⟨@isPlain_fmt (.int (8001 + i.toNat)), @isPlain_form .plain trivial _⟩

theorem plain_downstreamKeys : Plain (buildDownstreamKeys mx) :=
  @plain_section ℕ _ _ ("index" :: dskAttributes.map Prod.fst) _ _ (by decide) (by decide)
    (fun _ => rfl) fun i => plain_numbered mx (UInt8.ofNat i) (by decide)

theorem plain_mediaPlayers : Plain (buildMediaPlayers mx) := by
  rw [buildMediaPlayers_eq]
  refine @plain_section UInt8 _ _ ["index", "sourceType", "sourceIndex"] _ _ (by decide)
    (by decide) (fun _ => rfl) fun i => ?_
  rw [List.forall_mem_cons, List.forall_mem_cons, List.forall_mem_singleton]
  refine ⟨@isPlain_fmt (.int i.toNat), ?_, @isPlain_form .plain trivial _⟩
  dsimp only
  split_ifs
  · decide
  · decide

def Plain.given {e : Element} (h : Plain e) : PlainElement := ⟨e, h.1, h.2⟩

/-- With the four sections where `from_atem` has them. -/
def Shape.withSections (shape : Shape) : Shape :=
  { shape with
    beforeSettings := shape.beforeSettings ++
      [(plain_downstreamKeys mx).given, (plain_colorGenerators mx).given,
       (plain_auxiliaries mx).given]
    afterSettings := shape.afterSettings ++ [(plain_mediaPlayers mx).given] }

end

/-- The elements that hold no names. -/
def Shape.given (shape : Shape) : List PlainElement :=
  shape.beforeSettings ++ shape.afterSettings ++ shape.afterMediaPool ++ shape.afterMacros

/-- A tag that only an element without names may have is found among them. -/
theorem findall_fromAtem (shape : Shape) (download : ℕ → Option Bytes) (s : State) {tag : String}
    (htag : tag ∉ ["Settings", "MediaPool", "MacroPool"]) :
    findall tag (fromAtem shape download s) =
      (shape.given.map PlainElement.element).filter fun c => tagOf c = tag.toList := by
  have hne : ∀ other ∈ ["Settings", "MediaPool", "MacroPool"], other.toList ≠ tag.toList := by
    intro other hother heq
    exact htag (String.toList_injective heq ▸ hother)
  simp only [List.forall_mem_cons] at hne
  obtain ⟨hsettings, hmedia, hmacros, -⟩ := hne
  have hnone : ∀ {cs : List Element}, (∀ c ∈ cs, tagOf c ≠ tag.toList) →
      cs.filter (fun c => tagOf c = tag.toList) = [] := by
    intro cs h
    rw [List.filter_eq_nil_iff]
    simpa using h
  have hsettings : ((shape.settings.map fun settings =>
      buildSettings settings s.inputProperties).toList).filter
        (fun c => tagOf c = tag.toList) = [] := by
    apply hnone
    intro c hc
    obtain ⟨settings, -, rfl⟩ := Option.map_eq_some_iff.mp (Option.mem_toList.mp hc)
    exact hsettings
  have hmedia : (if shape.mediaPoolMetadata then [buildMediaPoolStills s.mediaplayerFileInfo]
      else []).filter (fun c => tagOf c = tag.toList) = [] := by
    apply hnone
    split_ifs
    · exact List.forall_mem_singleton.mpr hmedia
    · simp
  have hmacros : (if shape.macros then [buildMacroPool s.macroProperties download] else []).filter
      (fun c => tagOf c = tag.toList) = [] := by
    apply hnone
    split_ifs
    · exact List.forall_mem_singleton.mpr hmacros
    · simp
  unfold fromAtem element findall Shape.given
  simp only [List.filter_append, List.map_append, hsettings, hmedia, hmacros, List.append_nil]

/-- The tags of the four sections. -/
def sectionTags : List String :=
  ["DownstreamKeys", "ColorGenerators", "Auxiliaries", "MediaPlayers"]

/-- No other element has the tag of one of the four. -/
def Shape.ClearOfSections (shape : Shape) : Prop :=
  ∀ p ∈ shape.given, ∀ tag ∈ sectionTags, tagOf p.element ≠ tag.toList

section
variable {shape : Shape} (hclear : shape.ClearOfSections) (mx : Mixer)
  (download : ℕ → Option Bytes) (s : State)
include hclear

/-- A section is found where it was saved. -/
theorem find_section {tag : String} (htag : tag ∈ sectionTags) :
    find tag (fromAtem (shape.withSections mx) download s) =
      [buildDownstreamKeys mx, buildColorGenerators mx, buildAuxiliaries mx,
        buildMediaPlayers mx].find? fun c => tagOf c = tag.toList := by
  have hother : tag ∉ ["Settings", "MediaPool", "MacroPool"] := by
    revert tag
    decide
  have hgiven : ∀ {ps : List PlainElement}, (∀ p ∈ ps, p ∈ shape.given) →
      (ps.map PlainElement.element).filter (fun c => tagOf c = tag.toList) = [] :=
    fun h => findall_given fun p hp => hclear p (h p hp) tag htag
  have hbefore := @hgiven shape.beforeSettings fun p hp => by simp [Shape.given, hp]
  have hafter := @hgiven shape.afterSettings fun p hp => by simp [Shape.given, hp]
  have hmedia := @hgiven shape.afterMediaPool fun p hp => by simp [Shape.given, hp]
  have hmacros := @hgiven shape.afterMacros fun p hp => by simp [Shape.given, hp]
  rw [find, findall_fromAtem _ _ _ hother, ← List.head?_filter]
  unfold Shape.given Shape.withSections
  simp only [List.map_append, List.filter_append, hbefore, hafter, hmedia, hmacros,
    List.nil_append, List.append_nil]
  rw [← List.filter_append]
  rfl

/-- The commands for the four sections. -/
def sectionsTold : List Message :=
  [0, 1].flatMap (colorGeneratorTold mx) ++
    (sortedKeys mx.auxOutputSource).flatMap (auxTold mx) ++
    ((List.range (dskCount mx)).flatMap fun i => dskTold mx (UInt8.ofNat i)) ++
    (mediaPlayers mx).flatMap (mediaPlayerTold mx)

theorem does_applySections (rate : Option ℚ) :
    Does (applySections rate (fromAtem (shape.withSections mx) download s)) (sectionsTold mx)
      ["color_generators".toList, "aux_outputs".toList, "downstream_keys".toList,
        "media_players".toList] := by
  have hfind := fun tag htag => @find_section shape hclear mx download s tag htag
  have hcolors := does_applyColorGenerators mx rate (hfind "ColorGenerators" (by decide))
  have hauxes := does_applyAuxiliaries mx rate (hfind "Auxiliaries" (by decide))
  have hkeys := does_applyDownstreamKeys mx rate (hfind "DownstreamKeys" (by decide))
  have hplayers := does_applyMediaPlayers mx rate (hfind "MediaPlayers" (by decide))
  have hall := hcolors.andThen (hauxes.andThen (hkeys.andThen hplayers))
  rw [← List.append_assoc, ← List.append_assoc] at hall
  exact hall

end

/-- The four sections, saved from one switcher and put back on another: the saved text is read as
what was saved, every setter is called and none fails, and the commands have the numbers that the
first switcher reported, in the order of the sections and of their elements. -/
theorem sections_put_back {fromstring : Text → Option Element} (hf : ReadsXml fromstring)
    {shape : Shape} (hclear : shape.ClearOfSections) {s : State} (hnames : LegalNames shape s)
    (mx : Mixer) (download : ℕ → Option Bytes) (rate : Option ℚ) (a : Applying) :
    ∃ root sent,
      fromXml fromstring (toXml (fromAtem (shape.withSections mx) download s)) = .ok root ∧
      applySections rate root a =
        .ok ⟨a.sent ++ sent, { a.result with
          applied := a.result.applied ++ ["color_generators".toList, "aux_outputs".toList,
            "downstream_keys".toList, "media_players".toList] }⟩ ∧
      Sends sent (sectionsTold mx) := by
  have hlegal := (fromAtem_legal (shape.withSections mx) download s).mpr
    ⟨hnames.product, hnames.inputs, hnames.stills, hnames.macros⟩
  obtain ⟨sent, happlied, hsends⟩ := does_applySections hclear mx download s rate a
  exact ⟨_, sent, fromXml_legal hf (fromAtem_wellNamed _ download s) hlegal, happlied, hsends⟩

/-- A color generator of a blue: 240 degrees, saturated, of half the luma. -/
def blueGenerator : Recv colorGeneratorField where
  raw := [0, 0, 0x09, 0x60, 0x03, 0xe8, 0x01, 0xf4]
  enough := by decide

def blueMixer : Mixer := { Mixer.silent with colorGenerator := [(0, blueGenerator)] }

theorem sections_put_back_blue :
    ∃ root sent result,
      fromXml readDocument
        (toXml (fromAtem (macrosOnly.withSections blueMixer) cutDownload cutState)) = .ok root ∧
      applySections none root ⟨[], [], [], []⟩ = .ok ⟨sent, result⟩ ∧
      Sends sent (sectionsTold blueMixer) ∧
      (sectionsTold blueMixer).take 3 =
        [(colorGeneratorCommand, [("index", 0), ("hue", 2400)]),
         (colorGeneratorCommand, [("index", 0), ("saturation", 1000)]),
         (colorGeneratorCommand, [("index", 0), ("luma", 500)])] := by
  have hclear : macrosOnly.ClearOfSections := by
    simp [Shape.ClearOfSections, Shape.given, macrosOnly]
  obtain ⟨root, sent, hread, happlied, hsends⟩ := sections_put_back readsXml_readDocument hclear
    legalNames_cut blueMixer cutDownload none ⟨[], [], [], []⟩
  exact ⟨root, sent, _, hread, happlied, hsends, by decide⟩

end Bmdwire.Profile
