import Bmdwire.Analysis.CommandSet
import Bmdwire.Program.Rates

/-!
# Rates that are shown and given back

A number of frames that is shown as `seconds:frames` is read as the same number, whatever the rate
of the video mode, below zero too. So a rate that is given back as it was shown, or as a bare count
of frames, is sent as it was by every setter, when it fits the field, and otherwise is not sent.
-/

set_option autoImplicit false

namespace Bmdwire.Rates

open Library

/-! ## Texts -/

theorem isNumeral_digits (n : ℕ) : ∀ c ∈ Nat.toDigits 10 n, IsNumeral 10 c :=
  isNumeral_toDigits (by decide)

/-- An integer is read back. -/
theorem parseInt_intText (n : ℤ) : parseInt 10 (intText n) = some n := by
  have hdigits := isNumeral_digits n.natAbs
  have hmagnitude : magnitude 10 (Nat.toDigits 10 n.natAbs) = some n.natAbs := by
    rw [magnitude_numerals (by decide) hdigits Nat.toDigits_ne_nil,
      digitsValue_toDigits (by decide) (by decide)]
  unfold intText
  by_cases hneg : n < 0
  · rw [if_pos hneg]
    have hstrip : strip ('-' :: Nat.toDigits 10 n.natAbs) = '-' :: Nat.toDigits 10 n.natAbs := by
      refine strip_of_ends (fun c hc => ?_) fun c hc => ?_
      · obtain rfl : '-' = c := Option.some.inj hc
        rfl
      · rw [List.getLast?_cons_of_ne_nil Nat.toDigits_ne_nil] at hc
        exact (hdigits c (List.mem_of_getLast? hc)).not_space (by decide)
    rw [List.singleton_append, parseInt, hstrip]
    simp only [hmagnitude]
    exact congrArg some (show -(n.natAbs : ℤ) = n by omega)
  · rw [if_neg hneg, List.nil_append, parseInt_numerals (by decide) hdigits Nat.toDigits_ne_nil,
      digitsValue_toDigits (by decide) (by decide)]
    congr 1
    omega

theorem colon_notMem_intText (n : ℤ) : ':' ∉ intText n := by
  unfold intText
  rw [List.mem_append]
  rintro (hsign | hdigit)
  · split_ifs at hsign
    · simp at hsign
    · cases hsign
  · obtain ⟨d, hd, heq⟩ := isNumeral_digits _ _ hdigit
    interval_cases d <;> revert heq <;> decide

theorem colon_notMem_padded (width n : ℕ) : ':' ∉ padded 10 width n := by
  intro h
  obtain ⟨d, hd, heq⟩ := @isNumeral_padded 10 width n (by decide) _ h
  interval_cases d <;> revert heq <;> decide

/-- The rate of frames that both sides use. -/
def usedFps (fps : ℤ) : ℤ := if fps ≤ 0 then fallbackFps else fps

theorem usedFps_pos (fps : ℤ) : 0 < usedFps fps := by
  unfold usedFps fallbackFps
  split_ifs <;> omega

/-- A rate that is shown is read as it was. -/
theorem parseRate_formatRate (n fps : ℤ) : parseRate (some (formatRate n fps)) fps = n := by
  have hpos := usedFps_pos fps
  have htext : formatRate n fps = [':'].intercalate
      [intText (n / usedFps fps), padded 10 2 (n % usedFps fps).toNat] := by
    simp [formatRate, usedFps, List.intercalate]
  have hcolon : ':' ∈ formatRate n fps := by
    simp [formatRate]
  have hsplit : (formatRate n fps).splitOn ':' =
      [intText (n / usedFps fps), padded 10 2 (n % usedFps fps).toNat] := by
    rw [htext]
    refine List.splitOn_intercalate _ ?_ (by simp)
    intro l hl
    obtain rfl | hl := List.mem_cons.mp hl
    · exact colon_notMem_intText _
    · obtain rfl := List.mem_singleton.mp hl
      exact colon_notMem_padded _ _
  have hframes : ((n % usedFps fps).toNat : ℤ) = n % usedFps fps :=
    Int.toNat_of_nonneg (Int.emod_nonneg n hpos.ne')
  unfold parseRate
  dsimp only
  rw [if_pos hcolon, hsplit]
  dsimp only
  rw [parseInt_intText, parseInt_padded (by decide) (by decide)]
  dsimp only
  rw [hframes]
  exact Int.ediv_mul_add_emod n (usedFps fps)

/-- A bare count is read as it is. -/
theorem parseRate_intText (n fps : ℤ) : parseRate (some (intText n)) fps = n := by
  unfold parseRate
  dsimp only
  rw [if_neg (colon_notMem_intText n), parseInt_intText]
  rfl

/-! ## Setters -/

namespace RateSetter

/-- The type of the rate in the command. -/
def type (setter : RateSetter) : FieldType :=
  ((setter.layout.fields.find? fun f => f.name = setter.key).map Field.type).getD Commands.u8

/-- What the fields of the command are given: the rate an unsigned number without a scale, and the
others numbers of one octet. -/
structure Sound (setter : RateSetter) : Prop where
  declared : setter.layout ∈ declaredCommands
  tail : setter.layout.tail = none
  has : ∃ f ∈ setter.layout.fields, f.name = setter.key
  type : setter.type = Commands.u8 ∨ setter.type = Commands.u16
  rate : ∀ f ∈ setter.layout.fields, f.name = setter.key → f.type = setter.type
  address : ∀ f ∈ setter.layout.fields, f.name ≠ setter.key →
    f.name = "index" ∨ f.name = "keyer" → f.type = Commands.u8
  more : ∀ f ∈ setter.layout.fields, f.name ≠ setter.key → ∀ value,
    setter.more.lookup f.name = some value → f.type = Commands.u8 ∧ value = .int 1

theorem sound_of_mem : ∀ setter ∈ rateSetters, setter.Sound := by
  have hmore : ∀ setter ∈ rateSetters, ∀ f ∈ setter.layout.fields, f.name ≠ setter.key →
      ∀ value ∈ (setter.more.lookup f.name).toList, f.type = Commands.u8 ∧ value = .int 1 := by
    decide
  have hrest : ∀ setter ∈ rateSetters, setter.layout ∈ declaredCommands ∧
      setter.layout.tail = none ∧ (∃ f ∈ setter.layout.fields, f.name = setter.key) ∧
      (setter.type = Commands.u8 ∨ setter.type = Commands.u16) ∧
      (∀ f ∈ setter.layout.fields, f.name = setter.key → f.type = setter.type) ∧
      ∀ f ∈ setter.layout.fields, f.name ≠ setter.key → f.name = "index" ∨ f.name = "keyer" →
        f.type = Commands.u8 := by
    decide
  intro setter h
  obtain ⟨hdeclared, htail, hhas, htype, hrate, haddress⟩ := hrest setter h
  exact ⟨hdeclared, htail, hhas, htype, hrate, haddress, fun f hf hkey value hvalue =>
    hmore setter h f hf hkey value (Option.mem_toList.mpr hvalue)⟩

theorem mem_of_setTransitionRate {style : ℤ} {setter : RateSetter}
    (h : setTransitionRate style = some setter) : setter ∈ rateSetters := by
  unfold setTransitionRate at h
  split_ifs at h <;> cases h <;> simp [rateSetters]

/-- The numbers that the field of the rate can hold. -/
def Holds (setter : RateSetter) (frames : ℤ) : Prop :=
  0 ≤ frames ∧ frames < 2 ^ (8 * setter.type.size)

instance (setter : RateSetter) (frames : ℤ) : Decidable (setter.Holds frames) :=
  inferInstanceAs (Decidable (_ ∧ _))

section
variable {setter : RateSetter} {index keyer frames : ℤ}

theorem inRange_u8 {n : ℤ} (h : 0 ≤ n ∧ n < 256) : Commands.u8.InRange (.int n) :=
  ⟨n, by simp [wireInt, Scale.scales], h⟩

theorem inRange_of_pack {width : Width} {signed : Bool} {scale : Scale} {value : Value}
    {octets : Bytes} (h : (FieldType.number width signed scale).pack value = some octets) :
    (FieldType.number width signed scale).InRange value := by
  obtain ⟨wire, hwire, hnumber⟩ := Option.bind_eq_some_iff.mp h
  exact ⟨wire, hwire, fits_of_packNumber hnumber⟩

/-- The rate is in range exactly when the field can hold it. -/
theorem Sound.inRange_rate (h : setter.Sound) :
    setter.type.InRange (.int frames) ↔ setter.Holds frames := by
  unfold Holds
  rcases h.type with htype | htype
  · rw [htype]
    constructor
    · rintro ⟨wire, hwire, hfits⟩
      obtain rfl : frames = wire := by simpa [wireInt, Scale.scales] using hwire
      exact hfits
    · intro hholds
      exact ⟨frames, by simp [wireInt, Scale.scales], hholds⟩
  · rw [htype]
    constructor
    · rintro ⟨wire, hwire, hfits⟩
      obtain rfl : frames = wire := by simpa [wireInt, Scale.scales] using hwire
      exact hfits
    · intro hholds
      exact ⟨frames, by simp [wireInt, Scale.scales], hholds⟩

theorem Sound.inRange (h : setter.Sound) (hindex : 0 ≤ index ∧ index < 256)
    (hkeyer : 0 ≤ keyer ∧ keyer < 256) (hframes : setter.Holds frames) :
    setter.layout.InRange (setter.attributes index keyer frames) := by
  refine ⟨fun f hf value hvalue => ?_, fun tail htail => ?_⟩
  · unfold attributes at hvalue
    by_cases hkey : f.name = setter.key
    · rw [if_pos hkey] at hvalue
      obtain rfl := Option.some.inj hvalue
      rw [h.rate f hf hkey]
      exact h.inRange_rate.mpr hframes
    · rw [if_neg hkey] at hvalue
      split_ifs at hvalue with hindexed hkeyed
      · obtain rfl := Option.some.inj hvalue
        rw [h.address f hf hkey (.inl hindexed)]
        exact inRange_u8 hindex
      · obtain rfl := Option.some.inj hvalue
        rw [h.address f hf hkey (.inr hkeyed)]
        exact inRange_u8 hkeyer
      · obtain ⟨htype, rfl⟩ := h.more f hf hkey value hvalue
        rw [htype]
        exact inRange_u8 (by decide)
  · rw [h.tail] at htail
    cases htail

theorem Sound.unpack_of_readsBack (h : setter.Sound) {octets : Bytes}
    (hback : setter.type.ReadsBack (.int frames) octets) :
    setter.type.unpack octets = .int frames := by
  have hnumber : ∀ width, (FieldType.number width false (.float 1)).ReadsBack (.int frames) octets →
      (FieldType.number width false (.float 1)).unpack octets = .int frames := by
    intro width hread
    have hplain : (Scale.float 1).scales = false := by simp [Scale.scales]
    simp only [FieldType.ReadsBack, hplain, Bool.false_eq_true, if_false] at hread
    obtain ⟨n, hn, hunpack⟩ := hread
    have hsame : (frames : ℚ) = n := Option.some.inj hn
    rw [hunpack, Int.cast_injective hsame]
  rcases h.type with htype | htype
  · rw [htype] at hback ⊢
    exact hnumber .one hback
  · rw [htype] at hback ⊢
    exact hnumber .two hback

/-- The command, as an object with values in range. -/
def Sound.command (h : setter.Sound) (hindex : 0 ≤ index ∧ index < 256)
    (hkeyer : 0 ≤ keyer ∧ keyer < 256) (hframes : setter.Holds frames) : DeclaredCommand where
  layout := setter.layout
  attrs := setter.attributes index keyer frames
  declared := h.declared
  inRange := h.inRange hindex hkeyer hframes
  short := by simp [Layout.tailData, h.tail]

/-- A rate that the field cannot hold makes no command. -/
theorem Sound.holds_of_sent (h : setter.Sound)
    (hsent : (Outgoing.declared (setter.layout.send
      (setter.attributes index keyer frames))).getCommand ≠ none) : setter.Holds frames := by
  obtain ⟨command, hcommand⟩ := Option.ne_none_iff_exists'.mp hsent
  obtain ⟨body, hbody, -⟩ := Option.bind_eq_some_iff.mp hcommand
  obtain ⟨packed, hpacked, -⟩ := Option.bind_eq_some_iff.mp hbody
  obtain ⟨hpackable, -⟩ := packable_of_packFields hpacked
  obtain ⟨f, hf, hkey⟩ := h.has
  have hvalue : setter.attributes index keyer frames f.name = some (.int frames) := if_pos hkey
  obtain ⟨octets, hpack⟩ := hpackable f hf _ hvalue
  rw [h.rate f hf hkey] at hpack
  apply h.inRange_rate.mp
  rcases h.type with htype | htype
  · rw [htype] at hpack ⊢
    exact inRange_of_pack hpack
  · rw [htype] at hpack ⊢
    exact inRange_of_pack hpack

end

end RateSetter

/-- A rate as a user gives it: as it is shown, or as a bare count of frames. -/
def Says (text : Line) (frames fps : ℤ) : Prop :=
  text = formatRate frames fps ∨ text = intText frames

theorem parseRate_says {text : Line} {frames fps : ℤ} (h : Says text frames fps) :
    parseRate (some text) fps = frames := by
  obtain rfl | rfl := h
  · exact parseRate_formatRate frames fps
  · exact parseRate_intText frames fps

/-- A rate that is given back as it is shown at the rate of the video mode, or as a bare count, is
sent exactly when its field can hold it, and then it is what the command carries. -/
theorem shown_rate_sent {setter : RateSetter} (hsetter : setter ∈ rateSetters) (rate : Option ℚ)
    {index keyer frames : ℤ} (hindex : 0 ≤ index ∧ index < 256) (hkeyer : 0 ≤ keyer ∧ keyer < 256)
    {text : Line} (htext : Says text frames (displayFps rate)) :
    ((setter.set rate (some text) index keyer).getCommand ≠ none ↔ setter.Holds frames) ∧
    ∀ command, (setter.set rate (some text) index keyer).getCommand = some command →
      ∃ payload, Carries setter.layout (setter.attributes index keyer frames) command payload ∧
        ∀ f ∈ setter.layout.fields, f.name = setter.key →
          f.type.unpack (slice f.offset f.type.size payload) = .int frames := by
  have hsound := RateSetter.sound_of_mem setter hsetter
  have hset : setter.set rate (some text) index keyer =
      .declared (setter.layout.send (setter.attributes index keyer frames)) := by
    rw [RateSetter.set, parseRate_says htext]
  rw [hset]
  constructor
  · constructor
    · exact hsound.holds_of_sent
    · intro hholds hnone
      have hmade := (hsound.command hindex hkeyer hholds).getCommand_wire
      exact absurd (hnone.symm.trans hmade) (by simp)
  · intro command hcommand
    have hholds := hsound.holds_of_sent (by rw [hcommand]; simp)
    have hmade := (hsound.command hindex hkeyer hholds).getCommand_wire
    obtain rfl := Option.some.inj (hmade.symm.trans hcommand)
    obtain ⟨payload, -, hcarries⟩ := (hsound.command hindex hkeyer hholds).carries
    refine ⟨payload, hcarries, fun f hf hkey => ?_⟩
    have hback := hcarries.fields f hf (.int frames) (if_pos hkey)
    rw [hsound.rate f hf hkey] at hback ⊢
    exact hsound.unpack_of_readsBack hback

/-- `1:15` at 59.94 fields is 45 frames of a mix. -/
theorem shown_rate_sent_mix :
    ∃ command payload,
      (setMixRate.set (some (2997 / 50)) (some "1:15".toList) 0 0).getCommand = some command ∧
      Carries setMixRate.layout (setMixRate.attributes 0 0 45) command payload := by
  have hrate : displayFps (some (2997 / 50)) = 30 := by decide +kernel
  have hsays : Says "1:15".toList 45 (displayFps (some (2997 / 50))) := by
    rw [hrate]
    exact .inl (by decide +kernel)
  have hholds : setMixRate.Holds 45 := by decide +kernel
  obtain ⟨hmade, hcarried⟩ := @shown_rate_sent setMixRate (by simp [rateSetters])
    (some (2997 / 50)) 0 0 45 (by decide) (by decide) _ hsays
  obtain ⟨command, hcommand⟩ := Option.ne_none_iff_exists'.mp (hmade.mpr hholds)
  obtain ⟨payload, hpayload, -⟩ := hcarried command hcommand
  exact ⟨command, payload, hcommand, hpayload⟩

end Bmdwire.Rates
