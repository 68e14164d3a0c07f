import Bmdwire.Analysis.FairlightWire

/-!
# Exactly when a Fairlight setter serves its caller

For each of the four operations: what the wire says of the numbers that are given, the condition
on them, and that the one holds exactly when the other does (`serialises_iff`).
-/

set_option autoImplicit false

namespace Bmdwire.Fairlight

open Library (FloatVal slice Nearest Within)

/-! ## What is read from a command -/

/-- The number in a place of the payload. -/
def wireAt (place size : ℕ) (signed : Bool) (command : Bytes) : ℤ :=
  unpackNumber signed (slice (8 + place) size command)

/-- The channel that the two octets of `_split_channel` stand for. -/
def channelAt (command : Bytes) : ℤ :=
  if wireAt 14 1 false command = 0xff then wireAt 15 1 true command else -1

/-- The nearest number of hundredths of the range. -/
def LevelServed (lo hi : ℤ) (v : Number) (wire : ℤ) : Prop :=
  Nearest (Within lo hi) (v.exact * 100) wire

def WholeServed (lo hi : ℤ) (v : Number) (wire : ℤ) : Prop := Nearest (Within lo hi) v.exact wire

section
variable {code : WireCode} {items : List Item} {bs command : Bytes}

/-- A number that is packed is read from the command. -/
theorem wireAt_eq {sizes : List ℕ} (hsizes : items.map Item.size = sizes)
    (hbody : structPack items = some bs) (hframe : frameCommand code bs = some command) (k : ℕ)
    {place size : ℕ} {signed : Bool} {value : ℤ}
    (hk : items[k]? = some (.number (size + 1) signed value))
    (hplace : (sizes.take k).sum = place) : wireAt place (size + 1) signed command = value := by
  refine unpackNumber_command hbody hframe (Nat.succ_pos size) hk ?_
  rw [offsetOf, List.map_take, hsizes, hplace]

/-- The channel is read from its two octets. -/
theorem channelAt_eq {channel : ℤ}
    (hsplit : wireAt 14 1 false command = (splitChannel channel).1)
    (hch : wireAt 15 1 true command = (splitChannel channel).2) : channelAt command = channel := by
  rw [channelAt, hsplit, hch, splitChannel]
  by_cases h : channel = -1
  · simp [h]
  · simp [h]

/-- The call is served exactly when what its command is made from is: the body is packed, and what
is read from the command is what was packed. -/
theorem queued_iff {γ ω : Type} {made : Option γ} {body : γ → Option Bytes} {wire : γ → Option ω}
    {read : Bytes → ω} {served : ω → Prop}
    (hread : ∀ c bs command, body c = some bs → frameCommand code bs = some command →
      wire c = some (read command))
    (hbody : ∀ c w, made = some c → wire c = some w → served w →
      ∃ bs, body c = some bs ∧ bs.length + 8 < 0x10000) :
    (∃ m command, made.map (fun c => Outgoing.packed code (body c)) = some m ∧
      m.getCommand = some command ∧ served (read command)) ↔
    ∃ c w, made = some c ∧ wire c = some w ∧ served w := by
  constructor
  · rintro ⟨m, command, hm, hcommand, hserved⟩
    obtain ⟨c, hmade, rfl⟩ := Option.map_eq_some_iff.mp hm
    obtain ⟨bs, hbs, hframe⟩ := Option.bind_eq_some_iff.mp hcommand
    exact ⟨c, _, hmade, hread c bs command hbs hframe, hserved⟩
  · rintro ⟨c, w, hmade, hwire, hserved⟩
    obtain ⟨bs, hbs, hlength⟩ := hbody c w hmade hwire hserved
    have hframe : frameCommand code bs = some _ := if_pos hlength
    have hcommand : (Outgoing.packed code (body c)).getCommand = some _ :=
      Option.bind_eq_some_iff.mpr ⟨bs, hbs, hframe⟩
    refine ⟨_, _, by rw [hmade, Option.map_some], hcommand, ?_⟩
    rwa [← Option.some.inj (hwire.symm.trans (hread c bs _ hbs hframe))]

/-- A body whose values fit is packed. -/
theorem packed_of_fits {sizes : List ℕ} (hsizes : items.map Item.size = sizes)
    (hshort : sizes.sum + 8 < 0x10000) (h : ∀ item ∈ items, item.Fits) :
    ∃ bs, structPack items = some bs ∧ bs.length + 8 < 0x10000 := by
  obtain ⟨bs, hbs⟩ := structPack_of_fits h
  refine ⟨bs, hbs, ?_⟩
  rwa [length_structPack hbs, hsizes]

end

/-- The numbers that may be given are finite. -/
def AllFinite (numbers : List (Option Number)) : Prop := ∀ o ∈ numbers, ∀ v ∈ o, v.Finite

/-! ## What may be left out -/

/-- A truth value that may be left out. -/
theorem flags_iff {o : Option Number} (h : ∀ v ∈ o, v.Finite) {wire : ℤ}
    (hwire : wire = ((o.map Number.toBool).getD false).toInt) :
    (∀ v ∈ o, WholeServed 0 1 v wire) ↔ ∀ v ∈ o, FlagOk v := by
  cases o with
  | none => simp
  | some v =>
    subst hwire
    simpa [WholeServed] using flag_iff (h v rfl)

/-- A level that may be left out. -/
theorem levels_iff {o : Option Number} (h : ∀ v ∈ o, v.Finite) {lo hi : ℤ} (hle : lo ≤ hi)
    (hlo : |lo| ≤ 2 ^ 38) (hhi : |hi| ≤ 2 ^ 38) :
    (∃ w, ServedBy (dbToWire lo hi) (LevelServed lo hi) o w) ↔ ∀ v ∈ o, ClampedOk lo hi v :=
  servedBy_iff fun v hv => clamped_iff (h v hv) hle hlo hhi

/-- A level that may be left out and is not clamped. -/
theorem unclamped_levels_iff {o : Option Number} (h : ∀ v ∈ o, v.Finite) {lo hi : ℤ}
    (hle : lo ≤ hi) (hlo : |lo| ≤ 2 ^ 38) (hhi : |hi| ≤ 2 ^ 38) (heven : lo % 2 = 0)
    (heven' : hi % 2 = 0) :
    (∃ w, ServedBy Number.toHundredths (LevelServed lo hi) o w) ↔ ∀ v ∈ o, UnclampedOk lo hi v :=
  servedBy_iff fun v hv => unclamped_iff (h v hv) hle hlo hhi heven heven'

theorem pans_iff {o : Option Number} (h : ∀ v ∈ o, v.Finite) :
    (∃ w, ServedBy panToWire (LevelServed (-10000) 10000) o w) ↔
      ∀ v ∈ o, ClampedOk (-10000) 10000 v :=
  servedBy_iff fun v hv => pan_iff (h v hv)

/-- An integer that may be left out. -/
theorem wholes_iff {o : Option Number} (h : ∀ v ∈ o, v.Finite) {lo hi : ℤ} (hlo : lo ≤ 0)
    (hhi : 0 ≤ hi) :
    (∃ w, ServedBy Number.toInt (WholeServed lo hi) o w) ↔ ∀ v ∈ o, WholeOk lo hi v :=
  servedBy_iff fun v hv => whole_iff (h v hv) hlo hhi

theorem fits_bool (b : Bool) : (bool b).Fits := by
  cases b <;> exact ⟨by decide, by decide⟩

/-- A range between the bounds of a number. -/
theorem fits_of_within {lo hi m : ℤ} {size : ℕ} {signed : Bool} (hlo : NumberFits size signed lo)
    (hhi : NumberFits size signed hi) (hm : Within lo hi m) : NumberFits size signed m := by
  obtain ⟨hlow, hhigh⟩ := hm
  cases signed with
  | false =>
    simp only [NumberFits, Bool.false_eq_true, if_false] at *
    omega
  | true =>
    simp only [NumberFits, if_true] at *
    omega

/-- What is near a number of a range, or left out, fits where the range does. -/
theorem fits_of_servedBy {convert : Number → Option ℤ} {o : Option Number} {w : Option ℤ}
    {lo hi : ℤ} {x : Number → ℚ} {size : ℕ} {signed : Bool}
    (h : ServedBy convert (fun v => Nearest (Within lo hi) (x v)) o w)
    (hlo : NumberFits (size + 1) signed lo := by decide)
    (hhi : NumberFits (size + 1) signed hi := by decide)
    (hzero : NumberFits (size + 1) signed 0 := by decide) :
    (Item.number (size + 1) signed (w.getD 0)).Fits :=
  ⟨Nat.succ_pos size, h.getD hzero fun _ _ hnear => fits_of_within hlo hhi hnear.1⟩

theorem fits_mask {bits : List (ℕ × Bool)} {size : ℕ} (hsize : 0 < size)
    (h : ∀ bit ∈ bits, bit.1 < 8 * size) : (Item.number size false (maskBits bits)).Fits := by
  refine ⟨hsize, ?_⟩
  simpa [NumberFits] using maskBits_lt h

theorem fits_u16 {n : ℤ} (h : Within 0 65535 n) : (u16 n).Fits :=
  ⟨by decide, fits_of_within (by decide) (by decide) h⟩

/-- The two octets of a channel that is legal. -/
theorem fits_channel {channel : ℤ} (h : Within (-1) 1 channel) :
    (u8 (splitChannel channel).1).Fits ∧ (i8 (splitChannel channel).2).Fits := by
  have hcases : channel = -1 ∨ channel = 0 ∨ channel = 1 := by
    have := h.1
    have := h.2
    omega
  obtain rfl | rfl | rfl := hcases <;> exact ⟨⟨by decide, by decide⟩, ⟨by decide, by decide⟩⟩

/-! ## The master -/

/-- The numbers that a command for the master carries. -/
@[ext] structure MasterWire where
  eqEnable : ℤ
  eqGain : ℤ
  dynamicsGain : ℤ
  volume : ℤ
  afv : ℤ

def MasterWire.read (command : Bytes) : MasterWire where
  eqEnable := wireAt 1 1 false command
  eqGain := wireAt 4 4 true command
  dynamicsGain := wireAt 10 2 false command
  volume := wireAt 12 4 true command
  afv := wireAt 16 1 false command

def MasterProperties.wire (c : MasterProperties) : MasterWire where
  eqEnable := (c.eqEnable.getD false).toInt
  eqGain := c.eqGain.getD 0
  dynamicsGain := c.dynamicsGain.getD 0
  volume := c.volume.getD 0
  afv := (c.afv.getD false).toInt

theorem MasterProperties.sizes (c : MasterProperties) :
    c.items.map Item.size = [1, 1, 2, 4, 2, 2, 4, 1, 3] := rfl

theorem MasterProperties.read_eq {code : WireCode} (c : MasterProperties) (bs command : Bytes)
    (hbody : c.body = some bs) (hframe : frameCommand code bs = some command) :
    some c.wire = some (MasterWire.read command) := by
  have hbody : structPack c.items = some bs := hbody
  rw [Option.some.injEq, eq_comm]
  exact MasterWire.ext (wireAt_eq c.sizes hbody hframe 1 rfl rfl) (wireAt_eq c.sizes hbody hframe 3 rfl rfl)
    (wireAt_eq c.sizes hbody hframe 5 rfl rfl) (wireAt_eq c.sizes hbody hframe 6 rfl rfl)
    (wireAt_eq c.sizes hbody hframe 7 rfl rfl)

def MasterArgs.numbers (a : MasterArgs) : List (Option Number) :=
  [a.eqEnable, a.eqGainDb, a.dynamicsMakeupDb, a.volumeDb, a.afv]

/-- Each number that is given is served. -/
structure MasterArgs.Served (a : MasterArgs) (w : MasterWire) : Prop where
  eqEnable : ∀ v ∈ a.eqEnable, WholeServed 0 1 v w.eqEnable
  eqGainDb : ∀ v ∈ a.eqGainDb, LevelServed (-2000) 2000 v w.eqGain
  dynamicsMakeupDb : ∀ v ∈ a.dynamicsMakeupDb, LevelServed 0 2000 v w.dynamicsGain
  volumeDb : ∀ v ∈ a.volumeDb, LevelServed (-10000) 1000 v w.volume
  afv : ∀ v ∈ a.afv, WholeServed 0 1 v w.afv

/-- What the numbers must be for that. -/
structure MasterArgs.Suits (a : MasterArgs) : Prop where
  eqEnable : ∀ v ∈ a.eqEnable, FlagOk v
  eqGainDb : ∀ v ∈ a.eqGainDb, ClampedOk (-2000) 2000 v
  dynamicsMakeupDb : ∀ v ∈ a.dynamicsMakeupDb, ClampedOk 0 2000 v
  volumeDb : ∀ v ∈ a.volumeDb, ClampedOk (-10000) 1000 v
  afv : ∀ v ∈ a.afv, FlagOk v

section
variable {a : MasterArgs}

theorem setFairlightMaster_eq_some {c : MasterProperties} : setFairlightMaster a = some c ↔
    given (dbToWire (-2000) 2000) a.eqGainDb = some c.eqGain ∧
      given (dbToWire 0 2000) a.dynamicsMakeupDb = some c.dynamicsGain ∧
      given (dbToWire (-10000) 1000) a.volumeDb = some c.volume ∧
      c.afv = a.afv.map Number.toBool ∧ c.eqEnable = a.eqEnable.map Number.toBool := by
  obtain ⟨eqGain, dynamicsGain, volume, afv, eqEnable⟩ := c
  simp only [setFairlightMaster, Option.bind_eq_bind, Option.bind_eq_some_iff, Option.some.injEq,
    MasterProperties.mk.injEq]
  constructor
  · rintro ⟨_, hgain, _, hdynamics, _, hvolume, rfl, rfl, rfl, rfl, rfl⟩
    exact ⟨hgain, hdynamics, hvolume, rfl, rfl⟩
  · rintro ⟨hgain, hdynamics, hvolume, rfl, rfl⟩
    exact ⟨_, hgain, _, hdynamics, _, hvolume, rfl, rfl, rfl, rfl, rfl⟩

theorem MasterArgs.body_of_served (c : MasterProperties) (w : MasterWire)
    (hset : setFairlightMaster a = some c) (hwire : some c.wire = some w) (h : a.Served w) :
    ∃ bs, c.body = some bs ∧ bs.length + 8 < 0x10000 := by
  obtain rfl := Option.some.inj hwire
  obtain ⟨hgain, hdynamics, hvolume, -, -⟩ := setFairlightMaster_eq_some.mp hset
  refine packed_of_fits c.sizes (by decide) ?_
  simp only [MasterProperties.items, List.forall_mem_cons]
  exact ⟨fits_mask (by decide) (by simp), fits_bool _, trivial,
    fits_of_servedBy ⟨hgain, h.eqGainDb⟩, trivial, fits_of_servedBy ⟨hdynamics, h.dynamicsMakeupDb⟩,
    fits_of_servedBy ⟨hvolume, h.volumeDb⟩, fits_bool _, trivial, List.forall_mem_nil _⟩

theorem MasterArgs.served_iff (h : AllFinite a.numbers) :
    (∃ c w, setFairlightMaster a = some c ∧ some c.wire = some w ∧ a.Served w) ↔ a.Suits := by
  have heqEnable := h a.eqEnable (by simp [numbers])
  have hafv := h a.afv (by simp [numbers])
  have hgain := levels_iff (h a.eqGainDb (by simp [numbers])) (show -2000 ≤ 2000 by decide)
    (by decide) (by decide)
  have hdynamics := levels_iff (h a.dynamicsMakeupDb (by simp [numbers]))
    (show 0 ≤ 2000 by decide) (by decide) (by decide)
  have hvolume := levels_iff (h a.volumeDb (by simp [numbers])) (show -10000 ≤ 1000 by decide)
    (by decide) (by decide)
  constructor
  · rintro ⟨c, w, hset, hwire, hserved⟩
    obtain rfl := Option.some.inj hwire
    obtain ⟨hg, hd, hv, hafv', heqEnable'⟩ := setFairlightMaster_eq_some.mp hset
    exact {
      eqEnable := (flags_iff heqEnable (by rw [← heqEnable']; rfl)).mp hserved.eqEnable
      eqGainDb := hgain.mp ⟨_, hg, hserved.eqGainDb⟩
      dynamicsMakeupDb := hdynamics.mp ⟨_, hd, hserved.dynamicsMakeupDb⟩
      volumeDb := hvolume.mp ⟨_, hv, hserved.volumeDb⟩
      afv := (flags_iff hafv (by rw [← hafv']; rfl)).mp hserved.afv }
  · intro hsuits
    obtain ⟨eqGain, hg⟩ := hgain.mpr hsuits.eqGainDb
    obtain ⟨dynamicsGain, hd⟩ := hdynamics.mpr hsuits.dynamicsMakeupDb
    obtain ⟨volume, hv⟩ := hvolume.mpr hsuits.volumeDb
    exact ⟨⟨eqGain, dynamicsGain, volume, _, _⟩, _,
      setFairlightMaster_eq_some.mpr ⟨hg.1, hd.1, hv.1, rfl, rfl⟩, rfl, {
        eqEnable := (flags_iff heqEnable rfl).mpr hsuits.eqEnable
        eqGainDb := hg.2
        dynamicsMakeupDb := hd.2
        volumeDb := hv.2
        afv := (flags_iff hafv rfl).mpr hsuits.afv }⟩

end

/-! ## A strip -/

/-- The number of a `mix_option`, if it is one. -/
def MixOption.number? : MixOption → Option Number
  | name _ => none
  | number v => some v

/-- The wire has the value of the name, or the nearest one to the number. -/
def MixOption.Served (o : MixOption) (wire : ℤ) : Prop :=
  match o with
  | name s => mixOptions.lookup s = some wire
  | number v => Nearest MixLegal v.exact wire

def MixOption.Suits : MixOption → Prop
  | name s => ∃ wire, mixOptions.lookup s = some wire
  | number v => MixOk v

theorem mixOption_iff {o : MixOption} (h : ∀ v ∈ o.number?, v.Finite) :
    (∃ w, o.toInt = some w ∧ o.Served w) ↔ o.Suits := by
  cases o with
  | name s => exact ⟨fun ⟨w, hw, _⟩ => ⟨w, hw⟩, fun ⟨w, hw⟩ => ⟨w, hw, hw⟩⟩
  | number v => exact mix_iff (h v rfl)

theorem mixOptions_iff {o : Option MixOption} (h : ∀ v ∈ o.bind MixOption.number?, v.Finite) :
    (∃ w, ServedBy MixOption.toInt MixOption.Served o w) ↔ ∀ x ∈ o, x.Suits := by
  cases o with
  | none => exact servedBy_iff fun x hx => by cases hx
  | some x => exact servedBy_iff fun y hy => mixOption_iff (Option.some.inj hy ▸ h)

/-- What is sent for an option fits an octet. -/
theorem MixOption.Served.fits {o : MixOption} {wire : ℤ} (h : o.Served wire) :
    NumberFits 1 false wire := by
  cases o with
  | name s =>
    have hmem : ∀ row ∈ mixOptions, NumberFits 1 false row.2 := by decide
    obtain ⟨before, after, hrows⟩ := List.lookup_eq_some_iff.mp h
    exact hmem (s, wire) (by rw [hrows.1]; simp)
  | number v => obtain rfl | rfl | rfl := h.1 <;> decide

/-- The numbers that a command for a strip carries. -/
@[ext] structure StripWire where
  source : ℤ
  channel : ℤ
  delay : ℤ
  gain : ℤ
  eqEnable : ℤ
  eqGain : ℤ
  dynamicsGain : ℤ
  balance : ℤ
  volume : ℤ
  state : ℤ

def StripWire.read (command : Bytes) : StripWire where
  source := wireAt 2 2 false command
  channel := channelAt command
  delay := wireAt 16 1 false command
  gain := wireAt 20 4 true command
  eqEnable := wireAt 26 1 false command
  eqGain := wireAt 28 4 true command
  dynamicsGain := wireAt 32 4 true command
  balance := wireAt 36 2 true command
  volume := wireAt 40 4 true command
  state := wireAt 44 1 false command

def StripProperties.wire (c : StripProperties) : StripWire where
  source := c.source
  channel := c.channel
  delay := c.delay.getD 0
  gain := c.gain.getD 0
  eqEnable := (c.eqEnable.getD false).toInt
  eqGain := c.eqGain.getD 0
  dynamicsGain := c.dynamicsGain.getD 0
  balance := c.balance.getD 0
  volume := c.volume.getD 0
  state := c.state.getD 0

theorem StripProperties.sizes (c : StripProperties) : c.items.map Item.size =
    [2, 2, 4, 6, 1, 1, 1, 3, 4, 2, 1, 1, 4, 4, 2, 2, 4, 1, 3] := rfl

theorem StripProperties.read_eq {code : WireCode} (c : StripProperties) (bs command : Bytes)
    (hbody : c.body = some bs) (hframe : frameCommand code bs = some command) :
    some c.wire = some (StripWire.read command) := by
  have hbody : structPack c.items = some bs := hbody
  rw [Option.some.injEq, eq_comm]
  exact StripWire.ext (wireAt_eq c.sizes hbody hframe 1 rfl rfl)
    (channelAt_eq (wireAt_eq c.sizes hbody hframe 4 rfl rfl) (wireAt_eq c.sizes hbody hframe 5 rfl rfl))
    (wireAt_eq c.sizes hbody hframe 6 rfl rfl) (wireAt_eq c.sizes hbody hframe 8 rfl rfl)
    (wireAt_eq c.sizes hbody hframe 10 rfl rfl) (wireAt_eq c.sizes hbody hframe 12 rfl rfl)
    (wireAt_eq c.sizes hbody hframe 13 rfl rfl) (wireAt_eq c.sizes hbody hframe 14 rfl rfl)
    (wireAt_eq c.sizes hbody hframe 16 rfl rfl) (wireAt_eq c.sizes hbody hframe 17 rfl rfl)

def StripArgs.numbers (a : StripArgs) : List (Option Number) :=
  [some a.source, some a.channel, a.inputGainDb, a.eqEnable, a.eqGainDb, a.dynamicsMakeupDb,
    a.pan, a.faderGainDb, a.mixOption.bind MixOption.number?, a.delayFrames]

/-- Each number that is given is served. -/
structure StripArgs.Served (a : StripArgs) (w : StripWire) : Prop where
  source : WholeServed 0 65535 a.source w.source
  channel : WholeServed (-1) 1 a.channel w.channel
  inputGainDb : ∀ v ∈ a.inputGainDb, LevelServed (-10000) 600 v w.gain
  eqEnable : ∀ v ∈ a.eqEnable, WholeServed 0 1 v w.eqEnable
  eqGainDb : ∀ v ∈ a.eqGainDb, LevelServed (-2000) 2000 v w.eqGain
  dynamicsMakeupDb : ∀ v ∈ a.dynamicsMakeupDb, LevelServed 0 2000 v w.dynamicsGain
  pan : ∀ v ∈ a.pan, LevelServed (-10000) 10000 v w.balance
  faderGainDb : ∀ v ∈ a.faderGainDb, LevelServed (-10000) 1000 v w.volume
  mixOption : ∀ o ∈ a.mixOption, o.Served w.state
  delayFrames : ∀ v ∈ a.delayFrames, WholeServed 0 255 v w.delay

/-- What the numbers must be for that. -/
structure StripArgs.Suits (a : StripArgs) : Prop where
  source : WholeOk 0 65535 a.source
  channel : WholeOk (-1) 1 a.channel
  inputGainDb : ∀ v ∈ a.inputGainDb, ClampedOk (-10000) 600 v
  eqEnable : ∀ v ∈ a.eqEnable, FlagOk v
  eqGainDb : ∀ v ∈ a.eqGainDb, ClampedOk (-2000) 2000 v
  dynamicsMakeupDb : ∀ v ∈ a.dynamicsMakeupDb, ClampedOk 0 2000 v
  pan : ∀ v ∈ a.pan, ClampedOk (-10000) 10000 v
  faderGainDb : ∀ v ∈ a.faderGainDb, ClampedOk (-10000) 1000 v
  mixOption : ∀ o ∈ a.mixOption, o.Suits
  delayFrames : ∀ v ∈ a.delayFrames, WholeOk 0 255 v

section
variable {a : StripArgs}

theorem setFairlightStrip_eq_some {c : StripProperties} : setFairlightStrip a = some c ↔
    (a.source.toInt = some c.source ∧ a.channel.toInt = some c.channel) ∧
      given (dbToWire (-10000) 600) a.inputGainDb = some c.gain ∧
      given (dbToWire (-2000) 2000) a.eqGainDb = some c.eqGain ∧
      given (dbToWire 0 2000) a.dynamicsMakeupDb = some c.dynamicsGain ∧
      given panToWire a.pan = some c.balance ∧
      given (dbToWire (-10000) 1000) a.faderGainDb = some c.volume ∧
      given MixOption.toInt a.mixOption = some c.state ∧
      given Number.toInt a.delayFrames = some c.delay ∧
      c.eqEnable = a.eqEnable.map Number.toBool := by
  obtain ⟨source, channel, delay, gain, eqGain, eqEnable, dynamicsGain, balance, volume, state⟩ := c
  simp only [setFairlightStrip, Option.bind_eq_bind, Option.bind_eq_some_iff, Option.some.injEq,
    StripProperties.mk.injEq]
  constructor
  · rintro ⟨_, hstate, _, hsource, _, hchannel, _, hdelay, _, hgain, _, heq, _, hdynamics, _, hpan,
      _, hvolume, rfl, rfl, rfl, rfl, rfl, rfl, rfl, rfl, rfl, rfl⟩
    exact ⟨⟨hsource, hchannel⟩, hgain, heq, hdynamics, hpan, hvolume, hstate, hdelay, rfl⟩
  · rintro ⟨⟨hsource, hchannel⟩, hgain, heq, hdynamics, hpan, hvolume, hstate, hdelay, rfl⟩
    exact ⟨_, hstate, _, hsource, _, hchannel, _, hdelay, _, hgain, _, heq, _, hdynamics, _, hpan,
      _, hvolume, rfl, rfl, rfl, rfl, rfl, rfl, rfl, rfl, rfl, rfl⟩

theorem StripArgs.body_of_served (c : StripProperties) (w : StripWire)
    (hset : setFairlightStrip a = some c) (hwire : some c.wire = some w) (h : a.Served w) :
    ∃ bs, c.body = some bs ∧ bs.length + 8 < 0x10000 := by
  obtain rfl := Option.some.inj hwire
  obtain ⟨-, hgain, heq, hdynamics, hpan, hvolume, hstate, hdelay, -⟩ :=
    setFairlightStrip_eq_some.mp hset
  obtain ⟨hsplit, hch⟩ := fits_channel h.channel.1
  have hmix : ServedBy MixOption.toInt MixOption.Served a.mixOption c.state :=
    ⟨hstate, h.mixOption⟩
  refine packed_of_fits c.sizes (by decide) ?_
  simp only [StripProperties.items, List.forall_mem_cons]
  exact ⟨fits_mask (by decide) (by simp), fits_u16 h.source.1, trivial, trivial, hsplit, hch,
    fits_of_servedBy ⟨hdelay, h.delayFrames⟩, trivial, fits_of_servedBy ⟨hgain, h.inputGainDb⟩,
    trivial, fits_bool _, trivial, fits_of_servedBy ⟨heq, h.eqGainDb⟩,
    fits_of_servedBy ⟨hdynamics, h.dynamicsMakeupDb⟩, fits_of_servedBy ⟨hpan, h.pan⟩, trivial,
    fits_of_servedBy ⟨hvolume, h.faderGainDb⟩,
    ⟨by decide, hmix.getD (by decide) fun _ _ hnear => hnear.fits⟩, trivial,
    List.forall_mem_nil _⟩

theorem StripArgs.served_iff (h : AllFinite a.numbers) :
    (∃ c w, setFairlightStrip a = some c ∧ some c.wire = some w ∧ a.Served w) ↔ a.Suits := by
  have hsource := whole_iff (h (some a.source) (by simp [numbers]) _ rfl)
    (show 0 ≤ 0 from le_rfl) (show 0 ≤ 65535 by decide)
  have hchannel := whole_iff (h (some a.channel) (by simp [numbers]) _ rfl)
    (show -1 ≤ 0 by decide) (show 0 ≤ 1 by decide)
  have heqEnable := h a.eqEnable (by simp [numbers])
  have hgain := levels_iff (h a.inputGainDb (by simp [numbers])) (show -10000 ≤ 600 by decide)
    (by decide) (by decide)
  have heq := levels_iff (h a.eqGainDb (by simp [numbers])) (show -2000 ≤ 2000 by decide)
    (by decide) (by decide)
  have hdynamics := levels_iff (h a.dynamicsMakeupDb (by simp [numbers]))
    (show 0 ≤ 2000 by decide) (by decide) (by decide)
  have hpan := pans_iff (h a.pan (by simp [numbers]))
  have hvolume := levels_iff (h a.faderGainDb (by simp [numbers])) (show -10000 ≤ 1000 by decide)
    (by decide) (by decide)
  have hmix := mixOptions_iff (h (a.mixOption.bind MixOption.number?) (by simp [numbers]))
  have hdelay := wholes_iff (h a.delayFrames (by simp [numbers])) (show 0 ≤ 0 from le_rfl)
    (show 0 ≤ 255 by decide)
  constructor
  · rintro ⟨c, w, hset, hwire, hserved⟩
    obtain rfl := Option.some.inj hwire
    obtain ⟨⟨hs, hc⟩, hg, he, hd, hp, hv, hm, hf, heqEnable'⟩ := setFairlightStrip_eq_some.mp hset
    exact {
      source := hsource.mp ⟨_, hs, hserved.source⟩
      channel := hchannel.mp ⟨_, hc, hserved.channel⟩
      inputGainDb := hgain.mp ⟨_, hg, hserved.inputGainDb⟩
      eqEnable := (flags_iff heqEnable (by rw [← heqEnable']; rfl)).mp hserved.eqEnable
      eqGainDb := heq.mp ⟨_, he, hserved.eqGainDb⟩
      dynamicsMakeupDb := hdynamics.mp ⟨_, hd, hserved.dynamicsMakeupDb⟩
      pan := hpan.mp ⟨_, hp, hserved.pan⟩
      faderGainDb := hvolume.mp ⟨_, hv, hserved.faderGainDb⟩
      mixOption := hmix.mp ⟨_, hm, hserved.mixOption⟩
      delayFrames := hdelay.mp ⟨_, hf, hserved.delayFrames⟩ }
  · intro hsuits
    obtain ⟨source, hs, hs'⟩ := hsource.mpr hsuits.source
    obtain ⟨channel, hc, hc'⟩ := hchannel.mpr hsuits.channel
    obtain ⟨gain, hg⟩ := hgain.mpr hsuits.inputGainDb
    obtain ⟨eqGain, he⟩ := heq.mpr hsuits.eqGainDb
    obtain ⟨dynamicsGain, hd⟩ := hdynamics.mpr hsuits.dynamicsMakeupDb
    obtain ⟨balance, hp⟩ := hpan.mpr hsuits.pan
    obtain ⟨volume, hv⟩ := hvolume.mpr hsuits.faderGainDb
    obtain ⟨state, hm⟩ := hmix.mpr hsuits.mixOption
    obtain ⟨delay, hf⟩ := hdelay.mpr hsuits.delayFrames
    exact ⟨⟨source, channel, delay, gain, eqGain, _, dynamicsGain, balance, volume, state⟩, _,
      setFairlightStrip_eq_some.mpr ⟨⟨hs, hc⟩, hg.1, he.1, hd.1, hp.1, hv.1, hm.1, hf.1, rfl⟩, rfl, {
        source := hs'
        channel := hc'
        inputGainDb := hg.2
        eqEnable := (flags_iff heqEnable rfl).mpr hsuits.eqEnable
        eqGainDb := he.2
        dynamicsMakeupDb := hd.2
        pan := hp.2
        faderGainDb := hv.2
        mixOption := hm.2
        delayFrames := hf.2 }⟩

end

/-! ## A compressor -/

/-- The numbers that a command for a compressor carries. -/
@[ext] structure CompressorWire where
  source : ℤ
  channel : ℤ
  enabled : ℤ
  threshold : ℤ
  ratio : ℤ
  attack : ℤ
  hold : ℤ
  release : ℤ

def CompressorWire.read (command : Bytes) : CompressorWire where
  source := wireAt 2 2 false command
  channel := channelAt command
  enabled := wireAt 16 1 false command
  threshold := wireAt 20 4 true command
  ratio := wireAt 24 2 false command
  attack := wireAt 28 4 true command
  hold := wireAt 32 4 true command
  release := wireAt 36 4 true command

def CompressorProperties.wire (c : CompressorProperties) (l : CompressorLevels) :
    CompressorWire where
  source := c.source
  channel := c.channel
  enabled := (c.enabled.getD false).toInt
  threshold := l.threshold.getD 0
  ratio := l.ratio.getD 0
  attack := l.attack.getD 0
  hold := l.hold.getD 0
  release := l.release.getD 0

theorem CompressorProperties.sizes (c : CompressorProperties) (l : CompressorLevels) :
    (c.items l).map Item.size = [2, 2, 4, 6, 1, 1, 1, 3, 4, 2, 2, 4, 4, 4] := rfl

theorem CompressorProperties.read_eq {code : WireCode} (c : CompressorProperties)
    (bs command : Bytes) (hbody : c.body = some bs) (hframe : frameCommand code bs = some command) :
    c.levels.map c.wire = some (CompressorWire.read command) := by
  obtain ⟨l, hl, hbody⟩ := Option.bind_eq_some_iff.mp hbody
  have hsizes := c.sizes l
  rw [hl, Option.map_some, Option.some.injEq, eq_comm]
  exact CompressorWire.ext (wireAt_eq hsizes hbody hframe 1 rfl rfl)
    (channelAt_eq (wireAt_eq hsizes hbody hframe 4 rfl rfl)
      (wireAt_eq hsizes hbody hframe 5 rfl rfl))
    (wireAt_eq hsizes hbody hframe 6 rfl rfl) (wireAt_eq hsizes hbody hframe 8 rfl rfl)
    (wireAt_eq hsizes hbody hframe 9 rfl rfl) (wireAt_eq hsizes hbody hframe 11 rfl rfl)
    (wireAt_eq hsizes hbody hframe 12 rfl rfl) (wireAt_eq hsizes hbody hframe 13 rfl rfl)

def CompressorArgs.numbers (a : CompressorArgs) : List (Option Number) :=
  [some a.source, some a.channel, a.enabled, a.thresholdDb, a.ratio, a.attackMs, a.holdMs,
    a.releaseMs]

/-- Each number that is given is served. -/
structure CompressorArgs.Served (a : CompressorArgs) (w : CompressorWire) : Prop where
  source : WholeServed 0 65535 a.source w.source
  channel : WholeServed (-1) 1 a.channel w.channel
  enabled : ∀ v ∈ a.enabled, WholeServed 0 1 v w.enabled
  thresholdDb : ∀ v ∈ a.thresholdDb, LevelServed (-6000) 0 v w.threshold
  ratio : ∀ v ∈ a.ratio, LevelServed 120 2000 v w.ratio
  attackMs : ∀ v ∈ a.attackMs, LevelServed 70 10000 v w.attack
  holdMs : ∀ v ∈ a.holdMs, LevelServed 0 400000 v w.hold
  releaseMs : ∀ v ∈ a.releaseMs, LevelServed 5000 400000 v w.release

/-- What the numbers must be for that. -/
structure CompressorArgs.Suits (a : CompressorArgs) : Prop where
  source : WholeOk 0 65535 a.source
  channel : WholeOk (-1) 1 a.channel
  enabled : ∀ v ∈ a.enabled, FlagOk v
  thresholdDb : ∀ v ∈ a.thresholdDb, UnclampedOk (-6000) 0 v
  ratio : ∀ v ∈ a.ratio, UnclampedOk 120 2000 v
  attackMs : ∀ v ∈ a.attackMs, UnclampedOk 70 10000 v
  holdMs : ∀ v ∈ a.holdMs, UnclampedOk 0 400000 v
  releaseMs : ∀ v ∈ a.releaseMs, UnclampedOk 5000 400000 v

/-- What is set and what is made of it when the command is packed. -/
structure CompressorArgs.Made (a : CompressorArgs) (c : CompressorProperties)
    (l : CompressorLevels) : Prop where
  source : a.source.toInt = some c.source
  channel : a.channel.toInt = some c.channel
  enabled : c.enabled = a.enabled.map Number.toBool
  threshold : given Number.toHundredths a.thresholdDb = some l.threshold
  ratio : given Number.toHundredths a.ratio = some l.ratio
  attack : given Number.toHundredths a.attackMs = some l.attack
  hold : given Number.toHundredths a.holdMs = some l.hold
  release : given Number.toHundredths a.releaseMs = some l.release

section
variable {a : CompressorArgs}

theorem CompressorArgs.made {c : CompressorProperties} {l : CompressorLevels}
    (hset : setFairlightCompressor a = some c) (hlevels : c.levels = some l) : a.Made c l := by
  simp only [setFairlightCompressor, Option.bind_eq_bind, Option.bind_eq_some_iff,
    Option.some.injEq] at hset
  obtain ⟨_, hsource, _, hchannel, _, ht, _, hr, _, ha, _, hh, _, hx, rfl⟩ := hset
  simp only [CompressorProperties.levels, Option.bind_eq_bind, Option.bind_eq_some_iff,
    Option.some.injEq] at hlevels
  obtain ⟨_, ht', _, hr', _, ha', _, hh', _, hx', rfl⟩ := hlevels
  exact ⟨hsource, hchannel, rfl, given_bind.mpr ⟨_, ht, ht'⟩, given_bind.mpr ⟨_, hr, hr'⟩,
    given_bind.mpr ⟨_, ha, ha'⟩, given_bind.mpr ⟨_, hh, hh'⟩, given_bind.mpr ⟨_, hx, hx'⟩⟩

theorem CompressorArgs.exists_made {source channel : ℤ} {l : CompressorLevels}
    (hsource : a.source.toInt = some source) (hchannel : a.channel.toInt = some channel)
    (ht : given Number.toHundredths a.thresholdDb = some l.threshold)
    (hr : given Number.toHundredths a.ratio = some l.ratio)
    (ha : given Number.toHundredths a.attackMs = some l.attack)
    (hh : given Number.toHundredths a.holdMs = some l.hold)
    (hx : given Number.toHundredths a.releaseMs = some l.release) :
    ∃ c, setFairlightCompressor a = some c ∧ c.levels = some l ∧ c.source = source ∧
      c.channel = channel ∧ c.enabled = a.enabled.map Number.toBool := by
  obtain ⟨threshold, ht, ht'⟩ := given_bind.mp ht
  obtain ⟨ratio, hr, hr'⟩ := given_bind.mp hr
  obtain ⟨attack, ha, ha'⟩ := given_bind.mp ha
  obtain ⟨hold, hh, hh'⟩ := given_bind.mp hh
  obtain ⟨release, hx, hx'⟩ := given_bind.mp hx
  refine ⟨⟨source, channel, a.enabled.map Number.toBool, threshold, ratio, attack, hold, release⟩,
    ?_, ?_, rfl, rfl, rfl⟩
  · simp only [setFairlightCompressor, hsource, hchannel, ht, hr, ha, hh, hx, Option.bind_eq_bind,
      Option.bind_some]
  · simp only [CompressorProperties.levels, ht', hr', ha', hh', hx', Option.bind_eq_bind,
      Option.bind_some]

theorem CompressorArgs.body_of_served (c : CompressorProperties) (w : CompressorWire)
    (hset : setFairlightCompressor a = some c) (hwire : c.levels.map c.wire = some w)
    (h : a.Served w) : ∃ bs, c.body = some bs ∧ bs.length + 8 < 0x10000 := by
  obtain ⟨l, hl, rfl⟩ := Option.map_eq_some_iff.mp hwire
  have hmade := CompressorArgs.made hset hl
  obtain ⟨hsplit, hch⟩ := fits_channel h.channel.1
  rw [CompressorProperties.body, hl, Option.bind_some]
  refine packed_of_fits (c.sizes l) (by decide) ?_
  simp only [CompressorProperties.items, List.forall_mem_cons]
  exact ⟨fits_mask (by decide) (by simp), fits_u16 h.source.1, trivial, trivial, hsplit, hch,
    fits_bool _, trivial, fits_of_servedBy ⟨hmade.threshold, h.thresholdDb⟩,
    fits_of_servedBy ⟨hmade.ratio, h.ratio⟩, trivial,
    fits_of_servedBy ⟨hmade.attack, h.attackMs⟩, fits_of_servedBy ⟨hmade.hold, h.holdMs⟩,
    fits_of_servedBy ⟨hmade.release, h.releaseMs⟩, List.forall_mem_nil _⟩

theorem CompressorArgs.served_iff (h : AllFinite a.numbers) :
    (∃ c w, setFairlightCompressor a = some c ∧ c.levels.map c.wire = some w ∧ a.Served w) ↔
      a.Suits := by
  have hsource := whole_iff (h (some a.source) (by simp [numbers]) _ rfl)
    (show 0 ≤ 0 from le_rfl) (show 0 ≤ 65535 by decide)
  have hchannel := whole_iff (h (some a.channel) (by simp [numbers]) _ rfl)
    (show -1 ≤ 0 by decide) (show 0 ≤ 1 by decide)
  have henabled := h a.enabled (by simp [numbers])
  have hthreshold := unclamped_levels_iff (h a.thresholdDb (by simp [numbers]))
    (show -6000 ≤ 0 by decide) (by decide) (by decide) (by decide) (by decide)
  have hratio := unclamped_levels_iff (h a.ratio (by simp [numbers]))
    (show 120 ≤ 2000 by decide) (by decide) (by decide) (by decide) (by decide)
  have hattack := unclamped_levels_iff (h a.attackMs (by simp [numbers]))
    (show 70 ≤ 10000 by decide) (by decide) (by decide) (by decide) (by decide)
  have hhold := unclamped_levels_iff (h a.holdMs (by simp [numbers]))
    (show 0 ≤ 400000 by decide) (by decide) (by decide) (by decide) (by decide)
  have hrelease := unclamped_levels_iff (h a.releaseMs (by simp [numbers]))
    (show 5000 ≤ 400000 by decide) (by decide) (by decide) (by decide) (by decide)
  constructor
  · rintro ⟨c, w, hset, hwire, hserved⟩
    obtain ⟨l, hl, rfl⟩ := Option.map_eq_some_iff.mp hwire
    have hmade := CompressorArgs.made hset hl
    exact {
      source := hsource.mp ⟨_, hmade.source, hserved.source⟩
      channel := hchannel.mp ⟨_, hmade.channel, hserved.channel⟩
      enabled := (flags_iff henabled (by rw [← hmade.enabled]; rfl)).mp hserved.enabled
      thresholdDb := hthreshold.mp ⟨_, hmade.threshold, hserved.thresholdDb⟩
      ratio := hratio.mp ⟨_, hmade.ratio, hserved.ratio⟩
      attackMs := hattack.mp ⟨_, hmade.attack, hserved.attackMs⟩
      holdMs := hhold.mp ⟨_, hmade.hold, hserved.holdMs⟩
      releaseMs := hrelease.mp ⟨_, hmade.release, hserved.releaseMs⟩ }
  · intro hsuits
    obtain ⟨source, hs, hs'⟩ := hsource.mpr hsuits.source
    obtain ⟨channel, hc, hc'⟩ := hchannel.mpr hsuits.channel
    obtain ⟨threshold, ht⟩ := hthreshold.mpr hsuits.thresholdDb
    obtain ⟨ratio, hr⟩ := hratio.mpr hsuits.ratio
    obtain ⟨attack, ha⟩ := hattack.mpr hsuits.attackMs
    obtain ⟨hold, hh⟩ := hhold.mpr hsuits.holdMs
    obtain ⟨release, hx⟩ := hrelease.mpr hsuits.releaseMs
    obtain ⟨c, hset, hl, rfl, rfl, henabled'⟩ := @exists_made a source channel
      ⟨threshold, ratio, attack, hold, release⟩ hs hc ht.1 hr.1 ha.1 hh.1 hx.1
    refine ⟨c, c.wire ⟨threshold, ratio, attack, hold, release⟩, hset,
      by rw [hl, Option.map_some], {
      source := hs'
      channel := hc'
      enabled := (flags_iff henabled (by rw [← henabled']; rfl)).mpr hsuits.enabled
      thresholdDb := ht.2
      ratio := hr.2
      attackMs := ha.2
      holdMs := hh.2
      releaseMs := hx.2 }⟩

end

/-! ## An expander -/

/-- The number of a `mode`, if it is one. -/
def Mode.number? : Mode → Option Number
  | name _ => none
  | number v => some v

/-- The wire has the mode of the name, or the nearest one to the number. -/
def Mode.Served (m : Mode) (wire : ℤ) : Prop :=
  match m with
  | name s => (Mode.name s).toInt = some wire
  | number v => Nearest (Within 0 1) v.exact wire

def Mode.Suits : Mode → Prop
  | name _ => True
  | number v => ModeOk v

theorem mode_served_iff {m : Mode} (h : ∀ v ∈ m.number?, v.Finite) :
    (∃ w, m.toInt = some w ∧ m.Served w) ↔ m.Suits := by
  cases m with
  | name s => exact iff_of_true ⟨_, rfl, rfl⟩ trivial
  | number v => exact mode_iff (h v rfl)

theorem modes_iff {o : Option Mode} (h : ∀ v ∈ o.bind Mode.number?, v.Finite) :
    (∃ w, ServedBy Mode.toInt Mode.Served o w) ↔ ∀ m ∈ o, m.Suits := by
  cases o with
  | none => exact servedBy_iff fun m hm => by cases hm
  | some m => exact servedBy_iff fun m' hm => mode_served_iff (Option.some.inj hm ▸ h)

/-- What is sent for a mode fits an octet. -/
theorem Mode.Served.fits {m : Mode} {wire : ℤ} (h : m.Served wire) : NumberFits 1 false wire := by
  cases m with
  | name s =>
    obtain rfl := Option.some.inj h
    split <;> decide
  | number v => exact fits_of_within (by decide) (by decide) h.1

/-- The numbers that a command for an expander carries. -/
@[ext] structure ExpanderWire where
  source : ℤ
  channel : ℤ
  enabled : ℤ
  mode : ℤ
  threshold : ℤ
  range : ℤ
  ratio : ℤ
  attack : ℤ
  hold : ℤ
  release : ℤ

def ExpanderWire.read (command : Bytes) : ExpanderWire where
  source := wireAt 2 2 false command
  channel := channelAt command
  enabled := wireAt 16 1 false command
  mode := wireAt 17 1 false command
  threshold := wireAt 20 4 true command
  range := wireAt 24 2 false command
  ratio := wireAt 26 2 false command
  attack := wireAt 28 4 true command
  hold := wireAt 32 4 true command
  release := wireAt 36 4 true command

def ExpanderProperties.wire (c : ExpanderProperties) (l : ExpanderLevels) :
    ExpanderWire where
  source := c.source
  channel := c.channel
  enabled := (c.enabled.getD false).toInt
  mode := l.mode.getD 0
  threshold := l.threshold.getD 0
  range := l.range.getD 0
  ratio := l.ratio.getD 0
  attack := l.attack.getD 0
  hold := l.hold.getD 0
  release := l.release.getD 0

theorem ExpanderProperties.sizes (c : ExpanderProperties) (l : ExpanderLevels) :
    (c.items l).map Item.size = [2, 2, 4, 6, 1, 1, 1, 1, 2, 4, 2, 2, 4, 4, 4] := rfl

theorem ExpanderProperties.read_eq {code : WireCode} (c : ExpanderProperties)
    (bs command : Bytes) (hbody : c.body = some bs) (hframe : frameCommand code bs = some command) :
    c.levels.map c.wire = some (ExpanderWire.read command) := by
  obtain ⟨l, hl, hbody⟩ := Option.bind_eq_some_iff.mp hbody
  have hsizes := c.sizes l
  rw [hl, Option.map_some, Option.some.injEq, eq_comm]
  exact ExpanderWire.ext (wireAt_eq hsizes hbody hframe 1 rfl rfl)
    (channelAt_eq (wireAt_eq hsizes hbody hframe 4 rfl rfl)
      (wireAt_eq hsizes hbody hframe 5 rfl rfl))
    (wireAt_eq hsizes hbody hframe 6 rfl rfl) (wireAt_eq hsizes hbody hframe 7 rfl rfl)
    (wireAt_eq hsizes hbody hframe 9 rfl rfl) (wireAt_eq hsizes hbody hframe 10 rfl rfl)
    (wireAt_eq hsizes hbody hframe 11 rfl rfl) (wireAt_eq hsizes hbody hframe 12 rfl rfl)
    (wireAt_eq hsizes hbody hframe 13 rfl rfl) (wireAt_eq hsizes hbody hframe 14 rfl rfl)

def ExpanderArgs.numbers (a : ExpanderArgs) : List (Option Number) :=
  [some a.source, some a.channel, a.enabled, a.mode.bind Mode.number?, a.thresholdDb, a.rangeDb,
    a.ratio, a.attackMs, a.holdMs, a.releaseMs]

/-- Each number that is given is served. -/
structure ExpanderArgs.Served (a : ExpanderArgs) (w : ExpanderWire) : Prop where
  source : WholeServed 0 65535 a.source w.source
  channel : WholeServed (-1) 1 a.channel w.channel
  enabled : ∀ v ∈ a.enabled, WholeServed 0 1 v w.enabled
  mode : ∀ m ∈ a.mode, m.Served w.mode
  thresholdDb : ∀ v ∈ a.thresholdDb, LevelServed (-5000) 0 v w.threshold
  rangeDb : ∀ v ∈ a.rangeDb, LevelServed 0 6000 v w.range
  ratio : ∀ v ∈ a.ratio, LevelServed 100 300 v w.ratio
  attackMs : ∀ v ∈ a.attackMs, LevelServed 50 10000 v w.attack
  holdMs : ∀ v ∈ a.holdMs, LevelServed 0 400000 v w.hold
  releaseMs : ∀ v ∈ a.releaseMs, LevelServed 5000 400000 v w.release

/-- What the numbers must be for that. -/
structure ExpanderArgs.Suits (a : ExpanderArgs) : Prop where
  source : WholeOk 0 65535 a.source
  channel : WholeOk (-1) 1 a.channel
  enabled : ∀ v ∈ a.enabled, FlagOk v
  mode : ∀ m ∈ a.mode, m.Suits
  thresholdDb : ∀ v ∈ a.thresholdDb, UnclampedOk (-5000) 0 v
  rangeDb : ∀ v ∈ a.rangeDb, UnclampedOk 0 6000 v
  ratio : ∀ v ∈ a.ratio, UnclampedOk 100 300 v
  attackMs : ∀ v ∈ a.attackMs, UnclampedOk 50 10000 v
  holdMs : ∀ v ∈ a.holdMs, UnclampedOk 0 400000 v
  releaseMs : ∀ v ∈ a.releaseMs, UnclampedOk 5000 400000 v

/-- What is set and what is made of it when the command is packed. -/
structure ExpanderArgs.Made (a : ExpanderArgs) (c : ExpanderProperties)
    (l : ExpanderLevels) : Prop where
  source : a.source.toInt = some c.source
  channel : a.channel.toInt = some c.channel
  enabled : c.enabled = a.enabled.map Number.toBool
  mode : given Mode.toInt a.mode = some l.mode
  threshold : given Number.toHundredths a.thresholdDb = some l.threshold
  range : given Number.toHundredths a.rangeDb = some l.range
  ratio : given Number.toHundredths a.ratio = some l.ratio
  attack : given Number.toHundredths a.attackMs = some l.attack
  hold : given Number.toHundredths a.holdMs = some l.hold
  release : given Number.toHundredths a.releaseMs = some l.release

section
variable {a : ExpanderArgs}

theorem ExpanderArgs.made {c : ExpanderProperties} {l : ExpanderLevels}
    (hset : setFairlightExpander a = some c) (hlevels : c.levels = some l) : a.Made c l := by
  simp only [setFairlightExpander, Option.bind_eq_bind, Option.bind_eq_some_iff,
    Option.some.injEq] at hset
  obtain ⟨_, hsource, _, hchannel, _, ht, _, hg, _, hr, _, ha, _, hh, _, hx, rfl⟩ := hset
  simp only [ExpanderProperties.levels, Option.bind_eq_bind, Option.bind_eq_some_iff,
    Option.some.injEq] at hlevels
  obtain ⟨_, hm, _, ht', _, hg', _, hr', _, ha', _, hh', _, hx', rfl⟩ := hlevels
  exact ⟨hsource, hchannel, rfl, hm, given_bind.mpr ⟨_, ht, ht'⟩, given_bind.mpr ⟨_, hg, hg'⟩,
    given_bind.mpr ⟨_, hr, hr'⟩, given_bind.mpr ⟨_, ha, ha'⟩, given_bind.mpr ⟨_, hh, hh'⟩,
    given_bind.mpr ⟨_, hx, hx'⟩⟩

theorem ExpanderArgs.exists_made {source channel : ℤ} {l : ExpanderLevels}
    (hsource : a.source.toInt = some source) (hchannel : a.channel.toInt = some channel)
    (hm : given Mode.toInt a.mode = some l.mode)
    (ht : given Number.toHundredths a.thresholdDb = some l.threshold)
    (hg : given Number.toHundredths a.rangeDb = some l.range)
    (hr : given Number.toHundredths a.ratio = some l.ratio)
    (ha : given Number.toHundredths a.attackMs = some l.attack)
    (hh : given Number.toHundredths a.holdMs = some l.hold)
    (hx : given Number.toHundredths a.releaseMs = some l.release) :
    ∃ c, setFairlightExpander a = some c ∧ c.levels = some l ∧ c.source = source ∧
      c.channel = channel ∧ c.enabled = a.enabled.map Number.toBool := by
  obtain ⟨threshold, ht, ht'⟩ := given_bind.mp ht
  obtain ⟨range, hg, hg'⟩ := given_bind.mp hg
  obtain ⟨ratio, hr, hr'⟩ := given_bind.mp hr
  obtain ⟨attack, ha, ha'⟩ := given_bind.mp ha
  obtain ⟨hold, hh, hh'⟩ := given_bind.mp hh
  obtain ⟨release, hx, hx'⟩ := given_bind.mp hx
  refine ⟨⟨source, channel, a.enabled.map Number.toBool, a.mode, threshold, range, ratio, attack,
    hold, release⟩, ?_, ?_, rfl, rfl, rfl⟩
  · simp only [setFairlightExpander, hsource, hchannel, ht, hg, hr, ha, hh, hx, Option.bind_eq_bind,
      Option.bind_some]
  · simp only [ExpanderProperties.levels, hm, ht', hg', hr', ha', hh', hx', Option.bind_eq_bind,
      Option.bind_some]

theorem ExpanderArgs.body_of_served (c : ExpanderProperties) (w : ExpanderWire)
    (hset : setFairlightExpander a = some c) (hwire : c.levels.map c.wire = some w)
    (h : a.Served w) : ∃ bs, c.body = some bs ∧ bs.length + 8 < 0x10000 := by
  obtain ⟨l, hl, rfl⟩ := Option.map_eq_some_iff.mp hwire
  have hmade := ExpanderArgs.made hset hl
  obtain ⟨hsplit, hch⟩ := fits_channel h.channel.1
  have hmode : ServedBy Mode.toInt Mode.Served a.mode l.mode := ⟨hmade.mode, h.mode⟩
  rw [ExpanderProperties.body, hl, Option.bind_some]
  refine packed_of_fits (c.sizes l) (by decide) ?_
  simp only [ExpanderProperties.items, List.forall_mem_cons]
  exact ⟨fits_mask (by decide) (by simp), fits_u16 h.source.1, trivial, trivial, hsplit, hch,
    fits_bool _, ⟨by decide, hmode.getD (by decide) fun _ _ hnear => hnear.fits⟩, trivial,
    fits_of_servedBy ⟨hmade.threshold, h.thresholdDb⟩, fits_of_servedBy ⟨hmade.range, h.rangeDb⟩,
    fits_of_servedBy ⟨hmade.ratio, h.ratio⟩, fits_of_servedBy ⟨hmade.attack, h.attackMs⟩, fits_of_servedBy ⟨hmade.hold, h.holdMs⟩,
    fits_of_servedBy ⟨hmade.release, h.releaseMs⟩, List.forall_mem_nil _⟩

theorem ExpanderArgs.served_iff (h : AllFinite a.numbers) :
    (∃ c w, setFairlightExpander a = some c ∧ c.levels.map c.wire = some w ∧ a.Served w) ↔
      a.Suits := by
  have hsource := whole_iff (h (some a.source) (by simp [numbers]) _ rfl)
    (show 0 ≤ 0 from le_rfl) (show 0 ≤ 65535 by decide)
  have hchannel := whole_iff (h (some a.channel) (by simp [numbers]) _ rfl)
    (show -1 ≤ 0 by decide) (show 0 ≤ 1 by decide)
  have henabled := h a.enabled (by simp [numbers])
  have hmode := modes_iff (h (a.mode.bind Mode.number?) (by simp [numbers]))
  have hthreshold := unclamped_levels_iff (h a.thresholdDb (by simp [numbers]))
    (show -5000 ≤ 0 by decide) (by decide) (by decide) (by decide) (by decide)
  have hrange := unclamped_levels_iff (h a.rangeDb (by simp [numbers]))
    (show 0 ≤ 6000 by decide) (by decide) (by decide) (by decide) (by decide)
  have hratio := unclamped_levels_iff (h a.ratio (by simp [numbers]))
    (show 100 ≤ 300 by decide) (by decide) (by decide) (by decide) (by decide)
  have hattack := unclamped_levels_iff (h a.attackMs (by simp [numbers]))
    (show 50 ≤ 10000 by decide) (by decide) (by decide) (by decide) (by decide)
  have hhold := unclamped_levels_iff (h a.holdMs (by simp [numbers]))
    (show 0 ≤ 400000 by decide) (by decide) (by decide) (by decide) (by decide)
  have hrelease := unclamped_levels_iff (h a.releaseMs (by simp [numbers]))
    (show 5000 ≤ 400000 by decide) (by decide) (by decide) (by decide) (by decide)
  constructor
  · rintro ⟨c, w, hset, hwire, hserved⟩
    obtain ⟨l, hl, rfl⟩ := Option.map_eq_some_iff.mp hwire
    have hmade := ExpanderArgs.made hset hl
    exact {
      source := hsource.mp ⟨_, hmade.source, hserved.source⟩
      channel := hchannel.mp ⟨_, hmade.channel, hserved.channel⟩
      enabled := (flags_iff henabled (by rw [← hmade.enabled]; rfl)).mp hserved.enabled
      mode := hmode.mp ⟨_, hmade.mode, hserved.mode⟩
      thresholdDb := hthreshold.mp ⟨_, hmade.threshold, hserved.thresholdDb⟩
      rangeDb := hrange.mp ⟨_, hmade.range, hserved.rangeDb⟩
      ratio := hratio.mp ⟨_, hmade.ratio, hserved.ratio⟩
      attackMs := hattack.mp ⟨_, hmade.attack, hserved.attackMs⟩
      holdMs := hhold.mp ⟨_, hmade.hold, hserved.holdMs⟩
      releaseMs := hrelease.mp ⟨_, hmade.release, hserved.releaseMs⟩ }
  · intro hsuits
    obtain ⟨source, hs, hs'⟩ := hsource.mpr hsuits.source
    obtain ⟨channel, hc, hc'⟩ := hchannel.mpr hsuits.channel
    obtain ⟨threshold, ht⟩ := hthreshold.mpr hsuits.thresholdDb
    obtain ⟨mode, hm⟩ := hmode.mpr hsuits.mode
    obtain ⟨range, hg⟩ := hrange.mpr hsuits.rangeDb
    obtain ⟨ratio, hr⟩ := hratio.mpr hsuits.ratio
    obtain ⟨attack, ha⟩ := hattack.mpr hsuits.attackMs
    obtain ⟨hold, hh⟩ := hhold.mpr hsuits.holdMs
    obtain ⟨release, hx⟩ := hrelease.mpr hsuits.releaseMs
    obtain ⟨c, hset, hl, rfl, rfl, henabled'⟩ := @exists_made a source channel
      ⟨mode, threshold, range, ratio, attack, hold, release⟩ hs hc hm.1 ht.1 hg.1 hr.1 ha.1 hh.1 hx.1
    refine ⟨c, c.wire ⟨mode, threshold, range, ratio, attack, hold, release⟩, hset,
      by rw [hl, Option.map_some], {
      source := hs'
      channel := hc'
      enabled := (flags_iff henabled (by rw [← henabled']; rfl)).mpr hsuits.enabled
      mode := hm.2
      thresholdDb := ht.2
      rangeDb := hg.2
      ratio := hr.2
      attackMs := ha.2
      holdMs := hh.2
      releaseMs := hx.2 }⟩

end

/-! ## All four -/

def Call.numbers : Call → List (Option Number)
  | master a => a.numbers
  | strip a => a.numbers
  | compressor a => a.numbers
  | expander a => a.numbers

/-- The command has the nearest legal value for each number that is given. -/
def Call.Served (call : Call) (command : Bytes) : Prop :=
  match call with
  | master a => a.Served (MasterWire.read command)
  | strip a => a.Served (StripWire.read command)
  | compressor a => a.Served (CompressorWire.read command)
  | expander a => a.Served (ExpanderWire.read command)

/-- What the numbers of a call must be for that. -/
def Call.Suits : Call → Prop
  | master a => a.Suits
  | strip a => a.Suits
  | compressor a => a.Suits
  | expander a => a.Suits

/-- The call queues a command that is packed, with the nearest legal value for each number. -/
def Call.Serialises (call : Call) : Prop :=
  ∃ m command, call.queued = some m ∧ m.getCommand = some command ∧ call.Served command

/-- A call with finite numbers is served exactly when the numbers suit. -/
theorem serialises_iff {call : Call} (h : AllFinite call.numbers) :
    call.Serialises ↔ call.Suits := by
  cases call with
  | master a =>
    exact (queued_iff MasterProperties.read_eq MasterArgs.body_of_served).trans
      (MasterArgs.served_iff h)
  | strip a =>
    exact (queued_iff StripProperties.read_eq StripArgs.body_of_served).trans
      (StripArgs.served_iff h)
  | compressor a =>
    exact (queued_iff CompressorProperties.read_eq CompressorArgs.body_of_served).trans
      (CompressorArgs.served_iff h)
  | expander a =>
    exact (queued_iff ExpanderProperties.read_eq ExpanderArgs.body_of_served).trans
      (ExpanderArgs.served_iff h)

/-- An equalizer gain of -11.45 dB on the master. -/
def eqGainCall : Call :=
  .master ⟨none, some (.float (.finite (Library.nearestDouble (-1145 / 100)))), none, none, none⟩

theorem eqGainCall_finite : AllFinite eqGainCall.numbers := by
  intro o ho v hv
  simp only [eqGainCall, Call.numbers, MasterArgs.numbers, List.mem_cons, List.not_mem_nil,
    or_false] at ho
  obtain rfl | rfl | rfl | rfl | rfl := ho <;> cases hv
  intro x hx
  exact ⟨_, (Number.float.inj hx).symm⟩

theorem serialises_iff_eqGain : eqGainCall.Serialises := by
  refine (serialises_iff eqGainCall_finite).mpr ⟨?_, ?_, ?_, ?_, ?_⟩
  · exact fun v hv => by cases hv
  · intro v hv
    obtain rfl := Option.some.inj hv
    have hproduct : (Number.float (.finite (Library.nearestDouble (-1145 / 100)))).product =
        (-1145 : ℤ) := by
      decide +kernel
    have hbound : |((-1145 : ℤ) : ℚ)| < 2 ^ 1024 :=
      lt_of_lt_of_le (show _ < (2 : ℚ) ^ 11 by norm_num)
        (pow_le_pow_right₀ one_le_two (by norm_num))
    refine ⟨⟨fun n hn => Number.noConfusion hn, by rwa [hproduct]⟩, ?_⟩
    rintro ⟨k, -, -, htie, -⟩
    rw [hproduct] at htie
    have hdouble : ((2 * -1145 : ℤ) : ℚ) = (2 * k + 1 : ℤ) := by
      push_cast at htie ⊢
      linarith
    have := Int.cast_injective hdouble
    omega
  · exact fun v hv => by cases hv
  · exact fun v hv => by cases hv
  · exact fun v hv => by cases hv

/-- A ratio of 1000 on the compressor of the first input. -/
def ratioCall : Call :=
  .compressor ⟨.int 1, .int (-1), none, none, some (.int 1000), none, none, none⟩

/-- The ratio is queued as it is, and the command cannot be packed when the queue is drained. -/
theorem ratio_not_serialised : AllFinite ratioCall.numbers ∧ ratioCall.queued.isSome = true ∧
    ¬ ratioCall.Serialises := by
  refine ⟨?_, by decide +kernel, ?_⟩
  · intro o ho v hv x hx
    simp only [ratioCall, Call.numbers, CompressorArgs.numbers, List.mem_cons, List.not_mem_nil,
      or_false] at ho
    obtain rfl | rfl | rfl | rfl | rfl | rfl | rfl | rfl := ho <;> cases hv <;> cases hx
  · rintro ⟨m, command, hqueued, hcommand, -⟩
    have hnone : ratioCall.queued.bind Outgoing.getCommand = none := by decide +kernel
    rw [hqueued, Option.bind_some, hcommand] at hnone
    cases hnone

end Bmdwire.Fairlight
