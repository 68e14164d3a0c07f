import Bmdwire.Analysis.LockBelief
import Bmdwire.Analysis.Outstanding
import Bmdwire.Interface.LaneTurns

/-!
# Other clients get their turn

Every lock request for a store released before goes out with the turn of other clients
over (`lock_requests_in_turn`), in every run that meets `CourtesyKept`: no release leaves
the belief behind or begins no turn, and every sign of another client reaches the stores
waiting unannounced. In every run no lock is asked for while its store is recorded as held
by somebody else.
-/

set_option autoImplicit false

namespace Bmdwire

open Library (Dict Every)

namespace Lane

/-- Where the turn that the store's release at `r` began stands: it was over at some
instant, the store waits unannounced, or it was announced free. -/
inductive Turn (s : Lane) (store : Store) (r : Time) (since : List Act) : Prop
  | taken : TurnTaken store s.clock s.log → Turn s store r since
  | silent {q : Time} : s.yielding.get? store = some ⟨q, none⟩ → r ≤ q →
      QuietSince store q s.log →
      ((∀ v, .recv v (.lockState store true) ∉ since) → s.ownRelease.get? store = some r) →
      Turn s store r since
  | announced {q f : Time} (later between : List Act) :
      s.yielding.get? store = some ⟨q, some f⟩ →
      since = later ++ .recv f (.lockState store false) :: between →
      (OwnEcho store r f between → (s.ownRelease.get? store).isSome) → Turn s store r since

/-- The turns of the stores that `p` holds of, as the log and the lane have them. -/
structure CourteousFor (p : Store → Prop) (s : Lane) : Prop where
  turns : ∀ store r since, p store → sinceRelease store s.log = some (r, since) →
    s.Turn store r since
  seen : ∀ v, SignAt v s.log → ∃ v', s.othersSeen = some v' ∧ v ≤ v'
  grants : ∀ k t, s.lastGrant.get? k = some t → .recv t (.lockObtained k) ∈ s.log
  past : ∀ a ∈ s.log, ∀ v, a.time? = some v → v ≤ s.clock
  asked : Every AskedInTurn s.log

/-- The turns of every store that takes a lock. -/
def Courteous (s : Lane) : Prop := s.CourteousFor (· ≠ macroStore)

/-- The store was left free, and nobody announced it free yet. -/
def waitsUnannounced (s : Lane) (store : Store) : Bool :=
  (s.yielding.get? store).any fun y => y.announced.isNone

theorem waitsUnannounced_of {s : Lane} {store : Store} {q : Time}
    (h : s.yielding.get? store = some ⟨q, none⟩) : s.waitsUnannounced store = true := by
  simp [waitsUnannounced, h]

/-- A turn through entries that do not end it. Signs count only for a store that waits
unannounced. -/
theorem Turn.extend {s t : Lane} {store : Store} {r : Time} {since new : List Act}
    (h : s.Turn store r since) (hyield : t.yielding.get? store = s.yielding.get? store)
    (hown : t.ownRelease.get? store = s.ownRelease.get? store) (hclock : s.clock ≤ t.clock)
    (hlog : t.log = new ++ s.log)
    (hnew : ∀ a ∈ new, a.releasedAt? store = none ∧ ∀ v, a.time? = some v → s.clock ≤ v)
    (hquiet : s.waitsUnannounced store = true → ∀ q, QuietSince store q s.log →
      QuietSince store q t.log) : t.Turn store r (new ++ since) := by
  cases h with
  | taken hover =>
    refine .taken ?_
    rw [hlog]
    exact (hover.append hnew).mono hclock
  | @silent q hy hr hq hecho =>
    refine .silent (hyield.trans hy) hr (hquiet (waitsUnannounced_of hy) q hq) ?_
    intro hno
    rw [hown]
    exact hecho fun v hv => hno v (List.mem_append_right _ hv)
  | announced later between hy hsince hecho =>
    refine .announced (new ++ later) between (hyield.trans hy) ?_ ?_
    · rw [hsince, List.append_assoc]
    · rw [hown]
      exact hecho

/-- Entries of our own that release no store `p` holds of, and a change that leaves the
yields alone. -/
theorem CourteousFor.extend {p : Store → Prop} {s t : Lane} (h : s.CourteousFor p)
    (hyield : ∀ k, p k → t.yielding.get? k = s.yielding.get? k)
    (hown : ∀ k, p k → t.ownRelease.get? k = s.ownRelease.get? k)
    (hseen : t.othersSeen = s.othersSeen) (hgrant : t.lastGrant = s.lastGrant)
    (hclock : t.clock = s.clock)
    (hlog : ∃ new, t.log = new ++ s.log ∧ Every AskedInTurn t.log ∧ ∀ a ∈ new, a.own ∧
      (∀ k, p k → a.releasedAt? k = none) ∧ ∀ v, a.time? = some v → v = s.clock) :
    t.CourteousFor p := by
  obtain ⟨new, hlog, hasked, hnew⟩ := hlog
  have hsign : ∀ a ∈ new, ∀ past v, ¬ Sign past v a := fun a ha => (hnew a ha).1.not_sign
  constructor
  case turns =>
    intro store r since hp hsince
    rw [hlog, sinceRelease_append fun a ha =>
      ⟨(hnew a ha).2.1 store hp, (hnew a ha).1.endsSession⟩] at hsince
    obtain ⟨⟨r', since'⟩, hsince', heq⟩ := Option.map_eq_some_iff.mp hsince
    cases heq
    refine (h.turns store r' since' hp hsince').extend (hyield store hp) (hown store hp)
      hclock.ge hlog (fun a ha => ⟨(hnew a ha).2.1 store hp, fun v hv => ?_⟩) fun _ q hq => ?_
    · exact ((hnew a ha).2.2 v hv).ge
    · rw [hlog]
      exact quietSince_append hsign hq
  case seen =>
    intro v hv
    rw [hlog, signAt_append hsign] at hv
    rw [hseen]
    exact h.seen v hv
  case grants =>
    intro k t' hk
    rw [hgrant] at hk
    rw [hlog]
    exact List.mem_append_right _ (h.grants k t' hk)
  case past =>
    intro a ha v hv
    rw [hclock]
    rw [hlog] at ha
    rcases List.mem_append.mp ha with ha | ha
    · exact ((hnew a ha).2.2 v hv).le
    · exact h.past a ha v hv
  case asked => exact hasked

/-- The same, for one entry. -/
theorem CourteousFor.cons {p : Store → Prop} {s t : Lane} {a : Act} (h : s.CourteousFor p)
    (hlog : t.log = a :: s.log) (hask : AskedInTurn a s.log) (ha : a.own)
    (hrel : ∀ k, a.releases k = false) (htime : ∀ v, a.time? = some v → v = s.clock)
    (hyield : t.yielding = s.yielding) (hown : t.ownRelease = s.ownRelease)
    (hseen : t.othersSeen = s.othersSeen) (hgrant : t.lastGrant = s.lastGrant)
    (hclock : t.clock = s.clock) : t.CourteousFor p := by
  refine h.extend (fun k _ => by rw [hyield]) (fun k _ => by rw [hown]) hseen hgrant hclock
    ⟨[a], hlog, by rw [hlog]; exact ⟨hask, h.asked⟩, fun b hb => ?_⟩
  rw [List.mem_singleton.mp hb]
  exact ⟨ha, fun k _ => Act.releasedAt?_of_releases (hrel k), htime⟩

/-- A change of something else. -/
theorem CourteousFor.same {p : Store → Prop} {s t : Lane} (h : s.CourteousFor p)
    (hlog : t.log = s.log) (hyield : t.yielding = s.yielding) (hown : t.ownRelease = s.ownRelease)
    (hseen : t.othersSeen = s.othersSeen) (hgrant : t.lastGrant = s.lastGrant)
    (hclock : t.clock = s.clock) : t.CourteousFor p :=
  h.extend (fun k _ => by rw [hyield]) (fun k _ => by rw [hown]) hseen hgrant hclock
    ⟨[], hlog, by rw [hlog]; exact h.asked, by simp⟩

theorem CourteousFor.mono {p p' : Store → Prop} {s : Lane} (h : s.CourteousFor p)
    (hp : ∀ k, p' k → p k) : s.CourteousFor p' :=
  ⟨fun store r since hk => h.turns store r since (hp store hk), h.seen, h.grants, h.past, h.asked⟩

/-! ## Releases -/

/-- A release of a store begins its turn; the other turns go on. -/
theorem courteous_release {s t : Lane} {store : Store}
    (h : s.CourteousFor fun k => k ≠ macroStore ∧ k ≠ store)
    (hyield : t.yielding = s.yielding.set store ⟨s.clock, none⟩)
    (hown : t.ownRelease = s.ownRelease.set store s.clock)
    (hlog : t.log = .send s.clock (.lock store false) :: s.log)
    (hseen : t.othersSeen = s.othersSeen) (hgrant : t.lastGrant = s.lastGrant)
    (hclock : t.clock = s.clock) : t.Courteous := by
  have hrest : t.CourteousFor fun k => k ≠ macroStore ∧ k ≠ store := by
    refine h.extend (fun k hk => ?_) (fun k hk => ?_) hseen hgrant hclock
      ⟨[_], hlog, by rw [hlog]; exact ⟨askedInTurn_of_none rfl, h.asked⟩, fun a ha => ?_⟩
    · rw [hyield, Dict.get?_set_ne _ _ hk.2]
    · rw [hown, Dict.get?_set_ne _ _ hk.2]
    · rw [List.mem_singleton.mp ha]
      refine ⟨Act.own_send _ _, fun k hk => ?_, fun v hv => (Option.some.inj hv).symm⟩
      simp [Act.releasedAt?, Ne.symm hk.2]
  refine ⟨fun k r since hk hsince => ?_, hrest.seen, hrest.grants, hrest.past, hrest.asked⟩
  by_cases hks : k = store
  · subst hks
    have hreleased : (Act.send s.clock (.lock k false)).releasedAt? k = some s.clock := by
      simp [Act.releasedAt?]
    rw [hlog] at hsince
    simp only [sinceRelease, hreleased] at hsince
    split at hsince
    · cases hsince
    · cases hsince
      refine .silent (by rw [hyield, Dict.get?_set_self]) (le_refl _) ?_ ?_
      · rw [hlog]
        exact .inl (by rw [hreleased]; rfl)
      · intro _
        rw [hown, Dict.get?_set_self]
  · exact hrest.turns k r since ⟨hk, hks⟩ hsince

/-- Letting go of a store. -/
theorem courteous_letGo {s : Lane} {store : Store}
    (h : s.CourteousFor fun k => k ≠ macroStore ∧ (k = store → s.held store = false)) :
    (s.letGo s.clock store).Courteous := by
  rcases letGo_cases s.clock store s with ⟨hm, hheld, heq⟩ | ⟨hn, heq⟩
  · rw [heq]
    refine courteous_release (h.mono fun k hk => ⟨hk.1, fun hks => absurd hks hk.2⟩) rfl rfl rfl
      rfl rfl rfl
  · rw [heq]
    have hall : s.Courteous := h.mono fun k hk => ⟨hk, fun hks => ?_⟩
    · exact hall.same rfl rfl rfl rfl rfl rfl
    · subst hks
      exact hn.resolve_left hk

/-! ## The moves of the trigger -/

/-- Others seen by the log were seen by the lane. -/
theorem CourteousFor.othersRecently {p : Store → Prop} {s : Lane} {now : Time}
    (h : s.CourteousFor p) (ho : OthersAt now s.log) : s.othersRecently now = true := by
  obtain ⟨v, hv, hlt⟩ := ho
  obtain ⟨v', hv', hle⟩ := h.seen v hv
  simp only [Lane.othersRecently, hv', decide_eq_true_eq]
  exact lt_of_le_of_lt (Nat.sub_le_sub_left hle now) hlt

/-- A yield that is due has left its store its turn. -/
theorem turnOver_of_yieldDue {p : Store → Prop} {s : Lane} {store : Store} {y : Yield}
    {r : Time} {since : List Act} (h : s.CourteousFor p)
    (hsince : sinceRelease store s.log = some (r, since)) (ht : s.Turn store r since)
    (hy : s.yielding.get? store = some y) (hdue : s.yieldDue s.clock store y ≤ s.clock) :
    TurnTaken store s.clock s.log := by
  cases ht with
  | taken hover => exact hover
  | @silent q hy' hr hq _ =>
    obtain rfl := Option.some.inj (hy'.symm.trans hy)
    exact ⟨s.clock, [], s.log, rfl, le_refl _,
      ⟨r, since, hsince, .inr ⟨q, hr, hdue, hq⟩⟩, by simp⟩
  | @announced q f later between hy' heq hecho =>
    obtain rfl := Option.some.inj (hy'.symm.trans hy)
    simp only [yieldDue] at hdue
    refine ⟨s.clock, [], s.log, rfl, le_refl _,
      ⟨r, since, hsince, .inl ⟨f, later, between, heq, ?_, fun hown hothers => ?_⟩⟩, by simp⟩
    · split at hdue
      · exact (Nat.le_add_right _ _).trans hdue
      · exact hdue
    · rwa [if_pos ⟨hecho hown, h.othersRecently hothers⟩] at hdue

/-- Every move of the trigger leaves other clients their turns. -/
theorem courteous_triggerMove {now : Time} {stale : Prop} {s t : Lane}
    (hm : TriggerMove now stale s t) (hbelief : s.Belief) (hclock : s.clock = now)
    (h : s.Courteous) : t.Courteous ∧ t.clock = now := by
  subst hclock
  cases hm with
  | wake due => exact ⟨h.same rfl rfl rfl rfl rfl rfl, rfl⟩
  | fail =>
    exact ⟨h.cons rfl (askedInTurn_of_none rfl) (by rintro now e ⟨⟩) (fun _ => rfl)
      (by rintro v ⟨⟩) rfl rfl rfl rfl rfl, rfl⟩
  | pauseOver _ _ _ => exact ⟨h.same rfl rfl rfl rfl rfl rfl, rfl⟩
  | @endYield store y hy hdue =>
    refine ⟨⟨fun k r since hk hsince => ?_, h.seen, h.grants, h.past, h.asked⟩, rfl⟩
    have hturn := h.turns k r since hk hsince
    by_cases hks : k = store
    · subst hks
      have hover := turnOver_of_yieldDue h hsince hturn hy hdue
      exact .taken hover
    · have hsame : Turn (s.endYield store) k r ([] ++ since) :=
        hturn.extend (Dict.get?_erase_ne _ hks) (Dict.get?_erase_ne _ hks) (le_refl _) rfl (by simp)
          fun _ _ hq => hq
      exact hsame
  | clean hready hempty =>
    obtain ⟨new, heq, hnew⟩ := cleanLocks_eq s.clock s
    rw [heq]
    have hasked : ∀ a ∈ new, a.asksLock? = none := by
      intro a ha
      obtain ⟨k, -, rfl⟩ := hnew a ha
      rfl
    refine ⟨h.extend (fun _ _ => rfl) (fun _ _ => rfl) rfl rfl rfl
      ⟨new, rfl, every_askedInTurn_append hasked h.asked, fun a ha => ?_⟩, rfl⟩
    obtain ⟨k, hk, rfl⟩ := hnew a ha
    refine ⟨Act.own_send _ _, fun j hj => ?_, fun v hv => (Option.some.inj hv).symm⟩
    have hkm : k = macroStore := by
      by_contra hkm
      exact hbelief.not_held_idle hready hempty hkm hk
    simp [Act.releasedAt?, hkm, Ne.symm hj]
  | @askForLock id _ _ hm _ _ hy =>
    have hasks := lockRequestFor_asks s.clock (s.tasks id)
    have hask : AskedInTurn (.send s.clock (lockRequestFor (s.tasks id))) s.log := by
      intro store u hstore hu hsince
      rw [hasks] at hstore
      obtain rfl := Option.some.inj hstore
      rw [lockRequestFor_time] at hu
      obtain rfl := Option.some.inj hu
      obtain ⟨⟨r, since⟩, hsince⟩ := Option.isSome_iff_exists.mp hsince
      cases h.turns _ r since hm hsince with
      | taken hover => exact hover
      | silent hy' _ _ _ =>
        rw [hy] at hy'
        cases hy'
      | announced _ _ hy' _ _ =>
        rw [hy] at hy'
        cases hy'
    refine ⟨h.cons rfl hask (Act.own_send _ _) (lockRequestFor_spec s.clock _).1 ?_ rfl rfl rfl rfl
      rfl, rfl⟩
    intro v hv
    rw [lockRequestFor_time] at hv
    exact (Option.some.inj hv).symm
  | @clear id hready hfront husable _ _ =>
    have hsent : (s.dispatchClear s.clock id).CourteousFor (· ≠ macroStore) := by
      have hone : CourteousFor (· ≠ macroStore)
          (s.send s.clock (.clearStill id (s.tasks id).store (s.tasks id).slot)) :=
        h.cons rfl (askedInTurn_of_none rfl) (Act.own_send _ _) (fun _ => rfl) (by rintro v ⟨⟩) rfl rfl
          rfl rfl rfl
      exact hone.cons rfl (askedInTurn_of_none rfl) (Act.own_notice _) (fun _ => rfl) (by rintro v ⟨⟩)
        rfl rfl rfl rfl rfl
    exact ⟨courteous_letGo (s := s.dispatchClear s.clock id) (hsent.mono fun k hk => hk.1),
      letGo_clock ..⟩
  | @request id retry hready hfront husable _ hkind _ =>
    have hr := requested_requestTransfer s.clock retry id s
    obtain ⟨new, c, hlog, hbulk, hc⟩ := hr.log
    obtain ⟨hasks, htime⟩ := Command.asksLock?_of_request s.clock (c := c) (by rw [hc]; rfl)
    have hasked : Every AskedInTurn (new ++ .send s.clock c :: s.log) :=
      every_askedInTurn_append (fun a ha => Act.asksLock?_of_bulk (hbulk a ha))
        ⟨askedInTurn_of_none hasks, h.asked⟩
    refine ⟨h.extend (fun _ _ => by rw [hr.yielding]) (fun _ _ => by rw [hr.ownRelease]) hr.othersSeen
      hr.lastGrant hr.clock ⟨new ++ [.send s.clock c], by rw [hlog]; simp, by rwa [hlog],
        fun a ha => ?_⟩, hr.clock⟩
    rcases List.mem_append.mp ha with ha | ha
    · refine ⟨Act.own_of_bulk (hbulk a ha), fun k _ => ?_, ?_⟩
      · exact Act.releasedAt?_of_releases (Act.bulk_spec (hbulk a ha) k).2.1
      · simp [Act.time?_of_bulk (hbulk a ha)]
    · rw [List.mem_singleton.mp ha]
      refine ⟨Act.own_send _ _, fun k _ => ?_, by simp [htime]⟩
      exact Act.releasedAt?_of_releases ((Command.request_spec _ hc).1 k)

/-! ## The events -/

/-- What was heard, and no more: the event is no sign for a store that waits unannounced,
and no sign at all unless others are noted as seen now. -/
theorem CourteousFor.hear {p : Store → Prop} {s t : Lane} {now : Time} {e : LaneEvent}
    (h : s.CourteousFor p) (hle : s.clock ≤ now) (hlog : t.log = .recv now e :: s.log)
    (hclock : t.clock = now) (hend : (Act.recv now e).endsSession = false)
    (hyield : ∀ k, p k → t.yielding.get? k = s.yielding.get? k)
    (hown : ∀ k, p k → t.ownRelease.get? k = s.ownRelease.get? k)
    (hgrant : ∀ k v, t.lastGrant.get? k = some v →
      s.lastGrant.get? k = some v ∨ e = .lockObtained k ∧ v = now)
    (hseen : t.othersSeen = some now ∨
      t.othersSeen = s.othersSeen ∧ ∀ v, ¬ Sign s.log v (.recv now e))
    (hsign : ∀ k, p k → s.waitsUnannounced k = true → ∀ v, ¬ Sign s.log v (.recv now e)) :
    t.CourteousFor p := by
  have hkeeps : ∀ k, (Act.recv now e).keepsTurn k := fun k => ⟨rfl, hend⟩
  constructor
  case turns =>
    intro store r since hp hsince
    rw [hlog, sinceRelease_cons (hkeeps store)] at hsince
    obtain ⟨⟨r', since'⟩, hsince', heq⟩ := Option.map_eq_some_iff.mp hsince
    cases heq
    have hturn := h.turns store r' since' hp hsince'
    have hext : t.Turn store r' ([.recv now e] ++ since') := by
      refine hturn.extend (hyield store hp) (hown store hp) (hclock ▸ hle) hlog ?_ ?_
      · intro a ha
        rw [List.mem_singleton.mp ha]
        exact ⟨rfl, fun v hv => (Option.some.inj hv) ▸ hle⟩
      · intro hw q hq
        rw [hlog]
        exact .inr ⟨fun v hv => absurd hv (hsign store hp hw v), hq⟩
    exact hext
  case seen =>
    intro v hv
    rw [hlog, signAt_cons] at hv
    rcases hseen with hseen | ⟨hseen, hno⟩
    · refine ⟨now, hseen, ?_⟩
      rcases hv with hv | ⟨post, a, past, heq, ha⟩
      · exact (Option.some.inj hv.time).ge
      · exact (h.past a (by rw [heq]; simp) v ha.time).trans hle
    · rw [hseen]
      exact h.seen v (hv.resolve_left (hno v))
  case grants =>
    intro k v hk
    rw [hlog]
    rcases hgrant k v hk with hk | ⟨rfl, rfl⟩
    · exact List.mem_cons_of_mem _ (h.grants k v hk)
    · exact List.mem_cons_self ..
  case past =>
    intro a ha v hv
    rw [hclock]
    rw [hlog] at ha
    rcases List.mem_cons.mp ha with rfl | ha
    · exact (Option.some.inj hv).ge
    · exact (h.past a ha v hv).trans hle
  case asked =>
    rw [hlog]
    exact ⟨askedInTurn_of_none rfl, h.asked⟩

/-- After the end of a session no turn is on. -/
theorem courteous_sessionEnd {s t : Lane} (h : s.Courteous) (hnone : ∀ k, sinceRelease k t.log = none)
    (hlog : ∃ new, t.log = new ++ s.log ∧ ∀ a ∈ new, (∀ past v, ¬ Sign past v a) ∧
      a.asksLock? = none ∧ ∀ v, a.time? = some v → v = t.clock)
    (hclock : s.clock ≤ t.clock) (hseen : t.othersSeen = s.othersSeen)
    (hgrant : ∀ k v, t.lastGrant.get? k = some v → s.lastGrant.get? k = some v) :
    t.Courteous := by
  obtain ⟨new, hlog, hnew⟩ := hlog
  constructor
  case turns =>
    intro store r since _ hsince
    rw [hnone] at hsince
    cases hsince
  case seen =>
    intro v hv
    rw [hlog, signAt_append fun a ha => (hnew a ha).1] at hv
    rw [hseen]
    exact h.seen v hv
  case grants =>
    intro k v hk
    rw [hlog]
    exact List.mem_append_right _ (h.grants k v (hgrant k v hk))
  case past =>
    intro a ha v hv
    rw [hlog] at ha
    rcases List.mem_append.mp ha with ha | ha
    · exact ((hnew a ha).2.2 v hv).le
    · exact (h.past a ha v hv).trans hclock
  case asked =>
    rw [hlog]
    exact every_askedInTurn_append (fun a ha => (hnew a ha).2.1) h.asked

/-- Every sign of another client reaches the stores that wait unannounced, and no abort
leaves a drain while another store is held: its lock would be given back with no turn
left. -/
def SignsHeeded (s : Lane) (a : Env × LaneEvent) : Prop :=
  match a.2 with
  | .lockState store state => state = true → store = macroStore ∨ s.held store = true ∨
      s.grantedJustNow a.1.now store = true ∨
      ∀ k ∈ s.yielding.keys, k ≠ store → k ≠ macroStore → s.waitsUnannounced k = false
  | .fileTransferError transfer status => status = 6 →
      s.inFlight.bind (·.tid) = some transfer →
      ∀ k ∈ s.yielding.keys, k ≠ macroStore → s.waitsUnannounced k = true →
        s.inFlight.map (·.store) = some k ∧ s.held k = true
  | .abortTransfers => s.leavesDraining a.1.now = true →
      ∀ k ∈ s.locks.keys, k ≠ macroStore → s.held k = true → s.inFlight.map (·.store) = some k
  | _ => True

/-- The steps that leave other clients their turns. -/
def CourtesyKept (s : Lane) (a : Env × LaneEvent) : Prop :=
  s.GrantsMeetWork a ∧ s.SignsHeeded a

instance SignsHeeded.decidable (s : Lane) :
    (a : Env × LaneEvent) → Decidable (s.SignsHeeded a)
  | (env, .lockState store state) => inferInstanceAs (Decidable (state = true →
      store = macroStore ∨ s.held store = true ∨ s.grantedJustNow env.now store = true ∨
      ∀ k ∈ s.yielding.keys, k ≠ store → k ≠ macroStore → s.waitsUnannounced k = false))
  | (_, .fileTransferError transfer status) => inferInstanceAs (Decidable (status = 6 →
      s.inFlight.bind (·.tid) = some transfer →
      ∀ k ∈ s.yielding.keys, k ≠ macroStore → s.waitsUnannounced k = true →
        s.inFlight.map (·.store) = some k ∧ s.held k = true))
  | (env, .abortTransfers) => inferInstanceAs (Decidable (s.leavesDraining env.now = true →
      ∀ k ∈ s.locks.keys, k ≠ macroStore → s.held k = true → s.inFlight.map (·.store) = some k))
  | (_, .lockObtained _) | (_, .fileTransferContinueData _ _ _) | (_, .fileTransferData _ _)
  | (_, .fileTransferDataComplete _) | (_, .download _ _) | (_, .upload _ _ _)
  | (_, .queueClear _ _) | (_, .dequeueClear _) | (_, .fireWake) | (_, .poke) | (_, .wakeup)
  | (_, .queueFlushed) | (_, .resetTransferLane) | (_, .releaseLocksNow) =>
    inferInstanceAs (Decidable True)

instance CourtesyKept.decidable (s : Lane) (a : Env × LaneEvent) : Decidable (s.CourtesyKept a) :=
  inferInstanceAs (Decidable (s.GrantsMeetWork a ∧ s.SignsHeeded a))

/-- The drain is of the transfer requested last. -/
def DrainsLast (s : Lane) : Prop :=
  ∀ d, s.draining = some d → ∃ r, lastRequest s.log = some r ∧ r.2 = d.tid

theorem mem_yielding_keys {s : Lane} {k : Store} (h : s.waitsUnannounced k = true) :
    k ∈ s.yielding.keys := by
  rw [s.yielding.mem_keys]
  cases hy : s.yielding.get? k with
  | none => simp [waitsUnannounced, hy] at h
  | some y => rfl

theorem mem_locks_keys {s : Lane} {k : Store} (h : s.held k = true) : k ∈ s.locks.keys := by
  rw [s.locks.mem_keys]
  rw [held_eq] at h
  cases hl : s.locks.get? k with
  | none => simp [hl] at h
  | some b => rfl

/-! ## The openings -/

section Opening

variable {env : Env} {s : Lane}

/-- An LKST "taken" for a store held is a grant of ours. -/
theorem not_sign_held {store : Store} (hbelief : s.Belief) (hheld : s.held store = true) (v : Time) :
    ¬ Sign s.log v (.recv env.now (.lockState store true)) := by
  rintro ⟨hm, hgranted, -⟩
  rw [hbelief.granted store hm hheld] at hgranted
  cases hgranted

/-- An LKST "taken" soon after a grant of ours announces it. -/
theorem not_sign_grantedJustNow {p : Store → Prop} {store : Store} (h : s.CourteousFor p)
    (hj : s.grantedJustNow env.now store = true) (v : Time) :
    ¬ Sign s.log v (.recv env.now (.lockState store true)) := by
  rintro ⟨-, -, hwindow⟩
  unfold grantedJustNow at hj
  split at hj
  · rename_i g hg
    have hlt := hwindow g (h.grants store g hg)
    simp only [decide_eq_true_eq, not_lt] at hj
    exact absurd hlt (not_lt.mpr hj)
  · cases hj

/-- An FTDE 6 for nothing outstanding is no sign. -/
theorem not_sign_yielded {transfer status : ℕ}
    (hout : ∀ r, outstanding s.log = some r → r.2 ≠ transfer) (v : Time) :
    ¬ Sign s.log v (.recv env.now (.fileTransferError transfer status)) := by
  rintro (⟨-, -, -⟩ | ⟨-⟩ | ⟨ho⟩)
  exact hout _ ho rfl

/-- A turn that was over stays over at the next event. -/
theorem turnTaken_hear {t : Lane} {store : Store} {now : Time} {e : LaneEvent}
    (h : TurnTaken store s.clock s.log) (hle : s.clock ≤ now) (hlog : t.log = .recv now e :: s.log)
    (hclock : t.clock = now) : TurnTaken store t.clock t.log := by
  have happ : TurnTaken store s.clock ([.recv now e] ++ s.log) := by
    refine h.append fun a ha => ?_
    rw [List.mem_singleton.mp ha]
    exact ⟨rfl, fun v hv => (Option.some.inj hv) ▸ hle⟩
  rw [hlog, hclock]
  exact happ.mono hle

/-- The release that began a turn is past. -/
theorem CourteousFor.release_le {p : Store → Prop} {store : Store} {r : Time} {since : List Act}
    (h : s.CourteousFor p) (hsince : sinceRelease store s.log = some (r, since)) : r ≤ s.clock :=
  h.past _ (mem_of_sinceRelease hsince).2 r rfl

/-- The turns as the log has them before an event that ends no session. -/
theorem sinceRelease_hear {t : Lane} {store : Store} {now r : Time} {e : LaneEvent}
    {since : List Act} (hlog : t.log = .recv now e :: s.log)
    (hend : (Act.recv now e).endsSession = false)
    (hsince : sinceRelease store t.log = some (r, since)) :
    ∃ since', sinceRelease store s.log = some (r, since') ∧ since = .recv now e :: since' := by
  rw [hlog, sinceRelease_cons ⟨rfl, hend⟩] at hsince
  obtain ⟨⟨r', since'⟩, hsince', heq⟩ := Option.map_eq_some_iff.mp hsince
  cases heq
  exact ⟨since', hsince', rfl⟩

/-- A store taken by another client is theirs now, and its turn begins anew. -/
theorem courteous_taken {store : Store} (h : s.Courteous) (hle : s.clock ≤ env.now)
    (hok : s.SignsHeeded (env, .lockState store true)) (hheld : s.held store = false) :
    ((s.receive env (.lockState store true)).lockTaken env.now store).Courteous := by
  have heq : (s.receive env (.lockState store true)).lockTaken env.now store =
      { s.receive env (.lockState store true) with
        foreignHeld := s.foreignHeld.insert store
        othersSeen := if s.grantedJustNow env.now store then s.othersSeen else some env.now
        yielding := if (s.yielding.get? store).isSome then s.yielding.set store ⟨env.now, none⟩
          else s.yielding
        ownRelease := if (s.yielding.get? store).isSome then s.ownRelease.erase store
          else s.ownRelease } := by
    have hheld' : (s.receive env (.lockState store true)).held store = false := hheld
    simp only [lockTaken, hheld', Bool.false_eq_true, if_false]
    rfl
  rw [heq]
  generalize ht : ({ s.receive env (.lockState store true) with
    foreignHeld := _, othersSeen := _, yielding := _, ownRelease := _ } : Lane) = t
  have hlog : t.log = .recv env.now (.lockState store true) :: s.log := by rw [← ht]; rfl
  have hclock : t.clock = env.now := by rw [← ht]; rfl
  have hrest : t.CourteousFor fun k => k ≠ macroStore ∧ k ≠ store := by
    refine (h.mono fun k hk => hk.1).hear hle hlog hclock rfl ?_ ?_ ?_ ?_ ?_
    · intro k hk
      rw [← ht]
      dsimp only
      split
      · exact Dict.get?_set_ne _ _ hk.2
      · rfl
    · intro k hk
      rw [← ht]
      dsimp only
      split
      · exact Dict.get?_erase_ne _ hk.2
      · rfl
    · intro k v hk
      rw [← ht] at hk
      exact .inl hk
    · cases hj : s.grantedJustNow env.now store with
      | true => exact .inr ⟨by rw [← ht]; simp [hj], not_sign_grantedJustNow h hj⟩
      | false => exact .inl (by rw [← ht]; simp [hj])
    · intro k hk hw v hsign
      rcases hok rfl with hm | hheld' | hj | hnone
      · cases hsign with
        | lock hm' _ _ => exact hm' hm
      · exact absurd (hheld.symm.trans hheld') (by simp)
      · exact not_sign_grantedJustNow h hj v hsign
      · rw [hnone k (mem_yielding_keys hw) hk.2 hk.1] at hw
        cases hw
  refine ⟨fun k r since hk hsince => ?_, hrest.seen, hrest.grants, hrest.past, hrest.asked⟩
  by_cases hks : k = store
  · subst hks
    obtain ⟨since', hsince', rfl⟩ := sinceRelease_hear hlog rfl hsince
    cases hy : s.yielding.get? k with
    | none =>
      cases h.turns k r since' hk hsince' with
      | taken hover => exact .taken (turnTaken_hear hover hle hlog hclock)
      | silent hy' _ _ _ => exact absurd (hy.symm.trans hy') (by simp)
      | announced _ _ hy' _ _ => exact absurd (hy.symm.trans hy') (by simp)
    | some y =>
      refine .silent ?_ ((h.release_le hsince').trans hle) ?_ ?_
      · rw [← ht]
        simp [hy]
      · exact quietSince_of_time fun a ha v hv => (hrest.past a ha v hv).trans hclock.le
      · intro hno
        exact absurd (List.mem_cons_self ..) (hno env.now)
  · exact hrest.turns k r since ⟨hk, hks⟩ hsince

/-- Another client's transfer ended: every store waiting unannounced hears of it. -/
theorem courteous_someoneAtWork {transfer : ℕ} (h : s.Courteous) (hle : s.clock ≤ env.now) :
    ((s.receive env (.fileTransferDataComplete transfer)).someoneAtWork env.now).Courteous := by
  have hrest : CourteousFor (fun _ => False)
      ((s.receive env (.fileTransferDataComplete transfer)).someoneAtWork env.now) :=
    CourteousFor.hear (h.mono fun _ hk => absurd hk id) hle rfl rfl rfl (fun _ hk => absurd hk id)
      (fun _ hk => absurd hk id) (fun _ _ hk => .inl hk) (.inl rfl) fun _ hk => absurd hk id
  refine ⟨fun k r since hk hsince => ?_, hrest.seen, hrest.grants, hrest.past, hrest.asked⟩
  obtain ⟨since', hsince', rfl⟩ := sinceRelease_hear (s := s) rfl rfl hsince
  cases h.turns k r since' hk hsince' with
  | taken hover => exact .taken (turnTaken_hear hover hle rfl rfl)
  | @silent q hy hr hq hecho =>
    refine .silent ?_ ((h.release_le hsince').trans hle) ?_ ?_
    · show (s.yielding.get? k).map _ = _
      rw [hy]
      rfl
    · exact quietSince_of_time hrest.past
    · intro hno
      exact hecho fun v hv => hno v (List.mem_cons_of_mem _ hv)
  | @announced q f later between hy heq hecho =>
    have hy' : ((s.receive env (.fileTransferDataComplete transfer)).someoneAtWork
        env.now).yielding.get? k = some ⟨q, some f⟩ := by
      show (s.yielding.get? k).map _ = _
      rw [hy]
      rfl
    exact .announced (.recv env.now (.fileTransferDataComplete transfer) :: later) between hy'
      (by rw [heq]; rfl) hecho

/-- An announcement changes the yield of no other store. -/
theorem announceFree_ne (now : Time) {store k : Store} (s : Lane) (hk : k ≠ store) :
    (s.announceFree now store).yielding.get? k = s.yielding.get? k ∧
      (s.announceFree now store).ownRelease.get? k = s.ownRelease.get? k := by
  unfold announceFree
  split
  · exact ⟨Dict.get?_set_ne _ _ hk, Dict.get?_erase_ne _ hk⟩
  · split
    · refine ⟨Dict.get?_set_ne _ _ hk, ?_⟩
      dsimp only
      split
      · exact Dict.get?_erase_ne _ hk
      · rfl
    · exact ⟨rfl, rfl⟩

/-- A store waiting unannounced is announced; it is remembered as released by us if that
was not long ago. -/
theorem announceFree_silent (now : Time) {q : Time} {store : Store} {s : Lane}
    (hy : s.yielding.get? store = some ⟨q, none⟩) :
    (s.announceFree now store).yielding.get? store = some ⟨q, some now⟩ ∧
      ∀ r, s.ownRelease.get? store = some r → now - r ≤ lockEchoWindow →
        (s.announceFree now store).ownRelease.get? store = some r := by
  constructor
  · simp [announceFree, hy]
  · intro r hr hle
    have hlong : s.releasedLongAgo now store = false := by
      simp only [releasedLongAgo, hr, decide_eq_false_iff_not, not_lt]
      exact hle
    simp [announceFree, hy, hlong, hr]

/-- A store announced free already stays as it was. -/
theorem announceFree_announced (now : Time) {q f : Time} {store : Store} {s : Lane}
    (hy : s.yielding.get? store = some ⟨q, some f⟩) : s.announceFree now store = s := by
  simp [announceFree, hy]

/-- A store announced free. -/
theorem courteous_freed {store : Store} (h : s.Courteous) (hle : s.clock ≤ env.now) :
    ((s.receive env (.lockState store false)).freed env.now store).Courteous := by
  obtain ⟨_, _, heq⟩ := freed_eq env.now store (s.receive env (.lockState store false))
  -- the lane once the announcement is noted; LKST changes nothing else of the turns
  generalize hu : ({ s.receive env (.lockState store false) with
    foreignHeld := s.foreignHeld.filter (· ≠ store) } : Lane) = u
  have huy : u.yielding = s.yielding := by rw [← hu]; rfl
  have huo : u.ownRelease = s.ownRelease := by rw [← hu]; rfl
  have hty : ((s.receive env (.lockState store false)).freed env.now store).yielding =
      (u.announceFree env.now store).yielding := by rw [← hu]; rfl
  have hto : ((s.receive env (.lockState store false)).freed env.now store).ownRelease =
      (u.announceFree env.now store).ownRelease := by rw [← hu]; rfl
  generalize (s.receive env (.lockState store false)).freed env.now store = t at *
  have hlog : t.log = .recv env.now (.lockState store false) :: s.log := by rw [heq]; rfl
  have hclock : t.clock = env.now := by rw [heq]; rfl
  have hnot : ∀ v, ¬ Sign s.log v (.recv env.now (.lockState store false)) := by rintro v ⟨⟩
  have hrest : t.CourteousFor fun k => k ≠ macroStore ∧ k ≠ store := by
    refine (h.mono fun k hk => hk.1).hear hle hlog hclock rfl (fun k hk => ?_) (fun k hk => ?_)
      (fun k v hk => .inl ?_) (.inr ⟨by rw [heq]; rfl, hnot⟩) fun _ _ _ => hnot
    · rw [hty, (announceFree_ne env.now u hk.2).1, huy]
    · rw [hto, (announceFree_ne env.now u hk.2).2, huo]
    · rw [heq] at hk
      exact hk
  refine ⟨fun k r since hk hsince => ?_, hrest.seen, hrest.grants, hrest.past, hrest.asked⟩
  by_cases hks : k = store
  · subst hks
    obtain ⟨since', hsince', rfl⟩ := sinceRelease_hear hlog rfl hsince
    cases h.turns k r since' hk hsince' with
    | taken hover => exact .taken (turnTaken_hear hover hle hlog hclock)
    | @silent q hy hr hq hecho =>
      rw [← huy] at hy
      obtain ⟨hy', ho'⟩ := announceFree_silent env.now hy
      rw [← hty] at hy'
      refine .announced [] since' hy' rfl fun hown => ?_
      rw [hto, ho' r (by rw [huo]; exact hecho hown.2) hown.1]
      rfl
    | @announced q f later between hy hsplit hecho =>
      rw [← huy] at hy
      have hsame := announceFree_announced env.now hy
      rw [hsame] at hty hto
      rw [← hty] at hy
      refine .announced (.recv env.now (.lockState k false) :: later) between hy
        (by rw [hsplit]; rfl) ?_
      rw [hto, huo]
      exact hecho
  · exact hrest.turns k r since ⟨hk, hks⟩ hsince

/-- An abort leaves every store it releases its turn. -/
theorem courteous_abort (h : s.Courteous) (hle : s.clock ≤ env.now)
    (hok : s.SignsHeeded (env, .abortTransfers)) :
    ((s.receive env .abortTransfers).abortTransfers env.now).Courteous ∧
      ((s.receive env .abortTransfers).abortTransfers env.now).clock = env.now := by
  have hplain : ∀ {u : Lane}, u.log = .recv env.now .abortTransfers :: s.log →
      u.clock = env.now → u.yielding = s.yielding → u.ownRelease = s.ownRelease →
      u.othersSeen = s.othersSeen → u.lastGrant = s.lastGrant → u.Courteous := by
    intro u hlog hclock hyield hown hseen hgrant
    have hnot : ∀ v, ¬ Sign s.log v (.recv env.now .abortTransfers) := by rintro v ⟨⟩
    exact h.hear hle hlog hclock rfl (fun k _ => by rw [hyield]) (fun k _ => by rw [hown])
      (fun k v hk => .inl (by rwa [hgrant] at hk)) (.inr ⟨hseen, hnot⟩) fun _ _ _ => hnot
  cases hl : (s.receive env .abortTransfers).leavesDraining env.now with
  | true =>
    obtain ⟨id, _, hid, -⟩ := exists_inFlight_of_leavesDraining hl
    obtain ⟨hm, -⟩ := abortTransfers_drain hl hid
    have hbegun : ((s.receive env .abortTransfers).drainBegun env.now).Courteous :=
      hplain rfl rfl rfl rfl rfl rfl
    -- only the macro store's lock may go besides
    have hother : ∀ k, s.held k = true → k ≠ (s.tasks id).store → k = macroStore := by
      intro k hk hne
      by_contra hkm
      have hstore := hok hl k (mem_locks_keys hk) hkm hk
      have hid : s.transfer = some id := hid
      simp only [inFlight, hid, Option.map_some, Option.some.injEq] at hstore
      exact hne hstore.symm
    have hkeep := hm.keep (P := fun t => t.Courteous ∧ t.clock = env.now ∧
      ∀ k, t.held k = true → s.held k = true) ?_ ⟨hbegun, rfl, fun k hk => hk⟩
    · exact ⟨hkeep.1, hkeep.2.1⟩
    · rintro t u hmove ⟨ht, hclock, hheld⟩
      have hheld' := hmove.held
      obtain ⟨hk, hne⟩ := hmove
      rename_i k
      have hkm := hother k (hheld k hk) hne
      refine ⟨?_, hclock, fun j hj => hheld j (hheld' j hj)⟩
      refine ht.extend (fun _ _ => rfl) (fun _ _ => rfl) rfl rfl rfl
        ⟨[.send env.now (.lock k false)], rfl, ⟨askedInTurn_of_none rfl, ht.asked⟩, fun a ha => ?_⟩
      rw [List.mem_singleton.mp ha]
      refine ⟨Act.own_send _ _, fun j hj => ?_, fun v hv => ?_⟩
      · simp [Act.releasedAt?, hkm, Ne.symm hj]
      · rw [hclock]
        exact (Option.some.inj hv).symm
  | false =>
    obtain ⟨hm, -⟩ := abortTransfers_all hl
    have hbegun : (s.receive env .abortTransfers).allAbandoned.Courteous :=
      hplain rfl rfl rfl rfl rfl rfl
    refine hm.keep (P := fun t => t.Courteous ∧ t.clock = env.now) ?_ ⟨hbegun, rfl⟩
    rintro t u ⟨hk, -⟩ ⟨ht, hclock⟩
    refine ⟨?_, hclock⟩
    rw [← hclock]
    exact courteous_release (ht.mono fun _ hk => hk.1) rfl rfl rfl rfl rfl rfl

/-- The teardown ends every turn. -/
theorem courteous_teardown (h : s.Courteous) (hle : s.clock ≤ env.now) :
    ((s.receive env .releaseLocksNow).releaseLocksNow env.now).Courteous ∧
      ((s.receive env .releaseLocksNow).releaseLocksNow env.now).clock = env.now := by
  have hnot : ∀ past v, ¬ Sign past v (.recv env.now .releaseLocksNow) := by rintro past v ⟨⟩
  rcases releaseLocksNow_cases env.now (s.receive env .releaseLocksNow) with
    ⟨-, heq⟩ | ⟨u, hm, -, heq⟩
  · rw [heq]
    refine ⟨courteous_sessionEnd h (fun k => rfl) ⟨[_], rfl, fun a ha => ?_⟩ hle rfl fun k v hk => hk,
      rfl⟩
    rw [List.mem_singleton.mp ha]
    exact ⟨hnot, rfl, fun v hv => (Option.some.inj hv).symm⟩
  · obtain ⟨new, hlog, hnew⟩ := hm.log_eq
    obtain ⟨_, _, _, _, hu⟩ := hm.fields
    have hclock : u.clock = env.now := by rw [hu]; rfl
    have hrel : ∀ a ∈ new, ∃ k, a = .send env.now (.lock k false) := by
      intro a ha
      obtain ⟨k, -, rfl⟩ := hnew a ha
      exact ⟨k, rfl⟩
    rw [heq]
    refine ⟨courteous_sessionEnd h (fun k => ?_) ⟨new ++ [.recv env.now .releaseLocksNow], ?_, ?_⟩
      ?_ ?_ ?_, hclock⟩
    · show sinceRelease k u.log = none
      rw [hlog]
      exact sinceRelease_teardown k hrel
    · show u.log = _
      rw [hlog, List.append_assoc]
      rfl
    · intro a ha
      rcases List.mem_append.mp ha with ha | ha
      · obtain ⟨k, rfl⟩ := hrel a ha
        refine ⟨(Act.own_send _ _).not_sign, rfl, fun v hv => ?_⟩
        exact (Option.some.inj hv).symm.trans hclock.symm
      · rw [List.mem_singleton.mp ha]
        exact ⟨hnot, rfl, fun v hv => (Option.some.inj hv).symm.trans hclock.symm⟩
    · show s.clock ≤ u.clock
      rw [hclock]
      exact hle
    · show u.othersSeen = s.othersSeen
      rw [hu]
      rfl
    · intro k v hk
      have hk : u.lastGrant.get? k = some v := hk
      rw [hu] at hk
      exact hk

/-- Every opening leaves other clients their turns, if signs are heeded. -/
theorem courteous_opening {t : Lane} {e : LaneEvent} {closing : Option Notice}
    (ho : Opening env.now (s.receive env e) e t closing) (hwf : s.Wf) (horderly : s.Orderly)
    (hbelief : s.Belief) (hdrains : s.DrainsLast) (hle : s.clock ≤ env.now)
    (hok : s.SignsHeeded (env, e)) (h : s.Courteous) : t.Courteous ∧ t.clock = env.now := by
  -- an event that is no sign, and a change of something else
  have hplain : ∀ {p : Store → Prop} {u : Lane}, (∀ k, p k → k ≠ macroStore) →
      (∀ v, ¬ Sign s.log v (.recv env.now e)) →
      (Act.recv env.now e).endsSession = false → u.log = .recv env.now e :: s.log →
      u.clock = env.now → u.yielding = s.yielding → u.ownRelease = s.ownRelease →
      u.othersSeen = s.othersSeen → u.lastGrant = s.lastGrant → u.CourteousFor p := by
    intro p u hp hsign hend hlog hclock hyield hown hseen hgrant
    exact (h.mono hp).hear hle hlog hclock hend (fun k _ => by rw [hyield]) (fun k _ => by rw [hown])
      (fun k v hk => .inl (by rwa [hgrant] at hk)) (.inr ⟨hseen, hsign⟩) fun _ _ _ => hsign
  have hlast : ∀ {d : Drain}, s.draining = some d →
      ∀ v, ¬ Sign s.log v (.recv env.now (.fileTransferDataComplete d.tid)) := by
    rintro d hd v (⟨-, -, -⟩ | ⟨hne⟩ | ⟨-⟩)
    obtain ⟨r, hr, heq⟩ := hdrains d hd
    exact hne r hr heq
  have hidle : ∀ {d : Drain}, s.draining = some d → ∀ r, outstanding s.log = some r → False := by
    intro d hd r hr
    have hnone := (hwf.draining (by simp [hd])).1
    rw [(horderly.outstanding_spec hr).2.1] at hnone
    cases hnone
  cases ho with
  | quiet hquiet hq =>
    have hr : CourteousFor (· ≠ macroStore) (s.receive env e) := by
      cases e with
      | lockState store state =>
        cases state with
        | true => exact hplain (fun _ hk => hk) (not_sign_held hbelief hquiet) rfl rfl rfl rfl rfl rfl rfl
        | false => exact hplain (fun _ hk => hk) (by rintro v ⟨⟩) rfl rfl rfl rfl rfl rfl rfl
      | fileTransferError transfer status =>
        refine hplain (fun _ hk => hk) (not_sign_yielded fun r hr heq => ?_) rfl rfl rfl rfl rfl rfl rfl
        obtain ⟨-, hid, hx⟩ := horderly.outstanding_spec hr
        refine hquiet.notInFlight r.1 hid ?_
        show (s.tasks r.1).tid = some transfer
        rw [(hwf.inFlight r.1 hid).2.2, ← hx, heq]
      | fileTransferDataComplete transfer => exact absurd hquiet id
      | abortTransfers => exact absurd hquiet id
      | resetTransferLane => exact absurd hquiet id
      | releaseLocksNow => exact absurd hquiet id
      | _ => exact hplain (fun _ hk => hk) (by rintro v ⟨⟩) rfl rfl rfl rfl rfl rfl rfl
    obtain ⟨new, hlog, hbulk⟩ := hq.log
    refine ⟨hr.extend (fun _ _ => by rw [hq.yielding]) (fun _ _ => by rw [hq.ownRelease])
      hq.othersSeen hq.lastGrant hq.clock ⟨new, hlog, ?_, fun a ha => ?_⟩, hq.clock⟩
    · rw [hlog]
      exact every_askedInTurn_append (fun a ha => Act.asksLock?_of_bulk (hbulk a ha)) hr.asked
    · refine ⟨Act.own_of_bulk (hbulk a ha), fun k _ => ?_, by simp [Act.time?_of_bulk (hbulk a ha)]⟩
      exact Act.releasedAt?_of_releases (Act.bulk_spec (hbulk a ha) k).2.1
  | granted store =>
    refine ⟨h.hear hle rfl rfl rfl (fun _ _ => rfl) (fun _ _ => rfl) ?_
      (.inr ⟨rfl, by rintro v ⟨⟩⟩) fun _ _ _ => by rintro v ⟨⟩, rfl⟩
    intro k v hk
    have hk : (s.lastGrant.set store env.now).get? k = some v := hk
    rw [Dict.get?_set] at hk
    split at hk
    · rename_i hks
      exact .inr ⟨by rw [hks], (Option.some.inj hk).symm⟩
    · exact .inl hk
  | @taken store hheld =>
    refine ⟨courteous_taken h hle hok hheld, ?_⟩
    obtain ⟨_, _, _, _, heq⟩ := lockTaken_eq env.now store (s.receive env (.lockState store true))
    rw [heq]
    rfl
  | @freed store _ =>
    refine ⟨courteous_freed h hle, ?_⟩
    obtain ⟨_, _, heq⟩ := freed_eq env.now store (s.receive env (.lockState store false))
    rw [heq]
    rfl
  | @drained d data hd =>
    have hr : CourteousFor (· ≠ macroStore) (s.receive env (.fileTransferData d.tid data)) :=
      hplain (fun _ hk => hk) (by rintro v ⟨⟩) rfl rfl rfl rfl rfl rfl rfl
    exact ⟨hr.cons rfl (askedInTurn_of_none rfl) (Act.own_send _ _) (fun _ => rfl) (by rintro v ⟨⟩)
      rfl rfl rfl rfl rfl, rfl⟩
  | @drainFailed d status hd =>
    have hu : CourteousFor (fun k => k ≠ macroStore ∧ (k = d.store → s.held d.store = false))
        { s.receive env (.fileTransferError d.tid status) with draining := none } :=
      hplain (fun _ hk => hk.1) (not_sign_yielded fun r hr => (hidle hd r hr).elim) rfl rfl rfl rfl
        rfl rfl rfl
    exact ⟨courteous_letGo hu, letGo_clock ..⟩
  | @drainCompleted d hd =>
    have hu : CourteousFor (fun k => k ≠ macroStore ∧ (k = d.store → s.held d.store = false))
        { s.receive env (.fileTransferDataComplete d.tid) with draining := none } :=
      hplain (fun _ hk => hk.1) (hlast hd) rfl rfl rfl rfl rfl rfl rfl
    exact ⟨courteous_letGo hu, letGo_clock ..⟩
  | @tryAgain id transfer ha hn =>
    exact ⟨hplain (fun _ hk => hk) (by rintro v ⟨⟩) rfl rfl rfl rfl rfl rfl rfl, rfl⟩
  | @triedOut id transfer ha hn =>
    refine ⟨courteous_letGo (hplain (fun _ hk => hk.1) (by rintro v ⟨⟩) rfl ?_ ?_ ?_ ?_ ?_ ?_),
      letGo_clock ..⟩ <;> rfl
  | @lockLost id transfer ha =>
    exact ⟨hplain (fun _ hk => hk) (by rintro v ⟨⟩) rfl rfl rfl rfl rfl rfl rfl, rfl⟩
  | @yielded id transfer ha =>
    have hid : s.transfer = some id := ha.inFlight
    have htid : (s.tasks id).tid = some transfer := ha.tid
    have hu : CourteousFor
        (fun k => k ≠ macroStore ∧ (k = (s.tasks id).store → s.held (s.tasks id).store = false))
        { s.receive env (.fileTransferError transfer 6) with
          transferRequested := false
          lockRequested := s.lockRequested.erase (s.tasks id).store
          othersSeen := some env.now } := by
      refine (h.mono fun _ hk => hk.1).hear hle rfl rfl rfl (fun _ _ => rfl) (fun _ _ => rfl)
        (fun _ _ hk => .inl hk) (.inl rfl) fun k hk hw v _ => ?_
      have hown := hok rfl (by simp [inFlight, hid, htid]) k (mem_yielding_keys hw) hk.1 hw
      have hstore : k = (s.tasks id).store := by
        have hmap := hown.1
        simp only [inFlight, hid, Option.map_some, Option.some.injEq] at hmap
        exact hmap.symm
      have hfree := hk.2 hstore
      rw [← hstore, hown.2] at hfree
      cases hfree
    exact ⟨courteous_letGo hu, letGo_clock ..⟩
  | @failed id transfer status ha h1 h5 h6 =>
    have hnot : ∀ v, ¬ Sign s.log v (.recv env.now (.fileTransferError transfer status)) := by
      rintro v (⟨-, -, -⟩ | ⟨-⟩ | ⟨-⟩)
      exact h6 rfl
    refine ⟨courteous_letGo (hplain (fun _ hk => hk.1) hnot rfl ?_ ?_ ?_ ?_ ?_ ?_),
      letGo_clock ..⟩ <;> rfl
  | @completed id transfer ha =>
    have hid : s.transfer = some id := ha.inFlight
    have htid : (s.tasks id).tid = some transfer := ha.tid
    have hnot : ∀ v, ¬ Sign s.log v (.recv env.now (.fileTransferDataComplete transfer)) := by
      rintro v (⟨-, -, -⟩ | ⟨hne⟩ | ⟨-⟩)
      refine hne _ (horderly.lastTask id hid) (Option.some.inj ?_)
      rw [← htid, (hwf.inFlight id hid).2.2]
    refine ⟨courteous_letGo (hplain (fun _ hk => hk.1) hnot rfl ?_ ?_ ?_ ?_ ?_ ?_),
      letGo_clock ..⟩ <;> rfl
  | @strangeCompletion transfer hs => exact ⟨courteous_someoneAtWork h hle, rfl⟩
  | @enqueue _ task he =>
    have hnot : ∀ v, ¬ Sign s.log v (.recv env.now e) := by
      rintro v (⟨-, -, -⟩ | ⟨-⟩ | ⟨-⟩) <;> cases he
    have hend : (Act.recv env.now e).endsSession = false := by
      cases e with
      | resetTransferLane => cases he
      | releaseLocksNow => cases he
      | _ => rfl
    exact ⟨hplain (fun _ hk => hk) hnot hend rfl rfl rfl rfl rfl rfl, rfl⟩
  | dequeue id =>
    obtain ⟨q, heq⟩ := dequeueClear_eq id (s.receive env (.dequeueClear id))
    rw [heq]
    exact ⟨hplain (fun _ hk => hk) (by rintro v ⟨⟩) rfl rfl rfl rfl rfl rfl rfl, rfl⟩
  | abort => exact courteous_abort h hle hok
  | fire _ _ => exact ⟨hplain (fun _ hk => hk) (by rintro v ⟨⟩) rfl rfl rfl rfl rfl rfl rfl, rfl⟩
  | poke => exact ⟨hplain (fun _ hk => hk) (by rintro v ⟨⟩) rfl rfl rfl rfl rfl rfl rfl, rfl⟩
  | woken _ _ => exact ⟨hplain (fun _ hk => hk) (by rintro v ⟨⟩) rfl rfl rfl rfl rfl rfl rfl, rfl⟩
  | @drainOverdue d hw hd _ =>
    have hu : CourteousFor (fun k => k ≠ macroStore ∧ (k = d.store → s.held d.store = false))
        { s.receive env .wakeup with wakeups := s.wakeups - 1, draining := none } :=
      hplain (fun _ hk => hk.1) (by rintro v ⟨⟩) rfl rfl rfl rfl rfl rfl rfl
    exact ⟨courteous_letGo hu, letGo_clock ..⟩
  | reset =>
    refine ⟨courteous_sessionEnd h (fun k => rfl) ⟨[.recv env.now .resetTransferLane], rfl, ?_⟩ hle rfl
      ?_, rfl⟩
    · intro a ha
      rw [List.mem_singleton.mp ha]
      exact ⟨by rintro past v ⟨⟩, rfl, fun v hv => (Option.some.inj hv).symm⟩
    · intro k v hk
      cases hk
  | teardown => exact courteous_teardown h hle

end Opening

/-! ## The drain is of the last request -/

/-- A change that keeps the drain's id, and asks for nothing. -/
theorem DrainsLast.frame {s t : Lane} (h : s.DrainsLast)
    (hdrain : ∀ d, t.draining = some d → ∃ d', s.draining = some d' ∧ d'.tid = d.tid)
    (hlog : SameRequests s.log t.log) : t.DrainsLast := by
  intro d hd
  obtain ⟨d', hd', htid⟩ := hdrain d hd
  obtain ⟨r, hr, heq⟩ := h d' hd'
  exact ⟨r, hlog.lastRequest.trans hr, heq.trans htid⟩

/-- The trigger leaves a drain alone, and asks for nothing while it is on. -/
theorem drainsLast_triggerMove {now : Time} {stale : Prop} {s t : Lane}
    (hm : TriggerMove now stale s t) (h : s.DrainsLast) : t.DrainsLast := by
  have hnone : t.draining = none → t.DrainsLast := by
    intro hd d hd'
    rw [hd] at hd'
    cases hd'
  cases hm with
  | wake due => exact h
  | fail => exact h.frame (fun d hd => ⟨d, hd, rfl⟩) (sameRequests_cons ⟨rfl, fun _ => rfl⟩)
  | pauseOver hd _ _ => exact hnone hd
  | endYield _ _ => exact h
  | clean hready _ =>
    obtain ⟨new, heq, -⟩ := cleanLocks_eq now s
    exact hnone (by rw [heq]; exact hready.1)
  | askForLock hready _ _ _ _ _ => exact hnone hready.1
  | clear hready _ _ _ _ => exact hnone ((letGo_draining ..).trans hready.1)
  | request retry hready _ _ _ _ _ =>
    exact hnone ((requested_requestTransfer now retry _ s).draining.trans hready.1)

/-- A drain begins with the request in flight, and keeps its id. -/
theorem drainsLast_opening {env : Env} {s t : Lane} {e : LaneEvent} {closing : Option Notice}
    (ho : Opening env.now (s.receive env e) e t closing) (hwf : s.Wf) (horderly : s.Orderly)
    (h : s.DrainsLast) : t.DrainsLast := by
  have hlog : (s.receive env e).DrainsLast := by
    intro d hd
    obtain ⟨r, hr, heq⟩ := h d hd
    exact ⟨r, (lastRequest_cons rfl).trans hr, heq⟩
  have hsame : t.draining = s.draining → t.DrainsLast := fun hd =>
    hlog.frame (fun d hd' => ⟨d, hd.symm.trans hd', rfl⟩) (opening_log ho)
  have hnone : t.draining = none → t.DrainsLast := by
    intro hd d hd'
    rw [hd] at hd'
    cases hd'
  cases ho with
  | quiet _ hq => exact hsame hq.draining
  | granted store => exact hsame rfl
  | @taken store _ => exact hsame (sameTransfers_lockTaken ..).draining
  | @freed store _ => exact hsame (sameTransfers_freed ..).draining
  | @drained d data hd =>
    refine hlog.frame (fun d' hd' => ⟨d, hd, ?_⟩) (sameRequests_cons ⟨rfl, fun _ => rfl⟩)
    have hd' : some { d with last := env.now } = some d' := hd'
    rw [← Option.some.inj hd']
  | drainFailed status _ => exact hnone (letGo_draining ..)
  | drainCompleted _ => exact hnone (letGo_draining ..)
  | tryAgain _ _ => exact hsame rfl
  | triedOut _ _ => exact hsame (letGo_draining ..)
  | lockLost _ => exact hsame rfl
  | yielded _ => exact hsame (letGo_draining ..)
  | failed _ _ _ _ => exact hsame (letGo_draining ..)
  | completed _ => exact hsame (letGo_draining ..)
  | strangeCompletion _ => exact hsame rfl
  | enqueue _ => exact hsame rfl
  | dequeue id =>
    obtain ⟨q, heq⟩ := dequeueClear_eq id (s.receive env (.dequeueClear id))
    exact hsame (by rw [heq]; rfl)
  | abort =>
    rcases sameTransfers_abortTransfers env.now (s.receive env .abortTransfers) with
      ⟨hl, hst⟩ | ⟨-, hst⟩
    · obtain ⟨id, _, hid, -⟩ := exists_inFlight_of_leavesDraining hl
      have hid : s.transfer = some id := hid
      intro d hd
      rw [hst.draining] at hd
      have hbegin : (s.receive env .abortTransfers).beginDrain env.now = some d := hd
      refine ⟨(id, s.transferId), ?_, ?_⟩
      · have hopen : Opening env.now (s.receive env .abortTransfers) .abortTransfers _ none := .abort _
        rw [(opening_log hopen).lastRequest]
        exact (lastRequest_cons rfl).trans (horderly.lastTask id hid)
      · have htid := (hwf.inFlight id hid).2.2
        have hd' : d = ⟨(s.tasks id).tid.getD 0, (s.tasks id).store, env.now, env.now⟩ := by
          have hb : (s.receive env .abortTransfers).beginDrain env.now =
              some ⟨(s.tasks id).tid.getD 0, (s.tasks id).store, env.now, env.now⟩ := by
            show (s.transfer.map s.tasks).map _ = _
            rw [hid]
            rfl
          exact (Option.some.inj (hb.symm.trans hbegin)).symm
        rw [hd', htid]
        rfl
    · exact hsame hst.draining
  | fire _ _ => exact hsame rfl
  | poke => exact hsame rfl
  | woken _ _ => exact hsame rfl
  | drainOverdue _ _ _ => exact hnone (letGo_draining ..)
  | reset => exact hnone rfl
  | teardown => exact hsame (sameTransfers_releaseLocksNow ..).draining

theorem drainsLast_reachable {s : Lane} (h : Reachable s) : s.DrainsLast := by
  refine Library.Reach.invariant (P := fun s => s.DrainsLast) ?_ ?_ h
  · rintro s ⟨tid, -, -, rfl⟩ d hd
    cases hd
  · rintro s ⟨env, e⟩ hreach hs -
    have hwf := wf_reachableWhen hreach
    obtain ⟨m, m', closing, hopen, hmoves, heq⟩ := step_splits hwf (env, e)
    have hm := drainsLast_opening hopen hwf (orderly_reachable hreach) hs
    have hm' : m'.DrainsLast := hmoves.keep (fun _ _ => drainsLast_triggerMove) hm
    rw [heq]
    cases closing with
    | none => exact hm'
    | some n =>
      exact hm'.frame (fun d hd => ⟨d, hd, rfl⟩) (sameRequests_cons (Act.silent_notice n))

/-! ## Every run -/

/-- Other clients have their turns in every state of a run that keeps courtesy. -/
theorem courteous_reachable {s : Lane} (h : ReachableWhen CourtesyKept s) : s.Courteous := by
  refine Library.Reach.invariant (P := fun s => s.Courteous) ?_ ?_ h
  · rintro s ⟨tid, -, -, rfl⟩
    constructor
    case turns => exact fun store r since _ hsince => by cases hsince
    case seen =>
      rintro v ⟨post, a, past, heq, -⟩
      cases post <;> cases heq
    case grants => exact fun k v hk => by cases hk
    case past => exact fun a ha => absurd ha (List.not_mem_nil)
    case asked => trivial
  · rintro s ⟨env, e⟩ hreach hs ⟨hposs, hgrants, hok⟩
    have hwf := wf_reachableWhen hreach
    have hall := reachable_of_reachableWhen hreach
    have hbelief : s.Belief := belief_reachable (Library.Reach.mono (fun _ _ h => ⟨h.1, h.2.1⟩) hreach)
    obtain ⟨m, m', closing, hopen, hmoves, heq⟩ := step_splits hwf (env, e)
    have hm : m.Belief ∧ m.Courteous ∧ m.clock = env.now :=
      ⟨belief_opening hopen hwf (belief_receive hbelief env e) hgrants,
        courteous_opening hopen hwf (orderly_reachable hall) hbelief (drainsLast_reachable hall)
          hposs.1 hok hs⟩
    have hm' : m'.Belief ∧ m'.Courteous ∧ m'.clock = env.now :=
      hmoves.keep (P := fun t => t.Belief ∧ t.Courteous ∧ t.clock = env.now)
        (fun _ _ hmove h => ⟨belief_triggerMove _ _ hmove h.1,
          courteous_triggerMove hmove h.1 h.2.2 h.2.1⟩) hm
    rw [heq]
    cases closing with
    | none => exact hm'.2.1
    | some n =>
      exact hm'.2.1.cons rfl (askedInTurn_of_none rfl) (Act.own_notice n) (fun _ => rfl)
        (by rintro v ⟨⟩) rfl rfl rfl rfl rfl

/-- What a step logs asks for the lock of no store recorded as held by somebody else; the
record is settled before anything is sent. -/
theorem asks_unrecorded {s : Lane} (hwf : s.Wf) (a : Env × LaneEvent) :
    ∃ new, (s.step a).log = new ++ s.log ∧
      ∀ b ∈ new, ∀ store, b.asksLock? = some store → store ∉ (s.step a).foreignHeld := by
  obtain ⟨m, m', closing, hopen, hmoves, heq⟩ := step_splits hwf a
  obtain ⟨new, hlog, hnew⟩ := opening_log_eq hopen
  have hm : m.foreignHeld = m.foreignHeld ∧ ∃ new, m.log = new ++ s.log ∧
      ∀ b ∈ new, ∀ store, b.asksLock? = some store → store ∉ m.foreignHeld := by
    refine ⟨rfl, new ++ [.recv a.1.now a.2], by rw [hlog, List.append_assoc]; rfl, ?_⟩
    intro b hb store hask
    rcases List.mem_append.mp hb with hb | hb
    · rcases hnew b hb with hbulk | ⟨k, rfl⟩
      · rw [Act.asksLock?_of_bulk hbulk] at hask
        cases hask
      · cases hask
    · rw [List.mem_singleton.mp hb] at hask
      cases hask
  have hm' := hmoves.keep (P := fun t => t.foreignHeld = m.foreignHeld ∧ ∃ new, t.log = new ++ s.log ∧
    ∀ b ∈ new, ∀ store, b.asksLock? = some store → store ∉ m.foreignHeld) ?_ hm
  · obtain ⟨hheld, new, hlog, hnew⟩ := hm'
    rw [heq]
    cases closing with
    | none => exact ⟨new, hlog, by rw [← hheld] at hnew; exact hnew⟩
    | some n =>
      refine ⟨.notice n :: new, congrArg _ hlog, fun b hb store hask => ?_⟩
      rcases List.mem_cons.mp hb with rfl | hb
      · cases hask
      · rw [← hheld] at hnew
        exact hnew b hb store hask
  · rintro t u hmove ⟨hheld, new, hlog, hnew⟩
    -- entries of a move that asks for no lock
    have hsilent : ∀ {v : Lane}, v.foreignHeld = t.foreignHeld →
        (∃ new, v.log = new ++ t.log ∧ ∀ b ∈ new, b.asksLock? = none) →
        v.foreignHeld = m.foreignHeld ∧ ∃ new, v.log = new ++ s.log ∧
          ∀ b ∈ new, ∀ store, b.asksLock? = some store → store ∉ m.foreignHeld := by
      rintro v hv ⟨new', hlog', hnone⟩
      refine ⟨hv.trans hheld, new' ++ new, by rw [hlog', hlog, List.append_assoc], ?_⟩
      intro b hb store hask
      rcases List.mem_append.mp hb with hb | hb
      · rw [hnone b hb] at hask
        cases hask
      · exact hnew b hb store hask
    cases hmove with
    | wake due => exact hsilent rfl ⟨[], rfl, by simp⟩
    | fail => exact hsilent rfl ⟨[_], rfl, fun b hb => by rw [List.mem_singleton.mp hb]; rfl⟩
    | pauseOver _ _ _ => exact hsilent rfl ⟨[], rfl, by simp⟩
    | endYield _ _ => exact hsilent rfl ⟨[], rfl, by simp⟩
    | clean _ _ =>
      obtain ⟨new', heq', hnew'⟩ := cleanLocks_eq a.1.now t
      rw [heq']
      refine hsilent rfl ⟨new', rfl, fun b hb => ?_⟩
      obtain ⟨k, -, rfl⟩ := hnew' b hb
      rfl
    | @askForLock id _ _ _ _ hforeign _ =>
      refine ⟨hheld, .send a.1.now (lockRequestFor (t.tasks id)) :: new, congrArg _ hlog, ?_⟩
      intro b hb store hask
      rcases List.mem_cons.mp hb with rfl | hb
      · rw [lockRequestFor_asks] at hask
        rw [← Option.some.inj hask, ← hheld]
        exact hforeign
      · exact hnew b hb store hask
    | @clear id _ _ _ _ _ =>
      obtain ⟨new', hlog', hnew'⟩ := letGo_log a.1.now (t.tasks id).store (t.dispatchClear a.1.now id)
      refine hsilent (letGo_foreignHeld ..) ⟨new' ++ [_, _], by
        rw [hlog', List.append_assoc]; rfl, fun b hb => ?_⟩
      rcases List.mem_append.mp hb with hb | hb
      · rw [hnew' b hb]
        rfl
      · rcases List.mem_cons.mp hb with rfl | hb
        · rfl
        · rw [List.mem_singleton.mp hb]
          rfl
    | @request id retry _ _ _ _ _ _ =>
      have hr := requested_requestTransfer a.1.now retry id t
      obtain ⟨new', c, hlog', hbulk, hc⟩ := hr.log
      refine hsilent hr.foreignHeld ⟨new' ++ [.send a.1.now c], by rw [hlog']; simp, fun b hb => ?_⟩
      rcases List.mem_append.mp hb with hb | hb
      · exact Act.asksLock?_of_bulk (hbulk b hb)
      · rw [List.mem_singleton.mp hb]
        exact (Command.asksLock?_of_request _ (by rw [hc]; rfl)).1

/-- In every run that keeps courtesy each lock request for a store released before goes out
with the turn of other clients over. In every run no step asks for the lock of a store
recorded as held by somebody else. -/
theorem lock_requests_in_turn {s : Lane} (h : Reachable s) :
    (ReachableWhen CourtesyKept s → Every AskedInTurn s.log) ∧
      ∀ a, s.Possible a → ∃ new, (s.step a).log = new ++ s.log ∧
        ∀ b ∈ new, ∀ store, b.asksLock? = some store → store ∉ (s.step a).foreignHeld :=
  ⟨fun hkept => (courteous_reachable hkept).asked, fun a _ =>
    asks_unrecorded (wf_reachableWhen h) a⟩

/-- Two downloads from a store: the second is asked for `LOCK_COURTESY` after the release of
the first is announced. -/
def twoDownloads : List (Env × LaneEvent) :=
  [(⟨0, none⟩, .download 0 1), (⟨milliseconds 1, none⟩, .lockObtained 0),
   (⟨milliseconds 10, none⟩, .fileTransferDataComplete 43), (⟨milliseconds 20, none⟩, .download 0 2),
   (⟨milliseconds 50, none⟩, .lockState 0 false), (⟨milliseconds 110, none⟩, .fireWake),
   (⟨milliseconds 110, none⟩, .wakeup)]

theorem lock_requests_in_turn_two_downloads :
    ∃ past, (Library.run step (fresh 42) twoDownloads).log =
        .send (milliseconds 110) (.partialLock 0 2) :: past ∧
      (sinceRelease 0 past).map Prod.fst = some (milliseconds 10) ∧
      TurnTaken 0 (milliseconds 110) past := by
  have hkept : ReachableWhen CourtesyKept (Library.run step (fresh 42) twoDownloads) :=
    Library.Reach.run (.start ⟨42, by decide, by decide, rfl⟩) _ (by decide)
  have hevery := (lock_requests_in_turn (reachable_of_reachableWhen hkept)).1 hkept
  have hlog : (Library.run step (fresh 42) twoDownloads).log =
      .send (milliseconds 110) (.partialLock 0 2) ::
        (Library.run step (fresh 42) twoDownloads).log.tail := by
    decide
  rw [hlog] at hevery
  exact ⟨_, hlog, by decide, hevery.1 0 (milliseconds 110) rfl rfl (by decide)⟩

/-- The download that starts under the lock released before, and is told so (FTDE 5). -/
def grantAfterAbortLost : List (Env × LaneEvent) :=
  [(⟨0, none⟩, .download 0 1), (⟨milliseconds 1, none⟩, .abortTransfers),
   (⟨milliseconds 2, none⟩, .lockObtained 0), (⟨milliseconds 3, none⟩, .download 0 2),
   (⟨milliseconds 4, none⟩, .fileTransferError 43 5)]

theorem grant_after_abort_asks_at_once :
    ¬ ∀ s, Reachable s → Every AskedInTurn s.log ∧
      ∀ a, s.Possible a → ∃ new, (s.step a).log = new ++ s.log ∧
        ∀ b ∈ new, ∀ store, b.asksLock? = some store → store ∉ (s.step a).foreignHeld := by
  intro h
  have hreach : Reachable (Library.run step (fresh 42) grantAfterAbortLost) :=
    Library.Reach.run (.start ⟨42, by decide, by decide, rfl⟩) _ (by decide)
  have hlog : (Library.run step (fresh 42) grantAfterAbortLost).log =
      .send (milliseconds 4) (.partialLock 0 2) ::
        (Library.run step (fresh 42) grantAfterAbortLost).log.tail := by
    decide
  have hevery := (h _ hreach).1
  rw [hlog] at hevery
  obtain ⟨u, later, past, hpast, hu, ⟨r, since, hsince, hturn⟩, -⟩ :=
    hevery.1 0 (milliseconds 4) rfl rfl (by decide)
  rcases hturn with ⟨f, post, between, heq, -⟩ | ⟨q, -, hq, -⟩
  · -- the store was never announced free
    have hmem : Act.recv f (.lockState 0 false) ∈
        (Library.run step (fresh 42) grantAfterAbortLost).log.tail := by
      rw [hpast]
      exact List.mem_append_right _ ((mem_of_sinceRelease hsince).1 _ (by rw [heq]; simp))
    have hnone : ∀ a ∈ (Library.run step (fresh 42) grantAfterAbortLost).log.tail,
        a ≠ .recv (a.time?.getD 0) (.lockState 0 false) := by
      decide
    exact hnone _ hmem rfl
  · have hlong : lockQuiet ≤ milliseconds 4 := (Nat.le_add_left _ _).trans (hq.trans hu)
    exact absurd hlong (by decide)

end Lane

end Bmdwire
