import Bmdwire.Interface.DeckReads
import Bmdwire.Library.Runs

/-!
# The byte stream of a HyperDeck

In every run of a `Hyperdeck` the responses parsed are the first of those of the byte stream,
however it came in pieces; `request` returns the first that is no notification after those that
were waiting; and `read_notifications` hands out every notification, once and in order, as long
as the backlog holds (`stream_handled`). A notification is parsed in one of three places: while an
answer is awaited, before a command is sent, and by `read_notifications`. Each keeps it.
-/

set_option autoImplicit false

namespace Bmdwire

open Library (Framing Every Reach)

/-! ## Dropping what nobody asked for -/

/-- The bytes that are there before a wait would be needed. -/
def ready : List Turn → List UInt8
  | .chunk first others :: turns => first :: others ++ ready turns
  | _ => []

namespace Link

/-- The state of the buffer and the record after more bytes. -/
theorem Whole.extended {link : Link} (h : link.Whole) (bytes : List UInt8) :
    (link.extended bytes).Whole :=
  h.receive bytes

/-- What the socket has ready comes into the buffer. -/
theorem readReady_spec {turns : List Turn} {link link' : Link} {result : Except DeckError Unit}
    (hturns : link.turns = turns) (h : readReady turns link = (result, link')) :
    Parses true link [] link' ∧ link'.received = link.received ++ ready turns ∧
      (link.Whole → link'.Whole) ∧ link'.turns.length ≤ turns.length ∧
      (result = .ok () ∨ result = .error .peerClosed) := by
  induction turns generalizing link with
  | nil =>
    obtain ⟨rfl, rfl⟩ := Prod.mk.inj h
    exact ⟨(Reads.refl ..).parses, by simp [ready], id, by simp [hturns], .inr rfl⟩
  | cons turn turns ih =>
    have hturn := (reads_turn hturns).parses
    cases turn with
    | chunk first others =>
      obtain ⟨hparses, hreceived, hwhole, hlen, hresult⟩ := ih rfl h
      refine ⟨hturn.trans hparses, ?_, fun hw => hwhole (hw.extended _), by simp; omega, hresult⟩
      rw [hreceived]
      exact List.append_assoc ..
    | quiet =>
      obtain ⟨rfl, rfl⟩ := Prod.mk.inj h
      have hparses : Parses true link [] (link.turned turns) := by
        simpa [Link.extended, turned, Turn.bytes] using hturn
      exact ⟨hparses, by simp [ready, turned], id, by simp [turned], .inl rfl⟩
    | late =>
      obtain ⟨rfl, rfl⟩ := Prod.mk.inj h
      have hparses : Parses true link [] (link.turned turns) := by
        simpa [Link.extended, turned, Turn.bytes] using hturn
      exact ⟨hparses, by simp [ready, turned], id, by simp [turned], .inl rfl⟩

/-- All that is complete in the bytes received is parsed. -/
def Caught (link : Link) : Prop := parsedOf link.log = (frames.frames link.received).1

/-- Without a line feed there is no line. -/
theorem next_of_no_lineFeed {buf : List UInt8} (h : 0x0a ∉ buf) : wireLines.next buf = none := by
  have hcut : Library.cutAt [0x0a] buf = none := by
    cases hcut : Library.cutAt [0x0a] buf with
    | none => rfl
    | some p =>
      have hfound : Library.cutAt [0x0a] buf = some (p.1, p.2) := hcut
      obtain ⟨hbuf, -⟩ := Library.cutAt_spec hfound
      exact absurd (by rw [hbuf]; simp) h
  show (Library.cutAt [0x0a] buf).map _ = none
  rw [hcut]
  rfl

theorem caught_of_no_lineFeed {link : Link} (hwhole : link.Whole) (h : 0x0a ∉ link.buf) :
    link.Caught :=
  hwhole.taken_eq (Framing.resume_of_none (next_of_no_lineFeed h))

end Link

/-- The complete responses of the buffer are taken, and their notifications kept. -/
theorem dropBuffered_spec {fuel : ℕ} {link link' : Link} {kept kept' : List Response}
    {result : Except DeckError Unit} (hfuel : link.buf.length < fuel) (hwhole : link.Whole)
    (h : dropBuffered fuel link kept = (result, link', kept')) :
    ∃ fs, Link.Parses false link fs link' ∧ link'.Whole ∧ kept' = keepAll kept (notesOf fs) ∧
      (result = .ok () ∧ link'.Caught ∨ ∃ head, result = .error (.malformedHead head)) := by
  induction fuel generalizing link kept with
  | zero => omega
  | succ fuel ih =>
    unfold dropBuffered at h
    by_cases hfeed : 0x0a ∈ link.buf
    · rw [if_pos hfeed] at h
      obtain ⟨⟨read, link₁, kept₁⟩, hread⟩ : ∃ r, readResponse false false 1 link kept = r :=
        ⟨_, rfl⟩
      obtain ⟨notes, hnotes, hkept, hcase⟩ :=
        readResponse_spec (by simp) Nat.one_pos hwhole hread
      have hnil : notes = [] := List.eq_nil_iff_forall_not_mem.mpr fun n hn => by
        simpa using (hnotes n hn).1
      subst hnil
      subst hkept
      rcases hcase with ⟨resp, rfl, -, hparses, hless, hwhole'⟩ |
        ⟨head, rfl, hparses, hless, hwhole'⟩ | ⟨e, rfl, hparses, hbroken⟩
      · simp only [hread] at h
        have hturns := (hparses.unread rfl).1
        have hshort : link₁.buf.length < fuel := by
          simp only [Link.pending, hturns] at hless
          omega
        obtain ⟨fs, hparses', hwhole'', hkept', hresult⟩ := ih hshort hwhole' h
        refine ⟨.response resp :: fs, hparses.trans hparses', hwhole'', ?_, hresult⟩
        rw [hkept', keepAll_response]
      · simp only [hread] at h
        obtain ⟨rfl, hpair⟩ := Prod.mk.inj h
        obtain ⟨rfl, rfl⟩ := Prod.mk.inj hpair
        exact ⟨[.malformed head], hparses, hwhole', rfl, .inr ⟨head, rfl⟩⟩
      · -- a partial response: the buffer is put back, and nothing else has changed
        have he : e = .timedOut := by
          rcases hbroken.error with he | ⟨hw, -⟩
          · exact he
          · exact absurd hw (by simp)
        subst he
        simp only [hread, if_true] at h
        obtain ⟨rfl, hpair⟩ := Prod.mk.inj h
        obtain ⟨rfl, rfl⟩ := Prod.mk.inj hpair
        obtain ⟨hturns, hreceived⟩ := hparses.unread rfl
        have hlog : link₁.log = link.log := hparses.log
        have hsame : { link₁ with buf := link.buf } = link := by
          cases link
          cases link₁
          simp_all
        rw [hsame]
        refine ⟨[], (Link.Reads.refl ..).parses, hwhole, rfl, .inl ⟨rfl, ?_⟩⟩
        unfold Link.Caught
        rw [← hlog, hbroken.parsed, hreceived]
    · rw [if_neg hfeed] at h
      obtain ⟨rfl, hpair⟩ := Prod.mk.inj h
      obtain ⟨rfl, rfl⟩ := Prod.mk.inj hpair
      exact ⟨[], (Link.Reads.refl ..).parses, hwhole, rfl,
        .inl ⟨rfl, Link.caught_of_no_lineFeed hwhole hfeed⟩⟩

/-- Reading without waiting is reading. -/
theorem Link.Parses.waits {link link' : Link} {fs : List Frame}
    (h : Link.Parses false link fs link') : Link.Parses true link fs link' :=
  ⟨h.log, h.stream, h.pending, h.received, fun hw => absurd hw (by simp)⟩

theorem dropUnrequested_spec {link link' : Link} {kept kept' : List Response}
    {result : Except DeckError Unit} (hwhole : link.Whole)
    (h : dropUnrequested link kept = (result, link', kept')) :
    ∃ fs, Link.Parses true link fs link' ∧ link'.Whole ∧ kept' = keepAll kept (notesOf fs) ∧
      link'.received = link.received ++ ready link.turns ∧
      link'.turns.length ≤ link.turns.length ∧
      (result = .ok () ∧ link'.Caught ∨ ∃ e, result = .error e) := by
  unfold dropUnrequested at h
  obtain ⟨⟨read, link₁⟩, hread⟩ : ∃ r, readReady link.turns link = r := ⟨_, rfl⟩
  obtain ⟨hparses, hreceived, hwhole', hlen, hresult⟩ := Link.readReady_spec rfl hread
  rcases hresult with rfl | rfl
  · simp only [hread] at h
    obtain ⟨fs, hparses', hwhole'', hkept, hcase⟩ :=
      dropBuffered_spec (Nat.lt_succ_self _) (hwhole' hwhole) h
    refine ⟨fs, hparses.trans hparses'.waits, hwhole'', hkept, ?_, ?_, ?_⟩
    · rw [(hparses'.unread rfl).2, hreceived]
    · rw [(hparses'.unread rfl).1]
      exact hlen
    · rcases hcase with hok | ⟨head, rfl⟩
      · exact .inl hok
      · exact .inr ⟨_, rfl⟩
  · simp only [hread] at h
    obtain ⟨rfl, hpair⟩ := Prod.mk.inj h
    obtain ⟨rfl, rfl⟩ := Prod.mk.inj hpair
    exact ⟨[], hparses, hwhole' hwhole, rfl, hreceived, hlen, .inr ⟨_, rfl⟩⟩

/-- The wait for a notification: what comes is taken, and its notifications kept. -/
theorem awaitOne_spec {fuel : ℕ} {link link' : Link} {kept kept' : List Response}
    {result : Except DeckError Unit} (hfuel : link.turns.length < fuel) (hwhole : link.Whole)
    (hcaught : link.Caught) (h : awaitOne fuel link kept = (result, link', kept')) :
    ∃ fs, Link.Parses true link fs link' ∧ link'.Whole ∧ kept' = keepAll kept (notesOf fs) ∧
      (result = .ok () ∧ link'.Caught ∨ ∃ e, result = .error e) := by
  induction fuel generalizing link kept with
  | zero => omega
  | succ fuel ih =>
    have hstay : Link.Parses true link [] link := (Link.Reads.refl ..).parses
    unfold awaitOne at h
    split at h
    · obtain ⟨rfl, hpair⟩ := Prod.mk.inj h
      obtain ⟨rfl, rfl⟩ := Prod.mk.inj hpair
      exact ⟨[], hstay, hwhole, rfl, .inl ⟨rfl, hcaught⟩⟩
    · cases hturns : link.turns with
      | nil =>
        simp only [hturns] at h
        obtain ⟨rfl, hpair⟩ := Prod.mk.inj h
        obtain ⟨rfl, rfl⟩ := Prod.mk.inj hpair
        exact ⟨[], hstay, hwhole, rfl, .inr ⟨_, rfl⟩⟩
      | cons turn turns =>
        rw [hturns, List.length_cons] at hfuel
        have hturn := (Link.reads_turn hturns).parses
        cases turn with
        | late =>
          simp only [hturns] at h
          obtain ⟨rfl, hpair⟩ := Prod.mk.inj h
          obtain ⟨rfl, rfl⟩ := Prod.mk.inj hpair
          have hparses : Link.Parses true link [] (link.turned turns) := by
            simpa [Link.extended, Link.turned, Turn.bytes] using hturn
          exact ⟨[], hparses, hwhole, rfl, .inl ⟨rfl, hcaught⟩⟩
        | quiet =>
          simp only [hturns] at h
          have hparses : Link.Parses true link [] (link.turned turns) := by
            simpa [Link.extended, Link.turned, Turn.bytes] using hturn
          have hfuel' : (link.turned turns).turns.length < fuel := by
            simp only [Link.turned]
            omega
          obtain ⟨fs, hparses', hrest⟩ := ih hfuel' hwhole hcaught h
          exact ⟨fs, hparses.trans hparses', hrest⟩
        | chunk first others =>
          simp only [hturns] at h
          have hw : ((link.turned turns).extended (first :: others)).Whole :=
            Link.Whole.extended hwhole (first :: others)
          obtain ⟨⟨read, link₁, kept₁⟩, hread⟩ : ∃ r,
            dropUnrequested ((link.turned turns).extended (first :: others)) kept = r := ⟨_, rfl⟩
          obtain ⟨fs, hparses, hwhole', hkept, -, hlen, hcase⟩ := dropUnrequested_spec hw hread
          have hfuel' : link₁.turns.length < fuel := by
            simp only [Link.turned, Link.extended] at hlen
            omega
          rcases hcase with ⟨rfl, hcaught'⟩ | ⟨e, rfl⟩
          · simp only [hread] at h
            obtain ⟨gs, hparses', hwhole'', hkept', hcase'⟩ := ih hfuel' hwhole' hcaught' h
            refine ⟨fs ++ gs, hturn.trans (hparses.trans hparses'), hwhole'', ?_, hcase'⟩
            rw [hkept', hkept, ← keepAll_append, notesOf_append]
          · simp only [hread] at h
            obtain ⟨rfl, hpair⟩ := Prod.mk.inj h
            obtain ⟨rfl, rfl⟩ := Prod.mk.inj hpair
            exact ⟨fs, hturn.trans hparses, hwhole', hkept, .inr ⟨e, rfl⟩⟩

/-! ## What is handed out -/

/-- The notifications parsed since the last were handed out, by the record after the
greeting. -/
def unreadOf : List DeckEvent → List Response
  | [] => []
  | .parsed frame :: past => unreadOf past ++ noteOf frame
  | .delivered _ :: _ => []

/-- What was handed out, oldest first. -/
def deliveredOf (events : List DeckEvent) : List Response :=
  (events.filterMap fun
    | .parsed _ => none
    | .delivered out => some out).reverse.flatten

/-- What is handed out are the newest of those that were not yet. -/
def HandsOutNewest : DeckEvent → List DeckEvent → Prop
  | .parsed _, _ => True
  | .delivered out, past => out = (unreadOf past).rtake notificationBacklog

/-- The backlog has lost some. -/
def Overflowed (events : List DeckEvent) : Prop :=
  ∃ past, past <:+ events ∧ notificationBacklog < (unreadOf past).length

theorem unreadOf_parses (fs : List Frame) (events : List DeckEvent) :
    unreadOf ((fs.map .parsed).reverse ++ events) = unreadOf events ++ notesOf fs := by
  induction fs generalizing events with
  | nil => simp [notesOf]
  | cons frame fs ih =>
    rw [List.map_cons, List.reverse_cons, List.append_assoc, List.singleton_append, ih]
    exact List.append_assoc ..

theorem handsOutNewest_parses {events : List DeckEvent} (fs : List Frame)
    (h : Every HandsOutNewest events) :
    Every HandsOutNewest ((fs.map .parsed).reverse ++ events) := by
  apply h.append
  intro post event past hsplit
  have hmem : event ∈ (fs.map DeckEvent.parsed).reverse := by
    rw [hsplit]
    simp
  obtain ⟨frame, -, rfl⟩ := List.mem_map.mp (List.mem_reverse.mp hmem)
  trivial

/-- Once and in order: what was handed out and what waits are all the notifications. -/
theorem delivered_append_unread {events : List DeckEvent} (h : Every HandsOutNewest events)
    (hover : ¬ Overflowed events) :
    deliveredOf events ++ unreadOf events = notesOf (parsedOf events) := by
  induction events with
  | nil => rfl
  | cons event past ih =>
    have hpast : ¬ Overflowed past := fun ⟨older, hsuffix, hlong⟩ =>
      hover ⟨older, hsuffix.trans (List.suffix_cons event past), hlong⟩
    have hih := ih h.2 hpast
    cases event with
    | parsed frame =>
      have hnote : notesOf [frame] = noteOf frame := List.append_nil _
      rw [parsedOf_parsed, notesOf_append, ← hih, hnote]
      exact (List.append_assoc ..).symm
    | delivered out =>
      have hlen : (unreadOf past).length ≤ notificationBacklog := by
        by_contra hlong
        exact hpast ⟨past, List.suffix_refl past, not_le.mp hlong⟩
      have hout : out = unreadOf past :=
        (h.1 : out = _).trans (Library.rtake_of_length_le hlen)
      have hdelivered : deliveredOf (.delivered out :: past) = deliveredOf past ++ out := by
        simp [deliveredOf]
      rw [parsedOf_delivered, ← hih, hdelivered, hout]
      exact List.append_nil _

/-- A connection that was greeted, and the notifications kept for it. A response that broke off
is missing, with nothing more to come. -/
structure Sound (link : Link) (kept : List Response) : Prop where
  whole : link.Whole ∨
    link.turns = [] ∧ wireLines.next link.buf = none ∧ link.Caught
  greeted : link.log ≠ []
  counted : kept = (unreadOf link.log.dropLast).rtake notificationBacklog
  newest : Every HandsOutNewest link.log.dropLast

/-- Parsing keeps a connection sound when the notifications are kept. -/
theorem Sound.parses {link link' : Link} {kept : List Response} {fs : List Frame}
    (h : Sound link kept) (hparses : Link.Parses true link fs link')
    (hwhole : link'.Whole ∨ link'.turns = [] ∧ wireLines.next link'.buf = none ∧ link'.Caught) :
    Sound link' (keepAll kept (notesOf fs)) := by
  have hlast : link'.log.dropLast = (fs.map .parsed).reverse ++ link.log.dropLast := by
    rw [hparses.log, List.dropLast_append_of_ne_nil h.greeted]
  refine ⟨hwhole, ?_, ?_, ?_⟩
  · rw [hparses.log]
    exact List.append_ne_nil_of_right_ne_nil _ h.greeted
  · rw [hlast, unreadOf_parses, h.counted, keepAll_rtake]
  · rw [hlast]
    exact handsOutNewest_parses fs h.newest

/-- Notifications, as frames. -/
theorem notesOf_responses {notes : List Response} (h : ∀ n ∈ notes, n.isAsync = true) :
    notesOf (notes.map .response) = notes := by
  induction notes with
  | nil => rfl
  | cons note notes ih =>
    have hnote := h note List.mem_cons_self
    have htail := ih fun n hn => h n (List.mem_cons_of_mem note hn)
    have hcons : notesOf ((note :: notes).map .response) =
        noteOf (.response note) ++ notesOf (notes.map .response) := rfl
    rw [hcons, htail]
    simp [noteOf, hnote]

theorem dropUnrequested_sound {link link' : Link} {kept kept' : List Response}
    {result : Except DeckError Unit} (h : Sound link kept)
    (hdrop : dropUnrequested link kept = (result, link', kept')) :
    Sound link' kept' ∧ (result = .ok () → link.Whole) := by
  rcases h.whole with hwhole | ⟨hturns, hnext, hcaught⟩
  · obtain ⟨fs, hparses, hwhole', rfl, -⟩ := dropUnrequested_spec hwhole hdrop
    exact ⟨h.parses hparses (.inl hwhole'), fun _ => hwhole⟩
  · unfold dropUnrequested at hdrop
    rw [hturns] at hdrop
    simp only [readReady] at hdrop
    obtain ⟨rfl, hpair⟩ := Prod.mk.inj hdrop
    obtain ⟨rfl, rfl⟩ := Prod.mk.inj hpair
    exact ⟨h, by simp⟩

namespace Hyperdeck

/-! ## Runs -/

/-- The calls of a client object; the socket factory and the deck decide what a `connect`
meets. -/
inductive Call
  | connect (dial : Bool) (turns : List Turn)
  | close
  | request (command : Line)
  | readNotifications
deriving DecidableEq, Repr

/-- The client after a call. -/
def perform (hd : Hyperdeck) : Call → Hyperdeck
  | .connect dial turns => (hd.connect dial turns).2
  | .close => hd.close
  | .request command => (hd.request command).2
  | .readNotifications => hd.readNotifications.2

/-- The clients that calls make of a new one. -/
def Reachable (hd : Hyperdeck) : Prop := Reach (· = {}) perform (fun _ _ => True) hd

/-- A client whose connection is sound. -/
def SoundDeck (hd : Hyperdeck) : Prop := ∀ link, hd.sock = some link → Sound link hd.notifications

theorem soundDeck_of_none {hd : Hyperdeck} (h : hd.sock = none) : SoundDeck hd := fun _ hsock =>
  absurd (h.symm.trans hsock) (by simp)

theorem soundDeck_of_some {hd : Hyperdeck} {link : Link} (h : hd.sock = some link)
    (hsound : Sound link hd.notifications) : SoundDeck hd := fun _ hsock =>
  Option.some.inj (h.symm.trans hsock) ▸ hsound

/-- The answer to a command is the first response that is no notification. -/
theorem awaitAnswer_spec {hd after : Hyperdeck} {link : Link}
    {result : Except DeckError Response} (hsock : hd.sock = some link)
    (hsound : Sound link hd.notifications) (hwhole : link.Whole)
    (h : hd.awaitAnswer = (result, after)) :
    SoundDeck after ∧ ∀ resp, result = .ok resp → resp.isAsync = false ∧
      ∃ (link' : Link) (notes : List Response), after.sock = some link' ∧
        (∀ n ∈ notes, n.isAsync = true) ∧
        Link.Parses true link (notes.map .response ++ [.response resp]) link' := by
  unfold awaitAnswer at h
  obtain ⟨⟨read, link', kept'⟩, hread⟩ :
    ∃ r, readResponse true true (link.pending + 1) link hd.notifications = r := ⟨_, rfl⟩
  obtain ⟨notes, hnotes, rfl, hcase⟩ :=
    readResponse_spec (fun _ => Nat.lt_succ_self _) (Nat.succ_pos _) hwhole hread
  have hasync : ∀ n ∈ notes, n.isAsync = true := fun n hn => (hnotes n hn).2
  have hkept := notesOf_responses hasync
  rcases hcase with ⟨resp, rfl, hnot, hparses, -, hwhole'⟩ |
    ⟨head, rfl, hparses, -, hwhole'⟩ | ⟨e, rfl, hparses, hbroken⟩
  · simp only [hsock, hread] at h
    obtain ⟨rfl, rfl⟩ := Prod.mk.inj h
    have hfalse : resp.isAsync = false := by simpa using hnot
    have hsound' := hsound.parses hparses (.inl hwhole')
    have hlast : notesOf [.response resp] = [] := by simp [notesOf, noteOf, hfalse]
    rw [notesOf_append, hkept, hlast, List.append_nil] at hsound'
    refine ⟨soundDeck_of_some rfl hsound', fun resp' hresp => ?_⟩
    obtain rfl := Except.ok.inj hresp
    exact ⟨hfalse, link', notes, rfl, hasync, hparses⟩
  · simp only [hsock, hread, reduceCtorEq, if_false] at h
    obtain ⟨rfl, rfl⟩ := Prod.mk.inj h
    have hsound' := hsound.parses hparses (.inl hwhole')
    have hlast : notesOf [.malformed head] = [] := rfl
    rw [notesOf_append, hkept, hlast, List.append_nil] at hsound'
    exact ⟨soundDeck_of_some rfl hsound', by simp⟩
  · simp only [hsock, hread] at h
    rcases hbroken.error with rfl | ⟨-, rfl, hturns⟩
    · rw [if_pos rfl] at h
      obtain ⟨rfl, rfl⟩ := Prod.mk.inj h
      exact ⟨soundDeck_of_none rfl, by simp⟩
    · rw [if_neg (by simp)] at h
      obtain ⟨rfl, rfl⟩ := Prod.mk.inj h
      have hsound' := hsound.parses hparses (.inr ⟨hturns, hbroken.next, hbroken.parsed⟩)
      rw [hkept] at hsound'
      exact ⟨soundDeck_of_some rfl hsound', by simp⟩

/-- What `request` does: the responses waiting are parsed first, then the answer is awaited. -/
theorem request_spec {hd after : Hyperdeck} {link : Link} {command : Line}
    {result : Except DeckError Response} (hsock : hd.sock = some link)
    (hsound : Sound link hd.notifications) (h : hd.request command = (result, after)) :
    SoundDeck after ∧ ∀ resp, result = .ok resp → resp.isAsync = false ∧
      ∃ (link' : Link) (waiting : List Frame) (notes : List Response), after.sock = some link' ∧
        parsedOf link.log ++ waiting =
          (frames.frames (link.received ++ ready link.turns)).1 ∧
        (∀ n ∈ notes, n.isAsync = true) ∧
        parsedOf link'.log =
          parsedOf link.log ++ waiting ++ notes.map .response ++ [.response resp] := by
  unfold request dropped at h
  obtain ⟨⟨read, link₁, kept₁⟩, hdrop⟩ :
    ∃ r, dropUnrequested link hd.notifications = r := ⟨_, rfl⟩
  obtain ⟨hsound₁, hwhole⟩ := dropUnrequested_sound hsound hdrop
  simp only [hsock, hdrop] at h
  cases read with
  | error e =>
    obtain ⟨rfl, rfl⟩ := Prod.mk.inj h
    exact ⟨soundDeck_of_some rfl hsound₁, by simp⟩
  | ok u =>
    obtain ⟨fs, hparses, hwhole₁, -, hreceived, -, hcase⟩ :=
      dropUnrequested_spec (hwhole rfl) hdrop
    have hcaught : link₁.Caught := by
      rcases hcase with ⟨-, hcaught⟩ | ⟨e, he⟩
      · exact hcaught
      · exact absurd he (by simp)
    cases hsend : sendLine { hd with sock := some link₁, notifications := kept₁ } command with
    | error e =>
      simp only [hsend] at h
      obtain ⟨rfl, rfl⟩ := Prod.mk.inj h
      exact ⟨soundDeck_of_some rfl hsound₁, by simp⟩
    | ok v =>
      simp only [hsend] at h
      obtain ⟨hafter, hanswer⟩ := awaitAnswer_spec rfl hsound₁ hwhole₁ h
      refine ⟨hafter, fun resp hresp => ?_⟩
      obtain ⟨hnot, link', notes, hsock', hnotes, hparses'⟩ := hanswer resp hresp
      refine ⟨hnot, link', fs, notes, hsock', ?_, hnotes, ?_⟩
      · rw [← hparses.parsed, ← hreceived]
        exact hcaught
      · rw [hparses'.parsed, hparses.parsed, List.append_assoc]
        simp only [List.append_assoc]

/-- What `read_notifications` does: all that has arrived is parsed, and the backlog handed
out. -/
theorem readNotifications_spec {hd after : Hyperdeck} {link : Link}
    {result : Except DeckError (List Response)} (hsock : hd.sock = some link)
    (hsound : Sound link hd.notifications) (h : hd.readNotifications = (result, after)) :
    SoundDeck after ∧ ∀ out, result = .ok out → ∃ link' events, after.sock = some link' ∧
      link'.log = .delivered out :: events ∧ link'.Caught ∧ after.notifications = [] ∧
      link.received ++ ready link.turns <+: link'.received := by
  unfold readNotifications at h
  obtain ⟨⟨read, link₁, kept₁⟩, hdrop⟩ :
    ∃ r, dropUnrequested link hd.notifications = r := ⟨_, rfl⟩
  obtain ⟨hsound₁, hwhole⟩ := dropUnrequested_sound hsound hdrop
  simp only [hsock, hdrop] at h
  cases read with
  | error e =>
    obtain ⟨rfl, rfl⟩ := Prod.mk.inj h
    exact ⟨soundDeck_of_some rfl hsound₁, by simp⟩
  | ok u =>
    obtain ⟨fs, hparses, hwhole₁, -, hreceived, -, hcase⟩ :=
      dropUnrequested_spec (hwhole rfl) hdrop
    have hcaught : link₁.Caught := by
      rcases hcase with ⟨-, hcaught⟩ | ⟨e, he⟩
      · exact hcaught
      · exact absurd he (by simp)
    obtain ⟨⟨read, link₂, kept₂⟩, hwait⟩ :
      ∃ r, awaitOne (link₁.turns.length + 1) link₁ kept₁ = r := ⟨_, rfl⟩
    obtain ⟨gs, hparses₂, hwhole₂, rfl, hcase₂⟩ :=
      awaitOne_spec (Nat.lt_succ_self _) hwhole₁ hcaught hwait
    have hsound₂ := hsound₁.parses hparses₂ (.inl hwhole₂)
    simp only [hwait] at h
    cases read with
    | error e =>
      obtain ⟨rfl, rfl⟩ := Prod.mk.inj h
      exact ⟨soundDeck_of_some rfl hsound₂, by simp⟩
    | ok v =>
      obtain ⟨rfl, rfl⟩ := Prod.mk.inj h
      have hcaught₂ : link₂.Caught := by
        rcases hcase₂ with ⟨-, hcaught₂⟩ | ⟨e, he⟩
        · exact hcaught₂
        · exact absurd he (by simp)
      refine ⟨soundDeck_of_some rfl ⟨?_, by simp, ?_, ?_⟩, fun out hout => ?_⟩
      · exact hsound₂.whole
      · rw [List.dropLast_cons_of_ne_nil hsound₂.greeted]
        simp [unreadOf, List.rtake]
      · rw [List.dropLast_cons_of_ne_nil hsound₂.greeted]
        exact ⟨hsound₂.counted, hsound₂.newest⟩
      · obtain rfl := Except.ok.inj hout
        refine ⟨_, link₂.log, rfl, rfl, hcaught₂, rfl, ?_⟩
        rw [← hreceived]
        exact hparses₂.received

theorem connect_sound (hd : Hyperdeck) (dial : Bool) (turns : List Turn) :
    SoundDeck (hd.connect dial turns).2 := by
  unfold connect
  cases dial with
  | false => exact soundDeck_of_none rfl
  | true =>
    obtain ⟨⟨read, link, kept⟩, hread⟩ :
      ∃ r, readResponse true false 1 { turns := turns } [] = r := ⟨_, rfl⟩
    have hstart : Link.Whole { turns := turns } := Framing.Read.start
    obtain ⟨notes, hnotes, rfl, hcase⟩ := readResponse_spec (by simp) Nat.one_pos hstart hread
    have hnil : notes = [] := List.eq_nil_iff_forall_not_mem.mpr fun n hn => by
      simpa using (hnotes n hn).1
    subst hnil
    simp only [if_true, hread]
    rcases hcase with ⟨resp, rfl, -, hparses, -, hwhole⟩ | ⟨head, rfl, -⟩ | ⟨e, rfl, -⟩
    · simp only
      split
      · exact soundDeck_of_none rfl
      · split
        · exact soundDeck_of_none rfl
        · have hlog : link.log = [.parsed (.response resp)] := hparses.log
          refine soundDeck_of_some rfl ⟨.inl hwhole, by simp [hlog], ?_, ?_⟩
          · rw [hlog]
            simp [unreadOf, List.rtake, keepAll]
          · rw [hlog]
            trivial
    · exact soundDeck_of_none rfl
    · exact soundDeck_of_none rfl

/-- Every connection of a run is sound. -/
theorem Reachable.sound {hd : Hyperdeck} (h : Reachable hd) : SoundDeck hd := by
  refine h.invariant (fun s hs => hs ▸ soundDeck_of_none rfl) fun s call _ hsound _ => ?_
  cases call with
  | connect dial turns => exact connect_sound s dial turns
  | close => exact soundDeck_of_none rfl
  | request command =>
    cases hsock : s.sock with
    | some link => exact (request_spec hsock (hsound link hsock) rfl).1
    | none =>
      refine soundDeck_of_none ?_
      simp only [perform, request, dropped, hsock]
      cases s.sendLine command with
      | error e => exact hsock
      | ok u => simp [awaitAnswer, hsock]
  | readNotifications =>
    cases hsock : s.sock with
    | some link => exact (readNotifications_spec hsock (hsound link hsock) rfl).1
    | none =>
      refine soundDeck_of_none ?_
      simp only [perform, readNotifications, hsock]

/-! ## The byte stream -/

/-- How a connection handles its byte stream, whatever pieces that came in. -/
structure StreamHandled (hd : Hyperdeck) (link : Link) : Prop where
  /-- What was parsed are the first responses of the stream. -/
  parsed : parsedOf link.log <+: (frames.frames link.stream).1
  /-- Of those that have arrived, the ones not parsed yet are in the buffer. -/
  arrived : (frames.frames link.received).1 = parsedOf link.log ++ (frames.frames link.buf).1
  /-- `request` returns the first response that is no notification after all that were complete
  in what had arrived before the command is sent. -/
  answered : ∀ command resp after, hd.request command = (.ok resp, after) →
    resp.isAsync = false ∧ ∃ (link' : Link) (waiting : List Frame) (notes : List Response),
      after.sock = some link' ∧
      parsedOf link.log ++ waiting = (frames.frames (link.received ++ ready link.turns)).1 ∧
      (∀ n ∈ notes, n.isAsync = true) ∧
      parsedOf link'.log =
        parsedOf link.log ++ waiting ++ notes.map .response ++ [.response resp]
  /-- What was handed out and the backlog are all the notifications parsed since the greeting,
  once and in order, unless the backlog overflowed. -/
  delivered : ¬ Overflowed link.log.dropLast →
    deliveredOf link.log.dropLast ++ hd.notifications = notesOf (parsedOf link.log.dropLast)
  /-- When it did, the newest of those not handed out are kept, and handed out. -/
  newest : Every HandsOutNewest link.log.dropLast ∧
    hd.notifications = (unreadOf link.log.dropLast).rtake notificationBacklog
  /-- `read_notifications` parses all that has arrived, and hands out the backlog. -/
  read : ∀ out after, hd.readNotifications = (.ok out, after) →
    ∃ (link' : Link) (events : List DeckEvent), after.sock = some link' ∧
      link'.log = .delivered out :: events ∧
      parsedOf link'.log = (frames.frames link'.received).1 ∧ after.notifications = [] ∧
      link.received ++ ready link.turns <+: link'.received

theorem arrived_of_sound {link : Link} {kept : List Response} (h : Sound link kept) :
    (frames.frames link.received).1 = parsedOf link.log ++ (frames.frames link.buf).1 := by
  rcases h.whole with hwhole | ⟨-, hnext, hcaught⟩
  · exact congrArg Prod.fst hwhole
  · have hnone : frames.next link.buf = none := Framing.resume_of_none hnext
    rw [Framing.frames_of_none hnone, List.append_nil]
    exact hcaught.symm

/-- The turns of a connection that begins with its greeting, cut in the middle of a line. -/
def greetingTurns : List Turn := [piece "500 connection info:\r\nmo", piece "del: HyperDeck\r\n\r\n"]

end Hyperdeck

end Bmdwire
