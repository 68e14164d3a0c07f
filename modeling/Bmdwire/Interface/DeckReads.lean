import Bmdwire.Library.Bounded
import Bmdwire.Program.Hyperdeck

/-!
# What the HyperDeck client reads

A response is put together of lines by `readStep`, so the responses of a byte stream are a
framing of it (`frames`), whatever pieces the stream comes in. The functions that read lines and
responses follow it (`readFrame_spec`): what was parsed and the buffer go together to the bytes
received, unless a response breaks off because the deck has closed the connection (`Sound`).
-/

set_option autoImplicit false

namespace Bmdwire

open Library (Framing)

/-- Where the reading of a response stands: before its head, or among its continuation lines. -/
inductive ReadState
  | head
  | body (code : ℤ) (text : Line) (lines : List Line)

/-- One more line. -/
def readStep : ReadState → Line → ReadState ⊕ Frame
  | .head, line =>
    if line = [] then .inl .head
    else
      match splitHead line with
      | none => .inr (.malformed line)
      | some (code, text) =>
        if endsInColon text then .inl (.body code text.dropLast [])
        else .inr (.response ⟨code, text, []⟩)
  | .body code text lines, line =>
    if line = [] then .inr (.response ⟨code, text, lines⟩)
    else .inl (.body code text (lines ++ [line]))

/-- The responses of a byte stream. -/
def frames : Framing UInt8 Frame := wireLines.assemble readStep .head

/-- The frames parsed on a connection, oldest first. -/
def parsedOf (log : List DeckEvent) : List Frame :=
  (log.filterMap fun
    | .parsed frame => some frame
    | .delivered _ => none).reverse

@[simp] theorem parsedOf_nil : parsedOf [] = [] := rfl

@[simp] theorem parsedOf_parsed (frame : Frame) (log : List DeckEvent) :
    parsedOf (.parsed frame :: log) = parsedOf log ++ [frame] := by
  simp [parsedOf]

@[simp] theorem parsedOf_delivered (out : List Response) (log : List DeckEvent) :
    parsedOf (.delivered out :: log) = parsedOf log := rfl

namespace Link

/-- The byte stream of a connection: what was received and what is to come. -/
def stream (link : Link) : List UInt8 := link.received ++ link.turns.flatMap Turn.bytes

/-- Reading goes on: the record stays, the stream is the same, and without waiting nothing is
read off the socket. -/
structure Reads (waits : Bool) (link link' : Link) : Prop where
  log : link'.log = link.log
  stream : link'.stream = link.stream
  pending : link'.pending ≤ link.pending
  received : link.received <+: link'.received
  unread : waits = false → link'.turns = link.turns ∧ link'.received = link.received

theorem Reads.refl (waits : Bool) (link : Link) : Reads waits link link :=
  ⟨rfl, rfl, Nat.le_refl _, List.prefix_refl _, fun _ => ⟨rfl, rfl⟩⟩

theorem Reads.trans {waits : Bool} {a b c : Link} (h : Reads waits a b) (h' : Reads waits b c) :
    Reads waits a c where
  log := h'.log.trans h.log
  stream := h'.stream.trans h.stream
  pending := h'.pending.trans h.pending
  received := h.received.trans h'.received
  unread hw := ⟨(h'.unread hw).1.trans (h.unread hw).1, (h'.unread hw).2.trans (h.unread hw).2⟩

/-- The reading of a response stands at `s`. -/
def At (s : ReadState) (link : Link) : Prop :=
  wireLines.Midway readStep .head s link.received (parsedOf link.log) link.buf

/-- What was parsed and the buffer are all that was received. -/
def Whole (link : Link) : Prop := frames.Read link.received (parsedOf link.log) link.buf

/-- A reading that broke off: nothing complete is left. -/
structure Broken (waits : Bool) (e : DeckError) (link : Link) : Prop where
  error : e = .timedOut ∨ waits = true ∧ e = .peerClosed ∧ link.turns = []
  next : wireLines.next link.buf = none
  parsed : parsedOf link.log = (frames.frames link.received).1

/-- The next turn brings its bytes. -/
theorem reads_turn {link : Link} {turn : Turn} {turns : List Turn}
    (hturns : link.turns = turn :: turns) :
    Reads true link ((link.turned turns).extended turn.bytes) where
  log := rfl
  stream := by simp [stream, hturns, turned, extended]
  pending := by
    simp only [pending, hturns, turned, extended, stillToCome_cons, List.length_append]
    omega
  received := List.prefix_append _ _
  unread h := absurd h (by simp)

/-- What a call of `_recv_line` while reading at `s` comes to: a line, or none. -/
def LineRead (waits : Bool) (s : ReadState) (link : Link) (result : Except DeckError Line)
    (link' : Link) : Prop :=
  Reads waits link link' ∧
    ((∃ line, result = .ok line ∧ link'.pending < link.pending ∧
        (∀ s', readStep s line = .inl s' → link'.At s') ∧
        ∀ frame, readStep s line = .inr frame →
          frames.Read link'.received (parsedOf link.log ++ [frame]) link'.buf) ∨
      ∃ e, result = .error e ∧ Broken waits e link')

/-- A line in the buffer. -/
theorem lineRead_buffered {waits : Bool} {s : ReadState} {link : Link} {line : Line}
    {rest : List UInt8} (hat : link.At s) (hnext : wireLines.next link.buf = some (line, rest)) :
    LineRead waits s link (.ok line) { link with buf := rest } := by
  have hshort := wireLines.shorter hnext
  have hless : Link.pending { link with buf := rest } < link.pending := by
    simp only [pending]
    omega
  exact ⟨⟨rfl, rfl, hless.le, List.prefix_refl _, fun _ => ⟨rfl, rfl⟩⟩,
    .inl ⟨line, rfl, hless, fun s' hs => hat.advance hnext hs, fun f hf => hat.finish hnext hf⟩⟩

theorem recvLineFrom_spec {waits : Bool} {link link' : Link} {turns : List Turn}
    {result : Except DeckError Line} {s : ReadState} (hturns : link.turns = turns)
    (hat : link.At s) (h : recvLineFrom waits turns link = (result, link')) :
    LineRead waits s link result link' := by
  induction turns generalizing link with
  | nil =>
    unfold recvLineFrom at h
    cases hnext : wireLines.next link.buf with
    | some next =>
      simp only [hnext, Prod.mk.injEq] at h
      obtain ⟨rfl, rfl⟩ := h
      exact lineRead_buffered hat hnext
    | none =>
      simp only [hnext, Prod.mk.injEq] at h
      obtain ⟨rfl, rfl⟩ := h
      refine ⟨.refl .., .inr ⟨_, rfl, ?_, hnext, hat.taken_eq hnext⟩⟩
      cases waits with
      | true => exact .inr ⟨rfl, rfl, hturns⟩
      | false => exact .inl rfl
  | cons turn turns ih =>
    unfold recvLineFrom at h
    cases hnext : wireLines.next link.buf with
    | some next =>
      simp only [hnext, Prod.mk.injEq] at h
      obtain ⟨rfl, rfl⟩ := h
      exact lineRead_buffered hat hnext
    | none =>
      have hparsed := hat.taken_eq hnext
      cases waits with
      | false =>
        simp only [hnext, Bool.false_eq_true, if_false, Prod.mk.injEq] at h
        obtain ⟨rfl, rfl⟩ := h
        exact ⟨.refl .., .inr ⟨_, rfl, .inl rfl, hnext, hparsed⟩⟩
      | true =>
        have hturn := reads_turn hturns
        have hmore : ∀ bytes : List UInt8, turn.bytes = bytes →
            recvLineFrom true turns ((link.turned turns).extended bytes) = (result, link') →
            LineRead true s link result link' := by
          rintro _ rfl hrec
          have hat' : At s ((link.turned turns).extended turn.bytes) := hat.receive turn.bytes
          obtain ⟨hreads, hcase⟩ := ih rfl hat' hrec
          refine ⟨hturn.trans hreads, ?_⟩
          rcases hcase with ⟨line, hline, hless, hafter⟩ | hbroken
          · exact .inl ⟨line, hline, hless.trans_le hturn.pending, hafter⟩
          · exact .inr hbroken
        cases turn with
        | late =>
          simp only [hnext, if_true, Prod.mk.injEq] at h
          obtain ⟨rfl, rfl⟩ := h
          have hreads : Reads true link (link.turned turns) := by
            simpa [extended, turned, Turn.bytes] using hturn
          exact ⟨hreads, .inr ⟨_, rfl, .inl rfl, hnext, hparsed⟩⟩
        | quiet => exact hmore _ rfl (by simpa [hnext] using h)
        | chunk first others => exact hmore _ rfl (by simpa [hnext] using h)

theorem recvLine_spec {waits : Bool} {link link' : Link} {result : Except DeckError Line}
    {s : ReadState} (hat : link.At s) (h : link.recvLine waits = (result, link')) :
    LineRead waits s link result link' :=
  recvLineFrom_spec rfl hat h

/-- What reading a frame on from `s` comes to: the frame, or a reading that breaks off. -/
def FrameRead (waits : Bool) (link : Link) (result : Except DeckError Frame) (link' : Link) :
    Prop :=
  Reads waits link link' ∧
    ((∃ frame, result = .ok frame ∧ link'.pending < link.pending ∧
        frames.Read link'.received (parsedOf link.log ++ [frame]) link'.buf) ∨
      ∃ e, result = .error e ∧ Broken waits e link')

theorem readBody_spec {waits : Bool} {fuel : ℕ} {link link' : Link} {code : ℤ} {text : Line}
    {lines : List Line} {result : Except DeckError (List Line)} (hfuel : link.pending < fuel)
    (hat : link.At (.body code text lines)) (h : readBody waits fuel link lines = (result, link')) :
    FrameRead waits link (result.map fun lines => .response ⟨code, text, lines⟩) link' := by
  induction fuel generalizing link lines with
  | zero => omega
  | succ fuel ih =>
    unfold readBody at h
    obtain ⟨⟨read, link₁⟩, hrecv⟩ : ∃ r, link.recvLine waits = r := ⟨_, rfl⟩
    obtain ⟨hreads, ⟨line, rfl, hless, hgo, hdone⟩ | ⟨e, rfl, hbroken⟩⟩ := recvLine_spec hat hrecv
    · simp only [hrecv] at h
      by_cases hblank : line = []
      · rw [if_pos hblank] at h
        obtain ⟨rfl, rfl⟩ := Prod.mk.inj h
        exact ⟨hreads, .inl ⟨_, rfl, hless, hdone _ (by simp [readStep, hblank])⟩⟩
      · rw [if_neg hblank] at h
        have hgo' := hgo (.body code text (lines ++ [line])) (by simp [readStep, hblank])
        obtain ⟨hreads', hcase⟩ := ih (by omega) hgo' h
        refine ⟨hreads.trans hreads', ?_⟩
        rcases hcase with ⟨frame, hframe, hless', hread⟩ | hbroken
        · rw [hreads.log] at hread
          exact .inl ⟨frame, hframe, hless'.trans hless, hread⟩
        · exact .inr hbroken
    · simp only [hrecv] at h
      obtain ⟨rfl, rfl⟩ := Prod.mk.inj h
      exact ⟨hreads, .inr ⟨e, rfl, hbroken⟩⟩

theorem readFrameFrom_spec {waits : Bool} {fuel : ℕ} {link link' : Link}
    {result : Except DeckError Frame} (hfuel : link.pending < fuel) (hat : link.At .head)
    (h : readFrameFrom waits fuel link = (result, link')) : FrameRead waits link result link' := by
  induction fuel generalizing link with
  | zero => omega
  | succ fuel ih =>
    unfold readFrameFrom at h
    obtain ⟨⟨read, link₁⟩, hrecv⟩ : ∃ r, link.recvLine waits = r := ⟨_, rfl⟩
    obtain ⟨hreads, ⟨line, rfl, hless, hgo, hdone⟩ | ⟨e, rfl, hbroken⟩⟩ := recvLine_spec hat hrecv
    · simp only [hrecv] at h
      -- what was read after the first line, put behind it
      have hlater : FrameRead waits link₁ result link' → FrameRead waits link result link' := by
        rintro ⟨hreads', hcase⟩
        refine ⟨hreads.trans hreads', ?_⟩
        rcases hcase with ⟨frame, hframe, hless', hread⟩ | hbroken
        · rw [hreads.log] at hread
          exact .inl ⟨frame, hframe, hless'.trans hless, hread⟩
        · exact .inr hbroken
      by_cases hblank : line = []
      · rw [if_pos hblank] at h
        exact hlater (ih (by omega) (hgo .head (by simp [readStep, hblank])) h)
      · rw [if_neg hblank] at h
        unfold readAfter at h
        cases hsplit : splitHead line with
        | none =>
          simp only [hsplit] at h
          obtain ⟨rfl, rfl⟩ := Prod.mk.inj h
          exact ⟨hreads, .inl ⟨_, rfl, hless, hdone _ (by simp [readStep, hblank, hsplit])⟩⟩
        | some head =>
          obtain ⟨code, text⟩ := head
          simp only [hsplit] at h
          by_cases hcolon : endsInColon text = true
          · rw [if_pos hcolon] at h
            have hbody := hgo (.body code text.dropLast [])
              (by simp [readStep, hblank, hsplit, hcolon])
            obtain ⟨⟨lines, link₂⟩, hread⟩ :
              ∃ r, readBody waits (link₁.pending + 1) link₁ [] = r := ⟨_, rfl⟩
            have hspec := readBody_spec (Nat.lt_succ_self _) hbody hread
            rw [hread] at h
            apply hlater
            cases lines with
            | error e =>
              obtain ⟨rfl, rfl⟩ := Prod.mk.inj h
              exact hspec
            | ok lines =>
              obtain ⟨rfl, rfl⟩ := Prod.mk.inj h
              exact hspec
          · rw [if_neg hcolon] at h
            obtain ⟨rfl, rfl⟩ := Prod.mk.inj h
            exact ⟨hreads, .inl ⟨_, rfl, hless,
              hdone _ (by simp [readStep, hblank, hsplit, hcolon])⟩⟩
    · simp only [hrecv] at h
      obtain ⟨rfl, rfl⟩ := Prod.mk.inj h
      exact ⟨hreads, .inr ⟨e, rfl, hbroken⟩⟩

/-- Frames parsed: they are entered in the record, and the rest is reading. -/
structure Parses (waits : Bool) (link : Link) (fs : List Frame) (link' : Link) : Prop where
  log : link'.log = (fs.map .parsed).reverse ++ link.log
  stream : link'.stream = link.stream
  pending : link'.pending ≤ link.pending
  received : link.received <+: link'.received
  unread : waits = false → link'.turns = link.turns ∧ link'.received = link.received

theorem Reads.parses {waits : Bool} {link link' : Link} (h : Reads waits link link') :
    Parses waits link [] link' :=
  ⟨h.log, h.stream, h.pending, h.received, h.unread⟩

theorem Parses.trans {waits : Bool} {a b c : Link} {fs gs : List Frame}
    (h : Parses waits a fs b) (h' : Parses waits b gs c) : Parses waits a (fs ++ gs) c where
  log := by
    rw [h'.log, h.log, List.map_append, List.reverse_append, List.append_assoc]
  stream := h'.stream.trans h.stream
  pending := h'.pending.trans h.pending
  received := h.received.trans h'.received
  unread hw := ⟨(h'.unread hw).1.trans (h.unread hw).1, (h'.unread hw).2.trans (h.unread hw).2⟩

theorem parsedOf_parses (fs : List Frame) (log : List DeckEvent) :
    parsedOf ((fs.map .parsed).reverse ++ log) = parsedOf log ++ fs := by
  induction fs generalizing log with
  | nil => simp
  | cons frame fs ih =>
    rw [List.map_cons, List.reverse_cons, List.append_assoc, List.singleton_append, ih,
      parsedOf_parsed, List.append_assoc]
    rfl

theorem Parses.parsed {waits : Bool} {link link' : Link} {fs : List Frame}
    (h : Parses waits link fs link') : parsedOf link'.log = parsedOf link.log ++ fs := by
  rw [h.log, parsedOf_parses]

/-- A frame is read and entered, or the reading breaks off. -/
theorem readFrame_spec {waits : Bool} {link link' : Link} {result : Except DeckError Frame}
    (hwhole : link.Whole) (h : link.readFrame waits = (result, link')) :
    (∃ frame, result = .ok frame ∧ Parses waits link [frame] link' ∧
        link'.pending < link.pending ∧ link'.Whole) ∨
      ∃ e, result = .error e ∧ Parses waits link [] link' ∧ Broken waits e link' := by
  unfold readFrame at h
  obtain ⟨⟨read, link₁⟩, hread⟩ : ∃ r, readFrameFrom waits (link.pending + 1) link = r := ⟨_, rfl⟩
  obtain ⟨hreads, ⟨frame, rfl, hless, hframe⟩ | ⟨e, rfl, hbroken⟩⟩ :=
    readFrameFrom_spec (Nat.lt_succ_self _) (Framing.Midway.begin hwhole) hread
  · simp only [hread, Prod.mk.injEq] at h
    obtain ⟨rfl, rfl⟩ := h
    refine .inl ⟨frame, rfl, ?_, hless, ?_⟩
    · exact ⟨by simp [hreads.log], hreads.stream, hreads.pending, hreads.received, hreads.unread⟩
    · unfold Whole
      rw [parsedOf_parsed, hreads.log]
      exact hframe
  · simp only [hread, Prod.mk.injEq] at h
    obtain ⟨rfl, rfl⟩ := h
    exact .inr ⟨e, rfl, hreads.parses, hbroken⟩

end Link

/-! ## Notifications -/

/-- The notification that a frame is, if it is one. -/
def noteOf : Frame → List Response
  | .response resp => if resp.isAsync then [resp] else []
  | .malformed _ => []

/-- The notifications among frames. -/
def notesOf (fs : List Frame) : List Response := fs.flatMap noteOf

/-- Notifications kept one after the other. -/
def keepAll (backlog notes : List Response) : List Response := notes.foldl keep backlog

theorem keepAll_append (backlog l m : List Response) :
    keepAll backlog (l ++ m) = keepAll (keepAll backlog l) m :=
  List.foldl_append

theorem notesOf_append (fs gs : List Frame) : notesOf (fs ++ gs) = notesOf fs ++ notesOf gs :=
  List.flatMap_append

/-- A response is kept when it is a notification. -/
theorem keepAll_response (backlog : List Response) (resp : Response) (fs : List Frame) :
    keepAll backlog (notesOf (.response resp :: fs)) =
      keepAll (if resp.isAsync then keep backlog resp else backlog) (notesOf fs) := by
  have hcons : notesOf (.response resp :: fs) = noteOf (.response resp) ++ notesOf fs := rfl
  rw [hcons, keepAll_append]
  congr 1
  by_cases hasync : resp.isAsync = true
  · simp [noteOf, hasync, keepAll]
  · simp [noteOf, hasync, keepAll]

/-- The backlog holds the newest. -/
theorem keepAll_rtake (unread notes : List Response) :
    keepAll (unread.rtake notificationBacklog) notes =
      (unread ++ notes).rtake notificationBacklog := by
  induction notes generalizing unread with
  | nil => simp [keepAll]
  | cons note notes ih =>
    have hlen : (unread.rtake notificationBacklog).length ≤ notificationBacklog := by
      rw [Library.length_rtake]
      exact Nat.min_le_left ..
    have hone : keep (unread.rtake notificationBacklog) note =
        (unread ++ [note]).rtake notificationBacklog := by
      unfold keep
      rw [Library.push_eq_rtake (by decide) hlen, Library.rtake_append_rtake]
    unfold keepAll at ih ⊢
    rw [List.foldl_cons, hone, ih, List.append_assoc]
    rfl

/-- A response is read; with `skip_async` the notifications before it are kept. -/
theorem readResponse_spec {waits skip : Bool} {fuel : ℕ} {link link' : Link}
    {kept kept' : List Response} {result : Except DeckError Response}
    (hfuel : skip = true → link.pending < fuel) (hpos : 0 < fuel) (hwhole : link.Whole)
    (h : readResponse waits skip fuel link kept = (result, link', kept')) :
    ∃ notes : List Response, (∀ n ∈ notes, skip = true ∧ n.isAsync = true) ∧
      kept' = keepAll kept notes ∧
      ((∃ resp, result = .ok resp ∧ (resp.isAsync && skip) = false ∧
          Link.Parses waits link (notes.map .response ++ [.response resp]) link' ∧
          link'.pending < link.pending ∧ link'.Whole) ∨
        (∃ head, result = .error (.malformedHead head) ∧
          Link.Parses waits link (notes.map .response ++ [.malformed head]) link' ∧
          link'.pending < link.pending ∧ link'.Whole) ∨
        ∃ e, result = .error e ∧ Link.Parses waits link (notes.map .response) link' ∧
          Link.Broken waits e link') := by
  induction fuel generalizing link kept with
  | zero => omega
  | succ fuel ih =>
    unfold readResponse at h
    obtain ⟨⟨read, link₁⟩, hread⟩ : ∃ r, link.readFrame waits = r := ⟨_, rfl⟩
    rcases Link.readFrame_spec hwhole hread with
      ⟨frame, rfl, hparses, hless, hwhole'⟩ | ⟨e, rfl, hparses, hbroken⟩
    · cases frame with
      | malformed head =>
        simp only [hread, Prod.mk.injEq] at h
        obtain ⟨rfl, rfl, rfl⟩ := h
        exact ⟨[], by simp, rfl, .inr (.inl ⟨head, rfl, hparses, hless, hwhole'⟩)⟩
      | response resp =>
        simp only [hread] at h
        by_cases hskip : (resp.isAsync && skip) = true
        · rw [if_pos hskip] at h
          obtain ⟨hasync, hsk⟩ := Bool.and_eq_true_iff.mp hskip
          have hless' := hfuel hsk
          obtain ⟨notes, hnotes, hkept, hcase⟩ := ih (fun _ => by omega) (by omega) hwhole' h
          refine ⟨resp :: notes, ?_, hkept, ?_⟩
          · intro n hn
            rcases List.mem_cons.mp hn with rfl | hn
            · exact ⟨hsk, hasync⟩
            · exact hnotes n hn
          · rcases hcase with ⟨last, hlast, hnot, hparses', hless'', hw⟩ |
              ⟨head, hhead, hparses', hless'', hw⟩ | ⟨e, he, hparses', hbroken⟩
            · exact .inl ⟨last, hlast, hnot, hparses.trans hparses', hless''.trans hless, hw⟩
            · exact .inr (.inl ⟨head, hhead, hparses.trans hparses', hless''.trans hless, hw⟩)
            · exact .inr (.inr ⟨e, he, hparses.trans hparses', hbroken⟩)
        · rw [if_neg hskip] at h
          simp only [Prod.mk.injEq] at h
          obtain ⟨rfl, rfl, rfl⟩ := h
          exact ⟨[], by simp, rfl, .inl ⟨resp, rfl, by simpa using hskip, hparses, hless, hwhole'⟩⟩
    · simp only [hread, Prod.mk.injEq] at h
      obtain ⟨rfl, rfl, rfl⟩ := h
      exact ⟨[], by simp, rfl, .inr (.inr ⟨e, rfl, hparses, hbroken⟩)⟩

end Bmdwire
