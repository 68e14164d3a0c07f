import Bmdwire.Model.Hyperdeck
import Mathlib.Data.List.DropRight

/-!
# The HyperDeck client

`hyperdeckwire/client.py`: reading lines and responses, `request` with the dropping of responses
that nobody asked for, and `read_notifications`.
-/

set_option autoImplicit false

namespace Bmdwire

open Library (Framing parseInt cutAt decodeUtf8)

/-- `line.rstrip(b'\r').decode('utf-8', errors='replace')` -/
def lineOf (raw : List UInt8) : Line := decodeUtf8 (raw.rdropWhile (· = 0x0d))

/-- Lines end in a line feed. -/
def wireLines : Framing UInt8 Line := (Framing.delimited [0x0a] (by decide)).map lineOf

/-- The code and the text of a head line; `none` when the code is no integer. -/
def splitHead (head : Line) : Option (ℤ × Line) :=
  let (code, text) := (cutAt [' '] head).getD (head, [])
  (parseInt 10 code).map fun n => (n, text)

/-- `text.endswith(':')` -/
def endsInColon (text : Line) : Bool := text.getLast? = some ':'

namespace Link

/-- A turn of the socket is over. -/
def turned (link : Link) (turns : List Turn) : Link := { link with turns := turns }

/-- Bytes come in. -/
def extended (link : Link) (bytes : List UInt8) : Link :=
  { link with buf := link.buf ++ bytes, received := link.received ++ bytes }

/-- `_recv_line` over the turns of the link; without waiting the deadline is past from the
start. -/
def recvLineFrom (waits : Bool) : List Turn → Link → Except DeckError Line × Link
  | [], link =>
    match wireLines.next link.buf with
    | some (line, rest) => (.ok line, { link with buf := rest })
    | none => (.error (if waits then .peerClosed else .timedOut), link)
  | turn :: turns, link =>
    match wireLines.next link.buf with
    | some (line, rest) => (.ok line, { link with buf := rest })
    | none =>
      if waits then
        match turn with
        | .late => (.error .timedOut, link.turned turns)
        | turn => recvLineFrom waits turns ((link.turned turns).extended turn.bytes)
      else (.error .timedOut, link)

def recvLine (waits : Bool) (link : Link) : Except DeckError Line × Link :=
  recvLineFrom waits link.turns link

/-- The bytes buffered and still to come, which bound the lines a loop can read. -/
def pending (link : Link) : ℕ := link.buf.length + stillToCome link.turns

/-- The continuation lines of a response, up to the blank one. -/
def readBody (waits : Bool) : ℕ → Link → List Line → Except DeckError (List Line) × Link
  | 0, link, _ => (.error .unfinished, link)
  | fuel + 1, link, lines =>
    match link.recvLine waits with
    | (.error e, link) => (.error e, link)
    | (.ok cont, link) =>
      if cont = [] then (.ok lines, link) else readBody waits fuel link (lines ++ [cont])

/-- What follows a head line. -/
def readAfter (waits : Bool) (head : Line) (link : Link) : Except DeckError Frame × Link :=
  match splitHead head with
  | none => (.ok (.malformed head), link)
  | some (code, text) =>
    if endsInColon text then
      match readBody waits (link.pending + 1) link [] with
      | (.error e, link) => (.error e, link)
      | (.ok lines, link) => (.ok (.response ⟨code, text.dropLast, lines⟩), link)
    else (.ok (.response ⟨code, text, []⟩), link)

/-- A turn of the loop of `_read_response`, up to a head that is not blank and what follows
it. -/
def readFrameFrom (waits : Bool) : ℕ → Link → Except DeckError Frame × Link
  | 0, link => (.error .unfinished, link)
  | fuel + 1, link =>
    match link.recvLine waits with
    | (.error e, link) => (.error e, link)
    | (.ok head, link) =>
      if head = [] then readFrameFrom waits fuel link else readAfter waits head link

/-- A frame read is entered in the record. -/
def readFrame (waits : Bool) (link : Link) : Except DeckError Frame × Link :=
  match readFrameFrom waits (link.pending + 1) link with
  | (.error e, link) => (.error e, link)
  | (.ok frame, link) => (.ok frame, { link with log := .parsed frame :: link.log })

end Link

/-- `self._notifications.append`; a full backlog loses its oldest. -/
def keep (backlog : List Response) (resp : Response) : List Response :=
  (if backlog.length = notificationBacklog then backlog.tail else backlog) ++ [resp]

/-- `_read_response` on a connection and the notifications kept. -/
def readResponse (waits skipAsync : Bool) : ℕ → Link → List Response →
    Except DeckError Response × Link × List Response
  | 0, link, kept => (.error .unfinished, link, kept)
  | fuel + 1, link, kept =>
    match link.readFrame waits with
    | (.error e, link) => (.error e, link, kept)
    | (.ok (.malformed head), link) => (.error (.malformedHead head), link, kept)
    | (.ok (.response resp), link) =>
      if resp.isAsync && skipAsync then readResponse waits skipAsync fuel link (keep kept resp)
      else (.ok resp, link, kept)

/-- The non-blocking reads of `_drop_unrequested`: what the socket has ready. -/
def readReady : List Turn → Link → Except DeckError Unit × Link
  | [], link => (.error .peerClosed, link)
  | .chunk first others :: turns, link =>
    readReady turns ((link.turned turns).extended (first :: others))
  | .quiet :: turns, link => (.ok (), link.turned turns)
  | .late :: turns, link => (.ok (), link.turned turns)

/-- The responses that are complete in the buffer: notifications are kept, the others dropped. -/
def dropBuffered : ℕ → Link → List Response → Except DeckError Unit × Link × List Response
  | 0, link, kept => (.error .unfinished, link, kept)
  | fuel + 1, link, kept =>
    if 0x0a ∈ link.buf then
      match readResponse false false 1 link kept with
      | (.error e, link', kept') =>
        -- a partial response at the end stays
        if e = .timedOut then (.ok (), { link' with buf := link.buf }, kept')
        else (.error e, link', kept')
      | (.ok resp, link', kept') =>
        dropBuffered fuel link' (if resp.isAsync then keep kept' resp else kept')
    else (.ok (), link, kept)

/-- `_drop_unrequested` -/
def dropUnrequested (link : Link) (kept : List Response) :
    Except DeckError Unit × Link × List Response :=
  match readReady link.turns link with
  | (.error e, link) => (.error e, link, kept)
  | (.ok (), link) => dropBuffered (link.buf.length + 1) link kept

/-- The wait of `read_notifications` for one to come. -/
def awaitOne : ℕ → Link → List Response → Except DeckError Unit × Link × List Response
  | 0, link, kept => (.error .unfinished, link, kept)
  | fuel + 1, link, kept =>
    if kept ≠ [] then (.ok (), link, kept)
    else
      match link.turns with
      | [] => (.error .peerClosed, link, kept)
      | .late :: turns => (.ok (), link.turned turns, kept)
      | .quiet :: turns => awaitOne fuel (link.turned turns) kept
      | .chunk first others :: turns =>
        match dropUnrequested ((link.turned turns).extended (first :: others)) kept with
        | (.error e, link, kept) => (.error e, link, kept)
        | (.ok (), link, kept) => awaitOne fuel link kept

namespace Hyperdeck

/-- `close` -/
def close (hd : Hyperdeck) : Hyperdeck := { hd with sock := none }

/-- `connect`, with what the socket factory comes to and the turns of the connection. -/
def connect (hd : Hyperdeck) (dial : Bool) (turns : List Turn) :
    Except DeckError Unit × Hyperdeck :=
  if dial then
    -- `skip_async=False`: the greeting is a 5xx response too, and is returned at once
    match readResponse true false 1 { turns := turns } [] with
    | (.error e, _, kept) => (.error e, { sock := none, greeting := none, notifications := kept })
    | (.ok greeting, link, kept) =>
      if greeting.isError then
        (.error (.refused greeting.code greeting.text),
          { sock := none, greeting := none, notifications := kept })
      else if greeting.code ≠ 500 then
        (.error (.unexpectedGreeting greeting),
          { sock := none, greeting := none, notifications := kept })
      else (.ok (), { sock := some link, greeting := some greeting, notifications := kept })
  else (.error .cannotConnect, hd.close)

/-- `_send_line` -/
def sendLine (hd : Hyperdeck) (line : Line) : Except DeckError Unit :=
  if '\n' ∈ line ∨ '\r' ∈ line then .error (.lineBreak line)
  else if hd.sock.isNone then .error .notConnected
  else .ok ()

/-- The answer to a command that was sent. -/
def awaitAnswer (hd : Hyperdeck) : Except DeckError Response × Hyperdeck :=
  match hd.sock with
  | none => (.error .notConnected, hd)
  | some link =>
    match readResponse true true (link.pending + 1) link hd.notifications with
    | (.error e, link, kept) =>
      -- a timeout closes the connection
      if e = .timedOut then (.error e, { hd with sock := none, notifications := kept })
      else (.error e, { hd with sock := some link, notifications := kept })
    | (.ok resp, link, kept) => (.ok resp, { hd with sock := some link, notifications := kept })

/-- Drop what arrived unasked for, when there is a connection. -/
def dropped (hd : Hyperdeck) : Except DeckError Unit × Hyperdeck :=
  match hd.sock with
  | none => (.ok (), hd)
  | some link =>
    let (result, link, kept) := dropUnrequested link hd.notifications
    (result, { hd with sock := some link, notifications := kept })

/-- `request` -/
def request (hd : Hyperdeck) (command : Line) : Except DeckError Response × Hyperdeck :=
  match hd.dropped with
  | (.error e, hd) => (.error e, hd)
  | (.ok (), hd) =>
    match hd.sendLine command with
    | .error e => (.error e, hd)
    | .ok () => hd.awaitAnswer

/-- `read_notifications` -/
def readNotifications (hd : Hyperdeck) : Except DeckError (List Response) × Hyperdeck :=
  match hd.sock with
  | none => (.error .notConnected, hd)
  | some link =>
    match dropUnrequested link hd.notifications with
    | (.error e, link, kept) => (.error e, { hd with sock := some link, notifications := kept })
    | (.ok (), link, kept) =>
      match awaitOne (link.turns.length + 1) link kept with
      | (.error e, link, kept) => (.error e, { hd with sock := some link, notifications := kept })
      | (.ok (), link, kept) =>
        (.ok kept, { hd with
          sock := some { link with log := .delivered kept :: link.log }
          notifications := [] })

end Hyperdeck

end Bmdwire
