import Bmdwire.Program.Fields
import Bmdwire.Program.UdpPump

/-!
# The worker of a connection

`Connection` has one worker thread, which pumps the protocol's `loop` and drains the queue of
outgoing commands, and any number of threads that call `send`. This is one worker's life: from
`_connect_locked`, which starts it with an empty queue, to its end. Every queue operation and
every look at a flag is a step of its own.
-/

set_option autoImplicit false

namespace Bmdwire

open Udp (Hand UdpEvent)

/-! ## Draining the commands -/

/-- `BUDGET` -/
def drainBudget : ℕ := 1200

/-- The loop that puts the commands into batches, with the batch being filled and its size. -/
def fillBatches : List Outgoing → List (List Outgoing) → List Outgoing → ℕ →
    List (List Outgoing)
  | [], chunks, batch, _ => if batch = [] then chunks else chunks ++ [batch]
  | cmd :: rest, chunks, batch, total =>
    match cmd.getCommand with
    | none => fillBatches rest chunks batch total
    | some command =>
      let size := command.length
      if size > drainBudget then fillBatches rest chunks batch total
      else if batch ≠ [] ∧ total + size > drainBudget then
        fillBatches rest (chunks ++ [batch]) [cmd] size
      else fillBatches rest chunks (batch ++ [cmd]) (total + size)

/-- The packet that `send_raw` makes. -/
def rawPacket (data : Bytes) : Packet := { flags := flagReliable, data := some data }

/-- `_send_batch`, from the worker thread; an exception of `send_commands` drops the batch. -/
def sendBatch (socket : Socket) (now : Time) (batch : List Outgoing) (s : Udp) : Udp :=
  match sendCommands batch with
  | .sent payload => (s.sendPacket socket now false (rawPacket payload)).2
  | .structError | .valueError => s

/-- What `_drain_cmd_queue` does with the commands it has taken off the queue. -/
def sendPending (socket : Socket) (now : Time) (pending : List Outgoing) (s : Udp) : Udp :=
  (fillBatches pending [] [] 0).foldl (fun s batch => sendBatch socket now batch s) s

/-! ## The threads -/

/-- Where the worker is: in `receive_packet`, with a packet in its hands or without; handling
what that returned or raised; taking commands off the queue, and sending those it has taken; at
the tests between two rounds; or at its end. `ready` is whether the handshake is done. -/
inductive WorkerPhase
  | receiving (ready : Bool) (hand : Hand)
  | handling (ready : Bool)
  | draining (pending : List Outgoing)
  | sending (pending : List Outgoing)
  | resting
  | exited
deriving DecidableEq, Repr

/-- Where a thread is in `send`: outside, past the flag of the handshake, past `is_connected`,
or past the `put` of its command. -/
inductive SenderPhase
  | idle
  | flagged
  | connected
  | enqueued
deriving DecidableEq, Repr

/-- A `Connection` and its threads. `transport` is the transport of `_protocol`, `none` when
that is `None`. -/
structure ConnectionThreads where
  cmdQueue : List Outgoing
  transport : Option Udp
  handshakeDone : Bool
  worker : WorkerPhase
  senders : ℕ → SenderPhase

/-- What the threads do. Of the worker: a look of `receive_packet`; `loop` returns; the
handshake is done; `get_nowait`; the commands taken are sent; the next round; the end. Of a
thread that calls `send`: a look at a flag of `is_connected`, the `put`, the wake. And anything
that a thread, the worker too, does to the transport, but for taking off its receive queue. -/
inductive ConnectionEvent
  | look (now : Time)
  | handled
  | ready
  | getNowait
  | sendPending (now : Time)
  | nextRound
  | exit
  | isConnected (sender : ℕ)
  | put (sender : ℕ) (command : Outgoing)
  | wake (sender : ℕ)
  | other (a : Time × UdpEvent)

namespace ConnectionThreads

/-- A worker that has just been started. -/
def Starts (c : ConnectionThreads) : Prop :=
  c.cmdQueue = [] ∧ c.transport.isSome = true ∧ c.handshakeDone = false ∧
    c.worker = .receiving false none ∧ ∀ i, c.senders i = .idle

/-- `_drain_cmd_queue`, with nothing put on the queue meanwhile. -/
def drainCmdQueue (socket : Socket) (now : Time) (c : ConnectionThreads) : ConnectionThreads :=
  match c.transport with
  | none => c
  | some s => { c with cmdQueue := [], transport := some (sendPending socket now c.cmdQueue s) }

/-- One look of `receive_packet` on the worker. When it returns, or raises, `loop` goes on. -/
def lookOnce (socket : Socket) (now : Time) (aggressive ready : Bool) (hand : Hand)
    (s : Udp) (c : ConnectionThreads) : ConnectionThreads :=
  let r := s.pump socket now aggressive hand
  { c with
    transport := some r.2.2
    worker :=
      match r.1 with
      | .ok none => .receiving ready r.2.1
      | _ => .handling ready }

/-- `_wake_worker_for_drain`. -/
def wakeWorkerForDrain (c : ConnectionThreads) : ConnectionThreads :=
  { c with transport := c.transport.map fun s =>
      { s with threadRecvQueue := s.threadRecvQueue ++ [.wakeup] } }

def setSender (i : ℕ) (phase : SenderPhase) (c : ConnectionThreads) : ConnectionThreads :=
  { c with senders := Function.update c.senders i phase }

/-- One event. A thread that is elsewhere does nothing. -/
def step (socket : Socket) (aggressive : Bool) (c : ConnectionThreads) :
    ConnectionEvent → ConnectionThreads
  | .look now =>
    match c.worker, c.transport with
    | .receiving ready hand, some s => c.lookOnce socket now aggressive ready hand s
    | _, _ => c
  | .handled =>
    match c.worker with
    | .handling true => { c with worker := .draining [] }
    | .handling false => { c with worker := .receiving false none }
    | _ => c
  | .ready =>
    match c.worker with
    | .receiving false none => { c with handshakeDone := true, worker := .receiving true none }
    | _ => c
  | .getNowait =>
    match c.worker, c.cmdQueue with
    | .draining pending, [] => { c with worker := .sending pending }
    | .draining pending, command :: rest =>
      { c with cmdQueue := rest, worker := .draining (pending ++ [command]) }
    | _, _ => c
  | .sendPending now =>
    match c.worker with
    | .sending pending =>
      { c with
        transport := c.transport.map fun s => Bmdwire.sendPending socket now pending s
        worker := .resting }
    | _ => c
  | .nextRound =>
    match c.worker with
    | .resting => { c with worker := .receiving true none }
    | _ => c
  | .exit => { c with transport := none, handshakeDone := false, worker := .exited }
  | .isConnected i =>
    match c.senders i with
    | .idle => if c.handshakeDone then c.setSender i .flagged else c
    | .flagged => c.setSender i (if c.worker = .exited then .idle else .connected)
    | _ => c
  | .put i command =>
    match c.senders i with
    | .connected => { c with cmdQueue := c.cmdQueue ++ [command] }.setSender i .enqueued
    | _ => c
  | .wake i =>
    match c.senders i with
    | .enqueued => c.wakeWorkerForDrain.setSender i .idle
    | _ => c
  | .other a => { c with transport := c.transport.map fun s => s.step socket aggressive a }

/-- The receive queue is read by the worker alone. -/
def Possible (_ : ConnectionThreads) : ConnectionEvent → Prop
  | .other a => a.2 ≠ .receiveTurn
  | _ => True

/-- The connections of all runs. -/
def Reachable (socket : Socket) (aggressive : Bool) : ConnectionThreads → Prop :=
  Library.Reach Starts (step socket aggressive) Possible

/-- The worker waits in `receive_packet` for something to be put on the empty queue. -/
def Blocked (c : ConnectionThreads) : Prop :=
  c.worker = .receiving true none ∧
    ∃ s, c.transport = some s ∧ s.stashedPacket = none ∧ s.threadRecvQueue = []

end ConnectionThreads

end Bmdwire
