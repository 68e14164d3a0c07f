import Bmdwire.Interface.HubReads
import Bmdwire.Library.Runs

/-!
# Requests and answers on a Videohub connection

`ACK` and `NAK` name no request: the hub answers its requests in order, and a call takes the
first answer that comes for its own. That is right when no earlier request is still to be
answered as a request is sent (`Settled`); then success is the hub's `ACK` of that very request
(`success_acknowledged`). A call that times out leaves its answer to the next one
(`late_answer_taken`).
-/

set_option autoImplicit false

namespace Bmdwire

open Library (Every Reach)

/-! ## The hub -/

def isAck (block : Block) : Bool := headerOf block = "ACK".toList

def isNak (block : Block) : Bool := headerOf block = "NAK".toList

def isAnswer (block : Block) : Bool := isAck block || isNak block

/-- How many requests a record holds, and how many answers. -/
def requestsSent (log : List WireEvent) : ℕ :=
  log.countP fun
    | .sent _ => true
    | .took _ => false

def answersTaken (log : List WireEvent) : ℕ :=
  log.countP fun
    | .sent _ => false
    | .took block => isAnswer block

/-- An answer is to the first request that has none, and says what the hub decided on it. -/
def AnsweredInOrder (verdict : ℕ → Bool) : WireEvent → List WireEvent → Prop
  | .sent _, _ => True
  | .took block, past => isAnswer block = true →
      answersTaken past < requestsSent past ∧ isAck block = verdict (answersTaken past)

instance (verdict : ℕ → Bool) (event : WireEvent) (past : List WireEvent) :
    Decidable (AnsweredInOrder verdict event past) := by
  cases event <;> unfold AnsweredInOrder <;> infer_instance

/-- A hub that acknowledges the requests that `verdict` says, and refuses the others. -/
def Honest (verdict : ℕ → Bool) (log : List WireEvent) : Prop :=
  Every (AnsweredInOrder verdict) log

instance (verdict : ℕ → Bool) (log : List WireEvent) : Decidable (Honest verdict log) :=
  Every.decidable _ log

theorem Honest.of_append {verdict : ℕ → Bool} {new log : List WireEvent}
    (h : Honest verdict (new ++ log)) : Honest verdict log := by
  induction new with
  | nil => exact h
  | cons event new ih => exact ih h.2

theorem Honest.newest {verdict : ℕ → Bool} {new log : List WireEvent} {event : WireEvent}
    (h : Honest verdict (new ++ event :: log)) : AnsweredInOrder verdict event log :=
  Every.of_append h

@[simp] theorem requestsSent_took (block : Block) (log : List WireEvent) :
    requestsSent (.took block :: log) = requestsSent log := by
  simp [requestsSent]

@[simp] theorem requestsSent_sent (text : Line) (log : List WireEvent) :
    requestsSent (.sent text :: log) = requestsSent log + 1 := by
  simp [requestsSent]

@[simp] theorem answersTaken_sent (text : Line) (log : List WireEvent) :
    answersTaken (.sent text :: log) = answersTaken log := by
  simp [answersTaken]

theorem answersTaken_took (block : Block) (log : List WireEvent) :
    answersTaken (.took block :: log) = answersTaken log + if isAnswer block then 1 else 0 := by
  unfold answersTaken
  rw [List.countP_cons]

/-- A refusal is no block of the state. -/
theorem applyBlock_of_nak {block : Block} (h : isNak block = true) (s : HubState) :
    applyBlock s block = s := by
  have hheader : headerOf block = "NAK".toList := by simpa [isNak] using h
  simp [applyBlock, hheader]

theorem isAck_of_nak {block : Block} (h : isNak block = true) : isAck block = false := by
  have hheader : headerOf block = "NAK".toList := by simpa [isNak] using h
  simp [isAck, hheader]

namespace Videohub

/-! ## One call -/

/-- What awaiting an answer does to a block. -/
theorem answerBlock_cases (acked : HubState → HubState) (refused : Option HubError) (s : HubState)
    (block : Block) :
    (isAck block = true ∧ answerBlock acked refused s block = (acked s, some (.ok ()))) ∨
      (isAck block = false ∧ isNak block = true ∧
        ∃ e, answerBlock acked refused s block = (s, some (.error e))) ∨
      (isAck block = false ∧ answerBlock acked refused s block = (applyBlock s block, none)) := by
  unfold answerBlock isAck isNak
  by_cases hack : headerOf block = "ACK".toList
  · exact .inl ⟨by simp [hack], by rw [if_pos hack]⟩
  · rw [if_neg hack]
    cases refused with
    | none => exact .inr (.inr ⟨decide_eq_false hack, rfl⟩)
    | some e =>
      by_cases hnak : headerOf block = "NAK".toList
      · exact .inr (.inl ⟨decide_eq_false hack, decide_eq_true hnak, e, if_pos hnak⟩)
      · exact .inr (.inr ⟨decide_eq_false hack, if_neg hnak⟩)

/-- The wait for the answer to request number `n`, when it is the next to be answered or was
refused: success is its acknowledgement, and without that only pushed blocks are applied. -/
theorem reading_answer {verdict : ℕ → Bool} {acked : HubState → HubState}
    {refused : Option HubError} {timedOut : HubError} {vh vh' : Videohub}
    {result : Except HubError Unit} {n : ℕ}
    (h : Reading (answerBlock acked refused) (fun _ => .error timedOut) vh result vh')
    (hhonest : Honest verdict vh'.log) (hsent : requestsSent vh.log = n + 1)
    (htaken : answersTaken vh.log = n ∨ answersTaken vh.log = n + 1 ∧ verdict n = false) :
    (result = .ok () → verdict n = true) ∧
      (verdict n = false → ∀ news, takenOf vh'.log = takenOf vh.log ++ news →
        vh'.state = news.foldl applyBlock vh.state) := by
  induction h with
  | @closed vh wire wire' buf' hsock hkept hlog =>
    refine ⟨by simp, fun _ news hnews => ?_⟩
    have hnil : news = [] := by
      have hsame : takenOf wire'.log = takenOf vh.log := by rw [hlog, log_of_sock hsock]
      exact List.append_cancel_left ((hnews.symm.trans hsame).trans (List.append_nil _).symm)
    rw [hnil]
    rfl
  | @expired vh wire wire' buf' hsock hkept hlog hnext =>
    refine ⟨by simp, fun _ news hnews => ?_⟩
    have hnil : news = [] := by
      have hsame : takenOf wire'.log = takenOf vh.log := by rw [hlog, log_of_sock hsock]
      exact List.append_cancel_left ((hnews.symm.trans hsame).trans (List.append_nil _).symm)
    rw [hnil]
    rfl
  | @ended vh wire wire' buf' block state result hsock hkept hlog hhandle =>
    have hlogs : log { vh with sock := some wire', buf := buf', state := state } =
        .took block :: vh.log := by
      rw [log_of_sock hsock]
      exact hlog
    rw [hlogs] at hhonest
    have hanswer := hhonest.1
    rcases answerBlock_cases acked refused vh.state block with
      ⟨hack, heq⟩ | ⟨-, hnak, e, heq⟩ | ⟨-, heq⟩
    · -- an acknowledgement: it is the answer to the request
      obtain ⟨hless, hverdict⟩ := hanswer (by simp [isAnswer, hack])
      have hn : answersTaken vh.log = n := by omega
      rw [hn, hack] at hverdict
      exact ⟨fun _ => hverdict.symm, fun hfalse => absurd (hverdict.trans hfalse) (by simp)⟩
    · rw [heq] at hhandle
      obtain ⟨rfl, hresult⟩ := Prod.mk.inj hhandle
      refine ⟨fun hok => ?_, fun _ news hnews => ?_⟩
      · rw [hok] at hresult
        exact absurd hresult (by simp)
      · rw [hlogs, takenOf_took] at hnews
        rw [← List.append_cancel_left hnews]
        exact (applyBlock_of_nak hnak vh.state).symm
    · rw [heq] at hhandle
      exact absurd (Prod.mk.inj hhandle).2 (by simp)
  | @again vh vh' wire wire' buf' block state result hsock hkept hlog hhandle hrest ih =>
    have hlogs : log { vh with sock := some wire', buf := buf', state := state } =
        .took block :: vh.log := by
      rw [log_of_sock hsock]
      exact hlog
    obtain ⟨-, bs, hbs⟩ := hrest.connected
    rw [hlogs] at hbs
    have hanswer : AnsweredInOrder verdict (.took block) vh.log := by
      rw [hbs] at hhonest
      exact hhonest.newest
    rcases answerBlock_cases acked refused vh.state block with
      ⟨-, heq⟩ | ⟨-, -, e, heq⟩ | ⟨hack, heq⟩
    · rw [heq] at hhandle
      exact absurd (Prod.mk.inj hhandle).2 (by simp)
    · rw [heq] at hhandle
      exact absurd (Prod.mk.inj hhandle).2 (by simp)
    · rw [heq] at hhandle
      obtain ⟨rfl, -⟩ := Prod.mk.inj hhandle
      have hcount : answersTaken (.took block :: vh.log) = n ∨
          answersTaken (.took block :: vh.log) = n + 1 ∧ verdict n = false := by
        rw [answersTaken_took]
        by_cases hnak : isAnswer block = true
        · -- a refusal that the call takes no notice of
          obtain ⟨hless, hverdict⟩ := hanswer hnak
          have hn : answersTaken vh.log = n := by omega
          rw [hn, hack] at hverdict
          exact .inr ⟨by rw [if_pos hnak, hn], hverdict.symm⟩
        · rw [if_neg hnak]
          exact htaken
      have hsent' : requestsSent (.took block :: vh.log) = n + 1 := by
        rw [requestsSent_took, hsent]
      rw [hlogs] at ih
      obtain ⟨hok, hstate⟩ := ih hhonest hsent' hcount
      refine ⟨hok, fun hfalse news hnews => ?_⟩
      obtain ⟨later, hlater⟩ : ∃ later, takenOf vh'.log = takenOf (.took block :: vh.log) ++ later := by
        rw [hbs]
        refine ⟨bs.reverse, ?_⟩
        unfold takenOf
        rw [List.filterMap_append, List.reverse_append]
        congr 1
        rw [List.filterMap_map]
        congr 1
        exact List.filterMap_some
      rw [hstate hfalse later hlater]
      rw [hlater, takenOf_took, List.append_assoc] at hnews
      rw [← List.append_cancel_left hnews]
      rfl

/-! ## A conversation -/

def isRequest : Call → Bool
  | .route _ _ => true
  | .setInputLabel _ _ => true
  | .setOutputLabel _ _ => true
  | .ping => true
  | _ => false

/-- A call that fails its checks changes nothing; else it sends a request and awaits the
answer. -/
def Requests (vh : Videohub) (checked : Except HubError Unit)
    (outcome : Except HubError Unit × Videohub) : Prop :=
  (∃ e, outcome = (.error e, vh)) ∨
    checked = .ok () ∧ ∃ text acked refused timedOut,
      outcome = request text acked refused timedOut vh

theorem setLabel_requests (block : String) (table : HubState → Library.Dict ℤ String)
    (store : HubState → Library.Dict ℤ String → HubState) (count : Except HubError ℤ) (index : ℤ)
    (label : String) (vh : Videohub) :
    Requests vh (checkLabel block count index label)
      (setLabel block table store count index label vh) := by
  unfold setLabel
  cases checkLabel block count index label with
  | error e => exact .inl ⟨e, rfl⟩
  | ok u => exact .inr ⟨rfl, _, _, _, _, rfl⟩

theorem route_requests (dest src : ℤ) (vh : Videohub) :
    Requests vh (checkRoute dest src vh.state) (route dest src vh) := by
  unfold route
  cases checkRoute dest src vh.state with
  | error e => exact .inl ⟨e, rfl⟩
  | ok u => exact .inr ⟨rfl, _, _, _, _, rfl⟩

theorem perform_requests (vh : Videohub) {call : Call} (hcall : isRequest call = true) :
    Requests vh (check vh.state call) (perform vh call) := by
  cases call with
  | connect first second turns => exact absurd hcall (by simp [isRequest])
  | close => exact absurd hcall (by simp [isRequest])
  | state => exact absurd hcall (by simp [isRequest])
  | route dest src => exact route_requests dest src vh
  | setInputLabel index label =>
    simp only [check, perform, setInputLabel]
    apply setLabel_requests
  | setOutputLabel index label =>
    simp only [check, perform, setOutputLabel]
    apply setLabel_requests
  | ping => exact .inr ⟨rfl, _, _, _, _, rfl⟩

/-- A request that is sent is the newest entry of the record as the wait begins. -/
theorem request_reading (text : Line) (acked : HubState → HubState) (refused : Option HubError)
    (timedOut : HubError) {vh : Videohub} (hconn : vh.Connected) :
    ∃ sent : Videohub, sent.log = .sent text :: vh.log ∧ sent.state = vh.state ∧
      takenOf sent.log = takenOf vh.log ∧
      Reading (answerBlock acked refused) (fun _ => .error timedOut) sent
        (request text acked refused timedOut vh).1 (request text acked refused timedOut vh).2 := by
  obtain ⟨wire, hsock, hkept⟩ := hconn
  refine ⟨{ vh with sock := some { wire with log := .sent text :: wire.log } }, ?_, rfl, ?_, ?_⟩
  · rw [log_of_sock hsock]
    rfl
  · rw [log_of_sock hsock]
    rfl
  · unfold request send
    rw [hsock]
    exact readLoop_reading _ _ rfl hkept

/-- The calls that leave the connection up. -/
def stays : Call → Bool
  | .connect _ _ _ => false
  | .close => false
  | _ => true

/-- What a call does to the connection and its record. -/
theorem perform_connected {vh : Videohub} (hconn : vh.Connected) {call : Call}
    (hstays : stays call = true) :
    (perform vh call).2.Connected ∧ ∃ new, (perform vh call).2.log = new ++ vh.log := by
  by_cases hcall : isRequest call = true
  · rcases perform_requests vh hcall with ⟨e, heq⟩ | ⟨-, text, acked, refused, timedOut, heq⟩
    · rw [heq]
      exact ⟨hconn, [], rfl⟩
    · obtain ⟨sent, hlog, -, -, hread⟩ := request_reading text acked refused timedOut
        hconn
      obtain ⟨hconn', bs, hbs⟩ := hread.connected
      rw [heq]
      refine ⟨hconn', bs.map .took ++ [.sent text], ?_⟩
      rw [hbs, hlog, List.append_assoc]
      rfl
  · cases call with
    | state =>
      obtain ⟨wire, hsock, hkept⟩ := hconn
      have hread := readLoop_reading (fun s block => (applyBlock s block, none)) (fun _ => .ok ())
        hsock hkept
      obtain ⟨hconn', bs, hbs⟩ := hread.connected
      have hafter : (perform vh .state).2 = vh.drain.2 := by
        unfold perform getState
        cases vh.drain with
        | mk result vh' => cases result <;> rfl
      rw [hafter]
      exact ⟨hconn', _, hbs⟩
    | connect first second turns => exact absurd hstays (by simp [stays])
    | close => exact absurd hstays (by simp [stays])
    | route dest src => exact absurd rfl hcall
    | setInputLabel index label => exact absurd rfl hcall
    | setOutputLabel index label => exact absurd rfl hcall
    | ping => exact absurd rfl hcall

/-- A call, the client before and after it, and what it raised. -/
structure Outcome where
  call : Call
  before : Videohub
  result : Except HubError Unit
  after : Videohub

/-- A client on one connection, and its calls there, the newest first. -/
structure Conversation where
  hub : Videohub
  outcomes : List Outcome := []

/-- One more call. -/
def Conversation.step (c : Conversation) (call : Call) : Conversation where
  hub := (perform c.hub call).2
  outcomes := ⟨call, c.hub, (perform c.hub call).1, (perform c.hub call).2⟩ :: c.outcomes

/-- A conversation begins with a successful `connect`. -/
def Begins (c : Conversation) : Prop :=
  ∃ vh first second turns, (connect vh first second turns).1 = .ok () ∧
    c = ⟨(connect vh first second turns).2, []⟩

/-- Nothing is sent while an earlier request is still to be answered. -/
def Settled (c : Conversation) (call : Call) : Prop :=
  stays call = true ∧ (isRequest call = true → check c.hub.state call = .ok () →
    answersTaken c.hub.log = requestsSent c.hub.log)

/-- A request succeeds only by the hub's acknowledgement of it, and without that it applies the
pushed blocks it reads and changes nothing else. -/
def Fair (verdict : ℕ → Bool) (o : Outcome) : Prop :=
  isRequest o.call = true →
    (o.result = .ok () → verdict (requestsSent o.before.log) = true) ∧
    (verdict (requestsSent o.before.log) = false →
      ∀ news, takenOf o.after.log = takenOf o.before.log ++ news →
        o.after.state = news.foldl applyBlock o.before.state)

/-- One call, sent when all earlier ones are answered. -/
theorem step_fair {verdict : ℕ → Bool} {c : Conversation} {call : Call} (hconn : c.hub.Connected)
    (hsettled : Settled c call) (hhonest : Honest verdict (c.step call).hub.log) :
    Fair verdict ⟨call, c.hub, (perform c.hub call).1, (perform c.hub call).2⟩ := by
  intro hcall
  rcases perform_requests c.hub hcall with ⟨e, heq⟩ | ⟨hcheck, text, acked, refused, timedOut, heq⟩
  · simp only [heq]
    refine ⟨by simp, fun _ news hnews => ?_⟩
    have hnil := List.append_cancel_left ((List.append_nil _).trans hnews)
    rw [← hnil]
    rfl
  · have hcount := hsettled.2 hcall hcheck
    obtain ⟨sent, hlog, hstate, htaken, hread⟩ := request_reading text acked refused
      timedOut hconn
    simp only [Conversation.step, heq] at hhonest ⊢
    have hfair := reading_answer hread hhonest (n := requestsSent c.hub.log)
      (by rw [hlog, requestsSent_sent]) (.inl (by rw [hlog, answersTaken_sent, hcount]))
    rw [htaken, hstate] at hfair
    exact hfair

/-- In a conversation in which nothing is sent while an earlier request is still to be answered,
every call is fair. -/
theorem success_acknowledged {verdict : ℕ → Bool} {c : Conversation}
    (h : Reach Begins Conversation.step Settled c) (hhonest : Honest verdict c.hub.log) :
    ∀ o ∈ c.outcomes, Fair verdict o := by
  have hinv : c.hub.Connected ∧
      (Honest verdict c.hub.log → ∀ o ∈ c.outcomes, Fair verdict o) := by
    refine h.invariant (P := fun c => c.hub.Connected ∧
      (Honest verdict c.hub.log → ∀ o ∈ c.outcomes, Fair verdict o)) ?_ ?_
    · rintro c ⟨vh, first, second, turns, hok, rfl⟩
      exact ⟨connect_connected hok, fun _ o ho => absurd ho List.not_mem_nil⟩
    · rintro c call - ⟨hconn, hfair⟩ hsettled
      obtain ⟨hconn', new, hlog⟩ := perform_connected hconn hsettled.1
      refine ⟨hconn', fun hhonest' o ho => ?_⟩
      rcases List.mem_cons.mp ho with rfl | ho
      · exact step_fair hconn hsettled hhonest'
      · refine hfair ?_ o ho
        unfold Conversation.step at hhonest'
        rw [hlog] at hhonest'
        exact hhonest'.of_append
  exact hinv.2 hhonest

/-- A hub that acknowledges the first request and refuses the others. -/
def firstOnly (n : ℕ) : Bool := n = 0

/-- A conversation with a hub that has one output, and whose turns come after its preamble. -/
def talk (turns : List Turn) (calls : List Call) : Conversation :=
  Library.run Conversation.step ⟨((after "hub" []).connect true true
    (piece "VIDEO OUTPUT ROUTING:\n0 0\n\nEND PRELUDE:\n\n" :: turns)).2, []⟩ calls

theorem success_acknowledged_route :
    (talk [piece "ACK\n\n"] [.route 0 1]).outcomes.length = 1 ∧
      ∀ o ∈ (talk [piece "ACK\n\n"] [.route 0 1]).outcomes, Fair firstOnly o :=
  ⟨by decide, success_acknowledged
    (.next (.start ⟨after "hub" [], true, true, _, by decide, rfl⟩)
      ⟨by decide, fun _ _ => by decide⟩)
    (by decide)⟩

/-- The answer to a route that timed out comes while the next one awaits its own, and the hub
refuses that one: it succeeds, and is entered. -/
theorem late_answer_taken :
    let c := talk [.quiet, piece "ACK\n\n", piece "NAK\n\n"] [.route 0 1, .route 0 2]
    Honest firstOnly c.hub.log ∧ ¬ ∀ o ∈ c.outcomes, Fair firstOnly o := by
  intro c
  refine ⟨by decide, fun hfair => ?_⟩
  have hlast : ∃ o, c.outcomes.head? = some o ∧ isRequest o.call = true ∧ o.result = .ok () ∧
      requestsSent o.before.log = 1 := ⟨_, rfl, by decide⟩
  obtain ⟨o, ho, hcall, hok, hsent⟩ := hlast
  have hack := (hfair o (List.mem_of_mem_head? ho) hcall).1 hok
  rw [hsent] at hack
  exact absurd hack (by decide)

end Videohub

end Bmdwire
