import BlueBird.Connection.Async
import BlueBird.Connection.ReadBuffer
import BlueBird.Http.Reset
import BlueBird.Http.ResponseFraming

/-! How a response comes from the connection's buffer to the client. -/

namespace BlueBird.Net

open BlueBird.Runtime (Events eventRead)
open BlueBird.Http (HttpParser ParseStatus BbResponse httpParserCreateResponse httpParserFeed httpParserGetResponse parserFeeder
  responseFromParsed freshCore Answered Whole Uncut)

/-- What `bb_client_t` has for a response that is being read. -/
structure ClientRead where
  conn : Connection := {}
  readWatchEvents : Events := eventRead
  httpParser : HttpParser := httpParserCreateResponse
  parsedOffset : Nat := 0

/-- What the client has been told: nothing yet, an error, or success with a response. -/
inductive ClientTurn where
  | waiting | offsetInvalid | parseFailed | disconnected
  | failed (outcome : ReadOutcome)
  | badResponse (msg : String)
  | success (res : BbResponse)
  deriving DecidableEq

namespace ClientRead

def feed (data : ClientRead) : ParseStatus × ClientRead :=
  let fed := httpParserFeed data.httpParser (data.conn.buffer.drop data.parsedOffset)
  (fed.1, { data with httpParser := fed.2, parsedOffset := data.parsedOffset + fed.2.lastConsumed })

def answer (data : ClientRead) : ClientTurn :=
  match httpParserGetResponse data.httpParser with
  | some parsed => .success (responseFromParsed parsed)
  | none => .parseFailed

/-- `bb_client_receive`; with no call left the transport is still waited for. -/
def receive (data : ClientRead) (calls : List ReadCall) : ClientRead × ClientTurn :=
  let fed := data.feed
  match fed.1 with
  | .complete => (fed.2, fed.2.answer)
  | .error => (fed.2, .badResponse fed.2.httpParser.errorMsg)
  | .incomplete =>
    match calls with
    | [] => (fed.2, .waiting)
    | call :: calls =>
      let data := { fed.2 with conn := call.perform fed.2.conn }
      if call.outcome fed.2.conn = .success then data.receive calls else (data, .failed (call.outcome fed.2.conn))

/-- `_client_read_step` -/
def readStep (data : ClientRead) : ClientRead × ClientTurn :=
  if data.parsedOffset > data.conn.buffer.length then (data, .offsetInvalid)
  else
    let fed := data.feed
    match fed.1 with
    | .incomplete => (fed.2, .waiting)
    | .error => (fed.2, .badResponse fed.2.httpParser.errorMsg)
    | .complete => (fed.2, fed.2.answer)

/-- `_bb_read_task` of the client, with a watcher that can always be registered again. -/
def readTask (data : ClientRead) (call : ReadCall) : ClientRead × ClientTurn :=
  let outcome := call.outcome data.conn
  let data := { data with conn := call.perform data.conn }
  match outcome with
  | .connectionClosed => (data, .disconnected)
  | .success =>
    if data.conn.desiredRead ≠ data.readWatchEvents then ({ data with readWatchEvents := data.conn.desiredRead }, .waiting)
    else if data.conn.state = .handshake then (data, .waiting)
    else data.readStep
  | failure => (data, .failed failure)

/-- The read tasks of `bb_client_execute_async`, one event after the other. -/
def receiveAsync (data : ClientRead) : List ReadCall → ClientRead × ClientTurn
  | [] => (data, .waiting)
  | call :: calls =>
    let turn := data.readTask call
    if turn.2 = .waiting then turn.1.receiveAsync calls else turn

/-- The response is open: some of what is in the buffer went through the parser, which is not done. -/
structure Reading (data : ClientRead) : Prop where
  parsed : ∃ front back, data.conn.buffer = front ++ back ∧ data.parsedOffset = front.length ∧
    data.httpParser.toParserCore = (parserFeeder.feed (freshCore true) front).1 ∧
    parserFeeder.running (parserFeeder.feed (freshCore true) front).1 = true

theorem reads_of_feeder {bytes : Bytes} (complete : (parserFeeder.feed (freshCore true) bytes).1.status = .complete) :
    ((freshCore true).reads bytes).1.status = .complete ∧
      ((freshCore true).reads bytes).1.response = (parserFeeder.feed (freshCore true) bytes).1.response := ⟨complete, rfl⟩

theorem feeder_responseMode (bytes : Bytes) : (parserFeeder.feed (freshCore true) bytes).1.responseMode = true :=
  Http.feed_responseMode (freshCore true) bytes

theorem feed_spec {data : ClientRead} (reading : data.Reading) :
    data.feed.2.conn = data.conn ∧ (data.feed.1 = .incomplete → data.feed.2.Reading) ∧
      ∀ res, data.feed.1 = .complete → data.feed.2.answer = .success res → Answered data.conn.buffer res := by
  rcases reading.parsed with ⟨front, back, buffer, offset, core, running⟩
  rcases Http.httpParserFeed_behind core running back with ⟨status, after, eaten⟩
  have left : data.conn.buffer.drop data.parsedOffset = back := by rw [buffer, offset, List.drop_left]
  rw [← buffer] at status after eaten
  unfold feed
  rw [left]
  refine ⟨rfl, fun waiting => ⟨data.conn.buffer, [], (List.append_nil _).symm, ?_, after, ?_⟩, fun res complete answered => ?_⟩
  · have going : parserFeeder.running (parserFeeder.feed (freshCore true) data.conn.buffer).1 = true :=
      (Http.parserFeeder_running _).mpr (status.symm.trans waiting)
    show data.parsedOffset + (httpParserFeed data.httpParser back).2.lastConsumed = _
    rw [eaten going, offset, buffer, List.length_append]
  · exact (Http.parserFeeder_running _).mpr (status.symm.trans waiting)
  · have done := status.symm.trans complete
    rcases reads_of_feeder done with ⟨complete_, response⟩
    refine ⟨complete_, ?_⟩
    have mode : (httpParserFeed data.httpParser back).2.responseMode = true := by
      rw [after]
      exact feeder_responseMode data.conn.buffer
    have state : (httpParserFeed data.httpParser back).2.state = .stateComplete := by
      rw [after]
      exact Http.status_complete.mp done
    have got : httpParserGetResponse (httpParserFeed data.httpParser back).2 =
        some (httpParserFeed data.httpParser back).2.response := by
      unfold httpParserGetResponse
      rw [if_neg]
      rintro (other | open_)
      · rw [mode] at other
        cases other
      · exact open_ state
    have handed : ClientTurn.success (responseFromParsed (httpParserFeed data.httpParser back).2.response) = .success res := by
      rw [← answered]
      unfold answer
      rw [got]
    rw [response, ← after]
    exact (ClientTurn.success.inj handed).symm

theorem reading_grows {data : ClientRead} (reading : data.Reading) {conn : Connection} (grown : data.conn.buffer <+: conn.buffer) :
    Reading { data with conn } := by
  rcases reading.parsed with ⟨front, back, buffer, offset, core, running⟩
  rcases grown with ⟨more, grown⟩
  refine ⟨front, back ++ more, ?_, offset, core, running⟩
  rw [← grown, buffer, List.append_assoc]

theorem perform_prefix {conn : Connection} (fits : conn.Fits) {call : ReadCall} {calls : List ReadCall}
    (legal : ∀ r ∈ transportReads conn (call :: calls), r.Legal) :
    conn.buffer <+: (call.perform conn).buffer ∧ (call.perform conn).Fits ∧
      ∀ r ∈ transportReads (call.perform conn) calls, r.Legal := by
  rcases List.forall_mem_append.mp legal with ⟨here, later⟩
  have exactly_ := Connection.read_exactly call.handshake call.turns fits here
  have buffer : (call.perform conn).buffer = conn.buffer ++ delivered (conn.reads call.handshake call.turns) := exactly_.buffer
  exact ⟨buffer ▸ List.prefix_append .., exactly_.fits, later⟩

theorem afterReads_grows (calls : List ReadCall) {conn : Connection} (fits : conn.Fits)
    (legal : ∀ r ∈ transportReads conn calls, r.Legal) : conn.buffer <+: (afterReads conn calls).buffer := by
  rw [(reads_exactly calls fits legal).1]
  exact List.prefix_append ..

theorem receive_answered (calls : List ReadCall) {data : ClientRead} (reading : data.Reading) (fits : data.conn.Fits)
    (legal : ∀ r ∈ transportReads data.conn calls, r.Legal) {res : BbResponse} (success : (data.receive calls).2 = .success res) :
    ∃ part, part <+: (afterReads data.conn calls).buffer ∧ Answered part res := by
  induction calls generalizing data with
  | nil =>
    rcases feed_spec reading with ⟨_, _, completes⟩
    unfold receive at success
    cases status : data.feed.1 with
    | complete =>
      simp only [status] at success
      exact ⟨data.conn.buffer, List.prefix_rfl, completes res status success⟩
    | error => simp only [status, reduceCtorEq] at success
    | incomplete => simp only [status, reduceCtorEq] at success
  | cons call calls ih =>
    rcases feed_spec reading with ⟨conn, goes, completes⟩
    rcases perform_prefix fits legal with ⟨grown, still, later⟩
    unfold receive at success
    cases status : data.feed.1 with
    | complete =>
      simp only [status] at success
      exact ⟨data.conn.buffer, afterReads_grows (call :: calls) fits legal, completes res status success⟩
    | error => simp only [status, reduceCtorEq] at success
    | incomplete =>
      simp only [status, conn] at success
      by_cases more : call.outcome data.conn = .success
      · rw [if_pos more] at success
        have next : Reading { data.feed.2 with conn := call.perform data.conn } :=
          reading_grows (goes status) (by rw [conn]; exact grown)
        exact ih next still later success
      · rw [if_neg more] at success
        cases success

theorem readStep_answered {data : ClientRead} (reading : data.Reading) :
    data.readStep.1.conn = data.conn ∧ (data.readStep.2 = .waiting → data.readStep.1.Reading) ∧
      ∀ res, data.readStep.2 = .success res → Answered data.conn.buffer res := by
  rcases feed_spec reading with ⟨conn, goes, completes⟩
  unfold readStep
  by_cases invalid : data.parsedOffset > data.conn.buffer.length
  · rw [if_pos invalid]
    exact ⟨rfl, (fun waiting => by cases waiting), fun res success => by cases success⟩
  · rw [if_neg invalid]
    cases status : data.feed.1 with
    | incomplete =>
      simp only [status]
      exact ⟨conn, fun _ => goes status, fun res success => by cases success⟩
    | error =>
      simp only [status]
      exact ⟨conn, (fun waiting => by cases waiting), fun res success => by cases success⟩
    | complete =>
      simp only [status]
      refine ⟨conn, fun waiting => ?_, fun res success => completes res status success⟩
      unfold answer at waiting
      cases got : httpParserGetResponse data.feed.2.httpParser with
      | none =>
        rw [got] at waiting
        cases waiting
      | some parsed =>
        rw [got] at waiting
        cases waiting

theorem readTask_answered {data : ClientRead} (reading : data.Reading) {call : ReadCall}
    (grown : data.conn.buffer <+: (call.perform data.conn).buffer) :
    (data.readTask call).1.conn = call.perform data.conn ∧ ((data.readTask call).2 = .waiting → (data.readTask call).1.Reading) ∧
      ∀ res, (data.readTask call).2 = .success res → Answered (call.perform data.conn).buffer res := by
  have next : Reading { data with conn := call.perform data.conn } := reading_grows reading grown
  have step := readStep_answered next
  unfold readTask
  cases outcome : call.outcome data.conn with
  | success =>
    dsimp only
    by_cases turned : (call.perform data.conn).desiredRead ≠ data.readWatchEvents
    · rw [if_pos turned]
      exact ⟨rfl, fun _ => ⟨next.parsed⟩, fun res success => by cases success⟩
    · rw [if_neg turned]
      by_cases waits : (call.perform data.conn).state = .handshake
      · rw [if_pos waits]
        exact ⟨rfl, fun _ => next, fun res success => by cases success⟩
      · rw [if_neg waits]
        exact step
  | _ => exact ⟨rfl, (fun waiting => by cases waiting), fun res success => by cases success⟩

theorem receiveAsync_answered (calls : List ReadCall) {data : ClientRead} (reading : data.Reading) (fits : data.conn.Fits)
    (legal : ∀ r ∈ transportReads data.conn calls, r.Legal) {res : BbResponse}
    (success : (data.receiveAsync calls).2 = .success res) :
    ∃ part, part <+: (afterReads data.conn calls).buffer ∧ Answered part res := by
  induction calls generalizing data with
  | nil => cases success
  | cons call calls ih =>
    rcases perform_prefix fits legal with ⟨grown, still, later⟩
    rcases readTask_answered reading grown with ⟨conn, goes, completes⟩
    unfold receiveAsync at success
    by_cases waiting : (data.readTask call).2 = .waiting
    · rw [if_pos waiting] at success
      rw [← conn] at still later
      rcases ih (goes waiting) still later success with ⟨part, front, answered⟩
      rw [conn] at front
      exact ⟨part, front, answered⟩
    · rw [if_neg waiting] at success
      exact ⟨_, afterReads_grows calls still later, completes res success⟩

end ClientRead

/-! ## Success and the stream -/

theorem created_reading (conn : Connection) : ClientRead.Reading { conn } where
  parsed := ⟨[], conn.buffer, rfl, rfl, rfl, rfl⟩

/-- Whatever a client is told succeeded, waiting for it or called back, is what its parser completed on a
    part of what the server sent. -/
theorem client_answered {conn : Connection} (empty : conn.buffer = []) (capacity : conn.bufferCapacity = 4096)
    {calls : List ReadCall} (legal : ∀ r ∈ transportReads conn calls, r.Legal) {res : BbResponse}
    (success : (ClientRead.receive { conn } calls).2 = .success res ∨ (ClientRead.receiveAsync { conn } calls).2 = .success res) :
    ∃ part, part <+: delivered (transportReads conn calls) ∧ Answered part res := by
  have fits : conn.Fits := by
    constructor
    · rw [empty, capacity]
      decide
    · rw [capacity]
      decide
  have buffer := (reads_exactly calls fits legal).1
  rw [empty, List.nil_append] at buffer
  rw [← buffer]
  rcases success with sync | called
  · exact ClientRead.receive_answered calls (created_reading conn) fits legal sync
  · exact ClientRead.receiveAsync_answered calls (created_reading conn) fits legal called

/-- A response that a client is told it has is the one that the stream frames exactly where the stream begins
    with its final response, and that one has no body, or a field that frames it, or nothing behind its head. -/
theorem client_whole_iff {conn : Connection} (empty : conn.buffer = []) (capacity : conn.bufferCapacity = 4096)
    {calls : List ReadCall} (legal : ∀ r ∈ transportReads conn calls, r.Legal) {stream : Bytes}
    (sent : delivered (transportReads conn calls) <+: stream) {res : BbResponse}
    (success : (ClientRead.receive { conn } calls).2 = .success res ∨ (ClientRead.receiveAsync { conn } calls).2 = .success res) :
    Whole stream res ↔ Uncut stream := by
  rcases client_answered empty capacity legal success with ⟨part, front, answered⟩
  exact Http.answered_whole_iff answered (front.trans sent)

def okHead : Bytes := ascii "HTTP/1.1 200 OK" ++ [13, 10] ++ ascii "Content-Length: 2" ++ [13, 10, 13, 10]

def okCalls : List ReadCall :=
  [{ turns := [{ answer := .ok okHead }, { answer := .wantRead }] }, { turns := [{ answer := .ok (ascii "ok") }, { answer := .closed }] }]

theorem okCalls_delivered : delivered (transportReads {} okCalls) = okHead ++ ascii "ok" := by decide +kernel

def okResponse : BbResponse where
  msg := {
    startLine := ascii "HTTP/1.1 200 OK"
    headers := [(ascii "Content-Length", ascii "2")]
    body := ascii "ok" }

theorem okCalls_received : (ClientRead.receive {} okCalls).2 = .success okResponse := by decide +kernel

theorem client_whole_iff_ok : Whole (okHead ++ ascii "ok") okResponse ↔ Uncut (okHead ++ ascii "ok") :=
  client_whole_iff rfl rfl (by decide +kernel) ⟨[], by rw [List.append_nil, okCalls_delivered]⟩ (Or.inl okCalls_received)

/-! ## A response that is cut -/

theorem bareHead_unbroken : ∀ line ∈ [ascii "HTTP/1.1 200 OK"], ∀ c ∈ line, c ≠ ch '\r' ∧ c ≠ ch '\n' :=
  List.forall_mem_singleton.mpr (Http.forall_of_all (by decide))

/-- A head without a framing field. -/
def bareHead : Http.Head where
  start := ascii "HTTP/1.1 200 OK"
  fields := []
  unbroken := bareHead_unbroken
  nonempty := fun _ member => absurd member List.not_mem_nil

theorem bareHead_opens : bareHead.Opens { versionMajor := 1, versionMinor := 1, statusCode := 200, reason := ascii "OK" } := by
  unfold Http.Head.Opens
  decide +kernel

theorem not_uncut_bare {rest : Bytes} (some_ : rest ≠ []) : ¬ Uncut (bareHead.bytes ++ rest) := by
  rintro ⟨head, tail, start, split, opens, _, ends⟩
  rcases Http.head_unique split with ⟨line, fields, same⟩
  have read := Http.opens_unique line bareHead_opens opens
  have bare : head.headers = [] := congrArg (List.map Http.fieldOf) fields.symm
  rw [← read, bare, ← same] at ends
  rcases ends with empty | framed | closed
  · exact absurd empty (by decide)
  · cases framed
  · exact some_ closed

def cutCalls : List ReadCall := [{ turns := [{ answer := .ok (bareHead.bytes ++ ascii "hello") }, { answer := .closed }] }]

theorem cutCalls_received : (ClientRead.receive {} cutCalls).2 = .success { msg := { startLine := ascii "HTTP/1.1 200 OK" } } := by
  decide +kernel

theorem cutCalls_legal : ∀ r ∈ transportReads {} cutCalls, r.Legal := by decide +kernel

theorem cutCalls_delivered : delivered (transportReads {} cutCalls) = bareHead.bytes ++ ascii "hello" := by decide +kernel

/-- A body that ends with the connection is lost, and the client is told that all went well. -/
theorem not_client_whole_cut :
    ¬ ∀ conn : Connection, conn.buffer = [] → conn.bufferCapacity = 4096 → ∀ calls, (∀ r ∈ transportReads conn calls, r.Legal) →
      ∀ stream, delivered (transportReads conn calls) <+: stream → ∀ res,
        ((ClientRead.receive { conn } calls).2 = .success res ∨ (ClientRead.receiveAsync { conn } calls).2 = .success res) →
          Whole stream res := by
  intro all
  have sent : delivered (transportReads {} cutCalls) <+: bareHead.bytes ++ ascii "hello" :=
    ⟨[], by rw [List.append_nil, cutCalls_delivered]⟩
  have whole := all {} rfl rfl cutCalls cutCalls_legal _ sent _ (Or.inl cutCalls_received)
  rcases client_answered rfl rfl cutCalls_legal (Or.inl cutCalls_received) with ⟨part, front, answered⟩
  exact not_uncut_bare (by decide) ((Http.answered_whole_iff answered (front.trans sent)).mp whole)

end BlueBird.Net
