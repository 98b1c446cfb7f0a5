import BlueBird.Connection.ByteStream
import BlueBird.Connection.ClientRead
import BlueBird.Connection.Serving
import BlueBird.Program.Runs
import BlueBird.Server.Pipeline

/-! A client and the server, and the bytes between them: one request and its answer. -/

namespace BlueBird.Server

open BlueBird.Http
open BlueBird.Net (BufferId ClientRead ClientTurn Connection ReadAnswer ReadCall ReadOutcome ServerRead ServerTurn TransportStatus delivered
  requestOf Allowed)
open BlueBird.Runtime (Events eventRead eventWrite)
open Runs (run Along)

/-! ## The messages as they arrive -/

def received (sent : BbResponse) : BbResponse where
  statusCode := sent.statusCode
  msg := {
    startLine := sent.startLine
    headers := sent.msg.framed
    body := sent.msg.body }

def parsedRequest (req : ClientRequest) : Request where
  method := req.methodText
  target := req.pathText
  versionMajor := 1
  versionMinor := 1
  headers := req.msg.framed.map headerOf
  body := req.msg.body

/-! ## The two parties -/

/-- How a run of a write task ends: with more to write, or with its success callback, or with its failure callback. -/
inductive WriteTurn where
  | waiting | done | failed
  deriving DecidableEq

/-- `_bb_write_task`, with a watcher that can always be registered again. -/
def writeTask (conn : Connection) (watched : Events) (statuses : List TransportStatus) : Connection × Events × WriteTurn :=
  let written := conn.write statuses
  if written.2.1 ≠ .success then (written.1, watched, .failed)
  else if written.1.desiredWrite ≠ watched then (written.1, written.1.desiredWrite, .waiting)
  else if written.1.writeData ≠ [] then (written.1, watched, .waiting)
  else (written.1, watched, .done)

inductive ClientStage where
  | writing | reading | writeFailed
  | ended (turn : ClientTurn)
  deriving DecidableEq

/-- What the server waits for on the connection, or what became of it. -/
inductive ServerStage where
  | reading | writing | gone
  | upgraded (handler : Callback)
  deriving DecidableEq

/-- `upstream` and `downstream` are the bytes that were written and not yet read. `request` and `response` are the buffers
    that the messages were serialized into, each the only one of its write list. -/
structure Dialogue (World : Type) where
  request : Bytes
  client : ClientRead
  clientWatched : Events := eventWrite
  clientStage : ClientStage := .writing
  upstream : Bytes := []
  server : ServerRead
  serverWatched : Events := eventWrite
  serverStage : ServerStage := .reading
  response : Bytes := []
  ws : Option Callback := none
  world : World
  taken : List Stage := []
  downstream : Bytes := []

inductive DialogueAction where
  | clientWrites (statuses : List TransportStatus)
  | serverReads (call : ReadCall) (memory : Bool)
  | serverWrites (statuses : List TransportStatus)
  | clientReads (call : ReadCall)

/-- `bb_connection_buffer_add` of a serialized message, where there is memory. -/
def queue (conn : Connection) (message : Bytes) : Connection := (conn.bufferAdd (some 0) message.length true).1

namespace Dialogue

section
variable {World : Type}

/-- `bb_client_execute_async` up to its write task, and a connection that the server has accepted. -/
def start (req : ClientRequest) (accepted : Connection) (world : World) : Dialogue World where
  request := req.serialize
  client := { conn := queue {} req.serialize }
  server := { conn := accepted }
  world

def clientWrites (d : Dialogue World) (statuses : List TransportStatus) : Dialogue World :=
  let turn := writeTask d.client.conn d.clientWatched statuses
  { d with
    client := { d.client with conn := turn.1 }
    clientWatched := turn.2.1
    clientStage :=
      match turn.2.2 with
      | .waiting => .writing
      | .done => .reading
      | .failed => .writeFailed
    upstream := d.upstream ++ d.client.conn.accepted (fun _ => d.request) statuses }

def clientReads (d : Dialogue World) (call : ReadCall) : Dialogue World :=
  let turn := d.client.readTask call
  { d with
    client := turn.1
    clientStage := if turn.2 = .waiting then .reading else .ended turn.2
    downstream := d.downstream.drop (delivered (d.client.conn.reads call.handshake call.turns)).length }

/-- `_server_after_write`, and `_server_write_error` -/
def serverWrites (d : Dialogue World) (statuses : List TransportStatus) : Dialogue World :=
  let turn := writeTask d.server.conn d.serverWatched statuses
  { d with
    server := { d.server with conn := turn.1 }
    serverWatched := turn.2.1
    serverStage :=
      match turn.2.2, d.ws with
      | .waiting, _ => .writing
      | .done, some handler => .upgraded handler
      | _, _ => .gone
    downstream := d.downstream ++ d.server.conn.accepted (fun _ => d.response) statuses }

/-- The response is serialized and queued, and the connection writes from here. -/
def queued (d : Dialogue World) (sent : BbResponse) : Dialogue World :=
  { d with
    server := { d.server with conn := { queue d.server.conn sent.serialize with state := .writing } }
    serverStage := .writing
    response := sent.serialize }

variable (call : Callback → Exchange World → Reply World) (server : BbServer)

/-- `_server_read_step` from the pipeline on. `memory` is whether there is any for the response and its write task. -/
def dispatch (d : Dialogue World) (memory : Bool) (req : Option ServerRequest) : Dialogue World :=
  let served := answer call server d.world req
  let d := { d with world := served.world, taken := d.taken ++ served.taken, ws := served.ws }
  match served.queued.head?, memory with
  | some sent, true => d.queued sent
  | _, _ => { d with serverStage := .gone }

/-- The server's read task with the callbacks behind it; whatever else ends the reading takes the connection down. -/
def serverReads (d : Dialogue World) (read : ReadCall) (memory : Bool) : Dialogue World :=
  let turn := d.server.readTask read
  let d := {
    d with
    server := turn.1
    upstream := d.upstream.drop (delivered (d.server.conn.reads read.handshake read.turns)).length }
  match turn.2 with
  | .waiting => d
  | .dispatched req => d.dispatch call server memory req
  | _ => { d with serverStage := .gone }

def step (d : Dialogue World) : DialogueAction → Option (Dialogue World)
  | .clientWrites statuses => if d.clientStage = .writing then some (d.clientWrites statuses) else none
  | .serverReads read memory => if d.serverStage = .reading then some (d.serverReads call server read memory) else none
  | .serverWrites statuses => if d.serverStage = .writing then some (d.serverWrites statuses) else none
  | .clientReads read => if d.clientStage = .reading then some (d.clientReads read) else none

/-- A read takes the next of the bytes that are on their way, and no more than it asked for. -/
def InOrder (d : Dialogue World) : DialogueAction → Prop
  | .clientWrites _ | .serverWrites _ => True
  | .serverReads read _ =>
    (∀ r ∈ d.server.conn.reads read.handshake read.turns, r.Legal) ∧
      delivered (d.server.conn.reads read.handshake read.turns) <+: d.upstream
  | .clientReads read =>
    (∀ r ∈ d.client.conn.reads read.handshake read.turns, r.Legal) ∧
      delivered (d.client.conn.reads read.handshake read.turns) <+: d.downstream

end
end Dialogue

/-! ## What arrives -/

theorem pairs_headerOf (hs : List (Bytes × Bytes)) : (hs.map headerOf).map Header.pair = hs := by
  rw [List.map_map]
  exact List.map_id hs

theorem setParsedHeaders_startLine (msg : Message) (fields : List Header) :
    (setParsedHeaders msg fields).startLine = msg.startLine := by
  induction fields generalizing msg with
  | nil => rfl
  | cons field fields ih =>
    show (setParsedHeaders (msg.setHeader field.name field.value) fields).startLine = _
    rw [ih, (Message.setHeader_rest msg _ _).1]

theorem response_ext {a b : BbResponse} (code : a.statusCode = b.statusCode) (line : a.msg.startLine = b.msg.startLine)
    (headers : a.msg.headers = b.msg.headers) (body : a.msg.body = b.msg.body) : a = b := by
  rcases a with ⟨status, start, fields, content⟩
  cases code
  cases line
  cases headers
  cases body
  rfl

theorem received_answered {sent : BbResponse} (admitted : (Outgoing.response sent).Admitted) (ordinary : sent.msg.Ordinary) :
    Answered sent.serialize (received sent) := by
  have readable := ordinary_readable ordinary
  rcases admitted with ⟨lower, upper, bodied⟩
  have read := parseResponseLine_status sent.statusCode.toInt (statusText_clean sent.statusCode) {}
  rw [if_pos ⟨by omega, upper⟩] at read
  let parsed : Response := {
    versionMajor := 1
    versionMinor := 1
    statusCode := sent.statusCode.toInt.toNat
    reason := ascii (statusTextForCode sent.statusCode) }
  have taken : started true sent.startLine = some { state := .headers, responseMode := true, response := parsed, lineLimit := maxHeaderSize } := by
    have unfolded : started true sent.startLine = (parseResponseLine sent.startLine {}).toOption.map fun response =>
        { state := .headers, responseMode := true, response, lineLimit := maxHeaderSize } := rfl
    rw [unfolded]
    unfold BbResponse.startLine
    rw [read]
    rfl
  rcases reads_message readable sent.startLine_clean taken sent.serialize_eq with ⟨complete, start, fields, _, rest⟩
  have bare : ParserCore.bodiless { state := .headers, responseMode := true, response := parsed, lineLimit := maxHeaderSize } = false := by
    apply Bool.eq_false_iff.mpr
    intro none_
    exact bodied ((bodiless_iff (started_spec taken).2.1 rfl (by omega)).mp none_)
  have body := (rest bare).2
  refine ⟨complete, ?_⟩
  generalize ((freshCore true).reads sent.serialize).1 = core at start fields body complete
  have mode : core.responseMode = true := congrArg Prod.fst start
  have head : core.response.startOnly = parsed := congrArg (fun data => data.2.2) start
  have listed : core.response.headers = sent.msg.framed.map headerOf := by
    rw [← fields, ParserCore.activeHeaders, if_pos mode]
  have whole : core.response.body = sent.msg.body := by
    rw [← body, ParserCore.activeBody, if_pos mode]
  have version : core.response.versionMajor = 1 ∧ core.response.versionMinor = 1 :=
    ⟨congrArg Response.versionMajor head, congrArg Response.versionMinor head⟩
  have status : core.response.statusCode = sent.statusCode.toInt.toNat := congrArg Response.statusCode head
  have reason : core.response.reason = ascii (statusTextForCode sent.statusCode) := congrArg Response.reason head
  have kept : (responseFromParsed core.response).msg.headers = sent.msg.framed := by
    rw [responseFromParsed_headers, listed, pairs_headerOf,
      OrderedMap.collapse_of_distinct (framed_distinct (ordinary_distinct ordinary))]
  have small : (sent.statusCode.toInt.toNat : Int) = sent.statusCode.toInt := Int.toNat_of_nonneg (by omega)
  have code : Int32.ofNat core.response.statusCode = sent.statusCode := by
    apply Int32.toInt_inj.mp
    rw [status, Int32.toInt_ofNat_of_lt (by omega), small]
  have line : (responseFromParsed core.response).msg.startLine = sent.startLine := by
    have digits : decimalInt sent.statusCode.toInt = decimal sent.statusCode.toInt.toNat := if_neg (by omega)
    have some_ : ascii (statusTextForCode sent.statusCode) ≠ [] := by
      apply @statusText_of_all (fun text => ascii text ≠ [])
      · decide
      · decide
    have front : ascii "HTTP/" ++ decimal 1 ++ ch '.' :: decimal 1 ++ [ch ' '] = ascii "HTTP/1.1 " := by decide
    show (setParsedHeaders _ _).startLine = _
    rw [setParsedHeaders_startLine, version.1, version.2, status, reason, if_neg some_]
    unfold BbResponse.startLine
    rw [digits, ← front, List.append_assoc _ [ch ' ']]
    rfl
  exact response_ext code.symm line.symm kept.symm whole.symm

theorem bodied_request {q : ParserCore} (mode : q.responseMode = false) : q.bodiless = false := by
  unfold ParserCore.bodiless
  rw [mode]
  rfl

theorem admitted_version {req : ClientRequest} (admitted : req.Admitted) {q : ParserCore} (taken : started false req.startLine = some q) :
    q.request.versionMajor = 1 ∧ q.request.versionMinor = 1 := by
  have version := @versionOf_written req.methodText req.pathText admitted.token
  rw [← admitted_requestLine admitted] at version
  have unfolded : started false req.startLine = (parseRequestLine req.startLine {}).toOption.map fun request =>
      { state := .headers, request, lineLimit := maxHeaderSize } := rfl
  rw [unfolded] at taken
  cases read : parseRequestLine req.startLine {} with
  | error e =>
    rw [read] at taken
    cases taken
  | ok request =>
    rw [read] at taken
    cases taken
    rcases withVersion_ok.mp (parseRequestLine_ok.mp read).2 with ⟨major, minor, digits, _, _, rfl⟩
    rw [version] at digits
    have same : [ch '1', ch '.', ch '1'] = [major, ch '.', minor] :=
      List.append_cancel_left ((show ascii "HTTP/" ++ [ch '1', ch '.', ch '1'] = ascii "HTTP/1.1" by decide).trans digits)
    cases same
    exact ⟨rfl, rfl⟩

theorem serverRequestFromParsed_congr {a b : Request} (method : a.method = b.method) (target : a.target = b.target)
    (major : a.versionMajor = b.versionMajor) (minor : a.versionMinor = b.versionMinor) (headers : a.headers = b.headers)
    (body : a.body = b.body) : serverRequestFromParsed a = serverRequestFromParsed b := by
  rcases a with ⟨method_, target_, major_, minor_, headers_, trailers, body_⟩
  cases method
  cases target
  cases major
  cases minor
  cases headers
  cases body
  rfl

theorem request_parsed {req : ClientRequest} (admitted : req.Admitted) (ordinary : req.msg.Ordinary) :
    Allowed req.serialize ∧ requestOf req.serialize = serverRequestFromParsed (parsedRequest req) := by
  rcases admitted_started admitted with ⟨q, taken, method, target⟩
  rcases admitted_version admitted taken with ⟨major, minor⟩
  have written : req.serialize = req.startLine ++ Message.crlf ++ (req.msg.framed.map Message.headerLine).flatten ++ Message.crlf ++ req.msg.body :=
    Message.serialize_stored _
  rcases reads_message (ordinary_readable ordinary) (admitted_clean admitted) taken written with ⟨complete, start, fields, _, rest⟩
  have mode_ : q.responseMode = false := (started_spec taken).2.1
  rcases rest (bodied_request mode_) with ⟨all, body⟩
  rcases httpParserFeed_core httpParserCreate req.serialize with ⟨status, after, consumed⟩
  have eaten : (httpParserFeed httpParserCreate req.serialize).2.lastConsumed =
      req.serialize.length - ((freshCore false).reads req.serialize).2.length := consumed
  have completed : (httpParserFeed httpParserCreate req.serialize).1 = .complete := status.trans complete
  have left : (httpParserFeed httpParserCreate req.serialize).2.toParserCore.bare = ((freshCore false).reads req.serialize).1 := by
    rw [after]
    rfl
  refine ⟨⟨completed, by rw [eaten, all]; rfl⟩, ?_⟩
  generalize ((freshCore false).reads req.serialize).1 = core at start fields body complete left
  have mode : core.responseMode = false := (congrArg Prod.fst start).trans mode_
  have head : core.request.startOnly = q.request.startOnly := congrArg (fun data => data.2.1) start
  have stopped := congrArg ParserCore.state left
  have stored := congrArg ParserCore.request left
  have state : (httpParserFeed httpParserCreate req.serialize).2.state = .stateComplete :=
    stopped.trans (status_complete.mp complete)
  have request : (httpParserFeed httpParserCreate req.serialize).2.request = core.request := stored
  have methodOf := congrArg Request.method head
  have targetOf := congrArg Request.target head
  have majorOf := congrArg Request.versionMajor head
  have minorOf := congrArg Request.versionMinor head
  have listed : core.request.headers = req.msg.framed.map headerOf := by
    rw [← fields, ParserCore.activeHeaders, mode]
    rfl
  have content : core.request.body = req.msg.body := by
    rw [← body, ParserCore.activeBody, mode]
    rfl
  unfold requestOf httpParserGetRequest
  rw [if_neg (not_not_intro state), request]
  exact serverRequestFromParsed_congr (methodOf.trans method) (targetOf.trans target) (majorOf.trans major) (minorOf.trans minor)
    listed content

/-! ## Bytes on their way -/

theorem queue_eq (conn : Connection) (message : Bytes) : ∃ writeData, queue conn message = { conn with writeData } := by
  unfold queue Connection.bufferAdd
  by_cases empty : message.length = 0
  · rw [if_pos empty]
    exact ⟨conn.writeData, rfl⟩
  · rw [if_neg empty, if_pos rfl]
    exact ⟨_, rfl⟩

theorem writeTask_spec (conn : Connection) (watched : Events) (statuses : List TransportStatus) :
    (writeTask conn watched statuses).1 = (conn.write statuses).1 ∧
      ((writeTask conn watched statuses).2.2 = .done → (conn.write statuses).1.writeData = []) ∧
      ((conn.write statuses).2.1 = .success → (writeTask conn watched statuses).2.2 ≠ .failed) := by
  unfold writeTask
  by_cases failed : (conn.write statuses).2.1 ≠ .success
  · rw [if_pos failed]
    exact ⟨rfl, (fun done => by cases done), fun success => absurd success failed⟩
  · rw [if_neg failed]
    by_cases turned : (conn.write statuses).1.desiredWrite ≠ watched
    · rw [if_pos turned]
      exact ⟨rfl, (fun done => by cases done), fun _ other => by cases other⟩
    · rw [if_neg turned]
      by_cases left : (conn.write statuses).1.writeData ≠ []
      · rw [if_pos left]
        exact ⟨rfl, (fun done => by cases done), fun _ other => by cases other⟩
      · rw [if_neg left]
        exact ⟨rfl, fun _ => Classical.not_not.mp left, fun _ other => by cases other⟩

/-- What the receiver has read, what is on its way and what the sender still holds are the message. -/
structure Carried (message : Bytes) (sender : Connection) (way : Bytes) (receiver : Connection) : Prop where
  live : ∀ entry ∈ sender.writeData, Connection.Unfinished (fun _ => message) entry
  whole : receiver.buffer ++ way ++ Connection.unsent (fun _ => message) sender.writeData = message

namespace Carried

variable {message way : Bytes} {sender receiver : Connection}

theorem queued (idle : sender.writeData = []) (empty : receiver.buffer = []) :
    Carried message (queue sender message) [] receiver := by
  have live : ∀ entry ∈ sender.writeData, Connection.Unfinished (fun _ => message) entry := by
    rw [idle]
    exact fun entry member => absurd member List.not_mem_nil
  rcases @Connection.bufferAdd_spec (fun _ => message) sender live 0 message.length (Nat.le_refl _) true with ⟨left, unsent⟩
  have added : (sender.bufferAdd (some 0) message.length true).2.1 = 0 := by
    unfold Connection.bufferAdd
    by_cases none_ : message.length = 0
    · rw [if_pos none_]
    · rw [if_neg none_, if_pos rfl]
  refine ⟨left, ?_⟩
  rw [empty]
  show Connection.unsent (fun _ => message) (sender.bufferAdd (some 0) message.length true).1.writeData = message
  rw [unsent, if_pos added, idle, List.take_length]
  rfl

theorem write (carried : Carried message sender way receiver) (statuses : List TransportStatus) :
    Carried message (sender.write statuses).1 (way ++ sender.accepted (fun _ => message) statuses) receiver := by
  rcases Connection.write_spec carried.live statuses with ⟨left, moved⟩
  refine ⟨left, ?_⟩
  rw [← List.append_assoc, List.append_assoc _ (sender.accepted _ _), ← moved]
  exact carried.whole

theorem read (carried : Carried message sender way receiver) (fits : receiver.Fits) {call : ReadCall}
    (legal : ∀ r ∈ receiver.reads call.handshake call.turns, r.Legal)
    (next : delivered (receiver.reads call.handshake call.turns) <+: way) :
    Carried message sender (way.drop (delivered (receiver.reads call.handshake call.turns)).length) (call.perform receiver) := by
  have buffer : (call.perform receiver).buffer = receiver.buffer ++ delivered (receiver.reads call.handshake call.turns) :=
    (Connection.read_exactly call.handshake call.turns fits legal).buffer
  rcases next with ⟨rest, rfl⟩
  refine ⟨carried.live, ?_⟩
  rw [buffer, List.drop_left, List.append_assoc receiver.buffer]
  exact carried.whole

theorem congr (carried : Carried message sender way receiver) {sender' receiver' : Connection}
    (entries : sender'.writeData = sender.writeData) (buffer : receiver'.buffer = receiver.buffer) :
    Carried message sender' way receiver' := by
  refine ⟨?_, ?_⟩
  · rw [entries]
    exact carried.live
  · rw [entries, buffer]
    exact carried.whole

theorem front (carried : Carried message sender way receiver) : receiver.buffer <+: message :=
  ⟨way ++ Connection.unsent (fun _ => message) sender.writeData, by rw [← List.append_assoc]; exact carried.whole⟩

theorem arrived (carried : Carried message sender [] receiver) (sent : sender.writeData = []) : receiver.buffer = message := by
  have whole := carried.whole
  rw [sent, List.append_nil] at whole
  exact (List.append_nil _).symm.trans whole

end Carried

/-! ## The two readers -/

/-- Some of the request is in the buffer, the parser has taken a part of that, and waits. -/
structure Underway (r : Bytes) (data : ServerRead) : Prop where
  fits : data.conn.Fits
  parsed : ∃ parsed more, data.conn.buffer = parsed ++ more ∧ data.parsedOffset = parsed.length ∧ parsed ≠ r ∧
    data.httpParser.toParserCore = (parserFeeder.feed httpParserCreate.toParserCore parsed).1

theorem readStep_conn (data : ServerRead) : data.readStep.1.conn = data.conn := by
  unfold ServerRead.readStep
  by_cases invalid : data.parsedOffset > data.conn.buffer.length
  · rw [if_pos invalid]
  · rw [if_neg invalid]
    dsimp only
    cases (httpParserFeed data.httpParser (data.conn.buffer.drop data.parsedOffset)).1 <;> rfl

theorem readStep_underway {r : Bytes} (allowed : Allowed r) {data : ServerRead} (underway : Underway r data)
    (front : data.conn.buffer <+: r) :
    (data.readStep.2 = .waiting → Underway r data.readStep.1) ∧
      ∀ req, data.readStep.2 = .dispatched req → data.conn.buffer = r ∧ req = requestOf r := by
  rcases underway.parsed with ⟨parsed, more, buffer, offset, short, core⟩
  rcases Net.readStep_spec allowed buffer front short offset core with ⟨whole, part⟩
  by_cases all : data.conn.buffer = r
  · rw [whole all]
    exact ⟨(fun waiting => by cases waiting), fun req dispatched => ⟨all, (ServerTurn.dispatched.inj dispatched).symm⟩⟩
  · rcases part all with ⟨turn, conn, _, offset', core'⟩
    rw [turn]
    refine ⟨fun _ => ⟨by rw [conn]; exact underway.fits, data.conn.buffer, [], ?_, offset', all, core'⟩, fun req other => by cases other⟩
    rw [conn, List.append_nil]

theorem serverTurn_spec {r : Bytes} (allowed : Allowed r) {data : ServerRead} (underway : Underway r data) {call : ReadCall}
    (legal : ∀ t ∈ data.conn.reads call.handshake call.turns, t.Legal) (front : (call.perform data.conn).buffer <+: r) :
    (data.readTask call).1.conn = call.perform data.conn ∧
      ((data.readTask call).2 = .waiting → Underway r (data.readTask call).1) ∧
      ∀ req, (data.readTask call).2 = .dispatched req → (call.perform data.conn).buffer = r ∧ req = requestOf r := by
  have exactly_ := Connection.read_exactly call.handshake call.turns underway.fits legal
  have buffer : (call.perform data.conn).buffer = data.conn.buffer ++ delivered (data.conn.reads call.handshake call.turns) :=
    exactly_.buffer
  have next : ∀ events, Underway r { data with conn := call.perform data.conn, readWatchEvents := events } := by
    rcases underway.parsed with ⟨parsed, more, split, offset, short, core⟩
    intro events
    refine ⟨exactly_.fits, parsed, more ++ delivered (data.conn.reads call.handshake call.turns), ?_, offset, short, core⟩
    show (call.perform data.conn).buffer = _
    rw [buffer, split, List.append_assoc]
  have step := @readStep_underway r allowed { data with conn := call.perform data.conn } (next data.readWatchEvents) front
  have same : data.conn.read call.handshake call.turns = (call.perform data.conn, call.outcome data.conn) := rfl
  unfold ServerRead.readTask
  rw [same]
  cases call.outcome data.conn with
  | success =>
    dsimp only
    by_cases turned : (call.perform data.conn).desiredRead ≠ data.readWatchEvents
    · rw [if_pos turned]
      exact ⟨rfl, fun _ => next _, fun req other => by cases other⟩
    · rw [if_neg turned]
      by_cases waits : (call.perform data.conn).state = .handshake
      · rw [if_pos waits]
        exact ⟨rfl, fun _ => next _, fun req other => by cases other⟩
      · rw [if_neg waits]
        exact ⟨readStep_conn _, step.1, step.2⟩
  | _ => exact ⟨rfl, (fun waiting => by cases waiting), fun req other => by cases other⟩

theorem answered_received {sent : BbResponse} (admitted : (Outgoing.response sent).Admitted) (ordinary : sent.msg.Ordinary)
    {part : Bytes} (front : part <+: sent.serialize) {res : BbResponse} (answered : Answered part res) : res = received sent := by
  rcases front with ⟨rest, whole⟩
  rcases received_answered admitted ordinary with ⟨_, is⟩
  rw [is, ← whole, reads_stops answered.1]
  exact answered.2

theorem not_answered_nil (res : BbResponse) : ¬ Answered [] res := by
  rintro ⟨complete, _⟩
  exact absurd complete (by decide)

/-! ## What holds in every run -/

section
variable {World : Type} (call : Callback → Exchange World → Reply World) (server : BbServer) (req : ClientRequest) (world : World)

def outcome : Served World := answer call server world (serverRequestFromParsed (parsedRequest req))

/-- The pipeline has not run on this connection. -/
structure Unserved (taken : List Stage) (now : World) (response : Bytes) : Prop where
  taken : taken = []
  world : now = world
  response : response = []

/-- The pipeline has run once, and at most its response was queued. -/
structure ServedOnce (taken : List Stage) (now : World) (response : Bytes) : Prop where
  taken : taken = (outcome call server req world).taken
  response : response = [] ∨ ∃ sent, (outcome call server req world).queued = [sent] ∧ response = sent.serialize
  world : now = (outcome call server req world).world

structure Consistent (d : Dialogue World) : Prop where
  request : d.request = req.serialize
  up : Carried d.request d.client.conn d.upstream d.server.conn
  down : Carried d.response d.server.conn d.downstream d.client.conn
  asking : d.clientStage = .writing ∨ d.clientStage = .reading → d.client.Reading ∧ d.client.conn.Fits
  listening : d.serverStage = .reading → Underway req.serialize d.server ∧ Unserved world d.taken d.world d.response
  once : Unserved world d.taken d.world d.response ∨ ServedOnce call server req world d.taken d.world d.response
  told : ∀ res, d.clientStage = .ended (.success res) → Answered d.client.conn.buffer res

end

section
variable {World : Type} {call : Callback → Exchange World → Reply World} {server : BbServer} {req : ClientRequest} {world : World}

theorem answer_queued (asked : Option ServerRequest) {sent : BbResponse}
    (first : (answer call server world asked).queued.head? = some sent) : (answer call server world asked).queued = [sent] := by
  cases asked with
  | none =>
    cases first
    rfl
  | some asked =>
    unfold answer at first ⊢
    dsimp only at first ⊢
    by_cases failed : (runRequestPipeline call server { world, req := asked }).2.isSome = true
    · rw [if_pos failed] at first
      cases first
    · rw [if_neg failed] at first ⊢
      cases first
      rfl

namespace Consistent

variable {d : Dialogue World}

theorem clientWrites (ok : Consistent call server req world d) (stage : d.clientStage = .writing) (statuses : List TransportStatus) :
    Consistent call server req world (d.clientWrites statuses) := by
  have same := (writeTask_spec d.client.conn d.clientWatched statuses).1
  have side : (writeTask d.client.conn d.clientWatched statuses).1.readSide = d.client.conn.readSide := by
    rw [same]
    exact d.client.conn.write_readSide statuses
  have buffer : (writeTask d.client.conn d.clientWatched statuses).1.buffer = d.client.conn.buffer := congrArg Prod.fst side
  rcases ok.asking (Or.inl stage) with ⟨reading, fits⟩
  have still : ClientRead.Reading { d.client with conn := (writeTask d.client.conn d.clientWatched statuses).1 } :=
    ClientRead.reading_grows reading (by rw [buffer])
  exact {
    request := ok.request
    up := by
      have up := ok.up.write statuses
      rw [← same] at up
      exact up
    down := ok.down.congr rfl buffer
    asking := fun _ => ⟨still, Connection.Fits.of_readSide side fits⟩
    listening := ok.listening
    once := ok.once
    told := by
      intro res told
      unfold Dialogue.clientWrites at told
      dsimp only at told
      cases turn : (writeTask d.client.conn d.clientWatched statuses).2.2 <;> rw [turn] at told <;> cases told }

theorem clientReads (ok : Consistent call server req world d) (stage : d.clientStage = .reading) {read : ReadCall}
    (order : d.InOrder (.clientReads read)) : Consistent call server req world (d.clientReads read) := by
  rcases order with ⟨legal, next⟩
  rcases ok.asking (Or.inr stage) with ⟨reading, fits⟩
  have exactly_ := Connection.read_exactly read.handshake read.turns fits legal
  have buffer : (read.perform d.client.conn).buffer = d.client.conn.buffer ++ delivered (d.client.conn.reads read.handshake read.turns) :=
    exactly_.buffer
  rcases ClientRead.readTask_answered reading (show d.client.conn.buffer <+: (read.perform d.client.conn).buffer by
    rw [buffer]
    exact List.prefix_append ..) with ⟨conn, goes, completes⟩
  have entries : (d.client.readTask read).1.conn.writeData = d.client.conn.writeData := by
    rw [conn]
    exact Connection.read_writeData d.client.conn read.handshake read.turns
  exact {
    request := ok.request
    up := ok.up.congr entries rfl
    down := by
      have down := ok.down.read fits legal next
      rw [← conn] at down
      exact down
    asking := by
      intro later
      have waiting : (d.client.readTask read).2 = .waiting := by
        by_contra ends
        unfold Dialogue.clientReads at later
        dsimp only at later
        rw [if_neg ends] at later
        rcases later with other | other <;> cases other
      refine ⟨goes waiting, ?_⟩
      show (d.client.readTask read).1.conn.Fits
      rw [conn]
      exact exactly_.fits
    listening := ok.listening
    once := ok.once
    told := by
      intro res told
      unfold Dialogue.clientReads at told
      dsimp only at told
      by_cases waiting : (d.client.readTask read).2 = .waiting
      · rw [if_pos waiting] at told
        cases told
      · rw [if_neg waiting] at told
        show Answered (d.client.readTask read).1.conn.buffer res
        rw [conn]
        exact completes res (ClientStage.ended.inj told) }

theorem serverWrites (ok : Consistent call server req world d) (statuses : List TransportStatus) :
    Consistent call server req world (d.serverWrites statuses) := by
  have same := (writeTask_spec d.server.conn d.serverWatched statuses).1
  have side : (writeTask d.server.conn d.serverWatched statuses).1.readSide = d.server.conn.readSide := by
    rw [same]
    exact d.server.conn.write_readSide statuses
  exact {
    request := ok.request
    up := ok.up.congr rfl (congrArg Prod.fst side)
    down := by
      have down := ok.down.write statuses
      rw [← same] at down
      exact down
    asking := ok.asking
    listening := by
      intro later
      unfold Dialogue.serverWrites at later
      dsimp only at later
      cases turn : (writeTask d.server.conn d.serverWatched statuses).2.2 <;> cases handler : d.ws <;> rw [turn, handler] at later <;>
        cases later
    once := ok.once
    told := ok.told }

theorem silent (ok : Consistent call server req world d) (none_ : d.response = []) :
    d.client.conn.buffer = [] ∧ d.downstream = [] ∧ d.server.conn.writeData = [] := by
  have down := ok.down
  rw [none_] at down
  rcases List.append_eq_nil_iff.mp down.whole with ⟨front, unsent⟩
  rcases List.append_eq_nil_iff.mp front with ⟨buffer, way⟩
  exact ⟨buffer, way, (Connection.unsent_empty down.live).mpr unsent⟩

theorem dispatch (ok : Consistent call server req world d) (unserved : Unserved world d.taken d.world d.response)
    (memory : Bool) : Consistent call server req world
      (d.dispatch call server memory (serverRequestFromParsed (parsedRequest req))) := by
  rcases unserved with ⟨taken, same, response⟩
  rcases ok.silent response with ⟨buffer, way, entries⟩
  have made : answer call server d.world (serverRequestFromParsed (parsedRequest req)) = outcome call server req world := by
    rw [same]
    rfl
  have done : d.taken ++ (outcome call server req world).taken = (outcome call server req world).taken := by
    rw [taken, List.nil_append]
  unfold Dialogue.dispatch
  dsimp only
  rw [made]
  have gone : Consistent call server req world { d with
      world := (outcome call server req world).world
      taken := d.taken ++ (outcome call server req world).taken
      ws := (outcome call server req world).ws
      serverStage := .gone } := {
    request := ok.request
    up := ok.up
    down := ok.down
    asking := ok.asking
    listening := fun stage => by cases stage
    once := Or.inr ⟨done, Or.inl response, rfl⟩
    told := ok.told }
  cases first : (outcome call server req world).queued.head? with
  | none => exact gone
  | some sent =>
    cases memory with
    | false => exact gone
    | true =>
      rcases queue_eq d.server.conn sent.serialize with ⟨writeData, queued⟩
      have down : Carried sent.serialize (queue d.server.conn sent.serialize) [] d.client.conn := .queued entries buffer
      exact {
        request := ok.request
        up := ok.up.congr rfl (by
          show (queue d.server.conn sent.serialize).buffer = _
          rw [queued])
        down := by
          show Carried sent.serialize _ d.downstream _
          rw [way]
          exact down.congr rfl rfl
        asking := ok.asking
        listening := fun stage => by cases stage
        once := Or.inr ⟨done, Or.inr ⟨sent, answer_queued _ first, rfl⟩, rfl⟩
        told := ok.told }

theorem serverReads (ok : Consistent call server req world d) (admitted : req.Admitted) (ordinary : req.msg.Ordinary)
    (stage : d.serverStage = .reading) {read : ReadCall} {memory : Bool} (order : d.InOrder (.serverReads read memory)) :
    Consistent call server req world (d.serverReads call server read memory) := by
  rcases order with ⟨legal, next⟩
  rcases ok.listening stage with ⟨underway, unserved⟩
  rcases request_parsed admitted ordinary with ⟨allowed, parsed⟩
  have up := ok.up.read underway.fits legal next
  have front := up.front
  rw [ok.request] at front
  rcases serverTurn_spec allowed underway legal front with ⟨conn, waits, dispatches⟩
  have entries : (d.server.readTask read).1.conn.writeData = d.server.conn.writeData := by
    rw [conn]
    exact Connection.read_writeData d.server.conn read.handshake read.turns
  rw [← conn] at up
  -- what the turn leaves before its callbacks
  have read_ : ∀ stage, (stage = .reading → Underway req.serialize (d.server.readTask read).1) → Consistent call server req world { d with
      server := (d.server.readTask read).1
      upstream := d.upstream.drop (delivered (d.server.conn.reads read.handshake read.turns)).length
      serverStage := stage } := by
    intro stage still
    exact {
      request := ok.request
      up := up
      down := ok.down.congr entries rfl
      asking := ok.asking
      listening := fun reading => ⟨still reading, unserved⟩
      once := ok.once
      told := ok.told }
  unfold Dialogue.serverReads
  dsimp only
  cases turn : (d.server.readTask read).2 with
  | waiting =>
    have still := read_ .reading fun _ => waits turn
    rw [← stage] at still
    exact still
  | dispatched given =>
    rcases dispatches given turn with ⟨_, rfl⟩
    have gone_ := read_ .gone fun other => by cases other
    rw [parsed]
    exact gone_.dispatch unserved memory
  | offsetInvalid => exact read_ .gone fun other => by cases other
  | disconnected => exact read_ .gone fun other => by cases other
  | failed outcome => exact read_ .gone fun other => by cases other
  | badRequest msg => exact read_ .gone fun other => by cases other

theorem step (ok : Consistent call server req world d) (admitted : req.Admitted) (ordinary : req.msg.Ordinary)
    {action : DialogueAction} (order : d.InOrder action) {d' : Dialogue World} (taken : d.step call server action = some d') :
    Consistent call server req world d' := by
  cases action with
  | clientWrites statuses =>
    rcases Option.ite_none_right_eq_some.mp taken with ⟨stage, same⟩
    cases same
    exact ok.clientWrites stage statuses
  | serverReads read memory =>
    rcases Option.ite_none_right_eq_some.mp taken with ⟨stage, same⟩
    cases same
    exact ok.serverReads admitted ordinary stage order
  | serverWrites statuses =>
    rcases Option.ite_none_right_eq_some.mp taken with ⟨_, same⟩
    cases same
    exact ok.serverWrites statuses
  | clientReads read =>
    rcases Option.ite_none_right_eq_some.mp taken with ⟨stage, same⟩
    cases same
    exact ok.clientReads stage order

end Consistent

theorem allowed_ne_nil {r : Bytes} (allowed : Allowed r) : [] ≠ r := (Net.allowed_nonempty allowed).symm

theorem start_consistent (admitted : req.Admitted) (ordinary : req.msg.Ordinary) {conn : Connection} (accepted : Net.Accepted conn)
    (idle : conn.writeData = []) : Consistent call server req world (.start req conn world) := by
  have allowed := (request_parsed admitted ordinary).1
  rcases queue_eq {} req.serialize with ⟨writeData, queued⟩
  have unserved : Unserved world [] world [] := ⟨rfl, rfl, rfl⟩
  have empty : (queue {} req.serialize).buffer = [] := by rw [queued]
  have side : (queue {} req.serialize).readSide = Connection.readSide {} := by
    rw [queued]
    rfl
  have none_ : ∀ entry ∈ conn.writeData, Connection.Unfinished (fun _ => []) entry := by
    rw [idle]
    exact fun entry member => absurd member List.not_mem_nil
  exact {
    request := rfl
    up := Carried.queued rfl accepted.empty
    down := ⟨none_, by
      show (queue {} req.serialize).buffer ++ [] ++ Connection.unsent (fun _ => []) conn.writeData = []
      rw [empty, idle]
      rfl⟩
    asking := fun _ => ⟨Net.created_reading _, Connection.Fits.of_readSide side ⟨by decide, by decide⟩⟩
    listening := fun _ => ⟨⟨Net.accepted_fits accepted, [], [], accepted.empty, rfl, allowed_ne_nil allowed, rfl⟩, unserved⟩
    once := Or.inl unserved
    told := fun res other => by cases other }

end

/-! ## A greeting -/

instance {World : Type} (d : Dialogue World) (action : DialogueAction) : Decidable (d.InOrder action) :=
  match action with
  | .clientWrites _ | .serverWrites _ => inferInstanceAs (Decidable True)
  | .serverReads read _ => inferInstanceAs (Decidable ((∀ r ∈ d.server.conn.reads read.handshake read.turns, r.Legal) ∧
      delivered (d.server.conn.reads read.handshake read.turns) <+: d.upstream))
  | .clientReads read => inferInstanceAs (Decidable ((∀ r ∈ d.client.conn.reads read.handshake read.turns, r.Legal) ∧
      delivered (d.client.conn.reads read.handshake read.turns) <+: d.downstream))

def helloServer : BbServer where
  routeList := registered [.http (ascii "GET") (ascii "/hello") 7]

def greet (_ : Callback) (x : Exchange Nat) : Reply Nat where
  world := x.world + 1
  req := x.req
  res := { x.res with msg := { x.res.msg with body := ascii "hi" } }
  error := none

def helloRequest : ClientRequest where
  path := some (ascii "/hello")
  msg := { startLine := [], headers := [(ascii "Host", ascii "localhost")] }

def helloResponse : BbResponse where
  msg := { startLine := [], headers := [(ascii "Connection", ascii "close")], body := ascii "hi" }

theorem hello_outcome : (outcome greet helloServer helloRequest 0).queued = [helloResponse] := by decide +kernel

/-- The request comes in two pieces, and the end of the stream with the response. -/
def helloActions : List DialogueAction :=
  [.clientWrites [.ok 10, .wantWrite],
    .serverReads { turns := [{ answer := .ok (helloRequest.serialize.take 10) }, { answer := .wantRead }] } true,
    .clientWrites [.ok (helloRequest.serialize.length - 10)],
    .serverReads { turns := [{ answer := .ok (helloRequest.serialize.drop 10) }] } true,
    .serverWrites [.ok helloResponse.serialize.length],
    .clientReads { turns := [{ answer := .ok helloResponse.serialize }, { answer := .closed }] }]

theorem helloRequest_ordinary : helloRequest.msg.Ordinary where
  sound := by
    intro h member
    rw [List.mem_singleton.mp member]
    exact ⟨by decide, by decide, by decide, by decide⟩
  distinct := by decide
  framing := by decide
  body := by decide
  count := by decide
  bytes := by decide

theorem helloRequest_admitted : helloRequest.Admitted :=
  ⟨by decide, by decide, by decide, by decide, by decide, by decide +kernel, by decide⟩

theorem helloResponse_ordinary : helloResponse.msg.Ordinary where
  sound := by
    intro h member
    rw [List.mem_singleton.mp member]
    exact ⟨by decide, by decide, by decide, by decide⟩
  distinct := by decide
  framing := by decide
  body := by decide
  count := by decide
  bytes := by decide

theorem helloResponse_admitted : (Outgoing.response helloResponse).Admitted := ⟨by decide, by decide, by unfold bodilessStatus; decide⟩

theorem hello_run : (run (Dialogue.step greet helloServer) (.start helloRequest {} 0) helloActions).map (fun d => (d.clientStage, d.world)) =
    some (.ended (.success (received helloResponse)), 1) := by
  decide +kernel

end BlueBird.Server
