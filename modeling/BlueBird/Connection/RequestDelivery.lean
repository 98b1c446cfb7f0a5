import BlueBird.Connection.Async
import BlueBird.Connection.ReadBuffer
import BlueBird.Http.Reset
import BlueBird.Http.RoundTrip
import BlueBird.Http.ServerRequest

/-! How a request comes from the connection's buffer to the routes of the server. -/

namespace BlueBird.Net

open BlueBird.Runtime (Events eventRead)
open BlueBird.Http (HttpParser ServerRequest httpParserCreate httpParserFeed httpParserGetRequest parserFeeder serverRequestFromParsed)

/-- What `bb_server_task_data_t` has for a request that is being read. -/
structure ServerRead where
  conn : Connection := {}
  readWatchEvents : Events := eventRead
  httpParser : HttpParser := httpParserCreate
  parsedOffset : Nat := 0

/-- How a turn of the server's read task ends: with more to come, or with the error that is reported, or with
    the request handed on, which is none where it could not be converted and is answered with 400. -/
inductive ServerTurn where
  | waiting | offsetInvalid | disconnected
  | failed (outcome : ReadOutcome)
  | badRequest (msg : String)
  | dispatched (req : Option ServerRequest)
  deriving DecidableEq

namespace ServerRead

/-- `_server_read_step` up to the pipeline. The connection's buffer keeps what was parsed. -/
def readStep (data : ServerRead) : ServerRead × ServerTurn :=
  if data.parsedOffset > data.conn.buffer.length then (data, .offsetInvalid)
  else
    let fed := httpParserFeed data.httpParser (data.conn.buffer.drop data.parsedOffset)
    let data := { data with httpParser := fed.2, parsedOffset := data.parsedOffset + fed.2.lastConsumed }
    match fed.1 with
    | .incomplete => (data, .waiting)
    | .error => (data, .badRequest fed.2.errorMsg)
    | .complete => (data, .dispatched ((httpParserGetRequest fed.2).bind serverRequestFromParsed))

/-- `_bb_read_task` of the server, with a watcher that can always be registered again. -/
def readTask (data : ServerRead) (call : ReadCall) : ServerRead × ServerTurn :=
  let read := data.conn.read call.handshake call.turns
  let data := { data with conn := read.1 }
  match read.2 with
  | .connectionClosed => (data, .disconnected)
  | .success =>
    if data.conn.desiredRead ≠ data.readWatchEvents then ({ data with readWatchEvents := data.conn.desiredRead }, .waiting)
    else if data.conn.state = .handshake then (data, .waiting)
    else data.readStep
  | failure => (data, .failed failure)

/-- One event after the other, until the request is dispatched or given up. -/
def serve (data : ServerRead) : List ReadCall → ServerRead × ServerTurn
  | [] => (data, .waiting)
  | call :: calls =>
    let turn := data.readTask call
    if turn.2 = .waiting then turn.1.serve calls else turn

end ServerRead

def Allowed (r : Bytes) : Prop :=
  (httpParserFeed httpParserCreate r).1 = .complete ∧ (httpParserFeed httpParserCreate r).2.lastConsumed = r.length

instance (r : Bytes) : Decidable (Allowed r) := inferInstanceAs (Decidable (_ ∧ _))

def requestOf (r : Bytes) : Option ServerRequest :=
  (httpParserGetRequest (httpParserFeed httpParserCreate r).2).bind serverRequestFromParsed

def ReadAnswer.steady : ReadAnswer → Bool
  | .ok _ | .wantRead => true
  | _ => false

/-- There is memory, and the transport has bytes or waits for some. -/
structure Healthy (conn : Connection) (calls : List ReadCall) : Prop where
  handshakes : ∀ call ∈ calls, call.handshake = .ok ∨ call.handshake = .wantRead
  memory : ∀ call ∈ calls, ∀ turn ∈ call.turns, turn.realloc = true
  answers : ∀ call ∈ calls, ∀ turn ∈ call.turns, turn.answer.steady = true
  legal : ∀ r ∈ transportReads conn calls, r.Legal

/-- A connection that was just accepted, with or without TLS. -/
structure Accepted (conn : Connection) : Prop where
  empty : conn.buffer = []
  capacity : conn.bufferCapacity = 4096
  opened : conn.state = .reading ∨ conn.state = .handshake

/-! ## Reading while all goes well -/

namespace Connection

theorem ensureSpace_memory {conn : Connection} (fits : conn.Fits) :
    (∃ capacity, conn.ensureSpace true = ({ conn with bufferCapacity := capacity }, none) ∧
      conn.buffer.length + 1 < capacity ∧ capacity ≤ maxBufferSize) ∨
    conn.ensureSpace true = ({ conn with state := .closed }, some .payloadTooLarge) := by
  by_cases small : conn.buffer.length + 1 < maxBufferSize
  · exact Or.inl (ensureSpace_spec fits small)
  · rcases fits with ⟨room, limit⟩
    have full : conn.buffer.length + 1 ≥ conn.bufferCapacity := by omega
    have most : conn.bufferCapacity ≥ maxBufferSize := by omega
    apply Or.inr
    unfold ensureSpace
    rw [if_pos full, if_pos most]

/-- How a call ends that finds memory and a patient transport: it leaves the connection open and room for
    another byte, or the buffer was full. -/
structure ReadsOn (before after : Connection) (outcome : ReadOutcome) : Prop where
  cases_ : outcome = .success ∨ outcome = .payloadTooLarge
  room : outcome = .success → after.buffer.length + 1 < maxBufferSize
  hint : outcome = .success → after.readIoHint = before.readIoHint
  state : outcome = .success → after.state = before.state

theorem readsOn_tooLarge (before after : Connection) : ReadsOn before after .payloadTooLarge where
  cases_ := Or.inr rfl
  room := fun ended => by cases ended
  hint := fun ended => by cases ended
  state := fun ended => by cases ended

theorem readLoop_on (turns : List ReadTurn) {conn : Connection} (fits : conn.Fits) (memory : ∀ turn ∈ turns, turn.realloc = true)
    (answers : ∀ turn ∈ turns, turn.answer.steady = true) :
    ReadsOn conn (conn.readLoop turns).1 (conn.readLoop turns).2 := by
  induction turns generalizing conn with
  | nil =>
    unfold readLoop
    rcases ensureSpace_memory fits with ⟨capacity, space, room, limit⟩ | space
    · rw [space]
      exact ⟨Or.inl rfl, fun _ => Nat.lt_of_lt_of_le room limit, fun _ => rfl, fun _ => rfl⟩
    · rw [space]
      exact readsOn_tooLarge _ _
  | cons turn turns ih =>
    have realloc : turn.realloc = true := memory _ (List.mem_cons_self ..)
    have steady := answers _ (List.mem_cons_self ..)
    unfold readLoop
    rw [realloc]
    rcases ensureSpace_memory fits with ⟨capacity, space, room, limit⟩ | space
    · rw [space]
      cases answer : turn.answer with
      | ok data =>
        have still : Fits { conn with
            bufferCapacity := capacity
            buffer := conn.buffer ++ data.take (capacity - conn.buffer.length - 1) } := by
          constructor
          · show (conn.buffer ++ data.take (capacity - conn.buffer.length - 1)).length < capacity
            rw [List.length_append, List.length_take]
            omega
          · exact limit
        have later := ih still (fun t member => memory t (List.mem_cons_of_mem _ member))
          fun t member => answers t (List.mem_cons_of_mem _ member)
        exact ⟨later.cases_, later.room, later.hint, later.state⟩
      | wantRead => exact ⟨Or.inl rfl, fun _ => Nat.lt_of_lt_of_le room limit, fun _ => rfl, fun _ => rfl⟩
      | wantWrite => rw [answer] at steady; cases steady
      | closed => rw [answer] at steady; cases steady
      | error => rw [answer] at steady; cases steady
    · rw [space]
      exact readsOn_tooLarge _ _

/-- `bb_connection_read` on an open connection. -/
theorem read_on (call : ReadCall) {conn : Connection} (fits : conn.Fits) (opened : conn.state = .reading ∨ conn.state = .handshake)
    (shake : call.handshake = .ok ∨ call.handshake = .wantRead) (memory : ∀ turn ∈ call.turns, turn.realloc = true)
    (answers : ∀ turn ∈ call.turns, turn.answer.steady = true) (room : conn.buffer.length + 1 < maxBufferSize) :
    (call.outcome conn = .payloadTooLarge ∨ call.outcome conn = .success) ∧
      (call.outcome conn = .success →
        (call.perform conn).buffer.length + 1 < maxBufferSize ∧ (call.perform conn).readIoHint = .default ∧
          ((call.perform conn).state = .reading ∨
            (call.perform conn).state = .handshake ∧ conn.reads call.handshake call.turns = [])) := by
  rcases conn with ⟨state, buffer, capacity, writeData, writePending, readIoHint, writeIoHint⟩
  rcases call with ⟨handshake, turns⟩
  have reads_on : ReadsOn ⟨.reading, buffer, capacity, writeData, writePending, .default, writeIoHint⟩ _ _ :=
    readLoop_on turns ⟨fits.room, fits.limit⟩ memory answers
  have whole : (call : ReadCall) → (conn : Connection) →
      conn.read call.handshake call.turns = (⟨.reading, buffer, capacity, writeData, writePending, .default, writeIoHint⟩ : Connection).readLoop turns →
      (call.outcome conn = .payloadTooLarge ∨ call.outcome conn = .success) ∧
        (call.outcome conn = .success →
          (call.perform conn).buffer.length + 1 < maxBufferSize ∧ (call.perform conn).readIoHint = .default ∧
            ((call.perform conn).state = .reading ∨
              (call.perform conn).state = .handshake ∧ conn.reads call.handshake call.turns = [])) := by
    intro call conn same
    unfold ReadCall.outcome ReadCall.perform
    rw [same]
    exact ⟨reads_on.cases_.symm, fun success => ⟨reads_on.room success, reads_on.hint success, Or.inl (reads_on.state success)⟩⟩
  rcases opened with reading | waiting
  · cases reading
    exact whole ⟨handshake, turns⟩ _ rfl
  · cases waiting
    rcases shake with done | more
    · cases done
      exact whole ⟨.ok, turns⟩ _ rfl
    · cases more
      exact ⟨Or.inr rfl, fun _ => ⟨room, rfl, Or.inr ⟨rfl, rfl⟩⟩⟩

end Connection

/-! ## Parsing along -/

theorem feed_le (p : Http.ParserCore) (data : Bytes) : (parserFeeder.feed p data).2 ≤ data.length := Nat.sub_le _ _

theorem allowed_running {r part : Bytes} (allowed : Allowed r) (front : part <+: r) (short : part ≠ r) :
    parserFeeder.running (parserFeeder.feed httpParserCreate.toParserCore part).1 = true := by
  rcases front with ⟨rest, rfl⟩
  apply Classical.byContradiction
  intro stopped
  have consumed := allowed.2
  rw [(Http.httpParserFeed_core httpParserCreate _).2.2, parserFeeder.stops _ _ rest stopped, List.length_append] at consumed
  have most := feed_le httpParserCreate.toParserCore part
  have none_ : rest = [] := List.length_eq_zero_iff.mp (by omega)
  rw [none_, List.append_nil] at short
  exact short rfl

theorem allowed_nonempty {r : Bytes} (allowed : Allowed r) : r ≠ [] := by
  rintro rfl
  exact absurd allowed.1 (by decide)

theorem httpParserGetRequest_core {p q : HttpParser} (same : p.toParserCore = q.toParserCore) :
    httpParserGetRequest p = httpParserGetRequest q := by
  unfold httpParserGetRequest
  rw [same]

/-- The request is open: what arrived is in the buffer, and all of it went through the parser. -/
structure ServerRead.Reading (r : Bytes) (data : ServerRead) : Prop where
  fits : data.conn.Fits
  opened : data.conn.state = .reading ∨ data.conn.state = .handshake
  watches : data.readWatchEvents = eventRead
  room : data.conn.buffer.length + 1 < Connection.maxBufferSize
  front : data.conn.buffer <+: r
  short : data.conn.buffer ≠ r
  offset : data.parsedOffset = data.conn.buffer.length
  parsed : data.httpParser.toParserCore = (parserFeeder.feed httpParserCreate.toParserCore data.conn.buffer).1

theorem readStep_spec {r more : Bytes} (allowed : Allowed r) {data : ServerRead} {parsed : Bytes}
    (buffer : data.conn.buffer = parsed ++ more) (front : data.conn.buffer <+: r) (short : parsed ≠ r)
    (offset : data.parsedOffset = parsed.length)
    (core : data.httpParser.toParserCore = (parserFeeder.feed httpParserCreate.toParserCore parsed).1) :
    (data.conn.buffer = r → data.readStep.2 = .dispatched (requestOf r)) ∧
      (data.conn.buffer ≠ r → data.readStep.2 = .waiting ∧ data.readStep.1.conn = data.conn ∧
        data.readStep.1.readWatchEvents = data.readWatchEvents ∧ data.readStep.1.parsedOffset = data.conn.buffer.length ∧
        data.readStep.1.httpParser.toParserCore = (parserFeeder.feed httpParserCreate.toParserCore data.conn.buffer).1) := by
  have within : parsed <+: r := by
    rw [buffer] at front
    exact (List.prefix_append parsed more).trans front
  have running := allowed_running allowed within short
  have valid : ¬ data.parsedOffset > data.conn.buffer.length := by
    rw [offset, buffer, List.length_append]
    omega
  have left : data.conn.buffer.drop data.parsedOffset = more := by rw [buffer, offset, List.drop_left]
  rcases Http.httpParserFeed_behind core running more with ⟨status, after, eaten⟩
  rw [← buffer] at status after eaten
  unfold ServerRead.readStep
  rw [if_neg valid, left]
  constructor
  · intro all
    rcases Http.httpParserFeed_core httpParserCreate r with ⟨status', after', _⟩
    have complete : (httpParserFeed data.httpParser more).1 = .complete := by
      rw [status, all, ← status', allowed.1]
    have same : (httpParserFeed data.httpParser more).2.toParserCore = (httpParserFeed httpParserCreate r).2.toParserCore := by
      rw [after, all, ← after']
    dsimp only
    rw [complete]
    show ServerTurn.dispatched _ = ServerTurn.dispatched _
    rw [httpParserGetRequest_core same]
    rfl
  · intro part
    have going := allowed_running allowed front part
    have incomplete : (httpParserFeed data.httpParser more).1 = .incomplete := by
      rw [status]
      exact (Http.parserFeeder_running _).mp going
    dsimp only
    rw [incomplete]
    refine ⟨rfl, rfl, rfl, ?_, after⟩
    show data.parsedOffset + _ = _
    rw [eaten going, offset, buffer, List.length_append]

def turnFor (r sent : Bytes) : ServerTurn :=
  if sent.length + 1 = Connection.maxBufferSize then .failed .payloadTooLarge
  else if sent = r then .dispatched (requestOf r)
  else .waiting

theorem readTask_tooLarge {data : ServerRead} {call : ReadCall} (full : call.outcome data.conn = .payloadTooLarge) :
    data.readTask call = ({ data with conn := call.perform data.conn }, .failed .payloadTooLarge) := by
  unfold ReadCall.outcome at full
  unfold ServerRead.readTask ReadCall.perform
  dsimp only
  rw [full]

theorem readTask_success {data : ServerRead} {call : ReadCall} (success : call.outcome data.conn = .success)
    (steady : (call.perform data.conn).desiredRead = data.readWatchEvents) :
    data.readTask call =
      if (call.perform data.conn).state = .handshake then ({ data with conn := call.perform data.conn }, .waiting)
      else ServerRead.readStep { data with conn := call.perform data.conn } := by
  unfold ReadCall.outcome at success
  unfold ServerRead.readTask ReadCall.perform at *
  dsimp only
  rw [success]
  dsimp only
  rw [if_neg (fun other => other steady)]

theorem readTask_spec {r : Bytes} (allowed : Allowed r) {data : ServerRead} (open_ : data.Reading r) {call : ReadCall} {calls : List ReadCall}
    (healthy : Healthy data.conn (call :: calls)) (front : (call.perform data.conn).buffer <+: r) :
    (data.readTask call).2 = turnFor r (call.perform data.conn).buffer ∧
      ((data.readTask call).2 = .waiting →
        (data.readTask call).1.conn = call.perform data.conn ∧ (data.readTask call).1.Reading r) := by
  have here : ∀ t ∈ data.conn.reads call.handshake call.turns, t.Legal := fun t member =>
    healthy.legal t (List.mem_append_left _ member)
  have exactly_ := Connection.read_exactly call.handshake call.turns open_.fits here
  rcases Connection.read_on call open_.fits open_.opened (healthy.handshakes _ (List.mem_cons_self ..))
    (healthy.memory _ (List.mem_cons_self ..)) (healthy.answers _ (List.mem_cons_self ..)) open_.room with ⟨ends, going⟩
  rcases ends with full | success
  · have whole : (call.perform data.conn).buffer.length + 1 = Connection.maxBufferSize := (exactly_.tooLarge full).2
    rw [readTask_tooLarge full]
    unfold turnFor
    rw [if_pos whole]
    exact ⟨rfl, fun waiting => by cases waiting⟩
  · rcases going success with ⟨room, hint, state⟩
    have steady : (call.perform data.conn).desiredRead = data.readWatchEvents := by
      unfold Connection.desiredRead
      rw [hint, open_.watches]
      decide
    rw [readTask_success success steady]
    unfold turnFor
    rw [if_neg (Nat.ne_of_lt room)]
    rcases state with reading | ⟨waiting, none_⟩
    · have buffer : (call.perform data.conn).buffer = data.conn.buffer ++ delivered (data.conn.reads call.handshake call.turns) :=
        exactly_.buffer
      have ready : ¬ (call.perform data.conn).state = .handshake := by
        rw [reading]
        decide
      rw [if_neg ready]
      rcases @readStep_spec _ _ allowed { data with conn := call.perform data.conn } _ buffer front open_.short open_.offset
        open_.parsed with ⟨whole, part⟩
      by_cases all : (call.perform data.conn).buffer = r
      · rw [if_pos all]
        refine ⟨whole all, fun waiting => ?_⟩
        rw [whole all] at waiting
        cases waiting
      · rw [if_neg all]
        rcases part all with ⟨turn, conn, events, offset, parsed⟩
        refine ⟨turn, fun _ => ⟨conn, ?_⟩⟩
        exact {
          fits := by rw [conn]; exact exactly_.fits
          opened := by rw [conn]; exact Or.inl reading
          watches := events.trans open_.watches
          room := by rw [conn]; exact room
          front := by rw [conn]; exact front
          short := by rw [conn]; exact all
          offset := by rw [conn]; exact offset
          parsed := by rw [conn]; exact parsed }
    · have same : (call.perform data.conn).buffer = data.conn.buffer := by
        rw [show (call.perform data.conn).buffer = _ from exactly_.buffer, none_]
        exact List.append_nil _
      rw [if_pos waiting, same, if_neg open_.short]
      refine ⟨rfl, fun _ => ⟨rfl, ?_⟩⟩
      exact {
        fits := exactly_.fits
        opened := Or.inr waiting
        watches := open_.watches
        room := room
        front := front
        short := by rw [same]; exact open_.short
        offset := open_.offset.trans (congrArg List.length same).symm
        parsed := by rw [same]; exact open_.parsed }

theorem afterReads_prefix {conn : Connection} {calls : List ReadCall} (fits : conn.Fits)
    (legal : ∀ t ∈ transportReads conn calls, t.Legal) : conn.buffer <+: (afterReads conn calls).buffer := by
  rw [(reads_exactly calls fits legal).1]
  exact List.prefix_append ..

theorem serve_spec {r : Bytes} (allowed : Allowed r) (calls : List ReadCall) {data : ServerRead} (open_ : data.Reading r)
    (healthy : Healthy data.conn calls) (front : (afterReads data.conn calls).buffer <+: r) :
    (data.serve calls).2 = turnFor r (afterReads data.conn calls).buffer := by
  induction calls generalizing data with
  | nil =>
    show ServerTurn.waiting = turnFor r data.conn.buffer
    unfold turnFor
    rw [if_neg (Nat.ne_of_lt open_.room), if_neg open_.short]
  | cons call calls ih =>
    rcases List.forall_mem_append.mp healthy.legal with ⟨here, later⟩
    have exactly_ := Connection.read_exactly call.handshake call.turns open_.fits here
    have step : (call.perform data.conn).buffer <+: (afterReads (call.perform data.conn) calls).buffer :=
      afterReads_prefix exactly_.fits later
    have limit := (@reads_exactly calls (call.perform data.conn) exactly_.fits later).2.1
    rcases readTask_spec allowed open_ healthy (step.trans front) with ⟨turn, waits⟩
    unfold ServerRead.serve
    by_cases waiting : (data.readTask call).2 = .waiting
    · rcases waits waiting with ⟨conn, reading⟩
      rw [if_pos waiting]
      have rest : Healthy (data.readTask call).1.conn calls := by
        rw [conn]
        exact {
          handshakes := fun c member => healthy.handshakes c (List.mem_cons_of_mem _ member)
          memory := fun c member => healthy.memory c (List.mem_cons_of_mem _ member)
          answers := fun c member => healthy.answers c (List.mem_cons_of_mem _ member)
          legal := later }
      rw [ih reading rest (by rw [conn]; exact front), conn]
      rfl
    · rw [if_neg waiting, turn]
      -- what ended the run leaves no room for another byte
      have same : (afterReads (call.perform data.conn) calls).buffer = (call.perform data.conn).buffer := by
        apply (List.IsPrefix.eq_of_length step ?_).symm
        have most : (afterReads (call.perform data.conn) calls).buffer.length ≤ r.length := front.length_le
        have longer := step.length_le
        have below := limit.room
        have bound := limit.limit
        have shape := turn
        unfold turnFor at shape
        by_cases full : (call.perform data.conn).buffer.length + 1 = Connection.maxBufferSize
        · have wide : (afterReads (call.perform data.conn) calls).buffer.length < Connection.maxBufferSize := by
            omega
          omega
        · rw [if_neg full] at shape
          by_cases all : (call.perform data.conn).buffer = r
          · have whole := congrArg List.length all
            omega
          · rw [if_neg all] at shape
            exact absurd shape waiting
      show _ = turnFor r (afterReads (call.perform data.conn) calls).buffer
      rw [same]

theorem accepted_fits {conn : Connection} (accepted : Accepted conn) : conn.Fits := by
  constructor
  · rw [accepted.empty, accepted.capacity]
    decide
  · rw [accepted.capacity]
    decide

theorem accepted_reading {r : Bytes} (allowed : Allowed r) {conn : Connection} (accepted : Accepted conn) :
    ServerRead.Reading r { conn } where
  fits := accepted_fits accepted
  opened := accepted.opened
  watches := rfl
  room := by
    rw [accepted.empty]
    decide
  front := by
    rw [accepted.empty]
    exact List.nil_prefix
  short := by
    rw [accepted.empty]
    exact (allowed_nonempty allowed).symm
  offset := by rw [accepted.empty]; rfl
  parsed := by rw [accepted.empty]; rfl

theorem serve_turnFor {r : Bytes} (allowed : Allowed r) {conn : Connection} (accepted : Accepted conn) {calls : List ReadCall}
    (healthy : Healthy conn calls) (front : delivered (transportReads conn calls) <+: r) :
    (ServerRead.serve { conn } calls).2 = turnFor r (delivered (transportReads conn calls)) ∧
      (delivered (transportReads conn calls)).length + 1 ≤ Connection.maxBufferSize := by
  rcases reads_exactly calls (accepted_fits accepted) healthy.legal with ⟨buffer, fits, _⟩
  rw [accepted.empty, List.nil_append] at buffer
  constructor
  · rw [← buffer]
    exact serve_spec allowed calls (accepted_reading allowed accepted) healthy (buffer ▸ front)
  · rw [← buffer]
    exact Nat.le_trans fits.room fits.limit

/-- Up to two bytes below the limit of the buffer every request that the parser allows is dispatched when its
    last byte has come, however it comes, and nothing happens before. A longer one fills the buffer: the
    connection is given up for it, and the request is never dispatched. -/
theorem requests_delivered {r : Bytes} (allowed : Allowed r) {conn : Connection} (accepted : Accepted conn) {calls : List ReadCall}
    (healthy : Healthy conn calls) (front : delivered (transportReads conn calls) <+: r) :
    (r.length + 1 < Connection.maxBufferSize →
      (ServerRead.serve { conn } calls).2 =
        if delivered (transportReads conn calls) = r then .dispatched (requestOf r) else .waiting) ∧
      (Connection.maxBufferSize ≤ r.length + 1 →
        (ServerRead.serve { conn } calls).2 =
          if (delivered (transportReads conn calls)).length + 1 = Connection.maxBufferSize then .failed .payloadTooLarge
          else .waiting) := by
  rcases serve_turnFor allowed accepted healthy front with ⟨turn, limit⟩
  have most := front.length_le
  rw [turn]
  unfold turnFor
  constructor
  · intro short
    rw [if_neg (by omega)]
  · intro long
    by_cases full : (delivered (transportReads conn calls)).length + 1 = Connection.maxBufferSize
    · rw [if_pos full, if_pos full]
    · rw [if_neg full, if_neg full, if_neg]
      intro all
      have whole := congrArg List.length all
      omega

def chunkedHead : Bytes := ascii "POST /a HTTP/1.1" ++ [13, 10] ++ ascii "Transfer-Encoding: chunked" ++ [13, 10, 13]

def chunkedRest : Bytes := [10] ++ ascii "1" ++ [13, 10] ++ ascii "x" ++ [13, 10] ++ ascii "0" ++ [13, 10, 13, 10]

def chunkedCalls : List ReadCall :=
  [⟨.wantRead, []⟩, ⟨.ok, [{ answer := .ok chunkedHead }, { answer := .wantRead }]⟩, ⟨.ok, [{ answer := .ok chunkedRest }]⟩]

theorem chunkedCalls_delivered :
    delivered (transportReads { state := .handshake } chunkedCalls) = chunkedHead ++ chunkedRest := by
  decide +kernel

theorem requests_delivered_chunked :
    (ServerRead.serve { conn := { state := .handshake } } chunkedCalls).2 =
      .dispatched (requestOf (chunkedHead ++ chunkedRest)) := by
  have turn := (@requests_delivered (chunkedHead ++ chunkedRest) (by decide +kernel) { state := .handshake } ⟨rfl, rfl, Or.inr rfl⟩
    chunkedCalls ⟨by decide +kernel, by decide +kernel, by decide +kernel, by decide +kernel⟩
    ⟨[], by rw [List.append_nil, chunkedCalls_delivered]⟩).1 (by decide +kernel)
  rw [turn, if_pos chunkedCalls_delivered]

/-! ## A request that the buffer does not hold -/

theorem readLoop_fills (chunk : Bytes) {conn : Connection} (fits : conn.Fits)
    (full : conn.buffer.length + chunk.length + 1 = Connection.maxBufferSize) :
    ∃ turns, (∀ turn ∈ turns, turn.realloc = true) ∧ (∀ turn ∈ turns, turn.answer.steady = true) ∧
      (∀ r ∈ conn.readsLoop turns, r.Legal) ∧ delivered (conn.readsLoop turns) = chunk := by
  generalize size : chunk.length = n
  induction n using Nat.strongRecOn generalizing chunk conn with
  | _ n ih =>
    cases chunk with
    | nil =>
      refine ⟨[], by simp, by simp, ?_, ?_⟩
      · unfold Connection.readsLoop
        rcases Connection.ensureSpace_memory fits with ⟨capacity, space, room, limit⟩ | space
        · have none_ : ([] : Bytes).length = 0 := rfl
          omega
        · rw [space]
          exact fun r member => absurd member List.not_mem_nil
      · unfold Connection.readsLoop
        rcases Connection.ensureSpace_memory fits with ⟨capacity, space, room, limit⟩ | space
        · have none_ : ([] : Bytes).length = 0 := rfl
          omega
        · rw [space]
          rfl
    | cons byte bytes =>
      have some_ : (byte :: bytes).length = bytes.length + 1 := rfl
      rcases Connection.ensureSpace_spec fits (by omega) with ⟨capacity, space, room, limit⟩
      let taken := capacity - conn.buffer.length - 1
      let piece := (byte :: bytes).take taken
      have length : piece.length = min taken (byte :: bytes).length := List.length_take
      have rest : ((byte :: bytes).drop taken).length = (byte :: bytes).length - taken := List.length_drop
      have still : Connection.Fits { conn with buffer := conn.buffer ++ piece, bufferCapacity := capacity } := by
        constructor
        · show (conn.buffer ++ piece).length < capacity
          rw [List.length_append]
          omega
        · exact limit
      have later : ((conn.buffer ++ piece).length) + ((byte :: bytes).drop taken).length + 1 = Connection.maxBufferSize := by
        rw [List.length_append]
        omega
      rcases ih _ (by omega) ((byte :: bytes).drop taken) still later rfl with ⟨turns, memory, answers, legal, all⟩
      have reads : conn.readsLoop ({ answer := .ok piece } :: turns) =
          ⟨{ conn with bufferCapacity := capacity }, .ok piece⟩ ::
            Connection.readsLoop { conn with buffer := conn.buffer ++ piece, bufferCapacity := capacity } turns := by
        rw [Connection.readsLoop, space]
        show _ :: Connection.readsLoop { conn with buffer := conn.buffer ++ piece.take taken, bufferCapacity := capacity } turns = _
        rw [List.take_of_length_le (by omega)]
      refine ⟨{ answer := .ok piece } :: turns, List.forall_mem_cons.mpr ⟨rfl, memory⟩, List.forall_mem_cons.mpr ⟨rfl, answers⟩, ?_, ?_⟩
      · rw [reads]
        intro r member
        rcases List.mem_cons.mp member with rfl | later
        · have some_byte : 1 ≤ piece.length := by omega
          have most : piece.length ≤ capacity - conn.buffer.length - 1 := by omega
          exact ⟨some_byte, most⟩
        · exact legal r later
      · rw [reads]
        show piece ++ delivered _ = byte :: bytes
        rw [all, List.take_append_drop]

def largeRequest : Http.ClientRequest where
  method := some (ascii "POST")
  msg := { startLine := [], body := List.replicate (4 * 1024 * 1024) 0 }

theorem largeRequest_length : largeRequest.msg.body.length = 4 * 1024 * 1024 := List.length_replicate

theorem largeRequest_ordinary : largeRequest.msg.Ordinary where
  sound := fun h member => absurd member List.not_mem_nil
  distinct := List.nodup_nil
  framing := fun h member => absurd member List.not_mem_nil
  body := by
    rw [largeRequest_length]
    decide
  count := by decide
  bytes := by
    rw [largeRequest_length]
    decide +kernel

theorem serialize_allowed {req : Http.ClientRequest} (admitted : req.Admitted) (ordinary : req.msg.Ordinary) :
    Allowed req.serialize := by
  rcases @Http.outgoing_reads (.request req) admitted ordinary with ⟨complete, all, _⟩
  rcases Http.httpParserFeed_core Http.httpParserCreate req.serialize with ⟨status, _, consumed⟩
  have nothing : ((Http.freshCore false).reads req.serialize).2 = [] := all
  have eaten : (Http.httpParserFeed Http.httpParserCreate req.serialize).2.lastConsumed =
      req.serialize.length - ((Http.freshCore false).reads req.serialize).2.length := consumed
  rw [nothing] at eaten
  exact ⟨status.trans complete, eaten⟩

theorem largeRequest_admitted : largeRequest.Admitted :=
  ⟨by decide, by decide, by decide, by decide, by decide, by decide +kernel, by decide⟩

theorem body_length_le_serialize (req : Http.ClientRequest) : req.msg.body.length ≤ req.serialize.length := by
  have written : req.serialize = _ := Http.Message.serialize_stored { req.msg with startLine := req.startLine }
  rw [written, List.length_append]
  exact Nat.le_add_left _ _

/-- Not every request that the parser allows is delivered: one of more than 4 MiB never is. -/
theorem not_requests_delivered_large :
    ¬ ∀ r, Allowed r → ∀ conn, Accepted conn → ∀ calls, Healthy conn calls → delivered (transportReads conn calls) <+: r →
      (ServerRead.serve { conn } calls).2 =
        if delivered (transportReads conn calls) = r then .dispatched (requestOf r) else .waiting := by
  intro all
  have allowed := serialize_allowed largeRequest_admitted largeRequest_ordinary
  have size := body_length_le_serialize largeRequest
  rw [largeRequest_length] at size
  generalize largeRequest.serialize = r at allowed size
  have length : (r.take (Connection.maxBufferSize - 1)).length = Connection.maxBufferSize - 1 := by
    rw [List.length_take]
    exact Nat.min_eq_left (Nat.le_trans (Nat.sub_le _ _) size)
  have accepted : Accepted {} := ⟨rfl, rfl, Or.inl rfl⟩
  rcases readLoop_fills (r.take (Connection.maxBufferSize - 1)) (accepted_fits accepted) (by rw [length]; decide)
    with ⟨turns, memory, answers, legal, bytes⟩
  have reads : transportReads {} [⟨.ok, turns⟩] = Connection.readsLoop {} turns := List.append_nil _
  have healthy : Healthy {} [⟨.ok, turns⟩] := {
    handshakes := by simp
    memory := List.forall_mem_singleton.mpr memory
    answers := List.forall_mem_singleton.mpr answers
    legal := by rw [reads]; exact legal }
  have front : delivered (transportReads {} [⟨.ok, turns⟩]) <+: r := by
    rw [reads, bytes]
    exact List.take_prefix ..
  have claimed := all r allowed {} accepted _ healthy front
  have turn := (serve_turnFor allowed accepted healthy front).1
  have full : (delivered (transportReads {} [⟨.ok, turns⟩])).length + 1 = Connection.maxBufferSize := by
    rw [reads, bytes, length]
    decide
  unfold turnFor at turn
  rw [if_pos full, claimed] at turn
  by_cases whole : delivered (transportReads {} [⟨.ok, turns⟩]) = r
  · rw [if_pos whole] at turn
    cases turn
  · rw [if_neg whole] at turn
    cases turn

end BlueBird.Net
