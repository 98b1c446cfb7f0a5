import BlueBird.Server.Dialogue

/-! That a request whose connection does not fail is answered. -/

namespace BlueBird.Server

open BlueBird.Http
open BlueBird.Net (ClientRead ClientTurn Connection ReadAnswer ReadCall ReadOutcome ServerRead ServerTurn TransportStatus delivered
  requestOf Allowed)
open BlueBird.Runtime (Events eventRead eventWrite)
open Runs (run Along)

/-! ## Transports that do not fail -/

def patient : TransportStatus → Bool
  | .ok _ | .wantRead | .wantWrite => true
  | _ => false

def calm : ReadAnswer → Bool
  | .ok _ | .wantRead | .closed => true
  | _ => false

namespace Dialogue

variable {World : Type}

/-- There is memory, no call of a transport fails, and the end of the stream comes behind all that the server wrote. -/
def Healthy (d : Dialogue World) : DialogueAction → Prop
  | .clientWrites statuses | .serverWrites statuses => ∀ status ∈ statuses, patient status = true
  | .serverReads read memory =>
    memory = true ∧ (read.handshake = .ok ∨ read.handshake = .wantRead) ∧
      (∀ turn ∈ read.turns, turn.realloc = true) ∧ ∀ turn ∈ read.turns, turn.answer.steady = true
  | .clientReads read =>
    (∀ turn ∈ read.turns, turn.realloc = true) ∧ (∀ turn ∈ read.turns, calm turn.answer = true) ∧
      ((∃ turn ∈ read.turns, turn.answer = .closed) →
        d.serverStage = .gone ∧ delivered (d.client.conn.reads read.handshake read.turns) = d.downstream)

/-- Nobody has anything to write, and nothing is on its way. -/
structure Quiet (d : Dialogue World) : Prop where
  client : d.clientStage ≠ .writing
  server : d.serverStage ≠ .writing
  up : d.upstream = []
  down : d.downstream = []

end Dialogue

/-! ## Writes and reads that do not fail -/

theorem writeLoop_patient {statuses : List TransportStatus} (patients : ∀ status ∈ statuses, patient status = true) (conn : Connection) :
    (conn.writeLoop statuses).2.1 = .success ∧ (conn.writeLoop statuses).1.state = conn.state := by
  induction statuses generalizing conn with
  | nil => exact ⟨rfl, rfl⟩
  | cons status statuses ih =>
    by_cases idle : conn.writeData = []
    · rw [Connection.writeLoop_empty idle]
      exact ⟨rfl, rfl⟩
    · rcases List.forall_mem_cons.mp patients with ⟨first, rest⟩
      cases status with
      | ok n =>
        rcases Connection.writeLoop_ok idle n with ⟨events, step⟩
        rw [step]
        exact ih rest (conn.taken n)
      | wantRead =>
        unfold Connection.writeLoop
        cases entries : conn.writeData <;> exact ⟨rfl, rfl⟩
      | wantWrite =>
        unfold Connection.writeLoop
        cases entries : conn.writeData <;> exact ⟨rfl, rfl⟩
      | closed => cases first
      | error => cases first

theorem writeTask_patient {conn : Connection} (opened : conn.state ≠ .closed) (watched : Events) {statuses : List TransportStatus}
    (patients : ∀ status ∈ statuses, patient status = true) :
    (writeTask conn watched statuses).1.state = conn.state ∧
      ((writeTask conn watched statuses).2.2 = .waiting ∨
        (writeTask conn watched statuses).2.2 = .done ∧ (writeTask conn watched statuses).1.writeData = []) := by
  rcases writeTask_spec conn watched statuses with ⟨same, done, fails⟩
  have loop := writeLoop_patient patients conn.started
  have whole := Connection.write_started opened statuses
  have success : (conn.write statuses).2.1 = .success := by
    rw [whole]
    exact loop.1
  have state : (conn.write statuses).1.state = conn.state := by
    rw [whole]
    exact loop.2
  rw [same]
  refine ⟨state, ?_⟩
  cases turn : (writeTask conn watched statuses).2.2 with
  | waiting => exact Or.inl rfl
  | done => exact Or.inr ⟨rfl, done turn⟩
  | failed => exact absurd turn (fails success)

/-- How a call ends that finds memory and a transport that does not fail. -/
structure ReadsCalmly (before after : Connection) (ended : ReadOutcome) (turns : List Net.ReadTurn) : Prop where
  success : ended = .success ∨ ended = .payloadTooLarge
  hint : after.readIoHint = before.readIoHint
  state : ended = .success → after.state = before.state ∨ after.state = .closed ∧ ∃ turn ∈ turns, turn.answer = .closed

theorem readLoop_calm (turns : List Net.ReadTurn) {conn : Connection} (fits : conn.Fits) (memory : ∀ turn ∈ turns, turn.realloc = true)
    (answers : ∀ turn ∈ turns, calm turn.answer = true) :
    ReadsCalmly conn (conn.readLoop turns).1 (conn.readLoop turns).2 turns := by
  induction turns generalizing conn with
  | nil =>
    unfold Connection.readLoop
    rcases Connection.ensureSpace_memory fits with ⟨capacity, space, _, _⟩ | space
    · rw [space]
      exact ⟨Or.inl rfl, rfl, fun _ => Or.inl rfl⟩
    · rw [space]
      exact ⟨Or.inr rfl, rfl, fun other => by cases other⟩
  | cons turn turns ih =>
    rcases List.forall_mem_cons.mp memory with ⟨realloc, memory⟩
    rcases List.forall_mem_cons.mp answers with ⟨first, answers⟩
    unfold Connection.readLoop
    rw [realloc]
    rcases Connection.ensureSpace_memory fits with ⟨capacity, space, room, limit⟩ | space
    · rw [space]
      cases answer : turn.answer with
      | ok data =>
        have still : Connection.Fits { conn with
            bufferCapacity := capacity
            buffer := conn.buffer ++ data.take (capacity - conn.buffer.length - 1) } := by
          constructor
          · show (conn.buffer ++ data.take (capacity - conn.buffer.length - 1)).length < capacity
            rw [List.length_append, List.length_take]
            omega
          · exact limit
        have later := ih still memory answers
        refine ⟨later.success, later.hint, ?_⟩
        intro ended
        rcases later.state ended with same | ⟨shut, t, member, closed⟩
        · exact Or.inl same
        · exact Or.inr ⟨shut, t, List.mem_cons_of_mem _ member, closed⟩
      | wantRead => exact ⟨Or.inl rfl, rfl, fun _ => Or.inl rfl⟩
      | closed => exact ⟨Or.inl rfl, rfl, fun _ => Or.inr ⟨rfl, turn, List.mem_cons_self .., answer⟩⟩
      | wantWrite => rw [answer] at first; cases first
      | error => rw [answer] at first; cases first
    · rw [space]
      exact ⟨Or.inr rfl, rfl, fun other => by cases other⟩

/-- `bb_connection_read` on an open connection without TLS. -/
theorem read_calm {conn : Connection} (state : conn.state = .reading) (fits : conn.Fits) {read : ReadCall}
    (memory : ∀ turn ∈ read.turns, turn.realloc = true) (answers : ∀ turn ∈ read.turns, calm turn.answer = true) :
    (read.outcome conn = .success ∨ read.outcome conn = .payloadTooLarge) ∧ (read.perform conn).readIoHint = .default ∧
      (read.outcome conn = .success → (read.perform conn).state = .reading ∨
        (read.perform conn).state = .closed ∧ ∃ turn ∈ read.turns, turn.answer = .closed) := by
  rcases conn with ⟨_, buffer, capacity, writeData, writePending, readIoHint, writeIoHint⟩
  cases state
  have calmly := @readLoop_calm read.turns ⟨.reading, buffer, capacity, writeData, writePending, .default, writeIoHint⟩
    ⟨fits.room, fits.limit⟩ memory answers
  exact ⟨calmly.success, calmly.hint, calmly.state⟩

/-! ## The client's parser -/

theorem response_running {sent : BbResponse} (admitted : (Outgoing.response sent).Admitted) (ordinary : sent.msg.Ordinary)
    {part : Bytes} (front : part <+: sent.serialize) (short : part ≠ sent.serialize) :
    parserFeeder.running (parserFeeder.feed (freshCore true) part).1 = true := by
  have all := (@outgoing_reads (.response sent) admitted ordinary).2.1
  rcases front with ⟨rest, whole⟩
  by_contra stopped
  have same := parserFeeder.stops (freshCore true) part rest stopped
  rw [whole] at same
  have eaten : (parserFeeder.feed (freshCore true) sent.serialize).2 = sent.serialize.length := by
    show sent.serialize.length - ((freshCore true).reads sent.serialize).2.length = _
    rw [show ((freshCore true).reads sent.serialize).2 = [] from all]
    rfl
  have most : (parserFeeder.feed (freshCore true) part).2 ≤ part.length := Nat.sub_le _ _
  rw [← same, eaten, ← whole, List.length_append] at most
  have none_ : rest = [] := List.length_eq_zero_iff.mp (by omega)
  rw [none_, List.append_nil] at whole
  exact short whole

theorem feed_says {data : ClientRead} (reading : data.Reading) :
    data.feed.1 = (parserFeeder.feed (freshCore true) data.conn.buffer).1.status ∧
      (data.feed.1 = .complete → ∃ res, data.feed.2.answer = .success res) := by
  rcases reading.parsed with ⟨front, back, buffer, offset, core, running⟩
  rcases httpParserFeed_behind core running back with ⟨status, after, _⟩
  have left : data.conn.buffer.drop data.parsedOffset = back := by rw [buffer, offset, List.drop_left]
  rw [← buffer] at status after
  unfold ClientRead.feed
  rw [left]
  refine ⟨status, fun complete => ?_⟩
  have mode : (httpParserFeed data.httpParser back).2.responseMode = true := by
    rw [after]
    exact ClientRead.feeder_responseMode data.conn.buffer
  have state : (httpParserFeed data.httpParser back).2.state = .stateComplete := by
    rw [after]
    exact status_complete.mp (status.symm.trans complete)
  have got : httpParserGetResponse (httpParserFeed data.httpParser back).2 = some (httpParserFeed data.httpParser back).2.response := by
    unfold httpParserGetResponse
    rw [if_neg]
    rintro (other | open_)
    · rw [mode] at other
      cases other
    · exact open_ state
  unfold ClientRead.answer
  rw [got]
  exact ⟨_, rfl⟩

theorem clientStep_watched (data : ClientRead) : data.readStep.1.readWatchEvents = data.readWatchEvents := by
  unfold ClientRead.readStep
  by_cases invalid : data.parsedOffset > data.conn.buffer.length
  · rw [if_pos invalid]
  · rw [if_neg invalid]
    dsimp only
    cases data.feed.1 <;> rfl

theorem clientTask_success {data : ClientRead} {read : ReadCall} (success : read.outcome data.conn = .success)
    (steady : (read.perform data.conn).desiredRead = data.readWatchEvents) (ready : (read.perform data.conn).state ≠ .handshake) :
    data.readTask read = ClientRead.readStep { data with conn := read.perform data.conn } := by
  unfold ClientRead.readTask
  rw [success]
  dsimp only
  rw [if_neg (fun other => other steady), if_neg ready]

theorem clientStep_spec {data : ClientRead} (reading : data.Reading) :
    (parserFeeder.running (parserFeeder.feed (freshCore true) data.conn.buffer).1 = true → data.readStep.2 = .waiting) ∧
      ((parserFeeder.feed (freshCore true) data.conn.buffer).1.status = .complete → ∃ res, data.readStep.2 = .success res) := by
  rcases feed_says reading with ⟨status, answers⟩
  rcases reading.parsed with ⟨front, back, buffer, offset, _, _⟩
  have valid : ¬ data.parsedOffset > data.conn.buffer.length := by
    rw [offset, buffer, List.length_append]
    omega
  unfold ClientRead.readStep
  rw [if_neg valid]
  constructor
  · intro running
    have incomplete := status.trans ((parserFeeder_running _).mp running)
    simp only [incomplete]
  · intro complete
    have done := status.trans complete
    rcases answers done with ⟨res, answer⟩
    simp only [done]
    exact ⟨res, answer⟩

/-! ## A run without failures -/

section
variable {World : Type} (call : Callback → Exchange World → Reply World) (server : BbServer) (req : ClientRequest) (world : World)

/-- The exchange goes on: neither side has given up, and neither has all that it waits for. -/
structure Going (d : Dialogue World) : Prop extends Consistent call server req world d where
  asks : d.clientStage = .writing ∨ d.clientStage = .reading →
    d.client.conn.state = .reading ∧ d.client.readWatchEvents = eventRead ∧
      ∀ sent ∈ (outcome call server req world).queued, d.client.conn.buffer ≠ sent.serialize
  sent : d.clientStage = .reading → d.client.conn.writeData = []
  client : d.clientStage = .writing ∨ d.clientStage = .reading ∨ ∃ res, d.clientStage = .ended (.success res)
  waits : d.serverStage = .reading → ServerRead.Reading req.serialize d.server
  server : d.serverStage = .reading ∨
    (∃ sent, (outcome call server req world).queued = [sent] ∧ d.response = sent.serialize) ∧
      (d.serverStage = .writing ∧ d.server.conn.state = .writing ∨ d.serverStage ≠ .writing ∧ d.server.conn.writeData = [])

end

namespace Dialogue

theorem clientWrites_stage {World : Type} (d : Dialogue World) (statuses : List TransportStatus) :
    ((writeTask d.client.conn d.clientWatched statuses).2.2 = .waiting → (d.clientWrites statuses).clientStage = .writing) ∧
      ((writeTask d.client.conn d.clientWatched statuses).2.2 = .done → (d.clientWrites statuses).clientStage = .reading) := by
  unfold clientWrites
  dsimp only
  constructor
  · intro turn
    rw [turn]
  · intro turn
    rw [turn]

theorem serverWrites_stage {World : Type} (d : Dialogue World) (statuses : List TransportStatus) :
    ((writeTask d.server.conn d.serverWatched statuses).2.2 = .waiting → (d.serverWrites statuses).serverStage = .writing) ∧
      ((writeTask d.server.conn d.serverWatched statuses).2.2 = .done →
        (d.serverWrites statuses).serverStage ≠ .writing ∧ (d.serverWrites statuses).serverStage ≠ .reading) := by
  unfold serverWrites
  dsimp only
  constructor
  · intro turn
    rw [turn]
  · intro turn
    rw [turn]
    cases d.ws with
    | none => constructor <;> (intro other; cases other)
    | some handler => constructor <;> (intro other; cases other)

end Dialogue

section
variable {World : Type} {call : Callback → Exchange World → Reply World} {server : BbServer} {req : ClientRequest} {world : World}

namespace Going

variable {d : Dialogue World}

theorem clientWrites (going : Going call server req world d) (stage : d.clientStage = .writing) {statuses : List TransportStatus}
    (healthy : d.Healthy (.clientWrites statuses)) : Going call server req world (d.clientWrites statuses) := by
  have consistent := going.toConsistent.clientWrites stage statuses
  rcases going.asks (Or.inl stage) with ⟨state, watched, ahead⟩
  have opened : d.client.conn.state ≠ .closed := by
    rw [state]
    decide
  rcases writeTask_patient opened d.clientWatched healthy with ⟨same, ends⟩
  have side : (writeTask d.client.conn d.clientWatched statuses).1.readSide = d.client.conn.readSide := by
    rw [(writeTask_spec d.client.conn d.clientWatched statuses).1]
    exact d.client.conn.write_readSide statuses
  have buffer : (d.clientWrites statuses).client.conn.buffer = d.client.conn.buffer := congrArg Prod.fst side
  have after := d.clientWrites_stage statuses
  exact {
    consistent with
    asks := fun _ => ⟨same.trans state, watched, by rw [buffer]; exact ahead⟩
    sent := by
      intro reading
      rcases ends with waiting | ⟨_, empty⟩
      · rw [after.1 waiting] at reading
        cases reading
      · exact empty
    client := by
      rcases ends with waiting | ⟨done, _⟩
      · exact Or.inl (after.1 waiting)
      · exact Or.inr (Or.inl (after.2 done))
    waits := going.waits
    server := going.server }

theorem serverWrites (going : Going call server req world d) (stage : d.serverStage = .writing) {statuses : List TransportStatus}
    (healthy : d.Healthy (.serverWrites statuses)) : Going call server req world (d.serverWrites statuses) := by
  have consistent := going.toConsistent.serverWrites statuses
  have after := d.serverWrites_stage statuses
  rcases going.server with reading | ⟨answered, here⟩
  · rw [stage] at reading
    cases reading
  · rcases here with ⟨_, state⟩ | ⟨other, _⟩
    · have opened : d.server.conn.state ≠ .closed := by
        rw [state]
        decide
      rcases writeTask_patient opened d.serverWatched healthy with ⟨same, ends⟩
      have next : (d.serverWrites statuses).serverStage = .writing ∧ (d.serverWrites statuses).server.conn.state = .writing ∨
          (d.serverWrites statuses).serverStage ≠ .writing ∧ (d.serverWrites statuses).server.conn.writeData = [] := by
        rcases ends with waiting | ⟨done, empty⟩
        · exact Or.inl ⟨after.1 waiting, same.trans state⟩
        · exact Or.inr ⟨(after.2 done).1, empty⟩
      exact {
        consistent with
        asks := going.asks
        sent := going.sent
        client := going.client
        waits := by
          intro reading
          rcases ends with waiting | ⟨done, _⟩
          · rw [after.1 waiting] at reading
            cases reading
          · exact absurd reading (after.2 done).2
        server := Or.inr ⟨answered, next⟩ }
    · exact absurd stage other

theorem serverReads (going : Going call server req world d) (admitted : req.Admitted) (ordinary : req.msg.Ordinary)
    (small : req.serialize.length + 1 < Connection.maxBufferSize) {sent : BbResponse}
    (queued : (outcome call server req world).queued = [sent]) (stage : d.serverStage = .reading) {read : ReadCall} {memory : Bool}
    (order : d.InOrder (.serverReads read memory)) (healthy : d.Healthy (.serverReads read memory)) :
    Going call server req world (d.serverReads call server read memory) := by
  have consistent := going.toConsistent.serverReads admitted ordinary stage order
  rcases order with ⟨legal, next⟩
  rcases healthy with ⟨rfl, shake, memory, answers⟩
  rcases request_parsed admitted ordinary with ⟨allowed, parsed⟩
  have reading := going.waits stage
  have unserved := (going.listening stage).2
  have front := (going.up.read reading.fits legal next).front
  rw [going.request] at front
  have transport : Net.Healthy d.server.conn [read] := {
    handshakes := List.forall_mem_singleton.mpr shake
    memory := List.forall_mem_singleton.mpr memory
    answers := List.forall_mem_singleton.mpr answers
    legal := by
      show ∀ r ∈ d.server.conn.reads read.handshake read.turns ++ [], r.Legal
      rw [List.append_nil]
      exact legal }
  rcases Net.readTask_spec allowed reading transport front with ⟨turn, goes⟩
  have room : (read.perform d.server.conn).buffer.length + 1 ≠ Connection.maxBufferSize := by
    have most := front.length_le
    omega
  unfold Net.turnFor at turn
  rw [if_neg room] at turn
  by_cases all : (read.perform d.server.conn).buffer = req.serialize
  · rw [if_pos all] at turn
    have after : d.serverReads call server read true = Dialogue.dispatch call server { d with
        server := (d.server.readTask read).1
        upstream := d.upstream.drop (delivered (d.server.conn.reads read.handshake read.turns)).length } true
          (requestOf req.serialize) := by
      unfold Dialogue.serverReads
      dsimp only
      rw [turn]
    have made : answer call server d.world (requestOf req.serialize) = outcome call server req world := by
      rw [parsed, unserved.world]
      rfl
    have written : d.serverReads call server read true = Dialogue.queued { d with
        server := (d.server.readTask read).1
        upstream := d.upstream.drop (delivered (d.server.conn.reads read.handshake read.turns)).length
        world := (outcome call server req world).world
        taken := d.taken ++ (outcome call server req world).taken
        ws := (outcome call server req world).ws } sent := by
      rw [after]
      unfold Dialogue.dispatch
      dsimp only
      rw [made, queued]
      rfl
    rw [written] at consistent ⊢
    exact {
      consistent with
      asks := going.asks
      sent := going.sent
      client := going.client
      waits := fun other => by cases other
      server := Or.inr ⟨⟨sent, queued, rfl⟩, Or.inl ⟨rfl, rfl⟩⟩ }
  · rw [if_neg all] at turn
    have after : d.serverReads call server read true = { d with
        server := (d.server.readTask read).1
        upstream := d.upstream.drop (delivered (d.server.conn.reads read.handshake read.turns)).length } := by
      unfold Dialogue.serverReads
      dsimp only
      rw [turn]
    rw [after] at consistent ⊢
    exact {
      consistent with
      asks := going.asks
      sent := going.sent
      client := going.client
      waits := fun _ => (goes turn).2
      server := Or.inl stage }

theorem clientReads (going : Going call server req world d) {sent : BbResponse}
    (queued : (outcome call server req world).queued = [sent]) (admitted : (Outgoing.response sent).Admitted)
    (ordinary : sent.msg.Ordinary) (small : sent.serialize.length + 1 < Connection.maxBufferSize) (stage : d.clientStage = .reading)
    {read : ReadCall} (order : d.InOrder (.clientReads read)) (healthy : d.Healthy (.clientReads read)) :
    Going call server req world (d.clientReads read) := by
  have consistent := going.toConsistent.clientReads stage order
  rcases order with ⟨legal, next⟩
  rcases healthy with ⟨memory, answers, ends⟩
  rcases going.asks (Or.inr stage) with ⟨state, watched, _⟩
  rcases going.asking (Or.inr stage) with ⟨reading, fits⟩
  have exactly_ := Connection.read_exactly read.handshake read.turns fits legal
  have buffer : (read.perform d.client.conn).buffer = d.client.conn.buffer ++ delivered (d.client.conn.reads read.handshake read.turns) :=
    exactly_.buffer
  have down := going.down.read fits legal next
  have front : (read.perform d.client.conn).buffer <+: sent.serialize := by
    rcases going.server with waiting | ⟨⟨other, same, response⟩, _⟩
    · have none_ := down.front
      rw [(going.listening waiting).2.response] at none_
      rw [List.prefix_nil.mp none_]
      exact List.nil_prefix
    · rw [queued] at same
      cases same
      rw [← response]
      exact down.front
  have most := front.length_le
  rcases read_calm state fits memory answers with ⟨success | full, hint, left⟩
  · have steady : (read.perform d.client.conn).desiredRead = d.client.readWatchEvents := by
      unfold Connection.desiredRead
      rw [hint, watched]
      decide
    have ready : (read.perform d.client.conn).state ≠ .handshake := by
      rcases left success with open_ | ⟨shut, _⟩
      · rw [open_]
        decide
      · rw [shut]
        decide
    -- the end of the stream is behind the whole response
    have shut : (∃ turn ∈ read.turns, turn.answer = .closed) → (read.perform d.client.conn).buffer = sent.serialize := by
      intro closed
      rcases ends closed with ⟨gone, all⟩
      rcases going.server with waiting | ⟨⟨other, same, response⟩, ⟨writing, _⟩ | ⟨_, empty⟩⟩
      · rw [gone] at waiting
        cases waiting
      · rw [gone] at writing
        cases writing
      · rw [queued] at same
        cases same
        rw [← response]
        rw [all, List.drop_length] at down
        exact down.arrived empty
    have grown : ClientRead.Reading { d.client with conn := read.perform d.client.conn } :=
      ClientRead.reading_grows reading (by rw [buffer]; exact List.prefix_append ..)
    rcases clientStep_spec grown with ⟨waits, succeeds⟩
    have task := clientTask_success success steady ready
    have after : (d.clientReads read).clientStage =
        if (d.client.readTask read).2 = .waiting then .reading else .ended (d.client.readTask read).2 := rfl
    by_cases whole : (read.perform d.client.conn).buffer = sent.serialize
    · have complete : (parserFeeder.feed (freshCore true) (read.perform d.client.conn).buffer).1.status = .complete := by
        rw [whole]
        exact (@outgoing_reads (.response sent) admitted ordinary).1
      rcases succeeds complete with ⟨res, told⟩
      have ended : (d.clientReads read).clientStage = .ended (.success res) := by
        rw [after, task, told, if_neg (fun other => by cases other)]
      have none_ : ¬ ((d.clientReads read).clientStage = .writing ∨ (d.clientReads read).clientStage = .reading) := by
        rw [ended]
        rintro (other | other) <;> cases other
      exact {
        consistent with
        asks := fun open_ => absurd open_ none_
        sent := fun open_ => absurd (Or.inr open_) none_
        client := Or.inr (Or.inr ⟨res, ended⟩)
        waits := going.waits
        server := going.server }
    · have waiting : (d.client.readTask read).2 = .waiting := by
        rw [task]
        exact waits (response_running admitted ordinary front whole)
      have stays : (d.clientReads read).clientStage = .reading := by rw [after, if_pos waiting]
      have conn : (d.client.readTask read).1.conn = read.perform d.client.conn :=
        (ClientRead.readTask_answered reading (by rw [buffer]; exact List.prefix_append ..)).1
      have entries : (read.perform d.client.conn).writeData = d.client.conn.writeData :=
        Connection.read_writeData d.client.conn read.handshake read.turns
      have open_ : (read.perform d.client.conn).state = .reading := by
        rcases left success with open_ | ⟨_, closed⟩
        · exact open_
        · exact absurd (shut closed) whole
      exact {
        consistent with
        asks := by
          intro _
          refine ⟨?_, ?_, ?_⟩
          · show (d.client.readTask read).1.conn.state = .reading
            rw [conn]
            exact open_
          · show (d.client.readTask read).1.readWatchEvents = eventRead
            rw [task, clientStep_watched]
            exact watched
          · intro other member
            rw [queued] at member
            rw [List.mem_singleton.mp member]
            show (d.client.readTask read).1.conn.buffer ≠ _
            rw [conn]
            exact whole
        sent := by
          intro _
          show (d.client.readTask read).1.conn.writeData = []
          rw [conn, entries]
          exact going.sent stage
        client := Or.inr (Or.inl stays)
        waits := going.waits
        server := going.server }
  · have wide := (exactly_.tooLarge full).2
    have same : (d.client.conn.read read.handshake read.turns).1.buffer = (read.perform d.client.conn).buffer := rfl
    rw [same] at wide
    omega

theorem step (going : Going call server req world d) (admitted : req.Admitted) (ordinary : req.msg.Ordinary)
    (small : req.serialize.length + 1 < Connection.maxBufferSize) {sent : BbResponse}
    (queued : (outcome call server req world).queued = [sent]) (fine : (Outgoing.response sent).Admitted) (plain : sent.msg.Ordinary)
    (short : sent.serialize.length + 1 < Connection.maxBufferSize) {action : DialogueAction} (order : d.InOrder action)
    (healthy : d.Healthy action) {d' : Dialogue World} (taken : d.step call server action = some d') :
    Going call server req world d' := by
  cases action with
  | clientWrites statuses =>
    rcases Option.ite_none_right_eq_some.mp taken with ⟨stage, same⟩
    cases same
    exact going.clientWrites stage healthy
  | serverReads read memory =>
    rcases Option.ite_none_right_eq_some.mp taken with ⟨stage, same⟩
    cases same
    exact going.serverReads admitted ordinary small queued stage order healthy
  | serverWrites statuses =>
    rcases Option.ite_none_right_eq_some.mp taken with ⟨stage, same⟩
    cases same
    exact going.serverWrites stage healthy
  | clientReads read =>
    rcases Option.ite_none_right_eq_some.mp taken with ⟨stage, same⟩
    cases same
    exact going.clientReads queued fine plain short stage order healthy

end Going

theorem start_going (admitted : req.Admitted) (ordinary : req.msg.Ordinary) {conn : Connection} (accepted : Net.Accepted conn)
    (idle : conn.writeData = []) {sent : BbResponse} (queued : (outcome call server req world).queued = [sent])
    (fine : (Outgoing.response sent).Admitted) (plain : sent.msg.Ordinary) :
    Going call server req world (.start req conn world) := by
  have consistent := @start_consistent World call server req world admitted ordinary conn accepted idle
  have allowed := (request_parsed admitted ordinary).1
  rcases queue_eq {} req.serialize with ⟨writeData, list⟩
  have some_ : [] ≠ sent.serialize := by
    intro none_
    have complete := (received_answered fine plain).1
    rw [← none_] at complete
    exact absurd complete (by decide)
  exact {
    consistent with
    asks := by
      intro _
      refine ⟨?_, rfl, fun other member => ?_⟩
      · show (queue {} req.serialize).state = .reading
        rw [list]
      · rw [queued] at member
        rw [List.mem_singleton.mp member]
        show (queue {} req.serialize).buffer ≠ _
        rw [list]
        exact some_
    sent := fun other => by cases other
    client := Or.inl rfl
    waits := fun _ => Net.accepted_reading allowed accepted
    server := Or.inl rfl }

end

instance {World : Type} (d : Dialogue World) (action : DialogueAction) : Decidable (d.Healthy action) :=
  match action with
  | .clientWrites statuses | .serverWrites statuses => inferInstanceAs (Decidable (∀ status ∈ statuses, patient status = true))
  | .serverReads read memory => inferInstanceAs (Decidable (memory = true ∧ (read.handshake = .ok ∨ read.handshake = .wantRead) ∧
      (∀ turn ∈ read.turns, turn.realloc = true) ∧ ∀ turn ∈ read.turns, turn.answer.steady = true))
  | .clientReads read => inferInstanceAs (Decidable ((∀ turn ∈ read.turns, turn.realloc = true) ∧
      (∀ turn ∈ read.turns, calm turn.answer = true) ∧ ((∃ turn ∈ read.turns, turn.answer = .closed) →
        d.serverStage = .gone ∧ delivered (d.client.conn.reads read.handshake read.turns) = d.downstream)))

theorem hello_rests : (run (Dialogue.step greet helloServer) (.start helloRequest {} 0) helloActions).map
    (fun d => (d.clientStage, d.serverStage, d.upstream, d.downstream)) =
      some (.ended (.success (received helloResponse)), .gone, [], []) := by
  decide +kernel

end BlueBird.Server
