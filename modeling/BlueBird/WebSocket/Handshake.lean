import BlueBird.Connection.Reading
import BlueBird.Http.Framing
import BlueBird.WebSocket.Bounds
import BlueBird.WebSocket.Codec

namespace BlueBird.WebSocket

open Http

/-! ## The client while it connects -/

/-- `_bb_ws_client_task_data_t` without the websocket and the connect callback. -/
structure HandshakeData where
  httpParser : Option HttpParser := none
  parsedOffset : Nat := 0

inductive HandshakeRead where
  | more (data : HandshakeData)
  | error
  | done

/-- `_bb_ws_handshake_read_step` up to the callback, with the bytes it leaves in the connection's buffer; `create` is
whether the parser could be allocated. -/
def handshakeReadStep (create : Bool) (data : HandshakeData) (buffer : Bytes) : HandshakeRead × Bytes :=
  if data.httpParser = none ∧ ¬ create then (.error, buffer)
  else if data.parsedOffset > buffer.length then (.error, buffer)
  else
    let (status, parser) := httpParserFeed (data.httpParser.getD httpParserCreateResponse) (buffer.drop data.parsedOffset)
    let parsedOffset := data.parsedOffset + parser.lastConsumed
    match status with
    | .incomplete => (.more { httpParser := some parser, parsedOffset }, buffer)
    | .error => (.error, buffer)
    -- `conn->buffer_length = 0`, whatever lies behind `parsed_offset`
    | .complete => (.done, [])

def opClose : Byte := 8

/-- The loop of `_websocket_read_step` comes to these frames: it returns at a CLOSE. -/
def dispatched : List Frame → List Frame
  | [] => []
  | frame :: frames => if frame.opcode = opClose then [frame] else frame :: dispatched frames

inductive Notice where
  | connected
  | handshakeFailed
  | frame (frame : Frame)

/-- The read step is the handshake's as long as there are `data` for it. -/
structure Client where
  conn : Net.Connection
  data : Option HandshakeData := some {}
  failed : Bool := false
  received : List Frame := []
  log : List Notice := []

namespace Client

/-- `_websocket_read_step` -/
def websocketReadStep (c : Client) (alloc : Allocator) : Client :=
  let result := readFrames alloc c.conn.buffer
  { c with
    conn := { c.conn with buffer := result.buffer }
    received := c.received ++ result.frames
    log := c.log ++ (dispatched result.frames).map .frame }

/-- What `_bb_read_task` calls once the connection has been read. -/
def readStep (c : Client) (create : Bool) (alloc : Allocator) : Client :=
  match c.data with
  | none => c.websocketReadStep alloc
  | some data =>
    if c.failed then c
    else
      match handshakeReadStep create data c.conn.buffer with
      | (.more data, buffer) => { c with conn := { c.conn with buffer }, data := some data }
      | (.error, buffer) => { c with conn := { c.conn with buffer }, failed := true, log := c.log ++ [.handshakeFailed] }
      | (.done, buffer) => { c with conn := { c.conn with buffer }, data := none, log := c.log ++ [.connected] }

/-- One `bb_connection_read` succeeds, takes `chunk` and leaves the connection open for more. -/
def Takes (conn : Net.Connection) (chunk : Bytes) (after : Net.Connection) : Prop :=
  ∃ turns, conn.read .ok turns = (after, .success) ∧ after.buffer = conn.buffer ++ chunk ∧ after.state = .reading ∧
    after.readIoHint = .default

/-- The stream comes in these chunks, and the allocations succeed. -/
inductive Run : Client → List Bytes → Client → Prop where
  | nil (c : Client) : Run c [] c
  | cons {c after : Client} {chunk : Bytes} {chunks : List Bytes} {conn : Net.Connection} {alloc : Allocator}
      (taken : Takes c.conn chunk conn) (granted : alloc.Succeeds)
      (later : Run (readStep { c with conn } true alloc) chunks after) : Run c (chunk :: chunks) after

end Client

/-! ## The head of the answer -/

/-- A response head that the parser takes, with the status of a switch of protocols. -/
structure SwitchingProtocols (head : Head) : Prop where
  accepted : head.Accepted true
  status : (parseResponseLine head.start {}).toOption.map (·.statusCode) = some 101

abbrev handshakeCore : ParserCore := httpParserCreateResponse.toParserCore

theorem SwitchingProtocols.bodiless {head : Head} (valid : SwitchingProtocols head) : head.bodiless true = true := by
  have status := valid.status
  unfold Head.bodiless started
  rw [if_pos rfl]
  cases line : (parseResponseLine head.start {}).toOption with
  | none =>
    rw [line] at status
    cases status
  | some response =>
    rw [line] at status
    have code : response.statusCode = 101 := Option.some.inj status
    show decide _ = true
    apply decide_eq_true
    exact ⟨rfl, Or.inl ⟨by rw [code]; decide, by rw [code]; decide⟩⟩

theorem SwitchingProtocols.feed {head : Head} (valid : SwitchingProtocols head) (rest : Bytes) :
    (parserFeeder.feed handshakeCore (head.bytes ++ rest)).1.status = .complete ∧
      (parserFeeder.feed handshakeCore (head.bytes ++ rest)).2 = head.bytes.length := by
  rcases reads_head_framing true head rest with ⟨_, p, _, read, _, bodiless⟩ | ⟨refused, _⟩
  · rw [valid.bodiless] at bodiless
    have complete : p.finish.state = .stateComplete := by
      unfold ParserCore.finish
      rw [if_pos bodiless]
    have ended : resume (sectionTurn p.finish.state, p.finish) rest = (p.finish.bare, rest) := by
      rw [complete]
      rfl
    rw [ended] at read
    have core : ((freshCore true).feed (head.bytes ++ rest)).1.bare = p.finish.bare := congrArg Prod.fst read
    have left : ((freshCore true).feed (head.bytes ++ rest)).2 = rest := congrArg Prod.snd read
    constructor
    · apply status_complete.mpr
      have state := congrArg ParserCore.state core
      exact state.trans complete
    · show (head.bytes ++ rest).length - ((freshCore true).feed (head.bytes ++ rest)).2.length = _
      rw [left, List.length_append]
      omega
  · exact absurd ⟨valid.accepted, Or.inl valid.bodiless⟩ refused

/-- A parser that still runs behind `xs ++ ys` ran behind `xs`. -/
theorem feed_running {p : ParserCore} {xs ys : Bytes} (running : (parserFeeder.feed p (xs ++ ys)).1.status = .incomplete) :
    (parserFeeder.feed p xs).1.status = .incomplete := by
  by_cases before : parserFeeder.running (parserFeeder.feed p xs).1 = true
  · exact (parserFeeder_running _).mp before
  · rw [parserFeeder.stops p xs ys before] at running
    exact running

theorem SwitchingProtocols.waits {head : Head} (valid : SwitchingProtocols head) {seen missing : Bytes}
    (split : head.bytes = seen ++ missing) (short : missing ≠ []) :
    (parserFeeder.feed handshakeCore seen).1.status = .incomplete := by
  by_cases running : parserFeeder.running (parserFeeder.feed handshakeCore seen).1 = true
  · exact (parserFeeder_running _).mp running
  · have count := (valid.feed []).2
    have less : (parserFeeder.feed handshakeCore seen).2 ≤ seen.length := Nat.sub_le _ _
    have more := List.length_pos_of_ne_nil short
    rw [List.append_nil, split, parserFeeder.stops handshakeCore seen missing running, List.length_append] at count
    omega

namespace Client

/-! ## The handshake over the chunks -/

/-- The client has read `seen`, all of it still in the buffer, and the parser wants more. -/
structure Waiting (c : Client) (seen : Bytes) : Prop where
  buffer : c.conn.buffer = seen
  running : (parserFeeder.feed handshakeCore seen).1.status = .incomplete
  data : ∃ data, c.data = some data ∧ data.parsedOffset = seen.length ∧
    (data.httpParser.getD httpParserCreateResponse).toParserCore = (parserFeeder.feed handshakeCore seen).1
  sound : c.failed = false
  received : c.received = []
  log : c.log = []

theorem Waiting.readStep {c : Client} {seen chunk : Bytes} (waiting : c.Waiting seen) {conn : Net.Connection}
    (buffer : conn.buffer = c.conn.buffer ++ chunk) (alloc : Allocator) :
    ((parserFeeder.feed handshakeCore (seen ++ chunk)).1.status = .incomplete →
        (Client.readStep { c with conn } true alloc).Waiting (seen ++ chunk)) ∧
      ((parserFeeder.feed handshakeCore (seen ++ chunk)).1.status = .complete →
        Client.readStep { c with conn } true alloc =
          { conn := { conn with buffer := [] }, data := none, failed := false, received := [], log := [.connected] }) ∧
      ((parserFeeder.feed handshakeCore (seen ++ chunk)).1.status = .error →
        (Client.readStep { c with conn } true alloc).failed = true ∧ (Client.readStep { c with conn } true alloc).data ≠ none ∧
          (Client.readStep { c with conn } true alloc).log = [.handshakeFailed]) := by
  rcases waiting with ⟨held, running, ⟨data, some_data, offset, core⟩, sound, received, log⟩
  rw [held] at buffer
  generalize current : data.httpParser.getD httpParserCreateResponse = parser at core
  rcases httpParserFeed_core parser chunk with ⟨status, after, count⟩
  have ran := (parserFeeder_running (parserFeeder.feed handshakeCore seen).1).mpr running
  have resumed := parserFeeder.resumes handshakeCore seen chunk ran
  have same : parserFeeder.feed parser.toParserCore chunk = parserFeeder.feed (parserFeeder.feed handshakeCore seen).1 chunk := by
    rw [core]
  have whole : (parserFeeder.feed handshakeCore (seen ++ chunk)).1 = (parserFeeder.feed parser.toParserCore chunk).1 := by
    rw [resumed, same]
  have unread : conn.buffer.drop data.parsedOffset = chunk := by
    rw [buffer, offset, List.drop_left]
  have inside : ¬ data.parsedOffset > conn.buffer.length := by
    rw [buffer, offset, List.length_append]
    omega
  have created : ¬ (data.httpParser = none ∧ ¬ true = true) := fun both => both.2 rfl
  have step : handshakeReadStep true data conn.buffer =
      if (httpParserFeed parser chunk).1 = .incomplete then
        (.more ⟨some (httpParserFeed parser chunk).2, data.parsedOffset + (httpParserFeed parser chunk).2.lastConsumed⟩, conn.buffer)
      else if (httpParserFeed parser chunk).1 = .error then (.error, conn.buffer)
      else (.done, []) := by
    unfold handshakeReadStep
    rw [if_neg created, if_neg inside, unread, current]
    cases httpParserFeed parser chunk with
    | mk status q => cases status <;> rfl
  refine ⟨?_, ?_, ?_⟩
  · intro incomplete
    have more : (httpParserFeed parser chunk).1 = .incomplete := by rw [status, ← whole, incomplete]
    rw [if_pos more] at step
    have next : Client.readStep { c with conn } true alloc =
        { c with conn, data := some ⟨some (httpParserFeed parser chunk).2,
          data.parsedOffset + (httpParserFeed parser chunk).2.lastConsumed⟩ } := by
      unfold Client.readStep
      simp only [some_data, sound, Bool.false_eq_true, if_false, step]
    have all : (parserFeeder.feed parser.toParserCore chunk).2 = chunk.length := by
      apply parserFeeder.eats
      rw [parserFeeder_running, ← whole, incomplete]
    rw [next]
    constructor
    · exact buffer
    · exact incomplete
    · exact ⟨_, rfl, by rw [count, all, offset, List.length_append], by rw [whole, ← after]; rfl⟩
    · exact sound
    · exact received
    · exact log
  · intro complete
    have done : (httpParserFeed parser chunk).1 = .complete := by rw [status, ← whole, complete]
    rw [if_neg (by rw [done]; decide), if_neg (by rw [done]; decide)] at step
    unfold Client.readStep
    simp only [some_data, sound, Bool.false_eq_true, if_false, step, received, log, List.nil_append]
  · intro error
    have stuck : (httpParserFeed parser chunk).1 = .error := by rw [status, ← whole, error]
    rw [if_neg (by rw [stuck]; decide), if_pos stuck] at step
    have next : Client.readStep { c with conn } true alloc = { c with conn, failed := true, log := [.handshakeFailed] } := by
      unfold Client.readStep
      simp only [some_data, sound, Bool.false_eq_true, if_false, step, log, List.nil_append]
    rw [next]
    exact ⟨rfl, by rw [some_data]; exact fun none_ => Option.some_ne_none _ none_, rfl⟩

theorem Waiting.run {c d : Client} {chunks : List Bytes} (run : Run c chunks d) {seen : Bytes} (waiting : c.Waiting seen)
    (incomplete : (parserFeeder.feed handshakeCore (seen ++ chunks.flatten)).1.status = .incomplete) :
    d.Waiting (seen ++ chunks.flatten) := by
  induction run generalizing seen with
  | nil c =>
    rw [List.flatten_nil, List.append_nil]
    exact waiting
  | cons taken granted later ih =>
    rcases taken with ⟨_, _, buffer, _⟩
    rw [List.flatten_cons, ← List.append_assoc] at incomplete ⊢
    exact ih ((waiting.readStep buffer _).1 (feed_running incomplete)) incomplete

theorem Run.split {c d : Client} {xs ys : List Bytes} (run : Run c (xs ++ ys) d) : ∃ m, Run c xs m ∧ Run m ys d := by
  induction xs generalizing c with
  | nil => exact ⟨c, .nil c, run⟩
  | cons chunk xs ih =>
    cases run with
    | cons taken granted later =>
      rcases ih later with ⟨m, first, second⟩
      exact ⟨m, .cons taken granted first, second⟩

/-! ## The frames behind the handshake -/

theorem dispatched_sublist (frames : List Frame) : (dispatched frames).Sublist frames := by
  induction frames with
  | nil => exact .slnil
  | cons frame frames ih =>
    unfold dispatched
    split
    · exact .cons_cons frame (List.nil_sublist frames)
    · exact .cons_cons frame ih

theorem dispatched_all {frames : List Frame} (last : ∀ frame ∈ frames.dropLast, frame.opcode ≠ opClose) :
    dispatched frames = frames := by
  induction frames with
  | nil => rfl
  | cons frame frames ih =>
    cases frames with
    | nil =>
      unfold dispatched
      split <;> rfl
    | cons next frames =>
      rw [List.dropLast_cons_cons] at last
      rcases List.forall_mem_cons.mp last with ⟨first, others⟩
      unfold dispatched
      rw [if_neg first, ih others]

theorem run_connected {c d : Client} {chunks : List Bytes} (run : Run c chunks d) (connected : c.data = none) :
    ∃ reads : List (Allocator × Bytes), ∃ frames told : List Frame,
      reads.map (·.2) = chunks ∧ (∀ read ∈ reads, read.1.Succeeds) ∧
      reads.foldl Receiver.read ⟨c.received, c.conn.buffer⟩ = ⟨d.received, d.conn.buffer⟩ ∧
      d.received = c.received ++ frames ∧ d.log = c.log ++ told.map .frame ∧ told.Sublist frames ∧
      ((∀ frame ∈ frames.dropLast, frame.opcode ≠ opClose) → told = frames) := by
  induction run with
  | nil c =>
    exact ⟨[], [], [], rfl, by simp, rfl, (List.append_nil _).symm, (List.append_nil _).symm, .slnil, fun _ => rfl⟩
  | @cons c d chunk chunks conn alloc taken granted later ih =>
    have step : Client.readStep { c with conn } true alloc = ({ c with conn } : Client).websocketReadStep alloc := by
      unfold Client.readStep
      simp only [connected]
    rw [step] at ih
    rcases ih connected with ⟨reads, frames, told, same, all, fold, received, log, sub, whole⟩
    rcases taken with ⟨_, _, buffer, _⟩
    let batch := (readFrames alloc conn.buffer).frames
    refine ⟨(alloc, chunk) :: reads, batch ++ frames, dispatched batch ++ told, ?_, ?_, ?_, ?_, ?_, ?_, ?_⟩
    · rw [List.map_cons, same]
    · exact List.forall_mem_cons.mpr ⟨granted, all⟩
    · rw [List.foldl_cons, ← fold]
      unfold Receiver.read websocketReadStep
      rw [buffer]
    · rw [received, ← List.append_assoc]
      rfl
    · rw [log, List.map_append, ← List.append_assoc]
      rfl
    · exact (dispatched_sublist batch).append sub
    · intro last
      by_cases none : frames = []
      · rw [none] at last sub whole ⊢
        rw [List.append_nil] at last
        rw [dispatched_all last, whole (by simp)]
      · rw [List.dropLast_append_of_ne_nil none] at last
        have first : ∀ frame ∈ batch.dropLast, frame.opcode ≠ opClose :=
          fun frame member => last frame (List.mem_append_left _ ((List.dropLast_sublist batch).subset member))
        rw [dispatched_all first, whole fun frame member => last frame (List.mem_append_right _ member)]

end Client

theorem receiver_size (reads : List (Allocator × Bytes)) (r : Receiver) :
    sizes (reads.foldl Receiver.read r).frames + (reads.foldl Receiver.read r).buffer.length ≤
      sizes r.frames + r.buffer.length + (reads.map (·.2)).flatten.length := by
  induction reads generalizing r with
  | nil => exact Nat.le_refl _
  | cons read reads ih =>
    have later := ih (r.read read)
    have one := readFrames_size read.1 (r.buffer ++ read.2)
    have frames : sizes (r.read read).frames = sizes r.frames + sizes (readFrames read.1 (r.buffer ++ read.2)).frames :=
      sizes_append _ _
    have buffer : (r.read read).buffer = (readFrames read.1 (r.buffer ++ read.2)).buffer := rfl
    rw [frames, buffer] at later
    rw [List.length_append] at one
    rw [List.foldl_cons, List.map_cons, List.flatten_cons, List.length_append]
    omega

theorem sizes_sublist {frames more : List Frame} (sub : frames.Sublist more) : sizes frames ≤ sizes more := by
  induction sub with
  | slnil => exact Nat.le_refl _
  | cons frame sub ih => exact Nat.le_trans ih (Nat.le_add_left _ _)
  | cons_cons frame sub ih => exact Nat.add_le_add_left ih _

theorem Sent.size (mode : Mode) (s : Sent) : (s.frame mode).size = (s.bytes mode).length := by
  rw [s.length_bytes mode]
  cases mode <;> simp [Frame.size, Sent.frame, Sent.header, maskedFlag]

theorem sizes_sent (mode : Mode) (sent : List Sent) :
    sizes (sent.map (Sent.frame mode)) = (sent.flatMap (Sent.bytes mode)).length := by
  induction sent with
  | nil => rfl
  | cons s sent ih =>
    rw [List.map_cons, List.flatMap_cons, List.length_append, ← ih, ← s.size mode]
    rfl

/-! ## The hand-over -/

theorem head_cut {head : Bytes} (nonempty : head ≠ []) {chunks : List Bytes} {tail : Bytes} (stream : chunks.flatten = head ++ tail) :
    ∃ before chunk after rest, chunks = before ++ chunk :: after ∧ before.flatten ++ chunk = head ++ rest ∧
      rest ++ after.flatten = tail ∧ ∃ missing, missing ≠ [] ∧ head = before.flatten ++ missing := by
  induction chunks generalizing head with
  | nil => exact absurd (List.append_eq_nil_iff.mp stream.symm).1 nonempty
  | cons chunk chunks ih =>
    rw [List.flatten_cons] at stream
    rcases List.append_eq_append_iff.mp stream with ⟨missing, split, later⟩ | ⟨rest, split, left⟩
    · by_cases exact_ : missing = []
      · rw [exact_, List.append_nil] at split
        rw [exact_, List.nil_append] at later
        exact ⟨[], chunk, chunks, [], rfl, by rw [split, List.append_nil]; rfl, later, head, nonempty, rfl⟩
      · rcases ih exact_ later with ⟨before, last, after, rest, parts, ends, behind, short, some_byte, same⟩
        refine ⟨chunk :: before, last, after, rest, by rw [parts]; rfl, ?_, behind, short, some_byte, ?_⟩
        · rw [List.flatten_cons, List.append_assoc, ends, split, List.append_assoc]
        · rw [List.flatten_cons, List.append_assoc, ← same, split]
    · exact ⟨[], chunk, chunks, rest, rfl, split, left.symm, head, nonempty, rfl⟩

/-- No read brings the end of the head together with bytes that follow it. -/
def HeadAlone (head : Head) (chunks : List Bytes) : Prop :=
  ∃ before after, chunks = before ++ after ∧ before.flatten = head.bytes

theorem headAlone_iff {head : Head} {before after : List Bytes} {chunk rest missing : Bytes}
    (ends : before.flatten ++ chunk = head.bytes ++ rest) (short : missing ≠ [])
    (split : head.bytes = before.flatten ++ missing) : HeadAlone head (before ++ chunk :: after) ↔ rest = [] := by
  constructor
  · intro alone
    rcases alone with ⟨front, back, parts, whole⟩
    rcases List.append_eq_append_iff.mp parts with ⟨more, longer, later⟩ | ⟨more, shorter, _⟩
    · cases more with
      | nil =>
        rw [List.append_nil] at longer
        rw [longer, split] at whole
        exact absurd (List.append_right_eq_self.mp whole.symm) short
      | cons first more =>
        rcases List.cons.inj later with ⟨rfl, _⟩
        rw [longer, List.flatten_append, List.flatten_cons, ← List.append_assoc, ends, List.append_assoc] at whole
        exact (List.append_eq_nil_iff.mp (List.append_right_eq_self.mp whole)).1
    · rw [shorter, List.flatten_append, whole, List.append_assoc] at split
      have empty := List.append_right_eq_self.mp split.symm
      exact absurd (List.append_eq_nil_iff.mp empty).2 short
  · intro none
    rw [none, List.append_nil] at ends
    refine ⟨before ++ [chunk], after, ?_, ?_⟩
    · rw [List.append_assoc]
      rfl
    · rw [List.flatten_append, List.flatten_singleton, ends]

theorem head_bytes_ne_nil (head : Head) : head.bytes ≠ [] := by
  unfold Head.bytes
  intro empty
  have last : Message.crlf = [] := (List.append_eq_nil_iff.mp empty).2
  cases last

theorem handed {head : Head} (valid : SwitchingProtocols head) {conn : Net.Connection} (fresh : conn.buffer = [])
    {before after : List Bytes} {chunk rest missing : Bytes} (ends : before.flatten ++ chunk = head.bytes ++ rest)
    (short : missing ≠ []) (split : head.bytes = before.flatten ++ missing) {client : Client}
    (run : Client.Run { conn } (before ++ chunk :: after) client) :
    ∃ c : Client, c.data = none ∧ c.received = [] ∧ c.log = [.connected] ∧ c.conn.buffer = [] ∧ Client.Run c after client := by
  rcases run.split with ⟨m, first, second⟩
  have nothing : parserFeeder.feed handshakeCore [] = (handshakeCore, 0) := rfl
  have start : Client.Waiting { conn } [] := by
    constructor
    · exact fresh
    · rw [nothing]
      rfl
    · exact ⟨{}, rfl, rfl, by rw [nothing]; rfl⟩
    · rfl
    · rfl
    · rfl
  have incomplete := valid.waits split short
  have waiting := start.run first incomplete
  cases second with
  | cons taken granted later =>
    rcases taken with ⟨_, _, buffer, _⟩
    have complete : (parserFeeder.feed handshakeCore ([] ++ before.flatten ++ chunk)).1.status = .complete := by
      rw [List.nil_append, ends]
      exact (valid.feed rest).1
    rw [(waiting.readStep buffer _).2.1 complete] at later
    exact ⟨_, rfl, rfl, rfl, rfl, later⟩

/-- The client gets the frames behind a 101 exactly when the read that completes the head stops at its end. -/
theorem handshake_lossless_iff {head : Head} (valid : SwitchingProtocols head) (mode : Mode) {sent : List Sent}
    (opcodes : ∀ s ∈ sent, s.opcode < 16) (fits : ∀ s ∈ sent, (s.bytes mode).length < 2 ^ 64) {chunks : List Bytes}
    (stream : chunks.flatten = head.bytes ++ sent.flatMap (Sent.bytes mode)) {conn : Net.Connection}
    (fresh : conn.buffer = []) {client : Client} (run : Client.Run { conn } chunks client) :
    (client.received = sent.map (Sent.frame mode) ↔ HeadAlone head chunks) ∧
      ((∀ s ∈ sent.dropLast, s.opcode ≠ opClose) →
        (client.log = .connected :: (sent.map (Sent.frame mode)).map .frame ↔ HeadAlone head chunks)) := by
  rcases head_cut (head_bytes_ne_nil head) stream with ⟨before, chunk, after, rest, parts, ends, behind, missing, short, split⟩
  rw [parts] at run ⊢
  rcases handed valid fresh ends short split run with ⟨c, connected, none_yet, said, empty, later⟩
  rcases Client.run_connected later connected with ⟨reads, frames, told, same, all, fold, received, log, sub, whole⟩
  rw [none_yet, List.nil_append] at received
  rw [said] at log
  rw [none_yet, empty] at fold
  have alone : HeadAlone head (before ++ chunk :: after) ↔ rest = [] := headAlone_iff ends short split
  have sizes_all := congrArg List.length behind
  rw [List.length_append, ← sizes_sent] at sizes_all
  have less : rest ≠ [] → sizes frames < sizes (sent.map (Sent.frame mode)) := by
    intro dropped
    have bound := receiver_size reads ⟨[], []⟩
    have nothing : sizes [] = 0 := rfl
    rw [fold, same] at bound
    have positive := List.length_pos_of_ne_nil dropped
    simp only [received, nothing, List.length_nil] at bound
    omega
  have exact_ : rest = [] → frames = sent.map (Sent.frame mode) := by
    intro none
    rw [none, List.nil_append, ← same] at behind
    have flat : sent.flatMap (Sent.bytes mode) = reads.flatMap (·.2) ++ [] := by
      rw [List.append_nil]
      exact behind.symm
    rcases receiveAll_splits mode sent opcodes fits reads [] flat with ⟨done, todo, splits, unfinished⟩
    rw [← List.append_nil (reads.flatMap (·.2)), ← flat] at splits
    have ended := splits.whole (unfinished fun last member => all last (List.mem_of_getLast? member))
    have result : (receiveAll reads).frames = client.received := congrArg Receiver.frames fold
    rw [← received, ← result]
    exact ended.1
  rw [alone]
  constructor
  · rw [received]
    constructor
    · intro delivered
      by_contra dropped
      have fewer := less dropped
      rw [delivered] at fewer
      exact Nat.lt_irrefl _ fewer
    · exact exact_
  · intro closing
    rw [log]
    constructor
    · intro told_all
      by_contra dropped
      have fewer := less dropped
      have same_frames : told = sent.map (Sent.frame mode) := by
        have tails := (List.cons.inj told_all).2
        exact List.map_injective_iff.mpr (fun _ _ equal => Notice.frame.inj equal) tails
      rw [same_frames] at sub
      have more := sizes_sublist sub
      omega
    · intro none
      have delivered := exact_ none
      have last : ∀ frame ∈ frames.dropLast, frame.opcode ≠ opClose := by
        rw [delivered, ← List.map_dropLast]
        intro frame member
        rcases List.mem_map.mp member with ⟨s, inside, rfl⟩
        exact closing s inside
      rw [whole last, delivered]
      rfl

/-! ## Runs there are -/

theorem takes_chunk {conn : Net.Connection} (reading : conn.state = .reading) (fits : conn.Fits) (chunk : Bytes)
    (small : conn.buffer.length + chunk.length + 1 < Net.Connection.maxBufferSize) :
    ∃ after, Client.Takes conn chunk after ∧ after.Fits := by
  let started : Net.Connection := { conn with readIoHint := .default }
  have ready : started.Fits := ⟨fits.room, fits.limit⟩
  rcases Net.Connection.readLoop_takes chunk ready small with ⟨turns, capacity, loop, room, limit⟩
  have read : conn.read .ok turns = started.readLoop turns := Net.Connection.read_reading reading turns
  refine ⟨_, ⟨turns, read.trans loop, rfl, reading, rfl⟩, ?_⟩
  constructor
  · show (started.buffer ++ chunk).length < capacity
    rw [List.length_append]
    exact room
  · exact limit

theorem Client.readStep_conn (c : Client) (create : Bool) (alloc : Allocator) :
    ∃ buffer, (c.readStep create alloc).conn = { c.conn with buffer } ∧ buffer.length ≤ c.conn.buffer.length := by
  unfold readStep
  cases c.data with
  | none =>
    have size := readFrames_size alloc c.conn.buffer
    exact ⟨_, rfl, by omega⟩
  | some data =>
    dsimp only
    split
    · exact ⟨_, rfl, Nat.le_refl _⟩
    · have kept : (handshakeReadStep create data c.conn.buffer).2.length ≤ c.conn.buffer.length := by
        unfold handshakeReadStep
        split
        · exact Nat.le_refl _
        · split
          · exact Nat.le_refl _
          · dsimp only
            split
            · exact Nat.le_refl _
            · exact Nat.le_refl _
            · exact Nat.zero_le _
      cases step : handshakeReadStep create data c.conn.buffer with
      | mk outcome buffer =>
        rw [step] at kept
        cases outcome with
        | more data => exact ⟨buffer, rfl, kept⟩
        | error => exact ⟨buffer, rfl, kept⟩
        | done => exact ⟨buffer, rfl, kept⟩

theorem run_exists (chunks : List Bytes) {c : Client} (reading : c.conn.state = .reading) (fits : c.conn.Fits)
    (small : c.conn.buffer.length + chunks.flatten.length + 1 < Net.Connection.maxBufferSize) :
    ∃ client, Client.Run c chunks client := by
  induction chunks generalizing c with
  | nil => exact ⟨c, .nil c⟩
  | cons chunk chunks ih =>
    rw [List.flatten_cons, List.length_append] at small
    rcases takes_chunk reading fits chunk (by omega) with ⟨conn, taken, room⟩
    let alloc : Allocator := ⟨fun _ => true, fun _ _ => true⟩
    rcases Client.readStep_conn { c with conn } true alloc with ⟨buffer, same, less⟩
    rcases taken with ⟨turns, read, longer, still, hint⟩
    have length : buffer.length ≤ c.conn.buffer.length + chunk.length := by
      rw [← List.length_append, ← longer]
      exact less
    have next : (Client.readStep { c with conn } true alloc).conn.Fits := by
      rw [same]
      exact ⟨Nat.lt_of_le_of_lt less room.room, room.limit⟩
    have later : (Client.readStep { c with conn } true alloc).conn.buffer.length + chunks.flatten.length + 1 <
        Net.Connection.maxBufferSize := by
      rw [same]
      show buffer.length + _ + 1 < _
      omega
    have live : (Client.readStep { c with conn } true alloc).conn.state = .reading := by
      rw [same]
      exact still
    rcases ih live next later with ⟨client, run⟩
    exact ⟨client, .cons ⟨turns, read, longer, still, hint⟩ (fun _ => ⟨rfl, fun _ => rfl⟩) run⟩

/-! ## A frame in the segment of the 101 -/

theorem accepted_of_reads {head : Head} {responseMode : Bool}
    (sound : ((freshCore responseMode).reads (head.bytes ++ [])).1.state ≠ .stateError) : head.Accepted responseMode := by
  rcases reads_head responseMode head [] with ⟨_, accepted, _⟩ | ⟨_, failed⟩
  · exact accepted
  · exact absurd failed sound

theorem switching_unbroken : ∀ line ∈ [ascii "HTTP/1.1 101 Switching Protocols", ascii "Upgrade: websocket"],
    ∀ c ∈ line, c ≠ ch '\r' ∧ c ≠ ch '\n' :=
  List.forall_mem_cons.mpr ⟨forall_of_all (by decide),
    List.forall_mem_cons.mpr ⟨forall_of_all (by decide), fun _ member => absurd member List.not_mem_nil⟩⟩

theorem switching_nonempty : ∀ line ∈ [ascii "Upgrade: websocket"], line ≠ [] :=
  List.forall_mem_cons.mpr ⟨by decide, fun _ member => absurd member List.not_mem_nil⟩

def switchingHead : Head where
  start := ascii "HTTP/1.1 101 Switching Protocols"
  fields := [ascii "Upgrade: websocket"]
  unbroken := switching_unbroken
  nonempty := switching_nonempty

theorem switchingHead_valid : SwitchingProtocols switchingHead where
  accepted := accepted_of_reads (by decide +kernel)
  status := by decide +kernel

def eagerFrame : Sent := ⟨fun _ => 0, 1, ascii "eager"⟩

/-- The same stream with a cut at the end of the head, and others inside the head and inside the frame. -/
theorem handshake_lossless_cut :
    ∃ client, Client.Run { conn := {} } [switchingHead.bytes.take 20, switchingHead.bytes.drop 20,
        (eagerFrame.bytes .server).take 3, (eagerFrame.bytes .server).drop 3] client ∧
      client.received = [eagerFrame.frame .server] ∧ client.log = [.connected, .frame (eagerFrame.frame .server)] := by
  rcases run_exists [switchingHead.bytes.take 20, switchingHead.bytes.drop 20,
    (eagerFrame.bytes .server).take 3, (eagerFrame.bytes .server).drop 3] (c := { conn := {} }) rfl ⟨by decide, by decide⟩
    (by decide +kernel) with ⟨client, run⟩
  have alone : HeadAlone switchingHead [switchingHead.bytes.take 20, switchingHead.bytes.drop 20,
      (eagerFrame.bytes .server).take 3, (eagerFrame.bytes .server).drop 3] :=
    ⟨[switchingHead.bytes.take 20, switchingHead.bytes.drop 20],
      [(eagerFrame.bytes .server).take 3, (eagerFrame.bytes .server).drop 3], rfl, by decide +kernel⟩
  have iff := @handshake_lossless_iff _ switchingHead_valid .server [eagerFrame] (by decide) (by decide) _
    (by decide +kernel) _ rfl _ run
  exact ⟨client, run, iff.1.mpr alone, (iff.2 (by decide)).mpr alone⟩

def HandshakeLossless : Prop :=
  ∀ (head : Head) (mode : Mode) (sent : List Sent) (chunks : List Bytes) (conn : Net.Connection) (client : Client),
    SwitchingProtocols head → (∀ s ∈ sent, s.opcode < 16) → (∀ s ∈ sent, (s.bytes mode).length < 2 ^ 64) →
    chunks.flatten = head.bytes ++ sent.flatMap (Sent.bytes mode) → conn.buffer = [] →
    Client.Run { conn } chunks client → client.received = sent.map (Sent.frame mode)

/-- A frame in the same segment as the 101 is lost. -/
theorem not_handshakeLossless_eager : ¬ HandshakeLossless := by
  intro claim
  rcases run_exists [switchingHead.bytes ++ eagerFrame.bytes .server] (c := { conn := {} }) rfl ⟨by decide, by decide⟩
    (by decide +kernel) with ⟨client, run⟩
  have delivered := claim switchingHead .server [eagerFrame] _ _ client switchingHead_valid (by decide) (by decide) rfl rfl run
  rcases @handed _ switchingHead_valid _ rfl [] [] _ _ _ rfl (head_bytes_ne_nil switchingHead) rfl _ run with
    ⟨c, _, received, _, _, later⟩
  cases later with
  | nil =>
    rw [received] at delivered
    cases delivered

end BlueBird.WebSocket
