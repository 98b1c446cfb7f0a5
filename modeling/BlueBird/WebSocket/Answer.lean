import BlueBird.Encoding.Base64
import BlueBird.Encoding.Sha1
import BlueBird.WebSocket.Handshake

namespace BlueBird.WebSocket

open Http

def wsGuid : Bytes := ascii "258EAFA5-E914-47DA-95CA-C5AB0DC85B11"

/-- `bb_websocket_accept_key` -/
def acceptKey (clientKey : Bytes) : Bytes := base64Encode (sha1 (clientKey ++ wsGuid))

def isAcceptHeader (h : Header) : Bool := strCaseEq h.name (ascii "Sec-WebSocket-Accept")

/-- The stream starts with a switch of protocols of HTTP/1.1 that answers the nonce. -/
def ValidAnswer (nonce stream : Bytes) : Prop :=
  ∃ head rest response h, stream = Head.bytes head ++ rest ∧ head.Accepted true ∧
    parseResponseLine head.start {} = .ok response ∧ response.versionMajor = 1 ∧ response.versionMinor = 1 ∧
    response.statusCode = 101 ∧ head.headers.find? isAcceptHeader = some h ∧ h.value = acceptKey (base64Encode nonce)

/-- A whole response, of any status, stands at the front of the stream. -/
def Answered (stream : Bytes) : Prop := (parserFeeder.feed handshakeCore stream).1.status = .complete

/-! ## The reads of a client -/

/-- The read step is called with one chunk after another, and with whether the parser could be allocated. -/
inductive Client.Handed : Client → List (Bytes × Bool) → Client → Prop where
  | nil (c : Client) : Handed c [] c
  | cons {c after : Client} {chunk : Bytes} {create : Bool} {events : List (Bytes × Bool)} {conn : Net.Connection}
      {alloc : Allocator} (buffer : conn.buffer = c.conn.buffer ++ chunk)
      (later : Handed (readStep { c with conn } create alloc) events after) : Handed c ((chunk, create) :: events) after

def streamOf (events : List (Bytes × Bool)) : Bytes := (events.map (·.1)).flatten

def Allocated (c : Client) (events : List (Bytes × Bool)) : Prop :=
  (∃ data, c.data = some data ∧ data.httpParser ≠ none) ∨ ∀ event, events.head? = some event → event.2 = true

structure Connected (c : Client) : Prop where
  data : c.data = none
  told : ∃ front back, c.log = front ++ Notice.connected :: back

structure Refused (c : Client) : Prop where
  failed : c.failed = true
  data : c.data ≠ none
  log : c.log = [.handshakeFailed]

theorem Connected.readStep {c : Client} (connected : Connected c) (conn : Net.Connection) (create : Bool) (alloc : Allocator) :
    Connected (Client.readStep { c with conn } create alloc) := by
  rcases connected with ⟨data, front, back, log⟩
  have step : Client.readStep { c with conn } create alloc = Client.websocketReadStep { c with conn } alloc := by
    unfold Client.readStep
    simp only [data]
  rw [step]
  refine ⟨data, front, back ++ (dispatched (readFrames alloc conn.buffer).frames).map .frame, ?_⟩
  show c.log ++ _ = _
  rw [log, List.append_assoc]
  rfl

theorem Refused.readStep {c : Client} (refused : Refused c) (conn : Net.Connection) (create : Bool) (alloc : Allocator) :
    Refused (Client.readStep { c with conn } create alloc) := by
  rcases refused with ⟨failed, data, log⟩
  rcases Option.ne_none_iff_exists'.mp data with ⟨value, some_⟩
  have step : Client.readStep { c with conn } create alloc = { c with conn } := by
    unfold Client.readStep
    simp only [some_, failed, if_true]
  rw [step]
  exact ⟨failed, data, log⟩

theorem Connected.run {c d : Client} {events : List (Bytes × Bool)} (connected : Connected c) (run : Client.Handed c events d) :
    Connected d := by
  induction run with
  | nil c => exact connected
  | cons buffer later ih => exact ih (connected.readStep _ _ _)

theorem Refused.run {c d : Client} {events : List (Bytes × Bool)} (refused : Refused c) (run : Client.Handed c events d) :
    Refused d := by
  induction run with
  | nil c => exact refused
  | cons buffer later ih => exact ih (refused.readStep _ _ _)

theorem Connected.mem {c : Client} (connected : Connected c) : Notice.connected ∈ c.log := by
  rcases connected.told with ⟨front, back, log⟩
  rw [log]
  exact List.mem_append_right _ List.mem_cons_self

theorem Refused.not_mem {c : Client} (refused : Refused c) : Notice.connected ∉ c.log := by
  rw [refused.log]
  intro member
  cases List.mem_singleton.mp member

theorem Client.Waiting.readStep_refused {c : Client} {seen : Bytes} (waiting : c.Waiting seen) {data : HandshakeData}
    (held : c.data = some data) (none_ : data.httpParser = none) (conn : Net.Connection) (alloc : Allocator) :
    Refused (Client.readStep { c with conn } false alloc) := by
  have step : handshakeReadStep false data conn.buffer = (.error, conn.buffer) := by
    unfold handshakeReadStep
    rw [if_pos ⟨none_, Bool.false_ne_true⟩]
  have next : Client.readStep { c with conn } false alloc = { c with conn, failed := true, log := [.handshakeFailed] } := by
    unfold Client.readStep
    simp only [held, waiting.sound, Bool.false_eq_true, if_false, step, waiting.log, List.nil_append]
  rw [next]
  exact ⟨rfl, by rw [held]; exact fun none_ => Option.some_ne_none _ none_, rfl⟩

theorem readStep_create {c : Client} {data : HandshakeData} (held : c.data = some data) (create : Bool)
    (some_ : data.httpParser ≠ none ∨ create = true) (alloc : Allocator) : c.readStep create alloc = c.readStep true alloc := by
  have first : handshakeReadStep create data c.conn.buffer = handshakeReadStep true data c.conn.buffer := by
    have enters : ∀ flag : Bool, data.httpParser ≠ none ∨ flag = true → ¬ (data.httpParser = none ∧ ¬ flag = true) := by
      intro flag some_ both
      rcases some_ with there | given
      · exact there both.1
      · exact both.2 given
    unfold handshakeReadStep
    rw [if_neg (enters create some_), if_neg (enters true (Or.inr rfl))]
  unfold Client.readStep
  simp only [held, first]

theorem readStep_parsing {c : Client} (held : c.data ≠ none) {create : Bool} {alloc : Allocator}
    (sound : (c.readStep create alloc).failed = false) {after : HandshakeData} (left : (c.readStep create alloc).data = some after) :
    after.httpParser ≠ none := by
  rcases Option.ne_none_iff_exists'.mp held with ⟨data, held⟩
  unfold Client.readStep at sound left
  simp only [held] at sound left
  by_cases failed : c.failed = true
  · rw [if_pos failed] at sound
    rw [failed] at sound
    cases sound
  · rw [if_neg failed] at sound left
    generalize stepped : handshakeReadStep create data c.conn.buffer = result at sound left
    rcases result with ⟨outcome, buffer⟩
    cases outcome with
    | more more =>
      cases left
      unfold handshakeReadStep at stepped
      split at stepped
      · cases stepped
      split at stepped
      · cases stepped
      · cases fed : httpParserFeed (data.httpParser.getD httpParserCreateResponse) (c.conn.buffer.drop data.parsedOffset) with
        | mk status parser =>
          rw [fed] at stepped
          cases status with
          | incomplete =>
            cases stepped
            exact Option.some_ne_none _
          | error => cases stepped
          | complete => cases stepped
    | error => cases sound
    | done => cases left

theorem stopped_append {xs ys : Bytes} {status : ParseStatus} (stopped : status ≠ .incomplete)
    (here : (parserFeeder.feed handshakeCore xs).1.status = status) :
    (parserFeeder.feed handshakeCore (xs ++ ys)).1.status = status := by
  have ended : ¬ parserFeeder.running (parserFeeder.feed handshakeCore xs).1 = true := by
    rw [parserFeeder_running, here]
    exact stopped
  rw [parserFeeder.stops handshakeCore xs ys ended]
  exact here

theorem Client.Waiting.connected_iff {c d : Client} {events : List (Bytes × Bool)} (run : Client.Handed c events d) {seen : Bytes}
    (waiting : c.Waiting seen) : Notice.connected ∈ d.log ↔ Allocated c events ∧ Answered (seen ++ streamOf events) := by
  induction run generalizing seen with
  | nil c =>
    constructor
    · intro told
      rw [waiting.log] at told
      cases told
    · intro answered
      have complete := answered.2
      unfold Answered at complete
      rw [show seen ++ streamOf [] = seen from List.append_nil seen, waiting.running] at complete
      cases complete
  | @cons c after chunk create events conn alloc buffer later ih =>
    rcases waiting.data with ⟨data, held, _⟩
    have split : seen ++ streamOf ((chunk, create) :: events) = (seen ++ chunk) ++ streamOf events := by
      show seen ++ (chunk ++ streamOf events) = _
      rw [List.append_assoc]
    by_cases some_ : data.httpParser ≠ none ∨ create = true
    · have allocated : Allocated c ((chunk, create) :: events) := by
        rcases some_ with there | given
        · exact Or.inl ⟨data, held, there⟩
        · refine Or.inr fun event first => ?_
          cases first
          exact given
      have same : Client.readStep { c with conn } create alloc = Client.readStep { c with conn } true alloc :=
        @readStep_create { c with conn } data held create some_ alloc
      rw [same] at later ih
      rw [split]
      have steps := waiting.readStep buffer alloc
      cases status : (parserFeeder.feed handshakeCore (seen ++ chunk)).1.status with
      | incomplete =>
        have next := steps.1 status
        rw [ih next]
        have parser : Allocated (Client.readStep { c with conn } true alloc) events := by
          rcases next.data with ⟨after, held', _⟩
          exact Or.inl ⟨after, held', readStep_parsing (by rw [held]; exact Option.some_ne_none _) next.sound held'⟩
        exact ⟨fun both => ⟨allocated, both.2⟩, fun both => ⟨parser, both.2⟩⟩
      | complete =>
        have connected : Connected (Client.readStep { c with conn } true alloc) := by
          rw [steps.2.1 status]
          exact ⟨rfl, [], [], rfl⟩
        have complete := @stopped_append _ (streamOf events) _ (by decide) status
        exact ⟨fun _ => ⟨allocated, complete⟩, fun _ => (connected.run later).mem⟩
      | error =>
        rcases steps.2.2 status with ⟨failed, some_, log⟩
        have refused : Refused (Client.readStep { c with conn } true alloc) := ⟨failed, some_, log⟩
        have error := @stopped_append _ (streamOf events) _ (by decide) status
        constructor
        · intro told
          exact absurd told (refused.run later).not_mem
        · intro both
          have complete := both.2
          unfold Answered at complete
          rw [error] at complete
          cases complete
    · rw [not_or, not_not] at some_
      have withheld : create = false := Bool.eq_false_iff.mpr some_.2
      rw [withheld] at later ih ⊢
      have refused := waiting.readStep_refused held some_.1 conn alloc
      constructor
      · intro told
        exact absurd told (refused.run later).not_mem
      · intro both
        rcases both.1 with ⟨other, held', there⟩ | given
        · rw [held] at held'
          cases held'
          exact absurd some_.1 there
        · cases given _ rfl

theorem fresh_waiting {conn : Net.Connection} (fresh : conn.buffer = []) : Client.Waiting { conn } [] where
  buffer := fresh
  running := rfl
  data := ⟨{}, rfl, rfl, rfl⟩
  sound := rfl
  received := rfl
  log := rfl

def ParserAllocated (events : List (Bytes × Bool)) : Prop := ∀ event, events.head? = some event → event.2 = true

/-- The client takes no answer for a connection that is not one, exactly when no whole response comes or the one that
    comes is valid: neither the status nor the accept key is looked at. -/
theorem answer_validated_iff (nonce : Bytes) {conn : Net.Connection} (fresh : conn.buffer = []) {events : List (Bytes × Bool)}
    {client : Client} (run : Client.Handed { conn } events client) :
    (Notice.connected ∈ client.log → ValidAnswer nonce (streamOf events)) ↔
      ¬ ParserAllocated events ∨ ¬ Answered (streamOf events) ∨ ValidAnswer nonce (streamOf events) := by
  have told := (fresh_waiting fresh).connected_iff run
  rw [List.nil_append] at told
  have allocated : Allocated { conn } events ↔ ParserAllocated events := by
    constructor
    · intro either
      rcases either with ⟨data, held, there⟩ | given
      · cases held
        exact absurd rfl there
      · exact given
    · exact Or.inr
  rw [told, allocated]
  constructor
  · intro valid
    by_cases given : ParserAllocated events
    · by_cases whole : Answered (streamOf events)
      · exact Or.inr (Or.inr (valid ⟨given, whole⟩))
      · exact Or.inr (Or.inl whole)
    · exact Or.inl given
  · intro either both
    rcases either with withheld | partial_ | valid
    · exact absurd both.1 withheld
    · exact absurd both.2 partial_
    · exact valid

theorem handed_once (stream : Bytes) : ∃ client, Client.Handed { conn := {} } [(stream, true)] client :=
  ⟨_, @Client.Handed.cons { conn := {} } _ stream true [] { buffer := stream } ⟨fun _ => true, fun _ _ => true⟩ rfl (.nil _)⟩

def sampleNonce : Bytes := ascii "the sample nonce"

theorem sampleHead_unbroken : ∀ line ∈ [ascii "HTTP/1.1 101 Switching Protocols",
    ascii "sec-websocket-accept: s3pPLMBiTxaQ9kYGzzhZRbK+xOo="], ∀ c ∈ line, c ≠ ch '\r' ∧ c ≠ ch '\n' :=
  List.forall_mem_cons.mpr ⟨forall_of_all (by decide),
    List.forall_mem_cons.mpr ⟨forall_of_all (by decide), fun line none_ => absurd none_ List.not_mem_nil⟩⟩

theorem sampleHead_nonempty : ∀ line ∈ [ascii "sec-websocket-accept: s3pPLMBiTxaQ9kYGzzhZRbK+xOo="], line ≠ [] :=
  List.forall_mem_cons.mpr ⟨by decide, fun line none_ => absurd none_ List.not_mem_nil⟩

def sampleHead : Head where
  start := ascii "HTTP/1.1 101 Switching Protocols"
  fields := [ascii "sec-websocket-accept: s3pPLMBiTxaQ9kYGzzhZRbK+xOo="]
  unbroken := sampleHead_unbroken
  nonempty := sampleHead_nonempty

theorem sampleHead_valid : ValidAnswer sampleNonce sampleHead.bytes :=
  ⟨sampleHead, [], _, _, (List.append_nil _).symm, accepted_of_reads (by decide +kernel), rfl, rfl, rfl, rfl, rfl,
    (by decide +kernel : ascii "s3pPLMBiTxaQ9kYGzzhZRbK+xOo=" = acceptKey (base64Encode sampleNonce))⟩

theorem answer_validated_sample : ∃ client, Client.Handed { conn := {} } [(sampleHead.bytes, true)] client ∧
    (Notice.connected ∈ client.log → ValidAnswer sampleNonce sampleHead.bytes) := by
  rcases handed_once sampleHead.bytes with ⟨client, run⟩
  have whole : streamOf [(sampleHead.bytes, true)] = sampleHead.bytes := List.append_nil _
  have validated := answer_validated_iff sampleNonce rfl run
  rw [whole] at validated
  exact ⟨client, run, validated.mpr (Or.inr (Or.inr sampleHead_valid))⟩

def notFound : Bytes := ascii "HTTP/1.1 404 Not Found\r\n\r\n"

theorem head_start {head : Head} {stream rest : Bytes} (split : stream = head.bytes ++ rest) :
    stream.takeWhile (· ≠ ch '\r') = head.start := by
  have plain : ∀ c ∈ head.start, decide (c ≠ ch '\r') = true :=
    fun c member => decide_eq_true (head.unbroken head.start List.mem_cons_self c member).1
  rw [split, head_bytes_append, List.append_assoc, List.takeWhile_append_of_pos plain]
  exact List.append_nil _

/-- A client is connected to a server that has found nothing. -/
theorem answer_not_validated : ¬ ∀ (nonce : Bytes) (conn : Net.Connection) (events : List (Bytes × Bool)) (client : Client),
    conn.buffer = [] → Client.Handed { conn } events client →
    Notice.connected ∈ client.log → ValidAnswer nonce (streamOf events) := by
  intro all
  rcases handed_once notFound with ⟨client, run⟩
  have whole : streamOf [(notFound, true)] = notFound := List.append_nil _
  have told := (@fresh_waiting {} rfl).connected_iff run
  have given : Allocated { conn := {} } [(notFound, true)] := Or.inr fun event first => by
    cases first
    rfl
  have answered : Answered notFound := by
    unfold Answered
    decide +kernel
  have connected : Notice.connected ∈ client.log := told.mpr ⟨given, by rw [whole]; exact answered⟩
  rcases all sampleNonce {} _ client rfl run connected with ⟨head, rest, response, h, split, _, line, _, _, status, _⟩
  rw [whole] at split
  rw [← head_start split] at line
  cases line
  cases status

end BlueBird.WebSocket
