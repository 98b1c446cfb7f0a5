import BlueBird.Connection.Reading

/-! What the reads of a connection put into its buffer, with nobody taking bytes out. -/

namespace BlueBird.Net

/-- A call of the transport: the connection at that moment, and the answer. -/
structure TransportRead where
  conn : Connection
  answer : ReadAnswer

namespace TransportRead

def room (r : TransportRead) : Nat := r.conn.bufferCapacity - r.conn.buffer.length - 1

def data (r : TransportRead) : Bytes :=
  match r.answer with
  | .ok data => data
  | _ => []

/-- A transport that reads anything reads at least one byte and no more than it was offered. -/
def Legal (r : TransportRead) : Prop :=
  match r.answer with
  | .ok data => 1 ≤ data.length ∧ data.length ≤ r.room
  | _ => True

instance (r : TransportRead) : Decidable r.Legal :=
  match r with
  | ⟨conn, .ok data⟩ => inferInstanceAs (Decidable (1 ≤ data.length ∧ data.length ≤ room ⟨conn, .ok data⟩))
  | ⟨_, .wantRead⟩ | ⟨_, .wantWrite⟩ | ⟨_, .closed⟩ | ⟨_, .error⟩ => inferInstanceAs (Decidable True)

/-- There is a byte of room, and the room with the terminating zero behind it lies in the allocation, as do
    the bytes that were read. -/
structure Sound (r : TransportRead) : Prop where
  fits : r.conn.Fits
  some_ : 1 ≤ r.room
  inside : r.conn.buffer.length + r.room + 1 ≤ r.conn.bufferCapacity
  filled : (r.conn.buffer ++ r.data).length < r.conn.bufferCapacity

end TransportRead

def delivered (reads : List TransportRead) : Bytes := reads.flatMap TransportRead.data

namespace Connection

/-- The calls of the transport that the loop of `bb_connection_read` makes. -/
def readsLoop (conn : Connection) : List ReadTurn → List TransportRead
  | [] =>
    match conn.ensureSpace true with
    | (_, some _) => []
    | (conn, none) => [⟨conn, .wantRead⟩]
  | turn :: turns =>
    match conn.ensureSpace turn.realloc with
    | (_, some _) => []
    | (conn, none) =>
      ⟨conn, turn.answer⟩ ::
        match turn.answer with
        | .ok data => readsLoop { conn with buffer := conn.buffer ++ data.take (conn.bufferCapacity - conn.buffer.length - 1) } turns
        | _ => []

/-- The calls that `bb_connection_read` makes. -/
def reads (conn : Connection) (handshake : Handshake) (turns : List ReadTurn) : List TransportRead :=
  match conn.state with
  | .closed => []
  | .handshake => if handshake = .ok then readsLoop { conn with state := .reading, readIoHint := .default } turns else []
  | _ => readsLoop { conn with readIoHint := .default } turns

theorem ensureSpace_cases {conn : Connection} (fits : conn.Fits) (realloc : Bool) :
    (∃ capacity, conn.ensureSpace realloc = ({ conn with bufferCapacity := capacity }, none) ∧
      conn.buffer.length + 1 < capacity ∧ capacity ≤ maxBufferSize) ∨
    (conn.ensureSpace realloc = ({ conn with state := .closed }, some .payloadTooLarge) ∧
      conn.bufferCapacity = maxBufferSize ∧ conn.buffer.length + 1 = maxBufferSize) ∨
    conn.ensureSpace realloc = (conn, some .alloc) := by
  rcases fits with ⟨room, limit⟩
  unfold ensureSpace
  by_cases full : conn.buffer.length + 1 ≥ conn.bufferCapacity
  · rw [if_pos full]
    by_cases most : conn.bufferCapacity ≥ maxBufferSize
    · rw [if_pos most]
      exact Or.inr (Or.inl ⟨rfl, by omega, by omega⟩)
    · rw [if_neg most]
      cases realloc with
      | false => exact Or.inr (Or.inr rfl)
      | true =>
        apply Or.inl
        by_cases clamped : conn.bufferCapacity * 2 > maxBufferSize
        · exact ⟨maxBufferSize, by simp [clamped], by omega, Nat.le_refl _⟩
        · exact ⟨conn.bufferCapacity * 2, by simp [clamped], by omega, by omega⟩
  · rw [if_neg full]
    exact Or.inl ⟨conn.bufferCapacity, rfl, by omega, limit⟩

theorem sound_of_room {conn : Connection} {capacity : Nat} (room : conn.buffer.length + 1 < capacity)
    (limit : capacity ≤ maxBufferSize) {answer : ReadAnswer}
    (legal : TransportRead.Legal ⟨{ conn with bufferCapacity := capacity }, answer⟩) :
    TransportRead.Sound ⟨{ conn with bufferCapacity := capacity }, answer⟩ where
  fits := ⟨Nat.lt_of_succ_lt room, limit⟩
  some_ := by
    show 1 ≤ capacity - conn.buffer.length - 1
    omega
  inside := by
    show conn.buffer.length + (capacity - conn.buffer.length - 1) + 1 ≤ capacity
    omega
  filled := by
    show (conn.buffer ++ TransportRead.data _).length < capacity
    rw [List.length_append]
    cases answer with
    | ok data =>
      have most : data.length ≤ capacity - conn.buffer.length - 1 := legal.2
      show conn.buffer.length + data.length < capacity
      omega
    | _ => exact Nat.lt_of_succ_lt room

structure ReadsExactly (before after : Connection) (outcome : ReadOutcome) (reads : List TransportRead) : Prop where
  buffer : after.buffer = before.buffer ++ delivered reads
  fits : after.Fits
  sound : ∀ r ∈ reads, r.Sound
  tooLarge : outcome = .payloadTooLarge → after.bufferCapacity = maxBufferSize ∧ after.buffer.length + 1 = maxBufferSize

theorem readsExactly_none {before after : Connection} {outcome : ReadOutcome} {reads : List TransportRead}
    (same : after.buffer = before.buffer) (fits : after.Fits) (nothing : delivered reads = []) (sound : ∀ r ∈ reads, r.Sound)
    (tooLarge : outcome = .payloadTooLarge → after.bufferCapacity = maxBufferSize ∧ after.buffer.length + 1 = maxBufferSize) :
    ReadsExactly before after outcome reads where
  buffer := by rw [nothing, List.append_nil, same]
  fits := fits
  sound := sound
  tooLarge := tooLarge

theorem readLoop_exactly (turns : List ReadTurn) {conn : Connection} (fits : conn.Fits)
    (legal : ∀ r ∈ conn.readsLoop turns, r.Legal) :
    ReadsExactly conn (conn.readLoop turns).1 (conn.readLoop turns).2 (conn.readsLoop turns) := by
  induction turns generalizing conn with
  | nil =>
    unfold readsLoop at legal ⊢
    unfold readLoop
    rcases ensureSpace_cases fits true with ⟨capacity, space, room, limit⟩ | ⟨space, most, full⟩ | space
    · rw [space] at legal ⊢
      have sound := sound_of_room room limit (legal _ (List.mem_singleton_self _))
      exact readsExactly_none rfl ⟨sound.fits.room, sound.fits.limit⟩ rfl (List.forall_mem_singleton.mpr sound) (fun failed => by cases failed)
    · rw [space]
      exact readsExactly_none rfl ⟨fits.room, fits.limit⟩ rfl (fun r member => absurd member List.not_mem_nil) fun _ => ⟨most, full⟩
    · rw [space]
      exact readsExactly_none rfl fits rfl (fun r member => absurd member List.not_mem_nil) (fun failed => by cases failed)
  | cons turn turns ih =>
    unfold readsLoop at legal ⊢
    unfold readLoop
    rcases ensureSpace_cases fits turn.realloc with ⟨capacity, space, room, limit⟩ | ⟨space, most, full⟩ | space
    · rw [space] at legal ⊢
      dsimp only at legal ⊢
      have sound := sound_of_room room limit (legal _ (List.mem_cons_self ..))
      cases answer : turn.answer with
      | ok data =>
        rw [answer] at legal sound
        dsimp only at legal ⊢
        have most : data.length ≤ capacity - conn.buffer.length - 1 := (legal _ (List.mem_cons_self ..)).2
        rw [List.take_of_length_le most] at legal ⊢
        have later := @ih { conn with buffer := conn.buffer ++ data, bufferCapacity := capacity } ⟨sound.filled, limit⟩
          fun r member => legal r (List.mem_cons_of_mem _ member)
        refine ⟨?_, later.fits, List.forall_mem_cons.mpr ⟨sound, later.sound⟩, later.tooLarge⟩
        rw [later.buffer]
        show (conn.buffer ++ data) ++ delivered _ = conn.buffer ++ (data ++ delivered _)
        rw [List.append_assoc]
      | closed =>
        rw [answer] at sound
        exact readsExactly_none rfl ⟨sound.fits.room, sound.fits.limit⟩ rfl (List.forall_mem_singleton.mpr sound) (fun failed => by cases failed)
      | wantRead =>
        rw [answer] at sound
        exact readsExactly_none rfl ⟨sound.fits.room, sound.fits.limit⟩ rfl (List.forall_mem_singleton.mpr sound) (fun failed => by cases failed)
      | wantWrite =>
        rw [answer] at sound
        exact readsExactly_none rfl ⟨sound.fits.room, sound.fits.limit⟩ rfl (List.forall_mem_singleton.mpr sound) (fun failed => by cases failed)
      | error =>
        rw [answer] at sound
        exact readsExactly_none rfl ⟨sound.fits.room, sound.fits.limit⟩ rfl (List.forall_mem_singleton.mpr sound) (fun failed => by cases failed)
    · rw [space]
      exact readsExactly_none rfl ⟨fits.room, fits.limit⟩ rfl (fun r member => absurd member List.not_mem_nil) fun _ => ⟨most, full⟩
    · rw [space]
      exact readsExactly_none rfl fits rfl (fun r member => absurd member List.not_mem_nil) (fun failed => by cases failed)

theorem read_exactly (handshake : Handshake) (turns : List ReadTurn) {conn : Connection} (fits : conn.Fits)
    (legal : ∀ r ∈ conn.reads handshake turns, r.Legal) :
    ReadsExactly conn (conn.read handshake turns).1 (conn.read handshake turns).2 (conn.reads handshake turns) := by
  rcases conn with ⟨state, buffer, capacity, writeData, writePending, readIoHint, writeIoHint⟩
  cases state with
  | closed => exact readsExactly_none rfl fits rfl (fun r member => absurd member List.not_mem_nil) (fun failed => by cases failed)
  | handshake =>
    cases handshake with
    | ok =>
      have exactly_ := @readLoop_exactly turns ⟨.reading, buffer, capacity, writeData, writePending, .default, writeIoHint⟩
        ⟨fits.room, fits.limit⟩ legal
      exact ⟨exactly_.buffer, exactly_.fits, exactly_.sound, exactly_.tooLarge⟩
    | _ =>
      exact readsExactly_none rfl ⟨fits.room, fits.limit⟩ rfl (fun r member => absurd member List.not_mem_nil)
        (fun failed => by cases failed)
  | reading =>
    have exactly_ := @readLoop_exactly turns ⟨.reading, buffer, capacity, writeData, writePending, .default, writeIoHint⟩
      ⟨fits.room, fits.limit⟩ legal
    exact ⟨exactly_.buffer, exactly_.fits, exactly_.sound, exactly_.tooLarge⟩
  | writing =>
    have exactly_ := @readLoop_exactly turns ⟨.writing, buffer, capacity, writeData, writePending, .default, writeIoHint⟩
      ⟨fits.room, fits.limit⟩ legal
    exact ⟨exactly_.buffer, exactly_.fits, exactly_.sound, exactly_.tooLarge⟩

end Connection

/-! ## Calls one after another -/

/-- A call of `bb_connection_read`, with what the transport says in it. -/
structure ReadCall where
  handshake : Handshake := .ok
  turns : List ReadTurn
  deriving DecidableEq, Repr

def ReadCall.perform (conn : Connection) (call : ReadCall) : Connection := (conn.read call.handshake call.turns).1

def ReadCall.outcome (conn : Connection) (call : ReadCall) : ReadOutcome := (conn.read call.handshake call.turns).2

def afterReads (conn : Connection) (calls : List ReadCall) : Connection := calls.foldl ReadCall.perform conn

def transportReads (conn : Connection) : List ReadCall → List TransportRead
  | [] => []
  | call :: calls => conn.reads call.handshake call.turns ++ transportReads (call.perform conn) calls

theorem transportReads_append (conn : Connection) (front back : List ReadCall) :
    transportReads conn (front ++ back) = transportReads conn front ++ transportReads (afterReads conn front) back := by
  induction front generalizing conn with
  | nil => rfl
  | cons call front ih =>
    show _ ++ transportReads (call.perform conn) (front ++ back) = _
    rw [ih, ← List.append_assoc]
    rfl

theorem reads_exactly (calls : List ReadCall) {conn : Connection} (fits : conn.Fits)
    (legal : ∀ r ∈ transportReads conn calls, r.Legal) :
    (afterReads conn calls).buffer = conn.buffer ++ delivered (transportReads conn calls) ∧
      (afterReads conn calls).Fits ∧ ∀ r ∈ transportReads conn calls, r.Sound := by
  induction calls generalizing conn with
  | nil => exact ⟨(List.append_nil _).symm, fits, fun r member => absurd member List.not_mem_nil⟩
  | cons call calls ih =>
    rcases List.forall_mem_append.mp legal with ⟨here, later⟩
    have exactly_ := Connection.read_exactly call.handshake call.turns fits here
    rcases ih exactly_.fits later with ⟨buffer, still, sound⟩
    refine ⟨?_, still, List.forall_mem_append.mpr ⟨exactly_.sound, sound⟩⟩
    calc (afterReads (call.perform conn) calls).buffer
      _ = (call.perform conn).buffer ++ delivered (transportReads (call.perform conn) calls) := buffer
      _ = (conn.buffer ++ delivered (conn.reads call.handshake call.turns)) ++
          delivered (transportReads (call.perform conn) calls) := congrArg (· ++ _) exactly_.buffer
      _ = conn.buffer ++ delivered (transportReads conn (call :: calls)) := by
        rw [transportReads, delivered, delivered, delivered, List.flatMap_append, List.append_assoc]

/-- Behind every call of the run the buffer holds what the transport delivered, in the allocation; every
    call of the transport is offered some room and no more than there is; and a call that finds too much
    leaves a full buffer of the greatest size as it was. -/
structure Collects (conn : Connection) (calls : List ReadCall) : Prop where
  buffer : ∀ front back, calls = front ++ back → (afterReads conn front).buffer = delivered (transportReads conn front)
  fits : ∀ front back, calls = front ++ back →
    (afterReads conn front).buffer.length < (afterReads conn front).bufferCapacity ∧
      (afterReads conn front).bufferCapacity ≤ Connection.maxBufferSize
  sound : ∀ r ∈ transportReads conn calls, r.Sound
  tooLarge : ∀ front call back, calls = front ++ call :: back → call.outcome (afterReads conn front) = .payloadTooLarge →
    (call.perform (afterReads conn front)).bufferCapacity = Connection.maxBufferSize ∧
      (call.perform (afterReads conn front)).buffer.length + 1 = Connection.maxBufferSize ∧
      (call.perform (afterReads conn front)).buffer = delivered (transportReads conn (front ++ [call]))

/-- A new connection, whatever its transport: `bb_connection_create` gives it an empty buffer of 4096 bytes. -/
theorem reads_collect {conn : Connection} (empty : conn.buffer = []) (capacity : conn.bufferCapacity = 4096)
    {calls : List ReadCall} (legal : ∀ r ∈ transportReads conn calls, r.Legal) : Collects conn calls := by
  have fits : conn.Fits := by
    constructor
    · rw [empty, capacity]
      decide
    · rw [capacity]
      decide
  have early : ∀ front back, calls = front ++ back → (afterReads conn front).buffer = delivered (transportReads conn front) ∧
      (afterReads conn front).Fits := by
    intro front back split
    rw [split, transportReads_append] at legal
    rcases reads_exactly front fits (List.forall_mem_append.mp legal).1 with ⟨buffer, still, _⟩
    rw [empty, List.nil_append] at buffer
    exact ⟨buffer, still⟩
  constructor
  · exact fun front back split => (early front back split).1
  · intro front back split
    exact ⟨(early front back split).2.room, (early front back split).2.limit⟩
  · exact (reads_exactly calls fits legal).2.2
  · intro front call back split failed
    have more : calls = (front ++ [call]) ++ back := by rw [split, List.append_assoc]; rfl
    have last := (early (front ++ [call]) back more).1
    rw [split, transportReads_append] at legal
    have own := (List.forall_mem_append.mp (List.forall_mem_append.mp legal).2).1
    have exactly_ := Connection.read_exactly call.handshake call.turns (early front _ split).2 own
    rcases exactly_.tooLarge failed with ⟨most, full⟩
    refine ⟨most, full, ?_⟩
    rw [← last, afterReads, afterReads, List.foldl_append]
    rfl

/-- A handshake that waits, two pieces, and the end of the stream. -/
theorem reads_collect_pieces :
    Collects { state := .handshake }
      [⟨.wantWrite, []⟩, ⟨.ok, [{ answer := .ok [1, 2] }, { answer := .wantRead }]⟩, ⟨.ok, [{ answer := .ok [3] }, { answer := .closed }]⟩] :=
  reads_collect rfl rfl (by decide)

end BlueBird.Net
