import BlueBird.Connection.WriteList

namespace BlueBird.Net

/-- What the transport answers to a read; no more bytes than were asked for are taken. -/
inductive ReadAnswer where
  | ok (data : Bytes)
  | wantRead | wantWrite | closed | error
  deriving DecidableEq, Repr

inductive Handshake where
  | ok | wantRead | wantWrite | closed | error
  deriving DecidableEq, Repr

/-- One turn of the loop of `bb_connection_read`: whether its `realloc`, if it needs one, succeeds, and what
    the transport says. -/
structure ReadTurn where
  realloc : Bool := true
  answer : ReadAnswer
  deriving DecidableEq, Repr

inductive ReadOutcome where
  | success | connectionClosed | tlsHandshake | payloadTooLarge | alloc | io
  deriving DecidableEq, Repr

namespace Connection

def maxBufferSize : Nat := 4 * 1024 * 1024

/-- Room for more bytes and a terminating zero, or what the read ends with. -/
def ensureSpace (conn : Connection) (realloc : Bool) : Connection × Option ReadOutcome :=
  if conn.buffer.length + 1 ≥ conn.bufferCapacity then
    if conn.bufferCapacity ≥ maxBufferSize then ({ conn with state := .closed }, some .payloadTooLarge)
    else
      let newCapacity := conn.bufferCapacity * 2
      let newCapacity := if newCapacity > maxBufferSize then maxBufferSize else newCapacity
      if realloc then ({ conn with bufferCapacity := newCapacity }, none) else (conn, some .alloc)
  else (conn, none)

/-- The loop of `bb_connection_read`; a transport that says nothing more wants to read. -/
def readLoop (conn : Connection) : List ReadTurn → Connection × ReadOutcome
  | [] =>
    match conn.ensureSpace true with
    | (conn, some failure) => (conn, failure)
    | (conn, none) => (conn, .success)
  | turn :: turns =>
    match conn.ensureSpace turn.realloc with
    | (conn, some failure) => (conn, failure)
    | (conn, none) =>
      match turn.answer with
      | .ok data =>
        let room := conn.bufferCapacity - conn.buffer.length - 1
        readLoop { conn with buffer := conn.buffer ++ data.take room } turns
      | .closed => ({ conn with state := .closed }, .success)
      | .wantRead => (conn, .success)
      | .wantWrite => ({ conn with readIoHint := .needWrite }, .success)
      | .error => (conn, .io)

/-- `bb_connection_read` -/
def read (conn : Connection) (handshake : Handshake) (turns : List ReadTurn) : Connection × ReadOutcome :=
  match conn.state with
  | .closed => (conn, .connectionClosed)
  | .handshake =>
    match handshake with
    | .ok => readLoop { conn with state := .reading, readIoHint := .default } turns
    | .wantRead => ({ conn with readIoHint := .default }, .success)
    | .wantWrite => ({ conn with readIoHint := .needWrite }, .success)
    | .closed => ({ conn with state := .closed }, .connectionClosed)
    | .error => ({ conn with state := .closed }, .tlsHandshake)
  | _ => readLoop { conn with readIoHint := .default } turns

/-! ## Bytes that fit -/

theorem read_reading {conn : Connection} (reading : conn.state = .reading) (turns : List ReadTurn) :
    conn.read .ok turns = ({ conn with readIoHint := .default } : Connection).readLoop turns := by
  cases conn
  cases reading
  rfl

/-- The buffer and its terminating zero fit into the allocation, which never exceeds the limit. -/
structure Fits (conn : Connection) : Prop where
  room : conn.buffer.length < conn.bufferCapacity
  limit : conn.bufferCapacity ≤ maxBufferSize

theorem ensureSpace_spec {conn : Connection} (fits : conn.Fits) (small : conn.buffer.length + 1 < maxBufferSize) :
    ∃ capacity, conn.ensureSpace true = ({ conn with bufferCapacity := capacity }, none) ∧
      conn.buffer.length + 1 < capacity ∧ capacity ≤ maxBufferSize := by
  rcases fits with ⟨room, limit⟩
  unfold ensureSpace
  by_cases full : conn.buffer.length + 1 ≥ conn.bufferCapacity
  · have below : ¬ conn.bufferCapacity ≥ maxBufferSize := by omega
    rw [if_pos full, if_neg below]
    by_cases clamped : conn.bufferCapacity * 2 > maxBufferSize
    · exact ⟨maxBufferSize, by simp [clamped], small, Nat.le_refl _⟩
    · exact ⟨conn.bufferCapacity * 2, by simp [clamped], by omega, by omega⟩
  · rw [if_neg full]
    exact ⟨conn.bufferCapacity, rfl, by omega, limit⟩

theorem readLoop_takes (chunk : Bytes) {conn : Connection} (fits : conn.Fits)
    (small : conn.buffer.length + chunk.length + 1 < maxBufferSize) :
    ∃ turns capacity, conn.readLoop turns =
        ({ conn with buffer := conn.buffer ++ chunk, bufferCapacity := capacity }, .success) ∧
      conn.buffer.length + chunk.length < capacity ∧ capacity ≤ maxBufferSize := by
  generalize size : chunk.length = n
  induction n using Nat.strongRecOn generalizing chunk conn with
  | _ n ih =>
    rcases ensureSpace_spec fits (by omega) with ⟨capacity, ensured, room, limit⟩
    cases chunk with
    | nil =>
      refine ⟨[⟨true, .wantRead⟩], capacity, ?_, by rw [← size]; exact Nat.lt_of_succ_lt room, limit⟩
      unfold readLoop
      rw [ensured, List.append_nil]
    | cons byte bytes =>
      let taken := capacity - conn.buffer.length - 1
      let piece := (byte :: bytes).take taken
      let filled : Connection := { conn with buffer := conn.buffer ++ piece, bufferCapacity := capacity }
      have length : piece.length = min taken (byte :: bytes).length := List.length_take
      have left : ((byte :: bytes).drop taken).length = (byte :: bytes).length - taken := List.length_drop
      have some_byte : 0 < (byte :: bytes).length := Nat.succ_pos _
      have still : filled.Fits := by
        constructor
        · show (conn.buffer ++ piece).length < capacity
          rw [List.length_append]
          omega
        · exact limit
      have later : filled.buffer.length + ((byte :: bytes).drop taken).length + 1 < maxBufferSize := by
        show (conn.buffer ++ piece).length + _ + 1 < _
        rw [List.length_append]
        omega
      rcases ih _ (by omega) ((byte :: bytes).drop taken) still later rfl with ⟨turns, last, loop, enough, bound⟩
      refine ⟨⟨true, .ok (byte :: bytes)⟩ :: turns, last, ?_, ?_, bound⟩
      · unfold readLoop
        rw [ensured]
        show filled.readLoop turns = _
        rw [loop]
        show ({ conn with buffer := (conn.buffer ++ piece) ++ (byte :: bytes).drop taken, bufferCapacity := last }, _) = _
        rw [List.append_assoc, List.take_append_drop]
      · have front : filled.buffer.length = conn.buffer.length + piece.length := List.length_append
        omega

end Connection
end BlueBird.Net
