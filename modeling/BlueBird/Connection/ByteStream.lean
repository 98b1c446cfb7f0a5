import Mathlib.Data.List.Range
import BlueBird.Connection.WriteList

namespace BlueBird.Net

open Custody

namespace Connection

/-! ## The bytes behind the write list -/

section
variable (contents : BufferId → Bytes)

/-- The bytes from `write_offset` to `write_length`, which a call of the transport is offered. -/
def offered (entry : WriteBuffer) : Bytes :=
  (((entry.writeBuffer.map contents).getD []).drop entry.writeOffset).take (entry.writeLength - entry.writeOffset)

def unsent (entries : List WriteBuffer) : Bytes := entries.flatMap (offered contents)

/-- An entry as `bb_connection_buffer_add` makes it, not yet written to its end. -/
def Unfinished (entry : WriteBuffer) : Prop :=
  ∃ b, entry.writeBuffer = some b ∧ entry.writeLength ≤ (contents b).length ∧ entry.writeOffset < entry.writeLength

/-- The connection after the transport has taken `n` bytes of the first entry. -/
def taken (conn : Connection) (n : Nat) : Connection :=
  { conn with
    writeData := (complete (conn.writeData.modifyHead fun head => { head with writeOffset := head.writeOffset + n })).1 }

/-- What the transport takes of the list in one call of `bb_connection_write`. -/
def acceptedLoop (conn : Connection) : List TransportStatus → Bytes
  | .ok n :: statuses =>
    if conn.writeData = [] then []
    else ((conn.writeData.head?.map (offered contents)).getD []).take n ++ acceptedLoop (conn.taken n) statuses
  | _ => []

def started (conn : Connection) : Connection :=
  { conn with writeData := (complete conn.writeData).1, writeIoHint := .default }

def accepted (conn : Connection) (statuses : List TransportStatus) : Bytes :=
  if conn.state = .closed then [] else acceptedLoop contents conn.started statuses

/-- The transport takes at least one and at most the offered bytes whenever it takes any. -/
def LegalLoop (conn : Connection) : List TransportStatus → Prop
  | .ok n :: statuses =>
    conn.writeData ≠ [] → 1 ≤ n ∧ n ≤ ((conn.writeData.head?.map (offered contents)).getD []).length ∧
      LegalLoop (conn.taken n) statuses
  | _ => True

def Legal (conn : Connection) (statuses : List TransportStatus) : Prop :=
  conn.state ≠ .closed → LegalLoop contents conn.started statuses

end

section
variable {contents : BufferId → Bytes}

theorem offered_length {entry : WriteBuffer} (live : Unfinished contents entry) :
    (offered contents entry).length = entry.writeLength - entry.writeOffset := by
  rcases live with ⟨b, buffer, length, _⟩
  unfold offered
  rw [buffer, List.length_take, List.length_drop]
  show min _ ((contents b).length - entry.writeOffset) = _
  omega

theorem offered_moved {entry : WriteBuffer} (live : Unfinished contents entry) {n : Nat} :
    offered contents { entry with writeOffset := entry.writeOffset + n } = (offered contents entry).drop n := by
  rcases live with ⟨b, buffer, length, _⟩
  unfold offered
  rw [buffer]
  show (((contents b).drop (entry.writeOffset + n)).take (entry.writeLength - (entry.writeOffset + n))) =
    (((contents b).drop entry.writeOffset).take (entry.writeLength - entry.writeOffset)).drop n
  rw [List.drop_take, List.drop_drop, Nat.sub_sub]

theorem complete_unfinished {entries : List WriteBuffer} (live : ∀ entry ∈ entries, Unfinished contents entry) :
    (complete entries).1 = entries := by
  cases entries with
  | nil => rfl
  | cons head rest =>
    rcases live head List.mem_cons_self with ⟨_, _, _, short⟩
    unfold complete
    rw [if_pos short]

theorem taken_spec {conn : Connection} (live : ∀ entry ∈ conn.writeData, Unfinished contents entry) {head : WriteBuffer}
    {rest : List WriteBuffer} (entries : conn.writeData = head :: rest) (n : Nat) :
    (∀ entry ∈ (conn.taken n).writeData, Unfinished contents entry) ∧
      unsent contents conn.writeData = (offered contents head).take n ++ unsent contents (conn.taken n).writeData := by
  rw [entries] at live
  rcases List.forall_mem_cons.mp live with ⟨first, others⟩
  let moved : WriteBuffer := { head with writeOffset := head.writeOffset + n }
  have left : (conn.taken n).writeData = (complete (moved :: rest)).1 := by
    unfold taken
    rw [entries]
    rfl
  have split : offered contents head = (offered contents head).take n ++ offered contents moved := by
    rw [offered_moved first, List.take_append_drop]
  have all : unsent contents conn.writeData =
      (offered contents head).take n ++ (offered contents moved ++ unsent contents rest) := by
    rw [entries, ← List.append_assoc, ← split]
    rfl
  rw [left, all]
  by_cases unfinished : moved.writeOffset < moved.writeLength
  · have same : (complete (moved :: rest)).1 = moved :: rest := by
      unfold complete
      rw [if_pos unfinished]
    rcases first with ⟨b, buffer, length, _⟩
    rw [same]
    exact ⟨List.forall_mem_cons.mpr ⟨⟨b, buffer, length, unfinished⟩, others⟩, rfl⟩
  · have gone : (complete (moved :: rest)).1 = rest := by
      unfold complete
      rw [if_neg unfinished]
      exact complete_unfinished others
    have empty : offered contents moved = [] := by
      apply List.length_eq_zero_iff.mp
      rw [offered_moved first, List.length_drop, offered_length first]
      have full : ¬ head.writeOffset + n < head.writeLength := unfinished
      omega
    rw [gone, empty, List.nil_append]
    exact ⟨others, rfl⟩

theorem writeLoop_ok {conn : Connection} (pending : conn.writeData ≠ []) (n : Nat) :
    ∃ events, ∀ statuses, conn.writeLoop (.ok n :: statuses) =
      (((conn.taken n).writeLoop statuses).1, ((conn.taken n).writeLoop statuses).2.1,
        events ++ ((conn.taken n).writeLoop statuses).2.2) := by
  cases entries : conn.writeData with
  | nil => exact absurd entries pending
  | cons head rest =>
    refine ⟨head.writeBuffer.toList.map Event.read ++
      (complete ({ head with writeOffset := head.writeOffset + n } :: rest)).2, fun statuses => ?_⟩
    simp only [writeLoop, taken, entries]
    rfl

theorem writeLoop_stop {conn : Connection} {status : TransportStatus} (stops : ∀ n, status ≠ .ok n)
    (statuses : List TransportStatus) :
    conn.writeLoop (status :: statuses) = conn.writeLoop [status] ∧
      (conn.writeLoop (status :: statuses)).1.writeData = conn.writeData := by
  cases entries : conn.writeData with
  | nil =>
    simp only [writeLoop, entries]
    exact ⟨trivial, trivial⟩
  | cons head rest =>
    cases status with
    | ok n => exact absurd rfl (stops n)
    | wantRead =>
      simp only [writeLoop, entries]
      exact ⟨trivial, trivial⟩
    | wantWrite =>
      simp only [writeLoop, entries]
      exact ⟨trivial, trivial⟩
    | closed =>
      simp only [writeLoop, entries]
      exact ⟨trivial, trivial⟩
    | error =>
      simp only [writeLoop, entries]
      exact ⟨trivial, trivial⟩

theorem writeLoop_empty {conn : Connection} (idle : conn.writeData = []) (statuses : List TransportStatus) :
    conn.writeLoop statuses = (conn, .success, []) := by
  cases statuses with
  | nil => rfl
  | cons status statuses =>
    unfold writeLoop
    rw [idle]

theorem acceptedLoop_ok {conn : Connection} {head : WriteBuffer} {rest : List WriteBuffer}
    (entries : conn.writeData = head :: rest) (n : Nat) (statuses : List TransportStatus) :
    acceptedLoop contents conn (.ok n :: statuses) =
      (offered contents head).take n ++ acceptedLoop contents (conn.taken n) statuses := by
  have pending : conn.writeData ≠ [] := by
    rw [entries]
    exact List.cons_ne_nil head rest
  rw [acceptedLoop, if_neg pending, entries]
  rfl

theorem acceptedLoop_stop {conn : Connection} {status : TransportStatus} (stops : ∀ n, status ≠ .ok n)
    (statuses : List TransportStatus) : acceptedLoop contents conn (status :: statuses) = [] := by
  cases status with
  | ok n => exact absurd rfl (stops n)
  | wantRead => rfl
  | wantWrite => rfl
  | closed => rfl
  | error => rfl

theorem acceptedLoop_empty {conn : Connection} (idle : conn.writeData = []) (statuses : List TransportStatus) :
    acceptedLoop contents conn statuses = [] := by
  cases statuses with
  | nil => rfl
  | cons status statuses =>
    cases status with
    | ok n => rw [acceptedLoop, if_pos idle]
    | wantRead => rfl
    | wantWrite => rfl
    | closed => rfl
    | error => rfl

theorem ok_or_stops (status : TransportStatus) : (∃ n, status = .ok n) ∨ ∀ n, status ≠ .ok n := by
  cases status with
  | ok n => exact Or.inl ⟨n, rfl⟩
  | wantRead => exact Or.inr fun n same => by cases same
  | wantWrite => exact Or.inr fun n same => by cases same
  | closed => exact Or.inr fun n same => by cases same
  | error => exact Or.inr fun n same => by cases same

theorem writeLoop_spec {conn : Connection} (live : ∀ entry ∈ conn.writeData, Unfinished contents entry)
    (statuses : List TransportStatus) :
    (∀ entry ∈ (conn.writeLoop statuses).1.writeData, Unfinished contents entry) ∧
      unsent contents conn.writeData =
        acceptedLoop contents conn statuses ++ unsent contents (conn.writeLoop statuses).1.writeData := by
  induction statuses generalizing conn with
  | nil => exact ⟨live, rfl⟩
  | cons status statuses ih =>
    cases entries : conn.writeData with
    | nil =>
      rw [writeLoop_empty entries, acceptedLoop_empty entries, entries]
      exact ⟨by simp, rfl⟩
    | cons head rest =>
      have pending : conn.writeData ≠ [] := by
        rw [entries]
        exact List.cons_ne_nil head rest
      rcases ok_or_stops status with ⟨n, rfl⟩ | stops
      · rcases taken_spec live entries n with ⟨left, moved⟩
        rcases ih left with ⟨still, later⟩
        rcases writeLoop_ok pending n with ⟨events, step⟩
        rw [step, acceptedLoop_ok entries, ← entries, moved, later, List.append_assoc]
        exact ⟨still, rfl⟩
      · rw [(writeLoop_stop stops statuses).2, acceptedLoop_stop stops, ← entries]
        exact ⟨live, rfl⟩

theorem writeLoop_ends {conn : Connection} (live : ∀ entry ∈ conn.writeData, Unfinished contents entry)
    {statuses : List TransportStatus} (legal : LegalLoop contents conn statuses)
    (many : (unsent contents conn.writeData).length < statuses.length) (more : List TransportStatus) :
    conn.writeLoop (statuses ++ more) = conn.writeLoop statuses := by
  induction statuses generalizing conn with
  | nil => exact absurd many (Nat.not_lt_zero _)
  | cons status statuses ih =>
    cases entries : conn.writeData with
    | nil => rw [writeLoop_empty entries, writeLoop_empty entries]
    | cons head rest =>
      have pending : conn.writeData ≠ [] := by
        rw [entries]
        exact List.cons_ne_nil head rest
      rcases ok_or_stops status with ⟨n, rfl⟩ | stops
      · rcases taken_spec live entries n with ⟨left, moved⟩
        rw [LegalLoop] at legal
        rcases legal pending with ⟨progress, room, later⟩
        have offer : n ≤ (offered contents head).length := by
          rw [entries] at room
          exact room
        have fewer : (unsent contents (conn.taken n).writeData).length < statuses.length := by
          rw [moved, List.length_append, List.length_take, List.length_cons] at many
          omega
        rcases writeLoop_ok pending n with ⟨events, step⟩
        rw [List.cons_append, step, step, ih left later fewer]
      · rw [List.cons_append, (writeLoop_stop stops _).1, (writeLoop_stop stops statuses).1]

theorem unsent_empty {entries : List WriteBuffer} (live : ∀ entry ∈ entries, Unfinished contents entry) :
    entries = [] ↔ unsent contents entries = [] := by
  cases entries with
  | nil => exact ⟨fun _ => rfl, fun _ => rfl⟩
  | cons head rest =>
    have first := live head List.mem_cons_self
    have some_byte : offered contents head ≠ [] := by
      intro empty
      have length := offered_length first
      rcases first with ⟨_, _, _, short⟩
      rw [empty, List.length_nil] at length
      omega
    constructor
    · intro none
      cases none
    · intro none
      exact absurd (List.append_eq_nil_iff.mp none).1 some_byte

/-! ## One call -/

theorem write_refused {conn : Connection} (closed : conn.state = .closed) (statuses : List TransportStatus) :
    conn.write statuses = (conn, .connectionClosed, []) := by
  unfold write
  rw [if_pos closed]

theorem started_writeData {conn : Connection} (live : ∀ entry ∈ conn.writeData, Unfinished contents entry) :
    conn.started.writeData = conn.writeData := complete_unfinished live

theorem write_started {conn : Connection} (opened : conn.state ≠ .closed) (statuses : List TransportStatus) :
    conn.write statuses =
      ((conn.started.writeLoop statuses).1, (conn.started.writeLoop statuses).2.1,
        (complete conn.writeData).2 ++ (conn.started.writeLoop statuses).2.2) := by
  unfold write
  rw [if_neg opened]
  rfl

theorem write_spec {conn : Connection} (live : ∀ entry ∈ conn.writeData, Unfinished contents entry)
    (statuses : List TransportStatus) :
    (∀ entry ∈ (conn.write statuses).1.writeData, Unfinished contents entry) ∧
      unsent contents conn.writeData =
        accepted contents conn statuses ++ unsent contents (conn.write statuses).1.writeData := by
  by_cases closed : conn.state = .closed
  · rw [write_refused closed, accepted, if_pos closed]
    exact ⟨live, rfl⟩
  · have same := started_writeData live
    rw [write_started closed, accepted, if_neg closed, ← same]
    exact writeLoop_spec (same ▸ live) statuses

theorem writeLoop_unsent {status : TransportStatus} (stops : ∀ n, status ≠ .ok n) (statuses : List TransportStatus)
    (conn : Connection) :
    (conn.writeLoop (statuses ++ [status])).1.writeData = (conn.writeLoop statuses).1.writeData := by
  induction statuses generalizing conn with
  | nil => exact (writeLoop_stop stops []).2
  | cons first statuses ih =>
    by_cases idle : conn.writeData = []
    · rw [writeLoop_empty idle, writeLoop_empty idle]
    · rcases ok_or_stops first with ⟨n, rfl⟩ | ends
      · rcases writeLoop_ok idle n with ⟨events, step⟩
        rw [List.cons_append, step, step]
        exact ih (conn.taken n)
      · rw [List.cons_append, (writeLoop_stop ends _).2, (writeLoop_stop ends statuses).2]

theorem write_unsent {status : TransportStatus} (stops : ∀ n, status ≠ .ok n) (statuses : List TransportStatus)
    (conn : Connection) : (conn.write (statuses ++ [status])).1.writeData = (conn.write statuses).1.writeData := by
  by_cases closed : conn.state = .closed
  · rw [write_refused closed, write_refused closed]
  · rw [write_started closed, write_started closed]
    exact writeLoop_unsent stops statuses conn.started

theorem write_ends {conn : Connection} (live : ∀ entry ∈ conn.writeData, Unfinished contents entry)
    {statuses : List TransportStatus} (legal : Legal contents conn statuses)
    (many : (unsent contents conn.writeData).length < statuses.length) (more : List TransportStatus) :
    conn.write (statuses ++ more) = conn.write statuses := by
  by_cases closed : conn.state = .closed
  · rw [write_refused closed, write_refused closed]
  · have same := started_writeData live
    rw [← same] at live many
    rw [write_started closed, write_started closed, writeLoop_ends live (legal closed) many]

theorem bufferAdd_spec {conn : Connection} (live : ∀ entry ∈ conn.writeData, Unfinished contents entry) {b : BufferId}
    {length : Nat} (sound : length ≤ (contents b).length) (calloc : Bool) :
    (∀ entry ∈ (conn.bufferAdd (some b) length calloc).1.writeData, Unfinished contents entry) ∧
      unsent contents (conn.bufferAdd (some b) length calloc).1.writeData =
        unsent contents conn.writeData ++
          if (conn.bufferAdd (some b) length calloc).2.1 = 0 then (contents b).take length else [] := by
  by_cases empty : length = 0
  · have same : conn.bufferAdd (some b) length calloc = (conn, 0, []) := if_pos empty
    rw [same, empty]
    exact ⟨live, by simp⟩
  · cases calloc with
    | false =>
      have same : conn.bufferAdd (some b) length false = (conn, 1, freed (some b)) := if_neg empty
      rw [same]
      exact ⟨live, by simp⟩
    | true =>
      have same : conn.bufferAdd (some b) length true =
          ({ conn with writeData := conn.writeData ++ [⟨some b, length, 0⟩] }, 0, [Event.hand b]) := if_neg empty
      have last : offered contents ⟨some b, length, 0⟩ = (contents b).take length := rfl
      rw [same]
      constructor
      · intro entry member
        rcases List.mem_append.mp member with older | newer
        · exact live entry older
        · rcases List.mem_singleton.mp newer with rfl
          exact ⟨b, rfl, sound, Nat.pos_of_ne_zero empty⟩
      · show unsent contents (conn.writeData ++ [⟨some b, length, 0⟩]) = _
        unfold unsent
        rw [List.flatMap_append, List.flatMap_singleton, last]
        rfl

end
end Connection

/-! ## A connection and what it is told to send -/

inductive StreamCall where
  | add (buffer : BufferId) (length : Nat) (calloc : Bool)
  | write (statuses : List TransportStatus)
  deriving DecidableEq, Repr

structure Stream where
  conn : Connection
  added : Bytes := []
  wire : Bytes := []
  deriving DecidableEq, Repr

section
variable (contents : BufferId → Bytes)

/-- A buffer is added with no more bytes than it has. -/
def StreamCall.Sound : StreamCall → Prop
  | .add b length _ => length ≤ (contents b).length
  | .write _ => True

instance (call : StreamCall) : Decidable (call.Sound contents) :=
  match call with
  | .add b length _ => inferInstanceAs (Decidable (length ≤ (contents b).length))
  | .write _ => inferInstanceAs (Decidable True)

def Stream.step (s : Stream) : StreamCall → Stream
  | .add b length calloc =>
    let (conn, result, _) := s.conn.bufferAdd (some b) length calloc
    { s with conn, added := s.added ++ if result = 0 then (contents b).take length else [] }
  | .write statuses =>
    { s with conn := (s.conn.write statuses).1, wire := s.wire ++ s.conn.accepted contents statuses }

def Stream.run (s : Stream) (calls : List StreamCall) : Stream := calls.foldl (Stream.step contents) s

/-- The wire and the write list together hold what was added, in order. -/
structure Stream.Exact (s : Stream) : Prop where
  live : ∀ entry ∈ s.conn.writeData, Connection.Unfinished contents entry
  whole : s.wire ++ Connection.unsent contents s.conn.writeData = s.added

/-- The first `k` answers of a transport that never stops answering. -/
def answered (answers : Nat → TransportStatus) (k : Nat) : List TransportStatus := (List.range k).map answers

/-- What a sender relies on: the list holds the rest of what was added, a failing answer costs nothing, and every
call comes to an end. -/
structure Stream.Delivers (s : Stream) : Prop where
  rest : s.added = s.wire ++ Connection.unsent contents s.conn.writeData
  sent : s.conn.writeData = [] ↔ s.wire = s.added
  kept : ∀ statuses status, (∀ n, status ≠ .ok n) →
    (s.conn.write (statuses ++ [status])).1.writeData = (s.conn.write statuses).1.writeData
  closed : s.conn.state = .closed → ∀ statuses, (s.conn.write statuses).1 = s.conn
  ends : ∀ answers, (∀ k, s.conn.Legal contents (answered answers k)) →
    ∃ k, ∀ more, s.conn.write (answered answers (k + more)) = s.conn.write (answered answers k)

end

section
variable {contents : BufferId → Bytes}

theorem Stream.Exact.step {s : Stream} (exact_ : s.Exact contents) {call : StreamCall} (sound : call.Sound contents) :
    (s.step contents call).Exact contents := by
  cases call with
  | add b length calloc =>
    rcases Connection.bufferAdd_spec exact_.live sound calloc with ⟨live, behind⟩
    constructor
    · exact live
    · show s.wire ++ Connection.unsent contents (s.conn.bufferAdd (some b) length calloc).1.writeData = _
      rw [behind, ← List.append_assoc, exact_.whole]
      rfl
  | write statuses =>
    rcases Connection.write_spec exact_.live statuses with ⟨live, moved⟩
    constructor
    · exact live
    · show (s.wire ++ s.conn.accepted contents statuses) ++ Connection.unsent contents (s.conn.write statuses).1.writeData = _
      rw [List.append_assoc, ← moved]
      exact exact_.whole

theorem Stream.Exact.run {s : Stream} (exact_ : s.Exact contents) {calls : List StreamCall}
    (sound : ∀ call ∈ calls, call.Sound contents) : (s.run contents calls).Exact contents := by
  induction calls generalizing s with
  | nil => exact exact_
  | cons call calls ih =>
    rcases List.forall_mem_cons.mp sound with ⟨first, others⟩
    exact ih (exact_.step first) others

theorem answered_add (answers : Nat → TransportStatus) (k more : Nat) :
    ∃ later, answered answers (k + more) = answered answers k ++ later := by
  unfold answered
  rw [List.range_add, List.map_append]
  exact ⟨_, rfl⟩

theorem Stream.Exact.delivers {s : Stream} (exact_ : s.Exact contents) : s.Delivers contents where
  rest := exact_.whole.symm
  sent := by
    rw [Connection.unsent_empty exact_.live, ← exact_.whole]
    exact ⟨fun empty => by rw [empty, List.append_nil], fun same => List.append_right_eq_self.mp same.symm⟩
  kept statuses _ stops := Connection.write_unsent stops statuses s.conn
  closed ended statuses := by rw [Connection.write_refused ended]
  ends answers legal := by
    let k := (Connection.unsent contents s.conn.writeData).length + 1
    have many : (Connection.unsent contents s.conn.writeData).length < (answered answers k).length := by
      unfold answered
      rw [List.length_map, List.length_range]
      exact Nat.lt_succ_self _
    exists k
    intro more
    rcases answered_add answers k more with ⟨later, split⟩
    rw [split]
    exact Connection.write_ends exact_.live (legal k) many later

/-- After any additions and writes the transport has a prefix of the added bytes and the list the rest. -/
theorem exact_stream {conn : Connection} (fresh : conn.writeData = []) {calls : List StreamCall}
    (sound : ∀ call ∈ calls, call.Sound contents) : ((Stream.mk conn [] []).run contents calls).Delivers contents := by
  have start : (Stream.mk conn [] []).Exact contents := by
    constructor
    · show ∀ entry ∈ conn.writeData, Connection.Unfinished contents entry
      rw [fresh]
      exact fun entry member => absurd member List.not_mem_nil
    · show [] ++ Connection.unsent contents conn.writeData = []
      rw [fresh]
      rfl
  exact (start.run sound).delivers

end

/-- Two buffers, the second added while the first is half sent, and an error before the rest goes out. -/
theorem exact_stream_interleaved :
    (Stream.mk {} [] []).run (fun b => if b = 0 then [1, 2, 3] else [4, 5])
        [.add 0 3 true, .write [.ok 2, .wantWrite], .add 1 2 true, .write [.error], .write [.ok 1, .ok 1, .wantRead]] =
      { conn := { writeData := [⟨some 1, 2, 1⟩], writeIoHint := .needRead }, added := [1, 2, 3, 4, 5], wire := [1, 2, 3, 4] } ∧
    ((Stream.mk {} [] []).run (fun b => if b = 0 then [1, 2, 3] else [4, 5])
        [.add 0 3 true, .write [.ok 2, .wantWrite], .add 1 2 true, .write [.error],
          .write [.ok 1, .ok 1, .wantRead]]).Delivers (fun b => if b = 0 then [1, 2, 3] else [4, 5]) :=
  ⟨by decide, exact_stream rfl (by decide)⟩

end BlueBird.Net
