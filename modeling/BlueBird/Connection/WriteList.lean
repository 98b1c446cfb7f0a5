import BlueBird.Bytes
import BlueBird.Memory.Custody

namespace BlueBird.Net

open Custody

abbrev BufferId := Nat

inductive TransportStatus where
  | ok (n : Nat)
  | wantRead | wantWrite | closed | error
  deriving DecidableEq, Repr

inductive ConnectionState where
  | handshake | reading | writing | closed
  deriving DecidableEq, Repr

inductive IoHint where
  | default | needRead | needWrite
  deriving DecidableEq, Repr

/-- An entry of the write list; its buffer may be NULL. -/
structure WriteBuffer where
  writeBuffer : Option BufferId
  writeLength : Nat
  writeOffset : Nat := 0
  deriving DecidableEq, Repr

/-- `bb_connection_t`; the buffer holds `buffer_length` bytes. -/
structure Connection where
  state : ConnectionState := .reading
  buffer : Bytes := []
  bufferCapacity : Nat := 4096
  writeData : List WriteBuffer := []
  writePending : Bool := false
  readIoHint : IoHint := .default
  writeIoHint : IoHint := .default
  deriving DecidableEq, Repr

inductive Outcome where
  | success | connectionClosed | ioError
  deriving DecidableEq, Repr

/-- `free` of a pointer that may be NULL. -/
def freed (buffer : Option BufferId) : List (Event BufferId) := buffer.toList.map .free

namespace Connection

/-- `bb_connection_buffer_add`, with its result; `calloc` is whether the list node could be allocated. -/
def bufferAdd (conn : Connection) (buffer : Option BufferId) (length : Nat) (calloc : Bool) :
    Connection × Nat × List (Event BufferId) :=
  if length = 0 then (conn, 0, [])
  else if calloc then
    ({ conn with writeData := conn.writeData ++ [⟨buffer, length, 0⟩] }, 0, buffer.toList.map .hand)
  else (conn, 1, freed buffer)

/-- The end of the outer loop of `bb_connection_write`: entries written to their end are freed. -/
def complete : List WriteBuffer → List WriteBuffer × List (Event BufferId)
  | [] => ([], [])
  | head :: rest =>
    if head.writeOffset < head.writeLength then (head :: rest, [])
    else
      let (left, events) := complete rest
      (left, freed head.writeBuffer ++ events)

/-- The loops of `bb_connection_write`; a transport that says nothing more wants to write. -/
def writeLoop (conn : Connection) : List TransportStatus → Connection × Outcome × List (Event BufferId)
  | [] => (conn, .success, [])
  | status :: statuses =>
    match conn.writeData with
    | [] => (conn, .success, [])
    | head :: rest =>
      let reads := head.writeBuffer.toList.map Event.read
      match status with
      | .ok n =>
        let (writeData, frees) := complete ({ head with writeOffset := head.writeOffset + n } :: rest)
        let (conn, outcome, events) := writeLoop { conn with writeData } statuses
        (conn, outcome, reads ++ frees ++ events)
      | .wantWrite => (conn, .success, reads)
      | .wantRead => ({ conn with writeIoHint := .needRead }, .success, reads)
      | .closed => ({ conn with state := .closed }, .connectionClosed, reads)
      | .error => (conn, .ioError, reads)

/-- `bb_connection_write` -/
def write (conn : Connection) (statuses : List TransportStatus) : Connection × Outcome × List (Event BufferId) :=
  if conn.state = .closed then (conn, .connectionClosed, [])
  else
    let (writeData, frees) := complete conn.writeData
    let (conn, outcome, events) := writeLoop { conn with writeData, writeIoHint := .default } statuses
    (conn, outcome, frees ++ events)

/-- What `bb_connection_destroy` does with the write list. -/
def destroy (conn : Connection) : List (Event BufferId) := conn.writeData.flatMap fun entry => freed entry.writeBuffer

/-! ## The buffers in the write list -/

def buffers (entries : List WriteBuffer) : List BufferId := entries.filterMap (·.writeBuffer)

theorem buffers_cons (entry : WriteBuffer) (entries : List WriteBuffer) :
    buffers (entry :: entries) = entry.writeBuffer.toList ++ buffers entries := by
  cases h : entry.writeBuffer <;> simp [buffers, h]

theorem buffers_append (entries : List WriteBuffer) (entry : WriteBuffer) :
    buffers (entries ++ [entry]) = buffers entries ++ entry.writeBuffer.toList := by
  cases h : entry.writeBuffer <;> simp [buffers, h]

theorem freed_consumed {buffer : Option BufferId} {rest : List BufferId} (single : (buffer.toList ++ rest).Nodup) :
    Consumed (buffer.toList ++ rest) rest (freed buffer) := by
  cases buffer with
  | none => exact .refl rest
  | some b => exact .free single

theorem reads_consumed (head : WriteBuffer) (rest : List WriteBuffer) :
    Consumed (buffers (head :: rest)) (buffers (head :: rest)) (head.writeBuffer.toList.map .read) := by
  rw [buffers_cons]
  cases head.writeBuffer with
  | none => exact .refl _
  | some b => exact .read (List.mem_cons_self ..)

theorem complete_consumed (entries : List WriteBuffer) (single : (buffers entries).Nodup) :
    Consumed (buffers entries) (buffers (complete entries).1) (complete entries).2 := by
  induction entries with
  | nil => exact .refl _
  | cons head rest ih =>
    unfold complete
    by_cases unfinished : head.writeOffset < head.writeLength
    · rw [if_pos unfinished]
      exact .refl _
    · rw [if_neg unfinished]
      rw [buffers_cons] at single ⊢
      exact (freed_consumed single).trans (ih (List.nodup_append.mp single).2.1)

theorem writeLoop_consumed (statuses : List TransportStatus) (conn : Connection)
    (single : (buffers conn.writeData).Nodup) :
    Consumed (buffers conn.writeData) (buffers (conn.writeLoop statuses).1.writeData)
      (conn.writeLoop statuses).2.2 := by
  induction statuses generalizing conn with
  | nil => exact .refl _
  | cons status statuses ih =>
    unfold writeLoop
    cases entries : conn.writeData with
    | nil =>
      dsimp only
      rw [entries]
      exact .refl _
    | cons head rest =>
      rw [entries] at single
      have reads := reads_consumed head rest
      cases status with
      | ok n =>
        let moved : WriteBuffer := { head with writeOffset := head.writeOffset + n }
        have same : buffers (moved :: rest) = buffers (head :: rest) := rfl
        have frees := complete_consumed (moved :: rest) (same ▸ single)
        have unique := single.sublist (same ▸ frees.suffix.sublist)
        have later := ih { conn with writeData := (complete (moved :: rest)).1 } unique
        exact (reads.trans frees).trans later
      | wantWrite =>
        dsimp only
        rw [entries]
        exact reads
      | wantRead => exact reads
      | closed => exact reads
      | error =>
        dsimp only
        rw [entries]
        exact reads

theorem write_consumed (statuses : List TransportStatus) (conn : Connection)
    (single : (buffers conn.writeData).Nodup) :
    Consumed (buffers conn.writeData) (buffers (conn.write statuses).1.writeData) (conn.write statuses).2.2 := by
  unfold write
  by_cases ended : conn.state = .closed
  · rw [if_pos ended]
    exact .refl _
  · rw [if_neg ended]
    have frees := complete_consumed conn.writeData single
    let started : Connection := { conn with writeData := (complete conn.writeData).1, writeIoHint := .default }
    have unique : (buffers started.writeData).Nodup := single.sublist frees.suffix.sublist
    exact frees.trans (writeLoop_consumed statuses started unique)

theorem destroy_consumed (conn : Connection) (single : (buffers conn.writeData).Nodup) :
    Consumed (buffers conn.writeData) [] conn.destroy := by
  unfold destroy
  generalize conn.writeData = entries at single
  induction entries with
  | nil => exact .refl _
  | cons head rest ih =>
    rw [buffers_cons] at single ⊢
    exact (freed_consumed single).trans (ih (List.nodup_append.mp single).2.1)

end Connection
end BlueBird.Net
