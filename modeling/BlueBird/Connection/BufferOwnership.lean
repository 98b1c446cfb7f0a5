import BlueBird.Connection.WriteList
import BlueBird.Http.Message
import BlueBird.WebSocket.Frame
import Mathlib.Data.List.Induction

namespace BlueBird.Net

open Custody Connection
open BlueBird.WebSocket (Mode MaskingKey encodeFrame)
open BlueBird.Http (Message)

/-! ## The callers of `bb_connection_buffer_add` -/

/-- A connection until it is destroyed, the next buffer that `malloc` will return, and everything done
    with buffers so far. -/
structure Session where
  conn : Option Connection := some {}
  next : BufferId := 0
  trace : List (Event BufferId) := []

/-- Queueing, writing and destroying; the flags say which allocations succeed. -/
inductive Operation where
  | queueFrame (mode : Mode) (mask : Option MaskingKey) (opcode : Byte) (payload : Bytes) (malloc calloc : Bool)
  | queueResponse (message : Message) (stored malloc calloc : Bool)
  | queueRequest (message : Message) (stored malloc calloc : Bool) (garbage : Nat)
  | queueHandshake (request : Bytes) (strdup calloc : Bool)
  | write (statuses : List TransportStatus)
  | destroy

namespace Session

def allocate (s : Session) : Session := { s with next := s.next + 1, trace := s.trace ++ [.allocate s.next] }

def free (s : Session) (b : BufferId) : Session := { s with trace := s.trace ++ [.free b] }

/-- `bb_connection_buffer_add` on the session's connection, with its result. -/
def bufferAdd (s : Session) (conn : Connection) (buffer : Option BufferId) (length : Nat) (calloc : Bool) :
    Session × Nat :=
  let (conn, rc, events) := conn.bufferAdd buffer length calloc
  ({ s with conn := some conn, trace := s.trace ++ events }, rc)

/-- `bb_websocket_queue_frame`; no mask key for a client is a failure of the random source. -/
def queueFrame (s : Session) (conn : Connection) (mode : Mode) (mask : Option MaskingKey) (opcode : Byte)
    (payload : Bytes) (malloc calloc : Bool) : Session :=
  if malloc then
    let buffer := s.next
    let s := s.allocate
    match mode, mask with
    | .client, none => s.free buffer
    | mode, mask =>
      let bytes := encodeFrame mode (mask.getD fun _ => 0) opcode payload
      let (s, rc) := s.bufferAdd conn (some buffer) bytes.length calloc
      if rc ≠ 0 then s.free buffer else s
  else s

/-- The end of `_server_read_step`. -/
def queueResponse (s : Session) (conn : Connection) (message : Message) (stored malloc calloc : Bool) : Session :=
  if malloc then (s.allocate.bufferAdd conn (some s.next) (message.serialize stored).length calloc).1 else s

/-- `bb_client_send` and `_client_create_write_task`: a failed serialization leaves the pointer NULL and
    the length what it happened to be. -/
def queueRequest (s : Session) (conn : Connection) (message : Message) (stored malloc calloc : Bool)
    (garbage : Nat) : Session :=
  if malloc then (s.allocate.bufferAdd conn (some s.next) (message.serialize stored).length calloc).1
  else (s.bufferAdd conn none garbage calloc).1

/-- The last part of `bb_websocket_connect`. -/
def queueHandshake (s : Session) (conn : Connection) (request : Bytes) (strdup calloc : Bool) : Session :=
  if strdup then (s.allocate.bufferAdd conn (some s.next) request.length calloc).1
  else (s.bufferAdd conn none request.length calloc).1

def perform (s : Session) (operation : Operation) : Session :=
  match s.conn with
  | none => s
  | some conn =>
    match operation with
    | .queueFrame mode mask opcode payload malloc calloc => s.queueFrame conn mode mask opcode payload malloc calloc
    | .queueResponse message stored malloc calloc => s.queueResponse conn message stored malloc calloc
    | .queueRequest message stored malloc calloc garbage => s.queueRequest conn message stored malloc calloc garbage
    | .queueHandshake request strdup calloc =>
      if request = [] then s else s.queueHandshake conn request strdup calloc
    | .write statuses =>
      let (conn, _, events) := conn.write statuses
      { s with conn := some conn, trace := s.trace ++ events }
    | .destroy => { s with conn := none, trace := s.trace ++ conn.destroy }

def run (operations : List Operation) : Session := operations.foldl perform {}

def held (s : Session) : List BufferId := buffers ((s.conn.map (·.writeData)).getD [])

/-- No buffer was ever misused, and now the write list owns what is in it, once, and all others that were
    allocated have been freed once. -/
structure Kept (s : Session) : Prop where
  single : s.held.Nodup
  owners : ∀ b, track b s.trace .nobody =
    some (if b ∈ s.held then .holder else if b < s.next then .freed else .nobody)

/-- The list node of a frame can be allocated once the frame has been built. -/
def Clean (s : Session) : Operation → Prop
  | .queueFrame mode mask _ _ malloc calloc =>
    s.conn.isSome = true → malloc = true → (mode = .client → mask.isSome = true) → calloc = true
  | _ => True

/-! ## One operation -/

/-- `Kept`, with the buffers that `malloc` has still to return not in the list. -/
structure Sound (s : Session) : Prop extends Kept s where
  allocated : ∀ b ∈ s.held, b < s.next

variable {s : Session} {conn : Connection}

theorem held_of_conn (open_ : s.conn = some conn) : s.held = buffers conn.writeData := by
  rw [held, open_]
  rfl

theorem Sound.consume (sound : s.Sound) (left : Option Connection) {events : List (Event BufferId)}
    (consumed : Consumed s.held (buffers ((left.map (·.writeData)).getD [])) events) :
    Sound { s with conn := left, trace := s.trace ++ events } where
  single := sound.single.sublist consumed.suffix.sublist
  allocated b member := sound.allocated b (consumed.suffix.subset member)
  owners := by
    intro b
    rw [track_append, sound.owners b, Option.bind_some]
    show _ = some (if b ∈ buffers ((left.map (·.writeData)).getD []) then _ else _)
    by_cases inside : b ∈ s.held
    · rw [if_pos inside, consumed.tracked b inside, if_pos (sound.allocated b inside)]
    · rw [if_neg inside, consumed.other inside, if_neg fun still => inside (consumed.suffix.subset still)]

theorem Sound.fresh (sound : s.Sound) {later : Session} (events : List (Event BufferId)) (owner : Owner)
    (next : later.next = s.next + 1) (trace : later.trace = s.trace ++ events)
    (about : ∀ event ∈ events, event.about = s.next) (tracked : track s.next events .nobody = some owner)
    (placed : owner = .holder ∧ later.held = s.held ++ [s.next] ∨ owner = .freed ∧ later.held = s.held) :
    later.Sound := by
  have absent : s.next ∉ s.held := fun inside => Nat.lt_irrefl _ (sound.allocated _ inside)
  have members : ∀ b, b ≠ s.next → (b ∈ later.held ↔ b ∈ s.held) := by
    intro b differs
    rcases placed with ⟨_, held⟩ | ⟨_, held⟩ <;> simp [held, differs]
  refine { single := ?_, owners := ?_, allocated := ?_ }
  · rcases placed with ⟨_, held⟩ | ⟨_, held⟩
    · rw [held]
      exact List.nodup_append.mpr ⟨sound.single, by simp, by
        intro b inside c same
        rw [List.mem_singleton.mp same]
        exact fun equal => absent (equal ▸ inside)⟩
    · rw [held]
      exact sound.single
  · intro b
    rw [trace, track_append, sound.owners b, Option.bind_some, next]
    by_cases new : b = s.next
    · subst new
      rw [if_neg absent, if_neg (Nat.lt_irrefl _), tracked]
      rcases placed with ⟨rfl, held⟩ | ⟨rfl, held⟩ <;> simp [held, absent]
    · have others : ∀ event ∈ events, event.about ≠ b := by
        intro event member same
        exact new (same ▸ about event member)
      have bound : b < s.next ↔ b < s.next + 1 :=
        ⟨Nat.lt_succ_of_lt, fun less => Nat.lt_of_le_of_ne (Nat.lt_succ_iff.mp less) new⟩
      rw [track_other others, if_congr (members b new).symm rfl (if_congr bound rfl rfl)]
  · intro b inside
    rw [next]
    by_cases new : b = s.next
    · exact new ▸ Nat.lt_succ_self _
    · exact Nat.lt_succ_of_lt (sound.allocated b ((members b new).mp inside))

/-- A new buffer that the caller still owns goes to `bb_connection_buffer_add`, which keeps or frees it. -/
theorem Sound.allocate_bufferAdd (sound : s.Sound) (open_ : s.conn = some conn) (length : Nat)
    (nonempty : length ≠ 0) (calloc : Bool) :
    (s.allocate.bufferAdd conn (some s.next) length calloc).1.Sound := by
  have held := held_of_conn open_
  cases calloc with
  | true =>
    apply sound.fresh [.allocate s.next, .hand s.next] .holder
    · simp [bufferAdd, Connection.bufferAdd, nonempty, allocate]
    · simp [bufferAdd, Connection.bufferAdd, nonempty, allocate]
    · simp [Event.about]
    · simp [track, Event.about, Owner.next]
    · refine Or.inl ⟨rfl, ?_⟩
      simp [bufferAdd, Connection.bufferAdd, nonempty, Session.held, buffers_append, open_]
  | false =>
    apply sound.fresh [.allocate s.next, .free s.next] .freed
    · simp [bufferAdd, Connection.bufferAdd, nonempty, allocate]
    · simp [bufferAdd, Connection.bufferAdd, nonempty, allocate, freed]
    · simp [Event.about]
    · simp [track, Event.about, Owner.next]
    · refine Or.inr ⟨rfl, ?_⟩
      simp [bufferAdd, Connection.bufferAdd, nonempty, Session.held, open_]

theorem Sound.bufferAdd_null (sound : s.Sound) (open_ : s.conn = some conn) (length : Nat) (calloc : Bool) :
    (s.bufferAdd conn none length calloc).1.Sound := by
  have held := held_of_conn open_
  have consumed : Consumed s.held (buffers (conn.bufferAdd none length calloc).1.writeData)
      (conn.bufferAdd none length calloc).2.2 := by
    rw [held]
    unfold Connection.bufferAdd
    by_cases empty : length = 0
    · rw [if_pos empty]
      exact .refl _
    · rw [if_neg empty]
      cases calloc with
      | true =>
        simp only [if_true, buffers_append]
        simpa using Consumed.refl (buffers conn.writeData)
      | false => exact .refl _
  exact sound.consume (some _) consumed

theorem Sound.queueFrame_unmasked (sound : s.Sound) (mode : Mode) (mask : Option MaskingKey) (opcode : Byte)
    (payload : Bytes) (calloc : Bool) (missing : mode = .client ∧ mask = none) :
    (s.queueFrame conn mode mask opcode payload true calloc).Sound := by
  rcases missing with ⟨rfl, rfl⟩
  apply sound.fresh [.allocate s.next, .free s.next] .freed
  · simp [queueFrame, allocate, free]
  · simp [queueFrame, allocate, free]
  · simp [Event.about]
  · simp [track, Event.about, Owner.next]
  · exact Or.inr ⟨rfl, rfl⟩

theorem queueFrame_masked (mode : Mode) (mask : Option MaskingKey) (opcode : Byte) (payload : Bytes)
    (calloc : Bool) (present : mode = .client → mask.isSome = true) :
    s.queueFrame conn mode mask opcode payload true calloc =
      let added := s.allocate.bufferAdd conn (some s.next)
        (encodeFrame mode (mask.getD fun _ => 0) opcode payload).length calloc
      if added.2 ≠ 0 then added.1.free s.next else added.1 := by
  cases mode with
  | server => rfl
  | client =>
    cases mask with
    | none => cases present rfl
    | some key => rfl

/-- A second `free` by the caller. -/
theorem Sound.freed_twice (sound : s.Sound) (conn : Connection) (length : Nat) (nonempty : length ≠ 0) :
    ¬((s.allocate.bufferAdd conn (some s.next) length false).1.free s.next).Kept := by
  intro kept
  have absent : s.next ∉ s.held := fun inside => Nat.lt_irrefl _ (sound.allocated _ inside)
  have misuse := kept.owners s.next
  have trace : ((s.allocate.bufferAdd conn (some s.next) length false).1.free s.next).trace =
      s.trace ++ [.allocate s.next, .free s.next, .free s.next] := by
    simp [bufferAdd, Connection.bufferAdd, nonempty, allocate, freed, free]
  rw [trace, track_append, sound.owners s.next, Option.bind_some, if_neg absent, if_neg (Nat.lt_irrefl _)] at misuse
  simp [track, Event.about, Owner.next] at misuse

theorem encodeFrame_ne_nil (mode : Mode) (mask : MaskingKey) (opcode : Byte) (payload : Bytes) :
    (encodeFrame mode mask opcode payload).length ≠ 0 := by
  cases mode <;> simp [encodeFrame]

theorem bufferAdd_true (buffer : Option BufferId) (length : Nat) : (s.bufferAdd conn buffer length true).2 = 0 := by
  simp [bufferAdd, Connection.bufferAdd]
  split <;> rfl

theorem Sound.perform (sound : s.Sound) (operation : Operation) (clean : s.Clean operation) :
    (s.perform operation).Sound := by
  unfold Session.perform
  cases open_ : s.conn with
  | none => exact sound
  | some conn =>
    have held := held_of_conn open_
    cases operation with
    | queueFrame mode mask opcode payload malloc calloc =>
      cases malloc with
      | false => exact sound
      | true =>
        by_cases present : mode = .client → mask.isSome = true
        · have node : calloc = true := clean (by rw [open_]; rfl) rfl present
          subst node
          have length := encodeFrame_ne_nil mode (mask.getD fun _ => 0) opcode payload
          have added := sound.allocate_bufferAdd open_ _ length true
          show (s.queueFrame conn mode mask opcode payload true true).Sound
          rw [queueFrame_masked mode mask opcode payload true present]
          dsimp only
          rw [bufferAdd_true, if_neg (fun differs => differs rfl)]
          exact added
        · apply sound.queueFrame_unmasked
          simpa using present
    | queueResponse message stored malloc calloc =>
      cases malloc with
      | false => exact sound
      | true => exact sound.allocate_bufferAdd open_ _ (message.serialize_ne_nil stored) calloc
    | queueRequest message stored malloc calloc garbage =>
      cases malloc with
      | false => exact sound.bufferAdd_null open_ garbage calloc
      | true => exact sound.allocate_bufferAdd open_ _ (message.serialize_ne_nil stored) calloc
    | queueHandshake request strdup calloc =>
      dsimp only
      by_cases empty : request = []
      · rw [if_pos empty]
        exact sound
      · rw [if_neg empty]
        cases strdup with
        | false => exact sound.bufferAdd_null open_ request.length calloc
        | true => exact sound.allocate_bufferAdd open_ _ (by simpa using empty) calloc
    | write statuses =>
      apply sound.consume (some (conn.write statuses).1)
      rw [held]
      exact write_consumed statuses conn (held ▸ sound.single)
    | destroy =>
      apply sound.consume none
      rw [held]
      exact destroy_consumed conn (held ▸ sound.single)

theorem Sound.not_kept (sound : s.Sound) (operation : Operation) (dirty : ¬s.Clean operation) :
    ¬(s.perform operation).Kept := by
  cases operation with
  | queueFrame mode mask opcode payload malloc calloc =>
    simp only [Clean, Classical.not_imp, Bool.not_eq_true] at dirty
    rcases dirty with ⟨live, rfl, present, rfl⟩
    rcases Option.isSome_iff_exists.mp live with ⟨conn, open_⟩
    have length := encodeFrame_ne_nil mode (mask.getD fun _ => 0) opcode payload
    have twice := sound.freed_twice conn _ length
    have performed : s.perform (.queueFrame mode mask opcode payload true false) =
        s.queueFrame conn mode mask opcode payload true false := by
      rw [Session.perform, open_]
    have rc : (s.allocate.bufferAdd conn (some s.next)
        (encodeFrame mode (mask.getD fun _ => 0) opcode payload).length false).2 = 1 := by
      simp [bufferAdd, Connection.bufferAdd, length]
    rw [performed, queueFrame_masked mode mask opcode payload false present]
    dsimp only
    rw [rc, if_pos Nat.one_ne_zero]
    exact twice
  | _ => exact (dirty True.intro).elim

/-! ## Every sequence of operations -/

theorem run_append (operations : List Operation) (operation : Operation) :
    run (operations ++ [operation]) = (run operations).perform operation := by
  simp [run]

theorem sound_run (operations : List Operation)
    (clean : ∀ before operation, before ++ [operation] <+: operations → (run before).Clean operation) :
    (run operations).Sound := by
  induction operations using List.reverseRecOn with
  | nil =>
    have empty : (run []).held = [] := rfl
    refine { single := List.nodup_nil, owners := ?_, allocated := ?_ }
    · intro b
      rw [empty, if_neg List.not_mem_nil]
      rfl
    · intro b inside
      cases empty ▸ inside
  | append_singleton operations operation ih =>
    rw [run_append]
    apply (ih _).perform operation (clean operations operation (List.prefix_refl _))
    intro before early within
    exact clean before early (within.trans (List.prefix_append ..))

theorem sound_of_kept (operations : List Operation)
    (kept : ∀ before, before <+: operations → (run before).Kept) : (run operations).Sound := by
  induction operations using List.reverseRecOn with
  | nil => exact sound_run [] (by simp)
  | append_singleton operations operation ih =>
    have sound := ih fun before early => kept before (early.trans (List.prefix_append ..))
    have after := kept _ (List.prefix_refl _)
    rw [run_append] at after ⊢
    apply sound.perform operation
    by_contra dirty
    exact sound.not_kept operation dirty after

/-- In every sequence of operations, with any allocations failing, every buffer is owned by its caller or by
    the write list, freed once and never read afterwards, exactly as long as no frame that was built fails
    to get its list node. -/
theorem kept_iff_clean (operations : List Operation) :
    (∀ before, before <+: operations → (run before).Kept) ↔
      ∀ before operation, before ++ [operation] <+: operations → (run before).Clean operation := by
  constructor
  · intro kept before operation within
    have sound := sound_of_kept before fun early earlier =>
      kept early (earlier.trans ((List.prefix_append ..).trans within))
    by_contra dirty
    exact sound.not_kept operation dirty (run_append before operation ▸ kept _ within)
  · intro clean before within
    have sound := sound_run before fun early operation earlier => clean early operation (earlier.trans within)
    exact sound.toKept

theorem not_kept_failed_node : ¬(run [.queueFrame .server none 1 [] true false]).Kept := by
  intro kept
  have misuse := kept.owners 0
  revert misuse
  decide

end Session
end BlueBird.Net
