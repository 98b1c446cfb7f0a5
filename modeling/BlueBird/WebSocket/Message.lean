import BlueBird.Memory.CString
import BlueBird.WebSocket.Bounds

/-! Messages as the handler of a websocket gets them. -/

namespace BlueBird.WebSocket

inductive MessageType where
  | text | binary | close | ping | pong
  deriving DecidableEq, Repr

/-- `bb_ws_message_t`; `data` is the block that it points to, or NULL. -/
structure WsMessage where
  type : MessageType
  data : Option Bytes
  length : Nat
  deriving DecidableEq, Repr

/-- Which allocations for a message succeed: its own, and that of its data. -/
structure MessageMemory where
  message : Bool
  data : Bool
  deriving DecidableEq, Repr

/-- `bb_strdup` of the bytes from a pointer on. -/
def strdup (memory : Bool) (s : Bytes) : Option Bytes := if memory then some (s.takeWhile (· ≠ 0) ++ [0]) else none

/-- `bb_ws_message_create` with the bytes from `data` on. -/
def messageCreate (memory : MessageMemory) (type : MessageType) (data : Bytes) (length : Nat) : Option WsMessage :=
  if memory.message then
    if type = .text then some ⟨type, strdup memory.data data, length⟩
    else if length > 0 then
      if memory.data then some ⟨type, some (data.take length), length⟩ else none
    else some ⟨type, none, length⟩
  else none

def messageType (opcode : Byte) : Option MessageType :=
  if opcode = 0x1 then some .text
  else if opcode = 0x2 then some .binary
  else if opcode = 0x8 then some .close
  else if opcode = 0x9 then some .ping
  else if opcode = 0xA then some .pong
  else none

/-- `bb_ws_frame_to_message`. The payload of a frame that was read has a zero behind it. -/
def frameToMessage (memory : MessageMemory) (frame : Accepted) : Option WsMessage :=
  match messageType frame.frame.opcode with
  | none => none
  | some type => messageCreate memory type (frame.frame.payload ++ [0]) frame.header.payloadLength

/-- What the handler may rely on: from `data` on there are `length` bytes, and they are the payload. -/
def WsMessage.Exact (message : WsMessage) (payload : Bytes) : Prop :=
  message.length = payload.length ∧ (message.data.getD []).take message.length = payload

def Delivers (memory : MessageMemory) (frame : Accepted) : Prop :=
  ∀ message, frameToMessage memory frame = some message → message.Exact frame.frame.payload

/-! ## Frames that were read -/

theorem readLoop_accepted {P : Accepted → Prop} (alloc : Allocator) (buffer : Bytes)
    (each : ∀ pos h, readHeader (buffer.drop pos) = some h → h.offset + h.payloadLength ≤ (buffer.drop pos).length →
      P ⟨pos, h, (h.payloadLength + 1) % 2 ^ 64, readPayload h (buffer.drop pos)⟩)
    (fuel : Nat) (accepted : List Accepted) (pos : Nat) (early : ∀ a ∈ accepted, P a)
    (success : (readLoop alloc buffer fuel accepted pos).1 = .success) :
    ∀ a ∈ (readLoop alloc buffer fuel accepted pos).2.1, P a := by
  induction fuel generalizing accepted pos with
  | zero => exact early
  | succ fuel ih =>
    simp only [readLoop] at success ⊢
    split at success
    · rename_i short
      rw [if_pos short]
      exact early
    · rename_i long
      rw [if_neg long]
      split at success
      · cases success
      · rename_i node
        rw [if_neg node]
        cases read : readHeader (buffer.drop pos) with
        | none => exact early
        | some h =>
          rw [read] at success
          dsimp only at success ⊢
          split at success
          · rename_i cut
            rw [if_pos cut]
            exact early
          · rename_i whole
            rw [if_neg whole]
            split at success
            · cases success
            · rename_i payload
              rw [if_neg payload]
              split at success
              · cases success
              · rename_i bounds
                rw [if_neg bounds]
                apply ih _ _ _ success
                intro a member
                rcases List.mem_append.mp member with old | new
                · exact early a old
                · rw [List.mem_singleton.mp new]
                  exact each pos h read (by omega)

/-- The frames that a call of `bb_websocket_read_frames` gives its caller. -/
def Decoded (alloc : Allocator) (buffer : Bytes) (frame : Accepted) : Prop :=
  (readFrames alloc buffer).status = .success ∧ frame ∈ (readFrames alloc buffer).accepted

theorem Decoded.length {alloc : Allocator} {buffer : Bytes} {frame : Accepted} (decoded : Decoded alloc buffer frame) :
    frame.frame.payload.length = frame.header.payloadLength := by
  rcases decoded with ⟨success, member⟩
  have all := readLoop_accepted (P := fun a => a.frame.payload.length = a.header.payloadLength) alloc buffer
    (fun _ _ _ whole => readPayload_length whole) (buffer.length + 1) [] 0 (fun _ none_ => absurd none_ List.not_mem_nil)
  unfold readFrames at success member
  generalize readLoop alloc buffer (buffer.length + 1) [] 0 = looped at success member all
  rcases looped with ⟨status, accepted, consumed⟩
  cases status with
  | success =>
    by_cases nothing : consumed = 0
    · simp [nothing] at success
    · simp only [if_neg nothing] at member
      exact all rfl frame member
  | _ => cases success

/-! ## Copies of text -/

theorem strdup_exact_iff (payload : Bytes) :
    (payload.takeWhile (· ≠ 0) ++ [0]).take payload.length = payload ↔ (0 : Byte) ∉ payload.dropLast := by
  induction payload with
  | nil => exact iff_of_true rfl List.not_mem_nil
  | cons c rest ih =>
    cases rest with
    | nil =>
      apply iff_of_true _ List.not_mem_nil
      by_cases zero : c = 0
      · rw [zero]
        rfl
      · rw [List.takeWhile_cons_of_pos (by simpa using zero)]
        rfl
    | cons d rest =>
      rw [List.dropLast_cons_cons, List.mem_cons, not_or, ← ih]
      by_cases zero : c = 0
      · rw [zero, List.takeWhile_cons_of_neg (by simp)]
        apply iff_of_false
        · intro same
          cases same
        · exact fun both => both.1 rfl
      · rw [List.takeWhile_cons_of_pos (by simpa using zero), List.length_cons, List.cons_append, List.take_succ_cons,
          List.cons.injEq]
        exact ⟨fun both => ⟨fun same => zero same.symm, both.2⟩, fun both => ⟨rfl, both.2⟩⟩

theorem strdup_payload (memory : Bool) (payload : Bytes) :
    strdup memory (payload ++ [0]) = if memory then some (payload.takeWhile (· ≠ 0) ++ [0]) else none := by
  have stops : (payload ++ [0]).takeWhile (· ≠ (0 : Byte)) = payload.takeWhile (· ≠ 0) := Memory.takeWhile_zero payload []
  unfold strdup
  rw [stops]

/-! ## Messages as long as they say -/

theorem delivers_unallocated {memory : MessageMemory} (none_ : memory.message = false) (frame : Accepted) :
    Delivers memory frame := by
  intro message made
  unfold frameToMessage messageCreate at made
  rw [none_] at made
  cases found : messageType frame.frame.opcode with
  | none =>
    rw [found] at made
    cases made
  | some _ =>
    rw [found] at made
    cases made

theorem delivers_binary (memory : MessageMemory) {frame : Accepted} (binary : frame.frame.opcode = 0x2)
    (length : frame.frame.payload.length = frame.header.payloadLength) : Delivers memory frame := by
  intro message made
  have type : messageType frame.frame.opcode = some .binary := by
    rw [binary]
    rfl
  unfold frameToMessage at made
  rw [type] at made
  dsimp only at made
  unfold messageCreate at made
  rw [if_neg (show ¬ MessageType.binary = .text by decide)] at made
  cases allocated : memory.message with
  | false =>
    rw [allocated] at made
    cases made
  | true =>
    rw [allocated, if_pos rfl] at made
    by_cases some_ : frame.header.payloadLength > 0
    · rw [if_pos some_] at made
      cases copied : memory.data with
      | false =>
        rw [copied] at made
        cases made
      | true =>
        rw [copied, if_pos rfl] at made
        cases made
        refine ⟨length.symm, ?_⟩
        show ((frame.frame.payload ++ [0]).take frame.header.payloadLength).take frame.header.payloadLength = _
        rw [List.take_take, Nat.min_self, ← length, List.take_left]
    · rw [if_neg some_] at made
      cases made
      have empty : frame.frame.payload = [] := List.eq_nil_of_length_eq_zero (by omega)
      refine ⟨length.symm, ?_⟩
      show ([] : Bytes).take frame.header.payloadLength = _
      rw [empty, List.take_nil]

theorem delivers_text {memory : MessageMemory} (allocated : memory.message = true) {frame : Accepted}
    (text : frame.frame.opcode = 0x1) (length : frame.frame.payload.length = frame.header.payloadLength) :
    Delivers memory frame ↔ frame.frame.payload = [] ∨ (memory.data = true ∧ (0 : Byte) ∉ frame.frame.payload.dropLast) := by
  have type : messageType frame.frame.opcode = some .text := by
    rw [text]
    rfl
  have made : frameToMessage memory frame =
      some ⟨.text, strdup memory.data (frame.frame.payload ++ [0]), frame.frame.payload.length⟩ := by
    unfold frameToMessage
    rw [type]
    dsimp only
    unfold messageCreate
    rw [allocated, if_pos rfl, if_pos rfl, length]
  have exactly_ : Delivers memory frame ↔
      ((strdup memory.data (frame.frame.payload ++ [0])).getD []).take frame.frame.payload.length = frame.frame.payload := by
    unfold Delivers
    rw [made]
    constructor
    · intro all
      exact (all _ rfl).2
    · intro same message is
      cases is
      exact ⟨rfl, same⟩
  rw [exactly_, strdup_payload]
  cases copied : memory.data with
  | false =>
    show ([] : Bytes).take _ = _ ↔ _
    rw [List.take_nil]
    exact ⟨fun empty => Or.inl empty.symm, fun either => either.elim Eq.symm fun both => absurd both.1 Bool.false_ne_true⟩
  | true =>
    show (frame.frame.payload.takeWhile (· ≠ 0) ++ [0]).take _ = _ ↔ _
    rw [strdup_exact_iff]
    constructor
    · exact fun clean => Or.inr ⟨rfl, clean⟩
    · intro either
      rcases either with empty | ⟨_, clean⟩
      · rw [empty]
        exact List.not_mem_nil
      · exact clean

/-- A frame that was read becomes a message as long as it says, or none, just when it is binary, or its text
    has no zero before its last byte and is copied. -/
theorem delivers_iff {alloc : Allocator} {buffer : Bytes} {frame : Accepted} (decoded : Decoded alloc buffer frame)
    (data : frame.frame.opcode = 0x1 ∨ frame.frame.opcode = 0x2) (memory : MessageMemory) :
    Delivers memory frame ↔ memory.message = false ∨ frame.frame.opcode = 0x2 ∨ frame.frame.payload = [] ∨
      (memory.data = true ∧ (0 : Byte) ∉ frame.frame.payload.dropLast) := by
  rcases data with text | binary
  · cases allocated : memory.message with
    | false => exact iff_of_true (delivers_unallocated allocated frame) (Or.inl rfl)
    | true =>
      have other : ¬ frame.frame.opcode = 0x2 := by
        rw [text]
        decide
      rw [delivers_text allocated text decoded.length]
      constructor
      · exact fun either => Or.inr (Or.inr either)
      · intro either
        rcases either with impossible | binary | either
        · cases impossible
        · exact (other binary).elim
        · exact either
  · exact iff_of_true (delivers_binary memory binary decoded.length) (Or.inr (Or.inl binary))

/-- The payload is `a`, a zero and `b`, masked with zeros. -/
def zeroText : Bytes := [0x81, 0x83, 0, 0, 0, 0, 97, 0, 98]

theorem zeroText_decoded : ∃ frame, Decoded ⟨fun _ => true, fun _ _ => true⟩ zeroText frame ∧ frame.frame.opcode = 0x1 ∧
    frame.frame.payload = [97, 0, 98] :=
  ⟨_, ⟨rfl, .head _⟩, rfl, rfl⟩

theorem delivers_iff_zeroText : ∃ frame, Decoded ⟨fun _ => true, fun _ _ => true⟩ zeroText frame ∧
    (Delivers ⟨true, true⟩ frame ↔ true = false ∨ frame.frame.opcode = 0x2 ∨ frame.frame.payload = [] ∨
      (true = true ∧ (0 : Byte) ∉ frame.frame.payload.dropLast)) := by
  rcases zeroText_decoded with ⟨frame, decoded, text, _⟩
  exact ⟨frame, decoded, delivers_iff decoded (Or.inl text) ⟨true, true⟩⟩

/-- Three bytes are promised, and the copy ends at the zero. -/
theorem not_delivers_zeroText : ¬ ∀ alloc buffer frame memory, Decoded alloc buffer frame →
    frame.frame.opcode = 0x1 ∨ frame.frame.opcode = 0x2 → Delivers memory frame := by
  intro all
  rcases zeroText_decoded with ⟨frame, decoded, text, payload⟩
  have delivers := all _ _ frame ⟨true, true⟩ decoded (Or.inl text)
  rcases (delivers_text rfl text decoded.length).mp delivers with empty | ⟨_, clean⟩
  · rw [payload] at empty
    cases empty
  · rw [payload] at clean
    exact clean (by decide)

end BlueBird.WebSocket
