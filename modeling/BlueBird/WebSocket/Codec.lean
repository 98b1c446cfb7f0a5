import Mathlib.Data.List.GetD
import Mathlib.Data.List.Induction
import BlueBird.Stream.Framing
import BlueBird.WebSocket.Frame

namespace BlueBird.WebSocket

/-! ## One frame -/

theorem first_byte (opcode : Byte) (small : opcode < 16) :
    ((0x80 ||| (opcode &&& 0x0F)) >>> 7) &&& 1 = 1 ∧ (0x80 ||| (opcode &&& 0x0F)) &&& 0x0F = opcode := by
  revert small
  exact forall_byte (motive := fun b => b < 16 →
    ((0x80 ||| (b &&& 0x0F)) >>> 7) &&& 1 = 1 ∧ (0x80 ||| (b &&& 0x0F)) &&& 0x0F = b)
    (by decide +kernel) opcode

def maskBit : Mode → Byte
  | .client => 0x80
  | .server => 0x00

def maskedFlag : Mode → Byte
  | .client => 1
  | .server => 0

theorem length_byte (mode : Mode) (short : Nat) (fits : short < 128) :
    ((maskBit mode ||| UInt8.ofNat short) &&& 0x7F).toNat = short ∧
      ((maskBit mode ||| UInt8.ofNat short) >>> 7) &&& 1 = maskedFlag mode := by
  have each : ∀ n : Fin 128, ((maskBit mode ||| UInt8.ofNat n) &&& 0x7F).toNat = n ∧
      ((maskBit mode ||| UInt8.ofNat n) >>> 7) &&& 1 = maskedFlag mode := by
    cases mode <;> decide +kernel
  exact each ⟨short, fits⟩

theorem applyMask_applyMask (mask : MaskingKey) (payload : Bytes) :
    applyMask mask (applyMask mask payload) = payload := by
  apply List.ext_getElem
  · simp [applyMask]
  · intro i _ _
    simp only [applyMask, List.getElem_mapIdx, UInt8.xor_assoc, UInt8.xor_self, UInt8.xor_zero]

/-- A frame to be queued, with the masking key that will be drawn for it. -/
structure Sent where
  mask : MaskingKey
  opcode : Byte
  payload : Bytes

namespace Sent

def bytes (mode : Mode) (s : Sent) : Bytes := encodeFrame mode s.mask s.opcode s.payload

def frame (mode : Mode) (s : Sent) : Frame where
  fin := 1
  opcode := s.opcode
  masked := maskedFlag mode
  maskingKey := if mode = .client then s.mask else fun _ => 0
  payload := s.payload

def header (mode : Mode) (s : Sent) : FrameHeader where
  fin := 1
  opcode := s.opcode
  masked := maskedFlag mode
  maskingKey := if mode = .client then s.mask else fun _ => 0
  payloadLength := s.payload.length
  offset := 2 + extLen s.payload.length + if mode = .client then 4 else 0

theorem length_bytes (mode : Mode) (s : Sent) :
    (s.bytes mode).length = (s.header mode).offset + (s.header mode).payloadLength := by
  have lengths : ∀ bit, (lengthBytes bit s.payload.length).length = 1 + extLen s.payload.length := by
    intro bit
    unfold lengthBytes extLen
    split
    · simp only [List.length_singleton]
      split <;> (try split) <;> omega
    · split <;> simp only [List.length_cons, BigEndian.length_encode]
      all_goals (split <;> (try split) <;> omega)
  cases mode <;> simp [bytes, encodeFrame, lengths, header, applyMask] <;> omega

theorem bytes_ne_nil (mode : Mode) (s : Sent) : s.bytes mode ≠ [] := by
  cases mode <;> simp [bytes, encodeFrame]

end Sent

theorem readLength_short (first second : Byte) (rest : Bytes) (short : (second &&& 0x7F).toNat < 126) :
    readLength (first :: second :: rest) = some ((second &&& 0x7F).toNat, 2) := by
  simp only [readLength, List.getD_cons_succ, List.getD_cons_zero]
  rw [if_neg (by omega), if_neg (by omega)]

theorem readLength_medium (first second : Byte) (ext rest : Bytes) (medium : (second &&& 0x7F).toNat = 126)
    (two : ext.length = 2) :
    readLength (first :: second :: (ext ++ rest)) = some (BigEndian.decode ext, 4) := by
  simp only [readLength, List.getD_cons_succ, List.getD_cons_zero, medium, if_true]
  rw [if_neg (by simp [two]), List.drop_succ_cons, List.drop_succ_cons, List.drop_zero, List.take_left' two]

theorem readLength_long (first second : Byte) (ext rest : Bytes) (long : (second &&& 0x7F).toNat = 127)
    (eight : ext.length = 8) :
    readLength (first :: second :: (ext ++ rest)) = some (BigEndian.decode ext, 10) := by
  simp only [readLength, List.getD_cons_succ, List.getD_cons_zero, long]
  rw [if_neg (by decide), if_pos trivial, if_neg (by simp [eight]), List.drop_succ_cons, List.drop_succ_cons,
    List.drop_zero, List.take_left' eight]

theorem readLength_lengthBytes (mode : Mode) (first : Byte) (n : Nat) (rest : Bytes) (fits : n < 2 ^ 64) :
    readLength (first :: (lengthBytes (maskBit mode) n ++ rest)) = some (n, 2 + extLen n) := by
  unfold lengthBytes extLen
  by_cases small : n < 126
  · have short := (length_byte mode n (by omega)).1
    rw [if_pos small, if_neg (by omega), if_neg (by omega), List.singleton_append,
      readLength_short _ _ _ (by omega), short]
  · by_cases medium : n ≤ 0xFFFF
    · have short : ((maskBit mode ||| 126) &&& 0x7F).toNat = 126 := (length_byte mode 126 (by decide)).1
      rw [if_neg small, if_pos medium, if_neg (by omega), if_pos (by omega), List.cons_append,
        readLength_medium _ _ _ _ short (by simp), BigEndian.decode_encode n 2 (by omega)]
    · have short : ((maskBit mode ||| 127) &&& 0x7F).toNat = 127 := (length_byte mode 127 (by decide)).1
      rw [if_neg small, if_neg medium, if_pos (by omega), List.cons_append,
        readLength_long _ _ _ _ short (by simp), BigEndian.decode_encode n 8 (by omega)]

theorem lengthBytes_head (mode : Mode) (n : Nat) :
    ∃ second tail, lengthBytes (maskBit mode) n = second :: tail ∧ tail.length = extLen n ∧
      (second >>> 7) &&& 1 = maskedFlag mode := by
  unfold lengthBytes extLen
  by_cases small : n < 126
  · rw [if_pos small, if_neg (by omega), if_neg (by omega)]
    exact ⟨_, [], rfl, rfl, (length_byte mode n (by omega)).2⟩
  · by_cases medium : n ≤ 0xFFFF
    · rw [if_neg small, if_pos medium, if_neg (by omega), if_pos (by omega)]
      exact ⟨_, _, rfl, by simp, (length_byte mode 126 (by decide)).2⟩
    · rw [if_neg small, if_neg medium, if_pos (by omega)]
      exact ⟨_, _, rfl, by simp, (length_byte mode 127 (by decide)).2⟩

theorem getD_key (first second : Byte) (tail rest : Bytes) (mask : MaskingKey) (i : Fin 4) :
    (first :: second :: (tail ++ (List.ofFn mask ++ rest))).getD (2 + tail.length + i) 0 = mask i := by
  have position : 2 + tail.length + i.val = tail.length + i.val + 1 + 1 := by omega
  rw [position, List.getD_cons_succ, List.getD_cons_succ, List.getD_append_right _ _ _ _ (by omega),
    Nat.add_sub_cancel_left, List.getD_append _ _ _ _ (by simp),
    List.getD_eq_getElem _ _ (by simp), List.getElem_ofFn]

theorem readHeader_bytes (mode : Mode) (s : Sent) (rest : Bytes) (small : s.opcode < 16)
    (fits : s.payload.length < 2 ^ 64) : readHeader (s.bytes mode ++ rest) = some (s.header mode) := by
  have first := first_byte s.opcode small
  obtain ⟨second, tail, split, extended, flag⟩ := lengthBytes_head mode s.payload.length
  have declared (more : Bytes) := readLength_lengthBytes mode (0x80 ||| (s.opcode &&& 0x0F))
    s.payload.length more fits
  simp only [split, List.cons_append] at declared
  cases mode with
  | server =>
    have bytes : s.bytes .server ++ rest =
        (0x80 ||| (s.opcode &&& 0x0F)) :: second :: (tail ++ (s.payload ++ rest)) := by
      simp only [Sent.bytes, encodeFrame]
      change _ :: (lengthBytes (maskBit .server) _ ++ _) ++ _ = _
      simp [split]
    rw [bytes]
    simp [readHeader, declared, first, flag, maskedFlag, Sent.header]
  | client =>
    let more := applyMask s.mask s.payload ++ rest
    have bytes : s.bytes .client ++ rest =
        (0x80 ||| (s.opcode &&& 0x0F)) :: second :: (tail ++ (List.ofFn s.mask ++ more)) := by
      simp only [Sent.bytes, encodeFrame]
      change _ :: (lengthBytes (maskBit .client) _ ++ _ ++ _) ++ _ = _
      simp [split, more]
    have key := getD_key (0x80 ||| (s.opcode &&& 0x0F)) second tail more s.mask
    rw [bytes]
    simp only [readHeader, declared, ← extended, key, List.getD_cons_zero, List.getD_cons_succ, first, flag,
      maskedFlag]
    rw [if_neg (by simp), if_pos (by decide), if_neg (by simp; omega)]
    simp [Sent.header, maskedFlag, extended]

theorem readPayload_bytes (mode : Mode) (s : Sent) (rest : Bytes) :
    readPayload (s.header mode) (s.bytes mode ++ rest) = s.frame mode := by
  obtain ⟨second, tail, split, extended, _⟩ := lengthBytes_head mode s.payload.length
  cases mode with
  | server =>
    have bytes : s.bytes .server ++ rest =
        ((0x80 ||| (s.opcode &&& 0x0F)) :: second :: tail) ++ (s.payload ++ rest) := by
      simp only [Sent.bytes, encodeFrame]
      change _ :: (lengthBytes (maskBit .server) _ ++ _) ++ _ = _
      simp [split]
    have front : ((0x80 ||| (s.opcode &&& 0x0F)) :: second :: tail).length = (s.header .server).offset := by
      simp [Sent.header, extended]; omega
    simp only [readPayload]
    rw [bytes, List.drop_left' front, Sent.header, List.take_left]
    simp [Sent.frame, maskedFlag]
  | client =>
    have bytes : s.bytes .client ++ rest =
        ((0x80 ||| (s.opcode &&& 0x0F)) :: second :: tail ++ List.ofFn s.mask) ++
          (applyMask s.mask s.payload ++ rest) := by
      simp only [Sent.bytes, encodeFrame]
      change _ :: (lengthBytes (maskBit .client) _ ++ _ ++ _) ++ _ = _
      simp [split]
    have front : ((0x80 ||| (s.opcode &&& 0x0F)) :: second :: tail ++ List.ofFn s.mask).length =
        (s.header .client).offset := by
      simp [Sent.header, extended]; omega
    have masked : (applyMask s.mask s.payload).length = (s.header .client).payloadLength := by
      simp [applyMask, Sent.header]
    simp only [readPayload]
    rw [bytes, List.drop_left' front, List.take_left' masked]
    simp [Sent.frame, Sent.header, maskedFlag, applyMask_applyMask]

/-! ## A cut frame -/

theorem readLength_append (buf more : Bytes) (found : Nat × Nat) (two : 2 ≤ buf.length)
    (read : readLength buf = some found) : readLength (buf ++ more) = some found := by
  obtain ⟨first, second, rest, rfl⟩ : ∃ first second rest, buf = first :: second :: rest := by
    match buf, two with
    | first :: second :: rest, _ => exact ⟨first, second, rest, rfl⟩
  simp only [readLength, List.getD_cons_succ, List.getD_cons_zero, List.cons_append, List.length_cons,
    List.length_append, List.drop_succ_cons, List.drop_zero] at read ⊢
  split at read
  · split at read
    · cases read
    · rw [if_pos ‹_›, if_neg (by omega), List.take_append_of_le_length (by omega)]
      exact read
  · split at read
    · split at read
      · cases read
      · rw [if_neg ‹_›, if_pos ‹_›, if_neg (by omega), List.take_append_of_le_length (by omega)]
        exact read
    · rw [if_neg ‹_›, if_neg ‹_›]
      exact read

theorem readHeader_append (buf more : Bytes) (h : FrameHeader) (read : readHeader buf = some h) :
    readHeader (buf ++ more) = some h := by
  unfold readHeader at read ⊢
  split at read
  · cases read
  · rename_i two
    rw [if_neg (by simp; omega)]
    split at read
    · cases read
    · rename_i payloadLength offset found
      have head : ∀ i, i < buf.length → (buf ++ more).getD i 0 = buf.getD i 0 :=
        fun i inside => List.getD_append _ _ _ _ inside
      simp only [readLength_append buf more _ (by omega) found, head 0 (by omega), head 1 (by omega)] at read ⊢
      split at read
      · rename_i masked
        split at read
        · cases read
        · have key : ∀ i : Fin 4, (buf ++ more).getD (offset + i) 0 = buf.getD (offset + i) 0 :=
            fun i => head _ (by omega)
          rw [if_pos masked, if_neg (by simp; omega)]
          simp only [key]
          exact read
      · rw [if_neg ‹_›]
        exact read

/-- What the scan finds behind the last whole frame: no header, or one whose payload is cut. -/
def Stopped (rest : Bytes) : Prop :=
  ∀ h, readHeader rest = some h →
    rest.length < h.offset + h.payloadLength ∧ h.offset + h.payloadLength < 2 ^ 64

theorem stopped_unfinished (mode : Mode) (s : Sent) (rest missing : Bytes) (small : s.opcode < 16)
    (fits : (s.bytes mode).length < 2 ^ 64) (cut : s.bytes mode = rest ++ missing) (short : missing ≠ []) :
    Stopped rest := by
  intro h read
  have whole := readHeader_append rest missing h read
  have length := s.length_bytes mode
  have payload : s.payload.length < 2 ^ 64 := by
    simp only [Sent.header] at length
    omega
  have known := readHeader_bytes mode s [] small payload
  rw [List.append_nil, cut, whole, Option.some.injEq] at known
  rw [known, ← length]
  refine ⟨?_, fits⟩
  have left := List.length_pos_of_ne_nil short
  rw [cut, List.length_append]
  omega

theorem stopped_nil : Stopped [] := by
  intro h read
  cases read

/-! ## The scan -/

def Allocator.Succeeds (alloc : Allocator) : Prop :=
  ∀ k, alloc.node k = true ∧ ∀ size, alloc.payload k size = true

theorem readLoop_stopped (alloc : Allocator) (before rest : Bytes) (stopped : Stopped rest) (fuel : Nat)
    (accepted : List Accepted) :
    readLoop alloc (before ++ rest) fuel accepted before.length = (.success, accepted, before.length) ∨
      (readLoop alloc (before ++ rest) fuel accepted before.length).1 = .allocationFailed ∧
        ¬ alloc.Succeeds := by
  cases fuel with
  | zero => exact .inl rfl
  | succ fuel =>
    simp only [readLoop, List.drop_left]
    split
    · exact .inl rfl
    · split
      · rename_i failed
        exact .inr ⟨rfl, fun succeeds => failed.2 (succeeds _).1⟩
      · cases read : readHeader rest with
        | none => exact .inl rfl
        | some h =>
          obtain ⟨short, small⟩ := stopped h read
          dsimp only
          rw [Nat.mod_eq_of_lt small, if_pos short]
          exact .inl rfl

theorem readLoop_frames (mode : Mode) (alloc : Allocator) (sent : List Sent)
    (opcodes : ∀ s ∈ sent, s.opcode < 16) (fits : ∀ s ∈ sent, (s.bytes mode).length < 2 ^ 64)
    (rest : Bytes) (stopped : Stopped rest) (before : Bytes) (fuel : Nat) (enough : sent.length ≤ fuel)
    (accepted : List Accepted) :
    let r := readLoop alloc (before ++ (sent.flatMap (Sent.bytes mode) ++ rest)) fuel accepted before.length
    (r.1 = .success ∧ r.2.1.map (·.frame) = accepted.map (·.frame) ++ sent.map (Sent.frame mode) ∧
        r.2.2 = before.length + (sent.flatMap (Sent.bytes mode)).length) ∨
      (r.1 = .allocationFailed ∧ ¬ alloc.Succeeds) := by
  induction sent generalizing before fuel accepted with
  | nil =>
    rcases readLoop_stopped alloc before rest stopped fuel accepted with done | failed
    · left
      simp [done]
    · exact .inr failed
  | cons s sent ih =>
    obtain ⟨fuel, rfl⟩ := Nat.exists_eq_add_of_lt (Nat.lt_of_lt_of_le (Nat.zero_lt_succ _) enough)
    have length := s.length_bytes mode
    have small : (s.header mode).offset + (s.header mode).payloadLength < 2 ^ 64 := by
      rw [← length]
      exact fits s List.mem_cons_self
    have read := readHeader_bytes mode s (sent.flatMap (Sent.bytes mode) ++ rest)
      (opcodes s List.mem_cons_self) (by simp only [Sent.header] at small; omega)
    have payload := readPayload_bytes mode s (sent.flatMap (Sent.bytes mode) ++ rest)
    have two : 2 ≤ (s.header mode).offset := by simp only [Sent.header]; omega
    simp only [Nat.zero_add, List.flatMap_cons, List.append_assoc]
    unfold readLoop
    simp only [List.drop_left, read, payload]
    rw [if_neg (by simp only [List.length_append]; omega)]
    split
    · rename_i failed
      exact .inr ⟨rfl, fun succeeds => failed.2 (succeeds _).1⟩
    · rw [Nat.mod_eq_of_lt small, if_neg (by simp only [List.length_append]; omega)]
      split
      · rename_i failed
        exact .inr ⟨rfl, fun succeeds => failed ((succeeds _).2 _)⟩
      · have noWrap : ((s.header mode).payloadLength + 1) % 2 ^ 64 = (s.header mode).payloadLength + 1 :=
          Nat.mod_eq_of_lt (by omega)
        rw [if_neg (by simp only [List.length_append, noWrap]; omega)]
        have next := ih (fun t member => opcodes t (List.mem_cons_of_mem _ member))
          (fun t member => fits t (List.mem_cons_of_mem _ member)) (before ++ s.bytes mode) fuel
          (by simp only [List.length_cons] at enough; omega)
        simp only [List.append_assoc, List.length_append, length, ← Nat.add_assoc] at next ⊢
        rcases next _ with ⟨status, frames, consumed⟩ | failed
        · exact .inl ⟨status, by rw [frames]; simp, consumed⟩
        · exact .inr failed

theorem readFrames_frames (mode : Mode) (alloc : Allocator) (sent : List Sent)
    (opcodes : ∀ s ∈ sent, s.opcode < 16) (fits : ∀ s ∈ sent, (s.bytes mode).length < 2 ^ 64)
    (rest : Bytes) (stopped : Stopped rest) :
    let r := readFrames alloc (sent.flatMap (Sent.bytes mode) ++ rest)
    (r.frames = sent.map (Sent.frame mode) ∧ r.buffer = rest) ∨
      (r.frames = [] ∧ r.buffer = sent.flatMap (Sent.bytes mode) ++ rest ∧ ¬ alloc.Succeeds) := by
  have count := Framing.count_le (Sent.bytes mode) (Sent.bytes_ne_nil mode) sent
  have scan := readLoop_frames mode alloc sent opcodes fits rest stopped []
    ((sent.flatMap (Sent.bytes mode) ++ rest).length + 1) (by simp only [List.length_append]; omega) []
  simp only [List.nil_append, List.length_nil, Nat.zero_add, List.map_nil] at scan
  unfold readFrames
  generalize readLoop alloc _ _ [] 0 = looped at scan ⊢
  obtain ⟨status, accepted, consumed⟩ := looped
  rcases scan with ⟨rfl, frames, rfl⟩ | ⟨rfl, failed⟩
  · left
    dsimp only at frames ⊢
    split
    · rename_i none
      have empty : sent = [] := List.eq_nil_of_length_eq_zero (by omega)
      subst empty
      exact ⟨rfl, rfl⟩
    · exact ⟨frames, List.drop_left⟩
  · exact .inr ⟨rfl, rfl, failed⟩

/-! ## A stream in chunks -/

structure Receiver where
  frames : List Frame
  buffer : Bytes

/-- A chunk is appended to the connection's buffer, and `bb_websocket_read_frames` is called. -/
def Receiver.read (r : Receiver) (step : Allocator × Bytes) : Receiver :=
  let result := readFrames step.1 (r.buffer ++ step.2)
  { frames := r.frames ++ result.frames, buffer := result.buffer }

def receiveAll (reads : List (Allocator × Bytes)) : Receiver :=
  reads.foldl Receiver.read { frames := [], buffer := [] }

/-- The frames are split where the buffer stands: those before it have been returned, and nothing
    but the bytes of the others is in it. -/
structure Receiver.Splits (mode : Mode) (sent done todo : List Sent) (received : Bytes) (r : Receiver) :
    Prop where
  parts : sent = done ++ todo
  frames : r.frames = done.map (Sent.frame mode)
  bytes : done.flatMap (Sent.bytes mode) ++ r.buffer = received

theorem Receiver.Splits.read {mode : Mode} {sent done todo : List Sent} {received : Bytes} {r : Receiver}
    (splits : r.Splits mode sent done todo received) (opcodes : ∀ s ∈ sent, s.opcode < 16)
    (fits : ∀ s ∈ sent, (s.bytes mode).length < 2 ^ 64) (alloc : Allocator) (chunk after : Bytes)
    (stream : sent.flatMap (Sent.bytes mode) = received ++ chunk ++ after) :
    ∃ done todo, (r.read (alloc, chunk)).Splits mode sent done todo (received ++ chunk) ∧
      (alloc.Succeeds → Framing.Unfinished (Sent.bytes mode) todo (r.read (alloc, chunk)).buffer) := by
  obtain ⟨parts, frames, bytes⟩ := splits
  have left : todo.flatMap (Sent.bytes mode) = (r.buffer ++ chunk) ++ after := by
    rw [parts, List.flatMap_append, ← bytes] at stream
    simpa using stream
  obtain ⟨more, later, rest, split, whole, following, unfinished⟩ := Framing.cut _ _ _ _ left
  have stopped : Stopped rest := by
    cases later with
    | nil =>
      have empty : rest = [] := unfinished
      rw [empty]
      exact stopped_nil
    | cons next later =>
      obtain ⟨missing, cut, short⟩ := Framing.unfinished_prefix _ _ _ _ _ following unfinished
      have member : next ∈ sent := by simp [parts, split]
      exact stopped_unfinished mode next rest missing (opcodes _ member) (fits _ member) cut short
  have inside : ∀ s ∈ more, s ∈ sent := by
    intro s member
    simp [parts, split, member]
  have outcome := readFrames_frames mode alloc more (fun s member => opcodes s (inside s member))
    (fun s member => fits s (inside s member)) rest stopped
  simp only [Receiver.read, whole]
  rcases outcome with ⟨returned, buffer⟩ | ⟨returned, buffer, failed⟩
  · refine ⟨done ++ more, later, ⟨?_, ?_, ?_⟩, ?_⟩
    · rw [parts, split, List.append_assoc]
    · rw [frames, returned, List.map_append]
    · rw [buffer, ← bytes, List.append_assoc, whole, List.flatMap_append, List.append_assoc]
    · intro _
      rw [buffer]
      exact unfinished
  · refine ⟨done, todo, ⟨parts, ?_, ?_⟩, fun succeeds => absurd succeeds failed⟩
    · rw [frames, returned, List.append_nil]
    · rw [buffer, ← bytes, List.append_assoc, whole]

theorem Receiver.Splits.whole {mode : Mode} {sent done todo : List Sent} {r : Receiver}
    (splits : r.Splits mode sent done todo (sent.flatMap (Sent.bytes mode)))
    (unfinished : Framing.Unfinished (Sent.bytes mode) todo r.buffer) :
    r.frames = sent.map (Sent.frame mode) ∧ r.buffer = [] := by
  obtain ⟨parts, frames, bytes⟩ := splits
  have left : r.buffer = todo.flatMap (Sent.bytes mode) := by
    rw [parts, List.flatMap_append] at bytes
    exact List.append_cancel_left bytes
  cases todo with
  | nil =>
    rw [List.append_nil] at parts
    exact ⟨by rw [parts, frames], left⟩
  | cons next todo =>
    simp only [Framing.Unfinished, left, List.flatMap_cons, List.length_append] at unfinished
    omega

theorem receiveAll_splits (mode : Mode) (sent : List Sent) (opcodes : ∀ s ∈ sent, s.opcode < 16)
    (fits : ∀ s ∈ sent, (s.bytes mode).length < 2 ^ 64) (reads : List (Allocator × Bytes)) (after : Bytes)
    (stream : sent.flatMap (Sent.bytes mode) = reads.flatMap (·.2) ++ after) :
    ∃ done todo, (receiveAll reads).Splits mode sent done todo (reads.flatMap (·.2)) ∧
      ((∀ last ∈ reads.getLast?, last.1.Succeeds) →
        Framing.Unfinished (Sent.bytes mode) todo (receiveAll reads).buffer) := by
  induction reads using List.reverseRecOn generalizing after with
  | nil =>
    refine ⟨[], sent, ⟨rfl, rfl, rfl⟩, fun _ => ?_⟩
    cases sent with
    | nil => rfl
    | cons s sent => exact List.length_pos_of_ne_nil (s.bytes_ne_nil mode)
  | append_singleton reads last ih =>
    simp only [List.flatMap_append, List.flatMap_cons, List.flatMap_nil, List.append_nil] at stream ⊢
    obtain ⟨done, todo, splits, _⟩ := ih (last.2 ++ after) (by rw [stream, List.append_assoc])
    obtain ⟨done', todo', splits', unfinished⟩ := splits.read opcodes fits last.1 last.2 after stream
    have one : receiveAll (reads ++ [last]) = (receiveAll reads).read last := by simp [receiveAll]
    rw [one]
    refine ⟨done', todo', splits', fun succeeded => unfinished (succeeded last ?_)⟩
    simp

/-- Frames encoded one after the other come back exactly once and in order, however the stream is
    cut into chunks. At every point what has been returned and what is in the buffer are the bytes
    received, whatever the allocations did; after a read whose allocations succeeded the buffer
    holds less than a frame, and nothing at the end of the stream. -/
theorem readFrames_encodeFrame_stream (mode : Mode) (sent : List Sent) (opcodes : ∀ s ∈ sent, s.opcode < 16)
    (size : (sent.flatMap (Sent.bytes mode)).length < 2 ^ 64) (reads : List (Allocator × Bytes))
    (stream : reads.flatMap (·.2) = sent.flatMap (Sent.bytes mode)) :
    (∀ before after, reads = before ++ after → ∃ done todo,
      sent = done ++ todo ∧ (receiveAll before).frames = done.map (Sent.frame mode) ∧
      done.flatMap (Sent.bytes mode) ++ (receiveAll before).buffer = before.flatMap (·.2) ∧
      ((∀ last ∈ before.getLast?, last.1.Succeeds) →
        Framing.Unfinished (Sent.bytes mode) todo (receiveAll before).buffer)) ∧
    ((∀ last ∈ reads.getLast?, last.1.Succeeds) →
      (receiveAll reads).frames = sent.map (Sent.frame mode) ∧ (receiveAll reads).buffer = []) := by
  have fits : ∀ s ∈ sent, (s.bytes mode).length < 2 ^ 64 := by
    intro s member
    obtain ⟨earlier, later, rfl⟩ := List.append_of_mem member
    simp only [List.flatMap_append, List.flatMap_cons, List.length_append] at size
    omega
  constructor
  · intro before after split
    rw [split, List.flatMap_append] at stream
    obtain ⟨done, todo, splits, unfinished⟩ :=
      receiveAll_splits mode sent opcodes fits before _ stream.symm
    exact ⟨done, todo, splits.parts, splits.frames, splits.bytes, unfinished⟩
  · intro succeeded
    obtain ⟨done, todo, splits, unfinished⟩ :=
      receiveAll_splits mode sent opcodes fits reads [] (by rw [stream, List.append_nil])
    rw [stream] at splits
    exact splits.whole (unfinished succeeded)

/-- A masked text frame and an empty ping, cut inside the masking key and after the first frame. -/
theorem readFrames_encodeFrame_stream_two :
    let alloc : Allocator := ⟨fun _ => true, fun _ _ => true⟩
    let sent : List Sent := [⟨fun i => UInt8.ofNat (i + 7), 1, [104, 105]⟩, ⟨fun _ => 9, 9, []⟩]
    let stream := sent.flatMap (Sent.bytes .client)
    let reads := [(alloc, stream.take 4), (alloc, (stream.drop 4).take 4), (alloc, stream.drop 8)]
    (receiveAll reads).frames = sent.map (Sent.frame .client) ∧ (receiveAll reads).buffer = [] := by
  intro alloc sent stream reads
  apply (readFrames_encodeFrame_stream .client sent (by decide) (by decide) reads (by decide)).2
  intro last member
  cases member
  exact fun _ => ⟨rfl, fun _ => rfl⟩

end BlueBird.WebSocket
