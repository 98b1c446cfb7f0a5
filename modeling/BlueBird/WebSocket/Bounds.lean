import BlueBird.WebSocket.Frame

namespace BlueBird.WebSocket

/-! ## What a call may touch -/

/-- Every accepted frame lies in the buffer and has room for its payload and the closing zero; the
    call removes a prefix of the buffer and nothing else. -/
structure ReadResult.InBounds (buffer : Bytes) (r : ReadResult) : Prop where
  fits : ∀ a ∈ r.accepted, a.start + a.header.offset + a.header.payloadLength ≤ buffer.length
  allocated : ∀ a ∈ r.accepted, a.header.payloadLength + 1 ≤ a.allocated
  consumed : r.consumed ≤ buffer.length
  rest : r.buffer = buffer.drop r.consumed

/-- The allocations for the `k`-th frame. -/
def Allocator.grants (alloc : Allocator) (k : Nat) (h : FrameHeader) : Prop :=
  (k = 0 ∨ alloc.node k = true) ∧ alloc.payload k ((h.payloadLength + 1) % 2 ^ 64) = true

/-- The `k`-th frame of the buffer begins at `pos`: the ones before it are whole. -/
inductive Boundary (alloc : Allocator) (buffer : Bytes) : Nat → Nat → Prop where
  | start : Boundary alloc buffer 0 0
  | next {k pos : Nat} {h : FrameHeader} (boundary : Boundary alloc buffer k pos)
      (read : readHeader (buffer.drop pos) = some h)
      (whole : pos + h.offset + h.payloadLength ≤ buffer.length) (granted : alloc.grants k h) :
      Boundary alloc buffer (k + 1) (pos + h.offset + h.payloadLength)

/-- A frame that the scan comes to declares a length that wraps around in `offset + payload_len`,
    and the allocation of `payload_len + 1` bytes, modulo the word, succeeds. -/
def WrapsAround (alloc : Allocator) (buffer : Bytes) : Prop :=
  ∃ k pos h, Boundary alloc buffer k pos ∧ readHeader (buffer.drop pos) = some h ∧
    2 ^ 64 ≤ h.offset + h.payloadLength ∧ alloc.grants k h

theorem readLength_bounds (buf : Bytes) (payloadLength offset : Nat) (two : 2 ≤ buf.length)
    (read : readLength buf = some (payloadLength, offset)) :
    2 ≤ offset ∧ offset ≤ 10 ∧ offset ≤ buf.length ∧ payloadLength < 2 ^ 64 := by
  unfold readLength at read
  have small : (buf.getD 1 0 &&& 0x7F).toNat < 256 := UInt8.toNat_lt _
  dsimp only at read
  split at read
  · split at read
    · cases read
    · have value := BigEndian.decode_lt ((buf.drop 2).take 2)
      have bytes : ((buf.drop 2).take 2).length = 2 := by simp; omega
      rw [bytes] at value
      grind
  · split at read
    · split at read
      · cases read
      · have value := BigEndian.decode_lt ((buf.drop 2).take 8)
        have bytes : ((buf.drop 2).take 8).length = 8 := by simp; omega
        rw [bytes] at value
        grind
    · grind

theorem readHeader_bounds (buf : Bytes) (h : FrameHeader) (read : readHeader buf = some h) :
    2 ≤ h.offset ∧ h.offset ≤ 14 ∧ h.offset ≤ buf.length ∧ h.payloadLength < 2 ^ 64 := by
  unfold readHeader at read
  split at read
  · cases read
  · rename_i two
    split at read
    · cases read
    · rename_i payloadLength offset found
      have bounds := readLength_bounds buf payloadLength offset (by omega) found
      grind

/-! ## The scan against the bounds -/

def accept (pos : Nat) (h : FrameHeader) (buf : Bytes) : Accepted :=
  { start := pos, header := h, allocated := (h.payloadLength + 1) % 2 ^ 64, frame := readPayload h buf }

theorem readLoop_granted (alloc : Allocator) (buffer : Bytes) (fuel : Nat) (accepted : List Accepted)
    (pos : Nat) (h : FrameHeader) (room : buffer.length < 2 ^ 64)
    (read : readHeader (buffer.drop pos) = some h) (granted : alloc.grants accepted.length h) :
    readLoop alloc buffer (fuel + 1) accepted pos =
      if 2 ^ 64 ≤ h.offset + h.payloadLength then
        (.outOfBounds, accepted ++ [accept pos h (buffer.drop pos)], pos)
      else if (buffer.drop pos).length < h.offset + h.payloadLength then (.success, accepted, pos)
      else
        readLoop alloc buffer fuel (accepted ++ [accept pos h (buffer.drop pos)])
          (pos + h.offset + h.payloadLength) := by
  obtain ⟨two, fourteen, inside, declared⟩ := readHeader_bounds _ _ read
  have length : (buffer.drop pos).length ≤ buffer.length := by simp
  have node : ¬ (accepted ≠ [] ∧ ¬ alloc.node accepted.length = true) := by
    rintro ⟨more, failed⟩
    rcases granted.1 with none | succeeded
    · exact more (List.eq_nil_of_length_eq_zero none)
    · exact failed succeeded
  conv => lhs; unfold readLoop
  simp only [read]
  rw [if_neg (by omega), if_neg node]
  by_cases wraps : 2 ^ 64 ≤ h.offset + h.payloadLength
  · rw [if_neg (by omega), if_neg (fun failed => failed granted.2), if_pos (by omega), if_pos wraps]
    rfl
  · rw [if_neg wraps, Nat.mod_eq_of_lt (by omega)]
    by_cases short : (buffer.drop pos).length < h.offset + h.payloadLength
    · rw [if_pos short, if_pos short]
    · rw [if_neg short, if_neg short, if_neg (fun failed => failed granted.2), if_neg (by omega)]
      rfl

theorem readLoop_ungranted (alloc : Allocator) (buffer : Bytes) (fuel : Nat) (accepted : List Accepted)
    (pos : Nat) (refused : ∀ h, readHeader (buffer.drop pos) = some h → ¬ alloc.grants accepted.length h) :
    (readLoop alloc buffer (fuel + 1) accepted pos).2 = (accepted, pos) := by
  simp only [readLoop]
  split
  · rfl
  · split
    · rfl
    · rename_i node
      cases read : readHeader (buffer.drop pos) with
      | none => rfl
      | some h =>
        dsimp only
        split
        · rfl
        · split
          · rfl
          · rename_i payload
            refine absurd ⟨?_, by simpa using payload⟩ (refused h read)
            by_cases none : accepted = []
            · exact .inl (by rw [none]; rfl)
            · right
              by_contra failed
              exact node ⟨none, failed⟩

theorem Boundary.reached {alloc : Allocator} {buffer : Bytes} {k pos : Nat} (room : buffer.length < 2 ^ 64)
    (boundary : Boundary alloc buffer k pos) :
    2 * k ≤ pos ∧ pos ≤ buffer.length ∧ ∃ accepted : List Accepted, accepted.length = k ∧
      ∀ fuel, readLoop alloc buffer (fuel + k) [] 0 = readLoop alloc buffer fuel accepted pos := by
  induction boundary with
  | start => exact ⟨Nat.le_refl 0, Nat.zero_le _, [], rfl, fun _ => rfl⟩
  | @next k pos h boundary read whole granted ih =>
    obtain ⟨low, high, accepted, rfl, steps⟩ := ih
    have bounds := readHeader_bounds _ _ read
    refine ⟨by omega, whole, accepted ++ [accept pos h (buffer.drop pos)], by simp, fun fuel => ?_⟩
    rw [Nat.add_comm accepted.length, ← Nat.add_assoc, steps, readLoop_granted _ _ _ _ _ h room read granted,
      if_neg (by omega), if_neg (by simp; omega)]

theorem readLoop_wrapsAround (alloc : Allocator) (buffer : Bytes) (room : buffer.length < 2 ^ 64)
    (wraps : WrapsAround alloc buffer) :
    ∃ accepted a pos, readLoop alloc buffer (buffer.length + 1) [] 0 = (.outOfBounds, accepted ++ [a], pos) ∧
      2 ^ 64 ≤ a.header.offset + a.header.payloadLength := by
  obtain ⟨k, pos, h, boundary, read, wrapped, granted⟩ := wraps
  obtain ⟨low, high, accepted, rfl, steps⟩ := boundary.reached room
  refine ⟨accepted, accept pos h (buffer.drop pos), pos, ?_, wrapped⟩
  have fuel : buffer.length + 1 = buffer.length - accepted.length + 1 + accepted.length := by omega
  rw [fuel, steps, readLoop_granted _ _ _ _ _ h room read granted, if_pos wrapped]

theorem readLoop_inBounds (alloc : Allocator) (buffer : Bytes) (room : buffer.length < 2 ^ 64)
    (straight : ¬ WrapsAround alloc buffer) (fuel : Nat) (accepted : List Accepted) (pos : Nat)
    (boundary : Boundary alloc buffer accepted.length pos)
    (good : ∀ a ∈ accepted, a.start + a.header.offset + a.header.payloadLength ≤ buffer.length ∧
      a.header.payloadLength + 1 ≤ a.allocated) :
    (∀ a ∈ (readLoop alloc buffer fuel accepted pos).2.1,
      a.start + a.header.offset + a.header.payloadLength ≤ buffer.length ∧
        a.header.payloadLength + 1 ≤ a.allocated) ∧
      (readLoop alloc buffer fuel accepted pos).2.2 ≤ buffer.length := by
  induction fuel generalizing accepted pos with
  | zero => exact ⟨good, (boundary.reached room).2.1⟩
  | succ fuel ih =>
    have inside := (boundary.reached room).2.1
    by_cases granted : ∃ h, readHeader (buffer.drop pos) = some h ∧ alloc.grants accepted.length h
    · obtain ⟨h, read, granted⟩ := granted
      have noWrap : ¬ 2 ^ 64 ≤ h.offset + h.payloadLength :=
        fun wrapped => straight ⟨_, pos, h, boundary, read, wrapped, granted⟩
      have bounds := readHeader_bounds _ _ read
      rw [readLoop_granted _ _ _ _ _ h room read granted, if_neg noWrap]
      split
      · exact ⟨good, inside⟩
      · rename_i whole
        have fits : pos + h.offset + h.payloadLength ≤ buffer.length := by
          simp only [List.length_drop] at whole
          omega
        apply ih
        · rw [List.length_append, List.length_singleton]
          exact .next boundary read fits granted
        · intro a member
          rcases List.mem_append.mp member with old | new
          · exact good a old
          · obtain rfl := List.mem_singleton.mp new
            refine ⟨fits, ?_⟩
            simp only [accept]
            exact Nat.le_of_eq (Nat.mod_eq_of_lt (by omega)).symm
    · have ended := readLoop_ungranted alloc buffer fuel accepted pos fun h read both => granted ⟨h, read, both⟩
      rw [ended]
      exact ⟨good, inside⟩

/-- Decoding stays in bounds exactly when no frame it comes to makes the sum of its header and its
    declared payload wrap around. -/
theorem readFrames_inBounds_iff (alloc : Allocator) (buffer : { bytes : Bytes // bytes.length < 2 ^ 64 }) :
    (readFrames alloc buffer.1).InBounds buffer.1 ↔ ¬ WrapsAround alloc buffer.1 := by
  obtain ⟨buffer, room⟩ := buffer
  constructor
  · intro bounds wraps
    obtain ⟨accepted, a, pos, looped, wrapped⟩ := readLoop_wrapsAround alloc buffer room wraps
    have fits := bounds.fits a (by simp [readFrames, looped])
    dsimp only at fits
    omega
  · intro straight
    have scan := readLoop_inBounds alloc buffer room straight (buffer.length + 1) [] 0 .start (by simp)
    unfold readFrames
    generalize readLoop alloc buffer (buffer.length + 1) [] 0 = looped at scan
    obtain ⟨status, accepted, consumed⟩ := looped
    have fits := fun a member => (scan.1 a member).1
    have allocated := fun a member => (scan.1 a member).2
    dsimp only at fits allocated ⊢
    split
    · rename_i eq
      cases eq
      split
      · exact ⟨fits, allocated, Nat.zero_le _, rfl⟩
      · exact ⟨fits, allocated, scan.2, rfl⟩
    · rename_i eq
      cases eq
      exact ⟨fits, allocated, Nat.zero_le _, rfl⟩

/-- Ten bytes that declare a payload of `2^64 - 1`, with an allocator that gives out no more than a
    process can have; its `malloc(0)` succeeds. -/
theorem readFrames_not_inBounds :
    ∃ (alloc : Allocator) (buffer : { bytes : Bytes // bytes.length < 2 ^ 64 }),
      ¬ (readFrames alloc buffer.1).InBounds buffer.1 := by
  refine ⟨⟨fun _ => true, fun _ size => size < 2 ^ 63⟩,
    ⟨[0x82, 0x7F, 0xFF, 0xFF, 0xFF, 0xFF, 0xFF, 0xFF, 0xFF, 0xFF], by decide⟩, fun bounds => ?_⟩
  exact absurd bounds.fits (by decide)

/-! ## What a call uses up -/

def Frame.size (frame : Frame) : Nat :=
  2 + extLen frame.payload.length + (if frame.masked ≠ 0 then 4 else 0) + frame.payload.length

theorem extLen_le {n width : Nat} (eight : 8 ≤ width ∨ (2 ≤ width ∧ n ≤ 0xFFFF) ∨ n < 126) : extLen n ≤ width := by
  unfold extLen
  split
  · omega
  · split <;> omega

theorem readLength_size {buf : Bytes} {n offset : Nat} (read : readLength buf = some (n, offset)) :
    2 + extLen n ≤ offset := by
  have small : (buf.getD 1 0 &&& 0x7F).toNat ≤ 127 := by
    rw [UInt8.toNat_and]
    exact Nat.and_le_right
  unfold readLength at read
  dsimp only at read
  split at read
  · split at read
    · cases read
    · have value := BigEndian.decode_lt ((buf.drop 2).take 2)
      have bytes : ((buf.drop 2).take 2).length = 2 := by
        rw [List.length_take, List.length_drop]
        omega
      rw [bytes] at value
      cases read
      have two : extLen (BigEndian.decode ((buf.drop 2).take 2)) ≤ 2 :=
        extLen_le (Or.inr (Or.inl ⟨Nat.le_refl 2, Nat.le_of_lt_succ value⟩))
      omega
  · split at read
    · split at read
      · cases read
      · cases read
        have eight : extLen (BigEndian.decode ((buf.drop 2).take 8)) ≤ 8 := extLen_le (Or.inl (Nat.le_refl 8))
        omega
    · cases read
      have none : extLen (buf.getD 1 0 &&& 0x7F).toNat ≤ 0 := extLen_le (Or.inr (Or.inr (by omega)))
      omega

theorem readHeader_size {buf : Bytes} {h : FrameHeader} (read : readHeader buf = some h) :
    2 + extLen h.payloadLength + (if h.masked ≠ 0 then 4 else 0) ≤ h.offset := by
  unfold readHeader at read
  split at read
  · cases read
  · split at read
    · cases read
    · rename_i payloadLength offset found
      have length := readLength_size found
      dsimp only at read
      split at read
      · rename_i masked
        split at read
        · cases read
        · cases read
          show 2 + extLen payloadLength + (if _ then 4 else 0) ≤ offset + 4
          rw [if_pos masked]
          omega
      · rename_i plain
        cases read
        show 2 + extLen payloadLength + (if _ then 4 else 0) ≤ offset
        rw [if_neg plain]
        omega

theorem applyMask_length (mask : MaskingKey) (payload : Bytes) : (applyMask mask payload).length = payload.length :=
  List.length_mapIdx

theorem readPayload_length {buf : Bytes} {h : FrameHeader} (whole : h.offset + h.payloadLength ≤ buf.length) :
    (readPayload h buf).payload.length = h.payloadLength := by
  have bytes : ((buf.drop h.offset).take h.payloadLength).length = h.payloadLength := by
    rw [List.length_take, List.length_drop]
    omega
  unfold readPayload
  by_cases masked : h.masked ≠ 0
  · show (if _ then _ else _ : Bytes).length = _
    rw [if_pos masked, applyMask_length, bytes]
  · show (if _ then _ else _ : Bytes).length = _
    rw [if_neg masked, bytes]

theorem readPayload_size {buf : Bytes} {h : FrameHeader} (read : readHeader buf = some h)
    (whole : h.offset + h.payloadLength ≤ buf.length) : (readPayload h buf).size ≤ h.offset + h.payloadLength := by
  have header := readHeader_size read
  have payload := readPayload_length whole
  unfold Frame.size
  rw [payload]
  have masked : (readPayload h buf).masked = h.masked := rfl
  rw [masked]
  omega

def sizes (frames : List Frame) : Nat := (frames.map Frame.size).sum

theorem sizes_append (frames more : List Frame) : sizes (frames ++ more) = sizes frames + sizes more := by
  unfold sizes
  rw [List.map_append, List.sum_append]

theorem readLoop_size (alloc : Allocator) (buffer : Bytes) (fuel : Nat) (accepted : List Accepted) (pos : Nat)
    (inside : pos ≤ buffer.length) (success : (readLoop alloc buffer fuel accepted pos).1 = .success) :
    sizes ((readLoop alloc buffer fuel accepted pos).2.1.map (·.frame)) + pos ≤
        sizes (accepted.map (·.frame)) + (readLoop alloc buffer fuel accepted pos).2.2 ∧
      (readLoop alloc buffer fuel accepted pos).2.2 ≤ buffer.length := by
  induction fuel generalizing accepted pos with
  | zero => exact ⟨Nat.le_refl _, inside⟩
  | succ fuel ih =>
    have here : (readLoop alloc buffer (fuel + 1) accepted pos).2 = (accepted, pos) →
        sizes ((readLoop alloc buffer (fuel + 1) accepted pos).2.1.map (·.frame)) + pos ≤
            sizes (accepted.map (·.frame)) + (readLoop alloc buffer (fuel + 1) accepted pos).2.2 ∧
          (readLoop alloc buffer (fuel + 1) accepted pos).2.2 ≤ buffer.length := by
      intro ended
      rw [ended]
      exact ⟨Nat.le_refl _, inside⟩
    simp only [readLoop] at success here ⊢
    split at success
    · rename_i short
      rw [if_pos short] at here ⊢
      exact here rfl
    · rename_i long
      rw [if_neg long] at here ⊢
      split at success
      · cases success
      · rename_i node
        rw [if_neg node] at here ⊢
        cases read : readHeader (buffer.drop pos) with
        | none =>
          rw [read] at here
          exact here rfl
        | some h =>
          rw [read] at success here
          dsimp only at success here ⊢
          split at success
          · rename_i cut
            rw [if_pos cut] at here ⊢
            exact here rfl
          · rename_i whole
            rw [if_neg whole] at here ⊢
            split at success
            · cases success
            · rename_i payload
              rw [if_neg payload] at here ⊢
              split at success
              · cases success
              · rename_i bounds
                rw [if_neg bounds] at here ⊢
                have room : h.offset + h.payloadLength ≤ (buffer.drop pos).length := by omega
                have next : pos + h.offset + h.payloadLength ≤ buffer.length := by
                  rw [List.length_drop] at room
                  omega
                rcases ih _ _ next success with ⟨later, last⟩
                have one := readPayload_size read room
                rw [List.map_append, sizes_append] at later
                have single : sizes ([(⟨pos, h, (h.payloadLength + 1) % 2 ^ 64, readPayload h (buffer.drop pos)⟩ : Accepted)].map
                    (·.frame)) = (readPayload h (buffer.drop pos)).size := Nat.add_zero _
                rw [single] at later
                exact ⟨by omega, last⟩

theorem readFrames_size (alloc : Allocator) (buffer : Bytes) :
    sizes (readFrames alloc buffer).frames + (readFrames alloc buffer).buffer.length ≤ buffer.length := by
  have scan := readLoop_size alloc buffer (buffer.length + 1) [] 0 (Nat.zero_le _)
  unfold readFrames
  generalize readLoop alloc buffer (buffer.length + 1) [] 0 = looped at scan
  rcases looped with ⟨status, accepted, consumed⟩
  have nothing : sizes [] = 0 := rfl
  cases status with
  | success =>
    rcases scan rfl with ⟨less, inside⟩
    simp only [List.map_nil, nothing] at less inside
    by_cases none : consumed = 0
    · simp only [none, if_pos, ReadResult.frames, if_neg (show ReadStatus.incompleteFrame ≠ .success by decide), nothing]
      omega
    · simp only [if_neg none, ReadResult.frames, if_pos, List.length_drop]
      omega
  | incompleteFrame =>
    show sizes [] + buffer.length ≤ buffer.length
    omega
  | allocationFailed =>
    show sizes [] + buffer.length ≤ buffer.length
    omega
  | outOfBounds =>
    show sizes [] + buffer.length ≤ buffer.length
    omega

end BlueBird.WebSocket
