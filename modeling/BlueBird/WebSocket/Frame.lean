import BlueBird.Bytes
import BlueBird.Stream.BigEndian

namespace BlueBird.WebSocket

inductive Mode where
  | server | client
  deriving DecidableEq, Repr

abbrev MaskingKey := Fin 4 → Byte

/-- `bb_ws_frame_t` without the list link; `payload_length` is the length of `payload`. -/
structure Frame where
  fin : Byte
  opcode : Byte
  masked : Byte
  maskingKey : MaskingKey
  payload : Bytes

/-! ## Encoding -/

/-- `out[i] = payload[i] ^ mask[i & 3]`, in the encoder and in the decoder. -/
def applyMask (mask : MaskingKey) (payload : Bytes) : Bytes :=
  payload.mapIdx fun i byte => byte ^^^ mask (Fin.ofNat 4 i)

def extLen (payloadLength : Nat) : Nat :=
  if payloadLength > 0xFFFF then 8 else if payloadLength ≥ 126 then 2 else 0

/-- The size that `bb_websocket_queue_frame` allocates. -/
def queueFrameSize (mode : Mode) (payloadLength : Nat) : Nat :=
  (2 + extLen payloadLength + (if mode = .client then 4 else 0) + payloadLength) % 2 ^ 64

def lengthBytes (maskBit : Byte) (payloadLength : Nat) : Bytes :=
  if payloadLength < 126 then [maskBit ||| UInt8.ofNat payloadLength]
  else if payloadLength ≤ 0xFFFF then (maskBit ||| 126) :: BigEndian.encode payloadLength 2
  else (maskBit ||| 127) :: BigEndian.encode payloadLength 8

/-- The bytes that `bb_websocket_queue_frame` hands to the connection; `mask` is what the random
    source gave it. -/
def encodeFrame (mode : Mode) (mask : MaskingKey) (opcode : Byte) (payload : Bytes) : Bytes :=
  let first := 0x80 ||| (opcode &&& 0x0F)
  match mode with
  | .client => first :: (lengthBytes 0x80 payload.length ++ List.ofFn mask ++ applyMask mask payload)
  | .server => first :: (lengthBytes 0x00 payload.length ++ payload)

/-! ## Decoding -/

structure FrameHeader where
  fin : Byte
  opcode : Byte
  masked : Byte
  maskingKey : MaskingKey
  payloadLength : Nat
  offset : Nat

/-- The declared payload length and the offset behind it, if the buffer reaches that far. -/
def readLength (buf : Bytes) : Option (Nat × Nat) :=
  let payloadLen := (buf.getD 1 0 &&& 0x7F).toNat
  if payloadLen = 126 then
    if buf.length < 4 then none else some (BigEndian.decode ((buf.drop 2).take 2), 4)
  else if payloadLen = 127 then
    if buf.length < 10 then none else some (BigEndian.decode ((buf.drop 2).take 8), 10)
  else some (payloadLen, 2)

/-- The part of `bb_websocket_read_frames` before the length check, for one frame. -/
def readHeader (buf : Bytes) : Option FrameHeader :=
  if buf.length < 2 then none
  else
    match readLength buf with
    | none => none
    | some (payloadLength, offset) =>
      let fin := (buf.getD 0 0 >>> 7) &&& 1
      let opcode := buf.getD 0 0 &&& 0x0F
      let masked := (buf.getD 1 0 >>> 7) &&& 1
      if masked ≠ 0 then
        if buf.length < offset + 4 then none
        else
          some { fin, opcode, masked, payloadLength, offset := offset + 4,
                 maskingKey := fun i => buf.getD (offset + i) 0 }
      else some { fin, opcode, masked, payloadLength, offset, maskingKey := fun _ => 0 }

def readPayload (h : FrameHeader) (buf : Bytes) : Frame :=
  let payload := (buf.drop h.offset).take h.payloadLength
  { fin := h.fin, opcode := h.opcode, masked := h.masked, maskingKey := h.maskingKey,
    payload := if h.masked ≠ 0 then applyMask h.maskingKey payload else payload }

/-- Which allocations of one call succeed: the list node of the `k`-th frame, and its payload. -/
structure Allocator where
  node : Nat → Bool
  payload : Nat → Nat → Bool

/-- A frame that passed the length check, with the position of its first byte and the size of the
    allocation made for it. -/
structure Accepted where
  start : Nat
  header : FrameHeader
  allocated : Nat
  frame : Frame

inductive ReadStatus where
  | success
  | incompleteFrame
  | allocationFailed
  /-- `memcpy` has run over the end of the buffer or of the payload. -/
  | outOfBounds
  deriving DecidableEq, Repr

def readLoop (alloc : Allocator) (buffer : Bytes) :
    Nat → List Accepted → Nat → ReadStatus × List Accepted × Nat
  | 0, accepted, consumed => (.success, accepted, consumed)
  | fuel + 1, accepted, consumed =>
    let buf := buffer.drop consumed
    if buf.length < 2 then (.success, accepted, consumed)
    else if accepted ≠ [] ∧ ¬ alloc.node accepted.length then (.allocationFailed, accepted, consumed)
    else
      match readHeader buf with
      | none => (.success, accepted, consumed)
      | some h =>
        let allocated := (h.payloadLength + 1) % 2 ^ 64
        -- a sum of `size_t` values
        if buf.length < (h.offset + h.payloadLength) % 2 ^ 64 then (.success, accepted, consumed)
        else if ¬ alloc.payload accepted.length allocated then (.allocationFailed, accepted, consumed)
        else
          let all := accepted ++ [{ start := consumed, header := h, allocated, frame := readPayload h buf }]
          if buf.length < h.offset + h.payloadLength ∨ allocated < h.payloadLength + 1 then
            (.outOfBounds, all, consumed)
          else readLoop alloc buffer fuel all (consumed + h.offset + h.payloadLength)

structure ReadResult where
  status : ReadStatus
  accepted : List Accepted
  consumed : Nat
  buffer : Bytes

/-- The frames the caller gets; a failed call has destroyed its list. -/
def ReadResult.frames (r : ReadResult) : List Frame :=
  if r.status = .success then r.accepted.map (·.frame) else []

/-- Every frame takes two bytes at least, so the loop ends within the fuel. -/
def readFrames (alloc : Allocator) (buffer : Bytes) : ReadResult :=
  match readLoop alloc buffer (buffer.length + 1) [] 0 with
  | (.success, accepted, consumed) =>
    if consumed = 0 then { status := .incompleteFrame, accepted, consumed := 0, buffer }
    else { status := .success, accepted, consumed, buffer := buffer.drop consumed }
  | (status, accepted, _) => { status, accepted, consumed := 0, buffer }

end BlueBird.WebSocket
