import Mathlib.Data.List.GetD
import BlueBird.Encoding.SecureHash
import BlueBird.Encoding.Sha1

namespace BlueBird

namespace Sha256

open SecureHash (Registers)

/-! ## The hash of the source -/

/-- `_bb_sha256_k` -/
def k : List UInt32 :=
  [0x428a2f98, 0x71374491, 0xb5c0fbcf, 0xe9b5dba5, 0x3956c25b, 0x59f111f1, 0x923f82a4, 0xab1c5ed5,
    0xd807aa98, 0x12835b01, 0x243185be, 0x550c7dc3, 0x72be5d74, 0x80deb1fe, 0x9bdc06a7, 0xc19bf174,
    0xe49b69c1, 0xefbe4786, 0x0fc19dc6, 0x240ca1cc, 0x2de92c6f, 0x4a7484aa, 0x5cb0a9dc, 0x76f988da,
    0x983e5152, 0xa831c66d, 0xb00327c8, 0xbf597fc7, 0xc6e00bf3, 0xd5a79147, 0x06ca6351, 0x14292967,
    0x27b70a85, 0x2e1b2138, 0x4d2c6dfc, 0x53380d13, 0x650a7354, 0x766a0abb, 0x81c2c92e, 0x92722c85,
    0xa2bfe8a1, 0xa81a664b, 0xc24b8b70, 0xc76c51a3, 0xd192e819, 0xd6990624, 0xf40e3585, 0x106aa070,
    0x19a4c116, 0x1e376c08, 0x2748774c, 0x34b0bcb5, 0x391c0cb3, 0x4ed8aa4a, 0x5b9cca4f, 0x682e6ff3,
    0x748f82ee, 0x78a5636f, 0x84c87814, 0x8cc70208, 0x90befffa, 0xa4506ceb, 0xbef9a3f7, 0xc67178f2]

def rotr (value bits : UInt32) : UInt32 := (value >>> bits) ||| (value <<< (32 - bits))

/-- `w`, with its last word first. -/
def schedule (block : Bytes) : Nat → List UInt32
  | 0 => (Sha1.words 16 block).reverse
  | n + 1 =>
    let w := schedule block n
    let s0 := rotr (w.getD 14 0) 7 ^^^ rotr (w.getD 14 0) 18 ^^^ (w.getD 14 0 >>> 3)
    let s1 := rotr (w.getD 1 0) 17 ^^^ rotr (w.getD 1 0) 19 ^^^ (w.getD 1 0 >>> 10)
    (w.getD 15 0 + s0 + w.getD 6 0 + s1) :: w

def round (r : Registers) (wk : UInt32 × UInt32) : Registers :=
  let s1 := rotr r.e 6 ^^^ rotr r.e 11 ^^^ rotr r.e 25
  let ch := (r.e &&& r.f) ^^^ (~~~r.e &&& r.g)
  let temp1 := r.h + s1 + ch + wk.2 + wk.1
  let s0 := rotr r.a 2 ^^^ rotr r.a 13 ^^^ rotr r.a 22
  let maj := (r.a &&& r.b) ^^^ (r.a &&& r.c) ^^^ (r.b &&& r.c)
  let temp2 := s0 + maj
  ⟨temp1 + temp2, r.a, r.b, r.c, r.d + temp1, r.e, r.f, r.g⟩

/-- `_bb_sha256_compress` -/
def compress (state : Registers) (block : Bytes) : Registers :=
  state.add (((schedule block 48).reverse.zip k).foldl round state)

def topUp (state : Registers) (buffer data : Bytes) : (Registers × Bytes) × Bytes :=
  if 0 < buffer.length then
    let take := min data.length (64 - buffer.length)
    let buffer' := buffer ++ data.take take
    if buffer'.length = 64 then ((compress state buffer', []), data.drop take) else ((state, buffer'), data.drop take)
  else ((state, buffer), data)

def compressBlocks (state : Registers) (buffer data : Bytes) : Registers × Bytes :=
  let rest := Blockwise.run compress 64 (data.length / 64) state data
  (rest.1, if 0 < rest.2.length then rest.2 else buffer)

def absorb (state : Registers) (buffer data : Bytes) : Registers × Bytes :=
  let topped := topUp state buffer data
  compressBlocks topped.1.1 topped.1.2 topped.2

theorem absorb_eq (state : Registers) {buffer : Bytes} (data : Bytes) (room : buffer.length < 64) :
    absorb state buffer data = Blockwise.absorb compress 64 (state, buffer) data := by
  have empty : ∀ (s : Registers) (bytes : Bytes),
      compressBlocks s [] bytes = Blockwise.absorb compress 64 (s, []) bytes := by
    intro s bytes
    have stash : ∀ rest : Bytes, (if 0 < rest.length then rest else []) = rest := by
      intro rest
      cases rest <;> simp
    unfold compressBlocks Blockwise.absorb
    rw [List.nil_append]
    exact Prod.ext rfl (stash _)
  unfold absorb topUp
  by_cases partial_ : 0 < buffer.length
  · rw [if_pos partial_]
    by_cases full : 64 ≤ (buffer ++ data).length
    · rw [List.length_append] at full
      have take : min data.length (64 - buffer.length) = 64 - buffer.length := by omega
      have filled : (buffer ++ data.take (64 - buffer.length)).length = 64 := by
        rw [List.length_append, List.length_take]
        omega
      rw [Blockwise.absorb_of_le (by decide) (Nat.le_of_lt room) (by rw [List.length_append]; exact full), take,
        if_pos filled]
      exact empty _ _
    · rw [List.length_append] at full
      have take : min data.length (64 - buffer.length) = data.length := by omega
      have short : (buffer ++ data).length < 64 := by
        rw [List.length_append]
        omega
      have unfilled : (buffer ++ data.take data.length).length ≠ 64 := by
        rw [List.take_length]
        omega
      rw [Blockwise.absorb_of_lt short, take, if_neg unfilled, List.take_length, List.drop_length]
      simp [compressBlocks, Blockwise.run]
  · have nothing : buffer = [] := List.length_eq_zero_iff.mp (by omega)
    rw [if_neg partial_, nothing]
    exact empty _ _

/-- `bb_sha256_ctx`, with the `buffer_len` bytes in `buffer`. -/
@[ext] structure Ctx where
  state : Registers
  bitLength : UInt64
  buffer : Bytes
  room : buffer.length < 64

def init : Ctx where
  state := ⟨0x6a09e667, 0xbb67ae85, 0x3c6ef372, 0xa54ff53a, 0x510e527f, 0x9b05688c, 0x1f83d9ab, 0x5be0cd19⟩
  bitLength := 0
  buffer := []
  room := by decide

def update (ctx : Ctx) (data : Bytes) : Ctx where
  state := (absorb ctx.state ctx.buffer data).1
  bitLength := ctx.bitLength + UInt64.ofNat data.length * 8
  buffer := (absorb ctx.state ctx.buffer data).2
  room := by
    rw [absorb_eq _ _ ctx.room, Blockwise.length_absorb]
    exact Nat.mod_lt _ (by decide)

/-- The loop of `bb_sha256_final`; a block of 64 has room for all its zeros. -/
def padZeros : Nat → Ctx → Ctx
  | 0, ctx => ctx
  | n + 1, ctx => if ctx.buffer.length = 56 then ctx else padZeros n (update ctx [0])

def final (ctx : Ctx) : Bytes :=
  let padded := padZeros 64 (update ctx [0x80])
  let state := compress padded.state (padded.buffer ++ BigEndian.encode ctx.bitLength.toNat 8)
  state.toList.flatMap fun w => BigEndian.encode w.toNat 4

end Sha256

/-- `bb_sha256` -/
def sha256 (data : Bytes) : Bytes := Sha256.final (Sha256.update Sha256.init data)

namespace Sha256

open SecureHash (Registers)

/-! ## Its compression is the standard's -/

theorem k_eq : k = SecureHash.roundConstants := by decide +kernel

theorem init_eq : init.state = SecureHash.initial := by decide +kernel

theorem words_eq (n : Nat) (block : Bytes) : Sha1.words n block = (List.range n).map (SecureHash.word block) := by
  induction n generalizing block with
  | zero => rfl
  | succ n ih =>
    rw [List.range_succ_eq_map, List.map_cons, List.map_map, Sha1.words, ih]
    congr 1
    apply List.map_congr_left
    intro t _
    show SecureHash.word (block.drop 4) t = SecureHash.word block (t + 1)
    unfold SecureHash.word
    rw [List.drop_drop, Nat.mul_add, Nat.mul_one, Nat.add_comm]

theorem getD_reverse_range (f : Nat → UInt32) {m j : Nat} (inside : j < m) :
    ((List.range m).map f).reverse.getD j 0 = f (m - 1 - j) := by
  rw [List.getD_eq_getElem _ _ (by simpa using inside), List.getElem_reverse, List.getElem_map, List.getElem_range,
    List.length_map, List.length_range]

theorem schedule_eq (block : Bytes) (n : Nat) :
    schedule block n = ((List.range (16 + n)).map (SecureHash.schedule block)).reverse := by
  induction n with
  | zero =>
    rw [schedule, words_eq]
    congr 1
    apply List.map_congr_left
    intro t inside
    rw [SecureHash.schedule, if_pos (List.mem_range.mp inside)]
  | succ n ih =>
    have unfolded := SecureHash.schedule.eq_1 block (16 + n)
    rw [if_neg (show ¬ 16 + n < 16 by omega)] at unfolded
    rw [schedule, ih, getD_reverse_range _ (show 14 < 16 + n by omega), getD_reverse_range _ (show 1 < 16 + n by omega),
      getD_reverse_range _ (show 15 < 16 + n by omega), getD_reverse_range _ (show 6 < 16 + n by omega), ← Nat.add_assoc,
      List.range_succ, List.map_append, List.reverse_append]
    show _ :: _ = SecureHash.schedule block (16 + n) :: _
    rw [unfolded]
    congr 1
    show _ + SecureHash.smallSigma0 _ + _ + SecureHash.smallSigma1 _ = _
    simp only [show 16 + n - 1 - 14 = 16 + n - 15 by omega, show 16 + n - 1 - 1 = 16 + n - 2 by omega,
      show 16 + n - 1 - 15 = 16 + n - 16 by omega, show 16 + n - 1 - 6 = 16 + n - 7 by omega]
    ac_rfl

theorem foldl_rounds (block : Bytes) (r : Registers) (n : Nat) :
    ((List.range n).map fun t => (SecureHash.schedule block t, SecureHash.roundConstants.getD t 0)).foldl round r =
      SecureHash.rounds block n r := by
  induction n with
  | zero => rfl
  | succ n ih =>
    rw [List.range_succ, List.map_append, List.foldl_append, ih]
    rfl

theorem compress_eq : compress = SecureHash.compress := by
  funext state block
  have constants : k = (List.range 64).map (SecureHash.roundConstants.getD · 0) := by decide +kernel
  unfold compress SecureHash.compress
  rw [schedule_eq, List.reverse_reverse, constants, List.zip_map', foldl_rounds]

/-! ## Its updates absorb the message -/

theorem update_nil (ctx : Ctx) : update ctx [] = ctx := by
  have same : absorb ctx.state ctx.buffer [] = (ctx.state, ctx.buffer) := by
    rw [absorb_eq _ _ ctx.room]
    exact Blockwise.absorb_nil ctx.room
  apply Ctx.ext
  · exact congrArg Prod.fst same
  · simp [update]
  · exact congrArg Prod.snd same

theorem update_update (ctx : Ctx) (data later : Bytes) : update (update ctx data) later = update ctx (data ++ later) := by
  have same : absorb (update ctx data).state (update ctx data).buffer later = absorb ctx.state ctx.buffer (data ++ later) := by
    rw [absorb_eq _ _ (update ctx data).room, absorb_eq _ _ ctx.room, ← Blockwise.absorb_absorb (by decide),
      ← absorb_eq _ data ctx.room]
    rfl
  apply Ctx.ext
  · exact congrArg Prod.fst same
  · simp [update, UInt64.ofNat_add, UInt64.add_mul, UInt64.add_assoc]
  · exact congrArg Prod.snd same

theorem foldl_update (ctx : Ctx) (pieces : List Bytes) : pieces.foldl update ctx = update ctx pieces.flatten := by
  induction pieces generalizing ctx with
  | nil => exact (update_nil ctx).symm
  | cons piece pieces ih => rw [List.foldl_cons, ih, update_update, List.flatten_cons]

theorem absorbed (ctx : Ctx) (data : Bytes) :
    ((update ctx data).state, (update ctx data).buffer) = Blockwise.absorb compress 64 (ctx.state, ctx.buffer) data :=
  absorb_eq _ _ ctx.room

theorem length_update (ctx : Ctx) (data : Bytes) :
    (update ctx data).buffer.length = (ctx.buffer.length + data.length) % 64 := by
  have buffer := congrArg Prod.snd (absorbed ctx data)
  rw [show (update ctx data).buffer = _ from buffer, Blockwise.length_absorb]

/-! ## Its padding is the standard's -/

/-- The zeros that follow `length` bytes of a block, up to the 8 bytes of the length. -/
def zeros (length : Nat) : Nat := (120 - length) % 64

theorem padZeros_eq {n : Nat} {ctx : Ctx} (enough : zeros ctx.buffer.length ≤ n) :
    padZeros n ctx = update ctx (List.replicate (zeros ctx.buffer.length) 0) := by
  have room := ctx.room
  induction n generalizing ctx with
  | zero => rw [Nat.le_zero.mp enough, List.replicate_zero, update_nil, padZeros]
  | succ n ih =>
    rw [padZeros]
    by_cases done : ctx.buffer.length = 56
    · rw [if_pos done, done]
      exact (update_nil ctx).symm
    · have later : (update ctx [0]).buffer.length = (ctx.buffer.length + 1) % 64 := length_update ctx [0]
      have fewer : zeros ctx.buffer.length = zeros (update ctx [0]).buffer.length + 1 := by
        rw [later]
        unfold zeros
        omega
      rw [if_neg done, ih (by omega) (update ctx [0]).room, update_update, fewer, List.replicate_succ]
      rfl

theorem absorb_length {ctx : Ctx} {bits : Bytes} (kept : ctx.buffer.length = 56) (eight : bits.length = 8) :
    Blockwise.absorb compress 64 (ctx.state, ctx.buffer) bits = (compress ctx.state (ctx.buffer ++ bits), []) := by
  have full : 64 ≤ (ctx.buffer ++ bits).length := by
    rw [List.length_append, kept, eight]
  have short : ctx.buffer.length ≤ 64 := by omega
  have step := @Blockwise.absorb_of_le _ _ compress 64 (by decide) (ctx.state, ctx.buffer) bits short full
  have room : 64 - (ctx.state, ctx.buffer).2.length = bits.length := by
    rw [kept, eight]
  rw [step, room, List.take_length, List.drop_length]
  exact Blockwise.absorb_nil (Nat.zero_lt_succ 63)

theorem final_update (data : Bytes) : final (update init data) = SecureHash.digest data := by
  have started : update (update init data) [0x80] = update init (data ++ [0x80]) := update_update _ _ _
  have marked : (update init (data ++ [0x80])).buffer.length = (data.length + 1) % 64 := by
    rw [length_update, List.length_append]
    exact congrArg (· % 64) (Nat.zero_add _)
  have count : zeros ((data.length + 1) % 64) = (119 - data.length % 64) % 64 := by
    unfold zeros
    omega
  have padded : padZeros 64 (update (update init data) [0x80]) =
      update init (data ++ 0x80 :: List.replicate ((119 - data.length % 64) % 64) 0) := by
    rw [started, padZeros_eq (by unfold zeros; omega), marked, count, update_update, List.append_assoc]
    rfl
  have bits : BigEndian.encode (update init data).bitLength.toNat 8 = BigEndian.encode (8 * data.length) 8 := by
    have wrapped : (update init data).bitLength.toNat = 8 * data.length % 2 ^ 64 := by
      show (0 + UInt64.ofNat data.length * 8).toNat = _
      rw [UInt64.zero_add, UInt64.toNat_mul, UInt64.toNat_ofNat', Nat.mul_comm 8]
      exact Nat.mod_mul_mod _ _ _
    rw [wrapped]
    exact BigEndian.encode_mod _ (Nat.le_refl _)
  have kept : (update init (data ++ 0x80 :: List.replicate ((119 - data.length % 64) % 64) 0)).buffer.length = 56 := by
    rw [length_update, List.length_append, List.length_cons, List.length_replicate]
    show (0 + _) % 64 = 56
    omega
  have last : Blockwise.absorb compress 64 (init.state, init.buffer) (SecureHash.padded data) = (compress
      (update init (data ++ 0x80 :: List.replicate ((119 - data.length % 64) % 64) 0)).state
      ((update init (data ++ 0x80 :: List.replicate ((119 - data.length % 64) % 64) 0)).buffer ++
        BigEndian.encode (8 * data.length) 8), []) := by
    rw [SecureHash.padded, ← Blockwise.absorb_absorb (by decide), ← absorbed init,
      absorb_length kept (BigEndian.length_encode _ _)]
  have state := (Prod.mk.inj (last.symm.trans (Blockwise.absorb_blocks (SecureHash.length_padded data)))).1
  simp only [final, SecureHash.digest]
  rw [padded, bits, state, init_eq, compress_eq]

end Sha256

theorem sha256_eq_digest (data : Bytes) : sha256 data = SecureHash.digest data := Sha256.final_update data

end BlueBird
