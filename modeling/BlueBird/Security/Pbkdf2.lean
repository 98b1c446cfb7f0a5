import BlueBird.Encoding.HmacSha256

namespace BlueBird.Security

/-- `index_be` -/
def indexBe (index : UInt32) : Bytes := [(index >>> 24).toUInt8, (index >>> 16).toUInt8, (index >>> 8).toUInt8, index.toUInt8]

/-- The inner loop of `_bb_pbkdf2_hmac_sha256`, with `u` and `t`. -/
def chainRounds (base : HmacCtx) : Nat → Bytes × Bytes → Bytes × Bytes
  | 0, ut => ut
  | n + 1, (u, t) =>
    let u := Hmac.final (Hmac.update base u)
    chainRounds base n (u, List.zipWith (· ^^^ ·) t u)

def pbkdf2Block (base : HmacCtx) (salt : Bytes) (iterations index : UInt32) : Bytes :=
  let u := Hmac.final (Hmac.update (Hmac.update base salt) (indexBe index))
  (chainRounds base (iterations.toNat - 1) (u, u)).2

/-- The outer loop, with `left` bytes to be produced; every turn produces one at least. -/
def pbkdf2Blocks (base : HmacCtx) (salt : Bytes) (iterations : UInt32) : Nat → UInt32 → Nat → Bytes
  | 0, _, _ => []
  | fuel + 1, index, left =>
    if left = 0 then []
    else
      let chunk := min left 32
      (pbkdf2Block base salt iterations index).take chunk ++ pbkdf2Blocks base salt iterations fuel (index + 1) (left - chunk)

/-- `_bb_pbkdf2_hmac_sha256`, with what it writes to `out`. -/
def pbkdf2HmacSha256 (password salt : Bytes) (iterations : UInt32) (outLen : Nat) : Bytes :=
  if outLen = 0 then []
  else
    let iterations := if iterations = 0 then 1 else iterations
    pbkdf2Blocks (Hmac.init password) salt iterations outLen 1 outLen

theorem indexBe_eq (index : UInt32) : indexBe index = BigEndian.encode index.toNat 4 := by
  have byte : ∀ shift : UInt32, ∀ count, shift.toNat % 32 = 8 * count →
      (index >>> shift).toUInt8 = UInt8.ofNat ((index.toNat >>> (8 * count)) &&& 0xff) := by
    intro shift count same
    apply UInt8.toNat_inj.mp
    rw [BigEndian.encode_head, UInt32.toNat_toUInt8, UInt32.toNat_shiftRight, same, Nat.shiftRight_eq_div_pow]
  have last : index.toUInt8 = UInt8.ofNat ((index.toNat >>> (8 * 0)) &&& 0xff) := by
    apply UInt8.toNat_inj.mp
    rw [BigEndian.encode_head, UInt32.toNat_toUInt8, Nat.mul_zero, Nat.pow_zero, Nat.div_one]
  unfold indexBe
  rw [byte 24 3 rfl, byte 16 2 rfl, byte 8 1 rfl, last]
  rfl

theorem final_update_init (key text : Bytes) :
    Hmac.final (Hmac.update (Hmac.init key) text) = KeyedHash.hmac SecureHash.digest 64 key text := hmacSha256_eq_hmac key text

theorem length_digest (message : Bytes) : (SecureHash.digest message).length = 32 := by
  unfold SecureHash.digest
  generalize List.foldl SecureHash.compress _ _ = registers
  simp [SecureHash.Registers.toList]

def prf (key text : Bytes) : Bytes := KeyedHash.hmac SecureHash.digest 64 key text

theorem length_prf (key text : Bytes) : (prf key text).length = 32 := length_digest _

variable {password salt : Bytes}

open KeyedHash (chained folded derivedBlock)

theorem chainRounds_eq (n : Nat) (index done : Nat) :
    chainRounds (Hmac.init password) n (chained prf password salt index done, folded prf password salt index done) =
      (chained prf password salt index (done + n), folded prf password salt index (done + n)) := by
  induction n generalizing done with
  | zero => rfl
  | succ n ih =>
    have next : Hmac.final (Hmac.update (Hmac.init password) (chained prf password salt index done)) =
        chained prf password salt index (done + 1) := final_update_init _ _
    rw [chainRounds, next]
    have later := ih (done + 1)
    rw [Nat.add_right_comm] at later
    exact later

theorem pbkdf2Block_eq (iterations index : UInt32) : pbkdf2Block (Hmac.init password) salt iterations index =
    derivedBlock prf password salt iterations.toNat index.toNat := by
  have first : Hmac.final (Hmac.update (Hmac.update (Hmac.init password) salt) (indexBe index)) =
      chained prf password salt index.toNat 0 := by
    rw [Hmac.update_update, indexBe_eq]
    exact final_update_init _ _
  unfold pbkdf2Block
  dsimp only
  rw [first]
  have rounds := @chainRounds_eq password salt (iterations.toNat - 1) index.toNat 0
  rw [Nat.zero_add] at rounds
  exact congrArg Prod.snd rounds

theorem pbkdf2Blocks_eq (iterations : UInt32) {fuel left first : Nat} {index : UInt32} (enough : left ≤ fuel)
    (here : 0 < left → index.toNat = first) (few : first + (left + 31) / 32 ≤ 2 ^ 32) :
    pbkdf2Blocks (Hmac.init password) salt iterations fuel index left =
      ((List.range ((left + 31) / 32)).flatMap fun i =>
        derivedBlock prf password salt iterations.toNat (first + i)).take left := by
  induction fuel generalizing left first index with
  | zero =>
    rw [Nat.le_zero.mp enough, List.take_zero, pbkdf2Blocks]
  | succ fuel ih =>
    rw [pbkdf2Blocks]
    by_cases none_ : left = 0
    · rw [if_pos none_, none_, List.take_zero]
    · rw [if_neg none_, pbkdf2Block_eq, here (Nat.pos_of_ne_zero none_)]
      have whole : (derivedBlock prf password salt iterations.toNat first).length = 32 :=
        KeyedHash.length_derivedBlock length_prf _ _
      by_cases last : left ≤ 32
      · have one : (left + 31) / 32 = 1 := by omega
        dsimp only
        rw [Nat.min_eq_left last, Nat.sub_self, one, List.range_one, List.flatMap_singleton, Nat.add_zero]
        cases fuel <;> simp [pbkdf2Blocks]
      · have more : (left + 31) / 32 = (left - 32 + 31) / 32 + 1 := by omega
        have inside : first + 1 + (left - 32 + 31) / 32 ≤ 2 ^ 32 := by omega
        have next : 0 < left - 32 → (index + 1).toNat = first + 1 := by
          intro _
          have small : first + 1 < 2 ^ 32 := by omega
          rw [UInt32.toNat_add, here (Nat.pos_of_ne_zero none_)]
          exact Nat.mod_eq_of_lt small
        dsimp only
        rw [Nat.min_eq_right (by omega), List.take_of_length_le (Nat.le_of_eq whole), ih (by omega) next inside, more,
          List.range_succ_eq_map, List.flatMap_cons, List.flatMap_map, List.take_append]
        show _ = (derivedBlock prf password salt iterations.toNat first).take left ++
          List.take (left - (derivedBlock prf password salt iterations.toNat first).length) _
        have all : (derivedBlock prf password salt iterations.toNat first).take left =
            derivedBlock prf password salt iterations.toNat first := List.take_of_length_le (by omega)
        rw [whole, all]
        congr 3
        funext i
        show derivedBlock _ _ _ _ (first + 1 + i) = derivedBlock _ _ _ _ (first + (i + 1))
        congr 1
        omega

variable (password salt : Bytes) {iterations : UInt32} {outLen : Nat}

theorem pbkdf2HmacSha256_derive (counted : 1 ≤ iterations.toNat) (long : outLen ≤ (2 ^ 32 - 1) * 32) :
    pbkdf2HmacSha256 password salt iterations outLen = KeyedHash.derive prf password salt 32 iterations.toNat outLen := by
  have kept : (if iterations = 0 then 1 else iterations) = iterations := by
    rw [if_neg]
    rintro rfl
    exact absurd counted (by decide)
  unfold pbkdf2HmacSha256 KeyedHash.derive
  by_cases empty : outLen = 0
  · rw [if_pos empty, empty, List.take_zero]
  · rw [if_neg empty]
    dsimp only
    rw [kept, @pbkdf2Blocks_eq password salt iterations outLen outLen 1 1 (Nat.le_refl _) (fun _ => rfl) (by omega),
      Nat.add_sub_assoc (by decide)]
    congr 2
    funext i
    rw [Nat.add_comm]

theorem length_pbkdf2HmacSha256 (counted : 1 ≤ iterations.toNat) (long : outLen ≤ (2 ^ 32 - 1) * 32) :
    (pbkdf2HmacSha256 password salt iterations outLen).length = outLen := by
  have blocks : (((List.range ((outLen + 32 - 1) / 32)).flatMap fun i =>
      derivedBlock prf password salt iterations.toNat (i + 1))).length = (outLen + 32 - 1) / 32 * 32 := by
    rw [List.length_flatMap]
    simp [KeyedHash.length_derivedBlock length_prf]
  rw [pbkdf2HmacSha256_derive password salt counted long]
  unfold KeyedHash.derive
  rw [List.length_take, blocks]
  omega

/-- The code writes the derived key of the standard. -/
theorem pbkdf2_eq_derive (password salt : Bytes) {iterations : UInt32} {outLen : Nat} (counted : 1 ≤ iterations.toNat)
    (long : outLen ≤ (2 ^ 32 - 1) * 32) :
    pbkdf2HmacSha256 password salt iterations outLen =
        KeyedHash.derive prf password salt 32 iterations.toNat outLen ∧
      (pbkdf2HmacSha256 password salt iterations outLen).length = outLen :=
  ⟨pbkdf2HmacSha256_derive password salt counted long, length_pbkdf2HmacSha256 password salt counted long⟩

theorem pbkdf2_eq_derive_blocks : pbkdf2HmacSha256 (ascii "password") (ascii "salt") 4096 40 =
      KeyedHash.derive prf (ascii "password") (ascii "salt") 32 4096 40 ∧
    (pbkdf2HmacSha256 (ascii "password") (ascii "salt") 4096 40).length = 40 :=
  @pbkdf2_eq_derive (ascii "password") (ascii "salt") 4096 40 (by decide) (by decide)

end BlueBird.Security
