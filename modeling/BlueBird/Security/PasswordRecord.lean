import BlueBird.Encoding.NumberText
import BlueBird.Memory.CString
import BlueBird.Memory.Writes
import BlueBird.Security.Config
import BlueBird.Security.Pbkdf2
import BlueBird.Security.SessionStore
import Mathlib.Data.UInt

/-! Password records: how one is written, and how one is read and checked. -/

namespace BlueBird.Security

open Http (decimal)

def passwordSaltSize : Nat := 16
def passwordHashSize : Nat := 32
def maxSaltBytes : Nat := 128

def recordPrefix : Bytes := ascii "$pbkdf2-sha256$i="

/-! ## password_backend.c -/

/-- `hex_encode` -/
def hexEncode (data : Bytes) : Bytes := data.flatMap fun b : Byte => [hexDigit ((b >>> 4) &&& 0x0F), hexDigit (b &&& 0x0F)]

/-- `hex_nibble` -/
def hexNibble (c : Byte) : Option Byte :=
  if ch '0' ≤ c ∧ c ≤ ch '9' then some (c - ch '0')
  else if ch 'a' ≤ c ∧ c ≤ ch 'f' then some (c - ch 'a' + 10)
  else if ch 'A' ≤ c ∧ c ≤ ch 'F' then some (c - ch 'A' + 10)
  else none

/-- The loop of `hex_decode`, with the bytes that are left to write and the room for them. `none` is an access out
    of bounds, `some none` what is not hexadecimal. -/
def hexDecodeLoop : Nat → Nat → Bytes → Option (Option Bytes)
  | 0, _, _ => some (some [])
  | _ + 1, _, [] => none
  | count + 1, room, high :: hex =>
    match hexNibble high with
    | none => some none
    | some hi =>
      match hex with
      | [] => none
      | low :: hex =>
        match hexNibble low with
        | none => some none
        | some lo =>
          match room with
          | 0 => none
          | room + 1 => (hexDecodeLoop count room hex).map (Option.map ((hi <<< 4 ||| lo) :: ·))

/-- `hex_decode` into a buffer of `room` bytes. -/
def hexDecode (hex : Bytes) (hexLen room : Nat) : Option (Option Bytes) :=
  if hexLen % 2 ≠ 0 then some none else hexDecodeLoop (hexLen / 2) room hex

/-- `constant_time_equal` -/
def constantTimeEqual (a b : Bytes) : Bool := (List.zipWith (· ^^^ ·) a b).foldl (· ||| ·) 0 == 0

/-- `_bb_password_backend_encoded_len` -/
def encodedLen (saltSize : Nat) (iterations : UInt32) : Nat :=
  recordPrefix.length + (decimal iterations.toNat).length + 1 + saltSize * 2 + 1 + passwordHashSize * 2 + 1

inductive HashError where
  | tooLong | random | failed
  deriving DecidableEq, Repr

/-- `_bb_password_backend_hash`, with what it writes to `output`. -/
def backendHash (password salt : Bytes) (iterations : UInt32) (outputSize : Nat) :
    Except HashError Unit × List (Memory.Write Byte) :=
  if outputSize < encodedLen salt.length iterations then (.error .failed, [])
  else
    let hash := pbkdf2HmacSha256 password salt iterations passwordHashSize
    let header := recordPrefix ++ decimal iterations.toNat ++ ascii "$"
    let saltAt := header.length
    let separatorAt := saltAt + salt.length * 2
    let endAt := separatorAt + 1 + passwordHashSize * 2
    -- snprintf cuts what does not fit
    (.ok (), [⟨0, header.take (outputSize - 1) ++ [0]⟩, ⟨saltAt, hexEncode salt⟩, ⟨separatorAt, ascii "$"⟩,
      ⟨separatorAt + 1, hexEncode hash⟩, ⟨endAt, [0]⟩])

/-- The part of `_bb_password_backend_verify` behind the iteration count; `none` is an access out of bounds. -/
def verifyFrom (password : Bytes) (iterations : UInt32) (saltHex : Bytes) : Option Bool := do
  let sep ← Memory.distanceTo (ch '$') saltHex
  match sep with
  | none => return false
  | some saltHexLen =>
    if saltHexLen = 0 ∨ saltHexLen % 2 ≠ 0 ∨ saltHexLen / 2 > maxSaltBytes then return false
    let hashHex := saltHex.drop (saltHexLen + 1)
    let hashHexLen ← Memory.lengthAt hashHex
    if hashHexLen ≠ passwordHashSize * 2 then return false
    let decodedSalt ← hexDecode saltHex saltHexLen maxSaltBytes
    match decodedSalt with
    | none => return false
    | some salt =>
      let decodedHash ← hexDecode hashHex hashHexLen passwordHashSize
      match decodedHash with
      | none => return false
      | some storedHash =>
        let computedHash := pbkdf2HmacSha256 password salt iterations passwordHashSize
        return constantTimeEqual computedHash storedHash

/-- `_bb_password_backend_verify` of a string in memory. -/
def backendVerify (password encoded : Bytes) : Option Bool := do
  if ¬ (← Memory.beginsWith recordPrefix encoded) then return false
  let p := encoded.drop recordPrefix.length
  let text ← Memory.stringAt p
  let (iterations, behind) := NumberText.strtoul text
  let used := text.length - behind.length
  if used = 0 then return false
  let atEnd ← (p.drop used).head?
  if atEnd ≠ ch '$' ∨ iterations = 0 ∨ iterations > 0xFFFFFFFF then return false
  verifyFrom password (UInt32.ofNat iterations) (p.drop (used + 1))

/-! ## password.c -/

def recordTag : Bytes := ascii "bb$pbkdf2-sha256$"

def tagPrefix : Bytes := ascii "bb"

/-- What fills the array `salt`. -/
structure Salt where
  bytes : Bytes
  sized : bytes.length = passwordSaltSize

/-- `bb_password_hash`, with what it writes to `out`; `random` is what the random source gives, if it does. -/
def passwordHash (config : ConfigRecord) (password : Bytes) (random : Option Salt) (outSize : Nat) :
    Except HashError Unit × List (Memory.Write Byte) :=
  if password.length > config.passwordMaxLength.toNat then (.error .tooLong, [])
  else
    match random with
    | none => (.error .random, [])
    | some salt =>
      let needed := tagPrefix.length + encodedLen passwordSaltSize config.passwordPbkdf2Iterations
      if outSize < needed then (.error .failed, [])
      else
        let (result, writes) :=
          backendHash password salt.bytes config.passwordPbkdf2Iterations (outSize - tagPrefix.length)
        (result, ⟨0, tagPrefix⟩ :: writes.map (Memory.Write.move tagPrefix.length))

/-- `bb_password_verify` of a string in memory. -/
def passwordVerify (config : ConfigRecord) (password stored : Bytes) : Option Bool := do
  if password.length > config.passwordMaxLength.toNat then return false
  if ¬ (← Memory.beginsWith recordTag stored) then return false
  backendVerify password (stored.drop tagPrefix.length)

/-! ## Hexadecimal -/

def decodeHex : Bytes → Option Bytes
  | [] => some []
  | [_] => none
  | high :: low :: rest =>
    match hexNibble high with
    | none => none
    | some hi =>
      match hexNibble low with
      | none => none
      | some lo => (decodeHex rest).map ((hi <<< 4 ||| lo) :: ·)

theorem hexDecodeLoop_text {count room : Nat} {text : Bytes} (behind : Bytes) (even : text.length = 2 * count)
    (fits : count ≤ room) : hexDecodeLoop count room (text ++ behind) = some (decodeHex text) := by
  induction count generalizing room text with
  | zero =>
    rw [List.length_eq_zero_iff.mp even]
    rfl
  | succ count ih =>
    rcases room with _ | room
    · omega
    · rcases text with _ | ⟨high, _ | ⟨low, text⟩⟩
      · simp at even
      · simp at even
        omega
      · have rest := @ih room text (by simpa [Nat.mul_add] using even) (by omega)
        rw [List.cons_append, List.cons_append, hexDecodeLoop, decodeHex]
        cases hexNibble high with
        | none => rfl
        | some hi =>
          cases low_ : hexNibble low with
          | none => simp only [low_]
          | some lo =>
            simp only [low_]
            rw [rest]
            rfl

theorem hexDecode_text {room : Nat} {text : Bytes} (behind : Bytes) (even : text.length % 2 = 0)
    (fits : text.length / 2 ≤ room) : hexDecode (text ++ behind) text.length room = some (decodeHex text) := by
  unfold hexDecode
  rw [if_neg (by omega)]
  exact hexDecodeLoop_text behind (by omega) fits

theorem decodeHex_cons {high low : Byte} {text bytes : Bytes} (decoded : decodeHex (high :: low :: text) = some bytes) :
    ∃ hi lo rest, hexNibble high = some hi ∧ hexNibble low = some lo ∧ decodeHex text = some rest ∧
      bytes = (hi <<< 4 ||| lo) :: rest := by
  rw [decodeHex] at decoded
  cases first : hexNibble high with
  | none => simp [first] at decoded
  | some hi =>
    cases second : hexNibble low with
    | none => simp [first, second] at decoded
    | some lo =>
      simp only [first, second, Option.map_eq_some_iff] at decoded
      rcases decoded with ⟨rest, later, same⟩
      exact ⟨hi, lo, rest, rfl, rfl, later, same.symm⟩

theorem decodeHex_length {text bytes : Bytes} (decoded : decodeHex text = some bytes) : text.length = 2 * bytes.length := by
  induction bytes generalizing text with
  | nil =>
    rcases text with _ | ⟨high, _ | ⟨low, text⟩⟩
    · rfl
    · cases decoded
    · rcases decodeHex_cons decoded with ⟨_, _, _, _, _, _, same⟩
      cases same
  | cons b bytes ih =>
    rcases text with _ | ⟨high, _ | ⟨low, text⟩⟩
    · cases decoded
    · cases decoded
    · rcases decodeHex_cons decoded with ⟨hi, lo, rest, _, _, later, same⟩
      cases same
      have length := ih later
      simp only [List.length_cons]
      omega

def hexDigits : Bytes := ascii "0123456789abcdefABCDEF"

theorem hexNibble_mem (c : Byte) : (hexNibble c).isSome = true → c ∈ hexDigits := by
  revert c
  apply forall_byte
  decide +kernel

theorem decodeHex_digits {text bytes : Bytes} (decoded : decodeHex text = some bytes) : ∀ c ∈ text, c ∈ hexDigits := by
  induction bytes generalizing text with
  | nil =>
    have empty := decodeHex_length decoded
    rw [List.length_eq_zero_iff.mp empty]
    simp
  | cons b bytes ih =>
    rcases text with _ | ⟨high, _ | ⟨low, text⟩⟩
    · cases decoded
    · cases decoded
    · rcases decodeHex_cons decoded with ⟨hi, lo, rest, first, second, later, same⟩
      cases same
      rw [List.forall_mem_cons, List.forall_mem_cons]
      exact ⟨hexNibble_mem high (by rw [first]; rfl), hexNibble_mem low (by rw [second]; rfl), ih later⟩

def joined (hi lo : Option Byte) : Option Byte := hi.bind fun hi => lo.map fun lo => hi <<< 4 ||| lo

theorem joined_hexDigit (b : Byte) :
    joined (hexNibble (hexDigit ((b >>> 4) &&& 0x0F))) (hexNibble (hexDigit (b &&& 0x0F))) = some b := by
  revert b
  apply forall_byte
  decide +kernel

theorem decodeHex_hexEncode (bytes : Bytes) : decodeHex (hexEncode bytes) = some bytes := by
  induction bytes with
  | nil => rfl
  | cons b bytes ih =>
    have both := joined_hexDigit b
    rcases Option.bind_eq_some_iff.mp both with ⟨hi, high, rest⟩
    rcases Option.map_eq_some_iff.mp rest with ⟨lo, low, same⟩
    show decodeHex (hexDigit ((b >>> 4) &&& 0x0F) :: hexDigit (b &&& 0x0F) :: hexEncode bytes) = _
    rw [decodeHex, high]
    simp only [low]
    rw [ih, ← same]
    rfl

theorem constantTimeEqual_iff {a b : Bytes} (same : a.length = b.length) : constantTimeEqual a b = true ↔ a = b := by
  have zero : ∀ (xs : Bytes) (z : Byte), xs.foldl (· ||| ·) z = 0 ↔ z = 0 ∧ ∀ x ∈ xs, x = 0 := by
    intro xs
    induction xs with
    | nil => simp
    | cons x xs ih =>
      intro z
      rw [List.foldl_cons, ih, UInt8.or_eq_zero_iff, List.forall_mem_cons, and_assoc]
  unfold constantTimeEqual
  rw [beq_iff_eq, zero]
  induction a generalizing b with
  | nil =>
    rw [List.length_eq_zero_iff.mp same.symm]
    simp
  | cons x a ih =>
    rcases b with _ | ⟨y, b⟩
    · cases same
    · have rest := ih (Nat.succ.inj same)
      simp only [true_and] at rest ⊢
      rw [List.zipWith_cons_cons, List.forall_mem_cons, UInt8.xor_eq_zero_iff, List.cons.injEq]
      exact and_congr_right fun _ => rest

/-! ## What is read in a record -/

def fieldsMatch (password : Bytes) (iterations : UInt32) (saltHex hashHex : Bytes) : Prop :=
  ∃ salt hash, decodeHex saltHex = some salt ∧ decodeHex hashHex = some hash ∧ 1 ≤ salt.length ∧
    salt.length ≤ maxSaltBytes ∧ hash.length = passwordHashSize ∧
    pbkdf2HmacSha256 password salt iterations passwordHashSize = hash

theorem verifyFrom_fields (password : Bytes) {iterations : UInt32} (counted : 1 ≤ iterations.toNat) {saltHex hashHex : Bytes}
    (first : ch '$' ∉ saltHex) (cleanSalt : 0 ∉ saltHex) (cleanHash : 0 ∉ hashHex) (behind : Bytes) :
    ∃ answer, verifyFrom password iterations (saltHex ++ ch '$' :: (hashHex ++ 0 :: behind)) = some answer ∧
      (answer = true ↔ fieldsMatch password iterations saltHex hashHex) := by
  have clean : 0 ∉ saltHex ++ ch '$' :: hashHex := by
    intro inside
    rcases List.mem_append.mp inside with salt | rest
    · exact cleanSalt salt
    · rcases List.mem_cons.mp rest with separator | hash
      · exact absurd separator (by decide)
      · exact cleanHash hash
  have found := Memory.distanceTo_append clean first behind
  have rest : (saltHex ++ ch '$' :: (hashHex ++ 0 :: behind)).drop (saltHex.length + 1) = hashHex ++ 0 :: behind := by
    simp
  have length : Memory.lengthAt (hashHex ++ 0 :: behind) = some hashHex.length := by
    rw [Memory.lengthAt, Memory.stringAt_append cleanHash]
    rfl
  unfold verifyFrom
  simp only [found, Option.bind_eq_bind, Option.bind_some, rest, length]
  by_cases badSalt : saltHex.length = 0 ∨ saltHex.length % 2 ≠ 0 ∨ saltHex.length / 2 > maxSaltBytes
  · rw [if_pos badSalt]
    refine ⟨false, rfl, iff_of_false Bool.false_ne_true ?_⟩
    intro ⟨salt, hash, decoded, _, least, most, _⟩
    have length := decodeHex_length decoded
    omega
  · rw [if_neg badSalt]
    by_cases badHash : hashHex.length ≠ passwordHashSize * 2
    · rw [if_pos badHash]
      refine ⟨false, rfl, iff_of_false Bool.false_ne_true ?_⟩
      intro ⟨salt, hash, _, decoded, _, _, sized, _⟩
      have length := decodeHex_length decoded
      omega
    · have evenHash : hashHex.length = passwordHashSize * 2 := Classical.not_not.mp badHash
      rw [if_neg badHash, hexDecode_text _ (by omega) (by omega), Option.bind_some]
      cases decodedSalt : decodeHex saltHex with
      | none =>
        refine ⟨false, rfl, iff_of_false Bool.false_ne_true ?_⟩
        intro ⟨salt, hash, decoded, _⟩
        rw [decodedSalt] at decoded
        cases decoded
      | some salt =>
        dsimp only
        rw [hexDecode_text _ (by omega) (by omega), Option.bind_some]
        cases decodedHash : decodeHex hashHex with
        | none =>
          refine ⟨false, rfl, iff_of_false Bool.false_ne_true ?_⟩
          intro ⟨salt, hash, _, decoded, _⟩
          rw [decodedHash] at decoded
          cases decoded
        | some hash =>
          have saltLength := decodeHex_length decodedSalt
          have hashLength := decodeHex_length decodedHash
          have sized : hash.length = passwordHashSize := by omega
          have computed := @length_pbkdf2HmacSha256 password salt iterations passwordHashSize counted (by decide)
          refine ⟨_, rfl, ?_⟩
          rw [constantTimeEqual_iff (computed.trans sized.symm)]
          constructor
          · intro same
            exact ⟨salt, hash, decodedSalt, decodedHash, by omega, by omega, sized, same⟩
          · intro ⟨salt', hash', one, two, _, _, _, same⟩
            rw [decodedSalt] at one
            rw [decodedHash] at two
            cases one
            cases two
            exact same

/-- A record: the parts of it that stand between its marks, and the number that the count is read as. -/
structure Record (stored count saltHex hashHex : Bytes) (iterations : Nat) : Prop where
  split : stored = tagPrefix ++ (recordPrefix ++ (count ++ ch '$' :: (saltHex ++ ch '$' :: hashHex)))
  counted : count ≠ []
  number : NumberText.strtoul count = (iterations, [])
  positive : 1 ≤ iterations
  bounded : iterations < 2^32

def RecordOf (password stored count saltHex hashHex : Bytes) (iterations : Nat) : Prop :=
  Record stored count saltHex hashHex iterations ∧ fieldsMatch password (UInt32.ofNat iterations) saltHex hashHex

theorem hexDigits_plain : ch '$' ∉ hexDigits ∧ (0 : Byte) ∉ hexDigits := by decide

theorem fieldsMatch.plain {password saltHex hashHex : Bytes} {iterations : UInt32}
    (fields : fieldsMatch password iterations saltHex hashHex) : ch '$' ∉ saltHex := by
  rcases fields with ⟨salt, _, decoded, _⟩
  exact fun inside => hexDigits_plain.1 (decodeHex_digits decoded _ inside)

theorem Record.reads {rest count saltHex hashHex : Bytes} {iterations : Nat}
    (record : Record (tagPrefix ++ (recordPrefix ++ rest)) count saltHex hashHex iterations) :
    NumberText.strtoul rest = (iterations, ch '$' :: (saltHex ++ ch '$' :: hashHex)) := by
  have split := List.append_cancel_left (List.append_cancel_left record.split)
  rw [split]
  exact NumberText.strtoul_append record.counted record.number (by decide) _

theorem verifyFrom_text (password : Bytes) {iterations : UInt32} (counted : 1 ≤ iterations.toNat) {text : Bytes}
    (clean : 0 ∉ text) (behind : Bytes) :
    ∃ answer, verifyFrom password iterations (text ++ 0 :: behind) = some answer ∧
      (answer = true ↔ ∃ saltHex hashHex, text = saltHex ++ ch '$' :: hashHex ∧
        fieldsMatch password iterations saltHex hashHex) := by
  by_cases separated : ch '$' ∈ text
  · rcases List.eq_append_cons_of_mem separated with ⟨saltHex, hashHex, cut, first⟩
    have cleanSalt : 0 ∉ saltHex := fun inside => clean (by rw [cut]; exact List.mem_append_left _ inside)
    have cleanHash : 0 ∉ hashHex := by
      intro inside
      apply clean
      rw [cut]
      exact List.mem_append_right _ (List.mem_cons_of_mem _ inside)
    rcases verifyFrom_fields password counted first cleanSalt cleanHash behind with ⟨answer, run, fields⟩
    refine ⟨answer, ?_, fields.trans ?_⟩
    · rw [cut, List.append_assoc, List.cons_append]
      exact run
    · constructor
      · intro matches_
        exact ⟨saltHex, hashHex, cut, matches_⟩
      · intro ⟨salt, hash, parts, matches_⟩
        rw [cut] at parts
        rcases Memory.first_unique first matches_.plain parts with ⟨rfl, rfl⟩
        exact matches_
  · refine ⟨false, ?_, iff_of_false Bool.false_ne_true ?_⟩
    · unfold verifyFrom
      rw [Memory.distanceTo_absent clean separated]
      rfl
    · intro ⟨_, _, parts, _⟩
      rw [parts] at separated
      exact separated (by simp)

theorem recordOf_iff (password rest : Bytes) :
    (∃ count saltHex hashHex iterations,
        RecordOf password (tagPrefix ++ (recordPrefix ++ rest)) count saltHex hashHex iterations) ↔
      (NumberText.strtoul rest).2 ≠ rest ∧ 1 ≤ (NumberText.strtoul rest).1 ∧ (NumberText.strtoul rest).1 < 2^32 ∧
        ∃ saltHex hashHex, (NumberText.strtoul rest).2 = ch '$' :: (saltHex ++ ch '$' :: hashHex) ∧
          fieldsMatch password (UInt32.ofNat (NumberText.strtoul rest).1) saltHex hashHex := by
  constructor
  · intro ⟨count, saltHex, hashHex, iterations, record, matches_⟩
    rw [record.reads]
    refine ⟨?_, record.positive, record.bounded, saltHex, hashHex, rfl, matches_⟩
    intro same
    rw [List.append_cancel_left (List.append_cancel_left record.split)] at same
    exact record.counted (List.self_eq_append_left.mp same)
  · intro ⟨moved, positive, bounded, saltHex, hashHex, after, matches_⟩
    rcases NumberText.strtoul_split moved with ⟨count, split, counted, number⟩
    refine ⟨count, saltHex, hashHex, _, ⟨?_, counted, number, positive, bounded⟩, matches_⟩
    rw [← after, ← split]

theorem backendVerify_text (password : Bytes) {encoded : Bytes} (clean : 0 ∉ encoded) (behind : Bytes) :
    ∃ answer, backendVerify password (encoded ++ 0 :: behind) = some answer ∧
      (answer = true ↔ ∃ count saltHex hashHex iterations,
        RecordOf password (tagPrefix ++ encoded) count saltHex hashHex iterations) := by
  unfold backendVerify
  rw [Memory.beginsWith_append (by decide)]
  simp only [Option.bind_eq_bind, Option.bind_some, decide_eq_true_eq]
  by_cases headed : recordPrefix <+: encoded
  · rcases headed with ⟨rest, rfl⟩
    have cleanRest : 0 ∉ rest := fun inside => clean (List.mem_append_right _ inside)
    have pointer : (recordPrefix ++ rest ++ 0 :: behind).drop recordPrefix.length = rest ++ 0 :: behind := by simp
    rw [if_neg (by simp), pointer, Memory.stringAt_append cleanRest, recordOf_iff]
    simp only [Option.bind_some]
    by_cases moved : (NumberText.strtoul rest).2 = rest
    · rw [if_pos (by rw [moved, Nat.sub_self])]
      exact ⟨false, rfl, iff_of_false Bool.false_ne_true fun record => record.1 moved⟩
    · rcases NumberText.strtoul_split moved with ⟨count, split, counted, _⟩
      rcases whole : NumberText.strtoul rest with ⟨iterations, after⟩
      rw [whole] at split moved
      dsimp only at split moved ⊢
      have used : rest.length - after.length = count.length := by
        rw [split, List.length_append]
        omega
      have some_ := List.length_pos_iff.mpr counted
      have atEnd : (rest ++ 0 :: behind).drop count.length = after ++ 0 :: behind := by
        rw [split, List.append_assoc, List.drop_left]
      rw [used, if_neg (by omega), atEnd]
      cases after with
      | nil =>
        rw [List.nil_append, List.head?_cons, Option.bind_some, if_pos (.inl (by decide))]
        refine ⟨false, rfl, iff_of_false Bool.false_ne_true ?_⟩
        rintro ⟨_, _, _, _, _, after, _⟩
        cases after
      | cons c tail =>
        rw [List.cons_append, List.head?_cons, Option.bind_some]
        by_cases bad : c ≠ ch '$' ∨ iterations = 0 ∨ iterations > 0xFFFFFFFF
        · rw [if_pos bad]
          refine ⟨false, rfl, iff_of_false Bool.false_ne_true ?_⟩
          rintro ⟨_, positive, bounded, _, _, same, _⟩
          rcases bad with other | zero | large
          · exact other (List.cons.inj same).1
          · omega
          · omega
        · rw [if_neg bad]
          have good : c = ch '$' ∧ 1 ≤ iterations ∧ iterations < 2^32 := by
            refine ⟨Classical.byContradiction fun other => bad (.inl other), ?_, ?_⟩ <;> omega
          have counted32 : 1 ≤ (UInt32.ofNat iterations).toNat := by
            rw [UInt32.toNat_ofNat_of_lt' good.2.2]
            exact good.2.1
          have next : (rest ++ 0 :: behind).drop (count.length + 1) = tail ++ 0 :: behind := by
            rw [← List.drop_drop, atEnd]
            rfl
          have cleanTail : 0 ∉ tail := by
            intro inside
            apply cleanRest
            rw [split]
            exact List.mem_append_right _ (List.mem_cons_of_mem _ inside)
          rw [next]
          rcases verifyFrom_text password counted32 cleanTail behind with ⟨answer, run, fields⟩
          refine ⟨answer, run, fields.trans ?_⟩
          constructor
          · rintro ⟨saltHex, hashHex, cut, matches_⟩
            exact ⟨moved, good.2.1, good.2.2, saltHex, hashHex, by rw [good.1, cut], matches_⟩
          · rintro ⟨_, _, _, saltHex, hashHex, same, matches_⟩
            exact ⟨saltHex, hashHex, (List.cons.inj same).2, matches_⟩
  · rw [if_pos (by simpa using headed)]
    refine ⟨false, rfl, iff_of_false Bool.false_ne_true ?_⟩
    intro ⟨count, saltHex, hashHex, iterations, ⟨record, _⟩⟩
    have split := List.append_cancel_left record.split
    exact headed ⟨_, split.symm⟩

theorem passwordVerify_text (config : ConfigRecord) (password : Bytes) {stored : Bytes} (clean : 0 ∉ stored) (behind : Bytes) :
    ∃ answer, passwordVerify config password (stored ++ 0 :: behind) = some answer ∧
      (answer = true ↔ password.length ≤ config.passwordMaxLength.toNat ∧
        ∃ count saltHex hashHex iterations, RecordOf password stored count saltHex hashHex iterations) := by
  unfold passwordVerify
  by_cases long : password.length > config.passwordMaxLength.toNat
  · rw [if_pos long]
    exact ⟨false, rfl, iff_of_false Bool.false_ne_true fun ⟨fits, _⟩ => absurd fits (Nat.not_le.mpr long)⟩
  · rw [if_neg long, Memory.beginsWith_append (by decide)]
    simp only [Option.bind_eq_bind, Option.bind_some, decide_eq_true_eq]
    by_cases tagged : recordTag <+: stored
    · rcases tagged with ⟨rest, rfl⟩
      have split : recordTag ++ rest = tagPrefix ++ (ascii "$pbkdf2-sha256$" ++ rest) := rfl
      rw [if_neg (by simp)]
      rw [split] at clean ⊢
      rcases backendVerify_text password (fun inside => clean (List.mem_append_right _ inside)) behind with
        ⟨answer, run, records⟩
      refine ⟨answer, ?_, ?_⟩
      · rw [List.append_assoc, List.drop_left]
        exact run
      · rw [records]
        exact (and_iff_right (Nat.le_of_not_lt long)).symm
    · rw [if_pos (by simpa using tagged)]
      refine ⟨false, rfl, iff_of_false Bool.false_ne_true ?_⟩
      intro ⟨_, count, saltHex, hashHex, iterations, ⟨record, _⟩⟩
      apply tagged
      rw [record.split]
      exact ⟨ascii "i=" ++ (count ++ ch '$' :: (saltHex ++ ch '$' :: hashHex)), by simp [tagPrefix, recordPrefix, recordTag, ascii]⟩

/-! ## What a record should look like -/

def WellFormed (stored : Bytes) : Prop :=
  ∃ digits saltHex hashHex,
    stored = ascii "bb$pbkdf2-sha256$i=" ++ (digits ++ ch '$' :: (saltHex ++ ch '$' :: hashHex)) ∧
    digits ≠ [] ∧ (∀ c ∈ digits, isDigit c = true) ∧ 1 ≤ NumberText.number digits ∧ NumberText.number digits ≤ 2^32 - 1 ∧
    (∃ bytes, 1 ≤ bytes ∧ bytes ≤ 128 ∧ saltHex.length = 2 * bytes) ∧ (∀ c ∈ saltHex, c ∈ hexDigits) ∧
    hashHex.length = 64 ∧ ∀ c ∈ hashHex, c ∈ hexDigits

/-- The check stays inside the string and the buffers, and only a well-formed record passes it. -/
def Strict (config : ConfigRecord) (password stored : Bytes) : Prop :=
  ∃ answer, passwordVerify config password (stored ++ [0]) = some answer ∧ (answer = true → WellFormed stored)

/-- The string is a record of the password, but white space or a sign stands before the digits of its count. -/
def Loose (config : ConfigRecord) (password stored : Bytes) : Prop :=
  password.length ≤ config.passwordMaxLength.toNat ∧ ∃ count saltHex hashHex iterations,
    RecordOf password stored count saltHex hashHex iterations ∧ ∃ c ∈ count.head?, isDigit c = false

theorem wellFormed_iff {password stored count saltHex hashHex : Bytes} {iterations : Nat}
    (record : RecordOf password stored count saltHex hashHex iterations) :
    WellFormed stored ↔ ∀ c ∈ count.head?, isDigit c = true := by
  rcases record with ⟨record, salt, hash, decodedSalt, decodedHash, least, most, sized, _⟩
  have headed : ∀ rest, ascii "bb$pbkdf2-sha256$i=" ++ rest = tagPrefix ++ (recordPrefix ++ rest) := fun _ => rfl
  have saltLength := decodeHex_length decodedSalt
  have hashLength := decodeHex_length decodedHash
  rw [sized] at hashLength
  constructor
  · intro ⟨digits, _, _, split, some_, numeric, _⟩ c first
    rw [record.split, headed] at split
    have parts := List.append_cancel_left (List.append_cancel_left split)
    rcases List.exists_cons_of_ne_nil some_ with ⟨d, more, rfl⟩
    rcases List.exists_cons_of_ne_nil record.counted with ⟨e, others, rfl⟩
    cases first
    rw [(List.cons.inj parts).1]
    exact numeric d (List.mem_cons_self ..)
  · intro plain
    have bounded := record.bounded
    rcases NumberText.strtoul_plain record.counted record.number plain (by omega) with ⟨numeric, value⟩
    refine ⟨count, saltHex, hashHex, record.split, record.counted, numeric, ?_, ?_, ⟨salt.length, least, most, saltLength⟩,
      decodeHex_digits decodedSalt, hashLength, decodeHex_digits decodedHash⟩
    · rw [value]
      exact record.positive
    · omega

theorem strict_iff (config : ConfigRecord) (password : Bytes) {stored : Bytes} (clean : 0 ∉ stored) :
    Strict config password stored ↔ ¬ Loose config password stored := by
  rcases passwordVerify_text config password clean [] with ⟨answer, run, records⟩
  constructor
  · intro ⟨other, again, strict⟩ ⟨fits, count, saltHex, hashHex, iterations, record, c, first, plain⟩
    rw [run] at again
    cases again
    have formed := strict (records.mpr ⟨fits, count, saltHex, hashHex, iterations, record⟩)
    have digit := (wellFormed_iff record).mp formed c first
    rw [plain] at digit
    cases digit
  · intro tight
    refine ⟨answer, run, ?_⟩
    intro passed
    rcases records.mp passed with ⟨fits, count, saltHex, hashHex, iterations, record⟩
    apply (wellFormed_iff record).mpr
    intro c first
    cases digit : isDigit c with
    | true => rfl
    | false => exact absurd ⟨fits, count, saltHex, hashHex, iterations, record, c, first, digit⟩ tight

def blankRecord : Bytes :=
  ascii "bb$pbkdf2-sha256$i= 1$00$" ++ hexEncode (pbkdf2HmacSha256 [] [0] 1 passwordHashSize)

theorem hexEncode_clean (bytes : Bytes) : 0 ∉ hexEncode bytes :=
  fun inside => hexDigits_plain.2 (decodeHex_digits (decodeHex_hexEncode bytes) 0 inside)

theorem not_loose {config : ConfigRecord} {password more : Bytes} {d : Byte} (digit : isDigit d = true) :
    ¬ Loose config password (tagPrefix ++ (recordPrefix ++ d :: more)) := by
  intro ⟨_, count, _, _, _, ⟨record, _⟩, c, first, plain⟩
  have parts := List.append_cancel_left (List.append_cancel_left record.split)
  rcases List.exists_cons_of_ne_nil record.counted with ⟨e, others, rfl⟩
  cases first
  rw [← (List.cons.inj parts).1, digit] at plain
  cases plain

theorem strict_digits : Strict configDefault (ascii "secret") (ascii "bb$pbkdf2-sha256$i=600000$00$00") :=
  (strict_iff configDefault (ascii "secret") (by decide +kernel)).mpr
    (@not_loose _ _ (ascii "00000$00$00") (ch '6') (by decide))

theorem not_strict_blank : 0 ∉ blankRecord ∧ ¬ Strict configDefault [] blankRecord := by
  have clean : 0 ∉ blankRecord := by
    intro inside
    rcases List.mem_append.mp inside with front | hash
    · exact absurd front (by decide +kernel)
    · exact hexEncode_clean _ hash
  have record : RecordOf [] blankRecord (ascii " 1") (ascii "00") (hexEncode (pbkdf2HmacSha256 [] [0] 1 passwordHashSize)) 1 :=
    ⟨⟨rfl, by decide, by decide, by decide, by decide⟩, [0], _, rfl, decodeHex_hexEncode _, by decide, by decide,
      length_pbkdf2HmacSha256 [] [0] (by decide) (by decide), rfl⟩
  refine ⟨clean, ?_⟩
  intro ⟨answer, run, strict⟩
  rcases passwordVerify_text configDefault [] clean [] with ⟨other, again, records⟩
  rw [again] at run
  cases run
  have formed := strict (records.mpr ⟨by decide, _, _, _, _, record⟩)
  exact absurd ((wellFormed_iff record).mp formed (ch ' ') rfl) (by decide)

end BlueBird.Security
