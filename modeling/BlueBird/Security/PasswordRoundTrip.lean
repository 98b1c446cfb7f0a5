import BlueBird.Security.PasswordRecord

namespace BlueBird.Security

open Http (decimal)

/-- A configuration that `bb_security_config_set` installs. -/
structure ValidConfig extends ConfigRecord where
  valid : configValidate toConfigRecord = .ok ()

def recordText (config : ConfigRecord) (password salt : Bytes) : Bytes :=
  tagPrefix ++ (recordPrefix ++ (decimal config.passwordPbkdf2Iterations.toNat ++ ch '$' :: (hexEncode salt ++ ch '$' ::
    hexEncode (pbkdf2HmacSha256 password salt config.passwordPbkdf2Iterations passwordHashSize))))

/-- What `bb_password_hash` asks of the buffer. -/
def recordSize (config : ConfigRecord) : Nat := tagPrefix.length + encodedLen passwordSaltSize config.passwordPbkdf2Iterations

section

variable (config : ValidConfig) (p : Bytes) (salt : Salt) (out : Bytes)

/-- The memory at `out` after a call. -/
def hashed : Bytes := Memory.performAll out (passwordHash config.toConfigRecord p (some salt) out.length).2

/-- A record is written whole or not at all; it stands for its password, under this configuration and every other. -/
structure RoundTrips : Prop where
  succeeds : (passwordHash config.toConfigRecord p (some salt) out.length).1 = .ok () ↔
    recordSize config.toConfigRecord ≤ out.length
  sized : (recordText config.toConfigRecord p salt.bytes).length + 1 = recordSize config.toConfigRecord
  within : Memory.Within (recordSize config.toConfigRecord) (passwordHash config.toConfigRecord p (some salt) out.length).2
  writes : recordSize config.toConfigRecord ≤ out.length →
    hashed config p salt out =
      recordText config.toConfigRecord p salt.bytes ++ 0 :: out.drop (recordSize config.toConfigRecord)
  refuses : ¬ recordSize config.toConfigRecord ≤ out.length → hashed config p salt out = out
  verifies : recordSize config.toConfigRecord ≤ out.length → ∀ later : ValidConfig,
    p.length ≤ later.passwordMaxLength.toNat →
      passwordVerify later.toConfigRecord p (hashed config p salt out) = some true
  binds : recordSize config.toConfigRecord ≤ out.length → ∀ (later : ValidConfig) (q : Bytes),
    q.length ≤ later.passwordMaxLength.toNat →
      passwordVerify later.toConfigRecord q (hashed config p salt out) = some true →
        pbkdf2HmacSha256 q salt.bytes config.passwordPbkdf2Iterations passwordHashSize =
          pbkdf2HmacSha256 p salt.bytes config.passwordPbkdf2Iterations passwordHashSize

end

theorem hexEncode_length (bytes : Bytes) : (hexEncode bytes).length = bytes.length * 2 := by
  rw [decodeHex_length (decodeHex_hexEncode bytes), Nat.mul_comm]

theorem ValidConfig.counted (config : ValidConfig) : 1 ≤ config.passwordPbkdf2Iterations.toNat := by
  have range := (configValidate_ok.mp config.valid .iterations).1
  have low : Setting.low .iterations = 100000 := rfl
  have read : Setting.read config.toConfigRecord .iterations = config.passwordPbkdf2Iterations.toNat := rfl
  omega

theorem recordText_length (config : ValidConfig) (p : Bytes) (salt : Salt) :
    (recordText config.toConfigRecord p salt.bytes).length + 1 = recordSize config.toConfigRecord := by
  have hash := @length_pbkdf2HmacSha256 p salt.bytes config.passwordPbkdf2Iterations passwordHashSize config.counted (by decide)
  have sized := salt.sized
  unfold recordText recordSize encodedLen
  simp only [List.length_append, List.length_cons, hexEncode_length, hash, sized]
  omega

theorem decimal_plain (n : Nat) {c : Byte} (other : isDigit c = false) : c ∉ decimal n := by
  intro inside
  rw [Http.decimal_isDigit n c inside] at other
  cases other

theorem recordText_clean (config : ConfigRecord) (p salt : Bytes) : 0 ∉ recordText config p salt := by
  unfold recordText
  simp only [List.mem_append, List.mem_cons, not_or]
  exact ⟨by decide, by decide, decimal_plain _ (by decide), by decide, hexEncode_clean _, by decide, hexEncode_clean _⟩

theorem recordText_record (config : ValidConfig) (p : Bytes) (salt : Salt) :
    RecordOf p (recordText config.toConfigRecord p salt.bytes) (decimal config.passwordPbkdf2Iterations.toNat)
      (hexEncode salt.bytes)
      (hexEncode (pbkdf2HmacSha256 p salt.bytes config.passwordPbkdf2Iterations passwordHashSize))
      config.passwordPbkdf2Iterations.toNat := by
  have small := config.passwordPbkdf2Iterations.toNat_lt
  have read : NumberText.strtoul (decimal config.passwordPbkdf2Iterations.toNat) =
      (config.passwordPbkdf2Iterations.toNat, []) := by
    have whole := @NumberText.strtoul_digits (decimal config.passwordPbkdf2Iterations.toNat) []
      (Http.decimal_isDigit _) (Http.decimal_ne_nil _) (by simp) (by rw [NumberText.number_decimal]; omega)
    rw [List.append_nil, NumberText.number_decimal] at whole
    exact whole
  refine ⟨⟨rfl, Http.decimal_ne_nil _, read, config.counted, small⟩, salt.bytes, _, decodeHex_hexEncode _,
    decodeHex_hexEncode _, ?_, ?_, @length_pbkdf2HmacSha256 p salt.bytes _ _ config.counted (by decide), ?_⟩
  · rw [salt.sized]
    decide
  · rw [salt.sized]
    decide
  · rw [UInt32.ofNat_toNat]

theorem passwordHash_refused (config : ValidConfig) {p : Bytes} (admitted : p.length ≤ config.passwordMaxLength.toNat)
    (salt : Salt) {size : Nat} (short : size < recordSize config.toConfigRecord) :
    passwordHash config.toConfigRecord p (some salt) size = (.error .failed, []) := by
  unfold passwordHash
  rw [if_neg (Nat.not_lt.mpr admitted)]
  exact if_pos short

def recordHeader (iterations : UInt32) : Bytes := recordPrefix ++ decimal iterations.toNat ++ ascii "$"

def recordWrites (password salt : Bytes) (iterations : UInt32) : List (Memory.Write Byte) :=
  let header := recordHeader iterations
  let hash := hexEncode (pbkdf2HmacSha256 password salt iterations passwordHashSize)
  [⟨0, tagPrefix⟩, ⟨tagPrefix.length, header ++ [0]⟩, ⟨tagPrefix.length + header.length, hexEncode salt⟩,
    ⟨tagPrefix.length + header.length + salt.length * 2, ascii "$"⟩,
    ⟨tagPrefix.length + header.length + salt.length * 2 + 1, hash⟩,
    ⟨tagPrefix.length + header.length + salt.length * 2 + 1 + passwordHashSize * 2, [0]⟩]

theorem backendHash_accepted (password salt : Bytes) {iterations : UInt32} {size : Nat}
    (room : encodedLen salt.length iterations ≤ size) :
    (backendHash password salt iterations size).1 = .ok () ∧
      ⟨0, tagPrefix⟩ :: (backendHash password salt iterations size).2.map (Memory.Write.move tagPrefix.length) =
        recordWrites password salt iterations := by
  have header : (recordHeader iterations).length ≤ size - 1 := by
    have one : (ascii "$").length = 1 := rfl
    unfold encodedLen at room
    unfold recordHeader
    rw [List.length_append, List.length_append]
    omega
  have whole := List.take_of_length_le header
  unfold recordHeader at whole
  unfold backendHash
  rw [if_neg (Nat.not_lt.mpr room)]
  dsimp only
  rw [whole]
  refine ⟨rfl, ?_⟩
  simp only [recordWrites, recordHeader, List.map_cons, List.map_nil, Memory.Write.move, Nat.add_assoc, Nat.add_zero]

theorem passwordHash_accepted (config : ValidConfig) {p : Bytes} (admitted : p.length ≤ config.passwordMaxLength.toNat)
    (salt : Salt) {size : Nat} (room : recordSize config.toConfigRecord ≤ size) :
    passwordHash config.toConfigRecord p (some salt) size =
      (.ok (), recordWrites p salt.bytes config.passwordPbkdf2Iterations) := by
  have fits : encodedLen salt.bytes.length config.passwordPbkdf2Iterations ≤ size - tagPrefix.length := by
    rw [salt.sized]
    unfold recordSize at room
    omega
  have backend := backendHash_accepted p salt.bytes fits
  unfold passwordHash
  rw [if_neg (Nat.not_lt.mpr admitted)]
  exact (if_neg (Nat.not_lt.mpr room)).trans (Prod.ext backend.1 backend.2)

theorem recordWrites_filled (config : ValidConfig) (p : Bytes) (salt : Salt) (out : Bytes) :
    Memory.Filled out (recordText config.toConfigRecord p salt.bytes ++ [0])
      (Memory.performAll out (recordWrites p salt.bytes config.passwordPbkdf2Iterations)) 0 := by
  have hash := @length_pbkdf2HmacSha256 p salt.bytes config.passwordPbkdf2Iterations passwordHashSize config.counted (by decide)
  have saltDigits := hexEncode_length salt.bytes
  have hashDigits := hexEncode_length (pbkdf2HmacSha256 p salt.bytes config.passwordPbkdf2Iterations passwordHashSize)
  have sized : salt.bytes.length = 16 := salt.sized
  rw [hash] at hashDigits
  have text : recordText config.toConfigRecord p salt.bytes ++ [0] =
      tagPrefix ++ recordHeader config.passwordPbkdf2Iterations ++ hexEncode salt.bytes ++ ascii "$" ++
        hexEncode (pbkdf2HmacSha256 p salt.bytes config.passwordPbkdf2Iterations passwordHashSize) ++ [0] := by
    have mark : ascii "$" = [ch '$'] := rfl
    simp [recordText, recordHeader, mark]
  rw [text]
  have tagged := (Memory.Filled.start out).write ⟨0, tagPrefix⟩ 0 rfl (Nat.zero_le _)
  have headed := tagged.write ⟨tagPrefix.length, recordHeader config.passwordPbkdf2Iterations ++ [0]⟩ 0 rfl (Nat.zero_le _)
  rw [← List.append_assoc] at headed
  have salted := headed.back.write
    ⟨tagPrefix.length + (recordHeader config.passwordPbkdf2Iterations).length, hexEncode salt.bytes⟩ 0
    (by rw [List.length_append]; rfl) (by dsimp only; rw [saltDigits, sized]; decide)
  have marked := salted.write
    ⟨tagPrefix.length + (recordHeader config.passwordPbkdf2Iterations).length + salt.bytes.length * 2, ascii "$"⟩ 0
    (by rw [List.length_append, List.length_append, saltDigits]; rfl) (Nat.zero_le _)
  have keyed := marked.write
    ⟨tagPrefix.length + (recordHeader config.passwordPbkdf2Iterations).length + salt.bytes.length * 2 + 1,
      hexEncode (pbkdf2HmacSha256 p salt.bytes config.passwordPbkdf2Iterations passwordHashSize)⟩ 0
    (by rw [List.length_append, List.length_append, List.length_append, saltDigits]; rfl) (Nat.zero_le _)
  exact keyed.write
    ⟨tagPrefix.length + (recordHeader config.passwordPbkdf2Iterations).length + salt.bytes.length * 2 + 1 +
      passwordHashSize * 2, [0]⟩ 0
    (by rw [List.length_append, List.length_append, List.length_append, List.length_append, saltDigits, hashDigits]; rfl)
    (Nat.zero_le _)

theorem recordWrites_within (config : ValidConfig) (p : Bytes) (salt : Salt) :
    Memory.Within (recordSize config.toConfigRecord) (recordWrites p salt.bytes config.passwordPbkdf2Iterations) := by
  have hash := @length_pbkdf2HmacSha256 p salt.bytes config.passwordPbkdf2Iterations passwordHashSize config.counted (by decide)
  have sized : salt.bytes.length = 16 := salt.sized
  have size : recordSize config.toConfigRecord =
      tagPrefix.length + (recordHeader config.passwordPbkdf2Iterations).length + 32 + 1 + passwordHashSize * 2 + 1 := by
    have one : (ascii "$").length = 1 := rfl
    unfold recordSize encodedLen recordHeader passwordSaltSize
    rw [List.length_append, List.length_append]
    omega
  have one : (ascii "$").length = 1 := rfl
  unfold Memory.Within recordWrites
  simp only [List.forall_mem_cons, List.not_mem_nil, false_implies, implies_true, and_true, List.length_append,
    List.length_singleton, hexEncode_length, hash, sized, size, one]
  refine ⟨?_, ?_, ?_, ?_, ?_, ?_⟩ <;> omega

theorem hashed_record (config : ValidConfig) {p : Bytes} (admitted : p.length ≤ config.passwordMaxLength.toNat) (salt : Salt)
    {out : Bytes} (room : recordSize config.toConfigRecord ≤ out.length) :
    hashed config p salt out =
      recordText config.toConfigRecord p salt.bytes ++ 0 :: out.drop (recordSize config.toConfigRecord) := by
  have filled := (recordWrites_filled config p salt out).all
  have length := recordText_length config p salt
  rw [List.length_append, List.length_singleton, length, List.append_assoc, List.singleton_append] at filled
  unfold hashed
  rw [passwordHash_accepted config admitted salt room]
  exact filled

theorem passwordHash_roundTrips (config : ValidConfig) {p : Bytes} (admitted : p.length ≤ config.passwordMaxLength.toNat)
    (salt : Salt) (out : Bytes) : RoundTrips config p salt out := by
  have clean := recordText_clean config.toConfigRecord p salt.bytes
  have record := recordText_record config p salt
  refine ⟨?_, recordText_length config p salt, ?_, hashed_record config admitted salt, ?_, ?_, ?_⟩
  · constructor
    · intro ok
      apply Nat.le_of_not_lt
      intro short
      rw [passwordHash_refused config admitted salt short] at ok
      cases ok
    · intro room
      rw [passwordHash_accepted config admitted salt room]
  · by_cases room : recordSize config.toConfigRecord ≤ out.length
    · rw [passwordHash_accepted config admitted salt room]
      exact recordWrites_within config p salt
    · rw [passwordHash_refused config admitted salt (Nat.lt_of_not_le room)]
      exact Memory.Within.nil
  · intro short
    unfold hashed
    rw [passwordHash_refused config admitted salt (Nat.lt_of_not_le short)]
    rfl
  · intro room later fits
    rw [hashed_record config admitted salt room]
    rcases passwordVerify_text later.toConfigRecord p clean (out.drop (recordSize config.toConfigRecord)) with
      ⟨answer, run, records⟩
    rw [run, records.mpr ⟨fits, _, _, _, _, record⟩]
  · intro room later q fits verified
    rw [hashed_record config admitted salt room] at verified
    rcases passwordVerify_text later.toConfigRecord q clean (out.drop (recordSize config.toConfigRecord)) with
      ⟨answer, run, records⟩
    rw [verified] at run
    rcases records.mp (Option.some.inj run).symm with ⟨_, count, saltHex, hashHex, iterations, other, fields⟩
    have same := record.1.reads.symm.trans other.reads
    rcases Prod.mk.inj same with ⟨counts, rest⟩
    rcases Memory.first_unique record.2.plain fields.plain (List.cons.inj rest).2 with ⟨salts, hashes⟩
    rw [← counts, ← salts, ← hashes, UInt32.ofNat_toNat] at fields
    rcases fields with ⟨usedSalt, hash, decodedSalt, decodedHash, _, _, _, value⟩
    rw [decodeHex_hexEncode] at decodedSalt decodedHash
    cases decodedSalt
    cases decodedHash
    exact value

def paperSalt : Salt := ⟨List.replicate 16 0xA5, by decide⟩

def defaultConfig : ValidConfig := ⟨configDefault, by decide⟩

theorem passwordHash_roundTrips_secret : RoundTrips defaultConfig (ascii "secret") paperSalt (List.replicate 256 0) :=
  passwordHash_roundTrips defaultConfig (by decide) paperSalt (List.replicate 256 0)

end BlueBird.Security
