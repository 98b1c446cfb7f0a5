import BlueBird.Json.Value
import Mathlib.Algebra.Ring.Int.Defs

/-! The security settings, and how they are read from a config. -/

namespace BlueBird.Security

/-- `bb_security_config_t`, valid or not. -/
structure ConfigRecord where
  passwordPbkdf2Iterations : UInt32
  passwordMaxLength : UInt64
  sessionLifetimeSeconds : Int64
  sessionIdLength : UInt64
  deriving DecidableEq, Repr

/-- `bb_security_config_default` -/
def configDefault : ConfigRecord where
  passwordPbkdf2Iterations := 600000
  passwordMaxLength := 256
  sessionLifetimeSeconds := 3600
  sessionIdLength := 63

/-- `bb_security_config_validate`; a message names the first field that is out of its range. -/
def configValidate (config : ConfigRecord) : Except String Unit :=
  if config.passwordPbkdf2Iterations < 100000 then .error "password_pbkdf2_iterations is below the minimum"
  else if config.passwordMaxLength < 1 ∨ config.passwordMaxLength > 4096 then .error "password_max_length is out of range"
  else if config.sessionLifetimeSeconds < 1 ∨ config.sessionLifetimeSeconds > 30 * 24 * 60 * 60 then
    .error "session_lifetime_seconds is out of range"
  else if config.sessionIdLength < 32 ∨ config.sessionIdLength > 63 then .error "session_id_length is out of range"
  else .ok ()

variable {R : Type} (integerPart : R → Int)

/-- `get_optional_long`; `integerPart` is what the conversion of a real to `long` keeps of it. -/
def getOptionalLong (config : List (Bytes × Json R)) (key : Bytes) : Option Int64 :=
  match Json.objectGetValue config key with
  | none => none
  | some (.int value) => some (Int64.ofInt value.toInt)
  | some (.real value) => some (Int64.ofInt (integerPart value))
  | some _ => some (-1)

/-- `(value > 0) ? (uint32_t)value : 0` -/
def toUint32 (value : Int64) : UInt32 := if value > 0 then value.toUInt64.toUInt32 else 0

/-- `(value > 0) ? (size_t)value : 0` -/
def toSize (value : Int64) : UInt64 := if value > 0 then value.toUInt64 else 0

def iterationsKey : Bytes := ascii "security_password_iterations"
def maxLengthKey : Bytes := ascii "security_password_max_length"
def lifetimeKey : Bytes := ascii "security_session_lifetime_seconds"
def idLengthKey : Bytes := ascii "security_session_id_length"

def configFields (config : List (Bytes × Json R)) : ConfigRecord where
  passwordPbkdf2Iterations :=
    ((getOptionalLong integerPart config iterationsKey).map toUint32).getD configDefault.passwordPbkdf2Iterations
  passwordMaxLength := ((getOptionalLong integerPart config maxLengthKey).map toSize).getD configDefault.passwordMaxLength
  sessionLifetimeSeconds := (getOptionalLong integerPart config lifetimeKey).getD configDefault.sessionLifetimeSeconds
  sessionIdLength := ((getOptionalLong integerPart config idLengthKey).map toSize).getD configDefault.sessionIdLength

/-- `bb_security_config_from_json`, with what it leaves in `out_config`. -/
def configFromJson (config : List (Bytes × Json R)) : Except String Unit × ConfigRecord :=
  let out := configFields integerPart config
  match configValidate out with
  | .error message => (.error message, configDefault)
  | .ok () => (.ok (), out)

/-! ## What the documentation promises -/

inductive Setting where
  | iterations | maxLength | lifetime | idLength
  deriving DecidableEq, Repr

namespace Setting

def key : Setting → Bytes
  | iterations => iterationsKey
  | maxLength => maxLengthKey
  | lifetime => lifetimeKey
  | idLength => idLengthKey

def low : Setting → Int
  | iterations => 100000
  | maxLength => 1
  | lifetime => 1
  | idLength => 32

def high : Setting → Int
  | iterations => 2 ^ 32 - 1
  | maxLength => 4096
  | lifetime => 30 * 24 * 60 * 60
  | idLength => 63

def read (config : ConfigRecord) : Setting → Int
  | iterations => config.passwordPbkdf2Iterations.toNat
  | maxLength => config.passwordMaxLength.toNat
  | lifetime => config.sessionLifetimeSeconds.toInt
  | idLength => config.sessionIdLength.toNat

end Setting

def exactPart : Json R → Option Int
  | .int value => some value.toInt
  | .real value => some (integerPart value)
  | _ => none

/-- A setting that is there is a number whose integer part is in the range. -/
def Fits (config : List (Bytes × Json R)) (setting : Setting) : Prop :=
  ∀ node, Json.objectGetValue config setting.key = some node →
    ∃ n, exactPart integerPart node = some n ∧ setting.low ≤ n ∧ n ≤ setting.high

def chosen (config : List (Bytes × Json R)) (setting : Setting) : Int :=
  match Json.objectGetValue config setting.key with
  | none => setting.read configDefault
  | some node => (exactPart integerPart node).getD (setting.read configDefault)

/-- What the config says is what is set, or there is an error and nothing but defaults. -/
structure ReadsExactly (config : List (Bytes × Json R)) : Prop where
  accepts : (configFromJson integerPart config).1 = .ok () ↔ ∀ setting, Fits integerPart config setting
  sets : (configFromJson integerPart config).1 = .ok () →
    ∀ setting, Setting.read (configFromJson integerPart config).2 setting = chosen integerPart config setting
  refuses : (configFromJson integerPart config).1 ≠ .ok () → (configFromJson integerPart config).2 = configDefault

/-- The iteration count is above 32 bits and wraps into its range, and nothing else is wrong. -/
def Wraps (config : List (Bytes × Json R)) : Prop :=
  (∃ node n, Json.objectGetValue config iterationsKey = some node ∧ exactPart integerPart node = some n ∧ 2 ^ 32 ≤ n ∧
    100000 ≤ n % 2 ^ 32) ∧ ∀ setting, setting ≠ .iterations → Fits integerPart config setting

/-- The integer part of every real among the settings is a `long`. -/
def LongReals (config : List (Bytes × Json R)) : Prop :=
  ∀ setting value, Json.objectGetValue config (Setting.key setting) = some (.real value) →
    -2 ^ 63 ≤ integerPart value ∧ integerPart value < 2 ^ 63

/-! ## What is stored -/

/-- What a field holds after its number has gone through the type of the field. -/
def Setting.stored (n : Int) : Setting → Int
  | iterations => if 0 < n then n % 2 ^ 32 else 0
  | lifetime => n
  | maxLength | idLength => if 0 < n then n else 0

def Setting.InRange (setting : Setting) (n : Int) : Prop := setting.low ≤ n ∧ n ≤ setting.high

/-- The number under a key; what is no number reads as -1. -/
def given (config : List (Bytes × Json R)) (setting : Setting) : Option Int :=
  (Json.objectGetValue config setting.key).map (fun node => (exactPart integerPart node).getD (-1))

theorem getOptionalLong_toInt {config : List (Bytes × Json R)} (long : LongReals integerPart config) (setting : Setting) :
    (getOptionalLong integerPart config setting.key).map Int64.toInt = given integerPart config setting := by
  simp only [getOptionalLong, given]
  cases found : Json.objectGetValue config setting.key with
  | none => rfl
  | some node =>
    cases node with
    | int value =>
      have low := value.le_toInt
      have high := value.toInt_lt
      simp only [Option.map_some, exactPart, Option.getD_some]
      rw [Int64.toInt_ofInt_of_le (by omega) (by omega)]
    | real value =>
      have bounds := long setting value found
      simp only [Option.map_some, exactPart, Option.getD_some]
      rw [Int64.toInt_ofInt_of_le bounds.1 bounds.2]
    | _ => rfl

theorem given_long {config : List (Bytes × Json R)} (long : LongReals integerPart config) {setting : Setting} {n : Int}
    (present : given integerPart config setting = some n) : n < 2 ^ 63 := by
  rw [← getOptionalLong_toInt integerPart long] at present
  rcases Option.map_eq_some_iff.mp present with ⟨value, _, rfl⟩
  exact value.toInt_lt

theorem toSize_toNat (value : Int64) : ((toSize value).toNat : Int) = if 0 < value.toInt then value.toInt else 0 := by
  have sign : value > 0 ↔ 0 < value.toInt := Int64.lt_iff_toInt_lt
  simp only [toSize, sign]
  split
  · next positive =>
    rw [Int64.toNat_toUInt64_of_le (Int64.le_iff_toInt_le.mpr (by simpa using Int.le_of_lt positive))]
    show ((value.toInt.toNat : Nat) : Int) = value.toInt
    omega
  · rfl

theorem toUint32_toNat (value : Int64) :
    ((toUint32 value).toNat : Int) = if 0 < value.toInt then value.toInt % 2 ^ 32 else 0 := by
  have size := toSize_toNat value
  have sign : value > 0 ↔ 0 < value.toInt := Int64.lt_iff_toInt_lt
  simp only [toUint32, toSize, sign] at size ⊢
  split
  · next positive =>
    rw [if_pos positive, if_pos positive] at size
    rw [UInt64.toNat_toUInt32]
    omega
  · rfl

theorem read_configFields {config : List (Bytes × Json R)} (long : LongReals integerPart config) (setting : Setting) :
    setting.read (configFields integerPart config) =
      ((given integerPart config setting).map setting.stored).getD (setting.read configDefault) := by
  rw [← getOptionalLong_toInt integerPart long]
  cases setting with
  | iterations =>
    cases found : getOptionalLong integerPart config iterationsKey with
    | none => simp [Setting.read, configFields, Setting.key, found]
    | some value => simp [Setting.read, configFields, Setting.key, found, Setting.stored, toUint32_toNat]
  | maxLength =>
    cases found : getOptionalLong integerPart config maxLengthKey with
    | none => simp [Setting.read, configFields, Setting.key, found]
    | some value => simp [Setting.read, configFields, Setting.key, found, Setting.stored, toSize_toNat]
  | lifetime =>
    cases found : getOptionalLong integerPart config lifetimeKey with
    | none => simp [Setting.read, configFields, Setting.key, found]
    | some value => simp [Setting.read, configFields, Setting.key, found, Setting.stored]
  | idLength =>
    cases found : getOptionalLong integerPart config idLengthKey with
    | none => simp [Setting.read, configFields, Setting.key, found]
    | some value => simp [Setting.read, configFields, Setting.key, found, Setting.stored, toSize_toNat]

theorem configValidate_ok {config : ConfigRecord} :
    configValidate config = .ok () ↔ ∀ setting : Setting, setting.InRange (setting.read config) := by
  have fields : (∀ setting : Setting, setting.InRange (setting.read config)) ↔
      Setting.InRange .iterations config.passwordPbkdf2Iterations.toNat ∧
        Setting.InRange .maxLength config.passwordMaxLength.toNat ∧
        Setting.InRange .lifetime config.sessionLifetimeSeconds.toInt ∧ Setting.InRange .idLength config.sessionIdLength.toNat := by
    constructor
    · intro all
      exact ⟨all .iterations, all .maxLength, all .lifetime, all .idLength⟩
    · intro ⟨iterations, maxLength, lifetime, idLength⟩ setting
      cases setting <;> assumption
  have bound := config.passwordPbkdf2Iterations.toNat_lt
  rw [fields]
  simp only [configValidate, Setting.InRange, Setting.low, Setting.high, UInt32.lt_iff_toNat_lt, UInt64.lt_iff_toNat_lt,
    Int64.lt_iff_toInt_lt, gt_iff_lt, UInt32.reduceToNat, UInt64.reduceToNat, Int64.reduceMul, Int64.reduceToInt]
  split
  · next low => exact ⟨nofun, fun ⟨iterations, _⟩ => by omega⟩
  · split
    · next length => exact ⟨nofun, fun ⟨_, maxLength, _⟩ => by omega⟩
    · split
      · next seconds => exact ⟨nofun, fun ⟨_, _, lifetime, _⟩ => by omega⟩
      · split
        · next id => exact ⟨nofun, fun ⟨_, _, _, idLength⟩ => by omega⟩
        · next iterations maxLength lifetime idLength =>
          exact ⟨fun _ => ⟨by omega, by omega, by omega, by omega⟩, fun _ => rfl⟩

theorem configFromJson_accepted {config : List (Bytes × Json R)}
    (valid : configValidate (configFields integerPart config) = .ok ()) :
    configFromJson integerPart config = (.ok (), configFields integerPart config) := by
  simp only [configFromJson, valid]

theorem configFromJson_refused {config : List (Bytes × Json R)} {message : String}
    (invalid : configValidate (configFields integerPart config) = .error message) :
    configFromJson integerPart config = (.error message, configDefault) := by
  simp only [configFromJson, invalid]

theorem configFromJson_valid {config : List (Bytes × Json R)} :
    (configFromJson integerPart config).1 = .ok () ↔ configValidate (configFields integerPart config) = .ok () := by
  cases validated : configValidate (configFields integerPart config) with
  | error message => simp [configFromJson_refused integerPart validated]
  | ok _ => simp [configFromJson_accepted integerPart validated]

theorem configFromJson_ok {config : List (Bytes × Json R)} (long : LongReals integerPart config) :
    (configFromJson integerPart config).1 = .ok () ↔
      ∀ setting : Setting, ∀ n ∈ given integerPart config setting, setting.InRange (setting.stored n) := by
  rw [configFromJson_valid, configValidate_ok]
  have default : ∀ setting : Setting, setting.InRange (setting.read configDefault) := by
    intro setting
    cases setting <;> exact ⟨by decide, by decide⟩
  constructor
  · intro inside setting n present
    have fits := inside setting
    rw [read_configFields integerPart long, present] at fits
    exact fits
  · intro inside setting
    rw [read_configFields integerPart long]
    cases present : given integerPart config setting with
    | none => exact default setting
    | some n => exact inside setting n present

theorem fits_iff {config : List (Bytes × Json R)} {setting : Setting} :
    Fits integerPart config setting ↔ ∀ n ∈ given integerPart config setting, setting.InRange n := by
  have low : 1 ≤ setting.low := by cases setting <;> decide
  simp only [Fits, given]
  cases Json.objectGetValue config setting.key with
  | none => simp
  | some node =>
    cases part : exactPart integerPart node with
    | none =>
      constructor
      · intro fits
        rcases fits node rfl with ⟨n, number, _⟩
        rw [part] at number
        cases number
      · intro inside
        have range := (inside (-1) (by simp [part])).1
        omega
    | some n =>
      constructor
      · intro fits m found
        rcases fits node rfl with ⟨k, number, range⟩
        rw [part] at number
        cases number
        simp only [Option.map_some, part, Option.getD_some, Option.mem_some_iff] at found
        rw [← found]
        exact range
      · intro inside other same
        cases same
        exact ⟨n, part, inside n (by simp [part])⟩

theorem stored_inRange {setting : Setting} {n : Int} :
    setting.InRange (setting.stored n) ↔
      setting.InRange n ∨ setting = .iterations ∧ 2 ^ 32 ≤ n ∧ 100000 ≤ n % 2 ^ 32 := by
  cases setting with
  | lifetime => simp [Setting.stored]
  | _ =>
    simp only [Setting.stored, Setting.InRange, Setting.low, Setting.high, reduceCtorEq, false_and, or_false, true_and]
    split <;> omega

theorem stored_self {setting : Setting} {n : Int} (range : setting.InRange n) : setting.stored n = n := by
  cases setting with
  | lifetime => rfl
  | _ =>
    simp only [Setting.InRange, Setting.low, Setting.high] at range
    simp only [Setting.stored]
    split <;> omega

theorem wraps_iff {config : List (Bytes × Json R)} :
    Wraps integerPart config ↔
      (∀ setting : Setting, ∀ n ∈ given integerPart config setting, setting.InRange (setting.stored n)) ∧
        ¬ ∀ setting, Fits integerPart config setting := by
  constructor
  · intro ⟨⟨node, n, found, number, large, wrapped⟩, others⟩
    have present : given integerPart config .iterations = some n := by
      simp [given, Setting.key, found, number]
    constructor
    · intro setting m held
      by_cases first : setting = .iterations
      · subst first
        rw [present] at held
        cases held
        exact stored_inRange.mpr (.inr ⟨rfl, large, wrapped⟩)
      · exact stored_inRange.mpr (.inl ((fits_iff integerPart).mp (others setting first) m held))
    · intro fits
      have range := ((fits_iff integerPart).mp (fits .iterations) n present).2
      have top : Setting.high .iterations = 2 ^ 32 - 1 := rfl
      omega
  · intro ⟨inside, misfit⟩
    have others : ∀ setting, setting ≠ .iterations → Fits integerPart config setting := by
      intro setting apart
      apply (fits_iff integerPart).mpr
      intro n present
      rcases stored_inRange.mp (inside setting n present) with range | wrapped
      · exact range
      · exact absurd wrapped.1 apart
    refine ⟨?_, others⟩
    apply Classical.byContradiction
    intro straight
    apply misfit
    intro setting
    by_cases first : setting = .iterations
    · subst first
      apply (fits_iff integerPart).mpr
      intro n present
      rcases stored_inRange.mp (inside _ n present) with range | ⟨_, large, wrapped⟩
      · exact range
      · have numbered := present
        simp only [given, Option.mem_def, Option.map_eq_some_iff] at numbered
        rcases numbered with ⟨node, found, part⟩
        cases number : exactPart integerPart node with
        | none =>
          rw [number, Option.getD_none] at part
          omega
        | some m =>
          rw [number, Option.getD_some] at part
          rw [part] at number
          exact absurd ⟨node, n, found, number, large, wrapped⟩ straight
    · exact others setting first

theorem chosen_given {config : List (Bytes × Json R)} {setting : Setting} (fits : Fits integerPart config setting) :
    chosen integerPart config setting = (given integerPart config setting).getD (setting.read configDefault) := by
  unfold chosen given
  cases found : Json.objectGetValue config setting.key with
  | none => rfl
  | some node =>
    rcases fits node found with ⟨n, number, _⟩
    simp [number]

theorem readsExactly_iff {config : List (Bytes × Json R)} (long : LongReals integerPart config) :
    ReadsExactly integerPart config ↔ ¬ Wraps integerPart config := by
  rw [wraps_iff]
  constructor
  · intro exactly wraps
    exact wraps.2 (exactly.accepts.mp ((configFromJson_ok integerPart long).mpr wraps.1))
  · intro straight
    have accepts : (configFromJson integerPart config).1 = .ok () ↔ ∀ setting, Fits integerPart config setting := by
      rw [configFromJson_ok integerPart long]
      constructor
      · intro inside
        exact Classical.byContradiction (fun misfit => straight ⟨inside, misfit⟩)
      · intro fits setting n present
        exact stored_inRange.mpr (.inl ((fits_iff integerPart).mp (fits setting) n present))
    refine ⟨accepts, fun ok setting => ?_, fun failed => ?_⟩
    · have fits := accepts.mp ok setting
      rw [configFromJson_accepted integerPart ((configFromJson_valid integerPart).mp ok), read_configFields integerPart long,
        chosen_given integerPart fits]
      cases present : given integerPart config setting with
      | none => rfl
      | some n => exact stored_self ((fits_iff integerPart).mp fits n present)
    · cases validated : configValidate (configFields integerPart config) with
      | error message => rw [configFromJson_refused integerPart validated]
      | ok _ => exact absurd ((configFromJson_valid integerPart).mpr validated) failed

def lowIterations : List (Bytes × Json Int) := [(iterationsKey, .int 99999)]

def wrappingIterations : List (Bytes × Json Int) := [(iterationsKey, .real 4295467008)]

theorem readsExactly_low : LongReals id lowIterations ∧ ReadsExactly id lowIterations := by
  have long : LongReals id lowIterations := by
    intro setting value found
    cases setting <;> cases found
  refine ⟨long, (readsExactly_iff id long).mpr ?_⟩
  intro ⟨⟨node, n, found, number, large, _⟩, _⟩
  cases found
  cases number
  exact absurd large (by decide)

theorem not_readsExactly_wrapping : LongReals id wrappingIterations ∧ ¬ ReadsExactly id wrappingIterations := by
  constructor
  · intro setting value found
    cases setting with
    | iterations =>
      cases found
      exact ⟨by decide, by decide⟩
    | _ => cases found
  · intro exactly
    have fits := exactly.accepts.mp (by decide) .iterations
    rcases fits _ rfl with ⟨n, number, _, high⟩
    cases number
    exact absurd high (by decide)

end BlueBird.Security
