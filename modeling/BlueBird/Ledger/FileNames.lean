import BlueBird.Http.Decimal
import BlueBird.Ledger.Plan

namespace BlueBird.Ledger

open BlueBird.Http (decimal digitByte decimal_lt decimal_ge decimal_isDigit decimal_ne_nil isDigit_digitByte digitValue_digitByte)

def int64Max : Nat := 2^63 - 1

/-- `BB_MIGRATE_NAME_MAX` -/
def nameMax : Nat := 128

/-! ## Reading a file name -/

def isSeparator (c : Byte) : Bool := c == ch '/' || c == ch '\\'

/-- What is behind the last separator, or else `base`. -/
def basenameFrom (base : Bytes) : Bytes → Bytes
  | [] => base
  | c :: rest => basenameFrom (if isSeparator c then rest else base) rest

def basenameOf (path : Bytes) : Bytes := basenameFrom path path

def isNameChar (c : Byte) : Bool :=
  (ch 'a' ≤ c ∧ c ≤ ch 'z') || (ch 'A' ≤ c ∧ c ≤ ch 'Z') || isDigit c || c == ch '_' || c == ch '-'

def ext : Bytes := ascii ".sql"

/-- The loop over the digits: the version and what follows them; `none` is a version that is too large. -/
def scanVersion (v : Nat) : Bytes → Option (Nat × Bytes)
  | [] => some (v, [])
  | c :: rest =>
    if isDigit c then
      if v > (int64Max - digitValue c) / 10 then none else scanVersion (v * 10 + digitValue c) rest
    else some (v, c :: rest)

def misnamed (base : Bytes) : String :=
  "'" ++ asText base ++ "': migration files must be named <version>_<name>.sql"

def parseName (base : Bytes) (cap : Nat) (v : Nat) (name : Bytes) : Except String (Int × Bytes) :=
  if cap ≤ name.length then
    .error ("'" ++ asText base ++ "': migration name is too long (max " ++ toString (cap - 1) ++ ")")
  else if name.all isNameChar then .ok (v, name)
  else .error ("'" ++ asText base ++ "': migration name may only contain letters, digits, '_' and '-'")

def parseBase (base : Bytes) (cap : Nat) : Except String (Int × Bytes) :=
  if base.length ≤ ext.length ∨ base.drop (base.length - ext.length) ≠ ext then .error (misnamed base)
  else
    let stem := base.take (base.length - ext.length)
    (scanVersion 0 stem).elim (.error ("'" ++ asText base ++ "': version number is too large")) fun scanned =>
      if scanned.2.length = stem.length ∨ scanned.2.head? ≠ some (ch '_') ∨ scanned.2.tail = [] then .error (misnamed base)
      else parseName base cap scanned.1 scanned.2.tail

/-- `bb_migrate_parse_filename` -/
def parseFilename (path : Bytes) (cap : Nat) : Except String (Int × Bytes) :=
  if cap = 0 then .error "invalid arguments" else parseBase (basenameOf path) cap

/-! ## Naming a new file -/

/-- `bb_migrate_next_version`; `none` is a signed overflow. -/
def nextVersion (set : List Migration) : Option Int :=
  match set.getLast? with
  | none => some 1
  | some last => if last.version < int64Max then some (last.version + 1) else none

def digitCount (v : Nat) : Nat := if v < 10 then 1 else digitCount (v / 10) + 1
termination_by v

/-- `%0*lld` of a number that is not negative. -/
def zeroPadded (width v : Nat) : Bytes := List.replicate (width - (decimal v).length) (ch '0') ++ decimal v

/-- The width of the versions of `set`, but 4 at least. -/
def versionWidth (set : List Migration) : Nat :=
  match set.getLast? with
  | none => 4
  | some last => max 4 (digitCount last.version.toNat)

/-- `bb_migrate_format_filename` -/
def formatFilename (set : List Migration) (version : Int) (name : Bytes) (cap : Nat) : Except String Bytes :=
  if cap = 0 ∨ version < 0 then .error "invalid arguments"
  else if name = [] then .error "migration name must not be empty"
  else if ¬ name.all isNameChar then
    .error ("migration name '" ++ asText name ++ "' may only contain letters, digits, '_' and '-'")
  else
    let file := zeroPadded (versionWidth set) version.toNat ++ ch '_' :: name ++ ext
    if nameMax + 64 ≤ file.length ∨ cap ≤ file.length then .error ("migration name '" ++ asText name ++ "' is too long")
    else do
      let _ ← parseFilename file nameMax
      return file

/-! ## What a name says -/

def versionOf (digits : Bytes) : Nat := digits.foldl (fun v c => v * 10 + digitValue c) 0

/-- The name of a migration file: some digits, an underscore, and a name that is not empty. -/
structure Named (base digits name : Bytes) : Prop where
  split : base = digits ++ ch '_' :: name ++ ext
  numeric : ∀ c ∈ digits, isDigit c = true
  numbered : digits ≠ []
  chars : name.all isNameChar = true
  nonempty : name ≠ []

theorem scanVersion_some {v w : Nat} {bytes rest : Bytes} (scanned : scanVersion v bytes = some (w, rest)) :
    ∃ digits, bytes = digits ++ rest ∧ (∀ c ∈ digits, isDigit c = true) ∧
      w = digits.foldl (fun v c => v * 10 + digitValue c) v ∧ (v ≤ int64Max → w ≤ int64Max) := by
  induction bytes generalizing v with
  | nil =>
    cases scanned
    exact ⟨[], rfl, by simp, rfl, id⟩
  | cons c bytes ih =>
    rw [scanVersion] at scanned
    by_cases digit : isDigit c = true
    · rw [if_pos digit] at scanned
      by_cases large : v > (int64Max - digitValue c) / 10
      · rw [if_pos large] at scanned
        cases scanned
      · rw [if_neg large] at scanned
        rcases ih scanned with ⟨digits, split, all, value, fits⟩
        have room : v * 10 + digitValue c ≤ int64Max := by
          have byte : digitValue c ≤ 255 := Nat.le_trans (Nat.sub_le _ _) (Nat.le_of_lt_succ c.toNat_lt)
          unfold int64Max at large ⊢
          omega
        refine ⟨c :: digits, by rw [split, List.cons_append], ?_, value, fun _ => fits room⟩
        intro d member
        rcases List.mem_cons.mp member with rfl | later
        · exact digit
        · exact all d later
    · rw [if_neg digit] at scanned
      cases scanned
      exact ⟨[], rfl, by simp, rfl, id⟩

theorem parseBase_ok {base : Bytes} {cap : Nat} {version : Int} {name : Bytes}
    (parsed : parseBase base cap = .ok (version, name)) :
    ∃ digits, Named base digits name ∧ version = versionOf digits ∧ version ≤ int64Max := by
  unfold parseBase at parsed
  by_cases suffix : base.length ≤ ext.length ∨ base.drop (base.length - ext.length) ≠ ext
  · rw [if_pos suffix] at parsed
    cases parsed
  · rw [if_neg suffix] at parsed
    have ends : base.drop (base.length - ext.length) = ext := Classical.not_not.mp fun other => suffix (.inr other)
    have whole : base = base.take (base.length - ext.length) ++ ext := by
      have parts := (List.take_append_drop (base.length - ext.length) base).symm
      rw [ends] at parts
      exact parts
    cases scanned : scanVersion 0 (base.take (base.length - ext.length)) with
    | none =>
      simp only [scanned] at parsed
      cases parsed
    | some result =>
      rcases @scanVersion_some _ result.1 _ result.2 scanned with ⟨digits, split, all, value, fits⟩
      simp only [scanned, Option.elim_some] at parsed
      by_cases shape : result.2.length = (base.take (base.length - ext.length)).length ∨
          result.2.head? ≠ some (ch '_') ∨ result.2.tail = []
      · rw [if_pos shape] at parsed
        cases parsed
      · rw [if_neg shape] at parsed
        simp only [not_or, Classical.not_not] at shape
        rcases shape with ⟨numbered, mark, named⟩
        have rest : result.2 = ch '_' :: result.2.tail := (List.cons_head?_tail mark).symm
        unfold parseName at parsed
        by_cases long : cap ≤ result.2.tail.length
        · rw [if_pos long] at parsed
          cases parsed
        · rw [if_neg long] at parsed
          by_cases chars : result.2.tail.all isNameChar = true
          · rw [if_pos chars] at parsed
            cases parsed
            refine ⟨digits, ⟨?_, all, ?_, chars, named⟩, congrArg Int.ofNat value, Int.ofNat_le.mpr (fits (Nat.zero_le _))⟩
            · rw [← rest, ← split]
              exact whole
            · rintro rfl
              exact numbered (congrArg List.length split.symm)
          · rw [if_neg chars] at parsed
            cases parsed

theorem Named.unique {base digits name digits' name' : Bytes} (named : Named base digits name)
    (other : Named base digits' name') : digits = digits' ∧ name = name' := by
  have front : ∀ {digits name : Bytes}, Named base digits name → base.takeWhile isDigit = digits := by
    intro digits name named
    rw [named.split, List.append_assoc, List.takeWhile_append_of_pos named.numeric]
    exact List.append_nil _
  have same : digits = digits' := (front named).symm.trans (front other)
  have split := named.split.symm.trans other.split
  rw [same, List.append_assoc, List.append_assoc] at split
  have rest := List.append_cancel_left split
  exact ⟨same, List.append_cancel_right (List.cons.inj rest).2⟩

theorem parseFilename_ok {path : Bytes} {cap : Nat} {version : Int} {name : Bytes}
    (parsed : parseFilename path cap = .ok (version, name)) :
    ∃ digits, Named (basenameOf path) digits name ∧ version = versionOf digits ∧ version ≤ int64Max := by
  unfold parseFilename at parsed
  by_cases none : cap = 0
  · rw [if_pos none] at parsed
    cases parsed
  · rw [if_neg none] at parsed
    exact parseBase_ok parsed

/-! ## A new name is read back -/

theorem basenameFrom_of_clean {bytes : Bytes} (clean : ∀ c ∈ bytes, isSeparator c = false) (base : Bytes) :
    basenameFrom base bytes = base := by
  induction bytes with
  | nil => rfl
  | cons c bytes ih =>
    rw [basenameFrom, clean c List.mem_cons_self]
    exact ih fun d member => clean d (List.mem_cons_of_mem _ member)

theorem not_isSeparator_of_isNameChar (c : Byte) : isNameChar c = true → isSeparator c = false := by
  apply forall_byte (motive := fun c => isNameChar c = true → isSeparator c = false) _ c
  decide +kernel

theorem isNameChar_of_isDigit {c : Byte} (digit : isDigit c = true) : isNameChar c = true := by
  simp [isNameChar, digit]

theorem versionOf_decimal (v : Nat) : versionOf (decimal v) = v := by
  induction v using Nat.strongRecOn with
  | _ v ih =>
    by_cases small : v < 10
    · rw [decimal_lt small, versionOf, List.foldl_cons, digitValue_digitByte small]
      exact Nat.zero_add v
    · have front := ih (v / 10) (by omega)
      unfold versionOf at front ⊢
      rw [decimal_ge (Nat.le_of_not_lt small), List.foldl_append, front, List.foldl_cons, List.foldl_nil,
        digitValue_digitByte (Nat.mod_lt v (by decide))]
      omega

theorem versionOf_zeroPadded (width v : Nat) : versionOf (zeroPadded width v) = v := by
  have zeros : ∀ n, (List.replicate n (ch '0')).foldl (fun v c => v * 10 + digitValue c) 0 = 0 := by
    intro n
    induction n with
    | zero => rfl
    | succ n ih => exact ih
  rw [versionOf, zeroPadded, List.foldl_append, zeros]
  exact versionOf_decimal v

theorem zeroPadded_numeric (width v : Nat) : ∀ c ∈ zeroPadded width v, isDigit c = true := by
  intro c member
  rcases List.mem_append.mp member with zero | digit
  · rw [List.eq_of_mem_replicate zero]
    decide
  · exact decimal_isDigit v c digit

theorem Named.basename {base digits name : Bytes} (named : Named base digits name) : basenameOf base = base := by
  apply basenameFrom_of_clean
  intro c member
  rw [named.split, List.append_assoc] at member
  rcases List.mem_append.mp member with digit | rest
  · exact not_isSeparator_of_isNameChar c (isNameChar_of_isDigit (named.numeric c digit))
  · rcases List.mem_cons.mp rest with rfl | rest
    · decide
    · rcases List.mem_append.mp rest with char | suffix
      · exact not_isSeparator_of_isNameChar c (List.all_eq_true.mp named.chars c char)
      · exact (show ∀ c ∈ ext, isSeparator c = false by decide +kernel) c suffix

variable {set : List Migration} {version : Int} {name out : Bytes} {cap : Nat}

theorem formatFilename_ok (formatted : formatFilename set version name cap = .ok out) :
    0 ≤ version ∧ Named out (zeroPadded (versionWidth set) version.toNat) name ∧
      ∃ parsed, parseFilename out nameMax = .ok parsed := by
  unfold formatFilename at formatted
  by_cases arguments : cap = 0 ∨ version < 0
  · rw [if_pos arguments] at formatted
    cases formatted
  · rw [if_neg arguments] at formatted
    by_cases empty : name = []
    · rw [if_pos empty] at formatted
      cases formatted
    · rw [if_neg empty] at formatted
      by_cases chars : ¬ name.all isNameChar
      · rw [if_pos chars] at formatted
        cases formatted
      · rw [if_neg chars] at formatted
        by_cases long : nameMax + 64 ≤ (zeroPadded (versionWidth set) version.toNat ++ ch '_' :: name ++ ext).length ∨
            cap ≤ (zeroPadded (versionWidth set) version.toNat ++ ch '_' :: name ++ ext).length
        · rw [if_pos long] at formatted
          cases formatted
        · rw [if_neg long] at formatted
          cases parse : parseFilename (zeroPadded (versionWidth set) version.toNat ++ ch '_' :: name ++ ext) nameMax with
          | error text =>
            rw [parse] at formatted
            cases formatted
          | ok parsed =>
            rw [parse] at formatted
            cases formatted
            refine ⟨by omega, ⟨rfl, zeroPadded_numeric _ _, ?_, Classical.not_not.mp chars, empty⟩, parsed, parse⟩
            exact List.append_ne_nil_of_right_ne_nil _ (decimal_ne_nil _)

theorem parseFilename_formatFilename (formatted : formatFilename set version name cap = .ok out) :
    parseFilename out nameMax = .ok (version, name) := by
  rcases formatFilename_ok formatted with ⟨nonneg, named, ⟨v, name'⟩, parse⟩
  rcases parseFilename_ok parse with ⟨digits, other, value, _⟩
  rw [named.basename] at other
  rcases named.unique other with ⟨rfl, rfl⟩
  rw [versionOf_zeroPadded] at value
  rw [parse, value, Int.toNat_of_nonneg nonneg]

end BlueBird.Ledger
