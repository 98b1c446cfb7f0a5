import BlueBird.Json.Value
import BlueBird.Ledger.FileNames
import BlueBird.Migrate.Correctness

namespace BlueBird.Migrate

open Ledger (nameMax)

variable {R : Type}

/-- `BB_MIGRATE_COLUMNS_MAX` -/
def columnsMax : Nat := 64

/-- `BB_MIGRATE_TYPE_MAX` -/
def typeMax : Nat := 16

def sqlTypeFor (manifestType : Bytes) : Option String :=
  if manifestType = ascii "int" then some "INTEGER"
  else if manifestType = ascii "string" ∨ manifestType = ascii "uuid" then some "TEXT"
  else if manifestType = ascii "blob" then some "BLOB"
  else none

/-- What `copy_checked` copies, if it does. -/
def copyChecked (cap : Nat) (src : Bytes) : Option Bytes :=
  if src.length = 0 ∨ cap ≤ src.length then none else some src

/-- The entries of an object; `bb_json_object_get_value` finds nothing in another value. -/
def entriesOf : Json R → List (Bytes × Json R)
  | .object entries => entries
  | _ => []

def textOf (obj : Json R) (key : Bytes) : Option Bytes :=
  match Json.objectGetValue (entriesOf obj) key with
  | some (.text value) => value.map Json.cString
  | _ => none

def flagOf (obj : Json R) (key : Bytes) : Bool :=
  match Json.objectGetValue (entriesOf obj) key with
  | some (.bool value) => value
  | _ => false

/-- The items of `fields`, where that is an array. -/
def fieldsOf (manifest : Json R) : Option (List (Json R)) :=
  match Json.objectGetValue (entriesOf manifest) (ascii "fields") with
  | some (.array items) => some items
  | _ => none

def fieldName (f : Json R) : Option Bytes := textOf f (ascii "name")

def fieldType (f : Json R) : Option Bytes := textOf f (ascii "type")

def fieldKey (f : Json R) : Bool := flagOf f (ascii "primary_key")

def tableOf (manifest : Json R) : Option Bytes :=
  (textOf manifest (ascii "table")).orElse fun _ => textOf manifest (ascii "name")

def columnFrom (path : String) (i : Nat) (f : Json R) : Except String Column :=
  match (fieldName f).bind (copyChecked nameMax), (fieldType f).bind sqlTypeFor with
  | none, _ => .error ("'" ++ path ++ "': field " ++ toString i ++ " has a missing or invalid \"name\"")
  | some name, none =>
    .error ("'" ++ path ++ "': field '" ++ asText name ++ "' has a missing or unsupported \"type\"")
  | some name, some type => .ok ⟨asText name, type, fieldKey f⟩

/-- The fields from number `i` on. -/
def columnsFrom (path : String) : Nat → List (Json R) → Except String (List Column)
  | _, [] => .ok []
  | i, f :: fields => do
    let c ← columnFrom path i f
    let columns ← columnsFrom path (i + 1) fields
    return c :: columns

def isObject : Json R → Bool
  | .object _ => true
  | _ => false

/-- `bb_migrate_spec_from_manifest` of what `bb_json_load` gives for the path. -/
def specFromManifest (path : String) (loaded : Option (Json R)) : Except String TableSpec :=
  match loaded.filter isObject with
  | none => .error ("'" ++ path ++ "': cannot read manifest (missing file or invalid JSON)")
  | some manifest =>
    if textOf manifest (ascii "kind") ≠ some (ascii "persist.schema") then
      .error ("'" ++ path ++ "': expected a manifest of kind \"persist.schema\"")
    else
      match (tableOf manifest).bind (copyChecked nameMax), fieldsOf manifest with
      | none, _ => .error ("'" ++ path ++ "': missing or invalid \"table\"/\"name\"")
      | some _, none => .error ("'" ++ path ++ "': \"fields\" must be a non-empty array")
      | some table, some fields =>
        if fields.length = 0 then .error ("'" ++ path ++ "': \"fields\" must be a non-empty array")
        else if fields.length > columnsMax then
          .error ("'" ++ path ++ "': too many fields (max " ++ toString columnsMax ++ ")")
        else do
          let columns ← columnsFrom path 0 fields
          return ⟨asText table, columns⟩

/-- What fits into a buffer of `cap` bytes. -/
def copyText (cap : Nat) (text : String) : String := String.ofList (text.toList.take (cap - 1))

/-- `describe_table` of the SQLite driver; a table with too many columns is an error. -/
def describeTable (table : TableSpec) : Option TableSpec :=
  if table.columns.length > columnsMax then none
  else some
    { table := copyText nameMax table.table
      columns := table.columns.map fun c =>
        { name := copyText nameMax c.name
          type := String.ofList ((copyText typeMax c.type).toList.map Char.toUpper)
          primaryKey := c.primaryKey } }

/-! ## What a manifest that is accepted says -/

def StandsFor (f : Json R) (c : Column) : Prop :=
  ∃ name type, fieldName f = some name ∧ copyChecked nameMax name = some name ∧ (fieldType f).bind sqlTypeFor = some type ∧
    c = ⟨asText name, type, fieldKey f⟩

theorem copyChecked_some {cap : Nat} {src copy : Bytes} (copied : copyChecked cap src = some copy) :
    copy = src ∧ src ≠ [] ∧ src.length < cap := by
  unfold copyChecked at copied
  by_cases bad : src.length = 0 ∨ cap ≤ src.length
  · rw [if_pos bad] at copied
    cases copied
  · rw [if_neg bad] at copied
    cases copied
    exact ⟨rfl, fun none => bad (.inl (congrArg List.length none)), Nat.lt_of_not_le fun long => bad (.inr long)⟩

theorem columnFrom_ok {path : String} {i : Nat} {f : Json R} {c : Column} (made : columnFrom path i f = .ok c) :
    StandsFor f c := by
  unfold columnFrom at made
  cases name : fieldName f with
  | none =>
    simp only [name, Option.bind_none] at made
    cases made
  | some bytes =>
    cases copied : copyChecked nameMax bytes with
    | none =>
      simp only [name, Option.bind_some, copied] at made
      cases made
    | some copy =>
      cases type : (fieldType f).bind sqlTypeFor with
      | none =>
        simp only [name, Option.bind_some, copied, type] at made
        cases made
      | some sql =>
        simp only [name, Option.bind_some, copied, type] at made
        cases made
        have same := (copyChecked_some copied).1
        rw [same] at copied ⊢
        exact ⟨bytes, sql, name, copied, type, rfl⟩

theorem columnsFrom_ok {path : String} {i : Nat} {fields : List (Json R)} {columns : List Column}
    (made : columnsFrom path i fields = .ok columns) : List.Forall₂ StandsFor fields columns := by
  induction fields generalizing i columns with
  | nil =>
    cases made
    exact .nil
  | cons f fields ih =>
    rw [columnsFrom] at made
    cases first : columnFrom path i f with
    | error text =>
      rw [first] at made
      cases made
    | ok c =>
      rw [first] at made
      cases rest : columnsFrom path (i + 1) fields with
      | error text =>
        rw [rest] at made
        cases made
      | ok later =>
        rw [rest] at made
        cases made
        exact .cons (columnFrom_ok first) (ih rest)

theorem specFromManifest_ok {path : String} {manifest : Json R} {spec : TableSpec}
    (accepted : specFromManifest path (some manifest) = .ok spec) :
    ∃ table fields, tableOf manifest = some table ∧ copyChecked nameMax table = some table ∧ spec.table = asText table ∧
      fieldsOf manifest = some fields ∧ fields ≠ [] ∧ fields.length ≤ columnsMax ∧
      List.Forall₂ StandsFor fields spec.columns := by
  unfold specFromManifest at accepted
  cases object : isObject manifest with
  | false =>
    simp only [Option.filter_some, object] at accepted
    cases accepted
  | true =>
    simp only [Option.filter_some, object, if_true] at accepted
    by_cases kind : textOf manifest (ascii "kind") ≠ some (ascii "persist.schema")
    · rw [if_pos kind] at accepted
      cases accepted
    · rw [if_neg kind] at accepted
      cases named : (tableOf manifest).bind (copyChecked nameMax) with
      | none =>
        simp only [named] at accepted
        cases accepted
      | some table =>
        cases array : fieldsOf manifest with
        | none =>
          simp only [named, array] at accepted
          cases accepted
        | some fields =>
          simp only [named, array] at accepted
          by_cases none : fields.length = 0
          · rw [if_pos none] at accepted
            cases accepted
          · rw [if_neg none] at accepted
            by_cases many : fields.length > columnsMax
            · rw [if_pos many] at accepted
              cases accepted
            · rw [if_neg many] at accepted
              cases made : columnsFrom path 0 fields with
              | error text =>
                rw [made] at accepted
                cases accepted
              | ok columns =>
                rw [made] at accepted
                cases accepted
                rcases Option.bind_eq_some_iff.mp named with ⟨source, found, copied⟩
                have same := (copyChecked_some copied).1
                rw [same] at copied ⊢
                exact ⟨source, fields, found, copied, rfl, rfl, fun nothing => none (congrArg List.length nothing),
                  Nat.le_of_not_lt many, columnsFrom_ok made⟩

/-! ## Names without their case -/

theorem folded_asText (bytes : Bytes) : folded (asText bytes) = (bytes.map toLower).map fun b => Char.ofNat b.toNat := by
  have lower : ∀ b : Byte, (Char.ofNat b.toNat).toLower = Char.ofNat (toLower b).toNat := by
    intro b
    apply forall_byte (motive := fun b => (Char.ofNat b.toNat).toLower = Char.ofNat (toLower b).toNat) _ b
    decide +kernel
  unfold folded asText
  rw [String.toList_ofList, List.map_map, List.map_map]
  exact List.map_congr_left fun b _ => lower b

theorem leftInverse_char : Function.LeftInverse (fun c : Char => UInt8.ofNat c.toNat) fun b : Byte => Char.ofNat b.toNat := by
  intro b
  apply forall_byte (motive := fun b => UInt8.ofNat (Char.ofNat b.toNat).toNat = b) _ b
  decide +kernel

theorem asText_injective : Function.Injective asText := by
  intro a b same
  exact List.map_injective_iff.mpr leftInverse_char.injective (String.ofList_inj.mp same)

theorem sameName_asText {a b : Bytes} : SameName (asText a) (asText b) ↔ a.map toLower = b.map toLower := by
  unfold SameName
  rw [folded_asText, folded_asText]
  exact (List.map_injective_iff.mpr leftInverse_char.injective).eq_iff

end BlueBird.Migrate
