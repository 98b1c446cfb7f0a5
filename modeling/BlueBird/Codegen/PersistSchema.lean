import BlueBird.Migrate.Manifest
import BlueBird.Persist.Schema

namespace BlueBird.Codegen

open BlueBird.Http (decimal)
open BlueBird.Migrate (entriesOf textOf flagOf fieldsOf fieldName fieldType isObject)
open BlueBird.Persist (FieldType)

variable {R : Type}

def isAlpha (c : Byte) : Bool := ch 'a' ≤ toLower c ∧ toLower c ≤ ch 'z'

def isValidIdentifier : Bytes → Bool
  | [] => false
  | c :: rest => (isAlpha c || c == ch '_') && rest.all fun c => isAlpha c || isDigit c || c == ch '_'

/-- What `snprintf` leaves in a buffer of `cap` bytes. -/
def printed (cap : Nat) (text : Bytes) : Bytes := text.take (cap - 1)

/-- `"\"%s\""` -/
def literalOf (cap : Nat) (s : Bytes) : Bytes := printed cap (ch '"' :: s ++ [ch '"'])

/-- `bb_codegen_basename` -/
def basename (path : Bytes) : Bytes := Ledger.basenameOf path

structure FieldView where
  name : Bytes
  nameLiteral : Bytes
  cDecl : Bytes
  typeEnum : FieldType
  sizeExpr : Bytes
  flagsExpr : Bytes
  referencesSchemaExpr : Bytes
  referencesFieldExpr : Bytes
  deriving DecidableEq, Repr

/-- A `size` that is a positive integer. -/
def sizeOf (f : Json R) : Option Nat :=
  match Json.objectGetValue (entriesOf f) (ascii "size") with
  | some (.int n) => if 0 < n.toInt then some n.toInt.toNat else none
  | _ => none

/-- `type_enum`, `c_decl` and `size_expr` -/
def fieldShape (path : String) (f : Json R) (name type : Bytes) : Except String (FieldType × Bytes × Bytes) :=
  if type = ascii "int" then .ok (.int, printed 256 (ascii "int " ++ name ++ ascii ";"), ascii "sizeof(int)")
  else if type = ascii "uuid" then
    .ok (.uuid, printed 256 (ascii "bb_uuid_t " ++ name ++ ascii ";"), ascii "BB_UUID_BUF_LEN")
  else if type = ascii "string" ∨ type = ascii "blob" then
    match sizeOf f with
    | none =>
      .error (path ++ ": field \"" ++ asText name ++ "\" of type \"" ++ asText type ++ "\" requires a positive integer \"size\"")
    | some size =>
      let array := name ++ ascii "[" ++ decimal size ++ ascii "];"
      if type = ascii "string" then .ok (.string, printed 256 (ascii "char " ++ array), decimal size)
      else .ok (.blob, printed 256 (ascii "unsigned char " ++ array), decimal size)
  else
    .error (path ++ ": field \"" ++ asText name ++ "\" has unknown type \"" ++ asText type ++ "\" (expected int/string/uuid/blob)")

def flagsOf (f : Json R) : Bytes :=
  let flags := [("primary_key", "BB_FIELD_PRIMARY_KEY"), ("required", "BB_FIELD_REQUIRED"), ("unique", "BB_FIELD_UNIQUE"),
    ("auto_generate", "BB_FIELD_AUTO_GENERATE")].filter fun flag => flagOf f (ascii flag.1)
  if flags = [] then ascii "BB_FIELD_NONE" else (ascii " | ").intercalate (flags.map fun flag => ascii flag.2)

def referencesOf (path : String) (f : Json R) (name : Bytes) : Except String (Bytes × Bytes) :=
  match (Json.objectGetValue (entriesOf f) (ascii "references")).filter isObject with
  | none => .ok (ascii "NULL", ascii "NULL")
  | some references =>
    match textOf references (ascii "schema"), textOf references (ascii "field") with
    | some schema, some field => .ok (literalOf 128 schema, literalOf 128 field)
    | _, _ =>
      .error (path ++ ": field \"" ++ asText name ++
        "\" has a \"references\" object but is missing string \"schema\"/\"field\" in it")

/-- `bb_codegen_build_field_view` -/
def buildFieldView (path : String) (index : Nat) (f : Json R) : Except String FieldView :=
  match fieldName f with
  | none => .error (path ++ ": fields[" ++ toString index ++ "] is missing a string \"name\"")
  | some name =>
    if ¬ isValidIdentifier name then .error (path ++ ": field \"" ++ asText name ++ "\" is not a valid C identifier")
    else
      match fieldType f with
      | none => .error (path ++ ": field \"" ++ asText name ++ "\" is missing a string \"type\"")
      | some type => do
        let shape ← fieldShape path f name type
        let references ← referencesOf path f name
        return {
          name, nameLiteral := literalOf 128 name, cDecl := shape.2.1, typeEnum := shape.1, sizeExpr := shape.2.2
          flagsExpr := flagsOf f, referencesSchemaExpr := references.1, referencesFieldExpr := references.2 }

/-- `primary_key_index` behind field number `i`. -/
def keyIndex (path : String) (i : Nat) (key : Option Nat) (f : Json R) : Except String (Option Nat) :=
  if flagOf f (ascii "primary_key") then
    if key.isSome then .error (path ++ ": more than one field is marked \"primary_key\": true") else .ok (some i)
  else .ok key

/-- The fields from number `i` on, and `primary_key_index`. -/
def buildFields (path : String) : (i : Nat) → (key : Option Nat) → List (Json R) → Except String (List FieldView × Option Nat)
  | _, key, [] => .ok ([], key)
  | i, key, f :: fields => do
    let view ← buildFieldView path i f
    let key ← keyIndex path i key f
    let others ← buildFields path (i + 1) key fields
    return (view :: others.1, others.2)

def duplicateName : List Bytes → Option Bytes
  | [] => none
  | name :: names => if name ∈ names then some name else duplicateName names

structure ViewModel where
  manifestPath : Bytes
  structName : Bytes
  tableNameLiteral : Bytes
  headerGuard : Bytes
  fieldCount : Nat
  primaryKeyIndex : Nat
  needsUuid : Bool
  fields : List FieldView

def toUpperByte (c : Byte) : Byte := if ch 'a' ≤ c ∧ c ≤ ch 'z' then c - 32 else c

/-- `bb_codegen_build_view_model` -/
def buildViewModel (path : Bytes) (manifest : Json R) : Except String ViewModel :=
  let structName := (textOf manifest (ascii "name")).getD []
  let tableName := (textOf manifest (ascii "table")).getD structName
  if ¬ isValidIdentifier structName then
    .error (asText path ++ ": \"name\" (\"" ++ asText structName ++ "\") is not a valid C identifier")
  else
    match (fieldsOf manifest).filter (· ≠ []) with
    | none => .error (asText path ++ ": \"fields\" must be a non-empty array")
    | some fields => do
      let views ← buildFields (asText path) 0 none fields
      match views.2 with
      | none => .error (asText path ++ ": exactly one field must be marked \"primary_key\": true (none found)")
      | some key =>
        match duplicateName (views.1.map (·.name)) with
        | some name => .error (asText path ++ ": duplicate field name \"" ++ asText name ++ "\"")
        | none =>
          return {
            manifestPath := basename path, structName, tableNameLiteral := literalOf 128 tableName
            headerGuard := printed 192 (ascii "BB_GENERATED_" ++ structName.map toUpperByte ++ ascii "_SCHEMA_H")
            fieldCount := fields.length, primaryKeyIndex := key, needsUuid := views.1.any (·.typeEnum = .uuid)
            fields := views.1 }

def isInt : Json R → Bool
  | .int _ => true
  | _ => false

/-- `bb_codegen_load_manifest` -/
def loadManifest (path : Bytes) (loaded : Option (Json R)) : Except String (Json R) :=
  match loaded with
  | none => .error ("failed to read/parse manifest '" ++ asText path ++ "'")
  | some manifest =>
    if ¬ isObject manifest then .error ("manifest '" ++ asText path ++ "' is not a JSON object")
    else if ((Json.objectGetValue (entriesOf manifest) (ascii "version")).filter isInt).isNone then
      .error ("manifest '" ++ asText path ++ "' is missing an integer \"version\"")
    else if (textOf manifest (ascii "kind")).isNone then
      .error ("manifest '" ++ asText path ++ "' is missing a string \"kind\"")
    else if (textOf manifest (ascii "name")).isNone then
      .error ("manifest '" ++ asText path ++ "' is missing a string \"name\"")
    else .ok manifest

/-- `bb_codegen_run`, up to the templates; one generator is registered. -/
def run (path : Bytes) (loaded : Option (Json R)) : Except String ViewModel := do
  let manifest ← loadManifest path loaded
  let kind := (textOf manifest (ascii "kind")).getD []
  if kind ≠ ascii "persist.schema" then
    .error ("no generator registered for kind '" ++ asText kind ++ "' (from '" ++ asText path ++ "')")
  else buildViewModel path manifest

end BlueBird.Codegen
