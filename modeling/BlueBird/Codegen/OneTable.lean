import BlueBird.Codegen.PersistSchema
import BlueBird.Encoding.CLiteral
import BlueBird.Migrate.ValidTables
import BlueBird.Persist.Sqlite

namespace BlueBird.Codegen

open BlueBird.CLiteral (Plain readLiteral readChars)
open BlueBird.Http (decimal)
open BlueBird.Ledger (nameMax)
open BlueBird.Migrate (Column Statement StandsFor TableSpec WellFormed describeTable specDiff specFromManifest tableOf fieldsOf
  fieldName fieldType fieldKey flagOf textOf sqlTypeFor asText_injective)
open BlueBird.Persist (FieldType fieldTypeToSql)

variable {R : Type}

/-! ## The schema that is generated -/

/-- What `ensure_table` reads of a `bb_schema_t`. -/
structure GeneratedSchema where
  name : Bytes
  fields : List (Bytes × FieldType)
  primaryKeyIndex : Nat
  deriving DecidableEq, Repr

def readName (literal : Bytes) : Option Bytes := (readLiteral literal).map Json.cString

def readFields : List FieldView → Option (List (Bytes × FieldType))
  | [] => some []
  | view :: views => do
    let name ← readName view.nameLiteral
    let fields ← readFields views
    return (name, view.typeEnum) :: fields

def ViewModel.schema (view : ViewModel) : Option GeneratedSchema := do
  let name ← readName view.tableNameLiteral
  let fields ← readFields view.fields
  return { name, fields, primaryKeyIndex := view.primaryKeyIndex }

/-- The columns that the loop of `ensure_table` writes, from field `i` on. -/
def columnsFor (key : Nat) : (i : Nat) → List (Bytes × FieldType) → List Column
  | _, [] => []
  | i, f :: fields => ⟨asText f.1, fieldTypeToSql f.2, i = key⟩ :: columnsFor key (i + 1) fields

/-- What `ensure_table` executes. -/
def ensureTable (schema : GeneratedSchema) : Statement :=
  .createTable (asText schema.name) (columnsFor schema.primaryKeyIndex 0 schema.fields)

/-- What `emit_create_table` writes. -/
def emitCreateTable (spec : TableSpec) : Statement := .createTable spec.table spec.columns

/-- The application and the migrations make one table of a manifest. -/
structure OneTable (view : ViewModel) (spec : TableSpec) : Prop where
  same : ∃ schema, view.schema = some schema ∧ ensureTable schema = emitCreateTable spec
  noDiff : ∀ schema, view.schema = some schema → ∀ app migrated,
    (ensureTable schema).execute ⟨spec.table, []⟩ = some app → (emitCreateTable spec).execute ⟨spec.table, []⟩ = some migrated →
      ∀ appSpec migratedSpec, describeTable app = some appSpec → describeTable migrated = some migratedSpec →
        specDiff migratedSpec appSpec = []

/-! ## Names in literals -/

theorem readName_literalOf {s : Bytes} (clean : 0 ∉ s) :
    readName (literalOf 128 s) = some s ↔ s.length ≤ 125 ∧ ∀ c ∈ s, Plain c := by
  have text : literalOf 128 s = ch '"' :: (s ++ [ch '"']).take 126 := by
    unfold literalOf printed
    rw [List.cons_append]
    rfl
  have chars : readLiteral (literalOf 128 s) =
      readChars ((s ++ [ch '"']).take 126).length ((s ++ [ch '"']).take 126) := by
    rw [text, readLiteral, if_pos rfl]
  unfold readName
  rw [chars]
  constructor
  · intro read
    rcases Option.map_eq_some_iff.mp read with ⟨v, read, rfl⟩
    rcases CLiteral.readChars_some read with ⟨bound, whole⟩
    have shorter : (Json.cString v).length ≤ v.length := (List.takeWhile_sublist _).length_le
    rw [List.length_take, List.length_append, List.length_singleton] at bound whole
    have short : (Json.cString v).length ≤ 125 := by omega
    rcases whole (by omega) with ⟨split, plain⟩
    rw [List.take_of_length_le (by rw [List.length_append, List.length_singleton]; omega)] at split
    rw [List.append_cancel_right split]
    exact ⟨by rw [← List.append_cancel_right split]; exact short, plain⟩
  · intro fits
    have all : (s ++ [ch '"']).take 126 = s ++ [ch '"'] := by
      apply List.take_of_length_le
      rw [List.length_append, List.length_singleton]
      omega
    rw [all, CLiteral.readChars_plain fits.2 (by rw [List.length_append, List.length_singleton]; omega), Option.map_some,
      Json.cString_of_clean clean]

theorem plain_of_isValidIdentifier {name : Bytes} (valid : isValidIdentifier name = true) : ∀ c ∈ name, Plain c := by
  have first : ∀ c : Byte, (isAlpha c || c == ch '_') = true → Plain c := by
    intro c
    apply forall_byte (motive := fun c => (isAlpha c || c == ch '_') = true → Plain c) _ c
    decide +kernel
  have later : ∀ c : Byte, (isAlpha c || isDigit c || c == ch '_') = true → Plain c := by
    intro c
    apply forall_byte (motive := fun c => (isAlpha c || isDigit c || c == ch '_') = true → Plain c) _ c
    decide +kernel
  cases name with
  | nil => simp
  | cons c rest =>
    rw [isValidIdentifier, Bool.and_eq_true, List.all_eq_true] at valid
    intro d member
    rcases List.mem_cons.mp member with rfl | behind
    · exact first d valid.1
    · exact later d (valid.2 d behind)

theorem textOf_clean {obj : Json R} {key text : Bytes} (found : textOf obj key = some text) : 0 ∉ text := by
  unfold textOf at found
  cases value : Json.objectGetValue (Migrate.entriesOf obj) key with
  | none =>
    rw [value] at found
    cases found
  | some v =>
    rw [value] at found
    cases v <;> simp only [reduceCtorEq] at found
    rcases Option.map_eq_some_iff.mp found with ⟨bytes, _, rfl⟩
    exact Json.cString_clean bytes

/-! ## Fields and columns -/

section Fields

variable {path : String} {i : Nat} {key : Option Nat} {f : Json R} {fields : List (Json R)}

/-- The view of a field whose name is an identifier, of a type that both tools know. -/
def Shows (f : Json R) (view : FieldView) : Prop :=
  ∃ name type, fieldName f = some name ∧ isValidIdentifier name = true ∧ view.nameLiteral = literalOf 128 name ∧
    fieldType f = some type ∧ sqlTypeFor type = some (fieldTypeToSql view.typeEnum)

theorem fieldShape_parts {name type : Bytes} {shape : FieldType × Bytes × Bytes}
    (made : fieldShape path f name type = .ok shape) :
    (type = ascii "int" ∧ shape = (.int, printed 256 (ascii "int " ++ name ++ ascii ";"), ascii "sizeof(int)")) ∨
      (type = ascii "uuid" ∧ shape = (.uuid, printed 256 (ascii "bb_uuid_t " ++ name ++ ascii ";"), ascii "BB_UUID_BUF_LEN")) ∨
      ∃ n, sizeOf f = some n ∧
        ((type = ascii "string" ∧ shape =
            (.string, printed 256 (ascii "char " ++ (name ++ ascii "[" ++ decimal n ++ ascii "];")), decimal n)) ∨
          (type = ascii "blob" ∧ shape =
            (.blob, printed 256 (ascii "unsigned char " ++ (name ++ ascii "[" ++ decimal n ++ ascii "];")), decimal n))) := by
  unfold fieldShape at made
  by_cases int : type = ascii "int"
  · rw [if_pos int] at made
    cases made
    exact .inl ⟨int, rfl⟩
  · rw [if_neg int] at made
    by_cases uuid : type = ascii "uuid"
    · rw [if_pos uuid] at made
      cases made
      exact .inr (.inl ⟨uuid, rfl⟩)
    · rw [if_neg uuid] at made
      by_cases sized : type = ascii "string" ∨ type = ascii "blob"
      · rw [if_pos sized] at made
        cases size : sizeOf f with
        | none =>
          simp only [size] at made
          cases made
        | some n =>
          simp only [size] at made
          by_cases text : type = ascii "string"
          · rw [if_pos text] at made
            cases made
            exact .inr (.inr ⟨n, rfl, .inl ⟨text, rfl⟩⟩)
          · rw [if_neg text] at made
            cases made
            exact .inr (.inr ⟨n, rfl, .inr ⟨sized.resolve_left text, rfl⟩⟩)
      · rw [if_neg sized] at made
        cases made

theorem fieldShape_ok {name type : Bytes} {shape : FieldType × Bytes × Bytes} (made : fieldShape path f name type = .ok shape) :
    sqlTypeFor type = some (fieldTypeToSql shape.1) := by
  rcases fieldShape_parts made with ⟨rfl, rfl⟩ | ⟨rfl, rfl⟩ | ⟨n, _, ⟨rfl, rfl⟩ | ⟨rfl, rfl⟩⟩
  · rfl
  · rfl
  · rfl
  · rfl

theorem buildFieldView_parts {index : Nat} {view : FieldView} (built : buildFieldView path index f = .ok view) :
    ∃ name type shape references, fieldName f = some name ∧ isValidIdentifier name = true ∧ fieldType f = some type ∧
      fieldShape path f name type = .ok shape ∧ referencesOf path f name = .ok references ∧
      view = {
        name, nameLiteral := literalOf 128 name, cDecl := shape.2.1, typeEnum := shape.1, sizeExpr := shape.2.2
        flagsExpr := flagsOf f, referencesSchemaExpr := references.1, referencesFieldExpr := references.2 } := by
  unfold buildFieldView at built
  cases named : fieldName f with
  | none =>
    rw [named] at built
    cases built
  | some name =>
    simp only [named] at built
    by_cases valid : isValidIdentifier name = true
    · rw [if_neg (not_not_intro valid)] at built
      cases typed : fieldType f with
      | none =>
        rw [typed] at built
        cases built
      | some type =>
        simp only [typed] at built
        cases shaped : fieldShape path f name type with
        | error text =>
          rw [shaped] at built
          cases built
        | ok shape =>
          rw [shaped] at built
          cases referring : referencesOf path f name with
          | error text =>
            rw [referring] at built
            cases built
          | ok references =>
            rw [referring] at built
            cases built
            exact ⟨name, type, shape, references, rfl, valid, rfl, shaped, referring, rfl⟩
    · rw [if_pos valid] at built
      cases built

theorem buildFieldView_ok {index : Nat} {view : FieldView} (built : buildFieldView path index f = .ok view) : Shows f view := by
  rcases buildFieldView_parts built with ⟨name, type, shape, _, named, valid, typed, shaped, _, rfl⟩
  exact ⟨name, type, named, valid, rfl, typed, fieldShape_ok shaped⟩

theorem buildFields_cons {result : List FieldView × Option Nat} (built : buildFields path i key (f :: fields) = .ok result) :
    ∃ view key' views, buildFieldView path i f = .ok view ∧ keyIndex path i key f = .ok key' ∧
      buildFields path (i + 1) key' fields = .ok (views, result.2) ∧ result.1 = view :: views := by
  rw [buildFields] at built
  cases first : buildFieldView path i f with
  | error text =>
    rw [first] at built
    cases built
  | ok view =>
    rw [first] at built
    cases at_ : keyIndex path i key f with
    | error text =>
      rw [at_] at built
      cases built
    | ok key' =>
      rw [at_] at built
      cases rest : buildFields path (i + 1) key' fields with
      | error text =>
        simp only [bind, Except.bind, rest] at built
        cases built
      | ok others =>
        simp only [bind, Except.bind, rest] at built
        cases built
        exact ⟨view, key', others.1, rfl, rfl, rest, rfl⟩

theorem keyIndex_ok {key' : Option Nat} (made : keyIndex path i key f = .ok key') :
    (fieldKey f = true ∧ key = none ∧ key' = some i) ∨ (fieldKey f = false ∧ key' = key) := by
  unfold keyIndex at made
  cases flag : flagOf f (ascii "primary_key") with
  | true =>
    rw [flag, if_pos rfl] at made
    cases key with
    | none =>
      cases made
      exact .inl ⟨flag, rfl, rfl⟩
    | some q => cases made
  | false =>
    rw [flag, if_neg Bool.false_ne_true] at made
    cases made
    exact .inr ⟨flag, rfl⟩

theorem buildFields_key {views : List FieldView} {p : Nat} (built : buildFields path i key fields = .ok (views, some p)) :
    (∀ q, key = some q → p = q) ∧ (key = none → i ≤ p) := by
  induction fields generalizing i key views with
  | nil =>
    cases built
    exact ⟨fun q same => Option.some.inj same, fun none => by cases none⟩
  | cons f fields ih =>
    rcases buildFields_cons built with ⟨view, key', later, _, keyed, rest, _⟩
    rcases ih rest with ⟨stays, behind⟩
    rcases keyIndex_ok keyed with ⟨_, rfl, rfl⟩ | ⟨_, rfl⟩
    · exact ⟨fun q none => (by cases none), fun _ => Nat.le_of_eq (stays i rfl).symm⟩
    · exact ⟨stays, fun none => Nat.le_of_succ_le (behind none)⟩

theorem keyIndex_before {key' : Option Nat} (keyed : keyIndex path i key f = .ok key') (before : ∀ q, key = some q → q < i) :
    ∀ q, key' = some q → q < i + 1 := by
  intro q found
  rcases keyIndex_ok keyed with ⟨_, _, rfl⟩ | ⟨_, rfl⟩
  · cases found
    exact Nat.lt_succ_self i
  · exact Nat.lt_succ_of_lt (before q found)

theorem keyIndex_flag {key' : Option Nat} {views : List FieldView} {p : Nat} (keyed : keyIndex path i key f = .ok key')
    (rest : buildFields path (i + 1) key' fields = .ok (views, some p)) (before : ∀ q, key = some q → q < i) :
    decide (i = p) = fieldKey f := by
  have keys := buildFields_key rest
  rcases keyIndex_ok keyed with ⟨flag, _, rfl⟩ | ⟨flag, same⟩
  · rw [flag, keys.1 i rfl]
    exact decide_eq_true rfl
  · rw [flag]
    apply decide_eq_false
    intro equal
    cases found : key' with
    | none =>
      have late := keys.2 found
      omega
    | some q =>
      have early := before q (same.symm.trans found)
      have stays := keys.1 q found
      omega

theorem columnsFor_iff {views : List FieldView} {p : Nat} {columns : List Column}
    (built : buildFields path i key fields = .ok (views, some p)) (before : ∀ q, key = some q → q < i)
    (each : List.Forall₂ StandsFor fields columns) :
    (∃ read, readFields views = some read ∧ columnsFor p i read = columns) ↔
      ∀ f ∈ fields, ∀ name, fieldName f = some name → name.length ≤ 125 := by
  induction fields generalizing i key views columns with
  | nil =>
    cases built
    cases each
    simp [readFields, columnsFor]
  | cons f fields ih =>
    rcases buildFields_cons built with ⟨view, key', later, first, keyed, rest, rfl⟩
    cases each with
    | cons column others =>
      rcases column with ⟨name, type, named, _, sql, rfl⟩
      rcases buildFieldView_ok first with ⟨name', type', named', valid, literal, typed, sql'⟩
      rw [named] at named'
      cases named'
      rw [typed, Option.bind_some, sql'] at sql
      cases sql
      have before' := keyIndex_before keyed before
      have flag := keyIndex_flag keyed rest before
      have clean : 0 ∉ name := textOf_clean named
      have fits := readName_literalOf clean
      rw [List.forall_mem_cons, ← ih rest before' others]
      constructor
      · intro made
        rcases made with ⟨read, names, columns⟩
        rw [readFields, literal] at names
        cases own : readName (literalOf 128 name) with
        | none =>
          rw [own] at names
          cases names
        | some n =>
          cases tail : readFields later with
          | none =>
            rw [own, tail] at names
            cases names
          | some back =>
            rw [own, tail] at names
            cases names
            rw [columnsFor] at columns
            have head := (List.cons.inj columns).1
            have same : n = name := asText_injective (congrArg Column.name head)
            rw [same] at own
            refine ⟨?_, back, rfl, (List.cons.inj columns).2⟩
            intro name' found
            rw [named] at found
            cases found
            exact (fits.mp own).1
      · intro short
        rcases short with ⟨own, back, tail, columns⟩
        have read := fits.mpr ⟨own name named, plain_of_isValidIdentifier valid⟩
        refine ⟨(name, view.typeEnum) :: back, ?_, ?_⟩
        · rw [readFields, literal, read, tail]
          rfl
        · rw [columnsFor, columns, flag]

end Fields

/-! ## One manifest -/

/-- Names that fit into the literals, and a table's name that is one as it stands. -/
structure FitsLiterals (table : Bytes) (fields : List (Json R)) : Prop where
  tableShort : table.length ≤ 125
  tablePlain : ∀ c ∈ table, Plain c
  fieldsShort : ∀ f ∈ fields, ∀ name, fieldName f = some name → name.length ≤ 125

theorem buildViewModel_ok {path : Bytes} {manifest : Json R} {view : ViewModel}
    (built : buildViewModel path manifest = .ok view) :
    ∃ fields key, fieldsOf manifest = some fields ∧ buildFields (asText path) 0 none fields = .ok (view.fields, some key) ∧
      view.primaryKeyIndex = key ∧
      view.tableNameLiteral =
        literalOf 128 ((textOf manifest (ascii "table")).getD ((textOf manifest (ascii "name")).getD [])) ∧
      view.structName = (textOf manifest (ascii "name")).getD [] ∧ view.fieldCount = fields.length := by
  unfold buildViewModel at built
  by_cases valid : isValidIdentifier ((textOf manifest (ascii "name")).getD []) = true
  · simp only [valid, not_true_eq_false, if_false] at built
    cases array : (fieldsOf manifest).filter (· ≠ []) with
    | none =>
      simp only [array] at built
      cases built
    | some fields =>
      simp only [array] at built
      cases views : buildFields (asText path) 0 none fields with
      | error text =>
        simp only [views, bind, Except.bind] at built
        cases built
      | ok result =>
        rcases result with ⟨shown, key⟩
        simp only [views, bind, Except.bind] at built
        cases key with
        | none => cases built
        | some key =>
          cases twice : duplicateName (shown.map (·.name)) with
          | some name =>
            simp only [twice] at built
            cases built
          | none =>
            simp only [twice] at built
            cases built
            exact ⟨fields, key, (Option.filter_eq_some_iff.mp array).1, views, rfl, rfl, rfl, rfl⟩
  · simp only [valid] at built
    cases built

theorem run_ok {path : Bytes} {manifest : Json R} {view : ViewModel} (built : run path (some manifest) = .ok view) :
    (textOf manifest (ascii "name")).isSome ∧ buildViewModel path manifest = .ok view := by
  unfold run at built
  cases checked : loadManifest path (some manifest) with
  | error text =>
    rw [checked] at built
    cases built
  | ok same =>
    rw [checked] at built
    simp only [loadManifest] at checked
    split_ifs at checked with object version kind named
    all_goals cases checked
    have named_ : (textOf manifest (ascii "name")).isSome := by
      cases name : textOf manifest (ascii "name") with
      | none =>
        rw [name] at named
        exact absurd rfl named
      | some bytes => rfl
    by_cases other : (textOf manifest (ascii "kind")).getD [] ≠ ascii "persist.schema"
    · simp only [bind, Except.bind, if_pos other] at built
      cases built
    · simp only [bind, Except.bind, if_neg other] at built
      exact ⟨named_, built⟩

theorem tableOf_clean {manifest : Json R} {table : Bytes} (named : tableOf manifest = some table) : 0 ∉ table := by
  unfold tableOf at named
  cases own : textOf manifest (ascii "table") with
  | none =>
    rw [own] at named
    exact textOf_clean named
  | some name =>
    rw [own] at named
    cases named
    exact textOf_clean own

theorem tableOf_eq {manifest : Json R} {table : Bytes} (named : tableOf manifest = some table) :
    (textOf manifest (ascii "table")).getD ((textOf manifest (ascii "name")).getD []) = table := by
  unfold tableOf at named
  cases own : textOf manifest (ascii "table") with
  | none =>
    rw [own] at named
    rw [show textOf manifest (ascii "name") = some table from named]
    rfl
  | some name =>
    rw [own] at named
    exact Option.some.inj named

theorem execute_emitCreateTable {spec made : TableSpec} (executed : (emitCreateTable spec).execute ⟨spec.table, []⟩ = some made) :
    WellFormed spec.columns ∧ made = spec := by
  rw [emitCreateTable, Statement.execute, if_neg (not_not_intro rfl), if_neg (not_not_intro rfl)] at executed
  by_cases whole : WellFormed spec.columns
  · rw [if_pos whole] at executed
    exact ⟨whole, (Option.some.inj executed).symm⟩
  · rw [if_neg whole] at executed
    cases executed

theorem schema_iff {path : Bytes} {specPath : String} {manifest : Json R} {view : ViewModel} {spec : TableSpec}
    (generated : run path (some manifest) = .ok view) (accepted : specFromManifest specPath (some manifest) = .ok spec) :
    (∃ schema, view.schema = some schema ∧ ensureTable schema = emitCreateTable spec) ↔
      ∀ table fields, tableOf manifest = some table → fieldsOf manifest = some fields → FitsLiterals table fields := by
  rcases Migrate.specFromManifest_ok accepted with ⟨table, fields, named, copied, name, array, _, few, each⟩
  rcases buildViewModel_ok (run_ok generated).2 with ⟨fields', key, array', built, index, literal, _⟩
  rw [array] at array'
  cases array'
  rw [tableOf_eq named] at literal
  have tableFits := readName_literalOf (tableOf_clean named)
  have columns := columnsFor_iff built (fun q none => by cases none) each
  constructor
  · intro made table' fields' named' array'
    rw [named] at named'
    rw [array] at array'
    cases named'
    cases array'
    rcases made with ⟨schema, read, same⟩
    unfold ViewModel.schema at read
    rw [literal] at read
    cases own : readName (literalOf 128 table) with
    | none =>
      rw [own] at read
      cases read
    | some n =>
      cases names : readFields view.fields with
      | none =>
        rw [own, names] at read
        cases read
      | some back =>
        rw [own, names] at read
        cases read
        unfold ensureTable emitCreateTable at same
        simp only [Statement.createTable.injEq] at same
        rw [name] at same
        rw [asText_injective same.1] at own
        rw [index] at same
        rcases tableFits.mp own with ⟨short, plain⟩
        exact ⟨short, plain, columns.mp ⟨back, names, same.2⟩⟩
  · intro fits
    rcases fits table fields named array with ⟨short, plain, short'⟩
    rcases columns.mpr short' with ⟨back, names, same⟩
    refine ⟨{ name := table, fields := back, primaryKeyIndex := key }, ?_, ?_⟩
    · unfold ViewModel.schema
      rw [literal, tableFits.mpr ⟨short, plain⟩, names, index]
      rfl
    · unfold ensureTable emitCreateTable
      rw [same, name]

/-- A manifest that both tools accept, where `field` is the name of the second column. -/
def taskManifest (table field : String) : Json Nat :=
  .object
    [(ascii "version", .int 1), (ascii "kind", .text (some (ascii "persist.schema"))),
      (ascii "name", .text (some (ascii "Task"))), (ascii "table", .text (some (ascii table))),
      (ascii "fields", .array [Migrate.manifestField "id" "uuid" true, Migrate.manifestField field "int" false])]

def taskSpec (table field : String) : TableSpec :=
  ⟨asText (ascii table), [⟨asText (ascii "id"), "TEXT", true⟩, ⟨asText (ascii field), "INTEGER", false⟩]⟩

def taskView (table field : String) : ViewModel where
  manifestPath := ascii "task.json"
  structName := ascii "Task"
  tableNameLiteral := literalOf 128 (ascii table)
  headerGuard := ascii "BB_GENERATED_TASK_SCHEMA_H"
  fieldCount := 2
  primaryKeyIndex := 0
  needsUuid := true
  fields :=
    [{ name := ascii "id", nameLiteral := literalOf 128 (ascii "id"), cDecl := ascii "bb_uuid_t id;", typeEnum := .uuid
       sizeExpr := ascii "BB_UUID_BUF_LEN", flagsExpr := ascii "BB_FIELD_PRIMARY_KEY"
       referencesSchemaExpr := ascii "NULL", referencesFieldExpr := ascii "NULL" },
      { name := ascii field, nameLiteral := literalOf 128 (ascii field), cDecl := ascii ("int " ++ field ++ ";"), typeEnum := .int
        sizeExpr := ascii "sizeof(int)", flagsExpr := ascii "BB_FIELD_NONE"
        referencesSchemaExpr := ascii "NULL", referencesFieldExpr := ascii "NULL" }]

end BlueBird.Codegen
