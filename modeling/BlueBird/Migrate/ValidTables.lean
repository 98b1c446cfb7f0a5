import BlueBird.Migrate.Manifest

namespace BlueBird.Migrate

open Ledger (nameMax)

variable {R : Type}

/-- The names that SQLite does not take unquoted, of a table and of a column. -/
structure ReservedNames where
  table : String → Bool
  column : String → Bool

def Statement.namesReserved (r : ReservedNames) : Statement → Bool
  | .createTable table columns => r.table table || columns.any fun c => r.column c.name
  | .renameColumn table from_ to_ => r.table table || r.column from_ || r.column to_
  | .addColumn table name _ => r.table table || r.column name

def executeUnder (r : ReservedNames) (statements : List Statement) (spec : TableSpec) : Option TableSpec :=
  if statements.any (·.namesReserved r) then none else executeAll statements spec

/-- What a specification must be for its table to come about where there is none. -/
structure ValidTable (r : ReservedNames) (spec : TableSpec) : Prop where
  nonempty : spec.columns ≠ []
  distinct : DistinctNames spec.columns
  oneKey : OneKey spec.columns
  creates : ∀ renames statements, generateSql spec ⟨spec.table, []⟩ renames = .ok statements →
    (∀ c ∈ spec.columns, r.column c.name = false) →
    ∃ table described, executeUnder r statements ⟨spec.table, []⟩ = some table ∧ describeTable table = some described ∧
      specDiff spec described = []

def lowered (f : Json R) : Option Bytes := (fieldName f).map (·.map toLower)

/-- All names can stand in SQL, and none of the columns' is reserved. -/
def Writable (r : ReservedNames) (table : Bytes) (fields : List (Json R)) : Prop :=
  isPlainIdentifier (asText table) = true ∧
    ∀ f ∈ fields, ∀ name, fieldName f = some name →
      isPlainIdentifier (asText name) = true ∧ r.column (asText name) = false

/-- No two fields of one name in any case, one key at most, and a name that a table can have. -/
structure Orderly (r : ReservedNames) (table : Bytes) (fields : List (Json R)) : Prop where
  distinct : (fields.map lowered).Nodup
  oneKey : fields.countP fieldKey ≤ 1
  free : Writable r table fields → r.table (asText table) = false

section Fields

variable {fields : List (Json R)} {columns : List Column}

theorem distinctNames_iff (each : List.Forall₂ StandsFor fields columns) :
    DistinctNames columns ↔ (fields.map lowered).Nodup := by
  have lists : ∃ names : List Bytes,
      columns.map (fun c => folded c.name) = names.map (fun n => folded (asText n)) ∧
        fields.map lowered = names.map fun n => some (n.map toLower) := by
    induction each with
    | nil => exact ⟨[], rfl, rfl⟩
    | cons first _ ih =>
      rcases ih with ⟨names, left, right⟩
      rcases first with ⟨name, type, named, _, _, rfl⟩
      exact ⟨name :: names, by rw [List.map_cons, List.map_cons, left],
        by rw [List.map_cons, List.map_cons, right, lowered, named]; rfl⟩
  rcases lists with ⟨names, left, right⟩
  unfold DistinctNames List.Nodup
  rw [left, right, List.pairwise_map, List.pairwise_map]
  constructor
  · intro distinct
    exact distinct.imp fun apart same => apart (sameName_asText.mpr (Option.some.inj same))
  · intro distinct
    exact distinct.imp fun apart same => apart (congrArg some (sameName_asText.mp same))

theorem oneKey_iff (each : List.Forall₂ StandsFor fields columns) : OneKey columns ↔ fields.countP fieldKey ≤ 1 := by
  have counts : columns.countP (·.primaryKey) = fields.countP fieldKey := by
    induction each with
    | nil => rfl
    | cons first _ ih =>
      rcases first with ⟨name, type, _, _, _, rfl⟩
      rw [List.countP_cons, List.countP_cons, ih]
  unfold OneKey
  rw [counts]

theorem writable_iff (each : List.Forall₂ StandsFor fields columns) (r : ReservedNames) (table : Bytes) :
    Writable r table fields ↔
      namesOk ⟨asText table, columns⟩ = true ∧ ∀ c ∈ columns, r.column c.name = false := by
  have names : (∀ f ∈ fields, ∀ name, fieldName f = some name →
      isPlainIdentifier (asText name) = true ∧ r.column (asText name) = false) ↔
      ∀ c ∈ columns, isPlainIdentifier c.name = true ∧ r.column c.name = false := by
    induction each with
    | nil => simp
    | cons first _ ih =>
      rcases first with ⟨name, type, named, _, _, rfl⟩
      rw [List.forall_mem_cons, List.forall_mem_cons, ih, named]
      simp
  unfold Writable namesOk
  rw [names, Bool.and_eq_true, List.all_eq_true, and_assoc, forall₂_and]

end Fields

/-! ## A table that is missing -/

section Missing

variable {spec : TableSpec}

theorem generateSql_missing {renames : List Rename} {statements : List Statement}
    (ok : generateSql spec ⟨spec.table, []⟩ renames = .ok statements) :
    namesOk spec = true ∧ statements = [.createTable spec.table spec.columns] := by
  unfold generateSql at ok
  by_cases many : renames.length > renamesMax
  · rw [if_pos many] at ok
    cases ok
  · rw [if_neg many] at ok
    cases plain : namesOk spec with
    | false =>
      rw [plain, if_pos Bool.false_ne_true] at ok
      cases ok
    | true =>
      rw [plain, if_neg (not_not_intro rfl)] at ok
      by_cases refused : (validateRenames spec ⟨spec.table, []⟩ [] renames).2 ++
          (specDiff spec ⟨spec.table, []⟩).filterMap
            (scanForRefusals spec ⟨spec.table, []⟩ (validateRenames spec ⟨spec.table, []⟩ [] renames).1) ≠ []
      · simp only [if_pos refused] at ok
        cases ok
      · have emitted : emit spec ⟨spec.table, []⟩ (validateRenames spec ⟨spec.table, []⟩ [] renames).1 =
            [.createTable spec.table spec.columns] := rfl
        have differs : (specDiff spec ⟨spec.table, []⟩).length ≠ 0 := Nat.one_ne_zero
        simp only [if_neg refused, if_neg differs, emitted, reduceCtorEq, if_false] at ok
        exact ⟨rfl, (Generated.ok.inj ok).symm⟩

theorem generateSql_create (plain : namesOk spec = true) :
    generateSql spec ⟨spec.table, []⟩ [] = .ok [.createTable spec.table spec.columns] := by
  unfold generateSql
  rw [plain, if_neg (show ¬ ([] : List Rename).length > renamesMax by decide), if_neg (not_not_intro rfl)]
  rfl

theorem execute_createTable {columns : List Column} {table : String} :
    executeAll [.createTable table columns] ⟨table, []⟩ = if WellFormed columns then some ⟨table, columns⟩ else none := by
  rw [executeAll, Statement.execute, if_neg (not_not_intro rfl), if_neg (not_not_intro rfl)]
  by_cases whole : WellFormed columns
  · rw [if_pos whole]
    rfl
  · rw [if_neg whole]
    rfl

theorem copyText_of_lt {cap : Nat} {text : String} (fits : text.toList.length < cap) : copyText cap text = text := by
  unfold copyText
  rw [List.take_of_length_le (by omega), String.ofList_toList]

theorem length_asText (bytes : Bytes) : (asText bytes).toList.length = bytes.length := by
  rw [asText, String.toList_ofList, List.length_map]

theorem describeTable_of_manifest {table : Bytes} {fields : List (Json R)} {columns : List Column}
    (named : copyChecked nameMax table = some table) (few : fields.length ≤ columnsMax)
    (each : List.Forall₂ StandsFor fields columns) :
    describeTable ⟨asText table, columns⟩ = some ⟨asText table, columns⟩ := by
  have whole : ∀ {name : Bytes}, copyChecked nameMax name = some name → copyText nameMax (asText name) = asText name := by
    intro name copied
    apply copyText_of_lt
    rw [length_asText]
    exact (copyChecked_some copied).2.2
  have upper : ∀ {manifestType : Option Bytes} {type : String}, manifestType.bind sqlTypeFor = some type →
      String.ofList ((copyText typeMax type).toList.map Char.toUpper) = type := by
    intro manifestType type sql
    rcases Option.bind_eq_some_iff.mp sql with ⟨bytes, _, sql⟩
    unfold sqlTypeFor at sql
    by_cases int : bytes = ascii "int"
    · rw [if_pos int] at sql
      cases sql
      decide
    · rw [if_neg int] at sql
      by_cases text : bytes = ascii "string" ∨ bytes = ascii "uuid"
      · rw [if_pos text] at sql
        cases sql
        decide
      · rw [if_neg text] at sql
        by_cases blob : bytes = ascii "blob"
        · rw [if_pos blob] at sql
          cases sql
          decide
        · rw [if_neg blob] at sql
          cases sql
  have same : columns.map (fun c =>
      { name := copyText nameMax c.name
        type := String.ofList ((copyText typeMax c.type).toList.map Char.toUpper)
        primaryKey := c.primaryKey : Column }) = columns := by
    induction each with
    | nil => rfl
    | cons first _ ih =>
      rcases first with ⟨name, type, _, copied, sql, rfl⟩
      rw [List.map_cons, ih (by simp only [List.length_cons] at few; omega), whole copied, upper sql]
  have short : ¬ columns.length > columnsMax := by
    rw [← each.length_eq]
    omega
  unfold describeTable
  rw [if_neg short, same, whole named]

end Missing

/-- Which manifests give tables, of those that are accepted. -/
theorem validTable_iff (r : ReservedNames) {path : String} {manifest : Json R} {spec : TableSpec}
    (accepted : specFromManifest path (some manifest) = .ok spec) :
    ValidTable r spec ↔
      ∀ table fields, tableOf manifest = some table → fieldsOf manifest = some fields → Orderly r table fields := by
  rcases specFromManifest_ok accepted with ⟨table, fields, named, copied, name, array, some_, few, each⟩
  have whole : spec = ⟨asText table, spec.columns⟩ := by rw [← name]
  constructor
  · intro valid table' fields' named' array'
    rw [named] at named'
    rw [array] at array'
    cases named'
    cases array'
    refine ⟨(distinctNames_iff each).mp valid.distinct, (oneKey_iff each).mp valid.oneKey, ?_⟩
    intro writable
    rcases (writable_iff each r table).mp writable with ⟨plain, free⟩
    rw [← whole] at plain
    rcases valid.creates [] _ (generateSql_create plain) free with ⟨made, _, executed, _⟩
    by_contra unfree
    have reserved := eq_true_of_ne_false unfree
    have refused : [Statement.createTable spec.table spec.columns].any (·.namesReserved r) = true := by
      simp [Statement.namesReserved, name, reserved]
    rw [executeUnder, if_pos refused] at executed
    cases executed
  · intro orderly
    rcases orderly table fields named array with ⟨distinct, key, free⟩
    have distinctNames := (distinctNames_iff each).mpr distinct
    have columns : spec.columns ≠ [] := by
      intro none
      rw [none] at each
      cases each
      exact some_ rfl
    have formed : WellFormed spec.columns := ⟨columns, distinctNames, (oneKey_iff each).mpr key⟩
    refine ⟨columns, distinctNames, (oneKey_iff each).mpr key, ?_⟩
    intro renames statements ok unreserved
    rcases generateSql_missing ok with ⟨plain, rfl⟩
    have writable : Writable r table fields := (writable_iff each r table).mpr ⟨by rw [← whole]; exact plain, unreserved⟩
    have taken : ¬ [Statement.createTable spec.table spec.columns].any (·.namesReserved r) = true := by
      simp only [List.any_cons, List.any_nil, Bool.or_false, Statement.namesReserved, Bool.or_eq_true, name, free writable,
        Bool.false_eq_true, false_or, List.any_eq_true, not_exists, not_and]
      intro c member
      rw [unreserved c member]
      exact Bool.false_ne_true
    refine ⟨spec, spec, ?_, ?_, specDiff_self columns distinctNames.names⟩
    · rw [executeUnder, if_neg taken, execute_createTable, if_pos formed]
    · rw [whole]
      exact describeTable_of_manifest copied few each

def manifestField (name type : String) (key : Bool) : Json Nat :=
  .object
    [(ascii "name", .text (some (ascii name))), (ascii "type", .text (some (ascii type))), (ascii "primary_key", .bool key)]

def manifestOf (table : String) (fields : List (Json Nat)) : Json Nat :=
  .object
    [(ascii "kind", .text (some (ascii "persist.schema"))), (ascii "table", .text (some (ascii table))),
      (ascii "fields", .array fields)]

def someReserved : ReservedNames where
  table name := name == "order" || name == "sqlite_master"
  column name := name == "order"

theorem validTable_iff_tasks :
    ValidTable someReserved ⟨asText (ascii "tasks"),
      [⟨asText (ascii "id"), "TEXT", true⟩, ⟨asText (ascii "due"), "INTEGER", false⟩]⟩ := by
  have accepted : specFromManifest "tasks.json"
      (some (manifestOf "tasks" [manifestField "id" "uuid" true, manifestField "due" "int" false])) =
        .ok ⟨asText (ascii "tasks"), [⟨asText (ascii "id"), "TEXT", true⟩, ⟨asText (ascii "due"), "INTEGER", false⟩]⟩ := rfl
  apply (validTable_iff someReserved accepted).mpr
  intro table fields named array
  cases named
  cases array
  exact ⟨by decide, by decide, fun _ => by decide⟩

/-- One name twice. -/
theorem not_validTable_twice : ¬ ∀ (path : String) (manifest : Json Nat) (spec : TableSpec),
    specFromManifest path (some manifest) = .ok spec → ValidTable someReserved spec := by
  intro valid
  have accepted : specFromManifest "t.json"
      (some (manifestOf "t" [manifestField "a" "int" true, manifestField "a" "int" false])) =
        .ok ⟨asText (ascii "t"), [⟨asText (ascii "a"), "INTEGER", true⟩, ⟨asText (ascii "a"), "INTEGER", false⟩]⟩ := rfl
  have distinct := (valid _ _ _ accepted).distinct
  revert distinct
  decide

end BlueBird.Migrate
