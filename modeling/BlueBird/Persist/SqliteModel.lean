import BlueBird.Migrate.Statement
import BlueBird.Persist.ColumnOrder
import BlueBird.Persist.ModelStore

/-! All operations of the SQLite model backend, on a database of tables. -/

namespace BlueBird.Persist

open Migrate

namespace Table

def assign (columns : List Column) (assignments : List (String × Value)) (row : Row) : Row :=
  List.zipWith (fun c stored => (assignments.lookup c.name).getD stored) columns row

/-- `UPDATE t SET names = values WHERE name = key` with the number of rows it meets. Nothing behind SET is a syntax error. -/
def updateWhere (t : Table) (assignments : List (String × Value)) (name : String) (key : Value) : Option (Table × Nat) :=
  if assignments.isEmpty || ! assignments.all fun assignment => (t.columnIndex assignment.1).isSome then none
  else (t.columnIndex name).map fun i =>
    ({ t with rows := t.rows.map fun row => if row[i]? = some key then assign t.columns assignments row else row },
      (t.rows.filter fun row => row[i]? = some key).length)

/-- `DELETE FROM t WHERE name = key` -/
def deleteWhere (t : Table) (name : String) (key : Value) : Option (Table × Nat) :=
  (t.columnIndex name).map fun i =>
    ({ t with rows := t.rows.filter fun row => row[i]? ≠ some key }, (t.rows.filter fun row => row[i]? = some key).length)

end Table

/-- The loop that skips the primary key, over the fields and what is bound for them. -/
def assignments (schema : Schema) (values : List FieldValue) : List (String × Value) :=
  ((schema.fields.zip values).eraseIdx schema.primaryKeyIndex).map fun field => (field.1.name, bindField field.1 field.2)

def sqliteUpdate (schema : Schema) (db : Option Table) (values : List FieldValue) : Option (Table × Nat) :=
  (ensureTable schema db).updateWhere (assignments schema values) schema.pk.name (bindField schema.pk (schema.key values))

def sqliteRemoveByPk (schema : Schema) (db : Option Table) (key : FieldValue) : Option (Table × Nat) :=
  (ensureTable schema db).deleteWhere schema.pk.name (bindField schema.pk key)

/-! ## A database -/

/-- Tables under their names, in which case means nothing. -/
abbrev SqliteTables := List (List Char × Table)

def SqliteTables.table? (db : SqliteTables) (schema : Schema) : Option Table := OrderedMap.get? db (folded schema.name)

def SqliteTables.put (db : SqliteTables) (schema : Schema) (table : Table) : SqliteTables :=
  OrderedMap.set db (folded schema.name) table

/-- `sqlite3_changes(db) > 0` -/
def changed (db : SqliteTables) (schema : Schema) : Option (Table × Nat) → SqliteTables × Int
  | none => (db.put schema (ensureTable schema (db.table? schema)), -1)
  | some (table, changes) => (db.put schema table, if changes > 0 then 0 else -1)

/-- Every operation makes the table first. -/
def sqliteModelApi (conv : Conversions) : ModelApi SqliteTables where
  insert schema db values :=
    match sqliteInsert schema (db.table? schema) values with
    | some table => (db.put schema table, 0)
    | none => (db.put schema (ensureTable schema (db.table? schema)), -1)
  findByPk schema db key out :=
    (db.put schema (ensureTable schema (db.table? schema)),
      match sqliteFindByPk conv schema (db.table? schema) key with
      | some values => (values, 0)
      | none => (out, -1))
  update schema db values := changed db schema (sqliteUpdate schema (db.table? schema) values)
  remove schema db key := changed db schema (sqliteRemoveByPk schema (db.table? schema) key)
  findAll schema db :=
    (db.put schema (ensureTable schema (db.table? schema)), sqliteFindAll conv schema (db.table? schema), 0)

/-- The names and the sizes that SQLite takes: names that need no quotes, a number of columns, and values that are not too
    long, alone or as the record of a row. -/
structure SqliteRules where
  plain : String → Bool
  maxColumns : Nat
  admits : List Value → Bool

def bound {schema : Schema} : ModelOp schema → List Value
  | .insert entity => List.zipWith bindField schema.fields entity.values
  | .update entity => List.zipWith bindField schema.fields entity.values
  | .findByPk key _ => [bindField schema.pk key.value]
  | .remove key => [bindField schema.pk key.value]
  | .findAll => []

/-- A schema whose names go into the statements as they are. -/
structure SqliteRules.Names (rules : SqliteRules) (schema : Schema) : Prop where
  table : rules.plain schema.name = true
  fields : ∀ f ∈ schema.fields, rules.plain f.name = true
  distinct : (schema.fields.map fun f => folded f.name).Nodup

instance (rules : SqliteRules) (schema : Schema) : Decidable (rules.Names schema) :=
  decidable_of_iff (rules.plain schema.name = true ∧ (∀ f ∈ schema.fields, rules.plain f.name = true) ∧
      (schema.fields.map fun f => folded f.name).Nodup)
    ⟨fun all => ⟨all.1, all.2.1, all.2.2⟩, fun names => ⟨names.table, names.fields, names.distinct⟩⟩

def SqliteRules.Sizes (rules : SqliteRules) {ι : Type} {schemas : ι → Schema} (call : ModelCall schemas) : Prop :=
  (schemas call.table).fields.length ≤ rules.maxColumns ∧ rules.admits (bound call.op) = true

instance (rules : SqliteRules) {ι : Type} {schemas : ι → Schema} (call : ModelCall schemas) : Decidable (rules.Sizes call) :=
  inferInstanceAs (Decidable (_ ∧ _))

/-- There is nothing to say of a call outside the rules. -/
def sqliteMachine (conv : Conversions) (rules : SqliteRules) {ι : Type} (schemas : ι → Schema) :
    Refinement.Machine SqliteTables (ModelCall schemas) ModelResult where
  step db call :=
    if rules.Names (schemas call.table) ∧ rules.Sizes call then some ((sqliteModelApi conv).call db call.op) else none

end BlueBird.Persist
