import BlueBird.Migrate.TableSpec
import BlueBird.Persist.Schema

namespace BlueBird.Persist

open Migrate

/-! ## What SQLite stores -/

inductive Value where
  | null
  | integer (n : Int)
  | real (bits : UInt64)
  | text (s : Bytes)
  | blob (b : Bytes)
  deriving DecidableEq

/-- What the `sqlite3_column_*` calls make of a value of another storage class. -/
structure Conversions where
  toInt : Value → Int
  toText : Value → Option Bytes
  toBlob : Value → Bytes

namespace Conversions

def columnInt (conv : Conversions) : Value → Int32
  | .integer n => Int32.ofInt n
  | v => Int32.ofInt (conv.toInt v)

def columnText (conv : Conversions) : Value → Option Bytes
  | .null => none
  | .text s => some s
  | v => conv.toText v

def columnBlob (conv : Conversions) : Value → Bytes
  | .blob b => b
  | v => conv.toBlob v

end Conversions

abbrev Row := List Value

/-- A table with its columns in the order of `SELECT *`. -/
structure Table where
  columns : List Column
  distinct : (columns.map (·.name)).Nodup
  rows : List Row

namespace Table

def columnIndex (t : Table) (name : String) : Option Nat :=
  t.columns.findIdx? (·.name = name)

/-- The values of a row in the primary key. -/
def keyOf (columns : List Column) (row : Row) : Row :=
  ((columns.zip row).filter (·.1.primaryKey)).map (·.2)

/-- A column that is not named gets NULL. -/
def newRow (columns : List Column) (names : List String) (values : List Value) : Row :=
  columns.map fun c => ((names.zip values).lookup c.name).getD .null

/-- `INSERT INTO t (names) VALUES (values)`, which a row with the same primary key makes fail. -/
def insert (t : Table) (names : List String) (values : List Value) : Option Table :=
  let row := newRow t.columns names values
  if ¬ names.all fun name => (t.columnIndex name).isSome then none
  else if t.columns.any (·.primaryKey) && t.rows.any (fun r => keyOf t.columns r = keyOf t.columns row) then
    none
  else some { t with rows := t.rows ++ [row] }

/-- `SELECT * FROM t WHERE name = ?` -/
def selectWhere (t : Table) (name : String) (key : Value) : Option (List Row) :=
  (t.columnIndex name).map fun i => t.rows.filter fun r => r[i]? = some key

end Table

/-! ## The model backend -/

def fieldTypeToSql : FieldType → String
  | .int => "INTEGER"
  | .string => "TEXT"
  | .uuid => "TEXT"
  | .blob => "BLOB"

def Schema.columns (schema : Schema) : List Column :=
  schema.fields.mapIdx fun i f =>
    { name := f.name, type := fieldTypeToSql f.type, primaryKey := i = schema.primaryKeyIndex }

theorem Schema.columns_names (schema : Schema) :
    schema.columns.map (·.name) = schema.fields.map (·.name) := by
  apply List.ext_getElem <;> simp [Schema.columns]

/-- `CREATE TABLE IF NOT EXISTS` -/
def ensureTable (schema : Schema) : Option Table → Table
  | some t => t
  | none =>
    { columns := schema.columns, rows := [],
      distinct := by rw [schema.columns_names]; exact schema.distinct }

/-- The `sqlite3_bind_*` call for a field or a key. -/
def bindField (f : Field) : FieldValue → Value
  | .int n => .integer n.toInt
  | .text s => .text s
  | .blob b => .blob (b.take f.size)

def sqliteInsert (schema : Schema) (db : Option Table) (entity : List FieldValue) : Option Table :=
  (ensureTable schema db).insert (schema.fields.map (·.name)) (List.zipWith bindField schema.fields entity)

def readColumn (conv : Conversions) (row : Row) (col : Nat) (f : Field) : FieldValue :=
  let stored := row.getD col .null
  match f.type with
  | .int => .int (conv.columnInt stored)
  | .string | .uuid => .text (copyTextField f.size (conv.columnText stored))
  | .blob =>
    let blob := conv.columnBlob stored
    .blob (blob.take f.size ++ List.replicate (f.size - blob.length) 0)

/-- The loop over the fields in `sqlite_find_by_pk`, `sqlite_find_all` and `sqlite_query`: column
    `i` of the result goes to field `i`. -/
def readRow (conv : Conversions) (schema : Schema) (row : Row) : List FieldValue :=
  schema.fields.mapIdx fun i f => readColumn conv row i f

def sqliteFindByPk (conv : Conversions) (schema : Schema) (db : Option Table) (key : FieldValue) :
    Option (List FieldValue) :=
  match (ensureTable schema db).selectWhere schema.pk.name (bindField schema.pk key) with
  | some (row :: _) => some (readRow conv schema row)
  | _ => none

def sqliteFindAll (conv : Conversions) (schema : Schema) (db : Option Table) : List (List FieldValue) :=
  (ensureTable schema db).rows.map (readRow conv schema)

/-- `clause` is what SQLite answers to the WHERE, ORDER BY and LIMIT clauses. -/
def sqliteQuery (conv : Conversions) (schema : Schema) (clause : List Row → List Row) (db : Option Table) :
    List (List FieldValue) :=
  (clause (ensureTable schema db).rows).map (readRow conv schema)

end BlueBird.Persist
