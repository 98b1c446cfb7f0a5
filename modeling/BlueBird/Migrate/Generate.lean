import BlueBird.Migrate.Statement

/-! The migration generator: hints first, then refusals, then statements. -/

namespace BlueBird.Migrate

/-- `BB_MIGRATE_RENAMES_MAX` -/
def renamesMax : Nat := 32

/-- `BB_MIGRATE_ERR_MAX` -/
def errMax : Nat := 512

def isPlainIdentifier (s : String) : Bool :=
  match s.toList with
  | [] => false
  | c :: rest => (c.isAlpha || c == '_') && rest.all fun c => c.isAlpha || c.isDigit || c == '_'

structure Rename where
  table : String
  from_ : String
  to_ : String
  deriving DecidableEq, Repr

/-- A hint with its `mine` and `valid`. -/
structure Hint where
  rename : Rename
  mine : Bool
  valid : Bool
  deriving DecidableEq, Repr

def consumedFrom (hints : List Hint) (column : String) : Bool :=
  hints.any fun hint => hint.mine && hint.valid && hint.rename.from_ == column

def consumedTo (hints : List Hint) (column : String) : Bool :=
  hints.any fun hint => hint.mine && hint.valid && hint.rename.to_ == column

/-! ## Hints -/

def conflict (earlier : List Hint) (rn : Rename) : Bool :=
  earlier.any fun hint => hint.mine && (hint.rename.from_ == rn.from_ || hint.rename.to_ == rn.to_)

/-- Why a hint for the table does not hold. -/
def hintRefusal (expected actual : TableSpec) (earlier : List Hint) (rn : Rename) : Option String :=
  let named := "--rename " ++ rn.table ++ "." ++ rn.from_ ++ "=" ++ rn.to_
  if ¬ (isPlainIdentifier rn.from_ ∧ isPlainIdentifier rn.to_) then
    some (named ++ ": names must be plain identifiers")
  else
    match findColumn actual rn.from_, findColumn expected rn.to_ with
    | none, _ => some (named ++ ": the database has no column '" ++ rn.from_ ++ "'")
    | some _, none => some (named ++ ": the schema has no column '" ++ rn.to_ ++ "'")
    | some aFrom, some eTo =>
      if (findColumn expected rn.from_).isSome then
        some (named ++ ": the schema still has a column '" ++ rn.from_ ++ "', so it wasn't renamed")
      else if (findColumn actual rn.to_).isSome then
        some (named ++ ": the database already has a column '" ++ rn.to_ ++ "'")
      else if aFrom.type ≠ eTo.type ∨ aFrom.primaryKey ≠ eTo.primaryKey then
        some (named ++ ": the type or primary key also changes (" ++ aFrom.type ++ " -> " ++ eTo.type ++
          "); a rename plus a change is not generated, split it up or write it by hand")
      else if conflict earlier rn then some (named ++ ": conflicts with another --rename for the same column")
      else none

/-- One turn of `validate_renames`. -/
def validateRename (expected actual : TableSpec) (earlier : List Hint) (rn : Rename) : Hint × Option String :=
  if rn.table ≠ expected.table then (⟨rn, false, false⟩, none)
  else
    let refusal := hintRefusal expected actual earlier rn
    (⟨rn, true, refusal.isNone⟩, refusal)

def validateRenames (expected actual : TableSpec) : (earlier : List Hint) → List Rename → List Hint × List String
  | earlier, [] => (earlier, [])
  | earlier, rn :: renames =>
    let checked := validateRename expected actual earlier rn
    let others := validateRenames expected actual (earlier ++ [checked.1]) renames
    (others.1, checked.2.toList ++ others.2)

/-! ## Refusals -/

/-- `bb_migrate_diff_describe` -/
def Diff.describe (d : Diff) : String :=
  let column := d.column.getD ""
  match d.kind with
  | .tableMissing => "table '" ++ d.table ++ "' does not exist after applying all migrations"
  | .columnMissing =>
    "column '" ++ column ++ "' (" ++ d.expectedType.getD "" ++ ") is in the schema but no migration creates it"
  | .columnExtra => "column '" ++ column ++ "' is in the database but not in the schema"
  | .typeMismatch =>
    "column '" ++ column ++ "' is " ++ d.expectedType.getD "" ++ " in the schema but " ++ d.actualType.getD "" ++
      " in the database"
  | .pkMissing => "column '" ++ column ++ "' is the primary key in the schema but not in the database"
  | .pkExtra => "column '" ++ column ++ "' is a primary key in the database but not in the schema"

def candidates (expected actual : TableSpec) (hints : List Hint) (column : String) : List Column :=
  match findColumn actual column with
  | none => []
  | some extra => expected.columns.filter fun e =>
    (findColumn actual e.name).isNone && !consumedTo hints e.name && e.type == extra.type &&
      e.primaryKey == extra.primaryKey

def refuseExtraColumn (expected actual : TableSpec) (hints : List Hint) (d : Diff) : String :=
  let column := d.column.getD ""
  match candidates expected actual hints column with
  | [] => d.describe ++ "; dropping a column can lose data"
  | [candidate] =>
    d.describe ++ "; if it was renamed to '" ++ candidate.name ++ "', add --rename " ++ d.table ++ "." ++ column ++
      "=" ++ candidate.name ++ "; if it was dropped, that can lose data"
  | _ =>
    d.describe ++ "; if it was renamed, add --rename " ++ d.table ++ "." ++ column ++
      "=<new name>; if it was dropped, that can lose data"

def scanForRefusals (expected actual : TableSpec) (hints : List Hint) (d : Diff) : Option String :=
  let column := d.column.getD ""
  match d.kind with
  | .tableMissing => none
  | .columnMissing =>
    if consumedTo hints column then none
    else if d.expectedPk then
      some (d.describe ++ "; SQLite can't add a primary key column with ALTER TABLE")
    else none
  | .columnExtra =>
    if consumedFrom hints column then none else some (refuseExtraColumn expected actual hints d)
  | .typeMismatch => some (d.describe ++ "; changing a column's type needs a table rebuild")
  | .pkMissing | .pkExtra => some (d.describe ++ "; SQLite can't change a primary key with ALTER TABLE")

structure Refusals where
  msg : String
  truncated : Nat

/-- A line is left out where it does not fit with the tails. -/
def Refusals.refuse (r : Refusals) (line : String) : Refusals :=
  if r.msg.utf8ByteSize + 4 + line.utf8ByteSize + 1 + 96 > errMax then { r with truncated := r.truncated + 1 }
  else { r with msg := r.msg ++ "\n  - " ++ line }

def refusalMessage (table : String) (lines : List String) : String :=
  let header := "table '" ++ table ++ "' can't be generated automatically:"
  let refusals := lines.foldl Refusals.refuse ⟨header, 0⟩
  refusals.msg ++ (if refusals.truncated > 0 then "\n  (+" ++ toString refusals.truncated ++ " more)" else "") ++
    "\nwrite this migration by hand, then run `verify`."

/-! ## Statements -/

def emitRename (expected : TableSpec) (hint : Hint) : Option Statement :=
  if hint.mine && hint.valid then some (.renameColumn expected.table hint.rename.from_ hint.rename.to_) else none

def emitAlter (hints : List Hint) (d : Diff) : Option Statement :=
  if d.kind = .columnMissing ∧ ¬ consumedTo hints (d.column.getD "") then
    some (.addColumn d.table (d.column.getD "") (d.expectedType.getD ""))
  else none

def emit (expected actual : TableSpec) (hints : List Hint) : List Statement :=
  if actual.columns.length = 0 then [.createTable expected.table expected.columns]
  else hints.filterMap (emitRename expected) ++ (specDiff expected actual).filterMap (emitAlter hints)

/-- What `bb_migrate_generate_sql` returns; `*sql_out` is the text of the statements, and NULL without
    them. -/
inductive Generated where
  | ok (statements : List Statement)
  | nothing
  | refused (message : String)
  deriving DecidableEq, Repr

def Generated.sqlOut : Generated → Option String
  | .ok statements => some (sqlText statements)
  | _ => none

def namesOk (expected : TableSpec) : Bool :=
  isPlainIdentifier expected.table && expected.columns.all fun c => isPlainIdentifier c.name

def generateSql (expected actual : TableSpec) (renames : List Rename) : Generated :=
  if renames.length > renamesMax then .refused "invalid arguments"
  else if ¬ namesOk expected then
    .refused ("table '" ++ expected.table ++ "' can't be generated automatically:\n  - table and column names must be " ++
      "plain identifiers (letters, digits, underscore)")
  else
    let validated := validateRenames expected actual [] renames
    let diffs := specDiff expected actual
    let lines := validated.2 ++ diffs.filterMap (scanForRefusals expected actual validated.1)
    if lines ≠ [] then .refused (refusalMessage expected.table lines)
    else if diffs.length = 0 then .nothing
    else if emit expected actual validated.1 = [] then .refused "out of memory"
    else .ok (emit expected actual validated.1)

end BlueBird.Migrate
