import BlueBird.Encoding.NumberText
import BlueBird.Persist.Like
import BlueBird.Persist.SqliteModel
import BlueBird.Persist.Select
import BlueBird.Security.PasswordRecord

/-! The PostgreSQL model backend: its statements with their parameters, and what the server makes of them. -/

namespace BlueBird.Persist

open Migrate
open Http (decimalInt)
open Security (hexEncode hexNibble decodeHex)

/-! ## UUIDs -/

/-- `bb_uuid_to_string` on 16 bytes, and the text that the server shows for a UUID. -/
def uuidToString (uuid : Bytes) : Bytes :=
  hexEncode (uuid.take 4) ++ ch '-' :: (hexEncode ((uuid.drop 4).take 2) ++ ch '-' :: (hexEncode ((uuid.drop 6).take 2) ++
    ch '-' :: (hexEncode ((uuid.drop 8).take 2) ++ ch '-' :: hexEncode (uuid.drop 10))))

/-- A hyphen may stand behind every second byte but the last. -/
def skipHyphen (left : Nat) (text : Bytes) : Bytes :=
  if left % 2 = 0 ∧ 0 < left ∧ text.head? = some (ch '-') then text.tail else text

def uuidDigits : (left : Nat) → Bytes → Option (Bytes × Bytes)
  | 0, text => some ([], text)
  | left + 1, high :: low :: text =>
    match hexNibble high, hexNibble low with
    | some hi, some lo => (uuidDigits left (skipHyphen left text)).map fun read => ((hi <<< 4 ||| lo) :: read.1, read.2)
    | _, _ => none
  | _ + 1, _ => none

/-- How the server reads a UUID: digits of either case, with braces around them or not. -/
def uuidIn (text : Bytes) : Option Bytes :=
  let braces := text.head? = some (ch '{')
  match uuidDigits 16 (if braces then text.tail else text) with
  | some (uuid, rest) => if rest = (if braces then [ch '}'] else []) then some uuid else none
  | none => none

/-! ## Parameters and results -/

inductive PgType where
  | integer | bigint | text | uuid | bytea
  deriving DecidableEq, Repr

def PgType.sql : PgType → String
  | .integer => "INTEGER"
  | .bigint => "BIGINT"
  | .text => "TEXT"
  | .uuid => "UUID"
  | .bytea => "BYTEA"

def PgType.named (sql : String) : Option PgType :=
  [PgType.integer, .bigint, .text, .uuid, .bytea].find? (·.sql = sql)

/-- `field_type_to_sql` -/
def pgFieldType : FieldType → PgType
  | .int => .integer
  | .string => .text
  | .uuid => .uuid
  | .blob => .bytea

/-- A value of `PQexecParams` in its format. -/
inductive PgParam where
  | text (s : Bytes)
  | binary (b : Bytes)
  deriving DecidableEq

/-- `params_set` -/
def paramsSet (f : Field) (value : FieldValue) : PgParam :=
  match f.type with
  | .int => .text (decimalInt value.asInt.toInt)
  | .string | .uuid => .text value.asBytes
  | .blob => .binary (value.asBytes.take f.size)

/-- How the server reads a number of so many bits. -/
def integerIn (bits : Nat) (text : Bytes) : Option Int :=
  let scanned := NumberText.scan text
  let value : Int := if scanned.negative then - NumberText.number scanned.digits else NumberText.number scanned.digits
  if scanned.digits ≠ [] ∧ scanned.rest = [] ∧ - 2 ^ (bits - 1) ≤ value ∧ value < 2 ^ (bits - 1) then some value else none

/-- What the server makes of a parameter of a type. A UUID is kept as its text, which is ordered as the 16 bytes
    are. -/
def PgType.input : PgType → PgParam → Option Value
  | .integer, .text s => (integerIn 32 s).map .integer
  | .bigint, .text s => (integerIn 64 s).map .integer
  | .text, .text s => some (.text s)
  | .uuid, .text s => (uuidIn s).map fun uuid => .text (uuidToString uuid)
  | .bytea, .binary b => some (.blob b)
  | _, _ => none

/-- `PQgetvalue` of a result in text format, or none where `PQgetisnull`. No column has a real. -/
def Value.shown : Value → Option Bytes
  | .integer n => some (decimalInt n)
  | .text s => some s
  | .blob b => some (ascii "\\x" ++ hexEncode b)
  | .null | .real _ => none

/-- `PQunescapeBytea` -/
def unescapeBytea (text : Bytes) : Bytes := (decodeHex (text.drop 2)).getD []

/-- `read_column` -/
def pgReadColumn (f : Field) (cell : Option Bytes) : FieldValue :=
  match f.type with
  | .int => .int (Int32.ofInt ((cell.map fun text => (NumberText.strtol text).1).getD 0))
  | .string | .uuid => .text (copyTextField f.size (some (cell.getD [])))
  | .blob =>
    let bytes := (cell.map unescapeBytea).getD []
    .blob (bytes.take f.size ++ List.replicate (f.size - bytes.length) 0)

/-! ## Tables -/

def pgColumns (schema : Schema) : List Column :=
  schema.fields.mapIdx fun i f =>
    { name := f.name, type := (pgFieldType f.type).sql, primaryKey := i = schema.primaryKeyIndex }

theorem pgColumns_names (schema : Schema) : (pgColumns schema).map (·.name) = schema.fields.map (·.name) := by
  apply List.ext_getElem <;> simp [pgColumns]

/-- `create_table` of a table that is not there. -/
def pgCreated (schema : Schema) : Table where
  columns := pgColumns schema
  distinct := by
    rw [pgColumns_names]
    exact schema.distinct
  rows := []

def columnType (columns : List Column) (name : String) : Option PgType :=
  ((columns.find? (·.name = name)).map (·.type)).bind PgType.named

/-- `$k` as a value of a type. -/
def given (params : List PgParam) (k : Nat) (type : PgType) : Option Value := (params[k - 1]?).bind type.input

/-- `$k` beside a column. -/
def givenFor (columns : List Column) (params : List PgParam) (column : String) (k : Nat) : Option Value :=
  (columnType columns column).bind (given params k)

/-- `append_column_list` -/
def columnList (schema : Schema) : List String := schema.fields.map (·.name)

def numbered (names : List String) : List (String × Nat) := names.mapIdx fun i name => (name, i + 1)

def givenAll (columns : List Column) (params : List PgParam) (names : List (String × Nat)) : Option (List Value) :=
  names.mapM fun p => givenFor columns params p.1 p.2

/-- A row of `SELECT names`. -/
def selected (columns : List Column) (names : List String) (row : Row) : List (Option Bytes) :=
  names.map fun name => (columnValue columns row name).shown

/-- `read_row` -/
def pgReadRow (schema : Schema) (cells : List (Option Bytes)) : List FieldValue :=
  schema.fields.mapIdx fun i f => pgReadColumn f (cells.getD i none)

def pgRead (schema : Schema) (columns : List Column) (row : Row) : List FieldValue :=
  pgReadRow schema (selected columns (columnList schema) row)

def selects (t : Table) (names : List String) : Bool := names.all fun name => (t.columnIndex name).isSome

/-! ## Statements on one table -/

def boundAll (held : List (Field × FieldValue)) : List PgParam := held.map fun p => paramsSet p.1 p.2

/-- `INSERT INTO t (names) VALUES ($1, ...)` -/
def pgInsertConn (schema : Schema) (t : Table) (values : List FieldValue) : Option Table := do
  let held := schema.fields.zip values
  let bound ← givenAll t.columns (boundAll held) (numbered (held.map (·.1.name)))
  t.insert (held.map (·.1.name)) bound

/-- `SELECT names FROM t WHERE pk = $1` -/
def pgFindByPkConn (schema : Schema) (t : Table) (key : FieldValue) : Option (List FieldValue) := do
  let value ← givenFor t.columns [paramsSet schema.pk key] schema.pk.name 1
  let rows ← if selects t (columnList schema) then t.selectWhere schema.pk.name value else none
  rows.head?.map (pgRead schema t.columns)

/-- `UPDATE t SET` with every field but the primary key as `$1` to `$(n-1)`, `WHERE pk = $n` -/
def pgUpdateConn (schema : Schema) (t : Table) (values : List FieldValue) : Option (Table × Nat) := do
  let others := (schema.fields.zip values).eraseIdx schema.primaryKeyIndex
  let params := boundAll others ++ [paramsSet schema.pk (schema.key values)]
  let bound ← givenAll t.columns params (numbered (others.map (·.1.name)))
  let key ← givenFor t.columns params schema.pk.name schema.fields.length
  t.updateWhere ((others.map (·.1.name)).zip bound) schema.pk.name key

/-- `DELETE FROM t WHERE pk = $1` -/
def pgRemoveConn (schema : Schema) (t : Table) (key : FieldValue) : Option (Table × Nat) := do
  let value ← givenFor t.columns [paramsSet schema.pk key] schema.pk.name 1
  t.deleteWhere schema.pk.name value

/-- `SELECT names FROM t` -/
def pgFindAllConn (schema : Schema) (t : Table) : Option (List (List FieldValue)) :=
  if selects t (columnList schema) then some (t.rows.map (pgRead schema t.columns)) else none

/-- `SELECT names FROM t WHERE field = $1 LIMIT 1` -/
def pgFindFirstByFieldConn (schema : Schema) (t : Table) (field : Field) (value : FieldValue) : Option (List FieldValue) := do
  let value ← givenFor t.columns [paramsSet field value] field.name 1
  let rows ← if selects t (columnList schema) then t.selectWhere field.name value else none
  rows.head?.map (pgRead schema t.columns)

/-! ## The statement of `pg_query` -/

/-- A term of the WHERE clause; `collate` is COLLATE "C", `cast` is ::text. -/
inductive PgTerm where
  | false_
  | compare (column : String) (collate : Bool) (op : QueryOp) (param : Nat)
  | like (column : String) (cast : Bool) (param : Nat)
  deriving DecidableEq, Repr

structure PgSort where
  column : String
  collate : Bool
  direction : QueryOrder
  deriving DecidableEq, Repr

structure PgSelect where
  columns : List String
  table : String
  where_ : List PgTerm
  orderBy : List PgSort
  limit : Option Nat
  offset : Option Nat
  deriving DecidableEq, Repr

/-- `query_op_to_sql` -/
def pgOpText : QueryOp → String
  | .eq => "="
  | .ne => "<>"
  | .lt => "<"
  | .lte => "<="
  | .gt => ">"
  | .gte => ">="
  | .like => "LIKE"

section Text

-- `quoted` is `PQescapeIdentifier`
variable (quoted : String → String)

def paramText (k : Nat) : String := "$" ++ toString k

def collateText (collate : Bool) : String := if collate then " COLLATE \"C\"" else ""

def PgTerm.sql : PgTerm → String
  | .false_ => "FALSE"
  | .compare column collate op k => quoted column ++ collateText collate ++ " " ++ pgOpText op ++ " " ++ paramText k
  | .like column cast k => quoted column ++ (if cast then "::text" else "") ++ " LIKE " ++ paramText k

def PgSort.sql (sort : PgSort) : String :=
  quoted sort.column ++ collateText sort.collate ++ if sort.direction = .asc then " ASC" else " DESC"

def PgSelect.sql (st : PgSelect) : String :=
  "SELECT " ++ ", ".intercalate (st.columns.map quoted) ++ " FROM " ++ quoted st.table ++
    (if st.where_ = [] then "" else " WHERE " ++ " AND ".intercalate (st.where_.map (PgTerm.sql quoted))) ++
    (if st.orderBy = [] then "" else " ORDER BY " ++ ", ".intercalate (st.orderBy.map (PgSort.sql quoted))) ++
    (match st.limit with
    | none => ""
    | some k => " LIMIT " ++ paramText k) ++
    (match st.offset with
    | none => ""
    | some k => " OFFSET " ++ paramText k)

end Text

/-- The loop over the conditions, with `nparams` parameters before it; none is its way to -1. -/
def pgConditions (schema : Schema) : (nparams : Nat) → List QueryCond → Option (List PgTerm × List PgParam)
  | _, [] => some ([], [])
  | nparams, cond :: conditions => do
    let f ← findField schema cond.field
    if cond.op = .like then
      if ¬ f.type.textual then
        let (terms, params) ← pgConditions schema nparams conditions
        return (.false_ :: terms, params)
      else
        let (terms, params) ← pgConditions schema (nparams + 1) conditions
        return (.like f.name (f.type = .uuid) (nparams + 1) :: terms,
          paramsSet f (.text (escapeLikePattern cond.value.asBytes)) :: params)
    else
      let (terms, params) ← pgConditions schema (nparams + 1) conditions
      return (.compare f.name (f.type = .string) cond.op (nparams + 1) :: terms, paramsSet f cond.value :: params)

def pgSort (schema : Schema) (sort : QuerySort) : Option PgSort :=
  (findField schema sort.field).map fun f => ⟨f.name, f.type = .string, sort.direction⟩

def pgSelect (schema : Schema) (q : Query) : Option (PgSelect × List PgParam) := do
  let (where_, params) ← pgConditions schema 0 q.conditions
  let orderBy ← q.sorts.mapM (pgSort schema)
  let limits : List PgParam := if q.limit ≥ 0 then [.text (decimalInt q.limit.toInt)] else []
  let offsets : List PgParam := if q.offset ≥ 0 then [.text (decimalInt q.offset.toInt)] else []
  return ({ columns := columnList schema, table := schema.name, where_, orderBy,
            limit := if q.limit ≥ 0 then some (params.length + 1) else none,
            offset := if q.offset ≥ 0 then some (params.length + limits.length + 1) else none },
    params ++ limits ++ offsets)

/-! ## What the server answers -/

section Server

-- `locale` is how the database orders texts by itself
variable (locale : Bytes → Bytes → Ordering) (columns : List Column) (params : List PgParam)

/-- Two values of a type; texts are ordered byte by byte under COLLATE "C" alone. -/
def PgType.order (type : PgType) (collate : Bool) (a b : Value) : Ordering :=
  match type, a, b with
  | .text, .text s, .text t => if collate then compare s t else locale s t
  | _, a, b => a.order b

def QueryOp.allows : QueryOp → Ordering → Bool
  | .eq, order => order == .eq
  | .ne, order => order != .eq
  | .lt, order => order == .lt
  | .lte, order => order != .gt
  | .gt, order => order == .gt
  | .gte, order => order != .lt
  | .like, _ => false

def PgTerm.accepted : PgTerm → Bool
  | .false_ => true
  | .compare column collate _ k =>
    match columnType columns column with
    | none => false
    | some type => (!collate || type == .text) && (given params k type).isSome
  | .like column cast k =>
    match columnType columns column with
    | none => false
    | some type => (cast || type == .text) && (given params k .text).isSome

/-- A comparison with NULL is not true. -/
def PgTerm.holds (row : Row) : PgTerm → Bool
  | .false_ => false
  | .compare column collate op k =>
    match columnType columns column with
    | none => false
    | some type =>
      match given params k type with
      | none => false
      | some value =>
        let held := columnValue columns row column
        held ≠ .null && op.allows (type.order locale collate held value)
  | .like column _ k =>
    match columnValue columns row column, given params k .text with
    | .text s, some (.text pattern) => pgLike pattern s
    | _, _ => false

def pgOrderRows : List PgSort → (a b : Row) → Ordering
  | [], _, _ => .eq
  | sort :: sorts, a, b =>
    let type := (columnType columns sort.column).getD .text
    let order := type.order locale sort.collate (columnValue columns a sort.column) (columnValue columns b sort.column)
    (if sort.direction = .asc then order else order.swap).then (pgOrderRows sorts a b)

def PgSort.accepted (sort : PgSort) : Bool :=
  match columnType columns sort.column with
  | none => false
  | some type => !sort.collate || type == .text

/-- The statement can be run: a parameter that is no value of its type is an error, also where there are no rows. -/
def PgSelect.accepted (st : PgSelect) : Bool :=
  st.columns.all (fun name => (columnType columns name).isSome) && st.where_.all (PgTerm.accepted columns params) &&
    st.orderBy.all (PgSort.accepted columns) && st.limit.all (fun k => (given params k .bigint).isSome) &&
    st.offset.all (fun k => (given params k .bigint).isSome)

def PgSelect.page (st : PgSelect) (rows : List Row) : List Row :=
  let amount (k : Nat) : Int := ((given params k .bigint).map Value.number).getD 0
  limitRows (st.limit.map amount) ((st.offset.map amount).getD 0) rows

/-- The rows that are selected, in an order that ORDER BY allows, and what LIMIT and OFFSET leave of them. -/
structure PgSelect.Answers (st : PgSelect) (rows s out : List Row) : Prop where
  perm : s.Perm (rows.filter fun row => st.where_.all (PgTerm.holds locale columns params row))
  ordered : s.Pairwise fun a b => (pgOrderRows locale columns st.orderBy a b).isLE
  page : out = st.page params s

end Server

/-- What `pg_query_conn` may give: none for -1, or all that match in the order of the server, and the page of them. -/
def PgQueries (locale : Bytes → Bytes → Ordering) (schema : Schema) (q : Query) (t : Table)
    (result : Option (List (List FieldValue) × List (List FieldValue))) : Prop :=
  match pgSelect schema q with
  | none => result = none
  | some (st, params) =>
    if st.accepted t.columns params then
      ∃ s out, st.Answers locale t.columns params t.rows s out ∧
        result = some (s.map (pgRead schema t.columns), out.map (pgRead schema t.columns))
    else result = none

/-! ## Handles -/

/-- The tables of the server under their names, and the names that each handle remembers. -/
structure PgState (κ : Type) where
  tables : List (String × Table)
  remembered : κ → List String

/-- What a call does behind `ensure_table`, with a value for the field and a query that was built. -/
inductive PgOp (schema : Schema) where
  | model (op : ModelOp schema)
  | findFirst (field : String) (value : FieldValue) (out : List FieldValue)
      (asks : ∀ f, findField schema field = some f → f.type ≠ .blob → f.Asks value)
  | query (q : Query) (built : Built schema q)

/-- The names and the values that the server takes: names it keeps whole, so many columns, texts in the encoding of the
    database, and rows and keys that are not too long. -/
structure PgRules where
  names : Schema → Bool
  values : {schema : Schema} → PgOp schema → Bool

/-- -1, with `out` as it was. -/
def refusedResult {schema : Schema} : PgOp schema → ModelResult
  | .model (.findByPk _ out) => { rc := -1, out }
  | .findFirst _ _ out _ => { rc := -1, out }
  | _ => { rc := -1 }

/-- A search gives an entity, or leaves `out` alone. -/
def searchResult (out : List FieldValue) : Option (List FieldValue) → ModelResult
  | some values => { rc := 0, out := values }
  | none => { rc := -1, out }

/-- `affected_rows(res) > 0` -/
def affectedResult (t : Table) : Option (Table × Nat) → Table × ModelResult
  | none => (t, { rc := -1 })
  | some (after, rows) => (after, { rc := if rows > 0 then 0 else -1 })

/-- One statement on a table. The server comes upon the rows in any order. -/
def PgAnswers (locale : Bytes → Bytes → Ordering) (schema : Schema) (t : Table) (r : ModelResult) (after : Table) :
    PgOp schema → Prop
  | .model (.insert entity) =>
    match pgInsertConn schema t entity.values with
    | some inserted => after = inserted ∧ r = { rc := 0 }
    | none => after = t ∧ r = { rc := -1 }
  | .model (.findByPk key out) =>
    after = t ∧ ∃ rows, rows.Perm t.rows ∧ r = searchResult out (pgFindByPkConn schema { t with rows } key.value)
  | .model (.update entity) =>
    if schema.fields.length < 2 then after = t ∧ r = { rc := -1 }
    else (after, r) = affectedResult t (pgUpdateConn schema t entity.values)
  | .model (.remove key) => (after, r) = affectedResult t (pgRemoveConn schema t key.value)
  | .model .findAll =>
    after = t ∧ ∃ rows, rows.Perm t.rows ∧
      match pgFindAllConn schema { t with rows } with
      | some entities => r = { rc := 0, entities }
      | none => r = { rc := -1 }
  | .findFirst field value out _ =>
    after = t ∧
      match findField schema field with
      | none => r = { rc := -1, out }
      | some f =>
        if f.type = .blob then r = { rc := -1, out }
        else ∃ rows, rows.Perm t.rows ∧ r = searchResult out (pgFindFirstByFieldConn schema { t with rows } f value)
  | .query q _ =>
    after = t ∧ ∃ result, PgQueries locale schema q t result ∧
      r = match result with
        | some (_, page) => { rc := 0, entities := page }
        | none => { rc := -1 }

section Handles
variable {κ ι : Type} [DecidableEq κ]

def PgState.table? (s : PgState κ) (schema : Schema) : Option Table := OrderedMap.get? s.tables schema.name

def PgState.put (s : PgState κ) (schema : Schema) (t : Table) : PgState κ :=
  { s with tables := OrderedMap.set s.tables schema.name t }

/-- `ensure_table` where memory does not run out. -/
def PgState.ensure (s : PgState κ) (handle : κ) (schema : Schema) : PgState κ :=
  if schema.name ∈ s.remembered handle then s
  else { tables := if (s.table? schema).isSome then s.tables else OrderedMap.set s.tables schema.name (pgCreated schema),
         remembered := Function.update s.remembered handle (s.remembered handle ++ [schema.name]) }

/-- The two halves of a call, between which there may be those of other calls, also of other handles. -/
inductive PgEvent (κ : Type) (schemas : ι → Schema) where
  | ensure (handle : κ) (table : ι)
  | statement (handle : κ) (table : ι) (op : PgOp (schemas table))

/-- `pg_find_first_by_field` alone does not make the table. -/
def PgOp.unprepared {schema : Schema} : PgOp schema → Bool
  | .findFirst .. => true
  | _ => false

inductive PgStep (locale : Bytes → Bytes → Ordering) (rules : PgRules) (schemas : ι → Schema) :
    PgState κ → PgEvent κ schemas → ModelResult → PgState κ → Prop
  | ensure (s : PgState κ) (handle : κ) (i : ι) (named : rules.names (schemas i) = true) :
      PgStep locale rules schemas s (.ensure handle i) { rc := 0 } (s.ensure handle (schemas i))
  | statement {s : PgState κ} {handle : κ} {i : ι} {op : PgOp (schemas i)} {t after : Table} {r : ModelResult}
      (takes : rules.values op = true) (ready : op.unprepared = true ∨ (schemas i).name ∈ s.remembered handle)
      (there : s.table? (schemas i) = some t) (answers : PgAnswers locale (schemas i) t r after op) :
      PgStep locale rules schemas s (.statement handle i op) r (s.put (schemas i) after)
  | missing {s : PgState κ} {handle : κ} {i : ι} {op : PgOp (schemas i)}
      (takes : rules.values op = true) (ready : op.unprepared = true ∨ (schemas i).name ∈ s.remembered handle)
      (absent : s.table? (schemas i) = none) :
      PgStep locale rules schemas s (.statement handle i op) (refusedResult op) s

end Handles

end BlueBird.Persist
