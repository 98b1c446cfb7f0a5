import BlueBird.Persist.Query
import BlueBird.Persist.Sqlite

/-! The statement of `sqlite_query` with its bindings, and what SQLite answers. -/

namespace BlueBird.Persist

open Migrate

/-! ## The statement -/

inductive SqlOp where
  | eq | ne | lt | le | gt | ge | glob
  deriving DecidableEq, Repr

def SqlOp.text : SqlOp → String
  | .eq => "="
  | .ne => "!="
  | .lt => "<"
  | .le => "<="
  | .gt => ">"
  | .ge => ">="
  | .glob => "GLOB"

def queryOpToSql : QueryOp → SqlOp
  | .eq => .eq
  | .ne => .ne
  | .lt => .lt
  | .lte => .le
  | .gt => .gt
  | .gte => .ge
  | .like => .glob

/-- A term of the WHERE clause: the constant 0, or `column op ?`. -/
inductive WhereTerm where
  | zero
  | compare (column : String) (op : SqlOp)
  deriving DecidableEq, Repr

inductive LimitClause where
  | absent | unlimited | placeholder
  deriving DecidableEq, Repr

structure SelectStatement where
  table : String
  where_ : List WhereTerm
  orderBy : List QuerySort
  limit : LimitClause
  offset : Bool
  deriving DecidableEq, Repr

def WhereTerm.text : WhereTerm → String
  | .zero => "0"
  | .compare column op => column ++ " " ++ op.text ++ " ?"

def sortText (sort : QuerySort) : String :=
  sort.field ++ if sort.direction = .asc then " ASC" else " DESC"

def SelectStatement.text (st : SelectStatement) : String :=
  "SELECT * FROM " ++ st.table ++
    (if st.where_ = [] then "" else " WHERE " ++ " AND ".intercalate (st.where_.map WhereTerm.text)) ++
    (if st.orderBy = [] then "" else " ORDER BY " ++ ", ".intercalate (st.orderBy.map sortText)) ++
    (match st.limit with
    | .absent => ""
    | .unlimited => " LIMIT -1"
    | .placeholder => " LIMIT ?") ++
    (if st.offset then " OFFSET ?" else "") ++ ";"

def whereTerm (schema : Schema) (cond : QueryCond) : WhereTerm :=
  match findField schema cond.field with
  | some f =>
    if cond.op = .like ∧ ¬ f.type.textual then .zero else .compare cond.field (queryOpToSql cond.op)
  | none => .compare cond.field (queryOpToSql cond.op)

def selectStatement (schema : Schema) (q : Query) : SelectStatement where
  table := schema.name
  where_ := q.conditions.map (whereTerm schema)
  orderBy := q.sorts
  limit := if q.limit ≥ 0 then .placeholder else if q.offset ≥ 0 then .unlimited else .absent
  offset := q.offset ≥ 0

/-! ## The bindings -/

inductive Slot where
  | condition (i : Nat)
  | limit
  | offset
  deriving DecidableEq, Repr

/-- The slots of the `?` in the text, from left to right; the conditions count from `i`. -/
def wherePlaceholders : (i : Nat) → List WhereTerm → List Slot
  | _, [] => []
  | i, .zero :: terms => wherePlaceholders (i + 1) terms
  | i, .compare _ _ :: terms => .condition i :: wherePlaceholders (i + 1) terms

def SelectStatement.placeholders (st : SelectStatement) : List Slot :=
  wherePlaceholders 0 st.where_ ++ (if st.limit = .placeholder then [.limit] else []) ++
    (if st.offset then [.offset] else [])

/-- The binding loop over the conditions, which ends with -1 at a field that is not there. -/
def bindConditions (schema : Schema) : (i : Nat) → List QueryCond → Option (List (Slot × Value))
  | _, [] => some []
  | i, cond :: conditions =>
    match findField schema cond.field with
    | none => none
    | some f =>
      let bound : List (Slot × Value) :=
        if cond.op = .like then
          if f.type.textual then [(.condition i, .text (likePatternToGlob cond.value.asBytes))] else []
        else [(.condition i, bindField f cond.value)]
      (bindConditions schema (i + 1) conditions).map (bound ++ ·)

/-- The values in the order of `bind_index`; limit and offset are cast to `int`. -/
def bindings (schema : Schema) (q : Query) : Option (List (Slot × Value)) :=
  (bindConditions schema 0 q.conditions).map fun bound =>
    bound ++ (if q.limit ≥ 0 then [(.limit, .integer q.limit.toInt32.toInt)] else []) ++
      (if q.offset ≥ 0 then [(.offset, .integer q.offset.toInt32.toInt)] else [])

/-! ## SQLite -/

def Value.storageClass : Value → Nat
  | .null => 0
  | .integer _ | .real _ => 1
  | .text _ => 2
  | .blob _ => 3

/-- BINARY collation for texts, and bytes for blobs; values of two storage classes are ordered by these.
    No field is stored as a real. -/
def Value.order : Value → Value → Ordering
  | .integer a, .integer b => compare a b
  | .text a, .text b => compare a b
  | .blob a, .blob b => compare a b
  | a, b => compare a.storageClass b.storageClass

def SqlOp.test (a b : Value) : SqlOp → Bool
  | .eq => a.order b == .eq
  | .ne => a.order b != .eq
  | .lt => a.order b == .lt
  | .le => a.order b != .gt
  | .gt => a.order b == .gt
  | .ge => a.order b != .lt
  | .glob =>
    match a, b with
    | .text s, .text pattern => Persist.glob pattern s
    | _, _ => false

/-- A comparison with NULL is not true. -/
def SqlOp.holds (op : SqlOp) (a b : Value) : Bool := if a = .null ∨ b = .null then false else op.test a b

def columnValue (columns : List Column) (row : Row) (name : String) : Value :=
  (((columns.zip row).find? (·.1.name = name)).map (·.2)).getD .null

/-- The terms joined by AND; the bindings go to the `?` from left to right, and a `?` without one is
    NULL. -/
def whereHolds (columns : List Column) (row : Row) : List WhereTerm → List Value → Bool
  | [], _ => true
  | .zero :: terms, bound => false && whereHolds columns row terms bound
  | .compare column op :: terms, bound =>
    op.holds (columnValue columns row column) (bound.headD .null) && whereHolds columns row terms bound.tail

def orderRows (columns : List Column) : List QuerySort → (a b : Row) → Ordering
  | [], _, _ => .eq
  | sort :: sorts, a, b =>
    let order := (columnValue columns a sort.field).order (columnValue columns b sort.field)
    (if sort.direction = .asc then order else order.swap).then (orderRows columns sorts a b)

def Value.number : Value → Int
  | .integer n => n
  | _ => 0

/-- A limit below zero is none, and an offset below zero is 0. -/
def limitRows (limit : Option Int) (offset : Int) (rows : List Row) : List Row :=
  let behind := rows.drop offset.toNat
  match limit with
  | none => behind
  | some n => if n < 0 then behind else behind.take n.toNat

def SelectStatement.page (st : SelectStatement) (bound : List Value) (rows : List Row) : List Row :=
  let others := bound.drop (wherePlaceholders 0 st.where_).length
  match st.limit with
  | .placeholder => limitRows (some (others.headD .null).number) (if st.offset then (others.tail.headD .null).number else 0) rows
  | .unlimited => limitRows (some (-1)) (if st.offset then (others.headD .null).number else 0) rows
  | .absent => limitRows none (if st.offset then (others.headD .null).number else 0) rows

/-- The rows that are selected, in an order that ORDER BY allows, and what LIMIT and OFFSET leave of
    them. -/
structure SelectStatement.Answers (st : SelectStatement) (bound : List Value) (t : Table) (s out : List Row) : Prop where
  perm : s.Perm (t.rows.filter fun row => whereHolds t.columns row st.where_ bound)
  ordered : s.Pairwise fun a b => (orderRows t.columns st.orderBy a b).isLE
  page : out = st.page bound s

end BlueBird.Persist
