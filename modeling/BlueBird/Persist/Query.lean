import BlueBird.Persist.Glob
import BlueBird.Persist.Schema

/-! The query builder and the in-memory evaluation. -/

namespace BlueBird.Persist

inductive QueryOp where
  | eq | ne | lt | lte | gt | gte | like
  deriving DecidableEq, Repr

inductive QueryOrder where
  | asc | desc
  deriving DecidableEq, Repr

/-- `value` is what the pointer of the condition leads to. -/
structure QueryCond where
  field : String
  op : QueryOp
  value : FieldValue
  deriving DecidableEq

structure QuerySort where
  field : String
  direction : QueryOrder
  deriving DecidableEq, Repr

/-- `long` has 64 bits. -/
structure Query where
  conditions : List QueryCond
  sorts : List QuerySort
  limit : Int64
  offset : Int64
  deriving DecidableEq

/-- `BB_QUERY_MAX_CONDITIONS` -/
def maxConditions : Nat := 8

/-- `BB_QUERY_MAX_SORTS` -/
def maxSorts : Nat := 4

/-! ## Builder -/

def findField (schema : Schema) (name : String) : Option Field := schema.fields.find? (·.name = name)

def queryInit : Query := ⟨[], [], -1, -1⟩

/-- `bb_query_where`, or none for -1. -/
def queryWhere (schema : Schema) (q : Query) (field : String) (op : QueryOp) (value : FieldValue) : Option Query :=
  if (findField schema field).isNone then none
  else if q.conditions.length ≥ maxConditions then none
  else some { q with conditions := q.conditions ++ [⟨field, op, value⟩] }

def queryOrderBy (schema : Schema) (q : Query) (field : String) (direction : QueryOrder) : Option Query :=
  if (findField schema field).isNone then none
  else if q.sorts.length ≥ maxSorts then none
  else some { q with sorts := q.sorts ++ [⟨field, direction⟩] }

def queryLimit (q : Query) (limit : Int64) : Query := { q with limit }

def queryOffset (q : Query) (offset : Int64) : Query := { q with offset }

/-- The value that the caller promises for a field: one of its type, of any length for a string, and a
    pattern for LIKE on a string. -/
def Field.Takes (f : Field) (op : QueryOp) (value : FieldValue) : Prop :=
  match f.type with
  | .int => op = .like ∨ ∃ n, value = .int n
  | .string | .uuid => ∃ s, value = .text s ∧ (0 : Byte) ∉ s
  | .blob => op = .like ∨ ∃ b, value = .blob b ∧ b.length = f.size

inductive Built (schema : Schema) : Query → Prop
  | init : Built schema queryInit
  | where_ {q built : Query} {field op value} : Built schema q →
      (∀ f, findField schema field = some f → f.Takes op value) →
      queryWhere schema q field op value = some built → Built schema built
  | orderBy {q built : Query} {field direction} : Built schema q →
      queryOrderBy schema q field direction = some built → Built schema built
  | limit {q : Query} (limit) : Built schema q → Built schema (queryLimit q limit)
  | offset {q : Query} (offset) : Built schema q → Built schema (queryOffset q offset)

/-! ## Comparison -/

/-- `*(const int *)field_ptr` -/
def FieldValue.asInt : FieldValue → Int32
  | .int n => n
  | _ => 0

/-- The string or the bytes at `field_ptr`. -/
def FieldValue.asBytes : FieldValue → Bytes
  | .text s => s
  | .blob b => b
  | .int _ => []

def strncmp : Nat → Bytes → Bytes → Int
  | 0, _, _ => 0
  | n + 1, a, b =>
    let x := a.headD 0
    let y := b.headD 0
    if x ≠ y then (x.toNat : Int) - y.toNat
    else if x = 0 then 0
    else strncmp n a.tail b.tail

def memcmp : Nat → Bytes → Bytes → Int
  | 0, _, _ => 0
  | n + 1, a, b =>
    let x := a.headD 0
    let y := b.headD 0
    if x ≠ y then (x.toNat : Int) - y.toNat else memcmp n a.tail b.tail

/-- `bb_field_compare` -/
def fieldCompare (f : Field) (a b : FieldValue) : Int :=
  match f.type with
  | .int => (if a.asInt > b.asInt then 1 else 0) - (if a.asInt < b.asInt then 1 else 0)
  | .string | .uuid => strncmp f.size a.asBytes b.asBytes
  | .blob => memcmp f.size a.asBytes b.asBytes

def fieldOf (schema : Schema) (entity : List FieldValue) (name : String) : Option (Field × FieldValue) :=
  (schema.fields.zip entity).find? (·.1.name = name)

def condMatches (schema : Schema) (entity : List FieldValue) (cond : QueryCond) : Bool :=
  match fieldOf schema entity cond.field with
  | none => false
  | some (f, held) =>
    let cmp := fieldCompare f held cond.value
    match cond.op with
    | .like => if ¬ f.type.textual then false else likeMatch held.asBytes cond.value.asBytes
    | .eq => cmp = 0
    | .ne => cmp ≠ 0
    | .lt => cmp < 0
    | .lte => cmp ≤ 0
    | .gt => cmp > 0
    | .gte => cmp ≥ 0

def queryMatches (schema : Schema) (q : Query) (entity : List FieldValue) : Bool :=
  q.conditions.all (condMatches schema entity)

/-! ## Sorting -/

/-- The loop of `bb_sort_cmp`. -/
def sortCmp (schema : Schema) : List QuerySort → (a b : List FieldValue) → Int
  | [], _, _ => 0
  | sort :: sorts, a, b =>
    match fieldOf schema a sort.field, fieldOf schema b sort.field with
    | some (f, heldA), some (_, heldB) =>
      let cmp := fieldCompare f heldA heldB
      if cmp ≠ 0 then if sort.direction = .asc then cmp else -cmp
      else sortCmp schema sorts a b
    | _, _ => sortCmp schema sorts a b

/-- What `qsort` promises for a comparator that orders the list. -/
def SortsBy (qsort : (List FieldValue → List FieldValue → Int) → List (List FieldValue) → List (List FieldValue))
    (cmp : List FieldValue → List FieldValue → Int) (matched : List (List FieldValue)) : Prop :=
  (qsort cmp matched).Perm matched ∧ (qsort cmp matched).Pairwise fun a b => cmp a b ≤ 0

def queryPage (q : Query) (matched : List (List FieldValue)) : List (List FieldValue) :=
  let start := if q.offset > 0 then q.offset.toInt.toNat else 0
  if start ≥ matched.length then []
  else
    let available := matched.length - start
    let finalCount := if q.limit ≥ 0 ∧ q.limit.toInt.toNat < available then q.limit.toInt.toNat else available
    (matched.drop start).take finalCount

def queryApply (qsort : (List FieldValue → List FieldValue → Int) → List (List FieldValue) → List (List FieldValue))
    (schema : Schema) (q : Query) (inArray : List (List FieldValue)) : List (List FieldValue) :=
  let matched := inArray.filter (queryMatches schema q)
  if matched = [] then []
  else if q.sorts ≠ [] then queryPage q (qsort (sortCmp schema q.sorts) matched)
  else queryPage q matched

/-- The entities that match, as they are once sorted, and the page of them that the query gives. -/
structure Query.Answers (schema : Schema) (q : Query) (stored s out : List (List FieldValue)) : Prop where
  perm : s.Perm (stored.filter (queryMatches schema q))
  sorted : s.Pairwise fun a b => sortCmp schema q.sorts a b ≤ 0
  page : out = queryPage q s

/-- `bb_query_apply` answers so, in whatever order the stored entities come. -/
theorem queryApply_answers
    {qsort : (List FieldValue → List FieldValue → Int) → List (List FieldValue) → List (List FieldValue)}
    {schema : Schema} {q : Query} {stored inArray : List (List FieldValue)} (any : inArray.Perm stored)
    (sorts : SortsBy qsort (sortCmp schema q.sorts) (inArray.filter (queryMatches schema q))) :
    ∃ s, q.Answers schema stored s (queryApply qsort schema q inArray) := by
  have matching := any.filter (queryMatches schema q)
  unfold queryApply
  by_cases none : inArray.filter (queryMatches schema q) = []
  · refine ⟨[], ⟨none ▸ matching, List.Pairwise.nil, ?_⟩⟩
    rw [if_pos none]
    simp [queryPage]
  dsimp only
  rw [if_neg none]
  by_cases sorted : q.sorts = []
  · refine ⟨_, ⟨matching, ?_, by rw [if_neg (not_not_intro sorted)]⟩⟩
    rw [sorted]
    exact List.pairwise_of_forall fun _ _ => Int.le_refl 0
  · exact ⟨_, ⟨sorts.1.trans matching, sorts.2, by rw [if_pos sorted]⟩⟩

/-! ## Queries that were built -/

/-- Every field that a query names is one of the schema, and has a value to be compared with. -/
structure Query.WellTyped (schema : Schema) (q : Query) : Prop where
  conditions : ∀ cond ∈ q.conditions, ∃ f, findField schema cond.field = some f ∧ f.Takes cond.op cond.value
  sorts : ∀ sort ∈ q.sorts, ∃ f, findField schema sort.field = some f

theorem queryWhere_eq_some {schema : Schema} {q built : Query} {field : String} {op : QueryOp} {value : FieldValue}
    (called : queryWhere schema q field op value = some built) :
    (∃ f, findField schema field = some f) ∧ built = { q with conditions := q.conditions ++ [⟨field, op, value⟩] } := by
  unfold queryWhere at called
  cases found : findField schema field with
  | none =>
    rw [found, Option.isNone_none, if_pos rfl] at called
    cases called
  | some f =>
    rw [found, Option.isNone_some, if_neg (by decide)] at called
    split at called
    · cases called
    · exact ⟨⟨f, rfl⟩, (Option.some_inj.mp called).symm⟩

theorem queryOrderBy_eq_some {schema : Schema} {q built : Query} {field : String} {direction : QueryOrder}
    (called : queryOrderBy schema q field direction = some built) :
    (∃ f, findField schema field = some f) ∧ built = { q with sorts := q.sorts ++ [⟨field, direction⟩] } := by
  unfold queryOrderBy at called
  cases found : findField schema field with
  | none =>
    rw [found, Option.isNone_none, if_pos rfl] at called
    cases called
  | some f =>
    rw [found, Option.isNone_some, if_neg (by decide)] at called
    split at called
    · cases called
    · exact ⟨⟨f, rfl⟩, (Option.some_inj.mp called).symm⟩

theorem Built.wellTyped {schema : Schema} {q : Query} (built : Built schema q) : q.WellTyped schema := by
  induction built with
  | init => exact ⟨by simp [queryInit], by simp [queryInit]⟩
  | where_ _ takes called ih =>
    obtain ⟨⟨f, found⟩, rfl⟩ := queryWhere_eq_some called
    refine ⟨?_, ih.sorts⟩
    intro cond member
    rcases List.mem_append.mp member with earlier | new
    · exact ih.conditions cond earlier
    · rw [List.mem_singleton.mp new]
      exact ⟨f, found, takes f found⟩
  | orderBy _ called ih =>
    obtain ⟨found, rfl⟩ := queryOrderBy_eq_some called
    refine ⟨ih.conditions, ?_⟩
    intro sort member
    rcases List.mem_append.mp member with earlier | new
    · exact ih.sorts sort earlier
    · rw [List.mem_singleton.mp new]
      exact found
  | limit _ _ ih => exact ⟨ih.conditions, ih.sorts⟩
  | offset _ _ ih => exact ⟨ih.conditions, ih.sorts⟩

end BlueBird.Persist
