import BlueBird.Collections.Window
import BlueBird.Persist.ColumnOrder
import BlueBird.Persist.Select

/-! The in-memory evaluation against SQLite's. -/

namespace BlueBird.Persist

open Migrate

/-! ## Comparison -/

theorem compare_int (a b : Int) : compare a b = if a < b then .lt else if a = b then .eq else .gt := rfl

theorem compare_byte (x y : Byte) : compare x y = if x < y then .lt else if x = y then .eq else .gt := rfl

theorem compare_sub {x y : Byte} (apart : x ≠ y) : compare ((x.toNat : Int) - y.toNat) 0 = compare x y := by
  have nats : x.toNat ≠ y.toNat := fun same => apart (UInt8.toNat_inj.mp same)
  rw [compare_int, compare_byte]
  by_cases less : x < y
  · have smaller : x.toNat < y.toNat := UInt8.lt_iff_toNat_lt.mp less
    rw [if_pos less, if_pos (by omega)]
  · have greater : ¬ x.toNat < y.toNat := fun smaller => less (UInt8.lt_iff_toNat_lt.mpr smaller)
    rw [if_neg less, if_neg apart, if_neg (by omega), if_neg (by omega)]

theorem compare_cons_self (x : Byte) (a b : Bytes) : compare (x :: a) (x :: b) = compare a b := by
  show List.compareLex compare (x :: a) (x :: b) = _
  rw [List.compareLex_cons_cons, show compare x x = .eq from Std.ReflCmp.compare_self]
  rfl

theorem compare_cons_of_ne {x y : Byte} (apart : x ≠ y) (a b : Bytes) : compare (x :: a) (y :: b) = compare x y := by
  show List.compareLex compare (x :: a) (y :: b) = _
  rw [List.compareLex_cons_cons]
  cases order : compare x y with
  | lt => rfl
  | eq => exact absurd (Std.LawfulEqCmp.eq_of_compare order) apart
  | gt => rfl

theorem compare_strncmp {n : Nat} {a b : Bytes} (room : a.length < n) (cleanA : (0 : Byte) ∉ a) (cleanB : (0 : Byte) ∉ b) :
    compare (strncmp n a b) 0 = compare a b := by
  induction n generalizing a b with
  | zero => exact absurd room (Nat.not_lt_zero _)
  | succ n ih =>
    unfold strncmp
    cases a with
    | nil =>
      cases b with
      | nil => rfl
      | cons y b =>
        have nonzero : (0 : Byte) ≠ y := fun zero => cleanB (zero ▸ List.mem_cons_self ..)
        rw [List.headD_nil, List.headD_cons, if_pos nonzero, compare_sub nonzero, compare_byte,
          if_pos (UInt8.pos_iff_ne_zero.mpr nonzero.symm)]
        rfl
    | cons x a =>
      have nonzero : x ≠ 0 := fun zero => cleanA (zero ▸ List.mem_cons_self ..)
      cases b with
      | nil =>
        rw [List.headD_nil, List.headD_cons, if_pos nonzero, compare_sub nonzero, compare_byte,
          if_neg (UInt8.not_lt.mpr (UInt8.zero_le)), if_neg nonzero]
        rfl
      | cons y b =>
        rw [List.headD_cons, List.headD_cons]
        by_cases same : x = y
        · subst same
          rw [if_neg (not_not_intro rfl), if_neg nonzero, List.tail_cons, List.tail_cons, compare_cons_self]
          exact ih (Nat.lt_of_succ_lt_succ room) (fun zero => cleanA (List.mem_cons_of_mem _ zero))
            (fun zero => cleanB (List.mem_cons_of_mem _ zero))
        · rw [if_pos same, compare_sub same, compare_cons_of_ne same]

theorem compare_memcmp {a b : Bytes} (alike : a.length = b.length) :
    compare (memcmp a.length a b) 0 = compare a b := by
  induction a generalizing b with
  | nil =>
    cases b with
    | nil => rfl
    | cons y b => cases alike
  | cons x a ih =>
    cases b with
    | nil => cases alike
    | cons y b =>
      rw [List.length_cons, memcmp, List.headD_cons, List.headD_cons]
      by_cases same : x = y
      · subst same
        rw [if_neg (not_not_intro rfl), List.tail_cons, List.tail_cons, compare_cons_self]
        exact ih (Nat.succ.inj alike)
      · rw [if_pos same, compare_sub same, compare_cons_of_ne same]

theorem compare_int32 (a b : Int32) :
    compare ((if a > b then 1 else 0) - (if a < b then 1 else 0) : Int) 0 = compare a.toInt b.toInt := by
  rw [compare_int, compare_int]
  simp only [gt_iff_lt, Int32.lt_iff_toInt_lt]
  split_ifs <;> first | rfl | omega

theorem fieldCompare_order {f : Field} {op : QueryOp} {held value : FieldValue} (holds : f.Holds held)
    (takes : f.Takes op value) (plain : op ≠ .like) :
    compare (fieldCompare f held value) 0 = (bindField f held).order (bindField f value) := by
  unfold Field.Takes at takes
  unfold fieldCompare
  cases held with
  | int n =>
    have type : f.type = .int := holds
    rw [type] at takes ⊢
    obtain like | ⟨m, rfl⟩ := takes
    · exact absurd like plain
    · exact compare_int32 n m
  | text s =>
    obtain ⟨textual, clean, room⟩ := holds
    have strings : ∀ t, value = .text t → (0 : Byte) ∉ t →
        compare (strncmp f.size s value.asBytes) 0 = (bindField f (.text s)).order (bindField f value) := by
      rintro t rfl cleanT
      exact compare_strncmp room clean cleanT
    cases type : f.type with
    | int => rw [type] at textual; cases textual
    | blob => rw [type] at textual; cases textual
    | string =>
      rw [type] at takes
      obtain ⟨t, isText, cleanT⟩ := takes
      exact strings t isText cleanT
    | uuid =>
      rw [type] at takes
      obtain ⟨t, isText, cleanT⟩ := takes
      exact strings t isText cleanT
  | blob b =>
    obtain ⟨type, length⟩ := holds
    rw [type] at takes ⊢
    obtain like | ⟨c, rfl, lengthC⟩ := takes
    · exact absurd like plain
    · show compare (memcmp f.size b c) 0 = compare (b.take f.size) (c.take f.size)
      rw [List.take_of_length_le (by omega), List.take_of_length_le (by omega), ← length]
      exact compare_memcmp (by omega)

theorem Field.Holds.takes {f : Field} {held : FieldValue} (holds : f.Holds held) (op : QueryOp) : f.Takes op held := by
  unfold Field.Takes
  cases held with
  | int n =>
    have type : f.type = .int := holds
    rw [type]
    exact .inr ⟨n, rfl⟩
  | text s =>
    obtain ⟨textual, clean, _⟩ := holds
    cases type : f.type with
    | int => rw [type] at textual; cases textual
    | blob => rw [type] at textual; cases textual
    | string => exact ⟨s, rfl, clean⟩
    | uuid => exact ⟨s, rfl, clean⟩
  | blob b =>
    obtain ⟨type, length⟩ := holds
    rw [type]
    exact .inr ⟨b, rfl, length⟩

/-! ## Columns -/

/-- The row that is stored for an entity. -/
def storedRow (schema : Schema) (values : List FieldValue) : Row := List.zipWith bindField schema.fields values

theorem column_zip (fields : List Field) (columns : List Column) (values : List FieldValue) (name : String)
    (names : columns.map (·.name) = fields.map (·.name)) :
    ((columns.zip (List.zipWith bindField fields values)).find? (·.1.name = name)).map (·.2) =
      ((fields.zip values).find? (·.1.name = name)).map fun p => bindField p.1 p.2 := by
  induction fields generalizing columns values with
  | nil => simp
  | cons f fields ih =>
    cases columns with
    | nil => cases names
    | cons c columns =>
      cases values with
      | nil => simp
      | cons v values =>
        rw [List.map_cons, List.map_cons, List.cons.injEq] at names
        rw [List.zipWith_cons_cons, List.zip_cons_cons, List.zip_cons_cons, List.find?_cons, List.find?_cons]
        dsimp only
        rw [names.1]
        by_cases same : f.name = name
        · simp [same]
        · simpa [same] using ih columns values names.2

theorem columnValue_storedRow (schema : Schema) (values : List FieldValue) (name : String) :
    columnValue schema.columns (storedRow schema values) name =
      ((fieldOf schema values name).map fun p => bindField p.1 p.2).getD .null := by
  unfold columnValue storedRow fieldOf
  rw [column_zip schema.fields schema.columns values name schema.columns_names]

theorem fieldOf_zip {fields : List Field} {values : List FieldValue} (holds : List.Forall₂ Field.Holds fields values)
    {name : String} {f : Field} (found : fields.find? (·.name = name) = some f) :
    ∃ held, (fields.zip values).find? (·.1.name = name) = some (f, held) ∧ f.Holds held := by
  induction holds with
  | nil => cases found
  | @cons first value fields values here _ ih =>
    rw [List.find?_cons] at found
    rw [List.zip_cons_cons, List.find?_cons]
    dsimp only
    by_cases same : first.name = name
    · simp only [same, decide_true] at found ⊢
      cases found
      exact ⟨value, rfl, here⟩
    · simp only [same, decide_false] at found ⊢
      exact ih found

theorem Entity.fieldOf {schema : Schema} (entity : Entity schema) {name : String} {f : Field}
    (found : findField schema name = some f) :
    ∃ held, fieldOf schema entity.values name = some (f, held) ∧ f.Holds held :=
  fieldOf_zip entity.holds found

/-! ## Conditions -/

section Tests

variable (cmp : Int)

theorem compare_zero : compare cmp 0 = if cmp < 0 then .lt else if cmp = 0 then .eq else .gt := rfl

theorem order_tests : decide (cmp = 0) = (compare cmp 0 == .eq) ∧ decide (cmp ≠ 0) = (compare cmp 0 != .eq) ∧
    decide (cmp < 0) = (compare cmp 0 == .lt) ∧ decide (cmp ≤ 0) = (compare cmp 0 != .gt) ∧
      decide (cmp > 0) = (compare cmp 0 == .gt) ∧ decide (cmp ≥ 0) = (compare cmp 0 != .lt) := by
  rw [compare_zero]
  rcases Int.lt_trichotomy cmp 0 with less | zero | greater
  · simp [less, show ¬ cmp = 0 by omega, show cmp ≤ 0 by omega, show ¬ 0 < cmp by omega, show ¬ 0 ≤ cmp by omega]
  · simp [zero]
  · simp [show ¬ cmp < 0 by omega, show ¬ cmp = 0 by omega, show ¬ cmp ≤ 0 by omega, greater, show 0 ≤ cmp by omega]

end Tests

theorem bindField_ne_null (f : Field) (value : FieldValue) : bindField f value ≠ .null := by
  cases value <;> simp [bindField]

theorem SqlOp.holds_bound (op : SqlOp) {a b : Value} (someA : a ≠ .null) (someB : b ≠ .null) :
    op.holds a b = op.test a b := by
  unfold SqlOp.holds
  rw [if_neg (not_or.mpr ⟨someA, someB⟩)]

variable {schema : Schema}

theorem condMatches_found {values : List FieldValue} {cond : QueryCond} {f : Field} {held : FieldValue}
    (found : fieldOf schema values cond.field = some (f, held)) (plain : cond.op ≠ .like) (takes : f.Takes cond.op cond.value)
    (holds : f.Holds held) :
    condMatches schema values cond = (queryOpToSql cond.op).test (bindField f held) (bindField f cond.value) := by
  have order := fieldCompare_order holds takes plain
  obtain ⟨eq, ne, lt, le, gt, ge⟩ := order_tests (fieldCompare f held cond.value)
  unfold condMatches
  rw [found]
  dsimp only
  cases op : cond.op with
  | like => exact absurd op plain
  | eq => rw [eq, order]; rfl
  | ne => rw [ne, order]; rfl
  | lt => rw [lt, order]; rfl
  | lte => rw [le, order]; rfl
  | gt => rw [gt, order]; rfl
  | gte => rw [ge, order]; rfl

theorem condMatches_like {values : List FieldValue} {cond : QueryCond} {f : Field} {held : FieldValue}
    (found : fieldOf schema values cond.field = some (f, held)) (like : cond.op = .like) :
    condMatches schema values cond = (f.type.textual && likeMatch held.asBytes cond.value.asBytes) := by
  unfold condMatches
  rw [found]
  dsimp only
  rw [like]
  cases textual : f.type.textual <;> simp

theorem Field.Holds.text {f : Field} {held : FieldValue} (holds : f.Holds held) (textual : f.type.textual = true) :
    held = .text held.asBytes := by
  cases held with
  | int n =>
    have type : f.type = .int := holds
    rw [type] at textual
    cases textual
  | text s => rfl
  | blob b =>
    rw [holds.1] at textual
    cases textual

theorem Field.Holds.int {f : Field} {held : FieldValue} (holds : f.Holds held) (type : f.type = .int) :
    ∃ n, held = .int n := by
  cases held with
  | int n => exact ⟨n, rfl⟩
  | text s => have textual := holds.1; rw [type] at textual; cases textual
  | blob b => have blob := holds.1; rw [type] at blob; cases blob

theorem Field.Holds.blob {f : Field} {held : FieldValue} (holds : f.Holds held) (type : f.type = .blob) :
    ∃ b, held = .blob b := by
  cases held with
  | int n => have int : f.type = .int := holds; rw [type] at int; cases int
  | text s => have textual := holds.1; rw [type] at textual; cases textual
  | blob b => exact ⟨b, rfl⟩

/-- Each value goes to its own `?`, and the WHERE clause with the values is the conditions. -/
theorem bindConditions_spec (conditions : List QueryCond) (i : Nat)
    (typed : ∀ cond ∈ conditions, ∃ f, findField schema cond.field = some f ∧ f.Takes cond.op cond.value) :
    ∃ bound, bindConditions schema i conditions = some bound ∧
      bound.map (·.1) = wherePlaceholders i (conditions.map (whereTerm schema)) ∧
      ∀ (entity : Entity schema) (behind : List Value),
        whereHolds schema.columns (storedRow schema entity.values) (conditions.map (whereTerm schema))
            (bound.map (·.2) ++ behind) = conditions.all (condMatches schema entity.values) := by
  induction conditions generalizing i with
  | nil => exact ⟨[], rfl, rfl, fun _ _ => rfl⟩
  | cons cond conditions ih =>
    obtain ⟨rest, binds, slots, same⟩ := ih (i + 1) fun other member => typed other (List.mem_cons_of_mem _ member)
    obtain ⟨f, found, takes⟩ := typed cond (List.mem_cons_self ..)
    have column : ∀ entity : Entity schema, ∃ held, fieldOf schema entity.values cond.field = some (f, held) ∧
        f.Holds held ∧ columnValue schema.columns (storedRow schema entity.values) cond.field = bindField f held := by
      intro entity
      obtain ⟨held, here, holds⟩ := entity.fieldOf found
      exact ⟨held, here, holds, by rw [columnValue_storedRow, here]; rfl⟩
    rw [bindConditions, found]
    dsimp only
    rw [binds, List.map_cons, whereTerm, found]
    dsimp only
    by_cases like : cond.op = .like
    · by_cases textual : f.type.textual = true
      · refine ⟨_, by rw [if_pos like, if_pos textual]; rfl, ?_, ?_⟩
        · rw [if_neg (fun zero => zero.2 textual), wherePlaceholders, ← slots]
          rfl
        · intro entity behind
          obtain ⟨held, here, holds, value⟩ := column entity
          rw [if_neg (fun zero => zero.2 textual), List.all_cons, ← same entity behind, condMatches_like here like,
            textual, Bool.true_and, like, ← glob_likePatternToGlob]
          show (SqlOp.holds .glob (columnValue _ _ cond.field) (.text (likePatternToGlob cond.value.asBytes)) && _) = _
          rw [value, SqlOp.holds_bound _ (bindField_ne_null _ _) (by simp), holds.text textual]
          rfl
      · refine ⟨rest, by rw [if_pos like, if_neg textual]; rfl, ?_, ?_⟩
        · rw [if_pos ⟨like, textual⟩, wherePlaceholders, slots]
        · intro entity behind
          obtain ⟨held, here, _, _⟩ := column entity
          rw [if_pos ⟨like, textual⟩, List.all_cons, condMatches_like here like, Bool.eq_false_iff.mpr textual]
          rfl
    · refine ⟨_, by rw [if_neg like]; rfl, ?_, ?_⟩
      · rw [if_neg (fun zero => like zero.1), wherePlaceholders, ← slots]
        rfl
      · intro entity behind
        obtain ⟨held, here, holds, value⟩ := column entity
        rw [if_neg (fun zero => like zero.1), List.all_cons, ← same entity behind,
          condMatches_found here like takes holds]
        show ((queryOpToSql cond.op).holds (columnValue _ _ cond.field) (bindField f cond.value) && _) = _
        rw [value, SqlOp.holds_bound _ (bindField_ne_null _ _) (bindField_ne_null _ _)]
        rfl

/-! ## Sorting -/

theorem compare_neg (cmp : Int) : compare (-cmp) 0 = (compare cmp 0).swap := by
  rw [compare_zero, compare_zero]
  rcases Int.lt_trichotomy cmp 0 with less | zero | greater
  · rw [if_neg (show ¬ -cmp < 0 by omega), if_neg (show ¬ -cmp = 0 by omega), if_pos less]
    rfl
  · rw [zero]
    rfl
  · rw [if_pos (show -cmp < 0 by omega), if_neg (show ¬ cmp < 0 by omega), if_neg (show ¬ cmp = 0 by omega)]
    rfl

theorem sortCmp_order (sorts : List QuerySort)
    (typed : ∀ sort ∈ sorts, ∃ f, findField schema sort.field = some f) (a b : Entity schema) :
    compare (sortCmp schema sorts a.values b.values) 0 =
      orderRows schema.columns sorts (storedRow schema a.values) (storedRow schema b.values) := by
  induction sorts with
  | nil => rfl
  | cons sort sorts ih =>
    have rest := ih fun other member => typed other (List.mem_cons_of_mem _ member)
    obtain ⟨f, found⟩ := typed sort (List.mem_cons_self ..)
    obtain ⟨heldA, hereA, holdsA⟩ := a.fieldOf found
    obtain ⟨heldB, hereB, holdsB⟩ := b.fieldOf found
    have order := fieldCompare_order holdsA (holdsB.takes .eq) (by decide)
    rw [sortCmp, hereA, hereB, orderRows, columnValue_storedRow, columnValue_storedRow, hereA, hereB]
    dsimp only [Option.map_some, Option.getD_some]
    rw [← order, ← rest]
    by_cases tie : fieldCompare f heldA heldB = 0
    · rw [if_neg (not_not_intro tie), tie]
      cases sort.direction <;> rfl
    · have apart : compare (fieldCompare f heldA heldB) 0 ≠ .eq := fun equal => tie (Std.LawfulEqCmp.eq_of_compare equal)
      rw [if_pos tie]
      by_cases ascending : sort.direction = .asc
      · rw [if_pos ascending, if_pos ascending]
        cases way : compare (fieldCompare f heldA heldB) 0 with
        | lt => rfl
        | eq => exact absurd way apart
        | gt => rfl
      · rw [if_neg ascending, if_neg ascending, compare_neg]
        cases way : compare (fieldCompare f heldA heldB) 0 with
        | lt => rfl
        | eq => exact absurd way apart
        | gt => rfl

theorem isLE_iff (cmp : Int) : (compare cmp 0).isLE = true ↔ cmp ≤ 0 := by
  have le := (order_tests cmp).2.2.2.1
  rw [show cmp ≤ 0 ↔ decide (cmp ≤ 0) = true from decide_eq_true_iff.symm, le]
  cases compare cmp 0 <;> decide

def Value.bytes : Value → Bytes
  | .text s => s
  | .blob b => b
  | _ => []

theorem order_held {f : Field} {v w : FieldValue} (holdsV : f.Holds v) (holdsW : f.Holds w) :
    (bindField f v).order (bindField f w) =
      if f.type = .int then compare (bindField f v).number (bindField f w).number
      else compare (bindField f v).bytes (bindField f w).bytes := by
  cases type : f.type with
  | int =>
    obtain ⟨m, rfl⟩ := holdsV.int type
    obtain ⟨n, rfl⟩ := holdsW.int type
    rw [if_pos rfl]
    rfl
  | string =>
    have textual : f.type.textual = true := by rw [type]; rfl
    rw [if_neg (by decide), holdsV.text textual, holdsW.text textual]
    rfl
  | uuid =>
    have textual : f.type.textual = true := by rw [type]; rfl
    rw [if_neg (by decide), holdsV.text textual, holdsW.text textual]
    rfl
  | blob =>
    obtain ⟨b, rfl⟩ := holdsV.blob type
    obtain ⟨c, rfl⟩ := holdsW.blob type
    rw [if_neg (by decide)]
    rfl

/-- The order of two entities by one column. -/
def columnOrder (schema : Schema) (name : String) (a b : Entity schema) : Ordering :=
  (columnValue schema.columns (storedRow schema a.values) name).order
    (columnValue schema.columns (storedRow schema b.values) name)

theorem columnOrder_trans {name : String} {f : Field} (found : findField schema name = some f) :
    Std.TransCmp (columnOrder schema name) := by
  let stored := fun e : Entity schema => columnValue schema.columns (storedRow schema e.values) name
  have keyed : columnOrder schema name =
      if f.type = .int then compareOn fun e => (stored e).number else compareOn fun e => (stored e).bytes := by
    funext a b
    obtain ⟨heldA, hereA, holdsA⟩ := a.fieldOf found
    obtain ⟨heldB, hereB, holdsB⟩ := b.fieldOf found
    have valueA : stored a = bindField f heldA := by
      show columnValue _ _ _ = _
      rw [columnValue_storedRow, hereA]
      rfl
    have valueB : stored b = bindField f heldB := by
      show columnValue _ _ _ = _
      rw [columnValue_storedRow, hereB]
      rfl
    show (stored a).order (stored b) = _
    rw [valueA, valueB, order_held holdsA holdsB]
    by_cases type : f.type = .int
    · rw [if_pos type, if_pos type, ← valueA, ← valueB]
      rfl
    · rw [if_neg type, if_neg type, ← valueA, ← valueB]
      rfl
  rw [keyed]
  by_cases type : f.type = .int
  · rw [if_pos type]
    infer_instance
  · rw [if_neg type]
    infer_instance

def entityOrder (schema : Schema) (sorts : List QuerySort) (a b : Entity schema) : Ordering :=
  orderRows schema.columns sorts (storedRow schema a.values) (storedRow schema b.values)

theorem entityOrder_trans (sorts : List QuerySort) (typed : ∀ sort ∈ sorts, ∃ f, findField schema sort.field = some f) :
    Std.TransCmp (entityOrder schema sorts) := by
  induction sorts with
  | nil => exact { eq_swap := rfl, isLE_trans := fun _ _ => rfl }
  | cons sort sorts ih =>
    obtain ⟨f, found⟩ := typed sort (List.mem_cons_self ..)
    have rest := ih fun other member => typed other (List.mem_cons_of_mem _ member)
    have column := columnOrder_trans found
    by_cases ascending : sort.direction = .asc
    · have lex : entityOrder schema (sort :: sorts) =
          compareLex (columnOrder schema sort.field) (entityOrder schema sorts) := by
        funext a b
        show (if _ then _ else _ : Ordering).then _ = _
        rw [if_pos ascending]
        rfl
      rw [lex]
      infer_instance
    · have lex : entityOrder schema (sort :: sorts) =
          compareLex (fun a b => columnOrder schema sort.field b a) (entityOrder schema sorts) := by
        funext a b
        show (if _ then _ else (columnOrder schema sort.field a b).swap : Ordering).then _ = _
        rw [if_neg ascending, ← Std.OrientedCmp.eq_swap]
        rfl
      rw [lex]
      have flipped : Std.TransCmp fun a b => columnOrder schema sort.field b a := Std.TransCmp.opposite
      infer_instance

theorem exists_sorted (sorts : List QuerySort) (typed : ∀ sort ∈ sorts, ∃ f, findField schema sort.field = some f)
    (entities : List (Entity schema)) :
    ∃ s : List (Entity schema), s.Perm entities ∧ s.Pairwise fun a b => sortCmp schema sorts a.values b.values ≤ 0 := by
  have trans := entityOrder_trans sorts typed
  refine ⟨entities.mergeSort fun a b => (entityOrder schema sorts a b).isLE, List.mergeSort_perm _ _, ?_⟩
  apply @List.Pairwise.imp _ fun a b => (entityOrder schema sorts a b).isLE = true
  · intro a b le
    rw [← isLE_iff, sortCmp_order sorts typed]
    exact le
  · apply List.pairwise_mergeSort
    · intro a b c first second
      exact Std.TransCmp.isLE_trans first second
    · intro a b
      rw [@Std.OrientedCmp.eq_swap _ (entityOrder schema sorts) _ b a]
      cases entityOrder schema sorts a b <;> rfl

/-! ## Pages -/

/-- The positions that a limit and an offset leave; below zero they are not set. -/
def OnPage (limit offset : Int) (i : Nat) : Prop := offset ≤ i ∧ (0 ≤ limit → (i : Int) < max offset 0 + limit)

def pageOf {α : Type} (limit offset : Int) (s : List α) : List α :=
  (s.drop offset.toNat).take (if 0 ≤ limit then limit.toNat else s.length)

theorem onPage_iff {limit offset : Int} {m i : Nat} (inside : i < m) :
    (offset.toNat ≤ i ∧ i < offset.toNat + (if 0 ≤ limit then limit.toNat else m)) ↔ OnPage limit offset i := by
  unfold OnPage
  by_cases set : 0 ≤ limit
  · rw [if_pos set]
    omega
  · rw [if_neg set]
    omega

theorem pageOf_eq_iff {α : Type} {s : List α} (distinct : s.Nodup) (limit offset limit' offset' : Int) :
    pageOf limit offset s = pageOf limit' offset' s ↔
      ∀ i < s.length, OnPage limit offset i ↔ OnPage limit' offset' i := by
  unfold pageOf
  constructor
  · intro same i inside
    rw [← onPage_iff inside, ← onPage_iff inside]
    exact Window.positions_of_eq distinct same i inside
  · intro same
    apply Window.eq_of_positions
    intro i inside
    rw [onPage_iff inside, onPage_iff inside]
    exact same i inside

theorem pageOf_map {α β : Type} (f : α → β) (limit offset : Int) (s : List α) :
    (pageOf limit offset s).map f = pageOf limit offset (s.map f) := by
  unfold pageOf
  rw [List.map_take, List.map_drop, List.length_map]

theorem nonneg_iff (n : Int64) : n ≥ 0 ↔ 0 ≤ n.toInt := Int64.le_iff_toInt_le

theorem queryPage_eq (q : Query) (s : List (List FieldValue)) :
    queryPage q s = pageOf q.limit.toInt q.offset.toInt s := by
  have start : (if q.offset > 0 then q.offset.toInt.toNat else 0) = q.offset.toInt.toNat := by
    have positive : q.offset > 0 ↔ 0 < q.offset.toInt := Int64.lt_iff_toInt_lt
    by_cases set : q.offset > 0
    · rw [if_pos set]
    · rw [if_neg set]
      rw [positive] at set
      omega
  unfold queryPage pageOf
  rw [start]
  dsimp only
  by_cases beyond : q.offset.toInt.toNat ≥ s.length
  · rw [if_pos beyond, List.drop_eq_nil_of_le beyond, List.take_nil]
  rw [if_neg beyond]
  by_cases set : q.limit ≥ 0
  · rw [if_pos ((nonneg_iff _).mp set)]
    by_cases less : q.limit.toInt.toNat < s.length - q.offset.toInt.toNat
    · rw [if_pos ⟨set, less⟩]
    · rw [if_neg (fun both => less both.2), List.take_of_length_le (by rw [List.length_drop]),
        List.take_of_length_le (by rw [List.length_drop]; omega)]
  · rw [if_neg (fun least => set ((nonneg_iff _).mpr least)), if_neg (fun both => set both.1), List.take_of_length_le (by rw [List.length_drop]),
      List.take_of_length_le (by rw [List.length_drop]; omega)]

/-- A limit or an offset as it is bound: cast to `int` where it is set. -/
def castLong (n : Int64) : Int := if n ≥ 0 then n.toInt32.toInt else n.toInt

theorem castLong_unset {n : Int64} (unset : ¬ n ≥ 0) : castLong n < 0 := by
  unfold castLong
  rw [if_neg unset]
  rw [nonneg_iff] at unset
  omega

theorem limitRows_eq (n offset : Int) (rows : List Row) : limitRows (some n) offset rows = pageOf n offset rows := by
  unfold limitRows pageOf
  dsimp only
  by_cases set : 0 ≤ n
  · rw [if_neg (by omega), if_pos set]
  · rw [if_pos (by omega), if_neg set, List.take_of_length_le (by rw [List.length_drop]; omega)]

theorem pageOf_unset {α : Type} {limit : Int} (unset : limit < 0) (offset : Int) (s : List α) :
    pageOf limit offset s = s.drop offset.toNat := by
  unfold pageOf
  rw [if_neg (by omega), List.take_of_length_le (by rw [List.length_drop]; omega)]

theorem pageOf_from {α : Type} (limit : Int) {offset : Int} (unset : offset < 0) (s : List α) :
    pageOf limit 0 s = pageOf limit offset s := by
  unfold pageOf
  rw [Int.toNat_of_nonpos (by omega : offset ≤ 0)]
  rfl

theorem selectStatement_page (q : Query) {bound : List (Slot × Value)}
    (slots : bound.map (·.1) = wherePlaceholders 0 (q.conditions.map (whereTerm schema))) (rows : List Row) :
    (selectStatement schema q).page
        ((bound ++ (if q.limit ≥ 0 then [(Slot.limit, Value.integer q.limit.toInt32.toInt)] else []) ++
          (if q.offset ≥ 0 then [(Slot.offset, Value.integer q.offset.toInt32.toInt)] else [])).map (·.2)) rows =
      pageOf (castLong q.limit) (castLong q.offset) rows := by
  have length : (wherePlaceholders 0 (q.conditions.map (whereTerm schema))).length = (bound.map (·.2)).length := by
    rw [← slots, List.length_map, List.length_map]
  unfold SelectStatement.page selectStatement
  dsimp only
  rw [length, List.append_assoc, List.map_append, List.drop_left]
  by_cases limit : q.limit ≥ 0
  · have cast : castLong q.limit = q.limit.toInt32.toInt := if_pos limit
    rw [if_pos limit, if_pos limit]
    by_cases offset : q.offset ≥ 0
    · have castOffset : castLong q.offset = q.offset.toInt32.toInt := if_pos offset
      rw [if_pos offset, cast, castOffset]
      simp only [offset, decide_true, if_true]
      exact limitRows_eq _ _ _
    · rw [if_neg offset, cast, ← pageOf_from _ (castLong_unset offset)]
      simp only [offset, decide_false, Bool.false_eq_true, if_false]
      exact limitRows_eq _ _ _
  · rw [if_neg limit, if_neg limit, pageOf_unset (castLong_unset limit)]
    by_cases offset : q.offset ≥ 0
    · have castOffset : castLong q.offset = q.offset.toInt32.toInt := if_pos offset
      rw [if_pos offset, if_pos offset, castOffset]
      simp only [offset, decide_true, if_true]
      exact (limitRows_eq _ _ _).trans (pageOf_unset (by decide) _ _)
    · have none := castLong_unset offset
      rw [if_neg offset, if_neg offset, Int.toNat_of_nonpos (by omega)]
      simp only [offset, decide_false, Bool.false_eq_true, if_false]
      rfl

/-! ## Agreement -/

theorem Schema.columns_distinct (schema : Schema) : (schema.columns.map (·.name)).Nodup :=
  schema.columns_names ▸ schema.distinct

def storedTable (schema : Schema) (stored : List (Entity schema)) : Table where
  columns := schema.columns
  distinct := schema.columns_distinct
  rows := stored.map fun entity => storedRow schema entity.values

theorem readRow_storedRow (conv : Conversions) (entity : Entity schema) :
    readRow conv schema (storedRow schema entity.values) = entity.values := by
  apply readRow_values
  intro i inside inValues holds
  have stored : (storedRow schema entity.values)[i]? = some (bindField schema.fields[i] entity.values[i]) := by
    rw [storedRow, List.getElem?_zipWith, List.getElem?_eq_getElem inside, List.getElem?_eq_getElem inValues]
  exact readColumn_bindField conv _ i _ _ holds stored

/-- The bindings fill the `?` one by one, and for every order in which the two paths may leave the
    matching entities they give the same page. -/
def Alike (conv : Conversions) (schema : Schema) (q : Query) (stored : List (Entity schema)) : Prop :=
  ∃ bound, bindings schema q = some bound ∧ bound.map (·.1) = (selectStatement schema q).placeholders ∧
    ∀ s out, q.Answers schema (stored.map (·.values)) s out ↔
      ∃ rows page, (selectStatement schema q).Answers (bound.map (·.2)) (storedTable schema stored) rows page ∧
        rows.map (readRow conv schema) = s ∧ page.map (readRow conv schema) = out

section Agreement

variable {q : Query} {stored : List (Entity schema)}

theorem bindings_spec (typed : q.WellTyped schema) :
    ∃ bound, bindings schema q = some bound ∧ bound.map (·.1) = (selectStatement schema q).placeholders ∧
      (∀ entity : Entity schema, whereHolds schema.columns (storedRow schema entity.values)
        (selectStatement schema q).where_ (bound.map (·.2)) = queryMatches schema q entity.values) ∧
      ∀ rows, (selectStatement schema q).page (bound.map (·.2)) rows =
        pageOf (castLong q.limit) (castLong q.offset) rows := by
  obtain ⟨bound, binds, slots, holds⟩ := bindConditions_spec q.conditions 0 typed.conditions
  refine ⟨_, by unfold bindings; rw [binds]; rfl, ?_, ?_, selectStatement_page q slots⟩
  · unfold SelectStatement.placeholders selectStatement
    dsimp only
    rw [List.map_append, List.map_append, slots]
    by_cases limit : q.limit ≥ 0 <;> by_cases offset : q.offset ≥ 0 <;> simp [limit, offset]
  · intro entity
    rw [List.append_assoc, List.map_append]
    exact holds entity _

theorem filter_storedTable {bound : List Value}
    (holds : ∀ entity : Entity schema, whereHolds schema.columns (storedRow schema entity.values)
      (selectStatement schema q).where_ bound = queryMatches schema q entity.values) :
    ((storedTable schema stored).rows.filter fun row =>
        whereHolds schema.columns row (selectStatement schema q).where_ bound) =
      ((stored.map (·.values)).filter (queryMatches schema q)).map (storedRow schema) := by
  show (stored.map fun entity => storedRow schema entity.values).filter _ = _
  rw [List.filter_map, List.filter_map, List.map_map]
  apply congrArg
  apply List.filter_congr
  intro entity _
  exact holds entity

theorem sqlite_answers_iff (conv : Conversions) (typed : q.WellTyped schema) {bound : List Value}
    (holds : ∀ entity : Entity schema, whereHolds schema.columns (storedRow schema entity.values)
      (selectStatement schema q).where_ bound = queryMatches schema q entity.values)
    (pages : ∀ rows, (selectStatement schema q).page bound rows = pageOf (castLong q.limit) (castLong q.offset) rows)
    (s out : List (List FieldValue)) :
    (∃ rows page, (selectStatement schema q).Answers bound (storedTable schema stored) rows page ∧
        rows.map (readRow conv schema) = s ∧ page.map (readRow conv schema) = out) ↔
      s.Perm ((stored.map (·.values)).filter (queryMatches schema q)) ∧
        (s.Pairwise fun a b => sortCmp schema q.sorts a b ≤ 0) ∧
          out = pageOf (castLong q.limit) (castLong q.offset) s := by
  have entityOf : ∀ values ∈ (stored.map (·.values)).filter (queryMatches schema q),
      ∃ entity : Entity schema, entity.values = values := by
    intro values member
    obtain ⟨entity, _, same⟩ := List.mem_map.mp (List.mem_of_mem_filter member)
    exact ⟨entity, same⟩
  have order : ∀ a b : Entity schema, sortCmp schema q.sorts a.values b.values ≤ 0 ↔
      (orderRows schema.columns q.sorts (storedRow schema a.values) (storedRow schema b.values)).isLE = true := by
    intro a b
    rw [← sortCmp_order q.sorts typed.sorts, isLE_iff]
  constructor
  · rintro ⟨rows, page, answers, rfl, rfl⟩
    have perm := answers.perm
    rw [show (storedTable schema stored).columns = schema.columns from rfl, filter_storedTable holds] at perm
    have stands : ∀ row ∈ rows, ∃ entity : Entity schema, storedRow schema entity.values = row := by
      intro row member
      obtain ⟨values, kept, same⟩ := List.mem_map.mp (perm.subset member)
      obtain ⟨entity, rfl⟩ := entityOf values kept
      exact ⟨entity, same⟩
    refine ⟨?_, ?_, ?_⟩
    · have read := perm.map (readRow conv schema)
      rw [List.map_map] at read
      have same : ((stored.map (·.values)).filter (queryMatches schema q)).map
          (readRow conv schema ∘ storedRow schema) = ((stored.map (·.values)).filter (queryMatches schema q)).map id := by
        apply List.map_congr_left
        intro values member
        obtain ⟨entity, rfl⟩ := entityOf values member
        exact readRow_storedRow conv entity
      rwa [same, List.map_id] at read
    · apply List.pairwise_map.mpr
      apply answers.ordered.imp_of_mem
      intro a b memberA memberB le
      obtain ⟨first, rfl⟩ := stands a memberA
      obtain ⟨second, rfl⟩ := stands b memberB
      rw [readRow_storedRow, readRow_storedRow, order]
      exact le
    · rw [answers.page, pages, pageOf_map]
  · rintro ⟨perm, sorted, rfl⟩
    have back : (s.map (storedRow schema)).map (readRow conv schema) = s := by
      rw [List.map_map]
      calc
        _ = s.map id := by
          apply List.map_congr_left
          intro values member
          obtain ⟨entity, rfl⟩ := entityOf values (perm.subset member)
          exact readRow_storedRow conv entity
        _ = s := List.map_id s
    refine ⟨s.map (storedRow schema), _, ⟨?_, ?_, rfl⟩, back, ?_⟩
    · rw [show (storedTable schema stored).columns = schema.columns from rfl, filter_storedTable holds]
      exact perm.map _
    · apply List.pairwise_map.mpr
      apply sorted.imp_of_mem
      intro a b memberA memberB le
      obtain ⟨first, rfl⟩ := entityOf a (perm.subset memberA)
      obtain ⟨second, rfl⟩ := entityOf b (perm.subset memberB)
      exact (order first second).mp le
    · rw [pages, pageOf_map, back]

end Agreement

def numbers : Schema where
  name := "numbers"
  fields := [⟨"n", .int, 4⟩]
  primaryKeyIndex := 0
  primaryKey := by decide
  sizes := by decide
  distinct := by decide

def number (n : Int32) : Entity numbers := ⟨[.int n], .cons rfl .nil⟩

/-- What SQLite converts a stored NULL to; the other conversions do not occur in these rows. -/
def nullConversions : Conversions := ⟨fun _ => 0, fun _ => none, fun _ => []⟩

end BlueBird.Persist
