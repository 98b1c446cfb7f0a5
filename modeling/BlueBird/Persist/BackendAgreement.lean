import BlueBird.Persist.JsonStore
import BlueBird.Persist.SqliteModel

/-! The SQLite backend stands for the same maps as the backend with one file. -/

namespace BlueBird.Persist

open KeyedRows Refinement Migrate

variable {ι : Type}

/-! ## Rows of a table that Persist has made -/

section
variable {schema : Schema}

def stored (entity : Entity schema) : Row := insertedRow schema schema.columns entity.values

theorem columns_at {i : Nat} {f : Field} (field : schema.fields[i]? = some f) :
    schema.columns[i]? = some ⟨f.name, fieldTypeToSql f.type, i = schema.primaryKeyIndex⟩ := by
  unfold Schema.columns
  rw [List.getElem?_mapIdx, field]
  rfl

theorem pk_at : schema.fields[schema.primaryKeyIndex]? = some schema.pk := List.getElem?_eq_getElem schema.primaryKey

theorem stored_at (entity : Entity schema) {i : Nat} {f : Field} {value : FieldValue} (field : schema.fields[i]? = some f)
    (held : entity.values[i]? = some value) : (stored entity)[i]? = some (bindField f value) := by
  apply insertedRow_at schema schema.columns entity i i f value _ field held
  rw [columns_at field]
  rfl

theorem key_at (entity : Entity schema) : entity.values[schema.primaryKeyIndex]? = some entity.key := by
  have inside : schema.primaryKeyIndex < entity.values.length := by
    rw [entity.length_values]
    exact schema.primaryKey
  unfold Entity.key Schema.key
  rw [List.getD_eq_getElem?_getD, List.getElem?_eq_getElem inside]
  rfl

theorem stored_key (entity : Entity schema) : (stored entity)[schema.primaryKeyIndex]? = some (bindField schema.pk entity.key) :=
  stored_at entity pk_at (key_at entity)

theorem length_stored (entity : Entity schema) : (stored entity).length = schema.fields.length := by
  unfold stored insertedRow Table.newRow Schema.columns
  rw [List.length_map, List.length_mapIdx]

theorem readRow_stored (conv : Conversions) (entity : Entity schema) : readRow conv schema (stored entity) = entity.values := by
  apply readRow_insertedRow
  intro i f field
  left
  rw [columns_at field]
  rfl

theorem bindField_inj {f : Field} {a b : FieldValue} (first : f.Asks a) (second : f.Asks b) :
    bindField f a = bindField f b ↔ a = b := by
  constructor
  · intro same
    cases a with
    | int n =>
      cases b with
      | int k => exact congrArg FieldValue.int (Int32.toInt_inj.mp (Value.integer.inj same))
      | text t => cases same
      | blob b => exact absurd second id
    | text s =>
      cases b with
      | int k => cases same
      | text t => exact congrArg FieldValue.text (Value.text.inj same)
      | blob b => exact absurd second id
    | blob b => exact absurd first id
  · exact congrArg _

variable (keyed : schema.pk.type ≠ .blob)
include keyed

theorem Entity.asks (entity : Entity schema) : schema.pk.Asks entity.key := (key_holds entity).asks keyed

theorem stored_tests {key : FieldValue} (asks : schema.pk.Asks key) (entity : Entity schema) :
    (stored entity)[schema.primaryKeyIndex]? = some (bindField schema.pk key) ↔ entity.key = key := by
  rw [stored_key, Option.some.injEq]
  exact bindField_inj (entity.asks keyed) asks

end

/-- The table of a schema as Persist makes it, with the rows of these entities. -/
structure Made (schema : Schema) (t : Table) (rows : List (Entity schema)) : Prop where
  columns : t.columns = schema.columns
  rows : t.rows = rows.map stored

section
variable {schema : Schema} {t : Table} {rows : List (Entity schema)} (made : Made schema t rows)
include made

theorem Made.columnIndex {i : Nat} {f : Field} (field : schema.fields[i]? = some f) : t.columnIndex f.name = some i := by
  have column := columns_at field
  rw [← made.columns] at column
  exact columnIndex_eq t i _ column

theorem Made.pkIndex : t.columnIndex schema.pk.name = some schema.primaryKeyIndex := made.columnIndex pk_at

theorem Made.knows {name : String} (member : name ∈ schema.fields.map (·.name)) : (t.columnIndex name).isSome = true := by
  rcases List.mem_map.mp member with ⟨f, field, rfl⟩
  rcases List.getElem?_of_mem field with ⟨i, position⟩
  rw [made.columnIndex position]
  rfl

theorem Made.keyOf (entity : Entity schema) : Table.keyOf t.columns (stored entity) = [bindField schema.pk entity.key] := by
  have column := columns_at (pk_at : schema.fields[schema.primaryKeyIndex]? = some schema.pk)
  rw [← made.columns] at column
  apply keyOf_single t.columns schema.primaryKeyIndex _ _ _ column (decide_eq_true rfl) _ (stored_key entity)
  intro j a there flagged
  rw [made.columns] at there
  unfold Schema.columns at there
  rw [List.getElem?_mapIdx] at there
  rcases Option.map_eq_some_iff.mp there with ⟨f, _, rfl⟩
  exact of_decide_eq_true flagged

theorem Made.hasKey : t.columns.any (·.primaryKey) = true := by
  have column := columns_at (pk_at : schema.fields[schema.primaryKeyIndex]? = some schema.pk)
  rw [← made.columns] at column
  exact List.any_eq_true.mpr ⟨_, List.mem_of_getElem? column, decide_eq_true rfl⟩

end

/-! ## One operation on a table -/

theorem lookup_eraseIdx {α β : Type} [BEq α] [LawfulBEq α] {entries : List (α × β)} (distinct : (entries.map (·.1)).Nodup) {i : Nat}
    {key : α} {value : β} (here : entries[i]? = some (key, value)) (p : Nat) :
    (entries.eraseIdx p).lookup key = if p = i then none else some value := by
  induction entries generalizing i p with
  | nil => cases here
  | cons first entries ih =>
    rw [List.map_cons, List.nodup_cons] at distinct
    have absent : first.1 = key → entries.lookup key = none := by
      intro same
      rw [List.lookup_eq_none_iff]
      intro entry member
      rw [← same]
      apply bne_iff_ne.mpr
      intro equal
      exact distinct.1 (equal ▸ List.mem_map_of_mem member)
    cases i with
    | zero =>
      rw [List.getElem?_cons_zero, Option.some.injEq] at here
      subst here
      cases p with
      | zero =>
        rw [if_pos rfl]
        exact absent rfl
      | succ p =>
        rw [List.eraseIdx_cons_succ, if_neg (by omega)]
        exact List.lookup_cons_self
    | succ i =>
      rw [List.getElem?_cons_succ] at here
      have other : (key == first.1) = false := by
        apply beq_false_of_ne
        intro same
        exact distinct.1 (same ▸ List.mem_map_of_mem (List.mem_of_getElem? here))
      cases p with
      | zero =>
        rw [List.eraseIdx_cons_zero, if_neg (by omega)]
        have whole := ih distinct.2 here entries.length
        rw [List.eraseIdx_of_length_le (Nat.le_refl _)] at whole
        rw [whole, if_neg (Nat.ne_of_gt (List.getElem?_eq_some_iff.mp here).1)]
      | succ p =>
        rw [List.eraseIdx_cons_succ]
        show (first :: entries.eraseIdx p).lookup key = _
        rw [List.lookup_cons, other]
        dsimp only
        rw [ih distinct.2 here p]
        by_cases same : p = i
        · rw [if_pos same, if_pos (by omega)]
        · rw [if_neg same, if_neg (by omega)]

section
variable {schema : Schema}

theorem field_held (entity : Entity schema) {i : Nat} {f : Field} (field : schema.fields[i]? = some f) :
    ∃ value, entity.values[i]? = some value := by
  have inside : i < entity.values.length := by
    rw [entity.length_values]
    exact (List.getElem?_eq_some_iff.mp field).1
  exact ⟨_, List.getElem?_eq_getElem inside⟩

theorem lookup_assignments (entity : Entity schema) {i : Nat} {f : Field} {value : FieldValue} (field : schema.fields[i]? = some f)
    (held : entity.values[i]? = some value) :
    (assignments schema entity.values).lookup f.name = if schema.primaryKeyIndex = i then none else some (bindField f value) := by
  unfold assignments
  rw [← List.eraseIdx_map]
  apply lookup_eraseIdx
  · have names := names_zip entity
    rw [List.map_map]
    exact names
  · have here : (schema.fields.zip entity.values)[i]? = some (f, value) := List.getElem?_zip_eq_some.mpr ⟨field, held⟩
    rw [List.getElem?_map, here]
    rfl

theorem assign_stored {old entity : Entity schema} (same : old.key = entity.key) :
    Table.assign schema.columns (assignments schema entity.values) (stored old) = stored entity := by
  apply List.ext_getElem?
  intro i
  unfold Table.assign
  rw [List.getElem?_zipWith]
  cases field : schema.fields[i]? with
  | none =>
    have out : (stored entity)[i]? = none := by
      rw [List.getElem?_eq_none_iff, length_stored]
      exact List.getElem?_eq_none_iff.mp field
    have none_ : schema.columns[i]? = none := by
      unfold Schema.columns
      rw [List.getElem?_mapIdx, field]
      rfl
    rw [out, none_]
  | some f =>
    rcases field_held entity field with ⟨value, held⟩
    rcases field_held old field with ⟨before, had⟩
    rw [columns_at field, stored_at old field had, stored_at entity field held]
    show some (((assignments schema entity.values).lookup f.name).getD (bindField f before)) = _
    rw [lookup_assignments entity field held]
    by_cases key : schema.primaryKeyIndex = i
    · subst key
      rw [if_pos rfl, Option.getD_none]
      have first : before = old.key := Option.some.inj (had.symm.trans (key_at old))
      have second : value = entity.key := Option.some.inj (held.symm.trans (key_at entity))
      rw [first, second, same]
    · rw [if_neg key, Option.getD_some]

theorem assignments_known {t : Table} {rows : List (Entity schema)} (made : Made schema t rows) (entity : Entity schema) :
    ((assignments schema entity.values).all fun assignment => (t.columnIndex assignment.1).isSome) = true := by
  apply List.all_eq_true.mpr
  intro assignment member
  rcases List.mem_map.mp member with ⟨field, inside, rfl⟩
  have here := (List.of_mem_zip (List.mem_of_mem_eraseIdx inside)).1
  exact made.knows (List.mem_map_of_mem here)

theorem assignments_empty_iff (entity : Entity schema) : assignments schema entity.values = [] ↔ schema.fields.length = 1 := by
  have length : (assignments schema entity.values).length = schema.fields.length - 1 := by
    unfold assignments
    have zip : (schema.fields.zip entity.values).length = schema.fields.length := by
      rw [List.length_zip, entity.length_values, Nat.min_self]
    rw [List.length_map, List.length_eraseIdx_of_lt (by rw [zip]; exact schema.primaryKey), zip]
  have some_ := schema.primaryKey
  rw [← List.length_eq_zero_iff, length]
  omega

variable {db : Option Table} {rows : List (Entity schema)} {m : FieldValue → Option (Entity schema)} (keyed : schema.pk.type ≠ .blob)
  (made : Made schema (ensureTable schema db) rows) (holds : Represents Entity.key rows m)
include keyed made holds

theorem sqliteInsert_made (entity : Entity schema) :
    (m entity.key = none ∧ ∃ t, sqliteInsert schema db entity.values = some t ∧ Made schema t (rows ++ [entity])) ∨
    ((m entity.key).isSome ∧ sqliteInsert schema db entity.values = none) := by
  have row : Table.newRow (ensureTable schema db).columns (schema.fields.map (·.name)) (List.zipWith bindField schema.fields entity.values) =
      stored entity := by
    rw [made.columns]
    rfl
  have known : ((schema.fields.map (·.name)).all fun name => ((ensureTable schema db).columnIndex name).isSome) = true :=
    List.all_eq_true.mpr fun name member => made.knows member
  have clash : ((ensureTable schema db).rows.any fun r =>
      decide (Table.keyOf (ensureTable schema db).columns r = Table.keyOf (ensureTable schema db).columns (stored entity))) =
      (m entity.key).isSome := by
    rw [made.rows, List.any_map]
    apply holds.any_eq
    intro other _
    show decide (Table.keyOf _ (stored other) = _) = true ↔ _
    rw [decide_eq_true_eq, made.keyOf, made.keyOf, List.cons.injEq, bindField_inj (other.asks keyed) (entity.asks keyed)]
    exact and_iff_left rfl
  unfold sqliteInsert Table.insert
  dsimp only
  rw [row, known, made.hasKey, clash]
  cases at_ : m entity.key with
  | none =>
    refine Or.inl ⟨rfl, _, rfl, made.columns, ?_⟩
    show (ensureTable schema db).rows ++ [stored entity] = _
    rw [made.rows, List.map_append]
    rfl
  | some old => exact Or.inr ⟨rfl, rfl⟩

omit holds in
/-- How many rows a WHERE on the key meets. -/
theorem rows_met {key : FieldValue} (asks : schema.pk.Asks key) :
    ((ensureTable schema db).rows.filter fun row => row[schema.primaryKeyIndex]? = some (bindField schema.pk key)).length =
      (rows.filter fun entity => entity.key = key).length := by
  rw [made.rows, List.filter_map, List.length_map]
  congr 1
  apply List.filter_congr
  intro entity _
  exact decide_eq_decide.mpr (stored_tests keyed asks entity)

omit made keyed in
theorem met_pos_iff (key : FieldValue) : 0 < (rows.filter fun entity => entity.key = key).length ↔ (m key).isSome = true := by
  rw [List.length_pos_iff_exists_mem, ← holds.any_eq (p := fun entity => entity.key = key) fun _ _ => decide_eq_true_iff,
    List.any_eq_true]
  constructor
  · intro some_
    rcases some_ with ⟨entity, member⟩
    exact ⟨entity, List.mem_filter.mp member⟩
  · intro some_
    rcases some_ with ⟨entity, member⟩
    exact ⟨entity, List.mem_filter.mpr member⟩

theorem sqliteUpdate_made (entity : Entity schema) (several : schema.fields.length ≠ 1) :
    ∃ t changes rows', sqliteUpdate schema db entity.values = some (t, changes) ∧ (0 < changes ↔ (m entity.key).isSome = true) ∧
      Made schema t rows' ∧
      Represents Entity.key rows' (if (m entity.key).isSome then Function.update m entity.key (some entity) else m) := by
  have some_ : (assignments schema entity.values).isEmpty = false := by
    rw [List.isEmpty_eq_false_iff]
    exact fun none_ => several ((assignments_empty_iff entity).mp none_)
  let change (old : Entity schema) : Entity schema := if old.key = entity.key then entity else old
  have written : sqliteUpdate schema db entity.values = some ({ ensureTable schema db with
      rows := (ensureTable schema db).rows.map fun row =>
        if row[schema.primaryKeyIndex]? = some (bindField schema.pk entity.key) then
          Table.assign (ensureTable schema db).columns (assignments schema entity.values) row else row },
      ((ensureTable schema db).rows.filter fun row => row[schema.primaryKeyIndex]? = some (bindField schema.pk entity.key)).length) := by
    unfold sqliteUpdate Table.updateWhere
    rw [some_, assignments_known made entity, made.pkIndex]
    rfl
  refine ⟨_, _, rows.map change, written, ?_, ⟨made.columns, ?_⟩, ?_⟩
  · rw [rows_met keyed made (entity.asks keyed)]
    exact met_pos_iff holds entity.key
  · show (ensureTable schema db).rows.map _ = (rows.map change).map stored
    rw [made.rows, List.map_map, List.map_map]
    apply List.map_congr_left
    intro old _
    show (if (stored old)[schema.primaryKeyIndex]? = _ then _ else _) = stored (if old.key = entity.key then entity else old)
    by_cases same : old.key = entity.key
    · rw [if_pos ((stored_tests keyed (entity.asks keyed) old).mpr same), if_pos same, made.columns]
      exact assign_stored same
    · rw [if_neg fun equal => same ((stored_tests keyed (entity.asks keyed) old).mp equal), if_neg same]
  · cases at_ : m entity.key with
    | none =>
      have same : rows.map change = rows := by
        have each : ∀ old ∈ rows, change old = old := fun old member => if_neg (holds.none_iff.mp at_ old member)
        exact (List.map_congr_left each).trans (List.map_id _)
      rw [same]
      exact holds
    | some old =>
      apply holds.map rfl
      · rw [at_]
        exact nofun
      · exact fun _ _ same => if_pos same
      · exact fun _ _ differs => if_neg differs

omit keyed made holds in
theorem sqliteUpdate_single (entity : Entity schema) (single : schema.fields.length = 1) :
    sqliteUpdate schema db entity.values = none := by
  unfold sqliteUpdate Table.updateWhere
  rw [(assignments_empty_iff entity).mpr single]
  rfl

theorem sqliteRemove_made {key : FieldValue} (asks : schema.pk.Asks key) :
    ∃ t changes rows', sqliteRemoveByPk schema db key = some (t, changes) ∧ (0 < changes ↔ (m key).isSome = true) ∧
      Made schema t rows' ∧ Represents Entity.key rows' (Function.update m key none) := by
  have written : sqliteRemoveByPk schema db key = some ({ ensureTable schema db with
      rows := (ensureTable schema db).rows.filter fun row => row[schema.primaryKeyIndex]? ≠ some (bindField schema.pk key) },
      ((ensureTable schema db).rows.filter fun row => row[schema.primaryKeyIndex]? = some (bindField schema.pk key)).length) := by
    unfold sqliteRemoveByPk Table.deleteWhere
    rw [made.pkIndex]
    rfl
  refine ⟨_, _, rows.filter fun entity => entity.key ≠ key, written, ?_, ⟨made.columns, ?_⟩, ?_⟩
  · rw [rows_met keyed made asks]
    exact met_pos_iff holds key
  · show (ensureTable schema db).rows.filter _ = _
    rw [made.rows, List.filter_map]
    congr 1
    apply List.filter_congr
    intro entity _
    exact decide_eq_decide.mpr (not_congr (stored_tests keyed asks entity))
  · exact holds.filter fun _ _ => decide_eq_true_iff

theorem sqliteFindByPk_made (conv : Conversions) {key : FieldValue} (asks : schema.pk.Asks key) :
    sqliteFindByPk conv schema db key = (m key).map Entity.values := by
  have found : ((ensureTable schema db).rows.filter fun r => r[schema.primaryKeyIndex]? = some (bindField schema.pk key)).head? =
      (m key).map stored := by
    rw [List.head?_filter, made.rows, List.find?_map]
    congr 1
    exact holds.find?_eq fun entity _ => decide_eq_true_iff.trans (stored_tests keyed asks entity)
  unfold sqliteFindByPk Table.selectWhere
  rw [made.pkIndex, Option.map_some]
  cases met : (ensureTable schema db).rows.filter fun r => r[schema.primaryKeyIndex]? = some (bindField schema.pk key) with
  | nil =>
    rw [met] at found
    cases at_ : m key with
    | none => rfl
    | some entity =>
      rw [at_] at found
      cases found
  | cons row rest =>
    rw [met] at found
    cases at_ : m key with
    | none =>
      rw [at_] at found
      cases found
    | some entity =>
      rw [at_] at found
      cases found
      exact congrArg some (readRow_stored conv entity)

omit keyed holds in
theorem sqliteFindAll_made (conv : Conversions) : sqliteFindAll conv schema db = rows.map Entity.values := by
  unfold sqliteFindAll
  rw [made.rows, List.map_map]
  exact List.map_congr_left fun entity _ => readRow_stored conv entity

end

/-! ## Runs -/

/-- Schemas for both backends: plain names that differ not only by case, and no blobs. -/
structure Portable (rules : SqliteRules) (schemas : ι → Schema) : Prop where
  names : ∀ i, rules.Names (schemas i)
  apart : ∀ i j, folded (schemas i).name = folded (schemas j).name → i = j
  spelled : ∀ i, (schemas i).Spelled
  plain : ∀ i, ∀ f ∈ (schemas i).fields, f.type ≠ .blob

theorem Portable.shared {rules : SqliteRules} {schemas : ι → Schema} (portable : Portable rules schemas) : Shared schemas :=
  ⟨portable.spelled, portable.plain, fun i j same => portable.apart i j (congrArg folded same)⟩

/-- Within SQLite's sizes, and no update of an entity that is nothing but its key. -/
structure Updatable (rules : SqliteRules) {schemas : ι → Schema} (m : Entities schemas) (call : ModelCall schemas) : Prop where
  sizes : rules.Sizes call
  several : ∀ entity, call.op = .update entity → (schemas call.table).fields.length = 1 → m call.table entity.key = none

/-- Each table, made at the first operation, has the rows of its entities. -/
def TablesKeep {schemas : ι → Schema} (m : Entities schemas) (db : SqliteTables) : Prop :=
  ∀ i, ∃ rows, Made (schemas i) (ensureTable (schemas i) (db.table? (schemas i))) rows ∧ Rows m i rows

section
variable {rules : SqliteRules} {schemas : ι → Schema} (portable : Portable rules schemas) {m m' : Entities schemas} {db : SqliteTables}
include portable

theorem TablesKeep.put (keeps : TablesKeep m db) {i : ι} {t : Table} {rows : List (Entity (schemas i))} (made : Made (schemas i) t rows)
    (own : Rows m' i rows) (others : ∀ j, j ≠ i → m' j = m j) : TablesKeep m' (db.put (schemas i) t) := by
  intro j
  unfold SqliteTables.table? SqliteTables.put
  rw [OrderedMap.get?_set]
  by_cases same : j = i
  · subst same
    rw [if_pos rfl]
    exact ⟨rows, made, own⟩
  · rw [if_neg fun equal => same (portable.apart j i equal)]
    rcases keeps j with ⟨old, made_, old_⟩
    refine ⟨old, made_, ?_⟩
    unfold Rows
    rw [others j same]
    exact old_

theorem TablesKeep.ensure (keeps : TablesKeep m db) (i : ι) :
    TablesKeep m (db.put (schemas i) (ensureTable (schemas i) (db.table? (schemas i)))) := by
  rcases keeps i with ⟨rows, made, own⟩
  exact keeps.put portable made own fun _ _ => rfl

variable [DecidableEq ι] (conv : Conversions)

/-- A call that writes succeeds and leaves the changed map, or fails and leaves the map as it was. -/
def Writes (m : Entities schemas) (call : ModelCall schemas) (result : SqliteTables × Int) : Prop :=
  (m.succeeds call = true ∧ result.2 = 0 ∧ TablesKeep (m.change call) result.1) ∨
    (m.succeeds call = false ∧ result.2 = -1 ∧ TablesKeep m result.1)

omit portable in
theorem Writes.answered {call : ModelCall schemas} {result : SqliteTables × Int} (writes : Writes m call result)
    (nothing : m.found call = []) (other : call.op ≠ .findAll) :
    (modelStore schemas).answers m call ⟨result.2, [], []⟩ ∧ TablesKeep ((modelStore schemas).next m call) result.1 := by
  show m.Answers call _ ∧ TablesKeep (m.next call) result.1
  unfold Entities.next
  rcases writes with ⟨succeeds, zero, keeps⟩ | ⟨fails, minus, keeps⟩
  · rw [if_pos succeeds]
    exact ⟨answers_write nothing other ⟨fun _ => succeeds, fun _ => zero⟩, keeps⟩
  · rw [fails, if_neg (by decide), minus]
    exact ⟨answers_write nothing other ⟨nofun, fun succeeds => absurd (fails.symm.trans succeeds) nofun⟩, keeps⟩

omit portable in
/-- What `sqlite3_changes` tells of a statement that was run. -/
theorem changed_writes {call : ModelCall schemas} {t : Table} {changes : Nat} (met : 0 < changes ↔ m.succeeds call = true)
    (changed_ : m.succeeds call = true → TablesKeep (m.change call) (db.put (schemas call.table) t))
    (left : m.succeeds call = false → TablesKeep m (db.put (schemas call.table) t)) :
    Writes m call (changed db (schemas call.table) (some (t, changes))) := by
  unfold changed
  cases succeeds : m.succeeds call with
  | true => exact Or.inl ⟨succeeds, if_pos (met.mpr succeeds), changed_ succeeds⟩
  | false =>
    refine Or.inr ⟨succeeds, if_neg ?_, left succeeds⟩
    intro some_
    exact absurd (succeeds.symm.trans (met.mp some_)) nofun

theorem sqliteInsert_writes (keeps : TablesKeep m db) {i : ι} (entity : Entity (schemas i)) :
    Writes m ⟨i, .insert entity⟩ ((sqliteModelApi conv).insert (schemas i) db entity.values) := by
  have keyed := pk_of_shared portable.shared i
  rcases keeps i with ⟨rows, made, own⟩
  unfold sqliteModelApi
  dsimp only
  rcases sqliteInsert_made keyed made own entity with ⟨absent, t, inserted, made_⟩ | ⟨present, refused⟩
  · rw [inserted]
    refine Or.inl ⟨Option.isNone_iff_eq_none.mpr absent, rfl, ?_⟩
    apply keeps.put portable made_ _ fun j differs => put_other m i _ _ differs
    show Represents Entity.key _ (m.put i entity.key (some entity) i)
    rw [put_self]
    exact own.append absent
  · rw [refused]
    refine Or.inr ⟨?_, rfl, keeps.ensure portable i⟩
    show (m i entity.key).isNone = false
    rw [← Option.not_isSome, present]
    rfl

theorem sqliteUpdate_writes (keeps : TablesKeep m db) {i : ι} (entity : Entity (schemas i))
    (several : (schemas i).fields.length = 1 → m i entity.key = none) :
    Writes m ⟨i, .update entity⟩ ((sqliteModelApi conv).update (schemas i) db entity.values) := by
  have keyed := pk_of_shared portable.shared i
  rcases keeps i with ⟨rows, made, own⟩
  show Writes m ⟨i, .update entity⟩ (changed db (schemas i) (sqliteUpdate (schemas i) (db.table? (schemas i)) entity.values))
  by_cases single : (schemas i).fields.length = 1
  · rw [sqliteUpdate_single entity single]
    refine Or.inr ⟨?_, rfl, keeps.ensure portable i⟩
    show (m i entity.key).isSome = false
    rw [several single]
    rfl
  · rcases sqliteUpdate_made keyed made own entity single with ⟨t, changes, rows', written, met, made_, own_⟩
    rw [written]
    refine changed_writes met ?_ ?_
    · intro succeeds
      apply keeps.put portable made_ _ fun j differs => put_other m i _ _ differs
      show Represents Entity.key _ (m.put i entity.key (some entity) i)
      rw [put_self]
      change (m i entity.key).isSome = true at succeeds
      rw [if_pos succeeds] at own_
      exact own_
    · intro fails
      apply keeps.put portable made_ _ fun _ _ => rfl
      change (m i entity.key).isSome = false at fails
      rw [fails] at own_
      exact own_

theorem sqliteRemove_writes (keeps : TablesKeep m db) {i : ι} (key : Key (schemas i)) :
    Writes m ⟨i, .remove key⟩ ((sqliteModelApi conv).remove (schemas i) db key.value) := by
  have keyed := pk_of_shared portable.shared i
  rcases keeps i with ⟨rows, made, own⟩
  show Writes m ⟨i, .remove key⟩ (changed db (schemas i) (sqliteRemoveByPk (schemas i) (db.table? (schemas i)) key.value))
  rcases sqliteRemove_made keyed made own key.asks with ⟨t, changes, rows', written, met, made_, own_⟩
  rw [written]
  refine changed_writes met ?_ ?_
  · intro _
    apply keeps.put portable made_ _ fun j differs => put_other m i _ _ differs
    show Represents Entity.key _ (m.put i key.value none i)
    rw [put_self]
    exact own_
  · intro fails
    have absent : m i key.value = none := Option.isNone_iff_eq_none.mp (by rw [← Option.not_isSome]; exact congrArg not fails)
    apply keeps.put portable made_ _ fun _ _ => rfl
    have same : Function.update (m i) key.value none = m i := by
      rw [← absent]
      exact Function.update_eq_self ..
    rw [same] at own_
    exact own_

theorem sqliteMachine_simulates :
    Simulates (sqliteMachine conv rules schemas) (modelStore schemas) (Updatable rules) TablesKeep := by
  intro m db call keeps updatable
  have defined : rules.Names (schemas call.table) ∧ rules.Sizes call := ⟨portable.names _, updatable.sizes⟩
  have step : (sqliteMachine conv rules schemas).step db call = some ((sqliteModelApi conv).call db call.op) := if_pos defined
  refine ⟨_, _, step, ?_⟩
  rcases call with ⟨i, op⟩
  have keyed := pk_of_shared portable.shared i
  rcases keeps i with ⟨rows, made, own⟩
  cases op with
  | insert entity => exact (sqliteInsert_writes portable conv keeps entity).answered rfl nofun
  | update entity => exact (sqliteUpdate_writes portable conv keeps entity (updatable.several entity rfl)).answered rfl nofun
  | remove key => exact (sqliteRemove_writes portable conv keeps key).answered rfl nofun
  | findByPk key out =>
    have found := sqliteFindByPk_made keyed made own conv key.asks
    refine ⟨?_, ?_⟩
    · apply answers_findByPk
      dsimp only [sqliteModelApi]
      rw [found]
      cases at_ : m i key.value with
      | none => exact Or.inl ⟨rfl, rfl⟩
      | some entity => exact Or.inr ⟨entity, rfl, rfl⟩
    · show TablesKeep (m.next ⟨i, .findByPk key out⟩) _
      rw [next_findByPk]
      exact keeps.ensure portable i
  | findAll =>
    refine ⟨?_, ?_⟩
    · show m.Answers ⟨i, .findAll⟩ ⟨0, [], sqliteFindAll conv (schemas i) (db.table? (schemas i))⟩
      rw [sqliteFindAll_made made]
      exact answers_findAll (lists_of_rows own)
    · show TablesKeep (m.next ⟨i, .findAll⟩) _
      rw [next_findAll]
      exact keeps.ensure portable i

end

theorem tablesKeep_empty (schemas : ι → Schema) : TablesKeep (Entities.empty : Entities schemas) [] :=
  fun _ => ⟨[], ⟨rfl, rfl⟩, represents_nil _⟩

/-- From no file and an empty database on, the two backends agree in every run that keeps within both their sizes and
    updates no present entity that is nothing but its key. -/
theorem backends_agree [DecidableEq ι] {R : Type} [Reals R] {rules : SqliteRules} {schemas : ι → Schema}
    (portable : Portable rules schemas) (numbers : Json.ReadsNumbers R) (malloc : Nat → Bytes) (conv : Conversions) {path : Bytes}
    {place : Path} {files : FileSystem} (resolved : files.resolve path = some place) (inside : place ≠ [])
    (absent : files.node? place = none) (calls : List (ModelCall schemas))
    (roomy : (jsonMachine R malloc path schemas).Guarded (Roomy R path) files calls)
    (updatable : (modelStore schemas).Guarded (Updatable rules) Entities.empty calls) :
    ∃ after results db results', (jsonMachine R malloc path schemas).run files calls = some (after, results) ∧
      (sqliteMachine conv rules schemas).run [] calls = some (db, results') ∧
      List.Forall₂ (fun r r' => Agree r.toModelResult r') results results' := by
  have start : FileKeeps R path place (Entities.empty : Entities schemas) files := fileKeeps_absent resolved inside absent
  rcases (jsonMachine_simulates portable.shared numbers malloc).run start roomy with ⟨after, results, run, explained, _⟩
  rcases (sqliteMachine_simulates portable conv).run (tablesKeep_empty schemas) updatable with ⟨db, results', run', explained', _⟩
  refine ⟨after, results, db, results', run, run', ?_⟩
  have next : (modelStore schemas).next = (fileStore schemas).next := rfl
  have agree : ∀ m call (r : FileResult) r', (fileStore schemas).answers m call r → (modelStore schemas).answers m call r' →
      Agree r.toModelResult r' := fun _ _ _ _ first second => first.1.agree second
  exact Behaviour.Explains.agree next agree explained explained'

/-- A parameter for what SQLite does with values of other kinds, which it never has here. -/
def noConversions : Conversions := ⟨fun _ => 0, fun _ => none, fun _ => []⟩

def lowerCase : SqliteRules where
  plain name := ! name.toList.isEmpty && name.toList.all Char.isLower
  maxColumns := 2000
  admits values := values.length ≤ 2000

theorem onlyCounters_portable : Portable lowerCase onlyCounters :=
  ⟨fun _ => (by decide : lowerCase.Names counters), fun _ _ _ => rfl, fun _ => counters_spelled,
    fun _ => (by decide : ∀ f ∈ counters.fields, f.type ≠ .blob)⟩

theorem backends_agree_counters : ∃ after results db results',
    (@jsonMachine Unit Nat tenths (fun _ => []) (ascii "db") onlyCounters).run {} oneInsert = some (after, results) ∧
      (sqliteMachine noConversions lowerCase onlyCounters).run [] oneInsert = some (db, results') ∧
      List.Forall₂ (fun r r' => Agree r.toModelResult r') results results' := by
  apply @backends_agree Unit _ Nat tenths lowerCase onlyCounters onlyCounters_portable tenths_numbers (fun _ => []) noConversions
    (ascii "db") [ascii "db"] {} rfl (by decide) rfl oneInsert oneInsert_roomy
  refine ⟨⟨(by decide), ?_⟩, trivial⟩
  intro entity same single
  exact absurd single (by decide)

def tags : Schema where
  name := "tags"
  fields := [⟨"name", .string, 16⟩]
  primaryKeyIndex := 0
  primaryKey := by decide
  sizes := by decide
  distinct := by decide

def onlyTags (_ : Unit) : Schema := tags

def tag : Entity tags := ⟨[.text (ascii "a")], .cons ⟨rfl, by decide, by decide⟩ .nil⟩

def insertAndUpdate : List (ModelCall onlyTags) := [⟨(), .insert tag⟩, ⟨(), .update tag⟩]

theorem jsonUpdate_tag : (@jsonUpdate Nat tenths (fun _ => []) tags
    (@jsonInsert Nat tenths (fun _ => []) tags {} (ascii "db") tag.values).1 (ascii "db") tag.values).2 = 0 := by
  decide +kernel

theorem sqliteUpdate_tag : ((sqliteModelApi noConversions).update tags
    ((sqliteModelApi noConversions).insert tags [] tag.values).1 tag.values).2 = -1 := by
  decide +kernel

theorem not_agree_of_update {R : Type} [Reals R] {malloc : Nat → Bytes} {path : Bytes} {schemas : ι → Schema} {rules : SqliteRules}
    {conv : Conversions} {files after : FileSystem} {db db' : SqliteTables} {i : ι} {entity : Entity (schemas i)}
    (names : rules.Names (schemas i)) (sizes : rules.Sizes (⟨i, .update entity⟩ : ModelCall schemas))
    (succeeds : (jsonUpdate R malloc (schemas i) (jsonInsert R malloc (schemas i) files path entity.values).1 path entity.values).2 = 0)
    (fails : ((sqliteModelApi conv).update (schemas i) ((sqliteModelApi conv).insert (schemas i) db entity.values).1 entity.values).2 ≠ 0)
    {results : List FileResult} {results' : List ModelResult}
    (run : (jsonMachine R malloc path schemas).run files [⟨i, .insert entity⟩, ⟨i, .update entity⟩] = some (after, results))
    (run' : (sqliteMachine conv rules schemas).run db [⟨i, .insert entity⟩, ⟨i, .update entity⟩] = some (db', results')) :
    ¬List.Forall₂ (fun r r' => Agree r.toModelResult r') results results' := by
  intro agree
  rw [Machine.run_pair (jsonMachine_insert malloc path schemas files entity) (jsonMachine_update malloc path schemas _ entity)] at run
  have first : (sqliteMachine conv rules schemas).step db ⟨i, .insert entity⟩ = some ((sqliteModelApi conv).call db (.insert entity)) :=
    if_pos ⟨names, sizes⟩
  have second : (sqliteMachine conv rules schemas).step ((sqliteModelApi conv).insert (schemas i) db entity.values).1 ⟨i, .update entity⟩ =
      some ((sqliteModelApi conv).call ((sqliteModelApi conv).insert (schemas i) db entity.values).1 (.update entity)) :=
    if_pos ⟨names, sizes⟩
  rw [Machine.run_pair first second] at run'
  have same : _ = results := congrArg Prod.snd (Option.some.inj run)
  have same' : _ = results' := congrArg Prod.snd (Option.some.inj run')
  rw [← same, ← same'] at agree
  cases agree with
  | cons _ rest =>
    cases rest with
    | cons updated _ => exact fails (updated.success.mp succeeds)

/-- A tag is nothing but its name: writing it again succeeds in the file, and is no SQL. -/
theorem not_agree_tags : ¬ ∀ calls : List (ModelCall onlyTags), ∃ after results db results',
    (@jsonMachine Unit Nat tenths (fun _ => []) (ascii "db") onlyTags).run {} calls = some (after, results) ∧
      (sqliteMachine noConversions lowerCase onlyTags).run [] calls = some (db, results') ∧
      List.Forall₂ (fun r r' => Agree r.toModelResult r') results results' := by
  intro all
  rcases all insertAndUpdate with ⟨after, results, db, results', run, run', agree⟩
  have names : lowerCase.Names tags := by decide
  have refused : ((sqliteModelApi noConversions).update tags ((sqliteModelApi noConversions).insert tags [] tag.values).1 tag.values).2 ≠ 0 :=
    ne_of_eq_of_ne sqliteUpdate_tag (by decide)
  exact @not_agree_of_update Unit Nat tenths (fun _ => []) (ascii "db") onlyTags lowerCase noConversions _ _ _ _ () tag names
    (by decide) jsonUpdate_tag refused _ _ run run' agree

end BlueBird.Persist
