import BlueBird.Persist.Sqlite
import Mathlib.Data.List.Perm.Basic

namespace BlueBird.Persist

open Migrate

/-! ## Writing by name -/

theorem lookup_zip {α β : Type} [BEq α] [LawfulBEq α] (keys : List α) (values : List β) (distinct : keys.Nodup)
    (i : Nat) (key : α) (value : β) (atKey : keys[i]? = some key) (atValue : values[i]? = some value) :
    (keys.zip values).lookup key = some value := by
  induction keys generalizing values i with
  | nil => cases atKey
  | cons first keys ih =>
    obtain ⟨fresh, rest⟩ := List.nodup_cons.mp distinct
    cases values with
    | nil => cases atValue
    | cons head values =>
      cases i with
      | zero =>
        cases atKey
        cases atValue
        simp
      | succ i =>
        simp only [List.getElem?_cons_succ] at atKey atValue
        have other : key ≠ first := by
          rintro rfl
          exact fresh (List.mem_of_getElem? atKey)
        rw [List.zip_cons_cons, List.lookup_cons, beq_false_of_ne other]
        exact ih values rest i atKey atValue

/-- The row that `sqlite_insert` adds. -/
def insertedRow (schema : Schema) (columns : List Column) (values : List FieldValue) : Row :=
  Table.newRow columns (schema.fields.map (·.name)) (List.zipWith bindField schema.fields values)

theorem insertedRow_at (schema : Schema) (columns : List Column) (entity : Entity schema) (k i : Nat)
    (f : Field) (value : FieldValue) (named : (columns[k]?).map (·.name) = some f.name)
    (field : schema.fields[i]? = some f) (held : entity.values[i]? = some value) :
    (insertedRow schema columns entity.values)[k]? = some (bindField f value) := by
  obtain ⟨c, column, name⟩ := Option.map_eq_some_iff.mp named
  have found := lookup_zip (schema.fields.map (·.name)) (List.zipWith bindField schema.fields entity.values)
    schema.distinct i f.name (bindField f value) (by simp [field])
    (by rw [List.getElem?_zipWith, field, held])
  simp [insertedRow, Table.newRow, column, name, found]

theorem sqliteInsert_some {schema : Schema} {t table : Table} {values : List FieldValue}
    (inserted : sqliteInsert schema (some t) values = some table) :
    table.columns = t.columns ∧ table.rows = t.rows ++ [insertedRow schema t.columns values] ∧
      (t.columns.any (·.primaryKey) = true → ∀ r ∈ t.rows,
        Table.keyOf t.columns r ≠ Table.keyOf t.columns (insertedRow schema t.columns values)) := by
  unfold sqliteInsert ensureTable Table.insert at inserted
  by_cases unknown : ¬ ((schema.fields.map (·.name)).all fun name => (t.columnIndex name).isSome) = true
  · rw [if_pos unknown] at inserted
    cases inserted
  · rw [if_neg unknown] at inserted
    by_cases clash : (t.columns.any (·.primaryKey) && t.rows.any fun r =>
        decide (Table.keyOf t.columns r = Table.keyOf t.columns (insertedRow schema t.columns values))) = true
    · rw [insertedRow] at clash
      rw [if_pos clash] at inserted
      cases inserted
    · rw [insertedRow] at clash
      rw [if_neg clash, Option.some.injEq] at inserted
      subst inserted
      refine ⟨rfl, rfl, fun keyed r member same => clash ?_⟩
      rw [Bool.and_eq_true]
      exact ⟨keyed, List.any_eq_true.mpr ⟨r, member, decide_eq_true same⟩⟩

/-! ## Reading by position -/

/-- A field that can hold the empty string only. -/
def Field.OneValue (f : Field) : Prop := f.type.textual = true ∧ f.size = 1

theorem readColumn_bindField (conv : Conversions) (row : Row) (i : Nat) (f : Field) (value : FieldValue)
    (holds : f.Holds value) (stored : row[i]? = some (bindField f value)) :
    readColumn conv row i f = value := by
  have column : row.getD i .null = bindField f value := by simp [stored]
  unfold readColumn
  rw [column]
  cases value with
  | int n =>
    have type : f.type = .int := holds
    simp [type, bindField, Conversions.columnInt]
  | text s =>
    obtain ⟨textual, noNul, fits⟩ := holds
    have copied := copyTextField_fits f.size s noNul fits
    cases type : f.type <;> simp_all [FieldType.textual, bindField, Conversions.columnText]
  | blob b =>
    obtain ⟨type, length⟩ := holds
    simp [type, bindField, Conversions.columnBlob, ← length]

theorem readColumn_oneValue (conv : Conversions) (row : Row) (i : Nat) (f : Field) (value : FieldValue)
    (one : f.OneValue) (holds : f.Holds value) : readColumn conv row i f = value := by
  obtain ⟨textual, size⟩ := one
  have read : readColumn conv row i f = .text [] := by
    unfold readColumn
    cases type : f.type <;> simp_all [FieldType.textual, copyTextField_one]
  rw [read]
  cases value with
  | int n =>
    have type : f.type = .int := holds
    rw [type] at textual
    cases textual
  | text s =>
    have empty : s.length = 0 := by
      have := holds.2.2
      omega
    rw [List.eq_nil_of_length_eq_zero empty]
  | blob b =>
    rw [holds.1] at textual
    cases textual

/-- Field `i` is read from its own column, or there is only one value to be read. -/
def Aligned (schema : Schema) (columns : List Column) : Prop :=
  ∀ (i : Nat) (f : Field), schema.fields[i]? = some f →
    (columns[i]?).map (·.name) = some f.name ∨ f.OneValue

theorem readRow_values {schema : Schema} (conv : Conversions) (entity : Entity schema) (row : Row)
    (each : ∀ (i : Nat) (inFields : i < schema.fields.length) (inValues : i < entity.values.length),
      schema.fields[i].Holds entity.values[i] → readColumn conv row i schema.fields[i] = entity.values[i]) :
    readRow conv schema row = entity.values := by
  have length := entity.length_values
  apply List.ext_getElem
  · simp [readRow, length]
  · intro i _ inValues
    have inside : i < schema.fields.length := by omega
    simp only [readRow, List.getElem_mapIdx]
    exact each i inside inValues (List.forall₂_iff_get.mp entity.holds |>.2 i inside inValues)

theorem readRow_insertedRow (conv : Conversions) (schema : Schema) (columns : List Column)
    (aligned : Aligned schema columns) (entity : Entity schema) :
    readRow conv schema (insertedRow schema columns entity.values) = entity.values := by
  apply readRow_values
  intro i inside inValues holds
  have field := List.getElem?_eq_getElem inside
  have held := List.getElem?_eq_getElem inValues
  rcases aligned i schema.fields[i] field with named | one
  · exact readColumn_bindField conv _ i _ _ holds (insertedRow_at schema columns entity i i _ _ named field held)
  · exact readColumn_oneValue conv _ i _ _ one holds

/-! ## Finding the row again -/

def schemaSpec (schema : Schema) : TableSpec where
  table := schema.name
  columns := schema.columns

theorem same_position {α β : Type} (xs : List α) (f : α → β) (distinct : (xs.map f).Nodup) (i j : Nat) (a b : α)
    (first : xs[i]? = some a) (second : xs[j]? = some b) (same : f a = f b) : i = j := by
  have inside : i < (xs.map f).length := by
    rw [List.length_map]
    exact (List.getElem?_eq_some_iff.mp first).1
  apply (List.getElem?_inj inside distinct).mp
  simp [first, second, same]

section SameColumns

variable {schema : Schema} {columns : List Column} (distinct : (columns.map (·.name)).Nodup)
  (same : specDiff (schemaSpec schema) { table := schema.name, columns } = [])

include same

theorem column_of_field (i : Nat) (f : Field) (field : schema.fields[i]? = some f) :
    ∃ k : Nat, columns[k]? = some ⟨f.name, fieldTypeToSql f.type, i = schema.primaryKeyIndex⟩ := by
  apply List.getElem?_of_mem
  apply (specDiff_nil same).1
  apply List.mem_of_getElem? (i := i)
  simp [schemaSpec, Schema.columns, field]

include distinct

theorem column_of_schema (j : Nat) (a : Column) (column : columns[j]? = some a) :
    ∃ (i : Nat) (f : Field), schema.fields[i]? = some f ∧
      a = ⟨f.name, fieldTypeToSql f.type, i = schema.primaryKeyIndex⟩ := by
  obtain ⟨present, known⟩ := specDiff_nil same
  obtain ⟨e, expected, name⟩ := known a (List.mem_of_getElem? column)
  obtain ⟨k, atK⟩ := List.getElem?_of_mem (present e expected)
  obtain ⟨i, atI⟩ := List.getElem?_of_mem expected
  obtain rfl := same_position columns (·.name) distinct j k a e column atK name.symm
  rw [column, Option.some.injEq] at atK
  simp only [schemaSpec, Schema.columns, List.getElem?_mapIdx, Option.map_eq_some_iff] at atI
  obtain ⟨f, field, rfl⟩ := atI
  exact ⟨i, f, field, atK⟩

theorem primaryKey_only : ∃ (k : Nat) (c : Column), columns[k]? = some c ∧ c.name = schema.pk.name ∧
    c.primaryKey = true ∧ ∀ (j : Nat) (a : Column), columns[j]? = some a → a.primaryKey = true → j = k := by
  have keyed : schema.fields[schema.primaryKeyIndex]? = some schema.pk := by
    simp [schema.primaryKey, Schema.pk]
  obtain ⟨k, position⟩ := column_of_field same _ _ keyed
  refine ⟨k, _, position, rfl, decide_eq_true rfl, fun j a column flagged => ?_⟩
  obtain ⟨i, f, field, rfl⟩ := column_of_schema distinct same j a column
  obtain rfl : i = schema.primaryKeyIndex := by simpa using flagged
  rw [keyed, Option.some.injEq] at field
  subst field
  exact same_position columns (·.name) distinct j k _ _ column position rfl

end SameColumns

theorem keyOf_single (columns : List Column) (k : Nat) (c : Column) (v : Value) (r : Row)
    (column : columns[k]? = some c) (flagged : c.primaryKey = true)
    (only : ∀ (j : Nat) (a : Column), columns[j]? = some a → a.primaryKey = true → j = k) (value : r[k]? = some v) :
    Table.keyOf columns r = [v] := by
  induction columns generalizing k r with
  | nil => cases column
  | cons first columns ih =>
    cases r with
    | nil => cases value
    | cons x r =>
      cases k with
      | zero =>
        cases column
        cases value
        have none : (columns.zip r).filter (·.1.primaryKey) = [] := by
          apply List.filter_eq_nil_iff.mpr
          intro pair member later
          obtain ⟨j, atJ⟩ := List.getElem?_of_mem (List.of_mem_zip member).1
          exact absurd (only (j + 1) pair.1 atJ later) (by omega)
        simp [Table.keyOf, flagged, none]
      | succ k =>
        have unflagged : first.primaryKey = false := by
          cases key : first.primaryKey with
          | false => rfl
          | true => exact absurd (only 0 first rfl key) (by omega)
        have rest := ih k r column (fun j a atJ key => by
          have := only (j + 1) a atJ key
          omega) value
        simpa [Table.keyOf, unflagged] using rest

theorem columnIndex_eq (t : Table) (k : Nat) (c : Column) (column : t.columns[k]? = some c) :
    t.columnIndex c.name = some k := by
  obtain ⟨inside, atK⟩ := List.getElem?_eq_some_iff.mp column
  apply List.findIdx?_eq_some_iff_getElem.mpr
  refine ⟨inside, by simp [atK], fun j before => ?_⟩
  simp only [decide_eq_true_eq]
  intro equal
  have position := same_position t.columns (·.name) t.distinct j k _ c (List.getElem?_eq_getElem (by omega))
    column equal
  omega

theorem sqliteFindByPk_inserted (conv : Conversions) {schema : Schema} {t table : Table}
    (same : specDiff (schemaSpec schema) { table := schema.name, columns := t.columns } = [])
    (entity : Entity schema) (key : FieldValue) (held : entity.values[schema.primaryKeyIndex]? = some key)
    (inserted : sqliteInsert schema (some t) entity.values = some table) :
    sqliteFindByPk conv schema (some table) key =
      some (readRow conv schema (insertedRow schema t.columns entity.values)) := by
  obtain ⟨columns, rows, fresh⟩ := sqliteInsert_some inserted
  obtain ⟨k, c, column, name, flagged, only⟩ := primaryKey_only t.distinct same
  have keyed : schema.fields[schema.primaryKeyIndex]? = some schema.pk := by
    simp [schema.primaryKey, Schema.pk]
  have stored := insertedRow_at schema t.columns entity k _ _ key (by simp [column, name]) keyed held
  have index : table.columnIndex schema.pk.name = some k := by
    rw [← name]
    exact columnIndex_eq table k c (by rw [columns]; exact column)
  have newKey := keyOf_single t.columns k c _ _ column flagged only stored
  have others : t.rows.filter (fun r => r[k]? = some (bindField schema.pk key)) = [] := by
    apply List.filter_eq_nil_iff.mpr
    intro r member clash
    have oldKey := keyOf_single t.columns k c _ r column flagged only (of_decide_eq_true clash)
    refine fresh (List.any_eq_true.mpr ⟨c, List.mem_of_getElem? column, flagged⟩) r member ?_
    rw [oldKey, newKey]
  simp [sqliteFindByPk, ensureTable, Table.selectWhere, index, rows, others, stored]

/-! ## Entities that tell columns apart -/

def Field.sample (f : Field) (other : Bool) : FieldValue :=
  match f.type with
  | .int => .int (if other then 1 else 0)
  | .string | .uuid => .text (if other ∧ 1 < f.size then [1] else [])
  | .blob => .blob (List.replicate f.size (if other then 1 else 0))

theorem Field.sample_holds (f : Field) (other : Bool) (positive : 0 < f.size) : f.Holds (f.sample other) := by
  unfold Field.sample
  cases type : f.type with
  | int => exact type
  | blob => exact ⟨type, List.length_replicate⟩
  | string => by_cases long : other = true ∧ 1 < f.size <;> simp [Field.Holds, type, FieldType.textual, long, positive]
  | uuid => by_cases long : other = true ∧ 1 < f.size <;> simp [Field.Holds, type, FieldType.textual, long, positive]

theorem Field.sample_ne (f : Field) (positive : 0 < f.size) (several : ¬ f.OneValue) :
    f.sample true ≠ f.sample false := by
  unfold Field.sample
  cases type : f.type with
  | int => simp
  | blob => simp [Nat.ne_of_gt positive]
  | string =>
    have long : 1 < f.size := by
      by_contra short
      exact several ⟨by rw [type]; rfl, by omega⟩
    simp [long]
  | uuid =>
    have long : 1 < f.size := by
      by_contra short
      exact several ⟨by rw [type]; rfl, by omega⟩
    simp [long]

/-- An entity of sample values, the other sample in field `i`. -/
def sampleEntity (schema : Schema) (i : Nat) (other : Bool) : Entity schema where
  values := schema.fields.mapIdx fun j f => f.sample (other && j = i)
  holds := by
    apply List.forall₂_iff_get.mpr
    refine ⟨by simp, fun j inFields _ => ?_⟩
    simp only [List.get_eq_getElem, List.getElem_mapIdx]
    exact Field.sample_holds _ _ (schema.sizes _ (List.getElem_mem inFields)).1

theorem insertedRow_sample {schema : Schema} {columns : List Column}
    (distinct : (columns.map (·.name)).Nodup)
    (same : specDiff (schemaSpec schema) { table := schema.name, columns } = [])
    (k : Nat) (f : Field) (field : schema.fields[k]? = some f)
    (elsewhere : (columns[k]?).map (·.name) ≠ some f.name) (other : Bool) :
    (insertedRow schema columns (sampleEntity schema k other).values)[k]? =
      (insertedRow schema columns (sampleEntity schema k false).values)[k]? := by
  cases column : columns[k]? with
  | none => simp [insertedRow, Table.newRow, column]
  | some c =>
    obtain ⟨j, g, position, rfl⟩ := column_of_schema distinct same k c column
    have differs : j ≠ k := by
      rintro rfl
      rw [field, Option.some.injEq] at position
      subst position
      exact elsewhere (by simp [column])
    have held : ∀ flag, (sampleEntity schema k flag).values[j]? = some (g.sample false) := by
      intro flag
      simp [sampleEntity, position, differs]
    rw [insertedRow_at schema columns _ k j g _ (by simp [column]) position (held other),
      insertedRow_at schema columns _ k j g _ (by simp [column]) position (held false)]

theorem sqliteInsert_empty {schema : Schema} {columns : List Column}
    (distinct : (columns.map (·.name)).Nodup)
    (same : specDiff (schemaSpec schema) { table := schema.name, columns } = []) (entity : Entity schema) :
    sqliteInsert schema (some ⟨columns, distinct, []⟩) entity.values =
      some ⟨columns, distinct, [insertedRow schema columns entity.values]⟩ := by
  have known : ((schema.fields.map (·.name)).all
      fun name => ((⟨columns, distinct, []⟩ : Table).columnIndex name).isSome) = true := by
    apply List.all_eq_true.mpr
    intro name member
    obtain ⟨f, field, rfl⟩ := List.mem_map.mp member
    obtain ⟨i, position⟩ := List.getElem?_of_mem field
    obtain ⟨k, column⟩ := column_of_field same i f position
    rw [columnIndex_eq ⟨columns, distinct, []⟩ k _ column]
    rfl
  unfold sqliteInsert ensureTable Table.insert
  rw [if_neg (not_not.mpr known), if_neg (by simp)]
  rfl

/-! ## The round trip -/

/-- Every entity that is inserted into a table with these columns is read back as it was, by all
    three ways of reading, whatever rows the table had. -/
def ReadsBack (conv : Conversions) (schema : Schema) (columns : List Column)
    (distinct : (columns.map (·.name)).Nodup) : Prop :=
  ∀ (rows : List Row) (entity : Entity schema) (table : Table),
    sqliteInsert schema (some ⟨columns, distinct, rows⟩) entity.values = some table →
    (∀ key, entity.values[schema.primaryKeyIndex]? = some key →
      sqliteFindByPk conv schema (some table) key = some entity.values) ∧
    entity.values ∈ sqliteFindAll conv schema (some table) ∧
    ∀ (clause : List Row → List Row) (row : Row), table.rows = rows ++ [row] → row ∈ clause table.rows →
      entity.values ∈ sqliteQuery conv schema clause (some table)

/-- Entities survive in a table without a difference to the schema exactly when every field has its
    column in its own place, but for fields that can hold the empty string only. -/
theorem readsBack_iff_aligned (conv : Conversions) (schema : Schema) (columns : List Column)
    (distinct : (columns.map (·.name)).Nodup)
    (same : specDiff (schemaSpec schema) { table := schema.name, columns } = []) :
    ReadsBack conv schema columns distinct ↔ Aligned schema columns := by
  constructor
  · intro reads i f field
    by_contra neither
    obtain ⟨elsewhere, several⟩ := not_or.mp neither
    have positive := (schema.sizes f (List.mem_of_getElem? field)).1
    have read : ∀ other, readRow conv schema (insertedRow schema columns (sampleEntity schema i other).values) =
        (sampleEntity schema i other).values := by
      intro other
      have all := (reads [] _ _ (sqliteInsert_empty distinct same (sampleEntity schema i other))).2.1
      simp only [sqliteFindAll, ensureTable, List.map_cons, List.map_nil, List.mem_singleton] at all
      exact all.symm
    have value : ∀ other, some (readColumn conv
        (insertedRow schema columns (sampleEntity schema i other).values) i f) = some (f.sample other) := by
      intro other
      have atField := congrArg (fun values : List FieldValue => values[i]?) (read other)
      simpa [readRow, sampleEntity, field] using atField
    have stored := insertedRow_sample distinct same i f field elsewhere true
    have equal : readColumn conv (insertedRow schema columns (sampleEntity schema i true).values) i f =
        readColumn conv (insertedRow schema columns (sampleEntity schema i false).values) i f := by
      simp only [readColumn, List.getD_eq_getElem?_getD, stored]
    have clash := value true
    rw [equal, value false, Option.some.injEq] at clash
    exact Field.sample_ne f positive several clash.symm
  · intro aligned rows entity table inserted
    obtain ⟨_, grown, _⟩ := sqliteInsert_some inserted
    have row := readRow_insertedRow conv schema columns aligned entity
    refine ⟨fun key held => ?_, ?_, fun clause new last member => ?_⟩
    · rw [sqliteFindByPk_inserted conv same entity key held inserted, row]
    · rw [← row]
      apply List.mem_map_of_mem
      simp [ensureTable, grown]
    · rw [grown, List.append_cancel_left_eq, List.singleton_inj] at last
      rw [← row]
      apply List.mem_map_of_mem
      rw [last]
      exact member

def peopleSchema : Schema where
  name := "people"
  fields := [⟨"id", .int, 4⟩, ⟨"first", .string, 32⟩, ⟨"last", .string, 32⟩]
  primaryKeyIndex := 0
  primaryKey := by decide
  sizes := by decide
  distinct := by decide

theorem readsBack_iff_aligned_people :
    ReadsBack ⟨fun _ => 0, fun _ => none, fun _ => []⟩ peopleSchema
      [⟨"id", "INTEGER", true⟩, ⟨"first", "TEXT", false⟩, ⟨"last", "TEXT", false⟩] (by decide) := by
  apply (readsBack_iff_aligned _ peopleSchema _ _ (by decide)).mpr
  intro i f field
  left
  match i, field with
  | 0, rfl => rfl
  | 1, rfl => rfl
  | 2, rfl => rfl

/-- The table of `people` after a migration has added the column `first`, which the schema has
    before `last`: no difference is reported, and the two names come back exchanged. -/
theorem not_readsBack_people :
    specDiff (schemaSpec peopleSchema) ⟨"people",
        [⟨"id", "INTEGER", true⟩, ⟨"last", "TEXT", false⟩, ⟨"first", "TEXT", false⟩]⟩ = [] ∧
      ∀ conv, ¬ ReadsBack conv peopleSchema
        [⟨"id", "INTEGER", true⟩, ⟨"last", "TEXT", false⟩, ⟨"first", "TEXT", false⟩] (by decide) := by
  refine ⟨by decide, fun conv reads => ?_⟩
  let ada : Entity peopleSchema :=
    { values := [.int 1, .text (ascii "Ada"), .text (ascii "Lovelace")]
      holds := by
        refine .cons rfl (.cons ?_ (.cons ?_ .nil)) <;> refine ⟨rfl, ?_, ?_⟩ <;> decide }
  have all := (reads [] ada _ rfl).2.1
  have row : ada.values =
      readRow conv peopleSchema [.integer 1, .text (ascii "Lovelace"), .text (ascii "Ada")] :=
    List.mem_singleton.mp all
  have first : some (FieldValue.text (ascii "Ada")) = some (.text (ascii "Lovelace")) :=
    congrArg (fun values : List FieldValue => values[1]?) row
  exact absurd first (by decide)

end BlueBird.Persist
