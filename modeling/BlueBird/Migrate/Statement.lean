import BlueBird.Migrate.TableSpec
import Mathlib.Algebra.Ring.Nat

/-! The statements that are generated, and what SQLite makes of them. -/

namespace BlueBird.Migrate

inductive Statement where
  | createTable (table : String) (columns : List Column)
  | renameColumn (table : String) (from_ to_ : String)
  | addColumn (table : String) (name type : String)
  deriving DecidableEq, Repr

def columnLines : List Column → String
  | [] => ""
  | c :: columns =>
    "    " ++ c.name ++ " " ++ c.type ++ (if c.primaryKey then " PRIMARY KEY" else "") ++
      (if columns = [] then "" else ",") ++ "\n" ++ columnLines columns

def Statement.text : Statement → String
  | .createTable table columns => "CREATE TABLE IF NOT EXISTS " ++ table ++ " (\n" ++ columnLines columns ++ ");\n"
  | .renameColumn table from_ to_ => "ALTER TABLE " ++ table ++ " RENAME COLUMN " ++ from_ ++ " TO " ++ to_ ++ ";\n"
  | .addColumn table name type => "ALTER TABLE " ++ table ++ " ADD COLUMN " ++ name ++ " " ++ type ++ ";\n"

def sqlText (statements : List Statement) : String := String.join (statements.map Statement.text)

/-- A name without its case, which SQL folds in ASCII only. -/
def folded (name : String) : List Char := name.toList.map Char.toLower

/-- Names that SQL takes for one. -/
abbrev SameName (a b : String) : Prop := folded a = folded b

def DistinctNames (columns : List Column) : Prop := (columns.map fun c => folded c.name).Nodup

def OneKey (columns : List Column) : Prop := columns.countP (·.primaryKey) ≤ 1

def WellFormed (columns : List Column) : Prop := columns ≠ [] ∧ DistinctNames columns ∧ OneKey columns

instance (columns : List Column) : Decidable (DistinctNames columns) := inferInstanceAs (Decidable (List.Nodup _))

instance (columns : List Column) : Decidable (OneKey columns) := inferInstanceAs (Decidable (_ ≤ _))

instance (columns : List Column) : Decidable (WellFormed columns) := inferInstanceAs (Decidable (_ ∧ _))

/-- A statement on the one table it names; a table that does not exist has no columns. -/
def Statement.execute (spec : TableSpec) : Statement → Option TableSpec
  | .createTable table columns =>
    if ¬ SameName table spec.table then none
    else if spec.columns ≠ [] then some spec
    else if WellFormed columns then some ⟨spec.table, columns⟩ else none
  | .renameColumn table from_ to_ =>
    let columns := spec.columns.map fun c => if SameName c.name from_ then { c with name := to_ } else c
    if SameName table spec.table ∧ (∃ c ∈ spec.columns, SameName c.name from_) ∧ WellFormed columns then
      some ⟨spec.table, columns⟩
    else none
  | .addColumn table name type =>
    let columns := spec.columns ++ [⟨name, type, false⟩]
    if SameName table spec.table ∧ spec.columns ≠ [] ∧ WellFormed columns then some ⟨spec.table, columns⟩ else none

def executeAll : List Statement → TableSpec → Option TableSpec
  | [], spec => some spec
  | statement :: statements, spec => (statement.execute spec).bind (executeAll statements)

theorem executeAll_append (first second : List Statement) (spec : TableSpec) :
    executeAll (first ++ second) spec = (executeAll first spec).bind (executeAll second) := by
  induction first generalizing spec with
  | nil => rfl
  | cons statement first ih =>
    show (statement.execute spec).bind (executeAll (first ++ second)) = _
    rw [funext ih, ← Option.bind_assoc]
    rfl

theorem WellFormed.of_append {front back : List Column} (some_ : front ≠ []) (whole : WellFormed (front ++ back)) :
    WellFormed front := by
  obtain ⟨_, distinct, key⟩ := whole
  refine ⟨some_, ?_, ?_⟩
  · unfold DistinctNames at distinct
    rw [List.map_append] at distinct
    exact (List.nodup_append.mp distinct).1
  · unfold OneKey at key
    rw [List.countP_append] at key
    exact Nat.le_trans (Nat.le_add_right _ _) key

theorem executeAll_addColumn (table : String) (columns added : List Column) (some_ : columns ≠ [])
    (plain : ∀ c ∈ added, c.primaryKey = false) (whole : WellFormed (columns ++ added)) :
    executeAll (added.map fun c => .addColumn table c.name c.type) ⟨table, columns⟩ = some ⟨table, columns ++ added⟩ := by
  induction added generalizing columns with
  | nil => rw [List.append_nil]; rfl
  | cons c added ih =>
    have same : (⟨c.name, c.type, false⟩ : Column) = c := by
      rw [← plain c (List.mem_cons_self ..)]
    have grouped : columns ++ c :: added = (columns ++ [c]) ++ added := by
      rw [List.append_assoc, List.singleton_append]
    have longer : columns ++ [c] ≠ [] := by simp
    rw [grouped] at whole ⊢
    have executed : (Statement.addColumn table c.name c.type).execute ⟨table, columns⟩ =
        some ⟨table, columns ++ [c]⟩ := by
      show (if _ ∧ _ ∧ WellFormed (columns ++ [⟨c.name, c.type, false⟩]) then some _ else none) = _
      rw [same]
      exact if_pos ⟨rfl, some_, whole.of_append longer⟩
    rw [List.map_cons, executeAll, executed]
    exact ih _ longer (fun other member => plain other (List.mem_cons_of_mem _ member)) whole

end BlueBird.Migrate
