import Mathlib.Data.List.Basic

namespace BlueBird.Migrate

structure Column where
  name : String
  type : String
  primaryKey : Bool
  deriving DecidableEq, Repr

structure TableSpec where
  table : String
  columns : List Column

inductive DiffKind where
  | tableMissing | columnMissing | columnExtra | typeMismatch | pkMissing | pkExtra
  deriving DecidableEq, Repr

structure Diff where
  kind : DiffKind
  table : String
  column : Option String
  expectedType : Option String
  actualType : Option String
  expectedPk : Bool
  deriving DecidableEq, Repr

def findColumn (spec : TableSpec) (name : String) : Option Column :=
  spec.columns.find? (·.name = name)

def expectedColumnDiff (expected actual : TableSpec) (e : Column) : List Diff :=
  match findColumn actual e.name with
  | none => [⟨.columnMissing, expected.table, some e.name, some e.type, none, e.primaryKey⟩]
  | some a =>
    (if e.type ≠ a.type then
      [⟨.typeMismatch, expected.table, some e.name, some e.type, some a.type, false⟩] else []) ++
    (if e.primaryKey ∧ ¬ a.primaryKey then
      [⟨.pkMissing, expected.table, some e.name, none, none, false⟩]
    else if ¬ e.primaryKey ∧ a.primaryKey then
      [⟨.pkExtra, expected.table, some e.name, none, none, false⟩]
    else [])

def actualColumnDiff (expected : TableSpec) (a : Column) : List Diff :=
  match findColumn expected a.name with
  | none => [⟨.columnExtra, expected.table, some a.name, none, some a.type, false⟩]
  | some _ => []

/-- The differences in the order in which `bb_migrate_spec_diff` reports them; it returns how many
    there are. -/
def specDiff (expected actual : TableSpec) : List Diff :=
  if actual.columns.length = 0 then [⟨.tableMissing, expected.table, none, none, none, false⟩]
  else
    expected.columns.flatMap (expectedColumnDiff expected actual) ++
      actual.columns.flatMap (actualColumnDiff expected)

theorem findColumn_eq_some {spec : TableSpec} {name : String} {c : Column}
    (found : findColumn spec name = some c) : c ∈ spec.columns ∧ c.name = name := by
  refine ⟨List.mem_of_find?_eq_some found, ?_⟩
  simpa using List.find?_some found

theorem expectedColumnDiff_nil {expected actual : TableSpec} {e : Column}
    (same : expectedColumnDiff expected actual e = []) : e ∈ actual.columns := by
  unfold expectedColumnDiff at same
  split at same
  · cases same
  · rename_i a found
    obtain ⟨member, name⟩ := findColumn_eq_some found
    obtain ⟨types, keys⟩ := List.append_eq_nil_iff.mp same
    have type : e.type = a.type := by
      by_contra differs
      rw [if_pos differs] at types
      cases types
    have key : e.primaryKey = a.primaryKey := by
      cases expectedPk : e.primaryKey <;> cases actualPk : a.primaryKey <;>
        simp [expectedPk, actualPk] at keys ⊢
    have equal : e = a := by
      cases e
      cases a
      simp only at type key name
      rw [type, key, name]
    rw [equal]
    exact member

theorem actualColumnDiff_nil {expected : TableSpec} {a : Column}
    (same : actualColumnDiff expected a = []) : ∃ e ∈ expected.columns, e.name = a.name := by
  unfold actualColumnDiff at same
  split at same
  · cases same
  · rename_i e found
    exact ⟨e, findColumn_eq_some found⟩

theorem specDiff_nil {expected actual : TableSpec} (same : specDiff expected actual = []) :
    (∀ e ∈ expected.columns, e ∈ actual.columns) ∧
      ∀ a ∈ actual.columns, ∃ e ∈ expected.columns, e.name = a.name := by
  unfold specDiff at same
  split at same
  · cases same
  · obtain ⟨columns, extras⟩ := List.append_eq_nil_iff.mp same
    exact ⟨fun e member => expectedColumnDiff_nil (List.flatMap_eq_nil_iff.mp columns e member),
      fun a member => actualColumnDiff_nil (List.flatMap_eq_nil_iff.mp extras a member)⟩

theorem findColumn_self {spec : TableSpec} (distinct : (spec.columns.map (·.name)).Nodup) {c : Column}
    (member : c ∈ spec.columns) : findColumn spec c.name = some c := by
  unfold findColumn
  generalize spec.columns = columns at distinct member
  induction columns with
  | nil => cases member
  | cons first columns ih =>
    obtain ⟨fresh, rest⟩ := List.nodup_cons.mp distinct
    rcases List.mem_cons.mp member with rfl | later
    · simp
    · have other : first.name ≠ c.name := by
        intro equal
        exact fresh (List.mem_map.mpr ⟨c, later, equal.symm⟩)
      simpa [other] using ih rest later

theorem specDiff_self {spec : TableSpec} (nonempty : spec.columns ≠ [])
    (distinct : (spec.columns.map (·.name)).Nodup) : specDiff spec spec = [] := by
  unfold specDiff
  rw [if_neg (fun none => nonempty (List.eq_nil_of_length_eq_zero none))]
  apply List.append_eq_nil_iff.mpr
  constructor <;> apply List.flatMap_eq_nil_iff.mpr <;> intro c member
  · simp [expectedColumnDiff, findColumn_self distinct member]
  · simp [actualColumnDiff, findColumn_self distinct member]

end BlueBird.Migrate
