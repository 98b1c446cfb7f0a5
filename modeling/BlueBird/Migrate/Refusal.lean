import BlueBird.Migrate.Generate

/-! Which differences and hints are not refused. -/

namespace BlueBird.Migrate

structure Consistent (expected actual : TableSpec) (rn : Rename) : Prop where
  plain : isPlainIdentifier rn.from_ = true ∧ isPlainIdentifier rn.to_ = true
  alike : ∃ a e, findColumn actual rn.from_ = some a ∧ findColumn expected rn.to_ = some e ∧ a.type = e.type ∧
    a.primaryKey = e.primaryKey
  gone : findColumn expected rn.from_ = none
  new : findColumn actual rn.to_ = none

def Apart (a b : Rename) : Prop := a.from_ ≠ b.from_ ∧ a.to_ ≠ b.to_

def hintsFor (expected : TableSpec) (renames : List Rename) : List Rename :=
  renames.filter (·.table = expected.table)

/-- Every hint holds, and no two of them are for one column. -/
def HintsHold (expected actual : TableSpec) (hints : List Rename) : Prop :=
  (∀ rn ∈ hints, Consistent expected actual rn) ∧ hints.Pairwise Apart

theorem hintRefusal_eq_none {expected actual : TableSpec} {earlier : List Hint} {rn : Rename} :
    hintRefusal expected actual earlier rn = none ↔ Consistent expected actual rn ∧ conflict earlier rn = false := by
  unfold hintRefusal
  by_cases plain : isPlainIdentifier rn.from_ ∧ isPlainIdentifier rn.to_
  swap
  · rw [if_pos plain]
    exact ⟨fun none => (by cases none), fun holds => absurd holds.1.plain plain⟩
  rw [if_neg (not_not_intro plain)]
  cases source : findColumn actual rn.from_ with
  | none =>
    refine ⟨fun none => (by cases none), fun holds => ?_⟩
    obtain ⟨a, _, found, _⟩ := holds.1.alike
    rw [source] at found
    cases found
  | some aFrom =>
    cases target : findColumn expected rn.to_ with
    | none =>
      refine ⟨fun none => (by cases none), fun holds => ?_⟩
      obtain ⟨_, e, _, found, _⟩ := holds.1.alike
      rw [target] at found
      cases found
    | some eTo =>
      have alike : (∃ a e, findColumn actual rn.from_ = some a ∧ findColumn expected rn.to_ = some e ∧
          a.type = e.type ∧ a.primaryKey = e.primaryKey) ↔
            aFrom.type = eTo.type ∧ aFrom.primaryKey = eTo.primaryKey := by
        simp [source, target]
      dsimp only
      constructor
      · intro none
        split at none
        · cases none
        rename_i kept
        split at none
        · cases none
        rename_i present
        split at none
        · cases none
        rename_i changed
        split at none
        · cases none
        rename_i apart
        rw [not_or, not_not, not_not] at changed
        exact ⟨⟨plain, alike.mpr changed, by simpa using kept, by simpa using present⟩, by simpa using apart⟩
      · intro holds
        have same := alike.mp holds.1.alike
        rw [holds.1.gone, holds.1.new, holds.2, same.1, same.2]
        simp

theorem conflict_append (earlier : List Hint) (hint : Hint) (rn : Rename) :
    conflict (earlier ++ [hint]) rn = false ↔
      conflict earlier rn = false ∧ (hint.mine = true → Apart hint.rename rn) := by
  unfold conflict Apart
  rw [List.any_append, Bool.or_eq_false_iff]
  cases mine : hint.mine <;> simp [mine]

/-- A hint as it is kept when none is refused. -/
def marked (expected : TableSpec) (rn : Rename) : Hint := ⟨rn, rn.table = expected.table, rn.table = expected.table⟩

theorem validateRenames_lines (expected actual : TableSpec) (earlier : List Hint) (renames : List Rename) :
    (validateRenames expected actual earlier renames).2 = [] ↔
      HintsHold expected actual (hintsFor expected renames) ∧
        ∀ rn ∈ hintsFor expected renames, conflict earlier rn = false := by
  induction renames generalizing earlier with
  | nil =>
    unfold validateRenames hintsFor HintsHold
    simp
  | cons rn renames ih =>
    rw [validateRenames]
    dsimp only
    rw [List.append_eq_nil_iff, ih]
    unfold validateRename
    by_cases mine : rn.table = expected.table
    · have hints : hintsFor expected (rn :: renames) = rn :: hintsFor expected renames := by
        unfold hintsFor
        rw [List.filter_cons_of_pos (by simpa using mine)]
      have conflicts : (∀ other ∈ hintsFor expected renames,
          conflict (earlier ++ [⟨rn, true, (hintRefusal expected actual earlier rn).isNone⟩]) other = false) ↔
            (∀ other ∈ hintsFor expected renames, conflict earlier other = false) ∧
              ∀ other ∈ hintsFor expected renames, Apart rn other := by
        simp only [conflict_append]
        exact ⟨fun both => ⟨fun other member => (both other member).1, fun other member => (both other member).2 trivial⟩,
          fun both other member => ⟨both.1 other member, fun _ => both.2 other member⟩⟩
      have refusal : (hintRefusal expected actual earlier rn).toList = [] ↔
          hintRefusal expected actual earlier rn = none := by
        cases hintRefusal expected actual earlier rn <;> simp
      rw [if_neg (not_not_intro mine), hints]
      dsimp only
      rw [conflicts, refusal, hintRefusal_eq_none]
      unfold HintsHold
      rw [List.forall_mem_cons, List.forall_mem_cons, List.pairwise_cons]
      constructor
      · rintro ⟨⟨first, free⟩, ⟨others, apart⟩, unconflicted, fresh⟩
        exact ⟨⟨⟨first, others⟩, fresh, apart⟩, free, unconflicted⟩
      · rintro ⟨⟨⟨first, others⟩, fresh, apart⟩, free, unconflicted⟩
        exact ⟨⟨first, free⟩, ⟨others, apart⟩, unconflicted, fresh⟩
    · have hints : hintsFor expected (rn :: renames) = hintsFor expected renames := by
        unfold hintsFor
        rw [List.filter_cons_of_neg (by simpa using mine)]
      have conflicts : ∀ other, conflict (earlier ++ [⟨rn, false, false⟩]) other = false ↔ conflict earlier other = false := by
        intro other
        rw [conflict_append]
        simp
      rw [if_pos mine, hints]
      simp only [Option.toList_none, true_and, conflicts]

theorem validateRenames_hints {expected actual : TableSpec} {earlier : List Hint} {renames : List Rename}
    (none : (validateRenames expected actual earlier renames).2 = []) :
    (validateRenames expected actual earlier renames).1 = earlier ++ renames.map (marked expected) := by
  induction renames generalizing earlier with
  | nil => simp [validateRenames]
  | cons rn renames ih =>
    rw [validateRenames] at none ⊢
    dsimp only at none ⊢
    obtain ⟨first, others⟩ := List.append_eq_nil_iff.mp none
    have checked : (validateRename expected actual earlier rn).1 = marked expected rn := by
      unfold validateRename marked at *
      by_cases mine : rn.table = expected.table
      · rw [if_neg (not_not_intro mine)] at first ⊢
        dsimp only at first ⊢
        have refusal : hintRefusal expected actual earlier rn = Option.none := by
          cases found : hintRefusal expected actual earlier rn with
          | none => rfl
          | some line => rw [found] at first; cases first
        rw [refusal]
        simp [mine]
      · rw [if_pos mine]
        simp [mine]
    rw [ih others, checked, List.append_assoc, List.map_cons, List.singleton_append]

theorem mem_hintsFor {expected : TableSpec} {renames : List Rename} {rn : Rename} :
    rn ∈ hintsFor expected renames ↔ rn ∈ renames ∧ rn.table = expected.table := by
  unfold hintsFor
  rw [List.mem_filter, decide_eq_true_iff]

theorem consumedTo_marked {expected : TableSpec} {renames : List Rename} {column : String} :
    consumedTo (renames.map (marked expected)) column = true ↔
      ∃ rn ∈ hintsFor expected renames, rn.to_ = column := by
  simp [consumedTo, marked, mem_hintsFor, and_assoc]

theorem consumedFrom_marked {expected : TableSpec} {renames : List Rename} {column : String} :
    consumedFrom (renames.map (marked expected)) column = true ↔
      ∃ rn ∈ hintsFor expected renames, rn.from_ = column := by
  simp [consumedFrom, marked, mem_hintsFor, and_assoc]

/-! ## Differences -/

/-- A missing table, a missing column that is no key, or what a hint accounts for. -/
def Supported (hints : List Rename) (d : Diff) : Prop :=
  d.kind = .tableMissing ∨
    (d.kind = .columnMissing ∧ (d.expectedPk = false ∨ ∃ rn ∈ hints, d.column = some rn.to_)) ∨
    (d.kind = .columnExtra ∧ ∃ rn ∈ hints, d.column = some rn.from_)

theorem specDiff_of_empty {expected actual : TableSpec} (empty : actual.columns = []) :
    specDiff expected actual = [⟨.tableMissing, expected.table, none, none, none, false⟩] := by
  unfold specDiff
  rw [if_pos (by rw [empty]; rfl)]

theorem mem_specDiff {expected actual : TableSpec} (some_ : actual.columns ≠ []) {d : Diff} :
    d ∈ specDiff expected actual ↔
      (∃ e ∈ expected.columns, d ∈ expectedColumnDiff expected actual e) ∨
        ∃ a ∈ actual.columns, d ∈ actualColumnDiff expected a := by
  unfold specDiff
  rw [if_neg (by simpa using some_), List.mem_append, List.mem_flatMap, List.mem_flatMap]

theorem expectedColumnDiff_named {expected actual : TableSpec} {e : Column} {d : Diff}
    (member : d ∈ expectedColumnDiff expected actual e) :
    d.table = expected.table ∧ d.column = some e.name ∧ d.kind ≠ .tableMissing ∧ d.kind ≠ .columnExtra := by
  unfold expectedColumnDiff at member
  split at member
  · rw [List.mem_singleton] at member
    rw [member]
    simp
  · rcases List.mem_append.mp member with type | key
    · split at type
      · rw [List.mem_singleton] at type
        rw [type]
        simp
      · cases type
    · split at key
      · rw [List.mem_singleton] at key
        rw [key]
        simp
      · split at key
        · rw [List.mem_singleton] at key
          rw [key]
          simp
        · cases key

theorem actualColumnDiff_named {expected : TableSpec} {a : Column} {d : Diff}
    (member : d ∈ actualColumnDiff expected a) :
    d.table = expected.table ∧ d.column = some a.name ∧ d.kind = .columnExtra := by
  unfold actualColumnDiff at member
  split at member
  · rw [List.mem_singleton] at member
    rw [member]
    simp
  · cases member

theorem specDiff_named {expected actual : TableSpec} (some_ : actual.columns ≠ []) {d : Diff}
    (member : d ∈ specDiff expected actual) :
    d.table = expected.table ∧ d.kind ≠ .tableMissing ∧ ∃ name, d.column = some name := by
  rcases (mem_specDiff some_).mp member with ⟨e, _, own⟩ | ⟨a, _, own⟩
  · obtain ⟨table, column, kind, _⟩ := expectedColumnDiff_named own
    exact ⟨table, kind, e.name, column⟩
  · obtain ⟨table, column, kind⟩ := actualColumnDiff_named own
    exact ⟨table, by rw [kind]; decide, a.name, column⟩

theorem scanForRefusals_eq_none {expected actual : TableSpec} {renames : List Rename} {d : Diff}
    (member : d ∈ specDiff expected actual) :
    scanForRefusals expected actual (renames.map (marked expected)) d = none ↔
      Supported (hintsFor expected renames) d := by
  by_cases empty : actual.columns = []
  · rw [specDiff_of_empty empty, List.mem_singleton] at member
    rw [member]
    simp [scanForRefusals, Supported]
  obtain ⟨_, _, name, column⟩ := specDiff_named empty member
  unfold scanForRefusals Supported
  rw [column]
  cases kind : d.kind with
  | tableMissing => simp
  | columnMissing =>
    have consumed := @consumedTo_marked expected renames name
    by_cases taken : consumedTo (renames.map (marked expected)) name = true
    · obtain ⟨rn, hint, same⟩ := consumed.mp taken
      simp only [Option.getD_some, taken, if_true, true_iff]
      exact .inr (.inl ⟨trivial, .inr ⟨rn, hint, by rw [same]⟩⟩)
    · have free : ∀ rn ∈ hintsFor expected renames, name = rn.to_ → d.expectedPk = false := by
        intro rn hint same
        exact absurd (consumed.mpr ⟨rn, hint, same.symm⟩) taken
      simpa [taken] using free
  | columnExtra =>
    have consumed := @consumedFrom_marked expected renames name
    by_cases taken : consumedFrom (renames.map (marked expected)) name = true
    · obtain ⟨rn, hint, same⟩ := consumed.mp taken
      simp only [Option.getD_some, taken, if_true, true_iff]
      exact .inr (.inr ⟨trivial, rn, hint, by rw [same]⟩)
    · have free : ∀ rn ∈ hintsFor expected renames, ¬ name = rn.from_ := by
        intro rn hint same
        exact absurd (consumed.mpr ⟨rn, hint, same.symm⟩) taken
      simpa [taken] using free
  | typeMismatch => simp
  | pkMissing => simp
  | pkExtra => simp

structure Accepted (expected actual : TableSpec) (hints : List Rename) : Prop where
  hold : HintsHold expected actual hints
  supported : ∀ d ∈ specDiff expected actual, Supported hints d

theorem refusals_nil {expected actual : TableSpec} {renames : List Rename} :
    (validateRenames expected actual [] renames).2 ++
        (specDiff expected actual).filterMap
          (scanForRefusals expected actual (validateRenames expected actual [] renames).1) = [] ↔
      Accepted expected actual (hintsFor expected renames) := by
  have free : ∀ rn : Rename, conflict [] rn = false := fun _ => rfl
  have hints := validateRenames_lines expected actual [] renames
  simp only [free, implies_true, and_true] at hints
  have scanned : HintsHold expected actual (hintsFor expected renames) →
      ((specDiff expected actual).filterMap
          (scanForRefusals expected actual (validateRenames expected actual [] renames).1) = [] ↔
        ∀ d ∈ specDiff expected actual, Supported (hintsFor expected renames) d) := by
    intro hold
    rw [validateRenames_hints (hints.mpr hold), List.nil_append, List.filterMap_eq_nil_iff]
    exact forall₂_congr fun d member => scanForRefusals_eq_none member
  rw [List.append_eq_nil_iff, hints]
  constructor
  · intro both
    exact ⟨both.1, (scanned both.1).mp both.2⟩
  · intro accepted
    exact ⟨accepted.hold, (scanned accepted.hold).mpr accepted.supported⟩

end BlueBird.Migrate
