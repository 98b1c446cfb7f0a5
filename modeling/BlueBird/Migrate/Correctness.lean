import BlueBird.Migrate.Refusal
import Mathlib.Data.List.Nodup
import Mathlib.Data.List.Pairwise

/-! The statements that are generated make the table that is expected. -/

namespace BlueBird.Migrate

def renameOf (hints : List Rename) (name : String) : String :=
  match hints.find? (·.from_ = name) with
  | some rn => rn.to_
  | none => name

def renamed (hints : List Rename) (c : Column) : Column := { c with name := renameOf hints c.name }

/-- No hint takes the old name of a later one, in any case. -/
def Unchained (hints : List Rename) : Prop := hints.Pairwise fun earlier later => ¬ SameName earlier.to_ later.from_

instance : Std.Symm Apart := ⟨fun _ _ apart => ⟨apart.1.symm, apart.2.symm⟩⟩

theorem findColumn_eq_none {spec : TableSpec} {name : String} :
    findColumn spec name = none ↔ ∀ c ∈ spec.columns, c.name ≠ name := by
  simp [findColumn]

theorem renameOf_cases (hints : List Rename) (name : String) :
    (∃ rn ∈ hints, rn.from_ = name ∧ renameOf hints name = rn.to_) ∨
      ((∀ rn ∈ hints, rn.from_ ≠ name) ∧ renameOf hints name = name) := by
  unfold renameOf
  cases found : hints.find? (·.from_ = name) with
  | some rn => exact .inl ⟨rn, List.mem_of_find?_eq_some found, by simpa using List.find?_some found, rfl⟩
  | none => exact .inr ⟨by simpa using found, rfl⟩

theorem DistinctNames.same {columns : List Column} (distinct : DistinctNames columns) {a b : Column}
    (ha : a ∈ columns) (hb : b ∈ columns) (name : SameName a.name b.name) : a = b :=
  List.inj_on_of_nodup_map distinct ha hb name

theorem DistinctNames.names {columns : List Column} (distinct : DistinctNames columns) :
    (columns.map (·.name)).Nodup := by
  apply List.Nodup.of_map folded
  rw [List.map_map]
  exact distinct

theorem specDiff_eq_nil {expected table : TableSpec} (whole : WellFormed table.columns)
    (all : ∀ e ∈ expected.columns, e ∈ table.columns)
    (only : ∀ c ∈ table.columns, ∃ e ∈ expected.columns, e.name = c.name) : specDiff expected table = [] := by
  apply List.eq_nil_iff_forall_not_mem.mpr
  intro d member
  rcases (mem_specDiff whole.1).mp member with ⟨e, column, own⟩ | ⟨c, column, own⟩
  · rw [expectedColumnDiff, findColumn_self whole.2.1.names (all e column)] at own
    simp at own
  · obtain ⟨e, member, name⟩ := only c column
    unfold actualColumnDiff at own
    split at own
    · rename_i none
      exact findColumn_eq_none.mp none e member name
    · cases own

/-! ## What is accepted -/

theorem expectedColumnDiff_present {expected actual : TableSpec} {e a : Column} {d : Diff}
    (found : findColumn actual e.name = some a) (own : d ∈ expectedColumnDiff expected actual e) :
    d.kind ≠ .columnMissing := by
  rw [expectedColumnDiff, found] at own
  intro missing
  rcases List.mem_append.mp own with type | key
  · split at type
    · rw [List.mem_singleton.mp type] at missing
      cases missing
    · cases type
  · split at key
    · rw [List.mem_singleton.mp key] at missing
      cases missing
    · split at key
      · rw [List.mem_singleton.mp key] at missing
        cases missing
      · cases key

section Accepted

variable {expected actual : TableSpec} {hints : List Rename}

theorem Accepted.expected_cases (accepted : Accepted expected actual hints) (some_ : actual.columns ≠ []) {e : Column}
    (member : e ∈ expected.columns) :
    e ∈ actual.columns ∨
      (findColumn actual e.name = none ∧ (e.primaryKey = false ∨ ∃ rn ∈ hints, rn.to_ = e.name)) := by
  have supported := fun d own => accepted.supported d ((mem_specDiff some_).mpr (.inl ⟨e, member, own⟩))
  cases found : findColumn actual e.name with
  | none =>
    rw [expectedColumnDiff, found] at supported
    have missing := supported _ (List.mem_singleton_self _)
    simp only [Supported, reduceCtorEq, false_and, or_false, false_or, true_and, Option.some_inj] at missing
    refine .inr ⟨rfl, missing.imp_right ?_⟩
    rintro ⟨rn, hint, same⟩
    exact ⟨rn, hint, same.symm⟩
  | some a =>
    left
    apply @expectedColumnDiff_nil expected
    apply List.eq_nil_iff_forall_not_mem.mpr
    intro d own
    obtain ⟨_, _, notTable, notExtra⟩ := expectedColumnDiff_named own
    rcases supported d own with table | ⟨missing, _⟩ | ⟨extra, _⟩
    · exact notTable table
    · exact expectedColumnDiff_present found own missing
    · exact notExtra extra

theorem Accepted.actual_cases (accepted : Accepted expected actual hints) (some_ : actual.columns ≠ []) {a : Column}
    (member : a ∈ actual.columns) :
    (∃ e ∈ expected.columns, e.name = a.name) ∨ ∃ rn ∈ hints, rn.from_ = a.name := by
  have supported := fun d own => accepted.supported d ((mem_specDiff some_).mpr (.inr ⟨a, member, own⟩))
  cases found : findColumn expected a.name with
  | none =>
    rw [actualColumnDiff, found] at supported
    have extra := supported _ (List.mem_singleton_self _)
    simp only [Supported, reduceCtorEq, false_and, false_or, true_and, Option.some_inj] at extra
    obtain ⟨rn, hint, same⟩ := extra
    exact .inr ⟨rn, hint, same.symm⟩
  | some e => exact .inl ⟨e, findColumn_eq_some found⟩

end Accepted

/-- Two tables and hints that are accepted, as SQL can hold them. -/
structure Plan (expected actual : TableSpec) (hints : List Rename) : Prop where
  accepted : Accepted expected actual hints
  expectedNames : DistinctNames expected.columns
  whole : WellFormed actual.columns
  unchained : Unchained hints

section Plan

variable {expected actual : TableSpec} {hints done rest : List Rename} {rn : Rename}

theorem Plan.source (plan : Plan expected actual hints) (hint : rn ∈ hints) :
    ∃ a ∈ actual.columns, ∃ e ∈ expected.columns, a.name = rn.from_ ∧ e.name = rn.to_ ∧ a.type = e.type ∧
      a.primaryKey = e.primaryKey := by
  obtain ⟨a, e, source, target, type, key⟩ := (plan.accepted.hold.1 rn hint).alike
  obtain ⟨inActual, from_⟩ := findColumn_eq_some source
  obtain ⟨inExpected, to_⟩ := findColumn_eq_some target
  exact ⟨a, inActual, e, inExpected, from_, to_, type, key⟩

theorem Plan.new_name (plan : Plan expected actual hints) (split : hints = done ++ rest) (hint : rn ∈ done) {b : Column}
    (member : b ∈ actual.columns) (kept : ∀ other ∈ done, other.from_ ≠ b.name) : ¬ SameName rn.to_ b.name := by
  intro same
  have inHints : rn ∈ hints := split ▸ List.mem_append_left rest hint
  rcases plan.accepted.actual_cases plan.whole.1 member with ⟨e, inExpected, name⟩ | ⟨other, otherHint, name⟩
  · obtain ⟨_, _, target, inTarget, _, to_, _⟩ := plan.source inHints
    have one : target = e := plan.expectedNames.same inTarget inExpected (by rw [to_, name]; exact same)
    have new := findColumn_eq_none.mp (plan.accepted.hold.1 rn inHints).new b member
    rw [← to_, one, name] at new
    exact new rfl
  · rw [split] at otherHint
    rcases List.mem_append.mp otherHint with before | later
    · exact kept other before name
    · have unchained := plan.unchained
      rw [split, Unchained, List.pairwise_append] at unchained
      exact unchained.2.2 rn hint other later (by rw [name]; exact same)

theorem Plan.renameOf_apart (plan : Plan expected actual hints) (split : hints = done ++ rest) {a b : Column}
    (ha : a ∈ actual.columns) (hb : b ∈ actual.columns) (apart : ¬ SameName a.name b.name) :
    ¬ SameName (renameOf done a.name) (renameOf done b.name) := by
  have inHints : ∀ rn ∈ done, rn ∈ hints := fun rn hint => split ▸ List.mem_append_left rest hint
  rcases renameOf_cases done a.name with ⟨g, hg, fromA, toA⟩ | ⟨keptA, toA⟩ <;>
    rcases renameOf_cases done b.name with ⟨h, hh, fromB, toB⟩ | ⟨keptB, toB⟩ <;> rw [toA, toB]
  · intro same
    obtain ⟨_, _, e, he, _, toE, _⟩ := plan.source (inHints g hg)
    obtain ⟨_, _, f, hf, _, toF, _⟩ := plan.source (inHints h hh)
    have one : e = f := plan.expectedNames.same he hf (by rw [toE, toF]; exact same)
    have different : g ≠ h := by
      intro equal
      apply apart
      rw [← fromA, ← fromB, equal]
    have apartHints := plan.accepted.hold.2.forall (inHints g hg) (inHints h hh) different
    exact apartHints.2 (by rw [← toE, ← toF, one])
  · exact plan.new_name split hg hb keptB
  · intro same
    exact plan.new_name split hh ha keptA same.symm
  · exact apart

theorem Plan.whole_renamed (plan : Plan expected actual hints) (split : hints = done ++ rest) :
    WellFormed (actual.columns.map (renamed done)) := by
  refine ⟨by simpa using plan.whole.1, ?_, ?_⟩
  · have distinct := List.pairwise_map.mp plan.whole.2.1
    unfold DistinctNames
    rw [List.map_map]
    apply List.pairwise_map.mpr
    exact distinct.imp_of_mem fun ha hb apart => plan.renameOf_apart split ha hb apart
  · unfold OneKey
    rw [List.countP_map]
    exact plan.whole.2.2

theorem Plan.rename_column (plan : Plan expected actual hints) (split : hints = done ++ rn :: rest) {a : Column}
    (member : a ∈ actual.columns) :
    (if SameName (renamed done a).name rn.from_ then { renamed done a with name := rn.to_ } else renamed done a) =
      renamed (done ++ [rn]) a := by
  have inHints : rn ∈ hints := split ▸ List.mem_append_right done (List.mem_cons_self ..)
  have apart := plan.accepted.hold.2
  have unchained := plan.unchained
  rw [split, List.pairwise_append] at apart
  rw [split, Unchained, List.pairwise_append] at unchained
  have found : (done ++ [rn]).find? (·.from_ = a.name) =
      (done.find? (·.from_ = a.name)).or (if rn.from_ = a.name then some rn else none) := by
    rw [List.find?_append]
    by_cases same : rn.from_ = a.name <;> simp [same]
  show (if SameName (renameOf done a.name) rn.from_ then { a with name := rn.to_ } else renamed done a) = _
  rcases renameOf_cases done a.name with ⟨g, hg, from_, to_⟩ | ⟨kept, to_⟩
  · have other : ¬ SameName g.to_ rn.from_ := unchained.2.2 g hg rn (List.mem_cons_self ..)
    rw [to_, if_neg other]
    have same : renameOf (done ++ [rn]) a.name = renameOf done a.name := by
      unfold renameOf
      cases earlier : done.find? (·.from_ = a.name) with
      | none => exact absurd from_ (by simpa using List.find?_eq_none.mp earlier g hg)
      | some h => rw [found, earlier]; rfl
    unfold renamed
    rw [same]
  · have none : done.find? (·.from_ = a.name) = none := by
      apply List.find?_eq_none.mpr
      intro g hg
      simpa using kept g hg
    rw [to_]
    by_cases same : rn.from_ = a.name
    · rw [if_pos (by rw [same])]
      unfold renamed renameOf
      rw [found, none, if_pos same]
      rfl
    · have other : ¬ SameName a.name rn.from_ := by
        intro equal
        obtain ⟨source, inActual, _, _, name, _⟩ := plan.source inHints
        have one := plan.whole.2.1.same member inActual (by rw [name]; exact equal)
        exact same (by rw [← name, one])
      rw [if_neg other]
      unfold renamed renameOf
      rw [found, none, if_neg same]
      rfl

def renameStatement (expected : TableSpec) (rn : Rename) : Statement :=
  .renameColumn expected.table rn.from_ rn.to_

theorem Plan.execute_rename (plan : Plan expected actual hints) (split : hints = done ++ rn :: rest) :
    (renameStatement expected rn).execute ⟨expected.table, actual.columns.map (renamed done)⟩ =
      some ⟨expected.table, actual.columns.map (renamed (done ++ [rn]))⟩ := by
  have inHints : rn ∈ hints := split ▸ List.mem_append_right done (List.mem_cons_self ..)
  have grouped : hints = (done ++ [rn]) ++ rest := by
    rw [split, List.append_assoc, List.singleton_append]
  have columns : ((actual.columns.map (renamed done)).map fun c =>
      if SameName c.name rn.from_ then { c with name := rn.to_ } else c) =
        actual.columns.map (renamed (done ++ [rn])) := by
    rw [List.map_map]
    apply List.map_congr_left
    intro a member
    exact plan.rename_column split member
  have present : ∃ c ∈ actual.columns.map (renamed done), SameName c.name rn.from_ := by
    obtain ⟨a, member, _, _, name, _⟩ := plan.source inHints
    refine ⟨renamed done a, List.mem_map_of_mem member, ?_⟩
    have apart := plan.accepted.hold.2
    rw [split, List.pairwise_append] at apart
    rcases renameOf_cases done a.name with ⟨g, hg, from_, _⟩ | ⟨_, to_⟩
    · exact absurd (by rw [from_, name]) (apart.2.2 g hg rn (List.mem_cons_self ..)).1
    · show SameName (renameOf done a.name) rn.from_
      rw [to_, name]
  unfold renameStatement Statement.execute
  dsimp only
  rw [columns]
  exact if_pos ⟨rfl, present, plan.whole_renamed grouped⟩

theorem Plan.executeAll_renames (plan : Plan expected actual hints) (split : hints = done ++ rest) :
    executeAll (rest.map (renameStatement expected)) ⟨expected.table, actual.columns.map (renamed done)⟩ =
      some ⟨expected.table, actual.columns.map (renamed hints)⟩ := by
  induction rest generalizing done with
  | nil => rw [split, List.append_nil]; rfl
  | cons rn rest ih =>
    rw [List.map_cons, executeAll, plan.execute_rename split]
    exact ih (by rw [split, List.append_assoc, List.singleton_append])

/-! ## Columns that are added -/

/-- The columns that `emit_alter` adds. -/
def added (expected actual : TableSpec) (hints : List Hint) : List Column :=
  expected.columns.filter fun e => (findColumn actual e.name).isNone && !consumedTo hints e.name

theorem expectedColumnDiff_emits (expected actual : TableSpec) (hints : List Hint) (e : Column) :
    (expectedColumnDiff expected actual e).filterMap (emitAlter hints) =
      if (findColumn actual e.name).isNone && !consumedTo hints e.name then [.addColumn expected.table e.name e.type]
      else [] := by
  cases found : findColumn actual e.name with
  | none =>
    rw [expectedColumnDiff, found]
    cases taken : consumedTo hints e.name <;> simp [emitAlter, taken]
  | some a =>
    simp only [Option.isNone_some, Bool.false_and, Bool.false_eq_true, if_false]
    apply List.filterMap_eq_nil_iff.mpr
    intro d own
    exact if_neg fun missing => expectedColumnDiff_present found own missing.1

theorem actualColumnDiff_emits (expected : TableSpec) (hints : List Hint) (a : Column) :
    (actualColumnDiff expected a).filterMap (emitAlter hints) = [] := by
  apply List.filterMap_eq_nil_iff.mpr
  intro d own
  obtain ⟨_, _, kind⟩ := actualColumnDiff_named own
  exact if_neg fun missing => by rw [kind] at missing; cases missing.1

theorem specDiff_emits (expected actual : TableSpec) (hints : List Hint) (some_ : actual.columns ≠ []) :
    (specDiff expected actual).filterMap (emitAlter hints) =
      (added expected actual hints).map fun c => .addColumn expected.table c.name c.type := by
  have extras : (actual.columns.flatMap (actualColumnDiff expected)).filterMap (emitAlter hints) = [] := by
    rw [List.filterMap_flatMap]
    simp [actualColumnDiff_emits]
  unfold specDiff added
  rw [if_neg (by simpa using some_), List.filterMap_append, extras, List.append_nil, List.filterMap_flatMap,
    funext (expectedColumnDiff_emits expected actual hints)]
  generalize expected.columns = columns
  induction columns with
  | nil => rfl
  | cons e columns ih =>
    rw [List.flatMap_cons, ih]
    rw [List.filter_cons]
    by_cases here : ((findColumn actual e.name).isNone && !consumedTo hints e.name) = true
    · rw [if_pos here, if_pos here]
      rfl
    · rw [if_neg here, if_neg here]
      rfl

theorem mem_added {renames : List Rename} {e : Column} :
    e ∈ added expected actual (renames.map (marked expected)) ↔
      e ∈ expected.columns ∧ findColumn actual e.name = none ∧ ¬ ∃ rn ∈ hintsFor expected renames, rn.to_ = e.name := by
  unfold added
  rw [List.mem_filter, Bool.and_eq_true, Option.isNone_iff_eq_none, Bool.not_eq_true', ← Bool.not_eq_true,
    consumedTo_marked]

def made (expected actual : TableSpec) (renames : List Rename) : List Column :=
  actual.columns.map (renamed (hintsFor expected renames)) ++ added expected actual (renames.map (marked expected))

variable {renames : List Rename}

theorem Plan.added_plain (plan : Plan expected actual (hintsFor expected renames)) :
    ∀ e ∈ added expected actual (renames.map (marked expected)), e.primaryKey = false := by
  intro e member
  obtain ⟨inExpected, missing, free⟩ := mem_added.mp member
  rcases plan.accepted.expected_cases plan.whole.1 inExpected with present | ⟨_, plain | taken⟩
  · exact absurd rfl (findColumn_eq_none.mp missing e present)
  · exact plain
  · exact absurd taken free

theorem Plan.added_new (plan : Plan expected actual (hintsFor expected renames)) {a e : Column}
    (ha : a ∈ actual.columns) (he : e ∈ added expected actual (renames.map (marked expected))) :
    ¬ SameName (renamed (hintsFor expected renames) a).name e.name := by
  intro same
  obtain ⟨inExpected, missing, free⟩ := mem_added.mp he
  have named : ∀ f ∈ expected.columns, SameName f.name e.name → f.name = e.name :=
    fun f hf name => congrArg Column.name (plan.expectedNames.same hf inExpected name)
  rcases renameOf_cases (hintsFor expected renames) a.name with ⟨rn, hint, _, to_⟩ | ⟨kept, to_⟩
  · obtain ⟨_, _, f, hf, _, toF, _⟩ := plan.source hint
    apply free
    refine ⟨rn, hint, ?_⟩
    rw [← toF]
    apply named f hf
    rw [toF, ← to_]
    exact same
  · rcases plan.accepted.actual_cases plan.whole.1 ha with ⟨f, hf, name⟩ | ⟨rn, hint, from_⟩
    · have equal : f.name = e.name := by
        apply named f hf
        rw [name, ← to_]
        exact same
      exact findColumn_eq_none.mp missing a ha (by rw [← name, equal])
    · exact kept rn hint from_

theorem Plan.whole_made (plan : Plan expected actual (hintsFor expected renames)) :
    WellFormed (made expected actual renames) := by
  obtain ⟨some_, distinct, key⟩ := plan.whole_renamed (List.append_nil _).symm
  refine ⟨by simp [made, plan.whole.1], ?_, ?_⟩
  · unfold DistinctNames made
    rw [List.map_append]
    refine List.nodup_append.mpr ⟨distinct, ?_, ?_⟩
    · exact plan.expectedNames.sublist (List.filter_sublist.map _)
    · intro name inRenamed other inAdded equal
      obtain ⟨c, inColumns, rfl⟩ := List.mem_map.mp inRenamed
      obtain ⟨a, ha, rfl⟩ := List.mem_map.mp inColumns
      obtain ⟨e, he, rfl⟩ := List.mem_map.mp inAdded
      exact plan.added_new ha he equal
  · have none : (added expected actual (renames.map (marked expected))).countP (·.primaryKey) = 0 := by
      apply List.countP_eq_zero.mpr
      intro e member
      rw [plan.added_plain e member]
      decide
    unfold OneKey made
    rw [List.countP_append, none]
    exact key

theorem Plan.specDiff_made (plan : Plan expected actual (hintsFor expected renames)) (table : String) :
    specDiff expected ⟨table, made expected actual renames⟩ = [] := by
  apply specDiff_eq_nil plan.whole_made
  · intro e member
    rcases plan.accepted.expected_cases plan.whole.1 member with present | ⟨missing, _⟩
    · have same : renamed (hintsFor expected renames) e = e := by
        rcases renameOf_cases (hintsFor expected renames) e.name with ⟨rn, hint, from_, _⟩ | ⟨_, to_⟩
        · have gone := findColumn_eq_none.mp (plan.accepted.hold.1 rn hint).gone e member
          exact absurd from_.symm gone
        · unfold renamed
          rw [to_]
      exact List.mem_append_left _ (List.mem_map.mpr ⟨e, present, same⟩)
    · by_cases taken : ∃ rn ∈ hintsFor expected renames, rn.to_ = e.name
      · obtain ⟨rn, hint, to_⟩ := taken
        obtain ⟨a, ha, f, hf, fromA, toF, type, key⟩ := plan.source hint
        have one : f = e := plan.expectedNames.same hf member (by rw [toF, to_])
        have same : renamed (hintsFor expected renames) a = e := by
          rcases renameOf_cases (hintsFor expected renames) a.name with ⟨other, otherHint, from_, made⟩ | ⟨kept, _⟩
          · have equal : other = rn := by
              by_contra different
              exact (plan.accepted.hold.2.forall otherHint hint different).1 (by rw [from_, fromA])
            rw [← one]
            unfold renamed
            rw [made, equal, ← toF, type, key]
          · exact absurd fromA.symm (kept rn hint)
        exact List.mem_append_left _ (List.mem_map.mpr ⟨a, ha, same⟩)
      · exact List.mem_append_right _ (mem_added.mpr ⟨member, missing, taken⟩)
  · intro c member
    rcases List.mem_append.mp member with old | new
    · obtain ⟨a, ha, rfl⟩ := List.mem_map.mp old
      rcases renameOf_cases (hintsFor expected renames) a.name with ⟨rn, hint, _, to_⟩ | ⟨kept, to_⟩
      · obtain ⟨_, _, f, hf, _, toF, _⟩ := plan.source hint
        exact ⟨f, hf, by rw [toF, ← to_]; rfl⟩
      · rcases plan.accepted.actual_cases plan.whole.1 ha with ⟨f, hf, name⟩ | ⟨rn, hint, from_⟩
        · exact ⟨f, hf, by rw [name, ← to_]; rfl⟩
        · exact absurd from_ (kept rn hint)
    · exact ⟨c, (mem_added.mp new).1, rfl⟩

theorem emitRename_marked (expected : TableSpec) (renames : List Rename) :
    (renames.map (marked expected)).filterMap (emitRename expected) =
      (hintsFor expected renames).map (renameStatement expected) := by
  induction renames with
  | nil => rfl
  | cons rn renames ih =>
    unfold hintsFor at ih ⊢
    rw [List.map_cons, List.filterMap_cons, ih, List.filter_cons]
    by_cases mine : rn.table = expected.table <;> simp [emitRename, marked, mine, renameStatement]

theorem Plan.executeAll_emit (plan : Plan expected actual (hintsFor expected renames))
    (sameTable : actual.table = expected.table) :
    executeAll (emit expected actual (renames.map (marked expected))) actual =
      some ⟨expected.table, made expected actual renames⟩ := by
  have start : actual = ⟨expected.table, actual.columns.map (renamed [])⟩ := by
    have same : actual.columns.map (renamed []) = actual.columns := List.map_id _
    rw [same, ← sameTable]
  have later : actual.columns.map (renamed (hintsFor expected renames)) ≠ [] := by simpa using plan.whole.1
  have renames_ := plan.executeAll_renames (List.nil_append (hintsFor expected renames)).symm
  have adds := executeAll_addColumn expected.table _ _ later plan.added_plain plan.whole_made
  unfold emit
  rw [if_neg (by simpa using plan.whole.1), emitRename_marked, specDiff_emits _ _ _ plan.whole.1, executeAll_append]
  rw [← start] at renames_
  rw [renames_]
  exact adds

end Plan

/-! ## Answers -/

section Answers

variable {expected actual : TableSpec} {renames : List Rename}

/-- The schema can be written into SQL, and the hints are not too many. -/
def Usable (expected : TableSpec) (renames : List Rename) : Prop :=
  renames.length ≤ renamesMax ∧ namesOk expected = true

theorem specDiff_ne_nil_of_hint (hints : HintsHold expected actual (hintsFor expected renames))
    (some_ : hintsFor expected renames ≠ []) : specDiff expected actual ≠ [] := by
  obtain ⟨rn, hint⟩ := List.exists_mem_of_ne_nil _ some_
  obtain ⟨a, _, source, _⟩ := (hints.1 rn hint).alike
  obtain ⟨present, from_⟩ := findColumn_eq_some source
  have nonempty : actual.columns ≠ [] := List.ne_nil_of_mem present
  have extra : (⟨.columnExtra, expected.table, some a.name, none, some a.type, false⟩ : Diff) ∈
      specDiff expected actual := by
    apply (mem_specDiff nonempty).mpr
    refine .inr ⟨a, present, ?_⟩
    rw [actualColumnDiff, from_, (hints.1 rn hint).gone]
    exact List.mem_singleton_self _
  exact List.ne_nil_of_mem extra

theorem emit_ne_nil (accepted : Accepted expected actual (hintsFor expected renames))
    (differs : specDiff expected actual ≠ []) : emit expected actual (renames.map (marked expected)) ≠ [] := by
  unfold emit
  by_cases empty : actual.columns = []
  · rw [if_pos (by rw [empty]; rfl)]
    exact List.cons_ne_nil _ _
  rw [if_neg (by simpa using empty), emitRename_marked]
  obtain ⟨d, member⟩ := List.exists_mem_of_ne_nil _ differs
  obtain ⟨_, notTable, name, column⟩ := specDiff_named empty member
  have hinted : (∃ rn, rn ∈ hintsFor expected renames) →
      (hintsFor expected renames).map (renameStatement expected) ++
        (specDiff expected actual).filterMap (emitAlter (renames.map (marked expected))) ≠ [] := by
    rintro ⟨rn, hint⟩
    exact List.append_ne_nil_of_left_ne_nil (List.ne_nil_of_mem (List.mem_map_of_mem hint)) _
  rcases accepted.supported d member with table | ⟨missing, _⟩ | ⟨_, rn, hint, _⟩
  · exact absurd table notTable
  · by_cases taken : consumedTo (renames.map (marked expected)) name = true
    · obtain ⟨rn, hint, _⟩ := consumedTo_marked.mp taken
      exact hinted ⟨rn, hint⟩
    · apply List.append_ne_nil_of_right_ne_nil
      have emitted : emitAlter (renames.map (marked expected)) d =
          some (.addColumn d.table (d.column.getD "") (d.expectedType.getD "")) := by
        apply if_pos
        refine ⟨missing, ?_⟩
        rw [column]
        exact taken
      exact List.ne_nil_of_mem (List.mem_filterMap.mpr ⟨d, member, emitted⟩)
  · exact hinted ⟨rn, hint⟩

theorem generateSql_of_accepted (usable : Usable expected renames)
    (accepted : Accepted expected actual (hintsFor expected renames)) :
    generateSql expected actual renames =
      if specDiff expected actual = [] then .nothing else .ok (emit expected actual (renames.map (marked expected))) := by
  have lines := refusals_nil.mpr accepted
  have marks := validateRenames_hints (List.append_eq_nil_iff.mp lines).1
  rw [List.nil_append] at marks
  unfold generateSql
  rw [if_neg (Nat.not_lt.mpr usable.1), if_neg (not_not_intro usable.2)]
  dsimp only
  rw [if_neg (not_not_intro lines), marks]
  by_cases same : specDiff expected actual = []
  · rw [if_pos same, if_pos (by rw [same]; rfl)]
  · rw [if_neg same, if_neg (by simpa using same), if_neg (emit_ne_nil accepted same)]

theorem generateSql_refused (unusable : ¬ (Usable expected renames ∧
    Accepted expected actual (hintsFor expected renames))) : ∃ message, generateSql expected actual renames = .refused message := by
  unfold generateSql
  by_cases many : renames.length > renamesMax
  · rw [if_pos many]
    exact ⟨_, rfl⟩
  rw [if_neg many]
  by_cases names : namesOk expected = true
  swap
  · rw [if_pos names]
    exact ⟨_, rfl⟩
  rw [if_neg (not_not_intro names)]
  dsimp only
  have lines := fun none => unusable ⟨⟨Nat.not_lt.mp many, names⟩, refusals_nil.mp none⟩
  rw [if_pos lines]
  exact ⟨_, rfl⟩

theorem generateSql_ok_iff : (∃ statements, generateSql expected actual renames = .ok statements) ↔
    Usable expected renames ∧ Accepted expected actual (hintsFor expected renames) ∧ specDiff expected actual ≠ [] := by
  by_cases both : Usable expected renames ∧ Accepted expected actual (hintsFor expected renames)
  · rw [generateSql_of_accepted both.1 both.2]
    by_cases same : specDiff expected actual = [] <;> simp [same, both]
  · obtain ⟨message, refused⟩ := generateSql_refused both
    rw [refused]
    simp only [reduceCtorEq, exists_false, false_iff]
    exact fun all => both ⟨all.1, all.2.1⟩

theorem generateSql_nothing_iff : generateSql expected actual renames = .nothing ↔
    Usable expected renames ∧ specDiff expected actual = [] ∧ hintsFor expected renames = [] := by
  by_cases both : Usable expected renames ∧ Accepted expected actual (hintsFor expected renames)
  · rw [generateSql_of_accepted both.1 both.2]
    by_cases same : specDiff expected actual = []
    · have none : hintsFor expected renames = [] := by
        by_contra some_
        exact specDiff_ne_nil_of_hint both.2.hold some_ same
      simp [same, both, none]
    · simp [same]
  · obtain ⟨message, refused⟩ := generateSql_refused both
    rw [refused]
    simp only [reduceCtorEq, false_iff]
    rintro ⟨usable, same, none⟩
    apply both
    refine ⟨usable, ⟨?_, ?_⟩, ?_⟩
    · simp [none]
    · simp [none]
    · simp [same]

theorem generateSql_executes (sameTable : actual.table = expected.table) (expectedWhole : WellFormed expected.columns)
    (actualNames : DistinctNames actual.columns) (actualKey : OneKey actual.columns)
    (unchained : Unchained (hintsFor expected renames)) {statements : List Statement}
    (ok : generateSql expected actual renames = .ok statements) :
    ∃ table, executeAll statements actual = some table ∧ specDiff expected table = [] ∧
      ∀ a ∈ actual.columns, ∃ c ∈ table.columns, c.type = a.type ∧ c.primaryKey = a.primaryKey ∧
        (c.name = a.name ∨ ∃ rn ∈ hintsFor expected renames, rn.from_ = a.name ∧ c.name = rn.to_) := by
  obtain ⟨usable, accepted, differs⟩ := generateSql_ok_iff.mp ⟨_, ok⟩
  rw [generateSql_of_accepted usable accepted, if_neg differs] at ok
  cases ok
  by_cases empty : actual.columns = []
  · have created : executeAll (emit expected actual (renames.map (marked expected))) actual =
        some ⟨actual.table, expected.columns⟩ := by
      unfold emit
      rw [if_pos (by rw [empty]; rfl), executeAll, Statement.execute, if_neg (not_not_intro (by rw [sameTable])),
        if_neg (not_not_intro empty), if_pos expectedWhole]
      rfl
    refine ⟨_, created, ?_, ?_⟩
    · exact specDiff_eq_nil expectedWhole (fun e member => member) (fun c member => ⟨c, member, rfl⟩)
    · rw [empty]
      simp
  · have plan : Plan expected actual (hintsFor expected renames) :=
      ⟨accepted, expectedWhole.2.1, ⟨empty, actualNames, actualKey⟩, unchained⟩
    refine ⟨_, plan.executeAll_emit sameTable, plan.specDiff_made _, ?_⟩
    intro a member
    refine ⟨renamed (hintsFor expected renames) a, List.mem_append_left _ (List.mem_map_of_mem member), rfl, rfl, ?_⟩
    rcases renameOf_cases (hintsFor expected renames) a.name with ⟨rn, hint, from_, to_⟩ | ⟨_, to_⟩
    · exact .inr ⟨rn, hint, from_, to_⟩
    · exact .inl to_

theorem generateSql_correct (sameTable : actual.table = expected.table) (expectedWhole : WellFormed expected.columns)
    (actualNames : DistinctNames actual.columns) (actualKey : OneKey actual.columns)
    (unchained : Unchained (hintsFor expected renames)) :
    (∀ statements, generateSql expected actual renames = .ok statements →
      ∃ table, executeAll statements actual = some table ∧ specDiff expected table = [] ∧
        ∀ a ∈ actual.columns, ∃ c ∈ table.columns, c.type = a.type ∧ c.primaryKey = a.primaryKey ∧
          (c.name = a.name ∨ ∃ rn ∈ hintsFor expected renames, rn.from_ = a.name ∧ c.name = rn.to_)) ∧
      (generateSql expected actual renames = .nothing ↔
        Usable expected renames ∧ specDiff expected actual = [] ∧ hintsFor expected renames = []) ∧
      ((∃ statements, generateSql expected actual renames = .ok statements) ↔
        Usable expected renames ∧ Accepted expected actual (hintsFor expected renames) ∧
          specDiff expected actual ≠ []) ∧
      ((generateSql expected actual renames).sqlOut.isSome ↔
        ∃ statements, generateSql expected actual renames = .ok statements) := by
  refine ⟨fun statements ok => generateSql_executes sameTable expectedWhole actualNames actualKey unchained ok,
    generateSql_nothing_iff, generateSql_ok_iff, ?_⟩
  cases generateSql expected actual renames <;> simp [Generated.sqlOut]

end Answers

/-- A hint, another case of a name, and an addition in one migration. -/
theorem generateSql_correct_users : ∃ table, executeAll
      [.renameColumn "users" "mail" "email", .renameColumn "users" "AGE" "age", .addColumn "users" "note" "TEXT"]
      ⟨"users", [⟨"id", "INTEGER", true⟩, ⟨"mail", "TEXT", false⟩, ⟨"AGE", "INTEGER", false⟩]⟩ = some table ∧
    specDiff ⟨"users", [⟨"id", "INTEGER", true⟩, ⟨"email", "TEXT", false⟩, ⟨"note", "TEXT", false⟩,
      ⟨"age", "INTEGER", false⟩]⟩ table = [] := by
  have correct := @generateSql_correct
    ⟨"users", [⟨"id", "INTEGER", true⟩, ⟨"email", "TEXT", false⟩, ⟨"note", "TEXT", false⟩, ⟨"age", "INTEGER", false⟩]⟩
    ⟨"users", [⟨"id", "INTEGER", true⟩, ⟨"mail", "TEXT", false⟩, ⟨"AGE", "INTEGER", false⟩]⟩
    [⟨"users", "mail", "email"⟩, ⟨"other", "a", "b"⟩, ⟨"users", "AGE", "age"⟩]
    rfl (by decide) (by decide) (by decide) (by unfold Unchained; decide)
  obtain ⟨table, executed, same, _⟩ := correct.1 _ rfl
  exact ⟨table, executed, same⟩

/-- Names that are no identifiers are refused where nothing differs; a hint that does not hold is refused
    beside a difference that is supported; a new name that an old one has in another case, and a schema
    without columns, give SQL that fails. -/
theorem generateSql_limits :
    (specDiff ⟨"t", [⟨"a-b", "TEXT", false⟩]⟩ ⟨"t", [⟨"a-b", "TEXT", false⟩]⟩ = [] ∧
      generateSql ⟨"t", [⟨"a-b", "TEXT", false⟩]⟩ ⟨"t", [⟨"a-b", "TEXT", false⟩]⟩ [] ≠ .nothing) ∧
    (specDiff ⟨"t", [⟨"a", "TEXT", false⟩, ⟨"b", "TEXT", false⟩]⟩ ⟨"t", [⟨"a", "TEXT", false⟩]⟩ =
        [⟨.columnMissing, "t", some "b", some "TEXT", none, false⟩] ∧
      ∀ statements, generateSql ⟨"t", [⟨"a", "TEXT", false⟩, ⟨"b", "TEXT", false⟩]⟩ ⟨"t", [⟨"a", "TEXT", false⟩]⟩
        [⟨"t", "c", "b"⟩] ≠ .ok statements) ∧
    (∃ statements, generateSql ⟨"t", [⟨"A", "TEXT", false⟩, ⟨"B", "TEXT", false⟩]⟩
        ⟨"t", [⟨"a", "TEXT", false⟩, ⟨"b", "TEXT", false⟩]⟩ [⟨"t", "a", "B"⟩, ⟨"t", "b", "A"⟩] = .ok statements ∧
      executeAll statements ⟨"t", [⟨"a", "TEXT", false⟩, ⟨"b", "TEXT", false⟩]⟩ = none) ∧
    ∃ statements, generateSql ⟨"t", []⟩ ⟨"t", []⟩ [] = .ok statements ∧ executeAll statements ⟨"t", []⟩ = none := by
  refine ⟨⟨rfl, by decide⟩, ⟨rfl, ?_⟩, ⟨_, rfl, rfl⟩, ⟨_, rfl, rfl⟩⟩
  intro statements ok
  cases ok

end BlueBird.Migrate
