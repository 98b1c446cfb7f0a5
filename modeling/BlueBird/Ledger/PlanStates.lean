import Mathlib.Algebra.Ring.Nat
import BlueBird.Ledger.Plan

namespace BlueBird.Ledger

/-- In one of the sources and in no row of the ledger. -/
def OnlyInSources (source : List Migration) (applied : List Applied) (version : Int) : Prop :=
  version ∈ source.map (·.version) ∧ version ∉ applied.map (·.version)

def BelowHighest (applied : List Applied) (version : Int) : Prop := ∃ a ∈ applied, version < a.version

/-- Nothing applied counts as the version -1 applied. -/
def BelowLatest (applied : List Applied) (version : Int) : Prop :=
  BelowHighest applied version ∨ (applied = [] ∧ version < -1)

/-- The state and the flag that an entry must have, for a version that is `below` or not. -/
structure Entry.Classified (source : List Migration) (applied : List Applied) (allowLate : Bool) (below : Prop) (e : Entry) :
    Prop where
  isApplied : e.state = .applied ↔
    ∃ s ∈ source, ∃ a ∈ applied, s.version = e.version ∧ a.version = e.version ∧ s.checksum = a.checksum
  isModified : e.state = .modified ↔
    ∃ s ∈ source, ∃ a ∈ applied, s.version = e.version ∧ a.version = e.version ∧ s.checksum ≠ a.checksum
  isMissing : e.state = .missing ↔ e.version ∉ source.map (·.version) ∧ e.version ∈ applied.map (·.version)
  isOutOfOrder : e.state = .outOfOrder ↔ OnlyInSources source applied e.version ∧ below ∧ allowLate = false
  isPending : e.state = .pending ↔ OnlyInSources source applied e.version ∧ ¬ (below ∧ allowLate = false)
  isLate : e.late = true ↔ OnlyInSources source applied e.version ∧ below

structure Plan.Correct (below : List Applied → Int → Prop) (source : List Migration) (applied : List Applied)
    (allowLate : Bool) (plan : Plan) : Prop where
  ascending : Ascending (plan.entries.map (·.version))
  complete : ∀ v, v ∈ plan.entries.map (·.version) ↔ v ∈ source.map (·.version) ∨ v ∈ applied.map (·.version)
  classified : ∀ e ∈ plan.entries, e.Classified source applied allowLate (below applied e.version)
  pendingCount : plan.pendingCount = plan.entries.countP (·.state = .pending)
  problemCount : plan.problemCount = plan.entries.countP (stateIsProblem ·.state)

def PlansCorrectly (below : List Applied → Int → Prop) (source : List Migration) (applied : List Applied)
    (allowLate : Bool) : Prop :=
  ((∃ text, planBuild source applied allowLate = .error text) ↔
    ¬ Ascending (source.map (·.version)) ∨ ¬ Ascending (applied.map (·.version))) ∧
  ∀ plan, planBuild source applied allowLate = .ok plan → plan.Correct below source applied allowLate

theorem latestApplied_of_ascending {applied : List Applied} (ledger : Ascending (applied.map (·.version))) {v : Int} :
    v < latestApplied applied ↔ BelowLatest applied v := by
  rcases List.eq_nil_or_concat applied with rfl | ⟨older, last, rfl⟩
  · simp [latestApplied, BelowLatest, BelowHighest]
  · have value : latestApplied (older.concat last) = last.version := by
      simp [latestApplied, List.concat_eq_append]
    have some_ : older.concat last ≠ [] := by simp [List.concat_eq_append]
    rw [value]
    constructor
    · intro below
      exact .inl ⟨last, by simp [List.concat_eq_append], below⟩
    · intro below
      rcases below with ⟨a, row, below⟩ | ⟨nothing, _⟩
      · rw [List.concat_eq_append, List.map_append, Ascending, List.pairwise_append] at ledger
        rw [List.concat_eq_append] at row
        rcases List.mem_append.mp row with earlier | final
        · have order := ledger.2.2 a.version (List.mem_map.mpr ⟨a, earlier, rfl⟩) last.version (by simp)
          omega
        · rw [← List.mem_singleton.mp final]
          exact below
      · exact absurd nothing some_

section Classified

variable {source : List Migration} {applied : List Applied} {allowLate : Bool}

theorem unique_version (files : Ascending (source.map (·.version))) {s r : Migration} (file : s ∈ source) (other : r ∈ source)
    (same : s.version = r.version) : s = r :=
  List.inj_on_of_nodup_map (nodup_of_ascending files) file other same

theorem unique_row (ledger : Ascending (applied.map (·.version))) {a b : Applied} (row : a ∈ applied) (other : b ∈ applied)
    (same : a.version = b.version) : a = b :=
  List.inj_on_of_nodup_map (nodup_of_ascending ledger) row other same

theorem classified_unappliedEntry (ledger : Ascending (applied.map (·.version))) {s : Migration} (file : s ∈ source)
    (fresh : Unapplied applied s) :
    (unappliedEntry allowLate (latestApplied applied) s).Classified source applied allowLate
      (BelowLatest applied s.version) := by
  have listed : s.version ∈ source.map (·.version) := List.mem_map.mpr ⟨s, file, rfl⟩
  have mine : OnlyInSources source applied s.version := ⟨listed, fresh⟩
  have unpaired : ∀ P : String → String → Prop,
      ¬ ∃ r ∈ source, ∃ a ∈ applied, r.version = s.version ∧ a.version = s.version ∧ P r.checksum a.checksum := by
    intro P both
    rcases both with ⟨r, _, a, row, _, same, _⟩
    exact fresh (List.mem_map.mpr ⟨a, row, same⟩)
  have flag : (unappliedEntry allowLate (latestApplied applied) s).late = true ↔ s.version < latestApplied applied := by
    simp [unappliedEntry]
  rw [← latestApplied_of_ascending ledger]
  by_cases held : s.version < latestApplied applied ∧ allowLate = false
  · have state : (unappliedEntry allowLate (latestApplied applied) s).state = .outOfOrder := by simp [unappliedEntry, held]
    constructor
    · exact iff_of_false (by rw [state]; decide) (unpaired (· = ·))
    · exact iff_of_false (by rw [state]; decide) (unpaired (· ≠ ·))
    · exact iff_of_false (by rw [state]; decide) (fun missing => missing.1 listed)
    · exact iff_of_true state ⟨mine, held⟩
    · exact iff_of_false (by rw [state]; decide) (fun free => free.2 held)
    · exact flag.trans (and_iff_right mine).symm
  · have state : (unappliedEntry allowLate (latestApplied applied) s).state = .pending := by
      unfold unappliedEntry
      apply if_neg
      intro late
      exact held (by simpa using late)
    constructor
    · exact iff_of_false (by rw [state]; decide) (unpaired (· = ·))
    · exact iff_of_false (by rw [state]; decide) (unpaired (· ≠ ·))
    · exact iff_of_false (by rw [state]; decide) (fun missing => missing.1 listed)
    · exact iff_of_false (by rw [state]; decide) (fun late => held late.2)
    · exact iff_of_true state ⟨mine, held⟩
    · exact flag.trans (and_iff_right mine).symm

theorem classified_missingEntry {a : Applied} (row : a ∈ applied) (gone : a.version ∉ source.map (·.version))
    (below : Prop) : (missingEntry a).Classified source applied allowLate below := by
  have listed : a.version ∈ applied.map (·.version) := List.mem_map.mpr ⟨a, row, rfl⟩
  have absent : ∀ s ∈ source, s.version ≠ a.version := by
    intro s file same
    exact gone (List.mem_map.mpr ⟨s, file, same⟩)
  constructor <;> simp_all [missingEntry, OnlyInSources]

theorem classified_appliedEntry (files : Ascending (source.map (·.version))) (ledger : Ascending (applied.map (·.version)))
    {s : Migration} {a : Applied} (file : s ∈ source) (row : a ∈ applied) (same : s.version = a.version) (below : Prop) :
    (appliedEntry s a).Classified source applied allowLate below := by
  have filed : s.version ∈ source.map (·.version) := List.mem_map.mpr ⟨s, file, rfl⟩
  have recorded : s.version ∈ applied.map (·.version) := List.mem_map.mpr ⟨a, row, same.symm⟩
  have pair : ∀ P : String → String → Prop,
      (∃ r ∈ source, ∃ b ∈ applied, r.version = s.version ∧ b.version = s.version ∧ P r.checksum b.checksum) ↔
        P s.checksum a.checksum := by
    intro P
    constructor
    · intro both
      rcases both with ⟨r, rfile, b, brow, rsame, bsame, holds⟩
      rw [unique_version files rfile file rsame, unique_row ledger brow row (bsame.trans same)] at holds
      exact holds
    · intro holds
      exact ⟨s, file, a, row, rfl, same.symm, holds⟩
  have equal := pair (· = ·)
  have different := pair (· ≠ ·)
  have listed : ¬ OnlyInSources source applied s.version := fun mine => mine.2 recorded
  by_cases checksum : s.checksum = a.checksum
  · have state : (appliedEntry s a).state = .applied := if_pos checksum
    constructor
    · exact iff_of_true state (equal.mpr checksum)
    · exact iff_of_false (by rw [state]; decide) (fun both => different.mp both checksum)
    · exact iff_of_false (by rw [state]; decide) (fun missing => missing.1 filed)
    · exact iff_of_false (by rw [state]; decide) (fun mine => listed mine.1)
    · exact iff_of_false (by rw [state]; decide) (fun mine => listed mine.1)
    · exact iff_of_false Bool.false_ne_true (fun mine => listed mine.1)
  · have state : (appliedEntry s a).state = .modified := if_neg checksum
    constructor
    · exact iff_of_false (by rw [state]; decide) (fun both => checksum (equal.mp both))
    · exact iff_of_true state (different.mpr checksum)
    · exact iff_of_false (by rw [state]; decide) (fun missing => missing.1 filed)
    · exact iff_of_false (by rw [state]; decide) (fun mine => listed mine.1)
    · exact iff_of_false (by rw [state]; decide) (fun mine => listed mine.1)
    · exact iff_of_false Bool.false_ne_true (fun mine => listed mine.1)

theorem planBuild_fails : (∃ text, planBuild source applied allowLate = .error text) ↔
    ¬ Ascending (source.map (·.version)) ∨ ¬ Ascending (applied.map (·.version)) := by
  rw [← ascending_iff, ← ascending_iff]
  unfold planBuild
  by_cases files : (source.map (·.version)).IsChain (· < ·)
  · by_cases ledger : (applied.map (·.version)).IsChain (· < ·)
    · rw [if_neg (not_not_intro files), if_neg (not_not_intro ledger)]
      exact iff_of_false (fun failed => by cases failed.choose_spec)
        (fun unsorted => unsorted.elim (absurd files) (absurd ledger))
    · rw [if_neg (not_not_intro files), if_pos ledger]
      exact iff_of_true ⟨_, rfl⟩ (.inr ledger)
  · rw [if_pos files]
    exact iff_of_true ⟨_, rfl⟩ (.inl files)

theorem version_mem_mergeJoin {latest : Int} (files : Ascending (source.map (·.version)))
    (ledger : Ascending (applied.map (·.version))) {v : Int} :
    v ∈ (mergeJoin allowLate latest (source.length + applied.length) source applied).map (·.version) ↔
      v ∈ source.map (·.version) ∨ v ∈ applied.map (·.version) := by
  have members := fun e => @mem_mergeJoin allowLate latest _ source applied (Nat.le_refl _) files ledger e
  constructor
  · intro member
    rcases List.mem_map.mp member with ⟨e, entry, rfl⟩
    exact version_mem_of_mergeJoin (Nat.le_refl _) files ledger entry
  · intro member
    apply List.mem_map.mpr
    by_cases recorded : v ∈ applied.map (·.version)
    · rcases List.mem_map.mp recorded with ⟨a, row, rfl⟩
      by_cases filed : a.version ∈ source.map (·.version)
      · rcases List.mem_map.mp filed with ⟨s, file, same⟩
        exact ⟨appliedEntry s a, (members _).mpr (.inr (.inr ⟨s, file, a, row, same, rfl⟩)), same⟩
      · exact ⟨missingEntry a, (members _).mpr (.inr (.inl ⟨a, row, filed, rfl⟩)), rfl⟩
    · rcases List.mem_map.mp (member.resolve_right recorded) with ⟨s, file, rfl⟩
      exact ⟨unappliedEntry allowLate latest s, (members _).mpr (.inl ⟨s, file, recorded, rfl⟩), rfl⟩

theorem planBuild_pendingCount {plan : Plan} (built : planBuild source applied allowLate = .ok plan) :
    plan.pendingCount = plan.entries.countP (·.state = .pending) := by
  unfold planBuild at built
  by_cases files : ¬ (source.map (·.version)).IsChain (· < ·)
  · rw [if_pos files] at built
    cases built
  · by_cases ledger : ¬ (applied.map (·.version)).IsChain (· < ·)
    · rw [if_neg files, if_pos ledger] at built
      cases built
    · rw [if_neg files, if_neg ledger, addEntry_foldl] at built
      cases built
      exact Nat.zero_add _

theorem planBuild_correct {plan : Plan} (built : planBuild source applied allowLate = .ok plan) :
    plan.Correct BelowLatest source applied allowLate := by
  rcases planBuild_ok built with ⟨files, ledger, entries, problems⟩
  constructor
  · rw [entries]
    exact ascending_mergeJoin (Nat.le_refl _) files ledger
  · intro v
    rw [entries]
    exact version_mem_mergeJoin files ledger
  · intro e member
    rw [entries] at member
    rcases (mem_mergeJoin (Nat.le_refl _) files ledger).mp member with
      ⟨s, file, fresh, rfl⟩ | ⟨a, row, gone, rfl⟩ | ⟨s, file, a, row, same, rfl⟩
    · exact classified_unappliedEntry ledger file fresh
    · exact classified_missingEntry row gone _
    · exact classified_appliedEntry files ledger file row same _
  · exact planBuild_pendingCount built
  · exact problems

end Classified

theorem plansCorrectly_belowLatest (source : List Migration) (applied : List Applied) (allowLate : Bool) :
    PlansCorrectly BelowLatest source applied allowLate :=
  ⟨planBuild_fails, fun _ built => planBuild_correct built⟩

def negativeMigration : Migration where
  version := -2
  name := "early"
  checksum := ""
  sql := []

/-- With nothing applied there is no highest version, but -2 is out of order. -/
theorem not_plansCorrectly_negative : ¬ PlansCorrectly BelowHighest [negativeMigration] [] false := by
  intro correct
  have entry := (correct.2 _ rfl).classified (unappliedEntry false (-1) negativeMigration) List.mem_cons_self
  rcases (entry.isOutOfOrder.mp rfl).2.1 with ⟨a, row, _⟩
  cases row

end BlueBird.Ledger
