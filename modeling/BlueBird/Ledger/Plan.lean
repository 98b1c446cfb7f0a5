import Mathlib.Data.List.Chain
import Mathlib.Data.List.Sort
import BlueBird.Bytes

namespace BlueBird.Ledger

/-- `bb_migration_t` -/
structure Migration where
  version : Int
  name : String
  checksum : String
  sql : Bytes
  deriving DecidableEq, Repr

/-- `bb_migrate_applied_t` -/
structure Applied where
  version : Int
  name : String
  checksum : String
  appliedAt : Int
  deriving DecidableEq, Repr

inductive EntryState where
  | applied | pending | modified | missing | outOfOrder
  deriving DecidableEq, Repr

def stateIsProblem (state : EntryState) : Bool :=
  state = .modified ∨ state = .missing ∨ state = .outOfOrder

/-- `bb_migrate_entry_t` -/
structure Entry where
  version : Int
  name : String
  state : EntryState
  late : Bool
  migration : Option Migration
  deriving DecidableEq, Repr

/-- `bb_migrate_plan_t` -/
structure Plan where
  entries : List Entry := []
  pendingCount : Nat := 0
  problemCount : Nat := 0
  deriving DecidableEq, Repr

def addEntry (plan : Plan) (e : Entry) : Plan where
  entries := plan.entries ++ [e]
  pendingCount := if e.state = .pending then plan.pendingCount + 1 else plan.pendingCount
  problemCount :=
    if e.state ≠ .pending ∧ stateIsProblem e.state then plan.problemCount + 1 else plan.problemCount

def unappliedEntry (allowLate : Bool) (latestApplied : Int) (s : Migration) : Entry :=
  let late : Bool := s.version < latestApplied
  { version := s.version, name := s.name, late, migration := some s
    state := if late ∧ !allowLate then .outOfOrder else .pending }

def missingEntry (a : Applied) : Entry where
  version := a.version
  name := a.name
  state := .missing
  late := false
  migration := none

def appliedEntry (s : Migration) (a : Applied) : Entry where
  version := s.version
  name := s.name
  state := if s.checksum = a.checksum then .applied else .modified
  late := false
  migration := some s

/-- The entries in the order in which the `while` loop adds them; it adds at most `total`. -/
def mergeJoin (allowLate : Bool) (latestApplied : Int) : (total : Nat) → List Migration → List Applied → List Entry
  | 0, _, _ => []
  | _ + 1, [], [] => []
  | total + 1, s :: source, [] =>
    unappliedEntry allowLate latestApplied s :: mergeJoin allowLate latestApplied total source []
  | total + 1, [], a :: applied => missingEntry a :: mergeJoin allowLate latestApplied total [] applied
  | total + 1, s :: source, a :: applied =>
    if s.version < a.version then
      unappliedEntry allowLate latestApplied s :: mergeJoin allowLate latestApplied total source (a :: applied)
    else if a.version < s.version then
      missingEntry a :: mergeJoin allowLate latestApplied total (s :: source) applied
    else appliedEntry s a :: mergeJoin allowLate latestApplied total source applied

def latestApplied (applied : List Applied) : Int := (applied.getLast?.map (·.version)).getD (-1)

/-- The texts of `bb_migrate_plan_build`'s two errors. -/
def planBuild (source : List Migration) (applied : List Applied) (allowOutOfOrder : Bool) : Except String Plan :=
  if ¬ (source.map (·.version)).IsChain (· < ·) then .error "migration source is not sorted by unique version"
  else if ¬ (applied.map (·.version)).IsChain (· < ·) then
    .error "applied migration list is not sorted by unique version"
  else
    .ok ((mergeJoin allowOutOfOrder (latestApplied applied) (source.length + applied.length) source applied).foldl
      addEntry {})

def planFirstProblem (plan : Plan) : Option Entry := plan.entries.find? fun e => stateIsProblem e.state

/-! ## What a plan says -/

def Entry.toApply (e : Entry) : Option Migration := if e.state = .pending then e.migration else none

def Ascending (versions : List Int) : Prop := versions.Pairwise (· < ·)

theorem ascending_iff {versions : List Int} : versions.IsChain (· < ·) ↔ Ascending versions := List.isChain_iff_pairwise

theorem nodup_of_ascending {versions : List Int} (ascending : Ascending versions) : versions.Nodup :=
  ascending.imp fun below => Int.ne_of_lt below

def Unapplied (applied : List Applied) (s : Migration) : Prop := s.version ∉ applied.map (·.version)

instance (applied : List Applied) (s : Migration) : Decidable (Unapplied applied s) :=
  inferInstanceAs (Decidable (¬ _))

/-- On disk only, and not held back. -/
def Pending (allowLate : Bool) (applied : List Applied) (s : Migration) : Prop :=
  Unapplied applied s ∧ ¬ (s.version < latestApplied applied ∧ allowLate = false)

instance (allowLate : Bool) (applied : List Applied) (s : Migration) : Decidable (Pending allowLate applied s) :=
  inferInstanceAs (Decidable (_ ∧ _))

theorem addEntry_foldl (entries : List Entry) (plan : Plan) :
    entries.foldl addEntry plan =
      { entries := plan.entries ++ entries
        pendingCount := plan.pendingCount + entries.countP (·.state = .pending)
        problemCount := plan.problemCount + entries.countP (stateIsProblem ·.state) } := by
  induction entries generalizing plan with
  | nil => simp
  | cons e entries ih =>
    rw [List.foldl_cons, ih, addEntry, List.countP_cons, List.countP_cons]
    cases state : e.state <;> simp [stateIsProblem] <;> omega

section MergeJoin

variable {allowLate : Bool} {latest : Int}

theorem Ascending.head_lt {v : Int} {versions : List Int} (ascending : Ascending (v :: versions)) {w : Int}
    (member : w ∈ versions) : v < w := List.rel_of_pairwise_cons ascending member

theorem Ascending.not_mem {v w : Int} {versions : List Int} (ascending : Ascending (w :: versions)) (below : v < w) :
    v ∉ w :: versions := by
  intro member
  rcases List.mem_cons.mp member with same | later
  · omega
  · have above := ascending.head_lt later
    omega

def Joined (allowLate : Bool) (latest : Int) (source : List Migration) (applied : List Applied) (e : Entry) : Prop :=
  (∃ s ∈ source, Unapplied applied s ∧ e = unappliedEntry allowLate latest s) ∨
    (∃ a ∈ applied, a.version ∉ source.map (·.version) ∧ e = missingEntry a) ∨
    (∃ s ∈ source, ∃ a ∈ applied, s.version = a.version ∧ e = appliedEntry s a)

section
variable {s : Migration} {source : List Migration} {a : Applied} {applied : List Applied} {e : Entry}

theorem joined_file (fresh : Unapplied applied s) :
    Joined allowLate latest (s :: source) applied e ↔
      e = unappliedEntry allowLate latest s ∨ Joined allowLate latest source applied e := by
  have other : ∀ b ∈ applied, s.version ≠ b.version := by
    intro b member same
    exact fresh (List.mem_map.mpr ⟨b, member, same.symm⟩)
  have missing : ∀ b ∈ applied, (b.version ∉ (s :: source).map (·.version) ↔ b.version ∉ source.map (·.version)) := by
    intro b member
    simp [(other b member).symm]
  have none : ¬ ∃ b ∈ applied, s.version = b.version ∧ e = appliedEntry s b := by
    rintro ⟨b, member, same, _⟩
    exact other b member same
  have kept := exists_congr fun b => and_congr_right fun member =>
    and_congr_left' (c := e = missingEntry b) (missing b member)
  unfold Joined
  rw [kept, List.exists_mem_cons_iff _ s source, List.exists_mem_cons_iff _ s source, and_iff_right fresh, or_iff_right none]
  exact or_assoc

theorem joined_row (gone : a.version ∉ source.map (·.version)) :
    Joined allowLate latest source (a :: applied) e ↔ e = missingEntry a ∨ Joined allowLate latest source applied e := by
  have other : ∀ r ∈ source, r.version ≠ a.version := by
    intro r member same
    exact gone (List.mem_map.mpr ⟨r, member, same⟩)
  have fresh : ∀ r ∈ source, (Unapplied (a :: applied) r ↔ Unapplied applied r) := by
    intro r member
    simp [Unapplied, other r member]
  have known : ∀ r ∈ source, ((∃ b ∈ a :: applied, r.version = b.version ∧ e = appliedEntry r b) ↔
      ∃ b ∈ applied, r.version = b.version ∧ e = appliedEntry r b) := by
    intro r member
    rw [List.exists_mem_cons_iff]
    exact or_iff_right fun equal => other r member equal.1
  have kept := exists_congr fun r => and_congr_right fun member =>
    and_congr_left' (c := e = unappliedEntry allowLate latest r) (fresh r member)
  unfold Joined
  rw [kept, exists_congr fun r => and_congr_right fun member => known r member, List.exists_mem_cons_iff _ a applied,
    and_iff_right gone, or_left_comm]
  exact or_assoc.trans (or_congr_right or_left_comm)

theorem joined_both (same : s.version = a.version) (later : ∀ r ∈ source, r.version ≠ a.version)
    (after : ∀ b ∈ applied, s.version ≠ b.version) :
    Joined allowLate latest (s :: source) (a :: applied) e ↔ e = appliedEntry s a ∨ Joined allowLate latest source applied e := by
  have fresh : ∀ r ∈ source, (Unapplied (a :: applied) r ↔ Unapplied applied r) := by
    intro r member
    simp [Unapplied, later r member]
  have missing : ∀ b ∈ applied, (b.version ∉ (s :: source).map (·.version) ↔ b.version ∉ source.map (·.version)) := by
    intro b member
    simp [(after b member).symm]
  have mine : (∃ b ∈ a :: applied, s.version = b.version ∧ e = appliedEntry s b) ↔ e = appliedEntry s a := by
    rw [List.exists_mem_cons_iff]
    constructor
    · rintro (⟨_, entry⟩ | ⟨b, member, equal, _⟩)
      · exact entry
      · exact absurd equal (after b member)
    · exact fun entry => .inl ⟨same, entry⟩
  have known : ∀ r ∈ source, ((∃ b ∈ a :: applied, r.version = b.version ∧ e = appliedEntry r b) ↔
      ∃ b ∈ applied, r.version = b.version ∧ e = appliedEntry r b) := by
    intro r member
    rw [List.exists_mem_cons_iff]
    exact or_iff_right fun equal => later r member equal.1
  have unapplied := exists_congr fun r => and_congr_right fun member =>
    and_congr_left' (c := e = unappliedEntry allowLate latest r) (fresh r member)
  have kept := exists_congr fun b => and_congr_right fun member =>
    and_congr_left' (c := e = missingEntry b) (missing b member)
  have both := exists_congr fun r => and_congr_right fun member => known r member
  have listed : ¬ (Unapplied (a :: applied) s ∧ e = unappliedEntry allowLate latest s) := by
    simp [Unapplied, same]
  have filed : ¬ (a.version ∉ (s :: source).map (·.version) ∧ e = missingEntry a) := by
    simp [same]
  unfold Joined
  rw [List.exists_mem_cons_iff _ s source, List.exists_mem_cons_iff _ a applied, List.exists_mem_cons_iff _ s source,
    unapplied, kept, mine, both, or_iff_right listed, or_iff_right filed]
  exact (or_left_comm.trans (or_congr_right or_left_comm)).symm

end

theorem mem_mergeJoin {total : Nat} {source : List Migration} {applied : List Applied}
    (enough : source.length + applied.length ≤ total) (files : Ascending (source.map (·.version)))
    (ledger : Ascending (applied.map (·.version))) {e : Entry} :
    e ∈ mergeJoin allowLate latest total source applied ↔ Joined allowLate latest source applied e := by
  induction total generalizing source applied with
  | zero =>
    have noSource : source = [] := List.length_eq_zero_iff.mp (by omega)
    have noApplied : applied = [] := List.length_eq_zero_iff.mp (by omega)
    simp [noSource, noApplied, mergeJoin, Joined]
  | succ total ih =>
    cases source with
    | nil =>
      cases applied with
      | nil => simp [mergeJoin, Joined]
      | cons a applied =>
        rw [mergeJoin, List.mem_cons, joined_row List.not_mem_nil, ih (by simp at enough ⊢; omega) files ledger.tail]
    | cons s source =>
      cases applied with
      | nil =>
        rw [mergeJoin, List.mem_cons, joined_file (show Unapplied [] s from List.not_mem_nil),
          ih (by simp at enough ⊢; omega) files.tail ledger]
      | cons a applied =>
        simp only [List.length_cons] at enough
        rw [mergeJoin]
        by_cases below : s.version < a.version
        · have fresh : Unapplied (a :: applied) s := ledger.not_mem below
          rw [if_pos below, List.mem_cons, joined_file fresh, ih (by simp; omega) files.tail ledger]
        · by_cases above : a.version < s.version
          · rw [if_neg below, if_pos above, List.mem_cons, joined_row (files.not_mem above),
              ih (by simp; omega) files ledger.tail]
          · have same : s.version = a.version := by omega
            have later : ∀ r ∈ source, r.version ≠ a.version := by
              intro r member
              have beyond : s.version < r.version := files.head_lt (List.mem_map.mpr ⟨r, member, rfl⟩)
              omega
            have after : ∀ b ∈ applied, s.version ≠ b.version := by
              intro b member
              have beyond : a.version < b.version := ledger.head_lt (List.mem_map.mpr ⟨b, member, rfl⟩)
              omega
            rw [if_neg below, if_neg above, List.mem_cons, joined_both same later after, ih (by omega) files.tail ledger.tail]

theorem version_mem_of_mergeJoin {total : Nat} {source : List Migration} {applied : List Applied}
    (enough : source.length + applied.length ≤ total) (files : Ascending (source.map (·.version)))
    (ledger : Ascending (applied.map (·.version))) {e : Entry} (member : e ∈ mergeJoin allowLate latest total source applied) :
    e.version ∈ source.map (·.version) ∨ e.version ∈ applied.map (·.version) := by
  rcases (mem_mergeJoin enough files ledger).mp member with ⟨s, file, _, rfl⟩ | ⟨a, row, _, rfl⟩ | ⟨s, file, a, row, _, rfl⟩
  · exact .inl (List.mem_map.mpr ⟨s, file, rfl⟩)
  · exact .inr (List.mem_map.mpr ⟨a, row, rfl⟩)
  · exact .inl (List.mem_map.mpr ⟨s, file, rfl⟩)

theorem ascending_mergeJoin {total : Nat} {source : List Migration} {applied : List Applied}
    (enough : source.length + applied.length ≤ total) (files : Ascending (source.map (·.version)))
    (ledger : Ascending (applied.map (·.version))) :
    Ascending ((mergeJoin allowLate latest total source applied).map (·.version)) := by
  have step : ∀ (e : Entry) (rest : Nat) (source' : List Migration) (applied' : List Applied),
      source'.length + applied'.length ≤ rest → Ascending (source'.map (·.version)) → Ascending (applied'.map (·.version)) →
      (∀ v ∈ source'.map (·.version), e.version < v) → (∀ v ∈ applied'.map (·.version), e.version < v) →
      Ascending ((mergeJoin allowLate latest rest source' applied').map (·.version)) →
      Ascending ((e :: mergeJoin allowLate latest rest source' applied').map (·.version)) := by
    intro e rest source' applied' enough files ledger belowFiles belowRows sorted
    apply List.Pairwise.cons _ sorted
    intro v member
    rcases List.mem_map.mp member with ⟨e', later, rfl⟩
    rcases version_mem_of_mergeJoin enough files ledger later with file | row
    · exact belowFiles _ file
    · exact belowRows _ row
  induction total generalizing source applied with
  | zero => exact List.Pairwise.nil
  | succ total ih =>
    cases source with
    | nil =>
      cases applied with
      | nil => exact List.Pairwise.nil
      | cons a applied =>
        simp only [List.length_cons, List.length_nil] at enough
        exact step (missingEntry a) total [] applied (by simp; omega) files ledger.tail (by simp)
          (fun v member => ledger.head_lt member) (ih (by simp; omega) files ledger.tail)
    | cons s source =>
      cases applied with
      | nil =>
        simp only [List.length_cons, List.length_nil] at enough
        exact step (unappliedEntry allowLate latest s) total source [] (by simp; omega) files.tail ledger
          (fun v member => files.head_lt member) (by simp) (ih (by simp; omega) files.tail ledger)
      | cons a applied =>
        simp only [List.length_cons] at enough
        rw [mergeJoin]
        by_cases below : s.version < a.version
        · rw [if_pos below]
          apply step (unappliedEntry allowLate latest s) total source (a :: applied) (by simp; omega) files.tail ledger
            (fun v member => files.head_lt member) _ (ih (by simp; omega) files.tail ledger)
          intro v member
          rcases List.mem_cons.mp member with rfl | later
          · exact below
          · exact Int.lt_trans below (ledger.head_lt later)
        · rw [if_neg below]
          by_cases above : a.version < s.version
          · rw [if_pos above]
            apply step (missingEntry a) total (s :: source) applied (by simp; omega) files ledger.tail _
              (fun v member => ledger.head_lt member) (ih (by simp; omega) files ledger.tail)
            intro v member
            rcases List.mem_cons.mp member with rfl | later
            · exact above
            · exact Int.lt_trans above (files.head_lt later)
          · rw [if_neg above]
            have same : a.version = s.version := by omega
            apply step (appliedEntry s a) total source applied (by omega) files.tail ledger.tail
              (fun v member => files.head_lt member) _ (ih (by omega) files.tail ledger.tail)
            intro v member
            have later : a.version < v := ledger.head_lt member
            show s.version < v
            omega

end MergeJoin

/-! ## What is applied, and what is refused -/

instance : Std.Irrefl fun a b : Migration => a.version < b.version := ⟨fun a => Int.lt_irrefl a.version⟩

instance : Std.Antisymm fun a b : Migration => a.version < b.version :=
  ⟨fun a _ below above => absurd (Int.lt_trans below above) (Int.lt_irrefl a.version)⟩

section Build

variable {source : List Migration} {applied : List Applied} {allowLate : Bool} {plan : Plan}

theorem toApply_unappliedEntry {s m : Migration} {latest : Int} :
    (unappliedEntry allowLate latest s).toApply = some m ↔ m = s ∧ ¬ (s.version < latest ∧ allowLate = false) := by
  unfold Entry.toApply unappliedEntry
  by_cases late : s.version < latest ∧ allowLate = false
  · simp [late]
  · cases allowLate <;> simp_all [eq_comm]

theorem toApply_missingEntry (a : Applied) : (missingEntry a).toApply = none := rfl

theorem toApply_appliedEntry (s : Migration) (a : Applied) : (appliedEntry s a).toApply = none := by
  unfold Entry.toApply appliedEntry
  by_cases same : s.checksum = a.checksum <;> simp [same]

theorem version_of_toApply {e : Entry} {m : Migration} {total : Nat} {latest : Int}
    (enough : source.length + applied.length ≤ total) (files : Ascending (source.map (·.version)))
    (ledger : Ascending (applied.map (·.version))) (member : e ∈ mergeJoin allowLate latest total source applied)
    (applies : e.toApply = some m) : m.version = e.version := by
  rcases (mem_mergeJoin enough files ledger).mp member with ⟨s, _, _, rfl⟩ | ⟨a, _, _, rfl⟩ | ⟨s, _, a, _, _, rfl⟩
  · rw [(toApply_unappliedEntry.mp applies).1]
    rfl
  · rw [toApply_missingEntry] at applies
    cases applies
  · rw [toApply_appliedEntry] at applies
    cases applies

theorem planBuild_ok (built : planBuild source applied allowLate = .ok plan) :
    Ascending (source.map (·.version)) ∧ Ascending (applied.map (·.version)) ∧
      plan.entries = mergeJoin allowLate (latestApplied applied) (source.length + applied.length) source applied ∧
      plan.problemCount = plan.entries.countP (stateIsProblem ·.state) := by
  unfold planBuild at built
  by_cases files : (source.map (·.version)).IsChain (· < ·)
  · rw [if_neg (not_not_intro files)] at built
    by_cases ledger : (applied.map (·.version)).IsChain (· < ·)
    · rw [if_neg (not_not_intro ledger), addEntry_foldl] at built
      cases built
      exact ⟨ascending_iff.mp files, ascending_iff.mp ledger, rfl, by simp⟩
    · rw [if_pos ledger] at built
      cases built
  · rw [if_pos files] at built
    cases built

theorem toApply_entries (built : planBuild source applied allowLate = .ok plan) :
    plan.entries.filterMap Entry.toApply = source.filter (Pending allowLate applied ·) := by
  rcases planBuild_ok built with ⟨files, ledger, entries, _⟩
  have sorted : (plan.entries.filterMap Entry.toApply).Pairwise fun a b => a.version < b.version := by
    rw [List.pairwise_filterMap]
    have ascending := @ascending_mergeJoin allowLate (latestApplied applied) _ source applied (Nat.le_refl _) files ledger
    rw [Ascending, List.pairwise_map] at ascending
    rw [entries]
    apply ascending.imp_of_mem
    intro e later member memberLater below m applies n appliesLater
    rw [version_of_toApply (Nat.le_refl _) files ledger member applies,
      version_of_toApply (Nat.le_refl _) files ledger memberLater appliesLater]
    exact below
  have sortedFiles : (source.filter (Pending allowLate applied ·)).Pairwise fun a b => a.version < b.version :=
    (List.pairwise_map.mp files).filter _
  apply sorted.eq_of_mem_iff sortedFiles
  intro m
  rw [List.mem_filterMap, List.mem_filter, entries]
  constructor
  · rintro ⟨e, member, applies⟩
    rcases (mem_mergeJoin (Nat.le_refl _) files ledger).mp member with
      ⟨s, file, fresh, rfl⟩ | ⟨a, _, _, rfl⟩ | ⟨s, _, a, _, _, rfl⟩
    · rcases toApply_unappliedEntry.mp applies with ⟨rfl, free⟩
      exact ⟨file, decide_eq_true ⟨fresh, free⟩⟩
    · rw [toApply_missingEntry] at applies
      cases applies
    · rw [toApply_appliedEntry] at applies
      cases applies
  · rintro ⟨file, pending⟩
    rcases of_decide_eq_true pending with ⟨fresh, free⟩
    exact ⟨_, (mem_mergeJoin (Nat.le_refl _) files ledger).mpr (.inl ⟨m, file, fresh, rfl⟩),
      toApply_unappliedEntry.mpr ⟨rfl, free⟩⟩

/-- The plan has no problem. -/
def Clean (source : List Migration) (applied : List Applied) (allowLate : Bool) : Prop :=
  (∀ s ∈ source, Unapplied applied s → Pending allowLate applied s) ∧
    (∀ a ∈ applied, a.version ∈ source.map (·.version)) ∧
    ∀ s ∈ source, ∀ a ∈ applied, s.version = a.version → s.checksum = a.checksum

theorem problemCount_eq_zero (built : planBuild source applied allowLate = .ok plan) :
    plan.problemCount = 0 ↔ Clean source applied allowLate := by
  rcases planBuild_ok built with ⟨files, ledger, entries, count⟩
  rw [count, List.countP_eq_zero, entries]
  have members := fun e => @mem_mergeJoin allowLate (latestApplied applied) _ source applied (Nat.le_refl _) files ledger e
  constructor
  · intro fine
    refine ⟨?_, ?_, ?_⟩
    · intro s file fresh
      refine ⟨fresh, ?_⟩
      intro held
      apply fine _ ((members _).mpr (.inl ⟨s, file, fresh, rfl⟩))
      simp [unappliedEntry, held, stateIsProblem]
    · intro a row
      by_contra gone
      apply fine _ ((members _).mpr (.inr (.inl ⟨a, row, gone, rfl⟩)))
      rfl
    · intro s file a row same
      by_contra changed
      apply fine _ ((members _).mpr (.inr (.inr ⟨s, file, a, row, same, rfl⟩)))
      simp [appliedEntry, changed, stateIsProblem]
  · rintro ⟨free, filed, unchanged⟩ e member
    rcases (members e).mp member with ⟨s, file, fresh, rfl⟩ | ⟨a, row, gone, rfl⟩ | ⟨s, file, a, row, same, rfl⟩
    · have applies := toApply_unappliedEntry.mpr ⟨rfl, (free s file fresh).2⟩
      unfold Entry.toApply at applies
      by_cases pending : (unappliedEntry allowLate (latestApplied applied) s).state = .pending
      · rw [pending]
        decide
      · rw [if_neg pending] at applies
        cases applies
    · exact absurd (filed a row) gone
    · simp [appliedEntry, unchanged s file a row same, stateIsProblem]

end Build

end BlueBird.Ledger
