import BlueBird.Ledger.Atomicity
import Mathlib.Logic.Function.Basic

/-! Any number of runs of `bb_migrate_up` on one database; each read of the ledger and each transaction is
    one step, since `BEGIN IMMEDIATE` holds the write lock until the transaction ends. -/

namespace BlueBird.Ledger

/-- Where a run is. Once it has its plan it keeps, for the record, the ledger the plan was built from and
    what it has committed since. -/
inductive Phase where
  | starting
  | ensured
  | planned (snapshot : List Applied) (own : List Migration) (entries : List Entry)
  | finished

/-- A committed migration, with the ledger before its transaction and what its run knew. -/
structure Commit (ι : Type) where
  run : ι
  migration : Migration
  before : List Applied
  snapshot : List Applied
  own : List Migration

/-- The database and, for every run, its phase and what its connection keeps. -/
structure System (ι δ : Type) where
  database : Database δ
  phase : ι → Phase
  calls : ι → Nat
  lastError : ι → String
  commits : List (Commit ι)

variable {ι δ : Type} [DecidableEq ι]

/-- What the runs are given: a connection, the files and the option. -/
structure Deployment (ι δ : Type) where
  sqlite : ι → Sqlite δ
  source : ι → List Migration
  allowOutOfOrder : ι → Bool

variable (jobs : Deployment ι δ)

def System.start (db : Database δ) : System ι δ where
  database := db
  phase _ := .starting
  calls _ := 0
  lastError _ := ""
  commits := []

namespace System

def driver (s : System ι δ) (i : ι) : Driver δ :=
  { committed := s.database, calls := s.calls i, lastError := s.lastError i }

/-- The run goes on in `phase`, with what its connection has left. -/
def after (s : System ι δ) (i : ι) (d : Driver δ) (phase : Phase) : System ι δ :=
  { s with
    database := d.committed
    phase := Function.update s.phase i phase
    calls := Function.update s.calls i d.calls
    lastError := Function.update s.lastError i d.lastError }

/-- The next step of run `i`: the statements of `migrateUp` up to the end of the next transaction. -/
def step (s : System ι δ) (i : ι) : System ι δ :=
  match s.phase i with
  | .starting =>
    match (s.driver i).ensureLedger (jobs.sqlite i) with
    | (false, d) => s.after i d .finished
    | (true, d) => s.after i d .ensured
  | .ensured =>
    match planFor (jobs.sqlite i) (s.driver i) (jobs.source i) (jobs.allowOutOfOrder i) with
    | (.error _, d) => s.after i d .finished
    | (.ok plan, d) =>
      if plan.problemCount > 0 then s.after i d .finished
      else s.after i d (.planned s.database.rows [] plan.entries)
  | .planned _ _ [] => s.after i (s.driver i) .finished
  | .planned snapshot own (e :: entries) =>
    match e.toApply with
    | none => s.after i (s.driver i) (.planned snapshot own entries)
    | some m =>
      match applyOne (jobs.sqlite i) (s.driver i) m with
      | (some _, d) => s.after i d .finished
      | (none, d) =>
        { s.after i d (.planned snapshot (own ++ [m]) entries) with
          commits := s.commits ++ [⟨i, m, s.database.rows, snapshot, own⟩] }
  | .finished => s

def run (s : System ι δ) (schedule : List ι) : System ι δ := schedule.foldl (step jobs) s

theorem run_induction {motive : System ι δ → Prop} {s : System ι δ} (init : motive s)
    (preserved : ∀ t i, motive t → motive (t.step jobs i)) (schedule : List ι) : motive (s.run jobs schedule) := by
  induction schedule generalizing s with
  | nil => exact init
  | cons i schedule ih => exact ih (preserved s i init)

/-! ## A run alone -/

theorem run_cons (s : System ι δ) (i : ι) (schedule : List ι) : s.run jobs (i :: schedule) = (s.step jobs i).run jobs schedule :=
  rfl

theorem driver_after {s : System ι δ} {i : ι} {d : Driver δ} (idle : d.transaction = none) (phase : Phase) :
    (s.after i d phase).driver i = d := by
  cases d
  simp only at idle
  simp [driver, after, idle]

theorem alone_entries (i : ι) (entries : List Entry) (s : System ι δ) (r : Outcome δ) {snapshot own}
    (at_ : s.phase i = .planned snapshot own entries) (same : s.driver i = r.driver) :
    ∃ n, (s.run jobs (List.replicate n i)).database = (applyEntries (jobs.sqlite i) entries r).driver.committed := by
  induction entries generalizing s r own with
  | nil => exact ⟨0, congrArg Driver.committed same⟩
  | cons e entries ih =>
    rw [applyEntries]
    cases pending : e.toApply with
    | none =>
      have stepped : s.step jobs i = s.after i (s.driver i) (.planned snapshot own entries) := by
        simp only [step, at_, pending]
      rcases ih (s.after i (s.driver i) (.planned snapshot own entries)) r (Function.update_self ..)
        ((driver_after rfl _).trans same) with ⟨n, rest⟩
      refine ⟨n + 1, ?_⟩
      rw [List.replicate_succ, run_cons, stepped]
      exact rest
    | some m =>
      have idle : r.driver.transaction = none := by
        rw [← same]
        rfl
      dsimp only
      rcases @applyOne_spec δ (jobs.sqlite i) r.driver idle m with ⟨d, applied, rested, _⟩ | ⟨error, d, applied, _, _⟩
      · have stepped : s.step jobs i = { s.after i d (.planned snapshot (own ++ [m]) entries) with
            commits := s.commits ++ [⟨i, m, s.database.rows, snapshot, own⟩] } := by
          simp only [step, at_, pending, same, applied]
        rw [applied]
        rcases ih { s.after i d (.planned snapshot (own ++ [m]) entries) with
            commits := s.commits ++ [⟨i, m, s.database.rows, snapshot, own⟩] }
          { r with driver := d, applied := r.applied + 1, reported := r.reported ++ [m] } (Function.update_self ..)
          (driver_after rested (.planned snapshot (own ++ [m]) entries)) with ⟨n, rest⟩
        refine ⟨n + 1, ?_⟩
        rw [List.replicate_succ, run_cons, stepped]
        exact rest
      · have stepped : s.step jobs i = s.after i d .finished := by
          simp only [step, at_, pending, same, applied]
        rw [applied]
        refine ⟨1, ?_⟩
        rw [List.replicate_one, run_cons, stepped]
        rfl

theorem step_starting {s : System ι δ} {i : ι} {ok : Bool} {d : Driver δ} (at_ : s.phase i = .starting)
    (ensured : (s.driver i).ensureLedger (jobs.sqlite i) = (ok, d)) :
    s.step jobs i = s.after i d (if ok then .ensured else .finished) := by
  cases ok <;> simp only [step, at_, ensured] <;> rfl

theorem step_unplanned {s : System ι δ} {i : ι} {error : String} {d : Driver δ} (at_ : s.phase i = .ensured)
    (failed : planFor (jobs.sqlite i) (s.driver i) (jobs.source i) (jobs.allowOutOfOrder i) = (.error error, d)) :
    s.step jobs i = s.after i d .finished := by
  simp only [step, at_, failed]

theorem step_planned {s : System ι δ} {i : ι} {plan : Plan} {d : Driver δ} (at_ : s.phase i = .ensured)
    (planned : planFor (jobs.sqlite i) (s.driver i) (jobs.source i) (jobs.allowOutOfOrder i) = (.ok plan, d)) :
    s.step jobs i = s.after i d
      (if plan.problemCount > 0 then .finished else .planned s.database.rows [] plan.entries) := by
  simp only [step, at_, planned]
  by_cases problems : plan.problemCount > 0
  · rw [if_pos problems, if_pos problems]
  · rw [if_neg problems, if_neg problems]

theorem ensureLedger_idle {sqlite : Sqlite δ} {d d' : Driver δ} {ok : Bool} (idle : d.transaction = none)
    (ensured : d.ensureLedger sqlite = (ok, d')) : d'.transaction = none := by
  unfold Driver.ensureLedger Driver.store at ensured
  rw [idle] at ensured
  by_cases failing : sqlite.fails d.calls = true
  · rw [if_pos failing] at ensured
    cases ensured
    exact failed_idle idle
  · rw [if_neg failing] at ensured
    cases ensured
    rfl

theorem planFor_idle {sqlite : Sqlite δ} {d d' : Driver δ} {source : List Migration} {allowLate : Bool}
    {plan : Except String Plan} (idle : d.transaction = none) (planned : planFor sqlite d source allowLate = (plan, d')) :
    d'.transaction = none := by
  unfold planFor Driver.loadApplied at planned
  by_cases failing : sqlite.fails d.calls = true
  · rw [if_pos failing] at planned
    cases planned
    exact failed_idle idle
  · rw [if_neg failing] at planned
    cases planned
    exact idle

/-- A run that is left alone does to the database what `migrateUp` does. -/
theorem run_alone (db : Database δ) (i : ι) :
    ∃ n, ((start db).run jobs (List.replicate n i)).database =
      (migrateUp (jobs.sqlite i) { committed := db } (jobs.source i) (jobs.allowOutOfOrder i)).driver.committed := by
  unfold migrateUp
  cases ensured : Driver.ensureLedger (jobs.sqlite i) { committed := db } with
  | mk ok d =>
    have first := step_starting jobs (s := start db) rfl ensured
    cases ok with
    | false => exact ⟨1, congrArg database first⟩
    | true =>
      have driver := driver_after (s := start db) (i := i) (ensureLedger_idle rfl ensured) .ensured
      have at_ : ((start db).after i d .ensured).phase i = .ensured := Function.update_self ..
      dsimp only
      cases planned : planFor (jobs.sqlite i) d (jobs.source i) (jobs.allowOutOfOrder i) with
      | mk plan d' =>
        rw [← driver] at planned
        cases plan with
        | error text =>
          have second := step_unplanned jobs at_ planned
          refine ⟨2, ?_⟩
          rw [List.replicate_succ, run_cons, first, List.replicate_one, run_cons]
          exact congrArg database second
        | ok plan =>
          have second := step_planned jobs at_ planned
          dsimp only
          by_cases problems : plan.problemCount > 0
          · rw [if_pos problems]
            refine ⟨2, ?_⟩
            rw [List.replicate_succ, run_cons, first, List.replicate_one, run_cons]
            exact congrArg database second
          · rw [if_neg problems] at second ⊢
            rcases alone_entries jobs i plan.entries _ { driver := d' } (Function.update_self ..)
              (driver_after (planFor_idle rfl planned) (.planned ((start db).after i d .ensured).database.rows [] plan.entries)) with ⟨n, rest⟩
            refine ⟨n + 2, ?_⟩
            rw [List.replicate_succ, run_cons, first, List.replicate_succ, run_cons]
            exact (congrArg (fun t => (t.run jobs (List.replicate n i)).database) second).trans rest

/-! ## One step -/

/-- Everything that a step can do: the run is elsewhere and the rows are what they were, or it has performed
    and committed the next pending migration of its plan. -/
inductive Stepped (s : System ι δ) (i : ι) : System ι δ → Prop where
  | idle {t} (rows : t.database.rows = s.database.rows) (commits : t.commits = s.commits)
      (others : ∀ j, j ≠ i → t.phase j = s.phase j)
      (own : t.phase i = .ensured ∨ t.phase i = .finished ∨ t.phase i = s.phase i) : Stepped s i t
  | plan {t plan} (rows : t.database.rows = s.database.rows) (commits : t.commits = s.commits)
      (others : ∀ j, j ≠ i → t.phase j = s.phase j)
      (built : planBuild (jobs.source i) s.database.rows (jobs.allowOutOfOrder i) = .ok plan)
      (own : t.phase i = .planned s.database.rows [] plan.entries) : Stepped s i t
  | skip {t snapshot own e entries} (rows : t.database.rows = s.database.rows) (commits : t.commits = s.commits)
      (others : ∀ j, j ≠ i → t.phase j = s.phase j) (at_ : s.phase i = .planned snapshot own (e :: entries))
      (skipped : e.toApply = none) (own' : t.phase i = .planned snapshot own entries) : Stepped s i t
  | commit {t snapshot own e entries m} (at_ : s.phase i = .planned snapshot own (e :: entries))
      (pending : e.toApply = some m)
      (performed : perform (jobs.sqlite i) (m, s.calls i) s.database = some t.database)
      (commits : t.commits = s.commits ++ [⟨i, m, s.database.rows, snapshot, own⟩])
      (others : ∀ j, j ≠ i → t.phase j = s.phase j)
      (own' : t.phase i = .planned snapshot (own ++ [m]) entries) : Stepped s i t

theorem step_cases (s : System ι δ) (i : ι) : Stepped jobs s i (s.step jobs i) := by
  have others : ∀ phase j, j ≠ i → Function.update s.phase i phase j = s.phase j :=
    fun phase j other => Function.update_of_ne other _ _
  have own : ∀ phase, Function.update s.phase i phase i = phase := fun phase => Function.update_self ..
  unfold step
  cases at_ : s.phase i with
  | starting =>
    dsimp only
    unfold Driver.ensureLedger
    by_cases failing : (jobs.sqlite i).fails (s.driver i).calls = true
    · rw [if_pos failing]
      exact .idle rfl rfl (others _) (.inr (.inl (own _)))
    · rw [if_neg failing]
      exact .idle (withLedger_rows _) rfl (others _) (.inl (own _))
  | ensured =>
    dsimp only
    unfold planFor Driver.loadApplied
    by_cases failing : (jobs.sqlite i).fails (s.driver i).calls = true
    · rw [if_pos failing]
      exact .idle rfl rfl (others _) (.inr (.inl (own _)))
    · rw [if_neg failing]
      dsimp only
      cases built : planBuild (jobs.source i) (s.driver i).visible.rows (jobs.allowOutOfOrder i) with
      | error text => exact .idle rfl rfl (others _) (.inr (.inl (own _)))
      | ok plan =>
        dsimp only
        by_cases problems : plan.problemCount > 0
        · rw [if_pos problems]
          exact .idle rfl rfl (others _) (.inr (.inl (own _)))
        · rw [if_neg problems]
          exact .plan rfl rfl (others _) built (own _)
  | planned snapshot done entries =>
    cases entries with
    | nil => exact .idle rfl rfl (others _) (.inr (.inl (own _)))
    | cons e entries =>
      dsimp only
      cases pending : e.toApply with
      | none => exact .skip rfl rfl (others _) at_ pending (own _)
      | some m =>
        dsimp only
        rcases @applyOne_spec δ (jobs.sqlite i) (s.driver i) rfl m with ⟨d, applied, _, effect⟩ | ⟨error, d, applied, _, kept⟩
        · rw [applied]
          exact .commit at_ pending effect rfl (others _) (own _)
        · rw [applied]
          exact .idle (congrArg Database.rows kept) rfl (others _) (.inr (.inl (own _)))
  | finished => exact .idle rfl rfl (fun _ _ => rfl) (.inr (.inr rfl))

/-- What holds of every run with a plan, of its snapshot, its commits and what is left to apply. -/
def EachPlan (P : ι → List Applied → List Migration → List Migration → Prop) (s : System ι δ) : Prop :=
  ∀ i snapshot own entries, s.phase i = .planned snapshot own entries → P i snapshot own (entries.filterMap Entry.toApply)

variable {jobs} {P : ι → List Applied → List Migration → List Migration → Prop} {s t : System ι δ} {i : ι}

theorem EachPlan.step (holds : EachPlan P s)
    (made : ∀ plan, planBuild (jobs.source i) s.database.rows (jobs.allowOutOfOrder i) = .ok plan →
      P i s.database.rows [] (plan.entries.filterMap Entry.toApply))
    (next : ∀ snapshot own m rest, P i snapshot own (m :: rest) → P i snapshot (own ++ [m]) rest)
    (stepped : Stepped jobs s i t) : EachPlan P t := by
  have elsewhere : (∀ j, j ≠ i → t.phase j = s.phase j) →
      (∀ snapshot own entries, t.phase i = .planned snapshot own entries →
        P i snapshot own (entries.filterMap Entry.toApply)) → EachPlan P t := by
    intro others mine j snapshot own entries at_
    by_cases same : j = i
    · subst same
      exact mine snapshot own entries at_
    · rw [others j same] at at_
      exact holds j snapshot own entries at_
  cases stepped with
  | idle rows commits others own =>
    apply elsewhere others
    intro snapshot done entries at_
    rcases own with ensured | finished | kept
    · rw [ensured] at at_
      cases at_
    · rw [finished] at at_
      cases at_
    · rw [kept] at at_
      exact holds i snapshot done entries at_
  | plan rows commits others built own =>
    apply elsewhere others
    intro snapshot done entries at_
    rw [own] at at_
    cases at_
    exact made _ built
  | skip rows commits others at_ skipped own =>
    apply elsewhere others
    intro snapshot done entries now
    rw [own] at now
    cases now
    have before := holds i _ _ _ at_
    rw [List.filterMap_cons_none skipped] at before
    exact before
  | commit at_ pending performed commits others own =>
    apply elsewhere others
    intro snapshot done entries now
    rw [own] at now
    cases now
    have before := holds i _ _ _ at_
    rw [List.filterMap_cons_some pending] at before
    exact next _ _ _ _ before

omit [DecidableEq ι] in
theorem eachPlan_start (db : Database δ) : EachPlan P (start db : System ι δ) := by
  intro i snapshot own entries at_
  cases at_

/-! ## Each version once -/

/-- The ledger is the first one and a row for every commit; what is left to apply is in the run's files. -/
structure Recorded (jobs : Deployment ι δ) (old : List Applied) (s : System ι δ) : Prop where
  rows : (s.database.rows.map (·.version)).Perm (old.map (·.version) ++ s.commits.map (·.migration.version))
  files : EachPlan (fun i _ _ rest => ∀ m ∈ rest, m ∈ jobs.source i) s

theorem Recorded.step (apart : ∀ i, ∀ m ∈ jobs.source i, LeavesLedger (jobs.sqlite i) m) {old : List Applied}
    (recorded : Recorded jobs old s) (stepped : Stepped jobs s i t) : Recorded jobs old t := by
  have files : EachPlan (fun i _ _ rest => ∀ m ∈ rest, m ∈ jobs.source i) t := by
    apply recorded.files.step _ _ stepped
    · intro plan built m member
      rw [toApply_entries built] at member
      exact List.mem_of_mem_filter member
    · intro snapshot own m rest holds n member
      exact holds n (List.mem_cons_of_mem _ member)
  refine ⟨?_, files⟩
  cases stepped with
  | idle rows commits _ _ => rw [rows, commits]; exact recorded.rows
  | plan rows commits _ _ _ => rw [rows, commits]; exact recorded.rows
  | skip rows commits _ _ _ _ => rw [rows, commits]; exact recorded.rows
  | @commit _ _ _ _ m at_ pending performed commits _ _ =>
    have mine := recorded.files i _ _ _ at_
    rw [List.filterMap_cons_some pending] at mine
    rcases perform_rows (apart i m (mine m List.mem_cons_self)) performed with ⟨_, rows⟩
    have versions := rows.map (·.version)
    rw [commits, List.map_append, ← List.append_assoc]
    rw [List.map_append] at versions
    exact versions.trans (recorded.rows.append_right _)

theorem recorded_run (apart : ∀ i, ∀ m ∈ jobs.source i, LeavesLedger (jobs.sqlite i) m) (db : Database δ)
    (schedule : List ι) : Recorded jobs db.rows ((start db).run jobs schedule) := by
  apply run_induction jobs _ _ schedule
  · exact ⟨by simp [start], eachPlan_start db⟩
  · intro t i recorded
    exact recorded.step apart (step_cases jobs t i)

end System

theorem Database.rows_ascending (db : Database δ) : Ascending (db.rows.map (·.version)) := by
  unfold Database.rows
  cases db.ledger with
  | none => exact List.Pairwise.nil
  | some table => exact table.ascending

theorem Ascending.nodup {versions : List Int} (ascending : Ascending versions) : versions.Nodup :=
  ascending.imp fun below => Int.ne_of_lt below

/-- No version is committed twice, by whatever run, nor one that was in the ledger before; and the ledger
    has every version once. -/
def AppliedOnce (old : List Applied) (s : System ι δ) : Prop :=
  (old.map (·.version) ++ s.commits.map (·.migration.version)).Nodup ∧ (s.database.rows.map (·.version)).Nodup

theorem run_appliedOnce (jobs : Deployment ι δ) (apart : ∀ i, ∀ m ∈ jobs.source i, LeavesLedger (jobs.sqlite i) m)
    (db : Database δ) (schedule : List ι) : AppliedOnce db.rows ((System.start db).run jobs schedule) := by
  have recorded := System.recorded_run apart db schedule
  have once := (((System.start db).run jobs schedule).database.rows_ascending).nodup
  exact ⟨recorded.rows.nodup_iff.mp once, once⟩

/-- Two runs over the files of two releases, and two over one file that empties the ledger. -/
def releases : Deployment Bool (List Bytes) where
  sqlite _ := scripts
  source later := if later then [createUsers, addEmail] else [createUsers]
  allowOutOfOrder _ := false

def clearing : Deployment Bool (List Bytes) where
  sqlite _ := scripts
  source _ := [clearLedger]
  allowOutOfOrder _ := false

theorem run_appliedOnce_releases :
    AppliedOnce [] ((System.start ⟨none, []⟩).run releases [false, true, false, true, true, false, true]) := by
  apply run_appliedOnce releases _ ⟨none, []⟩
  intro later m member
  apply leavesLedger_scripts
  cases later
  · rw [List.mem_singleton.mp member]
    decide
  · rcases List.mem_cons.mp member with rfl | member
    · decide
    · rw [List.mem_singleton.mp member]
      decide

theorem not_appliedOnce_clearing :
    ¬ AppliedOnce [] ((System.start ⟨none, []⟩).run clearing [false, false, false, true, true, true]) := by
  intro once
  have commits : (((System.start ⟨none, []⟩).run clearing [false, false, false, true, true, true]).commits.map
      (·.migration.version)) = [1, 1] := by decide
  have nodup := once.1
  rw [commits] at nodup
  revert nodup
  decide

/-! ## Never out of order -/

theorem getLast?_ge {rows : List Applied} (ascending : Ascending (rows.map (·.version))) {a : Applied} (member : a ∈ rows) :
    a.version ≤ latestApplied rows := by
  unfold latestApplied
  rcases List.eq_nil_or_concat rows with rfl | ⟨front, last, rfl⟩
  · cases member
  · rw [List.concat_eq_append] at ascending member ⊢
    rw [List.getLast?_append, List.getLast?_singleton]
    show a.version ≤ last.version
    rcases List.mem_append.mp member with earlier | final
    · rw [List.map_append] at ascending
      have below := (List.pairwise_append.mp ascending).2.2 a.version (List.mem_map.mpr ⟨a, earlier, rfl⟩) last.version
        (List.mem_map.mpr ⟨last, List.mem_singleton_self _, rfl⟩)
      omega
    · rw [List.mem_singleton.mp final]

theorem Pending.above {rows : List Applied} {s : Migration} (pending : Pending false rows s)
    (ascending : Ascending (rows.map (·.version))) {a : Applied} (member : a ∈ rows) : a.version < s.version := by
  have latest := getLast?_ge ascending member
  have free : ¬ s.version < latestApplied rows := fun late => pending.2 ⟨late, rfl⟩
  have other : a.version ≠ s.version := fun same => pending.1 (List.mem_map.mpr ⟨a, member, same⟩)
  omega

/-- The committed version is above everything in the ledger at that moment. -/
def Commit.InOrder (c : Commit ι) : Prop := ∀ row ∈ c.before, row.version < c.migration.version

/-- Whatever the ledger has that the run did not read when it made its plan, and did not write itself, is
    below the version that it applies. -/
def Commit.Timely (c : Commit ι) : Prop :=
  ∀ row ∈ c.before, row.version ∉ c.snapshot.map (·.version) → row.version ∉ c.own.map (·.version) →
    row.version < c.migration.version

/-- The rest of a plan ascends, from above the ledger it was made from and above what it has committed. -/
structure Rising (snapshot : List Applied) (own rest : List Migration) : Prop where
  ascending : Ascending (rest.map (·.version))
  snapshot : ∀ m ∈ rest, ∀ a ∈ snapshot, a.version < m.version
  own : ∀ m ∈ rest, ∀ n ∈ own, n.version < m.version

theorem Rising.next {snapshot : List Applied} {own rest : List Migration} {m : Migration}
    (rising : Rising snapshot own (m :: rest)) : Rising snapshot (own ++ [m]) rest := by
  refine ⟨rising.ascending.tail, fun n member => rising.snapshot n (List.mem_cons_of_mem _ member), ?_⟩
  intro n member o earlier
  rcases List.mem_append.mp earlier with before | last
  · exact rising.own n (List.mem_cons_of_mem _ member) o before
  · rw [List.mem_singleton.mp last]
    exact rising.ascending.head_lt (List.mem_map.mpr ⟨n, member, rfl⟩)

theorem rising_plan {source : List Migration} {rows : List Applied} {plan : Plan}
    (built : planBuild source rows false = .ok plan) : Rising rows [] (plan.entries.filterMap Entry.toApply) := by
  rcases planBuild_ok built with ⟨files, ledger, _, _⟩
  rw [toApply_entries built]
  refine ⟨?_, ?_, fun _ _ n none => by cases none⟩
  · exact List.Pairwise.sublist (List.filter_sublist.map _) files
  · intro m member a row
    exact (of_decide_eq_true (List.mem_filter.mp member).2).above ledger row

omit [DecidableEq ι] in
theorem Commit.inOrder_iff_timely {c : Commit ι} {rest : List Migration} (rising : Rising c.snapshot c.own (c.migration :: rest)) :
    c.InOrder ↔ c.Timely := by
  constructor
  · intro inOrder row member _ _
    exact inOrder row member
  · intro timely row member
    by_cases read : row.version ∈ c.snapshot.map (·.version)
    · rcases List.mem_map.mp read with ⟨a, known, same⟩
      rw [← same]
      exact rising.snapshot _ List.mem_cons_self a known
    · by_cases written : row.version ∈ c.own.map (·.version)
      · rcases List.mem_map.mp written with ⟨n, mine, same⟩
        rw [← same]
        exact rising.own _ List.mem_cons_self n mine
      · exact timely row member read written

namespace System

variable {jobs : Deployment ι δ} {s t : System ι δ} {i : ι}

structure Guarded (s : System ι δ) : Prop where
  plans : EachPlan (fun _ snapshot own rest => Rising snapshot own rest) s
  commits : ∀ c ∈ s.commits, c.InOrder ↔ c.Timely

theorem Guarded.step (strict : ∀ i, jobs.allowOutOfOrder i = false) (guarded : Guarded s) (stepped : Stepped jobs s i t) :
    Guarded t := by
  have plans : EachPlan (fun _ snapshot own rest => Rising snapshot own rest) t := by
    apply guarded.plans.step _ _ stepped
    · intro plan built
      rw [strict i] at built
      exact rising_plan built
    · intro snapshot own m rest rising
      exact rising.next
  refine ⟨plans, ?_⟩
  cases stepped with
  | idle _ commits _ _ => rw [commits]; exact guarded.commits
  | plan _ commits _ _ _ => rw [commits]; exact guarded.commits
  | skip _ commits _ _ _ _ => rw [commits]; exact guarded.commits
  | commit at_ pending performed commits _ _ =>
    rw [commits]
    intro c member
    rcases List.mem_append.mp member with earlier | last
    · exact guarded.commits c earlier
    · rw [List.mem_singleton.mp last]
      have rising := guarded.plans i _ _ _ at_
      rw [List.filterMap_cons_some pending] at rising
      exact Commit.inOrder_iff_timely rising

end System

/-- In a run all commits are in order exactly when no run is overtaken between its plan and a commit. -/
theorem run_inOrder_iff (jobs : Deployment ι δ) (strict : ∀ i, jobs.allowOutOfOrder i = false) (db : Database δ)
    (schedule : List ι) :
    (∀ c ∈ ((System.start db).run jobs schedule).commits, c.InOrder) ↔
      ∀ c ∈ ((System.start db).run jobs schedule).commits, c.Timely := by
  have guarded : ((System.start db).run jobs schedule).Guarded := by
    apply System.run_induction jobs _ _ schedule
    · exact ⟨System.eachPlan_start db, fun c member => by cases member⟩
    · intro t i guarded
      exact guarded.step strict (System.step_cases jobs t i)
  exact forall₂_congr guarded.commits

def branches : Deployment Bool (List Bytes) where
  sqlite _ := scripts
  source later := if later then [addEmail] else [createUsers]
  allowOutOfOrder _ := false

theorem run_inOrder_releases :
    (∀ c ∈ ((System.start ⟨none, []⟩).run releases [false, false, false, true, true, true, true]).commits, c.InOrder) ↔
      ∀ c ∈ ((System.start ⟨none, []⟩).run releases [false, false, false, true, true, true, true]).commits, c.Timely :=
  run_inOrder_iff releases (fun _ => rfl) ⟨none, []⟩ _

/-- Both have their plans before the second commits version 2; then the first commits version 1. -/
theorem not_inOrder_branches :
    ¬ ∀ c ∈ ((System.start ⟨none, []⟩).run branches [false, true, false, true, true, false]).commits, c.InOrder := by
  intro inOrder
  have last : (((System.start ⟨none, []⟩).run branches [false, true, false, true, true, false]).commits.map
      fun c => (c.migration.version, c.before.map (·.version))) = [(2, []), (1, [2])] := by decide
  have member : ((1, [2]) : Int × List Int) ∈ ((System.start ⟨none, []⟩).run branches
      [false, true, false, true, true, false]).commits.map fun c => (c.migration.version, c.before.map (·.version)) := by
    rw [last]
    decide
  rcases List.mem_map.mp member with ⟨c, committed, same⟩
  rcases Prod.ext_iff.mp same with ⟨version, rows⟩
  have two : (2 : Int) ∈ c.before.map (·.version) := by
    rw [show c.before.map (·.version) = [2] from rows]
    decide
  rcases List.mem_map.mp two with ⟨row, before, isTwo⟩
  have below := inOrder c committed row before
  rw [isTwo, show c.migration.version = 1 from version] at below
  revert below
  decide

end BlueBird.Ledger
