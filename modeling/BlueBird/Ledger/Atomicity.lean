import BlueBird.Ledger.Runner

namespace BlueBird.Ledger

variable {δ : Type} {sqlite : Sqlite δ}

/-! ## One migration -/

/-- What a migration does to the database whose transaction begins with call `n`: its row, then its SQL. -/
def perform (sqlite : Sqlite δ) (step : Migration × Nat) (db : Database δ) : Option (Database δ) :=
  (db.insert step.1 (sqlite.clock (step.2 + 1))).bind (sqlite.exec (step.2 + 2) step.1.sql)

theorem applyOne_spec {d : Driver δ} (idle : d.transaction = none) (m : Migration) :
    (∃ d', applyOne sqlite d m = (none, d') ∧ d'.transaction = none ∧
      perform sqlite (m, d.calls) d.committed = some d'.committed) ∨
    ∃ error d', applyOne sqlite d m = (some error, d') ∧ d'.transaction = none ∧ d'.committed = d.committed := by
  unfold applyOne
  by_cases refused : sqlite.fails d.calls ∨ d.transaction.isSome
  · rw [Driver.begin_, if_pos refused]
    exact .inr ⟨_, _, rfl, by simp [Driver.failed, idle], rfl⟩
  rw [Driver.begin_, if_neg refused]
  dsimp only
  cases failing : sqlite.fails (d.calls + 1) with
  | true =>
    simp only [Driver.record, failing]
    exact .inr ⟨_, _, rfl, rfl, rfl⟩
  | false =>
    cases inserted : d.committed.insert m (sqlite.clock (d.calls + 1)) with
    | none =>
      simp only [Driver.record, failing, Driver.visible, Option.getD_some, inserted]
      exact .inr ⟨_, _, rfl, rfl, rfl⟩
    | some recorded =>
      simp only [Driver.record, failing, Driver.visible, Option.getD_some, inserted, Driver.store, Option.isSome_some,
        if_true, Driver.exec]
      cases failing : sqlite.fails (d.calls + 1 + 1) with
      | true => exact .inr ⟨_, _, rfl, rfl, rfl⟩
      | false =>
        cases done : sqlite.exec (d.calls + 1 + 1) m.sql recorded with
        | none => exact .inr ⟨_, _, rfl, rfl, rfl⟩
        | some db =>
          dsimp only [Driver.commit]
          cases failing : sqlite.fails (d.calls + 1 + 1 + 1) with
          | true => exact .inr ⟨_, _, rfl, rfl, rfl⟩
          | false =>
            left
            refine ⟨_, rfl, rfl, ?_⟩
            simp only [perform, inserted, Option.bind_some]
            exact done

/-! ## The loop -/

def performAll (sqlite : Sqlite δ) : List (Migration × Nat) → Database δ → Option (Database δ)
  | [], db => some db
  | step :: steps, db => (perform sqlite step db).bind (performAll sqlite steps)

/-- The loop performs some of the pending migrations from the first one on, and all of them unless it
    reports an error; the rest leaves no trace. -/
theorem applyEntries_spec (entries : List Entry) (r : Outcome δ) (idle : r.driver.transaction = none) :
    ∃ steps, steps.map (·.1) <+: entries.filterMap Entry.toApply ∧
      performAll sqlite steps r.driver.committed = some (applyEntries sqlite entries r).driver.committed ∧
      (applyEntries sqlite entries r).driver.transaction = none ∧
      (applyEntries sqlite entries r).applied = r.applied + steps.length ∧
      (applyEntries sqlite entries r).reported = r.reported ++ steps.map (·.1) ∧
      ((applyEntries sqlite entries r).error = none → steps.map (·.1) = entries.filterMap Entry.toApply) := by
  induction entries generalizing r with
  | nil => exact ⟨[], List.prefix_refl _, rfl, idle, rfl, (List.append_nil _).symm, fun _ => rfl⟩
  | cons e entries ih =>
    cases pending : e.toApply with
    | none =>
      rw [applyEntries, List.filterMap_cons_none pending]
      simp only [pending]
      exact ih r idle
    | some m =>
      rw [applyEntries, List.filterMap_cons_some pending]
      simp only [pending]
      rcases @applyOne_spec δ sqlite r.driver idle m with ⟨d', applied, rested, done⟩ | ⟨error, d', applied, rested, kept⟩
      · rw [applied]
        rcases ih { r with driver := d', applied := r.applied + 1, reported := r.reported ++ [m] } rested with
          ⟨steps, inOrder, effects, closed, count, calls, all⟩
        refine ⟨(m, r.driver.calls) :: steps, ?_, ?_, closed, ?_, ?_, ?_⟩
        · exact (List.prefix_cons_inj m).mpr inOrder
        · rw [performAll, done]
          exact effects
        · show _ = r.applied + (steps.length + 1)
          rw [count, Nat.add_assoc, Nat.add_comm 1]
        · rw [calls, List.map_cons, List.append_assoc]
          rfl
        · intro fine
          rw [List.map_cons, all fine]
      · rw [applied]
        refine ⟨[], List.nil_prefix, ?_, rested, rfl, (List.append_nil _).symm, ?_⟩
        · exact congrArg some kept.symm
        · intro fine
          cases fine

/-! ## The ledger -/

/-- The SQL of the migration does not write to the ledger table. -/
def LeavesLedger (sqlite : Sqlite δ) (m : Migration) : Prop :=
  ∀ call db db', sqlite.exec call m.sql db = some db' → db'.ledger = db.ledger

def stepRow (sqlite : Sqlite δ) (step : Migration × Nat) : Applied := rowOf step.1 (sqlite.clock (step.2 + 1))

theorem insert_spec {db db' : Database δ} {m : Migration} {now : Int} (inserted : db.insert m now = some db') :
    m.version ∉ db.rows.map (·.version) ∧ db'.rows.Perm (db.rows ++ [rowOf m now]) ∧ db'.rest = db.rest := by
  unfold Database.insert at inserted
  cases table : db.ledger with
  | none =>
    rw [table] at inserted
    cases inserted
  | some t =>
    rw [table] at inserted
    dsimp only at inserted
    by_cases fresh : m.version ∉ t.rows.map (·.version)
    · rw [dif_pos fresh] at inserted
      cases inserted
      have rows : db.rows = t.rows := by simp [Database.rows, table]
      refine ⟨rows ▸ fresh, ?_, rfl⟩
      show (insertRow (rowOf m now) t.rows).Perm _
      rw [rows]
      exact (insertRow_perm _ _).trans (List.perm_append_singleton _ _).symm
    · rw [dif_neg fresh] at inserted
      cases inserted

theorem perform_rows {step : Migration × Nat} {db db' : Database δ} (apart : LeavesLedger sqlite step.1)
    (done : perform sqlite step db = some db') :
    step.1.version ∉ db.rows.map (·.version) ∧ db'.rows.Perm (db.rows ++ [stepRow sqlite step]) := by
  rcases Option.bind_eq_some_iff.mp done with ⟨recorded, inserted, executed⟩
  rcases insert_spec inserted with ⟨fresh, rows, _⟩
  refine ⟨fresh, ?_⟩
  rw [Database.rows, apart _ _ _ executed]
  exact rows

theorem performAll_rows {steps : List (Migration × Nat)} {db db' : Database δ}
    (apart : ∀ step ∈ steps, LeavesLedger sqlite step.1) (done : performAll sqlite steps db = some db') :
    db'.rows.Perm (db.rows ++ steps.map (stepRow sqlite)) := by
  induction steps generalizing db with
  | nil =>
    cases done
    simp
  | cons step steps ih =>
    rcases Option.bind_eq_some_iff.mp done with ⟨next, first, rest⟩
    rcases perform_rows (apart step List.mem_cons_self) first with ⟨_, rows⟩
    have tail := ih (fun s member => apart s (List.mem_cons_of_mem _ member)) rest
    rw [List.map_cons]
    apply tail.trans
    have joined := rows.append_right (steps.map (stepRow sqlite))
    rw [List.append_assoc, List.singleton_append] at joined
    exact joined

/-! ## The whole run -/

theorem withLedger_rows (db : Database δ) : db.withLedger.rows = db.rows := by
  cases ledger : db.ledger <;> simp [Database.withLedger, Database.rows, ledger, LedgerTable.empty]

/-- Nothing is applied, and at most the empty ledger is new. -/
structure Untouched (d : Driver δ) (r : Outcome δ) : Prop where
  idle : r.driver.transaction = none
  applied : r.applied = 0
  reported : r.reported = []
  database : r.driver.committed = d.committed ∨ r.driver.committed = d.committed.withLedger

/-- `steps` were performed, each with its row, and nothing else. -/
structure Performed (sqlite : Sqlite δ) (steps : List (Migration × Nat)) (d : Driver δ) (r : Outcome δ) : Prop where
  idle : r.driver.transaction = none
  applied : r.applied = steps.length
  reported : r.reported = steps.map (·.1)
  database : performAll sqlite steps d.committed.withLedger = some r.driver.committed

theorem failed_idle {d : Driver δ} (idle : d.transaction = none) : (d.failed sqlite).transaction = none := by
  rw [Driver.failed, idle]
  rfl

/-- A run ends before it applies anything, or its plan is clean and some of the pending migrations from
    the first one on are performed, all of them unless it reports an error. -/
theorem migrateUp_spec {d : Driver δ} (idle : d.transaction = none) (source : List Migration) (allowLate : Bool) :
    (Untouched d (migrateUp sqlite d source allowLate) ∧ (migrateUp sqlite d source allowLate).error ≠ none) ∨
    (Ascending (source.map (·.version)) ∧ Ascending (d.committed.rows.map (·.version)) ∧
      Clean source d.committed.rows allowLate ∧
      ∃ steps, steps.map (·.1) <+: source.filter (Pending allowLate d.committed.rows ·) ∧
        Performed sqlite steps d (migrateUp sqlite d source allowLate) ∧
        ((migrateUp sqlite d source allowLate).error = none →
          steps.map (·.1) = source.filter (Pending allowLate d.committed.rows ·))) := by
  unfold migrateUp Driver.ensureLedger
  cases failing : sqlite.fails d.calls with
  | true => exact .inl ⟨⟨failed_idle idle, rfl, rfl, .inl rfl⟩, by simp⟩
  | false =>
    simp only [Bool.false_eq_true, if_false, Driver.store, Driver.visible, idle, Option.getD_none, Option.isSome_none,
      planFor, Driver.loadApplied]
    cases failing : sqlite.fails (d.calls + 1) with
    | true => exact .inl ⟨⟨failed_idle rfl, rfl, rfl, .inr rfl⟩, by simp⟩
    | false =>
      simp only [Bool.false_eq_true, if_false, withLedger_rows]
      cases built : planBuild source d.committed.rows allowLate with
      | error text => exact .inl ⟨⟨rfl, rfl, rfl, .inr rfl⟩, by simp⟩
      | ok plan =>
        dsimp only
        by_cases problems : plan.problemCount > 0
        · rw [if_pos problems]
          exact .inl ⟨⟨rfl, rfl, rfl, .inr rfl⟩, by simp⟩
        · rw [if_neg problems]
          right
          rcases planBuild_ok built with ⟨files, ledger, _, _⟩
          refine ⟨files, ledger, (problemCount_eq_zero built).mp (by omega), ?_⟩
          rcases @applyEntries_spec δ sqlite plan.entries
            { driver := ⟨d.committed.withLedger, none, d.calls + 1 + 1, d.lastError⟩ } rfl with
            ⟨steps, inOrder, effects, closed, count, calls, all⟩
          rw [toApply_entries built] at inOrder all
          exact ⟨steps, inOrder, ⟨closed, by rw [count, Nat.zero_add], calls, effects⟩, all⟩

/-- What a run of `bb_migrate_up` promises: the ledger is the old one and a prefix of the plan's pending
    migrations, exactly those took effect, in that order and each once, the count and the calls are theirs,
    a plan with a problem changes nothing, and after a success there is nothing more to do. -/
structure Atomic (sqlite : Sqlite δ) (d : Driver δ) (source : List Migration) (allowLate : Bool) (r : Outcome δ) :
    Prop where
  steps : ∃ steps, steps.map (·.1) <+: source.filter (Pending allowLate d.committed.rows ·) ∧
    r.driver.committed.rows.Perm (d.committed.rows ++ steps.map (stepRow sqlite)) ∧
    (r.driver.committed = d.committed ∧ steps = [] ∨ performAll sqlite steps d.committed.withLedger = some r.driver.committed) ∧
    r.applied = steps.length ∧ r.reported = steps.map (·.1) ∧
    (r.error = none → steps.map (·.1) = source.filter (Pending allowLate d.committed.rows ·))
  closed : r.driver.transaction = none
  refused : ¬ Clean source d.committed.rows allowLate → Untouched d r ∧ r.error ≠ none
  again : r.error = none → ∀ (sqlite' : Sqlite δ) (allowLate' : Bool),
    (migrateUp sqlite' r.driver source allowLate').applied = 0 ∧
      (migrateUp sqlite' r.driver source allowLate').reported = [] ∧
      (migrateUp sqlite' r.driver source allowLate').driver.committed = r.driver.committed

theorem perform_ledger {step : Migration × Nat} {db db' : Database δ} (apart : LeavesLedger sqlite step.1)
    (done : perform sqlite step db = some db') : db'.ledger.isSome := by
  rcases Option.bind_eq_some_iff.mp done with ⟨recorded, inserted, executed⟩
  rw [apart _ _ _ executed]
  unfold Database.insert at inserted
  split at inserted
  · cases inserted
  · split at inserted
    · cases inserted
      rfl
    · cases inserted

theorem performAll_ledger {steps : List (Migration × Nat)} {db db' : Database δ} (table : db.ledger.isSome)
    (apart : ∀ step ∈ steps, LeavesLedger sqlite step.1) (done : performAll sqlite steps db = some db') :
    db'.ledger.isSome := by
  induction steps generalizing db with
  | nil =>
    cases done
    exact table
  | cons step steps ih =>
    rcases Option.bind_eq_some_iff.mp done with ⟨next, first, rest⟩
    exact ih (perform_ledger (apart step List.mem_cons_self) first)
      (fun s member => apart s (List.mem_cons_of_mem _ member)) rest

theorem withLedger_of_table {db : Database δ} (table : db.ledger.isSome) : db.withLedger = db := by
  rcases Option.isSome_iff_exists.mp table with ⟨t, ledger⟩
  cases db
  simp only at ledger
  subst ledger
  rfl

theorem migrateUp_again {d : Driver δ} (idle : d.transaction = none) (table : d.committed.ledger.isSome)
    {source : List Migration} (applied : ∀ s ∈ source, ¬ Unapplied d.committed.rows s) (allowLate : Bool) :
    (migrateUp sqlite d source allowLate).applied = 0 ∧ (migrateUp sqlite d source allowLate).reported = [] ∧
      (migrateUp sqlite d source allowLate).driver.committed = d.committed := by
  have same := withLedger_of_table table
  rcases @migrateUp_spec δ sqlite d idle source allowLate with ⟨untouched, _⟩ | ⟨_, _, _, steps, inOrder, done, _⟩
  · refine ⟨untouched.applied, untouched.reported, ?_⟩
    rcases untouched.database with kept | created
    · exact kept
    · exact created.trans same
  · have none : source.filter (Pending allowLate d.committed.rows ·) = [] := by
      rw [List.filter_eq_nil_iff]
      intro s file pending
      exact applied s file (of_decide_eq_true pending).1
    rw [none, List.prefix_nil, List.map_eq_nil_iff] at inOrder
    subst inOrder
    refine ⟨done.applied, done.reported, ?_⟩
    have database := done.database
    rw [same] at database
    exact (Option.some.inj database).symm

theorem migrateUp_atomic {d : Driver δ} (idle : d.transaction = none) (source : List Migration) (allowLate : Bool)
    (apart : ∀ m ∈ source, LeavesLedger sqlite m) :
    Atomic sqlite d source allowLate (migrateUp sqlite d source allowLate) := by
  rcases @migrateUp_spec δ sqlite d idle source allowLate with
    ⟨untouched, failed⟩ | ⟨_, _, clean, steps, inOrder, done, all⟩
  · refine ⟨⟨[], List.nil_prefix, ?_, ?_, untouched.applied, untouched.reported, fun fine => absurd fine failed⟩,
      untouched.idle, fun _ => ⟨untouched, failed⟩, fun fine => absurd fine failed⟩
    · rcases untouched.database with kept | created
      · rw [kept, List.map_nil, List.append_nil]
      · rw [created, withLedger_rows, List.map_nil, List.append_nil]
    · rcases untouched.database with kept | created
      · exact .inl ⟨kept, rfl⟩
      · exact .inr (congrArg some created.symm)
  · have own : ∀ step ∈ steps, LeavesLedger sqlite step.1 := by
      intro step member
      have file := (List.mem_filter.mp (inOrder.subset (List.mem_map.mpr ⟨step, member, rfl⟩))).1
      exact apart step.1 file
    have rows := performAll_rows own done.database
    rw [withLedger_rows] at rows
    refine ⟨⟨steps, inOrder, rows, .inr done.database, done.applied, done.reported, all⟩, done.idle,
      fun problem => absurd clean problem, ?_⟩
    intro fine sqlite' allowLate'
    apply migrateUp_again done.idle (performAll_ledger rfl own done.database)
    intro s file unapplied
    by_cases before : Unapplied d.committed.rows s
    · have pending : s ∈ source.filter (Pending allowLate d.committed.rows ·) :=
        List.mem_filter.mpr ⟨file, decide_eq_true (clean.1 s file before)⟩
      rw [← all fine] at pending
      rcases List.mem_map.mp pending with ⟨step, member, rfl⟩
      have new : stepRow sqlite step ∈ d.committed.rows ++ steps.map (stepRow sqlite) :=
        List.mem_append_right _ (List.mem_map.mpr ⟨step, member, rfl⟩)
      exact unapplied (List.mem_map.mpr ⟨stepRow sqlite step, rows.mem_iff.mpr new, rfl⟩)
    · rcases List.mem_map.mp (not_not.mp before) with ⟨row, old, version⟩
      exact unapplied (List.mem_map.mpr ⟨row, rows.mem_iff.mpr (List.mem_append_left _ old), version⟩)

/-! ## An example database -/

/-- A connection without failures on which every script runs and writes down that it ran, and
    `DELETE FROM bb_schema_migrations` empties the ledger. -/
def scripts : Sqlite (List Bytes) where
  exec _ sql db :=
    if sql = ascii "DELETE FROM bb_schema_migrations" then some { db with ledger := db.ledger.map fun _ => .empty }
    else some { db with rest := db.rest ++ [sql] }
  fails _ := false
  torn _ := none
  clock call := call
  message _ := ""

def fresh : Driver (List Bytes) := { committed := ⟨none, []⟩ }

def createUsers : Migration := ⟨1, "create_users", "c1", ascii "CREATE TABLE users (id INTEGER)"⟩
def addEmail : Migration := ⟨2, "add_email", "c2", ascii "ALTER TABLE users ADD COLUMN email TEXT"⟩
def clearLedger : Migration := ⟨1, "clear", "c1", ascii "DELETE FROM bb_schema_migrations"⟩

theorem leavesLedger_scripts {m : Migration} (other : m.sql ≠ ascii "DELETE FROM bb_schema_migrations") :
    LeavesLedger scripts m := by
  intro call db db' done
  simp only [scripts, if_neg other, Option.some.injEq] at done
  rw [← done]

theorem migrateUp_atomic_users :
    Atomic scripts fresh [createUsers, addEmail] false (migrateUp scripts fresh [createUsers, addEmail] false) := by
  apply migrateUp_atomic rfl
  intro m member
  apply leavesLedger_scripts
  rcases List.mem_cons.mp member with rfl | member
  · decide
  · rw [List.mem_singleton.mp member]
    decide

/-- SQL that empties the ledger takes the row of its own migration with it. -/
theorem not_atomic_clear :
    ¬ Atomic scripts fresh [clearLedger] false (migrateUp scripts fresh [clearLedger] false) := by
  intro atomic
  rcases atomic.steps with ⟨steps, _, rows, _, applied, _⟩
  have one : (migrateUp scripts fresh [clearLedger] false).applied = 1 := by decide
  have none : (migrateUp scripts fresh [clearLedger] false).driver.committed.rows = [] := by decide
  have length := rows.length_eq
  rw [none, List.length_append, List.length_map, ← applied, one] at length
  simp at length

end BlueBird.Ledger
