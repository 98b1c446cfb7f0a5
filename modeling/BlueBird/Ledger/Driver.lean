import BlueBird.Ledger.Plan

namespace BlueBird.Ledger

/-- The rows of `bb_schema_migrations`, whose primary key is the version. -/
structure LedgerTable where
  rows : List Applied
  ascending : Ascending (rows.map (·.version))

def LedgerTable.empty : LedgerTable := ⟨[], List.Pairwise.nil⟩

def insertRow (row : Applied) : List Applied → List Applied
  | [] => [row]
  | a :: rows => if row.version < a.version then row :: a :: rows else a :: insertRow row rows

theorem insertRow_perm (row : Applied) (rows : List Applied) : (insertRow row rows).Perm (row :: rows) := by
  induction rows with
  | nil => exact .refl _
  | cons a rows ih =>
    rw [insertRow]
    by_cases below : row.version < a.version
    · rw [if_pos below]
    · rw [if_neg below]
      exact (ih.cons a).trans (.swap row a rows)

theorem insertRow_ascending (row : Applied) {rows : List Applied} (ascending : Ascending (rows.map (·.version)))
    (fresh : row.version ∉ rows.map (·.version)) : Ascending ((insertRow row rows).map (·.version)) := by
  induction rows with
  | nil => exact List.pairwise_singleton _ _
  | cons a rows ih =>
    rw [insertRow]
    by_cases below : row.version < a.version
    · rw [if_pos below]
      apply List.Pairwise.cons _ ascending
      intro v member
      rcases List.mem_cons.mp member with rfl | later
      · exact below
      · exact Int.lt_trans below (ascending.head_lt later)
    · rw [if_neg below]
      simp only [List.map_cons, List.mem_cons, not_or] at fresh
      apply List.Pairwise.cons _ (ih ascending.tail fresh.2)
      intro v member
      rcases List.mem_map.mp member with ⟨b, inserted, rfl⟩
      rcases List.mem_cons.mp ((insertRow_perm row rows).mem_iff.mp inserted) with rfl | later
      · show a.version < b.version
        have apart := fresh.1
        omega
      · exact ascending.head_lt (List.mem_map.mpr ⟨b, later, rfl⟩)

/-- A database: the ledger table, if there is one, and whatever else is in it. -/
structure Database (δ : Type) where
  ledger : Option LedgerTable
  rest : δ

variable {δ : Type}

def Database.rows (db : Database δ) : List Applied := (db.ledger.map (·.rows)).getD []

/-- `CREATE TABLE IF NOT EXISTS` -/
def Database.withLedger (db : Database δ) : Database δ :=
  { db with ledger := some (db.ledger.getD .empty) }

def rowOf (m : Migration) (now : Int) : Applied := ⟨m.version, m.name, m.checksum, now⟩

/-- `INSERT INTO bb_schema_migrations`; without the table, or with the version in it, it fails. -/
def Database.insert (db : Database δ) (m : Migration) (now : Int) : Option (Database δ) :=
  match db.ledger with
  | none => none
  | some table =>
    if fresh : m.version ∉ table.rows.map (·.version) then
      some { db with ledger := some ⟨insertRow (rowOf m now) table.rows, insertRow_ascending _ table.ascending fresh⟩ }
    else none

/-- SQLite as one connection sees it, by the number of the call: what a script does to the database (it may
    read a clock or random numbers), whether the call fails, what it leaves of an open transaction then
    (`none`: SQLite has rolled it back), the time and the error's text. -/
structure Sqlite (δ : Type) where
  exec : Nat → Bytes → Database δ → Option (Database δ)
  fails : Nat → Bool
  torn : Nat → Option (Database δ)
  clock : Nat → Int
  message : Nat → String

structure Driver (δ : Type) where
  committed : Database δ
  transaction : Option (Database δ) := none
  calls : Nat := 0
  lastError : String := ""

namespace Driver

variable (sqlite : Sqlite δ) (d : Driver δ)

/-- What statements read and write: the open transaction, or the database itself. -/
def visible : Database δ := d.transaction.getD d.committed

def store (db : Database δ) : Driver δ :=
  if d.transaction.isSome then { d with transaction := some db, calls := d.calls + 1 }
  else { d with committed := db, calls := d.calls + 1 }

def failed : Driver δ :=
  { d with
    transaction := d.transaction.bind fun _ => sqlite.torn d.calls
    calls := d.calls + 1
    lastError := sqlite.message d.calls }

def ensureLedger : Bool × Driver δ :=
  if sqlite.fails d.calls then (false, d.failed sqlite) else (true, d.store d.visible.withLedger)

/-- A missing ledger is an empty one. -/
def loadApplied : Option (List Applied) × Driver δ :=
  if sqlite.fails d.calls then (none, d.failed sqlite)
  else (some d.visible.rows, { d with calls := d.calls + 1 })

/-- `BEGIN IMMEDIATE` -/
def begin_ : Bool × Driver δ :=
  if sqlite.fails d.calls ∨ d.transaction.isSome then (false, d.failed sqlite)
  else (true, { d with transaction := some d.committed, calls := d.calls + 1 })

def record (m : Migration) : Bool × Driver δ :=
  match sqlite.fails d.calls, d.visible.insert m (sqlite.clock d.calls) with
  | false, some db => (true, d.store db)
  | _, _ => (false, d.failed sqlite)

def exec (sql : Bytes) : Bool × Driver δ :=
  match sqlite.fails d.calls, sqlite.exec d.calls sql d.visible with
  | false, some db => (true, d.store db)
  | _, _ => (false, d.failed sqlite)

def commit : Bool × Driver δ :=
  match sqlite.fails d.calls, d.transaction with
  | false, some db => (true, { d with committed := db, transaction := none, calls := d.calls + 1 })
  | _, _ => (false, d.failed sqlite)

def rollback : Driver δ := { d with transaction := none, calls := d.calls + 1 }

end Driver

end BlueBird.Ledger
