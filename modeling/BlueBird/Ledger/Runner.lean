import BlueBird.Ledger.Driver

namespace BlueBird.Ledger

variable {δ : Type}

def failFromDriver (d : Driver δ) (what : String) : String := what ++ ": " ++ d.lastError

def planFor (sqlite : Sqlite δ) (d : Driver δ) (source : List Migration) (allowOutOfOrder : Bool) :
    Except String Plan × Driver δ :=
  match d.loadApplied sqlite with
  | (none, d) => (.error (failFromDriver d "reading migration ledger"), d)
  | (some applied, d) => (planBuild source applied allowOutOfOrder, d)

def problemText : EntryState → String
  | .modified => "was modified after it was applied"
  | .missing => "was applied, but its file was not provided"
  | .outOfOrder =>
    "is older than the latest applied migration but was never applied (pass --allow-out-of-order to apply it)"
  | _ => "has an unexpected state"

/-- The text that `describe_problem` leaves; without a problem it leaves none. -/
def describeProblem (plan : Plan) : String :=
  match planFirstProblem plan with
  | none => ""
  | some e =>
    "refusing to migrate: migration " ++ toString e.version ++ " (" ++ e.name ++ ") " ++ problemText e.state ++
      if plan.problemCount > 1 then " (+" ++ toString (plan.problemCount - 1) ++ " more problem(s))" else ""

def applyError (m : Migration) (what : String) (d : Driver δ) : String :=
  "migration " ++ toString m.version ++ " (" ++ m.name ++ ")" ++ what ++ ": " ++ d.lastError

/-- The error, if it fails, and the driver. -/
def applyOne (sqlite : Sqlite δ) (d : Driver δ) (m : Migration) : Option String × Driver δ :=
  match d.begin_ sqlite with
  | (false, d) => (some (applyError m ": cannot start transaction" d), d)
  | (true, d) =>
    match d.record sqlite m with
    | (false, d) => (some (applyError m " failed" d), d.rollback)
    | (true, d) =>
      match d.exec sqlite m.sql with
      | (false, d) => (some (applyError m " failed" d), d.rollback)
      | (true, d) =>
        match d.commit sqlite with
        | (false, d) => (some (applyError m ": commit failed" d), d.rollback)
        | (true, d) => (none, d)

/-- What `bb_migrate_up` leaves: `applied` is `*applied_count`, `reported` the calls of `on_applied`,
    and an error is a return of -1. -/
structure Outcome (δ : Type) where
  driver : Driver δ
  applied : Nat := 0
  reported : List Migration := []
  error : Option String := none

/-- The loop over the plan's entries; it skips those that are not pending. -/
def applyEntries (sqlite : Sqlite δ) : List Entry → Outcome δ → Outcome δ
  | [], r => r
  | e :: entries, r =>
    match e.toApply with
    | none => applyEntries sqlite entries r
    | some m =>
      match applyOne sqlite r.driver m with
      | (some error, driver) => { r with driver, error := some error }
      | (none, driver) =>
        applyEntries sqlite entries { r with driver, applied := r.applied + 1, reported := r.reported ++ [m] }

def migrateUp (sqlite : Sqlite δ) (d : Driver δ) (source : List Migration) (allowOutOfOrder : Bool) : Outcome δ :=
  match d.ensureLedger sqlite with
  | (false, driver) => { driver, error := some (failFromDriver driver "preparing migration ledger") }
  | (true, d) =>
    match planFor sqlite d source allowOutOfOrder with
    | (.error error, driver) => { driver, error := some error }
    | (.ok plan, driver) =>
      if plan.problemCount > 0 then { driver, error := some (describeProblem plan) }
      else applyEntries sqlite plan.entries { driver }

end BlueBird.Ledger
