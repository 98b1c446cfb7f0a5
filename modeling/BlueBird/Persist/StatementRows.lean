import BlueBird.Memory.Custody
import BlueBird.Persist.Sqlite
import Mathlib.Algebra.Ring.Nat

/-! The rows of a SELECT, one step of the statement after the other. -/

namespace BlueBird.Persist

open Custody (Event Owner track)

/-- What `sqlite3_step` answers behind the last row: `SQLITE_DONE`, or any other code. -/
inductive Ending where
  | done
  | failed (rc : Int32)
  deriving DecidableEq

structure Statement where
  rows : List Row
  ending : Ending

/-- What is answered to the calls of a read, in their order. `grows` is for the `realloc` to a capacity. -/
structure ReadAnswers where
  acquired : Bool := true
  ensured : Bool := true
  text : Bool := true
  prepared : Bool := true
  bound : Bool := true
  memory : Bool := true
  grows : Nat → Bool := fun _ => true

inductive Piece where
  | connection | statement | buffer
  deriving DecidableEq

/-- `out` is what `*out_array` and `*out_count` are set to, if they are. -/
structure ReadResult (Entity : Type) where
  rc : Int
  out : Option (Option (List Entity) × Nat)
  events : List (Event Piece)

section
variable {Entity : Type} (read : Row → Entity)

/-- The loop around `sqlite3_step`. Any answer but a row ends it alike. -/
def rowLoop (grows : Nat → Bool) : List Row → Nat → List Entity → Option (List Entity)
  | [], _, stored => some stored
  | row :: rows, capacity, stored =>
    if stored.length ≥ capacity then
      if grows (capacity * 2) then rowLoop grows rows (capacity * 2) (stored ++ [read row]) else none
    else rowLoop grows rows capacity (stored ++ [read row])

def prepare (answers : ReadAnswers) (next : ReadResult Entity) : ReadResult Entity :=
  if ¬ answers.acquired then { rc := -1, out := none, events := [] }
  else if ¬ answers.ensured ∨ ¬ answers.text ∨ ¬ answers.prepared then
    { rc := -1, out := none, events := [.allocate .connection, .free .connection] }
  else { next with events := [.allocate .connection, .allocate .statement] ++ next.events }

/-- A read from the first allocation on. `sqlite_query` hands out NULL for no rows. -/
def collect (nullIfEmpty : Bool) (answers : ReadAnswers) (statement : Statement) : ReadResult Entity :=
  if ¬ answers.memory then { rc := -1, out := none, events := [.free .statement, .free .connection] }
  else
    match rowLoop read answers.grows statement.rows 8 [] with
    | none =>
      { rc := -1, out := none
        events := [.allocate .buffer, .free .buffer, .free .statement, .free .connection] }
    | some entities =>
      if nullIfEmpty ∧ entities.length = 0 then
        { rc := 0, out := some (none, entities.length)
          events := [.allocate .buffer, .free .statement, .free .connection, .free .buffer] }
      else
        { rc := 0, out := some (some entities, entities.length)
          events := [.allocate .buffer, .free .statement, .free .connection, .hand .buffer] }

def sqliteFindAllRows (answers : ReadAnswers) (statement : Statement) : ReadResult Entity :=
  prepare answers (collect read false answers statement)

def sqliteQueryRows (answers : ReadAnswers) (statement : Statement) : ReadResult Entity :=
  prepare answers
    (if answers.bound then collect read true answers statement
    else { rc := -1, out := none, events := [.free .statement, .free .connection] })

end

/-! ## Complete or failed -/

/-- A call before the loop is refused, or a growth that the rows need. -/
def Refused (binds : Bool) (answers : ReadAnswers) (rows : List Row) : Prop :=
  answers.acquired = false ∨ (answers.ensured = false ∨ answers.text = false ∨ answers.prepared = false) ∨
    (binds = true ∧ answers.bound = false) ∨ answers.memory = false ∨
    ∃ k, 8 * 2 ^ k < rows.length ∧ answers.grows (8 * 2 ^ (k + 1)) = false

/-- The connection and the statement are not held any more, and no piece was misused on the way. -/
def Released (events : List (Event Piece)) (piece : Piece) : Prop :=
  track piece events .nobody = some .nobody ∨ track piece events .nobody = some .freed

section
variable {Entity : Type} (read : Row → Entity)

/-- The rows as they are handed out, for which no rows can be NULL. -/
def handed (rows : List Row) : Option (List Entity) × Nat → Prop
  | (some entities, count) => entities = rows.map read ∧ count = rows.length
  | (none, count) => rows = [] ∧ count = 0

/-- With 0 goes a statement that was done and all its rows; with anything else goes nothing. -/
structure CompleteOrFails (binds : Bool) (answers : ReadAnswers) (statement : Statement) (result : ReadResult Entity) : Prop where
  success : result.rc = 0 → statement.ending = .done ∧ ∃ out, result.out = some out ∧ handed read statement.rows out
  failure : result.rc ≠ 0 → result.out = none ∧ Released result.events .buffer
  fails : Refused binds answers statement.rows ∨ statement.ending ≠ .done → result.rc ≠ 0
  connection : Released result.events .connection
  statement : Released result.events .statement

theorem rowLoop_spec (grows : Nat → Bool) (rows : List Row) {capacity : Nat} (stored : List Entity)
    (fits : stored.length ≤ capacity) (some_ : 0 < capacity) :
    ((∃ k, capacity * 2 ^ k < stored.length + rows.length ∧ grows (capacity * 2 ^ (k + 1)) = false) ∧
        rowLoop read grows rows capacity stored = none) ∨
      ((∀ k, capacity * 2 ^ k < stored.length + rows.length → grows (capacity * 2 ^ (k + 1)) = true) ∧
        rowLoop read grows rows capacity stored = some (stored ++ rows.map read)) := by
  induction rows generalizing capacity stored with
  | nil =>
    apply Or.inr
    constructor
    · intro k more
      have least : capacity * 1 ≤ capacity * 2 ^ k := Nat.mul_le_mul_left _ Nat.one_le_two_pow
      rw [List.length_nil] at more
      omega
    · rw [rowLoop, List.map_nil, List.append_nil]
  | cons row rows ih =>
    have total : stored.length + (row :: rows).length = (stored ++ [read row]).length + rows.length := by
      rw [List.length_append, List.length_cons, List.length_singleton]
      omega
    have all : stored ++ (row :: rows).map read = stored ++ [read row] ++ rows.map read := by
      rw [List.append_assoc, List.map_cons, List.singleton_append]
    rw [rowLoop, total, all]
    by_cases full : stored.length ≥ capacity
    · rw [if_pos full]
      cases grown : grows (capacity * 2) with
      | false =>
        rw [if_neg Bool.false_ne_true]
        refine Or.inl ⟨⟨0, ?_, grown⟩, rfl⟩
        rw [List.length_append, List.length_singleton]
        omega
      | true =>
        rw [if_pos rfl]
        have room : (stored ++ [read row]).length ≤ capacity * 2 := by
          rw [List.length_append, List.length_singleton]
          omega
        have next : ∀ k, capacity * 2 * 2 ^ k = capacity * 2 ^ (k + 1) := by
          intro k
          rw [Nat.pow_succ, Nat.mul_assoc, Nat.mul_comm 2]
        rcases ih (stored ++ [read row]) room (by omega) with ⟨⟨k, needed, refused⟩, result⟩ | ⟨granted, result⟩
        · rw [next] at needed refused
          exact Or.inl ⟨⟨k + 1, needed, refused⟩, result⟩
        · refine Or.inr ⟨?_, result⟩
          intro k needed
          cases k with
          | zero => exact grown
          | succ k =>
            rw [← next] at needed ⊢
            exact granted k needed
    · rw [if_neg full]
      apply ih (stored ++ [read row]) _ some_
      rw [List.length_append, List.length_singleton]
      omega

theorem prepare_spec (binds nullIfEmpty : Bool) (answers : ReadAnswers) (statement : Statement) {result : ReadResult Entity}
    (shape : result = prepare answers (if binds = true ∧ answers.bound = false then
      { rc := -1, out := none, events := [.free .statement, .free .connection] }
      else collect read nullIfEmpty answers statement)) :
    (Refused binds answers statement.rows ∧ result.rc = -1 ∧ result.out = none ∧ ∀ piece, Released result.events piece) ∨
      (¬ Refused binds answers statement.rows ∧ result.rc = 0 ∧
        (∃ out, result.out = some out ∧ handed read statement.rows out) ∧
        Released result.events .connection ∧ Released result.events .statement) := by
  unfold prepare at shape
  cases acquired : answers.acquired with
  | false =>
    rw [if_pos (by rw [acquired]; exact Bool.false_ne_true)] at shape
    refine Or.inl ⟨Or.inl acquired, by rw [shape], by rw [shape], fun piece => ?_⟩
    rw [shape]
    exact Or.inl rfl
  | true =>
    rw [if_neg (by rw [acquired]; exact not_not_intro rfl)] at shape
    by_cases before : answers.ensured = false ∨ answers.text = false ∨ answers.prepared = false
    · have fails : ¬ answers.ensured = true ∨ ¬ answers.text = true ∨ ¬ answers.prepared = true := by
        rw [Bool.not_eq_true, Bool.not_eq_true, Bool.not_eq_true]
        exact before
      rw [if_pos fails] at shape
      refine Or.inl ⟨Or.inr (Or.inl before), by rw [shape], by rw [shape], fun piece => ?_⟩
      rw [shape]
      cases piece with
      | connection => exact Or.inr rfl
      | statement => exact Or.inl rfl
      | buffer => exact Or.inl rfl
    · have passes : ¬ (¬ answers.ensured = true ∨ ¬ answers.text = true ∨ ¬ answers.prepared = true) := by
        rw [Bool.not_eq_true, Bool.not_eq_true, Bool.not_eq_true]
        exact before
      rw [if_neg passes] at shape
      by_cases unbound : binds = true ∧ answers.bound = false
      · rw [if_pos unbound] at shape
        refine Or.inl ⟨Or.inr (Or.inr (Or.inl unbound)), by rw [shape], by rw [shape], fun piece => ?_⟩
        rw [shape]
        cases piece with
        | connection => exact Or.inr rfl
        | statement => exact Or.inr rfl
        | buffer => exact Or.inl rfl
      · rw [if_neg unbound] at shape
        unfold collect at shape
        cases memory : answers.memory with
        | false =>
          rw [if_pos (by rw [memory]; exact Bool.false_ne_true)] at shape
          refine Or.inl ⟨Or.inr (Or.inr (Or.inr (Or.inl memory))), by rw [shape], by rw [shape], fun piece => ?_⟩
          rw [shape]
          cases piece with
          | connection => exact Or.inr rfl
          | statement => exact Or.inr rfl
          | buffer => exact Or.inl rfl
        | true =>
          rw [if_neg (by rw [memory]; exact not_not_intro rfl)] at shape
          rcases rowLoop_spec read answers.grows statement.rows [] (Nat.zero_le 8) (by omega) with
            ⟨⟨k, needed, refused⟩, loop⟩ | ⟨granted, loop⟩
          · rw [loop] at shape
            rw [List.length_nil, Nat.zero_add] at needed
            refine Or.inl ⟨Or.inr (Or.inr (Or.inr (Or.inr ⟨k, needed, refused⟩))), by rw [shape], by rw [shape], fun piece => ?_⟩
            rw [shape]
            cases piece with
            | connection => exact Or.inr rfl
            | statement => exact Or.inr rfl
            | buffer => exact Or.inr rfl
          · rw [loop] at shape
            have accepted : ¬ Refused binds answers statement.rows := by
              intro either
              rcases either with none_ | early | bind | none_ | ⟨k, needed, refused⟩
              · rw [acquired] at none_
                cases none_
              · exact before early
              · exact unbound bind
              · rw [memory] at none_
                cases none_
              · rw [granted k (by rw [List.length_nil, Nat.zero_add]; exact needed)] at refused
                cases refused
            apply Or.inr
            by_cases empty : nullIfEmpty = true ∧ (statement.rows.map read).length = 0
            · have rows : statement.rows = [] := by
                rw [List.length_map] at empty
                exact List.eq_nil_of_length_eq_zero empty.2
              simp only [List.nil_append, if_pos empty] at shape
              rw [shape]
              refine ⟨accepted, rfl, ⟨_, rfl, rows, ?_⟩, Or.inr rfl, Or.inr rfl⟩
              exact empty.2
            · simp only [List.nil_append, if_neg empty] at shape
              rw [shape]
              exact ⟨accepted, rfl, ⟨_, rfl, rfl, List.length_map _⟩, Or.inr rfl, Or.inr rfl⟩

theorem completeOrFails_iff_of_spec {binds : Bool} {answers : ReadAnswers} {statement : Statement} {result : ReadResult Entity}
    (spec : (Refused binds answers statement.rows ∧ result.rc = -1 ∧ result.out = none ∧ ∀ piece, Released result.events piece) ∨
      (¬ Refused binds answers statement.rows ∧ result.rc = 0 ∧
        (∃ out, result.out = some out ∧ handed read statement.rows out) ∧
        Released result.events .connection ∧ Released result.events .statement)) :
    CompleteOrFails read binds answers statement result ↔
      Refused binds answers statement.rows ∨ statement.ending = .done := by
  rcases spec with ⟨refused, rc, out, released⟩ | ⟨accepted, rc, out, connection, closed⟩
  · refine iff_of_true ⟨?_, ?_, ?_, released .connection, released .statement⟩ (Or.inl refused)
    · intro success
      rw [rc] at success
      cases success
    · intro _
      exact ⟨out, released .buffer⟩
    · intro _ success
      rw [rc] at success
      cases success
  · constructor
    · intro complete
      exact Or.inr (complete.success rc).1
    · intro either
      have done := either.resolve_left accepted
      refine ⟨?_, ?_, ?_, connection, closed⟩
      · intro _
        exact ⟨done, out⟩
      · intro failed
        exact absurd rc failed
      · intro fails
        rcases fails with refused | other
        · exact absurd refused accepted
        · exact absurd done other

end

theorem reads_completeOrFail_iff {Entity : Type} (read : Row → Entity) (answers : ReadAnswers) (statement : Statement) :
    (CompleteOrFails read false answers statement (sqliteFindAllRows read answers statement) ↔
        Refused false answers statement.rows ∨ statement.ending = .done) ∧
      (CompleteOrFails read true answers statement (sqliteQueryRows read answers statement) ↔
        Refused true answers statement.rows ∨ statement.ending = .done) := by
  constructor
  · apply completeOrFails_iff_of_spec
    apply prepare_spec read false false
    rw [if_neg fun both => Bool.false_ne_true both.1]
    rfl
  · apply completeOrFails_iff_of_spec
    apply prepare_spec read true true
    unfold sqliteQueryRows
    cases answers.bound <;> rfl

/-- A table of two rows, whose statement is busy behind the first. -/
theorem not_completeOrFails_busy : ¬ ∀ statement : Statement,
    CompleteOrFails (fun row => row) false {} statement (sqliteFindAllRows (fun row => row) {} statement) := by
  intro all
  have done := ((all { rows := [[.integer 1]], ending := .failed 5 }).success rfl).1
  cases done

end BlueBird.Persist
