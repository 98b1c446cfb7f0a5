import BlueBird.Bytes
import BlueBird.Program.Borrowing
import Mathlib.Data.List.Nodup

/-! The connections of a SQLite store, lent to any number of holders. -/

namespace BlueBird.Persist

open Borrowing (Exclusive)

/-- An entry of `conns`; `Db` is what `sqlite3_open_v2` gives. -/
structure SqliteConn (Db : Type) where
  db : Db
  inUse : Bool
  deriving DecidableEq

/-- `BB_ModelSQLiteHandle`, with those entries of its array that are opened. -/
structure SqlitePool (Db : Type) where
  conns : List (SqliteConn Db)
  capacity : Nat

inductive Acquired (Db : Type) where
  | connection (db : Db)
  | failed | spins

/-- The calls of `pool_acquire` and `pool_release`. `opens` is what opening a connection gives, if it comes to that. -/
inductive PoolCall (Holder Db : Type) where
  | acquire (h : Holder) (opens : Option Db)
  | release (h : Holder) (db : Db)

namespace SqlitePool

def maxConns : Nat := 8

def uriIsPrivateMemory (uri : Bytes) : Bool :=
  uri = [] ∨ uri = ascii ":memory:" ∨ ascii "file::memory:" <+: uri

variable {Db : Type} [DecidableEq Db]

/-- `sqlite_open` with its first connection. -/
def sqliteOpen (uri : Bytes) (db : Db) : SqlitePool Db where
  conns := [{ db, inUse := false }]
  capacity := if uriIsPrivateMemory uri then 1 else maxConns

/-- The first loop of `pool_acquire`: the first connection that is not in use. -/
def takeIdle : List (SqliteConn Db) → Option (List (SqliteConn Db) × Db)
  | [] => none
  | conn :: conns =>
    if conn.inUse then (takeIdle conns).map fun found => (conn :: found.1, found.2)
    else some ({ conn with inUse := true } :: conns, conn.db)

/-- One turn of `pool_acquire`, all of it under the lock. -/
def acquire (p : SqlitePool Db) (opens : Option Db) : SqlitePool Db × Acquired Db :=
  match takeIdle p.conns with
  | some (conns, db) => ({ p with conns }, .connection db)
  | none =>
    if p.conns.length < p.capacity then
      match opens with
      | none => (p, .failed)
      | some db => ({ p with conns := p.conns ++ [{ db, inUse := true }] }, .connection db)
    else (p, .spins)

/-- The loop of `pool_release`, which stops at the connection. -/
def giveBack (db : Db) : List (SqliteConn Db) → List (SqliteConn Db)
  | [] => []
  | conn :: conns => if conn.db = db then { conn with inUse := false } :: conns else conn :: giveBack db conns

def release (p : SqlitePool Db) (db : Db) : SqlitePool Db := { p with conns := giveBack db p.conns }

/-! ## Any number of holders -/

variable {Holder : Type} [DecidableEq Holder]

/-- The pool, and the connection that each holder was handed and has not released. -/
structure Lent (Holder Db : Type) where
  pool : SqlitePool Db
  held : Holder → Option Db

/-- A holder without a connection acquires one, a holder of one releases it. What is opened is not open yet. -/
def Lent.Allows (s : Lent Holder Db) : PoolCall Holder Db → Prop
  | .acquire h opens => s.held h = none ∧ ∀ db, opens = some db → db ∉ s.pool.conns.map (·.db)
  | .release h db => s.held h = some db

def Lent.next (s : Lent Holder Db) : PoolCall Holder Db → Lent Holder Db
  | .acquire h opens =>
    { pool := (s.pool.acquire opens).1
      held := match (s.pool.acquire opens).2 with
        | .connection db => Function.update s.held h (some db)
        | _ => s.held }
  | .release h db => { pool := s.pool.release db, held := Function.update s.held h none }

inductive Reachable (uri : Bytes) (db : Db) : Lent Holder Db → Prop where
  | opened : Reachable uri db { pool := sqliteOpen uri db, held := fun _ => none }
  | call {s : Lent Holder Db} (before : Reachable uri db s) {call : PoolCall Holder Db} (allowed : s.Allows call) :
      Reachable uri db (s.next call)

def idle (p : SqlitePool Db) : List Db := (p.conns.filter (!·.inUse)).map (·.db)

/-- What holds of a pool and its holders. The idle connections are those that nobody has, each of them once. -/
structure Safe (s : Lent Holder Db) : Prop where
  exclusive : ∀ h h' db, s.held h = some db → s.held h' = some db → h = h'
  bounded : s.pool.conns.length ≤ s.pool.capacity
  once : s.pool.idle.Nodup
  available : ∀ db, db ∈ s.pool.idle ↔ db ∈ s.pool.conns.map (·.db) ∧ ∀ h, s.held h ≠ some db
  released : ∀ h db, s.held h = some db → db ∉ s.pool.idle ∧ db ∈ (s.next (.release h db)).pool.idle
  failedOpen : ∀ h, (s.pool.acquire none).2 = .failed → s.next (.acquire h none) = s

/-! ## What the calls do to the entries -/

omit [DecidableEq Db] in
theorem takeIdle_some {conns after : List (SqliteConn Db)} {db : Db} (found : takeIdle conns = some (after, db)) :
    ∃ front back, conns = front ++ { db, inUse := false } :: back ∧ after = front ++ { db, inUse := true } :: back := by
  induction conns generalizing after with
  | nil => cases found
  | cons conn conns ih =>
    rw [takeIdle] at found
    cases used : conn.inUse with
    | true =>
      rw [if_pos used] at found
      rcases Option.map_eq_some_iff.mp found with ⟨⟨rest, other⟩, later, same⟩
      cases same
      rcases ih later with ⟨front, back, before, behind⟩
      exact ⟨conn :: front, back, by rw [before]; rfl, by rw [behind]; rfl⟩
    | false =>
      rw [if_neg (by rw [used]; exact Bool.false_ne_true)] at found
      cases found
      refine ⟨[], conns, ?_, rfl⟩
      rw [← used]
      rfl

theorem giveBack_eq {conns : List (SqliteConn Db)} {db : Db} (opened : db ∈ conns.map (·.db)) :
    ∃ front conn back, conns = front ++ conn :: back ∧ conn.db = db ∧
      giveBack db conns = front ++ { db, inUse := false } :: back := by
  induction conns with
  | nil => cases opened
  | cons conn conns ih =>
    rw [giveBack]
    by_cases here : conn.db = db
    · refine ⟨[], conn, conns, rfl, here, ?_⟩
      rw [if_pos here, ← here]
      rfl
    · have later : db ∈ conns.map (·.db) := (List.mem_cons.mp opened).resolve_left fun same => here same.symm
      rcases ih later with ⟨front, other, back, split, same, after⟩
      refine ⟨conn :: front, other, back, by rw [split]; rfl, same, ?_⟩
      rw [if_neg here, after]
      rfl

omit [DecidableEq Db] in
/-- A connection has one entry. -/
theorem others_differ {front back : List (SqliteConn Db)} {conn other : SqliteConn Db}
    (distinct : ((front ++ conn :: back).map (·.db)).Nodup) (listed : other ∈ front ++ back) : other.db ≠ conn.db := by
  intro same
  rw [List.map_append, List.map_cons, List.nodup_middle, ← List.map_append] at distinct
  exact (List.nodup_cons.mp distinct).1 (same ▸ List.mem_map_of_mem listed)

def InUse (p : SqlitePool Db) (db : Db) : Prop := { db, inUse := true } ∈ p.conns

/-- Under this the pool and its holders stay, call after call. -/
structure Keeps (s : Lent Holder Db) : Prop where
  distinct : (s.pool.conns.map (·.db)).Nodup
  bounded : s.pool.conns.length ≤ s.pool.capacity
  exclusive : Exclusive s.pool.InUse s.held

omit [DecidableEq Db] [DecidableEq Holder] in
theorem keeps_opened (uri : Bytes) (db : Db) :
    Keeps ({ pool := sqliteOpen uri db, held := fun _ => none } : Lent Holder Db) where
  distinct := List.nodup_singleton db
  bounded := by
    show 1 ≤ if uriIsPrivateMemory uri then 1 else maxConns
    split
    · exact Nat.le_refl 1
    · decide
  exclusive := by
    constructor
    · intro r
      constructor
      · intro used
        cases List.mem_singleton.mp used
      · intro ⟨h, holds⟩
        cases holds
    · intro h h' r holds
      cases holds

theorem Keeps.acquire {s : Lent Holder Db} (keeps : Keeps s) {h : Holder} {opens : Option Db}
    (allowed : s.Allows (.acquire h opens)) : Keeps (s.next (.acquire h opens)) := by
  rcases allowed with ⟨nothing, fresh⟩
  unfold Lent.next SqlitePool.acquire
  cases found : takeIdle s.pool.conns with
  | some taken =>
    rcases taken with ⟨after, db⟩
    rcases takeIdle_some found with ⟨front, back, before, behind⟩
    have dbs : after.map (·.db) = s.pool.conns.map (·.db) := by
      rw [before, behind, List.map_append, List.map_append]
      rfl
    have distinct := keeps.distinct
    constructor
    · show (after.map (·.db)).Nodup
      rw [dbs]
      exact distinct
    · have bounded := keeps.bounded
      rw [← List.length_map (·.db), ← dbs, List.length_map] at bounded
      exact bounded
    · apply keeps.exclusive.take (r := db)
      · intro used
        have other : (⟨db, true⟩ : SqliteConn Db) ∈ front ++ back := by
          unfold InUse at used
          rw [before] at used
          simpa using used
        rw [before] at distinct
        exact others_differ distinct other rfl
      · exact nothing
      · intro other
        show _ ∈ after ↔ _ ∨ _ ∈ s.pool.conns
        rw [before, behind]
        simp only [List.mem_append, List.mem_cons, SqliteConn.mk.injEq, Bool.true_eq_false, and_true, and_false, false_or]
        exact or_left_comm
  | none =>
    dsimp only
    by_cases room : s.pool.conns.length < s.pool.capacity
    · rw [if_pos room]
      cases opens with
      | none => exact keeps
      | some db =>
        have new := fresh db rfl
        constructor
        · show ((s.pool.conns ++ [(⟨db, true⟩ : SqliteConn Db)]).map (·.db)).Nodup
          rw [List.map_append]
          refine List.nodup_append.mpr ⟨keeps.distinct, List.nodup_singleton db, ?_⟩
          intro a early b last same
          rw [List.map_cons, List.map_nil, List.mem_singleton] at last
          have own : b = db := last
          apply new
          rw [← own, ← same]
          exact early
        · show (s.pool.conns ++ [(⟨db, true⟩ : SqliteConn Db)]).length ≤ s.pool.capacity
          rw [List.length_append, List.length_singleton]
          omega
        · apply keeps.exclusive.take (r := db)
          · intro used
            exact new (List.mem_map_of_mem used)
          · exact nothing
          · intro other
            show _ ∈ s.pool.conns ++ [_] ↔ _ ∨ _ ∈ s.pool.conns
            rw [List.mem_append, List.mem_singleton, SqliteConn.mk.injEq, or_comm]
            simp only [and_true]
    · rw [if_neg room]
      exact keeps

omit [DecidableEq Db] [DecidableEq Holder] in
theorem mem_conns_of_held {s : Lent Holder Db} (keeps : Keeps s) {h : Holder} {db : Db} (holds : s.held h = some db) :
    { db, inUse := true } ∈ s.pool.conns := (keeps.exclusive.owned db).mpr ⟨h, holds⟩

theorem Keeps.release {s : Lent Holder Db} (keeps : Keeps s) {h : Holder} {db : Db} (holds : s.held h = some db) :
    Keeps (s.next (.release h db)) := by
  rcases giveBack_eq (List.mem_map_of_mem (mem_conns_of_held keeps holds)) with ⟨front, conn, back, before, same, behind⟩
  have dbs : (giveBack db s.pool.conns).map (·.db) = s.pool.conns.map (·.db) := by
    rw [behind, before, List.map_append, List.map_append, List.map_cons, List.map_cons, same]
  have distinct := keeps.distinct
  constructor
  · show ((giveBack db s.pool.conns).map (·.db)).Nodup
    rw [dbs]
    exact distinct
  · have bounded := keeps.bounded
    rw [← List.length_map (·.db), ← dbs, List.length_map] at bounded
    exact bounded
  · apply keeps.exclusive.give holds
    intro other
    show _ ∈ giveBack db s.pool.conns ↔ _ ∧ _ ∈ s.pool.conns
    rw [before] at distinct
    have differs : ∀ {used : SqliteConn Db}, used ∈ front ++ back → used.db ≠ db := by
      intro used listed equal
      exact others_differ distinct listed (equal.trans same.symm)
    rw [behind, before]
    simp only [List.mem_append, List.mem_cons, SqliteConn.mk.injEq, Bool.true_eq_false, and_false, false_or]
    constructor
    · intro listed
      exact ⟨differs (List.mem_append.mpr listed), listed.imp_right Or.inr⟩
    · intro ⟨apart, either⟩
      rcases either with early | here | late
      · exact Or.inl early
      · rw [← here] at same
        exact absurd same apart
      · exact Or.inr late

theorem Reachable.keeps {uri : Bytes} {db : Db} {s : Lent Holder Db} (reachable : Reachable uri db s) : Keeps s := by
  induction reachable with
  | opened => exact keeps_opened uri db
  | @call s before call allowed ih =>
    cases call with
    | acquire h opens => exact ih.acquire allowed
    | release h db => exact ih.release allowed

/-! ## The law -/

omit [DecidableEq Db] in
theorem mem_idle {p : SqlitePool Db} {db : Db} : db ∈ p.idle ↔ { db, inUse := false } ∈ p.conns := by
  unfold idle
  rw [List.mem_map]
  constructor
  · intro ⟨conn, inside, same⟩
    rcases List.mem_filter.mp inside with ⟨listed, unused⟩
    rcases conn with ⟨own, used⟩
    cases same
    cases used with
    | true => cases unused
    | false => exact listed
  · intro listed
    exact ⟨_, List.mem_filter.mpr ⟨listed, rfl⟩, rfl⟩

omit [DecidableEq Db] [DecidableEq Holder] in
theorem Keeps.available {s : Lent Holder Db} (keeps : Keeps s) (db : Db) :
    db ∈ s.pool.idle ↔ db ∈ s.pool.conns.map (·.db) ∧ ∀ h, s.held h ≠ some db := by
  rw [mem_idle]
  constructor
  · intro unused
    refine ⟨List.mem_map_of_mem unused, ?_⟩
    intro h holds
    have same := List.inj_on_of_nodup_map keeps.distinct unused (mem_conns_of_held keeps holds) rfl
    cases same
  · intro ⟨opened, nobody⟩
    rcases List.mem_map.mp opened with ⟨conn, listed, same⟩
    rcases conn with ⟨own, used⟩
    cases same
    cases used with
    | false => exact listed
    | true =>
      rcases (keeps.exclusive.owned own).mp listed with ⟨h, holds⟩
      exact absurd holds (nobody h)

theorem Keeps.safe {s : Lent Holder Db} (keeps : Keeps s) : Safe s where
  exclusive := keeps.exclusive.single
  bounded := keeps.bounded
  once := keeps.distinct.sublist (List.filter_sublist.map _)
  available := keeps.available
  released := by
    intro h db holds
    constructor
    · intro unused
      exact ((keeps.available db).mp unused).2 h holds
    · rcases giveBack_eq (List.mem_map_of_mem (mem_conns_of_held keeps holds)) with ⟨front, conn, back, _, _, behind⟩
      apply mem_idle.mpr
      show _ ∈ giveBack db s.pool.conns
      rw [behind]
      exact List.mem_append_right _ List.mem_cons_self
  failedOpen := by
    intro h failed
    have same : s.pool.acquire none = (s.pool, .failed) := by
      unfold SqlitePool.acquire at failed ⊢
      cases found : takeIdle s.pool.conns with
      | some taken =>
        simp only [found] at failed
        cases failed
      | none =>
        by_cases room : s.pool.conns.length < s.pool.capacity
        · simp only [if_pos room]
        · simp only [found, if_neg room] at failed
          cases failed
    unfold Lent.next
    simp only [same]

end SqlitePool
end BlueBird.Persist
