import BlueBird.Runtime.Machine

namespace BlueBird.Runtime

/-! ## One task, seen on its own -/

/-- The flags and the record of a task, what refers to it, and its frames: runs, hooks before it is
    freed, and hooks before it is queued as cancelled. -/
structure View where
  task : Task := {}
  record : Record := {}
  once : Nat := 0
  kept : Nat := 0
  runs : Nat := 0
  frees : Nat := 0
  cancels : Nat := 0

namespace View

def scheduled (v : View) : View := { v with task := { v.task with scheduled := true } }

def finished (v : View) : View := { v.scheduled with once := 0, kept := 0 }

def cleaned (v : View) : View :=
  { v with
    task := { v.task with finalized := true }
    record := { v.record with cleaned := v.record.cleaned + 1 } }

def freed (v : View) : View := { v with record := { v.record with destroyed := v.record.destroyed + 1 } }

def marked (v : View) : View :=
  { v with
    task := { v.task with cancelled := true, persistent := false }
    record := { v.record with revoked := true, watch := none } }

def cancelled (v : View) : View :=
  if v.task.finalized then v.marked.finished else { v.marked.cleaned with cancels := v.cancels + 1 }

def destroyed (v : View) : View :=
  if v.task.finalized then v.freed else { v.cleaned with frees := v.frees + 1 }

def dequeued (v : View) : View := { v with task := { v.task with scheduled := false } }

def executed (v : View) : View :=
  { v with
    task := { v.task with scheduled := false, running := true }
    record := { v.record with lateRuns := if v.record.revoked then v.record.lateRuns + 1 else v.record.lateRuns }
    runs := v.runs + 1 }

def returned (v : View) : View := { v with task := { v.task with running := false }, runs := v.runs - 1 }

def settled (v : View) : View := if v.task.scheduled || v.task.persistent then v else v.destroyed

theorem dequeued_eq {v : View} (idle : v.task.scheduled = false) : v.dequeued = v := by
  unfold dequeued
  rw [← idle]

end View

/-- The stages of a task; while the runtime is destroyed, the entry through which a task was found
    stays in its array. -/
inductive Life (closing : Bool) (v : View) : Prop
  | waiting (cancelled : v.task.cancelled = false) (persistent : v.task.persistent = false)
      (finalized : v.task.finalized = false) (place : v.task.scheduled.toNat + v.once + v.runs = 1)
      (kept : v.kept = 0) (frames : v.frees = 0 ∧ v.cancels = 0)
      (record : v.record.destroyed = 0 ∧ v.record.cleaned = 0) (revoked : v.record.revoked = false)
  | persistent (cancelled : v.task.cancelled = false) (persistent : v.task.persistent = true)
      (finalized : v.task.finalized = false) (place : v.once = 0 ∧ v.kept = 1)
      (frames : v.frees = 0 ∧ v.cancels = 0)
      (record : v.record.destroyed = 0 ∧ v.record.cleaned = 0) (revoked : v.record.revoked = false)
  | cancelling (cancelled : v.task.cancelled = true) (persistent : v.task.persistent = false)
      (finalized : v.task.finalized = true) (place : v.once + v.kept ≤ 1)
      (frames : v.frees = 0 ∧ v.cancels ≠ 0) (record : v.record.destroyed = 0 ∧ v.record.cleaned = 1)
      (watch : v.record.watch = none)
  | cancelled (cancelled : v.task.cancelled = true) (persistent : v.task.persistent = false)
      (finalized : v.task.finalized = true) (scheduled : v.task.scheduled = true)
      (place : v.once = 0 ∧ v.kept = 0) (frames : v.frees = 0 ∧ v.cancels = 0)
      (record : v.record.destroyed = 0 ∧ v.record.cleaned = 1) (watch : v.record.watch = none)
  | freeing (cancelled : v.task.cancelled = false) (finalized : v.task.finalized = true)
      (scheduled : v.task.scheduled = false) (place : v.once + v.kept ≤ closing.toNat)
      (frames : v.runs = 0 ∧ v.frees = 1 ∧ v.cancels = 0)
      (record : v.record.destroyed = 0 ∧ v.record.cleaned = 1) (revoked : v.record.revoked = false)
  | destroyed (scheduled : v.task.scheduled = false) (place : v.once + v.kept ≤ closing.toNat)
      (frames : v.runs = 0 ∧ v.frees = 0 ∧ v.cancels = 0)
      (record : v.record.destroyed = 1 ∧ v.record.cleaned = 1)

structure View.Alive (v : View) : Prop where
  destroyed : v.record.destroyed = 0
  frees : v.frees = 0

structure View.Held (v : View) : Prop extends v.Alive where
  place : v.once + v.kept ≤ 1
  cleaned : v.record.cleaned = v.task.finalized.toNat

/-- A task to which nothing leads any more. -/
structure View.Loose (closing : Bool) (v : View) : Prop extends v.Alive where
  scheduled : v.task.scheduled = false
  place : v.once + v.kept ≤ closing.toNat
  frames : v.runs = 0 ∧ v.cancels = 0
  cleaned : v.record.cleaned = v.task.finalized.toNat
  fresh : v.task.finalized = false → v.task.cancelled = false ∧ v.record.revoked = false

namespace Life

variable {closing : Bool} {v : View}

theorem close (life : Life false v) : Life true v := by
  cases life with
  | waiting cancelled persistent finalized place kept frames record revoked =>
    exact .waiting cancelled persistent finalized place kept frames record revoked
  | persistent cancelled persistent finalized place frames record revoked =>
    exact .persistent cancelled persistent finalized place frames record revoked
  | cancelling cancelled persistent finalized place frames record watch =>
    exact .cancelling cancelled persistent finalized place frames record watch
  | cancelled cancelled persistent finalized scheduled place frames record watch =>
    exact .cancelled cancelled persistent finalized scheduled place frames record watch
  | freeing cancelled finalized scheduled place frames record revoked =>
    exact .freeing cancelled finalized scheduled (Nat.le_succ_of_le place) frames record revoked
  | destroyed scheduled place frames record =>
    exact .destroyed scheduled (Nat.le_succ_of_le place) frames record

theorem place_le (life : Life closing v) : v.once + v.kept ≤ 1 := by
  have bound : closing.toNat ≤ 1 := by cases closing <;> decide
  cases life
  all_goals omega

theorem destroyed_le (life : Life closing v) : v.record.destroyed ≤ 1 := by
  cases life
  all_goals omega

theorem cleaned_le (life : Life closing v) : v.record.cleaned ≤ 1 := by
  cases life
  all_goals omega

theorem unreferenced (life : Life closing v) (destroyed : v.record.destroyed = 1) :
    v.task.scheduled = false ∧ v.once + v.kept ≤ closing.toNat ∧ v.record.cleaned = 1 := by
  cases life with
  | destroyed scheduled place _ record => exact ⟨scheduled, place, record.2⟩
  | waiting _ _ _ _ _ _ record => omega
  | persistent _ _ _ _ _ record => omega
  | cancelling _ _ _ _ _ record => omega
  | cancelled _ _ _ _ _ _ record => omega
  | freeing _ _ _ _ _ record => omega

theorem cancelled_of_revoked (life : Life closing v) (alive : v.record.destroyed = 0)
    (revoked : v.record.revoked = true) : v.task.cancelled = true := by
  cases life with
  | waiting _ _ _ _ _ _ _ kept => rw [kept] at revoked; cases revoked
  | persistent _ _ _ _ _ _ kept => rw [kept] at revoked; cases revoked
  | cancelling cancelled => exact cancelled
  | cancelled cancelled => exact cancelled
  | freeing _ _ _ _ _ _ kept => rw [kept] at revoked; cases revoked
  | destroyed _ _ _ record => omega

theorem watch_of_cancels (life : Life closing v) (cancels : v.cancels ≠ 0) : v.record.watch = none := by
  cases life with
  | waiting _ _ _ _ _ frames => exact absurd frames.2 cancels
  | persistent _ _ _ _ frames => exact absurd frames.2 cancels
  | cancelling _ _ _ _ _ _ watch => exact watch
  | cancelled _ _ _ _ _ _ _ watch => exact watch
  | freeing _ _ _ _ frames => omega
  | destroyed _ _ frames => omega

theorem watch_of_cancelled (life : Life closing v) (alive : v.Alive) (cancelled : v.task.cancelled = true) :
    v.record.watch = none := by
  rcases alive with ⟨alive, frees⟩
  cases life with
  | waiting running => rw [running] at cancelled; cases cancelled
  | persistent running => rw [running] at cancelled; cases cancelled
  | cancelling _ _ _ _ _ _ watch => exact watch
  | cancelled _ _ _ _ _ _ _ watch => exact watch
  | freeing running => rw [running] at cancelled; cases cancelled
  | destroyed _ _ _ record => omega

theorem cancels_of_running (life : Life closing v) (running : v.task.cancelled = false) : v.cancels = 0 := by
  cases life with
  | waiting _ _ _ _ _ frames => exact frames.2
  | persistent _ _ _ _ frames => exact frames.2
  | cancelling cancelled => rw [cancelled] at running; cases running
  | cancelled cancelled => rw [cancelled] at running; cases running
  | freeing _ _ _ _ frames => exact frames.2.2
  | destroyed _ _ frames => exact frames.2.2

theorem alive_of_scheduled (life : Life closing v) (scheduled : v.task.scheduled = true) : v.Alive := by
  cases life with
  | waiting _ _ _ _ _ frames record => exact ⟨record.1, frames.1⟩
  | persistent _ _ _ _ frames record => exact ⟨record.1, frames.1⟩
  | cancelling _ _ _ _ frames record => exact ⟨record.1, frames.1⟩
  | cancelled _ _ _ _ _ frames record => exact ⟨record.1, frames.1⟩
  | freeing _ _ none => rw [none] at scheduled; cases scheduled
  | destroyed none => rw [none] at scheduled; cases scheduled

/-- Outside `bb_runtime_destroy` what refers to a task finds it alive. -/
theorem alive_of_referenced (life : Life false v) (referenced : v.once + v.kept ≠ 0) : v.Alive := by
  cases life with
  | waiting _ _ _ _ _ frames record => exact ⟨record.1, frames.1⟩
  | persistent _ _ _ _ frames record => exact ⟨record.1, frames.1⟩
  | cancelling _ _ _ _ frames record => exact ⟨record.1, frames.1⟩
  | cancelled _ _ _ _ _ frames record => exact ⟨record.1, frames.1⟩
  | freeing _ _ _ place =>
    rw [Bool.toNat_false] at place
    omega
  | destroyed _ place =>
    rw [Bool.toNat_false] at place
    omega

theorem held (life : Life closing v) (alive : v.Alive) : v.Held := by
  refine ⟨alive, life.place_le, ?_⟩
  rcases alive with ⟨alive, frees⟩
  cases life with
  | waiting _ _ finalized _ _ _ record => rw [finalized]; exact record.2
  | persistent _ _ finalized _ _ record => rw [finalized]; exact record.2
  | cancelling _ _ finalized _ _ record => rw [finalized]; exact record.2
  | cancelled _ _ finalized _ _ _ record => rw [finalized]; exact record.2
  | freeing _ finalized _ _ _ record => rw [finalized]; exact record.2
  | destroyed _ _ _ record => omega

theorem schedule (life : Life closing v) (alive : v.Alive) (kept : v.kept ≠ 0) : Life closing v.scheduled := by
  rcases alive with ⟨alive, frees⟩
  cases life with
  | waiting _ _ _ _ none => exact absurd none kept
  | persistent cancelled persistent finalized place frames record revoked =>
    exact .persistent cancelled persistent finalized place frames record revoked
  | cancelling cancelled persistent finalized place frames record watch =>
    exact .cancelling cancelled persistent finalized place frames record watch
  | cancelled cancelled persistent finalized _ place frames record watch =>
    exact .cancelled cancelled persistent finalized rfl place frames record watch
  | freeing _ _ _ _ frames => omega
  | destroyed _ _ _ record => omega

theorem fire (life : Life closing v) (alive : v.Alive) (once : v.once ≠ 0) :
    Life closing { v.scheduled with once := v.once - 1 } := by
  rcases alive with ⟨alive, frees⟩
  cases life with
  | waiting cancelled persistent finalized place kept frames record revoked =>
    refine .waiting cancelled persistent finalized ?_ kept frames record revoked
    show (true).toNat + (v.once - 1) + v.runs = 1
    rw [Bool.toNat_true]
    omega
  | persistent _ _ _ place => exact absurd place.1 once
  | cancelling cancelled persistent finalized place frames record watch =>
    refine .cancelling cancelled persistent finalized ?_ frames record watch
    show v.once - 1 + v.kept ≤ 1
    omega
  | cancelled _ _ _ _ place => exact absurd place.1 once
  | freeing _ _ _ _ frames => omega
  | destroyed _ _ _ record => omega

theorem with_watch (life : Life closing v) (watch : Option Watcher) (fewer : v.record.watch = none → watch = none) :
    Life closing { v with record := { v.record with watch } } := by
  cases life with
  | waiting cancelled persistent finalized place kept frames record revoked =>
    exact .waiting cancelled persistent finalized place kept frames record revoked
  | persistent cancelled persistent finalized place frames record revoked =>
    exact .persistent cancelled persistent finalized place frames record revoked
  | cancelling cancelled persistent finalized place frames record none =>
    exact .cancelling cancelled persistent finalized place frames record (fewer none)
  | cancelled cancelled persistent finalized scheduled place frames record none =>
    exact .cancelled cancelled persistent finalized scheduled place frames record (fewer none)
  | freeing cancelled finalized scheduled place frames record revoked =>
    exact .freeing cancelled finalized scheduled place frames record revoked
  | destroyed scheduled place frames record =>
    exact .destroyed scheduled place frames record

theorem run (life : Life closing v) (scheduled : v.task.scheduled = true) (cancelled : v.task.cancelled = false) :
    Life closing v.dequeued.executed := by
  cases life with
  | waiting cancelled persistent finalized place kept frames record revoked =>
    refine .waiting cancelled persistent finalized ?_ kept frames record revoked
    show (false).toNat + v.once + (v.runs + 1) = 1
    rw [scheduled, Bool.toNat_true] at place
    rw [Bool.toNat_false]
    omega
  | persistent cancelled persistent finalized place frames record revoked =>
    exact .persistent cancelled persistent finalized place frames record revoked
  | cancelling already => rw [already] at cancelled; cases cancelled
  | cancelled already => rw [already] at cancelled; cases cancelled
  | freeing _ _ none => rw [none] at scheduled; cases scheduled
  | destroyed none => rw [none] at scheduled; cases scheduled

theorem skip (life : Life closing v) (alive : v.Alive) (persistent : v.task.persistent = true) :
    Life closing v.dequeued := by
  rcases alive with ⟨alive, frees⟩
  cases life with
  | waiting _ none => rw [none] at persistent; cases persistent
  | persistent cancelled persistent finalized place frames record revoked =>
    exact .persistent cancelled persistent finalized place frames record revoked
  | cancelling _ none => rw [none] at persistent; cases persistent
  | cancelled _ none => rw [none] at persistent; cases persistent
  | freeing _ _ _ _ frames => omega
  | destroyed _ _ _ record => omega

theorem loose (life : Life closing v) (alive : v.Alive) (runs : v.runs = 0) (cancels : v.cancels = 0)
    (place : v.once + v.kept ≤ closing.toNat) : v.dequeued.Loose closing := by
  refine ⟨⟨alive.destroyed, alive.frees⟩, rfl, place, ⟨runs, cancels⟩, (life.held alive).cleaned, ?_⟩
  intro fresh
  replace fresh : v.task.finalized = false := fresh
  cases life with
  | waiting cancelled _ _ _ _ _ _ revoked => exact ⟨cancelled, revoked⟩
  | persistent cancelled _ _ _ _ _ revoked => exact ⟨cancelled, revoked⟩
  | cancelling _ _ finalized => rw [finalized] at fresh; cases fresh
  | cancelled _ _ finalized => rw [finalized] at fresh; cases fresh
  | freeing _ finalized => rw [finalized] at fresh; cases fresh
  | destroyed _ _ _ record => exact absurd alive.destroyed (by omega)

theorem place_of_scheduled (life : Life closing v) (scheduled : v.task.scheduled = true)
    (persistent : v.task.persistent = false) (cancels : v.cancels = 0) : v.once + v.kept = 0 := by
  cases life with
  | waiting _ _ _ place kept =>
    rw [scheduled, Bool.toNat_true] at place
    omega
  | persistent _ stays => rw [stays] at persistent; cases persistent
  | cancelling _ _ _ _ frames => exact absurd cancels frames.2
  | cancelled _ _ _ _ place => omega
  | freeing _ _ none => rw [none] at scheduled; cases scheduled
  | destroyed none => rw [none] at scheduled; cases scheduled

theorem persistent_eq_false (life : Life closing v) (alive : v.Alive) (cancelled : v.task.cancelled = true) :
    v.task.persistent = false := by
  rcases alive with ⟨alive, frees⟩
  cases life with
  | waiting _ persistent => exact persistent
  | persistent none => rw [none] at cancelled; cases cancelled
  | cancelling _ persistent => exact persistent
  | cancelled _ persistent => exact persistent
  | freeing none => rw [none] at cancelled; cases cancelled
  | destroyed _ _ _ record => omega

theorem destroy (loose : v.Loose closing) : Life closing v.destroyed := by
  rcases loose with ⟨⟨alive, frees⟩, scheduled, place, frames, cleaned, fresh⟩
  unfold View.destroyed
  by_cases finalized : v.task.finalized = true
  · rw [if_pos finalized]
    rw [finalized, Bool.toNat_true] at cleaned
    refine .destroyed scheduled place ⟨frames.1, frees, frames.2⟩ ⟨?_, cleaned⟩
    show v.record.destroyed + 1 = 1
    omega
  · rw [if_neg finalized]
    rcases fresh (eq_false_of_ne_true finalized) with ⟨cancelled, revoked⟩
    rw [eq_false_of_ne_true finalized, Bool.toNat_false] at cleaned
    refine .freeing cancelled rfl scheduled place ⟨frames.1, ?_, frames.2⟩ ⟨alive, ?_⟩ revoked
    · show v.frees + 1 = 1
      omega
    · show v.record.cleaned + 1 = 1
      omega

theorem cancel (held : v.Held) : Life closing v.cancelled := by
  rcases held with ⟨⟨alive, frees⟩, place, cleaned⟩
  unfold View.cancelled
  by_cases finalized : v.task.finalized = true
  · rw [if_pos finalized]
    rw [finalized, Bool.toNat_true] at cleaned
    by_cases cancels : v.cancels = 0
    · exact .cancelled rfl rfl finalized rfl ⟨rfl, rfl⟩ ⟨frees, cancels⟩ ⟨alive, cleaned⟩ rfl
    · exact .cancelling rfl rfl finalized (Nat.zero_le 1) ⟨frees, cancels⟩ ⟨alive, cleaned⟩ rfl
  · rw [if_neg finalized]
    rw [eq_false_of_ne_true finalized, Bool.toNat_false] at cleaned
    refine .cancelling rfl rfl rfl place ⟨frees, Nat.succ_ne_zero _⟩ ⟨alive, ?_⟩ rfl
    show v.record.cleaned + 1 = 1
    omega

theorem finish (life : Life closing v) (cancels : v.cancels ≠ 0) :
    Life closing { v.finished with cancels := v.cancels - 1 } := by
  cases life with
  | waiting _ _ _ _ _ frames => exact absurd frames.2 cancels
  | persistent _ _ _ _ frames => exact absurd frames.2 cancels
  | cancelling cancelled persistent finalized place frames record watch =>
    by_cases last : v.cancels - 1 = 0
    · exact .cancelled cancelled persistent finalized rfl ⟨rfl, rfl⟩ ⟨frames.1, last⟩ record watch
    · exact .cancelling cancelled persistent finalized (Nat.zero_le 1) ⟨frames.1, last⟩ record watch
  | cancelled _ _ _ _ _ frames => exact absurd frames.2 cancels
  | freeing _ _ _ _ frames => omega
  | destroyed _ _ frames => omega

theorem free (life : Life closing v) (frees : v.frees ≠ 0) :
    Life closing { v.freed with frees := v.frees - 1 } := by
  cases life with
  | waiting _ _ _ _ _ frames => exact absurd frames.1 frees
  | persistent _ _ _ _ frames => exact absurd frames.1 frees
  | cancelling _ _ _ _ frames => exact absurd frames.1 frees
  | cancelled _ _ _ _ _ frames => exact absurd frames.1 frees
  | freeing _ _ scheduled place frames record =>
    refine .destroyed scheduled place ⟨frames.1, ?_, frames.2.2⟩ ⟨?_, record.2⟩
    · show v.frees - 1 = 0
      omega
    · show v.record.destroyed + 1 = 1
      omega
  | destroyed _ _ frames => exact absurd frames.2.1 frees

theorem forget (life : Life closing v) (destroyed : v.record.destroyed = 1) (record : Record)
    (kept : record.destroyed = v.record.destroyed ∧ record.cleaned = v.record.cleaned) :
    Life closing { v with record } := by
  cases life with
  | destroyed scheduled place frames stage =>
    exact .destroyed scheduled place frames ⟨kept.1.trans stage.1, kept.2.trans stage.2⟩
  | waiting _ _ _ _ _ _ record => omega
  | persistent _ _ _ _ _ record => omega
  | cancelling _ _ _ _ _ record => omega
  | cancelled _ _ _ _ _ _ record => omega
  | freeing _ _ _ _ _ record => omega

theorem shrink (life : Life closing v) (destroyed : v.record.destroyed = 1) {once kept : Nat}
    (fewer : once + kept ≤ v.once + v.kept) : Life closing { v with once, kept } := by
  rcases life.unreferenced destroyed with ⟨scheduled, place, cleaned⟩
  cases life with
  | destroyed _ _ frames stage => exact .destroyed scheduled (Nat.le_trans fewer place) frames stage
  | waiting _ _ _ _ _ _ record => omega
  | persistent _ _ _ _ _ record => omega
  | cancelling _ _ _ _ _ record => omega
  | cancelled _ _ _ _ _ _ record => omega
  | freeing _ _ _ _ _ record => omega

theorem destroyed_of_unreferenced (life : Life closing v) (idle : v.task.scheduled = false)
    (place : v.once = 0 ∧ v.kept = 0) (frames : v.runs = 0 ∧ v.frees = 0 ∧ v.cancels = 0) :
    v.record.destroyed = 1 := by
  cases life with
  | waiting _ _ _ one =>
    rw [idle, Bool.toNat_false] at one
    omega
  | persistent _ _ _ one => omega
  | cancelling _ _ _ _ busy => exact absurd frames.2.2 busy.2
  | cancelled _ _ _ scheduled => rw [idle] at scheduled; cases scheduled
  | freeing _ _ _ _ busy => omega
  | destroyed _ _ _ record => exact record.1

theorem settle (life : Life closing v) (runs : v.runs ≠ 0) (cancels : v.cancels = 0) :
    Life closing v.returned.settled := by
  cases life with
  | waiting cancelled persistent finalized place kept frames record revoked =>
    have once : v.once = 0 := by omega
    have alone : v.runs = 1 := by omega
    have idle : v.task.scheduled = false := by
      cases scheduled : v.task.scheduled
      · rfl
      · rw [scheduled, Bool.toNat_true] at place
        omega
    have loose : v.returned.Loose closing := by
      refine ⟨⟨record.1, frames.1⟩, idle, ?_, ⟨?_, cancels⟩, ?_, fun _ => ⟨cancelled, revoked⟩⟩
      · show v.once + v.kept ≤ closing.toNat
        omega
      · show v.runs - 1 = 0
        omega
      · show v.record.cleaned = v.task.finalized.toNat
        rw [finalized]
        exact record.2
    have gone : v.returned.settled = v.returned.destroyed := by
      show (if v.task.scheduled || v.task.persistent then v.returned else v.returned.destroyed) = _
      rw [idle, persistent]
      rfl
    rw [gone]
    exact destroy loose
  | persistent cancelled persistent finalized place frames record revoked =>
    have stays : v.returned.settled = v.returned := by
      show (if v.task.scheduled || v.task.persistent then v.returned else v.returned.destroyed) = _
      rw [persistent, Bool.or_true]
      rfl
    rw [stays]
    exact .persistent cancelled persistent finalized place frames record revoked
  | cancelling _ _ _ _ frames => exact absurd cancels frames.2
  | cancelled cancelled persistent finalized scheduled place frames record watch =>
    have stays : v.returned.settled = v.returned := by
      show (if v.task.scheduled || v.task.persistent then v.returned else v.returned.destroyed) = _
      rw [scheduled]
      rfl
    rw [stays]
    exact .cancelled cancelled persistent finalized scheduled place frames record watch
  | freeing _ _ _ _ frames => exact absurd frames.1 runs
  | destroyed _ _ frames => exact absurd frames.1 runs

end Life
end BlueBird.Runtime
