import BlueBird.Collections.HeapOrder
import BlueBird.Runtime.Machine
import BlueBird.Runtime.Holdings

namespace BlueBird.Runtime

open BinaryHeap

def Timer.due (now : Nat) (timer : Timer) : Bool := timer.nextFireMs ≤ now

/-- What becomes of a timer when the timers are updated. -/
def Timer.updated (now : Nat) (timer : Timer) : Option Timer :=
  if timer.due now then
    if timer.repeating then some { timer with nextFireMs := State.rearmed now timer.intervalMs } else none
  else some timer

namespace State

/-- `_bb_runtime_update_timers`, as far as so many turns of its loop come. -/
def updateTimers : Nat → State → Nat → State
  | 0, rt, _ => rt
  | turns + 1, rt, now =>
    match rt.dueTimer now with
    | some top => updateTimers turns (rt.fireTimer now top) now
    | none => rt

/-! ## One turn -/

theorem rearmed_later {now : Nat} (bound : now < 2 ^ 64 - 1) (intervalMs : Nat) : now < rearmed now intervalMs := by
  unfold rearmed
  dsimp only
  split
  · rw [Nat.mod_eq_of_lt (by omega)]
    exact Nat.lt_succ_self now
  · omega

theorem dueTimer_due {rt : State} {now : Nat} {top : Timer} (found : rt.dueTimer now = some top) : top.due now = true := by
  unfold dueTimer at found
  exact (Option.filter_eq_some_iff.mp found).2

theorem later_of_dueTimer {rt : State} {now : Nat} (ordered : Ordered Timer.nextFireMs rt.timers)
    (none_ : rt.dueTimer now = none) : ∀ timer ∈ rt.timers, timer.due now = false := by
  intro timer member
  rcases List.getElem?_of_mem member with ⟨i, here⟩
  rcases List.getElem?_eq_some_iff.mp here with ⟨inside, _⟩
  have least := ordered.root inside
  rw [keyAt_eq here] at least
  cases timers : rt.timers with
  | nil =>
    rw [timers] at member
    cases member
  | cons top rest =>
    have root : rt.timers[0]? = some top := by rw [timers]; rfl
    rw [keyAt_eq root] at least
    unfold dueTimer at none_
    rw [timers, List.head?_cons, Option.filter_eq_none_iff] at none_
    have late := none_ top rfl
    rw [decide_eq_true_eq] at late
    exact decide_eq_false (by omega)

theorem fireTimer_timers {rt : State} {now : Nat} {top : Timer} {rest : List Timer} (timers : rt.timers = top :: rest)
    (due : top.due now = true) : (rt.fireTimer now top).timers.Perm ((top.updated now).toList ++ rest) := by
  have frame := (schedule_frame rt top.task).2.2.1
  unfold fireTimer Timer.updated
  rw [if_pos due]
  dsimp only
  by_cases repeating : top.repeating = true
  · rw [if_pos repeating, if_pos repeating]
    show (rescheduleTop Timer.nextFireMs (rt.schedule top.task).timers _).Perm _
    rw [frame, timers]
    exact rescheduleTop_perm Timer.nextFireMs top rest fun timer => { timer with nextFireMs := rearmed now top.intervalMs }
  · rw [if_neg repeating, if_neg repeating]
    show (removeAt Timer.nextFireMs (rt.schedule top.task).timers 0).Perm rest
    rw [frame, timers]
    exact (List.Perm.cons_inv (removeAt_perm Timer.nextFireMs (top :: rest) 0 top rfl)).symm

theorem fireTimer_ordered {rt : State} (ordered : Ordered Timer.nextFireMs rt.timers) {now : Nat} {top : Timer}
    (found : rt.dueTimer now = some top) : Ordered Timer.nextFireMs (rt.fireTimer now top).timers := by
  rcases dueTimer_mem found with ⟨rest, timers⟩
  have frame := (schedule_frame rt top.task).2.2.1
  have filled : 0 < rt.timers.length := by
    rw [timers]
    exact Nat.zero_lt_succ _
  unfold fireTimer
  dsimp only
  split
  · show Ordered Timer.nextFireMs (rescheduleTop Timer.nextFireMs (rt.schedule top.task).timers _)
    rw [frame]
    exact rescheduleTop_ordered ordered _
  · show Ordered Timer.nextFireMs (removeAt Timer.nextFireMs (rt.schedule top.task).timers 0)
    rw [frame]
    exact removeAt_ordered ordered filled

theorem fireTimer_queued {rt : State} (queued : rt.Queued) {now : Nat} {top : Timer}
    (found : rt.dueTimer now = some top) : (rt.fireTimer now top).Queued := by
  rcases fireTimer_spec found with ⟨_, queue, tasks, _⟩
  intro t
  rw [queue, tasks]
  exact schedule_queued queued top.task t

theorem fireTimer_scheduled {rt : State} {now : Nat} {top : Timer} (found : rt.dueTimer now = some top) (t : TaskId) :
    ((rt.fireTimer now top).tasks t).scheduled = ((rt.tasks t).scheduled || decide (t = top.task)) := by
  rcases fireTimer_spec found with ⟨_, _, tasks, _⟩
  rw [tasks, schedule_tasks]
  by_cases own : t = top.task
  · rw [if_pos own, decide_eq_true own, Bool.or_true]
  · rw [if_neg own, decide_eq_false own, Bool.or_false]

theorem updated_later {now : Nat} (bound : now < 2 ^ 64 - 1) {timer after : Timer} (kept : timer.updated now = some after) :
    after.due now = false := by
  unfold Timer.updated at kept
  split at kept
  · split at kept
    · cases kept
      have later := rearmed_later bound timer.intervalMs
      exact decide_eq_false (by dsimp only; omega)
    · cases kept
  · rename_i late
    cases kept
    exact eq_false_of_ne_true late

theorem updated_of_later {now : Nat} {timer : Timer} (late : timer.due now = false) : timer.updated now = some timer := by
  unfold Timer.updated
  rw [if_neg (by rw [late]; decide)]

theorem fireTimer_fewer {rt : State} {now : Nat} (bound : now < 2 ^ 64 - 1) {top : Timer} (found : rt.dueTimer now = some top) :
    (rt.fireTimer now top).timers.countP (Timer.due now) + 1 = rt.timers.countP (Timer.due now) := by
  rcases dueTimer_mem found with ⟨rest, timers⟩
  have due := dueTimer_due found
  have none_ : (top.updated now).toList.countP (Timer.due now) = 0 := by
    apply List.countP_eq_zero.mpr
    intro after member
    rw [updated_later bound (Option.mem_toList.mp member)]
    decide
  rw [(fireTimer_timers timers due).countP_eq, List.countP_append, none_, timers, List.countP_cons_of_pos due, Nat.zero_add]

theorem fireTimer_updated {rt : State} {now : Nat} (bound : now < 2 ^ 64 - 1) {top : Timer}
    (found : rt.dueTimer now = some top) :
    ((rt.fireTimer now top).timers.filterMap (Timer.updated now)).Perm (rt.timers.filterMap (Timer.updated now)) := by
  rcases dueTimer_mem found with ⟨rest, timers⟩
  have step := (fireTimer_timers timers (dueTimer_due found)).filterMap (Timer.updated now)
  rw [timers]
  cases updated : top.updated now with
  | none =>
    rw [updated] at step
    rw [List.filterMap_cons_none updated]
    exact step
  | some after =>
    rw [updated] at step
    rw [List.filterMap_cons_some updated]
    have still := updated_of_later (updated_later bound updated)
    exact step.trans (by rw [Option.toList_some, List.singleton_append, List.filterMap_cons_some still])

/-! ## The loop -/

structure UpdatesTimers (rt : State) (now : Nat) (after : State) : Prop where
  ended : after.dueTimer now = none
  scheduled : ∀ timer ∈ rt.timers, timer.nextFireMs ≤ now → after.queue.count timer.task = 1
  timers : after.timers.Perm (rt.timers.filterMap (Timer.updated now))
  later : ∀ timer ∈ after.timers, now < timer.nextFireMs
  ordered : Ordered Timer.nextFireMs after.timers
  queued : after.Queued

theorem updateTimers_over {rt : State} {now : Nat} (ended : rt.dueTimer now = none) (turns : Nat) :
    updateTimers turns rt now = rt := by
  cases turns with
  | zero => rfl
  | succ turns =>
    unfold updateTimers
    rw [ended]

theorem updateTimers_next {rt : State} {now : Nat} {top : Timer} (found : rt.dueTimer now = some top) (turns : Nat) :
    updateTimers (turns + 1) rt now = updateTimers turns (rt.fireTimer now top) now := by
  conv => lhs; unfold updateTimers
  rw [found]

theorem updateTimers_scheduled {turns : Nat} {rt : State} {now : Nat} {t : TaskId} (already : (rt.tasks t).scheduled = true) :
    ((updateTimers turns rt now).tasks t).scheduled = true := by
  induction turns generalizing rt with
  | zero => exact already
  | succ turns ih =>
    cases found : rt.dueTimer now with
    | none =>
      rw [updateTimers_over found]
      exact already
    | some top =>
      rw [updateTimers_next found]
      apply ih
      rw [fireTimer_scheduled found, already, Bool.true_or]

theorem updatesTimers_over {rt : State} {now : Nat} (ordered : Ordered Timer.nextFireMs rt.timers) (queued : rt.Queued)
    (ended : rt.dueTimer now = none) : UpdatesTimers rt now rt := by
  have late := later_of_dueTimer ordered ended
  have kept : rt.timers.filterMap (Timer.updated now) = rt.timers := by
    calc rt.timers.filterMap (Timer.updated now) = rt.timers.filterMap some :=
          List.filterMap_congr fun timer member => updated_of_later (late timer member)
      _ = rt.timers := List.filterMap_some
  refine ⟨ended, ?_, by rw [kept], ?_, ordered, queued⟩
  · intro timer member due
    exact absurd due (of_decide_eq_false (late timer member))
  · intro timer member
    exact Nat.lt_of_not_le (of_decide_eq_false (late timer member))

theorem updateTimers_updates {turns : Nat} {rt : State} {now : Nat} (bound : now < 2 ^ 64 - 1)
    (ordered : Ordered Timer.nextFireMs rt.timers) (queued : rt.Queued) (enough : rt.timers.countP (Timer.due now) ≤ turns) :
    UpdatesTimers rt now (updateTimers turns rt now) := by
  induction turns generalizing rt with
  | zero =>
    have late : ∀ timer ∈ rt.timers, ¬timer.due now = true := List.countP_eq_zero.mp (Nat.le_zero.mp enough)
    have none_ : rt.dueTimer now = none := by
      cases found : rt.dueTimer now with
      | none => rfl
      | some top =>
        rcases dueTimer_mem found with ⟨rest, timers⟩
        have member : top ∈ rt.timers := by rw [timers]; exact List.mem_cons_self ..
        exact absurd (dueTimer_due found) (late top member)
    exact updatesTimers_over ordered queued none_
  | succ turns ih =>
    cases found : rt.dueTimer now with
    | none =>
      rw [updateTimers_over found]
      exact updatesTimers_over ordered queued found
    | some top =>
      rw [updateTimers_next found]
      have fewer := fireTimer_fewer bound found
      have rest := ih (fireTimer_ordered ordered found) (fireTimer_queued queued found) (by omega)
      rcases dueTimer_mem found with ⟨others, timers⟩
      refine ⟨rest.ended, ?_, rest.timers.trans (fireTimer_updated bound found), rest.later, rest.ordered, rest.queued⟩
      intro timer member due
      rw [timers] at member
      rcases List.mem_cons.mp member with rfl | other
      · have scheduled : ((rt.fireTimer now timer).tasks timer.task).scheduled = true := by
          rw [fireTimer_scheduled found, decide_eq_true rfl, Bool.or_true]
        rw [rest.queued, updateTimers_scheduled scheduled]
        rfl
      · apply rest.scheduled timer _ due
        exact (fireTimer_timers timers (dueTimer_due found)).mem_iff.mpr (List.mem_append_right _ other)

theorem updateTimers_more {rt : State} {now turns : Nat} (ended : (updateTimers turns rt now).dueTimer now = none) (more : Nat) :
    updateTimers (turns + more) rt now = updateTimers turns rt now := by
  induction turns generalizing rt with
  | zero => exact updateTimers_over ended _
  | succ turns ih =>
    rw [Nat.succ_add]
    cases found : rt.dueTimer now with
    | none => rw [updateTimers_over found, updateTimers_over found]
    | some top =>
      rw [updateTimers_next found] at ended
      rw [updateTimers_next found, updateTimers_next found]
      exact ih ended

/-- The loop comes to its end, and it has fired what was due and left alone what was not. -/
theorem updateTimers_exact {rt : State} {now : Nat} (bound : now < 2 ^ 64 - 1)
    (ordered : Ordered Timer.nextFireMs rt.timers) (queued : rt.Queued) :
    ∃ after, (∀ turns, rt.timers.length ≤ turns → updateTimers turns rt now = after) ∧ UpdatesTimers rt now after := by
  have few : rt.timers.countP (Timer.due now) ≤ rt.timers.length := List.countP_le_length
  have updates := updateTimers_updates bound ordered queued few
  refine ⟨updateTimers rt.timers.length rt now, ?_, updates⟩
  intro turns enough
  rcases Nat.exists_eq_add_of_le enough with ⟨more, rfl⟩
  exact updateTimers_more updates.ended more

/-- A timer that fires once, one that fires in each tick, one that fires every tenth, and one that waits. -/
def dueTimers : State :=
  { queue := [7]
    timers := [⟨0, 3, true, 1⟩, ⟨5, 4, false, 2⟩, ⟨10, 8, true, 7⟩, ⟨9, 30, false, 4⟩]
    tasks := fun t => { scheduled := t = 7 } }

theorem updateTimers_exact_due : ∃ after,
    (∀ turns, 4 ≤ turns → updateTimers turns dueTimers 20 = after) ∧ UpdatesTimers dueTimers 20 after := by
  have all : ∀ i, i < dueTimers.timers.length → 0 < i → keyAt Timer.nextFireMs dueTimers.timers (parent i) ≤
      keyAt Timer.nextFireMs dueTimers.timers i := by decide
  have queued : dueTimers.Queued := by
    intro t
    show [7].count t = (decide (t = 7)).toNat
    by_cases own : t = 7
    · subst own
      rfl
    · rw [decide_eq_false own, List.count_singleton, if_neg (by simpa using Ne.symm own)]
      rfl
  exact updateTimers_exact (by decide) (fun i first inside => all i inside first) queued

example : (updateTimers 4 dueTimers 20).queue = [7, 1, 2] := by decide

end State

namespace Machine

/-- Turns of the runtime's own loops, without the program. -/
def advances : Nat → Machine → Option Machine
  | 0, m => some m
  | n + 1, m => m.advance.bind (advances n)

theorem advances_timers {m : Machine} {now : Nat} {rest : List Frame} (top : m.stack = .timers now :: rest) {turns : Nat}
    (ended : (State.updateTimers turns m.rt now).dueTimer now = none) : ∃ n ≤ turns + 1,
      advances n m = some { m with rt := State.updateTimers turns m.rt now, stack := rest } := by
  induction turns generalizing m with
  | zero =>
    refine ⟨1, Nat.le_refl _, ?_⟩
    replace ended : m.rt.dueTimer now = none := ended
    unfold advances advance
    rw [top]
    dsimp only
    rw [ended]
    rfl
  | succ turns ih =>
    cases found : m.rt.dueTimer now with
    | none =>
      refine ⟨1, by omega, ?_⟩
      rw [State.updateTimers_over found]
      unfold advances advance
      rw [top]
      dsimp only
      rw [found]
      rfl
    | some timer =>
      rw [State.updateTimers_next found] at ended ⊢
      rcases @ih { m with rt := m.rt.fireTimer now timer } top ended with ⟨n, few, reached⟩
      refine ⟨n + 1, by omega, ?_⟩
      have step : m.advance = some { m with rt := m.rt.fireTimer now timer } := by
        unfold advance
        rw [top]
        dsimp only
        rw [found]
      unfold advances
      rw [step]
      exact reached

end Machine
end BlueBird.Runtime
