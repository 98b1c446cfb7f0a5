import BlueBird.Collections.HeapOrder
import BlueBird.Runtime.State
import Mathlib.Data.List.Induction

namespace BlueBird.Runtime

open BinaryHeap

/-- `bb_timer_heap_remove_task`: what it returns, and the heap it leaves. -/
def timerHeapRemoveTask (heap : List Timer) (task : TaskId) : Nat × List Timer :=
  removeCounting Timer.nextFireMs (·.task = task) heap.length 0 0 heap

theorem timerHeapRemoveTask_ends (heap : List Timer) (task : TaskId) (more : Nat) :
    removeCounting Timer.nextFireMs (·.task = task) (heap.length + more) 0 0 heap = timerHeapRemoveTask heap task := by
  induction more with
  | zero => rfl
  | succ more ih =>
    rw [← ih, ← Nat.add_assoc]
    exact removeCounting_stable (by omega)

theorem removeTimers_eq (rt : State) (task : TaskId) :
    (rt.removeTimers task).timers = (timerHeapRemoveTask rt.timers task).2 :=
  (removeCounting_eq rt.timers.length 0 0 rt.timers).1.symm

structure RemovesTask (heap : List Timer) (task : TaskId) (result : Nat × List Timer) : Prop where
  gone : ∀ timer ∈ result.2, timer.task ≠ task
  kept : (result.2.filter fun timer => timer.task ≠ task).Perm (heap.filter fun timer => timer.task ≠ task)
  ordered : Ordered Timer.nextFireMs result.2
  counted : result.1 = heap.countP fun timer => timer.task = task

/-- No removal puts a timer of the task where it moves up, to what the scan has passed. -/
def SteadyRemoval (heap : List Timer) (task : TaskId) : Prop :=
  Steady Timer.nextFireMs (fun timer : Timer => timer.task = task) heap.length 0 heap

theorem timerHeapRemoveTask_removes {heap : List Timer} {task : TaskId} (ordered : Ordered Timer.nextFireMs heap)
    (steady : SteadyRemoval heap task) : RemovesTask heap task (timerHeapRemoveTask heap task) := by
  rcases @removeCounting_eq Timer Timer.nextFireMs (fun timer => timer.task = task) heap.length 0 0 heap with ⟨same, total⟩
  have heap_ : (timerHeapRemoveTask heap task).2 =
      removeAll Timer.nextFireMs (fun timer => timer.task = task) heap.length 0 heap := same
  have others := removeAll_filter Timer.nextFireMs (fun timer : Timer => timer.task = task) heap.length 0 heap
  have gone := removeAll_gone ordered (by omega) (fun j front => by omega) steady
  have negated : (fun timer : Timer => !decide (timer.task = task)) = fun timer : Timer => decide (timer.task ≠ task) := by
    funext timer
    exact (decide_not).symm
  rw [negated] at others
  have all : (removeAll Timer.nextFireMs (fun timer => timer.task = task) heap.length 0 heap).filter
      (fun timer => timer.task ≠ task) = removeAll Timer.nextFireMs (fun timer => timer.task = task) heap.length 0 heap := by
    apply List.filter_eq_self.mpr
    intro timer member
    have other := gone timer member
    simpa using other
  constructor
  · intro timer member
    rw [heap_] at member
    exact of_decide_eq_false (gone timer member)
  · rw [heap_]
    exact others
  · rw [heap_]
    exact removeAll_ordered ordered
  · have lengths := others.length_eq
    rw [all, ← List.countP_eq_length_filter] at lengths
    have parts := @List.length_eq_countP_add_countP Timer (fun timer => decide (timer.task = task)) heap
    have other : heap.countP (fun timer => decide ¬decide (timer.task = task) = true) = heap.countP fun timer => decide (timer.task ≠ task) := by
      apply List.countP_congr
      intro timer _
      simp
    show (removeCounting Timer.nextFireMs (fun timer => timer.task = task) heap.length 0 0 heap).1 = _
    omega

def timerOf (entry : Nat × TaskId) : Timer where
  intervalMs := 0
  nextFireMs := entry.1
  repeating := false
  task := entry.2

def steadyHeap : List Timer := [(1, 2), (3, 1), (2, 2), (4, 1), (5, 2)].map timerOf

theorem steadyHeap_ordered : Ordered Timer.nextFireMs steadyHeap := by
  have all : ∀ i, i < steadyHeap.length → 0 < i →
      keyAt Timer.nextFireMs steadyHeap (parent i) ≤ keyAt Timer.nextFireMs steadyHeap i := by decide
  exact fun i first bound => all i bound first

theorem timerHeapRemoveTask_removes_two : RemovesTask steadyHeap 1 (2, [(1, 2), (5, 2), (2, 2)].map timerOf) := by
  have steady : SteadyRemoval steadyHeap 1 := by
    refine ⟨?_, ?_, trivial⟩
    · intro _ _ last found own
      cases found
      cases own
    · intro _ _ last found own
      cases found
      cases own
  have result : timerHeapRemoveTask steadyHeap 1 = (2, [(1, 2), (5, 2), (2, 2)].map timerOf) := by decide
  rw [← result]
  exact timerHeapRemoveTask_removes steadyHeap_ordered steady

/-- The timer of task 1 at the end takes the place of the other one, and moves up in front of the scan. -/
def strayHeap : List Timer := [(1, 2), (10, 2), (2, 2), (11, 1), (12, 2), (3, 1)].map timerOf

theorem not_removesTask_stray :
    Ordered Timer.nextFireMs strayHeap ∧ ¬ RemovesTask strayHeap 1 (timerHeapRemoveTask strayHeap 1) := by
  have all : ∀ i, i < strayHeap.length → 0 < i →
      keyAt Timer.nextFireMs strayHeap (parent i) ≤ keyAt Timer.nextFireMs strayHeap i := by decide
  refine ⟨fun i first bound => all i bound first, ?_⟩
  intro removes
  have left : timerOf (3, 1) ∈ (timerHeapRemoveTask strayHeap 1).2 := by decide
  exact removes.gone _ left rfl

/-! ## The heap and its operations -/

/-- `bb_timer_heap_t`, as it is created; `count` is the number of the items. -/
structure TimerHeap where
  items : List Timer := []
  capacity : Nat := 16
  deriving DecidableEq, Repr

namespace TimerHeap

/-- `_grow`; `realloc` is whether there is memory for the larger array. -/
def grow (heap : TimerHeap) (realloc : Bool) : Option TimerHeap :=
  if realloc then some { heap with capacity := heap.capacity * 2 } else none

/-- `bb_timer_heap_push`, with what it returns. -/
def push (heap : TimerHeap) (timer : Timer) (realloc : Bool) : TimerHeap × Int :=
  match if heap.items.length ≥ heap.capacity then heap.grow realloc else some heap with
  | none => (heap, -1)
  | some heap => ({ heap with items := BinaryHeap.push Timer.nextFireMs heap.items timer }, 0)

/-- `bb_timer_heap_peek` -/
def peek (heap : TimerHeap) : Option Timer := heap.items.head?

/-- `_remove_at` -/
def removeAt (heap : TimerHeap) (idx : Nat) : TimerHeap :=
  { heap with items := BinaryHeap.removeAt Timer.nextFireMs heap.items idx }

/-- `bb_timer_heap_pop` -/
def pop (heap : TimerHeap) : TimerHeap := if heap.items = [] then heap else heap.removeAt 0

/-- `bb_timer_heap_reschedule_top` -/
def rescheduleTop (heap : TimerHeap) (newNextFireMs : Nat) : TimerHeap :=
  if heap.items = [] then heap
  else
    { heap with
      items := BinaryHeap.rescheduleTop Timer.nextFireMs heap.items fun timer => { timer with nextFireMs := newNextFireMs } }

/-- `bb_timer_heap_remove_task`, with what it returns. -/
def removeTask (heap : TimerHeap) (task : TaskId) : TimerHeap × Nat :=
  ({ heap with items := (timerHeapRemoveTask heap.items task).2 }, (timerHeapRemoveTask heap.items task).1)

def MinHeap (heap : TimerHeap) : Prop := Ordered Timer.nextFireMs heap.items

/-- What the operations leave: a heap, with the entries there are to be. -/
structure HeapKept (heap : TimerHeap) : Prop where
  pushed : ∀ timer realloc, (heap.push timer realloc).1.MinHeap ∧
    ((heap.push timer realloc).2 = 0 ∧ (heap.push timer realloc).1.items.Perm (timer :: heap.items) ∨
      (heap.push timer realloc).2 = -1 ∧ (heap.push timer realloc).1 = heap)
  peeked : (heap.peek = none ↔ heap.items = []) ∧
    ∀ top, heap.peek = some top → top ∈ heap.items ∧ ∀ timer ∈ heap.items, top.nextFireMs ≤ timer.nextFireMs
  popped : heap.pop.MinHeap ∧ (heap.items = [] → heap.pop = heap) ∧
    ∀ top, heap.peek = some top → heap.items.Perm (top :: heap.pop.items)
  rescheduled : ∀ newNextFireMs, (heap.rescheduleTop newNextFireMs).MinHeap ∧
    (heap.items = [] → heap.rescheduleTop newNextFireMs = heap) ∧
    ∀ top rest, heap.items = top :: rest →
      (heap.rescheduleTop newNextFireMs).items.Perm ({ top with nextFireMs := newNextFireMs } :: rest)
  removed : ∀ idx timer, heap.items[idx]? = some timer →
    (heap.removeAt idx).MinHeap ∧ heap.items.Perm (timer :: (heap.removeAt idx).items)

variable {heap : TimerHeap}

theorem push_cases (heap : TimerHeap) (timer : Timer) (realloc : Bool) :
    heap.push timer realloc = (heap, -1) ∨ ∃ capacity,
      heap.push timer realloc = ({ capacity, items := BinaryHeap.push Timer.nextFireMs heap.items timer }, 0) ∧
        (heap.items.length < capacity ∨ capacity = heap.capacity * 2) := by
  unfold push grow
  by_cases full : heap.items.length ≥ heap.capacity
  · rw [if_pos full]
    cases realloc with
    | false => exact .inl rfl
    | true => exact .inr ⟨heap.capacity * 2, rfl, .inr rfl⟩
  · rw [if_neg full]
    exact .inr ⟨heap.capacity, rfl, .inl (Nat.lt_of_not_le full)⟩

theorem peek_least (ordered : heap.MinHeap) {top : Timer} (found : heap.peek = some top) :
    top ∈ heap.items ∧ ∀ timer ∈ heap.items, top.nextFireMs ≤ timer.nextFireMs := by
  refine ⟨List.mem_of_head? found, ?_⟩
  intro timer member
  rcases List.getElem?_of_mem member with ⟨i, here⟩
  have first : heap.items[0]? = some top := by rw [← List.head?_eq_getElem?]; exact found
  have least := ordered.root (List.getElem?_eq_some_iff.mp here).1
  rw [keyAt_eq first, keyAt_eq here] at least
  exact least

theorem pop_kept (ordered : heap.MinHeap) : heap.pop.MinHeap := by
  unfold pop
  by_cases empty : heap.items = []
  · rw [if_pos empty]
    exact ordered
  · rw [if_neg empty]
    exact removeAt_ordered ordered (List.length_pos_iff.mpr empty)

theorem rescheduleTop_kept (ordered : heap.MinHeap) (newNextFireMs : Nat) : (heap.rescheduleTop newNextFireMs).MinHeap := by
  unfold rescheduleTop
  split
  · exact ordered
  · exact rescheduleTop_ordered ordered _

theorem push_kept (ordered : heap.MinHeap) (timer : Timer) (realloc : Bool) : (heap.push timer realloc).1.MinHeap := by
  rcases heap.push_cases timer realloc with same | ⟨_, same, _⟩
  · rw [same]
    exact ordered
  · rw [same]
    exact push_ordered ordered timer

inductive HeapCall where
  | push (timer : Timer) (realloc : Bool)
  | pop
  | rescheduleTop (newNextFireMs : Nat)
  | removeTask (task : TaskId)
  deriving DecidableEq, Repr

def call (heap : TimerHeap) : HeapCall → TimerHeap
  | .push timer realloc => (heap.push timer realloc).1
  | .pop => heap.pop
  | .rescheduleTop newNextFireMs => heap.rescheduleTop newNextFireMs
  | .removeTask task => (heap.removeTask task).1

def run (calls : List HeapCall) : TimerHeap := calls.foldl call {}

/-- A heap in an array that has room for it, and for a first timer. -/
structure Valid (heap : TimerHeap) : Prop where
  ordered : heap.MinHeap
  fits : heap.items.length ≤ heap.capacity
  room : 0 < heap.capacity

theorem Valid.fewer (valid : heap.Valid) {items : List Timer} (ordered : Ordered Timer.nextFireMs items)
    (fewer : items.length ≤ heap.items.length) : Valid { heap with items } :=
  ⟨ordered, Nat.le_trans fewer valid.fits, valid.room⟩

theorem Valid.push (valid : heap.Valid) (timer : Timer) (realloc : Bool) : (heap.push timer realloc).1.Valid := by
  have ordered := push_kept valid.ordered timer realloc
  rcases heap.push_cases timer realloc with same | ⟨capacity, same, enough⟩
  · rw [same]
    exact valid
  · have one := (push_perm Timer.nextFireMs heap.items timer).length_eq
    rw [List.length_cons] at one
    have fits := valid.fits
    have room := valid.room
    rw [same] at ordered ⊢
    refine ⟨ordered, ?_, ?_⟩
    · show (BinaryHeap.push Timer.nextFireMs heap.items timer).length ≤ capacity
      omega
    · show 0 < capacity
      omega

theorem Valid.call (valid : heap.Valid) (call : HeapCall) : (heap.call call).Valid := by
  cases call with
  | push timer realloc => exact valid.push timer realloc
  | pop =>
    show heap.pop.Valid
    unfold pop
    split
    · exact valid
    · rename_i some_
      have bound := List.length_pos_iff.mpr some_
      have shorter := @length_removeAt Timer Timer.nextFireMs heap.items 0 bound
      exact valid.fewer (removeAt_ordered valid.ordered bound) (by omega)
  | rescheduleTop newNextFireMs =>
    show (heap.rescheduleTop newNextFireMs).Valid
    unfold rescheduleTop
    split
    · exact valid
    · refine valid.fewer (rescheduleTop_ordered valid.ordered _) ?_
      cases heap.items with
      | nil => exact Nat.le_refl _
      | cons top rest => exact Nat.le_of_eq (rescheduleTop_perm Timer.nextFireMs top rest _).length_eq
  | removeTask task =>
    rcases @removeCounting_eq Timer Timer.nextFireMs (fun timer => timer.task = task) heap.items.length 0 0 heap.items with
      ⟨same, total⟩
    refine valid.fewer ?_ ?_
    · show Ordered Timer.nextFireMs (removeCounting Timer.nextFireMs _ _ _ _ _).2
      rw [same]
      exact removeAll_ordered valid.ordered
    · show (removeCounting Timer.nextFireMs (fun timer => timer.task = task) _ _ _ _).2.length ≤ _
      rw [same]
      omega

theorem run_valid (calls : List HeapCall) : (run calls).Valid := by
  induction calls using List.reverseRecOn with
  | nil => exact ⟨fun i _ bound => absurd bound (Nat.not_lt_zero i), Nat.zero_le _, by decide⟩
  | append_singleton calls last ih =>
    unfold run
    rw [List.foldl_append, List.foldl_cons, List.foldl_nil]
    exact ih.call last

end TimerHeap

/-! ## The heap of the runtime -/

theorem pushTimer_timers (rt : State) (timer : Timer) (capacity : Nat) :
    (rt.pushTimer timer).timers = (TimerHeap.push ⟨rt.timers, capacity⟩ timer true).1.items := by
  unfold TimerHeap.push
  by_cases full : rt.timers.length ≥ capacity
  · rw [if_pos full]
    rfl
  · rw [if_neg full]
    rfl

theorem fireTimer_timers (rt : State) (now : Nat) {top : Timer} {rest : List Timer} (timers : rt.timers = top :: rest)
    (capacity : Nat) :
    (rt.fireTimer now top).timers =
      if top.repeating then (TimerHeap.rescheduleTop ⟨rt.timers, capacity⟩ (State.rearmed now top.intervalMs)).items
      else (TimerHeap.pop ⟨rt.timers, capacity⟩).items := by
  have scheduled : (rt.schedule top.task).timers = rt.timers := by
    unfold State.schedule
    split <;> rfl
  have some_ : rt.timers ≠ [] := by
    rw [timers]
    exact List.cons_ne_nil _ _
  unfold State.fireTimer TimerHeap.rescheduleTop TimerHeap.pop
  rw [if_neg some_, if_neg some_]
  dsimp only
  rw [scheduled]
  split <;> rfl

end BlueBird.Runtime
