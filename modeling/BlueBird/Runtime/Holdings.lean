import BlueBird.Runtime.Operations

namespace BlueBird.Runtime

open SwapRemove

/-! ## What refers to a task -/

def Timer.mode (timer : Timer) : WatchMode := if timer.repeating then .persistent else .oneshot

namespace State

/-- Watchers and timers of a task that fire once, or that stay. -/
def held (rt : State) (mode : WatchMode) (t : TaskId) : Nat :=
  (rt.watchers.countP fun w => w.task = t ∧ w.mode = mode) +
    rt.timers.countP fun timer => timer.task = t ∧ timer.mode = mode

/-- A task is in the queue once when it is flagged as scheduled, and else not at all. -/
def Queued (rt : State) : Prop := ∀ t, rt.queue.count t = (rt.tasks t).scheduled.toNat

theorem held_perm {rt rt' : State} (watchers : rt'.watchers.Perm rt.watchers)
    (timers : rt'.timers.Perm rt.timers) : rt'.held = rt.held := by
  funext mode t
  unfold held
  rw [watchers.countP_eq, timers.countP_eq]

theorem held_none {rt : State} {t : TaskId} (none : rt.held .oneshot t + rt.held .persistent t = 0) :
    (∀ w ∈ rt.watchers, w.task ≠ t) ∧ ∀ timer ∈ rt.timers, timer.task ≠ t := by
  have each (mode : WatchMode) : rt.held mode t = 0 := by
    cases mode
    · omega
    · omega
  have parts (mode : WatchMode) := Nat.add_eq_zero_iff.mp (each mode)
  constructor
  · intro w member same
    have absent := List.countP_eq_zero.mp (parts w.mode).1 w member
    simp [same] at absent
  · intro timer member same
    have absent := List.countP_eq_zero.mp (parts timer.mode).2 timer member
    simp [same] at absent

/-! ## The queue -/

theorem modifyTask_tasks (rt : State) (t : TaskId) (f : Task → Task) (u : TaskId) :
    (rt.modifyTask t f).tasks u = if u = t then f (rt.tasks u) else rt.tasks u := rfl

theorem schedule_tasks (rt : State) (t u : TaskId) :
    (rt.schedule t).tasks u = if u = t then { rt.tasks u with scheduled := true } else rt.tasks u := by
  unfold schedule
  by_cases already : (rt.tasks t).scheduled = true
  · rw [if_pos already]
    by_cases same : u = t
    · subst same
      rw [if_pos rfl, ← already]
    · rw [if_neg same]
  · rw [if_neg already]
    rfl

theorem modifyTask_queued {rt : State} (queued : rt.Queued) (t : TaskId) (f : Task → Task)
    (same : (f (rt.tasks t)).scheduled = (rt.tasks t).scheduled) : (rt.modifyTask t f).Queued := by
  intro u
  rw [modifyTask_tasks]
  by_cases here : u = t
  · subst here
    rw [if_pos rfl, same]
    exact queued u
  · rw [if_neg here]
    exact queued u

theorem schedule_queued {rt : State} (queued : rt.Queued) (t : TaskId) : (rt.schedule t).Queued := by
  intro u
  rw [schedule_tasks]
  unfold schedule
  by_cases already : (rt.tasks t).scheduled = true
  · rw [if_pos already, queued u]
    by_cases same : u = t
    · subst same
      rw [if_pos rfl, already]
    · rw [if_neg same]
  · rw [if_neg already]
    show (rt.queue ++ [t]).count u = _
    rw [List.count_append, queued u]
    by_cases same : u = t
    · subst same
      simp [eq_false_of_ne_true already]
    · simp [same, Ne.symm same]

theorem mem_queue_iff {rt : State} (queued : rt.Queued) (t : TaskId) :
    t ∈ rt.queue ↔ (rt.tasks t).scheduled = true := by
  rw [← List.count_pos_iff, queued t]
  cases (rt.tasks t).scheduled
  · decide
  · decide

@[simp] theorem held_modifyTask (rt : State) (t : TaskId) (f : Task → Task) : (rt.modifyTask t f).held = rt.held := rfl

@[simp] theorem held_schedule (rt : State) (t : TaskId) : (rt.schedule t).held = rt.held :=
  held_perm (by rw [(schedule_frame rt t).2.1]) (by rw [(schedule_frame rt t).2.2.1])

/-! ## Cancelling -/

theorem removeTimers_perm (rt : State) (t : TaskId) (single : rt.held .oneshot t + rt.held .persistent t ≤ 1) :
    (rt.removeTimers t).timers.Perm (rt.timers.filter fun timer => timer.task ≠ t) := by
  have mine : (rt.timers.countP fun timer => timer.task = t) =
      (rt.timers.countP fun timer => timer.task = t ∧ timer.mode = .oneshot) +
        rt.timers.countP fun timer => timer.task = t ∧ timer.mode = .persistent := by
    induction rt.timers with
    | nil => rfl
    | cons timer timers ih =>
      simp only [List.countP_cons, ih]
      by_cases same : timer.task = t
      · cases mode : timer.mode
        · simp [same]
          omega
        · simp [same]
          omega
      · simp [same]
  have one : (rt.timers.countP fun timer => timer.task = t) ≤ 1 := by
    unfold held at single
    omega
  have others := BinaryHeap.removeAll_filter Timer.nextFireMs (·.task = t) rt.timers.length 0 rt.timers
  have clear := BinaryHeap.removeAll_clear Timer.nextFireMs (·.task = t) rt.timers.length 0 rt.timers
    (by omega) (by simp) one
  rw [List.filter_eq_self.mpr (by simpa using clear)] at others
  simpa [removeTimers] using others

theorem finishCancel_watchers (rt : State) (t : TaskId) :
    (rt.finishCancel t).watchers.Perm (rt.watchers.filter fun w => w.task ≠ t) := by
  unfold finishCancel
  rw [(schedule_frame _ t).2.1]
  exact (rt.removeWatchers_spec t).1

theorem finishCancel_timers (rt : State) (t : TaskId) (single : rt.held .oneshot t + rt.held .persistent t ≤ 1) :
    (rt.finishCancel t).timers.Perm (rt.timers.filter fun timer => timer.task ≠ t) := by
  unfold finishCancel
  rw [(schedule_frame _ t).2.2.1]
  have kept := (rt.removeWatchers_spec t).1
  apply removeTimers_perm (rt.removeWatchers t) t
  have fewer (mode : WatchMode) : (rt.removeWatchers t).held mode t ≤ rt.held mode t := by
    unfold held
    rw [kept.countP_eq]
    exact Nat.add_le_add_right List.filter_sublist.countP_le _
  have once := fewer .oneshot
  have stays := fewer .persistent
  omega

theorem finishCancel_held (rt : State) (t : TaskId) (single : rt.held .oneshot t + rt.held .persistent t ≤ 1)
    (mode : WatchMode) (u : TaskId) : (rt.finishCancel t).held mode u = if u = t then 0 else rt.held mode u := by
  unfold held
  rw [(rt.finishCancel_watchers t).countP_eq, (rt.finishCancel_timers t single).countP_eq, List.countP_filter,
    List.countP_filter]
  by_cases same : u = t
  · subst same
    rw [if_pos rfl]
    simp only [Nat.add_eq_zero_iff, List.countP_eq_zero]
    constructor
    · intro w _
      simp +contextual
    · intro timer _
      simp +contextual
  · rw [if_neg same]
    congr 1
    · apply List.countP_congr
      intro w _
      by_cases own : w.task = u <;> simp [own, same]
    · apply List.countP_congr
      intro timer _
      by_cases own : timer.task = u <;> simp [own, same]

theorem finishCancel_tasks (rt : State) (t u : TaskId) : (rt.finishCancel t).tasks u =
    if u = t then { rt.tasks u with scheduled := true } else rt.tasks u := schedule_tasks _ t u

theorem finishCancel_queued {rt : State} (queued : rt.Queued) (t : TaskId) : (rt.finishCancel t).Queued := by
  have bare : ((rt.removeWatchers t).removeTimers t).Queued := queued
  exact schedule_queued bare t

/-! ## Unwatching -/

theorem swapRemove_held (rt : State) (i : Nat) (w : Watcher) (found : rt.watchers[i]? = some w) (mode : WatchMode)
    (u : TaskId) : rt.held mode u =
      { rt with watchers := swapRemove rt.watchers i }.held mode u + if w.task = u ∧ w.mode = mode then 1 else 0 := by
  unfold held
  rw [(swapRemove_perm rt.watchers i w found).countP_eq, List.countP_cons]
  simp only [decide_eq_true_eq]
  omega

/-! ## Watching -/

theorem placeWatcher_replace (rt : State) {fd : Fd} {events : Events} {idx : Nat}
    (found : rt.findWatcherExact fd events = some idx) (mode : WatchMode) {t : TaskId}
    (other : ∀ w ∈ rt.watchers, w.task ≠ t) :
    ∃ w rest placed, rt.placeWatcher fd events mode t = (placed, some w.task) ∧ w.fd = fd ∧ w.events = events ∧
      rt.watchers.Perm (w :: rest) ∧ placed.watchers.Perm (⟨fd, events, mode, t⟩ :: rest) ∧
      placed.timers = rt.timers ∧ placed.queue = rt.queue ∧ placed.poller = rt.poller ∧
      placed.tasks = (if mode = .persistent then rt.markPersistent t else rt).tasks := by
  rcases modify_split _ rt.watchers idx found (fun w => { w with mode, task := t }) with
    ⟨w, rest, here, same, before, after, _⟩
  rcases of_decide_eq_true same with ⟨rfl, rfl⟩
  have differs : (some w.task).filter (fun old => decide (old ≠ t)) = some w.task := by
    simp [other w (List.mem_of_getElem? here)]
  refine ⟨w, rest, { (if mode = .persistent then rt.markPersistent t else rt) with
    watchers := rt.watchers.modify idx fun w => { w with mode, task := t } }, ?_, rfl, rfl, before, after, ?_⟩
  · unfold placeWatcher
    simp only [found, here, Option.map_some, differs]
  · cases mode
    · exact ⟨rfl, rfl, rfl, rfl⟩
    · exact ⟨rfl, rfl, rfl, rfl⟩

theorem placeWatcher_append (rt : State) {fd : Fd} {events : Events}
    (absent : rt.findWatcherExact fd events = none) (mode : WatchMode) (t : TaskId) :
    ∃ placed, rt.placeWatcher fd events mode t = (placed, none) ∧
      placed.watchers = rt.watchers ++ [⟨fd, events, mode, t⟩] ∧ placed.timers = rt.timers ∧
      placed.queue = rt.queue ∧ placed.tasks = (if mode = .persistent then rt.markPersistent t else rt).tasks := by
  unfold placeWatcher
  simp only [absent]
  refine ⟨_, rfl, rfl, ?_⟩
  cases mode
  · exact ⟨rfl, rfl, rfl⟩
  · exact ⟨rfl, rfl, rfl⟩

/-! ## Timers -/

theorem pushTimer_held (rt : State) (timer : Timer) (mode : WatchMode) (u : TaskId) :
    (rt.pushTimer timer).held mode u = rt.held mode u + if timer.task = u ∧ timer.mode = mode then 1 else 0 := by
  unfold held pushTimer
  rw [(BinaryHeap.push_perm Timer.nextFireMs rt.timers timer).countP_eq, List.countP_cons]
  simp only [decide_eq_true_eq]
  omega

theorem dueTimer_mem {rt : State} {now : Nat} {top : Timer} (due : rt.dueTimer now = some top) :
    ∃ rest, rt.timers = top :: rest := by
  unfold dueTimer at due
  cases timers : rt.timers with
  | nil => rw [timers] at due; cases due
  | cons timer rest =>
    rw [timers, List.head?_cons, Option.filter_eq_some_iff, Option.some_inj] at due
    exact ⟨rest, by rw [due.1]⟩

theorem fireTimer_spec {rt : State} {now : Nat} {top : Timer} (due : rt.dueTimer now = some top) :
    (rt.fireTimer now top).watchers = rt.watchers ∧ (rt.fireTimer now top).queue = (rt.schedule top.task).queue ∧
      (rt.fireTimer now top).tasks = (rt.schedule top.task).tasks ∧
      ∀ mode u, (rt.fireTimer now top).held mode u =
        rt.held mode u - if top.task = u ∧ top.repeating = false ∧ mode = .oneshot then 1 else 0 := by
  rcases dueTimer_mem due with ⟨rest, timers⟩
  have frame := schedule_frame rt top.task
  unfold fireTimer
  dsimp only
  by_cases repeating : top.repeating = true
  · rw [if_pos repeating]
    refine ⟨frame.2.1, rfl, rfl, ?_⟩
    intro mode u
    unfold held
    dsimp only
    rw [frame.2.1, frame.2.2.1, timers, (BinaryHeap.rescheduleTop_perm _ _ _ _).countP_eq]
    simp [List.countP_cons, repeating, Timer.mode]
  · rw [if_neg repeating]
    refine ⟨frame.2.1, rfl, rfl, ?_⟩
    intro mode u
    have removed := (BinaryHeap.removeAt_perm Timer.nextFireMs rt.timers 0 top (by rw [timers]; rfl)).countP_eq
      fun timer => timer.task = u ∧ timer.mode = mode
    unfold held
    dsimp only
    rw [frame.2.1, frame.2.2.1, removed, List.countP_cons]
    cases mode
    · simp [repeating, Timer.mode]
      omega
    · simp [repeating, Timer.mode]

/-! ## Dispatch -/

theorem deliver_spec (ready : PollFd) (order : List Watcher) (rt : State) :
    (order.foldl (deliver ready) rt).watchers = rt.watchers ∧ (order.foldl (deliver ready) rt).timers = rt.timers ∧
      (rt.Queued → (order.foldl (deliver ready) rt).Queued) ∧
      ∀ u, (order.foldl (deliver ready) rt).tasks u =
        if ∃ w ∈ order, w.matches ready = true ∧ w.task = u then { rt.tasks u with scheduled := true }
        else rt.tasks u := by
  induction order generalizing rt with
  | nil => simp
  | cons w order ih =>
    have one : (rt.deliver ready w).watchers = rt.watchers ∧ (rt.deliver ready w).timers = rt.timers ∧
        (rt.Queued → (rt.deliver ready w).Queued) ∧ ∀ u, (rt.deliver ready w).tasks u =
          if w.matches ready = true ∧ w.task = u then { rt.tasks u with scheduled := true } else rt.tasks u := by
      have frame := schedule_frame rt w.task
      unfold deliver
      by_cases hit : w.matches ready = true
      · simp only [hit, true_and]
        have tasks (u : TaskId) : (rt.schedule w.task).tasks u =
            if w.task = u then { rt.tasks u with scheduled := true } else rt.tasks u := by
          simp only [schedule_tasks, eq_comm]
        by_cases once : w.mode = .oneshot
        · rw [if_pos once]
          exact ⟨frame.2.1, frame.2.2.1, fun queued => schedule_queued queued w.task, tasks⟩
        · rw [if_neg once]
          exact ⟨frame.2.1, frame.2.2.1, fun queued => schedule_queued queued w.task, tasks⟩
      · simp [hit]
    rcases ih (rt.deliver ready w) with ⟨watchers, timers, queued, tasks⟩
    rw [List.foldl_cons]
    refine ⟨watchers.trans one.1, timers.trans one.2.1, fun before => queued (one.2.2.1 before), ?_⟩
    intro u
    rw [tasks, one.2.2.2 u]
    by_cases here : w.matches ready = true ∧ w.task = u
    · simp [here]
    · simp [here]

theorem dispatchEvent_queued {rt : State} (queued : rt.Queued) (ready : PollFd) : (rt.dispatchEvent ready).Queued := by
  rcases rt.dispatchEvent_spec ready with ⟨order, kept, _, after, _⟩
  rw [after]
  exact (deliver_spec ready order rt).2.2.1 queued

theorem dispatchEvent_watchers (rt : State) (ready : PollFd) : (rt.dispatchEvent ready).watchers.Perm
    (rt.watchers.filter fun w => !(w.matches ready && w.mode = .oneshot)) := by
  rcases rt.dispatchEvent_spec ready with ⟨order, kept, _, after, left⟩
  rw [after]
  exact left

theorem dispatchEvent_tasks (rt : State) (ready : PollFd) (u : TaskId) : (rt.dispatchEvent ready).tasks u =
    if ∃ w ∈ rt.watchers, w.matches ready = true ∧ w.task = u then { rt.tasks u with scheduled := true }
    else rt.tasks u := by
  rcases rt.dispatchEvent_spec ready with ⟨order, kept, visits, after, _⟩
  rw [after]
  show (order.foldl (deliver ready) rt).tasks u = _
  rw [(deliver_spec ready order rt).2.2.2 u]
  simp only [visits.mem_iff]

theorem countP_split {α : Type} (p gone : α → Bool) (xs : List α) :
    xs.countP p = (xs.filter fun x => !gone x).countP p + xs.countP fun x => p x && gone x := by
  induction xs with
  | nil => rfl
  | cons x xs ih =>
    rw [List.countP_cons, List.filter_cons, List.countP_cons, ih]
    cases gone x
    · simp [List.countP_cons]
      omega
    · simp
      omega

theorem dispatchEvent_held (rt : State) (ready : PollFd) (mode : WatchMode) (u : TaskId) : rt.held mode u =
    (rt.dispatchEvent ready).held mode u +
      rt.watchers.countP fun w => (w.task = u ∧ w.mode = mode) ∧ w.matches ready = true ∧ w.mode = .oneshot := by
  have timers : (rt.dispatchEvent ready).timers = rt.timers := by
    rcases rt.dispatchEvent_spec ready with ⟨order, kept, _, after, _⟩
    rw [after]
    exact (deliver_spec ready order rt).2.1
  have split := countP_split (fun w : Watcher => w.task = u ∧ w.mode = mode)
    (fun w => w.matches ready && w.mode = .oneshot) rt.watchers
  unfold held
  rw [timers, (dispatchEvent_watchers rt ready).countP_eq, split]
  simp only [Bool.decide_and, Bool.decide_eq_true]
  omega

end State
end BlueBird.Runtime
