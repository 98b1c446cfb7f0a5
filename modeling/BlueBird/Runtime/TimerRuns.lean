import BlueBird.Program.Runs
import BlueBird.Runtime.TimerUpdate
import BlueBird.Runtime.Invariant

namespace BlueBird.Runtime

open BinaryHeap SwapRemove

theorem removeAll_subperm {α : Type} (key : α → Nat) (mine : α → Bool) (fuel i : Nat) (xs : List α) :
    (removeAll key mine fuel i xs).Subperm xs := by
  induction fuel generalizing i xs with
  | zero => exact List.Subperm.refl xs
  | succ fuel ih =>
    unfold removeAll
    split
    · exact List.Subperm.refl xs
    · rename_i x here
      split
      · have parts := removeAt_perm key xs i x here
        exact ((ih i _).trans List.Subperm.cons_self).trans parts.symm.subperm
      · exact ih (i + 1) xs

namespace Machine

/-! ## What tasks a runtime knows -/

/-- Tasks that the runtime refers to have been created, and the queue agrees with their flags. -/
structure Known (m : Machine) : Prop where
  queued : m.rt.Queued
  queue : ∀ t ∈ m.rt.queue, t < m.next
  watchers : ∀ w ∈ m.rt.watchers, w.task < m.next
  timers : ∀ timer ∈ m.rt.timers, timer.task < m.next
  stack : ∀ f ∈ m.stack, ∀ t, f.concerns t = true → t < m.next

/-- A step that arms no timer and fires none. -/
structure Quiet (m m' : Machine) : Prop where
  next : m.next ≤ m'.next
  timers : m'.rt.timers.Subperm m.rt.timers
  ordered : Ordered Timer.nextFireMs m.rt.timers → Ordered Timer.nextFireMs m'.rt.timers
  known : m.Known → m'.Known

theorem Quiet.refl (m : Machine) : m.Quiet m := ⟨Nat.le_refl _, List.Subperm.refl _, id, id⟩

theorem Quiet.trans {m₁ m₂ m₃ : Machine} (first : m₁.Quiet m₂) (second : m₂.Quiet m₃) : m₁.Quiet m₃ :=
  ⟨Nat.le_trans first.next second.next, second.timers.trans first.timers, fun ordered => second.ordered (first.ordered ordered),
    fun known => second.known (first.known known)⟩

theorem quiet_of_same {m m' : Machine} (next : m'.next = m.next) (timers : m'.rt.timers = m.rt.timers)
    (queued : m.rt.Queued → m'.rt.Queued) (queue : ∀ t ∈ m'.rt.queue, t ∈ m.rt.queue ∨ t < m.next)
    (watchers : ∀ w ∈ m'.rt.watchers, (∃ old ∈ m.rt.watchers, old.task = w.task) ∨ w.task < m.next)
    (stack : ∀ f ∈ m'.stack, f ∈ m.stack ∨ ∀ t, f.concerns t = true → t < m.next) : m.Quiet m' := by
  refine ⟨Nat.le_of_eq next.symm, by rw [timers], by rw [timers]; exact id, ?_⟩
  intro known
  constructor
  · exact queued known.queued
  · intro t member
    rw [next]
    rcases queue t member with old | created
    · exact known.queue t old
    · exact created
  · intro w member
    rw [next]
    rcases watchers w member with ⟨old, here, same⟩ | created
    · rw [← same]
      exact known.watchers old here
    · exact created
  · intro timer member
    rw [next]
    rw [timers] at member
    exact known.timers timer member
  · intro f member t concerned
    rw [next]
    rcases stack f member with old | created
    · exact known.stack f old t concerned
    · exact created t concerned

theorem mem_schedule {rt : State} {t u : TaskId} (member : u ∈ (rt.schedule t).queue) : u ∈ rt.queue ∨ u = t := by
  unfold State.schedule at member
  split at member
  · exact Or.inl member
  · rcases List.mem_append.mp member with old | own
    · exact Or.inl old
    · exact Or.inr (List.mem_singleton.mp own)

theorem schedule_quiet (m : Machine) {t : TaskId} (created : t < m.next) : m.Quiet { m with rt := m.rt.schedule t } := by
  have frame := State.schedule_frame m.rt t
  apply quiet_of_same
  · rfl
  · exact frame.2.2.1
  · exact fun queued => State.schedule_queued queued t
  · intro u member
    rcases mem_schedule member with old | rfl
    · exact Or.inl old
    · exact Or.inr created
  · intro w member
    replace member : w ∈ (m.rt.schedule t).watchers := member
    rw [frame.2.1] at member
    exact Or.inl ⟨w, member, rfl⟩
  · exact fun f member => Or.inl member

theorem modify_quiet (m : Machine) (t : TaskId) (f : Task → Task) (same : (f (m.rt.tasks t)).scheduled = (m.rt.tasks t).scheduled)
    (record : TaskId → Record) {stack : List Frame}
    (frames : ∀ frame ∈ stack, frame ∈ m.stack ∨ ∀ u, frame.concerns u = true → u < m.next) :
    m.Quiet { m with rt := m.rt.modifyTask t f, record, stack } := by
  apply quiet_of_same
  · rfl
  · rfl
  · exact fun queued => State.modifyTask_queued queued t f same
  · exact fun u member => Or.inl member
  · exact fun w member => Or.inl ⟨w, member, rfl⟩
  · exact frames

theorem markCancelled_quiet (m : Machine) (t : TaskId) : m.Quiet (m.markCancelled t) :=
  modify_quiet m t _ rfl _ fun _ member => Or.inl member

theorem watchers_quiet (m : Machine) {watchers : List Watcher} (poller : List PollFd)
    (from_ : ∀ w ∈ watchers, w ∈ m.rt.watchers) : m.Quiet { m with rt := { m.rt with watchers, poller } } := by
  apply quiet_of_same
  · rfl
  · rfl
  · exact id
  · exact fun u member => Or.inl member
  · exact fun w member => Or.inl ⟨w, from_ w member, rfl⟩
  · exact fun f member => Or.inl member

theorem removeTimers_quiet (m : Machine) (t : TaskId) : m.Quiet { m with rt := m.rt.removeTimers t } := by
  have fewer : (m.rt.removeTimers t).timers.Subperm m.rt.timers :=
    removeAll_subperm Timer.nextFireMs _ m.rt.timers.length 0 m.rt.timers
  refine ⟨Nat.le_refl _, fewer, fun ordered => removeAll_ordered ordered, ?_⟩
  intro known
  exact ⟨known.queued, known.queue, known.watchers, fun timer member => known.timers timer (fewer.subset member),
    known.stack⟩

theorem finishCancel_quiet (m : Machine) {t : TaskId} (created : t < m.next) : m.Quiet { m with rt := m.rt.finishCancel t } := by
  have kept := (m.rt.removeWatchers_spec t).1
  have watchers : m.Quiet { m with rt := m.rt.removeWatchers t } := by
    apply watchers_quiet m
    intro w member
    exact (List.mem_filter.mp (kept.mem_iff.mp member)).1
  have timers := removeTimers_quiet { m with rt := m.rt.removeWatchers t } t
  have queue := @schedule_quiet { m with rt := (m.rt.removeWatchers t).removeTimers t } t created
  exact (watchers.trans timers).trans queue

theorem push_quiet (m : Machine) {f : Frame} (created : ∀ t, f.concerns t = true → t < m.next) :
    m.Quiet { m with stack := f :: m.stack } := by
  apply quiet_of_same
  · rfl
  · rfl
  · exact id
  · exact fun t member => Or.inl member
  · exact fun w member => Or.inl ⟨w, member, rfl⟩
  · intro g member
    rcases List.mem_cons.mp member with rfl | old
    · exact Or.inr created
    · exact Or.inl old

theorem pop_quiet {m : Machine} {f : Frame} {rest : List Frame} (top : m.stack = f :: rest) : m.Quiet { m with stack := rest } := by
  apply quiet_of_same
  · rfl
  · rfl
  · exact id
  · exact fun t member => Or.inl member
  · exact fun w member => Or.inl ⟨w, member, rfl⟩
  · intro g member
    rw [top]
    exact Or.inl (List.mem_cons_of_mem f member)

theorem record_quiet (m : Machine) (record : TaskId → Record) : m.Quiet { m with record } :=
  ⟨Nat.le_refl _, List.Subperm.refl _, id, fun known => ⟨known.queued, known.queue, known.watchers, known.timers, known.stack⟩⟩

theorem resume_quiet (m : Machine) {t : TaskId} (created : t < m.next) (after : After) : m.Quiet (m.resume t after) := by
  cases after with
  | free => exact record_quiet m _
  | cancel => exact finishCancel_quiet m created
  | unwatch fd i =>
    have watchers : m.Quiet { m with rt := { m.rt with watchers := swapRemove m.rt.watchers i } } := by
      apply watchers_quiet m
      intro w member
      exact mem_of_mem_swapRemove member
    have queue := @schedule_quiet { m with rt := { m.rt with watchers := swapRemove m.rt.watchers i } } t created
    have frame := @push_quiet { m with rt := ({ m.rt with watchers := swapRemove m.rt.watchers i } : State).schedule t }
      (.unwatch fd i) nofun
    exact (watchers.trans queue).trans frame

theorem finalize_quiet (m : Machine) {t : TaskId} (created : t < m.next) (after : After) : m.Quiet (m.finalize t after) := by
  unfold finalize
  split
  · exact resume_quiet m created after
  · apply modify_quiet m t
    · rfl
    · intro f member
      rcases List.mem_cons.mp member with rfl | old
      · refine Or.inr fun u own => ?_
        rw [← of_decide_eq_true own]
        exact created
      · exact Or.inl old

theorem destroyTask_quiet (m : Machine) {t : TaskId} (created : t < m.next) : m.Quiet (m.destroyTask t) :=
  finalize_quiet m created .free

theorem cancelTask_quiet (m : Machine) {t : TaskId} (created : t < m.next) : m.Quiet (m.cancelTask t) :=
  (markCancelled_quiet m t).trans (@finalize_quiet (m.markCancelled t) t created .cancel)

theorem settle_quiet (m : Machine) {t : TaskId} (created : t < m.next) : m.Quiet (m.settle t) := by
  unfold settle
  split
  · exact Quiet.refl m
  · exact destroyTask_quiet m created

/-! ## Calls -/

theorem spawn_quiet {m : Machine} (known : m.Known) : m.Quiet m.spawn := by
  refine ⟨Nat.le_succ _, List.Subperm.refl _, id, fun _ => ?_⟩
  constructor
  · intro u
    show m.rt.queue.count u = (if u = m.next then ({} : Task) else m.rt.tasks u).scheduled.toNat
    by_cases fresh : u = m.next
    · rw [if_pos fresh]
      apply List.count_eq_zero.mpr
      intro member
      have created := known.queue u member
      rw [fresh] at created
      exact Nat.lt_irrefl _ created
    · rw [if_neg fresh]
      exact known.queued u
  · exact fun t member => Nat.lt_succ_of_lt (known.queue t member)
  · exact fun w member => Nat.lt_succ_of_lt (known.watchers w member)
  · exact fun timer member => Nat.lt_succ_of_lt (known.timers timer member)
  · exact fun f member t own => Nat.lt_succ_of_lt (known.stack f member t own)

theorem marked_frame (rt : State) (mode : WatchMode) (t : TaskId) {marked : State}
    (same : marked = if mode = .persistent then rt.markPersistent t else rt) :
    marked.queue = rt.queue ∧ marked.timers = rt.timers ∧ (rt.Queued → marked.Queued) := by
  subst same
  split
  · exact ⟨rfl, rfl, fun queued => State.modifyTask_queued queued t _ rfl⟩
  · exact ⟨rfl, rfl, id⟩

theorem placeWatcher_quiet (m : Machine) (fd : Fd) (events : Events) (mode : WatchMode) {t : TaskId} (created : t < m.next) :
    m.Quiet { m with rt := (m.rt.placeWatcher fd events mode t).1 } := by
  rcases marked_frame m.rt mode t rfl with ⟨queue, timers, queued⟩
  unfold State.placeWatcher
  dsimp only
  split
  · rename_i idx found
    apply quiet_of_same
    · rfl
    · exact timers
    · exact queued
    · intro u member
      exact Or.inl (by rw [← queue]; exact member)
    · intro w member
      rcases modify_split _ m.rt.watchers idx found (fun w => { w with mode, task := t }) with
        ⟨old, rest, _, _, before, after, _⟩
      rcases List.mem_cons.mp (after.mem_iff.mp member) with rfl | other
      · exact Or.inr created
      · exact Or.inl ⟨w, before.mem_iff.mpr (List.mem_cons_of_mem old other), rfl⟩
    · exact fun f member => Or.inl member
  · apply quiet_of_same
    · rfl
    · exact timers
    · exact queued
    · intro u member
      exact Or.inl (by rw [← queue]; exact member)
    · intro w member
      rcases List.mem_append.mp member with old | own
      · exact Or.inl ⟨w, old, rfl⟩
      · rw [List.mem_singleton.mp own]
        exact Or.inr created
    · exact fun f member => Or.inl member

theorem placeWatcher_replaced {rt : State} {fd : Fd} {events : Events} {mode : WatchMode} {t old : TaskId}
    (replaced : (rt.placeWatcher fd events mode t).2 = some old) : ∃ w ∈ rt.watchers, w.task = old := by
  unfold State.placeWatcher at replaced
  dsimp only at replaced
  split at replaced
  · rename_i idx found
    rcases Option.map_eq_some_iff.mp (Option.filter_eq_some_iff.mp replaced).1 with ⟨w, here, own⟩
    exact ⟨w, List.mem_of_getElem? here, own⟩
  · cases replaced

theorem refuseWatcher_quiet (m : Machine) (fd : Fd) : m.Quiet { m with rt := m.rt.refuseWatcher fd } := by
  unfold State.refuseWatcher
  dsimp only
  split
  · exact watchers_quiet m _ fun w member => member
  · exact Quiet.refl m

theorem watchFd_quiet {m : Machine} (known : m.Known) (fd : Fd) (events : Events) (mode : WatchMode) (accepted : Bool) :
    m.Quiet (m.watchFd fd events mode accepted) := by
  have created := spawn_quiet known
  have fresh : m.next < m.spawn.next := Nat.lt_succ_self _
  unfold watchFd
  dsimp only
  split
  · have refused := refuseWatcher_quiet m.spawn fd
    have destroyed := @destroyTask_quiet { m.spawn with rt := m.spawn.rt.refuseWatcher fd } m.next fresh
    exact (created.trans refused).trans destroyed
  · have placed := placeWatcher_quiet m.spawn fd events mode fresh
    cases result : m.spawn.rt.placeWatcher fd events mode m.next with
    | mk rt replaced =>
      rw [result] at placed
      have base := created.trans placed
      cases replaced with
      | none => exact base.trans (record_quiet _ _)
      | some old =>
        have from_ : (m.spawn.rt.placeWatcher fd events mode m.next).2 = some old := by rw [result]
        rcases placeWatcher_replaced from_ with ⟨w, member, own⟩
        have bound : old < m.spawn.next := by
          rw [← own]
          exact (created.known known).watchers w member
        exact (base.trans (record_quiet _ _)).trans (cancelTask_quiet _ bound)

theorem mem_deliver {ready : PollFd} {order : List Watcher} {rt : State} {t : TaskId}
    (member : t ∈ (order.foldl (State.deliver ready) rt).queue) : t ∈ rt.queue ∨ ∃ w ∈ order, w.task = t := by
  induction order generalizing rt with
  | nil => exact Or.inl member
  | cons w order ih =>
    rcases ih member with first | ⟨v, later, own⟩
    · have one : t ∈ rt.queue ∨ t = w.task := by
        unfold State.deliver at first
        split at first
        · dsimp only at first
          split at first
          · exact mem_schedule first
          · exact mem_schedule first
        · exact Or.inl first
      rcases one with old | own
      · exact Or.inl old
      · exact Or.inr ⟨w, List.mem_cons_self .., own.symm⟩
    · exact Or.inr ⟨v, List.mem_cons_of_mem w later, own⟩

theorem dispatchEvent_quiet {m : Machine} (known : m.Known) (ready : PollFd) : m.Quiet (m.dispatchEvent ready) := by
  have dispatched : m.Quiet { m with rt := m.rt.dispatchEvent ready } := by
    rcases m.rt.dispatchEvent_spec ready with ⟨order, kept, visits, after, _⟩
    have spec := State.deliver_spec ready order m.rt
    apply quiet_of_same
    · rfl
    · show (m.rt.dispatchEvent ready).timers = m.rt.timers
      rw [after]
      exact spec.2.1
    · exact fun queued => State.dispatchEvent_queued queued ready
    · intro t member
      replace member : t ∈ (m.rt.dispatchEvent ready).queue := member
      rw [after] at member
      rcases mem_deliver member with old | ⟨w, inside, own⟩
      · exact Or.inl old
      · rw [← own]
        exact Or.inr (known.watchers w (visits.mem_iff.mp inside))
    · intro w member
      have inside := (List.mem_filter.mp ((m.rt.dispatchEvent_watchers ready).mem_iff.mp member)).1
      exact Or.inl ⟨w, inside, rfl⟩
    · exact fun f member => Or.inl member
  exact dispatched.trans (record_quiet { m with rt := m.rt.dispatchEvent ready } _)

theorem wait_quiet {m : Machine} (known : m.Known) (ready : List PollFd) :
    m.Quiet (ready.foldl dispatchEvent m) ∧ (ready.foldl dispatchEvent m).stack = m.stack := by
  induction ready generalizing m with
  | nil => exact ⟨Quiet.refl m, rfl⟩
  | cons event ready ih =>
    have first := dispatchEvent_quiet known event
    rcases ih (first.known known) with ⟨rest, stack⟩
    exact ⟨first.trans rest, stack⟩

/-! ## Steps -/

theorem dequeue_quiet {m : Machine} {t : TaskId} {queue : List TaskId} (first : m.rt.queue = t :: queue) :
    m.Quiet (m.dequeue t queue) := by
  apply quiet_of_same
  · rfl
  · rfl
  · intro queued u
    have count := queued u
    rw [first, List.count_cons] at count
    show queue.count u = (if u = t then { m.rt.tasks u with scheduled := false } else m.rt.tasks u).scheduled.toNat
    by_cases own : u = t
    · subst own
      rw [if_pos rfl]
      have few : (m.rt.tasks u).scheduled.toNat ≤ 1 := Bool.toNat_le _
      rw [if_pos (beq_self_eq_true u)] at count
      show queue.count u = 0
      omega
    · rw [if_neg own]
      rw [if_neg (by simpa using Ne.symm own)] at count
      exact count
  · intro u member
    rw [first]
    exact Or.inl (List.mem_cons_of_mem t member)
  · exact fun w member => Or.inl ⟨w, member, rfl⟩
  · exact fun f member => Or.inl member

theorem execute_quiet {m : Machine} {t : TaskId} (created : t < m.next) (idle : (m.rt.tasks t).scheduled = false) :
    m.Quiet (m.execute t) := by
  apply modify_quiet m t
  · exact idle.symm
  · intro f member
    rcases List.mem_cons.mp member with rfl | old
    · refine Or.inr fun u own => ?_
      rw [← of_decide_eq_true own]
      exact created
    · exact Or.inl old

theorem restack_quiet {m : Machine} {f g : Frame} {rest : List Frame} (top : m.stack = f :: rest)
    (bare : ∀ t, g.concerns t = false) : m.Quiet { m with stack := g :: rest } := by
  have popped := pop_quiet top
  have pushed := @push_quiet { m with stack := rest } g fun t own => absurd own (by rw [bare t]; decide)
  exact popped.trans pushed

theorem ret_quiet {m m' : Machine} (known : m.Known) (step : m.ret = some m') : m.Quiet m' := by
  unfold ret at step
  cases stack : m.stack with
  | nil =>
    rw [stack] at step
    cases step
  | cons f rest =>
    rw [stack] at step
    cases f with
    | run t =>
      cases step
      have created := known.stack (.run t) (by rw [stack]; exact List.mem_cons_self ..) t (decide_eq_true rfl)
      have returned : m.Quiet { m with rt := m.rt.modifyTask t fun task => { task with running := false }, stack := rest } := by
        apply modify_quiet m t
        · rfl
        · intro f member
          rw [stack]
          exact Or.inl (List.mem_cons_of_mem _ member)
      exact returned.trans (settle_quiet _ created)
    | cleanup t after =>
      cases step
      have created := known.stack (.cleanup t after) (by rw [stack]; exact List.mem_cons_self ..) t (decide_eq_true rfl)
      exact (pop_quiet stack).trans (@resume_quiet { m with stack := rest } t created after)
    | unwatch => cases step
    | timers => cases step
    | tick => cases step
    | drain => cases step
    | destroyWatchers => cases step
    | destroyTimers => cases step

theorem advance_unwatch_quiet {m m' : Machine} (known : m.Known) {fd : Fd} {i : Nat} {rest : List Frame}
    (top : m.stack = .unwatch fd i :: rest) (step : m.advance = some m') : m.Quiet m' := by
  unfold advance at step
  rw [top] at step
  dsimp only at step
  split at step
  · cases step
    exact (pop_quiet top).trans (record_quiet _ _)
  · rename_i w found
    have created := known.watchers w (List.mem_of_getElem? found)
    split at step
    · cases step
      have marked := (pop_quiet top).trans (markCancelled_quiet _ w.task)
      have still : w.task < ({ m with stack := rest }.markCancelled w.task).next := created
      exact marked.trans (finalize_quiet _ still _)
    · cases step
      exact restack_quiet top fun _ => rfl

theorem advance_tick_quiet {m m' : Machine} (known : m.Known) {rest : List Frame} (top : m.stack = .tick :: rest)
    (step : m.advance = some m') : m.Quiet m' := by
  unfold advance at step
  rw [top] at step
  dsimp only at step
  split at step
  · rename_i t queue running first
    have created := known.queue t (by rw [first]; exact List.mem_cons_self ..)
    have taken := dequeue_quiet first
    split at step
    · cases step
      exact taken.trans (settle_quiet _ created)
    · cases step
      refine taken.trans (execute_quiet created ?_)
      show (if t = t then _ else _ : Task).scheduled = false
      rw [if_pos rfl]
  · cases step
    exact pop_quiet top

theorem advance_drain_quiet {m m' : Machine} (known : m.Known) {rest : List Frame} (top : m.stack = .drain :: rest)
    (step : m.advance = some m') : m.Quiet m' := by
  unfold advance at step
  rw [top] at step
  dsimp only at step
  split at step
  · rename_i t queue first
    have created := known.queue t (by rw [first]; exact List.mem_cons_self ..)
    have taken := dequeue_quiet first
    split at step
    · cases step
      exact taken
    · cases step
      exact taken.trans (destroyTask_quiet _ created)
  · cases step
    exact restack_quiet top fun _ => rfl

theorem advance_destroyWatchers_quiet {m m' : Machine} (known : m.Known) {i : Nat} {rest : List Frame}
    (top : m.stack = .destroyWatchers i :: rest) (step : m.advance = some m') : m.Quiet m' := by
  unfold advance at step
  rw [top] at step
  dsimp only at step
  split at step
  · rename_i w found
    have created := known.watchers w (List.mem_of_getElem? found)
    cases step
    have next : m.Quiet { m with stack := .destroyWatchers (i + 1) :: rest } := restack_quiet top fun _ => rfl
    exact (next.trans (watchers_quiet _ _ fun w member => member)).trans (destroyTask_quiet _ created)
  · cases step
    have next : m.Quiet { m with stack := .destroyTimers 0 :: rest } := restack_quiet top fun _ => rfl
    exact next.trans (watchers_quiet _ _ nofun)

theorem advance_destroyTimers_quiet {m m' : Machine} (known : m.Known) {i : Nat} {rest : List Frame}
    (top : m.stack = .destroyTimers i :: rest) (step : m.advance = some m') : m.Quiet m' := by
  unfold advance at step
  rw [top] at step
  dsimp only at step
  split at step
  · rename_i timer found
    have created := known.timers timer (List.mem_of_getElem? found)
    cases step
    have next : m.Quiet { m with stack := .destroyTimers (i + 1) :: rest } := restack_quiet top fun _ => rfl
    exact next.trans (destroyTask_quiet _ created)
  · cases step
    refine ⟨Nat.le_refl _, List.nil_subperm, fun _ i _ inside => absurd inside (Nat.not_lt_zero _), fun _ => ?_⟩
    refine ⟨fun _ => rfl, nofun, nofun, nofun, fun f member => ?_⟩
    exact known.stack f (by rw [top]; exact List.mem_cons_of_mem _ member)

theorem advance_quiet {m m' : Machine} (known : m.Known) (step : m.advance = some m')
    (idle : ∀ now rest, m.stack = .timers now :: rest → m.rt.dueTimer now = none) : m.Quiet m' := by
  cases stack : m.stack with
  | nil =>
    unfold advance at step
    rw [stack] at step
    cases step
  | cons f rest =>
    cases f with
    | run t =>
      unfold advance at step
      rw [stack] at step
      cases step
    | cleanup t after =>
      unfold advance at step
      rw [stack] at step
      cases step
    | unwatch fd i => exact advance_unwatch_quiet known stack step
    | timers now =>
      unfold advance at step
      rw [stack] at step
      dsimp only at step
      rw [idle now rest stack] at step
      cases step
      exact pop_quiet stack
    | tick => exact advance_tick_quiet known stack step
    | drain => exact advance_drain_quiet known stack step
    | destroyWatchers i => exact advance_destroyWatchers_quiet known stack step
    | destroyTimers i => exact advance_destroyTimers_quiet known stack step

theorem advance_fires {m m' : Machine} {now : Nat} {rest : List Frame} (top : m.stack = .timers now :: rest) {timer : Timer}
    (due : m.rt.dueTimer now = some timer) (step : m.advance = some m') : m' = { m with rt := m.rt.fireTimer now timer } := by
  unfold advance at step
  rw [top] at step
  dsimp only at step
  rw [due, ← top] at step
  cases step
  rfl

theorem rt_quiet (m : Machine) (running : Bool) (poller : List PollFd) : m.Quiet { m with rt := { m.rt with running, poller } } :=
  ⟨Nat.le_refl _, List.Subperm.refl _, id, fun known => ⟨known.queued, known.queue, known.watchers, known.timers, known.stack⟩⟩

theorem call_quiet {m : Machine} (known : m.Known) {call : Call} (allowed : m.allowed call = true)
    (arms : ∀ intervalMs now, call ≠ .setInterval intervalMs now ∧ call ≠ .setTimeout intervalMs now) :
    m.Quiet (m.call call) := by
  cases call with
  | schedule => exact (spawn_quiet known).trans (schedule_quiet m.spawn (Nat.lt_succ_self _))
  | watchFd fd events mode accepted => exact watchFd_quiet known fd events mode accepted
  | unwatchFd fd => exact (rt_quiet m m.rt.running _).trans (push_quiet _ nofun)
  | setInterval intervalMs now => exact absurd rfl (arms intervalMs now).1
  | setTimeout timeoutMs now => exact absurd rfl (arms timeoutMs now).2
  | cancelTask t => exact cancelTask_quiet m (of_decide_eq_true allowed).1
  | tick ready now =>
    rcases wait_quiet known ready with ⟨waited, stack⟩
    unfold Machine.call
    dsimp only
    rw [← stack]
    have ticking := @push_quiet (ready.foldl dispatchEvent m) .tick nofun
    have timers := @push_quiet { ready.foldl dispatchEvent m with stack := .tick :: (ready.foldl dispatchEvent m).stack }
      (.timers now) nofun
    exact (waited.trans ticking).trans timers
  | setRunning => exact rt_quiet m true m.rt.poller
  | stop => exact rt_quiet m false m.rt.poller
  | destroy => exact push_quiet m nofun

/-! ## What happens to timers -/

end Machine

inductive TimerEvent where
  | armed (t : TaskId) (now delay : Nat)
  | fired (t : TaskId) (now : Nat)
  deriving DecidableEq, Repr

namespace Machine

def timerEvents (m : Machine) : Action → List TimerEvent
  | .call (.setInterval intervalMs now) => [.armed m.next now intervalMs]
  | .call (.setTimeout timeoutMs now) => [.armed m.next now timeoutMs]
  | .advance =>
    match m.stack with
    | .timers now :: _ => ((m.rt.dueTimer now).map fun top => TimerEvent.fired top.task now).toList
    | _ => []
  | _ => []

inductive TimerStep (m : Machine) : List TimerEvent → Machine → Prop
  | quiet {m' : Machine} (still : m.Quiet m') : TimerStep m [] m'
  | armed (delay now : Nat) (repeating : Bool) : TimerStep m [.armed m.next now delay] (m.setTimer delay now repeating)
  | fired {now : Nat} {rest : List Frame} {top : Timer} (stack : m.stack = .timers now :: rest)
      (due : m.rt.dueTimer now = some top) : TimerStep m [.fired top.task now] { m with rt := m.rt.fireTimer now top }

theorem call_timerStep {m : Machine} (known : m.Known) {call : Call} (allowed : m.allowed call = true) :
    TimerStep m (m.timerEvents (.call call)) (m.call call) := by
  have quiet := @call_quiet m known call allowed
  cases call with
  | setInterval intervalMs now => exact TimerStep.armed intervalMs now true
  | setTimeout timeoutMs now => exact TimerStep.armed timeoutMs now false
  | schedule => exact TimerStep.quiet (quiet fun _ _ => ⟨nofun, nofun⟩)
  | watchFd => exact TimerStep.quiet (quiet fun _ _ => ⟨nofun, nofun⟩)
  | unwatchFd => exact TimerStep.quiet (quiet fun _ _ => ⟨nofun, nofun⟩)
  | cancelTask => exact TimerStep.quiet (quiet fun _ _ => ⟨nofun, nofun⟩)
  | tick => exact TimerStep.quiet (quiet fun _ _ => ⟨nofun, nofun⟩)
  | setRunning => exact TimerStep.quiet (quiet fun _ _ => ⟨nofun, nofun⟩)
  | stop => exact TimerStep.quiet (quiet fun _ _ => ⟨nofun, nofun⟩)
  | destroy => exact TimerStep.quiet (quiet fun _ _ => ⟨nofun, nofun⟩)

theorem advance_timerStep {m m' : Machine} (known : m.Known) (step : m.advance = some m') :
    TimerStep m (m.timerEvents .advance) m' := by
  have quiet := advance_quiet known step
  unfold timerEvents
  dsimp only
  split
  · rename_i now rest stack
    cases due : m.rt.dueTimer now with
    | none =>
      refine TimerStep.quiet (quiet fun other _ same => ?_)
      rw [stack] at same
      cases same
      exact due
    | some top =>
      rw [advance_fires stack due step]
      exact TimerStep.fired stack due
  · rename_i other
    exact TimerStep.quiet (quiet fun now rest stack => absurd stack (other now rest))

theorem step_timerStep {m m' : Machine} (known : m.Known) {action : Action} (step : m.step action = some m') :
    TimerStep m (m.timerEvents action) m' := by
  unfold Machine.step at step
  cases action with
  | call call =>
    dsimp only at step
    split at step
    · rename_i may
      rw [Bool.and_eq_true] at may
      cases step
      exact call_timerStep known may.2
    · cases step
  | ret => exact TimerStep.quiet (ret_quiet known step)
  | advance => exact advance_timerStep known step

/-! ## Runs -/

theorem setTimer_timers (m : Machine) (delay now : Nat) (repeating : Bool) :
    (m.setTimer delay now repeating).rt.timers =
      push Timer.nextFireMs m.rt.timers ⟨delay, (now + delay) % 2 ^ 64, repeating, m.next⟩ := by
  cases repeating
  · rfl
  · rfl

theorem setTimer_known {m : Machine} (known : m.Known) (delay now : Nat) (repeating : Bool) :
    (m.setTimer delay now repeating).Known := by
  have created := (spawn_quiet known).known known
  have timers := push_perm Timer.nextFireMs m.rt.timers ⟨delay, (now + delay) % 2 ^ 64, repeating, m.next⟩
  have marked : (if repeating then m.spawn.rt.markPersistent m.next else m.spawn.rt).Queued ∧
      (if repeating then m.spawn.rt.markPersistent m.next else m.spawn.rt).queue = m.rt.queue ∧
      (if repeating then m.spawn.rt.markPersistent m.next else m.spawn.rt).watchers = m.rt.watchers := by
    split
    · exact ⟨State.modifyTask_queued created.queued m.next _ rfl, rfl, rfl⟩
    · exact ⟨created.queued, rfl, rfl⟩
  constructor
  · exact marked.1
  · intro t member
    exact created.queue t (marked.2.1 ▸ member)
  · intro w member
    exact created.watchers w (marked.2.2 ▸ member)
  · intro timer member
    rw [setTimer_timers] at member
    rcases List.mem_cons.mp (timers.mem_iff.mp member) with rfl | old
    · exact Nat.lt_succ_self _
    · exact created.timers timer old
  · exact created.stack

theorem updated_task {timer after : Timer} {now : Nat} (kept : timer.updated now = some after) : after.task = timer.task := by
  unfold Timer.updated at kept
  split at kept
  · split at kept
    · cases kept
      rfl
    · cases kept
  · cases kept
    rfl

theorem mem_fireTimer {rt : State} {now : Nat} {top timer : Timer} (due : rt.dueTimer now = some top)
    (member : timer ∈ (rt.fireTimer now top).timers) : top.updated now = some timer ∨ timer ∈ rt.timers := by
  rcases State.dueTimer_mem due with ⟨rest, timers⟩
  have parts := State.fireTimer_timers timers (State.dueTimer_due due)
  rcases List.mem_append.mp (parts.mem_iff.mp member) with own | other
  · exact Or.inl (Option.mem_toList.mp own)
  · rw [timers]
    exact Or.inr (List.mem_cons_of_mem top other)

theorem top_mem {rt : State} {now : Nat} {top : Timer} (due : rt.dueTimer now = some top) : top ∈ rt.timers := by
  rcases State.dueTimer_mem due with ⟨rest, timers⟩
  rw [timers]
  exact List.mem_cons_self ..

theorem fireTimer_known {m : Machine} (known : m.Known) {now : Nat} {top : Timer} (due : m.rt.dueTimer now = some top) :
    Known { m with rt := m.rt.fireTimer now top } := by
  rcases State.fireTimer_spec due with ⟨watchers, queue, _, _⟩
  have created := known.timers top (top_mem due)
  constructor
  · exact State.fireTimer_queued known.queued due
  · intro t member
    replace member : t ∈ (m.rt.fireTimer now top).queue := member
    rw [queue] at member
    rcases mem_schedule member with old | rfl
    · exact known.queue t old
    · exact created
  · intro w member
    replace member : w ∈ (m.rt.fireTimer now top).watchers := member
    rw [watchers] at member
    exact known.watchers w member
  · intro timer member
    rcases mem_fireTimer due member with own | old
    · rw [updated_task own]
      exact created
    · exact known.timers timer old
  · exact known.stack

/-- The state between the steps of any run: its heap is in order, and its queue agrees with the tasks. -/
structure Timed (m : Machine) : Prop where
  known : m.Known
  ordered : Ordered Timer.nextFireMs m.rt.timers

theorem TimerStep.timed {m m' : Machine} (timed : m.Timed) {events : List TimerEvent} (step : TimerStep m events m') :
    m'.Timed := by
  cases step with
  | quiet still => exact ⟨still.known timed.known, still.ordered timed.ordered⟩
  | armed delay now repeating =>
    refine ⟨setTimer_known timed.known delay now repeating, ?_⟩
    rw [setTimer_timers]
    exact push_ordered timed.ordered _
  | fired stack due => exact ⟨fireTimer_known timed.known due, State.fireTimer_ordered timed.ordered due⟩

theorem timed_init : Timed {} :=
  ⟨⟨fun _ => rfl, nofun, nofun, nofun, nofun⟩, fun _ _ inside => absurd inside (Nat.not_lt_zero _)⟩

theorem foldlM_timed {m m' : Machine} (timed : m.Timed) {actions : List Action} (reached : actions.foldlM step m = some m') :
    m'.Timed :=
  Runs.invariant_of_run timed (fun _ _ _ timed one => (step_timerStep timed.known one).timed timed) reached

theorem updatesTimers_of_run {actions : List Action} {m : Machine} (reached : run actions = some m) {now : Nat}
    (bound : now < 2 ^ 64 - 1) {rest : List Frame} (top : m.stack = .timers now :: rest) :
    ∃ n after, advances n m = some { m with rt := after, stack := rest } ∧ m.rt.UpdatesTimers now after := by
  have timed := foldlM_timed timed_init reached
  have few : m.rt.timers.countP (Timer.due now) ≤ m.rt.timers.length := List.countP_le_length
  have updates := State.updateTimers_updates bound timed.ordered timed.known.queued few
  rcases advances_timers top updates.ended with ⟨n, _, ends⟩
  exact ⟨n, _, ends, updates⟩

end Machine
end BlueBird.Runtime
