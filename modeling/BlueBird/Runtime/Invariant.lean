import BlueBird.Runtime.Holdings
import BlueBird.Runtime.Lifecycle

namespace BlueBird.Runtime

namespace Machine

open SwapRemove

/-! ## The invariant -/

/-- `bb_runtime_destroy` walks the watchers or the timers. -/
def closing (m : Machine) : Bool := m.stack.any Frame.closing

def view (m : Machine) (t : TaskId) : View :=
  { task := m.rt.tasks t
    record := m.record t
    once := m.rt.held .oneshot t
    kept := m.rt.held .persistent t
    runs := m.stack.count (.run t)
    frees := m.stack.count (.cleanup t .free)
    cancels := m.stack.countP (Frame.cancels t) }

/-- No hook of a task is under a run of it, and the frames of `bb_runtime_destroy` are under all others. -/
def Nested : List Frame → Prop
  | [] => True
  | f :: rest =>
    (f.ending = true → rest = []) ∧ (∀ t, f = .run t → rest.countP (Frame.cancels t) = 0) ∧ Nested rest

structure Sound (m : Machine) : Prop where
  queued : m.rt.Queued
  life : ∀ t < m.next, Life m.closing (m.view t)
  blank : ∀ t, m.next ≤ t → m.view t = {}
  watching : ∀ t w, (m.record t).watch = some w → (m.record t).destroyed = 0 →
    w.task = t ∧ w ∈ m.rt.watchers
  silent : ∀ t, (m.record t).lateRuns = 0
  nested : Nested m.stack
  ended : m.closed = true → m.stack = [] ∧ ∀ t < m.next, (m.record t).destroyed = 1

theorem Sound.active {m : Machine} (sound : m.Sound) {f : Frame} {rest : List Frame} (top : m.stack = f :: rest) :
    m.closed = false := by
  by_contra closed
  rw [(sound.ended (eq_true_of_ne_false closed)).1] at top
  cases top

theorem Sound.created {m : Machine} (sound : m.Sound) {t : TaskId} (seen : m.view t ≠ {}) : t < m.next := by
  by_contra uncreated
  exact seen (sound.blank t (Nat.le_of_not_lt uncreated))

/-! ## What a call does to the task it is about -/

theorem view_eq {m m' : Machine} {u : TaskId} (rt : m'.rt.tasks u = m.rt.tasks u) (held : m'.rt.held = m.rt.held)
    (record : m'.record u = m.record u) (stack : m'.stack = m.stack) : m'.view u = m.view u := by
  unfold view
  rw [rt, held, record, stack]

theorem modifyRecord_record (m : Machine) (t : TaskId) (f : Record → Record) (u : TaskId) :
    (m.modifyRecord t f).record u = if u = t then f (m.record u) else m.record u := rfl

def Retires (m : Machine) (t : TaskId) : After → Prop
  | .free => False
  | .cancel => True
  | .unwatch _ i => (m.rt.watchers[i]?).map (·.task) = some t

theorem resume_view {m : Machine} {t : TaskId} {after : After} (retires : m.Retires t after)
    (single : (m.view t).once + (m.view t).kept ≤ 1) (u : TaskId) :
    (m.resume t after).view u = if u = t then (m.view t).finished else m.view u := by
  replace single : m.rt.held .oneshot t + m.rt.held .persistent t ≤ 1 := single
  cases after with
  | free => exact absurd retires id
  | cancel =>
    have held (mode : WatchMode) := m.rt.finishCancel_held t single mode u
    unfold resume view
    dsimp only
    rw [held, held, m.rt.finishCancel_tasks]
    by_cases same : u = t
    · subst same
      rw [if_pos rfl, if_pos rfl, if_pos rfl, if_pos rfl]
      rfl
    · rw [if_neg same, if_neg same, if_neg same, if_neg same]
  | unwatch fd i =>
    rcases Option.map_eq_some_iff.mp retires with ⟨w, found, own⟩
    have held (mode : WatchMode) (u : TaskId) := m.rt.swapRemove_held i w found mode u
    have bare (u : TaskId) : Frame.unwatch fd i ≠ .run u ∧ Frame.unwatch fd i ≠ .cleanup u .free := ⟨nofun, nofun⟩
    unfold resume view
    dsimp only
    rw [State.held_schedule, State.schedule_tasks, List.count_cons_of_ne (bare u).1, List.count_cons_of_ne (bare u).2,
      List.countP_cons_of_neg (by simp [Frame.cancels])]
    by_cases same : u = t
    · subst same
      rw [if_pos rfl, if_pos rfl]
      have once := held .oneshot u
      have kept := held .persistent u
      cases mode : w.mode
      · rw [mode, if_pos ⟨own, rfl⟩] at once
        unfold View.finished View.scheduled
        congr 1 <;> omega
      · rw [mode, if_pos ⟨own, rfl⟩] at kept
        unfold View.finished View.scheduled
        congr 1 <;> omega
    · have other (mode : WatchMode) : ¬(w.task = u ∧ w.mode = mode) := fun hit => same (hit.1.symm.trans own)
      have once := held .oneshot u
      have kept := held .persistent u
      rw [if_neg (other _), Nat.add_zero] at once kept
      rw [if_neg same, if_neg same, once, kept]

theorem resume_queued {m : Machine} (queued : m.rt.Queued) (t : TaskId) (after : After) :
    (m.resume t after).rt.Queued := by
  cases after with
  | free => exact queued
  | cancel => exact State.finishCancel_queued queued t
  | unwatch fd i =>
    have bare : ({ m.rt with watchers := swapRemove m.rt.watchers i } : State).Queued := queued
    exact State.schedule_queued bare t

theorem resume_watchers {m : Machine} {t : TaskId} {after : After} (retires : m.Retires t after) {w : Watcher}
    (member : w ∈ m.rt.watchers) (other : w.task ≠ t) : w ∈ (m.resume t after).rt.watchers := by
  cases after with
  | free => exact absurd retires id
  | cancel =>
    have kept := m.rt.finishCancel_watchers t
    exact kept.mem_iff.mpr (List.mem_filter.mpr ⟨member, by simpa using other⟩)
  | unwatch fd i =>
    rcases Option.map_eq_some_iff.mp retires with ⟨v, found, own⟩
    show w ∈ (({ m.rt with watchers := swapRemove m.rt.watchers i } : State).schedule t).watchers
    rw [(State.schedule_frame _ t).2.1]
    rcases List.mem_cons.mp ((swapRemove_perm m.rt.watchers i v found).mem_iff.mp member) with rfl | rest
    · exact absurd own other
    · exact rest

/-- From `m` to `m'` only tasks in `p` change, and watchers only of those are removed. -/
structure Only (p : TaskId → Prop) (m m' : Machine) : Prop where
  next : m.next ≤ m'.next
  fresh : ∀ u, m.next ≤ u → u < m'.next → p u
  closed : m'.closed = m.closed
  closing : m'.closing = m.closing
  queued : m.rt.Queued → m'.rt.Queued
  nested : Nested m.stack → Nested m'.stack
  others : ∀ u, ¬p u → m'.view u = m.view u
  watchers : ∀ w ∈ m.rt.watchers, ¬p w.task → w ∈ m'.rt.watchers

theorem Only.trans {p : TaskId → Prop} {m m' m'' : Machine} (first : Only p m m') (second : Only p m' m'') :
    Only p m m'' := by
  refine ⟨Nat.le_trans first.next second.next, ?_, second.closed.trans first.closed, second.closing.trans first.closing,
    fun queued => second.queued (first.queued queued), fun nested => second.nested (first.nested nested),
    fun u other => (second.others u other).trans (first.others u other),
    fun w member other => second.watchers w (first.watchers w member other) other⟩
  intro u above below
  by_cases early : u < m'.next
  · exact first.fresh u above early
  · exact second.fresh u (Nat.le_of_not_lt early) below

theorem Only.mono {p q : TaskId → Prop} {m m' : Machine} (only : Only p m m') (wider : ∀ u, p u → q u) :
    Only q m m' := by
  refine ⟨only.next, fun u above below => wider u (only.fresh u above below), only.closed, only.closing, only.queued,
    only.nested, fun u other => only.others u fun inside => other (wider u inside), ?_⟩
  exact fun w member other => only.watchers w member fun inside => other (wider _ inside)

theorem Only.sound {p : TaskId → Prop} {m m' : Machine} (only : Only p m m') (sound : m.Sound)
    (active : m.closed = false) (life : ∀ t < m'.next, p t → Life m.closing (m'.view t))
    (blank : ∀ t, m'.next ≤ t → p t → m'.view t = {})
    (watching : ∀ t w, p t → (m'.record t).watch = some w → (m'.record t).destroyed = 0 →
      w.task = t ∧ w ∈ m'.rt.watchers)
    (silent : ∀ t, p t → (m'.record t).lateRuns = 0) : m'.Sound := by
  have record (u : TaskId) (other : ¬p u) : m'.record u = m.record u := congrArg View.record (only.others u other)
  refine ⟨only.queued sound.queued, ?_, ?_, ?_, ?_, only.nested sound.nested, ?_⟩
  · intro t created
    rw [only.closing]
    by_cases changed : p t
    · exact life t created changed
    · rw [only.others t changed]
      apply sound.life t
      by_contra uncreated
      exact changed (only.fresh t (Nat.le_of_not_lt uncreated) created)
  · intro t uncreated
    by_cases changed : p t
    · exact blank t uncreated changed
    · rw [only.others t changed]
      exact sound.blank t (Nat.le_trans only.next uncreated)
  · intro t w watch destroyed
    by_cases changed : p t
    · exact watching t w changed watch destroyed
    · rw [record t changed] at watch destroyed
      rcases sound.watching t w watch destroyed with ⟨own, member⟩
      exact ⟨own, only.watchers w member (by rw [own]; exact changed)⟩
  · intro t
    by_cases changed : p t
    · exact silent t changed
    · rw [record t changed]
      exact sound.silent t
  · intro closed
    rw [only.closed, active] at closed
    cases closed

theorem Only.sound_new {t : TaskId} {m m' : Machine} {v : View} (only : Only (· = t) m m') (view : m'.view t = v)
    (sound : m.Sound) (active : m.closed = false) (created : t < m'.next) (life : Life m.closing v)
    (watching : ∀ w, v.record.watch = some w → v.record.destroyed = 0 → w.task = t ∧ w ∈ m'.rt.watchers)
    (silent : v.record.lateRuns = 0) : m'.Sound := by
  have record : m'.record t = v.record := congrArg View.record view
  apply only.sound sound active
  · rintro u _ rfl
    rw [view]
    exact life
  · rintro u uncreated rfl
    exact absurd created (Nat.not_lt.mpr uncreated)
  · rintro u w rfl
    rw [record]
    exact watching w
  · rintro u rfl
    rw [record]
    exact silent

theorem Only.sound_at {t : TaskId} {m m' : Machine} {v : View} (only : Only (· = t) m m') (view : m'.view t = v)
    (sound : m.Sound) (active : m.closed = false) (created : t < m.next) (life : Life m.closing v)
    (watching : ∀ w, v.record.watch = some w → v.record.destroyed = 0 → w.task = t ∧ w ∈ m'.rt.watchers)
    (silent : v.record.lateRuns = 0) : m'.Sound :=
  only.sound_new view sound active (Nat.lt_of_lt_of_le created only.next) life watching silent

theorem only_resume {m : Machine} {t : TaskId} {after : After} (retires : m.Retires t after)
    (single : (m.view t).once + (m.view t).kept ≤ 1) : Only (· = t) m (m.resume t after) := by
  refine ⟨?_, ?_, ?_, ?_, fun queued => resume_queued queued t after, ?_, ?_, ?_⟩
  · cases after <;> exact Nat.le_refl _
  · intro u above below
    cases after <;> exact absurd below (Nat.not_lt.mpr above)
  · cases after <;> rfl
  · cases after <;> rfl
  · intro nested
    cases after with
    | unwatch fd i => exact ⟨nofun, nofun, nested⟩
    | free => exact nested
    | cancel => exact nested
  · intro u other
    rw [resume_view retires single, if_neg other]
  · exact fun w member other => resume_watchers retires member other

theorem markCancelled_view (m : Machine) (t u : TaskId) :
    (m.markCancelled t).view u = if u = t then (m.view t).marked else m.view u := by
  unfold markCancelled view State.markCancelled
  dsimp only
  rw [State.modifyTask_tasks, modifyRecord_record, State.held_modifyTask]
  by_cases same : u = t
  · subst same
    rw [if_pos rfl, if_pos rfl, if_pos rfl]
    rfl
  · rw [if_neg same, if_neg same, if_neg same]
    rfl

theorem only_markCancelled (m : Machine) (t : TaskId) : Only (· = t) m (m.markCancelled t) := by
  refine ⟨Nat.le_refl _, fun u above below => absurd below (Nat.not_lt.mpr above), rfl, rfl, ?_, id, ?_,
    fun w member _ => member⟩
  · exact fun queued => State.modifyTask_queued queued t _ rfl
  · intro u other
    rw [markCancelled_view, if_neg other]

theorem beginCleanup_view (m : Machine) (t : TaskId) (after : After) (u : TaskId) :
    (m.beginCleanup t after).view u =
      if u = t then
        if after = .free then { (m.view t).cleaned with frees := (m.view t).frees + 1 }
        else { (m.view t).cleaned with cancels := (m.view t).cancels + 1 }
      else m.view u := by
  unfold beginCleanup view State.markFinalized
  dsimp only
  rw [State.modifyTask_tasks, modifyRecord_record, State.held_modifyTask, List.count_cons_of_ne (by exact nofun)]
  by_cases same : u = t
  · subst same
    rw [if_pos rfl, if_pos rfl, if_pos rfl]
    cases after
    · rw [List.count_cons_self, List.countP_cons_of_neg (by simp [Frame.cancels])]
      rfl
    · rw [List.count_cons_of_ne (by simp), List.countP_cons_of_pos (by simp [Frame.cancels])]
      rfl
    · rw [List.count_cons_of_ne (by simp), List.countP_cons_of_pos (by simp [Frame.cancels])]
      rfl
  · rw [if_neg same, if_neg same, if_neg same, List.count_cons_of_ne (by simp [Ne.symm same]),
      List.countP_cons_of_neg]
    cases after <;> simp [Frame.cancels, Ne.symm same]

theorem only_beginCleanup (m : Machine) (t : TaskId) (after : After) :
    Only (· = t) m (m.beginCleanup t after) := by
  refine ⟨Nat.le_refl _, fun u above below => absurd below (Nat.not_lt.mpr above), rfl, rfl, ?_,
    fun nested => ⟨nofun, nofun, nested⟩, ?_, fun w member _ => member⟩
  · exact fun queued => State.modifyTask_queued queued t _ rfl
  · intro u other
    rw [beginCleanup_view, if_neg other]

theorem only_cancel {m : Machine} {t : TaskId} {after : After} (retires : m.Retires t after)
    (held : (m.view t).Held) : Only (· = t) m ((m.markCancelled t).finalize t after) ∧
      ((m.markCancelled t).finalize t after).view t = (m.view t).cancelled := by
  have marks := only_markCancelled m t
  have marked : (m.markCancelled t).view t = (m.view t).marked := by
    rw [markCancelled_view, if_pos rfl]
  have same : ((m.markCancelled t).rt.tasks t).finalized = (m.view t).task.finalized :=
    congrArg (fun v : View => v.task.finalized) marked
  have retires' : (m.markCancelled t).Retires t after := by cases after <;> exact retires
  have single : ((m.markCancelled t).view t).once + ((m.markCancelled t).view t).kept ≤ 1 := by
    rw [marked]
    exact held.place
  unfold finalize View.cancelled
  rw [same]
  by_cases finalized : (m.view t).task.finalized = true
  · rw [if_pos finalized, if_pos finalized, resume_view retires' single, if_pos rfl, marked]
    exact ⟨marks.trans (only_resume retires' single), rfl⟩
  · rw [if_neg finalized, if_neg finalized]
    refine ⟨marks.trans (only_beginCleanup _ t after), ?_⟩
    have view := beginCleanup_view (m.markCancelled t) t after t
    rw [if_pos rfl, if_neg (by rintro rfl; exact retires), marked] at view
    exact view

theorem free_view (m : Machine) (t u : TaskId) :
    (m.resume t .free).view u = if u = t then (m.view t).freed else m.view u := by
  unfold resume view
  rw [modifyRecord_record]
  by_cases same : u = t
  · subst same
    rw [if_pos rfl, if_pos rfl]
    rfl
  · rw [if_neg same, if_neg same]
    rfl

theorem only_free (m : Machine) (t : TaskId) : Only (· = t) m (m.resume t .free) := by
  refine ⟨Nat.le_refl _, fun u above below => absurd below (Nat.not_lt.mpr above), rfl, rfl, id, id, ?_,
    fun w member _ => member⟩
  intro u other
  rw [free_view, if_neg other]

theorem only_destroy (m : Machine) (t : TaskId) :
    Only (· = t) m (m.destroyTask t) ∧ (m.destroyTask t).view t = (m.view t).destroyed := by
  unfold destroyTask finalize View.destroyed
  show Only _ m (if (m.view t).task.finalized then _ else _) ∧ (if (m.view t).task.finalized then _ else _ : Machine).view t = _
  by_cases finalized : (m.view t).task.finalized = true
  · rw [if_pos finalized, if_pos finalized, free_view, if_pos rfl]
    exact ⟨only_free m t, rfl⟩
  · rw [if_neg finalized, if_neg finalized, beginCleanup_view, if_pos rfl, if_pos rfl]
    exact ⟨only_beginCleanup m t .free, rfl⟩

/-! ## Taking a task from the queue, and frames from the stack -/

theorem dequeue_view (m : Machine) (t : TaskId) (queue : List TaskId) (u : TaskId) :
    (m.dequeue t queue).view u = if u = t then (m.view t).dequeued else m.view u := by
  unfold dequeue view
  dsimp only
  rw [State.modifyTask_tasks]
  by_cases same : u = t
  · subst same
    rw [if_pos rfl, if_pos rfl]
    rfl
  · rw [if_neg same, if_neg same]
    rfl

theorem only_dequeue {m : Machine} {t : TaskId} {queue : List TaskId} (head : m.rt.queue = t :: queue) :
    Only (· = t) m (m.dequeue t queue) := by
  refine ⟨Nat.le_refl _, fun u above below => absurd below (Nat.not_lt.mpr above), rfl, rfl, ?_, id, ?_,
    fun w member _ => member⟩
  · intro queued u
    have count := queued u
    have bound : ((m.rt.tasks u).scheduled.toNat) ≤ 1 := by cases (m.rt.tasks u).scheduled <;> decide
    rw [head, List.count_cons] at count
    have flag : ((m.dequeue t queue).rt.tasks u).scheduled = if u = t then false else (m.rt.tasks u).scheduled := by
      unfold dequeue
      dsimp only
      rw [State.modifyTask_tasks]
      split
      · rfl
      · rfl
    rw [flag]
    show queue.count u = _
    by_cases same : u = t
    · subst same
      simp only [beq_self_eq_true, if_true] at count
      rw [if_pos rfl, Bool.toNat_false]
      omega
    · rw [if_neg same]
      simpa [Ne.symm same] using count
  · intro u other
    rw [dequeue_view, if_neg other]

theorem execute_view (m : Machine) (t u : TaskId) :
    (m.execute t).view u = if u = t then (m.view t).executed else m.view u := by
  unfold execute view
  dsimp only
  have frees : (Frame.run t :: m.stack).count (.cleanup u .free) = m.stack.count (.cleanup u .free) :=
    List.count_cons_of_ne (by simp)
  rw [State.modifyTask_tasks, modifyRecord_record, State.held_modifyTask, frees,
    List.countP_cons_of_neg (by simp [Frame.cancels])]
  by_cases same : u = t
  · subst same
    rw [if_pos rfl, if_pos rfl, if_pos rfl, List.count_cons_self]
    rfl
  · rw [if_neg same, if_neg same, if_neg same, List.count_cons_of_ne (by simp [Ne.symm same])]

theorem only_execute {m : Machine} {t : TaskId} (idle : (m.rt.tasks t).scheduled = false)
    (clear : m.stack.countP (Frame.cancels t) = 0) : Only (· = t) m (m.execute t) := by
  refine ⟨Nat.le_refl _, fun u above below => absurd below (Nat.not_lt.mpr above), rfl, rfl, ?_, ?_, ?_,
    fun w member _ => member⟩
  · exact fun queued => State.modifyTask_queued queued t _ idle.symm
  · refine fun nested => ⟨nofun, ?_, nested⟩
    intro u same
    cases same
    exact clear
  · intro u other
    rw [execute_view, if_neg other]

theorem popRun_view {m : Machine} {t : TaskId} {rest : List Frame} (top : m.stack = .run t :: rest) (u : TaskId) :
    { m with rt := m.rt.modifyTask t fun task => { task with running := false }, stack := rest : Machine }.view u =
      if u = t then (m.view t).returned else m.view u := by
  have frees : (Frame.run t :: rest).count (.cleanup u .free) = rest.count (.cleanup u .free) :=
    List.count_cons_of_ne (by simp)
  unfold view
  dsimp only
  rw [top, State.modifyTask_tasks, State.held_modifyTask]
  by_cases same : u = t
  · subst same
    rw [if_pos rfl, if_pos rfl, List.count_cons_self, frees, List.countP_cons_of_neg (by simp [Frame.cancels])]
    rfl
  · rw [if_neg same, if_neg same, List.count_cons_of_ne (by simp [Ne.symm same]), frees,
      List.countP_cons_of_neg (by simp [Frame.cancels])]

theorem only_popRun {m : Machine} {t : TaskId} {rest : List Frame} (top : m.stack = .run t :: rest) :
    Only (· = t) m
      { m with rt := m.rt.modifyTask t fun task => { task with running := false }, stack := rest } := by
  refine ⟨Nat.le_refl _, fun u above below => absurd below (Nat.not_lt.mpr above), rfl, ?_, ?_, ?_, ?_,
    fun w member _ => member⟩
  · unfold closing
    rw [top]
    rfl
  · exact fun queued => State.modifyTask_queued queued t _ rfl
  · intro nested
    rw [top] at nested
    exact nested.2.2
  · intro u other
    rw [popRun_view top, if_neg other]

def unwound (v : View) : After → View
  | .free => { v with frees := v.frees - 1 }
  | _ => { v with cancels := v.cancels - 1 }

theorem popCleanup_view {m : Machine} {t : TaskId} {after : After} {rest : List Frame}
    (top : m.stack = .cleanup t after :: rest) (u : TaskId) :
    { m with stack := rest : Machine }.view u = if u = t then unwound (m.view t) after else m.view u := by
  have runs : (Frame.cleanup t after :: rest).count (.run u) = rest.count (.run u) :=
    List.count_cons_of_ne (by simp)
  unfold view
  dsimp only
  rw [top, runs]
  by_cases same : u = t
  · subst same
    rw [if_pos rfl, runs]
    cases after
    · rw [List.count_cons_self, List.countP_cons_of_neg (by simp [Frame.cancels])]
      rfl
    · rw [List.count_cons_of_ne (by simp), List.countP_cons_of_pos (by simp [Frame.cancels])]
      rfl
    · rw [List.count_cons_of_ne (by simp), List.countP_cons_of_pos (by simp [Frame.cancels])]
      rfl
  · rw [if_neg same, List.count_cons_of_ne (by simp [Ne.symm same]), List.countP_cons_of_neg]
    cases after <;> simp [Frame.cancels, Ne.symm same]

theorem only_popCleanup {m : Machine} {t : TaskId} {after : After} {rest : List Frame}
    (top : m.stack = .cleanup t after :: rest) : Only (· = t) m { m with stack := rest } := by
  refine ⟨Nat.le_refl _, fun u above below => absurd below (Nat.not_lt.mpr above), rfl, ?_, id, ?_, ?_,
    fun w member _ => member⟩
  · unfold closing
    rw [top]
    rfl
  · intro nested
    rw [top] at nested
    exact nested.2.2
  · intro u other
    rw [popCleanup_view top, if_neg other]

theorem destroyTask_watchers (m : Machine) (t : TaskId) : (m.destroyTask t).rt.watchers = m.rt.watchers := by
  unfold destroyTask finalize
  split
  · rfl
  · rfl

theorem destroyed_record (v : View) :
    v.destroyed.record.watch = v.record.watch ∧ v.destroyed.record.lateRuns = v.record.lateRuns := by
  unfold View.destroyed
  split
  · exact ⟨rfl, rfl⟩
  · exact ⟨rfl, rfl⟩

theorem cancelled_record {v : View} :
    v.cancelled.record.watch = none ∧ v.cancelled.record.lateRuns = v.record.lateRuns := by
  unfold View.cancelled
  split
  · exact ⟨rfl, rfl⟩
  · exact ⟨rfl, rfl⟩

theorem settled_record (v : View) :
    v.settled.record.watch = v.record.watch ∧ v.settled.record.lateRuns = v.record.lateRuns := by
  unfold View.settled
  split
  · exact ⟨rfl, rfl⟩
  · exact destroyed_record v

theorem only_settle (m : Machine) (t : TaskId) : Only (· = t) m (m.settle t) ∧
    (m.settle t).view t = (m.view t).settled ∧ (m.settle t).rt.watchers = m.rt.watchers := by
  unfold settle View.settled
  by_cases stays : ((m.rt.tasks t).scheduled || (m.rt.tasks t).persistent) = true
  · rw [if_pos stays, if_pos (show ((m.view t).task.scheduled || (m.view t).task.persistent) = true from stays)]
    refine ⟨⟨Nat.le_refl _, fun u above below => absurd below (Nat.not_lt.mpr above), rfl, rfl, id, id,
      fun _ _ => rfl, fun w member _ => member⟩, rfl, rfl⟩
  · rw [if_neg stays, if_neg (show ¬((m.view t).task.scheduled || (m.view t).task.persistent) = true from stays)]
    exact ⟨(only_destroy m t).1, (only_destroy m t).2, destroyTask_watchers m t⟩

/-! ## A new task -/

theorem Sound.spawn_view {m : Machine} (sound : m.Sound) (u : TaskId) : m.spawn.view u = m.view u := by
  have blank := sound.blank m.next (Nat.le_refl _)
  unfold spawn view State.createTask
  dsimp only
  rw [State.modifyTask_tasks, State.held_modifyTask]
  by_cases same : u = m.next
  · rw [if_pos same, same]
    have task : m.rt.tasks m.next = {} := congrArg View.task blank
    rw [task]
  · rw [if_neg same]

theorem Sound.only_spawn {m : Machine} (sound : m.Sound) : Only (· = m.next) m m.spawn := by
  have task : m.rt.tasks m.next = {} := congrArg View.task (sound.blank m.next (Nat.le_refl _))
  refine ⟨Nat.le_succ _, fun u above below => Nat.le_antisymm (Nat.le_of_lt_succ below) above, rfl, rfl, ?_, id,
    fun u _ => sound.spawn_view u, fun _ member _ => member⟩
  intro queued
  apply State.modifyTask_queued queued
  rw [task]

theorem Sound.unheld {m : Machine} (sound : m.Sound) :
    (∀ w ∈ m.rt.watchers, w.task ≠ m.next) ∧ ∀ timer ∈ m.rt.timers, timer.task ≠ m.next := by
  have blank := sound.blank m.next (Nat.le_refl _)
  have once : m.rt.held .oneshot m.next = 0 := congrArg View.once blank
  have kept : m.rt.held .persistent m.next = 0 := congrArg View.kept blank
  exact State.held_none (by omega)

/-! ## Frames that belong to no task -/

def frameCounts (stack : List Frame) (t : TaskId) : Nat × Nat × Nat :=
  (stack.count (.run t), stack.count (.cleanup t .free), stack.countP (Frame.cancels t))

theorem frameCounts_cons {f : Frame} (plain : ∀ t, Frame.concerns t f = false) (stack : List Frame) (t : TaskId) :
    frameCounts (f :: stack) t = frameCounts stack t := by
  have other := plain t
  unfold frameCounts
  cases f with
  | run u => exact absurd (plain u) (by simp [Frame.concerns])
  | cleanup u => exact absurd (plain u) (by simp [Frame.concerns])
  | _ => simp [Frame.cancels]

theorem view_restack (m : Machine) {stack : List Frame}
    (counts : ∀ t, frameCounts stack t = frameCounts m.stack t) (t : TaskId) :
    { m with stack : Machine }.view t = m.view t := by
  have same := counts t
  unfold frameCounts at same
  rw [Prod.mk.injEq, Prod.mk.injEq] at same
  unfold view
  dsimp only
  rw [same.1, same.2.1, same.2.2]

theorem only_restack {m : Machine} {stack : List Frame}
    (counts : ∀ t, frameCounts stack t = frameCounts m.stack t) (closing : stack.any Frame.closing = m.closing)
    (nested : Nested m.stack → Nested stack) : Only (fun _ => False) m { m with stack } :=
  ⟨Nat.le_refl _, fun _ above below => absurd below (Nat.not_lt.mpr above), rfl, closing, id, nested,
    fun u _ => view_restack m counts u, fun _ member _ => member⟩

theorem only_pop {m : Machine} {f : Frame} {rest : List Frame} (top : m.stack = f :: rest)
    (plain : ∀ t, Frame.concerns t f = false) (running : f.closing = false) :
    Only (fun _ => False) m { m with stack := rest } := by
  refine only_restack ?_ ?_ ?_
  · intro t
    rw [top, frameCounts_cons plain]
  · unfold closing
    rw [top, List.any_cons, running, Bool.false_or]
  · intro nested
    rw [top] at nested
    exact nested.2.2

theorem Only.sound_none {m m' : Machine} (only : Only (fun _ => False) m m') (sound : m.Sound)
    (active : m.closed = false) : m'.Sound :=
  only.sound sound active (fun _ _ => False.elim) (fun _ _ => False.elim) (fun _ _ => False.elim)
    (fun _ => False.elim)

end Machine
end BlueBird.Runtime
