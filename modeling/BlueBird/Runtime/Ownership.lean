import BlueBird.Program.Runs
import BlueBird.Runtime.Invariant

namespace BlueBird.Runtime

namespace Machine

/-! ## What is asked of every state -/

def referenced (m : Machine) (t : TaskId) : Nat := m.rt.held .oneshot t + m.rt.held .persistent t

structure Owned (m : Machine) : Prop where
  queuedOnce : ∀ t, m.rt.queue.count t ≤ 1
  scheduled : ∀ t, (m.rt.tasks t).scheduled = true ↔ t ∈ m.rt.queue
  destroyedOnce : ∀ t, (m.record t).destroyed ≤ 1
  unreferenced : ∀ t, (m.record t).destroyed = 1 → t ∉ m.rt.queue ∧ m.referenced t ≤ m.closing.toNat
  cleanedOnce : ∀ t, (m.record t).cleaned ≤ 1
  cleaned : ∀ t, (m.record t).destroyed = 1 → (m.record t).cleaned = 1
  silent : ∀ t, (m.record t).lateRuns = 0
  watching : ∀ t w, (m.record t).watch = some w → (m.record t).destroyed = 0 → w ∈ m.rt.watchers
  ended : m.closed = true → ∀ t < m.next, (m.record t).destroyed = 1

/-! ## Steps that stay clear of the defects -/

def alive (m : Machine) (t : TaskId) : Bool := (m.record t).destroyed = 0 ∧ Frame.cleanup t .free ∉ m.stack

def clean (m : Machine) : Action → Bool
  | .call (.cancelTask t) => m.alive t
  | .call (.watchFd fd events _ _) =>
    m.closing = true → ∀ w ∈ m.rt.watchers, w.fd = fd → w.events = events → m.alive w.task = true
  | .call (.tick ready _) =>
    m.closing = true → ∀ w ∈ m.rt.watchers, (∃ event ∈ ready, w.matches event = true) → m.alive w.task = true
  | .call _ => true
  | .ret =>
    match m.stack with
    | .cleanup t (.unwatch _ i) :: _ => (m.rt.watchers[i]?).map (·.task) = some t
    | _ => true
  | .advance =>
    match m.stack with
    | .unwatch fd i :: _ =>
      match m.rt.watchers[i]? with
      | none => ∀ w ∈ m.rt.watchers, w.fd ≠ fd
      | some w => m.closing = true → w.fd = fd → m.alive w.task = true
    | .timers now :: _ => m.closing = true → ∀ top ∈ m.rt.dueTimer now, m.alive top.task = true
    | .tick :: _ =>
      ∀ t ∈ m.rt.queue.head?, (m.rt.tasks t).cancelled = true → ∀ f ∈ m.stack, Frame.concerns t f = false
    | .destroyWatchers i :: _ =>
      (∀ w ∈ m.rt.watchers.take i, (m.record w.task).destroyed = 1) ∧
        ∀ w ∈ m.rt.watchers[i]?, m.alive w.task = true ∧ w.task ∉ m.rt.queue
    | .destroyTimers i :: _ =>
      (∀ timer ∈ m.rt.timers.take i, (m.record timer.task).destroyed = 1) ∧
        (∀ timer ∈ m.rt.timers[i]?, m.alive timer.task = true ∧ timer.task ∉ m.rt.queue) ∧
        (m.rt.timers[i]? = none → m.rt.queue = [] ∧ m.rt.watchers = [])
    | _ => true

def cleanStep (m : Machine) (action : Action) : Option Machine :=
  if m.clean action then m.step action else none

def cleanRun (actions : List Action) : Option Machine := actions.foldlM cleanStep {}

theorem alive_iff (m : Machine) (t : TaskId) : m.alive t = true ↔ (m.view t).Alive := by
  unfold alive
  rw [decide_eq_true_iff]
  constructor
  · intro ⟨destroyed, frees⟩
    exact ⟨destroyed, List.count_eq_zero.mpr frees⟩
  · intro ⟨destroyed, frees⟩
    exact ⟨destroyed, List.count_eq_zero.mp frees⟩

theorem Sound.owned {m : Machine} (sound : m.Sound) : m.Owned := by
  have uncreated (t : TaskId) (absent : ¬t < m.next) : m.view t = {} := sound.blank t (Nat.le_of_not_lt absent)
  have record (t : TaskId) (absent : ¬t < m.next) : m.record t = {} := congrArg View.record (uncreated t absent)
  have inQueue (t : TaskId) := State.mem_queue_iff sound.queued t
  refine ⟨?_, ?_, ?_, ?_, ?_, ?_, ?_, ?_, ?_⟩
  · intro t
    rw [sound.queued t]
    cases (m.rt.tasks t).scheduled <;> decide
  · intro t
    exact (inQueue t).symm
  · intro t
    by_cases created : t < m.next
    · exact (sound.life t created).destroyed_le
    · rw [record t created]
      decide
  · intro t destroyed
    by_cases created : t < m.next
    · rcases (sound.life t created).unreferenced destroyed with ⟨scheduled, place, _⟩
      refine ⟨?_, place⟩
      rw [inQueue t, show (m.rt.tasks t).scheduled = false from scheduled]
      decide
    · rw [record t created] at destroyed
      cases destroyed
  · intro t
    by_cases created : t < m.next
    · exact (sound.life t created).cleaned_le
    · rw [record t created]
      decide
  · intro t destroyed
    by_cases created : t < m.next
    · exact ((sound.life t created).unreferenced destroyed).2.2
    · rw [record t created] at destroyed
      cases destroyed
  · exact sound.silent
  · intro t w watch destroyed
    exact (sound.watching t w watch destroyed).2
  · intro closed
    exact (sound.ended closed).2

theorem Sound.blank_record {m : Machine} (sound : m.Sound) {t : TaskId} (uncreated : m.next ≤ t) : m.record t = {} :=
  congrArg View.record (sound.blank t uncreated)

theorem Sound.not_destroyed {m : Machine} (sound : m.Sound) {t : TaskId} (uncreated : m.next ≤ t) :
    (m.record t).destroyed ≠ 1 := by
  rw [sound.blank_record uncreated]
  decide

theorem Sound.watched {m : Machine} (sound : m.Sound) {t : TaskId} {w : Watcher} (watch : (m.record t).watch = some w) :
    (m.record t).destroyed = 1 ∨ w.task = t ∧ w ∈ m.rt.watchers := by
  have created : t < m.next := by
    by_contra uncreated
    rw [sound.blank_record (Nat.le_of_not_lt uncreated)] at watch
    cases watch
  have bound : (m.record t).destroyed ≤ 1 := (sound.life t created).destroyed_le
  by_cases running : (m.record t).destroyed = 0
  · exact .inr (sound.watching t w watch running)
  · exact .inl (by omega)

/-! ## Returning to the runtime -/

theorem ret_run {m m' : Machine} (sound : m.Sound) {t : TaskId} {rest : List Frame} (top : m.stack = .run t :: rest)
    (step : m.ret = some m') : m'.Sound := by
  have runs : (m.view t).runs ≠ 0 := by
    show m.stack.count (.run t) ≠ 0
    rw [top, List.count_cons_self]
    exact Nat.succ_ne_zero _
  have cancels : (m.view t).cancels = 0 := by
    show m.stack.countP (Frame.cancels t) = 0
    have nested := sound.nested
    rw [top] at nested ⊢
    rw [List.countP_cons_of_neg (by simp [Frame.cancels])]
    exact nested.2.1 t rfl
  have created : t < m.next := sound.created fun blank => runs (congrArg View.runs blank)
  have pops := only_popRun top
  have popped := popRun_view top t
  rw [if_pos rfl] at popped
  have settles := only_settle { m with
    rt := m.rt.modifyTask t fun task => { task with running := false }
    stack := rest } t
  rw [popped] at settles
  rcases settles with ⟨settles, settled, watchers⟩
  unfold ret at step
  rw [top] at step
  cases step
  apply (pops.trans settles).sound_at settled sound (sound.active top) created
    ((sound.life t created).settle runs cancels)
  · intro w watch destroyed
    rw [(settled_record _).1] at watch
    rw [watchers]
    apply sound.watching t w watch
    by_contra gone
    have stays : (m.view t).returned.settled.record.destroyed ≠ 0 := by
      unfold View.settled View.destroyed
      repeat' split
      · exact gone
      · exact Nat.succ_ne_zero _
      · exact gone
    exact stays destroyed
  · rw [(settled_record _).2]
    exact sound.silent t

theorem ret_free {m m' : Machine} (sound : m.Sound) {t : TaskId} {rest : List Frame} (top : m.stack = .cleanup t .free :: rest)
    (step : m.ret = some m') : m'.Sound := by
  have frees : (m.view t).frees ≠ 0 := by
    show m.stack.count (.cleanup t .free) ≠ 0
    rw [top, List.count_cons_self]
    exact Nat.succ_ne_zero _
  have created := sound.created fun blank => frees (congrArg View.frees blank)
  have popped := popCleanup_view top t
  rw [if_pos rfl] at popped
  have freed := free_view { m with stack := rest } t t
  rw [if_pos rfl, popped] at freed
  unfold ret at step
  rw [top] at step
  cases step
  apply ((only_popCleanup top).trans (only_free _ t)).sound_at freed sound (sound.active top) created
    ((sound.life t created).free frees)
  · intro w _ destroyed
    exact absurd destroyed (Nat.succ_ne_zero _)
  · exact sound.silent t

theorem ret_cancelled {m m' : Machine} (sound : m.Sound) (clean : m.clean .ret = true) {t : TaskId} {after : After}
    (other : after ≠ .free) {rest : List Frame} (top : m.stack = .cleanup t after :: rest) (step : m.ret = some m') :
    m'.Sound := by
  have cancels : (m.view t).cancels ≠ 0 := by
    show m.stack.countP (Frame.cancels t) ≠ 0
    rw [top, List.countP_cons_of_pos]
    · exact Nat.succ_ne_zero _
    · cases after with
      | free => exact absurd rfl other
      | cancel => simp [Frame.cancels]
      | unwatch fd i => simp [Frame.cancels]
  have created := sound.created fun blank => cancels (congrArg View.cancels blank)
  have life := sound.life t created
  have popped := popCleanup_view top t
  rw [if_pos rfl] at popped
  have unwinds : unwound (m.view t) after = { m.view t with cancels := (m.view t).cancels - 1 } := by
    cases after with
    | free => exact absurd rfl other
    | cancel => rfl
    | unwatch fd i => rfl
  have retires : { m with stack := rest : Machine }.Retires t after := by
    unfold Machine.clean at clean
    rw [top] at clean
    cases after with
    | free => exact absurd rfl other
    | cancel => exact True.intro
    | unwatch fd i => exact of_decide_eq_true (p := (m.rt.watchers[i]?).map Watcher.task = some t) clean
  have single : ({ m with stack := rest : Machine }.view t).once +
      ({ m with stack := rest : Machine }.view t).kept ≤ 1 := life.place_le
  have resumed := resume_view retires single t
  rw [if_pos rfl, popped, unwinds] at resumed
  unfold ret at step
  rw [top] at step
  cases step
  apply ((only_popCleanup top).trans (only_resume retires single)).sound_at resumed sound (sound.active top) created
    (life.finish cancels)
  · intro w watch
    have none : (m.record t).watch = Option.none := life.watch_of_cancels cancels
    exact absurd (none.symm.trans watch) (by simp)
  · exact sound.silent t

theorem ret_sound {m m' : Machine} (sound : m.Sound) (clean : m.clean .ret = true) (step : m.ret = some m') :
    m'.Sound := by
  have frame := step
  unfold ret at frame
  split at frame
  · rename_i t rest top
    exact ret_run sound top step
  · rename_i t after rest top
    by_cases freeing : after = .free
    · subst freeing
      exact ret_free sound top step
    · exact ret_cancelled sound clean freeing top step
  · cases frame

/-! ## The runtime's own loops -/

theorem Sound.view_ne {m : Machine} {t : TaskId} (seen : m.referenced t ≠ 0) : m.view t ≠ {} := by
  intro blank
  have once : m.rt.held .oneshot t = 0 := congrArg View.once blank
  have kept : m.rt.held .persistent t = 0 := congrArg View.kept blank
  exact seen (by unfold referenced; omega)

theorem referenced_of_watcher {m : Machine} {w : Watcher} (member : w ∈ m.rt.watchers) :
    m.referenced w.task ≠ 0 := fun none => (State.held_none none).1 w member rfl

theorem referenced_of_timer {m : Machine} {timer : Timer} (member : timer ∈ m.rt.timers) :
    m.referenced timer.task ≠ 0 := fun none => (State.held_none none).2 timer member rfl

theorem Sound.alive {m : Machine} (sound : m.Sound) {t : TaskId} (seen : m.referenced t ≠ 0)
    (clean : m.closing = true → m.alive t = true) : (m.view t).Alive := by
  have life := sound.life t (sound.created (Sound.view_ne seen))
  cases closing : m.closing with
  | true => exact (m.alive_iff t).mp (clean closing)
  | false =>
    rw [closing] at life
    exact life.alive_of_referenced seen

theorem revokeFd_sound {m : Machine} (sound : m.Sound) (active : m.closed = false) {fd : Fd}
    (none_ : ∀ w ∈ m.rt.watchers, w.fd ≠ fd) : (m.revokeFd fd).Sound := by
  have destroyed (t : TaskId) (w : Watcher) (watch : (m.record t).watch = some w) (own : w.fd = fd) :
      (m.record t).destroyed = 1 := (sound.watched watch).resolve_right fun there => none_ w there.2 own
  have record (t : TaskId) : (m.revokeFd fd).record t =
      if (m.record t).watch.any (·.fd = fd) then { m.record t with revoked := true, watch := none } else m.record t := rfl
  have outcomes (t : TaskId) : (m.revokeFd fd).record t = m.record t ∨
      (m.revokeFd fd).record t = { m.record t with revoked := true, watch := none } := by
    rw [record]
    split
    · exact .inr rfl
    · exact .inl rfl
  have revokes : Only (fun t => (m.record t).destroyed = 1) m (m.revokeFd fd) := by
    refine ⟨Nat.le_refl _, fun _ above below => absurd below (Nat.not_lt.mpr above), rfl, rfl, id, id, ?_,
      fun _ member _ => member⟩
    intro t other
    have same : (m.revokeFd fd).record t = m.record t := by
      rw [record]
      apply if_neg
      intro any
      cases watch : (m.record t).watch with
      | none => rw [watch] at any; cases any
      | some w => rw [watch] at any; exact other (destroyed t w watch (of_decide_eq_true any))
    exact view_eq rfl rfl same rfl
  apply revokes.sound sound active
  · intro t created gone
    rw [show (m.revokeFd fd).view t = { m.view t with record := (m.revokeFd fd).record t } from rfl]
    apply (sound.life t created).forget gone
    rcases outcomes t with same | revoked
    · rw [same]
      exact ⟨rfl, rfl⟩
    · rw [revoked]
      exact ⟨rfl, rfl⟩
  · intro t uncreated gone
    exact absurd gone (sound.not_destroyed uncreated)
  · intro t w gone _ running
    rcases outcomes t with same | revoked
    · rw [same, gone] at running
      cases running
    · rw [revoked] at running
      exact absurd (gone.symm.trans running) (by decide)
  · intro t _
    rcases outcomes t with same | revoked
    · rw [same]
      exact sound.silent t
    · rw [revoked]
      exact sound.silent t

theorem advance_unwatch {m m' : Machine} (sound : m.Sound) (clean : m.clean .advance = true) {fd : Fd} {i : Nat}
    {rest : List Frame} (top : m.stack = .unwatch fd i :: rest) (step : m.advance = some m') : m'.Sound := by
  have active := sound.active top
  have pops : Only (fun _ => False) m { m with stack := rest } := only_pop top (fun _ => rfl) rfl
  unfold advance at step
  unfold Machine.clean at clean
  rw [top] at step clean
  dsimp only at step clean
  split at step
  · rename_i past
    rw [past] at clean
    cases step
    exact revokeFd_sound (pops.sound_none sound active) active (of_decide_eq_true clean)
  · rename_i w here
    rw [here] at clean
    replace clean := of_decide_eq_true clean
    have member := List.mem_of_getElem? here
    split at step
    · rename_i own
      have seen := referenced_of_watcher member
      have created := sound.created (Sound.view_ne seen)
      have alive := sound.alive seen fun closing => clean closing own
      have held := (sound.life w.task created).held alive
      have same : ({ m with stack := rest } : Machine).view w.task = m.view w.task := pops.others w.task id
      rw [← same] at held
      have retires : { m with stack := rest : Machine }.Retires w.task (.unwatch fd i) := by
        show (m.rt.watchers[i]?).map (·.task) = some w.task
        rw [here]
        rfl
      rcases only_cancel retires held with ⟨cancels, cancelled⟩
      rw [same] at held cancelled
      cases step
      apply ((pops.mono fun _ => False.elim).trans cancels).sound_at cancelled sound active created (Life.cancel held)
      · intro v watch
        rw [cancelled_record.1] at watch
        cases watch
      · rw [cancelled_record.2]
        exact sound.silent w.task
    · cases step
      apply Only.sound_none _ sound active
      apply only_restack
      · intro t
        rw [top, frameCounts_cons fun _ => rfl, frameCounts_cons fun _ => rfl]
      · unfold closing
        rw [top]
        rfl
      · intro nested
        rw [top] at nested
        exact ⟨nofun, nofun, nested.2.2⟩

theorem advance_timers {m m' : Machine} (sound : m.Sound) (clean : m.clean .advance = true) {now : Nat}
    {rest : List Frame} (top : m.stack = .timers now :: rest) (step : m.advance = some m') : m'.Sound := by
  have active := sound.active top
  unfold advance at step
  unfold Machine.clean at clean
  rw [top] at step clean
  dsimp only at step clean
  replace clean := of_decide_eq_true clean
  split at step
  · rename_i timer due
    rcases State.dueTimer_mem due with ⟨others, timers⟩
    rcases State.fireTimer_spec due with ⟨watchers, queue, tasks, held⟩
    have member : timer ∈ m.rt.timers := by rw [timers]; exact List.mem_cons_self ..
    have seen := referenced_of_timer member
    have created := sound.created (Sound.view_ne seen)
    have alive := sound.alive seen fun closing => clean closing timer due
    have life := sound.life timer.task created
    have view (u : TaskId) : { m with rt := m.rt.fireTimer now timer : Machine }.view u =
        { m.view u with
          task := (m.rt.schedule timer.task).tasks u
          once := m.rt.held .oneshot u - if timer.task = u ∧ timer.repeating = false then 1 else 0 } := by
      unfold view
      dsimp only
      rw [tasks, held, held]
      simp
    have only : Only (· = timer.task) m { m with rt := m.rt.fireTimer now timer } := by
      refine ⟨Nat.le_refl _, fun _ above below => absurd below (Nat.not_lt.mpr above), rfl, rfl, ?_, id, ?_, ?_⟩
      · intro queued u
        show (m.rt.fireTimer now timer).queue.count u = ((m.rt.fireTimer now timer).tasks u).scheduled.toNat
        rw [queue, tasks]
        exact State.schedule_queued queued timer.task u
      · intro u other
        rw [view, State.schedule_tasks, if_neg other, if_neg fun hit => other hit.1.symm]
        rfl
      · intro w inside _
        show w ∈ (m.rt.fireTimer now timer).watchers
        rw [watchers]
        exact inside
    have here := view timer.task
    rw [State.schedule_tasks, if_pos rfl] at here
    have fired (mode : WatchMode) (same : timer.mode = mode) : m.rt.held mode timer.task ≠ 0 := by
      unfold State.held
      have counted : (m.rt.timers.countP fun other => other.task = timer.task ∧ other.mode = mode) ≠ 0 := by
        rw [timers, List.countP_cons_of_pos (by simp [same])]
        exact Nat.succ_ne_zero _
      omega
    have record : ∀ w, (m.record timer.task).watch = some w → (m.record timer.task).destroyed = 0 →
        w.task = timer.task ∧ w ∈ (m.rt.fireTimer now timer).watchers := by
      rw [watchers]
      exact sound.watching timer.task
    rw [← top] at step
    cases step
    by_cases repeating : timer.repeating = true
    · rw [if_neg (by simp [repeating]), Nat.sub_zero] at here
      exact only.sound_at here sound active created
        (life.schedule alive (fired .persistent (by simp [Timer.mode, repeating]))) record (sound.silent _)
    · rw [if_pos ⟨rfl, eq_false_of_ne_true repeating⟩] at here
      exact only.sound_at here sound active created
        (life.fire alive (fired .oneshot (by simp [Timer.mode, repeating]))) record (sound.silent _)
  · cases step
    exact (only_pop top (fun _ => rfl) rfl).sound_none sound active

theorem Sound.alive_of_queued {m : Machine} (sound : m.Sound) {t : TaskId} (queued : t ∈ m.rt.queue) :
    t < m.next ∧ (m.view t).Alive ∧ (m.view t).task.scheduled = true := by
  have scheduled : (m.view t).task.scheduled = true := (State.mem_queue_iff sound.queued t).mp queued
  have created : t < m.next := by
    apply sound.created
    intro blank
    rw [blank] at scheduled
    cases scheduled
  exact ⟨created, (sound.life t created).alive_of_scheduled scheduled, scheduled⟩

theorem advance_tick {m m' : Machine} (sound : m.Sound) (clean : m.clean .advance = true) {rest : List Frame}
    (top : m.stack = .tick :: rest) (step : m.advance = some m') : m'.Sound := by
  have active := sound.active top
  unfold advance at step
  unfold Machine.clean at clean
  rw [top] at step clean
  dsimp only at step clean
  replace clean := of_decide_eq_true clean
  split at step
  · rename_i t queue _ head
    have member : t ∈ m.rt.queue := by rw [head]; exact List.mem_cons_self ..
    rcases sound.alive_of_queued member with ⟨created, alive, scheduled⟩
    have life := sound.life t created
    have pops := only_dequeue head
    have popped := dequeue_view m t queue t
    rw [if_pos rfl] at popped
    have flag : ((m.dequeue t queue).rt.tasks t).cancelled = (m.view t).task.cancelled :=
      congrArg (fun v : View => v.task.cancelled) popped
    rw [flag] at step
    split at step
    · rename_i cancelled
      have clear : ∀ f ∈ m.stack, Frame.concerns t f = false := by
        rw [top]
        exact clean t (by rw [head]; rfl) cancelled
      have runs : (m.view t).runs = 0 := by
        apply List.count_eq_zero.mpr
        intro inside
        have concerned := clear _ inside
        simp [Frame.concerns] at concerned
      have cancels : (m.view t).cancels = 0 := by
        apply List.countP_eq_zero.mpr
        intro f inside
        have concerned := clear f inside
        cases f with
        | cleanup u after =>
          cases after with
          | free => simp [Frame.cancels]
          | cancel => simpa [Frame.concerns, Frame.cancels] using concerned
          | unwatch => simpa [Frame.concerns, Frame.cancels] using concerned
        | _ => simp [Frame.cancels]
      have place := life.place_of_scheduled scheduled (life.persistent_eq_false alive cancelled) cancels
      have loose := life.loose alive runs cancels (by omega)
      have settles := only_settle (m.dequeue t queue) t
      rw [popped] at settles
      rcases settles with ⟨settles, settled, watchers⟩
      have gone : (m.view t).dequeued.settled = (m.view t).dequeued.destroyed := by
        have stays : (m.view t).dequeued.task.persistent = false := life.persistent_eq_false alive cancelled
        unfold View.settled
        rw [stays]
        rfl
      rw [gone] at settled
      cases step
      apply (pops.trans settles).sound_at settled sound active created (Life.destroy loose)
      · intro w watch
        rw [(destroyed_record _).1] at watch
        have none : (m.record t).watch = Option.none := life.watch_of_cancelled alive cancelled
        exact absurd (none.symm.trans watch) (by simp)
      · rw [(destroyed_record _).2]
        exact sound.silent t
    · rename_i running
      replace running := eq_false_of_ne_true running
      have executes := execute_view (m.dequeue t queue) t t
      rw [if_pos rfl, popped] at executes
      have idle : ((m.dequeue t queue).rt.tasks t).scheduled = false :=
        congrArg (fun v : View => v.task.scheduled) popped
      have clear : (m.dequeue t queue).stack.countP (Frame.cancels t) = 0 := life.cancels_of_running running
      have unrevoked : (m.view t).record.revoked = false := by
        by_contra revoked
        rw [life.cancelled_of_revoked alive.destroyed (eq_true_of_ne_false revoked)] at running
        cases running
      cases step
      apply (pops.trans (only_execute idle clear)).sound_at executes sound active created
        (life.run scheduled running)
      · exact sound.watching t
      · show (if (m.view t).record.revoked then _ else _) = 0
        rw [unrevoked]
        exact sound.silent t
  · cases step
    exact (only_pop top (fun _ => rfl) rfl).sound_none sound active

/-! ## The end of the runtime -/

theorem Sound.alone {m : Machine} (sound : m.Sound) {f : Frame} {rest : List Frame} (top : m.stack = f :: rest)
    (ending : f.ending = true) : m.stack = [f] := by
  have nested := sound.nested
  rw [top] at nested ⊢
  rw [nested.1 ending]

theorem frames_alone {m : Machine} {f : Frame} (alone : m.stack = [f]) (ending : f.ending = true) (t : TaskId) :
    (m.view t).runs = 0 ∧ (m.view t).frees = 0 ∧ (m.view t).cancels = 0 := by
  unfold view
  dsimp only
  rw [alone]
  cases f with
  | run u => cases ending
  | cleanup u after => cases ending
  | _ => simp [Frame.cancels]

theorem advance_drain {m m' : Machine} (sound : m.Sound) {rest : List Frame} (top : m.stack = .drain :: rest)
    (step : m.advance = some m') : m'.Sound := by
  have active := sound.active top
  have alone := sound.alone top rfl
  have frames := frames_alone alone rfl
  unfold advance at step
  rw [top] at step
  dsimp only at step
  split at step
  · rename_i t queue head
    have member : t ∈ m.rt.queue := by rw [head]; exact List.mem_cons_self ..
    rcases sound.alive_of_queued member with ⟨created, alive, scheduled⟩
    have life := sound.life t created
    have pops := only_dequeue head
    have popped := dequeue_view m t queue t
    rw [if_pos rfl] at popped
    have flag : ((m.dequeue t queue).rt.tasks t).persistent = (m.view t).task.persistent :=
      congrArg (fun v : View => v.task.persistent) popped
    rw [flag] at step
    split at step
    · rename_i persistent
      cases step
      exact pops.sound_at popped sound active created (life.skip alive persistent) (sound.watching t) (sound.silent t)
    · rename_i once
      have place := life.place_of_scheduled scheduled (eq_false_of_ne_true once) (frames t).2.2
      have loose := life.loose alive (frames t).1 (frames t).2.2 (by omega)
      rcases only_destroy (m.dequeue t queue) t with ⟨destroys, destroyed⟩
      rw [popped] at destroyed
      cases step
      apply (pops.trans destroys).sound_at destroyed sound active created (Life.destroy loose)
      · rw [(destroyed_record _).1, destroyTask_watchers]
        intro w watch _
        exact sound.watching t w watch alive.destroyed
      · rw [(destroyed_record _).2]
        exact sound.silent t
  · cases step
    have opened : m.closing = false := by
      unfold closing
      rw [alone]
      rfl
    have counts (t : TaskId) : frameCounts (.destroyWatchers 0 :: rest) t = frameCounts m.stack t := by
      rw [top, frameCounts_cons fun _ => rfl, frameCounts_cons fun _ => rfl]
    have nested := sound.nested
    rw [top] at nested
    refine ⟨sound.queued, ?_, ?_, sound.watching, sound.silent, ⟨fun _ => nested.1 rfl, nofun, nested.2.2⟩, ?_⟩
    · intro t created
      rw [view_restack m counts]
      have life := sound.life t created
      rw [opened] at life
      exact life.close
    · intro t uncreated
      rw [view_restack m counts]
      exact sound.blank t uncreated
    · intro closed
      exact absurd (active.symm.trans closed) (by decide)

/-- A turn of the loops of `bb_runtime_destroy` over its watchers and timers. -/
theorem destroyEntry_sound {m mid : Machine} (sound : m.Sound) (active : m.closed = false) {f : Frame}
    (alone : m.stack = [f]) (ending : f.ending = true) (closing : m.closing = true)
    (only : Only (fun _ => False) m mid) (watchers : mid.rt.watchers = m.rt.watchers) {t : TaskId}
    (seen : m.referenced t ≠ 0) (alive : m.alive t = true) (idle : t ∉ m.rt.queue) : (mid.destroyTask t).Sound := by
  have created := sound.created (Sound.view_ne seen)
  have life := sound.life t created
  have frames := frames_alone alone ending t
  replace alive := (m.alive_iff t).mp alive
  have unscheduled : (m.view t).task.scheduled = false := by
    by_contra scheduled
    exact idle ((State.mem_queue_iff sound.queued t).mpr (eq_true_of_ne_false scheduled))
  have bound : (m.view t).once + (m.view t).kept ≤ m.closing.toNat := by
    rw [closing]
    exact life.place_le
  have loose := life.loose alive frames.1 frames.2.2 bound
  rw [View.dequeued_eq unscheduled] at loose
  rcases only_destroy mid t with ⟨destroys, destroyed⟩
  rw [only.others t id] at destroyed
  apply ((only.mono fun _ => False.elim).trans destroys).sound_at destroyed sound active created (Life.destroy loose)
  · rw [(destroyed_record _).1, destroyTask_watchers, watchers]
    intro w watch _
    exact sound.watching t w watch alive.destroyed
  · rw [(destroyed_record _).2]
    exact sound.silent t

theorem advance_destroyWatchers {m m' : Machine} (sound : m.Sound) (clean : m.clean .advance = true) {i : Nat}
    {rest : List Frame} (top : m.stack = .destroyWatchers i :: rest) (step : m.advance = some m') : m'.Sound := by
  have active := sound.active top
  have alone := sound.alone top rfl
  have closing : m.closing = true := by
    unfold Machine.closing
    rw [alone]
    rfl
  have nested := sound.nested
  rw [top] at nested
  have restack (f : Frame) (plain : ∀ t, Frame.concerns t f = false) (t : TaskId) :
      frameCounts (f :: rest) t = frameCounts m.stack t := by
    rw [top, frameCounts_cons plain, frameCounts_cons fun _ => rfl]
  unfold advance at step
  unfold Machine.clean at clean
  rw [top] at step clean
  dsimp only at step clean
  rcases of_decide_eq_true clean with ⟨passed, entry⟩
  split at step
  · rename_i w here
    rcases entry w here with ⟨alive, idle⟩
    have only : Only (fun _ => False) m { m with
        rt := { m.rt with poller := pollerUnregister m.rt.poller w.fd w.events }
        stack := .destroyWatchers (i + 1) :: rest } := by
      refine ⟨Nat.le_refl _, fun _ above below => absurd below (Nat.not_lt.mpr above), rfl, ?_, id,
        fun _ => ⟨fun _ => nested.1 rfl, nofun, nested.2.2⟩, fun u _ => ?_, fun _ member _ => member⟩
      · rw [closing]
        rfl
      · exact view_restack m (restack _ fun _ => rfl) u
    cases step
    exact destroyEntry_sound sound active alone rfl closing only rfl
      (referenced_of_watcher (List.mem_of_getElem? here)) alive idle
  · rename_i past
    rw [List.take_of_length_le (List.getElem?_eq_none_iff.mp past)] at passed
    have held (mode : WatchMode) (t : TaskId) : ({ m.rt with watchers := [] } : State).held mode t ≤ m.rt.held mode t :=
      Nat.add_le_add_right (Nat.zero_le _) _
    have kept (t : TaskId) (left : (m.record t).destroyed ≠ 1) (mode : WatchMode) :
        ({ m.rt with watchers := [] } : State).held mode t = m.rt.held mode t := by
      unfold State.held
      congr 1
      apply Eq.symm
      apply List.countP_eq_zero.mpr
      intro w member own
      have gone := passed w member
      simp only [decide_eq_true_eq] at own
      rw [own.1] at gone
      exact left gone
    have view (t : TaskId) : { m with
        rt := { m.rt with watchers := [] }
        stack := .destroyTimers 0 :: rest : Machine }.view t =
        { m.view t with
          once := ({ m.rt with watchers := [] } : State).held .oneshot t
          kept := ({ m.rt with watchers := [] } : State).held .persistent t } := by
      rw [← view_restack m (restack (.destroyTimers 0) fun _ => rfl) t]
      rfl
    have only : Only (fun t => (m.record t).destroyed = 1) m { m with
        rt := { m.rt with watchers := [] }
        stack := .destroyTimers 0 :: rest } := by
      refine ⟨Nat.le_refl _, fun _ above below => absurd below (Nat.not_lt.mpr above), rfl, ?_, id,
        fun _ => ⟨fun _ => nested.1 rfl, nofun, nested.2.2⟩, ?_, ?_⟩
      · rw [closing]
        rfl
      · intro t left
        rw [view, kept t left, kept t left]
        rfl
      · intro w member left
        exact absurd (passed w member) left
    cases step
    apply only.sound sound active
    · intro t created gone
      rw [view]
      exact (sound.life t created).shrink gone (Nat.add_le_add (held _ t) (held _ t))
    · intro t uncreated gone
      exact absurd gone (sound.not_destroyed uncreated)
    · intro t w gone _ running
      exact absurd (gone.symm.trans running) (by decide)
    · intro t _
      exact sound.silent t

theorem advance_destroyTimers {m m' : Machine} (sound : m.Sound) (clean : m.clean .advance = true) {i : Nat}
    {rest : List Frame} (top : m.stack = .destroyTimers i :: rest) (step : m.advance = some m') : m'.Sound := by
  have active := sound.active top
  have alone := sound.alone top rfl
  have closing : m.closing = true := by
    unfold Machine.closing
    rw [alone]
    rfl
  have nested := sound.nested
  rw [top] at nested
  unfold advance at step
  unfold Machine.clean at clean
  rw [top] at step clean
  dsimp only at step clean
  rcases of_decide_eq_true clean with ⟨passed, entry, last⟩
  split at step
  · rename_i timer here
    rcases entry timer here with ⟨alive, idle⟩
    have only : Only (fun _ => False) m { m with stack := .destroyTimers (i + 1) :: rest } := by
      apply only_restack
      · intro t
        rw [top, frameCounts_cons fun _ => rfl, frameCounts_cons fun _ => rfl]
      · rw [closing]
        rfl
      · exact fun _ => ⟨fun _ => nested.1 rfl, nofun, nested.2.2⟩
    cases step
    exact destroyEntry_sound sound active alone rfl closing only rfl
      (referenced_of_timer (List.mem_of_getElem? here)) alive idle
  · rename_i past
    rw [List.take_of_length_le (List.getElem?_eq_none_iff.mp past)] at passed
    rcases last past with ⟨queue, watchers⟩
    have destroyed (t : TaskId) (created : t < m.next) : (m.record t).destroyed = 1 ∧ (m.record t).cleaned = 1 := by
      by_contra left
      have life := sound.life t created
      have frames := frames_alone alone rfl t
      have stays : (m.record t).destroyed ≠ 1 := fun gone => left ⟨gone, (life.unreferenced gone).2.2⟩
      have unheld (mode : WatchMode) : m.rt.held mode t = 0 := by
        unfold State.held
        rw [watchers, List.countP_nil, Nat.zero_add]
        apply List.countP_eq_zero.mpr
        intro timer member own
        have gone := passed timer member
        simp only [decide_eq_true_eq] at own
        rw [own.1] at gone
        exact stays gone
      have idle : (m.view t).task.scheduled = false := by
        by_contra scheduled
        have member := (State.mem_queue_iff sound.queued t).mpr (eq_true_of_ne_false scheduled)
        rw [queue] at member
        cases member
      exact stays (life.destroyed_of_unreferenced idle ⟨unheld .oneshot, unheld .persistent⟩ frames)
    have bottom : rest = [] := nested.1 rfl
    cases step
    refine ⟨fun _ => rfl, ?_, ?_, ?_, sound.silent, ?_, fun _ => ⟨bottom, fun t created => (destroyed t created).1⟩⟩
    · intro t created
      refine .destroyed rfl (Nat.zero_le _) ?_ (destroyed t created)
      unfold view
      rw [bottom]
      exact ⟨rfl, rfl, rfl⟩
    · intro t uncreated
      have record : m.record t = {} := congrArg View.record (sound.blank t uncreated)
      unfold view
      dsimp only
      rw [bottom, record]
      rfl
    · intro t w watch running
      by_cases created : t < m.next
      · exact absurd ((destroyed t created).1.symm.trans running) (by decide)
      · rw [show m.record t = {} from congrArg View.record (sound.blank t (Nat.le_of_not_lt created))] at watch
        cases watch
    · show Nested rest
      rw [bottom]
      exact True.intro

theorem advance_sound {m m' : Machine} (sound : m.Sound) (clean : m.clean .advance = true)
    (step : m.advance = some m') : m'.Sound := by
  cases top : m.stack with
  | nil =>
    unfold advance at step
    rw [top] at step
    cases step
  | cons f rest =>
    cases f with
    | unwatch fd i => exact advance_unwatch sound clean top step
    | timers now => exact advance_timers sound clean top step
    | tick => exact advance_tick sound clean top step
    | drain => exact advance_drain sound top step
    | destroyWatchers i => exact advance_destroyWatchers sound clean top step
    | destroyTimers i => exact advance_destroyTimers sound clean top step
    | run t =>
      unfold advance at step
      rw [top] at step
      cases step
    | cleanup t after =>
      unfold advance at step
      rw [top] at step
      cases step

/-! ## Calls -/

theorem schedule_sound {m : Machine} (sound : m.Sound) (active : m.closed = false) : (m.call .schedule).Sound := by
  have view (u : TaskId) : (m.call .schedule).view u = if u = m.next then { task := { scheduled := true } } else m.view u := by
    have before := sound.spawn_view u
    unfold call view at *
    dsimp only at *
    rw [State.held_schedule, State.schedule_tasks]
    by_cases same : u = m.next
    · subst same
      rw [if_pos rfl, if_pos rfl]
      have blank := before.trans (sound.blank m.next (Nat.le_refl _))
      rw [View.mk.injEq] at blank
      rw [blank.1]
      exact congrArg (fun v : View => { v with task := { scheduled := true } })
        (before.trans (sound.blank m.next (Nat.le_refl _)))
    · rw [if_neg same, if_neg same]
      exact before
  have only : Only (· = m.next) m (m.call .schedule) := by
    refine sound.only_spawn.trans ⟨Nat.le_refl _, fun _ above below => absurd below (Nat.not_lt.mpr above), rfl, rfl,
      fun queued => State.schedule_queued queued m.next, id, ?_, ?_⟩
    · intro u other
      rw [view, if_neg other, sound.spawn_view]
    · intro w member _
      show w ∈ (m.spawn.rt.schedule m.next).watchers
      rw [(State.schedule_frame _ _).2.1]
      exact member
  have here := view m.next
  rw [if_pos rfl] at here
  exact only.sound_new here sound active (Nat.lt_succ_self _)
    (.waiting rfl rfl rfl rfl rfl ⟨rfl, rfl⟩ ⟨rfl, rfl⟩ rfl) (by rintro w ⟨⟩) rfl

theorem setTimer_sound {m : Machine} (sound : m.Sound) (active : m.closed = false) (intervalMs now : Nat)
    (repeating : Bool) : (m.setTimer intervalMs now repeating).Sound := by
  have tasks (u : TaskId) : (m.setTimer intervalMs now repeating).rt.tasks u =
      if u = m.next then { persistent := repeating } else m.rt.tasks u := by
    unfold setTimer spawn State.createTask
    cases repeating
    · rfl
    · by_cases same : u = m.next
      · subst same
        simp [State.pushTimer, State.markPersistent, State.modifyTask_tasks]
      · simp [State.pushTimer, State.markPersistent, State.modifyTask_tasks, same]
  have held (mode : WatchMode) (u : TaskId) : (m.setTimer intervalMs now repeating).rt.held mode u =
      m.rt.held mode u + if m.next = u ∧ (if repeating then .persistent else .oneshot) = mode then 1 else 0 := by
    unfold setTimer
    dsimp only
    rw [State.pushTimer_held]
    cases repeating
    · rfl
    · rfl
  have view (u : TaskId) : (m.setTimer intervalMs now repeating).view u =
      { m.view u with
        task := if u = m.next then { persistent := repeating } else m.rt.tasks u
        once := m.rt.held .oneshot u + if m.next = u ∧ repeating = false then 1 else 0
        kept := m.rt.held .persistent u + if m.next = u ∧ repeating = true then 1 else 0 } := by
    unfold view
    dsimp only
    rw [tasks, held, held]
    cases repeating
    · simp only [setTimer, spawn, Bool.false_eq_true, if_false, reduceCtorEq, and_true, and_false]
    · simp only [setTimer, spawn, Bool.true_eq_false, if_true, reduceCtorEq, and_true, and_false]
  have watchers : (m.setTimer intervalMs now repeating).rt.watchers = m.rt.watchers := by
    cases repeating
    · rfl
    · rfl
  have only : Only (· = m.next) m (m.setTimer intervalMs now repeating) := by
    refine ⟨Nat.le_succ _, fun u above below => Nat.le_antisymm (Nat.le_of_lt_succ below) above, rfl, rfl, ?_, id,
      ?_, ?_⟩
    · intro queued u
      have queue : (m.setTimer intervalMs now repeating).rt.queue = m.rt.queue := by
        cases repeating
        · rfl
        · rfl
      rw [queue, tasks, queued u]
      by_cases same : u = m.next
      · rw [if_pos same, same, show m.rt.tasks m.next = {} from congrArg View.task (sound.blank _ (Nat.le_refl _))]
      · rw [if_neg same]
    · intro u other
      rw [view, if_neg other, if_neg fun hit => other hit.1.symm, if_neg fun hit => other hit.1.symm]
      rfl
    · intro w member _
      rw [watchers]
      exact member
  have here := view m.next
  have blank := sound.blank m.next (Nat.le_refl _)
  rw [if_pos rfl, show m.rt.held .oneshot m.next = 0 from congrArg View.once blank,
    show m.rt.held .persistent m.next = 0 from congrArg View.kept blank, blank] at here
  apply only.sound_new here sound active (Nat.lt_succ_self _)
  · cases repeating
    · exact .waiting rfl rfl rfl (by simp) (by simp) ⟨rfl, rfl⟩ ⟨rfl, rfl⟩ rfl
    · exact .persistent rfl rfl rfl (by simp) ⟨rfl, rfl⟩ ⟨rfl, rfl⟩ rfl
  · rintro w ⟨⟩
  · rfl

theorem cancelTask_sound {m : Machine} (sound : m.Sound) (active : m.closed = false) {t : TaskId}
    (created : t < m.next) (alive : m.alive t = true) : (m.cancelTask t).Sound := by
  have held := (sound.life t created).held ((m.alive_iff t).mp alive)
  rcases only_cancel (show m.Retires t .cancel from True.intro) held with ⟨cancels, cancelled⟩
  apply cancels.sound_at cancelled sound active created (Life.cancel held)
  · intro w watch
    rw [cancelled_record.1] at watch
    cases watch
  · rw [cancelled_record.2]
    exact sound.silent t

theorem watchFd_refused {m : Machine} (sound : m.Sound) (active : m.closed = false) (fd : Fd) :
    ({ m.spawn with rt := m.spawn.rt.refuseWatcher fd }.destroyTask m.next).Sound := by
  have refuses : Only (fun _ => False) m.spawn { m.spawn with rt := m.spawn.rt.refuseWatcher fd } := by
    unfold State.refuseWatcher
    dsimp only
    split
    · exact ⟨Nat.le_refl _, fun _ above below => absurd below (Nat.not_lt.mpr above), rfl, rfl, id, id,
        fun _ _ => rfl, fun _ member _ => member⟩
    · exact ⟨Nat.le_refl _, fun _ above below => absurd below (Nat.not_lt.mpr above), rfl, rfl, id, id,
        fun _ _ => rfl, fun _ member _ => member⟩
  rcases only_destroy { m.spawn with rt := m.spawn.rt.refuseWatcher fd } m.next with ⟨destroys, destroyed⟩
  rw [refuses.others _ id, sound.spawn_view, sound.blank _ (Nat.le_refl _)] at destroyed
  have only := sound.only_spawn.trans ((refuses.mono fun _ => False.elim).trans destroys)
  have created : m.next < ({ m.spawn with rt := m.spawn.rt.refuseWatcher fd }.destroyTask m.next).next :=
    Nat.lt_of_lt_of_le (Nat.lt_succ_self _) destroys.next
  apply only.sound_new destroyed sound active created
  · exact Life.destroy ⟨⟨rfl, rfl⟩, rfl, Nat.zero_le _, ⟨rfl, rfl⟩, rfl, fun _ => ⟨rfl, rfl⟩⟩
  · rintro w ⟨⟩
  · rfl

/-- The machine once `_watch_fd` has entered the watcher. -/
def placed (m : Machine) (rt : State) (w : Watcher) : Machine :=
  { m.spawn with rt }.modifyRecord m.next fun r => { r with watch := some w }

theorem newcomer_life {closing : Bool} {v : View} (mode : WatchMode) (w : Watcher)
    (task : v.task = { persistent := decide (mode = .persistent) }) (record : v.record = { watch := some w })
    (place : v.once = (if mode = .oneshot then 1 else 0) ∧ v.kept = if mode = .persistent then 1 else 0)
    (frames : v.runs = 0 ∧ v.frees = 0 ∧ v.cancels = 0) : Life closing v := by
  cases mode with
  | oneshot =>
    refine .waiting (by rw [task]) (by rw [task]; rfl) (by rw [task]) ?_ place.2 frames.2 (by rw [record]; exact ⟨rfl, rfl⟩)
      (by rw [record])
    rw [task, place.1, frames.1]
    rfl
  | persistent =>
    exact .persistent (by rw [task]) (by rw [task]; rfl) (by rw [task]) place frames.2 (by rw [record]; exact ⟨rfl, rfl⟩)
      (by rw [record])

theorem placed_view_other {m : Machine} {rt : State} {mode : WatchMode} (w : Watcher)
    (tasks : rt.tasks = (if mode = .persistent then m.spawn.rt.markPersistent m.next else m.spawn.rt).tasks)
    {u : TaskId} (other : u ≠ m.next) :
    (m.placed rt w).view u = { m.view u with once := rt.held .oneshot u, kept := rt.held .persistent u } := by
  have task : rt.tasks u = m.rt.tasks u := by
    rw [tasks]
    cases mode
    · exact if_neg other
    · exact (if_neg other).trans (if_neg other)
  unfold placed view
  dsimp only [modifyRecord, spawn]
  rw [if_neg other, task]

theorem placed_view {m : Machine} (sound : m.Sound) {rt : State} (fd : Fd) (events : Events) (mode : WatchMode)
    (tasks : rt.tasks = (if mode = .persistent then m.spawn.rt.markPersistent m.next else m.spawn.rt).tasks)
    (held : ∀ kind, rt.held kind m.next = if mode = kind then 1 else 0) (closing : Bool) :
    Life closing ((m.placed rt ⟨fd, events, mode, m.next⟩).view m.next) ∧
    ∀ u, u ≠ m.next → (∀ kind, rt.held kind u = m.rt.held kind u) →
      (m.placed rt ⟨fd, events, mode, m.next⟩).view u = m.view u := by
  have blank := sound.blank m.next (Nat.le_refl _)
  refine ⟨?_, ?_⟩
  · apply newcomer_life mode ⟨fd, events, mode, m.next⟩
    · show rt.tasks m.next = _
      rw [tasks]
      unfold spawn State.createTask
      cases mode
      · exact if_pos rfl
      · simp [State.markPersistent, State.modifyTask_tasks]
    · have record : (m.placed rt ⟨fd, events, mode, m.next⟩).record m.next =
          { m.record m.next with watch := some ⟨fd, events, mode, m.next⟩ } := if_pos rfl
      rw [show m.record m.next = {} from congrArg View.record blank] at record
      exact record
    · exact ⟨held .oneshot, held .persistent⟩
    · exact ⟨congrArg View.runs blank, congrArg View.frees blank, congrArg View.cancels blank⟩
  · intro u other same
    rw [placed_view_other _ tasks other, same, same]
    rfl

theorem placed_queued {m : Machine} (sound : m.Sound) {rt : State} (mode : WatchMode)
    (queue : rt.queue = m.rt.queue)
    (tasks : rt.tasks = (if mode = .persistent then m.spawn.rt.markPersistent m.next else m.spawn.rt).tasks) :
    m.rt.Queued → rt.Queued := by
  intro queued
  have created := sound.only_spawn.queued queued
  intro u
  rw [queue, tasks]
  cases mode
  · exact created u
  · exact State.modifyTask_queued created m.next (fun task => { task with persistent := true }) rfl u

theorem watchFd_append_sound {m : Machine} (sound : m.Sound) (active : m.closed = false) {fd : Fd} {events : Events}
    (absent : m.rt.findWatcherExact fd events = none) (mode : WatchMode) :
    (m.placed (m.spawn.rt.placeWatcher fd events mode m.next).1 ⟨fd, events, mode, m.next⟩).Sound ∧
      (m.spawn.rt.placeWatcher fd events mode m.next).2 = none := by
  rcases State.placeWatcher_append m.spawn.rt absent mode m.next with
    ⟨rt, place, watchers, timers, queue, tasks⟩
  replace watchers : rt.watchers = m.rt.watchers ++ [⟨fd, events, mode, m.next⟩] := watchers
  replace timers : rt.timers = m.rt.timers := timers
  have held (kind : WatchMode) (u : TaskId) :
      rt.held kind u = m.rt.held kind u + if m.next = u ∧ mode = kind then 1 else 0 := by
    unfold State.held
    rw [watchers, timers, List.countP_append]
    simp only [List.countP_cons, List.countP_nil, decide_eq_true_eq]
    omega
  have blank := sound.blank m.next (Nat.le_refl _)
  have none (kind : WatchMode) : m.rt.held kind m.next = 0 := by
    cases kind
    · exact congrArg View.once blank
    · exact congrArg View.kept blank
  rcases placed_view sound fd events mode tasks (fun kind => by simp [held, none]) m.closing with ⟨life, others⟩
  rw [place]
  refine ⟨?_, rfl⟩
  have only : Only (· = m.next) m (m.placed rt ⟨fd, events, mode, m.next⟩) := by
    refine ⟨Nat.le_succ _, fun u above below => Nat.le_antisymm (Nat.le_of_lt_succ below) above, rfl, rfl,
      placed_queued sound mode queue tasks, id, ?_, ?_⟩
    · intro u other
      exact others u other fun kind => by rw [held, if_neg fun hit => other hit.1.symm, Nat.add_zero]
    · intro w member _
      show w ∈ rt.watchers
      rw [watchers]
      exact List.mem_append_left _ member
  have record : (m.placed rt ⟨fd, events, mode, m.next⟩).record m.next =
      { m.record m.next with watch := some ⟨fd, events, mode, m.next⟩ } := if_pos rfl
  apply only.sound_new rfl sound active (Nat.lt_succ_self _) life
  · intro w watch _
    rw [show ((m.placed rt _).view m.next).record = _ from record] at watch
    cases watch
    refine ⟨rfl, ?_⟩
    show _ ∈ rt.watchers
    rw [watchers]
    exact List.mem_append_right _ (List.mem_singleton_self _)
  · rw [show ((m.placed rt _).view m.next).record = _ from record]
    exact sound.silent m.next

theorem watchFd_replace_sound {m : Machine} (sound : m.Sound) (active : m.closed = false) {fd : Fd} {events : Events}
    {idx : Nat} (found : m.rt.findWatcherExact fd events = some idx) (mode : WatchMode)
    (clean : m.closing = true → ∀ w ∈ m.rt.watchers, w.fd = fd → w.events = events → m.alive w.task = true) :
    ∃ rt old, m.spawn.rt.placeWatcher fd events mode m.next = (rt, some old) ∧
      ((m.placed rt ⟨fd, events, mode, m.next⟩).cancelTask old).Sound := by
  rcases State.placeWatcher_replace m.spawn.rt found mode sound.unheld.1 with
    ⟨w, rest, rt, place, ownFd, ownEvents, before, after, timers, queue, _, tasks⟩
  replace before : m.rt.watchers.Perm (w :: rest) := before
  replace timers : rt.timers = m.rt.timers := timers
  refine ⟨rt, w.task, place, ?_⟩
  have member : w ∈ m.rt.watchers := before.mem_iff.mpr (List.mem_cons_self ..)
  have seen := referenced_of_watcher member
  have created := sound.created (Sound.view_ne seen)
  have alive := sound.alive seen fun closing => clean closing w member ownFd ownEvents
  have olds := (sound.life w.task created).held alive
  have held (kind : WatchMode) (u : TaskId) :
      rt.held kind u + (if w.task = u ∧ w.mode = kind then 1 else 0) =
        m.rt.held kind u + if m.next = u ∧ mode = kind then 1 else 0 := by
    unfold State.held
    rw [after.countP_eq, before.countP_eq, timers]
    simp only [List.countP_cons, decide_eq_true_eq]
    omega
  have differs : m.next ≠ w.task := Nat.ne_of_gt created
  have blank := sound.blank m.next (Nat.le_refl _)
  have none (kind : WatchMode) : m.rt.held kind m.next = 0 := by
    cases kind
    · exact congrArg View.once blank
    · exact congrArg View.kept blank
  have newcomer (kind : WatchMode) : rt.held kind m.next = if mode = kind then 1 else 0 := by
    have count := held kind m.next
    rw [none, if_neg fun hit => differs hit.1.symm] at count
    simpa using count
  rcases placed_view sound fd events mode tasks newcomer m.closing with ⟨life, others⟩
  have fewer (kind : WatchMode) : rt.held kind w.task ≤ m.rt.held kind w.task := by
    have count := held kind w.task
    have other : ¬(m.next = w.task ∧ mode = kind) := fun hit => differs hit.1
    rw [if_neg other] at count
    omega
  have places : Only (fun u => u = m.next ∨ u = w.task) m (m.placed rt ⟨fd, events, mode, m.next⟩) := by
    refine ⟨Nat.le_succ _, fun u above below => .inl (Nat.le_antisymm (Nat.le_of_lt_succ below) above), rfl, rfl,
      placed_queued sound mode queue tasks, id, ?_, ?_⟩
    · intro u other
      rw [not_or] at other
      apply others u other.1
      intro kind
      have count := held kind u
      rw [if_neg fun hit => other.2 hit.1.symm, if_neg fun hit => other.1 hit.1.symm] at count
      exact count
    · intro v inside other
      rw [not_or] at other
      show v ∈ rt.watchers
      rw [after.mem_iff]
      rcases List.mem_cons.mp (before.mem_iff.mp inside) with rfl | later
      · exact absurd rfl other.2
      · exact List.mem_cons_of_mem _ later
  have old := placed_view_other ⟨fd, events, mode, m.next⟩ tasks differs.symm
  have still : ((m.placed rt ⟨fd, events, mode, m.next⟩).view w.task).Held := by
    rw [old]
    exact ⟨⟨alive.destroyed, alive.frees⟩, Nat.le_trans (Nat.add_le_add (fewer _) (fewer _)) olds.place, olds.cleaned⟩
  have cancels : Only (· = w.task) (m.placed rt ⟨fd, events, mode, m.next⟩)
      ((m.placed rt ⟨fd, events, mode, m.next⟩).cancelTask w.task) := (only_cancel (show Retires _ w.task .cancel from True.intro) still).1
  have cancelled : ((m.placed rt ⟨fd, events, mode, m.next⟩).cancelTask w.task).view w.task =
      ((m.placed rt ⟨fd, events, mode, m.next⟩).view w.task).cancelled :=
    (only_cancel (show Retires _ w.task .cancel from True.intro) still).2
  generalize (m.placed rt ⟨fd, events, mode, m.next⟩).cancelTask w.task = final at cancels cancelled ⊢
  have only := places.trans (cancels.mono fun _ => .inr)
  have unchanged := cancels.others m.next differs
  have record : final.record m.next = { m.record m.next with watch := some ⟨fd, events, mode, m.next⟩ } :=
    (congrArg View.record unchanged).trans (if_pos rfl)
  have cancelledRecord : final.record w.task = _ := congrArg View.record cancelled
  apply only.sound sound active
  · rintro u _ (rfl | rfl)
    · rw [unchanged]
      exact life
    · rw [cancelled]
      exact Life.cancel still
  · rintro u uncreated (rfl | rfl)
    · exact absurd (Nat.lt_of_lt_of_le (Nat.lt_succ_self _) cancels.next) (Nat.not_lt.mpr uncreated)
    · exact absurd (Nat.lt_of_lt_of_le created only.next) (Nat.not_lt.mpr uncreated)
  · rintro u v (rfl | rfl) watch _
    · rw [record] at watch
      cases watch
      refine ⟨rfl, cancels.watchers _ ?_ differs⟩
      show _ ∈ rt.watchers
      rw [after.mem_iff]
      exact List.mem_cons_self ..
    · rw [cancelledRecord, cancelled_record.1] at watch
      cases watch
  · rintro u (rfl | rfl)
    · rw [record]
      exact sound.silent m.next
    · rw [cancelledRecord, cancelled_record.2, old]
      exact sound.silent w.task

theorem watchFd_sound {m : Machine} (sound : m.Sound) (active : m.closed = false) (fd : Fd) (events : Events)
    (mode : WatchMode) (accepted : Bool)
    (clean : m.closing = true → ∀ w ∈ m.rt.watchers, w.fd = fd → w.events = events → m.alive w.task = true) :
    (m.watchFd fd events mode accepted).Sound := by
  unfold watchFd
  dsimp only
  split
  · exact watchFd_refused sound active fd
  · cases found : m.rt.findWatcherExact fd events with
    | none =>
      rcases watchFd_append_sound sound active found mode with ⟨placed, none⟩
      rw [none]
      exact placed
    | some idx =>
      rcases watchFd_replace_sound sound active found mode clean with ⟨rt, old, place, cancelled⟩
      rw [place]
      exact cancelled

theorem filter_watch (r : Record) (gone : Watcher → Bool) (stays : ∀ w, r.watch = some w → gone w = false) :
    { r with watch := r.watch.filter fun w => !gone w } = r := by
  rcases r with ⟨destroyed, cleaned, revoked, lateRuns, watch⟩
  cases watch with
  | none => rfl
  | some w =>
    have kept := stays w rfl
    simp [kept]

theorem dispatchEvent_view (m : Machine) (ready : PollFd) (t : TaskId) : (m.dispatchEvent ready).view t =
    { m.view t with
      task := (m.rt.dispatchEvent ready).tasks t
      record := { m.record t with
        watch := (m.record t).watch.filter fun w => !(w.matches ready && w.mode = .oneshot) }
      once := (m.rt.dispatchEvent ready).held .oneshot t
      kept := (m.rt.dispatchEvent ready).held .persistent t } := rfl

theorem dispatchEvent_unfired {rt : State} {ready : PollFd} {t : TaskId}
    (none : ∀ w ∈ rt.watchers, w.matches ready = true → w.task ≠ t) (mode : WatchMode) :
    (rt.dispatchEvent ready).held mode t = rt.held mode t := by
  rw [rt.dispatchEvent_held ready mode t, Nat.left_eq_add]
  apply List.countP_eq_zero.mpr
  intro w member hit
  simp only [decide_eq_true_eq] at hit
  exact none w member hit.2.1 hit.1.1

theorem dispatchEvent_only {m : Machine} (sound : m.Sound) (ready : PollFd) :
    Only (fun t => (∃ w ∈ m.rt.watchers, w.matches ready = true ∧ w.task = t) ∨ (m.record t).destroyed = 1) m
      (m.dispatchEvent ready) := by
  refine ⟨Nat.le_refl _, fun _ above below => absurd below (Nat.not_lt.mpr above), rfl, rfl,
    fun queued => State.dispatchEvent_queued queued ready, id, ?_, ?_⟩
  · intro t other
    rw [not_or] at other
    have none : ∀ w ∈ m.rt.watchers, w.matches ready = true → w.task ≠ t :=
      fun w member hit own => other.1 ⟨w, member, hit, own⟩
    have same := filter_watch (m.record t) (fun w => w.matches ready && w.mode = .oneshot) fun w watch => by
      rcases (sound.watched watch).resolve_left other.2 with ⟨own, member⟩
      have miss : w.matches ready = false := by
        by_contra hit
        exact none w member (eq_true_of_ne_false hit) own
      rw [miss]
      rfl
    rw [dispatchEvent_view, same, m.rt.dispatchEvent_tasks ready, if_neg other.1, dispatchEvent_unfired none,
      dispatchEvent_unfired none]
    rfl
  · intro w member other
    rw [not_or] at other
    apply (m.rt.dispatchEvent_watchers ready).mem_iff.mpr
    apply List.mem_filter.mpr
    refine ⟨member, ?_⟩
    have miss : w.matches ready = false := by
      by_contra hit
      exact other.1 ⟨w, member, eq_true_of_ne_false hit, rfl⟩
    rw [miss]
    rfl

theorem dispatchEvent_fired {m : Machine} {ready : PollFd} {w : Watcher} (member : w ∈ m.rt.watchers)
    (hit : w.matches ready = true) (life : Life m.closing (m.view w.task)) (alive : (m.view w.task).Alive) :
    Life m.closing ((m.dispatchEvent ready).view w.task) := by
  have held := m.rt.dispatchEvent_held ready
  have task := m.rt.dispatchEvent_tasks ready w.task
  rw [if_pos ⟨w, member, hit, rfl⟩] at task
  have once := held .oneshot w.task
  have stays : (m.rt.dispatchEvent ready).held .persistent w.task = m.rt.held .persistent w.task := by
    rw [held .persistent w.task, Nat.left_eq_add]
    apply List.countP_eq_zero.mpr
    intro v _ both
    simp only [decide_eq_true_eq] at both
    exact absurd (both.1.2.symm.trans both.2.2) (by decide)
  have total : m.rt.held .oneshot w.task + m.rt.held .persistent w.task ≤ 1 := life.place_le
  have entered : m.rt.held w.mode w.task ≠ 0 := by
    have counted : (m.rt.watchers.countP fun v => v.task = w.task ∧ v.mode = w.mode) ≠ 0 := by
      intro zero
      exact List.countP_eq_zero.mp zero w member (by simp)
    unfold State.held
    omega
  have gives : (m.record w.task).watch = none →
      (m.record w.task).watch.filter (fun v => !(v.matches ready && v.mode = .oneshot)) = none := by
    intro unwatched
    rw [unwatched]
    rfl
  rw [dispatchEvent_view, task, stays]
  cases mode : w.mode with
  | oneshot =>
    rw [mode] at entered
    have counted : (m.rt.watchers.countP fun v =>
        (v.task = w.task ∧ v.mode = .oneshot) ∧ v.matches ready = true ∧ v.mode = .oneshot) ≠ 0 := by
      intro zero
      exact List.countP_eq_zero.mp zero w member (by simp [mode, hit])
    have gone : (m.rt.dispatchEvent ready).held .oneshot w.task = m.rt.held .oneshot w.task - 1 := by omega
    rw [gone]
    exact (life.fire alive entered).with_watch _ gives
  | persistent =>
    rw [mode] at entered
    have same : (m.rt.dispatchEvent ready).held .oneshot w.task = m.rt.held .oneshot w.task := by omega
    rw [same]
    exact (life.schedule alive entered).with_watch _ gives

theorem dispatchEvent_sound {m : Machine} (sound : m.Sound) (active : m.closed = false) (ready : PollFd)
    (clean : m.closing = true → ∀ w ∈ m.rt.watchers, w.matches ready = true → m.alive w.task = true) :
    (m.dispatchEvent ready).Sound := by
  apply (dispatchEvent_only sound ready).sound sound active
  · intro t created changed
    have life := sound.life t created
    by_cases fired : ∃ w ∈ m.rt.watchers, w.matches ready = true ∧ w.task = t
    · rcases fired with ⟨w, member, hit, rfl⟩
      exact dispatchEvent_fired member hit life
        (sound.alive (referenced_of_watcher member) fun closing => clean closing w member hit)
    · have none : ∀ w ∈ m.rt.watchers, w.matches ready = true → w.task ≠ t :=
        fun w member hit own => fired ⟨w, member, hit, own⟩
      rw [dispatchEvent_view, m.rt.dispatchEvent_tasks ready, if_neg fired, dispatchEvent_unfired none,
        dispatchEvent_unfired none]
      exact life.forget (changed.resolve_left fired) _ ⟨rfl, rfl⟩
  · intro t uncreated changed
    rcases changed with ⟨w, member, _, rfl⟩ | gone
    · have created := sound.created (Sound.view_ne (referenced_of_watcher member))
      exact absurd created (Nat.not_lt.mpr uncreated)
    · exact absurd gone (sound.not_destroyed uncreated)
  · intro t w _ watch running
    have before : (m.record t).watch.filter (fun w => !(w.matches ready && w.mode = .oneshot)) = some w := watch
    rw [Option.filter_eq_some_iff] at before
    rcases sound.watching t w before.1 running with ⟨own, member⟩
    exact ⟨own, (m.rt.dispatchEvent_watchers ready).mem_iff.mpr (List.mem_filter.mpr ⟨member, before.2⟩)⟩
  · intro t _
    exact sound.silent t

theorem wait_sound {m : Machine} (sound : m.Sound) (active : m.closed = false) (ready : List PollFd)
    (clean : m.closing = true → ∀ w ∈ m.rt.watchers, (∃ event ∈ ready, w.matches event = true) →
      m.alive w.task = true) :
    (ready.foldl dispatchEvent m).Sound ∧ (ready.foldl dispatchEvent m).closed = false ∧
      (ready.foldl dispatchEvent m).stack = m.stack := by
  induction ready generalizing m with
  | nil => exact ⟨sound, active, rfl⟩
  | cons event ready ih =>
    have once := dispatchEvent_sound sound active event fun closing w member hit =>
      clean closing w member ⟨event, List.mem_cons_self .., hit⟩
    apply ih once active
    intro closing w member hit
    rcases hit with ⟨other, inside, matched⟩
    have before : w ∈ m.rt.watchers := (List.mem_filter.mp ((m.rt.dispatchEvent_watchers event).mem_iff.mp member)).1
    exact clean closing w before ⟨other, List.mem_cons_of_mem _ inside, matched⟩

theorem Sound.push {m : Machine} (sound : m.Sound) (active : m.closed = false) {f : Frame}
    (plain : ∀ t, Frame.concerns t f = false) (ending : f.ending = false) : { m with stack := f :: m.stack }.Sound := by
  apply Only.sound_none _ sound active
  apply only_restack
  · intro t
    rw [frameCounts_cons plain]
  · unfold closing
    cases f with
    | drain => cases ending
    | destroyWatchers i => cases ending
    | destroyTimers i => cases ending
    | _ => rfl
  · intro nested
    refine ⟨fun last => ?_, ?_, nested⟩
    · rw [last] at ending
      cases ending
    · rintro t rfl
      have own := plain t
      simp [Frame.concerns] at own

theorem rt_sound {m : Machine} (sound : m.Sound) (active : m.closed = false) (rt : State) (same :
    rt.queue = m.rt.queue ∧ rt.watchers = m.rt.watchers ∧ rt.timers = m.rt.timers ∧ rt.tasks = m.rt.tasks) :
    { m with rt }.Sound := by
  rcases same with ⟨queue, watchers, timers, tasks⟩
  apply Only.sound_none _ sound active
  refine ⟨Nat.le_refl _, fun _ above below => absurd below (Nat.not_lt.mpr above), rfl, rfl, ?_, id, ?_, ?_⟩
  · intro queued t
    rw [queue, tasks]
    exact queued t
  · intro t _
    exact view_eq (congrFun tasks t) (State.held_perm (by rw [watchers]) (by rw [timers])) rfl rfl
  · intro w member _
    rw [watchers]
    exact member

theorem call_sound {m : Machine} (sound : m.Sound) (program : m.inProgram = true) {call : Call}
    (allowed : m.allowed call = true) (clean : m.clean (.call call) = true) : (m.call call).Sound := by
  have active : m.closed = false := by
    cases top : m.stack with
    | nil =>
      unfold inProgram at program
      rw [top] at program
      simpa using program
    | cons f rest => exact sound.active top
  cases call with
  | schedule => exact schedule_sound sound active
  | watchFd fd events mode accepted => exact watchFd_sound sound active fd events mode accepted (of_decide_eq_true clean)
  | unwatchFd fd =>
    exact Sound.push (f := .unwatch fd 0)
      (rt_sound sound active { m.rt with poller := pollerUnregister m.rt.poller fd (eventRead ||| eventWrite) }
        ⟨rfl, rfl, rfl, rfl⟩) active (fun _ => rfl) rfl
  | setInterval intervalMs now => exact setTimer_sound sound active intervalMs now true
  | setTimeout timeoutMs now => exact setTimer_sound sound active timeoutMs now false
  | cancelTask t => exact cancelTask_sound sound active (of_decide_eq_true allowed).1 clean
  | tick ready now =>
    rcases wait_sound sound active ready (of_decide_eq_true clean) with ⟨waited, still, stack⟩
    have ticking := Sound.push (f := .tick) waited still (fun _ => rfl) rfl
    have timers := Sound.push (f := .timers now) ticking still (fun _ => rfl) rfl
    unfold Machine.call
    rw [← stack]
    exact timers
  | setRunning => exact rt_sound sound active _ ⟨rfl, rfl, rfl, rfl⟩
  | stop => exact rt_sound sound active _ ⟨rfl, rfl, rfl, rfl⟩
  | destroy =>
    have empty : m.stack = [] := of_decide_eq_true allowed
    apply Only.sound_none _ sound active
    apply only_restack
    · intro t
      rw [frameCounts_cons fun _ => rfl]
    · unfold closing
      rfl
    · exact fun nested => ⟨fun _ => empty, nofun, nested⟩

/-! ## Runs -/

theorem sound_init : Sound {} :=
  ⟨fun _ => rfl, fun _ created => absurd created (Nat.not_lt_zero _), fun _ _ => rfl, nofun, fun _ => rfl, True.intro,
    nofun⟩

theorem cleanStep_sound {m m' : Machine} (sound : m.Sound) {action : Action} (step : m.cleanStep action = some m') :
    m'.Sound := by
  unfold cleanStep at step
  split at step
  · rename_i clean
    cases action with
    | call call =>
      unfold Machine.step at step
      dsimp only at step
      split at step
      · rename_i may
        rw [Bool.and_eq_true] at may
        cases step
        exact call_sound sound may.1 may.2 clean
      · cases step
    | ret => exact ret_sound sound clean step
    | advance => exact advance_sound sound clean step
  · cases step

theorem cleanRun_sound {m m' : Machine} (sound : m.Sound) (actions : List Action)
    (reached : actions.foldlM cleanStep m = some m') : m'.Sound :=
  Runs.invariant_of_run sound (fun _ _ _ sound one => cleanStep_sound sound one) reached

/-- Every state that a run of clean steps reaches has its tasks in order. -/
theorem owned_of_cleanRun (actions : List Action) (m : Machine) (reached : cleanRun actions = some m) : m.Owned :=
  (cleanRun_sound sound_init actions reached).owned

theorem owned_of_cleanRun_closed : ∃ m, cleanRun [.call (.watchFd 4 eventRead .persistent true),
    .call (.watchFd 5 eventWrite .oneshot true), .call (.setTimeout 10 0), .call .setRunning,
    .call (.tick [⟨5, eventWrite⟩] 3), .advance, .advance, .call (.cancelTask 0), .ret, .ret, .ret, .advance, .advance,
    .call .destroy, .advance, .advance, .advance, .ret, .advance] = some m ∧ m.Owned := by
  refine Exists.imp (fun m reached => ⟨reached, owned_of_cleanRun _ m reached⟩) ?_
  apply Option.isSome_iff_exists.mp
  decide

/-- The hook of a watcher that is being unwatched cancels another task, and a third one loses its watcher. -/
theorem not_owned_unwatch : ¬∀ actions m, run actions = some m → m.Owned := by
  intro owned
  have lost := (owned [.call (.watchFd 1 eventRead .oneshot true), .call (.watchFd 2 eventRead .oneshot true),
    .call (.watchFd 3 eventRead .oneshot true), .call (.unwatchFd 3), .advance, .advance, .advance,
    .call (.cancelTask 0), .ret, .ret] _ rfl).watching 1 ⟨2, eventRead, .oneshot, 1⟩ rfl rfl
  revert lost
  decide

end Machine
end BlueBird.Runtime
