import BlueBird.Runtime.State

namespace BlueBird.Runtime

open SwapRemove

/-! ## The operations with cleanup hooks that leave the runtime alone -/

namespace State

def cancelTask (rt : State) (t : TaskId) : State :=
  ((rt.markCancelled t).markFinalized t).finishCancel t

def watchFd (rt : State) (fd : Fd) (events : Events) (mode : WatchMode) (t : TaskId) : State :=
  match (rt.createTask t).placeWatcher fd events mode t with
  | (rt, some old) => rt.cancelTask old
  | (rt, none) => rt

/-- What `bb_runtime_unwatch_fd` does with one watcher. -/
def dropWatcher (fd : Fd) (rt : State) (w : Watcher) : State :=
  if w.fd = fd then ((rt.markCancelled w.task).markFinalized w.task).schedule w.task else rt

/-- The second result is what `bb_runtime_unwatch_fd` returns. -/
def unwatchFd (rt : State) (fd : Fd) : State × Int :=
  let rt := { rt with poller := pollerUnregister rt.poller fd (eventRead ||| eventWrite) }
  let (watchers, after) := scan (fun w : Watcher => w.fd = fd) (dropWatcher fd) rt.watchers.length 0 rt.watchers rt
  ({ after with watchers }, if rt.watchers.any (·.fd = fd) then 0 else -1)

@[simp] theorem modifyTask_frame (rt : State) (t : TaskId) (f : Task → Task) :
    (rt.modifyTask t f).poller = rt.poller ∧ (rt.modifyTask t f).watchers = rt.watchers ∧
      (rt.modifyTask t f).timers = rt.timers ∧ (rt.modifyTask t f).queue = rt.queue ∧
      (rt.modifyTask t f).running = rt.running := ⟨rfl, rfl, rfl, rfl, rfl⟩

@[simp] theorem schedule_frame (rt : State) (t : TaskId) :
    (rt.schedule t).poller = rt.poller ∧ (rt.schedule t).watchers = rt.watchers ∧
      (rt.schedule t).timers = rt.timers ∧ (rt.schedule t).running = rt.running := by
  unfold schedule
  split <;> simp

theorem removeWatchers_spec (rt : State) (t : TaskId) :
    (rt.removeWatchers t).watchers.Perm (rt.watchers.filter fun w => w.task ≠ t) ∧
      ∃ order : List Watcher, order.Perm rt.watchers ∧ (rt.removeWatchers t).poller =
        order.foldl (fun poller w => if w.task = t then pollerUnregister poller w.fd w.events else poller)
          rt.poller := by
  obtain ⟨order, visits, state, kept⟩ := scan_spec (fun w : Watcher => w.task = t)
    (fun poller w => if w.task = t then pollerUnregister poller w.fd w.events else poller)
    rt.watchers.length 0 rt.watchers rt.poller (by omega)
  simp only [List.take_zero, List.drop_zero, List.nil_append] at visits kept
  refine ⟨?_, order, visits, state⟩
  simpa [removeWatchers] using kept

theorem dispatchEvent_spec (rt : State) (ready : PollFd) :
    ∃ order kept : List Watcher, order.Perm rt.watchers ∧
      rt.dispatchEvent ready = { order.foldl (deliver ready) rt with watchers := kept } ∧
      kept.Perm (rt.watchers.filter fun w => !(w.matches ready && w.mode = .oneshot)) := by
  obtain ⟨order, visits, state, kept⟩ := scan_spec (fun w : Watcher => w.matches ready && w.mode = .oneshot)
    (deliver ready) rt.watchers.length 0 rt.watchers rt (by omega)
  simp only [List.take_zero, List.drop_zero, List.nil_append] at visits kept
  exact ⟨order, _, visits, by rw [← state]; rfl, kept⟩

theorem unwatchFd_spec (rt : State) (fd : Fd) :
    ∃ order kept : List Watcher, order.Perm rt.watchers ∧
      (rt.unwatchFd fd).1 = { order.foldl (dropWatcher fd)
        { rt with poller := pollerUnregister rt.poller fd (eventRead ||| eventWrite) } with watchers := kept } ∧
      kept.Perm (rt.watchers.filter fun w => w.fd ≠ fd) := by
  obtain ⟨order, visits, state, kept⟩ := scan_spec (fun w : Watcher => w.fd = fd) (dropWatcher fd)
    rt.watchers.length 0 rt.watchers
    { rt with poller := pollerUnregister rt.poller fd (eventRead ||| eventWrite) } (by omega)
  simp only [List.take_zero, List.drop_zero, List.nil_append] at visits kept
  refine ⟨order, _, visits, by rw [← state]; rfl, ?_⟩
  simpa using kept

end State
end BlueBird.Runtime
