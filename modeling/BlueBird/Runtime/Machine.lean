import BlueBird.Runtime.Operations

namespace BlueBird.Runtime

/-! ## Calls in progress -/

inductive After where
  | free
  | cancel
  | unwatch (fd : Fd) (i : Nat)
  deriving DecidableEq, Repr

inductive Frame where
  | run (t : TaskId)
  | cleanup (t : TaskId) (after : After)
  | unwatch (fd : Fd) (i : Nat)
  | timers (now : Nat)
  | tick
  | drain
  | destroyWatchers (i : Nat)
  | destroyTimers (i : Nat)
  deriving DecidableEq, Repr

/-- Calls of the program on the runtime; `accepted` is what the poller's backend answers. -/
inductive Call where
  | schedule
  | watchFd (fd : Fd) (events : Events) (mode : WatchMode) (accepted : Bool)
  | unwatchFd (fd : Fd)
  | setInterval (intervalMs now : Nat)
  | setTimeout (timeoutMs now : Nat)
  | cancelTask (t : TaskId)
  | tick (ready : List PollFd) (now : Nat)
  | setRunning
  | stop
  | destroy
  deriving DecidableEq, Repr

inductive Action where
  | call (call : Call)
  | ret
  | advance
  deriving DecidableEq, Repr

/-- What has become of a task. `watch` is the watcher it still has a right to. -/
structure Record where
  destroyed : Nat := 0
  cleaned : Nat := 0
  revoked : Bool := false
  lateRuns : Nat := 0
  watch : Option Watcher := none
  deriving DecidableEq, Repr

/-- A runtime with the calls in progress on it, innermost first. -/
structure Machine where
  rt : State := {}
  next : TaskId := 0
  record : TaskId → Record := fun _ => {}
  stack : List Frame := []
  closed : Bool := false

/-- What is left when the backend refuses a descriptor. -/
def State.refuseWatcher (rt : State) (fd : Fd) : State :=
  let existingMask := rt.fdRegisteredMask fd
  if existingMask ≠ 0 then { rt with poller := pollerUnregister rt.poller fd existingMask } else rt

def Frame.cancels (t : TaskId) : Frame → Bool
  | .cleanup u .cancel => u = t
  | .cleanup u (.unwatch _ _) => u = t
  | _ => false

/-- Frames of `bb_runtime_destroy`, which lie under all others. -/
def Frame.ending : Frame → Bool
  | .drain | .destroyWatchers _ | .destroyTimers _ => true
  | _ => false

def Frame.closing : Frame → Bool
  | .destroyWatchers _ | .destroyTimers _ => true
  | _ => false

def Frame.concerns (t : TaskId) : Frame → Bool
  | .run u | .cleanup u _ => u = t
  | _ => false

namespace Machine

def modifyRecord (m : Machine) (t : TaskId) (f : Record → Record) : Machine :=
  { m with record := fun u => if u = t then f (m.record u) else m.record u }

/-- `bb_task_create` for the next task. -/
def spawn (m : Machine) : Machine := { m with rt := m.rt.createTask m.next, next := m.next + 1 }

/-- The flags set by `bb_task_cancel`. -/
def markCancelled (m : Machine) (t : TaskId) : Machine :=
  { m.modifyRecord t fun r => { r with revoked := true, watch := none } with rt := m.rt.markCancelled t }

/-! ## Tasks -/

/-- What happens once the cleanup hook has returned. -/
def resume (m : Machine) (t : TaskId) : After → Machine
  | .free => m.modifyRecord t fun r => { r with destroyed := r.destroyed + 1 }
  | .cancel => { m with rt := m.rt.finishCancel t }
  | .unwatch fd i =>
    { m with
      rt := { m.rt with watchers := SwapRemove.swapRemove m.rt.watchers i }.schedule t
      stack := .unwatch fd i :: m.stack }

def beginCleanup (m : Machine) (t : TaskId) (after : After) : Machine :=
  { m.modifyRecord t fun r => { r with cleaned := r.cleaned + 1 } with
    rt := m.rt.markFinalized t
    stack := .cleanup t after :: m.stack }

/-- `_bb_task_finalize` and what its caller does after it. -/
def finalize (m : Machine) (t : TaskId) (after : After) : Machine :=
  if (m.rt.tasks t).finalized then m.resume t after else m.beginCleanup t after

def destroyTask (m : Machine) (t : TaskId) : Machine := m.finalize t .free

def cancelTask (m : Machine) (t : TaskId) : Machine := (m.markCancelled t).finalize t .cancel

def execute (m : Machine) (t : TaskId) : Machine :=
  { m.modifyRecord t fun r => { r with lateRuns := if r.revoked then r.lateRuns + 1 else r.lateRuns } with
    rt := m.rt.modifyTask t fun task => { task with scheduled := false, running := true }
    stack := .run t :: m.stack }

/-- The end of a turn of the loop in `bb_runtime_tick`. -/
def settle (m : Machine) (t : TaskId) : Machine :=
  if (m.rt.tasks t).scheduled || (m.rt.tasks t).persistent then m else m.destroyTask t

/-! ## Calls -/

/-- A one-shot watcher that fires is given up. -/
def dispatchEvent (m : Machine) (ready : PollFd) : Machine :=
  { m with
    rt := m.rt.dispatchEvent ready
    record := fun t =>
      { m.record t with watch := (m.record t).watch.filter fun w => !(w.matches ready && w.mode = .oneshot) } }

def watchFd (m : Machine) (fd : Fd) (events : Events) (mode : WatchMode) (accepted : Bool) : Machine :=
  let t := m.next
  let existingMask := m.rt.fdRegisteredMask fd
  let m := m.spawn
  if m.rt.findWatcherExact fd events = none ∧ existingMask ||| events ≠ existingMask ∧ accepted = false then
    { m with rt := m.rt.refuseWatcher fd }.destroyTask t
  else
    let (rt, replaced) := m.rt.placeWatcher fd events mode t
    let m := { m with rt }.modifyRecord t fun r => { r with watch := some ⟨fd, events, mode, t⟩ }
    match replaced with
    | some old => m.cancelTask old
    | none => m

def setTimer (m : Machine) (intervalMs now : Nat) (repeating : Bool) : Machine :=
  let t := m.next
  let m := m.spawn
  let rt := if repeating then m.rt.markPersistent t else m.rt
  { m with rt := rt.pushTimer ⟨intervalMs, (now + intervalMs) % 2 ^ 64, repeating, t⟩ }

def call (m : Machine) : Call → Machine
  | .schedule => { m.spawn with rt := m.spawn.rt.schedule m.next }
  | .watchFd fd events mode accepted => m.watchFd fd events mode accepted
  | .unwatchFd fd =>
    { m with
      rt := { m.rt with poller := pollerUnregister m.rt.poller fd (eventRead ||| eventWrite) }
      stack := .unwatch fd 0 :: m.stack }
  | .setInterval intervalMs now => m.setTimer intervalMs now true
  | .setTimeout timeoutMs now => m.setTimer timeoutMs now false
  | .cancelTask t => m.cancelTask t
  | .tick ready now =>
    { ready.foldl dispatchEvent m with stack := .timers now :: .tick :: m.stack }
  | .setRunning => { m with rt := { m.rt with running := true } }
  | .stop => { m with rt := { m.rt with running := false } }
  | .destroy => { m with stack := .drain :: m.stack }

/-- The program runs between calls, in callbacks and in cleanup hooks. -/
def inProgram (m : Machine) : Bool :=
  match m.stack with
  | [] => !m.closed
  | .run _ :: _ | .cleanup _ _ :: _ => true
  | _ => false

def ret (m : Machine) : Option Machine :=
  match m.stack with
  | .run t :: rest =>
    some ({ m with
      rt := m.rt.modifyTask t fun task => { task with running := false }
      stack := rest }.settle t)
  | .cleanup t after :: rest => some ({ m with stack := rest }.resume t after)
  | _ => none

/-! ## The runtime's own loops -/

/-- `bb_scheduler_next`, and SCHEDULED cleared. -/
def dequeue (m : Machine) (t : TaskId) (queue : List TaskId) : Machine :=
  { m with rt := { m.rt with queue }.modifyTask t fun task => { task with scheduled := false } }

/-- At the end of the loop nothing of the descriptor may be left. -/
def revokeFd (m : Machine) (fd : Fd) : Machine :=
  { m with
    record := fun t =>
      if (m.record t).watch.any (·.fd = fd) then { m.record t with revoked := true, watch := none }
      else m.record t }

def advance (m : Machine) : Option Machine :=
  match m.stack with
  | .unwatch fd i :: rest =>
    match m.rt.watchers[i]? with
    | none => some ({ m with stack := rest }.revokeFd fd)
    | some w =>
      if w.fd = fd then
        some (({ m with stack := rest }.markCancelled w.task).finalize w.task (.unwatch fd i))
      else some { m with stack := .unwatch fd (i + 1) :: rest }
  | .timers now :: rest =>
    match m.rt.dueTimer now with
    | some top => some { m with rt := m.rt.fireTimer now top }
    | none => some { m with stack := rest }
  | .tick :: rest =>
    match m.rt.running, m.rt.queue with
    | true, t :: queue =>
      let m := m.dequeue t queue
      if (m.rt.tasks t).cancelled then some (m.settle t) else some (m.execute t)
    | _, _ => some { m with stack := rest }
  | .drain :: rest =>
    match m.rt.queue with
    | t :: queue =>
      let m := m.dequeue t queue
      if (m.rt.tasks t).persistent then some m else some (m.destroyTask t)
    | [] => some { m with stack := .destroyWatchers 0 :: rest }
  | .destroyWatchers i :: rest =>
    match m.rt.watchers[i]? with
    | some w =>
      some ({ m with
        rt := { m.rt with poller := pollerUnregister m.rt.poller w.fd w.events }
        stack := .destroyWatchers (i + 1) :: rest }.destroyTask w.task)
    | none => some { m with rt := { m.rt with watchers := [] }, stack := .destroyTimers 0 :: rest }
  | .destroyTimers i :: rest =>
    match m.rt.timers[i]? with
    | some timer => some ({ m with stack := .destroyTimers (i + 1) :: rest }.destroyTask timer.task)
    | none => some { m with rt := {}, stack := rest, closed := true }
  | _ => none

/-- A task is cancelled while it has not been destroyed, and the runtime is destroyed from outside. -/
def allowed (m : Machine) : Call → Bool
  | .cancelTask t => t < m.next ∧ (m.record t).destroyed = 0
  | .destroy => m.stack = []
  | _ => true

def step (m : Machine) : Action → Option Machine
  | .call call => if m.inProgram && m.allowed call then some (m.call call) else none
  | .ret => m.ret
  | .advance => m.advance

def run (actions : List Action) : Option Machine := actions.foldlM step {}

/-- A hook that does nothing makes a cancellation `State.cancelTask`. -/
theorem cancelTask_ret (m : Machine) (t : TaskId) (fresh : (m.rt.tasks t).finalized = false) :
    ((m.cancelTask t).ret).map (·.rt) = some (m.rt.cancelTask t) := by
  have first : ((m.markCancelled t).rt.tasks t).finalized = false := by
    show (if t = t then _ else _ : Task).finalized = false
    rw [if_pos rfl]
    exact fresh
  unfold cancelTask finalize
  rw [if_neg (by rw [first]; decide)]
  rfl

end Machine
end BlueBird.Runtime
