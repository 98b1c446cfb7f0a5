import BlueBird.Collections.BinaryHeap
import Mathlib.Algebra.Ring.Nat

namespace BlueBird.Runtime

open SwapRemove

abbrev TaskId := Nat
abbrev Fd := Int
abbrev Events := BitVec 32

def eventRead : Events := 1
def eventWrite : Events := 2

inductive WatchMode where
  | oneshot | persistent
  deriving DecidableEq, Repr

/-- The `state` bits of a task. -/
structure Task where
  scheduled : Bool := false
  running : Bool := false
  cancelled : Bool := false
  persistent : Bool := false
  finalized : Bool := false
  deriving DecidableEq, Repr

structure Watcher where
  fd : Fd
  events : Events
  mode : WatchMode
  task : TaskId
  deriving DecidableEq, Repr

structure Timer where
  intervalMs : Nat
  nextFireMs : Nat
  repeating : Bool
  task : TaskId
  deriving DecidableEq, Repr

/-- A descriptor with a mask: what the poller has registered, or what it reports as ready. -/
structure PollFd where
  fd : Fd
  events : Events
  deriving DecidableEq, Repr

/-- `bb_runtime_t` -/
structure State where
  running : Bool := false
  queue : List TaskId := []
  poller : List PollFd := []
  watchers : List Watcher := []
  timers : List Timer := []
  tasks : TaskId → Task := fun _ => {}

def Watcher.matches (w : Watcher) (ready : PollFd) : Bool :=
  w.fd = ready.fd ∧ w.events &&& ready.events ≠ 0

/-! ## The poller's table -/

def pollerRegister (fds : List PollFd) (fd : Fd) (events : Events) : List PollFd :=
  match fds.findIdx? (·.fd = fd) with
  | some idx => fds.modify idx fun p => { p with events := p.events ||| events }
  | none => fds ++ [⟨fd, events⟩]

def pollerUnregister (fds : List PollFd) (fd : Fd) (events : Events) : List PollFd :=
  match fds.findIdx? (·.fd = fd) with
  | none => fds
  | some idx =>
    let fds := fds.modify idx fun p => { p with events := p.events &&& ~~~events }
    if (fds[idx]?).map (·.events) = some 0 then swapRemove fds idx else fds

/-! ## Tasks and the scheduler -/

namespace State

def modifyTask (rt : State) (t : TaskId) (f : Task → Task) : State :=
  { rt with tasks := fun u => if u = t then f (rt.tasks u) else rt.tasks u }

/-- `bb_task_create` -/
def createTask (rt : State) (t : TaskId) : State := rt.modifyTask t fun _ => {}

def schedule (rt : State) (t : TaskId) : State :=
  if (rt.tasks t).scheduled then rt
  else { rt.modifyTask t fun task => { task with scheduled := true } with queue := rt.queue ++ [t] }

/-- The flags that `bb_task_cancel` sets before it runs the cleanup hook. -/
def markCancelled (rt : State) (t : TaskId) : State :=
  rt.modifyTask t fun task => { task with cancelled := true, persistent := false }

def markFinalized (rt : State) (t : TaskId) : State :=
  rt.modifyTask t fun task => { task with finalized := true }

/-! ## Watchers -/

/-- `_bb_runtime_remove_watchers` -/
def removeWatchers (rt : State) (t : TaskId) : State :=
  let (watchers, poller) :=
    scan (fun w : Watcher => w.task = t)
      (fun poller w => if w.task = t then pollerUnregister poller w.fd w.events else poller)
      rt.watchers.length 0 rt.watchers rt.poller
  { rt with watchers, poller }

def removeTimers (rt : State) (t : TaskId) : State :=
  { rt with timers := BinaryHeap.removeAll Timer.nextFireMs (·.task = t) rt.timers.length 0 rt.timers }

/-- What `bb_runtime_cancel_task` does once the cleanup hook has returned. -/
def finishCancel (rt : State) (t : TaskId) : State :=
  ((rt.removeWatchers t).removeTimers t).schedule t

def findWatcherExact (rt : State) (fd : Fd) (events : Events) : Option Nat :=
  rt.watchers.findIdx? fun w => w.fd = fd ∧ w.events = events

def fdRegisteredMask (rt : State) (fd : Fd) : Events :=
  rt.watchers.foldl (fun mask w => if w.fd = fd then mask ||| w.events else mask) 0

def markPersistent (rt : State) (t : TaskId) : State :=
  rt.modifyTask t fun task => { task with persistent := true }

/-- The part of `_watch_fd` before the old task of an equal watcher is cancelled; that task is the
    second result. -/
def placeWatcher (rt : State) (fd : Fd) (events : Events) (mode : WatchMode) (t : TaskId) :
    State × Option TaskId :=
  let marked := if mode = .persistent then rt.markPersistent t else rt
  match rt.findWatcherExact fd events with
  | some idx =>
    ({ marked with watchers := rt.watchers.modify idx fun w => { w with mode, task := t } },
      ((rt.watchers[idx]?).map (·.task)).filter (· ≠ t))
  | none =>
    let existingMask := rt.fdRegisteredMask fd
    let newMask := existingMask ||| events
    let poller :=
      if newMask ≠ existingMask then
        pollerRegister (if existingMask ≠ 0 then pollerUnregister rt.poller fd existingMask else rt.poller)
          fd newMask
      else rt.poller
    ({ marked with watchers := rt.watchers ++ [⟨fd, events, mode, t⟩], poller }, none)

/-- What a ready descriptor does with one watcher. -/
def deliver (ready : PollFd) (rt : State) (w : Watcher) : State :=
  if w.matches ready then
    let rt := rt.schedule w.task
    if w.mode = .oneshot then { rt with poller := pollerUnregister rt.poller w.fd w.events } else rt
  else rt

/-- The inner loop of `_bb_runtime_wait`, for one ready descriptor. -/
def dispatchEvent (rt : State) (ready : PollFd) : State :=
  let (watchers, after) := scan (fun w : Watcher => w.matches ready && w.mode = .oneshot) (deliver ready)
    rt.watchers.length 0 rt.watchers rt
  { after with watchers }

/-- `_bb_runtime_wait` with what the poller reports as ready. -/
def wait (rt : State) (ready : List PollFd) : State := ready.foldl dispatchEvent rt

/-! ## Timers -/

def pushTimer (rt : State) (timer : Timer) : State :=
  { rt with timers := BinaryHeap.push Timer.nextFireMs rt.timers timer }

/-- The root of the heap, when it is due. -/
def dueTimer (rt : State) (now : Nat) : Option Timer := rt.timers.head?.filter (·.nextFireMs ≤ now)

def rearmed (now intervalMs : Nat) : Nat :=
  let next := (now + intervalMs) % 2 ^ 64
  if next ≤ now then (now + 1) % 2 ^ 64 else next

/-- One turn of `_bb_runtime_update_timers`, for a due root. -/
def fireTimer (rt : State) (now : Nat) (top : Timer) : State :=
  let rt := rt.schedule top.task
  if top.repeating then
    let rearm (timer : Timer) := { timer with nextFireMs := rearmed now top.intervalMs }
    { rt with timers := BinaryHeap.rescheduleTop Timer.nextFireMs rt.timers rearm }
  else { rt with timers := BinaryHeap.removeAt Timer.nextFireMs rt.timers 0 }

end State
end BlueBird.Runtime
