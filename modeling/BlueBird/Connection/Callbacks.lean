import BlueBird.Connection.Async
import BlueBird.Program.Runs

namespace BlueBird.Net

open BlueBird.Runtime (TaskId PollFd eventRead eventWrite)

/-! ## An async connection between its runtime and its owner -/

inductive Frame where
  | task (t : TaskId)
  | callback (callback : Callback)
  | pending (callbacks : List Callback)
  | free
  deriving DecidableEq, Repr

inductive Call where
  | setDisconnectCallback (present : Bool)
  | bufferAdd (buffer : Option BufferId) (length : Nat) (calloc : Bool)
  | write (statuses : List TransportStatus)
  | consume (length : Nat)
  | createWriteTask (arming : Arming)
  | createReadTask (arming : Arming)
  | pauseRead
  | close
  | destroy
  deriving DecidableEq, Repr

structure Weather where
  statuses : List TransportStatus := []
  handshake : Handshake := .ok
  turns : List ReadTurn := []
  arming : Arming := .armed
  deriving DecidableEq, Repr

inductive Action where
  | call (call : Call)
  | ret (readError : Bool)
  | advance
  | wait (ready : List PollFd)
  | runNext (weather : Weather)
  deriving DecidableEq, Repr

/-- The connection, what is in progress on it (innermost first), and what has happened: the callbacks invoked,
    the bytes received and those that a read step has been offered, and which sides its owner expects to be
    served. -/
structure Hosted where
  conn : AsyncConnection := {}
  stack : List Frame := []
  log : List Callback := []
  freed : Bool := false
  received : Nat := 0
  offered : Nat := 0
  writeStarted : Bool := false
  readStarted : Bool := false

def pend (callbacks : List Callback) (rest : List Frame) : List Frame :=
  if callbacks = [] then rest else .pending callbacks :: rest

namespace Hosted

/-- The end of a turn of the loop in `bb_runtime_tick`. -/
def settle (h : Hosted) (t : TaskId) : Hosted :=
  let task := h.conn.rt.tasks t
  if task.scheduled || task.persistent then h else { h with conn := h.conn.finalize t }

def bufferLength (h : Hosted) : Nat := (h.conn.connection.map (·.buffer.length)).getD 0

def perform (h : Hosted) : Call → Hosted
  | .setDisconnectCallback present => { h with conn := { h.conn with disconnect := present } }
  | .bufferAdd buffer length calloc =>
    { h with conn := h.conn.modifyConnection fun conn => (conn.bufferAdd buffer length calloc).1 }
  | .write statuses => { h with conn := h.conn.modifyConnection fun conn => (conn.write statuses).1 }
  | .consume length =>
    { h with conn := h.conn.modifyConnection fun conn => { conn with buffer := conn.buffer.drop length } }
  | .createWriteTask arming =>
    let (conn, created) := h.conn.createWriteTask arming
    { h with conn, writeStarted := h.writeStarted || created }
  | .createReadTask arming =>
    let (conn, created) := h.conn.createReadTask arming
    { h with conn, readStarted := h.readStarted || created }
  | .pauseRead => { h with conn := h.conn.pauseRead, readStarted := false }
  | .close =>
    let (conn, callbacks) := h.conn.close
    { h with conn, stack := pend callbacks h.stack }
  | .destroy =>
    let (conn, callbacks) := h.conn.close
    { h with conn, stack := pend callbacks (.free :: h.stack) }

def modifyTask (h : Hosted) (t : TaskId) (f : Runtime.Task → Runtime.Task) : Hosted :=
  { h with conn := { h.conn with rt := h.conn.rt.modifyTask t f } }

/-- `bb_task_execute` -/
def runTask (h : Hosted) (t : TaskId) (weather : Weather) : Hosted :=
  let h := h.modifyTask t fun task => { task with running := true }
  match h.conn.side t with
  | some .write =>
    let (conn, callbacks) := h.conn.runWriteTask t weather.statuses weather.arming
    { h with
      conn
      stack := pend callbacks [.task t]
      writeStarted := h.writeStarted && callbacks = [] }
  | some .read =>
    let (conn, callbacks) := h.conn.runReadTask t weather.handshake weather.turns weather.arming
    let after := { h with conn, stack := pend callbacks [.task t] }
    { after with
      received := h.received + (after.bufferLength - h.bufferLength)
      readStarted := h.readStarted && (callbacks = [] ∨ callbacks = [.readStep]) }
  | none => { h with stack := [.task t] }

/-- `bb_scheduler_next`, and SCHEDULED cleared. -/
def dequeue (h : Hosted) (t : TaskId) (queue : List TaskId) : Hosted :=
  { h with conn := { h.conn with rt := { h.conn.rt with queue } } }.modifyTask t fun task =>
    { task with scheduled := false }

/-- One turn of the loop in `bb_runtime_tick`. -/
def runNext (h : Hosted) (weather : Weather) : Hosted :=
  match h.conn.rt.queue with
  | [] => h
  | t :: queue =>
    let h := h.dequeue t queue
    if (h.conn.rt.tasks t).cancelled then h.settle t else h.runTask t weather

def invoke (h : Hosted) (callback : Callback) (rest : List Frame) : Hosted :=
  { h with
    stack := .callback callback :: rest
    log := h.log ++ [callback]
    offered := if callback = .readStep then h.received else h.offered }

def ownerRuns (h : Hosted) : Bool :=
  match h.stack with
  | [] => true
  | .callback _ :: _ => true
  | _ => false

def ret (h : Hosted) (readError : Bool) : Option Hosted :=
  match h.stack with
  | .callback callback :: rest =>
    some { h with stack := pend (if callback = .readStep ∧ readError = true then [.readError] else []) rest }
  | _ => none

def endTask (h : Hosted) (t : TaskId) (rest : List Frame) : Hosted :=
  ({ h with stack := rest }.modifyTask t fun task => { task with running := false }).settle t

def advance (h : Hosted) : Option Hosted :=
  match h.stack with
  | .pending [] :: rest => some { h with stack := rest }
  | .pending (callback :: callbacks) :: rest => some (h.invoke callback (pend callbacks rest))
  | .task t :: rest => some (h.endTask t rest)
  | .free :: rest => some { h with stack := rest, freed := true }
  | _ => none

def step (h : Hosted) : Action → Option Hosted
  | .call call => if h.ownerRuns = true ∧ h.freed = false then some (h.perform call) else none
  | .ret readError => h.ret readError
  | .advance => h.advance
  | .wait ready => if h.stack = [] then some { h with conn := { h.conn with rt := h.conn.rt.wait ready } } else none
  | .runNext weather => if h.stack = [] then some (h.runNext weather) else none

/-- A connection that has been opened, on a descriptor, perhaps with a handshake ahead. -/
def opened (fd : Runtime.Fd) (state : ConnectionState) : Hosted :=
  { conn := { fd, connection := some { state } } }

def run (start : Hosted) (actions : List Action) : Option Hosted := actions.foldlM step start

/-! ## What a step can be -/

inductive Stepped (h : Hosted) : Action → Hosted → Prop where
  | call (call : Call) (runs : h.ownerRuns = true) : Stepped h (.call call) (h.perform call)
  | ret (readError : Bool) (callback : Callback) (rest : List Frame) (stack : h.stack = .callback callback :: rest) :
      Stepped h (.ret readError)
        { h with stack := pend (if callback = .readStep ∧ readError = true then [.readError] else []) rest }
  | drop (rest : List Frame) (stack : h.stack = .pending [] :: rest) : Stepped h .advance { h with stack := rest }
  | invoke (callback : Callback) (callbacks : List Callback) (rest : List Frame)
      (stack : h.stack = .pending (callback :: callbacks) :: rest) :
      Stepped h .advance (h.invoke callback (pend callbacks rest))
  | endTask (t : TaskId) (rest : List Frame) (stack : h.stack = .task t :: rest) :
      Stepped h .advance (h.endTask t rest)
  | free (rest : List Frame) (stack : h.stack = .free :: rest) :
      Stepped h .advance { h with stack := rest, freed := true }
  | wait (ready : List PollFd) (idle : h.stack = []) :
      Stepped h (.wait ready) { h with conn := { h.conn with rt := h.conn.rt.wait ready } }
  | runNext (weather : Weather) (idle : h.stack = []) : Stepped h (.runNext weather) (h.runNext weather)

theorem stepped {h h' : Hosted} {action : Action} (step : h.step action = some h') : Stepped h action h' := by
  cases action with
  | call call =>
    simp only [Hosted.step, Option.ite_none_right_eq_some, Option.some.injEq] at step
    rcases step with ⟨⟨runs, _⟩, rfl⟩
    exact .call call runs
  | ret readError =>
    simp only [Hosted.step, Hosted.ret] at step
    split at step
    · rename_i callback rest stack
      cases step
      exact .ret readError callback rest stack
    · cases step
  | advance =>
    simp only [Hosted.step, Hosted.advance] at step
    split at step
    · rename_i rest stack
      cases step
      exact .drop rest stack
    · rename_i callback callbacks rest stack
      cases step
      exact .invoke callback callbacks rest stack
    · rename_i t rest stack
      cases step
      exact .endTask t rest stack
    · rename_i rest stack
      cases step
      exact .free rest stack
    · cases step
  | wait ready =>
    simp only [Hosted.step, Option.ite_none_right_eq_some, Option.some.injEq] at step
    rcases step with ⟨idle, rfl⟩
    exact .wait ready idle
  | runNext weather =>
    simp only [Hosted.step, Option.ite_none_right_eq_some, Option.some.injEq] at step
    rcases step with ⟨idle, rfl⟩
    exact .runNext weather idle

theorem runNext_cases (h : Hosted) (weather : Weather) :
    h.conn.rt.queue = [] ∧ h.runNext weather = h ∨
    ∃ t queue, h.conn.rt.queue = t :: queue ∧
      ((h.conn.rt.tasks t).cancelled = true ∧ h.runNext weather = (h.dequeue t queue).settle t ∨
        (h.conn.rt.tasks t).cancelled = false ∧ h.runNext weather = (h.dequeue t queue).runTask t weather) := by
  unfold runNext
  cases scheduled : h.conn.rt.queue with
  | nil => exact Or.inl ⟨rfl, rfl⟩
  | cons t queue =>
    have flags : ((h.dequeue t queue).conn.rt.tasks t).cancelled = (h.conn.rt.tasks t).cancelled := by
      show (if t = t then _ else _ : Runtime.Task).cancelled = _
      rw [if_pos rfl]
    refine Or.inr ⟨t, queue, rfl, ?_⟩
    dsimp only
    rw [flags]
    cases (h.conn.rt.tasks t).cancelled with
    | true => exact Or.inl ⟨rfl, rfl⟩
    | false => exact Or.inr ⟨rfl, rfl⟩

/-! ## Whole runs -/

/-- Every step of a run meets a condition in the state that it starts from. -/
def Along (condition : Hosted → Action → Prop) (start : Hosted) (actions : List Action) : Prop :=
  ∀ before action h, before ++ [action] <+: actions → run start before = some h → condition h action

theorem along_nil {condition : Hosted → Action → Prop} (start : Hosted) : Along condition start [] := Runs.along_nil start

theorem along_cons {condition : Hosted → Action → Prop} {start : Hosted} {action : Action} {actions : List Action}
    (now : condition start action) (later : ∀ next, start.step action = some next → Along condition next actions) :
    Along condition start (action :: actions) := Runs.along_cons now later

theorem run_induction {condition : Hosted → Action → Prop} {invariant : Hosted → Prop} {start : Hosted}
    (first : invariant start)
    (kept : ∀ h action h', invariant h → condition h action → h.Stepped action h' → invariant h')
    (actions : List Action) (along : Along condition start actions) (h : Hosted)
    (reached : run start actions = some h) : invariant h :=
  Runs.along_invariant first (fun h action h' holds meets step => kept h action h' holds meets (stepped step)) along reached

end Hosted
end BlueBird.Net
