import BlueBird.Connection.Reading
import BlueBird.Runtime.Machine

namespace BlueBird.Net

open BlueBird.Runtime (State TaskId Fd Events eventRead eventWrite)

inductive Side where
  | read | write
  deriving DecidableEq, Repr

/-- What an async connection calls in its owner. All but the last are set together with the tasks. -/
inductive Callback where
  | readStep | readError | writeSuccess | writeFailure | disconnect
  deriving DecidableEq, Repr

/-- How an attempt to register a watcher goes: the task, its place in the table of watchers or the poller
    can be missing. -/
inductive Arming where
  | armed | unallocated | unplaced | refused
  deriving DecidableEq, Repr

/-- `bb_async_connection_t` with the runtime it is registered in. `side` says whose tasks the runtime's are,
    `disconnect` whether that callback is installed. -/
structure AsyncConnection where
  rt : State := {}
  next : TaskId := 0
  side : TaskId → Option Side := fun _ => none
  fd : Fd := 0
  connection : Option Connection := some {}
  disconnected : Bool := false
  disconnect : Bool := false
  writeTask : Option TaskId := none
  writeWatchEvents : Events := eventWrite
  writeRewatching : Bool := false
  readTask : Option TaskId := none
  readWatchEvents : Events := eventRead

def Connection.desiredWrite (conn : Connection) : Events :=
  if conn.writeIoHint = .needRead then eventRead else eventWrite

def Connection.desiredRead (conn : Connection) : Events :=
  if conn.readIoHint = .needWrite then eventWrite else eventRead

namespace AsyncConnection

def modifyConnection (a : AsyncConnection) (f : Connection → Connection) : AsyncConnection :=
  { a with connection := a.connection.map f }

/-! ## Tasks -/

/-- `_bb_write_task_cleanup` and `_bb_read_task_cleanup` -/
def cleanup (a : AsyncConnection) (t : TaskId) : AsyncConnection :=
  match a.side t with
  | some .write =>
    let a := { a with writeTask := none }
    if a.writeRewatching then a else a.modifyConnection fun conn => { conn with writePending := false }
  | some .read => { a with readTask := none }
  | none => a

/-- `_bb_task_finalize` -/
def finalize (a : AsyncConnection) (t : TaskId) : AsyncConnection :=
  if (a.rt.tasks t).finalized then a else { a with rt := a.rt.markFinalized t }.cleanup t

def cancelTask (a : AsyncConnection) (t : TaskId) : AsyncConnection :=
  let a := { a with rt := a.rt.markCancelled t }.finalize t
  { a with rt := a.rt.finishCancel t }

/-- `bb_runtime_cancel_task` on a pointer that may be NULL. -/
def cancel (a : AsyncConnection) : Option TaskId → AsyncConnection
  | some t => a.cancelTask t
  | none => a

def createTask (a : AsyncConnection) (side : Side) : AsyncConnection :=
  { a with
    rt := a.rt.createTask a.next
    next := a.next + 1
    side := fun t => if t = a.next then some side else a.side t }

/-- `bb_runtime_watch_fd_ex` with the connection's descriptor. -/
def watch (a : AsyncConnection) (side : Side) (events : Events) (arming : Arming) :
    AsyncConnection × Option TaskId :=
  if arming = .unallocated then (a, none)
  else
    let t := a.next
    let existingMask := a.rt.fdRegisteredMask a.fd
    let fresh := a.rt.findWatcherExact a.fd events = none
    let a := a.createTask side
    if fresh ∧ arming = .unplaced then (a.finalize t, none)
    else if fresh ∧ existingMask ||| events ≠ existingMask ∧ arming = .refused then
      ({ a with rt := a.rt.refuseWatcher a.fd }.finalize t, none)
    else
      let (rt, replaced) := a.rt.placeWatcher a.fd events .persistent t
      ({ a with rt }.cancel replaced, some t)

/-! ## Ending -/

/-- `_bb_async_connection_handle_disconnect`, with the callbacks still to be invoked. -/
def handleDisconnect (a : AsyncConnection) : AsyncConnection × List Callback :=
  if a.disconnected then (a, [])
  else
    let a := { a with disconnected := true }
    let a := a.cancel a.readTask
    let a := a.cancel a.writeTask
    (a, if a.disconnect then [.disconnect] else [])

/-- `bb_async_connection_close` -/
def close (a : AsyncConnection) : AsyncConnection × List Callback :=
  handleDisconnect { a with connection := none }

/-! ## Writing -/

/-- The end of `_bb_async_connection_rewatch_write`, with the task that could be registered. -/
def placeWrite (a : AsyncConnection) (events : Events) : Option TaskId → AsyncConnection × List Callback
  | none => (a.modifyConnection fun conn => { conn with writePending := false }, [.writeFailure])
  | some t => ({ a with writeTask := some t, writeWatchEvents := events }, [])

/-- `_bb_async_connection_rewatch_write` -/
def rewatchWrite (a : AsyncConnection) (events : Events) (arming : Arming) : AsyncConnection × List Callback :=
  let a := { { a with writeRewatching := true }.cancel a.writeTask with writeRewatching := false }
  let watched := a.watch .write events arming
  watched.1.placeWrite events watched.2

/-- `_bb_write_task` once `bb_connection_write` has returned. -/
def afterWrite (a : AsyncConnection) (t : TaskId) (conn : Connection) (outcome : Outcome) (arming : Arming) :
    AsyncConnection × List Callback :=
  match outcome with
  | .connectionClosed =>
    let (a, callbacks) := (a.cancelTask t).handleDisconnect
    (a, callbacks ++ [.writeFailure])
  | .ioError => (a.cancelTask t, [.writeFailure])
  | .success =>
    if conn.desiredWrite ≠ a.writeWatchEvents then a.rewatchWrite conn.desiredWrite arming
    else if conn.writeData ≠ [] then (a, [])
    else (a.cancelTask t, [.writeSuccess])

/-- `_bb_write_task` -/
def runWriteTask (a : AsyncConnection) (t : TaskId) (statuses : List TransportStatus) (arming : Arming) :
    AsyncConnection × List Callback :=
  match a.connection with
  | none => (a.cancelTask t, [])
  | some conn =>
    let written := conn.write statuses
    { a with connection := some written.1 }.afterWrite t written.1 written.2.1 arming

/-- `bb_async_connection_create_write_task`; the second result is whether it succeeded. -/
def createWriteTask (a : AsyncConnection) (arming : Arming) : AsyncConnection × Bool :=
  match a.connection with
  | none => (a, false)
  | some conn =>
    if conn.writePending then (a, true)
    else
      match a.watch .write eventWrite arming with
      | (a, none) => (a, false)
      | (a, some t) =>
        ({ a with writeTask := some t, writeWatchEvents := eventWrite }.modifyConnection fun conn =>
          { conn with writePending := true }, true)

/-! ## Reading -/

/-- The end of `_bb_async_connection_rewatch_read`, with the task that could be registered. -/
def placeRead (a : AsyncConnection) (events : Events) : Option TaskId → AsyncConnection × List Callback
  | none => (a, [.readError])
  | some t => ({ a with readTask := some t, readWatchEvents := events }, [])

/-- `_bb_async_connection_rewatch_read` -/
def rewatchRead (a : AsyncConnection) (events : Events) (arming : Arming) : AsyncConnection × List Callback :=
  let watched := (a.cancel a.readTask).watch .read events arming
  watched.1.placeRead events watched.2

/-- `_bb_read_task` once `bb_connection_read` has returned, up to the read step, whose result is looked at when
    it returns. -/
def afterRead (a : AsyncConnection) (t : TaskId) (conn : Connection) (outcome : ReadOutcome) (arming : Arming) :
    AsyncConnection × List Callback :=
  match outcome with
  | .connectionClosed => a.handleDisconnect
  | .success =>
    if conn.desiredRead ≠ a.readWatchEvents then a.rewatchRead conn.desiredRead arming
    else if conn.state = .handshake then (a, [])
    else (a, [.readStep])
  | _ => (a.cancelTask t, [.readError])

/-- `_bb_read_task` -/
def runReadTask (a : AsyncConnection) (t : TaskId) (handshake : Handshake) (turns : List ReadTurn)
    (arming : Arming) : AsyncConnection × List Callback :=
  match a.connection with
  | none => (a.cancelTask t, [])
  | some conn =>
    let done := conn.read handshake turns
    { a with connection := some done.1 }.afterRead t done.1 done.2 arming

/-- `bb_async_connection_pause_read` -/
def pauseRead (a : AsyncConnection) : AsyncConnection :=
  match a.readTask with
  | none => a
  | some t => { a.cancelTask t with readTask := none }

/-- `bb_async_connection_create_read_task`; the second result is whether it succeeded. -/
def createReadTask (a : AsyncConnection) (arming : Arming) : AsyncConnection × Bool :=
  match a.connection with
  | none => (a, false)
  | some _ =>
    match a.readTask with
    | some _ => (a, true)
    | none =>
      match a.watch .read eventRead arming with
      | (a, none) => (a, false)
      | (a, some t) => ({ a with readTask := some t, readWatchEvents := eventRead }, true)

end AsyncConnection
end BlueBird.Net
