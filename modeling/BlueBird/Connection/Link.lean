import Mathlib.Tactic.SplitIfs

/-! An async connection as its owner sees it: whether it is still there, and whether it will call. -/

namespace BlueBird.Net

/-- `connection` is whether `async_conn->connection` is set, `hook` whether a disconnect callback is installed, and the
    tasks are the registered ones. -/
structure Link where
  connection : Bool := true
  disconnected : Bool := false
  hook : Bool := false
  readTask : Bool := false
  writeTask : Bool := false
  deriving DecidableEq, Repr

/-- How a run of `_bb_write_task` goes: nothing comes of it yet, all is written, an error, the end of the connection,
    or no watcher for the other direction. -/
inductive WriteRun where
  | waits | done | failed | closed | unarmed
  deriving DecidableEq, Repr

/-- How a run of `_bb_read_task` goes: there is nothing for the read step yet, or there is, and the same. -/
inductive ReadRun where
  | waits | bytes | failed | closed | unarmed
  deriving DecidableEq, Repr

namespace Link

/-- `_bb_async_connection_handle_disconnect`, with whether the callback is called at its end. -/
def handleDisconnect (l : Link) : Link × Bool :=
  if l.disconnected then (l, false)
  else ({ l with disconnected := true, readTask := false, writeTask := false }, l.hook)

/-- `bb_async_connection_create_write_task`, with whether it succeeds; `armed` is whether a watcher is to be had. -/
def createWriteTask (l : Link) (armed : Bool) : Link × Bool :=
  if l.connection = false then (l, false)
  else if l.writeTask then (l, true)
  else ({ l with writeTask := armed }, armed)

/-- `bb_async_connection_create_read_task` -/
def createReadTask (l : Link) (armed : Bool) : Link × Bool :=
  if l.connection = false then (l, false)
  else if l.readTask then (l, true)
  else ({ l with readTask := armed }, armed)

/-- What `bb_async_connection_close` leaves. -/
def closed (l : Link) : Link := ({ l with connection := false } : Link).handleDisconnect.1

theorem closed_connection (l : Link) : l.closed.connection = false := by
  unfold closed handleDisconnect
  split <;> rfl

theorem handleDisconnect_connection (l : Link) : l.handleDisconnect.1.connection = l.connection := by
  unfold handleDisconnect
  split <;> rfl

/-- Tasks are cancelled with the end of the connection, once. -/
def Idle (l : Link) : Prop := l.readTask = false ∧ l.writeTask = false

theorem handleDisconnect_idle {l : Link} (idle : l.disconnected = true → l.Idle) : l.handleDisconnect.1.Idle := by
  unfold handleDisconnect
  split
  · exact idle ‹_›
  · exact ⟨rfl, rfl⟩

theorem closed_idle {l : Link} (idle : l.disconnected = true → l.Idle) : l.closed.Idle := by
  unfold closed
  exact @handleDisconnect_idle { l with connection := false } idle

theorem handleDisconnect_disconnected (l : Link) : l.handleDisconnect.1.disconnected = true := by
  unfold handleDisconnect
  split
  · assumption
  · rfl

theorem createReadTask_eq (l : Link) (armed : Bool) : ∃ readTask, (l.createReadTask armed).1 = { l with readTask } := by
  unfold createReadTask
  split_ifs
  · exact ⟨l.readTask, rfl⟩
  · exact ⟨l.readTask, rfl⟩
  · exact ⟨armed, rfl⟩

def Fewer (l m : Link) : Prop := (m.readTask = true → l.readTask = true) ∧ (m.writeTask = true → l.writeTask = true)

theorem Fewer.refl (l : Link) : Fewer l l := ⟨id, id⟩

variable {l m : Link}

theorem Fewer.reading (fewer : Fewer l m) (stopped : l.readTask = false) : m.readTask = false := by
  cases task : m.readTask with
  | false => rfl
  | true => exact (fewer.1 task).symm.trans stopped

theorem Fewer.writing (fewer : Fewer l m) (stopped : l.writeTask = false) : m.writeTask = false := by
  cases task : m.writeTask with
  | false => rfl
  | true => exact (fewer.2 task).symm.trans stopped

theorem Fewer.idle (fewer : Fewer l m) (idle : l.Idle) : m.Idle := ⟨fewer.reading idle.1, fewer.writing idle.2⟩

theorem handleDisconnect_fewer (l : Link) : Fewer l l.handleDisconnect.1 := by
  unfold handleDisconnect
  split
  · exact .refl l
  · exact ⟨(fun task => by cases task), fun task => by cases task⟩

theorem closed_fewer (l : Link) : Fewer l l.closed := handleDisconnect_fewer { l with connection := false }

end Link
end BlueBird.Net
