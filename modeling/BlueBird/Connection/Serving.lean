import BlueBird.Connection.Sides

namespace BlueBird.Net

open BlueBird.Runtime (State Task TaskId Watcher Session Registered Events PollFd Fd eventRead eventWrite)

namespace Connection

theorem writeLoop_pending (conn : Connection) (statuses : List TransportStatus) :
    (conn.writeLoop statuses).1.writePending = conn.writePending := by
  induction statuses generalizing conn with
  | nil => rfl
  | cons status statuses ih =>
    unfold writeLoop
    cases conn.writeData with
    | nil => rfl
    | cons head rest =>
      cases status with
      | ok n => exact ih _
      | _ => rfl

theorem write_pending (conn : Connection) (statuses : List TransportStatus) :
    (conn.write statuses).1.writePending = conn.writePending := by
  unfold write
  split
  · rfl
  · exact writeLoop_pending _ statuses

theorem bufferAdd_pending (conn : Connection) (buffer : Option BufferId) (length : Nat) (calloc : Bool) :
    (conn.bufferAdd buffer length calloc).1.writePending = conn.writePending := by
  unfold bufferAdd
  split_ifs <;> rfl

/-- What a read leaves alone: the write list, and the mark that a write is pending. -/
def writeSide (conn : Connection) : List WriteBuffer × Bool := (conn.writeData, conn.writePending)

theorem ensureSpace_writeSide (conn : Connection) (realloc : Bool) : (conn.ensureSpace realloc).1.writeSide = conn.writeSide := by
  unfold ensureSpace
  split_ifs <;> rfl

theorem readLoop_writeSide (conn : Connection) (turns : List ReadTurn) :
    (conn.readLoop turns).1.writeSide = conn.writeSide := by
  induction turns generalizing conn with
  | nil =>
    have same := conn.ensureSpace_writeSide true
    unfold readLoop
    rcases made : conn.ensureSpace true with ⟨grown, _ | failure⟩
    · rwa [made] at same
    · rwa [made] at same
  | cons turn turns ih =>
    have same := conn.ensureSpace_writeSide turn.realloc
    unfold readLoop
    rcases made : conn.ensureSpace turn.realloc with ⟨grown, _ | failure⟩
    · rw [made] at same
      dsimp only at same ⊢
      cases turn.answer with
      | ok data => exact (ih _).trans same
      | _ => exact same
    · rwa [made] at same

theorem read_writeSide (conn : Connection) (handshake : Handshake) (turns : List ReadTurn) :
    (conn.read handshake turns).1.writeSide = conn.writeSide := by
  unfold read
  cases conn.state with
  | closed => rfl
  | handshake =>
    cases handshake with
    | ok => exact readLoop_writeSide _ turns
    | _ => rfl
  | reading => exact readLoop_writeSide _ turns
  | writing => exact readLoop_writeSide _ turns

theorem read_pending (conn : Connection) (handshake : Handshake) (turns : List ReadTurn) :
    (conn.read handshake turns).1.writePending = conn.writePending :=
  congrArg Prod.snd (conn.read_writeSide handshake turns)

theorem read_writeData (conn : Connection) (handshake : Handshake) (turns : List ReadTurn) :
    (conn.read handshake turns).1.writeData = conn.writeData :=
  congrArg Prod.fst (conn.read_writeSide handshake turns)

/-- What a write leaves alone: the read buffer, the room in it, and what a read waits for. -/
def readSide (conn : Connection) : Bytes × Nat × IoHint := (conn.buffer, conn.bufferCapacity, conn.readIoHint)

theorem writeLoop_readSide (conn : Connection) (statuses : List TransportStatus) :
    (conn.writeLoop statuses).1.readSide = conn.readSide := by
  induction statuses generalizing conn with
  | nil => rfl
  | cons status statuses ih =>
    unfold writeLoop
    cases conn.writeData with
    | nil => rfl
    | cons head rest =>
      cases status with
      | ok n => exact ih _
      | _ => rfl

theorem write_readSide (conn : Connection) (statuses : List TransportStatus) :
    (conn.write statuses).1.readSide = conn.readSide := by
  unfold write
  split
  · rfl
  · exact writeLoop_readSide _ statuses

theorem bufferAdd_readSide (conn : Connection) (buffer : Option BufferId) (length : Nat) (calloc : Bool) :
    (conn.bufferAdd buffer length calloc).1.readSide = conn.readSide := by
  unfold bufferAdd
  split_ifs <;> rfl

theorem Fits.of_readSide {conn other : Connection} (same : other.readSide = conn.readSide) (fits : conn.Fits) : other.Fits := by
  have buffer : other.buffer = conn.buffer := congrArg Prod.fst same
  have capacity : other.bufferCapacity = conn.bufferCapacity := congrArg (fun side => side.2.1) same
  rcases fits with ⟨room, limit⟩
  rw [← buffer, ← capacity] at room
  rw [← capacity] at limit
  exact ⟨room, limit⟩

theorem desired_event (conn : Connection) :
    (conn.desiredWrite = eventRead ∨ conn.desiredWrite = eventWrite) ∧
      (conn.desiredRead = eventRead ∨ conn.desiredRead = eventWrite) := by
  unfold desiredWrite desiredRead
  constructor
  · split
    · exact Or.inl rfl
    · exact Or.inr rfl
  · split
    · exact Or.inr rfl
    · exact Or.inl rfl

end Connection

namespace AsyncConnection

variable {a b : AsyncConnection}

/-! ## Both sides and the mark of a pending write -/

/-- Between two operations a write is pending when the write side has a task. -/
structure Settled (a : AsyncConnection) : Prop where
  sided : a.Sided
  rewatching : a.writeRewatching = false
  pending : ∀ conn, a.connection = some conn → conn.writePending = a.writeTask.isSome

theorem Settled.cancelTask (settled : a.Settled) (side : Side) {t : TaskId} (held : a.task side = some t) :
    (a.cancelTask t).Settled ∧
      ∀ other, (a.cancelTask t).task other = if other = side then none else a.task other := by
  rcases settled.sided.cancelTask side held with ⟨cancels, sided⟩
  refine ⟨⟨sided, cancels.rewatching.trans settled.rewatching, ?_⟩, cancels.task⟩
  intro conn found
  have writes : (a.cancelTask t).writeTask = if Side.write = side then none else a.writeTask := cancels.task .write
  rw [writes]
  rw [cancels.connection] at found
  cases side with
  | read =>
    simp only [reduceCtorEq, false_and, if_false] at found ⊢
    exact settled.pending conn found
  | write =>
    simp only [settled.rewatching, and_self, if_true] at found
    rcases Option.map_eq_some_iff.mp found with ⟨before, _, rfl⟩
    rfl

theorem Settled.cancel (settled : a.Settled) (side : Side) :
    (a.cancel (a.task side)).Settled ∧
      ∀ other, (a.cancel (a.task side)).task other = if other = side then none else a.task other := by
  cases held : a.task side with
  | none =>
    refine ⟨settled, ?_⟩
    intro other
    show a.task other = _
    by_cases same : other = side
    · rw [if_pos same, same, held]
    · rw [if_neg same]
  | some t => exact settled.cancelTask side held

theorem Settled.handleDisconnect (settled : a.Settled) : a.handleDisconnect.1.Settled := by
  unfold AsyncConnection.handleDisconnect
  split
  · exact settled
  · have marked : Settled { a with disconnected := true } := ⟨settled.sided.beside, settled.rewatching, settled.pending⟩
    exact ((marked.cancel .read).1.cancel .write).1

theorem Settled.arm (settled : a.Settled) {side : Side} {events : Events} {b : AsyncConnection}
    (arms : Arms side events a b) (sided : b.Sided) (pending : Bool)
    (right : side = .write → pending = true) (left : side = .read → pending = a.writeTask.isSome) :
    (b.modifyConnection fun conn => { conn with writePending := pending }).Settled := by
  refine ⟨sided.beside, arms.rewatching.trans settled.rewatching, ?_⟩
  intro conn found
  rcases Option.map_eq_some_iff.mp found with ⟨before, _, rfl⟩
  have writes : b.writeTask = if Side.write = side then some a.next else a.writeTask := arms.task .write
  show pending = b.writeTask.isSome
  rw [writes]
  cases side with
  | read => exact left rfl
  | write => exact right rfl

theorem Settled.createWriteTask (settled : a.Settled)
    (free : a.writeTask = none → a.Free .write eventWrite) :
    (a.createWriteTask .armed).1.Settled ∧
      (a.createWriteTask .armed).1.readTask = a.readTask ∧
      (a.writeTask.isSome = true → (a.createWriteTask .armed).1.writeTask.isSome = true) ∧
      ((a.createWriteTask .armed).2 = true → (a.createWriteTask .armed).1.writeTask.isSome = true) := by
  unfold AsyncConnection.createWriteTask
  cases found : a.connection with
  | none => exact ⟨settled, rfl, id, fun created => nomatch created⟩
  | some conn =>
    have mark := settled.pending conn found
    dsimp only
    cases pending : conn.writePending with
    | true =>
      rw [pending] at mark
      exact ⟨settled, rfl, id, fun _ => mark.symm⟩
    | false =>
      have idle : a.writeTask = none := by
        rw [pending] at mark
        simpa using mark.symm
      rcases settled.sided.watch .write idle (free idle) (Or.inr rfl) with ⟨task, arms, sided⟩
      rcases made : a.watch .write eventWrite .armed with ⟨after, created⟩
      rw [made] at task arms sided
      dsimp only at task arms sided
      subst task
      simp only [Bool.false_eq_true, if_false]
      have done := settled.arm arms sided true (fun _ => rfl) (fun side => nomatch side)
      exact ⟨done, arms.task .read, fun _ => rfl, fun _ => rfl⟩

theorem Settled.createReadTask (settled : a.Settled) (free : a.readTask = none → a.Free .read eventRead) :
    (a.createReadTask .armed).1.Settled ∧
      (a.createReadTask .armed).1.writeTask = a.writeTask ∧
      (a.readTask.isSome = true → (a.createReadTask .armed).1.readTask.isSome = true) ∧
      ((a.createReadTask .armed).2 = true → (a.createReadTask .armed).1.readTask.isSome = true) := by
  unfold AsyncConnection.createReadTask
  cases found : a.connection with
  | none => exact ⟨settled, rfl, id, fun created => nomatch created⟩
  | some conn =>
    cases held : a.readTask with
    | some t => exact ⟨settled, rfl, fun _ => by rw [held]; rfl, fun _ => by rw [held]; rfl⟩
    | none =>
      rcases settled.sided.watch .read held (free held) (Or.inl rfl) with ⟨task, arms, sided⟩
      rcases made : a.watch .read eventRead .armed with ⟨after, created⟩
      rw [made] at task arms sided
      dsimp only at task arms sided ⊢
      subst task
      refine ⟨⟨sided, arms.rewatching.trans settled.rewatching, ?_⟩, arms.task .write, fun _ => rfl,
        fun _ => rfl⟩
      intro conn' here
      have writes : (after.setTask .read a.next eventRead).writeTask = a.writeTask := arms.task .write
      have here : (after.setTask .read a.next eventRead).connection = some conn' := here
      rw [arms.connection] at here
      exact (settled.pending conn' here).trans (by rw [← writes]; rfl)

theorem Settled.rewatchWrite (settled : a.Settled) {t : TaskId} (held : a.writeTask = some t) {events : Events}
    (free : a.Free .write events) (event : events = eventRead ∨ events = eventWrite) :
    (a.rewatchWrite events .armed).1.Settled ∧ (a.rewatchWrite events .armed).2 = [] ∧
      (a.rewatchWrite events .armed).1.readTask = a.readTask ∧
      (a.rewatchWrite events .armed).1.writeTask.isSome = true := by
  let flipping : AsyncConnection := { a with writeRewatching := true }
  have begun : flipping.Sided := settled.sided.beside
  rcases begun.cancelTask .write held with ⟨cancels, sided⟩
  let idle : AsyncConnection := { flipping.cancelTask t with writeRewatching := false }
  have sided : idle.Sided := sided.beside
  have tasks : ∀ other, idle.task other = if other = .write then none else a.task other := cancels.task
  have still : idle.Free .write events := by
    intro other u differs found
    rw [tasks, if_neg differs] at found
    have same : idle.watchEvents other = a.watchEvents other := congrFun cancels.watchEvents other
    rw [same]
    exact free other u differs found
  rcases sided.watch .write ((tasks .write).trans (if_pos rfl)) still event with ⟨task, arms, after⟩
  rcases made : idle.watch .write events .armed with ⟨placed, created⟩
  rw [made] at task arms after
  dsimp only at task arms after
  subst task
  have result : a.rewatchWrite events .armed = (placed.setTask .write idle.next events, []) := by
    have cancelled : flipping.cancel a.writeTask = flipping.cancelTask t := by
      rw [held]
      rfl
    unfold AsyncConnection.rewatchWrite
    show (AsyncConnection.placeWrite (watch { flipping.cancel a.writeTask with writeRewatching := false } .write
      events .armed).1 events _) = _
    rw [cancelled]
    show (idle.watch .write events .armed).1.placeWrite events (idle.watch .write events .armed).2 = _
    rw [made]
    rfl
  rw [result]
  refine ⟨⟨after, arms.rewatching, ?_⟩, rfl, ?_, rfl⟩
  · intro conn found
    have same : idle.connection = a.connection := by
      show (flipping.cancelTask t).connection = _
      rw [cancels.connection, if_neg (by simp [flipping])]
    rw [show (placed.setTask .write idle.next events).connection = idle.connection from arms.connection, same] at found
    rw [settled.pending conn found, held]
    rfl
  · exact (arms.task .read).trans (tasks .read)

theorem Settled.rewatchRead (settled : a.Settled) {events : Events} (free : a.Free .read events)
    (event : events = eventRead ∨ events = eventWrite) :
    (a.rewatchRead events .armed).1.Settled ∧ (a.rewatchRead events .armed).2 = [] ∧
      (a.rewatchRead events .armed).1.writeTask = a.writeTask ∧
      (a.rewatchRead events .armed).1.readTask.isSome = true := by
  let idle := a.cancel a.readTask
  rcases settled.cancel .read with ⟨cancelled, tasks⟩
  have events_ : idle.watchEvents = a.watchEvents := by
    show (a.cancel (a.task .read)).watchEvents = _
    cases held : a.task .read with
    | none => rfl
    | some t => exact (settled.sided.cancelTask .read held).1.watchEvents
  have still : idle.Free .read events := by
    intro other u differs found
    rw [show idle.task other = _ from tasks other, if_neg differs] at found
    rw [events_]
    exact free other u differs found
  rcases cancelled.sided.watch .read ((tasks .read).trans (if_pos rfl)) still event with ⟨task, arms, after⟩
  rcases made : idle.watch .read events .armed with ⟨placed, created⟩
  rw [show (a.cancel (a.task .read)).watch .read events .armed = _ from made] at task arms after
  dsimp only at task arms after
  subst task
  have result : a.rewatchRead events .armed = (placed.setTask .read idle.next events, []) := by
    unfold AsyncConnection.rewatchRead
    show (idle.watch .read events .armed).1.placeRead events (idle.watch .read events .armed).2 = _
    rw [made]
    rfl
  have writes : (placed.setTask .read idle.next events).writeTask = idle.writeTask := arms.task .write
  rw [result]
  refine ⟨⟨after, arms.rewatching.trans cancelled.rewatching, ?_⟩, rfl, ?_, rfl⟩
  · intro conn found
    rw [show (placed.setTask .read idle.next events).connection = idle.connection from arms.connection] at found
    rw [writes]
    exact cancelled.pending conn found
  · exact writes.trans (tasks .write)

theorem Settled.pauseRead (settled : a.Settled) :
    a.pauseRead.Settled ∧ a.pauseRead.writeTask = a.writeTask := by
  unfold AsyncConnection.pauseRead
  cases held : a.readTask with
  | none => exact ⟨settled, rfl⟩
  | some t =>
    rcases settled.cancelTask .read held with ⟨cancelled, tasks⟩
    have gone : (a.cancelTask t).readTask = none := (tasks .read).trans (if_pos rfl)
    have same : { a.cancelTask t with readTask := none } = a.cancelTask t := by
      rw [← gone]
    dsimp only
    rw [same]
    exact ⟨cancelled, tasks .write⟩

theorem Settled.modifyTask (settled : a.Settled) (t : TaskId) (f : Task → Task)
    (flags : ∀ task, (f task).cancelled = task.cancelled ∧ (f task).persistent = task.persistent ∧
      (f task).finalized = task.finalized) : Settled { a with rt := a.rt.modifyTask t f } :=
  ⟨settled.sided.modifyTask t f flags, settled.rewatching, settled.pending⟩

/-! ## Runs of the two tasks -/

theorem Settled.connection (settled : a.Settled) {connection : Option Connection}
    (pending : ∀ conn, connection = some conn → conn.writePending = a.writeTask.isSome) :
    Settled { a with connection } where
  sided := settled.sided.beside
  rewatching := settled.rewatching
  pending

theorem Settled.modifyConnection (settled : a.Settled) (f : Connection → Connection)
    (same : ∀ conn, (f conn).writePending = conn.writePending) : (a.modifyConnection f).Settled := by
  apply settled.connection
  intro conn found
  rcases Option.map_eq_some_iff.mp found with ⟨before, here, rfl⟩
  rw [same]
  exact settled.pending before here

theorem Settled.afterWrite (settled : a.Settled) {t : TaskId} (held : a.writeTask = some t) (conn : Connection)
    (outcome : Outcome) (free : outcome = .success → conn.desiredWrite ≠ a.writeWatchEvents →
      a.Free .write conn.desiredWrite) :
    (a.afterWrite t conn outcome .armed).1.Settled ∧
      ((a.afterWrite t conn outcome .armed).1.Open → (a.afterWrite t conn outcome .armed).1.readTask = a.readTask) ∧
      ((a.afterWrite t conn outcome .armed).2 = [] →
        (a.afterWrite t conn outcome .armed).1.writeTask.isSome = true) := by
  rcases settled.cancelTask .write held with ⟨cancelled, tasks⟩
  cases outcome with
  | connectionClosed =>
    refine ⟨cancelled.handleDisconnect, fun open_ => (not_open_handleDisconnect open_).elim, ?_⟩
    intro quiet
    rw [(afterWrite_closed a t conn .armed).2] at quiet
    simp at quiet
  | ioError => exact ⟨cancelled, fun _ => tasks .read, fun quiet => nomatch quiet⟩
  | success =>
    unfold AsyncConnection.afterWrite
    dsimp only
    split
    · rename_i turns
      rcases settled.rewatchWrite held (free rfl turns) conn.desired_event.1 with ⟨after, _, reads, writes⟩
      exact ⟨after, fun _ => reads, fun _ => writes⟩
    · split
      · exact ⟨settled, fun _ => rfl, fun _ => by rw [held]; rfl⟩
      · exact ⟨cancelled, fun _ => tasks .read, fun quiet => nomatch quiet⟩

theorem Settled.afterRead (settled : a.Settled) {t : TaskId} (held : a.readTask = some t) (conn : Connection)
    (outcome : ReadOutcome) (free : outcome = .success → conn.desiredRead ≠ a.readWatchEvents →
      a.Free .read conn.desiredRead) :
    (a.afterRead t conn outcome .armed).1.Settled ∧
      ((a.afterRead t conn outcome .armed).1.Open → (a.afterRead t conn outcome .armed).1.writeTask = a.writeTask) ∧
      ((a.afterRead t conn outcome .armed).1.Open →
        (a.afterRead t conn outcome .armed).2 = [] ∨ (a.afterRead t conn outcome .armed).2 = [.readStep] →
          (a.afterRead t conn outcome .armed).1.readTask.isSome = true) := by
  rcases settled.cancelTask .read held with ⟨cancelled, tasks⟩
  have failure : (a.cancelTask t).Settled ∧ ((a.cancelTask t).Open → (a.cancelTask t).writeTask = a.writeTask) ∧
      ((a.cancelTask t).Open → [Callback.readError] = [] ∨ [Callback.readError] = [Callback.readStep] →
        (a.cancelTask t).readTask.isSome = true) :=
    ⟨cancelled, fun _ => tasks .write, by simp⟩
  cases outcome with
  | connectionClosed =>
    exact ⟨settled.handleDisconnect, fun open_ => (not_open_handleDisconnect open_).elim,
      fun open_ => (not_open_handleDisconnect open_).elim⟩
  | success =>
    unfold AsyncConnection.afterRead
    dsimp only
    split
    · rename_i turns
      rcases settled.rewatchRead (free rfl turns) conn.desired_event.2 with ⟨after, _, writes, reads⟩
      exact ⟨after, fun _ => writes, fun _ _ => reads⟩
    · split
      · exact ⟨settled, fun _ => rfl, fun _ _ => by rw [held]; rfl⟩
      · exact ⟨settled, fun _ => rfl, fun _ _ => by rw [held]; rfl⟩
  | tlsHandshake => exact failure
  | payloadTooLarge => exact failure
  | alloc => exact failure
  | io => exact failure

theorem runWriteTask_eq {conn : Connection} (found : a.connection = some conn) (t : TaskId) (statuses : List TransportStatus)
    (arming : Arming) : a.runWriteTask t statuses arming =
      ({ a with connection := some (conn.write statuses).1 }).afterWrite t (conn.write statuses).1 (conn.write statuses).2.1
        arming := by
  rw [runWriteTask, found]

theorem runReadTask_eq {conn : Connection} (found : a.connection = some conn) (t : TaskId) (handshake : Handshake)
    (turns : List ReadTurn) (arming : Arming) : a.runReadTask t handshake turns arming =
      ({ a with connection := some (conn.read handshake turns).1 }).afterRead t (conn.read handshake turns).1
        (conn.read handshake turns).2 arming := by
  rw [runReadTask, found]

theorem Settled.written (settled : a.Settled) {conn : Connection} (found : a.connection = some conn)
    (statuses : List TransportStatus) : Settled { a with connection := some (conn.write statuses).1 } := by
  apply settled.connection
  intro _ same
  cases same
  exact (conn.write_pending statuses).trans (settled.pending conn found)

theorem Settled.read (settled : a.Settled) {conn : Connection} (found : a.connection = some conn) (handshake : Handshake)
    (turns : List ReadTurn) : Settled { a with connection := some (conn.read handshake turns).1 } := by
  apply settled.connection
  intro _ same
  cases same
  exact (conn.read_pending handshake turns).trans (settled.pending conn found)

theorem Settled.runWriteTask (settled : a.Settled) {t : TaskId} (held : a.writeTask = some t) (statuses : List TransportStatus)
    (free : ∀ conn, a.connection = some conn → (conn.write statuses).2.1 = .success →
      (conn.write statuses).1.desiredWrite ≠ a.writeWatchEvents → a.Free .write (conn.write statuses).1.desiredWrite) :
    (a.runWriteTask t statuses .armed).1.Settled ∧
      ((a.runWriteTask t statuses .armed).1.Open → (a.runWriteTask t statuses .armed).1.readTask = a.readTask) ∧
      ((a.runWriteTask t statuses .armed).1.Open → (a.runWriteTask t statuses .armed).2 = [] →
        (a.runWriteTask t statuses .armed).1.writeTask.isSome = true) := by
  cases found : a.connection with
  | none =>
    have closed : ¬ (a.runWriteTask t statuses .armed).1.Open := by
      intro open_
      rcases runWriteTask_open open_ with ⟨_, conn, some_, _⟩
      rw [found] at some_
      cases some_
    refine ⟨?_, fun open_ => (closed open_).elim, fun open_ => (closed open_).elim⟩
    rw [AsyncConnection.runWriteTask, found]
    exact (settled.cancelTask .write held).1
  | some conn =>
    rw [runWriteTask_eq found]
    rcases (settled.written found statuses).afterWrite held _ _ (free conn found) with ⟨after, reads, writes⟩
    exact ⟨after, reads, fun _ => writes⟩

theorem Settled.runReadTask (settled : a.Settled) {t : TaskId} (held : a.readTask = some t) (handshake : Handshake)
    (turns : List ReadTurn) (free : ∀ conn, a.connection = some conn → (conn.read handshake turns).2 = .success →
      (conn.read handshake turns).1.desiredRead ≠ a.readWatchEvents → a.Free .read (conn.read handshake turns).1.desiredRead) :
    (a.runReadTask t handshake turns .armed).1.Settled ∧
      ((a.runReadTask t handshake turns .armed).1.Open → (a.runReadTask t handshake turns .armed).1.writeTask = a.writeTask) ∧
      ((a.runReadTask t handshake turns .armed).1.Open →
        (a.runReadTask t handshake turns .armed).2 = [] ∨ (a.runReadTask t handshake turns .armed).2 = [.readStep] →
          (a.runReadTask t handshake turns .armed).1.readTask.isSome = true) := by
  cases found : a.connection with
  | none =>
    have closed : ¬ (a.runReadTask t handshake turns .armed).1.Open := by
      intro open_
      rcases (runReadTask_open open_).1 with ⟨_, conn, some_, _⟩
      rw [found] at some_
      cases some_
    refine ⟨?_, fun open_ => (closed open_).elim, fun open_ => (closed open_).elim⟩
    rw [AsyncConnection.runReadTask, found]
    exact (settled.cancelTask .read held).1
  | some conn =>
    rw [runReadTask_eq found]
    exact (settled.read found handshake turns).afterRead held _ _ (free conn found)

/-! ## Where registering can fail -/

theorem watch_arming (a : AsyncConnection) (side : Side) (events : Events) (arming : Arming) :
    (a.watch side events arming).2 = none ∨ a.watch side events arming = a.watch side events .armed := by
  cases arming with
  | armed => exact Or.inr rfl
  | unallocated => exact Or.inl rfl
  | unplaced =>
    unfold watch
    by_cases fresh : a.rt.findWatcherExact a.fd events = none
    · simp [fresh]
    · simp [fresh]
  | refused =>
    unfold watch
    by_cases fresh : a.rt.findWatcherExact a.fd events = none ∧
        a.rt.fdRegisteredMask a.fd ||| events ≠ a.rt.fdRegisteredMask a.fd
    · simp [fresh.1, fresh.2]
    · simp only [reduceCtorEq, and_false, if_false, and_true]
      rw [if_neg fresh]
      exact Or.inr rfl

theorem createWriteTask_arming {arming : Arming} (created : (a.createWriteTask arming).2 = true) :
    a.createWriteTask arming = a.createWriteTask .armed := by
  unfold createWriteTask at created ⊢
  cases found : a.connection with
  | none => rfl
  | some conn =>
    rw [found] at created
    dsimp only at created ⊢
    by_cases pending : conn.writePending = true
    · rw [if_pos pending, if_pos pending]
    · rw [if_neg pending] at created
      rw [if_neg pending, if_neg pending]
      rcases a.watch_arming .write eventWrite arming with failed | same
      · rcases made : a.watch .write eventWrite arming with ⟨after, _ | t⟩
        · rw [made] at created
          cases created
        · rw [made] at failed
          cases failed
      · rw [same]

theorem createReadTask_arming {arming : Arming} (created : (a.createReadTask arming).2 = true) :
    a.createReadTask arming = a.createReadTask .armed := by
  unfold createReadTask at created ⊢
  cases found : a.connection with
  | none => rfl
  | some conn =>
    rw [found] at created
    cases held : a.readTask with
    | some t => rfl
    | none =>
      rw [held] at created
      dsimp only at created ⊢
      rcases a.watch_arming .read eventRead arming with failed | same
      · rcases made : a.watch .read eventRead arming with ⟨after, _ | t⟩
        · rw [made] at created
          cases created
        · rw [made] at failed
          cases failed
      · rw [same]

theorem rewatchWrite_arming (a : AsyncConnection) (events : Events) (arming : Arming) :
    (a.rewatchWrite events arming).2 = [.writeFailure] ∨ a.rewatchWrite events arming = a.rewatchWrite events .armed := by
  unfold rewatchWrite
  dsimp only
  rcases watch_arming { { a with writeRewatching := true }.cancel a.writeTask with writeRewatching := false } .write events arming
    with failed | same
  · rw [failed]
    exact Or.inl rfl
  · rw [same]
    exact Or.inr rfl

theorem rewatchRead_arming (a : AsyncConnection) (events : Events) (arming : Arming) :
    (a.rewatchRead events arming).2 = [.readError] ∨ a.rewatchRead events arming = a.rewatchRead events .armed := by
  unfold rewatchRead
  dsimp only
  rcases watch_arming (a.cancel a.readTask) .read events arming with failed | same
  · rw [failed]
    exact Or.inl rfl
  · rw [same]
    exact Or.inr rfl

theorem afterWrite_arming (a : AsyncConnection) (t : TaskId) (conn : Connection) (outcome : Outcome) (arming : Arming) :
    (a.afterWrite t conn outcome arming).2 = [.writeFailure] ∨
      a.afterWrite t conn outcome arming = a.afterWrite t conn outcome .armed := by
  cases outcome with
  | connectionClosed => exact Or.inr rfl
  | ioError => exact Or.inr rfl
  | success =>
    unfold afterWrite
    dsimp only
    split
    · exact a.rewatchWrite_arming conn.desiredWrite arming
    · exact Or.inr rfl

theorem afterRead_arming (a : AsyncConnection) (t : TaskId) (conn : Connection) (outcome : ReadOutcome) (arming : Arming) :
    (a.afterRead t conn outcome arming).2 = [.readError] ∨
      a.afterRead t conn outcome arming = a.afterRead t conn outcome .armed := by
  cases outcome with
  | success =>
    unfold afterRead
    dsimp only
    split
    · exact a.rewatchRead_arming conn.desiredRead arming
    · exact Or.inr rfl
  | _ => exact Or.inr rfl

theorem afterWrite_success {t : TaskId} {conn : Connection} {outcome : Outcome} {arming : Arming}
    (done : (a.afterWrite t conn outcome arming).2 = [.writeSuccess]) :
    conn.writeData = [] ∧ (a.afterWrite t conn outcome arming).1 = a.cancelTask t := by
  cases outcome with
  | connectionClosed =>
    rw [(afterWrite_closed a t conn arming).2] at done
    split at done <;> cases done
  | ioError => cases done
  | success =>
    unfold afterWrite at done ⊢
    dsimp only at done ⊢
    split at done
    · rcases a.rewatchWrite_callbacks conn.desiredWrite arming with quiet | failed
      · rw [quiet] at done
        cases done
      · rw [failed] at done
        cases done
    · rename_i same
      rw [if_neg same]
      split at done
      · cases done
      · rename_i empty
        rw [if_neg empty]
        exact ⟨Classical.not_not.mp empty, rfl⟩

/-! ## What a run leaves of the write list -/

theorem writeData_of_unpended {conn conn' : Connection} (same : conn'.unpended = conn.unpended) :
    conn'.writeData = conn.writeData := by
  show conn'.unpended.writeData = conn.unpended.writeData
  rw [same]

theorem writeData_of_keeps (keeps : Keeps a b) {conn : Connection} (found : a.connection = some conn) :
    ∀ last, b.connection = some last → last.writeData = conn.writeData := by
  intro last here
  rcases keeps.exists here with ⟨before, there, same⟩
  rw [found] at there
  cases there
  exact writeData_of_unpended same

theorem Settled.afterWrite_leaves (settled : a.Settled) {t : TaskId} (held : a.writeTask = some t) {conn : Connection}
    (found : a.connection = some conn) (outcome : Outcome) (arming : Arming)
    (free : outcome = .success → conn.desiredWrite ≠ a.writeWatchEvents → a.Free .write conn.desiredWrite)
    (still : (a.afterWrite t conn outcome arming).1.Open) :
    (a.afterWrite t conn outcome arming).2 = [.writeFailure] ∨
      ((a.afterWrite t conn outcome arming).1.Settled ∧
        (∀ last, (a.afterWrite t conn outcome arming).1.connection = some last → last.writeData = conn.writeData) ∧
        ((a.afterWrite t conn outcome arming).2 = [] ∧ (a.afterWrite t conn outcome arming).1.writeTask.isSome = true ∨
          (a.afterWrite t conn outcome arming).2 = [.writeSuccess] ∧ conn.writeData = [] ∧
            (a.afterWrite t conn outcome arming).1.writeTask = none)) := by
  rcases a.afterWrite_arming t conn outcome arming with failed | same
  · exact Or.inl failed
  · rw [same] at still ⊢
    have running : outcome ≠ .connectionClosed := by
      rintro rfl
      exact (not_open_handleDisconnect still).elim
    have reports := a.afterWrite_reports t conn outcome .armed running
    rcases settled.afterWrite held conn outcome free with ⟨after, _, writes⟩
    have data := writeData_of_keeps reports.keeps found
    rcases reports.one with quiet | ⟨callback, possible, told⟩
    · exact Or.inr ⟨after, data, Or.inl ⟨quiet, writes quiet⟩⟩
    · rcases List.mem_cons.mp possible with rfl | possible
      · rcases afterWrite_success told with ⟨empty, ended⟩
        refine Or.inr ⟨after, data, Or.inr ⟨told, empty, ?_⟩⟩
        rw [ended]
        exact ((settled.cancelTask .write held).2 .write).trans (if_pos rfl)
      · rw [List.mem_singleton.mp possible] at told
        exact Or.inl told

theorem Settled.afterRead_leaves (settled : a.Settled) {t : TaskId} (held : a.readTask = some t) {conn : Connection}
    (found : a.connection = some conn) (outcome : ReadOutcome) (arming : Arming)
    (free : outcome = .success → conn.desiredRead ≠ a.readWatchEvents → a.Free .read conn.desiredRead)
    (still : (a.afterRead t conn outcome arming).1.Open) :
    (a.afterRead t conn outcome arming).2 = [.readError] ∨
      ((a.afterRead t conn outcome arming).1.Settled ∧
        (∀ last, (a.afterRead t conn outcome arming).1.connection = some last → last.writeData = conn.writeData) ∧
        (a.afterRead t conn outcome arming).1.writeTask = a.writeTask ∧
        ((a.afterRead t conn outcome arming).2 = [] ∨ (a.afterRead t conn outcome arming).2 = [.readStep])) := by
  rcases a.afterRead_arming t conn outcome arming with failed | same
  · exact Or.inl failed
  · rw [same] at still ⊢
    have running : outcome ≠ .connectionClosed := by
      rintro rfl
      exact (not_open_handleDisconnect still).elim
    have reports := a.afterRead_reports t conn outcome .armed running
    rcases settled.afterRead held conn outcome free with ⟨after, writes, _⟩
    have data := writeData_of_keeps reports.keeps found
    rcases reports.one with quiet | ⟨callback, possible, told⟩
    · exact Or.inr ⟨after, data, writes still, Or.inl quiet⟩
    · rcases List.mem_cons.mp possible with rfl | possible
      · exact Or.inr ⟨after, data, writes still, Or.inr told⟩
      · rw [List.mem_singleton.mp possible] at told
        exact Or.inl told

end AsyncConnection

/-! ## Serving both sides -/

namespace Hosted

open AsyncConnection

/-- Registering succeeds, and never for an event that the other side is waiting for: no task is created for it,
    and no side turns to it. -/
def Apart (h : Hosted) : Action → Prop
  | .call (.createWriteTask arming) =>
    arming = .armed ∧ (h.conn.writeTask = none → h.conn.Free .write eventWrite)
  | .call (.createReadTask arming) => arming = .armed ∧ (h.conn.readTask = none → h.conn.Free .read eventRead)
  | .runNext weather => weather.arming = .armed ∧ ∀ t queue conn, h.conn.rt.queue = t :: queue →
      (h.conn.rt.tasks t).cancelled = false → h.conn.connection = some conn →
        (h.conn.side t = some .write → (conn.write weather.statuses).2.1 = .success →
          (conn.write weather.statuses).1.desiredWrite ≠ h.conn.writeWatchEvents →
            h.conn.Free .write (conn.write weather.statuses).1.desiredWrite) ∧
        (h.conn.side t = some .read → (conn.read weather.handshake weather.turns).2 = .success →
          (conn.read weather.handshake weather.turns).1.desiredRead ≠ h.conn.readWatchEvents →
            h.conn.Free .read (conn.read weather.handshake weather.turns).1.desiredRead)
  | _ => True

/-- The runtime holds a watcher for the side, with a task that will run, and the poller has its events. -/
def Serves (h : Hosted) (side : Side) : Prop :=
  ∃ w ∈ h.conn.rt.watchers, h.conn.side w.task = some side ∧ Live (h.conn.rt.tasks w.task) ∧
    w.fd = h.conn.fd ∧ w.events ≠ 0 ∧
      ∀ i, w.events.getLsbD i = true → Runtime.Polled h.conn.rt.poller h.conn.fd i

structure Balanced (h : Hosted) : Prop where
  settled : h.conn.Settled
  writing : h.writeStarted = true → h.conn.Open → h.conn.writeTask.isSome = true
  reading : h.readStarted = true → h.conn.Open → h.conn.readTask.isSome = true

variable {h h' : Hosted}

theorem serves_of_held (settled : h.conn.Settled) {side : Side} (held : (h.conn.task side).isSome = true) :
    h.Serves side := by
  rcases Option.isSome_iff_exists.mp held with ⟨t, found⟩
  have sided := settled.sided
  have live := sided.live side t found
  have member := (sided.watched _).mpr ⟨side, t, found, rfl⟩
  refine ⟨h.conn.watcher side t, member, live.2.1, live.2.2, rfl, events_ne_zero (sided.events side), ?_⟩
  intro i bit
  have polled := ((Runtime.registered_iff sided.ordered.tabled).mp sided.registered).1 h.conn.fd i
  exact polled.mpr ⟨_, member, rfl, bit⟩

theorem held_of_serves (settled : h.conn.Settled) {side : Side} (serves : h.Serves side) :
    (h.conn.task side).isSome = true := by
  rcases serves with ⟨w, member, owner, _⟩
  have sided := settled.sided
  rcases (sided.watched w).mp member with ⟨other, t, found, rfl⟩
  have mine := (sided.live other t found).2.1
  rw [show (h.conn.watcher other t).task = t from rfl, mine] at owner
  cases owner
  rw [found]
  rfl

theorem Balanced.serves (balanced : h.Balanced) {side : Side} (held : (h.conn.task side).isSome = true) :
    h.Serves side := serves_of_held balanced.settled held

theorem Balanced.keep (balanced : h.Balanced) (settled : h'.conn.Settled) (open_ : h'.conn.Open → h.conn.Open)
    (task : h'.conn.task = h.conn.task) (writing : h'.writeStarted = h.writeStarted)
    (reading : h'.readStarted = h.readStarted) : h'.Balanced where
  settled
  writing started still := by
    rw [show h'.conn.writeTask = h.conn.writeTask from congrFun task .write]
    exact balanced.writing (writing ▸ started) (open_ still)
  reading started still := by
    rw [show h'.conn.readTask = h.conn.readTask from congrFun task .read]
    exact balanced.reading (reading ▸ started) (open_ still)

theorem Balanced.perform (balanced : h.Balanced) (call : Call) (apart : h.Apart (.call call)) :
    (h.perform call).Balanced := by
  have settled := balanced.settled
  cases call with
  | setDisconnectCallback present =>
    refine balanced.keep ?_ id rfl rfl rfl
    exact ⟨settled.sided.beside, settled.rewatching, settled.pending⟩
  | bufferAdd buffer length calloc =>
    refine balanced.keep (settled.modifyConnection _ ?_) (perform_open (.bufferAdd buffer length calloc))
      rfl rfl rfl
    exact fun conn => conn.bufferAdd_pending buffer length calloc
  | write statuses =>
    refine balanced.keep (settled.modifyConnection _ ?_) (perform_open (.write statuses)) rfl rfl rfl
    exact fun conn => conn.write_pending statuses
  | consume length =>
    exact balanced.keep (settled.modifyConnection _ fun _ => rfl) (perform_open (.consume length)) rfl rfl rfl
  | createWriteTask arming =>
    rcases apart with ⟨rfl, free⟩
    rcases settled.createWriteTask free with ⟨after, reads, writes, created⟩
    have open_ := (createWriteTask_keeps h.conn .armed).open
    refine ⟨after, ?_, ?_⟩
    · intro started still
      rcases Bool.or_eq_true_iff.mp started with before | now
      · exact writes (balanced.writing before (open_ still))
      · exact created now
    · intro started still
      show (h.conn.createWriteTask .armed).1.readTask.isSome = true
      rw [reads]
      exact balanced.reading started (open_ still)
  | createReadTask arming =>
    rcases apart with ⟨rfl, free⟩
    rcases settled.createReadTask free with ⟨after, writes, reads, created⟩
    have open_ := (createReadTask_keeps h.conn .armed).open
    refine ⟨after, ?_, ?_⟩
    · intro started still
      show (h.conn.createReadTask .armed).1.writeTask.isSome = true
      rw [writes]
      exact balanced.writing started (open_ still)
    · intro started still
      rcases Bool.or_eq_true_iff.mp started with before | now
      · exact reads (balanced.reading before (open_ still))
      · exact created now
  | pauseRead =>
    rcases settled.pauseRead with ⟨after, writes⟩
    refine ⟨after, ?_, fun started => nomatch started⟩
    intro started still
    show h.conn.pauseRead.writeTask.isSome = true
    rw [writes]
    exact balanced.writing started ((pauseRead_keeps h.conn).open still)
  | close =>
    have gone : Settled { h.conn with connection := none } := settled.connection fun _ found => nomatch found
    exact ⟨gone.handleDisconnect, fun _ still => (not_open_handleDisconnect still).elim,
      fun _ still => (not_open_handleDisconnect still).elim⟩
  | destroy =>
    have gone : Settled { h.conn with connection := none } := settled.connection fun _ found => nomatch found
    exact ⟨gone.handleDisconnect, fun _ still => (not_open_handleDisconnect still).elim,
      fun _ still => (not_open_handleDisconnect still).elim⟩

theorem settle_settled (settled : h.conn.Settled) (t : TaskId) :
    (h.settle t).conn.Settled ∧ (h.settle t).conn.task = h.conn.task ∧ (h.settle t).conn.connection = h.conn.connection := by
  unfold Hosted.settle
  dsimp only
  split
  · exact ⟨settled, rfl, rfl⟩
  · rename_i idle
    rw [Bool.or_eq_true, not_or, Bool.not_eq_true, Bool.not_eq_true] at idle
    rcases settled.sided.finalize t idle.2 with ⟨sided, task, connection, rewatching⟩
    refine ⟨⟨sided, rewatching.trans settled.rewatching, ?_⟩, task, connection⟩
    intro conn found
    rw [show (h.conn.finalize t).writeTask = h.conn.writeTask from congrFun task .write]
    exact settled.pending conn (connection ▸ found)

theorem Balanced.settle (balanced : h.Balanced) (t : TaskId) : (h.settle t).Balanced := by
  rcases settle_settled balanced.settled t with ⟨settled, task, _⟩
  rcases h.settle_keeps t with ⟨conn, keeps, same⟩
  rw [same] at settled task ⊢
  exact balanced.keep settled keeps.open task rfl rfl

theorem Balanced.modifyTask (balanced : h.Balanced) (t : TaskId) (f : Task → Task)
    (flags : ∀ task, (f task).cancelled = task.cancelled ∧ (f task).persistent = task.persistent ∧
      (f task).finalized = task.finalized) : (h.modifyTask t f).Balanced :=
  balanced.keep (balanced.settled.modifyTask t f flags) (Keeps.open ⟨rfl, rfl, rfl, rfl⟩) rfl rfl rfl

theorem dequeue_settled (settled : h.conn.Settled) (t : TaskId) (queue : List TaskId) :
    (h.dequeue t queue).conn.Settled := by
  have taken : Settled { h.conn with rt := { h.conn.rt with queue } } :=
    ⟨settled.sided.beside, settled.rewatching, settled.pending⟩
  exact taken.modifyTask t _ fun _ => ⟨rfl, rfl, rfl⟩

theorem Balanced.dequeue (balanced : h.Balanced) (t : TaskId) (queue : List TaskId) :
    (h.dequeue t queue).Balanced :=
  balanced.keep (dequeue_settled balanced.settled t queue) (Keeps.open ⟨rfl, rfl, rfl, rfl⟩) rfl rfl rfl

theorem Balanced.runTask (balanced : h.Balanced) {t : TaskId} (live : (h.conn.rt.tasks t).cancelled = false)
    (weather : Weather) (apart : weather.arming = .armed ∧ ∀ conn, h.conn.connection = some conn →
        (h.conn.side t = some .write → (conn.write weather.statuses).2.1 = .success →
          (conn.write weather.statuses).1.desiredWrite ≠ h.conn.writeWatchEvents →
            h.conn.Free .write (conn.write weather.statuses).1.desiredWrite) ∧
        (h.conn.side t = some .read → (conn.read weather.handshake weather.turns).2 = .success →
          (conn.read weather.handshake weather.turns).1.desiredRead ≠ h.conn.readWatchEvents →
            h.conn.Free .read (conn.read weather.handshake weather.turns).1.desiredRead)) :
    (h.runTask t weather).Balanced := by
  rcases apart with ⟨armed, apart⟩
  let started := h.modifyTask t fun task => { task with running := true }
  have before : started.Balanced := balanced.modifyTask t _ fun _ => ⟨rfl, rfl, rfl⟩
  have settled := before.settled
  unfold Hosted.runTask
  cases side : h.conn.side t with
  | none =>
    simp only [show (h.modifyTask t _).conn.side t = none from side]
    exact before.keep settled id rfl rfl rfl
  | some which =>
    have current := balanced.settled.sided.current which t side live
    cases which with
    | write =>
      simp only [show (h.modifyTask t _).conn.side t = some .write from side, armed]
      rcases settled.runWriteTask current weather.statuses (fun conn found => (apart conn found).1 side) with
        ⟨after, reads, writes⟩
      refine ⟨after, ?_, ?_⟩
      · intro started_ still
        exact writes still (of_decide_eq_true (Bool.and_eq_true_iff.mp started_).2)
      · intro started_ still
        show (started.conn.runWriteTask t weather.statuses .armed).1.readTask.isSome = true
        rw [reads still]
        exact before.reading started_ (runWriteTask_open still)
    | read =>
      simp only [show (h.modifyTask t _).conn.side t = some .read from side, armed]
      rcases settled.runReadTask current weather.handshake weather.turns (fun conn found => (apart conn found).2 side) with
        ⟨after, writes, reads⟩
      refine ⟨after, ?_, ?_⟩
      · intro started_ still
        show (started.conn.runReadTask t weather.handshake weather.turns .armed).1.writeTask.isSome = true
        rw [writes still]
        exact before.writing started_ (runReadTask_open still).1
      · intro started_ still
        exact reads still (of_decide_eq_true (Bool.and_eq_true_iff.mp started_).2)

theorem Balanced.step (balanced : h.Balanced) (action : Action) (apart : h.Apart action)
    (step : h.Stepped action h') : h'.Balanced := by
  have settled := balanced.settled
  cases step with
  | call call runs => exact balanced.perform call apart
  | ret readError callback rest stack => exact balanced.keep settled id rfl rfl rfl
  | drop rest stack => exact balanced.keep settled id rfl rfl rfl
  | invoke callback callbacks rest stack => exact balanced.keep settled id rfl rfl rfl
  | endTask t rest stack =>
    have popped : Balanced { h with stack := rest } := balanced.keep settled id rfl rfl rfl
    exact (popped.modifyTask t (fun task => { task with running := false }) fun _ => ⟨rfl, rfl, rfl⟩).settle t
  | free rest stack => exact balanced.keep settled id rfl rfl rfl
  | wait ready idle =>
    exact balanced.keep ⟨settled.sided.wait ready, settled.rewatching, settled.pending⟩
      (Keeps.open ⟨rfl, rfl, rfl, rfl⟩) rfl rfl rfl
  | runNext weather idle =>
    rcases h.runNext_cases weather with ⟨_, same⟩ | ⟨t, queue, scheduled, ⟨_, same⟩ | ⟨live, same⟩⟩
    · rw [same]
      exact balanced
    · rw [same]
      exact (balanced.dequeue t queue).settle t
    · rw [same]
      have flags : ((h.dequeue t queue).conn.rt.tasks t).cancelled = false := by
        show (if t = t then _ else _ : Task).cancelled = false
        rw [if_pos rfl]
        exact live
      exact (balanced.dequeue t queue).runTask flags weather
        ⟨apart.1, fun conn found => apart.2 t queue conn scheduled live found⟩

theorem balanced_opened (fd : Fd) (state : ConnectionState) : (opened fd state).Balanced := by
  refine ⟨⟨?_, rfl, ?_⟩, fun started => (nomatch started), fun started => nomatch started⟩
  · have nobody : ∀ side : Side, (opened fd state).conn.task side = none := by
      intro side
      cases side <;> rfl
    have registered : Registered ({} : State) := by
      intro fd
      exact ⟨rfl, by simp⟩
    refine { ordered := ⟨⟨List.nodup_nil, ?_⟩, ?_, List.nodup_nil⟩, registered, watched := ?_, live := ?_,
             events := ?_, apart := ?_, current := ?_, born := ?_, over_ := ?_ }
    · intro p member
      cases member
    · intro w member
      cases member
    · intro w
      constructor
      · intro member
        cases member
      · rintro ⟨side, t, held, _⟩
        rw [nobody] at held
        cases held
    · intro side t held
      rw [nobody] at held
      cases held
    · intro side
      cases side
      · exact Or.inl rfl
      · exact Or.inr rfl
    · intro t u held
      rw [nobody] at held
      cases held
    · intro side t owner
      cases owner
    · intro side t owner
      cases owner
    · intro t gone
      cases gone
  · intro conn found
    cases found
    rfl

/-- In every run in which registering succeeds and no side asks for an event that the other side waits for, the
    runtime holds, while the connection is open, a watcher with a live task for each side that was started and
    has neither ended nor been paused. -/
theorem serves_of_apart (fd : Fd) (state : ConnectionState) (actions : List Action) (h : Hosted)
    (apart : Along Apart (opened fd state) actions) (reached : run (opened fd state) actions = some h)
    (open_ : h.conn.Open) :
    (h.writeStarted = true → h.Serves .write) ∧ (h.readStarted = true → h.Serves .read) := by
  have balanced := run_induction (balanced_opened fd state)
    (fun _ action _ balanced apart => balanced.step action apart) actions apart h reached
  exact ⟨fun started => balanced.serves (balanced.writing started open_),
    fun started => balanced.serves (balanced.reading started open_)⟩

theorem serves_of_apart_read : ∃ h, run (opened 5 .reading)
    [.call (.createReadTask .armed), .wait [⟨5, eventRead⟩]] = some h ∧
      (h.readStarted = true → h.Serves .read) := by
  have idle : ∀ h, run (opened 5 .reading) [.call (.createReadTask .armed), .wait [⟨5, eventRead⟩]] = some h →
      h.conn.Open := by
    intro h reached
    have facts : (run (opened 5 .reading) [.call (.createReadTask .armed), .wait [⟨5, eventRead⟩]]).map
        (fun h => (h.conn.disconnected, h.conn.connection)) = some (false, some {}) := by decide
    rw [reached] at facts
    rcases Prod.mk.inj (Option.some.inj facts) with ⟨running, found⟩
    exact ⟨running, {}, found, by decide⟩
  refine Exists.imp (fun h reached => ⟨reached, (serves_of_apart 5 .reading _ h ?_ reached (idle h reached)).2⟩) ?_
  · have free : (opened 5 .reading).conn.Free .read eventRead := by
      intro other t differs held
      cases other with
      | read => exact (differs rfl).elim
      | write => cases held
    exact along_cons ⟨rfl, fun _ => free⟩ fun _ _ => along_cons True.intro fun _ _ => along_nil _
  · apply Option.isSome_iff_exists.mp
    decide

theorem not_serves_turned : ¬∀ actions h, run (opened 5 .reading) actions = some h → h.conn.Open →
    h.readStarted = true → h.Serves .read := by
  intro serves
  have facts : (run (opened 5 .reading) [.call (.createReadTask .armed), .call (.bufferAdd (some 0) 3 true),
      .call (.createWriteTask .armed), .wait [⟨5, eventWrite⟩], .runNext { statuses := [.wantRead] }, .advance]).map
      (fun h => (h.conn.disconnected, h.conn.connection.map (·.state), h.readStarted,
        h.conn.rt.watchers.map fun w => h.conn.side w.task)) =
      some (false, some .reading, true, [some .write]) := by decide
  rcases Option.map_eq_some_iff.mp facts with ⟨h, reached, facts⟩
  simp only [Prod.mk.injEq] at facts
  rcases facts with ⟨running, connection, started, sides⟩
  rcases Option.map_eq_some_iff.mp connection with ⟨conn, found, state⟩
  rcases serves _ h reached ⟨running, conn, found, by rw [state]; decide⟩ started with ⟨w, member, side, _⟩
  have listed := List.mem_map_of_mem (f := fun w : Watcher => h.conn.side w.task) member
  rw [sides, side] at listed
  simp at listed

end Hosted
end BlueBird.Net
