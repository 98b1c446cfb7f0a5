import BlueBird.Connection.Serving
import BlueBird.Program.Runs
import BlueBird.WebSocket.Sends

namespace BlueBird.WebSocket

open BlueBird.Net (AsyncConnection Arming Callback Connection Hosted Side TransportStatus Weather)
open BlueBird.Net.AsyncConnection (Free Settled not_open_handleDisconnect writeData_of_unpended)
open BlueBird.Runtime (Fd eventRead eventWrite)

def SendWeather.Queued (weather : SendWeather) : Prop := weather.frame = true ∧ weather.node = true

namespace Socket

/-! ## What is asked of the sends -/

/-- While the connection is open and bytes are queued, a watcher waits that runs the write step. -/
def Progresses (s : Socket) : Prop :=
  s.host.stack = [] → s.host.conn.Open → ∀ conn, s.host.conn.connection = some conn → conn.writeData ≠ [] →
    s.host.Serves .write

/-- A write is pending, or the transport takes at once all that is unsent with the new frame. -/
def Clears (s : Socket) (opcode : Byte) (payload : Bytes) (weather : SendWeather) : Prop :=
  let queued := s.queueFrame opcode payload weather
  queued.2 = true → ∀ conn, queued.1.host.conn.connection = some conn → conn.writePending = true ∨
    conn.accepted queued.1.contents weather.statuses = Connection.unsent queued.1.contents conn.writeData

/-- A write is pending, or a CLOSE goes out, or it cannot be queued and nothing is unsent. -/
def Closes (s : Socket) (weather : SendWeather) : Prop :=
  ∀ conn, s.host.conn.connection = some conn → conn.writePending = true ∨
    (weather.Queued ∧ ∀ status ∈ weather.statuses, status ≠ .closed ∧ status ≠ .error) ∨
    (¬ weather.Queued ∧ conn.writeData = [])

/-- A CLOSE frame of the batch is answered, or its answer is not missed. -/
def Answers (s : Socket) : List (Frame × FrameTurn) → Prop
  | [] => True
  | (frame, turn) :: turns =>
    (frameKind frame.opcode = .close → s.Closes turn.reply) ∧
      ((s.dispatch frame turn).2 = none → (s.dispatch frame turn).1.Answers turns)

/-- A send outside a read step finds a write pending or is taken whole, a CLOSE frame is answered, and no side registers
    for the event that the other side waits for. -/
def Permits (s : Socket) : Move → Prop
  | .call (.send kind payload weather) => s.Clears kind.opcode payload weather
  | .call (.sendClose _ weather) => s.Closes weather
  | .call .close => True
  | .tick weather => s.heartbeat.tick.2 = .ping → s.Clears opPing [] weather
  | .wait _ => True
  | .runNext weather => s.host.Apart (.runNext { weather with arming := .armed })
  | .advance weather => ∀ rest conn, s.host.stack = .pending [.readStep] :: rest → s.host.conn.connection = some conn →
      (s.host.conn.writeTask = none → s.host.conn.Free .write eventWrite) ∧
        ((readFrames weather.alloc conn.buffer).status = .success →
          { s with host := s.host.perform (.consume (readFrames weather.alloc conn.buffer).consumed) }.Answers
            (turns (readFrames weather.alloc conn.buffer).frames weather))

/-! ## The write list between the sends -/

/-- The two sides are as they should be, and every entry of the write list is in its buffer and not yet written. -/
structure Whole (s : Socket) : Prop where
  settled : s.host.conn.Settled
  live : ∀ conn, s.host.conn.connection = some conn → ∀ entry ∈ conn.writeData, Connection.Unfinished s.contents entry

structure Flowing (s : Socket) : Prop extends s.Whole where
  flows : ∀ conn, s.host.conn.connection = some conn → conn.writeData ≠ [] → s.host.conn.writeTask.isSome = true

/-- A send leaves the tasks alone, or the connection is closed. -/
structure Beside (s s' : Socket) : Prop where
  stack : s'.host.stack = s.host.stack
  whole : s.Whole → s'.host.conn.Open → s'.Whole
  open_ : s'.host.conn.Open → s.host.conn.Open
  task : s'.host.conn.Open → s'.host.conn.task = s.host.conn.task
  watchEvents : s'.host.conn.Open → s'.host.conn.watchEvents = s.host.conn.watchEvents

variable {s s' s'' : Socket}

theorem Beside.refl (s : Socket) : Beside s s := ⟨rfl, fun whole _ => whole, id, fun _ => rfl, fun _ => rfl⟩

theorem Beside.trans (first : Beside s s') (second : Beside s' s'') : Beside s s'' where
  stack := second.stack.trans first.stack
  whole whole still := second.whole (first.whole whole (second.open_ still)) still
  open_ still := first.open_ (second.open_ still)
  task still := (second.task still).trans (first.task (second.open_ still))
  watchEvents still := (second.watchEvents still).trans (first.watchEvents (second.open_ still))

theorem not_open_shut (s : Socket) : ¬ s.shut.host.conn.Open := not_open_handleDisconnect

theorem shut_beside (s : Socket) : Beside s s.shut where
  stack := rfl
  whole _ still := (s.not_open_shut still).elim
  open_ still := (s.not_open_shut still).elim
  task still := (s.not_open_shut still).elim
  watchEvents still := (s.not_open_shut still).elim

theorem open_connection {a : AsyncConnection} (open_ : a.Open) : ∃ conn, a.connection = some conn := by
  rcases open_ with ⟨_, conn, found, _⟩
  exact ⟨conn, found⟩

/-! ## What a send does to the write list -/

theorem unfinished_append {queued : List Bytes} (more : List Bytes) {entry : Net.WriteBuffer}
    (live : Connection.Unfinished (queued.getD · []) entry) : Connection.Unfinished ((queued ++ more).getD · []) entry := by
  rcases live with ⟨b, buffer, length, offset⟩
  have held : b < queued.length := by
    by_contra outside
    have empty : queued.getD b [] = [] := List.getD_eq_default _ _ (Nat.le_of_not_lt outside)
    dsimp only at length
    rw [empty, List.length_nil] at length
    omega
  refine ⟨b, buffer, ?_, offset⟩
  dsimp only at length ⊢
  rw [List.getD_append _ _ _ _ held]
  exact length

theorem queueFrame_beside (s : Socket) (opcode : Byte) (payload : Bytes) (weather : SendWeather) :
    Beside s (s.queueFrame opcode payload weather).1 := by
  unfold queueFrame
  cases found : s.host.conn.connection with
  | none => exact .refl s
  | some conn =>
    cases weather.frame with
    | false => exact .refl s
    | true =>
      let bytes := encodeFrame s.mode weather.mask opcode payload
      let call : Net.Call := .bufferAdd (some s.queued.length) bytes.length weather.node
      refine ⟨rfl, fun whole _ => ⟨?_, ?_⟩, Hosted.perform_open (h := s.host) call, fun _ => rfl, fun _ => rfl⟩
      · apply whole.settled.modifyConnection
        exact fun conn => conn.bufferAdd_pending (some s.queued.length) bytes.length weather.node
      · intro after here
        rcases Option.map_eq_some_iff.mp here with ⟨before, there, rfl⟩
        have live : ∀ entry ∈ before.writeData, Connection.Unfinished ((s.queued ++ [bytes]).getD · []) entry :=
          fun entry member => unfinished_append [bytes] (whole.live before there entry member)
        have sound : bytes.length ≤ ((s.queued ++ [bytes]).getD s.queued.length []).length := by simp
        exact (@Connection.bufferAdd_spec ((s.queued ++ [bytes]).getD · []) before live s.queued.length _ sound weather.node).1

theorem write_beside (s : Socket) (statuses : List TransportStatus) : Beside s (s.write statuses).1 := by
  unfold write
  cases found : s.host.conn.connection with
  | none => exact .refl s
  | some conn =>
    refine ⟨rfl, fun whole _ => ⟨?_, ?_⟩, Hosted.perform_open (h := s.host) (.write statuses), fun _ => rfl, fun _ => rfl⟩
    · exact whole.settled.modifyConnection _ fun conn => conn.write_pending statuses
    · intro after here
      rcases Option.map_eq_some_iff.mp here with ⟨before, there, rfl⟩
      exact (Connection.write_spec (whole.live before there) statuses).1

theorem send_beside (s : Socket) (opcode : Byte) (payload : Bytes) (weather : SendWeather) :
    Beside s (s.send opcode payload weather).1 := by
  have first := s.queueFrame_beside opcode payload weather
  unfold send
  dsimp only
  split
  · exact first.trans (write_beside _ weather.statuses)
  · exact first

theorem sendClose_beside (s : Socket) (payload : Bytes) (weather : SendWeather) : Beside s (s.sendClose payload weather) := by
  have sent := s.send_beside opClose payload weather
  unfold sendClose
  dsimp only
  split
  · exact sent.trans (shut_beside _)
  · exact sent

theorem call_beside (s : Socket) (call : SocketCall) : Beside s (s.call call) := by
  cases call with
  | send kind payload weather => exact s.send_beside kind.opcode payload weather
  | sendClose payload weather => exact s.sendClose_beside payload weather
  | close => exact s.shut_beside

theorem calls_beside (s : Socket) (calls : List SocketCall) : Beside s (calls.foldl call s) := by
  induction calls generalizing s with
  | nil => exact .refl s
  | cons call calls ih => exact (s.call_beside call).trans (ih (s.call call))

theorem heartbeat_beside (s : Socket) (heartbeat : Heartbeat) : Beside s { s with heartbeat } :=
  ⟨rfl, fun whole _ => ⟨whole.settled, whole.live⟩, id, fun _ => rfl, fun _ => rfl⟩

theorem dispatch_beside (s : Socket) (frame : Frame) (turn : FrameTurn) : Beside s (s.dispatch frame turn).1 := by
  have received := s.heartbeat_beside s.heartbeat.received
  unfold dispatch
  cases frameKind frame.opcode with
  | message =>
    dsimp only
    split
    · exact received.trans (calls_beside _ turn.calls)
    · exact received
  | ping => exact received.trans (send_beside _ opPong frame.payload turn.reply)
  | pong => exact received.trans (calls_beside _ turn.calls)
  | close => exact received.trans (sendClose_beside _ _ turn.reply)
  | other => exact received

/-! ## What a send outside leaves unsent -/

theorem queueFrame_done (opcode : Byte) (payload : Bytes) (weather : SendWeather) {conn : Connection}
    (found : s.host.conn.connection = some conn) : (s.queueFrame opcode payload weather).2 = true ↔ weather.Queued := by
  have some_ : (encodeFrame s.mode weather.mask opcode payload).length ≠ 0 := by
    intro empty
    exact Sent.bytes_ne_nil s.mode ⟨weather.mask, opcode, payload⟩ (List.length_eq_zero_iff.mp empty)
  unfold queueFrame SendWeather.Queued
  rw [found]
  cases weather.frame with
  | false => simp
  | true =>
    dsimp only
    rw [if_pos rfl]
    unfold Connection.bufferAdd
    rw [if_neg some_]
    cases weather.node <;> simp

theorem queueFrame_failed (opcode : Byte) (payload : Bytes) (weather : SendWeather)
    (failed : (s.queueFrame opcode payload weather).2 = false) :
    (s.queueFrame opcode payload weather).1.host.conn = s.host.conn := by
  revert failed
  unfold queueFrame
  cases found : s.host.conn.connection with
  | none => exact fun _ => rfl
  | some conn =>
    cases weather.frame with
    | false => exact fun _ => rfl
    | true =>
      dsimp only
      rw [if_pos rfl]
      intro failed
      have same : (conn.bufferAdd (some s.queued.length) (encodeFrame s.mode weather.mask opcode payload).length weather.node).1 =
          conn := by
        unfold Connection.bufferAdd at failed ⊢
        split at failed
        · cases failed
        · rename_i some_
          rw [if_neg some_]
          cases held : weather.node with
          | true =>
            rw [held] at failed
            cases failed
          | false => rfl
      show s.host.conn.modifyConnection (fun conn => (conn.bufferAdd _ _ weather.node).1) = s.host.conn
      unfold AsyncConnection.modifyConnection
      rw [found, Option.map_some, same, ← found]

theorem write_connection {before : Connection} (here : s.host.conn.connection = some before)
    (statuses : List TransportStatus) : (s.write statuses).1.host.conn.connection = some (before.write statuses).1 := by
  unfold write
  rw [here]
  show Option.map _ s.host.conn.connection = _
  rw [here, Option.map_some]

theorem send_queued {opcode : Byte} {payload : Bytes} {weather : SendWeather}
    (done : (s.queueFrame opcode payload weather).2 = true) :
    (s.send opcode payload weather).1 = ((s.queueFrame opcode payload weather).1.write weather.statuses).1 := by
  unfold send
  dsimp only
  rw [done, if_pos rfl]

theorem send_failed {opcode : Byte} {payload : Bytes} {weather : SendWeather}
    (failed : (s.queueFrame opcode payload weather).2 = false) :
    s.send opcode payload weather = ((s.queueFrame opcode payload weather).1, false) := by
  unfold send
  dsimp only
  rw [failed, if_neg Bool.false_ne_true]

theorem Flowing.send (flowing : s.Flowing) {opcode : Byte} {payload : Bytes} {weather : SendWeather}
    (clears : s.Clears opcode payload weather) (still : (s.send opcode payload weather).1.host.conn.Open) :
    (s.send opcode payload weather).1.Flowing := by
  refine ⟨(s.send_beside opcode payload weather).whole flowing.toWhole still, ?_⟩
  cases done : (s.queueFrame opcode payload weather).2 with
  | false =>
    rw [send_failed done, queueFrame_failed opcode payload weather done]
    exact flowing.flows
  | true =>
    have queued := s.queueFrame_beside opcode payload weather
    have written := write_beside (s.queueFrame opcode payload weather).1 weather.statuses
    rw [send_queued done] at still ⊢
    have whole := queued.whole flowing.toWhole (written.open_ still)
    have task := congrFun (written.task still) .write
    rcases open_connection (written.open_ still) with ⟨before, here⟩
    intro after found some_
    rw [write_connection here] at found
    cases found
    rcases clears done before here with pending | all
    · have mark := whole.settled.pending before here
      rw [pending] at mark
      exact (congrArg Option.isSome task).trans mark.symm
    · rcases Connection.write_spec (whole.live before here) weather.statuses with ⟨live, parts⟩
      rw [all] at parts
      exact absurd ((Connection.unsent_empty live).mpr (List.append_right_eq_self.mp parts.symm)) some_

theorem writeLoop_success (conn : Connection) {statuses : List TransportStatus}
    (fine : ∀ status ∈ statuses, status ≠ .closed ∧ status ≠ .error) : (conn.writeLoop statuses).2.1 = .success := by
  induction statuses generalizing conn with
  | nil => rfl
  | cons status statuses ih =>
    rcases List.forall_mem_cons.mp fine with ⟨first, others⟩
    unfold Connection.writeLoop
    cases conn.writeData with
    | nil => rfl
    | cons head rest =>
      cases status with
      | ok n => exact ih _ others
      | wantRead => rfl
      | wantWrite => rfl
      | closed => exact absurd rfl first.1
      | error => exact absurd rfl first.2

theorem write_success {conn : Connection} (open_ : conn.state ≠ .closed) {statuses : List TransportStatus}
    (fine : ∀ status ∈ statuses, status ≠ .closed ∧ status ≠ .error) : (conn.write statuses).2.1 = .success := by
  unfold Connection.write
  rw [if_neg open_]
  exact writeLoop_success _ fine

theorem send_done {opcode : Byte} {payload : Bytes} {weather : SendWeather} (open_ : s.host.conn.Open)
    (queued : weather.Queued) (fine : ∀ status ∈ weather.statuses, status ≠ .closed ∧ status ≠ .error) :
    (s.send opcode payload weather).2 = true := by
  rcases open_ with ⟨_, conn, found, state⟩
  have done := (queueFrame_done opcode payload weather found).mpr queued
  have here : (s.queueFrame opcode payload weather).1.host.conn.connection =
      some (conn.bufferAdd (some s.queued.length) (encodeFrame s.mode weather.mask opcode payload).length weather.node).1 := by
    unfold queueFrame
    rw [found]
    dsimp only
    rw [if_pos queued.1]
    show Option.map _ s.host.conn.connection = _
    rw [found, Option.map_some]
  unfold send
  dsimp only
  rw [done, if_pos rfl]
  unfold Socket.write
  rw [here]
  apply decide_eq_true
  apply write_success _ fine
  rw [Connection.bufferAdd_state]
  exact state

theorem Whole.sendClose (whole : s.Whole) {payload : Bytes} {weather : SendWeather} (closes : s.Closes weather)
    (still : (s.sendClose payload weather).host.conn.Open) : (s.sendClose payload weather).Flowing := by
  have beside := s.sendClose_beside payload weather
  refine ⟨beside.whole whole still, ?_⟩
  have before := beside.open_ still
  rcases open_connection before with ⟨conn, found⟩
  intro after here some_
  rcases closes conn found with pending | ⟨queued, fine⟩ | ⟨missing, empty⟩
  · have mark := whole.settled.pending conn found
    rw [pending] at mark
    exact (congrArg Option.isSome (congrFun (beside.task still) .write)).trans mark.symm
  · have done := @send_done s opClose payload weather before queued fine
    unfold Socket.sendClose at still
    dsimp only at still
    rw [done, if_pos rfl] at still
    exact ((s.send opClose payload weather).1.not_open_shut still).elim
  · have failed : (s.queueFrame opClose payload weather).2 = false := by
      apply Bool.eq_false_iff.mpr
      intro done
      exact missing ((queueFrame_done opClose payload weather found).mp done)
    unfold Socket.sendClose at here
    dsimp only at here
    rw [send_failed failed, if_neg Bool.false_ne_true, queueFrame_failed opClose payload weather failed, found] at here
    cases here
    exact (some_ empty).elim

/-! ## The read step -/

theorem live_of_keeps {a : AsyncConnection} (whole : s.Whole) (keeps : AsyncConnection.Keeps s.host.conn a) (conn : Connection)
    (found : a.connection = some conn) : ∀ entry ∈ conn.writeData, Connection.Unfinished s.contents entry := by
  rcases keeps.exists found with ⟨before, there, same⟩
  rw [writeData_of_unpended same]
  exact whole.live before there

theorem finish_open (s : Socket) (arming : Arming) (still : (s.finish arming).host.conn.Open) : s.host.conn.Open := by
  unfold finish at still
  split at still
  · exact still
  · unfold createTask at still
    dsimp only at still
    split at still
    · exact (AsyncConnection.createWriteTask_keeps s.host.conn arming).open still
    · exact (not_open_shut _ still).elim

theorem Whole.finish (whole : s.Whole) (free : s.host.conn.writeTask = none → s.host.conn.Free .write eventWrite)
    {arming : Arming} (still : (s.finish arming).host.conn.Open) : (s.finish arming).Flowing := by
  have before := s.finish_open arming still
  rcases open_connection before with ⟨conn, found⟩
  have live := whole.live conn found
  unfold Socket.finish at still ⊢
  rw [found] at still ⊢
  cases entries : conn.writeData with
  | nil =>
    simp only [Option.bind_some, entries, List.head?_nil, Option.bind_none]
    refine ⟨whole, ?_⟩
    intro after here some_
    rw [found] at here
    cases here
    exact (some_ entries).elim
  | cons entry rest =>
    rcases live entry (by rw [entries]; exact List.mem_cons_self ..) with ⟨b, buffer, _⟩
    simp only [Option.bind_some, entries, List.head?_cons, buffer] at still ⊢
    unfold createTask at still ⊢
    dsimp only at still ⊢
    cases created : (s.host.conn.createWriteTask arming).2 with
    | false =>
      rw [created, if_neg Bool.false_ne_true] at still
      exact (not_open_shut _ still).elim
    | true =>
      rw [if_pos rfl]
      have armed := AsyncConnection.createWriteTask_arming created
      rw [armed] at created ⊢
      rcases whole.settled.createWriteTask free with ⟨settled, _, _, writes⟩
      have keeps := AsyncConnection.createWriteTask_keeps s.host.conn .armed
      exact ⟨⟨settled, fun conn found => live_of_keeps whole keeps conn found⟩, fun _ _ _ => writes created⟩

theorem dispatch_stops {frame : Frame} {turn : FrameTurn} {status : StepStatus}
    (stops : (s.dispatch frame turn).2 = some status) : status = .error ∨ frameKind frame.opcode = .close ∧
      (s.dispatch frame turn).1 = { s with heartbeat := s.heartbeat.received }.sendClose [3, 232] turn.reply := by
  unfold dispatch at stops ⊢
  cases kind : frameKind frame.opcode with
  | message =>
    rw [kind] at stops
    dsimp only at stops
    split at stops
    · cases stops
    · cases stops
      exact .inl rfl
  | ping =>
    rw [kind] at stops
    cases stops
  | pong =>
    rw [kind] at stops
    cases stops
  | close => exact .inr ⟨rfl, rfl⟩
  | other =>
    rw [kind] at stops
    cases stops

theorem walk_open (s : Socket) (arming : Arming) (turns : List (Frame × FrameTurn))
    (still : (s.walk arming turns).host.conn.Open) : s.host.conn.Open := by
  induction turns generalizing s with
  | nil => exact s.finish_open arming still
  | cons first turns ih =>
    rcases first with ⟨frame, turn⟩
    have beside := s.dispatch_beside frame turn
    unfold walk at still
    rcases done : s.dispatch frame turn with ⟨after, _ | status⟩
    · rw [done] at still beside
      exact beside.open_ (ih after still)
    · rw [done] at still beside
      cases status with
      | error => exact (not_open_shut _ still).elim
      | more => exact beside.open_ still
      | done => exact beside.open_ still

theorem Whole.walk (whole : s.Whole) (free : s.host.conn.writeTask = none → s.host.conn.Free .write eventWrite)
    {arming : Arming} {turns : List (Frame × FrameTurn)} (answers : s.Answers turns)
    (still : (s.walk arming turns).host.conn.Open) : (s.walk arming turns).Flowing := by
  induction turns generalizing s with
  | nil => exact whole.finish free still
  | cons first turns ih =>
    rcases first with ⟨frame, turn⟩
    rcases answers with ⟨closes, later⟩
    have beside := s.dispatch_beside frame turn
    unfold Socket.walk at still ⊢
    rcases done : s.dispatch frame turn with ⟨after, _ | status⟩
    · rw [done] at still beside later
      have open_ := after.walk_open arming turns still
      refine ih (beside.whole whole open_) ?_ (later rfl) still
      rw [show after.host.conn.writeTask = s.host.conn.writeTask from congrFun (beside.task open_) .write]
      intro idle other t differs held
      rw [beside.task open_] at held
      rw [beside.watchEvents open_]
      exact free idle other t differs held
    · have stops := @dispatch_stops s frame turn status (by rw [done])
      rw [done] at still stops
      rcases stops with rfl | ⟨kind, same⟩
      · exact (not_open_shut _ still).elim
      · dsimp only at same
        subst same
        have received : Whole { s with heartbeat := s.heartbeat.received } := ⟨whole.settled, whole.live⟩
        cases status with
        | error => exact (not_open_shut _ still).elim
        | more => exact received.sendClose (closes kind) still
        | done => exact received.sendClose (closes kind) still

theorem Flowing.readStep (flowing : s.Flowing) (weather : StepWeather)
    (free : s.host.conn.writeTask = none → s.host.conn.Free .write eventWrite)
    (answers : ∀ conn, s.host.conn.connection = some conn → (readFrames weather.alloc conn.buffer).status = .success →
      { s with host := s.host.perform (.consume (readFrames weather.alloc conn.buffer).consumed) }.Answers
        (turns (readFrames weather.alloc conn.buffer).frames weather))
    (still : (s.readStep weather).host.conn.Open) : (s.readStep weather).Flowing := by
  unfold Socket.readStep at still ⊢
  cases found : s.host.conn.connection with
  | none =>
    rw [found] at still
    exact (s.not_open_shut still).elim
  | some conn =>
    have answers := answers conn found
    rw [found] at still
    dsimp only at still ⊢
    cases status : (readFrames weather.alloc conn.buffer).status with
    | incompleteFrame => exact flowing
    | allocationFailed =>
      rw [status] at still
      exact (s.not_open_shut still).elim
    | outOfBounds =>
      rw [status] at still
      exact (s.not_open_shut still).elim
    | success =>
      rw [status] at still
      have whole : Whole { s with host := s.host.perform (.consume (readFrames weather.alloc conn.buffer).consumed) } := by
        refine ⟨flowing.settled.modifyConnection _ fun _ => rfl, ?_⟩
        intro after here
        rcases Option.map_eq_some_iff.mp here with ⟨before, there, rfl⟩
        exact flowing.live before there
      exact whole.walk free (answers status) still

/-! ## Steps -/

/-- Where a step leaves the websocket while its connection is open: between tasks, in one with a callback to come, or about
    to be closed for a failure. -/
inductive Stage (s : Socket) : Prop where
  | idle (stack : s.host.stack = []) (flowing : s.Flowing)
  | task (t : Runtime.TaskId) (stack : s.host.stack = [.task t]) (flowing : s.Flowing)
  | readStep (t : Runtime.TaskId) (stack : s.host.stack = [.pending [.readStep], .task t]) (flowing : s.Flowing)
  | written (t : Runtime.TaskId) (stack : s.host.stack = [.pending [.writeSuccess], .task t]) (flowing : s.Flowing)
      (ended : s.host.conn.writeTask = none)
  | failed (callback : Callback) (t : Runtime.TaskId) (stack : s.host.stack = [.pending [callback], .task t])
      (fails : callback = .readError ∨ callback = .writeFailure)

theorem Flowing.wait (flowing : s.Flowing) (ready : List Runtime.PollFd) :
    Flowing { s with host := { s.host with conn := { s.host.conn with rt := s.host.conn.rt.wait ready } } } :=
  ⟨⟨⟨flowing.settled.sided.wait ready, flowing.settled.rewatching, flowing.settled.pending⟩, flowing.live⟩, flowing.flows⟩

theorem Flowing.retask (flowing : s.Flowing) {a : AsyncConnection} (settled : a.Settled)
    (task : a.task = s.host.conn.task) (connection : a.connection = s.host.conn.connection) (stack : List Net.Frame) :
    Flowing { s with host := { s.host with conn := a, stack } } := by
  refine ⟨⟨settled, ?_⟩, ?_⟩
  · intro conn found
    exact flowing.live conn (connection ▸ found)
  · intro conn found some_
    show a.writeTask.isSome = true
    rw [show a.writeTask = s.host.conn.writeTask from congrFun task .write]
    exact flowing.flows conn (connection ▸ found) some_

theorem Flowing.runTask (flowing : s.Flowing) {t : Runtime.TaskId} (live : (s.host.conn.rt.tasks t).cancelled = false)
    (weather : Weather) (apart : ∀ conn, s.host.conn.connection = some conn →
      (s.host.conn.side t = some .write → (conn.write weather.statuses).2.1 = .success →
        (conn.write weather.statuses).1.desiredWrite ≠ s.host.conn.writeWatchEvents →
          s.host.conn.Free .write (conn.write weather.statuses).1.desiredWrite) ∧
      (s.host.conn.side t = some .read → (conn.read weather.handshake weather.turns).2 = .success →
        (conn.read weather.handshake weather.turns).1.desiredRead ≠ s.host.conn.readWatchEvents →
          s.host.conn.Free .read (conn.read weather.handshake weather.turns).1.desiredRead))
    (still : (s.host.runTask t weather).conn.Open) : Stage { s with host := s.host.runTask t weather } := by
  let started := s.host.modifyTask t fun task => { task with running := true }
  have settled : started.conn.Settled := flowing.settled.modifyTask t _ fun _ => ⟨rfl, rfl, rfl⟩
  unfold Hosted.runTask at still ⊢
  cases side : s.host.conn.side t with
  | none =>
    simp only [show (s.host.modifyTask t _).conn.side t = none from side]
    exact .task t rfl (flowing.retask settled rfl rfl _)
  | some which =>
    have current := flowing.settled.sided.current which t side live
    cases which with
    | write =>
      simp only [show (s.host.modifyTask t _).conn.side t = some .write from side] at still ⊢
      rcases open_connection (AsyncConnection.runWriteTask_open still) with ⟨conn, found⟩
      have unfinished := (Connection.write_spec (flowing.live conn found) weather.statuses).1
      rw [AsyncConnection.runWriteTask_eq found] at still ⊢
      rcases (settled.written found weather.statuses).afterWrite_leaves current rfl _ _ ((apart conn found).1 side) still with
        failed | ⟨after, data, ⟨quiet, writes⟩ | ⟨told, empty, ended⟩⟩
      · rw [failed]
        exact .failed .writeFailure t rfl (.inr rfl)
      · rw [quiet]
        refine .task t rfl ⟨⟨after, ?_⟩, fun _ _ _ => writes⟩
        intro last here
        rw [data last here]
        exact unfinished
      · rw [told]
        refine .written t rfl ⟨⟨after, ?_⟩, ?_⟩ ended
        · intro last here
          rw [data last here]
          exact unfinished
        · intro last here some_
          exact absurd ((data last here).trans empty) some_
    | read =>
      simp only [show (s.host.modifyTask t _).conn.side t = some .read from side] at still ⊢
      rcases open_connection (AsyncConnection.runReadTask_open still).1 with ⟨conn, found⟩
      let done := conn.read weather.handshake weather.turns
      let a : AsyncConnection := { started.conn with connection := some done.1 }
      have same : done.1.writeData = conn.writeData := conn.read_writeData weather.handshake weather.turns
      rw [AsyncConnection.runReadTask_eq found] at still ⊢
      rcases (settled.read found weather.handshake weather.turns).afterRead_leaves current rfl _ _ ((apart conn found).2 side)
        still with failed | ⟨after, data, writes, told⟩
      · rw [failed]
        exact .failed .readError t rfl (.inl rfl)
      · have flows : Flowing { s with host := { s.host with conn := (a.afterRead t done.1 done.2 weather.arming).1 } } := by
          refine ⟨⟨after, ?_⟩, ?_⟩
          · intro last here
            rw [(data last here).trans same]
            exact flowing.live conn found
          · intro last here some_
            rw [(data last here).trans same] at some_
            exact (congrArg Option.isSome writes).trans (flowing.flows conn found some_)
        rcases told with quiet | told
        · rw [quiet]
          exact .task t rfl ⟨⟨flows.settled, flows.live⟩, flows.flows⟩
        · rw [told]
          exact .readStep t rfl ⟨⟨flows.settled, flows.live⟩, flows.flows⟩

theorem runNext_open {h : Hosted} {weather : Weather} (still : (h.runNext weather).conn.Open) : h.conn.Open := by
  rcases h.runNext_cases weather with ⟨_, same⟩ | ⟨t, queue, _, ⟨_, same⟩ | ⟨_, same⟩⟩
  · rw [same] at still
    exact still
  · rw [same] at still
    rcases (h.dequeue t queue).settle_keeps t with ⟨conn, keeps, settled⟩
    rw [settled] at still
    exact AsyncConnection.Keeps.open (a := h.conn) ⟨rfl, rfl, rfl, rfl⟩ (keeps.open still)
  · rw [same] at still
    let started := (h.dequeue t queue).modifyTask t fun task => { task with running := true }
    have before : started.conn.Open := by
      unfold Hosted.runTask at still
      dsimp only at still
      split at still
      · exact AsyncConnection.runWriteTask_open still
      · exact (AsyncConnection.runReadTask_open still).1
      · exact still
    exact AsyncConnection.Keeps.open (a := h.conn) ⟨rfl, rfl, rfl, rfl⟩ before

theorem Flowing.settle (flowing : s.Flowing) (t : Runtime.TaskId) : Flowing { s with host := s.host.settle t } := by
  rcases Hosted.settle_settled flowing.settled t with ⟨settled, task, connection⟩
  refine ⟨⟨settled, fun conn found => flowing.live conn (connection ▸ found)⟩, ?_⟩
  intro conn found some_
  show (s.host.settle t).conn.writeTask.isSome = true
  rw [show (s.host.settle t).conn.writeTask = s.host.conn.writeTask from congrFun task .write]
  exact flowing.flows conn (connection ▸ found) some_

theorem settle_stack (h : Hosted) (t : Runtime.TaskId) : (h.settle t).stack = h.stack := by
  rcases h.settle_keeps t with ⟨conn, _, settles⟩
  rw [settles]

theorem Flowing.runNext (flowing : s.Flowing) (idle : s.host.stack = []) {weather : Weather}
    (apart : s.host.Apart (.runNext { weather with arming := .armed })) (still : (s.host.runNext weather).conn.Open) :
    Stage { s with host := s.host.runNext weather } := by
  rcases s.host.runNext_cases weather with ⟨_, same⟩ | ⟨t, queue, scheduled, either⟩
  · rw [same]
    exact .idle idle flowing
  · have taken : Flowing { s with host := s.host.dequeue t queue } :=
      ⟨⟨Hosted.dequeue_settled flowing.settled t queue, flowing.live⟩, flowing.flows⟩
    rcases either with ⟨_, same⟩ | ⟨live, same⟩
    · rw [same]
      exact .idle ((settle_stack _ t).trans idle) (taken.settle t)
    · rw [same] at still ⊢
      have flags : ((s.host.dequeue t queue).conn.rt.tasks t).cancelled = false := by
        show (if t = t then _ else _ : Runtime.Task).cancelled = false
        rw [if_pos rfl]
        exact live
      exact taken.runTask flags weather (fun conn found => apart.2 t queue conn scheduled live found) still

theorem createTask_open {create : AsyncConnection → AsyncConnection × Bool}
    (keeps : AsyncConnection.Keeps s.host.conn (create s.host.conn).1) (still : (s.createTask create).host.conn.Open) :
    s.host.conn.Open ∧ (create s.host.conn).2 = true := by
  unfold createTask at still
  dsimp only at still
  cases created : (create s.host.conn).2 with
  | false =>
    rw [created, if_neg Bool.false_ne_true] at still
    exact (not_open_shut _ still).elim
  | true =>
    rw [created, if_pos rfl] at still
    exact ⟨keeps.open still, rfl⟩

theorem readStep_open {weather : StepWeather} (still : (s.readStep weather).host.conn.Open) : s.host.conn.Open := by
  unfold readStep at still
  cases found : s.host.conn.connection with
  | none =>
    rw [found] at still
    exact (s.not_open_shut still).elim
  | some conn =>
    rw [found] at still
    dsimp only at still
    split at still
    · exact still
    · exact Hosted.perform_open (h := s.host) (.consume _) (walk_open _ _ _ still)
    · exact (s.not_open_shut still).elim

theorem answer_open {weather : StepWeather} {callback : Callback} (still : (s.answer weather callback).host.conn.Open) :
    s.host.conn.Open := by
  cases callback with
  | readStep => exact readStep_open still
  | writeSuccess => exact (createTask_open (AsyncConnection.createReadTask_keeps _ _) still).1
  | readError => exact (s.not_open_shut still).elim
  | writeFailure => exact (s.not_open_shut still).elim
  | disconnect => exact still

theorem Flowing.createReadTask (flowing : s.Flowing) (ended : s.host.conn.writeTask = none) {arming : Arming}
    (still : (s.createTask fun conn => conn.createReadTask arming).host.conn.Open) :
    (s.createTask fun conn => conn.createReadTask arming).Flowing := by
  have created := (createTask_open (AsyncConnection.createReadTask_keeps _ _) still).2
  have armed := AsyncConnection.createReadTask_arming created
  have free : s.host.conn.readTask = none → s.host.conn.Free .read eventRead := by
    intro _ other t differs held
    cases other with
    | read => exact (differs rfl).elim
    | write =>
      rw [show s.host.conn.task .write = none from ended] at held
      cases held
  rcases flowing.settled.createReadTask free with ⟨settled, writes, _⟩
  have keeps := AsyncConnection.createReadTask_keeps s.host.conn .armed
  unfold createTask
  dsimp only
  rw [created, if_pos rfl, armed]
  refine ⟨⟨settled, fun conn found => live_of_keeps flowing.toWhole keeps conn found⟩, ?_⟩
  intro after found some_
  rcases keeps.exists found with ⟨before, there, same⟩
  show (s.host.conn.createReadTask .armed).1.writeTask.isSome = true
  rw [writes]
  exact flowing.flows before there (writeData_of_unpended same ▸ some_)

theorem clears_heartbeat {opcode : Byte} {payload : Bytes} {weather : SendWeather} (clears : s.Clears opcode payload weather)
    (heartbeat : Heartbeat) : { s with heartbeat }.Clears opcode payload weather := by
  revert clears
  unfold Clears queueFrame
  cases s.host.conn.connection with
  | none => exact id
  | some conn => cases weather.frame <;> exact id

theorem Flowing.call (flowing : s.Flowing) {call : SocketCall} (permits : s.Permits (.call call))
    (still : (s.call call).host.conn.Open) : (s.call call).Flowing := by
  cases call with
  | send kind payload weather => exact flowing.send permits still
  | sendClose payload weather => exact flowing.toWhole.sendClose permits still
  | close => exact (s.not_open_shut still).elim

theorem tick_open {weather : SendWeather} (still : (s.tick weather).host.conn.Open) :
    s.host.conn.Open ∧ s.heartbeat.tick.2 = .ping := by
  unfold tick at still
  dsimp only at still
  cases action : s.heartbeat.tick.2 with
  | ping =>
    rw [action] at still
    exact ⟨(send_beside { s with heartbeat := s.heartbeat.tick.1 } opPing [] weather).open_ still, rfl⟩
  | close =>
    rw [action] at still
    exact (not_open_shut _ still).elim

theorem Flowing.tick (flowing : s.Flowing) {weather : SendWeather} (permits : s.Permits (.tick weather))
    (still : (s.tick weather).host.conn.Open) : (s.tick weather).Flowing := by
  have pinged := (tick_open still).2
  unfold Socket.tick at still ⊢
  dsimp only at still ⊢
  rw [pinged] at still ⊢
  have counted : Flowing { s with heartbeat := s.heartbeat.tick.1 } := ⟨⟨flowing.settled, flowing.live⟩, flowing.flows⟩
  exact counted.send (clears_heartbeat (permits pinged) _) still

theorem Stage.advance (stage : Stage s) {weather : StepWeather} (permits : s.Permits (.advance weather)) {s' : Socket}
    (step : s.step (.advance weather) = some s') (still : s'.host.conn.Open) : Stage s' := by
  unfold Socket.step at step
  cases stage with
  | idle stack flowing =>
    rw [stack] at step
    cases step
  | task t stack flowing =>
    rw [stack] at step
    cases step
    have popped : Flowing { s with host := { s.host with stack := [] } } := ⟨⟨flowing.settled, flowing.live⟩, flowing.flows⟩
    have stopped := popped.retask (popped.settled.modifyTask t (fun task => { task with running := false })
      fun _ => ⟨rfl, rfl, rfl⟩) rfl rfl []
    exact .idle (settle_stack _ t) (stopped.settle t)
  | readStep t stack flowing =>
    rw [stack] at step
    cases step
    have before := readStep_open still
    rcases open_connection before with ⟨conn, found⟩
    have permitted := permits [.task t] conn stack found
    have flows := flowing.readStep weather permitted.1 (fun conn' there => by
      rw [found] at there
      cases there
      exact permitted.2) still
    exact .task t rfl ⟨⟨flows.settled, flows.live⟩, flows.flows⟩
  | written t stack flowing ended =>
    rw [stack] at step
    cases step
    have flows := flowing.createReadTask ended still
    exact .task t rfl ⟨⟨flows.settled, flows.live⟩, flows.flows⟩
  | failed callback t stack fails =>
    rw [stack] at step
    cases step
    rcases fails with rfl | rfl
    · exact (s.not_open_shut still).elim
    · exact (s.not_open_shut still).elim

theorem Stage.flowing_of_idle (stage : Stage s) (idle : s.host.stack = []) : s.Flowing := by
  cases stage with
  | idle _ flowing => exact flowing
  | task t stack flowing => exact flowing
  | readStep t stack flowing => exact flowing
  | written t stack flowing ended => exact flowing
  | failed callback t stack fails =>
    rw [idle] at stack
    cases stack

theorem tick_stack (s : Socket) (weather : SendWeather) : (s.tick weather).host.stack = s.host.stack := by
  unfold tick
  dsimp only
  split
  · exact (send_beside _ opPing [] weather).stack
  · rfl

theorem advance_open {weather : StepWeather} {s' : Socket} (step : s.step (.advance weather) = some s')
    (still : s'.host.conn.Open) : s.host.conn.Open := by
  unfold Socket.step at step
  dsimp only at step
  split at step
  · cases step
    exact answer_open still
  · rename_i t rest _
    cases step
    rcases Hosted.settle_keeps (({ s.host with stack := rest }).modifyTask t fun task => { task with running := false }) t with
      ⟨conn, keeps, settles⟩
    have still : (Hosted.settle (({ s.host with stack := rest }).modifyTask t fun task => { task with running := false }) t).conn.Open :=
      still
    rw [settles] at still
    exact AsyncConnection.Keeps.open (a := s.host.conn) ⟨rfl, rfl, rfl, rfl⟩ (keeps.open still)
  · cases step

theorem step_stage {move : Move} {s' : Socket} (stage : s.host.conn.Open → Stage s) (permits : s.Permits move)
    (step : s.step move = some s') : s'.host.conn.Open → Stage s' := by
  intro still
  cases move with
  | call call =>
    simp only [Socket.step, Option.ite_none_right_eq_some, Option.some.injEq] at step
    rcases step with ⟨idle, rfl⟩
    have before := (s.call_beside call).open_ still
    exact .idle ((s.call_beside call).stack.trans idle) (((stage before).flowing_of_idle idle).call permits still)
  | tick weather =>
    simp only [Socket.step, Option.ite_none_right_eq_some, Option.some.injEq] at step
    rcases step with ⟨⟨idle, _⟩, rfl⟩
    exact .idle ((s.tick_stack weather).trans idle) (((stage (tick_open still).1).flowing_of_idle idle).tick permits still)
  | wait ready =>
    simp only [Socket.step, Hosted.step] at step
    split at step
    · rename_i idle
      cases step
      have before : s.host.conn.Open := AsyncConnection.Keeps.open (a := s.host.conn) ⟨rfl, rfl, rfl, rfl⟩ still
      exact .idle idle (((stage before).flowing_of_idle idle).wait ready)
    · cases step
  | runNext weather =>
    simp only [Socket.step, Hosted.step] at step
    split at step
    · rename_i idle
      cases step
      exact ((stage (runNext_open still)).flowing_of_idle idle).runNext idle permits still
    · cases step
  | advance weather =>
    exact (stage (advance_open step still)).advance permits step still

/-! ## Whole runs -/

theorem Flowing.progresses (flowing : s.Flowing) : s.Progresses := by
  intro _ _ conn found some_
  exact Hosted.serves_of_held flowing.settled (flowing.flows conn found some_)

theorem progresses_send_iff (flowing : s.Flowing) (idle : s.host.stack = []) {opcode : Byte} {payload : Bytes}
    {weather : SendWeather} (still : (s.send opcode payload weather).1.host.conn.Open) :
    (s.send opcode payload weather).1.Progresses ↔ s.Clears opcode payload weather := by
  refine ⟨?_, fun clears => (flowing.send clears still).progresses⟩
  intro progresses done conn here
  have sent := s.send_beside opcode payload weather
  have queued := s.queueFrame_beside opcode payload weather
  have written := write_beside (s.queueFrame opcode payload weather).1 weather.statuses
  rw [send_queued done] at progresses still sent
  have whole := queued.whole flowing.toWhole (written.open_ still)
  have parts := (Connection.write_spec (whole.live conn here) weather.statuses).2
  by_cases all : (conn.write weather.statuses).1.writeData = []
  · rw [all] at parts
    exact .inr (by rw [parts]; exact (List.append_nil _).symm)
  · have serves := progresses (sent.stack.trans idle) still _ (write_connection here weather.statuses) all
    have held := Hosted.held_of_serves (sent.whole flowing.toWhole still).settled serves
    have mark := whole.settled.pending conn here
    rw [show (s.queueFrame opcode payload weather).1.host.conn.writeTask = _ from (congrFun (written.task still) .write).symm] at mark
    exact .inl (mark.trans held)

theorem start_flowing (fd : Fd) {conn : Connection} (empty : conn.writeData = []) (idle : conn.writePending = false)
    (mode : Mode) (heartbeat : Heartbeat) : (start fd conn mode heartbeat).Flowing := by
  have opened : Settled { fd, connection := some conn } := by
    refine (Hosted.balanced_opened fd .reading).settled.connection ?_
    intro _ same
    cases same
    exact idle
  have free : ({ fd, connection := some conn } : AsyncConnection).Free .read eventRead := by
    intro other t _ held
    cases other <;> cases held
  have settled := (opened.createReadTask fun _ => free).1
  have nothing : ∀ last, (start fd conn mode heartbeat).host.conn.connection = some last → last.writeData = [] := by
    intro last found
    rcases (AsyncConnection.createReadTask_keeps { fd, connection := some conn } .armed).exists found with
      ⟨before, there, same⟩
    cases there
    exact (writeData_of_unpended same).trans empty
  refine ⟨⟨settled, ?_⟩, ?_⟩
  · intro last found
    rw [nothing last found]
    exact fun entry member => absurd member List.not_mem_nil
  · exact fun last found some_ => absurd (nothing last found) some_

/-- A websocket of a server, without a heartbeat. -/
def quiet : Socket := start 5 {} .server ⟨false, 0, 0, 0, false⟩

/-- A text of two letters, sent at once. -/
def wholeSend : Move := .call (.send .text (ascii "hi") { statuses := [.ok 4] })

def shortSend : Move := .call (.send .text (ascii "hi") { statuses := [.ok 1, .wantWrite] })

end Socket
end BlueBird.WebSocket
