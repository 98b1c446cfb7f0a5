import BlueBird.Connection.Callbacks

namespace BlueBird.Net

open BlueBird.Runtime (TaskId State Events eventRead eventWrite)

/-! ## What the handling of tasks leaves alone -/

namespace Connection

def unpended (conn : Connection) : Connection := { conn with writePending := false }

theorem state_of_unpended {conn conn' : Connection} (same : conn'.unpended = conn.unpended) :
    conn'.state = conn.state := by
  show conn'.unpended.state = conn.unpended.state
  rw [same]

theorem write_closed (conn : Connection) (statuses : List TransportStatus) (closed : conn.state = .closed) :
    conn.write statuses = (conn, .connectionClosed, []) := by
  rw [write, if_pos closed]

theorem writeLoop_state (conn : Connection) (statuses : List TransportStatus) :
    (conn.writeLoop statuses).1.state = .closed ∨
      (conn.writeLoop statuses).1.state = conn.state ∧ (conn.writeLoop statuses).2.1 ≠ .connectionClosed := by
  induction statuses generalizing conn with
  | nil => exact Or.inr ⟨rfl, by simp [writeLoop]⟩
  | cons status statuses ih =>
    unfold writeLoop
    cases entries : conn.writeData with
    | nil => exact Or.inr ⟨rfl, by simp⟩
    | cons head rest =>
      cases status with
      | ok n => exact ih _
      | wantWrite => exact Or.inr ⟨rfl, by simp⟩
      | wantRead => exact Or.inr ⟨rfl, by simp⟩
      | closed => exact Or.inl rfl
      | error => exact Or.inr ⟨rfl, by simp⟩

theorem write_state (conn : Connection) (statuses : List TransportStatus) :
    (conn.write statuses).1.state = .closed ∨
      (conn.write statuses).1.state = conn.state ∧ (conn.write statuses).2.1 ≠ .connectionClosed := by
  by_cases closed : conn.state = .closed
  · rw [write_closed conn statuses closed]
    exact Or.inl closed
  · unfold write
    rw [if_neg closed]
    exact writeLoop_state _ statuses

theorem bufferAdd_state (conn : Connection) (buffer : Option BufferId) (length : Nat) (calloc : Bool) :
    (conn.bufferAdd buffer length calloc).1.state = conn.state := by
  unfold bufferAdd
  split
  · rfl
  · split <;> rfl

theorem readLoop_outcome (conn : Connection) (turns : List ReadTurn) :
    (conn.readLoop turns).2 ≠ .connectionClosed := by
  induction turns generalizing conn with
  | nil =>
    unfold readLoop ensureSpace
    split_ifs <;> simp
  | cons turn turns ih =>
    have space : (conn.ensureSpace turn.realloc).2 ≠ some .connectionClosed := by
      unfold ensureSpace
      split_ifs <;> simp
    unfold readLoop
    rcases made : conn.ensureSpace turn.realloc with ⟨grown, failure⟩
    rw [made] at space
    cases failure with
    | some failure => simpa using space
    | none =>
      cases turn.answer with
      | ok data => exact ih _
      | _ => simp

theorem read_closed (conn : Connection) (handshake : Handshake) (turns : List ReadTurn)
    (closed : conn.state = .closed) : conn.read handshake turns = (conn, .connectionClosed) := by
  unfold read
  rw [closed]

theorem read_outcome (conn : Connection) (handshake : Handshake) (turns : List ReadTurn)
    (outcome : (conn.read handshake turns).2 = .connectionClosed) :
    (conn.read handshake turns).1.state = .closed := by
  unfold read at outcome ⊢
  cases state : conn.state with
  | closed => exact state
  | handshake =>
    rw [state] at outcome
    cases handshake with
    | ok => exact (readLoop_outcome _ turns outcome).elim
    | closed => rfl
    | _ => cases outcome
  | reading =>
    rw [state] at outcome
    exact (readLoop_outcome _ turns outcome).elim
  | writing =>
    rw [state] at outcome
    exact (readLoop_outcome _ turns outcome).elim

end Connection

namespace AsyncConnection

/-- Tasks come and go, and with them the mark that a write is pending. -/
structure Keeps (a b : AsyncConnection) : Prop where
  fd : b.fd = a.fd
  disconnected : b.disconnected = a.disconnected
  disconnect : b.disconnect = a.disconnect
  connection : b.connection.map Connection.unpended = a.connection.map Connection.unpended

variable {a b c : AsyncConnection}

theorem Keeps.refl (a : AsyncConnection) : Keeps a a := ⟨rfl, rfl, rfl, rfl⟩

theorem Keeps.trans (first : Keeps a b) (second : Keeps b c) : Keeps a c :=
  ⟨second.fd.trans first.fd, second.disconnected.trans first.disconnected,
    second.disconnect.trans first.disconnect, second.connection.trans first.connection⟩

theorem Keeps.after (second : Keeps b c) (first : Keeps a b) : Keeps a c := first.trans second

theorem Keeps.exists (keeps : Keeps a b) {conn : Connection} (found : b.connection = some conn) :
    ∃ conn', a.connection = some conn' ∧ conn.unpended = conn'.unpended := by
  have same := keeps.connection
  rw [found] at same
  cases before : a.connection with
  | none => rw [before] at same; cases same
  | some conn' =>
    rw [before] at same
    exact ⟨conn', rfl, Option.some.inj same⟩

theorem modifyPending_keeps (a : AsyncConnection) (pending : Bool) :
    Keeps a (a.modifyConnection fun conn => { conn with writePending := pending }) := by
  refine ⟨rfl, rfl, rfl, ?_⟩
  show (a.connection.map _).map Connection.unpended = _
  rw [Option.map_map]
  rfl

theorem cleanup_keeps (a : AsyncConnection) (t : TaskId) : Keeps a (a.cleanup t) := by
  unfold cleanup
  split
  · dsimp only
    split
    · exact ⟨rfl, rfl, rfl, rfl⟩
    · exact (modifyPending_keeps _ false).after ⟨rfl, rfl, rfl, rfl⟩
  · exact ⟨rfl, rfl, rfl, rfl⟩
  · exact .refl a

theorem finalize_keeps (a : AsyncConnection) (t : TaskId) : Keeps a (a.finalize t) := by
  unfold finalize
  split
  · exact .refl a
  · exact (cleanup_keeps _ t).after ⟨rfl, rfl, rfl, rfl⟩

theorem cancelTask_keeps (a : AsyncConnection) (t : TaskId) : Keeps a (a.cancelTask t) := by
  have marked : Keeps a { a with rt := a.rt.markCancelled t } := ⟨rfl, rfl, rfl, rfl⟩
  exact (marked.trans (finalize_keeps _ t)).trans ⟨rfl, rfl, rfl, rfl⟩

theorem cancel_keeps (a : AsyncConnection) (task : Option TaskId) : Keeps a (a.cancel task) := by
  cases task with
  | none => exact .refl a
  | some t => exact cancelTask_keeps a t

theorem watch_keeps (a : AsyncConnection) (side : Side) (events : Events) (arming : Arming) :
    Keeps a (a.watch side events arming).1 := by
  have created : Keeps a (a.createTask side) := ⟨rfl, rfl, rfl, rfl⟩
  unfold watch
  split
  · exact .refl a
  · dsimp only
    split
    · exact created.trans (finalize_keeps _ _)
    · split
      · exact (finalize_keeps _ _).after (created.trans ⟨rfl, rfl, rfl, rfl⟩)
      · exact (cancel_keeps _ _).after (created.trans ⟨rfl, rfl, rfl, rfl⟩)

theorem rewatchWrite_keeps (a : AsyncConnection) (events : Events) (arming : Arming) :
    Keeps a (a.rewatchWrite events arming).1 := by
  have cancelled := cancel_keeps { a with writeRewatching := true } a.writeTask
  have cancelled : Keeps a { { a with writeRewatching := true }.cancel a.writeTask with writeRewatching := false } :=
    ⟨cancelled.fd, cancelled.disconnected, cancelled.disconnect, cancelled.connection⟩
  have watched := cancelled.trans (watch_keeps _ .write events arming)
  unfold rewatchWrite placeWrite
  dsimp only
  split
  · exact watched.trans (modifyPending_keeps _ false)
  · exact watched.trans ⟨rfl, rfl, rfl, rfl⟩

theorem rewatchRead_keeps (a : AsyncConnection) (events : Events) (arming : Arming) :
    Keeps a (a.rewatchRead events arming).1 := by
  have watched := (cancel_keeps a a.readTask).trans (watch_keeps _ .read events arming)
  unfold rewatchRead placeRead
  dsimp only
  split
  · exact watched
  · exact watched.trans ⟨rfl, rfl, rfl, rfl⟩

theorem pauseRead_keeps (a : AsyncConnection) : Keeps a a.pauseRead := by
  unfold pauseRead
  split
  · exact .refl a
  · exact (cancelTask_keeps a _).trans ⟨rfl, rfl, rfl, rfl⟩

theorem createWriteTask_keeps (a : AsyncConnection) (arming : Arming) : Keeps a (a.createWriteTask arming).1 := by
  unfold createWriteTask
  split
  · exact .refl a
  · split
    · exact .refl a
    · have watched := watch_keeps a .write eventWrite arming
      split
      · rename_i after failed
        rw [failed] at watched
        exact watched
      · rename_i after t armed
        rw [armed] at watched
        exact (modifyPending_keeps _ true).after (watched.trans ⟨rfl, rfl, rfl, rfl⟩)

theorem createReadTask_keeps (a : AsyncConnection) (arming : Arming) : Keeps a (a.createReadTask arming).1 := by
  unfold createReadTask
  split
  · exact .refl a
  · split
    · exact .refl a
    · have watched := watch_keeps a .read eventRead arming
      split
      · rename_i after failed
        rw [failed] at watched
        exact watched
      · rename_i after t armed
        rw [armed] at watched
        exact watched.trans ⟨rfl, rfl, rfl, rfl⟩

theorem handleDisconnect_keeps (a : AsyncConnection) :
    a.handleDisconnect.1.disconnected = true ∧
      Keeps a { a.handleDisconnect.1 with disconnected := a.disconnected } := by
  unfold handleDisconnect
  by_cases ended : a.disconnected = true
  · rw [if_pos ended]
    exact ⟨ended, ⟨rfl, rfl, rfl, rfl⟩⟩
  · rw [if_neg ended]
    have cancelled := (cancel_keeps { a with disconnected := true } a.readTask).trans
      (cancel_keeps _ (({ a with disconnected := true }.cancel a.readTask).writeTask))
    exact ⟨cancelled.disconnected, ⟨cancelled.fd, rfl, cancelled.disconnect, cancelled.connection⟩⟩

theorem handleDisconnect_callbacks (a : AsyncConnection) :
    a.handleDisconnect.2 = if a.disconnected = false ∧ a.disconnect = true then [.disconnect] else [] := by
  unfold handleDisconnect
  cases ended : a.disconnected with
  | true => rfl
  | false =>
    have cancelled := (cancel_keeps { a with disconnected := true } a.readTask).trans
      (cancel_keeps _ (({ a with disconnected := true }.cancel a.readTask).writeTask))
    show (if _ = true then _ else _) = _
    rw [cancelled.disconnect]
    simp

/-! ## A connection that has ended is closed -/

def Sober (a : AsyncConnection) : Prop :=
  a.disconnected = true → ∀ conn, a.connection = some conn → conn.state = .closed

theorem Keeps.sober (keeps : Keeps a b) (sober : a.Sober) : b.Sober := by
  intro ended conn found
  rcases keeps.exists found with ⟨conn', before, same⟩
  rw [Connection.state_of_unpended same]
  exact sober (keeps.disconnected ▸ ended) conn' before

theorem handleDisconnect_sober (closed : ∀ conn, a.connection = some conn → conn.state = .closed) :
    a.handleDisconnect.1.Sober := by
  intro _ conn found
  rcases (handleDisconnect_keeps a).2.exists found with ⟨conn', before, same⟩
  rw [Connection.state_of_unpended same]
  exact closed conn' before

/-! ## What a run of a task reports -/

theorem rewatchWrite_callbacks (a : AsyncConnection) (events : Events) (arming : Arming) :
    (a.rewatchWrite events arming).2 = [] ∨ (a.rewatchWrite events arming).2 = [.writeFailure] := by
  unfold rewatchWrite placeWrite
  dsimp only
  split
  · exact Or.inr rfl
  · exact Or.inl rfl

theorem rewatchRead_callbacks (a : AsyncConnection) (events : Events) (arming : Arming) :
    (a.rewatchRead events arming).2 = [] ∨ (a.rewatchRead events arming).2 = [.readError] := by
  unfold rewatchRead placeRead
  dsimp only
  split
  · exact Or.inr rfl
  · exact Or.inl rfl

/-- A run of a task that does not end the connection reports at most one thing. -/
structure Reports (a b : AsyncConnection) (callbacks possible : List Callback) : Prop where
  keeps : Keeps a b
  one : callbacks = [] ∨ ∃ c ∈ possible, callbacks = [c]

theorem afterWrite_reports (a : AsyncConnection) (t : TaskId) (conn : Connection) (outcome : Outcome)
    (arming : Arming) (open_ : outcome ≠ .connectionClosed) :
    Reports a (a.afterWrite t conn outcome arming).1 (a.afterWrite t conn outcome arming).2
      [.writeSuccess, .writeFailure] := by
  cases outcome with
  | connectionClosed => exact (open_ rfl).elim
  | ioError => exact ⟨cancelTask_keeps a t, Or.inr ⟨.writeFailure, by simp, rfl⟩⟩
  | success =>
    unfold afterWrite
    dsimp only
    split
    · refine ⟨rewatchWrite_keeps a _ arming, ?_⟩
      rcases rewatchWrite_callbacks a _ arming with quiet | failed
      · exact Or.inl quiet
      · exact Or.inr ⟨.writeFailure, by simp, failed⟩
    · split
      · exact ⟨.refl a, Or.inl rfl⟩
      · exact ⟨cancelTask_keeps a t, Or.inr ⟨.writeSuccess, by simp, rfl⟩⟩

theorem afterRead_reports (a : AsyncConnection) (t : TaskId) (conn : Connection) (outcome : ReadOutcome)
    (arming : Arming) (open_ : outcome ≠ .connectionClosed) :
    Reports a (a.afterRead t conn outcome arming).1 (a.afterRead t conn outcome arming).2
      [.readStep, .readError] := by
  have failure : Reports a (a.cancelTask t) [.readError] [.readStep, .readError] :=
    ⟨cancelTask_keeps a t, Or.inr ⟨.readError, by simp, rfl⟩⟩
  cases outcome with
  | connectionClosed => exact (open_ rfl).elim
  | success =>
    unfold afterRead
    dsimp only
    split
    · refine ⟨rewatchRead_keeps a _ arming, ?_⟩
      rcases rewatchRead_callbacks a _ arming with quiet | failed
      · exact Or.inl quiet
      · exact Or.inr ⟨.readError, by simp, failed⟩
    · split
      · exact ⟨.refl a, Or.inl rfl⟩
      · exact ⟨.refl a, Or.inr ⟨.readStep, by simp, rfl⟩⟩
  | tlsHandshake => exact failure
  | payloadTooLarge => exact failure
  | alloc => exact failure
  | io => exact failure

theorem afterWrite_closed (a : AsyncConnection) (t : TaskId) (conn : Connection) (arming : Arming) :
    (a.afterWrite t conn .connectionClosed arming).1.disconnected = true ∧
      (a.afterWrite t conn .connectionClosed arming).2 =
        (if a.disconnected = false ∧ a.disconnect = true then [.disconnect] else []) ++ [.writeFailure] := by
  have keeps := cancelTask_keeps a t
  refine ⟨(handleDisconnect_keeps _).1, ?_⟩
  show (a.cancelTask t).handleDisconnect.2 ++ _ = _
  rw [handleDisconnect_callbacks, keeps.disconnected, keeps.disconnect]

end AsyncConnection

namespace Hosted

open AsyncConnection

/-! ## What has been reported -/

/-- After the disconnect callback nothing is invoked. -/
def Silent (log : List Callback) : Prop :=
  ∀ before after, log = before ++ Callback.disconnect :: after → after = []

theorem Silent.append {log : List Callback} (absent : .disconnect ∉ log) (c : Callback) : Silent (log ++ [c]) := by
  intro before after split
  rcases List.eq_nil_or_concat after with rfl | ⟨front, last, rfl⟩
  · rfl
  · rw [List.concat_eq_append, ← List.cons_append, ← List.append_assoc] at split
    have same := (List.append_inj' split rfl).1
    exact (absent (same ▸ by simp)).elim

/-- The write task that runs finds the connection closed only while no disconnect callback has been or is to be
    invoked; a read step does not report an error on a connection that it has ended. -/
def Quiet (h : Hosted) : Action → Prop
  | .runNext weather => ∀ t queue conn, h.conn.rt.queue = t :: queue → (h.conn.rt.tasks t).cancelled = false →
      h.conn.side t = some .write → h.conn.connection = some conn →
        (conn.write weather.statuses).2.1 = .connectionClosed →
          .disconnect ∉ h.log ∧ ¬(h.conn.disconnected = false ∧ h.conn.disconnect = true)
  | .ret readError => readError = true → (∃ rest, h.stack = .callback .readStep :: rest) → .disconnect ∉ h.log
  | _ => True

def Calm (frames : List Frame) : Prop := ∀ frame ∈ frames, ∀ callbacks, frame ≠ .pending callbacks

structure Ended (h : Hosted) : Prop where
  silent : Silent h.log
  reported : .disconnect ∈ h.log → h.conn.disconnected = true
  sober : h.conn.Sober
  below : Calm h.stack.tail
  top : ∀ callbacks rest, h.stack = .pending callbacks :: rest →
    .disconnect ∉ h.log ∧ ∃ c, callbacks = [c] ∧ (c = .disconnect → h.conn.disconnected = true)

variable {h h' : Hosted}

theorem ended_of_pend {callbacks : List Callback} {rest : List Frame} (silent : Silent h.log)
    (reported : .disconnect ∈ h.log → h.conn.disconnected = true) (sober : h.conn.Sober) (calm : Calm rest)
    (stack : h.stack = pend callbacks rest)
    (one : callbacks = [] ∨ .disconnect ∉ h.log ∧ ∃ c, callbacks = [c] ∧
      (c = .disconnect → h.conn.disconnected = true)) : h.Ended := by
  refine { silent, reported, sober, below := ?_, top := ?_ }
  · rw [stack, pend]
    split
    · exact fun frame member => calm frame (List.mem_of_mem_tail member)
    · exact calm
  · intro pending rest' found
    rw [stack, pend] at found
    split at found
    · exact (calm _ (found ▸ List.mem_cons_self ..) pending rfl).elim
    · rename_i some_
      cases found
      exact one.resolve_left some_

theorem Ended.calm (ended : h.Ended) (program : ∀ callbacks rest, h.stack ≠ .pending callbacks :: rest) :
    Calm h.stack := by
  cases stack : h.stack with
  | nil => intro frame member; cases member
  | cons top rest =>
    intro frame member callbacks same
    rcases List.mem_cons.mp member with rfl | later
    · exact program callbacks rest (by rw [stack, same])
    · have below := ended.below
      rw [stack] at below
      exact below frame later callbacks same

theorem Ended.frame (ended : h.Ended) (calm : Calm h.stack) (log : h'.log = h.log)
    (disconnected : h'.conn.disconnected = h.conn.disconnected) (sober : h'.conn.Sober)
    (stack : h'.stack = h.stack) : h'.Ended := by
  apply ended_of_pend (log ▸ ended.silent) _ sober calm (show h'.stack = pend [] h.stack from stack) (Or.inl rfl)
  rw [log, disconnected]
  exact ended.reported

theorem modifyConnection_sober {a : AsyncConnection} (sober : a.Sober) (f : Connection → Connection)
    (state : ∀ conn, conn.state = .closed → (f conn).state = .closed) : (a.modifyConnection f).Sober := by
  intro ended conn found
  rcases Option.map_eq_some_iff.mp found with ⟨before, here, rfl⟩
  exact state before (sober ended before here)

theorem Ended.close (ended : h.Ended) (rest : List Frame) (calm : Calm rest) :
    Ended { h with conn := h.conn.close.1, stack := pend h.conn.close.2 rest } := by
  let closing : AsyncConnection := { h.conn with connection := none }
  have over_ : h.conn.close.1.disconnected = true := (handleDisconnect_keeps closing).1
  have callbacks : h.conn.close.2 = _ := handleDisconnect_callbacks closing
  refine ended_of_pend (h := { h with conn := h.conn.close.1, stack := pend h.conn.close.2 rest })
    ended.silent (fun _ => over_) ?_ calm rfl ?_
  · apply handleDisconnect_sober
    intro conn found
    cases found
  · rw [callbacks]
    split
    · rename_i reports
      refine Or.inr ⟨?_, .disconnect, rfl, fun _ => over_⟩
      intro already
      have before : h.conn.disconnected = false := reports.1
      rw [ended.reported already] at before
      cases before
    · exact Or.inl rfl

theorem Ended.perform (ended : h.Ended) (calm : Calm h.stack) (call : Call) : (h.perform call).Ended := by
  cases call with
  | setDisconnectCallback present =>
    exact ended.frame calm rfl rfl ended.sober rfl
  | bufferAdd buffer length calloc =>
    refine ended.frame calm rfl rfl (modifyConnection_sober ended.sober _ ?_) rfl
    intro conn closed
    rw [Connection.bufferAdd_state, closed]
  | write statuses =>
    refine ended.frame calm rfl rfl (modifyConnection_sober ended.sober _ ?_) rfl
    intro conn closed
    rw [conn.write_closed statuses closed]
    exact closed
  | consume length => exact ended.frame calm rfl rfl (modifyConnection_sober ended.sober _ fun _ closed => closed) rfl
  | createWriteTask arming =>
    have keeps := createWriteTask_keeps h.conn arming
    exact ended.frame calm rfl keeps.disconnected (keeps.sober ended.sober) rfl
  | createReadTask arming =>
    have keeps := createReadTask_keeps h.conn arming
    exact ended.frame calm rfl keeps.disconnected (keeps.sober ended.sober) rfl
  | pauseRead =>
    have keeps := pauseRead_keeps h.conn
    exact ended.frame calm rfl keeps.disconnected (keeps.sober ended.sober) rfl
  | close => exact ended.close h.stack calm
  | destroy =>
    apply ended.close (.free :: h.stack)
    intro frame member callbacks same
    rcases List.mem_cons.mp member with rfl | later
    · cases same
    · exact calm frame later callbacks same

theorem Ended.open (ended : h.Ended) {conn : Connection} (found : h.conn.connection = some conn)
    (open_ : conn.state ≠ .closed) : h.conn.disconnected = false ∧ .disconnect ∉ h.log := by
  have running : h.conn.disconnected = false := by
    cases over_ : h.conn.disconnected with
    | false => rfl
    | true => exact (open_ (ended.sober over_ conn found)).elim
  refine ⟨running, ?_⟩
  intro reported
  rw [ended.reported reported] at running
  cases running

theorem ended_of_reports {a : AsyncConnection} {callbacks possible : List Callback} (silent : Silent h.log)
    (absent : .disconnect ∉ h.log) (running : a.disconnected = false) (reports : Reports a h.conn callbacks possible)
    (others : .disconnect ∉ possible) {t : TaskId} (stack : h.stack = pend callbacks [.task t]) : h.Ended := by
  have still := reports.keeps.disconnected.trans running
  refine ended_of_pend silent (fun reported => (absent reported).elim) ?_ (by simp [Calm]) stack ?_
  · intro over_
    rw [still] at over_
    cases over_
  · rcases reports.one with quiet | ⟨c, member, one⟩
    · exact Or.inl quiet
    · exact Or.inr ⟨absent, c, one, fun same => (others (same ▸ member)).elim⟩

theorem Ended.runWrite (ended : h.Ended) {t : TaskId} {conn : Connection} (weather : Weather)
    (found : h.conn.connection = some conn)
    (quiet : (conn.write weather.statuses).2.1 = .connectionClosed →
      .disconnect ∉ h.log ∧ ¬(h.conn.disconnected = false ∧ h.conn.disconnect = true))
    (log : h'.log = h.log) (after : h'.conn = (h.conn.runWriteTask t weather.statuses weather.arming).1)
    (stack : h'.stack = pend (h.conn.runWriteTask t weather.statuses weather.arming).2 [.task t]) : h'.Ended := by
  let written := conn.write weather.statuses
  let a : AsyncConnection := { h.conn with connection := some written.1 }
  have unfolded : h.conn.runWriteTask t weather.statuses weather.arming =
      a.afterWrite t written.1 written.2.1 weather.arming := by
    rw [runWriteTask, found]
  rw [unfolded] at after stack
  by_cases closes : written.2.1 = .connectionClosed
  · rcases quiet closes with ⟨absent, unreported⟩
    have closed := afterWrite_closed a t written.1 weather.arming
    rw [closes] at after stack
    have callbacks : (a.afterWrite t written.1 .connectionClosed weather.arming).2 = [.writeFailure] := by
      rw [closed.2, if_neg unreported]
      rfl
    rw [callbacks] at stack
    refine ended_of_pend (log ▸ ended.silent) (fun _ => after ▸ closed.1) ?_ (by simp [Calm]) stack
      (Or.inr ⟨log ▸ absent, .writeFailure, rfl, by simp⟩)
    rw [after]
    apply handleDisconnect_sober
    intro conn' here
    rcases (cancelTask_keeps a t).exists here with ⟨_, same, equal⟩
    cases same
    rw [Connection.state_of_unpended equal]
    exact (conn.write_state weather.statuses).resolve_right fun kept => kept.2 closes
  · have open_ : conn.state ≠ .closed := by
      intro closed
      apply closes
      show (conn.write weather.statuses).2.1 = _
      rw [conn.write_closed weather.statuses closed]
    rcases ended.open found open_ with ⟨running, absent⟩
    have reports := afterWrite_reports a t written.1 written.2.1 weather.arming closes
    exact ended_of_reports (a := a) (log ▸ ended.silent) (log ▸ absent) running (after ▸ reports) (by decide) stack

theorem Ended.runRead (ended : h.Ended) {t : TaskId} {conn : Connection} (weather : Weather)
    (found : h.conn.connection = some conn) (log : h'.log = h.log)
    (after : h'.conn = (h.conn.runReadTask t weather.handshake weather.turns weather.arming).1)
    (stack : h'.stack = pend (h.conn.runReadTask t weather.handshake weather.turns weather.arming).2 [.task t]) :
    h'.Ended := by
  let done := conn.read weather.handshake weather.turns
  let a : AsyncConnection := { h.conn with connection := some done.1 }
  have unfolded : h.conn.runReadTask t weather.handshake weather.turns weather.arming =
      a.afterRead t done.1 done.2 weather.arming := by
    rw [runReadTask, found]
  rw [unfolded] at after stack
  by_cases closes : done.2 = .connectionClosed
  · rw [closes] at after stack
    have over_ : h'.conn.disconnected = true := after ▸ (handleDisconnect_keeps a).1
    have callbacks := handleDisconnect_callbacks a
    refine ended_of_pend (log ▸ ended.silent) (fun _ => over_) ?_ (by simp [Calm]) stack ?_
    · rw [after]
      apply handleDisconnect_sober
      intro _ same
      cases same
      exact conn.read_outcome weather.handshake weather.turns closes
    · show a.handleDisconnect.2 = [] ∨ _
      rw [callbacks]
      split
      · rename_i unreported
        refine Or.inr ⟨?_, .disconnect, callbacks.trans (if_pos unreported), fun _ => over_⟩
        intro reported
        have running : h.conn.disconnected = false := unreported.1
        rw [ended.reported (log ▸ reported)] at running
        cases running
      · exact Or.inl rfl
  · have open_ : conn.state ≠ .closed := by
      intro closed
      apply closes
      show (conn.read weather.handshake weather.turns).2 = _
      rw [conn.read_closed weather.handshake weather.turns closed]
    rcases ended.open found open_ with ⟨running, absent⟩
    have reports := afterRead_reports a t done.1 done.2 weather.arming closes
    exact ended_of_reports (a := a) (log ▸ ended.silent) (log ▸ absent) running (after ▸ reports) (by decide) stack

theorem settle_keeps (h : Hosted) (t : TaskId) : ∃ conn, Keeps h.conn conn ∧ h.settle t = { h with conn } := by
  unfold settle
  dsimp only
  split
  · exact ⟨h.conn, .refl _, rfl⟩
  · exact ⟨_, finalize_keeps h.conn t, rfl⟩

theorem Ended.keep (ended : h.Ended) (keeps : Keeps h.conn h'.conn) (log : h'.log = h.log)
    {stack : List Frame} (same : h'.stack = stack) (calm : Calm stack) : h'.Ended := by
  refine ended_of_pend (log ▸ ended.silent) ?_ (keeps.sober ended.sober) calm
    (show h'.stack = pend [] stack from same) (Or.inl rfl)
  rw [log, keeps.disconnected]
  exact ended.reported

theorem Ended.runGone (ended : h.Ended) {t : TaskId} {result : AsyncConnection × List Callback}
    (gone : result = (h.conn.cancelTask t, [])) (log : h'.log = h.log) (after : h'.conn = result.1)
    (stack : h'.stack = pend result.2 [.task t]) : h'.Ended := by
  subst gone
  refine ended.keep ?_ log stack (by simp [Calm, pend])
  rw [after]
  exact cancelTask_keeps h.conn t

theorem Ended.runTask (ended : h.Ended) (idle : h.stack = []) (t : TaskId) (weather : Weather)
    (quiet : ∀ conn, h.conn.side t = some .write → h.conn.connection = some conn →
      (conn.write weather.statuses).2.1 = .connectionClosed →
        .disconnect ∉ h.log ∧ ¬(h.conn.disconnected = false ∧ h.conn.disconnect = true)) :
    (h.runTask t weather).Ended := by
  let started := h.modifyTask t fun task => { task with running := true }
  have before : started.Ended := ended.keep ⟨rfl, rfl, rfl, rfl⟩ rfl idle (fun frame member => nomatch member)
  have present := Option.eq_none_or_eq_some started.conn.connection
  unfold Hosted.runTask
  cases side : started.conn.side t with
  | none =>
    simp only [show (h.modifyTask t _).conn.side t = none from side]
    exact ended.keep ⟨rfl, rfl, rfl, rfl⟩ rfl rfl (by simp [Calm])
  | some which =>
    cases which with
    | write =>
      simp only [show (h.modifyTask t _).conn.side t = some .write from side]
      rcases present with gone | ⟨conn, found⟩
      · have result : started.conn.runWriteTask t weather.statuses weather.arming =
          (started.conn.cancelTask t, []) := by rw [runWriteTask, gone]
        exact before.runGone result rfl rfl rfl
      · exact before.runWrite weather found (quiet conn side found) rfl rfl rfl
    | read =>
      simp only [show (h.modifyTask t _).conn.side t = some .read from side]
      rcases present with gone | ⟨conn, found⟩
      · have result : started.conn.runReadTask t weather.handshake weather.turns weather.arming =
          (started.conn.cancelTask t, []) := by rw [runReadTask, gone]
        exact before.runGone result rfl rfl rfl
      · exact before.runRead weather found rfl rfl rfl

theorem Ended.runNext (ended : h.Ended) (idle : h.stack = []) (weather : Weather)
    (quiet : h.Quiet (.runNext weather)) : (h.runNext weather).Ended := by
  have nothing : Calm [] := fun frame member => nomatch member
  rcases h.runNext_cases weather with ⟨_, same⟩ | ⟨t, queue, scheduled, ⟨_, same⟩ | ⟨live, same⟩⟩
  · rw [same]
    exact ended
  · rcases settle_keeps (h.dequeue t queue) t with ⟨conn, kept, settled⟩
    rw [same, settled]
    exact ended.keep (kept.after ⟨rfl, rfl, rfl, rfl⟩) rfl idle nothing
  · rw [same]
    have taken : (h.dequeue t queue).Ended := ended.keep ⟨rfl, rfl, rfl, rfl⟩ rfl idle nothing
    exact taken.runTask idle t weather fun conn => quiet t queue conn scheduled live

theorem Ended.invoke (ended : h.Ended) {callback : Callback} {callbacks : List Callback} {rest : List Frame}
    (stack : h.stack = .pending (callback :: callbacks) :: rest) :
    (h.invoke callback (pend callbacks rest)).Ended := by
  rcases ended.top _ _ stack with ⟨absent, c, one, reported⟩
  rcases List.cons.inj one with ⟨rfl, rfl⟩
  have below := ended.below
  rw [stack] at below
  refine ended_of_pend (h := h.invoke callback rest) (Silent.append absent callback) ?_ ended.sober
    (show Calm (.callback callback :: rest) from ?_) (show _ = pend [] _ from rfl) (Or.inl rfl)
  · intro logged
    rcases List.mem_append.mp logged with before | now
    · exact ended.reported before
    · exact reported (List.mem_singleton.mp now).symm
  · intro frame member callbacks same
    rcases List.mem_cons.mp member with rfl | later
    · cases same
    · exact below frame later callbacks same

theorem Ended.step (ended : h.Ended) (action : Action) (quiet : h.Quiet action) (step : h.Stepped action h') :
    h'.Ended := by
  have popped {top : Frame} {rest : List Frame} (stack : h.stack = top :: rest) : Calm rest := by
    have below := ended.below
    rw [stack] at below
    exact below
  cases step with
  | call call runs =>
    apply ended.perform (ended.calm _) call
    intro callbacks rest stack
    simp [ownerRuns, stack] at runs
  | ret readError callback rest stack =>
    refine ended_of_pend (h := { h with stack := _ }) ended.silent ended.reported ended.sober (popped stack) rfl ?_
    by_cases failed : callback = .readStep ∧ readError = true
    · rcases failed with ⟨rfl, rfl⟩
      exact Or.inr ⟨quiet rfl ⟨rest, stack⟩, .readError, by simp, by simp⟩
    · exact Or.inl (if_neg failed)
  | drop rest stack => exact ended.keep (.refl _) rfl rfl (popped stack)
  | invoke callback callbacks rest stack => exact ended.invoke stack
  | endTask t rest stack =>
    rcases settle_keeps ({ h with stack := rest }.modifyTask t fun task => { task with running := false }) t with
      ⟨conn, kept, settled⟩
    rw [endTask, settled]
    exact ended.keep (kept.after ⟨rfl, rfl, rfl, rfl⟩) rfl rfl (popped stack)
  | free rest stack => exact ended.keep (.refl _) rfl rfl (popped stack)
  | wait ready idle => exact ended.keep ⟨rfl, rfl, rfl, rfl⟩ rfl idle (by simp [Calm])
  | runNext weather idle => exact ended.runNext idle weather quiet

theorem ended_opened (fd : Runtime.Fd) (state : ConnectionState) : (opened fd state).Ended := by
  refine { silent := ?_, reported := ?_, sober := ?_, below := ?_, top := ?_ }
  · intro before after split
    cases before <;> cases split
  · intro reported
    cases reported
  · intro over_
    cases over_
  · intro frame member
    cases member
  · intro callbacks rest stack
    cases stack

end Hosted
end BlueBird.Net
