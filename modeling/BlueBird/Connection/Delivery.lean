import BlueBird.Connection.Ending

namespace BlueBird.Net

open BlueBird.Runtime (TaskId Events eventRead eventWrite)

/-! ## What the transport answers to a run of reads -/

/-- The answer that ends the loop of `bb_connection_read`. -/
def lastAnswer : List ReadTurn → ReadAnswer
  | [] => .wantRead
  | turn :: turns =>
    match turn.answer with
    | .ok _ => lastAnswer turns
    | answer => answer

def brings : List ReadTurn → Bool
  | [] => false
  | turn :: turns =>
    match turn.answer with
    | .ok data => data ≠ [] || brings turns
    | _ => false

namespace Connection

theorem ensureSpace_true (conn : Connection) :
    ((conn.ensureSpace true).1.state = .closed ∧ (conn.ensureSpace true).2.isSome = true) ∨
      ((conn.ensureSpace true).2 = none ∧ (conn.ensureSpace true).1.state = conn.state ∧
        (conn.ensureSpace true).1.readIoHint = conn.readIoHint) := by
  unfold ensureSpace
  split
  · split
    · exact Or.inl ⟨rfl, rfl⟩
    · exact Or.inr ⟨rfl, rfl, rfl⟩
  · exact Or.inr ⟨rfl, rfl, rfl⟩

theorem ensureSpace_buffer (conn : Connection) (realloc : Bool) :
    (conn.ensureSpace realloc).1.buffer = conn.buffer := by
  unfold ensureSpace
  split_ifs <;> rfl

/-- With memory, and no error of the transport, a loop that leaves the connection open ends well, waiting for
    what the last answer asks for. -/
theorem readLoop_success (conn : Connection) (turns : List ReadTurn)
    (memory : ∀ turn ∈ turns, turn.realloc = true) (sound : lastAnswer turns ≠ .error)
    (open_ : (conn.readLoop turns).1.state ≠ .closed) :
    lastAnswer turns ≠ .closed ∧ (conn.readLoop turns).2 = .success ∧
      (conn.readLoop turns).1.state = conn.state ∧ (conn.readLoop turns).1.readIoHint =
        if lastAnswer turns = .wantWrite then .needWrite else conn.readIoHint := by
  induction turns generalizing conn with
  | nil =>
    unfold readLoop at open_ ⊢
    have space := conn.ensureSpace_true
    rcases made : conn.ensureSpace true with ⟨grown, failure⟩
    rw [made] at space open_
    dsimp only at space open_
    rcases space with ⟨closed, failed⟩ | ⟨rfl, state, hint⟩
    · rcases Option.isSome_iff_exists.mp failed with ⟨failure, rfl⟩
      exact (open_ closed).elim
    · exact ⟨by decide, rfl, state, hint⟩
  | cons turn turns ih =>
    have room := memory turn (List.mem_cons_self ..)
    have later := fun turn member => memory turn (List.mem_cons_of_mem _ member)
    unfold readLoop at open_ ⊢
    unfold lastAnswer at sound ⊢
    rw [room] at open_ ⊢
    have space := conn.ensureSpace_true
    rcases made : conn.ensureSpace true with ⟨grown, failure⟩
    rw [made] at space open_
    dsimp only at space open_ ⊢
    rcases space with ⟨closed, failed⟩ | ⟨rfl, state, hint⟩
    · rcases Option.isSome_iff_exists.mp failed with ⟨failure, rfl⟩
      exact (open_ closed).elim
    · cases answer : turn.answer with
      | ok data =>
        rw [answer] at open_ sound
        have rest := ih _ later sound open_
        exact ⟨rest.1, rest.2.1, rest.2.2.1.trans state, rest.2.2.2.trans (by rw [← hint])⟩
      | wantRead => exact ⟨by simp, rfl, state, hint⟩
      | wantWrite => exact ⟨by simp, rfl, state, rfl⟩
      | closed =>
        rw [answer] at open_
        exact (open_ rfl).elim
      | error =>
        rw [answer] at sound
        exact (sound rfl).elim

theorem readLoop_brings (conn : Connection) (turns : List ReadTurn) (none_ : brings turns = false) :
    (conn.readLoop turns).1.buffer = conn.buffer := by
  induction turns generalizing conn with
  | nil =>
    have same := conn.ensureSpace_buffer true
    unfold readLoop
    rcases made : conn.ensureSpace true with ⟨grown, _ | failure⟩
    · rwa [made] at same
    · rwa [made] at same
  | cons turn turns ih =>
    have same := conn.ensureSpace_buffer turn.realloc
    unfold readLoop
    unfold brings at none_
    rcases made : conn.ensureSpace turn.realloc with ⟨grown, _ | failure⟩
    · rw [made] at same
      dsimp only at same ⊢
      cases answer : turn.answer with
      | ok data =>
        rw [answer] at none_
        rcases Bool.or_eq_false_iff.mp none_ with ⟨empty, rest⟩
        have nothing : data = [] := by simpa using empty
        subst nothing
        dsimp only
        rw [ih _ rest, List.take_nil, List.append_nil]
        exact same
      | _ => exact same
    · rwa [made] at same

/-- The loop of `bb_connection_read` runs. -/
def reaches (conn : Connection) (handshake : Handshake) : Prop :=
  conn.state = .handshake → handshake = .ok

theorem read_success (conn : Connection) {handshake : Handshake} {turns : List ReadTurn}
    (reaches : conn.reaches handshake) (memory : ∀ turn ∈ turns, turn.realloc = true)
    (sound : lastAnswer turns ≠ .error) (open_ : (conn.read handshake turns).1.state ≠ .closed) :
    lastAnswer turns ≠ .closed ∧ (conn.read handshake turns).2 = .success ∧
      (conn.read handshake turns).1.state ≠ .handshake ∧
      (conn.read handshake turns).1.desiredRead = if lastAnswer turns = .wantWrite then eventWrite else eventRead := by
  have loop (start : Connection) (hint : start.readIoHint = .default) (state : start.state ≠ .handshake)
      (open_ : (start.readLoop turns).1.state ≠ .closed) :
      lastAnswer turns ≠ .closed ∧ (start.readLoop turns).2 = .success ∧
        (start.readLoop turns).1.state ≠ .handshake ∧ (start.readLoop turns).1.desiredRead =
          if lastAnswer turns = .wantWrite then eventWrite else eventRead := by
    have success := start.readLoop_success turns memory sound open_
    refine ⟨success.1, success.2.1, success.2.2.1 ▸ state, ?_⟩
    unfold desiredRead
    rw [success.2.2.2, hint]
    split <;> simp
  unfold read at open_ ⊢
  cases state : conn.state with
  | closed =>
    rw [state] at open_
    exact (open_ state).elim
  | handshake =>
    rw [state, reaches state] at open_
    rw [reaches state]
    exact loop _ rfl (by simp) open_
  | reading =>
    rw [state] at open_
    exact loop _ rfl (by simp) open_
  | writing =>
    rw [state] at open_
    exact loop _ rfl (by simp) open_

theorem read_brings (conn : Connection) (handshake : Handshake) (turns : List ReadTurn)
    (none_ : brings turns = false ∨ ¬conn.reaches handshake) :
    (conn.read handshake turns).1.buffer = conn.buffer := by
  unfold read
  cases state : conn.state with
  | closed => rfl
  | handshake =>
    cases handshake with
    | ok =>
      rcases none_ with none_ | never
      · exact readLoop_brings _ turns none_
      · exact (never fun _ => rfl).elim
    | _ => rfl
  | reading =>
    rcases none_ with none_ | never
    · exact readLoop_brings _ turns none_
    · exact (never fun same => by rw [state] at same; cases same).elim
  | writing =>
    rcases none_ with none_ | never
    · exact readLoop_brings _ turns none_
    · exact (never fun same => by rw [state] at same; cases same).elim

end Connection

theorem Connection.buffer_of_unpended {conn conn' : Connection} (same : conn'.unpended = conn.unpended) :
    conn'.buffer = conn.buffer := by
  show conn'.unpended.buffer = conn.unpended.buffer
  rw [same]

/-! ## Connections that are open -/

namespace AsyncConnection

def Open (a : AsyncConnection) : Prop :=
  a.disconnected = false ∧ ∃ conn, a.connection = some conn ∧ conn.state ≠ .closed

variable {a b : AsyncConnection}

theorem Keeps.open (keeps : Keeps a b) (open_ : b.Open) : a.Open := by
  rcases open_ with ⟨running, conn, found, state⟩
  rcases keeps.exists found with ⟨conn', before, same⟩
  exact ⟨keeps.disconnected ▸ running, conn', before, Connection.state_of_unpended same ▸ state⟩

theorem not_open_handleDisconnect : ¬a.handleDisconnect.1.Open := by
  intro open_
  have over_ := (handleDisconnect_keeps a).1
  rw [open_.1] at over_
  cases over_

theorem runWriteTask_open {t : TaskId} {statuses : List TransportStatus} {arming : Arming}
    (open_ : (a.runWriteTask t statuses arming).1.Open) : a.Open := by
  unfold runWriteTask at open_
  cases found : a.connection with
  | none =>
    rw [found] at open_
    exact (cancelTask_keeps a t).open open_
  | some conn =>
    rw [found] at open_
    by_cases closes : (conn.write statuses).2.1 = .connectionClosed
    · dsimp only at open_
      rw [closes] at open_
      exact (not_open_handleDisconnect open_).elim
    · have reports := afterWrite_reports { a with connection := some (conn.write statuses).1 } t
        (conn.write statuses).1 _ arming closes
      rcases reports.keeps.open open_ with ⟨running, _⟩
      refine ⟨running, conn, found, ?_⟩
      intro closed
      apply closes
      rw [conn.write_closed statuses closed]

theorem runReadTask_open {t : TaskId} {handshake : Handshake} {turns : List ReadTurn} {arming : Arming}
    (open_ : (a.runReadTask t handshake turns arming).1.Open) :
    a.Open ∧ ∃ conn last, a.connection = some conn ∧ (conn.read handshake turns).1.state ≠ .closed ∧
      (a.runReadTask t handshake turns arming).1.connection = some last ∧
        last.buffer = (conn.read handshake turns).1.buffer := by
  unfold runReadTask at open_ ⊢
  cases found : a.connection with
  | none =>
    rw [found] at open_
    rcases (cancelTask_keeps a t).open open_ with ⟨_, conn, some_, _⟩
    rw [found] at some_
    cases some_
  | some conn =>
    rw [found] at open_
    by_cases closes : (conn.read handshake turns).2 = .connectionClosed
    · dsimp only at open_
      rw [closes] at open_
      exact (not_open_handleDisconnect open_).elim
    · have reports := afterRead_reports { a with connection := some (conn.read handshake turns).1 } t
        (conn.read handshake turns).1 _ arming closes
      have still := reports.keeps.open open_
      rcases open_ with ⟨_, last, here, _⟩
      rcases reports.keeps.exists here with ⟨_, read, same⟩
      cases read
      rcases still with ⟨running, _, read, state⟩
      cases read
      refine ⟨⟨running, conn, found, ?_⟩, conn, last, rfl, state, here, Connection.buffer_of_unpended same⟩
      intro closed
      apply closes
      rw [conn.read_closed handshake turns closed]

end AsyncConnection

/-! ## Offering what was received -/

namespace Hosted

open AsyncConnection

/-- A read that brings bytes has the memory for them, and the transport closes the connection then or waits for
    the direction that is watched. -/
def InTime (a : AsyncConnection) (weather : Weather) : Prop :=
  ∀ conn, a.connection = some conn → conn.reaches weather.handshake → brings weather.turns = true →
    (∀ turn ∈ weather.turns, turn.realloc = true) ∧ (lastAnswer weather.turns = .closed ∨
      lastAnswer weather.turns ≠ .error ∧
        a.readWatchEvents = if lastAnswer weather.turns = .wantWrite then eventWrite else eventRead)

def Timely (h : Hosted) : Action → Prop
  | .runNext weather => ∀ t queue, h.conn.rt.queue = t :: queue → (h.conn.rt.tasks t).cancelled = false →
      h.conn.side t = some .read → InTime h.conn weather
  | _ => True

/-- While the connection is open, every byte received has been offered to the read step, or the run of the read
    task that received it invokes the read step next. -/
def Offered (h : Hosted) : Prop :=
  h.conn.Open → h.received = h.offered ∨ ∃ t, h.stack = [.pending [.readStep], .task t]

variable {h h' : Hosted}

theorem Offered.frame (offered : h.Offered) (idle : ∀ callbacks rest, h.stack ≠ .pending callbacks :: rest)
    (open_ : h'.conn.Open → h.conn.Open) (received : h'.received = h.received) (same : h'.offered = h.offered) :
    h'.Offered := by
  intro still
  rcases offered (open_ still) with before | ⟨t, stack⟩
  · exact Or.inl (by rw [received, same, before])
  · exact (idle _ _ stack).elim

theorem modifyConnection_open {a : AsyncConnection} {f : Connection → Connection}
    (state : ∀ conn, conn.state = .closed → (f conn).state = .closed) (open_ : (a.modifyConnection f).Open) :
    a.Open := by
  rcases open_ with ⟨running, conn, found, still⟩
  rcases Option.map_eq_some_iff.mp found with ⟨before, here, rfl⟩
  exact ⟨running, before, here, fun closed => still (state before closed)⟩

theorem perform_open (call : Call) (open_ : (h.perform call).conn.Open) : h.conn.Open := by
  cases call with
  | setDisconnectCallback present => exact open_
  | bufferAdd buffer length calloc =>
    apply modifyConnection_open _ open_
    intro conn closed
    rw [Connection.bufferAdd_state, closed]
  | write statuses =>
    apply modifyConnection_open _ open_
    intro conn closed
    rw [conn.write_closed statuses closed]
    exact closed
  | consume length =>
    apply modifyConnection_open _ open_
    exact fun _ closed => closed
  | createWriteTask arming => exact (createWriteTask_keeps h.conn arming).open open_
  | createReadTask arming => exact (createReadTask_keeps h.conn arming).open open_
  | pauseRead => exact (pauseRead_keeps h.conn).open open_
  | close => exact (not_open_handleDisconnect open_).elim
  | destroy => exact (not_open_handleDisconnect open_).elim

theorem perform_counts (h : Hosted) (call : Call) :
    (h.perform call).received = h.received ∧ (h.perform call).offered = h.offered := by
  cases call <;> exact ⟨rfl, rfl⟩

theorem offered_runRead {t : TaskId} (weather : Weather) (even : h.received = h.offered)
    (inTime : InTime h.conn weather)
    (after : h'.conn = (h.conn.runReadTask t weather.handshake weather.turns weather.arming).1)
    (stack : h'.stack = pend (h.conn.runReadTask t weather.handshake weather.turns weather.arming).2 [.task t])
    (received : h'.received = h.received + (h'.bufferLength - h.bufferLength)) (same : h'.offered = h.offered) :
    h'.Offered := by
  intro open_
  rcases runReadTask_open (after ▸ open_) with ⟨_, conn, last, found, state, here, buffer⟩
  let done := conn.read weather.handshake weather.turns
  have before : h.bufferLength = conn.buffer.length := by
    unfold bufferLength
    rw [found]
    rfl
  have now : h'.bufferLength = done.1.buffer.length := by
    unfold bufferLength
    rw [after, here, ← buffer]
    rfl
  by_cases bytes : brings weather.turns = true ∧ conn.reaches weather.handshake
  · rcases inTime conn found bytes.2 bytes.1 with ⟨memory, ending⟩
    have sound : lastAnswer weather.turns ≠ .error := by
      rcases ending with closed | ⟨sound, _⟩
      · rw [closed]
        decide
      · exact sound
    have success := conn.read_success bytes.2 memory sound state
    have direction := (ending.resolve_left success.1).2
    have result : h.conn.runReadTask t weather.handshake weather.turns weather.arming =
        ({ h.conn with connection := some done.1 }, [.readStep]) := by
      rw [runReadTask, found]
      show AsyncConnection.afterRead _ t done.1 done.2 weather.arming = _
      rw [show done.2 = .success from success.2.1]
      unfold afterRead
      dsimp only
      rw [if_neg, if_neg success.2.2.1]
      rw [success.2.2.2, direction]
      exact fun differs => differs rfl
    rw [result] at stack
    exact Or.inr ⟨t, stack⟩
  · have nothing : done.1.buffer = conn.buffer := by
      apply conn.read_brings
      rcases not_and_or.mp bytes with none_ | never
      · exact Or.inl (by simpa using none_)
      · exact Or.inr never
    refine Or.inl ?_
    rw [received, now, before, nothing, Nat.sub_self, Nat.add_zero, same, even]

theorem Offered.runNext (offered : h.Offered) (idle : h.stack = []) (weather : Weather)
    (timely : h.Timely (.runNext weather)) : (h.runNext weather).Offered := by
  have none_ : ∀ callbacks rest, h.stack ≠ .pending callbacks :: rest := by simp [idle]
  rcases h.runNext_cases weather with ⟨_, same⟩ | ⟨t, queue, scheduled, ⟨_, same⟩ | ⟨live, same⟩⟩
  · rw [same]
    exact offered
  · rcases settle_keeps (h.dequeue t queue) t with ⟨conn, kept, settled⟩
    rw [same, settled]
    exact offered.frame none_ (kept.after ⟨rfl, rfl, rfl, rfl⟩).open rfl rfl
  · rw [same]
    let started := (h.dequeue t queue).modifyTask t fun task => { task with running := true }
    have keeps : Keeps h.conn started.conn := ⟨rfl, rfl, rfl, rfl⟩
    unfold runTask
    cases side : started.conn.side t with
    | none =>
      simp only [show ((h.dequeue t queue).modifyTask t _).conn.side t = none from side]
      exact offered.frame none_ keeps.open rfl rfl
    | some which =>
      cases which with
      | write =>
        simp only [show ((h.dequeue t queue).modifyTask t _).conn.side t = some .write from side]
        exact offered.frame none_ (fun open_ => keeps.open (runWriteTask_open open_)) rfl rfl
      | read =>
        simp only [show ((h.dequeue t queue).modifyTask t _).conn.side t = some .read from side]
        intro open_
        have before := keeps.open (runReadTask_open open_).1
        have even : started.received = started.offered := by
          rcases offered before with even | ⟨t, stack⟩
          · exact even
          · exact (none_ _ _ stack).elim
        exact offered_runRead (h := started) weather even (timely t queue scheduled live side) rfl rfl rfl rfl open_

theorem Offered.step (offered : h.Offered) (action : Action) (timely : h.Timely action)
    (step : h.Stepped action h') : h'.Offered := by
  cases step with
  | call call runs =>
    have counts := perform_counts h call
    refine offered.frame ?_ (perform_open call) counts.1 counts.2
    intro callbacks rest stack
    simp [ownerRuns, stack] at runs
  | ret readError callback rest stack => exact offered.frame (by simp [stack]) id rfl rfl
  | drop rest stack =>
    intro open_
    rcases offered open_ with even | ⟨t, pending⟩
    · exact Or.inl even
    · rw [stack] at pending
      cases pending
  | invoke callback callbacks rest stack =>
    intro open_
    refine Or.inl ?_
    show h.received = if callback = .readStep then h.received else h.offered
    split
    · rfl
    · rename_i other
      rcases offered open_ with even | ⟨t, pending⟩
      · exact even
      · rw [stack] at pending
        cases pending
        exact (other rfl).elim
  | endTask t rest stack =>
    rcases settle_keeps ({ h with stack := rest }.modifyTask t fun task => { task with running := false }) t with
      ⟨conn, kept, settled⟩
    rw [endTask, settled]
    exact offered.frame (by simp [stack]) (kept.after ⟨rfl, rfl, rfl, rfl⟩).open rfl rfl
  | free rest stack => exact offered.frame (by simp [stack]) id rfl rfl
  | wait ready idle => exact offered.frame (by simp [idle]) (Keeps.open ⟨rfl, rfl, rfl, rfl⟩) rfl rfl
  | runNext weather idle => exact offered.runNext idle weather timely

end Hosted
end BlueBird.Net
