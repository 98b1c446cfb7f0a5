import BlueBird.WebSocket.ReadStepOrder

/-! What a read step leaves of the websocket of a server. -/

namespace BlueBird.WebSocket

open Accesses (Sound not_sound_of_freed)

namespace WsSession

/-- `_bb_async_connection_handle_disconnect` -/
def hangUp (s : WsSession) : WsSession × List WsEvent :=
  if s.disconnected then (s, [use .asyncConn])
  else
    let handled := { s with disconnected := true }.handleDisconnect
    (handled.1, use .asyncConn :: handled.2)

/-- What `afterStep` leaves. -/
def stepped (s : WsSession) : StepStatus → WsSession
  | .error => s.closeConn.1
  | _ => s

/-- What `walk` leaves, and whether it has created a write task. -/
def walked (s : WsSession) (armed : Bool) : List WsTurn → WsSession × Bool
  | [] => (s.stepped (s.finish armed).2, s.connection && s.writeData && armed)
  | turn :: turns =>
    let first := s.dispatch turn
    match first.2.2 with
    | some status => (first.1.stepped status, false)
    | none => first.1.walked armed turns

/-- What `readStep` leaves, and whether it has created a write task. -/
def readStepEnd (s : WsSession) (alloc : Allocator) (buffer : Bytes) (turn : Nat → WsTurn) (armed : Bool) : WsSession × Bool :=
  match (readFrames alloc buffer).status with
  | .incompleteFrame => (s, false)
  | .success => s.walked armed (batch alloc buffer turn)
  | _ => (s.stepped .error, false)

variable {callbacks : WsCallbacks} {s : WsSession}

/-! ## The websocket of a server is closed with its connection -/

def ended (s : WsSession) : WsSession := { s with connection := false, disconnected := true, freed := true }

/-- What `bb_async_connection_close` does where the server is told. -/
def ending : List WsEvent :=
  [use .asyncConn, .close, free .connection, use .websocket, use .websocket, use .asyncConn, use .asyncConn, free .asyncConn,
    free .websocket]

theorem closeConn_server (open_ : s.Open callbacks) (server : callbacks.server = true) : s.closeConn = (s.ended, ending) := by
  rcases s with ⟨installed, connection, disconnected, writeData, freed⟩
  rcases open_ with ⟨rfl, rfl, rfl, rfl⟩
  rcases installed with ⟨handler, pongCb, told⟩
  cases server
  rfl

theorem hangUp_server (open_ : s.Open callbacks) (server : callbacks.server = true) : s.hangUp = (s.ended,
    [use .asyncConn, use .websocket, use .websocket, use .asyncConn, use .asyncConn, .close, free .connection, free .asyncConn,
      free .websocket]) := by
  rcases s with ⟨installed, connection, disconnected, writeData, freed⟩
  rcases open_ with ⟨rfl, rfl, rfl, rfl⟩
  rcases installed with ⟨handler, pongCb, told⟩
  cases server
  rfl

/-- The connection is as it was, or it is closed at the end, and nothing else is freed. -/
inductive Leaves (callbacks : WsCallbacks) (after : WsSession) (events : List WsEvent) : Prop where
  | stays (open_ : after.Open callbacks) (unfreed : ∀ block, free block ∉ events)
  | ends {before : WsSession} {front : List WsEvent} (same : after = before.ended) (split : events = front ++ ending)
      (unfreed : ∀ block, free block ∉ front)

theorem Leaves.behind {after : WsSession} {front events : List WsEvent} (leaves : Leaves callbacks after events)
    (unfreed : ∀ block, free block ∉ front) : Leaves callbacks after (front ++ events) := by
  cases leaves with
  | stays open_ kept => exact .stays open_ fun block member => (List.mem_append.mp member).elim (unfreed block) (kept block)
  | @ends before middle same split kept =>
    refine @Leaves.ends _ _ _ before (front ++ middle) same ?_ fun block member =>
      (List.mem_append.mp member).elim (unfreed block) (kept block)
    rw [split, List.append_assoc]

theorem leaves_closeConn (open_ : s.Open callbacks) (server : callbacks.server = true) :
    Leaves callbacks s.closeConn.1 s.closeConn.2 := by
  rw [closeConn_server open_ server]
  exact @Leaves.ends _ _ _ s [] rfl rfl fun block => List.not_mem_nil

theorem unfreed_of_plain {events : List WsEvent} (plain : ∀ e ∈ events, e.plain = true) (block : Block) : free block ∉ events := by
  intro member
  cases plain _ member

theorem leaves_stepped (open_ : s.Open callbacks) (server : callbacks.server = true) (status : StepStatus) :
    Leaves callbacks (s.stepped status) (s.afterStep status) := by
  cases status with
  | more => exact .stays open_ fun block => List.not_mem_nil
  | done => exact .stays open_ fun block => List.not_mem_nil
  | error => exact (leaves_closeConn open_ server).behind fun block => by cases block <;> decide

theorem leaves_sendClose (open_ : s.Open callbacks) (server : callbacks.server = true) (payload : Bytes) (sending : Sending) :
    Leaves callbacks (s.sendClose payload sending).1 (s.sendClose payload sending).2 := by
  have plain := s.send_plain (by decide : opClose ≠ opPong) payload sending
  have still := send_open open_ opClose payload sending
  unfold sendClose
  dsimp only
  split
  · exact (leaves_closeConn still server).behind (unfreed_of_plain plain)
  · exact .stays still (unfreed_of_plain plain)

theorem closes_of_server (server : callbacks.server = true) {turn : WsTurn} (alive : turn.frees callbacks = false) :
    turn.closes callbacks = false := by
  have same : (fun call : WsCall => call.frees callbacks) = fun call => call.closes := by
    funext call
    unfold WsCall.frees
    rw [server]
    cases call <;> simp [WsCall.closes]
  unfold WsTurn.frees at alive
  unfold WsTurn.closes
  rw [same] at alive
  exact alive

theorem walked_stops (armed : Bool) {turn : WsTurn} (stops : turn.stops = true) (turns : List WsTurn) :
    s.walked armed (turn :: turns) =
      (if frameKind turn.opcode = .close then (s.sendClose [3, 232] turn.reply).1 else s.closeConn.1, false) := by
  rw [walked]
  unfold dispatch
  rcases stops_iff.mp stops with close | ⟨message, none_⟩
  · rw [close]
    rfl
  · rw [message, none_]
    rfl

theorem walked_goes (armed : Bool) {turn : WsTurn} (goes : turn.stops = false) (turns : List WsTurn) :
    s.walked armed (turn :: turns) = (s.dispatch turn).1.walked armed turns := by
  rw [walked, s.dispatch_goes goes]

theorem leaves_walked (server : callbacks.server = true) (open_ : s.Open callbacks) (armed : Bool) {turns : List WsTurn}
    (alive : ∀ turn ∈ dispatchedTurns turns, turn.frees callbacks = false) :
    Leaves callbacks (s.walked armed turns).1 (s.walk armed turns) := by
  induction turns generalizing s with
  | nil =>
    apply (leaves_stepped open_ server _).behind
    intro block member
    rcases s.finish_uses armed _ member with ⟨other, same⟩
    cases same
  | cons turn turns ih =>
    unfold dispatchedTurns at alive
    cases stops : turn.stops with
    | true =>
      rw [s.walk_stops armed stops, walked_stops armed stops]
      have entered : ∀ block, free block ∉ [use .websocket, .dispatch turn.opcode turn.payload] :=
        fun block => by simp [free, use]
      by_cases kind : frameKind turn.opcode = .close
      · rw [if_pos kind, if_pos kind]
        exact (leaves_sendClose open_ server _ _).behind entered
      · rw [if_neg kind, if_neg kind]
        exact (leaves_stepped open_ server .error).behind entered
    | false =>
      rw [if_neg (by rw [stops]; decide)] at alive
      rcases List.forall_mem_cons.mp alive with ⟨first, others⟩
      rcases dispatch_calm open_ stops (closes_of_server server first) with ⟨still, calm⟩
      rw [s.walk_goes armed stops, walked_goes armed stops]
      exact (ih still others).behind calm.unfreed

theorem leaves_readStep (server : callbacks.server = true) (open_ : s.Open callbacks) (alloc : Allocator) (buffer : Bytes)
    {turn : Nat → WsTurn} (armed : Bool)
    (alive : ∀ frame ∈ dispatchedTurns (batch alloc buffer turn), frame.frees callbacks = false) :
    Leaves callbacks (s.readStepEnd alloc buffer turn armed).1 (s.readStep alloc buffer turn armed) := by
  have looked : ∀ block, free block ∉ [use .websocket, use .asyncConn, use .connection] :=
    fun block => by cases block <;> decide
  unfold readStepEnd readStep
  cases (readFrames alloc buffer).status with
  | success => exact (leaves_walked server open_ armed alive).behind looked
  | incompleteFrame => exact .stays open_ looked
  | allocationFailed => exact (leaves_stepped open_ server .error).behind looked
  | outOfBounds => exact (leaves_stepped open_ server .error).behind looked

theorem leaves_perform (open_ : s.Open callbacks) (server : callbacks.server = true) {call : WsCall} (spares : call ≠ .destroy) :
    Leaves callbacks (s.perform call).1 (s.perform call).2 := by
  cases call with
  | send kind payload sending =>
    exact .stays (send_open open_ _ payload sending) (unfreed_of_plain (s.send_plain (opcode_ne_opPong kind) payload sending))
  | sendClose payload sending => exact leaves_sendClose open_ server payload sending
  | close => exact leaves_closeConn open_ server
  | destroy => exact absurd rfl spares

theorem finish_armed {armed : Bool} (creates : (s.connection && s.writeData && armed) = true) : (s.finish armed).2 = .more := by
  rw [Bool.and_eq_true, Bool.and_eq_true] at creates
  unfold finish
  rw [if_pos creates.1.1, creates.2]
  exact if_neg (by simp)

theorem walked_armed {armed : Bool} {turns : List WsTurn} (creates : (s.walked armed turns).2 = true) :
    (s.walked armed turns).1.connection = true := by
  induction turns generalizing s with
  | nil =>
    have open_ : (s.connection && s.writeData && armed) = true := creates
    show (s.stepped (s.finish armed).2).connection = true
    rw [finish_armed open_]
    exact (Bool.and_eq_true_iff.mp (Bool.and_eq_true_iff.mp open_).1).1
  | cons turn turns ih =>
    cases stops : turn.stops with
    | true =>
      rw [walked_stops armed stops] at creates
      cases creates
    | false =>
      rw [walked_goes armed stops] at creates ⊢
      exact ih creates

theorem readStepEnd_armed {alloc : Allocator} {buffer : Bytes} {turn : Nat → WsTurn} {armed : Bool}
    (creates : (s.readStepEnd alloc buffer turn armed).2 = true) : (s.readStepEnd alloc buffer turn armed).1.connection = true := by
  unfold readStepEnd at creates ⊢
  cases status : (readFrames alloc buffer).status with
  | success =>
    rw [status] at creates
    exact walked_armed creates
  | incompleteFrame =>
    rw [status] at creates
    cases creates
  | allocationFailed =>
    rw [status] at creates
    cases creates
  | outOfBounds =>
    rw [status] at creates
    cases creates

/-! ## A callback that closes the connection -/

theorem walk_unsound (server : callbacks.server = true) (open_ : s.Open callbacks) (armed : Bool) {turns : List WsTurn}
    (frees : ∃ turn ∈ dispatchedTurns turns, turn.frees callbacks = true) : ¬ Sound (accesses (s.walk armed turns)) := by
  induction turns generalizing s with
  | nil =>
    rcases frees with ⟨turn, member, _⟩
    cases member
  | cons turn turns ih =>
    rcases frees with ⟨other, member, frees⟩
    unfold dispatchedTurns at member
    cases stops : turn.stops with
    | true =>
      rw [if_pos stops] at member
      rw [List.mem_singleton.mp member] at frees
      rw [frees_of_stays (closes_of_ignored (ignored_of_stops stops))] at frees
      cases frees
    | false =>
      rw [if_neg (by rw [stops]; decide)] at member
      rw [s.walk_goes armed stops, accesses_append]
      cases now : turn.frees callbacks with
      | true =>
        have closes : turn.closes callbacks = true := by
          by_contra stays
          rw [frees_of_stays (Bool.eq_false_iff.mpr stays)] at now
          cases now
        rcases dispatch_closing open_ closes with ⟨t, events, step, closing, _⟩
        have freed := (closing.gone now).2
        rw [step]
        apply @not_sound_of_freed Block _ _ (.use .websocket)
        · exact mem_accesses.mpr (List.mem_append_right _ (List.mem_cons_of_mem _ (List.mem_cons_of_mem _ freed)))
        · exact mem_accesses.mpr (t.walk_uses armed turns)
      | false =>
        have still := (dispatch_calm open_ stops (closes_of_server server now)).1
        have later : ∃ turn ∈ dispatchedTurns turns, turn.frees callbacks = true := by
          rcases List.mem_cons.mp member with rfl | member
          · rw [now] at frees
            cases frees
          · exact ⟨other, member, frees⟩
        exact fun sound => ih still later (Accesses.sound_append.mp sound).2.1

theorem readStep_unsound (server : callbacks.server = true) (open_ : s.Open callbacks) (alloc : Allocator) (buffer : Bytes)
    {turn : Nat → WsTurn} (armed : Bool)
    (frees : ∃ frame ∈ dispatchedTurns (batch alloc buffer turn), frame.frees callbacks = true) :
    ¬ Sound (accesses (s.readStep alloc buffer turn armed)) := by
  have success : (readFrames alloc buffer).status = .success := by
    by_contra failed
    rcases frees with ⟨frame, member, _⟩
    rw [batch_failed failed] at member
    cases member
  unfold readStep
  rw [success]
  dsimp only
  rw [accesses_append]
  exact fun sound => walk_unsound server open_ armed frees (Accesses.sound_append.mp sound).2.1

end WsSession
end BlueBird.WebSocket
