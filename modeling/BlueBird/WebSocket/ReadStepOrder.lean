import BlueBird.WebSocket.ReadStep

/-! When nothing runs after a websocket has closed. -/

namespace BlueBird.WebSocket

open Accesses (Access Sound sound_append sound_of_unfreed not_sound_of_freed)

/-! ## Kinds of events -/

namespace WsEvent

def quiet : WsEvent → Bool
  | .access _ | .close => true
  | .queue opcode _ => opcode != opPong
  | _ => false

def plain : WsEvent → Bool
  | .access (.use _) => true
  | .queue opcode _ => opcode != opPong
  | _ => false

theorem quiet_of_plain {e : WsEvent} (plain : e.plain = true) : e.quiet = true := by
  cases e with
  | access step =>
    cases step with
    | use block => rfl
    | free block => cases plain
  | queue opcode payload => exact plain
  | dispatch opcode payload => cases plain
  | callback opcode payload => cases plain
  | close => cases plain

theorem isCallback_of_quiet {e : WsEvent} (quiet : e.quiet = true) : e.isCallback = false := by
  cases e <;> first | rfl | cases quiet

theorem isDispatch_of_quiet {e : WsEvent} (quiet : e.quiet = true) : e.isDispatch = false := by
  cases e <;> first | rfl | cases quiet

theorem pong_of_quiet {e : WsEvent} (quiet : e.quiet = true) : e.pong? = none := by
  cases e with
  | queue opcode payload => exact if_neg (by simpa [WsEvent.quiet] using quiet)
  | access step => rfl
  | close => rfl
  | dispatch opcode payload => rfl
  | callback opcode payload => rfl

end WsEvent

theorem accesses_append (front back : List WsEvent) : accesses (front ++ back) = accesses front ++ accesses back :=
  List.filterMap_append

theorem pongs_append (front back : List WsEvent) : pongs (front ++ back) = pongs front ++ pongs back :=
  List.filterMap_append

theorem mem_accesses {step : Access Block} {events : List WsEvent} : step ∈ accesses events ↔ .access step ∈ events := by
  unfold accesses
  rw [List.mem_filterMap]
  constructor
  · intro ⟨e, member, found⟩
    cases e <;> cases found
    exact member
  · intro member
    exact ⟨_, member, rfl⟩

theorem pongs_of_quiet {events : List WsEvent} (quiet : ∀ e ∈ events, e.quiet = true) : pongs events = [] :=
  List.filterMap_eq_nil_iff.mpr fun e member => WsEvent.pong_of_quiet (quiet e member)

theorem pings_append {front : List WsEvent} (open_ : .close ∉ front) (back : List WsEvent) :
    pings (front ++ back) = pings front ++ pings back := by
  induction front with
  | nil => rfl
  | cons e front ih =>
    have rest := ih fun member => open_ (List.mem_cons_of_mem _ member)
    cases e with
    | close => exact absurd List.mem_cons_self open_
    | dispatch opcode payload =>
      rw [List.cons_append, pings, pings]
      split
      · rw [rest, List.cons_append]
      · exact rest
    | access step => exact rest
    | callback opcode payload => exact rest
    | queue opcode payload => exact rest

theorem pings_close {front : List WsEvent} (closed : .close ∈ front) (back : List WsEvent) :
    pings (front ++ back) = pings front := by
  induction front with
  | nil => cases closed
  | cons e front ih =>
    cases e with
    | close => rfl
    | dispatch opcode payload =>
      rw [List.cons_append, pings, pings, ih (by simpa using closed)]
    | access step => exact ih (by simpa using closed)
    | callback opcode payload => exact ih (by simpa using closed)
    | queue opcode payload => exact ih (by simpa using closed)

theorem pings_of_noDispatch {events : List WsEvent} (none_ : ∀ e ∈ events, e.isDispatch = false) : pings events = [] := by
  induction events with
  | nil => rfl
  | cons e events ih =>
    rcases List.forall_mem_cons.mp none_ with ⟨first, others⟩
    cases e with
    | dispatch opcode payload => cases first
    | close => rfl
    | callback opcode payload => exact ih others
    | access step => exact ih others
    | queue opcode payload => exact ih others

/-! ## The state of the websocket -/

namespace WsSession

structure Open (callbacks : WsCallbacks) (s : WsSession) : Prop where
  callbacks : s.callbacks = callbacks
  connection : s.connection = true
  disconnected : s.disconnected = false
  freed : s.freed = false

/-- The connection is closed, and the websocket still there. -/
structure Closed (callbacks : WsCallbacks) (s : WsSession) : Prop where
  server : callbacks.server = false
  callbacks : s.callbacks = callbacks
  connection : s.connection = false
  disconnected : s.disconnected = true
  freed : s.freed = false

/-- What the calls of a callback leave that close the connection. -/
structure Closing (callbacks : WsCallbacks) (frees : Bool) (s : WsSession) (events : List WsEvent) : Prop where
  shut : s.connection = false
  closed : .close ∈ events
  sound : Sound (accesses events)
  gone : frees = true → s.freed = true ∧ free .websocket ∈ events
  stays : frees = false → s.Closed callbacks ∧ ∀ block, free block ∈ events → block = .connection

variable {callbacks : WsCallbacks} {s : WsSession}

theorem release_quiet (s : WsSession) : ∀ e ∈ s.release.2, e.quiet = true := by
  unfold release
  split
  · exact List.all_eq_true.mp rfl
  · exact List.all_eq_true.mp rfl

theorem destroy_quiet (s : WsSession) : ∀ e ∈ s.destroy.2, e.quiet = true := by
  intro e member
  rcases List.mem_append.mp member with before | after
  · rcases List.mem_append.mp before with looked | released
    · exact List.all_eq_true.mp (show List.all _ WsEvent.quiet = true from rfl) e looked
    · exact s.release_quiet e released
  · exact List.all_eq_true.mp (show List.all _ WsEvent.quiet = true from rfl) e after

theorem closeConn_quiet (s : WsSession) : ∀ e ∈ s.closeConn.2, e.quiet = true := by
  intro e member
  unfold closeConn at member
  dsimp only at member
  split at member
  · exact s.release_quiet e member
  · rcases List.mem_append.mp member with released | handled
    · exact s.release_quiet e released
    · unfold handleDisconnect at handled
      split at handled
      · rcases List.mem_cons.mp handled with rfl | destroyed
        · rfl
        · exact destroy_quiet _ e destroyed
      · rw [List.mem_singleton.mp handled]
        rfl

theorem send_plain (s : WsSession) {opcode : Byte} (other : opcode ≠ opPong) (payload : Bytes) (sending : Sending) :
    ∀ e ∈ (s.send opcode payload sending).2.1, e.plain = true := by
  have queue : (WsEvent.queue opcode payload).plain = true := by simpa [WsEvent.plain] using other
  unfold send
  split_ifs
  · simp [use, WsEvent.plain]
  · simp [use, WsEvent.plain]
  · simpa [use, WsEvent.plain] using queue

theorem sendClose_quiet (s : WsSession) (payload : Bytes) (sending : Sending) :
    ∀ e ∈ (s.sendClose payload sending).2, e.quiet = true := by
  have sent := s.send_plain (by decide : opClose ≠ opPong) payload sending
  intro e member
  unfold sendClose at member
  dsimp only at member
  split at member
  · rcases List.mem_append.mp member with before | after
    · exact WsEvent.quiet_of_plain (sent e before)
    · exact closeConn_quiet _ e after
  · exact WsEvent.quiet_of_plain (sent e member)

theorem opcode_ne_opPong (kind : SendKind) : kind.opcode ≠ opPong := by cases kind <;> decide

theorem perform_quiet (s : WsSession) (call : WsCall) : ∀ e ∈ (s.perform call).2, e.quiet = true := by
  cases call with
  | send kind payload sending =>
    exact fun e member => WsEvent.quiet_of_plain (s.send_plain (opcode_ne_opPong kind) payload sending e member)
  | sendClose payload sending => exact s.sendClose_quiet payload sending
  | close => exact s.closeConn_quiet
  | destroy => exact s.destroy_quiet

theorem performAll_quiet (s : WsSession) (calls : List WsCall) : ∀ e ∈ (s.performAll calls).2, e.quiet = true := by
  induction calls generalizing s with
  | nil => simp [performAll]
  | cons call calls ih =>
    intro e member
    unfold performAll at member
    split at member
    · cases member
    · rcases List.mem_append.mp member with before | after
      · exact s.perform_quiet call e before
      · exact ih _ e after

theorem send_shut (shut : s.connection = false) (opcode : Byte) (payload : Bytes) (sending : Sending) :
    s.send opcode payload sending = (s, [use .websocket, use .asyncConn], false) := if_pos shut

theorem closeConn_shut (s : WsSession) : s.closeConn.1.connection = false := by
  unfold closeConn handleDisconnect
  dsimp only
  split_ifs <;> rfl

theorem perform_shut (shut : s.connection = false) (call : WsCall) : (s.perform call).1.connection = false := by
  cases call with
  | send kind payload sending =>
    show (s.send kind.opcode payload sending).1.connection = false
    rw [send_shut shut]
    exact shut
  | sendClose payload sending =>
    show (s.sendClose payload sending).1.connection = false
    unfold sendClose
    rw [send_shut shut]
    exact shut
  | close => exact s.closeConn_shut
  | destroy => rfl

theorem performAll_shut (shut : s.connection = false) (calls : List WsCall) :
    (s.performAll calls).1.connection = false := by
  induction calls generalizing s with
  | nil => exact shut
  | cons call calls ih =>
    unfold performAll
    split_ifs
    · exact shut
    · exact ih (perform_shut shut call)

theorem send_open (open_ : s.Open callbacks) (opcode : Byte) (payload : Bytes) (sending : Sending) :
    (s.send opcode payload sending).1.Open callbacks := by
  unfold send
  split_ifs
  · exact open_
  · exact open_
  · exact ⟨open_.callbacks, open_.connection, open_.disconnected, open_.freed⟩

theorem closeConn_closing (open_ : s.Open callbacks) : Closing callbacks callbacks.server s.closeConn.1 s.closeConn.2 := by
  rcases s with ⟨installed, connection, disconnected, writeData, freed⟩
  rcases open_ with ⟨rfl, rfl, rfl, rfl⟩
  rcases installed with ⟨handler, pongCb, server⟩
  cases server with
  | true =>
    have events : (closeConn ⟨⟨handler, pongCb, true⟩, true, false, writeData, false⟩).2 =
      [use .asyncConn, .close, free .connection, use .websocket, use .websocket, use .asyncConn, use .asyncConn,
        free .asyncConn, free .websocket] := rfl
    rw [events]
    exact ⟨rfl, by decide, by decide, fun _ => ⟨rfl, by decide⟩, fun none_ => by cases none_⟩
  | false =>
    have events : (closeConn ⟨⟨handler, pongCb, false⟩, true, false, writeData, false⟩).2 =
      [use .asyncConn, .close, free .connection, use .websocket] := rfl
    rw [events]
    refine ⟨rfl, by decide, by decide, (fun some_ => by cases some_), fun _ => ⟨⟨rfl, rfl, rfl, rfl, rfl⟩, ?_⟩⟩
    intro block
    cases block <;> decide

theorem destroy_closing (open_ : s.Open callbacks) : Closing callbacks true s.destroy.1 s.destroy.2 := by
  rcases s with ⟨installed, connection, disconnected, writeData, freed⟩
  rcases open_ with ⟨rfl, rfl, rfl, rfl⟩
  have events : (destroy ⟨installed, true, false, writeData, false⟩).2 =
    [use .websocket, use .asyncConn, use .asyncConn, .close, free .connection, free .asyncConn, free .websocket] := rfl
  rw [events]
  exact ⟨rfl, by decide, by decide, fun _ => ⟨rfl, by decide⟩, fun none_ => by cases none_⟩

theorem Closing.behind {frees : Bool} {front events : List WsEvent} (closing : Closing callbacks frees s events)
    (plain : ∀ e ∈ front, e.plain = true) : Closing callbacks frees s (front ++ events) where
  shut := closing.shut
  closed := List.mem_append_right _ closing.closed
  sound := by
    have unfreed : ∀ block, .free block ∉ accesses front := by
      intro block member
      cases plain _ (mem_accesses.mp member)
    rw [accesses_append]
    exact (sound_of_unfreed unfreed).append closing.sound fun later _ => unfreed later.about
  gone some_ := ⟨(closing.gone some_).1, List.mem_append_right _ (closing.gone some_).2⟩
  stays none_ := by
    refine ⟨(closing.stays none_).1, fun block member => ?_⟩
    rcases List.mem_append.mp member with before | after
    · cases plain _ before
    · exact (closing.stays none_).2 block after

theorem frees_of_closes {call : WsCall} (stays : call.closes = false) : call.frees callbacks = false := by
  cases call with
  | send kind payload sending => simp [WsCall.frees, WsCall.closes]
  | sendClose payload sending => simp [WsCall.frees, stays]
  | close => cases stays
  | destroy => cases stays

theorem sendClose_closing (open_ : s.Open callbacks) (payload : Bytes) {sending : Sending}
    (goes : (sending.queued && decide (sending.written = .success)) = true) :
    Closing callbacks callbacks.server (s.sendClose payload sending).1 (s.sendClose payload sending).2 := by
  have still := send_open open_ opClose payload sending
  have sent : (s.send opClose payload sending).2.2 = true := by
    rw [Bool.and_eq_true] at goes
    unfold send
    rw [if_neg (by rw [open_.connection]; decide), if_neg (by rw [goes.1]; decide)]
    exact goes.2
  have step : s.sendClose payload sending =
      ((s.send opClose payload sending).1.closeConn.1,
        (s.send opClose payload sending).2.1 ++ (s.send opClose payload sending).1.closeConn.2) := if_pos sent
  rw [step]
  exact (closeConn_closing still).behind (s.send_plain (by decide) payload sending)

theorem sendClose_open (open_ : s.Open callbacks) (payload : Bytes) {sending : Sending}
    (fails : (sending.queued && decide (sending.written = .success)) = false) :
    (s.sendClose payload sending).1.Open callbacks ∧ ∀ e ∈ (s.sendClose payload sending).2, e.plain = true := by
  have still := send_open open_ opClose payload sending
  have sent : ¬ (s.send opClose payload sending).2.2 = true := by
    unfold send
    rw [if_neg (by rw [open_.connection]; decide)]
    rw [Bool.and_eq_false_iff] at fails
    rcases fails with queued | written
    · rw [if_pos queued]
      exact Bool.false_ne_true
    · split_ifs
      · exact not_false
      · rw [written]
        exact Bool.false_ne_true
  have step : s.sendClose payload sending = ((s.send opClose payload sending).1, (s.send opClose payload sending).2.1) :=
    if_neg sent
  rw [step]
  exact ⟨still, s.send_plain (by decide) payload sending⟩

theorem perform_open (open_ : s.Open callbacks) {call : WsCall} (stays : call.closes = false) :
    (s.perform call).1.Open callbacks ∧ ∀ e ∈ (s.perform call).2, e.plain = true := by
  cases call with
  | send kind payload sending =>
    exact ⟨send_open open_ _ payload sending, s.send_plain (opcode_ne_opPong kind) payload sending⟩
  | sendClose payload sending => exact sendClose_open open_ payload stays
  | close => cases stays
  | destroy => cases stays

theorem perform_closing (open_ : s.Open callbacks) {call : WsCall} (closes : call.closes = true) :
    Closing callbacks (call.frees callbacks) (s.perform call).1 (s.perform call).2 := by
  cases call with
  | send kind payload sending => cases closes
  | sendClose payload sending =>
    have frees : (WsCall.sendClose payload sending).frees callbacks = callbacks.server := by simp [WsCall.frees, closes]
    rw [frees]
    exact sendClose_closing open_ payload closes
  | close =>
    have frees : WsCall.close.frees callbacks = callbacks.server := by simp [WsCall.frees, WsCall.closes]
    rw [frees]
    exact closeConn_closing open_
  | destroy =>
    have frees : WsCall.destroy.frees callbacks = true := by simp [WsCall.frees]
    rw [frees]
    exact destroy_closing open_

/-! ## The calls of one callback -/

structure Late (callbacks : WsCallbacks) (frees : Bool) (s : WsSession) (events : List WsEvent) : Prop where
  sound : Sound (accesses events)
  apart : ∀ step ∈ accesses events, step.about ≠ .connection
  gone : frees = true → s.freed = true ∧ free .websocket ∈ events
  stays : frees = false → s.Closed callbacks ∧ ∀ block, free block ∉ events

theorem late_of_uses (closed : s.Closed callbacks) {events : List WsEvent}
    (uses : ∀ e ∈ events, e = use .websocket ∨ e = use .asyncConn) : Late callbacks false s events where
  sound := by
    apply sound_of_unfreed
    intro block member
    rcases uses _ (mem_accesses.mp member) with same | same
    · cases same
    · cases same
  apart step member := by
    rcases uses _ (mem_accesses.mp member) with same | same
    · cases same
      decide
    · cases same
      decide
  gone some_ := by cases some_
  stays _ := by
    refine ⟨closed, fun block member => ?_⟩
    rcases uses _ member with same | same
    · cases same
    · cases same

theorem perform_late (closed : s.Closed callbacks) (call : WsCall) :
    Late callbacks (call.frees callbacks) (s.perform call).1 (s.perform call).2 := by
  have looks : ∀ e ∈ [use .websocket, use .asyncConn], e = use .websocket ∨ e = use .asyncConn := by simp
  have frees : call ≠ .destroy → call.frees callbacks = false := by
    intro other
    simp [WsCall.frees, other, closed.server]
  cases call with
  | send kind payload sending =>
    have step : s.perform (.send kind payload sending) = (s, [use .websocket, use .asyncConn]) := by
      show ((s.send kind.opcode payload sending).1, (s.send kind.opcode payload sending).2.1) = _
      rw [send_shut closed.connection]
    rw [step, frees (by simp)]
    exact late_of_uses closed looks
  | sendClose payload sending =>
    have step : s.perform (.sendClose payload sending) = (s, [use .websocket, use .asyncConn]) := by
      show s.sendClose payload sending = _
      unfold sendClose
      rw [send_shut closed.connection]
      rfl
    rw [step, frees (by simp)]
    exact late_of_uses closed looks
  | close =>
    have step : s.perform .close = ({ s with connection := false, disconnected := true }, [use .asyncConn]) := by
      show s.closeConn = _
      unfold closeConn release
      rw [if_pos closed.disconnected, closed.connection]
      rfl
    have still : Closed callbacks { s with connection := false, disconnected := true } :=
      ⟨closed.server, closed.callbacks, rfl, rfl, closed.freed⟩
    rw [step, frees (by simp)]
    exact late_of_uses still (by simp)
  | destroy =>
    have frees : WsCall.destroy.frees callbacks = true := by simp [WsCall.frees]
    have events : (s.perform .destroy).2 =
        [use .websocket, use .asyncConn, use .asyncConn, free .asyncConn, free .websocket] := by
      show s.destroy.2 = _
      unfold destroy release
      rw [closed.connection]
      rfl
    rw [frees, events]
    exact ⟨by decide, by decide, fun _ => ⟨rfl, by decide⟩, fun none_ => by cases none_⟩

theorem performAll_freed (freed : s.freed = true) (calls : List WsCall) : s.performAll calls = (s, []) := by
  cases calls with
  | nil => rfl
  | cons call calls => exact if_pos freed

theorem performAll_cons (there : s.freed = false) (call : WsCall) (calls : List WsCall) :
    s.performAll (call :: calls) = (((s.perform call).1.performAll calls).1,
      (s.perform call).2 ++ ((s.perform call).1.performAll calls).2) :=
  if_neg (by rw [there]; decide)

theorem performAll_late (closed : s.Closed callbacks) (calls : List WsCall) :
    Late callbacks (calls.any (·.frees callbacks)) (s.performAll calls).1 (s.performAll calls).2 := by
  induction calls generalizing s with
  | nil => exact late_of_uses closed (by simp [performAll])
  | cons call calls ih =>
    have first := perform_late closed call
    rw [performAll_cons closed.freed, List.any_cons]
    cases frees : call.frees callbacks with
    | true =>
      rw [frees] at first
      rw [performAll_freed (first.gone rfl).1, List.append_nil]
      exact ⟨first.sound, first.apart, fun _ => first.gone rfl, fun none_ => by cases none_⟩
    | false =>
      rw [frees] at first
      rcases first.stays rfl with ⟨still, unfreed⟩
      have later := ih still
      rw [Bool.false_or]
      refine ⟨?_, ?_, fun some_ => ?_, fun none_ => ?_⟩
      · rw [accesses_append]
        exact first.sound.append later.sound fun step _ member => unfreed _ (mem_accesses.mp member)
      · intro step member
        rw [accesses_append] at member
        rcases List.mem_append.mp member with before | after
        · exact first.apart step before
        · exact later.apart step after
      · exact ⟨(later.gone some_).1, List.mem_append_right _ (later.gone some_).2⟩
      · refine ⟨(later.stays none_).1, fun block member => ?_⟩
        rcases List.mem_append.mp member with before | after
        · exact unfreed block before
        · exact (later.stays none_).2 block after

theorem Closing.followed {first : WsSession × List WsEvent} {frees : Bool} (closing : Closing callbacks frees first.1 first.2)
    (calls : List WsCall) : Closing callbacks (frees || calls.any (·.frees callbacks)) (first.1.performAll calls).1
      (first.2 ++ (first.1.performAll calls).2) := by
  cases frees with
  | true =>
    rw [performAll_freed (closing.gone rfl).1, List.append_nil]
    exact ⟨closing.shut, closing.closed, closing.sound, fun _ => closing.gone rfl, fun none_ => by cases none_⟩
  | false =>
    rcases closing.stays rfl with ⟨closed, freed⟩
    have later := performAll_late closed calls
    rw [Bool.false_or]
    refine ⟨performAll_shut closing.shut calls, List.mem_append_left _ closing.closed, ?_, fun some_ => ?_, fun none_ => ?_⟩
    · rw [accesses_append]
      refine closing.sound.append later.sound fun step after member => ?_
      exact later.apart step after (freed _ (mem_accesses.mp member))
    · exact ⟨(later.gone some_).1, List.mem_append_right _ (later.gone some_).2⟩
    · refine ⟨(later.stays none_).1, fun block member => ?_⟩
      rcases List.mem_append.mp member with before | after
      · exact freed block before
      · exact absurd after ((later.stays none_).2 block)

theorem performAll_open (open_ : s.Open callbacks) {calls : List WsCall} (stays : calls.any (·.closes) = false) :
    (s.performAll calls).1.Open callbacks ∧ ∀ e ∈ (s.performAll calls).2, e.plain = true := by
  induction calls generalizing s with
  | nil => exact ⟨open_, by simp [performAll]⟩
  | cons call calls ih =>
    rw [List.any_cons, Bool.or_eq_false_iff] at stays
    rcases perform_open open_ stays.1 with ⟨still, plain⟩
    rcases ih still stays.2 with ⟨last, later⟩
    rw [performAll_cons open_.freed]
    refine ⟨last, fun e member => ?_⟩
    rcases List.mem_append.mp member with before | after
    · exact plain e before
    · exact later e after

theorem performAll_closing (open_ : s.Open callbacks) {calls : List WsCall} (closes : calls.any (·.closes) = true) :
    Closing callbacks (calls.any (·.frees callbacks)) (s.performAll calls).1 (s.performAll calls).2 := by
  induction calls generalizing s with
  | nil => cases closes
  | cons call calls ih =>
    rw [performAll_cons open_.freed, List.any_cons]
    cases now : call.closes with
    | true => exact (perform_closing open_ now).followed calls
    | false =>
      rw [List.any_cons, now, Bool.false_or] at closes
      rcases perform_open open_ now with ⟨still, plain⟩
      rw [frees_of_closes now, Bool.false_or]
      exact (ih still closes).behind plain

/-! ## A turn of the loop -/

theorem callBack_some (s : WsSession) (turn : WsTurn) : s.callBack true turn =
    ((s.performAll turn.calls).1, use .websocket :: .callback turn.opcode turn.payload :: (s.performAll turn.calls).2) := rfl

theorem callBack_noDispatch (s : WsSession) (installed : Bool) (turn : WsTurn) :
    ∀ e ∈ (s.callBack installed turn).2, e.isDispatch = false := by
  intro e member
  cases installed with
  | false =>
    rw [List.mem_singleton.mp member]
    rfl
  | true =>
    rw [callBack_some] at member
    rcases List.mem_cons.mp member with rfl | member
    · rfl
    · rcases List.mem_cons.mp member with rfl | member
      · rfl
      · exact WsEvent.isDispatch_of_quiet (s.performAll_quiet _ e member)

theorem send_noDispatch (s : WsSession) (opcode : Byte) (payload : Bytes) (sending : Sending) :
    ∀ e ∈ (s.send opcode payload sending).2.1, e.isDispatch = false := by
  unfold send
  split_ifs
  · simp [use, WsEvent.isDispatch]
  · simp [use, WsEvent.isDispatch]
  · simp [use, WsEvent.isDispatch]

theorem dispatch_shape (s : WsSession) (turn : WsTurn) : ∃ events,
    (s.dispatch turn).2.1 = use .websocket :: .dispatch turn.opcode turn.payload :: events ∧
      ∀ e ∈ events, e.isDispatch = false := by
  unfold dispatch
  cases frameKind turn.opcode with
  | message =>
    dsimp only
    split_ifs
    · exact ⟨_, rfl, s.callBack_noDispatch _ turn⟩
    · exact ⟨[], rfl, by simp⟩
  | ping => exact ⟨_, rfl, s.send_noDispatch _ _ _⟩
  | pong => exact ⟨_, rfl, s.callBack_noDispatch _ turn⟩
  | close => exact ⟨_, rfl, fun e member => WsEvent.isDispatch_of_quiet (s.sendClose_quiet _ _ e member)⟩
  | other => exact ⟨[], rfl, by simp⟩

theorem stops_iff {turn : WsTurn} :
    turn.stops = true ↔ frameKind turn.opcode = .close ∨ frameKind turn.opcode = .message ∧ turn.message = false := by
  unfold WsTurn.stops
  rw [Bool.or_eq_true, Bool.and_eq_true, decide_eq_true_eq, decide_eq_true_eq, Bool.not_eq_true']

theorem dispatch_goes (s : WsSession) {turn : WsTurn} (goes : turn.stops = false) : (s.dispatch turn).2.2 = none := by
  unfold dispatch
  unfold WsTurn.stops at goes
  cases kind : frameKind turn.opcode with
  | message =>
    rw [kind] at goes
    have some_ : turn.message = true := by simpa using goes
    dsimp only
    rw [if_pos some_]
  | ping => rfl
  | pong => rfl
  | close =>
    rw [kind] at goes
    cases goes
  | other => rfl

theorem walk_goes (s : WsSession) (armed : Bool) {turn : WsTurn} (goes : turn.stops = false) (turns : List WsTurn) :
    s.walk armed (turn :: turns) = (s.dispatch turn).2.1 ++ (s.dispatch turn).1.walk armed turns := by
  rw [walk, s.dispatch_goes goes]

theorem walk_stops (s : WsSession) (armed : Bool) {turn : WsTurn} (stops : turn.stops = true) (turns : List WsTurn) :
    s.walk armed (turn :: turns) = use .websocket :: .dispatch turn.opcode turn.payload ::
      (if frameKind turn.opcode = .close then (s.sendClose [3, 232] turn.reply).2
        else [use .asyncConn, use .websocket] ++ s.closeConn.2) := by
  rw [walk]
  unfold dispatch
  rcases stops_iff.mp stops with close | ⟨message, none_⟩
  · rw [close]
    exact congrArg (use .websocket :: .dispatch turn.opcode turn.payload :: ·) (List.append_nil _)
  · rw [message, none_]
    rfl

theorem afterStep_quiet (s : WsSession) (status : StepStatus) : ∀ e ∈ s.afterStep status, e.quiet = true := by
  intro e member
  cases status with
  | more => cases member
  | done => cases member
  | error =>
    rcases List.mem_append.mp member with looked | closed
    · exact List.all_eq_true.mp (show List.all _ WsEvent.quiet = true from rfl) e looked
    · exact s.closeConn_quiet e closed

theorem finish_uses (s : WsSession) (armed : Bool) : ∀ e ∈ (s.finish armed).1, ∃ block, e = use block := by
  unfold finish
  split_ifs <;> simp

theorem walk_nil_quiet (s : WsSession) (armed : Bool) : ∀ e ∈ s.walk armed [], e.quiet = true := by
  intro e member
  rcases List.mem_append.mp member with looked | after
  · rcases s.finish_uses armed e looked with ⟨block, rfl⟩
    rfl
  · exact s.afterStep_quiet _ e after

/-! ## What a CLOSE is followed by -/

theorem isCloseFrame_of_noDispatch {e : WsEvent} (other : e.isDispatch = false) : e.isCloseFrame = false := by
  cases e with
  | dispatch opcode payload => cases other
  | access step => rfl
  | callback opcode payload => rfl
  | queue opcode payload => rfl
  | close => rfl

def Last (events : List WsEvent) : Prop :=
  events.Pairwise fun earlier later => earlier.isCloseFrame = true → later.isDispatch = false

theorem last_entered {opcode : Byte} {payload : Bytes} {events : List WsEvent} (none_ : ∀ e ∈ events, e.isDispatch = false) :
    Last (use .websocket :: .dispatch opcode payload :: events) := by
  have rest : Last events := List.pairwise_of_forall_mem_list fun earlier _ later member _ => none_ later member
  refine List.pairwise_cons.mpr ⟨(fun later _ first => by cases first), List.pairwise_cons.mpr ⟨?_, rest⟩⟩
  exact fun later member _ => none_ later member

theorem walk_last (s : WsSession) (armed : Bool) (turns : List WsTurn) : Last (s.walk armed turns) := by
  induction turns generalizing s with
  | nil =>
    apply List.pairwise_of_forall_mem_list
    intro earlier _ later member _
    exact WsEvent.isDispatch_of_quiet (s.walk_nil_quiet armed later member)
  | cons turn turns ih =>
    cases stops : turn.stops with
    | true =>
      rw [s.walk_stops armed stops]
      apply last_entered
      intro e member
      split at member
      · exact WsEvent.isDispatch_of_quiet (s.sendClose_quiet _ _ e member)
      · exact WsEvent.isDispatch_of_quiet (s.afterStep_quiet .error e member)
    | false =>
      rcases s.dispatch_shape turn with ⟨events, shape, none_⟩
      have other : ¬ frameKind turn.opcode = .close := by
        intro close
        rw [stops_iff.mpr (.inl close)] at stops
        cases stops
      rw [s.walk_goes armed stops, shape]
      refine List.pairwise_append.mpr ⟨last_entered none_, ih _, fun earlier member later _ close => ?_⟩
      rcases List.mem_cons.mp member with rfl | member
      · cases close
      · rcases List.mem_cons.mp member with rfl | member
        · exact absurd (of_decide_eq_true close) other
        · rw [isCloseFrame_of_noDispatch (none_ earlier member)] at close
          cases close

/-! ## A frame, by what becomes of it -/

theorem dispatch_reached (known : s.callbacks = callbacks) {turn : WsTurn} (reached : turn.reaches callbacks = true) :
    s.dispatch turn = ((s.performAll turn.calls).1, [use .websocket, .dispatch turn.opcode turn.payload] ++
      use .websocket :: .callback turn.opcode turn.payload :: (s.performAll turn.calls).2, none) := by
  unfold WsTurn.reaches at reached
  unfold dispatch
  rw [known]
  cases kind : frameKind turn.opcode with
  | message =>
    rw [kind] at reached
    have both : turn.message = true ∧ callbacks.handler = true := by simpa using reached
    dsimp only
    rw [if_pos both.1, both.2, callBack_some]
  | pong =>
    rw [kind] at reached
    have some_ : callbacks.pongCb = true := by simpa using reached
    dsimp only
    rw [some_, callBack_some]
  | ping =>
    rw [kind] at reached
    cases reached
  | close =>
    rw [kind] at reached
    cases reached
  | other =>
    rw [kind] at reached
    cases reached

theorem dispatch_ping (s : WsSession) {turn : WsTurn} (kind : frameKind turn.opcode = .ping) :
    s.dispatch turn = ((s.send opPong turn.payload turn.reply).1, [use .websocket, .dispatch turn.opcode turn.payload] ++
      (s.send opPong turn.payload turn.reply).2.1, none) := by
  unfold dispatch
  rw [kind]

theorem dispatch_ignored (known : s.callbacks = callbacks) {turn : WsTurn} (goes : turn.stops = false)
    (ignored : turn.reaches callbacks = false) (kind : frameKind turn.opcode ≠ .ping) :
    ∃ events, s.dispatch turn = (s, [use .websocket, .dispatch turn.opcode turn.payload] ++ events, none) ∧
      ∀ e ∈ events, e = use .websocket := by
  unfold WsTurn.reaches at ignored
  unfold WsTurn.stops at goes
  unfold dispatch
  rw [known]
  cases found : frameKind turn.opcode with
  | message =>
    rw [found] at ignored goes
    have some_ : turn.message = true := by simpa using goes
    have none_ : callbacks.handler = false := by simpa [some_] using ignored
    dsimp only
    rw [if_pos some_, none_]
    exact ⟨[use .websocket], rfl, by simp⟩
  | pong =>
    rw [found] at ignored
    have none_ : callbacks.pongCb = false := by simpa using ignored
    dsimp only
    rw [none_]
    exact ⟨[use .websocket], rfl, by simp⟩
  | ping => exact absurd found kind
  | close =>
    rw [found] at goes
    cases goes
  | other => exact ⟨[], rfl, by simp⟩

theorem closes_of_ignored {turn : WsTurn} (ignored : turn.reaches callbacks = false) : turn.closes callbacks = false := by
  unfold WsTurn.closes
  rw [ignored]
  rfl

theorem not_ping_of_reached {turn : WsTurn} (reached : turn.reaches callbacks = true) :
    frameKind turn.opcode ≠ .ping := by
  intro kind
  unfold WsTurn.reaches at reached
  rw [kind] at reached
  cases reached

theorem ignored_of_stops {turn : WsTurn} (stops : turn.stops = true) : turn.reaches callbacks = false := by
  unfold WsTurn.reaches
  rcases stops_iff.mp stops with close | ⟨message, none_⟩
  · rw [close]
    rfl
  · rw [message, none_]
    rfl

theorem not_ping_of_stops {turn : WsTurn} (stops : turn.stops = true) : frameKind turn.opcode ≠ .ping := by
  intro kind
  rcases stops_iff.mp stops with close | ⟨message, _⟩
  · cases kind.symm.trans close
  · cases kind.symm.trans message

/-! ## Behind the closing -/

theorem walk_uses (s : WsSession) (armed : Bool) (turns : List WsTurn) : use .websocket ∈ s.walk armed turns := by
  cases turns with
  | nil =>
    apply List.mem_append_left
    unfold finish
    split_ifs <;> exact List.mem_cons_self
  | cons turn turns =>
    cases stops : turn.stops with
    | true =>
      rw [s.walk_stops armed stops]
      exact List.mem_cons_self
    | false =>
      rcases s.dispatch_shape turn with ⟨events, shape, _⟩
      rw [s.walk_goes armed stops, shape]
      exact List.mem_cons_self

/-- Nothing but the websocket, its async connection and the frames is looked at. -/
def Idle (e : WsEvent) : Prop := e = use .websocket ∨ e = use .asyncConn ∨ e.isDispatch = true

theorem idle_entered (opcode : Byte) (payload : Bytes) {events : List WsEvent} (idle : ∀ e ∈ events, Idle e) :
    ∀ e ∈ use .websocket :: .dispatch opcode payload :: events, Idle e := by
  intro e member
  rcases List.mem_cons.mp member with rfl | member
  · exact Or.inl rfl
  · rcases List.mem_cons.mp member with rfl | member
    · exact Or.inr (Or.inr rfl)
    · exact idle e member

theorem closeConn_closed (closed : s.Closed callbacks) : s.closeConn.2 = [use .asyncConn] := by
  unfold closeConn release
  rw [if_pos closed.disconnected, closed.connection]
  rfl

theorem walk_idle (closed : s.Closed callbacks) (armed : Bool) (turns : List WsTurn)
    (silent : ∀ turn ∈ dispatchedTurns turns, turn.reaches callbacks = false) : ∀ e ∈ s.walk armed turns, Idle e := by
  have looks : ∀ e ∈ [use .websocket, use .asyncConn], Idle e := by simp [Idle]
  induction turns with
  | nil =>
    have events : s.walk armed [] = [use .websocket, use .asyncConn] := by
      unfold walk finish
      rw [closed.connection]
      rfl
    rw [events]
    exact looks
  | cons turn turns ih =>
    cases stops : turn.stops with
    | true =>
      rw [s.walk_stops armed stops]
      apply idle_entered
      split
      · unfold sendClose
        rw [send_shut closed.connection]
        exact looks
      · rw [closeConn_closed closed]
        simp [Idle]
    | false =>
      unfold dispatchedTurns at silent
      rw [if_neg (by rw [stops]; decide)] at silent
      rcases List.forall_mem_cons.mp silent with ⟨ignored, others⟩
      have rest := ih others
      rw [s.walk_goes armed stops]
      by_cases kind : frameKind turn.opcode = .ping
      · rw [dispatch_ping s kind, send_shut closed.connection]
        apply idle_entered
        exact List.forall_mem_append.mpr ⟨looks, rest⟩
      · rcases dispatch_ignored closed.callbacks stops ignored kind with ⟨events, step, uses⟩
        rw [step]
        apply idle_entered
        exact List.forall_mem_append.mpr ⟨fun e member => Or.inl (uses e member), rest⟩

theorem walk_calls (closed : s.Closed callbacks) (armed : Bool) {turns : List WsTurn}
    (reached : ∃ turn ∈ dispatchedTurns turns, turn.reaches callbacks = true) :
    ∃ e ∈ s.walk armed turns, e.isCallback = true := by
  induction turns with
  | nil =>
    rcases reached with ⟨turn, member, _⟩
    cases member
  | cons turn turns ih =>
    rcases reached with ⟨other, member, reaches⟩
    unfold dispatchedTurns at member
    cases stops : turn.stops with
    | true =>
      rw [if_pos stops] at member
      rw [List.mem_singleton.mp member, ignored_of_stops stops] at reaches
      cases reaches
    | false =>
      rw [if_neg (by rw [stops]; decide)] at member
      rw [s.walk_goes armed stops]
      cases here : turn.reaches callbacks with
      | true =>
        rw [dispatch_reached closed.callbacks here]
        refine ⟨.callback turn.opcode turn.payload, List.mem_append_left _ ?_, rfl⟩
        simp
      | false =>
        have later : ∃ turn ∈ dispatchedTurns turns, turn.reaches callbacks = true := by
          rcases List.mem_cons.mp member with rfl | member
          · rw [here] at reaches
            cases reaches
          · exact ⟨other, member, reaches⟩
        rcases ih later with ⟨e, found, callback⟩
        by_cases kind : frameKind turn.opcode = .ping
        · rw [dispatch_ping s kind, send_shut closed.connection]
          exact ⟨e, List.mem_append_right _ found, callback⟩
        · rcases dispatch_ignored closed.callbacks stops here kind with ⟨events, step, _⟩
          rw [step]
          exact ⟨e, List.mem_append_right _ found, callback⟩

theorem pongs_entered (opcode : Byte) (payload : Bytes) (events : List WsEvent) :
    pongs (use .websocket :: .dispatch opcode payload :: events) = pongs events := rfl

theorem pings_entered (opcode : Byte) (payload : Bytes) (events : List WsEvent) :
    pings (use .websocket :: .dispatch opcode payload :: events) =
      if frameKind opcode = .ping then payload :: pings events else pings events := rfl

theorem stopped_quiet (s : WsSession) (turn : WsTurn) : ∀ e ∈ (if frameKind turn.opcode = .close then
    (s.sendClose [3, 232] turn.reply).2 else [use .asyncConn, use .websocket] ++ s.closeConn.2), e.quiet = true := by
  intro e member
  split at member
  · exact s.sendClose_quiet _ _ e member
  · exact s.afterStep_quiet .error e member

theorem walk_pongs_shut (shut : s.connection = false) (armed : Bool) (turns : List WsTurn) : pongs (s.walk armed turns) = [] := by
  induction turns generalizing s with
  | nil => exact pongs_of_quiet (s.walk_nil_quiet armed)
  | cons turn turns ih =>
    cases stops : turn.stops with
    | true =>
      rw [s.walk_stops armed stops, pongs_entered]
      exact pongs_of_quiet (s.stopped_quiet turn)
    | false =>
      rw [s.walk_goes armed stops]
      cases reached : turn.reaches s.callbacks with
      | true =>
        rw [dispatch_reached rfl reached, pongs_append, ih (performAll_shut shut _), List.append_nil]
        show pongs (s.performAll turn.calls).2 = []
        exact pongs_of_quiet (s.performAll_quiet _)
      | false =>
        by_cases kind : frameKind turn.opcode = .ping
        · rw [dispatch_ping s kind, send_shut shut, pongs_append, ih shut]
          rfl
        · rcases dispatch_ignored rfl stops reached kind with ⟨events, step, uses⟩
          have quiet : ∀ e ∈ events, e.quiet = true := by
            intro e member
            rw [uses e member]
            rfl
          rw [step, pongs_append, ih shut, List.append_nil]
          show pongs events = []
          exact pongs_of_quiet quiet

/-! ## While the connection is open -/

structure Calm (turn : WsTurn) (events : List WsEvent) : Prop where
  open_ : .close ∉ events
  unfreed : ∀ block, free block ∉ events
  pings : pings events = if frameKind turn.opcode = .ping then [turn.payload] else []
  pongs : pongs events = if frameKind turn.opcode = .ping ∧ turn.reply.queued = true then [turn.payload] else []

theorem calm_of_plain {turn : WsTurn} (kind : frameKind turn.opcode ≠ .ping) {events : List WsEvent}
    (plain : ∀ e ∈ events, e.plain = true ∨ e.isCallback = true) :
    Calm turn (use .websocket :: .dispatch turn.opcode turn.payload :: events) := by
  have closed : .close ∉ events := by
    intro member
    rcases plain _ member with no | no
    · cases no
    · cases no
  have freed : ∀ block, free block ∉ events := by
    intro block member
    rcases plain _ member with no | no
    · cases no
    · cases no
  have pinged : WebSocket.pings events = [] := by
    apply pings_of_noDispatch
    intro e member
    rcases plain e member with plain | callback
    · exact WsEvent.isDispatch_of_quiet (WsEvent.quiet_of_plain plain)
    · cases e <;> first | rfl | cases callback
  have ponged : WebSocket.pongs events = [] := by
    apply List.filterMap_eq_nil_iff.mpr
    intro e member
    rcases plain e member with plain | callback
    · exact WsEvent.pong_of_quiet (WsEvent.quiet_of_plain plain)
    · cases e <;> first | rfl | cases callback
  refine ⟨by simpa [use] using closed, fun block => by simpa [use, free] using freed block, ?_, ?_⟩
  · rw [if_neg kind, pings_entered, if_neg kind]
    exact pinged
  · rw [if_neg fun both => kind both.1]
    exact ponged

theorem dispatch_calm (open_ : s.Open callbacks) {turn : WsTurn} (goes : turn.stops = false)
    (stays : turn.closes callbacks = false) : (s.dispatch turn).1.Open callbacks ∧ Calm turn (s.dispatch turn).2.1 := by
  cases reached : turn.reaches callbacks with
  | true =>
    have calls : turn.calls.any (·.closes) = false := by
      unfold WsTurn.closes at stays
      rw [reached] at stays
      exact stays
    rcases performAll_open open_ calls with ⟨still, plain⟩
    rw [dispatch_reached open_.callbacks reached]
    refine ⟨still, calm_of_plain (not_ping_of_reached reached) fun e member => ?_⟩
    rcases List.mem_cons.mp member with rfl | member
    · exact Or.inl rfl
    · rcases List.mem_cons.mp member with rfl | member
      · exact Or.inr rfl
      · exact Or.inl (plain e member)
  | false =>
    by_cases kind : frameKind turn.opcode = .ping
    · rw [dispatch_ping s kind]
      refine ⟨send_open open_ _ _ _, ?_⟩
      unfold send
      rw [if_neg (by rw [open_.connection]; decide)]
      cases queued : turn.reply.queued with
      | true =>
        rw [if_neg (by decide)]
        refine ⟨by simp [use], by simp [use, free], ?_, ?_⟩
        · rw [if_pos kind]
          exact if_pos kind
        · rw [if_pos ⟨kind, queued⟩]
          rfl
      | false =>
        rw [if_pos rfl]
        refine ⟨by simp [use], by simp [use, free], ?_, ?_⟩
        · rw [if_pos kind]
          exact if_pos kind
        · rw [if_neg (fun both => by rw [queued] at both; cases both.2)]
          rfl
    · rcases dispatch_ignored open_.callbacks goes reached kind with ⟨events, step, uses⟩
      rw [step]
      refine ⟨open_, calm_of_plain kind fun e member => ?_⟩
      rw [uses e member]
      exact Or.inl rfl

theorem dispatch_closing (open_ : s.Open callbacks) {turn : WsTurn} (closes : turn.closes callbacks = true) :
    ∃ t events, s.dispatch turn = (t, [use .websocket, .dispatch turn.opcode turn.payload] ++
        use .websocket :: .callback turn.opcode turn.payload :: events, none) ∧
      Closing callbacks (turn.frees callbacks) t events ∧ ∀ e ∈ events, e.quiet = true := by
  unfold WsTurn.closes at closes
  rw [Bool.and_eq_true] at closes
  have frees : turn.frees callbacks = turn.calls.any (·.frees callbacks) := by
    unfold WsTurn.frees
    rw [closes.1]
    rfl
  rw [frees]
  exact ⟨_, _, dispatch_reached open_.callbacks closes.1, performAll_closing open_ closes.2, s.performAll_quiet _⟩

theorem pongs_le (open_ : s.Open callbacks) (armed : Bool) (turns : List WsTurn) :
    (pongs (s.walk armed turns)).length ≤ (pings (s.walk armed turns)).length := by
  induction turns generalizing s with
  | nil =>
    rw [pongs_of_quiet (s.walk_nil_quiet armed)]
    exact Nat.zero_le _
  | cons turn turns ih =>
    cases stops : turn.stops with
    | true =>
      rw [s.walk_stops armed stops, pongs_entered, pongs_of_quiet (s.stopped_quiet turn)]
      exact Nat.zero_le _
    | false =>
      rw [s.walk_goes armed stops]
      cases closes : turn.closes callbacks with
      | true =>
        rcases dispatch_closing open_ closes with ⟨t, events, step, closing, quiet⟩
        rw [step, pongs_append, walk_pongs_shut closing.shut, List.append_nil]
        show (pongs events).length ≤ _
        rw [pongs_of_quiet quiet]
        exact Nat.zero_le _
      | false =>
        rcases dispatch_calm open_ stops closes with ⟨still, calm⟩
        have rest := ih still
        rw [pongs_append, pings_append calm.open_, List.length_append, List.length_append, calm.pongs, calm.pings]
        by_cases kind : frameKind turn.opcode = .ping
        · rw [if_pos kind]
          split
          · exact Nat.add_le_add_left rest _
          · exact Nat.add_le_add (Nat.zero_le _) rest
        · rw [if_neg kind, if_neg fun both => kind both.1]
          exact Nat.add_le_add_left rest _

/-! ## What is kept -/

theorem kept_nil : Kept callbacks [] := ⟨by simp, .nil, by simp⟩

theorem frees_of_stays {turn : WsTurn} (stays : turn.closes callbacks = false) : turn.frees callbacks = false := by
  cases reached : turn.reaches callbacks with
  | false =>
    unfold WsTurn.frees
    rw [reached]
    rfl
  | true =>
    unfold WsTurn.closes at stays
    unfold WsTurn.frees
    rw [reached, Bool.true_and] at stays ⊢
    rw [List.any_eq_false] at stays ⊢
    intro call member
    rw [frees_of_closes (Bool.eq_false_iff.mpr (stays call member))]
    exact Bool.false_ne_true

theorem kept_stays {turn : WsTurn} (stays : turn.closes callbacks = false) (turns : List WsTurn) :
    Kept callbacks (turn :: turns) ↔ (frameKind turn.opcode = .ping → turn.reply.queued = true) ∧ Kept callbacks turns := by
  have taken : (turn :: turns).takeWhile (fun turn => !turn.closes callbacks) =
      turn :: turns.takeWhile fun turn => !turn.closes callbacks :=
    List.takeWhile_cons_of_pos (by rw [stays]; rfl)
  constructor
  · intro kept
    have replied := kept.replied
    rw [taken] at replied
    rcases List.forall_mem_cons.mp replied with ⟨first, others⟩
    exact ⟨first, (List.forall_mem_cons.mp kept.alive).2, (List.pairwise_cons.mp kept.silent).2, others⟩
  · intro ⟨first, kept⟩
    refine ⟨List.forall_mem_cons.mpr ⟨frees_of_stays stays, kept.alive⟩,
      List.pairwise_cons.mpr ⟨fun later _ closes => ?_, kept.silent⟩, ?_⟩
    · rw [stays] at closes
      cases closes
    · rw [taken]
      exact List.forall_mem_cons.mpr ⟨first, kept.replied⟩

theorem kept_closes {turn : WsTurn} (closes : turn.closes callbacks = true) (turns : List WsTurn) :
    Kept callbacks (turn :: turns) ↔
      turn.frees callbacks = false ∧ ∀ later ∈ turns, later.reaches callbacks = false := by
  constructor
  · intro kept
    exact ⟨(List.forall_mem_cons.mp kept.alive).1, fun later member => (List.pairwise_cons.mp kept.silent).1 later member closes⟩
  · intro ⟨alive, silent⟩
    have quiet : ∀ later ∈ turns, later.closes callbacks = false := fun later member => closes_of_ignored (silent later member)
    refine ⟨List.forall_mem_cons.mpr ⟨alive, fun later member => frees_of_stays (quiet later member)⟩,
      List.pairwise_cons.mpr ⟨fun later member _ => silent later member, ?_⟩, ?_⟩
    · apply List.pairwise_of_forall_mem_list
      intro earlier _ later member _
      exact silent later member
    · rw [List.takeWhile_cons_of_neg (by rw [closes]; decide)]
      simp

/-! ## The whole read step -/

theorem sound_of_plain {events : List WsEvent} (plain : ∀ e ∈ events, e.plain = true) : Sound (accesses events) := by
  apply sound_of_unfreed
  intro block member
  cases plain _ (mem_accesses.mp member)

theorem sound_uses {front back : List WsEvent} (uses : ∀ e ∈ front, ∃ block, e = use block) (sound : Sound (accesses back)) :
    Sound (accesses (front ++ back)) := by
  have unfreed : ∀ block, .free block ∉ accesses front := by
    intro block member
    rcases uses _ (mem_accesses.mp member) with ⟨other, same⟩
    cases same
  rw [accesses_append]
  exact (sound_of_unfreed unfreed).append sound fun later _ => unfreed later.about

theorem afterStep_sound (open_ : s.Open callbacks) (status : StepStatus) : Sound (accesses (s.afterStep status)) := by
  cases status with
  | more => exact .nil
  | done => exact .nil
  | error => exact sound_uses (by simp) (closeConn_closing open_).sound

theorem stopped_sound (open_ : s.Open callbacks) (turn : WsTurn) : Sound (accesses (if frameKind turn.opcode = .close then
    (s.sendClose [3, 232] turn.reply).2 else [use .asyncConn, use .websocket] ++ s.closeConn.2)) := by
  split
  · cases goes : turn.reply.queued && decide (turn.reply.written = .success) with
    | true => exact (sendClose_closing open_ _ goes).sound
    | false => exact sound_of_plain (sendClose_open open_ _ goes).2
  · exact afterStep_sound open_ .error

theorem orderly_quiet {events : List WsEvent} (quiet : ∀ e ∈ events, e.quiet = true) (sound : Sound (accesses events)) :
    Orderly events where
  quiet := List.pairwise_of_forall_mem_list fun _ _ later member _ => WsEvent.isCallback_of_quiet (quiet later member)
  sound := sound
  answered := by
    rw [pongs_of_quiet quiet, pings_of_noDispatch fun e member => WsEvent.isDispatch_of_quiet (quiet e member)]
  last := List.pairwise_of_forall_mem_list fun _ _ later member _ => WsEvent.isDispatch_of_quiet (quiet later member)

theorem orderly_stopped {opcode : Byte} (kind : frameKind opcode ≠ .ping) (payload : Bytes) {events : List WsEvent}
    (quiet : ∀ e ∈ events, e.quiet = true) (sound : Sound (accesses events)) :
    Orderly (use .websocket :: .dispatch opcode payload :: events) := by
  have none_ : ∀ e ∈ events, e.isDispatch = false := fun e member => WsEvent.isDispatch_of_quiet (quiet e member)
  refine ⟨?_, ?_, ?_, last_entered none_⟩
  · apply List.pairwise_of_forall_mem_list
    intro earlier _ later member _
    rcases List.mem_cons.mp member with rfl | member
    · rfl
    · rcases List.mem_cons.mp member with rfl | member
      · rfl
      · exact WsEvent.isCallback_of_quiet (quiet later member)
  · show Sound (accesses ([use .websocket] ++ events))
    exact sound_uses (by simp) sound
  · rw [pongs_entered, pings_entered, if_neg kind, pongs_of_quiet quiet, pings_of_noDispatch none_]

theorem orderly_calm {turn : WsTurn} {events rest : List WsEvent} (calm : Calm turn events)
    (last : Last (events ++ rest)) (fewer : (pongs rest).length ≤ (pings rest).length) :
    Orderly (events ++ rest) ↔ (frameKind turn.opcode = .ping → turn.reply.queued = true) ∧ Orderly rest := by
  have unfreed : ∀ block, .free block ∉ accesses events := fun block member => calm.unfreed block (mem_accesses.mp member)
  have asked : pings (events ++ rest) = pings events ++ pings rest := pings_append calm.open_ rest
  constructor
  · intro orderly
    have answered := orderly.answered
    rw [pongs_append, asked, calm.pongs, calm.pings] at answered
    have queued : frameKind turn.opcode = .ping → turn.reply.queued = true := by
      intro kind
      by_contra unqueued
      rw [if_neg fun both => unqueued both.2, if_pos kind] at answered
      have lengths := congrArg List.length answered
      rw [List.nil_append, List.length_append, List.length_singleton] at lengths
      omega
    have sound := orderly.sound
    rw [accesses_append] at sound
    refine ⟨queued, (List.pairwise_append.mp orderly.quiet).2.1, (Accesses.sound_append.mp sound).2.1, ?_,
      (List.pairwise_append.mp orderly.last).2.1⟩
    by_cases kind : frameKind turn.opcode = .ping
    · rw [if_pos ⟨kind, queued kind⟩, if_pos kind] at answered
      exact List.append_cancel_left answered
    · rw [if_neg fun both => kind both.1, if_neg kind] at answered
      exact answered
  · intro ⟨queued, orderly⟩
    refine ⟨List.pairwise_append.mpr ⟨?_, orderly.quiet, ?_⟩, ?_, ?_, last⟩
    · apply List.pairwise_of_forall_mem_list
      intro earlier member _ _ close
      rw [close] at member
      exact absurd member calm.open_
    · intro earlier member _ _ close
      rw [close] at member
      exact absurd member calm.open_
    · rw [accesses_append]
      exact (sound_of_unfreed unfreed).append orderly.sound fun later _ => unfreed later.about
    · rw [pongs_append, asked, calm.pongs, calm.pings, orderly.answered]
      by_cases kind : frameKind turn.opcode = .ping
      · rw [if_pos ⟨kind, queued kind⟩, if_pos kind]
      · rw [if_neg fun both => kind both.1, if_neg kind]

theorem orderly_closed {t : WsSession} {opcode : Byte} (kind : frameKind opcode ≠ .ping) (payload : Bytes)
    {events rest : List WsEvent} (closing : Closing callbacks false t events) (quiet : ∀ e ∈ events, e.quiet = true)
    (idle : ∀ e ∈ rest, Idle e)
    (last : Last ([use .websocket, .dispatch opcode payload] ++ use .websocket :: .callback opcode payload :: events ++ rest)) :
    Orderly ([use .websocket, .dispatch opcode payload] ++ use .websocket :: .callback opcode payload :: events ++ rest) := by
  have later : ∀ e ∈ events ++ rest, e.isCallback = false := by
    intro e member
    rcases List.mem_append.mp member with before | after
    · exact WsEvent.isCallback_of_quiet (quiet e before)
    · rcases idle e after with rfl | rfl | dispatched
      · rfl
      · rfl
      · cases e <;> first | rfl | cases dispatched
  have pongs_rest : pongs rest = [] := by
    apply List.filterMap_eq_nil_iff.mpr
    intro e member
    rcases idle e member with rfl | rfl | dispatched
    · rfl
    · rfl
    · cases e <;> first | rfl | cases dispatched
  have split : [use .websocket, .dispatch opcode payload] ++ use .websocket :: .callback opcode payload :: events ++ rest =
    use .websocket :: .dispatch opcode payload :: use .websocket :: .callback opcode payload :: (events ++ rest) := rfl
  refine ⟨?_, ?_, ?_, last⟩
  · rw [split]
    have tail : (events ++ rest).Pairwise fun earlier later => earlier = .close → later.isCallback = false :=
      List.pairwise_of_forall_mem_list fun _ _ e member _ => later e member
    refine List.pairwise_cons.mpr ⟨(fun _ _ same => by cases same), List.pairwise_cons.mpr ⟨(fun _ _ same => by cases same),
      List.pairwise_cons.mpr ⟨(fun _ _ same => by cases same), List.pairwise_cons.mpr ⟨(fun _ _ same => by cases same), tail⟩⟩⟩⟩
  · rw [split]
    show Sound (accesses ([use .websocket, use .websocket] ++ (events ++ rest)))
    apply sound_uses (by simp)
    rw [accesses_append]
    have unfreed : ∀ block, .free block ∉ accesses rest := by
      intro block member
      rcases idle _ (mem_accesses.mp member) with same | same | same
      · cases same
      · cases same
      · cases same
    refine closing.sound.append (sound_of_unfreed unfreed) fun step member freed => ?_
    have connection := (closing.stays rfl).2 _ (mem_accesses.mp freed)
    rcases idle _ (mem_accesses.mp member) with same | same | same
    · cases same
      cases connection
    · cases same
      cases connection
    · cases same
  · rw [pongs_append, pongs_rest, List.append_nil]
    have closed : WsEvent.close ∈ [use .websocket, .dispatch opcode payload] ++
        use .websocket :: .callback opcode payload :: events :=
      List.mem_append_right _ (List.mem_cons_of_mem _ (List.mem_cons_of_mem _ closing.closed))
    rw [pings_close closed]
    show pongs events = pings ([use .websocket, .dispatch opcode payload] ++ _)
    rw [pongs_of_quiet quiet]
    show [] = if frameKind opcode = .ping then _ else pings events
    rw [if_neg kind, pings_of_noDispatch fun e member => WsEvent.isDispatch_of_quiet (quiet e member)]

theorem walk_orderly_iff (open_ : s.Open callbacks) (armed : Bool) (turns : List WsTurn) :
    Orderly (s.walk armed turns) ↔ Kept callbacks (dispatchedTurns turns) := by
  induction turns generalizing s with
  | nil =>
    have sound : Sound (accesses (s.walk armed [])) := sound_uses (s.finish_uses armed) (afterStep_sound open_ _)
    exact ⟨fun _ => kept_nil, fun _ => orderly_quiet (s.walk_nil_quiet armed) sound⟩
  | cons turn turns ih =>
    unfold dispatchedTurns
    cases stops : turn.stops with
    | true =>
      have stays := closes_of_ignored (ignored_of_stops stops : turn.reaches callbacks = false)
      have orderly := orderly_stopped (not_ping_of_stops stops) turn.payload (s.stopped_quiet turn) (stopped_sound open_ turn)
      rw [s.walk_stops armed stops, if_pos rfl, kept_stays stays]
      exact ⟨fun _ => ⟨fun kind => absurd kind (not_ping_of_stops stops), kept_nil⟩, fun _ => orderly⟩
    | false =>
      have last := s.walk_last armed (turn :: turns)
      rw [s.walk_goes armed stops] at last ⊢
      rw [if_neg (by decide)]
      cases closes : turn.closes callbacks with
      | false =>
        rcases dispatch_calm open_ stops closes with ⟨still, calm⟩
        rw [orderly_calm calm last (pongs_le still armed turns), ih still, kept_stays closes]
      | true =>
        rcases dispatch_closing open_ closes with ⟨t, events, step, closing, quiet⟩
        have reached : turn.reaches callbacks = true := (Bool.and_eq_true_iff.mp closes).1
        rw [kept_closes closes]
        rw [step] at last ⊢
        cases frees : turn.frees callbacks with
        | true =>
          -- the loop looks at the websocket again, whatever comes next
          have freed := (closing.gone frees).2
          refine ⟨fun orderly => absurd orderly.sound ?_, fun both => by cases both.1⟩
          rw [accesses_append]
          apply @not_sound_of_freed Block _ _ (.use .websocket)
          · exact mem_accesses.mpr (List.mem_append_right _ (List.mem_cons_of_mem _ (List.mem_cons_of_mem _ freed)))
          · exact mem_accesses.mpr (t.walk_uses armed turns)
        | false =>
          rw [frees] at closing
          have closed := (closing.stays rfl).1
          constructor
          · intro orderly
            refine ⟨rfl, fun later member => ?_⟩
            by_contra reaches
            rcases walk_calls closed armed ⟨later, member, (Bool.not_eq_false _).mp reaches⟩ with ⟨e, found, callback⟩
            have before : WsEvent.close ∈ [use .websocket, .dispatch turn.opcode turn.payload] ++
                use .websocket :: .callback turn.opcode turn.payload :: events :=
              List.mem_append_right _ (List.mem_cons_of_mem _ (List.mem_cons_of_mem _ closing.closed))
            have silent := (List.pairwise_append.mp orderly.quiet).2.2 _ before e found rfl
            rw [callback] at silent
            cases silent
          · intro both
            exact orderly_closed (not_ping_of_reached reached) turn.payload closing quiet (walk_idle closed armed turns both.2) last

theorem looked_calm : Calm { opcode := 0 } [use .websocket, use .asyncConn, use .connection] :=
  ⟨by decide, fun block => by cases block <;> decide, rfl, rfl⟩

theorem orderly_looked {rest : List WsEvent} (last : Last rest) (fewer : (pongs rest).length ≤ (pings rest).length) :
    Orderly ([use .websocket, use .asyncConn, use .connection] ++ rest) ↔ Orderly rest := by
  have whole : Last ([use .websocket, use .asyncConn, use .connection] ++ rest) :=
    List.pairwise_cons.mpr ⟨(fun _ _ same => by cases same), List.pairwise_cons.mpr ⟨(fun _ _ same => by cases same),
      List.pairwise_cons.mpr ⟨(fun _ _ same => by cases same), last⟩⟩⟩
  rw [orderly_calm looked_calm whole fewer]
  exact ⟨And.right, fun orderly => ⟨(fun kind => by cases kind), orderly⟩⟩

theorem batch_failed {alloc : Allocator} {buffer : Bytes} {turn : Nat → WsTurn} (failed : (readFrames alloc buffer).status ≠ .success) :
    batch alloc buffer turn = [] := by
  unfold batch ReadResult.frames
  rw [if_neg failed]
  rfl

/-- A read step is orderly exactly for the batches that are kept. -/
theorem orderly_iff_kept (callbacks : WsCallbacks) (writeData : Bool) (alloc : Allocator) (buffer : Bytes) (turn : Nat → WsTurn)
    (armed : Bool) : Orderly (readStep { callbacks, writeData } alloc buffer turn armed) ↔
      Kept callbacks (dispatchedTurns (batch alloc buffer turn)) := by
  have open_ : WsSession.Open callbacks { callbacks, writeData } := ⟨rfl, rfl, rfl, rfl⟩
  have failed : Orderly ([use .websocket, use .asyncConn, use .connection] ++
      WsSession.afterStep { callbacks, writeData } .error) :=
    orderly_quiet (List.forall_mem_append.mpr ⟨List.all_eq_true.mp (show List.all _ WsEvent.quiet = true from rfl),
      afterStep_quiet _ .error⟩) (sound_uses (by simp) (afterStep_sound open_ .error))
  unfold readStep
  cases status : (readFrames alloc buffer).status with
  | success =>
    show Orderly ([use .websocket, use .asyncConn, use .connection] ++ _) ↔ _
    rw [orderly_looked (walk_last _ armed _) (pongs_le open_ armed _), walk_orderly_iff open_]
  | incompleteFrame =>
    rw [batch_failed (by rw [status]; decide)]
    have sound : Sound (accesses [use .websocket, use .asyncConn, use .connection]) := by decide
    exact ⟨fun _ => kept_nil, fun _ => orderly_quiet (List.all_eq_true.mp (show List.all _ WsEvent.quiet = true from rfl)) sound⟩
  | allocationFailed =>
    rw [batch_failed (by rw [status]; decide)]
    exact ⟨fun _ => kept_nil, fun _ => failed⟩
  | outOfBounds =>
    rw [batch_failed (by rw [status]; decide)]
    exact ⟨fun _ => kept_nil, fun _ => failed⟩

end WsSession

def oneText : Bytes := [0x81, 0x81, 0, 0, 0, 0, 97]

/-- The handler of a server answers a message by closing: the loop goes on with a websocket that is gone. -/
theorem not_orderly_closing : ¬ ∀ callbacks writeData alloc buffer turn armed,
    Orderly (WsSession.readStep { callbacks, writeData } alloc buffer turn armed) := by
  intro all
  have orderly := all {} false ⟨fun _ => true, fun _ _ => true⟩ oneText (fun _ => { opcode := 0, calls := [.sendClose [3, 232] {}] }) true
  have sound := orderly.sound
  revert sound
  decide +kernel

end BlueBird.WebSocket
