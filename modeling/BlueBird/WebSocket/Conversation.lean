import BlueBird.Connection.Ending
import BlueBird.Connection.ReadBuffer
import BlueBird.WebSocket.Codec
import BlueBird.WebSocket.SendProgress

/-! Two websockets and the bytes between them: the frames that are heard are those that were sent. -/

namespace BlueBird.WebSocket

open BlueBird.Net (AsyncConnection Callback Connection Hosted TransportRead Weather delivered)
open BlueBird.Runtime (Fd eventRead)
open Runs (run Along)

/-! ## What passes through a websocket -/

/-- The frames that were queued, the bytes that the transport took, and the frames that were dispatched. -/
structure Traffic where
  sent : List Sent := []
  wire : Bytes := []
  heard : List Frame := []

namespace Traffic

instance : Append Traffic where
  append a b := { sent := a.sent ++ b.sent, wire := a.wire ++ b.wire, heard := a.heard ++ b.heard }

@[simp] theorem sent_append (a b : Traffic) : (a ++ b).sent = a.sent ++ b.sent := rfl

@[simp] theorem wire_append (a b : Traffic) : (a ++ b).wire = a.wire ++ b.wire := rfl

@[simp] theorem heard_append (a b : Traffic) : (a ++ b).heard = a.heard ++ b.heard := rfl

@[simp] theorem append_empty (a : Traffic) : a ++ {} = a := by
  rcases a with ⟨sent, wire, heard⟩
  show Traffic.mk (sent ++ []) (wire ++ []) (heard ++ []) = _
  rw [List.append_nil, List.append_nil, List.append_nil]

@[simp] theorem empty_append (a : Traffic) : ({} : Traffic) ++ a = a := rfl

end Traffic

namespace Socket

/-- Of `send` -/
def sending (s : Socket) (opcode : Byte) (payload : Bytes) (weather : SendWeather) : Traffic :=
  let (queued, done) := s.queueFrame opcode payload weather
  if done then {
    sent := [⟨weather.mask, opcode, payload⟩]
    wire := (queued.host.conn.connection.map fun conn => conn.accepted queued.contents weather.statuses).getD [] }
  else {}

/-- Of `call` -/
def calling (s : Socket) : SocketCall → Traffic
  | .send kind payload weather => s.sending kind.opcode payload weather
  | .sendClose payload weather => s.sending opClose payload weather
  | .close => {}

def callings (s : Socket) : List SocketCall → Traffic
  | [] => {}
  | call :: calls => s.calling call ++ (s.call call).callings calls

/-- Of `tick` -/
def ticking (s : Socket) (weather : SendWeather) : Traffic :=
  let (heartbeat, action) := s.heartbeat.tick
  match action with
  | .ping => { s with heartbeat }.sending opPing [] weather
  | .close => {}

/-- Of `dispatch`; a frame that no message could be made of is not heard. -/
def dispatching (s : Socket) (frame : Frame) (turn : FrameTurn) : Traffic :=
  let s := { s with heartbeat := s.heartbeat.received }
  match frameKind frame.opcode with
  | .message => if turn.message then { heard := [frame] } ++ s.callings turn.calls else {}
  | .ping => { heard := [frame] } ++ s.sending opPong frame.payload turn.reply
  | .pong => { heard := [frame] } ++ s.callings turn.calls
  | .close => { heard := [frame] } ++ s.sending opClose [3, 232] turn.reply
  | .other => { heard := [frame] }

/-- Of `walk` -/
def walking (s : Socket) : List (Frame × FrameTurn) → Traffic
  | [] => {}
  | (frame, turn) :: turns =>
    s.dispatching frame turn ++
      match s.dispatch frame turn with
      | (_, some _) => {}
      | (s, none) => s.walking turns

/-- Of `readStep` -/
def reading (s : Socket) (weather : StepWeather) : Traffic :=
  match s.host.conn.connection with
  | none => {}
  | some conn =>
    let read := readFrames weather.alloc conn.buffer
    match read.status with
    | .success => { s with host := s.host.perform (.consume read.consumed) }.walking (turns read.frames weather)
    | _ => {}

def due (s : Socket) : Option Net.Side :=
  match s.host.conn.rt.queue with
  | [] => none
  | t :: _ => if (s.host.conn.rt.tasks t).cancelled then none else s.host.conn.side t

def running (s : Socket) (weather : Weather) : Traffic :=
  match s.due, s.host.conn.connection with
  | some .write, some conn => { wire := conn.accepted s.contents weather.statuses }
  | _, _ => {}

def arriving (s : Socket) (weather : Weather) : List TransportRead :=
  match s.due, s.host.conn.connection with
  | some .read, some conn => conn.reads weather.handshake weather.turns
  | _, _ => []

/-- Of `step` -/
def moving (s : Socket) : Move → Traffic
  | .call call => s.calling call
  | .tick weather => s.ticking weather
  | .wait _ => {}
  | .runNext weather => s.running weather
  | .advance weather =>
    match s.host.stack with
    | .pending (.readStep :: _) :: _ => s.reading weather
    | _ => {}

def arrivals (s : Socket) : Move → List TransportRead
  | .runNext weather => s.arriving weather
  | _ => []

end Socket

/-! ## Two of them -/

inductive End where
  | near | far
  deriving DecidableEq

def End.other : End → End
  | .near => .far
  | .far => .near

/-- `way e` are the bytes that the transport took from `e` and that the other end has not read. -/
structure Conversation where
  sockets : End → Socket
  traffic : End → Traffic := fun _ => {}
  way : End → Bytes := fun _ => []

namespace Conversation

def step (c : Conversation) : End × Socket.Move → Option Conversation
  | (e, move) =>
    ((c.sockets e).step move).map fun s => {
      sockets := Function.update c.sockets e s
      traffic := Function.update c.traffic e (c.traffic e ++ (c.sockets e).moving move)
      way := fun f =>
        if f = e then c.way e ++ ((c.sockets e).moving move).wire
        else (c.way f).drop (delivered ((c.sockets e).arrivals move)).length }

def Fitting (payload : Bytes) : Prop := payload.length < 2 ^ 63

def Sizes : SocketCall → Prop
  | .send _ payload _ | .sendClose payload _ => Fitting payload
  | .close => True

def Sized : Socket.Move → Prop
  | .call call => Sizes call
  | .advance weather => ∀ i, ∀ call ∈ (weather.turn i).calls, Sizes call
  | _ => True

/-- A read takes the next of the bytes that are on their way, and no more than it asked for. -/
def InOrder (c : Conversation) (action : End × Socket.Move) : Prop :=
  (∀ r ∈ (c.sockets action.1).arrivals action.2, r.Legal) ∧
    delivered ((c.sockets action.1).arrivals action.2) <+: c.way action.1.other

instance (c : Conversation) (action : End × Socket.Move) : Decidable (c.InOrder action) :=
  inferInstanceAs (Decidable (_ ∧ _ <+: _))

def Remembers : Socket.Move → Prop
  | .advance weather => ∀ i, (weather.turn i).reply.Queued
  | _ => True

end Conversation

namespace Socket

variable {s s' s'' : Socket}

/-! ## What goes out -/

/-- What the transport took and what the write list still holds are the frames that were queued. -/
def Outbound (s : Socket) (sent : List Sent) (wire : Bytes) : Prop :=
  match s.host.conn.connection with
  | none => wire <+: sent.flatMap (Sent.bytes s.mode)
  | some conn => (∀ entry ∈ conn.writeData, Connection.Unfinished s.contents entry) ∧
      wire ++ Connection.unsent s.contents conn.writeData = sent.flatMap (Sent.bytes s.mode)

theorem outbound_some {conn : Connection} (found : s.host.conn.connection = some conn) (sent : List Sent) (wire : Bytes) :
    s.Outbound sent wire ↔ (∀ entry ∈ conn.writeData, Connection.Unfinished s.contents entry) ∧
      wire ++ Connection.unsent s.contents conn.writeData = sent.flatMap (Sent.bytes s.mode) := by
  unfold Outbound
  rw [found]

theorem outbound_none (found : s.host.conn.connection = none) (sent : List Sent) (wire : Bytes) :
    s.Outbound sent wire ↔ wire <+: sent.flatMap (Sent.bytes s.mode) := by
  unfold Outbound
  rw [found]

theorem Outbound.wire_within {sent : List Sent} {wire : Bytes} (outbound : s.Outbound sent wire) :
    wire <+: sent.flatMap (Sent.bytes s.mode) := by
  cases found : s.host.conn.connection with
  | none => exact (outbound_none found sent wire).mp outbound
  | some conn => exact ⟨_, ((outbound_some found sent wire).mp outbound).2⟩

/-- What a part of a step lets through, where it reads nothing. -/
structure Speaks (s : Socket) (t : Traffic) (s' : Socket) : Prop where
  mode : s'.mode = s.mode
  outbound : ∀ sent wire, s.Outbound sent wire → s'.Outbound (sent ++ t.sent) (wire ++ t.wire)
  unread : ∀ conn', s'.host.conn.connection = some conn' → ∃ conn, s.host.conn.connection = some conn ∧
    conn'.readSide = conn.readSide

theorem Speaks.refl (s : Socket) : Speaks s {} s where
  mode := rfl
  outbound sent wire outbound := by
    show s.Outbound (sent ++ []) (wire ++ [])
    rw [List.append_nil, List.append_nil]
    exact outbound
  unread conn' found := ⟨conn', found, rfl⟩

theorem Speaks.trans {t t' : Traffic} (first : Speaks s t s') (second : Speaks s' t' s'') : Speaks s (t ++ t') s'' where
  mode := second.mode.trans first.mode
  outbound sent wire outbound := by
    have both := second.outbound _ _ (first.outbound sent wire outbound)
    rw [List.append_assoc, List.append_assoc] at both
    exact both
  unread conn'' found := by
    rcases second.unread conn'' found with ⟨conn', middle, later⟩
    rcases first.unread conn' middle with ⟨conn, before, same⟩
    exact ⟨conn, before, later.trans same⟩

theorem offered_append {queued : List Bytes} (more : List Bytes) {entry : Net.WriteBuffer}
    (live : Connection.Unfinished (queued.getD · []) entry) :
    Connection.offered ((queued ++ more).getD · []) entry = Connection.offered (queued.getD · []) entry := by
  rcases live with ⟨b, buffer, length, offset⟩
  have held : b < queued.length := by
    by_contra outside
    have empty : queued.getD b [] = [] := List.getD_eq_default _ _ (Nat.le_of_not_lt outside)
    dsimp only at length
    rw [empty, List.length_nil] at length
    omega
  unfold Connection.offered
  rw [buffer]
  dsimp only [Option.map_some, Option.getD_some]
  rw [List.getD_append _ _ _ _ held]

theorem unsent_append {queued : List Bytes} (more : List Bytes) {entries : List Net.WriteBuffer}
    (live : ∀ entry ∈ entries, Connection.Unfinished (queued.getD · []) entry) :
    Connection.unsent ((queued ++ more).getD · []) entries = Connection.unsent (queued.getD · []) entries := by
  unfold Connection.unsent
  exact List.flatMap_congr fun entry member => offered_append more (live entry member)

theorem speaks_of_unpended {host : Hosted}
    (kept : host.conn.connection.map Connection.unpended = s.host.conn.connection.map Connection.unpended) :
    Speaks s {} { s with host } := by
  have before {conn' : Connection} (found : host.conn.connection = some conn') :
      ∃ conn, s.host.conn.connection = some conn ∧ conn.unpended = conn'.unpended := by
    rw [found] at kept
    exact Option.map_eq_some_iff.mp kept.symm
  refine ⟨rfl, ?_, ?_⟩
  · intro sent wire outbound
    show Outbound { s with host } (sent ++ []) (wire ++ [])
    rw [List.append_nil, List.append_nil]
    cases found : host.conn.connection with
    | none => exact (outbound_none found sent wire).mpr outbound.wire_within
    | some conn' =>
      rcases before found with ⟨conn, here, same⟩
      rw [outbound_some (s := { s with host }) found, AsyncConnection.writeData_of_unpended same.symm]
      exact (outbound_some here sent wire).mp outbound
  · intro conn' found
    rcases before found with ⟨conn, here, same⟩
    refine ⟨conn, here, ?_⟩
    show conn'.unpended.readSide = conn.unpended.readSide
    rw [same]

theorem Speaks.restack {t : Traffic} (speaks : Speaks s t s') (stack : List Net.Frame) :
    Speaks s t { s' with host := { s'.host with stack } } where
  mode := speaks.mode
  outbound := speaks.outbound
  unread := speaks.unread

theorem shut_connection (s : Socket) : s.shut.host.conn.connection = none := by
  have kept := (AsyncConnection.handleDisconnect_keeps { s.host.conn with connection := none }).2.connection
  exact Option.map_eq_none_iff.mp kept

theorem speaks_shut (s : Socket) : Speaks s {} s.shut where
  mode := rfl
  outbound sent wire outbound := by
    show s.shut.Outbound (sent ++ []) (wire ++ [])
    rw [List.append_nil, List.append_nil]
    exact (outbound_none s.shut_connection sent wire).mpr outbound.wire_within
  unread conn' found := by
    rw [s.shut_connection] at found
    cases found

theorem speaks_queueFrame (s : Socket) (opcode : Byte) (payload : Bytes) (weather : SendWeather) :
    Speaks s { sent := if (s.queueFrame opcode payload weather).2 then [⟨weather.mask, opcode, payload⟩] else [] }
      (s.queueFrame opcode payload weather).1 := by
  unfold queueFrame
  cases found : s.host.conn.connection with
  | none => exact .refl s
  | some conn =>
    cases weather.frame with
    | false => exact .refl s
    | true =>
      let frame : Sent := ⟨weather.mask, opcode, payload⟩
      let added := conn.bufferAdd (some s.queued.length) (frame.bytes s.mode).length weather.node
      have here : ((s.host.perform (.bufferAdd (some s.queued.length) (frame.bytes s.mode).length weather.node)).conn.connection) =
          some added.1 := by
        show Option.map _ s.host.conn.connection = _
        rw [found, Option.map_some]
      refine ⟨rfl, ?_, ?_⟩
      · intro sent wire outbound
        rcases (outbound_some found sent wire).mp outbound with ⟨live, whole⟩
        have later : ∀ entry ∈ conn.writeData, Connection.Unfinished ((s.queued ++ [frame.bytes s.mode]).getD · []) entry :=
          fun entry member => unfinished_append _ (live entry member)
        have last : (s.queued ++ [frame.bytes s.mode]).getD s.queued.length [] = frame.bytes s.mode := by simp
        have spec := @Connection.bufferAdd_spec ((s.queued ++ [frame.bytes s.mode]).getD · []) conn later s.queued.length
          (frame.bytes s.mode).length (Nat.le_of_eq (congrArg List.length last.symm)) weather.node
        refine (outbound_some here _ _).mpr ⟨spec.1, ?_⟩
        show (wire ++ []) ++ Connection.unsent ((s.queued ++ [frame.bytes s.mode]).getD · []) added.1.writeData = _
        rw [spec.2, unsent_append _ live, List.append_nil, ← List.append_assoc]
        show (wire ++ Connection.unsent s.contents conn.writeData) ++ _ = _
        rw [whole, List.flatMap_append]
        congr 1
        by_cases done : added.2.1 = 0
        · rw [if_pos done, last, List.take_length]
          show _ = List.flatMap _ (if decide (added.2.1 = 0) = true then [frame] else [])
          rw [if_pos (decide_eq_true done)]
          exact (List.flatMap_singleton _ frame).symm
        · rw [if_neg done]
          show _ = List.flatMap _ (if decide (added.2.1 = 0) = true then [frame] else [])
          rw [decide_eq_false done, if_neg Bool.false_ne_true]
          rfl
      · intro conn' after
        have same : conn' = added.1 := Option.some.inj (after.symm.trans here)
        refine ⟨conn, found, ?_⟩
        rw [same]
        exact conn.bufferAdd_readSide _ _ _

theorem speaks_write (s : Socket) (statuses : List Net.TransportStatus) :
    Speaks s { wire := (s.host.conn.connection.map fun conn => conn.accepted s.contents statuses).getD [] } (s.write statuses).1 := by
  cases found : s.host.conn.connection with
  | none =>
    unfold write
    rw [found]
    exact .refl s
  | some conn =>
    have mode : (s.write statuses).1.mode = s.mode := by
      unfold write
      rw [found]
    have contents : (s.write statuses).1.contents = s.contents := by
      unfold write
      rw [found]
      rfl
    have here := write_connection found statuses
    refine ⟨mode, ?_, ?_⟩
    · intro sent wire outbound
      rcases (outbound_some found sent wire).mp outbound with ⟨live, whole⟩
      rcases Connection.write_spec live statuses with ⟨later, parts⟩
      rw [outbound_some here, contents, mode]
      refine ⟨later, ?_⟩
      show (wire ++ conn.accepted s.contents statuses) ++ _ = List.flatMap _ (sent ++ [])
      rw [List.append_nil, List.append_assoc, ← parts]
      exact whole
    · intro conn' after
      have same : conn' = (conn.write statuses).1 := Option.some.inj (after.symm.trans here)
      exact ⟨conn, found, same ▸ conn.write_readSide statuses⟩

theorem speaks_send (s : Socket) (opcode : Byte) (payload : Bytes) (weather : SendWeather) :
    Speaks s (s.sending opcode payload weather) (s.send opcode payload weather).1 := by
  have queued := s.speaks_queueFrame opcode payload weather
  unfold sending
  dsimp only
  cases done : (s.queueFrame opcode payload weather).2 with
  | false =>
    rw [send_failed done, if_neg Bool.false_ne_true]
    rw [done, if_neg Bool.false_ne_true] at queued
    exact queued
  | true =>
    rw [send_queued done, if_pos rfl]
    rw [done, if_pos rfl] at queued
    exact queued.trans (speaks_write _ weather.statuses)

theorem speaks_sendClose (s : Socket) (payload : Bytes) (weather : SendWeather) :
    Speaks s (s.sending opClose payload weather) (s.sendClose payload weather) := by
  have sent := s.speaks_send opClose payload weather
  unfold sendClose
  dsimp only
  split
  · have both := sent.trans (speaks_shut _)
    rw [Traffic.append_empty] at both
    exact both
  · exact sent

theorem speaks_call (s : Socket) (call : SocketCall) : Speaks s (s.calling call) (s.call call) := by
  cases call with
  | send kind payload weather => exact s.speaks_send kind.opcode payload weather
  | sendClose payload weather => exact s.speaks_sendClose payload weather
  | close => exact s.speaks_shut

theorem speaks_calls (s : Socket) (calls : List SocketCall) : Speaks s (s.callings calls) (calls.foldl call s) := by
  induction calls generalizing s with
  | nil => exact .refl s
  | cons call calls ih => exact (s.speaks_call call).trans (ih (s.call call))

theorem Speaks.hears {t : Traffic} (speaks : Speaks s t s') (heard : List Frame) : Speaks s ({ heard } ++ t) s' where
  mode := speaks.mode
  outbound := speaks.outbound
  unread := speaks.unread

theorem Speaks.after_heartbeat {t : Traffic} {heartbeat : Heartbeat} (speaks : Speaks { s with heartbeat } t s') : Speaks s t s' where
  mode := speaks.mode
  outbound := speaks.outbound
  unread := speaks.unread

theorem speaks_tick (s : Socket) (weather : SendWeather) : Speaks s (s.ticking weather) (s.tick weather) := by
  unfold ticking tick
  dsimp only
  cases s.heartbeat.tick.2 with
  | ping => exact (speaks_send { s with heartbeat := s.heartbeat.tick.1 } opPing [] weather).after_heartbeat
  | close => exact (speaks_shut { s with heartbeat := s.heartbeat.tick.1 }).after_heartbeat

theorem speaks_dispatch (s : Socket) (frame : Frame) (turn : FrameTurn) :
    Speaks s (s.dispatching frame turn) (s.dispatch frame turn).1 := by
  apply @Speaks.after_heartbeat _ _ _ s.heartbeat.received
  unfold dispatching dispatch
  dsimp only
  cases frameKind frame.opcode with
  | message =>
    dsimp only
    split
    · exact (speaks_calls _ turn.calls).hears [frame]
    · exact .refl _
  | ping => exact (speaks_send _ opPong frame.payload turn.reply).hears [frame]
  | pong => exact (speaks_calls _ turn.calls).hears [frame]
  | close => exact (speaks_sendClose _ [3, 232] turn.reply).hears [frame]
  | other => exact (Speaks.refl _).hears [frame]

theorem speaks_createTask (s : Socket) {create : AsyncConnection → AsyncConnection × Bool}
    (keeps : AsyncConnection.Keeps s.host.conn (create s.host.conn).1) : Speaks s {} (s.createTask create) := by
  have first : Speaks s {} { s with host := { s.host with conn := (create s.host.conn).1 } } := speaks_of_unpended keeps.connection
  unfold createTask
  dsimp only
  split
  · exact first
  · exact first.trans (speaks_shut _)

theorem speaks_finish (s : Socket) (arming : Net.Arming) : Speaks s {} (s.finish arming) := by
  unfold finish
  split
  · exact .refl s
  · exact s.speaks_createTask (AsyncConnection.createWriteTask_keeps _ arming)

theorem speaks_walk (s : Socket) (arming : Net.Arming) (turns : List (Frame × FrameTurn)) :
    Speaks s (s.walking turns) (s.walk arming turns) := by
  induction turns generalizing s with
  | nil => exact s.speaks_finish arming
  | cons first turns ih =>
    rcases first with ⟨frame, turn⟩
    have one := s.speaks_dispatch frame turn
    unfold walking walk
    generalize s.dispatch frame turn = outcome at one ⊢
    rcases outcome with ⟨next, _ | status⟩
    · exact one.trans (ih next)
    · cases status with
      | error => exact one.trans (speaks_shut next)
      | more => exact one.trans (.refl next)
      | done => exact one.trans (.refl next)

/-! ## What is heard -/

theorem sending_heard (s : Socket) (opcode : Byte) (payload : Bytes) (weather : SendWeather) :
    (s.sending opcode payload weather).heard = [] := by
  unfold sending
  dsimp only
  split <;> rfl

theorem calling_heard (s : Socket) (call : SocketCall) : (s.calling call).heard = [] := by
  cases call with
  | send kind payload weather => exact s.sending_heard kind.opcode payload weather
  | sendClose payload weather => exact s.sending_heard opClose payload weather
  | close => rfl

theorem callings_heard (s : Socket) (calls : List SocketCall) : (s.callings calls).heard = [] := by
  induction calls generalizing s with
  | nil => rfl
  | cons call calls ih =>
    show (s.calling call).heard ++ ((s.call call).callings calls).heard = []
    rw [s.calling_heard call, ih]
    rfl

theorem ticking_heard (s : Socket) (weather : SendWeather) : (s.ticking weather).heard = [] := by
  unfold ticking
  dsimp only
  cases s.heartbeat.tick.2 with
  | ping => exact sending_heard _ opPing [] weather
  | close => rfl

theorem dispatching_heard (s : Socket) (frame : Frame) (turn : FrameTurn) :
    (s.dispatching frame turn).heard = [frame] ∨
      (s.dispatching frame turn).heard = [] ∧ (s.dispatch frame turn).2 = some .error := by
  unfold dispatching dispatch
  cases frameKind frame.opcode with
  | message =>
    dsimp only
    split
    · left
      rw [Traffic.heard_append, callings_heard]
      rfl
    · exact Or.inr ⟨rfl, rfl⟩
  | ping =>
    left
    dsimp only
    rw [Traffic.heard_append, sending_heard]
    rfl
  | pong =>
    left
    dsimp only
    rw [Traffic.heard_append, callings_heard]
    rfl
  | close =>
    left
    dsimp only
    rw [Traffic.heard_append, sending_heard]
    rfl
  | other => exact Or.inl rfl

theorem dispatch_status (s : Socket) (frame : Frame) (turn : FrameTurn) :
    (s.dispatch frame turn).2 = none ∨ (s.dispatch frame turn).2 = some .error ∨
      (s.dispatch frame turn).2 = some .done ∧ frameKind frame.opcode = .close := by
  unfold dispatch
  cases frameKind frame.opcode with
  | message =>
    dsimp only
    split
    · exact Or.inl rfl
    · exact Or.inr (Or.inl rfl)
  | ping => exact Or.inl rfl
  | pong => exact Or.inl rfl
  | close => exact Or.inr (Or.inr ⟨rfl, rfl⟩)
  | other => exact Or.inl rfl

/-- The frames of a batch are heard in order up to a CLOSE frame, all of them if there is none and the connection lasts. -/
theorem walking_heard (s : Socket) (arming : Net.Arming) (turns : List (Frame × FrameTurn)) :
    (s.walking turns).heard <+: turns.map Prod.fst ∧
      ((s.walk arming turns).host.conn.connection ≠ none → (∀ frame ∈ (s.walking turns).heard, frameKind frame.opcode ≠ .close) →
        (s.walking turns).heard = turns.map Prod.fst) := by
  induction turns generalizing s with
  | nil => exact ⟨List.prefix_refl [], fun _ _ => rfl⟩
  | cons first turns ih =>
    rcases first with ⟨frame, turn⟩
    have heard := s.dispatching_heard frame turn
    have ends := s.dispatch_status frame turn
    unfold walking walk
    generalize s.dispatch frame turn = outcome at heard ends ⊢
    rcases outcome with ⟨next, _ | status⟩
    · rcases heard with one | ⟨_, failed⟩
      · dsimp only
        rw [Traffic.heard_append, one, List.map_cons]
        refine ⟨(List.prefix_append_right_inj [frame]).mpr (ih next).1, ?_⟩
        intro open_ none_
        have rest := (ih next).2 open_ fun f member => none_ f (List.mem_cons_of_mem _ member)
        rw [rest]
        rfl
      · cases failed
    · dsimp only
      rw [Traffic.append_empty, List.map_cons]
      rcases ends with more | failed | ⟨stopped, close⟩
      · cases more
      · cases failed
        refine ⟨?_, fun open_ => absurd next.shut_connection open_⟩
        rcases heard with one | ⟨none_, _⟩
        · rw [one]
          exact ⟨_, rfl⟩
        · rw [none_]
          exact List.nil_prefix
      · cases stopped
        rcases heard with one | ⟨_, failed⟩
        · rw [one]
          refine ⟨⟨_, rfl⟩, fun _ none_ => ?_⟩
          exact absurd close (none_ frame (List.mem_singleton_self frame))
        · cases failed

/-! ## Steps -/

/-- What a step lets through that dispatches nothing: the reads go into the buffer. -/
structure Carries (s : Socket) (t : Traffic) (reads : List TransportRead) (s' : Socket) : Prop where
  mode : s'.mode = s.mode
  silent : t.heard = []
  outbound : ∀ sent wire, s.Outbound sent wire → s'.Outbound (sent ++ t.sent) (wire ++ t.wire)
  read : ∀ conn', s'.host.conn.connection = some conn' → ∃ conn, s.host.conn.connection = some conn ∧
    (conn.Fits → (∀ r ∈ reads, r.Legal) → conn'.buffer = conn.buffer ++ delivered reads ∧ conn'.Fits)

theorem Speaks.carries {t : Traffic} (speaks : Speaks s t s') (silent : t.heard = []) : Carries s t [] s' where
  mode := speaks.mode
  silent := silent
  outbound := speaks.outbound
  read conn' found := by
    rcases speaks.unread conn' found with ⟨conn, before, same⟩
    refine ⟨conn, before, fun fits _ => ⟨?_, .of_readSide same fits⟩⟩
    exact (congrArg Prod.fst same).trans (List.append_nil _).symm

theorem afterWrite_connection (a : AsyncConnection) (t : Runtime.TaskId) (conn : Connection) (outcome : Net.Outcome) (arming : Net.Arming) :
    (a.afterWrite t conn outcome arming).1.connection.map Connection.unpended = a.connection.map Connection.unpended := by
  by_cases closed : outcome = .connectionClosed
  · rw [closed]
    exact (AsyncConnection.handleDisconnect_keeps (a.cancelTask t)).2.connection.trans (AsyncConnection.cancelTask_keeps a t).connection
  · exact (a.afterWrite_reports t conn outcome arming closed).keeps.connection

theorem afterRead_connection (a : AsyncConnection) (t : Runtime.TaskId) (conn : Connection) (outcome : Net.ReadOutcome)
    (arming : Net.Arming) :
    (a.afterRead t conn outcome arming).1.connection.map Connection.unpended = a.connection.map Connection.unpended := by
  by_cases closed : outcome = .connectionClosed
  · rw [closed]
    exact (AsyncConnection.handleDisconnect_keeps a).2.connection
  · exact (a.afterRead_reports t conn outcome arming closed).keeps.connection

theorem speaks_runWriteTask (s : Socket) {conn : Connection} (found : s.host.conn.connection = some conn) {host : Hosted}
    (statuses : List Net.TransportStatus)
    (kept : host.conn.connection.map Connection.unpended = some (conn.write statuses).1.unpended) :
    Speaks s { wire := conn.accepted s.contents statuses } { s with host } := by
  have written := s.speaks_write statuses
  have after : (s.write statuses).1 = { s with host := s.host.perform (.write statuses) } := by
    unfold write
    rw [found]
  rw [found] at written
  dsimp only [Option.map_some, Option.getD_some] at written
  have last : Speaks (s.write statuses).1 {} { (s.write statuses).1 with host } := by
    apply speaks_of_unpended
    rw [kept, write_connection found statuses, Option.map_some]
  have both := written.trans last
  rw [Traffic.append_empty] at both
  rw [after] at both
  exact both

theorem carries_runReadTask (s : Socket) {conn : Connection} (found : s.host.conn.connection = some conn) {host : Hosted}
    (handshake : Net.Handshake) (turns : List Net.ReadTurn)
    (kept : host.conn.connection.map Connection.unpended = some (conn.read handshake turns).1.unpended) :
    Carries s {} (conn.reads handshake turns) { s with host } := by
  have after {conn' : Connection} (here : host.conn.connection = some conn') : conn'.unpended = (conn.read handshake turns).1.unpended := by
    rw [here] at kept
    exact Option.some.inj kept
  refine ⟨rfl, rfl, ?_, ?_⟩
  · intro sent wire outbound
    show Outbound { s with host } (sent ++ []) (wire ++ [])
    rw [List.append_nil, List.append_nil]
    cases here : host.conn.connection with
    | none => exact (outbound_none here sent wire).mpr outbound.wire_within
    | some conn' =>
      rw [outbound_some (s := { s with host }) here, AsyncConnection.writeData_of_unpended (after here), Connection.read_writeData]
      exact (outbound_some found sent wire).mp outbound
  · intro conn' here
    refine ⟨conn, found, ?_⟩
    intro fits legal
    have exactly_ := Connection.read_exactly handshake turns fits legal
    have same : conn'.readSide = (conn.read handshake turns).1.readSide := by
      show conn'.unpended.readSide = (conn.read handshake turns).1.unpended.readSide
      rw [after here]
    exact ⟨(congrArg Prod.fst same).trans exactly_.buffer, .of_readSide same exactly_.fits⟩

theorem carries_runNext (s : Socket) (weather : Weather) :
    Carries s (s.running weather) (s.arriving weather) { s with host := s.host.runNext weather } := by
  rcases s.host.runNext_cases weather with ⟨idle, same⟩ | ⟨t, queue, scheduled, ⟨cancelled, same⟩ | ⟨live, same⟩⟩
  · have due : s.due = none := by
      unfold due
      rw [idle]
    unfold running arriving
    rw [due, same]
    exact (Speaks.refl s).carries rfl
  · have due : s.due = none := by
      unfold due
      rw [scheduled]
      exact if_pos cancelled
    unfold running arriving
    rw [due, same]
    apply Speaks.carries _ rfl
    apply speaks_of_unpended
    rcases (s.host.dequeue t queue).settle_keeps t with ⟨conn, keeps, settled⟩
    rw [settled]
    exact keeps.connection
  · have due : s.due = s.host.conn.side t := by
      unfold due
      rw [scheduled]
      dsimp only
      rw [live, if_neg Bool.false_ne_true]
    unfold running arriving
    rw [due, same]
    unfold Hosted.runTask
    dsimp only
    have side : ((s.host.dequeue t queue).modifyTask t fun task => { task with running := true }).conn.side t = s.host.conn.side t := rfl
    rw [side]
    cases s.host.conn.side t with
    | none =>
      apply Speaks.carries _ rfl
      exact speaks_of_unpended rfl
    | some which =>
      let started := (s.host.dequeue t queue).modifyTask t fun task => { task with running := true }
      have here : started.conn.connection = s.host.conn.connection := rfl
      cases found : s.host.conn.connection with
      | none =>
        cases which with
        | write =>
          apply Speaks.carries _ rfl
          apply speaks_of_unpended
          show (started.conn.runWriteTask t weather.statuses weather.arming).1.connection.map _ = _
          unfold AsyncConnection.runWriteTask
          rw [here, found]
          dsimp only
          rw [(AsyncConnection.cancelTask_keeps started.conn t).connection, here, found]
        | read =>
          apply Speaks.carries _ rfl
          apply speaks_of_unpended
          show (started.conn.runReadTask t weather.handshake weather.turns weather.arming).1.connection.map _ = _
          unfold AsyncConnection.runReadTask
          rw [here, found]
          dsimp only
          rw [(AsyncConnection.cancelTask_keeps started.conn t).connection, here, found]
      | some conn =>
        have again : started.conn.connection = some conn := here.trans found
        cases which with
        | write =>
          dsimp only
          apply Speaks.carries _ rfl
          apply speaks_runWriteTask s found
          show (started.conn.runWriteTask t weather.statuses weather.arming).1.connection.map _ = _
          rw [AsyncConnection.runWriteTask_eq again]
          exact afterWrite_connection _ t _ _ weather.arming
        | read =>
          dsimp only
          apply carries_runReadTask s found
          show (started.conn.runReadTask t weather.handshake weather.turns weather.arming).1.connection.map _ = _
          rw [AsyncConnection.runReadTask_eq again]
          exact afterRead_connection _ t _ _ weather.arming

theorem step_carries {move : Move} (taken : s.step move = some s') :
    Carries s (s.moving move) (s.arrivals move) s' ∨
      ∃ weather callbacks rest, move = .advance weather ∧ s.host.stack = .pending (.readStep :: callbacks) :: rest ∧
        s' = { s.readStep weather with host := { (s.readStep weather).host with stack := Net.pend callbacks rest } } := by
  cases move with
  | call call =>
    simp only [Socket.step, Option.ite_none_right_eq_some, Option.some.injEq] at taken
    rcases taken with ⟨_, rfl⟩
    exact Or.inl ((s.speaks_call call).carries (s.calling_heard call))
  | tick weather =>
    simp only [Socket.step, Option.ite_none_right_eq_some, Option.some.injEq] at taken
    rcases taken with ⟨_, rfl⟩
    exact Or.inl ((s.speaks_tick weather).carries (s.ticking_heard weather))
  | wait ready =>
    rcases Option.map_eq_some_iff.mp taken with ⟨host, waited, rfl⟩
    simp only [Hosted.step, Option.ite_none_right_eq_some, Option.some.injEq] at waited
    rcases waited with ⟨_, rfl⟩
    refine Or.inl (Speaks.carries ?_ rfl)
    exact @speaks_of_unpended s _ rfl
  | runNext weather =>
    rcases Option.map_eq_some_iff.mp taken with ⟨host, ran, rfl⟩
    simp only [Hosted.step, Option.ite_none_right_eq_some, Option.some.injEq] at ran
    rcases ran with ⟨_, rfl⟩
    exact Or.inl (s.carries_runNext weather)
  | advance weather =>
    dsimp only [Socket.step] at taken
    split at taken
    · rename_i callback callbacks rest stack
      cases taken
      have quiet : callback ≠ .readStep → s.moving (.advance weather) = {} := by
        intro other
        unfold moving
        rw [stack]
        cases callback with
        | readStep => exact absurd rfl other
        | _ => rfl
      cases callback with
      | readStep => exact Or.inr ⟨weather, callbacks, rest, rfl, stack, rfl⟩
      | writeSuccess =>
        rw [quiet (by decide)]
        exact Or.inl (((s.speaks_createTask (AsyncConnection.createReadTask_keeps _ weather.arming)).restack _).carries rfl)
      | writeFailure =>
        rw [quiet (by decide)]
        exact Or.inl ((s.speaks_shut.restack _).carries rfl)
      | readError =>
        rw [quiet (by decide)]
        exact Or.inl ((s.speaks_shut.restack _).carries rfl)
      | disconnect =>
        rw [quiet (by decide)]
        exact Or.inl (((Speaks.refl s).restack _).carries rfl)
    · rename_i t rest stack
      cases taken
      have quiet : s.moving (.advance weather) = {} := by
        unfold moving
        rw [stack]
      rw [quiet]
      refine Or.inl (Speaks.carries ?_ rfl)
      apply speaks_of_unpended
      rcases ({ s.host with stack := rest }.modifyTask t fun task => { task with running := false }).settle_keeps t with
        ⟨conn, keeps, settled⟩
      show Option.map _ (Hosted.settle _ t).conn.connection = _
      rw [settled]
      exact keeps.connection
    · cases taken

/-! ## A read step -/

theorem readFrames_left (alloc : Allocator) (buffer : Bytes) :
    (readFrames alloc buffer).buffer = buffer.drop (readFrames alloc buffer).consumed ∧
      ((readFrames alloc buffer).status ≠ .success → (readFrames alloc buffer).frames = [] ∧ (readFrames alloc buffer).buffer = buffer) := by
  unfold readFrames
  generalize readLoop alloc buffer (buffer.length + 1) [] 0 = looped
  rcases looped with ⟨status, accepted, consumed⟩
  cases status with
  | success =>
    dsimp only
    by_cases nothing : consumed = 0
    · rw [if_pos nothing]
      exact ⟨rfl, fun _ => ⟨rfl, rfl⟩⟩
    · rw [if_neg nothing]
      exact ⟨rfl, fun other => absurd rfl other⟩
  | incompleteFrame => exact ⟨rfl, fun _ => ⟨rfl, rfl⟩⟩
  | allocationFailed => exact ⟨rfl, fun _ => ⟨rfl, rfl⟩⟩
  | outOfBounds => exact ⟨rfl, fun _ => ⟨rfl, rfl⟩⟩

theorem readFrames_front {mode : Mode} {todo : List Sent} (opcodes : ∀ s ∈ todo, s.opcode < 16)
    (fits : ∀ s ∈ todo, (s.bytes mode).length < 2 ^ 64) (alloc : Allocator) {buffer after : Bytes}
    (stream : todo.flatMap (Sent.bytes mode) = buffer ++ after) :
    ∃ more later, todo = more ++ later ∧ (readFrames alloc buffer).frames = more.map (Sent.frame mode) ∧
      more.flatMap (Sent.bytes mode) ++ (readFrames alloc buffer).buffer = buffer := by
  have start : Receiver.Splits mode todo [] todo buffer ⟨[], buffer⟩ := ⟨rfl, rfl, rfl⟩
  have whole : todo.flatMap (Sent.bytes mode) = buffer ++ [] ++ after := by rw [List.append_nil, stream]
  rcases start.read opcodes fits alloc [] after whole with ⟨more, later, ⟨parts, frames, bytes⟩, _⟩
  unfold Receiver.read at frames bytes
  dsimp only at frames bytes
  rw [List.append_nil] at frames bytes
  exact ⟨more, later, parts, frames, bytes⟩

theorem turns_map (frames : List Frame) (weather : StepWeather) : (turns frames weather).map Prod.fst = frames := by
  unfold turns
  apply List.ext_getElem
  · simp
  · intro i _ _
    simp

/-- What a read step lets through, and leaves in the buffer. -/
structure Hears (s : Socket) (weather : StepWeather) (more : List Frame) (left : Bytes) : Prop where
  mode : (s.readStep weather).mode = s.mode
  outbound : ∀ sent wire, s.Outbound sent wire →
    (s.readStep weather).Outbound (sent ++ (s.reading weather).sent) (wire ++ (s.reading weather).wire)
  heard : (s.reading weather).heard <+: more
  left : ∀ conn', (s.readStep weather).host.conn.connection = some conn' → ∃ conn, s.host.conn.connection = some conn ∧
    (conn.Fits → conn'.buffer = left ∧ conn'.Fits) ∧
    ((∀ frame ∈ (s.reading weather).heard, frameKind frame.opcode ≠ .close) → (s.reading weather).heard = more)

theorem hears_none (found : s.host.conn.connection = none) (weather : StepWeather) : Hears s weather [] [] := by
  have after : s.readStep weather = s.shut := by
    unfold readStep
    rw [found]
  have nothing : s.reading weather = {} := by
    unfold reading
    rw [found]
  refine ⟨(congrArg Socket.mode after).trans rfl, ?_, ?_, ?_⟩
  · rw [nothing, after]
    exact s.speaks_shut.outbound
  · rw [nothing]
  · intro conn' here
    rw [after, s.shut_connection] at here
    cases here

theorem hears_readFrames {conn : Connection} (found : s.host.conn.connection = some conn) (weather : StepWeather) :
    Hears s weather (readFrames weather.alloc conn.buffer).frames (readFrames weather.alloc conn.buffer).buffer := by
  rcases readFrames_left weather.alloc conn.buffer with ⟨left, failed⟩
  by_cases success : (readFrames weather.alloc conn.buffer).status = .success
  · let start : Socket := { s with host := s.host.perform (.consume (readFrames weather.alloc conn.buffer).consumed) }
    let after : Connection := { conn with buffer := conn.buffer.drop (readFrames weather.alloc conn.buffer).consumed }
    have here : start.host.conn.connection = some after := by
      show Option.map _ s.host.conn.connection = _
      rw [found, Option.map_some]
    have stepped : s.readStep weather = start.walk weather.arming (turns (readFrames weather.alloc conn.buffer).frames weather) := by
      unfold readStep
      rw [found]
      dsimp only
      rw [success]
    have through : s.reading weather = start.walking (turns (readFrames weather.alloc conn.buffer).frames weather) := by
      unfold reading
      rw [found]
      dsimp only
      rw [success]
    have speaks := start.speaks_walk weather.arming (turns (readFrames weather.alloc conn.buffer).frames weather)
    have heard := start.walking_heard weather.arming (turns (readFrames weather.alloc conn.buffer).frames weather)
    rw [turns_map, ← through, ← stepped] at heard
    rw [← through, ← stepped] at speaks
    refine ⟨speaks.mode, ?_, heard.1, ?_⟩
    · intro sent wire outbound
      apply speaks.outbound
      exact (outbound_some here sent wire).mpr ((outbound_some found sent wire).mp outbound)
    · intro conn' last
      rcases speaks.unread conn' last with ⟨middle, there, same⟩
      have reached : middle = after := Option.some.inj (there.symm.trans here)
      subst reached
      refine ⟨conn, found, ?_, heard.2 (by rw [last]; exact Option.some_ne_none conn')⟩
      intro fits
      refine ⟨(congrArg Prod.fst same).trans left.symm, .of_readSide same ⟨?_, fits.limit⟩⟩
      show (conn.buffer.drop _).length < conn.bufferCapacity
      rw [List.length_drop]
      exact Nat.lt_of_le_of_lt (Nat.sub_le _ _) fits.room
  · rcases failed success with ⟨none_, same⟩
    have nothing : s.reading weather = {} := by
      unfold reading
      rw [found]
      dsimp only
      split
      · exact absurd ‹_› success
      · rfl
    rw [none_, same]
    have either : s.readStep weather = s ∨ s.readStep weather = s.shut := by
      unfold readStep
      rw [found]
      dsimp only
      split
      · exact Or.inl rfl
      · exact absurd ‹_› success
      · exact Or.inr rfl
    rcases either with after | after
    · refine ⟨congrArg Socket.mode after, ?_, ?_, ?_⟩
      · rw [nothing, after]
        exact (Speaks.refl s).outbound
      · rw [nothing]
      · intro conn' here
        rw [after] at here
        have reached : conn' = conn := Option.some.inj (here.symm.trans found)
        subst reached
        exact ⟨conn', found, fun fits => ⟨rfl, fits⟩, fun _ => by rw [nothing]⟩
    · refine ⟨(congrArg Socket.mode after).trans rfl, ?_, ?_, ?_⟩
      · rw [nothing, after]
        exact s.speaks_shut.outbound
      · rw [nothing]
      · intro conn' here
        rw [after, s.shut_connection] at here
        cases here

end Socket

/-! ## Pings and their answers -/

def sentPayloads (opcode : Byte) (sent : List Sent) : List Bytes := (sent.filter (·.opcode == opcode)).map Sent.payload

def heardPayloads (opcode : Byte) (heard : List Frame) : List Bytes := (heard.filter (·.opcode == opcode)).map Frame.payload

theorem sentPayloads_append (opcode : Byte) (front back : List Sent) :
    sentPayloads opcode (front ++ back) = sentPayloads opcode front ++ sentPayloads opcode back := by
  unfold sentPayloads
  rw [List.filter_append, List.map_append]

theorem heardPayloads_append (opcode : Byte) (front back : List Frame) :
    heardPayloads opcode (front ++ back) = heardPayloads opcode front ++ heardPayloads opcode back := by
  unfold heardPayloads
  rw [List.filter_append, List.map_append]

theorem heardPayloads_frame (opcode : Byte) (mode : Mode) (sent : List Sent) :
    heardPayloads opcode (sent.map (Sent.frame mode)) = sentPayloads opcode sent := by
  unfold heardPayloads sentPayloads
  rw [List.filter_map, List.map_map]
  rfl

theorem heardPayloads_sublist {heard frames : List Frame} (opcode : Byte) (some_ : heard.Sublist frames) :
    (heardPayloads opcode heard).Sublist (heardPayloads opcode frames) := (some_.filter _).map _

theorem heardPayloads_other {opcode : Byte} {frame : Frame} (other : frame.opcode ≠ opcode) : heardPayloads opcode [frame] = [] := by
  unfold heardPayloads
  rw [List.filter_cons_of_neg (by simpa using other)]
  rfl

theorem frameKind_ping {opcode : Byte} : frameKind opcode = .ping ↔ opcode = opPing := by
  revert opcode
  apply forall_byte
  decide +kernel

namespace Socket

variable {s s' : Socket}

theorem sending_sent (s : Socket) (opcode : Byte) (payload : Bytes) (weather : SendWeather) :
    (s.sending opcode payload weather).sent =
      if (s.queueFrame opcode payload weather).2 then [⟨weather.mask, opcode, payload⟩] else [] := by
  unfold sending
  dsimp only
  split <;> rfl

theorem sending_pongs {opcode : Byte} (other : opcode ≠ opPong) (s : Socket) (payload : Bytes) (weather : SendWeather) :
    sentPayloads opPong (s.sending opcode payload weather).sent = [] := by
  rw [sending_sent]
  unfold sentPayloads
  split
  · rw [List.filter_cons_of_neg (by simpa using other)]
    rfl
  · rfl

theorem calling_pongs (s : Socket) (call : SocketCall) : sentPayloads opPong (s.calling call).sent = [] := by
  cases call with
  | send kind payload weather =>
    apply sending_pongs
    cases kind <;> decide
  | sendClose payload weather => exact sending_pongs (by decide) s payload weather
  | close => rfl

theorem callings_pongs (s : Socket) (calls : List SocketCall) : sentPayloads opPong (s.callings calls).sent = [] := by
  induction calls generalizing s with
  | nil => rfl
  | cons call calls ih =>
    unfold callings
    rw [Traffic.sent_append, sentPayloads_append, s.calling_pongs call, ih]
    rfl

theorem ticking_pongs (s : Socket) (weather : SendWeather) : sentPayloads opPong (s.ticking weather).sent = [] := by
  unfold ticking
  dsimp only
  cases s.heartbeat.tick.2 with
  | ping => exact sending_pongs (by decide) _ [] weather
  | close => rfl

theorem dispatching_pongs (s : Socket) (frame : Frame) (turn : FrameTurn) :
    (sentPayloads opPong (s.dispatching frame turn).sent).Sublist (heardPayloads opPing (s.dispatching frame turn).heard) ∧
      (turn.reply.Queued → (s.dispatch frame turn).1.host.conn.connection ≠ none →
        sentPayloads opPong (s.dispatching frame turn).sent = heardPayloads opPing (s.dispatching frame turn).heard) := by
  have lasts : (s.dispatch frame turn).1.host.conn.connection ≠ none → ∃ conn, s.host.conn.connection = some conn := by
    intro open_
    rcases Option.ne_none_iff_exists'.mp open_ with ⟨conn', found⟩
    rcases (s.speaks_dispatch frame turn).unread conn' found with ⟨conn, before, _⟩
    exact ⟨conn, before⟩
  have none_ {kind : FrameKind} (is : frameKind frame.opcode = kind) (other : kind ≠ .ping) : heardPayloads opPing [frame] = [] := by
    apply heardPayloads_other
    intro ping
    exact other (is.symm.trans (frameKind_ping.mpr ping))
  unfold dispatching
  dsimp only
  cases kind : frameKind frame.opcode with
  | message =>
    dsimp only
    split
    · rw [Traffic.sent_append, Traffic.heard_append, callings_heard, List.append_nil, none_ kind (by decide)]
      have quiet : sentPayloads opPong (([] : List Sent) ++ (callings { s with heartbeat := s.heartbeat.received } turn.calls).sent) = [] :=
        callings_pongs _ turn.calls
      rw [quiet]
      exact ⟨List.Sublist.refl _, fun _ _ => rfl⟩
    · exact ⟨List.Sublist.refl _, fun _ _ => rfl⟩
  | ping =>
    dsimp only
    rw [Traffic.sent_append, Traffic.heard_append, sending_heard, sending_sent]
    have heard : heardPayloads opPing ([frame] ++ []) = [frame.payload] := by
      unfold heardPayloads
      rw [List.append_nil, List.filter_cons_of_pos (by simpa using frameKind_ping.mp kind)]
      rfl
    rw [heard]
    constructor
    · split
      · exact List.Sublist.refl _
      · exact List.nil_sublist _
    · intro queued open_
      rcases lasts open_ with ⟨conn, before⟩
      have done := (queueFrame_done (s := { s with heartbeat := s.heartbeat.received }) opPong frame.payload turn.reply before).mpr queued
      rw [done, if_pos rfl]
      rfl
  | pong =>
    dsimp only
    rw [Traffic.sent_append, Traffic.heard_append, callings_heard, List.append_nil, none_ kind (by decide)]
    have quiet : sentPayloads opPong (([] : List Sent) ++ (callings { s with heartbeat := s.heartbeat.received } turn.calls).sent) = [] :=
      callings_pongs _ turn.calls
    rw [quiet]
    exact ⟨List.Sublist.refl _, fun _ _ => rfl⟩
  | close =>
    dsimp only
    rw [Traffic.sent_append, Traffic.heard_append, sending_heard, List.append_nil, none_ kind (by decide)]
    have quiet : sentPayloads opPong
        (([] : List Sent) ++ (sending { s with heartbeat := s.heartbeat.received } opClose [3, 232] turn.reply).sent) = [] :=
      sending_pongs (by decide) _ [3, 232] turn.reply
    rw [quiet]
    exact ⟨List.Sublist.refl _, fun _ _ => rfl⟩
  | other =>
    dsimp only
    rw [none_ kind (by decide)]
    exact ⟨List.Sublist.refl _, fun _ _ => rfl⟩

theorem walking_pongs (s : Socket) (arming : Net.Arming) (turns : List (Frame × FrameTurn)) :
    (sentPayloads opPong (s.walking turns).sent).Sublist (heardPayloads opPing (s.walking turns).heard) ∧
      ((∀ turn ∈ turns, turn.2.reply.Queued) → (s.walk arming turns).host.conn.connection ≠ none →
        sentPayloads opPong (s.walking turns).sent = heardPayloads opPing (s.walking turns).heard) := by
  induction turns generalizing s with
  | nil => exact ⟨List.Sublist.refl _, fun _ _ => rfl⟩
  | cons first turns ih =>
    rcases first with ⟨frame, turn⟩
    have pongs := s.dispatching_pongs frame turn
    unfold walking walk
    generalize s.dispatch frame turn = outcome at pongs ⊢
    rcases outcome with ⟨next, _ | status⟩
    · dsimp only at pongs ⊢
      rw [Traffic.sent_append, Traffic.heard_append, sentPayloads_append, heardPayloads_append]
      refine ⟨pongs.1.append (ih next).1, ?_⟩
      intro queued open_
      rcases List.forall_mem_cons.mp queued with ⟨now, later⟩
      have still : next.host.conn.connection ≠ none := by
        rcases Option.ne_none_iff_exists'.mp open_ with ⟨conn', found⟩
        rcases (next.speaks_walk arming turns).unread conn' found with ⟨conn, before, _⟩
        rw [before]
        exact Option.some_ne_none conn
      rw [pongs.2 now still, (ih next).2 later open_]
    · dsimp only at pongs ⊢
      rw [Traffic.append_empty]
      refine ⟨pongs.1, ?_⟩
      intro queued open_
      rcases List.forall_mem_cons.mp queued with ⟨now, _⟩
      cases status with
      | error => exact absurd next.shut_connection open_
      | more => exact pongs.2 now open_
      | done => exact pongs.2 now open_

end Socket

/-! ## Frames that can be read back -/

def Sent.Small (sent : Sent) : Prop := sent.opcode < 16 ∧ Conversation.Fitting sent.payload

theorem Sent.Small.length {sent : Sent} (small : sent.Small) (mode : Mode) : (sent.bytes mode).length < 2 ^ 64 := by
  have fits : sent.payload.length < 2 ^ 63 := small.2
  have extended : extLen sent.payload.length ≤ 8 := by
    unfold extLen
    split_ifs <;> omega
  rw [sent.length_bytes mode]
  show 2 + extLen sent.payload.length + (if mode = .client then 4 else 0) + sent.payload.length < 2 ^ 64
  split <;> omega

namespace Socket

theorem sending_small {opcode : Byte} (known : opcode < 16) {payload : Bytes} (fits : Conversation.Fitting payload) (s : Socket)
    (weather : SendWeather) : ∀ sent ∈ (s.sending opcode payload weather).sent, sent.Small := by
  rw [sending_sent]
  split
  · intro sent member
    rcases List.mem_singleton.mp member with rfl
    exact ⟨known, fits⟩
  · intro sent member
    cases member

theorem calling_small {call : SocketCall} (sizes : Conversation.Sizes call) (s : Socket) :
    ∀ sent ∈ (s.calling call).sent, sent.Small := by
  cases call with
  | send kind payload weather =>
    apply sending_small _ sizes
    cases kind <;> decide
  | sendClose payload weather => exact sending_small (by decide) sizes s weather
  | close =>
    intro sent member
    cases member

theorem callings_small {calls : List SocketCall} (sizes : ∀ call ∈ calls, Conversation.Sizes call) (s : Socket) :
    ∀ sent ∈ (s.callings calls).sent, sent.Small := by
  induction calls generalizing s with
  | nil =>
    intro sent member
    cases member
  | cons call calls ih =>
    rcases List.forall_mem_cons.mp sizes with ⟨now, later⟩
    intro sent member
    rcases List.mem_append.mp member with here | there
    · exact calling_small now s sent here
    · exact ih later (s.call call) sent there

theorem ticking_small (s : Socket) (weather : SendWeather) : ∀ sent ∈ (s.ticking weather).sent, sent.Small := by
  unfold ticking
  dsimp only
  cases s.heartbeat.tick.2 with
  | ping => exact sending_small (by decide) (show Conversation.Fitting [] from Nat.two_pow_pos 63) _ weather
  | close =>
    intro sent member
    cases member

theorem dispatching_small {frame : Frame} {turn : FrameTurn} (fits : Conversation.Fitting frame.payload)
    (sizes : ∀ call ∈ turn.calls, Conversation.Sizes call) (s : Socket) : ∀ sent ∈ (s.dispatching frame turn).sent, sent.Small := by
  unfold dispatching
  dsimp only
  cases frameKind frame.opcode with
  | message =>
    dsimp only
    split
    · exact callings_small sizes _
    · intro sent member
      cases member
  | ping => exact sending_small (by decide) fits _ turn.reply
  | pong => exact callings_small sizes _
  | close => exact sending_small (by decide) (by show 2 < 2 ^ 63; decide : Conversation.Fitting [3, 232]) _ turn.reply
  | other =>
    intro sent member
    cases member

theorem walking_small {turns : List (Frame × FrameTurn)}
    (sizes : ∀ turn ∈ turns, Conversation.Fitting turn.1.payload ∧ ∀ call ∈ turn.2.calls, Conversation.Sizes call) (s : Socket) :
    ∀ sent ∈ (s.walking turns).sent, sent.Small := by
  induction turns generalizing s with
  | nil =>
    intro sent member
    cases member
  | cons first turns ih =>
    rcases first with ⟨frame, turn⟩
    rcases List.forall_mem_cons.mp sizes with ⟨⟨fits, calls⟩, later⟩
    have one := dispatching_small fits calls s
    unfold walking
    generalize s.dispatch frame turn = outcome
    rcases outcome with ⟨next, _ | status⟩
    · intro sent member
      rcases List.mem_append.mp member with here | there
      · exact one sent here
      · exact ih later next sent there
    · rw [Traffic.append_empty]
      exact one

theorem reading_small {weather : StepWeather} {conn : Connection} {s : Socket} (found : s.host.conn.connection = some conn)
    (fits : ∀ frame ∈ (readFrames weather.alloc conn.buffer).frames, Conversation.Fitting frame.payload)
    (sizes : ∀ i, ∀ call ∈ (weather.turn i).calls, Conversation.Sizes call) : ∀ sent ∈ (s.reading weather).sent, sent.Small := by
  unfold reading
  rw [found]
  dsimp only
  split
  · apply walking_small
    intro turn member
    rcases List.mem_mapIdx.mp member with ⟨i, inside, rfl⟩
    exact ⟨fits _ (List.getElem_mem inside), sizes i⟩
  · intro sent member
    cases member

theorem moving_small {s : Socket} {move : Move}
    (fits : ∀ conn alloc, s.host.conn.connection = some conn → ∀ frame ∈ (readFrames alloc conn.buffer).frames,
      Conversation.Fitting frame.payload)
    (sized : Conversation.Sized move) : ∀ sent ∈ (s.moving move).sent, sent.Small := by
  have nothing : ∀ sent ∈ ({} : Traffic).sent, sent.Small := fun sent member => absurd member List.not_mem_nil
  cases move with
  | call call => exact calling_small sized s
  | tick weather => exact s.ticking_small weather
  | wait ready => exact nothing
  | runNext weather =>
    show ∀ sent ∈ (s.running weather).sent, sent.Small
    unfold running
    split
    · exact fun sent member => absurd member List.not_mem_nil
    · exact nothing
  | advance weather =>
    unfold moving
    dsimp only
    split
    · cases found : s.host.conn.connection with
      | none =>
        unfold reading
        rw [found]
        exact nothing
      | some conn => exact reading_small found (fits conn weather.alloc found) sized
    · exact nothing

theorem reading_pongs (s : Socket) (weather : StepWeather) :
    (sentPayloads opPong (s.reading weather).sent).Sublist (heardPayloads opPing (s.reading weather).heard) ∧
      ((∀ i, (weather.turn i).reply.Queued) → (s.readStep weather).host.conn.connection ≠ none →
        sentPayloads opPong (s.reading weather).sent = heardPayloads opPing (s.reading weather).heard) := by
  have nothing : (sentPayloads opPong ({} : Traffic).sent).Sublist (heardPayloads opPing ({} : Traffic).heard) := List.Sublist.refl _
  unfold reading readStep
  cases s.host.conn.connection with
  | none => exact ⟨nothing, fun _ _ => rfl⟩
  | some conn =>
    dsimp only
    generalize readFrames weather.alloc conn.buffer = read
    cases read.status with
    | success =>
      dsimp only
      have pongs := walking_pongs { s with host := s.host.perform (.consume read.consumed) } weather.arming (turns read.frames weather)
      refine ⟨pongs.1, fun queued => pongs.2 ?_⟩
      intro turn member
      rcases List.mem_mapIdx.mp member with ⟨i, _, rfl⟩
      exact queued i
    | incompleteFrame => exact ⟨nothing, fun _ _ => rfl⟩
    | allocationFailed => exact ⟨nothing, fun _ _ => rfl⟩
    | outOfBounds => exact ⟨nothing, fun _ _ => rfl⟩

theorem moving_pongs (s : Socket) (move : Move) :
    (sentPayloads opPong (s.moving move).sent).Sublist (heardPayloads opPing (s.moving move).heard) := by
  have nothing : (sentPayloads opPong ({} : Traffic).sent).Sublist (heardPayloads opPing ({} : Traffic).heard) := List.Sublist.refl _
  cases move with
  | call call =>
    show (sentPayloads opPong (s.calling call).sent).Sublist _
    rw [s.calling_pongs call]
    exact List.nil_sublist _
  | tick weather =>
    show (sentPayloads opPong (s.ticking weather).sent).Sublist _
    rw [s.ticking_pongs weather]
    exact List.nil_sublist _
  | wait ready => exact nothing
  | runNext weather =>
    show (sentPayloads opPong (s.running weather).sent).Sublist _
    unfold running
    split
    · exact List.nil_sublist _
    · exact List.nil_sublist _
  | advance weather =>
    unfold moving
    dsimp only
    split
    · exact (s.reading_pongs weather).1
    · exact nothing

end Socket

/-! ## What comes in -/

def upToClose : List Frame → List Frame
  | [] => []
  | frame :: frames => if frameKind frame.opcode = .close then [frame] else frame :: upToClose frames

theorem upToClose_cons (frame : Frame) (frames : List Frame) :
    upToClose (frame :: frames) = if frameKind frame.opcode = .close then [frame] else frame :: upToClose frames := rfl

theorem upToClose_within (frames : List Frame) : upToClose frames <+: frames := by
  induction frames with
  | nil => exact List.prefix_refl []
  | cons frame frames ih =>
    unfold upToClose
    split
    · exact ⟨frames, rfl⟩
    · exact (List.prefix_append_right_inj [frame]).mpr ih

theorem upToClose_all {frames : List Frame} (none_ : ∀ frame ∈ frames, frameKind frame.opcode ≠ .close) : upToClose frames = frames := by
  induction frames with
  | nil => rfl
  | cons frame frames ih =>
    rcases List.forall_mem_cons.mp none_ with ⟨first, others⟩
    rw [upToClose_cons, if_neg first, ih others]

theorem upToClose_append (front back : List Frame) :
    (∀ frame ∈ front, frameKind frame.opcode ≠ .close) ∧ upToClose (front ++ back) = front ++ upToClose back ∨
      upToClose (front ++ back) = upToClose front := by
  induction front with
  | nil => exact Or.inl ⟨fun frame member => absurd member List.not_mem_nil, rfl⟩
  | cons frame front ih =>
    rw [List.cons_append, upToClose_cons, upToClose_cons]
    by_cases close : frameKind frame.opcode = .close
    · rw [if_pos close, if_pos close]
      exact Or.inr rfl
    · rw [if_neg close, if_neg close]
      rcases ih with ⟨none_, same⟩ | same
      · exact Or.inl ⟨List.forall_mem_cons.mpr ⟨close, none_⟩, congrArg (frame :: ·) same⟩
      · exact Or.inr (congrArg (frame :: ·) same)

/-- Where the other end stands in what was sent: it has read the frames `done`, and heard them up to a CLOSE. -/
structure Inbound (mode : Mode) (s : Socket) (sent : List Sent) (wire way : Bytes) (heard : List Frame) (done todo : List Sent) : Prop where
  parts : sent = done ++ todo
  some_ : heard.Sublist (done.map (Sent.frame mode))
  first : upToClose heard <+: done.map (Sent.frame mode)
  open_ : ∀ conn, s.host.conn.connection = some conn → conn.Fits ∧
    done.flatMap (Sent.bytes mode) ++ conn.buffer ++ way = wire ∧
    ((∀ frame ∈ heard, frameKind frame.opcode ≠ .close) → heard = done.map (Sent.frame mode))

namespace Inbound

variable {mode : Mode} {s s' : Socket} {sent done todo : List Sent} {wire way : Bytes} {heard : List Frame}

theorem more (inbound : Inbound mode s sent wire way heard done todo) (new : List Sent) (taken : Bytes) :
    Inbound mode s (sent ++ new) (wire ++ taken) (way ++ taken) heard done (todo ++ new) where
  parts := by rw [inbound.parts, List.append_assoc]
  some_ := inbound.some_
  first := inbound.first
  open_ conn found := by
    rcases inbound.open_ conn found with ⟨fits, whole, all⟩
    refine ⟨fits, ?_, all⟩
    rw [← List.append_assoc, whole]

theorem carries (inbound : Inbound mode s sent wire way heard done todo) {t : Traffic} {reads : List TransportRead}
    (carries : Socket.Carries s t reads s') (legal : ∀ r ∈ reads, r.Legal) (next : delivered reads <+: way) :
    Inbound mode s' sent wire (way.drop (delivered reads).length) (heard ++ t.heard) done todo where
  parts := inbound.parts
  some_ := by
    rw [carries.silent, List.append_nil]
    exact inbound.some_
  first := by
    rw [carries.silent, List.append_nil]
    exact inbound.first
  open_ conn' found := by
    rcases carries.read conn' found with ⟨conn, before, read⟩
    rcases inbound.open_ conn before with ⟨fits, whole, all⟩
    rcases read fits legal with ⟨buffer, still⟩
    rcases next with ⟨rest, split⟩
    rw [carries.silent, List.append_nil]
    refine ⟨still, ?_, all⟩
    rw [buffer, ← split, List.drop_left, ← whole, ← split]
    simp only [List.append_assoc]

theorem hears (inbound : Inbound mode s sent wire way heard done todo) {weather : StepWeather} {more : List Sent} {later : List Sent}
    {left : Bytes} (hears : Socket.Hears s weather (more.map (Sent.frame mode)) left) (split : todo = more ++ later)
    (buffer : ∀ conn, s.host.conn.connection = some conn → more.flatMap (Sent.bytes mode) ++ left = conn.buffer)
    (gone : s.host.conn.connection = none → more = []) :
    Inbound mode (s.readStep weather) sent wire way (heard ++ (s.reading weather).heard) (done ++ more) later where
  parts := by rw [inbound.parts, split, List.append_assoc]
  some_ := by
    rw [List.map_append]
    exact inbound.some_.append hears.heard.sublist
  first := by
    rw [List.map_append]
    rcases upToClose_append heard (s.reading weather).heard with ⟨none_, same⟩ | same
    · rw [same]
      cases found : s.host.conn.connection with
      | none =>
        rw [gone found] at hears ⊢
        have silent : (s.reading weather).heard = [] := List.prefix_nil.mp hears.heard
        have before := inbound.first
        rcases upToClose_append heard [] with ⟨_, plain⟩ | plain
        · rw [List.append_nil] at plain
          rw [plain] at before
          rw [silent, List.map_nil, List.append_nil]
          exact before
        · rw [silent]
          rw [silent] at same
          rw [← same, plain, List.map_nil, List.append_nil]
          exact before
      | some conn =>
        rcases inbound.open_ conn found with ⟨_, _, all⟩
        rw [all none_]
        exact (List.prefix_append_right_inj _).mpr ((upToClose_within _).trans hears.heard)
    · rw [same]
      exact inbound.first.trans (List.prefix_append _ _)
  open_ conn' found := by
    rcases hears.left conn' found with ⟨conn, before, kept, whole⟩
    rcases inbound.open_ conn before with ⟨fits, bytes, all⟩
    rcases kept fits with ⟨rest, still⟩
    refine ⟨still, ?_, ?_⟩
    · rw [rest, List.flatMap_append, List.append_assoc (done.flatMap _), buffer conn before]
      exact bytes
    · intro none_
      rcases List.forall_mem_append.mp none_ with ⟨front, back⟩
      rw [all front, whole back, List.map_append]

end Inbound

/-! ## Both ends -/

namespace Conversation

variable {c c' : Conversation} {modes : End → Mode}

structure Consistent (modes : End → Mode) (c : Conversation) : Prop where
  mode : ∀ e, (c.sockets e).mode = modes e
  outbound : ∀ e, (c.sockets e).Outbound (c.traffic e).sent (c.traffic e).wire
  inbound : ∀ e, ∃ done todo, Inbound (modes e) (c.sockets e.other) (c.traffic e).sent (c.traffic e).wire (c.way e)
    (c.traffic e.other).heard done todo
  small : ∀ e, ∀ sent ∈ (c.traffic e).sent, sent.Small
  pongs : ∀ e, (sentPayloads opPong (c.traffic e).sent).Sublist (heardPayloads opPing (c.traffic e).heard)

theorem other_ne (e : End) : e.other ≠ e := by cases e <;> decide

theorem other_other (e : End) : e.other.other = e := by cases e <;> rfl

theorem eq_or_other (e f : End) : f = e ∨ f = e.other := by
  cases e <;> cases f <;> decide

structure Stepped (c c' : Conversation) (e : End) (s' : Socket) (t : Traffic) (reads : List TransportRead) : Prop where
  socket : c'.sockets e = s'
  still : c'.sockets e.other = c.sockets e.other
  traffic : c'.traffic e = c.traffic e ++ t
  quiet : c'.traffic e.other = c.traffic e.other
  way : c'.way e = c.way e ++ t.wire
  read : c'.way e.other = (c.way e.other).drop (delivered reads).length

theorem stepped {e : End} {move : Socket.Move} (taken : step c (e, move) = some c') :
    ∃ s', (c.sockets e).step move = some s' ∧ Stepped c c' e s' ((c.sockets e).moving move) ((c.sockets e).arrivals move) := by
  rcases Option.map_eq_some_iff.mp taken with ⟨s', moved, rfl⟩
  have apart := other_ne e
  exact ⟨s', moved, Function.update_self .., Function.update_of_ne apart .., Function.update_self .., Function.update_of_ne apart ..,
    if_pos rfl, if_neg apart⟩

theorem Consistent.next (consistent : Consistent modes c) (e : End) {done todo : List Sent}
    (inbound : Inbound (modes e.other) (c.sockets e) (c.traffic e.other).sent (c.traffic e.other).wire (c.way e.other)
      (c.traffic e).heard done todo) {conn : Connection} (found : (c.sockets e).host.conn.connection = some conn) (alloc : Allocator) :
    ∃ more later, todo = more ++ later ∧ (readFrames alloc conn.buffer).frames = more.map (Sent.frame (modes e.other)) ∧
      more.flatMap (Sent.bytes (modes e.other)) ++ (readFrames alloc conn.buffer).buffer = conn.buffer := by
  have small : ∀ sent ∈ todo, sent.Small := by
    intro sent member
    apply consistent.small e.other
    rw [inbound.parts]
    exact List.mem_append_right _ member
  rcases (consistent.outbound e.other).wire_within with ⟨lost, all⟩
  rcases inbound.open_ conn found with ⟨_, whole, _⟩
  have stream : todo.flatMap (Sent.bytes (modes e.other)) = conn.buffer ++ (c.way e.other ++ lost) := by
    rw [consistent.mode e.other, inbound.parts, List.flatMap_append, ← whole] at all
    simp only [List.append_assoc, List.append_cancel_left_eq] at all
    exact all.symm
  exact Socket.readFrames_front (fun sent member => (small sent member).1) (fun sent member => (small sent member).length _) alloc stream

theorem Consistent.step (consistent : Consistent modes c) {action : End × Socket.Move} (order : c.InOrder action)
    (sized : Sized action.2) (taken : step c action = some c') : Consistent modes c' := by
  rcases action with ⟨e, move⟩
  rcases stepped taken with ⟨s', moved, after⟩
  rcases order with ⟨legal, next⟩
  dsimp only at legal next sized
  rcases consistent.inbound e with ⟨done, todo, outwards⟩
  have back := consistent.inbound e.other
  rw [other_other] at back
  rcases back with ⟨done', todo', inwards⟩
  -- what `e` sends reaches the other end as it did before
  have theirs : Inbound (modes e) (c'.sockets e.other) (c'.traffic e).sent (c'.traffic e).wire (c'.way e) (c'.traffic e.other).heard
      done (todo ++ ((c.sockets e).moving move).sent) := by
    rw [after.still, after.traffic, after.quiet, after.way]
    exact outwards.more _ _
  have fits : ∀ conn alloc, (c.sockets e).host.conn.connection = some conn → ∀ frame ∈ (readFrames alloc conn.buffer).frames,
      Fitting frame.payload := by
    intro conn alloc found frame member
    rcases consistent.next e inwards found alloc with ⟨more, later, split, frames, _⟩
    rw [frames] at member
    rcases List.mem_map.mp member with ⟨sent, inside, rfl⟩
    apply (consistent.small e.other sent _).2
    rw [inwards.parts, split]
    exact List.mem_append_right _ (List.mem_append_left _ inside)
  suffices ours : s'.mode = modes e ∧
      s'.Outbound ((c.traffic e).sent ++ ((c.sockets e).moving move).sent) ((c.traffic e).wire ++ ((c.sockets e).moving move).wire) ∧
      ∃ done todo, Inbound (modes e.other) s' (c.traffic e.other).sent (c.traffic e.other).wire
        ((c.way e.other).drop (delivered ((c.sockets e).arrivals move)).length)
        ((c.traffic e).heard ++ ((c.sockets e).moving move).heard) done todo by
    rcases ours with ⟨mode, outbound, inbound⟩
    have each {property : End → Prop} (here : property e) (there : property e.other) : ∀ f, property f := by
      intro f
      rcases eq_or_other e f with rfl | rfl
      · exact here
      · exact there
    refine ⟨each ?_ ?_, each ?_ ?_, each ?_ ?_, each ?_ ?_, each ?_ ?_⟩
    · rw [after.socket]
      exact mode
    · rw [after.still]
      exact consistent.mode e.other
    · rw [after.socket, after.traffic]
      exact outbound
    · rw [after.still, after.quiet]
      exact consistent.outbound e.other
    · exact ⟨_, _, theirs⟩
    · rw [other_other, after.socket, after.traffic, after.quiet, after.read]
      exact inbound
    · rw [after.traffic]
      exact List.forall_mem_append.mpr ⟨consistent.small e, Socket.moving_small fits sized⟩
    · rw [after.quiet]
      exact consistent.small e.other
    · rw [after.traffic, Traffic.sent_append, Traffic.heard_append, sentPayloads_append, heardPayloads_append]
      exact (consistent.pongs e).append ((c.sockets e).moving_pongs move)
    · rw [after.quiet]
      exact consistent.pongs e.other
  rcases Socket.step_carries moved with carries | ⟨weather, callbacks, rest, rfl, stack, rfl⟩
  · exact ⟨carries.mode.trans (consistent.mode e), carries.outbound _ _ (consistent.outbound e), _, _, inwards.carries carries legal next⟩
  · have through : (c.sockets e).moving (.advance weather) = (c.sockets e).reading weather := by
      unfold Socket.moving
      rw [stack]
    have unmoved : (c.way e.other).drop (delivered ((c.sockets e).arrivals (.advance weather))).length = c.way e.other := rfl
    rw [through, unmoved]
    cases found : (c.sockets e).host.conn.connection with
    | none =>
      have hears := Socket.hears_none found weather
      refine ⟨hears.mode.trans (consistent.mode e), hears.outbound _ _ (consistent.outbound e), done' ++ [], todo', ?_⟩
      have inbound := @Inbound.hears _ _ _ _ _ _ _ _ inwards weather [] todo' [] hears rfl
        (fun conn other => by rw [found] at other; cases other) fun _ => rfl
      exact ⟨inbound.parts, inbound.some_, inbound.first, inbound.open_⟩
    | some conn =>
      have hears := Socket.hears_readFrames found weather
      rcases consistent.next e inwards found weather.alloc with ⟨more, later, split, frames, buffer⟩
      refine ⟨hears.mode.trans (consistent.mode e), hears.outbound _ _ (consistent.outbound e), done' ++ more, later, ?_⟩
      rw [frames] at hears
      have inbound := inwards.hears hears split
        (fun conn' other => by rw [found] at other; cases other; exact buffer) fun other => by rw [found] at other; cases other
      exact ⟨inbound.parts, inbound.some_, inbound.first, inbound.open_⟩

theorem moved_connection {e : End} {move : Socket.Move} {s' : Socket} (moved : (c.sockets e).step move = some s')
    (open_ : s'.host.conn.connection ≠ none) : (c.sockets e).host.conn.connection ≠ none := by
  rcases Option.ne_none_iff_exists'.mp open_ with ⟨conn', found⟩
  rcases Socket.step_carries moved with carries | ⟨weather, callbacks, rest, rfl, stack, rfl⟩
  · rcases carries.read conn' found with ⟨conn, before, _⟩
    rw [before]
    exact Option.some_ne_none conn
  · intro gone
    rcases (Socket.hears_none gone weather).left conn' found with ⟨conn, before, _⟩
    rw [gone] at before
    cases before

/-- While its connection lasts, an end has answered every PING that it heard. -/
def Answered (e : End) (c : Conversation) : Prop :=
  (c.sockets e).host.conn.connection ≠ none → sentPayloads opPong (c.traffic e).sent = heardPayloads opPing (c.traffic e).heard

theorem Answered.step {e : End} (answered : Answered e c) {action : End × Socket.Move} (remembers : action.1 = e → Remembers action.2)
    (taken : Conversation.step c action = some c') : Answered e c' := by
  rcases action with ⟨f, move⟩
  rcases stepped taken with ⟨s', moved, after⟩
  rcases eq_or_other f e with rfl | rfl
  · unfold Answered
    rw [after.socket, after.traffic, Traffic.sent_append, Traffic.heard_append, sentPayloads_append, heardPayloads_append]
    intro open_
    rw [answered (moved_connection moved open_)]
    congr 1
    rcases Socket.step_carries moved with carries | ⟨weather, callbacks, rest, rfl, stack, rfl⟩
    · have pongs := (c.sockets e).moving_pongs move
      rw [carries.silent] at pongs ⊢
      exact List.sublist_nil.mp pongs
    · have through : (c.sockets e).moving (.advance weather) = (c.sockets e).reading weather := by
        unfold Socket.moving
        rw [stack]
      rw [through]
      exact ((c.sockets e).reading_pongs weather).2 (remembers rfl) open_
  · unfold Answered
    rw [after.still, after.quiet]
    exact answered

/-- Two websockets on connections that nothing was written to or read from. -/
def start (fd : End → Fd) (conn : End → Connection) (modes : End → Mode) (heartbeat : End → Heartbeat) : Conversation where
  sockets e := Socket.start (fd e) (conn e) (modes e) (heartbeat e)

section
variable {fd : End → Fd} {conn : End → Connection} {heartbeat : End → Heartbeat} {actions : List (End × Socket.Move)}

theorem start_consistent (empty : ∀ e, (conn e).writeData = [] ∧ (conn e).buffer = []) (fits : ∀ e, (conn e).Fits) :
    Consistent modes (start fd conn modes heartbeat) := by
  have kept (e : End) : ((start fd conn modes heartbeat).sockets e).host.conn.connection.map Connection.unpended =
      some (conn e).unpended :=
    (AsyncConnection.createReadTask_keeps { fd := fd e, connection := some (conn e) } .armed).connection
  have opened (e : End) : ∃ conn', ((start fd conn modes heartbeat).sockets e).host.conn.connection = some conn' ∧
      conn'.unpended = (conn e).unpended := Option.map_eq_some_iff.mp (kept e)
  refine ⟨fun e => rfl, ?_, ?_, fun e sent member => absurd member List.not_mem_nil, fun e => List.Sublist.refl _⟩
  · intro e
    rcases opened e with ⟨conn', found, same⟩
    have nothing := (AsyncConnection.writeData_of_unpended same).trans (empty e).1
    rw [Socket.outbound_some found, nothing]
    exact ⟨fun entry member => absurd member List.not_mem_nil, rfl⟩
  · intro e
    refine ⟨[], [], rfl, List.Sublist.refl _, List.prefix_refl _, ?_⟩
    intro conn₀ here
    rcases opened e.other with ⟨conn', found, same⟩
    have reached : conn₀ = conn' := Option.some.inj (here.symm.trans found)
    subst reached
    have side : conn₀.readSide = (conn e.other).readSide := by
      show conn₀.unpended.readSide = (conn e.other).unpended.readSide
      rw [same]
    refine ⟨.of_readSide side (fits e.other), ?_, fun _ => rfl⟩
    have buffer : conn₀.buffer = [] := (congrArg Prod.fst side).trans (empty e.other).2
    show [] ++ conn₀.buffer ++ [] = []
    rw [buffer]
    rfl

theorem run_consistent (empty : ∀ e, (conn e).writeData = [] ∧ (conn e).buffer = []) (fits : ∀ e, (conn e).Fits)
    (reached : run step (start fd conn modes heartbeat) actions = some c)
    (order : Along step InOrder (start fd conn modes heartbeat) actions) (sized : ∀ action ∈ actions, Sized action.2) :
    Consistent modes c :=
  Runs.along_invariant (start_consistent empty fits)
    (fun _ _ _ consistent meets taken => consistent.step meets.1 meets.2 taken) (order.and_each sized) reached

theorem run_answered (e : End) (reached : run step (start fd conn modes heartbeat) actions = some c)
    (order : Along step InOrder (start fd conn modes heartbeat) actions)
    (remembers : ∀ action ∈ actions, action.1 = e → Remembers action.2) : Answered e c :=
  @Runs.along_invariant _ _ _ _ (Answered e) _ _ _ (fun _ => rfl)
    (fun _ _ _ answered meets taken => answered.step meets.2 taken) (order.and_each remembers) reached

theorem Consistent.heard (consistent : Consistent modes c) (e : End) :
    (c.traffic e.other).heard.Sublist ((c.traffic e).sent.map (Sent.frame (modes e))) ∧
      upToClose (c.traffic e.other).heard <+: (c.traffic e).sent.map (Sent.frame (modes e)) := by
  rcases consistent.inbound e with ⟨done, todo, inbound⟩
  have front : done.map (Sent.frame (modes e)) <+: (c.traffic e).sent.map (Sent.frame (modes e)) := by
    rw [inbound.parts, List.map_append]
    exact List.prefix_append _ _
  exact ⟨inbound.some_.trans front.sublist, inbound.first.trans front⟩

/-- Whatever the transport does and however the two ends take turns, what an end dispatches are frames that the other has
    queued, in their order; up to a CLOSE they are the first of them, and nothing is missing once all bytes have been written
    and read. -/
theorem frames_in_order (empty : ∀ e, (conn e).writeData = [] ∧ (conn e).buffer = []) (fits : ∀ e, (conn e).Fits)
    (reached : run step (start fd conn modes heartbeat) actions = some c)
    (order : Along step InOrder (start fd conn modes heartbeat) actions) (sized : ∀ action ∈ actions, Sized action.2) (e : End) :
    (c.traffic e.other).heard.Sublist ((c.traffic e).sent.map (Sent.frame (modes e))) ∧
      upToClose (c.traffic e.other).heard <+: (c.traffic e).sent.map (Sent.frame (modes e)) ∧
      ∀ sender receiver, (c.sockets e).host.conn.connection = some sender → (c.sockets e.other).host.conn.connection = some receiver →
        sender.writeData = [] → c.way e = [] → receiver.buffer = [] →
        (∀ frame ∈ (c.traffic e.other).heard, frameKind frame.opcode ≠ .close) →
        (c.traffic e.other).heard = (c.traffic e).sent.map (Sent.frame (modes e)) := by
  have consistent := run_consistent empty fits reached order sized
  refine ⟨(consistent.heard e).1, (consistent.heard e).2, ?_⟩
  intro sender receiver sends receives written arrived taken none_
  rcases consistent.inbound e with ⟨done, todo, inbound⟩
  rcases inbound.open_ receiver receives with ⟨_, whole, all⟩
  have out := ((Socket.outbound_some sends _ _).mp (consistent.outbound e)).2
  have left : todo.flatMap (Sent.bytes (modes e)) = [] := by
    rw [written, consistent.mode e, ← whole, taken, arrived, inbound.parts, List.flatMap_append] at out
    simp only [Connection.unsent, List.flatMap_nil, List.append_nil] at out
    exact List.append_right_eq_self.mp out.symm
  have nothing : todo = [] := by
    cases todo with
    | nil => rfl
    | cons sent todo => exact absurd (List.append_eq_nil_iff.mp left).1 (sent.bytes_ne_nil (modes e))
  rw [all none_, inbound.parts, nothing, List.append_nil]

def quietEnds : Conversation :=
  start (fun | .near => 3 | .far => 4) (fun _ => {}) (fun | .near => .client | .far => .server) fun _ => ⟨false, 0, 0, 0, false⟩

def pingHi : Sent := ⟨fun i => UInt8.ofNat (i + 1), opPing, ascii "hi"⟩

def pongHi : Sent := ⟨fun _ => 0, opPong, ascii "hi"⟩

/-- The client sends a PING, and reads the PONG that the server sends when it has read the PING. -/
def pingPong : List (End × Socket.Move) := [
  (.near, .call (.send .ping (ascii "hi") { mask := pingHi.mask, statuses := [.ok 8] })),
  (.far, .wait [⟨4, eventRead⟩]),
  (.far, .runNext { turns := [⟨true, .ok (pingHi.bytes .client)⟩, ⟨true, .wantRead⟩] }),
  (.far, .advance { turn := fun _ => { reply := { statuses := [.ok 4] } } }),
  (.far, .advance {}),
  (.near, .wait [⟨3, eventRead⟩]),
  (.near, .runNext { turns := [⟨true, .ok (pongHi.bytes .server)⟩] }),
  (.near, .advance {})]

theorem pingPong_order : Along step InOrder quietEnds pingPong := Runs.along_of_checked (by decide +kernel)

theorem pingPong_sized : ∀ action ∈ pingPong, Sized action.2 := by
  have hi : Fitting (ascii "hi") := by
    show (ascii "hi").length < 2 ^ 63
    decide
  have none_ {turn : Nat → FrameTurn} (quiet : ∀ i, (turn i).calls = []) : ∀ i, ∀ call ∈ (turn i).calls, Sizes call := by
    intro i call member
    rw [quiet i] at member
    cases member
  intro action member
  simp only [pingPong, List.mem_cons, List.not_mem_nil, or_false] at member
  rcases member with rfl | rfl | rfl | rfl | rfl | rfl | rfl | rfl
  · exact hi
  · trivial
  · trivial
  · exact none_ fun _ => rfl
  · exact none_ fun _ => rfl
  · trivial
  · trivial
  · exact none_ fun _ => rfl

theorem frames_in_order_pingPong : ∃ c, run step quietEnds pingPong = some c ∧
    (c.traffic .far).heard = (c.traffic .near).sent.map (Sent.frame .client) ∧ (c.traffic .far).heard.length = 1 := by
  rcases Option.isSome_iff_exists.mp (show (run step quietEnds pingPong).isSome = true by decide +kernel) with ⟨c, reached⟩
  have facts : (run step quietEnds pingPong).map (fun c => ((c.sockets .near).host.conn.connection.map Connection.writeData,
      (c.sockets .far).host.conn.connection.map Connection.buffer, c.way .near, (c.traffic .far).heard.map Frame.opcode)) =
      some (some [], some [], [], [opPing]) := by decide +kernel
  rw [reached] at facts
  simp only [Option.map_some, Option.some.injEq, Prod.mk.injEq] at facts
  rcases facts with ⟨written, taken, arrived, opcodes⟩
  rcases Option.map_eq_some_iff.mp written with ⟨sender, sends, written⟩
  rcases Option.map_eq_some_iff.mp taken with ⟨receiver, receives, taken⟩
  have none_ : ∀ frame ∈ (c.traffic .far).heard, frameKind frame.opcode ≠ .close := by
    intro frame member
    have known : frame.opcode ∈ (c.traffic .far).heard.map Frame.opcode := List.mem_map_of_mem member
    rw [opcodes] at known
    rw [List.mem_singleton.mp known]
    decide
  refine ⟨c, reached, ?_, by simpa using congrArg List.length opcodes⟩
  exact (frames_in_order (fun _ => ⟨rfl, rfl⟩) (fun _ => ⟨by decide, by decide⟩) reached pingPong_order pingPong_sized .near).2.2
    sender receiver sends receives written arrived taken none_

/-- The PONGs that come back answer PINGs that went out, in their order. An end that has memory for its answers has answered
    every PING that it heard while its connection lasts, and while no CLOSE was heard the answers that came back are those to
    the first PINGs. -/
theorem pings_answered (empty : ∀ e, (conn e).writeData = [] ∧ (conn e).buffer = []) (fits : ∀ e, (conn e).Fits)
    (reached : run step (start fd conn modes heartbeat) actions = some c)
    (order : Along step InOrder (start fd conn modes heartbeat) actions) (sized : ∀ action ∈ actions, Sized action.2) (e : End) :
    (heardPayloads opPong (c.traffic e).heard).Sublist (sentPayloads opPing (c.traffic e).sent) ∧
      ((∀ action ∈ actions, action.1 = e.other → Remembers action.2) → (c.sockets e.other).host.conn.connection ≠ none →
        sentPayloads opPong (c.traffic e.other).sent = heardPayloads opPing (c.traffic e.other).heard ∧
        ((∀ f, ∀ frame ∈ (c.traffic f).heard, frameKind frame.opcode ≠ .close) →
          heardPayloads opPong (c.traffic e).heard <+: sentPayloads opPing (c.traffic e).sent)) := by
  have consistent := run_consistent empty fits reached order sized
  have went := consistent.heard e
  have came := consistent.heard e.other
  rw [other_other] at came
  have pings : heardPayloads opPing ((c.traffic e).sent.map (Sent.frame (modes e))) = sentPayloads opPing (c.traffic e).sent :=
    heardPayloads_frame opPing (modes e) _
  have pongs : heardPayloads opPong ((c.traffic e.other).sent.map (Sent.frame (modes e.other))) =
      sentPayloads opPong (c.traffic e.other).sent := heardPayloads_frame opPong (modes e.other) _
  constructor
  · have back := heardPayloads_sublist opPong came.1
    have forth := heardPayloads_sublist opPing went.1
    rw [pongs] at back
    rw [pings] at forth
    exact (back.trans (consistent.pongs e.other)).trans forth
  · intro remembers open_
    have answered := run_answered e.other reached order remembers open_
    refine ⟨answered, ?_⟩
    intro none_
    rw [upToClose_all (none_ e)] at came
    rw [upToClose_all (none_ e.other)] at went
    have back : heardPayloads opPong (c.traffic e).heard <+: sentPayloads opPong (c.traffic e.other).sent :=
      pongs ▸ (came.2.filter _).map _
    have forth : heardPayloads opPing (c.traffic e.other).heard <+: sentPayloads opPing (c.traffic e).sent :=
      pings ▸ (went.2.filter _).map _
    rw [answered] at back
    exact back.trans forth

theorem pings_answered_pingPong : ∃ c, run step quietEnds pingPong = some c ∧
    heardPayloads opPong (c.traffic .near).heard = [ascii "hi"] ∧
    heardPayloads opPong (c.traffic .near).heard <+: sentPayloads opPing (c.traffic .near).sent := by
  rcases Option.isSome_iff_exists.mp (show (run step quietEnds pingPong).isSome = true by decide +kernel) with ⟨c, reached⟩
  have facts : (run step quietEnds pingPong).map (fun c => (heardPayloads opPong (c.traffic .near).heard,
      (c.sockets .far).host.conn.connection.isSome, (c.traffic .near).heard.map Frame.opcode, (c.traffic .far).heard.map Frame.opcode)) =
      some ([ascii "hi"], true, [opPong], [opPing]) := by decide +kernel
  rw [reached] at facts
  simp only [Option.map_some, Option.some.injEq, Prod.mk.injEq] at facts
  rcases facts with ⟨came, open_, near, far⟩
  have none_ : ∀ f, ∀ frame ∈ (c.traffic f).heard, frameKind frame.opcode ≠ .close := by
    intro f frame member
    have known : frame.opcode ∈ (c.traffic f).heard.map Frame.opcode := List.mem_map_of_mem member
    cases f with
    | near =>
      rw [near] at known
      rw [List.mem_singleton.mp known]
      decide
    | far =>
      rw [far] at known
      rw [List.mem_singleton.mp known]
      decide
  have remembers : ∀ action ∈ pingPong, action.1 = End.other .near → Remembers action.2 := by
    intro action member here
    simp only [pingPong, List.mem_cons, List.not_mem_nil, or_false] at member
    rcases member with rfl | rfl | rfl | rfl | rfl | rfl | rfl | rfl
    · trivial
    · trivial
    · trivial
    · exact fun _ => ⟨rfl, rfl⟩
    · exact fun _ => ⟨rfl, rfl⟩
    · trivial
    · trivial
    · exact fun _ => ⟨rfl, rfl⟩
  refine ⟨c, reached, came, ?_⟩
  have lasts : (c.sockets (End.other .near)).host.conn.connection ≠ none := Option.isSome_iff_ne_none.mp open_
  exact ((pings_answered (fun _ => ⟨rfl, rfl⟩) (fun _ => ⟨by decide, by decide⟩) reached pingPong_order pingPong_sized .near).2
    remembers lasts).2 none_

end
end Conversation
end BlueBird.WebSocket
