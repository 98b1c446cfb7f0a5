import BlueBird.Connection.WriteList
import BlueBird.Memory.Accesses
import BlueBird.WebSocket.Handshake

/-! One read step of a websocket, which may be closed under it. -/

namespace BlueBird.WebSocket

open Accesses (Access Sound)
open Net (Outcome)

/-! ## The frames of a batch and what their callbacks do -/

def opText : Byte := 1
def opBinary : Byte := 2
def opPing : Byte := 9
def opPong : Byte := 10

/-- The cases that `_websocket_read_step` tells apart. -/
inductive FrameKind where
  | message | ping | pong | close | other
  deriving DecidableEq, Repr

def frameKind (opcode : Byte) : FrameKind :=
  if opcode = opText ∨ opcode = opBinary then .message
  else if opcode = opPing then .ping
  else if opcode = opPong then .pong
  else if opcode = opClose then .close
  else .other

/-- What becomes of a frame that is sent: whether it can be queued, the outcome of the write, and whether some of the
    write list is left. -/
structure Sending where
  queued : Bool := true
  written : Outcome := .success
  left : Bool := false
  deriving DecidableEq, Repr

inductive SendKind where
  | text | binary | ping
  deriving DecidableEq, Repr

def SendKind.opcode : SendKind → Byte
  | .text => opText
  | .binary => opBinary
  | .ping => opPing

/-- What a message or pong callback may do with its websocket. -/
inductive WsCall where
  | send (kind : SendKind) (payload : Bytes) (sending : Sending)
  | sendClose (payload : Bytes) (sending : Sending)
  | close
  | destroy
  deriving DecidableEq, Repr

/-- A frame, whether a message can be made of it, what a callback does that is called with it, and how the answer
    to it is sent. -/
structure WsTurn where
  opcode : Byte
  payload : Bytes := []
  message : Bool := true
  calls : List WsCall := []
  reply : Sending := {}
  deriving DecidableEq, Repr

/-- The callbacks that are installed; the close callback is that of the server, or it leaves the websocket alone. -/
structure WsCallbacks where
  handler : Bool := true
  pongCb : Bool := true
  server : Bool := true
  deriving DecidableEq, Repr

/-! ## What happens -/

inductive Block where
  | websocket | asyncConn | connection
  deriving DecidableEq, Repr

inductive WsEvent where
  | access (access : Access Block)
  | dispatch (opcode : Byte) (payload : Bytes)
  | callback (opcode : Byte) (payload : Bytes)
  | queue (opcode : Byte) (payload : Bytes)
  | close
  deriving DecidableEq, Repr

def use (block : Block) : WsEvent := .access (.use block)
def free (block : Block) : WsEvent := .access (.free block)

/-- A websocket with its async connection. They are freed together, and what they held stays as it was. -/
structure WsSession where
  callbacks : WsCallbacks := {}
  connection : Bool := true
  disconnected : Bool := false
  writeData : Bool := false
  freed : Bool := false
  deriving DecidableEq, Repr

inductive StepStatus where
  | more | done | error
  deriving DecidableEq, Repr

namespace WsSession

/-- `bb_async_connection_close` up to the disconnect callback. -/
def release (s : WsSession) : WsSession × List WsEvent :=
  ({ s with connection := false, disconnected := true },
    use .asyncConn :: if s.connection then [.close, free .connection] else [])

/-- `bb_websocket_destroy` -/
def destroy (s : WsSession) : WsSession × List WsEvent :=
  let released := s.release
  ({ released.1 with freed := true },
    [use .websocket, use .asyncConn] ++ released.2 ++ [free .asyncConn, free .websocket])

/-- `_bb_websocket_handle_disconnect`, with `_server_ws_closed`. -/
def handleDisconnect (s : WsSession) : WsSession × List WsEvent :=
  if s.callbacks.server then
    let destroyed := s.destroy
    (destroyed.1, use .websocket :: destroyed.2)
  else (s, [use .websocket])

/-- `bb_async_connection_close` -/
def closeConn (s : WsSession) : WsSession × List WsEvent :=
  let released := s.release
  if s.disconnected then released
  else
    let handled := released.1.handleDisconnect
    (handled.1, released.2 ++ handled.2)

/-- `bb_websocket_send_text`, `_binary`, `_ping`, `_pong`; the last result is whether it succeeds. -/
def send (s : WsSession) (opcode : Byte) (payload : Bytes) (sending : Sending) : WsSession × List WsEvent × Bool :=
  let looked := [use .websocket, use .asyncConn]
  if s.connection = false then (s, looked, false)
  else if sending.queued = false then (s, looked ++ [use .connection], false)
  else
    ({ s with writeData := sending.left }, looked ++ [use .connection, .queue opcode payload, use .connection],
      sending.written = .success)

/-- `bb_websocket_send_close` -/
def sendClose (s : WsSession) (payload : Bytes) (sending : Sending) : WsSession × List WsEvent :=
  let sent := s.send opClose payload sending
  if sent.2.2 then
    let closed := sent.1.closeConn
    (closed.1, sent.2.1 ++ closed.2)
  else (sent.1, sent.2.1)

def perform (s : WsSession) : WsCall → WsSession × List WsEvent
  | .send kind payload sending =>
    let sent := s.send kind.opcode payload sending
    (sent.1, sent.2.1)
  | .sendClose payload sending => s.sendClose payload sending
  | .close => s.closeConn
  | .destroy => s.destroy

/-- A callback does nothing with a websocket that it knows to be gone. -/
def performAll (s : WsSession) : List WsCall → WsSession × List WsEvent
  | [] => (s, [])
  | call :: calls =>
    if s.freed then (s, [])
    else
      let first := s.perform call
      let later := first.1.performAll calls
      (later.1, first.2 ++ later.2)

def callBack (s : WsSession) (installed : Bool) (turn : WsTurn) : WsSession × List WsEvent :=
  if installed then
    let done := s.performAll turn.calls
    (done.1, [use .websocket, .callback turn.opcode turn.payload] ++ done.2)
  else (s, [use .websocket])

/-- A turn of the loop in `_websocket_read_step`, with the status if it returns there. -/
def dispatch (s : WsSession) (turn : WsTurn) : WsSession × List WsEvent × Option StepStatus :=
  let entered := [use .websocket, .dispatch turn.opcode turn.payload]
  match frameKind turn.opcode with
  | .message =>
    if turn.message then
      let called := s.callBack s.callbacks.handler turn
      (called.1, entered ++ called.2, none)
    else (s, entered, some .error)
  | .ping =>
    let sent := s.send opPong turn.payload turn.reply
    (sent.1, entered ++ sent.2.1, none)
  | .pong =>
    let called := s.callBack s.callbacks.pongCb turn
    (called.1, entered ++ called.2, none)
  | .close =>
    -- the code 1000 and no reason
    let sent := s.sendClose [3, 232] turn.reply
    (sent.1, entered ++ sent.2, some .done)
  | .other => (s, entered, none)

/-- What `_websocket_read_step` does behind the loop; `armed` is whether a write task can be created. -/
def finish (s : WsSession) (armed : Bool) : List WsEvent × StepStatus :=
  let looked := [use .websocket, use .asyncConn]
  if s.connection then
    (looked ++ use .connection :: if s.writeData then [use .websocket, use .asyncConn, use .connection] else [],
      if s.writeData ∧ armed = false then .error else .more)
  else (looked, .more)

/-- `_bb_read_task` once the read step has returned, with `_websocket_read_error`. -/
def afterStep (s : WsSession) : StepStatus → List WsEvent
  | .error => [use .asyncConn, use .websocket] ++ s.closeConn.2
  | _ => []

/-- The loop of `_websocket_read_step`, and what follows. -/
def walk (s : WsSession) (armed : Bool) : List WsTurn → List WsEvent
  | [] =>
    let finished := s.finish armed
    finished.1 ++ s.afterStep finished.2
  | turn :: turns =>
    let first := s.dispatch turn
    match first.2.2 with
    | some status => first.2.1 ++ first.1.afterStep status
    | none => first.2.1 ++ first.1.walk armed turns

/-- The frames that `bb_websocket_read_frames` finds, each with what happens at it. -/
def batch (alloc : Allocator) (buffer : Bytes) (turn : Nat → WsTurn) : List WsTurn :=
  (readFrames alloc buffer).frames.mapIdx fun i frame => { turn i with opcode := frame.opcode, payload := frame.payload }

/-- `_websocket_read_step` on what the connection has in its buffer. -/
def readStep (s : WsSession) (alloc : Allocator) (buffer : Bytes) (turn : Nat → WsTurn) (armed : Bool) : List WsEvent :=
  let looked := [use .websocket, use .asyncConn, use .connection]
  match (readFrames alloc buffer).status with
  | .incompleteFrame => looked
  | .success => looked ++ s.walk armed (batch alloc buffer turn)
  | _ => looked ++ s.afterStep .error

end WsSession

/-! ## What is asked of a read step -/

namespace WsEvent

def isCallback : WsEvent → Bool
  | .callback _ _ => true
  | _ => false

def isDispatch : WsEvent → Bool
  | .dispatch _ _ => true
  | _ => false

def isCloseFrame : WsEvent → Bool
  | .dispatch opcode _ => frameKind opcode = .close
  | _ => false

def access? : WsEvent → Option (Access Block)
  | .access step => some step
  | _ => none

def pong? : WsEvent → Option Bytes
  | .queue opcode payload => if opcode = opPong then some payload else none
  | _ => none

end WsEvent

def accesses (events : List WsEvent) : List (Access Block) := events.filterMap WsEvent.access?

def pongs (events : List WsEvent) : List Bytes := events.filterMap WsEvent.pong?

/-- The payloads of the PING frames that come while the connection is open. -/
def pings : List WsEvent → List Bytes
  | [] => []
  | .close :: _ => []
  | .dispatch opcode payload :: events => if frameKind opcode = .ping then payload :: pings events else pings events
  | _ :: events => pings events

/-- No callback is called once the connection is closed, nothing is used once it is freed, every PING has its PONG,
    and a CLOSE is the last frame. -/
structure Orderly (events : List WsEvent) : Prop where
  quiet : events.Pairwise fun earlier later => earlier = .close → later.isCallback = false
  sound : Sound (accesses events)
  answered : pongs events = pings events
  last : events.Pairwise fun earlier later => earlier.isCloseFrame = true → later.isDispatch = false

/-! ## When it is met -/

namespace WsCall

def closes : WsCall → Bool
  | .send _ _ _ => false
  | .sendClose _ sending => sending.queued && decide (sending.written = .success)
  | .close | .destroy => true

def frees (callbacks : WsCallbacks) (call : WsCall) : Bool :=
  decide (call = .destroy) || callbacks.server && call.closes

end WsCall

namespace WsTurn

def stops (turn : WsTurn) : Bool :=
  decide (frameKind turn.opcode = .close) || decide (frameKind turn.opcode = .message) && !turn.message

def reaches (callbacks : WsCallbacks) (turn : WsTurn) : Bool :=
  decide (frameKind turn.opcode = .message) && turn.message && callbacks.handler ||
    decide (frameKind turn.opcode = .pong) && callbacks.pongCb

def closes (callbacks : WsCallbacks) (turn : WsTurn) : Bool :=
  turn.reaches callbacks && turn.calls.any (·.closes)

def frees (callbacks : WsCallbacks) (turn : WsTurn) : Bool :=
  turn.reaches callbacks && turn.calls.any (·.frees callbacks)

end WsTurn

def dispatchedTurns : List WsTurn → List WsTurn
  | [] => []
  | turn :: turns => if turn.stops then [turn] else turn :: dispatchedTurns turns

/-- No callback of the batch frees the websocket, none comes behind one that closes it, and every PING until then finds
    the memory for its answer. -/
structure Kept (callbacks : WsCallbacks) (turns : List WsTurn) : Prop where
  alive : ∀ turn ∈ turns, turn.frees callbacks = false
  silent : turns.Pairwise fun earlier later => earlier.closes callbacks = true → later.reaches callbacks = false
  replied : ∀ turn ∈ turns.takeWhile fun turn => !turn.closes callbacks,
    frameKind turn.opcode = .ping → turn.reply.queued = true

end BlueBird.WebSocket
