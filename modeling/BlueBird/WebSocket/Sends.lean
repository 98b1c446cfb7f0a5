import BlueBird.Connection.ByteStream
import BlueBird.Connection.Callbacks
import BlueBird.WebSocket.Heartbeat
import BlueBird.WebSocket.ReadStep

/-! A websocket that sends over an async connection, from its callbacks and from outside. -/

namespace BlueBird.WebSocket

open BlueBird.Net (AsyncConnection Arming BufferId Callback Connection Hosted TransportStatus Weather pend)
open BlueBird.Runtime (Fd PollFd)

/-! ## What is met -/

/-- What a send meets: the masking key that is drawn, whether there is memory (and a key) for the frame and memory for
    its node in the write list, and how the transport answers. -/
structure SendWeather where
  mask : MaskingKey := fun _ => 0
  frame : Bool := true
  node : Bool := true
  statuses : List TransportStatus := []

/-- What the owner of a websocket does with it, in a callback or outside. -/
inductive SocketCall where
  | send (kind : SendKind) (payload : Bytes) (weather : SendWeather)
  | sendClose (payload : Bytes) (weather : SendWeather)
  | close

/-- Whether a message can be made of a frame, what the callback does that is called with it, and what the answer to it
    meets. -/
structure FrameTurn where
  message : Bool := true
  calls : List SocketCall := []
  reply : SendWeather := {}

structure StepWeather where
  alloc : Allocator := ⟨fun _ => true, fun _ _ => true⟩
  turn : Nat → FrameTurn := fun _ => {}
  arming : Arming := .armed

/-! ## The websocket -/

/-- `bb_websocket_t` with its connection; `queued` are the frames that have been put into buffers, a buffer being known
    by its place among them. -/
structure Socket where
  host : Hosted
  mode : Mode
  heartbeat : Heartbeat
  queued : List Bytes := []

namespace Socket

def contents (s : Socket) (buffer : BufferId) : Bytes := s.queued.getD buffer []

/-- `bb_async_connection_close`; the close callback has nothing more to do with the connection. -/
def shut (s : Socket) : Socket := { s with host := { s.host with conn := s.host.conn.close.1 } }

/-- `bb_websocket_queue_frame`; the second result is whether it succeeds. -/
def queueFrame (s : Socket) (opcode : Byte) (payload : Bytes) (weather : SendWeather) : Socket × Bool :=
  match s.host.conn.connection with
  | none => (s, false)
  | some conn =>
    if weather.frame then
      let bytes := encodeFrame s.mode weather.mask opcode payload
      let buffer := s.queued.length
      ({ s with
          host := s.host.perform (.bufferAdd (some buffer) bytes.length weather.node)
          queued := s.queued ++ [bytes] },
        decide ((conn.bufferAdd (some buffer) bytes.length weather.node).2.1 = 0))
    else (s, false)

/-- `bb_connection_write` on the connection of the websocket. -/
def write (s : Socket) (statuses : List TransportStatus) : Socket × Bool :=
  match s.host.conn.connection with
  | none => (s, false)
  | some conn =>
    ({ s with host := s.host.perform (.write statuses) }, decide ((conn.write statuses).2.1 = .success))

/-- `bb_websocket_send_text`, `_binary`, `_ping` and `_pong`. -/
def send (s : Socket) (opcode : Byte) (payload : Bytes) (weather : SendWeather) : Socket × Bool :=
  let (queued, done) := s.queueFrame opcode payload weather
  if done then queued.write weather.statuses else (queued, false)

/-- `bb_websocket_send_close` -/
def sendClose (s : Socket) (payload : Bytes) (weather : SendWeather) : Socket :=
  let (sent, done) := s.send opClose payload weather
  if done then sent.shut else sent

def call (s : Socket) : SocketCall → Socket
  | .send kind payload weather => (s.send kind.opcode payload weather).1
  | .sendClose payload weather => s.sendClose payload weather
  | .close => s.shut

/-- `_bb_websocket_heartbeat_tick` -/
def tick (s : Socket) (weather : SendWeather) : Socket :=
  let (heartbeat, action) := s.heartbeat.tick
  let s := { s with heartbeat }
  match action with
  | .ping => (s.send opPing [] weather).1
  | .close => s.shut

/-! ## The read step -/

/-- A turn of the loop in `_websocket_read_step`, with the status if it returns there. -/
def dispatch (s : Socket) (frame : Frame) (turn : FrameTurn) : Socket × Option StepStatus :=
  let s := { s with heartbeat := s.heartbeat.received }
  match frameKind frame.opcode with
  | .message => if turn.message then (turn.calls.foldl call s, none) else (s, some .error)
  | .ping => ((s.send opPong frame.payload turn.reply).1, none)
  | .pong => (turn.calls.foldl call s, none)
  | .close =>
    -- the code 1000 and no reason
    (s.sendClose [3, 232] turn.reply, some .done)
  | .other => (s, none)

/-- `bb_async_connection_create_write_task` or `_read_task`; a websocket closes where it fails. -/
def createTask (s : Socket) (create : AsyncConnection → AsyncConnection × Bool) : Socket :=
  let (conn, created) := create s.host.conn
  let s := { s with host := { s.host with conn } }
  if created then s else s.shut

/-- What `_websocket_read_step` does behind the loop, and `_websocket_read_error` where it fails. -/
def finish (s : Socket) (arming : Arming) : Socket :=
  match s.host.conn.connection.bind fun conn => conn.writeData.head?.bind (·.writeBuffer) with
  | none => s
  | some _ => s.createTask fun conn => conn.createWriteTask arming

/-- The loop of `_websocket_read_step`, and what follows. -/
def walk (s : Socket) (arming : Arming) : List (Frame × FrameTurn) → Socket
  | [] => s.finish arming
  | (frame, turn) :: turns =>
    match s.dispatch frame turn with
    | (s, some .error) => s.shut
    | (s, some _) => s
    | (s, none) => s.walk arming turns

/-- The frames that `bb_websocket_read_frames` finds, each with what happens at it. -/
def turns (frames : List Frame) (weather : StepWeather) : List (Frame × FrameTurn) :=
  frames.mapIdx fun i frame => (frame, weather.turn i)

/-- `_websocket_read_step` on what the connection has in its buffer. -/
def readStep (s : Socket) (weather : StepWeather) : Socket :=
  match s.host.conn.connection with
  | none => s.shut
  | some conn =>
    let read := readFrames weather.alloc conn.buffer
    match read.status with
    | .incompleteFrame => s
    | .success =>
      { s with host := s.host.perform (.consume read.consumed) }.walk weather.arming (turns read.frames weather)
    | _ => s.shut

/-! ## Steps between the callbacks -/

/-- What a websocket does when its async connection calls it: `_websocket_read_step`, `_websocket_after_write`,
    `_websocket_write_error`, `_websocket_read_error`. -/
def answer (s : Socket) (weather : StepWeather) : Callback → Socket
  | .readStep => s.readStep weather
  | .writeSuccess => s.createTask fun conn => conn.createReadTask weather.arming
  | .writeFailure | .readError => s.shut
  | .disconnect => s

inductive Move where
  | call (call : SocketCall)
  | tick (weather : SendWeather)
  | wait (ready : List PollFd)
  | runNext (weather : Weather)
  | advance (weather : StepWeather)

/-- One step of the runtime, or of the owner while no callback is in progress. A running task invokes its callbacks and
    ends before anything else happens. -/
def step (s : Socket) : Move → Option Socket
  | .call call => if s.host.stack = [] then some (s.call call) else none
  | .tick weather => if s.host.stack = [] ∧ s.heartbeat.task = true then some (s.tick weather) else none
  | .wait ready => (s.host.step (.wait ready)).map fun host => { s with host }
  | .runNext weather => (s.host.step (.runNext weather)).map fun host => { s with host }
  | .advance weather =>
    match s.host.stack with
    | .pending (callback :: callbacks) :: rest =>
      let answered := s.answer weather callback
      some { answered with host := { answered.host with stack := pend callbacks rest } }
    | .task t :: rest => some { s with host := s.host.endTask t rest }
    | _ => none

def start (fd : Fd) (conn : Connection) (mode : Mode) (heartbeat : Heartbeat) : Socket where
  host := Hosted.perform { conn := { fd, connection := some conn } } (.createReadTask .armed)
  mode
  heartbeat

end Socket
end BlueBird.WebSocket
