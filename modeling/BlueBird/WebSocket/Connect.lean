import BlueBird.Connection.Link
import BlueBird.Memory.Accesses
import BlueBird.WebSocket.Answer
import BlueBird.WebSocket.Url

/-! A websocket that is being connected: who holds what, and what its user is told. -/

namespace BlueBird.WebSocket

open Accesses (Access)
open Net (Link WriteRun ReadRun)

/-- The websocket that the call is given, and what the call allocates. -/
inductive Piece where
  | websocket | asyncConn | connection | data | parser
  deriving DecidableEq, Repr

/-- A connect callback does nothing, or it destroys the websocket that it is handed, or the one that its user keeps. -/
inductive ConnectCb where
  | nothing | destroysArgument | destroysOwn
  deriving DecidableEq, Repr

/-- What `bb_websocket_connect` is given and what it gets: a connection, memory for the task data, random bytes, their
    base64, and a watcher. -/
structure Dialing where
  url : Bytes
  connects : Bool := true
  data : Bool := true
  random : Bool := true
  base64 : Bool := true
  armed : Bool := true
  deriving DecidableEq, Repr

/-- `asyncConn` is whether `ws->async_conn` is set, `data` the task data while they are allocated, and `offered` what the
    read step was called with. The answers that the callback was given and what was done with the pieces come newest first. -/
structure Connecting where
  callback : ConnectCb := .nothing
  started : Bool := false
  websocket : Bool := true
  asyncConn : Bool := false
  created : Bool := false
  link : Link := { connection := false }
  allocated : Bool := false
  data : Option HandshakeData := none
  parser : Bool := false
  buffer : Bytes := []
  offered : Bytes := []
  told : List Bool := []
  history : List (Access Piece) := []

namespace Connecting

def touch (c : Connecting) (pieces : List Piece) : Connecting :=
  { c with history := (pieces.map .use).reverse ++ c.history }

def free (c : Connecting) (piece : Piece) : Connecting := { c with history := .free piece :: c.history }

/-- `_bb_async_connection_handle_disconnect`, with `_bb_websocket_handle_disconnect`; no close callback is installed. -/
def handleDisconnect (c : Connecting) : Connecting :=
  let ended := c.link.handleDisconnect
  let c := { c with link := ended.1 }.touch [.asyncConn]
  if ended.2 then c.touch [.websocket] else c

/-- `bb_async_connection_close` -/
def closeConn (c : Connecting) : Connecting :=
  let c := c.touch [.asyncConn]
  let c := if c.link.connection then { c with link := { c.link with connection := false } }.free .connection else c
  c.handleDisconnect

/-- `bb_async_connection_destroy` -/
def destroyConn (c : Connecting) : Connecting := c.closeConn.free .asyncConn

/-- `bb_websocket_destroy` -/
def destroy (c : Connecting) : Connecting :=
  let c := c.touch [.websocket]
  let c := if c.asyncConn then ({ c with link := { c.link with hook := false } }.touch [.asyncConn]).destroyConn else c
  { c with websocket := false }.free .websocket

/-- The connect callback is called, with the websocket or with NULL. -/
def tell (c : Connecting) (success null : Bool) : Connecting :=
  let c := { c with told := success :: c.told }
  match c.callback with
  | .nothing => c
  | .destroysArgument => if null then c else c.destroy
  | .destroysOwn => c.destroy

def freeData (c : Connecting) : Connecting := { c with data := none }.free .data

/-- `bb_websocket_connect` -/
def connect (c : Connecting) (d : Dialing) : Connecting :=
  let c := { c with started := true }
  if (parseWsUrl d.url).isNone then c.tell false false
  else if d.connects = false then c.tell false true
  else
    let c := { c with created := true, asyncConn := true, link := { hook := true } }.touch [.websocket, .asyncConn]
    if d.data = false then
      let c := (c.tell false true).destroyConn
      { c with asyncConn := false }.touch [.websocket]
    else
      let c := { c with allocated := true, data := some {} }.touch [.data]
      if d.random = false then (c.tell false true).freeData.destroyConn
      else if d.base64 = false then (c.tell false true).freeData.destroyConn
      else
        -- the request goes into the write list, and whether the write task is there is not looked at
        let c := c.touch [.connection, .websocket, .asyncConn]
        { c with link := (c.link.createWriteTask d.armed).1 }

/-- `_bb_ws_handshake_write_done`; whether there is a read task is not looked at. -/
def writeDone (c : Connecting) (armed : Bool) : Connecting :=
  let c := c.touch [.data, .websocket, .asyncConn]
  { c with link := (c.link.createReadTask armed).1 }

/-- `_bb_ws_handshake_write_failed` -/
def writeFailed (c : Connecting) : Connecting :=
  let c := c.touch [.data, .websocket, .asyncConn]
  let c := if c.link.connection then { c.destroyConn with asyncConn := false }.touch [.websocket] else c
  (c.tell false false).freeData

/-- `_bb_ws_handshake_read_error` -/
def readError (c : Connecting) : Connecting :=
  let c := c.touch [.data, .websocket]
  let c := if c.parser then { c with parser := false }.free .parser else c
  (c.destroyConn.tell false false).freeData

/-- `_bb_ws_handshake_read_step`, with the read error that `_bb_read_task` makes of its result. -/
def readStep (c : Connecting) (data : HandshakeData) (create : Bool) : Connecting :=
  let c := c.touch [.data, .websocket, .asyncConn, .connection]
  let c := { c with parser := c.parser || create, offered := c.buffer }
  match handshakeReadStep create data c.buffer with
  | (.more data, buffer) => { c with data := some data, buffer }.touch [.parser]
  | (.error, buffer) => ({ c with buffer }.touch [.asyncConn]).readError
  | (.done, buffer) =>
    let c := { { c with buffer }.touch [.parser] with parser := false }.free .parser
    -- `bb_websocket_create_read_task` finds the read task there
    ((c.touch [.websocket, .asyncConn]).tell true false).freeData

/-- `_bb_write_task` -/
def runWrite (c : Connecting) (run : WriteRun) (armed : Bool) : Connecting :=
  let c := c.touch [.asyncConn, .connection]
  let stopped := { c with link := { c.link with writeTask := false } }
  match run with
  | .waits => c
  | .done => stopped.writeDone armed
  | .failed | .unarmed => stopped.writeFailed
  | .closed => stopped.handleDisconnect.writeFailed

/-- `_bb_read_task` while the handshake goes on; `chunk` is what comes, and `create` whether a parser can be had. -/
def runRead (c : Connecting) (data : HandshakeData) (run : ReadRun) (chunk : Bytes) (create : Bool) : Connecting :=
  let c := c.touch [.asyncConn, .connection]
  let stopped := { c with link := { c.link with readTask := false } }
  let read := { c with buffer := c.buffer ++ chunk }
  match run with
  | .waits => read
  | .bytes => read.readStep data create
  | .failed | .unarmed => stopped.readError
  | .closed => c.handleDisconnect

inductive Move where
  | connect (d : Dialing)
  | write (run : WriteRun) (armed : Bool)
  | read (run : ReadRun) (chunk : Bytes) (create : Bool)
  | destroy
  deriving DecidableEq, Repr

/-- What may happen next, until the handshake is decided. -/
def step (c : Connecting) : Move → Option Connecting
  | .connect d => if c.started = false ∧ c.websocket = true then some (c.connect d) else none
  | .write run armed => if c.link.writeTask then some (c.runWrite run armed) else none
  | .read run chunk create =>
    match c.data with
    | none => none
    | some data => if c.link.readTask then some (c.runRead data run chunk create) else none
  | .destroy => if c.websocket then some c.destroy else none

end Connecting
end BlueBird.WebSocket
