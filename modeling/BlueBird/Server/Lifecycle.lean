import BlueBird.Collections.Listing
import BlueBird.Connection.Link
import BlueBird.WebSocket.ReadStepEnd

/-! The connections of a server: who holds what of each, and where they are listed. -/

namespace BlueBird.Server

open Accesses (Access)
open Listing (Lists)
open Net (Link WriteRun ReadRun)
open WebSocket (Allocator Block StepStatus WsCall WsEvent WsSession WsTurn accesses)

/-- What is allocated for a connection; `node` is its node in the connection list. -/
inductive Item where
  | asyncConn | connection | data | parser | node | websocket
  deriving DecidableEq, Repr

def Item.ofBlock : Block → Item
  | .websocket => .websocket
  | .asyncConn => .asyncConn
  | .connection => .connection

/-- What is done with a piece of a websocket is done with a piece of its connection. -/
def itemAccess : Access Block → Access Item
  | .use block => .use (.ofBlock block)
  | .free block => .free (.ofBlock block)

inductive Owner where
  | server | websocket
  deriving DecidableEq, Repr

/-- A connection that was accepted. `hookOf` is whose disconnect callback is installed where one is, `data` whether the
    task data were allocated, and `httpParser`, `connNode` and `ws` what they point to. With `session` the websocket has
    the connection. What was done with the pieces comes newest first. -/
structure Client where
  link : Link := {}
  hookOf : Owner := .server
  data : Bool := false
  httpParser : Bool := false
  connNode : Bool := false
  ws : Bool := false
  session : Bool := false
  writeData : Bool := false
  wsFreed : Bool := false
  history : List (Access Item) := []

/-- A callback at work for one connection, with the lists of the server. -/
structure ServerTask extends Client where
  id : Nat
  connList : List Nat
  wsList : List Nat

/-- What `_server_create_read_task` gets: memory for the task data and for the parser, a watcher, and memory for the node. -/
structure Attempt where
  data : Bool := true
  parser : Bool := true
  armed : Bool := true
  node : Bool := true
  deriving DecidableEq, Repr

/-- How `_server_read_step` gets on: the request goes on, or it is refused before the response, or there is a response. It
    switches to a websocket or not, gets into the write list or not, and finds a watcher or not. -/
inductive Answer where
  | more
  | refused
  | response (upgrade buffered armed : Bool)
  deriving DecidableEq, Repr

/-- What the hand-over to a websocket gets: a node in the websocket list, and a watcher. -/
structure HandOver where
  listed : Bool := true
  armed : Bool := true
  deriving DecidableEq, Repr

namespace ServerTask

def touch (t : ServerTask) (items : List Item) : ServerTask := { t with history := (items.map .use).reverse ++ t.history }

def free (t : ServerTask) (item : Item) : ServerTask := { t with history := .free item :: t.history }

/-! ## The async connection -/

/-- `bb_async_connection_close` up to `_bb_async_connection_handle_disconnect` -/
def shut (t : ServerTask) : ServerTask :=
  let t := t.touch [.asyncConn]
  if t.link.connection then { t with link := { t.link with connection := false } }.free .connection else t

/-- `bb_async_connection_close` where no callback of the server is installed. A websocket that is not handed over yet has no
    close callback. -/
def closeConn (t : ServerTask) : ServerTask :=
  let t := t.shut
  let ended := t.link.handleDisconnect
  let t := { t with link := ended.1 }.touch [.asyncConn]
  if ended.2 then t.touch [.websocket] else t

/-- `bb_async_connection_destroy` -/
def destroyConn (t : ServerTask) : ServerTask := t.closeConn.free .asyncConn

/-- `bb_websocket_destroy` -/
def websocketDestroy (t : ServerTask) : ServerTask :=
  let t := t.touch [.websocket, .asyncConn]
  let t := { t with link := { t.link with hook := false } }.destroyConn
  { t with wsFreed := true }.free .websocket

def cancelRead (t : ServerTask) : ServerTask := { t with link := { t.link with readTask := false } }

def cancelWrite (t : ServerTask) : ServerTask := { t with link := { t.link with writeTask := false } }

/-! ## The task data -/

def clearDisconnectHook (t : ServerTask) : ServerTask :=
  let t := t.touch [.asyncConn]
  if t.link.hook = true ∧ t.hookOf = .server then { t with link := { t.link with hook := false } } else t

def connListRemove (t : ServerTask) : ServerTask :=
  if t.connNode then ({ t with connList := t.connList.erase t.id }.touch [.node]).free .node else t

def destroyParser (t : ServerTask) : ServerTask :=
  if t.httpParser then { t with httpParser := false }.free .parser else t

def taskDataCleanup (t : ServerTask) : ServerTask :=
  let t := (t.touch [.data]).clearDisconnectHook.connListRemove.destroyParser
  let t := if t.ws then t.websocketDestroy else t.destroyConn
  t.free .data

/-- `_bb_async_connection_handle_disconnect`, with `_server_on_disconnect`. -/
def handleDisconnect (t : ServerTask) : ServerTask :=
  let ended := t.link.handleDisconnect
  let t := { t with link := ended.1 }.touch [.asyncConn]
  if ended.2 then
    match t.hookOf with
    | .server => t.taskDataCleanup
    | .websocket => t.touch [.websocket]
  else t

/-! ## A connection is accepted -/

/-- `_server_create_read_task`, with whether it succeeds. -/
def createReadTask (t : ServerTask) (attempt : Attempt) : ServerTask × Bool :=
  if attempt.data = false then (t, false)
  else
    let t := { t with data := true }.touch [.data]
    if attempt.parser = false then (t.free .data, false)
    else
      let t := { t with httpParser := true, hookOf := .server, link := { t.link with hook := true } }.touch [.asyncConn]
      let made := t.link.createReadTask attempt.armed
      let t := { t with link := made.1 }.touch [.asyncConn, .connection]
      if made.2 = false then (t.free .data, false)
      else if attempt.node then ({ t with connNode := true, connList := t.connList ++ [t.id] }.touch [.data], true)
      else (t.touch [.data], true)

/-- A turn of the loop in `_server_accept_task`. -/
def accept (t : ServerTask) (attempt : Attempt) : ServerTask :=
  let made := t.createReadTask attempt
  if made.2 then made.1 else made.1.shut.handleDisconnect.free .asyncConn

/-! ## A request is read -/

/-- `_server_create_write_task`, with whether it succeeds. -/
def createWriteTask (t : ServerTask) (armed : Bool) : ServerTask × Bool :=
  let t := (t.touch [.data]).clearDisconnectHook
  let made := t.link.createWriteTask armed
  ({ t with link := made.1 }.touch [.asyncConn, .connection], made.2)

/-- `bb_websocket_accept`, where the request asks for it. -/
def websocketAccept (t : ServerTask) : ServerTask :=
  { t with ws := true, hookOf := .websocket, link := { t.link with hook := true } }.touch [.asyncConn, .connection, .websocket]

/-- `_server_read_step` once the response is there. -/
def respond (t : ServerTask) (buffered armed : Bool) : ServerTask × StepStatus :=
  if buffered = false then (t, .error)
  else
    let made := (t.touch [.asyncConn, .connection]).cancelRead.createWriteTask armed
    (made.1, if made.2 then .done else .error)

/-- `_server_read_step`; the parser was created with the task data. -/
def readStep (t : ServerTask) (answer : Answer) : ServerTask × StepStatus :=
  let t := t.touch [.data, .asyncConn, .connection, .parser]
  match answer with
  | .more => (t, .more)
  | .refused => (t, .error)
  | .response upgrade buffered armed => (if upgrade then t.websocketAccept else t).respond buffered armed

/-- `_bb_read_task`, with `_server_read_error`. -/
def runRead (t : ServerTask) (run : ReadRun) (answer : Answer) : ServerTask :=
  let t := t.touch [.asyncConn, .connection]
  match run with
  | .waits => t
  | .bytes =>
    let stepped := t.readStep answer
    match stepped.2 with
    | .error => (stepped.1.touch [.asyncConn]).taskDataCleanup
    | _ => stepped.1
  | .failed | .unarmed => t.cancelRead.taskDataCleanup
  | .closed => t.handleDisconnect

/-! ## The websocket of a session -/

/-- The websocket of the session, with the callbacks that its user has installed. -/
def view (t : ServerTask) (handler pongCb : Bool) : WsSession where
  callbacks := { handler, pongCb, server := true }
  connection := t.link.connection
  disconnected := t.link.disconnected
  writeData := t.writeData
  freed := t.wsFreed

def inSession (t : ServerTask) (after : WsSession × List WsEvent) : ServerTask :=
  { t with
    link := { t.link with connection := after.1.connection, disconnected := after.1.disconnected
                          readTask := t.link.readTask && !after.1.disconnected
                          writeTask := t.link.writeTask && !after.1.disconnected }
    writeData := after.1.writeData
    wsFreed := after.1.freed
    history := ((accesses after.2).map itemAccess).reverse ++ t.history }

/-- `_server_ws_closed` takes the websocket out of the list before it destroys it. -/
def unlist (t : ServerTask) : ServerTask := { t with wsList := if t.wsFreed then t.wsList.erase t.id else t.wsList }

/-- `bb_async_connection_close` for a session. -/
def closeSession (t : ServerTask) : ServerTask := (t.inSession (t.view true true).closeConn).unlist

/-- `_bb_async_connection_handle_disconnect` for a session. -/
def hangUpSession (t : ServerTask) : ServerTask := (t.inSession (t.view true true).hangUp).unlist

/-- `bb_websocket_create_read_task`, with whether it succeeds. -/
def createSessionRead (t : ServerTask) (armed : Bool) : ServerTask × Bool :=
  let t := t.touch [.websocket, .asyncConn]
  let made := t.link.createReadTask armed
  let t := { t with link := made.1 }
  (if made.2 then t else (t.touch [.websocket]).closeSession, made.2)

/-- `_server_after_write` -/
def afterWrite (t : ServerTask) (given : HandOver) : ServerTask :=
  let t := t.touch [.data]
  if t.ws then
    let t := t.destroyParser
    let t := if given.listed = false then t.websocketDestroy
      else
        let t := { t with wsList := t.wsList ++ [t.id], session := true, writeData := false }.touch [.data, .websocket]
        let made := t.createSessionRead given.armed
        if made.2 then made.1
        else
          -- the websocket was closed, and it is closed again
          let t := { made.1 with wsList := made.1.wsList.erase made.1.id }
          t.inSession (t.view true true).destroy
    (t.touch [.data]).connListRemove.free .data
  else t.taskDataCleanup

/-- `_bb_write_task`, with `_server_write_error`. -/
def runWrite (t : ServerTask) (run : WriteRun) (given : HandOver) : ServerTask :=
  let t := t.touch [.asyncConn, .connection]
  match run with
  | .waits => t
  | .done => (t.cancelWrite.touch [.asyncConn]).afterWrite given
  | .failed | .unarmed => (t.cancelWrite.touch [.asyncConn]).taskDataCleanup
  | .closed => (t.cancelWrite.handleDisconnect.touch [.asyncConn]).taskDataCleanup

/-- `_bb_read_task` in a session. -/
def runSessionRead (t : ServerTask) (run : ReadRun) (handler pongCb : Bool) (alloc : Allocator) (buffer : Bytes)
    (turn : Nat → WsTurn) (armed : Bool) : ServerTask :=
  let t := t.touch [.asyncConn, .connection]
  match run with
  | .waits => t
  | .bytes =>
    let s := t.view handler pongCb
    let armed := armed || t.link.writeTask
    let after := s.readStepEnd alloc buffer turn armed
    let t := (t.inSession (after.1, s.readStep alloc buffer turn armed)).unlist
    { t with link := { t.link with writeTask := t.link.writeTask || after.2 } }
  | .failed | .unarmed => (t.cancelRead.touch [.asyncConn, .websocket]).closeSession
  | .closed => t.hangUpSession

/-- `_bb_write_task` in a session, with `_websocket_after_write` and `_websocket_write_error`. -/
def runSessionWrite (t : ServerTask) (run : WriteRun) (armed : Bool) : ServerTask :=
  let t := t.touch [.asyncConn, .connection]
  match run with
  | .waits => t
  | .done =>
    let made := ({ t.cancelWrite with writeData := false }.touch [.asyncConn]).createSessionRead armed
    if made.2 then made.1 else (made.1.touch [.websocket]).closeSession
  | .failed | .unarmed => (t.cancelWrite.touch [.asyncConn, .websocket]).closeSession
  | .closed => (t.cancelWrite.hangUpSession.touch [.asyncConn, .websocket]).closeSession

/-- What is done with a websocket outside its read step: by its user, or by its heartbeat. -/
def callSession (t : ServerTask) (call : WsCall) : ServerTask :=
  let t := t.inSession ((t.view true true).perform call)
  match call with
  | .destroy => t
  | _ => t.unlist

end ServerTask

/-! ## The server -/

/-- The connections in the order they were accepted in, and the lists. -/
structure Connections where
  clients : List Client := []
  connList : List Nat := []
  wsList : List Nat := []

namespace Connections

def task (s : Connections) (id : Nat) (c : Client) : ServerTask := { c with id, connList := s.connList, wsList := s.wsList }

def put (s : Connections) (t : ServerTask) : Connections :=
  { clients := s.clients.set t.id t.toClient, connList := t.connList, wsList := t.wsList }

def act (s : Connections) (id : Nat) (due : Client → Bool) (f : ServerTask → ServerTask) : Option Connections :=
  match s.clients[id]? with
  | none => none
  | some c => if due c then some (s.put (f (s.task id c))) else none

inductive Move where
  | accept (attempt : Attempt)
  | read (id : Nat) (run : ReadRun) (answer : Answer)
  | write (id : Nat) (run : WriteRun) (given : HandOver)
  | sessionRead (id : Nat) (run : ReadRun) (handler pongCb : Bool) (alloc : Allocator) (buffer : Bytes) (turn : Nat → WsTurn)
      (armed : Bool)
  | sessionWrite (id : Nat) (run : WriteRun) (armed : Bool)
  | sessionCall (id : Nat) (call : WsCall)

def step (s : Connections) : Move → Option Connections
  | .accept attempt => some ({ s with clients := s.clients ++ [({} : Client)] }.put ((s.task s.clients.length {}).accept attempt))
  | .read id run answer => s.act id (fun c => !c.session && c.link.readTask) fun t => t.runRead run answer
  | .write id run given => s.act id (fun c => !c.session && c.link.writeTask) fun t => t.runWrite run given
  | .sessionRead id run handler pongCb alloc buffer turn armed =>
    s.act id (fun c => c.session && c.link.readTask) fun t => t.runSessionRead run handler pongCb alloc buffer turn armed
  | .sessionWrite id run armed => s.act id (fun c => c.session && c.link.writeTask) fun t => t.runSessionWrite run armed
  | .sessionCall id call => s.act id (fun c => c.session && !c.wsFreed) fun t => t.callSession call

end Connections

/-! ## What is asked of the server -/

namespace Client

/-- The connection is open, and no websocket has it. -/
def http (c : Client) : Bool := c.link.connection && !c.session

def webSocket (c : Client) : Bool := c.link.connection && c.session

end Client

/-- Nothing is used that was freed, what is not held any more was freed once, and the lists have what is open. -/
structure Accounted (s : Connections) : Prop where
  clean : ∀ c ∈ s.clients, Accesses.Clean c.history
  connection : ∀ c ∈ s.clients, ∀ item ∈ [Item.asyncConn, .connection],
    c.history.count (.free item) = if c.link.connection then 0 else 1
  data : ∀ c ∈ s.clients, c.data = true → c.history.count (.free .data) = if c.http then 0 else 1
  connList : Lists s.clients Client.http s.connList
  wsList : Lists s.clients Client.webSocket s.wsList

/-- A connection whose task data and parser are there gets its watcher and its node, a websocket that is listed gets its
    read task, no callback of a read step closes its websocket, no write task of a websocket finds the connection closed,
    and no websocket of the server is destroyed by its user. -/
def Spares (s : Connections) : Connections.Move → Prop
  | .accept attempt => attempt.data = true → attempt.parser = true → attempt.armed = true ∧ attempt.node = true
  | .write id run given => run = .done → given.listed = true → given.armed = false →
      ∀ c, s.clients[id]? = some c → c.ws = false
  | .sessionRead _ run handler pongCb alloc buffer turn _ => run = .bytes →
      ∀ frame ∈ WebSocket.dispatchedTurns (WsSession.batch alloc buffer turn),
        frame.frees { handler, pongCb, server := true } = false
  | .sessionWrite _ run _ => run ≠ .closed
  | .sessionCall _ call => call ≠ .destroy
  | .read _ _ _ => True

end BlueBird.Server
