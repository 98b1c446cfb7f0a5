import BlueBird.Server.Lifecycle

/-! What the server's callbacks make of a connection. -/

namespace BlueBird.Server

open Accesses (Access Clean clean_cons)
open Listing (relist relist_same)
open Net (Link WriteRun ReadRun)
open WebSocket (Allocator Block WsCall WsEvent WsSession WsTurn accesses)

/-! ## What a connection goes through -/

namespace Client

/-- Nothing of an open connection is freed. -/
structure Whole (c : Client) : Prop where
  connection : c.link.connection = true
  data : c.data = true
  connNode : c.connNode = true
  session : c.session = false
  wsFreed : c.wsFreed = false
  idle : c.link.disconnected = true → c.link.Idle
  clean : Clean c.history
  unfreed : ∀ item, .free item ∉ c.history

/-- An open connection that the server has. Its own disconnect callback is there as long as it reads, and no longer. -/
structure Serving (c : Client) : Prop where
  whole : c.Whole
  disconnected : c.link.disconnected = false
  reading : c.link.readTask = true → c.link.hook = true ∧ c.hookOf = .server
  writing : c.link.writeTask = true → c.link.readTask = false ∧ (c.link.hook = true → c.hookOf = .websocket)

structure Held (c : Client) : Prop where
  connection : c.link.connection = true
  disconnected : c.link.disconnected = false
  session : c.session = true
  wsFreed : c.wsFreed = false
  clean : Clean c.history
  data : .free .data ∈ c.history
  unfreed : ∀ item ∈ [Item.websocket, .asyncConn, .connection], .free item ∉ c.history

structure Session (c : Client) : Prop where
  held : c.Held
  reading : c.link.readTask = true

structure Gone (c : Client) : Prop where
  connection : c.link.connection = false
  idle : c.link.Idle
  session : c.session = true → c.wsFreed = true
  clean : Clean c.history
  freed : ∀ item ∈ [Item.asyncConn, .connection], .free item ∈ c.history
  data : c.data = true → .free .data ∈ c.history

end Client

/-! ## What is done with the pieces -/

namespace ServerTask

/-- `bb_async_connection_close`, and whether the callback of a websocket is called. -/
def closeTrail (told : Bool) : List (Access Item) :=
  (if told then [.use .websocket] else []) ++ [.use .asyncConn, .free .connection, .use .asyncConn]

def websocketTrail : List (Access Item) :=
  [.free .websocket, .free .asyncConn, .use .asyncConn, .free .connection, .use .asyncConn, .use .asyncConn, .use .websocket]

def cleanupTrail (parser ws told : Bool) : List (Access Item) :=
  .free .data :: ((if ws then websocketTrail else .free .asyncConn :: closeTrail told) ++
    ((if parser then [.free .parser] else []) ++ [.free .node, .use .node, .use .asyncConn, .use .data]))

variable {t : ServerTask}

theorem closeConn_eq (open_ : t.link.connection = true) : ∃ told,
    t.closeConn = { t with link := t.link.closed, history := closeTrail told ++ t.history } := by
  unfold closeConn shut
  dsimp only
  rw [if_pos (show (t.touch [.asyncConn]).link.connection = true from open_)]
  split
  · exact ⟨true, rfl⟩
  · exact ⟨false, rfl⟩

theorem websocketDestroy_eq (open_ : t.link.connection = true) : t.websocketDestroy =
    { t with link := ({ t.link with hook := false } : Link).closed, wsFreed := true, history := websocketTrail ++ t.history } := by
  rcases t with ⟨⟨⟨connection, disconnected, hook, readTask, writeTask⟩, hookOf, data, parser, node, ws, session, writeData,
    wsFreed, history⟩, id, connList, wsList⟩
  cases open_
  cases disconnected <;> rfl

theorem cleanup_front (node : t.connNode = true) : ∃ hook, (t.touch [.data]).clearDisconnectHook.connListRemove.destroyParser =
    { t with link := { t.link with hook }, httpParser := false, connList := t.connList.erase t.id
             history := ((if t.httpParser then [.free .parser] else []) ++
               [.free .node, .use .node, .use .asyncConn, .use .data]) ++ t.history } := by
  rcases t with ⟨⟨⟨connection, disconnected, hook, readTask, writeTask⟩, hookOf, data, parser, node_, ws, session, writeData,
    wsFreed, history⟩, id, connList, wsList⟩
  cases node
  cases hook <;> cases hookOf <;> cases parser <;> exact ⟨_, rfl⟩

theorem taskDataCleanup_eq (open_ : t.link.connection = true) (node : t.connNode = true) : ∃ hook told,
    t.taskDataCleanup = { t with link := ({ t.link with hook } : Link).closed, httpParser := false, wsFreed := t.ws || t.wsFreed
                                 connList := t.connList.erase t.id
                                 history := cleanupTrail t.httpParser t.ws told ++ t.history } := by
  rcases cleanup_front node with ⟨hook, front⟩
  unfold taskDataCleanup
  rw [front]
  generalize trail : (if t.httpParser then [Access.free Item.parser] else []) = parsed
  unfold cleanupTrail
  rw [trail]
  dsimp only
  cases ws : t.ws with
  | true =>
    rw [if_pos rfl, websocketDestroy_eq]
    · refine ⟨false, false, ?_⟩
      simp [free]
    · exact open_
  | false =>
    rcases closeConn_eq (t := { t with
      link := { t.link with hook }, httpParser := false, connList := t.connList.erase t.id
      history := (parsed ++ [.free .node, .use .node, .use .asyncConn, .use .data]) ++ t.history }) open_ with ⟨told, closed⟩
    refine ⟨hook, told, ?_⟩
    rw [if_neg (by decide), if_neg (by decide)]
    unfold destroyConn
    rw [ws] at closed
    rw [closed]
    simp [free]

theorem cleanupTrail_clean (parser ws told : Bool) : Clean (cleanupTrail parser ws told) := by
  cases parser <;> cases ws <;> cases told <;> decide

theorem cleanupTrail_frees (parser ws told : Bool) :
    ∀ item ∈ [Item.asyncConn, .connection, .data], .free item ∈ cleanupTrail parser ws told := by
  cases parser <;> cases ws <;> cases told <;> decide

/-! ## A connection that the server has -/

theorem mem_touch {items : List Item} {item : Item} : .free item ∈ (t.touch items).history ↔ .free item ∈ t.history := by
  show _ ∈ (items.map Access.use).reverse ++ t.history ↔ _
  simp

theorem clean_touch {items : List Item} (clean : Clean t.history) (there : ∀ item ∈ items, .free item ∉ t.history) :
    Clean (t.touch items).history := by
  apply Clean.later _ clean
  · intro access member
    rcases List.mem_map.mp (List.mem_reverse.mp member) with ⟨item, inside, rfl⟩
    exact there item inside
  · apply Accesses.sound_of_unfreed
    simp

theorem whole_touch (whole : t.Whole) (items : List Item) : (t.touch items).Whole where
  connection := whole.connection
  data := whole.data
  connNode := whole.connNode
  session := whole.session
  wsFreed := whole.wsFreed
  idle := whole.idle
  clean := clean_touch whole.clean fun item _ => whole.unfreed item
  unfreed item := mem_touch.not.mpr (whole.unfreed item)

theorem whole_relink (whole : t.Whole) {link : Link} (connection : link.connection = true)
    (idle : link.disconnected = true → link.Idle) : ({ t with link } : ServerTask).Whole where
  connection := connection
  data := whole.data
  connNode := whole.connNode
  session := whole.session
  wsFreed := whole.wsFreed
  idle := idle
  clean := whole.clean
  unfreed := whole.unfreed

theorem whole_cancelRead (whole : t.Whole) : t.cancelRead.Whole :=
  whole_relink whole whole.connection fun gone => ⟨rfl, (whole.idle gone).2⟩

theorem whole_cancelWrite (whole : t.Whole) : t.cancelWrite.Whole :=
  whole_relink whole whole.connection fun gone => ⟨(whole.idle gone).1, rfl⟩

/-- What a callback makes of the connection, and of the lists. -/
structure Moves (t u : ServerTask) : Prop where
  id : u.id = t.id
  connList : u.connList = relist t.http u.http t.id t.connList
  wsList : u.wsList = relist t.webSocket u.webSocket t.id t.wsList
  sound : u.Serving ∨ u.Session ∨ u.Gone

theorem http_whole (whole : t.Whole) : t.http = true := by
  unfold Client.http
  rw [whole.connection, whole.session]
  rfl

theorem webSocket_whole (whole : t.Whole) : t.webSocket = false := by
  unfold Client.webSocket
  rw [whole.session, Bool.and_false]

theorem moves_serving {u : ServerTask} (whole : t.Whole) (serving : u.Serving) (id : u.id = t.id) (connList : u.connList = t.connList)
    (wsList : u.wsList = t.wsList) : Moves t u where
  id := id
  connList := by rw [http_whole whole, http_whole serving.whole, relist_same, connList]
  wsList := by rw [webSocket_whole whole, webSocket_whole serving.whole, relist_same, wsList]
  sound := Or.inl serving

theorem moves_gone {u : ServerTask} (whole : t.Whole) (gone : u.Gone) (id : u.id = t.id) (connList : u.connList = t.connList.erase t.id)
    (wsList : u.wsList = t.wsList) : Moves t u where
  id := id
  connList := by
    unfold Client.http
    rw [gone.connection, whole.connection, whole.session, connList]
    rfl
  wsList := by
    unfold Client.webSocket
    rw [gone.connection, whole.session, Bool.and_false, Bool.false_and, relist_same, wsList]
  sound := Or.inr (Or.inr gone)

theorem moves_cleanup (whole : t.Whole) : Moves t t.taskDataCleanup := by
  rcases taskDataCleanup_eq whole.connection whole.connNode with ⟨hook, told, same⟩
  have frees := cleanupTrail_frees t.httpParser t.ws told
  rw [same]
  refine moves_gone whole ?_ rfl rfl rfl
  exact
    { connection := Link.closed_connection _
      idle := Link.closed_idle whole.idle
      session := fun session => by rw [whole.session] at session; cases session
      clean := Clean.later (cleanupTrail_clean _ _ _) whole.clean fun access _ => whole.unfreed access.about
      freed := fun item member => List.mem_append_left _ (frees item (List.mem_append_left [Item.data] member))
      data := fun _ => List.mem_append_left _ (frees .data (by decide)) }

/-- The same connection and lists, with nothing freed. -/
structure Same (t u : ServerTask) : Prop where
  whole : u.Whole
  id : u.id = t.id
  connList : u.connList = t.connList
  wsList : u.wsList = t.wsList

theorem same_refl (whole : t.Whole) : Same t t := ⟨whole, rfl, rfl, rfl⟩

theorem Same.touch {u : ServerTask} (same : Same t u) (items : List Item) : Same t (u.touch items) :=
  ⟨whole_touch same.whole items, same.id, same.connList, same.wsList⟩

theorem Same.relink {u : ServerTask} (same : Same t u) {link : Link} (connection : link.connection = true)
    (idle : link.disconnected = true → link.Idle) : Same t { u with link } :=
  ⟨whole_relink same.whole connection idle, same.id, same.connList, same.wsList⟩

theorem Same.cancelRead {u : ServerTask} (same : Same t u) : Same t u.cancelRead :=
  ⟨whole_cancelRead same.whole, same.id, same.connList, same.wsList⟩

theorem Same.cancelWrite {u : ServerTask} (same : Same t u) : Same t u.cancelWrite :=
  ⟨whole_cancelWrite same.whole, same.id, same.connList, same.wsList⟩

theorem Same.moves {u v : ServerTask} (same : Same t u) (whole : t.Whole) (moves : Moves u v) : Moves t v where
  id := moves.id.trans same.id
  connList := by rw [moves.connList, http_whole same.whole, http_whole whole, same.id, same.connList]
  wsList := by rw [moves.wsList, webSocket_whole same.whole, webSocket_whole whole, same.id, same.wsList]
  sound := moves.sound

theorem Same.cleanup {u : ServerTask} (same : Same t u) (whole : t.Whole) : Moves t u.taskDataCleanup :=
  same.moves whole (moves_cleanup same.whole)

theorem Same.serving {u : ServerTask} (same : Same t u) (whole : t.Whole) (serving : u.Serving) : Moves t u :=
  moves_serving whole serving same.id same.connList same.wsList

theorem clearDisconnectHook_eq (t : ServerTask) : ∃ hook, (hook = true → t.hookOf = .websocket) ∧
    t.clearDisconnectHook = { t.touch [.asyncConn] with link := { t.link with hook } } := by
  unfold clearDisconnectHook
  dsimp only
  split
  · exact ⟨false, (fun no => by cases no), rfl⟩
  · rename_i other
    refine ⟨t.link.hook, fun hook => ?_, rfl⟩
    cases owner : t.hookOf with
    | websocket => rfl
    | server => exact absurd ⟨hook, owner⟩ other

theorem createWriteTask_eq (l : Link) (armed : Bool) : ∃ writeTask, (l.createWriteTask armed).1 = { l with writeTask } := by
  unfold Link.createWriteTask
  split
  · exact ⟨l.writeTask, rfl⟩
  · split
    · exact ⟨l.writeTask, rfl⟩
    · exact ⟨armed, rfl⟩

theorem serving_createWriteTask (whole : t.Whole) (disconnected : t.link.disconnected = false) (paused : t.link.readTask = false)
    (armed : Bool) : Same t (t.createWriteTask armed).1 ∧ (t.createWriteTask armed).1.Serving := by
  rcases clearDisconnectHook_eq (t.touch [.data]) with ⟨hook, apart, cleared⟩
  rcases createWriteTask_eq { t.link with hook } armed with ⟨writeTask, made⟩
  have known : (t.createWriteTask armed).1 =
      { (t.touch [.data]).touch [.asyncConn] with link := { t.link with hook, writeTask } }.touch [.asyncConn, .connection] := by
    unfold createWriteTask
    rw [cleared]
    dsimp only
    rw [show ((t.touch [.data]).link) = t.link from rfl, made]
  have same : Same t (t.createWriteTask armed).1 := by
    rw [known]
    apply Same.touch
    apply Same.relink (((same_refl whole).touch [.data]).touch [.asyncConn])
    · exact whole.connection
    · intro gone
      have gone_ : t.link.disconnected = true := gone
      rw [disconnected] at gone_
      cases gone_
  refine ⟨same, same.whole, ?_, ?_, ?_⟩
  · rw [known]
    exact disconnected
  · intro reading
    rw [known] at reading
    have still : t.link.readTask = true := reading
    rw [paused] at still
    cases still
  · intro _
    rw [known]
    exact ⟨paused, apart⟩

theorem serving_touch (serving : t.Serving) (items : List Item) : (t.touch items).Serving :=
  ⟨whole_touch serving.whole items, serving.disconnected, serving.reading, serving.writing⟩

theorem respond_spec {u : ServerTask} (same : Same t u) (disconnected : u.link.disconnected = false) (buffered armed : Bool) :
    Same t (u.respond buffered armed).1 ∧ ((u.respond buffered armed).2 ≠ .error → (u.respond buffered armed).1.Serving) := by
  unfold respond
  split
  · exact ⟨same, fun no => absurd rfl no⟩
  · have paused := (same.touch [.asyncConn, .connection]).cancelRead
    rcases serving_createWriteTask paused.whole disconnected rfl armed with ⟨still, serving⟩
    exact ⟨⟨still.whole, still.id.trans paused.id, still.connList.trans paused.connList, still.wsList.trans paused.wsList⟩,
      fun _ => serving⟩

theorem readStep_spec (serving : t.Serving) (answer : Answer) :
    Same t (t.readStep answer).1 ∧ ((t.readStep answer).2 ≠ .error → (t.readStep answer).1.Serving) := by
  have looked := (same_refl serving.whole).touch [.data, .asyncConn, .connection, .parser]
  unfold readStep
  cases answer with
  | more => exact ⟨looked, fun _ => serving_touch serving _⟩
  | refused => exact ⟨looked, fun no => absurd rfl no⟩
  | response upgrade buffered armed =>
    apply respond_spec
    · cases upgrade with
      | false => exact looked
      | true =>
        have accepted : Same t { t.touch [.data, .asyncConn, .connection, .parser] with
            ws := true, hookOf := .websocket, link := { t.link with hook := true } } :=
          ⟨{ @whole_relink _ looked.whole { t.link with hook := true } serving.whole.connection serving.whole.idle with },
            rfl, rfl, rfl⟩
        exact accepted.touch [.asyncConn, .connection, .websocket]
    · cases upgrade with
      | false => exact serving.disconnected
      | true => exact serving.disconnected

theorem moves_handleDisconnect (serving : t.Serving) (reading : t.link.readTask = true) : Moves t t.handleDisconnect := by
  have hooked : t.link.handleDisconnect =
      ({ t.link with disconnected := true, readTask := false, writeTask := false }, true) := by
    unfold Link.handleDisconnect
    rw [if_neg (by rw [serving.disconnected]; decide)]
    dsimp only
    rw [(serving.reading reading).1]
  unfold handleDisconnect
  dsimp only
  rw [hooked]
  dsimp only
  rw [if_pos rfl]
  have server : ({ t with link := { t.link with disconnected := true, readTask := false, writeTask := false } }.touch
      [.asyncConn]).hookOf = .server := (serving.reading reading).2
  rw [server]
  have whole := whole_touch (@whole_relink _ serving.whole { t.link with disconnected := true, readTask := false, writeTask := false }
    serving.whole.connection fun _ => ⟨rfl, rfl⟩) [.asyncConn]
  exact { moves_cleanup whole with }

theorem moves_runRead (serving : t.Serving) (reading : t.link.readTask = true) (run : ReadRun) (answer : Answer) :
    Moves t (t.runRead run answer) := by
  have looked := (same_refl serving.whole).touch [.asyncConn, .connection]
  have still := serving_touch serving [.asyncConn, .connection]
  have paused := looked.cancelRead
  unfold runRead
  cases run with
  | waits => exact looked.serving serving.whole still
  | failed => exact paused.cleanup serving.whole
  | unarmed => exact paused.cleanup serving.whole
  | closed => exact looked.moves serving.whole (moves_handleDisconnect still reading)
  | bytes =>
    rcases readStep_spec still answer with ⟨same, goes⟩
    apply looked.moves serving.whole
    dsimp only
    cases status : ((t.touch [.asyncConn, .connection]).readStep answer).2 with
    | error => exact (same.touch [.asyncConn]).cleanup still.whole
    | more => exact same.serving still.whole (goes (by rw [status]; decide))
    | done => exact same.serving still.whole (goes (by rw [status]; decide))

/-! ## The hand-over to a websocket -/

def handedTrail (parser : Bool) : List (Access Item) :=
  [.free .data, .free .node, .use .node, .use .data, .use .asyncConn, .use .websocket, .use .websocket, .use .data] ++
    ((if parser then [.free .parser] else []) ++ [.use .data])

def unlistedTrail (parser : Bool) : List (Access Item) :=
  [.free .data, .free .node, .use .node, .use .data] ++
    (websocketTrail ++ ((if parser then [.free .parser] else []) ++ [.use .data]))

theorem afterWrite_handed (open_ : t.link.connection = true) (node : t.connNode = true) (ws : t.ws = true) :
    t.afterWrite {} = { t with
      link := { t.link with readTask := true }, httpParser := false, session := true, writeData := false
      connList := t.connList.erase t.id, wsList := t.wsList ++ [t.id], history := handedTrail t.httpParser ++ t.history } := by
  rcases t with ⟨⟨⟨connection, disconnected, hook, readTask, writeTask⟩, hookOf, data, parser, node_, ws_, session, writeData,
    wsFreed, history⟩, id, connList, wsList⟩
  cases open_
  cases node
  cases ws
  cases parser <;> cases readTask <;> rfl

theorem afterWrite_unlisted (open_ : t.link.connection = true) (node : t.connNode = true) (ws : t.ws = true) (armed : Bool) :
    t.afterWrite { listed := false, armed } = { t with
      link := ({ t.link with hook := false } : Link).closed, httpParser := false, wsFreed := true
      connList := t.connList.erase t.id, history := unlistedTrail t.httpParser ++ t.history } := by
  rcases t with ⟨⟨⟨connection, disconnected, hook, readTask, writeTask⟩, hookOf, data, parser, node_, ws_, session, writeData,
    wsFreed, history⟩, id, connList, wsList⟩
  cases open_
  cases node
  cases ws
  cases parser <;> cases disconnected <;> rfl

/-- The websocket that gets no read task is closed, and then closed again. -/
def twiceTrail (parser : Bool) : List (Access Item) :=
  [.free .data, .free .node, .use .node, .use .data] ++
    ([.free .websocket, .free .asyncConn, .use .asyncConn, .use .asyncConn, .use .websocket] ++
      ([.free .websocket, .free .asyncConn, .use .asyncConn, .use .asyncConn, .use .websocket, .use .websocket, .free .connection,
        .use .asyncConn, .use .websocket, .use .asyncConn, .use .websocket, .use .websocket, .use .data] ++
        ((if parser then [.free .parser] else []) ++ [.use .data])))

theorem afterWrite_unarmed (open_ : t.link.connection = true) (connected : t.link.disconnected = false)
    (paused : t.link.readTask = false) (node : t.connNode = true) (ws : t.ws = true) :
    (t.afterWrite { armed := false }).id = t.id ∧
      (t.afterWrite { armed := false }).history = twiceTrail t.httpParser ++ t.history := by
  rcases t with ⟨⟨⟨connection, disconnected, hook, readTask, writeTask⟩, hookOf, data, parser, node_, ws_, session, writeData,
    wsFreed, history⟩, id, connList, wsList⟩
  cases open_
  cases connected
  cases paused
  cases node
  cases ws
  cases parser with
  | false => exact ⟨rfl, rfl⟩
  | true => exact ⟨rfl, rfl⟩

theorem Same.upgraded {u : ServerTask} (same : Same t u) (whole : t.Whole) (connected : u.link.disconnected = false)
    (ws : u.ws = true) {given : HandOver} (armed : given.listed = true → given.armed = true) : Moves t (u.afterWrite given) := by
  apply same.moves whole
  have w := same.whole
  rcases given with ⟨listed, armed_⟩
  cases listed with
  | false =>
    rw [afterWrite_unlisted w.connection w.connNode ws]
    have trail : Clean (unlistedTrail u.httpParser) ∧ ∀ item ∈ [Item.asyncConn, .connection, .data],
        .free item ∈ unlistedTrail u.httpParser := by cases u.httpParser <;> decide
    refine moves_gone w ?_ rfl rfl rfl
    exact
      { connection := Link.closed_connection _
        idle := Link.closed_idle w.idle
        session := fun _ => rfl
        clean := Clean.later trail.1 w.clean fun access _ => w.unfreed access.about
        freed := fun item member => List.mem_append_left _ (trail.2 item (List.mem_append_left [Item.data] member))
        data := fun _ => List.mem_append_left _ (trail.2 .data (by decide)) }
  | true =>
    cases armed rfl
    rw [show ({ listed := true, armed := true } : HandOver) = {} from rfl, afterWrite_handed w.connection w.connNode ws]
    have trail : Clean (handedTrail u.httpParser) ∧ .free .data ∈ handedTrail u.httpParser ∧
        ∀ item ∈ [Item.websocket, .asyncConn, .connection], .free item ∉ handedTrail u.httpParser := by
      cases u.httpParser <;> decide
    refine ⟨rfl, ?_, ?_, Or.inr (Or.inl ?_)⟩
    · rw [http_whole w]
      unfold Client.http
      dsimp only
      rw [w.connection]
      rfl
    · rw [webSocket_whole w]
      unfold Client.webSocket
      dsimp only
      rw [w.connection]
      rfl
    · refine ⟨?_, rfl⟩
      exact
        { connection := w.connection
          disconnected := connected
          session := rfl
          wsFreed := w.wsFreed
          clean := Clean.later trail.1 w.clean fun access _ => w.unfreed access.about
          data := List.mem_append_left _ trail.2.1
          unfreed := fun item member freed => (List.mem_append.mp freed).elim (trail.2.2 item member) (w.unfreed item) }

theorem handleDisconnect_writing (serving : t.Serving) (writing : t.link.writeTask = true) : Same t t.cancelWrite.handleDisconnect := by
  have stopped := (same_refl serving.whole).cancelWrite
  have ended : Same t ({ t.cancelWrite with link := t.cancelWrite.link.handleDisconnect.1 }.touch [.asyncConn]) := by
    apply Same.touch
    apply stopped.relink
    · rw [Link.handleDisconnect_connection]
      exact serving.whole.connection
    · intro _
      exact Link.handleDisconnect_idle stopped.whole.idle
  unfold handleDisconnect
  dsimp only
  split
  · rename_i hooked
    have hook : t.link.hook = true := by
      unfold Link.handleDisconnect at hooked
      split at hooked
      · cases hooked
      · exact hooked
    have owner : (({ t.cancelWrite with link := t.cancelWrite.link.handleDisconnect.1 } : ServerTask).touch [.asyncConn]).hookOf =
        .websocket := (serving.writing writing).2 hook
    rw [owner]
    exact ended.touch [.websocket]
  · exact ended

theorem moves_runWrite (serving : t.Serving) (writing : t.link.writeTask = true) (run : WriteRun) {given : HandOver}
    (armed : run = .done → t.ws = true → given.listed = true → given.armed = true) : Moves t (t.runWrite run given) := by
  have looked := (same_refl serving.whole).touch [.asyncConn, .connection]
  have still := serving_touch serving [.asyncConn, .connection]
  have stopped := looked.cancelWrite.touch [.asyncConn]
  unfold runWrite
  cases run with
  | waits => exact looked.serving serving.whole still
  | failed => exact stopped.cleanup serving.whole
  | unarmed => exact stopped.cleanup serving.whole
  | closed =>
    apply looked.moves serving.whole
    exact ((handleDisconnect_writing still writing).touch [.asyncConn]).cleanup still.whole
  | done =>
    cases ws : t.ws with
    | true => exact stopped.upgraded serving.whole serving.disconnected ws (armed rfl ws)
    | false =>
      dsimp only
      unfold afterWrite
      dsimp only
      have http : (((t.touch [.asyncConn, .connection]).cancelWrite.touch [.asyncConn]).touch [.data]).ws = false := ws
      rw [if_neg (by rw [http]; decide)]
      exact (stopped.touch [.data]).cleanup serving.whole

/-! ## A connection that its websocket has -/

theorem http_held (held : t.Held) : t.http = false := by
  unfold Client.http
  rw [held.session, Bool.not_true, Bool.and_false]

theorem webSocket_held (held : t.Held) : t.webSocket = true := by
  unfold Client.webSocket
  rw [held.connection, held.session]
  rfl

/-- The same connection and lists, with nothing more freed. -/
structure Alike (t u : ServerTask) : Prop where
  held : u.Held
  id : u.id = t.id
  connList : u.connList = t.connList
  wsList : u.wsList = t.wsList

theorem alike_refl (held : t.Held) : Alike t t := ⟨held, rfl, rfl, rfl⟩

theorem Alike.moves {u v : ServerTask} (alike : Alike t u) (held : t.Held) (moves : Moves u v) : Moves t v where
  id := moves.id.trans alike.id
  connList := by rw [moves.connList, http_held alike.held, http_held held, alike.id, alike.connList]
  wsList := by rw [moves.wsList, webSocket_held alike.held, webSocket_held held, alike.id, alike.wsList]
  sound := moves.sound

theorem Alike.session {u : ServerTask} (alike : Alike t u) (held : t.Held) (reading : u.link.readTask = true) : Moves t u := by
  apply alike.moves held
  refine ⟨rfl, ?_, ?_, Or.inr (Or.inl ⟨alike.held, reading⟩)⟩
  · rw [relist_same]
  · rw [relist_same]

theorem Alike.touch {u : ServerTask} (alike : Alike t u) {items : List Item}
    (there : ∀ item ∈ items, item ∈ [Item.websocket, .asyncConn, .connection]) : Alike t (u.touch items) where
  held :=
    { connection := alike.held.connection
      disconnected := alike.held.disconnected
      session := alike.held.session
      wsFreed := alike.held.wsFreed
      clean := clean_touch alike.held.clean fun item member => alike.held.unfreed item (there item member)
      data := mem_touch.mpr alike.held.data
      unfreed := fun item member => mem_touch.not.mpr (alike.held.unfreed item member) }
  id := alike.id
  connList := alike.connList
  wsList := alike.wsList

theorem Alike.cancelRead {u : ServerTask} (alike : Alike t u) : Alike t u.cancelRead :=
  ⟨{ alike.held with }, alike.id, alike.connList, alike.wsList⟩

theorem Alike.cancelWrite {u : ServerTask} (alike : Alike t u) : Alike t u.cancelWrite :=
  ⟨{ alike.held with }, alike.id, alike.connList, alike.wsList⟩

theorem sound_items {accesses_ : List (Access Block)} : Accesses.Sound (accesses_.map itemAccess) ↔ Accesses.Sound accesses_ := by
  unfold Accesses.Sound
  rw [List.pairwise_map]
  apply List.Pairwise.iff
  intro earlier later
  rcases earlier with ⟨⟨⟩⟩ | ⟨⟨⟩⟩ <;> rcases later with ⟨⟨⟩⟩ | ⟨⟨⟩⟩ <;> decide

theorem mem_inSession {after : WsSession × List WsEvent} {item : Item} : .free item ∈ (t.inSession after).history ↔
    (∃ block, item = .ofBlock block ∧ WebSocket.free block ∈ after.2) ∨ .free item ∈ t.history := by
  unfold inSession
  dsimp only
  rw [List.mem_append, List.mem_reverse, List.mem_map]
  apply or_congr_left
  constructor
  · intro ⟨access, member, same⟩
    cases access with
    | use block => cases same
    | free block =>
      cases same
      exact ⟨block, rfl, WebSocket.mem_accesses.mp member⟩
  · intro ⟨block, same, member⟩
    exact ⟨.free block, WebSocket.mem_accesses.mpr member, by rw [same]; rfl⟩

theorem clean_inSession {after : WsSession × List WsEvent} (held : t.Held) (sound : Accesses.Sound (accesses after.2)) :
    Clean (t.inSession after).history := by
  have kept := held.unfreed
  apply Clean.later _ held.clean
  · intro access member
    rcases List.mem_map.mp (List.mem_reverse.mp member) with ⟨other, _, rfl⟩
    apply kept
    rcases other with ⟨⟨⟩⟩ | ⟨⟨⟩⟩ <;> decide
  · unfold Clean
    rw [List.reverse_reverse]
    exact sound_items.mpr sound

theorem view_open (held : t.Held) (handler pongCb : Bool) : (t.view handler pongCb).Open { handler, pongCb, server := true } :=
  ⟨rfl, held.connection, held.disconnected, held.wsFreed⟩

theorem unlist_there (there : t.wsFreed = false) : t.unlist = t := by
  unfold unlist
  rw [there]
  rfl

theorem Alike.stays {u : ServerTask} (alike : Alike t u) {callbacks : WebSocket.WsCallbacks} {after : WsSession × List WsEvent}
    (open_ : after.1.Open callbacks) (unfreed : ∀ block, WebSocket.free block ∉ after.2) :
    Alike t (u.inSession after).unlist ∧ (u.inSession after).unlist.link.readTask = u.link.readTask := by
  have same : ∀ {item : Item}, .free item ∈ (u.inSession after).history ↔ .free item ∈ u.history := by
    intro item
    rw [mem_inSession]
    constructor
    · rintro (⟨block, _, member⟩ | before)
      · exact absurd member (unfreed block)
      · exact before
    · exact Or.inr
  have sound : Accesses.Sound (accesses after.2) :=
    Accesses.sound_of_unfreed fun block member => unfreed block (WebSocket.mem_accesses.mp member)
  rw [unlist_there (show (u.inSession after).wsFreed = false from open_.freed)]
  refine ⟨⟨?_, alike.id, alike.connList, alike.wsList⟩, ?_⟩
  · exact
      { connection := open_.connection
        disconnected := open_.disconnected
        session := alike.held.session
        wsFreed := open_.freed
        clean := clean_inSession alike.held sound
        data := same.mpr alike.held.data
        unfreed := fun item member => same.not.mpr (alike.held.unfreed item member) }
  · show (u.link.readTask && !after.1.disconnected) = u.link.readTask
    rw [open_.disconnected]
    simp

theorem Alike.ends {u : ServerTask} (alike : Alike t u) (held : t.Held) {before : WsSession} {events : List WsEvent}
    (sound : Accesses.Sound (accesses events)) (frees : ∀ block, WebSocket.free block ∈ events) :
    Moves t (u.inSession (before.ended, events)).unlist := by
  apply alike.moves held
  have gone : (u.inSession (before.ended, events)).unlist.Gone :=
    { connection := rfl
      idle := ⟨Bool.and_false _, Bool.and_false _⟩
      session := fun _ => rfl
      clean := clean_inSession alike.held sound
      freed := by
        intro item member
        apply mem_inSession.mpr
        rcases List.mem_cons.mp member with rfl | member
        · exact Or.inl ⟨.asyncConn, rfl, frees .asyncConn⟩
        · rw [List.mem_singleton.mp member]
          exact Or.inl ⟨.connection, rfl, frees .connection⟩
      data := fun _ => mem_inSession.mpr (Or.inr alike.held.data) }
  refine ⟨rfl, ?_, ?_, Or.inr (Or.inr gone)⟩
  · have now : (u.inSession (before.ended, events)).unlist.http = false := rfl
    rw [http_held alike.held, now]
    rfl
  · have now : (u.inSession (before.ended, events)).unlist.webSocket = false := rfl
    rw [webSocket_held alike.held, now]
    rfl

theorem ending_frees (block : Block) : WebSocket.free block ∈ WsSession.ending := by
  cases block <;> decide

theorem Alike.leaves {u : ServerTask} (alike : Alike t u) (held : t.Held) (reading : u.link.readTask = true)
    {callbacks : WebSocket.WsCallbacks} {after : WsSession} {events : List WsEvent}
    (leaves : WsSession.Leaves callbacks after events) : Moves t (u.inSession (after, events)).unlist := by
  cases leaves with
  | stays open_ unfreed =>
    rcases @Alike.stays _ _ alike callbacks (after, events) open_ unfreed with ⟨still, same⟩
    exact still.session held (same.trans reading)
  | @ends before front same split unfreed =>
    have sound : Accesses.Sound (accesses events) := by
      rw [split, WebSocket.accesses_append]
      have kept : ∀ block, .free block ∉ accesses front := fun block member => unfreed block (WebSocket.mem_accesses.mp member)
      exact (Accesses.sound_of_unfreed kept).append (by decide) fun later _ => kept later.about
    rw [same]
    exact alike.ends held sound fun block => by rw [split]; exact List.mem_append_right _ (ending_frees block)

theorem Alike.closeSession {u : ServerTask} (alike : Alike t u) (held : t.Held) : Moves t u.closeSession := by
  unfold ServerTask.closeSession
  rw [WsSession.closeConn_server (view_open alike.held true true) rfl]
  exact alike.ends held (by decide) ending_frees

theorem Alike.hangUpSession {u : ServerTask} (alike : Alike t u) (held : t.Held) : Moves t u.hangUpSession := by
  unfold ServerTask.hangUpSession
  rw [WsSession.hangUp_server (view_open alike.held true true) rfl]
  exact alike.ends held (by decide) fun block => by cases block <;> decide

theorem looked_session (held : t.Held) : Alike t (t.touch [.asyncConn, .connection]) := (alike_refl held).touch (by decide)

theorem moves_runSessionRead (session : t.Session) (run : ReadRun) (handler pongCb : Bool) (alloc : Allocator) (buffer : Bytes)
    {turn : Nat → WsTurn} (armed : Bool) (alive : run = .bytes → ∀ frame ∈ WebSocket.dispatchedTurns (WsSession.batch alloc buffer turn),
      frame.frees { handler, pongCb, server := true } = false) :
    Moves t (t.runSessionRead run handler pongCb alloc buffer turn armed) := by
  have held := session.held
  have looked := looked_session held
  unfold runSessionRead
  cases run with
  | waits => exact looked.session held session.reading
  | failed => exact (looked.cancelRead.touch (by decide)).closeSession held
  | unarmed => exact (looked.cancelRead.touch (by decide)).closeSession held
  | closed => exact looked.hangUpSession held
  | bytes =>
    dsimp only
    generalize armed' : (armed || (t.touch [.asyncConn, .connection]).link.writeTask) = ready
    have leaves := WsSession.leaves_readStep rfl (view_open looked.held handler pongCb) alloc buffer ready (alive rfl)
    have moves := looked.leaves held session.reading leaves
    refine ⟨moves.id, moves.connList, moves.wsList, ?_⟩
    rcases moves.sound with serving | still | gone
    · have taken : t.session = false := serving.whole.session
      rw [held.session] at taken
      cases taken
    · exact Or.inr (Or.inl ⟨{ still.held with }, still.reading⟩)
    · -- no write task is created for a connection that is closed
      have none_ : (((t.touch [.asyncConn, .connection]).view handler pongCb).readStepEnd alloc buffer turn ready).2 = false := by
        by_contra creates
        have there := WsSession.readStepEnd_armed ((Bool.not_eq_false _).mp creates)
        have closed : (((t.touch [.asyncConn, .connection]).view handler pongCb).readStepEnd alloc buffer turn ready).1.connection =
          false := gone.connection
        rw [closed] at there
        cases there
      rw [none_, Bool.or_false]
      exact Or.inr (Or.inr gone)

theorem createSessionRead_there (open_ : t.link.connection = true) (reading : t.link.readTask = true) (armed : Bool) :
    t.createSessionRead armed = (t.touch [.websocket, .asyncConn], true) := by
  have there : (t.touch [.websocket, .asyncConn]).link.createReadTask armed = (t.link, true) := by
    show t.link.createReadTask armed = _
    unfold Link.createReadTask
    rw [if_neg (by rw [open_]; decide), if_pos reading]
  unfold createSessionRead
  dsimp only
  rw [there]
  rfl

theorem moves_runSessionWrite (session : t.Session) {run : WriteRun} (armed : Bool) (open_ : run ≠ .closed) :
    Moves t (t.runSessionWrite run armed) := by
  have held := session.held
  have looked := looked_session held
  unfold runSessionWrite
  cases run with
  | waits => exact looked.session held session.reading
  | failed => exact (looked.cancelWrite.touch (by decide)).closeSession held
  | unarmed => exact (looked.cancelWrite.touch (by decide)).closeSession held
  | closed => exact absurd rfl open_
  | done =>
    have written : Alike t { (t.touch [.asyncConn, .connection]).cancelWrite with writeData := false } :=
      ⟨{ looked.cancelWrite.held with }, looked.id, looked.connList, looked.wsList⟩
    have looked_ := @Alike.touch _ _ written [.asyncConn] (by decide)
    have found := createSessionRead_there looked_.held.connection session.reading armed
    dsimp only
    rw [found]
    exact (looked_.touch (by decide)).session held session.reading

theorem moves_callSession (session : t.Session) {call : WsCall} (spares : call ≠ .destroy) : Moves t (t.callSession call) := by
  have held := session.held
  have leaves := WsSession.leaves_perform (view_open held true true) rfl spares
  have moves := (alike_refl held).leaves held session.reading leaves
  unfold callSession
  cases call with
  | destroy => exact absurd rfl spares
  | send kind payload sending => exact moves
  | sendClose payload sending => exact moves
  | close => exact moves

/-! ## A connection that was just accepted -/

/-- Nothing has happened to the connection. -/
def arrived (place : Nat) (connList wsList : List Nat) : ServerTask := { id := place, connList, wsList }

structure Arrives (place : Nat) (connList wsList : List Nat) (u : ServerTask) : Prop where
  id : u.id = place
  connList : u.connList = relist false u.http place connList
  wsList : u.wsList = relist false u.webSocket place wsList
  sound : u.Serving ∨ u.Session ∨ u.Gone

theorem arrives_accept (place : Nat) (connList wsList : List Nat) {attempt : Attempt}
    (spares : attempt.data = true → attempt.parser = true → attempt.armed = true ∧ attempt.node = true) :
    Arrives place connList wsList ((arrived place connList wsList).accept attempt) := by
  rcases attempt with ⟨data, parser, armed, node⟩
  cases data with
  | false =>
    have history : ((arrived place connList wsList).accept { data := false, parser, armed, node }).history =
        [.free .asyncConn, .use .asyncConn, .free .connection, .use .asyncConn] := rfl
    refine ⟨rfl, rfl, rfl, Or.inr (Or.inr ⟨rfl, ⟨rfl, rfl⟩, (fun no => by cases no), ?_, ?_, fun no => by cases no⟩)⟩
    · rw [history]
      decide
    · rw [history]
      decide
  | true =>
    cases parser with
    | false =>
      have history : ((arrived place connList wsList).accept { parser := false, armed, node }).history =
          [.free .asyncConn, .use .asyncConn, .free .connection, .use .asyncConn, .free .data, .use .data] := rfl
      refine ⟨rfl, rfl, rfl, Or.inr (Or.inr ⟨rfl, ⟨rfl, rfl⟩, (fun no => by cases no), ?_, ?_, fun _ => ?_⟩)⟩
      · rw [history]
        decide
      · rw [history]
        decide
      · rw [history]
        decide
    | true =>
      rcases spares rfl rfl with ⟨rfl, rfl⟩
      have history : ((arrived place connList wsList).accept {}).history =
          [.use .data, .use .connection, .use .asyncConn, .use .asyncConn, .use .data] := rfl
      have clean : Clean ((arrived place connList wsList).accept {}).history := by
        rw [history]
        decide
      have unfreed : ∀ item, .free item ∉ ((arrived place connList wsList).accept {}).history := by
        rw [history]
        intro item
        cases item <;> decide
      exact ⟨rfl, rfl, rfl, Or.inl ⟨⟨rfl, rfl, rfl, rfl, rfl, (fun no => by cases no), clean, unfreed⟩, rfl, (fun _ => ⟨rfl, rfl⟩),
        fun no => by cases no⟩⟩

end ServerTask

end BlueBird.Server
