import BlueBird.Connection.RequestDelivery
import BlueBird.Http.Router
import BlueBird.Program.Steps
import BlueBird.WebSocket.Answer
import BlueBird.WebSocket.HeaderCase

/-! What the server does with a request that was read: the route, the middlewares around its handler, the answer. -/

namespace BlueBird.Server

open BlueBird.Http (BbResponse Message Route RouteType ServerRequest routeListMatch)
open BlueBird.WebSocket (acceptKey addsConnection isUpgradeRequest)
open Steps (Runs)

/-- A `bb_http_handler_cb` or `bb_ws_handler_cb`, by its address. -/
abbrev Callback : Type := Nat

/-- A `bb_error_t` whose code is not `BB_OK`; success is none. -/
structure BbError where
  code : Int32
  msg : Bytes
  deriving DecidableEq

def errInternal : Int32 := 4

/-- What the steps for one request are taken by: a call of a middleware or handler, or the upgrade to a websocket. -/
inductive Stage where
  | call (f : Callback)
  | upgrade (handler : Callback)
  deriving DecidableEq

/-- What the steps work on, with those taken so far. `world` is what the application keeps for itself. -/
structure Exchange (World : Type) where
  world : World
  req : ServerRequest
  res : BbResponse := {}
  ws : Option Callback := none
  taken : List Stage := []

structure Reply (World : Type) where
  world : World
  req : ServerRequest
  res : BbResponse
  error : Option BbError

/-- `bb_server_t` as far as requests go. -/
structure BbServer where
  routeList : List (Route Callback) := []
  preMiddlewareList : List Callback := []
  postMiddlewareList : List Callback := []

/-- What comes of a request: the responses in the write list and the error of the read step. -/
structure Served (World : Type) where
  world : World
  taken : List Stage
  ws : Option Callback
  queued : List BbResponse
  error : Option BbError

def responseSetHeader (res : BbResponse) (name value : Bytes) : BbResponse :=
  { res with msg := res.msg.setHeader name value }

def plainText (res : BbResponse) (statusCode : Int32) (text : String) : BbResponse :=
  { statusCode, msg := { res.msg.setHeader (ascii "Content-Type") (ascii "text/plain") with body := ascii text } }

def default404 (res : BbResponse) : BbResponse := plainText res 404 "Route Not Found"
def default400 (res : BbResponse) : BbResponse := plainText res 400 "Bad Request"

def middlewareListAppend (fs : List Callback) (f : Callback) : List Callback := fs ++ [f]

/-- `_http_pipeline_failed`; the error goes to the log alone. -/
def httpPipelineFailed (res : BbResponse) : BbResponse :=
  if res.statusCode < 400 then plainText res 500 "Internal Server Error" else res

/-- `bb_websocket_accept_req` -/
def websocketAcceptReq (req : ServerRequest) (res : BbResponse) : Option BbResponse :=
  if isUpgradeRequest req.msg then
    (req.msg.getHeader (ascii "Sec-WebSocket-Key")).map fun clientKey =>
      responseSetHeader (responseSetHeader (responseSetHeader { res with statusCode := 101 }
        (ascii "Upgrade") (ascii "websocket")) (ascii "Connection") (ascii "Upgrade"))
        (ascii "Sec-WebSocket-Accept") (acceptKey clientKey)
  else none

/-- The server ends the connection behind a response that does not switch protocols, and says so. -/
def closing (res : BbResponse) : BbResponse :=
  if addsConnection res then responseSetHeader res (ascii "Connection") (ascii "close") else res

section
variable {World : Type} (call : Callback → Exchange World → Reply World)

def invoke (x : Exchange World) (f : Callback) : Exchange World × Option BbError :=
  let reply := call f x
  ({ x with world := reply.world, req := reply.req, res := reply.res, taken := x.taken ++ [.call f] }, reply.error)

def middlewareListRun (x : Exchange World) : List Callback → Exchange World × Option BbError
  | [] => (x, none)
  | f :: fs =>
    let result := invoke call x f
    match result.2 with
    | some err => (result.1, some err)
    | none => middlewareListRun result.1 fs

def runHttpRoute (server : BbServer) (handler : Callback) (x : Exchange World) : Exchange World × Option BbError :=
  let failed (x : Exchange World) : Exchange World × Option BbError := ({ x with res := httpPipelineFailed x.res }, none)
  let before := middlewareListRun call x server.preMiddlewareList
  if before.2.isSome then failed before.1
  else
    let handled := invoke call before.1 handler
    if handled.2.isSome then failed handled.1
    else
      let behind := middlewareListRun call handled.1 server.postMiddlewareList
      if behind.2.isSome then failed behind.1 else behind

/-- `_run_websocket_route`, where there is memory for the websocket. -/
def runWebsocketRoute (handler : Callback) (x : Exchange World) : Exchange World × Option BbError :=
  let x := { x with taken := x.taken ++ [.upgrade handler] }
  match websocketAcceptReq x.req x.res with
  | none => (x, some { code := errInternal, msg := ascii "Failed to create websocket." })
  | some res => ({ x with res, ws := some handler }, none)

def runRequestPipeline (server : BbServer) (x : Exchange World) : Exchange World × Option BbError :=
  match routeListMatch server.routeList x.req with
  | (none, req) => ({ x with req, res := default404 x.res }, none)
  | (some route, req) =>
    match route.type with
    | .http => runHttpRoute call server route.handler { x with req }
    | .websocket => runWebsocketRoute route.handler { x with req }

/-- `_server_read_step` behind the parser, which hands on no request where it could not be converted. -/
def answer (server : BbServer) (world : World) : Option ServerRequest → Served World
  | none => { world, taken := [], ws := none, queued := [closing (default400 {})], error := none }
  | some req =>
    let routed := runRequestPipeline call server { world, req }
    { world := routed.1.world, taken := routed.1.taken, ws := routed.1.ws, error := routed.2
      queued := if routed.2.isSome then [] else [closing routed.1.res] }

end

/-! ## One answer -/

/-- The handler of a websocket route is the upgrade. -/
def stages (server : BbServer) (route : Route Callback) : List Stage :=
  server.preMiddlewareList.map .call ++
    [match route.type with
      | .http => .call route.handler
      | .websocket => .upgrade route.handler] ++
    server.postMiddlewareList.map .call

def Kept (before after : BbResponse) : Prop :=
  ∀ name value, before.msg.getHeader name = some value → after.msg.getHeader name = some value

/-- The response to send for the one that the last step left and the error it returned. -/
structure Answers (left : BbResponse) (err : Option BbError) (sent : BbResponse) : Prop where
  asLeft : err = none ∨ ¬ left.statusCode < 400 → sent = closing left
  fixed : err ≠ none → left.statusCode < 400 →
    sent.statusCode = 500 ∧ sent.msg.body = ascii "Internal Server Error" ∧ Kept left sent

section
variable {World : Type} (call : Callback → Exchange World → Reply World)

def perform (x : Exchange World) : Stage → Exchange World × Option BbError
  | .call f => invoke call x f
  | .upgrade handler => runWebsocketRoute handler x

def reworded (say : Callback → Exchange World → Bytes) (f : Callback) (x : Exchange World) : Reply World :=
  { call f x with error := (call f x).error.map fun err => { err with msg := say f x } }

/-- A request gets one response, after the steps for its route, and no error's text is told. -/
structure OneAnswer (server : BbServer) (world : World) (req : Option ServerRequest) : Prop where
  one : ∃ sent, (answer call server world req).queued = [sent]
  sound : (answer call server world req).error = none
  steps : ∀ asked route given, req = some asked → routeListMatch server.routeList asked = (some route, given) →
    ∃ left err, Runs (perform call) (stages server route) { world, req := given } (answer call server world req).taken left err ∧
      ∀ sent ∈ (answer call server world req).queued, Answers left.res err sent
  silent : ∀ say, (answer (reworded call say) server world req).queued = (answer call server world req).queued

/-- A websocket route is asked for an upgrade and has no middlewares around it. Where a step of another route fails and
    leaves a status below 400, it leaves no `Content-Type` but that of the fixed answer. -/
structure Plain (server : BbServer) (world : World) (req : Option ServerRequest) : Prop where
  websocket : ∀ asked route given, req = some asked → routeListMatch server.routeList asked = (some route, given) →
    route.type = .websocket →
      isUpgradeRequest given.msg = true ∧ server.preMiddlewareList = [] ∧ server.postMiddlewareList = []
  http : ∀ asked route given taken left err, req = some asked → routeListMatch server.routeList asked = (some route, given) →
    route.type = .http → Runs (perform call) (stages server route) { world, req := given } taken left (some err) →
      left.res.statusCode < 400 → ∀ value, left.res.msg.getHeader (ascii "Content-Type") = some value → value = ascii "text/plain"

end

/-! ## Headers -/

theorem getHeader_setHeader (msg : Message) (name value other : Bytes) :
    (msg.setHeader name value).getHeader other = if other = name then some value else msg.getHeader other := by
  unfold Message.getHeader
  rw [Message.setHeader_headers]
  exact OrderedMap.get?_set msg.headers name value other

theorem closing_rest (res : BbResponse) : (closing res).statusCode = res.statusCode ∧ (closing res).msg.body = res.msg.body := by
  unfold closing
  by_cases adds : addsConnection res = true
  · rw [if_pos adds]
    exact ⟨rfl, (Message.setHeader_rest _ _ _).2⟩
  · rw [if_neg adds]
    exact ⟨rfl, rfl⟩

theorem closing_kept (res : BbResponse) : Kept res (closing res) := by
  intro name value had
  unfold closing
  by_cases adds : addsConnection res = true
  · rw [if_pos adds]
    show (res.msg.setHeader _ _).getHeader name = _
    rw [getHeader_setHeader]
    by_cases same : name = ascii "Connection"
    · -- the field was not there
      have absent := (Bool.and_eq_true_iff.mp adds).2
      rw [same] at had
      rw [had] at absent
      cases absent
    · rw [if_neg same]
      exact had
  · rw [if_neg adds]
    exact had

theorem closing_getHeader {res : BbResponse} {name : Bytes} (other : name ≠ ascii "Connection") :
    (closing res).msg.getHeader name = res.msg.getHeader name := by
  unfold closing
  by_cases adds : addsConnection res = true
  · rw [if_pos adds]
    show (res.msg.setHeader _ _).getHeader name = _
    rw [getHeader_setHeader, if_neg other]
  · rw [if_neg adds]

theorem plainText_getHeader (res : BbResponse) (statusCode : Int32) (text : String) (name : Bytes) :
    (plainText res statusCode text).msg.getHeader name =
      if name = ascii "Content-Type" then some (ascii "text/plain") else res.msg.getHeader name :=
  getHeader_setHeader res.msg _ _ name

theorem plainText_kept (res : BbResponse) (statusCode : Int32) (text : String) :
    Kept res (closing (plainText res statusCode text)) ↔
      ∀ value, res.msg.getHeader (ascii "Content-Type") = some value → value = ascii "text/plain" := by
  constructor
  · intro kept value had
    have after := kept _ _ had
    rw [closing_getHeader (by decide), plainText_getHeader, if_pos rfl] at after
    exact (Option.some.inj after).symm
  · intro plain name value had
    apply closing_kept
    rw [plainText_getHeader]
    by_cases same : name = ascii "Content-Type"
    · rw [if_pos same, plain value (by rw [← same]; exact had)]
    · rw [if_neg same]
      exact had

theorem answers_passed (left : BbResponse) : Answers left none (closing left) where
  asLeft _ := rfl
  fixed failed := absurd rfl failed

theorem answers_failed (left : BbResponse) (err : BbError) :
    Answers left (some err) (closing (httpPipelineFailed left)) ↔
      (left.statusCode < 400 →
        ∀ value, left.msg.getHeader (ascii "Content-Type") = some value → value = ascii "text/plain") := by
  constructor
  · intro answers low
    have kept := (answers.fixed (Option.some_ne_none err) low).2.2
    unfold httpPipelineFailed at kept
    rw [if_pos low] at kept
    exact (plainText_kept left _ _).mp kept
  · intro plain
    unfold httpPipelineFailed
    constructor
    · intro high
      rw [if_neg (high.resolve_left (Option.some_ne_none err))]
    · intro _ low
      rw [if_pos low]
      exact ⟨(closing_rest _).1, (closing_rest _).2, (plainText_kept left _ _).mpr (plain low)⟩

/-! ## The steps that are taken -/

section
variable {World : Type} {call : Callback → Exchange World → Reply World}

theorem websocketAcceptReq_isSome (req : ServerRequest) (res : BbResponse) :
    (websocketAcceptReq req res).isSome = isUpgradeRequest req.msg := by
  unfold websocketAcceptReq
  by_cases upgrade : isUpgradeRequest req.msg = true
  · rw [if_pos upgrade, Option.isSome_map, upgrade]
    cases key : req.msg.getHeader (ascii "Sec-WebSocket-Key") with
    | some value => rfl
    | none =>
      unfold isUpgradeRequest at upgrade
      simp [key] at upgrade
  · rw [if_neg upgrade]
    exact (Bool.eq_false_iff.mpr upgrade).symm

theorem runWebsocketRoute_error (handler : Callback) (x : Exchange World) :
    (runWebsocketRoute handler x).2.isSome = !isUpgradeRequest x.req.msg := by
  have accepted := websocketAcceptReq_isSome x.req x.res
  unfold runWebsocketRoute
  cases result : websocketAcceptReq x.req x.res with
  | none =>
    rw [result] at accepted
    rw [← accepted]
    simp only [result]
    rfl
  | some res =>
    rw [result] at accepted
    rw [← accepted]
    simp only [result]
    rfl

theorem perform_taken (x : Exchange World) (stage : Stage) : (perform call x stage).1.taken = x.taken ++ [stage] := by
  cases stage with
  | call f => rfl
  | upgrade handler =>
    show (runWebsocketRoute handler x).1.taken = _
    unfold runWebsocketRoute
    cases result : websocketAcceptReq x.req x.res <;> simp only [result]

theorem runs_taken {steps taken : List Stage} {x left : Exchange World} {err : Option BbError}
    (run : Runs (perform call) steps x taken left err) : left.taken = x.taken ++ taken := by
  induction run with
  | done x => exact (List.append_nil _).symm
  | stops fails => exact perform_taken _ _
  | goes passes later ih => rw [ih, perform_taken, List.append_assoc, List.singleton_append]

theorem middlewareListRun_runs (fs : List Callback) (x : Exchange World) :
    ∃ taken, Runs (perform call) (fs.map .call) x taken (middlewareListRun call x fs).1 (middlewareListRun call x fs).2 := by
  induction fs generalizing x with
  | nil => exact ⟨[], .done x⟩
  | cons f fs ih =>
    have unfolded : middlewareListRun call x (f :: fs) = match (invoke call x f).2 with
      | some err => ((invoke call x f).1, some err)
      | none => middlewareListRun call (invoke call x f).1 fs := rfl
    rw [unfolded]
    cases result : (invoke call x f).2 with
    | some err => exact ⟨[.call f], @Runs.stops _ _ _ (perform call) (.call f) _ x err result⟩
    | none =>
      rcases ih (invoke call x f).1 with ⟨taken, later⟩
      exact ⟨.call f :: taken, @Runs.goes _ _ _ (perform call) (.call f) _ _ x _ _ result later⟩

theorem runHttpRoute_runs (server : BbServer) {route : Route Callback} (http : route.type = .http) (x : Exchange World) :
    ∃ taken left err, Runs (perform call) (stages server route) x taken left err ∧
      (runHttpRoute call server route.handler x).1 =
        { left with res := if err.isSome then httpPipelineFailed left.res else left.res } ∧
      (runHttpRoute call server route.handler x).2 = none := by
  have handler : stages server route = server.preMiddlewareList.map .call ++ [.call route.handler] ++
      server.postMiddlewareList.map .call := by
    unfold stages
    rw [http]
  rw [handler]
  rcases middlewareListRun_runs server.preMiddlewareList x with ⟨taken, before⟩
  unfold runHttpRoute
  cases first : (middlewareListRun call x server.preMiddlewareList).2 with
  | some err =>
    rw [first] at before
    refine ⟨taken, _, some err, (before.failed _).failed _, ?_, ?_⟩
    · simp only [first, Option.isSome_some, if_true]
    · simp only [first, Option.isSome_some, if_true]
  | none =>
    rw [first] at before
    have handled : Runs (perform call) [.call route.handler] (middlewareListRun call x server.preMiddlewareList).1
      [.call route.handler] (invoke call (middlewareListRun call x server.preMiddlewareList).1 route.handler).1
      (invoke call (middlewareListRun call x server.preMiddlewareList).1 route.handler).2 := .one
    simp only [first, Option.isSome_none, Bool.false_eq_true, if_false]
    cases second : (invoke call (middlewareListRun call x server.preMiddlewareList).1 route.handler).2 with
    | some err =>
      rw [second] at handled
      exact ⟨_, _, some err, (before.then handled).failed _, rfl, rfl⟩
    | none =>
      rw [second] at handled
      rcases middlewareListRun_runs server.postMiddlewareList
        (invoke call (middlewareListRun call x server.preMiddlewareList).1 route.handler).1 with ⟨after, behind⟩
      simp only [Option.isSome_none, Bool.false_eq_true, if_false]
      cases third : (middlewareListRun call (invoke call (middlewareListRun call x server.preMiddlewareList).1 route.handler).1
          server.postMiddlewareList).2 with
      | some err =>
        rw [third] at behind
        exact ⟨_, _, some err, (before.then handled).then behind, rfl, rfl⟩
      | none =>
        rw [third] at behind
        exact ⟨_, _, none, (before.then handled).then behind, rfl, third⟩

/-! ## What the errors say -/

theorem middlewareListRun_reworded (say : Callback → Exchange World → Bytes) (fs : List Callback) (x : Exchange World) :
    (middlewareListRun (reworded call say) x fs).1 = (middlewareListRun call x fs).1 ∧
      (middlewareListRun (reworded call say) x fs).2.isSome = (middlewareListRun call x fs).2.isSome := by
  induction fs generalizing x with
  | nil => exact ⟨rfl, rfl⟩
  | cons f fs ih =>
    have error : (invoke (reworded call say) x f).2 = (invoke call x f).2.map fun err => { err with msg := say f x } := rfl
    simp only [middlewareListRun]
    rw [error]
    cases (invoke call x f).2 with
    | some err => exact ⟨rfl, rfl⟩
    | none => exact ih _

theorem runHttpRoute_reworded (say : Callback → Exchange World → Bytes) (server : BbServer) (handler : Callback)
    (x : Exchange World) : runHttpRoute (reworded call say) server handler x = runHttpRoute call server handler x := by
  have before := @middlewareListRun_reworded World call say server.preMiddlewareList x
  have handled : ∀ y, (invoke (reworded call say) y handler).2.isSome = (invoke call y handler).2.isSome :=
    fun y => Option.isSome_map
  unfold runHttpRoute
  simp only [before.1, before.2, handled]
  by_cases first : (middlewareListRun call x server.preMiddlewareList).2.isSome = true
  · rw [if_pos first, if_pos first]
  · rw [if_neg first, if_neg first]
    generalize (middlewareListRun call x server.preMiddlewareList).1 = y
    by_cases second : (invoke call y handler).2.isSome = true
    · rw [if_pos second, if_pos second]
      rfl
    · rw [if_neg second, if_neg second]
      have behind := @middlewareListRun_reworded World call say server.postMiddlewareList (invoke call y handler).1
      have same : (invoke (reworded call say) y handler).1 = (invoke call y handler).1 := rfl
      rw [same, behind.1, behind.2]
      by_cases third : (middlewareListRun call (invoke call y handler).1 server.postMiddlewareList).2.isSome = true
      · rw [if_pos third, if_pos third]
      · rw [if_neg third, if_neg third]
        apply Prod.ext behind.1
        rw [Option.not_isSome_iff_eq_none.mp third]
        exact Option.not_isSome_iff_eq_none.mp (by rw [behind.2]; exact third)

theorem answer_reworded (say : Callback → Exchange World → Bytes) (server : BbServer) (world : World)
    (req : Option ServerRequest) : answer (reworded call say) server world req = answer call server world req := by
  have routed : ∀ x : Exchange World, runRequestPipeline (reworded call say) server x = runRequestPipeline call server x := by
    intro x
    simp only [runRequestPipeline, runHttpRoute_reworded]
  cases req with
  | none => rfl
  | some asked =>
    unfold answer
    simp only [routed]

/-! ## Exactly when there is one answer -/

theorem answer_http {server : BbServer} (world : World) {asked given : ServerRequest} {route : Route Callback}
    (found : routeListMatch server.routeList asked = (some route, given)) (http : route.type = .http) :
    ∃ taken left err, Runs (perform call) (stages server route) { world, req := given } taken left err ∧
      (answer call server world (some asked)).taken = taken ∧ (answer call server world (some asked)).error = none ∧
      (answer call server world (some asked)).queued =
        [closing (if err.isSome then httpPipelineFailed left.res else left.res)] := by
  rcases runHttpRoute_runs server http { world, req := given } with ⟨taken, left, err, run, result, passed⟩
  have routed : runRequestPipeline call server { world, req := asked } =
      runHttpRoute call server route.handler { world, req := given } := by
    unfold runRequestPipeline
    simp only [found, http]
  have steps := runs_taken run
  refine ⟨taken, left, err, run, ?_, ?_, ?_⟩
  · show (runRequestPipeline call server { world, req := asked }).1.taken = _
    rw [routed, result]
    exact steps
  · show (runRequestPipeline call server { world, req := asked }).2 = _
    rw [routed, passed]
  · show (if (runRequestPipeline call server { world, req := asked }).2.isSome then _ else _) = _
    rw [routed, passed, result]
    rfl

theorem answer_websocket {server : BbServer} (world : World) {asked given : ServerRequest} {route : Route Callback}
    (found : routeListMatch server.routeList asked = (some route, given)) (websocket : route.type = .websocket) :
    (answer call server world (some asked)).taken = [.upgrade route.handler] ∧
      (answer call server world (some asked)).error.isSome = !isUpgradeRequest given.msg ∧
      (answer call server world (some asked)).error = (runWebsocketRoute route.handler ({ world, req := given } : Exchange World)).2 ∧
      (answer call server world (some asked)).queued = if isUpgradeRequest given.msg then
        [closing (runWebsocketRoute route.handler ({ world, req := given } : Exchange World)).1.res] else [] := by
  have routed : runRequestPipeline call server { world, req := asked } =
      runWebsocketRoute route.handler { world, req := given } := by
    unfold runRequestPipeline
    simp only [found, websocket]
  have error := runWebsocketRoute_error route.handler ({ world, req := given } : Exchange World)
  refine ⟨?_, ?_, ?_, ?_⟩
  · show (runRequestPipeline call server { world, req := asked }).1.taken = _
    rw [routed]
    exact @perform_taken World call _ (.upgrade route.handler)
  · show (runRequestPipeline call server { world, req := asked }).2.isSome = _
    rw [routed, error]
  · show (runRequestPipeline call server { world, req := asked }).2 = _
    rw [routed]
  · show (if (runRequestPipeline call server { world, req := asked }).2.isSome then _ else _) = _
    rw [routed, error]
    cases isUpgradeRequest given.msg <;> rfl

theorem runs_upgrade {server : BbServer} {route : Route Callback} (websocket : route.type = .websocket) {x left : Exchange World}
    {err : Option BbError} (upgrade : isUpgradeRequest x.req.msg = true)
    (run : Runs (perform call) (stages server route) x [.upgrade route.handler] left err) :
    server.preMiddlewareList = [] ∧ server.postMiddlewareList = [] := by
  unfold stages at run
  rw [websocket] at run
  cases pre : server.preMiddlewareList with
  | cons f fs =>
    rw [pre] at run
    cases run
  | nil =>
    rw [pre] at run
    cases run with
    | stops fails =>
      have passes := runWebsocketRoute_error route.handler x
      rw [upgrade] at passes
      have failed : (runWebsocketRoute route.handler x).2 = some _ := fails
      rw [failed] at passes
      cases passes
    | goes passes later =>
      cases post : server.postMiddlewareList with
      | nil => exact ⟨rfl, rfl⟩
      | cons f fs =>
        have more : Runs (perform call) (List.map Stage.call server.postMiddlewareList) _ [] left err := later
        rw [post] at more
        cases more

theorem oneAnswer_iff (call : Callback → Exchange World → Reply World) (server : BbServer) (world : World)
    (req : Option ServerRequest) : OneAnswer call server world req ↔ Plain call server world req := by
  constructor
  · intro answered
    constructor
    · intro asked route given request found websocket
      rw [request] at answered
      rcases answer_websocket world found websocket with ⟨taken, error, _, queued⟩
      have upgrade : isUpgradeRequest given.msg = true := by
        rw [answered.sound] at error
        cases shape : isUpgradeRequest given.msg with
        | true => rfl
        | false =>
          rw [shape] at error
          cases error
      rcases answered.steps asked route given rfl found with ⟨left, err, run, _⟩
      rw [taken] at run
      exact ⟨upgrade, runs_upgrade websocket upgrade run⟩
    · intro asked route given taken left err request found http run
      rw [request] at answered
      rcases answer_http world found http with ⟨taken', left', err', run', steps, _, queued⟩
      rcases run.unique run' with ⟨_, state, error⟩
      rcases answered.steps asked route given rfl found with ⟨left₂, err₂, run₂, answers⟩
      rcases run₂.unique run with ⟨_, state₂, error₂⟩
      rw [queued, state₂, error₂, ← state, ← error] at answers
      exact (answers_failed left.res err).mp (answers _ List.mem_cons_self)
  · intro plain
    have silent : ∀ say, (answer (reworded call say) server world req).queued = (answer call server world req).queued :=
      fun say => congrArg Served.queued (answer_reworded say server world req)
    cases req with
    | none =>
      exact ⟨⟨_, rfl⟩, rfl, fun asked route given request => (by cases request), silent⟩
    | some asked =>
      rcases routing : routeListMatch server.routeList asked with ⟨none_ | route, given⟩
      · have routed : runRequestPipeline call server { world, req := asked } =
            ({ world, req := given, res := default404 {} }, none) := by
          unfold runRequestPipeline
          simp only [routing]
        have unanswered : (answer call server world (some asked)).queued = [closing (default404 {})] := by
          show (if (runRequestPipeline call server { world, req := asked }).2.isSome then _ else _) = _
          rw [routed]
          rfl
        have sound : (answer call server world (some asked)).error = none := by
          show (runRequestPipeline call server { world, req := asked }).2 = _
          rw [routed]
        refine ⟨⟨_, unanswered⟩, sound, ?_, silent⟩
        intro other route given' request found
        rw [← Option.some.inj request, routing] at found
        cases found
      · cases type : route.type with
        | http =>
          rcases answer_http world routing type with ⟨taken, left, err, run, steps, sound, queued⟩
          refine ⟨⟨_, queued⟩, sound, ?_, silent⟩
          intro other route' given' request found
          rw [← Option.some.inj request, routing] at found
          cases found
          rw [steps, queued]
          refine ⟨left, err, run, ?_⟩
          intro sent member
          rw [List.mem_singleton.mp member]
          cases err with
          | none => exact answers_passed left.res
          | some e => exact (answers_failed left.res e).mpr (plain.http asked route given taken left e rfl routing type run)
        | websocket =>
          rcases plain.websocket asked route given rfl routing type with ⟨upgrade, pre, post⟩
          rcases answer_websocket world routing type with ⟨taken, error, same, queued⟩
          rw [if_pos upgrade] at queued
          have sound : (answer call server world (some asked)).error = none := by
            rw [upgrade] at error
            exact Option.isSome_eq_false_iff.mp error |> Option.isNone_iff_eq_none.mp
          refine ⟨⟨_, queued⟩, sound, ?_, silent⟩
          intro other route' given' request found
          rw [← Option.some.inj request, routing] at found
          cases found
          have only : stages server route = [.upgrade route.handler] := by
            unfold stages
            rw [pre, post, type]
            rfl
          rw [only, taken, queued]
          refine ⟨_, _, .one, ?_⟩
          intro sent member
          have passed : (perform call ({ world, req := given } : Exchange World) (.upgrade route.handler)).2 = none :=
            same.symm.trans sound
          rw [List.mem_singleton.mp member, passed]
          exact answers_passed _

end

/-! ## A websocket route that is asked for no upgrade -/

def chatServer : BbServer where
  routeList := Http.registered [.websocket (ascii "/chat") 7]

def passing (_ : Callback) (x : Exchange Unit) : Reply Unit where
  world := x.world
  req := x.req
  res := x.res
  error := none

def plainGet : Bytes := ascii "GET /chat HTTP/1.1\r\n\r\n"

theorem not_oneAnswer_plainGet : Net.Allowed plainGet ∧ ¬ OneAnswer passing chatServer () (Net.requestOf plainGet) := by
  constructor
  · decide +kernel
  · intro answered
    rcases answered.one with ⟨sent, queued⟩
    have nothing : (answer passing chatServer () (Net.requestOf plainGet)).queued = [] := by decide +kernel
    rw [nothing] at queued
    cases queued

end BlueBird.Server
