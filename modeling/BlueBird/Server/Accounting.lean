import BlueBird.Program.Runs
import BlueBird.Server.Accounts

/-! The server's connections over whole runs: each is released once, and listed where it belongs. -/

namespace BlueBird.Server

open Accesses (Access Clean clean_cons)
open Listing (Lists)
open Net (Link WriteRun ReadRun)
open Runs (run Throughout Along throughout_iff_along)
open ServerTask (Moves Arrives arrived)
open WebSocket (WsCall WsSession)

namespace Connections

variable {s : Connections}

/-- Every connection is somewhere between its arrival and its end, and the lists know. -/
structure Kept (s : Connections) : Prop where
  sound : ∀ c ∈ s.clients, c.Serving ∨ c.Session ∨ c.Gone
  connList : Lists s.clients Client.http s.connList
  wsList : Lists s.clients Client.webSocket s.wsList

theorem kept_start : Kept {} := ⟨(fun _ no => by cases no), Listing.lists_nil _, Listing.lists_nil _⟩

theorem count_free {history : List (Access Item)} (clean : Clean history) {item : Item} {held : Bool}
    (there : held = true → .free item ∉ history) (gone : held = false → .free item ∈ history) :
    history.count (.free item) = if held then 0 else 1 := by
  cases held with
  | true => exact List.count_eq_zero_of_not_mem (there rfl)
  | false => exact clean.once (gone rfl)

theorem Kept.accounted (kept : s.Kept) : Accounted s where
  clean c member := by
    rcases kept.sound c member with serving | session | gone
    · exact serving.whole.clean
    · exact session.held.clean
    · exact gone.clean
  connection c member item about := by
    rcases kept.sound c member with serving | session | gone
    · apply count_free serving.whole.clean
      · exact fun _ => serving.whole.unfreed item
      · intro closed
        rw [serving.whole.connection] at closed
        cases closed
    · apply count_free session.held.clean
      · exact fun _ => session.held.unfreed item (List.mem_cons_of_mem _ about)
      · intro closed
        rw [session.held.connection] at closed
        cases closed
    · apply count_free gone.clean
      · intro open_
        rw [gone.connection] at open_
        cases open_
      · exact fun _ => gone.freed item about
  data c member allocated := by
    rcases kept.sound c member with serving | session | gone
    · apply count_free serving.whole.clean
      · exact fun _ => serving.whole.unfreed .data
      · intro closed
        unfold Client.http at closed
        rw [serving.whole.connection, serving.whole.session] at closed
        cases closed
    · apply count_free session.held.clean
      · intro open_
        unfold Client.http at open_
        rw [session.held.session, Bool.not_true, Bool.and_false] at open_
        cases open_
      · exact fun _ => session.held.data
    · apply count_free gone.clean
      · intro open_
        unfold Client.http at open_
        rw [gone.connection] at open_
        cases open_
      · exact fun _ => gone.data allocated
  connList := kept.connList
  wsList := kept.wsList

/-! ## A step -/

theorem act_cases {id : Nat} {due : Client → Bool} {f : ServerTask → ServerTask} {next : Connections}
    (step : s.act id due f = some next) : ∃ c, s.clients[id]? = some c ∧ due c = true ∧ next = s.put (f (s.task id c)) := by
  unfold act at step
  cases found : s.clients[id]? with
  | none =>
    rw [found] at step
    cases step
  | some c =>
    rw [found] at step
    simp only [Option.ite_none_right_eq_some, Option.some.injEq] at step
    exact ⟨c, rfl, step.1, step.2.symm⟩

theorem kept_put (kept : s.Kept) {id : Nat} {c : Client} (found : s.clients[id]? = some c) {u : ServerTask}
    (moves : Moves (s.task id c) u) : (s.put u).Kept where
  sound d member := by
    rcases List.mem_or_eq_of_mem_set member with before | now
    · exact kept.sound d before
    · rw [now]
      exact moves.sound
  connList := by
    have set := kept.connList.set found u.toClient
    show Lists (s.clients.set u.id u.toClient) Client.http u.connList
    rw [moves.id, moves.connList]
    exact set
  wsList := by
    have set := kept.wsList.set found u.toClient
    show Lists (s.clients.set u.id u.toClient) Client.webSocket u.wsList
    rw [moves.id, moves.wsList]
    exact set

theorem put_arrived (u : ServerTask) (id : u.id = s.clients.length) :
    { s with clients := s.clients ++ [({} : Client)] }.put u =
      { clients := s.clients ++ [u.toClient], connList := u.connList, wsList := u.wsList } := by
  unfold put
  rw [id]
  simp

theorem kept_accept (kept : s.Kept) {u : ServerTask} (arrives : Arrives s.clients.length s.connList s.wsList u) :
    ({ s with clients := s.clients ++ [({} : Client)] }.put u).Kept := by
  rw [put_arrived u arrives.id]
  refine ⟨fun d member => ?_, ?_, ?_⟩
  · rcases List.mem_append.mp member with before | now
    · exact kept.sound d before
    · rw [List.mem_singleton.mp now]
      exact arrives.sound
  · show Lists _ _ u.connList
    rw [arrives.connList]
    exact kept.connList.push u.toClient
  · show Lists _ _ u.wsList
    rw [arrives.wsList]
    exact kept.wsList.push u.toClient

theorem Kept.serving (kept : s.Kept) {id : Nat} {c : Client} (found : s.clients[id]? = some c) (http : c.session = false)
    (due : c.link.readTask = true ∨ c.link.writeTask = true) : c.Serving := by
  rcases kept.sound c (List.mem_of_getElem? found) with serving | session | gone
  · exact serving
  · rw [session.held.session] at http
    cases http
  · rcases due with reading | writing
    · rw [gone.idle.1] at reading
      cases reading
    · rw [gone.idle.2] at writing
      cases writing

theorem Kept.session (kept : s.Kept) {id : Nat} {c : Client} (found : s.clients[id]? = some c) (session : c.session = true)
    (due : c.link.readTask = true ∨ c.link.writeTask = true ∨ c.wsFreed = false) : c.Session := by
  rcases kept.sound c (List.mem_of_getElem? found) with serving | held | gone
  · rw [serving.whole.session] at session
    cases session
  · exact held
  · rcases due with reading | writing | there
    · rw [gone.idle.1] at reading
      cases reading
    · rw [gone.idle.2] at writing
      cases writing
    · rw [gone.session session] at there
      cases there

theorem kept_step (kept : s.Kept) {move : Move} (spares : Spares s move) {next : Connections} (step : s.step move = some next) :
    next.Kept := by
  cases move with
  | accept attempt =>
    cases step
    exact kept_accept kept (ServerTask.arrives_accept s.clients.length s.connList s.wsList spares)
  | read id run answer =>
    unfold Connections.step at step
    rcases act_cases step with ⟨c, found, due, rfl⟩
    simp only [Bool.and_eq_true, Bool.not_eq_true'] at due
    have serving := kept.serving found due.1 (Or.inl due.2)
    exact kept_put kept found (ServerTask.moves_runRead serving due.2 run answer)
  | write id run given =>
    unfold Connections.step at step
    rcases act_cases step with ⟨c, found, due, rfl⟩
    simp only [Bool.and_eq_true, Bool.not_eq_true'] at due
    have serving := kept.serving found due.1 (Or.inr due.2)
    apply kept_put kept found
    apply ServerTask.moves_runWrite serving due.2
    intro done ws listed
    by_contra unarmed
    have http := spares done listed (Bool.eq_false_iff.mpr unarmed) c found
    have upgraded : c.ws = true := ws
    rw [http] at upgraded
    cases upgraded
  | sessionRead id run handler pongCb alloc buffer turn armed =>
    unfold Connections.step at step
    rcases act_cases step with ⟨c, found, due, rfl⟩
    simp only [Bool.and_eq_true] at due
    have session := kept.session found due.1 (Or.inl due.2)
    exact kept_put kept found (ServerTask.moves_runSessionRead session run handler pongCb alloc buffer armed spares)
  | sessionWrite id run armed =>
    unfold Connections.step at step
    rcases act_cases step with ⟨c, found, due, rfl⟩
    simp only [Bool.and_eq_true] at due
    have session := kept.session found due.1 (Or.inr (Or.inl due.2))
    exact kept_put kept found (ServerTask.moves_runSessionWrite session armed spares)
  | sessionCall id call =>
    unfold Connections.step at step
    rcases act_cases step with ⟨c, found, due, rfl⟩
    simp only [Bool.and_eq_true, Bool.not_eq_true'] at due
    have session := kept.session found due.1 (Or.inr (Or.inr due.2))
    exact kept_put kept found (ServerTask.moves_callSession session spares)

/-! ## A step that does not spare them -/

theorem not_accounted_of_unclean {t : Connections} {u : Client} (member : u ∈ t.clients) (unclean : ¬ Clean u.history) :
    ¬ Accounted t := fun accounted => unclean (accounted.clean u member)

theorem mem_put {id : Nat} {c : Client} (found : s.clients[id]? = some c) {u : ServerTask} (same : u.id = id) :
    u.toClient ∈ (s.put u).clients := by
  have bound : u.id < s.clients.length := by
    rw [same]
    exact (List.getElem?_eq_some_iff.mp found).1
  exact List.mem_set bound u.toClient

theorem accept_unarmed (place : Nat) (connList wsList : List Nat) (node : Bool) :
    ¬ Clean ((arrived place connList wsList).accept { armed := false, node }).history := by
  have history : ((arrived place connList wsList).accept { armed := false, node }).history =
      [.free .asyncConn, .free .data, .free .asyncConn, .use .asyncConn, .use .asyncConn, .free .parser, .use .asyncConn, .use .data,
        .use .asyncConn, .free .connection, .use .asyncConn, .free .data, .use .connection, .use .asyncConn, .use .asyncConn,
        .use .data] := rfl
  rw [history]
  decide

theorem accept_lost (kept : s.Kept) {attempt : Attempt} (lost : ¬ Spares s (.accept attempt)) {next : Connections}
    (step : s.step (.accept attempt) = some next) : ¬ Accounted next := by
  rcases attempt with ⟨data, parser, armed, node⟩
  unfold Spares at lost
  rw [Classical.not_imp, Classical.not_imp] at lost
  rcases lost with ⟨allocated, created, missing⟩
  cases allocated
  cases created
  cases step
  have same : ((s.task s.clients.length {}).accept { armed, node }).id = s.clients.length := by
    cases armed <;> cases node <;> rfl
  rw [put_arrived _ same]
  cases armed with
  | false =>
    apply not_accounted_of_unclean (List.mem_append_right _ List.mem_cons_self)
    exact accept_unarmed s.clients.length s.connList s.wsList node
  | true =>
    cases node with
    | true => exact absurd ⟨rfl, rfl⟩ missing
    | false =>
      intro accounted
      have listed := (accounted.connList.2 s.clients.length).mpr ⟨_, List.getElem?_concat_length, rfl⟩
      rcases (kept.connList.2 s.clients.length).mp listed with ⟨c, found, _⟩
      rw [List.getElem?_eq_none (Nat.le_refl _)] at found
      cases found

theorem twiceTrail_unclean (parser : Bool) : ¬ Clean (ServerTask.twiceTrail parser) := by
  cases parser <;> decide

theorem write_lost (kept : s.Kept) {id : Nat} {run : WriteRun} {given : HandOver} (lost : ¬ Spares s (.write id run given))
    {next : Connections} (step : s.step (.write id run given) = some next) : ¬ Accounted next := by
  unfold Connections.step at step
  rcases act_cases step with ⟨c, found, due, rfl⟩
  simp only [Bool.and_eq_true, Bool.not_eq_true'] at due
  have serving := kept.serving found due.1 (Or.inr due.2)
  unfold Spares at lost
  rw [Classical.not_imp, Classical.not_imp, Classical.not_imp] at lost
  rcases lost with ⟨rfl, listed, armed, upgraded⟩
  have ws : c.ws = true := by
    by_contra http
    refine upgraded fun other same => ?_
    rw [found] at same
    cases same
    exact Bool.eq_false_iff.mpr http
  rcases given with ⟨listed_, armed_⟩
  cases listed
  cases armed
  rcases @ServerTask.afterWrite_unarmed (((s.task id c).touch [.asyncConn, .connection]).cancelWrite.touch [.asyncConn])
    serving.whole.connection serving.disconnected (serving.writing due.2).1 serving.whole.connNode ws with ⟨same, history⟩
  apply not_accounted_of_unclean (mem_put found same)
  rw [history]
  exact fun clean => twiceTrail_unclean _ clean.newest

theorem sessionRead_lost (kept : s.Kept) {id : Nat} {run : ReadRun} {handler pongCb : Bool} {alloc : WebSocket.Allocator}
    {buffer : Bytes} {turn : Nat → WebSocket.WsTurn} {armed : Bool}
    (lost : ¬ Spares s (.sessionRead id run handler pongCb alloc buffer turn armed)) {next : Connections}
    (step : s.step (.sessionRead id run handler pongCb alloc buffer turn armed) = some next) : ¬ Accounted next := by
  unfold Connections.step at step
  rcases act_cases step with ⟨c, found, due, rfl⟩
  simp only [Bool.and_eq_true] at due
  have session := kept.session found due.1 (Or.inl due.2)
  have looked := @ServerTask.looked_session (s.task id c) session.held
  unfold Spares at lost
  rw [Classical.not_imp] at lost
  rcases lost with ⟨rfl, lost⟩
  have frees : ∃ frame ∈ WebSocket.dispatchedTurns (WsSession.batch alloc buffer turn),
      frame.frees { handler, pongCb, server := true } = true := by
    by_contra none_
    refine lost fun frame member => ?_
    by_contra frees
    exact none_ ⟨frame, member, (Bool.not_eq_false _).mp frees⟩
  apply not_accounted_of_unclean (mem_put found rfl)
  intro clean
  have unsound := WsSession.readStep_unsound rfl (ServerTask.view_open looked.held handler pongCb) alloc buffer
    (armed || ((s.task id c).touch [.asyncConn, .connection]).link.writeTask) frees
  apply unsound
  have newest := clean.newest
  unfold Clean at newest
  rw [List.reverse_reverse] at newest
  exact ServerTask.sound_items.mp newest

theorem closeSession_later (t : ServerTask) : t.history <:+ t.closeSession.history := List.suffix_append _ _

theorem hangUpSession_frees {t : ServerTask} (held : t.Held) : .free .asyncConn ∈ t.hangUpSession.history := by
  unfold ServerTask.hangUpSession
  rw [WsSession.hangUp_server (ServerTask.view_open held true true) rfl]
  exact ServerTask.mem_inSession.mpr (Or.inl ⟨.asyncConn, rfl, by simp⟩)

theorem sessionWrite_lost (kept : s.Kept) {id : Nat} {run : WriteRun} {armed : Bool} (lost : ¬ Spares s (.sessionWrite id run armed))
    {next : Connections} (step : s.step (.sessionWrite id run armed) = some next) : ¬ Accounted next := by
  unfold Connections.step at step
  rcases act_cases step with ⟨c, found, due, rfl⟩
  simp only [Bool.and_eq_true] at due
  have session := kept.session found due.1 (Or.inr (Or.inl due.2))
  have closed : run = .closed := Classical.not_not.mp lost
  rw [closed]
  have stopped := (@ServerTask.looked_session (s.task id c) session.held).cancelWrite
  have freed := hangUpSession_frees stopped.held
  apply not_accounted_of_unclean (mem_put found rfl)
  intro clean
  -- the callback for the failure is looked up in the async connection
  have looked := clean.suffix (closeSession_later (((s.task id c).touch [.asyncConn, .connection]).cancelWrite.hangUpSession.touch
    [.asyncConn, .websocket]))
  exact ((clean_cons _ _).mp ((clean_cons _ _).mp looked).2).1 freed

theorem sessionCall_lost (kept : s.Kept) {id : Nat} {call : WsCall} (lost : ¬ Spares s (.sessionCall id call))
    {next : Connections} (step : s.step (.sessionCall id call) = some next) : ¬ Accounted next := by
  unfold Connections.step at step
  rcases act_cases step with ⟨c, found, due, rfl⟩
  simp only [Bool.and_eq_true, Bool.not_eq_true'] at due
  have session := kept.session found due.1 (Or.inr (Or.inr due.2))
  have destroys : call = .destroy := Classical.not_not.mp lost
  rw [destroys]
  intro accounted
  have listed : id ∈ s.wsList := (kept.wsList.2 id).mpr ⟨c, found, @ServerTask.webSocket_held (s.task id c) session.held⟩
  rcases (accounted.wsList.2 id).mp listed with ⟨d, now, open_⟩
  have bound : id < s.clients.length := (List.getElem?_eq_some_iff.mp found).1
  have gone : (s.put ((s.task id c).callSession .destroy)).clients[id]? = some ((s.task id c).callSession .destroy).toClient :=
    List.getElem?_set_self bound
  rw [gone] at now
  cases now
  cases open_

theorem step_lost (kept : s.Kept) {move : Move} (lost : ¬ Spares s move) {next : Connections} (step : s.step move = some next) :
    ¬ Accounted next := by
  cases move with
  | accept attempt => exact accept_lost kept lost step
  | read id run answer => exact absurd trivial lost
  | write id run given => exact write_lost kept lost step
  | sessionRead id run handler pongCb alloc buffer turn armed => exact sessionRead_lost kept lost step
  | sessionWrite id run armed => exact sessionWrite_lost kept lost step
  | sessionCall id call => exact sessionCall_lost kept lost step

/-! ## Whole runs -/

/-- The server accounts for its connections throughout a run exactly when each of its steps spares them. -/
theorem accounted_iff_spares {moves : List Move} (possible : (run Connections.step {} moves).isSome = true) :
    Throughout Connections.step Accounted {} moves ↔ Along Connections.step Spares {} moves := by
  refine @throughout_iff_along _ _ Connections.step Spares Kept Accounted _ _ kept_start ?_ ?_ ?_ possible
  · exact fun _ _ _ kept spares step => kept_step kept spares step
  · exact fun _ kept => kept.accounted
  · exact fun _ _ _ kept lost step => step_lost kept lost step

/-- A client is answered, and another one that has gone is not. -/
def twoClients : List Move :=
  [.accept {}, .accept {}, .read 0 .bytes (.response false true true), .read 1 .closed .more, .write 0 .done {}]

theorem accounted_twoClients : Throughout Connections.step Accounted {} twoClients := by
  refine (accounted_iff_spares (by decide +kernel)).mpr (Runs.along_cons (fun _ _ => ⟨rfl, rfl⟩) fun _ _ =>
    Runs.along_cons (fun _ _ => ⟨rfl, rfl⟩) fun _ _ => Runs.along_cons trivial fun _ _ => Runs.along_cons trivial fun _ _ =>
    Runs.along_cons ?_ fun _ _ => Runs.along_nil _)
  intro _ _ no
  cases no

/-- A connection that gets no watcher is cleaned up with the task data that were freed. -/
theorem not_accounted_unarmed : ¬ ∀ moves, (run Connections.step {} moves).isSome = true →
    Throughout Connections.step Accounted {} moves := by
  intro all
  have throughout := all [.accept { armed := false }] (by decide +kernel)
  have accounted := throughout _ _ (List.prefix_refl _) rfl
  have clean := accounted.clean _ List.mem_cons_self
  revert clean
  decide +kernel

end Connections

end BlueBird.Server
