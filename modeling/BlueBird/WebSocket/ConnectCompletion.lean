import BlueBird.Connection.ClientCall
import BlueBird.WebSocket.ConnectOwnership

/-! When the user of a websocket, or of a client, is told what has become of the call. -/

namespace BlueBird.WebSocket

open Accesses (Access)
open Http (httpParserFeed httpParserCreateResponse)
open Net (Link WriteRun ReadRun CompletedOnce ResponseComplete Parsing ClientCall)
open Runs (run Throughout Along throughout_iff_along)

theorem handshakeReadStep_parsing {create : Bool} {data : HandshakeData} {seen buffer : Bytes}
    (parsing : Parsing (data.httpParser.getD httpParserCreateResponse) data.parsedOffset seen) (given : seen <+: buffer) :
    (∀ after left, handshakeReadStep create data buffer = (.more after, left) →
        Parsing (after.httpParser.getD httpParserCreateResponse) after.parsedOffset buffer ∧ left = buffer) ∧
      ∀ left, handshakeReadStep create data buffer = (.done, left) → ResponseComplete buffer := by
  rcases given with ⟨more, rfl⟩
  rcases @parsing.feed _ _ _ more with ⟨status, goes⟩
  unfold handshakeReadStep
  split_ifs
  · exact ⟨(fun after left step => by cases step), fun left step => by cases step⟩
  · exact ⟨(fun after left step => by cases step), fun left step => by cases step⟩
  · cases fed : httpParserFeed (data.httpParser.getD httpParserCreateResponse) ((seen ++ more).drop data.parsedOffset) with
    | mk answer parser =>
      rw [fed] at status goes
      cases answer with
      | incomplete =>
        refine ⟨fun after left step => ?_, fun left step => by cases step⟩
        cases step
        exact ⟨goes rfl, rfl⟩
      | error => exact ⟨(fun after left step => by cases step), fun left step => by cases step⟩
      | complete => exact ⟨(fun after left step => by cases step), fun _ _ => status.symm⟩

namespace Connecting

variable {c d : Connecting}

/-- The connection has ended, or no watcher is left on it, or the answer is complete. -/
def Over (c : Connecting) : Prop :=
  c.started = true ∧ (c.link.connection = false ∨ c.link.disconnected = true ∨ c.link.Idle ∨ ResponseComplete c.offered)

def freed (c : Connecting) : Nat := c.history.count (.free .data)

def Completes (c : Connecting) : Prop := c.Over → CompletedOnce c.told (ResponseComplete c.offered) c.allocated c.freed

/-- The watchers are to be had, the server does not close before it has answered, and neither does the user. -/
def Answers (c : Connecting) : Move → Prop
  | .connect d => (parseWsUrl d.url).isSome = true → d.connects = true → d.data = true → d.random = true → d.base64 = true →
      d.armed = true
  | .write run armed => run = .done → armed = true
  | .read run .. => run ≠ .closed
  | .destroy => c.started = true → c.told ≠ []

/-! ## The task data are freed by the handshake alone -/

@[simp] theorem freed_touch (c : Connecting) (pieces : List Piece) : (c.touch pieces).freed = c.freed := by
  show List.count _ ((pieces.map Access.use).reverse ++ c.history) = _
  rw [List.count_append, List.count_eq_zero_of_not_mem (by simp)]
  exact Nat.zero_add _

theorem freed_free {piece : Piece} (other : piece ≠ .data) (c : Connecting) : (c.free piece).freed = c.freed := by
  have differs : Access.free piece ≠ Access.free Piece.data := fun same => other (Access.free.inj same)
  exact List.count_cons_of_ne differs

@[simp] theorem freed_handleDisconnect (c : Connecting) : c.handleDisconnect.freed = c.freed := by
  unfold handleDisconnect
  dsimp only
  split_ifs
  · rw [freed_touch, freed_touch]
    rfl
  · rw [freed_touch]
    rfl

@[simp] theorem freed_destroyConn (c : Connecting) : c.destroyConn.freed = c.freed := by
  unfold destroyConn closeConn
  rw [freed_free (by decide)]
  dsimp only
  rw [freed_handleDisconnect]
  split_ifs
  · rw [freed_free (by decide)]
    exact freed_touch c _
  · exact freed_touch c _

@[simp] theorem freed_destroy (c : Connecting) : c.destroy.freed = c.freed := by
  unfold destroy
  dsimp only
  rw [freed_free (by decide)]
  show freed (ite _ _ _) = _
  split_ifs
  · rw [freed_destroyConn, freed_touch]
    exact freed_touch c _
  · exact freed_touch c _

@[simp] theorem freed_tell (c : Connecting) (success null : Bool) : (c.tell success null).freed = c.freed := by
  unfold tell
  dsimp only
  split
  · rfl
  · split_ifs
    · rfl
    · exact freed_destroy _
  · exact freed_destroy _

theorem freed_freeData (c : Connecting) : c.freeData.freed = c.freed + 1 := List.count_cons_self

/-! ## How far the handshake is -/

structure Unstarted (c : Connecting) : Prop where
  started : c.started = false
  idle : c.link.Idle
  fresh : c.websocket = true → c = { callback := c.callback }

structure Untold (c : Connecting) : Prop where
  started : c.started = true
  allocated : c.allocated = true
  freed : c.freed = 0
  told : c.told = []

structure Waiting (c : Connecting) : Prop extends Untold c where
  asyncConn : c.asyncConn = true
  open_ : c.link.connection = true
  running : c.link.disconnected = false
  single : c.link.readTask = !c.link.writeTask
  parsing : ∃ data, c.data = some data ∧ Parsing (data.httpParser.getD httpParserCreateResponse) data.parsedOffset c.offered
  given : c.offered <+: c.buffer

structure Decided (c : Connecting) : Prop where
  started : c.started = true
  completed : CompletedOnce c.told (ResponseComplete c.offered) c.allocated c.freed
  writing : c.link.writeTask = false
  reading : c.link.readTask = false ∨ c.data = none

def Deciding (c : Connecting) : Prop := c.Unstarted ∨ c.Waiting ∨ c.Decided

theorem Waiting.not_over (waiting : c.Waiting) : ¬ c.Over := by
  rintro ⟨_, closed | ended | idle | complete⟩
  · rw [waiting.open_] at closed
    cases closed
  · rw [waiting.running] at ended
    cases ended
  · have single := waiting.single
    rw [idle.1, idle.2] at single
    cases single
  · rcases waiting.parsing with ⟨data, _, parsing⟩
    have running := parsing.running
    rw [show _ = Http.ParseStatus.complete from complete] at running
    cases running

theorem Deciding.completes (deciding : c.Deciding) : c.Completes := by
  intro over_
  rcases deciding with unstarted | waiting | decided
  · have started := over_.1
    rw [unstarted.started] at started
    cases started
  · exact absurd over_ waiting.not_over
  · exact decided.completed

theorem Decided.touch (decided : c.Decided) (pieces : List Piece) : (c.touch pieces).Decided :=
  { decided with
    completed := by
      rw [freed_touch]
      exact decided.completed }

theorem Decided.fewer (decided : c.Decided) {link : Link} (fewer : c.link.Fewer link) {history : List (Access Piece)}
    (same : history.count (.free .data) = c.freed) (websocket : Bool) : Decided { c with websocket, link, history } where
  started := decided.started
  completed := by
    have completed := decided.completed
    rw [← same] at completed
    exact completed
  writing := fewer.writing decided.writing
  reading := decided.reading.imp_left fewer.reading

theorem Decided.destroyConn (decided : c.Decided) : c.destroyConn.Decided := by
  rw [destroyConn_eq]
  exact decided.fewer c.link.closed_fewer (freed_destroyConn c) _

theorem Decided.destroy (decided : c.Decided) : c.destroy.Decided := by
  rcases c.destroy_eq with ⟨link, fewer, _, same⟩
  rw [same]
  exact decided.fewer fewer (freed_destroy c) _

theorem told_decided (started : c.started = true) (allocated : c.allocated = false) (freed : c.freed = 0) (told : c.told = [])
    (idle : c.link.Idle) (null : Bool) : (c.tell false null).Decided := by
  have count := c.freed_tell false null
  rcases c.tell_eq false null with ⟨websocket, link, fewer, same⟩
  have decided : Decided { c with told := false :: c.told } := by
    refine ⟨started, ⟨?_, fun member => ?_, ?_⟩, idle.2, Or.inl idle.1⟩
    · show (false :: c.told).length = 1
      rw [told]
      rfl
    · have member : true ∈ false :: c.told := member
      rw [told] at member
      simp at member
    · show c.freed = if c.allocated = true then 1 else 0
      rw [freed, allocated]
      rfl
  rw [same]
  exact decided.fewer fewer count websocket

theorem Untold.decided (untold : c.Untold) (writing : c.link.writeTask = false) {success : Bool}
    (honest : success = true → ResponseComplete c.offered) (null : Bool) : (c.tell success null).freeData.Decided := by
  have count : (c.tell success null).freeData.freed = 1 := by
    rw [freed_freeData, freed_tell, untold.freed]
  rcases c.tell_eq success null with ⟨websocket, link, fewer, same⟩
  refine ⟨?_, ⟨?_, fun member => ?_, ?_⟩, ?_, Or.inr rfl⟩
  · rw [same]
    exact untold.started
  · rw [same]
    show (success :: c.told).length = 1
    rw [untold.told]
    rfl
  · rw [same] at member ⊢
    have member : true ∈ success :: c.told := member
    rw [untold.told, List.mem_singleton] at member
    exact honest member.symm
  · rw [count, same]
    show 1 = if c.allocated = true then 1 else 0
    rw [untold.allocated]
    rfl
  · rw [same]
    exact fewer.writing writing

theorem Untold.fails (untold : c.Untold) (writing : c.link.writeTask = false) (null : Bool) :
    (c.tell false null).freeData.Decided :=
  untold.decided writing (fun success => by cases success) null

/-! ## What a move leaves -/

theorem Untold.touch (untold : c.Untold) (pieces : List Piece) : (c.touch pieces).Untold :=
  { untold with freed := (freed_touch c pieces).trans untold.freed }

theorem Waiting.touch (waiting : c.Waiting) (pieces : List Piece) : (c.touch pieces).Waiting :=
  { waiting with toUntold := waiting.toUntold.touch pieces }

theorem Untold.destroyConn (untold : c.Untold) : c.destroyConn.Untold := by
  have count := c.freed_destroyConn
  rw [destroyConn_eq] at count ⊢
  exact { untold with freed := count.trans untold.freed }

theorem Untold.writeFailed (untold : c.Untold) (stopped : c.link.writeTask = false) : c.writeFailed.Decided := by
  have looked := untold.touch [.data, .websocket, .asyncConn]
  unfold Connecting.writeFailed
  dsimp only
  split
  · have gone : Untold { (c.touch [.data, .websocket, .asyncConn]).destroyConn with asyncConn := false } :=
      { looked.destroyConn with }
    apply (gone.touch _).fails
    show (c.touch [.data, .websocket, .asyncConn]).destroyConn.link.writeTask = false
    rw [destroyConn_eq]
    exact c.link.closed_fewer.writing stopped
  · exact looked.fails stopped false

theorem Untold.readError (untold : c.Untold) (stopped : c.link.writeTask = false) : c.readError.Decided := by
  have looked := untold.touch [.data, .websocket]
  unfold Connecting.readError
  dsimp only
  split
  · have freed : Untold ({ c.touch [.data, .websocket] with parser := false }.free .parser) :=
      { looked with freed := (freed_free (by decide) _).trans looked.freed }
    apply freed.destroyConn.fails
    rw [destroyConn_eq]
    exact c.link.closed_fewer.writing stopped
  · apply looked.destroyConn.fails
    rw [destroyConn_eq]
    exact c.link.closed_fewer.writing stopped

theorem Waiting.reading (waiting : c.Waiting) (task : c.link.writeTask = true) : c.link.readTask = false := by
  rw [waiting.single, task]
  rfl

theorem Waiting.writing (waiting : c.Waiting) (task : c.link.readTask = true) : c.link.writeTask = false := by
  have single := waiting.single
  rw [task] at single
  exact Bool.not_eq_true' _ |>.mp single.symm

theorem Waiting.createReadTask (waiting : c.Waiting) (task : c.link.writeTask = true) (armed : Bool) :
    ({ c.link with writeTask := false } : Link).createReadTask armed =
      ({ c.link with writeTask := false, readTask := armed }, armed) := by
  unfold Link.createReadTask
  dsimp only
  rw [if_neg (by rw [waiting.open_]; decide), if_neg (by rw [waiting.reading task]; decide)]

theorem Waiting.runWrite (waiting : c.Waiting) (task : c.link.writeTask = true) {run : WriteRun} {armed : Bool}
    (answers : run = .done → armed = true) : (c.runWrite run armed).Deciding := by
  have looked := waiting.touch [.asyncConn, .connection]
  have stopped : Untold { c.touch [.asyncConn, .connection] with link := { c.link with writeTask := false } } :=
    { looked.toUntold with }
  cases run with
  | waits => exact Or.inr (Or.inl looked)
  | done =>
    refine Or.inr (Or.inl ?_)
    show Waiting { (c.touch [.asyncConn, .connection]).touch [.data, .websocket, .asyncConn] with
      link := (({ c.link with writeTask := false } : Link).createReadTask armed).1 }
    rw [waiting.createReadTask task]
    have again := looked.touch [.data, .websocket, .asyncConn]
    exact { again with single := answers rfl }
  | failed => exact Or.inr (Or.inr (stopped.writeFailed rfl))
  | unarmed => exact Or.inr (Or.inr (stopped.writeFailed rfl))
  | closed =>
    refine Or.inr (Or.inr ?_)
    show (Connecting.handleDisconnect
      { c.touch [.asyncConn, .connection] with link := { c.link with writeTask := false } }).writeFailed.Decided
    have count := freed_handleDisconnect { c.touch [.asyncConn, .connection] with link := { c.link with writeTask := false } }
    rw [handleDisconnect_eq] at count ⊢
    apply Untold.writeFailed
    · exact { stopped with freed := count.trans stopped.freed }
    · exact (Link.handleDisconnect_fewer _).writing rfl

theorem Waiting.readStep (waiting : c.Waiting) (task : c.link.readTask = true) {data : HandshakeData} (held : c.data = some data)
    (create : Bool) : (c.readStep data create).Deciding := by
  have looked := waiting.touch [.data, .websocket, .asyncConn, .connection]
  have writing := waiting.writing task
  rcases waiting.parsing with ⟨data', same, parsing⟩
  rw [held] at same
  cases same
  rcases @handshakeReadStep_parsing create data _ _ parsing waiting.given with ⟨goes, complete⟩
  unfold Connecting.readStep
  dsimp only
  rw [show (c.touch [.data, .websocket, .asyncConn, .connection]).buffer = c.buffer from rfl]
  cases step : handshakeReadStep create data c.buffer with
  | mk result left =>
    have untold : Untold { c.touch [.data, .websocket, .asyncConn, .connection] with
        parser := c.parser || create, offered := c.buffer, buffer := left } := { looked.toUntold with }
    cases result with
    | more after =>
      rcases goes after left step with ⟨still, rfl⟩
      have more : Waiting { c.touch [.data, .websocket, .asyncConn, .connection] with
          parser := c.parser || create, offered := c.buffer, data := some after } :=
        { looked with
          parsing := ⟨after, rfl, still⟩
          given := List.prefix_refl _ }
      exact Or.inr (Or.inl (more.touch [.parser]))
    | error => exact Or.inr (Or.inr ((untold.touch [.asyncConn]).readError writing))
    | done =>
      have freed : Untold ({ { c.touch [.data, .websocket, .asyncConn, .connection] with
          parser := c.parser || create, offered := c.buffer, buffer := left }.touch [.parser] with parser := false }.free .parser) :=
        { untold.touch [.parser] with freed := (freed_free (by decide) _).trans (untold.touch [.parser]).freed }
      exact Or.inr (Or.inr ((freed.touch [.websocket, .asyncConn]).decided writing (fun _ => complete left step) false))

theorem Waiting.runRead (waiting : c.Waiting) (task : c.link.readTask = true) {data : HandshakeData} (held : c.data = some data)
    {run : ReadRun} (answers : run ≠ .closed) (chunk : Bytes) (create : Bool) : (c.runRead data run chunk create).Deciding := by
  have looked := waiting.touch [.asyncConn, .connection]
  have read : Waiting { c.touch [.asyncConn, .connection] with buffer := c.buffer ++ chunk } :=
    { looked with given := waiting.given.trans (List.prefix_append ..) }
  have stopped : Untold { c.touch [.asyncConn, .connection] with link := { c.link with readTask := false } } :=
    { looked.toUntold with }
  cases run with
  | waits => exact Or.inr (Or.inl read)
  | bytes => exact read.readStep task held create
  | failed => exact Or.inr (Or.inr (stopped.readError (waiting.writing task)))
  | unarmed => exact Or.inr (Or.inr (stopped.readError (waiting.writing task)))
  | closed => exact absurd rfl answers

theorem connect_deciding (callback : ConnectCb) {d : Dialing} (answers : Answers { callback } (.connect d)) :
    (connect { callback } d).Deciding := by
  by_cases url : (parseWsUrl d.url).isSome = true
  · by_cases connects : d.connects = true
    · rw [connect_opened callback url connects]
      have untold : Untold ({ opened callback with allocated := true, data := some {} }.touch [.data]) := ⟨rfl, rfl, rfl, rfl⟩
      cases data : d.data with
      | false =>
        rw [if_pos rfl]
        have decided := (@told_decided (opened callback) rfl rfl rfl rfl ⟨rfl, rfl⟩ true).destroyConn
        have cleared : Decided { ((opened callback).tell false true).destroyConn with asyncConn := false } := { decided with }
        exact Or.inr (Or.inr (cleared.touch _))
      | true =>
        rw [if_neg (by decide)]
        dsimp only
        split
        · exact Or.inr (Or.inr (untold.fails rfl true).destroyConn)
        · rename_i both
          have random : d.random = true := Bool.not_eq_false _ |>.mp fun fails => both (Or.inl fails)
          have base64 : d.base64 = true := Bool.not_eq_false _ |>.mp fun fails => both (Or.inr fails)
          rw [answers url connects data random base64]
          have asked := untold.touch [.connection, .websocket, .asyncConn]
          refine Or.inr (Or.inl { asked with asyncConn := rfl, open_ := rfl, running := rfl, single := rfl, parsing := ?_, given := ?_ })
          · exact ⟨{}, rfl, rfl, rfl, rfl⟩
          · exact List.prefix_refl _
    · have refused : connect { callback } d = tell { callback, started := true } false true := by
        unfold connect
        dsimp only
        rw [if_neg (Option.isNone_iff_eq_none.not.mpr (Option.isSome_iff_ne_none.mp url)), if_pos (Bool.eq_false_iff.mpr connects)]
      rw [refused]
      exact Or.inr (Or.inr (told_decided rfl rfl rfl rfl ⟨rfl, rfl⟩ true))
  · have refused : connect { callback } d = tell { callback, started := true } false false := by
      unfold connect
      dsimp only
      rw [if_pos (by simpa using url)]
    rw [refused]
    exact Or.inr (Or.inr (told_decided rfl rfl rfl rfl ⟨rfl, rfl⟩ false))

theorem Unstarted.destroy (unstarted : c.Unstarted) : c.destroy.Unstarted := by
  rcases c.destroy_eq with ⟨link, fewer, _, same⟩
  rw [same]
  exact ⟨unstarted.started, fewer.idle unstarted.idle, fun still => by cases still⟩

theorem Unstarted.over_false (unstarted : c.Unstarted) (started : c.started = true) : False := by
  rw [unstarted.started] at started
  cases started

theorem Decided.still (decided : c.Decided) {data : HandshakeData} (held : c.data = some data) : ¬ c.link.readTask = true := by
  rcases decided.reading with stopped | none_
  · rw [stopped]
    decide
  · rw [none_] at held
    cases held

theorem deciding_step {move : Move} (deciding : c.Deciding) (answers : c.Answers move) (step : c.step move = some d) :
    d.Deciding := by
  cases move with
  | connect dialing =>
    simp only [Connecting.step, Option.ite_none_right_eq_some, Option.some.injEq] at step
    rcases step with ⟨⟨fresh, there⟩, rfl⟩
    rcases deciding with unstarted | waiting | decided
    · have same := unstarted.fresh there
      rw [same] at answers ⊢
      exact connect_deciding _ answers
    · rw [waiting.started] at fresh
      cases fresh
    · rw [decided.started] at fresh
      cases fresh
  | write run armed =>
    simp only [Connecting.step, Option.ite_none_right_eq_some, Option.some.injEq] at step
    rcases step with ⟨task, rfl⟩
    rcases deciding with unstarted | waiting | decided
    · rw [unstarted.idle.2] at task
      cases task
    · exact waiting.runWrite task answers
    · rw [decided.writing] at task
      cases task
  | read run chunk create =>
    unfold Connecting.step at step
    cases held : c.data with
    | none =>
      rw [held] at step
      cases step
    | some data =>
      rw [held] at step
      simp only [Option.ite_none_right_eq_some, Option.some.injEq] at step
      rcases step with ⟨task, rfl⟩
      rcases deciding with unstarted | waiting | decided
      · rw [unstarted.idle.1] at task
        cases task
      · exact waiting.runRead task held answers chunk create
      · exact absurd task (decided.still held)
  | destroy =>
    simp only [Connecting.step, Option.ite_none_right_eq_some, Option.some.injEq] at step
    rcases step with ⟨there, rfl⟩
    rcases deciding with unstarted | waiting | decided
    · exact Or.inl unstarted.destroy
    · exact absurd waiting.told (answers waiting.started)
    · exact Or.inr (Or.inr decided.destroy)

/-! ## A user that waits for ever -/

theorem not_completes (over_ : c.Over) (silent : c.told = []) : ¬ c.Completes := by
  intro completes
  have once := (completes over_).once
  rw [silent] at once
  cases once

theorem connect_lost_watcher (callback : ConnectCb) {d : Dialing} (lost : ¬ Answers { callback } (.connect d)) :
    ¬ (connect { callback } d).Completes := by
  unfold Answers at lost
  simp only [Classical.not_imp, Bool.not_eq_true] at lost
  rcases lost with ⟨url, connects, data, random, base64, unarmed⟩
  rw [connect_opened callback url connects, data, random, base64, unarmed]
  exact not_completes ⟨rfl, Or.inr (Or.inr (Or.inl ⟨rfl, rfl⟩))⟩ rfl

theorem Waiting.writeDone_lost (waiting : c.Waiting) (task : c.link.writeTask = true) : ¬ (c.runWrite .done false).Completes := by
  show ¬ Completes { (c.touch [.asyncConn, .connection]).touch [.data, .websocket, .asyncConn] with
    link := (({ c.link with writeTask := false } : Link).createReadTask false).1 }
  rw [waiting.createReadTask task]
  exact not_completes ⟨waiting.started, Or.inr (Or.inr (Or.inl ⟨rfl, rfl⟩))⟩ waiting.told

theorem Waiting.closed_lost (waiting : c.Waiting) (data : HandshakeData) (chunk : Bytes) (create : Bool) :
    ¬ (c.runRead data .closed chunk create).Completes := by
  show ¬ (c.touch [.asyncConn, .connection]).handleDisconnect.Completes
  rw [handleDisconnect_eq]
  exact not_completes ⟨waiting.started, Or.inr (Or.inl c.link.handleDisconnect_disconnected)⟩ waiting.told

theorem Waiting.destroy_lost (waiting : c.Waiting) : ¬ c.destroy.Completes := by
  rcases c.destroy_eq with ⟨link, _, idle, same⟩
  have stops : c.link.disconnected = true → c.link.Idle := by
    intro ended
    rw [waiting.running] at ended
    cases ended
  rw [same]
  exact not_completes ⟨waiting.started, Or.inr (Or.inr (Or.inl (idle waiting.asyncConn stops)))⟩ waiting.told

theorem completing_lost {move : Move} (deciding : c.Deciding) (lost : ¬ c.Answers move) (step : c.step move = some d) :
    ¬ d.Completes := by
  cases move with
  | connect dialing =>
    simp only [Connecting.step, Option.ite_none_right_eq_some, Option.some.injEq] at step
    rcases step with ⟨⟨fresh, there⟩, rfl⟩
    rcases deciding with unstarted | waiting | decided
    · have same := unstarted.fresh there
      rw [same] at lost ⊢
      exact connect_lost_watcher _ lost
    · rw [waiting.started] at fresh
      cases fresh
    · rw [decided.started] at fresh
      cases fresh
  | write run armed =>
    simp only [Connecting.step, Option.ite_none_right_eq_some, Option.some.injEq] at step
    rcases step with ⟨task, rfl⟩
    unfold Answers at lost
    simp only [Classical.not_imp, Bool.not_eq_true] at lost
    rcases lost with ⟨rfl, rfl⟩
    rcases deciding with unstarted | waiting | decided
    · rw [unstarted.idle.2] at task
      cases task
    · exact waiting.writeDone_lost task
    · rw [decided.writing] at task
      cases task
  | read run chunk create =>
    unfold Connecting.step at step
    cases held : c.data with
    | none =>
      rw [held] at step
      cases step
    | some data =>
      rw [held] at step
      simp only [Option.ite_none_right_eq_some, Option.some.injEq] at step
      rcases step with ⟨task, rfl⟩
      have closed : run = .closed := Classical.not_not.mp lost
      rcases deciding with unstarted | waiting | decided
      · rw [unstarted.idle.1] at task
        cases task
      · rw [closed]
        exact waiting.closed_lost data chunk create
      · exact absurd task (decided.still held)
  | destroy =>
    simp only [Connecting.step, Option.ite_none_right_eq_some, Option.some.injEq] at step
    rcases step with ⟨there, rfl⟩
    unfold Answers at lost
    rw [Classical.not_imp, Classical.not_not] at lost
    rcases lost with ⟨started, silent⟩
    rcases deciding with unstarted | waiting | decided
    · exact (unstarted.over_false started).elim
    · exact waiting.destroy_lost
    · have once := decided.completed.once
      rw [silent] at once
      cases once

theorem completes_of_answers (callback : ConnectCb) {moves : List Move}
    (possible : (run Connecting.step { callback } moves).isSome = true) :
    Throughout Connecting.step Completes { callback } moves ↔ Along Connecting.step Answers { callback } moves := by
  have fresh : Deciding { callback } := Or.inl ⟨rfl, ⟨rfl, rfl⟩, fun _ => rfl⟩
  refine @throughout_iff_along _ _ Connecting.step Answers Deciding Completes _ _ fresh ?_ ?_ ?_ possible
  · exact fun _ _ _ deciding answers step => deciding_step deciding answers step
  · exact fun _ deciding => deciding.completes
  · exact fun _ _ _ deciding lost step => completing_lost deciding lost step

end Connecting

/-! ## Both calls -/

def refusedCalls : List ClientCall.Move := [.execute {}, .write .failed true]

end BlueBird.WebSocket
