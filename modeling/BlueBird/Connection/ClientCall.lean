import BlueBird.Connection.ClientRead
import BlueBird.Connection.Link
import BlueBird.Program.Runs

/-! A request of a client, from the call to the callback. -/

namespace BlueBird.Net

open BlueBird.Http (HttpParser httpParserCreateResponse httpParserReset httpParserFeed parserFeeder freshCore Alike feed_alike
  httpParserFeed_behind parserFeeder_running reset_alike)
open Runs (run Throughout Along throughout_iff_along)

/-- The callback was called once, with success only where the answer is there, and the data of the call were freed once,
    if ever allocated. -/
structure CompletedOnce (told : List Bool) (answered : Prop) (allocated : Bool) (freed : Nat) : Prop where
  once : told.length = 1
  honest : true ∈ told → answered
  released : freed = if allocated then 1 else 0

def ResponseComplete (bytes : Bytes) : Prop := (parserFeeder.feed (freshCore true) bytes).1.status = .complete

/-- A parser that was given `seen`, and wants more. -/
structure Parsing (parser : HttpParser) (parsedOffset : Nat) (seen : Bytes) : Prop where
  offset : parsedOffset = seen.length
  core : parser.toParserCore.bare = (parserFeeder.feed (freshCore true) seen).1.bare
  running : (parserFeeder.feed (freshCore true) seen).1.status = .incomplete

theorem Parsing.feed {parser : HttpParser} {parsedOffset : Nat} {seen more : Bytes} (parsing : Parsing parser parsedOffset seen) :
    (httpParserFeed parser ((seen ++ more).drop parsedOffset)).1 = (parserFeeder.feed (freshCore true) (seen ++ more)).1.status ∧
      ((httpParserFeed parser ((seen ++ more).drop parsedOffset)).1 = .incomplete →
        Parsing (httpParserFeed parser ((seen ++ more).drop parsedOffset)).2
          (parsedOffset + (httpParserFeed parser ((seen ++ more).drop parsedOffset)).2.lastConsumed) (seen ++ more)) := by
  rcases parsing with ⟨offset, core, running⟩
  have left : (seen ++ more).drop parsedOffset = more := by rw [offset, List.drop_left]
  have alike : Alike parser { parser with toParserCore := (parserFeeder.feed (freshCore true) seen).1 } := core
  rcases feed_alike alike more with ⟨status, consumed, still⟩
  rcases @httpParserFeed_behind { parser with toParserCore := (parserFeeder.feed (freshCore true) seen).1 } (freshCore true) seen rfl
    ((parserFeeder_running _).mpr running) more with ⟨whole, after, eaten⟩
  rw [left, status, whole]
  refine ⟨rfl, fun waiting => ⟨?_, ?_, waiting⟩⟩
  · rw [consumed, eaten ((parserFeeder_running _).mpr waiting), offset, List.length_append]
  · rw [← after]
    exact still

theorem ClientRead.readStep_parsing {data : ClientRead} {seen : Bytes}
    (parsing : Parsing data.httpParser data.parsedOffset seen) (given : seen <+: data.conn.buffer) :
    (data.readStep.2 = .waiting → Parsing data.readStep.1.httpParser data.readStep.1.parsedOffset data.conn.buffer) ∧
      ∀ res, data.readStep.2 = .success res → ResponseComplete data.conn.buffer := by
  rcases given with ⟨more, buffer⟩
  rcases @parsing.feed _ _ _ more with ⟨status, goes⟩
  rw [buffer] at status goes
  have inside : ¬ data.parsedOffset > data.conn.buffer.length := by
    rw [parsing.offset, ← buffer, List.length_append]
    omega
  have fed : data.feed.1 = (httpParserFeed data.httpParser (data.conn.buffer.drop data.parsedOffset)).1 := rfl
  unfold readStep
  rw [if_neg inside]
  cases turn : data.feed.1 with
  | incomplete =>
    simp only [turn]
    exact ⟨fun _ => goes (fed.symm.trans turn), fun res success => by cases success⟩
  | error =>
    simp only [turn]
    exact ⟨(fun waiting => by cases waiting), fun res success => by cases success⟩
  | complete =>
    simp only [turn]
    refine ⟨fun waiting => ?_, fun _ _ => status.symm.trans (fed.symm.trans turn)⟩
    unfold answer at waiting
    split at waiting <;> cases waiting

/-! ## The machine -/

/-- What `bb_client_execute_async` gets: a connection, memory for the task data and a watcher. -/
structure Dial where
  connects : Bool := true
  memory : Bool := true
  armed : Bool := true
  deriving DecidableEq, Repr

/-- `asyncConn` is whether `client->async_conn` is set, `buffer` the connection's, and `offered` what the read step was
    called with. A callback that `closes` calls `bb_client_close`. The answers that it was given come newest first. -/
structure ClientCall where
  closes : Bool := false
  started : Bool := false
  asyncConn : Bool := false
  link : Link := { connection := false }
  buffer : Bytes := []
  parser : Option HttpParser := none
  parsedOffset : Nat := 0
  allocated : Bool := false
  freed : Nat := 0
  offered : Bytes := []
  told : List Bool := []

namespace ClientCall

/-- `bb_client_close` -/
def close (c : ClientCall) : ClientCall :=
  if c.asyncConn then { c with asyncConn := false, link := c.link.closed } else c

def tell (c : ClientCall) (success : Bool) : ClientCall :=
  let c := { c with told := success :: c.told }
  if c.closes then c.close else c

/-- The end of `_client_read_error`, of `_client_write_error` and of `_client_read_step`. -/
def finish (c : ClientCall) (success : Bool) : ClientCall :=
  let c := (c.tell success).close
  { c with freed := c.freed + 1 }

/-- `_client_create_write_task`, with whether it succeeds. -/
def createWriteTask (c : ClientCall) (memory armed : Bool) : ClientCall × Bool :=
  if memory = false then (c, false)
  else
    let made := c.link.createWriteTask armed
    ({ c with allocated := true, link := made.1 }, made.2)

/-- `bb_client_execute_async` -/
def executeAsync (c : ClientCall) (d : Dial) : ClientCall :=
  let c := { c with started := true, asyncConn := d.connects }
  if d.connects = false then c.tell false
  else
    let created := { c with link := {}, buffer := [] }.createWriteTask d.memory d.armed
    if created.2 then created.1 else created.1.tell false

/-- `_client_after_write`; whether there is a read task is not looked at. -/
def afterWrite (c : ClientCall) (armed : Bool) : ClientCall := { c with link := (c.link.createReadTask armed).1 }

def reader (c : ClientCall) : ClientRead where
  conn := { buffer := c.buffer }
  httpParser := c.parser.getD httpParserCreateResponse
  parsedOffset := if c.parser = none then 0 else c.parsedOffset

/-- `_client_read_step`, with the read error that `_bb_read_task` makes of its result; `built` is whether
    `bb_response_from_parsed` gets its memory. -/
def readStep (c : ClientCall) (create built : Bool) : ClientCall :=
  let c := { c with offered := c.buffer }
  if c.parser = none ∧ ¬ create then c.finish false
  else
    let read := c.reader.readStep
    let c := { c with parser := some read.1.httpParser, parsedOffset := read.1.parsedOffset }
    match read.2 with
    | .waiting => c
    | .success _ => c.finish built
    | _ => c.finish false

/-- `_bb_write_task`; there is no disconnect callback. -/
def runWrite (c : ClientCall) (run : WriteRun) (armed : Bool) : ClientCall :=
  let stopped := { c with link := { c.link with writeTask := false } }
  match run with
  | .waits => c
  | .done => stopped.afterWrite armed
  | .failed | .unarmed => stopped.finish false
  | .closed => { stopped with link := stopped.link.handleDisconnect.1 }.finish false

/-- `_bb_read_task` -/
def runRead (c : ClientCall) (run : ReadRun) (chunk : Bytes) (create built : Bool) : ClientCall :=
  let stopped := { c with link := { c.link with readTask := false } }
  let read := { c with buffer := c.buffer ++ chunk }
  match run with
  | .waits => read
  | .bytes => read.readStep create built
  | .failed | .unarmed => stopped.finish false
  | .closed => { read with link := c.link.handleDisconnect.1 }

inductive Move where
  | execute (d : Dial)
  | write (run : WriteRun) (armed : Bool)
  | read (run : ReadRun) (chunk : Bytes) (create built : Bool)
  | close
  deriving DecidableEq, Repr

def step (c : ClientCall) : Move → Option ClientCall
  | .execute d => if c.started = false then some (c.executeAsync d) else none
  | .write run armed => if c.link.writeTask then some (c.runWrite run armed) else none
  | .read run chunk create built => if c.link.readTask then some (c.runRead run chunk create built) else none
  | .close => some c.close

def reset (closes : Bool) (kept : Option HttpParser) : ClientCall := { closes, parser := kept.map httpParserReset }

/-- The connection has ended, or no watcher is left on it, or the response is complete. -/
def Over (c : ClientCall) : Prop :=
  c.started = true ∧ (c.link.connection = false ∨ c.link.disconnected = true ∨ c.link.Idle ∨ ResponseComplete c.offered)

def Completes (c : ClientCall) : Prop := c.Over → CompletedOnce c.told (ResponseComplete c.offered) c.allocated c.freed

/-- The watchers are to be had, the server does not close before it has answered, and neither does the user. -/
def Answers (c : ClientCall) : Move → Prop
  | .execute d => d.connects = true → d.memory = true → d.armed = true
  | .write run armed => run = .done → armed = true
  | .read run .. => run ≠ .closed
  | .close => c.started = true → c.told ≠ []

variable {c d : ClientCall}

/-! ## The end of a call -/

theorem finish_eq (pointed : c.asyncConn = true) (success : Bool) : c.finish success =
    { c with told := success :: c.told, asyncConn := false, link := c.link.closed, freed := c.freed + 1 } := by
  unfold finish tell close
  cases c.closes <;> simp [pointed]

theorem tell_told (c : ClientCall) (success : Bool) : ∃ asyncConn link, c.link.Fewer link ∧
    c.tell success = { c with told := success :: c.told, asyncConn, link } := by
  unfold tell close
  dsimp only
  split_ifs
  · exact ⟨false, c.link.closed, c.link.closed_fewer, rfl⟩
  · exact ⟨c.asyncConn, c.link, .refl _, rfl⟩
  · exact ⟨c.asyncConn, c.link, .refl _, rfl⟩

/-! ## How far the call is -/

structure Unstarted (c : ClientCall) : Prop where
  started : c.started = false
  asyncConn : c.asyncConn = false
  idle : c.link.Idle
  allocated : c.allocated = false
  freed : c.freed = 0
  told : c.told = []
  offered : c.offered = []
  parsing : Parsing c.reader.httpParser c.reader.parsedOffset []

structure Untold (c : ClientCall) : Prop where
  started : c.started = true
  asyncConn : c.asyncConn = true
  allocated : c.allocated = true
  freed : c.freed = 0
  told : c.told = []

structure Waiting (c : ClientCall) : Prop extends Untold c where
  open_ : c.link.connection = true
  running : c.link.disconnected = false
  single : c.link.readTask = !c.link.writeTask
  parsing : Parsing c.reader.httpParser c.reader.parsedOffset c.offered
  given : c.offered <+: c.buffer

structure Finished (c : ClientCall) : Prop where
  started : c.started = true
  completed : CompletedOnce c.told (ResponseComplete c.offered) c.allocated c.freed
  idle : c.link.Idle

def Calling (c : ClientCall) : Prop := c.Unstarted ∨ c.Waiting ∨ c.Finished

theorem Waiting.not_over (waiting : c.Waiting) : ¬ c.Over := by
  rintro ⟨_, closed | ended | idle | complete⟩
  · rw [waiting.open_] at closed
    cases closed
  · rw [waiting.running] at ended
    cases ended
  · have single := waiting.single
    rw [idle.1, idle.2] at single
    cases single
  · have running := waiting.parsing.running
    rw [show _ = Http.ParseStatus.complete from complete] at running
    cases running

theorem Calling.completes (calling : c.Calling) : c.Completes := by
  intro over_
  rcases calling with unstarted | waiting | finished
  · have started := over_.1
    rw [unstarted.started] at started
    cases started
  · exact absurd over_ waiting.not_over
  · exact finished.completed

theorem Waiting.stops (waiting : c.Waiting) : c.link.disconnected = true → c.link.Idle := by
  intro ended
  rw [waiting.running] at ended
  cases ended

theorem Untold.finish (untold : c.Untold) (idle : c.link.disconnected = true → c.link.Idle) {success : Bool}
    (honest : success = true → ResponseComplete c.offered) : (c.finish success).Finished := by
  rw [finish_eq untold.asyncConn]
  refine ⟨untold.started, ⟨?_, fun member => ?_, ?_⟩, Link.closed_idle idle⟩
  · show (success :: c.told).length = 1
    rw [untold.told]
    rfl
  · have member : true ∈ success :: c.told := member
    rw [untold.told, List.mem_singleton] at member
    exact honest member.symm
  · show c.freed + 1 = if c.allocated = true then 1 else 0
    rw [untold.freed, untold.allocated]
    rfl

theorem Untold.fails (untold : c.Untold) (idle : c.link.disconnected = true → c.link.Idle) : (c.finish false).Finished :=
  untold.finish idle fun success => by cases success

theorem Waiting.runWrite (waiting : c.Waiting) (task : c.link.writeTask = true) {run : WriteRun} {armed : Bool}
    (answers : run = .done → armed = true) : (c.runWrite run armed).Calling := by
  have untold : ∀ link : Link, Untold { c with link } := fun _ => { waiting.toUntold with }
  have still : ({ c.link with writeTask := false } : Link).disconnected = true → ({ c.link with writeTask := false } : Link).Idle :=
    fun ended => ⟨(waiting.stops ended).1, rfl⟩
  cases run with
  | waits => exact Or.inr (Or.inl waiting)
  | done =>
    have reading : c.link.readTask = false := by
      rw [waiting.single, task]
      rfl
    have made : ({ c.link with writeTask := false } : Link).createReadTask armed =
        ({ c.link with writeTask := false, readTask := armed }, armed) := by
      unfold Link.createReadTask
      dsimp only
      rw [if_neg (by rw [waiting.open_]; decide), if_neg (by rw [reading]; decide)]
    refine Or.inr (Or.inl ?_)
    show Waiting { c with link := (({ c.link with writeTask := false } : Link).createReadTask armed).1 }
    rw [made]
    exact { waiting with single := answers rfl }
  | failed => exact Or.inr (Or.inr ((untold _).fails still))
  | unarmed => exact Or.inr (Or.inr ((untold _).fails still))
  | closed => exact Or.inr (Or.inr ((untold _).fails fun _ => Link.handleDisconnect_idle still))

theorem Waiting.readStep (waiting : c.Waiting) (create built : Bool) : (c.readStep create built).Calling := by
  have untold : ∀ parser parsedOffset, Untold { c with offered := c.buffer, parser, parsedOffset } :=
    fun _ _ => { waiting.toUntold with }
  rcases @ClientRead.readStep_parsing c.reader c.offered waiting.parsing waiting.given with ⟨goes, complete⟩
  unfold ClientCall.readStep
  dsimp only
  split
  · exact Or.inr (Or.inr ((untold _ _).fails waiting.stops))
  · rw [show ({ c with offered := c.buffer } : ClientCall).reader = c.reader from rfl]
    split
    · rename_i turn
      refine Or.inr (Or.inl { waiting with parsing := ?_, given := List.prefix_refl _ })
      exact goes turn
    · rename_i res turn
      exact Or.inr (Or.inr ((untold _ _).finish waiting.stops fun _ => complete res turn))
    · exact Or.inr (Or.inr ((untold _ _).fails waiting.stops))

theorem Waiting.runRead (waiting : c.Waiting) {run : ReadRun} (answers : run ≠ .closed) (chunk : Bytes) (create built : Bool) :
    (c.runRead run chunk create built).Calling := by
  have read : Waiting { c with buffer := c.buffer ++ chunk } :=
    { waiting with given := waiting.given.trans (List.prefix_append ..) }
  have untold : Untold { c with link := { c.link with readTask := false } } := { waiting.toUntold with }
  have stopped := untold.fails fun ended => ⟨rfl, (waiting.stops ended).2⟩
  cases run with
  | waits => exact Or.inr (Or.inl read)
  | bytes => exact read.readStep create built
  | failed => exact Or.inr (Or.inr stopped)
  | unarmed => exact Or.inr (Or.inr stopped)
  | closed => exact absurd rfl answers

theorem Unstarted.executeAsync (unstarted : c.Unstarted) {d : Dial}
    (answers : d.connects = true → d.memory = true → d.armed = true) : (c.executeAsync d).Calling := by
  -- the user is told of what fails before there are data
  have told : ∀ asyncConn buffer, ∀ link : Link, link.Idle →
      (ClientCall.tell { c with started := true, asyncConn, link, buffer } false).Finished := by
    intro asyncConn buffer link idle
    rcases tell_told { c with started := true, asyncConn, link, buffer } false with ⟨asyncConn', link', fewer, same⟩
    rw [same]
    refine ⟨rfl, ⟨?_, fun member => ?_, ?_⟩, fewer.idle idle⟩
    · show (false :: c.told).length = 1
      rw [unstarted.told]
      rfl
    · have member : true ∈ false :: c.told := member
      rw [unstarted.told] at member
      simp at member
    · show c.freed = if c.allocated = true then 1 else 0
      rw [unstarted.freed, unstarted.allocated]
      rfl
  unfold ClientCall.executeAsync
  dsimp only
  cases connects : d.connects with
  | false => exact Or.inr (Or.inr (told _ _ _ unstarted.idle))
  | true =>
    rw [if_neg (by decide)]
    unfold createWriteTask
    cases memory : d.memory with
    | false => exact Or.inr (Or.inr (told _ _ _ ⟨rfl, rfl⟩))
    | true =>
      rw [answers connects memory]
      refine Or.inr (Or.inl ?_)
      show Waiting { c with started := true, asyncConn := true, link := { writeTask := true }, buffer := [], allocated := true }
      have parsing := unstarted.parsing
      rw [← unstarted.offered] at parsing
      exact {
        started := rfl
        asyncConn := rfl
        allocated := rfl
        freed := unstarted.freed
        told := unstarted.told
        open_ := rfl
        running := rfl
        single := rfl
        parsing
        given := by rw [unstarted.offered] }

theorem Finished.close (finished : c.Finished) : c.close.Finished := by
  unfold ClientCall.close
  split
  · exact { finished with idle := Link.closed_idle fun _ => finished.idle }
  · exact finished

theorem Unstarted.close (unstarted : c.Unstarted) : c.close = c := by
  unfold ClientCall.close
  rw [if_neg (by rw [unstarted.asyncConn]; decide)]

theorem calling_step {move : Move} (calling : c.Calling) (answers : c.Answers move) (step : c.step move = some d) :
    d.Calling := by
  cases move with
  | execute dial =>
    simp only [ClientCall.step, Option.ite_none_right_eq_some, Option.some.injEq] at step
    rcases step with ⟨fresh, rfl⟩
    rcases calling with unstarted | waiting | finished
    · exact unstarted.executeAsync answers
    · rw [waiting.started] at fresh
      cases fresh
    · rw [finished.started] at fresh
      cases fresh
  | write run armed =>
    simp only [ClientCall.step, Option.ite_none_right_eq_some, Option.some.injEq] at step
    rcases step with ⟨task, rfl⟩
    rcases calling with unstarted | waiting | finished
    · rw [unstarted.idle.2] at task
      cases task
    · exact waiting.runWrite task answers
    · rw [finished.idle.2] at task
      cases task
  | read run chunk create built =>
    simp only [ClientCall.step, Option.ite_none_right_eq_some, Option.some.injEq] at step
    rcases step with ⟨task, rfl⟩
    rcases calling with unstarted | waiting | finished
    · rw [unstarted.idle.1] at task
      cases task
    · exact waiting.runRead answers chunk create built
    · rw [finished.idle.1] at task
      cases task
  | close =>
    cases step
    rcases calling with unstarted | waiting | finished
    · rw [unstarted.close]
      exact Or.inl unstarted
    · exact absurd waiting.told (answers waiting.started)
    · exact Or.inr (Or.inr finished.close)

/-! ## A user that waits for ever -/

theorem not_completes (over_ : c.Over) (lost : c.told = [] ∨ c.allocated = true ∧ c.freed = 0) : ¬ c.Completes := by
  intro completes
  have completed := completes over_
  rcases lost with silent | ⟨allocated, freed⟩
  · have once := completed.once
    rw [silent] at once
    cases once
  · have released := completed.released
    rw [allocated, freed] at released
    cases released

theorem Unstarted.executeAsync_lost (unstarted : c.Unstarted) {d : Dial} (connects : d.connects = true) (memory : d.memory = true)
    (armed : d.armed = false) : ¬ (c.executeAsync d).Completes := by
  have told : c.executeAsync d =
      ClientCall.tell { c with started := true, asyncConn := true, link := {}, buffer := [], allocated := true } false := by
    unfold ClientCall.executeAsync createWriteTask Link.createWriteTask
    rw [connects, memory, armed]
    rfl
  rcases tell_told { c with started := true, asyncConn := true, link := {}, buffer := [], allocated := true } false with
    ⟨asyncConn, link, fewer, same⟩
  rw [told, same]
  exact not_completes ⟨rfl, Or.inr (Or.inr (Or.inl (fewer.idle ⟨rfl, rfl⟩)))⟩ (Or.inr ⟨rfl, unstarted.freed⟩)

theorem Waiting.afterWrite_lost (waiting : c.Waiting) (task : c.link.writeTask = true) :
    ¬ (c.runWrite .done false).Completes := by
  have reading : c.link.readTask = false := by
    rw [waiting.single, task]
    rfl
  have made : (({ c.link with writeTask := false } : Link).createReadTask false).1 = { c.link with writeTask := false } := by
    unfold Link.createReadTask
    dsimp only
    rw [if_neg (by rw [waiting.open_]; decide), if_neg (by rw [reading]; decide), ← reading]
  show ¬ Completes { c with link := (({ c.link with writeTask := false } : Link).createReadTask false).1 }
  rw [made]
  exact not_completes ⟨waiting.started, Or.inr (Or.inr (Or.inl ⟨reading, rfl⟩))⟩ (Or.inl waiting.told)

theorem Waiting.close_lost (waiting : c.Waiting) : ¬ c.close.Completes := by
  unfold ClientCall.close
  rw [if_pos waiting.asyncConn]
  exact not_completes ⟨waiting.started, Or.inl c.link.closed_connection⟩ (Or.inl waiting.told)

theorem step_lost {move : Move} (calling : c.Calling) (lost : ¬ c.Answers move) (step : c.step move = some d) :
    ¬ d.Completes := by
  cases move with
  | execute dial =>
    simp only [ClientCall.step, Option.ite_none_right_eq_some, Option.some.injEq] at step
    rcases step with ⟨fresh, rfl⟩
    unfold Answers at lost
    simp only [Classical.not_imp, Bool.not_eq_true] at lost
    rcases lost with ⟨connects, memory, armed⟩
    rcases calling with unstarted | waiting | finished
    · exact unstarted.executeAsync_lost connects memory armed
    · rw [waiting.started] at fresh
      cases fresh
    · rw [finished.started] at fresh
      cases fresh
  | write run armed =>
    simp only [ClientCall.step, Option.ite_none_right_eq_some, Option.some.injEq] at step
    rcases step with ⟨task, rfl⟩
    unfold Answers at lost
    simp only [Classical.not_imp, Bool.not_eq_true] at lost
    rcases lost with ⟨rfl, rfl⟩
    rcases calling with unstarted | waiting | finished
    · rw [unstarted.idle.2] at task
      cases task
    · exact waiting.afterWrite_lost task
    · rw [finished.idle.2] at task
      cases task
  | read run chunk create built =>
    simp only [ClientCall.step, Option.ite_none_right_eq_some, Option.some.injEq] at step
    rcases step with ⟨task, rfl⟩
    have closed : run = .closed := Classical.not_not.mp lost
    rcases calling with unstarted | waiting | finished
    · rw [unstarted.idle.1] at task
      cases task
    · rw [closed]
      exact not_completes ⟨waiting.started, Or.inr (Or.inl c.link.handleDisconnect_disconnected)⟩ (Or.inl waiting.told)
    · rw [finished.idle.1] at task
      cases task
  | close =>
    cases step
    unfold Answers at lost
    rw [Classical.not_imp, Classical.not_not] at lost
    rcases lost with ⟨started, silent⟩
    rcases calling with unstarted | waiting | finished
    · rw [unstarted.started] at started
      cases started
    · exact waiting.close_lost
    · have once := finished.completed.once
      rw [silent] at once
      cases once

theorem reset_unstarted (closes : Bool) {kept : Option HttpParser} (mode : ∀ p ∈ kept, p.responseMode = true) :
    (reset closes kept).Unstarted where
  started := rfl
  asyncConn := rfl
  idle := ⟨rfl, rfl⟩
  allocated := rfl
  freed := rfl
  told := rfl
  offered := rfl
  parsing := by
    cases kept with
    | none => exact ⟨rfl, rfl, rfl⟩
    | some p =>
      have alike := reset_alike p
      rw [mode p rfl] at alike
      exact ⟨rfl, alike, rfl⟩

theorem completes_of_answers (closes : Bool) {kept : Option HttpParser} (mode : ∀ p ∈ kept, p.responseMode = true)
    {moves : List Move} (possible : (run ClientCall.step (reset closes kept) moves).isSome = true) :
    Throughout ClientCall.step Completes (reset closes kept) moves ↔ Along ClientCall.step Answers (reset closes kept) moves := by
  refine @throughout_iff_along _ _ ClientCall.step Answers Calling Completes _ _ (Or.inl (reset_unstarted closes mode)) ?_ ?_ ?_ possible
  · exact fun _ _ _ calling answers step => calling_step calling answers step
  · exact fun _ calling => calling.completes
  · exact fun _ _ _ calling lost step => step_lost calling lost step

end ClientCall
end BlueBird.Net
