import BlueBird.Http.Feed
import BlueBird.Stream.Resumable

namespace BlueBird.Http

/-! ## Consuming a line in pieces -/

theorem consumeLine_append (p : ParserCore) (xs ys : Bytes) :
    consumeLine p (xs ++ ys) =
      match consumeLine p xs with
      | (.more, q, _) => consumeLine q ys
      | (r, q, rest) => (r, q, rest ++ ys) := by
  fun_induction consumeLine p xs with
  | case1 p => rfl
  | case2 p xs cr q => simp [consumeLine, cr, q]
  | case3 p c xs cr q lf => simp [consumeLine, cr, lf, q]
  | case4 p xs cr ih => simpa [consumeLine, cr] using ih
  | case5 p xs cr lf => simp [consumeLine, cr, lf]
  | case6 p xs cr lf nul => simp [consumeLine, cr, lf, nul]
  | case7 p c xs cr isCr lf nul full => simp [consumeLine, cr, isCr, lf, nul, full]
  | case8 p c xs cr isCr lf nul room ih => simpa [consumeLine, cr, isCr, lf, nul, room] using ih

/-- What a call leaves: nothing when it asks for more, fewer bytes after a line, and a parser in
    its error state after a violation. -/
theorem consumeLine_spec (p : ParserCore) (xs : Bytes) :
    match consumeLine p xs with
    | (.more, q, rest) => rest = [] ∧ q.state = p.state
    | (.line, q, rest) => rest.length < xs.length ∧ q.state = p.state
    | (.violation, q, rest) => rest.length ≤ xs.length ∧ q.state = .stateError := by
  fun_induction consumeLine p xs with
  | case1 p => simp
  | case2 p xs cr q => simp [q]
  | case3 p c xs cr q lf => simp [ParserCore.setError]
  | case4 p xs cr ih => grind
  | case5 p xs cr lf => simp [ParserCore.setError]
  | case6 p xs cr lf nul => simp [ParserCore.setError]
  | case7 p c xs cr isCr lf nul full => simp [ParserCore.setError]
  | case8 p c xs cr isCr lf nul room ih => grind

/-! ## The feed loop without the buffer capacities -/

def ParserCore.extendBody (p : ParserCore) (data : Bytes) : ParserCore :=
  { p.appendActiveBody data with bodyWritten := p.bodyWritten + data.length }

theorem bodyAppend_core (p : HttpParser) (data : Bytes) :
    (bodyAppend p data).toParserCore = p.toParserCore.extendBody data := by
  unfold bodyAppend
  split
  · rename_i empty
    obtain rfl := List.eq_nil_of_length_eq_zero empty
    unfold ParserCore.extendBody ParserCore.appendActiveBody
    split <;> simp
  · rfl

theorem extendBody_append (p : ParserCore) (xs ys : Bytes) :
    (p.extendBody xs).extendBody ys = p.extendBody (xs ++ ys) := by
  unfold ParserCore.extendBody ParserCore.appendActiveBody
  split <;> simp_all [Nat.add_assoc]

@[simp] theorem extendBody_bodyWritten (p : ParserCore) (data : Bytes) :
    (p.extendBody data).bodyWritten = p.bodyWritten + data.length := rfl

@[simp] theorem extendBody_frame (p : ParserCore) (data : Bytes) :
    (p.extendBody data).state = p.state ∧ (p.extendBody data).contentLength = p.contentLength ∧
      (p.extendBody data).chunkRemaining = p.chunkRemaining := by
  unfold ParserCore.extendBody ParserCore.appendActiveBody
  split <;> simp

theorem extendBody_withChunkRemaining (p : ParserCore) (n : Nat) (data : Bytes) :
    { p with chunkRemaining := n }.extendBody data = { p.extendBody data with chunkRemaining := n } := by
  unfold ParserCore.extendBody ParserCore.appendActiveBody
  split <;> rfl

def forgetCaps (r : Turn × HttpParser × Bytes) : Turn × ParserCore × Bytes :=
  (r.1, r.2.1.toParserCore, r.2.2)

def ParserCore.turn (p : ParserCore) (cursor : Bytes) : Turn × ParserCore × Bytes :=
  forgetCaps (feedTurn { toParserCore := p } cursor)

theorem finishHeaders_core (p q : HttpParser) (same : p.toParserCore = q.toParserCore) :
    (finishHeaders p).toParserCore = (finishHeaders q).toParserCore := by
  unfold finishHeaders
  rw [same]
  repeat' split
  all_goals simp [HttpParser.setError, same]

theorem headerLine_core (p q : HttpParser) (same : p.toParserCore = q.toParserCore) :
    (headerLine p).1 = (headerLine q).1 ∧
      (headerLine p).2.toParserCore = (headerLine q).2.toParserCore := by
  have finished := finishHeaders_core p q same
  simp only [headerLine, same, finished]
  split
  · split <;> exact ⟨rfl, finished⟩
  · exact ⟨rfl, rfl⟩

theorem lineTurn_core (p q : HttpParser) (same : p.toParserCore = q.toParserCore) :
    (lineTurn p).1 = (lineTurn q).1 ∧ (lineTurn p).2.toParserCore = (lineTurn q).2.toParserCore := by
  simp only [lineTurn, same]
  split
  case h_2 => exact headerLine_core p q same
  all_goals simp [HttpParser.setError, same]

theorem awaitLine_core (p q : HttpParser) (cursor : Bytes) (same : p.toParserCore = q.toParserCore) :
    forgetCaps (awaitLine p cursor) = forgetCaps (awaitLine q cursor) := by
  simp only [awaitLine, same]
  split
  · rfl
  · rfl
  · rename_i core rest _
    have lines := lineTurn_core { p with toParserCore := core } { q with toParserCore := core } rfl
    simp only [forgetCaps, lines.1, lines.2]

theorem takeFixedBody_core (p q : HttpParser) (cursor : Bytes)
    (same : p.toParserCore = q.toParserCore) :
    forgetCaps (takeFixedBody p cursor) = forgetCaps (takeFixedBody q cursor) := by
  simp only [takeFixedBody, bodyAppend_core, same]
  split <;> simp [forgetCaps, bodyAppend_core, same]

theorem takeChunkData_core (p q : HttpParser) (cursor : Bytes)
    (same : p.toParserCore = q.toParserCore) :
    forgetCaps (takeChunkData p cursor) = forgetCaps (takeChunkData q cursor) := by
  simp only [takeChunkData, bodyAppend_core, same]
  split <;> simp [forgetCaps]

theorem feedTurn_core (p : HttpParser) (cursor : Bytes) :
    forgetCaps (feedTurn p cursor) = p.toParserCore.turn cursor := by
  cases state : p.state <;> simp only [ParserCore.turn, feedTurn, state]
  case bodyFixed => exact takeFixedBody_core _ _ _ rfl
  case chunkData => exact takeChunkData_core _ _ _ rfl
  case stateComplete => rfl
  case stateError => rfl
  all_goals exact awaitLine_core _ _ _ rfl

/-! ## One turn on an extended input -/

def ParseState.readsLine : ParseState → Bool
  | .requestLine | .headers | .chunkSize | .chunkDataCrlf | .trailers => true
  | _ => false

theorem turn_line (p : ParserCore) (cursor : Bytes) (line : p.state.readsLine) :
    p.turn cursor =
      match consumeLine p cursor with
      | (.more, q, rest) => (.incomplete, q, rest)
      | (.violation, q, rest) => (.error, q, rest)
      | (.line, q, rest) =>
        ((lineTurn { toParserCore := q }).1, (lineTurn { toParserCore := q }).2.toParserCore, rest) := by
  have awaits : p.turn cursor = forgetCaps (awaitLine { toParserCore := p } cursor) := by
    cases state : p.state <;> simp_all [ParserCore.turn, feedTurn, ParseState.readsLine]
  rw [awaits]
  unfold awaitLine
  dsimp only
  split <;> simp_all [forgetCaps]

theorem turn_fixed_done (p : ParserCore) (cursor : Bytes) (fixed : p.state = .bodyFixed)
    (enough : p.contentLength - p.bodyWritten ≤ cursor.length) :
    p.turn cursor =
      (.complete, { p.extendBody (cursor.take (p.contentLength - p.bodyWritten)) with
        state := .stateComplete }, cursor.drop (p.contentLength - p.bodyWritten)) := by
  have take : min (p.contentLength - p.bodyWritten) cursor.length = p.contentLength - p.bodyWritten := by
    omega
  have full : p.bodyWritten + (p.contentLength - p.bodyWritten) ≥ p.contentLength := by omega
  simp [ParserCore.turn, feedTurn, fixed, takeFixedBody, forgetCaps, bodyAppend_core, take, full]

theorem turn_fixed_more (p : ParserCore) (cursor : Bytes) (fixed : p.state = .bodyFixed)
    (short : cursor.length < p.contentLength - p.bodyWritten) :
    p.turn cursor = (.incomplete, p.extendBody cursor, []) := by
  have take : min (p.contentLength - p.bodyWritten) cursor.length = cursor.length := by omega
  have missing : ¬ p.contentLength ≤ p.bodyWritten + cursor.length := by omega
  simp [ParserCore.turn, feedTurn, fixed, takeFixedBody, forgetCaps, bodyAppend_core, take, missing]

theorem turn_chunk_done (p : ParserCore) (cursor : Bytes) (chunk : p.state = .chunkData)
    (enough : p.chunkRemaining ≤ cursor.length) :
    p.turn cursor =
      (.next, { p.extendBody (cursor.take p.chunkRemaining) with
        chunkRemaining := 0, state := .chunkDataCrlf }.resetLine 0, cursor.drop p.chunkRemaining) := by
  have take : min p.chunkRemaining cursor.length = p.chunkRemaining := by omega
  simp [ParserCore.turn, feedTurn, chunk, takeChunkData, forgetCaps, bodyAppend_core, take]

theorem turn_chunk_more (p : ParserCore) (cursor : Bytes) (chunk : p.state = .chunkData)
    (short : cursor.length < p.chunkRemaining) :
    p.turn cursor =
      (.incomplete, { p.extendBody cursor with chunkRemaining := p.chunkRemaining - cursor.length }, []) := by
  have take : min p.chunkRemaining cursor.length = cursor.length := by omega
  have left : 0 < p.chunkRemaining - cursor.length := by omega
  simp [ParserCore.turn, feedTurn, chunk, takeChunkData, forgetCaps, bodyAppend_core, take, left]

theorem lineTurn_spec (p : HttpParser) :
    match (lineTurn p).1 with
    | .incomplete => False
    | .complete => (lineTurn p).2.state = .stateComplete
    | .error => (lineTurn p).2.state = .stateError
    | .next => True := by
  cases state : p.state <;> simp only [lineTurn, state]
  case headers =>
    unfold headerLine ParserCore.parseHeader
    grind [ParserCore.setError]
  case requestLine => unfold ParserCore.parseStartLine; grind [ParserCore.setError]
  case chunkSize => unfold ParserCore.parseChunkSize; grind [ParserCore.setError]
  case chunkDataCrlf => unfold ParserCore.parseChunkEnd; grind [ParserCore.setError]
  case trailers => unfold ParserCore.parseTrailer; grind [ParserCore.setError]
  all_goals rfl

theorem turn_append_line (p : ParserCore) (xs ys : Bytes) (line : p.state.readsLine) :
    match p.turn xs with
    | (.incomplete, q, rest) => rest = [] ∧ p.turn (xs ++ ys) = q.turn ys
    | (t, q, rest) => p.turn (xs ++ ys) = (t, q, rest ++ ys) := by
  rw [turn_line p xs line, turn_line p (xs ++ ys) line, consumeLine_append]
  have spec := consumeLine_spec p xs
  match read : consumeLine p xs with
  | (.more, q, rest) =>
    simp only [read] at spec
    have waiting : q.state.readsLine := by rw [spec.2]; exact line
    exact ⟨spec.1, (turn_line q ys waiting).symm⟩
  | (.violation, q, rest) => rfl
  | (.line, q, rest) =>
    have ended := lineTurn_spec { toParserCore := q }
    dsimp only
    cases turn : (lineTurn { toParserCore := q }).1 <;> simp_all

theorem turn_append_fixed (p : ParserCore) (xs ys : Bytes) (fixed : p.state = .bodyFixed) :
    match p.turn xs with
    | (.incomplete, q, rest) => rest = [] ∧ p.turn (xs ++ ys) = q.turn ys
    | (t, q, rest) => p.turn (xs ++ ys) = (t, q, rest ++ ys) := by
  by_cases enough : p.contentLength - p.bodyWritten ≤ xs.length
  · rw [turn_fixed_done p xs fixed enough, turn_fixed_done p (xs ++ ys) fixed (by simp; omega),
      List.take_append_of_le_length enough, List.drop_append_of_le_length enough]
  · rw [turn_fixed_more p xs fixed (by omega)]
    refine ⟨rfl, ?_⟩
    have waiting : (p.extendBody xs).state = .bodyFixed := by simp [fixed]
    have need : (p.extendBody xs).contentLength - (p.extendBody xs).bodyWritten =
        p.contentLength - p.bodyWritten - xs.length := by simp; omega
    by_cases all : p.contentLength - p.bodyWritten ≤ (xs ++ ys).length
    · rw [turn_fixed_done p (xs ++ ys) fixed all, turn_fixed_done _ ys waiting (by simp at all ⊢; omega),
        need, extendBody_append, List.take_append, List.drop_append,
        List.take_of_length_le (by omega), List.drop_of_length_le (by omega), List.nil_append]
    · simp only [List.length_append] at all
      rw [turn_fixed_more p (xs ++ ys) fixed (by simp; omega), turn_fixed_more _ ys waiting (by omega),
        extendBody_append]

theorem turn_append_chunk (p : ParserCore) (xs ys : Bytes) (chunk : p.state = .chunkData) :
    match p.turn xs with
    | (.incomplete, q, rest) => rest = [] ∧ p.turn (xs ++ ys) = q.turn ys
    | (t, q, rest) => p.turn (xs ++ ys) = (t, q, rest ++ ys) := by
  by_cases enough : p.chunkRemaining ≤ xs.length
  · rw [turn_chunk_done p xs chunk enough, turn_chunk_done p (xs ++ ys) chunk (by simp; omega),
      List.take_append_of_le_length enough, List.drop_append_of_le_length enough]
  · rw [turn_chunk_more p xs chunk (by omega)]
    refine ⟨rfl, ?_⟩
    let q : ParserCore := { p.extendBody xs with chunkRemaining := p.chunkRemaining - xs.length }
    have waiting : q.state = .chunkData := by simp [q, chunk]
    by_cases all : p.chunkRemaining ≤ (xs ++ ys).length
    · rw [turn_chunk_done p (xs ++ ys) chunk all,
        turn_chunk_done q ys waiting (by simp [q] at all ⊢; omega), List.take_append, List.drop_append,
        List.take_of_length_le (by omega), List.drop_of_length_le (by omega), List.nil_append]
      simp only [q, extendBody_withChunkRemaining, extendBody_append]
    · simp only [List.length_append] at all
      rw [turn_chunk_more p (xs ++ ys) chunk (by simp; omega),
        turn_chunk_more q ys waiting (by simp [q]; omega)]
      simp only [q, extendBody_withChunkRemaining, extendBody_append, List.length_append, Nat.sub_sub]

/-- A turn that runs out of input can be resumed; one that ends otherwise does not look at what
    follows the bytes it used. -/
theorem turn_append (p : ParserCore) (xs ys : Bytes) :
    match p.turn xs with
    | (.incomplete, q, rest) => rest = [] ∧ p.turn (xs ++ ys) = q.turn ys
    | (t, q, rest) => p.turn (xs ++ ys) = (t, q, rest ++ ys) := by
  cases state : p.state
  case bodyFixed => exact turn_append_fixed p xs ys state
  case chunkData => exact turn_append_chunk p xs ys state
  case stateComplete => simp [ParserCore.turn, feedTurn, forgetCaps, state]
  case stateError => simp [ParserCore.turn, feedTurn, forgetCaps, state]
  all_goals exact turn_append_line p xs ys (by rw [state]; rfl)

def ParserCore.status (p : ParserCore) : ParseStatus :=
  match p.state with
  | .stateComplete => .complete
  | .stateError => .error
  | _ => .incomplete

/-- Room for the turns that are left: two for each byte, and one to close a chunk's data. -/
def ParserCore.turnsLeft (p : ParserCore) (cursor : Bytes) : Nat :=
  2 * cursor.length + if p.state = .chunkData then 1 else 0

theorem turn_spec (p : ParserCore) (cursor : Bytes) :
    match p.turn cursor with
    | (.incomplete, q, _) => q.status = .incomplete
    | (.complete, q, rest) => q.status = .complete ∧ rest.length ≤ cursor.length
    | (.error, q, rest) => q.status = .error ∧ rest.length ≤ cursor.length
    | (.next, q, rest) => q.turnsLeft rest < p.turnsLeft cursor ∧ rest.length ≤ cursor.length := by
  by_cases line : p.state.readsLine
  · rw [turn_line p cursor line]
    have spec := consumeLine_spec p cursor
    match read : consumeLine p cursor with
    | (.more, q, rest) =>
      simp only [read] at spec
      cases state : p.state <;> simp_all [ParserCore.status, ParseState.readsLine]
    | (.violation, q, rest) =>
      simp only [read] at spec
      simp [ParserCore.status, spec.1, spec.2]
    | (.line, q, rest) =>
      simp only [read] at spec
      have ended := lineTurn_spec { toParserCore := q }
      have shorter : rest.length ≤ cursor.length := by omega
      have fewer : ∀ core : ParserCore, core.turnsLeft rest < p.turnsLeft cursor := by
        intro core
        unfold ParserCore.turnsLeft
        split <;> split <;> omega
      dsimp only
      cases turn : (lineTurn { toParserCore := q }).1 <;> simp_all [ParserCore.status]
  · cases state : p.state <;> simp only [state, ParseState.readsLine, not_true_eq_false] at line
    case bodyFixed =>
      by_cases enough : p.contentLength - p.bodyWritten ≤ cursor.length
      · simp [turn_fixed_done p cursor state enough, ParserCore.status]
      · simp [turn_fixed_more p cursor state (by omega), ParserCore.status, state]
    case chunkData =>
      by_cases enough : p.chunkRemaining ≤ cursor.length
      · rw [turn_chunk_done p cursor state enough]
        have here : p.turnsLeft cursor = 2 * cursor.length + 1 := by rw [ParserCore.turnsLeft, if_pos state]
        have left : ∀ q : ParserCore, q.state = .chunkDataCrlf →
            q.turnsLeft (cursor.drop p.chunkRemaining) = 2 * (cursor.length - p.chunkRemaining) := by
          intro q crlf
          simp [ParserCore.turnsLeft, crlf]
        dsimp only
        rw [here, left _ rfl, List.length_drop]
        omega
      · simp [turn_chunk_more p cursor state (by omega), ParserCore.status, state]
    all_goals simp [ParserCore.turn, feedTurn, forgetCaps, state, ParserCore.status]

/-! ## The loop -/

def ParserCore.loop : Nat → ParserCore → Bytes → ParserCore × Bytes
  | 0, p, cursor => (p, cursor)
  | fuel + 1, p, cursor =>
    match p.turn cursor with
    | (.next, q, rest) => loop fuel q rest
    | (_, q, rest) => (q, rest)

theorem loop_fuel (n m : Nat) (p : ParserCore) (cursor : Bytes)
    (left : p.turnsLeft cursor < n) (right : p.turnsLeft cursor < m) :
    p.loop n cursor = p.loop m cursor := by
  induction n generalizing m p cursor with
  | zero => omega
  | succ n ih =>
    obtain ⟨m, rfl⟩ := Nat.exists_eq_add_of_lt (Nat.zero_lt_of_lt right)
    simp only [Nat.zero_add, ParserCore.loop]
    have spec := turn_spec p cursor
    split
    · rename_i q rest turn
      simp only [turn] at spec
      exact ih m q rest (by omega) (by omega)
    · rfl

theorem turnsLeft_lt_fuel (p : ParserCore) (cursor : Bytes) : p.turnsLeft cursor < feedFuel cursor := by
  unfold ParserCore.turnsLeft feedFuel
  split <;> omega

def ParserCore.feed (p : ParserCore) (cursor : Bytes) : ParserCore × Bytes :=
  p.loop (feedFuel cursor) cursor

theorem feed_eq (p : ParserCore) (cursor : Bytes) :
    p.feed cursor =
      match p.turn cursor with
      | (.next, q, rest) => q.feed rest
      | (_, q, rest) => (q, rest) := by
  have spec := turn_spec p cursor
  have enough := turnsLeft_lt_fuel p cursor
  conv => lhs; unfold ParserCore.feed feedFuel ParserCore.loop
  split
  · rename_i q rest turn
    simp only [turn] at spec
    exact loop_fuel _ _ q rest (by unfold feedFuel at enough; omega) (turnsLeft_lt_fuel q rest)
  · rfl

theorem turns_induction {motive : ParserCore → Bytes → Prop}
    (step : ∀ p cursor, (∀ q rest, p.turn cursor = (.next, q, rest) → motive q rest) → motive p cursor)
    (p : ParserCore) (cursor : Bytes) : motive p cursor := by
  generalize bound : p.turnsLeft cursor = n
  induction n using Nat.strongRecOn generalizing p cursor with
  | _ n ih =>
    apply step
    intro q rest turn
    have spec := turn_spec p cursor
    simp only [turn] at spec
    exact ih _ (by omega) q rest rfl

theorem feed_rest_length (p : ParserCore) (cursor : Bytes) :
    (p.feed cursor).2.length ≤ cursor.length := by
  induction p, cursor using turns_induction with
  | step p cursor ih =>
    rw [feed_eq]
    have spec := turn_spec p cursor
    have joined := turn_append p cursor []
    match turn : p.turn cursor with
    | (.next, q, rest) =>
      simp only [turn] at spec
      exact Nat.le_trans (ih q rest turn) spec.2
    | (.incomplete, q, rest) =>
      simp only [turn] at joined
      simp [joined.1]
    | (.complete, q, rest) =>
      simp only [turn] at spec
      exact spec.2
    | (.error, q, rest) =>
      simp only [turn] at spec
      exact spec.2

theorem feed_append (p : ParserCore) (xs ys : Bytes) :
    p.feed (xs ++ ys) =
      if (p.feed xs).1.status = .incomplete then (p.feed xs).1.feed ys
      else ((p.feed xs).1, (p.feed xs).2 ++ ys) := by
  induction p, xs using turns_induction with
  | step p xs ih =>
    have spec := turn_spec p xs
    have joined := turn_append p xs ys
    rw [feed_eq p xs, feed_eq p (xs ++ ys)]
    match turn : p.turn xs with
    | (.next, q, rest) =>
      simp only [turn] at joined
      rw [joined]
      exact ih q rest turn
    | (.incomplete, q, rest) =>
      simp only [turn] at joined spec
      rw [joined.2, if_pos spec]
      exact (feed_eq q ys).symm
    | (.complete, q, rest) =>
      simp only [turn] at joined spec
      simp [joined, spec.1]
    | (.error, q, rest) =>
      simp only [turn] at joined spec
      simp [joined, spec.1]

theorem feed_eats (p : ParserCore) (cursor : Bytes) (waiting : (p.feed cursor).1.status = .incomplete) :
    (p.feed cursor).2 = [] := by
  induction p, cursor using turns_induction with
  | step p cursor ih =>
    rw [feed_eq] at waiting ⊢
    have spec := turn_spec p cursor
    have joined := turn_append p cursor []
    match turn : p.turn cursor with
    | (.next, q, rest) =>
      simp only [turn] at waiting
      exact ih q rest turn waiting
    | (.incomplete, q, rest) =>
      simp only [turn] at joined
      exact joined.1
    | (.complete, q, rest) => simp_all
    | (.error, q, rest) => simp_all

/-- The parser without its buffer capacities, as a consumer that can be suspended anywhere. -/
def parserFeeder : Resumable.Feeder ParserCore Byte where
  feed p data := ((p.feed data).1, data.length - (p.feed data).2.length)
  running p := p.status = .incomplete
  eats p xs waiting := by
    have all := feed_eats p xs (by simpa using waiting)
    simp [all]
  resumes p xs ys waiting := by
    have waiting : (p.feed xs).1.status = .incomplete := by simpa using waiting
    have room := feed_rest_length (p.feed xs).1 ys
    rw [feed_append, if_pos waiting, List.length_append, Nat.add_sub_assoc room]
  stops p xs ys ended := by
    have ended : ¬ (p.feed xs).1.status = .incomplete := by simpa using ended
    rw [feed_append, if_neg ended]
    simp only [List.length_append, Prod.mk.injEq, true_and]
    omega

theorem parserFeeder_running (p : ParserCore) :
    parserFeeder.running p = true ↔ p.status = .incomplete := by
  simp [parserFeeder]

/-! ## The parser itself -/

theorem feedLoop_core (fuel : Nat) (p : HttpParser) (cursor : Bytes) :
    (feedLoop fuel p cursor).2.1.toParserCore = (p.toParserCore.loop fuel cursor).1 ∧
      (feedLoop fuel p cursor).2.2 = (p.toParserCore.loop fuel cursor).2 ∧
      (p.toParserCore.turnsLeft cursor < fuel →
        (feedLoop fuel p cursor).1 = (p.toParserCore.loop fuel cursor).1.status) := by
  induction fuel generalizing p cursor with
  | zero => simp [feedLoop, ParserCore.loop]
  | succ fuel ih =>
    have core := feedTurn_core p cursor
    have spec := turn_spec p.toParserCore cursor
    rw [← core] at spec
    simp only [feedLoop, ParserCore.loop, ← core]
    match turn : feedTurn p cursor with
    | (.next, q, rest) =>
      simp only [forgetCaps, turn] at spec ⊢
      have after := ih q rest
      exact ⟨after.1, after.2.1, fun room => after.2.2 (by omega)⟩
    | (.incomplete, q, rest) =>
      simp only [forgetCaps, turn] at spec ⊢
      exact ⟨trivial, trivial, fun _ => spec.symm⟩
    | (.complete, q, rest) =>
      simp only [forgetCaps, turn] at spec ⊢
      exact ⟨trivial, trivial, fun _ => spec.1.symm⟩
    | (.error, q, rest) =>
      simp only [forgetCaps, turn] at spec ⊢
      exact ⟨trivial, trivial, fun _ => spec.1.symm⟩

theorem httpParserFeed_core (p : HttpParser) (data : Bytes) :
    (httpParserFeed p data).1 = (parserFeeder.feed p.toParserCore data).1.status ∧
      (httpParserFeed p data).2.toParserCore = (parserFeeder.feed p.toParserCore data).1 ∧
      (httpParserFeed p data).2.lastConsumed = (parserFeeder.feed p.toParserCore data).2 := by
  have loops := feedLoop_core (feedFuel data) { p with lastConsumed := 0 } data
  have enough := loops.2.2 (turnsLeft_lt_fuel p.toParserCore data)
  simp only [parserFeeder]
  unfold httpParserFeed
  dsimp only
  split
  · rename_i state
    have done : p.toParserCore.feed data = (p.toParserCore, data) := by
      simp [feed_eq, ParserCore.turn, feedTurn, forgetCaps, state]
    simp [done, ParserCore.status, state]
  · rename_i state
    have done : p.toParserCore.feed data = (p.toParserCore, data) := by
      simp [feed_eq, ParserCore.turn, feedTurn, forgetCaps, state]
    simp [done, ParserCore.status, state]
  · exact ⟨enough, loops.1, congrArg (data.length - ·.length) loops.2.1⟩

theorem httpParserFeed_behind {p : HttpParser} {fresh : ParserCore} {parsed : Bytes}
    (core : p.toParserCore = (parserFeeder.feed fresh parsed).1)
    (running : parserFeeder.running (parserFeeder.feed fresh parsed).1 = true) (more : Bytes) :
    (httpParserFeed p more).1 = (parserFeeder.feed fresh (parsed ++ more)).1.status ∧
      (httpParserFeed p more).2.toParserCore = (parserFeeder.feed fresh (parsed ++ more)).1 ∧
      (parserFeeder.running (parserFeeder.feed fresh (parsed ++ more)).1 = true →
        (httpParserFeed p more).2.lastConsumed = more.length) := by
  rcases httpParserFeed_core p more with ⟨status, after, consumed⟩
  have resumed := congrArg Prod.fst (parserFeeder.resumes fresh parsed more running)
  rw [← core] at resumed
  rw [resumed]
  refine ⟨status, after, fun going => ?_⟩
  rw [consumed]
  exact parserFeeder.eats p.toParserCore more going

theorem feedFragments_core (p : HttpParser) (waiting : p.status = .incomplete) (fragments : List Bytes) :
    (feedFragments p fragments).1 = (parserFeeder.feedAll p.toParserCore fragments).1.status ∧
      (feedFragments p fragments).2.1.toParserCore = (parserFeeder.feedAll p.toParserCore fragments).1 ∧
      (feedFragments p fragments).2.2 = (parserFeeder.feedAll p.toParserCore fragments).2 := by
  induction fragments generalizing p with
  | nil => simp [feedFragments, Resumable.Feeder.feedAll, waiting]
  | cons fragment fragments ih =>
    obtain ⟨status, core, consumed⟩ := httpParserFeed_core p fragment
    rw [← core] at status
    simp only [feedFragments, Resumable.Feeder.feedAll]
    rcases step : httpParserFeed p fragment with ⟨_ | _ | _, q⟩
    · simp only [step] at status core consumed
      obtain ⟨status', core', consumed'⟩ := ih q status.symm
      have running : parserFeeder.running (parserFeeder.feed p.toParserCore fragment).1 = true := by
        rw [parserFeeder_running, ← core, ← status]
      rw [if_pos running, ← core, ← consumed]
      exact ⟨status', core', congrArg (q.lastConsumed + ·) consumed'⟩
    · simp only [step] at status core consumed
      have stopped : ¬ parserFeeder.running (parserFeeder.feed p.toParserCore fragment).1 = true := by
        rw [parserFeeder_running, ← core, ← status]
        decide
      rw [if_neg stopped, ← core, ← consumed]
      exact ⟨status, rfl, rfl⟩
    · simp only [step] at status core consumed
      have stopped : ¬ parserFeeder.running (parserFeeder.feed p.toParserCore fragment).1 = true := by
        rw [parserFeeder_running, ← core, ← status]
        decide
      rw [if_neg stopped, ← core, ← consumed]
      exact ⟨status, rfl, rfl⟩

/-- The calls made after the parser is done, each with what it returns. -/
def laterFeeds (p : HttpParser) : List Bytes → List (ParseStatus × HttpParser)
  | [] => []
  | data :: later => httpParserFeed p data :: laterFeeds (httpParserFeed p data).2 later

theorem httpParserFeed_done (p : HttpParser) (data : Bytes) (done : p.status ≠ .incomplete) :
    httpParserFeed p data = (p.status, { p with lastConsumed := 0 }) := by
  unfold httpParserFeed
  dsimp only
  cases state : p.state <;> simp_all [ParserCore.status]

theorem laterFeeds_done (p : HttpParser) (done : p.status ≠ .incomplete) (later : List Bytes) :
    ∀ r ∈ laterFeeds p later,
      r.1 = p.status ∧ r.2.lastConsumed = 0 ∧ r.2.toParserCore = p.toParserCore := by
  induction later generalizing p with
  | nil => simp [laterFeeds]
  | cons data later ih =>
    have first := httpParserFeed_done p data done
    intro r member
    simp only [laterFeeds, first, List.mem_cons] at member
    rcases member with rfl | member
    · exact ⟨rfl, rfl, rfl⟩
    · exact ih { p with lastConsumed := 0 } done r member

theorem freshParser_status (responseMode : Bool) : (freshParser responseMode).status = .incomplete := by
  cases responseMode <;> rfl

theorem feedFragments_whole (responseMode : Bool) (fragments : List Bytes) :
    let whole := httpParserFeed (freshParser responseMode) fragments.flatten
    let cut := feedFragments (freshParser responseMode) fragments
    cut.1 = whole.1 ∧ cut.2.2 = whole.2.lastConsumed ∧ cut.2.1.toParserCore = whole.2.toParserCore := by
  have settled : parserFeeder.feed (freshParser responseMode).toParserCore [] =
      ((freshParser responseMode).toParserCore, 0) := by cases responseMode <;> rfl
  have flat := parserFeeder.feedAll_flatten _ settled fragments
  obtain ⟨status, core, consumed⟩ := httpParserFeed_core (freshParser responseMode) fragments.flatten
  obtain ⟨status', core', consumed'⟩ := feedFragments_core _ (freshParser_status responseMode) fragments
  rw [flat] at status' core' consumed'
  exact ⟨status'.trans status.symm, consumed'.trans consumed.symm, core'.trans core.symm⟩

/-- However the input is cut, the parser ends with the status, the count of consumed bytes and the
    parsed message (all of its fields but the two capacities) of a single call, and once it has
    answered COMPLETE or ERROR no call changes anything more. -/
theorem httpParserFeed_fragmentation (responseMode : Bool) (fragments : List Bytes) :
    let whole := httpParserFeed (freshParser responseMode) fragments.flatten
    let cut := feedFragments (freshParser responseMode) fragments
    cut.1 = whole.1 ∧ cut.2.2 = whole.2.lastConsumed ∧ cut.2.1.toParserCore = whole.2.toParserCore ∧
      (cut.1 ≠ .incomplete → ∀ later : List Bytes, ∀ r ∈ laterFeeds cut.2.1 later,
        r.1 = cut.1 ∧ r.2.lastConsumed = 0 ∧ r.2.toParserCore = cut.2.1.toParserCore) := by
  obtain ⟨status, consumed, core⟩ := feedFragments_whole responseMode fragments
  refine ⟨status, consumed, core, ?_⟩
  intro done later
  obtain ⟨ended, left, _⟩ := feedFragments_core _ (freshParser_status responseMode) fragments
  have last : (feedFragments (freshParser responseMode) fragments).2.1.status =
      (feedFragments (freshParser responseMode) fragments).1 := by rw [ended, left]
  rw [← last] at done ⊢
  exact laterFeeds_done _ done later

end BlueBird.Http
