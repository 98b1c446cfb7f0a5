import BlueBird.Http.Phases

namespace BlueBird.Http

/-! ## What a caller sees -/

def httpParserGetRequest (p : HttpParser) : Option Request :=
  if p.state ≠ .stateComplete then none else some p.request

def httpParserGetResponse (p : HttpParser) : Option Response :=
  if !p.responseMode ∨ p.state ≠ .stateComplete then none else some p.response

inductive ParserCall where
  | feed (data : Bytes)
  | reset
  deriving DecidableEq, Repr

/-- What a call returns, and what can be asked of the parser behind it. -/
structure ParserAnswer where
  status : Option ParseStatus
  consumed : Nat
  request : Option Request
  response : Option Response
  error : String
  deriving DecidableEq, Repr

def ParserCall.perform (p : HttpParser) : ParserCall → Option ParseStatus × HttpParser
  | .feed data => (some (httpParserFeed p data).1, (httpParserFeed p data).2)
  | .reset => (none, httpParserReset p)

def parserAnswer (status : Option ParseStatus) (p : HttpParser) : ParserAnswer where
  status := status
  consumed := p.lastConsumed
  request := httpParserGetRequest p
  response := httpParserGetResponse p
  error := p.errorMsg

def afterCalls (p : HttpParser) : List ParserCall → HttpParser
  | [] => p
  | call :: calls => afterCalls (call.perform p).2 calls

def parserAnswers (p : HttpParser) : List ParserCall → List ParserAnswer
  | [] => []
  | call :: calls => parserAnswer (call.perform p).1 (call.perform p).2 :: parserAnswers (call.perform p).2 calls

/-! ## The mode -/

theorem parseStartLine_responseMode (p : ParserCore) : p.parseStartLine.2.responseMode = p.responseMode := by
  unfold ParserCore.parseStartLine
  by_cases mode : p.responseMode = true
  · rw [if_pos mode]
    cases parseResponseLine p.lineBuf p.response <;> rfl
  · rw [if_neg mode]
    cases parseRequestLine p.lineBuf p.request <;> rfl

theorem turn_responseMode (p : ParserCore) (cursor : Bytes) : (p.turn cursor).2.1.responseMode = p.responseMode := by
  by_cases first : p.state = .requestLine
  · have spec := consumeLine_spec p cursor
    have data := consumeLine_headData p cursor
    have turn := turn_lineEnd p cursor (by rw [first]; rfl)
    cases read : consumeLine p cursor with
    | mk result after =>
      rw [read] at spec data turn
      have mode : after.1.responseMode = p.responseMode := congrArg (·.1.1) data
      rw [turn]
      cases result with
      | more => exact mode
      | violation => exact mode
      | line =>
        have start : after.1.state = .requestLine := spec.2.trans first
        show after.1.lineEnd.2.responseMode = p.responseMode
        rw [lineEnd_requestLine start, parseStartLine_responseMode, mode]
  · have settled : 1 ≤ p.state.phase := by
      cases state : p.state <;> first | exact absurd state first | decide
    exact congrArg Prod.fst ((turn_keeps p cursor).start settled)

theorem feed_responseMode (p : ParserCore) (cursor : Bytes) : (p.feed cursor).1.responseMode = p.responseMode := by
  induction p, cursor using turns_induction with
  | step p cursor ih =>
    have first := turn_responseMode p cursor
    rw [feed_eq]
    cases turn : p.turn cursor with
    | mk label after =>
      rw [turn] at first
      cases label with
      | next => exact (ih after.1 after.2 turn).trans first
      | incomplete => exact first
      | complete => exact first
      | error => exact first

theorem perform_responseMode (p : HttpParser) (call : ParserCall) : (call.perform p).2.responseMode = p.responseMode := by
  cases call with
  | feed data =>
    show (httpParserFeed p data).2.toParserCore.responseMode = _
    rw [(httpParserFeed_core p data).2.1]
    exact feed_responseMode p.toParserCore data
  | reset => rfl

theorem afterCalls_responseMode (p : HttpParser) (calls : List ParserCall) :
    (afterCalls p calls).responseMode = p.responseMode := by
  induction calls generalizing p with
  | nil => rfl
  | cons call calls ih => exact (ih (call.perform p).2).trans (perform_responseMode p call)

/-! ## Parsers that a caller cannot tell apart -/

/-- Equal but for the two capacities and the count of the last call, which the next call overwrites. -/
def Alike (p q : HttpParser) : Prop := p.toParserCore.bare = q.toParserCore.bare

theorem bare_fields {p q : ParserCore} (same : p.bare = q.bare) :
    p.state = q.state ∧ p.responseMode = q.responseMode ∧ p.request = q.request ∧ p.response = q.response ∧
      p.errorMsg = q.errorMsg := by
  cases p
  cases q
  simp only [ParserCore.bare, ParserCore.mk.injEq] at same
  simp [same]

theorem parserAnswer_alike {p q : HttpParser} (alike : Alike p q) (consumed : p.lastConsumed = q.lastConsumed)
    (status : Option ParseStatus) : parserAnswer status p = parserAnswer status q := by
  rcases bare_fields alike with ⟨state, mode, request, response, error⟩
  unfold parserAnswer httpParserGetRequest httpParserGetResponse
  rw [consumed, state, mode, request, response, error]

theorem bare_status {p q : ParserCore} (same : p.bare = q.bare) : p.status = q.status := by
  unfold ParserCore.status
  rw [(bare_fields same).1]

theorem feed_alike {p q : HttpParser} (alike : Alike p q) (data : Bytes) :
    (httpParserFeed p data).1 = (httpParserFeed q data).1 ∧
      (httpParserFeed p data).2.lastConsumed = (httpParserFeed q data).2.lastConsumed ∧
      Alike (httpParserFeed p data).2 (httpParserFeed q data).2 := by
  rcases Prod.mk.inj (reads_of_bare alike data) with ⟨core, rest⟩
  rcases httpParserFeed_core p data with ⟨status, after, consumed⟩
  rcases httpParserFeed_core q data with ⟨status', after', consumed'⟩
  have eaten : (parserFeeder.feed p.toParserCore data).2 = (parserFeeder.feed q.toParserCore data).2 :=
    congrArg (fun left : Bytes => data.length - left.length) rest
  refine ⟨?_, ?_, ?_⟩
  · rw [status, status']
    exact bare_status core
  · rw [consumed, consumed', eaten]
  · show (httpParserFeed p data).2.toParserCore.bare = (httpParserFeed q data).2.toParserCore.bare
    rw [after, after']
    exact core

theorem perform_alike {p q : HttpParser} (alike : Alike p q) (call : ParserCall) :
    parserAnswer (call.perform p).1 (call.perform p).2 = parserAnswer (call.perform q).1 (call.perform q).2 ∧
      Alike (call.perform p).2 (call.perform q).2 := by
  cases call with
  | feed data =>
    rcases feed_alike alike data with ⟨status, consumed, still⟩
    refine ⟨?_, still⟩
    show parserAnswer (some (httpParserFeed p data).1) _ = parserAnswer (some (httpParserFeed q data).1) _
    rw [status]
    exact parserAnswer_alike still consumed _
  | reset =>
    have mode : p.responseMode = q.responseMode := (bare_fields alike).2.1
    have still : Alike (httpParserReset p) (httpParserReset q) := by
      unfold Alike httpParserReset
      rw [mode]
      rfl
    exact ⟨parserAnswer_alike still rfl none, still⟩

theorem parserAnswers_alike {p q : HttpParser} (alike : Alike p q) (calls : List ParserCall) :
    parserAnswers p calls = parserAnswers q calls := by
  induction calls generalizing p q with
  | nil => rfl
  | cons call calls ih =>
    rcases perform_alike alike call with ⟨answer, still⟩
    show _ :: _ = _ :: _
    rw [answer, ih still]

/-! ## Reset -/

theorem httpParserReset_assigns (p : HttpParser) :
    httpParserReset p = { p with
      toParserCore := { p.toParserCore.resetLine maxRequestLine with
        state := .requestLine
        request := {}
        response := {}
        hasContentLength := false
        contentLength := 0
        hasTransferEncoding := false
        transferChunked := false
        headerBytesTotal := 0
        trailerBytesTotal := 0
        bodyWritten := 0
        chunkRemaining := 0
        errorMsg := "" }
      bodyCap := 0
      lastConsumed := 0 } := rfl

theorem freshParser_responseMode (responseMode : Bool) : (freshParser responseMode).responseMode = responseMode := by
  cases responseMode <;> rfl

theorem reset_alike (p : HttpParser) : Alike (httpParserReset p) (freshParser p.responseMode) := by
  unfold Alike httpParserReset
  cases p.responseMode <;> rfl

/-- Whatever a parser has been fed and wherever that stopped, after a reset no sequence of further calls can tell it
from a new parser of its mode. -/
theorem reset_fresh (responseMode : Bool) (history later : List ParserCall) :
    parserAnswers (httpParserReset (afterCalls (freshParser responseMode) history)) later =
      parserAnswers (freshParser responseMode) later := by
  have mode := afterCalls_responseMode (freshParser responseMode) history
  have alike := reset_alike (afterCalls (freshParser responseMode) history)
  rw [mode, freshParser_responseMode] at alike
  exact parserAnswers_alike alike later

end BlueBird.Http
