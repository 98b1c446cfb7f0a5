import BlueBird.Http.Parser

namespace BlueBird.Http

/-- How one turn of the `for (;;)` in the feed loop ends: at one of its three labels, or by `break`. -/
inductive Turn where
  | incomplete | complete | error | next
  deriving DecidableEq, Repr

def ParserCore.activeHeaders (p : ParserCore) : List Header :=
  if p.responseMode then p.response.headers else p.request.headers

def ParserCore.activeTrailers (p : ParserCore) : List Header :=
  if p.responseMode then p.response.trailers else p.request.trailers

def ParserCore.pushHeader (p : ParserCore) (h : Header) : ParserCore :=
  if p.responseMode then { p with response.headers := p.response.headers ++ [h] }
  else { p with request.headers := p.request.headers ++ [h] }

def ParserCore.pushTrailer (p : ParserCore) (h : Header) : ParserCore :=
  if p.responseMode then { p with response.trailers := p.response.trailers ++ [h] }
  else { p with request.trailers := p.request.trailers ++ [h] }

def ParserCore.parseStartLine (p : ParserCore) : Turn × ParserCore :=
  if p.responseMode then
    match parseResponseLine p.lineBuf p.response with
    | .error (response, msg) => (.error, { p with response }.setError msg)
    | .ok response => (.next, { { p with response }.resetLine maxHeaderSize with state := .headers })
  else
    match parseRequestLine p.lineBuf p.request with
    | .error (request, msg) => (.error, { p with request }.setError msg)
    | .ok request => (.next, { { p with request }.resetLine maxHeaderSize with state := .headers })

/-- A header line that is not the empty one. -/
def ParserCore.parseHeader (p : ParserCore) : Turn × ParserCore :=
  match parseFieldLine p.lineBuf p.activeHeaders.length maxHeaderCount p.headerBytesTotal maxHeaderSize with
  | .error msg => (.error, p.setError msg)
  | .ok (h, total) =>
    let p := { p.pushHeader h with headerBytesTotal := total }
    if strCaseEq h.name (ascii "content-length") then
      match applyContentLength p.hasContentLength h.value with
      | .error msg => (.error, p.setError msg)
      | .ok contentLength =>
        (.next, { p with hasContentLength := true, contentLength }.resetLine maxHeaderSize)
    else if strCaseEq h.name (ascii "transfer-encoding") then
      match applyTransferEncoding p.transferChunked h.value with
      | .error (transferChunked, msg) => (.error, { p with transferChunked }.setError msg)
      | .ok transferChunked =>
        (.next, { p with hasTransferEncoding := true, transferChunked }.resetLine maxHeaderSize)
    else (.next, p.resetLine maxHeaderSize)

def ParserCore.parseChunkSize (p : ParserCore) : Turn × ParserCore :=
  match parseChunkSizeLine p.lineBuf with
  | .error msg => (.error, p.setError msg)
  | .ok chunkSize =>
    if chunkSize > 0 ∧ chunkSize > maxBodySize - p.bodyWritten then
      (.error, p.setError "chunked body exceeds configured body limit")
    else if chunkSize = 0 then (.next, { p with state := .trailers }.resetLine maxTrailerSize)
    else (.next, { p with chunkRemaining := chunkSize, state := .chunkData })

def ParserCore.parseChunkEnd (p : ParserCore) : Turn × ParserCore :=
  if p.lineBuf.length ≠ 0 then (.error, p.setError "malformed chunk terminator")
  else (.next, { p with state := .chunkSize }.resetLine maxChunkLine)

def ParserCore.parseTrailer (p : ParserCore) : Turn × ParserCore :=
  if p.lineBuf.length = 0 then (.complete, { p with state := .stateComplete })
  else
    match parseFieldLine p.lineBuf p.activeTrailers.length maxTrailerCount p.trailerBytesTotal
        maxTrailerSize with
    | .error msg => (.error, p.setError msg)
    | .ok (h, total) =>
      let p := { p.pushTrailer h with trailerBytesTotal := total }
      if strCaseEq h.name (ascii "content-length") ∨ strCaseEq h.name (ascii "transfer-encoding") then
        (.error, p.setError "framing header not allowed in trailers")
      else (.next, p.resetLine maxTrailerSize)

def headerLine (p : HttpParser) : Turn × HttpParser :=
  if p.lineBuf.length = 0 then
    let p := finishHeaders p
    match p.state with
    | .stateError => (.error, p)
    | .stateComplete => (.complete, p)
    | _ => (.next, p)
  else
    let r := p.toParserCore.parseHeader
    (r.1, { p with toParserCore := r.2 })

def lineTurn (p : HttpParser) : Turn × HttpParser :=
  let lift (r : Turn × ParserCore) := (r.1, { p with toParserCore := r.2 })
  match p.state with
  | .requestLine => lift p.toParserCore.parseStartLine
  | .headers => headerLine p
  | .chunkSize => lift p.toParserCore.parseChunkSize
  | .chunkDataCrlf => lift p.toParserCore.parseChunkEnd
  | .trailers => lift p.toParserCore.parseTrailer
  | _ => (.error, p.setError "parse error")

/-- The five states that wait for a line. -/
def awaitLine (p : HttpParser) (cursor : Bytes) : Turn × HttpParser × Bytes :=
  match consumeLine p.toParserCore cursor with
  | (.more, core, rest) => (.incomplete, { p with toParserCore := core }, rest)
  | (.violation, core, rest) => (.error, { p with toParserCore := core }, rest)
  | (.line, core, rest) =>
    let r := lineTurn { p with toParserCore := core }
    (r.1, r.2, rest)

def takeFixedBody (p : HttpParser) (cursor : Bytes) : Turn × HttpParser × Bytes :=
  let take := min (p.contentLength - p.bodyWritten) cursor.length
  let p := bodyAppend p (cursor.take take)
  if p.bodyWritten ≥ p.contentLength then
    (.complete, { p with state := .stateComplete }, cursor.drop take)
  else (.incomplete, p, cursor.drop take)

def takeChunkData (p : HttpParser) (cursor : Bytes) : Turn × HttpParser × Bytes :=
  let take := min p.chunkRemaining cursor.length
  let p := bodyAppend p (cursor.take take)
  let p := { p with chunkRemaining := p.chunkRemaining - take }
  if p.chunkRemaining > 0 then (.incomplete, p, cursor.drop take)
  else
    (.next, { p with toParserCore := { p.toParserCore with state := .chunkDataCrlf }.resetLine 0 },
      cursor.drop take)

/-- One turn of the feed loop, with the bytes the cursor has still before it. -/
def feedTurn (p : HttpParser) (cursor : Bytes) : Turn × HttpParser × Bytes :=
  match p.state with
  | .requestLine | .headers | .chunkSize | .chunkDataCrlf | .trailers => awaitLine p cursor
  | .bodyFixed => takeFixedBody p cursor
  | .chunkData => takeChunkData p cursor
  | .stateComplete => (.complete, p, cursor)
  | .stateError => (.error, p, cursor)

/-- The loop itself; every turn that goes on leaves fewer bytes, or the end of a chunk's data. -/
def feedLoop : Nat → HttpParser → Bytes → ParseStatus × HttpParser × Bytes
  | 0, p, cursor => (.incomplete, p, cursor)
  | fuel + 1, p, cursor =>
    match feedTurn p cursor with
    | (.incomplete, p, rest) => (.incomplete, p, rest)
    | (.complete, p, rest) => (.complete, p, rest)
    | (.error, p, rest) => (.error, p, rest)
    | (.next, p, rest) => feedLoop fuel p rest

/-- Turns that certainly suffice on this many bytes. -/
def feedFuel (cursor : Bytes) : Nat := 2 * cursor.length + 2

def httpParserFeed (p : HttpParser) (data : Bytes) : ParseStatus × HttpParser :=
  let p := { p with lastConsumed := 0 }
  match p.state with
  | .stateError => (.error, p)
  | .stateComplete => (.complete, p)
  | _ =>
    let (status, p, rest) := feedLoop (feedFuel data) p data
    (status, { p with lastConsumed := data.length - rest.length })

/-- Feeds the fragments in order until the parser is done; the sum counts the consumed bytes. -/
def feedFragments (p : HttpParser) : List Bytes → ParseStatus × HttpParser × Nat
  | [] => (.incomplete, p, 0)
  | fragment :: fragments =>
    match httpParserFeed p fragment with
    | (.incomplete, p) =>
      let (status, q, consumed) := feedFragments p fragments
      (status, q, p.lastConsumed + consumed)
    | (status, p) => (status, p, p.lastConsumed)

theorem feedFragments_stops {p : HttpParser} {fragment : Bytes} (complete : (feedFragments p [fragment]).1 = .complete)
    (more : List Bytes) : feedFragments p (fragment :: more) = feedFragments p [fragment] := by
  unfold feedFragments at complete ⊢
  generalize httpParserFeed p fragment = step at complete ⊢
  rcases step with ⟨status, q⟩
  cases status with
  | incomplete => cases complete
  | complete => rfl
  | error => rfl

end BlueBird.Http
