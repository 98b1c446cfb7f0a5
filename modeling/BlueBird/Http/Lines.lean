import BlueBird.Http.Fragmentation
import BlueBird.Http.Message

namespace BlueBird.Http

open Message (crlf)

/-! ## The capacity of the line buffer -/

/-- The parser without the capacity of its line buffer, which nothing else depends on. -/
def ParserCore.bare (p : ParserCore) : ParserCore := { p with lineCap := 0 }

@[simp] theorem bare_bare (p : ParserCore) : p.bare.bare = p.bare := rfl

@[simp] theorem bare_setError (p : ParserCore) (msg : String) : (p.setError msg).bare = p.bare.setError msg := rfl

@[simp] theorem bare_resetLine (p : ParserCore) (limit : Nat) : (p.resetLine limit).bare = p.bare.resetLine limit := rfl

theorem bare_eq {p q : ParserCore} (same : p.bare = q.bare) : { p with lineCap := q.lineCap } = q := by
  cases p
  cases q
  simp only [ParserCore.bare, ParserCore.mk.injEq] at same
  simp [same]

def bareRead (r : LineResult × ParserCore × Bytes) : LineResult × ParserCore × Bytes := (r.1, r.2.1.bare, r.2.2)

theorem consumeLine_cap (p : ParserCore) (cap : Nat) (xs : Bytes) :
    bareRead (consumeLine { p with lineCap := cap } xs) = bareRead (consumeLine p xs) := by
  fun_induction consumeLine p xs generalizing cap with
  | case1 p => rfl
  | case2 p xs saw q => simp [consumeLine, saw, q, bareRead, ParserCore.bare]
  | case3 p c xs saw q lf => simp [consumeLine, saw, lf, q, bareRead, ParserCore.bare, ParserCore.setError]
  | case4 p xs saw ih =>
    have rest := ih cap
    simpa [consumeLine, saw] using rest
  | case5 p xs saw cr => simp [consumeLine, saw, cr, bareRead, ParserCore.bare, ParserCore.setError]
  | case6 p xs saw cr lf => simp [consumeLine, saw, cr, lf, bareRead, ParserCore.bare, ParserCore.setError]
  | case7 p c xs saw cr lf nul full =>
    simp [consumeLine, saw, cr, lf, nul, full, bareRead, ParserCore.bare, ParserCore.setError]
  | case8 p c xs saw cr lf nul room ih =>
    have rest := ih ({ p with lineCap := cap } : ParserCore).growLine
    simpa [consumeLine, saw, cr, lf, nul, room] using rest

/-- What becomes of the parser when its line is complete. -/
def ParserCore.lineEnd (p : ParserCore) : Turn × ParserCore :=
  ((lineTurn { toParserCore := p }).1, (lineTurn { toParserCore := p }).2.toParserCore)

def ParserCore.withCap (p : ParserCore) (cap : Nat) : ParserCore := { p with lineCap := cap }

def withCap (r : Turn × ParserCore) (cap : Nat) : Turn × ParserCore := (r.1, r.2.withCap cap)

theorem parseStartLine_cap (p : ParserCore) (cap : Nat) :
    (p.withCap cap).parseStartLine = withCap p.parseStartLine cap := by
  unfold ParserCore.parseStartLine
  cases mode : p.responseMode
  · cases parsed : parseRequestLine p.lineBuf p.request <;>
      simp [ParserCore.withCap, withCap, mode, parsed, ParserCore.setError, ParserCore.resetLine]
  · cases parsed : parseResponseLine p.lineBuf p.response <;>
      simp [ParserCore.withCap, withCap, mode, parsed, ParserCore.setError, ParserCore.resetLine]

theorem pushHeader_cap (p : ParserCore) (cap : Nat) (h : Header) :
    (p.withCap cap).pushHeader h = (p.pushHeader h).withCap cap := by
  unfold ParserCore.pushHeader
  cases mode : p.responseMode <;> simp [ParserCore.withCap, mode]

theorem pushTrailer_cap (p : ParserCore) (cap : Nat) (h : Header) :
    (p.withCap cap).pushTrailer h = (p.pushTrailer h).withCap cap := by
  unfold ParserCore.pushTrailer
  cases mode : p.responseMode <;> simp [ParserCore.withCap, mode]

def ParserCore.frame (p : ParserCore) (h : Header) : Turn × ParserCore :=
  if strCaseEq h.name (ascii "content-length") then
    match applyContentLength p.hasContentLength h.value with
    | .error msg => (.error, p.setError msg)
    | .ok contentLength => (.next, { p with hasContentLength := true, contentLength }.resetLine maxHeaderSize)
  else if strCaseEq h.name (ascii "transfer-encoding") then
    match applyTransferEncoding p.transferChunked h.value with
    | .error (transferChunked, msg) => (.error, { p with transferChunked }.setError msg)
    | .ok transferChunked =>
      (.next, { p with hasTransferEncoding := true, transferChunked }.resetLine maxHeaderSize)
  else (.next, p.resetLine maxHeaderSize)

def ParserCore.storeField (p : ParserCore) (h : Header) (total : Nat) : ParserCore :=
  { p.pushHeader h with headerBytesTotal := total }

theorem parseHeader_error {p : ParserCore} {msg : String}
    (refused : parseFieldLine p.lineBuf p.activeHeaders.length maxHeaderCount p.headerBytesTotal maxHeaderSize = .error msg) :
    p.parseHeader = (.error, p.setError msg) := by
  simp only [ParserCore.parseHeader, refused]

theorem parseHeader_ok {p : ParserCore} {h : Header} {total : Nat}
    (field : parseFieldLine p.lineBuf p.activeHeaders.length maxHeaderCount p.headerBytesTotal maxHeaderSize =
      .ok (h, total)) : p.parseHeader = (p.storeField h total).frame h := by
  simp only [ParserCore.parseHeader, field]
  rfl

theorem frame_cap (p : ParserCore) (h : Header) (cap : Nat) : (p.withCap cap).frame h = withCap (p.frame h) cap := by
  unfold ParserCore.frame
  by_cases length : strCaseEq h.name (ascii "content-length") = true
  · rw [if_pos length, if_pos length]
    have same : (p.withCap cap).hasContentLength = p.hasContentLength := rfl
    rw [same]
    cases applyContentLength p.hasContentLength h.value <;> rfl
  · rw [if_neg length, if_neg length]
    by_cases encoding : strCaseEq h.name (ascii "transfer-encoding") = true
    · rw [if_pos encoding, if_pos encoding]
      have same : (p.withCap cap).transferChunked = p.transferChunked := rfl
      rw [same]
      cases applyTransferEncoding p.transferChunked h.value <;> rfl
    · rw [if_neg encoding, if_neg encoding]
      rfl

theorem storeField_cap (p : ParserCore) (cap : Nat) (h : Header) (total : Nat) :
    (p.withCap cap).storeField h total = (p.storeField h total).withCap cap := by
  unfold ParserCore.storeField
  rw [pushHeader_cap]
  rfl

theorem parseHeader_cap (p : ParserCore) (cap : Nat) : (p.withCap cap).parseHeader = withCap p.parseHeader cap := by
  have same : (p.withCap cap).activeHeaders = p.activeHeaders := rfl
  cases field : parseFieldLine p.lineBuf p.activeHeaders.length maxHeaderCount p.headerBytesTotal maxHeaderSize with
  | error msg =>
    rw [parseHeader_error field, parseHeader_error (p := p.withCap cap) (same ▸ field)]
    rfl
  | ok r =>
    rw [parseHeader_ok field, parseHeader_ok (p := p.withCap cap) (same ▸ field), storeField_cap, frame_cap]

theorem parseTrailer_cap (p : ParserCore) (cap : Nat) : (p.withCap cap).parseTrailer = withCap p.parseTrailer cap := by
  unfold ParserCore.parseTrailer
  have same : (p.withCap cap).activeTrailers = p.activeTrailers := rfl
  have line : (p.withCap cap).lineBuf = p.lineBuf := rfl
  have total : (p.withCap cap).trailerBytesTotal = p.trailerBytesTotal := rfl
  rw [same, line, total]
  by_cases empty : p.lineBuf.length = 0
  · rw [if_pos empty, if_pos empty]
    rfl
  · rw [if_neg empty, if_neg empty]
    cases parseFieldLine p.lineBuf p.activeTrailers.length maxTrailerCount p.trailerBytesTotal maxTrailerSize with
    | error msg => rfl
    | ok r =>
      dsimp only
      rw [pushTrailer_cap]
      by_cases framing : strCaseEq r.1.name (ascii "content-length") = true ∨ strCaseEq r.1.name (ascii "transfer-encoding") = true
      · rw [if_pos framing, if_pos framing]
        rfl
      · rw [if_neg framing, if_neg framing]
        rfl

theorem parseChunkSize_cap (p : ParserCore) (cap : Nat) :
    (p.withCap cap).parseChunkSize = withCap p.parseChunkSize cap := by
  unfold ParserCore.parseChunkSize
  have line : (p.withCap cap).lineBuf = p.lineBuf := rfl
  have written : (p.withCap cap).bodyWritten = p.bodyWritten := rfl
  rw [line, written]
  cases parseChunkSizeLine p.lineBuf with
  | error msg => rfl
  | ok size =>
    dsimp only
    by_cases large : size > 0 ∧ size > maxBodySize - p.bodyWritten
    · rw [if_pos large, if_pos large]
      rfl
    · rw [if_neg large, if_neg large]
      by_cases last : size = 0
      · rw [if_pos last, if_pos last]
        rfl
      · rw [if_neg last, if_neg last]
        rfl

theorem parseChunkEnd_cap (p : ParserCore) (cap : Nat) :
    (p.withCap cap).parseChunkEnd = withCap p.parseChunkEnd cap := by
  unfold ParserCore.parseChunkEnd
  have line : (p.withCap cap).lineBuf = p.lineBuf := rfl
  rw [line]
  by_cases garbage : p.lineBuf.length ≠ 0
  · rw [if_pos garbage, if_pos garbage]
    rfl
  · rw [if_neg garbage, if_neg garbage]
    rfl

/-- `finishHeaders` without the body's capacity. -/
def ParserCore.finish (p : ParserCore) : ParserCore :=
  if p.bodiless then { p with state := .stateComplete }
  else if p.hasContentLength ∧ p.hasTransferEncoding then
    p.setError "ambiguous framing: both Content-Length and Transfer-Encoding present"
  else if p.hasTransferEncoding then { p.resetLine maxChunkLine with state := .chunkSize }
  else if p.hasContentLength ∧ p.contentLength > 0 then { p with state := .bodyFixed }
  else { p with state := .stateComplete }

theorem finishHeaders_finish (p : HttpParser) : (finishHeaders p).toParserCore = p.toParserCore.finish := by
  unfold finishHeaders ParserCore.finish
  split
  · rfl
  · split
    · rfl
    · split
      · rfl
      · split <;> rfl

theorem finish_cap (p : ParserCore) (cap : Nat) : (p.withCap cap).finish = p.finish.withCap cap := by
  unfold ParserCore.finish
  have bodiless : (p.withCap cap).bodiless = p.bodiless := rfl
  have length : (p.withCap cap).hasContentLength = p.hasContentLength := rfl
  have encoding : (p.withCap cap).hasTransferEncoding = p.hasTransferEncoding := rfl
  have size : (p.withCap cap).contentLength = p.contentLength := rfl
  rw [bodiless, length, encoding, size]
  by_cases none : p.bodiless = true
  · rw [if_pos none, if_pos none]
    rfl
  · rw [if_neg none, if_neg none]
    by_cases both : p.hasContentLength = true ∧ p.hasTransferEncoding = true
    · rw [if_pos both, if_pos both]
      rfl
    · rw [if_neg both, if_neg both]
      by_cases chunked : p.hasTransferEncoding = true
      · rw [if_pos chunked, if_pos chunked]
        rfl
      · rw [if_neg chunked, if_neg chunked]
        by_cases fixed : p.hasContentLength = true ∧ p.contentLength > 0
        · rw [if_pos fixed, if_pos fixed]
          rfl
        · rw [if_neg fixed, if_neg fixed]
          rfl

/-- The label with which `headerLine` leaves the section. -/
def sectionTurn (state : ParseState) : Turn :=
  if state = .stateError then .error else if state = .stateComplete then .complete else .next

theorem lineEnd_headers_empty {p : ParserCore} (state : p.state = .headers) (empty : p.lineBuf = []) :
    p.lineEnd = (sectionTurn p.finish.state, p.finish) := by
  have finished := finishHeaders_finish { toParserCore := p }
  simp only at finished
  unfold ParserCore.lineEnd lineTurn
  simp only [state]
  unfold headerLine
  simp only [empty, List.length_nil, if_true, ← finished]
  cases (finishHeaders { toParserCore := p }).state <;> rfl

theorem lineEnd_headers_field {p : ParserCore} (state : p.state = .headers) (field : p.lineBuf ≠ []) :
    p.lineEnd = p.parseHeader := by
  have length : p.lineBuf.length ≠ 0 := fun empty => field (List.length_eq_zero_iff.mp empty)
  unfold ParserCore.lineEnd lineTurn
  simp only [state]
  unfold headerLine
  simp only [if_neg length]

theorem lineEnd_requestLine {p : ParserCore} (state : p.state = .requestLine) : p.lineEnd = p.parseStartLine := by
  unfold ParserCore.lineEnd lineTurn
  simp only [state]

theorem lineEnd_cap (p : ParserCore) (cap : Nat) : (p.withCap cap).lineEnd = withCap p.lineEnd cap := by
  have same : (p.withCap cap).state = p.state := rfl
  cases state : p.state with
  | requestLine =>
    rw [lineEnd_requestLine state, lineEnd_requestLine (p := p.withCap cap) state, parseStartLine_cap]
  | headers =>
    by_cases empty : p.lineBuf = []
    · rw [lineEnd_headers_empty state empty, lineEnd_headers_empty (p := p.withCap cap) state empty, finish_cap]
      rfl
    · rw [lineEnd_headers_field state empty, lineEnd_headers_field (p := p.withCap cap) state empty, parseHeader_cap]
  | chunkSize =>
    unfold ParserCore.lineEnd lineTurn
    simp only [same, state, parseChunkSize_cap]
  | chunkDataCrlf =>
    unfold ParserCore.lineEnd lineTurn
    simp only [same, state, parseChunkEnd_cap]
  | trailers =>
    unfold ParserCore.lineEnd lineTurn
    simp only [same, state, parseTrailer_cap]
  | bodyFixed =>
    unfold ParserCore.lineEnd lineTurn
    simp only [same, state]
    rfl
  | chunkData =>
    unfold ParserCore.lineEnd lineTurn
    simp only [same, state]
    rfl
  | stateComplete =>
    unfold ParserCore.lineEnd lineTurn
    simp only [same, state]
    rfl
  | stateError =>
    unfold ParserCore.lineEnd lineTurn
    simp only [same, state]
    rfl

def bareTurn (r : Turn × ParserCore × Bytes) : Turn × ParserCore × Bytes := (r.1, r.2.1.bare, r.2.2)

theorem withCap_of_bare {p q : ParserCore} (same : p.bare = q.bare) : p.withCap q.lineCap = q := bare_eq same

theorem lineEnd_bare {p q : ParserCore} (same : p.bare = q.bare) :
    p.lineEnd.1 = q.lineEnd.1 ∧ p.lineEnd.2.bare = q.lineEnd.2.bare := by
  rw [← withCap_of_bare same, lineEnd_cap]
  exact ⟨rfl, rfl⟩

theorem extendBody_cap (p : ParserCore) (cap : Nat) (data : Bytes) :
    (p.withCap cap).extendBody data = (p.extendBody data).withCap cap := by
  unfold ParserCore.extendBody ParserCore.appendActiveBody
  have mode : (p.withCap cap).responseMode = p.responseMode := rfl
  rw [mode]
  by_cases response : p.responseMode = true
  · rw [if_pos response, if_pos response]
    rfl
  · rw [if_neg response, if_neg response]
    rfl

theorem turn_lineEnd (p : ParserCore) (cursor : Bytes) (line : p.state.readsLine) :
    p.turn cursor = match consumeLine p cursor with
      | (.more, q, rest) => (.incomplete, q, rest)
      | (.violation, q, rest) => (.error, q, rest)
      | (.line, q, rest) => (q.lineEnd.1, q.lineEnd.2, rest) := turn_line p cursor line

theorem turn_cap (p : ParserCore) (cap : Nat) (cursor : Bytes) :
    bareTurn ((p.withCap cap).turn cursor) = bareTurn (p.turn cursor) := by
  by_cases line : p.state.readsLine = true
  · have read := consumeLine_cap p cap cursor
    rw [turn_lineEnd p cursor line, turn_lineEnd (p.withCap cap) cursor line]
    unfold bareRead at read
    cases left : consumeLine { p with lineCap := cap } cursor with
    | mk result after =>
      cases right : consumeLine p cursor with
      | mk result' after' =>
        rw [left, right] at read
        simp only [Prod.mk.injEq] at read
        rcases read with ⟨rfl, core, rest⟩
        rw [show consumeLine (p.withCap cap) cursor = (result, after) from left]
        have ended := lineEnd_bare core
        cases result <;> simp [bareTurn, core, rest, ended]
  · cases state : p.state <;> simp only [state, ParseState.readsLine, not_true_eq_false] at line
    case bodyFixed =>
      by_cases enough : p.contentLength - p.bodyWritten ≤ cursor.length
      · rw [turn_fixed_done p cursor state enough, turn_fixed_done (p.withCap cap) cursor state enough]
        show bareTurn (_, { (p.withCap cap).extendBody _ with state := _ }, _) = _
        rw [extendBody_cap]
        rfl
      · rw [turn_fixed_more p cursor state (by omega), turn_fixed_more (p.withCap cap) cursor state (Nat.lt_of_not_le enough)]
        rw [extendBody_cap]
        rfl
    case chunkData =>
      by_cases enough : p.chunkRemaining ≤ cursor.length
      · rw [turn_chunk_done p cursor state enough, turn_chunk_done (p.withCap cap) cursor state enough, extendBody_cap]
        rfl
      · rw [turn_chunk_more p cursor state (by omega), turn_chunk_more (p.withCap cap) cursor state (Nat.lt_of_not_le enough),
          extendBody_cap]
        rfl
    all_goals
      have same : (p.withCap cap).state = p.state := rfl
      simp only [ParserCore.turn, feedTurn, same, state, forgetCaps]
      rfl

/-- What a call leaves, without the line buffer's capacity. -/
def ParserCore.reads (p : ParserCore) (cursor : Bytes) : ParserCore × Bytes := ((p.feed cursor).1.bare, (p.feed cursor).2)

theorem reads_of_bare {p q : ParserCore} (same : p.bare = q.bare) (cursor : Bytes) : p.reads cursor = q.reads cursor := by
  induction p, cursor using turns_induction generalizing q with
  | step p cursor ih =>
    have turns := turn_cap p q.lineCap cursor
    rw [withCap_of_bare same] at turns
    unfold ParserCore.reads
    rw [feed_eq p cursor, feed_eq q cursor]
    unfold bareTurn at turns
    cases left : q.turn cursor with
    | mk label after =>
      cases right : p.turn cursor with
      | mk label' after' =>
        rw [left, right] at turns
        simp only [Prod.mk.injEq] at turns
        rcases turns with ⟨rfl, core, rest⟩
        cases label with
        | next =>
          have tail := ih after'.1 after'.2 right core.symm
          unfold ParserCore.reads at tail
          simp only
          rw [rest]
          exact tail
        | incomplete => simp [core, rest]
        | complete => simp [core, rest]
        | error => simp [core, rest]

/-! ## A line at a time -/

def Plain (c : Byte) : Prop := c ≠ ch '\r' ∧ c ≠ ch '\n' ∧ c ≠ 0

instance (c : Byte) : Decidable (Plain c) := inferInstanceAs (Decidable (_ ∧ _))

theorem forall_of_all {l : Bytes} {P : Byte → Prop} [DecidablePred P] (all : l.all (fun c => decide (P c)) = true) :
    ∀ c ∈ l, P c := fun c member => of_decide_eq_true (List.all_eq_true.mp all c member)

theorem crlf_append (rest : Bytes) : crlf ++ rest = ch '\r' :: ch '\n' :: rest := rfl

theorem consumeLine_crlf (p : ParserCore) (rest : Bytes) (quiet : p.lineSawCr = false) :
    consumeLine p (crlf ++ rest) = (.line, p, rest) := by
  cases p
  simp only at quiet
  subst quiet
  rw [crlf_append]
  simp [consumeLine]

def ParserCore.push (p : ParserCore) (c : Byte) : ParserCore := { p with lineCap := p.growLine, lineBuf := p.lineBuf ++ [c] }

theorem consumeLine_push {p : ParserCore} {c : Byte} (xs : Bytes) (quiet : p.lineSawCr = false) (plain : Plain c)
    (space : p.lineBuf.length < p.lineLimit) : consumeLine p (c :: xs) = consumeLine (p.push c) xs := by
  rw [consumeLine, if_neg (by rw [quiet]; decide), if_neg plain.1, if_neg plain.2.1, if_neg plain.2.2,
    if_neg (by omega)]
  rfl

theorem consumeLine_plain (p : ParserCore) {line : Bytes} (rest : Bytes) (quiet : p.lineSawCr = false)
    (plain : ∀ c ∈ line, Plain c) (room : p.lineBuf.length + line.length ≤ p.lineLimit) :
    ∃ cap, consumeLine p (line ++ crlf ++ rest) =
      (.line, { p with lineBuf := p.lineBuf ++ line, lineCap := cap }, rest) := by
  induction line generalizing p with
  | nil =>
    refine ⟨p.lineCap, ?_⟩
    rw [List.nil_append, List.append_nil]
    exact consumeLine_crlf p rest quiet
  | cons c line ih =>
    simp only [List.length_cons] at room
    rcases ih (p.push c) quiet (fun d member => plain d (List.mem_cons_of_mem _ member))
      (by simp [ParserCore.push]; omega) with ⟨cap, read⟩
    refine ⟨cap, ?_⟩
    rw [List.cons_append, List.cons_append, consumeLine_push _ quiet (plain c List.mem_cons_self) (by omega), read]
    simp [ParserCore.push]

theorem consumeLine_line {p q : ParserCore} {cursor rest : Bytes} (quiet : p.lineSawCr = false)
    (read : consumeLine p cursor = (.line, q, rest)) :
    ∃ line cap, cursor = line ++ crlf ++ rest ∧ (∀ c ∈ line, Plain c) ∧
      (line ≠ [] → p.lineBuf.length + line.length ≤ p.lineLimit) ∧
      q = { p with lineBuf := p.lineBuf ++ line, lineCap := cap } := by
  induction cursor generalizing p with
  | nil => cases read
  | cons c cursor ih =>
    by_cases fits : Plain c ∧ p.lineBuf.length < p.lineLimit
    · rw [consumeLine_push _ quiet fits.1 fits.2] at read
      rcases @ih (p.push c) quiet read with ⟨line, cap, split, plain, room, after⟩
      refine ⟨c :: line, cap, by rw [split]; rfl, ?_, ?_, ?_⟩
      · intro d member
        rcases List.mem_cons.mp member with rfl | later
        · exact fits.1
        · exact plain d later
      · intro _
        rw [List.length_cons]
        by_cases empty : line = []
        · rw [empty, List.length_nil]
          omega
        · have bound := room empty
          simp only [ParserCore.push, List.length_append, List.length_singleton] at bound
          omega
      · rw [after]
        simp [ParserCore.push]
    · rw [consumeLine, if_neg (by rw [quiet]; decide)] at read
      by_cases cr : c = ch '\r'
      · rw [if_pos cr] at read
        cases cursor with
        | nil => cases read
        | cons d cursor =>
          simp only [consumeLine, if_true] at read
          by_cases lf : d = ch '\n'
          · rw [if_pos lf] at read
            cases read
            refine ⟨[], p.lineCap, ?_, by simp, by simp, ?_⟩
            · rw [cr, lf]
              rfl
            · rw [List.append_nil, ← quiet]
          · rw [if_neg lf] at read
            cases read
      · rw [if_neg cr] at read
        by_cases lf : c = ch '\n'
        · rw [if_pos lf] at read
          cases read
        · rw [if_neg lf] at read
          by_cases nul : c = 0
          · rw [if_pos nul] at read
            cases read
          · have full : ¬ p.lineBuf.length < p.lineLimit := fun space => fits ⟨⟨cr, lf, nul⟩, space⟩
            rw [if_neg nul, if_pos (by omega)] at read
            cases read

theorem consumeLine_violation (p : ParserCore) {line : Bytes} (rest : Bytes) (quiet : p.lineSawCr = false)
    (unbroken : ∀ c ∈ line, c ≠ ch '\r' ∧ c ≠ ch '\n') (short : p.lineBuf.length ≤ p.lineLimit)
    (bad : ¬ ((∀ c ∈ line, Plain c) ∧ p.lineBuf.length + line.length ≤ p.lineLimit)) :
    (consumeLine p (line ++ crlf ++ rest)).1 = .violation := by
  induction line generalizing p with
  | nil => exact absurd ⟨by simp, by simpa using short⟩ bad
  | cons c line ih =>
    rcases unbroken c List.mem_cons_self with ⟨cr, lf⟩
    rw [List.cons_append, List.cons_append]
    by_cases fits : c ≠ 0 ∧ p.lineBuf.length < p.lineLimit
    · rw [consumeLine_push _ quiet ⟨cr, lf, fits.1⟩ fits.2]
      apply ih (p.push c) quiet (fun d member => unbroken d (List.mem_cons_of_mem _ member))
        (by simp [ParserCore.push]; omega)
      rintro ⟨plain, room⟩
      simp only [ParserCore.push, List.length_append, List.length_singleton] at room
      refine bad ⟨?_, by rw [List.length_cons]; omega⟩
      intro d member
      rcases List.mem_cons.mp member with rfl | later
      · exact ⟨cr, lf, fits.1⟩
      · exact plain d later
    · rw [consumeLine, if_neg (by rw [quiet]; decide), if_neg cr, if_neg lf]
      by_cases nul : c = 0
      · rw [if_pos nul]
      · have full : ¬ p.lineBuf.length < p.lineLimit := fun space => fits ⟨nul, space⟩
        rw [if_neg nul, if_pos (by omega)]

structure ParserCore.Fresh (p : ParserCore) : Prop where
  line : p.state.readsLine = true
  empty : p.lineBuf = []
  quiet : p.lineSawCr = false

def ParserCore.holding (p : ParserCore) (line : Bytes) : ParserCore := { p with lineBuf := line }

def resume (r : Turn × ParserCore) (rest : Bytes) : ParserCore × Bytes :=
  if r.1 = .next then r.2.reads rest else (r.2.bare, rest)

structure CleanLine (limit : Nat) (line : Bytes) : Prop where
  plain : ∀ c ∈ line, Plain c
  short : line.length ≤ limit

theorem reads_of_line {p q : ParserCore} {cursor rest : Bytes} (reads : p.state.readsLine = true)
    (read : consumeLine p cursor = (.line, q, rest)) : p.reads cursor = resume q.lineEnd rest := by
  have turn := turn_lineEnd p cursor reads
  simp only [read] at turn
  have ended := lineTurn_spec { toParserCore := q }
  unfold ParserCore.reads resume
  rw [feed_eq, turn]
  cases label : q.lineEnd.1 with
  | next =>
    rw [if_pos rfl]
    rfl
  | incomplete => rfl
  | complete => rfl
  | error => rfl

theorem reads_line {p : ParserCore} (fresh : p.Fresh) {line : Bytes} (clean : CleanLine p.lineLimit line) (rest : Bytes) :
    p.reads (line ++ crlf ++ rest) = resume (p.holding line).lineEnd rest := by
  have room : p.lineBuf.length + line.length ≤ p.lineLimit := by
    rw [fresh.empty, List.length_nil, Nat.zero_add]
    exact clean.short
  rcases consumeLine_plain p rest fresh.quiet clean.plain room with ⟨cap, read⟩
  rw [reads_of_line fresh.line read]
  have same : ({ p with lineBuf := p.lineBuf ++ line, lineCap := cap } : ParserCore) = (p.holding line).withCap cap := by
    rw [fresh.empty]
    rfl
  rw [same, lineEnd_cap]
  unfold resume
  have labels : (withCap (p.holding line).lineEnd cap).1 = (p.holding line).lineEnd.1 := rfl
  rw [labels]
  by_cases next : (p.holding line).lineEnd.1 = .next
  · rw [if_pos next, if_pos next]
    exact @reads_of_bare ((p.holding line).lineEnd.2.withCap cap) (p.holding line).lineEnd.2 rfl rest
  · rw [if_neg next, if_neg next]
    rfl

theorem reads_violation {p : ParserCore} (fresh : p.Fresh) {line : Bytes}
    (unbroken : ∀ c ∈ line, c ≠ ch '\r' ∧ c ≠ ch '\n') (bad : ¬ CleanLine p.lineLimit line) (rest : Bytes) :
    (p.reads (line ++ crlf ++ rest)).1.state = .stateError := by
  have short : p.lineBuf.length ≤ p.lineLimit := by
    rw [fresh.empty]
    exact Nat.zero_le _
  have refused := consumeLine_violation p rest fresh.quiet unbroken short (by
    rintro ⟨plain, room⟩
    rw [fresh.empty, List.length_nil, Nat.zero_add] at room
    exact bad ⟨plain, room⟩)
  have spec := consumeLine_spec p (line ++ crlf ++ rest)
  have turn := turn_lineEnd p (line ++ crlf ++ rest) fresh.line
  unfold ParserCore.reads
  rw [feed_eq]
  cases read : consumeLine p (line ++ crlf ++ rest) with
  | mk result after =>
    rw [read] at refused spec turn
    simp only at refused
    subst refused
    rw [turn]
    exact spec.2

theorem reads_cases {p : ParserCore} (fresh : p.Fresh) (cursor : Bytes) :
    ((p.reads cursor).1.status = .incomplete ∧ (p.reads cursor).1.state = p.state) ∨
      (p.reads cursor).1.state = .stateError ∨
      ∃ line rest, cursor = line ++ crlf ++ rest ∧ CleanLine p.lineLimit line ∧
        p.reads cursor = resume (p.holding line).lineEnd rest := by
  have spec := consumeLine_spec p cursor
  have turn := turn_lineEnd p cursor fresh.line
  cases read : consumeLine p cursor with
  | mk result after =>
    rw [read] at spec turn
    cases result with
    | more =>
      left
      have state : (p.reads cursor).1.state = p.state := by
        unfold ParserCore.reads
        rw [feed_eq, turn]
        exact spec.2
      refine ⟨?_, state⟩
      unfold ParserCore.status
      rw [state]
      have reads := fresh.line
      cases here : p.state <;> simp_all [ParseState.readsLine]
    | violation =>
      right
      left
      unfold ParserCore.reads
      rw [feed_eq, turn]
      exact spec.2
    | line =>
      right
      right
      rcases consumeLine_line fresh.quiet read with ⟨line, cap, split, plain, room, _⟩
      have clean : CleanLine p.lineLimit line := by
        refine ⟨plain, ?_⟩
        by_cases empty : line = []
        · rw [empty]
          exact Nat.zero_le _
        · have bound := room empty
          rw [fresh.empty, List.length_nil, Nat.zero_add] at bound
          exact bound
      exact ⟨line, after.2, split, clean, by rw [split]; exact reads_line fresh clean after.2⟩

end BlueBird.Http
