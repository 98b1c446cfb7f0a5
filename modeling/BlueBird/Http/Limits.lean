import BlueBird.Http.Head
import BlueBird.Http.Reset

namespace BlueBird.Http

/-! ## The invariant -/

namespace ParserCore

structure LineLimits (p : ParserCore) : Prop where
  line : p.lineBuf.length ≤ p.lineLimit
  held : p.lineBuf.length ≤ p.lineCap
  limit : p.lineLimit ≤ maxHeaderSize
  cap : p.lineCap ≤ maxHeaderSize + 1

structure FieldLimits (p : ParserCore) : Prop where
  headers : p.activeHeaders.length ≤ maxHeaderCount
  headerBytes : p.headerBytesTotal ≤ maxHeaderSize
  trailers : p.activeTrailers.length ≤ maxTrailerCount
  trailerBytes : p.trailerBytesTotal ≤ maxTrailerSize

/-- Before the body nothing of it is written, and no chunk is open between two chunks. -/
structure BodyLimits (p : ParserCore) : Prop where
  length : p.contentLength ≤ maxBodySize
  chunk : p.bodyWritten + p.chunkRemaining ≤ maxBodySize
  early : p.state.phase < 2 → p.bodyWritten = 0
  between : p.state ≠ .chunkData → p.chunkRemaining = 0
  fixed : p.state = .bodyFixed → p.bodyWritten ≤ p.contentLength

structure Limits (p : ParserCore) : Prop where
  lines : p.LineLimits
  fields : p.FieldLimits
  body : p.BodyLimits

/-! ## Lines -/

theorem LineLimits.same {p q : ParserCore} (limits : p.LineLimits) (buf : q.lineBuf = p.lineBuf)
    (limit : q.lineLimit = p.lineLimit) (cap : q.lineCap = p.lineCap) : q.LineLimits := by
  constructor
  · rw [buf, limit]
    exact limits.line
  · rw [buf, cap]
    exact limits.held
  · rw [limit]
    exact limits.limit
  · rw [cap]
    exact limits.cap

theorem LineLimits.reset {p q : ParserCore} (limits : p.LineLimits) (buf : q.lineBuf = [])
    (limit : q.lineLimit ≤ maxHeaderSize) (cap : q.lineCap = p.lineCap) : q.LineLimits := by
  constructor
  · rw [buf]
    exact Nat.zero_le _
  · rw [buf]
    exact Nat.zero_le _
  · exact limit
  · rw [cap]
    exact limits.cap

theorem growLine_room {p : ParserCore} (limits : p.LineLimits) (room : p.lineBuf.length < p.lineLimit) :
    p.lineBuf.length + 1 ≤ p.growLine ∧ p.growLine ≤ maxHeaderSize + 1 := by
  have held := limits.held
  have limit := limits.limit
  have cap := limits.cap
  unfold growLine
  split
  · split <;> omega
  · omega

theorem LineLimits.push {p : ParserCore} (limits : p.LineLimits) (room : p.lineBuf.length < p.lineLimit) (c : Byte) :
    { p with lineCap := p.growLine, lineBuf := p.lineBuf ++ [c] }.LineLimits := by
  rcases growLine_room limits room with ⟨grown, small⟩
  have longer : (p.lineBuf ++ [c]).length = p.lineBuf.length + 1 := List.length_append
  constructor
  · show (p.lineBuf ++ [c]).length ≤ p.lineLimit
    omega
  · show (p.lineBuf ++ [c]).length ≤ p.growLine
    omega
  · exact limits.limit
  · exact small

theorem consumeLine_limits {p : ParserCore} (limits : p.LineLimits) (xs : Bytes) : (consumeLine p xs).2.1.LineLimits := by
  fun_induction consumeLine p xs with
  | case1 p => exact limits
  | case2 p xs saw q => exact limits.same rfl rfl rfl
  | case3 p c xs saw q lf => exact limits.same rfl rfl rfl
  | case4 p xs saw ih => exact ih (limits.same rfl rfl rfl)
  | case5 p xs saw cr => exact limits.same rfl rfl rfl
  | case6 p xs saw cr lf => exact limits.same rfl rfl rfl
  | case7 p c xs saw cr lf nul full => exact limits.same rfl rfl rfl
  | case8 p c xs saw cr lf nul room ih => exact ih (limits.push (Nat.lt_of_not_le room) c)

/-! ## What reading a line leaves alone -/

def sections (p : ParserCore) : Nat × Nat × Nat × Nat :=
  (p.activeHeaders.length, p.headerBytesTotal, p.activeTrailers.length, p.trailerBytesTotal)

def amounts (p : ParserCore) : Nat × Nat × Nat := (p.contentLength, p.bodyWritten, p.chunkRemaining)

theorem consumeLine_amounts (p : ParserCore) (xs : Bytes) :
    (consumeLine p xs).2.1.sections = p.sections ∧ (consumeLine p xs).2.1.amounts = p.amounts := by
  fun_induction consumeLine p xs with
  | case1 p => exact ⟨rfl, rfl⟩
  | case2 p xs saw q => exact ⟨rfl, rfl⟩
  | case3 p c xs saw q lf => exact ⟨rfl, rfl⟩
  | case4 p xs saw ih => exact ih
  | case5 p xs saw cr => exact ⟨rfl, rfl⟩
  | case6 p xs saw cr lf => exact ⟨rfl, rfl⟩
  | case7 p c xs saw cr lf nul full => exact ⟨rfl, rfl⟩
  | case8 p c xs saw cr lf nul room ih => exact ih

theorem FieldLimits.same {p q : ParserCore} (limits : p.FieldLimits) (same : q.sections = p.sections) : q.FieldLimits := by
  simp only [sections, Prod.mk.injEq] at same
  rcases same with ⟨headers, headerBytes, trailers, trailerBytes⟩
  constructor
  · rw [headers]
    exact limits.headers
  · rw [headerBytes]
    exact limits.headerBytes
  · rw [trailers]
    exact limits.trailers
  · rw [trailerBytes]
    exact limits.trailerBytes

theorem BodyLimits.same {p q : ParserCore} (limits : p.BodyLimits) (same : q.amounts = p.amounts)
    (phase : q.state.phase < 2 → p.state.phase < 2) (open_ : q.state ≠ .chunkData → p.state ≠ .chunkData)
    (fixed : q.state = .bodyFixed → p.state = .bodyFixed ∨ p.state.phase < 2) : q.BodyLimits := by
  simp only [amounts, Prod.mk.injEq] at same
  rcases same with ⟨length, written, remaining⟩
  constructor
  · rw [length]
    exact limits.length
  · rw [written, remaining]
    exact limits.chunk
  · intro early
    rw [written]
    exact limits.early (phase early)
  · intro closed
    rw [remaining]
    exact limits.between (open_ closed)
  · intro here
    rw [written, length]
    rcases fixed here with before | before
    · exact limits.fixed before
    · rw [limits.early before]
      exact Nat.zero_le _

theorem Limits.stopped {p q : ParserCore} (limits : p.Limits) (open_ : p.state ≠ .chunkData) (error : q.state = .stateError)
    (lines : q.LineLimits) (sections : q.sections = p.sections) (amounts : q.amounts = p.amounts) : q.Limits := by
  refine ⟨lines, limits.fields.same sections, limits.body.same amounts ?_ (fun _ => open_) ?_⟩
  · intro early
    rw [error] at early
    exact absurd early (by decide)
  · intro fixed
    rw [error] at fixed
    cases fixed

/-! ## The end of a line -/

theorem requestLine_headers {line : Bytes} {req kept : Request} {msg : String}
    (refused : parseRequestLine line req = .error (kept, msg)) :
    kept.headers = req.headers ∧ kept.trailers = req.trailers := by
  have named : ∀ (r : Request) (version : Bytes), withVersion r version = .error (kept, msg) → kept = r := by
    intro r version wrong
    unfold withVersion at wrong
    split at wrong
    · split at wrong
      · cases wrong
        rfl
      · cases wrong
    · cases wrong
      rfl
  rw [requestLine_eq] at refused
  repeat' split at refused
  all_goals first
    | (cases refused; exact ⟨rfl, rfl⟩)
    | (rw [named _ _ refused]; exact ⟨rfl, rfl⟩)

theorem responseLine_headers {line : Bytes} {res kept : Response} {msg : String}
    (refused : parseResponseLine line res = .error (kept, msg)) :
    kept.headers = res.headers ∧ kept.trailers = res.trailers := by
  unfold parseResponseLine at refused
  split at refused
  · rw [← parseResponseLine, responseLine_eq] at refused
    repeat' split at refused
    all_goals cases refused
    all_goals exact ⟨rfl, rfl⟩
  · cases refused
    exact ⟨rfl, rfl⟩

theorem parseStartLine_limits {p : ParserCore} (limits : p.Limits) (first : p.state = .requestLine) :
    p.parseStartLine.2.Limits := by
  have closed : p.state ≠ .chunkData := by
    rw [first]
    decide
  have early : p.state.phase < 2 := by
    rw [first]
    decide
  unfold parseStartLine
  by_cases mode : p.responseMode = true
  · rw [if_pos mode]
    cases read : parseResponseLine p.lineBuf p.response with
    | error e =>
      rcases responseLine_headers read with ⟨headers, trailers⟩
      refine limits.stopped closed rfl (limits.lines.same rfl rfl rfl) ?_ rfl
      simp only [sections, activeHeaders, activeTrailers, setError, mode, if_true, headers, trailers]
    | ok response =>
      rcases parseResponseLine_keeps read with ⟨headers, trailers, _⟩
      refine ⟨limits.lines.reset rfl (le_refl _) rfl, limits.fields.same ?_,
        limits.body.same rfl (fun _ => early) (fun _ => closed) (fun fixed => by cases fixed)⟩
      simp only [sections, activeHeaders, activeTrailers, resetLine, mode, if_true, headers, trailers]
  · rw [if_neg mode]
    cases read : parseRequestLine p.lineBuf p.request with
    | error e =>
      rcases requestLine_headers read with ⟨headers, trailers⟩
      refine limits.stopped closed rfl (limits.lines.same rfl rfl rfl) ?_ rfl
      simp only [sections, activeHeaders, activeTrailers, setError, mode, headers, trailers]
    | ok request =>
      rcases parseRequestLine_keeps read with ⟨headers, trailers, _⟩
      refine ⟨limits.lines.reset rfl (le_refl _) rfl, limits.fields.same ?_,
        limits.body.same rfl (fun _ => early) (fun _ => closed) (fun fixed => by cases fixed)⟩
      simp only [sections, activeHeaders, activeTrailers, resetLine, mode, headers, trailers]

theorem pushHeader_sections (p : ParserCore) (h : Header) :
    (p.pushHeader h).activeHeaders.length = p.activeHeaders.length + 1 ∧
      (p.pushHeader h).activeTrailers = p.activeTrailers := by
  unfold pushHeader activeHeaders activeTrailers
  by_cases mode : p.responseMode = true
  · simp [mode]
  · simp [mode]

theorem pushTrailer_sections (p : ParserCore) (h : Header) :
    (p.pushTrailer h).activeTrailers.length = p.activeTrailers.length + 1 ∧
      (p.pushTrailer h).activeHeaders = p.activeHeaders := by
  unfold pushTrailer activeHeaders activeTrailers
  by_cases mode : p.responseMode = true
  · simp [mode]
  · simp [mode]

theorem pushHeader_frame (p : ParserCore) (h : Header) :
    (p.pushHeader h).state = p.state ∧ (p.pushHeader h).amounts = p.amounts ∧ (p.pushHeader h).lineBuf = p.lineBuf ∧
      (p.pushHeader h).lineLimit = p.lineLimit ∧ (p.pushHeader h).lineCap = p.lineCap ∧
      (p.pushHeader h).trailerBytesTotal = p.trailerBytesTotal := by
  unfold pushHeader
  split <;> exact ⟨rfl, rfl, rfl, rfl, rfl, rfl⟩

theorem pushTrailer_frame (p : ParserCore) (h : Header) :
    (p.pushTrailer h).state = p.state ∧ (p.pushTrailer h).amounts = p.amounts ∧ (p.pushTrailer h).lineBuf = p.lineBuf ∧
      (p.pushTrailer h).lineLimit = p.lineLimit ∧ (p.pushTrailer h).lineCap = p.lineCap ∧
      (p.pushTrailer h).headerBytesTotal = p.headerBytesTotal := by
  unfold pushTrailer
  split <;> exact ⟨rfl, rfl, rfl, rfl, rfl, rfl⟩

theorem storeField_limits {p : ParserCore} (limits : p.Limits) {h : Header} {total : Nat}
    (field : parseFieldLine p.lineBuf p.activeHeaders.length maxHeaderCount p.headerBytesTotal maxHeaderSize =
      .ok (h, total)) : (p.storeField h total).Limits ∧ (p.storeField h total).state = p.state := by
  rcases parseFieldLine_ok.mp field with ⟨_, counted, _, _, _, _, _, room, small⟩
  rcases pushHeader_sections p h with ⟨headers, trailers⟩
  rcases pushHeader_frame p h with ⟨state, amounts, buf, limit, cap, trailerBytes⟩
  have fields : (p.storeField h total).FieldLimits := by
    constructor
    · show (p.pushHeader h).activeHeaders.length ≤ maxHeaderCount
      rw [headers]
      exact room
    · show total ≤ maxHeaderSize
      rw [counted]
      exact small
    · show (p.pushHeader h).activeTrailers.length ≤ maxTrailerCount
      rw [trailers]
      exact limits.fields.trailers
    · show (p.pushHeader h).trailerBytesTotal ≤ maxTrailerSize
      rw [trailerBytes]
      exact limits.fields.trailerBytes
  have here : (p.storeField h total).state = p.state := state
  exact ⟨⟨limits.lines.same buf limit cap, fields, limits.body.same amounts (fun early => here ▸ early)
    (fun closed => here ▸ closed) (fun fixed => Or.inl (here ▸ fixed))⟩, here⟩

theorem contentLength_eq (seen : Bool) (value : Bytes) :
    applyContentLength seen value =
      if seen then .error "duplicate Content-Length header"
      else if value.length = 0 then .error "empty Content-Length value"
      else (contentLengthDigits 0 value).bind fun val =>
        if val > maxBodySize then .error "Content-Length exceeds configured body limit" else .ok val := by
  rfl

theorem applyContentLength_ok {seen : Bool} {value : Bytes} {n : Nat} (read : applyContentLength seen value = .ok n) :
    contentLengthDigits 0 value = .ok n ∧ n ≤ maxBodySize := by
  rw [contentLength_eq] at read
  split at read
  · cases read
  · split at read
    · cases read
    · cases digits : contentLengthDigits 0 value with
      | error e =>
        rw [digits] at read
        cases read
      | ok m =>
        rw [digits] at read
        by_cases large : m > maxBodySize
        · rw [Except.bind, if_pos large] at read
          cases read
        · rw [Except.bind, if_neg large] at read
          cases read
          exact ⟨rfl, Nat.le_of_not_lt large⟩

theorem frame_limits {p : ParserCore} (limits : p.Limits) (state : p.state = .headers) (h : Header) :
    (p.frame h).2.Limits := by
  have closed : p.state ≠ .chunkData := by
    rw [state]
    decide
  have early : p.state.phase < 2 := by
    rw [state]
    decide
  have next : ∀ q : ParserCore, q.LineLimits → q.sections = p.sections → q.contentLength ≤ maxBodySize →
      q.bodyWritten = p.bodyWritten → q.chunkRemaining = p.chunkRemaining → q.state = .headers → q.Limits := by
    intro q lines sections length written remaining here
    refine ⟨lines, limits.fields.same sections, length, ?_, ?_, ?_, ?_⟩
    · rw [written, remaining]
      exact limits.body.chunk
    · intro _
      rw [written]
      exact limits.body.early early
    · intro _
      rw [remaining]
      exact limits.body.between closed
    · intro fixed
      rw [here] at fixed
      cases fixed
  unfold frame
  by_cases length : strCaseEq h.name (ascii "content-length") = true
  · rw [if_pos length]
    cases read : applyContentLength p.hasContentLength h.value with
    | error msg => exact limits.stopped closed rfl (limits.lines.same rfl rfl rfl) rfl rfl
    | ok n =>
      exact next _ (limits.lines.reset rfl (le_refl _) rfl) rfl (applyContentLength_ok read).2 rfl rfl state
  · rw [if_neg length]
    by_cases encoding : strCaseEq h.name (ascii "transfer-encoding") = true
    · rw [if_pos encoding]
      cases applyTransferEncoding p.transferChunked h.value with
      | error e => exact limits.stopped closed rfl (limits.lines.same rfl rfl rfl) rfl rfl
      | ok chunked => exact next _ (limits.lines.reset rfl (le_refl _) rfl) rfl limits.body.length rfl rfl state
    · rw [if_neg encoding]
      exact next _ (limits.lines.reset rfl (le_refl _) rfl) rfl limits.body.length rfl rfl state

theorem parseHeader_limits {p : ParserCore} (limits : p.Limits) (state : p.state = .headers) : p.parseHeader.2.Limits := by
  cases field : parseFieldLine p.lineBuf p.activeHeaders.length maxHeaderCount p.headerBytesTotal maxHeaderSize with
  | error msg =>
    rw [parseHeader_error field]
    refine limits.stopped ?_ rfl (limits.lines.same rfl rfl rfl) rfl rfl
    rw [state]
    decide
  | ok r =>
    rw [parseHeader_ok field]
    rcases storeField_limits limits field with ⟨stored, same⟩
    exact frame_limits stored (same.trans state) r.1

theorem chunkLine_short : maxChunkLine ≤ maxHeaderSize := by decide

theorem trailerSize_short : maxTrailerSize ≤ maxHeaderSize := by decide

theorem finish_limits {p : ParserCore} (limits : p.Limits) (state : p.state = .headers) : p.finish.Limits := by
  have closed : p.state ≠ .chunkData := by
    rw [state]
    decide
  have early : p.state.phase < 2 := by
    rw [state]
    decide
  have done : { p with state := .stateComplete }.Limits :=
    ⟨limits.lines.same rfl rfl rfl, limits.fields.same rfl,
      limits.body.same rfl (fun _ => early) (fun _ => closed) (fun fixed => by cases fixed)⟩
  unfold finish
  split
  · exact done
  · split
    · exact limits.stopped closed rfl (limits.lines.same rfl rfl rfl) rfl rfl
    · split
      · exact ⟨limits.lines.reset rfl chunkLine_short rfl, limits.fields.same rfl,
          limits.body.same rfl (fun _ => early) (fun _ => closed) (fun fixed => by cases fixed)⟩
      · split
        · exact ⟨limits.lines.same rfl rfl rfl, limits.fields.same rfl,
            limits.body.same rfl (fun _ => early) (fun _ => closed) (fun _ => Or.inr early)⟩
        · exact done

theorem parseChunkSize_limits {p : ParserCore} (limits : p.Limits) (state : p.state = .chunkSize) :
    p.parseChunkSize.2.Limits := by
  have closed : p.state ≠ .chunkData := by
    rw [state]
    decide
  have stopped : ∀ msg, (p.setError msg).Limits :=
    fun msg => limits.stopped closed rfl (limits.lines.same rfl rfl rfl) rfl rfl
  unfold parseChunkSize
  cases parseChunkSizeLine p.lineBuf with
  | error msg => exact stopped msg
  | ok size =>
    dsimp only
    by_cases large : size > 0 ∧ size > maxBodySize - p.bodyWritten
    · rw [if_pos large]
      exact stopped _
    · rw [if_neg large]
      by_cases last : size = 0
      · rw [if_pos last]
        exact ⟨limits.lines.reset rfl trailerSize_short rfl, limits.fields.same rfl,
          limits.body.same rfl (fun early => absurd early (Nat.lt_irrefl 2)) (fun _ => closed) (fun fixed => by cases fixed)⟩
      · rw [if_neg last]
        have chunk := limits.body.chunk
        refine ⟨limits.lines.same rfl rfl rfl, limits.fields.same rfl, limits.body.length, ?_, ?_, ?_, ?_⟩
        · show p.bodyWritten + size ≤ maxBodySize
          omega
        · exact fun early => absurd early (Nat.lt_irrefl 2)
        · exact fun still => absurd rfl still
        · exact fun fixed => by cases fixed

theorem parseChunkEnd_limits {p : ParserCore} (limits : p.Limits) (state : p.state = .chunkDataCrlf) :
    p.parseChunkEnd.2.Limits := by
  have closed : p.state ≠ .chunkData := by
    rw [state]
    decide
  unfold parseChunkEnd
  split
  · exact limits.stopped closed rfl (limits.lines.same rfl rfl rfl) rfl rfl
  · exact ⟨limits.lines.reset rfl chunkLine_short rfl, limits.fields.same rfl,
      limits.body.same rfl (fun early => absurd early (Nat.lt_irrefl 2)) (fun _ => closed) (fun fixed => by cases fixed)⟩

theorem parseTrailer_limits {p : ParserCore} (limits : p.Limits) (state : p.state = .trailers) :
    p.parseTrailer.2.Limits := by
  have closed : p.state ≠ .chunkData := by
    rw [state]
    decide
  unfold parseTrailer
  by_cases empty : p.lineBuf.length = 0
  · rw [if_pos empty]
    exact ⟨limits.lines.same rfl rfl rfl, limits.fields.same rfl,
      limits.body.same rfl (fun early => absurd early (Nat.lt_irrefl 2)) (fun _ => closed) (fun fixed => by cases fixed)⟩
  · rw [if_neg empty]
    cases field : parseFieldLine p.lineBuf p.activeTrailers.length maxTrailerCount p.trailerBytesTotal maxTrailerSize with
    | error msg => exact limits.stopped closed rfl (limits.lines.same rfl rfl rfl) rfl rfl
    | ok r =>
      rcases parseFieldLine_ok.mp field with ⟨_, counted, _, _, _, _, _, room, small⟩
      rcases pushTrailer_sections p r.1 with ⟨trailers, headers⟩
      rcases pushTrailer_frame p r.1 with ⟨same, amounts, buf, limit, cap, headerBytes⟩
      have fields : { p.pushTrailer r.1 with trailerBytesTotal := r.2 }.FieldLimits := by
        constructor
        · show (p.pushTrailer r.1).activeHeaders.length ≤ maxHeaderCount
          rw [headers]
          exact limits.fields.headers
        · show (p.pushTrailer r.1).headerBytesTotal ≤ maxHeaderSize
          rw [headerBytes]
          exact limits.fields.headerBytes
        · show (p.pushTrailer r.1).activeTrailers.length ≤ maxTrailerCount
          rw [trailers]
          exact room
        · show r.2 ≤ maxTrailerSize
          rw [counted]
          exact small
      have here : (p.pushTrailer r.1).state = .trailers := same.trans state
      have body : ∀ q : ParserCore, q.amounts = (p.pushTrailer r.1).amounts → q.state = .trailers ∨ q.state = .stateError →
          q.BodyLimits := by
        intro q kept final
        refine limits.body.same (kept.trans amounts) ?_ (fun _ => closed) ?_
        · intro early
          rcases final with final | final
          · rw [final] at early
            exact absurd early (by decide)
          · rw [final] at early
            exact absurd early (by decide)
        · intro fixed
          rcases final with final | final
          · rw [final] at fixed
            cases fixed
          · rw [final] at fixed
            cases fixed
      dsimp only
      split
      · exact ⟨limits.lines.same buf limit cap, fields.same rfl, body _ rfl (Or.inr rfl)⟩
      · exact ⟨limits.lines.reset rfl trailerSize_short cap, fields.same rfl, body _ rfl (Or.inl here)⟩

theorem lineEnd_limits {p : ParserCore} (limits : p.Limits) (line : p.state.readsLine = true) : p.lineEnd.2.Limits := by
  cases state : p.state with
  | requestLine =>
    rw [lineEnd_requestLine state]
    exact parseStartLine_limits limits state
  | headers =>
    by_cases empty : p.lineBuf = []
    · rw [lineEnd_headers_empty state empty]
      exact finish_limits limits state
    · rw [lineEnd_headers_field state empty]
      exact parseHeader_limits limits state
  | chunkSize =>
    unfold lineEnd lineTurn
    simp only [state]
    exact parseChunkSize_limits limits state
  | chunkDataCrlf =>
    unfold lineEnd lineTurn
    simp only [state]
    exact parseChunkEnd_limits limits state
  | trailers =>
    unfold lineEnd lineTurn
    simp only [state]
    exact parseTrailer_limits limits state
  | bodyFixed =>
    rw [state] at line
    cases line
  | chunkData =>
    rw [state] at line
    cases line
  | stateComplete =>
    rw [state] at line
    cases line
  | stateError =>
    rw [state] at line
    cases line

/-! ## A turn of the loop -/

theorem extendBody_sections (p : ParserCore) (data : Bytes) :
    (p.extendBody data).sections = p.sections ∧ (p.extendBody data).lineBuf = p.lineBuf ∧
      (p.extendBody data).lineLimit = p.lineLimit ∧ (p.extendBody data).lineCap = p.lineCap := by
  unfold extendBody appendActiveBody sections activeHeaders activeTrailers
  by_cases mode : p.responseMode = true
  · simp [mode]
  · simp [mode]

theorem turn_limits {p : ParserCore} (limits : p.Limits) (cursor : Bytes) : (p.turn cursor).2.1.Limits := by
  by_cases line : p.state.readsLine = true
  · have lines := consumeLine_limits limits.lines cursor
    have spec := consumeLine_spec p cursor
    rcases consumeLine_amounts p cursor with ⟨sections, amounts⟩
    have turn := turn_lineEnd p cursor line
    have closed : p.state ≠ .chunkData := by
      intro chunk
      rw [chunk] at line
      cases line
    cases read : consumeLine p cursor with
    | mk result after =>
      rw [read] at lines spec sections amounts turn
      have waiting : after.1.state = p.state → after.1.Limits := fun same =>
        ⟨lines, limits.fields.same sections, limits.body.same amounts (fun early => same ▸ early)
          (fun _ => closed) (fun fixed => Or.inl (same ▸ fixed))⟩
      rw [turn]
      cases result with
      | more => exact waiting spec.2
      | violation => exact limits.stopped closed spec.2 lines sections amounts
      | line => exact lineEnd_limits (waiting spec.2) (by rw [spec.2]; exact line)
  · cases state : p.state <;> simp only [state, ParseState.readsLine, not_true_eq_false] at line
    case bodyFixed =>
      have remaining := limits.body.between (by rw [state]; decide)
      have length := limits.body.length
      have ordered := limits.body.fixed state
      by_cases enough : p.contentLength - p.bodyWritten ≤ cursor.length
      · rw [turn_fixed_done p cursor state enough]
        rcases extendBody_sections p (cursor.take (p.contentLength - p.bodyWritten)) with ⟨sections, buf, limit, cap⟩
        rcases extendBody_frame p (cursor.take (p.contentLength - p.bodyWritten)) with ⟨_, same, open_⟩
        have taken : (cursor.take (p.contentLength - p.bodyWritten)).length = p.contentLength - p.bodyWritten :=
          List.length_take_of_le enough
        refine ⟨limits.lines.same buf limit cap, limits.fields.same sections, ?_, ?_, ?_, ?_, ?_⟩
        · exact le_of_eq_of_le same length
        · show p.bodyWritten + (cursor.take (p.contentLength - p.bodyWritten)).length + (p.extendBody _).chunkRemaining ≤ _
          rw [taken, open_]
          omega
        · exact fun early => absurd early (Nat.lt_irrefl 2)
        · exact fun _ => open_.trans remaining
        · exact fun fixed => by cases fixed
      · rw [turn_fixed_more p cursor state (Nat.lt_of_not_le enough)]
        rcases extendBody_sections p cursor with ⟨sections, buf, limit, cap⟩
        rcases extendBody_frame p cursor with ⟨here, same, open_⟩
        refine ⟨limits.lines.same buf limit cap, limits.fields.same sections, ?_, ?_, ?_, ?_, ?_⟩
        · exact le_of_eq_of_le same length
        · show p.bodyWritten + cursor.length + (p.extendBody cursor).chunkRemaining ≤ _
          rw [open_]
          omega
        · intro early
          rw [here, state] at early
          exact absurd early (Nat.lt_irrefl 2)
        · exact fun _ => open_.trans remaining
        · intro _
          show p.bodyWritten + cursor.length ≤ (p.extendBody cursor).contentLength
          rw [same]
          omega
    case chunkData =>
      have chunk := limits.body.chunk
      by_cases enough : p.chunkRemaining ≤ cursor.length
      · rw [turn_chunk_done p cursor state enough]
        rcases extendBody_sections p (cursor.take p.chunkRemaining) with ⟨sections, buf, limit, cap⟩
        rcases extendBody_frame p (cursor.take p.chunkRemaining) with ⟨_, same, _⟩
        refine ⟨limits.lines.reset rfl (Nat.zero_le _) cap, limits.fields.same sections, ?_, ?_, ?_, ?_, ?_⟩
        · exact le_of_eq_of_le same limits.body.length
        · show p.bodyWritten + (cursor.take p.chunkRemaining).length + 0 ≤ _
          rw [List.length_take_of_le enough]
          exact chunk
        · exact fun early => absurd early (Nat.lt_irrefl 2)
        · exact fun _ => rfl
        · exact fun fixed => by cases fixed
      · rw [turn_chunk_more p cursor state (Nat.lt_of_not_le enough)]
        rcases extendBody_sections p cursor with ⟨sections, buf, limit, cap⟩
        rcases extendBody_frame p cursor with ⟨here, same, _⟩
        refine ⟨limits.lines.same buf limit cap, limits.fields.same sections, ?_, ?_, ?_, ?_, ?_⟩
        · exact le_of_eq_of_le same limits.body.length
        · show p.bodyWritten + cursor.length + (p.chunkRemaining - cursor.length) ≤ _
          omega
        · intro early
          change (p.extendBody cursor).state.phase < 2 at early
          rw [here, state] at early
          exact absurd early (Nat.lt_irrefl 2)
        · exact fun closed => absurd (here.trans state) closed
        · intro fixed
          change (p.extendBody cursor).state = _ at fixed
          rw [here, state] at fixed
          cases fixed
    all_goals
      simp only [turn, feedTurn, state, forgetCaps]
      exact limits

theorem lineTurn_written (p : HttpParser) : (lineTurn p).2.bodyWritten = p.bodyWritten := by
  have pushed : ∀ (q : ParserCore) h, (q.pushHeader h).bodyWritten = q.bodyWritten :=
    fun q h => congrArg (fun amounts => amounts.2.1) (pushHeader_frame q h).2.1
  have pushed' : ∀ (q : ParserCore) h, (q.pushTrailer h).bodyWritten = q.bodyWritten :=
    fun q h => congrArg (fun amounts => amounts.2.1) (pushTrailer_frame q h).2.1
  cases state : p.state <;> simp only [lineTurn, state]
  case headers =>
    unfold headerLine parseHeader finishHeaders
    grind [setError, resetLine, HttpParser.setError]
  case requestLine => unfold parseStartLine; grind [setError, resetLine]
  case chunkSize => unfold parseChunkSize; grind [setError, resetLine]
  case chunkDataCrlf => unfold parseChunkEnd; grind [setError, resetLine]
  case trailers => unfold parseTrailer; grind [setError, resetLine]
  all_goals rfl

end ParserCore

structure HttpParser.Limits (p : HttpParser) : Prop where
  core : p.toParserCore.Limits
  written : p.bodyWritten ≤ p.bodyCap
  cap : p.bodyCap ≤ maxBodySize

theorem bodyReserve_spec {cap needed : Nat} (small : cap ≤ maxBodySize) (fits : needed ≤ maxBodySize) :
    cap ≤ bodyReserve cap needed ∧ needed ≤ bodyReserve cap needed ∧ bodyReserve cap needed ≤ maxBodySize := by
  unfold bodyReserve
  split
  · omega
  · split <;> omega

theorem bodyAppend_caps {p : HttpParser} {data : Bytes} (written : p.bodyWritten ≤ p.bodyCap) (cap : p.bodyCap ≤ maxBodySize)
    (room : p.bodyWritten + data.length ≤ maxBodySize) :
    (bodyAppend p data).bodyWritten ≤ (bodyAppend p data).bodyCap ∧ (bodyAppend p data).bodyCap ≤ maxBodySize := by
  unfold bodyAppend
  split
  · exact ⟨written, cap⟩
  · rcases bodyReserve_spec cap room with ⟨_, enough, small⟩
    exact ⟨enough, small⟩

theorem lineTurn_cap {p : HttpParser} (cap : p.bodyCap ≤ maxBodySize) (length : p.contentLength ≤ maxBodySize) :
    p.bodyCap ≤ (lineTurn p).2.bodyCap ∧ (lineTurn p).2.bodyCap ≤ maxBodySize := by
  have finished : p.bodyCap ≤ (finishHeaders p).bodyCap ∧ (finishHeaders p).bodyCap ≤ maxBodySize := by
    rcases bodyReserve_spec cap length with ⟨more, _, small⟩
    unfold finishHeaders
    split
    · exact ⟨le_refl _, cap⟩
    · split
      · exact ⟨le_refl _, cap⟩
      · split
        · exact ⟨le_refl _, cap⟩
        · split
          · exact ⟨more, small⟩
          · exact ⟨le_refl _, cap⟩
  cases state : p.state <;> simp only [lineTurn, state]
  case headers =>
    unfold headerLine
    split
    · dsimp only
      split <;> exact finished
    · exact ⟨le_refl _, cap⟩
  all_goals exact ⟨le_refl _, cap⟩

theorem awaitLine_caps {p : HttpParser} (limits : p.Limits) (cursor : Bytes) :
    (awaitLine p cursor).2.1.bodyWritten ≤ (awaitLine p cursor).2.1.bodyCap ∧
      (awaitLine p cursor).2.1.bodyCap ≤ maxBodySize := by
  have amounts := (ParserCore.consumeLine_amounts p.toParserCore cursor).2
  unfold awaitLine
  cases read : consumeLine p.toParserCore cursor with
  | mk result after =>
    rw [read] at amounts
    simp only [ParserCore.amounts, Prod.mk.injEq] at amounts
    rcases amounts with ⟨length, written, _⟩
    have held : after.1.bodyWritten ≤ p.bodyCap := by
      rw [written]
      exact limits.written
    cases result with
    | more => exact ⟨held, limits.cap⟩
    | violation => exact ⟨held, limits.cap⟩
    | line =>
      have fits : after.1.contentLength ≤ maxBodySize := by
        rw [length]
        exact limits.core.body.length
      have caps := @lineTurn_cap { p with toParserCore := after.1 } limits.cap fits
      have same := ParserCore.lineTurn_written { p with toParserCore := after.1 }
      refine ⟨?_, caps.2⟩
      dsimp only at same ⊢
      rw [same]
      exact Nat.le_trans held caps.1

theorem feedTurn_limits {p : HttpParser} (limits : p.Limits) (cursor : Bytes) : (feedTurn p cursor).2.1.Limits := by
  have core : (feedTurn p cursor).2.1.toParserCore.Limits := by
    have turned := ParserCore.turn_limits limits.core cursor
    rw [← feedTurn_core] at turned
    exact turned
  suffices caps : (feedTurn p cursor).2.1.bodyWritten ≤ (feedTurn p cursor).2.1.bodyCap ∧
      (feedTurn p cursor).2.1.bodyCap ≤ maxBodySize from ⟨core, caps.1, caps.2⟩
  cases state : p.state <;> simp only [feedTurn, state]
  case bodyFixed =>
    have length := limits.core.body.length
    have ordered := limits.core.body.fixed state
    have taken : (cursor.take (min (p.contentLength - p.bodyWritten) cursor.length)).length ≤
        p.contentLength - p.bodyWritten := Nat.le_trans (List.length_take_le _ _) (Nat.min_le_left _ _)
    have caps := @bodyAppend_caps p (cursor.take (min (p.contentLength - p.bodyWritten) cursor.length)) limits.written limits.cap
      (by omega)
    unfold takeFixedBody
    dsimp only
    split <;> exact caps
  case chunkData =>
    have chunk := limits.core.body.chunk
    have taken : (cursor.take (min p.chunkRemaining cursor.length)).length ≤ p.chunkRemaining :=
      Nat.le_trans (List.length_take_le _ _) (Nat.min_le_left _ _)
    have caps := @bodyAppend_caps p (cursor.take (min p.chunkRemaining cursor.length)) limits.written limits.cap (by omega)
    unfold takeChunkData
    dsimp only
    split <;> exact caps
  case stateComplete => exact ⟨limits.written, limits.cap⟩
  case stateError => exact ⟨limits.written, limits.cap⟩
  all_goals exact awaitLine_caps limits cursor

theorem feedLoop_limits (fuel : Nat) {p : HttpParser} (limits : p.Limits) (cursor : Bytes) :
    (feedLoop fuel p cursor).2.1.Limits := by
  induction fuel generalizing p cursor with
  | zero => exact limits
  | succ fuel ih =>
    have turned := feedTurn_limits limits cursor
    unfold feedLoop
    cases turn : feedTurn p cursor with
    | mk label after =>
      rw [turn] at turned
      cases label with
      | next => exact ih turned after.2
      | incomplete => exact turned
      | complete => exact turned
      | error => exact turned

theorem Limits.counted {p : HttpParser} (limits : p.Limits) (n : Nat) : { p with lastConsumed := n }.Limits :=
  ⟨limits.core, limits.written, limits.cap⟩

theorem httpParserFeed_limits {p : HttpParser} (limits : p.Limits) (data : Bytes) : (httpParserFeed p data).2.Limits := by
  unfold httpParserFeed
  dsimp only
  split
  · exact Limits.counted limits 0
  · exact Limits.counted limits 0
  · exact Limits.counted (feedLoop_limits (feedFuel data) (Limits.counted limits 0) data) _

theorem reset_limits {p : HttpParser} (limits : p.Limits) : (httpParserReset p).Limits := by
  have lines := limits.core.lines
  have fields : (httpParserReset p).FieldLimits := by
    unfold httpParserReset
    cases p.responseMode <;> exact ⟨Nat.zero_le _, Nat.zero_le _, Nat.zero_le _, Nat.zero_le _⟩
  refine ⟨⟨⟨Nat.zero_le _, Nat.zero_le _, ?_, lines.cap⟩, fields, ?_⟩, Nat.zero_le _, Nat.zero_le _⟩
  · show maxRequestLine ≤ maxHeaderSize
    decide
  · exact ⟨Nat.zero_le _, Nat.zero_le _, fun _ => rfl, fun _ => rfl, fun fixed => by cases fixed⟩

theorem freshParser_limits (responseMode : Bool) : (freshParser responseMode).Limits := by
  have fields : (freshParser responseMode).FieldLimits := by
    cases responseMode <;> exact ⟨Nat.zero_le _, Nat.zero_le _, Nat.zero_le _, Nat.zero_le _⟩
  cases responseMode with
  | true =>
    exact ⟨⟨⟨Nat.zero_le _, Nat.zero_le _, by decide, Nat.zero_le _⟩, fields, ⟨Nat.zero_le _, Nat.zero_le _, fun _ => rfl,
      fun _ => rfl, fun fixed => by cases fixed⟩⟩, Nat.zero_le _, Nat.zero_le _⟩
  | false =>
    exact ⟨⟨⟨Nat.zero_le _, Nat.zero_le _, by decide, Nat.zero_le _⟩, fields, ⟨Nat.zero_le _, Nat.zero_le _, fun _ => rfl,
      fun _ => rfl, fun fixed => by cases fixed⟩⟩, Nat.zero_le _, Nat.zero_le _⟩

theorem afterCalls_limits {p : HttpParser} (limits : p.Limits) (calls : List ParserCall) : (afterCalls p calls).Limits := by
  induction calls generalizing p with
  | nil => exact limits
  | cons call calls ih =>
    cases call with
    | feed data => exact ih (httpParserFeed_limits limits data)
    | reset => exact ih (reset_limits limits)

end BlueBird.Http
