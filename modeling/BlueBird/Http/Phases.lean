import BlueBird.Http.Lines

namespace BlueBird.Http

/-! ## What the later phases of a message keep of the earlier ones -/

def Request.startOnly (req : Request) : Request := { req with headers := [], trailers := [], body := [] }

def Response.startOnly (res : Response) : Response := { res with headers := [], trailers := [], body := [] }

def ParserCore.startData (p : ParserCore) : Bool × Request × Response :=
  (p.responseMode, p.request.startOnly, p.response.startOnly)

def ParserCore.headData (p : ParserCore) : (Bool × Request × Response) × List Header × Bool × Nat × Bool × Bool :=
  (p.startData, p.activeHeaders, p.hasContentLength, p.contentLength, p.hasTransferEncoding, p.transferChunked)

theorem consumeLine_headData (p : ParserCore) (xs : Bytes) : (consumeLine p xs).2.1.headData = p.headData := by
  fun_induction consumeLine p xs with
  | case1 p => rfl
  | case2 p xs saw q => rfl
  | case3 p c xs saw q lf => rfl
  | case4 p xs saw ih => exact ih
  | case5 p xs saw cr => rfl
  | case6 p xs saw cr lf => rfl
  | case7 p c xs saw cr lf nul full => rfl
  | case8 p c xs saw cr lf nul room ih => exact ih

theorem extendBody_headData (p : ParserCore) (data : Bytes) : (p.extendBody data).headData = p.headData := by
  unfold ParserCore.extendBody ParserCore.appendActiveBody
  by_cases mode : p.responseMode = true
  · rw [if_pos mode]
    simp [ParserCore.headData, ParserCore.startData, ParserCore.activeHeaders, Response.startOnly]
  · rw [if_neg mode]
    simp [ParserCore.headData, ParserCore.startData, ParserCore.activeHeaders, Request.startOnly]

theorem pushTrailer_headData (p : ParserCore) (h : Header) : (p.pushTrailer h).headData = p.headData := by
  unfold ParserCore.pushTrailer
  by_cases mode : p.responseMode = true
  · rw [if_pos mode]
    simp [ParserCore.headData, ParserCore.startData, ParserCore.activeHeaders, Response.startOnly]
  · rw [if_neg mode]
    simp [ParserCore.headData, ParserCore.startData, ParserCore.activeHeaders, Request.startOnly]

theorem storeField_startData (p : ParserCore) (h : Header) (total : Nat) :
    (p.storeField h total).startData = p.startData := by
  unfold ParserCore.storeField ParserCore.pushHeader
  by_cases mode : p.responseMode = true
  · rw [if_pos mode]
    simp [ParserCore.startData, Response.startOnly]
  · rw [if_neg mode]
    simp [ParserCore.startData, Request.startOnly]

theorem frame_startData (p : ParserCore) (h : Header) : (p.frame h).2.startData = p.startData := by
  unfold ParserCore.frame
  by_cases length : strCaseEq h.name (ascii "content-length") = true
  · rw [if_pos length]
    cases applyContentLength p.hasContentLength h.value <;> rfl
  · rw [if_neg length]
    by_cases encoding : strCaseEq h.name (ascii "transfer-encoding") = true
    · rw [if_pos encoding]
      cases applyTransferEncoding p.transferChunked h.value <;> rfl
    · rw [if_neg encoding]
      rfl

theorem parseHeader_startData (p : ParserCore) : p.parseHeader.2.startData = p.startData := by
  cases field : parseFieldLine p.lineBuf p.activeHeaders.length maxHeaderCount p.headerBytesTotal maxHeaderSize with
  | error msg =>
    rw [parseHeader_error field]
    rfl
  | ok r => rw [parseHeader_ok field, frame_startData, storeField_startData]

theorem finish_headData (p : ParserCore) : p.finish.headData = p.headData := by
  unfold ParserCore.finish
  split
  · rfl
  · split
    · rfl
    · split
      · rfl
      · split <;> rfl

theorem parseTrailer_headData (p : ParserCore) : p.parseTrailer.2.headData = p.headData := by
  unfold ParserCore.parseTrailer
  by_cases empty : p.lineBuf.length = 0
  · rw [if_pos empty]
    rfl
  · rw [if_neg empty]
    cases parseFieldLine p.lineBuf p.activeTrailers.length maxTrailerCount p.trailerBytesTotal maxTrailerSize with
    | error msg => rfl
    | ok r =>
      dsimp only
      by_cases framing : strCaseEq r.1.name (ascii "content-length") = true ∨ strCaseEq r.1.name (ascii "transfer-encoding") = true
      · rw [if_pos framing]
        exact pushTrailer_headData p r.1
      · rw [if_neg framing]
        exact pushTrailer_headData p r.1

theorem parseChunkSize_headData (p : ParserCore) : p.parseChunkSize.2.headData = p.headData := by
  unfold ParserCore.parseChunkSize
  cases parseChunkSizeLine p.lineBuf with
  | error msg => rfl
  | ok size =>
    dsimp only
    split
    · rfl
    · split <;> rfl

theorem parseChunkEnd_headData (p : ParserCore) : p.parseChunkEnd.2.headData = p.headData := by
  unfold ParserCore.parseChunkEnd
  split <;> rfl

def ParseState.phase : ParseState → Nat
  | .requestLine => 0
  | .headers => 1
  | _ => 2

/-- From the first parser to the second no phase is entered again, and what is settled stays. -/
structure Keeps (p q : ParserCore) : Prop where
  phase : p.state.phase ≤ q.state.phase
  start : 1 ≤ p.state.phase → q.startData = p.startData
  head : 2 ≤ p.state.phase → q.headData = p.headData

theorem Keeps.trans {p q r : ParserCore} (first : Keeps p q) (second : Keeps q r) : Keeps p r where
  phase := Nat.le_trans first.phase second.phase
  start settled := (second.start (Nat.le_trans settled first.phase)).trans (first.start settled)
  head settled := (second.head (Nat.le_trans settled first.phase)).trans (first.head settled)

theorem keeps_of_headData {p q : ParserCore} (phase : p.state.phase ≤ q.state.phase) (head : q.headData = p.headData) :
    Keeps p q where
  phase := phase
  start _ := congrArg Prod.fst head
  head _ := head

theorem parseHeader_phase (p : ParserCore) : p.state.phase ≤ p.parseHeader.2.state.phase := by
  have stored : ∀ h total, (p.storeField h total).state = p.state := by
    intro h total
    unfold ParserCore.storeField ParserCore.pushHeader
    split <;> rfl
  have framed : ∀ (q : ParserCore) h, q.state.phase ≤ (q.frame h).2.state.phase := by
    intro q h
    have top : q.state.phase ≤ 2 := by cases q.state <;> decide
    unfold ParserCore.frame
    split
    · cases applyContentLength q.hasContentLength h.value with
      | error msg => exact top
      | ok n => exact le_refl _
    · split
      · cases applyTransferEncoding q.transferChunked h.value with
        | error msg => exact top
        | ok c => exact le_refl _
      · exact le_refl _
  cases field : parseFieldLine p.lineBuf p.activeHeaders.length maxHeaderCount p.headerBytesTotal maxHeaderSize with
  | error msg =>
    rw [parseHeader_error field]
    show p.state.phase ≤ 2
    cases p.state <;> decide
  | ok r =>
    rw [parseHeader_ok field]
    have whole := framed (p.storeField r.1 r.2) r.1
    rw [stored] at whole
    exact whole

theorem lineEnd_keeps (p : ParserCore) (line : p.state.readsLine = true) : Keeps p p.lineEnd.2 := by
  cases state : p.state with
  | requestLine =>
    refine ⟨by rw [state]; exact Nat.zero_le _, ?_, ?_⟩
    · intro settled
      rw [state] at settled
      exact absurd settled (by decide)
    · intro settled
      rw [state] at settled
      exact absurd settled (by decide)
  | headers =>
    by_cases empty : p.lineBuf = []
    · rw [lineEnd_headers_empty state empty]
      refine keeps_of_headData ?_ (finish_headData p)
      rw [state]
      unfold ParserCore.finish
      repeat' split
      all_goals simp [ParseState.phase, ParserCore.setError]
    · rw [lineEnd_headers_field state empty]
      refine ⟨parseHeader_phase p, fun _ => parseHeader_startData p, ?_⟩
      intro settled
      rw [state] at settled
      exact absurd settled (by decide)
  | chunkSize =>
    have ended : p.lineEnd = p.parseChunkSize := by
      unfold ParserCore.lineEnd lineTurn
      simp only [state]
    rw [ended]
    refine keeps_of_headData ?_ (parseChunkSize_headData p)
    rw [state]
    unfold ParserCore.parseChunkSize
    repeat' split
    all_goals simp [ParseState.phase, ParserCore.setError, ParserCore.resetLine]
  | chunkDataCrlf =>
    have ended : p.lineEnd = p.parseChunkEnd := by
      unfold ParserCore.lineEnd lineTurn
      simp only [state]
    rw [ended]
    refine keeps_of_headData ?_ (parseChunkEnd_headData p)
    rw [state]
    unfold ParserCore.parseChunkEnd
    split <;> simp [ParseState.phase, ParserCore.setError, ParserCore.resetLine]
  | trailers =>
    have ended : p.lineEnd = p.parseTrailer := by
      unfold ParserCore.lineEnd lineTurn
      simp only [state]
    rw [ended]
    refine keeps_of_headData ?_ (parseTrailer_headData p)
    rw [state]
    have pushed : ∀ h, (p.pushTrailer h).state = .trailers := by
      intro h
      unfold ParserCore.pushTrailer
      split <;> exact state
    unfold ParserCore.parseTrailer
    repeat' split
    all_goals simp [ParseState.phase, ParserCore.setError, ParserCore.resetLine, pushed]
  | bodyFixed =>
    rw [state] at line
    cases line
  | chunkData =>
    rw [state] at line
    cases line
  | stateComplete =>
    rw [state] at line
    cases line
  | stateError =>
    rw [state] at line
    cases line

theorem phase_le_two (state : ParseState) : state.phase ≤ 2 := by cases state <;> decide

theorem turn_keeps (p : ParserCore) (cursor : Bytes) : Keeps p (p.turn cursor).2.1 := by
  by_cases line : p.state.readsLine = true
  · have spec := consumeLine_spec p cursor
    have data := consumeLine_headData p cursor
    have turn := turn_lineEnd p cursor line
    cases read : consumeLine p cursor with
    | mk result after =>
      rw [read] at spec data turn
      cases result with
      | more =>
        rw [turn]
        exact keeps_of_headData (by rw [spec.2]) data
      | violation =>
        rw [turn]
        exact keeps_of_headData (by rw [spec.2]; exact phase_le_two p.state) data
      | line =>
        rw [turn]
        have started : Keeps p after.1 := keeps_of_headData (by rw [spec.2]) data
        exact started.trans (lineEnd_keeps after.1 (by rw [spec.2]; exact line))
  · cases state : p.state <;> simp only [state, ParseState.readsLine, not_true_eq_false] at line
    case bodyFixed =>
      by_cases enough : p.contentLength - p.bodyWritten ≤ cursor.length
      · rw [turn_fixed_done p cursor state enough]
        exact keeps_of_headData (phase_le_two p.state) (extendBody_headData p _)
      · rw [turn_fixed_more p cursor state (by omega)]
        exact keeps_of_headData (by rw [state, (extendBody_frame p cursor).1, state]) (extendBody_headData p _)
    case chunkData =>
      by_cases enough : p.chunkRemaining ≤ cursor.length
      · rw [turn_chunk_done p cursor state enough]
        exact keeps_of_headData (phase_le_two p.state) (extendBody_headData p _)
      · rw [turn_chunk_more p cursor state (by omega)]
        refine keeps_of_headData ?_ (extendBody_headData p _)
        show p.state.phase ≤ (p.extendBody cursor).state.phase
        rw [(extendBody_frame p cursor).1]
    case stateComplete =>
      have turn : p.turn cursor = (.complete, p, cursor) := by
        simp only [ParserCore.turn, feedTurn, state, forgetCaps]
      rw [turn]
      exact keeps_of_headData (le_refl _) rfl
    case stateError =>
      have turn : p.turn cursor = (.error, p, cursor) := by
        simp only [ParserCore.turn, feedTurn, state, forgetCaps]
      rw [turn]
      exact keeps_of_headData (le_refl _) rfl

theorem feed_keeps (p : ParserCore) (cursor : Bytes) : Keeps p (p.feed cursor).1 := by
  induction p, cursor using turns_induction with
  | step p cursor ih =>
    have first := turn_keeps p cursor
    rw [feed_eq]
    cases turn : p.turn cursor with
    | mk label after =>
      rw [turn] at first
      cases label with
      | next => exact first.trans (ih after.1 after.2 turn)
      | incomplete => exact first
      | complete => exact first
      | error => exact first

theorem reads_keeps (p : ParserCore) (cursor : Bytes) : Keeps p (p.reads cursor).1 := by
  have fed := feed_keeps p cursor
  exact ⟨fed.phase, fed.start, fed.head⟩

end BlueBird.Http
