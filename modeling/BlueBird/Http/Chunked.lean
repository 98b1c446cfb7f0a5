import BlueBird.Http.Overflow
import BlueBird.Http.Serialized

/-! What a chunked body stands for, and that the parser decodes it so. -/

namespace BlueBird.Http

open Message (crlf)

def Unbroken (line : Bytes) : Prop := ∀ c ∈ line, c ≠ ch '\r' ∧ c ≠ ch '\n'

/-- Hexadecimal digits, with nothing or an extension behind them. -/
structure ChunkLine (line : Bytes) (size : Nat) : Prop where
  unbroken : Unbroken line
  digits : line.takeWhile (fun c => (hexValue c).isSome) ≠ []
  behind : ∀ c, (line.dropWhile fun c => (hexValue c).isSome).head? = some c → c = ch ';'
  value : size = hexNumber line

/-- The chunked coding of a body, with whatever follows it. -/
inductive Dechunked : Bytes → Bytes → Prop where
  | last {line : Bytes} {trailers : List Bytes} (more : Bytes) (size : ChunkLine line 0) (unbroken : ∀ t ∈ trailers, Unbroken t)
      (nonempty : ∀ t ∈ trailers, t ≠ []) : Dechunked (line ++ crlf ++ (ended trailers ++ crlf ++ more)) []
  | chunk {line data rest body : Bytes} (size : ChunkLine line data.length) (some_ : data ≠ []) (later : Dechunked rest body) :
      Dechunked (line ++ crlf ++ (data ++ (crlf ++ rest))) (data ++ body)

/-! ## Lines behind the head -/

theorem lineEnd_chunkSize {p : ParserCore} (state : p.state = .chunkSize) : p.lineEnd = p.parseChunkSize := by
  unfold ParserCore.lineEnd lineTurn
  simp only [state]

theorem lineEnd_chunkDataCrlf {p : ParserCore} (state : p.state = .chunkDataCrlf) : p.lineEnd = p.parseChunkEnd := by
  unfold ParserCore.lineEnd lineTurn
  simp only [state]

theorem lineEnd_trailers {p : ParserCore} (state : p.state = .trailers) : p.lineEnd = p.parseTrailer := by
  unfold ParserCore.lineEnd lineTurn
  simp only [state]

theorem parseChunkSizeLine_line {line : Bytes} {n : Nat} (unbroken : Unbroken line) (read : parseChunkSizeLine line = .ok n) :
    ChunkLine line n := by
  have value := parseChunkSizeLine_value read
  rw [chunkSizeLine_eq] at read
  split at read
  · cases read
  · cases digits : chunkSizeDigits 0 line with
    | error e =>
      rw [digits] at read
      cases read
    | ok r =>
      have rest := (@chunkSizeDigits_ok 0 r.1 line r.2 digits).2
      rw [digits, Except.bind] at read
      by_cases none_ : r.2.length = line.length
      · rw [if_pos none_] at read
        cases read
      · rw [if_neg none_] at read
        by_cases other : r.2 ≠ [] ∧ r.2.head? ≠ some (ch ';')
        · rw [if_pos other] at read
          cases read
        · refine ⟨unbroken, ?_, ?_, value⟩
          · intro empty
            have whole := @List.takeWhile_append_dropWhile _ (fun c => (hexValue c).isSome) line
            rw [empty, ← rest, List.nil_append] at whole
            exact none_ (congrArg List.length whole)
          · intro c head
            rw [← rest] at head
            have filled : r.2 ≠ [] := by
              intro empty
              rw [empty] at head
              cases head
            have semicolon : r.2.head? = some (ch ';') := Decidable.not_not.mp fun differs => other ⟨filled, differs⟩
            rw [head] at semicolon
            exact Option.some.inj semicolon

theorem status_incomplete {p : ParserCore} (undone : p.state ≠ .stateComplete) (sound : p.state ≠ .stateError) :
    p.status = .incomplete := by
  unfold ParserCore.status
  cases state : p.state with
  | stateComplete => exact absurd state undone
  | stateError => exact absurd state sound
  | _ => rfl

/-- How a turn goes on: in the next line of a section, with the body it had. -/
structure GoesOn (p q : ParserCore) (state : ParseState) : Prop where
  state : q.state = state
  empty : q.lineBuf = []
  quiet : q.lineSawCr = false
  body : q.activeBody = p.activeBody

theorem parseChunkSize_spec (p : ParserCore) {line : Bytes} (unbroken : Unbroken line) :
    ((p.holding line).parseChunkSize.1 = .error ∧ (p.holding line).parseChunkSize.2.state = .stateError) ∨
      (p.holding line).parseChunkSize.1 = .next ∧
        ((ChunkLine line 0 ∧ GoesOn p (p.holding line).parseChunkSize.2 .trailers) ∨
          ∃ n, 0 < n ∧ ChunkLine line n ∧ (p.holding line).parseChunkSize.2.state = .chunkData ∧
            (p.holding line).parseChunkSize.2.chunkRemaining = n ∧
            (p.holding line).parseChunkSize.2.activeBody = p.activeBody) := by
  unfold ParserCore.parseChunkSize
  rw [show (p.holding line).lineBuf = line from rfl]
  cases read : parseChunkSizeLine line with
  | error msg => exact Or.inl ⟨rfl, rfl⟩
  | ok n =>
    have size := parseChunkSizeLine_line unbroken read
    dsimp only
    by_cases large : n > 0 ∧ n > maxBodySize - (p.holding line).bodyWritten
    · rw [if_pos large]
      exact Or.inl ⟨rfl, rfl⟩
    · rw [if_neg large]
      right
      by_cases zero : n = 0
      · rw [if_pos zero]
        refine ⟨rfl, Or.inl ⟨zero ▸ size, rfl, rfl, rfl, rfl⟩⟩
      · rw [if_neg zero]
        exact ⟨rfl, Or.inr ⟨n, Nat.pos_of_ne_zero zero, size, rfl, rfl, rfl⟩⟩

theorem pushTrailer_activeBody (p : ParserCore) (h : Header) : (p.pushTrailer h).activeBody = p.activeBody := by
  unfold ParserCore.pushTrailer ParserCore.activeBody
  by_cases mode : p.responseMode = true
  · simp only [if_pos mode]
  · simp only [if_neg mode]

theorem pushTrailer_state (p : ParserCore) (h : Header) : (p.pushTrailer h).state = p.state := by
  unfold ParserCore.pushTrailer
  by_cases mode : p.responseMode = true
  · rw [if_pos mode]
  · rw [if_neg mode]

theorem parseTrailer_spec (p : ParserCore) {line : Bytes} (state : p.state = .trailers) (some_ : line ≠ []) :
    ((p.holding line).parseTrailer.1 = .error ∧ (p.holding line).parseTrailer.2.state = .stateError) ∨
      (p.holding line).parseTrailer.1 = .next ∧ GoesOn p (p.holding line).parseTrailer.2 .trailers := by
  have filled : ¬ (p.holding line).lineBuf.length = 0 := fun empty => some_ (List.length_eq_zero_iff.mp empty)
  unfold ParserCore.parseTrailer
  rw [if_neg filled]
  cases parseFieldLine (p.holding line).lineBuf (p.holding line).activeTrailers.length maxTrailerCount
      (p.holding line).trailerBytesTotal maxTrailerSize with
  | error msg => exact Or.inl ⟨rfl, rfl⟩
  | ok r =>
    dsimp only
    by_cases framing : strCaseEq r.1.name (ascii "content-length") = true ∨ strCaseEq r.1.name (ascii "transfer-encoding") = true
    · rw [if_pos framing]
      exact Or.inl ⟨rfl, rfl⟩
    · rw [if_neg framing]
      right
      exact ⟨rfl, (pushTrailer_state (p.holding line) r.1).trans state, rfl, rfl, pushTrailer_activeBody (p.holding line) r.1⟩

/-! ## The body -/

theorem resume_complete {r : Turn × ParserCore} {rest : Bytes} (next : r.1 = .next)
    (complete : (resume r rest).1.status = .complete) :
    resume r rest = r.2.reads rest ∧ (r.2.reads rest).1.status = .complete := by
  have same : resume r rest = r.2.reads rest := if_pos next
  rw [same] at complete
  exact ⟨same, complete⟩

theorem resume_failed {r : Turn × ParserCore} {rest : Bytes} (error : r.1 = .error) (failed : r.2.state = .stateError) :
    (resume r rest).1.status ≠ .complete := by
  unfold resume
  rw [if_neg (by rw [error]; decide)]
  intro complete
  rw [status_complete] at complete
  rw [show r.2.bare.state = r.2.state from rfl, failed] at complete
  cases complete

theorem goesOn_fresh {p q : ParserCore} {state : ParseState} (goes : GoesOn p q state) (line : state.readsLine = true) : q.Fresh :=
  ⟨by rw [goes.state]; exact line, goes.empty, goes.quiet⟩

theorem reads_complete_line {p : ParserCore} (fresh : p.Fresh) {cursor : Bytes} (complete : (p.reads cursor).1.status = .complete) :
    ∃ line rest, cursor = line ++ crlf ++ rest ∧ CleanLine p.lineLimit line ∧
      p.reads cursor = resume (p.holding line).lineEnd rest := by
  rcases reads_cases fresh cursor with ⟨waiting, _⟩ | failed | found
  · rw [waiting] at complete
    cases complete
  · rw [status_error.mpr failed] at complete
    cases complete
  · exact found

theorem reads_trailers {p : ParserCore} (state : p.state = .trailers) (fresh : p.Fresh) {cursor : Bytes}
    (complete : (p.reads cursor).1.status = .complete) :
    ∃ (trailers : List Bytes) (more : Bytes), cursor = ended trailers ++ crlf ++ more ∧ (∀ t ∈ trailers, Unbroken t) ∧
      (∀ t ∈ trailers, t ≠ []) ∧ (p.reads cursor).1.activeBody = p.activeBody := by
  generalize size : cursor.length = n
  induction n using Nat.strongRecOn generalizing p cursor with
  | _ n ih =>
    rcases reads_complete_line fresh complete with ⟨line, rest, split, clean, read⟩
    rw [read, lineEnd_trailers (p := p.holding line) state] at complete
    by_cases empty : line = []
    · refine ⟨[], rest, ?_, by simp, by simp, ?_⟩
      · rw [split, empty]
        rfl
      · rw [read, lineEnd_trailers (p := p.holding line) state]
        unfold ParserCore.parseTrailer
        rw [if_pos (by rw [empty]; rfl)]
        rfl
    · rcases parseTrailer_spec p state empty with ⟨error, failed⟩ | ⟨next, goes⟩
      · exact absurd complete (resume_failed error failed)
      · rcases resume_complete next complete with ⟨same, done⟩
        have shorter : rest.length < n := by
          have two : crlf.length = 2 := by decide
          rw [← size, split, List.length_append, List.length_append]
          omega
        rcases ih rest.length shorter goes.state (goesOn_fresh goes rfl) done rfl with ⟨trailers, more, again, unbroken, nonempty, body⟩
        refine ⟨line :: trailers, more, ?_, List.forall_mem_cons.mpr ⟨plain_unbroken clean, unbroken⟩,
          List.forall_mem_cons.mpr ⟨empty, nonempty⟩, ?_⟩
        · rw [split, again]
          simp [ended, List.append_assoc]
        · rw [read, lineEnd_trailers (p := p.holding line) state, same, body]
          exact goes.body

theorem reads_chunkData {p : ParserCore} (state : p.state = .chunkData) {cursor : Bytes}
    (complete : (p.reads cursor).1.status = .complete) :
    ∃ (q : ParserCore) (data rest : Bytes), cursor = data ++ (crlf ++ rest) ∧ data.length = p.chunkRemaining ∧
      p.reads cursor = q.reads rest ∧ (q.reads rest).1.status = .complete ∧ q.state = .chunkSize ∧ q.Fresh ∧
      q.activeBody = p.activeBody ++ data := by
  by_cases enough : p.chunkRemaining ≤ cursor.length
  · let q : ParserCore := { p.extendBody (cursor.take p.chunkRemaining) with
      chunkRemaining := 0, state := .chunkDataCrlf }.resetLine 0
    have after : p.reads cursor = q.reads (cursor.drop p.chunkRemaining) := by
      unfold ParserCore.reads
      rw [feed_eq p cursor, turn_chunk_done p cursor state enough]
    rw [after] at complete ⊢
    rcases reads_complete_line (p := q) ⟨rfl, rfl, rfl⟩ complete with ⟨line, rest, split, clean, read⟩
    have empty : line = [] := List.length_eq_zero_iff.mp (Nat.le_zero.mp clean.short)
    have ended_ : (q.holding line).lineEnd = (.next, { q.holding line with state := .chunkSize }.resetLine maxChunkLine) := by
      rw [lineEnd_chunkDataCrlf (p := q.holding line) rfl]
      unfold ParserCore.parseChunkEnd
      rw [if_neg (by rw [empty]; exact fun filled => filled rfl)]
    rw [read, ended_] at complete
    rcases resume_complete rfl complete with ⟨same, done⟩
    refine ⟨_, cursor.take p.chunkRemaining, rest, ?_, ?_, ?_, done, rfl, ⟨rfl, rfl, rfl⟩, ?_⟩
    · rw [empty, List.nil_append] at split
      rw [← split, List.take_append_drop]
    · rw [List.length_take]
      exact Nat.min_eq_left enough
    · rw [read, ended_, same]
    · exact extendBody_activeBody p (cursor.take p.chunkRemaining)
  · have waiting : (p.reads cursor).1.status = .incomplete := by
      unfold ParserCore.reads
      rw [feed_eq p cursor, turn_chunk_more p cursor state (Nat.lt_of_not_le enough)]
      have still : (p.extendBody cursor).state = .chunkData := (extendBody_frame p cursor).1.trans state
      exact status_incomplete (by rw [ParserCore.bare, still]; decide) (by rw [ParserCore.bare, still]; decide)
    rw [waiting] at complete
    cases complete

theorem reads_chunked {p : ParserCore} (state : p.state = .chunkSize) (fresh : p.Fresh) {cursor : Bytes}
    (complete : (p.reads cursor).1.status = .complete) :
    ∃ body, Dechunked cursor body ∧ (p.reads cursor).1.activeBody = p.activeBody ++ body := by
  generalize size : cursor.length = n
  induction n using Nat.strongRecOn generalizing p cursor with
  | _ n ih =>
    rcases reads_complete_line fresh complete with ⟨line, rest, split, clean, read⟩
    have unbroken : Unbroken line := plain_unbroken clean
    rw [lineEnd_chunkSize (p := p.holding line) state] at read
    rw [read] at complete
    rcases parseChunkSize_spec p unbroken with ⟨error, failed⟩ | ⟨next, last | ⟨count, positive, announced, chunk, remaining, body⟩⟩
    · exact absurd complete (resume_failed error failed)
    · rcases last with ⟨announced, goes⟩
      rcases resume_complete next complete with ⟨same, done⟩
      rcases reads_trailers goes.state (goesOn_fresh goes rfl) done with ⟨trailers, more, again, lines, nonempty, body⟩
      refine ⟨[], ?_, ?_⟩
      · rw [split, again]
        exact .last more announced lines nonempty
      · rw [read, same, body, goes.body, List.append_nil]
    · rcases resume_complete next complete with ⟨same, done⟩
      rcases reads_chunkData chunk done with ⟨q, data, tail, again, length, onward, finished, section_, fresh', grown⟩
      have shorter : tail.length < n := by
        have two : crlf.length = 2 := by decide
        have whole := congrArg List.length split
        have part := congrArg List.length again
        simp only [List.length_append] at whole part
        omega
      rcases ih tail.length shorter section_ fresh' finished rfl with ⟨decoded, rest_decoded, all⟩
      have exact_ : data.length = count := length.trans remaining
      refine ⟨data ++ decoded, ?_, ?_⟩
      · rw [split, again]
        refine .chunk (exact_ ▸ announced) ?_ rest_decoded
        rintro rfl
        rw [← exact_] at positive
        exact Nat.lt_irrefl 0 positive
      · rw [read, same, onward, all, grown, body, List.append_assoc]

end BlueBird.Http
