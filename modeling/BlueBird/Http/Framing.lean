import BlueBird.Http.Head

namespace BlueBird.Http

open Message (crlf)

theorem feedFragments_reads (responseMode : Bool) (fragments : List Bytes) :
    (feedFragments (freshParser responseMode) fragments).1 = ((freshCore responseMode).reads fragments.flatten).1.status ∧
      (feedFragments (freshParser responseMode) fragments).2.1.toParserCore.bare =
        ((freshCore responseMode).reads fragments.flatten).1 ∧
      (feedFragments (freshParser responseMode) fragments).2.2 =
        fragments.flatten.length - ((freshCore responseMode).reads fragments.flatten).2.length := by
  rcases feedFragments_whole responseMode fragments with ⟨status, consumed, core⟩
  rcases httpParserFeed_core (freshParser responseMode) fragments.flatten with ⟨status', core', consumed'⟩
  refine ⟨status.trans status', ?_, consumed.trans consumed'⟩
  rw [core, core']
  rfl

/-! ## A complete message has a head -/

theorem resume_status {r : Turn × ParserCore} {rest : Bytes} (complete : (resume r rest).1.status = .complete) :
    r.2.status = .complete ∨ (r.1 = .next ∧ (r.2.reads rest).1.status = .complete) := by
  unfold resume at complete
  by_cases next : r.1 = .next
  · rw [if_pos next] at complete
    exact Or.inr ⟨next, complete⟩
  · rw [if_neg next] at complete
    exact Or.inl complete

theorem status_complete {p : ParserCore} : p.status = .complete ↔ p.state = .stateComplete := by
  unfold ParserCore.status
  cases p.state <;> simp

theorem status_error {p : ParserCore} : p.status = .error ↔ p.state = .stateError := by
  unfold ParserCore.status
  cases p.state <;> simp

theorem plain_unbroken {limit : Nat} {line : Bytes} (clean : CleanLine limit line) : ∀ c ∈ line, c ≠ ch '\r' ∧ c ≠ ch '\n' :=
  fun c member => ⟨(clean.plain c member).1, (clean.plain c member).2.1⟩

theorem reads_complete_fields {p : ParserCore} (ready : p.InHeaders) {cursor : Bytes}
    (complete : (p.reads cursor).1.status = .complete) :
    ∃ lines rest, cursor = ended lines ++ crlf ++ rest ∧ (∀ line ∈ lines, ∀ c ∈ line, c ≠ ch '\r' ∧ c ≠ ch '\n') ∧
      ∀ line ∈ lines, line ≠ [] := by
  generalize size : cursor.length = n
  induction n using Nat.strongRecOn generalizing p cursor with
  | _ n ih =>
    rcases reads_cases ready.fresh cursor with ⟨waiting, _⟩ | failed | ⟨line, rest, split, clean, read⟩
    · rw [waiting] at complete
      cases complete
    · rw [status_error.mpr failed] at complete
      cases complete
    · by_cases empty : line = []
      · refine ⟨[], rest, ?_, by simp, by simp⟩
        rw [split, empty]
        rfl
      · have limit : CleanLine maxHeaderSize line := ready.limit ▸ clean
        rw [read, lineEnd_headers_field (p := p.holding line) ready.state empty] at complete
        rcases parseHeader_spec (p := p) limit with ⟨_, next⟩ | ⟨_, error, failed⟩
        · rw [next] at complete
          have shorter : rest.length < n := by
            rw [← size, split, List.length_append, List.length_append]
            have two : crlf.length = 2 := by decide
            omega
          rcases ih rest.length shorter (taking_inHeaders ready line) complete rfl with ⟨lines, tail, again, unbroken, nonempty⟩
          refine ⟨line :: lines, tail, ?_, ?_, ?_⟩
          · rw [split, again]
            simp [ended, List.append_assoc]
          · exact List.forall_mem_cons.mpr ⟨plain_unbroken clean, unbroken⟩
          · exact List.forall_mem_cons.mpr ⟨empty, nonempty⟩
        · rcases resume_status complete with done | ⟨next, _⟩
          · rw [status_error.mpr failed] at done
            cases done
          · rw [error] at next
            cases next

theorem reads_complete_head {responseMode : Bool} {stream : Bytes}
    (complete : ((freshCore responseMode).reads stream).1.status = .complete) :
    ∃ (head : Head) (rest : Bytes), stream = head.bytes ++ rest := by
  have fresh := freshCore_fresh responseMode
  have limit : (freshCore responseMode).lineLimit = maxRequestLine := by cases responseMode <;> rfl
  rcases reads_cases fresh stream with ⟨waiting, _⟩ | failed | ⟨line, rest, split, clean, _⟩
  · rw [waiting] at complete
    cases complete
  · rw [status_error.mpr failed] at complete
    cases complete
  · rw [split] at complete
    rcases reads_start responseMode (plain_unbroken clean) rest with ⟨q, _, taken, read⟩ | ⟨_, failed⟩
    · rw [read] at complete
      rcases reads_complete_fields (started_spec taken).1 complete with ⟨lines, tail, again, unbroken, nonempty⟩
      refine ⟨⟨line, lines, List.forall_mem_cons.mpr ⟨plain_unbroken clean, unbroken⟩, nonempty⟩, tail, ?_⟩
      rw [split, again, head_bytes_append]
      simp only [List.append_assoc]
    · rw [status_error.mpr failed] at complete
      cases complete

/-! ## The framing of a head -/

/-- A second chunked coding, or an element of the list that is empty. -/
def DoubtfulCodings (value : Bytes) : Prop :=
  2 ≤ (codings value).countP isChunked ∨ ∃ token ∈ codings value, trimBlanks token = []

def Head.BothFramings (head : Head) : Prop :=
  head.headers.any isContentLength = true ∧ head.headers.any isTransferEncoding = true

def Head.Ambiguous (head : Head) : Prop :=
  (∃ h ∈ head.headers, isTransferEncoding h = true ∧ DoubtfulCodings h.value) ∨
    2 ≤ (head.headers.filter isTransferEncoding).length ∨ head.BothFramings

def Head.OneChunked (head : Head) : Prop :=
  (∃ h, head.headers.filter isTransferEncoding = [h] ∧ ∃ token, codings h.value = [token] ∧ isChunked token = true) ∧
    head.headers.any isContentLength = false

def Head.bodiless (head : Head) (responseMode : Bool) : Bool := (started responseMode head.start).any (·.bodiless)

def ParserCore.chunkedBody (p : ParserCore) : Prop := p.hasTransferEncoding = true ∧ p.bodiless = false

theorem codings_single {value : Bytes} (only : OnlyChunked value) (clear : ¬ DoubtfulCodings value) :
    ∃ token, codings value = [token] ∧ isChunked token = true := by
  have full : ∀ token ∈ codings value, trimBlanks token ≠ [] := fun token member empty => clear (Or.inr ⟨token, member, empty⟩)
  have whole : listed (codings value) = codings value := by
    unfold listed
    rw [if_neg]
    intro last
    exact full [] (List.mem_of_getLast? last) rfl
  unfold OnlyChunked at only
  rw [whole] at only
  have count : (codings value).countP isChunked = (codings value).length := List.countP_eq_length.mpr only
  have few : (codings value).length < 2 := by
    rw [← count]
    exact Nat.lt_of_not_le fun many => clear (Or.inl many)
  cases shape : codings value with
  | nil => exact absurd shape (codings_ne_nil value)
  | cons token tokens =>
    rw [shape, List.length_cons] at few
    have none_ : tokens = [] := List.length_eq_zero_iff.mp (by omega)
    rw [shape] at only
    exact ⟨token, by rw [none_], only token List.mem_cons_self⟩

theorem oneChunked_of_clear {head : Head} (encodings : EncodingsAllowed false head.headers) (clear : ¬ head.Ambiguous)
    (encoded : head.headers.any isTransferEncoding = true) : head.OneChunked := by
  rcases List.any_eq_true.mp encoded with ⟨g, member, encoding⟩
  have few : (head.headers.filter isTransferEncoding).length < 2 :=
    Nat.lt_of_not_le fun many => clear (Or.inr (Or.inl many))
  have found : g ∈ head.headers.filter isTransferEncoding := List.mem_filter.mpr ⟨member, encoding⟩
  constructor
  · cases shape : head.headers.filter isTransferEncoding with
    | nil =>
      rw [shape] at found
      cases found
    | cons h hs =>
      rw [shape, List.length_cons] at few
      have none_ : hs = [] := List.length_eq_zero_iff.mp (by omega)
      have kept : h ∈ head.headers.filter isTransferEncoding := by
        rw [shape]
        exact List.mem_cons_self
      rcases List.mem_filter.mp kept with ⟨inside, te⟩
      refine ⟨h, by rw [none_], ?_⟩
      exact codings_single (encodings.1 h inside te) fun doubtful => clear (Or.inl ⟨h, inside, te, doubtful⟩)
  · apply Bool.eq_false_iff.mpr
    intro length
    exact clear (Or.inr (Or.inr ⟨length, encoded⟩))

theorem bodiless_of_startData {p q : ParserCore} (same : p.startData = q.startData) : p.bodiless = q.bodiless := by
  have mode : p.responseMode = q.responseMode := congrArg Prod.fst same
  have status : p.response.statusCode = q.response.statusCode := congrArg (fun data => data.2.2.statusCode) same
  unfold ParserCore.bodiless
  rw [mode, status]

theorem hasTransferEncoding_of_headData {p q : ParserCore} (same : p.headData = q.headData) :
    p.hasTransferEncoding = q.hasTransferEncoding := congrArg (fun data => data.2.2.2.2.1) same

theorem finish_state (p : ParserCore) :
    p.finish.state.phase = 2 ∧
      (p.finish.state = .stateError ↔ p.bodiless = false ∧ p.hasContentLength = true ∧ p.hasTransferEncoding = true) := by
  unfold ParserCore.finish
  by_cases none_ : p.bodiless = true
  · rw [if_pos none_]
    simp [none_, ParseState.phase]
  · rw [if_neg none_]
    by_cases both : p.hasContentLength = true ∧ p.hasTransferEncoding = true
    · rw [if_pos both]
      simp [none_, both, ParseState.phase, ParserCore.setError]
    · rw [if_neg both]
      by_cases chunked : p.hasTransferEncoding = true
      · rw [if_pos chunked]
        simp [chunked] at both
        simp [both, ParseState.phase]
      · rw [if_neg chunked]
        by_cases fixed : p.hasContentLength = true ∧ p.contentLength > 0
        · rw [if_pos fixed]
          simp [chunked, ParseState.phase]
        · rw [if_neg fixed]
          simp [chunked, ParseState.phase]

theorem resume_finish (p : ParserCore) (rest : Bytes) :
    ((resume (sectionTurn p.finish.state, p.finish) rest).1.headData = p.headData) ∧
      (p.finish.state = .stateError → (resume (sectionTurn p.finish.state, p.finish) rest).1.state = .stateError) := by
  have settled := (finish_state p).1
  have kept := reads_keeps p.finish rest
  unfold resume
  by_cases next : sectionTurn p.finish.state = .next
  · rw [if_pos next]
    refine ⟨(kept.head (by omega)).trans (finish_headData p), fun failed => ?_⟩
    exact reads_error failed rest
  · rw [if_neg next]
    exact ⟨finish_headData p, fun failed => failed⟩

theorem reads_nil {p : ParserCore} (sound : p.state ≠ .stateError) : (p.reads []).1.state ≠ .stateError := by
  have waits : ∀ q : ParserCore, q.state.readsLine = true → q.state ≠ .stateError → (q.feed []).1.state ≠ .stateError := by
    intro q line fine
    rw [feed_eq, turn_line q [] line]
    exact fine
  show (p.feed []).1.state ≠ .stateError
  by_cases line : p.state.readsLine = true
  · exact waits p line sound
  · cases state : p.state <;> simp only [state, ParseState.readsLine, not_true_eq_false] at line
    case bodyFixed =>
      rw [feed_eq]
      by_cases enough : p.contentLength - p.bodyWritten ≤ ([] : Bytes).length
      · rw [turn_fixed_done p [] state enough]
        simp
      · rw [turn_fixed_more p [] state (Nat.lt_of_not_le enough)]
        show (p.extendBody []).state ≠ _
        rw [(extendBody_frame p []).1]
        exact sound
    case chunkData =>
      rw [feed_eq]
      by_cases enough : p.chunkRemaining ≤ ([] : Bytes).length
      · rw [turn_chunk_done p [] state enough, List.drop_nil]
        exact waits _ rfl (by simp [ParserCore.resetLine])
      · rw [turn_chunk_more p [] state (Nat.lt_of_not_le enough)]
        show (p.extendBody []).state ≠ _
        rw [(extendBody_frame p []).1]
        exact sound
    case stateComplete =>
      rw [feed_eq]
      simp [ParserCore.turn, feedTurn, forgetCaps, state]
    case stateError => exact absurd state sound

def Head.Passes (head : Head) (responseMode : Bool) : Prop :=
  head.Accepted responseMode ∧ (head.bodiless responseMode = true ∨ ¬ head.BothFramings)

theorem reads_head_framing (responseMode : Bool) (head : Head) (rest : Bytes) :
    (head.Passes responseMode ∧ ∃ p : ParserCore, p.finish.state ≠ .stateError ∧
        (freshCore responseMode).reads (head.bytes ++ rest) = resume (sectionTurn p.finish.state, p.finish) rest ∧
        p.hasTransferEncoding = head.headers.any isTransferEncoding ∧ p.bodiless = head.bodiless responseMode) ∨
      (¬ head.Passes responseMode ∧ ((freshCore responseMode).reads (head.bytes ++ rest)).1.state = .stateError) := by
  rcases reads_head responseMode head rest with ⟨q, accepted, taken, read⟩ | ⟨refused, failed⟩
  · rcases started_spec taken with ⟨_, _, _, _, _, length, encoding, _⟩
    have lengths := takingAll_hasContentLength q head.fields
    have encodings := takingAll_hasTransferEncoding q head.fields
    rw [length, Bool.false_or] at lengths
    rw [encoding, Bool.false_or] at encodings
    have bodiless : (q.takingAll head.fields).bodiless = head.bodiless responseMode := by
      unfold Head.bodiless
      rw [taken, bodiless_of_startData (takingAll_startData q head.fields)]
      rfl
    have error := (finish_state (q.takingAll head.fields)).2
    rw [lengths, encodings, bodiless] at error
    by_cases passes : head.bodiless responseMode = true ∨ ¬ head.BothFramings
    · left
      refine ⟨⟨accepted, passes⟩, q.takingAll head.fields, ?_, read, encodings, bodiless⟩
      intro failed
      rcases error.mp failed with ⟨body, both⟩
      rcases passes with none_ | clear
      · rw [body] at none_
        cases none_
      · exact clear both
    · right
      refine ⟨fun held => passes held.2, ?_⟩
      rcases not_or.mp passes with ⟨body, both⟩
      have failed := error.mpr ⟨Bool.eq_false_iff.mpr body, Decidable.not_not.mp both⟩
      rw [read]
      exact (resume_finish (q.takingAll head.fields) rest).2 failed
  · exact Or.inr ⟨fun held => refused held.1, failed⟩

/-- A complete message with a chunked body has one chunked coding and nothing else for framing, and a head that
    leaves its framing in doubt is refused. -/
def UnambiguousFraming (responseMode : Bool) (head : Head) : Prop :=
  (∀ (fragments : List Bytes) (rest : Bytes), fragments.flatten = head.bytes ++ rest →
      (feedFragments (freshParser responseMode) fragments).1 = .complete →
      (feedFragments (freshParser responseMode) fragments).2.1.chunkedBody → head.OneChunked) ∧
    (head.Ambiguous → ∀ fragments : List Bytes, fragments.flatten = head.bytes →
      (feedFragments (freshParser responseMode) fragments).1 = .error)

/-- Every complete stream has a head, and its framing is unambiguous unless the head is one whose doubt the
    checks of the parser let through. -/
theorem framing_iff (responseMode : Bool) :
    (∀ fragments, (feedFragments (freshParser responseMode) fragments).1 = .complete →
        ∃ (head : Head) (rest : Bytes), fragments.flatten = head.bytes ++ rest) ∧
      ∀ head : Head, UnambiguousFraming responseMode head ↔ ¬ (head.Ambiguous ∧ head.Passes responseMode) := by
  constructor
  · intro fragments complete
    rw [(feedFragments_reads responseMode fragments).1] at complete
    exact reads_complete_head complete
  · intro head
    constructor
    · rintro ⟨_, refuses⟩ ⟨ambiguous, passes⟩
      have error := refuses ambiguous [head.bytes] (by simp)
      rw [(feedFragments_reads responseMode [head.bytes]).1, status_error] at error
      have joined : [head.bytes].flatten = head.bytes ++ [] := by simp
      rw [joined] at error
      rcases reads_head_framing responseMode head [] with ⟨_, p, sound, read, _⟩ | ⟨refused, _⟩
      · rw [read] at error
        unfold resume at error
        by_cases next : sectionTurn p.finish.state = .next
        · rw [if_pos next] at error
          exact reads_nil sound error
        · rw [if_neg next] at error
          exact sound error
      · exact refused passes
    · intro clear
      constructor
      · intro fragments rest split complete chunked
        rcases feedFragments_reads responseMode fragments with ⟨status, core, _⟩
        rw [split] at status core
        rw [status] at complete
        rcases reads_head_framing responseMode head rest with ⟨passes, p, _, read, encoding, bodiless⟩ | ⟨_, failed⟩
        · have data := (resume_finish p rest).1
          rw [← read, ← core] at data
          have encoded : head.headers.any isTransferEncoding = true := by
            rw [← encoding, ← hasTransferEncoding_of_headData data]
            exact chunked.1
          exact oneChunked_of_clear passes.1.encodings (fun ambiguous => clear ⟨ambiguous, passes⟩) encoded
        · rw [status_error.mpr failed] at complete
          cases complete
      · intro ambiguous fragments whole
        rw [(feedFragments_reads responseMode fragments).1, status_error, whole]
        rcases reads_head_framing responseMode head [] with ⟨passes, _⟩ | ⟨_, failed⟩
        · exact absurd ⟨ambiguous, passes⟩ clear
        · rwa [List.append_nil] at failed

theorem repeatedCoding_unbroken : ∀ line ∈ [ascii "POST / HTTP/1.1", ascii "Transfer-Encoding: chunked, chunked"],
    ∀ c ∈ line, c ≠ ch '\r' ∧ c ≠ ch '\n' :=
  List.forall_mem_cons.mpr ⟨forall_of_all (by decide),
    List.forall_mem_cons.mpr ⟨forall_of_all (by decide), fun line none_ => absurd none_ List.not_mem_nil⟩⟩

theorem repeatedCoding_nonempty : ∀ line ∈ [ascii "Transfer-Encoding: chunked, chunked"], line ≠ [] :=
  List.forall_mem_cons.mpr ⟨by decide, fun line none_ => absurd none_ List.not_mem_nil⟩

def repeatedCodingHead : Head where
  start := ascii "POST / HTTP/1.1"
  fields := [ascii "Transfer-Encoding: chunked, chunked"]
  unbroken := repeatedCoding_unbroken
  nonempty := repeatedCoding_nonempty

/-- Two chunked codings are taken for one. -/
theorem not_unambiguousFraming_repeated :
    ¬ ∀ (responseMode : Bool) (head : Head), UnambiguousFraming responseMode head := by
  intro claim
  have single := (claim false repeatedCodingHead).1 [repeatedCodingHead.bytes ++ ascii "0\r\n\r\n"] (ascii "0\r\n\r\n")
    (by simp) (by decide +kernel) (by unfold ParserCore.chunkedBody; decide +kernel)
  rcases single with ⟨⟨h, found, token, alone, _⟩, _⟩
  have field : repeatedCodingHead.headers.filter isTransferEncoding =
      [⟨ascii "Transfer-Encoding", ascii "chunked, chunked"⟩] := by decide +kernel
  rw [field] at found
  have two : (codings h.value).length = 2 := by
    rw [← (List.cons.inj found).1]
    decide +kernel
  rw [alone] at two
  cases two

end BlueBird.Http
