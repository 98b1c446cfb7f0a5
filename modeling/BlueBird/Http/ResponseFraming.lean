import BlueBird.Http.Chunked
import BlueBird.Http.HeaderTable
import BlueBird.Http.Splitting

/-! Which response a stream holds that its sender closes behind it, and which one is handed to a client. -/

namespace BlueBird.Http

open Message (crlf)

/-! ## The framing of responses -/

def Head.Opens (head : Head) (start : Response) : Prop := parseResponseLine head.start {} = .ok start

def interimStatus (code : Nat) : Prop := 100 ≤ code ∧ code < 200

def emptyStatus (code : Nat) : Prop := code = 204 ∨ code = 304

instance (code : Nat) : Decidable (interimStatus code) := inferInstanceAs (Decidable (_ ∧ _))
instance (code : Nat) : Decidable (emptyStatus code) := inferInstanceAs (Decidable (_ ∨ _))

/-- The body that the head of a final response gives to what follows it up to the close. -/
def FramedBody (head : Head) (status : Nat) (rest body : Bytes) : Prop :=
  if emptyStatus status then body = []
  else if head.headers.any isTransferEncoding then Dechunked rest body
  else if head.headers.any isContentLength then
    ∃ h more, head.headers.filter isContentLength = [h] ∧ rest = body ++ more ∧ body.length = decimalNumber h.value
  else body = rest

/-- The stream holds this final response, behind interim ones or none. -/
def FinalResponse (stream : Bytes) (parsed : Response) : Prop :=
  ∃ (interim : List Head) (final : Head) (rest : Bytes),
    stream = (interim.map Head.bytes).flatten ++ (final.bytes ++ rest) ∧
      (∀ head ∈ interim, ∃ start, head.Opens start ∧ interimStatus start.statusCode) ∧
      final.Opens parsed.startOnly ∧ ¬ interimStatus parsed.statusCode ∧ parsed.headers = final.headers ∧
      FramedBody final parsed.statusCode rest parsed.body

/-- The first response in the stream is the final one, and its end does not depend on the close. -/
def Uncut (stream : Bytes) : Prop :=
  ∃ (head : Head) (rest : Bytes) (start : Response), stream = head.bytes ++ rest ∧ head.Opens start ∧
    ¬ interimStatus start.statusCode ∧
    (emptyStatus start.statusCode ∨ head.headers.any isFraming = true ∨ rest = [])

/-! ## A stream has one head in front -/

theorem line_unique {line other a b : Bytes} (clean : Unbroken line) (clean' : Unbroken other)
    (same : line ++ (crlf ++ a) = other ++ (crlf ++ b)) : line = other ∧ a = b := by
  induction line generalizing other with
  | nil =>
    cases other with
    | nil => exact ⟨rfl, List.append_cancel_left same⟩
    | cons c other => exact absurd (List.cons.inj same).1.symm (clean' c List.mem_cons_self).1
  | cons c line ih =>
    cases other with
    | nil => exact absurd (List.cons.inj same).1 (clean c List.mem_cons_self).1
    | cons d other =>
      rcases List.cons.inj same with ⟨rfl, tail⟩
      rcases ih (fun e member => clean e (List.mem_cons_of_mem _ member)) (fun e member => clean' e (List.mem_cons_of_mem _ member))
        tail with ⟨rfl, rest⟩
      exact ⟨rfl, rest⟩

theorem ended_cons (line : Bytes) (lines : List Bytes) (rest : Bytes) :
    ended (line :: lines) ++ rest = line ++ (crlf ++ (ended lines ++ rest)) := by
  simp [ended, List.append_assoc]

theorem lines_unique {lines others : List Bytes} {a b : Bytes} (clean : ∀ l ∈ lines, Unbroken l ∧ l ≠ [])
    (clean' : ∀ l ∈ others, Unbroken l ∧ l ≠ []) (same : ended lines ++ (crlf ++ a) = ended others ++ (crlf ++ b)) :
    lines = others ∧ a = b := by
  have empty : Unbroken [] := fun c member => absurd member List.not_mem_nil
  induction lines generalizing others with
  | nil =>
    cases others with
    | nil => exact ⟨rfl, List.append_cancel_left same⟩
    | cons other others =>
      rw [ended_cons] at same
      have first := clean' other List.mem_cons_self
      exact absurd (@line_unique [] other _ _ empty first.1 same).1.symm first.2
  | cons line lines ih =>
    have here := clean line List.mem_cons_self
    cases others with
    | nil =>
      rw [ended_cons] at same
      exact absurd (@line_unique line [] _ _ here.1 empty same).1 here.2
    | cons other others =>
      rw [ended_cons, ended_cons] at same
      rcases line_unique here.1 (clean' other List.mem_cons_self).1 same with ⟨rfl, tail⟩
      rcases ih (fun l member => clean l (List.mem_cons_of_mem _ member)) (fun l member => clean' l (List.mem_cons_of_mem _ member))
        tail with ⟨rfl, rest⟩
      exact ⟨rfl, rest⟩

theorem head_unique {head other : Head} {a b : Bytes} (same : head.bytes ++ a = other.bytes ++ b) :
    head.start = other.start ∧ head.fields = other.fields ∧ a = b := by
  rw [head_bytes_append, head_bytes_append, List.append_assoc, List.append_assoc] at same
  rcases line_unique (head.unbroken _ List.mem_cons_self) (other.unbroken _ List.mem_cons_self) same with ⟨start, tail⟩
  rcases lines_unique (fun l member => ⟨head.unbroken l (List.mem_cons_of_mem _ member), head.nonempty l member⟩)
    (fun l member => ⟨other.unbroken l (List.mem_cons_of_mem _ member), other.nonempty l member⟩) tail with ⟨fields, rest⟩
  exact ⟨start, fields, rest⟩

/-! ## What the parser hands over -/

theorem reads_fixed_complete {p : ParserCore} (state : p.state = .bodyFixed) (fresh : p.bodyWritten = 0) {cursor : Bytes}
    (complete : (p.reads cursor).1.status = .complete) :
    ∃ body more, cursor = body ++ more ∧ body.length = p.contentLength ∧ (p.reads cursor).1.activeBody = p.activeBody ++ body := by
  have need : p.contentLength - p.bodyWritten = p.contentLength := by
    rw [fresh]
    rfl
  by_cases enough : p.contentLength ≤ cursor.length
  · have length : (cursor.take p.contentLength).length = p.contentLength := by
      rw [List.length_take]
      exact Nat.min_eq_left enough
    have read := reads_fixed state fresh length.symm (cursor.drop p.contentLength)
    rw [List.take_append_drop] at read
    exact ⟨_, _, (List.take_append_drop p.contentLength cursor).symm, length, read.2.2⟩
  · have waiting : (p.reads cursor).1.status = .incomplete := by
      unfold ParserCore.reads
      rw [feed_eq p cursor, turn_fixed_more p cursor state (by omega)]
      have still : (p.extendBody cursor).state = .bodyFixed := (extendBody_frame p cursor).1.trans state
      exact status_incomplete (by rw [ParserCore.bare, still]; decide) (by rw [ParserCore.bare, still]; decide)
    rw [waiting] at complete
    cases complete

theorem lengthOf_number {value : Bytes} {n : Nat} (read : lengthOf value = some n) : n = decimalNumber value :=
  applyContentLength_value (Outcome.ok_of_toOption read)

theorem takingAll_announced {p : ParserCore} {lines : List Bytes} {h : Header} (zero : p.contentLength = 0)
    (single : (lines.map fieldOf).filter isContentLength = [h]) :
    (p.takingAll lines).contentLength = (lengthOf h.value).getD 0 := by
  induction lines generalizing p with
  | nil => cases single
  | cons line lines ih =>
    have taken := (taking_frame p line).2.2.2.1
    show ((p.taking line).takingAll lines).contentLength = _
    by_cases length : isContentLength (fieldOf line) = true
    · rw [List.map_cons, List.filter_cons_of_pos length] at single
      rcases List.cons.inj single with ⟨same, none_⟩
      have later : ∀ l ∈ lines, isContentLength (fieldOf l) = false := fun l member =>
        Bool.eq_false_iff.mpr (List.filter_eq_nil_iff.mp none_ _ (List.mem_map_of_mem member))
      rw [takingAll_contentLength later, taken, if_pos length, same]
    · rw [List.map_cons, List.filter_cons_of_neg length] at single
      rw [if_neg length, zero] at taken
      exact ih taken single

/-- What a complete read leaves of a response, by the framing of its head. -/
structure ReadResponse (head : Head) (start : Response) (rest : Bytes) (response : Response) : Prop where
  opens : head.Opens start
  line : response.startOnly = start
  headers : response.headers = head.headers
  framed : ¬ interimStatus start.statusCode → emptyStatus start.statusCode ∨ head.headers.any isFraming = true →
    FramedBody head start.statusCode rest response.body
  bare : head.headers.any isFraming = false → response.body = []

theorem any_isFraming {hs : List Header} :
    hs.any isFraming = true ↔ hs.any isContentLength = true ∨ hs.any isTransferEncoding = true := by
  simp only [List.any_eq_true, isFraming, Bool.or_eq_true]
  constructor
  · rintro ⟨h, member, length | encoding⟩
    · exact Or.inl ⟨h, member, length⟩
    · exact Or.inr ⟨h, member, encoding⟩
  · rintro (⟨h, member, length⟩ | ⟨h, member, encoding⟩)
    · exact ⟨h, member, Or.inl length⟩
    · exact ⟨h, member, Or.inr encoding⟩

theorem finish_complete {p : ParserCore} {rest : Bytes} (empty : p.activeBody = []) (fresh : p.bodyWritten = 0)
    (complete : (resume (sectionTurn p.finish.state, p.finish) rest).1.status = .complete) :
    (p.bodiless = true → (resume (sectionTurn p.finish.state, p.finish) rest).1.activeBody = []) ∧
      (p.bodiless = false → p.hasTransferEncoding = true →
        Dechunked rest (resume (sectionTurn p.finish.state, p.finish) rest).1.activeBody) ∧
      (p.bodiless = false → p.hasTransferEncoding = false → p.hasContentLength = true →
        ∃ more, rest = (resume (sectionTurn p.finish.state, p.finish) rest).1.activeBody ++ more ∧
          (resume (sectionTurn p.finish.state, p.finish) rest).1.activeBody.length = p.contentLength) ∧
      (p.bodiless = false → p.hasTransferEncoding = false → p.hasContentLength = false →
        (resume (sectionTurn p.finish.state, p.finish) rest).1.activeBody = []) := by
  have done : ∀ q : ParserCore, q = { p with state := .stateComplete } →
      (resume (sectionTurn q.state, q) rest).1.activeBody = [] := by
    rintro q rfl
    exact empty
  by_cases none_ : p.bodiless = true
  · have ended_ : p.finish = { p with state := .stateComplete } := if_pos none_
    refine ⟨fun _ => done _ ended_, fun some_ => ?_, fun some_ => ?_, fun some_ => ?_⟩
    all_goals
      rw [none_] at some_
      cases some_
  · refine ⟨fun held => absurd held none_, fun _ chunked => ?_, fun _ plain length => ?_, fun _ plain length => ?_⟩
    · by_cases both : p.hasContentLength = true
      · have refused : p.finish = p.setError "ambiguous framing: both Content-Length and Transfer-Encoding present" := by
          unfold ParserCore.finish
          rw [if_neg none_, if_pos ⟨both, chunked⟩]
        rw [refused] at complete
        cases complete
      · have goes : p.finish = { p.resetLine maxChunkLine with state := .chunkSize } := by
          unfold ParserCore.finish
          rw [if_neg none_, if_neg fun held => both held.1, if_pos chunked]
        rw [goes] at complete ⊢
        rcases resume_complete rfl complete with ⟨same, complete_⟩
        rcases reads_chunked (p := { p.resetLine maxChunkLine with state := .chunkSize }) rfl ⟨rfl, rfl, rfl⟩ complete_
          with ⟨body, decoded, all⟩
        rw [same, all]
        show Dechunked rest (p.activeBody ++ body)
        rw [empty]
        exact decoded
    · have notChunked : ¬ p.hasTransferEncoding = true := by rw [plain]; exact Bool.false_ne_true
      by_cases long : p.contentLength > 0
      · have goes : p.finish = { p with state := .bodyFixed } := by
          unfold ParserCore.finish
          rw [if_neg none_, if_neg fun held => notChunked held.2, if_neg notChunked, if_pos ⟨length, long⟩]
        rw [goes] at complete ⊢
        rcases resume_complete rfl complete with ⟨same, complete_⟩
        rcases reads_fixed_complete (p := { p with state := .bodyFixed }) rfl fresh complete_ with ⟨body, more, split, size, all⟩
        have whole : (resume (sectionTurn ParseState.bodyFixed, { p with state := .bodyFixed }) rest).1.activeBody = body := by
          rw [same, all]
          show p.activeBody ++ body = body
          rw [empty, List.nil_append]
        rw [whole]
        exact ⟨more, split, size⟩
      · have ended_ : p.finish = { p with state := .stateComplete } := by
          unfold ParserCore.finish
          rw [if_neg none_, if_neg fun held => notChunked held.2, if_neg notChunked, if_neg fun held => long held.2]
        rw [done _ ended_]
        exact ⟨rest, rfl, (Nat.eq_zero_of_not_pos long).symm⟩
    · have notChunked : ¬ p.hasTransferEncoding = true := by rw [plain]; exact Bool.false_ne_true
      have notFixed : ¬ p.hasContentLength = true := by rw [length]; exact Bool.false_ne_true
      have ended_ : p.finish = { p with state := .stateComplete } := by
        unfold ParserCore.finish
        rw [if_neg none_, if_neg fun held => notChunked held.2, if_neg notChunked, if_neg fun held => notFixed held.1]
      exact done _ ended_

theorem opens_startOnly {head : Head} {start : Response} (opens : head.Opens start) : start.startOnly = start := by
  rcases parseResponseLine_keeps opens with ⟨headers, trailers, body⟩
  rcases start with ⟨major, minor, code, reason, hs, ts, bytes⟩
  cases headers
  cases trailers
  cases body
  rfl

theorem accepted_length {head : Head} {responseMode : Bool} (accepted : head.Accepted responseMode)
    (length : head.headers.any isContentLength = true) :
    ∃ h n, head.headers.filter isContentLength = [h] ∧ lengthOf h.value = some n := by
  rcases List.any_eq_true.mp length with ⟨h, member, named⟩
  have found : h ∈ head.headers.filter isContentLength := List.mem_filter.mpr ⟨member, named⟩
  have few : (head.headers.filter isContentLength).length ≤ 1 := accepted.lengths.2
  cases shape : head.headers.filter isContentLength with
  | nil =>
    rw [shape] at found
    cases found
  | cons g gs =>
    rw [shape, List.length_cons] at few
    have single : gs = [] := List.length_eq_zero_iff.mp (by omega)
    have kept : g ∈ head.headers.filter isContentLength := by
      rw [shape]
      exact List.mem_cons_self
    rcases List.mem_filter.mp kept with ⟨inside, gLength⟩
    rcases Option.ne_none_iff_exists'.mp (accepted.lengths.1 g inside gLength) with ⟨n, read⟩
    exact ⟨g, n, by rw [single], read⟩

theorem reads_response {head : Head} {rest : Bytes}
    (complete : ((freshCore true).reads (head.bytes ++ rest)).1.status = .complete) :
    ∃ start, ReadResponse head start rest ((freshCore true).reads (head.bytes ++ rest)).1.response := by
  rcases reads_head true head rest with ⟨q, accepted, taken, read⟩ | ⟨_, failed⟩
  · rcases started_spec taken with ⟨_, mode, none_, _, written, length, encoding, _⟩
    have emptied := started_activeBody taken
    have unfolded : started true head.start = (parseResponseLine head.start {}).toOption.map fun response =>
      { state := .headers, responseMode := true, response, lineLimit := maxHeaderSize } := rfl
    rw [unfolded] at taken
    rcases Option.map_eq_some_iff.mp taken with ⟨start, parsed, rfl⟩
    have opens : head.Opens start := Outcome.ok_of_toOption parsed
    generalize shape : ({ state := .headers, responseMode := true, response := start, lineLimit := maxHeaderSize } : ParserCore) = q
      at *
    have response : q.response = start := by rw [← shape]
    have same := takingAll_startData q head.fields
    have data := (resume_finish (q.takingAll head.fields) rest).1
    have body := takingAll_body q head.fields
    have lengths := takingAll_hasContentLength q head.fields
    have encodings := takingAll_hasTransferEncoding q head.fields
    rw [length, Bool.false_or] at lengths
    rw [encoding, Bool.false_or] at encodings
    rw [read] at complete ⊢
    have ends := finish_complete (body.1.trans emptied) (body.2.trans written) complete
    have zero : q.contentLength = 0 := by rw [← shape]
    generalize resume (sectionTurn (q.takingAll head.fields).finish.state, (q.takingAll head.fields).finish) rest = after at *
    have startData := (congrArg Prod.fst data).trans same
    have mode_ : after.1.responseMode = true := (congrArg Prod.fst startData).trans mode
    have settled : after.1.response.startOnly = start := by
      rw [show after.1.response.startOnly = q.response.startOnly from congrArg (fun d => d.2.2) startData, response]
      exact opens_startOnly opens
    have fields : after.1.response.headers = head.headers := by
      have kept : after.1.activeHeaders = (q.takingAll head.fields).activeHeaders := congrArg (fun d => d.2.1) data
      rw [takingAll_activeHeaders, none_, List.nil_append] at kept
      unfold ParserCore.activeHeaders at kept
      rw [if_pos mode_] at kept
      exact kept
    have bytes : after.1.activeBody = after.1.response.body := by
      unfold ParserCore.activeBody
      rw [if_pos mode_]
    have bodiless : (q.takingAll head.fields).bodiless = true ↔ interimStatus start.statusCode ∨ emptyStatus start.statusCode := by
      rw [bodiless_of_startData same]
      unfold ParserCore.bodiless interimStatus emptyStatus
      rw [mode, response]
      simp
    rw [bytes, lengths, encodings] at ends
    refine ⟨start, opens, settled, fields, ?_, ?_⟩
    · intro final framed
      unfold FramedBody
      by_cases empty : emptyStatus start.statusCode
      · rw [if_pos empty]
        exact ends.1 (bodiless.mpr (Or.inr empty))
      · have bodied : (q.takingAll head.fields).bodiless = false :=
          Bool.eq_false_iff.mpr fun held => (bodiless.mp held).elim final empty
        rw [if_neg empty]
        by_cases chunked : head.headers.any isTransferEncoding = true
        · rw [if_pos chunked]
          exact ends.2.1 bodied chunked
        · rw [if_neg chunked]
          have length_ := (any_isFraming.mp (framed.resolve_left empty)).resolve_right chunked
          rw [if_pos length_]
          rcases ends.2.2.1 bodied (Bool.eq_false_iff.mpr chunked) length_ with ⟨more, split, size⟩
          rcases accepted_length accepted length_ with ⟨h, n, single, number⟩
          refine ⟨h, more, single, split, ?_⟩
          rw [size, takingAll_announced zero single, number, Option.getD_some]
          exact lengthOf_number number
    · intro unframed
      rcases not_or.mp fun held => Bool.eq_false_iff.mp unframed (any_isFraming.mpr held) with ⟨noLength, noEncoding⟩
      by_cases held : (q.takingAll head.fields).bodiless = true
      · exact ends.1 held
      · exact ends.2.2.2 (Bool.eq_false_iff.mpr held) (Bool.eq_false_iff.mpr noEncoding) (Bool.eq_false_iff.mpr noLength)
  · rw [status_error.mpr failed] at complete
    cases complete

theorem opens_unique {head other : Head} {a b : Response} (start : head.start = other.start) (first : head.Opens a)
    (second : other.Opens b) : a = b := by
  unfold Head.Opens at first second
  rw [start, second] at first
  exact (Except.ok.inj first).symm

theorem startOnly_statusCode {response start : Response} (same : response.startOnly = start) :
    response.statusCode = start.statusCode := by
  rw [← same]
  rfl

/-- A complete response is the final one of its stream, as the framing has it, exactly where the stream is not
    cut; and no other with the same status and the same body is. -/
theorem final_iff {stream : Bytes} (complete : ((freshCore true).reads stream).1.status = .complete) :
    (Uncut stream → FinalResponse stream ((freshCore true).reads stream).1.response) ∧
      ∀ parsed : Response, FinalResponse stream parsed →
        parsed.statusCode = ((freshCore true).reads stream).1.response.statusCode →
        parsed.body = ((freshCore true).reads stream).1.response.body → Uncut stream := by
  constructor
  · rintro ⟨head, rest, start, rfl, opens, final, ends⟩
    rcases reads_response complete with ⟨start', read⟩
    have same : start' = start := opens_unique rfl read.opens opens
    subst same
    generalize ((freshCore true).reads (head.bytes ++ rest)).1.response = response at read
    have code : response.statusCode = start'.statusCode := startOnly_statusCode read.line
    refine ⟨[], head, rest, rfl, fun h member => absurd member List.not_mem_nil, ?_, ?_, read.headers, ?_⟩
    · rw [read.line]
      exact opens
    · rw [code]
      exact final
    · rw [code]
      by_cases framed : emptyStatus start'.statusCode ∨ head.headers.any isFraming = true
      · exact read.framed final framed
      · rcases not_or.mp framed with ⟨some_, unframed⟩
        have closed : rest = [] := (ends.resolve_left some_).resolve_left unframed
        have body := read.bare (Bool.eq_false_iff.mpr unframed)
        rcases not_or.mp fun held => unframed (any_isFraming.mpr held) with ⟨noLength, noEncoding⟩
        unfold FramedBody
        rw [if_neg some_, if_neg noEncoding, if_neg noLength, body, closed]
  · rintro parsed ⟨interim, final, rest, split, interims, opens, lasting, headers, framing⟩ code body
    cases interim with
    | cons head interim =>
      -- the parser stopped at the interim response
      rcases interims head List.mem_cons_self with ⟨start, first, early⟩
      have shape : stream = head.bytes ++ ((interim.map Head.bytes).flatten ++ (final.bytes ++ rest)) := by
        rw [split, List.map_cons, List.flatten_cons, List.append_assoc]
      rw [shape] at complete code
      rcases reads_response complete with ⟨start', read⟩
      have same : start' = start := opens_unique rfl read.opens first
      subst same
      rw [code, startOnly_statusCode read.line] at lasting
      exact absurd early lasting
    | nil =>
      have shape : stream = final.bytes ++ rest := split
      rw [shape] at complete body ⊢
      rcases reads_response complete with ⟨start, read⟩
      have same : start = parsed.startOnly := opens_unique rfl read.opens opens
      refine ⟨final, rest, parsed.startOnly, rfl, opens, lasting, ?_⟩
      by_cases framed : emptyStatus parsed.statusCode ∨ final.headers.any isFraming = true
      · exact framed.elim Or.inl fun held => Or.inr (Or.inl held)
      · rcases not_or.mp framed with ⟨some_, unframed⟩
        rcases not_or.mp fun held => unframed (any_isFraming.mpr held) with ⟨noLength, noEncoding⟩
        unfold FramedBody at framing
        rw [if_neg some_, if_neg noEncoding, if_neg noLength, body, read.bare (Bool.eq_false_iff.mpr unframed)] at framing
        exact Or.inr (Or.inr framing.symm)

/-! ## What a client is given -/

def Whole (stream : Bytes) (res : BbResponse) : Prop := ∃ parsed, FinalResponse stream parsed ∧ res = responseFromParsed parsed

/-- The client's parser completed a response on these bytes, and this is what it was turned into. -/
def Answered (bytes : Bytes) (res : BbResponse) : Prop :=
  ((freshCore true).reads bytes).1.status = .complete ∧ res = responseFromParsed ((freshCore true).reads bytes).1.response

theorem digitValue_le {c : Byte} (digit : isDigit c = true) : digitValue c ≤ 9 := by
  unfold isDigit at digit
  simp only [decide_eq_true_eq] at digit
  have high : c.toNat ≤ (ch '9').toNat := UInt8.le_iff_toNat_le.mp digit.2
  have nine : (ch '9').toNat = 57 := by decide
  have zero : (ch '0').toNat = 48 := by decide
  unfold digitValue
  omega

theorem opens_small {head : Head} {start : Response} (opens : head.Opens start) : start.statusCode ≤ 999 := by
  rcases parseResponseLine_ok opens with ⟨_, _, d1, d2, d3, _, _, one, two, three, _, rfl⟩
  have a := digitValue_le one
  have b := digitValue_le two
  have c := digitValue_le three
  show digitValue d1 * 100 + digitValue d2 * 10 + digitValue d3 ≤ 999
  omega

theorem statusCode_inj {a b : Nat} (small : a ≤ 999) (small' : b ≤ 999) (same : Int32.ofNat a = Int32.ofNat b) : a = b := by
  have number := congrArg Int32.toInt same
  rw [Int32.toInt_ofNat_of_lt (by omega), Int32.toInt_ofNat_of_lt (by omega)] at number
  exact Int.ofNat.inj number

theorem reads_stops {p : ParserCore} {xs : Bytes} (complete : (p.reads xs).1.status = .complete) (ys : Bytes) :
    (p.reads (xs ++ ys)).1 = (p.reads xs).1 := by
  have ended_ : ¬ (p.feed xs).1.status = .incomplete := by
    intro waiting
    have bare : (p.reads xs).1.status = (p.feed xs).1.status := rfl
    rw [bare, waiting] at complete
    cases complete
  unfold ParserCore.reads
  rw [feed_append, if_neg ended_]

theorem answered_whole_iff {part stream : Bytes} {res : BbResponse} (answered : Answered part res) (sent : part <+: stream) :
    Whole stream res ↔ Uncut stream := by
  rcases sent with ⟨rest, rfl⟩
  rcases answered with ⟨complete, rfl⟩
  have same := reads_stops complete rest
  have complete_ := complete
  rw [← same] at complete_
  rcases final_iff complete_ with ⟨whole, uncut⟩
  constructor
  · rintro ⟨parsed, final, handed⟩
    have code := congrArg BbResponse.statusCode handed
    have body : ((freshCore true).reads part).1.response.body = parsed.body := congrArg (fun r => r.msg.body) handed
    rw [← same] at code body
    rcases reads_complete_head complete_ with ⟨head, tail, split⟩
    rcases final with ⟨interim, last, behind, shape, interims, opens, lasting, headers, framing⟩
    have small : parsed.startOnly.statusCode ≤ 999 := opens_small opens
    have bound : ((freshCore true).reads (part ++ rest)).1.response.statusCode ≤ 999 := by
      rw [split] at complete_ ⊢
      rcases reads_response complete_ with ⟨start, read⟩
      rw [startOnly_statusCode read.line]
      exact opens_small read.opens
    exact uncut parsed ⟨interim, last, behind, shape, interims, opens, lasting, headers, framing⟩
      (statusCode_inj bound small code).symm body.symm
  · intro held
    exact ⟨_, whole held, by rw [same]⟩

end BlueBird.Http
