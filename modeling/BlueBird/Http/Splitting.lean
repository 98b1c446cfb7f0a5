import BlueBird.Http.Response

namespace BlueBird.Http

open Message (crlf lengthName)

/-! ## Sequences of calls -/

theorem call_distinct {res : BbResponse} (distinct : OrderedMap.Distinct res.msg.headers) (call : ResponseCall) :
    OrderedMap.Distinct (res.call call).msg.headers := by
  cases call with
  | setStatus code => exact distinct
  | setHeader name value =>
    show OrderedMap.Distinct (res.msg.setHeader name.bytes value.bytes).headers
    rw [Message.setHeader_headers]
    exact OrderedMap.distinct_set distinct name.bytes value.bytes
  | setBody body => exact distinct

theorem foldl_call_distinct {res : BbResponse} (distinct : OrderedMap.Distinct res.msg.headers) (calls : List ResponseCall) :
    OrderedMap.Distinct (calls.foldl BbResponse.call res).msg.headers := by
  induction calls generalizing res with
  | nil => exact distinct
  | cons call calls ih => exact ih (call_distinct distinct call)

theorem afterCalls_distinct (calls : List ResponseCall) :
    OrderedMap.Distinct (BbResponse.afterCalls calls).msg.headers := @foldl_call_distinct {} List.nodup_nil calls

/-! ## What can be read back -/

def isFraming (h : Header) : Bool := isContentLength h || isTransferEncoding h

def bodilessStatus (code : Int) : Prop := (100 ≤ code ∧ code < 200) ∨ code = 204 ∨ code = 304

/-- The header names are tokens, the values clean and trimmed, no name but the generated one frames, and all of
    it is within the parser's limits. -/
structure BbResponse.Sendable (res : BbResponse) : Prop where
  status : 100 ≤ res.statusCode.toInt ∧ res.statusCode.toInt ≤ 999
  bodiless : bodilessStatus res.statusCode.toInt → res.msg.body = []
  body : res.msg.body.length ≤ maxBodySize
  sound : ∀ h ∈ res.msg.headers, h.1 ≠ lengthName → WellFormed (headerOf h)
  framing : ∀ h ∈ res.msg.headers, h.1 ≠ lengthName → isFraming (headerOf h) = false
  count : res.msg.framed.length ≤ maxHeaderCount
  bytes : sectionBytes (res.msg.framed.map lineOf) ≤ maxHeaderSize

/-- The reader of the response finds one message, the headers that were set, and one framing field. -/
def BbResponse.Unsplit (res : BbResponse) : Prop :=
  ∀ fragments : List Bytes, fragments.flatten = res.serialize →
    (feedFragments (freshParser true) fragments).1 = .complete ∧
      (feedFragments (freshParser true) fragments).2.2 = res.serialize.length ∧
      (feedFragments (freshParser true) fragments).2.1.response.headers = res.msg.framed.map headerOf ∧
      ((res.msg.framed.map headerOf).filter isFraming).length = 1

theorem generated_isContentLength (n : Nat) : isContentLength (headerOf (lengthName, decimal n)) = true := by
  show strCaseEq lengthName (ascii "content-length") = true
  decide

theorem isDigit_clean {c : Byte} (digit : isDigit c = true) :
    ¬ ((c < 0x20 ∧ c ≠ ch '\t') ∨ c = 0x7F) ∧ isBlank c = false := by
  unfold isDigit at digit
  simp only [decide_eq_true_eq] at digit
  rcases digit with ⟨low, high⟩
  have above : ¬ c ≤ 0x20 := fun small => absurd (UInt8.le_trans low small) (by decide)
  constructor
  · rintro (⟨small, _⟩ | delete)
    · exact above (UInt8.le_of_lt small)
    · rw [delete] at high
      exact absurd high (by decide)
  · unfold isBlank
    apply Bool.or_eq_false_iff.mpr
    constructor
    · apply beq_eq_false_iff_ne.mpr
      rintro rfl
      exact above (by decide)
    · apply beq_eq_false_iff_ne.mpr
      rintro rfl
      exact above (by decide)

theorem trimBlanks_solid {v : Bytes} (solid : ∀ c ∈ v, isBlank c = false) : trimBlanks v = v := by
  apply trimBlanks_eq_self.mpr
  constructor
  · rw [List.dropWhile_eq_self_iff]
    intro some_ blank
    rw [solid _ (List.getElem_mem some_)] at blank
    cases blank
  · rw [List.rdropWhile_eq_self_iff]
    intro some_ blank
    rw [solid _ (List.getLast_mem some_)] at blank
    cases blank

theorem generated_wellFormed (n : Nat) : WellFormed (headerOf (lengthName, decimal n)) where
  name := by
    show lengthName ≠ []
    decide
  token := by
    show lengthName.all isTchar = true
    decide
  value := by
    apply List.any_eq_false.mpr
    intro c member
    rw [decide_eq_true_eq]
    exact (isDigit_clean (decimal_isDigit n c member)).1
  trimmed := trimBlanks_solid fun c member => (isDigit_clean (decimal_isDigit n c member)).2

theorem mem_framed {msg : Message} (distinct : OrderedMap.Distinct msg.headers) {h : Bytes × Bytes} :
    h ∈ msg.framed ↔ h = (lengthName, decimal msg.body.length) ∨ (h ∈ msg.headers ∧ h.1 ≠ lengthName) :=
  OrderedMap.mem_set distinct

theorem framed_distinct {msg : Message} (distinct : OrderedMap.Distinct msg.headers) : OrderedMap.Distinct msg.framed :=
  OrderedMap.distinct_set distinct lengthName (decimal msg.body.length)

theorem filter_framed {msg : Message} (distinct : OrderedMap.Distinct msg.headers) {p : Header → Bool}
    (held : p (headerOf (lengthName, decimal msg.body.length)) = true)
    (others : ∀ h ∈ msg.headers, h.1 ≠ lengthName → p (headerOf h) = false) :
    (msg.framed.map headerOf).filter p = [headerOf (lengthName, decimal msg.body.length)] := by
  have single : msg.framed.filter (p ∘ headerOf) = [(lengthName, decimal msg.body.length)] :=
    OrderedMap.filter_set_single distinct held others
  rw [List.filter_map, single]
  rfl

theorem isFraming_false {h : Header} : isFraming h = false ↔ isContentLength h = false ∧ isTransferEncoding h = false :=
  Bool.or_eq_false_iff

theorem sendable_readable {res : BbResponse} (distinct : OrderedMap.Distinct res.msg.headers) (sendable : res.Sendable) :
    Readable res.msg.framed res.msg.body where
  sound := by
    intro h member
    rcases (mem_framed distinct).mp member with rfl | ⟨listed, other⟩
    · exact generated_wellFormed _
    · exact sendable.sound h listed other
  count := sendable.count
  bytes := sendable.bytes
  length := ⟨lengthName, filter_framed distinct (generated_isContentLength _) fun h member other =>
    (isFraming_false.mp (sendable.framing h member other)).1⟩
  encoding := by
    intro h member
    rcases (mem_framed distinct).mp member with rfl | ⟨listed, other⟩
    · exact isTransferEncoding_of_length (generated_isContentLength _)
    · exact (isFraming_false.mp (sendable.framing h listed other)).2
  body := sendable.body

theorem bodiless_iff {q : ParserCore} {code : Int} (mode : q.responseMode = true) (status : q.response.statusCode = code.toNat)
    (positive : 0 ≤ code) : q.bodiless = true ↔ bodilessStatus code := by
  unfold ParserCore.bodiless bodilessStatus
  rw [mode, status]
  simp only [true_and, decide_eq_true_eq]
  omega

theorem sendable_unsplit {res : BbResponse} (distinct : OrderedMap.Distinct res.msg.headers) (sendable : res.Sendable) :
    res.Unsplit := by
  intro fragments whole
  have started_ := res.started_startLine
  rw [if_pos sendable.status] at started_
  rcases started_ with ⟨q, taken, code⟩
  rcases reads_message (sendable_readable distinct sendable) res.startLine_clean taken res.serialize_eq with
    ⟨complete, start, fields, unread, read⟩
  have mode : q.responseMode = true := (started_spec taken).2.1
  rcases feedFragments_reads true fragments with ⟨status, core, consumed⟩
  rw [whole] at status core consumed
  have all : ((freshCore true).reads res.serialize).2 = [] := by
    by_cases bare : q.bodiless = true
    · have lower := sendable.status.1
      rw [unread bare]
      exact sendable.bodiless ((bodiless_iff mode code (by omega)).mp bare)
    · exact (read (Bool.eq_false_iff.mpr bare)).1
  refine ⟨status.trans complete, ?_, ?_, ?_⟩
  · rw [consumed, all]
    rfl
  · have mode_ : ((freshCore true).reads res.serialize).1.responseMode = true := (congrArg Prod.fst start).trans mode
    unfold ParserCore.activeHeaders at fields
    rw [if_pos mode_, ← core] at fields
    exact fields
  · rw [filter_framed distinct (Bool.or_eq_true_iff.mpr (Or.inl (generated_isContentLength _))) sendable.framing]
    rfl

theorem framing_of_single {msg : Message} (distinct : OrderedMap.Distinct msg.headers)
    (single : ((msg.framed.map headerOf).filter isFraming).length = 1) {h : Bytes × Bytes} (listed : h ∈ msg.headers)
    (other : h.1 ≠ lengthName) : isFraming (headerOf h) = false := by
  cases framing : isFraming (headerOf h) with
  | false => rfl
  | true =>
    have generated : headerOf (lengthName, decimal msg.body.length) ∈ (msg.framed.map headerOf).filter isFraming :=
      List.mem_filter.mpr ⟨List.mem_map_of_mem ((mem_framed distinct).mpr (Or.inl rfl)),
        Bool.or_eq_true_iff.mpr (Or.inl (generated_isContentLength _))⟩
    have added : headerOf h ∈ (msg.framed.map headerOf).filter isFraming :=
      List.mem_filter.mpr ⟨List.mem_map_of_mem ((mem_framed distinct).mpr (Or.inr ⟨listed, other⟩)), framing⟩
    rcases List.length_eq_one_iff.mp single with ⟨x, alone⟩
    rw [alone] at generated added
    have same : headerOf h = headerOf (lengthName, decimal msg.body.length) :=
      (List.mem_singleton.mp added).trans (List.mem_singleton.mp generated).symm
    exact absurd (congrArg Header.name same) other

theorem reads_response_headers {stream : Bytes} (complete : ((freshCore true).reads stream).1.status = .complete) :
    ((freshCore true).reads stream).1.responseMode = true ∧
      ∀ h ∈ ((freshCore true).reads stream).1.response.headers, WellFormed h := by
  rcases reads_complete_head complete with ⟨head, rest, split⟩
  rw [split] at complete ⊢
  rcases reads_head true head rest with ⟨q, accepted, taken, read⟩ | ⟨_, failed⟩
  · rcases started_spec taken with ⟨_, mode, none_, _⟩
    have data := (resume_finish (q.takingAll head.fields) rest).1
    rw [← read] at data
    have mode_ : ((freshCore true).reads (head.bytes ++ rest)).1.responseMode = true :=
      (congrArg (fun d => d.1.1) data).trans ((takingAll_responseMode q head.fields).trans mode)
    have headers : ((freshCore true).reads (head.bytes ++ rest)).1.activeHeaders = head.fields.map fieldOf := by
      have kept := congrArg (fun d => d.2.1) data
      refine Eq.trans kept ?_
      show (q.takingAll head.fields).activeHeaders = _
      rw [takingAll_activeHeaders, none_, List.nil_append]
    unfold ParserCore.activeHeaders at headers
    rw [if_pos mode_] at headers
    refine ⟨mode_, ?_⟩
    rw [headers]
    intro h member
    rcases List.mem_map.mp member with ⟨line, listed, rfl⟩
    exact fieldOf_wellFormed (accepted.fields line listed)
  · rw [status_error.mpr failed] at complete
    cases complete

theorem reads_serialized {res : BbResponse} (sound : ∀ h ∈ res.msg.framed, WellFormed (headerOf h))
    (complete : ((freshCore true).reads res.serialize).1.status = .complete) :
    ∃ q, (headOf res.startLine res.msg.framed res.startLine_clean.plain sound).Accepted true ∧
      started true res.startLine = some q ∧ (freshCore true).reads res.serialize =
        resume (sectionTurn (q.takingAll (res.msg.framed.map lineOf)).finish.state,
          (q.takingAll (res.msg.framed.map lineOf)).finish) res.msg.body := by
  have written : res.serialize = (headOf res.startLine res.msg.framed res.startLine_clean.plain sound).bytes ++ res.msg.body := by
    rw [headOf_bytes]
    exact res.serialize_eq
  rcases reads_head true (headOf res.startLine res.msg.framed res.startLine_clean.plain sound) res.msg.body with
    ⟨q, accepted, taken, read⟩ | ⟨_, failed⟩
  · rw [← written] at read
    exact ⟨q, accepted, taken, read⟩
  · rw [← written] at failed
    rw [status_error.mpr failed] at complete
    cases complete

theorem started_status {res : BbResponse} {q : ParserCore} (taken : started true res.startLine = some q) :
    (100 ≤ res.statusCode.toInt ∧ res.statusCode.toInt ≤ 999) ∧ q.response.statusCode = res.statusCode.toInt.toNat := by
  have started_ := res.started_startLine
  by_cases three : 100 ≤ res.statusCode.toInt ∧ res.statusCode.toInt ≤ 999
  · rw [if_pos three] at started_
    rcases started_ with ⟨q', taken', code⟩
    have same : q' = q := Option.some.inj (taken'.symm.trans taken)
    rw [← same]
    exact ⟨three, code⟩
  · rw [if_neg three, taken] at started_
    cases started_

theorem unsplit_sendable {res : BbResponse} (distinct : OrderedMap.Distinct res.msg.headers) (unsplit : res.Unsplit) :
    res.Sendable := by
  rcases unsplit [res.serialize] (by simp) with ⟨status, consumed, fields, single⟩
  rcases feedFragments_reads true [res.serialize] with ⟨status', core, consumed'⟩
  have flat : [res.serialize].flatten = res.serialize := by simp
  rw [flat] at status' core consumed'
  have complete := status'.symm.trans status
  have headers : ((freshCore true).reads res.serialize).1.response.headers = res.msg.framed.map headerOf := by
    rw [← core]
    exact fields
  have sound : ∀ h ∈ res.msg.framed, WellFormed (headerOf h) := by
    intro h member
    apply (reads_response_headers complete).2
    rw [headers]
    exact List.mem_map_of_mem member
  have all : ((freshCore true).reads res.serialize).2 = [] := by
    have some_ : res.serialize.length ≠ 0 := Message.serialize_ne_nil _ true
    have count := consumed'.symm.trans consumed
    exact List.length_eq_zero_iff.mp (by omega)
  rcases reads_serialized sound complete with ⟨q, accepted, taken, read⟩
  rcases started_status taken with ⟨three, code⟩
  have lengths := accepted.lengths.1
  have count := accepted.count
  rw [headOf_headers] at lengths
  refine ⟨three, ?_, ?_, ?_, ?_, ?_, accepted.bytes⟩
  · intro bare
    have lower := three.1
    have none_ := (bodiless_iff (started_spec taken).2.1 code (by omega)).mpr bare
    rw [← bodiless_of_startData (takingAll_startData q (res.msg.framed.map lineOf))] at none_
    have done : (q.takingAll (res.msg.framed.map lineOf)).finish =
        { q.takingAll (res.msg.framed.map lineOf) with state := .stateComplete } := if_pos none_
    have unread := congrArg Prod.snd read
    rw [all, done] at unread
    exact unread.symm
  · have present : headerOf (lengthName, decimal res.msg.body.length) ∈ res.msg.framed.map headerOf :=
      List.mem_map_of_mem ((mem_framed distinct).mpr (Or.inl rfl))
    have allowed := lengths (headerOf (lengthName, decimal res.msg.body.length)) present
      (generated_isContentLength res.msg.body.length)
    exact lengthOf_decimal_large (n := res.msg.body.length) allowed
  · intro h listed other
    exact sound h ((mem_framed distinct).mpr (Or.inr ⟨listed, other⟩))
  · exact fun h listed other => framing_of_single distinct single listed other
  · have lines : (headOf res.startLine res.msg.framed res.startLine_clean.plain sound).fields.length = res.msg.framed.length :=
      List.length_map lineOf
    rwa [lines] at count

/-- Whatever calls were made, what they leave is read back as one message with the headers that were set and one
    framing field exactly when it can be sent. -/
theorem unsplit_iff (calls : List ResponseCall) :
    (BbResponse.afterCalls calls).Unsplit ↔ (BbResponse.afterCalls calls).Sendable :=
  ⟨unsplit_sendable (afterCalls_distinct calls), sendable_unsplit (afterCalls_distinct calls)⟩

def splittingCalls : List ResponseCall :=
  [.setHeader ⟨ascii "X-Name", by decide⟩ ⟨ascii "a\r\nSet-Cookie: id=1", by decide⟩]

/-- A value with a line break in it adds a header line. -/
theorem not_unsplit_splitting : ¬ ∀ calls : List ResponseCall, (BbResponse.afterCalls calls).Unsplit := by
  intro claim
  have sendable := unsplit_sendable (afterCalls_distinct splittingCalls) (claim splittingCalls)
  have value := (sendable.sound (ascii "X-Name", ascii "a\r\nSet-Cookie: id=1") (by decide) (by decide)).value
  exact absurd value (by decide)

end BlueBird.Http
