import Mathlib.Data.List.Nodup
import BlueBird.Http.Splitting

namespace BlueBird.Http

open Message (crlf lengthName)

/-! ## Client requests -/

/-- `bb_client_request_t`, as far as its serialization reads it. -/
structure ClientRequest where
  method : Option Bytes := none
  path : Option Bytes := none
  msg : Message := { startLine := [] }
  deriving DecidableEq

def startLineSize : Nat := maxRequestLine + methodSize + 16

def ClientRequest.methodText (req : ClientRequest) : Bytes := req.method.getD (ascii "GET")

def ClientRequest.pathText (req : ClientRequest) : Bytes := req.path.getD (ascii "/")

/-- `snprintf` cuts what does not fit. -/
def ClientRequest.startLine (req : ClientRequest) : Bytes :=
  (req.methodText ++ ch ' ' :: (req.pathText ++ ascii " HTTP/1.1")).take (startLineSize - 1)

def ClientRequest.serialize (req : ClientRequest) : Bytes := { req.msg with startLine := req.startLine }.serialize true

/-- A token for a method and an origin-form target that the parser admits. -/
structure ClientRequest.Admitted (req : ClientRequest) : Prop where
  method : req.methodText ≠ []
  token : req.methodText.all isTchar = true
  short : req.methodText.length < methodSize
  origin : req.pathText.head? = some (ch '/')
  clean : (req.pathText.any fun c => c = ch ' ' ∨ c < 0x20 ∨ c = 0x7F) = false
  sane : sanitizeRequestTarget req.pathText = .ok ()
  fits : (req.methodText ++ ch ' ' :: (req.pathText ++ ascii " HTTP/1.1")).length ≤ maxRequestLine

section
variable {m t : Bytes} (token : m.all isTchar = true) (unbroken : t.any (fun c => c = ch ' ' ∨ c < 0x20 ∨ c = 0x7F) = false)

include token in
theorem methodOf_written (tail : Bytes) : methodOf (m ++ ch ' ' :: tail) = m := by
  have all : ∀ c ∈ m, decide (c ≠ ch ' ') = true := by
    intro c member
    apply decide_eq_true
    rintro rfl
    exact absurd (List.all_eq_true.mp token _ member) (by decide)
  unfold methodOf
  rw [List.takeWhile_append_of_pos all, List.takeWhile_cons_of_neg (by decide), List.append_nil]

include token in
theorem afterMethod_written (tail : Bytes) : afterMethod (m ++ ch ' ' :: tail) = tail := by
  unfold afterMethod
  rw [methodOf_written token, List.drop_append, List.drop_of_length_le (by omega)]
  have one : m.length + 1 - m.length = 1 := by omega
  rw [one]
  rfl

include token in
theorem versionOf_written : versionOf (m ++ ch ' ' :: (t ++ ascii " HTTP/1.1")) = ascii "HTTP/1.1" := by
  have reversed : (t ++ ascii " HTTP/1.1").reverse = (ascii "HTTP/1.1").reverse ++ ch ' ' :: t.reverse := by
    rw [List.reverse_append]
    rfl
  have all : ∀ c ∈ (ascii "HTTP/1.1").reverse, decide (c ≠ ch ' ') = true := forall_of_all (by decide)
  unfold versionOf
  rw [afterMethod_written token, reversed, List.takeWhile_append_of_pos all, List.takeWhile_cons_of_neg (by decide),
    List.append_nil, List.reverse_reverse]

include token in
theorem targetOf_written : targetOf (m ++ ch ' ' :: (t ++ ascii " HTTP/1.1")) = t := by
  unfold targetOf
  rw [versionOf_written token, afterMethod_written token]
  have nine : (ascii " HTTP/1.1").length = 9 := by decide
  have eight : (ascii "HTTP/1.1").length = 8 := by decide
  rw [List.length_append, nine, eight, List.take_append_of_le_length (by omega), List.take_of_length_le (by omega)]

end

theorem admitted_requestLine {req : ClientRequest} (admitted : req.Admitted) :
    req.startLine = req.methodText ++ ch ' ' :: (req.pathText ++ ascii " HTTP/1.1") := by
  have fits := admitted.fits
  unfold ClientRequest.startLine startLineSize
  exact List.take_of_length_le (by unfold maxRequestLine methodSize at *; omega)

theorem admitted_started {req : ClientRequest} (admitted : req.Admitted) :
    ∃ q, started false req.startLine = some q ∧ q.request.method = req.methodText ∧ q.request.target = req.pathText := by
  have line := admitted_requestLine admitted
  have method := methodOf_written admitted.token (req.pathText ++ ascii " HTTP/1.1")
  have target := @targetOf_written req.methodText req.pathText admitted.token
  have version := @versionOf_written req.methodText req.pathText admitted.token
  have after := afterMethod_written admitted.token (req.pathText ++ ascii " HTTP/1.1")
  rw [← line] at method target version after
  have nine : (ascii " HTTP/1.1").length = 9 := by decide
  have eight : (ascii "HTTP/1.1").length = 8 := by decide
  have fits := admitted.fits
  have some_ : req.pathText ≠ [] := by
    intro empty
    have origin := admitted.origin
    rw [empty] at origin
    cases origin
  have valid : RequestLine req.startLine := by
    refine ⟨?_, ?_, ?_, ?_, ?_, ?_, ?_, ?_, ?_⟩
    · rw [method]
      exact fun empty => admitted.method (List.length_eq_zero_iff.mp empty)
    · rw [method, line, List.length_append, List.length_cons]
      omega
    · rw [method]
      exact admitted.token
    · rw [method]
      exact admitted.short
    · rw [version, after, List.length_append, nine, eight]
      omega
    · rw [target]
      exact fun empty => some_ (List.length_eq_zero_iff.mp empty)
    · rw [target]
      exact admitted.clean
    · rw [target]
      rw [List.length_append, List.length_cons, List.length_append, nine] at fits
      unfold targetSize
      omega
    · rw [target]
      exact admitted.sane
  have read : parseRequestLine req.startLine {} =
      .ok {
        method := methodOf req.startLine
        target := targetOf req.startLine
        versionMajor := digitValue (ch '1')
        versionMinor := digitValue (ch '1') } :=
    parseRequestLine_ok.mpr ⟨valid, withVersion_ok.mpr ⟨ch '1', ch '1', version, rfl, rfl, rfl⟩⟩
  have unfolded : started false req.startLine = (parseRequestLine req.startLine {}).toOption.map fun request =>
      { state := .headers, request, lineLimit := maxHeaderSize } := rfl
  rw [unfolded, read]
  exact ⟨_, rfl, method, target⟩

theorem target_plain {c : Byte} (clean : ¬ (c = ch ' ' ∨ c < 0x20 ∨ c = 0x7F)) : Plain c := by
  refine ⟨?_, ?_, ?_⟩
  · rintro rfl
    exact clean (by decide)
  · rintro rfl
    exact clean (by decide)
  · rintro rfl
    exact clean (by decide)

theorem requestLine_plain {m t : Bytes} (token : m.all isTchar = true)
    (unbroken : t.any (fun c => c = ch ' ' ∨ c < 0x20 ∨ c = 0x7F) = false) :
    ∀ c ∈ m ++ ch ' ' :: (t ++ ascii " HTTP/1.1"), Plain c := by
  intro c member
  rcases List.mem_append.mp member with method | tail
  · exact (tchar_plain (List.all_eq_true.mp token c method)).1
  · rcases List.mem_cons.mp tail with rfl | later
    · decide
    · rcases List.mem_append.mp later with target | version
      · have clean := List.any_eq_false.mp unbroken c target
        rw [decide_eq_true_eq] at clean
        exact target_plain clean
      · have all : ∀ c ∈ ascii " HTTP/1.1", Plain c := forall_of_all (by decide)
        exact all c version

theorem admitted_clean {req : ClientRequest} (admitted : req.Admitted) : CleanLine maxRequestLine req.startLine := by
  rw [admitted_requestLine admitted]
  exact ⟨requestLine_plain admitted.token admitted.clean, admitted.fits⟩

/-! ## Both directions -/

/-- Headers that are tokens, distinct without regard to case and none of them a framing field, with clean values,
    and a body, all within the limits of the parser. -/
structure Message.Ordinary (msg : Message) : Prop where
  sound : ∀ h ∈ msg.headers, WellFormed (headerOf h)
  distinct : (msg.headers.map fun h => h.1.map toLower).Nodup
  framing : ∀ h ∈ msg.headers, isFraming (headerOf h) = false
  body : msg.body.length ≤ maxBodySize
  count : msg.headers.length + 1 ≤ maxHeaderCount
  bytes : sectionBytes ((msg.headers ++ [(lengthName, decimal msg.body.length)]).map lineOf) ≤ maxHeaderSize

theorem ordinary_distinct {msg : Message} (ordinary : msg.Ordinary) : OrderedMap.Distinct msg.headers := by
  have distinct := ordinary.distinct
  rw [show (msg.headers.map fun h => h.1.map toLower) = (msg.headers.map (·.1)).map (·.map toLower) by
    rw [List.map_map]
    rfl] at distinct
  exact List.Nodup.of_map (·.map toLower) distinct

theorem ordinary_framed {msg : Message} (ordinary : msg.Ordinary) :
    msg.framed = msg.headers ++ [(lengthName, decimal msg.body.length)] := by
  apply OrderedMap.set_of_absent
  intro present
  rcases List.mem_map.mp present with ⟨h, member, name⟩
  have other := (isFraming_false.mp (ordinary.framing h member)).1
  have same : isContentLength (headerOf h) = strCaseEq h.1 (ascii "content-length") := rfl
  rw [same, name] at other
  exact absurd other (by decide)

theorem ordinary_readable {msg : Message} (ordinary : msg.Ordinary) : Readable msg.framed msg.body where
  sound := by
    intro h member
    rcases (mem_framed (ordinary_distinct ordinary)).mp member with rfl | ⟨listed, _⟩
    · exact generated_wellFormed _
    · exact ordinary.sound h listed
  count := by
    rw [ordinary_framed ordinary, List.length_append]
    exact ordinary.count
  bytes := by
    rw [ordinary_framed ordinary]
    exact ordinary.bytes
  length := ⟨lengthName, filter_framed (ordinary_distinct ordinary) (generated_isContentLength _) fun h member _ =>
    (isFraming_false.mp (ordinary.framing h member)).1⟩
  encoding := by
    intro h member
    rcases (mem_framed (ordinary_distinct ordinary)).mp member with rfl | ⟨listed, _⟩
    · exact isTransferEncoding_of_length (generated_isContentLength _)
    · exact (isFraming_false.mp (ordinary.framing h listed)).2
  body := ordinary.body

inductive Outgoing where
  | response (res : BbResponse)
  | request (req : ClientRequest)

def Outgoing.isResponse : Outgoing → Bool
  | .response _ => true
  | .request _ => false

def Outgoing.msg : Outgoing → Message
  | .response res => res.msg
  | .request req => req.msg

def Outgoing.serialize : Outgoing → Bytes
  | .response res => res.serialize
  | .request req => req.serialize

/-- A status of three digits that may carry a body, or a method and a target that the parser admits. -/
def Outgoing.Admitted : Outgoing → Prop
  | .response res => 200 ≤ res.statusCode.toInt ∧ res.statusCode.toInt ≤ 999 ∧ ¬ bodilessStatus res.statusCode.toInt
  | .request req => req.Admitted

def Outgoing.SameStart (out : Outgoing) (p : ParserCore) : Prop :=
  match out with
  | .response res => (p.response.statusCode : Int) = res.statusCode.toInt
  | .request req => p.request.method = req.methodText ∧ p.request.target = req.pathText

theorem outgoing_reads {out : Outgoing} (admitted : out.Admitted) (ordinary : out.msg.Ordinary) :
    ((freshCore out.isResponse).reads out.serialize).1.status = .complete ∧
      ((freshCore out.isResponse).reads out.serialize).2 = [] ∧
      out.SameStart ((freshCore out.isResponse).reads out.serialize).1 ∧
      ((freshCore out.isResponse).reads out.serialize).1.activeHeaders = out.msg.framed.map headerOf ∧
      ((freshCore out.isResponse).reads out.serialize).1.activeBody = out.msg.body := by
  have readable := ordinary_readable ordinary
  cases out with
  | response res =>
    rcases admitted with ⟨lower, upper, bodied⟩
    have started_ := res.started_startLine
    rw [if_pos ⟨by omega, upper⟩] at started_
    rcases started_ with ⟨q, taken, code⟩
    rcases reads_message readable res.startLine_clean taken res.serialize_eq with ⟨complete, start, fields, _, read⟩
    have bare : q.bodiless = false := by
      apply Bool.eq_false_iff.mpr
      intro none_
      exact bodied ((bodiless_iff (started_spec taken).2.1 code (by omega)).mp none_)
    refine ⟨complete, (read bare).1, ?_, fields, (read bare).2⟩
    have status : ((freshCore true).reads res.serialize).1.response.statusCode = q.response.statusCode :=
      congrArg (fun data => data.2.2.statusCode) start
    show (((freshCore true).reads res.serialize).1.response.statusCode : Int) = _
    rw [status, code]
    omega
  | request req =>
    rcases admitted_started admitted with ⟨q, taken, method, target⟩
    have written : req.serialize = req.startLine ++ crlf ++ (req.msg.framed.map Message.headerLine).flatten ++ crlf ++ req.msg.body :=
      Message.serialize_stored _
    rcases reads_message readable (admitted_clean admitted) taken written with ⟨complete, start, fields, _, read⟩
    have bare : q.bodiless = false := by
      unfold ParserCore.bodiless
      rw [(started_spec taken).2.1]
      simp
    refine ⟨complete, (read bare).1, ?_, fields, (read bare).2⟩
    have kept := congrArg (fun data => data.2.1) start
    exact ⟨(congrArg Request.method kept).trans method, (congrArg Request.target kept).trans target⟩

/-- What is written is read back: all of it, and as it was. -/
theorem serialize_roundTrip (out : Outgoing) (admitted : out.Admitted) (ordinary : out.msg.Ordinary) (fragments : List Bytes)
    (cut : fragments.flatten = out.serialize) :
    (feedFragments (freshParser out.isResponse) fragments).1 = .complete ∧
      (feedFragments (freshParser out.isResponse) fragments).2.2 = out.serialize.length ∧
      out.SameStart (feedFragments (freshParser out.isResponse) fragments).2.1.toParserCore ∧
      (feedFragments (freshParser out.isResponse) fragments).2.1.activeHeaders =
        (out.msg.headers ++ [(lengthName, decimal out.msg.body.length)]).map headerOf ∧
      (feedFragments (freshParser out.isResponse) fragments).2.1.activeBody = out.msg.body := by
  rcases outgoing_reads admitted ordinary with ⟨complete, all, start, fields, body⟩
  rcases feedFragments_reads out.isResponse fragments with ⟨status, core, consumed⟩
  rw [cut] at status core consumed
  rw [← core] at start fields body
  refine ⟨status.trans complete, ?_, ?_, ?_, body⟩
  · rw [consumed, all]
    rfl
  · cases out with
    | response res => exact start
    | request req => exact start
  · rw [← ordinary_framed ordinary]
    exact fields

def postedRequest : ClientRequest where
  method := some (ascii "POST")
  path := some (ascii "/a%20b?c=d")
  msg := {
    startLine := []
    headers := [(ascii "Host", ascii "localhost")]
    body := ascii "x\r\n" }

theorem postedRequest_ordinary : postedRequest.msg.Ordinary where
  sound := by
    intro h member
    rw [List.mem_singleton.mp member]
    exact ⟨by decide, by decide, by decide, by decide⟩
  distinct := by decide
  framing := by decide
  body := by decide
  count := by decide
  bytes := by decide

theorem serialize_roundTrip_posted :
    (feedFragments (freshParser false) [postedRequest.serialize]).1 = .complete ∧
      (feedFragments (freshParser false) [postedRequest.serialize]).2.1.activeBody = ascii "x\r\n" := by
  have admitted : postedRequest.Admitted :=
    ⟨by decide, by decide, by decide, by decide, by decide, by decide +kernel, by decide⟩
  have back := serialize_roundTrip (.request postedRequest) admitted postedRequest_ordinary [postedRequest.serialize]
    (List.append_nil _)
  exact ⟨back.1, back.2.2.2.2⟩

end BlueBird.Http
