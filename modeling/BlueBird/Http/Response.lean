import BlueBird.Collections.OrderedMap
import BlueBird.Http.Serialized

namespace BlueBird

structure CString where
  bytes : Bytes
  nulFree : 0 ∉ bytes
  deriving DecidableEq

namespace Http

open Message (crlf)

/-! ## Messages as writers fill them -/

namespace Message

theorem set_of_findIdx? {hs : List (Bytes × Bytes)} {name : Bytes} (value : Bytes) :
    (∀ i, hs.findIdx? (·.1 = name) = some i →
        OrderedMap.set hs name value = hs.modify i fun header => (header.1, value)) ∧
      (hs.findIdx? (·.1 = name) = none → OrderedMap.set hs name value = hs ++ [(name, value)]) := by
  induction hs with
  | nil => exact ⟨fun i found => (by cases found), fun _ => rfl⟩
  | cons h hs ih =>
    rw [List.findIdx?_cons, OrderedMap.set]
    by_cases same : h.1 = name
    · rw [if_pos same, if_pos (by simpa using same)]
      constructor
      · intro i found
        rw [← Option.some.inj found]
        rfl
      · intro found
        cases found
    · rw [if_neg same, if_neg (by simpa using same)]
      cases place : hs.findIdx? (·.1 = name) with
      | none =>
        refine ⟨fun i found => (by cases found), fun _ => ?_⟩
        rw [ih.2 place]
        rfl
      | some k =>
        refine ⟨fun i found => ?_, fun found => by cases found⟩
        rw [← Option.some.inj found, ih.1 k place]
        rfl

theorem setHeader_headers (msg : Message) (name value : Bytes) :
    (msg.setHeader name value).headers = OrderedMap.set msg.headers name value := by
  unfold setHeader
  cases place : msg.headers.findIdx? (·.1 = name) with
  | none => exact ((set_of_findIdx? value).2 place).symm
  | some i => exact ((set_of_findIdx? value).1 i place).symm

theorem setHeader_rest (msg : Message) (name value : Bytes) :
    (msg.setHeader name value).startLine = msg.startLine ∧ (msg.setHeader name value).body = msg.body := by
  unfold setHeader
  cases msg.headers.findIdx? (·.1 = name) <;> exact ⟨rfl, rfl⟩

def lengthName : Bytes := ascii "Content-Length"

/-- The headers with the one that `bb_message_serialize` adds. -/
def framed (msg : Message) : List (Bytes × Bytes) := OrderedMap.set msg.headers lengthName (decimal msg.body.length)

theorem serialize_stored (msg : Message) :
    msg.serialize true = msg.startLine ++ crlf ++ (msg.framed.map headerLine).flatten ++ crlf ++ msg.body := by
  have headers := setHeader_headers msg lengthName (decimal msg.body.length)
  rcases setHeader_rest msg lengthName (decimal msg.body.length) with ⟨start, body⟩
  show (msg.setHeader lengthName (decimal msg.body.length)).startLine ++ crlf ++
    ((msg.setHeader lengthName (decimal msg.body.length)).headers.map headerLine).flatten ++ crlf ++
    (msg.setHeader lengthName (decimal msg.body.length)).body = _
  rw [headers, start, body]
  rfl

end Message

/-! ## Responses -/

def statusTexts : List (Int32 × String) :=
  [(200, "OK"), (201, "Created"), (204, "No Content"), (301, "Moved Permanently"), (302, "Found"), (400, "Bad Request"),
    (401, "Unauthorized"), (403, "Forbidden"), (404, "Not Found"), (500, "Internal Server Error"),
    (503, "Service Unavailable")]

def statusTextForCode (code : Int32) : String :=
  match statusTexts.find? (·.1 = code) with
  | some entry => entry.2
  | none => "Unknown"

/-- `bb_response_t`; the start line of its message is set when it is serialized. -/
structure BbResponse where
  statusCode : Int32 := 200
  msg : Message := { startLine := [] }
  deriving DecidableEq

inductive ResponseCall where
  | setStatus (code : Int32)
  | setHeader (name value : CString)
  | setBody (body : Bytes)

def BbResponse.call (res : BbResponse) : ResponseCall → BbResponse
  | .setStatus code => { res with statusCode := code }
  | .setHeader name value => { res with msg := res.msg.setHeader name.bytes value.bytes }
  | .setBody body => { res with msg := { res.msg with body } }

def BbResponse.afterCalls (calls : List ResponseCall) : BbResponse := calls.foldl BbResponse.call {}

def BbResponse.startLine (res : BbResponse) : Bytes :=
  ascii "HTTP/1.1 " ++ decimalInt res.statusCode.toInt ++ ch ' ' :: ascii (statusTextForCode res.statusCode)

def BbResponse.serialize (res : BbResponse) : Bytes := { res.msg with startLine := res.startLine }.serialize true

theorem BbResponse.serialize_eq (res : BbResponse) :
    res.serialize = res.startLine ++ crlf ++ (res.msg.framed.map Message.headerLine).flatten ++ crlf ++ res.msg.body :=
  Message.serialize_stored _

/-! ## The status line -/

theorem statusText_of_all {motive : String → Prop} (known : ∀ entry ∈ statusTexts, motive entry.2) (other : motive "Unknown")
    (code : Int32) : motive (statusTextForCode code) := by
  unfold statusTextForCode
  cases found : statusTexts.find? (·.1 = code) with
  | some entry => exact known entry (List.mem_of_find?_eq_some found)
  | none => exact other

theorem statusText_clean (code : Int32) : cleanReason (ascii (statusTextForCode code)) := by
  apply @statusText_of_all (fun text => cleanReason (ascii text))
  · unfold cleanReason
    decide
  · unfold cleanReason
    decide

theorem statusText_plain (code : Int32) :
    (ascii (statusTextForCode code)).all (fun c => decide (Plain c)) = true ∧
      (ascii (statusTextForCode code)).length ≤ 30 := by
  apply @statusText_of_all (fun text => (ascii text).all (fun c => decide (Plain c)) = true ∧ (ascii text).length ≤ 30)
  · decide
  · decide

theorem isDigit_plain {c : Byte} (digit : isDigit c = true) : Plain c := by
  refine ⟨?_, ?_, ?_⟩
  · rintro rfl
    exact absurd digit (by decide)
  · rintro rfl
    exact absurd digit (by decide)
  · rintro rfl
    exact absurd digit (by decide)

theorem decimalInt_plain (z : Int) : ∀ c ∈ decimalInt z, Plain c := by
  unfold decimalInt
  by_cases negative : z < 0
  · rw [if_pos negative]
    exact List.forall_mem_cons.mpr ⟨by decide, fun c member => isDigit_plain (decimal_isDigit _ c member)⟩
  · rw [if_neg negative]
    exact fun c member => isDigit_plain (decimal_isDigit _ c member)

theorem decimalInt_length (code : Int32) : (decimalInt code.toInt).length ≤ 11 := by
  have lower := code.le_toInt
  have upper := code.toInt_lt
  unfold decimalInt
  by_cases negative : code.toInt < 0
  · rw [if_pos negative, List.length_cons]
    have ten : (decimal code.toInt.natAbs).length ≤ 10 := (decimal_length_le (by decide)).mpr (by omega)
    omega
  · rw [if_neg negative]
    have ten : (decimal code.toInt.toNat).length ≤ 10 := (decimal_length_le (by decide)).mpr (by omega)
    omega

theorem BbResponse.startLine_clean (res : BbResponse) : CleanLine maxRequestLine res.startLine := by
  rcases statusText_plain res.statusCode with ⟨text, short⟩
  have name : (∀ c ∈ ascii "HTTP/1.1 ", Plain c) ∧ (ascii "HTTP/1.1 ").length = 9 := ⟨forall_of_all (by decide), by decide⟩
  unfold BbResponse.startLine
  constructor
  · intro c member
    rcases List.mem_append.mp member with front | tail
    · rcases List.mem_append.mp front with version | number
      · exact name.1 c version
      · exact decimalInt_plain _ c number
    · rcases List.mem_cons.mp tail with rfl | inside
      · decide
      · exact forall_of_all text c inside
  · have digits := decimalInt_length res.statusCode
    rw [List.length_append, List.length_append, List.length_cons, name.2]
    unfold maxRequestLine
    omega

theorem BbResponse.started_startLine (res : BbResponse) :
    if 100 ≤ res.statusCode.toInt ∧ res.statusCode.toInt ≤ 999 then
      ∃ q, started true res.startLine = some q ∧ q.response.statusCode = res.statusCode.toInt.toNat
    else started true res.startLine = none := by
  have read := parseResponseLine_status res.statusCode.toInt (statusText_clean res.statusCode) {}
  have unfolded : started true res.startLine = (parseResponseLine res.startLine {}).toOption.map fun response =>
      { state := .headers, responseMode := true, response, lineLimit := maxHeaderSize } := rfl
  rw [unfolded]
  unfold BbResponse.startLine
  by_cases three : 100 ≤ res.statusCode.toInt ∧ res.statusCode.toInt ≤ 999
  · rw [if_pos three] at read ⊢
    rw [read]
    exact ⟨_, rfl, rfl⟩
  · rw [if_neg three] at read ⊢
    rcases read with ⟨e, error⟩
    rw [error]
    rfl

end Http
end BlueBird
