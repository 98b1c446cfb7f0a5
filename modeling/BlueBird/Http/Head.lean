import Mathlib.Data.List.DropRight
import BlueBird.Http.Phases
import BlueBird.Http.StartLine
import BlueBird.Program.Outcome

namespace BlueBird.Http

open Message (crlf)

/-- The lines of a message up to the empty one, however they read. -/
structure Head where
  start : Bytes
  fields : List Bytes
  unbroken : ∀ line ∈ start :: fields, ∀ c ∈ line, c ≠ ch '\r' ∧ c ≠ ch '\n'
  nonempty : ∀ line ∈ fields, line ≠ []

def ended (lines : List Bytes) : Bytes := (lines.map (· ++ crlf)).flatten

def Head.bytes (head : Head) : Bytes := head.start ++ crlf ++ ended head.fields ++ crlf

/-- The name up to the colon and the value without the blanks around it. -/
def fieldOf (line : Bytes) : Header where
  name := line.takeWhile (· ≠ ch ':')
  value := trimBlanks (line.drop ((line.takeWhile (· ≠ ch ':')).length + 1))

def Head.headers (head : Head) : List Header := head.fields.map fieldOf

def isContentLength (h : Header) : Bool := strCaseEq h.name (ascii "content-length")
def isTransferEncoding (h : Header) : Bool := strCaseEq h.name (ascii "transfer-encoding")

/-! ## One field line -/

/-- What `parseFieldLine` stores. -/
structure WellFormed (h : Header) : Prop where
  name : h.name ≠ []
  token : h.name.all isTchar = true
  value : h.value.any (fun c => (c < 0x20 ∧ c ≠ ch '\t') ∨ c = 0x7F) = false
  trimmed : trimBlanks h.value = h.value

theorem trimBlanks_eq_self {v : Bytes} :
    trimBlanks v = v ↔ v.dropWhile isBlank = v ∧ v.rdropWhile isBlank = v := by
  constructor
  · intro trimmed
    have left : v.dropWhile isBlank = v := by
      have shorter := (List.dropWhile_suffix isBlank (l := v)).length_le
      have cut := (List.rdropWhile_prefix isBlank (v.dropWhile isBlank)).length_le
      have whole : (List.rdropWhile isBlank (v.dropWhile isBlank)).length = v.length := congrArg List.length trimmed
      exact (List.dropWhile_suffix isBlank).eq_of_length (by omega)
    refine ⟨left, ?_⟩
    have trimmed : (v.dropWhile isBlank).rdropWhile isBlank = v := trimmed
    rw [left] at trimmed
    exact trimmed
  · rintro ⟨left, right⟩
    show (v.dropWhile isBlank).rdropWhile isBlank = v
    rw [left, right]

theorem trimBlanks_idem (v : Bytes) : trimBlanks (trimBlanks v) = trimBlanks v := by
  have right : (trimBlanks v).rdropWhile isBlank = trimBlanks v := List.rdropWhile_idempotent isBlank (v.dropWhile isBlank)
  refine trimBlanks_eq_self.mpr ⟨?_, right⟩
  have front : trimBlanks v <+: v.dropWhile isBlank := List.rdropWhile_prefix isBlank _
  have kept : (v.dropWhile isBlank).dropWhile isBlank = v.dropWhile isBlank := List.dropWhile_idempotent isBlank v
  cases trimmed : trimBlanks v with
  | nil => rfl
  | cons c rest =>
    rw [trimmed] at front
    rcases front with ⟨tail, split⟩
    rw [← split, List.cons_append] at kept
    by_cases blank : isBlank c = true
    · rw [List.dropWhile_cons, if_pos blank] at kept
      have shorter := (List.dropWhile_suffix isBlank (l := rest ++ tail)).length_le
      rw [kept, List.length_cons] at shorter
      omega
    · rw [List.dropWhile_cons, if_neg blank]

theorem fieldLine_eq (line : Bytes) (count maxCount total maxBytes : Nat) :
    parseFieldLine line count maxCount total maxBytes =
      if line.head?.any isBlank then .error "obsolete line folding is not supported"
      else if (fieldOf line).name.length = 0 ∨ (fieldOf line).name.length = line.length then
        .error "malformed field line: missing ':'"
      else if !(fieldOf line).name.all isTchar then .error "invalid character in field name"
      else if (fieldOf line).value.any (fun c => (c < 0x20 ∧ c ≠ ch '\t') ∨ c = 0x7F) then
        .error "invalid character in field value"
      else if count ≥ maxCount then .error "too many header/trailer fields"
      else if total + (line.length + 2) > maxBytes then .error "header/trailer section too large"
      else .ok (fieldOf line, total + (line.length + 2)) := by
  rfl

theorem parseFieldLine_ok {line : Bytes} {count maxCount total maxBytes : Nat} {h : Header} {after : Nat} :
    parseFieldLine line count maxCount total maxBytes = .ok (h, after) ↔
      h = fieldOf line ∧ after = total + (line.length + 2) ∧ line.head?.any isBlank = false ∧
        (fieldOf line).name ≠ [] ∧ (fieldOf line).name.length ≠ line.length ∧ (fieldOf line).name.all isTchar = true ∧
        (fieldOf line).value.any (fun c => (c < 0x20 ∧ c ≠ ch '\t') ∨ c = 0x7F) = false ∧
        count < maxCount ∧ total + (line.length + 2) ≤ maxBytes := by
  rw [fieldLine_eq]
  split
  case isTrue folded => simp [folded]
  case isFalse unfolded =>
    split
    case isTrue missing => simp; grind
    case isFalse colon =>
      split
      case isTrue bad => simp; grind
      case isFalse token =>
        split
        case isTrue bad => simp; grind
        case isFalse clean =>
          split
          case isTrue full => simp; grind
          case isFalse room =>
            split
            case isTrue large => simp; grind
            case isFalse small => simp; grind

/-! ## The framing fields -/

def codings (value : Bytes) : List Bytes := value.splitOn (ch ',')

/-- The codings without an empty last one. -/
def listed (tokens : List Bytes) : List Bytes := if tokens.getLast? = some [] then tokens.dropLast else tokens

def isChunked (token : Bytes) : Bool := strCaseEq (trimBlanks token) (ascii "chunked")

def lengthOf (value : Bytes) : Option Nat := (applyContentLength false value).toOption

theorem listed_nil : listed [] = [] := rfl

theorem listed_empty : listed [[]] = [] := rfl

theorem listed_cons {token : Bytes} {tokens : List Bytes} (real : token ≠ [] ∨ tokens ≠ []) :
    listed (token :: tokens) = token :: listed tokens := by
  unfold listed
  cases tokens with
  | nil =>
    have full : token ≠ [] := real.elim id fun more => absurd rfl more
    simp [full]
  | cons t ts =>
    rw [List.getLast?_cons_cons]
    by_cases last : (t :: ts).getLast? = some []
    · rw [if_pos last, if_pos last, List.dropLast_cons_cons]
    · rw [if_neg last, if_neg last]

theorem listed_eq_nil {tokens : List Bytes} : listed tokens = [] ↔ tokens = [] ∨ tokens = [[]] := by
  cases tokens with
  | nil => simp [listed_nil]
  | cons token tokens =>
    by_cases real : token ≠ [] ∨ tokens ≠ []
    · rw [listed_cons real]
      rcases real with full | more
      · simp [full]
      · simp [more]
    · rcases not_or.mp real with ⟨empty, none⟩
      rw [Decidable.not_not.mp empty, Decidable.not_not.mp none]
      simp [listed_empty]

theorem transferCodings_cons (chunked : Bool) {token : Bytes} {tokens : List Bytes} (real : token ≠ [] ∨ tokens ≠ []) :
    transferCodings chunked (token :: tokens) =
      if isChunked token then transferCodings true tokens
      else .error (chunked, "unsupported Transfer-Encoding coding") := by
  have last : ¬ (token = [] ∧ tokens = []) := by
    rcases real with full | more
    · exact fun both => full both.1
    · exact fun both => more both.2
  rw [transferCodings]
  · rfl
  · exact fun empty none => last ⟨empty, none⟩

theorem transferCodings_ok {chunked r : Bool} {tokens : List Bytes} :
    transferCodings chunked tokens = .ok r ↔
      (∀ token ∈ listed tokens, isChunked token = true) ∧ (chunked || !(listed tokens).isEmpty) = r := by
  induction tokens generalizing chunked with
  | nil => simp [transferCodings, listed_nil]
  | cons token tokens ih =>
    by_cases real : token ≠ [] ∨ tokens ≠ []
    · rw [transferCodings_cons chunked real, listed_cons real]
      by_cases first : isChunked token = true
      · rw [if_pos first, ih]
        simp [first]
      · rw [if_neg first]
        simp [first]
    · rcases not_or.mp real with ⟨empty, none⟩
      rw [Decidable.not_not.mp empty, Decidable.not_not.mp none]
      simp [transferCodings, listed_empty]

theorem codings_ne_nil (value : Bytes) : codings value ≠ [] := List.splitOn_ne_nil (ch ',') value

theorem listed_codings_nil {value : Bytes} : listed (codings value) = [] ↔ value = [] := by
  rw [listed_eq_nil, or_iff_right (codings_ne_nil value)]
  constructor
  · intro single
    have joined : [ch ','].intercalate (value.splitOn (ch ',')) = value := List.intercalate_splitOn (ch ',')
    unfold codings at single
    rw [single] at joined
    exact joined.symm
  · rintro rfl
    rfl

/-- A value that `apply_transfer_encoding` takes, whether or not an earlier field was chunked. -/
def OnlyChunked (value : Bytes) : Prop := ∀ token ∈ listed (codings value), isChunked token = true

theorem applyTransferEncoding_ok {chunked r : Bool} {value : Bytes} :
    applyTransferEncoding chunked value = .ok r ↔
      OnlyChunked value ∧ (chunked = true ∨ value ≠ []) ∧ r = true := by
  have read : ∀ c, transferCodings chunked (codings value) = .ok c ↔
      OnlyChunked value ∧ (chunked || !(listed (codings value)).isEmpty) = c := fun c => transferCodings_ok
  have unfolded : applyTransferEncoding chunked value =
      (transferCodings chunked (codings value) >>= fun c =>
        if !c then .error (c, "Transfer-Encoding did not resolve to chunked") else .ok c) := rfl
  have empty : (listed (codings value)).isEmpty = true ↔ value = [] := by
    rw [List.isEmpty_iff, listed_codings_nil]
  rw [unfolded]
  cases scanned : transferCodings chunked (codings value) with
  | error e =>
    have refused : ¬ OnlyChunked value := by
      intro only
      have taken := (read _).mpr ⟨only, rfl⟩
      rw [scanned] at taken
      cases taken
    simp [bind, Except.bind, refused]
  | ok c =>
    rcases (read c).mp scanned with ⟨only, flag⟩
    have kept : c = true ↔ chunked = true ∨ value ≠ [] := by
      rw [← flag, Bool.or_eq_true, Bool.not_eq_true', ← Bool.not_eq_true, empty]
    cases c with
    | true => simp [bind, Except.bind, only, kept.mp rfl, eq_comm]
    | false =>
      have neither : ¬ (chunked = true ∨ value ≠ []) := fun held => Bool.false_ne_true (kept.mpr held)
      simp [bind, Except.bind, neither]

theorem applyContentLength_ok {seen : Bool} {value : Bytes} {n : Nat} :
    applyContentLength seen value = .ok n ↔ seen = false ∧ lengthOf value = some n := by
  cases seen with
  | true =>
    have refused : applyContentLength true value = .error "duplicate Content-Length header" := rfl
    rw [refused]
    simp
  | false =>
    unfold lengthOf
    cases applyContentLength false value with
    | error e => simp [Except.toOption]
    | ok m => simp [Except.toOption]

theorem isTransferEncoding_of_length {h : Header} (length : isContentLength h = true) : isTransferEncoding h = false := by
  unfold isContentLength strCaseEq at length
  unfold isTransferEncoding strCaseEq
  rw [beq_iff_eq] at length
  rw [length]
  decide

/-! ## Taking one field -/

structure ParserCore.InHeaders (p : ParserCore) : Prop where
  state : p.state = .headers
  limit : p.lineLimit = maxHeaderSize
  empty : p.lineBuf = []
  quiet : p.lineSawCr = false

theorem ParserCore.InHeaders.fresh {p : ParserCore} (ready : p.InHeaders) : p.Fresh where
  line := by rw [ready.state]; rfl
  empty := ready.empty
  quiet := ready.quiet

structure FieldLine (line : Bytes) : Prop where
  clean : CleanLine maxHeaderSize line
  unfolded : line.head?.any isBlank = false
  name : (fieldOf line).name ≠ []
  colon : (fieldOf line).name.length ≠ line.length
  token : (fieldOf line).name.all isTchar = true
  value : (fieldOf line).value.any (fun c => (c < 0x20 ∧ c ≠ ch '\t') ∨ c = 0x7F) = false

def ParserCore.framed (p : ParserCore) (h : Header) : ParserCore :=
  { p with
    hasContentLength := p.hasContentLength || isContentLength h
    contentLength := if isContentLength h then (lengthOf h.value).getD 0 else p.contentLength
    hasTransferEncoding := p.hasTransferEncoding || isTransferEncoding h
    transferChunked := p.transferChunked || isTransferEncoding h }.resetLine maxHeaderSize

def ParserCore.taking (p : ParserCore) (line : Bytes) : ParserCore :=
  (p.storeField (fieldOf line) (p.headerBytesTotal + (line.length + 2))).framed (fieldOf line)

structure ParserCore.Takes (p : ParserCore) (line : Bytes) : Prop where
  field : FieldLine line
  count : p.activeHeaders.length < maxHeaderCount
  total : p.headerBytesTotal + (line.length + 2) ≤ maxHeaderSize
  length : isContentLength (fieldOf line) = true → p.hasContentLength = false ∧ lengthOf (fieldOf line).value ≠ none
  encoding : isTransferEncoding (fieldOf line) = true →
    OnlyChunked (fieldOf line).value ∧ (p.transferChunked = true ∨ (fieldOf line).value ≠ [])

def ParserCore.Frames (p : ParserCore) (h : Header) : Prop :=
  (isContentLength h = true → p.hasContentLength = false ∧ lengthOf h.value ≠ none) ∧
    (isTransferEncoding h = true → OnlyChunked h.value ∧ (p.transferChunked = true ∨ h.value ≠ []))

theorem frame_length {p : ParserCore} {h : Header} (length : isContentLength h = true) :
    p.frame h = match applyContentLength p.hasContentLength h.value with
      | .error msg => (.error, p.setError msg)
      | .ok contentLength => (.next, { p with hasContentLength := true, contentLength }.resetLine maxHeaderSize) :=
  if_pos length

theorem frame_encoding {p : ParserCore} {h : Header} (length : isContentLength h ≠ true) (encoding : isTransferEncoding h = true) :
    p.frame h = match applyTransferEncoding p.transferChunked h.value with
      | .error (transferChunked, msg) => (.error, { p with transferChunked }.setError msg)
      | .ok transferChunked =>
        (.next, { p with hasTransferEncoding := true, transferChunked }.resetLine maxHeaderSize) :=
  (if_neg length).trans (if_pos encoding)

theorem frame_other {p : ParserCore} {h : Header} (length : isContentLength h ≠ true) (encoding : isTransferEncoding h ≠ true) :
    p.frame h = (.next, p.resetLine maxHeaderSize) :=
  (if_neg length).trans (if_neg encoding)

theorem frame_spec (p : ParserCore) (h : Header) :
    (p.Frames h ∧ p.frame h = (.next, p.framed h)) ∨
      (¬ p.Frames h ∧ (p.frame h).1 = .error ∧ (p.frame h).2.state = .stateError) := by
  by_cases length : isContentLength h = true
  · have other := isTransferEncoding_of_length length
    rw [frame_length length]
    cases applied : applyContentLength p.hasContentLength h.value with
    | error e =>
      right
      refine ⟨?_, rfl, rfl⟩
      rintro ⟨lengths, _⟩
      rcases lengths length with ⟨first, some_⟩
      rcases Option.ne_none_iff_exists'.mp some_ with ⟨n, value⟩
      rw [applyContentLength_ok.mpr ⟨first, value⟩] at applied
      cases applied
    | ok n =>
      left
      rcases applyContentLength_ok.mp applied with ⟨first, value⟩
      refine ⟨⟨fun _ => ⟨first, by simp [value]⟩, fun encoding => ?_⟩, ?_⟩
      · rw [other] at encoding
        cases encoding
      · simp only [ParserCore.framed, length, other, value, Bool.or_true, Bool.or_false, if_true, Option.getD_some]
  · have notLength : isContentLength h = false := Bool.eq_false_iff.mpr length
    by_cases encoding : isTransferEncoding h = true
    · rw [frame_encoding length encoding]
      cases applied : applyTransferEncoding p.transferChunked h.value with
      | error e =>
        right
        refine ⟨?_, rfl, rfl⟩
        rintro ⟨_, encodings⟩
        rcases encodings encoding with ⟨only, value⟩
        rw [applyTransferEncoding_ok.mpr ⟨only, value, rfl⟩] at applied
        cases applied
      | ok c =>
        left
        rcases applyTransferEncoding_ok.mp applied with ⟨only, value, rfl⟩
        refine ⟨⟨fun held => absurd held length, fun _ => ⟨only, value⟩⟩, ?_⟩
        simp only [ParserCore.framed, notLength, encoding, Bool.or_true, Bool.or_false, Bool.false_eq_true, if_false]
    · have notEncoding : isTransferEncoding h = false := Bool.eq_false_iff.mpr encoding
      left
      refine ⟨⟨fun held => absurd held length, fun held => absurd held encoding⟩, ?_⟩
      rw [frame_other length encoding]
      simp only [ParserCore.framed, notLength, notEncoding, Bool.or_false, Bool.false_eq_true, if_false]

theorem storeField_frames (p : ParserCore) (h g : Header) (total : Nat) :
    (p.storeField h total).Frames g ↔ p.Frames g := by
  unfold ParserCore.storeField ParserCore.pushHeader
  by_cases mode : p.responseMode = true
  · rw [if_pos mode]
    exact Iff.rfl
  · rw [if_neg mode]
    exact Iff.rfl

theorem storeField_holding (p : ParserCore) (line : Bytes) (h : Header) (total : Nat) :
    ((p.holding line).storeField h total).framed h = (p.storeField h total).framed h := by
  unfold ParserCore.storeField ParserCore.pushHeader ParserCore.framed ParserCore.holding
  by_cases mode : p.responseMode = true
  · rw [if_pos mode, if_pos mode]
    rfl
  · rw [if_neg mode, if_neg mode]
    rfl

theorem parseHeader_spec {p : ParserCore} {line : Bytes} (clean : CleanLine maxHeaderSize line) :
    (p.Takes line ∧ (p.holding line).parseHeader = (.next, p.taking line)) ∨
      (¬ p.Takes line ∧ (p.holding line).parseHeader.1 = .error ∧ (p.holding line).parseHeader.2.state = .stateError) := by
  cases parsed : parseFieldLine line p.activeHeaders.length maxHeaderCount p.headerBytesTotal maxHeaderSize with
  | error msg =>
    right
    rw [parseHeader_error (p := p.holding line) parsed]
    refine ⟨?_, rfl, rfl⟩
    rintro ⟨field, count, total, _, _⟩
    have taken := parseFieldLine_ok.mpr ⟨rfl, rfl, field.unfolded, field.name, field.colon, field.token, field.value,
      count, total⟩
    rw [parsed] at taken
    cases taken
  | ok r =>
    rcases parseFieldLine_ok.mp parsed with ⟨header, total, unfolded, name, colon, token, value, count, fits⟩
    rw [parseHeader_ok (p := p.holding line) parsed, header, total]
    rcases frame_spec ((p.holding line).storeField (fieldOf line) (p.headerBytesTotal + (line.length + 2))) (fieldOf line)
      with ⟨frames, next⟩ | ⟨refused, error⟩
    · left
      rcases (storeField_frames (p.holding line) _ _ _).mp frames with ⟨length, encoding⟩
      refine ⟨⟨⟨clean, unfolded, name, colon, token, value⟩, count, fits, length, encoding⟩, ?_⟩
      rw [next, storeField_holding]
      rfl
    · right
      refine ⟨fun taken => refused ((storeField_frames (p.holding line) _ _ _).mpr ⟨taken.length, taken.encoding⟩), error⟩

/-! ## The header section -/

def ParserCore.takingAll (p : ParserCore) (lines : List Bytes) : ParserCore := lines.foldl ParserCore.taking p

def ParserCore.TakesAll (p : ParserCore) : List Bytes → Prop
  | [] => True
  | line :: lines => p.Takes line ∧ (p.taking line).TakesAll lines

theorem storeField_response {p : ParserCore} (mode : p.responseMode = true) (h : Header) (total : Nat) :
    p.storeField h total =
      { p with response.headers := p.response.headers ++ [h], headerBytesTotal := total } := by
  unfold ParserCore.storeField ParserCore.pushHeader
  rw [if_pos mode]

theorem storeField_request {p : ParserCore} (mode : p.responseMode ≠ true) (h : Header) (total : Nat) :
    p.storeField h total = { p with request.headers := p.request.headers ++ [h], headerBytesTotal := total } := by
  unfold ParserCore.storeField ParserCore.pushHeader
  rw [if_neg mode]

theorem storeField_frame (p : ParserCore) (h : Header) (total : Nat) :
    (p.storeField h total).state = p.state ∧ (p.storeField h total).responseMode = p.responseMode ∧
      (p.storeField h total).hasContentLength = p.hasContentLength ∧ (p.storeField h total).contentLength = p.contentLength ∧
      (p.storeField h total).hasTransferEncoding = p.hasTransferEncoding ∧
      (p.storeField h total).transferChunked = p.transferChunked := by
  by_cases mode : p.responseMode = true
  · rw [storeField_response mode]
    exact ⟨rfl, rfl, rfl, rfl, rfl, rfl⟩
  · rw [storeField_request mode]
    exact ⟨rfl, rfl, rfl, rfl, rfl, rfl⟩

theorem storeField_activeHeaders (p : ParserCore) (h : Header) (total : Nat) :
    (p.storeField h total).activeHeaders = p.activeHeaders ++ [h] := by
  unfold ParserCore.activeHeaders
  rw [(storeField_frame p h total).2.1]
  by_cases mode : p.responseMode = true
  · rw [storeField_response mode, if_pos mode, if_pos mode]
  · rw [storeField_request mode, if_neg mode, if_neg mode]

section
variable (p : ParserCore) (line : Bytes)

theorem taking_frame :
    (p.taking line).state = p.state ∧ (p.taking line).responseMode = p.responseMode ∧
      (p.taking line).hasContentLength = (p.hasContentLength || isContentLength (fieldOf line)) ∧
      (p.taking line).contentLength =
        (if isContentLength (fieldOf line) then (lengthOf (fieldOf line).value).getD 0 else p.contentLength) ∧
      (p.taking line).hasTransferEncoding = (p.hasTransferEncoding || isTransferEncoding (fieldOf line)) ∧
      (p.taking line).transferChunked = (p.transferChunked || isTransferEncoding (fieldOf line)) := by
  rcases storeField_frame p (fieldOf line) (p.headerBytesTotal + (line.length + 2)) with
    ⟨state, mode, length, value, encoding, chunked⟩
  unfold ParserCore.taking ParserCore.framed
  rw [length, value, encoding, chunked]
  exact ⟨state, mode, rfl, rfl, rfl, rfl⟩

@[simp] theorem taking_responseMode : (p.taking line).responseMode = p.responseMode := (taking_frame p line).2.1

@[simp] theorem taking_hasContentLength :
    (p.taking line).hasContentLength = (p.hasContentLength || isContentLength (fieldOf line)) := (taking_frame p line).2.2.1

@[simp] theorem taking_hasTransferEncoding :
    (p.taking line).hasTransferEncoding = (p.hasTransferEncoding || isTransferEncoding (fieldOf line)) :=
  (taking_frame p line).2.2.2.2.1

@[simp] theorem taking_transferChunked :
    (p.taking line).transferChunked = (p.transferChunked || isTransferEncoding (fieldOf line)) :=
  (taking_frame p line).2.2.2.2.2

@[simp] theorem taking_headerBytesTotal :
    (p.taking line).headerBytesTotal = p.headerBytesTotal + (line.length + 2) := rfl

@[simp] theorem taking_activeHeaders : (p.taking line).activeHeaders = p.activeHeaders ++ [fieldOf line] :=
  storeField_activeHeaders p (fieldOf line) (p.headerBytesTotal + (line.length + 2))

end

theorem taking_inHeaders {p : ParserCore} (ready : p.InHeaders) (line : Bytes) : (p.taking line).InHeaders where
  state := (taking_frame p line).1.trans ready.state
  limit := rfl
  empty := rfl
  quiet := rfl

theorem takingAll_inHeaders {p : ParserCore} (ready : p.InHeaders) (lines : List Bytes) : (p.takingAll lines).InHeaders := by
  induction lines generalizing p with
  | nil => exact ready
  | cons line lines ih => exact ih (taking_inHeaders ready line)

theorem reads_error {p : ParserCore} (failed : p.state = .stateError) (cursor : Bytes) :
    (p.reads cursor).1.state = .stateError := by
  unfold ParserCore.reads
  rw [feed_eq]
  have turn : p.turn cursor = (.error, p, cursor) := by
    simp only [ParserCore.turn, feedTurn, failed, forgetCaps]
  rw [turn]
  exact failed

theorem reads_field {p : ParserCore} (ready : p.InHeaders) {line : Bytes} (unbroken : ∀ c ∈ line, c ≠ ch '\r' ∧ c ≠ ch '\n')
    (nonempty : line ≠ []) (rest : Bytes) :
    (p.Takes line ∧ p.reads (line ++ crlf ++ rest) = (p.taking line).reads rest) ∨
      (¬ p.Takes line ∧ (p.reads (line ++ crlf ++ rest)).1.state = .stateError) := by
  by_cases clean : CleanLine maxHeaderSize line
  · have step := lineEnd_headers_field (p := p.holding line) ready.state nonempty
    rw [reads_line ready.fresh (ready.limit.symm ▸ clean), step]
    unfold resume
    rcases parseHeader_spec (p := p) clean with ⟨taken, next⟩ | ⟨refused, error, state⟩
    · left
      rw [next]
      exact ⟨taken, rfl⟩
    · right
      rw [if_neg (by rw [error]; decide)]
      exact ⟨refused, state⟩
  · right
    exact ⟨fun taken => clean taken.field.clean, reads_violation ready.fresh unbroken (ready.limit.symm ▸ clean) rest⟩

theorem reads_fields {p : ParserCore} (ready : p.InHeaders) {lines : List Bytes}
    (unbroken : ∀ line ∈ lines, ∀ c ∈ line, c ≠ ch '\r' ∧ c ≠ ch '\n') (nonempty : ∀ line ∈ lines, line ≠ []) (rest : Bytes) :
    (p.TakesAll lines ∧ p.reads (ended lines ++ rest) = (p.takingAll lines).reads rest) ∨
      (¬ p.TakesAll lines ∧ (p.reads (ended lines ++ rest)).1.state = .stateError) := by
  induction lines generalizing p with
  | nil => exact Or.inl ⟨trivial, rfl⟩
  | cons line lines ih =>
    have split : ended (line :: lines) ++ rest = line ++ crlf ++ (ended lines ++ rest) := by
      simp [ended, List.append_assoc]
    rw [split]
    rcases reads_field ready (unbroken line List.mem_cons_self) (nonempty line List.mem_cons_self) (ended lines ++ rest)
      with ⟨taken, next⟩ | ⟨refused, error⟩
    · have tail := ih (taking_inHeaders ready line) (fun l member => unbroken l (List.mem_cons_of_mem _ member))
        (fun l member => nonempty l (List.mem_cons_of_mem _ member))
      rw [next]
      rcases tail with ⟨all, read⟩ | ⟨some_, error⟩
      · exact Or.inl ⟨⟨taken, all⟩, read⟩
      · exact Or.inr ⟨fun both => some_ both.2, error⟩
    · exact Or.inr ⟨fun both => refused both.1, error⟩

def LengthsAllowed (seen : Bool) (hs : List Header) : Prop :=
  (∀ h ∈ hs, isContentLength h = true → lengthOf h.value ≠ none) ∧ (hs.filter isContentLength).length + seen.toNat ≤ 1

def EncodingsAllowed (seen : Bool) (hs : List Header) : Prop :=
  (∀ h ∈ hs, isTransferEncoding h = true → OnlyChunked h.value) ∧
    (seen = true ∨ ∀ h ∈ (hs.filter isTransferEncoding).head?, h.value ≠ [])

theorem lengthsAllowed_cons {seen : Bool} {h : Header} {hs : List Header} :
    LengthsAllowed seen (h :: hs) ↔
      (isContentLength h = true → seen = false ∧ lengthOf h.value ≠ none) ∧ LengthsAllowed (seen || isContentLength h) hs := by
  unfold LengthsAllowed
  rw [List.forall_mem_cons]
  by_cases length : isContentLength h = true
  · rw [List.filter_cons_of_pos length, length]
    cases seen
    · simp
      tauto
    · simp
  · rw [List.filter_cons_of_neg length, Bool.eq_false_iff.mpr length]
    simp

theorem encodingsAllowed_cons {seen : Bool} {h : Header} {hs : List Header} :
    EncodingsAllowed seen (h :: hs) ↔
      (isTransferEncoding h = true → OnlyChunked h.value ∧ (seen = true ∨ h.value ≠ [])) ∧
        EncodingsAllowed (seen || isTransferEncoding h) hs := by
  unfold EncodingsAllowed
  rw [List.forall_mem_cons]
  by_cases encoding : isTransferEncoding h = true
  · rw [List.filter_cons_of_pos encoding, encoding]
    cases seen
    · simp
      tauto
    · simp
  · rw [List.filter_cons_of_neg encoding, Bool.eq_false_iff.mpr encoding]
    simp

def sectionBytes (lines : List Bytes) : Nat := (lines.map (·.length + 2)).sum

theorem takesAll_iff {p : ParserCore} {lines : List Bytes} (count : p.activeHeaders.length ≤ maxHeaderCount)
    (total : p.headerBytesTotal ≤ maxHeaderSize) :
    p.TakesAll lines ↔
      (∀ line ∈ lines, FieldLine line) ∧ p.activeHeaders.length + lines.length ≤ maxHeaderCount ∧
        p.headerBytesTotal + sectionBytes lines ≤ maxHeaderSize ∧
        LengthsAllowed p.hasContentLength (lines.map fieldOf) ∧ EncodingsAllowed p.transferChunked (lines.map fieldOf) := by
  induction lines generalizing p with
  | nil =>
    have lengths : p.hasContentLength.toNat ≤ 1 := Bool.toNat_le p.hasContentLength
    simp [ParserCore.TakesAll, sectionBytes, LengthsAllowed, EncodingsAllowed, count, total, lengths]
  | cons line lines ih =>
    have bytes : sectionBytes (line :: lines) = line.length + 2 + sectionBytes lines := by simp [sectionBytes]
    rw [List.map_cons, lengthsAllowed_cons, encodingsAllowed_cons, bytes, List.forall_mem_cons, List.length_cons]
    constructor
    · rintro ⟨taken, all⟩
      have counted := taken.count
      have fits := taken.total
      have grown := taking_activeHeaders p line
      rw [ih (by rw [grown, List.length_append, List.length_singleton]; omega) fits] at all
      rw [grown, List.length_append, List.length_singleton, taking_hasContentLength, taking_transferChunked,
        taking_headerBytesTotal] at all
      rcases all with ⟨fields, room, space, lengths, encodings⟩
      exact ⟨⟨taken.field, fields⟩, by omega, by omega, ⟨taken.length, lengths⟩, ⟨taken.encoding, encodings⟩⟩
    · rintro ⟨⟨field, fields⟩, room, space, ⟨length, lengths⟩, ⟨encoding, encodings⟩⟩
      have grown := taking_activeHeaders p line
      refine ⟨⟨field, by omega, by omega, length, encoding⟩, ?_⟩
      rw [ih (by rw [grown, List.length_append, List.length_singleton]; omega) (by rw [taking_headerBytesTotal]; omega)]
      rw [grown, List.length_append, List.length_singleton, taking_hasContentLength, taking_transferChunked,
        taking_headerBytesTotal]
      exact ⟨fields, by omega, by omega, lengths, encodings⟩

section
variable (p : ParserCore) (lines : List Bytes)

@[simp] theorem takingAll_responseMode : (p.takingAll lines).responseMode = p.responseMode := by
  induction lines generalizing p with
  | nil => rfl
  | cons line lines ih => exact (ih (p.taking line)).trans (taking_responseMode p line)

theorem takingAll_activeHeaders : (p.takingAll lines).activeHeaders = p.activeHeaders ++ lines.map fieldOf := by
  induction lines generalizing p with
  | nil => exact (List.append_nil _).symm
  | cons line lines ih =>
    show ((p.taking line).takingAll lines).activeHeaders = _
    rw [ih, taking_activeHeaders, List.append_assoc]
    rfl

theorem takingAll_hasContentLength :
    (p.takingAll lines).hasContentLength = (p.hasContentLength || (lines.map fieldOf).any isContentLength) := by
  induction lines generalizing p with
  | nil => exact (Bool.or_false _).symm
  | cons line lines ih =>
    show ((p.taking line).takingAll lines).hasContentLength = _
    rw [ih, taking_hasContentLength, Bool.or_assoc]
    rfl

theorem takingAll_hasTransferEncoding :
    (p.takingAll lines).hasTransferEncoding = (p.hasTransferEncoding || (lines.map fieldOf).any isTransferEncoding) := by
  induction lines generalizing p with
  | nil => exact (Bool.or_false _).symm
  | cons line lines ih =>
    show ((p.taking line).takingAll lines).hasTransferEncoding = _
    rw [ih, taking_hasTransferEncoding, Bool.or_assoc]
    rfl

theorem takingAll_append (more : List Bytes) : p.takingAll (lines ++ more) = (p.takingAll lines).takingAll more :=
  List.foldl_append

theorem takingAll_startData : (p.takingAll lines).startData = p.startData := by
  induction lines generalizing p with
  | nil => rfl
  | cons line lines ih => exact (ih (p.taking line)).trans (storeField_startData p (fieldOf line) (p.headerBytesTotal + (line.length + 2)))

end

theorem takingAll_contentLength {p : ParserCore} {lines : List Bytes}
    (none_ : ∀ line ∈ lines, isContentLength (fieldOf line) = false) : (p.takingAll lines).contentLength = p.contentLength := by
  induction lines generalizing p with
  | nil => rfl
  | cons line lines ih =>
    show ((p.taking line).takingAll lines).contentLength = _
    rw [ih fun l member => none_ l (List.mem_cons_of_mem _ member), (taking_frame p line).2.2.2.1,
      none_ line List.mem_cons_self]
    rfl

/-! ## The whole head -/

def freshCore (responseMode : Bool) : ParserCore := (freshParser responseMode).toParserCore

theorem freshCore_fresh (responseMode : Bool) : (freshCore responseMode).Fresh := by
  cases responseMode <;> exact ⟨rfl, rfl, rfl⟩

def started (responseMode : Bool) (start : Bytes) : Option ParserCore :=
  if responseMode then
    (parseResponseLine start {}).toOption.map fun response =>
      { state := .headers, responseMode := true, response, lineLimit := maxHeaderSize }
  else
    (parseRequestLine start {}).toOption.map fun request => { state := .headers, request, lineLimit := maxHeaderSize }

theorem parseStartLine_spec (responseMode : Bool) (start : Bytes) :
    (∃ q, started responseMode start = some q ∧ ((freshCore responseMode).holding start).parseStartLine = (.next, q)) ∨
      (started responseMode start = none ∧ ((freshCore responseMode).holding start).parseStartLine.1 = .error ∧
        ((freshCore responseMode).holding start).parseStartLine.2.state = .stateError) := by
  unfold started ParserCore.parseStartLine
  cases responseMode with
  | true =>
    have mode : ((freshCore true).holding start).responseMode = true := rfl
    have line : ((freshCore true).holding start).lineBuf = start := rfl
    have response : ((freshCore true).holding start).response = {} := rfl
    rw [if_pos mode, line, response, if_pos rfl]
    cases parseResponseLine start {} with
    | error e => exact Or.inr ⟨rfl, rfl, rfl⟩
    | ok response => exact Or.inl ⟨_, rfl, rfl⟩
  | false =>
    have mode : ¬ ((freshCore false).holding start).responseMode = true := Bool.false_ne_true
    have line : ((freshCore false).holding start).lineBuf = start := rfl
    have request : ((freshCore false).holding start).request = {} := rfl
    rw [if_neg mode, line, request, if_neg Bool.false_ne_true]
    cases parseRequestLine start {} with
    | error e => exact Or.inr ⟨rfl, rfl, rfl⟩
    | ok request => exact Or.inl ⟨_, rfl, rfl⟩

theorem started_spec {responseMode : Bool} {start : Bytes} {q : ParserCore} (taken : started responseMode start = some q) :
    q.InHeaders ∧ q.responseMode = responseMode ∧ q.activeHeaders = [] ∧ q.headerBytesTotal = 0 ∧ q.bodyWritten = 0 ∧
      q.hasContentLength = false ∧ q.hasTransferEncoding = false ∧ q.transferChunked = false := by
  unfold started at taken
  cases responseMode with
  | true =>
    rcases Option.map_eq_some_iff.mp taken with ⟨response, parsed, rfl⟩
    have none_ := (parseResponseLine_keeps (Outcome.ok_of_toOption parsed)).1
    exact ⟨⟨rfl, rfl, rfl, rfl⟩, rfl, none_, rfl, rfl, rfl, rfl, rfl⟩
  | false =>
    rcases Option.map_eq_some_iff.mp taken with ⟨request, parsed, rfl⟩
    have none_ := (parseRequestLine_keeps (Outcome.ok_of_toOption parsed)).1
    exact ⟨⟨rfl, rfl, rfl, rfl⟩, rfl, none_, rfl, rfl, rfl, rfl, rfl⟩

theorem reads_start (responseMode : Bool) {start : Bytes} (unbroken : ∀ c ∈ start, c ≠ ch '\r' ∧ c ≠ ch '\n') (rest : Bytes) :
    (∃ q, CleanLine maxRequestLine start ∧ started responseMode start = some q ∧
        (freshCore responseMode).reads (start ++ crlf ++ rest) = q.reads rest) ∨
      (¬ (CleanLine maxRequestLine start ∧ (started responseMode start).isSome = true) ∧
        ((freshCore responseMode).reads (start ++ crlf ++ rest)).1.state = .stateError) := by
  have fresh := freshCore_fresh responseMode
  have limit : (freshCore responseMode).lineLimit = maxRequestLine := by cases responseMode <;> rfl
  have state : ((freshCore responseMode).holding start).state = .requestLine := by cases responseMode <;> rfl
  by_cases clean : CleanLine maxRequestLine start
  · rw [reads_line fresh (limit.symm ▸ clean), lineEnd_requestLine state]
    unfold resume
    rcases parseStartLine_spec responseMode start with ⟨q, taken, next⟩ | ⟨refused, error, failed⟩
    · left
      refine ⟨q, clean, taken, ?_⟩
      rw [next]
      rfl
    · right
      rw [if_neg (by rw [error]; decide), refused]
      exact ⟨fun both => Bool.false_ne_true both.2, failed⟩
  · right
    exact ⟨fun both => clean both.1, reads_violation fresh unbroken (limit.symm ▸ clean) rest⟩

/-- Every line of the head passes the checks that the parser makes of it. -/
structure Head.Accepted (head : Head) (responseMode : Bool) : Prop where
  short : CleanLine maxRequestLine head.start
  start : (started responseMode head.start).isSome = true
  fields : ∀ line ∈ head.fields, FieldLine line
  count : head.fields.length ≤ maxHeaderCount
  bytes : sectionBytes head.fields ≤ maxHeaderSize
  lengths : LengthsAllowed false head.headers
  encodings : EncodingsAllowed false head.headers

theorem accepted_iff {head : Head} {responseMode : Bool} {q : ParserCore} (taken : started responseMode head.start = some q)
    (short : CleanLine maxRequestLine head.start) : head.Accepted responseMode ↔ q.TakesAll head.fields := by
  rcases started_spec taken with ⟨_, _, none_, total, _, length, _, chunked⟩
  rw [takesAll_iff (by rw [none_]; exact Nat.zero_le _) (by rw [total]; exact Nat.zero_le _), none_, total, length, chunked,
    List.length_nil, Nat.zero_add, Nat.zero_add]
  constructor
  · intro accepted
    exact ⟨accepted.fields, accepted.count, accepted.bytes, accepted.lengths, accepted.encodings⟩
  · rintro ⟨fields, count, bytes, lengths, encodings⟩
    exact ⟨short, by rw [taken]; rfl, fields, count, bytes, lengths, encodings⟩

theorem head_bytes_append (head : Head) (rest : Bytes) :
    head.bytes ++ rest = head.start ++ crlf ++ (ended head.fields ++ (crlf ++ rest)) := by
  unfold Head.bytes
  simp only [List.append_assoc]

theorem reads_head (responseMode : Bool) (head : Head) (rest : Bytes) :
    (∃ q, head.Accepted responseMode ∧ started responseMode head.start = some q ∧
        (freshCore responseMode).reads (head.bytes ++ rest) =
          resume (sectionTurn (q.takingAll head.fields).finish.state, (q.takingAll head.fields).finish) rest) ∨
      (¬ head.Accepted responseMode ∧ ((freshCore responseMode).reads (head.bytes ++ rest)).1.state = .stateError) := by
  rw [head_bytes_append]
  rcases reads_start responseMode (head.unbroken head.start List.mem_cons_self) (ended head.fields ++ (crlf ++ rest)) with
    ⟨q, short, taken, read⟩ | ⟨refused, error⟩
  · have ready := (started_spec taken).1
    rw [read]
    rcases reads_fields ready (fun line member => head.unbroken line (List.mem_cons_of_mem _ member)) head.nonempty (crlf ++ rest)
      with ⟨all, passed⟩ | ⟨refused, error⟩
    · left
      refine ⟨q, (accepted_iff taken short).mpr all, taken, ?_⟩
      have last := takingAll_inHeaders ready head.fields
      have empty : CleanLine (q.takingAll head.fields).lineLimit [] := ⟨by simp, Nat.zero_le _⟩
      have line := reads_line last.fresh empty rest
      rw [List.nil_append] at line
      have held : (q.takingAll head.fields).holding [] = q.takingAll head.fields := by
        unfold ParserCore.holding
        rw [← last.empty]
      rw [passed, line, held, lineEnd_headers_empty last.state last.empty]
    · exact Or.inr ⟨fun accepted => refused ((accepted_iff taken short).mp accepted), error⟩
  · exact Or.inr ⟨fun accepted => refused ⟨accepted.short, accepted.start⟩, error⟩

end BlueBird.Http
