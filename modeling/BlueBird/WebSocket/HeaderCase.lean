import Mathlib.Data.List.Perm.Subperm
import BlueBird.Http.HeaderTable
import BlueBird.WebSocket.Url

namespace BlueBird.WebSocket

open Http

/-! ## Spellings of a name -/

def spellings : Bytes → Bytes → List Bytes
  | [], back => [back]
  | c :: front, back => (spellings front back).flatMap fun name => [toLower c :: name, (toLower c - 32) :: name]

theorem strCaseEq_iff {a b : Bytes} : strCaseEq a b = true ↔ a.map toLower = b.map toLower := beq_iff_eq

theorem spellings_length (front back : Bytes) : (spellings front back).length = 2 ^ front.length := by
  induction front with
  | nil => rfl
  | cons c front ih =>
    rw [spellings, List.length_flatMap]
    simp only [List.length_cons, List.length_nil]
    rw [List.map_const', List.sum_replicate_nat, ih, Nat.pow_succ]

theorem spellings_nodup (front back : Bytes) : (spellings front back).Nodup := by
  induction front with
  | nil => exact List.nodup_singleton back
  | cons c front ih =>
    have differ : toLower c ≠ toLower c - 32 := by
      generalize toLower c = d
      exact @forall_byte (fun d => d ≠ d - 32) (by decide +kernel) d
    rw [spellings, List.nodup_flatMap]
    constructor
    · intro name _
      exact List.nodup_cons.mpr ⟨fun member => differ (List.cons.inj (List.mem_singleton.mp member)).1, List.nodup_singleton _⟩
    · apply ih.imp
      intro a b other name left right
      apply other
      have tails : ∀ rest, name ∈ [toLower c :: rest, (toLower c - 32) :: rest] → name.tail = rest := by
        intro rest member
        rcases List.mem_cons.mp member with rfl | member
        · rfl
        · rw [List.mem_singleton.mp member]
          rfl
      exact (tails a left).symm.trans (tails b right)

theorem spellings_alike {front : Bytes} (letters : front.all (fun c => toLower (toLower c - 32) == toLower c) = true)
    (back : Bytes) : ∀ name ∈ spellings front back, strCaseEq name (front ++ back) = true := by
  induction front with
  | nil =>
    intro name member
    rw [List.mem_singleton.mp member]
    exact strCaseEq_iff.mpr rfl
  | cons c front ih =>
    rw [List.all_cons, Bool.and_eq_true, beq_iff_eq] at letters
    have idempotent : toLower (toLower c) = toLower c :=
      @forall_byte (fun c => toLower (toLower c) = toLower c) (by decide +kernel) c
    intro name member
    rcases List.mem_flatMap.mp member with ⟨rest, inside, spelled⟩
    have alike := strCaseEq_iff.mp (ih letters.2 rest inside)
    apply strCaseEq_iff.mpr
    rcases List.mem_cons.mp spelled with rfl | spelled
    · rw [List.map_cons, List.cons_append, List.map_cons, alike, idempotent]
    · rw [List.mem_singleton.mp spelled, List.map_cons, List.cons_append, List.map_cons, alike, letters.1]

/-- Every spelling of a field's name is the name of a field too, and all fields of that spelling have its value. -/
def EverySpelling (fields : List Header) : Prop :=
  ∀ field ∈ fields, ∀ name, strCaseEq name field.name = true →
    (∃ other ∈ fields, other.name = name) ∧ ∀ other ∈ fields, other.name = name → other.value = field.value

theorem EverySpelling.unnamed {fields : List Header} (every : EverySpelling fields) (count : fields.length ≤ maxHeaderCount)
    {front : Bytes} (back : Bytes) (letters : front.all (fun c => toLower (toLower c - 32) == toLower c) = true)
    (long : 7 ≤ front.length) : ∀ field ∈ fields, strCaseEq field.name (front ++ back) = false := by
  intro field member
  apply Bool.eq_false_iff.mpr
  intro same
  have inside : ∀ spelled ∈ spellings front back, spelled ∈ fields.map (·.name) := by
    intro spelled listed
    have alike : strCaseEq spelled field.name = true :=
      strCaseEq_iff.mpr ((strCaseEq_iff.mp (spellings_alike letters back spelled listed)).trans (strCaseEq_iff.mp same).symm)
    rcases (every field member spelled alike).1 with ⟨other, present, named⟩
    exact List.mem_map.mpr ⟨other, present, named⟩
  have bound := ((spellings_nodup front back).subperm inside).length_le
  rw [List.length_map, spellings_length] at bound
  have few : 2 ^ 7 ≤ maxHeaderCount := Nat.le_trans (Nat.pow_le_pow_right (by decide) long) (Nat.le_trans bound count)
  exact absurd few (by decide)

/-! ## Lookups -/

theorem lastValue_some {fields : List Header} {name value : Bytes} (found : lastValue fields name = some value) :
    ∃ field ∈ fields, field.name = name ∧ field.value = value := by
  rcases Option.map_eq_some_iff.mp found with ⟨field, last, rfl⟩
  exact ⟨field, List.mem_reverse.mp (List.mem_of_find?_eq_some last), by simpa using List.find?_some last, rfl⟩

theorem lastValue_isSome {fields : List Header} {field : Header} (member : field ∈ fields) :
    (lastValue fields field.name).isSome := by
  unfold lastValue
  rw [Option.isSome_map, List.find?_isSome]
  exact ⟨field, List.mem_reverse.mpr member, decide_eq_true rfl⟩

theorem lastValue_none {fields : List Header} {name : Bytes} (absent : ∀ field ∈ fields, strCaseEq field.name name = false) :
    lastValue fields name = none := by
  unfold lastValue
  rw [Option.map_eq_none_iff, List.find?_eq_none]
  intro field member same
  have spelled := absent field (List.mem_reverse.mp member)
  rw [of_decide_eq_true same] at spelled
  exact absurd (strCaseEq_iff.mpr rfl) (Bool.eq_false_iff.mp spelled)

def FoundByAnySpelling (msg : Message) (fields : List Header) : Prop :=
  ∀ field ∈ fields, ∀ name, strCaseEq name field.name = true → msg.getHeader name = some field.value

theorem found_iff {msg : Message} {fields : List Header} (stored : ∀ name, msg.getHeader name = lastValue fields name) :
    FoundByAnySpelling msg fields ↔ EverySpelling fields := by
  constructor
  · intro found field member name alike
    have value := found field member name alike
    rw [stored] at value
    rcases lastValue_some value with ⟨other, present, named, _⟩
    refine ⟨⟨other, present, named⟩, ?_⟩
    intro third listed spelled
    -- the lookup of that spelling finds the value of this field and that of the other one
    have again := found third listed name (by rw [spelled]; exact strCaseEq_iff.mpr rfl)
    rw [stored, value] at again
    exact (Option.some.inj again).symm
  · intro every field member name alike
    rcases every field member name alike with ⟨⟨other, present, named⟩, valued⟩
    rcases Option.isSome_iff_exists.mp (lastValue_isSome present) with ⟨value, found⟩
    rw [named] at found
    rcases lastValue_some found with ⟨last, listed, spelled, rfl⟩
    rw [stored, found, valued last listed spelled]

/-! ## Decisions -/

def SameButCase (a b : Header) : Prop := strCaseEq a.name b.name = true ∧ a.value = b.value

theorem unnamed_alike {fields others : List Header} {name : Bytes} (alike : List.Forall₂ SameButCase fields others)
    (absent : ∀ field ∈ fields, strCaseEq field.name name = false) : ∀ other ∈ others, strCaseEq other.name name = false := by
  induction alike with
  | nil => exact fun other member => by cases member
  | cons same alike ih =>
    rename_i field other fields others
    intro third member
    rcases List.mem_cons.mp member with rfl | later
    · apply Bool.eq_false_iff.mpr
      intro spelled
      exact Bool.eq_false_iff.mp (absent field List.mem_cons_self)
        (strCaseEq_iff.mpr ((strCaseEq_iff.mp same.1).trans (strCaseEq_iff.mp spelled)))
    · exact ih (fun field listed => absent field (List.mem_cons_of_mem _ listed)) third later

theorem isUpgradeRequest_absent {msg : Message} (absent : msg.getHeader (ascii "Upgrade") = none) :
    isUpgradeRequest msg = false := by
  unfold isUpgradeRequest
  rw [absent]

/-- `_http_read_step` adds its own `Connection` field to a response that has none. -/
def addsConnection (res : BbResponse) : Bool := res.statusCode ≠ 101 && (res.msg.getHeader (ascii "Connection")).isNone

/-- What the claim asks of a parsed request and what it is converted to: lookups by any spelling, and the same
    conversion and the same decisions for a request that spells its fields differently. -/
structure RequestCaseBlind (parsed : Request) (req : ServerRequest) : Prop where
  found : FoundByAnySpelling req.msg parsed.headers
  decided : ∀ headers : List Header, List.Forall₂ SameButCase parsed.headers headers →
    ∃ other, serverRequestFromParsed { parsed with headers } = some other ∧
      isUpgradeRequest other.msg = isUpgradeRequest req.msg ∧ other.msg.body = req.msg.body

structure ResponseCaseBlind (parsed : Response) : Prop where
  found : FoundByAnySpelling (responseFromParsed parsed).msg parsed.headers
  decided : ∀ headers : List Header, List.Forall₂ SameButCase parsed.headers headers →
    addsConnection (responseFromParsed { parsed with headers }) = addsConnection (responseFromParsed parsed)

theorem converted_respelled {parsed : Request} {req : ServerRequest} (converted : serverRequestFromParsed parsed = some req)
    (headers : List Header) :
    serverRequestFromParsed { parsed with headers } = some { req with msg := serverMessage { parsed with headers } req.path } := by
  rcases serverRequestFromParsed_eq_some.mp converted with ⟨room, decoded, undotted, query, whole⟩
  apply serverRequestFromParsed_eq_some.mpr
  refine ⟨room, decoded, undotted, query, ?_⟩
  rw [whole]
  rfl

theorem requestCaseBlind_iff {parsed : Request} {req : ServerRequest} (count : parsed.headers.length ≤ maxHeaderCount)
    (converted : serverRequestFromParsed parsed = some req) :
    RequestCaseBlind parsed req ↔ EverySpelling parsed.headers := by
  have stored := converted_headers converted
  constructor
  · intro blind
    exact (found_iff (getHeader_collapse stored)).mp blind.found
  · intro every
    refine ⟨(found_iff (getHeader_collapse stored)).mpr every, ?_⟩
    intro headers alike
    have upgrade : ∀ field ∈ parsed.headers, strCaseEq field.name (ascii "Upgrade") = false :=
      @EverySpelling.unnamed _ every count (ascii "Upgrade") [] (by decide) (by decide)
    have form : ∀ field ∈ parsed.headers, strCaseEq field.name (ascii "Content-Type") = false :=
      @EverySpelling.unnamed _ every count (ascii "Content") (ascii "-Type") (by decide) (by decide)
    have body : ∀ fields, (∀ field ∈ fields, strCaseEq field.name (ascii "Content-Type") = false) → announcesForm fields = false := by
      intro fields absent
      unfold announcesForm
      rw [lastValue_none absent]
      rfl
    refine ⟨_, converted_respelled converted headers, ?_, ?_⟩
    · rw [isUpgradeRequest_absent ((getHeader_collapse stored _).trans (lastValue_none upgrade))]
      exact isUpgradeRequest_absent
        ((getHeader_collapse (serverMessage_headers _ _) _).trans (lastValue_none (unnamed_alike alike upgrade)))
    · rcases serverRequestFromParsed_eq_some.mp converted with ⟨_, _, _, _, whole⟩
      rw [whole]
      show (serverMessage { parsed with headers } req.path).body = (serverMessage parsed req.path).body
      rw [serverMessage_body, serverMessage_body, body _ form, body _ (unnamed_alike alike form)]

theorem responseCaseBlind_iff {parsed : Response} (count : parsed.headers.length ≤ maxHeaderCount) :
    ResponseCaseBlind parsed ↔ EverySpelling parsed.headers := by
  have lookup : ∀ response : Response, ∀ name, (responseFromParsed response).msg.getHeader name = lastValue response.headers name :=
    fun response => getHeader_collapse (responseFromParsed_headers response)
  constructor
  · intro blind
    exact (found_iff (lookup parsed)).mp blind.found
  · intro every
    refine ⟨(found_iff (lookup parsed)).mpr every, ?_⟩
    intro headers alike
    have connection : ∀ field ∈ parsed.headers, strCaseEq field.name (ascii "Connection") = false :=
      @EverySpelling.unnamed _ every count (ascii "Connect") (ascii "ion") (by decide) (by decide)
    unfold addsConnection
    rw [lookup, lookup, lastValue_none connection, lastValue_none (unnamed_alike alike connection)]
    rfl

/-! ## Parsed messages -/

theorem parsedRequest_count {calls : List ParserCall} {parsed : Request}
    (complete : httpParserGetRequest (afterCalls (freshParser false) calls) = some parsed) :
    parsed.headers.length ≤ maxHeaderCount := by
  have limit := (afterCalls_limits (freshParser_limits false) calls).core.fields.headers
  have mode := (afterCalls_responseMode (freshParser false) calls).trans (freshParser_responseMode false)
  unfold ParserCore.activeHeaders at limit
  rw [mode, if_neg Bool.false_ne_true] at limit
  unfold httpParserGetRequest at complete
  split at complete
  · cases complete
  · rw [← Option.some.inj complete]
    exact limit

theorem parsedResponse_count {calls : List ParserCall} {parsed : Response}
    (complete : httpParserGetResponse (afterCalls (freshParser true) calls) = some parsed) :
    parsed.headers.length ≤ maxHeaderCount := by
  have limit := (afterCalls_limits (freshParser_limits true) calls).core.fields.headers
  have mode := (afterCalls_responseMode (freshParser true) calls).trans (freshParser_responseMode true)
  unfold ParserCore.activeHeaders at limit
  rw [mode, if_pos rfl] at limit
  unfold httpParserGetResponse at complete
  split at complete
  · cases complete
  · rw [← Option.some.inj complete]
    exact limit

/-- Lookups ignore the case of names exactly where a message holds every spelling of its names. -/
theorem caseBlind_iff (calls : List ParserCall) :
    (∀ (parsed : Request) (req : ServerRequest),
      httpParserGetRequest (afterCalls (freshParser false) calls) = some parsed →
      serverRequestFromParsed parsed = some req →
      (RequestCaseBlind parsed req ↔ EverySpelling parsed.headers)) ∧
    ∀ parsed : Response, httpParserGetResponse (afterCalls (freshParser true) calls) = some parsed →
      (ResponseCaseBlind parsed ↔ EverySpelling parsed.headers) :=
  ⟨fun _ _ complete converted => requestCaseBlind_iff (parsedRequest_count complete) converted,
    fun _ complete => responseCaseBlind_iff (parsedResponse_count complete)⟩

def digitField : Header := ⟨ascii "1", ascii "one"⟩

def digitRequest : Request where
  method := ascii "GET"
  target := ascii "/"
  versionMajor := 1
  versionMinor := 1
  headers := [digitField]

theorem everySpelling_digit : EverySpelling [digitField] := by
  intro field member name alike
  rw [List.mem_singleton.mp member] at alike ⊢
  have spelled : name = ascii "1" := by
    have lowered := strCaseEq_iff.mp alike
    cases name with
    | nil => exact absurd lowered (by decide)
    | cons c rest =>
      cases rest with
      | nil =>
        have only : ∀ c : Byte, toLower c = ch '1' → c = ch '1' := forall_byte (by decide +kernel)
        rw [only c (List.cons.inj lowered).1]
        rfl
      | cons d rest =>
        have lengths := congrArg List.length lowered
        exact absurd lengths (by simp [digitField, ascii])
  rw [spelled]
  exact ⟨⟨digitField, List.mem_cons_self, rfl⟩, fun other listed _ => by rw [List.mem_singleton.mp listed]⟩

theorem caseBlind_iff_digit :
    RequestCaseBlind digitRequest
      { msg := { startLine := ascii "GET / HTTP/1.1", headers := [(ascii "1", ascii "one")] }
        method := ascii "GET"
        path := ascii "/"
        version := ascii "HTTP/1.1" } :=
  ((caseBlind_iff [.feed (ascii "GET / HTTP/1.1\r\n1: one\r\n\r\n")]).1 digitRequest _ (by decide +kernel) (by decide +kernel)).mpr
    everySpelling_digit

def upgradeCalls (upgrade connection key version : String) : List ParserCall :=
  [.feed (ascii "GET / HTTP/1.1\r\n" ++ ascii upgrade ++ ascii ": websocket\r\n" ++ ascii connection ++ ascii ": Upgrade\r\n" ++
    ascii key ++ ascii ": dGhlIHNhbXBsZQ==\r\n" ++ ascii version ++ ascii ": 13\r\n\r\n")]

def upgradeFields (upgrade connection key version : String) : Request where
  method := ascii "GET"
  target := ascii "/"
  versionMajor := 1
  versionMinor := 1
  headers := [⟨ascii upgrade, ascii "websocket"⟩, ⟨ascii connection, ascii "Upgrade"⟩, ⟨ascii key, ascii "dGhlIHNhbXBsZQ=="⟩,
    ⟨ascii version, ascii "13"⟩]

def lowerCaseCalls : List ParserCall := upgradeCalls "upgrade" "connection" "sec-websocket-key" "sec-websocket-version"
def lowerCaseRequest : Request := upgradeFields "upgrade" "connection" "sec-websocket-key" "sec-websocket-version"
def capitalRequest : Request := upgradeFields "Upgrade" "Connection" "Sec-WebSocket-Key" "Sec-WebSocket-Version"

theorem not_caseBlind_lowerCase :
    httpParserGetRequest (afterCalls (freshParser false) lowerCaseCalls) = some lowerCaseRequest ∧
      (serverRequestFromParsed lowerCaseRequest).map (fun req => isUpgradeRequest req.msg) = some false ∧
      (serverRequestFromParsed capitalRequest).map (fun req => isUpgradeRequest req.msg) = some true ∧
      ∃ req, serverRequestFromParsed lowerCaseRequest = some req ∧ ¬ RequestCaseBlind lowerCaseRequest req := by
  refine ⟨by decide +kernel, by decide +kernel, by decide +kernel, ?_⟩
  have converts : (serverRequestFromParsed lowerCaseRequest).isSome = true := by decide +kernel
  rcases Option.isSome_iff_exists.mp converts with ⟨req, converted⟩
  refine ⟨req, converted, ?_⟩
  intro blind
  have lookup := getHeader_collapse (converted_headers converted) (ascii "Upgrade")
  rw [blind.found ⟨ascii "upgrade", ascii "websocket"⟩ List.mem_cons_self _ (by decide)] at lookup
  exact absurd lookup (by decide +kernel)

end BlueBird.WebSocket
