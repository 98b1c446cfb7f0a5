import BlueBird.Http.Confinement
import BlueBird.WebSocket.Url

namespace BlueBird.WebSocket

open Http
open Message (crlf)

/-! ## What is written and what is read -/

def hostValue (url : Url) : Bytes := url.host ++ ascii ":" ++ decimal url.port

def requestFields (url : Url) (key : Bytes) : List (Bytes × Bytes) :=
  [(ascii "Host", hostValue url), (ascii "Upgrade", ascii "websocket"), (ascii "Connection", ascii "Upgrade"),
    (ascii "Sec-WebSocket-Key", key), (ascii "Sec-WebSocket-Version", ascii "13")]

/-- The parser takes the fragments as one whole request, and it is the one that was meant. -/
structure Served (url : Url) (key request : Bytes) (fragments : List Bytes) : Prop where
  complete : (feedFragments (freshParser false) fragments).1 = .complete
  whole : (feedFragments (freshParser false) fragments).2.2 = request.length
  target : (feedFragments (freshParser false) fragments).2.1.request.target = url.path
  fields : (feedFragments (freshParser false) fragments).2.1.request.headers = (requestFields url key).map headerOf
  upgrade : ∀ path, isUpgradeRequest (serverMessage (feedFragments (freshParser false) fragments).2.1.request path) = true

/-- What a path and a host have to be so that the request reads as it was meant. -/
structure Url.Sound (url : Url) : Prop where
  path : (url.path.any fun c => c = ch ' ' ∨ c < 0x20 ∨ c = 0x7F) = false
  sane : sanitizeRequestTarget url.path = .ok ()
  host : (url.host.any fun c => (c < 0x20 ∧ c ≠ ch '\t') ∨ c = 0x7F) = false
  unblank : url.host.head?.any isBlank = false

theorem requestFormat_eq (url : Url) (key : Bytes) :
    requestFormat url key =
      ascii "GET" ++ ch ' ' :: (url.path ++ ascii " HTTP/1.1") ++ crlf ++ ((requestFields url key).map Message.headerLine).flatten ++ crlf := by
  have get : ascii "GET " = ascii "GET" ++ [ch ' '] := rfl
  have version : ascii " HTTP/1.1\r\n" = ascii " HTTP/1.1" ++ crlf := rfl
  have upgrade : ascii "Upgrade: websocket\r\n" = Message.headerLine (ascii "Upgrade", ascii "websocket") := rfl
  have connection : ascii "Connection: Upgrade\r\n" = Message.headerLine (ascii "Connection", ascii "Upgrade") := rfl
  have last : ascii "Sec-WebSocket-Version: 13\r\n" = Message.headerLine (ascii "Sec-WebSocket-Version", ascii "13") := rfl
  have host : Message.headerLine (ascii "Host", hostValue url) = ascii "Host: " ++ url.host ++ ascii ":" ++ decimal url.port ++ crlf := by
    unfold Message.headerLine hostValue
    show ascii "Host" ++ ascii ": " ++ (url.host ++ ascii ":" ++ decimal url.port) ++ crlf = _
    simp only [← List.append_assoc]
    rfl
  have nonce : Message.headerLine (ascii "Sec-WebSocket-Key", key) = ascii "Sec-WebSocket-Key: " ++ key ++ crlf := rfl
  have ended : ascii "\r\n" = crlf := rfl
  unfold requestFormat requestFields
  simp only [List.map_cons, List.map_nil, List.flatten_cons, List.flatten_nil, List.append_nil]
  rw [host, nonce, ← upgrade, ← connection, ← last, get, version, ended]
  simp only [List.append_assoc, List.cons_append, List.nil_append]

theorem requestFormat_length (url : Url) {key : Bytes} (letters : key.length = 24) :
    (requestFormat url key).length = url.path.length + url.host.length + (decimal url.port).length + 139 := by
  unfold requestFormat
  simp only [List.length_append, letters]
  have texts : (ascii "GET ").length + (ascii " HTTP/1.1\r\n").length + (ascii "Host: ").length + (ascii ":").length +
      (ascii "\r\n").length + (ascii "Upgrade: websocket\r\n").length + (ascii "Connection: Upgrade\r\n").length +
      (ascii "Sec-WebSocket-Key: ").length + 24 + (ascii "\r\n").length + (ascii "Sec-WebSocket-Version: 13\r\n").length +
      (ascii "\r\n").length = 139 := by decide
  omega

/-! ## The fields -/

def isVisible (c : Byte) : Bool := 0x20 < c ∧ c < 0x7F

theorem base64_visible {c : Byte} (letter : isBase64 c = true) : isVisible c = true := by
  have table : ∀ c ∈ ch '=' :: base64Table, isVisible c = true := forall_of_all (by decide)
  unfold isBase64 at letter
  rcases Bool.or_eq_true_iff.mp letter with among | padding
  · exact table c (List.mem_cons_of_mem _ (List.contains_iff_mem.mp among))
  · rw [beq_iff_eq.mp padding]
    exact table _ List.mem_cons_self

theorem digit_visible {c : Byte} (digit : isDigit c = true) : isVisible c = true := by
  unfold isDigit at digit
  rcases of_decide_eq_true digit with ⟨low, high⟩
  unfold isVisible
  apply decide_eq_true
  exact ⟨UInt8.lt_of_lt_of_le (by decide) low, UInt8.lt_of_le_of_lt high (by decide)⟩

theorem visible_value {c : Byte} (visible : isVisible c = true) : ¬ ((c < 0x20 ∧ c ≠ ch '\t') ∨ c = 0x7F) := by
  unfold isVisible at visible
  rcases of_decide_eq_true visible with ⟨low, high⟩
  intro control
  rcases control with ⟨below, _⟩ | delete
  · exact UInt8.lt_irrefl c (UInt8.lt_trans below low)
  · rw [delete] at high
    exact UInt8.lt_irrefl _ high

theorem visible_unblank {c : Byte} (visible : isVisible c = true) : isBlank c = false := by
  unfold isVisible at visible
  rcases of_decide_eq_true visible with ⟨low, _⟩
  cases blank : isBlank c with
  | false => rfl
  | true =>
    unfold isBlank at blank
    rcases Bool.or_eq_true_iff.mp blank with space | tab
    · rw [beq_iff_eq.mp space] at low
      exact absurd low (by decide)
    · rw [beq_iff_eq.mp tab] at low
      exact absurd low (by decide)

theorem trimBlanks_of_ends {v : Bytes} (front : v.head?.any isBlank = false) (back : v.getLast?.any isBlank = false) :
    trimBlanks v = v := by
  apply trimBlanks_eq_self.mpr
  constructor
  · cases v with
    | nil => rfl
    | cons c rest => exact List.dropWhile_cons_of_neg (by rw [Bool.not_eq_true]; exact front)
  · apply List.rdropWhile_eq_self_iff.mpr
    intro nonempty
    rw [List.getLast?_eq_some_getLast nonempty] at back
    rw [Bool.not_eq_true]
    exact back

section
variable {url : Url} {key : Bytes} (sound : url.Sound) (letters : ∀ c ∈ key, isBase64 c = true)

include sound in
theorem hostValue_wellFormed : WellFormed (headerOf (ascii "Host", hostValue url)) where
  name := (by decide : ascii "Host" ≠ [])
  token := (by decide : (ascii "Host").all isTchar = true)
  value := by
    show (hostValue url).any _ = false
    unfold hostValue
    rw [List.any_append, List.any_append, sound.host, Bool.false_or]
    have digits : (decimal url.port).any (fun c => (c < 0x20 ∧ c ≠ ch '\t') ∨ c = 0x7F) = false := by
      apply List.any_eq_false.mpr
      intro c member control
      exact visible_value (digit_visible (decimal_isDigit url.port c member)) (of_decide_eq_true control)
    rw [digits]
    rfl
  trimmed := by
    show trimBlanks (hostValue url) = hostValue url
    unfold hostValue
    apply trimBlanks_of_ends
    · have unblank := sound.unblank
      cases host : url.host with
      | nil => rfl
      | cons c rest =>
        rw [host] at unblank
        exact unblank
    · have some_ := decimal_ne_nil url.port
      rw [List.getLast?_append, List.getLast?_eq_some_getLast some_]
      exact visible_unblank (digit_visible (decimal_isDigit url.port _ (List.getLast_mem some_)))

include letters in
theorem key_wellFormed : WellFormed (headerOf (ascii "Sec-WebSocket-Key", key)) where
  name := (by decide : ascii "Sec-WebSocket-Key" ≠ [])
  token := (by decide : (ascii "Sec-WebSocket-Key").all isTchar = true)
  value := by
    apply List.any_eq_false.mpr
    intro c member control
    exact visible_value (base64_visible (letters c member)) (of_decide_eq_true control)
  trimmed := by
    show trimBlanks key = key
    have unblank : ∀ c ∈ key, isBlank c = false := fun c member => visible_unblank (base64_visible (letters c member))
    apply trimBlanks_of_ends
    · cases first : key.head? with
      | none => rfl
      | some c => exact unblank c (List.mem_of_head? first)
    · cases last : key.getLast? with
      | none => rfl
      | some c => exact unblank c (List.mem_of_getLast? last)

include sound letters in
theorem requestFields_wellFormed : ∀ h ∈ requestFields url key, WellFormed (headerOf h) := by
  intro h member
  unfold requestFields at member
  rcases List.mem_cons.mp member with rfl | member
  · exact hostValue_wellFormed sound
  rcases List.mem_cons.mp member with rfl | member
  · exact ⟨by decide, by decide, by decide, by decide⟩
  rcases List.mem_cons.mp member with rfl | member
  · exact ⟨by decide, by decide, by decide, by decide⟩
  rcases List.mem_cons.mp member with rfl | member
  · exact key_wellFormed letters
  rcases List.mem_cons.mp member with rfl | member
  · exact ⟨by decide, by decide, by decide, by decide⟩
  · cases member

end

theorem requestFields_unframed (url : Url) (key : Bytes) :
    ∀ h ∈ (requestFields url key).map headerOf, isContentLength h = false ∧ isTransferEncoding h = false := by
  intro h member
  have names : ∀ name ∈ (requestFields url key).map (·.1), isContentLength ⟨name, []⟩ = false ∧ isTransferEncoding ⟨name, []⟩ = false := by
    have listed : (requestFields url key).map (·.1) =
      [ascii "Host", ascii "Upgrade", ascii "Connection", ascii "Sec-WebSocket-Key", ascii "Sec-WebSocket-Version"] := rfl
    rw [listed]
    exact List.forall_mem_cons.mpr (by decide)
  rcases List.mem_map.mp member with ⟨field, among, rfl⟩
  exact names field.1 (List.mem_map_of_mem among)

/-! ## The whole request -/

theorem reads_unframed {start : Bytes} {hs : List (Bytes × Bytes)} {q : ParserCore} (short : CleanLine maxRequestLine start)
    (sound : ∀ h ∈ hs, WellFormed (headerOf h)) (taken : started false start = some q) (count : hs.length ≤ maxHeaderCount)
    (bytes : sectionBytes (hs.map lineOf) ≤ maxHeaderSize)
    (unframed : ∀ h ∈ hs.map headerOf, isContentLength h = false ∧ isTransferEncoding h = false)
    {stream : Bytes} (written : stream = start ++ crlf ++ (hs.map Message.headerLine).flatten ++ crlf) :
    ((freshCore false).reads stream).1.status = .complete ∧ ((freshCore false).reads stream).2 = [] ∧
      ((freshCore false).reads stream).1.startData = q.startData ∧
      ((freshCore false).reads stream).1.activeHeaders = hs.map headerOf := by
  have noLength : (hs.map headerOf).any isContentLength = false := List.any_eq_false.mpr fun h member =>
    Bool.eq_false_iff.mp (unframed h member).1
  have noEncoding : (hs.map headerOf).any isTransferEncoding = false := List.any_eq_false.mpr fun h member =>
    Bool.eq_false_iff.mp (unframed h member).2
  have accepted : (headOf start hs short.plain sound).Accepted false := by
    refine ⟨short, by rw [show (headOf start hs short.plain sound).start = start from rfl, taken]; rfl, ?_, ?_, bytes, ?_, ?_⟩
    · intro line member
      rcases List.mem_map.mp member with ⟨h, listed, rfl⟩
      have bound := lineOf_le_sectionBytes member
      exact fieldLine_lineOf (sound h listed) (Nat.le_trans (Nat.le_add_right _ 2) (Nat.le_trans bound bytes))
    · show (hs.map lineOf).length ≤ _
      rw [List.length_map]
      exact count
    · rw [headOf_headers]
      refine ⟨fun h member length => ?_, ?_⟩
      · rw [(unframed h member).1] at length
        cases length
      · rw [List.filter_eq_nil_iff.mpr fun h member => Bool.eq_false_iff.mp (unframed h member).1]
        exact Nat.zero_le _
    · rw [headOf_headers]
      refine ⟨fun h member encoding => ?_, Or.inr ?_⟩
      · rw [(unframed h member).2] at encoding
        cases encoding
      · rw [List.filter_eq_nil_iff.mpr fun h member => Bool.eq_false_iff.mp (unframed h member).2]
        intro h member
        cases member
  rw [written, ← headOf_bytes start hs short.plain sound]
  have whole := List.append_nil (headOf start hs short.plain sound).bytes
  rcases reads_head false (headOf start hs short.plain sound) [] with ⟨q', _, taken', read⟩ | ⟨refused, _⟩
  · have same : q' = q := Option.some.inj (taken'.symm.trans taken)
    subst same
    rcases started_spec taken with ⟨_, mode, none_, _, _, length, encoding, _⟩
    have settled := takingAll_startData q' (hs.map lineOf)
    have fields : (q'.takingAll (hs.map lineOf)).activeHeaders = hs.map headerOf := by
      rw [takingAll_activeHeaders, none_, List.nil_append, fieldOf_lines sound]
    have hasLength : (q'.takingAll (hs.map lineOf)).hasContentLength = false := by
      rw [takingAll_hasContentLength, fieldOf_lines sound, noLength, length, Bool.or_false]
    have chunked : (q'.takingAll (hs.map lineOf)).hasTransferEncoding = false := by
      rw [takingAll_hasTransferEncoding, fieldOf_lines sound, noEncoding, encoding, Bool.or_false]
    have bare : (q'.takingAll (hs.map lineOf)).bodiless = false := by
      unfold ParserCore.bodiless
      rw [takingAll_responseMode, mode]
      simp
    have done : (q'.takingAll (hs.map lineOf)).finish = { q'.takingAll (hs.map lineOf) with state := .stateComplete } := by
      unfold ParserCore.finish
      rw [if_neg (by rw [bare]; exact Bool.false_ne_true), if_neg fun both => Bool.false_ne_true (chunked.symm.trans both.2),
        if_neg fun held => Bool.false_ne_true (chunked.symm.trans held),
        if_neg fun both => Bool.false_ne_true (hasLength.symm.trans both.1)]
    rw [whole] at read
    rw [read]
    have data := (resume_finish (q'.takingAll (hs.map lineOf)) []).1
    refine ⟨?_, ?_, (congrArg Prod.fst data).trans settled, (congrArg (fun d => d.2.1) data).trans fields⟩
    · show (resume (sectionTurn (q'.takingAll (hs.map lineOf)).finish.state, (q'.takingAll (hs.map lineOf)).finish) []).1.status = _
      rw [done]
      rfl
    · show (resume (sectionTurn (q'.takingAll (hs.map lineOf)).finish.state, (q'.takingAll (hs.map lineOf)).finish) []).2 = _
      rw [done]
      rfl
  · exact absurd accepted refused

def upgradeRequest (url : Url) : ClientRequest where
  method := some (ascii "GET")
  path := some url.path

theorem upgradeRequest_admitted {url : Url} (sound : url.Sound) (rooted : url.path.head? = some (ch '/'))
    (short : url.path.length ≤ 4096) : (upgradeRequest url).Admitted where
  method := (by decide : ascii "GET" ≠ [])
  token := (by decide : (ascii "GET").all isTchar = true)
  short := (by decide : (ascii "GET").length < methodSize)
  origin := rooted
  clean := sound.path
  sane := sound.sane
  fits := by
    show (ascii "GET" ++ ch ' ' :: (url.path ++ ascii " HTTP/1.1")).length ≤ maxRequestLine
    rw [List.length_append, List.length_cons, List.length_append]
    have three : (ascii "GET").length = 3 := by decide
    have nine : (ascii " HTTP/1.1").length = 9 := by decide
    unfold maxRequestLine
    omega

theorem sectionBytes_written (hs : List (Bytes × Bytes)) :
    sectionBytes (hs.map lineOf) = ((hs.map Message.headerLine).flatten).length := by
  induction hs with
  | nil => rfl
  | cons h hs ih =>
    show (lineOf h).length + 2 + sectionBytes (hs.map lineOf) = (Message.headerLine h ++ (hs.map Message.headerLine).flatten).length
    rw [List.length_append, ih]
    show _ = (lineOf h ++ crlf).length + _
    rw [List.length_append]
    rfl

theorem requestFormat_reads {url : Url} {key : Bytes} (sound : url.Sound) (rooted : url.path.head? = some (ch '/'))
    (letters : ∀ c ∈ key, isBase64 c = true) (length : key.length = 24)
    (short : url.path.length + url.host.length + (decimal url.port).length ≤ 4096) :
    ((freshCore false).reads (requestFormat url key)).1.status = .complete ∧
      ((freshCore false).reads (requestFormat url key)).2 = [] ∧
      ((freshCore false).reads (requestFormat url key)).1.request.target = url.path ∧
      ((freshCore false).reads (requestFormat url key)).1.request.headers = (requestFields url key).map headerOf := by
  have admitted := upgradeRequest_admitted sound rooted (by omega)
  have line : (upgradeRequest url).startLine = ascii "GET" ++ ch ' ' :: (url.path ++ ascii " HTTP/1.1") :=
    admitted_requestLine admitted
  have written := requestFormat_eq url key
  rw [← line] at written
  have bytes : sectionBytes ((requestFields url key).map lineOf) ≤ maxHeaderSize := by
    have total := requestFormat_length url length
    rw [written] at total
    simp only [List.length_append] at total
    rw [sectionBytes_written]
    unfold maxHeaderSize
    omega
  rcases admitted_started admitted with ⟨q, taken, _, target⟩
  have mode := (started_spec taken).2.1
  rcases reads_unframed (admitted_clean admitted) (requestFields_wellFormed sound letters) taken
    (by rw [show (requestFields url key).length = 5 from rfl]; decide) bytes (requestFields_unframed url key) written with
    ⟨complete, all, start, fields⟩
  generalize (freshCore false).reads (requestFormat url key) = r at complete all start fields ⊢
  have kept := congrArg (fun data => data.2.1) start
  have path : (upgradeRequest url).pathText = url.path := rfl
  refine ⟨complete, all, ?_, ?_⟩
  · exact (congrArg Request.target kept).trans (target.trans path)
  · have mode_ : r.1.responseMode = false := (congrArg Prod.fst start).trans mode
    unfold ParserCore.activeHeaders at fields
    rw [mode_, if_neg Bool.false_ne_true] at fields
    exact fields

/-! ## The server's view -/

theorem isUpgradeRequest_headers {a b : Message} (same : a.headers = b.headers) : isUpgradeRequest a = isUpgradeRequest b := by
  unfold isUpgradeRequest Message.getHeader
  rw [same]

theorem serverMessage_headers (parsed : Request) (path : Bytes) :
    ∃ startLine, (serverMessage parsed path).headers = (setParsedHeaders { startLine } parsed.headers).headers := by
  refine ⟨parsed.method ++ ch ' ' :: path ++ ch ' ' :: serverRequestVersion parsed, ?_⟩
  unfold serverMessage
  dsimp only
  split <;> rfl

theorem requestFields_upgrade (url : Url) (key startLine : Bytes) :
    isUpgradeRequest (setParsedHeaders { startLine } ((requestFields url key).map headerOf)) = true := by
  have stored : setParsedHeaders { startLine } ((requestFields url key).map headerOf) =
      { startLine, headers := requestFields url key } := rfl
  rw [stored]
  rfl

theorem served_sound {url : Url} {key : Bytes} (sound : url.Sound) (rooted : url.path.head? = some (ch '/'))
    (letters : ∀ c ∈ key, isBase64 c = true) (length : key.length = 24)
    (short : url.path.length + url.host.length + (decimal url.port).length ≤ 4096) {fragments : List Bytes}
    (cut : fragments.flatten = requestFormat url key) : Served url key (requestFormat url key) fragments := by
  rcases requestFormat_reads sound rooted letters length short with ⟨complete, all, target, fields⟩
  rcases feedFragments_reads false fragments with ⟨status, core, consumed⟩
  rw [cut] at status core consumed
  generalize (freshCore false).reads (requestFormat url key) = r at complete all target fields status core consumed
  have request : (feedFragments (freshParser false) fragments).2.1.request = r.1.request := congrArg (·.request) core
  refine ⟨status.trans complete, ?_, by rw [request]; exact target, by rw [request]; exact fields, ?_⟩
  · rw [consumed, all]
    rfl
  · intro path
    rcases serverMessage_headers (feedFragments (freshParser false) fragments).2.1.request path with ⟨startLine, same⟩
    rw [isUpgradeRequest_headers same, request, fields]
    exact requestFields_upgrade url key startLine

/-! ## Only sound URLs are served -/

theorem trimBlanks_length_le (v : Bytes) : (trimBlanks v).length ≤ v.length :=
  Nat.le_trans (List.rdropWhile_prefix isBlank (v.dropWhile isBlank)).length_le (List.dropWhile_suffix isBlank).length_le

theorem field_length_le {head : Head} {line : Bytes} (member : line ∈ head.fields) : line.length ≤ head.bytes.length := by
  have inside : line ++ crlf ∈ head.fields.map (· ++ crlf) := List.mem_map_of_mem member
  have part : (line ++ crlf).length ≤ (ended head.fields).length := (List.sublist_flatten_of_mem inside).length_le
  unfold Head.bytes
  simp only [List.length_append] at part ⊢
  omega

theorem sound_of_served {url : Url} {key request : Bytes} (served : Served url key request [request]) :
    url.Sound ∧ url.path.length ≤ request.length ∧ (hostValue url).length ≤ request.length := by
  rcases feedFragments_reads false [request] with ⟨status, core, _⟩
  have whole : [request].flatten = request := by simp
  rw [whole] at status core
  rcases reads_request_head (status.symm.trans served.complete) with ⟨head, rest, split, accepted, line, target, fields⟩
  generalize (freshCore false).reads request = r at core target fields
  have same : (feedFragments (freshParser false) [request]).2.1.request = r.1.request := congrArg (·.request) core
  have path : targetOf head.start = url.path := by
    rw [← target, ← same]
    exact served.target
  have listed : head.fields.map fieldOf = (requestFields url key).map headerOf := by
    rw [← served.fields, same, fields]
    rfl
  have first : headerOf (ascii "Host", hostValue url) ∈ head.fields.map fieldOf := by
    rw [listed]
    exact List.mem_cons_self
  rcases List.mem_map.mp first with ⟨hostLine, member, host⟩
  have field := fieldOf_wellFormed (accepted.fields hostLine member)
  rw [host] at field
  have clean : (hostValue url).any (fun c => (c < 0x20 ∧ c ≠ ch '\t') ∨ c = 0x7F) = false := field.value
  unfold hostValue at clean
  rw [List.any_append, List.any_append, Bool.or_eq_false_iff, Bool.or_eq_false_iff] at clean
  have bytes : head.bytes.length ≤ request.length := by
    rw [split, List.length_append]
    exact Nat.le_add_right _ _
  refine ⟨⟨?_, ?_, clean.1.1, ?_⟩, ?_, ?_⟩
  · rw [← path]
    exact line.clean
  · rw [← path]
    exact line.sane
  · have trimmed : trimBlanks (hostValue url) = hostValue url := field.trimmed
    have left := (trimBlanks_eq_self.mp trimmed).1
    cases text : url.host with
    | nil => rfl
    | cons c later =>
      show isBlank c = false
      by_cases blank : isBlank c = true
      · have value : hostValue url = c :: (later ++ ascii ":" ++ decimal url.port) := by
          unfold hostValue
          rw [text]
          rfl
        rw [value, List.dropWhile_cons_of_pos blank] at left
        have shorter := (List.dropWhile_suffix isBlank (l := later ++ ascii ":" ++ decimal url.port)).length_le
        rw [left, List.length_cons] at shorter
        omega
      · exact Bool.eq_false_iff.mpr blank
  · have start : head.start.length ≤ head.bytes.length := by
      unfold Head.bytes
      simp only [List.length_append]
      omega
    have inside : (targetOf head.start).length ≤ head.start.length := by
      unfold targetOf afterMethod
      rw [List.length_take, List.length_drop]
      omega
    rw [path] at inside
    omega
  · have value : hostValue url = (fieldOf hostLine).value := by
      rw [host]
      rfl
    have inside : (fieldOf hostLine).value.length ≤ hostLine.length := by
      show (trimBlanks _).length ≤ _
      refine Nat.le_trans (trimBlanks_length_le _) ?_
      rw [List.length_drop]
      exact Nat.sub_le _ _
    have line := field_length_le member
    rw [value]
    omega

/-! ## Connecting -/

/-- What is left of the buffer beside the texts of the format and the key. -/
def Url.Fits (url : Url) : Prop := url.path.length + url.host.length + (decimal url.port).length ≤ 884

section
variable (connects : Bytes → Bytes → Bool) (nonce : Fin 16 → Byte) (url : Bytes)

def connectKey : Bytes := base64Encode (List.ofFn nonce)

theorem connectKey_length : (connectKey nonce).length = 24 := by
  unfold connectKey
  rw [base64Encode_length, List.length_ofFn]

/-- One request is queued, and however it is cut it is served; or an error is reported and nothing is queued. -/
def RequestServed : Prop :=
  (∃ parts request, parseWsUrl url = some parts ∧ websocketConnect connects nonce url = { reported := none, queued := [request] } ∧
    ∀ fragments : List Bytes, fragments.flatten = request → Served parts (connectKey nonce) request fragments) ∨
  ((websocketConnect connects nonce url).reported ≠ none ∧ (websocketConnect connects nonce url).queued = [])

variable {url}

theorem websocketConnect_invalid (parsed : parseWsUrl url = none) :
    websocketConnect connects nonce url = { reported := some (.badRequest "Invalid websocket URL"), queued := [] } := by
  unfold websocketConnect
  rw [parsed]

variable {connects} {parts : Url}

theorem websocketConnect_failed (parsed : parseWsUrl url = some parts) (refused : connects parts.host (decimal parts.port) = false) :
    websocketConnect connects nonce url = { reported := some (.network "Connection failed"), queued := [] } := by
  unfold websocketConnect
  rw [parsed]
  exact if_neg (by rw [refused]; exact Bool.false_ne_true)

theorem websocketConnect_connected (parsed : parseWsUrl url = some parts) (connected : connects parts.host (decimal parts.port) = true) :
    websocketConnect connects nonce url = { reported := none, queued := [handshakeRequest parts (connectKey nonce)] } := by
  unfold websocketConnect
  rw [parsed]
  exact if_pos connected

theorem handshakeRequest_fits (fits : parts.Fits) : handshakeRequest parts (connectKey nonce) = requestFormat parts (connectKey nonce) := by
  unfold handshakeRequest
  rw [List.take_of_length_le]
  rw [requestFormat_length parts (connectKey_length nonce)]
  unfold Url.Fits at fits
  unfold requestSize
  omega

theorem fits_of_served (rooted : parts.path.head? = some (ch '/'))
    (served : ∀ fragments : List Bytes, fragments.flatten = handshakeRequest parts (connectKey nonce) →
      Served parts (connectKey nonce) (handshakeRequest parts (connectKey nonce)) fragments) : parts.Sound ∧ parts.Fits := by
  have alone := served [handshakeRequest parts (connectKey nonce)] (by simp)
  have length := connectKey_length nonce
  have letters : ∀ c ∈ connectKey nonce, isBase64 c = true := base64Encode_isBase64 _
  have room : (handshakeRequest parts (connectKey nonce)).length ≤ 1023 := List.length_take_le _ _
  rcases sound_of_served alone with ⟨sound, path, host⟩
  refine ⟨sound, ?_⟩
  unfold hostValue at host
  rw [List.length_append, List.length_append] at host
  -- the missing bytes, offered behind the request, are not read any more
  have split : handshakeRequest parts (connectKey nonce) ++ (requestFormat parts (connectKey nonce)).drop (requestSize - 1) =
      requestFormat parts (connectKey nonce) := List.take_append_drop _ _
  have cut : [handshakeRequest parts (connectKey nonce),
      (requestFormat parts (connectKey nonce)).drop (requestSize - 1)].flatten = requestFormat parts (connectKey nonce) := by
    simpa using split
  have uncut := served_sound sound rooted letters length (by omega) cut
  have stopped : feedFragments (freshParser false)
      [handshakeRequest parts (connectKey nonce), (requestFormat parts (connectKey nonce)).drop (requestSize - 1)] =
        feedFragments (freshParser false) [handshakeRequest parts (connectKey nonce)] :=
    feedFragments_stops alone.complete _
  have same := uncut.whole
  rw [stopped, alone.whole, requestFormat_length parts length] at same
  unfold Url.Fits
  omega

end

/-- Exactly the URLs whose path and host the parser admits, and that fit the buffer, are asked for as they were meant. -/
theorem request_served_iff (connects : Bytes → Bytes → Bool) (nonce : Fin 16 → Byte) (url : Bytes) :
    RequestServed connects nonce url ↔
      ∀ parts, parseWsUrl url = some parts → connects parts.host (decimal parts.port) = true → parts.Sound ∧ parts.Fits := by
  constructor
  · rintro served parts parsed connected
    have queued := websocketConnect_connected nonce parsed connected
    rcases served with ⟨parts', request, parsed', result, served⟩ | ⟨reported, _⟩
    · have same : parts' = parts := Option.some.inj (parsed'.symm.trans parsed)
      subst same
      rw [queued] at result
      have written : handshakeRequest parts' (connectKey nonce) = request :=
        List.head_eq_of_cons_eq (ConnectResult.mk.inj result).2
      subst written
      exact fits_of_served nonce (parseWsUrl_path parsed) served
    · rw [queued] at reported
      exact absurd rfl reported
  · intro admitted
    cases parsed : parseWsUrl url with
    | none =>
      right
      rw [websocketConnect_invalid connects nonce parsed]
      exact ⟨Option.some_ne_none _, rfl⟩
    | some parts =>
      cases connected : connects parts.host (decimal parts.port) with
      | false =>
        right
        rw [websocketConnect_failed nonce parsed connected]
        exact ⟨Option.some_ne_none _, rfl⟩
      | true =>
        rcases admitted parts parsed connected with ⟨sound, fits⟩
        left
        refine ⟨parts, _, parsed, websocketConnect_connected nonce parsed connected, ?_⟩
        rw [handshakeRequest_fits nonce fits]
        intro fragments cut
        unfold Url.Fits at fits
        exact served_sound sound (parseWsUrl_path parsed) (base64Encode_isBase64 _) (connectKey_length nonce) (by omega) cut

/-- A line break in the path makes a field of what follows it. -/
theorem not_requestServed_injected :
    ¬ RequestServed (fun _ _ => true) (fun _ => 0) (ascii "ws://127.0.0.1:80/chat\r\nInjected: yes") := by
  intro served
  have parsed : parseWsUrl (ascii "ws://127.0.0.1:80/chat\r\nInjected: yes") =
      some ⟨ascii "127.0.0.1", 80, ascii "/chat\r\nInjected: yes"⟩ := by decide
  rcases served with ⟨parts, request, parsed', result, served⟩ | ⟨reported, _⟩
  · have same := Option.some.inj (parsed'.symm.trans parsed)
    have sound := (sound_of_served (served [request] (by simp))).1.path
    rw [same] at sound
    exact absurd sound (by decide)
  · exact absurd (by rw [websocketConnect_connected (fun _ => 0) parsed rfl]) reported

end BlueBird.WebSocket
