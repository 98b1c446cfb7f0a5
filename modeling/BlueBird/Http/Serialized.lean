import BlueBird.Http.Framing

namespace BlueBird.Http

open Message (crlf)

/-! ## The lines that a writer makes of headers -/

def lineOf (h : Bytes × Bytes) : Bytes := h.1 ++ ascii ": " ++ h.2

def headerOf (h : Bytes × Bytes) : Header where
  name := h.1
  value := h.2

theorem tchar_not_colon {c : Byte} (token : isTchar c = true) : c ≠ ch ':' := by
  rintro rfl
  exact absurd token (by decide)

theorem not_tchar_of_le {c : Byte} (low : c ≤ 0x20) : isTchar c = false := by
  have all : ∀ n : Fin 33, isTchar (UInt8.ofNat n.val) = false := by decide
  have small : c.toNat < 33 := by
    have le := UInt8.le_iff_toNat_le.mp low
    exact Nat.lt_succ_of_le le
  have same := all ⟨c.toNat, small⟩
  rwa [UInt8.ofNat_toNat] at same

theorem tchar_plain {c : Byte} (token : isTchar c = true) : Plain c ∧ isBlank c = false := by
  have high : ¬ c ≤ 0x20 := fun low => by
    rw [not_tchar_of_le low] at token
    cases token
  refine ⟨⟨?_, ?_, ?_⟩, ?_⟩
  · rintro rfl
    exact high (by decide)
  · rintro rfl
    exact high (by decide)
  · rintro rfl
    exact high (by decide)
  · cases blank : isBlank c with
    | false => rfl
    | true =>
      unfold isBlank at blank
      rcases Bool.or_eq_true_iff.mp blank with space | tab
      · rw [beq_iff_eq.mp space] at high
        exact absurd (by decide) high
      · rw [beq_iff_eq.mp tab] at high
        exact absurd (by decide) high

theorem plain_of_value {c : Byte} (clean : ((c < 0x20 ∧ c ≠ ch '\t') ∨ c = 0x7F : Bool) = false) : Plain c := by
  simp only [decide_eq_false_iff_not, not_or, not_and_or, Decidable.not_not] at clean
  refine ⟨?_, ?_, ?_⟩
  · rintro rfl
    exact absurd clean (by decide)
  · rintro rfl
    exact absurd clean (by decide)
  · rintro rfl
    exact absurd clean (by decide)

theorem wellFormed_value {h : Header} (sound : WellFormed h) : ∀ c ∈ h.value, Plain c := by
  intro c member
  have clean := List.any_eq_false.mp sound.value c member
  exact plain_of_value (Bool.eq_false_iff.mpr clean)

section
variable {h : Bytes × Bytes} (sound : WellFormed (headerOf h))
include sound

theorem takeWhile_lineOf : (lineOf h).takeWhile (· ≠ ch ':') = h.1 := by
  have names : ∀ c ∈ h.1, decide (c ≠ ch ':') = true := fun c member =>
    decide_eq_true (tchar_not_colon (List.all_eq_true.mp sound.token c member))
  unfold lineOf
  rw [List.append_assoc, List.takeWhile_append_of_pos names]
  show h.1 ++ (ch ':' :: _).takeWhile _ = h.1
  rw [List.takeWhile_cons_of_neg (by simp), List.append_nil]

theorem fieldOf_lineOf : fieldOf (lineOf h) = headerOf h := by
  unfold fieldOf headerOf
  rw [takeWhile_lineOf sound]
  have drop : (lineOf h).drop (h.1.length + 1) = ch ' ' :: h.2 := by
    unfold lineOf
    rw [List.append_assoc, List.drop_append, List.drop_of_length_le (by omega)]
    have one : h.1.length + 1 - h.1.length = 1 := by omega
    rw [one]
    rfl
  have trimmed : trimBlanks (ch ' ' :: h.2) = trimBlanks h.2 := rfl
  have whole : trimBlanks h.2 = h.2 := sound.trimmed
  rw [drop, trimmed, whole]

theorem lineOf_plain : ∀ c ∈ lineOf h, Plain c := by
  intro c member
  rcases List.mem_append.mp member with front | value
  · rcases List.mem_append.mp front with name | separator
    · exact (tchar_plain (List.all_eq_true.mp sound.token c name)).1
    · have all : ∀ c ∈ ascii ": ", Plain c := forall_of_all (by decide)
      exact all c separator
  · exact wellFormed_value sound c value

theorem fieldLine_lineOf (short : (lineOf h).length ≤ maxHeaderSize) : FieldLine (lineOf h) where
  clean := ⟨lineOf_plain sound, short⟩
  unfolded := by
    have some_ := sound.name
    unfold lineOf
    cases name : h.1 with
    | nil => exact absurd name some_
    | cons c cs =>
      have first : c ∈ (headerOf h).name := by
        show c ∈ h.1
        rw [name]
        exact List.mem_cons_self
      exact (tchar_plain (List.all_eq_true.mp sound.token c first)).2
  name := by
    rw [fieldOf_lineOf sound]
    exact sound.name
  colon := by
    rw [fieldOf_lineOf sound]
    show h.1.length ≠ (h.1 ++ ascii ": " ++ h.2).length
    rw [List.length_append, List.length_append]
    have two : (ascii ": ").length = 2 := by decide
    omega
  token := by
    rw [fieldOf_lineOf sound]
    exact sound.token
  value := by
    rw [fieldOf_lineOf sound]
    exact sound.value

end

theorem lineOf_ne_nil (h : Bytes × Bytes) : lineOf h ≠ [] := by
  intro empty
  have length := congrArg List.length empty
  unfold lineOf at length
  rw [List.length_append, List.length_append] at length
  have two : (ascii ": ").length = 2 := by decide
  simp only [List.length_nil] at length
  omega

theorem fieldOf_wellFormed {line : Bytes} (field : FieldLine line) : WellFormed (fieldOf line) where
  name := field.name
  token := field.token
  value := field.value
  trimmed := trimBlanks_idem _

def headOf (start : Bytes) (hs : List (Bytes × Bytes)) (plain : ∀ c ∈ start, Plain c)
    (sound : ∀ h ∈ hs, WellFormed (headerOf h)) : Head where
  start := start
  fields := hs.map lineOf
  unbroken := by
    intro line member c inside
    rcases List.mem_cons.mp member with rfl | field
    · exact ⟨(plain c inside).1, (plain c inside).2.1⟩
    · rcases List.mem_map.mp field with ⟨h, listed, rfl⟩
      have clean := lineOf_plain (sound h listed) c inside
      exact ⟨clean.1, clean.2.1⟩
  nonempty := by
    intro line member
    rcases List.mem_map.mp member with ⟨h, listed, rfl⟩
    exact lineOf_ne_nil h

theorem fieldOf_lines {hs : List (Bytes × Bytes)} (sound : ∀ h ∈ hs, WellFormed (headerOf h)) :
    (hs.map lineOf).map fieldOf = hs.map headerOf := by
  rw [List.map_map]
  exact List.map_congr_left fun h member => fieldOf_lineOf (sound h member)

theorem headOf_headers (start : Bytes) (hs : List (Bytes × Bytes)) (plain : ∀ c ∈ start, Plain c)
    (sound : ∀ h ∈ hs, WellFormed (headerOf h)) : (headOf start hs plain sound).headers = hs.map headerOf :=
  fieldOf_lines sound

theorem headOf_bytes (start : Bytes) (hs : List (Bytes × Bytes)) (plain : ∀ c ∈ start, Plain c)
    (sound : ∀ h ∈ hs, WellFormed (headerOf h)) :
    (headOf start hs plain sound).bytes = start ++ crlf ++ (hs.map Message.headerLine).flatten ++ crlf := by
  have lines : ended (hs.map lineOf) = (hs.map Message.headerLine).flatten := by
    unfold ended
    rw [List.map_map]
    rfl
  unfold Head.bytes
  rw [← lines]
  rfl

/-! ## The body -/

def ParserCore.activeBody (p : ParserCore) : Bytes := if p.responseMode then p.response.body else p.request.body

theorem extendBody_activeBody (p : ParserCore) (data : Bytes) : (p.extendBody data).activeBody = p.activeBody ++ data := by
  unfold ParserCore.extendBody ParserCore.appendActiveBody ParserCore.activeBody
  by_cases mode : p.responseMode = true
  · simp [mode]
  · simp [mode]

theorem taking_activeBody (p : ParserCore) (line : Bytes) : (p.taking line).activeBody = p.activeBody := by
  show (if (p.taking line).responseMode then _ else _) = _
  rw [taking_responseMode]
  unfold ParserCore.activeBody ParserCore.taking ParserCore.framed
  by_cases mode : p.responseMode = true
  · rw [storeField_response mode, if_pos mode, if_pos mode]
    rfl
  · rw [storeField_request mode, if_neg mode, if_neg mode]
    rfl

theorem taking_bodyWritten (p : ParserCore) (line : Bytes) : (p.taking line).bodyWritten = p.bodyWritten := by
  unfold ParserCore.taking ParserCore.framed
  by_cases mode : p.responseMode = true
  · rw [storeField_response mode]
    rfl
  · rw [storeField_request mode]
    rfl

theorem takingAll_body (p : ParserCore) (lines : List Bytes) :
    (p.takingAll lines).activeBody = p.activeBody ∧ (p.takingAll lines).bodyWritten = p.bodyWritten := by
  induction lines generalizing p with
  | nil => exact ⟨rfl, rfl⟩
  | cons line lines ih =>
    rcases ih (p.taking line) with ⟨body, written⟩
    exact ⟨body.trans (taking_activeBody p line), written.trans (taking_bodyWritten p line)⟩

theorem reads_fixed {p : ParserCore} (state : p.state = .bodyFixed) (fresh : p.bodyWritten = 0) {body : Bytes}
    (announced : p.contentLength = body.length) (rest : Bytes) :
    (p.reads (body ++ rest)).1.status = .complete ∧ (p.reads (body ++ rest)).2 = rest ∧
      (p.reads (body ++ rest)).1.activeBody = p.activeBody ++ body := by
  have need : p.contentLength - p.bodyWritten = body.length := by
    rw [announced, fresh]
    rfl
  have turn := turn_fixed_done p (body ++ rest) state (by rw [need, List.length_append]; omega)
  rw [need, List.take_left, List.drop_left] at turn
  have read : p.feed (body ++ rest) = ({ p.extendBody body with state := .stateComplete }, rest) := by
    rw [feed_eq, turn]
  unfold ParserCore.reads
  rw [read]
  exact ⟨rfl, rfl, extendBody_activeBody p body⟩

theorem applyContentLength_decimal (n : Nat) :
    applyContentLength false (decimal n) =
      (contentLengthDigits 0 (decimal n) >>= fun val =>
        if val > maxBodySize then .error "Content-Length exceeds configured body limit" else .ok val) := by
  have unfolded : applyContentLength false (decimal n) =
      if (decimal n).length = 0 then .error "empty Content-Length value"
      else (contentLengthDigits 0 (decimal n) >>= fun val =>
        if val > maxBodySize then .error "Content-Length exceeds configured body limit" else .ok val) := rfl
  rw [unfolded, if_neg fun empty => decimal_ne_nil n (List.length_eq_zero_iff.mp empty)]

theorem lengthOf_decimal {n : Nat} (small : n ≤ maxBodySize) : lengthOf (decimal n) = some n := by
  have fits : n ≤ uint64Max := Nat.le_trans small (by decide)
  have applied : applyContentLength false (decimal n) = .ok n := by
    rw [applyContentLength_decimal, contentLengthDigits_decimal fits]
    show (if n > maxBodySize then _ else _) = _
    rw [if_neg (Nat.not_lt.mpr small)]
  unfold lengthOf
  rw [applied]
  rfl

theorem lengthOf_decimal_large {n : Nat} (some_ : lengthOf (decimal n) ≠ none) : n ≤ maxBodySize := by
  unfold lengthOf at some_
  rw [applyContentLength_decimal] at some_
  cases read : contentLengthDigits 0 (decimal n) with
  | error e =>
    rw [read] at some_
    exact absurd rfl some_
  | ok v =>
    rw [read] at some_
    have value := contentLengthDigits_decimal_value read
    subst value
    by_cases large : v > maxBodySize
    · have refused : (Except.ok v >>= fun val =>
          if val > maxBodySize then Except.error "Content-Length exceeds configured body limit" else Except.ok val) =
          Except.error "Content-Length exceeds configured body limit" := if_pos large
      rw [refused] at some_
      exact absurd rfl some_
    · exact Nat.le_of_not_lt large

/-! ## A whole message -/

/-- Headers and a body that the parser can read back from what a writer makes of them. -/
structure Readable (hs : List (Bytes × Bytes)) (body : Bytes) : Prop where
  sound : ∀ h ∈ hs, WellFormed (headerOf h)
  count : hs.length ≤ maxHeaderCount
  bytes : sectionBytes (hs.map lineOf) ≤ maxHeaderSize
  length : ∃ name, (hs.map headerOf).filter isContentLength = [⟨name, decimal body.length⟩]
  encoding : ∀ h ∈ hs, isTransferEncoding (headerOf h) = false
  body : body.length ≤ maxBodySize

theorem lineOf_le_sectionBytes {lines : List Bytes} {line : Bytes} (member : line ∈ lines) :
    line.length + 2 ≤ sectionBytes lines := by
  induction lines with
  | nil => cases member
  | cons first lines ih =>
    have bytes : sectionBytes (first :: lines) = first.length + 2 + sectionBytes lines := rfl
    rw [bytes]
    rcases List.mem_cons.mp member with rfl | later
    · exact Nat.le_add_right _ _
    · exact Nat.le_trans (ih later) (Nat.le_add_left _ _)

section
variable {hs : List (Bytes × Bytes)} {body : Bytes} (readable : Readable hs body)
include readable

theorem readable_accepted {responseMode : Bool} {start : Bytes} (short : CleanLine maxRequestLine start)
    (taken : (started responseMode start).isSome = true) :
    (headOf start hs short.plain readable.sound).Accepted responseMode where
  short := short
  start := taken
  fields := by
    intro line member
    rcases List.mem_map.mp member with ⟨h, listed, rfl⟩
    have bound := lineOf_le_sectionBytes member
    have bytes := readable.bytes
    exact fieldLine_lineOf (readable.sound h listed) (Nat.le_trans (Nat.le_add_right _ 2) (Nat.le_trans bound bytes))
  count := by
    show (hs.map lineOf).length ≤ _
    rw [List.length_map]
    exact readable.count
  bytes := readable.bytes
  lengths := by
    rcases readable.length with ⟨name, single⟩
    rw [headOf_headers]
    refine ⟨fun h member length => ?_, by rw [single]; exact le_refl _⟩
    have found := List.mem_filter.mpr ⟨member, length⟩
    rw [single] at found
    rw [List.mem_singleton.mp found, lengthOf_decimal readable.body]
    exact Option.some_ne_none _
  encodings := by
    have none_ : ∀ h ∈ hs.map headerOf, isTransferEncoding h = false := by
      intro h member
      rcases List.mem_map.mp member with ⟨g, listed, rfl⟩
      exact readable.encoding g listed
    rw [headOf_headers]
    refine ⟨fun h member encoding => ?_, Or.inr ?_⟩
    · rw [none_ h member] at encoding
      cases encoding
    · have empty : (hs.map headerOf).filter isTransferEncoding = [] :=
        List.filter_eq_nil_iff.mpr fun h member => Bool.eq_false_iff.mp (none_ h member)
      rw [empty]
      intro h member
      cases member

theorem readable_contentLength (p : ParserCore) : (p.takingAll (hs.map lineOf)).contentLength = body.length := by
  rcases readable.length with ⟨name, single⟩
  rw [List.filter_map] at single
  rcases List.map_eq_cons_iff.mp single with ⟨h, rest, split, header, none_⟩
  rcases List.filter_eq_cons_iff.mp split with ⟨before, after, whole, _, length, later⟩
  have inside : h ∈ hs := by
    rw [whole]
    exact List.mem_append_right _ List.mem_cons_self
  have field : fieldOf (lineOf h) = ⟨name, decimal body.length⟩ := (fieldOf_lineOf (readable.sound h inside)).trans header
  have held : isContentLength (fieldOf (lineOf h)) = true := by
    rw [fieldOf_lineOf (readable.sound h inside)]
    exact length
  have tail : ∀ line ∈ after.map lineOf, isContentLength (fieldOf line) = false := by
    intro line member
    rcases List.mem_map.mp member with ⟨g, listed, rfl⟩
    have known : g ∈ hs := by
      rw [whole]
      exact List.mem_append_right _ (List.mem_cons_of_mem _ listed)
    rw [fieldOf_lineOf (readable.sound g known)]
    rw [List.map_eq_nil_iff.mp none_] at later
    exact Bool.eq_false_iff.mpr (List.filter_eq_nil_iff.mp later g listed)
  rw [whole, List.map_append, List.map_cons, takingAll_append]
  show (((p.takingAll (before.map lineOf)).taking (lineOf h)).takingAll (after.map lineOf)).contentLength = _
  rw [takingAll_contentLength tail, (taking_frame _ (lineOf h)).2.2.2.1, if_pos held, field,
    lengthOf_decimal readable.body, Option.getD_some]

theorem readable_hasContentLength : (hs.map headerOf).any isContentLength = true := by
  rcases readable.length with ⟨name, single⟩
  have found : (⟨name, decimal body.length⟩ : Header) ∈ (hs.map headerOf).filter isContentLength := by
    rw [single]
    exact List.mem_singleton_self _
  exact List.any_eq_true.mpr ⟨_, (List.mem_filter.mp found).1, (List.mem_filter.mp found).2⟩

theorem readable_noEncoding : (hs.map headerOf).any isTransferEncoding = false := by
  apply List.any_eq_false.mpr
  intro h member
  rcases List.mem_map.mp member with ⟨g, listed, rfl⟩
  exact Bool.eq_false_iff.mp (readable.encoding g listed)

end

theorem started_activeBody {responseMode : Bool} {start : Bytes} {q : ParserCore} (taken : started responseMode start = some q) :
    q.activeBody = [] := by
  unfold started at taken
  cases responseMode with
  | true =>
    rcases Option.map_eq_some_iff.mp taken with ⟨response, parsed, rfl⟩
    exact (parseResponseLine_keeps (Outcome.ok_of_toOption parsed)).2.2
  | false =>
    rcases Option.map_eq_some_iff.mp taken with ⟨request, parsed, rfl⟩
    exact (parseRequestLine_keeps (Outcome.ok_of_toOption parsed)).2.2.1

theorem finish_fixed {p : ParserCore} {body : Bytes} (length : p.hasContentLength = true) (chunked : p.hasTransferEncoding = false)
    (announced : p.contentLength = body.length) (fresh : p.bodyWritten = 0) (empty : p.activeBody = []) :
    (resume (sectionTurn p.finish.state, p.finish) body).1.status = .complete ∧
      (p.bodiless = true → (resume (sectionTurn p.finish.state, p.finish) body).2 = body) ∧
      (p.bodiless = false → (resume (sectionTurn p.finish.state, p.finish) body).2 = [] ∧
        (resume (sectionTurn p.finish.state, p.finish) body).1.activeBody = body) := by
  have neither : ¬ (p.hasContentLength = true ∧ p.hasTransferEncoding = true) := by simp [chunked]
  have notChunked : ¬ p.hasTransferEncoding = true := by simp [chunked]
  by_cases none_ : p.bodiless = true
  · have done : p.finish = { p with state := .stateComplete } := if_pos none_
    rw [done]
    refine ⟨rfl, fun _ => rfl, fun some_ => ?_⟩
    rw [none_] at some_
    cases some_
  · by_cases long : p.contentLength > 0
    · have waiting : p.finish = { p with state := .bodyFixed } := by
        unfold ParserCore.finish
        rw [if_neg none_, if_neg neither, if_neg notChunked, if_pos ⟨length, long⟩]
      have read := reads_fixed (p := { p with state := .bodyFixed }) rfl fresh announced []
      have whole : p.activeBody ++ body = body := by rw [empty, List.nil_append]
      rw [List.append_nil] at read
      rw [waiting]
      exact ⟨read.1, fun held => absurd held none_, fun _ => ⟨read.2.1, read.2.2.trans whole⟩⟩
    · have done : p.finish = { p with state := .stateComplete } := by
        unfold ParserCore.finish
        rw [if_neg none_, if_neg neither, if_neg notChunked, if_neg fun both => long both.2]
      have none__ : body = [] := List.length_eq_zero_iff.mp (by omega)
      rw [done, none__]
      exact ⟨rfl, fun _ => rfl, fun _ => ⟨rfl, empty⟩⟩

theorem reads_message {hs : List (Bytes × Bytes)} {body : Bytes} (readable : Readable hs body) {responseMode : Bool}
    {start : Bytes} {q : ParserCore} (short : CleanLine maxRequestLine start) (taken : started responseMode start = some q)
    {stream : Bytes} (written : stream = start ++ crlf ++ (hs.map Message.headerLine).flatten ++ crlf ++ body) :
    ((freshCore responseMode).reads stream).1.status = .complete ∧
      ((freshCore responseMode).reads stream).1.startData = q.startData ∧
      ((freshCore responseMode).reads stream).1.activeHeaders = hs.map headerOf ∧
      (q.bodiless = true → ((freshCore responseMode).reads stream).2 = body) ∧
      (q.bodiless = false →
        ((freshCore responseMode).reads stream).2 = [] ∧ ((freshCore responseMode).reads stream).1.activeBody = body) := by
  have accepted := readable_accepted readable short (by rw [taken]; rfl)
  rw [written, ← headOf_bytes start hs short.plain readable.sound]
  rcases reads_head responseMode (headOf start hs short.plain readable.sound) body with
    ⟨q', _, taken', read⟩ | ⟨refused, _⟩
  · have same : q' = q := Option.some.inj (taken'.symm.trans taken)
    subst same
    rcases started_spec taken with ⟨_, _, none_, _, fresh, _, encoding, _⟩
    have data := (resume_finish (q'.takingAll (hs.map lineOf)) body).1
    have settled := takingAll_startData q' (hs.map lineOf)
    have bodiless := bodiless_of_startData settled
    have fields : (q'.takingAll (hs.map lineOf)).activeHeaders = hs.map headerOf := by
      rw [takingAll_activeHeaders, none_, List.nil_append, fieldOf_lines readable.sound]
    have length : (q'.takingAll (hs.map lineOf)).hasContentLength = true := by
      rw [takingAll_hasContentLength, fieldOf_lines readable.sound, readable_hasContentLength readable, Bool.or_true]
    have chunked : (q'.takingAll (hs.map lineOf)).hasTransferEncoding = false := by
      rw [takingAll_hasTransferEncoding, fieldOf_lines readable.sound, readable_noEncoding readable, Bool.or_false, encoding]
    have body_ := takingAll_body q' (hs.map lineOf)
    have finished := finish_fixed length chunked (readable_contentLength readable q') (body_.2.trans fresh)
      (body_.1.trans (started_activeBody taken))
    rw [bodiless] at finished
    rw [read]
    exact ⟨finished.1, (congrArg Prod.fst data).trans settled, (congrArg (fun d => d.2.1) data).trans fields, finished.2⟩
  · exact absurd accepted refused

end BlueBird.Http
