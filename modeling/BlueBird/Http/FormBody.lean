import BlueBird.Http.HeaderTable

namespace BlueBird.Http

/-! ## What the escapes of a text stand for -/

/-- The octets that `bb_decode_percent` puts in the place of an escape. -/
def escapedOctets : Bytes → List Byte
  | [] => []
  | c :: rest =>
    match rest with
    | hi :: lo :: tail =>
      match if c = ch '%' then percentOctet [hi, lo] else none with
      | some octet => UInt8.ofNat octet :: escapedOctets tail
      | none => escapedOctets (hi :: lo :: tail)
    | short => escapedOctets short

def unplus (c : Byte) : Byte := if c = ch '+' then ch ' ' else c

/-- An escape with two bytes behind it and what follows them. -/
structure Escape (c : Byte) (rest : Bytes) (octet : Byte) (tail : Bytes) : Prop where
  digits : ∃ hi lo n, c = ch '%' ∧ rest = hi :: lo :: tail ∧ percentOctet [hi, lo] = some n
  octets : escapedOctets (c :: rest) = octet :: escapedOctets tail
  decoded : decodePercent true (c :: rest) = octet :: decodePercent true tail

structure Plainly (c : Byte) (rest : Bytes) : Prop where
  octets : escapedOctets (c :: rest) = escapedOctets rest
  decoded : decodePercent true (c :: rest) = unplus c :: decodePercent true rest

theorem decode_cases (c : Byte) (rest : Bytes) : (∃ octet tail, Escape c rest octet tail) ∨ Plainly c rest := by
  by_cases plus : c = ch '+'
  · right
    rw [plus]
    rcases rest with _ | ⟨hi, _ | ⟨lo, tail⟩⟩ <;> exact ⟨rfl, rfl⟩
  · have kept : unplus c = c := if_neg plus
    have other : ¬ (true = true ∧ c = ch '+') := fun both => plus both.2
    rcases rest with _ | ⟨hi, _ | ⟨lo, tail⟩⟩
    · right
      refine ⟨rfl, ?_⟩
      rw [kept]
      exact if_neg other
    · right
      refine ⟨rfl, ?_⟩
      rw [kept]
      exact if_neg other
    · cases found : if c = ch '%' then percentOctet [hi, lo] else none with
      | none =>
        right
        constructor
        · rw [escapedOctets, found]
        · rw [decodePercent, if_neg other, found, kept]
      | some octet =>
        left
        have percent : c = ch '%' := by
          by_contra differs
          rw [if_neg differs] at found
          cases found
        refine ⟨UInt8.ofNat octet, tail, ⟨hi, lo, octet, percent, rfl, ?_⟩, ?_, ?_⟩
        · rw [if_pos percent] at found
          exact found
        · rw [escapedOctets, found]
        · rw [decodePercent, if_neg other, found]

theorem decode_induction {motive : Bytes → Prop} (nil : motive [])
    (escape : ∀ c rest octet tail, Escape c rest octet tail → motive tail → motive (c :: rest))
    (plain : ∀ c rest, Plainly c rest → motive rest → motive (c :: rest)) (body : Bytes) : motive body := by
  generalize size : body.length = n
  induction n using Nat.strong_induction_on generalizing body with
  | _ n ih =>
    cases body with
    | nil => exact nil
    | cons c rest =>
      rw [List.length_cons] at size
      rcases decode_cases c rest with ⟨octet, tail, found⟩ | found
      · rcases found.digits with ⟨hi, lo, _, _, rfl, _⟩
        rw [List.length_cons, List.length_cons] at size
        exact escape c _ octet tail found (ih tail.length (by omega) tail rfl)
      · exact plain c rest found (ih rest.length (by omega) rest rfl)

theorem decodePercent_length (body : Bytes) :
    (decodePercent true body).length + 2 * (escapedOctets body).length = body.length := by
  induction body using decode_induction with
  | nil => rfl
  | escape c rest octet tail found ih =>
    rcases found.digits with ⟨hi, lo, n, _, rfl, _⟩
    rw [found.decoded, found.octets]
    simp only [List.length_cons]
    omega
  | plain c rest found ih =>
    rw [found.decoded, found.octets]
    simp only [List.length_cons]
    omega

theorem decodePercent_plain {body : Bytes} (plain : escapedOctets body = []) : decodePercent true body = body.map unplus := by
  induction body using decode_induction with
  | nil => rfl
  | escape c rest octet tail found ih =>
    rw [found.octets] at plain
    cases plain
  | plain c rest found ih =>
    rw [found.octets] at plain
    rw [found.decoded, ih plain, List.map_cons]

theorem escapedOctets_escape {hi lo : Byte} {n : Nat} (digits : percentOctet [hi, lo] = some n) (tail : Bytes) :
    escapedOctets (ch '%' :: hi :: lo :: tail) = UInt8.ofNat n :: escapedOctets tail := by
  rw [escapedOctets, if_pos rfl, digits]

theorem escapedOctets_append {front back : Bytes} (plain : escapedOctets (front ++ back) = []) : escapedOctets front = [] := by
  induction front with
  | nil => rfl
  | cons c front ih =>
    rw [List.cons_append] at plain
    rcases decode_cases c (front ++ back) with ⟨octet, tail, found⟩ | found
    · rw [found.octets] at plain
      cases plain
    · rcases decode_cases c front with ⟨octet, tail, inside⟩ | inside
      · rcases inside.digits with ⟨hi, lo, n, rfl, rfl, digits⟩
        rw [List.cons_append, List.cons_append, escapedOctets_escape digits] at plain
        cases plain
      · rw [found.octets] at plain
        rw [inside.octets]
        exact ih plain

/-! ## Decoding in place -/

def textOf (body : Bytes) : Bytes := body.takeWhile (· ≠ 0)

theorem textOf_append (body : Bytes) : textOf body ++ body.drop (textOf body).length = body :=
  List.prefix_iff_eq_append.mp (List.takeWhile_prefix _)

theorem textOf_length_le (body : Bytes) : (textOf body).length ≤ body.length := (List.takeWhile_prefix _).length_le

theorem textOf_stop (body : Bytes) :
    (0 : Byte) :: (body ++ [0]).drop ((textOf body).length + 1) = body.drop (textOf body).length ++ [0] := by
  induction body with
  | nil => rfl
  | cons c body ih =>
    by_cases nul : c = 0
    · rw [nul]
      rfl
    · have text : textOf (c :: body) = c :: textOf body := List.takeWhile_cons_of_pos (by simpa using nul)
      rw [text, List.length_cons, List.cons_append, List.drop_succ_cons, List.drop_succ_cons, ih]

theorem textOf_nonzero {body : Bytes} {i : Nat} (inside : i < (textOf body).length) : body[i]? ≠ some 0 := by
  intro nul
  rw [← textOf_append body, List.getElem?_append_left inside] at nul
  have member := List.mem_of_getElem? nul
  have nonzero := List.mem_takeWhile_imp member
  exact absurd nonzero (by decide)

theorem decodePercentIn_eq (body : Bytes) :
    decodePercentIn true body =
      (decodePercent true (textOf body) ++ (0 : Byte) :: (body ++ [0]).drop ((decodePercent true (textOf body)).length + 1)).take
        body.length := rfl

theorem decodePercentIn_plain {body : Bytes} (plain : escapedOctets (textOf body) = []) :
    decodePercentIn true body = (textOf body).map unplus ++ body.drop (textOf body).length := by
  have inside := textOf_length_le body
  rw [decodePercentIn_eq, decodePercent_plain plain, List.length_map, textOf_stop, ← List.append_assoc]
  apply List.take_left'
  rw [List.length_append, List.length_map, List.length_drop]
  omega

theorem decodePercentIn_escaped {body : Bytes} (escaped : escapedOctets (textOf body) ≠ []) :
    (decodePercentIn true body)[(decodePercent true (textOf body)).length]? = some 0 ∧
      (decodePercent true (textOf body)).length < (textOf body).length ∧
      (decodePercentIn true body).length = body.length := by
  have shrinks := decodePercent_length (textOf body)
  have some_ := List.length_pos_iff.mpr escaped
  have inside := textOf_length_le body
  rw [decodePercentIn_eq]
  generalize decodePercent true (textOf body) = decoded at shrinks ⊢
  refine ⟨?_, by omega, ?_⟩
  · rw [List.getElem?_take_of_lt (by omega), List.getElem?_append_right (Nat.le_refl _), Nat.sub_self]
    rfl
  · rw [List.length_take, List.length_append, List.length_cons, List.length_drop, List.length_append, List.length_singleton]
    omega

/-! ## The body of a request -/

/-- The bytes that separate the fields of a form are none that an escape stands for. -/
def BoundariesKept (body : Bytes) : Prop := ch '&' ∉ escapedOctets body ∧ ch '=' ∉ escapedOctets body

/-- The body is the one that was sent, or that of a form, decoded as a whole with its boundaries in place. -/
def BodyIntact (parsed : Request) (req : ServerRequest) : Prop :=
  req.msg.body = parsed.body ∨
    (announcesForm parsed.headers = true ∧ req.msg.body = decodePercent true parsed.body ∧ BoundariesKept parsed.body)

/-- There is nothing to decode before the first NUL, or no escape anywhere and no plus behind it. -/
def Undecodable (body : Bytes) : Prop :=
  (escapedOctets (textOf body) = [] ∧ ch '+' ∉ textOf body) ∨
    (escapedOctets body = [] ∧ ch '+' ∉ body.drop (textOf body).length)

theorem map_unplus_eq_self {text : Bytes} : text.map unplus = text ↔ ch '+' ∉ text := by
  constructor
  · intro same member
    rw [← same] at member
    rcases List.mem_map.mp member with ⟨c, _, plus⟩
    unfold unplus at plus
    by_cases here : c = ch '+'
    · rw [if_pos here] at plus
      exact absurd plus (by decide)
    · rw [if_neg here] at plus
      exact here plus
  · intro absent
    have same : text.map unplus = text.map id := by
      apply List.map_congr_left
      intro c member
      apply if_neg
      rintro rfl
      exact absent member
    rw [same, List.map_id]

theorem undecoded_iff (body : Bytes) :
    (decodePercentIn true body = body ∨ (decodePercentIn true body = decodePercent true body ∧ BoundariesKept body)) ↔
      Undecodable body := by
  have split := textOf_append body
  have mapped : body.map unplus = (textOf body).map unplus ++ (body.drop (textOf body).length).map unplus := by
    rw [← List.map_append, split]
  by_cases plain : escapedOctets (textOf body) = []
  · have stored := decodePercentIn_plain plain
    rw [stored]
    constructor
    · rintro (same | ⟨decoded, _⟩)
      · left
        refine ⟨plain, map_unplus_eq_self.mp ?_⟩
        exact List.append_cancel_right (same.trans split.symm)
      · right
        have whole := decodePercent_length body
        have lengths := congrArg List.length decoded
        rw [List.length_append, List.length_map, List.length_drop] at lengths
        have inside := textOf_length_le body
        have none_ : escapedOctets body = [] := List.length_eq_zero_iff.mp (by omega)
        refine ⟨none_, map_unplus_eq_self.mp ?_⟩
        rw [decodePercent_plain none_, mapped] at decoded
        exact (List.append_cancel_left decoded).symm
    · rintro (⟨_, absent⟩ | ⟨none_, absent⟩)
      · left
        rw [map_unplus_eq_self.mpr absent]
        exact split
      · right
        constructor
        · rw [decodePercent_plain none_, mapped, map_unplus_eq_self.mpr absent]
        · unfold BoundariesKept
          rw [none_]
          exact ⟨List.not_mem_nil, List.not_mem_nil⟩
  · rcases decodePercentIn_escaped plain with ⟨nul, before, length⟩
    constructor
    · rintro (same | ⟨decoded, _⟩)
      · rw [same] at nul
        exact absurd nul (textOf_nonzero before)
      · have whole := decodePercent_length body
        have none_ : escapedOctets body = [] := by
          rw [← decoded, length] at whole
          exact List.length_eq_zero_iff.mp (by omega)
        rw [← split] at none_
        exact absurd (escapedOctets_append none_) plain
    · rintro (⟨none_, _⟩ | ⟨none_, _⟩)
      · exact absurd none_ plain
      · rw [← split] at none_
        exact absurd (escapedOctets_append none_) plain

theorem bodyIntact_iff {parsed : Request} {req : ServerRequest} (converted : serverRequestFromParsed parsed = some req) :
    BodyIntact parsed req ↔ announcesForm parsed.headers = false ∨ Undecodable parsed.body := by
  rcases serverRequestFromParsed_eq_some.mp converted with ⟨_, _, _, _, whole⟩
  have body : req.msg.body = if announcesForm parsed.headers then decodePercentIn true parsed.body else parsed.body := by
    rw [whole]
    exact serverMessage_body parsed req.path
  unfold BodyIntact
  rw [body]
  cases announcesForm parsed.headers with
  | false => exact ⟨fun _ => .inl rfl, fun _ => .inl rfl⟩
  | true =>
    rw [if_pos rfl, ← undecoded_iff]
    constructor
    · intro intact
      rcases intact with same | ⟨_, decoded⟩
      · exact .inr (.inl same)
      · exact .inr (.inr decoded)
    · intro either
      rcases either with no | same | decoded
      · cases no
      · exact .inl same
      · exact .inr ⟨rfl, decoded⟩

def formRequest (body : Bytes) : Request where
  method := ascii "POST"
  target := ascii "/"
  versionMajor := 1
  versionMinor := 1
  headers := [⟨ascii "Content-Type", formEncoded⟩]
  body := body

def formConverted (body : Bytes) : ServerRequest where
  msg := { startLine := ascii "POST / HTTP/1.1", headers := [(ascii "Content-Type", formEncoded)], body }
  method := ascii "POST"
  path := ascii "/"
  version := ascii "HTTP/1.1"

theorem bodyIntact_iff_plain : BodyIntact (formRequest (ascii "a=1&b=2")) (formConverted (ascii "a=1&b=2")) :=
  (bodyIntact_iff (by decide +kernel)).mpr (.inr (.inl (by unfold textOf; decide +kernel)))

def formCalls : List ParserCall :=
  [.feed (ascii "POST / HTTP/1.1\r\nContent-Type: application/x-www-form-urlencoded\r\nContent-Length: 7\r\n\r\na=1%262")]

/-- The body is `a=1&2` and two bytes that nothing decodes to, and reads like two fields. -/
theorem not_bodyIntact_ampersand :
    ∃ parsed req, httpParserGetRequest (afterCalls (freshParser false) formCalls) = some parsed ∧
      serverRequestFromParsed parsed = some req ∧ req.msg.body = ascii "a=1&2" ++ [0, ch '2'] ∧ ¬ BodyIntact parsed req := by
  have reads : (httpParserGetRequest (afterCalls (freshParser false) formCalls)).isSome = true := by decide +kernel
  rcases Option.isSome_iff_exists.mp reads with ⟨parsed, complete⟩
  have converts : ((httpParserGetRequest (afterCalls (freshParser false) formCalls)).bind serverRequestFromParsed).map
      (·.msg.body) = some (ascii "a=1&2" ++ [0, ch '2']) := by decide +kernel
  have sent : (httpParserGetRequest (afterCalls (freshParser false) formCalls)).map (fun parsed => parsed.body) =
      some (ascii "a=1%262") := by decide +kernel
  rw [complete] at converts sent
  rcases Option.map_eq_some_iff.mp converts with ⟨req, converted, body⟩
  refine ⟨parsed, req, complete, converted, body, ?_⟩
  have wire : parsed.body = ascii "a=1%262" := Option.some.inj sent
  unfold BodyIntact
  rw [body, wire]
  rintro (same | ⟨_, decoded, _⟩)
  · exact absurd same (by decide)
  · exact absurd decoded (by decide +kernel)

end BlueBird.Http
