import BlueBird.Http.Decimal

namespace BlueBird.Http

def methodOf (line : Bytes) : Bytes := line.takeWhile (· ≠ ch ' ')

def afterMethod (line : Bytes) : Bytes := line.drop ((methodOf line).length + 1)

def versionOf (line : Bytes) : Bytes := ((afterMethod line).reverse.takeWhile (· ≠ ch ' ')).reverse

def targetOf (line : Bytes) : Bytes := (afterMethod line).take ((afterMethod line).length - (versionOf line).length - 1)

/-- The version at the end of a request line, for the request whose method and target are read. -/
def withVersion (req : Request) : Bytes → Except (Request × String) Request
  | [h, t1, t2, p, slash, major, dot, minor] =>
    if [h, t1, t2, p, slash] ≠ ascii "HTTP/" ∨ !isDigit major ∨ dot ≠ ch '.' ∨ !isDigit minor then
      .error (req, "invalid HTTP version")
    else .ok { req with versionMajor := digitValue major, versionMinor := digitValue minor }
  | _ => .error (req, "invalid HTTP version")

theorem requestLine_eq (line : Bytes) (req : Request) :
    parseRequestLine line req =
      if line.length = 0 then .error (req, "empty request line")
      else if (methodOf line).length = 0 ∨ (methodOf line).length = line.length then
        .error (req, "malformed request line: missing method or target")
      else if !(methodOf line).all isTchar then .error (req, "invalid character in method")
      else if (methodOf line).length ≥ methodSize then .error (req, "method too long")
      else if (versionOf line).length = (afterMethod line).length then
        .error ({ req with method := methodOf line }, "malformed request line: missing version")
      else if (targetOf line).length = 0 then
        .error ({ req with method := methodOf line }, "malformed request line: empty target")
      else if (targetOf line).any fun c => c = ch ' ' ∨ c < 0x20 ∨ c = 0x7F then
        .error ({ req with method := methodOf line }, "invalid character in request-target")
      else if (targetOf line).length ≥ targetSize then
        .error ({ req with method := methodOf line }, "request-target too long")
      else match sanitizeRequestTarget (targetOf line) with
        | .error msg => .error ({ req with method := methodOf line, target := targetOf line }, msg)
        | .ok () => withVersion { req with method := methodOf line, target := targetOf line } (versionOf line) := by
  rfl

theorem withVersion_ok {req r : Request} {version : Bytes} :
    withVersion req version = .ok r ↔
      ∃ major minor, version = ascii "HTTP/" ++ [major, ch '.', minor] ∧ isDigit major = true ∧ isDigit minor = true ∧
        r = { req with versionMajor := digitValue major, versionMinor := digitValue minor } := by
  constructor
  · intro read
    unfold withVersion at read
    split at read
    · rename_i h t1 t2 p slash major dot minor
      split at read
      · cases read
      · rename_i valid
        simp only [not_or, Bool.not_eq_true', Bool.not_eq_false, Decidable.not_not] at valid
        rcases valid with ⟨name, majorDigit, point, minorDigit⟩
        cases read
        refine ⟨major, minor, ?_, majorDigit, minorDigit, rfl⟩
        rw [← name, point]
        rfl
    · cases read
  · rintro ⟨major, minor, rfl, majorDigit, minorDigit, rfl⟩
    have name : ascii "HTTP/" = [ch 'H', ch 'T', ch 'T', ch 'P', ch '/'] := rfl
    rw [name]
    show (if [ch 'H', ch 'T', ch 'T', ch 'P', ch '/'] ≠ ascii "HTTP/" ∨ (!isDigit major) = true ∨ ch '.' ≠ ch '.' ∨
      (!isDigit minor) = true then _ else _) = _
    rw [if_neg]
    simp [name, majorDigit, minorDigit]

/-- What a request line has to be for `parse_request_line`. -/
structure RequestLine (line : Bytes) : Prop where
  method : (methodOf line).length ≠ 0
  space : (methodOf line).length ≠ line.length
  token : (methodOf line).all isTchar = true
  short : (methodOf line).length < methodSize
  version : (versionOf line).length ≠ (afterMethod line).length
  target : (targetOf line).length ≠ 0
  clean : ((targetOf line).any fun c => c = ch ' ' ∨ c < 0x20 ∨ c = 0x7F) = false
  fits : (targetOf line).length < targetSize
  sane : sanitizeRequestTarget (targetOf line) = .ok ()

theorem parseRequestLine_ok {line : Bytes} {req r : Request} :
    parseRequestLine line req = .ok r ↔
      RequestLine line ∧ withVersion { req with method := methodOf line, target := targetOf line } (versionOf line) = .ok r := by
  rw [requestLine_eq]
  constructor
  · intro read
    split at read
    · cases read
    split at read
    · cases read
    rename_i method
    split at read
    · cases read
    rename_i token
    split at read
    · cases read
    rename_i short
    split at read
    · cases read
    rename_i version
    split at read
    · cases read
    rename_i target
    split at read
    · cases read
    rename_i clean
    split at read
    · cases read
    rename_i fits
    split at read
    · cases read
    rename_i sane
    rcases not_or.mp method with ⟨method, space⟩
    refine ⟨⟨method, space, ?_, Nat.lt_of_not_le short, version, target, Bool.eq_false_iff.mpr clean, Nat.lt_of_not_le fits,
      sane⟩, read⟩
    simpa using token
  · rintro ⟨valid, read⟩
    have nonempty : line.length ≠ 0 := by
      intro empty
      have prefix_ := (List.takeWhile_prefix (l := line) (fun c => decide (c ≠ ch ' '))).length_le
      have method := valid.method
      unfold methodOf at method
      omega
    rw [if_neg nonempty, if_neg (not_or.mpr ⟨valid.method, valid.space⟩), if_neg (by rw [valid.token]; decide),
      if_neg (Nat.not_le_of_lt valid.short), if_neg valid.version, if_neg valid.target,
      if_neg (Bool.eq_false_iff.mp valid.clean), if_neg (Nat.not_le_of_lt valid.fits), valid.sane]
    exact read

/-! ## The response line of HTTP/1.1 -/

def cleanReason (reason : Bytes) : Prop :=
  reason.length < maxRequestLine ∧ reason.any (fun c => (c < 0x20 ∧ c ≠ ch '\t') ∨ c = 0x7F) = false

theorem responseLine_eq (h t1 t2 p slash major dot minor space d1 d2 d3 : Byte) (tail : Bytes) (res : Response) :
    parseResponseLine (h :: t1 :: t2 :: p :: slash :: major :: dot :: minor :: space :: d1 :: d2 :: d3 :: tail) res =
      if [h, t1, t2, p, slash] ≠ ascii "HTTP/" then .error (res, "malformed response line")
      else if !isDigit major ∨ dot ≠ ch '.' ∨ !isDigit minor ∨ space ≠ ch ' ' then .error (res, "invalid HTTP version")
      else if !isDigit d1 ∨ !isDigit d2 ∨ !isDigit d3 then .error (res, "invalid response status code")
      else
        let read := { res with
          versionMajor := digitValue major
          versionMinor := digitValue minor
          statusCode := digitValue d1 * 100 + digitValue d2 * 10 + digitValue d3 }
        if tail ≠ [] ∧ tail.head? ≠ some (ch ' ') then .error (read, "malformed response reason phrase")
        else if (tail.drop 1).length ≥ maxRequestLine then .error (read, "reason phrase too long")
        else if (tail.drop 1).any fun c => (c < 0x20 ∧ c ≠ ch '\t') ∨ c = 0x7F then
          .error (read, "invalid character in reason phrase")
        else .ok { read with reason := tail.drop 1 } := by
  rfl

/-- What `parse_response_line` found in a line that it accepted. -/
theorem parseResponseLine_ok {line : Bytes} {res r : Response} (read : parseResponseLine line res = .ok r) :
    ∃ major minor d1 d2 d3 tail, line = ascii "HTTP/" ++ [major, ch '.', minor, ch ' ', d1, d2, d3] ++ tail ∧
      isDigit d1 = true ∧ isDigit d2 = true ∧ isDigit d3 = true ∧ (tail = [] ∨ tail.head? = some (ch ' ')) ∧
      r = { res with
        versionMajor := digitValue major
        versionMinor := digitValue minor
        statusCode := digitValue d1 * 100 + digitValue d2 * 10 + digitValue d3
        reason := tail.drop 1 } := by
  unfold parseResponseLine at read
  split at read
  · rename_i h t1 t2 p slash major dot minor space d1 d2 d3 tail
    have whole := (responseLine_eq h t1 t2 p slash major dot minor space d1 d2 d3 tail res).symm.trans read
    clear read
    split at whole
    · cases whole
    rename_i name
    split at whole
    · cases whole
    rename_i version
    split at whole
    · cases whole
    rename_i digits
    dsimp only at whole
    split at whole
    · cases whole
    rename_i separated
    split at whole
    · cases whole
    split at whole
    · cases whole
    cases whole
    simp only [not_or, Bool.not_eq_true', Bool.not_eq_false, Decidable.not_not] at name version digits
    rcases version with ⟨_, point, _, blank⟩
    rcases digits with ⟨one, two, three⟩
    refine ⟨major, minor, d1, d2, d3, tail, ?_, one, two, three, ?_, rfl⟩
    · rw [← name, point, blank]
      rfl
    · by_cases empty : tail = []
      · exact Or.inl empty
      · exact Or.inr (Decidable.not_not.mp fun wrong => separated ⟨empty, wrong⟩)
  · cases read

theorem parseResponseLine_keeps {line : Bytes} {res r : Response} (read : parseResponseLine line res = .ok r) :
    r.headers = res.headers ∧ r.trailers = res.trailers ∧ r.body = res.body := by
  rcases parseResponseLine_ok read with ⟨_, _, _, _, _, _, _, _, _, _, _, rfl⟩
  exact ⟨rfl, rfl, rfl⟩

theorem parseRequestLine_keeps {line : Bytes} {req r : Request} (read : parseRequestLine line req = .ok r) :
    r.headers = req.headers ∧ r.trailers = req.trailers ∧ r.body = req.body ∧ r.method = methodOf line ∧
      r.target = targetOf line := by
  rcases parseRequestLine_ok.mp read with ⟨_, version⟩
  rcases withVersion_ok.mp version with ⟨major, minor, _, _, _, rfl⟩
  exact ⟨rfl, rfl, rfl, rfl, rfl⟩

theorem parseResponseLine_status (status : Int) {reason : Bytes} (clean : cleanReason reason) (res : Response) :
    if 100 ≤ status ∧ status ≤ 999 then
      parseResponseLine (ascii "HTTP/1.1 " ++ decimalInt status ++ ch ' ' :: reason) res =
        .ok { res with versionMajor := 1, versionMinor := 1, statusCode := status.toNat, reason := reason }
    else ∃ e, parseResponseLine (ascii "HTTP/1.1 " ++ decimalInt status ++ ch ' ' :: reason) res = .error e := by
  by_cases three : 100 ≤ status ∧ status ≤ 999
  · rw [if_pos three]
    have digits := @decimal_three status.toNat (by omega) (by omega)
    have split : decimalInt status = decimal status.toNat := if_neg (by omega)
    have d1 : status.toNat / 100 < 10 := by omega
    have d2 : status.toNat / 10 % 10 < 10 := Nat.mod_lt _ (by decide)
    have d3 : status.toNat % 10 < 10 := Nat.mod_lt _ (by decide)
    have value : status.toNat / 100 * 100 + status.toNat / 10 % 10 * 10 + status.toNat % 10 = status.toNat := by omega
    rw [split, digits, List.append_assoc]
    show parseResponseLine (ascii "HTTP/1.1 " ++ _ :: _ :: _ :: ch ' ' :: reason) res = _
    have name : ascii "HTTP/1.1 " =
      [ch 'H', ch 'T', ch 'T', ch 'P', ch '/', ch '1', ch '.', ch '1', ch ' '] := rfl
    rw [name]
    show parseResponseLine (_ :: _ :: _ :: _ :: _ :: _ :: _ :: _ :: _ :: _ :: _ :: _ :: ch ' ' :: reason) res = _
    rw [responseLine_eq, if_neg (by decide), if_neg (by decide), if_neg (by
      rw [isDigit_digitByte d1, isDigit_digitByte d2, isDigit_digitByte d3]
      decide)]
    dsimp only
    rw [if_neg (fun wrong => wrong.2 rfl), List.drop_one, List.tail_cons, if_neg (Nat.not_le_of_lt clean.1),
      if_neg (Bool.eq_false_iff.mp clean.2), digitValue_digitByte d1, digitValue_digitByte d2, digitValue_digitByte d3, value]
    rfl
  · rw [if_neg three]
    cases read : parseResponseLine (ascii "HTTP/1.1 " ++ decimalInt status ++ ch ' ' :: reason) res with
    | error e => exact ⟨e, rfl⟩
    | ok r =>
      rcases parseResponseLine_ok read with ⟨major, minor, d1, d2, d3, tail, line, one, two, three_, separated, _⟩
      have text : decimalInt status ++ ch ' ' :: reason = d1 :: d2 :: d3 :: tail := by
        rw [List.append_assoc] at line
        simpa [ascii, ch] using congrArg (List.drop 9) line
      apply absurd _ three
      unfold decimalInt at text
      by_cases negative : status < 0
      · rw [if_pos negative] at text
        have first := (List.cons.inj text).1
        rw [← first] at one
        exact absurd one (by decide)
      · rw [if_neg negative] at text
        have digits := congrArg (List.takeWhile isDigit) text
        have left : (decimal status.toNat ++ ch ' ' :: reason).takeWhile isDigit = decimal status.toNat := by
          rw [List.takeWhile_append_of_pos (decimal_isDigit _), List.takeWhile_cons_of_neg (by decide), List.append_nil]
        have right : (d1 :: d2 :: d3 :: tail).takeWhile isDigit = [d1, d2, d3] := by
          have stops : tail.takeWhile isDigit = [] := by
            cases tail with
            | nil => rfl
            | cons c rest =>
              have blank : c = ch ' ' := separated.elim (fun none => by cases none) fun head => Option.some.inj head
              rw [blank]
              exact List.takeWhile_cons_of_neg (by decide)
          rw [List.takeWhile_cons_of_pos one, List.takeWhile_cons_of_pos two, List.takeWhile_cons_of_pos three_, stops]
        rw [left, right] at digits
        have length : (decimal status.toNat).length = 3 := congrArg List.length digits
        have upper : status.toNat < 10 ^ 3 := (decimal_length_le (by decide)).mp (by omega)
        have lower : ¬ status.toNat < 10 ^ 2 := fun short => by
          have two_ := (decimal_length_le (by decide)).mpr short
          omega
        omega

end BlueBird.Http
