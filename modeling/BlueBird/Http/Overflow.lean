import BlueBird.Http.Limits

namespace BlueBird.Http

/-! ## What the arithmetic needs

Each predicate follows the function of its name and says of every sum, product and shift that is computed on the way that
it stays below 2^64, and of every difference that nothing is borrowed. -/

def ParserCore.growFits (p : ParserCore) : Prop :=
  p.lineBuf.length + 1 < 2^64 ∧ p.lineCap * 2 < 2^64 ∧ p.lineLimit + 1 < 2^64

def consumeFits (p : ParserCore) : Bytes → Prop
  | [] => True
  | c :: data =>
    if p.lineSawCr then True
    else if c = ch '\r' then consumeFits { p with lineSawCr := true } data
    else if c = ch '\n' ∨ c = 0 ∨ p.lineBuf.length ≥ p.lineLimit then True
    else p.growFits ∧ consumeFits { p with lineCap := p.growLine, lineBuf := p.lineBuf ++ [c] } data

def lengthDigitsFit (val : Nat) : Bytes → Prop
  | [] => True
  | c :: rest =>
    if c < ch '0' ∨ ch '9' < c then True
    else if val > (uint64Max - digitValue c) / 10 then True
    else val * 10 + digitValue c < 2^64 ∧ lengthDigitsFit (val * 10 + digitValue c) rest

def chunkDigitsFit (val : Nat) : Bytes → Prop
  | [] => True
  | c :: rest =>
    match hexValue c with
    | none => True
    | some digit =>
      if val > uint64Max >>> 4 then True
      else val <<< 4 < 2^64 ∧ val * 16 + digit < 2^64 ∧ chunkDigitsFit (val * 16 + digit) rest

def reserveFits (p : HttpParser) : Prop := p.bodyCap * 2 < 2^64

def appendFits (p : HttpParser) (taken : Nat) : Prop := p.bodyWritten + taken < 2^64 ∧ reserveFits p

def headerFits (p : HttpParser) : Prop :=
  if p.lineBuf.length = 0 then reserveFits p
  else p.headerBytesTotal + (p.lineBuf.length + 2) < 2^64 ∧ lengthDigitsFit 0 (fieldOf p.lineBuf).value

def lineFits (p : HttpParser) : Prop :=
  match p.state with
  | .headers => headerFits p
  | .chunkSize => chunkDigitsFit 0 p.lineBuf ∧ p.bodyWritten ≤ maxBodySize
  | .trailers => p.trailerBytesTotal + (p.lineBuf.length + 2) < 2^64
  | _ => True

def awaitFits (p : HttpParser) (cursor : Bytes) : Prop :=
  consumeFits p.toParserCore cursor ∧ lineFits { p with toParserCore := (consumeLine p.toParserCore cursor).2.1 }

def turnFits (p : HttpParser) (cursor : Bytes) : Prop :=
  match p.state with
  | .requestLine | .headers | .chunkSize | .chunkDataCrlf | .trailers => awaitFits p cursor
  | .bodyFixed =>
    p.bodyWritten ≤ p.contentLength ∧ appendFits p (min (p.contentLength - p.bodyWritten) cursor.length)
  | .chunkData => appendFits p (min p.chunkRemaining cursor.length)
  | _ => True

def loopFits : Nat → HttpParser → Bytes → Prop
  | 0, _, _ => True
  | fuel + 1, p, cursor =>
    turnFits p cursor ∧
      ((feedTurn p cursor).1 = .next → loopFits fuel (feedTurn p cursor).2.1 (feedTurn p cursor).2.2)

def feedFits (p : HttpParser) (data : Bytes) : Prop := loopFits (feedFuel data) { p with lastConsumed := 0 } data

/-! ## Nothing wraps within the limits -/

theorem growFits_of_limits {p : ParserCore} (limits : p.LineLimits) : p.growFits := by
  have line := limits.line
  have limit := limits.limit
  have cap := limits.cap
  unfold ParserCore.growFits
  unfold maxHeaderSize at limit cap
  omega

theorem consumeFits_of_limits {p : ParserCore} (limits : p.LineLimits) (xs : Bytes) : consumeFits p xs := by
  induction xs generalizing p with
  | nil => trivial
  | cons c xs ih =>
    unfold consumeFits
    split
    · trivial
    · split
      · exact ih (limits.same rfl rfl rfl)
      · split
        · trivial
        · rename_i plain
          have room : p.lineBuf.length < p.lineLimit := by
            rcases not_or.mp plain with ⟨_, rest⟩
            exact Nat.lt_of_not_le (not_or.mp rest).2
          exact ⟨growFits_of_limits limits, ih (limits.push room c)⟩

theorem lengthDigitsFit_all (val : Nat) (digits : Bytes) : lengthDigitsFit val digits := by
  induction digits generalizing val with
  | nil => trivial
  | cons c rest ih =>
    unfold lengthDigitsFit
    split
    · trivial
    · rename_i digit
      split
      · trivial
      · rename_i small
        refine ⟨?_, ih _⟩
        rcases not_or.mp digit with ⟨_, high⟩
        have nine : digitValue c ≤ 9 := by
          have top : c.toNat ≤ (ch '9').toNat := UInt8.le_iff_toNat_le.mp (UInt8.not_lt.mp high)
          have zero : (ch '0').toNat = 48 := rfl
          have last : (ch '9').toNat = 57 := rfl
          unfold digitValue
          omega
        have ordered := Nat.le_of_not_lt small
        have scaled := (Nat.le_div_iff_mul_le (by decide : 0 < 10)).mp ordered
        unfold uint64Max at scaled
        omega

theorem hexValue_lt {c : Byte} {digit : Nat} (read : hexValue c = some digit) : digit < 16 := by
  unfold hexValue at read
  split at read
  · rename_i range
    have top := UInt8.le_iff_toNat_le.mp range.2
    have last : (ch '9').toNat = 57 := rfl
    have zero : (ch '0').toNat = 48 := rfl
    cases read
    omega
  · split at read
    · rename_i range
      have top := UInt8.le_iff_toNat_le.mp range.2
      have last : (ch 'f').toNat = 102 := rfl
      have zero : (ch 'a').toNat = 97 := rfl
      cases read
      omega
    · split at read
      · rename_i range
        have top := UInt8.le_iff_toNat_le.mp range.2
        have last : (ch 'F').toNat = 70 := rfl
        have zero : (ch 'A').toNat = 65 := rfl
        cases read
        omega
      · cases read

theorem chunkDigitsFit_all (val : Nat) (digits : Bytes) : chunkDigitsFit val digits := by
  induction digits generalizing val with
  | nil => trivial
  | cons c rest ih =>
    unfold chunkDigitsFit
    split
    · trivial
    · rename_i digit read
      have small := hexValue_lt read
      split
      · trivial
      · rename_i fits
        have top : uint64Max >>> 4 = 2^60 - 1 := by decide
        rw [top] at fits
        have shifted : val <<< 4 = val * 16 := Nat.shiftLeft_eq val 4
        exact ⟨by omega, by omega, ih _⟩

theorem reserveFits_of_limits {p : HttpParser} (cap : p.bodyCap ≤ maxBodySize) : reserveFits p := by
  unfold reserveFits
  unfold maxBodySize at cap
  omega

theorem lineFits_of_limits {p : HttpParser} (core : p.toParserCore.LineLimits) (fields : p.toParserCore.FieldLimits)
    (body : p.bodyWritten ≤ maxBodySize) (cap : p.bodyCap ≤ maxBodySize) : lineFits p := by
  have line := core.line
  have limit := core.limit
  have headerBytes := fields.headerBytes
  have trailerBytes := fields.trailerBytes
  unfold maxHeaderSize at limit headerBytes
  unfold maxTrailerSize at trailerBytes
  unfold lineFits
  split
  · unfold headerFits
    split
    · exact reserveFits_of_limits cap
    · exact ⟨by omega, lengthDigitsFit_all 0 _⟩
  · exact ⟨chunkDigitsFit_all 0 _, body⟩
  · omega
  · trivial

theorem awaitFits_of_limits {p : HttpParser} (limits : p.Limits) (cursor : Bytes) : awaitFits p cursor := by
  rcases ParserCore.consumeLine_amounts p.toParserCore cursor with ⟨sections, amounts⟩
  have lines := ParserCore.consumeLine_limits limits.core.lines cursor
  simp only [ParserCore.amounts, Prod.mk.injEq] at amounts
  have written : (consumeLine p.toParserCore cursor).2.1.bodyWritten ≤ maxBodySize := by
    rw [amounts.2.1]
    exact Nat.le_trans limits.written limits.cap
  exact ⟨consumeFits_of_limits limits.core.lines cursor,
    lineFits_of_limits lines (limits.core.fields.same sections) written limits.cap⟩

theorem turnFits_of_limits {p : HttpParser} (limits : p.Limits) (cursor : Bytes) : turnFits p cursor := by
  have reserve := reserveFits_of_limits limits.cap
  have length := limits.core.body.length
  have chunk := limits.core.body.chunk
  unfold maxBodySize at length chunk
  cases state : p.state <;> simp only [turnFits, state]
  case bodyFixed =>
    have ordered := limits.core.body.fixed state
    exact ⟨ordered, by omega, reserve⟩
  case chunkData => exact ⟨by omega, reserve⟩
  all_goals exact awaitFits_of_limits limits cursor

theorem loopFits_of_limits (fuel : Nat) {p : HttpParser} (limits : p.Limits) (cursor : Bytes) : loopFits fuel p cursor := by
  induction fuel generalizing p cursor with
  | zero => trivial
  | succ fuel ih => exact ⟨turnFits_of_limits limits cursor, fun _ => ih (feedTurn_limits limits cursor) _⟩

/-! ## Input that asks for more -/

def decimalNumber (digits : Bytes) : Nat := digits.foldl (fun n c => n * 10 + digitValue c) 0

/-- The number that the hexadecimal digits at the front of a line stand for. -/
def hexNumber (line : Bytes) : Nat :=
  (line.takeWhile fun c => (hexValue c).isSome).foldl (fun n c => n * 16 + (hexValue c).getD 0) 0

def Completes (p : HttpParser) (data : Bytes) (core : ParserCore) : Prop :=
  (consumeLine p.toParserCore data).1 = .line ∧ (consumeLine p.toParserCore data).2.1 = core

inductive Exceeds (p : HttpParser) (data : Bytes) : Prop where
  | line (c : Byte) (rest : Bytes) (reads : p.state.readsLine = true) (quiet : p.lineSawCr = false) (next : data = c :: rest)
      (plain : Plain c) (over_ : p.lineLimit < p.lineBuf.length + 1)
  | header (core : ParserCore) (state : p.state = .headers) (completes : Completes p data core) (field : core.lineBuf ≠ [])
      (over_ : maxHeaderCount < core.activeHeaders.length + 1 ∨
        maxHeaderSize < core.headerBytesTotal + (core.lineBuf.length + 2))
  | contentLength (core : ParserCore) (state : p.state = .headers) (completes : Completes p data core)
      (field : core.lineBuf ≠ []) (named : isContentLength (fieldOf core.lineBuf) = true)
      (over_ : maxBodySize < decimalNumber (fieldOf core.lineBuf).value)
  | chunk (core : ParserCore) (state : p.state = .chunkSize) (completes : Completes p data core)
      (over_ : maxBodySize < core.bodyWritten + hexNumber core.lineBuf)
  | trailer (core : ParserCore) (state : p.state = .trailers) (completes : Completes p data core) (field : core.lineBuf ≠ [])
      (over_ : maxTrailerCount < core.activeTrailers.length + 1 ∨
        maxTrailerSize < core.trailerBytesTotal + (core.lineBuf.length + 2))

theorem contentLengthDigits_value {val n : Nat} {digits : Bytes} (read : contentLengthDigits val digits = .ok n) :
    n = digits.foldl (fun n c => n * 10 + digitValue c) val := by
  induction digits generalizing val with
  | nil =>
    cases read
    rfl
  | cons c rest ih =>
    unfold contentLengthDigits at read
    split at read
    · cases read
    · split at read
      · cases read
      · exact ih read

theorem applyContentLength_value {seen : Bool} {value : Bytes} {n : Nat} (read : applyContentLength seen value = .ok n) :
    n = decimalNumber value := contentLengthDigits_value (ParserCore.applyContentLength_ok read).1

theorem chunkSizeDigits_ok {val n : Nat} {line rest : Bytes} (read : chunkSizeDigits val line = .ok (n, rest)) :
    n = (line.takeWhile fun c => (hexValue c).isSome).foldl (fun n c => n * 16 + (hexValue c).getD 0) val ∧
      rest = line.dropWhile fun c => (hexValue c).isSome := by
  induction line generalizing val with
  | nil =>
    cases read
    exact ⟨rfl, rfl⟩
  | cons c line ih =>
    unfold chunkSizeDigits at read
    cases digit : hexValue c with
    | none =>
      rw [digit] at read
      cases read
      rw [List.takeWhile_cons_of_neg (by rw [digit]; decide), List.dropWhile_cons_of_neg (by rw [digit]; decide)]
      exact ⟨rfl, rfl⟩
    | some d =>
      rw [digit] at read
      dsimp only at read
      split at read
      · cases read
      · rw [List.takeWhile_cons_of_pos (by rw [digit]; rfl), List.dropWhile_cons_of_pos (by rw [digit]; rfl),
          List.foldl_cons, digit]
        exact ih read

theorem chunkSizeLine_eq (buf : Bytes) :
    parseChunkSizeLine buf =
      if buf.length = 0 then .error "empty chunk-size line"
      else (chunkSizeDigits 0 buf).bind fun r =>
        if r.2.length = buf.length then .error "malformed chunk-size line"
        else if r.2 ≠ [] ∧ r.2.head? ≠ some (ch ';') then .error "malformed chunk-size line"
        else if r.1 > maxChunkSize then .error "chunk size exceeds configured limit"
        else .ok r.1 := by
  rfl

theorem parseChunkSizeLine_value {buf : Bytes} {n : Nat} (read : parseChunkSizeLine buf = .ok n) : n = hexNumber buf := by
  rw [chunkSizeLine_eq] at read
  split at read
  · cases read
  · cases digits : chunkSizeDigits 0 buf with
    | error e =>
      rw [digits] at read
      cases read
    | ok r =>
      rw [digits, Except.bind] at read
      repeat' split at read
      all_goals cases read
      exact (chunkSizeDigits_ok digits).1

/-! ## It ends in ERROR -/

theorem lineEnd_over {p : HttpParser} {data : Bytes} {core : ParserCore} (completes : Completes p data core)
    (reads : p.state.readsLine = true) (refused : core.lineEnd.1 = .error) :
    (p.toParserCore.turn data).1 = .error := by
  rw [turn_lineEnd p.toParserCore data reads]
  rcases completes with ⟨line, after⟩
  cases read : consumeLine p.toParserCore data with
  | mk result rest =>
    rw [read] at line after
    dsimp only at line after
    rw [line]
    show rest.1.lineEnd.1 = .error
    rw [after]
    exact refused

theorem parseHeader_over {p : ParserCore}
    (over_ : maxHeaderCount < p.activeHeaders.length + 1 ∨ maxHeaderSize < p.headerBytesTotal + (p.lineBuf.length + 2)) :
    p.parseHeader.1 = .error := by
  cases field : parseFieldLine p.lineBuf p.activeHeaders.length maxHeaderCount p.headerBytesTotal maxHeaderSize with
  | error msg => rw [parseHeader_error field]
  | ok r =>
    rcases parseFieldLine_ok.mp field with ⟨_, _, _, _, _, _, _, room, small⟩
    omega

theorem parseHeader_contentLength {p : ParserCore} (named : isContentLength (fieldOf p.lineBuf) = true)
    (over_ : maxBodySize < decimalNumber (fieldOf p.lineBuf).value) : p.parseHeader.1 = .error := by
  cases field : parseFieldLine p.lineBuf p.activeHeaders.length maxHeaderCount p.headerBytesTotal maxHeaderSize with
  | error msg => rw [parseHeader_error field]
  | ok r =>
    have same := (parseFieldLine_ok.mp field).1
    rw [parseHeader_ok field, same]
    have framing : strCaseEq (fieldOf p.lineBuf).name (ascii "content-length") = true := named
    unfold ParserCore.frame
    rw [if_pos framing]
    cases read : applyContentLength (p.storeField (fieldOf p.lineBuf) r.2).hasContentLength (fieldOf p.lineBuf).value with
    | error msg => rfl
    | ok n =>
      have small := (ParserCore.applyContentLength_ok read).2
      rw [applyContentLength_value read] at small
      omega

theorem parseChunkSize_over {p : ParserCore} (written : p.bodyWritten ≤ maxBodySize)
    (over_ : maxBodySize < p.bodyWritten + hexNumber p.lineBuf) : p.parseChunkSize.1 = .error := by
  unfold ParserCore.parseChunkSize
  cases read : parseChunkSizeLine p.lineBuf with
  | error msg => rfl
  | ok size =>
    have value := parseChunkSizeLine_value read
    have large : size > 0 ∧ size > maxBodySize - p.bodyWritten := by omega
    dsimp only
    rw [if_pos large]

theorem parseTrailer_over {p : ParserCore} (field : p.lineBuf ≠ [])
    (over_ : maxTrailerCount < p.activeTrailers.length + 1 ∨ maxTrailerSize < p.trailerBytesTotal + (p.lineBuf.length + 2)) :
    p.parseTrailer.1 = .error := by
  unfold ParserCore.parseTrailer
  rw [if_neg (fun empty => field (List.length_eq_zero_iff.mp empty))]
  cases read : parseFieldLine p.lineBuf p.activeTrailers.length maxTrailerCount p.trailerBytesTotal maxTrailerSize with
  | error msg => rfl
  | ok r =>
    rcases parseFieldLine_ok.mp read with ⟨_, _, _, _, _, _, _, room, small⟩
    omega

theorem Completes.state {p : HttpParser} {data : Bytes} {core : ParserCore} (completes : Completes p data core) :
    core.state = p.state ∧ core.amounts = p.toParserCore.amounts := by
  have spec := consumeLine_spec p.toParserCore data
  have amounts := (ParserCore.consumeLine_amounts p.toParserCore data).2
  rcases completes with ⟨line, after⟩
  rw [after] at amounts
  cases read : consumeLine p.toParserCore data with
  | mk result rest =>
    rw [read] at line after spec
    dsimp only at line after
    rw [line] at spec
    rw [← after]
    rw [← after] at amounts
    exact ⟨spec.2, amounts⟩

theorem turn_over {p : HttpParser} (limits : p.Limits) {data : Bytes} (exceeds : Exceeds p data) :
    (p.toParserCore.turn data).1 = .error := by
  have waits : ∀ {state : ParseState}, p.state = state → state.readsLine = true → p.state.readsLine = true :=
    fun same reads => same ▸ reads
  cases exceeds with
  | line c rest reads quiet next plain over_ =>
    rw [turn_lineEnd p.toParserCore data reads, next]
    have stopped : (consumeLine p.toParserCore (c :: rest)).1 = .violation := by
      unfold consumeLine
      rw [if_neg (by rw [quiet]; decide), if_neg plain.1, if_neg plain.2.1, if_neg plain.2.2, if_pos (Nat.le_of_lt_succ over_)]
    cases read : consumeLine p.toParserCore (c :: rest) with
    | mk result after =>
      rw [read] at stopped
      dsimp only at stopped
      rw [stopped]
  | header core state completes field over_ =>
    apply lineEnd_over completes (waits state rfl)
    rw [lineEnd_headers_field (completes.state.1.trans state) field]
    exact parseHeader_over over_
  | contentLength core state completes field named over_ =>
    apply lineEnd_over completes (waits state rfl)
    rw [lineEnd_headers_field (completes.state.1.trans state) field]
    exact parseHeader_contentLength named over_
  | chunk core state completes over_ =>
    apply lineEnd_over completes (waits state rfl)
    have here := completes.state.1.trans state
    have amounts := completes.state.2
    simp only [ParserCore.amounts, Prod.mk.injEq] at amounts
    have written : core.bodyWritten ≤ maxBodySize := by
      rw [amounts.2.1]
      exact Nat.le_trans limits.written limits.cap
    unfold ParserCore.lineEnd lineTurn
    simp only [here]
    exact parseChunkSize_over written over_
  | trailer core state completes field over_ =>
    apply lineEnd_over completes (waits state rfl)
    have here := completes.state.1.trans state
    unfold ParserCore.lineEnd lineTurn
    simp only [here]
    exact parseTrailer_over field over_

theorem feed_over {p : HttpParser} (limits : p.Limits) {data : Bytes} (exceeds : Exceeds p data) :
    (p.toParserCore.feed data).1.status = .error := by
  have spec := turn_spec p.toParserCore data
  have label := turn_over limits exceeds
  rw [feed_eq]
  cases turn : p.toParserCore.turn data with
  | mk t after =>
    rw [turn] at spec label
    dsimp only at label
    rw [label] at spec ⊢
    exact spec.1

theorem httpParserFeed_over {p : HttpParser} (limits : p.Limits) {before data : Bytes}
    (waiting : (httpParserFeed p before).1 = .incomplete) (exceeds : Exceeds (httpParserFeed p before).2 data) :
    (httpParserFeed p (before ++ data)).1 = .error ∧
      ∀ later, ∀ r ∈ laterFeeds (httpParserFeed p (before ++ data)).2 later, r.1 = .error := by
  rcases httpParserFeed_core p before with ⟨status, core, _⟩
  rcases httpParserFeed_core p (before ++ data) with ⟨status', core', _⟩
  have middle := httpParserFeed_limits limits before
  have stopped := feed_over middle exceeds
  have open_ : (p.toParserCore.feed before).1.status = .incomplete := status.symm.trans waiting
  have joined : (p.toParserCore.feed (before ++ data)).1.status = .error := by
    rw [feed_append, if_pos open_]
    rw [core] at stopped
    exact stopped
  have last : (httpParserFeed p (before ++ data)).2.status = .error := by
    rw [core']
    exact joined
  refine ⟨status'.trans joined, ?_⟩
  intro later r member
  have done : (httpParserFeed p (before ++ data)).2.status ≠ .incomplete := by
    rw [last]
    decide
  exact (laterFeeds_done _ done later r member).1.trans last

/-! ## Every reachable state -/

structure Bounded (p : HttpParser) : Prop where
  line : p.lineBuf.length ≤ p.lineLimit ∧ p.lineBuf.length ≤ p.lineCap
  headers : p.activeHeaders.length ≤ 100 ∧ p.headerBytesTotal ≤ 32768
  written : p.bodyWritten ≤ p.bodyCap ∧ p.bodyCap ≤ 16 * 2^20
  chunk : p.bodyWritten + p.chunkRemaining ≤ 16 * 2^20
  length : p.contentLength ≤ 16 * 2^20

theorem HttpParser.Limits.bounded {p : HttpParser} (limits : p.Limits) : Bounded p where
  line := ⟨limits.core.lines.line, limits.core.lines.held⟩
  headers := ⟨limits.core.fields.headers, limits.core.fields.headerBytes⟩
  written := ⟨limits.written, limits.cap⟩
  chunk := limits.core.body.chunk
  length := limits.core.body.length

/-- Whatever a parser of either mode has been given, its counts are within their bounds, no arithmetic of a further call
wraps, and input that asks for more than a bound ends in ERROR. -/
theorem parser_bounded (responseMode : Bool) (history : List ParserCall) :
    Bounded (afterCalls (freshParser responseMode) history) ∧
      (∀ data, feedFits (afterCalls (freshParser responseMode) history) data) ∧
      ∀ before data, (httpParserFeed (afterCalls (freshParser responseMode) history) before).1 = .incomplete →
        Exceeds (httpParserFeed (afterCalls (freshParser responseMode) history) before).2 data →
          (httpParserFeed (afterCalls (freshParser responseMode) history) (before ++ data)).1 = .error ∧
            ∀ later, ∀ r ∈ laterFeeds
              (httpParserFeed (afterCalls (freshParser responseMode) history) (before ++ data)).2 later, r.1 = .error := by
  have limits := afterCalls_limits (freshParser_limits responseMode) history
  exact ⟨limits.bounded, fun data => loopFits_of_limits (feedFuel data) (Limits.counted limits 0) data,
    fun before data waiting exceeds => httpParserFeed_over limits waiting exceeds⟩

def getLine : Bytes := ascii "GET / HTTP/1.1" ++ [13, 10]

def longLength : Bytes := ascii "Content-Length: 16777217" ++ [13, 10]

theorem parser_bounded_longLength :
    (httpParserFeed (freshParser false) (getLine ++ longLength)).1 = .error ∧
      ∀ later, ∀ r ∈ laterFeeds (httpParserFeed (freshParser false) (getLine ++ longLength)).2 later, r.1 = .error := by
  have waiting : (httpParserFeed (freshParser false) getLine).1 = .incomplete := by decide +kernel
  have state : (httpParserFeed (freshParser false) getLine).2.state = .headers := by decide +kernel
  have completes : Completes (httpParserFeed (freshParser false) getLine).2 longLength
      (consumeLine (httpParserFeed (freshParser false) getLine).2.toParserCore longLength).2.1 :=
    ⟨by decide +kernel, rfl⟩
  exact (parser_bounded false []).2.2 getLine longLength waiting
    (Exceeds.contentLength _ state completes (by decide +kernel) (by decide +kernel) (by decide +kernel))

end BlueBird.Http
