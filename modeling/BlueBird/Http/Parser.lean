import BlueBird.Bytes

namespace BlueBird.Http

def maxRequestLine : Nat := 8192
def maxHeaderSize : Nat := 32768
def maxHeaderCount : Nat := 100
def maxBodySize : Nat := 16 * 1024 * 1024
def maxChunkSize : Nat := 16 * 1024 * 1024
def maxChunkLine : Nat := 1024
def maxTrailerSize : Nat := 8192
def maxTrailerCount : Nat := 50
def methodSize : Nat := 32
def targetSize : Nat := maxRequestLine

inductive ParseStatus where
  | incomplete | complete | error
  deriving DecidableEq, Repr

inductive ParseState where
  | requestLine | headers | bodyFixed | chunkSize | chunkData | chunkDataCrlf | trailers
  | stateComplete | stateError
  deriving DecidableEq, Repr

structure Header where
  name : Bytes
  value : Bytes
  deriving DecidableEq, Repr

/-- `char` arrays are the bytes before their terminating NUL. -/
structure Request where
  method : Bytes := []
  target : Bytes := []
  versionMajor : Nat := 0
  versionMinor : Nat := 0
  headers : List Header := []
  trailers : List Header := []
  body : Bytes := []
  deriving DecidableEq, Repr

structure Response where
  versionMajor : Nat := 0
  versionMinor : Nat := 0
  statusCode : Nat := 0
  reason : Bytes := []
  headers : List Header := []
  trailers : List Header := []
  body : Bytes := []
  deriving DecidableEq, Repr

/-- `struct bb_http_parser` without the two fields that depend on how the input was cut. -/
structure ParserCore where
  state : ParseState := .requestLine
  responseMode : Bool := false
  lineBuf : Bytes := []
  lineCap : Nat := 0
  lineLimit : Nat := maxRequestLine
  lineSawCr : Bool := false
  request : Request := {}
  response : Response := {}
  hasContentLength : Bool := false
  contentLength : Nat := 0
  hasTransferEncoding : Bool := false
  transferChunked : Bool := false
  headerBytesTotal : Nat := 0
  trailerBytesTotal : Nat := 0
  bodyWritten : Nat := 0
  chunkRemaining : Nat := 0
  errorMsg : String := ""
  deriving DecidableEq, Repr

structure HttpParser extends ParserCore where
  bodyCap : Nat := 0
  lastConsumed : Nat := 0
  deriving DecidableEq, Repr

def ParserCore.setError (p : ParserCore) (msg : String) : ParserCore :=
  { p with state := .stateError, errorMsg := msg }

def HttpParser.setError (p : HttpParser) (msg : String) : HttpParser :=
  { p with toParserCore := p.toParserCore.setError msg }

def ParserCore.resetLine (p : ParserCore) (limit : Nat) : ParserCore :=
  { p with lineBuf := [], lineSawCr := false, lineLimit := limit }

def isTchar (c : Byte) : Bool :=
  (ch 'a' ≤ c ∧ c ≤ ch 'z') ∨ (ch 'A' ≤ c ∧ c ≤ ch 'Z') ∨ (ch '0' ≤ c ∧ c ≤ ch '9') ∨
    c ∈ ascii "!#$%&'*+-.^_`|~"

def httpParserCreate : HttpParser := {}
def httpParserCreateResponse : HttpParser := { responseMode := true }

def freshParser (responseMode : Bool) : HttpParser :=
  if responseMode then httpParserCreateResponse else httpParserCreate

/-- Line and body buffers are kept by a reset; only the line buffer's capacity survives it. -/
def httpParserReset (p : HttpParser) : HttpParser :=
  { responseMode := p.responseMode, lineCap := p.lineCap }

/-! ## Line reading -/

inductive LineResult where
  | line | more | violation
  deriving DecidableEq, Repr

def ParserCore.growLine (p : ParserCore) : Nat :=
  if p.lineBuf.length + 1 > p.lineCap then
    min (if p.lineCap = 0 then 256 else p.lineCap * 2) (p.lineLimit + 1)
  else p.lineCap

def consumeLine (p : ParserCore) : Bytes → LineResult × ParserCore × Bytes
  | [] => (.more, p, [])
  | c :: data =>
    if p.lineSawCr then
      let p := { p with lineSawCr := false }
      if c = ch '\n' then (.line, p, data)
      else (.violation, p.setError "bare CR in line", data)
    else if c = ch '\r' then consumeLine { p with lineSawCr := true } data
    else if c = ch '\n' then (.violation, p.setError "bare LF in line", c :: data)
    else if c = 0 then (.violation, p.setError "embedded NUL", c :: data)
    else if p.lineBuf.length ≥ p.lineLimit then
      (.violation, p.setError "line exceeds configured limit", c :: data)
    else consumeLine { p with lineCap := p.growLine, lineBuf := p.lineBuf ++ [c] } data

/-! ## Request line -/

def hexValue (c : Byte) : Option Nat :=
  if ch '0' ≤ c ∧ c ≤ ch '9' then some (c.toNat - (ch '0').toNat)
  else if ch 'a' ≤ c ∧ c ≤ ch 'f' then some (10 + (c.toNat - (ch 'a').toNat))
  else if ch 'A' ≤ c ∧ c ≤ ch 'F' then some (10 + (c.toNat - (ch 'A').toNat))
  else none

/-- The octet `%hi lo` stands for, when both digits are there. -/
def percentOctet : Bytes → Option Nat
  | hi :: lo :: _ => do return (← hexValue hi) * 16 + (← hexValue lo)
  | _ => none

def scanTarget : Nat → Bytes → Except String Unit
  | 0, _ | _, [] => .ok ()
  | fuel + 1, c :: rest =>
    if c = ch '#' then .error "fragment is not allowed in request-target"
    else if c = ch '\\' then .error "backslash is not allowed in request-target"
    else if c = ch '%' then
      match percentOctet rest with
      | none => .error "malformed percent-encoding in request-target"
      | some decoded =>
        if decoded < 0x20 ∨ decoded = 0x7F ∨ decoded = (ch '/').toNat ∨ decoded = (ch '\\').toNat then
          .error "unsafe percent-encoded byte in request-target"
        else scanTarget fuel (rest.drop 2)
    else scanTarget fuel rest

def isEncodedDot (s : Bytes) : Bool :=
  s = ascii "%2e" ∨ s = ascii "%2E"

def checkSegment (seg : Bytes) : Except String Unit :=
  if seg = ascii "." ∨ seg = ascii ".." then .error "dot path segment is not allowed"
  else if isEncodedDot seg then .error "encoded dot path segment is not allowed"
  else if seg.length = 4 ∧ (seg.take 1 = ascii "." ∧ isEncodedDot (seg.drop 1) ∨
      isEncodedDot (seg.take 3) ∧ seg.drop 3 = ascii ".") then
    .error "encoded dot path segment is not allowed"
  else if seg.length = 6 ∧ isEncodedDot (seg.take 3) ∧ isEncodedDot (seg.drop 3) then
    .error "encoded dot path segment is not allowed"
  else .ok ()

def scanQuery : Nat → Bytes → Except String Unit
  | 0, _ | _, [] => .ok ()
  | fuel + 1, c :: rest =>
    if c = ch '%' then
      match percentOctet rest with
      | none => .error "malformed percent-encoding in query"
      | some decoded =>
        if decoded < 0x20 ∨ decoded = 0x7F then .error "unsafe percent-encoded byte in query"
        else scanQuery fuel (rest.drop 2)
    else if c < 0x20 ∨ c = 0x7F ∨ c = ch '\\' then .error "invalid character in query"
    else scanQuery fuel rest

def sanitizeRequestTarget (target : Bytes) : Except String Unit := do
  if target.length = 0 then throw "empty request-target"
  if target = ascii "*" then return
  if target.head? ≠ some (ch '/') then throw "request-target must use origin-form"
  scanTarget target.length target
  -- the query starts at the first '?', which no escape can contain
  let path := target.takeWhile (· ≠ ch '?')
  let query := (target.dropWhile (· ≠ ch '?')).drop 1
  (path.drop 1).splitOn (ch '/') |>.forM checkSegment
  scanQuery query.length query

/-- On failure the request keeps what was stored before the error was found. -/
def parseRequestLine (buf : Bytes) (req : Request) : Except (Request × String) Request := do
  if buf.length = 0 then throw (req, "empty request line")
  let method := buf.takeWhile (· ≠ ch ' ')
  if method.length = 0 ∨ method.length = buf.length then
    throw (req, "malformed request line: missing method or target")
  if !method.all isTchar then throw (req, "invalid character in method")
  if method.length ≥ methodSize then throw (req, "method too long")
  let req := { req with method }
  let rest := buf.drop (method.length + 1)
  -- the version is what follows the last space
  let version := (rest.reverse.takeWhile (· ≠ ch ' ')).reverse
  if version.length = rest.length then throw (req, "malformed request line: missing version")
  let target := rest.take (rest.length - version.length - 1)
  if target.length = 0 then throw (req, "malformed request line: empty target")
  if target.any fun c => c = ch ' ' ∨ c < 0x20 ∨ c = 0x7F then
    throw (req, "invalid character in request-target")
  if target.length ≥ targetSize then throw (req, "request-target too long")
  let req := { req with target }
  match sanitizeRequestTarget target with
  | .error msg => throw (req, msg)
  | .ok () =>
    match version with
    | [h, t1, t2, p, slash, major, dot, minor] =>
      if [h, t1, t2, p, slash] ≠ ascii "HTTP/" ∨ !isDigit major ∨ dot ≠ ch '.' ∨ !isDigit minor then
        throw (req, "invalid HTTP version")
      return { req with versionMajor := digitValue major, versionMinor := digitValue minor }
    | _ => throw (req, "invalid HTTP version")

def parseResponseLine (buf : Bytes) (res : Response) : Except (Response × String) Response := do
  match buf with
  | h :: t1 :: t2 :: p :: slash :: major :: dot :: minor :: space :: d1 :: d2 :: d3 :: tail =>
    if [h, t1, t2, p, slash] ≠ ascii "HTTP/" then throw (res, "malformed response line")
    if !isDigit major ∨ dot ≠ ch '.' ∨ !isDigit minor ∨ space ≠ ch ' ' then
      throw (res, "invalid HTTP version")
    if !isDigit d1 ∨ !isDigit d2 ∨ !isDigit d3 then throw (res, "invalid response status code")
    let res := { res with
      versionMajor := digitValue major
      versionMinor := digitValue minor
      statusCode := digitValue d1 * 100 + digitValue d2 * 10 + digitValue d3 }
    if tail ≠ [] ∧ tail.head? ≠ some (ch ' ') then throw (res, "malformed response reason phrase")
    let reason := tail.drop 1
    if reason.length ≥ maxRequestLine then throw (res, "reason phrase too long")
    if reason.any fun c => (c < 0x20 ∧ c ≠ ch '\t') ∨ c = 0x7F then
      throw (res, "invalid character in reason phrase")
    return { res with reason }
  | _ => throw (res, "malformed response line")

/-! ## Header and trailer lines -/

def trimBlanks (value : Bytes) : Bytes :=
  ((value.dropWhile isBlank).reverse.dropWhile isBlank).reverse

def parseFieldLine (buf : Bytes) (count maxCount bytesTotal maxBytes : Nat) :
    Except String (Header × Nat) := do
  if buf.head?.any isBlank then throw "obsolete line folding is not supported"
  let name := buf.takeWhile (· ≠ ch ':')
  if name.length = 0 ∨ name.length = buf.length then throw "malformed field line: missing ':'"
  if !name.all isTchar then throw "invalid character in field name"
  let value := trimBlanks (buf.drop (name.length + 1))
  if value.any fun c => (c < 0x20 ∧ c ≠ ch '\t') ∨ c = 0x7F then
    throw "invalid character in field value"
  if count ≥ maxCount then throw "too many header/trailer fields"
  let lineBytes := buf.length + 2
  if bytesTotal + lineBytes > maxBytes then throw "header/trailer section too large"
  return ({ name, value }, bytesTotal + lineBytes)

/-! ## Content-Length and Transfer-Encoding -/

def contentLengthDigits (val : Nat) : Bytes → Except String Nat
  | [] => .ok val
  | c :: rest =>
    if c < ch '0' ∨ ch '9' < c then .error "non-decimal character in Content-Length"
    else if val > (uint64Max - digitValue c) / 10 then .error "Content-Length overflow"
    else contentLengthDigits (val * 10 + digitValue c) rest

def applyContentLength (hasContentLength : Bool) (value : Bytes) : Except String Nat := do
  if hasContentLength then throw "duplicate Content-Length header"
  if value.length = 0 then throw "empty Content-Length value"
  let val ← contentLengthDigits 0 value
  if val > maxBodySize then throw "Content-Length exceeds configured body limit"
  return val

/-- The loop over the comma-separated codings: `chunked` is `transfer_chunked` so far, and an
    empty last element is never looked at. -/
def transferCodings (chunked : Bool) : List Bytes → Except (Bool × String) Bool
  | [] | [[]] => .ok chunked
  | token :: tokens =>
    if strCaseEq (trimBlanks token) (ascii "chunked") then transferCodings true tokens
    else .error (chunked, "unsupported Transfer-Encoding coding")

def applyTransferEncoding (chunked : Bool) (value : Bytes) : Except (Bool × String) Bool := do
  let chunked ← transferCodings chunked (value.splitOn (ch ','))
  if !chunked then throw (chunked, "Transfer-Encoding did not resolve to chunked")
  return chunked

/-! ## Body buffer -/

def bodyReserve (cap neededTotal : Nat) : Nat :=
  if neededTotal ≤ cap then cap
  else min (max (if cap = 0 then 4096 else cap * 2) neededTotal) maxBodySize

/-- `*active_body` and `*active_body_len` after the bytes have been copied in. -/
def ParserCore.appendActiveBody (p : ParserCore) (data : Bytes) : ParserCore :=
  if p.responseMode then { p with response.body := p.response.body ++ data }
  else { p with request.body := p.request.body ++ data }

def bodyAppend (p : HttpParser) (data : Bytes) : HttpParser :=
  if data.length = 0 then p
  else
    let p := { p with bodyCap := bodyReserve p.bodyCap (p.bodyWritten + data.length) }
    { p with
      toParserCore := { p.toParserCore.appendActiveBody data with
        bodyWritten := p.bodyWritten + data.length } }

/-! ## Header-section completion -/

def ParserCore.bodiless (p : ParserCore) : Bool :=
  p.responseMode ∧ ((p.response.statusCode ≥ 100 ∧ p.response.statusCode < 200) ∨
    p.response.statusCode = 204 ∨ p.response.statusCode = 304)

def finishHeaders (p : HttpParser) : HttpParser :=
  if p.bodiless then { p with state := .stateComplete }
  else if p.hasContentLength ∧ p.hasTransferEncoding then
    p.setError "ambiguous framing: both Content-Length and Transfer-Encoding present"
  else if p.hasTransferEncoding then
    { p with toParserCore := { p.toParserCore.resetLine maxChunkLine with state := .chunkSize } }
  else if p.hasContentLength ∧ p.contentLength > 0 then
    { p with bodyCap := bodyReserve p.bodyCap p.contentLength, state := .bodyFixed }
  else { p with state := .stateComplete }

/-! ## Chunk-size line -/

def chunkSizeDigits (val : Nat) : Bytes → Except String (Nat × Bytes)
  | [] => .ok (val, [])
  | c :: rest =>
    match hexValue c with
    | none => .ok (val, c :: rest)
    | some digit =>
      if val > uint64Max >>> 4 then .error "chunk size overflow"
      else chunkSizeDigits (val * 16 + digit) rest

def parseChunkSizeLine (buf : Bytes) : Except String Nat := do
  if buf.length = 0 then throw "empty chunk-size line"
  let (val, rest) ← chunkSizeDigits 0 buf
  if rest.length = buf.length then throw "malformed chunk-size line"
  if rest ≠ [] ∧ rest.head? ≠ some (ch ';') then throw "malformed chunk-size line"
  if val > maxChunkSize then throw "chunk size exceeds configured limit"
  return val

end BlueBird.Http
