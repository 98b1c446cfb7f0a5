import BlueBird.Http.Framing

namespace BlueBird.Http

namespace ServerRequest

def methodSize : Nat := 8
def pathSize : Nat := 256
def maxParams : Nat := 10
def maxParamName : Nat := 64
def maxParamValue : Nat := 256
def maxQueryParams : Nat := 10
def maxQueryParamKey : Nat := 64
def maxQueryParamValue : Nat := 256

end ServerRequest

open ServerRequest

/-- `bb_server_request_t` -/
structure ServerRequest where
  msg : Message := { startLine := [] }
  method : Bytes := []
  path : Bytes := []
  version : Bytes := []
  params : List (Bytes × Bytes) := []
  query : List (Bytes × Bytes) := []
  deriving DecidableEq

def isValidDecodedPathChar (c : Byte) : Bool :=
  !(c < 0x20 ∨ c = 0x7F) && !(ascii " \"<>\\^`|" ++ [0x7B, 0x7D]).contains c

/-- What is stored of a path byte, when there is room behind the bytes already stored. -/
def storePathByte (out : Bytes) (room : Nat) (c : Byte) : Option Bytes :=
  if !isValidDecodedPathChar c then none else if out.length + 1 ≥ room then none else some (out ++ [c])

def decodePathFrom (room : Nat) (out : Bytes) : Bytes → Option Bytes
  | [] => some out
  | c :: rest =>
    if c = ch '%' then
      match rest with
      | hi :: lo :: tail =>
        match percentOctet [hi, lo] with
        | none => none
        | some octet =>
          if UInt8.ofNat octet = ch '/' ∨ UInt8.ofNat octet = ch '\\' then none
          else (storePathByte out room (UInt8.ofNat octet)).bind fun out => decodePathFrom room out tail
      | _ => none
    else (storePathByte out room c).bind fun out => decodePathFrom room out rest

def decodePath (src : Bytes) (dstCap : Nat) : Option Bytes :=
  if dstCap = 0 ∨ src.length = 0 then none
  else (decodePathFrom dstCap [] src).filter fun dst => dst.head? = some (ch '/')

def hasDotSegment (path : Bytes) : Bool :=
  ((if path.head? = some (ch '/') then path.drop 1 else path).splitOn (ch '/')).any fun segment =>
    segment = ascii "." ∨ segment = ascii ".."

def storeQueryByte (out : Bytes) (room : Nat) (c : Byte) : Option Bytes :=
  if c < 0x20 ∨ c = 0x7F then none else if out.length + 1 ≥ room then none else some (out ++ [c])

def decodeQueryComponent (room : Nat) (out : Bytes) : Bytes → Option Bytes
  | [] => some out
  | c :: rest =>
    if c = ch '%' then
      match rest with
      | hi :: lo :: tail =>
        (percentOctet [hi, lo]).bind fun octet =>
          (storeQueryByte out room (UInt8.ofNat octet)).bind fun out => decodeQueryComponent room out tail
      | _ => none
    else (storeQueryByte out room (if c = ch '+' then ch ' ' else c)).bind fun out => decodeQueryComponent room out rest

def addQueryPair (query : List (Bytes × Bytes)) (pair : Bytes) : Option (List (Bytes × Bytes)) := do
  let key := pair.takeWhile (· ≠ ch '=')
  let value := pair.drop (key.length + 1)
  if pair.length = 0 ∨ query.length ≥ maxQueryParams ∨ key.length = 0 ∨ key.length ≥ maxQueryParamKey ∨
      value.length ≥ maxQueryParamValue then none
  let key ← decodeQueryComponent maxQueryParamKey [] key
  let value ← decodeQueryComponent maxQueryParamValue [] value
  if ch '=' ∈ key ∨ ch '&' ∈ key then none
  return query ++ [(key, value)]

def parseQueryParams (query : Bytes) : Option (List (Bytes × Bytes)) :=
  if query.length = 0 then some []
  else if query.getLast? = some (ch '&') then none
  else (query.splitOn (ch '&')).foldlM addQueryPair []

def decodePercent (decodePlus : Bool) : Bytes → Bytes
  | [] => []
  | c :: rest =>
    if decodePlus ∧ c = ch '+' then ch ' ' :: decodePercent decodePlus rest
    else
      match rest with
      | hi :: lo :: tail =>
        match if c = ch '%' then percentOctet [hi, lo] else none with
        | some octet => UInt8.ofNat octet :: decodePercent decodePlus tail
        | none => c :: decodePercent decodePlus (hi :: lo :: tail)
      | short => c :: decodePercent decodePlus short

/-- In place, up to the first NUL; the bytes behind the new one are those that were there. -/
def decodePercentIn (decodePlus : Bool) (body : Bytes) : Bytes :=
  let decoded := decodePercent decodePlus (body.takeWhile (· ≠ 0))
  (decoded ++ (0 : Byte) :: (body ++ [0]).drop (decoded.length + 1)).take body.length

def formEncoded : Bytes := ascii "application/x-www-form-urlencoded"

/-- `bb_message_get_header` -/
def Message.getHeader (msg : Message) (name : Bytes) : Option Bytes := (msg.headers.find? (·.1 = name)).map (·.2)

def setParsedHeaders (msg : Message) (headers : List Header) : Message :=
  headers.foldl (fun msg header => msg.setHeader header.name header.value) msg

def serverRequestVersion (parsed : Request) : Bytes :=
  ascii "HTTP/" ++ ascii (toString parsed.versionMajor) ++ ch '.' :: ascii (toString parsed.versionMinor)

def rawPath (target : Bytes) : Bytes := target.takeWhile (· ≠ ch '?')

def serverMessage (parsed : Request) (path : Bytes) : Message :=
  let startLine := parsed.method ++ ch ' ' :: path ++ ch ' ' :: serverRequestVersion parsed
  let msg := { setParsedHeaders { startLine } parsed.headers with body := parsed.body }
  let form := (msg.getHeader (ascii "Content-Type")).any fun value => value.take formEncoded.length = formEncoded
  if form then { msg with body := decodePercentIn true msg.body } else msg

def serverQuery (target : Bytes) : Option (List (Bytes × Bytes)) :=
  if (rawPath target).length < target.length then parseQueryParams (target.drop ((rawPath target).length + 1)) else some []

/-- `bb_server_request_from_parsed`, without what it leaves behind when it fails. -/
def serverRequestFromParsed (parsed : Request) : Option ServerRequest :=
  if parsed.method.length ≥ ServerRequest.methodSize ∨ parsed.target.length ≥ pathSize then none
  else if (rawPath parsed.target).length = 0 ∨ (rawPath parsed.target).length ≥ pathSize then none
  else (decodePath (rawPath parsed.target) pathSize).bind fun path =>
    if hasDotSegment path then none
    else (serverQuery parsed.target).map fun query => {
      msg := serverMessage parsed path
      method := parsed.method
      path
      version := serverRequestVersion parsed
      query }

theorem serverRequestFromParsed_eq_some {parsed : Request} {req : ServerRequest} :
    serverRequestFromParsed parsed = some req ↔
      (parsed.method.length < ServerRequest.methodSize ∧ parsed.target.length < pathSize ∧
        0 < (rawPath parsed.target).length) ∧
      decodePath (rawPath parsed.target) pathSize = some req.path ∧ hasDotSegment req.path = false ∧
      serverQuery parsed.target = some req.query ∧
      req = {
        msg := serverMessage parsed req.path
        method := parsed.method
        path := req.path
        version := serverRequestVersion parsed
        query := req.query } := by
  have prefix_ : (rawPath parsed.target).length ≤ parsed.target.length := (List.takeWhile_prefix _).length_le
  unfold serverRequestFromParsed
  constructor
  · intro converted
    split at converted
    · cases converted
    rename_i room
    split at converted
    · cases converted
    rename_i rooted
    rcases Option.bind_eq_some_iff.mp converted with ⟨path, decoded, rest⟩
    split at rest
    · cases rest
    rename_i undotted
    rcases Option.map_eq_some_iff.mp rest with ⟨query, split_, rfl⟩
    exact ⟨⟨by omega, by omega, by omega⟩, decoded, Bool.eq_false_iff.mpr undotted, split_, rfl⟩
  · intro ⟨⟨method, target, rooted⟩, decoded, undotted, split_, whole⟩
    rw [if_neg (by omega), if_neg (by omega), decoded, split_, Option.bind_some, undotted, if_neg Bool.false_ne_true,
      Option.map_some, ← whole]

end BlueBird.Http
