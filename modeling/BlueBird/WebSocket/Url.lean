import BlueBird.Encoding.Base64
import BlueBird.Http.RoundTrip
import BlueBird.Http.ServerRequest

namespace BlueBird.WebSocket

open Http

/-! ## The URL; texts are C strings without their NUL -/

/-- `strstr`, as the text before and behind the first occurrence. -/
def strstr (needle : Bytes) : Bytes → Option (Bytes × Bytes)
  | [] => if needle = [] then some ([], []) else none
  | c :: text =>
    if needle.isPrefixOf (c :: text) then some ([], (c :: text).drop needle.length)
    else (strstr needle text).map fun (before, behind) => (c :: before, behind)

/-- `strtol` in base 10 of a text too short for `ERANGE`, with what it leaves. -/
def strtol (text : Bytes) : Int × Bytes :=
  let signed := text.dropWhile isSpace
  let minus := signed.head? = some (ch '-')
  let digits := if minus ∨ signed.head? = some (ch '+') then signed.tail else signed
  let value : Int := (digits.takeWhile isDigit).foldl (fun n c => n * 10 + digitValue c) 0
  if digits.takeWhile isDigit = [] then (0, text)
  else (if minus then - value else value, digits.dropWhile isDigit)

structure Url where
  host : Bytes
  port : Nat
  path : Bytes
  deriving DecidableEq, Repr

/-- The default port of the scheme, and the authority with what follows it. -/
def parseScheme (url : Bytes) : Option (Nat × Bytes) :=
  match strstr (ascii "://") url with
  | none => some (80, url)
  | some (scheme, authority) =>
    if scheme = ascii "wss" then some (443, authority)
    else if scheme = ascii "ws" then some (80, authority)
    else none

def splitHost (authority : Bytes) : Option (Bytes × Option Bytes) :=
  if authority.head? = some (ch '[') then
    -- IPv6
    if ch ']' ∈ authority then
      let host := (authority.drop 1).takeWhile (· ≠ ch ']')
      match authority.drop (host.length + 2) with
      | [] => some (host, none)
      | c :: port => if c = ch ':' then some (host, some port) else none
    else none
  else
    let host := authority.takeWhile (· ≠ ch ':')
    if ch ':' ∈ authority then some (host, some (authority.drop (host.length + 1))) else some (host, none)

def parsePort (text : Bytes) : Option Nat :=
  let (p, rest) := strtol text
  if text.length = 0 ∨ text.length > 5 then none
  else if rest ≠ [] ∨ p < 1 ∨ p > 65535 then none
  else some p.toNat

/-- `_parse_ws_url` -/
def parseWsUrl (url : Bytes) : Option Url :=
  (parseScheme url).bind fun (defaultPort, authority) =>
    let slash := authority.dropWhile (· ≠ ch '/')
    let path := if slash = [] then ascii "/" else slash
    (splitHost (authority.takeWhile (· ≠ ch '/'))).bind fun (host, portText) =>
      if host.length = 0 then none
      else match portText with
        | none => some { host, port := defaultPort, path }
        | some text => (parsePort text).map fun port => { host, port, path }

/-! ## The request -/

def requestSize : Nat := 1024

def requestFormat (url : Url) (key : Bytes) : Bytes :=
  ascii "GET " ++ url.path ++ ascii " HTTP/1.1\r\n" ++
    ascii "Host: " ++ url.host ++ ascii ":" ++ decimal url.port ++ ascii "\r\n" ++
    ascii "Upgrade: websocket\r\n" ++
    ascii "Connection: Upgrade\r\n" ++
    ascii "Sec-WebSocket-Key: " ++ key ++ ascii "\r\n" ++
    ascii "Sec-WebSocket-Version: 13\r\n" ++
    ascii "\r\n"

/-- What `snprintf` leaves of it in `request`. -/
def handshakeRequest (url : Url) (key : Bytes) : Bytes := (requestFormat url key).take (requestSize - 1)

inductive ConnectError where
  | badRequest (text : String)
  | network (text : String)
  deriving DecidableEq, Repr

/-- The error that the callback was called with, and what is queued on the connection. -/
structure ConnectResult where
  reported : Option ConnectError
  queued : List Bytes
  deriving DecidableEq, Repr

/-- `bb_websocket_connect`; `connects host port` is whether the connection is made, `nonce` the random octets. -/
def websocketConnect (connects : Bytes → Bytes → Bool) (nonce : Fin 16 → Byte) (url : Bytes) : ConnectResult :=
  match parseWsUrl url with
  | none => { reported := some (.badRequest "Invalid websocket URL"), queued := [] }
  | some parts =>
    if connects parts.host (decimal parts.port) then
      { reported := none, queued := [handshakeRequest parts (base64Encode (List.ofFn nonce))] }
    else { reported := some (.network "Connection failed"), queued := [] }

/-- `_is_upgrade_request` -/
def isUpgradeRequest (req : Message) : Bool :=
  match req.getHeader (ascii "Upgrade"), req.getHeader (ascii "Connection"),
    req.getHeader (ascii "Sec-WebSocket-Key"), req.getHeader (ascii "Sec-WebSocket-Version") with
  | some upgrade, some connection, some _, some version =>
    strCaseEq upgrade (ascii "websocket") &&
      ((strstr (ascii "Upgrade") connection).isSome || (strstr (ascii "upgrade") connection).isSome) &&
      version == ascii "13"
  | _, _, _, _ => false

example : parseWsUrl (ascii "wss://[::1]: +80/a") = some ⟨ascii "::1", 80, ascii "/a"⟩ := by decide
example : parseWsUrl (ascii "h:0/") = none := by decide

theorem parseWsUrl_path {url : Bytes} {parts : Url} (parsed : parseWsUrl url = some parts) :
    parts.path.head? = some (ch '/') := by
  have slash : ∀ authority : Bytes,
      (if authority.dropWhile (· ≠ ch '/') = [] then ascii "/" else authority.dropWhile (· ≠ ch '/')).head? = some (ch '/') := by
    intro authority
    by_cases empty : authority.dropWhile (· ≠ ch '/') = []
    · rw [if_pos empty]
      rfl
    · rw [if_neg empty, List.head?_eq_some_head empty]
      have stopped := List.head_dropWhile_not (fun c => decide (c ≠ ch '/')) empty
      rw [decide_eq_false_iff_not, Decidable.not_not] at stopped
      rw [stopped]
  unfold parseWsUrl at parsed
  rcases Option.bind_eq_some_iff.mp parsed with ⟨⟨defaultPort, authority⟩, _, parsed⟩
  rcases Option.bind_eq_some_iff.mp parsed with ⟨⟨host, portText⟩, _, parsed⟩
  dsimp only at parsed
  by_cases empty : host.length = 0
  · rw [if_pos empty] at parsed
    cases parsed
  · rw [if_neg empty] at parsed
    cases portText with
    | none =>
      cases parsed
      exact slash authority
    | some text =>
      rcases Option.map_eq_some_iff.mp parsed with ⟨port, _, rfl⟩
      exact slash authority

end BlueBird.WebSocket
