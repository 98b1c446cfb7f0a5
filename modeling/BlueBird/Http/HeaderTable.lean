import BlueBird.Http.Confinement
import BlueBird.Http.Limits
import BlueBird.Http.Response

namespace BlueBird.Http

/-- `bb_response_from_parsed`, for a response object there is memory for. -/
def responseFromParsed (parsed : Response) : BbResponse :=
  let startLine := ascii "HTTP/" ++ decimal parsed.versionMajor ++ ch '.' :: decimal parsed.versionMinor ++
    ch ' ' :: decimal parsed.statusCode ++ (if parsed.reason = [] then [] else ch ' ' :: parsed.reason)
  { statusCode := Int32.ofNat parsed.statusCode
    msg := { setParsedHeaders { startLine } parsed.headers with body := parsed.body } }

/-! ## What the message keeps -/

def Header.pair (h : Header) : Bytes × Bytes := (h.name, h.value)

theorem setParsedHeaders_headers (msg : Message) (fields : List Header) :
    (setParsedHeaders msg fields).headers =
      (fields.map Header.pair).foldl (fun kept entry => OrderedMap.set kept entry.1 entry.2) msg.headers := by
  induction fields generalizing msg with
  | nil => rfl
  | cons field fields ih =>
    show (setParsedHeaders (msg.setHeader field.name field.value) fields).headers = _
    rw [ih, Message.setHeader_headers]
    rfl

theorem serverMessage_headers (parsed : Request) (path : Bytes) :
    (serverMessage parsed path).headers = OrderedMap.collapse (parsed.headers.map Header.pair) := by
  rw [← OrderedMap.foldl_set_eq_collapse]
  unfold serverMessage
  dsimp only
  split <;> exact setParsedHeaders_headers _ _

theorem responseFromParsed_headers (parsed : Response) :
    (responseFromParsed parsed).msg.headers = OrderedMap.collapse (parsed.headers.map Header.pair) := by
  rw [← OrderedMap.foldl_set_eq_collapse]
  exact setParsedHeaders_headers _ _

theorem converted_headers {parsed : Request} {req : ServerRequest} (converted : serverRequestFromParsed parsed = some req) :
    req.msg.headers = OrderedMap.collapse (parsed.headers.map Header.pair) := by
  rcases serverRequestFromParsed_eq_some.mp converted with ⟨_, _, _, _, whole⟩
  rw [whole]
  exact serverMessage_headers parsed req.path

/-- The last field of a name is the one that is found. -/
def lastValue (fields : List Header) (name : Bytes) : Option Bytes :=
  (fields.reverse.find? (·.name = name)).map (·.value)

theorem getHeader_collapse {msg : Message} {fields : List Header}
    (stored : msg.headers = OrderedMap.collapse (fields.map Header.pair)) (name : Bytes) :
    msg.getHeader name = lastValue fields name := by
  show OrderedMap.get? msg.headers name = _
  rw [stored, OrderedMap.get?_collapse, ← List.map_reverse]
  unfold OrderedMap.get? lastValue
  rw [List.find?_map, Option.map_map]
  rfl

def announcesForm (fields : List Header) : Bool :=
  (lastValue fields (ascii "Content-Type")).any fun value => value.take formEncoded.length = formEncoded

theorem serverMessage_body (parsed : Request) (path : Bytes) :
    (serverMessage parsed path).body =
      if announcesForm parsed.headers then decodePercentIn true parsed.body else parsed.body := by
  generalize line : parsed.method ++ ch ' ' :: path ++ ch ' ' :: serverRequestVersion parsed = startLine
  have stored : ({ setParsedHeaders { startLine } parsed.headers with body := parsed.body } : Message).headers =
      OrderedMap.collapse (parsed.headers.map Header.pair) := by
    rw [← OrderedMap.foldl_set_eq_collapse]
    exact setParsedHeaders_headers _ _
  unfold serverMessage announcesForm
  dsimp only
  rw [line, getHeader_collapse stored]
  split <;> rfl

/-- Every name once, where it came first, with what it came with last. -/
structure Message.Keeps (msg : Message) (fields : List Header) : Prop where
  names : msg.headers.map (·.1) = OrderedMap.firstKeys (fields.map (·.name))
  values : ∀ name, msg.getHeader name = lastValue fields name
  unrepeated : (fields.map (·.name)).Nodup → msg.headers = fields.map Header.pair

theorem keeps_of_collapse {msg : Message} {fields : List Header}
    (stored : msg.headers = OrderedMap.collapse (fields.map Header.pair)) : msg.Keeps fields := by
  have names : (fields.map Header.pair).map (·.1) = fields.map (·.name) := List.map_map ..
  constructor
  · rw [stored, OrderedMap.keys_collapse, names]
  · exact getHeader_collapse stored
  · intro distinct
    rw [stored]
    apply OrderedMap.collapse_of_distinct
    unfold OrderedMap.Distinct
    rw [names]
    exact distinct

theorem conversion_keeps :
    (∀ (parsed : Request) (req : ServerRequest), serverRequestFromParsed parsed = some req → req.msg.Keeps parsed.headers) ∧
      ∀ parsed : Response, (responseFromParsed parsed).msg.Keeps parsed.headers :=
  ⟨fun _ _ converted => keeps_of_collapse (converted_headers converted),
    fun parsed => keeps_of_collapse (responseFromParsed_headers parsed)⟩

def repeatedRequest : Request where
  method := ascii "GET"
  target := ascii "/"
  versionMajor := 1
  versionMinor := 1
  headers := [⟨ascii "Via", ascii "a"⟩, ⟨ascii "Host", ascii "h"⟩, ⟨ascii "Via", ascii "b"⟩]

theorem conversion_keeps_repeated :
    Message.Keeps
      { startLine := ascii "GET / HTTP/1.1", headers := [(ascii "Via", ascii "b"), (ascii "Host", ascii "h")] }
      repeatedRequest.headers :=
  conversion_keeps.1 repeatedRequest
    { msg := { startLine := ascii "GET / HTTP/1.1", headers := [(ascii "Via", ascii "b"), (ascii "Host", ascii "h")] }
      method := ascii "GET"
      path := ascii "/"
      version := ascii "HTTP/1.1" } (by decide +kernel)

def cookieStream : List Bytes :=
  [ascii "HTTP/1.1 200 OK\r\nSet-Cookie: a=1\r\nContent-Length: 0\r\n", ascii "Set-Cookie: b=2\r\n\r\n"]

def Message.KeepsAll (msg : Message) (fields : List Header) : Prop := (fields.map Header.pair).Sublist msg.headers

theorem not_keepsAll_cookies :
    (feedFragments (freshParser true) cookieStream).1 = .complete ∧
      ¬ (responseFromParsed (feedFragments (freshParser true) cookieStream).2.1.response).msg.KeepsAll
        (feedFragments (freshParser true) cookieStream).2.1.response.headers := by
  unfold Message.KeepsAll
  decide +kernel

end BlueBird.Http
