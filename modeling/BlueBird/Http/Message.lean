import BlueBird.Bytes

namespace BlueBird.Http

/-- `bb_http_message_t` with its start line set. -/
structure Message where
  startLine : Bytes
  headers : List (Bytes × Bytes) := []
  body : Bytes := []
  deriving DecidableEq, Repr

namespace Message

def setHeader (msg : Message) (name value : Bytes) : Message :=
  match msg.headers.findIdx? (·.1 = name) with
  | some i => { msg with headers := msg.headers.modify i fun header => (header.1, value) }
  | none => { msg with headers := msg.headers ++ [(name, value)] }

def crlf : Bytes := ascii "\r\n"

def headerLine (header : Bytes × Bytes) : Bytes := header.1 ++ ascii ": " ++ header.2 ++ crlf

/-- The bytes that `bb_message_serialize` writes; `stored` is whether `bb_message_set_header` had the
    memory for the length. -/
def serialize (msg : Message) (stored : Bool) : Bytes :=
  let msg := if stored then msg.setHeader (ascii "Content-Length") (ascii (toString msg.body.length)) else msg
  msg.startLine ++ crlf ++ (msg.headers.map headerLine).flatten ++ crlf ++ msg.body

theorem serialize_ne_nil (msg : Message) (stored : Bool) : (msg.serialize stored).length ≠ 0 := by
  unfold serialize
  dsimp only
  rw [List.length_append, List.length_append]
  have two : crlf.length = 2 := by decide
  omega

end Message
end BlueBird.Http
