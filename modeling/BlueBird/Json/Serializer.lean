import BlueBird.Json.Value
import Mathlib.Data.Nat.Digits.Defs

namespace BlueBird.Json

variable {R : Type}

/-- Two's complement in 32 bits: a conversion to `int`, or an `int` that ran over. -/
def toInt (n : Int) : Int := n.bmod (2^32)

def toSize (n : Int) : Int := n % 2^64

/-! ## What is written -/

def hexDigit (k : Nat) : Byte := (ascii "0123456789abcdef").getD k 0

def escapeByte (c : Byte) : Bytes :=
  if c = ch '\\' then ascii "\\\\"
  else if c = ch '"' then ascii "\\\""
  else if c = 10 then ascii "\\n"
  else if c = 9 then ascii "\\t"
  else if c = 13 then ascii "\\r"
  else if c = 8 then ascii "\\b"
  else if c = 12 then ascii "\\f"
  else if c < 0x20 then ascii "\\u00" ++ [hexDigit (c.toNat >>> 4), hexDigit (c.toNat &&& 0x0F)]
  else [c]

/-- What `json_escape_string` writes, and with its length counts. -/
def escapeString (s : Bytes) : Bytes := s.flatMap escapeByte

/-- `%d` -/
def formatInt (value : Int) : Bytes :=
  (if value < 0 then ascii "-" else []) ++
    if value = 0 then ascii "0"
    else (Nat.digits 10 value.natAbs).reverse.map fun digit => UInt8.ofNat (48 + digit)

/-! ## Buffers

A buffer is the memory from its pointer on, or none for NULL. -/

structure Sink where
  memory : Option Bytes
  size : Nat

/-- A printer gives the memory as it leaves it, and its length. -/
abbrev Printer := Sink → Option Bytes × Int

def store (memory bytes : Bytes) : Bytes := bytes ++ memory.drop bytes.length

def snprintf (memory : Bytes) (size : Nat) (text : Bytes) : Bytes :=
  if size = 0 then memory else store memory (text.take (size - 1) ++ [0])

/-- `buffer ? snprintf(buffer, buffer_size, text) : strlen(text)` -/
def puts (text : Bytes) : Printer := fun sink =>
  (sink.memory.map fun memory => snprintf memory sink.size text, text.length)

/-- `memcpy` of a text with its NUL, whatever the size. -/
def copies (text : Bytes) : Printer := fun sink =>
  (sink.memory.map fun memory => store memory (text ++ [0]), text.length)

def serializeNull : Printer := copies (ascii "null")

def serializeBool (value : Bool) : Printer := copies (if value then ascii "true" else ascii "false")

def serializeInt (value : Int32) : Printer := puts (formatInt value.toInt)

/-- A text that is written where it fits with its NUL, and else leaves an empty string. -/
def fits (text : Bytes) (length : Int) : Printer := fun sink =>
  (sink.memory.map fun memory =>
    if sink.size > text.length then store memory (text ++ [0])
    else if sink.size > 0 then store memory [0]
    else memory, length)

def serializeReal [Reals R] (value : R) : Printer :=
  fits (Reals.formatReal value) (Reals.formatReal value).length

def quoted (s : Bytes) : Bytes := ch '"' :: (escapeString s ++ [ch '"'])

def serializeText (value : Option Bytes) : Printer :=
  fits (quoted (value.getD [])) (toInt (quoted (value.getD [])).length)

/-- The key of an entry with `": "`, which is left out where it does not fit. -/
def putsKey (key : Bytes) : Printer := fun sink =>
  (sink.memory.map fun memory =>
    if sink.size > (escapeString (cString key)).length + 4 then store memory (quoted (cString key) ++ ascii ": " ++ [0])
    else memory, (escapeString (cString key)).length + 4)

/-- Printers one behind the other, as the source runs them with `len`, which `narrow` keeps in its
    type. A length below zero ends it with -1. -/
def printAll (narrow : Int → Int) (size : Nat) : List Printer → Option Bytes → Int → Option Bytes × Int
  | [], memory, len => (memory, len)
  | printer :: printers, memory, len =>
    let printed := printer ⟨memory.map fun m => m.drop len.toNat, size - len.toNat⟩
    let left := memory.bind fun m => printed.1.map fun written => m.take len.toNat ++ written
    if printed.2 < 0 then (left, -1) else printAll narrow size printers left (narrow (len + printed.2))

/-! ## Layout

`indent` is none for the compact printers, and else the depth of tabs; the pieces of a container are
laid out alike whatever a piece is. -/

section Layout

variable {α : Type} (text : Bytes → α) (keyed : Bytes → α)

def newline : Option Nat → List α
  | none => []
  | some _ => [text (ascii "\n")]

def tabs : Option Nat → List α
  | none => []
  | some depth => List.replicate depth (text (ascii "\t"))

def deeper (indent : Option Nat) : Option Nat := indent.map (· + 1)

/-- The loop of `serialize_array_json`. -/
def itemLayout (indent : Option Nat) : List α → List α
  | [] => []
  | item :: items =>
    tabs text (deeper indent) ++ [item, text (if items = [] then [] else ascii ", ")] ++ newline text indent ++
      itemLayout indent items

def arrayLayout (indent : Option Nat) (items : List α) : List α :=
  [text (ascii "[")] ++ newline text indent ++ itemLayout text indent items ++ tabs text indent ++ [text (ascii "]")]

/-- The loop of `serialize_object_json`. -/
def entryLayout (indent : Option Nat) : (first : Bool) → List (Bytes × α) → List α
  | _, [] => []
  | first, entry :: entries =>
    (if first then [] else [text (ascii ", ")]) ++ newline text indent ++ tabs text (deeper indent) ++
      [keyed entry.1, entry.2] ++ entryLayout indent false entries

def objectLayout (indent : Option Nat) (entries : List (Bytes × α)) : List α :=
  [text (ascii "\x7b")] ++ entryLayout text keyed indent true entries ++ newline text indent ++ tabs text indent ++
    [text (ascii "\x7d")]

end Layout

def isContainer : Json R → Bool
  | array _ | object _ => true
  | _ => false

/-- The indent that `serialize_json_with_indent` prints an array with. -/
def arrayIndent (indent : Option Nat) (items : List (Json R)) : Option Nat :=
  if items.any isContainer then indent else none

variable [Reals R]

mutual

/-- `serialize_json_to_allocated_buffer` without an indent, `serialize_json_with_indent` with one. -/
def serializeJson : Json R → Option Nat → Printer
  | null, _ => serializeNull
  | bool value, _ => serializeBool value
  | int value, _ => serializeInt value
  | real value, _ => serializeReal value
  | text value, _ => serializeText value
  | array items, indent => fun sink =>
    printAll toInt sink.size
      (arrayLayout puts (arrayIndent indent items) (serializeItems items (deeper (arrayIndent indent items))))
      sink.memory 0
  | object entries, indent => fun sink =>
    let printed := printAll toSize sink.size
      (objectLayout puts putsKey indent (serializeEntries entries (deeper indent))) sink.memory 0
    (printed.1, toInt printed.2)

def serializeItems : List (Json R) → Option Nat → List Printer
  | [], _ => []
  | item :: items, indent => serializeJson item indent :: serializeItems items indent

def serializeEntries : List (Bytes × Json R) → Option Nat → List (Bytes × Printer)
  | [], _ => []
  | (key, value) :: entries, indent => (key, serializeJson value indent) :: serializeEntries entries indent

end

inductive SerializeError where
  | nothing | allocation
  deriving DecidableEq, Repr

/-- `bb_json_serialize`, and `bb_json_serialize_indented` with an indent of 0: the block that `malloc`
    gives for the measured size, with the text in it. `*size + 1` is an `int`. -/
def serialize (malloc : Nat → Bytes) (indent : Option Nat) (json : Json R) : Except SerializeError Bytes :=
  let size := (serializeJson json indent ⟨none, 0⟩).2
  let capacity := toInt (size + 1)
  if size < 0 then .error .nothing
  else if capacity < 0 then .error .allocation
  else .ok ((serializeJson json indent ⟨some (malloc capacity.toNat), capacity.toNat⟩).1.getD [])

end BlueBird.Json
