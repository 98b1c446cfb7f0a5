import Mathlib.Algebra.Ring.Int.Defs
import BlueBird.Json.Value

namespace BlueBird.Json

/-- `BB_JSON_MAX_DEPTH` -/
def maxDepth : Nat := 512

/-- Why no value comes out: -1 of the source, a read behind the memory that was given, or a loop of
    the model that was cut off. -/
inductive Failure where
  | rejected | overread | exhausted
  deriving DecidableEq, Repr

abbrev Parse (α : Type) := Except Failure α

variable {α R : Type}

def reject : Parse α := .error .rejected

/-! A pointer into the text is the memory from there on, so `buffer[index]` is its first byte. A
    parser returns its value and the memory behind what it used, where the source counts. -/

def next : Bytes → Parse (Byte × Bytes)
  | [] => .error .overread
  | c :: rest => .ok (c, rest)

def peek : Bytes → Parse Byte
  | [] => .error .overread
  | c :: _ => .ok c

def whiteSpace (c : Byte) : Bool := c == ch ' ' || c == ch '\t' || c == ch '\n' || c == ch '\r'

/-- `while (white_space(buffer[index])) index++` -/
def skipWhite : Bytes → Parse Bytes
  | [] => .error .overread
  | c :: rest => if whiteSpace c then skipWhite rest else .ok (c :: rest)

/-- `strncmp(buffer, word, strlen(word)) == 0` -/
def scanWord : Bytes → Bytes → Parse Bytes
  | [], buffer => .ok buffer
  | c :: word, buffer => do
    let first ← next buffer
    if first.1 = c then scanWord word first.2 else reject

def parseStrNull (buffer : Bytes) : Parse (Json R × Bytes) := do
  return (null, ← scanWord (ascii "null") buffer)

def parseStrTrue (buffer : Bytes) : Parse (Json R × Bytes) := do
  return (bool true, ← scanWord (ascii "true") buffer)

def parseStrFalse (buffer : Bytes) : Parse (Json R × Bytes) := do
  return (bool false, ← scanWord (ascii "false") buffer)

/-! ## Numbers -/

/-- `while (is_digit(buffer[index])) index++` -/
def scanDigits : Bytes → Parse (Bytes × Bytes)
  | [] => .error .overread
  | c :: rest =>
    if isDigit c then do
      let scanned ← scanDigits rest
      return (c :: scanned.1, scanned.2)
    else .ok ([], c :: rest)

def scanMark (marks : Bytes) (buffer : Bytes) : Parse (Bytes × Bytes) := do
  let first ← next buffer
  if first.1 ∈ marks then return ([first.1], first.2) else return ([], buffer)

def scanSomeDigits (buffer : Bytes) : Parse (Bytes × Bytes) := do
  if isDigit (← peek buffer) then scanDigits buffer else reject

def scanWhole (buffer : Bytes) : Parse (Bytes × Bytes) := do
  let first ← next buffer
  if first.1 = ch '0' then
    if isDigit (← peek first.2) then reject else return ([first.1], first.2)
  else if ch '1' ≤ first.1 ∧ first.1 ≤ ch '9' then scanDigits buffer
  else reject

def scanFraction (buffer : Bytes) : Parse (Bytes × Bytes) := do
  let point ← scanMark (ascii ".") buffer
  if point.1 = [] then return ([], buffer)
  else
    let digits ← scanSomeDigits point.2
    return (point.1 ++ digits.1, digits.2)

def scanExponent (buffer : Bytes) : Parse (Bytes × Bytes) := do
  let mark ← scanMark (ascii "eE") buffer
  if mark.1 = [] then return ([], buffer)
  else
    let sign ← scanMark (ascii "+-") mark.2
    let digits ← scanSomeDigits sign.2
    return (mark.1 ++ sign.1 ++ digits.1, digits.2)

def decimal (digits : Bytes) : Nat := digits.foldl (fun value digit => 10 * value + digitValue digit) 0

/-- `strtol` of digits with or without a minus; `none` is `ERANGE`. -/
def strtol (token : Bytes) : Option Int :=
  let value : Int := if token.head? = some (ch '-') then - decimal token.tail else decimal token
  if - 2^63 ≤ value ∧ value < 2^63 then some value else none

def integerOf (token : Bytes) : Parse (Json R) :=
  match strtol token with
  | none => reject
  | some value => if value < - 2^31 ∨ value > 2^31 - 1 then reject else .ok (int (Int32.ofInt value))

def realOf [Reals R] (token : Bytes) : Parse (Json R) :=
  if (Reals.strtof (R := R) token).2 ≠ [] ∨ Reals.infinite (Reals.strtof (R := R) token).1 then reject
  else .ok (real (Reals.strtof token).1)

def numberOf [Reals R] (isReal : Bool) (token : Bytes) : Parse (Json R) :=
  if isReal then realOf token else integerOf token

def parseStrNumber [Reals R] (buffer : Bytes) : Parse (Json R × Bytes) := do
  let minus ← scanMark (ascii "-") buffer
  let whole ← scanWhole minus.2
  let fraction ← scanFraction whole.2
  let exponent ← scanExponent fraction.2
  let token := minus.1 ++ whole.1 ++ fraction.1 ++ exponent.1
  let value ← numberOf (fraction.1 ≠ [] ∨ exponent.1 ≠ []) token
  return (value, exponent.2)

/-! ## Texts -/

def hexCharToInt (c : Byte) : Option Nat :=
  if ch '0' ≤ c ∧ c ≤ ch '9' then some (c.toNat - (ch '0').toNat)
  else if ch 'a' ≤ c ∧ c ≤ ch 'f' then some (10 + (c.toNat - (ch 'a').toNat))
  else if ch 'A' ≤ c ∧ c ≤ ch 'F' then some (10 + (c.toNat - (ch 'A').toNat))
  else none

/-- The loop of `parse_hex4` with `k` digits to go. -/
def parseHex : Nat → Nat → Bytes → Parse (Nat × Bytes)
  | 0, value, buffer => .ok (value, buffer)
  | k + 1, value, buffer => do
    let first ← next buffer
    match hexCharToInt first.1 with
    | none => reject
    | some digit => parseHex k (value <<< 4 ||| digit) first.2

def parseHex4 (buffer : Bytes) : Parse (Nat × Bytes) := parseHex 4 0 buffer

def utf8Encode (cp : Nat) : Bytes :=
  if cp < 0x80 then [UInt8.ofNat cp]
  else if cp < 0x800 then [UInt8.ofNat (0xC0 ||| cp >>> 6), UInt8.ofNat (0x80 ||| cp &&& 0x3F)]
  else if cp < 0x10000 then
    [UInt8.ofNat (0xE0 ||| cp >>> 12), UInt8.ofNat (0x80 ||| cp >>> 6 &&& 0x3F), UInt8.ofNat (0x80 ||| cp &&& 0x3F)]
  else
    [UInt8.ofNat (0xF0 ||| cp >>> 18), UInt8.ofNat (0x80 ||| cp >>> 12 &&& 0x3F),
      UInt8.ofNat (0x80 ||| cp >>> 6 &&& 0x3F), UInt8.ofNat (0x80 ||| cp &&& 0x3F)]

def escapeValue (mark : Byte) : Option Byte :=
  if mark = ch '"' then some (ch '"')
  else if mark = ch '\\' then some (ch '\\')
  else if mark = ch '/' then some (ch '/')
  else if mark = ch 'b' then some 8
  else if mark = ch 'f' then some 12
  else if mark = ch 'n' then some 10
  else if mark = ch 'r' then some 13
  else if mark = ch 't' then some 9
  else none

def lowSurrogate (buffer : Bytes) : Parse (Nat × Bytes) := do
  let backslash ← next buffer
  if backslash.1 ≠ ch '\\' then reject
  else
    let mark ← next backslash.2
    if mark.1 ≠ ch 'u' then reject
    else
      let low ← parseHex4 mark.2
      if low.1 < 0xDC00 ∨ low.1 > 0xDFFF then reject else return low

/-- The code point that `\u` stands for, from behind the `u`. -/
def unicodeEscape (buffer : Bytes) : Parse (Nat × Bytes) := do
  let unit ← parseHex4 buffer
  if unit.1 ≥ 0xD800 ∧ unit.1 ≤ 0xDBFF then
    let low ← lowSurrogate unit.2
    return (0x10000 + (unit.1 - 0xD800) <<< 10 + (low.1 - 0xDC00), low.2)
  else if unit.1 ≥ 0xDC00 ∧ unit.1 ≤ 0xDFFF then reject
  else if unit.1 = 0 then reject
  else return unit

def decodeEscape (buffer : Bytes) : Parse (Bytes × Bytes) := do
  let mark ← next buffer
  if mark.1 = ch 'u' then
    let cp ← unicodeEscape mark.2
    return (utf8Encode cp.1, cp.2)
  else
    match escapeValue mark.1 with
    | none => reject
    | some c => return ([c], mark.2)

/-- Pass 1 of `parse_json_string_raw`: the memory from the closing quote on. -/
def closingQuote : Bytes → Parse Bytes
  | [] => .error .overread
  | c :: rest =>
    if c = 0 then reject
    else if c = ch '"' then .ok (c :: rest)
    else if c = ch '\\' then
      match rest with
      | [] => .error .overread
      | escaped :: rest => if escaped = 0 then reject else closingQuote rest
    else closingQuote rest

/-- Pass 2, where `left` bytes of memory from the closing quote on are left; `fuel` bounds its
    rounds. -/
def decode : Nat → Nat → Bytes → Parse Bytes
  | 0, _, _ => .error .exhausted
  | fuel + 1, left, buffer =>
    if buffer.length ≤ left then .ok []
    else do
      let first ← next buffer
      if first.1 < 0x20 then reject
      else if first.1 ≠ ch '\\' then return first.1 :: (← decode fuel left first.2)
      else
        let escape ← decodeEscape first.2
        return escape.1 ++ (← decode fuel left escape.2)

/-- `parse_json_string_raw`, from behind the opening quote. -/
def parseStringRaw (buffer : Bytes) : Parse (Bytes × Bytes) := do
  let closing ← closingQuote buffer
  let text ← decode (buffer.length + 1) closing.length buffer
  return (text, closing.drop 1)

def parseStrText (buffer : Bytes) : Parse (Json R × Bytes) := do
  let raw ← parseStringRaw buffer
  return (text (some raw.1), raw.2)

/-! ## Containers

`child` is `parse_json_str_partial` one level deeper; the brackets are already behind `buffer`. -/

/-- The loop of `parse_json_str_array`. -/
def parseItems (child : Bytes → Parse (Json R × Bytes)) : Nat → List (Json R) → Bytes → Parse (Json R × Bytes)
  | 0, _, _ => .error .exhausted
  | fuel + 1, items, buffer => do
    if (← peek buffer) = 0 then reject
    else
      let item ← child buffer
      let mark ← next (← skipWhite item.2)
      if mark.1 = ch ']' then return (array (items ++ [item.1]), mark.2)
      else if mark.1 ≠ ch ',' then reject
      else parseItems child fuel (items ++ [item.1]) (← skipWhite mark.2)

def parseStrArray (child : Bytes → Parse (Json R × Bytes)) (buffer : Bytes) : Parse (Json R × Bytes) := do
  let inside ← skipWhite buffer
  let first ← next inside
  if first.1 = ch ']' then return (array [], first.2) else parseItems child inside.length [] inside

/-- `parse_and_add_json_object_pair` before it sets the value. -/
def parsePair (child : Bytes → Parse (Json R × Bytes)) (buffer : Bytes) : Parse ((Bytes × Json R) × Bytes) := do
  let quote ← next buffer
  if quote.1 ≠ ch '"' then reject
  else
    let key ← parseStringRaw quote.2
    let colon ← next (← skipWhite key.2)
    if colon.1 ≠ ch ':' then reject
    else
      let value ← child (← skipWhite colon.2)
      return ((key.1, value.1), value.2)

/-- The loop of `parse_json_str_object`. -/
def parseMembers (child : Bytes → Parse (Json R × Bytes)) :
    Nat → List (Bytes × Json R) → Bytes → Parse (Json R × Bytes)
  | 0, _, _ => .error .exhausted
  | fuel + 1, entries, buffer => do
    if (← peek buffer) = 0 then reject
    else
      let pair ← parsePair child buffer
      let entries := objectSetValue entries pair.1.1 pair.1.2
      let mark ← next (← skipWhite pair.2)
      if mark.1 = ch '}' then return (object entries, mark.2)
      else if mark.1 ≠ ch ',' then reject
      else parseMembers child fuel entries (← skipWhite mark.2)

def parseStrObject (child : Bytes → Parse (Json R × Bytes)) (buffer : Bytes) : Parse (Json R × Bytes) := do
  let inside ← skipWhite buffer
  let first ← next inside
  if first.1 = ch '}' then return (object [], first.2) else parseMembers child inside.length [] inside

/-- The switch of `parse_json_str_partial`, over the parsers of the two containers. -/
def parseSwitch [Reals R] (objects arrays : Bytes → Parse (Json R × Bytes)) (buffer : Bytes) :
    Parse (Json R × Bytes) := do
  let buffer ← skipWhite buffer
  let first ← next buffer
  if first.1 = ch '{' then objects first.2
  else if first.1 = ch '[' then arrays first.2
  else if first.1 = ch 'n' then parseStrNull buffer
  else if first.1 = ch 't' then parseStrTrue buffer
  else if first.1 = ch 'f' then parseStrFalse buffer
  else if first.1 = ch '"' then parseStrText first.2
  else if isDigit first.1 then parseStrNumber buffer
  else if first.1 = ch '-' then
    if isDigit (← peek first.2) then parseStrNumber buffer else reject
  else reject

/-- `parse_json_str_partial` at depth `maxDepth - levels`; a container without a level left for it is
    rejected. -/
def parsePartial [Reals R] : Nat → Bytes → Parse (Json R × Bytes)
  | 0 => parseSwitch (fun _ => reject) (fun _ => reject)
  | levels + 1 => parseSwitch (parseStrObject (parsePartial levels)) (parseStrArray (parsePartial levels))

/-- `bb_json_parse` of the memory from `buffer` on. Its offsets are `int`, which is exact for texts
    below 2^31 bytes. -/
def parse [Reals R] (buffer : Bytes) : Parse (Json R) := do
  let parsed ← parsePartial maxDepth buffer
  if (← peek (← skipWhite parsed.2)) ≠ 0 then reject else return parsed.1

end BlueBird.Json
