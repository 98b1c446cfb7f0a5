import Mathlib.Algebra.Ring.Nat

namespace BlueBird

abbrev Byte := UInt8
abbrev Bytes := List UInt8

def ch (c : Char) : Byte := c.toUInt8
def ascii (s : String) : Bytes := s.toList.map Char.toUInt8

/-- The bytes of a C string as the text of a message or a column. -/
def asText (bytes : Bytes) : String := String.ofList (bytes.map fun b => Char.ofNat b.toNat)

def uint64Max : Nat := 2^64 - 1

/-- `tolower` of the C locale. -/
def toLower (c : Byte) : Byte := if ch 'A' ≤ c ∧ c ≤ ch 'Z' then c + 32 else c

/-- `bb_strcasecmp(a, b) == 0`; `bb_strncasecmp` is this on two prefixes. -/
def strCaseEq (a b : Bytes) : Bool := a.map toLower == b.map toLower

def isDigit (c : Byte) : Bool := ch '0' ≤ c ∧ c ≤ ch '9'

def digitValue (c : Byte) : Nat := c.toNat - (ch '0').toNat

/-- `isspace` of the C locale. -/
def isSpace (c : Byte) : Bool := c = ch ' ' ∨ (9 ≤ c ∧ c ≤ 13)

def isBlank (c : Byte) : Bool := c == ch ' ' || c == ch '\t'

theorem forall_byte {motive : Byte → Prop} (each : ∀ n : Fin 256, motive (UInt8.ofNat n)) (b : Byte) :
    motive b := by
  have := each ⟨b.toNat, b.toNat_lt⟩
  simpa using this

end BlueBird
