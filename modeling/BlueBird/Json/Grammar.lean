import BlueBird.Json.Parser
import Mathlib.Data.Nat.Digits.Defs

/-! JSON texts after RFC 8259, as far as a `bb_json_t` can hold what they denote: integers of 32 bits,
    finite reals, and texts without U+0000 or half a surrogate pair. -/

namespace BlueBird.Json

variable {R : Type}

def White (text : Bytes) : Prop := ∀ c ∈ text, whiteSpace c

def Digits (text : Bytes) : Prop := text ≠ [] ∧ ∀ c ∈ text, isDigit c

def Minus (text : Bytes) : Prop := text = [] ∨ text = ascii "-"

def Whole (text : Bytes) : Prop := text = ascii "0" ∨ (Digits text ∧ text.head? ≠ some (ch '0'))

def Fraction (text : Bytes) : Prop := text = [] ∨ ∃ digits, Digits digits ∧ text = ascii "." ++ digits

def Exponent (text : Bytes) : Prop :=
  text = [] ∨ ∃ mark sign digits, mark ∈ ascii "eE" ∧ (sign = [] ∨ ∃ s ∈ ascii "+-", sign = [s]) ∧ Digits digits ∧
    text = mark :: sign ++ digits

/-- The number that `whole` writes in decimal, with its sign. -/
def integerValue (minus whole : Bytes) : Int :=
  let value : Nat := Nat.ofDigits 10 (whole.map digitValue).reverse
  if minus = [] then value else - value

/-- `strtof` reads every number of the grammar to its end. -/
def ReadsNumbers (R : Type) [Reals R] : Prop :=
  ∀ minus whole fraction exponent, Minus minus → Whole whole → Fraction fraction → Exponent exponent →
    (Reals.strtof (R := R) (minus ++ whole ++ fraction ++ exponent)).2 = []

def HexUnit (text : Bytes) (value : Nat) : Prop :=
  ∃ a b c d, text.map hexCharToInt = [some a, some b, some c, some d] ∧ value = 4096 * a + 256 * b + 16 * c + d

/-- What stands between the quotes, against the bytes that it denotes. -/
inductive Chars : Bytes → Bytes → Prop
  | nil : Chars [] []
  | plain {c raw text} : 0x20 ≤ c → c ≠ ch '"' → c ≠ ch '\\' → Chars raw text → Chars (c :: raw) (c :: text)
  | escape {mark c raw text} : escapeValue mark = some c → Chars raw text →
      Chars (ch '\\' :: mark :: raw) (c :: text)
  | scalar {unit raw text} {c : Char} : HexUnit unit c.toNat → c.toNat ≠ 0 → Chars raw text →
      Chars (ascii "\\u" ++ (unit ++ raw)) (String.utf8EncodeChar c ++ text)
  | pair {high low raw text} {c : Char} : 0x10000 ≤ c.toNat →
      HexUnit high (0xD800 + (c.toNat - 0x10000) / 0x400) → HexUnit low (0xDC00 + (c.toNat - 0x10000) % 0x400) →
      Chars raw text →
      Chars (ascii "\\u" ++ (high ++ (ascii "\\u" ++ (low ++ raw)))) (String.utf8EncodeChar c ++ text)

/-- What a piece of text can stand for: a value, one with white space around it, or what a container
    has between its brackets. -/
inductive Phrase (R : Type) where
  | value (v : Json R)
  | item (v : Json R)
  | items (vs : List (Json R))
  | member (entry : Bytes × Json R)
  | members (entries : List (Bytes × Json R))

/-- The text stands for the phrase, with containers at most `levels` deep. -/
inductive Denotes [Reals R] : (levels : Nat) → Bytes → Phrase R → Prop
  | nullWord {n} : Denotes n (ascii "null") (.value null)
  | trueWord {n} : Denotes n (ascii "true") (.value (bool true))
  | falseWord {n} : Denotes n (ascii "false") (.value (bool false))
  | int {n minus whole} : Minus minus → Whole whole → -2^31 ≤ integerValue minus whole →
      integerValue minus whole < 2^31 →
      Denotes n (minus ++ whole) (.value (int (Int32.ofInt (integerValue minus whole))))
  | real {n minus whole fraction exponent} : Minus minus → Whole whole → Fraction fraction → Exponent exponent →
      ¬ (fraction = [] ∧ exponent = []) →
      ¬ Reals.infinite (Reals.strtof (R := R) (minus ++ whole ++ fraction ++ exponent)).1 →
      Denotes n (minus ++ whole ++ fraction ++ exponent)
        (.value (real (Reals.strtof (minus ++ whole ++ fraction ++ exponent)).1))
  | text {n raw s} : Chars raw s → Denotes n (ch '"' :: (raw ++ [ch '"'])) (.value (text (some s)))
  | noItems {n white} : White white → Denotes (n + 1) (ch '[' :: (white ++ [ch ']'])) (.value (array []))
  | array {n body vs} : Denotes n body (.items vs) →
      Denotes (n + 1) (ch '[' :: (body ++ [ch ']'])) (.value (array vs))
  | noMembers {n white} : White white → Denotes (n + 1) (ch '{' :: (white ++ [ch '}'])) (.value (object []))
  | object {n body entries} : Denotes n body (.members entries) →
      Denotes (n + 1) (ch '{' :: (body ++ [ch '}'])) (.value (object (OrderedMap.collapse entries)))
  | item {n before text after v} : White before → Denotes n text (.value v) → White after →
      Denotes n (before ++ (text ++ after)) (.item v)
  | lastItem {n text v} : Denotes n text (.item v) → Denotes n text (.items [v])
  | moreItems {n text v rest vs} : Denotes n text (.item v) → Denotes n rest (.items vs) →
      Denotes n (text ++ ch ',' :: rest) (.items (v :: vs))
  | member {n before raw key after text v} : White before → Chars raw key → White after →
      Denotes n text (.item v) →
      Denotes n (before ++ (ch '"' :: (raw ++ (ch '"' :: (after ++ ch ':' :: text))))) (.member (key, v))
  | lastMember {n text entry} : Denotes n text (.member entry) → Denotes n text (.members [entry])
  | moreMembers {n text entry rest entries} : Denotes n text (.member entry) → Denotes n rest (.members entries) →
      Denotes n (text ++ ch ',' :: rest) (.members (entry :: entries))

def IsText [Reals R] (text : Bytes) (v : Json R) : Prop := Denotes maxDepth text (.item v)

theorem White.nil : White [] := by simp [White]

theorem White.append {front back : Bytes} (hf : White front) (hb : White back) : White (front ++ back) := by
  intro c member
  rcases List.mem_append.mp member with member | member
  · exact hf c member
  · exact hb c member

theorem White.of_append {front back : Bytes} (white : White (front ++ back)) : White front ∧ White back :=
  ⟨fun c member => white c (List.mem_append_left _ member), fun c member => white c (List.mem_append_right _ member)⟩

section Surroundings

variable [Reals R] {n : Nat} {white body : Bytes}

theorem Denotes.white_item {v : Json R} (hw : White white) (denotes : Denotes n body (.item v)) :
    Denotes n (white ++ body) (.item v) := by
  cases denotes with
  | item before value after =>
    rw [← List.append_assoc]
    exact .item (hw.append before) value after

theorem Denotes.white_items {vs : List (Json R)} (hw : White white) (denotes : Denotes n body (.items vs)) :
    Denotes n (white ++ body) (.items vs) := by
  cases denotes with
  | lastItem item => exact .lastItem (item.white_item hw)
  | moreItems item rest =>
    rw [← List.append_assoc]
    exact .moreItems (item.white_item hw) rest

theorem Denotes.white_member {entry : Bytes × Json R} (hw : White white) (denotes : Denotes n body (.member entry)) :
    Denotes n (white ++ body) (.member entry) := by
  cases denotes with
  | member before key after item =>
    rw [← List.append_assoc]
    exact .member (hw.append before) key after item

theorem Denotes.white_members {entries : List (Bytes × Json R)} (hw : White white)
    (denotes : Denotes n body (.members entries)) : Denotes n (white ++ body) (.members entries) := by
  cases denotes with
  | lastMember member => exact .lastMember (member.white_member hw)
  | moreMembers member rest =>
    rw [← List.append_assoc]
    exact .moreMembers (member.white_member hw) rest

end Surroundings

end BlueBird.Json
