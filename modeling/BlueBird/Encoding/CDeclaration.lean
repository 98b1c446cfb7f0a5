import BlueBird.Encoding.NumberText

/-! Tokens and member declarations of C, as a compiler reads them. -/

namespace BlueBird.CDeclaration

def isWordStart (c : Byte) : Bool := (ch 'a' ≤ toLower c ∧ toLower c ≤ ch 'z') || c == ch '_'

def isWord (c : Byte) : Bool := isWordStart c || isDigit c

inductive Token where
  | word (text : Bytes)
  | number (text : Bytes)
  | mark (c : Byte)
  deriving DecidableEq, Repr

def tokens : (turns : Nat) → Bytes → List Token
  | 0, _ => []
  | _ + 1, [] => []
  | turns + 1, c :: rest =>
    if isSpace c then tokens turns rest
    else if isWordStart c then .word (c :: rest.takeWhile isWord) :: tokens turns (rest.dropWhile isWord)
    else if isDigit c then .number (c :: rest.takeWhile isWord) :: tokens turns (rest.dropWhile isWord)
    else .mark c :: tokens turns rest

/-- The words that are no identifiers. -/
def keywords : List Bytes :=
  ["auto", "break", "case", "char", "const", "continue", "default", "do", "double", "else", "enum", "extern", "float", "for",
    "goto", "if", "inline", "int", "long", "register", "restrict", "return", "short", "signed", "sizeof", "static", "struct",
    "switch", "typedef", "union", "unsigned", "void", "volatile", "while", "_Alignas", "_Alignof", "_Atomic", "_Bool",
    "_Complex", "_Generic", "_Imaginary", "_Noreturn", "_Static_assert", "_Thread_local"].map ascii

/-- A member of a structure: a type, a name and, for an array, how many elements it has. -/
structure Declaration where
  type : List Bytes
  name : Bytes
  count : Option Nat
  deriving DecidableEq, Repr

/-- The words of a type: one of the basic types that occur, or the name of a type. -/
def IsType (words : List Bytes) : Prop :=
  words ∈ [[ascii "int"], [ascii "char"], [ascii "unsigned", ascii "char"]] ∨ ∃ name ∈ words.head?, words = [name] ∧ name ∉ keywords

instance (words : List Bytes) : Decidable (IsType words) :=
  inferInstanceAs (Decidable (_ ∨ ∃ name ∈ words.head?, _))

def splitWords : List Token → List Bytes × List Token
  | .word text :: rest => (text :: (splitWords rest).1, (splitWords rest).2)
  | rest => ([], rest)

def constant (text : Bytes) : Option Nat :=
  if text.all isDigit ∧ text.head? ≠ some (ch '0') then some (NumberText.number text) else none

def declarator : List Token → Option (Option Nat)
  | [.mark c] => if c = ch ';' then some none else none
  | [.mark a, .number count, .mark b, .mark c] =>
    if a = ch '[' ∧ b = ch ']' ∧ c = ch ';' then (constant count).map some else none
  | _ => none

def declaration (tokens : List Token) : Option Declaration :=
  let parts := splitWords tokens
  match parts.1.getLast?, declarator parts.2 with
  | some name, some count =>
    if IsType parts.1.dropLast ∧ name ∉ keywords then some { type := parts.1.dropLast, name, count } else none
  | _, _ => none

def readDeclaration (text : Bytes) : Option Declaration := declaration (tokens text.length text)

def disjunction : List Token → Option (List Bytes)
  | [.word text] => some [text]
  | .word text :: .mark c :: rest => if c = ch '|' then (disjunction rest).map (text :: ·) else none
  | _ => none

def readDisjunction (text : Bytes) : Option (List Bytes) := disjunction (tokens text.length text)

/-- These are the tokens, however many turns there are beyond the ones they take. -/
def Lexes (text : Bytes) (found : List Token) : Prop := ∀ turns, text.length ≤ turns → tokens turns text = found

theorem Lexes.nil : Lexes [] [] := by
  intro turns _
  cases turns <;> rfl

theorem Lexes.space {text : Bytes} {found : List Token} (later : Lexes text found) : Lexes (ch ' ' :: text) found := by
  intro turns enough
  cases turns with
  | zero => cases enough
  | succ turns => exact later turns (Nat.le_of_succ_le_succ enough)

theorem Lexes.mark {text : Bytes} {found : List Token} {c : Byte}
    (plain : isSpace c = false ∧ isWordStart c = false ∧ isDigit c = false) (later : Lexes text found) :
    Lexes (c :: text) (.mark c :: found) := by
  intro turns enough
  cases turns with
  | zero => cases enough
  | succ turns =>
    rw [tokens, plain.1, plain.2.1, plain.2.2, later turns (Nat.le_of_succ_le_succ enough)]
    rfl

theorem wordStart_plain (c : Byte) : isWordStart c = true → isSpace c = false ∧ isWord c = true := by
  revert c
  apply forall_byte
  decide +kernel

theorem digit_number (c : Byte) : isDigit c = true → isSpace c = false ∧ isWordStart c = false ∧ isWord c = true := by
  revert c
  apply forall_byte
  decide +kernel

def Spelled (first : Byte → Bool) (text : Bytes) : Prop :=
  (∃ c ∈ text.head?, first c = true) ∧ ∀ c ∈ text, isWord c = true

theorem Lexes.word {text rest : Bytes} {found : List Token} (spelled : Spelled isWordStart text)
    (stop : ∀ c ∈ rest.head?, isWord c = false) (later : Lexes rest found) : Lexes (text ++ rest) (.word text :: found) := by
  rcases spelled with ⟨⟨c, first, start⟩, all⟩
  cases text with
  | nil => cases first
  | cons d text =>
    cases first
    have parts := NumberText.takeWhile_dropWhile_append (fun e member => all e (List.mem_cons_of_mem _ member)) stop
    intro turns enough
    cases turns with
    | zero => cases enough
    | succ turns =>
      have fits : rest.length ≤ turns := by
        simp only [List.cons_append, List.length_cons, List.length_append] at enough
        omega
      rw [List.cons_append, tokens, (wordStart_plain c start).1, start, parts.1, parts.2, later turns fits]
      rfl

theorem Lexes.number {text rest : Bytes} {found : List Token} (spelled : Spelled isDigit text)
    (stop : ∀ c ∈ rest.head?, isWord c = false) (later : Lexes rest found) : Lexes (text ++ rest) (.number text :: found) := by
  rcases spelled with ⟨⟨c, first, start⟩, all⟩
  cases text with
  | nil => cases first
  | cons d text =>
    cases first
    have parts := NumberText.takeWhile_dropWhile_append (fun e member => all e (List.mem_cons_of_mem _ member)) stop
    have plain := digit_number c start
    intro turns enough
    cases turns with
    | zero => cases enough
    | succ turns =>
      have fits : rest.length ≤ turns := by
        simp only [List.cons_append, List.length_cons, List.length_append] at enough
        omega
      rw [List.cons_append, tokens, plain.1, plain.2.1, start, parts.1, parts.2, later turns fits]
      rfl

theorem decimal_head {n : Nat} (positive : 0 < n) : (Http.decimal n).head? ≠ some (ch '0') := by
  have digits : ∀ d : Fin 10, 0 < d.val → Http.digitByte d.val ≠ ch '0' := by decide
  induction n using Nat.strongRecOn with
  | _ n ih =>
    by_cases small : n < 10
    · rw [Http.decimal_lt small]
      exact fun zero => digits ⟨n, small⟩ positive (Option.some.inj zero)
    · have front := ih (n / 10) (by omega) (by omega)
      rcases List.exists_cons_of_ne_nil (Http.decimal_ne_nil (n / 10)) with ⟨c, rest, same⟩
      rw [same] at front
      rw [Http.decimal_ge (Nat.le_of_not_lt small), same]
      exact front

theorem constant_decimal {n : Nat} (positive : 0 < n) : constant (Http.decimal n) = some n := by
  unfold constant
  rw [if_pos ⟨List.all_eq_true.mpr (Http.decimal_isDigit n), decimal_head positive⟩, NumberText.number_decimal]

theorem decimal_spelled (n : Nat) : Spelled isDigit (Http.decimal n) := by
  have digits := Http.decimal_isDigit n
  refine ⟨?_, fun c member => (digit_number c (digits c member)).2.2⟩
  rcases List.exists_cons_of_ne_nil (Http.decimal_ne_nil n) with ⟨c, rest, same⟩
  rw [same] at digits ⊢
  exact ⟨c, rfl, digits c (List.mem_cons_self ..)⟩

theorem splitWords_append (words : List Bytes) {tail : List Token} (ends : splitWords tail = ([], tail)) :
    splitWords (words.map .word ++ tail) = (words, tail) := by
  induction words with
  | nil => exact ends
  | cons word words ih =>
    rw [List.map_cons, List.cons_append, splitWords, ih]

theorem readDeclaration_of_lexes {text : Bytes} {found : List Token} (lexes : Lexes text found) :
    readDeclaration text = declaration found := by
  unfold readDeclaration
  rw [lexes text.length (Nat.le_refl _)]

theorem declaration_member {type : List Bytes} {name : Bytes} (good : IsType type) (free : name ∉ keywords) :
    declaration (type.map .word ++ [.word name, .mark (ch ';')]) = some { type, name, count := none } := by
  have parts : splitWords (type.map .word ++ [.word name, .mark (ch ';')]) = (type ++ [name], [.mark (ch ';')]) := by
    have whole := @splitWords_append (type ++ [name]) [.mark (ch ';')] rfl
    rwa [List.map_append, List.append_assoc] at whole
  have none_ : declarator [.mark (ch ';')] = some none := rfl
  unfold declaration
  dsimp only
  rw [parts]
  dsimp only
  rw [List.getLast?_concat, none_, List.dropLast_concat]
  exact if_pos ⟨good, free⟩

theorem declaration_array {type : List Bytes} {name text : Bytes} {n : Nat} (good : IsType type) (free : name ∉ keywords)
    (count : constant text = some n) :
    declaration (type.map .word ++ [.word name, .mark (ch '['), .number text, .mark (ch ']'), .mark (ch ';')]) =
      some { type, name, count := some n } := by
  have parts : splitWords (type.map .word ++ [.word name, .mark (ch '['), .number text, .mark (ch ']'), .mark (ch ';')]) =
      (type ++ [name], [.mark (ch '['), .number text, .mark (ch ']'), .mark (ch ';')]) := by
    have whole := @splitWords_append (type ++ [name]) [.mark (ch '['), .number text, .mark (ch ']'), .mark (ch ';')] rfl
    rwa [List.map_append, List.append_assoc] at whole
  have some_ : declarator [.mark (ch '['), .number text, .mark (ch ']'), .mark (ch ';')] = some (some n) := by
    rw [declarator, count]
    rfl
  unfold declaration
  dsimp only
  rw [parts]
  dsimp only
  rw [List.getLast?_concat, some_, List.dropLast_concat]
  exact if_pos ⟨good, free⟩

theorem lexes_member {name : Bytes} (spelled : Spelled isWordStart name) :
    Lexes (name ++ ascii ";") [.word name, .mark (ch ';')] :=
  .word spelled (by decide +kernel) (.mark (by decide) .nil)

theorem lexes_array {name : Bytes} (spelled : Spelled isWordStart name) (n : Nat) :
    Lexes (name ++ (ascii "[" ++ (Http.decimal n ++ ascii "];")))
      [.word name, .mark (ch '['), .number (Http.decimal n), .mark (ch ']'), .mark (ch ';')] :=
  .word spelled (fun c first => by cases first; decide)
    (.mark (by decide) (.number (decimal_spelled n) (by decide +kernel) (.mark (by decide) (.mark (by decide) .nil))))

theorem readDeclaration_name {text : Bytes} {declared : Declaration} (read : readDeclaration text = some declared) :
    declared.name ∉ keywords := by
  unfold readDeclaration declaration at read
  dsimp only at read
  split at read
  · split at read
    · next good =>
      cases read
      exact good.2
    · cases read
  · cases read

end BlueBird.CDeclaration
