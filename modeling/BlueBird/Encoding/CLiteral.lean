import BlueBird.Json.Parser

/-! String literals of C, as a compiler reads them. -/

namespace BlueBird.CLiteral

def isOctal (c : Byte) : Bool := ch '0' ≤ c ∧ c ≤ ch '7'

def isHex (c : Byte) : Bool := isDigit c || (ch 'a' ≤ toLower c ∧ toLower c ≤ ch 'f')

def hexValue (c : Byte) : Nat := if isDigit c then digitValue c else (toLower c).toNat - (ch 'a').toNat + 10

def byteOf (base : Nat) (value : Byte → Nat) (digits : Bytes) : Option Bytes :=
  let n := digits.foldl (fun n c => n * base + value c) 0
  if digits = [] ∨ 255 < n then none else some [UInt8.ofNat n]

/-- The character with a number of `count` hexadecimal digits. -/
def universal (count : Nat) (bytes : Bytes) : Option Bytes :=
  let digits := bytes.take count
  if digits.length = count ∧ digits.all isHex then
    some (Json.utf8Encode (digits.foldl (fun n c => n * 16 + hexValue c) 0))
  else none

def simpleEscape (c : Byte) : Option Byte :=
  if c = ch '\'' ∨ c = ch '"' ∨ c = ch '?' ∨ c = ch '\\' then some c
  else if c = ch 'a' then some 7
  else if c = ch 'b' then some 8
  else if c = ch 'f' then some 12
  else if c = ch 'n' then some 10
  else if c = ch 'r' then some 13
  else if c = ch 't' then some 9
  else if c = ch 'v' then some 11
  else none

/-- What stands behind a backslash: its value, and what follows; a line may be spliced. -/
def escape : Bytes → Option (Bytes × Bytes)
  | [] => none
  | c :: rest =>
    if c = 10 then some ([], rest)
    else if isOctal c then
      let digits := ((c :: rest).takeWhile isOctal).take 3
      (byteOf 8 digitValue digits).map fun value => (value, (c :: rest).drop digits.length)
    else if c = ch 'x' then
      let digits := rest.takeWhile isHex
      (byteOf 16 hexValue digits).map fun value => (value, rest.drop digits.length)
    else if c = ch 'u' then (universal 4 rest).map fun value => (value, rest.drop 4)
    else if c = ch 'U' then (universal 8 rest).map fun value => (value, rest.drop 8)
    else (simpleEscape c).map fun value => ([value], rest)

/-- The characters up to the closing quote, which ends the text; each takes one turn at least. -/
def readChars : (turns : Nat) → Bytes → Option Bytes
  | 0, _ => none
  | _ + 1, [] => none
  | turns + 1, c :: rest =>
    if c = ch '"' then if rest = [] then some [] else none
    else if c = 10 then none
    else if c = ch '\\' then
      (escape rest).bind fun escaped => (readChars turns escaped.2).map (escaped.1 ++ ·)
    else (readChars turns rest).map (c :: ·)

def readLiteral : Bytes → Option Bytes
  | [] => none
  | c :: rest => if c = ch '"' then readChars rest.length rest else none

def Plain (c : Byte) : Prop := c ≠ ch '"' ∧ c ≠ 10 ∧ c ≠ ch '\\'

instance (c : Byte) : Decidable (Plain c) := inferInstanceAs (Decidable (_ ∧ _))

theorem length_utf8Encode (cp : Nat) : (Json.utf8Encode cp).length ≤ 4 := by
  unfold Json.utf8Encode
  split_ifs <;> simp

theorem length_byteOf {base : Nat} {value : Byte → Nat} {digits v : Bytes} (read : byteOf base value digits = some v) :
    v.length = 1 ∧ 0 < digits.length := by
  unfold byteOf at read
  by_cases bad : digits = [] ∨ 255 < digits.foldl (fun n c => n * base + value c) 0
  · rw [if_pos bad] at read
    cases read
  · rw [if_neg bad] at read
    cases read
    exact ⟨rfl, List.length_pos_iff.mpr fun none => bad (.inl none)⟩

theorem length_universal {count : Nat} {bytes v : Bytes} (read : universal count bytes = some v) :
    v.length ≤ 4 ∧ count ≤ bytes.length := by
  unfold universal at read
  by_cases whole : (bytes.take count).length = count ∧ (bytes.take count).all isHex = true
  · rw [if_pos whole] at read
    cases read
    refine ⟨length_utf8Encode _, ?_⟩
    have long := whole.1
    rw [List.length_take] at long
    omega
  · rw [if_neg whole] at read
    cases read

theorem length_escape {bytes v rest : Bytes} (read : escape bytes = some (v, rest)) : v.length + rest.length ≤ bytes.length := by
  cases bytes with
  | nil => cases read
  | cons c tail =>
    rw [escape] at read
    by_cases splice : c = 10
    · rw [if_pos splice] at read
      cases read
      simp
    · rw [if_neg splice] at read
      by_cases octal : isOctal c = true
      · rw [if_pos octal] at read
        rcases Option.map_eq_some_iff.mp read with ⟨value, digits, same⟩
        cases same
        have one := length_byteOf digits
        have few : (((c :: tail).takeWhile isOctal).take 3).length ≤ (c :: tail).length :=
          Nat.le_trans (List.length_take_le' _ _) (List.takeWhile_sublist _).length_le
        rw [List.length_drop]
        omega
      · rw [if_neg octal] at read
        by_cases hex : c = ch 'x'
        · rw [if_pos hex] at read
          rcases Option.map_eq_some_iff.mp read with ⟨value, digits, same⟩
          cases same
          have one := length_byteOf digits
          have few : (tail.takeWhile isHex).length ≤ tail.length := (List.takeWhile_sublist _).length_le
          rw [List.length_drop, List.length_cons]
          omega
        · rw [if_neg hex] at read
          by_cases small : c = ch 'u'
          · rw [if_pos small] at read
            rcases Option.map_eq_some_iff.mp read with ⟨value, digits, same⟩
            cases same
            have four := length_universal digits
            rw [List.length_drop, List.length_cons]
            omega
          · rw [if_neg small] at read
            by_cases large : c = ch 'U'
            · rw [if_pos large] at read
              rcases Option.map_eq_some_iff.mp read with ⟨value, digits, same⟩
              cases same
              have eight := length_universal digits
              rw [List.length_drop, List.length_cons]
              omega
            · rw [if_neg large] at read
              rcases Option.map_eq_some_iff.mp read with ⟨value, _, same⟩
              cases same
              simp [Nat.add_comm]

theorem readChars_some {turns : Nat} {text v : Bytes} (read : readChars turns text = some v) :
    v.length + 1 ≤ text.length ∧ (v.length + 1 = text.length → text = v ++ [ch '"'] ∧ ∀ c ∈ v, Plain c) := by
  induction turns generalizing text v with
  | zero => cases read
  | succ turns ih =>
    cases text with
    | nil => cases read
    | cons c rest =>
      rw [readChars] at read
      by_cases quote : c = ch '"'
      · rw [if_pos quote] at read
        by_cases last : rest = []
        · rw [if_pos last] at read
          cases read
          rw [last, quote]
          exact ⟨Nat.le_refl _, fun _ => ⟨rfl, by simp⟩⟩
        · rw [if_neg last] at read
          cases read
      · rw [if_neg quote] at read
        by_cases line : c = 10
        · rw [if_pos line] at read
          cases read
        · rw [if_neg line] at read
          by_cases backslash : c = ch '\\'
          · rw [if_pos backslash] at read
            rcases Option.bind_eq_some_iff.mp read with ⟨⟨value, tail⟩, escaped, read⟩
            rcases Option.map_eq_some_iff.mp read with ⟨w, later, rfl⟩
            have shorter := length_escape escaped
            have bound := (ih later).1
            rw [List.length_append, List.length_cons]
            simp only at shorter bound ⊢
            refine ⟨by omega, fun equal => ?_⟩
            omega
          · rw [if_neg backslash] at read
            rcases Option.map_eq_some_iff.mp read with ⟨w, later, rfl⟩
            rcases ih later with ⟨bound, exact_⟩
            refine ⟨by rw [List.length_cons, List.length_cons]; omega, ?_⟩
            intro equal
            rw [List.length_cons, List.length_cons] at equal
            rcases exact_ (by omega) with ⟨split, plain⟩
            refine ⟨by rw [split, List.cons_append], ?_⟩
            intro d member
            rcases List.mem_cons.mp member with rfl | behind
            · exact ⟨quote, line, backslash⟩
            · exact plain d behind

theorem readChars_plain {content : Bytes} (plain : ∀ c ∈ content, Plain c) {turns : Nat} (enough : content.length < turns) :
    readChars turns (content ++ [ch '"']) = some content := by
  induction content generalizing turns with
  | nil =>
    cases turns with
    | zero => omega
    | succ turns => rfl
  | cons c content ih =>
    cases turns with
    | zero => omega
    | succ turns =>
      rcases plain c List.mem_cons_self with ⟨quote, line, backslash⟩
      have rest := ih (fun d member => plain d (List.mem_cons_of_mem _ member)) (Nat.lt_of_succ_lt_succ enough)
      rw [List.cons_append, readChars, if_neg quote, if_neg line, if_neg backslash, rest]
      rfl

end BlueBird.CLiteral
