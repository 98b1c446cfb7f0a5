import BlueBird.Http.Decimal
import Mathlib.Algebra.Ring.Int.Defs
import Mathlib.Data.List.TakeWhile

/-! The numbers that the conversions of the C library read from a text, in base 10. -/

namespace BlueBird.NumberText

def number (digits : Bytes) : Nat := digits.foldl (fun value digit => value * 10 + digitValue digit) 0

structure Scan where
  negative : Bool
  digits : Bytes
  rest : Bytes
  deriving DecidableEq, Repr

def scan (text : Bytes) : Scan :=
  let signed := text.dropWhile isSpace
  let minus := signed.head? = some (ch '-')
  let unsigned := if minus ∨ signed.head? = some (ch '+') then signed.tail else signed
  { negative := minus, digits := unsigned.takeWhile isDigit, rest := unsigned.dropWhile isDigit }

/-- `strtoul`, with what is left at its `end`; a number that is too large is the largest. -/
def strtoul (text : Bytes) : Nat × Bytes :=
  let scanned := scan text
  let value := number scanned.digits
  if scanned.digits = [] then (0, text)
  else if value ≥ 2^64 then (2^64 - 1, scanned.rest)
  else (if scanned.negative then (2^64 - value) % 2^64 else value, scanned.rest)

/-- `strtol`, with what is left at its `end`; a number that is out of range is the nearest. -/
def strtol (text : Bytes) : Int × Bytes :=
  let scanned := scan text
  let value : Int := if scanned.negative then - number scanned.digits else number scanned.digits
  if scanned.digits = [] then (0, text) else (max (-2^63) (min (2^63 - 1) value), scanned.rest)

structure Written (text spaces mark digits rest : Bytes) : Prop where
  split : text = spaces ++ (mark ++ (digits ++ rest))
  blank : ∀ c ∈ spaces, isSpace c = true
  sign : mark = [] ∨ mark = [ch '+'] ∨ mark = [ch '-']
  numeric : ∀ c ∈ digits, isDigit c = true
  nonempty : digits ≠ []
  ends : ∀ c ∈ rest.head?, isDigit c = false

theorem takeWhile_dropWhile_append {p : Byte → Bool} {front rest : Bytes} (all : ∀ c ∈ front, p c = true)
    (ends : ∀ c ∈ rest.head?, p c = false) :
    (front ++ rest).takeWhile p = front ∧ (front ++ rest).dropWhile p = rest := by
  have stop : rest.takeWhile p = [] ∧ rest.dropWhile p = rest := by
    cases rest with
    | nil => exact ⟨rfl, rfl⟩
    | cons c rest => simp [ends c rfl]
  rw [List.takeWhile_append_of_pos all, List.dropWhile_append_of_pos all, stop.1, stop.2, List.append_nil]
  exact ⟨rfl, rfl⟩

theorem digit_plain (c : Byte) : isDigit c = true → isSpace c = false ∧ c ≠ ch '-' ∧ c ≠ ch '+' := by
  revert c
  apply forall_byte
  decide +kernel

theorem Written.scan {text spaces mark digits rest : Bytes} (written : Written text spaces mark digits rest) :
    scan text = { negative := mark = [ch '-'], digits, rest } := by
  rcases List.exists_cons_of_ne_nil written.nonempty with ⟨d, more, same⟩
  have plain := digit_plain d (written.numeric d (by rw [same]; exact List.mem_cons_self ..))
  have skipped : text.dropWhile isSpace = mark ++ (digits ++ rest) := by
    rw [written.split]
    apply (takeWhile_dropWhile_append written.blank _).2
    intro c first
    rcases written.sign with rfl | rfl | rfl
    · rw [same] at first
      cases first
      exact plain.1
    · cases first
      decide
    · cases first
      decide
  have parts := takeWhile_dropWhile_append written.numeric written.ends
  unfold NumberText.scan
  dsimp only
  rw [skipped]
  rcases written.sign with rfl | rfl | rfl
  · have first : ([] ++ (digits ++ rest)).head? = some d := by rw [same]; rfl
    rw [first, if_neg (by simpa using ⟨plain.2.1, plain.2.2⟩), List.nil_append, parts.1, parts.2]
    simpa using plain.2.1
  · show Scan.mk _ ((digits ++ rest).takeWhile isDigit) ((digits ++ rest).dropWhile isDigit) = _
    rw [parts.1, parts.2]
    rfl
  · show Scan.mk _ ((digits ++ rest).takeWhile isDigit) ((digits ++ rest).dropWhile isDigit) = _
    rw [parts.1, parts.2]
    rfl

theorem dropWhile_ends {p : Byte → Bool} (text : Bytes) : ∀ c ∈ (text.dropWhile p).head?, p c = false := by
  intro c first
  have stop := List.head?_dropWhile_not p text
  rw [first] at stop
  exact stop

theorem scan_written {text : Bytes} (some_ : (scan text).digits ≠ []) :
    ∃ spaces mark, Written text spaces mark (scan text).digits (scan text).rest := by
  have parts : ∀ mark unsigned, text.dropWhile isSpace = mark ++ unsigned → (mark = [] ∨ mark = [ch '+'] ∨ mark = [ch '-']) →
      unsigned.takeWhile isDigit ≠ [] →
      Written text (text.takeWhile isSpace) mark (unsigned.takeWhile isDigit) (unsigned.dropWhile isDigit) := by
    intro mark unsigned split sign some_
    refine ⟨?_, fun _ => List.mem_takeWhile_imp, sign, fun _ => List.mem_takeWhile_imp, some_, dropWhile_ends unsigned⟩
    rw [List.takeWhile_append_dropWhile, ← split, List.takeWhile_append_dropWhile]
  unfold scan at some_ ⊢
  dsimp only at some_ ⊢
  cases signed : text.dropWhile isSpace with
  | nil => simp [signed] at some_
  | cons c rest =>
    rw [signed] at some_
    by_cases marked : c = ch '-' ∨ c = ch '+'
    · rw [if_pos (by simpa using marked)] at some_ ⊢
      refine ⟨text.takeWhile isSpace, [c], parts [c] rest signed ?_ some_⟩
      rcases marked with rfl | rfl
      · exact .inr (.inr rfl)
      · exact .inr (.inl rfl)
    · rw [if_neg (by simpa using marked)] at some_ ⊢
      exact ⟨text.takeWhile isSpace, [], parts [] (c :: rest) signed (.inl rfl) some_⟩

theorem number_append (digits : Bytes) (d : Byte) : number (digits ++ [d]) = number digits * 10 + digitValue d :=
  List.foldl_append

theorem number_decimal (n : Nat) : number (Http.decimal n) = n := by
  induction n using Nat.strongRecOn with
  | _ n ih =>
    by_cases small : n < 10
    · rw [Http.decimal_lt small]
      show 0 * 10 + digitValue (Http.digitByte n) = n
      rw [Http.digitValue_digitByte small, Nat.zero_mul, Nat.zero_add]
    · rw [Http.decimal_ge (Nat.le_of_not_lt small), number_append, ih (n / 10) (by omega),
        Http.digitValue_digitByte (Nat.mod_lt n (by decide))]
      omega

theorem strtoul_digits {digits rest : Bytes} (numeric : ∀ c ∈ digits, isDigit c = true) (nonempty : digits ≠ [])
    (ends : ∀ c ∈ rest.head?, isDigit c = false) (small : number digits < 2^64) :
    strtoul (digits ++ rest) = (number digits, rest) := by
  have written : Written (digits ++ rest) [] [] digits rest := ⟨rfl, by simp, .inl rfl, numeric, nonempty, ends⟩
  unfold strtoul
  rw [written.scan]
  dsimp only
  rw [if_neg nonempty, if_neg (Nat.not_le.mpr small)]
  rfl

theorem Written.strtoul_rest {text spaces mark digits rest : Bytes} (written : Written text spaces mark digits rest) :
    (strtoul text).2 = rest := by
  unfold strtoul
  rw [written.scan]
  dsimp only
  rw [if_neg written.nonempty]
  split <;> rfl

theorem Written.strtoul_value {text other spaces mark digits rest more : Bytes}
    (written : Written text spaces mark digits rest) (again : Written other spaces mark digits more) :
    (strtoul text).1 = (strtoul other).1 := by
  unfold strtoul
  rw [written.scan, again.scan]
  dsimp only
  rw [if_neg written.nonempty, if_neg written.nonempty]
  split <;> rfl

theorem strtoul_written {text : Bytes} (moved : (strtoul text).2 ≠ text) :
    ∃ spaces mark digits, Written text spaces mark digits (strtoul text).2 := by
  have some_ : (scan text).digits ≠ [] := by
    intro empty
    apply moved
    unfold strtoul
    dsimp only
    rw [if_pos empty]
  rcases scan_written some_ with ⟨spaces, mark, written⟩
  rw [written.strtoul_rest]
  exact ⟨spaces, mark, _, written⟩

theorem strtoul_append {count : Bytes} {n : Nat} (counted : count ≠ []) (read : strtoul count = (n, [])) {c : Byte}
    (stop : isDigit c = false) (more : Bytes) : strtoul (count ++ c :: more) = (n, c :: more) := by
  have moved : (strtoul count).2 ≠ count := by
    rw [read]
    exact counted.symm
  rcases strtoul_written moved with ⟨spaces, mark, digits, written⟩
  rw [read] at written
  have longer : Written (count ++ c :: more) spaces mark digits (c :: more) := by
    refine ⟨?_, written.blank, written.sign, written.numeric, written.nonempty, ?_⟩
    · rw [written.split]
      simp
    · intro d first
      cases first
      exact stop
  have value := longer.strtoul_value written
  rw [read] at value
  exact Prod.ext value longer.strtoul_rest

theorem strtoul_split {text : Bytes} (moved : (strtoul text).2 ≠ text) :
    ∃ count, text = count ++ (strtoul text).2 ∧ count ≠ [] ∧ strtoul count = ((strtoul text).1, []) := by
  rcases strtoul_written moved with ⟨spaces, mark, digits, written⟩
  have alone : Written (spaces ++ (mark ++ digits)) spaces mark digits [] :=
    ⟨by simp, written.blank, written.sign, written.numeric, written.nonempty, by simp⟩
  refine ⟨spaces ++ (mark ++ digits), ?_, ?_, Prod.ext (alone.strtoul_value written) alone.strtoul_rest⟩
  · rw [List.append_assoc, List.append_assoc]
    exact written.split
  · simp [written.nonempty]

theorem strtoul_plain {count : Bytes} {n : Nat} (counted : count ≠ []) (read : strtoul count = (n, []))
    (plain : ∀ c ∈ count.head?, isDigit c = true) (small : n < 2^64 - 1) :
    (∀ c ∈ count, isDigit c = true) ∧ number count = n := by
  have moved : (strtoul count).2 ≠ count := by
    rw [read]
    exact counted.symm
  rcases strtoul_written moved with ⟨spaces, mark, digits, written⟩
  rw [read] at written
  have same : count = digits := by
    have split := written.split
    rw [List.append_nil] at split
    rw [split] at plain
    cases spaces with
    | cons c spaces =>
      have blank := written.blank c (List.mem_cons_self ..)
      rw [(digit_plain c (plain c rfl)).1] at blank
      cases blank
    | nil =>
      rcases written.sign with rfl | rfl | rfl
      · exact split
      · exact absurd (plain (ch '+') rfl) (by decide)
      · exact absurd (plain (ch '-') rfl) (by decide)
  have numeric := written.numeric
  rw [← same] at numeric
  refine ⟨numeric, ?_⟩
  by_cases large : number count < 2^64
  · have whole := @strtoul_digits count [] numeric counted (by simp) large
    rw [List.append_nil, read] at whole
    exact (congrArg Prod.fst whole).symm
  · have alone : Written count [] [] count [] := ⟨by simp, by simp, .inl rfl, numeric, counted, by simp⟩
    unfold strtoul at read
    rw [alone.scan] at read
    dsimp only at read
    rw [if_neg counted, if_pos (Nat.le_of_not_lt large)] at read
    cases read
    omega

end BlueBird.NumberText
