import BlueBird.Json.Grammar
import BlueBird.Program.Outcome

/-! What the parsers accept, and that they stay in memory that ends with a NUL. -/

namespace BlueBird.Json

open Outcome

variable {α R : Type}

/-- The parser ends with a result that has the property, or rejects. -/
abbrev Ends (P : α → Prop) (x : Parse α) : Prop := Ensures (· = Failure.rejected) P x

theorem ends_reject {P : α → Prop} : Ends P (reject : Parse α) := Ensures.error rfl

/-- The result is what was used of the buffer, and the NUL is still ahead. -/
abbrev Scans (D : Bytes → Prop) (buffer : Bytes) (x : Parse (Bytes × Bytes)) : Prop :=
  Ends (fun r => buffer = r.1 ++ r.2 ∧ (0 : Byte) ∈ r.2 ∧ D r.1) x

/-- The result is what the part of the buffer that was used stands for. -/
abbrev Reads (D : Bytes → α → Prop) (buffer : Bytes) (x : Parse (α × Bytes)) : Prop :=
  Ends (fun r => ∃ used, buffer = used ++ r.2 ∧ (0 : Byte) ∈ r.2 ∧ D used r.1) x

variable {buffer : Bytes}

theorem next_ends (nul : (0 : Byte) ∈ buffer) : Ends (fun r => buffer = r.1 :: r.2) (next buffer) := by
  cases buffer with
  | nil => cases nul
  | cons c rest => exact Ensures.ok rfl

theorem next_cons (c : Byte) (rest : Bytes) : next (c :: rest) = .ok (c, rest) := rfl

theorem peek_ends (nul : (0 : Byte) ∈ buffer) : Ends (fun c => ∃ rest, buffer = c :: rest) (peek buffer) := by
  cases buffer with
  | nil => cases nul
  | cons c rest => exact Ensures.ok ⟨rest, rfl⟩

theorem nul_behind {c : Byte} {rest : Bytes} (nul : (0 : Byte) ∈ c :: rest) (other : c ≠ 0) : (0 : Byte) ∈ rest :=
  (List.mem_cons.mp nul).resolve_left fun same => other same.symm

theorem skipWhite_ends (nul : (0 : Byte) ∈ buffer) :
    Ends (fun rest => ∃ white, buffer = white ++ rest ∧ (0 : Byte) ∈ rest ∧ White white) (skipWhite buffer) := by
  induction buffer with
  | nil => cases nul
  | cons c rest ih =>
    rw [skipWhite]
    by_cases white : whiteSpace c = true
    · rw [if_pos white]
      have other : c ≠ 0 := by
        intro zero
        rw [zero] at white
        exact absurd white (by decide)
      apply (ih (nul_behind nul other)).mono
      intro left ends
      rcases ends with ⟨more, split, nul, whites⟩
      refine ⟨c :: more, by rw [split, List.cons_append], nul, ?_⟩
      intro d member
      rcases List.mem_cons.mp member with rfl | later
      · exact white
      · exact whites d later
    · rw [if_neg white]
      exact Ensures.ok ⟨[], rfl, nul, White.nil⟩

theorem scanWord_ends (word : Bytes) (clean : (0 : Byte) ∉ word) (nul : (0 : Byte) ∈ buffer) :
    Ends (fun rest => buffer = word ++ rest ∧ (0 : Byte) ∈ rest) (scanWord word buffer) := by
  induction word generalizing buffer with
  | nil => exact Ensures.ok ⟨rfl, nul⟩
  | cons c word ih =>
    rw [List.mem_cons, not_or] at clean
    rw [scanWord]
    apply Ensures.bind (next_ends nul)
    intro first split
    by_cases same : first.1 = c
    · rw [if_pos same]
      rw [split] at nul
      have other : first.1 ≠ 0 := fun zero => clean.1 (zero ▸ same)
      apply (ih clean.2 (nul_behind nul other)).mono
      intro rest ends
      exact ⟨by rw [split, same, ends.1, List.cons_append], ends.2⟩
    · rw [if_neg same]
      exact ends_reject

/-! ## Numbers -/

theorem digit_ne_zero {c : Byte} (digit : isDigit c = true) : c ≠ 0 := by
  intro zero
  rw [zero] at digit
  exact absurd digit (by decide)

theorem scanDigits_scans (nul : (0 : Byte) ∈ buffer) :
    Scans (fun digits => ∀ c ∈ digits, isDigit c) buffer (scanDigits buffer) := by
  induction buffer with
  | nil => cases nul
  | cons c rest ih =>
    rw [scanDigits]
    by_cases digit : isDigit c = true
    · rw [if_pos digit]
      apply Ensures.bind (ih (nul_behind nul (digit_ne_zero digit)))
      intro scanned ends
      rcases ends with ⟨split, nul, digits⟩
      apply Ensures.pure
      refine ⟨by rw [split, List.cons_append], nul, ?_⟩
      intro d member
      rcases List.mem_cons.mp member with rfl | later
      · exact digit
      · exact digits d later
    · rw [if_neg digit]
      exact Ensures.ok ⟨rfl, nul, by simp⟩

theorem scanDigits_some {c : Byte} {rest : Bytes} (digit : isDigit c = true) (nul : (0 : Byte) ∈ c :: rest) :
    Scans (fun digits => Digits digits ∧ digits.head? = some c) (c :: rest) (scanDigits (c :: rest)) := by
  rw [scanDigits, if_pos digit]
  apply Ensures.bind (scanDigits_scans (nul_behind nul (digit_ne_zero digit)))
  intro scanned ends
  rcases ends with ⟨split, nul, digits⟩
  apply Ensures.pure
  refine ⟨by rw [split, List.cons_append], nul, ⟨by simp, ?_⟩, rfl⟩
  intro d member
  rcases List.mem_cons.mp member with rfl | later
  · exact digit
  · exact digits d later

theorem scanMark_scans (marks : Bytes) (clean : (0 : Byte) ∉ marks) (nul : (0 : Byte) ∈ buffer) :
    Scans (fun mark => mark = [] ∨ ∃ c ∈ marks, mark = [c]) buffer (scanMark marks buffer) := by
  apply Ensures.bind (next_ends nul)
  intro first split
  by_cases there : first.1 ∈ marks
  · rw [if_pos there]
    rw [split] at nul
    have other : first.1 ≠ 0 := fun zero => clean (zero ▸ there)
    exact Ensures.pure ⟨split, nul_behind nul other, .inr ⟨first.1, there, rfl⟩⟩
  · rw [if_neg there]
    exact Ensures.pure ⟨rfl, nul, .inl rfl⟩

theorem scanSomeDigits_scans (nul : (0 : Byte) ∈ buffer) : Scans Digits buffer (scanSomeDigits buffer) := by
  apply Ensures.bind (peek_ends nul)
  intro c first
  rcases first with ⟨rest, split⟩
  by_cases digit : isDigit c = true
  · rw [if_pos digit]
    subst split
    exact (scanDigits_some digit nul).mono fun r ends => ⟨ends.1, ends.2.1, ends.2.2.1⟩
  · rw [if_neg digit]
    exact ends_reject

theorem isDigit_of_range {c : Byte} (range : ch '1' ≤ c ∧ c ≤ ch '9') : isDigit c = true := by
  unfold isDigit
  rw [decide_eq_true_eq]
  exact ⟨Nat.le_trans (by decide) range.1, range.2⟩

theorem scanWhole_scans (nul : (0 : Byte) ∈ buffer) : Scans Whole buffer (scanWhole buffer) := by
  apply Ensures.bind (next_ends nul)
  intro first split
  rw [split] at nul
  by_cases zero : first.1 = ch '0'
  · rw [if_pos zero]
    have rest : (0 : Byte) ∈ first.2 := nul_behind nul (by rw [zero]; decide)
    apply Ensures.bind (peek_ends rest)
    intro c _
    by_cases digit : isDigit c = true
    · rw [if_pos digit]
      exact ends_reject
    · rw [if_neg digit]
      exact Ensures.pure ⟨split, rest, .inl (by rw [zero]; rfl)⟩
  · rw [if_neg zero]
    by_cases range : ch '1' ≤ first.1 ∧ first.1 ≤ ch '9'
    · rw [if_pos range, split]
      apply (scanDigits_some (isDigit_of_range range) nul).mono
      intro r ends
      refine ⟨ends.1, ends.2.1, .inr ⟨ends.2.2.1, ?_⟩⟩
      rw [ends.2.2.2]
      intro same
      exact zero (Option.some.inj same)
    · rw [if_neg range]
      exact ends_reject

theorem scanFraction_scans (nul : (0 : Byte) ∈ buffer) : Scans Fraction buffer (scanFraction buffer) := by
  apply Ensures.bind (scanMark_scans _ (by decide) nul)
  intro point ends
  rcases ends with ⟨split, behind, mark⟩
  by_cases empty : point.1 = []
  · rw [if_pos empty]
    exact Ensures.pure ⟨rfl, nul, .inl rfl⟩
  · rw [if_neg empty]
    apply Ensures.bind (scanSomeDigits_scans behind)
    intro digits ends
    rcases ends with ⟨more, behind, some⟩
    rcases mark.resolve_left empty with ⟨c, member, only⟩
    have dot : c = ch '.' := List.mem_singleton.mp member
    apply Ensures.pure
    refine ⟨by rw [split, more, List.append_assoc], behind, .inr ⟨digits.1, some, ?_⟩⟩
    rw [only, dot]
    rfl

theorem scanExponent_scans (nul : (0 : Byte) ∈ buffer) : Scans Exponent buffer (scanExponent buffer) := by
  apply Ensures.bind (scanMark_scans _ (by decide) nul)
  intro mark ends
  rcases ends with ⟨split, behind, there⟩
  by_cases empty : mark.1 = []
  · rw [if_pos empty]
    exact Ensures.pure ⟨rfl, nul, .inl rfl⟩
  · rw [if_neg empty]
    apply Ensures.bind (scanMark_scans _ (by decide) behind)
    intro sign ends
    rcases ends with ⟨splitSign, behind, signed⟩
    apply Ensures.bind (scanSomeDigits_scans behind)
    intro digits ends
    rcases ends with ⟨splitDigits, behind, some⟩
    rcases there.resolve_left empty with ⟨c, member, only⟩
    apply Ensures.pure
    refine ⟨?_, behind, .inr ⟨c, sign.1, digits.1, member, signed, some, ?_⟩⟩
    · rw [split, splitSign, splitDigits, List.append_assoc, List.append_assoc]
    · rw [only]
      rfl

theorem decimal_eq (digits : Bytes) : decimal digits = Nat.ofDigits 10 (digits.map digitValue).reverse := by
  induction digits using List.reverseRecOn with
  | nil => rfl
  | append_singleton digits d ih =>
    rw [List.map_append, List.map_singleton, List.reverse_append, List.reverse_singleton, List.singleton_append,
      Nat.ofDigits_cons, ← ih]
    unfold decimal
    rw [List.foldl_append, List.foldl_cons, List.foldl_nil]
    omega

theorem whole_head {whole : Bytes} (h : Whole whole) : whole.head? ≠ some (ch '-') := by
  rcases h with zero | ⟨⟨_, digits⟩, _⟩
  · rw [zero]
    decide
  · cases whole with
    | nil => simp
    | cons c rest =>
      intro minus
      have digit := digits c (List.mem_cons_self ..)
      rw [Option.some.inj minus] at digit
      exact absurd digit (by decide)

theorem strtol_token {minus whole : Bytes} (hm : Minus minus) (hw : Whole whole) :
    strtol (minus ++ whole) =
      if - 2^63 ≤ integerValue minus whole ∧ integerValue minus whole < 2^63 then some (integerValue minus whole)
      else none := by
  have value : (if (minus ++ whole).head? = some (ch '-') then - (decimal (minus ++ whole).tail : Int)
      else decimal (minus ++ whole)) = integerValue minus whole := by
    unfold integerValue
    rcases hm with rfl | rfl
    · rw [List.nil_append, if_neg (whole_head hw), if_pos rfl, decimal_eq]
    · rw [if_pos (by rfl), if_neg (by decide), ← decimal_eq]
      rfl
  unfold strtol
  dsimp only
  rw [value]

theorem integerOf_token {minus whole : Bytes} (hm : Minus minus) (hw : Whole whole) :
    (integerOf (minus ++ whole) : Parse (Json R)) =
      if - 2^31 ≤ integerValue minus whole ∧ integerValue minus whole < 2^31 then
        .ok (int (Int32.ofInt (integerValue minus whole)))
      else reject := by
  unfold integerOf
  rw [strtol_token hm hw]
  generalize integerValue minus whole = value
  by_cases long : - 2^63 ≤ value ∧ value < 2^63
  · rw [if_pos long]
    by_cases range : - 2^31 ≤ value ∧ value < 2^31
    · rw [if_pos range]
      show (if value < - 2^31 ∨ value > 2^31 - 1 then _ else _) = _
      rw [if_neg (by omega)]
    · rw [if_neg range]
      show (if value < - 2^31 ∨ value > 2^31 - 1 then _ else _) = _
      rw [if_pos (by omega)]
  · rw [if_neg long, if_neg (by omega)]

section Numbers

variable [Reals R]

theorem numberOf_false (token : Bytes) : (numberOf false token : Parse (Json R)) = integerOf token := rfl

theorem numberOf_true (token : Bytes) : (numberOf true token : Parse (Json R)) = realOf token := rfl

theorem parseStrNumber_reads (nul : (0 : Byte) ∈ buffer) (n : Nat) :
    Reads (fun used v => Denotes n used (.value v)) buffer (parseStrNumber buffer : Parse (Json R × Bytes)) := by
  apply Ensures.bind (scanMark_scans _ (by decide) nul)
  intro minus ends
  rcases ends with ⟨splitMinus, behind, sign⟩
  have hm : Minus minus.1 := by
    rcases sign with none | ⟨c, member, only⟩
    · exact .inl none
    · exact .inr (by rw [only, List.mem_singleton.mp member]; rfl)
  apply Ensures.bind (scanWhole_scans behind)
  intro whole ends
  rcases ends with ⟨splitWhole, behind, hw⟩
  apply Ensures.bind (scanFraction_scans behind)
  intro fraction ends
  rcases ends with ⟨splitFraction, behind, hf⟩
  apply Ensures.bind (scanExponent_scans behind)
  intro exponent ends
  rcases ends with ⟨splitExponent, behind, he⟩
  have split : buffer = (minus.1 ++ whole.1 ++ fraction.1 ++ exponent.1) ++ exponent.2 := by
    rw [splitMinus, splitWhole, splitFraction, splitExponent]
    simp only [List.append_assoc]
  dsimp only
  by_cases integer : fraction.1 = [] ∧ exponent.1 = []
  · have kind : decide (fraction.1 ≠ [] ∨ exponent.1 ≠ []) = false := by simp [integer.1, integer.2]
    rw [kind, numberOf_false]
    have token : minus.1 ++ whole.1 ++ fraction.1 ++ exponent.1 = minus.1 ++ whole.1 := by
      rw [integer.1, integer.2, List.append_nil, List.append_nil]
    rw [token] at split
    rw [token, integerOf_token hm hw]
    by_cases range : - 2^31 ≤ integerValue minus.1 whole.1 ∧ integerValue minus.1 whole.1 < 2^31
    · rw [if_pos range]
      exact Ensures.pure ⟨_, split, behind, .int hm hw range.1 range.2⟩
    · rw [if_neg range]
      exact ends_reject
  · have kind : decide (fraction.1 ≠ [] ∨ exponent.1 ≠ []) = true := decide_eq_true (not_and_or.mp integer)
    rw [kind, numberOf_true]
    unfold realOf
    split
    · exact ends_reject
    · rename_i finite
      exact Ensures.pure ⟨_, split, behind, .real hm hw hf he integer fun infinite => finite (.inr infinite)⟩

end Numbers

/-! ## Texts -/

theorem hexCharToInt_lt {c : Byte} {digit : Nat} (hex : hexCharToInt c = some digit) : digit < 16 := by
  revert hex
  unfold hexCharToInt
  have zero : (ch '0').toNat = 48 := rfl
  have nine : (ch '9').toNat = 57 := rfl
  have a : (ch 'a').toNat = 97 := rfl
  have f : (ch 'f').toNat = 102 := rfl
  have A : (ch 'A').toNat = 65 := rfl
  have F : (ch 'F').toNat = 70 := rfl
  simp only [UInt8.le_iff_toNat_le]
  intro hex
  split at hex
  · cases hex
    omega
  · split at hex
    · cases hex
      omega
    · split at hex
      · cases hex
        omega
      · cases hex

theorem hex_ne {c : Byte} {digit : Nat} (hex : hexCharToInt c = some digit) :
    c ≠ 0 ∧ c ≠ ch '"' ∧ c ≠ ch '\\' := by
  have zero : hexCharToInt 0 = none := by decide
  have quote : hexCharToInt (ch '"') = none := by decide
  have backslash : hexCharToInt (ch '\\') = none := by decide
  constructor
  · intro same
    rw [same, zero] at hex
    cases hex
  · constructor <;> intro same
    · rw [same, quote] at hex
      cases hex
    · rw [same, backslash] at hex
      cases hex

theorem shift_or (value : Nat) {digit : Nat} (hex : digit < 16) : value <<< 4 ||| digit = 16 * value + digit := by
  rw [← Nat.shiftLeft_add_eq_or_of_lt (b := digit) (i := 4) hex, Nat.shiftLeft_eq]
  omega

/-- `k` hexadecimal digits, read after the value of those before them. -/
def HexRun (k value : Nat) (used : Bytes) (result : Nat) : Prop :=
  ∃ digits : List Nat, used.map hexCharToInt = digits.map some ∧ digits.length = k ∧
    result = digits.foldl (fun v d => 16 * v + d) value

theorem parseHex_reads (k value : Nat) (nul : (0 : Byte) ∈ buffer) :
    Reads (HexRun k value) buffer (parseHex k value buffer) := by
  induction k generalizing value buffer with
  | zero => exact Ensures.ok ⟨[], rfl, nul, [], rfl, rfl, rfl⟩
  | succ k ih =>
    apply Ensures.bind (next_ends nul)
    intro first split
    rw [split] at nul
    cases hex : hexCharToInt first.1 with
    | none => exact ends_reject
    | some digit =>
      apply (ih (value <<< 4 ||| digit) (nul_behind nul (hex_ne hex).1)).mono
      intro r ends
      rcases ends with ⟨used, more, behind, digits, hexes, count, result⟩
      refine ⟨first.1 :: used, by rw [split, more, List.cons_append], behind, digit :: digits, ?_, ?_, ?_⟩
      · rw [List.map_cons, hex, hexes, List.map_cons]
      · rw [List.length_cons, count]
      · rw [result, List.foldl_cons, shift_or _ (hexCharToInt_lt hex)]

theorem hexRun_four {used : Bytes} {result : Nat} : HexRun 4 0 used result ↔ HexUnit used result := by
  constructor
  · intro run
    rcases run with ⟨digits, hexes, count, result⟩
    rcases digits with _ | ⟨a, _ | ⟨b, _ | ⟨c, _ | ⟨d, _ | ⟨e, more⟩⟩⟩⟩⟩ <;> simp only [List.length_cons, List.length_nil] at count
    · omega
    · omega
    · omega
    · omega
    · refine ⟨a, b, c, d, hexes, ?_⟩
      rw [result]
      simp only [List.foldl_cons, List.foldl_nil]
      omega
    · omega
  · intro unit
    rcases unit with ⟨a, b, c, d, hexes, result⟩
    refine ⟨[a, b, c, d], hexes, rfl, ?_⟩
    rw [result]
    simp only [List.foldl_cons, List.foldl_nil]
    omega

theorem parseHex4_reads (nul : (0 : Byte) ∈ buffer) : Reads HexUnit buffer (parseHex4 buffer) := by
  apply (parseHex_reads 4 0 nul).mono
  intro r ends
  rcases ends with ⟨used, split, behind, run⟩
  exact ⟨used, split, behind, hexRun_four.mp run⟩

theorem lead_or (mark k : Nat) {x : Nat} (small : x < 2^k) : mark <<< k ||| x = x + mark * 2^k := by
  rw [← Nat.shiftLeft_add_eq_or_of_lt small, Nat.shiftLeft_eq]
  omega

theorem tail_or (x : Nat) : 0x80 ||| x &&& 0x3F = x % 0x40 + 0x80 := by
  rw [show x &&& 0x3F = x % 2^6 from Nat.and_two_pow_sub_one_eq_mod x 6]
  exact lead_or 2 6 (Nat.mod_lt _ (by decide))

theorem char_bound (c : Char) : c.toNat < 0x110000 := by
  have valid : c.toNat.isValidChar := c.valid
  unfold Nat.isValidChar at valid
  omega

theorem utf8Encode_toNat (c : Char) : utf8Encode c.toNat = String.utf8EncodeChar c := by
  have bound := char_bound c
  have two : c.toNat < 0x800 → 0xC0 ||| c.toNat >>> 6 = c.toNat / 64 % 0x20 + 0xC0 := by
    intro small
    rw [Nat.shiftRight_eq_div_pow, show (0xC0 : Nat) = 6 <<< 5 from rfl, lead_or 6 5 (by omega)]
    omega
  have three : c.toNat < 0x10000 → 0xE0 ||| c.toNat >>> 12 = c.toNat / 4096 % 0x10 + 0xE0 := by
    intro small
    rw [Nat.shiftRight_eq_div_pow, show (0xE0 : Nat) = 14 <<< 4 from rfl, lead_or 14 4 (by omega)]
    omega
  have four : 0xF0 ||| c.toNat >>> 18 = c.toNat / 262144 % 0x08 + 0xF0 := by
    rw [Nat.shiftRight_eq_div_pow, show (0xF0 : Nat) = 30 <<< 3 from rfl, lead_or 30 3 (by omega)]
    omega
  have six : c.toNat >>> 6 = c.toNat / 64 := Nat.shiftRight_eq_div_pow _ 6
  have twelve : c.toNat >>> 12 = c.toNat / 4096 := Nat.shiftRight_eq_div_pow _ 12
  show utf8Encode c.toNat =
    if c.toNat ≤ 0x7F then [UInt8.ofNat c.toNat]
    else if c.toNat ≤ 0x7FF then
      [UInt8.ofNat (c.toNat / 64 % 0x20 + 0xC0), UInt8.ofNat (c.toNat % 0x40 + 0x80)]
    else if c.toNat ≤ 0xFFFF then
      [UInt8.ofNat (c.toNat / 4096 % 0x10 + 0xE0), UInt8.ofNat (c.toNat / 64 % 0x40 + 0x80),
        UInt8.ofNat (c.toNat % 0x40 + 0x80)]
    else
      [UInt8.ofNat (c.toNat / 262144 % 0x08 + 0xF0), UInt8.ofNat (c.toNat / 4096 % 0x40 + 0x80),
        UInt8.ofNat (c.toNat / 64 % 0x40 + 0x80), UInt8.ofNat (c.toNat % 0x40 + 0x80)]
  unfold utf8Encode
  by_cases one : c.toNat < 0x80
  · rw [if_pos one, if_pos (by omega)]
  · rw [if_neg one, if_neg (show ¬ c.toNat ≤ 0x7F by omega)]
    by_cases small : c.toNat < 0x800
    · rw [if_pos small, if_pos (by omega), two small, tail_or]
    · rw [if_neg small, if_neg (show ¬ c.toNat ≤ 0x7FF by omega)]
      by_cases plane : c.toNat < 0x10000
      · rw [if_pos plane, if_pos (by omega), three plane, six, tail_or, tail_or]
      · rw [if_neg plane, if_neg (show ¬ c.toNat ≤ 0xFFFF by omega), four, six, twelve, tail_or, tail_or, tail_or]

/-- What pass 1 takes for the body of a string: no quote, save behind a backslash. -/
inductive Skimmed : Bytes → Prop
  | nil : Skimmed []
  | plain {c raw} : c ≠ 0 → c ≠ ch '"' → c ≠ ch '\\' → Skimmed raw → Skimmed (c :: raw)
  | escaped {c raw} : c ≠ 0 → Skimmed raw → Skimmed (ch '\\' :: c :: raw)

theorem closingQuote_quote (rest : Bytes) : closingQuote (ch '"' :: rest) = .ok (ch '"' :: rest) := by
  rw [closingQuote.eq_def]
  rfl

theorem closingQuote_nul (rest : Bytes) : closingQuote (0 :: rest) = reject := by
  rw [closingQuote.eq_def]
  rfl

theorem closingQuote_cut (rest : Bytes) : closingQuote (ch '\\' :: 0 :: rest) = reject := by
  rw [closingQuote.eq_def]
  rfl

theorem closingQuote_escaped {c : Byte} (nonzero : c ≠ 0) (rest : Bytes) :
    closingQuote (ch '\\' :: c :: rest) = closingQuote rest := by
  rw [closingQuote.eq_def]
  dsimp only
  rw [if_neg (by decide), if_neg (by decide), if_pos rfl, if_neg nonzero]

theorem closingQuote_plain {c : Byte} (nonzero : c ≠ 0) (quote : c ≠ ch '"') (backslash : c ≠ ch '\\') (rest : Bytes) :
    closingQuote (c :: rest) = closingQuote rest := by
  rw [closingQuote.eq_def]
  dsimp only
  rw [if_neg nonzero, if_neg quote, if_neg backslash]

theorem closingQuote_ends (nul : (0 : Byte) ∈ buffer) :
    Ends (fun closing => ∃ raw rest, buffer = raw ++ ch '"' :: rest ∧ closing = ch '"' :: rest ∧ (0 : Byte) ∈ rest ∧
      Skimmed raw) (closingQuote buffer) := by
  induction buffer using closingQuote.induct with
  | case1 => cases nul
  | case2 rest =>
    rw [closingQuote_nul]
    exact ends_reject
  | case3 rest =>
    rw [closingQuote_quote]
    exact Ensures.ok ⟨[], rest, rfl, rfl, nul_behind nul (by decide), .nil⟩
  | case4 => exact absurd nul (by decide)
  | case5 rest =>
    rw [closingQuote_cut]
    exact ends_reject
  | case6 c rest nonzero _ _ ih =>
    rw [closingQuote_escaped nonzero]
    apply (ih (nul_behind (nul_behind nul (by decide)) nonzero)).mono
    intro closing ends
    rcases ends with ⟨raw, behind, split, closes, nul, skimmed⟩
    exact ⟨ch '\\' :: c :: raw, behind, by rw [split]; rfl, closes, nul, .escaped nonzero skimmed⟩
  | case7 c rest nonzero quote backslash ih =>
    rw [closingQuote_plain nonzero quote backslash]
    apply (ih (nul_behind nul nonzero)).mono
    intro closing ends
    rcases ends with ⟨raw, behind, split, closes, nul, skimmed⟩
    exact ⟨c :: raw, behind, by rw [split]; rfl, closes, nul, .plain nonzero quote backslash skimmed⟩

theorem Skimmed.behind {c : Byte} {raw : Bytes} (skimmed : Skimmed (c :: raw)) (other : c ≠ ch '\\') :
    Skimmed raw := by
  cases skimmed with
  | plain _ _ _ rest => exact rest
  | escaped _ _ => exact absurd rfl other

theorem Skimmed.behind_backslash {raw : Bytes} (skimmed : Skimmed (ch '\\' :: raw)) :
    ∃ c left, raw = c :: left ∧ c ≠ 0 ∧ Skimmed left := by
  cases skimmed with
  | plain _ _ other _ => exact absurd rfl other
  | escaped nonzero rest => exact ⟨_, _, rfl, nonzero, rest⟩

theorem Skimmed.behind_hex {used raw : Bytes} {digits : List Nat} (hexes : used.map hexCharToInt = digits.map some)
    (skimmed : Skimmed (used ++ raw)) : Skimmed raw := by
  induction used generalizing digits with
  | nil => exact skimmed
  | cons c used ih =>
    cases digits with
    | nil => cases hexes
    | cons digit digits =>
      rw [List.map_cons, List.map_cons, List.cons.injEq] at hexes
      rw [List.cons_append] at skimmed
      exact ih hexes.2 (skimmed.behind (hex_ne hexes.1).2.2)

theorem hex_before_quote {used raw rest behind : Bytes} {digits : List Nat}
    (hexes : used.map hexCharToInt = digits.map some) (split : raw ++ ch '"' :: rest = used ++ behind) :
    ∃ left, raw = used ++ left ∧ behind = left ++ ch '"' :: rest := by
  induction used generalizing raw digits with
  | nil => exact ⟨raw, rfl, split.symm⟩
  | cons c used ih =>
    cases digits with
    | nil => cases hexes
    | cons digit digits =>
      rw [List.map_cons, List.map_cons, List.cons.injEq] at hexes
      cases raw with
      | nil =>
        rw [List.nil_append, List.cons_append, List.cons.injEq] at split
        exact absurd split.1.symm (hex_ne hexes.1).2.1
      | cons d raw =>
        rw [List.cons_append, List.cons_append, List.cons.injEq] at split
        rcases ih hexes.2 split.2 with ⟨left, same, after⟩
        exact ⟨left, by rw [split.1, same, List.cons_append], after⟩

theorem HexUnit.hexes {used : Bytes} {value : Nat} (unit : HexUnit used value) :
    ∃ digits : List Nat, used.map hexCharToInt = digits.map some := by
  rcases unit with ⟨a, b, c, d, hexes, _⟩
  exact ⟨[a, b, c, d], hexes⟩

theorem HexUnit.lt {used : Bytes} {value : Nat} (unit : HexUnit used value) : value < 0x10000 := by
  rcases unit with ⟨a, b, c, d, hexes, value⟩
  have small : ∀ digit ∈ [a, b, c, d], digit < 16 := by
    intro digit member
    have given : some digit ∈ used.map hexCharToInt := by
      rw [hexes]
      exact List.mem_map.mpr ⟨digit, member, rfl⟩
    rcases List.mem_map.mp given with ⟨mark, _, hex⟩
    exact hexCharToInt_lt hex
  have ha := small a (by simp)
  have hb := small b (by simp)
  have hc := small c (by simp)
  have hd := small d (by simp)
  omega

theorem exists_char (cp : Nat) (valid : cp.isValidChar) : ∃ c : Char, c.toNat = cp :=
  ⟨Char.ofNatAux cp valid, rfl⟩

theorem nul_ahead (raw : Bytes) {rest : Bytes} (nul : (0 : Byte) ∈ rest) : (0 : Byte) ∈ raw ++ ch '"' :: rest :=
  List.mem_append_right _ (List.mem_cons_of_mem _ nul)

theorem parseHex4_body {raw rest : Bytes} (nul : (0 : Byte) ∈ rest) (skimmed : Skimmed raw) :
    Ends (fun r => ∃ unit left, raw = unit ++ left ∧ r.2 = left ++ ch '"' :: rest ∧ Skimmed left ∧ HexUnit unit r.1)
      (parseHex4 (raw ++ ch '"' :: rest)) := by
  apply (parseHex4_reads (nul_ahead raw nul)).mono
  intro r ends
  rcases ends with ⟨unit, split, _, hex⟩
  rcases hex.hexes with ⟨digits, hexes⟩
  rcases hex_before_quote hexes split with ⟨left, same, behind⟩
  rw [same] at skimmed
  exact ⟨unit, left, same, behind, skimmed.behind_hex hexes, hex⟩

theorem lowSurrogate_ends {raw rest : Bytes} (nul : (0 : Byte) ∈ rest) (skimmed : Skimmed raw) :
    Ends (fun r => ∃ low left, raw = ascii "\\u" ++ (low ++ left) ∧ r.2 = left ++ ch '"' :: rest ∧ Skimmed left ∧
      HexUnit low r.1 ∧ 0xDC00 ≤ r.1 ∧ r.1 ≤ 0xDFFF) (lowSurrogate (raw ++ ch '"' :: rest)) := by
  apply Ensures.bind (next_ends (nul_ahead raw nul))
  intro backslash split
  by_cases isBackslash : backslash.1 = ch '\\'
  · rw [if_neg (not_not_intro isBackslash)]
    rw [isBackslash] at split
    cases raw with
    | nil =>
      rw [List.nil_append, List.cons.injEq] at split
      exact absurd split.1 (by decide)
    | cons b raw =>
      rw [List.cons_append, List.cons.injEq] at split
      rw [split.1] at skimmed
      rcases skimmed.behind_backslash with ⟨c, left, same, _, skimmed⟩
      rw [← split.2, same, List.cons_append]
      show Ends _ (if c ≠ ch 'u' then reject else _)
      by_cases isU : c = ch 'u'
      · rw [if_neg (not_not_intro isU)]
        apply Ensures.bind (parseHex4_body nul skimmed)
        intro low ends
        rcases ends with ⟨unit, left, splitUnit, behind, skimmed, hex⟩
        by_cases outside : low.1 < 0xDC00 ∨ low.1 > 0xDFFF
        · rw [if_pos outside]
          exact ends_reject
        · rw [if_neg outside]
          apply Ensures.pure
          refine ⟨unit, left, ?_, behind, skimmed, hex, by omega, by omega⟩
          rw [split.1, isU, splitUnit]
          rfl
      · rw [if_pos isU]
        exact ends_reject
  · rw [if_pos isBackslash]
    exact ends_reject

/-- What an escape gives, in front of whatever the text behind it gives. -/
def Escapes (raw rest : Bytes) (decoded behind : Bytes) : Prop :=
  ∃ left, behind = left ++ ch '"' :: rest ∧ Skimmed left ∧ left.length < raw.length ∧
    ∀ text, Chars left text → Chars (ch '\\' :: raw) (decoded ++ text)

theorem unicodeEscape_ends {raw rest : Bytes} (nul : (0 : Byte) ∈ rest) (skimmed : Skimmed raw) :
    Ends (fun r => Escapes (ch 'u' :: raw) rest (utf8Encode r.1) r.2) (unicodeEscape (raw ++ ch '"' :: rest)) := by
  apply Ensures.bind (parseHex4_body nul skimmed)
  intro unit ends
  rcases ends with ⟨high, left, split, behind, skimmed, hex⟩
  by_cases surrogate : unit.1 ≥ 0xD800 ∧ unit.1 ≤ 0xDBFF
  · rw [if_pos surrogate, behind]
    apply Ensures.bind (lowSurrogate_ends nul skimmed)
    intro second ends
    rcases ends with ⟨low, left, splitLow, behind, skimmed, hexLow, least, greatest⟩
    have shifted : (unit.1 - 0xD800) <<< 10 = (unit.1 - 0xD800) * 0x400 := Nat.shiftLeft_eq _ 10
    rcases exists_char (0x10000 + (unit.1 - 0xD800) <<< 10 + (second.1 - 0xDC00))
      (Or.inr (by rw [shifted]; omega)) with ⟨c, cp⟩
    apply Ensures.pure
    refine ⟨left, behind, skimmed, ?_, ?_⟩
    · rw [split, splitLow]
      simp only [List.length_cons, List.length_append]
      omega
    intro text chars
    have hexHigh : HexUnit high (0xD800 + (c.toNat - 0x10000) / 0x400) := by
      rw [cp, shifted, show 0xD800 + (0x10000 + (unit.1 - 0xD800) * 0x400 + (second.1 - 0xDC00) - 0x10000) / 0x400 =
        unit.1 by omega]
      exact hex
    have hexSecond : HexUnit low (0xDC00 + (c.toNat - 0x10000) % 0x400) := by
      rw [cp, shifted, show 0xDC00 + (0x10000 + (unit.1 - 0xD800) * 0x400 + (second.1 - 0xDC00) - 0x10000) % 0x400 =
        second.1 by omega]
      exact hexLow
    have denoted := Chars.pair (by rw [cp, shifted]; omega) hexHigh hexSecond chars
    rw [← cp, utf8Encode_toNat, split, splitLow]
    exact denoted
  · rw [if_neg surrogate]
    by_cases lone : unit.1 ≥ 0xDC00 ∧ unit.1 ≤ 0xDFFF
    · rw [if_pos lone]
      exact ends_reject
    · rw [if_neg lone]
      by_cases zero : unit.1 = 0
      · rw [if_pos zero]
        exact ends_reject
      · rw [if_neg zero]
        apply Ensures.pure
        refine ⟨left, behind, skimmed, ?_, ?_⟩
        · rw [split]
          simp only [List.length_cons, List.length_append]
          omega
        intro text chars
        have bound := hex.lt
        rcases exists_char unit.1 (by unfold Nat.isValidChar; omega) with ⟨c, cp⟩
        rw [← cp] at hex zero
        rw [← cp, utf8Encode_toNat, split]
        exact Chars.scalar hex zero chars

theorem decodeEscape_ends {c : Byte} {raw rest : Bytes} (nul : (0 : Byte) ∈ rest) (skimmed : Skimmed raw) :
    Ends (fun r => Escapes (c :: raw) rest r.1 r.2) (decodeEscape (c :: (raw ++ ch '"' :: rest))) := by
  rw [decodeEscape, next_cons, bind_ok]
  by_cases isU : c = ch 'u'
  · rw [if_pos isU, isU]
    exact Ensures.bind (unicodeEscape_ends nul skimmed) fun cp ends => Ensures.pure ends
  · rw [if_neg isU]
    cases known : escapeValue c with
    | none => exact ends_reject
    | some value =>
      apply Ensures.pure
      exact ⟨raw, rfl, skimmed, Nat.lt_succ_self _, fun text chars => .escape known chars⟩

theorem decode_ends {raw rest : Bytes} (fuel : Nat) (enough : raw.length < fuel) (nul : (0 : Byte) ∈ rest)
    (skimmed : Skimmed raw) :
    Ends (Chars raw) (decode fuel (ch '"' :: rest).length (raw ++ ch '"' :: rest)) := by
  induction fuel generalizing raw with
  | zero => omega
  | succ fuel ih =>
    rw [decode]
    cases raw with
    | nil =>
      rw [List.nil_append, if_pos (Nat.le_refl _)]
      exact Ensures.ok .nil
    | cons c raw =>
      have ahead : ¬ (c :: raw ++ ch '"' :: rest).length ≤ (ch '"' :: rest).length := by
        simp only [List.length_append, List.length_cons]
        omega
      rw [if_neg ahead, List.cons_append, next_cons, bind_ok]
      rw [List.length_cons] at enough
      by_cases control : c < 0x20
      · rw [if_pos control]
        exact ends_reject
      · rw [if_neg control]
        by_cases backslash : c = ch '\\'
        · rw [if_neg (not_not_intro backslash)]
          rw [backslash] at skimmed
          rcases skimmed.behind_backslash with ⟨e, left, same, _, skimmed⟩
          rw [same, List.length_cons] at enough
          rw [backslash, same, List.cons_append]
          apply Ensures.bind (decodeEscape_ends nul skimmed)
          intro escape ends
          rcases ends with ⟨after, behind, skimmed, shorter, whole⟩
          rw [List.length_cons] at shorter
          rw [behind]
          apply Ensures.bind (ih (by omega) skimmed)
          intro text chars
          exact Ensures.pure (whole text chars)
        · rw [if_pos backslash]
          have quote : c ≠ ch '"' := by
            cases skimmed with
            | plain _ quote _ _ => exact quote
            | escaped _ _ => exact absurd rfl backslash
          apply Ensures.bind (ih (by omega) (skimmed.behind backslash))
          intro text chars
          exact Ensures.pure (.plain (UInt8.not_lt.mp control) quote backslash chars)

theorem parseStringRaw_reads (nul : (0 : Byte) ∈ buffer) :
    Ends (fun r => ∃ raw, buffer = raw ++ ch '"' :: r.2 ∧ (0 : Byte) ∈ r.2 ∧ Chars raw r.1) (parseStringRaw buffer) := by
  apply Ensures.bind (closingQuote_ends nul)
  intro closing ends
  rcases ends with ⟨raw, rest, split, closes, behind, skimmed⟩
  rw [closes, split]
  apply Ensures.bind (decode_ends _ (by simp only [List.length_append]; omega) behind skimmed)
  intro text chars
  exact Ensures.pure ⟨raw, rfl, behind, chars⟩

/-! ## Containers -/

section Containers

variable [Reals R] {n : Nat} {child : Bytes → Parse (Json R × Bytes)}

/-- A parser of values with white space in front and containers at most `n` deep. -/
def ReadsValue (n : Nat) (child : Bytes → Parse (Json R × Bytes)) : Prop :=
  ∀ buffer, (0 : Byte) ∈ buffer →
    Reads (fun used v => ∃ white body, used = white ++ body ∧ White white ∧ Denotes n body (.value v)) buffer (child buffer)

theorem parseItems_ends (reads : ReadsValue n child) (fuel : Nat) (items : List (Json R))
    (enough : buffer.length ≤ fuel) (nul : (0 : Byte) ∈ buffer) :
    Ends (fun r => ∃ body vs, buffer = body ++ ch ']' :: r.2 ∧ (0 : Byte) ∈ r.2 ∧ Denotes n body (.items vs) ∧
      r.1 = array (items ++ vs)) (parseItems child fuel items buffer) := by
  induction fuel generalizing buffer items with
  | zero =>
    rw [List.eq_nil_of_length_eq_zero (Nat.le_zero.mp enough)] at nul
    cases nul
  | succ fuel ih =>
    apply Ensures.bind (peek_ends nul)
    intro c _
    by_cases ended : c = 0
    · rw [if_pos ended]
      exact ends_reject
    · rw [if_neg ended]
      apply Ensures.bind (reads buffer nul)
      intro item ends
      rcases ends with ⟨used, split, behind, before, body, same, white, denotes⟩
      apply Ensures.bind (skipWhite_ends behind)
      intro rest ends
      rcases ends with ⟨after, splitAfter, behind, whiteAfter⟩
      have whole : Denotes n (before ++ (body ++ after)) (.item item.1) := .item white denotes whiteAfter
      have splitItem : buffer = (before ++ (body ++ after)) ++ rest := by
        rw [split, same, splitAfter]
        simp only [List.append_assoc]
      apply Ensures.bind (next_ends behind)
      intro mark splitMark
      rw [splitMark] at behind splitItem
      by_cases closing : mark.1 = ch ']'
      · rw [if_pos closing]
        rw [closing] at splitItem behind
        exact Ensures.pure ⟨_, [item.1], splitItem, nul_behind behind (by decide), .lastItem whole, rfl⟩
      · rw [if_neg closing]
        by_cases comma : mark.1 = ch ','
        · rw [if_neg (not_not_intro comma)]
          rw [comma] at splitItem behind
          apply Ensures.bind (skipWhite_ends (nul_behind behind (by decide)))
          intro inside ends
          rcases ends with ⟨gap, splitGap, behind, whiteGap⟩
          have shorter : inside.length ≤ fuel := by
            have count := congrArg List.length splitItem
            rw [splitGap] at count
            simp only [List.length_append, List.length_cons] at count
            omega
          apply (ih (items ++ [item.1]) shorter behind).mono
          intro r ends
          rcases ends with ⟨rest, vs, splitRest, behind, denotesRest, value⟩
          refine ⟨(before ++ (body ++ after)) ++ ch ',' :: (gap ++ rest), item.1 :: vs, ?_, behind,
            .moreItems whole (denotesRest.white_items whiteGap), ?_⟩
          · rw [splitItem, splitGap, splitRest]
            simp only [List.append_assoc, List.cons_append]
          · rw [value, List.append_assoc, List.singleton_append]
        · rw [if_pos comma]
          exact ends_reject

theorem parseStrArray_ends (reads : ReadsValue n child) (nul : (0 : Byte) ∈ buffer) :
    Reads (fun used v => Denotes (n + 1) (ch '[' :: used) (.value v)) buffer (parseStrArray child buffer) := by
  apply Ensures.bind (skipWhite_ends nul)
  intro inside ends
  rcases ends with ⟨white, split, behind, whites⟩
  apply Ensures.bind (next_ends behind)
  intro first splitFirst
  by_cases closing : first.1 = ch ']'
  · rw [if_pos closing]
    rw [splitFirst, closing] at split behind
    apply Ensures.pure
    refine ⟨white ++ [ch ']'], ?_, nul_behind behind (by decide), .noItems whites⟩
    rw [split, List.append_assoc, List.singleton_append]
  · rw [if_neg closing]
    apply (parseItems_ends reads _ [] (Nat.le_refl _) behind).mono
    intro r ends
    rcases ends with ⟨body, vs, splitBody, behind, denotes, value⟩
    refine ⟨(white ++ body) ++ [ch ']'], ?_, behind, ?_⟩
    · rw [split, splitBody, List.append_assoc, List.append_assoc, List.singleton_append]
    · rw [value, List.nil_append]
      exact .array (denotes.white_items whites)

theorem parsePair_ends (reads : ReadsValue n child) (nul : (0 : Byte) ∈ buffer) :
    Ends (fun r => ∃ used, buffer = used ++ r.2 ∧ (0 : Byte) ∈ r.2 ∧
      ∀ after, White after → Denotes n (used ++ after) (.member r.1)) (parsePair child buffer) := by
  apply Ensures.bind (next_ends nul)
  intro quote split
  by_cases isQuote : quote.1 = ch '"'
  · rw [if_neg (not_not_intro isQuote)]
    rw [isQuote] at split
    rw [split] at nul
    apply Ensures.bind (parseStringRaw_reads (nul_behind nul (by decide)))
    intro key ends
    rcases ends with ⟨raw, splitKey, behind, chars⟩
    apply Ensures.bind (skipWhite_ends behind)
    intro rest ends
    rcases ends with ⟨white, splitWhite, behind, whites⟩
    apply Ensures.bind (next_ends behind)
    intro colon splitColon
    by_cases isColon : colon.1 = ch ':'
    · rw [if_neg (not_not_intro isColon)]
      rw [isColon] at splitColon
      rw [splitColon] at behind
      apply Ensures.bind (skipWhite_ends (nul_behind behind (by decide)))
      intro inside ends
      rcases ends with ⟨gap, splitGap, behind, whiteGap⟩
      apply Ensures.bind (reads inside behind)
      intro value ends
      rcases ends with ⟨used, splitUsed, behind, before, body, same, whiteBefore, denotes⟩
      apply Ensures.pure
      refine ⟨ch '"' :: (raw ++ (ch '"' :: (white ++ ch ':' :: (gap ++ (before ++ body))))), ?_, behind, ?_⟩
      · rw [split, splitKey, splitWhite, splitColon, splitGap, splitUsed, same]
        simp only [List.append_assoc, List.cons_append]
      · intro after whiteAfter
        have item : Denotes n ((gap ++ before) ++ (body ++ after)) (.item value.1) :=
          .item (whiteGap.append whiteBefore) denotes whiteAfter
        have member := Denotes.member White.nil chars whites item
        simp only [List.nil_append, List.append_assoc, List.cons_append] at member ⊢
        exact member
    · rw [if_pos isColon]
      exact ends_reject
  · rw [if_pos isQuote]
    exact ends_reject

theorem parseMembers_ends (reads : ReadsValue n child) (fuel : Nat) (entries : List (Bytes × Json R))
    (enough : buffer.length ≤ fuel) (nul : (0 : Byte) ∈ buffer) :
    Ends (fun r => ∃ body pairs, buffer = body ++ ch '}' :: r.2 ∧ (0 : Byte) ∈ r.2 ∧ Denotes n body (.members pairs) ∧
      r.1 = object (pairs.foldl (fun kept entry => OrderedMap.set kept entry.1 entry.2) entries))
      (parseMembers child fuel entries buffer) := by
  induction fuel generalizing buffer entries with
  | zero =>
    rw [List.eq_nil_of_length_eq_zero (Nat.le_zero.mp enough)] at nul
    cases nul
  | succ fuel ih =>
    apply Ensures.bind (peek_ends nul)
    intro c _
    by_cases ended : c = 0
    · rw [if_pos ended]
      exact ends_reject
    · rw [if_neg ended]
      apply Ensures.bind (parsePair_ends reads nul)
      intro pair ends
      rcases ends with ⟨used, split, behind, denotes⟩
      apply Ensures.bind (skipWhite_ends behind)
      intro rest ends
      rcases ends with ⟨after, splitAfter, behind, whiteAfter⟩
      have splitPair : buffer = (used ++ after) ++ rest := by
        rw [split, splitAfter, List.append_assoc]
      apply Ensures.bind (next_ends behind)
      intro mark splitMark
      rw [splitMark] at behind splitPair
      by_cases closing : mark.1 = ch '}'
      · rw [if_pos closing]
        rw [closing] at splitPair behind
        exact Ensures.pure ⟨_, [pair.1], splitPair, nul_behind behind (by decide),
          .lastMember (denotes after whiteAfter), rfl⟩
      · rw [if_neg closing]
        by_cases comma : mark.1 = ch ','
        · rw [if_neg (not_not_intro comma)]
          rw [comma] at splitPair behind
          apply Ensures.bind (skipWhite_ends (nul_behind behind (by decide)))
          intro inside ends
          rcases ends with ⟨gap, splitGap, behind, whiteGap⟩
          have shorter : inside.length ≤ fuel := by
            have count := congrArg List.length splitPair
            rw [splitGap] at count
            simp only [List.length_append, List.length_cons] at count
            omega
          apply (ih _ shorter behind).mono
          intro r ends
          rcases ends with ⟨rest, pairs, splitRest, behind, denotesRest, value⟩
          refine ⟨(used ++ after) ++ ch ',' :: (gap ++ rest), pair.1 :: pairs, ?_, behind,
            .moreMembers (denotes after whiteAfter) (denotesRest.white_members whiteGap), value⟩
          rw [splitPair, splitGap, splitRest]
          simp only [List.append_assoc, List.cons_append]
        · rw [if_pos comma]
          exact ends_reject

theorem parseStrObject_ends (reads : ReadsValue n child) (nul : (0 : Byte) ∈ buffer) :
    Reads (fun used v => Denotes (n + 1) (ch '{' :: used) (.value v)) buffer (parseStrObject child buffer) := by
  apply Ensures.bind (skipWhite_ends nul)
  intro inside ends
  rcases ends with ⟨white, split, behind, whites⟩
  apply Ensures.bind (next_ends behind)
  intro first splitFirst
  by_cases closing : first.1 = ch '}'
  · rw [if_pos closing]
    rw [splitFirst, closing] at split behind
    apply Ensures.pure
    refine ⟨white ++ [ch '}'], ?_, nul_behind behind (by decide), .noMembers whites⟩
    rw [split, List.append_assoc, List.singleton_append]
  · rw [if_neg closing]
    apply (parseMembers_ends reads _ [] (Nat.le_refl _) behind).mono
    intro r ends
    rcases ends with ⟨body, pairs, splitBody, behind, denotes, value⟩
    refine ⟨(white ++ body) ++ [ch '}'], ?_, behind, ?_⟩
    · rw [split, splitBody, List.append_assoc, List.append_assoc, List.singleton_append]
    · rw [value, OrderedMap.foldl_set_eq_collapse]
      exact .object (denotes.white_members whites)

end Containers

section Values

variable [Reals R]

theorem parseStrText_reads (n : Nat) (nul : (0 : Byte) ∈ buffer) :
    Reads (fun used v => Denotes n (ch '"' :: used) (.value v)) buffer (parseStrText buffer : Parse (Json R × Bytes)) := by
  apply Ensures.bind (parseStringRaw_reads nul)
  intro raw ends
  rcases ends with ⟨body, split, behind, chars⟩
  refine Ensures.pure ⟨body ++ [ch '"'], ?_, behind, .text chars⟩
  rw [split, List.append_assoc, List.singleton_append]

theorem parseSwitch_reads {n : Nat} {objects arrays : Bytes → Parse (Json R × Bytes)}
    (objectReads : ∀ buffer, (0 : Byte) ∈ buffer →
      Reads (fun used v => Denotes n (ch '{' :: used) (.value v)) buffer (objects buffer))
    (arrayReads : ∀ buffer, (0 : Byte) ∈ buffer →
      Reads (fun used v => Denotes n (ch '[' :: used) (.value v)) buffer (arrays buffer)) :
    ReadsValue n (parseSwitch objects arrays) := by
  intro buffer nul
  apply Ensures.bind (skipWhite_ends nul)
  intro inside ends
  rcases ends with ⟨white, split, behind, whites⟩
  -- a value behind the white space is what is read
  have reads : ∀ {x : Parse (Json R × Bytes)}, Reads (fun used v => Denotes n used (.value v)) inside x →
      Reads (fun used v => ∃ white body, used = white ++ body ∧ White white ∧ Denotes n body (.value v)) buffer x := by
    intro x ends
    apply ends.mono
    intro r ends
    rcases ends with ⟨used, splitUsed, behind, denotes⟩
    exact ⟨white ++ used, by rw [split, splitUsed, List.append_assoc], behind, white, used, rfl, whites, denotes⟩
  have marked : ∀ {x : Parse (Json R × Bytes)} {c : Byte} {rest : Bytes}, inside = c :: rest →
      Reads (fun used v => Denotes n (c :: used) (.value v)) rest x →
      Reads (fun used v => Denotes n used (.value v)) inside x := by
    intro x c rest first ends
    apply ends.mono
    intro r ends
    rcases ends with ⟨used, splitUsed, behind, denotes⟩
    exact ⟨c :: used, by rw [first, splitUsed, List.cons_append], behind, denotes⟩
  have word : ∀ (w : Bytes) (v : Json R), (0 : Byte) ∉ w → Denotes n w (.value v) →
      Reads (fun used v => Denotes n used (.value v)) inside (scanWord w inside >>= fun rest => pure (v, rest)) := by
    intro w v clean denotes
    apply Ensures.bind (scanWord_ends w clean behind)
    intro rest ends
    exact Ensures.pure ⟨w, ends.1, ends.2, denotes⟩
  apply Ensures.bind (next_ends behind)
  intro first splitFirst
  apply reads
  by_cases isObject : first.1 = ch '{'
  · rw [if_pos isObject]
    rw [isObject] at splitFirst
    rw [splitFirst] at behind
    exact marked splitFirst (objectReads _ (nul_behind behind (by decide)))
  rw [if_neg isObject]
  by_cases isArray : first.1 = ch '['
  · rw [if_pos isArray]
    rw [isArray] at splitFirst
    rw [splitFirst] at behind
    exact marked splitFirst (arrayReads _ (nul_behind behind (by decide)))
  rw [if_neg isArray]
  by_cases isNull : first.1 = ch 'n'
  · rw [if_pos isNull]
    exact word _ _ (by decide) .nullWord
  rw [if_neg isNull]
  by_cases isTrue : first.1 = ch 't'
  · rw [if_pos isTrue]
    exact word _ _ (by decide) .trueWord
  rw [if_neg isTrue]
  by_cases isFalse : first.1 = ch 'f'
  · rw [if_pos isFalse]
    exact word _ _ (by decide) .falseWord
  rw [if_neg isFalse]
  by_cases isText : first.1 = ch '"'
  · rw [if_pos isText]
    rw [isText] at splitFirst
    rw [splitFirst] at behind
    exact marked splitFirst (parseStrText_reads n (nul_behind behind (by decide)))
  rw [if_neg isText]
  by_cases isNumber : isDigit first.1 = true
  · rw [if_pos isNumber]
    exact parseStrNumber_reads behind n
  rw [if_neg isNumber]
  by_cases isMinus : first.1 = ch '-'
  · rw [if_pos isMinus]
    rw [isMinus] at splitFirst
    rw [splitFirst] at behind
    apply Ensures.bind (peek_ends (nul_behind behind (by decide)))
    intro c _
    by_cases digit : isDigit c = true
    · rw [if_pos digit]
      exact parseStrNumber_reads (splitFirst ▸ behind) n
    · rw [if_neg digit]
      exact ends_reject
  · rw [if_neg isMinus]
    exact ends_reject

theorem parsePartial_reads (levels : Nat) : ReadsValue levels (parsePartial (R := R) levels) := by
  induction levels with
  | zero => exact parseSwitch_reads (fun _ _ => ends_reject) (fun _ _ => ends_reject)
  | succ levels ih =>
    exact parseSwitch_reads (fun _ nul => parseStrObject_ends ih nul) (fun _ nul => parseStrArray_ends ih nul)

theorem parse_ends (nul : (0 : Byte) ∈ buffer) :
    Ends (fun v => ∃ used rest, buffer = used ++ 0 :: rest ∧ IsText used v) (parse (R := R) buffer) := by
  apply Ensures.bind (parsePartial_reads maxDepth buffer nul)
  intro parsed ends
  rcases ends with ⟨used, split, behind, white, body, same, whites, denotes⟩
  apply Ensures.bind (skipWhite_ends behind)
  intro rest ends
  rcases ends with ⟨after, splitAfter, behind, whiteAfter⟩
  apply Ensures.bind (peek_ends behind)
  intro c ends
  rcases ends with ⟨left, splitRest⟩
  by_cases ended : c = 0
  · rw [if_neg (not_not_intro ended)]
    refine Ensures.pure ⟨white ++ (body ++ after), left, ?_, .item whites denotes whiteAfter⟩
    rw [split, same, splitAfter, splitRest, ended]
    simp only [List.append_assoc]
  · rw [if_pos ended]
    exact ends_reject

end Values

end BlueBird.Json
