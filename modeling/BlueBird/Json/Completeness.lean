import BlueBird.Json.Soundness

/-! Every text of the grammar is accepted, with the value that it stands for. -/

namespace BlueBird.Json

open Outcome

variable {R : Type}

theorem skipWhite_white {white rest : Bytes} {c : Byte} (whites : White white) (other : whiteSpace c = false) :
    skipWhite (white ++ c :: rest) = .ok (c :: rest) := by
  induction white with
  | nil =>
    rw [List.nil_append, skipWhite, if_neg (by rw [other]; decide)]
  | cons w white ih =>
    rw [List.cons_append, skipWhite, if_pos (whites w (List.mem_cons_self ..))]
    exact ih fun d member => whites d (List.mem_cons_of_mem _ member)

theorem scanWord_word (word rest : Bytes) : scanWord word (word ++ rest) = .ok rest := by
  induction word with
  | nil => rfl
  | cons c word ih =>
    rw [List.cons_append, scanWord, next_cons, bind_ok, if_pos rfl]
    exact ih

/-! ## Numbers -/

def NumberEnd (c : Byte) : Prop := isDigit c = false ∧ c ∉ ascii ".eE"

theorem scanDigits_digits {digits rest : Bytes} {c : Byte} (all : ∀ d ∈ digits, isDigit d)
    (ended : isDigit c = false) : scanDigits (digits ++ c :: rest) = .ok (digits, c :: rest) := by
  induction digits with
  | nil => rw [List.nil_append, scanDigits, if_neg (by rw [ended]; decide)]
  | cons d digits ih =>
    rw [List.cons_append, scanDigits, if_pos (all d (List.mem_cons_self ..)),
      ih fun e member => all e (List.mem_cons_of_mem _ member)]
    rfl

theorem scanSomeDigits_digits {digits rest : Bytes} {c : Byte} (some : Digits digits) (ended : isDigit c = false) :
    scanSomeDigits (digits ++ c :: rest) = .ok (digits, c :: rest) := by
  rcases some with ⟨nonempty, all⟩
  cases digits with
  | nil => exact absurd rfl nonempty
  | cons d digits =>
    show (if isDigit d = true then scanDigits (d :: digits ++ c :: rest) else reject) = _
    rw [if_pos (all d (List.mem_cons_self ..))]
    exact scanDigits_digits all ended

theorem scanMark_there {marks rest : Bytes} {c : Byte} (member : c ∈ marks) :
    scanMark marks (c :: rest) = .ok ([c], rest) := by
  rw [scanMark, next_cons, bind_ok, if_pos member]
  rfl

theorem scanMark_absent {marks rest : Bytes} {c : Byte} (other : c ∉ marks) :
    scanMark marks (c :: rest) = .ok ([], c :: rest) := by
  rw [scanMark, next_cons, bind_ok, if_neg other]
  rfl

theorem range_of_isDigit {c : Byte} (digit : isDigit c = true) (nonzero : c ≠ ch '0') : ch '1' ≤ c ∧ c ≤ ch '9' := by
  unfold isDigit at digit
  rw [decide_eq_true_eq] at digit
  refine ⟨?_, digit.2⟩
  have least : 48 ≤ c.toNat := digit.1
  have other : c.toNat ≠ 48 := fun same => nonzero (UInt8.toNat_inj.mp same)
  show 49 ≤ c.toNat
  omega

theorem scanWhole_whole {whole rest : Bytes} {c : Byte} (hw : Whole whole) (ended : isDigit c = false) :
    scanWhole (whole ++ c :: rest) = .ok (whole, c :: rest) := by
  rcases hw with zero | ⟨⟨nonempty, all⟩, leading⟩
  · rw [zero]
    show (if isDigit c = true then reject else _) = _
    rw [if_neg (by rw [ended]; decide)]
    rfl
  · cases whole with
    | nil => exact absurd rfl nonempty
    | cons d whole =>
      have nonzero : d ≠ ch '0' := by
        intro same
        rw [same] at leading
        exact leading rfl
      rw [List.cons_append, scanWhole, next_cons, bind_ok, if_neg nonzero,
        if_pos (range_of_isDigit (all d (List.mem_cons_self ..)) nonzero)]
      exact scanDigits_digits all ended

theorem scanFraction_fraction {fraction rest : Bytes} {c : Byte} (hf : Fraction fraction) (ended : isDigit c = false)
    (noPoint : c ≠ ch '.') : scanFraction (fraction ++ c :: rest) = .ok (fraction, c :: rest) := by
  rcases hf with rfl | ⟨digits, some, rfl⟩
  · have other : c ∉ ascii "." := fun member => noPoint (List.mem_singleton.mp member)
    rw [List.nil_append, scanFraction, scanMark_absent other]
    rfl
  · rw [List.append_assoc]
    show scanFraction (ch '.' :: (digits ++ c :: rest)) = _
    rw [scanFraction, scanMark_there (by decide), bind_ok, if_neg (by simp), scanSomeDigits_digits some ended]
    rfl

theorem scanExponent_exponent {exponent rest : Bytes} {c : Byte} (he : Exponent exponent) (ended : NumberEnd c) :
    scanExponent (exponent ++ c :: rest) = .ok (exponent, c :: rest) := by
  rcases he with rfl | ⟨mark, sign, digits, member, signed, some, rfl⟩
  · have other : c ∉ ascii "eE" := fun member => ended.2 (List.mem_cons_of_mem _ member)
    rw [List.nil_append, scanExponent, scanMark_absent other]
    rfl
  · have scanned : scanMark (ascii "+-") (sign ++ (digits ++ c :: rest)) = .ok (sign, digits ++ c :: rest) := by
      rcases signed with rfl | ⟨s, known, rfl⟩
      · rcases some with ⟨nonempty, all⟩
        cases digits with
        | nil => exact absurd rfl nonempty
        | cons d digits =>
          apply scanMark_absent
          intro sign
          have digit := all d (List.mem_cons_self ..)
          revert digit
          rcases List.mem_cons.mp sign with rfl | sign
          · decide
          · rw [List.mem_singleton.mp sign]
            decide
      · exact scanMark_there known
    rw [List.cons_append, List.cons_append, List.append_assoc, scanExponent, scanMark_there member, bind_ok,
      if_neg (by simp), scanned, bind_ok, scanSomeDigits_digits some ended.1]
    rfl

theorem exponent_head {exponent rest : Bytes} {c : Byte} (he : Exponent exponent) (ended : NumberEnd c) :
    ∃ d tail, exponent ++ c :: rest = d :: tail ∧ isDigit d = false ∧ d ≠ ch '.' := by
  rcases he with rfl | ⟨mark, sign, digits, member, _, _, rfl⟩
  · exact ⟨c, rest, rfl, ended.1, fun point => ended.2 (by rw [point]; decide)⟩
  · refine ⟨mark, sign ++ digits ++ c :: rest, rfl, ?_⟩
    rcases List.mem_cons.mp member with rfl | member
    · decide
    · rw [List.mem_singleton.mp member]
      decide

theorem fraction_head {fraction tail : Bytes} {d : Byte} (hf : Fraction fraction) (noDigit : isDigit d = false) :
    ∃ e more, fraction ++ d :: tail = e :: more ∧ isDigit e = false := by
  rcases hf with rfl | ⟨digits, _, rfl⟩
  · exact ⟨d, tail, rfl, noDigit⟩
  · exact ⟨ch '.', digits ++ d :: tail, rfl, by decide⟩

theorem scanMinus_minus {minus whole tail : Bytes} (hm : Minus minus) (hw : Whole whole) :
    scanMark (ascii "-") (minus ++ (whole ++ tail)) = .ok (minus, whole ++ tail) := by
  rcases hm with rfl | rfl
  · cases whole with
    | nil =>
      rcases hw with zero | ⟨⟨nonempty, _⟩, _⟩
      · exact absurd zero (by decide)
      · exact absurd rfl nonempty
    | cons d whole =>
      apply scanMark_absent
      intro minus
      exact whole_head hw (congrArg some (List.mem_singleton.mp minus))
  · exact scanMark_there (by decide)

section Numbers

variable [Reals R] {minus whole fraction exponent rest : Bytes} {c : Byte}

theorem parseStrNumber_token (hm : Minus minus) (hw : Whole whole) (hf : Fraction fraction) (he : Exponent exponent)
    (ended : NumberEnd c) :
    (parseStrNumber (minus ++ whole ++ fraction ++ exponent ++ c :: rest) : Parse (Json R × Bytes)) =
      numberOf (fraction ≠ [] ∨ exponent ≠ []) (minus ++ whole ++ fraction ++ exponent) >>= fun v =>
        pure (v, c :: rest) := by
  rcases @exponent_head exponent rest c he ended with ⟨d, tail, split, noDigit, noPoint⟩
  rcases @fraction_head fraction tail d hf noDigit with ⟨e, more, splitMore, noMore⟩
  have grouped : minus ++ whole ++ fraction ++ exponent ++ c :: rest =
      minus ++ (whole ++ (fraction ++ (exponent ++ c :: rest))) := by simp only [List.append_assoc]
  have scannedWhole : scanWhole (whole ++ (fraction ++ (exponent ++ c :: rest))) =
      .ok (whole, fraction ++ (exponent ++ c :: rest)) := by
    rw [split, splitMore]
    exact scanWhole_whole hw noMore
  have scannedFraction : scanFraction (fraction ++ (exponent ++ c :: rest)) =
      .ok (fraction, exponent ++ c :: rest) := by
    rw [split]
    exact scanFraction_fraction hf noDigit noPoint
  rw [parseStrNumber, grouped, scanMinus_minus hm hw, bind_ok, scannedWhole, bind_ok, scannedFraction, bind_ok,
    scanExponent_exponent he ended, bind_ok]

theorem parseStrNumber_int (hm : Minus minus) (hw : Whole whole) (least : -2^31 ≤ integerValue minus whole)
    (greatest : integerValue minus whole < 2^31) (ended : NumberEnd c) :
    (parseStrNumber (minus ++ whole ++ c :: rest) : Parse (Json R × Bytes)) =
      .ok (int (Int32.ofInt (integerValue minus whole)), c :: rest) := by
  have token := @parseStrNumber_token R _ minus whole [] [] rest c hm hw (.inl rfl) (.inl rfl) ended
  simp only [List.append_nil] at token
  have kind : decide (([] : Bytes) ≠ [] ∨ ([] : Bytes) ≠ []) = false := by decide
  rw [token, kind, numberOf_false, integerOf_token hm hw, if_pos ⟨least, greatest⟩]
  rfl

theorem parseStrNumber_real (numbers : ReadsNumbers R) (hm : Minus minus) (hw : Whole whole)
    (hf : Fraction fraction) (he : Exponent exponent) (isReal : ¬ (fraction = [] ∧ exponent = []))
    (finite : ¬ Reals.infinite (Reals.strtof (R := R) (minus ++ whole ++ fraction ++ exponent)).1)
    (ended : NumberEnd c) :
    (parseStrNumber (minus ++ whole ++ fraction ++ exponent ++ c :: rest) : Parse (Json R × Bytes)) =
      .ok (real (Reals.strtof (minus ++ whole ++ fraction ++ exponent)).1, c :: rest) := by
  have kind : decide (fraction ≠ [] ∨ exponent ≠ []) = true := decide_eq_true (not_and_or.mp isReal)
  rw [parseStrNumber_token hm hw hf he ended, kind, numberOf_true, realOf,
    if_neg (not_or.mpr ⟨not_not_intro (numbers _ _ _ _ hm hw hf he), finite⟩)]
  rfl

end Numbers

/-! ## Texts -/

theorem parseHex_run {k value result : Nat} {used : Bytes} (run : HexRun k value used result) (rest : Bytes) :
    parseHex k value (used ++ rest) = .ok (result, rest) := by
  induction k generalizing value used with
  | zero =>
    rcases run with ⟨digits, hexes, count, same⟩
    rw [List.eq_nil_of_length_eq_zero count] at hexes same
    rw [List.map_eq_nil_iff.mp hexes, same]
    rfl
  | succ k ih =>
    rcases run with ⟨digits, hexes, count, same⟩
    cases digits with
    | nil => cases count
    | cons digit digits =>
      cases used with
      | nil => cases hexes
      | cons c used =>
        rw [List.map_cons, List.map_cons, List.cons.injEq] at hexes
        rw [List.foldl_cons, ← shift_or _ (hexCharToInt_lt hexes.1)] at same
        rw [List.cons_append, parseHex, next_cons, bind_ok]
        simp only [hexes.1]
        exact ih ⟨digits, hexes.2, Nat.succ.inj count, same⟩

theorem parseHex4_unit {unit : Bytes} {value : Nat} (hex : HexUnit unit value) (rest : Bytes) :
    parseHex4 (unit ++ rest) = .ok (value, rest) :=
  parseHex_run (hexRun_four.mpr hex) rest

theorem Skimmed.hex_append {used raw : Bytes} {digits : List Nat} (hexes : used.map hexCharToInt = digits.map some)
    (skimmed : Skimmed raw) : Skimmed (used ++ raw) := by
  induction used generalizing digits with
  | nil => exact skimmed
  | cons c used ih =>
    cases digits with
    | nil => cases hexes
    | cons digit digits =>
      rw [List.map_cons, List.map_cons, List.cons.injEq] at hexes
      rcases hex_ne hexes.1 with ⟨nonzero, quote, backslash⟩
      exact .plain nonzero quote backslash (ih hexes.2)

theorem Chars.skimmed {raw text : Bytes} (chars : Chars raw text) : Skimmed raw := by
  induction chars with
  | nil => exact .nil
  | plain printable quote backslash _ ih =>
    refine .plain ?_ quote backslash ih
    intro zero
    rw [zero] at printable
    exact absurd printable (by decide)
  | @escape mark c _ _ known _ ih =>
    refine .escaped ?_ ih
    intro zero
    have unknown : escapeValue 0 = none := by decide
    rw [zero, unknown] at known
    cases known
  | @scalar unit raw _ _ hex _ _ ih =>
    rcases hex.hexes with ⟨digits, hexes⟩
    show Skimmed (ch '\\' :: ch 'u' :: (unit ++ raw))
    exact .escaped (by decide) (ih.hex_append hexes)
  | @pair high low raw _ _ _ hexHigh hexLow _ ih =>
    rcases hexHigh.hexes with ⟨digitsHigh, hexesHigh⟩
    rcases hexLow.hexes with ⟨digitsLow, hexesLow⟩
    have second : Skimmed (ch '\\' :: ch 'u' :: (low ++ raw)) := .escaped (by decide) (ih.hex_append hexesLow)
    show Skimmed (ch '\\' :: ch 'u' :: (high ++ (ch '\\' :: ch 'u' :: (low ++ raw))))
    exact .escaped (by decide) (second.hex_append hexesHigh)

theorem closingQuote_skimmed {raw : Bytes} (skimmed : Skimmed raw) (rest : Bytes) :
    closingQuote (raw ++ ch '"' :: rest) = .ok (ch '"' :: rest) := by
  induction skimmed with
  | nil => exact closingQuote_quote rest
  | plain nonzero quote backslash _ ih =>
    rw [List.cons_append, closingQuote_plain nonzero quote backslash]
    exact ih
  | escaped nonzero _ ih =>
    rw [List.cons_append, List.cons_append, closingQuote_escaped nonzero]
    exact ih

theorem lowSurrogate_low {low : Bytes} {value : Nat} (hex : HexUnit low value) (least : 0xDC00 ≤ value)
    (greatest : value ≤ 0xDFFF) (rest : Bytes) :
    lowSurrogate (ascii "\\u" ++ (low ++ rest)) = .ok (value, rest) := by
  show lowSurrogate (ch '\\' :: ch 'u' :: (low ++ rest)) = _
  rw [lowSurrogate, next_cons, bind_ok, if_neg (not_not_intro rfl), next_cons, bind_ok,
    if_neg (not_not_intro rfl), parseHex4_unit hex, bind_ok, if_neg (by omega)]
  rfl

theorem char_surrogate (c : Char) : ¬ (0xD800 ≤ c.toNat ∧ c.toNat ≤ 0xDFFF) := by
  have valid : c.toNat.isValidChar := c.valid
  unfold Nat.isValidChar at valid
  omega

theorem unicodeEscape_scalar {unit : Bytes} {c : Char} (hex : HexUnit unit c.toNat) (nonzero : c.toNat ≠ 0)
    (rest : Bytes) : unicodeEscape (unit ++ rest) = .ok (c.toNat, rest) := by
  have plane := char_surrogate c
  rw [unicodeEscape, parseHex4_unit hex, bind_ok, if_neg (by omega), if_neg (by omega), if_neg nonzero]
  rfl

theorem unicodeEscape_pair {high low : Bytes} {c : Char} (astral : 0x10000 ≤ c.toNat)
    (hexHigh : HexUnit high (0xD800 + (c.toNat - 0x10000) / 0x400))
    (hexLow : HexUnit low (0xDC00 + (c.toNat - 0x10000) % 0x400)) (rest : Bytes) :
    unicodeEscape (high ++ (ascii "\\u" ++ (low ++ rest))) = .ok (c.toNat, rest) := by
  have bound := char_bound c
  rw [unicodeEscape, parseHex4_unit hexHigh, bind_ok, if_pos (by omega),
    lowSurrogate_low hexLow (by omega) (by omega), bind_ok]
  have value : 0x10000 + (0xD800 + (c.toNat - 0x10000) / 0x400 - 0xD800) <<< 10 +
      (0xDC00 + (c.toNat - 0x10000) % 0x400 - 0xDC00) = c.toNat := by
    rw [Nat.shiftLeft_eq]
    omega
  dsimp only
  rw [value]
  rfl

theorem decode_chars {raw text : Bytes} (chars : Chars raw text) (rest : Bytes) (fuel : Nat)
    (enough : raw.length < fuel) :
    decode fuel (ch '"' :: rest).length (raw ++ ch '"' :: rest) = .ok text := by
  have ahead : ∀ (c : Byte) (more : Bytes), ¬ (c :: (more ++ ch '"' :: rest)).length ≤ (ch '"' :: rest).length := by
    intro c more
    simp only [List.length_append, List.length_cons]
    omega
  -- an escape in front, from what it decodes to
  have escaped : ∀ (fuel : Nat) (body more decoded text : Bytes),
      decodeEscape (body ++ (more ++ ch '"' :: rest)) = .ok (decoded, more ++ ch '"' :: rest) →
      decode fuel (ch '"' :: rest).length (more ++ ch '"' :: rest) = .ok text →
      decode (fuel + 1) (ch '"' :: rest).length (ch '\\' :: (body ++ more) ++ ch '"' :: rest) =
        .ok (decoded ++ text) := by
    intro fuel body more decoded text escape behind
    have printable : ¬ ch '\\' < 0x20 := by decide
    rw [List.cons_append, List.append_assoc, decode, ← List.append_assoc, if_neg (ahead _ _), next_cons, bind_ok,
      if_neg printable, if_neg (not_not_intro rfl), List.append_assoc, escape, bind_ok, behind]
    rfl
  induction chars generalizing fuel with
  | nil =>
    cases fuel with
    | zero => exact absurd enough (Nat.not_lt_zero _)
    | succ fuel => rw [List.nil_append, decode, if_pos (Nat.le_refl _)]
  | @plain c raw text printable quote backslash chars ih =>
    cases fuel with
    | zero => exact absurd enough (Nat.not_lt_zero _)
    | succ fuel =>
      rw [List.length_cons] at enough
      rw [List.cons_append, decode, if_neg (ahead _ _), next_cons, bind_ok, if_neg (UInt8.not_lt.mpr printable),
        if_pos backslash, ih fuel (by omega)]
      rfl
  | @escape mark c raw text known chars ih =>
    cases fuel with
    | zero => exact absurd enough (Nat.not_lt_zero _)
    | succ fuel =>
      rw [List.length_cons, List.length_cons] at enough
      have notU : mark ≠ ch 'u' := by
        intro same
        have unknown : escapeValue (ch 'u') = none := by decide
        rw [same, unknown] at known
        cases known
      apply escaped fuel [mark] raw [c] text _ (ih fuel (by omega))
      rw [List.singleton_append, decodeEscape, next_cons, bind_ok, if_neg notU]
      simp only [known]
      rfl
  | @scalar unit raw text c hex nonzero chars ih =>
    cases fuel with
    | zero => exact absurd enough (Nat.not_lt_zero _)
    | succ fuel =>
      have two : (ascii "\\u").length = 2 := rfl
      rw [List.length_append, List.length_append, two] at enough
      apply escaped fuel (ch 'u' :: unit) raw _ text _ (ih fuel (by omega))
      rw [List.cons_append, decodeEscape, next_cons, bind_ok, if_pos rfl, unicodeEscape_scalar hex nonzero, bind_ok,
        utf8Encode_toNat]
      rfl
  | @pair high low raw text c astral hexHigh hexLow chars ih =>
    cases fuel with
    | zero => exact absurd enough (Nat.not_lt_zero _)
    | succ fuel =>
      have two : (ascii "\\u").length = 2 := rfl
      simp only [List.length_append, two] at enough
      have grouped : ascii "\\u" ++ (high ++ (ascii "\\u" ++ (low ++ raw))) =
          ch '\\' :: ((ch 'u' :: (high ++ (ascii "\\u" ++ low))) ++ raw) := by
        simp only [List.cons_append, List.append_assoc]
        rfl
      rw [grouped]
      apply escaped fuel _ raw _ text _ (ih fuel (by omega))
      rw [List.cons_append, decodeEscape, next_cons, bind_ok, if_pos rfl, List.append_assoc, List.append_assoc,
        unicodeEscape_pair astral hexHigh hexLow, bind_ok, utf8Encode_toNat]
      rfl

theorem parseStringRaw_chars {raw text : Bytes} (chars : Chars raw text) (rest : Bytes) :
    parseStringRaw (raw ++ ch '"' :: rest) = .ok (text, rest) := by
  rw [parseStringRaw, closingQuote_skimmed chars.skimmed, bind_ok,
    decode_chars chars rest _ (by simp only [List.length_append]; omega)]
  rfl

/-! ## Values -/

def Starts (c : Byte) : Prop := whiteSpace c = false ∧ c ≠ 0 ∧ c ≠ ch ']' ∧ c ≠ ch '}'

def Closes (c : Byte) : Prop := NumberEnd c ∧ whiteSpace c = false

theorem closes_comma : Closes (ch ',') := ⟨⟨by decide, by decide⟩, by decide⟩

theorem closes_bracket : Closes (ch ']') := ⟨⟨by decide, by decide⟩, by decide⟩

theorem closes_brace : Closes (ch '}') := ⟨⟨by decide, by decide⟩, by decide⟩

theorem closes_nul : Closes 0 := ⟨⟨by decide, by decide⟩, by decide⟩

theorem whiteSpace_cases {c : Byte} (white : whiteSpace c = true) :
    c = ch ' ' ∨ c = ch '\t' ∨ c = ch '\n' ∨ c = ch '\r' := by
  unfold whiteSpace at white
  simp only [Bool.or_eq_true, beq_iff_eq] at white
  tauto

theorem whiteSpace_end {c : Byte} (white : whiteSpace c = true) : NumberEnd c := by
  rcases whiteSpace_cases white with rfl | rfl | rfl | rfl <;> exact ⟨by decide, by decide⟩

theorem digit_starts {c : Byte} (digit : isDigit c = true) : Starts c := by
  have other : ∀ d : Byte, isDigit d = false → c ≠ d := by
    intro d noDigit same
    rw [same, noDigit] at digit
    cases digit
  refine ⟨?_, other 0 (by decide), other _ (by decide), other _ (by decide)⟩
  cases white : whiteSpace c with
  | false => rfl
  | true =>
    rcases whiteSpace_cases white with same | same | same | same
    · exact absurd same (other _ (by decide))
    · exact absurd same (other _ (by decide))
    · exact absurd same (other _ (by decide))
    · exact absurd same (other _ (by decide))

theorem number_start {minus whole : Bytes} (hm : Minus minus) (hw : Whole whole) :
    ∃ c rest, minus ++ whole = c :: rest ∧ Starts c ∧
      (isDigit c = true ∨ c = ch '-' ∧ ∃ d more, rest = d :: more ∧ isDigit d = true) := by
  have digits : ∃ d more, whole = d :: more ∧ isDigit d = true := by
    rcases hw with rfl | ⟨⟨nonempty, all⟩, _⟩
    · exact ⟨ch '0', [], rfl, by decide⟩
    · cases whole with
      | nil => exact absurd rfl nonempty
      | cons d more => exact ⟨d, more, rfl, all d (List.mem_cons_self ..)⟩
  rcases digits with ⟨d, more, rfl, digit⟩
  rcases hm with rfl | rfl
  · exact ⟨d, more, rfl, digit_starts digit, .inl digit⟩
  · exact ⟨ch '-', d :: more, rfl, ⟨by decide, by decide, by decide, by decide⟩, .inr ⟨rfl, d, more, rfl, digit⟩⟩

theorem number_follows {c : Byte} {more : Bytes} (tail : Bytes)
    (number : isDigit c = true ∨ c = ch '-' ∧ ∃ d others, more = d :: others ∧ isDigit d = true) :
    isDigit c = true ∨ c = ch '-' ∧ ∃ d others, more ++ tail = d :: others ∧ isDigit d = true := by
  rcases number with digit | ⟨sign, d, others, rfl, digit⟩
  · exact .inl digit
  · exact .inr ⟨sign, d, others ++ tail, rfl, digit⟩

section Values

variable [Reals R]

theorem Denotes.start {n : Nat} {body : Bytes} {v : Json R} (denotes : Denotes n body (.value v)) :
    ∃ c rest, body = c :: rest ∧ Starts c := by
  cases denotes with
  | nullWord => exact ⟨ch 'n', ascii "ull", rfl, by decide, by decide, by decide, by decide⟩
  | trueWord => exact ⟨ch 't', ascii "rue", rfl, by decide, by decide, by decide, by decide⟩
  | falseWord => exact ⟨ch 'f', ascii "alse", rfl, by decide, by decide, by decide, by decide⟩
  | int hm hw _ _ =>
    rcases number_start hm hw with ⟨c, rest, split, starts, _⟩
    exact ⟨c, rest, split, starts⟩
  | real hm hw _ _ _ _ =>
    rcases number_start hm hw with ⟨c, rest, split, starts, _⟩
    rw [split]
    exact ⟨c, _, rfl, starts⟩
  | text _ => exact ⟨ch '"', _, rfl, by decide, by decide, by decide, by decide⟩
  | noItems _ => exact ⟨ch '[', _, rfl, by decide, by decide, by decide, by decide⟩
  | array _ => exact ⟨ch '[', _, rfl, by decide, by decide, by decide, by decide⟩
  | noMembers _ => exact ⟨ch '{', _, rfl, by decide, by decide, by decide, by decide⟩
  | object _ => exact ⟨ch '{', _, rfl, by decide, by decide, by decide, by decide⟩

theorem parsePartial_switch (n : Nat) :
    ∃ objects arrays, parsePartial (R := R) n = parseSwitch objects arrays := by
  cases n with
  | zero => exact ⟨_, _, rfl⟩
  | succ n => exact ⟨_, _, rfl⟩

variable {white rest : Bytes} {objects arrays : Bytes → Parse (Json R × Bytes)}

theorem parseSwitch_step (whites : White white) {c : Byte} (solid : whiteSpace c = false) :
    parseSwitch objects arrays (white ++ c :: rest) =
      if c = ch '{' then objects rest
      else if c = ch '[' then arrays rest
      else if c = ch 'n' then parseStrNull (c :: rest)
      else if c = ch 't' then parseStrTrue (c :: rest)
      else if c = ch 'f' then parseStrFalse (c :: rest)
      else if c = ch '"' then parseStrText rest
      else if isDigit c then parseStrNumber (c :: rest)
      else if c = ch '-' then
        peek rest >>= fun d => if isDigit d then parseStrNumber (c :: rest) else reject
      else reject := by
  rw [parseSwitch, skipWhite_white whites solid, bind_ok, next_cons, bind_ok]

theorem parseSwitch_number (whites : White white) {c : Byte} (starts : Starts c)
    (number : isDigit c = true ∨ c = ch '-' ∧ ∃ d more, rest = d :: more ∧ isDigit d = true) :
    parseSwitch objects arrays (white ++ c :: rest) = parseStrNumber (c :: rest) := by
  have other : ∀ mark : Byte, isDigit mark = false → mark ≠ ch '-' → c ≠ mark := by
    intro mark noDigit noMinus same
    rcases number with digit | ⟨minus, _⟩
    · rw [same, noDigit] at digit
      cases digit
    · exact noMinus (same.symm.trans minus)
  rw [parseSwitch_step whites starts.1,
    if_neg (other (ch '{') (by decide) (by decide)), if_neg (other (ch '[') (by decide) (by decide)),
    if_neg (other (ch 'n') (by decide) (by decide)), if_neg (other (ch 't') (by decide) (by decide)),
    if_neg (other (ch 'f') (by decide) (by decide)), if_neg (other (ch '"') (by decide) (by decide))]
  rcases number with digit | ⟨minus, d, more, follows, digit⟩
  · rw [if_pos digit]
  · have noDigit : ¬ isDigit c = true := by
      rw [minus]
      decide
    rw [if_neg noDigit, if_pos minus, follows, peek, bind_ok, if_pos digit]

/-- How a phrase of the grammar is read by the function that is there for it. -/
def Accepts (n : Nat) (body : Bytes) : Phrase R → Prop
  | .value v => ∀ white c rest, White white → NumberEnd c →
      parsePartial n (white ++ (body ++ c :: rest)) = .ok (v, c :: rest)
  | .item v => ∃ white c core, body = white ++ c :: core ∧ White white ∧ Starts c ∧
      ∀ before mark rest, White before → Closes mark →
        ∃ tail, parsePartial n (before ++ (c :: core ++ mark :: rest)) = .ok (v, tail) ∧
          skipWhite tail = .ok (mark :: rest)
  | .items vs => ∃ white c core, body = white ++ c :: core ∧ White white ∧ Starts c ∧
      ∀ rest fuel items, (c :: core).length < fuel →
        parseItems (parsePartial n) fuel items (c :: core ++ ch ']' :: rest) = .ok (array (items ++ vs), rest)
  | .member entry => ∃ white core, body = white ++ ch '"' :: core ∧ White white ∧
      ∀ mark rest, Closes mark →
        ∃ tail, parsePair (parsePartial n) (ch '"' :: core ++ mark :: rest) = .ok (entry, tail) ∧
          skipWhite tail = .ok (mark :: rest)
  | .members pairs => ∃ white core, body = white ++ ch '"' :: core ∧ White white ∧
      ∀ rest fuel entries, (ch '"' :: core).length < fuel →
        parseMembers (parsePartial n) fuel entries (ch '"' :: core ++ ch '}' :: rest) =
          .ok (object (pairs.foldl (fun kept entry => OrderedMap.set kept entry.1 entry.2) entries), rest)

theorem accepts_word {n : Nat} {word : Bytes} {v : Json R}
    (parsed : ∀ (objects arrays : Bytes → Parse (Json R × Bytes)) (white rest : Bytes), White white →
      parseSwitch objects arrays (white ++ (word ++ rest)) = scanWord word (word ++ rest) >>= fun rest => pure (v, rest)) :
    Accepts n word (.value v) := by
  intro white c rest whites _
  rcases parsePartial_switch (R := R) n with ⟨objects, arrays, switch⟩
  rw [switch, parsed _ _ _ _ whites, scanWord_word]
  rfl

theorem accepts_item {n : Nat} {before body after : Bytes} {v : Json R} (whiteBefore : White before)
    (denotes : Denotes n body (.value v)) (accepts : Accepts n body (.value v)) (whiteAfter : White after) :
    Accepts n (before ++ (body ++ after)) (.item v) := by
  rcases denotes.start with ⟨c, core, rfl, starts⟩
  refine ⟨before, c, core ++ after, rfl, whiteBefore, starts, ?_⟩
  intro white mark rest whites closes
  refine ⟨after ++ mark :: rest, ?_, skipWhite_white whiteAfter closes.2⟩
  cases after with
  | nil =>
    rw [List.append_nil]
    exact accepts white mark rest whites closes.1
  | cons a after =>
    rw [← List.cons_append, List.append_assoc]
    exact accepts white a (after ++ mark :: rest) whites (whiteSpace_end (whiteAfter a (List.mem_cons_self ..)))

omit [Reals R] in
theorem parseItems_step {child : Bytes → Parse (Json R × Bytes)} {c mark : Byte} {core tail rest : Bytes} {v : Json R}
    (nonzero : c ≠ 0) (read : child (c :: core) = .ok (v, tail)) (skipped : skipWhite tail = .ok (mark :: rest))
    (fuel : Nat) (items : List (Json R)) :
    parseItems child (fuel + 1) items (c :: core) =
      if mark = ch ']' then .ok (array (items ++ [v]), rest)
      else if mark ≠ ch ',' then reject
      else skipWhite rest >>= parseItems child fuel (items ++ [v]) := by
  rw [parseItems, peek, bind_ok, if_neg nonzero, read, bind_ok, skipped, bind_ok, next_cons, bind_ok]
  rfl

theorem accepts_lastItem {n : Nat} {body : Bytes} {v : Json R} (accepts : Accepts n body (.item v)) :
    Accepts n body (.items [v]) := by
  rcases accepts with ⟨white, c, core, split, whites, starts, parsed⟩
  refine ⟨white, c, core, split, whites, starts, ?_⟩
  intro rest fuel items enough
  cases fuel with
  | zero => exact absurd enough (Nat.not_lt_zero _)
  | succ fuel =>
    rcases parsed [] (ch ']') rest White.nil closes_bracket with ⟨tail, read, skipped⟩
    rw [List.nil_append, List.cons_append] at read
    rw [List.cons_append, parseItems_step starts.2.1 read skipped, if_pos rfl]

theorem accepts_moreItems {n : Nat} {body rest : Bytes} {v : Json R} {vs : List (Json R)}
    (accepts : Accepts n body (.item v)) (acceptsRest : Accepts n rest (.items vs)) :
    Accepts n (body ++ ch ',' :: rest) (.items (v :: vs)) := by
  rcases accepts with ⟨white, c, core, split, whites, starts, parsed⟩
  rcases acceptsRest with ⟨gap, d, more, splitRest, whiteGap, startsRest, parsedRest⟩
  refine ⟨white, c, core ++ ch ',' :: rest, by rw [split, List.append_assoc]; rfl, whites, starts, ?_⟩
  intro behind fuel items enough
  cases fuel with
  | zero => exact absurd enough (Nat.not_lt_zero _)
  | succ fuel =>
    rcases parsed [] (ch ',') (rest ++ ch ']' :: behind) White.nil closes_comma with ⟨tail, read, skipped⟩
    have grouped : c :: (core ++ ch ',' :: rest) ++ ch ']' :: behind =
        c :: (core ++ ch ',' :: (rest ++ ch ']' :: behind)) := by
      simp only [List.cons_append, List.append_assoc]
    have skippedGap : skipWhite (rest ++ ch ']' :: behind) = .ok (d :: more ++ ch ']' :: behind) := by
      rw [splitRest, List.append_assoc]
      exact skipWhite_white whiteGap startsRest.1
    rw [List.nil_append, List.cons_append] at read
    rw [grouped, parseItems_step starts.2.1 read skipped, if_neg (by decide), if_neg (not_not_intro rfl), skippedGap,
      bind_ok]
    have shorter : (d :: more).length < fuel := by
      have count := congrArg List.length splitRest
      simp only [List.length_append, List.length_cons] at count enough ⊢
      omega
    have parsedMore := parsedRest behind fuel (items ++ [v]) shorter
    rw [List.append_assoc, List.singleton_append] at parsedMore
    exact parsedMore

theorem accepts_member {n : Nat} {before raw key after body : Bytes} {v : Json R} (whiteBefore : White before)
    (chars : Chars raw key) (whiteAfter : White after) (accepts : Accepts n body (.item v)) :
    Accepts n (before ++ (ch '"' :: (raw ++ (ch '"' :: (after ++ ch ':' :: body))))) (.member (key, v)) := by
  rcases accepts with ⟨white, c, core, split, whites, starts, parsed⟩
  refine ⟨before, _, rfl, whiteBefore, ?_⟩
  intro mark rest closes
  rcases parsed [] mark rest White.nil closes with ⟨tail, read, skipped⟩
  refine ⟨tail, ?_, skipped⟩
  have grouped : ch '"' :: (raw ++ (ch '"' :: (after ++ ch ':' :: body))) ++ mark :: rest =
      ch '"' :: (raw ++ ch '"' :: (after ++ ch ':' :: (white ++ c :: (core ++ mark :: rest)))) := by
    rw [split]
    simp only [List.cons_append, List.append_assoc]
  rw [List.nil_append, List.cons_append] at read
  rw [grouped, parsePair, next_cons, bind_ok, if_neg (not_not_intro rfl), parseStringRaw_chars chars, bind_ok,
    skipWhite_white whiteAfter (by decide), bind_ok, next_cons, bind_ok, if_neg (not_not_intro rfl),
    skipWhite_white whites starts.1, bind_ok, read]
  rfl

omit [Reals R] in
theorem parseMembers_step {child : Bytes → Parse (Json R × Bytes)} {c mark : Byte} {core tail rest : Bytes}
    {entry : Bytes × Json R} (nonzero : c ≠ 0) (read : parsePair child (c :: core) = .ok (entry, tail))
    (skipped : skipWhite tail = .ok (mark :: rest)) (fuel : Nat) (entries : List (Bytes × Json R)) :
    parseMembers child (fuel + 1) entries (c :: core) =
      if mark = ch '}' then .ok (object (objectSetValue entries entry.1 entry.2), rest)
      else if mark ≠ ch ',' then reject
      else skipWhite rest >>= parseMembers child fuel (objectSetValue entries entry.1 entry.2) := by
  rw [parseMembers, peek, bind_ok, if_neg nonzero, read, bind_ok, skipped, bind_ok, next_cons, bind_ok]
  rfl

theorem accepts_lastMember {n : Nat} {body : Bytes} {entry : Bytes × Json R}
    (accepts : Accepts n body (.member entry)) : Accepts n body (.members [entry]) := by
  rcases accepts with ⟨white, core, split, whites, parsed⟩
  refine ⟨white, core, split, whites, ?_⟩
  intro rest fuel entries enough
  cases fuel with
  | zero => exact absurd enough (Nat.not_lt_zero _)
  | succ fuel =>
    rcases parsed (ch '}') rest closes_brace with ⟨tail, read, skipped⟩
    rw [List.cons_append] at read
    rw [List.cons_append, parseMembers_step (by decide) read skipped, if_pos rfl]
    rfl

theorem accepts_moreMembers {n : Nat} {body rest : Bytes} {entry : Bytes × Json R} {pairs : List (Bytes × Json R)}
    (accepts : Accepts n body (.member entry)) (acceptsRest : Accepts n rest (.members pairs)) :
    Accepts n (body ++ ch ',' :: rest) (.members (entry :: pairs)) := by
  rcases accepts with ⟨white, core, split, whites, parsed⟩
  rcases acceptsRest with ⟨gap, more, splitRest, whiteGap, parsedRest⟩
  refine ⟨white, core ++ ch ',' :: rest, by rw [split, List.append_assoc]; rfl, whites, ?_⟩
  intro behind fuel entries enough
  cases fuel with
  | zero => exact absurd enough (Nat.not_lt_zero _)
  | succ fuel =>
    rcases parsed (ch ',') (rest ++ ch '}' :: behind) closes_comma with ⟨tail, read, skipped⟩
    have grouped : ch '"' :: (core ++ ch ',' :: rest) ++ ch '}' :: behind =
        ch '"' :: (core ++ ch ',' :: (rest ++ ch '}' :: behind)) := by
      simp only [List.cons_append, List.append_assoc]
    have skippedGap : skipWhite (rest ++ ch '}' :: behind) = .ok (ch '"' :: more ++ ch '}' :: behind) := by
      rw [splitRest, List.append_assoc]
      exact skipWhite_white whiteGap (by decide)
    rw [List.cons_append] at read
    rw [grouped, parseMembers_step (by decide) read skipped, if_neg (by decide), if_neg (not_not_intro rfl),
      skippedGap, bind_ok]
    have shorter : (ch '"' :: more).length < fuel := by
      have count := congrArg List.length splitRest
      simp only [List.length_append, List.length_cons] at count enough ⊢
      omega
    exact parsedRest behind fuel _ shorter

theorem Denotes.accepts (numbers : ReadsNumbers R) {n : Nat} {body : Bytes} {phrase : Phrase R}
    (denotes : Denotes n body phrase) : Accepts n body phrase := by
  induction denotes with
  | nullWord =>
    apply accepts_word
    intro objects arrays white rest whites
    show parseSwitch objects arrays (white ++ ch 'n' :: (ascii "ull" ++ rest)) = _
    rw [parseSwitch_step whites (by decide), if_neg (by decide), if_neg (by decide), if_pos rfl]
    rfl
  | trueWord =>
    apply accepts_word
    intro objects arrays white rest whites
    show parseSwitch objects arrays (white ++ ch 't' :: (ascii "rue" ++ rest)) = _
    rw [parseSwitch_step whites (by decide), if_neg (by decide), if_neg (by decide), if_neg (by decide), if_pos rfl]
    rfl
  | falseWord =>
    apply accepts_word
    intro objects arrays white rest whites
    show parseSwitch objects arrays (white ++ ch 'f' :: (ascii "alse" ++ rest)) = _
    rw [parseSwitch_step whites (by decide), if_neg (by decide), if_neg (by decide), if_neg (by decide),
      if_neg (by decide), if_pos rfl]
    rfl
  | @int n minus whole hm hw least greatest =>
    intro white c rest whites ended
    rcases parsePartial_switch (R := R) n with ⟨objects, arrays, switch⟩
    rcases number_start hm hw with ⟨d, more, split, starts, number⟩
    have follows := number_follows (c :: rest) number
    have parsed := @parseStrNumber_int R _ minus whole rest c hm hw least greatest ended
    rw [split, List.cons_append] at parsed
    rw [switch, split, List.cons_append, parseSwitch_number whites starts follows, parsed]
  | @real n minus whole fraction exponent hm hw hf he isReal finite =>
    intro white c rest whites ended
    rcases parsePartial_switch (R := R) n with ⟨objects, arrays, switch⟩
    rcases number_start hm hw with ⟨d, more, split, starts, number⟩
    have grouped : minus ++ whole ++ fraction ++ exponent ++ c :: rest =
        d :: (more ++ (fraction ++ (exponent ++ c :: rest))) := by
      rw [split]
      simp only [List.cons_append, List.append_assoc]
    have follows := number_follows (fraction ++ (exponent ++ c :: rest)) number
    have parsed := @parseStrNumber_real R _ minus whole fraction exponent rest c numbers hm hw hf he isReal finite ended
    rw [grouped] at parsed
    rw [switch, grouped, parseSwitch_number whites starts follows, parsed]
  | @text n raw s chars =>
    intro white c rest whites _
    rcases parsePartial_switch (R := R) n with ⟨objects, arrays, switch⟩
    have grouped : ch '"' :: (raw ++ [ch '"']) ++ c :: rest = ch '"' :: (raw ++ ch '"' :: c :: rest) := by
      simp only [List.cons_append, List.append_assoc, List.nil_append]
    rw [switch, grouped, parseSwitch_step whites (by decide), if_neg (by decide), if_neg (by decide), if_neg (by decide),
      if_neg (by decide), if_neg (by decide), if_pos rfl, parseStrText, parseStringRaw_chars chars]
    rfl
  | @noItems n inner whiteInner =>
    intro white c rest whites _
    have grouped : ch '[' :: (inner ++ [ch ']']) ++ c :: rest = ch '[' :: (inner ++ ch ']' :: c :: rest) := by
      simp only [List.cons_append, List.append_assoc, List.nil_append]
    rw [parsePartial, grouped, parseSwitch_step whites (by decide), if_neg (by decide), if_pos rfl, parseStrArray,
      skipWhite_white whiteInner (by decide), bind_ok, next_cons, bind_ok, if_pos rfl]
    rfl
  | @array n body vs _ ih =>
    intro white c rest whites _
    rcases ih with ⟨gap, d, core, split, whiteGap, starts, parsed⟩
    have grouped : ch '[' :: (body ++ [ch ']']) ++ c :: rest = ch '[' :: (gap ++ d :: (core ++ ch ']' :: c :: rest)) := by
      rw [split]
      simp only [List.cons_append, List.append_assoc, List.nil_append]
    rw [parsePartial, grouped, parseSwitch_step whites (by decide), if_neg (by decide), if_pos rfl, parseStrArray,
      skipWhite_white whiteGap starts.1, bind_ok, next_cons, bind_ok, if_neg starts.2.2.1]
    exact parsed (c :: rest) _ [] (by simp only [List.length_cons, List.length_append]; omega)
  | @noMembers n inner whiteInner =>
    intro white c rest whites _
    have grouped : ch '{' :: (inner ++ [ch '}']) ++ c :: rest = ch '{' :: (inner ++ ch '}' :: c :: rest) := by
      simp only [List.cons_append, List.append_assoc, List.nil_append]
    rw [parsePartial, grouped, parseSwitch_step whites (by decide), if_pos rfl, parseStrObject,
      skipWhite_white whiteInner (by decide), bind_ok, next_cons, bind_ok, if_pos rfl]
    rfl
  | @object n body entries _ ih =>
    intro white c rest whites _
    rcases ih with ⟨gap, core, split, whiteGap, parsed⟩
    have grouped : ch '{' :: (body ++ [ch '}']) ++ c :: rest =
        ch '{' :: (gap ++ ch '"' :: (core ++ ch '}' :: c :: rest)) := by
      rw [split]
      simp only [List.cons_append, List.append_assoc, List.nil_append]
    rw [parsePartial, grouped, parseSwitch_step whites (by decide), if_pos rfl, parseStrObject,
      skipWhite_white whiteGap (by decide), bind_ok, next_cons, bind_ok,
      if_neg (show ¬ ch '"' = ch '}' by decide), ← OrderedMap.foldl_set_eq_collapse]
    exact parsed (c :: rest) _ [] (by simp only [List.length_cons, List.length_append]; omega)
  | item before denotes after ih => exact accepts_item before denotes ih after
  | lastItem _ ih => exact accepts_lastItem ih
  | moreItems _ _ ih ihRest => exact accepts_moreItems ih ihRest
  | member before chars after _ ih => exact accepts_member before chars after ih
  | lastMember _ ih => exact accepts_lastMember ih
  | moreMembers _ _ ih ihRest => exact accepts_moreMembers ih ihRest

theorem IsText.parse_eq (numbers : ReadsNumbers R) {body : Bytes} {v : Json R} (isText : IsText body v)
    (beyond : Bytes) : parse (body ++ 0 :: beyond) = .ok v := by
  rcases Denotes.accepts numbers isText with ⟨white, c, core, split, whites, starts, parsed⟩
  rcases parsed white 0 beyond whites closes_nul with ⟨tail, read, skipped⟩
  rw [split, List.append_assoc, parse, read, bind_ok, skipped, bind_ok, peek, bind_ok, if_neg (not_not_intro rfl)]
  rfl

end Values

end BlueBird.Json
