import BlueBird.Memory.CString
import BlueBird.Json.Completeness
import Mathlib.Data.Rat.Defs

/-! `bb_json_parse` accepts the grammar, and nothing else. -/

namespace BlueBird.Json

open Outcome

variable {R : Type}

theorem clean_of_all {text : Bytes} {p : Byte → Bool} (all : ∀ c ∈ text, p c = true) (zero : p 0 = false) :
    (0 : Byte) ∉ text := by
  intro member
  have holds := all 0 member
  rw [zero] at holds
  cases holds

theorem White.clean {text : Bytes} (white : White text) : (0 : Byte) ∉ text := clean_of_all white (by decide)

theorem Digits.clean {text : Bytes} (digits : Digits text) : (0 : Byte) ∉ text := clean_of_all digits.2 (by decide)

theorem clean_append {front back : Bytes} (hf : (0 : Byte) ∉ front) (hb : (0 : Byte) ∉ back) :
    (0 : Byte) ∉ front ++ back := by
  intro member
  rcases List.mem_append.mp member with member | member
  · exact hf member
  · exact hb member

theorem clean_cons {c : Byte} {back : Bytes} (hc : c ≠ 0) (hb : (0 : Byte) ∉ back) : (0 : Byte) ∉ c :: back := by
  intro member
  rcases List.mem_cons.mp member with same | member
  · exact hc same.symm
  · exact hb member

theorem Minus.clean {text : Bytes} (minus : Minus text) : (0 : Byte) ∉ text := by
  rcases minus with rfl | rfl <;> decide

theorem Whole.clean {text : Bytes} (whole : Whole text) : (0 : Byte) ∉ text := by
  rcases whole with rfl | ⟨digits, _⟩
  · decide
  · exact digits.clean

theorem Fraction.clean {text : Bytes} (fraction : Fraction text) : (0 : Byte) ∉ text := by
  rcases fraction with rfl | ⟨digits, some, rfl⟩
  · decide
  · exact clean_append (by decide) some.clean

theorem Exponent.clean {text : Bytes} (exponent : Exponent text) : (0 : Byte) ∉ text := by
  rcases exponent with rfl | ⟨mark, sign, digits, member, signed, some, rfl⟩
  · decide
  · have marked : mark ≠ 0 := by
      intro zero
      rw [zero] at member
      exact absurd member (by decide)
    refine clean_append (clean_cons marked ?_) some.clean
    rcases signed with rfl | ⟨s, known, rfl⟩
    · decide
    · intro zero
      rw [← List.mem_singleton.mp zero] at known
      exact absurd known (by decide)

theorem HexUnit.clean {text : Bytes} {value : Nat} (hex : HexUnit text value) : (0 : Byte) ∉ text := by
  intro member
  rcases hex.hexes with ⟨digits, hexes⟩
  have unknown : hexCharToInt 0 = none := by decide
  have given : hexCharToInt 0 ∈ text.map hexCharToInt := List.mem_map.mpr ⟨0, member, rfl⟩
  rw [hexes, unknown] at given
  rcases List.mem_map.mp given with ⟨digit, _, impossible⟩
  cases impossible

theorem Chars.clean {raw text : Bytes} (chars : Chars raw text) : (0 : Byte) ∉ raw := by
  induction chars with
  | nil => decide
  | plain printable _ _ _ ih =>
    refine clean_cons ?_ ih
    intro zero
    rw [zero] at printable
    exact absurd printable (by decide)
  | @escape mark c _ _ known _ ih =>
    refine clean_cons (by decide) (clean_cons ?_ ih)
    intro zero
    have unknown : escapeValue 0 = none := by decide
    rw [zero, unknown] at known
    cases known
  | scalar hex _ _ ih => exact clean_append (by decide) (clean_append hex.clean ih)
  | pair _ high low _ ih =>
    exact clean_append (by decide) (clean_append high.clean (clean_append (by decide) (clean_append low.clean ih)))

section Acceptance

variable [Reals R]

theorem Denotes.clean {n : Nat} {body : Bytes} {phrase : Phrase R} (denotes : Denotes n body phrase) :
    (0 : Byte) ∉ body := by
  have bracketed : ∀ {open_ close : Byte} {inner : Bytes}, open_ ≠ 0 → close ≠ 0 → (0 : Byte) ∉ inner →
      (0 : Byte) ∉ open_ :: (inner ++ [close]) := by
    intro open_ close inner first last middle
    exact clean_cons first (clean_append middle (clean_cons last (by decide)))
  induction denotes with
  | nullWord => decide
  | trueWord => decide
  | falseWord => decide
  | int hm hw _ _ => exact clean_append hm.clean hw.clean
  | real hm hw hf he _ _ => exact clean_append (clean_append (clean_append hm.clean hw.clean) hf.clean) he.clean
  | text chars => exact bracketed (by decide) (by decide) chars.clean
  | noItems white => exact bracketed (by decide) (by decide) white.clean
  | array _ ih => exact bracketed (by decide) (by decide) ih
  | noMembers white => exact bracketed (by decide) (by decide) white.clean
  | object _ ih => exact bracketed (by decide) (by decide) ih
  | item before _ after ih => exact clean_append before.clean (clean_append ih after.clean)
  | lastItem _ ih => exact ih
  | moreItems _ _ ih ihRest => exact clean_append ih (clean_cons (by decide) ihRest)
  | member before chars after _ ih =>
    exact clean_append before.clean (clean_cons (by decide) (clean_append chars.clean (clean_cons (by decide)
      (clean_append after.clean (clean_cons (by decide) ih)))))
  | lastMember _ ih => exact ih
  | moreMembers _ _ ih ihRest => exact clean_append ih (clean_cons (by decide) ihRest)

theorem nul_mem (text beyond : Bytes) : (0 : Byte) ∈ text ++ 0 :: beyond :=
  List.mem_append_right _ (List.mem_cons_self ..)

theorem isText_of_parse {text beyond : Bytes} {v : Json R} (clean : (0 : Byte) ∉ text)
    (parsed : parse (text ++ 0 :: beyond) = .ok v) : IsText text v := by
  rcases (parse_ends (nul_mem text beyond)).of_ok parsed with ⟨used, rest, split, isText⟩
  rw [(Memory.first_unique clean isText.clean split).1]
  exact isText

/-- The parser answers with the value that a text stands for, and rejects every other text; the answer
    never depends on memory behind the NUL, which is not read. -/
theorem parse_iff_isText (numbers : ReadsNumbers R) (text beyond : Bytes) (clean : (0 : Byte) ∉ text) :
    (∀ v : Json R, parse (text ++ 0 :: beyond) = .ok v ↔ IsText text v) ∧
      ((∀ v : Json R, ¬ IsText text v) → parse (R := R) (text ++ 0 :: beyond) = .error .rejected) ∧
      parse (R := R) (text ++ [0]) ≠ .error .overread ∧
      parse (R := R) (text ++ 0 :: beyond) = parse (text ++ [0]) := by
  have rejects : ∀ beyond, (∀ v : Json R, ¬ IsText text v) →
      parse (R := R) (text ++ 0 :: beyond) = .error .rejected := by
    intro beyond none
    cases parsed : parse (R := R) (text ++ 0 :: beyond) with
    | ok v => exact absurd (isText_of_parse clean parsed) (none v)
    | error e => rw [(parse_ends (nul_mem text beyond)).of_error parsed]
  refine ⟨fun v => ⟨isText_of_parse clean, fun isText => isText.parse_eq numbers beyond⟩, rejects beyond, ?_, ?_⟩
  · intro over_
    cases (parse_ends (nul_mem text [])).of_error over_
  · by_cases some : ∃ v : Json R, IsText text v
    · rcases some with ⟨v, isText⟩
      rw [isText.parse_eq numbers beyond, isText.parse_eq numbers []]
    · have none : ∀ v : Json R, ¬ IsText text v := fun v isText => some ⟨v, isText⟩
      rw [rejects beyond none, rejects [] none]

end Acceptance

@[reducible] def halves : Reals Rat where
  strtof token := (if token = ascii "2.5" then 5 / 2 else 0, [])
  infinite _ := false
  formatReal _ := ascii "2.5"
  equal a b := a = b

theorem parse_iff_isText_half : @IsText Rat halves (ascii "[2.5]") (array [real (5 / 2)]) :=
  ((@parse_iff_isText Rat halves (fun _ _ _ _ _ _ _ _ => rfl) (ascii "[2.5]") [] (by decide)).1 _).mp rfl

end BlueBird.Json
