import BlueBird.Persist.Glob
import Mathlib.Computability.Language

/-! What a LIKE pattern means, and that the matcher and the patterns written for the two databases mean the same. -/

namespace BlueBird.Persist

/-- `%` is any string, and every other byte is itself. -/
def symbol (p : Byte) : Language Byte := if p = ch '%' then ⊤ else {[p]}

def patternLanguage (pattern : Bytes) : Language Byte := (pattern.map symbol).prod

/-! ## PostgreSQL -/

/-- LIKE of PostgreSQL on ASCII, where a character is a byte; `escaped` is after a backslash. A backslash at the end is an
    error, and no match. -/
def pgLikeFrom : (escaped : Bool) → (pattern text : Bytes) → Bool
  | false, [], text => text.isEmpty
  | true, [], _ => false
  | true, p :: pattern, text => text.head? == some p && pgLikeFrom false pattern text.tail
  | false, p :: pattern, text =>
    if p = ch '%' then text.tails.any (pgLikeFrom false pattern)
    else if p = ch '\\' then pgLikeFrom true pattern text
    else if p = ch '_' then !text.isEmpty && pgLikeFrom false pattern text.tail
    else text.head? == some p && pgLikeFrom false pattern text.tail

def pgLike (pattern text : Bytes) : Bool := pgLikeFrom false pattern text

/-- `escape_like_pattern` -/
def escapeLikePattern : Bytes → Bytes
  | [] => []
  | r :: pattern => (if r = ch '\\' ∨ r = ch '_' then ch '\\' :: [r] else [r]) ++ escapeLikePattern pattern

theorem pgLikeFrom_literal {p : Byte} (percent : p ≠ ch '%') (escape : p ≠ ch '\\') (one : p ≠ ch '_') (pattern text : Bytes) :
    pgLikeFrom false (p :: pattern) text = (text.head? == some p && pgLikeFrom false pattern text.tail) := by
  rw [pgLikeFrom, if_neg percent, if_neg escape, if_neg one]

theorem pgLikeFrom_escaped (p : Byte) (pattern text : Bytes) :
    pgLikeFrom false (ch '\\' :: p :: pattern) text = (text.head? == some p && pgLikeFrom false pattern text.tail) := by
  rw [pgLikeFrom, if_neg (by decide), if_pos rfl, pgLikeFrom]

theorem pgLike_escapeLikePattern (text pattern : Bytes) : pgLike (escapeLikePattern pattern) text = likeMatch text pattern := by
  unfold pgLike
  induction pattern generalizing text with
  | nil =>
    rw [likeMatch_nil]
    rfl
  | cons r pattern ih =>
    unfold escapeLikePattern
    by_cases percent : r = ch '%'
    · subst percent
      rw [likeMatch_percent, ← funext ih]
      rfl
    rw [likeMatch_literal percent, ← ih]
    by_cases special : r = ch '\\' ∨ r = ch '_'
    · rw [if_pos special]
      exact pgLikeFrom_escaped r _ text
    · rw [if_neg special]
      rw [not_or] at special
      exact pgLikeFrom_literal percent special.1 special.2 _ text

/-! ## The language -/

theorem patternLanguage_cons (p : Byte) (pattern : Bytes) : patternLanguage (p :: pattern) = symbol p * patternLanguage pattern := by
  unfold patternLanguage
  rw [List.map_cons, List.prod_cons]

theorem mem_any_mul {L : Language Byte} {text : Bytes} : text ∈ (⊤ : Language Byte) * L ↔ ∃ t ∈ text.tails, t ∈ L := by
  rw [Language.mem_mul]
  constructor
  · intro split
    rcases split with ⟨front, _, t, inside, rfl⟩
    exact ⟨t, (List.mem_tails _ _).mpr (List.suffix_append front t), inside⟩
  · intro tail
    rcases tail with ⟨t, suffix, inside⟩
    rcases (List.mem_tails _ _).mp suffix with ⟨front, whole⟩
    exact ⟨front, trivial, t, inside, whole⟩

theorem mem_byte_mul {p : Byte} {L : Language Byte} {text : Bytes} :
    text ∈ ({[p]} : Language Byte) * L ↔ text.head? = some p ∧ text.tail ∈ L := by
  rw [Language.mem_mul]
  constructor
  · intro split
    rcases split with ⟨front, only, t, inside, rfl⟩
    rw [Set.mem_singleton_iff.mp only]
    exact ⟨rfl, inside⟩
  · intro both
    cases text with
    | nil => exact absurd both.1 nofun
    | cons c text =>
      rcases both with ⟨first, inside⟩
      rw [List.head?_cons, Option.some.injEq] at first
      exact ⟨[p], rfl, text, inside, by rw [first]; rfl⟩

theorem likeMatch_iff_mem (text pattern : Bytes) : likeMatch text pattern = true ↔ text ∈ patternLanguage pattern := by
  induction pattern generalizing text with
  | nil =>
    rw [likeMatch_nil, List.isEmpty_iff]
    exact (Language.mem_one _).symm
  | cons p pattern ih =>
    rw [patternLanguage_cons]
    unfold symbol
    by_cases percent : p = ch '%'
    · subst percent
      rw [if_pos rfl, mem_any_mul, likeMatch_percent, List.any_eq_true]
      constructor
      · intro found
        rcases found with ⟨t, suffix, accepted⟩
        exact ⟨t, suffix, (ih t).mp accepted⟩
      · intro found
        rcases found with ⟨t, suffix, inside⟩
        exact ⟨t, suffix, (ih t).mpr inside⟩
    · rw [if_neg percent, mem_byte_mul, likeMatch_literal percent, Bool.and_eq_true, beq_iff_eq, ih]

/-- One meaning in memory, in SQLite and in PostgreSQL. -/
theorem like_means_the_same (text pattern : Bytes) : (likeMatch text pattern = true ↔ text ∈ patternLanguage pattern) ∧
    (glob (likePatternToGlob pattern) text = true ↔ text ∈ patternLanguage pattern) ∧
    (pgLike (escapeLikePattern pattern) text = true ↔ text ∈ patternLanguage pattern) := by
  have meaning := likeMatch_iff_mem text pattern
  refine ⟨meaning, ?_, ?_⟩
  · rw [glob_likePatternToGlob]
    exact meaning
  · rw [pgLike_escapeLikePattern]
    exact meaning

end BlueBird.Persist
