import BlueBird.Bytes
import Mathlib.Data.List.Infix

/-! The two matchers: `bb_like_match`, and GLOB on the pattern that is made for it. -/

namespace BlueBird.Persist

/-! ## GLOB -/

/-- A class of GLOB while it is read: `started` counts the `^` and the first byte, `range` is the
    first byte of a range whose last one is next. -/
structure GlobClass where
  c : Byte
  started : Bool
  invert : Bool
  seen : Bool
  prior : Option Byte
  range : Option Byte

def GlobClass.start (c : Byte) : GlobClass := ⟨c, false, false, false, none, none⟩

/-- One byte of a class, with the pattern behind it; `none` where the class ends. -/
def GlobClass.step (cls : GlobClass) (p : Byte) (behind : Bytes) : Option GlobClass :=
  match cls.range with
  | some first => some { cls with seen := cls.seen || (first ≤ cls.c && cls.c ≤ p), prior := none, range := none }
  | none =>
    if p = ch '^' ∧ ¬ cls.started ∧ ¬ cls.invert then some { cls with invert := true }
    else if p = ch ']' then
      if cls.started then none else some { cls with started := true, seen := cls.c == ch ']' }
    else if p = ch '-' ∧ cls.prior.isSome ∧ behind ≠ [] ∧ behind.head? ≠ some (ch ']') then
      some { cls with range := cls.prior }
    else some { cls with started := true, seen := cls.seen || cls.c == p, prior := some p }

/-- `text GLOB pattern`; a class that is not closed matches nothing. -/
def globFrom : Option GlobClass → (pattern text : Bytes) → Bool
  | none, [], text => text.isEmpty
  | some _, [], _ => false
  | none, p :: pattern, text =>
    if p = ch '*' then text.tails.any (globFrom none pattern)
    else if text.isEmpty then false
    else if p = ch '?' then globFrom none pattern text.tail
    else if p = ch '[' then globFrom (some (.start (text.headD 0))) pattern text.tail
    else text.head? == some p && globFrom none pattern text.tail
  | some cls, p :: pattern, text =>
    match cls.step p pattern with
    | some more => globFrom (some more) pattern text
    | none => (cls.seen != cls.invert) && globFrom none pattern text

def glob (pattern text : Bytes) : Bool := globFrom none pattern text

/-! ## LIKE -/

/-- `bb_like_match` -/
def likeMatch (text pattern : Bytes) : Bool :=
  match pattern with
  | [] => text.isEmpty
  | p :: pattern =>
    if p = ch '%' then
      let behind := pattern.dropWhile (· = ch '%')
      -- the loop over the text ends before the NUL
      if behind = [] then true else text.tails.any fun t => !t.isEmpty && likeMatch t behind
    else if text.isEmpty then false
    else if text.head? ≠ some p then false
    else likeMatch text.tail pattern
  termination_by pattern.length
  decreasing_by
    · exact Nat.lt_succ_of_le (List.dropWhile_sublist _).length_le
    · exact Nat.lt_succ_self _

/-- One turn of `like_pattern_to_glob`. -/
def globByte (p : Byte) : Bytes :=
  if p = ch '%' then ascii "*"
  else if p = ch '*' then ascii "[*]"
  else if p = ch '?' then ascii "[?]"
  else if p = ch '[' then ascii "[[]"
  else [p]

def likePatternToGlob (pattern : Bytes) : Bytes := pattern.flatMap globByte

/-! ## They agree -/

theorem likeMatch_nil (text : Bytes) : likeMatch text [] = text.isEmpty := by rw [likeMatch]

theorem likeMatch_literal {p : Byte} (literal : p ≠ ch '%') (text pattern : Bytes) :
    likeMatch text (p :: pattern) = (text.head? == some p && likeMatch text.tail pattern) := by
  rw [likeMatch, if_neg literal]
  cases text with
  | nil => rfl
  | cons c text =>
    rw [if_neg (by simp)]
    by_cases same : c = p <;> simp [same]

theorem likeMatch_empty {pattern : Bytes} (some_ : pattern ≠ []) (literal : pattern.head? ≠ some (ch '%')) :
    likeMatch [] pattern = false := by
  cases pattern with
  | nil => exact absurd rfl some_
  | cons p pattern =>
    rw [likeMatch_literal (by simpa using literal)]
    rfl

theorem likeMatch_collapse (text pattern : Bytes) : likeMatch text (ch '%' :: pattern) =
    if pattern.dropWhile (· = ch '%') = [] then true
    else text.tails.any fun t => !t.isEmpty && likeMatch t (pattern.dropWhile (· = ch '%')) := by
  rw [likeMatch, if_pos rfl]

theorem any_tails_tails (text : Bytes) (found : Bytes → Bool) :
    (text.tails.any fun t => t.tails.any found) = text.tails.any found := by
  rw [Bool.eq_iff_iff, List.any_eq_true, List.any_eq_true]
  constructor
  · rintro ⟨t, first, inner⟩
    obtain ⟨u, second, holds⟩ := List.any_eq_true.mp inner
    exact ⟨u, (List.mem_tails _ _).mpr (((List.mem_tails _ _).mp second).trans ((List.mem_tails _ _).mp first)), holds⟩
  · rintro ⟨t, first, holds⟩
    exact ⟨t, first, List.any_eq_true.mpr ⟨t, (List.mem_tails _ _).mpr List.suffix_rfl, holds⟩⟩

/-- Whatever stands behind a `%` is looked for in every end of the text. -/
theorem likeMatch_percent (text pattern : Bytes) :
    likeMatch text (ch '%' :: pattern) = text.tails.any fun t => likeMatch t pattern := by
  induction pattern generalizing text with
  | nil =>
    rw [likeMatch_collapse, List.dropWhile_nil, if_pos rfl]
    symm
    apply List.any_eq_true.mpr
    exact ⟨[], (List.mem_tails _ _).mpr List.nil_suffix, by rw [likeMatch_nil]; rfl⟩
  | cons p pattern ih =>
    by_cases percent : p = ch '%'
    · subst percent
      have collapsed : likeMatch text (ch '%' :: ch '%' :: pattern) = likeMatch text (ch '%' :: pattern) := by
        rw [likeMatch_collapse, likeMatch_collapse, List.dropWhile_cons_of_pos (by simp)]
      rw [collapsed, ih, funext fun t => ih t]
      exact (any_tails_tails text _).symm
    · have stays : (p :: pattern).dropWhile (· = ch '%') = p :: pattern :=
        List.dropWhile_cons_of_neg (by simpa using percent)
      rw [likeMatch_collapse, stays, if_neg (List.cons_ne_nil _ _)]
      congr 1
      funext t
      cases t with
      | nil => rw [likeMatch_empty (List.cons_ne_nil _ _) (by simpa using percent)]; rfl
      | cons c t => rfl

theorem globFrom_literal {p : Byte} (star : p ≠ ch '*') (one : p ≠ ch '?') (open_ : p ≠ ch '[') (pattern text : Bytes) :
    globFrom none (p :: pattern) text = (text.head? == some p && globFrom none pattern text.tail) := by
  rw [globFrom, if_neg star, if_neg one, if_neg open_]
  cases text with
  | nil => rfl
  | cons c text => rw [if_neg (by simp)]

theorem globFrom_class {p : Byte} (plain : p ≠ ch '^' ∧ p ≠ ch ']' ∧ p ≠ ch '-') (pattern text : Bytes) :
    globFrom none (ch '[' :: p :: ch ']' :: pattern) text = (text.head? == some p && globFrom none pattern text.tail) := by
  rw [globFrom, if_neg (by decide), if_neg (show ¬ ch '[' = ch '?' by decide), if_pos rfl]
  cases text with
  | nil => rfl
  | cons c text =>
    have first : (GlobClass.start c).step p (ch ']' :: pattern) =
        some ⟨c, true, false, c == p, some p, none⟩ := by
      unfold GlobClass.step GlobClass.start
      dsimp only
      rw [if_neg (fun caret => plain.1 caret.1), if_neg plain.2.1, if_neg (fun dash => plain.2.2 dash.1)]
      rfl
    have last : GlobClass.step ⟨c, true, false, c == p, some p, none⟩ (ch ']') pattern = none := by
      unfold GlobClass.step
      dsimp only
      rw [if_neg (by simp), if_pos rfl, if_pos rfl]
    show globFrom (some (GlobClass.start c)) (p :: ch ']' :: pattern) text = _
    rw [globFrom, first]
    dsimp only
    rw [globFrom, last]
    simp

theorem glob_likePatternToGlob (text pattern : Bytes) : glob (likePatternToGlob pattern) text = likeMatch text pattern := by
  unfold glob likePatternToGlob
  induction pattern generalizing text with
  | nil => rw [likeMatch_nil]; rfl
  | cons p pattern ih =>
    rw [List.flatMap_cons]
    by_cases percent : p = ch '%'
    · subst percent
      rw [likeMatch_percent, ← funext ih]
      rfl
    rw [likeMatch_literal percent, ← ih]
    unfold globByte
    rw [if_neg percent]
    by_cases star : p = ch '*'
    · rw [if_pos star, star]
      exact globFrom_class (by decide) _ _
    rw [if_neg star]
    by_cases one : p = ch '?'
    · rw [if_pos one, one]
      exact globFrom_class (by decide) _ _
    rw [if_neg one]
    by_cases open_ : p = ch '['
    · rw [if_pos open_, open_]
      exact globFrom_class (by decide) _ _
    · rw [if_neg open_]
      exact globFrom_literal star one open_ _ _

end BlueBird.Persist
