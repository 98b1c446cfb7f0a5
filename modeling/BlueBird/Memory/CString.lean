import Mathlib.Data.List.Basic
import Mathlib.Data.List.TakeWhile

/-! Strings in memory: cells up to the first zero. A pointer is what the memory holds from there on. -/

namespace Memory

variable {α : Type} [Zero α] [DecidableEq α]

theorem first_unique {α : Type} {c : α} {a b x y : List α} (notA : c ∉ a) (notB : c ∉ b) (same : a ++ c :: x = b ++ c :: y) :
    a = b ∧ x = y := by
  induction a generalizing b with
  | nil =>
    cases b with
    | nil => exact ⟨rfl, List.tail_eq_of_cons_eq same⟩
    | cons d b => exact absurd (List.head_eq_of_cons_eq same) (fun here => notB (here ▸ List.mem_cons_self ..))
  | cons d a ih =>
    cases b with
    | nil => exact absurd (List.head_eq_of_cons_eq same) (fun here => notA (here ▸ List.mem_cons_self ..))
    | cons e b =>
      rcases List.cons.inj same with ⟨head, tail⟩
      rcases ih (fun later => notA (List.mem_cons_of_mem _ later)) (fun later => notB (List.mem_cons_of_mem _ later)) tail with
        ⟨fronts, backs⟩
      exact ⟨by rw [head, fronts], backs⟩

/-- The string that begins here; `none` when the memory ends before it does. -/
def stringAt : List α → Option (List α)
  | [] => none
  | c :: rest => if c = 0 then some [] else (stringAt rest).map (c :: ·)

/-- `strncmp` with all of a string, up to the first difference. -/
def beginsWith : List α → List α → Option Bool
  | [], _ => some true
  | _ :: _, [] => none
  | c :: front, d :: rest => if c = d then beginsWith front rest else some false

/-- `strchr`, as the distance to what it finds. -/
def distanceTo (c : α) (pointer : List α) : Option (Option Nat) :=
  (stringAt pointer).map fun text => if c ∈ text then some (text.takeWhile (· ≠ c)).length else none

/-- `strlen` -/
def lengthAt (pointer : List α) : Option Nat := (stringAt pointer).map List.length

theorem stringAt_append {text : List α} (clean : 0 ∉ text) (behind : List α) : stringAt (text ++ 0 :: behind) = some text := by
  induction text with
  | nil => exact if_pos rfl
  | cons c text ih =>
    have apart : c ≠ 0 := fun zero => clean (zero ▸ List.mem_cons_self ..)
    rw [List.cons_append, stringAt, if_neg apart, ih fun later => clean (List.mem_cons_of_mem _ later)]
    rfl

theorem beginsWith_append {front text : List α} (clean : 0 ∉ front) (behind : List α) :
    beginsWith front (text ++ 0 :: behind) = some (decide (front <+: text)) := by
  induction front generalizing text with
  | nil => simp [beginsWith]
  | cons c front ih =>
    have apart : c ≠ 0 := fun zero => clean (zero ▸ List.mem_cons_self ..)
    cases text with
    | nil => simp [beginsWith, apart]
    | cons d text =>
      rw [List.cons_append, beginsWith]
      by_cases same : c = d
      · rw [if_pos same, ih fun later => clean (List.mem_cons_of_mem _ later), same]
        simp [List.cons_prefix_cons]
      · rw [if_neg same]
        simp [List.cons_prefix_cons, same]

theorem takeWhile_ended {text : List α} (clean : 0 ∉ text) {behind : List α} (ended : ∀ c ∈ behind.head?, c = 0) :
    (text ++ behind).takeWhile (· ≠ 0) = text := by
  have passes : ∀ c ∈ text, decide (c ≠ 0) = true := fun c member => decide_eq_true fun zero => clean (zero ▸ member)
  rw [List.takeWhile_append_of_pos passes]
  cases behind with
  | nil => exact List.append_nil text
  | cons c behind => rw [ended c rfl, List.takeWhile_cons_of_neg (by simp), List.append_nil]

theorem takeWhile_clean {text : List α} (clean : 0 ∉ text) : text.takeWhile (· ≠ 0) = text := by
  have whole := @takeWhile_ended α _ _ text clean [] nofun
  rwa [List.append_nil] at whole

theorem clean_takeWhile (cells : List α) : 0 ∉ cells.takeWhile (· ≠ 0) := by
  intro member
  have passes := List.mem_takeWhile_imp member
  simp at passes

theorem takeWhile_zero (cells behind : List α) : (cells ++ 0 :: behind).takeWhile (· ≠ 0) = cells.takeWhile (· ≠ 0) := by
  induction cells with
  | nil => simp
  | cons c cells ih =>
    rw [List.cons_append]
    by_cases zero : c = 0
    · rw [List.takeWhile_cons_of_neg (by simpa using zero), List.takeWhile_cons_of_neg (by simpa using zero)]
    · rw [List.takeWhile_cons_of_pos (by simpa using zero), List.takeWhile_cons_of_pos (by simpa using zero), ih]

theorem distanceTo_append {front text : List α} {c : α} (clean : 0 ∉ front ++ c :: text) (first : c ∉ front)
    (behind : List α) : distanceTo c (front ++ c :: (text ++ 0 :: behind)) = some (some front.length) := by
  have memory : front ++ c :: (text ++ 0 :: behind) = (front ++ c :: text) ++ 0 :: behind := by simp
  have before : (front ++ c :: text).takeWhile (· ≠ c) = front := by
    rw [List.takeWhile_append_of_pos, List.takeWhile_cons_of_neg (by simp), List.append_nil]
    intro d member
    simp only [ne_eq, decide_not, Bool.not_eq_true', decide_eq_false_iff_not]
    exact fun same => first (same ▸ member)
  rw [distanceTo, memory, stringAt_append clean, Option.map_some, if_pos (by simp), before]

theorem distanceTo_absent {text : List α} {c : α} (clean : 0 ∉ text) (absent : c ∉ text) (behind : List α) :
    distanceTo c (text ++ 0 :: behind) = some none := by
  rw [distanceTo, stringAt_append clean, Option.map_some, if_neg absent]

end Memory
