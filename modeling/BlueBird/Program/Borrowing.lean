import Mathlib.Logic.Function.Basic

/-! Things that are lent, each to one holder at a time. -/

namespace Borrowing

variable {ρ η : Type} [DecidableEq η]

structure Exclusive (inUse : ρ → Prop) (held : η → Option ρ) : Prop where
  owned : ∀ r, inUse r ↔ ∃ h, held h = some r
  single : ∀ h h' r, held h = some r → held h' = some r → h = h'

variable {inUse inUse' : ρ → Prop} {held : η → Option ρ} {h : η} {r : ρ}

theorem Exclusive.take (exclusive : Exclusive inUse held) (free : ¬ inUse r) (idle : held h = none)
    (taken : ∀ s, inUse' s ↔ s = r ∨ inUse s) : Exclusive inUse' (Function.update held h (some r)) := by
  have others : ∀ k s, k ≠ h → (Function.update held h (some r) k = some s ↔ held k = some s) := by
    intro k s other
    rw [Function.update_of_ne other]
  constructor
  · intro s
    rw [taken, exclusive.owned]
    constructor
    · intro either
      rcases either with rfl | ⟨k, holds⟩
      · exact ⟨h, Function.update_self h _ held⟩
      · have other : k ≠ h := by
          rintro rfl
          rw [idle] at holds
          cases holds
        exact ⟨k, (others k s other).mpr holds⟩
    · intro ⟨k, holds⟩
      by_cases same : k = h
      · rw [same, Function.update_self] at holds
        exact Or.inl (Option.some.inj holds).symm
      · exact Or.inr ⟨k, (others k s same).mp holds⟩
  · have alone : ∀ k, k ≠ h → ¬ Function.update held h (some r) k = some r := by
      intro k other holds
      exact free ((exclusive.owned r).mpr ⟨k, (others k r other).mp holds⟩)
    intro k k' s holds holds'
    by_cases same : k = h
    · by_cases same' : k' = h
      · rw [same, same']
      · rw [same, Function.update_self] at holds
        rw [← Option.some.inj holds] at holds'
        exact absurd holds' (alone k' same')
    · by_cases same' : k' = h
      · rw [same', Function.update_self] at holds'
        rw [← Option.some.inj holds'] at holds
        exact absurd holds (alone k same)
      · exact exclusive.single k k' s ((others k s same).mp holds) ((others k' s same').mp holds')

theorem Exclusive.give (exclusive : Exclusive inUse held) (holds : held h = some r)
    (left : ∀ s, inUse' s ↔ s ≠ r ∧ inUse s) : Exclusive inUse' (Function.update held h none) := by
  have others : ∀ k s, Function.update held h none k = some s ↔ k ≠ h ∧ held k = some s := by
    intro k s
    by_cases same : k = h
    · rw [same, Function.update_self]
      exact ⟨fun none_ => (by cases none_), fun both => absurd rfl both.1⟩
    · rw [Function.update_of_ne same]
      exact ⟨fun own => ⟨same, own⟩, fun both => both.2⟩
  constructor
  · intro s
    rw [left, exclusive.owned]
    constructor
    · intro ⟨other, k, own⟩
      refine ⟨k, (others k s).mpr ⟨?_, own⟩⟩
      rintro rfl
      rw [holds] at own
      exact other (Option.some.inj own).symm
    · intro ⟨k, own⟩
      rcases (others k s).mp own with ⟨other, still⟩
      refine ⟨?_, k, still⟩
      rintro rfl
      exact other (exclusive.single k h s still holds)
  · intro k k' s own own'
    exact exclusive.single k k' s ((others k s).mp own).2 ((others k' s).mp own').2

end Borrowing
