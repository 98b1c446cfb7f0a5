import Mathlib.Data.List.Basic

/-! What a computation with errors ends in, rule by rule. -/

namespace Outcome

variable {ε α β : Type} {refused : ε → Prop} {P Q : α → Prop} {S : β → Prop}

def Ensures (refused : ε → Prop) (P : α → Prop) : Except ε α → Prop
  | .ok a => P a
  | .error e => refused e

theorem ok_of_toOption {r : Except ε α} {x : α} (kept : r.toOption = some x) : r = .ok x := by
  cases r with
  | error e => cases kept
  | ok y => exact congrArg Except.ok (Option.some.inj kept)

theorem Ensures.ok {a : α} (holds : P a) : Ensures refused P (.ok a) := holds

theorem Ensures.pure {a : α} (holds : P a) : Ensures refused P (Pure.pure a) := holds

theorem Ensures.error {e : ε} (may : refused e) : Ensures refused P (.error e) := may

theorem Ensures.bind {x : Except ε α} {f : α → Except ε β} (first : Ensures refused P x)
    (second : ∀ a, P a → Ensures refused S (f a)) : Ensures refused S (x >>= f) := by
  cases x with
  | ok a => exact second a first
  | error e => exact first

theorem Ensures.mono {x : Except ε α} (ends : Ensures refused P x) (weaker : ∀ a, P a → Q a) :
    Ensures refused Q x := by
  cases x with
  | ok a => exact weaker a ends
  | error e => exact ends

theorem Ensures.of_ok {x : Except ε α} {a : α} (ends : Ensures refused P x) (result : x = .ok a) : P a := by
  rw [result] at ends
  exact ends

theorem Ensures.of_error {x : Except ε α} {e : ε} (ends : Ensures refused P x) (result : x = .error e) :
    refused e := by
  rw [result] at ends
  exact ends

theorem bind_eq_ok {x : Except ε α} {f : α → Except ε β} {b : β} : x.bind f = .ok b ↔ ∃ a, x = .ok a ∧ f a = .ok b := by
  cases x with
  | error e => exact ⟨fun same => (by cases same), fun ⟨_, same, _⟩ => by cases same⟩
  | ok a =>
    constructor
    · exact fun same => ⟨a, rfl, same⟩
    · intro ⟨other, same, rest⟩
      cases same
      exact rest

theorem bind_ok (a : α) (f : α → Except ε β) : (Except.ok a >>= f) = f a := rfl

end Outcome
