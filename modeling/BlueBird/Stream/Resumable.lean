import Mathlib.Data.List.Basic

namespace Resumable

/-- A consumer of a stream of symbols that can be suspended between any two of them. A call
    returns the state and how many symbols were used: all of them while it runs, and none of
    those that come after it has stopped. -/
structure Feeder (σ α : Type) where
  feed : σ → List α → σ × Nat
  running : σ → Bool
  eats : ∀ s xs, running (feed s xs).1 → (feed s xs).2 = xs.length
  resumes : ∀ s xs ys, running (feed s xs).1 →
    feed s (xs ++ ys) = ((feed (feed s xs).1 ys).1, xs.length + (feed (feed s xs).1 ys).2)
  stops : ∀ s xs ys, ¬ running (feed s xs).1 → feed s (xs ++ ys) = feed s xs

namespace Feeder

variable {σ α : Type} (m : Feeder σ α)

/-- Offers the fragments in order until one of them stops the consumer. -/
def feedAll (s : σ) : List (List α) → σ × Nat
  | [] => (s, 0)
  | xs :: rest =>
    let r := m.feed s xs
    if m.running r.1 then
      let t := feedAll r.1 rest
      (t.1, r.2 + t.2)
    else r

theorem feedAll_flatten (s : σ) (settled : m.feed s [] = (s, 0)) (fragments : List (List α)) :
    m.feedAll s fragments = m.feed s fragments.flatten := by
  induction fragments generalizing s with
  | nil => simp [feedAll, settled]
  | cons xs rest ih =>
    simp only [feedAll, List.flatten_cons]
    by_cases running : m.running (m.feed s xs).1 = true
    · have still : m.feed (m.feed s xs).1 [] = ((m.feed s xs).1, 0) := by
        have again := m.resumes s xs [] running
        rw [List.append_nil] at again
        have count := m.eats s xs running
        apply Prod.ext
        · exact (congrArg Prod.fst again).symm
        · have := congrArg Prod.snd again
          simp only [count] at this
          simp only
          omega
      rw [if_pos running, ih _ still, m.resumes s xs rest.flatten running, m.eats s xs running]
    · rw [if_neg running, m.stops s xs rest.flatten running]

end Feeder
end Resumable
