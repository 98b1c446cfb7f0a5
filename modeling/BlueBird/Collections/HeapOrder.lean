import BlueBird.Collections.BinaryHeap
import Mathlib.Algebra.Ring.Nat

/-! The order of a binary heap, and what keeps it. -/

namespace BinaryHeap

open SwapRemove

variable {α : Type} (key : α → Nat)

def parent (i : Nat) : Nat := (i - 1) / 2

def keyAt (xs : List α) (i : Nat) : Nat := (xs[i]?.map key).getD 0

/-- No entry comes before its parent. -/
def Ordered (xs : List α) : Prop := ∀ i, 0 < i → i < xs.length → keyAt key xs (parent i) ≤ keyAt key xs i

/-- All pairs are in order but that of an entry and its parent, with the children of the entry in the order of its parent. -/
structure UpOrder (xs : List α) (hole : Nat) : Prop where
  pairs : ∀ i, 0 < i → i < xs.length → i ≠ hole → keyAt key xs (parent i) ≤ keyAt key xs i
  grand : 0 < hole → ∀ c, 0 < c → c < xs.length → parent c = hole → keyAt key xs (parent hole) ≤ keyAt key xs c

/-- All pairs are in order but those of an entry and its children, with the children in the order of the entry's parent. -/
structure DownOrder (xs : List α) (hole : Nat) : Prop where
  pairs : ∀ i, 0 < i → i < xs.length → parent i ≠ hole → keyAt key xs (parent i) ≤ keyAt key xs i
  grand : 0 < hole → ∀ c, 0 < c → c < xs.length → parent c = hole → keyAt key xs (parent hole) ≤ keyAt key xs c

/-! ## Keys by index -/

theorem parent_lt {i : Nat} (positive : 0 < i) : parent i < i := by
  unfold parent
  omega

variable {key}

theorem keyAt_eq {xs : List α} {i : Nat} {x : α} (here : xs[i]? = some x) : keyAt key xs i = key x := by
  unfold keyAt
  rw [here]
  rfl

theorem keyAt_congr {xs ys : List α} {i j : Nat} (same : xs[i]? = ys[j]?) : keyAt key xs i = keyAt key ys j := by
  unfold keyAt
  rw [same]

theorem length_swap (xs : List α) (a b : Nat) : (swap xs a b).length = xs.length := by
  unfold swap
  split
  · rw [List.length_set, List.length_set]
  · rfl

theorem getElem?_swap {xs : List α} {a b : Nat} (left : a < xs.length) (right : b < xs.length) (i : Nat) :
    (swap xs a b)[i]? = if i = b then xs[a]? else if i = a then xs[b]? else xs[i]? := by
  have atA : xs[a]? = some xs[a] := List.getElem?_eq_getElem left
  have atB : xs[b]? = some xs[b] := List.getElem?_eq_getElem right
  unfold swap
  rw [atA, atB]
  dsimp only
  by_cases isB : i = b
  · rw [if_pos isB, isB, List.getElem?_set_self (by rw [List.length_set]; exact right)]
  · rw [if_neg isB, List.getElem?_set_ne fun same => isB same.symm]
    by_cases isA : i = a
    · rw [if_pos isA, isA, List.getElem?_set_self left]
    · rw [if_neg isA, List.getElem?_set_ne fun same => isA same.symm]

theorem keyAt_swap {xs : List α} {a b : Nat} (left : a < xs.length) (right : b < xs.length) (i : Nat) :
    keyAt key (swap xs a b) i = if i = b then keyAt key xs a else if i = a then keyAt key xs b else keyAt key xs i := by
  unfold keyAt
  rw [getElem?_swap left right]
  split
  · rfl
  · split <;> rfl

theorem before_iff {xs : List α} {a b : Nat} :
    before key xs a b = true ↔ a < xs.length ∧ b < xs.length ∧ keyAt key xs a < keyAt key xs b := by
  unfold before
  by_cases left : a < xs.length
  · by_cases right : b < xs.length
    · have atA : xs[a]? = some xs[a] := List.getElem?_eq_getElem left
      have atB : xs[b]? = some xs[b] := List.getElem?_eq_getElem right
      rw [keyAt_eq atA, keyAt_eq atB, atA, atB]
      simp [left, right]
    · rw [List.getElem?_eq_none (Nat.le_of_not_lt right)]
      cases xs[a]? <;> simp [right]
  · rw [List.getElem?_eq_none (Nat.le_of_not_lt left)]
    simp [left]

/-! ## Moving up -/

theorem UpOrder.move {xs : List α} {hole : Nat} (order : UpOrder key xs hole) (positive : 0 < hole) (inside : hole < xs.length)
    (earlier : keyAt key xs hole < keyAt key xs (parent hole)) : UpOrder key (swap xs hole (parent hole)) (parent hole) := by
  have above := parent_lt positive
  have keys := @keyAt_swap α key xs hole (parent hole) inside (by omega)
  constructor
  · intro i first bound other
    rw [length_swap] at bound
    have lower := parent_lt first
    have fine := order.pairs i first bound
    rw [keys, keys, if_neg other]
    by_cases here : i = hole
    · rw [if_pos here, here, if_pos rfl]
      omega
    · have old := fine here
      rw [if_neg here]
      by_cases sibling : parent i = parent hole
      · rw [if_pos sibling]
        rw [sibling] at old
        omega
      · rw [if_neg sibling]
        by_cases child : parent i = hole
        · rw [if_pos child]
          exact order.grand positive i first bound child
        · rw [if_neg child]
          exact old
  · intro higher c first bound child
    rw [length_swap] at bound
    have top := parent_lt higher
    have upper := order.pairs (parent hole) higher (by omega) (by omega)
    have lower := parent_lt first
    rw [keys, keys, if_neg (by omega), if_neg (by omega), if_neg (by omega)]
    by_cases here : c = hole
    · rw [if_pos here]
      exact upper
    · rw [if_neg here]
      have old := order.pairs c first bound here
      rw [child] at old
      omega

theorem UpOrder.finish {xs : List α} {hole : Nat} (order : UpOrder key xs hole)
    (stops : 0 < hole → hole < xs.length → keyAt key xs (parent hole) ≤ keyAt key xs hole) : Ordered key xs := by
  intro i first bound
  by_cases here : i = hole
  · rw [here] at first bound ⊢
    exact stops first bound
  · exact order.pairs i first bound here

theorem siftUp_ordered {fuel : Nat} {xs : List α} {idx : Nat} (order : UpOrder key xs idx) (inside : idx < xs.length)
    (enough : idx ≤ fuel) : Ordered key (siftUp key fuel xs idx) := by
  induction fuel generalizing xs idx with
  | zero => exact order.finish fun positive => by omega
  | succ fuel ih =>
    unfold siftUp
    by_cases zero : idx = 0
    · rw [if_pos zero]
      exact order.finish fun positive => by omega
    · have positive : 0 < idx := by omega
      have above := parent_lt positive
      rw [if_neg zero]
      show Ordered key (if before key xs idx (parent idx) = true then siftUp key fuel (swap xs idx (parent idx)) (parent idx) else xs)
      by_cases earlier : before key xs idx (parent idx) = true
      · rw [if_pos earlier]
        exact ih (order.move positive inside (before_iff.mp earlier).2.2) (by rw [length_swap]; omega) (by omega)
      · rw [if_neg earlier]
        apply order.finish
        intro _ _
        apply Nat.le_of_not_lt
        intro less
        exact earlier (before_iff.mpr ⟨inside, by omega, less⟩)

theorem siftUp_stays {xs : List α} {idx : Nat} (order : 0 < idx → idx < xs.length → keyAt key xs (parent idx) ≤ keyAt key xs idx)
    (fuel : Nat) : siftUp key fuel xs idx = xs := by
  cases fuel with
  | zero => rfl
  | succ fuel =>
    unfold siftUp
    by_cases zero : idx = 0
    · rw [if_pos zero]
    · rw [if_neg zero]
      show (if before key xs idx (parent idx) = true then _ else xs) = xs
      rw [if_neg]
      intro earlier
      rcases before_iff.mp earlier with ⟨inside, _, less⟩
      have fine := order (by omega) inside
      omega

theorem getElem?_siftUp_behind {fuel : Nat} {xs : List α} {idx : Nat} (inside : idx < xs.length) {j : Nat} (behind : idx < j) :
    (siftUp key fuel xs idx)[j]? = xs[j]? := by
  induction fuel generalizing xs idx with
  | zero => rfl
  | succ fuel ih =>
    unfold siftUp
    by_cases zero : idx = 0
    · rw [if_pos zero]
    · rw [if_neg zero]
      have above := parent_lt (show 0 < idx by omega)
      show (if before key xs idx (parent idx) = true then
        siftUp key fuel (swap xs idx (parent idx)) (parent idx) else xs)[j]? = xs[j]?
      split
      · rw [ih (by rw [length_swap]; omega) (by omega), getElem?_swap inside (by omega), if_neg (by omega), if_neg (by omega)]
      · rfl

theorem getElem?_siftUp {fuel : Nat} {xs : List α} {idx : Nat} (inside : idx < xs.length) {j : Nat} (front : j ≤ idx) :
    ∃ i, i ≤ idx ∧ (siftUp key fuel xs idx)[j]? = xs[i]? := by
  induction fuel generalizing xs idx j with
  | zero => exact ⟨j, front, rfl⟩
  | succ fuel ih =>
    unfold siftUp
    by_cases zero : idx = 0
    · rw [if_pos zero]
      exact ⟨j, front, rfl⟩
    · rw [if_neg zero]
      have above := parent_lt (show 0 < idx by omega)
      show ∃ i, i ≤ idx ∧ (if before key xs idx (parent idx) = true then
        siftUp key fuel (swap xs idx (parent idx)) (parent idx) else xs)[j]? = xs[i]?
      have swapped : ∀ k, k ≤ idx → ∃ i, i ≤ idx ∧ (swap xs idx (parent idx))[k]? = xs[i]? := by
        intro k bound
        rw [getElem?_swap inside (by omega)]
        split
        · exact ⟨idx, Nat.le_refl _, rfl⟩
        · split
          · exact ⟨parent idx, by omega, rfl⟩
          · exact ⟨k, bound, rfl⟩
      split
      · by_cases higher : j ≤ parent idx
        · rcases ih (show parent idx < (swap xs idx (parent idx)).length by rw [length_swap]; omega) higher with ⟨k, bound, same⟩
          rcases swapped k (by omega) with ⟨i, low, again⟩
          exact ⟨i, low, same.trans again⟩
        · rcases swapped j front with ⟨i, low, again⟩
          refine ⟨i, low, (getElem?_siftUp_behind ?_ ?_).trans again⟩
          · rw [length_swap]
            omega
          · omega
      · exact ⟨j, front, rfl⟩

/-! ## Moving down -/

structure Smallest (xs : List α) (idx s : Nat) : Prop where
  place : s = idx ∨ (s < xs.length ∧ parent s = idx ∧ 0 < s ∧ keyAt key xs s < keyAt key xs idx)
  least : keyAt key xs s ≤ keyAt key xs idx
  children : ∀ c, 0 < c → c < xs.length → parent c = idx → keyAt key xs s ≤ keyAt key xs c

theorem smallest_spec {xs : List α} {idx : Nat} (inside : idx < xs.length) : @Smallest α key xs idx (smallest key xs idx) := by
  have children : ∀ c, 0 < c → parent c = idx → c = 2 * idx + 1 ∨ c = 2 * idx + 2 := by
    intro c positive child
    unfold parent at child
    omega
  have left : parent (2 * idx + 1) = idx := by
    unfold parent
    omega
  have right : parent (2 * idx + 2) = idx := by
    unfold parent
    omega
  unfold smallest
  dsimp only
  by_cases one : before key xs (2 * idx + 1) idx = true
  · rw [if_pos one]
    rcases before_iff.mp one with ⟨here, _, less⟩
    by_cases two : before key xs (2 * idx + 2) (2 * idx + 1) = true
    · rw [if_pos two]
      rcases before_iff.mp two with ⟨there, _, lesser⟩
      refine ⟨.inr ⟨there, right, by omega, by omega⟩, by omega, ?_⟩
      intro c positive bound child
      rcases children c positive child with rfl | rfl <;> omega
    · rw [if_neg two]
      refine ⟨.inr ⟨here, left, by omega, less⟩, by omega, ?_⟩
      intro c positive bound child
      rcases children c positive child with rfl | rfl
      · exact Nat.le_refl _
      · apply Nat.le_of_not_lt
        intro lesser
        exact two (before_iff.mpr ⟨bound, here, lesser⟩)
  · rw [if_neg one]
    by_cases two : before key xs (2 * idx + 2) idx = true
    · rw [if_pos two]
      rcases before_iff.mp two with ⟨there, _, less⟩
      refine ⟨.inr ⟨there, right, by omega, less⟩, by omega, ?_⟩
      intro c positive bound child
      rcases children c positive child with rfl | rfl
      · have fine : ¬ keyAt key xs (2 * idx + 1) < keyAt key xs idx := fun lesser => one (before_iff.mpr ⟨bound, inside, lesser⟩)
        omega
      · exact Nat.le_refl _
    · rw [if_neg two]
      refine ⟨.inl rfl, Nat.le_refl _, ?_⟩
      intro c positive bound child
      apply Nat.le_of_not_lt
      intro less
      rcases children c positive child with rfl | rfl
      · exact one (before_iff.mpr ⟨bound, inside, less⟩)
      · exact two (before_iff.mpr ⟨bound, inside, less⟩)

theorem DownOrder.move {xs : List α} {hole s : Nat} (order : DownOrder key xs hole) (inside : hole < xs.length)
    (found : @Smallest α key xs hole s) (moves : s ≠ hole) : DownOrder key (swap xs hole s) s := by
  rcases found.place with same | ⟨bound, child, positive, less⟩
  · exact absurd same moves
  have lower := parent_lt positive
  have keys := @keyAt_swap α key xs hole s inside bound
  constructor
  · intro i first within other
    rw [length_swap] at within
    have above := parent_lt first
    rw [keys, keys, if_neg other]
    by_cases here : i = s
    · rw [here, child, if_pos rfl, if_pos rfl]
      exact found.least
    · rw [if_neg here]
      by_cases sibling : parent i = hole
      · rw [if_pos sibling, if_neg (by omega)]
        exact found.children i first within sibling
      · rw [if_neg sibling]
        by_cases hole_ : i = hole
        · rw [if_pos hole_, hole_]
          rw [hole_] at first
          have upper := order.grand first s positive bound child
          exact upper
        · rw [if_neg hole_]
          exact order.pairs i first within sibling
  · intro _ c first within below
    rw [length_swap] at within
    have above := parent_lt first
    rw [keys, keys, child, if_neg (by omega), if_pos rfl, if_neg (by omega), if_neg (by omega)]
    have old := order.pairs c first within (by omega)
    rw [below] at old
    exact old

theorem DownOrder.finish {xs : List α} {hole : Nat} (order : DownOrder key xs hole) (found : @Smallest α key xs hole hole) :
    Ordered key xs := by
  intro i first bound
  by_cases child : parent i = hole
  · rw [child]
    exact found.children i first bound child
  · exact order.pairs i first bound child

theorem siftDown_ordered {fuel : Nat} {xs : List α} {idx : Nat} (order : DownOrder key xs idx) (inside : idx < xs.length)
    (enough : xs.length ≤ idx + fuel) : Ordered key (siftDown key fuel xs idx) := by
  induction fuel generalizing xs idx with
  | zero => omega
  | succ fuel ih =>
    have found := @smallest_spec α key xs idx inside
    unfold siftDown
    by_cases stays : smallest key xs idx = idx
    · rw [if_pos stays]
      rw [stays] at found
      exact order.finish found
    · rw [if_neg stays]
      rcases found.place with same | ⟨bound, child, positive, _⟩
      · exact absurd same stays
      · have lower := parent_lt positive
        exact ih (order.move inside found stays) (by rw [length_swap]; exact bound) (by rw [length_swap]; omega)

theorem getElem?_siftDown {fuel : Nat} {xs : List α} {idx : Nat} (inside : idx < xs.length) {j : Nat} (front : j < idx) :
    (siftDown key fuel xs idx)[j]? = xs[j]? := by
  induction fuel generalizing xs idx with
  | zero => rfl
  | succ fuel ih =>
    have found := @smallest_spec α key xs idx inside
    unfold siftDown
    split
    · rfl
    · rename_i stays
      rcases found.place with same | ⟨bound, child, positive, _⟩
      · exact absurd same stays
      · have lower := parent_lt positive
        rw [ih (by rw [length_swap]; exact bound) (by omega), getElem?_swap inside bound, if_neg (by omega), if_neg (by omega)]

theorem siftDown_stays {xs : List α} {idx : Nat} (least : ∀ c, 0 < c → c < xs.length → parent c = idx → keyAt key xs idx ≤ keyAt key xs c)
    (inside : idx < xs.length) (fuel : Nat) : siftDown key fuel xs idx = xs := by
  cases fuel with
  | zero => rfl
  | succ fuel =>
    unfold siftDown
    rw [if_pos]
    rcases (@smallest_spec α key xs idx inside).place with same | ⟨bound, child, positive, less⟩
    · exact same
    · have fine := least _ positive bound child
      omega

/-! ## The operations -/

theorem Ordered.root {xs : List α} (order : Ordered key xs) {i : Nat} (bound : i < xs.length) : keyAt key xs 0 ≤ keyAt key xs i := by
  induction i using Nat.strong_induction_on with
  | _ i ih =>
    by_cases zero : i = 0
    · rw [zero]
    · have lower := parent_lt (show 0 < i by omega)
      exact Nat.le_trans (ih (parent i) lower (by omega)) (order i (by omega) bound)

theorem push_ordered {xs : List α} (order : Ordered key xs) (x : α) : Ordered key (push key xs x) := by
  unfold push
  apply siftUp_ordered
  · constructor
    · intro i first bound other
      rw [List.length_append, List.length_singleton] at bound
      have lower := parent_lt first
      have old := order i first (by omega)
      rw [keyAt_congr (List.getElem?_append_left (by omega)), keyAt_congr (List.getElem?_append_left (by omega))]
      exact old
    · intro _ c first bound child
      rw [List.length_append, List.length_singleton] at bound
      have lower := parent_lt first
      omega
  · rw [List.length_append, List.length_singleton]
    omega
  · exact Nat.le_refl _

theorem rescheduleTop_ordered {xs : List α} (order : Ordered key xs) (update : α → α) :
    Ordered key (rescheduleTop key xs update) := by
  cases xs with
  | nil => exact order
  | cons x rest =>
    show Ordered key (siftDown key (rest.length + 1) (update x :: rest) 0)
    apply siftDown_ordered
    · constructor
      · intro i first bound other
        rw [List.length_cons] at bound
        have old := order i first (by rw [List.length_cons]; exact bound)
        have above : 0 < parent i := Nat.pos_of_ne_zero other
        have upper : keyAt key (update x :: rest) (parent i) = keyAt key (x :: rest) (parent i) := by
          apply keyAt_congr
          rw [show parent i = parent i - 1 + 1 by omega]
          rfl
        have lower : keyAt key (update x :: rest) i = keyAt key (x :: rest) i := by
          apply keyAt_congr
          rw [show i = i - 1 + 1 by omega]
          rfl
        rw [upper, lower]
        exact old
      · intro impossible
        omega
    · exact Nat.zero_lt_succ _
    · rw [List.length_cons]
      omega

/-! ## Removal -/

section
variable {xs : List α} {idx : Nat} {last : α}

theorem getElem?_swapRemove (found : xs.getLast? = some last) {j : Nat} (bound : j + 1 < xs.length) :
    (swapRemove xs idx)[j]? = if j = idx then some last else xs[j]? := by
  unfold swapRemove
  rw [found]
  dsimp only
  rw [List.dropLast_eq_take, List.length_set, List.getElem?_take_of_lt (by omega)]
  by_cases here : j = idx
  · rw [if_pos here, here, List.getElem?_set_self (by omega)]
  · rw [if_neg here, List.getElem?_set_ne fun same => here same.symm]

theorem getElem?_swapRemove_last (inside : idx + 1 = xs.length) {j : Nat} (bound : j < idx) :
    (swapRemove xs idx)[j]? = xs[j]? := by
  unfold swapRemove
  cases found : xs.getLast? with
  | none =>
    rw [List.getLast?_eq_none_iff] at found
    rw [found, List.length_nil] at inside
    omega
  | some last =>
    dsimp only
    rw [List.dropLast_eq_take, List.length_set, List.getElem?_take_of_lt (by omega), List.getElem?_set_ne (by omega)]

theorem keyAt_swapRemove (found : xs.getLast? = some last) {j : Nat} (bound : j + 1 < xs.length) :
    keyAt key (swapRemove xs idx) j = if j = idx then key last else keyAt key xs j := by
  have entry : (swapRemove xs idx)[j]? = if j = idx then some last else xs[j]? := getElem?_swapRemove found bound
  by_cases here : j = idx
  · rw [if_pos here] at entry ⊢
    exact keyAt_eq entry
  · rw [if_neg here] at entry ⊢
    exact keyAt_congr entry

theorem swapRemove_pairs (order : Ordered key xs) (inside : idx + 1 < xs.length) (found : xs.getLast? = some last) :
    (∀ i, 0 < i → i + 1 < xs.length → i ≠ idx → parent i ≠ idx →
      keyAt key (swapRemove xs idx) (parent i) ≤ keyAt key (swapRemove xs idx) i) ∧
    (0 < idx → ∀ c, 0 < c → c + 1 < xs.length → parent c = idx →
      keyAt key (swapRemove xs idx) (parent idx) ≤ keyAt key (swapRemove xs idx) c) := by
  constructor
  · intro i first bound other away
    have lower := parent_lt first
    rw [keyAt_swapRemove found bound, keyAt_swapRemove found (show parent i + 1 < xs.length by omega), if_neg other,
      if_neg away]
    exact order i first (by omega)
  · intro positive c first bound child
    have lower := parent_lt first
    have above := parent_lt positive
    rw [keyAt_swapRemove found bound, keyAt_swapRemove found (show parent idx + 1 < xs.length by omega),
      if_neg (by omega), if_neg (by omega)]
    have old := order c first (by omega)
    rw [child] at old
    exact Nat.le_trans (order idx positive (by omega)) old

theorem removeAt_inner (inside : idx + 1 < xs.length) :
    removeAt key xs idx = siftUp key idx (siftDown key (xs.length - 1) (swapRemove xs idx) idx) idx := by
  have length := length_swapRemove xs idx
  unfold removeAt
  dsimp only
  rw [if_neg (by omega), length]

theorem removeAt_down (order : Ordered key xs) (inside : idx + 1 < xs.length) (found : xs.getLast? = some last)
    (late : 0 < idx → keyAt key xs (parent idx) ≤ key last) :
    Ordered key (removeAt key xs idx) ∧ ∀ j, j < idx → (removeAt key xs idx)[j]? = xs[j]? := by
  rcases swapRemove_pairs order inside found with ⟨pairs, grand⟩
  have length := length_swapRemove xs idx
  have down : DownOrder key (swapRemove xs idx) idx := by
    constructor
    · intro i first bound away
      by_cases here : i = idx
      · rw [here] at first ⊢
        have above := parent_lt first
        rw [keyAt_swapRemove found inside, keyAt_swapRemove found (show parent idx + 1 < xs.length by omega),
          if_pos rfl, if_neg (by omega)]
        exact late first
      · exact pairs i first (by omega) here away
    · intro positive c first bound child
      exact grand positive c first (by omega) child
  have ordered := @siftDown_ordered α key (xs.length - 1) _ idx down (by omega) (by omega)
  have stays := @siftUp_stays α key _ idx (fun positive bound => ordered idx positive bound) idx
  rw [removeAt_inner inside, stays]
  refine ⟨ordered, ?_⟩
  intro j front
  rw [getElem?_siftDown (by omega) front, getElem?_swapRemove found (by omega), if_neg (by omega)]

theorem removeAt_up (order : Ordered key xs) (inside : idx + 1 < xs.length) (found : xs.getLast? = some last)
    (positive : 0 < idx) (early : key last < keyAt key xs (parent idx)) :
    Ordered key (removeAt key xs idx) ∧
      ∀ j, j < idx → (removeAt key xs idx)[j]? = some last ∨ ∃ i, i < idx ∧ (removeAt key xs idx)[j]? = xs[i]? := by
  rcases swapRemove_pairs order inside found with ⟨pairs, grand⟩
  have length := length_swapRemove xs idx
  have above := parent_lt positive
  have placed : keyAt key (swapRemove xs idx) idx = key last := by
    rw [keyAt_swapRemove found inside, if_pos rfl]
  have upper : keyAt key (swapRemove xs idx) (parent idx) = keyAt key xs (parent idx) := by
    rw [keyAt_swapRemove found (by omega), if_neg (by omega)]
  have children : ∀ c, 0 < c → c < (swapRemove xs idx).length → parent c = idx →
      keyAt key (swapRemove xs idx) idx ≤ keyAt key (swapRemove xs idx) c := by
    intro c first bound child
    have around := grand positive c first (by omega) child
    omega
  have stays := @siftDown_stays α key _ idx children (by omega) (xs.length - 1)
  have up : UpOrder key (swapRemove xs idx) idx := by
    constructor
    · intro i first bound other
      by_cases child : parent i = idx
      · rw [child]
        exact children i first bound child
      · exact pairs i first (by omega) other child
    · intro _ c first bound child
      exact grand positive c first (by omega) child
  rw [removeAt_inner inside, stays]
  refine ⟨siftUp_ordered up (by omega) (Nat.le_refl _), ?_⟩
  intro j front
  rcases @getElem?_siftUp α key idx (swapRemove xs idx) idx (by omega) j (by omega) with ⟨i, low, same⟩
  rw [same, getElem?_swapRemove found (by omega)]
  by_cases here : i = idx
  · rw [if_pos here]
    exact .inl rfl
  · rw [if_neg here]
    exact .inr ⟨i, by omega, rfl⟩

theorem removeAt_last (order : Ordered key xs) (inside : idx + 1 = xs.length) :
    Ordered key (removeAt key xs idx) ∧ ∀ j, j < idx → (removeAt key xs idx)[j]? = xs[j]? := by
  have length := length_swapRemove xs idx
  have whole : removeAt key xs idx = swapRemove xs idx := by
    unfold removeAt
    dsimp only
    rw [if_pos (by omega)]
  rw [whole]
  refine ⟨?_, fun j front => getElem?_swapRemove_last inside front⟩
  intro i first bound
  have lower := parent_lt first
  rw [keyAt_congr (getElem?_swapRemove_last inside (show parent i < idx by omega)),
    keyAt_congr (getElem?_swapRemove_last inside (show i < idx by omega))]
  exact order i first (by omega)

end

theorem removeAt_ordered {xs : List α} {idx : Nat} (order : Ordered key xs) (bound : idx < xs.length) :
    Ordered key (removeAt key xs idx) := by
  by_cases inside : idx + 1 < xs.length
  · have some_ : xs ≠ [] := by
      intro empty
      rw [empty, List.length_nil] at bound
      omega
    have found := List.getLast?_eq_some_getLast some_
    by_cases late : 0 < idx → keyAt key xs (parent idx) ≤ key (xs.getLast some_)
    · exact (removeAt_down order inside found late).1
    · have both : 0 < idx ∧ key (xs.getLast some_) < keyAt key xs (parent idx) := by omega
      exact (removeAt_up order inside found both.1 both.2).1
  · exact (removeAt_last order (by omega)).1

/-! ## Removing what belongs to someone -/

section
variable (key) (mine : α → Bool)

/-- `removeAll` with the number of the removed entries. -/
def removeCounting : Nat → Nat → Nat → List α → Nat × List α
  | 0, _, removed, xs => (removed, xs)
  | fuel + 1, i, removed, xs =>
    match xs[i]? with
    | none => (removed, xs)
    | some x =>
      if mine x then removeCounting fuel i (removed + 1) (removeAt key xs i) else removeCounting fuel (i + 1) removed xs

/-- Whenever an entry is removed, the last one, which takes its place, is someone else's or comes no earlier than the
    parent of that place. -/
def Steady : Nat → Nat → List α → Prop
  | 0, _, _ => True
  | fuel + 1, i, xs =>
    match xs[i]? with
    | none => True
    | some x =>
      if mine x then
        (0 < i → i + 1 < xs.length → ∀ last, xs.getLast? = some last → mine last = true → keyAt key xs (parent i) ≤ key last) ∧
          Steady fuel i (removeAt key xs i)
      else Steady fuel (i + 1) xs

end

variable {mine : α → Bool}

theorem length_removeAt {xs : List α} {idx : Nat} (bound : idx < xs.length) : (removeAt key xs idx).length + 1 = xs.length := by
  have parts := (removeAt_perm key xs idx _ (List.getElem?_eq_getElem bound)).length_eq
  rw [List.length_cons] at parts
  exact parts.symm

theorem removeCounting_eq (fuel i removed : Nat) (xs : List α) :
    (removeCounting key mine fuel i removed xs).2 = removeAll key mine fuel i xs ∧
      (removeCounting key mine fuel i removed xs).1 + (removeAll key mine fuel i xs).length = removed + xs.length := by
  induction fuel generalizing i removed xs with
  | zero => exact ⟨rfl, rfl⟩
  | succ fuel ih =>
    unfold removeCounting removeAll
    cases here : xs[i]? with
    | none => exact ⟨rfl, rfl⟩
    | some x =>
      dsimp only
      cases own : mine x with
      | true =>
        rw [if_pos rfl, if_pos rfl]
        have shorter := @length_removeAt α key xs i (List.getElem?_eq_some_iff.mp here).1
        rcases ih i (removed + 1) (removeAt key xs i) with ⟨same, total⟩
        exact ⟨same, by omega⟩
      | false =>
        rw [if_neg Bool.false_ne_true, if_neg Bool.false_ne_true]
        exact ih (i + 1) removed xs

theorem removeCounting_stable {fuel i removed : Nat} {xs : List α} (enough : xs.length ≤ i + fuel) :
    removeCounting key mine (fuel + 1) i removed xs = removeCounting key mine fuel i removed xs := by
  induction fuel generalizing i removed xs with
  | zero =>
    unfold removeCounting
    rw [List.getElem?_eq_none (by omega)]
  | succ fuel ih =>
    rw [removeCounting]
    conv => rhs; rw [removeCounting]
    cases here : xs[i]? with
    | none => rfl
    | some x =>
      have shorter := @length_removeAt α key xs i (List.getElem?_eq_some_iff.mp here).1
      dsimp only
      split
      · exact ih (by omega)
      · exact ih (by omega)

theorem removeAll_ordered {fuel i : Nat} {xs : List α} (order : Ordered key xs) : Ordered key (removeAll key mine fuel i xs) := by
  induction fuel generalizing i xs with
  | zero => exact order
  | succ fuel ih =>
    unfold removeAll
    cases here : xs[i]? with
    | none => exact order
    | some x =>
      dsimp only
      split
      · exact ih (removeAt_ordered order (List.getElem?_eq_some_iff.mp here).1)
      · exact ih order

theorem removeAt_passed {xs : List α} {i : Nat} (order : Ordered key xs) (bound : i < xs.length)
    (passed : ∀ j, j < i → ∀ x, xs[j]? = some x → mine x = false)
    (steady : 0 < i → i + 1 < xs.length → ∀ last, xs.getLast? = some last → mine last = true → keyAt key xs (parent i) ≤ key last) :
    ∀ j, j < i → ∀ x, (removeAt key xs i)[j]? = some x → mine x = false := by
  intro j front x here
  by_cases inside : i + 1 < xs.length
  · have some_ : xs ≠ [] := by
      intro empty
      rw [empty, List.length_nil] at bound
      omega
    have found := List.getLast?_eq_some_getLast some_
    by_cases late : keyAt key xs (parent i) ≤ key (xs.getLast some_)
    · rw [(removeAt_down order inside found fun _ => late).2 j front] at here
      exact passed j front x here
    · rcases (removeAt_up order inside found (by omega) (by omega)).2 j front with last | ⟨k, low, same⟩
      · rw [here] at last
        rw [Option.some.inj last]
        apply Bool.eq_false_iff.mpr
        intro own
        exact late (steady (by omega) inside _ found own)
      · rw [same] at here
        exact passed k low x here
  · rw [(removeAt_last order (by omega)).2 j front] at here
    exact passed j front x here

theorem all_of_passed {xs : List α} {i : Nat} (beyond : xs.length ≤ i)
    (passed : ∀ j, j < i → ∀ x, xs[j]? = some x → mine x = false) : ∀ x ∈ xs, mine x = false := by
  intro x member
  rcases List.getElem?_of_mem member with ⟨j, here⟩
  exact passed j (Nat.lt_of_lt_of_le (List.getElem?_eq_some_iff.mp here).1 beyond) x here

theorem removeAll_gone {fuel i : Nat} {xs : List α} (order : Ordered key xs) (enough : xs.length ≤ i + fuel)
    (passed : ∀ j, j < i → ∀ x, xs[j]? = some x → mine x = false) (steady : Steady key mine fuel i xs) :
    ∀ x ∈ removeAll key mine fuel i xs, mine x = false := by
  induction fuel generalizing i xs with
  | zero =>
    show ∀ x ∈ xs, mine x = false
    exact all_of_passed (by omega) passed
  | succ fuel ih =>
    unfold removeAll
    unfold Steady at steady
    cases here : xs[i]? with
    | none => exact all_of_passed (List.getElem?_eq_none_iff.mp here) passed
    | some x =>
      rw [here] at steady
      have bound := (List.getElem?_eq_some_iff.mp here).1
      have shorter := @length_removeAt α key xs i bound
      dsimp only at steady ⊢
      cases own : mine x with
      | true =>
        rw [own, if_pos rfl] at steady
        rw [if_pos rfl]
        exact ih (removeAt_ordered order bound) (by omega) (removeAt_passed order bound passed steady.1) steady.2
      | false =>
        rw [own, if_neg Bool.false_ne_true] at steady
        rw [if_neg Bool.false_ne_true]
        apply ih order (by omega) _ steady
        intro j front y at_
        by_cases last : j = i
        · rw [last, here] at at_
          rw [← Option.some.inj at_]
          exact own
        · exact passed j (by omega) y at_

end BinaryHeap
