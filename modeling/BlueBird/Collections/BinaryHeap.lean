import BlueBird.Collections.SwapRemove

namespace BinaryHeap

open SwapRemove

variable {α : Type} (key : α → Nat)

/-! ## The heap in an array -/

def swap (xs : List α) (a b : Nat) : List α :=
  match xs[a]?, xs[b]? with
  | some x, some y => (xs.set a y).set b x
  | _, _ => xs

/-- Whether the entry at `a` comes strictly before the one at `b`. -/
def before (xs : List α) (a b : Nat) : Bool :=
  match xs[a]?, xs[b]? with
  | some x, some y => key x < key y
  | _, _ => false

def siftUp : Nat → List α → Nat → List α
  | 0, xs, _ => xs
  | fuel + 1, xs, idx =>
    if idx = 0 then xs
    else
      let parent := (idx - 1) / 2
      if before key xs idx parent then siftUp fuel (swap xs idx parent) parent else xs

def smallest (xs : List α) (idx : Nat) : Nat :=
  let left := 2 * idx + 1
  let right := 2 * idx + 2
  let smallest := if before key xs left idx then left else idx
  if before key xs right smallest then right else smallest

def siftDown : Nat → List α → Nat → List α
  | 0, xs, _ => xs
  | fuel + 1, xs, idx =>
    if smallest key xs idx = idx then xs
    else siftDown fuel (swap xs idx (smallest key xs idx)) (smallest key xs idx)

def push (xs : List α) (x : α) : List α :=
  siftUp key xs.length (xs ++ [x]) xs.length

def removeAt (xs : List α) (idx : Nat) : List α :=
  let xs := swapRemove xs idx
  if idx = xs.length then xs
  else siftUp key idx (siftDown key xs.length xs idx) idx

def rescheduleTop (xs : List α) (update : α → α) : List α :=
  match xs with
  | [] => []
  | x :: rest => siftDown key (rest.length + 1) (update x :: rest) 0

/-- Removes what belongs to someone, looking again at the place of a removed entry. -/
def removeAll (mine : α → Bool) : Nat → Nat → List α → List α
  | 0, _, xs => xs
  | fuel + 1, i, xs =>
    match xs[i]? with
    | none => xs
    | some x =>
      if mine x then removeAll mine fuel i (removeAt key xs i) else removeAll mine fuel (i + 1) xs

/-! ## Entries are moved, never lost -/

theorem swap_perm (xs : List α) (a b : Nat) : (swap xs a b).Perm xs := by
  unfold swap
  split
  · rename_i x y atA atB
    obtain ⟨insideA, rfl⟩ := List.getElem?_eq_some_iff.mp atA
    obtain ⟨insideB, rfl⟩ := List.getElem?_eq_some_iff.mp atB
    exact List.set_set_perm insideA insideB
  · exact List.Perm.refl xs

theorem siftUp_perm (fuel : Nat) (xs : List α) (idx : Nat) : (siftUp key fuel xs idx).Perm xs := by
  induction fuel generalizing xs idx with
  | zero => exact List.Perm.refl xs
  | succ fuel ih =>
    unfold siftUp
    dsimp only
    split
    · exact List.Perm.refl xs
    · split
      · exact (ih _ _).trans (swap_perm _ _ _)
      · exact List.Perm.refl xs

theorem siftDown_perm (fuel : Nat) (xs : List α) (idx : Nat) : (siftDown key fuel xs idx).Perm xs := by
  induction fuel generalizing xs idx with
  | zero => exact List.Perm.refl xs
  | succ fuel ih =>
    unfold siftDown
    split
    · exact List.Perm.refl xs
    · exact (ih _ _).trans (swap_perm _ _ _)

theorem push_perm (xs : List α) (x : α) : (push key xs x).Perm (x :: xs) :=
  (siftUp_perm key _ _ _).trans (List.perm_append_singleton x xs)

theorem removeAt_perm (xs : List α) (idx : Nat) (x : α) (found : xs[idx]? = some x) :
    xs.Perm (x :: removeAt key xs idx) := by
  refine (swapRemove_perm xs idx x found).trans (List.Perm.cons x ?_)
  unfold removeAt
  dsimp only
  split
  · exact List.Perm.refl _
  · exact ((siftUp_perm key _ _ _).trans (siftDown_perm key _ _ _)).symm

theorem rescheduleTop_perm (x : α) (rest : List α) (update : α → α) :
    (rescheduleTop key (x :: rest) update).Perm (update x :: rest) :=
  siftDown_perm key _ _ _

theorem removeAll_filter (mine : α → Bool) (fuel i : Nat) (xs : List α) :
    ((removeAll key mine fuel i xs).filter fun x => !mine x).Perm (xs.filter fun x => !mine x) := by
  induction fuel generalizing i xs with
  | zero => exact List.Perm.refl _
  | succ fuel ih =>
    unfold removeAll
    split
    · exact List.Perm.refl _
    · rename_i x here
      split
      · rename_i own
        have parts := (removeAt_perm key xs i x here).filter fun x => !mine x
        rw [List.filter_cons_of_neg (by simp [own])] at parts
        exact (ih _ _).trans parts.symm
      · exact ih _ _

theorem removeAll_none (mine : α → Bool) (fuel i : Nat) (xs : List α) (clear : ∀ x ∈ xs, mine x = false) :
    removeAll key mine fuel i xs = xs := by
  induction fuel generalizing i xs with
  | zero => rfl
  | succ fuel ih =>
    unfold removeAll
    split
    · rfl
    · rename_i x here
      rw [if_neg (by simp [clear x (List.mem_of_getElem? here)])]
      exact ih _ _ clear

theorem removeAll_clear (mine : α → Bool) (fuel i : Nat) (xs : List α) (enough : xs.length - i ≤ fuel)
    (passed : ∀ x ∈ xs.take i, mine x = false) (single : xs.countP mine ≤ 1) :
    ∀ x ∈ removeAll key mine fuel i xs, mine x = false := by
  induction fuel generalizing i xs with
  | zero =>
    rw [List.take_of_length_le (by omega)] at passed
    exact passed
  | succ fuel ih =>
    unfold removeAll
    split
    · rename_i beyond
      rw [List.take_of_length_le (List.getElem?_eq_none_iff.mp beyond)] at passed
      exact passed
    · rename_i x here
      obtain ⟨inside, atI⟩ := List.getElem?_eq_some_iff.mp here
      split
      · rename_i own
        have parts := (removeAt_perm key xs i x here).countP_eq mine
        rw [List.countP_cons_of_pos own] at parts
        have clear : ∀ y ∈ removeAt key xs i, mine y = false := by
          have none := List.countP_eq_zero.mp (show (removeAt key xs i).countP mine = 0 by omega)
          exact fun y member => by simpa using none y member
        rw [removeAll_none key mine fuel i _ clear]
        exact clear
      · rename_i other
        apply ih (i + 1) xs (by omega) _ single
        intro y member
        rw [List.take_succ_eq_append_getElem inside, List.mem_append, List.mem_singleton, atI] at member
        rcases member with old | rfl
        · exact passed y old
        · simpa using other

end BinaryHeap
