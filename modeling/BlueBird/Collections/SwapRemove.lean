import Mathlib.Data.List.Perm.Basic

namespace SwapRemove

variable {α σ : Type}

/-- Puts the last entry in the place of entry `i`, and shortens the array. -/
def swapRemove (xs : List α) (i : Nat) : List α :=
  match xs.getLast? with
  | none => []
  | some last => (xs.set i last).dropLast

theorem swapRemove_perm (xs : List α) (i : Nat) (x : α) (found : xs[i]? = some x) :
    xs.Perm (x :: swapRemove xs i) := by
  obtain ⟨inside, rfl⟩ := List.getElem?_eq_some_iff.mp found
  obtain ⟨front, last, rfl⟩ : ∃ front last, xs = front ++ [last] := by
    have nonempty : xs ≠ [] := List.ne_nil_of_length_pos (by omega)
    exact ⟨xs.dropLast, xs.getLast nonempty, (List.dropLast_append_getLast nonempty).symm⟩
  by_cases atEnd : i = front.length
  · subst atEnd
    simp [swapRemove]
  · have before : i < front.length := by
      simp only [List.length_append, List.length_singleton] at inside
      omega
    have removed : swapRemove (front ++ [last]) i = front.set i last := by
      simp [swapRemove, List.set_append_left _ _ before]
    rw [removed, List.getElem_append_left before]
    calc (front ++ [last]).Perm (last :: front) := List.perm_append_singleton last front
      _ |>.Perm (last :: front[i] :: front.eraseIdx i) :=
          (List.getElem_cons_eraseIdx_perm before).symm.cons last
      _ |>.Perm (front[i] :: last :: front.eraseIdx i) := List.Perm.swap _ _ _
      _ |>.Perm (front[i] :: front.set i last) := (List.set_perm_cons_eraseIdx before last).symm.cons _

theorem mem_of_mem_swapRemove {xs : List α} {i : Nat} {y : α} (member : y ∈ swapRemove xs i) : y ∈ xs := by
  unfold swapRemove at member
  cases last : xs.getLast? with
  | none =>
    rw [last] at member
    cases member
  | some z =>
    rw [last] at member
    rcases List.mem_or_eq_of_mem_set (List.dropLast_subset _ member) with old | rfl
    · exact old
    · exact List.mem_of_getLast? last

theorem length_swapRemove (xs : List α) (i : Nat) : (swapRemove xs i).length = xs.length - 1 := by
  unfold swapRemove
  split
  · rename_i empty
    rw [List.getLast?_eq_none_iff.mp empty]
    rfl
  · simp

theorem take_swapRemove (xs : List α) (i : Nat) (inside : i < xs.length) :
    (swapRemove xs i).take i = xs.take i := by
  unfold swapRemove
  split
  · rename_i empty
    rw [List.getLast?_eq_none_iff.mp empty]
  · rw [List.dropLast_eq_take, List.take_take, List.length_set, Nat.min_eq_left (by omega),
      List.take_set_of_le (Nat.le_refl i)]

theorem drop_swapRemove (xs : List α) (i : Nat) (x : α) (found : xs[i]? = some x) :
    ((swapRemove xs i).drop i).Perm (xs.drop (i + 1)) := by
  obtain ⟨inside, atI⟩ := List.getElem?_eq_some_iff.mp found
  have ahead : xs.drop i = x :: xs.drop (i + 1) := by rw [← atI, List.drop_eq_getElem_cons inside]
  have whole := swapRemove_perm xs i x found
  have parts : (xs.take i ++ x :: xs.drop (i + 1)).Perm
      (x :: (xs.take i ++ (swapRemove xs i).drop i)) := by
    rw [← ahead, List.take_append_drop, ← take_swapRemove xs i inside, List.take_append_drop]
    exact whole
  exact ((List.perm_append_left_iff _).mp (List.perm_middle.symm.trans parts).cons_inv).symm

theorem modify_split (p : α → Bool) (xs : List α) (idx : Nat) (found : xs.findIdx? p = some idx)
    (f : α → α) :
    ∃ x rest, xs[idx]? = some x ∧ p x = true ∧ xs.Perm (x :: rest) ∧ (xs.modify idx f).Perm (f x :: rest) ∧
      (xs.modify idx f)[idx]? = some (f x) := by
  obtain ⟨inside, same, _⟩ := List.findIdx?_eq_some_iff_getElem.mp found
  refine ⟨xs[idx], xs.eraseIdx idx, List.getElem?_eq_getElem inside, same, ?_, ?_, ?_⟩
  · exact (List.getElem_cons_eraseIdx_perm inside).symm
  · rw [List.modify_eq_set_getElem?, List.getElem?_eq_getElem inside]
    exact List.set_perm_cons_eraseIdx inside _
  · simp [inside]

/-- Goes through the array; an entry that is removed gives its place to the last one, which is
    looked at next. -/
def scan (remove : α → Bool) (visit : σ → α → σ) : Nat → Nat → List α → σ → List α × σ
  | 0, _, xs, s => (xs, s)
  | fuel + 1, i, xs, s =>
    match xs[i]? with
    | none => (xs, s)
    | some x =>
      if remove x then scan remove visit fuel i (swapRemove xs i) (visit s x)
      else scan remove visit fuel (i + 1) xs (visit s x)

theorem scan_spec (remove : α → Bool) (visit : σ → α → σ) (fuel i : Nat) (xs : List α) (s : σ)
    (enough : xs.length - i ≤ fuel) :
    ∃ order : List α, order.Perm (xs.drop i) ∧ (scan remove visit fuel i xs s).2 = order.foldl visit s ∧
      (scan remove visit fuel i xs s).1.Perm (xs.take i ++ (xs.drop i).filter fun x => !remove x) := by
  induction fuel generalizing i xs s with
  | zero =>
    have past : xs.drop i = [] := List.drop_eq_nil_of_le (by omega)
    have whole : xs.take i = xs := List.take_of_length_le (by omega)
    exact ⟨[], by rw [past], rfl, by rw [past, whole]; simp [scan]⟩
  | succ fuel ih =>
    cases here : xs[i]? with
    | none =>
      have beyond : xs.length ≤ i := List.getElem?_eq_none_iff.mp here
      have past : xs.drop i = [] := List.drop_eq_nil_of_le beyond
      have whole : xs.take i = xs := List.take_of_length_le beyond
      refine ⟨[], by rw [past], by simp [scan, here], ?_⟩
      rw [past, whole]
      simp [scan, here]
    | some x =>
      obtain ⟨inside, atI⟩ := List.getElem?_eq_some_iff.mp here
      have ahead : xs.drop i = x :: xs.drop (i + 1) := by rw [← atI, List.drop_eq_getElem_cons inside]
      by_cases removed : remove x = true
      · have length := length_swapRemove xs i
        obtain ⟨order, visits, state, kept⟩ := ih i (swapRemove xs i) (visit s x) (by omega)
        have front := take_swapRemove xs i inside
        have rest := drop_swapRemove xs i x here
        refine ⟨x :: order, ?_, ?_, ?_⟩
        · rw [ahead]
          exact (visits.trans rest).cons x
        · simp only [scan, here, if_pos removed, state, List.foldl_cons]
        · simp only [scan, here, if_pos removed]
          rw [ahead, List.filter_cons_of_neg (by simp [removed])]
          rw [front] at kept
          exact kept.trans ((rest.filter _).append_left _)
      · obtain ⟨order, visits, state, kept⟩ := ih (i + 1) xs (visit s x) (by omega)
        refine ⟨x :: order, ?_, ?_, ?_⟩
        · rw [ahead]
          exact visits.cons x
        · simp only [scan, here, if_neg removed, state, List.foldl_cons]
        · simp only [scan, here, if_neg removed]
          rw [ahead, List.filter_cons_of_pos (by simp [removed])]
          rw [List.take_succ_eq_append_getElem inside, atI, List.append_assoc] at kept
          exact kept

end SwapRemove
