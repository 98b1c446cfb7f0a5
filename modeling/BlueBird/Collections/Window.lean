import Mathlib.Data.List.Nodup

/-! The part of a list that an offset and a limit leave. -/

namespace Window

variable {α : Type}

theorem drop_take_eq_filter (s : List α) (start count k : Nat) :
    (s.drop start).take count =
      ((s.zipIdx k).filter fun p => k + start ≤ p.2 ∧ p.2 < k + start + count).map (·.1) := by
  induction s generalizing start count k with
  | nil => simp
  | cons x s ih =>
    have later : ∀ p ∈ s.zipIdx (k + 1), k + 1 ≤ p.2 := fun p member => (List.mem_zipIdx member).1
    rw [List.zipIdx_cons, List.filter_cons]
    cases start with
    | zero =>
      cases count with
      | zero => simp
      | succ count =>
        rw [if_pos (by simp), List.map_cons, List.drop_zero, List.take_succ_cons]
        refine congrArg _ ?_
        have rest := ih 0 count (k + 1)
        rw [List.drop_zero] at rest
        rw [rest]
        apply congrArg
        apply List.filter_congr
        intro p member
        have least := later p member
        simp only [decide_eq_decide]
        omega
    | succ start =>
      rw [if_neg (by simp only [decide_eq_true_eq]; omega), List.drop_succ_cons, ih start count (k + 1)]
      apply congrArg
      apply List.filter_congr
      intro p _
      simp only [decide_eq_decide]
      omega

variable {s : List α} {start count start' count' : Nat}

theorem eq_of_positions (same : ∀ i < s.length, (start ≤ i ∧ i < start + count) ↔ (start' ≤ i ∧ i < start' + count')) :
    (s.drop start).take count = (s.drop start').take count' := by
  rw [drop_take_eq_filter s start count 0, drop_take_eq_filter s start' count' 0]
  apply congrArg
  apply List.filter_congr
  intro p member
  obtain ⟨_, inside, _⟩ := List.mem_zipIdx member
  have positions := same p.2 (by omega)
  simp only [decide_eq_decide]
  omega

theorem getElem_mem (i : Nat) (inside : i < s.length) (here : start ≤ i ∧ i < start + count) :
    s.get ⟨i, inside⟩ ∈ (s.drop start).take count := by
  rw [drop_take_eq_filter s start count 0]
  apply List.mem_map.mpr
  refine ⟨(s.get ⟨i, inside⟩, i), List.mem_filter.mpr ⟨?_, ?_⟩, rfl⟩
  · rw [List.mem_zipIdx_iff_getElem?]
    simp [inside]
  · simp only [decide_eq_true_eq]
    omega

theorem position_of_mem (distinct : s.Nodup) (i : Nat) (inside : i < s.length)
    (member : s.get ⟨i, inside⟩ ∈ (s.drop start).take count) : start ≤ i ∧ i < start + count := by
  rw [drop_take_eq_filter s start count 0] at member
  obtain ⟨p, kept, same⟩ := List.mem_map.mp member
  obtain ⟨indexed, here⟩ := List.mem_filter.mp kept
  have at_ : s[p.2]? = some p.1 := List.mem_zipIdx_iff_getElem?.mp indexed
  obtain ⟨bound, value⟩ := List.getElem?_eq_some_iff.mp at_
  have equal : p.2 = i := by
    apply (List.Nodup.getElem_inj_iff distinct).mp
    rw [value, same]
    rfl
  simp only [decide_eq_true_eq] at here
  omega

theorem positions_of_eq (distinct : s.Nodup) (same : (s.drop start).take count = (s.drop start').take count') :
    ∀ i < s.length, (start ≤ i ∧ i < start + count) ↔ (start' ≤ i ∧ i < start' + count') := by
  intro i inside
  constructor
  · intro here
    exact position_of_mem distinct i inside (same ▸ getElem_mem i inside here)
  · intro here
    exact position_of_mem distinct i inside (same ▸ getElem_mem i inside here)

end Window
