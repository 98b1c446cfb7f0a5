import Mathlib.Algebra.Ring.Nat
import Mathlib.Data.List.Rotate

namespace RoundRobin

variable {α σ ι : Type}

/-! ## A ring that turns -/

/-- Those at the head of the ring, `m` of them, go behind the others, unless there are no others. -/
def turn (m : Nat) (ring : List α) : List α := if m < ring.length then ring.rotate m else ring

/-- How many turns of `m` it takes until `n` have had theirs. -/
def rounds (n m : Nat) : Nat := (n + m - 1) / m

theorem turn_perm (m : Nat) (ring : List α) : (turn m ring).Perm ring := by
  unfold turn
  split
  · exact List.rotate_perm ring m
  · exact List.Perm.refl ring

theorem turn_iterate_perm (m i : Nat) (ring : List α) : ((turn m)^[i] ring).Perm ring := by
  induction i generalizing ring with
  | zero => exact List.Perm.refl ring
  | succ i ih => exact (ih (turn m ring)).trans (turn_perm m ring)

theorem turn_iterate {m : Nat} {ring : List α} (narrow : m < ring.length) (i : Nat) :
    (turn m)^[i] ring = ring.rotate (i * m) := by
  induction i with
  | zero => rw [Nat.zero_mul, List.rotate_zero, Function.iterate_zero, id]
  | succ i ih =>
    rw [Function.iterate_succ_apply', ih]
    unfold turn
    rw [if_pos (by rw [List.length_rotate]; exact narrow), List.rotate_rotate, Nat.succ_mul]

theorem served {m : Nat} (positive : 0 < m) {ring : List α} {x : α} (member : x ∈ ring) :
    ∃ i, i < rounds ring.length m ∧ x ∈ ((turn m)^[i] ring).take m := by
  rcases List.getElem?_of_mem member with ⟨j, here⟩
  rcases List.getElem?_eq_some_iff.mp here with ⟨inside, _⟩
  by_cases narrow : m < ring.length
  · refine ⟨j / m, ?_, ?_⟩
    · unfold rounds
      rw [Nat.div_lt_iff_lt_mul positive]
      have above := Nat.lt_div_mul_add (a := ring.length + m - 1) positive
      omega
    · rw [turn_iterate narrow]
      have small := Nat.mod_lt j positive
      have place : (ring.rotate (j / m * m))[j % m]? = some x := by
        rw [List.getElem?_rotate (by omega), Nat.mod_add_div', Nat.mod_eq_of_lt inside]
        exact here
      apply List.mem_of_getElem? (i := j % m)
      rw [List.getElem?_take_of_lt small]
      exact place
  · refine ⟨0, ?_, ?_⟩
    · unfold rounds
      exact Nat.div_pos (by omega) positive
    · rw [Function.iterate_zero, id, List.take_of_length_le (by omega)]
      exact member

theorem filterMap_range {ring : List α} (s m : Nat) (narrow : m ≤ ring.length) :
    ((List.range m).filterMap fun k => ring[(s + k) % ring.length]?) = (ring.rotate s).take m := by
  induction m with
  | zero => rfl
  | succ m ih =>
    have place : (ring.rotate s)[m]? = ring[(s + m) % ring.length]? := by
      rw [List.getElem?_rotate (by omega), Nat.add_comm m s]
    have bound : (s + m) % ring.length < ring.length := Nat.mod_lt _ (by omega)
    have here : ring[(s + m) % ring.length]? = some (ring.get ⟨_, bound⟩) := List.getElem?_eq_getElem bound
    have last : [m].filterMap (fun k => ring[(s + k) % ring.length]?) = [ring.get ⟨_, bound⟩] := List.filterMap_cons_some here
    rw [List.range_succ, List.filterMap_append, ih (by omega), List.take_add_one, place, here, last]
    rfl

theorem length_takeWhile_le {ring : List Int} (ascending : ring.Pairwise (· < ·)) {p : Nat} {x : Int} (here : ring[p]? = some x) :
    (ring.takeWhile (· ≤ x)).length = p + 1 := by
  induction ring generalizing p with
  | nil => cases here
  | cons y ring ih =>
    rcases List.pairwise_cons.mp ascending with ⟨least, rest⟩
    cases p with
    | zero =>
      rw [List.getElem?_cons_zero, Option.some_inj] at here
      subst here
      rw [List.takeWhile_cons, if_pos (decide_eq_true (Int.le_refl y)), List.length_cons]
      cases ring with
      | nil => rfl
      | cons z ring =>
        have above := least z (List.mem_cons_self ..)
        rw [List.takeWhile_cons, if_neg (by rw [decide_eq_true_eq]; omega)]
        rfl
    | succ p =>
      have below := least x (List.mem_of_getElem? here)
      rw [List.takeWhile_cons, if_pos (decide_eq_true (Int.le_of_lt below)), List.length_cons, ih rest here]

/-! ## Reports of a process -/

def reports (step : σ → ι → List α × σ) : σ → List ι → List (List α)
  | _, [] => []
  | s, input :: inputs => (step s input).1 :: reports step (step s input).2 inputs

/-- A process that reports, in any order, those at the head of a ring, and turns it. -/
structure Takes (m : Nat) (ring : σ → List α) (ok : ι → Prop) (step : σ → ι → List α × σ) : Prop where
  report : ∀ s input, ok input → (step s input).1.Perm ((ring s).take m)
  next : ∀ s input, ok input → ring (step s input).2 = turn m (ring s)

/-- No report is wider than `m` or names anyone twice, and any `rounds n m` of them in a row name everyone. -/
structure Fair (m : Nat) (members : List α) (reports : List (List α)) : Prop where
  bounded : ∀ report ∈ reports, report.length ≤ m
  distinct : ∀ report ∈ reports, report.Nodup
  complete : ∀ waits, waits <:+: reports → waits.length = rounds members.length m →
    ∀ x ∈ members, ∃ report ∈ waits, x ∈ report

theorem Takes.reports_perm {m : Nat} {ring : σ → List α} {ok : ι → Prop} {step : σ → ι → List α × σ}
    (takes : Takes m ring ok step) {inputs : List ι} (fine : ∀ input ∈ inputs, ok input) {s : σ} {k : Nat} {report : List α}
    (here : (reports step s inputs)[k]? = some report) : report.Perm (((turn m)^[k] (ring s)).take m) := by
  induction inputs generalizing s k with
  | nil =>
    unfold reports at here
    cases here
  | cons input inputs ih =>
    have first := fine input (List.mem_cons_self ..)
    unfold reports at here
    cases k with
    | zero =>
      cases here
      exact takes.report s input first
    | succ k =>
      have rest := ih (fun other member => fine other (List.mem_cons_of_mem input member)) here
      rw [takes.next s input first] at rest
      exact rest

theorem Takes.fair {m : Nat} (positive : 0 < m) {ring : σ → List α} {ok : ι → Prop} {step : σ → ι → List α × σ}
    (takes : Takes m ring ok step) {members : List α} (distinct : members.Nodup) (s : σ) (same : (ring s).Perm members)
    {inputs : List ι} (fine : ∀ input ∈ inputs, ok input) : Fair m members (reports step s inputs) := by
  have each {k : Nat} {report : List α} (here : (reports step s inputs)[k]? = some report) := takes.reports_perm fine here
  constructor
  · intro report member
    rcases List.getElem?_of_mem member with ⟨k, here⟩
    rw [(each here).length_eq, List.length_take]
    exact Nat.min_le_left _ _
  · intro report member
    rcases List.getElem?_of_mem member with ⟨k, here⟩
    have nodup := (((turn_iterate_perm m k (ring s)).trans same).nodup_iff).mpr distinct
    exact (each here).nodup_iff.mpr (nodup.sublist (List.take_sublist _ _))
  · intro waits window width x member
    rcases window with ⟨before, after, whole⟩
    have kept := (turn_iterate_perm m before.length (ring s)).trans same
    rcases served positive (kept.mem_iff.mpr member) with ⟨i, bound, head⟩
    rw [kept.length_eq, ← width] at bound
    rw [← Function.iterate_add_apply, Nat.add_comm] at head
    have here : waits[i]? = some (waits.get ⟨i, bound⟩) := List.getElem?_eq_getElem bound
    have place : (reports step s inputs)[before.length + i]? = some (waits.get ⟨i, bound⟩) := by
      rw [← whole, List.append_assoc, List.getElem?_append_right (Nat.le_add_right _ _), Nat.add_sub_cancel_left,
        List.getElem?_append_left bound]
      exact here
    exact ⟨_, List.get_mem waits ⟨i, bound⟩, (each place).mem_iff.mpr head⟩

end RoundRobin
