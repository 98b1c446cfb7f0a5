import Mathlib.Data.List.Induction
import Mathlib.Data.List.Infix

/-! Runs of a machine whose steps are not always possible. -/

namespace Runs

variable {σ α : Type} {step : σ → α → Option σ} {condition : σ → α → Prop} {invariant property : σ → Prop}
  {s t : σ} {actions : List α}

def run (step : σ → α → Option σ) (s : σ) (actions : List α) : Option σ := actions.foldlM step s

/-- Every step of the run meets the condition in the state that it is taken in. -/
def Along (step : σ → α → Option σ) (condition : σ → α → Prop) (s : σ) (actions : List α) : Prop :=
  ∀ before action t, before ++ [action] <+: actions → run step s before = some t → condition t action

/-- Every state that the run comes to has the property. -/
def Throughout (step : σ → α → Option σ) (property : σ → Prop) (s : σ) (actions : List α) : Prop :=
  ∀ before t, before <+: actions → run step s before = some t → property t

theorem run_append (s : σ) (front back : List α) : run step s (front ++ back) = (run step s front).bind (run step · back) :=
  List.foldlM_append

theorem run_one (s : σ) (action : α) : run step s [action] = step s action := Option.bind_fun_some _

theorem invariant_of_run (first : invariant s) (kept : ∀ s action t, invariant s → step s action = some t → invariant t)
    (reached : run step s actions = some t) : invariant t := by
  induction actions generalizing s with
  | nil =>
    cases reached
    exact first
  | cons action actions ih =>
    rcases Option.bind_eq_some_iff.mp (show (step s action).bind (run step · actions) = some t from reached) with ⟨mid, one, rest⟩
    exact ih (kept s action mid first one) rest

theorem Along.front {front back : List α} (along : Along step condition s (front ++ back)) : Along step condition s front :=
  fun before action t within => along before action t (within.trans (List.prefix_append ..))

theorem Along.and_each {holds : α → Prop} (along : Along step condition s actions) (each : ∀ action ∈ actions, holds action) :
    Along step (fun s action => condition s action ∧ holds action) s actions := by
  intro before action t within reached
  refine ⟨along before action t within reached, each action ?_⟩
  exact within.subset (List.mem_append_right before (List.mem_singleton_self action))

theorem along_invariant (first : invariant s)
    (kept : ∀ s action t, invariant s → condition s action → step s action = some t → invariant t)
    (along : Along step condition s actions) (reached : run step s actions = some t) : invariant t := by
  induction actions using List.reverseRecOn generalizing t with
  | nil =>
    cases reached
    exact first
  | append_singleton actions action ih =>
    rw [run_append] at reached
    rcases Option.bind_eq_some_iff.mp reached with ⟨mid, before, last⟩
    rw [run_one] at last
    exact kept mid action t (ih along.front before) (along actions action mid (List.prefix_refl _) before) last

theorem throughout_of_along (first : invariant s)
    (kept : ∀ s action t, invariant s → condition s action → step s action = some t → invariant t)
    (has : ∀ s, invariant s → property s) (along : Along step condition s actions) : Throughout step property s actions := by
  intro before t within reached
  rcases within with ⟨rest, rfl⟩
  exact has t (along_invariant first kept along.front reached)

theorem throughout_iff_along (first : invariant s)
    (kept : ∀ s action t, invariant s → condition s action → step s action = some t → invariant t)
    (has : ∀ s, invariant s → property s)
    (lost : ∀ s action t, invariant s → ¬ condition s action → step s action = some t → ¬ property t)
    (possible : (run step s actions).isSome = true) :
    Throughout step property s actions ↔ Along step condition s actions := by
  refine ⟨fun throughout => ?_, throughout_of_along first kept has⟩
  induction actions using List.reverseRecOn with
  | nil =>
    intro before action t within _
    have empty := List.prefix_nil.mp within
    simp at empty
  | append_singleton actions last ih =>
    rcases Option.isSome_iff_exists.mp possible with ⟨final, reached⟩
    rw [run_append] at reached
    rcases Option.bind_eq_some_iff.mp reached with ⟨mid, earlier, step_⟩
    have front : Throughout step property s actions :=
      fun before t within => throughout before t (within.trans (List.prefix_append ..))
    have along : Along step condition s actions := ih (by rw [earlier]; rfl) front
    intro before action t within run_
    rcases List.prefix_concat_iff.mp within with same | inside
    · rcases List.append_inj' same rfl with ⟨rfl, one⟩
      cases one
      by_contra fails
      rw [earlier] at run_
      cases run_
      refine lost mid last final (along_invariant first kept along earlier) fails ((run_one mid last).symm.trans step_) ?_
      apply throughout _ final (List.prefix_refl _)
      rw [run_append, earlier]
      exact step_
    · exact along before action t inside run_

theorem along_nil (s : σ) : Along step condition s [] := by
  intro before action t within
  have empty := List.prefix_nil.mp within
  simp at empty

theorem along_cons {action : α} (now : condition s action)
    (later : ∀ next, step s action = some next → Along step condition next actions) :
    Along step condition s (action :: actions) := by
  intro before last t within reached
  cases before with
  | nil =>
    rcases List.cons_prefix_cons.mp within with ⟨rfl, _⟩
    cases reached
    exact now
  | cons first before =>
    rcases List.cons_prefix_cons.mp within with ⟨rfl, inside⟩
    rcases Option.bind_eq_some_iff.mp (show (step s first).bind (run step · before) = some t from reached) with
      ⟨next, one, reached⟩
    exact later next one before last t inside reached

def checked (step : σ → α → Option σ) (condition : σ → α → Prop) [∀ s a, Decidable (condition s a)] (s : σ) : List α → Bool
  | [] => true
  | action :: actions =>
    decide (condition s action) &&
      match step s action with
      | some next => checked step condition next actions
      | none => true

theorem along_of_checked [∀ s a, Decidable (condition s a)] (holds : checked step condition s actions = true) :
    Along step condition s actions := by
  induction actions generalizing s with
  | nil => exact along_nil s
  | cons action actions ih =>
    rcases Bool.and_eq_true_iff.mp holds with ⟨now, later⟩
    refine along_cons (of_decide_eq_true now) fun next taken => ih ?_
    rw [taken] at later
    exact later

end Runs
