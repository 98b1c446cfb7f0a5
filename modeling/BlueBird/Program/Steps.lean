import Mathlib.Data.List.Basic

/-! Steps that are taken one after the other, up to the first that fails. -/

namespace Steps

variable {ι σ ε : Type}

/-- Some steps from a state: those that were taken, the state they leave, and the error of the last, if it failed. -/
inductive Runs (perform : σ → ι → σ × Option ε) : List ι → σ → List ι → σ → Option ε → Prop where
  | done (s : σ) : Runs perform [] s [] s none
  | stops {i : ι} {rest : List ι} {s : σ} {e : ε} (fails : (perform s i).2 = some e) :
      Runs perform (i :: rest) s [i] (perform s i).1 (some e)
  | goes {i : ι} {rest taken : List ι} {s t : σ} {err : Option ε} (passes : (perform s i).2 = none)
      (later : Runs perform rest (perform s i).1 taken t err) : Runs perform (i :: rest) s (i :: taken) t err

variable {perform : σ → ι → σ × Option ε}

theorem Runs.unique {steps taken taken' : List ι} {s t t' : σ} {err err' : Option ε} (run : Runs perform steps s taken t err)
    (other : Runs perform steps s taken' t' err') : taken = taken' ∧ t = t' ∧ err = err' := by
  induction run generalizing taken' t' err' with
  | done s =>
    cases other
    exact ⟨rfl, rfl, rfl⟩
  | stops fails =>
    cases other with
    | stops again => exact ⟨rfl, rfl, fails.symm.trans again⟩
    | goes passes later =>
      rw [fails] at passes
      cases passes
  | goes passes later ih =>
    cases other with
    | stops fails =>
      rw [passes] at fails
      cases fails
    | goes _ again =>
      rcases ih again with ⟨taken_, state, error⟩
      exact ⟨by rw [taken_], state, error⟩

theorem Runs.failed {steps taken : List ι} {s t : σ} {e : ε} (run : Runs perform steps s taken t (some e)) (more : List ι) :
    Runs perform (steps ++ more) s taken t (some e) := by
  generalize error : some e = err at run
  induction run with
  | done s => cases error
  | stops fails => exact .stops fails
  | goes passes later ih => exact .goes passes (ih error)

theorem Runs.then {steps taken more after : List ι} {s t u : σ} {err : Option ε} (run : Runs perform steps s taken t none)
    (next : Runs perform more t after u err) : Runs perform (steps ++ more) s (taken ++ after) u err := by
  generalize none_ : (none : Option ε) = first at run
  induction run with
  | done s => exact next
  | stops fails => cases none_
  | goes passes later ih => exact .goes passes (ih next none_)

theorem Runs.one {i : ι} {s : σ} : Runs perform [i] s [i] (perform s i).1 (perform s i).2 := by
  cases result : (perform s i).2 with
  | none => exact .goes result (.done _)
  | some e => exact .stops result

end Steps
