import Mathlib.Data.List.Basic
import Mathlib.Data.List.Forall2

/-! Machines that answer operations, and what it means that one behaves as an abstract state says. -/

namespace Refinement

variable {σ α op out : Type}

/-- A step is undefined where it gives none. -/
structure Machine (σ op out : Type) where
  step : σ → op → Option (σ × out)

/-- The abstract state moves with each operation, and says which answers may be given to it. -/
structure Behaviour (α op out : Type) where
  next : α → op → α
  answers : α → op → out → Prop

def Machine.run (m : Machine σ op out) (s : σ) : List op → Option (σ × List out)
  | [] => some (s, [])
  | o :: ops => do
    let (s, r) ← m.step s o
    let (s, rs) ← m.run s ops
    return (s, r :: rs)

theorem Machine.run_single {m : Machine σ op out} {s t : σ} {o : op} {r : out} (step : m.step s o = some (t, r)) :
    m.run s [o] = some (t, [r]) := by
  rw [Machine.run, step]
  rfl

theorem Machine.run_pair {m : Machine σ op out} {s t u : σ} {o o' : op} {r r' : out} (first : m.step s o = some (t, r))
    (second : m.step t o' = some (u, r')) : m.run s [o, o'] = some (u, [r, r']) := by
  have single := Machine.run_single second
  rw [Machine.run, first]
  show ((m.run t [o']).bind fun later => some (later.1, r :: later.2)) = _
  rw [single]
  rfl

/-- Every operation meets the guard in the state that the machine is in. -/
def Machine.Guarded (m : Machine σ op out) (guard : σ → op → Prop) (s : σ) : List op → Prop
  | [] => True
  | o :: ops => guard s o ∧ ∀ t r, m.step s o = some (t, r) → m.Guarded guard t ops

namespace Behaviour

variable (spec : Behaviour α op out)

def Explains (a : α) : List op → List out → Prop
  | [], [] => True
  | o :: ops, r :: rs => spec.answers a o r ∧ Explains (spec.next a o) ops rs
  | _, _ => False

/-- Every operation meets the guard in the abstract state that it finds. -/
def Guarded (guard : α → op → Prop) (a : α) : List op → Prop
  | [] => True
  | o :: ops => guard a o ∧ Guarded guard (spec.next a o) ops

def after (a : α) (ops : List op) : α := ops.foldl spec.next a

end Behaviour

/-- What holds with the operations to come, and is kept by a step that the abstract state explains, explains the run. -/
theorem Machine.run_explained {m : Machine σ op out} {spec : Behaviour α op out} {holds : List op → α → σ → Prop}
    (steps : ∀ o ops a s, holds (o :: ops) a s →
      ∃ s' r, m.step s o = some (s', r) ∧ spec.answers a o r ∧ holds ops (spec.next a o) s')
    {a : α} {s : σ} {ops : List op} (start : holds ops a s) :
    ∃ s' rs, m.run s ops = some (s', rs) ∧ spec.Explains a ops rs ∧ holds [] (spec.after a ops) s' := by
  induction ops generalizing a s with
  | nil => exact ⟨s, [], rfl, trivial, start⟩
  | cons o ops ih =>
    rcases steps o ops a s start with ⟨t, r, step, answer, still⟩
    rcases ih still with ⟨u, rs, later, answers, last⟩
    refine ⟨u, r :: rs, ?_, ⟨answer, answers⟩, last⟩
    rw [Machine.run, step]
    show ((m.run t ops).bind fun later => some (later.1, r :: later.2)) = _
    rw [later]
    rfl

/-- A guarded step of the machine is defined, is answered as the abstract state says, and keeps the relation. -/
def Simulates (m : Machine σ op out) (spec : Behaviour α op out) (guard : α → op → Prop) (rel : α → σ → Prop) : Prop :=
  ∀ a s o, rel a s → guard a o → ∃ s' r, m.step s o = some (s', r) ∧ spec.answers a o r ∧ rel (spec.next a o) s'

theorem Simulates.run {m : Machine σ op out} {spec : Behaviour α op out} {guard : α → op → Prop} {rel : α → σ → Prop}
    (simulates : Simulates m spec guard rel) {a : α} {s : σ} (related : rel a s) {ops : List op}
    (guarded : spec.Guarded guard a ops) :
    ∃ s' rs, m.run s ops = some (s', rs) ∧ spec.Explains a ops rs ∧ rel (spec.after a ops) s' := by
  have steps : ∀ o ops a s, rel a s ∧ spec.Guarded guard a (o :: ops) → ∃ s' r, m.step s o = some (s', r) ∧
      spec.answers a o r ∧ rel (spec.next a o) s' ∧ spec.Guarded guard (spec.next a o) ops := by
    rintro o ops a s ⟨related, guarded⟩
    rcases simulates a s o related guarded.1 with ⟨t, r, step, answer, still⟩
    exact ⟨t, r, step, answer, still, guarded.2⟩
  rcases @Machine.run_explained σ α op out m spec (fun ops a s => rel a s ∧ spec.Guarded guard a ops) steps _ _ _
    ⟨related, guarded⟩ with ⟨t, rs, run, answers, last⟩
  exact ⟨t, rs, run, answers, last.1⟩

def SimulatesWhere (m : Machine σ op out) (spec : Behaviour α op out) (guard : σ → op → Prop) (rel : α → σ → Prop) : Prop :=
  ∀ a s o, rel a s → guard s o → ∃ s' r, m.step s o = some (s', r) ∧ spec.answers a o r ∧ rel (spec.next a o) s'

theorem SimulatesWhere.run {m : Machine σ op out} {spec : Behaviour α op out} {guard : σ → op → Prop} {rel : α → σ → Prop}
    (simulates : SimulatesWhere m spec guard rel) {a : α} {s : σ} (related : rel a s) {ops : List op}
    (guarded : m.Guarded guard s ops) :
    ∃ s' rs, m.run s ops = some (s', rs) ∧ spec.Explains a ops rs ∧ rel (spec.after a ops) s' := by
  have steps : ∀ o ops a s, rel a s ∧ m.Guarded guard s (o :: ops) → ∃ s' r, m.step s o = some (s', r) ∧
      spec.answers a o r ∧ rel (spec.next a o) s' ∧ m.Guarded guard s' ops := by
    rintro o ops a s ⟨related, guarded⟩
    rcases simulates a s o related guarded.1 with ⟨t, r, step, answer, still⟩
    exact ⟨t, r, step, answer, still, guarded.2 t r step⟩
  rcases @Machine.run_explained σ α op out m spec (fun ops a s => rel a s ∧ m.Guarded guard s ops) steps _ _ _
    ⟨related, guarded⟩ with ⟨t, rs, run, answers, last⟩
  exact ⟨t, rs, run, answers, last.1⟩

/-- Runs of steps that may be answered in more than one way. -/
inductive Reaches (step : σ → op → out → σ → Prop) : σ → List op → List out → σ → Prop where
  | nil (s : σ) : Reaches step s [] [] s
  | cons {s t u : σ} {o : op} {r : out} {ops : List op} {rs : List out} (first : step s o r t)
      (rest : Reaches step t ops rs u) : Reaches step s (o :: ops) (r :: rs) u

theorem Reaches.explained {step : σ → op → out → σ → Prop} {spec : Behaviour α op out} {rel : α → σ → Prop}
    (steps : ∀ a s o r t, rel a s → step s o r t → spec.answers a o r ∧ rel (spec.next a o) t) {a : α} {s t : σ}
    (related : rel a s) {ops : List op} {rs : List out} (run : Reaches step s ops rs t) :
    spec.Explains a ops rs ∧ rel (spec.after a ops) t := by
  induction run generalizing a with
  | nil s => exact ⟨trivial, related⟩
  | cons first _ ih =>
    rcases steps _ _ _ _ _ related first with ⟨answer, still⟩
    rcases ih still with ⟨answers, last⟩
    exact ⟨⟨answer, answers⟩, last⟩

theorem Behaviour.Explains.agree {out' : Type} {spec : Behaviour α op out} {spec' : Behaviour α op out'}
    (next : spec'.next = spec.next) {same : out → out' → Prop}
    (agree : ∀ a o r r', spec.answers a o r → spec'.answers a o r' → same r r') {a : α} {ops : List op} {rs : List out}
    {rs' : List out'} (first : spec.Explains a ops rs) (second : spec'.Explains a ops rs') : List.Forall₂ same rs rs' := by
  induction ops generalizing a rs rs' with
  | nil =>
    cases rs with
    | cons r rs => exact absurd first id
    | nil =>
      cases rs' with
      | cons r' rs' => exact absurd second id
      | nil => exact .nil
  | cons o ops ih =>
    cases rs with
    | nil => exact absurd first id
    | cons r rs =>
      cases rs' with
      | nil => exact absurd second id
      | cons r' rs' =>
        have later := second.2
        rw [next] at later
        exact .cons (agree a o r r' first.1 second.1) (ih first.2 later)

end Refinement
