import BlueBird.Collections.KeyedRows
import BlueBird.Persist.JsonTables
import BlueBird.Refinement.Simulation

/-! The calls of the model API, and the maps from key to entity that a backend is to stand for. -/

namespace BlueBird.Persist

open KeyedRows Refinement

variable {ι σ : Type}

structure Key (schema : Schema) where
  value : FieldValue
  asks : schema.pk.Asks value

/-- The functions of `bb_model_api_t`, on what a handle leads to. -/
structure ModelApi (σ : Type) where
  insert : Schema → σ → List FieldValue → σ × Int
  findByPk : Schema → σ → FieldValue → List FieldValue → σ × List FieldValue × Int
  update : Schema → σ → List FieldValue → σ × Int
  remove : Schema → σ → FieldValue → σ × Int
  findAll : Schema → σ → σ × List (List FieldValue) × Int

inductive ModelOp (schema : Schema) where
  | insert (entity : Entity schema)
  | findByPk (key : Key schema) (out : List FieldValue)
  | update (entity : Entity schema)
  | remove (key : Key schema)
  | findAll

structure ModelCall (schemas : ι → Schema) where
  table : ι
  op : ModelOp (schemas table)

structure ModelResult where
  rc : Int
  out : List FieldValue := []
  entities : List (List FieldValue) := []

def ModelApi.call (api : ModelApi σ) {schema : Schema} (s : σ) : ModelOp schema → σ × ModelResult
  | .insert entity =>
    let (s, rc) := api.insert schema s entity.values
    (s, { rc })
  | .findByPk key out =>
    let (s, out, rc) := api.findByPk schema s key.value out
    (s, { rc, out })
  | .update entity =>
    let (s, rc) := api.update schema s entity.values
    (s, { rc })
  | .remove key =>
    let (s, rc) := api.remove schema s key.value
    (s, { rc })
  | .findAll =>
    let (s, entities, rc) := api.findAll schema s
    (s, { rc, entities })

/-! ## What the calls are to do -/

def Entity.key {schema : Schema} (entity : Entity schema) : FieldValue := schema.key entity.values

/-- For each table, the entity that was last written under a key. -/
abbrev Entities (schemas : ι → Schema) := (i : ι) → FieldValue → Option (Entity (schemas i))

namespace Entities

variable {schemas : ι → Schema}

def empty : Entities schemas := fun _ _ => none

def put [DecidableEq ι] (m : Entities schemas) (i : ι) (key : FieldValue) (entity : Option (Entity (schemas i))) : Entities schemas :=
  Function.update m i (Function.update (m i) key entity)

def succeeds (m : Entities schemas) (call : ModelCall schemas) : Bool :=
  match call.op with
  | .insert entity => (m call.table entity.key).isNone
  | .findByPk key _ => (m call.table key.value).isSome
  | .update entity => (m call.table entity.key).isSome
  | .remove key => (m call.table key.value).isSome
  | .findAll => true

def change [DecidableEq ι] (m : Entities schemas) (call : ModelCall schemas) : Entities schemas :=
  match call.op with
  | .insert entity => m.put call.table entity.key (some entity)
  | .update entity => m.put call.table entity.key (some entity)
  | .remove key => m.put call.table key.value none
  | .findByPk _ _ => m
  | .findAll => m

/-- An operation that fails changes nothing. -/
def next [DecidableEq ι] (m : Entities schemas) (call : ModelCall schemas) : Entities schemas :=
  if m.succeeds call then m.change call else m

/-- Every entity of a table, and none of them twice. -/
def Lists (m : Entities schemas) (i : ι) (entities : List (List FieldValue)) : Prop :=
  entities.Nodup ∧ ∀ values, values ∈ entities ↔ ∃ key entity, m i key = some entity ∧ entity.values = values

/-- What is left in `out`. -/
def found (m : Entities schemas) (call : ModelCall schemas) : List FieldValue :=
  match call.op with
  | .findByPk key out => ((m call.table key.value).map Entity.values).getD out
  | _ => []

structure Answers (m : Entities schemas) (call : ModelCall schemas) (r : ModelResult) : Prop where
  success : r.rc = 0 ↔ m.succeeds call = true
  finds : r.out = m.found call
  lists : call.op = .findAll → m.Lists call.table r.entities
  others : call.op ≠ .findAll → r.entities = []

end Entities

def modelStore [DecidableEq ι] (schemas : ι → Schema) : Behaviour (Entities schemas) (ModelCall schemas) ModelResult where
  next := Entities.next
  answers := Entities.Answers

/-- Two results that tell a caller the same; the order of a listing tells nothing. -/
structure Agree (r r' : ModelResult) : Prop where
  success : r.rc = 0 ↔ r'.rc = 0
  out : r.out = r'.out
  entities : r.entities.Perm r'.entities

theorem Entities.Answers.agree {schemas : ι → Schema} {m : Entities schemas} {call : ModelCall schemas} {r r' : ModelResult}
    (first : m.Answers call r) (second : m.Answers call r') : Agree r r' := by
  refine ⟨first.success.trans second.success.symm, first.finds.trans second.finds.symm, ?_⟩
  by_cases all : call.op = .findAll
  · have one := first.lists all
    have two := second.lists all
    apply (List.perm_ext_iff_of_nodup one.1 two.1).mpr
    intro values
    exact (one.2 values).trans (two.2 values).symm
  · rw [first.others all, second.others all]

section
variable {schemas : ι → Schema} {m : Entities schemas} {i : ι}

/-- A search answers with the entity, or leaves `out` alone. -/
theorem answers_findByPk {key : Key (schemas i)} {out : List FieldValue} {result : List FieldValue × Int}
    (finds : (m i key.value = none ∧ result = (out, -1)) ∨ ∃ entity, m i key.value = some entity ∧ result = (entity.values, 0)) :
    m.Answers ⟨i, .findByPk key out⟩ ⟨result.2, result.1, []⟩ := by
  have success : m.succeeds ⟨i, .findByPk key out⟩ = (m i key.value).isSome := rfl
  have left : m.found ⟨i, .findByPk key out⟩ = ((m i key.value).map Entity.values).getD out := rfl
  rcases finds with ⟨absent, rfl⟩ | ⟨entity, present, rfl⟩
  · rw [absent] at success left
    exact ⟨⟨nofun, fun yes => absurd (success.symm.trans yes) nofun⟩, left.symm, nofun, fun _ => rfl⟩
  · rw [present] at success left
    exact ⟨⟨fun _ => success, fun _ => rfl⟩, left.symm, nofun, fun _ => rfl⟩

theorem answers_findAll {entities : List (List FieldValue)} (lists : m.Lists i entities) :
    m.Answers ⟨i, .findAll⟩ ⟨0, [], entities⟩ :=
  ⟨⟨fun _ => rfl, fun _ => rfl⟩, rfl, fun _ => lists, fun other => absurd rfl other⟩

theorem answers_write {call : ModelCall schemas} {rc : Int} (writes : m.found call = []) (other : call.op ≠ .findAll)
    (success : rc = 0 ↔ m.succeeds call = true) : m.Answers call ⟨rc, [], []⟩ :=
  ⟨success, writes.symm, fun all => absurd all other, fun _ => rfl⟩

variable [DecidableEq ι]

theorem next_findByPk (key : Key (schemas i)) (out : List FieldValue) : m.next ⟨i, .findByPk key out⟩ = m := by
  unfold Entities.next
  exact ite_self m

theorem next_findAll : m.next ⟨i, .findAll⟩ = m := by
  unfold Entities.next
  exact ite_self m

end

/-! ## Rows for a map -/

theorem Entity.ext_values {schema : Schema} {a b : Entity schema} (same : a.values = b.values) : a = b := by
  cases a
  cases b
  congr

def Rows (m : Entities schemas) (i : ι) (rows : List (Entity (schemas i))) : Prop := Represents Entity.key rows (m i)

theorem lists_of_rows {schemas : ι → Schema} {m : Entities schemas} {i : ι} {rows : List (Entity (schemas i))} (holds : Rows m i rows) :
    m.Lists i (rows.map Entity.values) := by
  refine ⟨holds.nodup.map fun a b => Entity.ext_values, ?_⟩
  intro values
  rw [List.mem_map]
  constructor
  · intro inside
    rcases inside with ⟨entity, member, same⟩
    exact ⟨entity.key, entity, holds.held member, same⟩
  · intro inside
    rcases inside with ⟨key, entity, at_, same⟩
    exact ⟨entity, holds.mem_of at_, same⟩

section
variable [DecidableEq ι] {schemas : ι → Schema} (m : Entities schemas) (i : ι) (key : FieldValue) (entity : Option (Entity (schemas i)))

theorem put_self : m.put i key entity i = Function.update (m i) key entity := Function.update_self ..

theorem put_other {j : ι} (differs : j ≠ i) : m.put i key entity j = m j := Function.update_of_ne differs ..

end

end BlueBird.Persist
