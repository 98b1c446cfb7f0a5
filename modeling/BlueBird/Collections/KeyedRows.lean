import Mathlib.Algebra.Ring.Nat
import Mathlib.Data.List.Nodup
import Mathlib.Data.List.Perm.Basic
import Mathlib.Logic.Function.Basic

/-! Lists of rows as maps: a row is found under its own key, and its place in the list means nothing. -/

namespace KeyedRows

variable {α κ : Type} {key : α → κ} {rows : List α} {m : κ → Option α}

structure Represents (key : α → κ) (rows : List α) (m : κ → Option α) : Prop where
  distinct : (rows.map key).Nodup
  found : ∀ k row, m k = some row ↔ row ∈ rows ∧ key row = k

theorem represents_nil (key : α → κ) : Represents key [] fun _ => none :=
  ⟨List.nodup_nil, fun _ _ => ⟨nofun, fun inside => absurd inside.1 List.not_mem_nil⟩⟩

namespace Represents

section
variable (represents : Represents key rows m)
include represents

theorem nodup : rows.Nodup := represents.distinct.of_map

theorem held {row : α} (member : row ∈ rows) : m (key row) = some row := (represents.found _ _).mpr ⟨member, rfl⟩

theorem key_of {k : κ} {row : α} (at_ : m k = some row) : key row = k := ((represents.found _ _).mp at_).2

theorem mem_of {k : κ} {row : α} (at_ : m k = some row) : row ∈ rows := ((represents.found _ _).mp at_).1

theorem none_iff {k : κ} : m k = none ↔ ∀ row ∈ rows, key row ≠ k := by
  constructor
  · intro absent row member same
    have here := represents.held member
    rw [same, absent] at here
    cases here
  · intro none_
    cases at_ : m k with
    | none => rfl
    | some row => exact absurd (represents.key_of at_) (none_ row (represents.mem_of at_))

theorem find?_eq {p : α → Bool} {k : κ} (tests : ∀ row ∈ rows, p row = true ↔ key row = k) : rows.find? p = m k := by
  cases search : rows.find? p with
  | none =>
    symm
    apply represents.none_iff.mpr
    intro row member same
    exact List.find?_eq_none.mp search row member ((tests row member).mpr same)
  | some row =>
    have member := List.mem_of_find?_eq_some search
    have here := represents.held member
    rw [(tests row member).mp (List.find?_some search)] at here
    exact here.symm

theorem any_eq {p : α → Bool} {k : κ} (tests : ∀ row ∈ rows, p row = true ↔ key row = k) : rows.any p = (m k).isSome := by
  rw [← represents.find?_eq tests, List.isSome_find?]

theorem perm {other : List α} (again : Represents key other m) : rows.Perm other := by
  apply (List.perm_ext_iff_of_nodup represents.nodup again.nodup).mpr
  intro row
  constructor
  · exact fun member => again.mem_of (represents.held member)
  · exact fun member => represents.mem_of (again.held member)

theorem of_perm {other : List α} (same : other.Perm rows) : Represents key other m := by
  constructor
  · exact (same.map key).nodup_iff.mpr represents.distinct
  · intro k row
    rw [represents.found, same.mem_iff]

variable [DecidableEq κ]

theorem append {row : α} (fresh : m (key row) = none) : Represents key (rows ++ [row]) (Function.update m (key row) (some row)) := by
  have others := represents.none_iff.mp fresh
  constructor
  · rw [List.map_append, List.map_singleton]
    apply represents.distinct.append (List.nodup_singleton _)
    intro k inside again
    rcases List.mem_map.mp inside with ⟨old, member, same⟩
    exact others old member (same.trans (List.mem_singleton.mp again))
  · intro k found
    rw [List.mem_append, List.mem_singleton]
    by_cases same : k = key row
    · rw [same, Function.update_self, Option.some.injEq]
      constructor
      · intro equal
        exact ⟨Or.inr equal.symm, congrArg key equal.symm⟩
      · intro inside
        rcases inside.1 with old | new
        · exact absurd inside.2 (others found old)
        · exact new.symm
    · rw [Function.update_of_ne same, represents.found]
      constructor
      · exact fun inside => ⟨Or.inl inside.1, inside.2⟩
      · intro inside
        rcases inside.1 with old | new
        · exact ⟨old, inside.2⟩
        · rw [new] at inside
          exact absurd inside.2.symm same

theorem filter {p : α → Bool} {k : κ} (tests : ∀ row ∈ rows, p row = true ↔ key row ≠ k) :
    Represents key (rows.filter p) (Function.update m k none) := by
  constructor
  · exact represents.distinct.sublist (List.filter_sublist.map key)
  · intro other row
    rw [List.mem_filter]
    by_cases same : other = k
    · rw [same, Function.update_self]
      constructor
      · exact nofun
      · intro inside
        exact absurd inside.2 ((tests row inside.1.1).mp inside.1.2)
    · rw [Function.update_of_ne same, represents.found]
      constructor
      · intro inside
        refine ⟨⟨inside.1, (tests row inside.1).mpr ?_⟩, inside.2⟩
        rw [inside.2]
        exact same
      · exact fun inside => ⟨inside.1.1, inside.2⟩

theorem map {change : α → α} {k : κ} {row : α} (keyed : key row = k) (present : m k ≠ none)
    (changes : ∀ old ∈ rows, key old = k → change old = row) (keeps : ∀ old ∈ rows, key old ≠ k → change old = old) :
    Represents key (rows.map change) (Function.update m k (some row)) := by
  have keys : (rows.map change).map key = rows.map key := by
    rw [List.map_map]
    apply List.map_congr_left
    intro old member
    show key (change old) = key old
    by_cases same : key old = k
    · rw [changes old member same, keyed, same]
    · rw [keeps old member same]
  constructor
  · rw [keys]
    exact represents.distinct
  · intro other found
    rw [List.mem_map]
    by_cases same : other = k
    · rw [same, Function.update_self, Option.some.injEq]
      constructor
      · intro equal
        cases at_ : m k with
        | none => exact absurd at_ present
        | some old =>
          refine ⟨⟨old, represents.mem_of at_, ?_⟩, equal ▸ keyed⟩
          rw [changes old (represents.mem_of at_) (represents.key_of at_), equal]
      · intro inside
        rcases inside with ⟨⟨old, member, result⟩, named⟩
        have old_ : key old = k := by
          by_contra differs
          rw [keeps old member differs] at result
          exact differs (result ▸ named)
        rw [changes old member old_] at result
        exact result
    · rw [Function.update_of_ne same, represents.found]
      constructor
      · intro inside
        have differs : key found ≠ k := by
          rw [inside.2]
          exact same
        exact ⟨⟨found, inside.1, keeps found inside.1 differs⟩, inside.2⟩
      · intro inside
        rcases inside with ⟨⟨old, member, result⟩, named⟩
        have differs : key old ≠ k := by
          intro here
          rw [changes old member here] at result
          rw [← result, keyed] at named
          exact same named.symm
        rw [keeps old member differs] at result
        exact ⟨result ▸ member, named⟩

theorem eraseIdx {i : Nat} {row : α} (here : rows[i]? = some row) :
    Represents key (rows.eraseIdx i) (Function.update m (key row) none) := by
  rcases List.getElem?_eq_some_iff.mp here with ⟨inside, at_⟩
  have rest : ∀ old ∈ rows.eraseIdx i, old ∈ rows ∧ key old ≠ key row := by
    intro old member
    rcases List.mem_eraseIdx_iff_getElem?.mp member with ⟨j, differs, there⟩
    refine ⟨List.mem_of_getElem? there, ?_⟩
    intro same
    apply differs
    have length : i < (rows.map key).length := by
      rw [List.length_map]
      exact inside
    apply ((List.getElem?_inj length represents.distinct).mp _).symm
    rw [List.getElem?_map, List.getElem?_map, here, there]
    exact congrArg some same.symm
  constructor
  · exact represents.distinct.sublist ((List.eraseIdx_sublist rows i).map key)
  · intro k found
    by_cases same : k = key row
    · rw [same, Function.update_self]
      constructor
      · exact nofun
      · intro other
        exact absurd other.2 (rest found other.1).2
    · rw [Function.update_of_ne same, represents.found]
      constructor
      · intro old
        refine ⟨?_, old.2⟩
        rcases List.getElem?_of_mem old.1 with ⟨j, there⟩
        apply List.mem_eraseIdx_iff_getElem?.mpr
        refine ⟨j, ?_, there⟩
        intro equal
        rw [equal, here] at there
        rw [← Option.some.inj there] at old
        exact same old.2.symm
      · intro old
        exact ⟨(rest found old.1).1, old.2⟩

end

end Represents

end KeyedRows
