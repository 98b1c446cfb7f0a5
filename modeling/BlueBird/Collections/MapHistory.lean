import BlueBird.Collections.OrderedMap
import Mathlib.Algebra.Ring.Nat

/-! What a list of changes amounts to, key by key. -/

namespace OrderedMap

variable {κ α : Type} [DecidableEq κ]

inductive Change (κ α : Type) where
  | set (key : κ) (value : α)
  | erase (key : κ)

def Change.apply (entries : List (κ × α)) : Change κ α → List (κ × α)
  | .set key value => OrderedMap.set entries key value
  | .erase key => OrderedMap.erase entries key

def replay (changes : List (Change κ α)) : List (κ × α) := changes.foldl Change.apply []

/-- The value last set for a key and not since erased. -/
def latest (changes : List (Change κ α)) (key : κ) : Option α :=
  changes.foldl (fun held change =>
    match change with
    | .set k value => if k = key then some value else held
    | .erase k => if k = key then none else held) none

/-- When a key was last set while it was absent. -/
def addedAt (changes : List (Change κ α)) (key : κ) : Option Nat :=
  changes.zipIdx.foldl (fun added change =>
    match change.1 with
    | .set k _ => if k = key then some (added.getD change.2) else added
    | .erase k => if k = key then none else added) none

section
variable (changes : List (Change κ α)) (key k : κ) (value : α)

theorem replay_append (change : Change κ α) : replay (changes ++ [change]) = Change.apply (replay changes) change := by
  unfold replay
  rw [List.foldl_append]
  rfl

theorem latest_set : latest (changes ++ [.set k value]) key = if k = key then some value else latest changes key := by
  unfold latest
  rw [List.foldl_append]
  rfl

theorem latest_erase : latest (changes ++ [.erase k]) key = if k = key then none else latest changes key := by
  unfold latest
  rw [List.foldl_append]
  rfl

omit [DecidableEq κ] in
theorem zipIdx_append_single (change : Change κ α) : (changes ++ [change]).zipIdx = changes.zipIdx ++ [(change, changes.length)] := by
  rw [List.zipIdx_append, Nat.zero_add]
  rfl

theorem addedAt_set : addedAt (changes ++ [.set k value]) key =
    if k = key then some ((addedAt changes key).getD changes.length) else addedAt changes key := by
  unfold addedAt
  rw [zipIdx_append_single, List.foldl_append]
  rfl

theorem addedAt_erase : addedAt (changes ++ [.erase k]) key = if k = key then none else addedAt changes key := by
  unfold addedAt
  rw [zipIdx_append_single, List.foldl_append]
  rfl

end

theorem get?_replay (changes : List (Change κ α)) (key : κ) : get? (replay changes) key = latest changes key := by
  induction changes using List.reverseRecOn with
  | nil => rfl
  | append_singleton changes change ih =>
    rw [replay_append]
    cases change with
    | set k value =>
      rw [latest_set, ← ih]
      show get? (set (replay changes) k value) key = _
      rw [get?_set]
      by_cases same : key = k
      · rw [if_pos same, if_pos same.symm]
      · rw [if_neg same, if_neg fun equal => same equal.symm]
    | erase k =>
      rw [latest_erase, ← ih]
      show get? (erase (replay changes) k) key = _
      rw [get?_erase]
      by_cases same : key = k
      · rw [if_pos same, if_pos same.symm]
      · rw [if_neg same, if_neg fun equal => same equal.symm]

theorem distinct_replay (changes : List (Change κ α)) : Distinct (replay changes) := by
  induction changes using List.reverseRecOn with
  | nil => exact List.nodup_nil
  | append_singleton changes change ih =>
    rw [replay_append]
    cases change with
    | set k value => exact distinct_set ih k value
    | erase k => exact distinct_erase ih k

theorem mem_replay (changes : List (Change κ α)) (key : κ) (value : α) :
    (key, value) ∈ replay changes ↔ latest changes key = some value := by
  rw [← get?_replay]
  constructor
  · intro member
    exact get?_eq_some_of_mem (distinct_replay changes) member
  · intro found
    rcases Option.map_eq_some_iff.mp found with ⟨entry, first, held⟩
    have named : entry.1 = key := by simpa using List.find?_some first
    have member := List.mem_of_find?_eq_some first
    rw [← held, ← named]
    exact member

theorem present_iff (changes : List (Change κ α)) (key : κ) :
    key ∈ (replay changes).map (·.1) ↔ ∃ value, latest changes key = some value := by
  rw [List.mem_map]
  constructor
  · intro present
    rcases present with ⟨entry, member, named⟩
    exact ⟨entry.2, (mem_replay changes key entry.2).mp (by rw [← named]; exact member)⟩
  · intro held
    rcases held with ⟨value, found⟩
    exact ⟨(key, value), (mem_replay changes key value).mpr found, rfl⟩

/-! ## The order -/

theorem addedAt_lt (changes : List (Change κ α)) {key : κ} {i : Nat} (added : addedAt changes key = some i) :
    i < changes.length := by
  induction changes using List.reverseRecOn generalizing i with
  | nil => cases added
  | append_singleton changes change ih =>
    rw [List.length_append, List.length_singleton]
    cases change with
    | set k value =>
      rw [addedAt_set] at added
      by_cases same : k = key
      · rw [if_pos same] at added
        cases before : addedAt changes key with
        | none =>
          rw [before] at added
          cases added
          exact Nat.lt_succ_self _
        | some j =>
          rw [before] at added
          cases added
          exact Nat.lt_succ_of_lt (ih before)
      · rw [if_neg same] at added
        exact Nat.lt_succ_of_lt (ih added)
    | erase k =>
      rw [addedAt_erase] at added
      by_cases same : k = key
      · rw [if_pos same] at added
        cases added
      · rw [if_neg same] at added
        exact Nat.lt_succ_of_lt (ih added)

theorem addedAt_isSome (changes : List (Change κ α)) (key : κ) :
    (addedAt changes key).isSome = (latest changes key).isSome := by
  induction changes using List.reverseRecOn with
  | nil => rfl
  | append_singleton changes change ih =>
    cases change with
    | set k value =>
      rw [addedAt_set, latest_set]
      by_cases same : k = key
      · rw [if_pos same, if_pos same]
        rfl
      · rw [if_neg same, if_neg same, ih]
    | erase k =>
      rw [addedAt_erase, latest_erase]
      by_cases same : k = key
      · rw [if_pos same, if_pos same]
        rfl
      · rw [if_neg same, if_neg same, ih]

theorem added_of_present {changes : List (Change κ α)} {key : κ} (present : key ∈ (replay changes).map (·.1)) :
    ∃ i, addedAt changes key = some i := by
  rcases (present_iff changes key).mp present with ⟨value, found⟩
  apply Option.isSome_iff_exists.mp
  rw [addedAt_isSome, found]
  rfl

def AddedBefore (changes : List (Change κ α)) (a b : κ) : Prop :=
  ∃ i j, addedAt changes a = some i ∧ addedAt changes b = some j ∧ i < j

theorem AddedBefore.of_eq {changes changes' : List (Change κ α)} {a b : κ} (before : AddedBefore changes a b)
    (first : addedAt changes' a = addedAt changes a) (second : addedAt changes' b = addedAt changes b) :
    AddedBefore changes' a b := by
  rcases before with ⟨i, j, atFirst, atSecond, less⟩
  exact ⟨i, j, first.trans atFirst, second.trans atSecond, less⟩

theorem ordered_replay (changes : List (Change κ α)) : ((replay changes).map (·.1)).Pairwise (AddedBefore changes) := by
  induction changes using List.reverseRecOn with
  | nil => exact List.Pairwise.nil
  | append_singleton changes change ih =>
    rw [replay_append]
    cases change with
    | set k value =>
      show ((set (replay changes) k value).map (·.1)).Pairwise _
      by_cases present : k ∈ (replay changes).map (·.1)
      · have same : ∀ a, addedAt (changes ++ [.set k value]) a = addedAt changes a := by
          intro a
          rw [addedAt_set]
          by_cases here : k = a
          · rcases added_of_present present with ⟨i, added⟩
            rw [if_pos here, ← here, added]
            rfl
          · rw [if_neg here]
        rw [keys_set_of_present present]
        exact ih.imp fun before => before.of_eq (same _) (same _)
      · have same : ∀ a ∈ (replay changes).map (·.1), addedAt (changes ++ [.set k value]) a = addedAt changes a := by
          intro a member
          rw [addedAt_set, if_neg]
          intro here
          rw [here] at present
          exact present member
        have last : addedAt (changes ++ [.set k value]) k = some changes.length := by
          have absent : addedAt changes k = none := by
            cases added : addedAt changes k with
            | none => rfl
            | some i =>
              have held := addedAt_isSome changes k
              rw [added] at held
              exact absurd ((present_iff changes k).mpr (Option.isSome_iff_exists.mp held.symm)) present
          rw [addedAt_set, if_pos rfl, absent]
          rfl
        rw [set_of_absent present, List.map_append]
        refine List.pairwise_append.mpr ⟨?_, List.pairwise_singleton _ _, ?_⟩
        · exact ih.imp_of_mem fun first second before => before.of_eq (same _ first) (same _ second)
        · intro a member b single
          rw [List.mem_singleton.mp single]
          rcases added_of_present member with ⟨i, added⟩
          exact ⟨i, changes.length, (same a member).trans added, last, addedAt_lt changes added⟩
    | erase k =>
      show ((erase (replay changes) k).map (·.1)).Pairwise _
      have kept : ∀ a ∈ (erase (replay changes) k).map (·.1), addedAt (changes ++ [.erase k]) a = addedAt changes a := by
        intro a member
        rcases List.mem_map.mp member with ⟨entry, among, named⟩
        have other : entry.1 ≠ k := of_decide_eq_true (List.mem_filter.mp among).2
        rw [addedAt_erase, if_neg fun here => other (named.trans here.symm)]
      have shorter : ((erase (replay changes) k).map (·.1)).Sublist ((replay changes).map (·.1)) :=
        List.filter_sublist.map _
      exact (ih.sublist shorter).imp_of_mem fun first second before => before.of_eq (kept _ first) (kept _ second)

end OrderedMap
