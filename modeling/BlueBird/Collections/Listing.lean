import Mathlib.Data.List.Nodup

/-! A list of the places that certain items have in another, kept as the items change. -/

namespace Listing

variable {α : Type} {items : List α} {of : α → Bool} {list : List Nat} {place : Nat}

/-- The list has the places of the items that it is for, each once. -/
def Lists (items : List α) (of : α → Bool) (list : List Nat) : Prop :=
  list.Nodup ∧ ∀ place, place ∈ list ↔ ∃ item, items[place]? = some item ∧ of item = true

/-- The list once an item has changed that was to be listed, or is to be now. -/
def relist (was now : Bool) (place : Nat) (list : List Nat) : List Nat :=
  if was then (if now then list else list.erase place) else (if now then list ++ [place] else list)

theorem relist_same (was : Bool) (place : Nat) (list : List Nat) : relist was was place list = list := by
  cases was <;> rfl

theorem relist_nodup (nodup : list.Nodup) {was now : Bool} (before : place ∈ list ↔ was = true) :
    (relist was now place list).Nodup := by
  cases was with
  | true =>
    cases now with
    | true => exact nodup
    | false => exact nodup.erase place
  | false =>
    cases now with
    | false => exact nodup
    | true =>
      apply List.nodup_append.mpr ⟨nodup, List.nodup_singleton place, fun a member b single same => ?_⟩
      rw [List.mem_singleton.mp single] at same
      rw [same] at member
      cases before.mp member

theorem mem_relist_self (nodup : list.Nodup) {was now : Bool} (before : place ∈ list ↔ was = true) :
    place ∈ relist was now place list ↔ now = true := by
  cases was with
  | true =>
    cases now with
    | true => exact before
    | false =>
      have gone : place ∉ list.erase place := nodup.not_mem_erase
      exact ⟨fun member => absurd member gone, fun no => by cases no⟩
  | false =>
    cases now with
    | false => exact before
    | true => exact ⟨fun _ => rfl, fun _ => List.mem_append_right _ List.mem_cons_self⟩

theorem mem_relist_other (was now : Bool) {other : Nat} (apart : other ≠ place) :
    other ∈ relist was now place list ↔ other ∈ list := by
  cases was with
  | true =>
    cases now with
    | true => exact Iff.rfl
    | false => exact List.mem_erase_of_ne apart
  | false =>
    cases now with
    | false => exact Iff.rfl
    | true =>
      show other ∈ list ++ [place] ↔ _
      rw [List.mem_append, List.mem_singleton]
      exact ⟨fun either => either.resolve_right apart, Or.inl⟩

theorem Lists.set (lists : Lists items of list) {before : α} (there : items[place]? = some before) (after : α) :
    Lists (items.set place after) of (relist (of before) (of after) place list) := by
  have bound : place < items.length := (List.getElem?_eq_some_iff.mp there).1
  have known : place ∈ list ↔ of before = true := by
    rw [lists.2, there]
    exact ⟨fun ⟨item, same, has⟩ => by cases same; exact has, fun has => ⟨before, rfl, has⟩⟩
  refine ⟨relist_nodup lists.1 known, fun other => ?_⟩
  by_cases same : other = place
  · rw [same, mem_relist_self lists.1 known, List.getElem?_set_self bound]
    exact ⟨fun has => ⟨after, rfl, has⟩, fun ⟨item, same, has⟩ => by cases same; exact has⟩
  · rw [mem_relist_other _ _ same, lists.2, List.getElem?_set_ne (Ne.symm same)]

theorem Lists.push (lists : Lists items of list) (item : α) :
    Lists (items ++ [item]) of (relist false (of item) items.length list) := by
  have known : items.length ∈ list ↔ false = true := by
    rw [lists.2, List.getElem?_eq_none (Nat.le_refl _)]
    exact ⟨(fun ⟨_, no, _⟩ => by cases no), fun no => by cases no⟩
  refine ⟨relist_nodup lists.1 known, fun other => ?_⟩
  by_cases same : other = items.length
  · rw [same, mem_relist_self lists.1 known, List.getElem?_concat_length]
    exact ⟨fun has => ⟨item, rfl, has⟩, fun ⟨_, same, has⟩ => by cases same; exact has⟩
  · rw [mem_relist_other _ _ same, lists.2]
    by_cases inside : other < items.length
    · rw [List.getElem?_append_left inside]
    · have behind : (items ++ [item])[other]? = none := List.getElem?_eq_none (by simp; omega)
      rw [behind, List.getElem?_eq_none (Nat.le_of_not_lt inside)]

theorem lists_nil (of : α → Bool) : Lists [] of [] := ⟨List.nodup_nil, fun place => by simp⟩

end Listing
