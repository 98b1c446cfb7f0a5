import Mathlib.Data.List.Basic

namespace Framing

variable {ι β : Type}

/-- `rest` stops before the end of the first frame of `todo`. -/
def Unfinished (encode : ι → List β) (todo : List ι) (rest : List β) : Prop :=
  match todo with
  | [] => rest = []
  | next :: _ => rest.length < (encode next).length

theorem count_le (encode : ι → List β) (nonempty : ∀ item, encode item ≠ []) (items : List ι) :
    items.length ≤ (items.flatMap encode).length := by
  induction items with
  | nil => exact Nat.le_refl 0
  | cons item items ih =>
    have one := List.length_pos_of_ne_nil (nonempty item)
    simp only [List.flatMap_cons, List.length_append, List.length_cons]
    omega

theorem cut (encode : ι → List β) (items : List ι) (before after : List β)
    (stream : items.flatMap encode = before ++ after) :
    ∃ done todo rest, items = done ++ todo ∧ before = done.flatMap encode ++ rest ∧
      todo.flatMap encode = rest ++ after ∧ Unfinished encode todo rest := by
  induction items generalizing before with
  | nil =>
    have empty : before = [] ∧ after = [] := by simpa using stream.symm
    exact ⟨[], [], [], rfl, by simp [empty], by simp [empty], rfl⟩
  | cons item items ih =>
    by_cases short : before.length < (encode item).length
    · exact ⟨[], item :: items, before, rfl, rfl, stream, short⟩
    · rw [List.flatMap_cons] at stream
      have front : before <+: encode item ++ items.flatMap encode := by
        rw [stream]
        exact List.prefix_append _ _
      obtain ⟨later, whole⟩ : encode item <+: before :=
        List.prefix_of_prefix_length_le (List.prefix_append _ _) front (by omega)
      subst whole
      rw [List.append_assoc, List.append_cancel_left_eq] at stream
      obtain ⟨done, todo, rest, parts, prefixed, left, unfinished⟩ := ih later stream
      exact ⟨item :: done, todo, rest, by rw [parts]; rfl, by simp [prefixed], left, unfinished⟩

theorem unfinished_prefix (encode : ι → List β) (next : ι) (todo : List ι) (rest after : List β)
    (stream : (next :: todo).flatMap encode = rest ++ after)
    (unfinished : Unfinished encode (next :: todo) rest) :
    ∃ missing, encode next = rest ++ missing ∧ missing ≠ [] := by
  rw [List.flatMap_cons] at stream
  have front : rest <+: encode next ++ todo.flatMap encode := by
    rw [stream]
    exact List.prefix_append _ _
  obtain ⟨missing, joined⟩ : rest <+: encode next :=
    List.prefix_of_prefix_length_le front (List.prefix_append _ _) (Nat.le_of_lt unfinished)
  refine ⟨missing, joined.symm, ?_⟩
  rintro rfl
  simp only [Unfinished, ← joined, List.append_nil, Nat.lt_irrefl] at unfinished

end Framing
