import Mathlib.Algebra.Ring.Nat
import Mathlib.Data.List.Basic

/-! Absorbing a stream a block at a time: pieces of any lengths come in, and what does not fill a block is kept. -/

namespace Blockwise

section

variable {State Item : Type} (compress : State → List Item → State) (size : Nat)

/-- `count` blocks from the front of the items. -/
def run : (count : Nat) → State → List Item → State × List Item
  | 0, s, items => (s, items)
  | count + 1, s, items => run count (compress s (items.take size)) (items.drop size)

/-- The blocks that are full once `items` follow what is kept. -/
def absorb (s : State × List Item) (items : List Item) : State × List Item :=
  run compress size ((s.2 ++ items).length / size) s.1 (s.2 ++ items)

def blocks : (count : Nat) → List Item → List (List Item)
  | 0, _ => []
  | count + 1, items => items.take size :: blocks count (items.drop size)

end

section

variable {State Item : Type} {compress : State → List Item → State} {size : Nat}

theorem run_fst (count : Nat) (s : State) (items : List Item) :
    (run compress size count s items).1 = (blocks size count items).foldl compress s := by
  induction count generalizing s items with
  | zero => rfl
  | succ count ih => exact ih _ _

theorem run_snd (count : Nat) (s : State) (items : List Item) :
    (run compress size count s items).2 = items.drop (count * size) := by
  induction count generalizing s items with
  | zero => simp [run]
  | succ count ih =>
    rw [run, ih, List.drop_drop]
    congr 1
    rw [Nat.add_mul, Nat.one_mul, Nat.add_comm]

theorem run_append {count : Nat} (more : Nat) (s : State) {items : List Item} (later : List Item)
    (enough : count * size ≤ items.length) :
    run compress size (count + more) s (items ++ later) =
      run compress size more (run compress size count s items).1 ((run compress size count s items).2 ++ later) := by
  induction count generalizing s items with
  | zero => rw [Nat.zero_add, run]
  | succ count ih =>
    have room : size ≤ items.length := by
      rw [Nat.add_mul, Nat.one_mul] at enough
      omega
    have rest : count * size ≤ (items.drop size).length := by
      rw [List.length_drop]
      rw [Nat.add_mul, Nat.one_mul] at enough
      omega
    rw [Nat.add_right_comm, run, List.take_append_of_le_length room, List.drop_append_of_le_length room, ih _ rest, run]

theorem length_absorb (s : State × List Item) (items : List Item) :
    (absorb compress size s items).2.length = (s.2.length + items.length) % size := by
  rw [absorb, run_snd, List.length_drop, List.length_append]
  have split := Nat.div_add_mod' (s.2.length + items.length) size
  omega

theorem absorb_nil {s : State × List Item} (short : s.2.length < size) : absorb compress size s [] = s := by
  rw [absorb, List.append_nil, Nat.div_eq_of_lt short, run]

theorem absorb_of_lt {s : State × List Item} {items : List Item} (short : (s.2 ++ items).length < size) :
    absorb compress size s items = (s.1, s.2 ++ items) := by
  rw [absorb, Nat.div_eq_of_lt short, run]

theorem absorb_of_le (positive : 0 < size) {s : State × List Item} {items : List Item}
    (kept : s.2.length ≤ size) (full : size ≤ (s.2 ++ items).length) :
    absorb compress size s items =
      absorb compress size (compress s.1 (s.2 ++ items.take (size - s.2.length)), []) (items.drop (size - s.2.length)) := by
  have block : (s.2 ++ items).take size = s.2 ++ items.take (size - s.2.length) := by
    rw [List.take_append, List.take_of_length_le kept]
  have rest : (s.2 ++ items).drop size = items.drop (size - s.2.length) := by
    rw [List.drop_append, List.drop_of_length_le kept, List.nil_append]
  have count : (s.2 ++ items).length / size = (items.drop (size - s.2.length)).length / size + 1 := by
    rw [← rest, List.length_drop, Nat.div_eq_sub_div positive full]
  rw [absorb, count, run, block, rest, absorb, List.nil_append]

theorem absorb_absorb (positive : 0 < size) (s : State × List Item) (items later : List Item) :
    absorb compress size (absorb compress size s items) later = absorb compress size s (items ++ later) := by
  have whole : (s.2 ++ items).length / size * size ≤ (s.2 ++ items).length := Nat.div_mul_le_self _ _
  have count : (s.2 ++ (items ++ later)).length / size =
      (s.2 ++ items).length / size +
        ((run compress size ((s.2 ++ items).length / size) s.1 (s.2 ++ items)).2 ++ later).length / size := by
    have kept : ((run compress size ((s.2 ++ items).length / size) s.1 (s.2 ++ items)).2 ++ later).length =
        (s.2 ++ items).length - (s.2 ++ items).length / size * size + later.length := by
      rw [run_snd, List.length_append, List.length_drop]
    have total : (s.2 ++ (items ++ later)).length =
        (s.2 ++ items).length - (s.2 ++ items).length / size * size + later.length +
          (s.2 ++ items).length / size * size := by
      rw [← List.append_assoc, List.length_append]
      omega
    rw [kept, total, Nat.add_mul_div_right _ _ positive, Nat.add_comm]
  have joined := @run_append _ _ compress size _
    (((run compress size ((s.2 ++ items).length / size) s.1 (s.2 ++ items)).2 ++ later).length / size) s.1 _ later whole
  rw [← count, List.append_assoc] at joined
  exact joined.symm

theorem absorb_blocks {s : State} {items : List Item} (whole : size ∣ items.length) :
    absorb compress size (s, []) items = ((blocks size (items.length / size) items).foldl compress s, []) := by
  rw [absorb, List.nil_append]
  apply Prod.ext
  · exact run_fst _ _ _
  · rw [run_snd, Nat.div_mul_cancel whole, List.drop_length]

end

end Blockwise
