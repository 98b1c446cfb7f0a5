import BlueBird.Memory.CString
import Mathlib.Data.List.Basic

/-! Memory as a list of cells, and what is written into it in the course of a run. -/

namespace Memory

variable {α : Type}

structure Write (α : Type) where
  offset : Nat
  cells : List α
  deriving DecidableEq, Repr

def Write.perform (memory : List α) (write : Write α) : List α :=
  memory.take write.offset ++ (write.cells ++ memory.drop (write.offset + write.cells.length))

def performAll (memory : List α) (writes : List (Write α)) : List α := writes.foldl Write.perform memory

/-- The same write, seen from `distance` cells before. -/
def Write.move (distance : Nat) (write : Write α) : Write α := { write with offset := distance + write.offset }

/-- Every write ends at `limit` or before. -/
def Within (limit : Nat) (writes : List (Write α)) : Prop :=
  ∀ write ∈ writes, write.offset + write.cells.length ≤ limit

theorem performAll_append (memory : List α) (first second : List (Write α)) :
    performAll memory (first ++ second) = performAll (performAll memory first) second :=
  List.foldl_append

theorem perform_move (front back : List α) (write : Write α) :
    (write.move front.length).perform (front ++ back) = front ++ write.perform back := by
  unfold Write.perform Write.move
  dsimp only
  rw [List.take_length_add_append, Nat.add_assoc, List.drop_length_add_append, List.append_assoc]

theorem performAll_move (front back : List α) (writes : List (Write α)) :
    performAll (front ++ back) (writes.map (Write.move front.length)) = front ++ performAll back writes := by
  induction writes generalizing back with
  | nil => rfl
  | cons write writes ih =>
    show performAll (Write.perform (front ++ back) (write.move front.length)) _ = front ++ performAll (write.perform back) writes
    rw [perform_move, ih]

theorem Within.nil {limit : Nat} : Within limit ([] : List (Write α)) := fun _ member => absurd member List.not_mem_nil

theorem Within.append {limit : Nat} {first second : List (Write α)} (inFirst : Within limit first)
    (inSecond : Within limit second) : Within limit (first ++ second) := by
  intro write member
  rcases List.mem_append.mp member with early | late
  · exact inFirst write early
  · exact inSecond write late

theorem Within.mono {limit more : Nat} {writes : List (Write α)} (inside : Within limit writes) (le : limit ≤ more) :
    Within more writes :=
  fun write member => Nat.le_trans (inside write member) le

theorem Within.move {limit distance : Nat} {writes : List (Write α)} (inside : Within limit writes) :
    Within (distance + limit) (writes.map (Write.move distance)) := by
  intro write member
  rcases List.mem_map.mp member with ⟨own, among, rfl⟩
  have ends := inside own among
  show distance + own.offset + own.cells.length ≤ distance + limit
  omega

/-- `front` has been written, and from `slack` cells behind it on the memory is what it was. -/
def Filled (memory front now : List α) (slack : Nat) : Prop :=
  ∃ tail, now = front ++ tail ∧ ∀ k, slack ≤ k → tail.drop k = memory.drop (front.length + k)

theorem Filled.start (memory : List α) : Filled memory [] memory 0 := ⟨memory, rfl, by simp⟩

theorem Filled.write {memory front now : List α} {slack : Nat} (filled : Filled memory front now slack)
    (write : Write α) (left : Nat) (next : write.offset = front.length) (covered : slack ≤ left + write.cells.length) :
    Filled memory (front ++ write.cells) (write.perform now) left := by
  rcases filled with ⟨tail, rfl, same⟩
  refine ⟨tail.drop write.cells.length, ?_, ?_⟩
  · unfold Write.perform
    rw [next, List.take_left, List.drop_length_add_append, List.append_assoc]
  · intro k enough
    rw [List.drop_drop, same _ (by omega), List.length_append, Nat.add_assoc]

theorem Filled.back {memory front extra now : List α} (filled : Filled memory (front ++ extra) now 0) :
    Filled memory front now extra.length := by
  rcases filled with ⟨tail, rfl, same⟩
  refine ⟨extra ++ tail, by simp, ?_⟩
  intro k enough
  have later := same (k - extra.length) (Nat.zero_le _)
  rw [List.length_append] at later
  rw [List.drop_append, List.drop_of_length_le enough, List.nil_append, later]
  congr 1
  omega

theorem Filled.all {memory front now : List α} (filled : Filled memory front now 0) :
    now = front ++ memory.drop front.length := by
  rcases filled with ⟨tail, rfl, same⟩
  have whole := same 0 (Nat.le_refl 0)
  rw [List.drop_zero, Nat.add_zero] at whole
  rw [whole]

/-! ## Text that is printed piece by piece into a buffer that may be too small, and measured all the same -/

section Printing

variable [Zero α]

/-- The buffer, and how long the text is so far. No buffer at all is one without cells. -/
structure Printing (α : Type) where
  cells : List α
  length : Nat := 0
  deriving Repr

/-- `snprintf` behind what is printed already: as much as there is room for, and a zero. -/
def Printing.print (out : Printing α) (text : List α) : Printing α :=
  { cells :=
      if out.length < out.cells.length then
        Write.perform out.cells ⟨out.length, text.take (out.cells.length - out.length - 1) ++ [0]⟩
      else out.cells,
    length := out.length + text.length }

def Printing.printAll (out : Printing α) (pieces : List (List α)) : Printing α := pieces.foldl Printing.print out

/-- The text is measured, and the buffer has as much of its front as it holds with a zero behind. -/
structure Printing.Holds (size : Nat) (out : Printing α) (text : List α) : Prop where
  measured : out.length = text.length
  sized : out.cells.length = size
  front : 0 < size → ∃ behind, out.cells = text.take (size - 1) ++ 0 :: behind

omit [Zero α] in
theorem length_perform (memory : List α) (write : Write α) (inside : write.offset + write.cells.length ≤ memory.length) :
    (write.perform memory).length = memory.length := by
  unfold Write.perform
  rw [List.length_append, List.length_append, List.length_take, List.length_drop]
  omega

theorem Printing.holds_print {size : Nat} {out : Printing α} {text : List α} (holds : out.Holds size text) (more : List α) :
    (out.print more).Holds size (text ++ more) := by
  rcases holds with ⟨measured, sized, front⟩
  have longer : (out.print more).length = (text ++ more).length := by
    show out.length + more.length = _
    rw [measured, List.length_append]
  by_cases room : out.length < out.cells.length
  · have cells : (out.print more).cells =
        Write.perform out.cells ⟨out.length, more.take (out.cells.length - out.length - 1) ++ [0]⟩ := if_pos room
    have width : out.length + (more.take (out.cells.length - out.length - 1) ++ [0]).length ≤ out.cells.length := by
      rw [List.length_append, List.length_take, List.length_singleton]
      omega
    refine ⟨longer, ?_, ?_⟩
    · rw [cells, length_perform _ _ width, sized]
    · intro some_
      rcases front some_ with ⟨behind, whole⟩
      have fits : text.take (size - 1) = text := List.take_of_length_le (by omega)
      rw [fits] at whole
      have before : out.cells.take out.length = text := by rw [whole, measured, List.take_left' rfl]
      refine ⟨out.cells.drop (out.length + (more.take (out.cells.length - out.length - 1) ++ [0]).length), ?_⟩
      have rest : size - 1 - text.length = out.cells.length - out.length - 1 := by omega
      rw [cells]
      unfold Write.perform
      dsimp only
      rw [before, List.take_append, fits, rest, List.append_assoc, List.append_assoc]
      rfl
  · have cells : (out.print more).cells = out.cells := if_neg room
    refine ⟨longer, by rw [cells, sized], ?_⟩
    intro some_
    rcases front some_ with ⟨behind, whole⟩
    refine ⟨behind, ?_⟩
    rw [cells, List.take_append_of_le_length (by omega)]
    exact whole

theorem Printing.holds_printAll {size : Nat} {out : Printing α} {text : List α} (holds : out.Holds size text)
    (pieces : List (List α)) : (out.printAll pieces).Holds size (text ++ pieces.flatten) := by
  induction pieces generalizing out text with
  | nil =>
    rw [List.flatten_nil, List.append_nil]
    exact holds
  | cons piece pieces ih =>
    rw [List.flatten_cons, ← List.append_assoc]
    exact ih (holds_print holds piece)

theorem Printing.Holds.stringAt [DecidableEq α] {size : Nat} {out : Printing α} {text : List α} (holds : out.Holds size text)
    (some_ : 0 < size) (clean : 0 ∉ text) : Memory.stringAt out.cells = some (text.take (size - 1)) := by
  rcases holds.front some_ with ⟨behind, whole⟩
  rw [whole]
  exact stringAt_append (fun member => clean (List.mem_of_mem_take member)) behind

end Printing

end Memory
