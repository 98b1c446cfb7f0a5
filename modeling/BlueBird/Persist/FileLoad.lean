import BlueBird.Memory.Writes
import BlueBird.Persist.KeyValue

/-! What the file backend writes into the buffer of its caller. -/

namespace BlueBird.Persist

open Memory (Within Write performAll)

/-- The writes of `file_load` in their order, and what it returns. -/
def fileLoadWrites (w : World) (basepath key : Bytes) (bufsize : Nat) : List (Write Byte) × Int :=
  match w.files.read (makePath basepath key) with
  | none => ([], 1)
  | some content =>
    if content.length > bufsize then ([], 1)
    else ([⟨0, content⟩, ⟨content.length, [0]⟩], 0)

/-- All writes are in the buffer, and with 0 it holds the file, and a NUL behind it if there is room. -/
structure LoadsInside (w : World) (basepath key buf : Bytes) : Prop where
  inside : Within buf.length (fileLoadWrites w basepath key buf.length).1
  content : (fileLoadWrites w basepath key buf.length).2 = 0 → ∃ content, w.files.read (makePath basepath key) = some content ∧
    performAll buf (fileLoadWrites w basepath key buf.length).1 =
      content ++ if content.length < buf.length then 0 :: buf.drop (content.length + 1) else []

/-- No file that fills the buffer to its last byte. -/
def NotFull (w : World) (basepath key buf : Bytes) : Prop :=
  ∀ content, w.files.read (makePath basepath key) = some content → content.length ≠ buf.length

theorem performAll_load (content buf : Bytes) :
    performAll buf [⟨0, content⟩, ⟨content.length, [0]⟩] = content ++ 0 :: buf.drop (content.length + 1) := by
  have first : Write.perform buf ⟨0, content⟩ = content ++ buf.drop content.length := by
    show [] ++ (content ++ buf.drop (0 + content.length)) = _
    rw [Nat.zero_add]
    rfl
  show Write.perform (Write.perform buf ⟨0, content⟩) ⟨content.length, [0]⟩ = _
  rw [first]
  show (content ++ buf.drop content.length).take content.length ++
    ([0] ++ (content ++ buf.drop content.length).drop (content.length + 1)) = _
  rw [List.take_left' rfl, List.drop_append, List.drop_of_length_le (by omega), List.nil_append, Nat.add_sub_cancel_left,
    List.drop_drop]
  rfl

theorem fileLoad_writes (w : World) (basepath key buf : Bytes) :
    (Within buf.length (fileLoadWrites w basepath key buf.length).1 →
        fileLoad w basepath key buf = some ((fileLoadWrites w basepath key buf.length).2,
          performAll buf (fileLoadWrites w basepath key buf.length).1)) ∧
      (¬ Within buf.length (fileLoadWrites w basepath key buf.length).1 → fileLoad w basepath key buf = none) := by
  unfold fileLoad fileLoadWrites
  cases w.files.read (makePath basepath key) with
  | none => exact ⟨fun _ => rfl, fun outside => absurd Within.nil outside⟩
  | some content =>
    dsimp only
    by_cases long : content.length > buf.length
    · rw [if_pos long, if_pos long]
      exact ⟨fun _ => rfl, fun outside => absurd Within.nil outside⟩
    · rw [if_neg long, if_neg long]
      by_cases full : content.length = buf.length
      · rw [if_pos full]
        refine ⟨fun inside => ?_, fun _ => rfl⟩
        have last := inside ⟨content.length, [0]⟩ (List.mem_cons_of_mem _ List.mem_cons_self)
        have ends : content.length + 1 ≤ buf.length := last
        omega
      · rw [if_neg full]
        constructor
        · intro _
          rw [performAll_load]
        · intro outside
          refine absurd ?_ outside
          intro write member
          rcases List.mem_cons.mp member with rfl | rest
          · show 0 + content.length ≤ buf.length
            omega
          · rw [List.mem_singleton.mp rest]
            show content.length + 1 ≤ buf.length
            omega

theorem fileLoadWrites_none {w : World} {basepath key : Bytes} (read : w.files.read (makePath basepath key) = none)
    (bufsize : Nat) : fileLoadWrites w basepath key bufsize = ([], 1) := by
  unfold fileLoadWrites
  rw [read]

theorem fileLoadWrites_long {w : World} {basepath key content : Bytes} (read : w.files.read (makePath basepath key) = some content)
    {bufsize : Nat} (long : content.length > bufsize) : fileLoadWrites w basepath key bufsize = ([], 1) := by
  unfold fileLoadWrites
  rw [read]
  exact if_pos long

theorem fileLoadWrites_short {w : World} {basepath key content : Bytes} (read : w.files.read (makePath basepath key) = some content)
    {bufsize : Nat} (short : content.length ≤ bufsize) :
    fileLoadWrites w basepath key bufsize = ([⟨0, content⟩, ⟨content.length, [0]⟩], 0) := by
  unfold fileLoadWrites
  rw [read]
  exact if_neg (Nat.not_lt.mpr short)

theorem load_inside_iff (w : World) (basepath key buf : Bytes) :
    Within buf.length (fileLoadWrites w basepath key buf.length).1 ↔ NotFull w basepath key buf := by
  constructor
  · intro inside content read full
    rw [fileLoadWrites_short read (Nat.le_of_eq full)] at inside
    have ends : content.length + 1 ≤ buf.length := inside ⟨content.length, [0]⟩ (List.mem_cons_of_mem _ List.mem_cons_self)
    omega
  · intro notFull
    cases read : w.files.read (makePath basepath key) with
    | none =>
      rw [fileLoadWrites_none read]
      exact Within.nil
    | some content =>
      have other := notFull content read
      by_cases long : content.length > buf.length
      · rw [fileLoadWrites_long read long]
        exact Within.nil
      · rw [fileLoadWrites_short read (Nat.le_of_not_lt long)]
        intro write member
        rcases List.mem_cons.mp member with rfl | rest
        · show 0 + content.length ≤ buf.length
          omega
        · rw [List.mem_singleton.mp rest]
          show content.length + 1 ≤ buf.length
          omega

theorem loadsInside_iff (w : World) (basepath key buf : Bytes) :
    LoadsInside w basepath key buf ↔ NotFull w basepath key buf := by
  constructor
  · intro loads
    exact (load_inside_iff w basepath key buf).mp loads.inside
  · intro notFull
    refine ⟨(load_inside_iff w basepath key buf).mpr notFull, ?_⟩
    intro success
    cases read : w.files.read (makePath basepath key) with
    | none =>
      rw [fileLoadWrites_none read] at success
      cases success
    | some content =>
      have other := notFull content read
      by_cases long : content.length > buf.length
      · rw [fileLoadWrites_long read long] at success
        cases success
      · refine ⟨content, rfl, ?_⟩
        rw [fileLoadWrites_short read (Nat.le_of_not_lt long), performAll_load, if_pos (by omega)]

/-- `bb_persist_kv_load` with the file backend passes the buffer on as it is. -/
theorem kvStep_load_file (r : Registry) (w : World) (key buf : Bytes) :
    (kvStep { r with default := some fileApi } w (.load key buf)).isSome = true ↔
      r.defaultUri = [] ∨ NotFull { w with files := w.files.mkdir r.defaultUri } r.defaultUri key buf := by
  have step : kvStep { r with default := some fileApi } w (.load key buf) =
      if r.defaultUri = [] then some (w, ⟨1, buf⟩)
      else (fileLoad { w with files := w.files.mkdir r.defaultUri } r.defaultUri key buf).map fun result =>
        ({ w with files := w.files.mkdir r.defaultUri }, ⟨result.1, result.2⟩) := by
    show (if r.defaultUri = [] then _ else _) = _
    by_cases unset : r.defaultUri = []
    · rw [if_pos unset, if_pos unset]
      rfl
    · rw [if_neg unset, if_neg unset]
      show (fileLoad _ r.defaultUri key buf).bind _ = _
      cases fileLoad { w with files := w.files.mkdir r.defaultUri } r.defaultUri key buf <;> rfl
  rw [step]
  by_cases unset : r.defaultUri = []
  · rw [if_pos unset]
    exact iff_of_true rfl (Or.inl unset)
  · rw [if_neg unset, Option.isSome_map]
    have writes := fileLoad_writes { w with files := w.files.mkdir r.defaultUri } r.defaultUri key buf
    have inside := load_inside_iff { w with files := w.files.mkdir r.defaultUri } r.defaultUri key buf
    by_cases notFull : NotFull { w with files := w.files.mkdir r.defaultUri } r.defaultUri key buf
    · rw [writes.1 (inside.mpr notFull)]
      exact iff_of_true rfl (Or.inr notFull)
    · rw [writes.2 fun within => notFull (inside.mp within)]
      refine iff_of_false Bool.false_ne_true fun either => ?_
      exact notFull (either.resolve_left unset)

/-- The load, and the registry's load with this backend, stay inside the buffer just where no file fills it. -/
theorem fileLoad_stays_iff (r : Registry) (w : World) (basepath key buf : Bytes) :
    (LoadsInside w basepath key buf ↔ NotFull w basepath key buf) ∧
      ((kvStep { r with default := some fileApi } w (.load key buf)).isSome = true ↔
        r.defaultUri = [] ∨ NotFull { w with files := w.files.mkdir r.defaultUri } r.defaultUri key buf) :=
  ⟨loadsInside_iff w basepath key buf, kvStep_load_file r w key buf⟩

def fourBytes : World where
  files := { entries := [([ascii "kv"], .directory), ([ascii "kv", ascii "a"], .file (ascii "1234"))] }
  sqlite := { canOpen := fun _ => false, rowSize := fun _ _ => 0 }

theorem not_loadsInside_full : ¬ ∀ buf, LoadsInside fourBytes (ascii "kv") (ascii "a") buf := by
  intro all
  have notFull := (loadsInside_iff _ _ _ _).mp (all [0, 0, 0, 0])
  exact notFull (ascii "1234") (by decide +kernel) (by decide +kernel)

end BlueBird.Persist
