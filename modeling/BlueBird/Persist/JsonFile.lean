import BlueBird.Json.Reprinting
import BlueBird.Persist.KeyValue

/-! A file with one tree in it: what `bb_json_dump` leaves there, and what `bb_json_load` reads back. -/

namespace BlueBird.Persist

variable {R : Type} [Reals R]

def treeText (v : Json R) : Bytes := Json.render v (some 0)

/-- The text is one that an `int` can count, with its NUL. -/
def Counted (v : Json R) : Prop := (treeText v).length + 1 < 2^31

theorem treeText_object (entries : List (Bytes × Json R)) : ∃ rest, treeText (.object entries) = ch '\x7b' :: rest := by
  unfold treeText
  rw [Json.render, Json.objectLayout]
  exact ⟨_, rfl⟩

section
variable {files : FileSystem} {uri : Bytes} {path : Path} (malloc : Nat → Bytes) (place : files.resolve uri = some path)
  (other : files.node? path ≠ some .directory) {v : Json R}
include place other

/-- The two calls of `fwrite` that a dump is: none, and the whole text. -/
theorem jsonDump_counted (counted : Counted v) :
    jsonDump malloc files (some v) uri =
      if ((treeText v).length : Int) > 0 then (files.put path (.file (treeText v)), 0) else (files.put path (.file []), 0) := by
  have serialized := Json.serialize_eq_render malloc (some 0) v counted
  have fills := Json.serializeJson_prints v (some 0) (Nat.lt_of_succ_lt counted)
  have size : (Json.serializeJson v (some 0) ⟨none, 0⟩).2 = ((treeText v).length : Int) := by
    rw [fills.measures 0]
    rfl
  have taken : (Json.render v (some 0) ++ 0 :: (malloc ((Json.render v (some 0)).length + 1)).drop
      ((Json.render v (some 0)).length + 1)).take (treeText v).length = treeText v :=
    List.take_left' rfl
  unfold jsonDump
  rw [FileSystem.write_file place other]
  dsimp only
  rw [serialized]
  dsimp only
  rw [size, Int.toNat_natCast, taken, FileSystem.write_file place other]
  rfl

theorem jsonDump_object {entries : List (Bytes × Json R)} (counted : Counted (.object entries : Json R)) :
    jsonDump malloc files (some (.object entries : Json R)) uri =
      (files.put path (.file (treeText (.object entries : Json R))), 0) := by
  rcases treeText_object entries with ⟨rest, front⟩
  have positive : ((treeText (.object entries : Json R)).length : Int) > 0 := by
    rw [front, List.length_cons]
    omega
  rw [jsonDump_counted malloc place other counted, if_pos positive]

theorem jsonDump_fails {error : Json.SerializeError} (fails : Json.serialize malloc (some 0) v = .error error) :
    jsonDump malloc files (some v) uri = (files.put path (.file []), 1) := by
  unfold jsonDump
  rw [FileSystem.write_file place other]
  dsimp only
  rw [fails]

theorem jsonDump_succeeds (counted : Counted v) : (jsonDump malloc files (some v) uri).2 = 0 := by
  rw [jsonDump_counted malloc place other counted]
  split <;> rfl

end

/-! ## Where the system refuses -/

/-- What a dump is answered: whether the file is opened where its path allows it, the block for the text, if there
    is one, and how many bytes come to be in the file. -/
structure DumpAnswers where
  opens : Bool
  memory : Option Bytes
  written : Nat

/-- The measured length, which `bb_json_serialize_indented` keeps in an `int`. -/
def measured (v : Json R) : Int := Json.toInt (Json.serializeJson v (some 0) ⟨none, 0⟩).2

/-- `bb_json_dump` with every answer the system can give. Neither `fwrite` nor `fclose` is asked how it went. -/
def jsonDumpAnswered (answers : DumpAnswers) (files : FileSystem) (json : Json R) (path : Bytes) : FileSystem × Int :=
  match if answers.opens then files.write path [] else none with
  | none => (files, 1)
  | some opened =>
    let size := measured json
    let capacity := Json.toInt (size + 1)
    if size < 0 ∨ capacity < 0 then (opened, 1)
    else
      match answers.memory with
      | none => (opened, 1)
      | some block =>
        let buffer := (Json.serializeJson json (some 0) ⟨some block, capacity.toNat⟩).1.getD []
        if size > 0 then ((files.write path ((buffer.take size.toNat).take answers.written)).getD opened, 0) else (opened, 0)

/-- The dump is refused and the content kept, or it is accepted and the file holds the text. -/
structure FailureAtomic (answers : DumpAnswers) (files : FileSystem) (v : Json R) (uri : Bytes) : Prop where
  refused : (jsonDumpAnswered answers files v uri).2 ≠ 0 → ∀ content, files.read uri = some content →
    (jsonDumpAnswered answers files v uri).1.read uri = some content
  accepted : (jsonDumpAnswered answers files v uri).2 = 0 →
    (jsonDumpAnswered answers files v uri).1.read uri = some (treeText v)

def Opens (answers : DumpAnswers) (files : FileSystem) (uri : Bytes) : Prop :=
  answers.opens = true ∧ (files.write uri []).isSome = true

/-- There is no block for the text, or its length is measured as one that no block has. -/
def Unserializable (answers : DumpAnswers) (v : Json R) : Prop :=
  measured v < 0 ∨ Json.toInt (measured v + 1) < 0 ∨ answers.memory = none

/-- The file cannot be opened; or there was nothing in it to lose; or nothing fails that comes after the opening. -/
def Spared (answers : DumpAnswers) (files : FileSystem) (v : Json R) (uri : Bytes) : Prop :=
  ¬ Opens answers files uri ∨
    (Unserializable answers v ∧ ∀ content, files.read uri = some content → content = []) ∨
    (¬ Unserializable answers v ∧ Counted v ∧ (treeText v).length ≤ answers.written)

theorem measured_counted {v : Json R} (counted : Counted v) : measured v = (treeText v).length := by
  have fills := Json.serializeJson_prints v (some 0) (Nat.lt_of_succ_lt counted)
  unfold measured
  rw [fills.measures 0]
  exact Json.toInt_small (by omega) (Int.ofNat_lt.mpr (Nat.lt_of_succ_lt counted))

section
variable {answers : DumpAnswers} {files : FileSystem} {uri : Bytes} {v : Json R}

theorem jsonDumpAnswered_closed (closed : ¬ Opens answers files uri) :
    jsonDumpAnswered answers files v uri = (files, 1) := by
  have none_ : (if answers.opens then files.write uri [] else none) = none := by
    by_cases opens : answers.opens = true
    · rw [if_pos opens]
      exact Option.not_isSome_iff_eq_none.mp fun there => closed ⟨opens, there⟩
    · rw [if_neg opens]
  unfold jsonDumpAnswered
  rw [none_]

theorem jsonDumpAnswered_refused (open_ : Opens answers files uri) (fails : Unserializable answers v) :
    ∃ after, files.write uri [] = some after ∧ jsonDumpAnswered answers files v uri = (after, 1) := by
  rcases Option.isSome_iff_exists.mp open_.2 with ⟨opened, truncated⟩
  refine ⟨opened, truncated, ?_⟩
  unfold jsonDumpAnswered
  rw [if_pos open_.1, truncated]
  dsimp only
  by_cases short : measured v < 0 ∨ Json.toInt (measured v + 1) < 0
  · rw [if_pos short]
  · have memory : answers.memory = none := by
      rcases fails with low | high | refused
      · exact absurd (Or.inl low) short
      · exact absurd (Or.inr high) short
      · exact refused
    rw [if_neg short, memory]

theorem jsonDumpAnswered_accepted (open_ : Opens answers files uri) (serializes : ¬ Unserializable answers v) :
    ∃ after content, files.write uri content = some after ∧ jsonDumpAnswered answers files v uri = (after, 0) ∧
      content.length ≤ (measured v).toNat ∧ content.length ≤ answers.written ∧ (measured v).toNat + 1 < 2^31 ∧
      (Counted v → content = (treeText v).take answers.written) := by
  rcases not_or.mp serializes with ⟨low, rest⟩
  rcases not_or.mp rest with ⟨high, memory⟩
  rcases Option.ne_none_iff_exists'.mp memory with ⟨block, given⟩
  rcases Option.isSome_iff_exists.mp open_.2 with ⟨opened, truncated⟩
  have bound : (measured v).toNat + 1 < 2^31 := by
    have below : measured v < 2^31 := by
      have half := Int.bmod_lt (x := (Json.serializeJson v (some 0) ⟨none, 0⟩).2) (m := 2^32) (by decide)
      unfold measured Json.toInt
      omega
    by_cases largest : measured v = 2^31 - 1
    · rw [largest] at high
      exact absurd (by decide) high
    · omega
  have shape : jsonDumpAnswered answers files v uri =
      if measured v > 0 then ((files.write uri ((((Json.serializeJson v (some 0)
        ⟨some block, (Json.toInt (measured v + 1)).toNat⟩).1.getD []).take (measured v).toNat).take answers.written)).getD opened, 0)
      else (opened, 0) := by
    unfold jsonDumpAnswered
    rw [if_pos open_.1, truncated]
    dsimp only
    rw [if_neg (not_or.mpr ⟨low, high⟩), given]
  by_cases some_ : measured v > 0
  · rw [if_pos some_] at shape
    generalize content_ : (((Json.serializeJson v (some 0)
      ⟨some block, (Json.toInt (measured v + 1)).toNat⟩).1.getD []).take (measured v).toNat).take answers.written = content at shape
    have writes : (files.write uri content).isSome = true := (FileSystem.write_isSome content []).trans open_.2
    rcases Option.isSome_iff_exists.mp writes with ⟨after, written⟩
    refine ⟨after, content, written, ?_, ?_, ?_, bound, ?_⟩
    · rw [shape, written]
      rfl
    · rw [← content_, List.length_take, List.length_take]
      omega
    · rw [← content_, List.length_take]
      omega
    · intro counted
      have size := measured_counted counted
      have fills := Json.serializeJson_prints v (some 0) (Nat.lt_of_succ_lt counted)
      have capacity : (Json.toInt (measured v + 1)).toNat = (treeText v).length + 1 := by
        rw [size, Json.toInt_small (by omega) (by unfold Counted at counted; omega)]
        rfl
      rw [← content_, capacity, fills.writes block ((treeText v).length + 1) (Nat.lt_succ_self _), size, Int.toNat_natCast]
      exact congrArg (List.take answers.written) (List.take_left' rfl)
  · rw [if_neg some_] at shape
    refine ⟨opened, [], truncated, shape, Nat.zero_le _, Nat.zero_le _, bound, ?_⟩
    intro counted
    rw [measured_counted counted] at some_
    rw [List.eq_nil_of_length_eq_zero (l := treeText v) (by omega), List.take_nil]

theorem jsonDumpAnswered_granted (malloc : Nat → Bytes) {path : Path} (place : files.resolve uri = some path)
    (other : files.node? path ≠ some .directory) (counted : Counted v) (block : Bytes) :
    jsonDumpAnswered { opens := true, memory := some block, written := (treeText v).length } files v uri =
      jsonDump malloc files (some v) uri := by
  have opens : Opens { opens := true, memory := some block, written := (treeText v).length } files uri :=
    ⟨rfl, by rw [FileSystem.write_file place other]; rfl⟩
  have serializes : ¬ Unserializable { opens := true, memory := some block, written := (treeText v).length } v := by
    unfold Counted at counted
    unfold Unserializable
    rw [measured_counted counted, Json.toInt_small (by omega) (by omega)]
    intro either
    rcases either with low | high | none_
    · omega
    · omega
    · cases none_
  rcases jsonDumpAnswered_accepted opens serializes with ⟨after, content, written, result, _, _, _, whole⟩
  rw [FileSystem.write_file place other, whole counted, List.take_length] at written
  rw [result, ← Option.some.inj written, jsonDump_counted malloc place other counted]
  by_cases some_ : ((treeText v).length : Int) > 0
  · rw [if_pos some_]
  · rw [if_neg some_, List.eq_nil_of_length_eq_zero (l := treeText v) (by omega)]

theorem failureAtomic_iff (answers : DumpAnswers) (files : FileSystem) (v : Json R) (uri : Bytes) :
    FailureAtomic answers files v uri ↔ Spared answers files v uri := by
  by_cases open_ : Opens answers files uri
  · by_cases fails : Unserializable answers v
    · rcases jsonDumpAnswered_refused open_ fails with ⟨after, truncated, result⟩
      have empty := FileSystem.read_write truncated
      constructor
      · intro atomic
        refine Or.inr (Or.inl ⟨fails, ?_⟩)
        intro content before
        have kept := atomic.refused (by rw [result]; exact Int.one_ne_zero) content before
        rw [result, empty] at kept
        exact (Option.some.inj kept).symm
      · intro spared
        rcases spared with closed | ⟨_, nothing⟩ | ⟨serializes, _⟩
        · exact absurd open_ closed
        · constructor
          · intro _ content before
            rw [result, nothing content before]
            exact empty
          · intro accepted
            rw [result] at accepted
            cases accepted
        · exact absurd fails serializes
    · rcases jsonDumpAnswered_accepted open_ fails with ⟨after, content, written, result, short, cut, bound, whole⟩
      have now := FileSystem.read_write written
      constructor
      · intro atomic
        have same := atomic.accepted (by rw [result])
        rw [result, now] at same
        have text := Option.some.inj same
        refine Or.inr (Or.inr ⟨fails, ?_, ?_⟩)
        · unfold Counted
          rw [← text]
          omega
        · rw [← text]
          exact cut
      · intro spared
        rcases spared with closed | ⟨refused, _⟩ | ⟨_, counted, room⟩
        · exact absurd open_ closed
        · exact absurd refused fails
        · constructor
          · intro failed
            rw [result] at failed
            exact absurd rfl failed
          · intro _
            rw [result, now, whole counted, List.take_of_length_le room]
  · have result := jsonDumpAnswered_closed (v := v) open_
    constructor
    · intro _
      exact Or.inl open_
    · intro _
      constructor
      · intro _ content before
        rw [result]
        exact before
      · intro accepted
        rw [result] at accepted
        cases accepted

end

/-- A file with a tree in it, which is to be replaced by another when there is no memory for its text. -/
def savedFiles : FileSystem where
  entries := [([ascii "a.json"], .file (ascii "[1]"))]

theorem not_failureAtomic_savedFiles :
    ¬ @FailureAtomic Rat Json.halves { opens := true, memory := none, written := 4 } savedFiles .null (ascii "a.json") := by
  intro atomic
  have kept := @FailureAtomic.refused Rat Json.halves _ _ _ _ atomic (by decide +kernel) (ascii "[1]") (by decide +kernel)
  exact absurd kept (by decide +kernel)

theorem jsonLoadFile_object (numbers : Json.ReadsNumbers R) {files : FileSystem} {uri : Bytes} {entries : List (Bytes × Json R)}
    (reprintable : Json.Reprintable Json.maxDepth (.object entries : Json R))
    (read : files.read uri = some (treeText (.object entries : Json R))) : jsonLoadFile R files uri = some (.object entries) := by
  have item := Json.Denotes.item Json.White.nil (reprintable.denotes (some 0)) Json.White.nil
  rw [List.append_nil, List.nil_append] at item
  have text : Json.IsText (treeText (.object entries : Json R)) (.object entries) := item
  have clean : (0 : Byte) ∉ treeText (.object entries : Json R) := item.clean
  have parsed := text.parse_eq numbers []
  rcases treeText_object entries with ⟨rest, front⟩
  have noMark : ¬ (treeText (.object entries : Json R)).take 3 = [0xEF, 0xBB, 0xBF] := by
    rw [front, List.take_succ_cons]
    intro same
    exact absurd (List.cons.inj same).1 (by decide)
  unfold jsonLoadFile
  rw [read]
  show (if (0 : Byte) ∈ treeText (.object entries : Json R) then none else _) = _
  rw [if_neg clean]
  rw [if_neg noMark, parsed]
  rfl

theorem jsonLoadFile_reprintable (formats : Json.FormatsReals R) {files : FileSystem} {uri : Bytes} {v : Json R}
    (loaded : jsonLoadFile R files uri = some v) : Json.Reprintable Json.maxDepth v := by
  unfold jsonLoadFile at loaded
  rcases Option.bind_eq_some_iff.mp loaded with ⟨content, _, parsed⟩
  by_cases nul : (0 : Byte) ∈ content
  · rw [if_pos nul] at parsed
    cases parsed
  · rw [if_neg nul] at parsed
    refine Json.reprintable_of_parse formats ?_ (Outcome.ok_of_toOption parsed)
    split
    · exact fun inside => nul (List.mem_of_mem_drop inside)
    · exact nul

end BlueBird.Persist
