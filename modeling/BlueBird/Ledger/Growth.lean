import Mathlib.Logic.Function.Basic
import BlueBird.Ledger.Loading

namespace BlueBird.Ledger

/-- What a set that was loaded from `paths` must be like. -/
structure Grows (read : Bytes → Except String Bytes) (paths : List Bytes) (set : List Migration) : Prop where
  permutation : ∃ items, List.Forall₂ (Loads read) paths items ∧ set.Perm items
  ascending : Ascending (set.map (·.version))
  next : ∃ v, nextVersion set = some v ∧ ∀ m ∈ set, m.version < v
  roundTrip : ∀ version name cap out, formatFilename set version name cap = .ok out →
    parseFilename out nameMax = .ok (version, name)
  /-- A file created for the next version is loaded as the last one, in whatever order the files are named. -/
  last : ∀ v name cap out path content, nextVersion set = some v → formatFilename set v name cap = .ok out →
    basenameOf path = out → 0 ∉ content → ∀ paths', paths'.Perm (path :: paths) →
      loadFiles (Function.update read path (.ok content)) paths' =
        .ok (set ++ [fileMigration v name content])

def Topmost (path : Bytes) : Prop := ∃ name, parseFilename path nameMax = .ok (int64Max, name)

section

variable {read : Bytes → Except String Bytes} {paths : List Bytes} {set : List Migration}

theorem version_le (loaded : loadFiles read paths = .ok set) {m : Migration} (member : m ∈ set) : m.version ≤ int64Max := by
  rcases path_of_mem loaded member with ⟨path, _, loads⟩
  rcases loadFile_ok loads with ⟨name, data, parse, _⟩
  rcases parseFilename_ok parse with ⟨digits, _, _, small⟩
  exact small

theorem topmost_iff (loaded : loadFiles read paths = .ok set) :
    (∃ path ∈ paths, Topmost path) ↔ ∃ m ∈ set, m.version = int64Max := by
  constructor
  · intro top
    rcases top with ⟨path, member, name, parse⟩
    rcases mem_of_path loaded member with ⟨m, item, loads⟩
    rcases loadFile_ok loads with ⟨name', _, parse', _⟩
    rw [parse] at parse'
    exact ⟨m, item, (Prod.mk.inj (Except.ok.inj parse')).1.symm⟩
  · intro top
    rcases top with ⟨m, member, version⟩
    rcases path_of_mem loaded member with ⟨path, file, loads⟩
    rcases loadFile_ok loads with ⟨name, _, parse, _⟩
    rw [version] at parse
    exact ⟨path, file, name, parse⟩

theorem nextVersion_some (ascending : Ascending (set.map (·.version))) {v : Int} (next : nextVersion set = some v) :
    v ≤ int64Max ∧ ∀ m ∈ set, m.version < v := by
  unfold nextVersion at next
  rcases List.eq_nil_or_concat set with rfl | ⟨older, last, rfl⟩
  · cases next
    exact ⟨by decide, by simp⟩
  · rw [List.concat_eq_append, List.getLast?_concat] at next
    by_cases room : last.version < int64Max
    · simp only [if_pos room, Option.some.injEq] at next
      rw [List.concat_eq_append, List.map_append, Ascending, List.pairwise_append] at ascending
      refine ⟨by omega, ?_⟩
      intro m member
      rw [List.concat_eq_append] at member
      rcases List.mem_append.mp member with earlier | final
      · have below := ascending.2.2 m.version (List.mem_map.mpr ⟨m, earlier, rfl⟩) last.version (by simp)
        omega
      · rw [List.mem_singleton.mp final]
        omega
    · simp only [if_neg room] at next
      cases next

theorem nextVersion_exists (small : ∀ m ∈ set, m.version < int64Max) : ∃ v, nextVersion set = some v := by
  unfold nextVersion
  cases last : set.getLast? with
  | none => exact ⟨1, rfl⟩
  | some m => exact ⟨m.version + 1, if_pos (small m (List.mem_of_getLast? last))⟩

theorem parseFilename_basename {path out : Bytes} (base : basenameOf path = out) (clean : basenameOf out = out) (cap : Nat) :
    parseFilename path cap = parseFilename out cap := by
  unfold parseFilename
  rw [base, clean]

theorem loadEach_update {path : Bytes} (content : Except String Bytes) (other : ∀ p ∈ paths, p ≠ path) :
    loadEach (Function.update read path content) paths = loadEach read paths := by
  induction paths with
  | nil => rfl
  | cons p paths ih =>
    have same : loadFile (Function.update read path content) p = loadFile read p := by
      unfold loadFile
      rw [Function.update_of_ne (other p List.mem_cons_self)]
    rw [loadEach, loadEach, same, ih fun q member => other q (List.mem_cons_of_mem _ member)]

theorem loads_last (loaded : loadFiles read paths = .ok set) {v : Int} {name out path content : Bytes} {cap : Nat}
    (next : nextVersion set = some v) (formatted : formatFilename set v name cap = .ok out) (base : basenameOf path = out)
    (clean : 0 ∉ content) {paths' : List Bytes} (order : paths'.Perm (path :: paths)) :
    loadFiles (Function.update read path (.ok content)) paths' =
      .ok (set ++ [fileMigration v name content]) := by
  rcases loadFiles_ok.mp loaded with ⟨items, each, sorted, ascending⟩
  rcases nextVersion_some ascending next with ⟨_, above⟩
  rcases formatFilename_ok formatted with ⟨_, named, _⟩
  have parse : parseFilename path nameMax = .ok (v, name) :=
    (parseFilename_basename base named.basename nameMax).trans (parseFilename_formatFilename formatted)
  have other : ∀ p ∈ paths, p ≠ path := by
    intro p member same
    rcases mem_of_path loaded member with ⟨m, item, loads⟩
    rcases loadFile_ok loads with ⟨_, _, parse', _⟩
    rw [same, parse] at parse'
    have version := (Prod.mk.inj (Except.ok.inj parse')).1
    have below := above m item
    omega
  have new : Loads (Function.update read path (.ok content)) path (fileMigration v name content) :=
    loads_of parse (Function.update_self path _ read) clean
  have old : List.Forall₂ (Loads (Function.update read path (.ok content))) paths items := by
    rw [← loadEach_ok, loadEach_update (.ok content) other]
    exact loadEach_ok.mpr each
  have perm : (set ++ [fileMigration v name content]).Perm
      (fileMigration v name content :: items) := by
    apply List.perm_append_comm.trans
    apply List.Perm.cons
    rw [sorted]
    exact List.mergeSort_perm _ _
  have longer : Ascending
      ((set ++ [fileMigration v name content]).map (·.version)) := by
    unfold Ascending at ascending ⊢
    rw [List.map_append, List.pairwise_append]
    refine ⟨ascending, List.pairwise_singleton _ _, ?_⟩
    intro w member u last
    rcases List.mem_map.mp member with ⟨m, item, rfl⟩
    rw [List.mem_singleton.mp last]
    exact above m item
  exact loadFiles_of_perm (.cons new old) order perm longer

theorem grows_iff (loaded : loadFiles read paths = .ok set) : Grows read paths set ↔ ∀ path ∈ paths, ¬ Topmost path := by
  rcases loadFiles_ok.mp loaded with ⟨items, each, sorted, ascending⟩
  constructor
  · intro grows path member top
    rcases (topmost_iff loaded).mp ⟨path, member, top⟩ with ⟨m, item, version⟩
    rcases grows.next with ⟨v, next, _⟩
    rcases nextVersion_some ascending next with ⟨small, above⟩
    have below := above m item
    omega
  · intro free
    have small : ∀ m ∈ set, m.version < int64Max := by
      intro m item
      apply Int.lt_iff_le_and_ne.mpr ⟨version_le loaded item, _⟩
      intro version
      rcases (topmost_iff loaded).mpr ⟨m, item, version⟩ with ⟨path, member, top⟩
      exact free path member top
    rcases nextVersion_exists small with ⟨v, next⟩
    constructor
    · exact ⟨items, each, by rw [sorted]; exact List.mergeSort_perm _ _⟩
    · exact ascending
    · exact ⟨v, next, (nextVersion_some ascending next).2⟩
    · intro version name cap out formatted
      exact parseFilename_formatFilename formatted
    · intro v name cap out path content next formatted base clean paths' order
      exact loads_last loaded next formatted base clean order

end

theorem grows_iff_two :
    Grows (fun _ => .ok []) [ascii "m/10_b.sql", ascii "0002_a.sql"]
      [fileMigration 2 (ascii "a") [], fileMigration 10 (ascii "b") []] := by
  have later : parseFilename (ascii "m/10_b.sql") nameMax = .ok (10, ascii "b") := by decide +kernel
  have earlier : parseFilename (ascii "0002_a.sql") nameMax = .ok (2, ascii "a") := by decide +kernel
  have first := @loads_of (fun _ => .ok []) _ _ [] _ later rfl (by decide)
  have second := @loads_of (fun _ => .ok []) _ _ [] _ earlier rfl (by decide)
  have sorted : Ascending [2, 10] := by
    unfold Ascending
    decide
  apply (grows_iff (loadFiles_of_perm (.cons first (.cons second .nil)) (.refl _) (.swap _ _ _) sorted)).mpr
  intro path member top
  rcases top with ⟨name, parse⟩
  rcases List.mem_cons.mp member with rfl | member
  · rw [later] at parse
    exact absurd (Prod.mk.inj (Except.ok.inj parse)).1 (by decide)
  · rw [List.mem_singleton.mp member, earlier] at parse
    exact absurd (Prod.mk.inj (Except.ok.inj parse)).1 (by decide)

def topmostPath : Bytes := ascii "9223372036854775807_a.sql"

/-- The version after the largest that a name can have does not fit. -/
theorem not_grows_topmost : ¬ ∀ (read : Bytes → Except String Bytes) (paths : List Bytes) (set : List Migration),
    loadFiles read paths = .ok set → Grows read paths set := by
  intro grows
  have parse : parseFilename topmostPath nameMax = .ok (int64Max, ascii "a") := by decide +kernel
  have first := @loads_of (fun _ => .ok []) _ _ [] _ parse rfl (by decide)
  have loaded := loadFiles_of_perm (.cons first .nil) (.refl _) (.refl _) (List.pairwise_singleton _ _)
  rcases (grows _ _ _ loaded).next with ⟨v, next, _⟩
  cases next

end BlueBird.Ledger
