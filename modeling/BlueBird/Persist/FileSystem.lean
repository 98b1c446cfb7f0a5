import BlueBird.Bytes
import BlueBird.Collections.OrderedMap
import Mathlib.Algebra.Ring.Nat

/-! The files of a POSIX system: no links, and the process may read and write all of them. -/

namespace BlueBird.Persist

inductive FileEntry where
  | file (content : Bytes)
  | directory
  deriving DecidableEq, Repr

/-- The names from the root on. -/
abbrev Path := List Bytes

structure FileSystem where
  entries : List (Path × FileEntry) := []
  cwd : Path := []
  nameMax : Nat := 255
  pathMax : Nat := 4096
  deriving DecidableEq, Repr

namespace FileSystem

def node? (fs : FileSystem) (path : Path) : Option FileEntry :=
  if path = [] then some .directory else OrderedMap.get? fs.entries path

/-- Path resolution: every name but the last is a directory's. -/
def walk (fs : FileSystem) (here : Path) : List Bytes → Option Path
  | [] => some here
  | name :: names =>
    if fs.node? here ≠ some .directory then none
    else if name = [] ∨ name = ascii "." then walk fs here names
    else if name = ascii ".." then walk fs here.dropLast names
    else if name.length > fs.nameMax then none
    else walk fs (here ++ [name]) names

def resolve (fs : FileSystem) (path : Bytes) : Option Path :=
  if path = [] ∨ path.length ≥ fs.pathMax then none
  else fs.walk (if path.head? = some (ch '/') then [] else fs.cwd) (path.splitOn (ch '/'))

/-- What `fopen(path, "rb")` and reading to the end give; a directory has nothing to read. -/
def read (fs : FileSystem) (path : Bytes) : Option Bytes := do
  match fs.node? (← fs.resolve path) with
  | some (.file content) => some content
  | _ => none

def put (fs : FileSystem) (path : Path) (entry : FileEntry) : FileSystem :=
  { fs with entries := OrderedMap.set fs.entries path entry }

/-- `fopen(path, "wb")` with the content that is then written. -/
def write (fs : FileSystem) (path : Bytes) (content : Bytes) : Option FileSystem := do
  let place ← fs.resolve path
  if fs.node? place = some .directory then none else fs.put place (.file content)

def hasChildren (fs : FileSystem) (path : Path) : Bool := fs.entries.any fun entry => entry.1.dropLast = path ∧ entry.1 ≠ []

/-- `remove`: a file, or a directory that is empty and not called `.` or `..`. -/
def remove (fs : FileSystem) (path : Bytes) : Option FileSystem := do
  let place ← fs.resolve path
  match fs.node? place with
  | some (.file _) => some { fs with entries := OrderedMap.erase fs.entries place }
  | some .directory =>
    if (path.splitOn (ch '/')).getLast? ∈ [some (ascii "."), some (ascii "..")] ∨ place = [] ∨ fs.hasChildren place then none
    else some { fs with entries := OrderedMap.erase fs.entries place }
  | none => none

/-- `bb_mkdir`, which does not look at the result of `mkdir`. -/
def mkdir (fs : FileSystem) (path : Bytes) : FileSystem :=
  match fs.resolve (path.reverse.dropWhile (· = ch '/')).reverse with
  | some place => if fs.node? place = none then fs.put place .directory else fs
  | none => fs

/-! ## Lookups -/

theorem node?_put (fs : FileSystem) {path : Path} (inside : path ≠ []) (entry : FileEntry) (other : Path) :
    (fs.put path entry).node? other = if other = path then some entry else fs.node? other := by
  unfold node? put
  by_cases same : other = path
  · rw [if_neg (by rw [same]; exact inside), if_pos same, OrderedMap.get?_set, if_pos same]
  · rw [OrderedMap.get?_set, if_neg same, if_neg same]

theorem node?_erase (fs : FileSystem) {path : Path} (inside : path ≠ []) (other : Path) :
    ({ fs with entries := OrderedMap.erase fs.entries path } : FileSystem).node? other =
      if other = path then none else fs.node? other := by
  unfold node?
  by_cases same : other = path
  · rw [if_neg (by rw [same]; exact inside), if_pos same, OrderedMap.get?_erase, if_pos same]
  · rw [OrderedMap.get?_erase, if_neg same, if_neg same]

/-! ## Resolution -/

theorem walk_append (fs : FileSystem) (here : Path) (names more : List Bytes) :
    fs.walk here (names ++ more) = (fs.walk here names).bind fun place => fs.walk place more := by
  induction names generalizing here with
  | nil => rfl
  | cons name names ih =>
    rw [List.cons_append, walk, walk]
    split
    · rfl
    · split
      · exact ih here
      · split
        · exact ih _
        · split
          · rfl
          · exact ih _

/-- Both systems have the same limits, and the second the directories of the first. -/
structure Extends (fs more : FileSystem) : Prop where
  cwd : more.cwd = fs.cwd
  nameMax : more.nameMax = fs.nameMax
  pathMax : more.pathMax = fs.pathMax
  directories : ∀ path, fs.node? path = some .directory → more.node? path = some .directory

theorem Extends.walk {fs more : FileSystem} (wider : fs.Extends more) {here place : Path} {names : List Bytes}
    (found : fs.walk here names = some place) : more.walk here names = some place := by
  induction names generalizing here with
  | nil => exact found
  | cons name names ih =>
    rw [FileSystem.walk] at found ⊢
    by_cases inside : fs.node? here = some .directory
    · rw [if_neg (not_not_intro inside)] at found
      rw [if_neg (not_not_intro (wider.directories here inside)), wider.nameMax]
      by_cases stay : name = [] ∨ name = ascii "."
      · rw [if_pos stay] at found ⊢
        exact ih found
      · rw [if_neg stay] at found ⊢
        by_cases up : name = ascii ".."
        · rw [if_pos up] at found ⊢
          exact ih found
        · rw [if_neg up] at found ⊢
          by_cases long : name.length > fs.nameMax
          · rw [if_pos long] at found
            cases found
          · rw [if_neg long] at found ⊢
            exact ih found
    · rw [if_pos inside] at found
      cases found

theorem Extends.resolve {fs more : FileSystem} (wider : fs.Extends more) {path : Bytes} {place : Path}
    (found : fs.resolve path = some place) : more.resolve path = some place := by
  unfold FileSystem.resolve at found ⊢
  rw [wider.cwd, wider.pathMax]
  by_cases bad : path = [] ∨ path.length ≥ fs.pathMax
  · rw [if_pos bad] at found
    cases found
  · rw [if_neg bad] at found ⊢
    exact wider.walk found

theorem extends_put {fs : FileSystem} {path : Path} (inside : path ≠ []) {entry : FileEntry}
    (kept : fs.node? path = some .directory → entry = .directory) : fs.Extends (fs.put path entry) where
  cwd := rfl
  nameMax := rfl
  pathMax := rfl
  directories := by
    intro other directory
    rw [node?_put fs inside]
    by_cases same : other = path
    · rw [if_pos same, kept (same ▸ directory)]
    · rw [if_neg same]
      exact directory

theorem extends_erase {fs : FileSystem} {path : Path} (inside : path ≠ []) (other : fs.node? path ≠ some .directory) :
    fs.Extends { fs with entries := OrderedMap.erase fs.entries path } where
  cwd := rfl
  nameMax := rfl
  pathMax := rfl
  directories := by
    intro place directory
    rw [node?_erase fs inside]
    by_cases same : place = path
    · exact absurd (same ▸ directory) other
    · rw [if_neg same]
      exact directory

structure PlainName (nameMax : Nat) (name : Bytes) : Prop where
  nonempty : name ≠ []
  noSlash : ch '/' ∉ name
  noDot : name ≠ ascii "."
  noDots : name ≠ ascii ".."
  short : name.length ≤ nameMax

theorem resolve_child {fs : FileSystem} {base : Bytes} {place : Path} (found : fs.resolve base = some place)
    (directory : fs.node? place = some .directory) {name : Bytes} (plain : PlainName fs.nameMax name)
    (short : base.length + 1 + name.length < fs.pathMax) :
    fs.resolve (base ++ ch '/' :: name) = some (place ++ [name]) := by
  unfold resolve at found ⊢
  by_cases bad : base = [] ∨ base.length ≥ fs.pathMax
  · rw [if_pos bad] at found
    cases found
  · rw [if_neg bad] at found
    rcases not_or.mp bad with ⟨nonempty, _⟩
    have fine : ¬ (base ++ ch '/' :: name = [] ∨ (base ++ ch '/' :: name).length ≥ fs.pathMax) := by
      intro either
      rcases either with empty | long
      · exact nonempty (List.append_eq_nil_iff.mp empty).1
      · rw [List.length_append, List.length_cons] at long
        omega
    have first : (base ++ ch '/' :: name).head? = base.head? := by
      cases base with
      | nil => exact absurd rfl nonempty
      | cons c base => rfl
    rw [if_neg fine, first, List.splitOn_append_cons_self, List.splitOn_eq_singleton plain.noSlash, walk_append, found]
    show fs.walk place [name] = _
    rw [walk, if_neg (not_not_intro directory), if_neg (not_or.mpr ⟨plain.nonempty, plain.noDot⟩), if_neg plain.noDots,
      if_neg (Nat.not_lt.mpr plain.short)]
    rfl

/-! ## Calls at a resolved path -/

section
variable {fs : FileSystem} {path : Bytes} {place : Path}

theorem read_file (found : fs.resolve path = some place) {content : Bytes} (file : fs.node? place = some (.file content)) :
    fs.read path = some content := by
  simp only [read, found, Option.bind_eq_bind, Option.bind_some, file]

theorem read_none (found : fs.resolve path = some place) (absent : fs.node? place = none) : fs.read path = none := by
  simp only [read, found, Option.bind_eq_bind, Option.bind_some, absent]

theorem write_file (found : fs.resolve path = some place) (other : fs.node? place ≠ some .directory) (content : Bytes) :
    fs.write path content = some (fs.put place (.file content)) := by
  unfold write
  rw [found]
  exact if_neg other

theorem read_write {after : FileSystem} {content : Bytes} (written : fs.write path content = some after) :
    after.read path = some content := by
  unfold write at written
  rcases Option.bind_eq_some_iff.mp written with ⟨place, found, rest⟩
  by_cases directory : fs.node? place = some .directory
  · rw [if_pos directory] at rest
    cases rest
  · rw [if_neg directory] at rest
    have inside : place ≠ [] := by
      intro root
      apply directory
      rw [root]
      rfl
    rw [← Option.some.inj rest]
    apply read_file ((extends_put inside fun there => absurd there directory).resolve found)
    rw [node?_put fs inside, if_pos rfl]

theorem write_isSome (content other : Bytes) : (fs.write path content).isSome = (fs.write path other).isSome := by
  unfold write
  cases fs.resolve path with
  | none => rfl
  | some place =>
    by_cases directory : fs.node? place = some .directory
    · show (if _ then _ else _ : Option FileSystem).isSome = (if _ then _ else _ : Option FileSystem).isSome
      rw [if_pos directory, if_pos directory]
    · show (if _ then _ else _ : Option FileSystem).isSome = (if _ then _ else _ : Option FileSystem).isSome
      rw [if_neg directory, if_neg directory]
      rfl

theorem remove_file (found : fs.resolve path = some place) {content : Bytes} (file : fs.node? place = some (.file content)) :
    fs.remove path = some { fs with entries := OrderedMap.erase fs.entries place } := by
  simp only [remove, found, Option.bind_eq_bind, Option.bind_some, file]

theorem remove_none (found : fs.resolve path = some place) (absent : fs.node? place = none) : fs.remove path = none := by
  simp only [remove, found, Option.bind_eq_bind, Option.bind_some, absent]

end

end FileSystem
end BlueBird.Persist
