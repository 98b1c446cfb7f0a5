import Mathlib.Data.List.Perm.Basic
import Mathlib.Data.List.Sort
import BlueBird.Ledger.Checksum
import BlueBird.Ledger.FileNames

namespace BlueBird.Ledger

def fileMigration (version : Int) (name data : Bytes) : Migration where
  version := version
  name := asText name
  checksum := asText (checksum data)
  sql := data

/-- One round of the loop of `bb_migrate_load_files`; `read` is the file system's `read_file`. -/
def loadFile (read : Bytes → Except String Bytes) (path : Bytes) : Except String Migration := do
  let parsed ← parseFilename path nameMax
  let data ← read path
  if 0 ∈ data then .error ("'" ++ asText path ++ "' contains a NUL byte")
  else .ok (fileMigration parsed.1 parsed.2 data)

def loadEach (read : Bytes → Except String Bytes) : List Bytes → Except String (List Migration)
  | [] => .ok []
  | path :: paths => do
    let m ← loadFile read path
    let rest ← loadEach read paths
    return m :: rest

/-- `compare_by_version(a, b) <= 0` -/
def versionLe (a b : Migration) : Bool := a.version ≤ b.version

def firstDuplicate : List Migration → Option (Migration × Migration)
  | a :: b :: items => if b.version = a.version then some (a, b) else firstDuplicate (b :: items)
  | _ => none

/-- `bb_migrate_load_files` -/
def loadFiles (read : Bytes → Except String Bytes) (paths : List Bytes) : Except String (List Migration) := do
  let items ← loadEach read paths
  (firstDuplicate (items.mergeSort versionLe)).elim (.ok (items.mergeSort versionLe)) fun (a, b) =>
    .error ("duplicate migration version " ++ toString b.version ++ " ('" ++ a.name ++ "' and '" ++ b.name ++ "')")

/-! ## What is loaded -/

section Load

variable {read : Bytes → Except String Bytes} {paths : List Bytes} {items set : List Migration}

def Loads (read : Bytes → Except String Bytes) (path : Bytes) (m : Migration) : Prop := loadFile read path = .ok m

theorem loadEach_ok : loadEach read paths = .ok items ↔ List.Forall₂ (Loads read) paths items := by
  induction paths generalizing items with
  | nil =>
    constructor
    · intro loaded
      cases loaded
      exact .nil
    · intro each
      cases each
      rfl
  | cons path paths ih =>
    rw [loadEach]
    constructor
    · intro loaded
      cases first : loadFile read path with
      | error text =>
        rw [first] at loaded
        cases loaded
      | ok m =>
        rw [first] at loaded
        cases rest : loadEach read paths with
        | error text =>
          rw [rest] at loaded
          cases loaded
        | ok later =>
          rw [rest] at loaded
          cases loaded
          exact .cons first (ih.mp rest)
    · intro each
      cases each with
      | cons first rest =>
        rw [show loadFile read path = _ from first, ih.mpr rest]
        rfl

theorem forall₂_left {α β : Type} {R : α → β → Prop} {xs : List α} {ys : List β} (each : List.Forall₂ R xs ys) {x : α}
    (member : x ∈ xs) : ∃ y ∈ ys, R x y := by
  induction each with
  | nil => cases member
  | cons first _ ih =>
    rcases List.mem_cons.mp member with rfl | later
    · exact ⟨_, List.mem_cons_self, first⟩
    · rcases ih later with ⟨y, found, related⟩
      exact ⟨y, List.mem_cons_of_mem _ found, related⟩

theorem loadFile_ok {path : Bytes} {m : Migration} (loaded : Loads read path m) :
    ∃ name data, parseFilename path nameMax = .ok (m.version, name) ∧ read path = .ok data ∧ 0 ∉ data ∧
      m = fileMigration m.version name data := by
  unfold Loads loadFile at loaded
  cases parse : parseFilename path nameMax with
  | error text =>
    rw [parse] at loaded
    cases loaded
  | ok parsed =>
    cases data : read path with
    | error text =>
      rw [parse, data] at loaded
      cases loaded
    | ok bytes =>
      rw [parse, data] at loaded
      by_cases nul : 0 ∈ bytes
      · have refused : (if 0 ∈ bytes then Except.error ("'" ++ asText path ++ "' contains a NUL byte") else
            .ok (fileMigration parsed.1 parsed.2 bytes)) = Except.ok m := loaded
        rw [if_pos nul] at refused
        cases refused
      · have kept : (if 0 ∈ bytes then Except.error ("'" ++ asText path ++ "' contains a NUL byte") else
            .ok (fileMigration parsed.1 parsed.2 bytes)) = Except.ok m := loaded
        rw [if_neg nul] at kept
        cases kept
        exact ⟨parsed.2, bytes, rfl, rfl, nul, rfl⟩

theorem loads_of {path name data : Bytes} {version : Int} (parse : parseFilename path nameMax = .ok (version, name))
    (content : read path = .ok data) (clean : 0 ∉ data) :
    Loads read path (fileMigration version name data) := by
  unfold Loads loadFile
  rw [parse, content]
  exact if_neg clean

theorem firstDuplicate_none : firstDuplicate items = none ↔ (items.map (·.version)).IsChain (· ≠ ·) := by
  induction items with
  | nil => simp [firstDuplicate]
  | cons a items ih =>
    cases items with
    | nil => simp [firstDuplicate]
    | cons b items =>
      rw [firstDuplicate, List.map_cons, List.map_cons, List.isChain_cons_cons]
      rw [List.map_cons] at ih
      by_cases same : b.version = a.version
      · rw [if_pos same]
        exact iff_of_false (by simp) (fun chain => chain.1 same.symm)
      · rw [if_neg same, ih]
        exact (and_iff_right (Ne.symm same)).symm

theorem isChain_lt {versions : List Int} (sorted : versions.IsChain (· ≤ ·)) (distinct : versions.IsChain (· ≠ ·)) :
    versions.IsChain (· < ·) := by
  induction versions with
  | nil => exact .nil
  | cons v versions ih =>
    cases versions with
    | nil => exact .singleton v
    | cons w versions =>
      rw [List.isChain_cons_cons] at sorted distinct ⊢
      exact ⟨Int.lt_iff_le_and_ne.mpr ⟨sorted.1, distinct.1⟩, ih sorted.2 distinct.2⟩

theorem ascending_mergeSort :
    Ascending ((items.mergeSort versionLe).map (·.version)) ↔ firstDuplicate (items.mergeSort versionLe) = none := by
  have sorted : ((items.mergeSort versionLe).map (·.version)).Pairwise (· ≤ ·) := by
    rw [List.pairwise_map]
    have order := @List.pairwise_mergeSort _ versionLe
      (fun a b c ab bc => by
        simp only [versionLe, decide_eq_true_eq] at ab bc ⊢
        omega)
      (fun a b => by
        simp only [versionLe, Bool.or_eq_true, decide_eq_true_eq]
        omega) items
    exact order.imp fun le => of_decide_eq_true le
  rw [firstDuplicate_none, ← ascending_iff]
  exact ⟨fun ascending => ascending.imp fun _ _ below => Int.ne_of_lt below, isChain_lt sorted.isChain⟩

theorem loadFiles_ok : loadFiles read paths = .ok set ↔
    ∃ items, List.Forall₂ (Loads read) paths items ∧ set = items.mergeSort versionLe ∧ Ascending (set.map (·.version)) := by
  unfold loadFiles
  constructor
  · intro loaded
    cases each : loadEach read paths with
    | error text =>
      rw [each] at loaded
      cases loaded
    | ok items =>
      rw [each] at loaded
      cases duplicate : firstDuplicate (items.mergeSort versionLe) with
      | some pair =>
        change (firstDuplicate (items.mergeSort versionLe)).elim _ _ = _ at loaded
        rw [duplicate] at loaded
        cases loaded
      | none =>
        change (firstDuplicate (items.mergeSort versionLe)).elim _ _ = _ at loaded
        rw [duplicate] at loaded
        cases loaded
        exact ⟨items, loadEach_ok.mp each, rfl, ascending_mergeSort.mpr duplicate⟩
  · intro loaded
    rcases loaded with ⟨items, each, rfl, ascending⟩
    rw [loadEach_ok.mpr each]
    show (firstDuplicate (items.mergeSort versionLe)).elim _ _ = _
    rw [ascending_mergeSort.mp ascending]
    rfl

theorem path_of_mem (loaded : loadFiles read paths = .ok set) {m : Migration} (member : m ∈ set) :
    ∃ path ∈ paths, Loads read path m := by
  rcases loadFiles_ok.mp loaded with ⟨items, each, rfl, _⟩
  exact forall₂_left each.flip ((List.mergeSort_perm items _).mem_iff.mp member)

theorem mem_of_path (loaded : loadFiles read paths = .ok set) {path : Bytes} (member : path ∈ paths) :
    ∃ m ∈ set, Loads read path m := by
  rcases loadFiles_ok.mp loaded with ⟨items, each, rfl, _⟩
  rcases forall₂_left each member with ⟨m, item, loads⟩
  exact ⟨m, (List.mergeSort_perm items _).mem_iff.mpr item, loads⟩

theorem loadFiles_of_perm {items : List Migration} (each : List.Forall₂ (Loads read) paths items) {paths' : List Bytes}
    (order : paths'.Perm paths) (same : set.Perm items) (ascending : Ascending (set.map (·.version))) :
    loadFiles read paths' = .ok set := by
  rcases List.perm_comp_forall₂ order each with ⟨items', each', shuffled⟩
  have sorted := List.mergeSort_perm items' versionLe
  have perm : (items'.mergeSort versionLe).Perm set := sorted.trans (shuffled.trans same.symm)
  have distinct : ((items'.mergeSort versionLe).map (·.version)).Nodup :=
    (perm.map Migration.version).nodup_iff.mpr (nodup_of_ascending ascending)
  have strictly : Ascending ((items'.mergeSort versionLe).map (·.version)) :=
    ascending_mergeSort.mpr (firstDuplicate_none.mpr distinct.isChain)
  have equal : items'.mergeSort versionLe = set :=
    (List.pairwise_map.mp strictly).eq_of_mem_iff (List.pairwise_map.mp ascending) fun _ => perm.mem_iff
  rw [← equal] at ascending
  exact loadFiles_ok.mpr ⟨items', each', equal.symm, equal ▸ ascending⟩

end Load

end BlueBird.Ledger
