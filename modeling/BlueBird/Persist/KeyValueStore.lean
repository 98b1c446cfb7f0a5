import BlueBird.Json.RoundTrip
import BlueBird.Persist.KeyValue

namespace BlueBird.Persist

open Refinement

/-! ## One abstract store -/

/-- The keys that have been saved, with their values. -/
abbrev Store := List (Bytes × Bytes)

/-- The bytes of the buffer are those of the value; a zero may have been put behind them. -/
def Filled (value buffer result : Bytes) : Prop :=
  result = value ++ buffer.drop value.length ∨ result = value ++ 0 :: buffer.drop (value.length + 1)

def storeNext (m : Store) : KvOp → Store
  | .save key value _ => OrderedMap.set m key value
  | .load _ _ => m
  | .remove key => OrderedMap.erase m key

def storeAnswers (m : Store) : KvOp → KvResult → Prop
  | .save _ _ _, r => r.rc = 0
  | .load key buffer, r =>
    (∀ value, OrderedMap.get? m key = some value → r.rc = 0 ∧ Filled value buffer r.buffer) ∧
      (OrderedMap.get? m key = none → r.rc ≠ 0 ∧ r.buffer = buffer)
  | .remove key, r => OrderedMap.get? m key ≠ none → r.rc = 0

/-- Saves and removals change their key and no other, a load changes nothing, and the value of a key is what was saved
for it last. -/
def store : Behaviour Store KvOp KvResult where
  next := storeNext
  answers := storeAnswers

def KvOp.key : KvOp → Bytes
  | .save key _ _ => key
  | .load key _ => key
  | .remove key => key

/-- The operations there can be: a C string that is not empty for a key, and a buffer larger than the value. -/
structure Called (m : Store) (op : KvOp) : Prop where
  nonempty : op.key ≠ []
  clean : (0 : Byte) ∉ op.key
  room : ∀ key buffer, op = .load key buffer → ∀ value, OrderedMap.get? m key = some value → value.length < buffer.length

theorem answers_absent {m : Store} {key : Bytes} (absent : OrderedMap.get? m key = none) (buffer : Bytes) {rc : Int}
    (failed : rc ≠ 0) : store.answers m (.load key buffer) ⟨rc, buffer⟩ := by
  constructor
  · intro value same
    rw [absent] at same
    cases same
  · exact fun _ => ⟨failed, rfl⟩

theorem answers_present {m : Store} {key value : Bytes} (present : OrderedMap.get? m key = some value) {buffer result : Bytes}
    (filled : Filled value buffer result) : store.answers m (.load key buffer) ⟨0, result⟩ := by
  constructor
  · intro other same
    rw [present] at same
    cases same
    exact ⟨rfl, filled⟩
  · intro absent
    rw [present] at absent
    cases absent

theorem storeNext_remove (m : Store) (key : Bytes) : store.next m (.remove key) = OrderedMap.erase m key := rfl

/-- What a backend does once it is the default one. -/
def apiStep (api : KvApi) (uri : Bytes) (w : World) (op : KvOp) : Option (World × KvResult) := do
  let w ← api.openHandle w uri
  match op with
  | .save key value behind => do
    let (w, rc) ← api.save w uri key value behind
    return (api.close w uri, ⟨rc, []⟩)
  | .load key buffer => do
    let (rc, buffer) ← api.load w uri key buffer
    return (api.close w uri, ⟨rc, buffer⟩)
  | .remove key => do
    let (w, rc) ← api.remove w uri key
    return (api.close w uri, ⟨rc, []⟩)

theorem kvStep_default {r : Registry} {api : KvApi} (default : r.default = some api) (uri : r.defaultUri ≠ []) {w opened : World}
    (opens : api.openHandle w r.defaultUri = some opened) (op : KvOp) : kvStep r w op = apiStep api r.defaultUri w op := by
  unfold kvStep apiStep
  rw [default]
  dsimp only
  rw [if_neg uri, opens]
  cases op <;> rfl

/-! ## Files -/

/-- Names that mean an entry of the directory, in a path that is not too long. -/
structure FileAllows (files : FileSystem) (uri : Bytes) (op : KvOp) : Prop where
  plain : FileSystem.PlainName files.nameMax op.key
  short : uri.length + 1 + op.key.length < files.pathMax

structure FileHolds (limits : FileSystem) (uri : Bytes) (base : Path) (m : Store) (files : FileSystem) : Prop where
  nameMax : files.nameMax = limits.nameMax
  pathMax : files.pathMax = limits.pathMax
  inside : base ≠ []
  place : files.resolve uri = some base
  directory : files.node? base = none ∨ files.node? base = some .directory
  entries : ∀ name, files.node? (base ++ [name]) = (OrderedMap.get? m name).map .file

theorem child_ne (base : Path) (name : Bytes) : base ++ [name] ≠ base := by
  intro same
  have longer := congrArg List.length same
  rw [List.length_append, List.length_singleton] at longer
  omega

theorem child_inj {base : Path} {name other : Bytes} (same : base ++ [other] = base ++ [name]) : other = name :=
  List.singleton_inj.mp (List.append_cancel_left same)

theorem FileHolds.opened {limits files : FileSystem} {uri : Bytes} {base : Path} {m : Store}
    (holds : FileHolds limits uri base m files) (plain : uri.getLast? ≠ some (ch '/')) :
    FileHolds limits uri base m (files.mkdir uri) ∧ (files.mkdir uri).node? base = some .directory := by
  have stripped : (uri.reverse.dropWhile (· = ch '/')).reverse = uri := by
    rw [List.dropWhile_eq_self_iff.mpr, List.reverse_reverse]
    intro nonempty slash
    apply plain
    have head : uri.reverse.head? = some (uri.reverse[0]) := List.head?_eq_getElem? ▸ List.getElem?_eq_getElem nonempty
    rw [List.getLast?_eq_head?_reverse, head]
    exact congrArg some (of_decide_eq_true slash)
  unfold FileSystem.mkdir
  rw [stripped, holds.place]
  dsimp only
  rcases holds.directory with absent | directory
  · rw [if_pos absent]
    have wider : files.Extends (files.put base .directory) := FileSystem.extends_put holds.inside fun _ => rfl
    refine ⟨⟨holds.nameMax, holds.pathMax, holds.inside, wider.resolve holds.place, Or.inr ?_, fun name => ?_⟩, ?_⟩
    · rw [FileSystem.node?_put files holds.inside, if_pos rfl]
    · rw [FileSystem.node?_put files holds.inside, if_neg (child_ne base name)]
      exact holds.entries name
    · rw [FileSystem.node?_put files holds.inside, if_pos rfl]
  · rw [if_neg (by rw [directory]; exact Option.some_ne_none _)]
    exact ⟨holds, directory⟩

section
variable {limits files : FileSystem} {uri : Bytes} {base : Path} {m : Store}

theorem FileHolds.child (holds : FileHolds limits uri base m files) (directory : files.node? base = some .directory)
    {op : KvOp} (allowed : FileAllows limits uri op) : files.resolve (makePath uri op.key) = some (base ++ [op.key]) := by
  apply FileSystem.resolve_child holds.place directory
  · rw [holds.nameMax]
    exact allowed.plain
  · rw [holds.pathMax]
    exact allowed.short

theorem FileHolds.notDirectory (holds : FileHolds limits uri base m files) (key : Bytes) :
    files.node? (base ++ [key]) ≠ some .directory := by
  rw [holds.entries]
  cases OrderedMap.get? m key with
  | none => exact fun same => by cases same
  | some value => exact fun same => by cases same

theorem FileHolds.saved (holds : FileHolds limits uri base m files) (directory : files.node? base = some .directory)
    (key value : Bytes) : FileHolds limits uri base (OrderedMap.set m key value) (files.put (base ++ [key]) (.file value)) := by
  have inside : base ++ [key] ≠ [] := List.append_ne_nil_of_right_ne_nil _ (List.cons_ne_nil _ _)
  have wider : files.Extends (files.put (base ++ [key]) (.file value)) :=
    FileSystem.extends_put inside fun directory => absurd directory (holds.notDirectory key)
  refine ⟨holds.nameMax, holds.pathMax, holds.inside, wider.resolve holds.place, Or.inr (wider.directories base directory),
    fun name => ?_⟩
  rw [FileSystem.node?_put files inside, OrderedMap.get?_set]
  by_cases same : name = key
  · rw [if_pos (by rw [same]), if_pos same]
    rfl
  · rw [if_neg (fun equal => same (child_inj equal)), if_neg same]
    exact holds.entries name

theorem FileHolds.removed (holds : FileHolds limits uri base m files) (directory : files.node? base = some .directory)
    (key : Bytes) : FileHolds limits uri base (OrderedMap.erase m key)
      { files with entries := OrderedMap.erase files.entries (base ++ [key]) } := by
  have inside : base ++ [key] ≠ [] := List.append_ne_nil_of_right_ne_nil _ (List.cons_ne_nil _ _)
  have wider := FileSystem.extends_erase inside (holds.notDirectory key)
  refine ⟨holds.nameMax, holds.pathMax, holds.inside, wider.resolve holds.place, Or.inr (wider.directories base directory),
    fun name => ?_⟩
  rw [FileSystem.node?_erase files inside, OrderedMap.get?_erase]
  by_cases same : name = key
  · rw [if_pos (by rw [same]), if_pos same]
    rfl
  · rw [if_neg (fun equal => same (child_inj equal)), if_neg same]
    exact holds.entries name

end

theorem file_simulates (limits : FileSystem) {uri : Bytes} (base : Path) (plain : uri.getLast? ≠ some (ch '/')) :
    Simulates (Machine.mk (apiStep fileApi uri)) store (fun m op => Called m op ∧ FileAllows limits uri op)
      (fun m w => FileHolds limits uri base m w.files) := by
  intro m w op holds guard
  rcases guard with ⟨called, allowed⟩
  rcases holds.opened plain with ⟨ready, directory⟩
  have child := ready.child directory allowed
  cases op with
  | save key value behind =>
    have written := FileSystem.write_file child (ready.notDirectory key) value
    refine ⟨{ w with files := (w.files.mkdir uri).put (base ++ [key]) (.file value) }, ⟨0, []⟩, ?_, rfl,
      ready.saved directory key value⟩
    show ((fileSave { w with files := w.files.mkdir uri } uri key value behind).bind fun done => some (done.1, KvResult.mk done.2 [])) = _
    unfold fileSave
    rw [show (w.files.mkdir uri).write (makePath uri key) value = _ from written]
    rfl
  | load key buffer =>
    refine ⟨{ w with files := w.files.mkdir uri }, ?_⟩
    have entry := ready.entries key
    have step : (Machine.mk (apiStep fileApi uri)).step w (.load key buffer) =
        (fileLoad { w with files := w.files.mkdir uri } uri key buffer).bind fun done =>
          some ({ w with files := w.files.mkdir uri }, KvResult.mk done.1 done.2) := rfl
    rw [step]
    cases found : OrderedMap.get? m key with
    | none =>
      rw [found] at entry
      have nothing := FileSystem.read_none child entry
      refine ⟨⟨1, buffer⟩, ?_, answers_absent found buffer Int.one_ne_zero, ready⟩
      unfold fileLoad
      rw [show (w.files.mkdir uri).read (makePath uri key) = _ from nothing]
      rfl
    | some value =>
      rw [found] at entry
      have content := FileSystem.read_file child entry
      have larger := called.room key buffer rfl value found
      refine ⟨⟨0, value ++ 0 :: buffer.drop (value.length + 1)⟩, ?_, answers_present found (Or.inr rfl), ready⟩
      unfold fileLoad
      rw [show (w.files.mkdir uri).read (makePath uri key) = _ from content]
      dsimp only
      rw [if_neg (by omega), if_neg (by omega)]
      rfl
  | remove key =>
    have entry := ready.entries key
    have step : (Machine.mk (apiStep fileApi uri)).step w (.remove key) =
        (fileRemove { w with files := w.files.mkdir uri } uri key).bind fun done => some (done.1, KvResult.mk done.2 []) := rfl
    rw [step]
    cases found : OrderedMap.get? m key with
    | none =>
      rw [found] at entry
      have nothing := FileSystem.remove_none child entry
      refine ⟨{ w with files := w.files.mkdir uri }, ⟨1, []⟩, ?_, ?_, ?_⟩
      · unfold fileRemove
        rw [show (w.files.mkdir uri).remove (makePath uri key) = _ from nothing]
        rfl
      · exact fun present => absurd found present
      · refine ⟨ready.nameMax, ready.pathMax, ready.inside, ready.place, ready.directory, fun name => ?_⟩
        rw [ready.entries, storeNext_remove, OrderedMap.get?_erase_of_absent found]
    | some value =>
      rw [found] at entry
      have gone := FileSystem.remove_file child entry
      refine ⟨{ w with files := { w.files.mkdir uri with entries := OrderedMap.erase (w.files.mkdir uri).entries (base ++ [key]) } },
        ⟨0, []⟩, ?_, fun _ => rfl, ready.removed directory key⟩
      unfold fileRemove
      rw [show (w.files.mkdir uri).remove (makePath uri key) = _ from gone]
      rfl

/-! ## JSON -/

section
variable (R : Type) [Reals R]

def document (m : Store) : Json R := .object (OrderedMap.mapValues (fun value => .text (some value)) m)

def documentText (m : Store) : Bytes := Json.render (document R m) (some 0)

/-- Values that are C strings, whose NUL is the byte behind them, and a document whose size is an `int`. -/
structure JsonAllows (m : Store) (op : KvOp) : Prop where
  text : ∀ key value behind, op = .save key value behind → (0 : Byte) ∉ value ∧ behind.head? = some 0
  short : (documentText R (storeNext m op)).length + 1 < 2^31

structure JsonHolds (uri : Bytes) (path : Path) (m : Store) (files : FileSystem) : Prop where
  place : files.resolve uri = some path
  inside : path ≠ []
  distinct : OrderedMap.Distinct m
  keys : ∀ entry ∈ m, (0 : Byte) ∉ entry.1
  values : ∀ entry ∈ m, (0 : Byte) ∉ entry.2
  content : (m = [] ∧ (files.node? path = none ∨ files.node? path = some (.file []))) ∨
    files.node? path = some (.file (documentText R m))

end

section
variable {R : Type} [Reals R]

omit [Reals R] in
theorem document_printable {m : Store} (distinct : OrderedMap.Distinct m) (keys : ∀ entry ∈ m, (0 : Byte) ∉ entry.1)
    (values : ∀ entry ∈ m, (0 : Byte) ∉ entry.2) : Json.Printable Json.maxDepth (document R m) := by
  show Json.Printable (511 + 1) (document R m)
  apply Json.Printable.object
  · exact OrderedMap.distinct_mapValues _ distinct
  · intro entry member
    rcases List.mem_map.mp member with ⟨source, inside, rfl⟩
    exact keys source inside
  · intro entry member
    rcases List.mem_map.mp member with ⟨source, inside, rfl⟩
    exact .text (values source inside)

theorem documentText_head (m : Store) : ∃ rest, documentText R m = ch '\x7b' :: rest := by
  unfold documentText document
  rw [Json.render, Json.objectLayout]
  exact ⟨_, rfl⟩

theorem parse_nothing : (Json.parse (R := R) [0]).toOption = none := rfl

theorem jsonLoadFile_document (numbers : Json.ReadsNumbers R) {files : FileSystem} {uri : Bytes} {m : Store}
    (distinct : OrderedMap.Distinct m) (keys : ∀ entry ∈ m, (0 : Byte) ∉ entry.1) (values : ∀ entry ∈ m, (0 : Byte) ∉ entry.2)
    (read : files.read uri = some (documentText R m)) : jsonLoadFile R files uri = some (document R m) := by
  have item := Json.Denotes.item Json.White.nil ((document_printable (R := R) distinct keys values).denotes (some 0)) Json.White.nil
  rw [List.append_nil, List.nil_append] at item
  have text : Json.IsText (documentText R m) (document R m) := item
  have clean : (0 : Byte) ∉ documentText R m := item.clean
  have parsed := text.parse_eq numbers []
  rcases documentText_head (R := R) m with ⟨rest, front⟩
  have noMark : ¬ (documentText R m).take 3 = [0xEF, 0xBB, 0xBF] := by
    rw [front, List.take_succ_cons]
    intro same
    exact absurd (List.cons.inj same).1 (by decide)
  unfold jsonLoadFile
  rw [read]
  show (if (0 : Byte) ∈ documentText R m then none else _) = _
  rw [if_neg clean]
  rw [if_neg noMark, parsed]
  rfl

theorem JsonHolds.loaded (numbers : Json.ReadsNumbers R) {uri : Bytes} {path : Path} {m : Store} {files : FileSystem}
    (holds : JsonHolds R uri path m files) :
    (m = [] ∧ jsonLoadFile R files uri = none) ∨ jsonLoadFile R files uri = some (document R m) := by
  rcases holds.content with ⟨empty, absent | blank⟩ | written
  · left
    refine ⟨empty, ?_⟩
    unfold jsonLoadFile
    rw [FileSystem.read_none holds.place absent]
    rfl
  · left
    refine ⟨empty, ?_⟩
    unfold jsonLoadFile
    rw [FileSystem.read_file holds.place blank]
    exact parse_nothing
  · right
    exact jsonLoadFile_document numbers holds.distinct holds.keys holds.values (FileSystem.read_file holds.place written)

theorem JsonHolds.notDirectory {uri : Bytes} {path : Path} {m : Store} {files : FileSystem}
    (holds : JsonHolds R uri path m files) : files.node? path ≠ some .directory := by
  rcases holds.content with ⟨_, absent | blank⟩ | written
  · rw [absent]
    exact fun same => by cases same
  · rw [blank]
    exact fun same => by cases same
  · rw [written]
    exact fun same => by cases same

theorem jsonDump_document (malloc : Nat → Bytes) {files : FileSystem} {uri : Bytes} {path : Path}
    (place : files.resolve uri = some path) (other : files.node? path ≠ some .directory) {m : Store}
    (short : (documentText R m).length + 1 < 2^31) :
    jsonDump malloc files (some (document R m)) uri = (files.put path (.file (documentText R m)), 0) := by
  have serialized := Json.serialize_eq_render malloc (some 0) (document R m) short
  have fills := Json.serializeJson_prints (document R m) (some 0) (by unfold documentText at short; omega)
  have size : (Json.serializeJson (document R m) (some 0) ⟨none, 0⟩).2 = ((documentText R m).length : Int) := by
    rw [fills.measures 0]
    rfl
  rcases documentText_head (R := R) m with ⟨rest, front⟩
  have positive : ((documentText R m).length : Int) > 0 := by
    rw [front, List.length_cons]
    omega
  unfold jsonDump
  rw [FileSystem.write_file place other]
  dsimp only
  rw [serialized]
  dsimp only
  rw [size, if_pos positive, Int.toNat_natCast]
  have taken : (Json.render (document R m) (some 0) ++ 0 :: (malloc ((Json.render (document R m) (some 0)).length + 1)).drop
      ((Json.render (document R m) (some 0)).length + 1)).take (documentText R m).length = documentText R m :=
    List.take_left' rfl
  rw [taken, FileSystem.write_file place other]
  rfl

theorem JsonHolds.dumped {uri : Bytes} {path : Path} {m next : Store} {files : FileSystem} (holds : JsonHolds R uri path m files)
    (distinct : OrderedMap.Distinct next) (keys : ∀ entry ∈ next, (0 : Byte) ∉ entry.1)
    (values : ∀ entry ∈ next, (0 : Byte) ∉ entry.2) {content : Bytes}
    (written : (next = [] ∧ content = []) ∨ content = documentText R next) :
    JsonHolds R uri path next (files.put path (.file content)) := by
  have wider : files.Extends (files.put path (.file content)) :=
    FileSystem.extends_put holds.inside fun directory => absurd directory holds.notDirectory
  have here : (files.put path (.file content)).node? path = some (.file content) := by
    rw [FileSystem.node?_put files holds.inside, if_pos rfl]
  refine ⟨wider.resolve holds.place, holds.inside, distinct, keys, values, ?_⟩
  rw [here]
  rcases written with ⟨empty, blank⟩ | text
  · exact Or.inl ⟨empty, Or.inr (by rw [blank])⟩
  · exact Or.inr (by rw [text])

omit [Reals R] in
theorem setKey_document (m : Store) (key value : Bytes) :
    setKey (document R m) key (.text (some value)) = document R (OrderedMap.set m key value) := by
  unfold document
  rw [OrderedMap.mapValues_set]
  rfl

omit [Reals R] in
theorem removeKey_document (m : Store) (key : Bytes) : removeKey (document R m) key = document R (OrderedMap.erase m key) := by
  unfold document
  rw [OrderedMap.mapValues_erase]
  rfl

omit [Reals R] in
theorem getKey_document (m : Store) (key : Bytes) :
    getKey (document R m) key = (OrderedMap.get? m key).map fun value => .text (some value) :=
  OrderedMap.get?_mapValues _ m key

theorem forall_set {m : Store} (distinct : OrderedMap.Distinct m) {p : Bytes × Bytes → Prop} (all : ∀ entry ∈ m, p entry)
    {key value : Bytes} (new : p (key, value)) : ∀ entry ∈ OrderedMap.set m key value, p entry := by
  intro entry member
  rcases (OrderedMap.mem_set distinct).mp member with rfl | old
  · exact new
  · exact all entry old.1

theorem jsonSave_eq (malloc : Nat → Bytes) (w : World) (jsonpath key : Bytes) {data behind : Bytes}
    (nul : (0 : Byte) ∈ data ++ behind) :
    jsonSave R malloc w jsonpath key data behind =
      some ({ w with files := (jsonDump malloc w.files (some (setKey ((jsonLoadFile R w.files jsonpath).getD (.object [])) key
          (.text (some (Json.cString (data ++ behind)))))) jsonpath).1 },
        (jsonDump malloc w.files (some (setKey ((jsonLoadFile R w.files jsonpath).getD (.object [])) key
          (.text (some (Json.cString (data ++ behind)))))) jsonpath).2) :=
  if_neg (not_not_intro nul)

theorem jsonRemove_eq (malloc : Nat → Bytes) (w : World) (jsonpath key : Bytes) :
    jsonRemove R malloc w jsonpath key =
      some ({ w with files := (jsonDump malloc w.files ((jsonLoadFile R w.files jsonpath).map fun json => removeKey json key) jsonpath).1 },
        (jsonDump malloc w.files ((jsonLoadFile R w.files jsonpath).map fun json => removeKey json key) jsonpath).2) := rfl

theorem jsonDump_none (malloc : Nat → Bytes) {files : FileSystem} {uri : Bytes} {path : Path}
    (place : files.resolve uri = some path) (other : files.node? path ≠ some .directory) :
    jsonDump malloc files (none : Option (Json R)) uri = (files.put path (.file []), 1) := by
  unfold jsonDump
  rw [FileSystem.write_file place other]

theorem JsonHolds.saves (numbers : Json.ReadsNumbers R) (malloc : Nat → Bytes) {uri : Bytes} {path : Path} {m : Store} {w : World}
    (holds : JsonHolds R uri path m w.files) {key value behind : Bytes} (clean : (0 : Byte) ∉ key)
    (allowed : JsonAllows R m (.save key value behind)) :
    ∃ files, jsonSave R malloc w uri key value behind = some ({ w with files }, 0) ∧
      JsonHolds R uri path (OrderedMap.set m key value) files := by
  rcases allowed.text key value behind rfl with ⟨plain, ended⟩
  have nul : (0 : Byte) ∈ value ++ behind := List.mem_append_right _ (List.mem_of_head? ended)
  have stored : Json.cString (value ++ behind) = value :=
    Memory.takeWhile_ended plain fun _ first => Option.some.inj (first.symm.trans ended)
  have old : (jsonLoadFile R w.files uri).getD (.object []) = document R m := by
    rcases holds.loaded numbers with ⟨empty, none⟩ | some
    · rw [none, empty]
      rfl
    · rw [some]
      rfl
  have dump : jsonDump malloc w.files (some (document R (OrderedMap.set m key value))) uri = _ :=
    jsonDump_document malloc holds.place holds.notDirectory allowed.short
  refine ⟨w.files.put path (.file (documentText R (OrderedMap.set m key value))), ?_, ?_⟩
  · rw [jsonSave_eq malloc w uri key nul, old, stored, setKey_document, dump]
  · apply holds.dumped
    · exact OrderedMap.distinct_set holds.distinct key value
    · exact forall_set holds.distinct holds.keys clean
    · exact forall_set holds.distinct holds.values plain
    · exact Or.inr rfl

theorem JsonHolds.removes (numbers : Json.ReadsNumbers R) (malloc : Nat → Bytes) {uri : Bytes} {path : Path} {m : Store} {w : World}
    (holds : JsonHolds R uri path m w.files) {key : Bytes} (allowed : JsonAllows R m (.remove key)) :
    ∃ files rc, jsonRemove R malloc w uri key = some ({ w with files }, rc) ∧ (OrderedMap.get? m key ≠ none → rc = 0) ∧
      JsonHolds R uri path (OrderedMap.erase m key) files := by
  have distinct := OrderedMap.distinct_erase holds.distinct key
  have keys : ∀ entry ∈ OrderedMap.erase m key, (0 : Byte) ∉ entry.1 :=
    fun entry member => holds.keys entry (List.mem_of_mem_filter member)
  have values : ∀ entry ∈ OrderedMap.erase m key, (0 : Byte) ∉ entry.2 :=
    fun entry member => holds.values entry (List.mem_of_mem_filter member)
  rcases holds.loaded numbers with ⟨empty, none⟩ | some
  · refine ⟨w.files.put path (.file []), 1, ?_, ?_, ?_⟩
    · rw [jsonRemove_eq, none, Option.map_none, jsonDump_none malloc holds.place holds.notDirectory]
    · rw [empty]
      exact fun present => absurd rfl present
    · apply holds.dumped distinct keys values
      rw [empty]
      exact Or.inl ⟨rfl, rfl⟩
  · have dump : jsonDump malloc w.files (Option.some (document R (OrderedMap.erase m key))) uri = _ :=
      jsonDump_document malloc holds.place holds.notDirectory allowed.short
    refine ⟨w.files.put path (.file (documentText R (OrderedMap.erase m key))), 0, ?_, fun _ => rfl, ?_⟩
    · rw [jsonRemove_eq, some, Option.map_some, removeKey_document, dump]
    · exact holds.dumped distinct keys values (Or.inr rfl)

theorem JsonHolds.loads_absent (numbers : Json.ReadsNumbers R) {uri : Bytes} {path : Path} {m : Store} {w : World}
    (holds : JsonHolds R uri path m w.files) {key : Bytes} (absent : OrderedMap.get? m key = none) (buffer : Bytes) :
    jsonLoad R w uri key buffer = some (-1, buffer) := by
  have nothing : ((jsonLoadFile R w.files uri).bind fun json => getKey json key) = none := by
    rcases holds.loaded numbers with ⟨_, none⟩ | some
    · rw [none]
      rfl
    · rw [some, Option.bind_some, getKey_document, absent]
      rfl
  unfold jsonLoad
  rw [nothing]

theorem JsonHolds.loads (numbers : Json.ReadsNumbers R) {uri : Bytes} {path : Path} {m : Store} {w : World}
    (holds : JsonHolds R uri path m w.files) {key value : Bytes} (present : OrderedMap.get? m key = some value) {buffer : Bytes}
    (room : value.length < buffer.length) : jsonLoad R w uri key buffer = some (0, value ++ buffer.drop value.length) := by
  have found : ((jsonLoadFile R w.files uri).bind fun json => getKey json key) = some (.text (some value)) := by
    rcases holds.loaded numbers with ⟨empty, _⟩ | some
    · rw [empty] at present
      cases present
    · rw [some, Option.bind_some, getKey_document, present]
      rfl
  have fits : ¬ jsonSize (Json.text (R := R) (some value)) > buffer.length := Nat.not_lt.mpr (Nat.le_of_lt room)
  unfold jsonLoad
  rw [found]
  exact if_neg fits

theorem json_simulates (numbers : Json.ReadsNumbers R) (malloc : Nat → Bytes) (uri : Bytes) (path : Path) :
    Simulates (Machine.mk (apiStep (jsonApi R malloc) uri)) store (fun m op => Called m op ∧ JsonAllows R m op)
      (fun m w => JsonHolds R uri path m w.files) := by
  intro m w op holds guard
  rcases guard with ⟨called, allowed⟩
  cases op with
  | save key value behind =>
    have clean : (0 : Byte) ∉ key := called.clean
    rcases holds.saves numbers malloc clean allowed with ⟨files, saved, still⟩
    refine ⟨{ w with files }, ⟨0, []⟩, ?_, rfl, still⟩
    show ((jsonSave R malloc w uri key value behind).bind fun done => some (done.1, KvResult.mk done.2 [])) = _
    rw [saved]
    rfl
  | load key buffer =>
    have step : (Machine.mk (apiStep (jsonApi R malloc) uri)).step w (.load key buffer) =
        (jsonLoad R w uri key buffer).bind fun done => some (w, KvResult.mk done.1 done.2) := rfl
    rw [step]
    cases found : OrderedMap.get? m key with
    | none =>
      rw [holds.loads_absent numbers found buffer]
      exact ⟨w, ⟨-1, buffer⟩, rfl, answers_absent found buffer (Int.neg_ne_zero.mpr Int.one_ne_zero), holds⟩
    | some value =>
      rw [holds.loads numbers found (called.room key buffer rfl value found)]
      exact ⟨w, ⟨0, value ++ buffer.drop value.length⟩, rfl, answers_present found (Or.inl rfl), holds⟩
  | remove key =>
    rcases holds.removes numbers malloc allowed with ⟨files, rc, removed, success, still⟩
    refine ⟨{ w with files }, ⟨rc, []⟩, ?_, success, still⟩
    show ((jsonRemove R malloc w uri key).bind fun done => some (done.1, KvResult.mk done.2 [])) = _
    rw [removed]
    rfl

end

/-! ## SQLite -/

/-- What is bound and stored is within SQLite's limits, and the length of the value is an `int`. -/
def SqliteAllows (limits : Sqlite) (op : KvOp) : Prop :=
  ∀ key value behind, op = .save key value behind →
    key.length ≤ limits.maxLength ∧ value.length ≤ limits.maxLength ∧ value.length < 2^31 ∧
      limits.rowSize key.length value.length ≤ limits.maxLength

def kvRows (m : Store) : KvRows := m.map fun entry => (some entry.1, some entry.2)

structure SqliteHolds (limits : Sqlite) (uri : Bytes) (m : Store) (s : Sqlite) : Prop where
  canOpen : s.canOpen = limits.canOpen
  maxLength : s.maxLength = limits.maxLength
  rowSize : s.rowSize = limits.rowSize
  rows : s.rows uri = kvRows m
  short : ∀ entry ∈ m, entry.1.length ≤ limits.maxLength
  distinct : OrderedMap.Distinct m

theorem kvRows_cons (entry : Bytes × Bytes) (m : Store) : kvRows (entry :: m) = (some entry.1, some entry.2) :: kvRows m := rfl

theorem kvRows_set (m : Store) (key value : Bytes) :
    OrderedMap.set (kvRows m) (some key) (some value) = kvRows (OrderedMap.set m key value) := by
  induction m with
  | nil => rfl
  | cons entry m ih =>
    rw [kvRows_cons, OrderedMap.set, OrderedMap.set]
    by_cases here : entry.1 = key
    · rw [if_pos (congrArg some here), if_pos here, kvRows_cons]
    · rw [if_neg (fun same => here (Option.some.inj same)), if_neg here, kvRows_cons, ih]

theorem kvRows_get? (m : Store) (key : Bytes) : OrderedMap.get? (kvRows m) (some key) = (OrderedMap.get? m key).map some := by
  induction m with
  | nil => rfl
  | cons entry m ih =>
    rw [kvRows_cons, OrderedMap.get?_cons, OrderedMap.get?_cons]
    by_cases here : entry.1 = key
    · rw [if_pos (congrArg some here), if_pos here]
      rfl
    · rw [if_neg (fun same => here (Option.some.inj same)), if_neg here, ih]

theorem kvRows_erase (m : Store) (key : Bytes) : OrderedMap.erase (kvRows m) (some key) = kvRows (OrderedMap.erase m key) := by
  unfold OrderedMap.erase kvRows
  rw [List.filter_map]
  congr 1
  apply List.filter_congr
  intro entry _
  show decide (some entry.1 ≠ some key) = decide (entry.1 ≠ key)
  rw [decide_eq_decide]
  exact not_congr Option.some_inj

theorem rows_withRows (s : Sqlite) (uri : Bytes) (rows : KvRows) : (s.withRows uri rows).rows uri = rows := by
  unfold Sqlite.rows Sqlite.withRows
  rw [OrderedMap.get?_set, if_pos rfl]
  rfl

theorem SqliteHolds.withRows {limits s : Sqlite} {uri : Bytes} {m next : Store} (holds : SqliteHolds limits uri m s)
    (short : ∀ entry ∈ next, entry.1.length ≤ limits.maxLength) (distinct : OrderedMap.Distinct next) :
    SqliteHolds limits uri next (s.withRows uri (kvRows next)) where
  canOpen := holds.canOpen
  maxLength := holds.maxLength
  rowSize := holds.rowSize
  rows := rows_withRows s uri _
  short := short
  distinct := distinct

theorem bindBlob_value {s : Sqlite} {value : Bytes} (short : value.length ≤ s.maxLength) (small : value.length < 2^31) :
    s.bindBlob value = some (some value) := by
  have size : Json.toInt (value.length : Int) = value.length := Json.toInt_small (by omega) (by omega)
  unfold Sqlite.bindBlob
  rw [size]
  dsimp only
  rw [if_neg (by omega), if_neg (by omega), Int.toNat_natCast, List.take_length]

theorem bindText_key {s : Sqlite} {key : Bytes} (short : key.length ≤ s.maxLength) : s.bindText key = some key :=
  if_neg (Nat.not_lt.mpr short)

theorem SqliteHolds.present {limits s : Sqlite} {uri : Bytes} {m : Store} (holds : SqliteHolds limits uri m s) {key : Bytes}
    (long : ¬ key.length ≤ s.maxLength) : OrderedMap.get? m key = none := by
  apply OrderedMap.get?_eq_none
  intro member
  rcases List.mem_map.mp member with ⟨entry, inside, rfl⟩
  rw [holds.maxLength] at long
  exact long (holds.short entry inside)

theorem sqliteLoad_absent {w : World} {uri key : Bytes} (buffer : Bytes)
    (nothing : ((w.sqlite.bindText key).bind fun key => OrderedMap.get? (w.sqlite.rows uri) (some key)) = none) :
    sqliteLoad w uri key buffer = some (1, buffer) := by
  unfold sqliteLoad
  rw [nothing]

theorem sqliteLoad_present {w : World} {uri key value buffer : Bytes}
    (found : ((w.sqlite.bindText key).bind fun key => OrderedMap.get? (w.sqlite.rows uri) (some key)) = some (some value))
    (room : value.length < buffer.length) : sqliteLoad w uri key buffer = some (0, value ++ buffer.drop value.length) := by
  unfold sqliteLoad
  rw [found]
  exact if_pos (Nat.le_of_lt room)

theorem SqliteHolds.lookup {limits s : Sqlite} {uri : Bytes} {m : Store} (holds : SqliteHolds limits uri m s) (key : Bytes) :
    ((s.bindText key).bind fun key => OrderedMap.get? (s.rows uri) (some key)) = (OrderedMap.get? m key).map some := by
  by_cases short : key.length ≤ s.maxLength
  · rw [bindText_key short, Option.bind_some, holds.rows, kvRows_get?]
  · have unbound : s.bindText key = none := if_pos (Nat.lt_of_not_le short)
    rw [unbound, holds.present short]
    rfl

theorem SqliteHolds.saves {limits : Sqlite} {uri : Bytes} {m : Store} {w : World} (holds : SqliteHolds limits uri m w.sqlite)
    {key value : Bytes} (behind : Bytes) (allowed : SqliteAllows limits (.save key value behind)) :
    sqliteSave w uri key value behind =
        some ({ w with sqlite := w.sqlite.withRows uri (kvRows (OrderedMap.set m key value)) }, 0) ∧
      SqliteHolds limits uri (OrderedMap.set m key value) (w.sqlite.withRows uri (kvRows (OrderedMap.set m key value))) := by
  rcases allowed key value behind rfl with ⟨keyShort, valueShort, small, row⟩
  constructor
  · unfold sqliteSave
    rw [bindBlob_value (by rw [holds.maxLength]; exact valueShort) small, bindText_key (by rw [holds.maxLength]; exact keyShort),
      holds.rows, holds.rowSize, holds.maxLength]
    show (if limits.rowSize key.length value.length > limits.maxLength then _ else _) = _
    rw [if_neg (Nat.not_lt.mpr row), if_neg (Option.some_ne_none key), kvRows_set]
  · apply holds.withRows
    · exact forall_set holds.distinct holds.short keyShort
    · exact OrderedMap.distinct_set holds.distinct key value

theorem SqliteHolds.removes {limits : Sqlite} {uri : Bytes} {m : Store} {w : World} (holds : SqliteHolds limits uri m w.sqlite)
    (key : Bytes) : ∃ s, sqliteRemove w uri key = some ({ w with sqlite := s }, 0) ∧
      SqliteHolds limits uri (OrderedMap.erase m key) s := by
  by_cases short : key.length ≤ w.sqlite.maxLength
  · refine ⟨w.sqlite.withRows uri (kvRows (OrderedMap.erase m key)), ?_, ?_⟩
    · unfold sqliteRemove
      rw [bindText_key short]
      dsimp only
      rw [holds.rows, kvRows_erase]
    · apply holds.withRows
      · exact fun entry member => holds.short entry (List.mem_of_mem_filter member)
      · exact OrderedMap.distinct_erase holds.distinct key
  · have unbound : w.sqlite.bindText key = none := if_pos (Nat.lt_of_not_le short)
    have same : OrderedMap.erase m key = m := by
      apply List.filter_eq_self.mpr
      intro entry member
      apply decide_eq_true
      intro equal
      have found := OrderedMap.get?_eq_some_of_mem holds.distinct member
      rw [equal, holds.present short] at found
      cases found
    refine ⟨w.sqlite, ?_, ?_⟩
    · unfold sqliteRemove
      rw [unbound]
    · rw [same]
      exact holds

theorem sqlite_simulates (limits : Sqlite) {uri : Bytes} (opens : limits.canOpen uri = true) (kept : uri ≠ ascii ":memory:") :
    Simulates (Machine.mk (apiStep sqliteApi uri)) store (fun m op => Called m op ∧ SqliteAllows limits op)
      (fun m w => SqliteHolds limits uri m w.sqlite) := by
  intro m w op holds guard
  rcases guard with ⟨called, allowed⟩
  let opened : World := { w with sqlite := w.sqlite.withRows uri (w.sqlite.rows uri) }
  have opening : sqliteOpen w uri = some opened := if_pos (by rw [holds.canOpen]; exact opens)
  have closing : ∀ w : World, sqliteClose w uri = w := fun w => if_neg kept
  have ready : SqliteHolds limits uri m opened.sqlite := by
    show SqliteHolds limits uri m (w.sqlite.withRows uri (w.sqlite.rows uri))
    rw [holds.rows]
    exact holds.withRows holds.short holds.distinct
  cases op with
  | save key value behind =>
    rcases ready.saves behind allowed with ⟨saved, still⟩
    refine ⟨{ opened with sqlite := opened.sqlite.withRows uri (kvRows (OrderedMap.set m key value)) }, ⟨0, []⟩, ?_, rfl, still⟩
    show ((sqliteOpen w uri).bind fun w => (sqliteSave w uri key value behind).bind fun done =>
      some (sqliteClose done.1 uri, KvResult.mk done.2 [])) = _
    rw [opening, Option.bind_some, saved, Option.bind_some, closing]
  | load key buffer =>
    have step : (Machine.mk (apiStep sqliteApi uri)).step w (.load key buffer) =
        (sqliteOpen w uri).bind fun w => (sqliteLoad w uri key buffer).bind fun done =>
          some (sqliteClose w uri, KvResult.mk done.1 done.2) := rfl
    have lookup := ready.lookup key
    rw [step, opening, Option.bind_some, closing]
    cases found : OrderedMap.get? m key with
    | none =>
      rw [found] at lookup
      rw [sqliteLoad_absent buffer lookup]
      exact ⟨opened, ⟨1, buffer⟩, rfl, answers_absent found buffer Int.one_ne_zero, ready⟩
    | some value =>
      rw [found] at lookup
      rw [sqliteLoad_present lookup (called.room key buffer rfl value found)]
      exact ⟨opened, ⟨0, value ++ buffer.drop value.length⟩, rfl, answers_present found (Or.inl rfl), ready⟩
  | remove key =>
    rcases ready.removes key with ⟨s, removed, still⟩
    refine ⟨{ opened with sqlite := s }, ⟨0, []⟩, ?_, fun _ => rfl, still⟩
    show ((sqliteOpen w uri).bind fun w => (sqliteRemove w uri key).bind fun done =>
      some (sqliteClose done.1 uri, KvResult.mk done.2 [])) = _
    rw [opening, Option.bind_some, removed, Option.bind_some, closing]

/-! ## The three backends behind the registry -/

inductive KvBackend where
  | file | json | sqlite
  deriving DecidableEq, Repr

namespace KvBackend

section
variable (R : Type) [Reals R] (malloc : Nat → Bytes)

def api : KvBackend → KvApi
  | .file => fileApi
  | .json => jsonApi R malloc
  | .sqlite => sqliteApi

/-- The registry with the three backends in it and one of them the default. -/
def configured (backend : KvBackend) (uri : Bytes) : Registry :=
  let r := ((({} : Registry).register fileApi).1.register (jsonApi R malloc)).1.register sqliteApi
  (r.1.setDefault (backend.api R malloc).name).setDefaultUri uri

/-- Nothing is stored yet where the name points, and something can be. -/
def Ready (w : World) (uri : Bytes) : KvBackend → Prop
  | .file => uri.getLast? ≠ some (ch '/') ∧ ∃ base, FileHolds w.files uri base [] w.files
  | .json => ∃ path, JsonHolds R uri path [] w.files
  | .sqlite => uri ≠ [] ∧ w.sqlite.canOpen uri = true ∧ uri ≠ ascii ":memory:" ∧ w.sqlite.rows uri = []

def Allows (w : World) (uri : Bytes) : KvBackend → Store → KvOp → Prop
  | .file, m, op => Called m op ∧ FileAllows w.files uri op
  | .json, m, op => Called m op ∧ JsonAllows R m op
  | .sqlite, m, op => Called m op ∧ SqliteAllows w.sqlite op

end

section
variable {R : Type} [Reals R] (malloc : Nat → Bytes)

theorem configured_default (backend : KvBackend) (uri : Bytes) :
    (configured R malloc backend uri).default = some (backend.api R malloc) := by
  cases backend <;> rfl

theorem simulates_configured {backend : KvBackend} {uri : Bytes} {guard : Store → KvOp → Prop} {rel : Store → World → Prop}
    (named : uri.take 255 ≠ []) (opens : ∀ m w, rel m w → ∃ opened, (backend.api R malloc).openHandle w (uri.take 255) = some opened)
    (simulates : Simulates (Machine.mk (apiStep (backend.api R malloc) (uri.take 255))) store guard rel) :
    Simulates (kvMachine (configured R malloc backend uri)) store guard rel := by
  intro m w op related guarded
  rcases opens m w related with ⟨opened, opening⟩
  have same := kvStep_default (configured_default malloc backend uri) named opening op
  rcases simulates m w op related guarded with ⟨next, r, step, rest⟩
  exact ⟨next, r, same.trans step, rest⟩

theorem resolve_nonempty {files : FileSystem} {uri : Bytes} {path : Path} (found : files.resolve uri = some path) : uri ≠ [] := by
  intro empty
  rw [empty] at found
  cases found

/-- Every run whose operations a backend allows is a run of the one abstract store. -/
theorem run_store (numbers : Json.ReadsNumbers R) {backend : KvBackend} {uri : Bytes} {w : World}
    (ready : backend.Ready R w (uri.take 255)) {ops : List KvOp}
    (allowed : store.Guarded (backend.Allows R w (uri.take 255)) [] ops) :
    ∃ last results, (kvMachine (configured R malloc backend uri)).run w ops = some (last, results) ∧
      store.Explains [] ops results := by
  cases backend with
  | file =>
    rcases ready with ⟨plain, base, holds⟩
    have simulates := @simulates_configured R _ malloc .file uri _ _ (resolve_nonempty holds.place)
      (fun _ _ _ => ⟨_, rfl⟩) (file_simulates w.files base plain)
    rcases simulates.run holds allowed with ⟨last, results, run, explained, _⟩
    exact ⟨last, results, run, explained⟩
  | json =>
    rcases ready with ⟨path, holds⟩
    have simulates := @simulates_configured R _ malloc .json uri _ _ (resolve_nonempty holds.place)
      (fun _ _ _ => ⟨_, rfl⟩) (json_simulates numbers malloc (uri.take 255) path)
    rcases simulates.run holds allowed with ⟨last, results, run, explained, _⟩
    exact ⟨last, results, run, explained⟩
  | sqlite =>
    rcases ready with ⟨named, opens, kept, empty⟩
    have holds : SqliteHolds w.sqlite (uri.take 255) [] w.sqlite :=
      ⟨rfl, rfl, rfl, empty, fun _ member => absurd member List.not_mem_nil, List.nodup_nil⟩
    have opening : ∀ m (w' : World), SqliteHolds w.sqlite (uri.take 255) m w'.sqlite →
        ∃ opened, sqliteOpen w' (uri.take 255) = some opened :=
      fun _ _ holds => ⟨_, if_pos (by rw [holds.canOpen]; exact opens)⟩
    have simulates := @simulates_configured R _ malloc .sqlite uri _ _ named opening (sqlite_simulates w.sqlite opens kept)
    rcases simulates.run holds allowed with ⟨last, results, run, explained, _⟩
    exact ⟨last, results, run, explained⟩

end

/-! ## A run, and two that go wrong -/

def emptyWorld : World where
  files := {}
  sqlite := { canOpen := fun _ => true, rowSize := fun key value => key + value + 16 }

def savedAndRemoved : List KvOp :=
  [.save (ascii "k") [97, 255] [0], .load (ascii "k") [7, 7, 7, 7], .remove (ascii "k"), .load (ascii "k") [7]]

theorem called_save {m : Store} {key : Bytes} (nonempty : key ≠ []) (clean : (0 : Byte) ∉ key) (value behind : Bytes) :
    Called m (.save key value behind) := ⟨nonempty, clean, fun _ _ same => by cases same⟩

theorem called_remove {m : Store} {key : Bytes} (nonempty : key ≠ []) (clean : (0 : Byte) ∉ key) : Called m (.remove key) :=
  ⟨nonempty, clean, fun _ _ same => by cases same⟩

theorem called_load {m : Store} {key buffer : Bytes} (nonempty : key ≠ []) (clean : (0 : Byte) ∉ key)
    (room : ((OrderedMap.get? m key).all fun value => value.length < buffer.length) = true) : Called m (.load key buffer) := by
  refine ⟨nonempty, clean, ?_⟩
  intro other buf same value found
  cases same
  rw [found] at room
  exact of_decide_eq_true room

theorem savedAndRemoved_called : store.Guarded Called [] savedAndRemoved :=
  ⟨called_save (by decide) (by decide) _ _, called_load (by decide) (by decide) (by decide),
    called_remove (by decide) (by decide), called_load (by decide) (by decide) (by decide), trivial⟩

theorem guarded_and {guard more : Store → KvOp → Prop} {m : Store} {ops : List KvOp} (first : store.Guarded guard m ops)
    (second : store.Guarded more m ops) : store.Guarded (fun m op => guard m op ∧ more m op) m ops := by
  induction ops generalizing m with
  | nil => trivial
  | cons op ops ih => exact ⟨⟨first.1, second.1⟩, ih first.2 second.2⟩

theorem plain_k {op : KvOp} (named : op.key = ascii "k") : FileAllows emptyWorld.files (ascii "kv") op := by
  have plain : FileSystem.PlainName emptyWorld.files.nameMax (ascii "k") :=
    ⟨by decide, by decide, by decide, by decide, by decide⟩
  have short : (ascii "kv").length + 1 + (ascii "k").length < emptyWorld.files.pathMax := by decide
  rw [← named] at plain short
  exact ⟨plain, short⟩

theorem savedAndRemoved_json :
    store.Guarded (@JsonAllows Rat Json.halves) [] savedAndRemoved := by
  let _ : Reals Rat := Json.halves
  refine ⟨⟨?_, by decide +kernel⟩, ⟨?_, by decide +kernel⟩, ⟨?_, by decide +kernel⟩, ⟨?_, by decide +kernel⟩, trivial⟩
  · intro key value behind same
    cases same
    exact ⟨by decide, rfl⟩
  · exact fun _ _ _ same => by cases same
  · exact fun _ _ _ same => by cases same
  · exact fun _ _ _ same => by cases same

theorem savedAndRemoved_sqlite : store.Guarded (fun _ op => SqliteAllows emptyWorld.sqlite op) [] savedAndRemoved := by
  refine ⟨?_, ?_, ?_, ?_, trivial⟩
  · intro key value behind same
    cases same
    decide
  · exact fun _ _ _ same => by cases same
  · exact fun _ _ _ same => by cases same
  · exact fun _ _ _ same => by cases same

theorem emptyWorld_ready (backend : KvBackend) : @Ready Rat Json.halves emptyWorld (ascii "kv") backend := by
  let _ : Reals Rat := Json.halves
  cases backend with
  | file => exact ⟨by decide, [ascii "kv"], rfl, rfl, by decide, by decide, Or.inl rfl, fun _ => rfl⟩
  | json =>
    refine ⟨[ascii "kv"], rfl, by decide, List.nodup_nil, ?_, ?_, Or.inl ⟨rfl, Or.inl rfl⟩⟩
    · exact fun _ member => absurd member List.not_mem_nil
    · exact fun _ member => absurd member List.not_mem_nil
  | sqlite => exact ⟨by decide, rfl, by decide, rfl⟩

theorem run_store_saved :
    (∃ last results, (kvMachine (@configured Rat Json.halves (fun _ => []) .file (ascii "kv"))).run emptyWorld savedAndRemoved =
      some (last, results) ∧ store.Explains [] savedAndRemoved results) ∧
    (∃ last results, (kvMachine (@configured Rat Json.halves (fun _ => []) .json (ascii "kv"))).run emptyWorld savedAndRemoved =
      some (last, results) ∧ store.Explains [] savedAndRemoved results) ∧
    (∃ last results, (kvMachine (@configured Rat Json.halves (fun _ => []) .sqlite (ascii "kv"))).run emptyWorld savedAndRemoved =
      some (last, results) ∧ store.Explains [] savedAndRemoved results) := by
  have file : store.Guarded (@Allows Rat Json.halves emptyWorld (ascii "kv") .file) [] savedAndRemoved := by
    apply guarded_and savedAndRemoved_called
    exact ⟨plain_k rfl, plain_k rfl, plain_k rfl, plain_k rfl, trivial⟩
  have numbers : @Json.ReadsNumbers Rat Json.halves := fun _ _ _ _ _ _ _ _ => rfl
  exact ⟨@run_store Rat Json.halves (fun _ => []) numbers .file (ascii "kv") emptyWorld (emptyWorld_ready .file) _ file,
    @run_store Rat Json.halves (fun _ => []) numbers .json (ascii "kv") emptyWorld (emptyWorld_ready .json) _
      (guarded_and savedAndRemoved_called savedAndRemoved_json),
    @run_store Rat Json.halves (fun _ => []) numbers .sqlite (ascii "kv") emptyWorld (emptyWorld_ready .sqlite) _
      (guarded_and savedAndRemoved_called savedAndRemoved_sqlite)⟩

/-- A backend is the abstract store in every run of calls that there can be. -/
def IsStore (R : Type) [Reals R] (malloc : Nat → Bytes) (backend : KvBackend) : Prop :=
  ∀ (uri : Bytes) (w : World) (ops : List KvOp), backend.Ready R w (uri.take 255) → store.Guarded Called [] ops →
    ∃ last results, (kvMachine (configured R malloc backend uri)).run w ops = some (last, results) ∧
      store.Explains [] ops results

/-- JSON keeps what comes before a NUL, and a key with a slash is another directory's file. -/
theorem not_isStore :
    ¬ @IsStore Rat Json.halves (fun _ => []) .json ∧ ¬ @IsStore Rat Json.halves (fun _ => []) .file := by
  constructor
  · intro claim
    have called : store.Guarded Called [] [.save (ascii "k") [97, 0, 98] [0], .load (ascii "k") [7, 7, 7, 7]] :=
      ⟨called_save (by decide) (by decide) _ _, called_load (by decide) (by decide) (by decide), trivial⟩
    rcases claim (ascii "kv") emptyWorld _ (emptyWorld_ready .json) called with ⟨last, results, run, explained⟩
    have real : ((kvMachine (@configured Rat Json.halves (fun _ => []) .json (ascii "kv"))).run emptyWorld
        [.save (ascii "k") [97, 0, 98] [0], .load (ascii "k") [7, 7, 7, 7]]).map (·.2) =
          some [⟨0, []⟩, ⟨0, [97, 7, 7, 7]⟩] := by decide +kernel
    rw [run] at real
    cases real
    rcases (explained.2.1.1 [97, 0, 98] rfl).2 with same | same
    · exact absurd same (by decide)
    · exact absurd same (by decide)
  · intro claim
    have called : store.Guarded Called [] [.save (ascii "a/b") [97] [0]] :=
      ⟨called_save (by decide) (by decide) _ _, trivial⟩
    rcases claim (ascii "kv") emptyWorld _ (emptyWorld_ready .file) called with ⟨last, results, run, explained⟩
    have real : ((kvMachine (@configured Rat Json.halves (fun _ => []) .file (ascii "kv"))).run emptyWorld
        [.save (ascii "a/b") [97] [0]]).map (·.2) = some [⟨1, []⟩] := by decide +kernel
    rw [run] at real
    cases real
    exact absurd explained.1 Int.one_ne_zero

end KvBackend
end BlueBird.Persist
