import BlueBird.Persist.JsonInsert
import BlueBird.Persist.ModelStore

/-! The backend with one file behaves as a map for each table, so long as the text of the file can be counted. -/

namespace BlueBird.Persist

open KeyedRows Refinement

variable {ι : Type} {R : Type} [Reals R]

def jsonModelApi (R : Type) [Reals R] (malloc : Nat → Bytes) (path : Bytes) : ModelApi FileSystem where
  insert schema files values := jsonInsert R malloc schema files path values
  findByPk schema files key out := (files, jsonFindByPk R schema files path key out)
  update schema files values := jsonUpdate R malloc schema files path values
  remove schema files key := jsonRemoveByPk R malloc schema files path key
  findAll schema files := (files, jsonFindAll R schema files path)

/-- A result with what is in the file before the call and after it. -/
structure FileResult extends ModelResult where
  before : Option Bytes
  after : Option Bytes

def jsonMachine (R : Type) [Reals R] (malloc : Nat → Bytes) (path : Bytes) (schemas : ι → Schema) :
    Machine FileSystem (ModelCall schemas) FileResult where
  step files call :=
    let (after, r) := (jsonModelApi R malloc path).call files call.op
    some (after, { toModelResult := r, before := files.read path, after := after.read path })

/-- A failure leaves the file as it was. -/
def fileStore [DecidableEq ι] (schemas : ι → Schema) : Behaviour (Entities schemas) (ModelCall schemas) FileResult where
  next := Entities.next
  answers m call r := m.Answers call r.toModelResult ∧ (r.rc ≠ 0 → r.after = r.before)

theorem jsonMachine_insert (malloc : Nat → Bytes) (path : Bytes) (schemas : ι → Schema) (files : FileSystem) {i : ι}
    (entity : Entity (schemas i)) : (jsonMachine R malloc path schemas).step files ⟨i, .insert entity⟩ =
      some ((jsonInsert R malloc (schemas i) files path entity.values).1,
        ⟨⟨(jsonInsert R malloc (schemas i) files path entity.values).2, [], []⟩, files.read path,
          (jsonInsert R malloc (schemas i) files path entity.values).1.read path⟩) := rfl

theorem jsonMachine_update (malloc : Nat → Bytes) (path : Bytes) (schemas : ι → Schema) (files : FileSystem) {i : ι}
    (entity : Entity (schemas i)) : (jsonMachine R malloc path schemas).step files ⟨i, .update entity⟩ =
      some ((jsonUpdate R malloc (schemas i) files path entity.values).1,
        ⟨⟨(jsonUpdate R malloc (schemas i) files path entity.values).2, [], []⟩, files.read path,
          (jsonUpdate R malloc (schemas i) files path entity.values).1.read path⟩) := rfl

structure Shared (schemas : ι → Schema) : Prop where
  spelled : ∀ i, (schemas i).Spelled
  plain : ∀ i, ∀ f ∈ (schemas i).fields, f.type ≠ .blob
  distinct : ∀ i j, (schemas i).name = (schemas j).name → i = j

def written {schema : Schema} (root : Json R) : ModelOp schema → Option (Json R)
  | .insert entity => insertDocument schema root entity.values
  | .update entity => updateDocument schema root entity.values
  | .remove key => removeDocument schema root key.value
  | .findByPk _ _ => none
  | .findAll => none

/-- The text of the file with the change made is one that an `int` can count. -/
def Roomy (R : Type) [Reals R] (path : Bytes) {schemas : ι → Schema} (files : FileSystem) (call : ModelCall schemas) : Prop :=
  ∀ document, written (loadRoot R files path) call.op = some document → Counted document

def Loaded (R : Type) [Reals R] (files : FileSystem) (path : Bytes) (entries : List (Bytes × Json R)) : Prop :=
  jsonLoadFile R files path = some (.object entries) ∨ (jsonLoadFile R files path = none ∧ entries = [])

theorem Loaded.root {files : FileSystem} {path : Bytes} {entries : List (Bytes × Json R)} (loaded : Loaded R files path entries) :
    loadRoot R files path = .object entries := by
  unfold loadRoot
  rcases loaded with there | ⟨absent, rfl⟩
  · rw [there]
    rfl
  · rw [absent]
    rfl

theorem jsonFindAll_tabled {schema : Schema} {files : FileSystem} {path : Bytes} {entries : List (Bytes × Json R)} {items : List (Json R)}
    (loaded : Loaded R files path entries) (tabled : Tabled entries (nameBytes schema.name) items) :
    jsonFindAll R schema files path = (listItems schema items, 0) := by
  unfold jsonFindAll
  rcases loaded with there | ⟨absent, rfl⟩
  · rw [there]
    dsimp only
    unfold Json.objectGetValue
    rcases tabled with found | ⟨none_, rfl⟩
    · rw [found]
    · rw [none_]
      rfl
  · rw [absent]
    rcases tabled with found | ⟨_, rfl⟩
    · cases found
    · rfl

def documents {schema : Schema} (rows : List (Entity schema)) : List (Json R) := rows.map fun entity => entityToJson schema entity.values

/-- The file has for each table the objects of its entities; at first there may be no file. -/
structure FileKeeps (R : Type) [Reals R] (path : Bytes) (place : Path) {schemas : ι → Schema} (m : Entities schemas)
    (files : FileSystem) : Prop where
  resolved : files.resolve path = some place
  inside : place ≠ []
  other : files.node? place ≠ some .directory
  tables : ∃ entries, Loaded R files path entries ∧ Json.Reprintable Json.maxDepth (.object entries : Json R) ∧
    ∀ i, ∃ rows, Tabled entries (nameBytes (schemas i).name) (documents rows) ∧ Rows m i rows

section
variable {path : Bytes} {place : Path} {schemas : ι → Schema} (shared : Shared schemas) {m : Entities schemas} {files : FileSystem}
include shared

omit [Reals R] in
theorem kept_of_shared {i : ι} {values : List FieldValue} : ∀ field ∈ (schemas i).fields.zip values, field.1.Kept field.2 := by
  intro field member blob
  exact absurd blob (shared.plain i field.1 (List.of_mem_zip member).1)

omit [Reals R] in
theorem pk_of_shared (i : ι) : (schemas i).pk.type ≠ .blob := shared.plain i _ (List.getElem_mem (schemas i).primaryKey)

omit [Reals R] in
theorem asks_of_shared {i : ι} (entity : Entity (schemas i)) : (schemas i).pk.Asks entity.key :=
  (key_holds entity).asks (pk_of_shared shared i)

omit [Reals R] in
theorem hasKey_document {i : ι} {key : FieldValue} (asks : (schemas i).pk.Asks key) (entity : Entity (schemas i)) :
    hasKey (schemas i) key (entityToJson (schemas i) entity.values : Json R) = true ↔ entity.key = key :=
  hasKey_entityToJson entity (pk_of_shared shared i) asks

omit [Reals R] in
theorem listItems_documents {i : ι} (rows : List (Entity (schemas i))) :
    listItems (schemas i) (documents rows : List (Json R)) = rows.map Entity.values := by
  unfold listItems documents
  rw [List.map_map]
  apply List.map_congr_left
  intro entity _
  exact congrArg Prod.fst (jsonToEntity_entityToJson entity (kept_of_shared shared) _)

omit [Reals R] in
theorem any_documents {i : ι} {rows : List (Entity (schemas i))} (holds : Rows m i rows) {key : FieldValue}
    (asks : (schemas i).pk.Asks key) :
    (documents rows : List (Json R)).any (hasKey (schemas i) key) = (m i key).isSome := by
  unfold documents
  rw [List.any_map]
  exact holds.any_eq fun entity _ => hasKey_document shared asks entity

omit [Reals R] in
theorem find?_documents {i : ι} {rows : List (Entity (schemas i))} (holds : Rows m i rows) {key : FieldValue}
    (asks : (schemas i).pk.Asks key) :
    (documents rows : List (Json R)).find? (hasKey (schemas i) key) =
      (m i key).map fun entity => entityToJson (schemas i) entity.values := by
  unfold documents
  rw [List.find?_map]
  congr 1
  exact holds.find?_eq fun entity _ => hasKey_document shared asks entity

omit [Reals R] in
/-- The place of the row with a key, if there is one. -/
theorem findIdx?_documents {i : ι} {rows : List (Entity (schemas i))} (holds : Rows m i rows) {key : FieldValue}
    (asks : (schemas i).pk.Asks key) :
    (m i key = none ∧ (documents rows : List (Json R)).findIdx? (hasKey (schemas i) key) = none) ∨
    ∃ k entity, m i key = some entity ∧ rows[k]? = some entity ∧
      (documents rows : List (Json R)).findIdx? (hasKey (schemas i) key) = some k := by
  have any := any_documents (R := R) shared holds asks
  cases search : (documents rows : List (Json R)).findIdx? (hasKey (schemas i) key) with
  | none =>
    rw [List.findIdx?_eq_none_iff] at search
    refine Or.inl ⟨?_, rfl⟩
    rw [List.any_eq_false.mpr fun item member => by rw [search item member]; decide] at any
    exact Option.isNone_iff_eq_none.mp (by rw [← Option.not_isSome, ← any]; rfl)
  | some k =>
    rcases List.findIdx?_eq_some_iff_getElem.mp search with ⟨inside, hit, _⟩
    have length : k < rows.length := by
      unfold documents at inside
      rw [List.length_map] at inside
      exact inside
    have same : (documents rows : List (Json R))[k] = entityToJson (schemas i) rows[k].values := List.getElem_map ..
    rw [same] at hit
    have here := holds.held (List.getElem_mem length)
    rw [(hasKey_document shared asks _).mp hit] at here
    exact Or.inr ⟨k, rows[k], here, List.getElem?_eq_getElem length, rfl⟩

theorem documents_reprintable {i : ι} (rows : List (Entity (schemas i))) (levels : Nat) :
    ∀ item ∈ (documents rows : List (Json R)), Json.Reprintable (levels + 1) item := by
  intro item member
  rcases List.mem_map.mp member with ⟨entity, _, rfl⟩
  exact entityToJson_reprintable (shared.spelled i) entity levels

variable (numbers : Json.ReadsNumbers R) (malloc : Nat → Bytes)
include numbers

theorem FileKeeps.saved {entries : List (Bytes × Json R)} (holds : FileKeeps R path place m files)
    (reprintable : Json.Reprintable Json.maxDepth (.object entries : Json R))
    (tables : ∀ i, ∃ rows, Tabled entries (nameBytes (schemas i).name) (documents rows) ∧ Rows m i rows) {i : ι}
    {rows : List (Entity (schemas i))} {m' : Entities schemas} (own : Rows m' i rows) (others : ∀ j, j ≠ i → m' j = m j)
    (counted : Counted (.object (withTable entries (nameBytes (schemas i).name) (documents rows)) : Json R)) :
    ∃ after, saveRoot malloc files path (some (.object (withTable entries (nameBytes (schemas i).name) (documents rows)) : Json R)) =
      (after, 0) ∧ FileKeeps R path place m' after := by
  have deep := reprintable_withTable reprintable (shared.spelled i).name (documents_reprintable shared rows 509)
  refine ⟨_, saveRoot_counted malloc holds.resolved holds.other counted, ?_⟩
  constructor
  · exact resolve_put holds.resolved holds.inside holds.other _
  · exact holds.inside
  · rw [FileSystem.node?_put files holds.inside, if_pos rfl]
    exact nofun
  · refine ⟨_, Or.inl (loadRoot_put holds.resolved holds.inside holds.other numbers deep), deep, ?_⟩
    intro j
    by_cases same : j = i
    · subst same
      exact ⟨rows, tabled_withTable _ _ _, own⟩
    · rcases tables j with ⟨old, tabled, old_⟩
      refine ⟨old, ?_, ?_⟩
      · unfold Tabled
        rw [get?_withTable fun equal => same (shared.distinct _ _ (nameBytes_inj equal))]
        exact tabled
      · unfold Rows
        rw [others j same]
        exact old_

variable [DecidableEq ι]

/-- A call that writes succeeds and leaves the changed map, or fails and leaves everything. -/
def Performs (R : Type) [Reals R] (path : Bytes) (place : Path) (m : Entities schemas) (files : FileSystem) (call : ModelCall schemas)
    (result : FileSystem × Int) : Prop :=
  (m.succeeds call = true ∧ result.2 = 0 ∧ FileKeeps R path place (m.change call) result.1) ∨
    (m.succeeds call = false ∧ result = (files, -1))

theorem jsonInsert_performs (holds : FileKeeps R path place m files) {i : ι} (entity : Entity (schemas i))
    (roomy : Roomy R path files (⟨i, .insert entity⟩ : ModelCall schemas)) :
    Performs R path place m files ⟨i, .insert entity⟩ (jsonInsert R malloc (schemas i) files path entity.values) := by
  rcases holds.tables with ⟨entries, loaded, reprintable, tables⟩
  rcases tables i with ⟨rows, tabled, own⟩
  have counted : ∀ document, insertDocument (schemas i) (loadRoot R files path) entity.values = some document → Counted document := roomy
  have any := any_documents (R := R) shared own (asks_of_shared shared entity)
  have document := insertDocument_tabled tabled entity.values
  rw [loaded.root, document] at counted
  unfold jsonInsert
  rw [loaded.root, document]
  show Performs R path place m files _ (saveRoot malloc files path (if (documents rows).any (hasKey (schemas i) entity.key) then _ else _))
  change ∀ document, (if (documents rows : List (Json R)).any (hasKey (schemas i) entity.key) then _ else _) = _ → _ at counted
  rw [any] at counted ⊢
  cases at_ : m i entity.key with
  | some old =>
    refine Or.inr ⟨?_, rfl⟩
    show (m i entity.key).isNone = false
    rw [at_]
    rfl
  | none =>
    rw [at_] at counted
    have more : (documents (rows ++ [entity]) : List (Json R)) = documents rows ++ [entityToJson (schemas i) entity.values] :=
      List.map_append
    have after_ : Rows (m.put i entity.key (some entity)) i (rows ++ [entity]) := by
      unfold Rows
      rw [put_self]
      exact own.append at_
    have text := counted _ rfl
    rw [← more] at text
    rcases holds.saved shared numbers malloc reprintable tables after_ (fun j differs => put_other m i _ _ differs) text with
      ⟨after, saved, still⟩
    refine Or.inl ⟨?_, ?_⟩
    · show (m i entity.key).isNone = true
      rw [at_]
      rfl
    · show (saveRoot malloc files path (some (.object (withTable _ _ (documents rows ++ [_]))))).2 = 0 ∧
        FileKeeps R path place _ (saveRoot malloc files path (some (.object (withTable _ _ (documents rows ++ [_]))))).1
      rw [← more, saved]
      exact ⟨rfl, still⟩

omit [Reals R] numbers [DecidableEq ι] shared in
theorem documents_eraseIdx {i : ι} (rows : List (Entity (schemas i))) (k : Nat) :
    (documents (rows.eraseIdx k) : List (Json R)) = (documents rows).eraseIdx k := by
  unfold documents
  rw [List.eraseIdx_map]

theorem jsonUpdate_performs (holds : FileKeeps R path place m files) {i : ι} (entity : Entity (schemas i))
    (roomy : Roomy R path files (⟨i, .update entity⟩ : ModelCall schemas)) :
    Performs R path place m files ⟨i, .update entity⟩ (jsonUpdate R malloc (schemas i) files path entity.values) := by
  rcases holds.tables with ⟨entries, loaded, reprintable, tables⟩
  rcases tables i with ⟨rows, tabled, own⟩
  have counted : ∀ document, updateDocument (schemas i) (loadRoot R files path) entity.values = some document → Counted document := roomy
  have document := updateDocument_tabled tabled entity.values
  rw [loaded.root, document] at counted
  unfold jsonUpdate
  rw [loaded.root, document]
  rcases findIdx?_documents (R := R) shared own (asks_of_shared shared entity) with ⟨absent, none_⟩ | ⟨k, old, present, here, some_⟩
  · refine Or.inr ⟨?_, ?_⟩
    · show (m i entity.key).isSome = false
      rw [absent]
      rfl
    · show saveRoot malloc files path (((documents rows).findIdx? (hasKey (schemas i) entity.key)).map _) = _
      rw [none_]
      rfl
  · change ∀ document, ((documents rows : List (Json R)).findIdx? (hasKey (schemas i) entity.key)).map _ = _ → _ at counted
    show Performs R path place m files _ (saveRoot malloc files path (((documents rows).findIdx? (hasKey (schemas i) entity.key)).map _))
    rw [some_] at counted ⊢
    have moved : (documents (rows.eraseIdx k ++ [entity]) : List (Json R)) =
        (documents rows).eraseIdx k ++ [entityToJson (schemas i) entity.values] := by
      rw [← documents_eraseIdx]
      exact List.map_append
    have after_ : Rows (m.put i entity.key (some entity)) i (rows.eraseIdx k ++ [entity]) := by
      have without := own.eraseIdx here
      rw [own.key_of present] at without
      have absent : Function.update (m i) entity.key none entity.key = none := Function.update_self ..
      have again := without.append absent
      rw [Function.update_idem] at again
      unfold Rows
      rw [put_self]
      exact again
    have text := counted _ rfl
    dsimp only at text
    rw [← moved] at text
    rcases holds.saved shared numbers malloc reprintable tables after_ (fun j differs => put_other m i _ _ differs) text with
      ⟨after, saved, still⟩
    refine Or.inl ⟨?_, ?_⟩
    · show (m i entity.key).isSome = true
      rw [present]
      rfl
    · show (saveRoot malloc files path (some (.object (withTable _ _ ((documents rows).eraseIdx k ++ [_]))))).2 = 0 ∧
        FileKeeps R path place _ (saveRoot malloc files path (some (.object (withTable _ _ ((documents rows).eraseIdx k ++ [_]))))).1
      rw [← moved, saved]
      exact ⟨rfl, still⟩

theorem jsonRemove_performs (holds : FileKeeps R path place m files) {i : ι} (key : Key (schemas i))
    (roomy : Roomy R path files (⟨i, .remove key⟩ : ModelCall schemas)) :
    Performs R path place m files ⟨i, .remove key⟩ (jsonRemoveByPk R malloc (schemas i) files path key.value) := by
  rcases holds.tables with ⟨entries, loaded, reprintable, tables⟩
  rcases tables i with ⟨rows, tabled, own⟩
  have counted : ∀ document, removeDocument (schemas i) (loadRoot R files path) key.value = some document → Counted document := roomy
  have document := removeDocument_tabled tabled key.value
  rw [loaded.root, document] at counted
  unfold jsonRemoveByPk
  rw [loaded.root, document]
  rcases findIdx?_documents (R := R) shared own key.asks with ⟨absent, none_⟩ | ⟨k, old, present, here, some_⟩
  · refine Or.inr ⟨?_, ?_⟩
    · show (m i key.value).isSome = false
      rw [absent]
      rfl
    · rw [none_]
      rfl
  · rw [some_] at counted ⊢
    have after_ : Rows (m.put i key.value none) i (rows.eraseIdx k) := by
      have without := own.eraseIdx here
      rw [own.key_of present] at without
      unfold Rows
      rw [put_self]
      exact without
    have text := counted _ rfl
    dsimp only at text
    rw [← documents_eraseIdx] at text
    rcases holds.saved shared numbers malloc reprintable tables after_ (fun j differs => put_other m i _ _ differs) text with
      ⟨after, saved, still⟩
    refine Or.inl ⟨?_, ?_⟩
    · show (m i key.value).isSome = true
      rw [present]
      rfl
    · show (saveRoot malloc files path (some (.object (withTable _ _ ((documents rows).eraseIdx k))))).2 = 0 ∧
        FileKeeps R path place _ (saveRoot malloc files path (some (.object (withTable _ _ ((documents rows).eraseIdx k))))).1
      rw [← documents_eraseIdx, saved]
      exact ⟨rfl, still⟩

omit numbers shared in
/-- A call that writes is answered as the map says. -/
theorem Performs.answered {call : ModelCall schemas} {result : FileSystem × Int} (holds : FileKeeps R path place m files)
    (performs : Performs R path place m files call result) (writes : m.found call = []) (other : call.op ≠ .findAll) :
    (fileStore schemas).answers m call ⟨⟨result.2, [], []⟩, files.read path, result.1.read path⟩ ∧
      FileKeeps R path place (m.next call) result.1 := by
  unfold Entities.next
  rcases performs with ⟨succeeds, zero, still⟩ | ⟨fails, rfl⟩
  · rw [if_pos succeeds]
    refine ⟨⟨answers_write writes other ⟨fun _ => succeeds, fun _ => zero⟩, ?_⟩, still⟩
    exact fun nonzero => absurd zero nonzero
  · rw [fails, if_neg (by decide)]
    refine ⟨⟨answers_write writes other ⟨nofun, ?_⟩, fun _ => rfl⟩, holds⟩
    exact fun succeeds => absurd (fails.symm.trans succeeds) nofun

omit numbers [DecidableEq ι] in
theorem jsonFindByPk_finds (holds : FileKeeps R path place m files) {i : ι} (key : Key (schemas i)) (out : List FieldValue) :
    (m i key.value = none ∧ jsonFindByPk R (schemas i) files path key.value out = (out, -1)) ∨
    ∃ entity, m i key.value = some entity ∧ jsonFindByPk R (schemas i) files path key.value out = (entity.values, 0) := by
  rcases holds.tables with ⟨entries, loaded, _, tables⟩
  rcases tables i with ⟨rows, tabled, own⟩
  have search := find?_documents (R := R) shared own key.asks
  rw [jsonFindByPk_eq, itemsIn_eq loaded.root tabled]
  cases at_ : m i key.value with
  | none =>
    rw [at_] at search
    refine Or.inl ⟨rfl, ?_⟩
    rw [search]
    rfl
  | some entity =>
    rw [at_] at search
    refine Or.inr ⟨entity, rfl, ?_⟩
    rw [search]
    exact jsonToEntity_entityToJson entity (kept_of_shared shared) out

omit numbers [DecidableEq ι] in
theorem jsonFindAll_lists (holds : FileKeeps R path place m files) (i : ι) :
    ∃ entities, jsonFindAll R (schemas i) files path = (entities, 0) ∧ m.Lists i entities := by
  rcases holds.tables with ⟨entries, loaded, _, tables⟩
  rcases tables i with ⟨rows, tabled, own⟩
  refine ⟨_, jsonFindAll_tabled loaded tabled, ?_⟩
  rw [listItems_documents shared]
  exact lists_of_rows own

theorem jsonMachine_simulates :
    SimulatesWhere (jsonMachine R malloc path schemas) (fileStore schemas) (Roomy R path) (FileKeeps R path place) := by
  intro m files call holds roomy
  refine ⟨_, _, rfl, ?_⟩
  rcases call with ⟨i, op⟩
  cases op with
  | insert entity => exact (jsonInsert_performs shared numbers malloc holds entity roomy).answered holds rfl nofun
  | update entity => exact (jsonUpdate_performs shared numbers malloc holds entity roomy).answered holds rfl nofun
  | remove key => exact (jsonRemove_performs shared numbers malloc holds key roomy).answered holds rfl nofun
  | findByPk key out =>
    have answers := answers_findByPk (jsonFindByPk_finds shared holds key out)
    refine ⟨⟨answers, fun _ => rfl⟩, ?_⟩
    show FileKeeps R path place (m.next ⟨i, .findByPk key out⟩) files
    rw [next_findByPk]
    exact holds
  | findAll =>
    rcases jsonFindAll_lists shared holds i with ⟨entities, all, lists⟩
    refine ⟨?_, ?_⟩
    · show (fileStore schemas).answers m _ ⟨⟨(jsonFindAll R (schemas i) files path).2, [],
        (jsonFindAll R (schemas i) files path).1⟩, files.read path, files.read path⟩
      rw [all]
      exact ⟨answers_findAll lists, fun _ => rfl⟩
    · show FileKeeps R path place (m.next ⟨i, .findAll⟩) files
      rw [next_findAll]
      exact holds

end

theorem fileKeeps_absent {path : Bytes} {place : Path} {schemas : ι → Schema} {files : FileSystem}
    (resolved : files.resolve path = some place) (inside : place ≠ []) (absent : files.node? place = none) :
    FileKeeps R path place (Entities.empty : Entities schemas) files := by
  constructor
  · exact resolved
  · exact inside
  · rw [absent]
    exact nofun
  · refine ⟨[], Or.inr ⟨?_, rfl⟩, .object List.nodup_nil nofun nofun, ?_⟩
    · unfold jsonLoadFile
      rw [FileSystem.read_none resolved absent]
      rfl
    · exact fun i => ⟨[], Or.inr ⟨rfl, rfl⟩, represents_nil _⟩

/-- From no file on, every run whose documents can be counted is that of a map for each table. -/
theorem jsonStore_run [DecidableEq ι] {path : Bytes} {place : Path} {schemas : ι → Schema} (shared : Shared schemas)
    (numbers : Json.ReadsNumbers R) (malloc : Nat → Bytes) {files : FileSystem} (resolved : files.resolve path = some place)
    (inside : place ≠ []) (absent : files.node? place = none) (calls : List (ModelCall schemas))
    (roomy : (jsonMachine R malloc path schemas).Guarded (Roomy R path) files calls) :
    ∃ after results, (jsonMachine R malloc path schemas).run files calls = some (after, results) ∧
      (fileStore schemas).Explains Entities.empty calls results := by
  have start : FileKeeps R path place (Entities.empty : Entities schemas) files := fileKeeps_absent resolved inside absent
  rcases (jsonMachine_simulates shared numbers malloc).run start roomy with ⟨after, results, run, explained, _⟩
  exact ⟨after, results, run, explained⟩

def onlyCounters (_ : Unit) : Schema := counters

theorem onlyCounters_shared : Shared onlyCounters := ⟨fun _ => counters_spelled, fun _ => (by decide : ∀ f ∈ counters.fields, f.type ≠ .blob), fun _ _ _ => rfl⟩

def oneInsert : List (ModelCall onlyCounters) := [⟨(), .insert (counter 1)⟩]

theorem oneInsert_roomy :
    (@jsonMachine Unit Nat tenths (fun _ => []) (ascii "db") onlyCounters).Guarded (@Roomy Unit Nat tenths (ascii "db") onlyCounters) {}
      oneInsert := by
  let _ : Reals Nat := tenths
  have loaded : loadRoot Nat {} (ascii "db") = .object [] := rfl
  have document : insertDocument counters (loadRoot Nat {} (ascii "db")) (counter 1).values =
      some (.object [(nameBytes "counters", .array [entityToJson counters (counter 1).values])]) := by
    rw [loaded]
    exact insertDocument_tabled (Or.inr ⟨rfl, rfl⟩) _
  refine ⟨?_, fun _ _ _ => trivial⟩
  intro other same
  change insertDocument counters (loadRoot Nat {} (ascii "db")) (counter 1).values = some other at same
  rw [document] at same
  cases same
  show (treeText _).length + 1 < 2 ^ 31
  decide +kernel

theorem jsonStore_run_counters : ∃ after results,
    (@jsonMachine Unit Nat tenths (fun _ => []) (ascii "db") onlyCounters).run {} oneInsert = some (after, results) ∧
      (fileStore onlyCounters).Explains Entities.empty oneInsert results :=
  @jsonStore_run Unit Nat tenths _ (ascii "db") [ascii "db"] onlyCounters onlyCounters_shared tenths_numbers (fun _ => []) {}
    rfl (by decide) rfl oneInsert oneInsert_roomy

/-! ## A text that cannot be counted -/

def letters : Schema where
  name := "letters"
  fields := [⟨"k", .string, 2 ^ 31 - 1⟩]
  primaryKeyIndex := 0
  primaryKey := by decide
  sizes := by decide
  distinct := by decide

def manyLetters (count : Nat) : Bytes := List.replicate count (ch 'a')

section
variable {v : Json R} {n : Int} {depth : Nat} (negative : n < 0) (short : depth < 1000)
  (measured : ∀ size, Json.serializeJson v (some (depth + 1)) ⟨none, size⟩ = (none, n))
include negative short measured

theorem serializeJson_entry_fails {key : Bytes} (small : (Json.keyText key).length < 1000) (size : Nat) :
    Json.serializeJson (.object [(key, v)]) (some depth) ⟨none, size⟩ = (none, -1) := by
  let front := [Json.puts (ascii "\x7b"), Json.puts (ascii "\n")] ++
    (List.replicate (depth + 1) (Json.puts (ascii "\t")) ++ [Json.putsKey key])
  let back := [Json.puts (ascii "\n")] ++ List.replicate depth (Json.puts (ascii "\t")) ++ [Json.puts (ascii "\x7d")]
  have prints : List.Forall₂ Json.Prints front
      ([ascii "\x7b", ascii "\n"] ++ (List.replicate (depth + 1) (ascii "\t") ++ [Json.keyText key])) := by
    apply List.rel_append (.cons (Json.puts_prints _) (.cons (Json.puts_prints _) .nil))
    exact List.rel_append (Json.tabs_rel Json.puts_prints (some (depth + 1))) (.cons (Json.putsKey_prints key) .nil)
  have fails : Json.printAll Json.toSize size (front ++ Json.serializeJson v (some (depth + 1)) :: back) none 0 = (none, -1) := by
    apply Json.printAll_fails (fun n => Json.toSize_small) size prints measured negative back 0
    simp [ascii]
    omega
  have layout : Json.objectLayout Json.puts Json.putsKey (some depth) [(key, Json.serializeJson v (some (depth + 1)))] =
      front ++ Json.serializeJson v (some (depth + 1)) :: back := by
    simp [front, back, Json.objectLayout, Json.entryLayout, Json.newline, Json.tabs, Json.deeper]
  rw [← layout] at fails
  rw [Json.serializeJson, Json.serializeEntries, Json.serializeEntries]
  show ((Json.printAll Json.toSize size (Json.objectLayout Json.puts Json.putsKey (some depth)
    [(key, Json.serializeJson v (some (depth + 1)))]) none 0).1, Json.toInt (Json.printAll Json.toSize size
    (Json.objectLayout Json.puts Json.putsKey (some depth) [(key, Json.serializeJson v (some (depth + 1)))]) none 0).2) = _
  rw [fails]
  rfl

theorem serializeJson_item_fails (nested : Json.isContainer v = true) (size : Nat) :
    Json.serializeJson (.array [v]) (some depth) ⟨none, size⟩ = (none, -1) := by
  let front := [Json.puts (ascii "["), Json.puts (ascii "\n")] ++ List.replicate (depth + 1) (Json.puts (ascii "\t"))
  let back := [Json.puts [], Json.puts (ascii "\n")] ++ List.replicate depth (Json.puts (ascii "\t")) ++ [Json.puts (ascii "]")]
  have prints : List.Forall₂ Json.Prints front ([ascii "[", ascii "\n"] ++ List.replicate (depth + 1) (ascii "\t")) := by
    apply List.rel_append (.cons (Json.puts_prints _) (.cons (Json.puts_prints _) .nil))
    exact Json.tabs_rel Json.puts_prints (some (depth + 1))
  have fails : Json.printAll Json.toInt size (front ++ Json.serializeJson v (some (depth + 1)) :: back) none 0 = (none, -1) := by
    apply Json.printAll_fails (fun n => Json.toInt_small) size prints measured negative back 0
    simp [ascii]
    omega
  have layout : Json.arrayLayout Json.puts (some depth) [Json.serializeJson v (some (depth + 1))] =
      front ++ Json.serializeJson v (some (depth + 1)) :: back := by
    simp [front, back, Json.arrayLayout, Json.itemLayout, Json.newline, Json.tabs, Json.deeper]
  have indent : Json.arrayIndent (some depth) [v] = some depth := by
    unfold Json.arrayIndent
    rw [List.any_cons, nested]
    rfl
  rw [← layout] at fails
  rw [Json.serializeJson, indent, Json.serializeItems, Json.serializeItems]
  exact fails

end

theorem serialize_letters {count : Nat} (least : 2 ^ 31 ≤ count + 2) (greatest : count + 2 < 2 ^ 32) (malloc : Nat → Bytes) :
    Json.serialize malloc (some 0)
      (.object [(nameBytes "letters", .array [.object [(nameBytes "k", .text (some (manyLetters count)))]])] : Json R) =
      .error .nothing := by
  have text (size : Nat) : Json.serializeJson (.text (some (manyLetters count)) : Json R) (some 3) ⟨none, size⟩ =
      (none, Json.toInt ((Json.quoted (manyLetters count)).length : Int)) := by
    rw [Json.serializeJson]
    rfl
  have length : (Json.quoted (manyLetters count)).length = count + 2 := Json.quoted_letters count
  have negative : Json.toInt ((Json.quoted (manyLetters count)).length : Int) < 0 := by
    rw [length]
    exact Json.toInt_large (by omega) (by omega)
  let entry : Json R := .object [(nameBytes "k", .text (some (manyLetters count)))]
  have row : ∀ size, Json.serializeJson entry (some 2) ⟨none, size⟩ = (none, -1) :=
    serializeJson_entry_fails negative (by decide) text (by decide)
  have table : ∀ size, Json.serializeJson (.array [entry]) (some 1) ⟨none, size⟩ = (none, -1) :=
    serializeJson_item_fails (by decide) (by decide) row rfl
  have file : ∀ size, Json.serializeJson (.object [(nameBytes "letters", .array [entry])]) (some 0) ⟨none, size⟩ = (none, -1) :=
    serializeJson_entry_fails (by decide) (by decide) table (by decide)
  unfold Json.serialize
  rw [file, if_pos (by decide)]

abbrev onlyLetters (_ : Unit) : Schema := letters

def longRow {count : Nat} (short : count < 2 ^ 31 - 1) : Entity letters where
  values := [.text (manyLetters count)]
  holds := by
    refine .cons ⟨rfl, ?_, ?_⟩ .nil
    · intro member
      exact absurd (List.eq_of_mem_replicate member) (by decide)
    · unfold manyLetters
      rw [List.length_replicate]
      exact short

theorem jsonInsert_letters {count : Nat} (least : 2 ^ 31 ≤ count + 2) (short : count < 2 ^ 31 - 1) :
    (jsonInsert R (fun _ => []) letters {} (ascii "db") (longRow short).values).2 = 1 := by
  have root : loadRoot R {} (ascii "db") = .object [] := rfl
  have document : insertDocument letters (.object ([] : List (Bytes × Json R))) (longRow short).values =
      some (.object [(nameBytes "letters", .array [entityToJson letters (longRow short).values])]) :=
    insertDocument_tabled (Or.inr ⟨rfl, rfl⟩) _
  have row : (entityToJson letters (longRow short).values : Json R) = .object [(nameBytes "k", .text (some (manyLetters count)))] :=
    entityToJson_eq (longRow short)
  have there : FileSystem.resolve {} (ascii "db") = some [ascii "db"] := rfl
  have fails := jsonDump_fails (fun _ => []) there (by decide) (serialize_letters (R := R) least (by omega) (fun _ => []))
  unfold jsonInsert
  rw [root, document, row]
  unfold saveRoot
  dsimp only
  rw [fails]

theorem not_explained_of_fails [DecidableEq ι] {malloc : Nat → Bytes} {path : Bytes} {schemas : ι → Schema} {files after : FileSystem}
    {i : ι} {entity : Entity (schemas i)} {m : Entities schemas} (fresh : m i entity.key = none)
    (fails : (jsonInsert R malloc (schemas i) files path entity.values).2 ≠ 0) {results : List FileResult}
    (run : (jsonMachine R malloc path schemas).run files [⟨i, .insert entity⟩] = some (after, results)) :
    ¬(fileStore schemas).Explains m [⟨i, .insert entity⟩] results := by
  intro explained
  rw [Machine.run_single (jsonMachine_insert malloc path schemas files entity)] at run
  have same : _ = results := congrArg Prod.snd (Option.some.inj run)
  rw [← same] at explained
  have succeeds : m.succeeds ⟨i, .insert entity⟩ = true := by
    show (m i entity.key).isNone = true
    rw [fresh]
    rfl
  exact fails (explained.1.1.success.mpr succeeds)

/-- A table with one row of 2^31-2 letters: the insertion into a new file fails. -/
theorem not_explains_letters : ¬ ∀ calls : List (ModelCall onlyLetters), ∃ after results,
    (@jsonMachine Unit Nat tenths (fun _ => []) (ascii "db") onlyLetters).run {} calls = some (after, results) ∧
      (fileStore onlyLetters).Explains Entities.empty calls results := by
  intro all
  have some_ : ∃ count, count = 2 ^ 31 - 2 := ⟨_, rfl⟩
  rcases some_ with ⟨count, large⟩
  have short : count < 2 ^ 31 - 1 := by omega
  have refused := @jsonInsert_letters Nat tenths count (by omega) short
  rcases all [⟨(), .insert (longRow short)⟩] with ⟨after, results, run, explained⟩
  exact @not_explained_of_fails Unit Nat tenths _ _ _ onlyLetters _ _ () (longRow short) _ rfl
    (ne_of_eq_of_ne refused (by decide)) _ run explained

end BlueBird.Persist
