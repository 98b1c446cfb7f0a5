import BlueBird.Persist.JsonTables

namespace BlueBird.Persist

variable {R : Type} [Reals R]

/-- The file has a JSON object whose table, if it is there, is an array. -/
def Shaped (R : Type) [Reals R] (schema : Schema) (files : FileSystem) (path : Bytes) : Prop :=
  ∃ entries items, jsonLoadFile R files path = some (.object entries) ∧ Tabled entries (nameBytes schema.name) items

/-- An insertion that succeeds has the entity found, and whatever was read before is still read; content of another
    shape is refused and left as it is. -/
structure InsertKeeps (R : Type) [Reals R] (schema : Schema) (files : FileSystem) (path : Bytes) (values : List FieldValue)
    (result : FileSystem × Int) : Prop where
  findable : result.2 = 0 → ∀ out, jsonFindByPk R schema result.1 path (schema.key values) out = (values, 0)
  finds : result.2 = 0 → ∀ (other : Schema) key out found, jsonFindByPk R other files path key out = (found, 0) →
    jsonFindByPk R other result.1 path key out = (found, 0)
  lists : result.2 = 0 → ∀ other : Schema,
    (jsonFindAll R other files path).1.Sublist (jsonFindAll R other result.1 path).1
  refuses : ¬Shaped R schema files path → result.2 ≠ 0 ∧ result.1.read path = files.read path

/-- The content is of the shape that is expected, and what is saved, if anything is, loses no blob and can be counted. -/
structure SafeInsert (R : Type) [Reals R] (schema : Schema) (files : FileSystem) (path : Bytes) (values : List FieldValue) : Prop where
  shaped : Shaped R schema files path
  keyed : ∀ document, insertDocument schema (loadRoot R files path) values = some document → schema.pk.type ≠ .blob
  kept : ∀ document, insertDocument schema (loadRoot R files path) values = some document →
    ∀ field ∈ schema.fields.zip values, field.1.Kept field.2
  counted : ∀ document, insertDocument schema (loadRoot R files path) values = some document → Counted document

theorem itemsIn_unshaped {schema : Schema} {files : FileSystem} {path : Bytes} (unshaped : ¬Shaped R schema files path) :
    itemsIn R files path (nameBytes schema.name) = [] := by
  unfold itemsIn loadRoot getTable
  cases loaded : jsonLoadFile R files path with
  | none => rfl
  | some root =>
    cases root with
    | object entries =>
      rw [Option.getD_some]
      unfold getKey
      dsimp only
      cases found : Json.objectGetValue entries (nameBytes schema.name) with
      | none => rfl
      | some table =>
        cases table with
        | array items => exact absurd ⟨entries, items, loaded, Or.inl found⟩ unshaped
        | null => rfl
        | bool => rfl
        | int => rfl
        | real => rfl
        | text => rfl
        | object => rfl
    | null => rfl
    | bool => rfl
    | int => rfl
    | real => rfl
    | text => rfl
    | array => rfl

theorem insertDocument_unshaped {schema : Schema} {files : FileSystem} {path : Bytes} (unshaped : ¬Shaped R schema files path)
    (values : List FieldValue) : ∃ document, insertDocument schema (loadRoot R files path) values = some document := by
  have empty : tableItems (getTable (loadRoot R files path) (nameBytes schema.name)).2 = [] := itemsIn_unshaped unshaped
  unfold insertDocument
  generalize getTable (loadRoot R files path) (nameBytes schema.name) = pair at empty
  rcases pair with ⟨root, table⟩
  dsimp only at empty ⊢
  rw [empty]
  exact ⟨_, rfl⟩

omit [Reals R] in
theorem fieldsFromJson_kept (entries : List (Bytes × Json R)) (fields : List Field) :
    ∀ field ∈ fields.zip (fieldsFromJson entries fields).1, field.1.Kept field.2 := by
  induction fields with
  | nil => exact fun field member => absurd member List.not_mem_nil
  | cons f fields ih =>
    unfold fieldsFromJson
    cases read : fieldFromJson f (Json.objectGetValue entries (nameBytes f.name)) with
    | none =>
      intro field member
      rcases List.getElem?_of_mem member with ⟨i, here⟩
      rcases List.getElem?_zip_eq_some.mp here with ⟨left, right⟩
      have zero : field.2 = field.1.zero := by
        have mapped : ((f :: fields).map Field.zero)[i]? = some field.2 := right
        rw [List.getElem?_map, left] at mapped
        exact (Option.some.inj mapped).symm
      exact fun _ => zero
    | some value =>
      dsimp only
      rw [List.zip_cons_cons, List.forall_mem_cons]
      refine ⟨?_, ih⟩
      intro type
      unfold fieldFromJson at read
      cases found : Json.objectGetValue entries (nameBytes f.name) with
      | none =>
        rw [found] at read
        exact (Option.some.inj read).symm
      | some json =>
        rw [found, type] at read
        exact (Option.some.inj read).symm

omit [Reals R] in
/-- What an object is read as has nothing in its blobs. -/
theorem jsonToEntity_kept {schema : Schema} {entries : List (Bytes × Json R)} {out values : List FieldValue} {rc : Int}
    (read : jsonToEntity schema (.object entries) out = (values, rc)) : ∀ field ∈ schema.fields.zip values, field.1.Kept field.2 := by
  have kept := fieldsFromJson_kept entries schema.fields
  have same : (fieldsFromJson entries schema.fields).1 = values := congrArg Prod.fst read
  rw [same] at kept
  exact kept

section
variable {schema : Schema} (spelled : schema.Spelled) (entity : Entity schema) {files : FileSystem} {path : Bytes} {place : Path}
  (resolved : files.resolve path = some place) (inside : place ≠ []) {content : Bytes}
  (file : files.node? place = some (.file content)) (malloc : Nat → Bytes) (numbers : Json.ReadsNumbers R)
  (formats : Json.FormatsReals R)
include spelled resolved inside file numbers formats

theorem jsonInsert_appends {entries : List (Bytes × Json R)} {items : List (Json R)}
    (loaded : jsonLoadFile R files path = some (.object entries)) (tabled : Tabled entries (nameBytes schema.name) items)
    (fresh : items.any (hasKey schema (schema.key entity.values)) = false)
    (counted : Counted (.object (withTable entries (nameBytes schema.name) (items ++ [entityToJson schema entity.values])) : Json R)) :
    ∃ after, jsonInsert R malloc schema files path entity.values = (after, 0) ∧
      itemsIn R after path (nameBytes schema.name) = items ++ [entityToJson schema entity.values] ∧
      ∀ name, name ≠ nameBytes schema.name → itemsIn R after path name = itemsIn R files path name := by
  have other : files.node? place ≠ some .directory := by
    rw [file]
    exact nofun
  have root : loadRoot R files path = .object entries := by
    unfold loadRoot
    rw [loaded]
    rfl
  have deep : Json.Reprintable (510 + 2) (.object entries : Json R) := jsonLoadFile_reprintable formats loaded
  have plain : ∀ item ∈ items ++ [entityToJson schema entity.values], Json.Reprintable 510 item := by
    intro item member
    rcases List.mem_append.mp member with old | own
    · exact reprintable_items deep tabled item old
    · rw [List.mem_singleton.mp own]
      exact entityToJson_reprintable spelled entity 509
  have reprintable := reprintable_withTable deep spelled.name plain
  have reload := loadRoot_put resolved inside other numbers reprintable
  have saved := saveRoot_counted malloc resolved other counted
  refine ⟨files.put place (.file (treeText (.object (withTable entries (nameBytes schema.name)
    (items ++ [entityToJson schema entity.values])) : Json R))), ?_, ?_, ?_⟩
  · unfold jsonInsert
    rw [root, insertDocument_tabled tabled, fresh]
    exact saved
  · apply itemsIn_eq
    · unfold loadRoot
      rw [reload]
      rfl
    · exact tabled_withTable _ _ _
  · intro name differs
    unfold itemsIn loadRoot
    rw [reload, loaded, Option.getD_some, Option.getD_some]
    unfold getTable getKey Json.objectGetValue
    dsimp only
    rw [get?_withTable differs]
    cases OrderedMap.get? entries name with
    | none => rfl
    | some table => rfl

theorem insertKeeps_of_safe (safe : SafeInsert R schema files path entity.values) :
    InsertKeeps R schema files path entity.values (jsonInsert R malloc schema files path entity.values) := by
  rcases safe.shaped with ⟨entries, items, loaded, tabled⟩
  have root : loadRoot R files path = .object entries := by
    unfold loadRoot
    rw [loaded]
    rfl
  have before := itemsIn_eq root tabled
  have document := insertDocument_tabled tabled entity.values
  cases fresh : items.any (hasKey schema (schema.key entity.values)) with
  | true =>
    have refused : jsonInsert R malloc schema files path entity.values = (files, -1) := by
      unfold jsonInsert
      rw [root, document, fresh]
      rfl
    rw [refused]
    exact ⟨nofun, nofun, nofun, fun unshaped => absurd safe.shaped unshaped⟩
  | false =>
    rw [fresh, if_neg (by decide), ← root] at document
    have asks := (key_holds entity).asks (safe.keyed _ document)
    rcases jsonInsert_appends spelled entity resolved inside file malloc numbers formats loaded tabled fresh
      (safe.counted _ document) with ⟨after, inserted, own, others⟩
    rw [inserted]
    have grows (name : Bytes) : ∃ more, itemsIn R after path name = itemsIn R files path name ++ more := by
      by_cases same : name = nameBytes schema.name
      · rw [same, own, before]
        exact ⟨_, rfl⟩
      · rw [others name same]
        exact ⟨[], (List.append_nil _).symm⟩
    constructor
    · intro _ out
      have none_ : items.find? (hasKey schema (schema.key entity.values)) = none := by
        apply List.find?_eq_none.mpr
        intro item member hit
        have some_ := List.any_eq_true.mpr ⟨item, member, hit⟩
        rw [fresh] at some_
        cases some_
      have hit := (hasKey_entityToJson (R := R) entity (safe.keyed _ document) asks).mpr rfl
      rw [jsonFindByPk_eq, own, List.find?_append, none_, List.find?_cons_of_pos hit]
      exact jsonToEntity_entityToJson entity (safe.kept _ document) out
    · intro _ schema' key out found read
      rcases grows (nameBytes schema'.name) with ⟨more, whole⟩
      rw [jsonFindByPk_eq] at read ⊢
      rw [whole, List.find?_append]
      cases first : (itemsIn R files path (nameBytes schema'.name)).find? (hasKey schema' key) with
      | none =>
        rw [first] at read
        cases read
      | some item =>
        rw [first] at read
        exact read
    · intro _ schema'
      rcases grows (nameBytes schema'.name) with ⟨more, whole⟩
      rw [jsonFindAll_entities, jsonFindAll_entities, whole]
      unfold listItems
      rw [List.map_append]
      exact List.sublist_append_left _ _
    · exact fun unshaped => absurd safe.shaped unshaped

theorem safe_of_insertKeeps
    (counted : ∀ document, insertDocument schema (loadRoot R files path) entity.values = some document → Counted document)
    (keeps : InsertKeeps R schema files path entity.values (jsonInsert R malloc schema files path entity.values)) :
    SafeInsert R schema files path entity.values := by
  have other : files.node? place ≠ some .directory := by
    rw [file]
    exact nofun
  have succeeds : ∀ document, insertDocument schema (loadRoot R files path) entity.values = some document →
      (jsonInsert R malloc schema files path entity.values).2 = 0 := by
    intro document written
    unfold jsonInsert
    rw [written]
    exact jsonDump_succeeds malloc resolved other (counted document written)
  have shaped : Shaped R schema files path := by
    by_contra unshaped
    rcases insertDocument_unshaped unshaped entity.values with ⟨document, written⟩
    exact (keeps.refuses unshaped).1 (succeeds document written)
  rcases shaped with ⟨entries, items, loaded, tabled⟩
  have root : loadRoot R files path = .object entries := by
    unfold loadRoot
    rw [loaded]
    rfl
  have both : ∀ document, insertDocument schema (loadRoot R files path) entity.values = some document →
      schema.pk.type ≠ .blob ∧ ∀ field ∈ schema.fields.zip entity.values, field.1.Kept field.2 := by
    intro document written
    have found := keeps.findable (succeeds document written)
    have tree := insertDocument_tabled tabled entity.values
    cases fresh : items.any (hasKey schema (schema.key entity.values)) with
    | true =>
      rw [fresh, if_pos rfl, ← root, written] at tree
      cases tree
    | false =>
      rw [fresh, if_neg (by decide), ← root] at tree
      rcases jsonInsert_appends spelled entity resolved inside file malloc numbers formats loaded tabled fresh
        (counted _ tree) with ⟨after, inserted, own, _⟩
      rw [inserted] at found
      have here := found entity.values
      have none_ : items.find? (hasKey schema (schema.key entity.values)) = none := by
        apply List.find?_eq_none.mpr
        intro item member hit
        have some_ := List.any_eq_true.mpr ⟨item, member, hit⟩
        rw [fresh] at some_
        cases some_
      rw [jsonFindByPk_eq, own, List.find?_append, none_, Option.none_or] at here
      constructor
      · intro blob
        have missed : hasKey schema (schema.key entity.values) (entityToJson schema entity.values : Json R) = false := by
          unfold hasKey pkEquals
          rw [blob]
          split <;> rfl
        rw [List.find?_cons_of_neg (by rw [missed]; decide)] at here
        cases here
      · cases hit : hasKey schema (schema.key entity.values) (entityToJson schema entity.values : Json R) with
        | false =>
          rw [List.find?_cons_of_neg (by rw [hit]; decide)] at here
          cases here
        | true =>
          rw [List.find?_cons_of_pos hit] at here
          exact jsonToEntity_kept here
  exact ⟨⟨entries, items, loaded, tabled⟩, fun document written => (both document written).1,
    fun document written => (both document written).2, counted⟩

end

/-- What an insertion keeps, for any content of the file: the whole of the condition, as far as the text that is saved
    can be counted. -/
theorem insertKeeps_iff {schema : Schema} (spelled : schema.Spelled) (entity : Entity schema) {files : FileSystem} {path : Bytes}
    {place : Path} (resolved : files.resolve path = some place) (inside : place ≠ []) {content : Bytes}
    (file : files.node? place = some (.file content)) (malloc : Nat → Bytes) (numbers : Json.ReadsNumbers R)
    (formats : Json.FormatsReals R) :
    (SafeInsert R schema files path entity.values →
      InsertKeeps R schema files path entity.values (jsonInsert R malloc schema files path entity.values)) ∧
    ((∀ document, insertDocument schema (loadRoot R files path) entity.values = some document → Counted document) →
      InsertKeeps R schema files path entity.values (jsonInsert R malloc schema files path entity.values) →
      SafeInsert R schema files path entity.values) :=
  ⟨insertKeeps_of_safe spelled entity resolved inside file malloc numbers formats,
    safe_of_insertKeeps spelled entity resolved inside file malloc numbers formats⟩

/-- Floats in tenths, of which 2.5 is the only one that is read. -/
@[reducible] def tenths : Reals Nat where
  strtof token := (if token = ascii "2.5" then 25 else 0, [])
  infinite v := v ≠ 25
  formatReal _ := ascii "2.5"
  equal a b := a = b

theorem tenths_numbers : @Json.ReadsNumbers Nat tenths := fun _ _ _ _ _ _ _ _ => rfl

theorem tenths_formats : @Json.FormatsReals Nat tenths := by
  intro levels token v denotes other
  cases denotes with
  | real _ _ _ _ _ finite =>
    have same := not_not.mp (of_decide_eq_false (eq_false_of_ne_true finite))
    rw [same]
    have digits := @Json.Denotes.real Nat tenths other [] (ascii "2") (ascii ".5") [] (Or.inl rfl)
      (Or.inr ⟨⟨by decide, by decide +kernel⟩, by decide⟩) (Or.inr ⟨ascii "5", ⟨by decide, by decide +kernel⟩, rfl⟩) (Or.inl rfl) (by decide)
      (by decide +kernel)
    exact digits

def counters : Schema where
  name := "counters"
  fields := [⟨"id", .int, 4⟩, ⟨"label", .string, 16⟩]
  primaryKeyIndex := 0
  primaryKey := by decide
  sizes := by decide
  distinct := by decide

def counter (id : Int32) : Entity counters := ⟨[.int id, .text (ascii "a")], .cons rfl (.cons ⟨rfl, by decide, by decide⟩ .nil)⟩

def filesWith (content : Bytes) : FileSystem := { entries := [([ascii "db"], .file content)] }

theorem counters_spelled : counters.Spelled := ⟨by decide, by decide⟩

def emptyObject : FileSystem := filesWith (ascii "\x7b\x7d")

theorem insertKeeps_iff_counters : @InsertKeeps Nat tenths counters emptyObject (ascii "db") (counter 1).values
    (@jsonInsert Nat tenths (fun _ => []) counters emptyObject (ascii "db") (counter 1).values) := by
  let _ : Reals Nat := tenths
  have loaded : jsonLoadFile Nat emptyObject (ascii "db") = some (.object []) := rfl
  have tabled : Tabled ([] : List (Bytes × Json Nat)) (nameBytes counters.name) [] := Or.inr ⟨rfl, rfl⟩
  have root : loadRoot Nat emptyObject (ascii "db") = .object [] := by
    unfold loadRoot
    rw [loaded]
    rfl
  have document : insertDocument counters (loadRoot Nat emptyObject (ascii "db")) (counter 1).values =
      some (.object [(nameBytes "counters", .array [entityToJson counters (counter 1).values])]) := by
    rw [root]
    exact insertDocument_tabled tabled _
  have plain : ∀ field ∈ counters.fields, field.type ≠ .blob := by decide
  apply (@insertKeeps_iff Nat tenths counters counters_spelled (counter 1) emptyObject (ascii "db") [ascii "db"] rfl (by decide) _
    rfl (fun _ => []) tenths_numbers tenths_formats).1
  constructor
  · exact ⟨[], [], loaded, tabled⟩
  · intro _ _
    decide
  · intro _ _ field member blob
    exact absurd blob (plain field.1 (List.of_mem_zip member).1)
  · intro other same
    rw [document] at same
    cases same
    show (treeText _).length + 1 < 2 ^ 31
    decide +kernel

/-- What is left of a file with the counter 1 in it, when the last bytes have been lost. -/
def tornFile : FileSystem := filesWith (ascii "\x7b\"counters\": [\x7b\"id\": 1, \"label\": \"a\"\x7d]")

theorem tornFile_damaged : @jsonLoadFile Nat tenths tornFile (ascii "db") = none := by decide +kernel

/-- The damaged file counts as empty, and is written over. -/
theorem not_insertKeeps_torn : (@jsonInsert Nat tenths (fun _ => []) counters tornFile (ascii "db") (counter 2).values).2 = 0 ∧
    ¬@InsertKeeps Nat tenths counters tornFile (ascii "db") (counter 2).values
      (@jsonInsert Nat tenths (fun _ => []) counters tornFile (ascii "db") (counter 2).values) := by
  let _ : Reals Nat := tenths
  have done_ : (jsonInsert Nat (fun _ => []) counters tornFile (ascii "db") (counter 2).values).2 = 0 := by decide +kernel
  refine ⟨done_, ?_⟩
  intro keeps
  have unshaped : ¬Shaped Nat counters tornFile (ascii "db") := by
    intro shaped
    rcases shaped with ⟨entries, items, loaded, _⟩
    rw [tornFile_damaged] at loaded
    cases loaded
  exact (keeps.refuses unshaped).1 done_

end BlueBird.Persist
