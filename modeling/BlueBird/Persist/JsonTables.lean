import BlueBird.Persist.JsonModel

/-! Trees whose tables are arrays: what the operations of the backend do to them, and their way through the file. -/

namespace BlueBird.Persist

variable {R : Type}

/-- The table of a name is an array of these items, or it is not there and would have none. -/
def Tabled (entries : List (Bytes × Json R)) (name : Bytes) (items : List (Json R)) : Prop :=
  OrderedMap.get? entries name = some (.array items) ∨ (OrderedMap.get? entries name = none ∧ items = [])

def withTable (entries : List (Bytes × Json R)) (name : Bytes) (items : List (Json R)) : List (Bytes × Json R) :=
  OrderedMap.set entries name (.array items)

theorem tabled_withTable (entries : List (Bytes × Json R)) (name : Bytes) (items : List (Json R)) :
    Tabled (withTable entries name items) name items := by
  refine Or.inl ?_
  unfold withTable
  rw [OrderedMap.get?_set, if_pos rfl]

theorem get?_withTable {entries : List (Bytes × Json R)} {name other : Bytes} (differs : other ≠ name) (items : List (Json R)) :
    OrderedMap.get? (withTable entries name items) other = OrderedMap.get? entries other := by
  unfold withTable
  rw [OrderedMap.get?_set, if_neg differs]

section
variable {entries : List (Bytes × Json R)} {name : Bytes} {items : List (Json R)} (tabled : Tabled entries name items)
include tabled

theorem getTable_items : (getTable (.object entries) name).2 = .array items := by
  unfold getTable getKey Json.objectGetValue
  dsimp only
  rcases tabled with found | ⟨absent, rfl⟩
  · rw [found]
  · rw [absent]

theorem setKey_getTable (after : List (Json R)) :
    setKey (getTable (.object entries) name).1 name (.array after) = .object (withTable entries name after) := by
  unfold getTable getKey Json.objectGetValue
  dsimp only
  rcases tabled with found | ⟨absent, _⟩
  · rw [found]
    rfl
  · rw [absent]
    show Json.object (OrderedMap.set (OrderedMap.set entries name (.array [])) name (.array after)) = _
    rw [OrderedMap.set_set]
    rfl

end

section
variable {schema : Schema} {entries : List (Bytes × Json R)} {items : List (Json R)}
  (tabled : Tabled entries (nameBytes schema.name) items)
include tabled

theorem insertDocument_tabled (values : List FieldValue) : insertDocument schema (.object entries) values =
    if items.any (hasKey schema (schema.key values)) then none
    else some (.object (withTable entries (nameBytes schema.name) (items ++ [entityToJson schema values]))) := by
  have table := getTable_items tabled
  have put := setKey_getTable tabled (items ++ [entityToJson schema values])
  unfold insertDocument
  generalize getTable (.object entries) (nameBytes schema.name) = pair at table put
  rcases pair with ⟨root, found⟩
  dsimp only at table put ⊢
  rw [table]
  show (if items.any _ then none else some (setKey root _ (.array (items ++ [_])))) = _
  rw [put]

theorem updateDocument_tabled (values : List FieldValue) : updateDocument schema (.object entries) values =
    (items.findIdx? (hasKey schema (schema.key values))).map fun i =>
      .object (withTable entries (nameBytes schema.name) (items.eraseIdx i ++ [entityToJson schema values])) := by
  have table := getTable_items tabled
  have put := setKey_getTable tabled
  unfold updateDocument
  generalize getTable (.object entries) (nameBytes schema.name) = pair at table put
  rcases pair with ⟨root, found⟩
  dsimp only at table put ⊢
  rw [table]
  show ((items.findIdx? _).map fun i => setKey root _ (.array (items.eraseIdx i ++ [_]))) = _
  congr 1
  funext i
  exact put _

theorem removeDocument_tabled (key : FieldValue) : removeDocument schema (.object entries) key =
    (items.findIdx? (hasKey schema key)).map fun i => .object (withTable entries (nameBytes schema.name) (items.eraseIdx i)) := by
  have table := getTable_items tabled
  have put := setKey_getTable tabled
  unfold removeDocument
  generalize getTable (.object entries) (nameBytes schema.name) = pair at table put
  rcases pair with ⟨root, found⟩
  dsimp only at table put ⊢
  rw [table]
  show ((items.findIdx? _).map fun i => setKey root _ (.array (items.eraseIdx i))) = _
  congr 1
  funext i
  exact put _

end

/-! ## Reading -/

section
variable [Reals R] {files : FileSystem} {path : Bytes}

/-- What the file has for a table, whatever is in the file. -/
def itemsIn (R : Type) [Reals R] (files : FileSystem) (path : Bytes) (name : Bytes) : List (Json R) :=
  tableItems (getTable (loadRoot R files path) name).2

theorem jsonFindByPk_eq (schema : Schema) (key : FieldValue) (out : List FieldValue) :
    jsonFindByPk R schema files path key out =
      match (itemsIn R files path (nameBytes schema.name)).find? (hasKey schema key) with
      | some item => jsonToEntity schema item out
      | none => (out, -1) := rfl

theorem jsonFindAll_entities (schema : Schema) :
    (jsonFindAll R schema files path).1 = listItems schema (itemsIn R files path (nameBytes schema.name)) := by
  unfold jsonFindAll itemsIn loadRoot getTable
  cases jsonLoadFile R files path with
  | none => rfl
  | some root =>
    cases root with
    | object entries =>
      rw [Option.getD_some]
      unfold getKey
      dsimp only
      cases Json.objectGetValue entries (nameBytes schema.name) with
      | none => rfl
      | some table =>
        cases table with
        | array items => rfl
        | null => rfl
        | bool => rfl
        | int => rfl
        | real => rfl
        | text => rfl
        | object => rfl
    | null => rfl
    | bool => rfl
    | int => rfl
    | real => rfl
    | text => rfl
    | array => rfl

theorem itemsIn_eq {entries : List (Bytes × Json R)} (loaded : loadRoot R files path = .object entries) {name : Bytes}
    {items : List (Json R)} (tabled : Tabled entries name items) : itemsIn R files path name = items := by
  unfold itemsIn
  rw [loaded, getTable_items tabled]
  rfl

end

/-! ## Through the file -/

section
variable [Reals R]

theorem reprintable_withTable {entries : List (Bytes × Json R)} {levels : Nat} {name : Bytes} {items : List (Json R)}
    (reprintable : Json.Reprintable (levels + 2) (.object entries)) (clean : (0 : Byte) ∉ name)
    (plain : ∀ item ∈ items, Json.Reprintable levels item) :
    Json.Reprintable (levels + 2) (.object (withTable entries name items)) := by
  cases reprintable with
  | object distinct keys values =>
    have table : Json.Reprintable (levels + 1) (.array items : Json R) := .array plain
    refine .object (OrderedMap.distinct_set distinct name _) ?_ ?_
    · intro entry member
      rcases (OrderedMap.mem_set distinct).mp member with rfl | ⟨old, _⟩
      · exact clean
      · exact keys entry old
    · intro entry member
      rcases (OrderedMap.mem_set distinct).mp member with rfl | ⟨old, _⟩
      · exact table
      · exact values entry old

theorem reprintable_items {entries : List (Bytes × Json R)} {levels : Nat} {name : Bytes} {items : List (Json R)}
    (reprintable : Json.Reprintable (levels + 2) (.object entries)) (tabled : Tabled entries name items) :
    ∀ item ∈ items, Json.Reprintable levels item := by
  rcases tabled with found | ⟨_, rfl⟩
  · cases reprintable with
    | object _ _ values =>
      have table := values _ (OrderedMap.mem_of_get? found)
      cases table with
      | array plain => exact plain
  · exact fun item member => absurd member List.not_mem_nil

variable (malloc : Nat → Bytes) {files : FileSystem} {path : Bytes} {place : Path} (resolved : files.resolve path = some place)
  (inside : place ≠ []) (other : files.node? place ≠ some .directory)
include resolved inside other

omit inside in
/-- The document that has been saved is in the file, which stays the only thing that has changed. -/
theorem saveRoot_counted {entries : List (Bytes × Json R)} (counted : Counted (.object entries : Json R)) :
    saveRoot malloc files path (some (.object entries : Json R)) =
      (files.put place (.file (treeText (.object entries : Json R))), 0) :=
  jsonDump_object malloc resolved other counted

theorem resolve_put (content : Bytes) : (files.put place (.file content)).resolve path = some place := by
  apply (FileSystem.extends_put inside _).resolve resolved
  intro directory
  exact absurd directory other

theorem read_put (content : Bytes) : (files.put place (.file content)).read path = some content := by
  apply FileSystem.read_file (resolve_put resolved inside other content)
  rw [FileSystem.node?_put files inside, if_pos rfl]

theorem loadRoot_put (numbers : Json.ReadsNumbers R) {entries : List (Bytes × Json R)}
    (reprintable : Json.Reprintable Json.maxDepth (.object entries : Json R)) :
    jsonLoadFile R (files.put place (.file (treeText (.object entries : Json R)))) path = some (.object entries) :=
  jsonLoadFile_object numbers reprintable (read_put resolved inside other _)

end

end BlueBird.Persist
