import BlueBird.Persist.JsonFile
import BlueBird.Persist.Query

/-! The model backend that keeps its tables as arrays of objects in one file. -/

namespace BlueBird.Persist

def nameBytes (name : String) : Bytes := name.toByteArray.data.toList

theorem nameBytes_inj {a b : String} (same : nameBytes a = nameBytes b) : a = b := by
  unfold nameBytes at same
  exact String.toByteArray_inj.mp (ByteArray.ext (Array.toList_inj.mp same))

variable {R : Type}

/-! ## entity_json.c -/

/-- A blob is left out. -/
def fieldToJson (f : Field) (value : FieldValue) : Option (Json R) :=
  match f.type with
  | .int => some (.int value.asInt)
  | .string | .uuid => some (.text (some value.asBytes))
  | .blob => none

def entityEntries (fields : List (Field × FieldValue)) : List (Bytes × Json R) :=
  fields.filterMap fun field => (fieldToJson field.1 field.2).map fun value => (nameBytes field.1.name, value)

/-- `bb_entity_to_json` -/
def entityToJson (schema : Schema) (values : List FieldValue) : Json R :=
  .object ((entityEntries (schema.fields.zip values)).foldl
    (fun entries entry => Json.objectSetValue entries entry.1 entry.2) [])

/-- What `memset` leaves in a field. -/
def Field.zero (f : Field) : FieldValue :=
  match f.type with
  | .int => .int 0
  | .string | .uuid => .text []
  | .blob => .blob (List.replicate f.size 0)

def fieldFromJson (f : Field) : Option (Json R) → Option FieldValue
  | none => some f.zero
  | some value =>
    match f.type with
    | .int =>
      match value with
      | .int n => some (.int n)
      | _ => none
    | .string | .uuid =>
      match value with
      | .text text => some (.text (copyTextField f.size text))
      | _ => none
    | .blob => some f.zero

/-- The loop of `bb_json_to_entity`, which ends at the first value that is refused. -/
def fieldsFromJson (entries : List (Bytes × Json R)) : List Field → List FieldValue × Int
  | [] => ([], 0)
  | f :: fields =>
    match fieldFromJson f (Json.objectGetValue entries (nameBytes f.name)) with
    | none => ((f :: fields).map Field.zero, -1)
    | some value =>
      let (values, rc) := fieldsFromJson entries fields
      (value :: values, rc)

def jsonToEntity (schema : Schema) (json : Json R) (out : List FieldValue) : List FieldValue × Int :=
  match json with
  | .object entries => fieldsFromJson entries schema.fields
  | _ => (out, -1)

/-! ## Helpers of model_json.c -/

/-- `bb_json_array_push`, whose error nobody looks at. -/
def arrayPush (table : Json R) (item : Json R) : Json R :=
  match table with
  | .array items => .array (items ++ [item])
  | other => other

def arrayRemoveAtIndex (table : Json R) (i : Nat) : Json R :=
  match table with
  | .array items => .array (items.eraseIdx i)
  | other => other

/-- What the loops over a table come to. -/
def tableItems (table : Json R) : List (Json R) :=
  match table with
  | .array items => items
  | _ => []

section
variable [Reals R]

def loadRoot (R : Type) [Reals R] (files : FileSystem) (path : Bytes) : Json R := (jsonLoadFile R files path).getD (.object [])

end

/-- The tree and its table, which is set in it where there was none. -/
def getTable (root : Json R) (name : Bytes) : Json R × Json R :=
  match getKey root name with
  | some table => (root, table)
  | none => (setKey root name (.array []), .array [])

def pkEquals (pk : Field) (node : Option (Json R)) (key : FieldValue) : Bool :=
  match node with
  | none => false
  | some node =>
    match pk.type with
    | .int =>
      (match node with
        | .int n => n
        | _ => 0) = key.asInt
    | .string | .uuid =>
      match node with
      | .text (some text) => Json.cString text = key.asBytes
      | _ => false
    | .blob => false

def Schema.key (schema : Schema) (values : List FieldValue) : FieldValue := values.getD schema.primaryKeyIndex (.int 0)

def hasKey (schema : Schema) (key : FieldValue) (item : Json R) : Bool :=
  pkEquals schema.pk (getKey item (nameBytes schema.pk.name)) key

/-! ## Operations

Each one reads the file; those that change something give the tree that is then saved. -/

def insertDocument (schema : Schema) (root : Json R) (values : List FieldValue) : Option (Json R) :=
  let (root, table) := getTable root (nameBytes schema.name)
  if (tableItems table).any (hasKey schema (schema.key values)) then none
  else some (setKey root (nameBytes schema.name) (arrayPush table (entityToJson schema values)))

def updateDocument (schema : Schema) (root : Json R) (values : List FieldValue) : Option (Json R) :=
  let (root, table) := getTable root (nameBytes schema.name)
  ((tableItems table).findIdx? (hasKey schema (schema.key values))).map fun i =>
    setKey root (nameBytes schema.name) (arrayPush (arrayRemoveAtIndex table i) (entityToJson schema values))

def removeDocument (schema : Schema) (root : Json R) (key : FieldValue) : Option (Json R) :=
  let (root, table) := getTable root (nameBytes schema.name)
  ((tableItems table).findIdx? (hasKey schema key)).map fun i =>
    setKey root (nameBytes schema.name) (arrayRemoveAtIndex table i)

section
variable [Reals R]

/-- `save_root`, or a failure before it. -/
def saveRoot (malloc : Nat → Bytes) (files : FileSystem) (path : Bytes) (document : Option (Json R)) : FileSystem × Int :=
  match document with
  | none => (files, -1)
  | some root => jsonDump malloc files (some root) path

def jsonInsert (R : Type) [Reals R] (malloc : Nat → Bytes) (schema : Schema) (files : FileSystem) (path : Bytes)
    (values : List FieldValue) : FileSystem × Int :=
  saveRoot malloc files path (insertDocument schema (loadRoot R files path) values)

def jsonUpdate (R : Type) [Reals R] (malloc : Nat → Bytes) (schema : Schema) (files : FileSystem) (path : Bytes)
    (values : List FieldValue) : FileSystem × Int :=
  saveRoot malloc files path (updateDocument schema (loadRoot R files path) values)

def jsonRemoveByPk (R : Type) [Reals R] (malloc : Nat → Bytes) (schema : Schema) (files : FileSystem) (path : Bytes)
    (key : FieldValue) : FileSystem × Int :=
  saveRoot malloc files path (removeDocument schema (loadRoot R files path) key)

def jsonFindByPk (R : Type) [Reals R] (schema : Schema) (files : FileSystem) (path : Bytes) (key : FieldValue)
    (out : List FieldValue) : List FieldValue × Int :=
  let (_, table) := getTable (loadRoot R files path) (nameBytes schema.name)
  match (tableItems table).find? (hasKey schema key) with
  | some item => jsonToEntity schema item out
  | none => (out, -1)

/-- The entities of an array; what is not an object leaves zeros. -/
def listItems (schema : Schema) (items : List (Json R)) : List (List FieldValue) :=
  items.map fun item => (jsonToEntity schema item (schema.fields.map Field.zero)).1

def jsonFindAll (R : Type) [Reals R] (schema : Schema) (files : FileSystem) (path : Bytes) : List (List FieldValue) × Int :=
  match jsonLoadFile R files path with
  | none => ([], 0)
  | some (.object entries) =>
    match Json.objectGetValue entries (nameBytes schema.name) with
    | none => ([], 0)
    | some (.array items) => (listItems schema items, 0)
    | some _ => ([], -1)
  | some _ => ([], -1)

end

/-! ## Entities and their objects -/

structure Schema.Spelled (schema : Schema) : Prop where
  name : (0 : Byte) ∉ nameBytes schema.name
  fields : ∀ f ∈ schema.fields, (0 : Byte) ∉ nameBytes f.name

/-- What is kept of a field: a blob only where there is nothing in it. -/
def Field.Kept (f : Field) (value : FieldValue) : Prop := f.type = .blob → value = f.zero

/-- A value to look for: an `int`, or a string of any length. -/
def Field.Asks (f : Field) : FieldValue → Prop
  | .int _ => f.type = .int
  | .text s => f.type.textual = true ∧ 0 ∉ s
  | .blob _ => False

theorem Field.Holds.asks {f : Field} {value : FieldValue} (holds : f.Holds value) (other : f.type ≠ .blob) : f.Asks value := by
  cases value with
  | int n => exact holds
  | text s => exact ⟨holds.1, holds.2.1⟩
  | blob b => exact absurd holds.1 other

theorem fieldFromJson_fieldToJson {f : Field} {value : FieldValue} (holds : f.Holds value) (kept : f.Kept value) :
    fieldFromJson f (fieldToJson f value : Option (Json R)) = some value := by
  cases value with
  | int n =>
    have type : f.type = .int := holds
    unfold fieldToJson fieldFromJson
    rw [type]
    rfl
  | text s =>
    rcases holds with ⟨textual, clean, room⟩
    have fits := copyTextField_fits f.size s clean room
    unfold fieldToJson fieldFromJson
    cases type : f.type with
    | string =>
      show some (FieldValue.text (copyTextField f.size (some s))) = _
      rw [fits]
    | uuid =>
      show some (FieldValue.text (copyTextField f.size (some s))) = _
      rw [fits]
    | int =>
      rw [type] at textual
      cases textual
    | blob =>
      rw [type] at textual
      cases textual
  | blob b =>
    rw [kept holds.1]
    unfold fieldToJson fieldFromJson
    rw [holds.1]

theorem entityEntries_cons (field : Field × FieldValue) (fields : List (Field × FieldValue)) :
    (entityEntries (field :: fields) : List (Bytes × Json R)) =
      ((fieldToJson field.1 field.2).map fun value => (nameBytes field.1.name, value)).toList ++ entityEntries fields := by
  unfold entityEntries
  cases printed : (fieldToJson field.1 field.2 : Option (Json R)) with
  | none =>
    rw [List.filterMap_cons_none (by rw [printed]; rfl)]
    rfl
  | some value =>
    rw [List.filterMap_cons_some (by rw [printed]; rfl)]
    rfl

theorem entityEntries_keys (fields : List (Field × FieldValue)) :
    (((entityEntries fields : List (Bytes × Json R))).map (·.1)).Sublist (fields.map fun field => nameBytes field.1.name) := by
  induction fields with
  | nil => exact List.Sublist.refl _
  | cons field fields ih =>
    rw [entityEntries_cons, List.map_append, List.map_cons]
    cases (fieldToJson field.1 field.2 : Option (Json R)) with
    | none => exact ih.cons _
    | some value => exact ih.cons_cons _

theorem get?_entityEntries {fields : List (Field × FieldValue)} (distinct : (fields.map fun field => field.1.name).Nodup)
    {field : Field × FieldValue} (member : field ∈ fields) :
    OrderedMap.get? (entityEntries fields : List (Bytes × Json R)) (nameBytes field.1.name) = fieldToJson field.1 field.2 := by
  induction fields with
  | nil => cases member
  | cons first fields ih =>
    rw [List.map_cons, List.nodup_cons] at distinct
    rw [entityEntries_cons]
    rcases List.mem_cons.mp member with rfl | later
    · cases (fieldToJson field.1 field.2 : Option (Json R)) with
      | none =>
        apply OrderedMap.get?_eq_none
        intro inside
        rcases List.mem_map.mp ((entityEntries_keys fields).subset inside) with ⟨other, found, same⟩
        exact distinct.1 (List.mem_map.mpr ⟨other, found, nameBytes_inj same⟩)
      | some value =>
        show OrderedMap.get? ((nameBytes field.1.name, value) :: entityEntries fields) _ = _
        rw [OrderedMap.get?_cons, if_pos rfl]
    · have other : nameBytes first.1.name ≠ nameBytes field.1.name := by
        intro same
        exact distinct.1 (List.mem_map.mpr ⟨field, later, (nameBytes_inj same).symm⟩)
      cases (fieldToJson first.1 first.2 : Option (Json R)) with
      | none => exact ih distinct.2 later
      | some value =>
        show OrderedMap.get? ((nameBytes first.1.name, value) :: entityEntries fields) _ = _
        rw [OrderedMap.get?_cons, if_neg other]
        exact ih distinct.2 later

theorem fieldsFromJson_eq {entries : List (Bytes × Json R)} {fields : List Field} {values : List FieldValue}
    (holds : List.Forall₂ Field.Holds fields values)
    (kept : ∀ field ∈ fields.zip values, field.1.Kept field.2)
    (found : ∀ field ∈ fields.zip values, Json.objectGetValue entries (nameBytes field.1.name) = fieldToJson field.1 field.2) :
    fieldsFromJson entries fields = (values, 0) := by
  induction holds with
  | nil => rfl
  | @cons f value fields values first rest ih =>
    rw [List.zip_cons_cons] at kept found
    rw [List.forall_mem_cons] at kept found
    have read : fieldFromJson f (Json.objectGetValue entries (nameBytes f.name)) = some value := by
      rw [found.1]
      exact fieldFromJson_fieldToJson first kept.1
    unfold fieldsFromJson
    rw [read]
    dsimp only
    rw [ih kept.2 found.2]

section
variable {schema : Schema} (entity : Entity schema)

theorem map_fst_zip : (schema.fields.zip entity.values).map (·.1) = schema.fields :=
  List.map_fst_zip (Nat.le_of_eq entity.length_values.symm)

theorem names_zip : ((schema.fields.zip entity.values).map fun field => field.1.name).Nodup := by
  have names := congrArg (List.map Field.name) (map_fst_zip entity)
  rw [List.map_map] at names
  have same : (schema.fields.zip entity.values).map (fun field => field.1.name) = schema.fields.map (·.name) := names
  rw [same]
  exact schema.distinct

theorem entityEntries_distinct : OrderedMap.Distinct (entityEntries (schema.fields.zip entity.values) : List (Bytes × Json R)) := by
  have keys := (names_zip entity).map (f := nameBytes) fun _ _ same => nameBytes_inj same
  rw [List.map_map] at keys
  exact keys.sublist (entityEntries_keys _)

theorem entityToJson_eq : (entityToJson schema entity.values : Json R) = .object (entityEntries (schema.fields.zip entity.values)) := by
  have same := OrderedMap.foldl_set_of_distinct [] (entityEntries (schema.fields.zip entity.values) : List (Bytes × Json R))
    (by rw [List.nil_append]; exact entityEntries_distinct entity)
  rw [List.nil_append] at same
  unfold entityToJson
  exact congrArg Json.object same

theorem jsonToEntity_entityToJson (kept : ∀ field ∈ schema.fields.zip entity.values, field.1.Kept field.2) (out : List FieldValue) :
    jsonToEntity schema (entityToJson schema entity.values : Json R) out = (entity.values, 0) := by
  rw [entityToJson_eq]
  apply fieldsFromJson_eq entity.holds kept
  intro field member
  exact get?_entityEntries (names_zip entity) member

theorem pk_mem_zip : (schema.pk, schema.key entity.values) ∈ schema.fields.zip entity.values := by
  have inside : schema.primaryKeyIndex < entity.values.length := by
    rw [entity.length_values]
    exact schema.primaryKey
  have here : (schema.fields.zip entity.values)[schema.primaryKeyIndex]? = some (schema.pk, schema.key entity.values) := by
    rw [List.getElem?_zip_eq_some]
    unfold Schema.key
    rw [List.getD_eq_getElem?_getD, List.getElem?_eq_getElem inside]
    exact ⟨List.getElem?_eq_getElem schema.primaryKey, rfl⟩
  exact List.mem_of_getElem? here

theorem key_holds : schema.pk.Holds (schema.key entity.values) :=
  List.forall₂_zip entity.holds (pk_mem_zip entity)

theorem getKey_entityToJson : getKey (entityToJson schema entity.values : Json R) (nameBytes schema.pk.name) =
    fieldToJson schema.pk (schema.key entity.values) := by
  rw [entityToJson_eq]
  exact get?_entityEntries (names_zip entity) (pk_mem_zip entity)

theorem hasKey_entityToJson (other : schema.pk.type ≠ .blob) {key : FieldValue} (asks : schema.pk.Asks key) :
    hasKey schema key (entityToJson schema entity.values : Json R) = true ↔ schema.key entity.values = key := by
  unfold hasKey
  rw [getKey_entityToJson]
  have holds := key_holds entity
  generalize schema.key entity.values = own at holds
  generalize schema.pk = f at holds other asks
  unfold fieldToJson pkEquals
  cases own with
  | int n =>
    have type : f.type = .int := holds
    cases key with
    | int m =>
      rw [type]
      show decide (n = m) = true ↔ _
      rw [decide_eq_true_eq, FieldValue.int.injEq]
    | text t =>
      have textual := asks.1
      rw [type] at textual
      cases textual
    | blob b => exact absurd asks id
  | text s =>
    rcases holds with ⟨textual, clean, _⟩
    cases key with
    | int m =>
      have type : f.type = .int := asks
      rw [type] at textual
      cases textual
    | text t =>
      have same : decide (Json.cString s = t) = true ↔ FieldValue.text s = FieldValue.text t := by
        rw [decide_eq_true_eq, Json.cString_of_clean clean, FieldValue.text.injEq]
      cases type : f.type with
      | string => exact same
      | uuid => exact same
      | int =>
        rw [type] at textual
        cases textual
      | blob => exact absurd type other
    | blob b => exact absurd asks id
  | blob b => exact absurd holds.1 other

end

theorem asBytes_clean {f : Field} {value : FieldValue} (holds : f.Holds value) (textual : f.type.textual = true) :
    (0 : Byte) ∉ value.asBytes := by
  cases value with
  | int n => exact List.not_mem_nil
  | text s => exact holds.2.1
  | blob b =>
    rw [holds.1] at textual
    cases textual

theorem entityToJson_reprintable [Reals R] {schema : Schema} (spelled : schema.Spelled) (entity : Entity schema) (levels : Nat) :
    Json.Reprintable (levels + 1) (entityToJson schema entity.values : Json R) := by
  rw [entityToJson_eq]
  have each : ∀ entry ∈ (entityEntries (schema.fields.zip entity.values) : List (Bytes × Json R)),
      (0 : Byte) ∉ entry.1 ∧ Json.Reprintable levels entry.2 := by
    intro entry member
    rcases List.mem_filterMap.mp member with ⟨⟨f, value⟩, inside, printed⟩
    rcases Option.map_eq_some_iff.mp printed with ⟨v, made, rfl⟩
    have holds : f.Holds value := List.forall₂_zip entity.holds inside
    refine ⟨spelled.fields f (List.of_mem_zip inside).1, ?_⟩
    unfold fieldToJson at made
    cases type : f.type with
    | int =>
      rw [type] at made
      cases made
      exact .int _
    | blob =>
      rw [type] at made
      cases made
    | string =>
      rw [type] at made
      cases made
      exact .text (asBytes_clean holds (by rw [type]; rfl))
    | uuid =>
      rw [type] at made
      cases made
      exact .text (asBytes_clean holds (by rw [type]; rfl))
  exact .object (entityEntries_distinct entity) (fun entry member => (each entry member).1) fun entry member => (each entry member).2

end BlueBird.Persist
