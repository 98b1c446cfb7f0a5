import BlueBird.Persist.PostgresQuery

/-! The PostgreSQL backend stands for the maps of the other backends, with any number of handles on one server. -/

namespace BlueBird.Persist

open KeyedRows Refinement Migrate

/-! ## Tables that differ in the types of their columns -/

def flags (columns : List Column) : List (String × Bool) := columns.map fun c => (c.name, c.primaryKey)

section
variable {columns others : List Column}

theorem names_of_flags (same : flags columns = flags others) : columns.map (·.name) = others.map (·.name) := by
  have names := congrArg (List.map Prod.fst) same
  unfold flags at names
  rwa [List.map_map, List.map_map] at names

theorem findIdx?_of_flags (same : flags columns = flags others) (name : String) :
    columns.findIdx? (·.name = name) = others.findIdx? (·.name = name) := by
  have indexed : ∀ cs : List Column, cs.findIdx? (·.name = name) = (cs.map (·.name)).findIdx? (· = name) := by
    intro cs
    rw [List.findIdx?_map]
    rfl
  rw [indexed, indexed, names_of_flags same]

theorem keyOf_of_flags (same : flags columns = flags others) : Table.keyOf columns = Table.keyOf others := by
  have keyed : ∀ (cs : List Column) (row : Row), Table.keyOf cs row = (((flags cs).zip row).filter (·.1.2)).map (·.2) := by
    intro cs row
    unfold Table.keyOf flags
    rw [List.zip_map_left, List.filter_map, List.map_map]
    rfl
  funext row
  rw [keyed, keyed, same]

theorem any_of_flags (same : flags columns = flags others) : columns.any (·.primaryKey) = others.any (·.primaryKey) := by
  have keys : ∀ cs : List Column, cs.any (·.primaryKey) = (flags cs).any (·.2) := by
    intro cs
    unfold flags
    rw [List.any_map]
    rfl
  rw [keys, keys, same]

theorem newRow_of_flags (same : flags columns = flags others) : Table.newRow columns = Table.newRow others := by
  have named : ∀ (cs : List Column) names values, Table.newRow cs names values =
      (cs.map (·.name)).map fun name => ((names.zip values).lookup name).getD .null := by
    intro cs names values
    rw [List.map_map]
    rfl
  funext names values
  rw [named, named, names_of_flags same]

theorem assign_of_flags (same : flags columns = flags others) : Table.assign columns = Table.assign others := by
  have named : ∀ (cs : List Column) assignments row, Table.assign cs assignments row =
      List.zipWith (fun name stored => (assignments.lookup name).getD stored) (cs.map (·.name)) row := by
    intro cs assignments row
    rw [List.zipWith_map_left]
    rfl
  funext assignments row
  rw [named, named, names_of_flags same]

end

section
variable {t u : Table} (same : flags t.columns = flags u.columns) (rows : t.rows = u.rows)
include same rows

theorem insert_of_flags (names : List String) (values : List Value) :
    t.insert names values = (u.insert names values).map fun after => { t with rows := after.rows } := by
  have index : t.columnIndex = u.columnIndex := funext (findIdx?_of_flags same)
  unfold Table.insert
  rw [index, any_of_flags same, keyOf_of_flags same, newRow_of_flags same, rows]
  dsimp only
  split_ifs <;> rfl

theorem updateWhere_of_flags (assignments : List (String × Value)) (name : String) (key : Value) :
    t.updateWhere assignments name key =
      (u.updateWhere assignments name key).map fun result => ({ t with rows := result.1.rows }, result.2) := by
  have index : t.columnIndex = u.columnIndex := funext (findIdx?_of_flags same)
  unfold Table.updateWhere
  rw [index, assign_of_flags same, rows]
  split_ifs
  · rfl
  · rw [Option.map_map]
    rfl

theorem deleteWhere_of_flags (name : String) (key : Value) :
    t.deleteWhere name key = (u.deleteWhere name key).map fun result => ({ t with rows := result.1.rows }, result.2) := by
  have index : t.columnIndex = u.columnIndex := funext (findIdx?_of_flags same)
  unfold Table.deleteWhere
  rw [index, rows, Option.map_map]
  rfl

end

theorem flags_pgColumns (schema : Schema) : flags (pgColumns schema) = flags schema.columns := by
  apply List.ext_getElem <;> simp [flags, pgColumns, Schema.columns]

/-! ## What the server keeps of an entity -/

def keptValue (f : Field) (value : FieldValue) : FieldValue := (normalValue f value).getD value

def Schema.Roomy (schema : Schema) : Prop := ∀ f ∈ schema.fields, f.type = .uuid → 36 < f.size

theorem normalValue_cases (f : Field) (value : FieldValue) : normalValue f value = none ∨ normalValue f value = some value ∨
    (f.type = .uuid ∧ ∃ uuid : Bytes, uuid.length = 16 ∧ normalValue f value = some (.text (uuidToString uuid))) := by
  unfold normalValue
  by_cases uuid : f.type = .uuid
  · rw [if_pos uuid]
    cases read : uuidIn value.asBytes with
    | none => exact .inl rfl
    | some bytes => exact .inr (.inr ⟨uuid, bytes, uuidIn_length read, rfl⟩)
  · rw [if_neg uuid]
    exact .inr (.inl rfl)

theorem keptValue_holds {f : Field} {value : FieldValue} (roomy : f.type = .uuid → 36 < f.size) (holds : f.Holds value) :
    f.Holds (keptValue f value) := by
  unfold keptValue
  rcases normalValue_cases f value with none_ | same | ⟨type, uuid, length, text⟩
  · rw [none_]
    exact holds
  · rw [same]
    exact holds
  · rw [text]
    refine ⟨by rw [type]; rfl, clean_uuidToString uuid, ?_⟩
    rw [length_uuidToString length]
    exact roomy type

theorem keptValue_asks {f : Field} {value : FieldValue} (asks : f.Asks value) : f.Asks (keptValue f value) := by
  unfold keptValue
  rcases normalValue_cases f value with none_ | same | ⟨type, uuid, length, text⟩
  · rw [none_]
    exact asks
  · rw [same]
    exact asks
  · rw [text]
    exact ⟨by rw [type]; rfl, clean_uuidToString uuid⟩

theorem forall₂_zipWith {fields : List Field} {values : List FieldValue} (holds : List.Forall₂ Field.Holds fields values)
    (roomy : ∀ f ∈ fields, f.type = .uuid → 36 < f.size) :
    List.Forall₂ Field.Holds fields (List.zipWith keptValue fields values) := by
  induction holds with
  | nil => exact .nil
  | @cons f value fields values here _ ih =>
    exact .cons (keptValue_holds (roomy f (List.mem_cons_self ..)) here) (ih fun g member => roomy g (List.mem_cons_of_mem _ member))

def Entity.kept {schema : Schema} (roomy : schema.Roomy) (entity : Entity schema) : Entity schema where
  values := List.zipWith keptValue schema.fields entity.values
  holds := forall₂_zipWith entity.holds roomy

def Entity.accepted {schema : Schema} (entity : Entity schema) : Bool :=
  (schema.fields.zip entity.values).all fun p => (normalValue p.1 p.2).isSome

def Key.kept {schema : Schema} (key : Key schema) : Key schema where
  value := keptValue schema.pk key.value
  asks := keptValue_asks key.asks

section Parameters

theorem givenAll_spec {columns : List Column} {held : List (Field × FieldValue)}
    (known : ∀ p ∈ held, columnType columns p.1.name = some (pgFieldType p.1.type)) (typed : ∀ p ∈ held, p.1.Typed p.2)
    (before behind : List PgParam) :
    givenAll columns (before ++ boundAll held ++ behind)
        ((held.map (·.1.name)).mapIdx fun i name => (name, before.length + i + 1)) =
      if held.all (fun p => (normalValue p.1 p.2).isSome) then some (held.map fun p => bindField p.1 (keptValue p.1 p.2)) else none := by
  induction held generalizing before with
  | nil => rfl
  | cons p held ih =>
    have rest := ih (fun q member => known q (List.mem_cons_of_mem _ member)) (fun q member => typed q (List.mem_cons_of_mem _ member))
      (before ++ [paramsSet p.1 p.2])
    have params : before ++ boundAll (p :: held) ++ behind = before ++ [paramsSet p.1 p.2] ++ boundAll held ++ behind := by
      unfold boundAll
      rw [List.map_cons, List.append_assoc before [_], List.singleton_append]
    have numbers : (fun (i : Nat) (name : String) => (name, before.length + (i + 1) + 1)) =
        fun i name => (name, (before ++ [paramsSet p.1 p.2]).length + i + 1) := by
      funext i name
      rw [List.length_append, List.length_singleton]
      congr 1
      omega
    have at_ : (before ++ boundAll (p :: held) ++ behind)[before.length + 0 + 1 - 1]? = some (paramsSet p.1 p.2) := by
      rw [Nat.add_zero, Nat.add_sub_cancel, List.append_assoc, List.getElem?_append_right (Nat.le_refl _), Nat.sub_self]
      rfl
    have first : givenFor columns (before ++ boundAll (p :: held) ++ behind) p.1.name (before.length + 0 + 1) =
        (normalValue p.1 p.2).map (bindField p.1) := by
      unfold givenFor
      rw [known p (List.mem_cons_self ..), Option.bind_some]
      exact given_normal at_ (typed p (List.mem_cons_self ..))
    unfold givenAll at rest ⊢
    rw [List.map_cons, List.mapIdx_cons, List.mapM_cons]
    dsimp only
    rw [first, params, numbers, rest, List.all_cons, List.map_cons]
    unfold keptValue
    cases normalValue p.1 p.2 with
    | none => rfl
    | some kept =>
      rw [Option.isSome_some, Bool.true_and]
      split_ifs <;> rfl

theorem numbered_eq (names : List String) :
    numbered names = names.mapIdx fun i name => (name, ([] : List PgParam).length + i + 1) := by
  unfold numbered
  congr 1
  funext i name
  rw [List.length_nil, Nat.zero_add]

theorem map_kept (fields : List Field) (values : List FieldValue) :
    (fields.zip values).map (fun p => bindField p.1 (keptValue p.1 p.2)) =
      List.zipWith bindField fields (List.zipWith keptValue fields values) := by
  induction fields generalizing values with
  | nil => rfl
  | cons f fields ih =>
    cases values with
    | nil => rfl
    | cons value values =>
      rw [List.zip_cons_cons, List.map_cons, List.zipWith_cons_cons, List.zipWith_cons_cons, ih]

theorem zip_kept (fields : List Field) (values : List FieldValue) :
    fields.zip (List.zipWith keptValue fields values) = (fields.zip values).map fun p => (p.1, keptValue p.1 p.2) := by
  induction fields generalizing values with
  | nil => rfl
  | cons f fields ih =>
    cases values with
    | nil => rfl
    | cons value values =>
      rw [List.zip_cons_cons, List.map_cons, List.zipWith_cons_cons, List.zip_cons_cons, ih]

theorem all_eraseIdx {α : Type} {p : α → Bool} {l : List α} {i : Nat} {a : α} (here : l[i]? = some a) :
    l.all p = (p a && (l.eraseIdx i).all p) := by
  induction l generalizing i with
  | nil => cases here
  | cons b l ih =>
    cases i with
    | zero =>
      cases here
      rfl
    | succ i =>
      rw [List.eraseIdx_cons_succ, List.all_cons, List.all_cons, ih here, Bool.and_left_comm]

end Parameters

/-! ## Statements on a table -/

section
variable {schema : Schema} {t : Table} {rows : List (Entity schema)} (keeps : PgKeeps schema t rows) (roomy : schema.Roomy)

def asMade (schema : Schema) (t : Table) : Table := { columns := schema.columns, distinct := schema.columns_distinct, rows := t.rows }

theorem stored_eq (entity : Entity schema) : stored entity = storedRow schema entity.values := by
  apply List.ext_getElem?
  intro i
  unfold storedRow
  rw [List.getElem?_zipWith]
  cases field : schema.fields[i]? with
  | none =>
    have out : (stored entity)[i]? = none := by
      rw [List.getElem?_eq_none_iff, length_stored]
      exact List.getElem?_eq_none_iff.mp field
    rw [out]
  | some f =>
    rcases field_held entity field with ⟨value, held⟩
    rw [stored_at entity field held, held]

theorem held_known {columns : List Column} (same : columns = pgColumns schema) (values : List FieldValue) :
    ∀ p ∈ schema.fields.zip values, columnType columns p.1.name = some (pgFieldType p.1.type) := by
  rintro ⟨f, value⟩ member
  rw [same]
  exact columnType_eq (findField_of_mem (List.of_mem_zip member).1)

theorem held_typed (entity : Entity schema) : ∀ p ∈ schema.fields.zip entity.values, p.1.Typed p.2 := by
  rintro ⟨f, value⟩ member
  exact (List.forall₂_zip entity.holds member).typed

theorem kept_key (entity : Entity schema) : (entity.kept roomy).key = keptValue schema.pk entity.key := by
  have own := key_at (entity.kept roomy)
  unfold Entity.kept at own
  dsimp only at own
  rw [List.getElem?_zipWith, pk_at, key_at entity] at own
  exact (Option.some.inj own).symm

theorem held_key (entity : Entity schema) :
    (schema.fields.zip entity.values)[schema.primaryKeyIndex]? = some (schema.pk, entity.key) :=
  List.getElem?_zip_eq_some.mpr ⟨pk_at, key_at entity⟩

theorem accepted_iff (entity : Entity schema) : entity.accepted = ((normalValue schema.pk entity.key).isSome &&
    ((schema.fields.zip entity.values).eraseIdx schema.primaryKeyIndex).all fun p => (normalValue p.1 p.2).isSome) :=
  all_eraseIdx (held_key entity)

theorem normal_kept {f : Field} {value : FieldValue} (some_ : (normalValue f value).isSome = true) :
    normalValue f value = some (keptValue f value) := by
  unfold keptValue
  rcases Option.isSome_iff_exists.mp some_ with ⟨kept, same⟩
  rw [same]
  rfl

include keeps

theorem PgKeeps.made : Made schema (ensureTable schema (some (asMade schema t))) rows := by
  refine ⟨rfl, keeps.rows.trans ?_⟩
  exact List.map_congr_left fun entity _ => (stored_eq entity).symm

theorem PgKeeps.flags : flags t.columns = flags (asMade schema t).columns := by
  rw [keeps.columns]
  exact flags_pgColumns schema

theorem PgKeeps.of_made {u : Table} {others : List (Entity schema)} (made : Made schema u others) :
    PgKeeps schema { t with rows := u.rows } others := by
  refine ⟨keeps.columns, made.rows.trans ?_⟩
  exact List.map_congr_left fun entity _ => stored_eq entity

theorem pgInsertConn_eq (entity : Entity schema) : pgInsertConn schema t entity.values =
    if entity.accepted then
      (sqliteInsert schema (some (asMade schema t)) (entity.kept roomy).values).map fun after => { t with rows := after.rows }
    else none := by
  have given_ := givenAll_spec (held_known keeps.columns entity.values) (held_typed entity) [] []
  have names := congrArg (List.map Field.name) (map_fst_zip entity)
  rw [List.map_map] at names
  change (schema.fields.zip entity.values).map (·.1.name) = _ at names
  rw [List.nil_append, List.append_nil, ← numbered_eq] at given_
  unfold pgInsertConn
  dsimp only [Option.bind_eq_bind]
  rw [given_, names, map_kept]
  unfold Entity.accepted
  by_cases accepted : ((schema.fields.zip entity.values).all fun p => (normalValue p.1 p.2).isSome) = true
  · rw [if_pos accepted, if_pos accepted, Option.bind_some]
    exact insert_of_flags keeps.flags rfl _ _
  · rw [if_neg accepted, if_neg accepted]
    rfl

/-- `$k` beside the primary key. -/
theorem given_key {params : List PgParam} {k : Nat} {key : FieldValue} (typed : schema.pk.Typed key)
    (at_ : params[k - 1]? = some (paramsSet schema.pk key)) :
    givenFor t.columns params schema.pk.name k = (normalValue schema.pk key).map (bindField schema.pk) := by
  unfold givenFor
  rw [keeps.columns, columnType_eq findField_pk, Option.bind_some]
  exact given_normal at_ typed

theorem pgUpdateConn_eq (entity : Entity schema) : pgUpdateConn schema t entity.values =
    if entity.accepted then (sqliteUpdate schema (some (asMade schema t)) (entity.kept roomy).values).map
      fun result => ({ t with rows := result.1.rows }, result.2)
    else none := by
  let others := (schema.fields.zip entity.values).eraseIdx schema.primaryKeyIndex
  have known := held_known keeps.columns entity.values
  have typed := held_typed entity
  have knownOthers : ∀ p ∈ others, columnType t.columns p.1.name = some (pgFieldType p.1.type) :=
    fun p member => known p (List.mem_of_mem_eraseIdx member)
  have given_ := givenAll_spec knownOthers (fun p member => typed p (List.mem_of_mem_eraseIdx member)) []
    [paramsSet schema.pk entity.key]
  rw [List.nil_append, ← numbered_eq] at given_
  have length : (boundAll others).length = schema.fields.length - 1 := by
    unfold boundAll
    rw [List.length_map, List.length_eraseIdx_of_lt, List.length_zip, entity.length_values, Nat.min_self]
    rw [List.length_zip, entity.length_values, Nat.min_self]
    exact schema.primaryKey
  have last : (boundAll others ++ [paramsSet schema.pk entity.key])[schema.fields.length - 1]? =
      some (paramsSet schema.pk entity.key) := by
    rw [← length, List.getElem?_append_right (Nat.le_refl _), Nat.sub_self]
    rfl
  have key : givenFor t.columns (boundAll others ++ [paramsSet schema.pk entity.key]) schema.pk.name schema.fields.length =
      (normalValue schema.pk entity.key).map (bindField schema.pk) := given_key keeps (key_holds entity).typed last
  have set : (others.map (·.1.name)).zip (others.map fun p => bindField p.1 (keptValue p.1 p.2)) =
      assignments schema (entity.kept roomy).values := by
    unfold assignments Entity.kept
    rw [zip_kept, List.zip_map', List.eraseIdx_map, List.map_map]
    rfl
  unfold pgUpdateConn
  dsimp only [Option.bind_eq_bind]
  change (givenAll t.columns (boundAll others ++ [paramsSet schema.pk entity.key]) (numbered (others.map (·.1.name)))).bind _ = _
  rw [given_, accepted_iff]
  change _ = if ((normalValue schema.pk entity.key).isSome && others.all fun p => (normalValue p.1 p.2).isSome) = true then _ else _
  by_cases accepted : (others.all fun p => (normalValue p.1 p.2).isSome) = true
  · rw [if_pos accepted, Option.bind_some, accepted, Bool.and_true]
    change (givenFor t.columns (boundAll others ++ [paramsSet schema.pk entity.key]) schema.pk.name schema.fields.length).bind _ = _
    rw [key]
    by_cases some_ : (normalValue schema.pk entity.key).isSome = true
    · rw [if_pos some_, normal_kept some_, Option.map_some, Option.bind_some]
      change t.updateWhere ((others.map (·.1.name)).zip _) _ _ = _
      rw [set, updateWhere_of_flags keeps.flags rfl, ← kept_key roomy]
      rfl
    · rw [if_neg some_, Option.not_isSome_iff_eq_none.mp some_]
      rfl
  · rw [if_neg accepted, Bool.eq_false_iff.mpr accepted, Bool.and_false]
    rfl

theorem pgRemoveConn_eq (key : Key schema) : pgRemoveConn schema t key.value =
    if (normalValue schema.pk key.value).isSome then (sqliteRemoveByPk schema (some (asMade schema t)) key.kept.value).map
      fun result => ({ t with rows := result.1.rows }, result.2)
    else none := by
  have only : [paramsSet schema.pk key.value][0]? = some (paramsSet schema.pk key.value) := rfl
  have given_ := given_key keeps key.asks.typed (k := 1) only
  unfold pgRemoveConn
  dsimp only [Option.bind_eq_bind]
  rw [given_]
  by_cases some_ : (normalValue schema.pk key.value).isSome = true
  · rw [if_pos some_, normal_kept some_]
    exact deleteWhere_of_flags keeps.flags rfl _ _
  · rw [if_neg some_, Option.not_isSome_iff_eq_none.mp some_]
    rfl

theorem selects_columnList : selects t (columnList schema) = true := by
  apply List.all_eq_true.mpr
  intro name member
  have index : t.columnIndex name = (asMade schema t).columnIndex name := findIdx?_of_flags keeps.flags name
  rw [index]
  exact keeps.made.knows member

theorem selectWhere_eq {i : Nat} {f : Field} (field : schema.fields[i]? = some f) (value : Value) :
    t.selectWhere f.name value = some ((rows.map stored).filter fun row => row[i]? = some value) := by
  have index : t.columnIndex f.name = some i := (findIdx?_of_flags keeps.flags f.name).trans (keeps.made.columnIndex field)
  unfold Table.selectWhere
  have same : t.rows = rows.map stored := keeps.made.rows
  rw [index, Option.map_some, same]

theorem pgRead_stored (entity : Entity schema) : pgRead schema t.columns (stored entity) = entity.values := by
  rw [keeps.columns, stored_eq]
  exact pgRead_storedRow entity

theorem head_selected {i : Nat} {f : Field} (field : schema.fields[i]? = some f) (value : Value) {p : Entity schema → Bool}
    (tests : ∀ entity, p entity = decide ((stored entity)[i]? = some value)) :
    ((t.selectWhere f.name value).bind fun rows => rows.head?.map (pgRead schema t.columns)) = (rows.find? p).map Entity.values := by
  rw [selectWhere_eq keeps field, Option.bind_some, List.head?_filter, List.find?_map, Option.map_map]
  have same : (fun row : Row => decide (row[i]? = some value)) ∘ stored = p := funext fun entity => (tests entity).symm
  rw [same]
  exact congrArg (fun read => (rows.find? p).map read) (funext (pgRead_stored keeps))

theorem pgFindByPkConn_eq (keyed : schema.pk.type ≠ .blob) {m : FieldValue → Option (Entity schema)}
    (holds : Represents Entity.key rows m) (key : Key schema) : pgFindByPkConn schema t key.value =
      if (normalValue schema.pk key.value).isSome then (m key.kept.value).map Entity.values else none := by
  have only : [paramsSet schema.pk key.value][0]? = some (paramsSet schema.pk key.value) := rfl
  have given_ := given_key keeps key.asks.typed (k := 1) only
  unfold pgFindByPkConn
  dsimp only [Option.bind_eq_bind]
  rw [given_, selects_columnList keeps]
  by_cases some_ : (normalValue schema.pk key.value).isSome = true
  · rw [if_pos some_, normal_kept some_, Option.map_some, Option.bind_some, if_pos rfl]
    rw [head_selected keeps pk_at (bindField schema.pk (keptValue schema.pk key.value)) (fun _ => rfl)]
    exact congrArg (Option.map Entity.values)
      (holds.find?_eq fun entity _ => decide_eq_true_iff.trans (stored_tests keyed key.kept.asks entity))
  · rw [if_neg some_, Option.not_isSome_iff_eq_none.mp some_]
    rfl

theorem pgFindAllConn_eq : pgFindAllConn schema t = some (rows.map Entity.values) := by
  unfold pgFindAllConn
  rw [if_pos (selects_columnList keeps), keeps.columns, keeps.rows]
  exact congrArg some (map_pgRead rows)

omit keeps in
/-- The entity has this value there. -/
def Entity.Has (entity : Entity schema) (f : Field) (value : FieldValue) : Prop :=
  Persist.fieldOf schema entity.values f.name = some (f, value)

instance (entity : Entity schema) (f : Field) (value : FieldValue) : Decidable (entity.Has f value) :=
  inferInstanceAs (Decidable (_ = _))

theorem pgFindFirstByFieldConn_eq {f : Field} (member : f ∈ schema.fields) (plain : f.type ≠ .blob) {value : FieldValue}
    (asks : f.Asks value) : pgFindFirstByFieldConn schema t f value =
      (normalValue f value).bind fun kept => (rows.find? fun entity => decide (entity.Has f kept)).map Entity.values := by
  have given_ : givenFor t.columns [paramsSet f value] f.name 1 = (normalValue f value).map (bindField f) := by
    unfold givenFor
    rw [keeps.columns, columnType_eq (findField_of_mem member), Option.bind_some]
    exact given_normal rfl asks.typed
  unfold pgFindFirstByFieldConn
  dsimp only [Option.bind_eq_bind]
  rw [given_, selects_columnList keeps]
  cases spelled : normalValue f value with
  | none => rfl
  | some kept =>
    have keptIs : kept = keptValue f value := by
      unfold keptValue
      rw [spelled]
      rfl
    rcases List.getElem?_of_mem member with ⟨i, field⟩
    rw [Option.map_some, Option.bind_some, Option.bind_some, if_pos rfl]
    apply head_selected keeps field (bindField f kept)
    intro entity
    rcases field_held entity field with ⟨held, at_⟩
    have here : (schema.fields.zip entity.values)[i]? = some (f, held) := List.getElem?_zip_eq_some.mpr ⟨field, at_⟩
    have inside := List.mem_of_getElem? here
    have found : fieldOf schema entity.values f.name = some (f, held) := find?_of_nodup (names_zip entity) inside
    apply decide_eq_decide.mpr
    unfold Entity.Has
    rw [found, stored_at entity field at_, Option.some.injEq, Option.some.injEq, Prod.mk.injEq, bindField_inj]
    · exact and_iff_right rfl
    · exact (List.forall₂_zip entity.holds inside).asks plain
    · rw [keptIs]
      exact keptValue_asks asks

end

/-! ## What the calls are to do -/

/-- The operation with what is kept of its values. A text that is to be a UUID and is none is refused, and so is an update that
    has nothing to set. -/
def ModelOp.kept {schema : Schema} (roomy : schema.Roomy) : ModelOp schema → Option (ModelOp schema)
  | .insert entity => if entity.accepted then some (.insert (entity.kept roomy)) else none
  | .findByPk key out => if (normalValue schema.pk key.value).isSome then some (.findByPk key.kept out) else none
  | .update entity => if entity.accepted ∧ 2 ≤ schema.fields.length then some (.update (entity.kept roomy)) else none
  | .remove key => if (normalValue schema.pk key.value).isSome then some (.remove key.kept) else none
  | .findAll => some .findAll

section Server
variable {κ ι : Type} {schemas : ι → Schema} [DecidableEq ι]

def Entities.Finds (m : Entities schemas) (i : ι) (field : String) (value : FieldValue) (entity : Entity (schemas i)) : Prop :=
  (∃ key, m i key = some entity) ∧ ∃ f kept, findField (schemas i) field = some f ∧ f.type ≠ .blob ∧
    normalValue f value = some kept ∧ entity.Has f kept

variable (roomy : ∀ i, (schemas i).Roomy)

def serverNext (m : Entities schemas) : PgEvent κ schemas → Entities schemas
  | .statement _ i (.model op) =>
    match op.kept (roomy i) with
    | some kept => m.next ⟨i, kept⟩
    | none => m
  | _ => m

def serverAnswers (m : Entities schemas) : PgEvent κ schemas → ModelResult → Prop
  | .ensure _ _, r => r = { rc := 0 }
  | .statement _ i (.model op), r =>
    match op.kept (roomy i) with
    | some kept => m.Answers ⟨i, kept⟩ r
    | none => r = refusedResult (.model op)
  | .statement _ i (.findFirst field value out _), r =>
    (∃ entity, m.Finds i field value entity ∧ r = { rc := 0, out := entity.values }) ∨
      (∀ entity, ¬ m.Finds i field value entity) ∧ r = { rc := -1, out }
  | .statement _ i (.query q _), r =>
    match q.normal (schemas i) with
    | some normal => ∃ all s, m.Lists i all ∧ normal.Answers (schemas i) all s r.entities ∧ r.rc = 0 ∧ r.out = []
    | none => r = { rc := -1 }

/-- The maps, which the second halves of the calls read and change. -/
def serverStore : Behaviour (Entities schemas) (PgEvent κ schemas) ModelResult where
  next := serverNext roomy
  answers := serverAnswers roomy

end Server

/-! ## One statement -/

section Statements
variable {ι : Type} {schemas : ι → Schema} {m : Entities schemas} {i : ι} {t after : Table} {rows : List (Entity (schemas i))}
  {r : ModelResult} (locale : Bytes → Bytes → Ordering) (keeps : PgKeeps (schemas i) t rows) (own : Rows m i rows)

section Reading
include keeps own

theorem scanned {order : List Row} (same : order.Perm t.rows) :
    ∃ rows' : List (Entity (schemas i)), PgKeeps (schemas i) { t with rows := order } rows' ∧ Rows m i rows' := by
  rw [keeps.rows] at same
  rcases iff_of_eq (congrFun (congrFun (List.eq_map_comp_perm _) _) _).symm |>.mp same with ⟨rows', rfl, perm⟩
  exact ⟨rows', ⟨keeps.columns, rfl⟩, own.of_perm perm⟩

theorem findByPk_explained (keyed : (schemas i).pk.type ≠ .blob) {key : Key (schemas i)} {out : List FieldValue}
    (accepted : (normalValue (schemas i).pk key.value).isSome = true)
    (answers : PgAnswers locale (schemas i) t r after (.model (.findByPk key out))) :
    m.Answers ⟨i, .findByPk key.kept out⟩ r ∧ after = t := by
  rcases answers with ⟨rfl, order, same, rfl⟩
  rcases scanned keeps own same with ⟨rows', keeps', own'⟩
  rw [pgFindByPkConn_eq keeps' keyed own', if_pos accepted]
  refine ⟨?_, rfl⟩
  have cases_ : (m i key.kept.value = none ∧ (out, (-1 : Int)) = (out, -1)) ∨
      ∃ entity, m i key.kept.value = some entity ∧ (entity.values, (0 : Int)) = (entity.values, 0) := by
    cases m i key.kept.value with
    | none => exact Or.inl ⟨rfl, rfl⟩
    | some entity => exact Or.inr ⟨entity, rfl, rfl⟩
  rcases cases_ with ⟨absent, same⟩ | ⟨entity, present, same⟩
  · rw [absent]
    exact answers_findByPk (Or.inl ⟨absent, same⟩)
  · rw [present]
    exact answers_findByPk (Or.inr ⟨entity, present, same⟩)

theorem findAll_explained (answers : PgAnswers locale (schemas i) t r after (.model .findAll)) :
    m.Answers ⟨i, .findAll⟩ r ∧ after = t := by
  rcases answers with ⟨rfl, order, same, listed⟩
  rcases scanned keeps own same with ⟨rows', keeps', own'⟩
  rw [pgFindAllConn_eq keeps'] at listed
  dsimp only at listed
  rw [listed]
  exact ⟨answers_findAll (lists_of_rows own'), rfl⟩

theorem query_explained {q : Query} {built : Built (schemas i) q} (answers : PgAnswers locale (schemas i) t r after (.query q built)) :
    after = t ∧ match q.normal (schemas i) with
      | some normal => ∃ all s, m.Lists i all ∧ normal.Answers (schemas i) all s r.entities ∧ r.rc = 0 ∧ r.out = []
      | none => r = { rc := -1 } := by
  rcases answers with ⟨rfl, result, queries, rfl⟩
  refine ⟨rfl, ?_⟩
  rcases pgSelect_spec locale built.wellTyped with ⟨st, params, made, accepted, selects⟩
  unfold PgQueries at queries
  rw [made] at queries
  dsimp only at queries
  rw [keeps.columns, accepted] at queries
  cases spelled : q.normal (schemas i) with
  | none =>
    rw [spelled] at queries
    cases queries
    rfl
  | some normal =>
    rw [spelled, Option.isSome_some, if_pos rfl, keeps.rows] at queries
    rcases queries with ⟨selected, out, found, rfl⟩
    rcases (selects normal spelled rows selected out).mp found with ⟨es, ordered, rfl, rfl⟩
    have answered := memory_answers_iff.mpr ⟨es, ordered, rfl, rfl⟩
    dsimp only
    rw [map_pgRead]
    exact ⟨_, _, lists_of_rows own, answered, rfl, rfl⟩

theorem findFirst_explained {field : String} {value : FieldValue} {out : List FieldValue}
    {asks : ∀ f, findField (schemas i) field = some f → f.type ≠ .blob → f.Asks value}
    (answers : PgAnswers locale (schemas i) t r after (.findFirst field value out asks)) :
    after = t ∧ ((∃ entity, m.Finds i field value entity ∧ r = { rc := 0, out := entity.values }) ∨
      (∀ entity, ¬ m.Finds i field value entity) ∧ r = { rc := -1, out }) := by
  rcases answers with ⟨rfl, searched⟩
  refine ⟨rfl, ?_⟩
  cases there : findField (schemas i) field with
  | none =>
    rw [there] at searched
    refine Or.inr ⟨?_, searched⟩
    rintro entity ⟨_, f, kept, again, _⟩
    rw [there] at again
    cases again
  | some f =>
    rw [there] at searched
    dsimp only at searched
    by_cases blob : f.type = .blob
    · rw [if_pos blob] at searched
      refine Or.inr ⟨?_, searched⟩
      rintro entity ⟨_, g, kept, again, plain, _⟩
      rw [there] at again
      cases again
      exact plain blob
    · rw [if_neg blob] at searched
      rcases searched with ⟨order, same, rfl⟩
      rcases scanned keeps own same with ⟨rows', keeps', own'⟩
      have member : f ∈ (schemas i).fields := List.mem_of_find?_eq_some there
      rw [pgFindFirstByFieldConn_eq keeps' member blob (asks f there blob)]
      cases spelled : normalValue f value with
      | none =>
        refine Or.inr ⟨?_, rfl⟩
        rintro entity ⟨_, g, kept, again, _, spelled', _⟩
        rw [there] at again
        cases again
        rw [spelled] at spelled'
        cases spelled'
      | some kept =>
        rw [Option.bind_some]
        cases first : rows'.find? fun entity => decide (entity.Has f kept) with
        | none =>
          refine Or.inr ⟨?_, rfl⟩
          rintro entity ⟨⟨key, held⟩, g, kept', again, _, spelled', has⟩
          rw [there] at again
          cases again
          rw [spelled] at spelled'
          cases spelled'
          exact List.find?_eq_none.mp first entity (own'.mem_of held) (decide_eq_true has)
        | some entity =>
          have has : entity.Has f kept := by simpa using List.find?_some first
          exact Or.inl ⟨entity, ⟨⟨entity.key, own'.held (List.mem_of_find?_eq_some first)⟩, f, kept, there, blob, spelled, has⟩, rfl⟩

end Reading

variable [DecidableEq ι]

theorem write_explained {c : ModelCall schemas} {rc : Int} {after : Table} (nothing : m.found c = []) (other : c.op ≠ .findAll)
    (writes : (m.succeeds c = true ∧ rc = 0 ∧ ∃ rows, PgKeeps (schemas c.table) after rows ∧ Rows (m.change c) c.table rows) ∨
      (m.succeeds c = false ∧ rc = -1 ∧ ∃ rows, PgKeeps (schemas c.table) after rows ∧ Rows m c.table rows)) :
    m.Answers c { rc } ∧ ∃ rows, PgKeeps (schemas c.table) after rows ∧ Rows (m.next c) c.table rows := by
  unfold Entities.next
  rcases writes with ⟨succeeds, zero, keeps⟩ | ⟨fails, minus, keeps⟩
  · rw [if_pos succeeds]
    exact ⟨answers_write nothing other ⟨fun _ => succeeds, fun _ => zero⟩, keeps⟩
  · rw [fails, if_neg (by decide), minus]
    exact ⟨answers_write nothing other ⟨nofun, fun succeeds => absurd (fails.symm.trans succeeds) nofun⟩, keeps⟩

variable (keyed : (schemas i).pk.type ≠ .blob) (roomy : (schemas i).Roomy)
include keyed keeps own

theorem insert_explained {entity : Entity (schemas i)} (accepted : entity.accepted = true)
    (answers : PgAnswers locale (schemas i) t r after (.model (.insert entity))) :
    m.Answers ⟨i, .insert (entity.kept roomy)⟩ r ∧
      ∃ rows', PgKeeps (schemas i) after rows' ∧ Rows (m.next ⟨i, .insert (entity.kept roomy)⟩) i rows' := by
  unfold PgAnswers at answers
  dsimp only at answers
  rw [pgInsertConn_eq keeps roomy, if_pos accepted] at answers
  rcases sqliteInsert_made keyed keeps.made own (entity.kept roomy) with ⟨absent, u, inserted, made⟩ | ⟨present, refused⟩
  · rw [inserted] at answers
    rcases answers with ⟨rfl, rfl⟩
    refine write_explained rfl nofun (Or.inl ⟨Option.isNone_iff_eq_none.mpr absent, rfl, _, keeps.of_made made, ?_⟩)
    show Represents Entity.key _ (m.put i (entity.kept roomy).key (some (entity.kept roomy)) i)
    rw [put_self]
    exact own.append absent
  · rw [refused] at answers
    rcases answers with ⟨rfl, rfl⟩
    refine write_explained rfl nofun (Or.inr ⟨?_, rfl, rows, keeps, own⟩)
    show (m i (entity.kept roomy).key).isNone = false
    rw [← Option.not_isSome, present]
    rfl

theorem update_explained {entity : Entity (schemas i)} (accepted : entity.accepted = true) (several : 2 ≤ (schemas i).fields.length)
    (answers : PgAnswers locale (schemas i) t r after (.model (.update entity))) :
    m.Answers ⟨i, .update (entity.kept roomy)⟩ r ∧
      ∃ rows', PgKeeps (schemas i) after rows' ∧ Rows (m.next ⟨i, .update (entity.kept roomy)⟩) i rows' := by
  unfold PgAnswers at answers
  dsimp only at answers
  rw [if_neg (by omega), pgUpdateConn_eq keeps roomy, if_pos accepted] at answers
  rcases sqliteUpdate_made keyed keeps.made own (entity.kept roomy) (by omega) with ⟨u, changes, rows', written, met, made, own'⟩
  rw [written] at answers
  cases answers
  apply write_explained (c := ⟨i, .update (entity.kept roomy)⟩) rfl nofun
  cases present : (m i (entity.kept roomy).key).isSome with
  | true =>
    rw [present, if_pos rfl] at own'
    refine Or.inl ⟨present, if_pos (met.mpr present), rows', keeps.of_made made, ?_⟩
    show Represents Entity.key _ (m.put i (entity.kept roomy).key (some (entity.kept roomy)) i)
    rw [put_self]
    exact own'
  | false =>
    rw [present, if_neg (by decide)] at own'
    refine Or.inr ⟨present, if_neg ?_, rows', keeps.of_made made, own'⟩
    exact fun some_ => absurd (present.symm.trans (met.mp some_)) nofun

theorem remove_explained {key : Key (schemas i)} (accepted : (normalValue (schemas i).pk key.value).isSome = true)
    (answers : PgAnswers locale (schemas i) t r after (.model (.remove key))) :
    m.Answers ⟨i, .remove key.kept⟩ r ∧ ∃ rows', PgKeeps (schemas i) after rows' ∧ Rows (m.next ⟨i, .remove key.kept⟩) i rows' := by
  unfold PgAnswers at answers
  dsimp only at answers
  rw [pgRemoveConn_eq keeps, if_pos accepted] at answers
  rcases sqliteRemove_made keyed keeps.made own key.kept.asks with ⟨u, changes, rows', written, met, made, own'⟩
  rw [written] at answers
  cases answers
  apply write_explained (c := ⟨i, .remove key.kept⟩) rfl nofun
  cases present : (m i key.kept.value).isSome with
  | true =>
    refine Or.inl ⟨present, if_pos (met.mpr present), rows', keeps.of_made made, ?_⟩
    show Represents Entity.key _ (m.put i key.kept.value none i)
    rw [put_self]
    exact own'
  | false =>
    have absent : m i key.kept.value = none := Option.isSome_eq_false_iff.mp present |> Option.isNone_iff_eq_none.mp
    have same : Function.update (m i) key.kept.value none = m i := by
      rw [← absent]
      exact Function.update_eq_self ..
    rw [same] at own'
    refine Or.inr ⟨present, if_neg ?_, rows', keeps.of_made made, own'⟩
    exact fun some_ => absurd (present.symm.trans (met.mp some_)) nofun

theorem statement_explained {κ : Type} (handle : κ) (room : ∀ i, (schemas i).Roomy) {op : PgOp (schemas i)}
    (answers : PgAnswers locale (schemas i) t r after op) :
    serverAnswers room m (.statement handle i op : PgEvent κ schemas) r ∧
      ∃ rows', PgKeeps (schemas i) after rows' ∧ Rows (serverNext room m (.statement handle i op : PgEvent κ schemas)) i rows' := by
  unfold serverAnswers serverNext
  cases op with
  | findFirst field value out asks =>
    rcases findFirst_explained locale keeps own answers with ⟨rfl, explained⟩
    exact ⟨explained, rows, keeps, own⟩
  | query q built =>
    rcases query_explained locale keeps own answers with ⟨rfl, explained⟩
    exact ⟨explained, rows, keeps, own⟩
  | model op =>
    cases op with
    | insert entity =>
      cases accepted : entity.accepted with
      | true =>
        have kept : ModelOp.kept (room i) (.insert entity) = some (.insert (entity.kept (room i))) := if_pos accepted
        dsimp only
        rw [kept]
        exact insert_explained locale keeps own keyed (room i) accepted answers
      | false =>
        have kept : ModelOp.kept (room i) (.insert entity) = none := if_neg (by simp [accepted])
        unfold PgAnswers at answers
        dsimp only at answers ⊢
        rw [pgInsertConn_eq keeps (room i), accepted, if_neg (by decide)] at answers
        rcases answers with ⟨rfl, rfl⟩
        rw [kept]
        exact ⟨rfl, rows, keeps, own⟩
    | update entity =>
      by_cases accepted : entity.accepted = true ∧ 2 ≤ (schemas i).fields.length
      · have kept : ModelOp.kept (room i) (.update entity) = some (.update (entity.kept (room i))) := if_pos accepted
        dsimp only
        rw [kept]
        exact update_explained locale keeps own keyed (room i) accepted.1 accepted.2 answers
      · have kept : ModelOp.kept (room i) (.update entity) = none := if_neg accepted
        have left : after = t ∧ r = { rc := -1 } := by
          unfold PgAnswers at answers
          dsimp only at answers
          by_cases single : (schemas i).fields.length < 2
          · rwa [if_pos single] at answers
          · rw [if_neg single, pgUpdateConn_eq keeps (room i), if_neg fun yes => accepted ⟨yes, by omega⟩] at answers
            cases answers
            exact ⟨rfl, rfl⟩
        rcases left with ⟨rfl, rfl⟩
        dsimp only
        rw [kept]
        exact ⟨rfl, rows, keeps, own⟩
    | remove key =>
      cases accepted : (normalValue (schemas i).pk key.value).isSome with
      | true =>
        have kept : ModelOp.kept (room i) (.remove key) = some (.remove key.kept) := if_pos accepted
        dsimp only
        rw [kept]
        exact remove_explained locale keeps own keyed accepted answers
      | false =>
        have kept : ModelOp.kept (room i) (.remove key) = none := if_neg (by simp [accepted])
        unfold PgAnswers at answers
        dsimp only at answers ⊢
        rw [pgRemoveConn_eq keeps, accepted, if_neg (by decide)] at answers
        cases answers
        rw [kept]
        exact ⟨rfl, rows, keeps, own⟩
    | findByPk key out =>
      cases accepted : (normalValue (schemas i).pk key.value).isSome with
      | true =>
        have kept : ModelOp.kept (room i) (.findByPk key out) = some (.findByPk key.kept out) := if_pos accepted
        rcases findByPk_explained locale keeps own keyed accepted answers with ⟨explained, rfl⟩
        dsimp only
        rw [kept]
        dsimp only
        rw [next_findByPk]
        exact ⟨explained, rows, keeps, own⟩
      | false =>
        have kept : ModelOp.kept (room i) (.findByPk key out) = none := if_neg (by simp [accepted])
        rcases answers with ⟨rfl, order, same, rfl⟩
        rcases scanned keeps own same with ⟨rows', keeps', own'⟩
        dsimp only
        rw [kept, pgFindByPkConn_eq keeps' keyed own', accepted, if_neg (by decide)]
        exact ⟨rfl, rows, keeps, own⟩
    | findAll =>
      rcases findAll_explained locale keeps own answers with ⟨explained, rfl⟩
      refine ⟨explained, rows, keeps, ?_⟩
      show Rows (m.next ⟨i, .findAll⟩) i rows
      rw [next_findAll]
      exact own

end Statements

theorem query_possible (locale : Bytes → Bytes → Ordering) {schema : Schema} {t : Table} {rows : List (Entity schema)}
    (keeps : PgKeeps schema t rows) {q : Query} (built : Built schema q) : ∃ result, PgQueries locale schema q t result := by
  have typed := built.wellTyped
  rcases pgSelect_spec locale typed with ⟨st, params, made, accepted, selects⟩
  unfold PgQueries
  rw [made]
  dsimp only
  rw [keeps.columns, accepted]
  cases spelled : q.normal schema with
  | none => exact ⟨none, rfl⟩
  | some normal =>
    rcases Option.map_eq_some_iff.mp spelled with ⟨conditions, _, rfl⟩
    rcases exists_sorted q.sorts typed.sorts (rows.filter fun entity => queryMatches schema { q with conditions } entity.values)
      with ⟨es, perm, sorted⟩
    have answers := (selects _ spelled rows _ _).mpr ⟨es, ⟨perm, sorted⟩, rfl, rfl⟩
    rw [Option.isSome_some, keeps.rows]
    exact ⟨_, by rw [if_pos rfl]; exact ⟨_, _, answers, rfl⟩⟩

theorem statement_possible (locale : Bytes → Bytes → Ordering) {schema : Schema} {t : Table} {rows : List (Entity schema)}
    (keeps : PgKeeps schema t rows) (op : PgOp schema) : ∃ r after, PgAnswers locale schema t r after op := by
  cases op with
  | findFirst field value out asks =>
    cases there : findField schema field with
    | none => exact ⟨_, t, rfl, by rw [there]⟩
    | some f =>
      by_cases blob : f.type = .blob
      · refine ⟨{ rc := -1, out }, t, rfl, ?_⟩
        rw [there]
        dsimp only
        rw [if_pos blob]
      · refine ⟨searchResult out (pgFindFirstByFieldConn schema t f value), t, rfl, ?_⟩
        rw [there]
        dsimp only
        rw [if_neg blob]
        exact ⟨t.rows, List.Perm.refl _, rfl⟩
  | query q built =>
    rcases query_possible locale keeps built with ⟨result, queries⟩
    exact ⟨_, t, rfl, result, queries, rfl⟩
  | model op =>
    cases op with
    | insert entity =>
      unfold PgAnswers
      dsimp only
      cases pgInsertConn schema t entity.values with
      | none => exact ⟨_, _, rfl, rfl⟩
      | some after => exact ⟨_, _, rfl, rfl⟩
    | update entity =>
      unfold PgAnswers
      dsimp only
      by_cases single : schema.fields.length < 2
      · exact ⟨_, _, by rw [if_pos single]; exact ⟨rfl, rfl⟩⟩
      · exact ⟨_, _, by rw [if_neg single]⟩
    | remove key => exact ⟨_, _, rfl⟩
    | findByPk key out => exact ⟨_, t, rfl, t.rows, List.Perm.refl _, rfl⟩
    | findAll =>
      refine ⟨{ rc := 0, entities := rows.map Entity.values }, t, rfl, t.rows, List.Perm.refl _, ?_⟩
      rw [pgFindAllConn_eq keeps]

/-! ## Runs -/

section Runs
variable {κ ι : Type} {schemas : ι → Schema}

/-- Schemas that one server keeps apart, with room for UUIDs and with keys that can be asked for. -/
structure PgSchemas (schemas : ι → Schema) : Prop where
  apart : ∀ i j, (schemas i).name = (schemas j).name → i = j
  roomy : ∀ i, (schemas i).Roomy
  keyed : ∀ i, (schemas i).pk.type ≠ .blob

/-- Each table, as far as it is made, has the rows of its entities, and no handle remembers a table that is not there. -/
structure ServerKeeps (m : Entities schemas) (s : PgState κ) : Prop where
  tables : ∀ i, ∃ rows, PgKeeps (schemas i) ((s.table? (schemas i)).getD (pgCreated (schemas i))) rows ∧ Rows m i rows
  remembered : ∀ handle i, (schemas i).name ∈ s.remembered handle → (s.table? (schemas i)).isSome = true

theorem table?_set (tables : List (String × Table)) (remembered : κ → List String) (schema other : Schema) (t : Table) :
    (PgState.mk (OrderedMap.set tables schema.name t) remembered).table? other =
      if other.name = schema.name then some t else (PgState.mk tables remembered).table? other :=
  OrderedMap.get?_set tables schema.name t other.name

theorem serverKeeps_empty : ServerKeeps (Entities.empty : Entities schemas) (⟨[], fun _ => []⟩ : PgState κ) :=
  ⟨fun _ => ⟨[], ⟨rfl, rfl⟩, represents_nil _⟩, fun _ _ member => absurd member List.not_mem_nil⟩

theorem ServerKeeps.none_found {m : Entities schemas} {s : PgState κ} (keeps : ServerKeeps m s) {i : ι}
    (absent : s.table? (schemas i) = none) (key : FieldValue) : m i key = none := by
  rcases keeps.tables i with ⟨rows, made, own⟩
  rw [absent] at made
  have empty : rows = [] := List.map_eq_nil_iff.mp made.rows.symm
  rw [empty] at own
  apply own.none_iff.mpr
  intro row member
  exact absurd member List.not_mem_nil

variable [DecidableEq ι]

theorem ServerKeeps.put {m m' : Entities schemas} {s : PgState κ} (fit : PgSchemas schemas) (keeps : ServerKeeps m s) {i : ι}
    {after : Table} {rows : List (Entity (schemas i))} (made : PgKeeps (schemas i) after rows) (own : Rows m' i rows)
    (others : ∀ j, j ≠ i → m' j = m j) : ServerKeeps m' (s.put (schemas i) after) := by
  have tables : ∀ j, (s.put (schemas i) after).table? (schemas j) = if j = i then some after else s.table? (schemas j) := by
    intro j
    refine (table?_set s.tables s.remembered (schemas i) (schemas j) after).trans ?_
    by_cases same : j = i
    · rw [if_pos same, if_pos (congrArg (fun k => (schemas k).name) same)]
    · rw [if_neg same, if_neg fun equal => same (fit.apart j i equal)]
  constructor
  · intro j
    rw [tables j]
    by_cases same : j = i
    · subst same
      rw [if_pos rfl]
      exact ⟨rows, made, own⟩
    · rw [if_neg same]
      rcases keeps.tables j with ⟨old, made_, own_⟩
      refine ⟨old, made_, ?_⟩
      unfold Rows
      rw [others j same]
      exact own_
  · intro handle j member
    rw [tables j]
    by_cases same : j = i
    · rw [if_pos same]
      rfl
    · rw [if_neg same]
      exact keeps.remembered handle j member

theorem next_other {m : Entities schemas} {call : ModelCall schemas} {j : ι} (differs : j ≠ call.table) : m.next call j = m j := by
  unfold Entities.next
  split_ifs
  · unfold Entities.change
    cases call.op with
    | insert entity => exact put_other m _ _ _ differs
    | update entity => exact put_other m _ _ _ differs
    | remove key => exact put_other m _ _ _ differs
    | findByPk key out => rfl
    | findAll => rfl
  · rfl

theorem serverNext_other {room : ∀ i, (schemas i).Roomy} {m : Entities schemas} {handle : κ} {i j : ι} {op : PgOp (schemas i)}
    (differs : j ≠ i) : serverNext room m (.statement handle i op) j = m j := by
  unfold serverNext
  cases op with
  | findFirst field value out asks => rfl
  | query q built => rfl
  | model op =>
    dsimp only
    cases op.kept (room i) with
    | none => rfl
    | some kept => exact next_other differs

variable [DecidableEq κ]

theorem ServerKeeps.ensure {m : Entities schemas} {s : PgState κ} (fit : PgSchemas schemas) (keeps : ServerKeeps m s) (handle : κ) (i : ι) :
    ServerKeeps m (s.ensure handle (schemas i)) ∧ (schemas i).name ∈ (s.ensure handle (schemas i)).remembered handle := by
  unfold PgState.ensure
  by_cases known : (schemas i).name ∈ s.remembered handle
  · rw [if_pos known]
    exact ⟨keeps, known⟩
  · have made : ∀ j, (PgState.mk (if (s.table? (schemas i)).isSome then s.tables
        else OrderedMap.set s.tables (schemas i).name (pgCreated (schemas i))) s.remembered).table? (schemas j) =
          if j = i then some ((s.table? (schemas i)).getD (pgCreated (schemas i))) else s.table? (schemas j) := by
      intro j
      cases there : s.table? (schemas i) with
      | some t =>
        rw [Option.isSome_some, if_pos rfl]
        by_cases same : j = i
        · subst same
          rw [if_pos rfl]
          exact there
        · rw [if_neg same]
      | none =>
        rw [Option.isSome_none, if_neg (by decide), table?_set]
        by_cases same : j = i
        · rw [if_pos same, if_pos (congrArg (fun k => (schemas k).name) same)]
          rfl
        · rw [if_neg same, if_neg fun equal => same (fit.apart j i equal)]
    rw [if_neg known]
    refine ⟨⟨?_, ?_⟩, ?_⟩
    · intro j
      change ∃ rows, PgKeeps (schemas j) (((PgState.mk _ s.remembered).table? (schemas j)).getD _) rows ∧ _
      rw [made j]
      by_cases same : j = i
      · subst same
        rw [if_pos rfl, Option.getD_some]
        exact keeps.tables j
      · rw [if_neg same]
        exact keeps.tables j
    · intro other j member
      change ((PgState.mk _ s.remembered).table? (schemas j)).isSome = true
      rw [made j]
      by_cases same : j = i
      · rw [if_pos same]
        rfl
      · rw [if_neg same]
        apply keeps.remembered other j
        by_cases own : other = handle
        · subst own
          change (schemas j).name ∈ Function.update s.remembered other _ other at member
          rw [Function.update_self, List.mem_append, List.mem_singleton] at member
          exact member.resolve_right fun equal => same (fit.apart j i equal)
        · change (schemas j).name ∈ Function.update s.remembered handle _ other at member
          rwa [Function.update_of_ne own] at member
    · change _ ∈ Function.update s.remembered handle _ handle
      rw [Function.update_self]
      exact List.mem_append_right _ (List.mem_singleton_self _)

theorem step_explained {locale : Bytes → Bytes → Ordering} {rules : PgRules} (fit : PgSchemas schemas) (m : Entities schemas)
    (s : PgState κ) (event : PgEvent κ schemas) (r : ModelResult) (t : PgState κ) (keeps : ServerKeeps m s)
    (step : PgStep locale rules schemas s event r t) :
    serverAnswers fit.roomy m event r ∧ ServerKeeps (serverNext fit.roomy m event) t := by
  cases step with
  | ensure handle i named => exact ⟨rfl, (keeps.ensure fit handle i).1⟩
  | @statement handle i op table after r takes ready there answers =>
    rcases keeps.tables i with ⟨rows, made, own⟩
    rw [there] at made
    rcases statement_explained locale made own (fit.keyed i) handle fit.roomy answers with ⟨explained, rows', made', own'⟩
    exact ⟨explained, keeps.put fit made' own' fun _ differs => serverNext_other differs⟩
  | @missing handle i op takes ready absent =>
    cases op with
    | findFirst field value out asks =>
      refine ⟨Or.inr ⟨?_, rfl⟩, keeps⟩
      rintro entity ⟨⟨key, held⟩, _⟩
      rw [keeps.none_found absent key] at held
      cases held
    | query q built =>
      have there := keeps.remembered handle i (ready.resolve_left nofun)
      rw [absent] at there
      cases there
    | model op =>
      have there := keeps.remembered handle i (ready.resolve_left nofun)
      rw [absent] at there
      cases there

structure PgCall (κ : Type) (schemas : ι → Schema) where
  handle : κ
  table : ι
  op : PgOp (schemas table)

def PgCall.halves (call : PgCall κ schemas) : List (PgEvent κ schemas) :=
  if call.op.unprepared then [.statement call.handle call.table call.op]
  else [.ensure call.handle call.table, .statement call.handle call.table call.op]

def PgRules.Take (rules : PgRules) (call : PgCall κ schemas) : Prop :=
  rules.names (schemas call.table) = true ∧ rules.values call.op = true

omit [DecidableEq ι] in
theorem event_possible {locale : Bytes → Bytes → Ordering} {rules : PgRules} {m : Entities schemas}
    {s : PgState κ} (keeps : ServerKeeps m s) (call : PgCall κ schemas) (takes : rules.Take call)
    (ready : call.op.unprepared = true ∨ (schemas call.table).name ∈ s.remembered call.handle) :
    ∃ r t, PgStep locale rules schemas s (.statement call.handle call.table call.op) r t := by
  cases there : s.table? (schemas call.table) with
  | none => exact ⟨_, _, .missing takes.2 ready there⟩
  | some t =>
    rcases keeps.tables call.table with ⟨rows, made, _⟩
    rw [there] at made
    rcases statement_possible locale made call.op with ⟨r, after, answers⟩
    exact ⟨_, _, .statement takes.2 ready there answers⟩

theorem calls_possible {locale : Bytes → Bytes → Ordering} {rules : PgRules} (fit : PgSchemas schemas) {m : Entities schemas}
    {s : PgState κ} (keeps : ServerKeeps m s) (calls : List (PgCall κ schemas)) (takes : ∀ call ∈ calls, rules.Take call) :
    ∃ results t, Reaches (PgStep locale rules schemas) s (calls.flatMap PgCall.halves) results t := by
  induction calls generalizing m s with
  | nil => exact ⟨[], s, .nil s⟩
  | cons call calls ih =>
    have take := takes call (List.mem_cons_self ..)
    have rest := fun (m : Entities schemas) (s : PgState κ) (keeps : ServerKeeps m s) =>
      ih keeps fun other member => takes other (List.mem_cons_of_mem _ member)
    rw [List.flatMap_cons]
    unfold PgCall.halves
    cases unprepared : call.op.unprepared with
    | true =>
      rcases @event_possible κ ι schemas _ locale rules m s keeps call take (Or.inl unprepared) with ⟨r, t, step⟩
      rcases rest _ t (step_explained fit m s _ r t keeps step).2 with ⟨results, u, run⟩
      exact ⟨r :: results, u, .cons step run⟩
    | false =>
      rcases keeps.ensure fit call.handle call.table with ⟨keeps', ready⟩
      rcases @event_possible κ ι schemas _ locale rules m _ keeps' call take (Or.inr ready) with ⟨r, t, step⟩
      rcases rest _ t (step_explained fit m _ _ r t keeps' step).2 with ⟨results, u, run⟩
      exact ⟨_ :: r :: results, u, .cons (.ensure s call.handle call.table take.1) (.cons step run)⟩

end Runs

def accounts : Schema where
  name := "accounts"
  fields := [⟨"id", .uuid, 37⟩, ⟨"balance", .int, 4⟩]
  primaryKeyIndex := 0
  primaryKey := by decide
  sizes := by decide
  distinct := by decide

def accountId : Bytes := ascii "00112233-4455-6677-8899-AABBCCDDEEFF"

def account : Entity accounts := ⟨[.text accountId, .int 5], .cons ⟨rfl, by decide, by decide⟩ (.cons rfl .nil)⟩

def onlyAccounts (_ : Unit) : Schema := accounts

theorem onlyAccounts_fit : PgSchemas onlyAccounts := by
  refine ⟨fun _ _ _ => rfl, ?_, fun _ => (by decide : accounts.pk.type ≠ .blob)⟩
  intro _ f member uuid
  have both : f = ⟨"id", .uuid, 37⟩ ∨ f = ⟨"balance", .int, 4⟩ := by simpa [onlyAccounts, accounts] using member
  rcases both with rfl | rfl
  · decide
  · cases uuid

def insertAndFind : List (PgCall Bool onlyAccounts) :=
  [⟨false, (), .model (.insert account)⟩, ⟨true, (), .model (.findByPk ⟨.text accountId, rfl, by decide⟩ [])⟩]

end BlueBird.Persist
