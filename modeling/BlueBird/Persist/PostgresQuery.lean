import BlueBird.Persist.BackendAgreement
import BlueBird.Persist.Postgres
import BlueBird.Persist.QueryAgreement

/-! PostgreSQL answers a query as the in-memory evaluation does. -/

namespace BlueBird.Persist

open Migrate
open Http (decimal decimalInt)
open Security (hexEncode hexNibble hexDigit decodeHex)

/-! ## UUIDs -/

theorem hexEncode_cons (b : Byte) (bytes : Bytes) :
    hexEncode (b :: bytes) = hexDigit ((b >>> 4) &&& 0x0F) :: hexDigit (b &&& 0x0F) :: hexEncode bytes := rfl

theorem uuidDigits_length {left : Nat} {text : Bytes} {found : Bytes × Bytes} (read : uuidDigits left text = some found) :
    found.1.length = left := by
  induction left generalizing text found with
  | zero =>
    rw [uuidDigits] at read
    cases read
    rfl
  | succ left ih =>
    rcases text with _ | ⟨high, _ | ⟨low, text⟩⟩
    · cases read
    · cases read
    · rw [uuidDigits] at read
      cases first : hexNibble high with
      | none => simp [first] at read
      | some hi =>
        cases second : hexNibble low with
        | none => simp [first, second] at read
        | some lo =>
          simp only [first, second, Option.map_eq_some_iff] at read
          rcases read with ⟨later, more, rfl⟩
          rw [List.length_cons, ih more]

theorem uuidIn_length {text uuid : Bytes} (read : uuidIn text = some uuid) : uuid.length = 16 := by
  unfold uuidIn at read
  dsimp only at read
  cases digits : uuidDigits 16 (if text.head? = some (ch '{') then text.tail else text) with
  | none => simp [digits] at read
  | some pair =>
    rw [digits] at read
    dsimp only at read
    by_cases ends : pair.2 = if text.head? = some (ch '{') then [ch '}'] else []
    · rw [if_pos ends] at read
      cases read
      exact uuidDigits_length digits
    · rw [if_neg ends] at read
      cases read

theorem length_hexEncode (bytes : Bytes) : (hexEncode bytes).length = 2 * bytes.length := by
  induction bytes with
  | nil => rfl
  | cons b bytes ih =>
    rw [hexEncode_cons, List.length_cons, List.length_cons, ih, List.length_cons]
    omega

theorem length_uuidToString {uuid : Bytes} (length : uuid.length = 16) : (uuidToString uuid).length = 36 := by
  unfold uuidToString
  simp only [List.length_append, List.length_cons, length_hexEncode, List.length_take, List.length_drop, length]
  omega

theorem clean_hexEncode (bytes : Bytes) : (0 : Byte) ∉ hexEncode bytes := by
  have digits : ∀ b : Byte, hexDigit ((b >>> 4) &&& 0x0F) ≠ 0 ∧ hexDigit (b &&& 0x0F) ≠ 0 := by
    apply forall_byte
    decide +kernel
  induction bytes with
  | nil => exact List.not_mem_nil
  | cons b bytes ih =>
    rw [hexEncode_cons]
    simp only [List.mem_cons, not_or]
    exact ⟨(digits b).1.symm, (digits b).2.symm, ih⟩

theorem clean_uuidToString (uuid : Bytes) : (0 : Byte) ∉ uuidToString uuid := by
  have hyphen : (0 : Byte) ≠ ch '-' := by decide
  unfold uuidToString
  simp only [List.mem_append, List.mem_cons, clean_hexEncode, hyphen, or_self, not_false_eq_true]

/-! ## Numbers -/

theorem scan_decimalInt (z : Int) :
    NumberText.scan (decimalInt z) = { negative := decide (z < 0), digits := decimal z.natAbs, rest := [] } := by
  have digits := Http.decimal_isDigit z.natAbs
  have some_ := Http.decimal_ne_nil z.natAbs
  unfold decimalInt
  by_cases below : z < 0
  · rw [if_pos below]
    have written : NumberText.Written (ch '-' :: decimal z.natAbs) [] [ch '-'] (decimal z.natAbs) [] :=
      ⟨by simp, nofun, .inr (.inr rfl), digits, some_, nofun⟩
    rw [written.scan]
    simp [below]
  · rw [if_neg below, show z.toNat = z.natAbs by omega]
    have written : NumberText.Written (decimal z.natAbs) [] [] (decimal z.natAbs) [] :=
      ⟨by simp, nofun, .inl rfl, digits, some_, nofun⟩
    rw [written.scan]
    simp [below]

theorem signed_natAbs (z : Int) : (if decide (z < 0) = true then - (NumberText.number (decimal z.natAbs) : Int)
    else NumberText.number (decimal z.natAbs)) = z := by
  simp only [NumberText.number_decimal, decide_eq_true_eq]
  split_ifs <;> omega

theorem integerIn_decimalInt {bits : Nat} {z : Int} (lower : - 2 ^ (bits - 1) ≤ z) (upper : z < 2 ^ (bits - 1)) :
    integerIn bits (decimalInt z) = some z := by
  unfold integerIn
  rw [scan_decimalInt]
  dsimp only
  rw [signed_natAbs, if_pos ⟨Http.decimal_ne_nil _, rfl, lower, upper⟩]

theorem strtol_decimalInt {z : Int} (lower : - 2 ^ 63 ≤ z) (upper : z < 2 ^ 63) : (NumberText.strtol (decimalInt z)).1 = z := by
  unfold NumberText.strtol
  rw [scan_decimalInt]
  dsimp only
  rw [if_neg (Http.decimal_ne_nil _), signed_natAbs]
  dsimp only
  omega

/-! ## Values -/

/-- A value as the server keeps it: a UUID in its own spelling, and none where the text is no UUID. -/
def normalValue (f : Field) (value : FieldValue) : Option FieldValue :=
  if f.type = .uuid then (uuidIn value.asBytes).map fun uuid => .text (uuidToString uuid) else some value

def Field.Typed (f : Field) : FieldValue → Prop
  | .int _ => f.type = .int
  | .text _ => f.type.textual = true
  | .blob _ => f.type = .blob

theorem Field.Holds.typed {f : Field} {value : FieldValue} (holds : f.Holds value) : f.Typed value := by
  cases value with
  | int n => exact holds
  | text s => exact holds.1
  | blob b => exact holds.1

theorem Field.Asks.typed {f : Field} {value : FieldValue} (asks : f.Asks value) : f.Typed value := by
  cases value with
  | int n => exact asks
  | text s => exact asks.1
  | blob b => exact absurd asks id

theorem Field.Takes.typed {f : Field} {op : QueryOp} {value : FieldValue} (takes : f.Takes op value) (plain : op ≠ .like) :
    f.Typed value := by
  unfold Field.Takes at takes
  cases type : f.type with
  | int =>
    rw [type] at takes
    rcases takes.resolve_left plain with ⟨n, rfl⟩
    exact type
  | string =>
    rw [type] at takes
    rcases takes with ⟨s, rfl, _⟩
    exact congrArg FieldType.textual type
  | uuid =>
    rw [type] at takes
    rcases takes with ⟨s, rfl, _⟩
    exact congrArg FieldType.textual type
  | blob =>
    rw [type] at takes
    rcases takes.resolve_left plain with ⟨b, rfl, _⟩
    exact type

theorem input_paramsSet {f : Field} {value : FieldValue} (typed : f.Typed value) :
    (pgFieldType f.type).input (paramsSet f value) = (normalValue f value).map (bindField f) := by
  unfold normalValue paramsSet
  cases value with
  | int n =>
    have type : f.type = .int := typed
    have read : integerIn 32 (decimalInt n.toInt) = some n.toInt := integerIn_decimalInt n.le_toInt n.toInt_lt
    rw [type, if_neg (by decide)]
    show (integerIn 32 (decimalInt n.toInt)).map Value.integer = _
    rw [read]
    rfl
  | text s =>
    have textual : f.type.textual = true := typed
    cases type : f.type with
    | int => rw [type] at textual; cases textual
    | blob => rw [type] at textual; cases textual
    | string => rfl
    | uuid =>
      rw [if_pos rfl, Option.map_map]
      rfl
  | blob b =>
    have type : f.type = .blob := typed
    rw [type, if_neg (by decide)]
    rfl

theorem unescapeBytea_shown (b : Bytes) : unescapeBytea (ascii "\\x" ++ hexEncode b) = b := by
  unfold unescapeBytea
  rw [show (ascii "\\x" ++ hexEncode b).drop 2 = hexEncode b from rfl, Security.decodeHex_hexEncode]
  rfl

theorem pgReadColumn_shown {f : Field} {value : FieldValue} (holds : f.Holds value) :
    pgReadColumn f (bindField f value).shown = value := by
  cases value with
  | int n =>
    have type : f.type = .int := holds
    have lower := n.le_toInt
    have upper := n.toInt_lt
    unfold pgReadColumn
    rw [type]
    show FieldValue.int (Int32.ofInt (NumberText.strtol (decimalInt n.toInt)).1) = _
    rw [strtol_decimalInt (by omega) (by omega), Int32.ofInt_toInt]
  | text s =>
    have copied := copyTextField_fits f.size s holds.2.1 holds.2.2
    have textual := holds.1
    unfold pgReadColumn
    cases type : f.type with
    | int => rw [type] at textual; cases textual
    | blob => rw [type] at textual; cases textual
    | string => exact congrArg FieldValue.text copied
    | uuid => exact congrArg FieldValue.text copied
  | blob b =>
    rcases holds with ⟨type, length⟩
    have whole : b.take f.size = b := List.take_of_length_le (Nat.le_of_eq length)
    unfold pgReadColumn
    rw [type]
    show FieldValue.blob ((unescapeBytea (ascii "\\x" ++ hexEncode (b.take f.size))).take f.size ++ _) = _
    rw [unescapeBytea_shown, whole, whole]
    show FieldValue.blob (b ++ List.replicate (f.size - (unescapeBytea (ascii "\\x" ++ hexEncode (b.take f.size))).length) 0) = _
    rw [unescapeBytea_shown, whole, length, Nat.sub_self, List.replicate_zero, List.append_nil]

/-! ## Columns -/

section
variable {schema : Schema}

theorem find?_mapIdx {α : Type} (name : String) (make : Nat → Field → Column) (type : Field → α) (shown : Column → α)
    (same : ∀ i f, (make i f).name = f.name ∧ shown (make i f) = type f) (fields : List Field) :
    ((fields.mapIdx make).find? (·.name = name)).map shown = (fields.find? (·.name = name)).map type := by
  induction fields generalizing make with
  | nil => rfl
  | cons f fields ih =>
    rw [List.mapIdx_cons, List.find?_cons, List.find?_cons, (same 0 f).1]
    by_cases here : f.name = name
    · simp only [here, decide_true, Option.map_some]
      rw [(same 0 f).2]
    · simp only [here, decide_false]
      exact ih (fun i => make (i + 1)) fun i g => same (i + 1) g

theorem named_sql (type : PgType) : PgType.named type.sql = some type := by
  cases type <;> decide

theorem columnType_eq {name : String} {f : Field} (found : findField schema name = some f) :
    columnType (pgColumns schema) name = some (pgFieldType f.type) := by
  have types := find?_mapIdx name (fun i f => (⟨f.name, (pgFieldType f.type).sql, i = schema.primaryKeyIndex⟩ : Column))
    (fun f => (pgFieldType f.type).sql) (·.type) (fun _ _ => ⟨rfl, rfl⟩) schema.fields
  unfold findField at found
  rw [found] at types
  unfold columnType pgColumns
  rw [types]
  exact named_sql _

theorem find?_of_nodup {α β : Type} [DecidableEq β] {key : α → β} {entries : List α} (distinct : (entries.map key).Nodup) {entry : α}
    (member : entry ∈ entries) : entries.find? (fun other => key other = key entry) = some entry := by
  have test : decide (key entry = key entry) = true := decide_eq_true rfl
  cases found : entries.find? fun other => key other = key entry with
  | none => exact absurd test (List.find?_eq_none.mp found entry member)
  | some other =>
    have same : key other = key entry := by simpa using List.find?_some found
    rw [List.inj_on_of_nodup_map distinct (List.mem_of_find?_eq_some found) member same]

theorem findField_of_mem {f : Field} (member : f ∈ schema.fields) : findField schema f.name = some f :=
  find?_of_nodup schema.distinct member

theorem findField_pk : findField schema schema.pk.name = some schema.pk := findField_of_mem (List.get_mem ..)

theorem columnValue_pg (values : List FieldValue) (name : String) :
    columnValue (pgColumns schema) (storedRow schema values) name =
      ((fieldOf schema values name).map fun p => bindField p.1 p.2).getD .null := by
  unfold columnValue storedRow fieldOf
  rw [column_zip schema.fields (pgColumns schema) values name (pgColumns_names schema)]

theorem pgRead_storedRow (entity : Entity schema) :
    pgRead schema (pgColumns schema) (storedRow schema entity.values) = entity.values := by
  apply List.ext_getElem?
  intro i
  unfold pgRead pgReadRow selected columnList
  rw [List.getElem?_mapIdx]
  cases field : schema.fields[i]? with
  | none =>
    have out : entity.values[i]? = none := by
      rw [List.getElem?_eq_none_iff, entity.length_values]
      exact List.getElem?_eq_none_iff.mp field
    rw [out]
    rfl
  | some f =>
    rcases field_held entity field with ⟨value, held⟩
    have here : (schema.fields.zip entity.values)[i]? = some (f, value) := List.getElem?_zip_eq_some.mpr ⟨field, held⟩
    have found : fieldOf schema entity.values f.name = some (f, value) :=
      find?_of_nodup (names_zip entity) (List.mem_of_getElem? here)
    have holds : f.Holds value := List.forall₂_zip entity.holds (List.mem_of_getElem? here)
    rw [held, Option.map_some, List.getD_eq_getElem?_getD, List.getElem?_map, List.getElem?_map, field]
    show some (pgReadColumn f (columnValue _ _ f.name).shown) = _
    rw [columnValue_pg, found]
    exact congrArg some (pgReadColumn_shown holds)

end

/-! ## Conditions -/

def QueryCond.normal (schema : Schema) (cond : QueryCond) : Option QueryCond :=
  match findField schema cond.field with
  | none => some cond
  | some f => if cond.op = .like then some cond else (normalValue f cond.value).map fun value => { cond with value }

/-- The query with its UUIDs in the spelling of the server, or none where a text to compare with is no UUID. -/
def Query.normal (schema : Schema) (q : Query) : Option Query :=
  (q.conditions.mapM (QueryCond.normal schema)).map fun conditions => { q with conditions }

theorem normalValue_takes {f : Field} {op : QueryOp} {value kept : FieldValue} (takes : f.Takes op value)
    (normal : normalValue f value = some kept) : f.Takes op kept := by
  unfold normalValue at normal
  by_cases uuid : f.type = .uuid
  · rw [if_pos uuid] at normal
    rcases Option.map_eq_some_iff.mp normal with ⟨bytes, _, rfl⟩
    unfold Field.Takes
    rw [uuid]
    exact ⟨_, rfl, clean_uuidToString bytes⟩
  · rw [if_neg uuid] at normal
    cases normal
    exact takes

theorem order_collated (locale : Bytes → Bytes → Ordering) (f : Field) (a b : Value) :
    (pgFieldType f.type).order locale (f.type = .string) a b = a.order b := by
  cases type : f.type with
  | string => cases a <;> cases b <;> rfl
  | int => rfl
  | uuid => rfl
  | blob => rfl

theorem QueryOp.allows_order {op : QueryOp} (plain : op ≠ .like) (a b : Value) :
    op.allows (a.order b) = (queryOpToSql op).test a b := by
  cases op with
  | like => exact absurd rfl plain
  | _ => rfl

section Conditions
variable (schema : Schema) (locale : Bytes → Bytes → Ordering) (params : List PgParam)

/-- The term accepts the values that the condition has a spelling for, and then holds where the condition does. -/
structure PgTerm.Means (term : PgTerm) (cond : QueryCond) : Prop where
  accepted : term.accepted (pgColumns schema) params = (cond.normal schema).isSome
  holds : ∀ normal, cond.normal schema = some normal → ∀ entity : Entity schema,
    term.holds locale (pgColumns schema) params (storedRow schema entity.values) = condMatches schema entity.values normal

structure TermsMean (terms : List PgTerm) (conditions : List QueryCond) : Prop where
  accepted : terms.all (PgTerm.accepted (pgColumns schema) params) = (conditions.mapM (QueryCond.normal schema)).isSome
  holds : ∀ normal, conditions.mapM (QueryCond.normal schema) = some normal → ∀ entity : Entity schema,
    terms.all (PgTerm.holds locale (pgColumns schema) params (storedRow schema entity.values)) =
      normal.all (condMatches schema entity.values)

variable {schema locale params}

theorem TermsMean.nil : TermsMean schema locale params [] [] := by
  refine ⟨rfl, ?_⟩
  intro normal none_ entity
  cases none_
  rfl

theorem TermsMean.cons {term : PgTerm} {cond : QueryCond} {terms : List PgTerm} {conditions : List QueryCond}
    (first : term.Means schema locale params cond) (rest : TermsMean schema locale params terms conditions) :
    TermsMean schema locale params (term :: terms) (cond :: conditions) := by
  have both : (cond :: conditions).mapM (QueryCond.normal schema) =
      (cond.normal schema).bind fun one => (conditions.mapM (QueryCond.normal schema)).map (one :: ·) := by
    rw [List.mapM_cons]
    cases cond.normal schema with
    | none => rfl
    | some one => cases conditions.mapM (QueryCond.normal schema) <;> rfl
  constructor
  · rw [List.all_cons, first.accepted, rest.accepted, both]
    cases cond.normal schema with
    | none => rfl
    | some one => cases conditions.mapM (QueryCond.normal schema) <;> rfl
  · intro normal whole entity
    rw [both] at whole
    rcases Option.bind_eq_some_iff.mp whole with ⟨one, here, later⟩
    rcases Option.map_eq_some_iff.mp later with ⟨others, there, rfl⟩
    rw [List.all_cons, List.all_cons, first.holds one here entity, rest.holds others there entity]

theorem given_normal {k : Nat} {f : Field} {value : FieldValue} (at_ : params[k - 1]? = some (paramsSet f value)) (typed : f.Typed value) :
    given params k (pgFieldType f.type) = (normalValue f value).map (bindField f) := by
  unfold given
  rw [at_]
  exact input_paramsSet typed

theorem normal_plain {cond : QueryCond} {f : Field} (found : findField schema cond.field = some f) (plain : cond.op ≠ .like) :
    cond.normal schema = (normalValue f cond.value).map fun value => { cond with value } := by
  unfold QueryCond.normal
  rw [found]
  exact if_neg plain

theorem normal_like {cond : QueryCond} (like : cond.op = .like) : cond.normal schema = some cond := by
  unfold QueryCond.normal
  cases findField schema cond.field with
  | none => rfl
  | some f => exact if_pos like

theorem findField_name {name : String} {f : Field} (found : findField schema name = some f) : f.name = name := by
  have same := List.find?_some found
  simpa using same

theorem compare_means {cond : QueryCond} {f : Field} (found : findField schema cond.field = some f) (plain : cond.op ≠ .like)
    (takes : f.Takes cond.op cond.value) {k : Nat} (at_ : params[k - 1]? = some (paramsSet f cond.value)) :
    (PgTerm.compare f.name (f.type = .string) cond.op k).Means schema locale params cond := by
  have type : columnType (pgColumns schema) f.name = some (pgFieldType f.type) := by
    rw [findField_name found]
    exact columnType_eq found
  have value := given_normal at_ (takes.typed plain)
  have normal := normal_plain found plain
  constructor
  · have collates : (!decide (f.type = .string) || pgFieldType f.type == .text) = true := by
      cases f.type <;> rfl
    unfold PgTerm.accepted
    dsimp only
    rw [type]
    dsimp only
    rw [collates, value, normal, Bool.true_and, Option.isSome_map, Option.isSome_map]
  · intro kept whole entity
    rw [normal] at whole
    rcases Option.map_eq_some_iff.mp whole with ⟨v, spelled, rfl⟩
    rcases entity.fieldOf found with ⟨held, here, holds⟩
    have column : columnValue (pgColumns schema) (storedRow schema entity.values) f.name = bindField f held := by
      rw [columnValue_pg, findField_name found, here]
      rfl
    have takes_ := normalValue_takes takes spelled
    have matches_ : condMatches schema entity.values { cond with value := v } =
        (queryOpToSql cond.op).test (bindField f held) (bindField f v) :=
      condMatches_found here plain takes_ holds
    unfold PgTerm.holds
    dsimp only
    rw [type]
    dsimp only
    rw [value, spelled]
    dsimp only [Option.map_some]
    rw [column, order_collated, QueryOp.allows_order plain, matches_]
    simp [bindField_ne_null]

theorem like_means {cond : QueryCond} {f : Field} (found : findField schema cond.field = some f) (like : cond.op = .like)
    (textual : f.type.textual = true) {k : Nat}
    (at_ : params[k - 1]? = some (paramsSet f (.text (escapeLikePattern cond.value.asBytes)))) :
    (PgTerm.like f.name (f.type = .uuid) k).Means schema locale params cond := by
  have type : columnType (pgColumns schema) f.name = some (pgFieldType f.type) := by
    rw [findField_name found]
    exact columnType_eq found
  have text : given params k .text = some (.text (escapeLikePattern cond.value.asBytes)) := by
    unfold given
    rw [at_]
    unfold paramsSet
    cases kind : f.type with
    | int => rw [kind] at textual; cases textual
    | blob => rw [kind] at textual; cases textual
    | string => rfl
    | uuid => rfl
  constructor
  · have fits : (decide (f.type = .uuid) || pgFieldType f.type == .text) = true := by
      cases kind : f.type with
      | int => rw [kind] at textual; cases textual
      | blob => rw [kind] at textual; cases textual
      | string => rfl
      | uuid => rfl
    unfold PgTerm.accepted
    dsimp only
    rw [type]
    dsimp only
    rw [fits, text, normal_like like]
    rfl
  · intro kept whole entity
    rw [normal_like like] at whole
    cases whole
    rcases entity.fieldOf found with ⟨held, here, holds⟩
    have column : columnValue (pgColumns schema) (storedRow schema entity.values) f.name = .text held.asBytes := by
      rw [columnValue_pg, findField_name found, here, holds.text textual]
      rfl
    unfold PgTerm.holds
    dsimp only
    rw [column, text]
    dsimp only
    rw [pgLike_escapeLikePattern, condMatches_like here like, textual, Bool.true_and]

theorem false_means {cond : QueryCond} {f : Field} (found : findField schema cond.field = some f) (like : cond.op = .like)
    (other : ¬ f.type.textual = true) : PgTerm.false_.Means schema locale params cond := by
  constructor
  · rw [normal_like like]
    rfl
  · intro kept whole entity
    rw [normal_like like] at whole
    cases whole
    rcases entity.fieldOf found with ⟨held, here, _⟩
    rw [condMatches_like here like, Bool.eq_false_iff.mpr other]
    rfl

/-- Every `$k` is the value of its own condition. -/
theorem pgConditions_spec (locale : Bytes → Bytes → Ordering) {conditions : List QueryCond}
    (typed : ∀ cond ∈ conditions, ∃ f, findField schema cond.field = some f ∧ f.Takes cond.op cond.value) (before : List PgParam) :
    ∃ terms own, pgConditions schema before.length conditions = some (terms, own) ∧
      ∀ behind, TermsMean schema locale (before ++ own ++ behind) terms conditions := by
  induction conditions generalizing before with
  | nil => exact ⟨[], [], rfl, fun _ => .nil⟩
  | cons cond conditions ih =>
    have later := ih fun other member => typed other (List.mem_cons_of_mem _ member)
    rcases typed cond (List.mem_cons_self ..) with ⟨f, found, takes⟩
    have bound : ∀ param, ∃ terms own, pgConditions schema (before.length + 1) conditions = some (terms, own) ∧
        ∀ behind, TermsMean schema locale (before ++ (param :: own) ++ behind) terms conditions ∧
          (before ++ (param :: own) ++ behind)[before.length + 1 - 1]? = some param := by
      intro param
      rcases later (before ++ [param]) with ⟨terms, own, made, means⟩
      rw [List.length_append, List.length_singleton] at made
      refine ⟨terms, own, made, fun behind => ⟨?_, ?_⟩⟩
      · have mean := means behind
        rwa [List.append_assoc before, List.singleton_append] at mean
      · rw [Nat.add_sub_cancel, List.append_assoc, List.getElem?_append_right (Nat.le_refl _), Nat.sub_self]
        rfl
    unfold pgConditions
    rw [found]
    dsimp only [Option.bind_eq_bind, Option.bind_some]
    by_cases like : cond.op = .like
    · rw [if_pos like]
      by_cases textual : f.type.textual = true
      · rcases bound (paramsSet f (.text (escapeLikePattern cond.value.asBytes))) with ⟨terms, own, made, means⟩
        rw [if_neg (not_not_intro textual), made]
        exact ⟨_, _, rfl, fun behind => .cons (like_means found like textual (means behind).2) (means behind).1⟩
      · rcases later before with ⟨terms, own, made, means⟩
        rw [if_pos textual, made]
        exact ⟨_, _, rfl, fun behind => .cons (false_means found like textual) (means behind)⟩
    · rcases bound (paramsSet f cond.value) with ⟨terms, own, made, means⟩
      rw [if_neg like, made]
      exact ⟨_, _, rfl, fun behind => .cons (compare_means found like takes (means behind).2) (means behind).1⟩

end Conditions

/-! ## Order and page -/

section
variable {schema : Schema} (locale : Bytes → Bytes → Ordering)

theorem pgSorts_spec {sorts : List QuerySort} (typed : ∀ sort ∈ sorts, ∃ f, findField schema sort.field = some f) :
    ∃ orderBy, sorts.mapM (pgSort schema) = some orderBy ∧ orderBy.all (PgSort.accepted (pgColumns schema)) = true ∧
      ∀ a b : Entity schema,
        pgOrderRows locale (pgColumns schema) orderBy (storedRow schema a.values) (storedRow schema b.values) =
          orderRows schema.columns sorts (storedRow schema a.values) (storedRow schema b.values) := by
  induction sorts with
  | nil => exact ⟨[], rfl, rfl, fun _ _ => rfl⟩
  | cons sort sorts ih =>
    rcases typed sort (List.mem_cons_self ..) with ⟨f, found⟩
    rcases ih fun other member => typed other (List.mem_cons_of_mem _ member) with ⟨orderBy, made, accepted, orders⟩
    have one : pgSort schema sort = some ⟨f.name, f.type = .string, sort.direction⟩ := by
      unfold pgSort
      rw [found]
      rfl
    have type : columnType (pgColumns schema) f.name = some (pgFieldType f.type) := by
      rw [findField_name found]
      exact columnType_eq found
    refine ⟨⟨f.name, f.type = .string, sort.direction⟩ :: orderBy, ?_, ?_, ?_⟩
    · rw [List.mapM_cons, one, made]
      rfl
    · have collates : (!decide (f.type = .string) || pgFieldType f.type == .text) = true := by
        cases f.type <;> rfl
      rw [List.all_cons, accepted, Bool.and_true]
      unfold PgSort.accepted
      dsimp only
      rw [type]
      exact collates
    · intro a b
      have column : ∀ entity : Entity schema, columnValue (pgColumns schema) (storedRow schema entity.values) f.name =
          columnValue schema.columns (storedRow schema entity.values) sort.field := by
        intro entity
        rw [columnValue_pg, columnValue_storedRow, findField_name found]
      unfold pgOrderRows orderRows
      dsimp only
      rw [type, orders, column a, column b]
      dsimp only [Option.getD_some]
      rw [order_collated]

theorem given_long {params : List PgParam} {k : Nat} {n : Int64} (at_ : params[k - 1]? = some (.text (decimalInt n.toInt))) :
    given params k .bigint = some (.integer n.toInt) := by
  have read : integerIn 64 (decimalInt n.toInt) = some n.toInt := integerIn_decimalInt n.le_toInt n.toInt_lt
  unfold given
  rw [at_]
  show (integerIn 64 (decimalInt n.toInt)).map Value.integer = _
  rw [read]
  rfl

theorem limitRows_none (offset : Int) (rows : List Row) : limitRows none offset rows = pageOf (-1) offset rows :=
  (pageOf_unset (by decide) offset rows).symm

theorem pageOf_limit_unset {α : Type} {limit : Int} (unset : limit < 0) (offset : Int) (s : List α) :
    pageOf limit offset s = pageOf (-1) offset s := by
  rw [pageOf_unset unset, pageOf_unset (by decide)]

theorem pgSelect_limits {q : Query} {st : PgSelect} {own params : List PgParam}
    (made : params = own ++ (if q.limit ≥ 0 then [.text (decimalInt q.limit.toInt)] else []) ++
      (if q.offset ≥ 0 then [.text (decimalInt q.offset.toInt)] else []))
    (limit : st.limit = if q.limit ≥ 0 then some (own.length + 1) else none)
    (offset : st.offset = if q.offset ≥ 0 then
      some (own.length + (if q.limit ≥ 0 then [PgParam.text (decimalInt q.limit.toInt)] else []).length + 1) else none) :
    st.limit.all (fun k => (given params k .bigint).isSome) = true ∧
      st.offset.all (fun k => (given params k .bigint).isSome) = true ∧
        ∀ rows, st.page params rows = pageOf q.limit.toInt q.offset.toInt rows := by
  have limits : q.limit ≥ 0 → given params (own.length + 1) .bigint = some (.integer q.limit.toInt) := by
    intro set
    apply given_long
    rw [made, if_pos set, Nat.add_sub_cancel, List.append_assoc, List.getElem?_append_right (Nat.le_refl _), Nat.sub_self]
    rfl
  have offsets : q.offset ≥ 0 → given params
      (own.length + (if q.limit ≥ 0 then [PgParam.text (decimalInt q.limit.toInt)] else []).length + 1) .bigint =
        some (.integer q.offset.toInt) := by
    intro set
    apply given_long
    rw [made, if_pos set, Nat.add_sub_cancel, ← List.length_append, List.getElem?_append_right (Nat.le_refl _), Nat.sub_self]
    rfl
  refine ⟨?_, ?_, ?_⟩
  · rw [limit]
    by_cases set : q.limit ≥ 0
    · rw [if_pos set, Option.all_some, limits set]
      rfl
    · rw [if_neg set]
      rfl
  · rw [offset]
    by_cases set : q.offset ≥ 0
    · rw [if_pos set, Option.all_some, offsets set]
      rfl
    · rw [if_neg set]
      rfl
  · intro rows
    have from_ : (st.offset.map fun k => ((given params k .bigint).map Value.number).getD 0).getD 0 =
        if q.offset ≥ 0 then q.offset.toInt else 0 := by
      rw [offset]
      by_cases set : q.offset ≥ 0
      · rw [if_pos set, if_pos set, Option.map_some, offsets set]
        rfl
      · rw [if_neg set, if_neg set]
        rfl
    have start : ∀ amount, pageOf amount (if q.offset ≥ 0 then q.offset.toInt else 0) rows = pageOf amount q.offset.toInt rows := by
      intro amount
      by_cases set : q.offset ≥ 0
      · rw [if_pos set]
      · rw [if_neg set]
        rw [nonneg_iff] at set
        exact pageOf_from _ (by omega) _
    unfold PgSelect.page
    dsimp only
    rw [from_, limit]
    by_cases set : q.limit ≥ 0
    · rw [if_pos set, Option.map_some, limits set]
      exact (limitRows_eq _ _ _).trans (start _)
    · rw [if_neg set, Option.map_none, limitRows_none, start]
      rw [nonneg_iff] at set
      exact (pageOf_limit_unset (by omega) _ _).symm

end

/-! ## Queries -/

section Queries
variable {schema : Schema} {q : Query} {stored : List (Entity schema)}

/-- The entities that match, in an order that the sort keys allow. -/
structure Query.Orders (q : Query) (stored s : List (Entity schema)) : Prop where
  perm : s.Perm (stored.filter fun entity => queryMatches schema q entity.values)
  sorted : s.Pairwise fun a b => sortCmp schema q.sorts a.values b.values ≤ 0

theorem memory_answers_iff {s out : List (List FieldValue)} : q.Answers schema (stored.map (·.values)) s out ↔
    ∃ es : List (Entity schema), q.Orders stored es ∧ s = es.map (·.values) ∧
      out = (pageOf q.limit.toInt q.offset.toInt es).map (·.values) := by
  have lifted : s.Perm ((stored.map (·.values)).filter (queryMatches schema q)) ↔ ∃ es : List (Entity schema),
      s = es.map (·.values) ∧ es.Perm (stored.filter fun entity => queryMatches schema q entity.values) := by
    rw [List.filter_map]
    exact iff_of_eq (congrFun (congrFun (List.eq_map_comp_perm _) s) _).symm
  constructor
  · intro answers
    rcases lifted.mp answers.perm with ⟨es, rfl, perm⟩
    refine ⟨es, ⟨perm, List.pairwise_map.mp answers.sorted⟩, rfl, ?_⟩
    rw [answers.page, queryPage_eq, pageOf_map]
  · rintro ⟨es, orders, rfl, rfl⟩
    refine ⟨lifted.mpr ⟨es, rfl, orders.perm⟩, List.pairwise_map.mpr orders.sorted, ?_⟩
    rw [queryPage_eq, pageOf_map]

theorem server_answers_iff {locale : Bytes → Bytes → Ordering} {st : PgSelect} {params : List PgParam}
    (typed : ∀ sort ∈ q.sorts, ∃ f, findField schema sort.field = some f)
    (tests : ∀ entity : Entity schema, st.where_.all (PgTerm.holds locale (pgColumns schema) params (storedRow schema entity.values)) =
      queryMatches schema q entity.values)
    (orders : ∀ a b : Entity schema,
      pgOrderRows locale (pgColumns schema) st.orderBy (storedRow schema a.values) (storedRow schema b.values) =
        orderRows schema.columns q.sorts (storedRow schema a.values) (storedRow schema b.values))
    (pages : ∀ rows, st.page params rows = pageOf q.limit.toInt q.offset.toInt rows) {rows out : List Row} :
    st.Answers locale (pgColumns schema) params (stored.map fun entity => storedRow schema entity.values) rows out ↔
      ∃ es : List (Entity schema), q.Orders stored es ∧ rows = es.map (fun entity => storedRow schema entity.values) ∧
        out = (pageOf q.limit.toInt q.offset.toInt es).map fun entity => storedRow schema entity.values := by
  have lifted : rows.Perm ((stored.map fun entity => storedRow schema entity.values).filter fun row =>
      st.where_.all (PgTerm.holds locale (pgColumns schema) params row)) ↔ ∃ es : List (Entity schema),
        rows = es.map (fun entity => storedRow schema entity.values) ∧
          es.Perm (stored.filter fun entity => queryMatches schema q entity.values) := by
    have kept : stored.filter ((fun row => st.where_.all (PgTerm.holds locale (pgColumns schema) params row)) ∘
        fun entity => storedRow schema entity.values) = stored.filter fun entity => queryMatches schema q entity.values :=
      List.filter_congr fun entity _ => tests entity
    rw [List.filter_map, kept]
    exact iff_of_eq (congrFun (congrFun (List.eq_map_comp_perm _) rows) _).symm
  have order : ∀ a b : Entity schema, (pgOrderRows locale (pgColumns schema) st.orderBy (storedRow schema a.values)
      (storedRow schema b.values)).isLE = true ↔ sortCmp schema q.sorts a.values b.values ≤ 0 := by
    intro a b
    rw [orders, ← sortCmp_order q.sorts typed, isLE_iff]
  constructor
  · intro answers
    rcases lifted.mp answers.perm with ⟨es, rfl, perm⟩
    refine ⟨es, ⟨perm, ?_⟩, rfl, ?_⟩
    · exact (List.pairwise_map.mp answers.ordered).imp fun {a b} le => (order a b).mp le
    · rw [answers.page, pages, pageOf_map]
  · rintro ⟨es, found, rfl, rfl⟩
    refine ⟨lifted.mpr ⟨es, rfl, found.perm⟩, ?_, ?_⟩
    · exact List.pairwise_map.mpr (found.sorted.imp fun {a b} le => (order a b).mpr le)
    · rw [pages, pageOf_map]

theorem map_pgRead (es : List (Entity schema)) :
    (es.map fun entity => storedRow schema entity.values).map (pgRead schema (pgColumns schema)) = es.map (·.values) := by
  rw [List.map_map]
  exact List.map_congr_left fun entity _ => pgRead_storedRow entity

/-- A table that the backend has made, with the rows of these entities. -/
structure PgKeeps (schema : Schema) (t : Table) (stored : List (Entity schema)) : Prop where
  columns : t.columns = pgColumns schema
  rows : t.rows = stored.map fun entity => storedRow schema entity.values

theorem pgSelect_spec (locale : Bytes → Bytes → Ordering) (typed : q.WellTyped schema) :
    ∃ st params, pgSelect schema q = some (st, params) ∧ st.accepted (pgColumns schema) params = (q.normal schema).isSome ∧
      ∀ normal, q.normal schema = some normal → ∀ (stored : List (Entity schema)) (rows out : List Row),
        st.Answers locale (pgColumns schema) params (stored.map fun entity => storedRow schema entity.values) rows out ↔
          ∃ es : List (Entity schema), normal.Orders stored es ∧ rows = es.map (fun entity => storedRow schema entity.values) ∧
            out = (pageOf normal.limit.toInt normal.offset.toInt es).map fun entity => storedRow schema entity.values := by
  rcases pgConditions_spec locale typed.conditions [] with ⟨terms, own, conditions, means⟩
  rcases pgSorts_spec locale typed.sorts with ⟨orderBy, sorts, sortable, orders⟩
  let limits : List PgParam := if q.limit ≥ 0 then [.text (decimalInt q.limit.toInt)] else []
  let offsets : List PgParam := if q.offset ≥ 0 then [.text (decimalInt q.offset.toInt)] else []
  let st : PgSelect := { columns := columnList schema, table := schema.name, where_ := terms, orderBy,
                         limit := if q.limit ≥ 0 then some (own.length + 1) else none,
                         offset := if q.offset ≥ 0 then some (own.length + limits.length + 1) else none }
  have made : pgSelect schema q = some (st, own ++ limits ++ offsets) := by
    rw [List.length_nil] at conditions
    unfold pgSelect
    rw [conditions]
    dsimp only [Option.bind_eq_bind, Option.bind_some]
    rw [sorts]
    rfl
  have mean := means (limits ++ offsets)
  rw [List.nil_append, ← List.append_assoc] at mean
  rcases @pgSelect_limits q st own (own ++ limits ++ offsets) rfl rfl rfl with ⟨limit, offset, pages⟩
  have known : (columnList schema).all (fun name => (columnType (pgColumns schema) name).isSome) = true := by
    apply List.all_eq_true.mpr
    intro name member
    rcases List.mem_map.mp member with ⟨f, inside, rfl⟩
    rw [columnType_eq (findField_of_mem inside)]
    rfl
  refine ⟨st, _, made, ?_, ?_⟩
  · unfold PgSelect.accepted
    rw [known, mean.accepted, sortable, limit, offset, Bool.true_and, Bool.and_true, Bool.and_true, Bool.and_true]
    unfold Query.normal
    rw [Option.isSome_map]
  · intro normal spelled stored rows out
    rcases Option.map_eq_some_iff.mp spelled with ⟨kept, conditions_, rfl⟩
    exact @server_answers_iff schema { q with conditions := kept } stored locale st _ typed.sorts (mean.holds kept conditions_)
      orders pages rows out

end Queries

end BlueBird.Persist
