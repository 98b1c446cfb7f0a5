import BlueBird.Json.Acceptance
import BlueBird.Json.RoundTrip
import BlueBird.Persist.JsonModel
import BlueBird.Stream.BigEndian

/-! Entities as structs in memory, to JSON and back. -/

namespace BlueBird.Persist

/-- The bytes from a struct's address on. -/
abbrev Storage : Type := Nat → Byte

def Storage.window (m : Storage) (offset size : Nat) : Bytes := (List.range size).map fun i => m (offset + i)

def Storage.place (m : Storage) (offset : Nat) (bytes : Bytes) : Storage :=
  fun i => if offset ≤ i ∧ i < offset + bytes.length then bytes.getD (i - offset) 0 else m i

structure StructField extends Field where
  offset : Nat
  deriving DecidableEq

def StructField.extent (f : StructField) : Nat :=
  match f.type with
  | .int => 4
  | _ => f.size

/-- The fields of a `bb_schema_t`: their names differ, and so do their places in the struct. -/
structure StructSchema where
  fields : List StructField
  structSize : Nat
  distinct : (fields.map (·.name)).Nodup
  spelled : ∀ f ∈ fields, (0 : Byte) ∉ nameBytes f.name
  inside : ∀ f ∈ fields, f.offset + f.extent ≤ structSize
  apart : fields.Pairwise fun f g => f.offset + f.extent ≤ g.offset ∨ g.offset + g.extent ≤ f.offset

/-- An `int` in memory, its least byte first. -/
def intBytes (n : Int32) : Bytes := (BigEndian.encode n.toUInt32.toNat 4).reverse
def intOf (bytes : Bytes) : Int32 := (UInt32.ofNat (BigEndian.decode bytes.reverse)).toInt32

/-- What a field holds, unless it is a text without an end. -/
def valueAt (m : Storage) (f : StructField) : Option FieldValue :=
  let bytes := m.window f.offset f.extent
  match f.type with
  | .int => some (.int (intOf bytes))
  | .string | .uuid => if (0 : Byte) ∈ bytes then some (.text (cString bytes)) else none
  | .blob => some (.blob bytes)

variable {R : Type}

/-- The loop of `bb_entity_to_json`; there is no result where it reads past the end of a field. -/
def entityLoop (m : Storage) : List StructField → List (Bytes × Json R) → Option (List (Bytes × Json R))
  | [], obj => some obj
  | f :: fields, obj =>
    (valueAt m f).bind fun value =>
      match fieldToJson f.toField value with
      | some val => entityLoop m fields (Json.objectSetValue obj (nameBytes f.name) val)
      | none => entityLoop m fields obj

def structToJson (schema : StructSchema) (m : Storage) : Option (Json R) :=
  (entityLoop m schema.fields []).map .object

/-- `bb_persist_copy_text_field` with all that it writes. -/
def placeText (out : Storage) (f : StructField) (text : Option Bytes) : Storage :=
  let kept := copyTextField f.size text
  out.place f.offset (kept ++ List.replicate (f.size - kept.length) 0)

/-- The loop of `bb_json_to_entity`. -/
def structLoop (entries : List (Bytes × Json R)) : List StructField → Storage → Storage × Int
  | [], out => (out, 0)
  | f :: fields, out =>
    match Json.objectGetValue entries (nameBytes f.name) with
    | none => structLoop entries fields out
    | some val =>
      match f.type with
      | .int =>
        match val with
        | .int n => structLoop entries fields (out.place f.offset (intBytes n))
        | _ => (out, -1)
      | .string | .uuid =>
        match val with
        | .text text => structLoop entries fields (placeText out f text)
        | _ => (out, -1)
      | .blob => structLoop entries fields out

def jsonToStruct (schema : StructSchema) (json : Json R) (out : Storage) : Storage × Int :=
  match json with
  | .object entries => structLoop entries schema.fields (out.place 0 (List.replicate schema.structSize 0))
  | _ => (out, -1)

/-! ## Memory -/

section
variable (m : Storage) {offset size : Nat}

theorem length_window : (m.window offset size).length = size := by
  unfold Storage.window
  rw [List.length_map, List.length_range]

theorem window_congr {m other : Storage} (same : ∀ i, offset ≤ i → i < offset + size → m i = other i) :
    m.window offset size = other.window offset size := by
  apply List.map_congr_left
  intro i inside
  exact same _ (Nat.le_add_right _ _) (Nat.add_lt_add_left (List.mem_range.mp inside) _)

theorem window_place (bytes : Bytes) : (m.place offset bytes).window offset bytes.length = bytes := by
  apply List.ext_getElem?
  intro i
  unfold Storage.window
  rw [List.getElem?_map]
  by_cases inside : i < bytes.length
  · rw [List.getElem?_range inside, List.getElem?_eq_getElem inside]
    show some (if offset ≤ offset + i ∧ offset + i < offset + bytes.length then _ else _) = _
    rw [if_pos ⟨Nat.le_add_right _ _, Nat.add_lt_add_left inside _⟩, Nat.add_sub_cancel_left,
      List.getD_eq_getElem?_getD, List.getElem?_eq_getElem inside]
    rfl
  · rw [List.getElem?_eq_none (by rw [List.length_range]; omega), List.getElem?_eq_none (by omega)]
    rfl

theorem place_apart {bytes : Bytes} {i : Nat} (apart : i < offset ∨ offset + bytes.length ≤ i) :
    m.place offset bytes i = m i := if_neg (by omega)

theorem window_zeroed (structSize : Nat) (inside : offset + size ≤ structSize) :
    (m.place 0 (List.replicate structSize 0)).window offset size = List.replicate size 0 := by
  apply List.ext_getElem?
  intro i
  unfold Storage.window
  rw [List.getElem?_map, List.getElem?_replicate]
  by_cases within : i < size
  · rw [List.getElem?_range within, if_pos within]
    show some (if 0 ≤ offset + i ∧ offset + i < 0 + (List.replicate structSize (0 : Byte)).length then _ else _) = _
    rw [if_pos (by rw [List.length_replicate]; omega), List.getD_eq_getElem?_getD, List.getElem?_replicate]
    split <;> rfl
  · rw [List.getElem?_eq_none (by rw [List.length_range]; omega), if_neg within]
    rfl

end

theorem intOf_intBytes (n : Int32) : intOf (intBytes n) = n := by
  unfold intOf intBytes
  rw [List.reverse_reverse, BigEndian.decode_encode _ _ n.toUInt32.toNat_lt, UInt32.ofNat_toNat, Int32.toInt32_toUInt32]

theorem length_intBytes (n : Int32) : (intBytes n).length = 4 := by
  unfold intBytes
  rw [List.length_reverse, BigEndian.length_encode]

/-! ## One field -/

theorem valueAt_congr {m other : Storage} {f : StructField}
    (same : ∀ i, f.offset ≤ i → i < f.offset + f.extent → m i = other i) : valueAt m f = valueAt other f := by
  unfold valueAt
  rw [window_congr same]

theorem textual_extent {f : StructField} (textual : f.type.textual = true) : f.extent = f.size := by
  unfold StructField.extent
  cases type : f.type with
  | int =>
    rw [type] at textual
    cases textual
  | string => rfl
  | uuid => rfl
  | blob => rfl

/-- What the struct is given for a field that is no blob, and how far that goes. -/
def placed (out : Storage) (f : StructField) : FieldValue → Storage
  | .int n => out.place f.offset (intBytes n)
  | .text text => placeText out f (some text)
  | .blob _ => out

theorem valueAt_text {m : Storage} {f : StructField} (textual : f.type.textual = true) :
    valueAt m f = if (0 : Byte) ∈ m.window f.offset f.size then some (.text (cString (m.window f.offset f.size))) else none := by
  unfold valueAt
  rw [textual_extent textual]
  cases type : f.type with
  | int =>
    rw [type] at textual
    cases textual
  | string => rfl
  | uuid => rfl
  | blob =>
    rw [type] at textual
    cases textual

theorem cString_padded {text : Bytes} (clean : 0 ∉ text) (count : Nat) :
    cString (text ++ 0 :: List.replicate count 0) = text :=
  Memory.takeWhile_ended clean fun _ first => (Option.some.inj first).symm

theorem cString_short {bytes : Bytes} (ends : (0 : Byte) ∈ bytes) : 0 ∉ cString bytes ∧ (cString bytes).length < bytes.length := by
  have clean : 0 ∉ cString bytes := Memory.clean_takeWhile bytes
  refine ⟨clean, ?_⟩
  rcases Nat.lt_or_ge (cString bytes).length bytes.length with short | long
  · exact short
  · have whole : cString bytes = bytes := (List.takeWhile_prefix _).eq_of_length_le long
    rw [whole] at clean
    exact absurd ends clean

theorem valueAt_placeText {out : Storage} {f : StructField} (textual : f.type.textual = true) {text : Bytes}
    (clean : 0 ∉ text) (room : text.length < f.size) : valueAt (placeText out f (some text)) f = some (.text text) := by
  have window : (placeText out f (some text)).window f.offset f.size = text ++ List.replicate (f.size - text.length) 0 := by
    unfold placeText
    rw [copyTextField_fits f.size text clean room]
    have length : (text ++ List.replicate (f.size - text.length) (0 : Byte)).length = f.size := by
      rw [List.length_append, List.length_replicate]
      omega
    have whole := @window_place out f.offset (text ++ List.replicate (f.size - text.length) (0 : Byte))
    rw [length] at whole
    exact whole
  rcases Nat.exists_eq_succ_of_ne_zero (n := f.size - text.length) (by omega) with ⟨count, behind⟩
  rw [behind, List.replicate_succ] at window
  rw [valueAt_text textual, window, if_pos (List.mem_append_right _ List.mem_cons_self), cString_padded clean]

theorem valueAt_int {m : Storage} {f : StructField} (type : f.type = .int) :
    valueAt m f = some (.int (intOf (m.window f.offset 4))) := by
  unfold valueAt StructField.extent
  rw [type]

theorem valueAt_blob {m : Storage} {f : StructField} (type : f.type = .blob) :
    valueAt m f = some (.blob (m.window f.offset f.size)) := by
  unfold valueAt StructField.extent
  rw [type]

theorem valueAt_holds {m : Storage} {f : StructField} {value : FieldValue} (read : valueAt m f = some value) :
    f.toField.Holds value := by
  cases textual : f.type.textual with
  | true =>
    rw [valueAt_text textual] at read
    by_cases ends : (0 : Byte) ∈ m.window f.offset f.size
    · rw [if_pos ends] at read
      rw [← Option.some.inj read]
      have short := cString_short ends
      rw [length_window] at short
      exact ⟨textual, short⟩
    · rw [if_neg ends] at read
      cases read
  | false =>
    cases type : f.type with
    | int =>
      rw [valueAt_int type] at read
      rw [← Option.some.inj read]
      exact type
    | blob =>
      rw [valueAt_blob type] at read
      rw [← Option.some.inj read]
      exact ⟨type, length_window m⟩
    | string =>
      rw [type] at textual
      cases textual
    | uuid =>
      rw [type] at textual
      cases textual

theorem valueAt_placed {out : Storage} {f : StructField} {value : FieldValue} (holds : f.toField.Holds value)
    (other : f.type ≠ .blob) : valueAt (placed out f value) f = some value := by
  cases value with
  | int n =>
    have type : f.type = .int := holds
    have window := @window_place out f.offset (intBytes n)
    rw [length_intBytes] at window
    rw [valueAt_int type]
    show some (FieldValue.int (intOf ((out.place f.offset (intBytes n)).window f.offset 4))) = _
    rw [window, intOf_intBytes]
  | text text => exact valueAt_placeText holds.1 holds.2.1 holds.2.2
  | blob b => exact absurd holds.1 other

theorem placed_apart {out : Storage} {f : StructField} {value : FieldValue} (holds : f.toField.Holds value) {i : Nat}
    (apart : i < f.offset ∨ f.offset + f.extent ≤ i) : placed out f value i = out i := by
  cases value with
  | int n =>
    have type : f.type = .int := holds
    unfold StructField.extent at apart
    rw [type] at apart
    apply place_apart
    rw [length_intBytes]
    exact apart
  | text text =>
    rw [textual_extent holds.1] at apart
    have kept := copyTextField_fits f.size text holds.2.1 holds.2.2
    have room := holds.2.2
    show placeText out f (some text) i = out i
    unfold placeText
    rw [kept]
    apply place_apart
    rw [List.length_append, List.length_replicate]
    omega
  | blob b => rfl

/-! ## The loops -/

def Finds (entries : List (Bytes × Json R)) (value : StructField → FieldValue) (fields : List StructField) : Prop :=
  ∀ f ∈ fields, f.toField.Holds (value f) ∧
    Json.objectGetValue entries (nameBytes f.name) = fieldToJson f.toField (value f)

theorem structLoop_cons {entries : List (Bytes × Json R)} {value : StructField → FieldValue} {f : StructField}
    {fields : List StructField} (finds : Finds entries value (f :: fields)) (out : Storage) :
    structLoop entries (f :: fields) out = structLoop entries fields (placed out f (value f)) := by
  rcases finds f List.mem_cons_self with ⟨holds, found⟩
  rw [structLoop, found]
  generalize value f = v at holds
  unfold fieldToJson
  cases v with
  | int n =>
    have type : f.type = .int := holds
    rw [type]
    rfl
  | text text =>
    cases type : f.type with
    | string => rfl
    | uuid => rfl
    | int =>
      have textual : f.type.textual = true := holds.1
      rw [type] at textual
      cases textual
    | blob =>
      have textual : f.type.textual = true := holds.1
      rw [type] at textual
      cases textual
  | blob b =>
    have type : f.type = .blob := holds.1
    rw [type]
    rfl

theorem structLoop_spec {entries : List (Bytes × Json R)} {value : StructField → FieldValue} (fields : List StructField)
    (finds : Finds entries value fields)
    (apart : fields.Pairwise fun f g => f.offset + f.extent ≤ g.offset ∨ g.offset + g.extent ≤ f.offset) (out : Storage) :
    ∃ after, structLoop entries fields out = (after, 0) ∧
      (∀ i, (∀ f ∈ fields, i < f.offset ∨ f.offset + f.extent ≤ i) → after i = out i) ∧
      ∀ f ∈ fields, valueAt after f = if f.type = .blob then valueAt out f else some (value f) := by
  induction fields generalizing out with
  | nil => exact ⟨out, rfl, fun i _ => rfl, fun f member => by cases member⟩
  | cons f fields ih =>
    rcases List.pairwise_cons.mp apart with ⟨first, rest⟩
    have holds := (finds f List.mem_cons_self).1
    rcases ih (fun g member => finds g (List.mem_cons_of_mem _ member)) rest (placed out f (value f)) with
      ⟨after, result, frame, written⟩
    refine ⟨after, (structLoop_cons finds out).trans result, ?_, ?_⟩
    · intro i outside
      rw [frame i fun g member => outside g (List.mem_cons_of_mem _ member)]
      exact placed_apart holds (outside f List.mem_cons_self)
    · intro g member
      rcases List.mem_cons.mp member with rfl | later
      · have kept : valueAt after g = valueAt (placed out g (value g)) g := by
          apply valueAt_congr
          intro i low high
          apply frame
          intro h inside
          have side := first h inside
          omega
        rw [kept]
        by_cases blob : g.type = .blob
        · rw [if_pos blob]
          cases own : value g with
          | blob b => rfl
          | int n =>
            rw [own] at holds
            have type : g.type = .int := holds
            rw [type] at blob
            cases blob
          | text text =>
            rw [own] at holds
            have textual : g.type.textual = true := holds.1
            rw [blob] at textual
            cases textual
        · rw [if_neg blob]
          exact valueAt_placed holds blob
      · rw [written g later]
        by_cases blob : g.type = .blob
        · rw [if_pos blob, if_pos blob]
          apply valueAt_congr
          intro i low high
          apply placed_apart holds
          have side := first g later
          omega
        · rw [if_neg blob, if_neg blob]

theorem entityLoop_eq {m : Storage} {value : StructField → FieldValue} (fields : List StructField)
    (reads : ∀ f ∈ fields, valueAt m f = some (value f)) (obj : List (Bytes × Json R)) :
    entityLoop m fields obj = some ((entityEntries (fields.map fun f => (f.toField, value f))).foldl
      (fun kept entry => OrderedMap.set kept entry.1 entry.2) obj) := by
  induction fields generalizing obj with
  | nil => rfl
  | cons f fields ih =>
    have later := ih fun g member => reads g (List.mem_cons_of_mem _ member)
    rw [entityLoop, reads f List.mem_cons_self, List.map_cons, entityEntries_cons]
    cases printed : (fieldToJson f.toField (value f) : Option (Json R)) with
    | none =>
      simp only [Option.bind_some, printed]
      exact later obj
    | some val =>
      simp only [Option.bind_some, printed]
      exact later _

/-! ## There and back -/

def Terminated (schema : StructSchema) (m : Storage) : Prop :=
  ∀ f ∈ schema.fields, f.type.textual = true → (0 : Byte) ∈ m.window f.offset f.size

/-- Every `int` and every text is what it was; a blob is zeros. -/
def Restored (schema : StructSchema) (m after : Storage) : Prop :=
  ∀ f ∈ schema.fields, valueAt after f =
    if f.type = .blob then some (.blob (List.replicate f.size 0)) else valueAt m f

/-- From a JSON value the struct is restored, whatever was in the memory it is put into. -/
def Restores (schema : StructSchema) (m : Storage) (json : Json R) : Prop :=
  ∀ out, (jsonToStruct schema json out).2 = 0 ∧ Restored schema m (jsonToStruct schema json out).1

theorem terminated_reads {schema : StructSchema} {m : Storage} (terminated : Terminated schema m) {f : StructField}
    (member : f ∈ schema.fields) : valueAt m f = some ((valueAt m f).getD (.int 0)) := by
  cases type : f.type with
  | int =>
    rw [valueAt_int type]
    rfl
  | blob =>
    rw [valueAt_blob type]
    rfl
  | string =>
    have textual : f.type.textual = true := by rw [type]; rfl
    rw [valueAt_text textual, if_pos (terminated f member textual)]
    rfl
  | uuid =>
    have textual : f.type.textual = true := by rw [type]; rfl
    rw [valueAt_text textual, if_pos (terminated f member textual)]
    rfl

section
variable {schema : StructSchema} {m : Storage}

def fieldValues (schema : StructSchema) (m : Storage) : List (Field × FieldValue) :=
  schema.fields.map fun f => (f.toField, (valueAt m f).getD (.int 0))

theorem fieldValues_names : (fieldValues schema m).map (fun field => field.1.name) = schema.fields.map (·.name) := by
  unfold fieldValues
  rw [List.map_map]
  rfl

theorem fieldValues_distinct : OrderedMap.Distinct (entityEntries (fieldValues schema m) : List (Bytes × Json R)) := by
  have names : ((fieldValues schema m).map fun field => field.1.name).Nodup := by
    rw [fieldValues_names]
    exact schema.distinct
  have keys := names.map (f := nameBytes) fun _ _ same => nameBytes_inj same
  rw [List.map_map] at keys
  exact keys.sublist (entityEntries_keys _)

theorem structToJson_eq (terminated : Terminated schema m) :
    structToJson schema m = some (.object (entityEntries (fieldValues schema m)) : Json R) := by
  unfold structToJson
  rw [entityLoop_eq schema.fields (fun f member => terminated_reads terminated member) []]
  have same := OrderedMap.foldl_set_of_distinct [] (entityEntries (fieldValues schema m) : List (Bytes × Json R))
    (by rw [List.nil_append]; exact fieldValues_distinct)
  rw [List.nil_append] at same
  exact congrArg (fun entries => some (Json.object entries)) same

theorem fieldValues_restores (terminated : Terminated schema m) :
    Restores schema m (.object (entityEntries (fieldValues schema m)) : Json R) := by
  intro out
  have finds : Finds (entityEntries (fieldValues schema m) : List (Bytes × Json R)) (fun f => (valueAt m f).getD (.int 0))
      schema.fields := by
    intro f member
    refine ⟨valueAt_holds (terminated_reads terminated member), ?_⟩
    have inside : (f.toField, (valueAt m f).getD (.int 0)) ∈ fieldValues schema m := List.mem_map_of_mem member
    exact get?_entityEntries (by rw [fieldValues_names]; exact schema.distinct) inside
  rcases structLoop_spec schema.fields finds schema.apart (out.place 0 (List.replicate schema.structSize 0)) with
    ⟨after, result, _, written⟩
  have ran : jsonToStruct schema (.object (entityEntries (fieldValues schema m)) : Json R) out = (after, 0) := result
  rw [ran]
  refine ⟨rfl, ?_⟩
  intro f member
  rw [written f member]
  by_cases blob : f.type = .blob
  · have extent : f.extent = f.size := by
      unfold StructField.extent
      rw [blob]
    have inside := schema.inside f member
    rw [extent] at inside
    rw [if_pos blob, if_pos blob, valueAt_blob blob, window_zeroed _ _ inside]
  · rw [if_neg blob, if_neg blob]
    exact (terminated_reads terminated member).symm

theorem fieldValues_printable (terminated : Terminated schema m) (levels : Nat) :
    Json.Printable (levels + 1) (.object (entityEntries (fieldValues schema m)) : Json R) := by
  have each : ∀ entry ∈ (entityEntries (fieldValues schema m) : List (Bytes × Json R)),
      (0 : Byte) ∉ entry.1 ∧ Json.Printable levels entry.2 := by
    intro entry member
    rcases List.mem_filterMap.mp member with ⟨field, inside, printed⟩
    rcases Option.map_eq_some_iff.mp printed with ⟨v, made, rfl⟩
    rcases List.mem_map.mp inside with ⟨f, declared, rfl⟩
    have holds := valueAt_holds (terminated_reads terminated declared)
    refine ⟨schema.spelled f declared, ?_⟩
    generalize (valueAt m f).getD (.int 0) = value at made holds
    unfold fieldToJson at made
    cases type : f.type with
    | int =>
      simp only [type] at made
      cases made
      exact .int _
    | blob =>
      simp only [type] at made
      cases made
    | string =>
      simp only [type] at made
      cases made
      exact .text (asBytes_clean holds (by rw [type]; rfl))
    | uuid =>
      simp only [type] at made
      cases made
      exact .text (asBytes_clean holds (by rw [type]; rfl))
  exact .object fieldValues_distinct (fun entry member => (each entry member).1) fun entry member => (each entry member).2

end

theorem struct_restores {schema : StructSchema} {m : Storage} (terminated : Terminated schema m) :
    ∃ json : Json R, structToJson schema m = some json ∧ Restores schema m json :=
  ⟨_, structToJson_eq terminated, fieldValues_restores terminated⟩

/-- A struct comes back from its JSON object, and from that object as it is printed and parsed, but for its blobs. -/
theorem struct_roundTrip [Reals R] (numbers : Json.ReadsNumbers R) {schema : StructSchema} {m : Storage}
    (terminated : Terminated schema m) :
    ∃ json : Json R, structToJson schema m = some json ∧ Restores schema m json ∧
      ∀ malloc indent, (Json.render json indent).length + 1 < 2^31 →
        ∃ (buffer : Bytes) (again : Json R), Json.serialize malloc indent json = .ok buffer ∧ Json.parse buffer = .ok again ∧
          Restores schema m again := by
  refine ⟨_, structToJson_eq terminated, fieldValues_restores terminated, ?_⟩
  intro malloc indent small
  rcases (fieldValues_printable terminated 511).reads_back numbers malloc indent small with ⟨buffer, written, read⟩
  exact ⟨buffer, _, written, read, fieldValues_restores terminated⟩

def noteSchema : StructSchema where
  fields := [⟨⟨"id", .int, 4⟩, 0⟩, ⟨⟨"title", .string, 8⟩, 4⟩, ⟨⟨"data", .blob, 4⟩, 12⟩]
  structSize := 16
  distinct := by decide
  spelled := by decide +kernel
  inside := by decide
  apart := by decide

def noteStruct : Storage := fun i => ([7, 0, 0, 0] ++ ascii "a\"b" ++ [0, 9, 9, 9, 9, 1, 2, 3, 4] : Bytes).getD i 0

theorem noteStruct_terminated : Terminated noteSchema noteStruct := by
  unfold Terminated
  decide +kernel

theorem struct_roundTrip_note :
    ∃ json : Json Rat, structToJson noteSchema noteStruct = some json ∧ Restores noteSchema noteStruct json ∧
      ∀ malloc indent, (@Json.render Rat Json.halves json indent).length + 1 < 2^31 →
        ∃ (buffer : Bytes) (again : Json Rat), @Json.serialize Rat Json.halves malloc indent json = .ok buffer ∧
          @Json.parse Rat Json.halves buffer = .ok again ∧ Restores noteSchema noteStruct again :=
  @struct_roundTrip Rat Json.halves (fun _ _ _ _ _ _ _ _ => rfl) noteSchema noteStruct noteStruct_terminated

theorem not_roundTrip_blob : ¬ ∀ schema m, Terminated schema m → ∃ json : Json Rat, structToJson schema m = some json ∧
    ∀ out, ∀ f ∈ schema.fields, valueAt (jsonToStruct schema json out).1 f = valueAt m f := by
  intro all
  rcases all noteSchema noteStruct noteStruct_terminated with ⟨json, made, same⟩
  rcases struct_restores noteStruct_terminated with ⟨other, again, restores⟩
  rw [again] at made
  have member : (⟨⟨"data", .blob, 4⟩, 12⟩ : StructField) ∈ noteSchema.fields := by decide
  have blob := same (fun _ => 0) _ member
  rw [← Option.some.inj made, (restores _).2 _ member] at blob
  exact absurd blob (by decide +kernel)

end BlueBird.Persist
