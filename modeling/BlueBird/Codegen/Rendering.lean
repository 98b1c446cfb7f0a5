import BlueBird.Codegen.OneTable
import BlueBird.Encoding.CDeclaration

namespace BlueBird.Codegen

open BlueBird.CDeclaration (Declaration keywords readDeclaration readDisjunction)
open BlueBird.CLiteral (Plain)
open BlueBird.Http (decimal)
open BlueBird.Migrate (entriesOf textOf flagOf fieldsOf tableOf fieldName fieldType fieldKey isObject)

variable {R : Type}

/-! ## What the generated source says of a manifest -/

inductive TypeDenotes (f : Json R) (view : FieldView) : Prop where
  | int : fieldType f = some (ascii "int") → view.typeEnum = .int → view.sizeExpr = ascii "sizeof(int)" →
      readDeclaration view.cDecl = some { type := [ascii "int"], name := view.name, count := none } → TypeDenotes f view
  | uuid : fieldType f = some (ascii "uuid") → view.typeEnum = .uuid → view.sizeExpr = ascii "BB_UUID_BUF_LEN" →
      readDeclaration view.cDecl = some { type := [ascii "bb_uuid_t"], name := view.name, count := none } → TypeDenotes f view
  | string (n : Nat) : fieldType f = some (ascii "string") → sizeOf f = some n → view.typeEnum = .string →
      CDeclaration.constant view.sizeExpr = some n →
      readDeclaration view.cDecl = some { type := [ascii "char"], name := view.name, count := some n } → TypeDenotes f view
  | blob (n : Nat) : fieldType f = some (ascii "blob") → sizeOf f = some n → view.typeEnum = .blob →
      CDeclaration.constant view.sizeExpr = some n →
      readDeclaration view.cDecl = some { type := [ascii "unsigned", ascii "char"], name := view.name, count := some n } →
      TypeDenotes f view

def flagNames (f : Json R) : List Bytes :=
  let flags := [("primary_key", "BB_FIELD_PRIMARY_KEY"), ("required", "BB_FIELD_REQUIRED"), ("unique", "BB_FIELD_UNIQUE"),
    ("auto_generate", "BB_FIELD_AUTO_GENERATE")].filter fun flag => flagOf f (ascii flag.1)
  if flags = [] then [ascii "BB_FIELD_NONE"] else flags.map fun flag => ascii flag.2

/-- The object under `references`. -/
def referenceOf (f : Json R) : Option (Json R) := (Json.objectGetValue (entriesOf f) (ascii "references")).filter isObject

structure FieldDenotes (f : Json R) (view : FieldView) : Prop where
  named : fieldName f = some view.name
  literal : readName view.nameLiteral = some view.name
  typed : TypeDenotes f view
  flags : readDisjunction view.flagsExpr = some (flagNames f)
  free : referenceOf f = none → view.referencesSchemaExpr = ascii "NULL" ∧ view.referencesFieldExpr = ascii "NULL"
  refers : ∀ references, referenceOf f = some references → ∃ schema field,
    textOf references (ascii "schema") = some schema ∧ textOf references (ascii "field") = some field ∧
      readName view.referencesSchemaExpr = some schema ∧ readName view.referencesFieldExpr = some field

/-- The view denotes the manifest, string by string and declaration by declaration. -/
structure Denotes (manifest : Json R) (view : ViewModel) : Prop where
  named : textOf manifest (ascii "name") = some view.structName
  identifier : view.structName ∉ keywords
  table : ∃ table, tableOf manifest = some table ∧ readName view.tableNameLiteral = some table
  fields : ∃ fields, fieldsOf manifest = some fields ∧ List.Forall₂ FieldDenotes fields view.fields ∧
    view.fieldCount = fields.length ∧ view.primaryKeyIndex < fields.length ∧
      ∀ i f, fields[i]? = some f → (fieldKey f = true ↔ i = view.primaryKeyIndex)

/-! ## What can be rendered -/

/-- A text that the buffer holds with its quotes, and that needs no escape. -/
def FitsLiteral (s : Bytes) : Prop := s.length ≤ 125 ∧ ∀ c ∈ s, Plain c

instance (s : Bytes) : Decidable (FitsLiteral s) := inferInstanceAs (Decidable (_ ∧ _))

structure FieldFits (f : Json R) : Prop where
  name : ∀ name, fieldName f = some name → name.length ≤ 125 ∧ name ∉ keywords
  references : ∀ references, referenceOf f = some references → ∀ key s, key = ascii "schema" ∨ key = ascii "field" →
    textOf references key = some s → FitsLiteral s

structure Renders (manifest : Json R) : Prop where
  name : ∀ name, textOf manifest (ascii "name") = some name → name ∉ keywords
  table : ∀ table, tableOf manifest = some table → FitsLiteral table
  fields : ∀ fields, fieldsOf manifest = some fields → ∀ f ∈ fields, FieldFits f

/-! ## One field -/

theorem isValidIdentifier_spelled {name : Bytes} (valid : isValidIdentifier name = true) :
    CDeclaration.Spelled CDeclaration.isWordStart name := by
  have later : ∀ c : Byte, (isAlpha c || isDigit c || c == ch '_') = true → CDeclaration.isWord c = true := by
    intro c
    apply forall_byte (motive := fun c => (isAlpha c || isDigit c || c == ch '_') = true → CDeclaration.isWord c = true) _ c
    decide +kernel
  cases name with
  | nil => cases valid
  | cons c rest =>
    rw [isValidIdentifier, Bool.and_eq_true, List.all_eq_true] at valid
    refine ⟨⟨c, rfl, valid.1⟩, ?_⟩
    intro d member
    rcases List.mem_cons.mp member with rfl | behind
    · exact (CDeclaration.wordStart_plain d valid.1).2
    · exact later d (valid.2 d behind)

section Field

variable {path : String} {f : Json R} {view : FieldView} {name : Bytes}

theorem readDeclaration_members (valid : isValidIdentifier name = true) (free : name ∉ keywords) (n : Nat) (positive : 0 < n) :
    readDeclaration (ascii "int " ++ name ++ ascii ";") = some { type := [ascii "int"], name, count := none } ∧
      readDeclaration (ascii "bb_uuid_t " ++ name ++ ascii ";") = some { type := [ascii "bb_uuid_t"], name, count := none } ∧
      readDeclaration (ascii "char " ++ (name ++ ascii "[" ++ decimal n ++ ascii "];")) =
        some { type := [ascii "char"], name, count := some n } ∧
      readDeclaration (ascii "unsigned char " ++ (name ++ ascii "[" ++ decimal n ++ ascii "];")) =
        some { type := [ascii "unsigned", ascii "char"], name, count := some n } := by
  have spelled := isValidIdentifier_spelled valid
  have word : ∀ {text rest : Bytes} {found : List CDeclaration.Token}, CDeclaration.Spelled CDeclaration.isWordStart text →
      CDeclaration.Lexes rest found → CDeclaration.Lexes (text ++ ch ' ' :: rest) (.word text :: found) :=
    fun start later => .word start (fun c first => by cases first; decide) (.space later)
  have array : name ++ ascii "[" ++ decimal n ++ ascii "];" = name ++ (ascii "[" ++ (decimal n ++ ascii "];")) := by
    simp only [List.append_assoc]
  have count := CDeclaration.constant_decimal positive
  have start : ∀ {c : Byte} {rest : Bytes}, (CDeclaration.isWordStart c = true ∧ ∀ d ∈ c :: rest, CDeclaration.isWord d = true) →
      CDeclaration.Spelled CDeclaration.isWordStart (c :: rest) := fun both => ⟨⟨_, rfl, both.1⟩, both.2⟩
  rw [array]
  refine ⟨?_, ?_, ?_, ?_⟩
  · have lexes : CDeclaration.Lexes (ascii "int" ++ ch ' ' :: (name ++ ascii ";")) _ :=
      word (start (by decide +kernel)) (CDeclaration.lexes_member spelled)
    exact (CDeclaration.readDeclaration_of_lexes lexes).trans
      (@CDeclaration.declaration_member [ascii "int"] name (by decide) free)
  · have lexes : CDeclaration.Lexes (ascii "bb_uuid_t" ++ ch ' ' :: (name ++ ascii ";")) _ :=
      word (start (by decide +kernel)) (CDeclaration.lexes_member spelled)
    exact (CDeclaration.readDeclaration_of_lexes lexes).trans
      (@CDeclaration.declaration_member [ascii "bb_uuid_t"] name (by decide) free)
  · have lexes : CDeclaration.Lexes (ascii "char" ++ ch ' ' :: (name ++ (ascii "[" ++ (decimal n ++ ascii "];")))) _ :=
      word (start (by decide +kernel)) (CDeclaration.lexes_array spelled n)
    exact (CDeclaration.readDeclaration_of_lexes lexes).trans
      (@CDeclaration.declaration_array [ascii "char"] name _ n (by decide) free count)
  · have lexes : CDeclaration.Lexes (ascii "unsigned" ++ ch ' ' :: (ascii "char" ++ ch ' ' ::
        (name ++ (ascii "[" ++ (decimal n ++ ascii "];"))))) _ :=
      word (start (by decide +kernel)) (word (start (by decide +kernel)) (CDeclaration.lexes_array spelled n))
    exact (CDeclaration.readDeclaration_of_lexes lexes).trans
      (@CDeclaration.declaration_array [ascii "unsigned", ascii "char"] name _ n (by decide) free count)

theorem printed_whole {text : Bytes} (short : text.length ≤ 255) : printed 256 text = text := List.take_of_length_le short

theorem sizeOf_bounds {n : Nat} (sized : sizeOf f = some n) : 0 < n ∧ (decimal n).length ≤ 10 := by
  unfold sizeOf at sized
  split at sized
  · next m _ =>
    split at sized
    · next positive =>
      cases sized
      have high := m.toInt_lt
      refine ⟨by omega, (Http.decimal_length_le (by decide)).mpr (by omega)⟩
    · cases sized
  · cases sized

theorem typeDenotes_of_shape {name type : Bytes} {shape : Persist.FieldType × Bytes × Bytes}
    (made : fieldShape path f name type = .ok shape) (typed : fieldType f = some type) (valid : isValidIdentifier name = true)
    (short : name.length ≤ 125) (free : name ∉ keywords) (own : view.name = name) (decl : view.cDecl = shape.2.1)
    (enum : view.typeEnum = shape.1) (size : view.sizeExpr = shape.2.2) : TypeDenotes f view := by
  rcases fieldShape_parts made with ⟨rfl, rfl⟩ | ⟨rfl, rfl⟩ | ⟨n, sized, ⟨rfl, rfl⟩ | ⟨rfl, rfl⟩⟩
  · refine .int typed enum size ?_
    rw [decl, own, printed_whole]
    · exact (readDeclaration_members valid free 1 (by decide)).1
    · rw [List.length_append, List.length_append, show (ascii "int ").length = 4 from rfl, show (ascii ";").length = 1 from rfl]
      omega
  · refine .uuid typed enum size ?_
    rw [decl, own, printed_whole]
    · exact (readDeclaration_members valid free 1 (by decide)).2.1
    · rw [List.length_append, List.length_append, show (ascii "bb_uuid_t ").length = 10 from rfl,
        show (ascii ";").length = 1 from rfl]
      omega
  · rcases sizeOf_bounds sized with ⟨positive, digits⟩
    refine .string n typed sized enum (by rw [size]; exact CDeclaration.constant_decimal positive) ?_
    rw [decl, own, printed_whole]
    · exact (readDeclaration_members valid free n positive).2.2.1
    · simp only [List.length_append]
      rw [show (ascii "char ").length = 5 from rfl, show (ascii "[").length = 1 from rfl, show (ascii "];").length = 2 from rfl]
      omega
  · rcases sizeOf_bounds sized with ⟨positive, digits⟩
    refine .blob n typed sized enum (by rw [size]; exact CDeclaration.constant_decimal positive) ?_
    rw [decl, own, printed_whole]
    · exact (readDeclaration_members valid free n positive).2.2.2
    · simp only [List.length_append]
      rw [show (ascii "unsigned char ").length = 14 from rfl, show (ascii "[").length = 1 from rfl,
        show (ascii "];").length = 2 from rfl]
      omega

theorem TypeDenotes.free (typed : TypeDenotes f view) : view.name ∉ keywords := by
  cases typed with
  | int _ _ _ read => exact CDeclaration.readDeclaration_name read
  | uuid _ _ _ read => exact CDeclaration.readDeclaration_name read
  | string _ _ _ _ _ read => exact CDeclaration.readDeclaration_name read
  | blob _ _ _ _ _ read => exact CDeclaration.readDeclaration_name read

theorem referencesOf_parts {references : Bytes × Bytes} (made : referencesOf path f name = .ok references) :
    (referenceOf f = none ∧ references = (ascii "NULL", ascii "NULL")) ∨
      ∃ object schema field, referenceOf f = some object ∧ textOf object (ascii "schema") = some schema ∧
        textOf object (ascii "field") = some field ∧ references = (literalOf 128 schema, literalOf 128 field) := by
  unfold referencesOf at made
  unfold referenceOf
  cases found : (Json.objectGetValue (entriesOf f) (ascii "references")).filter isObject with
  | none =>
    rw [found] at made
    cases made
    exact .inl ⟨rfl, rfl⟩
  | some object =>
    simp only [found] at made
    cases schema : textOf object (ascii "schema") with
    | none => simp [schema] at made
    | some s =>
      cases field : textOf object (ascii "field") with
      | none => simp [schema, field] at made
      | some t =>
        simp only [schema, field] at made
        cases made
        exact .inr ⟨object, s, t, rfl, schema, field, rfl⟩

theorem flagsOf_reads (f : Json R) : readDisjunction (flagsOf f) = some (flagNames f) := by
  unfold flagsOf flagNames
  simp only [List.filter_cons, List.filter_nil]
  cases flagOf f (ascii "primary_key") <;> cases flagOf f (ascii "required") <;> cases flagOf f (ascii "unique") <;>
    cases flagOf f (ascii "auto_generate") <;> decide +kernel

theorem fieldDenotes_iff {index : Nat} (built : buildFieldView path index f = .ok view) : FieldDenotes f view ↔ FieldFits f := by
  rcases buildFieldView_parts built with ⟨name, type, shape, references, named, valid, typed, shaped, referring, rfl⟩
  have clean : 0 ∉ name := textOf_clean named
  constructor
  · intro denotes
    constructor
    · intro other same
      rw [named] at same
      cases same
      exact ⟨((readName_literalOf clean).mp denotes.literal).1, denotes.typed.free⟩
    · intro object found key s which text
      rcases denotes.refers object found with ⟨schema, field, schemaText, fieldText, readSchema, readField⟩
      rcases referencesOf_parts referring with ⟨absent, _⟩ | ⟨own, t, u, present, tText, uText, rfl⟩
      · rw [absent] at found
        cases found
      · rw [present] at found
        cases found
        rw [tText] at schemaText
        rw [uText] at fieldText
        cases schemaText
        cases fieldText
        rcases which with rfl | rfl
        · rw [tText] at text
          cases text
          exact (readName_literalOf (textOf_clean tText)).mp readSchema
        · rw [uText] at text
          cases text
          exact (readName_literalOf (textOf_clean uText)).mp readField
  · intro fits
    rcases fits.name name named with ⟨short, free⟩
    refine ⟨named, (readName_literalOf clean).mpr ⟨short, plain_of_isValidIdentifier valid⟩,
      typeDenotes_of_shape shaped typed valid short free rfl rfl rfl rfl, flagsOf_reads f, ?_, ?_⟩
    · intro absent
      rcases referencesOf_parts referring with ⟨_, rfl⟩ | ⟨object, _, _, present, _⟩
      · exact ⟨rfl, rfl⟩
      · rw [absent] at present
        cases present
    · intro object found
      rcases referencesOf_parts referring with ⟨absent, _⟩ | ⟨own, t, u, present, tText, uText, rfl⟩
      · rw [absent] at found
        cases found
      · rw [present] at found
        cases found
        exact ⟨t, u, tText, uText,
          (readName_literalOf (textOf_clean tText)).mpr (fits.references object present _ t (.inl rfl) tText),
          (readName_literalOf (textOf_clean uText)).mpr (fits.references object present _ u (.inr rfl) uText)⟩

end Field

/-! ## All fields -/

section Fields

variable {path : String} {i : Nat} {key : Option Nat} {fields : List (Json R)} {views : List FieldView} {p : Nat}

theorem fieldsDenote_iff {result : List FieldView × Option Nat} (built : buildFields path i key fields = .ok result) :
    List.Forall₂ FieldDenotes fields result.1 ↔ ∀ f ∈ fields, FieldFits f := by
  induction fields generalizing i key result with
  | nil =>
    cases built
    simp
  | cons f fields ih =>
    rcases buildFields_cons built with ⟨view, key', later, first, _, rest, same⟩
    rw [same, List.forall₂_cons, List.forall_mem_cons, fieldDenotes_iff first]
    exact and_congr_right fun _ => ih rest

theorem buildFields_flags (built : buildFields path i key fields = .ok (views, some p)) (before : ∀ q, key = some q → q < i) :
    ∀ j f, fields[j]? = some f → (fieldKey f = true ↔ i + j = p) := by
  induction fields generalizing i key views with
  | nil => simp
  | cons g fields ih =>
    rcases buildFields_cons built with ⟨view, key', later, _, keyed, rest, _⟩
    intro j f found
    cases j with
    | zero =>
      cases found
      rw [← keyIndex_flag keyed rest before]
      simp
    | succ j =>
      have later := ih rest (keyIndex_before keyed before) j f (by simpa using found)
      rw [later]
      omega

theorem buildFields_index (built : buildFields path i key fields = .ok (views, some p)) (none_ : key = none) :
    p < i + fields.length := by
  induction fields generalizing i key views with
  | nil =>
    cases built
    cases none_
  | cons f fields ih =>
    rcases buildFields_cons built with ⟨view, key', later, _, keyed, rest, _⟩
    rw [List.length_cons]
    rcases keyIndex_ok keyed with ⟨_, _, rfl⟩ | ⟨_, same⟩
    · rw [(buildFields_key rest).1 i rfl]
      omega
    · have inside := ih rest (same.trans none_)
      omega

end Fields

/-! ## One manifest -/

theorem denotes_iff {path : Bytes} {manifest : Json R} {view : ViewModel} (generated : run path (some manifest) = .ok view) :
    Denotes manifest view ↔ Renders manifest := by
  rcases run_ok generated with ⟨isNamed, model⟩
  rcases buildViewModel_ok model with ⟨fields, key, array, built, index, literal, struct, count⟩
  rcases Option.isSome_iff_exists.mp isNamed with ⟨name, named⟩
  rw [named, Option.getD_some] at struct
  have each := fieldsDenote_iff built
  constructor
  · intro denotes
    refine ⟨?_, ?_, ?_⟩
    · intro other same
      rw [named] at same
      cases same
      rw [← struct]
      exact denotes.identifier
    · intro table same
      rcases denotes.table with ⟨own, tabled, read⟩
      rw [same] at tabled
      cases tabled
      rw [literal, tableOf_eq same] at read
      exact (readName_literalOf (tableOf_clean same)).mp read
    · intro others same
      rcases denotes.fields with ⟨own, listed, views, _⟩
      rw [array] at same listed
      cases same
      cases listed
      exact each.mp views
  · intro renders
    have tabled : ∃ table, tableOf manifest = some table := by
      unfold Migrate.tableOf
      rw [named]
      cases textOf manifest (ascii "table") with
      | none => exact ⟨name, rfl⟩
      | some table => exact ⟨table, rfl⟩
    rcases tabled with ⟨table, tabled⟩
    refine ⟨?_, ?_, ⟨table, tabled, ?_⟩, fields, array, each.mpr (renders.fields fields array), count, ?_, ?_⟩
    · rw [named, struct]
    · rw [struct]
      exact renders.name name named
    · rw [literal, tableOf_eq tabled]
      exact (readName_literalOf (tableOf_clean tabled)).mpr (renders.table table tabled)
    · rw [index]
      have inside := buildFields_index built rfl
      omega
    · intro i f found
      rw [buildFields_flags built (by simp) i f found, index, Nat.zero_add]

theorem denotes_tasks : Denotes (taskManifest "tasks" "due") (taskView "tasks" "due") := by
  have generated : run (ascii "schemas/task.json") (some (taskManifest "tasks" "due")) = .ok (taskView "tasks" "due") := rfl
  apply (denotes_iff generated).mpr
  refine ⟨?_, ?_, ?_⟩
  · intro name named
    cases named
    decide
  · intro table tabled
    cases tabled
    decide +kernel
  · intro fields array f member
    cases array
    rcases List.mem_cons.mp member with rfl | member
    · refine ⟨fun name named => ?_, fun object found => (by cases found)⟩
      cases named
      decide
    · rw [List.mem_singleton.mp member]
      refine ⟨fun name named => ?_, fun object found => (by cases found)⟩
      cases named
      decide

/-- The second field is called like a loop. -/
theorem not_denotes_for : ¬ ∀ (path : Bytes) (manifest : Json Nat) (view : ViewModel),
    run path (some manifest) = .ok view → Denotes manifest view := by
  intro all
  have generated : run (ascii "task.json") (some (taskManifest "tasks" "for")) = .ok (taskView "tasks" "for") := rfl
  rcases (all _ _ _ generated).fields with ⟨fields, array, views, _⟩
  cases array
  cases views with
  | cons _ rest =>
    cases rest with
    | cons second _ => exact absurd second.typed.free (by decide)

end BlueBird.Codegen
