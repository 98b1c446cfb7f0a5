import BlueBird.Bytes
import BlueBird.Memory.CString
import Mathlib.Data.List.Forall2
import Mathlib.Data.List.Nodup
import Mathlib.Data.List.TakeWhile

namespace BlueBird.Persist

inductive FieldType where
  | int | string | uuid | blob
  deriving DecidableEq, Repr

def FieldType.textual : FieldType → Bool
  | .string | .uuid => true
  | _ => false

structure Field where
  name : String
  type : FieldType
  size : Nat
  deriving DecidableEq, Repr

/-- A schema that `bb_schema_validate` accepts; sizes are such that a cast to `int` keeps them. -/
structure Schema where
  name : String
  fields : List Field
  primaryKeyIndex : Nat
  primaryKey : primaryKeyIndex < fields.length
  sizes : ∀ f ∈ fields, 0 < f.size ∧ f.size < 2 ^ 31
  distinct : (fields.map (·.name)).Nodup

def Schema.pk (schema : Schema) : Field := schema.fields.get ⟨schema.primaryKeyIndex, schema.primaryKey⟩

/-- What a field of an entity holds: an `int`, a string up to its NUL, or all bytes of a blob. -/
inductive FieldValue where
  | int (n : Int32)
  | text (s : Bytes)
  | blob (b : Bytes)
  deriving DecidableEq

def Field.Holds (f : Field) : FieldValue → Prop
  | .int _ => f.type = .int
  | .text s => f.type.textual = true ∧ 0 ∉ s ∧ s.length < f.size
  | .blob b => f.type = .blob ∧ b.length = f.size

structure Entity (schema : Schema) where
  values : List FieldValue
  holds : List.Forall₂ Field.Holds schema.fields values

theorem Entity.length_values {schema : Schema} (entity : Entity schema) :
    entity.values.length = schema.fields.length := entity.holds.length_eq.symm

/-! ## `bb_persist_copy_text_field` -/

def cString (text : Bytes) : Bytes := text.takeWhile (· ≠ 0)

/-- Steps back from a cut inside a UTF-8 character to its first byte. -/
def characterStart (text : Bytes) : Nat → Nat
  | 0 => 0
  | n + 1 => if text.getD (n + 1) 0 &&& 0xC0 = 0x80 then characterStart text n else n + 1

def copyTextField (size : Nat) (text : Option Bytes) : Bytes :=
  if size = 0 then []
  else
    let text := cString (text.getD [])
    let n := if text.length < size then text.length else size - 1
    let n := if n < text.length then characterStart text n else n
    text.take n

theorem cString_eq (text : Bytes) (noNul : 0 ∉ text) : cString text = text := Memory.takeWhile_clean noNul

theorem copyTextField_fits (size : Nat) (text : Bytes) (noNul : 0 ∉ text) (room : text.length < size) :
    copyTextField size (some text) = text := by
  have positive : size ≠ 0 := by omega
  simp [copyTextField, positive, cString_eq text noNul, room]

theorem copyTextField_one (text : Option Bytes) : copyTextField 1 text = [] := by
  unfold copyTextField
  generalize cString (text.getD []) = bytes
  dsimp only
  rw [if_neg (by decide)]
  split
  · rename_i short
    have empty : bytes.length = 0 := by omega
    simp [empty]
  · split <;> simp [characterStart]

end BlueBird.Persist
