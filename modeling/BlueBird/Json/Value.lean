import BlueBird.Bytes
import BlueBird.Collections.OrderedMap
import BlueBird.Memory.CString

namespace BlueBird

/-- `bb_json_t`. Texts and keys are C strings, without their NUL; a text that has not been set has
    none. The entries of an object stand in the order of its `order_next` links, and `R` stands for
    `float`. -/
inductive Json (R : Type) where
  | null
  | bool (value : Bool)
  | int (value : Int32)
  | real (value : R)
  | text (value : Option Bytes)
  | array (items : List (Json R))
  | object (entries : List (Bytes × Json R))

/-- What `json.c` needs of `float`: `strtof` with the text at its `end`, whether a value is beyond
    `FLT_MAX` on either side, `format_real`, and `==`. -/
class Reals (R : Type) where
  strtof : Bytes → R × Bytes
  infinite : R → Bool
  formatReal : R → Bytes
  equal : R → R → Bool

namespace Json

variable {R : Type}

def cString (buffer : Bytes) : Bytes := buffer.takeWhile (· ≠ 0)

theorem cString_clean (buffer : Bytes) : 0 ∉ cString buffer := Memory.clean_takeWhile buffer

theorem cString_of_clean {s : Bytes} (clean : 0 ∉ s) : cString s = s := Memory.takeWhile_clean clean

/-- `bb_json_object_set_value`: a key that is there keeps its node. -/
def objectSetValue (entries : List (Bytes × Json R)) (key : Bytes) (value : Json R) : List (Bytes × Json R) :=
  OrderedMap.set entries key value

def objectGetValue (entries : List (Bytes × Json R)) (key : Bytes) : Option (Json R) :=
  OrderedMap.get? entries key

variable [Reals R]

mutual

/-- `bb_json_equal` of two values; the source does not say what comes of a text that is not set. -/
def equal : Json R → Json R → Bool
  | null, null => true
  | bool a, bool b => a == b
  | int a, int b => a == b
  | real a, real b => Reals.equal a b
  | text (some a), text (some b) => cString a == cString b
  | array a, array b => a.length == b.length && equalItems a b
  | object a, object b => a.length == b.length && equalEntries a b
  | _, _ => false

def equalItems : List (Json R) → List (Json R) → Bool
  | a :: as, b :: bs => equal a b && equalItems as bs
  | _, _ => true

def equalEntries : List (Bytes × Json R) → List (Bytes × Json R) → Bool
  | [], _ => true
  | (key, value) :: entries, others =>
    (match objectGetValue others key with
    | some other => equal value other
    | none => false) && equalEntries entries others

end

end Json
end BlueBird
