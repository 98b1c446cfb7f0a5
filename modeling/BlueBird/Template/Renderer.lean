import BlueBird.Template.Parser
import BlueBird.Json.Serializer

namespace BlueBird.Template

open Json

variable {R : Type}

/-! ## Names -/

/-- `bb_json_object_get_value` of any value. -/
def getValue (key : Bytes) : Json R → Option (Json R)
  | .object entries => objectGetValue entries key
  | _ => none

/-- The token that `strtok` gives, and where it goes on. -/
def strtok (delimiter : Byte) (s : Bytes) : Option (Bytes × Bytes) :=
  let start := s.dropWhile (· = delimiter)
  if start = [] then none
  else some (start.takeWhile (· ≠ delimiter), (start.dropWhile (· ≠ delimiter)).drop 1)

/-- The inner loop of `bb_template_lookup`: every token takes a byte of the copy at least. -/
def resolve : Nat → Bytes → Json R → Option (Json R)
  | 0, _, _ => none
  | fuel + 1, copy, current =>
    match strtok (ch '.') copy with
    | none => some current
    | some token => (getValue token.1 current).bind (resolve fuel token.2)

/-- `bb_template_lookup` in a context and its parents. -/
def lookup (path : Bytes) : List (Json R) → Option (Json R)
  | [] => none
  | current :: parents =>
    match resolve (path.length + 1) path current with
    | some result => some result
    | none => lookup path parents

/-! ## Values -/

inductive RenderError where
  | failed
  /-- `strlen(NULL)`. -/
  | crash

/-- `bb_string_builder_append`. -/
def append (sb text : Bytes) : Bytes := sb ++ cString text

variable [Reals R]

def nonzero (value : R) : Bool := !Reals.equal value (Reals.strtof (ascii "0.0")).1

def isTruthy : Option (Json R) → Bool
  | none => false
  | some .null => false
  | some (.bool value) => value
  | some (.int value) => value != 0
  | some (.real value) => nonzero value
  | some (.text value) => value.elim false fun s => (s ++ [(0 : Byte)]).head? != some 0
  | some (.array items) => decide (0 < items.length)
  | some (.object _) => true

section
variable (malloc : Nat → Bytes)

/-- "Everything else" in `bb_template_render_value`. -/
def renderSerialized (sb : Bytes) (value : Json R) : Except RenderError Bytes :=
  match serialize malloc none value with
  | .error _ => .error .failed
  | .ok tmp => .ok (append sb tmp)

def renderValue (sb : Bytes) : Option (Json R) → Except RenderError Bytes
  | none => .ok sb
  | some (.text none) => .error .crash
  | some (.text (some value)) => .ok (append sb value)
  | some value => renderSerialized malloc sb value

mutual

/-- The cases of `bb_template_render_nodes`. A section counts its elements in an `unsigned int`. -/
def renderNode : Node → List (Json R) → Bytes → Except RenderError Bytes
  | .text value, _, sb => .ok (append sb value)
  | .variable_ name, ctx, sb => renderValue malloc sb (lookup name ctx)
  | .section_ name children, ctx, sb =>
    match lookup name ctx with
    | some (.array items) =>
      (items.take (items.length % 2^32)).foldlM (fun sb item => renderNodes children (item :: ctx) sb) sb
    | _ => .ok sb
  | .conditional name children, ctx, sb => if isTruthy (lookup name ctx) then renderNodes children ctx sb else .ok sb
  | .comment, _, sb => .ok sb

def renderNodes : List Node → List (Json R) → Bytes → Except RenderError Bytes
  | [], _, sb => .ok sb
  | node :: nodes, ctx, sb => (renderNode node ctx sb).bind (renderNodes nodes ctx)

end

/-- `bb_template_render_internal`. -/
def renderTemplate (nodes : List Node) (context : Json R) : Except RenderError Bytes := renderNodes malloc nodes [context] []

end

end BlueBird.Template
