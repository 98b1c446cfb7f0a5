import BlueBird.Template.Renderer
import BlueBird.Json.RoundTrip

namespace BlueBird.Template

open Json

variable {R : Type}

/-! ## What a template means -/

def components (path : Bytes) : List Bytes := (path.splitOn (ch '.')).filter (· ≠ [])

def walk : List Bytes → Json R → Option (Json R)
  | [], value => some value
  | key :: keys, value => (getValue key value).bind (walk keys)

/-- What the whole path leads to in the innermost frame in which it leads anywhere. -/
def find (path : Bytes) (frames : List (Json R)) : Option (Json R) := frames.findSome? (walk (components path))

section
variable [Reals R]

def truthy : Option (Json R) → Bool
  | some (.bool true) => true
  | some (.int value) => value ≠ 0
  | some (.real value) => nonzero value
  | some (.text (some value)) => cString value ≠ []
  | some (.array items) => !items.isEmpty
  | some (.object _) => true
  | _ => false

def shown : Json R → Bytes
  | .text value => cString (value.getD [])
  | value => cString (render value none)

mutual

def denoteNode : Node → List (Json R) → Bytes
  | .text value, _ => value
  | .variable_ name, frames => (find name frames).elim [] shown
  | .section_ name children, frames =>
    match find name frames with
    | some (.array items) => items.flatMap fun item => denoteNodes children (item :: frames)
    | _ => []
  | .conditional name children, frames => if truthy (find name frames) then denoteNodes children frames else []
  | .comment, _ => []

def denoteNodes : List Node → List (Json R) → Bytes
  | [], _ => []
  | node :: nodes, frames => denoteNode node frames ++ denoteNodes nodes frames

end

def isText : Json R → Bool
  | .text _ => true
  | _ => false

mutual

/-- What is serialized is below 2^31 bytes with its NUL, and what a section goes over has an `unsigned int` for its
    length. -/
def NodeWithin : Node → List (Json R) → Prop
  | .text _, _ | .comment, _ => True
  | .variable_ name, frames =>
    ∀ value, find name frames = some value → isText value = false → (render value none).length + 1 < 2^31
  | .section_ name children, frames =>
    ∀ items, find name frames = some (.array items) →
      items.length < 2^32 ∧ ∀ item ∈ items, NodesWithin children (item :: frames)
  | .conditional name children, frames => truthy (find name frames) = true → NodesWithin children frames

def NodesWithin : List Node → List (Json R) → Prop
  | [], _ => True
  | node :: nodes, frames => NodeWithin node frames ∧ NodesWithin nodes frames

end

end

inductive TextsSet : Json R → Prop
  | null : TextsSet .null
  | bool (value : Bool) : TextsSet (.bool value)
  | int (value : Int32) : TextsSet (.int value)
  | real (value : R) : TextsSet (.real value)
  | text (value : Bytes) : TextsSet (.text (some value))
  | array {items : List (Json R)} (set : ∀ item ∈ items, TextsSet item) : TextsSet (.array items)
  | object {entries : List (Bytes × Json R)} (set : ∀ entry ∈ entries, TextsSet entry.2) : TextsSet (.object entries)

/-! ## Names -/

theorem components_dot (path : Bytes) : components (ch '.' :: path) = components path := by
  unfold components
  have split : (ch '.' :: path).splitOn (ch '.') = [] :: path.splitOn (ch '.') :=
    @List.splitOnP_append_cons_of_forall_mem Byte (· == ch '.') [] (fun _ member => by cases member) (ch '.') rfl path
  rw [split, List.filter_cons_of_neg (by simp)]

theorem components_dropWhile (path : Bytes) : components (path.dropWhile (· = ch '.')) = components path := by
  induction path with
  | nil => rfl
  | cons c path ih =>
    by_cases dot : c = ch '.'
    · rw [List.dropWhile_cons_of_pos (by simpa using dot), ih, dot, components_dot]
    · rw [List.dropWhile_cons_of_neg (by simpa using dot)]

theorem components_token {start : Bytes} (begins : ∃ c rest, start = c :: rest ∧ c ≠ ch '.') :
    components start = start.takeWhile (· ≠ ch '.') :: components ((start.dropWhile (· ≠ ch '.')).drop 1) := by
  rcases begins with ⟨c, rest, same, other⟩
  have nonempty : start.takeWhile (· ≠ ch '.') ≠ [] := by
    rw [same, List.takeWhile_cons_of_pos (by simpa using other)]
    exact List.cons_ne_nil _ _
  have free : ∀ x ∈ start.takeWhile (· ≠ ch '.'), (x == ch '.') = false := by
    intro x member
    have passes := List.mem_takeWhile_imp member
    simpa using passes
  have whole : start.takeWhile (· ≠ ch '.') ++ start.dropWhile (· ≠ ch '.') = start := List.takeWhile_append_dropWhile
  cases left : start.dropWhile (· ≠ ch '.') with
  | nil =>
    rw [left, List.append_nil] at whole
    rw [whole] at free nonempty ⊢
    have split : start.splitOn (ch '.') = [start] := List.splitOnP_eq_singleton free
    unfold components
    rw [split, List.filter_cons_of_pos (by simpa using nonempty)]
    rfl
  | cons dot behind =>
    have isDot : dot = ch '.' := by
      have stops := List.head?_dropWhile_not (· ≠ ch '.') start
      rw [left] at stops
      simpa using stops
    rw [left, isDot] at whole
    have split : start.splitOn (ch '.') = start.takeWhile (· ≠ ch '.') :: behind.splitOn (ch '.') := by
      have first := @List.splitOnP_append_cons_of_forall_mem Byte (· == ch '.') (start.takeWhile (· ≠ ch '.')) free (ch '.') rfl behind
      rw [whole] at first
      exact first
    show (start.splitOn (ch '.')).filter _ = _ :: (behind.splitOn (ch '.')).filter _
    rw [split, List.filter_cons_of_pos (by simpa using nonempty)]

/-- What `strtok` gives is the next component. -/
theorem strtok_components (s : Bytes) :
    (strtok (ch '.') s = none ∧ components s = []) ∨
      ∃ token rest, strtok (ch '.') s = some (token, rest) ∧ components s = token :: components rest ∧ rest.length < s.length := by
  rw [← components_dropWhile s]
  unfold strtok
  dsimp only
  cases start : s.dropWhile (· = ch '.') with
  | nil =>
    left
    exact ⟨rfl, rfl⟩
  | cons c rest =>
    right
    have other : c ≠ ch '.' := by
      have stops := List.head?_dropWhile_not (· = ch '.') s
      rw [start] at stops
      simpa using stops
    refine ⟨_, _, rfl, components_token ⟨c, rest, rfl, other⟩, ?_⟩
    have shorter : (c :: rest).length ≤ s.length := by
      rw [← start]
      exact (List.dropWhile_suffix _).length_le
    have behind : ((c :: rest).dropWhile (· ≠ ch '.')).length ≤ rest.length := by
      rw [List.dropWhile_cons_of_pos (by simpa using other)]
      exact (List.dropWhile_suffix _).length_le
    rw [List.length_cons] at shorter
    rw [List.length_drop]
    omega

theorem resolve_eq (fuel : Nat) {path : Bytes} (enough : path.length < fuel) (value : Json R) :
    resolve fuel path value = walk (components path) value := by
  induction fuel generalizing path value with
  | zero => cases enough
  | succ fuel ih =>
    rcases strtok_components path with ⟨ended, empty⟩ | ⟨token, rest, next, split, shorter⟩
    · rw [resolve, ended, empty]
      rfl
    · rw [resolve, next, split]
      show (getValue token value).bind (resolve fuel rest) = (getValue token value).bind (walk (components rest))
      congr 1
      funext found
      exact ih (Nat.lt_of_lt_of_le shorter (Nat.le_of_lt_succ enough)) found

theorem lookup_eq (path : Bytes) (frames : List (Json R)) : lookup path frames = find path frames := by
  induction frames with
  | nil => rfl
  | cons frame frames ih =>
    unfold find at ih ⊢
    rw [lookup, resolve_eq _ (Nat.lt_succ_self _), List.findSome?_cons, ih]
    cases walk (components path) frame <;> rfl

theorem getValue_set {key : Bytes} {value found : Json R} (set : TextsSet value) (has : getValue key value = some found) :
    TextsSet found := by
  cases set with
  | object set =>
    rcases Option.map_eq_some_iff.mp has with ⟨entry, first, held⟩
    rw [← held]
    exact set entry (List.mem_of_find?_eq_some first)
  | _ => cases has

theorem walk_set {keys : List Bytes} {value found : Json R} (set : TextsSet value) (leads : walk keys value = some found) :
    TextsSet found := by
  induction keys generalizing value with
  | nil =>
    cases leads
    exact set
  | cons key keys ih =>
    rcases Option.bind_eq_some_iff.mp leads with ⟨next, has, further⟩
    exact ih (getValue_set set has) further

theorem find_set {path : Bytes} {frames : List (Json R)} {found : Json R} (set : ∀ frame ∈ frames, TextsSet frame)
    (leads : find path frames = some found) : TextsSet found := by
  rcases List.exists_of_findSome?_eq_some leads with ⟨frame, member, further⟩
  exact walk_set (set frame member) further

/-! ## Values -/

theorem isTruthy_eq [Reals R] (value : Option (Json R)) : isTruthy value = truthy value := by
  cases value with
  | none => rfl
  | some value =>
    cases value with
    | null | real _ | object _ => rfl
    | bool value => cases value <;> rfl
    | int value =>
      show (value != 0) = decide (value ≠ 0)
      by_cases zero : value = 0
      · rw [zero]
        rfl
      · rw [decide_eq_true zero]
        simpa using zero
    | text value =>
      cases value with
      | none => rfl
      | some value =>
        show ((value ++ [(0 : Byte)]).head? != some 0) = decide (cString value ≠ [])
        cases value with
        | nil => rfl
        | cons c value =>
          by_cases zero : c = 0
          · rw [zero]
            rfl
          · have some_ : cString (c :: value) = c :: cString value := List.takeWhile_cons_of_pos (by simpa using zero)
            rw [some_, decide_eq_true (List.cons_ne_nil _ _)]
            show (some c != some 0) = true
            simpa using zero
    | array items => cases items <;> rfl

theorem append_clean {sb text : Bytes} (clean : (0 : Byte) ∉ text) : append sb text = sb ++ text := by
  rw [append, cString_of_clean clean]

section
variable [Reals R] (malloc : Nat → Bytes)

theorem renderValue_serialized {value : Json R} (other : isText value = false) (small : (render value none).length + 1 < 2^31)
    (sb : Bytes) : renderValue malloc sb (some value) = .ok (sb ++ shown value) := by
  have serialized : renderValue malloc sb (some value) = renderSerialized malloc sb value := by
    cases value with
    | text value => cases other
    | _ => rfl
  have same : shown value = cString (render value none) := by
    cases value with
    | text value => cases other
    | _ => rfl
  rw [serialized, same]
  unfold renderSerialized
  rw [serialize_eq_render malloc none value small]
  show Except.ok (append sb _) = _
  rw [append, cString, Memory.takeWhile_zero]
  rfl

theorem renderValue_shown {value : Option (Json R)} (set : ∀ v, value = some v → TextsSet v)
    (small : ∀ v, value = some v → isText v = false → (render v none).length + 1 < 2^31) (sb : Bytes) :
    renderValue malloc sb value = .ok (sb ++ value.elim [] shown) := by
  cases value with
  | none => exact congrArg Except.ok (List.append_nil sb).symm
  | some value =>
    cases isIt : isText value with
    | false => exact renderValue_serialized malloc isIt (small value rfl isIt) sb
    | true =>
      cases set value rfl with
      | text value => rfl
      | _ => cases isIt

/-! ## Nodes -/

theorem foldlM_concat {α : Type} {f : Bytes → α → Except RenderError Bytes} {g : α → Bytes} {items : List α}
    (each : ∀ item ∈ items, ∀ sb, f sb item = .ok (sb ++ g item)) (sb : Bytes) :
    items.foldlM f sb = .ok (sb ++ items.flatMap g) := by
  induction items generalizing sb with
  | nil => exact congrArg Except.ok (List.append_nil sb).symm
  | cons item items ih =>
    rw [List.foldlM_cons, each item List.mem_cons_self]
    show items.foldlM f (sb ++ g item) = _
    rw [ih fun other member => each other (List.mem_cons_of_mem _ member), List.flatMap_cons, List.append_assoc]

omit [Reals R] in
theorem set_cons {item : Json R} {frames : List (Json R)} (here : TextsSet item) (set : ∀ frame ∈ frames, TextsSet frame) :
    ∀ frame ∈ item :: frames, TextsSet frame := by
  intro frame member
  rcases List.mem_cons.mp member with same | later
  · rw [same]
    exact here
  · exact set frame later

mutual

theorem renderNode_denotes : (node : Node) → (frames : List (Json R)) → (sb : Bytes) → node.Clean →
    (∀ frame ∈ frames, TextsSet frame) → NodeWithin node frames →
    renderNode malloc node frames sb = .ok (sb ++ denoteNode node frames)
  | .text value, frames, sb, clean, _, _ => by
    show Except.ok (append sb value) = _
    rw [append_clean clean]
    rfl
  | .variable_ name, frames, sb, _, set, within => by
    show renderValue malloc sb (lookup name frames) = _
    rw [lookup_eq]
    exact renderValue_shown malloc (fun value found => find_set set found) within sb
  | .section_ name children, frames, sb, clean, set, within => by
    rw [renderNode, denoteNode, lookup_eq]
    cases found : find name frames with
    | none => exact congrArg Except.ok (List.append_nil sb).symm
    | some value =>
      cases value with
      | array items =>
        rcases within items found with ⟨count, each⟩
        have whole : items.take (items.length % 2^32) = items := by
          rw [Nat.mod_eq_of_lt count, List.take_length]
        have itemsSet : ∀ item ∈ items, TextsSet item := by
          cases find_set set found with
          | array itemsSet => exact itemsSet
        show (items.take (items.length % 2^32)).foldlM _ sb = Except.ok (sb ++ items.flatMap _)
        rw [whole]
        exact foldlM_concat (fun item member sb =>
          renderNodes_denotes children (item :: frames) sb clean (set_cons (itemsSet item member) set) (each item member)) sb
      | _ => exact congrArg Except.ok (List.append_nil sb).symm
  | .conditional name children, frames, sb, clean, set, within => by
    rw [renderNode, denoteNode, lookup_eq, isTruthy_eq]
    by_cases holds : truthy (find name frames) = true
    · rw [if_pos holds, if_pos holds]
      exact renderNodes_denotes children frames sb clean set (within holds)
    · rw [if_neg holds, if_neg holds, List.append_nil]
  | .comment, frames, sb, _, _, _ => congrArg Except.ok (List.append_nil sb).symm

theorem renderNodes_denotes : (nodes : List Node) → (frames : List (Json R)) → (sb : Bytes) → CleanNodes nodes →
    (∀ frame ∈ frames, TextsSet frame) → NodesWithin nodes frames →
    renderNodes malloc nodes frames sb = .ok (sb ++ denoteNodes nodes frames)
  | [], frames, sb, _, _, _ => congrArg Except.ok (List.append_nil sb).symm
  | node :: nodes, frames, sb, clean, set, within => by
    rw [renderNodes, renderNode_denotes node frames sb clean.1 set within.1]
    show renderNodes malloc nodes frames (sb ++ denoteNode node frames) = _
    rw [renderNodes_denotes nodes frames _ clean.2 set within.2, denoteNodes, List.append_assoc]

end

theorem template_denotes {source : Bytes} {nodes : List Node} (parsed : parse source = some nodes) {context : Json R}
    (set : TextsSet context) (within : NodesWithin nodes [context]) :
    renderTemplate malloc nodes context = .ok (denoteNodes nodes [context]) := by
  have only : ∀ frame ∈ [context], TextsSet frame := by
    intro frame member
    rw [List.mem_singleton.mp member]
    exact set
  exact renderNodes_denotes malloc nodes [context] [] (parse_clean parsed) only within

end

/-- `{{#l}}{{n}}{{/l}}{{?l}}.{{/l}}` -/
def listed : Bytes := ascii "\x7b\x7b#l\x7d\x7d\x7b\x7bn\x7d\x7d\x7b\x7b/l\x7d\x7d\x7b\x7b?l\x7d\x7d.\x7b\x7b/l\x7d\x7d"

def listedNodes : List Node :=
  [.section_ (ascii "l") [.variable_ (ascii "n")], .conditional (ascii "l") [.text (ascii ".")]]

/-- `{"n": "z", "l": [{"n": "a"}, {}]}` -/
def listedContext : Json Rat :=
  .object [(ascii "n", .text (some (ascii "z"))),
    (ascii "l", .array [.object [(ascii "n", .text (some (ascii "a")))], .object []])]

theorem listedContext_set : TextsSet listedContext := by
  have first : TextsSet (.object [(ascii "n", Json.text (some (ascii "a")))] : Json Rat) :=
    .object fun entry member => by
      rw [List.mem_singleton.mp member]
      exact .text _
  refine .object fun entry member => ?_
  rcases List.mem_cons.mp member with same | rest
  · rw [same]
    exact .text _
  · rw [List.mem_singleton.mp rest]
    refine .array fun item member => ?_
    rcases List.mem_cons.mp member with same | rest
    · rw [same]
      exact first
    · rw [List.mem_singleton.mp rest]
      exact .object fun entry member => by cases member

theorem listed_within : @NodesWithin Rat halves listedNodes [listedContext] := by
  have text : ∀ item ∈ [Json.object [(ascii "n", .text (some (ascii "a")))], .object []],
      @NodesWithin Rat halves [.variable_ (ascii "n")] [item, listedContext] := by
    intro item member
    refine ⟨?_, True.intro⟩
    intro value found other
    rcases List.mem_cons.mp member with same | rest
    · subst same
      cases found
      cases other
    · have same := List.mem_singleton.mp rest
      subst same
      cases found
      cases other
  refine ⟨?_, fun _ => ⟨True.intro, True.intro⟩, True.intro⟩
  intro items found
  cases found
  exact ⟨by decide, text⟩

theorem template_denotes_listed :
    @renderTemplate Rat halves (fun _ => []) listedNodes listedContext = .ok (ascii "az.") :=
  @template_denotes Rat halves (fun _ => []) listed listedNodes rfl listedContext listedContext_set listed_within

/-- `{{#.}}x{{/.}}` -/
def eachElement : Bytes := ascii "\x7b\x7b#.\x7d\x7dx\x7b\x7b/.\x7d\x7d"

/-- `{{.}}` -/
def wholeValue : Bytes := ascii "\x7b\x7b.\x7d\x7d"

theorem printAll_negative {narrow : Int → Int} {size : Nat} {printer : Printer} (negative : ∀ sink, (printer sink).2 < 0)
    (printers : List Printer) (memory : Option Bytes) (len : Int) :
    (printAll narrow size (printer :: printers) memory len).2 = -1 := by
  simp only [printAll]
  rw [if_pos (negative _)]

theorem serialize_longItem {t : Bytes} (least : 2^31 ≤ (quoted t).length) (greatest : (quoted t).length < 2^32) :
    @serialize Rat halves (fun _ => []) none (.array [.text (some t)]) = .error .nothing := by
  let _ : Reals Rat := halves
  have negative : toInt (quoted t).length < 0 := toInt_large (by omega) (by omega)
  have long : ∀ sink, (serializeText (some t) sink).2 < 0 := by
    intro sink
    rw [serializeText, fits, Option.getD_some]
    dsimp only
    exact negative
  have compact : arrayIndent none [Json.text (some t) (R := Rat)] = none := by
    unfold arrayIndent
    split <;> rfl
  have measured : (serializeJson (.array [.text (some t)] : Json Rat) none ⟨none, 0⟩).2 = -1 := by
    rw [serializeJson, compact]
    show (printAll toInt 0 [puts (ascii "["), serializeText (some t), puts [], puts (ascii "]")] none 0).2 = -1
    have opened := @printAll_cons toInt 0 (puts (ascii "[")) none none 0 1 [serializeText (some t), puts [], puts (ascii "]")] rfl
      (by decide)
    rw [opened]
    exact printAll_negative long _ _ _
  unfold serialize
  rw [measured]
  rfl

/-- Every element of an array of 2^32 gets lost, and a value that prints to 2^31 bytes makes the rendering fail. -/
theorem template_overflows :
    (∃ context : Json Rat, TextsSet context ∧
      ∃ nodes, parse eachElement = some nodes ∧
        @renderTemplate Rat halves (fun _ => []) nodes context ≠ .ok (@denoteNodes Rat halves nodes [context])) ∧
    ∃ context : Json Rat, TextsSet context ∧
      ∃ nodes, parse wholeValue = some nodes ∧
        @renderTemplate Rat halves (fun _ => []) nodes context ≠ .ok (@denoteNodes Rat halves nodes [context]) := by
  let _ : Reals Rat := halves
  constructor
  · have some_ : ∃ count, count = 2^32 := ⟨_, rfl⟩
    rcases some_ with ⟨count, isCount⟩
    have set : TextsSet (.array (List.replicate count .null) : Json Rat) := .array fun item member => by
      rw [List.eq_of_mem_replicate member]
      exact .null
    refine ⟨_, set, [.section_ (ascii ".") [.text (ascii "x")]], rfl, ?_⟩
    have nothing : renderTemplate (fun _ => []) [.section_ (ascii ".") [.text (ascii "x")]] (.array (List.replicate count .null) : Json Rat) =
        .ok [] := by
      show Except.bind (((List.replicate count Json.null).take ((List.replicate count Json.null).length % 2^32)).foldlM _ _) _ = _
      rw [List.length_replicate, isCount, Nat.mod_self, List.take_zero]
      rfl
    rw [nothing]
    intro same
    have empty : (List.replicate count (Json.null : Json Rat)).flatMap (fun item => denoteNodes [.text (ascii "x")] (item :: _)) ++ [] = [] :=
      (Except.ok.inj same).symm
    rw [List.append_nil, List.flatMap_eq_nil_iff] at empty
    have member : (Json.null : Json Rat) ∈ List.replicate count Json.null := List.mem_replicate.mpr ⟨by omega, rfl⟩
    cases empty _ member
  · have some_ : ∃ count, count = 2^31 := ⟨_, rfl⟩
    rcases some_ with ⟨count, isCount⟩
    have length := quoted_letters count
    have set : TextsSet (.array [.text (some (List.replicate count (ch 'a')))] : Json Rat) := .array fun item member => by
      rw [List.mem_singleton.mp member]
      exact .text _
    refine ⟨_, set, [.variable_ (ascii ".")], rfl, ?_⟩
    have failed : renderTemplate (fun _ => []) [.variable_ (ascii ".")] (.array [.text (some (List.replicate count (ch 'a')))] : Json Rat) =
        .error .failed := by
      have found : ∀ context : Json Rat, lookup (ascii ".") [context] = some context := fun _ => rfl
      have other : ∀ items : List (Json Rat), renderValue (fun _ => []) [] (some (.array items)) =
          renderSerialized (fun _ => []) [] (.array items) := fun _ => rfl
      rw [renderTemplate, renderNodes, renderNode, found, other, renderSerialized, serialize_longItem (by omega) (by omega)]
      rfl
    rw [failed]
    intro same
    cases same

end BlueBird.Template
