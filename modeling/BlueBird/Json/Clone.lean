import BlueBird.Json.RoundTrip

/-! Copies of values, node by node. -/

namespace BlueBird.Json

variable {R : Type}

/-! ## Nodes at their addresses -/

/-- `struct BBJsonNode` with what it owns alone: its text, its array of pointers, the entries of its
    object with their keys. Other nodes stand as addresses. -/
inductive Cell (R : Type) where
  | null
  | bool (value : Bool)
  | int (value : Int32)
  | real (value : R)
  | text (value : Option Bytes)
  | array (items : List Nat)
  | object (entries : List (Bytes × Nat))

/-- The nodes in the order of their allocation; those that were freed are none. -/
abbrev Heap (R : Type) := List (Option (Cell R))

def Heap.read (heap : Heap R) (json : Nat) : Option (Cell R) := (heap[json]?).join

def Heap.write (heap : Heap R) (json : Nat) (cell : Cell R) : Heap R := heap.set json (some cell)

/-- What `bb_json_create` gives for a type; a scalar is not set yet. -/
def Cell.blank : Cell R → Cell R
  | null => null
  | bool _ => bool false
  | int _ => int 0
  | real value => real value
  | text _ => text none
  | array _ => array []
  | object _ => object []

def Cell.children : Cell R → List Nat
  | array items => items
  | object entries => entries.map (·.2)
  | _ => []

/-! ## Cloning -/

inductive CloneError where
  | failed | fuel
  deriving DecidableEq, Repr

/-- `bb_json_set_value_text` -/
def setValueText (heap : Heap R) (json : Nat) (value : Option Bytes) : Except CloneError (Heap R) :=
  match value with
  | none => .error .failed
  | some value => .ok (heap.write json (.text (some (cString value))))

/-- `bb_json_array_push` -/
def arrayPush (heap : Heap R) (json element : Nat) : Except CloneError (Heap R) :=
  match heap.read json with
  | some (.array items) => .ok (heap.write json (.array (items ++ [element])))
  | _ => .error .failed

/-- `bb_json_object_set_value` -/
def objectPut (heap : Heap R) (json : Nat) (key : Bytes) (value : Nat) : Except CloneError (Heap R) :=
  match heap.read json with
  | some (.object entries) => .ok (heap.write json (.object (OrderedMap.set entries key value)))
  | _ => .error .failed

/-- One turn of the loop over an array: the clone of an item goes to the end of the copy. -/
def cloneItem (child : Heap R → Nat → Except CloneError (Heap R × Nat)) (copy : Nat) (heap : Heap R) (item : Nat) :
    Except CloneError (Heap R) := do
  let cloned ← child heap item
  arrayPush cloned.1 copy cloned.2

def cloneEntry (child : Heap R → Nat → Except CloneError (Heap R × Nat)) (copy : Nat) (heap : Heap R)
    (entry : Bytes × Nat) : Except CloneError (Heap R) := do
  let cloned ← child heap entry.2
  objectPut cloned.1 copy entry.1 cloned.2

/-- `bb_json_clone`, down to a nesting of `fuel`. Where it fails it destroys what it made and gives NULL. -/
def clone : Nat → Heap R → Nat → Except CloneError (Heap R × Nat)
  | 0, _, _ => .error .fuel
  | fuel + 1, heap, json =>
    match heap.read json with
    | none => .error .failed
    | some cell => do
      let copy := heap.length
      let created := heap ++ [some cell.blank]
      let filled ← match cell with
        | .null => .ok created
        | .bool value => .ok (created.write copy (.bool value))
        | .int value => .ok (created.write copy (.int value))
        | .real value => .ok (created.write copy (.real value))
        | .text value => setValueText created copy value
        | .array items => items.foldlM (cloneItem (clone fuel) copy) created
        | .object entries => entries.foldlM (cloneEntry (clone fuel) copy) created
      return (filled, copy)

/-! ## Values in the heap -/

mutual

/-- The value is at the address, and its nodes all stand at addresses within `s`. -/
def Holds (heap : Heap R) (s : Nat → Prop) (json : Nat) : Json R → Prop
  | null => s json ∧ heap.read json = some .null
  | bool value => s json ∧ heap.read json = some (.bool value)
  | int value => s json ∧ heap.read json = some (.int value)
  | real value => s json ∧ heap.read json = some (.real value)
  | text value => s json ∧ heap.read json = some (.text value)
  | array values => s json ∧ ∃ items, heap.read json = some (.array items) ∧ HoldsItems heap s items values
  | object values => s json ∧ ∃ entries, heap.read json = some (.object entries) ∧ HoldsEntries heap s entries values

def HoldsItems (heap : Heap R) (s : Nat → Prop) : List Nat → List (Json R) → Prop
  | items, [] => items = []
  | items, value :: values => ∃ item rest, items = item :: rest ∧ Holds heap s item value ∧ HoldsItems heap s rest values

def HoldsEntries (heap : Heap R) (s : Nat → Prop) : List (Bytes × Nat) → List (Bytes × Json R) → Prop
  | entries, [] => entries = []
  | entries, (key, value) :: values =>
    ∃ json rest, entries = (key, json) :: rest ∧ Holds heap s json value ∧ HoldsEntries heap s rest values

end

inductive Reaches (heap : Heap R) : Nat → Nat → Prop
  | self (json : Nat) : Reaches heap json json
  | child {json child target : Nat} {cell : Cell R} : heap.read json = some cell → child ∈ cell.children →
      Reaches heap child target → Reaches heap json target

/-- The values that the setters can make: texts and keys are C strings, and a text may not be set yet. -/
inductive Constructible : Json R → Prop
  | null : Constructible null
  | bool (value : Bool) : Constructible (bool value)
  | int (value : Int32) : Constructible (int value)
  | real (value : R) : Constructible (real value)
  | unset : Constructible (text none)
  | text {s : Bytes} : (0 : Byte) ∉ s → Constructible (text (some s))
  | array {items : List (Json R)} : (∀ item ∈ items, Constructible item) → Constructible (array items)
  | object {entries : List (Bytes × Json R)} : OrderedMap.Distinct entries → (∀ entry ∈ entries, (0 : Byte) ∉ entry.1) →
      (∀ entry ∈ entries, Constructible entry.2) → Constructible (object entries)

mutual

/-- No text of the value is still to be set. -/
def allSet : Json R → Bool
  | text none => false
  | array items => allSetItems items
  | object entries => allSetEntries entries
  | _ => true

def allSetItems : List (Json R) → Bool
  | [] => true
  | item :: items => allSet item && allSetItems items

def allSetEntries : List (Bytes × Json R) → Bool
  | [] => true
  | (_, value) :: entries => allSet value && allSetEntries entries

end

mutual

/-- How deep the recursion of `bb_json_clone` goes. -/
def levels : Json R → Nat
  | array items => levelsItems items + 1
  | object entries => levelsEntries entries + 1
  | _ => 1

def levelsItems : List (Json R) → Nat
  | [] => 0
  | item :: items => max (levels item) (levelsItems items)

def levelsEntries : List (Bytes × Json R) → Nat
  | [] => 0
  | (_, value) :: entries => max (levels value) (levelsEntries entries)

end

/-! ## Reading and writing -/

theorem read_bound {heap : Heap R} {json : Nat} {cell : Cell R} (found : heap.read json = some cell) : json < heap.length := by
  by_contra beyond
  unfold Heap.read at found
  rw [List.getElem?_eq_none (Nat.le_of_not_lt beyond)] at found
  cases found

theorem read_created_old (heap : Heap R) (cell : Cell R) {json : Nat} (old : json < heap.length) :
    Heap.read (heap ++ [some cell]) json = heap.read json := by
  unfold Heap.read
  rw [List.getElem?_append_left old]

theorem read_created (heap : Heap R) (cell : Cell R) : Heap.read (heap ++ [some cell]) heap.length = some cell := by
  unfold Heap.read
  rw [List.getElem?_concat_length]
  rfl

theorem read_write (heap : Heap R) (cell : Cell R) {json : Nat} (there : json < heap.length) :
    (heap.write json cell).read json = some cell := by
  unfold Heap.read Heap.write
  rw [List.getElem?_set_self there]
  rfl

theorem read_write_other (heap : Heap R) (cell : Cell R) {json other : Nat} (differs : other ≠ json) :
    (heap.write json cell).read other = heap.read other := by
  unfold Heap.read Heap.write
  rw [List.getElem?_set_ne (Ne.symm differs)]

theorem length_write (heap : Heap R) (cell : Cell R) (json : Nat) : (heap.write json cell).length = heap.length :=
  List.length_set ..

mutual

theorem Holds.congr {heap other : Heap R} {s t : Nat → Prop}
    (agree : ∀ a cell, s a → heap.read a = some cell → t a ∧ other.read a = some cell) :
    {json : Nat} → (value : Json R) → Holds heap s json value → Holds other t json value
  | _, null, holds => by
    rw [Holds] at holds ⊢
    exact agree _ _ holds.1 holds.2
  | _, bool _, holds => by
    rw [Holds] at holds ⊢
    exact agree _ _ holds.1 holds.2
  | _, int _, holds => by
    rw [Holds] at holds ⊢
    exact agree _ _ holds.1 holds.2
  | _, real _, holds => by
    rw [Holds] at holds ⊢
    exact agree _ _ holds.1 holds.2
  | _, text _, holds => by
    rw [Holds] at holds ⊢
    exact agree _ _ holds.1 holds.2
  | _, array values, holds => by
    rw [Holds] at holds ⊢
    rcases holds with ⟨inside, items, found, each⟩
    rcases agree _ _ inside found with ⟨inOther, same⟩
    exact ⟨inOther, items, same, HoldsItems.congr agree values each⟩
  | _, object values, holds => by
    rw [Holds] at holds ⊢
    rcases holds with ⟨inside, entries, found, each⟩
    rcases agree _ _ inside found with ⟨inOther, same⟩
    exact ⟨inOther, entries, same, HoldsEntries.congr agree values each⟩

theorem HoldsItems.congr {heap other : Heap R} {s t : Nat → Prop}
    (agree : ∀ a cell, s a → heap.read a = some cell → t a ∧ other.read a = some cell) :
    {items : List Nat} → (values : List (Json R)) → HoldsItems heap s items values → HoldsItems other t items values
  | _, [], holds => by
    rw [HoldsItems] at holds ⊢
    exact holds
  | _, value :: values, holds => by
    rw [HoldsItems] at holds ⊢
    rcases holds with ⟨item, rest, whole, first, others⟩
    exact ⟨item, rest, whole, Holds.congr agree value first, HoldsItems.congr agree values others⟩

theorem HoldsEntries.congr {heap other : Heap R} {s t : Nat → Prop}
    (agree : ∀ a cell, s a → heap.read a = some cell → t a ∧ other.read a = some cell) :
    {entries : List (Bytes × Nat)} → (values : List (Bytes × Json R)) → HoldsEntries heap s entries values →
      HoldsEntries other t entries values
  | _, [], holds => by
    rw [HoldsEntries] at holds ⊢
    exact holds
  | _, (_, value) :: values, holds => by
    rw [HoldsEntries] at holds ⊢
    rcases holds with ⟨json, rest, whole, first, others⟩
    exact ⟨json, rest, whole, Holds.congr agree value first, HoldsEntries.congr agree values others⟩

end

/-! ## What a clone does -/

/-- Nodes are added, and of those that were there only what is in `apart` can change. -/
structure Grows (apart : Nat → Prop) (heap other : Heap R) : Prop where
  length : heap.length ≤ other.length
  kept : ∀ a < heap.length, ¬ apart a → other.read a = heap.read a

def Clones (fuel : Nat) (value : Json R) : Prop :=
  ∀ (heap : Heap R) (s : Nat → Prop) (json : Nat), Holds heap s json value →
    (allSet value = true → ∃ other copy, clone fuel heap json = .ok (other, copy) ∧ Grows (fun _ => False) heap other ∧
      Holds other (heap.length ≤ ·) copy value) ∧
    (allSet value = false → clone fuel heap json = .error .failed)

theorem Grows.write {heap cloned : Heap R} {copy child : Nat} {value : Json R} (here : copy < heap.length)
    (grown : Grows (fun _ => False) heap cloned) (held : Holds cloned (heap.length ≤ ·) child value) (cell : Cell R) :
    Grows (· = copy) heap (cloned.write copy cell) ∧ (cloned.write copy cell).read copy = some cell ∧
      Holds (cloned.write copy cell) (copy < ·) child value := by
  have length := grown.length
  refine ⟨⟨?_, ?_⟩, read_write cloned cell (by omega), ?_⟩
  · rw [length_write]
    exact length
  · intro a old differs
    rw [read_write_other cloned cell differs]
    exact grown.kept a old not_false
  · apply Holds.congr _ value held
    intro a found behind same
    have differs : a ≠ copy := by omega
    rw [read_write_other cloned cell differs]
    exact ⟨by omega, same⟩

theorem Grows.trans {apart : Nat → Prop} {first second third : Heap R} (early : Grows apart first second)
    (late : Grows apart second third) : Grows apart first third where
  length := Nat.le_trans early.length late.length
  kept a old differs := (late.kept a (Nat.lt_of_lt_of_le old early.length) differs).trans (early.kept a old differs)

theorem Grows.holds_before {heap other : Heap R} {copy : Nat} (grown : Grows (· = copy) heap other) (a : Nat) (cell : Cell R)
    (before : a < copy) (found : heap.read a = some cell) : a < copy ∧ other.read a = some cell := by
  rw [grown.kept a (read_bound found) (by omega)]
  exact ⟨before, found⟩

theorem Grows.holds_behind {heap other : Heap R} {copy : Nat} (grown : Grows (· = copy) heap other) (a : Nat) (cell : Cell R)
    (behind : copy < a) (found : heap.read a = some cell) : copy < a ∧ other.read a = some cell := by
  rw [grown.kept a (read_bound found) (by omega)]
  exact ⟨behind, found⟩

theorem cloneItems_spec {fuel : Nat} {values : List (Json R)} (each : ∀ value ∈ values, Clones fuel value) {copy : Nat} :
    ∀ (heap : Heap R) (items pushed : List Nat), heap.read copy = some (.array pushed) →
      HoldsItems heap (· < copy) items values →
      (allSetItems values = true → ∃ other made, items.foldlM (cloneItem (clone fuel) copy) heap = .ok other ∧
        Grows (· = copy) heap other ∧ other.read copy = some (.array (pushed ++ made)) ∧
        HoldsItems other (copy < ·) made values) ∧
      (allSetItems values = false → items.foldlM (cloneItem (clone fuel) copy) heap = .error .failed) := by
  induction values with
  | nil =>
    intro heap items pushed at_ holds
    rw [HoldsItems] at holds
    subst holds
    constructor
    · intro _
      refine ⟨heap, [], rfl, ⟨Nat.le_refl _, fun _ _ _ => rfl⟩, ?_, ?_⟩
      · rw [List.append_nil]
        exact at_
      · rw [HoldsItems]
    · intro unset
      rw [allSetItems] at unset
      cases unset
  | cons value values ih =>
    intro heap items pushed at_ holds
    rw [HoldsItems] at holds
    rcases holds with ⟨item, rest, rfl, first, others⟩
    have here := read_bound at_
    rcases each value (List.mem_cons_self ..) heap _ item first with ⟨whenSet, whenUnset⟩
    rw [List.foldlM_cons, allSetItems]
    cases set : allSet value with
    | false =>
      have failed : cloneItem (clone fuel) copy heap item = .error .failed := by
        unfold cloneItem
        rw [whenUnset set]
        rfl
      rw [failed]
      exact ⟨fun both => absurd both Bool.false_ne_true, fun _ => rfl⟩
    | true =>
      rcases whenSet set with ⟨cloned, child, done, grown, held⟩
      have at' : cloned.read copy = some (.array pushed) := (grown.kept copy here not_false).trans at_
      have pushes : cloneItem (clone fuel) copy heap item = .ok (cloned.write copy (.array (pushed ++ [child]))) := by
        unfold cloneItem
        rw [done]
        show arrayPush cloned copy child = _
        unfold arrayPush
        rw [at']
      rcases grown.write here held (.array (pushed ++ [child])) with ⟨step, now, child_⟩
      have later := HoldsItems.congr step.holds_before values others
      rcases ih (fun other member => each other (List.mem_cons_of_mem _ member)) _ rest _ now later with ⟨restSet, restUnset⟩
      rw [pushes, Bool.true_and]
      refine ⟨?_, restUnset⟩
      intro allOthers
      rcases restSet allOthers with ⟨other, made, run, more, at_end, heldRest⟩
      refine ⟨other, child :: made, run, step.trans more, ?_, ?_⟩
      · rw [at_end, List.append_assoc]
        rfl
      · rw [HoldsItems]
        exact ⟨child, made, rfl, Holds.congr more.holds_behind value child_, heldRest⟩

theorem cloneEntries_spec {fuel : Nat} {values : List (Bytes × Json R)} (each : ∀ entry ∈ values, Clones fuel entry.2)
    {copy : Nat} :
    ∀ (heap : Heap R) (entries put : List (Bytes × Nat)), heap.read copy = some (.object put) →
      HoldsEntries heap (· < copy) entries values → (put.map (·.1) ++ values.map (·.1)).Nodup →
      (allSetEntries values = true → ∃ other made, entries.foldlM (cloneEntry (clone fuel) copy) heap = .ok other ∧
        Grows (· = copy) heap other ∧ other.read copy = some (.object (put ++ made)) ∧
        HoldsEntries other (copy < ·) made values) ∧
      (allSetEntries values = false → entries.foldlM (cloneEntry (clone fuel) copy) heap = .error .failed) := by
  induction values with
  | nil =>
    intro heap entries put at_ holds _
    rw [HoldsEntries] at holds
    subst holds
    constructor
    · intro _
      refine ⟨heap, [], rfl, ⟨Nat.le_refl _, fun _ _ _ => rfl⟩, ?_, ?_⟩
      · rw [List.append_nil]
        exact at_
      · rw [HoldsEntries]
    · intro unset
      rw [allSetEntries] at unset
      cases unset
  | cons entry values ih =>
    rcases entry with ⟨key, value⟩
    intro heap entries put at_ holds distinct
    rw [HoldsEntries] at holds
    rcases holds with ⟨json, rest, rfl, first, others⟩
    have here := read_bound at_
    rcases each (key, value) (List.mem_cons_self ..) heap _ json first with ⟨whenSet, whenUnset⟩
    rw [List.foldlM_cons, allSetEntries]
    cases set : allSet value with
    | false =>
      have failed : cloneEntry (clone fuel) copy heap (key, json) = .error .failed := by
        unfold cloneEntry
        rw [whenUnset set]
        rfl
      rw [failed]
      exact ⟨fun both => absurd both Bool.false_ne_true, fun _ => rfl⟩
    | true =>
      rcases whenSet set with ⟨cloned, child, done, grown, held⟩
      have at' : cloned.read copy = some (.object put) := (grown.kept copy here not_false).trans at_
      have fresh : key ∉ put.map (·.1) := by
        intro there
        have apart := (List.nodup_append.mp distinct).2.2
        exact apart key there key (List.mem_cons_self ..) rfl
      have puts_ : cloneEntry (clone fuel) copy heap (key, json) = .ok (cloned.write copy (.object (put ++ [(key, child)]))) := by
        unfold cloneEntry
        rw [done]
        show objectPut cloned copy key child = _
        unfold objectPut
        rw [at']
        dsimp only
        rw [OrderedMap.set_of_absent fresh]
      rcases grown.write here held (.object (put ++ [(key, child)])) with ⟨step, now, child_⟩
      have later := HoldsEntries.congr step.holds_before values others
      have distinctRest : ((put ++ [(key, child)]).map (·.1) ++ values.map (·.1)).Nodup := by
        rw [List.map_append, List.append_assoc]
        exact distinct
      rcases ih (fun other member => each other (List.mem_cons_of_mem _ member)) _ rest _ now later distinctRest with
        ⟨restSet, restUnset⟩
      rw [puts_, Bool.true_and]
      refine ⟨?_, restUnset⟩
      intro allOthers
      rcases restSet allOthers with ⟨other, made, run, more, at_end, heldRest⟩
      refine ⟨other, (key, child) :: made, run, step.trans more, ?_, ?_⟩
      · rw [at_end, List.append_assoc]
        rfl
      · rw [HoldsEntries]
        exact ⟨child, made, rfl, Holds.congr more.holds_behind value child_, heldRest⟩

theorem Grows.created {heap filled : Heap R} {blank : Cell R} (grown : Grows (· = heap.length) (heap ++ [some blank]) filled) :
    Grows (fun _ => False) heap filled where
  length := by
    have length := grown.length
    rw [List.length_append, List.length_singleton] at length
    omega
  kept a old _ := by
    rw [← read_created_old heap blank old]
    exact grown.kept a (by rw [List.length_append, List.length_singleton]; omega) (by omega)

theorem grows_write (heap : Heap R) (cell : Cell R) (copy : Nat) : Grows (· = copy) heap (heap.write copy cell) where
  length := by rw [length_write]
  kept a _ differs := read_write_other heap cell differs

theorem clones_of_write {fuel : Nat} {value : Json R} (cell : Cell R) (set : allSet value = true)
    (cellOf : ∀ (heap : Heap R) s json, Holds heap s json value ↔ s json ∧ heap.read json = some cell)
    (clone_eq : ∀ (heap : Heap R) json, heap.read json = some cell →
      clone fuel heap json = .ok ((heap ++ [some cell.blank]).write heap.length cell, heap.length)) : Clones fuel value := by
  intro heap s json holds
  have found := ((cellOf heap s json).mp holds).2
  constructor
  · intro _
    refine ⟨_, _, clone_eq heap json found, (grows_write _ _ _).created, ?_⟩
    apply (cellOf _ _ _).mpr
    refine ⟨Nat.le_refl _, read_write _ _ ?_⟩
    rw [List.length_append, List.length_singleton]
    omega
  · intro unset
    rw [set] at unset
    cases unset

theorem created_holds (heap : Heap R) (blank : Cell R) {s : Nat → Prop} (a : Nat) (cell : Cell R) (_ : s a)
    (found : heap.read a = some cell) : a < heap.length ∧ Heap.read (heap ++ [some blank]) a = some cell :=
  ⟨read_bound found, (read_created_old heap blank (read_bound found)).trans found⟩

theorem levels_pos (value : Json R) : 0 < levels value := by
  cases value with
  | array _ =>
    rw [levels]
    exact Nat.succ_pos _
  | object _ =>
    rw [levels]
    exact Nat.succ_pos _
  | _ => simp [levels]

theorem levels_le_levelsItems {items : List (Json R)} {item : Json R} (member : item ∈ items) :
    levels item ≤ levelsItems items := by
  induction items with
  | nil => cases member
  | cons first items ih =>
    rw [levelsItems]
    rcases List.mem_cons.mp member with same | later
    · rw [same]
      exact Nat.le_max_left _ _
    · exact Nat.le_trans (ih later) (Nat.le_max_right _ _)

theorem levels_le_levelsEntries {entries : List (Bytes × Json R)} {entry : Bytes × Json R} (member : entry ∈ entries) :
    levels entry.2 ≤ levelsEntries entries := by
  induction entries with
  | nil => cases member
  | cons first entries ih =>
    rw [levelsEntries]
    rcases List.mem_cons.mp member with same | later
    · rw [same]
      exact Nat.le_max_left _ _
    · exact Nat.le_trans (ih later) (Nat.le_max_right _ _)

theorem clones_array {fuel : Nat} {values : List (Json R)} (children : ∀ value ∈ values, Clones fuel value) :
    Clones (fuel + 1) (array values) := by
  intro heap s json holds
  rw [Holds] at holds
  rcases holds with ⟨_, items, found, each⟩
  have run := cloneItems_spec children (heap ++ [some (.array [])]) items [] (read_created heap _)
    (HoldsItems.congr (created_holds heap _) values each)
  have unfolded : clone (fuel + 1) heap json =
      (items.foldlM (cloneItem (clone fuel) heap.length) (heap ++ [some (.array [])])).bind fun filled =>
        .ok (filled, heap.length) := by
    rw [clone, found]
    rfl
  rw [allSet, unfolded]
  constructor
  · intro set
    rcases run.1 set with ⟨filled, made, done, grown, at_, held⟩
    refine ⟨filled, heap.length, by rw [done]; rfl, grown.created, ?_⟩
    rw [Holds]
    exact ⟨Nat.le_refl _, made, at_, HoldsItems.congr (fun _ _ behind same => ⟨Nat.le_of_lt behind, same⟩) values held⟩
  · intro unset
    rw [run.2 unset]
    rfl

theorem clones_object {fuel : Nat} {values : List (Bytes × Json R)} (distinct : OrderedMap.Distinct values)
    (children : ∀ entry ∈ values, Clones fuel entry.2) : Clones (fuel + 1) (object values) := by
  intro heap s json holds
  rw [Holds] at holds
  rcases holds with ⟨_, entries, found, each⟩
  have run := cloneEntries_spec children (heap ++ [some (.object [])]) entries [] (read_created heap _)
    (HoldsEntries.congr (created_holds heap _) values each) distinct
  have unfolded : clone (fuel + 1) heap json =
      (entries.foldlM (cloneEntry (clone fuel) heap.length) (heap ++ [some (.object [])])).bind fun filled =>
        .ok (filled, heap.length) := by
    rw [clone, found]
    rfl
  rw [allSet, unfolded]
  constructor
  · intro set
    rcases run.1 set with ⟨filled, made, done, grown, at_, held⟩
    refine ⟨filled, heap.length, by rw [done]; rfl, grown.created, ?_⟩
    rw [Holds]
    exact ⟨Nat.le_refl _, made, at_, HoldsEntries.congr (fun _ _ behind same => ⟨Nat.le_of_lt behind, same⟩) values held⟩
  · intro unset
    rw [run.2 unset]
    rfl

theorem Clones.below {value : Json R} (clones : ∀ fuel, levels value ≤ fuel + 1 → Clones (fuel + 1) value) {fuel : Nat}
    (deep : levels value ≤ fuel) : Clones fuel value := by
  have some_ := levels_pos value
  cases fuel with
  | zero => omega
  | succ fuel => exact clones fuel deep

theorem Constructible.clones {value : Json R} (constructible : Constructible value) :
    ∀ fuel, levels value ≤ fuel + 1 → Clones (fuel + 1) value := by
  induction constructible with
  | null =>
    intro fuel _
    apply clones_of_write .null (by simp [allSet]) (fun _ _ _ => by rw [Holds])
    intro heap json found
    rw [clone, found]
    show Except.ok (heap ++ [some .null], _) = _
    rw [Heap.write, List.set_append_right _ _ (Nat.le_refl _), Nat.sub_self]
    rfl
  | bool value =>
    intro fuel _
    apply clones_of_write (.bool value) (by simp [allSet]) (fun _ _ _ => by rw [Holds])
    intro heap json found
    rw [clone, found]
    rfl
  | int value =>
    intro fuel _
    apply clones_of_write (.int value) (by simp [allSet]) (fun _ _ _ => by rw [Holds])
    intro heap json found
    rw [clone, found]
    rfl
  | real value =>
    intro fuel _
    apply clones_of_write (.real value) (by simp [allSet]) (fun _ _ _ => by rw [Holds])
    intro heap json found
    rw [clone, found]
    rfl
  | unset =>
    intro fuel _ heap s json holds
    rw [Holds] at holds
    constructor
    · intro set
      rw [allSet] at set
      cases set
    · intro _
      rw [clone, holds.2]
      rfl
  | @text t clean =>
    intro fuel _
    apply clones_of_write (.text (some t)) (by simp [allSet]) (fun _ _ _ => by rw [Holds])
    intro heap json found
    rw [clone, found]
    show Except.ok (Heap.write _ _ (.text (some (cString t))), _) = _
    rw [cString_of_clean clean]
  | @array values _ ih =>
    intro fuel deep
    rw [levels] at deep
    refine clones_array fun value member => Clones.below (ih value member) ?_
    exact Nat.le_trans (levels_le_levelsItems member) (Nat.le_of_succ_le_succ deep)
  | @object values distinct _ _ ih =>
    intro fuel deep
    rw [levels] at deep
    refine clones_object distinct fun entry member => Clones.below (ih entry member) ?_
    exact Nat.le_trans (levels_le_levelsEntries member) (Nat.le_of_succ_le_succ deep)

/-! ## Nothing shared -/

theorem inside_of_leaf {heap : Heap R} {s : Nat → Prop} {json a : Nat} {cell : Cell R} (inside : s json)
    (found : heap.read json = some cell) (leaf : cell.children = []) (reaches : Reaches heap json a) : s a := by
  cases reaches with
  | self => exact inside
  | child read among _ =>
    rw [found] at read
    cases read
    rw [leaf] at among
    cases among

mutual

theorem Holds.reaches_inside {heap : Heap R} {s : Nat → Prop} : {json : Nat} → (value : Json R) → Holds heap s json value →
    ∀ a, Reaches heap json a → s a
  | _, null, holds, a, reaches => by
    rw [Holds] at holds
    exact inside_of_leaf holds.1 holds.2 rfl reaches
  | _, bool _, holds, a, reaches => by
    rw [Holds] at holds
    exact inside_of_leaf holds.1 holds.2 rfl reaches
  | _, int _, holds, a, reaches => by
    rw [Holds] at holds
    exact inside_of_leaf holds.1 holds.2 rfl reaches
  | _, real _, holds, a, reaches => by
    rw [Holds] at holds
    exact inside_of_leaf holds.1 holds.2 rfl reaches
  | _, text _, holds, a, reaches => by
    rw [Holds] at holds
    exact inside_of_leaf holds.1 holds.2 rfl reaches
  | _, array values, holds, a, reaches => by
    rw [Holds] at holds
    rcases holds with ⟨inside, items, found, each⟩
    cases reaches with
    | self => exact inside
    | child read among further =>
      rw [found] at read
      cases read
      exact HoldsItems.reaches_inside values each _ among a further
  | _, object values, holds, a, reaches => by
    rw [Holds] at holds
    rcases holds with ⟨inside, entries, found, each⟩
    cases reaches with
    | self => exact inside
    | child read among further =>
      rw [found] at read
      cases read
      exact HoldsEntries.reaches_inside values each _ among a further

theorem HoldsItems.reaches_inside {heap : Heap R} {s : Nat → Prop} : {items : List Nat} → (values : List (Json R)) →
    HoldsItems heap s items values → ∀ item ∈ items, ∀ a, Reaches heap item a → s a
  | _, [], holds, item, member, _, _ => by
    rw [HoldsItems] at holds
    rw [holds] at member
    cases member
  | _, value :: values, holds, item, member, a, reaches => by
    rw [HoldsItems] at holds
    rcases holds with ⟨first, rest, rfl, held, others⟩
    rcases List.mem_cons.mp member with same | later
    · exact Holds.reaches_inside value (same ▸ held) a reaches
    · exact HoldsItems.reaches_inside values others item later a reaches

theorem HoldsEntries.reaches_inside {heap : Heap R} {s : Nat → Prop} : {entries : List (Bytes × Nat)} →
    (values : List (Bytes × Json R)) → HoldsEntries heap s entries values →
    ∀ json ∈ entries.map (·.2), ∀ a, Reaches heap json a → s a
  | _, [], holds, json, member, _, _ => by
    rw [HoldsEntries] at holds
    rw [holds] at member
    cases member
  | _, (_, value) :: values, holds, json, member, a, reaches => by
    rw [HoldsEntries] at holds
    rcases holds with ⟨first, rest, rfl, held, others⟩
    rcases List.mem_cons.mp member with same | later
    · exact Holds.reaches_inside value (same ▸ held) a reaches
    · exact HoldsEntries.reaches_inside values others json later a reaches

end

def At (heap : Heap R) (json : Nat) (value : Json R) : Prop := Holds heap (fun _ => True) json value

/-- Both are the same value, with the entries of objects in the same order, and so print alike; no node
    belongs to both. Whatever becomes of the nodes of the one, the other stays what it is. -/
structure DeepCopy (heap : Heap R) (json copy : Nat) (value : Json R) : Prop where
  copied : At heap copy value
  kept : At heap json value
  apart : ∀ a, Reaches heap json a → ¬ Reaches heap copy a
  original_changes : ∀ later : Heap R,
    (∀ a cell, ¬ Reaches heap json a → heap.read a = some cell → later.read a = some cell) → At later copy value
  copy_changes : ∀ later : Heap R,
    (∀ a cell, ¬ Reaches heap copy a → heap.read a = some cell → later.read a = some cell) → At later json value

theorem deepCopy_of_holds {heap : Heap R} {json copy : Nat} {value : Json R} {s : Nat → Prop} (old : Holds heap s json value)
    (new : Holds heap (fun a => ¬ s a) copy value) : DeepCopy heap json copy value where
  copied := Holds.congr (fun _ _ _ same => ⟨trivial, same⟩) value new
  kept := Holds.congr (fun _ _ _ same => ⟨trivial, same⟩) value old
  apart a ofOld ofNew := Holds.reaches_inside value new a ofNew (Holds.reaches_inside value old a ofOld)
  original_changes later elsewhere := by
    apply Holds.congr _ value new
    intro a cell outside found
    exact ⟨trivial, elsewhere a cell (fun reaches => outside (Holds.reaches_inside value old a reaches)) found⟩
  copy_changes later elsewhere := by
    apply Holds.congr _ value old
    intro a cell inside found
    exact ⟨trivial, elsewhere a cell (fun reaches => Holds.reaches_inside value new a reaches inside) found⟩

/-- A value is copied just when every text in it has been set. -/
theorem clone_iff {value : Json R} (constructible : Constructible value) {heap : Heap R} {json : Nat} (at_ : At heap json value)
    {fuel : Nat} (enough : levels value ≤ fuel) :
    (∃ other copy, clone fuel heap json = .ok (other, copy) ∧ DeepCopy other json copy value) ↔ allSet value = true := by
  have some_ := levels_pos value
  cases fuel with
  | zero => omega
  | succ fuel =>
    rcases constructible.clones fuel enough heap _ json at_ with ⟨whenSet, whenUnset⟩
    constructor
    · rintro ⟨other, copy, done, _⟩
      by_contra unset
      rw [whenUnset (Bool.not_eq_true _ ▸ unset)] at done
      cases done
    · intro set
      rcases whenSet set with ⟨other, copy, done, grown, held⟩
      refine ⟨other, copy, done, ?_⟩
      have old : Holds other (· < heap.length) json value := by
        apply Holds.congr _ value at_
        intro a cell _ found
        have bound := read_bound found
        exact ⟨bound, (grown.kept a bound not_false).trans found⟩
      apply deepCopy_of_holds old
      exact Holds.congr (fun a _ behind same => ⟨Nat.not_lt.mpr behind, same⟩) value held

theorem clone_iff_pair :
    (∃ other copy, clone 2 [some (.array [1, 2]), some (.text (some (ascii "a"))), some (Cell.real (0 : Rat))] 0 = .ok (other, copy) ∧
      DeepCopy other 0 copy (array [text (some (ascii "a")), real 0])) ↔
        allSet (array [text (some (ascii "a")), real (0 : Rat)]) = true := by
  apply clone_iff
  · apply Constructible.array
    intro item member
    rcases List.mem_cons.mp member with first | rest
    · rw [first]
      exact .text (by decide)
    · rw [List.mem_singleton.mp rest]
      exact .real 0
  · rw [At, Holds]
    refine ⟨trivial, [1, 2], rfl, ?_⟩
    simp only [HoldsItems, Holds]
    exact ⟨1, [2], rfl, ⟨trivial, rfl⟩, 2, [], rfl, ⟨trivial, rfl⟩, rfl⟩
  · decide

/-- A text that was created and not set prints as the empty one and has no copy. -/
theorem clone_unset : At [some (Cell.text none)] 0 (text (R := Rat) none) ∧
    @serialize Rat halves (fun _ => []) none (text none) = .ok (ascii "\"\"" ++ [0]) ∧
    ∀ fuel, clone (fuel + 1) [some (Cell.text (R := Rat) none)] 0 = .error .failed := by
  refine ⟨?_, by rfl, fun _ => rfl⟩
  rw [At, Holds]
  exact ⟨trivial, rfl⟩

end BlueBird.Json
