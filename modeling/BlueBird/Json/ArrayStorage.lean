import Mathlib.Algebra.Ring.Nat
import Mathlib.Data.List.Basic

/-! The block of slots behind a JSON array, where memory can run out. -/

namespace BlueBird.Json

/-- `dynamic_array` of a `bb_json_t` with its `size`. `array` is NULL or the slots of the block it points to,
    a slot NULL or a node. -/
structure ArrayStorage (Node : Type) where
  size : Nat := 0
  allocSize : Nat := 0
  array : Option (List (Option Node)) := none

inductive ArrayError where
  | nullJson | overflow | alloc
  deriving DecidableEq

/-- What a call does that does not return: it leaves its block, or its loop does not end. -/
inductive Fault where
  | wild | endless
  deriving DecidableEq

/-- What an allocation is answered: nothing, or a block with these nodes in it. -/
abbrev Granted (Node : Type) : Type := Option (Nat → Option Node)

inductive ArrayOp (Node : Type) where
  | push (element : Option Node) (memory : Granted Node)
  | removeAtIndex (index : UInt32)

namespace ArrayStorage

variable {Node : Type}

def sizeT (n : Nat) : Nat := n % 2^64
def unsignedInt (n : Nat) : Nat := n % 2^32

def slotBytes : Nat := 8

/-- No object is larger than `PTRDIFF_MAX`. -/
def malloc (bytes : Nat) (memory : Granted Node) : Option (List (Option Node)) :=
  if bytes < 2^63 then memory.map fun junk => (List.range (bytes / slotBytes)).map junk else none

def realloc (slots : List (Option Node)) (bytes : Nat) (memory : Granted Node) : Option (List (Option Node)) :=
  (malloc bytes memory).map fun block => slots.take block.length ++ block.drop slots.length

def load (a : ArrayStorage Node) (i : Nat) : Except Fault (Option Node) :=
  match (a.array.getD [])[i]? with
  | some slot => .ok slot
  | none => .error .wild

def store (a : ArrayStorage Node) (i : Nat) (slot : Option Node) : Except Fault (ArrayStorage Node) :=
  if i < (a.array.getD []).length then .ok { a with array := a.array.map (·.set i slot) } else .error .wild

/-- What a slot is overwritten with that takes over the one behind it. -/
def following (a : ArrayStorage Node) (i : Nat) : Except Fault (Option Node) :=
  if i < a.allocSize then a.load i else .ok none

/-- `bb_json_array_push` before it stores the element, and whether it goes on to. -/
def makeRoom (a : ArrayStorage Node) (memory : Granted Node) : ArrayStorage Node × Bool :=
  if a.allocSize = 0 then
    let block := malloc (sizeT (1 * slotBytes)) memory
    ({ a with allocSize := 1, array := block }, block.isSome)
  else if a.allocSize = a.size then
    match realloc (a.array.getD []) (sizeT (a.allocSize * 2 * slotBytes)) memory with
    | none => (a, false)
    | some block => ({ a with allocSize := sizeT (a.allocSize * 2), array := some block }, true)
  else (a, true)

def push (a : ArrayStorage Node) (element : Option Node) (memory : Granted Node) :
    Except Fault (ArrayStorage Node × Option ArrayError) :=
  match element with
  | none => .ok (a, some .nullJson)
  | some node =>
    let room := a.makeRoom memory
    if room.2 then
      (room.1.store room.1.size (some node)).map fun stored => ({ stored with size := sizeT (stored.size + 1) }, none)
    else .ok (room.1, some .alloc)

/-- The loop of `bb_json_array_remove_at_index`. Its `i` is an `unsigned int`, so in an array of more elements
    than that can count it never gets to the end, whatever the fuel. -/
def shiftDown : Nat → ArrayStorage Node → Nat → Except Fault (ArrayStorage Node)
  | 0, _, _ => .error .endless
  | fuel + 1, a, i =>
    if i < a.size then do
      let next ← a.following (unsignedInt (i + 1))
      let stored ← a.store i next
      shiftDown fuel stored (unsignedInt (i + 1))
    else .ok a

def removeAtIndex (a : ArrayStorage Node) (index : UInt32) : Except Fault (ArrayStorage Node × Option ArrayError) :=
  if a.size ≤ index.toNat then .ok (a, some .overflow)
  else (shiftDown (a.size + 1) a index.toNat).map fun shifted => ({ shifted with size := shifted.size - 1 }, none)

def step (a : ArrayStorage Node) : ArrayOp Node → Except Fault (ArrayStorage Node × Option ArrayError)
  | .push element memory => a.push element memory
  | .removeAtIndex index => a.removeAtIndex index

/-! ## The law -/

def slots (a : ArrayStorage Node) : List (Option Node) := a.array.getD []

def elements (a : ArrayStorage Node) : List (Option Node) := a.slots.take a.size

/-- The recorded capacity is that of the block, and the elements are in it. -/
structure Sound (a : ArrayStorage Node) : Prop where
  capacity : a.allocSize = a.slots.length
  inside : a.size ≤ a.allocSize

def applied (elements : List (Option Node)) : ArrayOp Node → List (Option Node)
  | .push element _ => elements ++ [element]
  | .removeAtIndex index => elements.eraseIdx index.toNat

/-- What comes of one operation is as it should be: done, or refused with nothing changed. -/
def Atomic (a : ArrayStorage Node) (op : ArrayOp Node) (b : ArrayStorage Node) : Option ArrayError → Prop
  | some _ => b.elements = a.elements ∧ b.size = a.size ∧ b.allocSize = a.allocSize
  | none => b.elements = applied a.elements op

/-- Along all the operations that return, and no operation leaves the block. -/
def Law : ArrayStorage Node → List (ArrayOp Node) → Prop
  | a, [] => a.Sound
  | a, op :: ops => a.Sound ∧ a.step op ≠ .error .wild ∧
    ∀ b result, a.step op = .ok (b, result) → Atomic a op b result ∧ Law b ops

def FirstGranted : ArrayStorage Node → List (ArrayOp Node) → Prop
  | _, [] => True
  | a, op :: ops => (∀ node, op = .push (some node) none → a.allocSize ≠ 0) ∧
    ∀ b result, a.step op = .ok (b, result) → FirstGranted b ops

/-! ## One access -/

theorem store_ok {a : ArrayStorage Node} {i : Nat} (inside : i < a.slots.length) (slot : Option Node) :
    ∃ b, a.store i slot = .ok b ∧ b.size = a.size ∧ b.allocSize = a.allocSize ∧ b.slots = a.slots.set i slot := by
  unfold store
  unfold slots at inside
  rw [if_pos inside]
  refine ⟨_, rfl, rfl, rfl, ?_⟩
  cases array : a.array with
  | none =>
    rw [array] at inside
    cases inside
  | some block =>
    unfold slots
    rw [array]
    rfl

theorem following_ok {a : ArrayStorage Node} (capacity : a.allocSize = a.slots.length) (i : Nat) :
    a.following i = .ok ((a.slots[i]?).getD none) := by
  unfold following
  by_cases inside : i < a.allocSize
  · have there : i < a.slots.length := by omega
    rw [if_pos inside]
    unfold slots at there
    unfold load slots
    simp only [List.getElem?_eq_getElem there]
    rfl
  · rw [if_neg inside, List.getElem?_eq_none (by omega)]
    rfl

theorem Sound.of_store {a b : ArrayStorage Node} (sound : a.Sound) {i : Nat} {slot : Option Node} (size : b.size = a.size)
    (allocSize : b.allocSize = a.allocSize) (slots : b.slots = a.slots.set i slot) : b.Sound where
  capacity := by rw [allocSize, slots, List.length_set, sound.capacity]
  inside := by rw [size, allocSize]; exact sound.inside

theorem shiftDown_turn {a : ArrayStorage Node} (sound : a.Sound) {i : Nat} (more : i < a.size) (fuel : Nat) :
    ∃ b : ArrayStorage Node, b.size = a.size ∧ b.allocSize = a.allocSize ∧
      b.slots = a.slots.set i ((a.slots[unsignedInt (i + 1)]?).getD none) ∧
      shiftDown (fuel + 1) a i = shiftDown fuel b (unsignedInt (i + 1)) := by
  have inside : i < a.slots.length := by
    have capacity := sound.capacity
    have fits := sound.inside
    omega
  rcases store_ok inside ((a.slots[unsignedInt (i + 1)]?).getD none) with ⟨b, stored, size, allocSize, slots⟩
  refine ⟨b, size, allocSize, slots, ?_⟩
  rw [shiftDown, if_pos more, following_ok sound.capacity]
  show (do
    let stored ← a.store i ((a.slots[unsignedInt (i + 1)]?).getD none)
    shiftDown fuel stored (unsignedInt (i + 1))) = _
  rw [stored]
  rfl

/-! ## The loop -/

/-- With a number of elements that an `unsigned int` can count, the loop ends and has moved each down by one. -/
theorem shiftDown_spec (fuel : Nat) {a : ArrayStorage Node} (sound : a.Sound) (small : a.size < 2^32) {i : Nat}
    (start : i ≤ a.size) (enough : a.size - i < fuel) :
    ∃ b, shiftDown fuel a i = .ok b ∧ b.size = a.size ∧ b.allocSize = a.allocSize ∧ b.slots.length = a.slots.length ∧
      ∀ j, b.slots[j]? = if i ≤ j ∧ j < a.size then some ((a.slots[j + 1]?).getD none) else a.slots[j]? := by
  induction fuel generalizing a i with
  | zero => omega
  | succ fuel ih =>
    by_cases more : i < a.size
    · have exact_ : unsignedInt (i + 1) = i + 1 := Nat.mod_eq_of_lt (by omega)
      rcases shiftDown_turn sound more fuel with ⟨b, size, allocSize, slots, turn⟩
      rw [exact_] at slots turn
      rcases @ih b (sound.of_store size allocSize slots) (by omega) (i + 1) (by omega) (by omega) with
        ⟨c, result, size', allocSize', length, content⟩
      refine ⟨c, by rw [turn, result], by omega, by omega, by rw [length, slots, List.length_set], ?_⟩
      intro j
      have within : i < a.slots.length := by
        have capacity := sound.capacity
        have fits := sound.inside
        omega
      rw [content j, slots, size]
      by_cases here : j = i
      · rw [here, if_neg (by omega), if_pos ⟨Nat.le_refl i, more⟩, List.getElem?_set_self within]
      · rw [List.getElem?_set_ne (Ne.symm here)]
        by_cases behind : i + 1 ≤ j ∧ j < a.size
        · rw [if_pos behind, if_pos ⟨by omega, behind.2⟩, List.getElem?_set_ne (by omega)]
        · rw [if_neg behind, if_neg (by omega)]
    · refine ⟨a, by rw [shiftDown, if_neg more], rfl, rfl, rfl, ?_⟩
      intro j
      rw [if_neg (by omega)]

theorem shiftDown_endless (fuel : Nat) {a : ArrayStorage Node} (sound : a.Sound) (large : 2^32 ≤ a.size) {i : Nat}
    (counted : i < 2^32) : shiftDown fuel a i = .error .endless := by
  induction fuel generalizing a i with
  | zero => rfl
  | succ fuel ih =>
    rcases shiftDown_turn sound (i := i) (by omega) fuel with ⟨b, size, allocSize, slots, turn⟩
    rw [turn]
    exact ih (sound.of_store size allocSize slots) (by omega) (Nat.mod_lt _ (by omega))

/-! ## One operation -/

/-- A sound array whose block is no larger than a block can be. -/
structure Held (a : ArrayStorage Node) : Prop extends a.Sound where
  block : a.allocSize * slotBytes < 2^63

theorem malloc_length {bytes : Nat} {memory : Granted Node} {block : List (Option Node)} (given : malloc bytes memory = some block) :
    bytes < 2^63 ∧ block.length = bytes / slotBytes := by
  unfold malloc at given
  by_cases possible : bytes < 2^63
  · rw [if_pos possible] at given
    rcases Option.map_eq_some_iff.mp given with ⟨junk, _, same⟩
    refine ⟨possible, ?_⟩
    rw [← same, List.length_map, List.length_range]
  · rw [if_neg possible] at given
    cases given

theorem realloc_spec {slots block : List (Option Node)} {bytes : Nat} {memory : Granted Node}
    (given : realloc slots bytes memory = some block) (grows : slots.length ≤ bytes / slotBytes) :
    bytes < 2^63 ∧ block.length = bytes / slotBytes ∧ block.take slots.length = slots := by
  rcases Option.map_eq_some_iff.mp given with ⟨fresh, allocated, same⟩
  rcases malloc_length allocated with ⟨possible, length⟩
  have whole : slots.take fresh.length = slots := List.take_of_length_le (by omega)
  rw [whole] at same
  rw [← same]
  refine ⟨possible, ?_, List.take_left' rfl⟩
  rw [List.length_append, List.length_drop]
  omega

theorem makeRoom_spec {a : ArrayStorage Node} (held : a.Held) {memory : Granted Node} (first : memory = none → a.allocSize ≠ 0) :
    (a.makeRoom memory).1.Held ∧ (a.makeRoom memory).1.elements = a.elements ∧ (a.makeRoom memory).1.size = a.size ∧
      if (a.makeRoom memory).2 then a.size < (a.makeRoom memory).1.allocSize
      else (a.makeRoom memory).1.allocSize = a.allocSize := by
  have capacity := held.capacity
  have inside := held.inside
  have block := held.block
  unfold slotBytes at block
  unfold makeRoom
  by_cases empty : a.allocSize = 0
  · rw [if_pos empty]
    cases memory with
    | none => exact absurd empty (first rfl)
    | some junk =>
      have none_ : a.size = 0 := by omega
      have given : malloc (sizeT (1 * slotBytes)) (some junk) = some [junk 0] := by
        unfold malloc sizeT slotBytes
        rfl
      rw [given]
      refine ⟨⟨⟨rfl, ?_⟩, ?_⟩, ?_, rfl, ?_⟩
      · show a.size ≤ 1
        omega
      · show 1 * slotBytes < 2^63
        decide
      · show List.take a.size _ = List.take a.size _
        rw [none_]
        rfl
      · show a.size < 1
        omega
  · rw [if_neg empty]
    by_cases full : a.allocSize = a.size
    · rw [if_pos full]
      cases given : realloc (a.array.getD []) (sizeT (a.allocSize * 2 * slotBytes)) memory with
      | none => exact ⟨held, rfl, rfl, by rw [if_neg Bool.false_ne_true]⟩
      | some grown =>
        have bytes : sizeT (a.allocSize * 2 * slotBytes) = a.allocSize * 2 * slotBytes := by
          unfold sizeT slotBytes
          omega
        rw [bytes] at given
        have length : a.slots.length ≤ a.allocSize * 2 * slotBytes / slotBytes := by
          unfold slotBytes
          omega
        rcases realloc_spec given length with ⟨possible, size, kept⟩
        have doubled : sizeT (a.allocSize * 2) = a.allocSize * 2 := by
          unfold sizeT
          unfold slotBytes at possible
          omega
        have slots_ : grown.length = a.allocSize * 2 := by
          rw [size]
          unfold slotBytes
          omega
        refine ⟨⟨⟨?_, ?_⟩, ?_⟩, ?_, rfl, ?_⟩
        · show sizeT (a.allocSize * 2) = grown.length
          omega
        · show a.size ≤ sizeT (a.allocSize * 2)
          omega
        · show sizeT (a.allocSize * 2) * slotBytes < 2^63
          rw [doubled]
          exact possible
        · show grown.take a.size = a.slots.take a.size
          have all : a.size = a.slots.length := by omega
          rw [all, List.take_length]
          exact kept
        · rw [if_pos rfl]
          show a.size < sizeT (a.allocSize * 2)
          omega
    · rw [if_neg full]
      refine ⟨held, rfl, rfl, ?_⟩
      show a.size < a.allocSize
      omega

theorem push_spec {a : ArrayStorage Node} (held : a.Held) (element : Option Node) {memory : Granted Node}
    (first : ∀ node, element = some node → memory = none → a.allocSize ≠ 0) :
    ∃ b result, a.push element memory = .ok (b, result) ∧ b.Held ∧ Atomic a (.push element memory) b result := by
  cases element with
  | none => exact ⟨a, some .nullJson, rfl, held, rfl, rfl, rfl⟩
  | some node =>
    rcases makeRoom_spec held (first node rfl) with ⟨room, elements, size, space⟩
    unfold push
    cases granted : (a.makeRoom memory).2 with
    | false =>
      rw [granted, if_neg Bool.false_ne_true] at space
      exact ⟨_, _, if_neg (by rw [granted]; exact Bool.false_ne_true), room, elements, size, space⟩
    | true =>
      rw [granted, if_pos rfl] at space
      have capacity := room.capacity
      have block := room.block
      unfold slotBytes at block
      have inside : (a.makeRoom memory).1.size < (a.makeRoom memory).1.slots.length := by omega
      rcases store_ok inside (some node) with ⟨b, stored, bSize, bAlloc, bSlots⟩
      have counted : sizeT (b.size + 1) = a.size + 1 := by
        unfold sizeT
        omega
      refine ⟨{ b with size := sizeT (b.size + 1) }, none, ?_, ⟨⟨?_, ?_⟩, ?_⟩, ?_⟩
      · show (if (a.makeRoom memory).2 = true then _ else _) = _
        rw [if_pos granted, stored]
        rfl
      · show b.allocSize = b.slots.length
        rw [bAlloc, bSlots, List.length_set, capacity]
      · show sizeT (b.size + 1) ≤ b.allocSize
        omega
      · show b.allocSize * slotBytes < 2^63
        unfold slotBytes
        omega
      · show b.slots.take (sizeT (b.size + 1)) = a.elements ++ [some node]
        rw [counted, bSlots, ← elements, List.take_add_one, size]
        rw [size] at inside
        rw [List.getElem?_set_self inside, List.take_set_of_le (Nat.le_refl _)]
        unfold ArrayStorage.elements
        rw [size]
        rfl

theorem removeAtIndex_spec {a : ArrayStorage Node} (held : a.Held) (index : UInt32) :
    a.removeAtIndex index = .error .endless ∨
      ∃ b result, a.removeAtIndex index = .ok (b, result) ∧ b.Held ∧ Atomic a (.removeAtIndex index) b result := by
  unfold removeAtIndex
  by_cases behind : a.size ≤ index.toNat
  · rw [if_pos behind]
    exact Or.inr ⟨a, some .overflow, rfl, held, rfl, rfl, rfl⟩
  · rw [if_neg behind]
    by_cases small : a.size < 2^32
    · rcases shiftDown_spec (a.size + 1) held.toSound small (i := index.toNat) (by omega) (by omega) with
        ⟨b, shifted, size, allocSize, length, content⟩
      have capacity := held.capacity
      have inside := held.inside
      have block := held.block
      refine Or.inr ⟨{ b with size := b.size - 1 }, none, by rw [shifted]; rfl, ⟨⟨?_, ?_⟩, ?_⟩, ?_⟩
      · show b.allocSize = b.slots.length
        omega
      · show b.size - 1 ≤ b.allocSize
        omega
      · show b.allocSize * slotBytes < 2^63
        rw [allocSize]
        exact block
      · show b.slots.take (b.size - 1) = (a.slots.take a.size).eraseIdx index.toNat
        apply List.ext_getElem?
        intro j
        rw [List.getElem?_eraseIdx, List.getElem?_take, List.getElem?_take, List.getElem?_take, content j, size]
        by_cases before : j < index.toNat
        · rw [if_pos before, if_pos (by omega), if_neg (by omega), if_pos (by omega)]
        · rw [if_neg before]
          by_cases last : j < a.size - 1
          · have there : j + 1 < a.slots.length := by omega
            rw [if_pos last, if_pos ⟨by omega, by omega⟩, if_pos (by omega), List.getElem?_eq_getElem there]
            rfl
          · rw [if_neg last, if_neg (by omega)]
    · rw [shiftDown_endless _ held.toSound (by omega) index.toNat_lt]
      exact Or.inl rfl

theorem step_spec {a : ArrayStorage Node} (held : a.Held) {op : ArrayOp Node}
    (first : ∀ node, op = .push (some node) none → a.allocSize ≠ 0) :
    a.step op = .error .endless ∨ ∃ b result, a.step op = .ok (b, result) ∧ b.Held ∧ Atomic a op b result := by
  cases op with
  | push element memory =>
    apply Or.inr
    apply push_spec held
    intro node some_ none_
    apply first node
    rw [some_, none_]
  | removeAtIndex index => exact removeAtIndex_spec held index

/-! ## Every sequence of operations -/

theorem law_of_firstGranted (ops : List (ArrayOp Node)) {a : ArrayStorage Node} (held : a.Held) (first : FirstGranted a ops) :
    Law a ops := by
  induction ops generalizing a with
  | nil => exact held.toSound
  | cons op ops ih =>
    refine ⟨held.toSound, ?_⟩
    rcases step_spec held first.1 with endless | ⟨b, result, stepped, kept, atomic⟩
    · rw [endless]
      exact ⟨fun wild => (by cases wild), fun b result stepped => by cases stepped⟩
    · rw [stepped]
      refine ⟨fun wild => (by cases wild), ?_⟩
      intro c other same
      cases same
      exact ⟨atomic, ih kept (first.2 b result stepped)⟩

theorem firstGranted_of_law (ops : List (ArrayOp Node)) {a : ArrayStorage Node} (law : Law a ops) : FirstGranted a ops := by
  induction ops generalizing a with
  | nil => exact True.intro
  | cons op ops ih =>
    refine ⟨?_, fun b result stepped => ih (law.2.2 b result stepped).2⟩
    intro node pushed empty
    have stepped : a.step op = .ok ({ a with allocSize := 1, array := none }, some .alloc) := by
      rw [pushed]
      show a.push (some node) none = _
      unfold push makeRoom
      rw [if_pos empty]
      rfl
    have changed := (law.2.2 _ _ stepped).1.2.2
    rw [empty] at changed
    cases changed

theorem held_empty : ({} : ArrayStorage Node).Held where
  capacity := rfl
  inside := Nat.le_refl 0
  block := by
    show 0 * slotBytes < 2^63
    decide

/-- On a new array every sequence of operations is as it should be exactly when the first block is always granted. -/
theorem law_iff (ops : List (ArrayOp Node)) : Law ({} : ArrayStorage Node) ops ↔ FirstGranted ({} : ArrayStorage Node) ops :=
  ⟨firstGranted_of_law ops, law_of_firstGranted ops held_empty⟩

theorem not_law_firstRefused : ¬ Law ({} : ArrayStorage Unit) [.push (some ()) none, .push (some ()) (some fun _ => none)] := by
  intro law
  have second := (law.2.2 { allocSize := 1, array := none } (some .alloc) rfl).2
  exact second.2.1 rfl

end ArrayStorage
end BlueBird.Json
