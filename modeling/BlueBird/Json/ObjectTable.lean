import BlueBird.Json.Value
import BlueBird.Collections.LinkedChain
import Mathlib.Logic.Function.Basic

namespace BlueBird.Json

/-! ## The hash table of an object -/

/-- `_bb_hash_table_node_t`, at the address that refers to it; keys are C strings. -/
structure HashTableNode (V : Type) where
  key : Bytes
  value : V
  next : Option Nat
  orderPrev : Option Nat
  orderNext : Option Nat

/-- The `object` of a `struct BBJsonNode`, with the nodes that are allocated. -/
structure ObjectTable (V : Type) where
  heap : Nat → Option (HashTableNode V)
  fresh : Nat
  buckets : List (Option Nat)
  orderHead : Option Nat
  orderTail : Option Nat
  itemCount : Nat
  size : Nat

inductive ObjectErrorCode where
  | null
  | typeMismatch
  | alloc
  | notFound
  deriving DecidableEq

structure ObjectError where
  code : ObjectErrorCode
  message : String
  deriving DecidableEq

def resizeFailed : ObjectError := ⟨.alloc, "Failed to resize hash table."⟩
def allocationFailed : ObjectError := ⟨.alloc, "Allocation failed"⟩
def cloneFailed : ObjectError := ⟨.alloc, "Allocation failed."⟩
def keyNotFound : ObjectError := ⟨.notFound, "Key not found"⟩
def nullJson : ObjectError := ⟨.null, "NULL JSON."⟩
def objectExpected : ObjectError := ⟨.typeMismatch, "JSON object expected."⟩

/-- Which allocations of one `bb_json_object_set_value` succeed: the new buckets, the node and its key. -/
structure SetMemory where
  buckets : Bool
  node : Bool
  key : Bool

def wrap64 (n : Nat) : Nat := n % 2^64

def hashFunction (str : Bytes) (bucketCount : Nat) : Nat :=
  (str.foldl (fun hash c => wrap64 (wrap64 (wrap64 (hash <<< 5) + hash) + c.toNat)) 5381) &&& (bucketCount - 1)

namespace ObjectTable

variable {V : Type}

/-- What `bb_json_create` sets up, with `BB_JSON_INITIAL_BUCKET_COUNT` buckets. -/
def create : ObjectTable V :=
  { heap := fun _ => none, fresh := 0, buckets := List.replicate 8 none, orderHead := none, orderTail := none,
    itemCount := 0, size := 0 }

def nextOf (t : ObjectTable V) (r : Nat) : Option (Option Nat) := (t.heap r).map (·.next)

def orderNextOf (t : ObjectTable V) (r : Nat) : Option (Option Nat) := (t.heap r).map (·.orderNext)

def orderPrevOf (t : ObjectTable V) (r : Nat) : Option (Option Nat) := (t.heap r).map (·.orderPrev)

def itemAt (t : ObjectTable V) (r : Nat) : Option (Bytes × V) := (t.heap r).map fun node => (node.key, node.value)

/-- The nodes are never more than what has been allocated, so a longer walk goes round in a circle. -/
def fuel (t : ObjectTable V) : Nat := t.fresh + 1

def withNode (t : ObjectTable V) (r : Nat) (node : HashTableNode V) : ObjectTable V :=
  { t with heap := Function.update t.heap r (some node) }

/-- Writes to a node; none when it is not allocated. -/
def change (t : ObjectTable V) (r : Nat) (f : HashTableNode V → HashTableNode V) : Option (ObjectTable V) :=
  (t.heap r).map fun node => t.withNode r (f node)

/-- The inner loop of `_json_object_resize`: the nodes of one old bucket go to the front of their new ones. -/
def relinkChain (newBucketCount : Nat) : Nat → Option Nat → ObjectTable V × List (Option Nat) →
    Option (ObjectTable V × List (Option Nat))
  | 0, _, _ => none
  | _ + 1, none, made => some made
  | fuel + 1, some r, made =>
    (made.1.heap r).bind fun node =>
      (made.2[hashFunction node.key newBucketCount]?).bind fun first =>
        relinkChain newBucketCount fuel node.next
          (made.1.withNode r { node with next := first }, made.2.set (hashFunction node.key newBucketCount) (some r))

def relinkBuckets (newBucketCount fuel : Nat) : List (Option Nat) → ObjectTable V × List (Option Nat) →
    Option (ObjectTable V × List (Option Nat))
  | [], made => some made
  | start :: buckets, made =>
    (relinkChain newBucketCount fuel start made).bind (relinkBuckets newBucketCount fuel buckets)

/-- `_json_object_resize`: false stands for -1. Eight bytes to a bucket have to fit a `size_t`. -/
def resize (t : ObjectTable V) (newBucketCount : Nat) (granted : Bool) : Option (ObjectTable V × Bool) :=
  if granted = true ∧ newBucketCount * 8 < 2^64 then
    (relinkBuckets newBucketCount t.fuel t.buckets (t, List.replicate newBucketCount none)).map fun made =>
      ({ made.1 with buckets := made.2 }, true)
  else some (t, false)

/-- The walk along a bucket, with the node before the one that it ends at. -/
def search (t : ObjectTable V) (key : Bytes) : Nat → Option Nat → Option Nat → Option (Option Nat × Option Nat)
  | 0, _, _ => none
  | _ + 1, prev, none => some (prev, none)
  | fuel + 1, prev, some r =>
    (t.heap r).bind fun node =>
      if node.key = key then some (prev, some r) else search t key fuel (some r) node.next

def find (t : ObjectTable V) (key : Bytes) : Option (Option Nat × Option Nat) :=
  (t.buckets[hashFunction key t.buckets.length]?).bind fun start => t.search key t.fuel none start

def linkNext (t : ObjectTable V) (index : Nat) (prev next : Option Nat) : Option (ObjectTable V) :=
  match prev with
  | some p => t.change p fun node => { node with next }
  | none => some { t with buckets := t.buckets.set index next }

/-- The node before in the order, or else the head, refers to another node. -/
def linkOrderNext (t : ObjectTable V) (prev next : Option Nat) : Option (ObjectTable V) :=
  match prev with
  | some p => t.change p fun node => { node with orderNext := next }
  | none => some { t with orderHead := next }

def linkOrderPrev (t : ObjectTable V) (prev next : Option Nat) : Option (ObjectTable V) :=
  match next with
  | some n => t.change n fun node => { node with orderPrev := prev }
  | none => some { t with orderTail := prev }

/-- A new node, at the front of its bucket and at the end of the order. -/
def insert (t : ObjectTable V) (key : Bytes) (value : V) : Option (ObjectTable V) :=
  let index := hashFunction key t.buckets.length
  (t.buckets[index]?).bind fun first =>
    let node : HashTableNode V := { key, value, next := first, orderPrev := t.orderTail, orderNext := none }
    let chained := { t.withNode t.fresh node with fresh := t.fresh + 1, buckets := t.buckets.set index (some t.fresh) }
    (chained.linkOrderNext t.orderTail (some t.fresh)).map fun made =>
      { made with orderTail := some t.fresh, itemCount := t.itemCount + 1, size := t.size + 1 }

/-- The load factor of 3/4, in `size_t`. -/
def makeRoom (t : ObjectTable V) (granted : Bool) : Option (ObjectTable V × Bool) :=
  if wrap64 (t.buckets.length * 3) ≤ wrap64 (t.itemCount * 4) then t.resize (wrap64 (t.buckets.length * 2)) granted
  else some (t, true)

/-- `bb_json_object_set_value` after the resize. -/
def put (t : ObjectTable V) (key : Bytes) (value : V) (memory : SetMemory) : Option (ObjectTable V × Option ObjectError) :=
  (t.find key).bind fun found =>
    match found.2 with
    | some r => (t.change r fun node => { node with value }).map fun made => (made, none)
    | none =>
      if memory.node && memory.key then (t.insert key value).map fun made => (made, none)
      else some (t, some allocationFailed)

/-- `bb_json_object_set_value`; none when it reads or writes a node that is not allocated. -/
def setValue (t : ObjectTable V) (key : Bytes) (value : V) (memory : SetMemory) :
    Option (ObjectTable V × Option ObjectError) :=
  (t.makeRoom memory.buckets).bind fun room =>
    if room.2 then room.1.put key value memory else some (room.1, some resizeFailed)

def getValue (t : ObjectTable V) (key : Bytes) : Option (Option V) :=
  (t.find key).bind fun found =>
    match found.2 with
    | some r => (t.heap r).map fun node => some node.value
    | none => some none

/-- `bb_json_object_remove_key`. -/
def removeKey (t : ObjectTable V) (key : Bytes) : Option (ObjectTable V × Option ObjectError) :=
  (t.find key).bind fun found =>
    match found.2 with
    | none => some (t, some keyNotFound)
    | some r =>
      (t.heap r).bind fun node =>
        ((t.linkNext (hashFunction key t.buckets.length) found.1 node.next).bind fun unlinked =>
          (unlinked.linkOrderNext node.orderPrev node.orderNext).bind fun unlinked =>
            unlinked.linkOrderPrev node.orderPrev node.orderNext).map fun unlinked =>
          ({ unlinked with
             heap := Function.update unlinked.heap r none, itemCount := t.itemCount - 1, size := t.size - 1 }, none)

/-! ## What a walk over the table shows -/

def itemsFrom (t : ObjectTable V) (next : Nat → Option (Option Nat)) (start : Option Nat) : Option (List (Bytes × V)) :=
  (LinkedChain.walk next t.fuel start).map fun rs => rs.filterMap t.itemAt

def items (t : ObjectTable V) : Option (List (Bytes × V)) := t.itemsFrom t.orderNextOf t.orderHead

def bucketItems (t : ObjectTable V) : List (Option (List (Bytes × V))) := t.buckets.map (t.itemsFrom t.nextOf)

/-! ## Merging -/

/-- Which allocations of one step of `bb_json_object_merge` succeed. -/
structure MergeMemory where
  clone : Bool
  set : SetMemory

/-- What is merged into an object: another object, of which a value may hold the target itself and is what it is
    when it is copied; the target; or an object that the value under a key of the target holds. -/
inductive Source (V : Type) where
  | apart (entries : List (Bytes × (List (Bytes × V) → V)))
  | itself
  | nested (key : Bytes) (pick : V → Option (List (Bytes × V)))

/-- The loop of `bb_json_object_merge`, with what it has set. A source under the key `holder` is gone once that
    key has another value, and then the walk goes on in freed memory. -/
def mergeEntries (holder : Option Bytes) : List (Bytes × (List (Bytes × V) → V)) → (Nat → MergeMemory) → ObjectTable V →
    Option (ObjectTable V × List (Bytes × V) × Option ObjectError)
  | [], _, t => some (t, [], none)
  | entry :: entries, memory, t =>
    t.items.bind fun held =>
      if (memory 0).clone then
        (t.setValue entry.1 (entry.2 held) (memory 0).set).bind fun done =>
          match done.2 with
          | some e => some (done.1, [], some e)
          | none =>
            if holder = some entry.1 then none
            else (mergeEntries holder entries (fun i => memory (i + 1)) done.1).map fun rest =>
              (rest.1, (entry.1, entry.2 held) :: rest.2.1, rest.2.2)
      else some (t, [], some cloneFailed)

/-- The same loop along the order list of the target. -/
def mergeItself : Nat → Option Nat → (Nat → MergeMemory) → ObjectTable V →
    Option (ObjectTable V × List (Bytes × V) × Option ObjectError)
  | 0, _, _, _ => none
  | _ + 1, none, _, t => some (t, [], none)
  | fuel + 1, some r, memory, t =>
    (t.itemAt r).bind fun item =>
      if (memory 0).clone then
        (t.setValue item.1 item.2 (memory 0).set).bind fun done =>
          match done.2 with
          | some e => some (done.1, [], some e)
          | none =>
            (done.1.orderNextOf r).bind fun next =>
              (mergeItself fuel next (fun i => memory (i + 1)) done.1).map fun rest =>
                (rest.1, item :: rest.2.1, rest.2.2)
      else some (t, [], some cloneFailed)

/-- `bb_json_object_merge`, with the settings that it made. -/
def merge (t : ObjectTable V) (source : Source V) (memory : Nat → MergeMemory) :
    Option (ObjectTable V × List (Bytes × V) × Option ObjectError) :=
  match source with
  | .apart entries => mergeEntries none entries memory t
  | .itself => mergeItself t.fuel t.orderHead memory t
  | .nested key pick =>
    (t.getValue key).bind fun found =>
      match found with
      | none => some (t, [], some nullJson)
      | some value =>
        match pick value with
        | none => some (t, [], some objectExpected)
        | some entries => mergeEntries (some key) (entries.map fun entry => (entry.1, fun _ => entry.2)) memory t

end ObjectTable

end BlueBird.Json
