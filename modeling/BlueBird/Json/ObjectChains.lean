import BlueBird.Json.ObjectTable
import Mathlib.Data.List.Forall2

namespace BlueBird.Json

open LinkedChain

variable {V : Type}

theorem hashFunction_lt (str : Bytes) {bucketCount : Nat} (some_ : 0 < bucketCount) :
    hashFunction str bucketCount < bucketCount :=
  Nat.lt_of_le_of_lt Nat.and_le_right (Nat.sub_lt some_ Nat.one_pos)

namespace ObjectTable

/-! ## Reading a node after another was written -/

section
variable (t : ObjectTable V) (r : Nat) (node : HashTableNode V)

theorem heap_withNode (c : Nat) : (t.withNode r node).heap c = if c = r then some node else t.heap c := by
  show Function.update t.heap r (some node) c = _
  rw [Function.update_apply]

theorem nextOf_withNode (c : Nat) : (t.withNode r node).nextOf c = if c = r then some node.next else t.nextOf c := by
  unfold nextOf
  rw [heap_withNode]
  split <;> rfl

theorem orderNextOf_withNode (c : Nat) :
    (t.withNode r node).orderNextOf c = if c = r then some node.orderNext else t.orderNextOf c := by
  unfold orderNextOf
  rw [heap_withNode]
  split <;> rfl

theorem orderPrevOf_withNode (c : Nat) :
    (t.withNode r node).orderPrevOf c = if c = r then some node.orderPrev else t.orderPrevOf c := by
  unfold orderPrevOf
  rw [heap_withNode]
  split <;> rfl

theorem itemAt_withNode (c : Nat) :
    (t.withNode r node).itemAt c = if c = r then some (node.key, node.value) else t.itemAt c := by
  unfold itemAt
  rw [heap_withNode]
  split <;> rfl

end

theorem read_withNode {α : Type} {t : ObjectTable V} {r : Nat} {old new : HashTableNode V} (f : HashTableNode V → α)
    (there : t.heap r = some old) (same : f new = f old) : (fun c => ((t.withNode r new).heap c).map f) = fun c => (t.heap c).map f := by
  funext c
  rw [heap_withNode]
  by_cases here : c = r
  · rw [if_pos here, here, there, Option.map_some, Option.map_some, same]
  · rw [if_neg here]

theorem live_of_nextOf {t : ObjectTable V} {r : Nat} {after : Option Nat} (found : t.nextOf r = some after) :
    ∃ node, t.heap r = some node ∧ node.next = after := Option.map_eq_some_iff.mp found

theorem itemAt_eq {t : ObjectTable V} {r : Nat} {node : HashTableNode V} (there : t.heap r = some node) :
    t.itemAt r = some (node.key, node.value) := by
  unfold itemAt
  rw [there]
  rfl

/-! ## What holds of a table -/

def Hashes (t : ObjectTable V) (bucketCount r i : Nat) : Prop :=
  ∀ item, t.itemAt r = some item → hashFunction item.1 bucketCount = i

/-- The chains of the buckets: linked, and each node in the bucket that its key selects. -/
structure Chained (t : ObjectTable V) (chains : List (List Nat)) : Prop where
  linked : ∀ c ∈ chains, Linked t.nextOf c
  home : ∀ i c, chains[i]? = some c → ∀ r ∈ c, t.Hashes chains.length r i

/-- The table holds the nodes of `order`, in that order, and spread over the chains. -/
structure Holds (t : ObjectTable V) (order : List Nat) (chains : List (List Nat)) : Prop where
  head : t.orderHead = order.head?
  tail : t.orderTail = order.getLast?
  forward : Linked t.orderNextOf order
  backward : Linked t.orderPrevOf order.reverse
  once : order.Nodup
  below : ∀ r ∈ order, r < t.fresh
  buckets : t.buckets = chains.map List.head?
  chained : t.Chained chains
  gathered : chains.flatten.Perm order
  distinct : OrderedMap.Distinct (order.filterMap t.itemAt)
  counted : t.itemCount = order.length
  sized : t.size = order.length
  room : 0 < chains.length
  bounded : chains.length * 8 < 2^64

theorem create_holds : (create : ObjectTable V).Holds [] (List.replicate 8 []) where
  head := rfl
  tail := rfl
  forward := True.intro
  backward := True.intro
  once := List.nodup_nil
  below := fun _ member => by cases member
  buckets := rfl
  chained := by
    have empty : ∀ c ∈ List.replicate 8 ([] : List Nat), c = [] := fun c member => List.eq_of_mem_replicate member
    constructor
    · intro c member
      rw [empty c member]
      exact True.intro
    · intro i c found r member
      rw [empty c (List.mem_of_getElem? found)] at member
      cases member
  gathered := List.Perm.refl _
  distinct := List.nodup_nil
  counted := rfl
  sized := rfl
  room := by decide
  bounded := by decide

theorem items_length_of_live {t : ObjectTable V} {rs : List Nat}
    (live : ∀ r ∈ rs, ∃ node, t.heap r = some node) : (rs.filterMap t.itemAt).length = rs.length := by
  induction rs with
  | nil => rfl
  | cons r rs ih =>
    rcases live r List.mem_cons_self with ⟨node, there⟩
    rw [List.filterMap_cons_some (itemAt_eq there), List.length_cons, List.length_cons,
      ih fun s member => live s (List.mem_cons_of_mem _ member)]

section
variable {t : ObjectTable V} {order : List Nat} {chains : List (List Nat)}

theorem Holds.live (holds : t.Holds order chains) {r : Nat} (member : r ∈ order) : ∃ node, t.heap r = some node := by
  rcases holds.forward.live member with ⟨after, found⟩
  rcases Option.map_eq_some_iff.mp found with ⟨node, there, _⟩
  exact ⟨node, there⟩

theorem Holds.length_buckets (holds : t.Holds order chains) : t.buckets.length = chains.length := by
  rw [holds.buckets, List.length_map]

theorem Holds.mem_order (holds : t.Holds order chains) {c : List Nat} (chain : c ∈ chains) {r : Nat} (member : r ∈ c) : r ∈ order :=
  holds.gathered.mem_iff.mp (List.mem_flatten.mpr ⟨c, chain, member⟩)

theorem Holds.flat_once (holds : t.Holds order chains) : chains.flatten.Nodup := holds.gathered.nodup_iff.mpr holds.once

theorem Holds.chain_once (holds : t.Holds order chains) {c : List Nat} (chain : c ∈ chains) : c.Nodup :=
  (List.nodup_flatten.mp holds.flat_once).1 c chain

theorem Holds.enough (holds : t.Holds order chains) {rs : List Nat} (once : rs.Nodup) (within : ∀ r ∈ rs, r ∈ order) :
    rs.length < t.fuel := by
  have subset : rs ⊆ List.range t.fresh := fun r member => List.mem_range.mpr (holds.below r (within r member))
  have short := (List.subperm_of_subset once subset).length_le
  rw [List.length_range] at short
  exact Nat.lt_succ_of_le short

theorem Holds.chain_short (holds : t.Holds order chains) {c : List Nat} (chain : c ∈ chains) : c.length < t.fuel :=
  holds.enough (holds.chain_once chain) fun _ member => holds.mem_order chain member

theorem Holds.order_short (holds : t.Holds order chains) : order.length < t.fuel := holds.enough holds.once fun _ member => member

theorem Holds.items_length (holds : t.Holds order chains) : (order.filterMap t.itemAt).length = order.length :=
  items_length_of_live fun _ member => holds.live member

theorem Holds.bucket (holds : t.Holds order chains) (key : Bytes) :
    ∃ c, chains[hashFunction key t.buckets.length]? = some c ∧ c ∈ chains ∧
      t.buckets[hashFunction key t.buckets.length]? = some c.head? := by
  have inside : hashFunction key t.buckets.length < chains.length := by
    rw [holds.length_buckets]
    exact hashFunction_lt key holds.room
  have found : chains[hashFunction key t.buckets.length]? = some chains[hashFunction key t.buckets.length] :=
    List.getElem?_eq_getElem inside
  have start : t.buckets[hashFunction key t.buckets.length]? = some chains[hashFunction key t.buckets.length].head? :=
    calc t.buckets[hashFunction key t.buckets.length]?
        = (chains.map List.head?)[hashFunction key t.buckets.length]? :=
          congrArg (·[hashFunction key t.buckets.length]?) holds.buckets
      _ = some chains[hashFunction key t.buckets.length].head? := by
          rw [List.getElem?_map, found]
          rfl
  exact ⟨_, found, List.mem_of_getElem? found, start⟩

theorem Holds.in_bucket (holds : t.Holds order chains) {key : Bytes} {c : List Nat}
    (found : chains[hashFunction key t.buckets.length]? = some c) {r : Nat} (member : r ∈ order) {item : Bytes × V}
    (there : t.itemAt r = some item) (named : item.1 = key) : r ∈ c := by
  rcases List.mem_flatten.mp (holds.gathered.mem_iff.mpr member) with ⟨other, chain, inside⟩
  rcases List.getElem?_of_mem chain with ⟨i, at_⟩
  have index := holds.chained.home i other at_ r inside item there
  rw [named, ← holds.length_buckets] at index
  rw [index, at_] at found
  cases found
  exact inside

end

/-! ## Walks -/

theorem itemsFrom_linked {t : ObjectTable V} {next : Nat → Option (Option Nat)} {rs : List Nat} (linked : Linked next rs)
    (enough : rs.length < t.fuel) : t.itemsFrom next rs.head? = some (rs.filterMap t.itemAt) := by
  unfold itemsFrom
  rw [walk_linked linked enough]
  rfl

theorem Holds.items {t : ObjectTable V} {order : List Nat} {chains : List (List Nat)} (holds : t.Holds order chains) :
    t.items = some (order.filterMap t.itemAt) := by
  unfold ObjectTable.items
  rw [holds.head]
  exact itemsFrom_linked holds.forward holds.order_short

theorem Holds.bucketItems {t : ObjectTable V} {order : List Nat} {chains : List (List Nat)} (holds : t.Holds order chains) :
    t.bucketItems = (chains.map fun c => c.filterMap t.itemAt).map some := by
  unfold ObjectTable.bucketItems
  rw [holds.buckets, List.map_map, List.map_map]
  exact List.map_congr_left fun c chain => itemsFrom_linked (holds.chained.linked c chain) (holds.chain_short chain)

/-! ## Finding a key -/

theorem search_linked (t : ObjectTable V) (key : Bytes) {rs : List Nat} (linked : Linked t.nextOf rs) {fuel : Nat}
    (enough : rs.length < fuel) (prev : Option Nat) :
    (∃ front r back node, rs = front ++ r :: back ∧ t.heap r = some node ∧ node.key = key ∧
        t.search key fuel prev rs.head? = some (front.getLast?.or prev, some r)) ∨
      ((∀ r ∈ rs, ∀ item, t.itemAt r = some item → item.1 ≠ key) ∧
        ∃ last, t.search key fuel prev rs.head? = some (last, none)) := by
  induction rs generalizing fuel prev with
  | nil =>
    cases fuel with
    | zero => cases enough
    | succ fuel =>
      right
      exact ⟨fun _ member => (List.not_mem_nil member).elim, prev, rfl⟩
  | cons r rs ih =>
    cases fuel with
    | zero => cases enough
    | succ fuel =>
      rcases live_of_nextOf linked.1 with ⟨node, there, after⟩
      have step : t.search key (fuel + 1) prev (r :: rs).head? =
          if node.key = key then some (prev, some r) else t.search key fuel (some r) rs.head? := by
        show (t.heap r).bind _ = _
        rw [there, Option.bind_some, after]
      rw [step]
      by_cases named : node.key = key
      · left
        rw [if_pos named]
        exact ⟨[], r, rs, node, rfl, there, named, rfl⟩
      · rw [if_neg named]
        rcases ih linked.2 (Nat.lt_of_succ_lt_succ enough) (some r) with
          ⟨front, s, back, other, split, at_, same, found⟩ | ⟨absent, last, found⟩
        · left
          refine ⟨r :: front, s, back, other, congrArg (r :: ·) split, at_, same, found.trans ?_⟩
          rw [List.getLast?_cons]
          cases front.getLast? <;> rfl
        · right
          refine ⟨?_, last, found⟩
          intro s member item at_
          rcases List.mem_cons.mp member with same | later
          · rw [same, itemAt_eq there] at at_
            cases at_
            exact named
          · exact absent s later item at_

section
variable {t : ObjectTable V} {order : List Nat} {chains : List (List Nat)}

theorem mem_items {r : Nat} {node : HashTableNode V} (member : r ∈ order)
    (there : t.heap r = some node) : (node.key, node.value) ∈ order.filterMap t.itemAt :=
  List.mem_filterMap.mpr ⟨r, member, itemAt_eq there⟩

/-- What `find` says: the node with the key and the one before it in its bucket, or that there is none. -/
theorem Holds.find (holds : t.Holds order chains) (key : Bytes) :
    (∃ front r back node, chains[hashFunction key t.buckets.length]? = some (front ++ r :: back) ∧ r ∈ order ∧
        t.heap r = some node ∧ node.key = key ∧ t.find key = some (front.getLast?, some r)) ∨
      (key ∉ (order.filterMap t.itemAt).map (·.1) ∧ ∃ last, t.find key = some (last, none)) := by
  rcases holds.bucket key with ⟨c, found, chain, start⟩
  have reads : t.find key = t.search key t.fuel none c.head? := by
    unfold ObjectTable.find
    rw [start, Option.bind_some]
  rcases search_linked t key (holds.chained.linked c chain) (holds.chain_short chain) none with
    ⟨front, r, back, node, split, there, named, walked⟩ | ⟨absent, last, walked⟩
  · left
    rw [Option.or_none] at walked
    rw [split] at found
    refine ⟨front, r, back, node, found, ?_, there, named, ?_⟩
    · exact holds.mem_order chain (by rw [split]; exact List.mem_append_right _ List.mem_cons_self)
    · rw [reads, split]
      rw [split] at walked
      exact walked
  · right
    refine ⟨?_, last, reads.trans walked⟩
    intro present
    rcases List.mem_map.mp present with ⟨item, among, named⟩
    rcases List.mem_filterMap.mp among with ⟨r, member, there⟩
    exact absent r (holds.in_bucket found member there named) item there named

theorem Holds.getValue (holds : t.Holds order chains) (key : Bytes) :
    t.getValue key = some (OrderedMap.get? (order.filterMap t.itemAt) key) := by
  unfold ObjectTable.getValue
  rcases holds.find key with ⟨front, r, back, node, _, member, there, named, found⟩ | ⟨absent, last, found⟩
  · have held := OrderedMap.get?_eq_some_of_mem holds.distinct (mem_items member there)
    rw [found, Option.bind_some, ← named, held]
    show (t.heap r).map _ = _
    rw [there]
    rfl
  · rw [found, Option.bind_some, OrderedMap.get?_eq_none absent]

end

end ObjectTable

end BlueBird.Json
