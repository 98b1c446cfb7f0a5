import BlueBird.Json.ObjectChains

namespace BlueBird.Json

open LinkedChain

variable {V : Type}

namespace ObjectTable

/-! ## What one link changes -/

section
variable {t : ObjectTable V} {prev next : Option Nat}

theorem change_some {r : Nat} {node : HashTableNode V} (there : t.heap r = some node) (f : HashTableNode V → HashTableNode V) :
    t.change r f = some (t.withNode r (f node)) := by
  unfold change
  rw [there]
  rfl

theorem linkNext_reads (index : Nat) (live : ∀ p, prev = some p → ∃ node, t.heap p = some node) :
    ∃ t', t.linkNext index prev next = some t' ∧ (∀ c, t'.nextOf c = if prev = some c then some next else t.nextOf c) ∧
      t'.orderNextOf = t.orderNextOf ∧ t'.orderPrevOf = t.orderPrevOf ∧ t'.itemAt = t.itemAt ∧
      t'.buckets = (if prev = none then t.buckets.set index next else t.buckets) ∧ t'.orderHead = t.orderHead ∧
      t'.orderTail = t.orderTail ∧ t'.fresh = t.fresh := by
  cases prev with
  | none => exact ⟨_, rfl, fun c => rfl, rfl, rfl, rfl, rfl, rfl, rfl, rfl⟩
  | some p =>
    rcases live p rfl with ⟨node, there⟩
    refine ⟨_, change_some there _, ?_, read_withNode _ there rfl, read_withNode _ there rfl, read_withNode _ there rfl,
      rfl, rfl, rfl, rfl⟩
    intro c
    rw [nextOf_withNode]
    by_cases here : c = p
    · rw [if_pos here, if_pos (by rw [here])]
    · rw [if_neg here, if_neg fun same => here (Option.some.inj same).symm]

theorem linkOrderNext_reads (live : ∀ p, prev = some p → ∃ node, t.heap p = some node) :
    ∃ t', t.linkOrderNext prev next = some t' ∧ t'.nextOf = t.nextOf ∧
      (∀ c, t'.orderNextOf c = if prev = some c then some next else t.orderNextOf c) ∧
      t'.orderPrevOf = t.orderPrevOf ∧ t'.itemAt = t.itemAt ∧ t'.buckets = t.buckets ∧
      t'.orderHead = (if prev = none then next else t.orderHead) ∧ t'.orderTail = t.orderTail ∧ t'.fresh = t.fresh := by
  cases prev with
  | none => exact ⟨_, rfl, rfl, fun c => rfl, rfl, rfl, rfl, rfl, rfl, rfl⟩
  | some p =>
    rcases live p rfl with ⟨node, there⟩
    refine ⟨_, change_some there _, read_withNode _ there rfl, ?_, read_withNode _ there rfl, read_withNode _ there rfl,
      rfl, rfl, rfl, rfl⟩
    intro c
    rw [orderNextOf_withNode]
    by_cases here : c = p
    · rw [if_pos here, if_pos (by rw [here])]
    · rw [if_neg here, if_neg fun same => here (Option.some.inj same).symm]

theorem linkOrderPrev_reads (live : ∀ n, next = some n → ∃ node, t.heap n = some node) :
    ∃ t', t.linkOrderPrev prev next = some t' ∧ t'.nextOf = t.nextOf ∧ t'.orderNextOf = t.orderNextOf ∧
      (∀ c, t'.orderPrevOf c = if next = some c then some prev else t.orderPrevOf c) ∧
      t'.itemAt = t.itemAt ∧ t'.buckets = t.buckets ∧
      t'.orderHead = t.orderHead ∧ t'.orderTail = (if next = none then prev else t.orderTail) ∧ t'.fresh = t.fresh := by
  cases next with
  | none => exact ⟨_, rfl, rfl, rfl, fun c => rfl, rfl, rfl, rfl, rfl, rfl⟩
  | some n =>
    rcases live n rfl with ⟨node, there⟩
    refine ⟨_, change_some there _, read_withNode _ there rfl, read_withNode _ there rfl, ?_, read_withNode _ there rfl,
      rfl, rfl, rfl, rfl⟩
    intro c
    rw [orderPrevOf_withNode]
    by_cases here : c = n
    · rw [if_pos here, if_pos (by rw [here])]
    · rw [if_neg here, if_neg fun same => here (Option.some.inj same).symm]

theorem live_of_itemAt {t' : ObjectTable V} (same : t'.itemAt = t.itemAt) {r : Nat} {node : HashTableNode V}
    (there : t.heap r = some node) : ∃ other, t'.heap r = some other := by
  have found := congrFun same r
  rw [itemAt_eq there] at found
  rcases Option.map_eq_some_iff.mp found with ⟨other, at_, _⟩
  exact ⟨other, at_⟩

end

section
variable {t : ObjectTable V} {order : List Nat} {chains : List (List Nat)}

/-! ## Replacing a value -/

theorem items_split {front back : List Nat} {r : Nat} {item : Bytes × V} (there : t.itemAt r = some item) :
    (front ++ r :: back).filterMap t.itemAt = front.filterMap t.itemAt ++ item :: back.filterMap t.itemAt := by
  rw [List.filterMap_append, List.filterMap_cons_some there]

theorem Holds.replace (holds : t.Holds order chains) {r : Nat} {node : HashTableNode V} (member : r ∈ order)
    (there : t.heap r = some node) (value : V) :
    (t.withNode r { node with value }).Holds order chains ∧
      order.filterMap (t.withNode r { node with value }).itemAt =
        OrderedMap.set (order.filterMap t.itemAt) node.key value := by
  have items : order.filterMap (t.withNode r { node with value }).itemAt =
      OrderedMap.set (order.filterMap t.itemAt) node.key value := by
    rcases List.append_of_mem member with ⟨front, back, split⟩
    have once := holds.once
    have distinct := holds.distinct
    rw [split] at once distinct ⊢
    rw [items_split (itemAt_eq there)] at distinct ⊢
    have apart := List.perm_middle.nodup_iff.mp once
    rcases List.nodup_cons.mp apart with ⟨elsewhere, _⟩
    have kept : ∀ c ∈ front ++ back, (t.withNode r { node with value }).itemAt c = t.itemAt c := by
      intro c among
      rw [itemAt_withNode, if_neg]
      intro same
      rw [same] at among
      exact elsewhere among
    rw [@items_split V (t.withNode r { node with value }) front back r (node.key, value) (by rw [itemAt_withNode, if_pos rfl]),
      List.filterMap_congr fun c among => kept c (List.mem_append_left _ among),
      List.filterMap_congr fun c among => kept c (List.mem_append_right _ among),
      OrderedMap.set_middle distinct]
  have next : (t.withNode r { node with value }).nextOf = t.nextOf := read_withNode _ there rfl
  have forward : (t.withNode r { node with value }).orderNextOf = t.orderNextOf := read_withNode _ there rfl
  have backward : (t.withNode r { node with value }).orderPrevOf = t.orderPrevOf := read_withNode _ there rfl
  refine ⟨?_, items⟩
  exact
    { head := holds.head
      tail := holds.tail
      forward := by rw [forward]; exact holds.forward
      backward := by rw [backward]; exact holds.backward
      once := holds.once
      below := holds.below
      buckets := holds.buckets
      chained := by
        constructor
        · rw [next]
          exact holds.chained.linked
        · intro i c found s among item at_
          rw [itemAt_withNode] at at_
          by_cases here : s = r
          · rw [if_pos here] at at_
            cases at_
            exact holds.chained.home i c found s among (node.key, node.value) (by rw [here]; exact itemAt_eq there)
          · rw [if_neg here] at at_
            exact holds.chained.home i c found s among item at_
      gathered := holds.gathered
      distinct := by
        rw [items]
        exact OrderedMap.distinct_set holds.distinct _ _
      counted := holds.counted
      sized := holds.sized
      room := holds.room
      bounded := holds.bounded }

/-! ## A new node -/

/-- There is a node behind the last one, at the front of the chain `c`. -/
structure Appended (t t' : ObjectTable V) (c : List Nat) (index : Nat) (key : Bytes) (value : V) : Prop where
  next : ∀ r, t'.nextOf r = if r = t.fresh then some c.head? else t.nextOf r
  forward : ∀ r, t'.orderNextOf r =
    if t.orderTail = some r then some (some t.fresh) else if r = t.fresh then some none else t.orderNextOf r
  backward : ∀ r, t'.orderPrevOf r = if r = t.fresh then some t.orderTail else t.orderPrevOf r
  item : ∀ r, t'.itemAt r = if r = t.fresh then some (key, value) else t.itemAt r
  buckets : t'.buckets = t.buckets.set index (some t.fresh)
  head : t'.orderHead = if t.orderTail = none then some t.fresh else t.orderHead
  tail : t'.orderTail = some t.fresh
  fresh : t'.fresh = t.fresh + 1
  itemCount : t'.itemCount = t.itemCount + 1
  size : t'.size = t.size + 1

theorem Holds.not_fresh (holds : t.Holds order chains) {r : Nat} (member : r ∈ order) : r ≠ t.fresh :=
  Nat.ne_of_lt (holds.below r member)

theorem Holds.insert_appended (holds : t.Holds order chains) (key : Bytes) (value : V) {c : List Nat}
    (start : t.buckets[hashFunction key t.buckets.length]? = some c.head?) :
    ∃ t', t.insert key value = some t' ∧ Appended t t' c (hashFunction key t.buckets.length) key value := by
  let node : HashTableNode V := { key, value, next := c.head?, orderPrev := t.orderTail, orderNext := none }
  let index := hashFunction key t.buckets.length
  let chained := { t.withNode t.fresh node with fresh := t.fresh + 1, buckets := t.buckets.set index (some t.fresh) }
  have tailLive : ∀ p, t.orderTail = some p → ∃ node, chained.heap p = some node := by
    intro p last
    rw [holds.tail] at last
    have member := List.mem_of_getLast? last
    rcases holds.live member with ⟨was, there⟩
    refine ⟨was, ?_⟩
    show (t.withNode t.fresh node).heap p = _
    rw [heap_withNode, if_neg (holds.not_fresh member), there]
  rcases @linkOrderNext_reads V _ _ (some t.fresh) tailLive with
    ⟨made, runs, next, forward, backward, item, buckets, head, tail, fresh⟩
  refine ⟨{ made with orderTail := some t.fresh, itemCount := t.itemCount + 1, size := t.size + 1 }, ?_, ?_⟩
  · unfold ObjectTable.insert
    show (t.buckets[index]?).bind _ = _
    rw [start, Option.bind_some]
    show (chained.linkOrderNext t.orderTail (some t.fresh)).map _ = _
    rw [runs]
    rfl
  · exact
      { next := fun r => (congrFun next r).trans (nextOf_withNode t t.fresh node r)
        forward := by
          intro r
          refine (forward r).trans ?_
          rw [show chained.orderNextOf r = _ from orderNextOf_withNode t t.fresh node r]
        backward := fun r => (congrFun backward r).trans (orderPrevOf_withNode t t.fresh node r)
        item := fun r => (congrFun item r).trans (itemAt_withNode t t.fresh node r)
        buckets := buckets
        head := head
        tail := rfl
        fresh := fresh
        itemCount := rfl
        size := rfl }

section
variable {t' : ObjectTable V} {c : List Nat} {index : Nat} {key : Bytes} {value : V}
  (appended : Appended t t' c index key value)
include appended

theorem Appended.items (holds : t.Holds order chains) :
    (order ++ [t.fresh]).filterMap t'.itemAt = order.filterMap t.itemAt ++ [(key, value)] := by
  have kept : order.filterMap t'.itemAt = order.filterMap t.itemAt :=
    List.filterMap_congr fun r member => (appended.item r).trans (if_neg (holds.not_fresh member))
  rw [List.filterMap_append, kept, List.filterMap_cons_some (by rw [appended.item, if_pos rfl])]
  rfl

theorem Appended.chained (holds : t.Holds order chains) (found : chains[index]? = some c)
    (home : hashFunction key chains.length = index) : t'.Chained (chains.set index (t.fresh :: c)) := by
  have old : ∀ d ∈ chains, ∀ r ∈ d, r ≠ t.fresh := fun d chain r member => holds.not_fresh (holds.mem_order chain member)
  have linked : ∀ d ∈ chains, Linked t'.nextOf d := fun d chain =>
    (holds.chained.linked d chain).congr fun r inside => by rw [appended.next, if_neg (old d chain r inside)]
  have before : ∀ i d, chains[i]? = some d → ∀ r ∈ d, t'.Hashes chains.length r i := by
    intro i d at_ r inside entry there
    rw [appended.item, if_neg (old d (List.mem_of_getElem? at_) r inside)] at there
    exact holds.chained.home i d at_ r inside entry there
  constructor
  · refine forall_mem_set linked ⟨?_, linked c (List.mem_of_getElem? found)⟩
    rw [appended.next, if_pos rfl]
  · rw [List.length_set]
    refine forall_getElem?_set before ?_
    intro r member
    rcases List.mem_cons.mp member with same | inside
    · intro entry there
      rw [appended.item, if_pos same] at there
      cases there
      exact home
    · exact before index c found r inside

theorem Appended.forward_linked (holds : t.Holds order chains) : Linked t'.orderNextOf (order ++ [t.fresh]) := by
  refine @Linked.splice _ t.orderNextOf _ order [] _ (by rw [List.append_nil]; exact holds.forward) holds.once ?_ ?_ ?_
  · intro r member notLast
    rw [appended.forward, holds.tail, if_neg notLast, if_neg (holds.not_fresh member)]
  · intro r last
    rw [appended.forward, holds.tail, if_pos last]
    rfl
  · refine ⟨?_, True.intro⟩
    rw [appended.forward, if_neg, if_pos rfl]
    · rfl
    · rw [holds.tail]
      intro last
      exact holds.not_fresh (List.mem_of_getLast? last) rfl

theorem Appended.holds (holds : t.Holds order chains) (absent : key ∉ (order.filterMap t.itemAt).map (·.1))
    (found : chains[index]? = some c) (home : hashFunction key chains.length = index) :
    t'.Holds (order ++ [t.fresh]) (chains.set index (t.fresh :: c)) where
  head := by
    rw [appended.head, List.head?_append, holds.tail, holds.head]
    cases order with
    | nil => rfl
    | cons r order =>
      rw [if_neg fun none_ => List.cons_ne_nil r order (List.getLast?_eq_none_iff.mp none_)]
      rfl
  tail := by
    rw [appended.tail, List.getLast?_concat]
  forward := appended.forward_linked holds
  backward := by
    rw [List.reverse_append]
    refine ⟨?_, holds.backward.congr ?_⟩
    · rw [appended.backward, if_pos rfl, holds.tail]
      show some order.getLast? = some order.reverse.head?
      rw [List.head?_reverse]
    · intro r member
      rw [appended.backward, if_neg (holds.not_fresh (List.mem_reverse.mp member))]
  once := List.nodup_append.mpr ⟨holds.once, List.nodup_singleton _, fun r member s single => by
    rw [List.mem_singleton.mp single]
    exact holds.not_fresh member⟩
  below := by
    intro r member
    rw [appended.fresh]
    rcases List.mem_append.mp member with before | single
    · exact Nat.lt_succ_of_lt (holds.below r before)
    · rw [List.mem_singleton.mp single]
      exact Nat.lt_succ_self _
  buckets := by
    rw [appended.buckets, List.map_set, holds.buckets]
    rfl
  chained := appended.chained holds found home
  gathered := (flatten_set_cons found t.fresh).trans
    ((holds.gathered.cons t.fresh).trans (List.perm_append_singleton t.fresh order).symm)
  distinct := by
    rw [appended.items holds, ← OrderedMap.set_of_absent absent value]
    exact OrderedMap.distinct_set holds.distinct _ _
  counted := by
    rw [appended.itemCount, holds.counted, List.length_append, List.length_singleton]
  sized := by
    rw [appended.size, holds.sized, List.length_append, List.length_singleton]
  room := by
    rw [List.length_set]
    exact holds.room
  bounded := by
    rw [List.length_set]
    exact holds.bounded

end

theorem Holds.insert (holds : t.Holds order chains) {key : Bytes} (absent : key ∉ (order.filterMap t.itemAt).map (·.1)) (value : V) :
    ∃ t' order' chains', t.insert key value = some t' ∧ t'.Holds order' chains' ∧
      order'.filterMap t'.itemAt = OrderedMap.set (order.filterMap t.itemAt) key value := by
  rcases holds.bucket key with ⟨c, found, chain, start⟩
  rcases holds.insert_appended key value start with ⟨t', result, appended⟩
  have home : hashFunction key chains.length = hashFunction key t.buckets.length := by rw [holds.length_buckets]
  exact ⟨t', _, _, result, appended.holds holds absent found home,
    (appended.items holds).trans (OrderedMap.set_of_absent absent value).symm⟩

/-! ## Removing a node -/

theorem unlinked_starts {front back : List Nat} {r i : Nat} (found : chains[i]? = some (front ++ r :: back)) :
    (if front.getLast? = none then (chains.map List.head?).set i back.head? else chains.map List.head?) =
      (chains.set i (front ++ back)).map List.head? := by
  rw [List.map_set]
  cases front with
  | nil => rfl
  | cons first front =>
    rw [if_neg fun none_ => List.cons_ne_nil first front (List.getLast?_eq_none_iff.mp none_)]
    have inside : i < (chains.map List.head?).length := by
      rw [List.length_map]
      exact (List.getElem?_eq_some_iff.mp found).1
    have same : (chains.map List.head?)[i] = some first := by
      rw [List.getElem_map, (List.getElem?_eq_some_iff.mp found).2]
      rfl
    show _ = (chains.map List.head?).set i (some first)
    rw [← same, List.set_getElem_self]

theorem removeKey_absent {key : Bytes} {last : Option Nat} (found : t.find key = some (last, none)) :
    t.removeKey key = some (t, some keyNotFound) := by
  unfold ObjectTable.removeKey
  rw [found]
  rfl

theorem Holds.node_next (holds : t.Holds order chains) {front back : List Nat} {r : Nat} {node : HashTableNode V}
    (chain : front ++ r :: back ∈ chains) (there : t.heap r = some node) : node.next = back.head? := by
  have after := (holds.chained.linked _ chain).after
  unfold nextOf at after
  rw [there] at after
  exact Option.some.inj after

section
variable {front back before behind : List Nat} {r index : Nat}

theorem Holds.node_orderNext (holds : t.Holds (before ++ r :: behind) chains) {node : HashTableNode V}
    (there : t.heap r = some node) : node.orderNext = behind.head? := by
  have after := holds.forward.after
  unfold orderNextOf at after
  rw [there] at after
  exact Option.some.inj after

theorem reverse_middle : (before ++ r :: behind).reverse = behind.reverse ++ r :: before.reverse := by
  rw [List.reverse_append, List.reverse_cons, List.append_assoc]
  rfl

theorem Holds.node_orderPrev (holds : t.Holds (before ++ r :: behind) chains) {node : HashTableNode V}
    (there : t.heap r = some node) : node.orderPrev = before.getLast? := by
  have backward := holds.backward
  rw [reverse_middle] at backward
  have after := backward.after
  unfold orderPrevOf at after
  rw [there, List.head?_reverse] at after
  exact Option.some.inj after

/-- The node is gone, and the ones around it refer to each other. -/
structure Unlinked (t t' : ObjectTable V) (front back before behind : List Nat) (r index : Nat) : Prop where
  next : ∀ c, c ≠ r → t'.nextOf c = if front.getLast? = some c then some back.head? else t.nextOf c
  forward : ∀ c, c ≠ r → t'.orderNextOf c = if before.getLast? = some c then some behind.head? else t.orderNextOf c
  backward : ∀ c, c ≠ r →
    t'.orderPrevOf c = if behind.reverse.getLast? = some c then some before.reverse.head? else t.orderPrevOf c
  item : ∀ c, c ≠ r → t'.itemAt c = t.itemAt c
  gone : t'.itemAt r = none
  buckets : t'.buckets = if front.getLast? = none then t.buckets.set index back.head? else t.buckets
  head : t'.orderHead = if before.getLast? = none then behind.head? else t.orderHead
  tail : t'.orderTail = if behind.head? = none then before.getLast? else t.orderTail
  fresh : t'.fresh = t.fresh
  itemCount : t'.itemCount = t.itemCount - 1
  size : t'.size = t.size - 1

theorem Holds.removeKey_found (holds : t.Holds (before ++ r :: behind) chains) {key : Bytes} {node : HashTableNode V}
    (chain : front ++ r :: back ∈ chains) (there : t.heap r = some node)
    (found : t.find key = some (front.getLast?, some r)) :
    ∃ t', t.removeKey key = some (t', none) ∧
      Unlinked t t' front back before behind r (hashFunction key t.buckets.length) := by
  have prevLive : ∀ p, front.getLast? = some p → ∃ node, t.heap p = some node := by
    intro p last
    exact holds.live (holds.mem_order chain (List.mem_append_left _ (List.mem_of_getLast? last)))
  rcases @linkNext_reads V t front.getLast? back.head? (hashFunction key t.buckets.length) prevLive with
    ⟨first, runs₁, next₁, forward₁, backward₁, item₁, buckets₁, head₁, tail₁, fresh₁⟩
  have beforeLive : ∀ p, before.getLast? = some p → ∃ node, first.heap p = some node := by
    intro p last
    rcases holds.live (List.mem_append_left _ (List.mem_of_getLast? last)) with ⟨was, at_⟩
    exact live_of_itemAt item₁ at_
  rcases @linkOrderNext_reads V first before.getLast? behind.head? beforeLive with
    ⟨second, runs₂, next₂, forward₂, backward₂, item₂, buckets₂, head₂, tail₂, fresh₂⟩
  have behindLive : ∀ n, behind.head? = some n → ∃ node, second.heap n = some node := by
    intro n isHead
    rcases holds.live (List.mem_append_right _ (List.mem_cons_of_mem _ (List.mem_of_head? isHead))) with ⟨was, at_⟩
    exact live_of_itemAt (item₂.trans item₁) at_
  rcases @linkOrderPrev_reads V second before.getLast? behind.head? behindLive with
    ⟨third, runs₃, next₃, forward₃, backward₃, item₃, buckets₃, head₃, tail₃, fresh₃⟩
  let t' : ObjectTable V :=
    { third with heap := Function.update third.heap r none, itemCount := t.itemCount - 1, size := t.size - 1 }
  have heap : ∀ c, c ≠ r → t'.heap c = third.heap c := fun c other => Function.update_of_ne other _ _
  have result : t.removeKey key = some (t', none) := by
    unfold ObjectTable.removeKey
    rw [found, Option.bind_some]
    show (t.heap r).bind _ = _
    rw [there, Option.bind_some]
    show ((t.linkNext (hashFunction key t.buckets.length) front.getLast? node.next).bind _).map _ = _
    rw [holds.node_next chain there, runs₁, Option.bind_some, holds.node_orderPrev there, holds.node_orderNext there, runs₂,
      Option.bind_some, runs₃]
    rfl
  refine ⟨t', result, ?_⟩
  exact
    { next := by
        intro c other
        rw [← next₁, ← congrFun next₂, ← congrFun next₃]
        exact congrArg _ (heap c other)
      forward := by
        intro c other
        rw [← congrFun forward₁, ← forward₂, ← congrFun forward₃]
        exact congrArg _ (heap c other)
      backward := by
        intro c other
        rw [List.getLast?_reverse, List.head?_reverse, ← congrFun backward₁, ← congrFun backward₂, ← backward₃]
        exact congrArg _ (heap c other)
      item := by
        intro c other
        rw [← item₁, ← item₂, ← item₃]
        exact congrArg _ (heap c other)
      gone := by
        show (Function.update third.heap r none r).map _ = none
        rw [Function.update_self]
        rfl
      buckets := buckets₃.trans (buckets₂.trans buckets₁)
      head := by
        show third.orderHead = _
        rw [head₃, head₂, head₁]
      tail := by
        show third.orderTail = _
        rw [tail₃, tail₂, tail₁]
      fresh := fresh₃.trans (fresh₂.trans fresh₁)
      itemCount := rfl
      size := rfl }

section
variable {t' : ObjectTable V} (unlinked : Unlinked t t' front back before behind r index)
include unlinked

theorem Unlinked.hashes {bucketCount c i : Nat} (hashes : t.Hashes bucketCount c i) : t'.Hashes bucketCount c i := by
  intro item at_
  by_cases same : c = r
  · rw [same, unlinked.gone] at at_
    cases at_
  · rw [unlinked.item c same] at at_
    exact hashes item at_

theorem Unlinked.chained (holds : t.Holds order chains) (found : chains[index]? = some (front ++ r :: back)) :
    t'.Chained (chains.set index (front ++ back)) := by
  have chain := List.mem_of_getElem? found
  -- a node of another chain has another home
  have elsewhere : ∀ i d c, chains[i]? = some d → index ≠ i → c ∈ front ++ r :: back → c ∉ d := by
    intro i d c at_ other inside member
    rcases holds.live (holds.mem_order chain inside) with ⟨node, live⟩
    have home := holds.chained.home _ _ found c inside _ (itemAt_eq live)
    exact other (home.symm.trans (holds.chained.home i d at_ c member _ (itemAt_eq live)))
  constructor
  · intro d member
    rcases List.getElem?_of_mem member with ⟨i, at_⟩
    by_cases here : index = i
    · rw [← here, List.getElem?_set_self (List.getElem?_eq_some_iff.mp found).1] at at_
      cases at_
      exact (holds.chained.linked _ chain).without (holds.chain_once chain) unlinked.next
    · rw [List.getElem?_set_ne here] at at_
      refine (holds.chained.linked d (List.mem_of_getElem? at_)).congr ?_
      intro c inside
      have apart : front.getLast? ≠ some c := fun last =>
        elsewhere i d c at_ here (List.mem_append_left _ (List.mem_of_getLast? last)) inside
      have other : c ≠ r := fun same =>
        elsewhere i d c at_ here (same ▸ List.mem_append_right _ List.mem_cons_self) inside
      rw [unlinked.next c other, if_neg apart]
  · rw [List.length_set]
    refine forall_getElem?_set (fun i d at_ c inside => unlinked.hashes (holds.chained.home i d at_ c inside)) ?_
    intro c inside
    have wasInside : c ∈ front ++ r :: back := by
      rcases List.mem_append.mp inside with inFront | inBack
      · exact List.mem_append_left _ inFront
      · exact List.mem_append_right _ (List.mem_cons_of_mem _ inBack)
    exact unlinked.hashes (holds.chained.home _ _ found c wasInside)

theorem Unlinked.items (holds : t.Holds (before ++ r :: behind) chains) {node : HashTableNode V} (there : t.heap r = some node) :
    (before ++ behind).filterMap t'.itemAt = OrderedMap.erase ((before ++ r :: behind).filterMap t.itemAt) node.key := by
  have distinct := holds.distinct
  rw [items_split (itemAt_eq there)] at distinct ⊢
  rw [OrderedMap.erase_middle distinct, ← List.filterMap_append]
  have elsewhere := (List.nodup_cons.mp (List.perm_middle.nodup_iff.mp holds.once)).1
  exact List.filterMap_congr fun c among => unlinked.item c fun same => elsewhere (same ▸ among)

theorem Unlinked.holds (holds : t.Holds (before ++ r :: behind) chains) {node : HashTableNode V} (there : t.heap r = some node)
    (found : chains[index]? = some (front ++ r :: back)) : t'.Holds (before ++ behind) (chains.set index (front ++ back)) where
  head := by
    rw [unlinked.head, holds.head]
    cases before with
    | nil => rfl
    | cons c before =>
      rw [if_neg fun none_ => List.cons_ne_nil c before (List.getLast?_eq_none_iff.mp none_)]
      rfl
  tail := by
    rw [unlinked.tail, holds.tail]
    cases behind with
    | nil =>
      rw [List.append_nil]
      rfl
    | cons c behind =>
      rw [if_neg (fun none_ => by cases none_), List.getLast?_append, List.getLast?_append, List.getLast?_cons_cons]
  forward := holds.forward.without holds.once unlinked.forward
  backward := by
    have backward := holds.backward
    rw [reverse_middle] at backward
    rw [List.reverse_append]
    exact backward.without (reverse_middle ▸ List.nodup_reverse.mpr holds.once) unlinked.backward
  once := (List.nodup_cons.mp (List.perm_middle.nodup_iff.mp holds.once)).2
  below := by
    intro c among
    rw [unlinked.fresh]
    exact holds.below c (List.perm_middle.mem_iff.mpr (List.mem_cons_of_mem _ among))
  buckets := by
    rw [unlinked.buckets, holds.buckets]
    exact unlinked_starts found
  chained := unlinked.chained holds found
  gathered := ((flatten_set_without found).symm.trans (holds.gathered.trans List.perm_middle)).cons_inv
  distinct := by
    rw [unlinked.items holds there]
    exact OrderedMap.distinct_erase holds.distinct _
  counted := by
    rw [unlinked.itemCount, holds.counted, List.perm_middle.length_eq, List.length_cons, Nat.add_sub_cancel]
  sized := by
    rw [unlinked.size, holds.sized, List.perm_middle.length_eq, List.length_cons, Nat.add_sub_cancel]
  room := by
    rw [List.length_set]
    exact holds.room
  bounded := by
    rw [List.length_set]
    exact holds.bounded

end

end

theorem Holds.removeKey (holds : t.Holds order chains) (key : Bytes) :
    (key ∉ (order.filterMap t.itemAt).map (·.1) ∧ t.removeKey key = some (t, some keyNotFound)) ∨
      (key ∈ (order.filterMap t.itemAt).map (·.1) ∧
        ∃ t' order' chains', t.removeKey key = some (t', none) ∧ t'.Holds order' chains' ∧
          order'.filterMap t'.itemAt = OrderedMap.erase (order.filterMap t.itemAt) key) := by
  rcases holds.find key with ⟨front, r, back, node, found, member, there, named, walked⟩ | ⟨absent, last, walked⟩
  · right
    refine ⟨List.mem_map.mpr ⟨_, mem_items member there, named⟩, ?_⟩
    rcases List.append_of_mem member with ⟨before, behind, split⟩
    subst split
    rcases holds.removeKey_found (List.mem_of_getElem? found) there walked with ⟨t', result, unlinked⟩
    exact ⟨t', before ++ behind, _, result, unlinked.holds holds there found, named ▸ unlinked.items holds there⟩
  · left
    exact ⟨absent, removeKey_absent walked⟩

end

end ObjectTable

end BlueBird.Json
