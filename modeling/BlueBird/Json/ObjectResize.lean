import BlueBird.Json.ObjectUpdates

namespace BlueBird.Json

open LinkedChain

variable {V : Type}

namespace ObjectTable

/-! ## Relinking the nodes of the old buckets -/

/-- Two tables that differ at most in the bucket links of some nodes. -/
structure Relinked (t t' : ObjectTable V) (moved : List Nat) : Prop where
  next : ∀ r, r ∉ moved → t'.nextOf r = t.nextOf r
  forward : t'.orderNextOf = t.orderNextOf
  backward : t'.orderPrevOf = t.orderPrevOf
  item : t'.itemAt = t.itemAt
  rest : t' = { t with heap := t'.heap }

theorem Relinked.refl (t : ObjectTable V) : t.Relinked t [] := ⟨fun _ _ => rfl, rfl, rfl, rfl, rfl⟩

theorem Relinked.trans {t t' t'' : ObjectTable V} {moved moved' : List Nat} (first : t.Relinked t' moved)
    (second : t'.Relinked t'' moved') : t.Relinked t'' (moved ++ moved') where
  next := by
    intro r outside
    rw [List.mem_append, not_or] at outside
    rw [second.next r outside.2, first.next r outside.1]
  forward := second.forward.trans first.forward
  backward := second.backward.trans first.backward
  item := second.item.trans first.item
  rest := by
    rw [second.rest, first.rest]

theorem relinked_withNode {t : ObjectTable V} {r : Nat} {node : HashTableNode V} (there : t.heap r = some node) (next : Option Nat) :
    t.Relinked (t.withNode r { node with next }) [r] where
  next := fun c other => by rw [nextOf_withNode, if_neg fun same => other (List.mem_singleton.mpr same)]
  forward := read_withNode _ there rfl
  backward := read_withNode _ there rfl
  item := read_withNode _ there rfl
  rest := rfl

theorem Chained.move {t : ObjectTable V} {made : List (List Nat)} (chained : t.Chained made) {r : Nat} {node : HashTableNode V}
    (there : t.heap r = some node) {c : List Nat} (found : made[hashFunction node.key made.length]? = some c)
    (outside : r ∉ made.flatten) :
    (t.withNode r { node with next := c.head? }).Chained (made.set (hashFunction node.key made.length) (r :: c)) := by
  have relinked := relinked_withNode there c.head?
  have apart : ∀ d ∈ made, ∀ s ∈ d, s ∉ [r] := by
    intro d chain s inside same
    rw [List.mem_singleton.mp same] at inside
    exact outside (List.mem_flatten.mpr ⟨d, chain, inside⟩)
  have kept : ∀ d ∈ made, Linked (t.withNode r { node with next := c.head? }).nextOf d :=
    fun d chain => (chained.linked d chain).congr fun s inside => relinked.next s (apart d chain s inside)
  have hashes : ∀ s i, t.Hashes made.length s i → (t.withNode r { node with next := c.head? }).Hashes made.length s i := by
    intro s i home item at_
    rw [relinked.item] at at_
    exact home item at_
  constructor
  · refine forall_mem_set kept ⟨?_, kept c (List.mem_of_getElem? found)⟩
    rw [nextOf_withNode, if_pos rfl]
  · rw [List.length_set]
    refine forall_getElem?_set (fun i d at_ s inside => hashes s i (chained.home i d at_ s inside)) ?_
    intro s member
    rcases List.mem_cons.mp member with same | inside
    · apply hashes
      intro item at_
      rw [same, itemAt_eq there] at at_
      cases at_
      rfl
    · exact hashes s _ (chained.home _ c found s inside)

theorem relinkChain_spec {t : ObjectTable V} {made : List (List Nat)} {rs : List Nat} (linked : Linked t.nextOf rs)
    (chained : t.Chained made) (once : (rs ++ made.flatten).Nodup) (room : 0 < made.length) {fuel : Nat}
    (enough : rs.length < fuel) :
    ∃ t' made', relinkChain made.length fuel rs.head? (t, made.map List.head?) = some (t', made'.map List.head?) ∧
      t.Relinked t' rs ∧ t'.Chained made' ∧ made'.length = made.length ∧ made'.flatten.Perm (rs ++ made.flatten) := by
  induction rs generalizing t made fuel with
  | nil =>
    cases fuel with
    | zero => cases enough
    | succ fuel => exact ⟨t, made, rfl, Relinked.refl t, chained, rfl, List.Perm.refl _⟩
  | cons r rs ih =>
    cases fuel with
    | zero => cases enough
    | succ fuel =>
      rcases live_of_nextOf linked.1 with ⟨node, there, after⟩
      have fresh : r ∉ rs ∧ r ∉ made.flatten := not_or.mp fun within => (List.nodup_cons.mp once).1 (List.mem_append.mpr within)
      let index := hashFunction node.key made.length
      have inside : index < made.length := hashFunction_lt node.key room
      have found : made[index]? = some made[index] := List.getElem?_eq_getElem inside
      have relinked := relinked_withNode there made[index].head?
      have step : relinkChain made.length (fuel + 1) (r :: rs).head? (t, made.map List.head?) =
          relinkChain made.length fuel rs.head?
            (t.withNode r { node with next := made[index].head? }, (made.set index (r :: made[index])).map List.head?) := by
        show (t.heap r).bind _ = _
        rw [there, Option.bind_some]
        show ((made.map List.head?)[index]?).bind _ = _
        rw [List.getElem?_map, found, Option.map_some, Option.bind_some, after, List.map_set]
        rfl
      have grown : (made.set index (r :: made[index])).flatten.Perm (r :: made.flatten) := flatten_set_cons found r
      have spread : (rs ++ (made.set index (r :: made[index])).flatten).Perm (r :: (rs ++ made.flatten)) :=
        (grown.append_left rs).trans List.perm_middle
      rcases ih (linked.2.congr fun s member => relinked.next s fun same => fresh.1 (List.mem_singleton.mp same ▸ member))
          (chained.move there found fresh.2) (spread.nodup_iff.mpr once) (by rw [List.length_set]; exact room)
          (Nat.lt_of_succ_lt_succ enough) with
        ⟨t', made', runs, further, chained', count, flat⟩
      rw [List.length_set] at runs count
      exact ⟨t', made', step.trans runs, relinked.trans further, chained', count, flat.trans spread⟩

theorem relinkBuckets_spec {t : ObjectTable V} {made chains : List (List Nat)} (linked : ∀ c ∈ chains, Linked t.nextOf c)
    (chained : t.Chained made) (once : (chains.flatten ++ made.flatten).Nodup) (room : 0 < made.length) {fuel : Nat}
    (enough : ∀ c ∈ chains, c.length < fuel) :
    ∃ t' made', relinkBuckets made.length fuel (chains.map List.head?) (t, made.map List.head?) =
        some (t', made'.map List.head?) ∧
      t.Relinked t' chains.flatten ∧ t'.Chained made' ∧ made'.length = made.length ∧
      made'.flatten.Perm (chains.flatten ++ made.flatten) := by
  induction chains generalizing t made with
  | nil => exact ⟨t, made, rfl, Relinked.refl t, chained, rfl, List.Perm.refl _⟩
  | cons c chains ih =>
    have once' : (c ++ (chains.flatten ++ made.flatten)).Nodup := by
      rw [← List.append_assoc]
      exact once
    rcases List.nodup_append.mp once' with ⟨_, rest, apart⟩
    have front : (c ++ made.flatten).Nodup :=
      once'.sublist ((List.sublist_append_right chains.flatten made.flatten).append_left c)
    rcases relinkChain_spec (linked c List.mem_cons_self) chained front room (enough c List.mem_cons_self) with
      ⟨t₁, made₁, runs₁, relinked₁, chained₁, count₁, flat₁⟩
    have linked₁ : ∀ d ∈ chains, Linked t₁.nextOf d := by
      intro d chain
      refine (linked d (List.mem_cons_of_mem _ chain)).congr fun s inside => relinked₁.next s ?_
      intro moved
      exact apart s moved s (List.mem_append_left _ (List.mem_flatten.mpr ⟨d, chain, inside⟩)) rfl
    have spread : (chains.flatten ++ made₁.flatten).Perm ((c ++ chains.flatten) ++ made.flatten) := by
      calc (chains.flatten ++ made₁.flatten).Perm (chains.flatten ++ (c ++ made.flatten)) := flat₁.append_left _
        _ |>.Perm ((c ++ chains.flatten) ++ made.flatten) := by
            rw [← List.append_assoc]
            exact List.perm_append_comm.append_right _
    rcases ih linked₁ chained₁ (spread.nodup_iff.mpr once) (by rw [count₁]; exact room)
        (fun d chain => enough d (List.mem_cons_of_mem _ chain)) with ⟨t', made', runs, relinked, chained', count, flat⟩
    have step : relinkBuckets made.length fuel ((c :: chains).map List.head?) (t, made.map List.head?) =
        (relinkChain made.length fuel c.head? (t, made.map List.head?)).bind
          (relinkBuckets made.length fuel (chains.map List.head?)) := rfl
    refine ⟨t', made', ?_, relinked₁.trans relinked, chained', count.trans count₁, flat.trans spread⟩
    rw [step, runs₁, Option.bind_some, ← count₁]
    exact runs

/-! ## Resizing, and what a set does -/

section
variable {t : ObjectTable V} {order : List Nat} {chains : List (List Nat)}

theorem chained_empty (t : ObjectTable V) (n : Nat) : t.Chained (List.replicate n []) where
  linked := by
    intro c member
    rw [List.eq_of_mem_replicate member]
    exact True.intro
  home := by
    intro i c found r member
    rw [List.eq_of_mem_replicate (List.mem_of_getElem? found)] at member
    cases member

theorem flatten_empty (n : Nat) : (List.replicate n ([] : List Nat)).flatten = [] := by
  rw [List.flatten_eq_nil_iff]
  exact fun c member => List.eq_of_mem_replicate member

theorem Holds.resize (holds : t.Holds order chains) {newBucketCount : Nat} (room : 0 < newBucketCount) (granted : Bool) :
    ∃ t' chains' success, t.resize newBucketCount granted = some (t', success) ∧ t'.Holds order chains' ∧
      t'.itemAt = t.itemAt := by
  unfold ObjectTable.resize
  by_cases given : granted = true ∧ newBucketCount * 8 < 2^64
  swap
  · rw [if_neg given]
    exact ⟨t, chains, false, rfl, holds, rfl⟩
  rw [if_pos given]
  have once : (chains.flatten ++ (List.replicate newBucketCount ([] : List Nat)).flatten).Nodup := by
    rw [flatten_empty, List.append_nil]
    exact holds.flat_once
  rcases relinkBuckets_spec holds.chained.linked (chained_empty t newBucketCount) once
      (by rw [List.length_replicate]; exact room) (fun c chain => holds.chain_short chain) with
    ⟨t', made, runs, relinked, chained, count, flat⟩
  rw [List.length_replicate] at runs count
  rw [List.map_replicate] at runs
  rw [flatten_empty, List.append_nil] at flat
  refine ⟨{ t' with buckets := made.map List.head? }, made, true, ?_, ?_, relinked.item⟩
  · rw [holds.buckets]
    show (relinkBuckets newBucketCount t.fuel _ (t, List.replicate newBucketCount ([] : List Nat).head?)).map _ = _
    rw [runs]
    rfl
  · have rest := relinked.rest
    exact
      { head := by
          show t'.orderHead = _
          rw [rest]
          exact holds.head
        tail := by
          show t'.orderTail = _
          rw [rest]
          exact holds.tail
        forward := by
          show Linked t'.orderNextOf order
          rw [relinked.forward]
          exact holds.forward
        backward := by
          show Linked t'.orderPrevOf order.reverse
          rw [relinked.backward]
          exact holds.backward
        once := holds.once
        below := by
          show ∀ r ∈ order, r < t'.fresh
          rw [rest]
          exact holds.below
        buckets := rfl
        chained := ⟨chained.linked, chained.home⟩
        gathered := flat.trans holds.gathered
        distinct := by
          show OrderedMap.Distinct (order.filterMap t'.itemAt)
          rw [relinked.item]
          exact holds.distinct
        counted := by
          show t'.itemCount = _
          rw [rest]
          exact holds.counted
        sized := by
          show t'.size = _
          rw [rest]
          exact holds.sized
        room := by
          rw [count]
          exact room
        bounded := by
          rw [count]
          exact given.2 }

theorem Holds.makeRoom (holds : t.Holds order chains) (granted : Bool) :
    ∃ t' chains' success, t.makeRoom granted = some (t', success) ∧ t'.Holds order chains' ∧ t'.itemAt = t.itemAt := by
  unfold ObjectTable.makeRoom
  split
  · have room := holds.room
    have bounded := holds.bounded
    apply holds.resize
    rw [holds.length_buckets]
    unfold wrap64
    omega
  · exact ⟨t, chains, true, rfl, holds, rfl⟩

theorem Holds.put (holds : t.Holds order chains) (key : Bytes) (value : V) (memory : SetMemory) :
    ∃ t' order' chains' status, t.put key value memory = some (t', status) ∧ t'.Holds order' chains' ∧
      order'.filterMap t'.itemAt =
        (if status = none then OrderedMap.set (order.filterMap t.itemAt) key value else order.filterMap t.itemAt) ∧
      (key ∈ (order.filterMap t.itemAt).map (·.1) → order' = order) := by
  unfold ObjectTable.put
  rcases holds.find key with ⟨front, r, back, node, _, member, there, named, found⟩ | ⟨absent, last, found⟩
  · subst named
    rw [found, Option.bind_some]
    show ∃ t' order' chains' status, (t.change r _).map _ = some (t', status) ∧ _
    rw [change_some there]
    rcases holds.replace member there value with ⟨holds', items⟩
    exact ⟨_, order, chains, none, rfl, holds', items, fun _ => rfl⟩
  · rw [found, Option.bind_some]
    show ∃ t' order' chains' status,
      (if memory.node && memory.key then (t.insert key value).map _ else some (t, some allocationFailed)) = some (t', status) ∧ _
    by_cases given : memory.node && memory.key
    · rcases holds.insert absent value with ⟨t', order', chains', runs, holds', items⟩
      rw [if_pos given, runs]
      exact ⟨t', order', chains', none, rfl, holds', items, fun present => absurd present absent⟩
    · rw [if_neg given]
      exact ⟨t, order, chains, some allocationFailed, rfl, holds, rfl, fun _ => rfl⟩

theorem Holds.setValue (holds : t.Holds order chains) (key : Bytes) (value : V) (memory : SetMemory) :
    ∃ t' order' chains' status, t.setValue key value memory = some (t', status) ∧ t'.Holds order' chains' ∧
      order'.filterMap t'.itemAt =
        (if status = none then OrderedMap.set (order.filterMap t.itemAt) key value else order.filterMap t.itemAt) ∧
      (key ∈ (order.filterMap t.itemAt).map (·.1) → order' = order) := by
  unfold ObjectTable.setValue
  rcases holds.makeRoom memory.buckets with ⟨roomy, chains₁, success, runs, holds₁, items₁⟩
  rw [runs, Option.bind_some, ← items₁]
  cases success with
  | false => exact ⟨roomy, order, chains₁, some resizeFailed, rfl, holds₁, rfl, fun _ => rfl⟩
  | true => exact holds₁.put key value memory

end

end ObjectTable

end BlueBird.Json
