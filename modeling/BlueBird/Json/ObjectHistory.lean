import BlueBird.Json.ObjectResize
import BlueBird.Collections.MapHistory

namespace BlueBird.Json

open LinkedChain OrderedMap

variable {V : Type}

/-! ## Runs over an object -/

inductive ObjectOp (V : Type) where
  | set (key : Bytes) (value : V) (memory : SetMemory)
  | remove (key : Bytes)
  | get (key : Bytes)
  | merge (source : ObjectTable.Source V) (memory : Nat → ObjectTable.MergeMemory)

namespace ObjectTable

def apply (t : ObjectTable V) : ObjectOp V → Option (ObjectTable V × List (Change Bytes V))
  | .set key value memory =>
    (t.setValue key value memory).map fun done => (done.1, if done.2 = none then [.set key value] else [])
  | .remove key => (t.removeKey key).map fun done => (done.1, if done.2 = none then [.erase key] else [])
  | .get key => (t.getValue key).map fun _ => (t, [])
  | .merge source memory => (t.merge source memory).map fun done => (done.1, done.2.1.map fun entry => .set entry.1 entry.2)

def run : List (ObjectOp V) → ObjectTable V → Option (ObjectTable V × List (Change Bytes V))
  | [], t => some (t, [])
  | op :: ops, t => (t.apply op).bind fun done => (run ops done.1).map fun rest => (rest.1, done.2 ++ rest.2)

/-- No object is merged that the target holds under a key which the object has too. -/
def Spares (t : ObjectTable V) : ObjectOp V → Prop
  | .merge (.nested key pick) _ =>
    ∀ value entries, t.getValue key = some (some value) → pick value = some entries → key ∉ entries.map (·.1)
  | _ => True

def Spared : List (ObjectOp V) → ObjectTable V → Prop
  | [], _ => True
  | op :: ops, t => t.Spares op ∧ ∀ t' changes, t.apply op = some (t', changes) → Spared ops t'

/-- The table is the map that the changes have made: `items` is what the order list gives, and `chains` what the
    buckets give. -/
structure Shows (t : ObjectTable V) (changes : List (Change Bytes V)) (items : List (Bytes × V)) (chains : List (List (Bytes × V))) :
    Prop where
  found : ∀ key, t.getValue key = some (latest changes key)
  iterated : t.items = some items
  live : ∀ key value, (key, value) ∈ items ↔ latest changes key = some value
  ordered : (items.map (·.1)).Pairwise (AddedBefore changes)
  bucketed : t.bucketItems = chains.map some
  spread : chains.flatten.Perm items
  counted : t.itemCount = items.length
  sized : t.size = items.length
  total : (chains.map List.length).sum = items.length
  homes : ∀ key ∈ items.map (·.1), ∀ i chain, chains[i]? = some chain →
    (key ∈ chain.map (·.1) ↔ i = hashFunction key t.buckets.length)

/-! ## What the invariant shows -/

section
variable {t : ObjectTable V} {order : List Nat} {chains : List (List Nat)}

theorem Holds.flat_items (holds : t.Holds order chains) :
    (chains.map fun c => c.filterMap t.itemAt).flatten.Perm (order.filterMap t.itemAt) := by
  rw [← List.filterMap_flatten]
  exact holds.gathered.filterMap _

theorem Holds.homes (holds : t.Holds order chains) {key : Bytes} (present : key ∈ (order.filterMap t.itemAt).map (·.1))
    {i : Nat} {c : List Nat} (found : chains[i]? = some c) :
    key ∈ (c.filterMap t.itemAt).map (·.1) ↔ i = hashFunction key t.buckets.length := by
  constructor
  · intro inside
    rcases List.mem_map.mp inside with ⟨item, among, named⟩
    rcases List.mem_filterMap.mp among with ⟨r, member, there⟩
    rw [← named, holds.length_buckets]
    exact (holds.chained.home i c found r member item there).symm
  · intro home
    rcases List.mem_map.mp present with ⟨item, among, named⟩
    rcases List.mem_filterMap.mp among with ⟨r, member, there⟩
    rw [home] at found
    have inside := holds.in_bucket found member there named
    exact List.mem_map.mpr ⟨item, List.mem_filterMap.mpr ⟨r, inside, there⟩, named⟩

theorem Holds.shows (holds : t.Holds order chains) {changes : List (Change Bytes V)}
    (made : order.filterMap t.itemAt = replay changes) :
    t.Shows changes (replay changes) (chains.map fun c => c.filterMap t.itemAt) where
  found := by
    intro key
    rw [holds.getValue, made, get?_replay]
  iterated := by rw [holds.items, made]
  live := mem_replay changes
  ordered := ordered_replay changes
  bucketed := holds.bucketItems
  spread := by
    rw [← made]
    exact holds.flat_items
  counted := by rw [holds.counted, ← made, holds.items_length]
  sized := by rw [holds.sized, ← made, holds.items_length]
  total := by
    rw [← List.length_flatten, holds.flat_items.length_eq, made]
  homes := by
    intro key present i chain found
    rw [List.getElem?_map] at found
    rcases Option.map_eq_some_iff.mp found with ⟨c, at_, same⟩
    rw [← same]
    exact holds.homes (made ▸ present) at_

/-! ## Merging -/

theorem replay_settings (changes : List (Change Bytes V)) (settings : List (Bytes × V)) :
    replay (changes ++ settings.map fun entry => .set entry.1 entry.2) =
      settings.foldl (fun items entry => OrderedMap.set items entry.1 entry.2) (replay changes) := by
  unfold replay
  rw [List.foldl_append, List.foldl_map]
  rfl

/-- What a merge leaves: the settings that it made, one after another. -/
def Merged (t : ObjectTable V) (order : List Nat) (result : Option (ObjectTable V × List (Bytes × V) × Option ObjectError)) : Prop :=
  ∃ t' order' chains' settings status, result = some (t', settings, status) ∧ t'.Holds order' chains' ∧
    order'.filterMap t'.itemAt =
      settings.foldl (fun items entry => OrderedMap.set items entry.1 entry.2) (order.filterMap t.itemAt)

theorem Holds.merged_nothing (holds : t.Holds order chains) (e : Option ObjectError) : t.Merged order (some (t, [], e)) :=
  ⟨t, order, chains, [], e, rfl, holds, rfl⟩

theorem Merged.step {t' : ObjectTable V} {order' : List Nat} {entry : Bytes × V}
    (items : order'.filterMap t'.itemAt = OrderedMap.set (order.filterMap t.itemAt) entry.1 entry.2)
    {result : Option (ObjectTable V × List (Bytes × V) × Option ObjectError)} (rest : t'.Merged order' result) :
    t.Merged order (result.map fun rest => (rest.1, entry :: rest.2.1, rest.2.2)) := by
  rcases rest with ⟨last, order'', chains'', settings, status, same, holds, made⟩
  refine ⟨last, order'', chains'', entry :: settings, status, by rw [same]; rfl, holds, ?_⟩
  rw [made, items]
  rfl

theorem Holds.mergeEntries (holds : t.Holds order chains) {holder : Option Bytes}
    (entries : List (Bytes × (List (Bytes × V) → V))) (spared : ∀ key, holder = some key → key ∉ entries.map (·.1))
    (memory : Nat → MergeMemory) : t.Merged order (mergeEntries holder entries memory t) := by
  induction entries generalizing t order chains memory with
  | nil => exact holds.merged_nothing none
  | cons entry entries ih =>
    show t.Merged order (t.items.bind _)
    rw [holds.items, Option.bind_some]
    by_cases cloned : (memory 0).clone = true
    · rw [if_pos cloned]
      rcases holds.setValue entry.1 (entry.2 (order.filterMap t.itemAt)) (memory 0).set with
        ⟨t', order', chains', status, runs, holds', items, _⟩
      rw [runs, Option.bind_some]
      cases status with
      | some e => exact ⟨t', order', chains', [], some e, rfl, holds', items⟩
      | none =>
        have elsewhere : holder ≠ some entry.1 := fun same => spared _ same List.mem_cons_self
        show t.Merged order (if holder = some entry.1 then none else _)
        rw [if_neg elsewhere]
        apply @Merged.step V t order t' order' (entry.1, entry.2 (order.filterMap t.itemAt)) items
        exact ih holds' (fun key same member => spared key same (List.mem_cons_of_mem _ member)) _
    · rw [if_neg cloned]
      exact holds.merged_nothing _

theorem Holds.mergeItself {front rest : List Nat} (holds : t.Holds (front ++ rest) chains) {fuel : Nat}
    (enough : rest.length < fuel) (memory : Nat → MergeMemory) :
    t.Merged (front ++ rest) (mergeItself fuel rest.head? memory t) := by
  induction rest generalizing t front chains fuel memory with
  | nil =>
    cases fuel with
    | zero => cases enough
    | succ fuel => exact holds.merged_nothing none
  | cons r rest ih =>
    cases fuel with
    | zero => cases enough
    | succ fuel =>
      have member : r ∈ front ++ r :: rest := List.mem_append_right _ List.mem_cons_self
      rcases holds.live member with ⟨node, there⟩
      show t.Merged _ ((t.itemAt r).bind _)
      rw [itemAt_eq there, Option.bind_some]
      by_cases cloned : (memory 0).clone = true
      · rw [if_pos cloned]
        rcases holds.setValue node.key node.value (memory 0).set with
          ⟨t', order', chains', status, runs, holds', items, still⟩
        have same := still (List.mem_map.mpr ⟨_, mem_items member there, rfl⟩)
        subst same
        rw [runs, Option.bind_some]
        cases status with
        | some e => exact ⟨t', _, chains', [], some e, rfl, holds', items⟩
        | none =>
          show t.Merged _ ((t'.orderNextOf r).bind _)
          rw [holds'.forward.after, Option.bind_some]
          apply @Merged.step V t _ t' _ (node.key, node.value) items
          have moved : front ++ r :: rest = (front ++ [r]) ++ rest := by rw [List.append_assoc]; rfl
          rw [moved] at holds' ⊢
          exact ih holds' (Nat.lt_of_succ_lt_succ enough) _
      · rw [if_neg cloned]
        exact holds.merged_nothing _

theorem Holds.merge (holds : t.Holds order chains) (source : Source V) (memory : Nat → MergeMemory)
    (spared : t.Spares (.merge source memory)) : t.Merged order (t.merge source memory) := by
  cases source with
  | apart entries => exact holds.mergeEntries entries (fun key same => by cases same) memory
  | itself =>
    show t.Merged order (ObjectTable.mergeItself t.fuel t.orderHead memory t)
    rw [holds.head]
    exact @Holds.mergeItself V t chains [] order holds t.fuel holds.order_short memory
  | nested key pick =>
    show t.Merged order ((t.getValue key).bind _)
    have read := holds.getValue key
    rw [read, Option.bind_some]
    cases found : get? (order.filterMap t.itemAt) key with
    | none => exact holds.merged_nothing _
    | some value =>
      cases picked : pick value with
      | none =>
        simp only [picked]
        exact holds.merged_nothing _
      | some entries =>
        simp only [picked]
        rw [found] at read
        have absent := spared value entries read picked
        refine holds.mergeEntries _ ?_ memory
        intro k same
        cases same
        rw [List.map_map]
        exact absent

/-! ## Whole runs -/

theorem Holds.apply (holds : t.Holds order chains) {changes : List (Change Bytes V)}
    (made : order.filterMap t.itemAt = replay changes) (op : ObjectOp V) (spared : t.Spares op) :
    ∃ t' order' chains' more, t.apply op = some (t', more) ∧ t'.Holds order' chains' ∧
      order'.filterMap t'.itemAt = replay (changes ++ more) := by
  cases op with
  | set key value memory =>
    rcases holds.setValue key value memory with ⟨t', order', chains', status, runs, holds', items, _⟩
    refine ⟨t', order', chains', if status = none then [.set key value] else [], ?_, holds', ?_⟩
    · show (t.setValue key value memory).map _ = _
      rw [runs]
      rfl
    · rw [items, made]
      cases status with
      | none =>
        rw [if_pos rfl, if_pos rfl]
        exact (replay_append changes (.set key value)).symm
      | some e =>
        show replay changes = replay (changes ++ [])
        rw [List.append_nil]
  | remove key =>
    rcases holds.removeKey key with ⟨absent, runs⟩ | ⟨_, t', order', chains', runs, holds', items⟩
    · refine ⟨t, order, chains, [], ?_, holds, by rw [made, List.append_nil]⟩
      show (t.removeKey key).map _ = _
      rw [runs]
      rfl
    · refine ⟨t', order', chains', [.erase key], ?_, holds', ?_⟩
      · show (t.removeKey key).map _ = _
        rw [runs]
        rfl
      · rw [items, made, replay_append]
        rfl
  | get key =>
    refine ⟨t, order, chains, [], ?_, holds, by rw [made, List.append_nil]⟩
    show (t.getValue key).map _ = _
    rw [holds.getValue]
    rfl
  | merge source memory =>
    rcases holds.merge source memory spared with ⟨t', order', chains', settings, status, runs, holds', items⟩
    refine ⟨t', order', chains', settings.map fun entry => .set entry.1 entry.2, ?_, holds', ?_⟩
    · show (t.merge source memory).map _ = _
      rw [runs]
      rfl
    · rw [items, made, replay_settings]

theorem Holds.run (holds : t.Holds order chains) {changes : List (Change Bytes V)}
    (made : order.filterMap t.itemAt = replay changes) (ops : List (ObjectOp V)) (spared : Spared ops t) :
    ∃ t' order' chains' more, run ops t = some (t', more) ∧ t'.Holds order' chains' ∧
      order'.filterMap t'.itemAt = replay (changes ++ more) := by
  induction ops generalizing t order chains changes with
  | nil => exact ⟨t, order, chains, [], rfl, holds, by rw [made, List.append_nil]⟩
  | cons op ops ih =>
    rcases holds.apply made op spared.1 with ⟨t₁, order₁, chains₁, more₁, runs₁, holds₁, made₁⟩
    rcases ih holds₁ made₁ (spared.2 t₁ more₁ runs₁) with ⟨t', order', chains', more, runs, holds', made'⟩
    refine ⟨t', order', chains', more₁ ++ more, ?_, holds', by rw [made', List.append_assoc]⟩
    show (t.apply op).bind _ = _
    rw [runs₁, Option.bind_some, runs]
    rfl

end

/-- A run that merges no object from under a key which that object has too is never undefined, and the table it
    ends in is the map of the changes made; a set that fails there leaves it that map. -/
theorem object_map (ops : List (ObjectOp V)) (spared : Spared ops create) :
    ∃ t changes items chains, run ops create = some (t, changes) ∧ t.Shows changes items chains ∧
      ∀ key value memory t' e, t.setValue key value memory = some (t', some e) →
        ∃ chains', t'.Shows changes items chains' := by
  rcases @Holds.run V create [] _ create_holds [] rfl ops spared with ⟨t, order, chains, changes, runs, holds, made⟩
  refine ⟨t, changes, replay changes, _, runs, holds.shows made, ?_⟩
  intro key value memory t' e failed
  rcases holds.setValue key value memory with ⟨last, order', chains', status, same, holds', items, _⟩
  rw [same] at failed
  cases failed
  exact ⟨_, holds'.shows (items.trans made)⟩

def plenty : SetMemory := ⟨true, true, true⟩

def heldEntries : Json Rat → Option (List (Bytes × Json Rat))
  | .object entries => some entries
  | _ => none

def holding (key : String) : Json Rat := .object [(ascii key, .null)]

/-- `{"a": {"b": null}}`, into which the object under `a` is merged. -/
def mergeHeld (key : String) : List (ObjectOp (Json Rat)) :=
  [.set (ascii "a") (holding key) plenty, .merge (.nested (ascii "a") heldEntries) fun _ => ⟨true, plenty⟩]

theorem spared_mergeHeld : Spared (mergeHeld "b") create := by
  refine ⟨True.intro, ?_⟩
  intro t changes made
  cases made
  refine ⟨?_, fun _ _ _ => True.intro⟩
  intro value entries found picked
  cases found
  cases picked
  decide

theorem object_map_mergeHeld :
    ∃ t changes items chains, run (mergeHeld "b") create = some (t, changes) ∧ t.Shows changes items chains ∧
      ∀ key value memory t' e, t.setValue key value memory = some (t', some e) →
        ∃ chains', t'.Shows changes items chains' :=
  object_map (mergeHeld "b") spared_mergeHeld

/-- The object under `a` has a key `a`: it is destroyed while it is walked. -/
theorem object_merge_destroyed : ¬ ∃ t changes items chains, run (mergeHeld "a") create = some (t, changes) ∧
    t.Shows changes items chains := by
  rintro ⟨t, changes, items, chains, runs, _⟩
  have undefined : run (mergeHeld "a") create = none := rfl
  rw [undefined] at runs
  cases runs

end ObjectTable

end BlueBird.Json
