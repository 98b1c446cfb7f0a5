import BlueBird.Persist.QueryAgreement
import Mathlib.Data.List.Sort
import Mathlib.Data.Set.List

/-! `bb_query_apply` with the blocks it takes and gives back: filter, sort, page. -/

namespace BlueBird.Persist

abbrev EntityRow := List FieldValue

/-- Blocks of rows at addresses, and the address that is next. -/
structure RowBlocks where
  blocks : Nat → Option (List EntityRow)
  fresh : Nat

namespace RowBlocks

def set (h : RowBlocks) (at_ : Nat) (rows : Option (List EntityRow)) : RowBlocks :=
  { h with blocks := fun p => if p = at_ then rows else h.blocks p }

/-- A block from `malloc`, with rows written to it. -/
def make (h : RowBlocks) (rows : List EntityRow) : RowBlocks × Nat := ({ h.set h.fresh (some rows) with fresh := h.fresh + 1 }, h.fresh)

def free (h : RowBlocks) (p : Nat) : RowBlocks := h.set p none

def rowsAt (h : RowBlocks) (p : Nat) : List EntityRow := (h.blocks p).getD []

end RowBlocks

abbrev Qsort := (EntityRow → EntityRow → Int) → List EntityRow → List EntityRow

/-- `final_count` -/
def pageCount (q : Query) (available : Nat) : Nat :=
  if q.limit ≥ 0 ∧ q.limit.toInt.toNat < available then q.limit.toInt.toNat else available

/-- `bb_query_apply`: the blocks afterwards, and for 0 what `*out_array` and `*out_count` are. `malloc` tells of a size whether
    there is a block of it. -/
def queryApplyAt (malloc : Nat → Bool) (qsort : Qsort) (structSize : Nat) (schema : Schema) (q : Query) (h : RowBlocks)
    (inArray inCount : Nat) : RowBlocks × Option (Option Nat × Nat) :=
  if inCount = 0 then (h, some (none, 0))
  else if ¬ malloc (structSize * inCount) then (h, none)
  else
    let rows := ((h.rowsAt inArray).take inCount).filter (queryMatches schema q)
    let (h, matched) := h.make rows
    let matchedCount := rows.length
    if matchedCount = 0 then (h.free matched, some (none, 0))
    else
      let h := if q.sorts ≠ [] then h.set matched (some (qsort (sortCmp schema q.sorts) (h.rowsAt matched))) else h
      let start := if q.offset > 0 then q.offset.toInt.toNat else 0
      if start ≥ matchedCount then (h.free matched, some (none, 0))
      else
        let finalCount := pageCount q (matchedCount - start)
        if start = 0 ∧ finalCount = matchedCount then (h, some (some matched, finalCount))
        else if ¬ malloc (structSize * finalCount) then (h.free matched, none)
        else
          let (h, page) := h.make (((h.rowsAt matched).drop start).take finalCount)
          (h.free matched, some (some page, finalCount))

/-! ## The comparator -/

theorem strictWeakOrder_of_transCmp {α : Type} (cmp : α → α → Ordering) [Std.TransCmp cmp] :
    IsStrictWeakOrder α fun a b => cmp a b = .lt where
  irrefl a less := by
    have self : cmp a a = .eq := Std.ReflCmp.compare_self
    rw [self] at less
    cases less
  trans _ _ _ first second := Std.TransCmp.lt_trans first second
  incomp_trans a b c first second := by
    have equal : ∀ x y, ¬cmp x y = .lt ∧ ¬cmp y x = .lt → cmp x y = .eq := by
      intro x y neither
      cases way : cmp x y with
      | lt => exact absurd way neither.1
      | eq => rfl
      | gt => exact absurd (Std.OrientedCmp.lt_of_gt way) neither.2
    have whole : cmp a c = .eq := Std.TransCmp.eq_trans (equal a b first) (equal b c second)
    refine ⟨?_, ?_⟩
    · rw [whole]
      exact nofun
    · rw [Std.OrientedCmp.eq_comm.mp whole]
      exact nofun

section
variable {schema : Schema}

theorem fieldOf_unknown {name : String} (unknown : findField schema name = none) (a : Entity schema) :
    fieldOf schema a.values name = none := by
  unfold fieldOf
  apply List.find?_eq_none.mpr
  intro field member
  unfold findField at unknown
  exact List.find?_eq_none.mp unknown field.1 (List.of_mem_zip member).1

def knownSorts (schema : Schema) (sorts : List QuerySort) : List QuerySort := sorts.filter fun sort => (findField schema sort.field).isSome

theorem knownSorts_typed (sorts : List QuerySort) : ∀ sort ∈ knownSorts schema sorts, ∃ f, findField schema sort.field = some f := by
  intro sort member
  exact Option.isSome_iff_exists.mp (List.mem_filter.mp member).2

theorem sortCmp_knownSorts (sorts : List QuerySort) (a b : Entity schema) :
    sortCmp schema sorts a.values b.values = sortCmp schema (knownSorts schema sorts) a.values b.values := by
  induction sorts with
  | nil => rfl
  | cons sort sorts ih =>
    unfold knownSorts
    cases found : findField schema sort.field with
    | none =>
      rw [List.filter_cons_of_neg (by rw [found]; decide), sortCmp, fieldOf_unknown found a]
      exact ih
    | some f =>
      rw [List.filter_cons_of_pos (by rw [found]; rfl), sortCmp, sortCmp, ih]
      rfl

theorem entityOrder_knownSorts (sorts : List QuerySort) : entityOrder schema sorts = entityOrder schema (knownSorts schema sorts) := by
  funext a b
  induction sorts with
  | nil => rfl
  | cons sort sorts ih =>
    unfold knownSorts
    cases found : findField schema sort.field with
    | none =>
      rw [List.filter_cons_of_neg (by rw [found]; decide)]
      unfold entityOrder
      rw [orderRows, columnValue_storedRow, columnValue_storedRow, fieldOf_unknown found a, fieldOf_unknown found b]
      show (if sort.direction = .asc then Ordering.eq else Ordering.eq.swap).then _ = _
      rw [Ordering.swap_eq, ite_self]
      exact ih
    | some f =>
      rw [List.filter_cons_of_pos (by rw [found]; rfl)]
      exact congrArg (Ordering.then _) ih

theorem sortCmp_entityOrder (sorts : List QuerySort) (a b : Entity schema) :
    compare (sortCmp schema sorts a.values b.values) 0 = entityOrder schema sorts a b := by
  rw [sortCmp_knownSorts, entityOrder_knownSorts]
  exact sortCmp_order _ (knownSorts_typed sorts) a b

theorem entityOrder_transCmp (sorts : List QuerySort) : Std.TransCmp (entityOrder schema sorts) := by
  rw [entityOrder_knownSorts]
  exact entityOrder_trans _ (knownSorts_typed sorts)

theorem sortCmp_neg_iff (sorts : List QuerySort) (a b : Entity schema) :
    sortCmp schema sorts a.values b.values < 0 ↔ entityOrder schema sorts a b = .lt := by
  rw [← sortCmp_entityOrder, compare_zero]
  by_cases less : sortCmp schema sorts a.values b.values < 0
  · rw [if_pos less]
    exact ⟨fun _ => rfl, fun _ => less⟩
  · rw [if_neg less]
    refine ⟨fun yes => absurd yes less, ?_⟩
    split <;> exact nofun

theorem sortCmp_strictWeakOrder (sorts : List QuerySort) :
    IsStrictWeakOrder (Entity schema) fun a b => sortCmp schema sorts a.values b.values < 0 := by
  have trans : Std.TransCmp (entityOrder schema sorts) := entityOrder_transCmp sorts
  have same : (fun a b : Entity schema => sortCmp schema sorts a.values b.values < 0) = fun a b => entityOrder schema sorts a b = .lt :=
    funext fun a => funext fun b => propext (sortCmp_neg_iff sorts a b)
  rw [same]
  exact strictWeakOrder_of_transCmp _

end

/-! ## The result -/

section
variable {h : RowBlocks} (rows : List EntityRow)

theorem rowsAt_set (at_ : Nat) : (h.set at_ (some rows)).rowsAt at_ = rows := by
  show (if at_ = at_ then some rows else h.blocks at_).getD [] = rows
  rw [if_pos rfl]
  rfl

theorem blocks_set {at_ p : Nat} (other : p ≠ at_) (block : Option (List EntityRow)) : (h.set at_ block).blocks p = h.blocks p :=
  if_neg other

theorem blocks_make {p : Nat} (old : p < h.fresh) : (h.make rows).1.blocks p = h.blocks p := blocks_set (Nat.ne_of_lt old) _

theorem make_set (other : List EntityRow) : (h.make rows).1.set h.fresh (some other) = (h.make other).1 := by
  show RowBlocks.mk _ _ = RowBlocks.mk _ _
  congr 1
  funext p
  show (if p = h.fresh then some other else if p = h.fresh then some rows else h.blocks p) =
    if p = h.fresh then some other else h.blocks p
  by_cases here : p = h.fresh
  · rw [if_pos here, if_pos here]
  · rw [if_neg here, if_neg here, if_neg here]

theorem rowsAt_make : (h.make rows).1.rowsAt h.fresh = rows := rowsAt_set rows h.fresh

end

/-- What a call leaves for its caller: the blocks there were, the page, and NULL for no rows. -/
structure Leaves (page : List EntityRow) (gap : Prop) (h : RowBlocks) (result : RowBlocks × Option (Option Nat × Nat)) : Prop where
  old : ∀ p < h.fresh, result.1.blocks p = h.blocks p
  pages : ∀ array count, result.2 = some (array, count) → (array.map result.1.rowsAt).getD [] = page ∧ count = page.length
  null : (∀ array count, result.2 = some (array, count) → (array = none ↔ count = 0)) ↔ ¬gap

theorem leaves_nothing {h h' : RowBlocks} {gap : Prop} (old : ∀ p < h.fresh, h'.blocks p = h.blocks p) (free : ¬gap) :
    Leaves [] gap h (h', some (none, 0)) where
  old := old
  pages := by
    intro array count same
    cases same
    exact ⟨rfl, rfl⟩
  null := by
    refine ⟨fun _ => free, fun _ => ?_⟩
    intro array count same
    cases same
    exact ⟨fun _ => rfl, fun _ => rfl⟩

theorem leaves_failure {h h' : RowBlocks} {gap : Prop} {page : List EntityRow} (old : ∀ p < h.fresh, h'.blocks p = h.blocks p)
    (free : ¬gap) : Leaves page gap h (h', none) where
  old := old
  pages := nofun
  null := ⟨fun _ => free, fun _ => nofun⟩

theorem leaves_block {h h' : RowBlocks} {gap : Prop} {page : List EntityRow} {p : Nat} (old : ∀ p < h.fresh, h'.blocks p = h.blocks p)
    (rows : h'.rowsAt p = page) (some_ : gap ↔ page = []) : Leaves page gap h (h', some (some p, page.length)) where
  old := old
  pages := by
    intro array count same
    cases same
    exact ⟨rows, rfl⟩
  null := by
    rw [some_]
    constructor
    · intro null empty
      have yes := (null _ _ rfl).mpr (congrArg List.length empty)
      cases yes
    · intro nonempty array count same
      cases same
      exact ⟨nofun, fun zero => absurd (List.eq_nil_of_length_eq_zero zero) nonempty⟩

section
variable {malloc : Nat → Bool} {qsort : Qsort} {structSize : Nat} {schema : Schema} {q : Query} {h : RowBlocks} {inArray : Nat}
  {rows : List EntityRow}

def sortedRows (qsort : Qsort) (schema : Schema) (q : Query) (matching : List EntityRow) : List EntityRow :=
  if q.sorts ≠ [] then qsort (sortCmp schema q.sorts) matching else matching

/-- The one way to a block of no rows: a limit of 0 where there are rows behind the offset. -/
def EmptyPage (malloc : Nat → Bool) (structSize : Nat) (q : Query) (count matching : Nat) : Prop :=
  malloc (structSize * count) = true ∧ malloc 0 = true ∧ q.limit = 0 ∧ q.offset.toInt.toNat < matching

theorem pageCount_zero_iff {available : Nat} (some_ : 0 < available) : pageCount q available = 0 ↔ q.limit = 0 := by
  have zero : q.limit = 0 ↔ q.limit.toInt = 0 := by
    rw [← Int64.toInt_inj]
    rfl
  have least := nonneg_iff q.limit
  unfold pageCount
  rw [zero]
  by_cases less : q.limit ≥ 0 ∧ q.limit.toInt.toNat < available
  · rw [if_pos less]
    have positive := least.mp less.1
    omega
  · rw [if_neg less]
    constructor
    · intro zero
      omega
    · intro none_
      exact absurd ⟨least.mpr (by omega), by omega⟩ less

theorem pageCount_le (available : Nat) : pageCount q available ≤ available := by
  unfold pageCount
  split <;> omega

theorem startOf (q : Query) : (if q.offset > 0 then q.offset.toInt.toNat else 0) = q.offset.toInt.toNat := by
  have positive : q.offset > 0 ↔ 0 < q.offset.toInt := Int64.lt_iff_toInt_lt
  by_cases set : q.offset > 0
  · rw [if_pos set]
  · rw [if_neg set]
    rw [positive] at set
    omega

theorem queryPage_beyond {s : List EntityRow} (beyond : s.length ≤ q.offset.toInt.toNat) : queryPage q s = [] := by
  unfold queryPage
  rw [startOf]
  exact if_pos beyond

theorem queryPage_within {s : List EntityRow} (within : q.offset.toInt.toNat < s.length) :
    queryPage q s = (s.drop q.offset.toInt.toNat).take (pageCount q (s.length - q.offset.toInt.toNat)) := by
  unfold queryPage
  rw [startOf]
  exact if_neg (Nat.not_le_of_lt within)

theorem length_queryPage {s : List EntityRow} (within : q.offset.toInt.toNat < s.length) :
    (queryPage q s).length = pageCount q (s.length - q.offset.toInt.toNat) := by
  rw [queryPage_within within, List.length_take, List.length_drop]
  exact Nat.min_eq_left (pageCount_le _)

theorem queryApplyAt_leaves (input : h.rowsAt inArray = rows)
    (length : (sortedRows qsort schema q (rows.filter (queryMatches schema q))).length = (rows.filter (queryMatches schema q)).length) :
    Leaves (queryPage q (sortedRows qsort schema q (rows.filter (queryMatches schema q))))
      (EmptyPage malloc structSize q rows.length (rows.filter (queryMatches schema q)).length) h
      (queryApplyAt malloc qsort structSize schema q h inArray rows.length) := by
  unfold queryApplyAt
  rw [input, List.take_length, startOf]
  generalize sorted_ : sortedRows qsort schema q (rows.filter (queryMatches schema q)) = sorted at length
  by_cases none_ : rows.length = 0
  · rw [if_pos none_]
    have empty : rows = [] := List.eq_nil_of_length_eq_zero none_
    subst empty
    rw [queryPage_beyond (by rw [length]; exact Nat.zero_le _)]
    exact leaves_nothing (fun _ _ => rfl) fun gap => absurd gap.2.2.2 (Nat.not_lt_zero _)
  rw [if_neg none_]
  by_cases room : malloc (structSize * rows.length) = true
  swap
  · rw [if_pos room]
    exact leaves_failure (fun _ _ => rfl) fun gap => room gap.1
  rw [if_neg (not_not_intro room)]
  dsimp only
  generalize matching_ : rows.filter (queryMatches schema q) = matching at sorted_ length
  have some_ : (sortedRows qsort schema q matching) = sorted := sorted_
  have kept (rest : RowBlocks) (same : ∀ p < h.fresh, rest.blocks p = h.blocks p) (block : Option (List EntityRow)) :
      ∀ p < h.fresh, (rest.set h.fresh block).blocks p = h.blocks p := by
    intro p old
    rw [blocks_set (Nat.ne_of_lt old)]
    exact same p old
  have made : ∀ p < h.fresh, (h.make matching).1.blocks p = h.blocks p := fun p old => blocks_make matching old
  by_cases matches_ : matching.length = 0
  · rw [if_pos matches_, queryPage_beyond (by rw [length, matches_]; exact Nat.zero_le _)]
    apply leaves_nothing (kept _ made none)
    intro gap
    rw [matches_] at gap
    exact absurd gap.2.2.2 (Nat.not_lt_zero _)
  rw [if_neg matches_]
  have inOrder : (if q.sorts ≠ [] then (h.make matching).1.set h.fresh (some (qsort (sortCmp schema q.sorts)
      ((h.make matching).1.rowsAt h.fresh))) else (h.make matching).1) = (h.make sorted).1 := by
    rw [rowsAt_make, ← some_]
    unfold sortedRows
    by_cases keys : q.sorts ≠ []
    · rw [if_pos keys, if_pos keys]
      exact make_set matching _
    · rw [if_neg keys, if_neg keys]
  have here : (h.make matching).2 = h.fresh := rfl
  rw [here, inOrder]
  by_cases beyond : q.offset.toInt.toNat ≥ matching.length
  · rw [if_pos beyond, queryPage_beyond (by rw [length]; exact beyond)]
    apply leaves_nothing (kept _ (fun p old => blocks_make sorted old) none)
    exact fun gap => absurd gap.2.2.2 (Nat.not_lt.mpr beyond)
  rw [if_neg beyond]
  have within : q.offset.toInt.toNat < sorted.length := by
    rw [length]
    exact Nat.lt_of_not_le beyond
  have count := length_queryPage within
  have cut := queryPage_within within
  rw [length] at count cut
  have rest : 0 < matching.length - q.offset.toInt.toNat := by omega
  have limited := pageCount_zero_iff (q := q) rest
  have empty : queryPage q sorted = [] ↔ q.limit = 0 := by
    rw [← List.length_eq_zero_iff, count]
    exact limited
  by_cases whole : q.offset.toInt.toNat = 0 ∧ pageCount q (matching.length - q.offset.toInt.toNat) = matching.length
  · rw [if_pos whole]
    rw [← count]
    apply leaves_block (fun p old => blocks_make sorted old)
    · rw [rowsAt_make, cut, whole.2, whole.1, List.drop_zero, ← length, List.take_length]
    · rw [empty]
      have some_ : q.limit ≠ 0 := fun zero => matches_ (whole.2.symm.trans (limited.mpr zero))
      exact ⟨fun gap => absurd gap.2.2.1 some_, fun zero => absurd zero some_⟩
  rw [if_neg whole]
  by_cases given : malloc (structSize * pageCount q (matching.length - q.offset.toInt.toNat)) = true
  swap
  · rw [if_pos given]
    apply leaves_failure (kept _ (fun p old => blocks_make sorted old) none)
    intro gap
    rw [limited.mpr gap.2.2.1, Nat.mul_zero] at given
    exact given gap.2.1
  rw [if_neg (not_not_intro given)]
  rw [rowsAt_make, ← cut, ← count]
  apply leaves_block
  · apply kept
    intro p old
    rw [blocks_make _ (Nat.lt_succ_of_lt old)]
    exact blocks_make sorted old
  · have other : h.fresh + 1 ≠ h.fresh := Nat.succ_ne_self _
    show (RowBlocks.free _ h.fresh).rowsAt (h.fresh + 1) = _
    unfold RowBlocks.free RowBlocks.rowsAt
    rw [blocks_set other]
    exact rowsAt_make (queryPage q sorted)
  · rw [empty]
    constructor
    · exact fun gap => gap.2.2.1
    · intro zero
      rw [limited.mpr zero, Nat.mul_zero] at given
      exact ⟨room, given, zero, Nat.lt_of_not_le beyond⟩

/-- What is said of a call that returns 0: the page of the matching entities in an order that the keys allow, NULL for no
    rows; and nothing else than the result has changed. -/
structure QueryApplied (schema : Schema) (q : Query) (entities : List (Entity schema)) (h : RowBlocks)
    (result : RowBlocks × Option (Option Nat × Nat)) : Prop where
  pages : ∀ array count, result.2 = some (array, count) → ∃ s : List (Entity schema),
    s.Perm (entities.filter fun entity => queryMatches schema q entity.values) ∧
    (s.Pairwise fun a b => (entityOrder schema q.sorts a b).isLE = true) ∧
    (array.map result.1.rowsAt).getD [] = (pageOf q.limit.toInt q.offset.toInt s).map (·.values) ∧
    count = (pageOf q.limit.toInt q.offset.toInt s).length
  null : ∀ array count, result.2 = some (array, count) → (array = none ↔ count = 0)
  comparator : IsStrictWeakOrder (Entity schema) fun a b => sortCmp schema q.sorts a.values b.values < 0
  input : ∀ p < h.fresh, result.1.blocks p = h.blocks p

theorem entities_of_perm {entities : List (Entity schema)} {sorted : List EntityRow} (perm : sorted.Perm (entities.map (·.values))) :
    ∃ s : List (Entity schema), s.map (·.values) = sorted ∧ s.Perm entities := by
  have inside : sorted ∈ Set.range (List.map fun entity : Entity schema => entity.values) := by
    rw [Set.range_list_map]
    intro row member
    rcases List.mem_map.mp (perm.subset member) with ⟨entity, _, same⟩
    exact ⟨entity, same⟩
  rcases inside with ⟨s, rfl⟩
  refine ⟨s, rfl, ?_⟩
  exact (List.map_perm_map_iff fun a b same => by cases a; cases b; congr).mp perm

/-- `bb_query_apply` is filter, sort and page, but for a block of no rows where the limit is 0 and there are rows behind the
    offset. -/
theorem queryApplied_iff {entities : List (Entity schema)} (input : h.rowsAt inArray = entities.map (·.values))
    (sorts : (IsStrictWeakOrder (Entity schema) fun a b => sortCmp schema q.sorts a.values b.values < 0) →
      SortsBy qsort (sortCmp schema q.sorts) ((entities.filter fun entity => queryMatches schema q entity.values).map (·.values))) :
    QueryApplied schema q entities h (queryApplyAt malloc qsort structSize schema q h inArray entities.length) ↔
      ¬EmptyPage malloc structSize q entities.length (entities.filter fun entity => queryMatches schema q entity.values).length := by
  have matching : (entities.map (·.values)).filter (queryMatches schema q) =
      (entities.filter fun entity => queryMatches schema q entity.values).map (·.values) := List.filter_map ..
  have sorting := sorts (sortCmp_strictWeakOrder q.sorts)
  have perm : (sortedRows qsort schema q ((entities.map (·.values)).filter (queryMatches schema q))).Perm
      ((entities.filter fun entity => queryMatches schema q entity.values).map (·.values)) := by
    rw [matching]
    unfold sortedRows
    split
    · exact sorting.1
    · exact List.Perm.refl _
  have leaves : Leaves _ _ h (queryApplyAt malloc qsort structSize schema q h inArray (entities.map (·.values)).length) :=
    queryApplyAt_leaves input (by rw [perm.length_eq, matching])
  rw [List.length_map, matching, List.length_map, ← matching] at leaves
  rcases entities_of_perm perm with ⟨s, sorted, same⟩
  have ordered : s.Pairwise fun a b => (entityOrder schema q.sorts a b).isLE = true := by
    by_cases keys : q.sorts = []
    · apply List.pairwise_of_forall
      intro a b
      rw [keys]
      rfl
    · have rows := sorting.2
      rw [← matching] at rows
      unfold sortedRows at sorted
      rw [if_pos keys] at sorted
      rw [← sorted, List.pairwise_map] at rows
      apply rows.imp
      intro a b least
      rw [← sortCmp_entityOrder, isLE_iff]
      exact least
  constructor
  · exact fun applied => leaves.null.mp applied.null
  · intro free
    refine ⟨?_, leaves.null.mpr free, sortCmp_strictWeakOrder q.sorts, leaves.old⟩
    intro array count out
    have page := leaves.pages array count out
    rw [← sorted, queryPage_eq, ← pageOf_map, List.length_map] at page
    exact ⟨s, same, ordered, page.1, page.2⟩

end

def numberBlocks (ns : List Int32) : RowBlocks := { blocks := fun p => if p = 0 then some (ns.map fun n => [.int n]) else none, fresh := 1 }

def descending : Query := { queryInit with sorts := [⟨"n", .desc⟩], limit := 1 }

theorem queryApplied_iff_numbers : QueryApplied numbers descending [number 1, number 2] (numberBlocks [1, 2])
    (queryApplyAt (fun _ => true) (fun cmp rows => rows.insertionSort fun a b => cmp a b ≤ 0) 4 numbers descending (numberBlocks [1, 2]) 0 2) := by
  have input : (numberBlocks [1, 2]).rowsAt 0 = [number 1, number 2].map (·.values) := rfl
  apply (queryApplied_iff input fun _ => ⟨List.perm_insertionSort _ _, by decide +kernel⟩).mpr
  intro gap
  exact absurd gap.2.2.1 (by decide)

/-- A limit of 0 gives a block of no rows, not NULL. -/
theorem not_queryApplied_limit : ¬QueryApplied numbers (queryLimit queryInit 0) [number 7] (numberBlocks [7])
    (queryApplyAt (fun _ => true) (fun _ rows => rows) 4 numbers (queryLimit queryInit 0) (numberBlocks [7]) 0 1) := by
  intro applied
  have out : (queryApplyAt (fun _ => true) (fun _ rows => rows) 4 numbers (queryLimit queryInit 0) (numberBlocks [7]) 0 1).2 =
      some (some 2, 0) := by decide +kernel
  have null := (applied.null _ _ out).mpr rfl
  cases null

end BlueBird.Persist
