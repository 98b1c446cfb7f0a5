import Mathlib.Data.List.Basic
import Mathlib.Data.List.Induction
import Mathlib.Data.List.Perm.Subperm

/-! Association lists that keep a key where it was first put. -/

namespace OrderedMap

variable {κ α : Type} [DecidableEq κ]

def get? (entries : List (κ × α)) (key : κ) : Option α :=
  (entries.find? (·.1 = key)).map (·.2)

def set : List (κ × α) → κ → α → List (κ × α)
  | [], key, value => [(key, value)]
  | entry :: entries, key, value =>
    if entry.1 = key then (entry.1, value) :: entries else entry :: set entries key value

def erase (entries : List (κ × α)) (key : κ) : List (κ × α) := entries.filter (·.1 ≠ key)

def Distinct (entries : List (κ × α)) : Prop := (entries.map (·.1)).Nodup

def firstKeys : List κ → List κ
  | [] => []
  | key :: keys => key :: (firstKeys keys).filter (· ≠ key)

def valued (keys : List κ) (value : κ → Option α) : List (κ × α) :=
  keys.filterMap fun key => (value key).map fun v => (key, v)

/-- What a list of settings amounts to: every key where it came first, with what it was given last. -/
def collapse (settings : List (κ × α)) : List (κ × α) :=
  valued (firstKeys (settings.map (·.1))) (get? settings.reverse)

theorem get?_cons (entry : κ × α) (entries : List (κ × α)) (key : κ) :
    get? (entry :: entries) key = if entry.1 = key then some entry.2 else get? entries key := by
  unfold get?
  by_cases same : entry.1 = key <;> simp [same]

theorem get?_set (entries : List (κ × α)) (key : κ) (value : α) (other : κ) :
    get? (set entries key value) other = if other = key then some value else get? entries other := by
  induction entries with
  | nil =>
    rw [set, get?_cons]
    by_cases same : other = key
    · rw [if_pos same, if_pos same.symm]
    · rw [if_neg same, if_neg fun equal => same equal.symm]
  | cons entry entries ih =>
    rw [set]
    by_cases here : entry.1 = key
    · rw [if_pos here, get?_cons, get?_cons]
      by_cases same : other = key
      · rw [if_pos same, if_pos (here.trans same.symm)]
      · have differs : entry.1 ≠ other := fun equal => same (equal.symm.trans here)
        rw [if_neg same, if_neg differs, if_neg differs]
    · rw [if_neg here, get?_cons, get?_cons, ih]
      by_cases same : other = key
      · have differs : entry.1 ≠ other := fun equal => here (equal.trans same)
        rw [if_neg differs, if_pos same, if_pos same]
      · rw [if_neg same, if_neg same]

theorem set_set (entries : List (κ × α)) (key : κ) (first second : α) :
    set (set entries key first) key second = set entries key second := by
  induction entries with
  | nil => rw [set, set, set, if_pos rfl]
  | cons entry entries ih =>
    rw [set, set]
    by_cases here : entry.1 = key
    · rw [if_pos here, if_pos here, set, if_pos here]
    · rw [if_neg here, if_neg here, set, if_neg here, ih]

theorem get?_erase (entries : List (κ × α)) (key other : κ) :
    get? (erase entries key) other = if other = key then none else get? entries other := by
  induction entries with
  | nil =>
    show none = _
    split <;> rfl
  | cons entry entries ih =>
    unfold erase at ih ⊢
    by_cases here : entry.1 = key
    · rw [List.filter_cons_of_neg (by simpa using here), ih, get?_cons]
      by_cases same : other = key
      · rw [if_pos same, if_pos same]
      · have differs : entry.1 ≠ other := fun equal => same (equal.symm.trans here)
        rw [if_neg same, if_neg same, if_neg differs]
    · rw [List.filter_cons_of_pos (by simpa using here), get?_cons, ih, get?_cons]
      by_cases same : other = key
      · have differs : entry.1 ≠ other := fun equal => here (equal.trans same)
        rw [if_neg differs, if_pos same, if_pos same]
      · rw [if_neg same, if_neg same]

theorem get?_erase_of_absent {entries : List (κ × α)} {key : κ} (absent : get? entries key = none) (other : κ) :
    get? (erase entries key) other = get? entries other := by
  rw [get?_erase]
  by_cases same : other = key
  · rw [if_pos same, same, absent]
  · rw [if_neg same]

theorem distinct_erase {entries : List (κ × α)} (distinct : Distinct entries) (key : κ) : Distinct (erase entries key) :=
  distinct.sublist (List.filter_sublist.map _)

section
variable {β : Type} (f : α → β)

def mapValues (entries : List (κ × α)) : List (κ × β) := entries.map fun entry => (entry.1, f entry.2)

theorem mapValues_set (entries : List (κ × α)) (key : κ) (value : α) :
    mapValues f (set entries key value) = set (mapValues f entries) key (f value) := by
  induction entries with
  | nil => rfl
  | cons entry entries ih =>
    unfold mapValues at ih ⊢
    rw [set, List.map_cons, set]
    by_cases here : entry.1 = key
    · rw [if_pos here, if_pos here, List.map_cons]
    · rw [if_neg here, if_neg here, List.map_cons, ih]

theorem mapValues_erase (entries : List (κ × α)) (key : κ) :
    mapValues f (erase entries key) = erase (mapValues f entries) key := by
  unfold mapValues erase
  rw [List.filter_map]
  rfl

theorem get?_mapValues (entries : List (κ × α)) (key : κ) : get? (mapValues f entries) key = (get? entries key).map f := by
  induction entries with
  | nil => rfl
  | cons entry entries ih =>
    have front : mapValues f (entry :: entries) = (entry.1, f entry.2) :: mapValues f entries := rfl
    rw [front, get?_cons, get?_cons, ih]
    by_cases here : entry.1 = key
    · rw [if_pos here, if_pos here]
      rfl
    · rw [if_neg here, if_neg here]

omit [DecidableEq κ] in
theorem distinct_mapValues {entries : List (κ × α)} (distinct : Distinct entries) : Distinct (mapValues f entries) := by
  unfold Distinct mapValues
  rw [List.map_map]
  exact distinct

end

theorem get?_eq_some_of_mem {entries : List (κ × α)} (distinct : Distinct entries) {entry : κ × α}
    (member : entry ∈ entries) : get? entries entry.1 = some entry.2 := by
  induction entries with
  | nil => cases member
  | cons first entries ih =>
    rcases List.nodup_cons.mp distinct with ⟨fresh, rest⟩
    rw [get?_cons]
    rcases List.mem_cons.mp member with same | later
    · rw [same, if_pos rfl]
    · have other : first.1 ≠ entry.1 := by
        intro same
        exact fresh (List.mem_map.mpr ⟨entry, later, same.symm⟩)
      rw [if_neg other]
      exact ih rest later

theorem get?_eq_none {entries : List (κ × α)} {key : κ} (absent : key ∉ entries.map (·.1)) :
    get? entries key = none := by
  unfold get?
  rw [Option.map_eq_none_iff, List.find?_eq_none]
  intro entry member same
  exact absent (List.mem_map.mpr ⟨entry, member, by simpa using same⟩)

theorem set_of_absent {entries : List (κ × α)} {key : κ} (absent : key ∉ entries.map (·.1)) (value : α) :
    set entries key value = entries ++ [(key, value)] := by
  induction entries with
  | nil => rfl
  | cons entry entries ih =>
    rw [List.map_cons, List.mem_cons, not_or] at absent
    rw [set, if_neg (fun same => absent.1 same.symm), ih absent.2, List.cons_append]

theorem keys_set_of_present {entries : List (κ × α)} {key : κ} (present : key ∈ entries.map (·.1)) (value : α) :
    (set entries key value).map (·.1) = entries.map (·.1) := by
  induction entries with
  | nil => cases present
  | cons entry entries ih =>
    rw [set]
    by_cases same : entry.1 = key
    · rw [if_pos same, List.map_cons, List.map_cons]
    · rw [List.map_cons, List.mem_cons] at present
      rw [if_neg same, List.map_cons, List.map_cons, ih (present.resolve_left fun equal => same equal.symm)]

theorem set_middle {front back : List (κ × α)} {key : κ} {old : α} (distinct : Distinct (front ++ (key, old) :: back)) (value : α) :
    set (front ++ (key, old) :: back) key value = front ++ (key, value) :: back := by
  induction front with
  | nil =>
    show set ((key, old) :: back) key value = _
    rw [set, if_pos rfl]
    rfl
  | cons entry front ih =>
    rcases List.nodup_cons.mp distinct with ⟨fresh, rest⟩
    have other : entry.1 ≠ key := by
      intro same
      exact fresh (List.mem_map.mpr ⟨(key, old), List.mem_append_right _ List.mem_cons_self, same.symm⟩)
    rw [List.cons_append, set, if_neg other, ih rest, List.cons_append]

theorem erase_of_absent {entries : List (κ × α)} {key : κ} (absent : key ∉ entries.map (·.1)) : erase entries key = entries := by
  apply List.filter_eq_self.mpr
  intro entry member
  apply decide_eq_true
  intro same
  exact absent (List.mem_map.mpr ⟨entry, member, same⟩)

theorem erase_middle {front back : List (κ × α)} {key : κ} {old : α} (distinct : Distinct (front ++ (key, old) :: back)) :
    erase (front ++ (key, old) :: back) key = front ++ back := by
  unfold Distinct at distinct
  rw [List.map_append, List.map_cons] at distinct
  rcases List.nodup_cons.mp (List.perm_middle.nodup_iff.mp distinct) with ⟨elsewhere, _⟩
  rw [List.mem_append, not_or] at elsewhere
  unfold erase
  rw [List.filter_append, List.filter_cons_of_neg (by simp)]
  exact congrArg₂ (· ++ ·) (erase_of_absent elsewhere.1) (erase_of_absent elsewhere.2)

theorem distinct_set {entries : List (κ × α)} (distinct : Distinct entries) (key : κ) (value : α) :
    Distinct (set entries key value) := by
  unfold Distinct
  by_cases present : key ∈ entries.map (·.1)
  · rw [keys_set_of_present present]
    exact distinct
  · rw [set_of_absent present, List.map_append]
    exact List.nodup_append.mpr ⟨distinct, List.pairwise_singleton _ _, by
      intro other member single only equal
      rw [List.map_singleton, List.mem_singleton] at only
      rw [equal, only] at member
      exact present member⟩

theorem mem_set {entries : List (κ × α)} (distinct : Distinct entries) {key : κ} {value : α} {entry : κ × α} :
    entry ∈ set entries key value ↔ entry = (key, value) ∨ (entry ∈ entries ∧ entry.1 ≠ key) := by
  induction entries with
  | nil => simp [set]
  | cons first entries ih =>
    rcases List.nodup_cons.mp distinct with ⟨fresh, rest⟩
    rw [set]
    by_cases same : first.1 = key
    · have absent : ∀ e ∈ entries, e.1 ≠ key := by
        intro e member equal
        exact fresh (List.mem_map.mpr ⟨e, member, equal.trans same.symm⟩)
      rw [if_pos same, same, List.mem_cons, List.mem_cons]
      constructor
      · rintro (rfl | later)
        · exact Or.inl rfl
        · exact Or.inr ⟨Or.inr later, absent entry later⟩
      · rintro (rfl | ⟨rfl | later, other⟩)
        · exact Or.inl rfl
        · exact absurd same other
        · exact Or.inr later
    · rw [if_neg same, List.mem_cons, List.mem_cons, ih rest]
      constructor
      · rintro (rfl | rfl | ⟨later, other⟩)
        · exact Or.inr ⟨Or.inl rfl, same⟩
        · exact Or.inl rfl
        · exact Or.inr ⟨Or.inr later, other⟩
      · rintro (rfl | ⟨rfl | later, other⟩)
        · exact Or.inr (Or.inl rfl)
        · exact Or.inl rfl
        · exact Or.inr (Or.inr ⟨later, other⟩)

theorem filter_set_single {entries : List (κ × α)} (distinct : Distinct entries) {key : κ} {value : α} {p : κ × α → Bool}
    (held : p (key, value) = true) (others : ∀ entry ∈ entries, entry.1 ≠ key → p entry = false) :
    (set entries key value).filter p = [(key, value)] := by
  induction entries with
  | nil => rw [set, List.filter_cons_of_pos held, List.filter_nil]
  | cons first entries ih =>
    rcases List.nodup_cons.mp distinct with ⟨fresh, rest⟩
    have tail : ∀ entry ∈ entries, entry.1 ≠ key → p entry = false := fun entry member =>
      others entry (List.mem_cons_of_mem _ member)
    rw [set]
    by_cases same : first.1 = key
    · have none_ : entries.filter p = [] := by
        apply List.filter_eq_nil_iff.mpr
        intro entry member
        have other : entry.1 ≠ key := fun equal => fresh (List.mem_map.mpr ⟨entry, member, equal.trans same.symm⟩)
        rw [tail entry member other]
        decide
      rw [if_pos same, same, List.filter_cons_of_pos held, none_]
    · rw [if_neg same, List.filter_cons_of_neg (by rw [others first List.mem_cons_self same]; decide), ih rest tail]

theorem foldl_set_of_distinct (entries settings : List (κ × α)) (distinct : Distinct (entries ++ settings)) :
    settings.foldl (fun kept entry => set kept entry.1 entry.2) entries = entries ++ settings := by
  induction settings generalizing entries with
  | nil => simp
  | cons entry settings ih =>
    have absent : entry.1 ∉ entries.map (·.1) := by
      intro present
      unfold Distinct at distinct
      rw [List.map_append, List.map_cons] at distinct
      exact (List.nodup_append.mp distinct).2.2 _ present _ (List.mem_cons_self ..) rfl
    rw [List.foldl_cons, set_of_absent absent, ih, List.append_assoc, List.singleton_append]
    rw [List.append_assoc, List.singleton_append]
    exact distinct

theorem mem_firstKeys {keys : List κ} {key : κ} : key ∈ firstKeys keys ↔ key ∈ keys := by
  induction keys with
  | nil => simp [firstKeys]
  | cons first keys ih =>
    rw [firstKeys, List.mem_cons, List.mem_filter, List.mem_cons, ih]
    by_cases same : key = first <;> simp [same]

theorem firstKeys_append_single (keys : List κ) (key : κ) :
    firstKeys (keys ++ [key]) = if key ∈ keys then firstKeys keys else firstKeys keys ++ [key] := by
  induction keys with
  | nil => simp [firstKeys]
  | cons first keys ih =>
    rw [List.cons_append, firstKeys, ih, firstKeys]
    by_cases later : key ∈ keys
    · rw [if_pos later, if_pos (List.mem_cons_of_mem _ later)]
    · rw [if_neg later, List.filter_append]
      by_cases same : key = first
      · rw [if_pos (by simp [same])]
        simp [same]
      · rw [if_neg (by simp [same, later])]
        simp [same]

theorem firstKeys_nodup (keys : List κ) : (firstKeys keys).Nodup := by
  induction keys with
  | nil => exact List.nodup_nil
  | cons first keys ih =>
    rw [firstKeys, List.nodup_cons]
    exact ⟨by simp, ih.filter _⟩

omit [DecidableEq κ] in
theorem valued_append (front back : List κ) (value : κ → Option α) :
    valued (front ++ back) value = valued front value ++ valued back value :=
  List.filterMap_append

omit [DecidableEq κ] in
theorem valued_congr {keys : List κ} {value other : κ → Option α} (same : ∀ key ∈ keys, value key = other key) :
    valued keys value = valued keys other := by
  apply List.filterMap_congr
  intro key member
  rw [same key member]

omit [DecidableEq κ] in
theorem keys_valued_sublist (keys : List κ) (value : κ → Option α) : ((valued keys value).map (·.1)).Sublist keys := by
  induction keys with
  | nil => exact List.Sublist.refl _
  | cons key keys ih =>
    unfold valued at ih ⊢
    rw [List.filterMap_cons]
    cases value key with
    | none => exact ih.cons key
    | some _ => exact ih.cons_cons key

omit [DecidableEq κ] in
theorem keys_valued_subset (keys : List κ) (value : κ → Option α) : ∀ key ∈ (valued keys value).map (·.1), key ∈ keys :=
  fun _ member => (keys_valued_sublist keys value).subset member

theorem set_valued (keys : List κ) (distinct : keys.Nodup) (value : κ → Option α) {key : κ}
    (present : key ∈ keys) (given : (value key).isSome) (new : α) :
    set (valued keys value) key new = valued keys fun k => if key = k then some new else value k := by
  induction keys with
  | nil => cases present
  | cons first keys ih =>
    rcases List.nodup_cons.mp distinct with ⟨fresh, rest⟩
    rcases List.mem_cons.mp present with rfl | later
    · rcases Option.isSome_iff_exists.mp given with ⟨old, found⟩
      simp only [valued, List.filterMap_cons, found, Option.map_some, if_true, set]
      congr 1
      apply valued_congr
      intro k member
      have other : key ≠ k := by
        intro equal
        exact fresh (equal ▸ member)
      rw [if_neg other]
    · have other : key ≠ first := by
        intro equal
        exact fresh (equal ▸ later)
      simp only [valued, List.filterMap_cons, if_neg other]
      cases value first with
      | none => exact ih rest later
      | some v =>
        simp only [Option.map_some, set]
        rw [if_neg (fun equal => other equal.symm)]
        exact congrArg _ (ih rest later)

theorem distinct_collapse (settings : List (κ × α)) : Distinct (collapse settings) :=
  (firstKeys_nodup _).sublist (keys_valued_sublist _ _)

theorem mem_of_get? {entries : List (κ × α)} {key : κ} {value : α} (found : get? entries key = some value) :
    (key, value) ∈ entries := by
  rcases Option.map_eq_some_iff.mp found with ⟨entry, first, rfl⟩
  have same := List.find?_some first
  rw [decide_eq_true_eq] at same
  rw [← same]
  exact List.mem_of_find?_eq_some first

theorem mem_collapse {settings : List (κ × α)} {entry : κ × α} (member : entry ∈ collapse settings) : entry ∈ settings := by
  rcases List.mem_filterMap.mp member with ⟨key, _, given⟩
  rcases Option.map_eq_some_iff.mp given with ⟨value, found, rfl⟩
  exact List.mem_reverse.mp (mem_of_get? found)

omit [DecidableEq κ] in
theorem keys_valued {keys : List κ} {value : κ → Option α} (given : ∀ key ∈ keys, (value key).isSome) :
    (valued keys value).map (·.1) = keys := by
  induction keys with
  | nil => rfl
  | cons key keys ih =>
    rcases Option.isSome_iff_exists.mp (given key List.mem_cons_self) with ⟨v, found⟩
    have rest := ih fun other later => given other (List.mem_cons_of_mem _ later)
    unfold valued at rest ⊢
    rw [List.filterMap_cons, found, Option.map_some, List.map_cons, rest]

theorem get?_reverse_isSome {settings : List (κ × α)} {key : κ} (present : key ∈ settings.map (·.1)) :
    (get? settings.reverse key).isSome := by
  unfold get?
  rw [Option.isSome_map, List.find?_isSome]
  rcases List.mem_map.mp present with ⟨entry, member, same⟩
  exact ⟨entry, List.mem_reverse.mpr member, by simpa using same⟩

theorem foldl_set_eq_collapse (settings : List (κ × α)) :
    settings.foldl (fun kept entry => set kept entry.1 entry.2) [] = collapse settings := by
  induction settings using List.reverseRecOn with
  | nil => rfl
  | append_singleton settings entry ih =>
    have last : ∀ key, get? (settings ++ [entry]).reverse key =
        if entry.1 = key then some entry.2 else get? settings.reverse key := by
      intro key
      rw [List.reverse_append, List.reverse_singleton, List.singleton_append, get?_cons]
    have keys : (settings ++ [entry]).map (·.1) = settings.map (·.1) ++ [entry.1] := by
      rw [List.map_append, List.map_singleton]
    rw [List.foldl_append, ih, List.foldl_cons, List.foldl_nil]
    unfold collapse
    rw [keys, firstKeys_append_single, funext last]
    by_cases present : entry.1 ∈ settings.map (·.1)
    · rw [if_pos present]
      exact set_valued _ (firstKeys_nodup _) _ (mem_firstKeys.mpr present) (get?_reverse_isSome present) _
    · have absent : entry.1 ∉ (valued (firstKeys (settings.map (·.1))) (get? settings.reverse)).map (·.1) := by
        intro member
        exact present (mem_firstKeys.mp (keys_valued_subset _ _ _ member))
      have same : ∀ key ∈ firstKeys (settings.map (·.1)), get? settings.reverse key =
          if entry.1 = key then some entry.2 else get? settings.reverse key := by
        intro key member
        have other : entry.1 ≠ key := by
          intro equal
          exact present (equal ▸ mem_firstKeys.mp member)
        rw [if_neg other]
      rw [if_neg present, set_of_absent absent, valued_append, valued_congr same]
      simp [valued]

theorem keys_collapse (settings : List (κ × α)) :
    (collapse settings).map (·.1) = firstKeys (settings.map (·.1)) :=
  keys_valued fun _ member => get?_reverse_isSome (mem_firstKeys.mp member)

theorem get?_foldl_set (entries settings : List (κ × α)) (key : κ) :
    get? (settings.foldl (fun kept entry => set kept entry.1 entry.2) entries) key =
      (get? settings.reverse key).or (get? entries key) := by
  induction settings using List.reverseRecOn with
  | nil => rfl
  | append_singleton settings entry ih =>
    rw [List.foldl_append, List.foldl_cons, List.foldl_nil, get?_set, ih, List.reverse_append, List.reverse_singleton,
      List.singleton_append, get?_cons]
    by_cases same : entry.1 = key
    · rw [if_pos same.symm, if_pos same, Option.some_or]
    · rw [if_neg fun equal => same equal.symm, if_neg same]

theorem get?_collapse (settings : List (κ × α)) (key : κ) : get? (collapse settings) key = get? settings.reverse key := by
  rw [← foldl_set_eq_collapse, get?_foldl_set]
  exact Option.or_none

theorem collapse_of_distinct {settings : List (κ × α)} (distinct : Distinct settings) : collapse settings = settings := by
  rw [← foldl_set_eq_collapse]
  exact foldl_set_of_distinct [] settings distinct

/-! ## Two maps, key by key -/

/-- The two have the same keys, and what they have for a key is related. -/
def Related {β : Type} (r : α → β → Prop) (a : List (κ × α)) (b : List (κ × β)) : Prop :=
  ∀ key, Option.Rel r (get? a key) (get? b key)

theorem get?_isSome {entries : List (κ × α)} {key : κ} : (get? entries key).isSome ↔ key ∈ entries.map (·.1) := by
  constructor
  · intro some_
    rcases Option.isSome_iff_exists.mp some_ with ⟨value, found⟩
    exact List.mem_map.mpr ⟨(key, value), mem_of_get? found, rfl⟩
  · intro present
    by_contra none_
    rcases List.mem_map.mp present with ⟨entry, member, rfl⟩
    rw [get?, Option.not_isSome_iff_eq_none, Option.map_eq_none_iff, List.find?_eq_none] at none_
    exact none_ entry member (decide_eq_true rfl)

section Related

variable {β : Type} {r : α → β → Prop} {a : List (κ × α)} {b : List (κ × β)}

theorem Related.keys (related : Related r a b) {key : κ} : key ∈ a.map (·.1) ↔ key ∈ b.map (·.1) := by
  rw [← get?_isSome, ← get?_isSome]
  have here := related key
  revert here
  generalize get? a key = left
  generalize get? b key = right
  intro here
  cases here with
  | some _ => exact Iff.rfl
  | none => exact Iff.rfl

theorem related_iff (distinctA : Distinct a) (distinctB : Distinct b) :
    Related r a b ↔ a.length = b.length ∧ ∀ entry ∈ a, ∃ other, get? b entry.1 = some other ∧ r entry.2 other := by
  constructor
  · intro related
    constructor
    · have keys : (a.map (·.1)).Perm (b.map (·.1)) := (List.perm_ext_iff_of_nodup distinctA distinctB).mpr fun _ => related.keys
      simpa using keys.length_eq
    · intro entry member
      have here := related entry.1
      rw [get?_eq_some_of_mem distinctA member] at here
      generalize get? b entry.1 = right at here
      cases here with
      | some holds => exact ⟨_, rfl, holds⟩
  · rintro ⟨length, each⟩ key
    have subset : a.map (·.1) ⊆ b.map (·.1) := by
      intro key member
      rcases List.mem_map.mp member with ⟨entry, among, rfl⟩
      rcases each entry among with ⟨other, found, _⟩
      rw [← get?_isSome, found]
      rfl
    have keys : (a.map (·.1)).Perm (b.map (·.1)) :=
      (List.subperm_of_subset distinctA subset).perm_of_length_le (by simp [length])
    by_cases present : key ∈ a.map (·.1)
    · rcases List.mem_map.mp present with ⟨entry, member, rfl⟩
      rcases each entry member with ⟨other, found, holds⟩
      rw [get?_eq_some_of_mem distinctA member, found]
      exact .some holds
    · rw [get?_eq_none present, get?_eq_none fun there => present (keys.mem_iff.mpr there)]
      exact .none

theorem rel_symm {s : β → α → Prop} {x : Option α} {y : Option β} (related : Option.Rel r x y)
    (each : ∀ v, x = some v → ∀ w, y = some w → r v w → s w v) : Option.Rel s y x := by
  cases related with
  | some holds => exact .some (each _ rfl _ rfl holds)
  | none => exact .none

theorem rel_trans {γ : Type} {s : β → γ → Prop} {t : α → γ → Prop} {x : Option α} {y : Option β} {z : Option γ}
    (first : Option.Rel r x y) (second : Option.Rel s y z)
    (each : ∀ u, x = some u → ∀ v, y = some v → ∀ w, z = some w → r u v → s v w → t u w) : Option.Rel t x z := by
  cases first with
  | some here =>
    cases second with
    | some there => exact .some (each _ rfl _ rfl _ rfl here there)
  | none =>
    cases second with
    | none => exact .none

theorem Related.symm {s : β → α → Prop} (related : Related r a b) (each : ∀ x ∈ a, ∀ y ∈ b, r x.2 y.2 → s y.2 x.2) :
    Related s b a :=
  fun key => rel_symm (related key) fun _ left _ right holds => each _ (mem_of_get? left) _ (mem_of_get? right) holds

theorem Related.trans {γ : Type} {c : List (κ × γ)} {s : β → γ → Prop} {t : α → γ → Prop} (first : Related r a b)
    (second : Related s b c) (each : ∀ x ∈ a, ∀ y ∈ b, ∀ z ∈ c, r x.2 y.2 → s y.2 z.2 → t x.2 z.2) : Related t a c :=
  fun key => rel_trans (first key) (second key) fun _ left _ middle _ right here there =>
    each _ (mem_of_get? left) _ (mem_of_get? middle) _ (mem_of_get? right) here there

end Related

/-! ## Settings with the same keys -/

theorem keys_set (entries : List (κ × α)) (key : κ) (value : α) :
    (set entries key value).map (·.1) =
      if key ∈ entries.map (·.1) then entries.map (·.1) else entries.map (·.1) ++ [key] := by
  by_cases present : key ∈ entries.map (·.1)
  · rw [if_pos present, keys_set_of_present present]
  · rw [if_neg present, set_of_absent present, List.map_append]
    rfl

theorem keys_foldl_set {as bs : List (κ × α)} (keys : as.map (·.1) = bs.map (·.1)) {a b : List (κ × α)}
    (same : a.map (·.1) = b.map (·.1)) :
    (as.foldl (fun kept entry => set kept entry.1 entry.2) a).map (·.1) =
      (bs.foldl (fun kept entry => set kept entry.1 entry.2) b).map (·.1) := by
  induction as generalizing bs a b with
  | nil =>
    rw [List.map_eq_nil_iff.mp keys.symm]
    exact same
  | cons entry as ih =>
    cases bs with
    | nil => cases keys
    | cons other bs =>
      rcases List.cons.inj keys with ⟨head, tail⟩
      dsimp only at head
      apply ih tail
      rw [keys_set, keys_set, same, head]

theorem distinct_foldl_set (settings : List (κ × α)) {entries : List (κ × α)} (distinct : Distinct entries) :
    Distinct (settings.foldl (fun kept entry => set kept entry.1 entry.2) entries) := by
  induction settings generalizing entries with
  | nil => exact distinct
  | cons entry settings ih => exact ih (distinct_set distinct _ _)

theorem eq_of_get? {a b : List (κ × α)} (distinct : Distinct a) (keys : a.map (·.1) = b.map (·.1))
    (same : ∀ key, get? a key = get? b key) : a = b := by
  induction a generalizing b with
  | nil => exact (List.map_eq_nil_iff.mp keys.symm).symm
  | cons entry a ih =>
    cases b with
    | nil => cases keys
    | cons other b =>
      rcases List.cons.inj keys with ⟨head, tail⟩
      dsimp only at head
      rcases List.nodup_cons.mp distinct with ⟨apart, rest⟩
      have first := same entry.1
      rw [get?_cons, get?_cons, if_pos rfl, if_pos head.symm] at first
      have later : ∀ key, get? a key = get? b key := by
        intro key
        by_cases here : entry.1 = key
        · rw [get?_eq_none (here ▸ apart), get?_eq_none (by rw [← tail, ← here]; exact apart)]
        · have both := same key
          rw [get?_cons, get?_cons, if_neg here, if_neg (head ▸ here)] at both
          exact both
      rw [ih rest tail later, Prod.ext head (Option.some.inj first)]

theorem foldl_set_eq_iff {entries as bs : List (κ × α)} (distinct : Distinct entries) (keys : as.map (·.1) = bs.map (·.1)) :
    as.foldl (fun kept entry => set kept entry.1 entry.2) entries =
        bs.foldl (fun kept entry => set kept entry.1 entry.2) entries ↔
      ∀ key, get? as.reverse key = get? bs.reverse key := by
  constructor
  · intro same key
    have found := congrArg (get? · key) same
    rw [get?_foldl_set, get?_foldl_set] at found
    have both : (get? as.reverse key).isSome ↔ (get? bs.reverse key).isSome := by
      rw [get?_isSome, get?_isSome, List.map_reverse, List.map_reverse, keys]
    cases left : get? as.reverse key with
    | none =>
      rw [left] at both
      exact (Option.not_isSome_iff_eq_none.mp fun some_ => Bool.false_ne_true (both.mpr some_)).symm
    | some value =>
      rw [left] at both found
      rcases Option.isSome_iff_exists.mp (both.mp rfl) with ⟨other, right⟩
      rw [right] at found
      rw [right]
      exact found
  · intro last
    apply eq_of_get? (distinct_foldl_set as distinct) (keys_foldl_set keys rfl)
    intro key
    rw [get?_foldl_set, get?_foldl_set, last]

end OrderedMap
