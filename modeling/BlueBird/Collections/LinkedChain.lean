import Mathlib.Algebra.Ring.Nat
import Mathlib.Data.List.Nodup
import Mathlib.Data.List.Perm.Basic

/-! Linked lists, by what each live cell refers to. -/

namespace LinkedChain

variable {ρ : Type} {next next' : ρ → Option (Option ρ)}

/-- Each cell is live and refers to the one that follows it, the last to none. -/
def Linked (next : ρ → Option (Option ρ)) : List ρ → Prop
  | [] => True
  | r :: rs => next r = some rs.head? ∧ Linked next rs

/-- The cells from one reference on; none when the walk meets a cell that is not live, or runs out of fuel. -/
def walk (next : ρ → Option (Option ρ)) : Nat → Option ρ → Option (List ρ)
  | 0, _ => none
  | _ + 1, none => some []
  | fuel + 1, some r => (next r).bind fun after => (walk next fuel after).map (r :: ·)

theorem walk_linked {rs : List ρ} (linked : Linked next rs) {fuel : Nat} (enough : rs.length < fuel) :
    walk next fuel rs.head? = some rs := by
  induction rs generalizing fuel with
  | nil =>
    cases fuel with
    | zero => cases enough
    | succ fuel => rfl
  | cons r rs ih =>
    cases fuel with
    | zero => cases enough
    | succ fuel =>
      rcases linked with ⟨here, rest⟩
      show (next r).bind _ = _
      rw [here, Option.bind_some, ih rest (Nat.lt_of_succ_lt_succ enough)]
      rfl

theorem Linked.congr {rs : List ρ} (linked : Linked next rs) (same : ∀ r ∈ rs, next' r = next r) : Linked next' rs := by
  induction rs with
  | nil => exact True.intro
  | cons r rs ih =>
    rcases linked with ⟨here, rest⟩
    exact ⟨(same r List.mem_cons_self).trans here, ih rest fun s member => same s (List.mem_cons_of_mem _ member)⟩

theorem Linked.suffix {front back : List ρ} (linked : Linked next (front ++ back)) : Linked next back := by
  induction front with
  | nil => exact linked
  | cons r front ih => exact ih linked.2

theorem Linked.after {front back : List ρ} {r : ρ} (linked : Linked next (front ++ r :: back)) : next r = some back.head? :=
  linked.suffix.1

theorem Linked.live {rs : List ρ} (linked : Linked next rs) {r : ρ} (member : r ∈ rs) : ∃ after, next r = some after := by
  rcases List.append_of_mem member with ⟨front, back, split⟩
  rw [split] at linked
  exact ⟨_, linked.after⟩

theorem getLast?_cons_ne {r : ρ} {rs : List ρ} (fresh : r ∉ rs) (nonempty : rs ≠ []) : (r :: rs).getLast? ≠ some r := by
  rw [List.getLast?_cons_of_ne_nil nonempty]
  intro last
  exact fresh (List.mem_of_getLast? last)

theorem Linked.splice {front back back' : List ρ} (linked : Linked next (front ++ back)) (once : front.Nodup)
    (same : ∀ r ∈ front, front.getLast? ≠ some r → next' r = next r)
    (last : ∀ r, front.getLast? = some r → next' r = some back'.head?) (tail : Linked next' back') :
    Linked next' (front ++ back') := by
  induction front with
  | nil => exact tail
  | cons r front ih =>
    rcases List.nodup_cons.mp once with ⟨fresh, once⟩
    rcases linked with ⟨here, rest⟩
    by_cases final : front = []
    · rw [final] at last ⊢
      exact ⟨last r rfl, tail⟩
    · have further : (r :: front).getLast? = front.getLast? := List.getLast?_cons_of_ne_nil final
      have unchanged : next' r = next r := same r List.mem_cons_self (getLast?_cons_ne fresh final)
      have nearest : (front ++ back').head? = (front ++ back).head? := by
        cases front with
        | nil => exact absurd rfl final
        | cons s front => rfl
      have later : Linked next' (front ++ back') := by
        refine ih rest once ?_ ?_
        · intro s member notLast
          exact same s (List.mem_cons_of_mem _ member) (by rw [further]; exact notLast)
        · intro s isLast
          exact last s (by rw [further]; exact isLast)
      refine ⟨?_, later⟩
      show next' r = some (front ++ back').head?
      rw [unchanged, nearest]
      exact here

theorem Linked.without {front back : List ρ} {r : ρ} [DecidableEq ρ] (linked : Linked next (front ++ r :: back))
    (once : (front ++ r :: back).Nodup)
    (told : ∀ c, c ≠ r → next' c = if front.getLast? = some c then some back.head? else next c) : Linked next' (front ++ back) := by
  rcases List.nodup_cons.mp (List.perm_middle.nodup_iff.mp once) with ⟨elsewhere, rest⟩
  rw [List.mem_append, not_or] at elsewhere
  have other : ∀ {c}, c ∈ front → c ≠ r := fun member same => elsewhere.1 (same ▸ member)
  refine Linked.splice linked (List.Nodup.of_append_left rest) ?_ ?_ ?_
  · intro c member notLast
    rw [told c (other member), if_neg notLast]
  · intro c last
    rw [told c (other (List.mem_of_getLast? last)), if_pos last]
  · refine linked.suffix.2.congr ?_
    intro c member
    have behind : c ≠ r := fun same => elsewhere.2 (same ▸ member)
    have notLast : front.getLast? ≠ some c :=
      fun last => (List.nodup_append.mp rest).2.2 c (List.mem_of_getLast? last) c member rfl
    rw [told c behind, if_neg notLast]

/-! ### Lists of lists, one of which is exchanged -/

theorem flatten_set_perm {lists : List (List ρ)} {i : Nat} {old new : List ρ} (found : lists[i]? = some old) :
    ((lists.set i new).flatten ++ old).Perm (new ++ lists.flatten) := by
  induction lists generalizing i with
  | nil => cases found
  | cons first lists ih =>
    cases i with
    | zero =>
      cases found
      show ((new ++ lists.flatten) ++ old).Perm (new ++ (old ++ lists.flatten))
      rw [List.append_assoc]
      exact List.perm_append_comm.append_left new
    | succ i =>
      have rest := ih (List.getElem?_cons_succ ▸ found)
      calc ((first ++ (lists.set i new).flatten) ++ old).Perm (first ++ ((lists.set i new).flatten ++ old)) := by
            rw [List.append_assoc]
        _ |>.Perm (first ++ (new ++ lists.flatten)) := rest.append_left first
        _ |>.Perm (new ++ (first ++ lists.flatten)) := by
            rw [← List.append_assoc, ← List.append_assoc]
            exact List.perm_append_comm.append_right _

theorem flatten_set_cons {lists : List (List ρ)} {i : Nat} {old : List ρ} (found : lists[i]? = some old) (r : ρ) :
    (lists.set i (r :: old)).flatten.Perm (r :: lists.flatten) :=
  (List.perm_append_right_iff old).mp ((flatten_set_perm found).trans (List.perm_append_comm.cons r))

theorem flatten_set_without {lists : List (List ρ)} {i : Nat} {front back : List ρ} {r : ρ}
    (found : lists[i]? = some (front ++ r :: back)) : lists.flatten.Perm (r :: (lists.set i (front ++ back)).flatten) := by
  have exchanged := @flatten_set_perm _ lists i _ (front ++ back) found
  apply (List.perm_append_left_iff (front ++ back)).mp
  calc ((front ++ back) ++ lists.flatten).Perm ((lists.set i (front ++ back)).flatten ++ (front ++ r :: back)) := exchanged.symm
    _ |>.Perm ((front ++ r :: back) ++ (lists.set i (front ++ back)).flatten) := List.perm_append_comm
    _ |>.Perm ((r :: (front ++ back)) ++ (lists.set i (front ++ back)).flatten) := List.perm_middle.append_right _
    _ |>.Perm ((front ++ back) ++ (r :: (lists.set i (front ++ back)).flatten)) := List.perm_middle.symm

theorem forall_mem_set {P : List ρ → Prop} {lists : List (List ρ)} {i : Nat} {new : List ρ} (holds : ∀ c ∈ lists, P c) (there : P new) :
    ∀ c ∈ lists.set i new, P c := by
  intro c member
  rcases List.mem_or_eq_of_mem_set member with old | same
  · exact holds c old
  · rw [same]
    exact there

theorem forall_getElem?_set {P : Nat → List ρ → Prop} {lists : List (List ρ)} {i : Nat} {new : List ρ}
    (holds : ∀ j c, lists[j]? = some c → P j c) (there : P i new) : ∀ j c, (lists.set i new)[j]? = some c → P j c := by
  intro j c found
  by_cases same : i = j
  · rw [← same, List.getElem?_set_self'] at found
    cases old : lists[i]? with
    | none =>
      rw [old] at found
      cases found
    | some was =>
      rw [old] at found
      cases found
      rw [← same]
      exact there
  · rw [List.getElem?_set_ne same] at found
    exact holds j c found

end LinkedChain
