import BlueBird.Persist.SqlitePool
import Mathlib.Data.List.Count

/-! The connections of a PostgreSQL store, lent to any number of holders. They are made outside the lock. -/

namespace BlueBird.Persist

open Borrowing (Exclusive)

/-- `pg_slot_t`; `Conn` is what `PQconnectdb` gives. -/
structure PgSlot (Conn : Type) where
  conn : Option Conn := none
  inUse : Bool := false
  deriving DecidableEq

/-- Where a caller is: outside, or with a slot of which the connection is still to be made, or looked at, or ready. -/
inductive PgCaller where
  | outside
  | connecting (slot : Nat)
  | checking (slot : Nat)
  | holding (slot : Nat)
  deriving DecidableEq

def PgCaller.slot : PgCaller → Option Nat
  | .outside => none
  | .connecting i | .checking i | .holding i => some i

/-- What a caller does between two other callers' turns: the part of `pool_acquire` under the lock, what comes after it,
    and `pool_release`. -/
inductive PgTurn (Holder Conn : Type) where
  | reserve (h : Holder)
  | connected (h : Holder) (conn : Option Conn)
  | checked (h : Holder) (usable : Bool)
  | release (h : Holder)

namespace PostgresPool

def maxConns : Nat := 8

variable {Conn Holder : Type} [DecidableEq Holder]

structure Lent (Holder Conn : Type) where
  slots : List (PgSlot Conn)
  caller : Holder → PgCaller

/-- `pg_open` with its first connection. -/
def pgOpen (conn : Conn) : Lent Holder Conn where
  slots := { conn := some conn } :: List.replicate (maxConns - 1) {}
  caller _ := .outside

/-- The loops of `pool_acquire`: an idle connection, else a slot without one; and whether one is to be made. -/
def pick (slots : List (PgSlot Conn)) : Option (Nat × Bool) :=
  match slots.findIdx? fun slot => slot.conn.isSome && !slot.inUse with
  | some i => some (i, false)
  | none => (slots.findIdx? fun slot => slot.conn.isNone && !slot.inUse).map fun i => (i, true)

def setInUse (slots : List (PgSlot Conn)) (i : Nat) (inUse : Bool) : List (PgSlot Conn) :=
  slots.modify i fun slot => { slot with inUse }

def Lent.become (s : Lent Holder Conn) (h : Holder) (caller : PgCaller) : Lent Holder Conn :=
  { s with caller := Function.update s.caller h caller }

/-- `pool_release` by the caller that has the slot. -/
def Lent.giveBack (s : Lent Holder Conn) (h : Holder) (i : Nat) : Lent Holder Conn :=
  { s with slots := setInUse s.slots i false }.become h .outside

/-- None where it is not the caller's turn to do this. With no slot to be had a caller waits. -/
def Lent.next (s : Lent Holder Conn) : PgTurn Holder Conn → Option (Lent Holder Conn)
  | .reserve h =>
    match s.caller h with
    | .outside =>
      match pick s.slots with
      | none => some s
      | some (i, false) => some ({ s with slots := setInUse s.slots i true }.become h (.checking i))
      | some (i, true) => some ({ s with slots := setInUse s.slots i true }.become h (.connecting i))
    | _ => none
  | .connected h conn =>
    match s.caller h with
    | .connecting i =>
      match conn with
      | none => some (s.giveBack h i)
      | some conn => some ({ s with slots := s.slots.modify i fun slot => { slot with conn := some conn } }.become h (.holding i))
    | _ => none
  | .checked h usable =>
    match s.caller h with
    | .checking i => some (if usable then s.become h (.holding i) else s.giveBack h i)
    | _ => none
  | .release h =>
    match s.caller h with
    | .holding i => some (s.giveBack h i)
    | _ => none

def opened (slots : List (PgSlot Conn)) : List Conn := slots.filterMap (·.conn)

/-- What is connected is not connected yet. -/
def Fresh (s : Lent Holder Conn) : PgTurn Holder Conn → Prop
  | .connected _ (some conn) => conn ∉ opened s.slots
  | _ => True

inductive Reachable (conn : Conn) : Lent Holder Conn → Prop where
  | opened : Reachable conn (pgOpen conn)
  | turn {s t : Lent Holder Conn} (before : Reachable conn s) {turn : PgTurn Holder Conn} (fresh : Fresh s turn)
      (next : s.next turn = some t) : Reachable conn t

def handed (s : Lent Holder Conn) (h : Holder) : Option Conn :=
  match s.caller h with
  | .holding i => (s.slots[i]?).bind (·.conn)
  | _ => none

def idle (slots : List (PgSlot Conn)) : List Conn := (slots.filter (!·.inUse)).filterMap (·.conn)

structure Safe (s : Lent Holder Conn) : Prop where
  exclusive : ∀ h h' conn, handed s h = some conn → handed s h' = some conn → h = h'
  bounded : (opened s.slots).length ≤ maxConns
  once : (idle s.slots).Nodup
  available : ∀ conn, conn ∈ idle s.slots ↔ ∃ i, (s.slots[i]?).bind (·.conn) = some conn ∧ ∀ h, (s.caller h).slot ≠ some i
  released : ∀ h conn, handed s h = some conn → conn ∉ idle s.slots ∧
    ∃ t, s.next (.release h) = some t ∧ conn ∈ idle t.slots
  failedOpen : ∀ h i, s.caller h = .connecting i →
    ∃ t, s.next (.connected h none) = some t ∧ t.slots[i]? = some {} ∧ ∀ k, (t.caller k).slot ≠ some i

/-! ## Slots -/

def connAt (slots : List (PgSlot Conn)) (i : Nat) : Option Conn := (slots[i]?).bind (·.conn)

def InUse (slots : List (PgSlot Conn)) (i : Nat) : Prop := ∃ slot, slots[i]? = some slot ∧ slot.inUse = true

theorem getElem?_modify_slot (slots : List (PgSlot Conn)) (i : Nat) (f : PgSlot Conn → PgSlot Conn) (j : Nat) :
    (slots.modify i f)[j]? = if i = j then (slots[j]?).map f else slots[j]? := by
  rw [List.getElem?_modify]
  by_cases same : i = j
  · rw [if_pos same]
    simp only [same, if_true]
    rfl
  · rw [if_neg same]
    simp only [same, if_false]
    exact Option.map_id'

theorem getElem?_setInUse (slots : List (PgSlot Conn)) (i : Nat) (inUse : Bool) (j : Nat) :
    (setInUse slots i inUse)[j]? = if i = j then (slots[j]?).map fun slot => { slot with inUse } else slots[j]? :=
  getElem?_modify_slot slots i _ j

theorem connAt_setInUse (slots : List (PgSlot Conn)) (i : Nat) (inUse : Bool) (j : Nat) :
    connAt (setInUse slots i inUse) j = connAt slots j := by
  unfold connAt
  rw [getElem?_setInUse]
  by_cases same : i = j
  · rw [if_pos same]
    cases slots[j]? <;> rfl
  · rw [if_neg same]

theorem inUse_set_true {slots : List (PgSlot Conn)} {i : Nat} {slot : PgSlot Conn} (here : slots[i]? = some slot) (j : Nat) :
    InUse (setInUse slots i true) j ↔ j = i ∨ InUse slots j := by
  unfold InUse
  rw [getElem?_setInUse]
  by_cases same : i = j
  · rw [if_pos same, ← same, here]
    exact iff_of_true ⟨_, rfl, rfl⟩ (Or.inl rfl)
  · rw [if_neg same]
    exact ⟨Or.inr, fun either => either.resolve_left fun equal => same equal.symm⟩

theorem inUse_set_false (slots : List (PgSlot Conn)) (i j : Nat) :
    InUse (setInUse slots i false) j ↔ j ≠ i ∧ InUse slots j := by
  unfold InUse
  rw [getElem?_setInUse]
  by_cases same : i = j
  · rw [if_pos same]
    refine iff_of_false ?_ fun both => both.1 same.symm
    intro ⟨slot, found, used⟩
    rcases Option.map_eq_some_iff.mp found with ⟨before, _, rfl⟩
    cases used
  · rw [if_neg same]
    exact ⟨fun used => ⟨fun equal => same equal.symm, used⟩, fun both => both.2⟩

theorem connAt_connected {slots : List (PgSlot Conn)} {i : Nat} {slot : PgSlot Conn} (here : slots[i]? = some slot) (conn : Conn)
    (j : Nat) : connAt (slots.modify i fun slot => { slot with conn := some conn }) j =
      if i = j then some conn else connAt slots j := by
  unfold connAt
  rw [getElem?_modify_slot]
  by_cases same : i = j
  · rw [if_pos same, if_pos same, ← same, here]
    rfl
  · rw [if_neg same, if_neg same]

theorem inUse_connected (slots : List (PgSlot Conn)) (i : Nat) (conn : Conn) (j : Nat) :
    InUse (slots.modify i fun slot => { slot with conn := some conn }) j ↔ InUse slots j := by
  unfold InUse
  rw [getElem?_modify_slot]
  by_cases same : i = j
  · rw [if_pos same]
    cases slots[j]? <;> simp
  · rw [if_neg same]

theorem pick_some {slots : List (PgSlot Conn)} {i : Nat} {connects : Bool} (picked : pick slots = some (i, connects)) :
    ∃ slot, slots[i]? = some slot ∧ slot.inUse = false ∧ (connects = true → slot.conn = none) := by
  unfold pick at picked
  cases ready : slots.findIdx? fun slot => slot.conn.isSome && !slot.inUse with
  | some k =>
    rw [ready] at picked
    cases picked
    rcases List.findIdx?_eq_some_iff_getElem.mp ready with ⟨inside, passes, _⟩
    rw [Bool.and_eq_true, Bool.not_eq_true'] at passes
    exact ⟨slots[i], List.getElem?_eq_getElem inside, passes.2, fun connects => by cases connects⟩
  | none =>
    rw [ready] at picked
    rcases Option.map_eq_some_iff.mp picked with ⟨k, empty, same⟩
    cases same
    rcases List.findIdx?_eq_some_iff_getElem.mp empty with ⟨inside, passes, _⟩
    rw [Bool.and_eq_true, Bool.not_eq_true'] at passes
    exact ⟨slots[i], List.getElem?_eq_getElem inside, passes.2, fun _ => Option.isNone_iff_eq_none.mp passes.1⟩

theorem mem_opened {slots : List (PgSlot Conn)} {conn : Conn} : conn ∈ opened slots ↔ ∃ i, connAt slots i = some conn := by
  unfold opened connAt
  rw [List.mem_filterMap]
  constructor
  · intro ⟨slot, inside, own⟩
    rcases List.mem_iff_getElem?.mp inside with ⟨i, here⟩
    exact ⟨i, by rw [here]; exact own⟩
  · intro ⟨i, own⟩
    rcases Option.bind_eq_some_iff.mp own with ⟨slot, here, conn_⟩
    exact ⟨slot, List.mem_of_getElem? here, conn_⟩

theorem mem_idle {slots : List (PgSlot Conn)} {conn : Conn} :
    conn ∈ idle slots ↔ ∃ i, connAt slots i = some conn ∧ ¬ InUse slots i := by
  unfold idle connAt InUse
  rw [List.mem_filterMap]
  constructor
  · intro ⟨slot, inside, own⟩
    rcases List.mem_filter.mp inside with ⟨listed, unused⟩
    rcases List.mem_iff_getElem?.mp listed with ⟨i, here⟩
    refine ⟨i, by rw [here]; exact own, ?_⟩
    intro ⟨other, found, used⟩
    rw [here] at found
    rw [Option.some.inj found, used] at unused
    cases unused
  · intro ⟨i, own, unused⟩
    rcases Option.bind_eq_some_iff.mp own with ⟨slot, here, conn_⟩
    refine ⟨slot, List.mem_filter.mpr ⟨List.mem_of_getElem? here, ?_⟩, conn_⟩
    cases used : slot.inUse with
    | false => rfl
    | true => exact absurd ⟨slot, here, used⟩ unused

/-! ## What every turn keeps -/

def slotOf (s : Lent Holder Conn) (h : Holder) : Option Nat := (s.caller h).slot

structure Keeps (s : Lent Holder Conn) : Prop where
  length : s.slots.length = maxConns
  unique : ∀ i j conn, connAt s.slots i = some conn → connAt s.slots j = some conn → i = j
  making : ∀ h i, s.caller h = .connecting i → connAt s.slots i = none
  exclusive : Exclusive (InUse s.slots) (slotOf s)

theorem slotOf_become (s : Lent Holder Conn) (h : Holder) (caller : PgCaller) :
    slotOf (s.become h caller) = Function.update (slotOf s) h caller.slot := by
  funext k
  show (Function.update s.caller h caller k).slot = _
  by_cases same : k = h
  · rw [same, Function.update_self, Function.update_self]
  · rw [Function.update_of_ne same, Function.update_of_ne same]
    rfl

omit [DecidableEq Holder] in
theorem slotOf_of {s : Lent Holder Conn} {h : Holder} {caller : PgCaller} (at_ : s.caller h = caller) : slotOf s h = caller.slot := by
  rw [slotOf, at_]

/-- Who is connecting after a step of `h`: the one who stepped, or one who was before. -/
theorem become_connecting {s : Lent Holder Conn} {h k : Holder} {caller : PgCaller} {j : Nat}
    (now : (s.become h caller).caller k = .connecting j) :
    caller = .connecting j ∨ k ≠ h ∧ s.caller k = .connecting j := by
  have now' : Function.update s.caller h caller k = .connecting j := now
  by_cases same : k = h
  · rw [same, Function.update_self] at now'
    exact Or.inl now'
  · rw [Function.update_of_ne same] at now'
    exact Or.inr ⟨same, now'⟩

theorem length_setInUse (slots : List (PgSlot Conn)) (i : Nat) (inUse : Bool) : (setInUse slots i inUse).length = slots.length :=
  List.length_modify _ _ _

theorem Keeps.giveBack {s : Lent Holder Conn} (keeps : Keeps s) {h : Holder} {i : Nat} (has : slotOf s h = some i) :
    Keeps (s.giveBack h i) where
  length := (length_setInUse s.slots i false).trans keeps.length
  unique := by
    intro j k conn first second
    have first' : connAt (setInUse s.slots i false) j = some conn := first
    have second' : connAt (setInUse s.slots i false) k = some conn := second
    rw [connAt_setInUse] at first' second'
    exact keeps.unique j k conn first' second'
  making := by
    intro k j connecting
    show connAt (setInUse s.slots i false) j = none
    rw [connAt_setInUse]
    rcases become_connecting connecting with outside | ⟨_, still⟩
    · cases outside
    · exact keeps.making k j still
  exclusive := by
    have callers : slotOf (s.giveBack h i) = Function.update (slotOf s) h none := slotOf_become _ h .outside
    rw [callers]
    exact keeps.exclusive.give has (inUse_set_false s.slots i)

theorem Keeps.reserve {s : Lent Holder Conn} (keeps : Keeps s) {h : Holder} (outside : s.caller h = .outside) {i : Nat}
    {connects : Bool} (picked : pick s.slots = some (i, connects)) :
    Keeps ({ s with slots := setInUse s.slots i true }.become h (if connects then .connecting i else .checking i)) := by
  rcases pick_some picked with ⟨slot, here, unused, empty⟩
  constructor
  · exact (length_setInUse s.slots i true).trans keeps.length
  · intro j k conn first second
    have first' : connAt (setInUse s.slots i true) j = some conn := first
    have second' : connAt (setInUse s.slots i true) k = some conn := second
    rw [connAt_setInUse] at first' second'
    exact keeps.unique j k conn first' second'
  · intro k j connecting
    show connAt (setInUse s.slots i true) j = none
    rw [connAt_setInUse]
    rcases become_connecting connecting with now | ⟨_, still⟩
    · cases connects with
      | false => cases now
      | true =>
        cases now
        unfold connAt
        rw [here]
        exact empty rfl
    · exact keeps.making k j still
  · have callers := slotOf_become { s with slots := setInUse s.slots i true } h (if connects then .connecting i else .checking i)
    have own : PgCaller.slot (if connects then .connecting i else .checking i) = some i := by
      cases connects <;> rfl
    rw [own] at callers
    rw [callers]
    apply keeps.exclusive.take (r := i)
    · intro ⟨other, found, used⟩
      rw [here] at found
      rw [← Option.some.inj found, unused] at used
      cases used
    · exact slotOf_of outside
    · exact inUse_set_true here

theorem Keeps.hold {s : Lent Holder Conn} (keeps : Keeps s) {h : Holder} {i : Nat} (has : slotOf s h = some i) :
    Keeps (s.become h (.holding i)) where
  length := keeps.length
  unique := keeps.unique
  making := by
    intro k j connecting
    rcases become_connecting connecting with now | ⟨_, still⟩
    · cases now
    · exact keeps.making k j still
  exclusive := by
    rw [slotOf_become]
    show Exclusive (InUse s.slots) (Function.update (slotOf s) h (some i))
    rw [← has, Function.update_eq_self]
    exact keeps.exclusive

theorem Keeps.connected {s : Lent Holder Conn} (keeps : Keeps s) {h : Holder} {i : Nat} (connecting : s.caller h = .connecting i)
    {conn : Conn} (fresh : conn ∉ opened s.slots) :
    Keeps ({ s with slots := s.slots.modify i fun slot => { slot with conn := some conn } }.become h (.holding i)) := by
  have has : slotOf s h = some i := slotOf_of connecting
  rcases (keeps.exclusive.owned i).mpr ⟨h, has⟩ with ⟨slot, here, used⟩
  have conns := connAt_connected here conn
  have new : ∀ j, connAt s.slots j ≠ some conn := fun j own => fresh (mem_opened.mpr ⟨j, own⟩)
  constructor
  · exact (List.length_modify _ _ _).trans keeps.length
  · intro j k other first second
    have first' : connAt (s.slots.modify i fun slot => { slot with conn := some conn }) j = some other := first
    have second' : connAt (s.slots.modify i fun slot => { slot with conn := some conn }) k = some other := second
    rw [conns] at first' second'
    by_cases atJ : i = j
    · rw [if_pos atJ] at first'
      by_cases atK : i = k
      · rw [← atJ, atK]
      · rw [if_neg atK, ← first'] at second'
        exact absurd second' (new k)
    · rw [if_neg atJ] at first'
      by_cases atK : i = k
      · rw [if_pos atK] at second'
        rw [← second'] at first'
        exact absurd first' (new j)
      · rw [if_neg atK] at second'
        exact keeps.unique j k other first' second'
  · intro k j now
    rcases become_connecting now with holding | ⟨differs, still⟩
    · cases holding
    · show connAt (s.slots.modify i fun slot => { slot with conn := some conn }) j = none
      have apart : i ≠ j := by
        rintro rfl
        exact differs (keeps.exclusive.single k h i (slotOf_of still) has)
      rw [conns, if_neg apart]
      exact keeps.making k j still
  · rw [slotOf_become]
    show Exclusive _ (Function.update (slotOf s) h (some i))
    rw [← has, Function.update_eq_self]
    constructor
    · intro r
      exact (inUse_connected s.slots i conn r).trans (keeps.exclusive.owned r)
    · exact keeps.exclusive.single

omit [DecidableEq Holder] in
theorem keeps_opened (conn : Conn) : Keeps (pgOpen conn : Lent Holder Conn) := by
  have later : ∀ i, connAt (List.replicate (maxConns - 1) ({} : PgSlot Conn)) i = none := by
    intro i
    unfold connAt
    rw [List.getElem?_replicate]
    split <;> rfl
  have first : ∀ i other, connAt (pgOpen conn : Lent Holder Conn).slots i = some other → i = 0 := by
    intro i other own
    cases i with
    | zero => rfl
    | succ i =>
      have none_ : connAt (List.replicate (maxConns - 1) ({} : PgSlot Conn)) i = some other := own
      rw [later] at none_
      cases none_
  constructor
  · rfl
  · intro i j other own own'
    rw [first i other own, first j other own']
  · intro h i connecting
    cases connecting
  · constructor
    · intro i
      constructor
      · intro ⟨slot, found, used⟩
        have listed : slot ∈ ({ conn := some conn } : PgSlot Conn) :: List.replicate (maxConns - 1) {} := List.mem_of_getElem? found
        rcases List.mem_cons.mp listed with rfl | rest
        · cases used
        · rw [List.eq_of_mem_replicate rest] at used
          cases used
      · intro ⟨h, has⟩
        cases has
    · intro h h' i has
      cases has

section Turns

variable {s t : Lent Holder Conn} {h : Holder}

theorem next_reserve (next : s.next (.reserve h) = some t) : s.caller h = .outside ∧ (t = s ∨ ∃ i connects,
    pick s.slots = some (i, connects) ∧
      t = { s with slots := setInUse s.slots i true }.become h (if connects then .connecting i else .checking i)) := by
  unfold Lent.next at next
  cases at_ : s.caller h with
  | outside =>
    simp only [at_] at next
    refine ⟨rfl, ?_⟩
    cases picked : pick s.slots with
    | none =>
      rw [picked] at next
      exact .inl (Option.some.inj next).symm
    | some found =>
      rcases found with ⟨i, connects⟩
      rw [picked] at next
      refine .inr ⟨i, connects, rfl, ?_⟩
      cases connects <;> exact (Option.some.inj next).symm
  | _ => simp only [at_, reduceCtorEq] at next

theorem next_connected {conn : Option Conn} (next : s.next (.connected h conn) = some t) : ∃ i, s.caller h = .connecting i ∧
    t = conn.elim (s.giveBack h i) fun conn =>
      { s with slots := s.slots.modify i fun slot => { slot with conn := some conn } }.become h (.holding i) := by
  unfold Lent.next at next
  cases at_ : s.caller h with
  | connecting i =>
    simp only [at_] at next
    refine ⟨i, rfl, ?_⟩
    cases conn <;> exact (Option.some.inj next).symm
  | _ => simp only [at_, reduceCtorEq] at next

theorem next_checked {usable : Bool} (next : s.next (.checked h usable) = some t) : ∃ i, s.caller h = .checking i ∧
    t = if usable then s.become h (.holding i) else s.giveBack h i := by
  unfold Lent.next at next
  cases at_ : s.caller h with
  | checking i =>
    simp only [at_] at next
    exact ⟨i, rfl, (Option.some.inj next).symm⟩
  | _ => simp only [at_, reduceCtorEq] at next

theorem next_release (next : s.next (.release h) = some t) : ∃ i, s.caller h = .holding i ∧ t = s.giveBack h i := by
  unfold Lent.next at next
  cases at_ : s.caller h with
  | holding i =>
    simp only [at_] at next
    exact ⟨i, rfl, (Option.some.inj next).symm⟩
  | _ => simp only [at_, reduceCtorEq] at next

end Turns

theorem Keeps.next {s t : Lent Holder Conn} (keeps : Keeps s) {turn : PgTurn Holder Conn} (fresh : Fresh s turn)
    (next : s.next turn = some t) : Keeps t := by
  cases turn with
  | reserve h =>
    rcases next_reserve next with ⟨outside, rfl | ⟨i, connects, picked, rfl⟩⟩
    · exact keeps
    · exact keeps.reserve outside picked
  | connected h conn =>
    rcases next_connected next with ⟨i, connecting, rfl⟩
    cases conn with
    | none => exact keeps.giveBack (slotOf_of connecting)
    | some conn => exact keeps.connected connecting fresh
  | checked h usable =>
    rcases next_checked next with ⟨i, checking, rfl⟩
    cases usable with
    | true => exact keeps.hold (slotOf_of checking)
    | false => exact keeps.giveBack (slotOf_of checking)
  | release h =>
    rcases next_release next with ⟨i, holding, rfl⟩
    exact keeps.giveBack (slotOf_of holding)

theorem Reachable.keeps {conn : Conn} {s : Lent Holder Conn} (reachable : Reachable conn s) : Keeps s := by
  induction reachable with
  | opened => exact keeps_opened conn
  | turn before fresh next ih => exact ih.next fresh next

/-! ## The law -/

omit [DecidableEq Holder] in
theorem nodup_opened {s : Lent Holder Conn} (keeps : Keeps s) : (opened s.slots).Nodup := by
  unfold opened List.Nodup
  rw [List.pairwise_filterMap, List.pairwise_iff_getElem]
  intro i j insideI insideJ before conn own other own' same
  have atI : connAt s.slots i = some conn := by
    unfold connAt
    rw [List.getElem?_eq_getElem insideI]
    exact own
  have atJ : connAt s.slots j = some conn := by
    unfold connAt
    rw [List.getElem?_eq_getElem insideJ, same]
    exact own'
  have equal := keeps.unique i j conn atI atJ
  omega

omit [DecidableEq Holder] in
theorem handed_eq {s : Lent Holder Conn} {h : Holder} {conn : Conn} (has : handed s h = some conn) :
    ∃ i, s.caller h = .holding i ∧ connAt s.slots i = some conn := by
  unfold handed at has
  cases at_ : s.caller h with
  | holding i =>
    simp only [at_] at has
    exact ⟨i, rfl, has⟩
  | outside => simp only [at_, reduceCtorEq] at has
  | connecting i => simp only [at_, reduceCtorEq] at has
  | checking i => simp only [at_, reduceCtorEq] at has

theorem Keeps.safe {s : Lent Holder Conn} (keeps : Keeps s) : Safe s where
  exclusive := by
    intro h h' conn has has'
    rcases handed_eq has with ⟨i, holds, own⟩
    rcases handed_eq has' with ⟨j, holds', own'⟩
    rw [← keeps.unique i j conn own own'] at holds'
    exact keeps.exclusive.single h h' i (slotOf_of holds) (slotOf_of holds')
  bounded := by
    rw [← keeps.length]
    exact List.length_filterMap_le _ _
  once := (nodup_opened keeps).sublist (List.filter_sublist.filterMap _)
  available := by
    intro conn
    rw [mem_idle]
    constructor
    · intro ⟨i, own, unused⟩
      refine ⟨i, own, ?_⟩
      intro h has
      exact unused ((keeps.exclusive.owned i).mpr ⟨h, has⟩)
    · intro ⟨i, own, nobody⟩
      refine ⟨i, own, ?_⟩
      intro used
      rcases (keeps.exclusive.owned i).mp used with ⟨h, has⟩
      exact nobody h has
  released := by
    intro h conn has
    rcases handed_eq has with ⟨i, holds, own⟩
    have slot : slotOf s h = some i := slotOf_of holds
    constructor
    · intro unused
      rcases mem_idle.mp unused with ⟨j, own', free⟩
      rw [← keeps.unique i j conn own own'] at free
      exact free ((keeps.exclusive.owned i).mpr ⟨h, slot⟩)
    · refine ⟨s.giveBack h i, ?_, ?_⟩
      · unfold Lent.next
        simp only [holds]
      · apply mem_idle.mpr
        refine ⟨i, ?_, ?_⟩
        · show connAt (setInUse s.slots i false) i = some conn
          rw [connAt_setInUse]
          exact own
        · show ¬ InUse (setInUse s.slots i false) i
          rw [inUse_set_false]
          exact fun both => both.1 rfl
  failedOpen := by
    intro h i connecting
    have slot : slotOf s h = some i := slotOf_of connecting
    rcases (keeps.exclusive.owned i).mpr ⟨h, slot⟩ with ⟨own, here, used⟩
    have empty : own.conn = none := by
      have making := keeps.making h i connecting
      unfold connAt at making
      rw [here] at making
      exact making
    refine ⟨s.giveBack h i, ?_, ?_, ?_⟩
    · unfold Lent.next
      simp only [connecting]
    · show (setInUse s.slots i false)[i]? = _
      rw [getElem?_setInUse, if_pos rfl, here]
      rcases own with ⟨conn, inUse⟩
      cases empty
      rfl
    · intro k has
      have callers : slotOf (s.giveBack h i) = Function.update (slotOf s) h none := slotOf_become _ h .outside
      have now : slotOf (s.giveBack h i) k = some i := has
      rw [callers] at now
      by_cases same : k = h
      · rw [same, Function.update_self] at now
        cases now
      · rw [Function.update_of_ne same] at now
        exact same (keeps.exclusive.single k h i now slot)

end PostgresPool

def openedPool : SqlitePool.Lent Nat Nat where
  pool := SqlitePool.sqliteOpen (ascii "a.db") 0
  held _ := none

end BlueBird.Persist
