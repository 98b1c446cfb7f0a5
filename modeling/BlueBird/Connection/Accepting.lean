import BlueBird.Program.Runs
import Mathlib.Data.List.Nodup
import Mathlib.Data.List.Perm.Subperm

/-! Accepting connections when descriptors run out: the descriptor held in reserve keeps the backlog moving. -/

namespace BlueBird.Net

open Runs (run Along)

inductive Use where
  | spare
  | client (peer : Nat)
  | other
  deriving DecidableEq, Repr

/-- The process as far as accepting goes: its descriptors, who waits to be accepted, and `_bb_connection_spare_fd`.
    In `answered` is everyone who was taken from the backlog, with whether a connection was made. -/
structure Listener where
  limit : Nat
  table : List (Nat × Use) := []
  backlog : List Nat := []
  spareFd : Option Nat := none
  answered : List (Nat × Bool) := []
  deriving DecidableEq, Repr

/-- What the calls of one `bb_connection_accept` come to: whether the file for the spare descriptor can be opened, before and
    after, whether the socket can be set to nonblocking, and whether there is memory for the connection. -/
structure AcceptCall where
  opens : Bool := true
  nonblocking : Bool := true
  memory : Bool := true
  reopens : Bool := true
  deriving DecidableEq, Repr

namespace Listener

/-! ## The kernel -/

def full (s : Listener) : Bool := s.limit ≤ s.table.length

/-- A new descriptor has the lowest number that is free. -/
def lowestFree (s : Listener) : Nat :=
  ((List.range (s.table.length + 1)).find? fun fd => fd ∉ s.table.map Prod.fst).getD 0

def opened (s : Listener) (use : Use) : Listener := { s with table := (s.lowestFree, use) :: s.table }

def close (s : Listener) (fd : Nat) : Listener := { s with table := s.table.filter fun entry => entry.1 ≠ fd }

/-- `accept`. The table is looked at before the backlog. -/
inductive Accepted where
  | exhausted
  | nothing
  | taken (fd peer : Nat) (s : Listener)

def sysAccept (s : Listener) : Accepted :=
  if s.full then .exhausted
  else match s.backlog with
    | [] => .nothing
    | peer :: rest => .taken s.lowestFree peer { s.opened (.client peer) with backlog := rest }

/-! ## The functions of `connection.c` -/

/-- `_bb_connection_spare_fd_open`, with its result stored -/
def openSpare (s : Listener) (opens : Bool) : Listener :=
  if opens && !s.full then { s.opened .spare with spareFd := some s.lowestFree } else { s with spareFd := none }

/-- `_bb_connection_ensure_spare_fd` -/
def ensureSpareFd (s : Listener) (opens : Bool) : Listener := if s.spareFd = none then s.openSpare opens else s

def answer (s : Listener) (peer : Nat) (served : Bool) : Listener := { s with answered := s.answered ++ [(peer, served)] }

/-- `_bb_connection_reject_pending` -/
def rejectPending (s : Listener) (reopens : Bool) : Listener :=
  match s.spareFd with
  | none => s
  | some spare =>
    let s := { s.close spare with spareFd := none }
    let s := match s.sysAccept with
      | .taken fd peer s => (s.close fd).answer peer false
      | _ => s
    s.openSpare reopens

/-- `bb_connection_accept` -/
def accept (s : Listener) (call : AcceptCall) : Listener :=
  let s := s.ensureSpareFd call.opens
  match s.sysAccept with
  | .taken fd peer s => if call.nonblocking && call.memory then s.answer peer true else (s.close fd).answer peer false
  | .exhausted => s.rejectPending call.reopens
  | .nothing => s

/-! ## Runs -/

/-- What happens to the process. Descriptors that are not for accepting come and go with the rest of the program, and a
    connection is closed when it is done. -/
inductive Action where
  | arrive (peer : Nat)
  | openOther
  | closeOther (fd : Nat)
  | hangUp (fd peer : Nat)
  | accept (call : AcceptCall)
  deriving DecidableEq, Repr

def step (s : Listener) : Action → Option Listener
  | .arrive peer => some { s with backlog := s.backlog ++ [peer] }
  | .openOther => if s.full then none else some (s.opened .other)
  | .closeOther fd => if (fd, Use.other) ∈ s.table then some (s.close fd) else none
  | .hangUp fd peer => if (fd, Use.client peer) ∈ s.table then some (s.close fd) else none
  | .accept call => some (s.accept call)

def start (limit : Nat) : Listener := { limit }

def arrivals (actions : List Action) : List Nat :=
  actions.filterMap fun
    | .arrive peer => some peer
    | _ => none

/-- The descriptors are told apart, within the limit, and the only spare one is the one that is known. -/
structure Accounted (s : Listener) : Prop where
  unique : (s.table.map Prod.fst).Nodup
  room : s.table.length ≤ s.limit
  spare : ∀ fd, (fd, Use.spare) ∈ s.table ↔ s.spareFd = some fd
  clients : ∀ fd peer, (fd, Use.client peer) ∈ s.table → (peer, true) ∈ s.answered

/-- The file for the spare descriptor can be opened whenever a descriptor is free. -/
def Opens (_ : Listener) : Action → Prop
  | .accept call => call.opens = true ∧ call.reopens = true
  | _ => True

instance (s : Listener) : (action : Action) → Decidable (Opens s action)
  | .accept call => inferInstanceAs (Decidable (call.opens = true ∧ call.reopens = true))
  | .arrive _ => inferInstanceAs (Decidable True)
  | .openOther => inferInstanceAs (Decidable True)
  | .closeOther _ => inferInstanceAs (Decidable True)
  | .hangUp _ _ => inferInstanceAs (Decidable True)

/-! ## Descriptors -/

theorem lowestFree_fresh (s : Listener) : s.lowestFree ∉ s.table.map Prod.fst := by
  unfold lowestFree
  cases found : (List.range (s.table.length + 1)).find? fun fd => fd ∉ s.table.map Prod.fst with
  | some fd => simpa using List.find?_some found
  | none =>
    have taken : List.range (s.table.length + 1) ⊆ s.table.map Prod.fst := by
      intro fd member
      simpa using List.find?_eq_none.mp found fd member
    have fewer := (List.subperm_of_subset List.nodup_range taken).length_le
    rw [List.length_range, List.length_map] at fewer
    omega

theorem mem_close (s : Listener) (fd : Nat) (entry : Nat × Use) : entry ∈ (s.close fd).table ↔ entry ∈ s.table ∧ entry.1 ≠ fd := by
  unfold close
  rw [List.mem_filter, decide_eq_true_eq]

theorem unique_opened {s : Listener} (unique : (s.table.map Prod.fst).Nodup) (use : Use) :
    ((s.opened use).table.map Prod.fst).Nodup :=
  List.nodup_cons.mpr ⟨s.lowestFree_fresh, unique⟩

theorem unique_close {s : Listener} (unique : (s.table.map Prod.fst).Nodup) (fd : Nat) : ((s.close fd).table.map Prod.fst).Nodup :=
  unique.sublist (List.filter_sublist.map _)

theorem close_opened (s : Listener) (use : Use) : ((s.opened use).close s.lowestFree).table = s.table := by
  unfold close opened
  dsimp only
  rw [List.filter_cons_of_neg (by simp), List.filter_eq_self]
  intro entry member
  apply decide_eq_true
  rintro same
  exact s.lowestFree_fresh (same ▸ List.mem_map_of_mem member)

theorem length_close {s : Listener} (unique : (s.table.map Prod.fst).Nodup) {fd : Nat} {use : Use} (member : (fd, use) ∈ s.table) :
    (s.close fd).table.length + 1 = s.table.length := by
  unfold close
  dsimp only
  generalize s.table = table at unique member
  induction table with
  | nil => cases member
  | cons entry table ih =>
    rw [List.map_cons, List.nodup_cons] at unique
    rcases List.mem_cons.mp member with rfl | later
    · have others : table.filter (fun entry => entry.1 ≠ fd) = table := by
        rw [List.filter_eq_self]
        intro entry inside
        apply decide_eq_true
        rintro rfl
        exact unique.1 (List.mem_map.mpr ⟨_, inside, rfl⟩)
      rw [List.filter_cons_of_neg (by simp), others]
      rfl
    · have apart : entry.1 ≠ fd := by
        rintro rfl
        exact unique.1 (List.mem_map.mpr ⟨_, later, rfl⟩)
      rw [List.filter_cons_of_pos (by simpa using apart), List.length_cons, ih unique.2 later]
      rfl

/-! ## One call -/

theorem accounted_of_same {s t : Listener} (accounted : s.Accounted) (limit : t.limit = s.limit) (table : t.table = s.table)
    (spareFd : t.spareFd = s.spareFd) (answered : s.answered ⊆ t.answered) : t.Accounted := by
  rcases accounted with ⟨unique, room, spare, clients⟩
  refine ⟨by rw [table]; exact unique, by rw [table, limit]; exact room, ?_, ?_⟩
  · intro fd
    rw [table, spareFd]
    exact spare fd
  · intro fd peer member
    rw [table] at member
    exact answered (clients fd peer member)

theorem not_full {s : Listener} : s.full = false ↔ s.table.length < s.limit := by
  unfold full
  rw [decide_eq_false_iff_not, Nat.not_le]

theorem openSpare_frame (s : Listener) (opens : Bool) : (s.openSpare opens).backlog = s.backlog ∧
    (s.openSpare opens).answered = s.answered ∧ (s.openSpare opens).spareFd.isSome = (opens && !s.full) := by
  unfold openSpare
  cases opens && !s.full with
  | false => exact ⟨rfl, rfl, rfl⟩
  | true => exact ⟨rfl, rfl, rfl⟩

theorem openSpare_accounted {s : Listener} (accounted : s.Accounted) (none_ : s.spareFd = none) (opens : Bool) :
    (s.openSpare opens).Accounted := by
  rcases accounted with ⟨unique, room, spare, clients⟩
  unfold openSpare
  by_cases works : (opens && !s.full) = true
  · rw [if_pos works]
    rw [Bool.and_eq_true, Bool.not_eq_true'] at works
    refine ⟨unique_opened unique .spare, not_full.mp works.2, ?_, ?_⟩
    · intro fd
      have old : (fd, Use.spare) ∉ s.table := by
        rw [spare, none_]
        exact nofun
      show (fd, Use.spare) ∈ (s.lowestFree, Use.spare) :: s.table ↔ some s.lowestFree = some fd
      simp [old, eq_comm]
    · intro fd peer member
      rcases List.mem_cons.mp member with new | old
      · cases new
      · exact clients fd peer old
  · rw [if_neg works]
    exact accounted_of_same ⟨unique, room, spare, clients⟩ rfl rfl none_.symm (List.Subset.refl _)

theorem ensureSpareFd_frame (s : Listener) (opens : Bool) : (s.ensureSpareFd opens).backlog = s.backlog ∧
    (s.ensureSpareFd opens).answered = s.answered ∧
      (s.ensureSpareFd opens).spareFd.isSome = (s.spareFd.isSome || (opens && !s.full)) := by
  unfold ensureSpareFd
  cases known : s.spareFd with
  | none =>
    rw [if_pos rfl]
    exact s.openSpare_frame opens
  | some fd =>
    rw [if_neg nofun]
    exact ⟨rfl, rfl, by rw [known]; rfl⟩

theorem ensureSpareFd_accounted {s : Listener} (accounted : s.Accounted) (opens : Bool) : (s.ensureSpareFd opens).Accounted := by
  unfold ensureSpareFd
  split
  · rename_i none_
    exact openSpare_accounted accounted none_ opens
  · exact accounted

theorem rejectPending_spec {s : Listener} (accounted : s.Accounted) {spare : Nat} (held : s.spareFd = some spare) (reopens : Bool) :
    (s.rejectPending reopens).Accounted ∧ (s.rejectPending reopens).spareFd.isSome = reopens ∧
      (s.rejectPending reopens).answered = s.answered ++ (s.backlog.take 1).map (·, false) ∧
        (s.rejectPending reopens).backlog = s.backlog.tail := by
  let freed : Listener := { s.close spare with spareFd := none }
  have shorter := length_close accounted.unique ((accounted.spare spare).mpr held)
  have freedAccounted : freed.Accounted := by
    refine ⟨unique_close accounted.unique spare, ?_, ?_, ?_⟩
    · have room := accounted.room
      show (s.close spare).table.length ≤ s.limit
      omega
    · intro fd
      show (fd, Use.spare) ∈ (s.close spare).table ↔ none = some fd
      rw [mem_close, accounted.spare, held]
      constructor
      · rintro ⟨same, other⟩
        exact absurd (Option.some.inj same).symm other
      · intro wrong
        cases wrong
    · intro fd peer member
      exact accounted.clients fd peer ((mem_close s spare _).mp member).1
  have open_ : freed.full = false := by
    have room := accounted.room
    rw [not_full]
    show (s.close spare).table.length < s.limit
    omega
  have next : s.rejectPending reopens = (match freed.sysAccept with
      | .taken fd peer s => (s.close fd).answer peer false
      | _ => freed).openSpare reopens := by
    unfold rejectPending
    rw [held]
  cases waiting : s.backlog with
  | nil =>
    have nothing : freed.sysAccept = .nothing := by
      unfold sysAccept
      rw [open_, if_neg Bool.false_ne_true]
      show (match s.backlog with | [] => Accepted.nothing | peer :: rest => _) = _
      rw [waiting]
    rw [nothing] at next
    have frame := freed.openSpare_frame reopens
    rw [next]
    refine ⟨openSpare_accounted freedAccounted rfl reopens, ?_, ?_, ?_⟩
    · rw [frame.2.2, open_, Bool.not_false, Bool.and_true]
    · rw [frame.2.1]
      exact (List.append_nil _).symm
    · rw [frame.1]
      exact waiting
  | cons peer rest =>
    have taken : freed.sysAccept = .taken freed.lowestFree peer { freed.opened (.client peer) with backlog := rest } := by
      unfold sysAccept
      rw [open_, if_neg Bool.false_ne_true]
      show (match s.backlog with | [] => Accepted.nothing | peer :: rest => _) = _
      rw [waiting]
    rw [taken] at next
    let closed : Listener := ({ freed.opened (.client peer) with backlog := rest }.close freed.lowestFree).answer peer false
    have table : closed.table = freed.table := close_opened freed (.client peer)
    have closedAccounted : closed.Accounted :=
      accounted_of_same freedAccounted rfl table rfl (List.subset_append_left _ _)
    have stillOpen : closed.full = false := by
      rw [not_full, table]
      exact not_full.mp open_
    have frame := closed.openSpare_frame reopens
    rw [next]
    refine ⟨openSpare_accounted closedAccounted rfl reopens, ?_, ?_, ?_⟩
    · show (closed.openSpare reopens).spareFd.isSome = reopens
      rw [frame.2.2, stillOpen, Bool.not_false, Bool.and_true]
    · exact frame.2.1
    · exact frame.1

theorem accept_spec {s : Listener} (accounted : s.Accounted) (call : AcceptCall) :
    (s.accept call).Accounted ∧
      (((s.ensureSpareFd call.opens).full = false ∨ (s.ensureSpareFd call.opens).spareFd.isSome = true) →
        (s.accept call).backlog = s.backlog.tail ∧ (s.accept call).answered = s.answered ++
          (s.backlog.take 1).map (·, !(s.ensureSpareFd call.opens).full && call.nonblocking && call.memory)) ∧
      ((s.ensureSpareFd call.opens).full = true → (s.ensureSpareFd call.opens).spareFd = none →
        s.accept call = s.ensureSpareFd call.opens) ∧
      ((s.ensureSpareFd call.opens).spareFd.isSome = true → call.reopens = true → (s.accept call).spareFd.isSome = true) := by
  have ensured := ensureSpareFd_accounted accounted call.opens
  rcases s.ensureSpareFd_frame call.opens with ⟨backlog, answered, _⟩
  have whole : s.accept call = match (s.ensureSpareFd call.opens).sysAccept with
    | .taken fd peer s => if call.nonblocking && call.memory then s.answer peer true else (s.close fd).answer peer false
    | .exhausted => (s.ensureSpareFd call.opens).rejectPending call.reopens
    | .nothing => s.ensureSpareFd call.opens := rfl
  generalize s.ensureSpareFd call.opens = e at *
  cases filled : e.full with
  | true =>
    have exhausted : e.sysAccept = .exhausted := by
      unfold sysAccept
      rw [filled, if_pos rfl]
    rw [exhausted] at whole
    dsimp only at whole
    cases held : e.spareFd with
    | none =>
      have stays : s.accept call = e := by
        rw [whole]
        unfold rejectPending
        rw [held]
      rw [stays]
      refine ⟨ensured, ?_, fun _ _ => rfl, ?_⟩
      · rintro (wrong | wrong)
        · cases wrong
        · cases wrong
      · intro wrong
        cases wrong
    | some spare =>
      rcases rejectPending_spec ensured held call.reopens with ⟨after, again, told, rest⟩
      rw [whole]
      refine ⟨after, fun _ => ⟨by rw [rest, backlog], by rw [told, answered, backlog]; rfl⟩, nofun, ?_⟩
      intro _ reopens
      rw [again, reopens]
  | false =>
    cases waiting : e.backlog with
    | nil =>
      have nothing : e.sysAccept = .nothing := by
        unfold sysAccept
        rw [filled, if_neg Bool.false_ne_true, waiting]
      rw [nothing] at whole
      dsimp only at whole
      rw [whole]
      refine ⟨ensured, fun _ => ⟨?_, ?_⟩, nofun, fun held _ => held⟩
      · rw [← backlog, waiting]
        rfl
      · rw [← backlog, waiting, answered]
        exact (List.append_nil _).symm
    | cons peer rest =>
      let taken : Listener := { e.opened (.client peer) with backlog := rest }
      have got : e.sysAccept = .taken e.lowestFree peer taken := by
        unfold sysAccept
        rw [filled, if_neg Bool.false_ne_true, waiting]
      rw [got] at whole
      dsimp only at whole
      rw [whole]
      by_cases fine : (call.nonblocking && call.memory) = true
      · rw [if_pos fine]
        refine ⟨⟨unique_opened ensured.unique _, not_full.mp filled, ?_, ?_⟩, fun _ => ⟨?_, ?_⟩, nofun, fun held _ => held⟩
        · intro fd
          have same := ensured.spare fd
          show (fd, Use.spare) ∈ (e.lowestFree, Use.client peer) :: e.table ↔ e.spareFd = some fd
          rw [← same, List.mem_cons]
          exact or_iff_right nofun
        · intro fd other member
          rcases List.mem_cons.mp member with new | old
          · cases new
            exact List.mem_append_right _ (List.mem_singleton_self _)
          · exact List.mem_append_left _ (ensured.clients fd other old)
        · rw [← backlog, waiting]
          rfl
        · rw [← backlog, waiting, Bool.not_false, Bool.true_and, fine, ← answered]
          rfl
      · rw [if_neg fine]
        have table : ((taken.close e.lowestFree).answer peer false).table = e.table := close_opened e (.client peer)
        refine ⟨accounted_of_same ensured rfl table rfl (List.subset_append_left _ _), fun _ => ⟨?_, ?_⟩, nofun, fun held _ => held⟩
        · rw [← backlog, waiting]
          rfl
        · rw [← backlog, waiting, Bool.not_false, Bool.true_and, (Bool.not_eq_true _).mp fine, ← answered]
          rfl

theorem accept_conserves {s : Listener} (accounted : s.Accounted) (call : AcceptCall) :
    (s.accept call).answered.map Prod.fst ++ (s.accept call).backlog = s.answered.map Prod.fst ++ s.backlog := by
  rcases accept_spec accounted call with ⟨_, drains, stuck, _⟩
  by_cases able : (s.ensureSpareFd call.opens).full = false ∨ (s.ensureSpareFd call.opens).spareFd.isSome = true
  · rw [(drains able).1, (drains able).2, List.map_append, List.append_assoc]
    cases s.backlog with
    | nil => rfl
    | cons peer rest => rfl
  · rw [not_or, Bool.not_eq_false, Bool.not_eq_true, Option.isSome_eq_false_iff, Option.isNone_iff_eq_none] at able
    have frame := s.ensureSpareFd_frame call.opens
    rw [stuck able.1 able.2, frame.1, frame.2.1]

/-! ## Whole runs -/

theorem close_accounted {s : Listener} (accounted : s.Accounted) {fd : Nat} {use : Use} (known : (fd, use) ∈ s.table)
    (kept : use ≠ .spare) : (s.close fd).Accounted := by
  rcases accounted with ⟨unique, room, spare, clients⟩
  refine ⟨unique_close unique fd, Nat.le_trans (List.length_filter_le _ _) room, ?_, ?_⟩
  · intro x
    rw [mem_close]
    constructor
    · rintro ⟨member, _⟩
      exact (spare x).mp member
    · intro held
      have member := (spare x).mpr held
      refine ⟨member, ?_⟩
      rintro rfl
      have same := List.inj_on_of_nodup_map unique member known rfl
      exact kept (Prod.mk.inj same).2.symm
  · intro x peer member
    exact clients x peer ((mem_close s fd _).mp member).1

theorem step_accounted {s t : Listener} {action : Action} (accounted : s.Accounted) (taken : s.step action = some t) : t.Accounted := by
  cases action with
  | arrive peer =>
    cases taken
    exact accounted_of_same accounted rfl rfl rfl (List.Subset.refl _)
  | openOther =>
    dsimp only [step] at taken
    split at taken
    · cases taken
    · rename_i room
      cases taken
      rcases accounted with ⟨unique, _, spare, clients⟩
      refine ⟨unique_opened unique .other, not_full.mp ((Bool.not_eq_true _).mp room), ?_, ?_⟩
      · intro fd
        show (fd, Use.spare) ∈ (s.lowestFree, Use.other) :: s.table ↔ s.spareFd = some fd
        rw [← spare, List.mem_cons]
        exact or_iff_right nofun
      · intro fd peer member
        rcases List.mem_cons.mp member with new | old
        · cases new
        · exact clients fd peer old
  | closeOther fd =>
    dsimp only [step] at taken
    split at taken
    · rename_i known
      cases taken
      exact close_accounted accounted known nofun
    · cases taken
  | hangUp fd peer =>
    dsimp only [step] at taken
    split at taken
    · rename_i known
      cases taken
      exact close_accounted accounted known nofun
    · cases taken
  | accept call =>
    cases taken
    exact (accept_spec accounted call).1

theorem start_accounted (limit : Nat) : (start limit).Accounted :=
  ⟨List.nodup_nil, Nat.zero_le _, fun _ => ⟨nofun, nofun⟩, nofun⟩

theorem step_conserves {s t : Listener} {action : Action} (accounted : s.Accounted) (taken : s.step action = some t) :
    t.answered.map Prod.fst ++ t.backlog = s.answered.map Prod.fst ++ s.backlog ++ arrivals [action] := by
  cases action with
  | arrive peer =>
    cases taken
    exact (List.append_assoc _ _ _).symm
  | openOther =>
    dsimp only [step] at taken
    split at taken
    · cases taken
    · cases taken
      exact (List.append_nil _).symm
  | closeOther fd =>
    dsimp only [step] at taken
    split at taken
    · cases taken
      exact (List.append_nil _).symm
    · cases taken
  | hangUp fd peer =>
    dsimp only [step] at taken
    split at taken
    · cases taken
      exact (List.append_nil _).symm
    · cases taken
  | accept call =>
    cases taken
    rw [accept_conserves accounted]
    exact (List.append_nil _).symm

theorem step_spare {s t : Listener} {action : Action} (accounted : s.Accounted) (held : s.spareFd.isSome = true)
    (opens : Opens s action) (taken : s.step action = some t) : t.spareFd.isSome = true := by
  cases action with
  | arrive peer =>
    cases taken
    exact held
  | openOther =>
    dsimp only [step] at taken
    split at taken
    · cases taken
    · cases taken
      exact held
  | closeOther fd =>
    dsimp only [step] at taken
    split at taken
    · cases taken
      exact held
    · cases taken
  | hangUp fd peer =>
    dsimp only [step] at taken
    split at taken
    · cases taken
      exact held
    · cases taken
  | accept call =>
    cases taken
    have ensured : (s.ensureSpareFd call.opens).spareFd.isSome = true := by
      rw [(s.ensureSpareFd_frame call.opens).2.2, held, Bool.true_or]
    exact (accept_spec accounted call).2.2.2 ensured opens.2

theorem run_accounted {limit : Nat} {actions : List Action} {s : Listener} (reached : run step (start limit) actions = some s) :
    s.Accounted ∧ s.answered.map Prod.fst ++ s.backlog = arrivals actions := by
  induction actions using List.reverseRecOn generalizing s with
  | nil =>
    cases reached
    exact ⟨start_accounted limit, rfl⟩
  | append_singleton actions action ih =>
    rw [Runs.run_append] at reached
    rcases Option.bind_eq_some_iff.mp reached with ⟨mid, before, last⟩
    rw [Runs.run_one] at last
    rcases ih before with ⟨accounted, all⟩
    refine ⟨step_accounted accounted last, ?_⟩
    rw [step_conserves accounted last, all]
    exact List.filterMap_append.symm

/-- Once a call to accept has found a free descriptor, no later one leaves the backlog as it is, however full the table
    becomes: the first that waits is served if a descriptor is free for it, and turned away otherwise. -/
theorem backlog_drains {limit : Nat} {front back : List Action} {call : AcceptCall} {mid s : Listener}
    (before : run step (start limit) front = some mid) (room : mid.full = false ∨ mid.spareFd.isSome = true)
    (reached : run step mid (.accept call :: back) = some s) (opens : Along step Opens mid (.accept call :: back)) :
    s.Accounted ∧ s.answered.map Prod.fst ++ s.backlog = arrivals (front ++ .accept call :: back) ∧
      ∀ later peer rest, s.backlog = peer :: rest →
        (s.accept later).backlog = rest ∧
          (s.accept later).answered = s.answered ++ [(peer, !s.full && later.nonblocking && later.memory)] := by
  have whole : run step (start limit) (front ++ .accept call :: back) = some s := by
    rw [Runs.run_append, before]
    exact reached
  rcases run_accounted whole with ⟨accounted, all⟩
  have first : Opens mid (.accept call) := opens [] (.accept call) mid (List.prefix_iff_eq_append.mpr rfl) rfl
  have accountedMid := (run_accounted before).1
  have ensured : (mid.ensureSpareFd call.opens).spareFd.isSome = true := by
    rw [(mid.ensureSpareFd_frame call.opens).2.2, first.1]
    rcases room with open_ | held
    · rw [open_]
      exact Bool.or_true _
    · rw [held, Bool.true_or]
  have armed := (accept_spec accountedMid call).2.2.2 ensured first.2
  have held : s.Accounted ∧ s.spareFd.isSome = true := by
    have after : run step (mid.accept call) back = some s := reached
    have along : Along step Opens (mid.accept call) back := by
      intro front' action t within run_
      refine opens (.accept call :: front') action t ?_ run_
      exact List.cons_prefix_cons.mpr ⟨rfl, within⟩
    refine @Runs.along_invariant _ _ _ _ (fun s => s.Accounted ∧ s.spareFd.isSome = true) _ _ _ ?_ ?_ along after
    · exact ⟨(accept_spec accountedMid call).1, armed⟩
    · rintro s action t ⟨accounted, held⟩ opens taken
      exact ⟨step_accounted accounted taken, step_spare accounted held opens taken⟩
  refine ⟨accounted, all, ?_⟩
  intro later peer rest waiting
  have same : s.ensureSpareFd later.opens = s := by
    unfold ensureSpareFd
    rw [if_neg]
    intro none_
    have some_ := held.2
    rw [none_] at some_
    cases some_
  have drains := (accept_spec accounted later).2.1
  rw [same] at drains
  rcases drains (.inr held.2) with ⟨backlog, answered⟩
  rw [waiting] at backlog answered
  exact ⟨backlog, answered⟩

/-- Three descriptors, all of them in use but the spare one: who comes is turned away, and the next one is at the head. -/
theorem backlog_drains_full : ∃ s, run step (start 3) [.openOther, .accept {}, .openOther, .arrive 7, .arrive 8] = some s ∧
    (s.accept {}).backlog = [8] ∧ (s.accept {}).answered = [(7, false)] := by
  have opens : Along step Opens ((start 3).opened .other) [.accept {}, .openOther, .arrive 7, .arrive 8] :=
    Runs.along_of_checked (by decide)
  have drains := @backlog_drains 3 [.openOther] [.openOther, .arrive 7, .arrive 8] {} ((start 3).opened .other) _ rfl
    (.inl rfl) rfl opens
  rcases drains.2.2 {} 7 [8] rfl with ⟨backlog, answered⟩
  exact ⟨_, rfl, backlog, answered⟩

end Listener
end BlueBird.Net
