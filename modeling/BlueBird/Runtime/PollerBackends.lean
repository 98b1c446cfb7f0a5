import BlueBird.Program.Runs
import BlueBird.Runtime.PollerWait
import BlueBird.Runtime.Registration
import Mathlib.Logic.Function.Basic

/-! The poller over its back ends: what the kernel polls for, and what the loop is told of it. -/

namespace BlueBird.Runtime

open Runs (run Along)

/-- `_bb_find_fd`, with the mask that is found. -/
def findFd (fds : List PollFd) (fd : Fd) : Option Events := (fds.find? (·.fd = fd)).map (·.events)

/-! ## The poller's own bookkeeping -/

/-- What the three files in `poller_backend` provide. `κ` is what the kernel keeps, and `ρ` how it answers a registration;
    `closed` is what it does when a descriptor is closed. -/
structure Backend (κ ρ : Type) where
  register : List PollFd → κ → Fd → Events → ρ → κ × Bool
  unregister : List PollFd → κ → Fd → Events → κ
  closed : κ → Fd → κ

/-- `struct bb_poller`. In `stale` are the descriptors that were closed while the table had them. -/
structure Poller (κ : Type) where
  fds : List PollFd := []
  capacity : Nat := 16
  kernel : κ
  stale : List Fd := []

/-- `supported` is what `bb_poller_fd_supported` says, and `memory` whether the table can grow. -/
inductive PollerCall (ρ : Type) where
  | register (fd : Fd) (events : Events) (supported memory : Bool) (answer : ρ)
  | unregister (fd : Fd) (events : Events)
  | close (fd : Fd)

namespace Poller

variable {κ ρ : Type} (backend : Backend κ ρ)

def full (p : Poller κ) (fd : Fd) : Bool := (findFd p.fds fd).isNone && decide (p.capacity ≤ p.fds.length)

/-- `bb_poller_register`, with its result -/
def register (p : Poller κ) (fd : Fd) (events : Events) (supported memory : Bool) (answer : ρ) : Poller κ × Int :=
  if !supported then (p, -1)
  else if p.full fd && !memory then (p, -1)
  else
    let p := if p.full fd then { p with capacity := p.capacity * 2 } else p
    let answered := backend.register p.fds p.kernel fd events answer
    let p := { p with kernel := answered.1 }
    if answered.2 then ({ p with fds := pollerRegister p.fds fd events }, 0) else (p, -1)

/-- `bb_poller_unregister` -/
def unregister (p : Poller κ) (fd : Fd) (events : Events) : Poller κ × Int :=
  match findFd p.fds fd with
  | none => (p, -1)
  | some _ =>
    let fds := pollerUnregister p.fds fd events
    ({ p with fds, kernel := backend.unregister p.fds p.kernel fd events, stale := p.stale.filter fun x => (findFd fds x).isSome }, 0)

def close (p : Poller κ) (fd : Fd) : Poller κ :=
  { p with kernel := backend.closed p.kernel fd, stale := if (findFd p.fds fd).isSome then fd :: p.stale else p.stale }

def step (p : Poller κ) : PollerCall ρ → Option (Poller κ)
  | .register fd events supported memory answer => some (p.register backend fd events supported memory answer).1
  | .unregister fd events => some (p.unregister backend fd events).1
  | .close fd => some (p.close backend fd)

end Poller

/-! ## The kernels -/

structure Sides where
  input : Bool := false
  output : Bool := false
  deriving DecidableEq, Repr

/-- `_to_epoll_events` -/
def toSides (events : Events) : Sides where
  input := events &&& eventRead ≠ 0
  output := events &&& eventWrite ≠ 0

inductive EpollOp where
  | add | mod | del
  deriving DecidableEq

/-- `epoll_ctl`: only what is not there is added, and only what is there is changed. `accepts` is whether there are the
    resources for it. -/
def epollCtl (interest : Fd → Option Sides) (op : EpollOp) (fd : Fd) (event : Sides) (accepts : Bool) :
    (Fd → Option Sides) × Bool :=
  match op, interest fd with
  | .add, none | .mod, some _ => if accepts then (Function.update interest fd (some event), true) else (interest, false)
  | .del, some _ => (Function.update interest fd none, true)
  | _, _ => (interest, false)

def epoll : Backend (Fd → Option Sides) Bool where
  register fds interest fd events accepts :=
    match findFd fds fd with
    | some existing => epollCtl interest .mod fd (toSides (existing ||| events)) accepts
    | none => epollCtl interest .add fd (toSides events) accepts
  unregister fds interest fd events :=
    match findFd fds fd with
    | none => interest
    | some existing =>
      let remaining := existing &&& ~~~events
      if remaining = 0 then (epollCtl interest .del fd {} true).1 else (epollCtl interest .mod fd (toSides remaining) true).1
  closed interest fd := Function.update interest fd none

/-- An element of a change list; all of a list are for one descriptor. -/
inductive Change where
  | addRead | addWrite | deleteRead | deleteWrite
  deriving DecidableEq

/-- `kevent` with a change list stops at the first change that fails. A filter is deleted only if it is there. -/
def kevent (filters accepts : Sides) : List Change → Sides × Bool
  | [] => (filters, true)
  | .addRead :: changes => if accepts.input then kevent { filters with input := true } accepts changes else (filters, false)
  | .addWrite :: changes => if accepts.output then kevent { filters with output := true } accepts changes else (filters, false)
  | .deleteRead :: changes => if filters.input then kevent { filters with input := false } accepts changes else (filters, false)
  | .deleteWrite :: changes => if filters.output then kevent { filters with output := false } accepts changes else (filters, false)

def additions (sides : Sides) : List Change := (if sides.input then [.addRead] else []) ++ if sides.output then [.addWrite] else []

def deletions (sides : Sides) : List Change := (if sides.input then [.deleteRead] else []) ++ if sides.output then [.deleteWrite] else []

/-- Only the sides that are new to the table are added. -/
def kqueueAdds (fds : List PollFd) (fd : Fd) (events : Events) : Sides := toSides (events &&& ~~~(findFd fds fd).getD 0)

def kqueue : Backend (Fd → Sides) Sides where
  register fds filters fd events accepts :=
    let changed := kevent (filters fd) accepts (additions (kqueueAdds fds fd events))
    (Function.update filters fd changed.1, changed.2)
  unregister fds filters fd events :=
    match findFd fds fd with
    | none => filters
    | some existing => Function.update filters fd (kevent (filters fd) {} (deletions (toSides (existing &&& events)))).1
  closed filters fd := Function.update filters fd {}

/-- `poll.c` has nothing in the kernel. -/
def poll : Backend Unit Unit where
  register _ kernel _ _ _ := (kernel, true)
  unregister _ kernel _ _ := kernel
  closed kernel _ := kernel

/-! ## The table after each call -/

theorem findFd_eq_some {fds : List PollFd} (unique : (fds.map (·.fd)).Nodup) (fd : Fd) (events : Events) :
    findFd fds fd = some events ↔ ⟨fd, events⟩ ∈ fds := by
  unfold findFd
  constructor
  · intro found
    rcases Option.map_eq_some_iff.mp found with ⟨p, here, rfl⟩
    have same : p.fd = fd := by simpa using List.find?_some here
    rw [← same]
    exact List.mem_of_find?_eq_some here
  · intro member
    cases found : fds.find? (·.fd = fd) with
    | none =>
      have absent := List.find?_eq_none.mp found _ member
      exact absurd (decide_eq_true rfl) absent
    | some p =>
      have same : p.fd = fd := by simpa using List.find?_some found
      rw [Option.map_some, List.inj_on_of_nodup_map unique (List.mem_of_find?_eq_some found) member same]

theorem findFd_perm {fds fds' : List PollFd} (unique : (fds.map (·.fd)).Nodup) (moved : fds.Perm fds') (fd : Fd) :
    findFd fds fd = findFd fds' fd := by
  have unique' := ((moved.map (·.fd)).nodup_iff).mp unique
  apply Option.ext
  intro events
  rw [findFd_eq_some unique, findFd_eq_some unique', moved.mem_iff]

theorem findFd_cons (p : PollFd) (fds : List PollFd) (fd : Fd) :
    findFd (p :: fds) fd = if p.fd = fd then some p.events else findFd fds fd := by
  unfold findFd
  rw [List.find?_cons]
  by_cases same : p.fd = fd
  · rw [if_pos same, decide_eq_true same]
    rfl
  · rw [if_neg same, decide_eq_false same]

theorem findFd_eq_none {fds : List PollFd} {fd : Fd} (absent : ∀ p ∈ fds, p.fd ≠ fd) : findFd fds fd = none := by
  unfold findFd
  rw [List.find?_eq_none.mpr fun p member => by simpa using absent p member]
  rfl

theorem unique_register {fds : List PollFd} (unique : (fds.map (·.fd)).Nodup) (fd : Fd) (events : Events) :
    ((pollerRegister fds fd events).map (·.fd)).Nodup := by
  rcases pollerRegister_cases fds fd events with ⟨absent, after⟩ | ⟨p, rest, rfl, before, after⟩
  · rw [(after.map _).nodup_iff, List.map_cons, List.nodup_cons]
    refine ⟨?_, unique⟩
    intro listed
    rcases List.mem_map.mp listed with ⟨p, member, same⟩
    exact absent p member same
  · rw [(before.map _).nodup_iff] at unique
    rw [(after.map _).nodup_iff]
    exact unique

theorem findFd_register {fds : List PollFd} (unique : (fds.map (·.fd)).Nodup) (fd : Fd) (events : Events) (x : Fd) :
    findFd (pollerRegister fds fd events) x =
      if x = fd then some ((findFd fds fd).getD 0 ||| events) else findFd fds x := by
  rcases pollerRegister_cases fds fd events with ⟨absent, after⟩ | ⟨p, rest, rfl, before, after⟩
  · rw [findFd_perm (unique_register unique fd events) after, findFd_cons, findFd_eq_none absent]
    by_cases same : x = fd
    · rw [if_pos same, if_pos same.symm, Option.getD_none]
      exact congrArg some BitVec.zero_or.symm
    · rw [if_neg same, if_neg (Ne.symm same)]
  · rw [findFd_perm (unique_register unique _ events) after, findFd_cons, findFd_perm unique before, findFd_perm unique before x,
      findFd_cons, findFd_cons, if_pos rfl]
    by_cases same : x = p.fd
    · rw [if_pos same, if_pos same.symm, Option.getD_some]
    · rw [if_neg same, if_neg (Ne.symm same), if_neg (Ne.symm same)]

theorem unique_unregister {fds : List PollFd} (unique : (fds.map (·.fd)).Nodup) (fd : Fd) (events : Events) :
    ((pollerUnregister fds fd events).map (·.fd)).Nodup := by
  rcases pollerUnregister_cases fds fd events with ⟨_, same⟩ | ⟨p, rest, rfl, before, after⟩
  · rw [same]
    exact unique
  · rw [(before.map _).nodup_iff] at unique
    rcases after with ⟨_, after⟩ | ⟨_, after⟩
    · rw [(after.map _).nodup_iff]
      rw [List.map_cons, List.nodup_cons] at unique
      exact unique.2
    · rw [(after.map _).nodup_iff]
      exact unique

theorem findFd_unregister {fds : List PollFd} (unique : (fds.map (·.fd)).Nodup) (fd : Fd) (events : Events) (x : Fd) :
    findFd (pollerUnregister fds fd events) x =
      if x = fd then ((findFd fds fd).map (· &&& ~~~events)).filter (· ≠ 0) else findFd fds x := by
  have unique' := unique_unregister unique fd events
  rcases pollerUnregister_cases fds fd events with ⟨absent, same⟩ | ⟨p, rest, rfl, before, after⟩
  · rw [same, findFd_eq_none absent]
    by_cases here : x = fd
    · rw [if_pos here, here, findFd_eq_none absent]
      rfl
    · rw [if_neg here]
  · have others : ∀ q ∈ rest, q.fd ≠ p.fd := by
      rw [(before.map _).nodup_iff, List.map_cons, List.nodup_cons] at unique
      intro q member same
      exact unique.1 (List.mem_map.mpr ⟨q, member, same⟩)
    rw [findFd_perm unique before, findFd_perm unique before x, findFd_cons, findFd_cons, if_pos rfl, Option.map_some]
    rcases after with ⟨empty, after⟩ | ⟨left, after⟩
    · rw [findFd_perm unique' after, empty]
      by_cases here : x = p.fd
      · rw [if_pos here, here, findFd_eq_none others]
        rfl
      · rw [if_neg here, if_neg (Ne.symm here)]
    · rw [findFd_perm unique' after, findFd_cons]
      by_cases here : x = p.fd
      · rw [if_pos here, if_pos here.symm, Option.filter_some_pos (by simpa using left)]
      · rw [if_neg here, if_neg (Ne.symm here), if_neg (Ne.symm here)]

theorem length_register (fds : List PollFd) (fd : Fd) (events : Events) :
    (pollerRegister fds fd events).length = if (findFd fds fd).isNone then fds.length + 1 else fds.length := by
  rcases pollerRegister_cases fds fd events with ⟨absent, after⟩ | ⟨p, rest, rfl, before, after⟩
  · rw [findFd_eq_none absent, after.length_eq]
    rfl
  · have here : (fds.find? (·.fd = p.fd)).isSome = true :=
      List.find?_isSome.mpr ⟨p, before.mem_iff.mpr (List.mem_cons_self ..), decide_eq_true rfl⟩
    have found : (findFd fds p.fd).isNone = false := by
      unfold findFd
      rw [Option.isNone_map, ← Option.not_isSome, here]
      rfl
    rw [found, after.length_eq, before.length_eq]
    rfl

theorem length_unregister_le (fds : List PollFd) (fd : Fd) (events : Events) :
    (pollerUnregister fds fd events).length ≤ fds.length := by
  rcases pollerUnregister_cases fds fd events with ⟨_, same⟩ | ⟨p, rest, rfl, before, after⟩
  · rw [same]
  · rw [before.length_eq, List.length_cons]
    rcases after with ⟨_, after⟩ | ⟨_, after⟩
    · rw [after.length_eq]
      exact Nat.le_succ _
    · rw [after.length_eq, List.length_cons]

/-! ## What the kernel polls for -/

/-- What every call keeps of the table, whatever the back end is. -/
structure Poller.Sound {κ : Type} (p : Poller κ) : Prop where
  unique : (p.fds.map (·.fd)).Nodup
  room : p.fds.length ≤ p.capacity
  positive : 0 < p.capacity
  known : ∀ fd ∈ p.stale, (findFd p.fds fd).isSome = true

/-- The kernel has its own entry for each descriptor. `good` says how the entry fits the one of the table and whether the
    descriptor was closed under it, and `allowed` which registrations it survives. -/
structure Backend.Keeps {γ ρ : Type} (backend : Backend (Fd → γ) ρ) (good : Option Events → Bool → γ → Prop)
    (allowed : Option Events → Bool → Events → ρ → Prop) : Prop where
  register : ∀ fds kernel fd events answer stale, (stale = true → (findFd fds fd).isSome = true) →
    good (findFd fds fd) stale (kernel fd) → allowed (findFd fds fd) stale events answer →
    good (if (backend.register fds kernel fd events answer).2 then some ((findFd fds fd).getD 0 ||| events) else findFd fds fd) stale
      ((backend.register fds kernel fd events answer).1 fd)
  drop : ∀ fds kernel fd events existing stale, findFd fds fd = some existing → good (some existing) stale (kernel fd) →
    existing &&& ~~~events = 0 → good none false (backend.unregister fds kernel fd events fd)
  narrow : ∀ fds kernel fd events existing stale, findFd fds fd = some existing → good (some existing) stale (kernel fd) →
    existing &&& ~~~events ≠ 0 → good (some (existing &&& ~~~events)) stale (backend.unregister fds kernel fd events fd)
  closed : ∀ kernel fd entry stale, good entry stale (kernel fd) → good entry entry.isSome (backend.closed kernel fd fd)
  registerApart : ∀ fds kernel fd events answer x, x ≠ fd → (backend.register fds kernel fd events answer).1 x = kernel x
  unregisterApart : ∀ fds kernel fd events x, x ≠ fd → backend.unregister fds kernel fd events x = kernel x
  closedApart : ∀ kernel fd x, x ≠ fd → backend.closed kernel fd x = kernel x

namespace Poller

section Calls

variable {κ ρ : Type} {backend : Backend κ ρ} {p : Poller κ}

theorem register_cases (sound : p.Sound) (fd : Fd) (events : Events) (supported memory : Bool) (answer : ρ) :
    (p.register backend fd events supported memory answer).1 = p ∨ ∃ capacity, p.capacity ≤ capacity ∧
      ((backend.register p.fds p.kernel fd events answer).2 = false ∧
          (p.register backend fd events supported memory answer).1 =
            { p with capacity, kernel := (backend.register p.fds p.kernel fd events answer).1 } ∨
        (backend.register p.fds p.kernel fd events answer).2 = true ∧
          (pollerRegister p.fds fd events).length ≤ capacity ∧
          (p.register backend fd events supported memory answer).1 =
            { p with capacity, kernel := (backend.register p.fds p.kernel fd events answer).1,
                     fds := pollerRegister p.fds fd events }) := by
  by_cases refused : (!supported) = true
  · left
    unfold register
    rw [if_pos refused]
  · by_cases starved : (p.full fd && !memory) = true
    · left
      unfold register
      rw [if_neg refused, if_pos starved]
    · right
      have grown := length_register p.fds fd events
      have wide : (pollerRegister p.fds fd events).length ≤ if p.full fd then p.capacity * 2 else p.capacity := by
        have room := sound.room
        have positive := sound.positive
        rw [grown]
        unfold full
        cases (findFd p.fds fd).isNone with
        | false =>
          rw [if_neg Bool.false_ne_true, Bool.false_and, if_neg Bool.false_ne_true]
          exact room
        | true =>
          rw [if_pos rfl, Bool.true_and]
          by_cases at_ : p.capacity ≤ p.fds.length
          · rw [if_pos (decide_eq_true at_)]
            omega
          · rw [if_neg (by simpa using at_)]
            omega
      refine ⟨if p.full fd then p.capacity * 2 else p.capacity, ?_, ?_⟩
      · split <;> omega
      · unfold register
        rw [if_neg refused, if_neg starved]
        cases answered : (backend.register p.fds p.kernel fd events answer).2 with
        | false =>
          refine .inl ⟨rfl, ?_⟩
          by_cases full : p.full fd = true
          · simp [full, answered]
          · simp [full, answered]
        | true =>
          refine .inr ⟨rfl, wide, ?_⟩
          by_cases full : p.full fd = true
          · simp [full, answered]
          · simp [full, answered]

theorem mem_stale_close (fd x : Fd) :
    x ∈ (p.close backend fd).stale ↔ (x = fd ∧ (findFd p.fds fd).isSome = true) ∨ x ∈ p.stale := by
  unfold close
  dsimp only
  split
  · rename_i registered
    simp [registered]
  · rename_i absent
    simp [absent]

theorem step_sound {p' : Poller κ} {call : PollerCall ρ} (sound : p.Sound) (taken : p.step backend call = some p') : p'.Sound := by
  cases call with
  | register fd events supported memory answer =>
    cases taken
    have still : ∀ x ∈ p.stale, (findFd (pollerRegister p.fds fd events) x).isSome = true := by
      intro x member
      rw [findFd_register sound.unique]
      split
      · rfl
      · exact sound.known x member
    rcases @register_cases _ _ backend _ sound fd events supported memory answer with
      same | ⟨capacity, wider, ⟨_, same⟩ | ⟨_, room, same⟩⟩
    · rw [same]
      exact sound
    · rw [same]
      exact { sound with room := Nat.le_trans sound.room wider, positive := Nat.lt_of_lt_of_le sound.positive wider }
    · rw [same]
      exact ⟨unique_register sound.unique fd events, room, Nat.lt_of_lt_of_le sound.positive wider, still⟩
  | unregister fd events =>
    cases taken
    unfold unregister
    cases found : findFd p.fds fd with
    | none => exact sound
    | some existing =>
      refine ⟨unique_unregister sound.unique fd events, ?_, sound.positive, ?_⟩
      · exact Nat.le_trans (length_unregister_le p.fds fd events) sound.room
      · intro x member
        exact (List.mem_filter.mp member).2
  | close fd =>
    cases taken
    refine { sound with known := ?_ }
    intro x member
    rcases (mem_stale_close fd x).mp member with ⟨rfl, registered⟩ | old
    · exact registered
    · exact sound.known x old

end Calls

section Kernels

variable {γ ρ : Type} {backend : Backend (Fd → γ) ρ} {good : Option Events → Bool → γ → Prop}
  {allowed : Option Events → Bool → Events → ρ → Prop} {p : Poller (Fd → γ)}

def Tracks (good : Option Events → Bool → γ → Prop) (p : Poller (Fd → γ)) : Prop :=
  ∀ fd, good (findFd p.fds fd) (decide (fd ∈ p.stale)) (p.kernel fd)

def Allows (allowed : Option Events → Bool → Events → ρ → Prop) (p : Poller (Fd → γ)) : PollerCall ρ → Prop
  | .register fd events _ _ answer => allowed (findFd p.fds fd) (decide (fd ∈ p.stale)) events answer
  | _ => True

theorem step_tracks {p' : Poller (Fd → γ)} {call : PollerCall ρ} (keeps : backend.Keeps good allowed) (sound : p.Sound)
    (tracks : p.Tracks good) (allows : p.Allows allowed call) (taken : p.step backend call = some p') : p'.Tracks good := by
  cases call with
  | register fd events supported memory answer =>
    cases taken
    have known : decide (fd ∈ p.stale) = true → (findFd p.fds fd).isSome = true :=
      fun stale => sound.known fd (of_decide_eq_true stale)
    have here := keeps.register p.fds p.kernel fd events answer _ known (tracks fd) allows
    have apart := keeps.registerApart p.fds p.kernel fd events answer
    rcases @register_cases _ _ backend _ sound fd events supported memory answer with
      same | ⟨capacity, _, ⟨refused, same⟩ | ⟨accepted, _, same⟩⟩
    · rw [same]
      exact tracks
    · rw [same]
      intro x
      by_cases at_ : x = fd
      · subst at_
        rw [refused, if_neg Bool.false_ne_true] at here
        exact here
      · show good _ _ ((backend.register p.fds p.kernel fd events answer).1 x)
        rw [apart x at_]
        exact tracks x
    · rw [same]
      intro x
      show good (findFd (pollerRegister p.fds fd events) x) _ ((backend.register p.fds p.kernel fd events answer).1 x)
      rw [findFd_register sound.unique]
      by_cases at_ : x = fd
      · subst at_
        rw [accepted, if_pos rfl] at here
        rw [if_pos rfl]
        exact here
      · rw [if_neg at_, apart x at_]
        exact tracks x
  | unregister fd events =>
    cases taken
    unfold unregister
    cases found : findFd p.fds fd with
    | none => exact tracks
    | some existing =>
      have entries := findFd_unregister sound.unique fd events
      have before := tracks fd
      rw [found] at before
      intro x
      show good (findFd (pollerUnregister p.fds fd events) x)
        (decide (x ∈ p.stale.filter fun x => (findFd (pollerUnregister p.fds fd events) x).isSome)) _
      simp only [List.mem_filter]
      rw [entries]
      by_cases at_ : x = fd
      · subst at_
        rw [if_pos rfl, found, Option.map_some]
        by_cases empty : existing &&& ~~~events = 0
        · rw [Option.filter_some_neg (by simpa using empty)]
          have here := keeps.drop p.fds p.kernel x events existing _ found before empty
          simpa using here
        · rw [Option.filter_some_pos (by simpa using empty)]
          have here := keeps.narrow p.fds p.kernel x events existing _ found before empty
          simpa using here
      · have flag : decide (x ∈ p.stale ∧ (findFd p.fds x).isSome = true) = decide (x ∈ p.stale) :=
          decide_eq_decide.mpr ⟨And.left, fun member => ⟨member, sound.known x member⟩⟩
        rw [if_neg at_, flag]
        show good _ _ (backend.unregister p.fds p.kernel fd events x)
        rw [keeps.unregisterApart p.fds p.kernel fd events x at_]
        exact tracks x
  | close fd =>
    cases taken
    intro x
    have member := @mem_stale_close _ _ backend p fd x
    show good (findFd p.fds x) _ (backend.closed p.kernel fd x)
    by_cases at_ : x = fd
    · subst at_
      have flag : decide (x ∈ (p.close backend x).stale) = (findFd p.fds x).isSome := by
        rw [Bool.eq_iff_iff, decide_eq_true_eq, member]
        constructor
        · rintro (⟨_, registered⟩ | old)
          · exact registered
          · exact sound.known x old
        · exact fun registered => .inl ⟨rfl, registered⟩
      rw [flag]
      exact keeps.closed p.kernel x _ _ (tracks x)
    · have flag : decide (x ∈ (p.close backend fd).stale) = decide (x ∈ p.stale) := by
        apply decide_eq_decide.mpr
        rw [member]
        exact or_iff_right fun here => at_ here.1
      rw [flag, keeps.closedApart p.kernel fd x at_]
      exact tracks x

end Kernels
end Poller

/-! ## The sides of a mask -/

theorem bit_and_one (events : Events) (i : Nat) (bit : i < 32) :
    decide (events &&& BitVec.twoPow 32 i ≠ 0) = events.getLsbD i := by
  rw [BitVec.and_twoPow]
  cases events.getLsbD i with
  | false => rfl
  | true =>
    rw [if_pos rfl, decide_eq_true_eq]
    intro zero
    have here := congrArg (·.getLsbD i) zero
    simp [bit] at here

theorem toSides_input (events : Events) : (toSides events).input = events.getLsbD 0 := bit_and_one events 0 (by decide)

theorem toSides_output (events : Events) : (toSides events).output = events.getLsbD 1 := bit_and_one events 1 (by decide)

theorem Sides.eq_of {a b : Sides} (input : a.input = b.input) (output : a.output = b.output) : a = b := by
  cases a
  cases b
  cases input
  cases output
  rfl

theorem toSides_or (a b : Events) :
    toSides (a ||| b) = ⟨(toSides a).input || (toSides b).input, (toSides a).output || (toSides b).output⟩ := by
  apply Sides.eq_of
  · simp only [toSides_input, BitVec.getLsbD_or]
  · simp only [toSides_output, BitVec.getLsbD_or]

theorem toSides_and (a b : Events) :
    toSides (a &&& b) = ⟨(toSides a).input && (toSides b).input, (toSides a).output && (toSides b).output⟩ := by
  apply Sides.eq_of
  · simp only [toSides_input, BitVec.getLsbD_and]
  · simp only [toSides_output, BitVec.getLsbD_and]

theorem toSides_not (a : Events) : toSides (~~~a) = ⟨!(toSides a).input, !(toSides a).output⟩ := by
  apply Sides.eq_of
  · simp [toSides_input]
  · simp [toSides_output]

theorem toSides_zero : toSides 0 = {} := rfl

/-! ## `epoll` -/

/-- The kernel is interested in what the table says, and in nothing once the descriptor was closed under it. -/
def Interested (entry : Option Events) (stale : Bool) (interest : Option Sides) : Prop :=
  interest = if stale then none else entry.map toSides

theorem epollCtl_apart (interest : Fd → Option Sides) (op : EpollOp) {fd x : Fd} (event : Sides) (accepts : Bool) (other : x ≠ fd) :
    (epollCtl interest op fd event accepts).1 x = interest x := by
  unfold epollCtl
  split
  · split
    · exact Function.update_of_ne other _ _
    · rfl
  · split
    · exact Function.update_of_ne other _ _
    · rfl
  · exact Function.update_of_ne other _ _
  · rfl

theorem epoll_keeps : epoll.Keeps Interested fun _ _ _ _ => True := by
  constructor
  · intro fds interest fd events accepts stale known fits _
    unfold Interested at fits ⊢
    cases found : findFd fds fd with
    | none =>
      have fresh : stale = false := by
        rw [found] at known
        cases stale with
        | false => rfl
        | true => cases known rfl
      subst fresh
      rw [found] at fits
      have unknown : interest fd = none := fits
      cases accepts with
      | false => simp [epoll, found, epollCtl, unknown]
      | true => simp [epoll, found, epollCtl, unknown]
    | some existing =>
      rw [found] at fits
      cases stale with
      | true =>
        have unknown : interest fd = none := fits
        simp [epoll, found, epollCtl, unknown]
      | false =>
        have polled : interest fd = some (toSides existing) := fits
        cases accepts with
        | false => simp [epoll, found, epollCtl, polled]
        | true => simp [epoll, found, epollCtl, polled]
  · intro fds interest fd events existing stale found fits empty
    unfold Interested at fits ⊢
    have call : epoll.unregister fds interest fd events = (epollCtl interest .del fd {} true).1 := by
      simp only [epoll, found]
      exact if_pos empty
    rw [call]
    cases stale with
    | true =>
      have unknown : interest fd = none := fits
      simp [epollCtl, unknown]
    | false =>
      have polled : interest fd = some (toSides existing) := fits
      simp [epollCtl, polled]
  · intro fds interest fd events existing stale found fits left
    unfold Interested at fits ⊢
    have call : epoll.unregister fds interest fd events =
        (epollCtl interest .mod fd (toSides (existing &&& ~~~events)) true).1 := by
      simp only [epoll, found]
      exact if_neg left
    rw [call]
    cases stale with
    | true =>
      have unknown : interest fd = none := fits
      simp [epollCtl, unknown]
    | false =>
      have polled : interest fd = some (toSides existing) := fits
      simp [epollCtl, polled]
  · intro interest fd entry stale _
    unfold Interested
    cases entry with
    | none => simp [epoll]
    | some _ => simp [epoll]
  · intro fds interest fd events accepts x other
    unfold epoll
    dsimp only
    split
    · exact epollCtl_apart interest .mod _ _ other
    · exact epollCtl_apart interest .add _ _ other
  · intro fds interest fd events x other
    cases found : findFd fds fd with
    | none => simp only [epoll, found]
    | some existing =>
      simp only [epoll, found]
      split
      · exact epollCtl_apart interest .del _ _ other
      · exact epollCtl_apart interest .mod _ _ other
  · intro interest fd x other
    exact Function.update_of_ne other _ _

/-- The kernel has at least the filters of the table. -/
def Filtered (entry : Option Events) (stale : Bool) (filters : Sides) : Prop :=
  stale = false → ((toSides (entry.getD 0)).input = true → filters.input = true) ∧
    ((toSides (entry.getD 0)).output = true → filters.output = true)

/-- The kernel has the filters of the table, and none once the descriptor was closed under it. -/
def FilteredExactly (entry : Option Events) (stale : Bool) (filters : Sides) : Prop :=
  filters = if stale then {} else toSides (entry.getD 0)

theorem filtered_none (filters : Sides) : Filtered none false filters := by
  intro _
  rw [Option.getD_none, toSides_zero]
  exact ⟨nofun, nofun⟩

/-- The descriptor is not registered again before it was unregistered, and the kernel refuses no second change of a call
    after it made the first. -/
def Whole (entry : Option Events) (stale : Bool) (events : Events) (accepts : Sides) : Prop :=
  stale = false ∧ ((toSides (events &&& ~~~entry.getD 0)).input = true → (toSides (events &&& ~~~entry.getD 0)).output = true →
    accepts.input = true → accepts.output = true)

theorem kevent_additions (filters accepts sides : Sides) : kevent filters accepts (additions sides) =
    if sides.input && !accepts.input then (filters, false)
    else if sides.output && !accepts.output then ({ filters with input := filters.input || sides.input }, false)
    else (⟨filters.input || sides.input, filters.output || sides.output⟩, true) := by
  rcases filters with ⟨a, b⟩
  rcases accepts with ⟨c, d⟩
  rcases sides with ⟨_ | _, _ | _⟩ <;> cases c <;> cases d <;> simp [additions, kevent]

theorem kevent_deletions {filters sides : Sides} (input : sides.input = true → filters.input = true)
    (output : sides.output = true → filters.output = true) :
    (kevent filters {} (deletions sides)).1 = ⟨filters.input && !sides.input, filters.output && !sides.output⟩ := by
  rcases filters with ⟨a, b⟩
  rcases sides with ⟨_ | _, _ | _⟩ <;> simp_all [deletions, kevent]

theorem kevent_deletions_nothing (sides : Sides) : (kevent {} {} (deletions sides)).1 = {} := by
  rcases sides with ⟨_ | _, _ | _⟩ <;> rfl

section Kqueue

variable {fds : List PollFd} {filters : Fd → Sides} {fd : Fd} {events : Events} {accepts : Sides}

theorem kqueue_register : (kqueue.register fds filters fd events accepts).1 fd =
    (kevent (filters fd) accepts (additions (toSides (events &&& ~~~(findFd fds fd).getD 0)))).1 := Function.update_self ..

theorem kqueue_unregister {existing : Events} (found : findFd fds fd = some existing) :
    kqueue.unregister fds filters fd events fd = (kevent (filters fd) {} (deletions (toSides (existing &&& events)))).1 := by
  simp only [kqueue, found]
  exact Function.update_self ..

theorem kqueue_registerApart {x : Fd} (other : x ≠ fd) : (kqueue.register fds filters fd events accepts).1 x = filters x :=
  Function.update_of_ne other _ _

theorem kqueue_unregisterApart {x : Fd} (other : x ≠ fd) : kqueue.unregister fds filters fd events x = filters x := by
  cases found : findFd fds fd with
  | none => simp only [kqueue, found]
  | some existing =>
    simp only [kqueue, found]
    exact Function.update_of_ne other _ _

end Kqueue

theorem kevent_adds {filters table : Sides} (input : table.input = true → filters.input = true)
    (output : table.output = true → filters.output = true) (accepts sides : Sides) :
    let adds : Sides := ⟨sides.input && !table.input, sides.output && !table.output⟩
    let changed := kevent filters accepts (additions adds)
    (changed.2 = true ∧ changed.1 = ⟨filters.input || sides.input, filters.output || sides.output⟩) ∨
      (changed.2 = false ∧ (filters.input = true → changed.1.input = true) ∧ (filters.output = true → changed.1.output = true) ∧
        ((adds.input = true → adds.output = true → accepts.input = true → accepts.output = true) → changed.1 = filters)) := by
  intro adds changed
  have result := kevent_additions filters accepts adds
  by_cases first : (adds.input && !accepts.input) = true
  · rw [if_pos first] at result
    right
    simp only [changed, result]
    exact ⟨trivial, id, id, fun _ => trivial⟩
  · rw [if_neg first] at result
    by_cases second : (adds.output && !accepts.output) = true
    · rw [if_pos second] at result
      right
      simp only [changed, result]
      refine ⟨trivial, fun on => by rw [on, Bool.true_or], id, ?_⟩
      intro whole
      apply Sides.eq_of
      · have alone : adds.input = false := by
          by_contra both
          simp_all
        simp only [alone, Bool.or_false]
      · rfl
    · rw [if_neg second] at result
      left
      simp only [changed, result]
      refine ⟨trivial, Sides.eq_of ?_ ?_⟩
      · show (filters.input || (sides.input && !table.input)) = (filters.input || sides.input)
        cases known : table.input with
        | false => simp
        | true => simp [input known]
      · show (filters.output || (sides.output && !table.output)) = (filters.output || sides.output)
        cases known : table.output with
        | false => simp
        | true => simp [output known]

theorem kqueueAdds_eq (fds : List PollFd) (fd : Fd) (events : Events) : toSides (events &&& ~~~(findFd fds fd).getD 0) =
    ⟨(toSides events).input && !(toSides ((findFd fds fd).getD 0)).input,
      (toSides events).output && !(toSides ((findFd fds fd).getD 0)).output⟩ := by
  rw [toSides_and, toSides_not]

theorem kqueue_keeps : kqueue.Keeps Filtered fun _ _ _ _ => True := by
  constructor
  · intro fds filters fd events accepts stale _ fits _ open_
    rcases fits open_ with ⟨input, output⟩
    have changed := kevent_adds input output accepts (toSides events)
    rw [← kqueueAdds_eq] at changed
    rcases changed with ⟨accepted, after⟩ | ⟨refused, keptInput, keptOutput, _⟩
    · have yes : (kqueue.register fds filters fd events accepts).2 = true := accepted
      rw [kqueue_register, after, yes, if_pos rfl, Option.getD_some, toSides_or]
      simp only [Bool.or_eq_true]
      exact ⟨Or.imp_left input, Or.imp_left output⟩
    · have no : (kqueue.register fds filters fd events accepts).2 = false := refused
      rw [kqueue_register, no, if_neg Bool.false_ne_true]
      exact ⟨fun on => keptInput (input on), fun on => keptOutput (output on)⟩
  · exact fun _ _ _ _ _ _ _ _ _ => filtered_none _
  · intro fds filters fd events existing stale found fits left open_
    rcases fits open_ with ⟨input, output⟩
    rw [Option.getD_some] at input output
    rw [kqueue_unregister found, toSides_and, kevent_deletions, Option.getD_some, toSides_and, toSides_not]
    · simp only [Bool.and_eq_true, Bool.not_eq_true', Bool.and_eq_false_iff]
      exact ⟨fun on => ⟨input on.1, .inr on.2⟩, fun on => ⟨output on.1, .inr on.2⟩⟩
    · exact fun on => input (Bool.and_eq_true_iff.mp on).1
    · exact fun on => output (Bool.and_eq_true_iff.mp on).1
  · intro filters fd entry stale fits open_
    cases entry with
    | none => exact filtered_none _ open_
    | some _ => cases open_
  · exact fun _ _ _ _ _ _ => kqueue_registerApart
  · exact fun _ _ _ _ _ => kqueue_unregisterApart
  · exact fun _ _ _ other => Function.update_of_ne other _ _

theorem kqueue_keeps_exactly : kqueue.Keeps FilteredExactly Whole := by
  constructor
  · intro fds filters fd events accepts stale _ fits whole
    rcases whole with ⟨rfl, whole⟩
    have same : filters fd = toSides ((findFd fds fd).getD 0) := fits
    have changed := @kevent_adds (filters fd) (toSides ((findFd fds fd).getD 0)) (by rw [same]; exact id) (by rw [same]; exact id)
      accepts (toSides events)
    rw [← kqueueAdds_eq] at changed
    unfold FilteredExactly
    rw [kqueue_register, if_neg Bool.false_ne_true]
    rcases changed with ⟨accepted, after⟩ | ⟨refused, _, _, kept⟩
    · have yes : (kqueue.register fds filters fd events accepts).2 = true := accepted
      rw [after, yes, if_pos rfl, Option.getD_some, toSides_or, same]
    · have no : (kqueue.register fds filters fd events accepts).2 = false := refused
      rw [kept whole, no, if_neg Bool.false_ne_true, same]
  · intro fds filters fd events existing stale found fits empty
    unfold FilteredExactly at fits ⊢
    rw [kqueue_unregister found, if_neg Bool.false_ne_true, Option.getD_none, toSides_zero]
    cases stale with
    | true =>
      rw [if_pos rfl] at fits
      rw [fits, kevent_deletions_nothing]
    | false =>
      rw [if_neg Bool.false_ne_true, Option.getD_some] at fits
      have rest := toSides_and existing (~~~events)
      rw [empty, toSides_zero, toSides_not] at rest
      rw [toSides_and, fits, kevent_deletions (fun on => (Bool.and_eq_true_iff.mp on).1) fun on => (Bool.and_eq_true_iff.mp on).1]
      have input := congrArg Sides.input rest
      have output := congrArg Sides.output rest
      apply Sides.eq_of
      · show ((toSides existing).input && !((toSides existing).input && (toSides events).input)) = false
        replace input : false = ((toSides existing).input && !(toSides events).input) := input
        rw [input]
        cases (toSides existing).input <;> simp
      · show ((toSides existing).output && !((toSides existing).output && (toSides events).output)) = false
        replace output : false = ((toSides existing).output && !(toSides events).output) := output
        rw [output]
        cases (toSides existing).output <;> simp
  · intro fds filters fd events existing stale found fits left
    unfold FilteredExactly at fits ⊢
    rw [kqueue_unregister found]
    cases stale with
    | true =>
      rw [if_pos rfl] at fits ⊢
      rw [fits, kevent_deletions_nothing]
    | false =>
      rw [if_neg Bool.false_ne_true, Option.getD_some] at fits ⊢
      rw [toSides_and, toSides_and, toSides_not, fits,
        kevent_deletions (fun on => (Bool.and_eq_true_iff.mp on).1) fun on => (Bool.and_eq_true_iff.mp on).1]
      apply Sides.eq_of
      · cases (toSides existing).input <;> simp
      · cases (toSides existing).output <;> simp
  · intro filters fd entry stale fits
    unfold FilteredExactly
    cases entry with
    | none => exact (Function.update_self ..).trans toSides_zero.symm
    | some _ => exact Function.update_self ..
  · exact fun _ _ _ _ _ _ => kqueue_registerApart
  · exact fun _ _ _ _ _ => kqueue_unregisterApart
  · exact fun _ _ _ other => Function.update_of_ne other _ _

/-- `kqueue` has the filters of the table at least, on every descriptor that was not closed while the table had it. It has no
    others when no descriptor is registered again after it was closed so, and no call is refused half way. -/
theorem filters_follow_table {calls : List (PollerCall Sides)} {p : Poller (Fd → Sides)}
    (reached : run (Poller.step kqueue) { kernel := fun _ => {} } calls = some p) :
    p.Sound ∧
      (∀ fd, fd ∉ p.stale → ((toSides (pollerMask p.fds fd)).input = true → (p.kernel fd).input = true) ∧
        ((toSides (pollerMask p.fds fd)).output = true → (p.kernel fd).output = true)) ∧
      (Along (Poller.step kqueue) (Poller.Allows Whole) { kernel := fun _ => {} } calls →
        ∀ fd, p.kernel fd = if fd ∈ p.stale then {} else toSides (pollerMask p.fds fd)) := by
  have first : ({ kernel := fun _ => {} } : Poller (Fd → Sides)).Sound := ⟨List.nodup_nil, Nat.zero_le _, by decide, by simp⟩
  have both : p.Sound ∧ p.Tracks Filtered := by
    refine @Runs.invariant_of_run _ _ _ (fun p => p.Sound ∧ p.Tracks Filtered) _ _ _ ?_ ?_ reached
    · exact ⟨first, fun _ => filtered_none {}⟩
    · rintro s call t ⟨sound, tracks⟩ taken
      have allows : s.Allows (fun _ _ _ _ => True) call := by
        cases call <;> trivial
      exact ⟨Poller.step_sound sound taken, Poller.step_tracks kqueue_keeps sound tracks allows taken⟩
  refine ⟨both.1, fun fd open_ => both.2 fd (decide_eq_false open_), ?_⟩
  intro along fd
  have exactly : p.Sound ∧ p.Tracks FilteredExactly := by
    refine @Runs.along_invariant _ _ _ _ (fun p => p.Sound ∧ p.Tracks FilteredExactly) _ _ _ ?_ ?_ along reached
    · exact ⟨first, fun _ => toSides_zero.symm⟩
    · rintro s call t ⟨sound, tracks⟩ allows taken
      exact ⟨Poller.step_sound sound taken, Poller.step_tracks kqueue_keeps_exactly sound tracks allows taken⟩
  have here := exactly.2 fd
  unfold FilteredExactly at here
  rw [here]
  simp only [decide_eq_true_eq]
  rfl

/-- The second of two changes is refused: the first stays in the kernel, and the table does not know of it. -/
theorem filters_follow_table_refused : ∃ p, run (Poller.step kqueue) { kernel := fun _ => {} }
    [.register 5 eventRead true true ⟨true, true⟩, .register 7 (eventRead ||| eventWrite) true true ⟨true, false⟩] = some p ∧
    (p.kernel 5).input = true ∧ findFd p.fds 7 = none ∧ p.kernel 7 = ⟨true, false⟩ := by
  refine ⟨_, rfl, ?_, by decide, by decide⟩
  have known := (@filters_follow_table [.register 5 eventRead true true ⟨true, true⟩,
    .register 7 (eventRead ||| eventWrite) true true ⟨true, false⟩] _ rfl).2.1 5
  exact (known (by decide)).1 (by decide)

end BlueBird.Runtime
