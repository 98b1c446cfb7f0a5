import BlueBird.Collections.RoundRobin
import BlueBird.Runtime.State

namespace BlueBird.Runtime

open RoundRobin

/-- What the kernel says of a descriptor; `failed` stands for the error and hang-up bits. -/
structure Revents where
  input : Bool := false
  output : Bool := false
  failed : Bool := false
  deriving DecidableEq, Repr

/-- What the bits mean to someone who is interested in `events`. -/
def Revents.triggered (revents : Revents) (interest : Events) : Events :=
  (if revents.input then eventRead else 0) ||| (if revents.output then eventWrite else 0) |||
    if revents.failed then interest else 0

/-! ## The `poll` back end -/

/-- The scan of `_bb_poller_backend_wait` around the table, after `seen` entries. -/
def scanTable (fds : List PollFd) (revents : Fd → Revents) (maxEvents start : Nat) :
    Nat → Nat → List PollFd → List PollFd × Nat
  | 0, seen, events => (events, seen)
  | fuel + 1, seen, events =>
    if events.length < maxEvents then
      match fds[(start + seen) % fds.length]? with
      | none => (events, seen)
      | some entry =>
        let triggered := (revents entry.fd).triggered entry.events
        scanTable fds revents maxEvents start fuel (seen + 1)
          (if triggered = 0 then events else events ++ [⟨entry.fd, triggered⟩])
    else (events, seen)

/-- `_bb_poller_backend_wait` of `poll.c`, with the cursor it leaves. -/
def pollWait (fds : List PollFd) (maxEvents : Nat) (scanCursor : Nat) (revents : Fd → Revents) : List PollFd × Nat :=
  if fds.all fun entry => revents entry.fd = {} then ([], scanCursor)
  else
    let start := scanCursor % fds.length
    let (events, seen) := scanTable fds revents maxEvents start fds.length 0 []
    (events, (start + seen) % fds.length)

/-! ## The `epoll` back end -/

/-- `_from_epoll_events` for everything the kernel reports. -/
def readyEvents (fds : List PollFd) (reported : List (Fd × Revents)) : List PollFd :=
  reported.filterMap fun event =>
    let interest := match fds.find? (·.fd = event.1) with
      | some entry => entry.events
      | none => eventRead ||| eventWrite
    let triggered := event.2.triggered interest &&& interest
    if triggered = 0 then none else some ⟨event.1, triggered⟩

/-- `_bb_poller_backend_wait` of `epoll.c`, with the descriptor it resumes after. The kernel is told how many
    events it may report. -/
def epollWait (fds : List PollFd) (maxEvents : Nat) (scanFd : Fd) (kernel : Nat → List (Fd × Revents)) : List PollFd × Fd :=
  let ready := readyEvents fds (kernel (max fds.length maxEvents))
  if ready.length ≤ maxEvents then (ready, scanFd)
  else
    let sorted := ready.mergeSort fun x y => x.fd ≤ y.fd
    let start := (sorted.takeWhile (·.fd ≤ scanFd)).length
    let events := (List.range maxEvents).filterMap fun k => sorted[(start + k) % sorted.length]?
    (events, (events.getLast?.map PollFd.fd).getD scanFd)

/-! ## The scan around the table -/

def reported (revents : Fd → Revents) (entry : PollFd) : Option PollFd :=
  let triggered := (revents entry.fd).triggered entry.events
  if triggered = 0 then none else some ⟨entry.fd, triggered⟩

theorem scanTable_spec {fds : List PollFd} {revents : Fd → Revents} {maxEvents start fuel seen : Nat} {events : List PollFd}
    (rest : seen + fuel = fds.length)
    (so : events = ((fds.rotate start).take seen).filterMap (reported revents)) (few : events.length ≤ maxEvents) :
    ∃ last, last ≤ fds.length ∧
      scanTable fds revents maxEvents start fuel seen events =
        (((fds.rotate start).take last).filterMap (reported revents), last) ∧
      (((fds.rotate start).take last).filterMap (reported revents)).length ≤ maxEvents ∧
      ((((fds.rotate start).take last).filterMap (reported revents)).length < maxEvents → last = fds.length) := by
  induction fuel generalizing seen events with
  | zero =>
    subst so
    exact ⟨seen, by omega, rfl, few, fun _ => by omega⟩
  | succ fuel ih =>
    unfold scanTable
    by_cases room : events.length < maxEvents
    · rw [if_pos room]
      have bound : (start + seen) % fds.length < fds.length := Nat.mod_lt _ (by omega)
      have here : fds[(start + seen) % fds.length]? = some (fds.get ⟨_, bound⟩) := List.getElem?_eq_getElem bound
      have place : (fds.rotate start)[seen]? = some (fds.get ⟨_, bound⟩) := by
        rw [List.getElem?_rotate (by omega), Nat.add_comm seen start]
        exact here
      rw [here]
      dsimp only
      have grown : ((fds.rotate start).take (seen + 1)).filterMap (reported revents) =
          events ++ (reported revents (fds.get ⟨_, bound⟩)).toList := by
        rw [List.take_add_one, place, List.filterMap_append, ← so]
        cases found : reported revents (fds.get ⟨_, bound⟩)
        · rw [Option.toList_some, List.filterMap_cons_none found]
          rfl
        · rw [Option.toList_some, List.filterMap_cons_some found]
          rfl
      apply ih
      · omega
      · rw [grown]
        unfold reported
        dsimp only
        split
        · exact (List.append_nil _).symm
        · rfl
      · split
        · exact few
        · rw [List.length_append, List.length_singleton]
          exact room
    · rw [if_neg room]
      refine ⟨seen, by omega, by rw [so], by rw [← so]; exact few, ?_⟩
      intro less
      rw [← so] at less
      exact absurd less room

/-! ## Fairness of `poll` -/

def readyOf (ready : List Fd) (entries : List PollFd) : List Fd := (entries.map PollFd.fd).filter (· ∈ ready)

theorem readyOf_append (ready : List Fd) (front back : List PollFd) :
    readyOf ready (front ++ back) = readyOf ready front ++ readyOf ready back := by
  unfold readyOf
  rw [List.map_append, List.filter_append]

/-- The kernel finds ready just those descriptors of the table that are. -/
def FindsReady (fds : List PollFd) (ready : List Fd) (revents : Fd → Revents) : Prop :=
  ∀ entry ∈ fds, (revents entry.fd).triggered entry.events ≠ 0 ↔ entry.fd ∈ ready

theorem map_reported {fds : List PollFd} {ready : List Fd} {revents : Fd → Revents} (finds : FindsReady fds ready revents)
    {entries : List PollFd} (inside : ∀ entry ∈ entries, entry ∈ fds) :
    (entries.filterMap (reported revents)).map PollFd.fd = readyOf ready entries := by
  induction entries with
  | nil => rfl
  | cons entry entries ih =>
    have rest := ih fun other member => inside other (List.mem_cons_of_mem entry member)
    have known := finds entry (inside entry (List.mem_cons_self ..))
    unfold readyOf at rest ⊢
    rw [List.map_cons]
    by_cases idle : (revents entry.fd).triggered entry.events = 0
    · have none_ : reported revents entry = none := by
        unfold reported
        rw [if_pos idle]
      have absent : entry.fd ∉ ready := fun member => known.mpr member idle
      rw [List.filterMap_cons_none none_, rest, List.filter_cons_of_neg (by simpa using absent)]
    · have found : reported revents entry = some ⟨entry.fd, (revents entry.fd).triggered entry.events⟩ := by
        unfold reported
        rw [if_neg idle]
      have present : entry.fd ∈ ready := known.mp idle
      rw [List.filterMap_cons_some found, List.map_cons, rest, List.filter_cons_of_pos (by simpa using present)]

/-- The ready descriptors in the order in which a wait comes to them. -/
def pollRing (fds : List PollFd) (ready : List Fd) (scanCursor : Nat) : List Fd := readyOf ready (fds.rotate scanCursor)

theorem pollWait_takes {fds : List PollFd} {ready : List Fd} (filled : ∃ fd ∈ ready, fd ∈ fds.map PollFd.fd) (maxEvents : Nat) :
    Takes maxEvents (pollRing fds ready) (FindsReady fds ready)
      fun cursor revents => ((pollWait fds maxEvents cursor revents).1.map PollFd.fd, (pollWait fds maxEvents cursor revents).2) := by
  rcases filled with ⟨fd, member, registered⟩
  rcases List.mem_map.mp registered with ⟨entry, present, rfl⟩
  have wait (cursor : Nat) (revents : Fd → Revents) (finds : FindsReady fds ready revents) : ∃ front back,
      front ++ back = pollRing fds ready cursor ∧ front.length ≤ maxEvents ∧ (front.length < maxEvents → back = []) ∧
      (pollWait fds maxEvents cursor revents).1.map PollFd.fd = front ∧
      pollRing fds ready (pollWait fds maxEvents cursor revents).2 = back ++ front := by
    have busy : ¬(fds.all fun entry => revents entry.fd = {}) = true := by
      intro all
      have idle := of_decide_eq_true (List.all_eq_true.mp all entry present)
      apply (finds entry present).mpr member
      rw [idle]
      show (0 : Events) ||| 0 ||| 0 = 0
      decide
    rcases @scanTable_spec fds revents maxEvents (cursor % fds.length) fds.length 0 [] (Nat.zero_add _) rfl (Nat.zero_le _)
      with ⟨last, bound, scan, few, short⟩
    have inside : ∀ entry ∈ (fds.rotate (cursor % fds.length)).take last, entry ∈ fds := by
      intro other found
      exact List.mem_rotate.mp (List.mem_of_mem_take found)
    have names := map_reported finds inside
    have width := congrArg List.length names
    rw [List.length_map] at width
    rw [width] at few short
    refine ⟨readyOf ready ((fds.rotate (cursor % fds.length)).take last),
      readyOf ready ((fds.rotate (cursor % fds.length)).drop last), ?_, few, ?_, ?_, ?_⟩
    · rw [← readyOf_append, List.take_append_drop]
      unfold pollRing
      rw [List.rotate_mod]
    · intro less
      rw [short less, List.drop_eq_nil_of_le (by rw [List.length_rotate])]
      rfl
    · unfold pollWait
      rw [if_neg busy]
      dsimp only
      rw [scan]
      exact names
    · unfold pollWait pollRing
      rw [if_neg busy]
      dsimp only
      rw [scan, List.rotate_mod, ← List.rotate_rotate, List.rotate_eq_drop_append_take (by rw [List.length_rotate]; exact bound),
        readyOf_append]
  constructor
  · intro cursor revents finds
    rcases wait cursor revents finds with ⟨front, back, ring, few, short, report, _⟩
    rw [report, ← ring]
    by_cases full : front.length < maxEvents
    · rw [short full, List.append_nil, List.take_of_length_le few]
    · rw [List.take_left' (by omega)]
  · intro cursor revents finds
    rcases wait cursor revents finds with ⟨front, back, ring, few, short, _, next⟩
    rw [next, ← ring]
    unfold turn
    by_cases full : front.length < maxEvents
    · rw [short full, List.append_nil, if_neg (by omega), List.nil_append]
    · have exact_ : maxEvents = front.length := by omega
      split
      · rw [exact_, List.rotate_append_length_eq]
      · rename_i wide
        rw [List.length_append] at wide
        have empty : back = [] := List.length_eq_zero_iff.mp (by omega)
        rw [empty, List.append_nil, List.nil_append]

/-! ## Fairness of `epoll` -/

/-- The kernel reports every ready descriptor once when there is room for all, with something of what is asked for. -/
def ReportsReady (fds : List PollFd) (ready : List Fd) (kernel : Nat → List (Fd × Revents)) : Prop :=
  ∀ room, ready.length ≤ room → ((kernel room).map Prod.fst).Perm ready ∧ ∀ event ∈ kernel room, ∀ entry ∈ fds,
    entry.fd = event.1 → event.2.triggered entry.events &&& entry.events ≠ 0

theorem map_readyEvents {fds : List PollFd} {events : List (Fd × Revents)} (known : ∀ event ∈ events, event.1 ∈ fds.map PollFd.fd)
    (wanted : ∀ event ∈ events, ∀ entry ∈ fds, entry.fd = event.1 → event.2.triggered entry.events &&& entry.events ≠ 0) :
    (readyEvents fds events).map PollFd.fd = events.map Prod.fst := by
  unfold readyEvents
  induction events with
  | nil => rfl
  | cons event events ih =>
    have rest := ih (fun other member => known other (List.mem_cons_of_mem event member))
      (fun other member => wanted other (List.mem_cons_of_mem event member))
    cases found : fds.find? (·.fd = event.1) with
    | none =>
      rcases List.mem_map.mp (known event (List.mem_cons_self ..)) with ⟨entry, member, same⟩
      have absent := List.find?_eq_none.mp found entry member
      exact absurd (decide_eq_true same) absent
    | some entry =>
      have hit := List.find?_some found
      have same : entry.fd = event.1 := of_decide_eq_true hit
      have some_ := wanted event (List.mem_cons_self ..) entry (List.mem_of_find?_eq_some found) same
      rw [List.filterMap_cons_some (b := ⟨event.1, event.2.triggered entry.events &&& entry.events⟩)]
      · rw [List.map_cons, rest, List.map_cons]
      · rw [found]
        exact if_neg some_

def ascendingFds (fds : List Fd) : List Fd := fds.mergeSort fun x y => x ≤ y

theorem ascendingFds_pairwise (fds : List Fd) : (ascendingFds fds).Pairwise (· ≤ ·) := by
  have sorted : (ascendingFds fds).Pairwise fun x y => decide (x ≤ y) = true := by
    apply List.pairwise_mergeSort
    · intro a b c first second
      exact decide_eq_true (Int.le_trans (of_decide_eq_true first) (of_decide_eq_true second))
    · intro a b
      rw [Bool.or_eq_true, decide_eq_true_eq, decide_eq_true_eq]
      exact Int.le_total a b
  exact sorted.imp fun le => of_decide_eq_true le

theorem ascendingFds_strict {fds : List Fd} (distinct : fds.Nodup) : (ascendingFds fds).Pairwise (· < ·) := by
  have apart : (ascendingFds fds).Pairwise (· ≠ ·) := (List.mergeSort_perm fds _).nodup_iff.mpr distinct
  exact ((ascendingFds_pairwise fds).and apart).imp fun both => Int.lt_iff_le_and_ne.mpr both

theorem ascendingFds_congr {fds fds' : List Fd} (same : fds.Perm fds') : ascendingFds fds = ascendingFds fds' := by
  have perm : (ascendingFds fds).Perm (ascendingFds fds') :=
    ((List.mergeSort_perm fds _).trans same).trans (List.mergeSort_perm fds' _).symm
  exact List.Perm.eq_of_pairwise (fun a b _ _ first second => Int.le_antisymm first second) (ascendingFds_pairwise fds)
    (ascendingFds_pairwise fds') perm

/-- The ready descriptors in ascending order, from the one after `scanFd` on. -/
def epollRing (ready : List Fd) (scanFd : Fd) : List Fd :=
  (ascendingFds ready).rotate ((ascendingFds ready).takeWhile (· ≤ scanFd)).length

theorem epollRing_perm (ready : List Fd) (scanFd : Fd) : (epollRing ready scanFd).Perm ready :=
  (List.rotate_perm _ _).trans (List.mergeSort_perm ready _)

theorem readyEvents_perm {fds : List PollFd} {ready : List Fd} (distinct : ready.Nodup)
    (registered : ∀ fd ∈ ready, fd ∈ fds.map PollFd.fd) {kernel : Nat → List (Fd × Revents)} (reports : ReportsReady fds ready kernel)
    (maxEvents : Nat) : ((readyEvents fds (kernel (max fds.length maxEvents))).map PollFd.fd).Perm ready := by
  have few := (List.subperm_of_subset distinct registered).length_le
  rw [List.length_map] at few
  rcases reports (max fds.length maxEvents) (by omega) with ⟨names, wanted⟩
  rw [map_readyEvents _ wanted]
  · exact names
  · intro event member
    exact registered event.1 (names.mem_iff.mp (List.mem_map_of_mem member))

theorem epollWait_wide {fds : List PollFd} {ready : List Fd} {maxEvents : Nat} {kernel : Nat → List (Fd × Revents)}
    (names : ((readyEvents fds (kernel (max fds.length maxEvents))).map PollFd.fd).Perm ready) (wide : maxEvents < ready.length)
    (scanFd : Fd) : (epollWait fds maxEvents scanFd kernel).1.map PollFd.fd = (epollRing ready scanFd).take maxEvents ∧
      (epollWait fds maxEvents scanFd kernel).2 = (((epollRing ready scanFd).take maxEvents).getLast?).getD scanFd := by
  have count := names.length_eq
  rw [List.length_map] at count
  have sorted : ((readyEvents fds (kernel (max fds.length maxEvents))).mergeSort fun x y => x.fd ≤ y.fd).map PollFd.fd =
      ascendingFds ready := by
    rw [List.map_mergeSort (s := fun x y : Fd => decide (x ≤ y)) fun _ _ _ _ => rfl]
    exact ascendingFds_congr names
  have start : (((readyEvents fds (kernel (max fds.length maxEvents))).mergeSort fun x y => x.fd ≤ y.fd).takeWhile
      (·.fd ≤ scanFd)).length = ((ascendingFds ready).takeWhile (· ≤ scanFd)).length := by
    rw [← sorted, List.takeWhile_map, List.length_map]
    rfl
  unfold epollWait
  dsimp only
  rw [if_neg (by omega), filterMap_range _ _ (by rw [List.length_mergeSort]; omega), start]
  have report : ((((readyEvents fds (kernel (max fds.length maxEvents))).mergeSort fun x y => x.fd ≤ y.fd).rotate
      ((ascendingFds ready).takeWhile (· ≤ scanFd)).length).take maxEvents).map PollFd.fd =
      (epollRing ready scanFd).take maxEvents := by
    rw [List.map_take, List.map_rotate, sorted]
    rfl
  refine ⟨report, ?_⟩
  rw [← List.getLast?_map, report]

theorem epollRing_next {ready : List Fd} (distinct : ready.Nodup) {maxEvents : Nat} (positive : 0 < maxEvents)
    (wide : maxEvents < ready.length) (scanFd : Fd) :
    epollRing ready ((((epollRing ready scanFd).take maxEvents).getLast?).getD scanFd) =
      (epollRing ready scanFd).rotate maxEvents := by
  have count : (ascendingFds ready).length = ready.length := List.length_mergeSort ready
  have bound : (((ascendingFds ready).takeWhile (· ≤ scanFd)).length + (maxEvents - 1)) % ready.length <
      (ascendingFds ready).length := by
    rw [count]
    exact Nat.mod_lt _ (by omega)
  have found : ∃ x, (ascendingFds ready)[(((ascendingFds ready).takeWhile (· ≤ scanFd)).length + (maxEvents - 1)) %
      ready.length]? = some x := ⟨_, List.getElem?_eq_getElem bound⟩
  rcases found with ⟨x, here⟩
  have last : ((epollRing ready scanFd).take maxEvents).getLast? = some x := by
    have length : ((epollRing ready scanFd).take maxEvents).length = maxEvents := by
      rw [List.length_take, (epollRing_perm ready scanFd).length_eq]
      omega
    rw [List.getLast?_eq_getElem?, length, List.getElem?_take_of_lt (by omega)]
    unfold epollRing
    rw [List.getElem?_rotate (by omega), count, Nat.add_comm]
    exact here
  rw [last, Option.getD_some]
  unfold epollRing
  rw [length_takeWhile_le (ascendingFds_strict distinct) here, List.rotate_rotate, ← List.rotate_mod, count, Nat.mod_add_mod, ← count,
    List.rotate_mod]
  congr 1
  omega

theorem epollWait_takes {fds : List PollFd} {ready : List Fd} (distinct : ready.Nodup)
    (registered : ∀ fd ∈ ready, fd ∈ fds.map PollFd.fd) {maxEvents : Nat} (positive : 0 < maxEvents) :
    Takes maxEvents (epollRing ready) (ReportsReady fds ready)
      fun scanFd kernel => ((epollWait fds maxEvents scanFd kernel).1.map PollFd.fd, (epollWait fds maxEvents scanFd kernel).2) := by
  have narrow {scanFd : Fd} {kernel : Nat → List (Fd × Revents)} (reports : ReportsReady fds ready kernel)
      (fits : ready.length ≤ maxEvents) :
      epollWait fds maxEvents scanFd kernel = (readyEvents fds (kernel (max fds.length maxEvents)), scanFd) := by
    have count := (readyEvents_perm distinct registered reports maxEvents).length_eq
    rw [List.length_map] at count
    unfold epollWait
    dsimp only
    rw [if_pos (by omega)]
  constructor
  · intro scanFd kernel reports
    have names := readyEvents_perm distinct registered reports maxEvents
    by_cases wide : maxEvents < ready.length
    · dsimp only
      rw [(epollWait_wide names wide scanFd).1]
    · have ring := epollRing_perm ready scanFd
      rw [narrow reports (by omega), List.take_of_length_le (by rw [ring.length_eq]; omega)]
      exact names.trans ring.symm
  · intro scanFd kernel reports
    have names := readyEvents_perm distinct registered reports maxEvents
    have length := (epollRing_perm ready scanFd).length_eq
    unfold turn
    by_cases wide : maxEvents < ready.length
    · rw [if_pos (by omega)]
      dsimp only
      rw [(epollWait_wide names wide scanFd).2]
      exact epollRing_next distinct positive wide scanFd
    · rw [if_neg (by omega), narrow reports (by omega)]

/-! ## Waits in a row -/

/-- The descriptors that waits with the `poll` back end report one after the other. -/
def pollReports (fds : List PollFd) (maxEvents scanCursor : Nat) (answers : List (Fd → Revents)) : List (List Fd) :=
  reports (fun cursor revents => ((pollWait fds maxEvents cursor revents).1.map PollFd.fd, (pollWait fds maxEvents cursor revents).2))
    scanCursor answers

/-- The same with the `epoll` back end. -/
def epollReports (fds : List PollFd) (maxEvents : Nat) (scanFd : Fd) (kernels : List (Nat → List (Fd × Revents))) : List (List Fd) :=
  reports (fun last kernel => ((epollWait fds maxEvents last kernel).1.map PollFd.fd, (epollWait fds maxEvents last kernel).2))
    scanFd kernels

theorem pollRing_perm {fds : List PollFd} {ready : List Fd} (table : (fds.map PollFd.fd).Nodup) (distinct : ready.Nodup)
    (registered : ∀ fd ∈ ready, fd ∈ fds.map PollFd.fd) (scanCursor : Nat) : (pollRing fds ready scanCursor).Perm ready := by
  have turned : ((fds.rotate scanCursor).map PollFd.fd).Perm (fds.map PollFd.fd) := (List.rotate_perm fds scanCursor).map PollFd.fd
  have kept : (pollRing fds ready scanCursor).Nodup := (turned.nodup_iff.mpr table).sublist List.filter_sublist
  apply (List.perm_ext_iff_of_nodup kept distinct).mpr
  intro fd
  unfold pollRing readyOf
  rw [List.mem_filter, turned.mem_iff, decide_eq_true_eq]
  constructor
  · exact fun both => both.2
  · exact fun member => ⟨registered fd member, member⟩

/-- Waiting is fair with both back ends, wherever it resumes, as long as the same descriptors stay ready. -/
theorem waits_fair {fds : List PollFd} {ready : List Fd} (table : (fds.map PollFd.fd).Nodup) (distinct : ready.Nodup)
    (registered : ∀ fd ∈ ready, fd ∈ fds.map PollFd.fd) (filled : ready ≠ []) {maxEvents : Nat} (positive : 0 < maxEvents) :
    (∀ scanCursor answers, (∀ revents ∈ answers, FindsReady fds ready revents) →
      Fair maxEvents ready (pollReports fds maxEvents scanCursor answers)) ∧
    ∀ scanFd kernels, (∀ kernel ∈ kernels, ReportsReady fds ready kernel) →
      Fair maxEvents ready (epollReports fds maxEvents scanFd kernels) := by
  constructor
  · intro scanCursor answers finds
    rcases List.exists_mem_of_ne_nil ready filled with ⟨fd, member⟩
    have takes := pollWait_takes ⟨fd, member, registered fd member⟩ maxEvents
    exact takes.fair positive distinct scanCursor (pollRing_perm table distinct registered scanCursor) finds
  · intro scanFd kernels finds
    have takes := epollWait_takes distinct registered positive
    exact takes.fair positive distinct scanFd (epollRing_perm ready scanFd) finds

def threeFds : List PollFd := [⟨5, eventRead⟩, ⟨4, eventRead⟩, ⟨3, eventWrite⟩]

def twoReady (fd : Fd) : Revents := { input := fd = 5, output := fd = 3 }

def twoReported (room : Nat) : List (Fd × Revents) := [(5, { input := true }), (3, { failed := true })].take room

theorem waits_fair_two : Fair 1 [3, 5] (pollReports threeFds 1 2 (List.replicate 3 twoReady)) ∧
    Fair 1 [3, 5] (epollReports threeFds 1 4 (List.replicate 3 twoReported)) := by
  have fair := @waits_fair threeFds [3, 5] (by decide) (by decide) (by decide) (by decide) 1 (by decide)
  constructor
  · apply fair.1 2
    intro revents member
    have finds : FindsReady threeFds [3, 5] twoReady := by
      intro entry inside
      revert entry
      decide
    rw [List.eq_of_mem_replicate member]
    exact finds
  · apply fair.2 4
    intro kernel member
    have reports : ReportsReady threeFds [3, 5] twoReported := by
      intro room wide
      have all : twoReported room = [(5, { input := true }), (3, { failed := true })] := List.take_of_length_le wide
      rw [all]
      decide
    rw [List.eq_of_mem_replicate member]
    exact reports

example : pollReports threeFds 1 2 (List.replicate 3 twoReady) = [[3], [5], [3]] := by decide

end BlueBird.Runtime
