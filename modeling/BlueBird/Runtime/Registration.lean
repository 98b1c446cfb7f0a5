import BlueBird.Runtime.Operations
import Mathlib.Data.List.Induction

namespace BlueBird.Runtime

/-! ## Masks by their bits -/

theorem mask_eq_zero_iff (mask : Events) : mask = 0 ↔ ∀ i, mask.getLsbD i = false := by
  constructor
  · rintro rfl i
    exact BitVec.getLsbD_zero
  · intro clear
    apply BitVec.eq_of_getLsbD_eq
    intro i _
    rw [clear i]
    exact BitVec.getLsbD_zero.symm

theorem mask_eq_iff (a b : Events) : a = b ↔ ∀ i, a.getLsbD i = true ↔ b.getLsbD i = true := by
  constructor
  · rintro rfl i
    exact Iff.rfl
  · intro same
    apply BitVec.eq_of_getLsbD_eq
    intro i _
    exact Bool.eq_iff_iff.mpr (same i)

theorem mask_bit_lt {mask : Events} {i : Nat} (bit : mask.getLsbD i = true) : i < 32 := by
  by_contra beyond
  rw [BitVec.getLsbD_of_ge mask i (by omega)] at bit
  cases bit

def Polled (fds : List PollFd) (fd : Fd) (i : Nat) : Prop :=
  ∃ p ∈ fds, p.fd = fd ∧ p.events.getLsbD i = true

def Watched (watchers : List Watcher) (fd : Fd) (i : Nat) : Prop :=
  ∃ w ∈ watchers, w.fd = fd ∧ w.events.getLsbD i = true

theorem polled_perm {fds fds' : List PollFd} (moved : fds.Perm fds') (fd : Fd) (i : Nat) :
    Polled fds fd i ↔ Polled fds' fd i := by
  simp only [Polled, moved.mem_iff]

@[simp] theorem polled_cons (p : PollFd) (fds : List PollFd) (fd : Fd) (i : Nat) :
    Polled (p :: fds) fd i ↔ (p.fd = fd ∧ p.events.getLsbD i = true) ∨ Polled fds fd i := by
  simp [Polled]

/-! ## The poller's table -/

/-- A table with one entry for a descriptor, none of them empty. -/
structure Tabled (fds : List PollFd) : Prop where
  unique : (fds.map (·.fd)).Nodup
  armed : ∀ p ∈ fds, p.events ≠ 0

def pollerMask (fds : List PollFd) (fd : Fd) : Events :=
  ((fds.find? (·.fd = fd)).map (·.events)).getD 0

theorem tabled_perm {fds fds' : List PollFd} (moved : fds.Perm fds') (table : Tabled fds) : Tabled fds' :=
  ⟨((moved.map _).nodup_iff).mp table.unique, fun p member => table.armed p (moved.mem_iff.mpr member)⟩

theorem pollerMask_bit {fds : List PollFd} (table : Tabled fds) (fd : Fd) (i : Nat) :
    (pollerMask fds fd).getLsbD i = true ↔ Polled fds fd i := by
  have unique := table.unique
  clear table
  unfold pollerMask
  induction fds with
  | nil => simp [Polled]
  | cons p fds ih =>
    rw [List.map_cons, List.nodup_cons] at unique
    by_cases here : p.fd = fd
    · subst here
      have absent : ¬Polled fds p.fd i := by
        rintro ⟨q, member, same, _⟩
        exact unique.1 (List.mem_map.mpr ⟨q, member, same⟩)
      simp [absent]
    · have next := ih unique.2
      simpa [here] using next

theorem registered_iff_polled {fds : List PollFd} (table : Tabled fds) (fd : Fd) :
    (∃ p ∈ fds, p.fd = fd) ↔ ∃ i, Polled fds fd i := by
  constructor
  · rintro ⟨p, member, same⟩
    by_contra none
    apply table.armed p member
    rw [mask_eq_zero_iff]
    intro i
    by_contra bit
    exact none ⟨i, p, member, same, by simpa using bit⟩
  · rintro ⟨_, p, member, same, _⟩
    exact ⟨p, member, same⟩

theorem pollerRegister_cases (fds : List PollFd) (fd : Fd) (events : Events) :
    ((∀ p ∈ fds, p.fd ≠ fd) ∧ (pollerRegister fds fd events).Perm (⟨fd, events⟩ :: fds)) ∨
    ∃ p rest, p.fd = fd ∧ fds.Perm (p :: rest) ∧
      (pollerRegister fds fd events).Perm ({ p with events := p.events ||| events } :: rest) := by
  unfold pollerRegister
  split
  · rename_i idx found
    obtain ⟨p, rest, _, same, before, after, _⟩ := SwapRemove.modify_split (·.fd = fd) fds idx found
      (fun p => { p with events := p.events ||| events })
    exact .inr ⟨p, rest, of_decide_eq_true same, before, after⟩
  · rename_i absent
    refine .inl ⟨?_, List.perm_append_singleton _ _⟩
    simpa using absent

theorem pollerUnregister_cases (fds : List PollFd) (fd : Fd) (events : Events) :
    ((∀ p ∈ fds, p.fd ≠ fd) ∧ pollerUnregister fds fd events = fds) ∨
    ∃ p rest, p.fd = fd ∧ fds.Perm (p :: rest) ∧
      (p.events &&& ~~~events = 0 ∧ (pollerUnregister fds fd events).Perm rest ∨
        p.events &&& ~~~events ≠ 0 ∧
          (pollerUnregister fds fd events).Perm ({ p with events := p.events &&& ~~~events } :: rest)) := by
  unfold pollerUnregister
  split
  · rename_i absent
    refine .inl ⟨?_, rfl⟩
    simpa using absent
  · rename_i idx found
    obtain ⟨p, rest, _, same, before, after, here⟩ := SwapRemove.modify_split (·.fd = fd) fds idx found
      (fun p => { p with events := p.events &&& ~~~events })
    refine .inr ⟨p, rest, of_decide_eq_true same, before, ?_⟩
    dsimp only
    by_cases empty : p.events &&& ~~~events = 0
    · rw [if_pos (by rw [here, Option.map_some, empty])]
      have removed := SwapRemove.swapRemove_perm _ _ _ here
      exact .inl ⟨empty, (after.symm.trans removed).cons_inv.symm⟩
    · rw [if_neg (by rw [here, Option.map_some, Option.some_inj]; exact empty)]
      exact .inr ⟨empty, after⟩

theorem polled_register (fds : List PollFd) (fd : Fd) (events : Events) (x : Fd) (i : Nat) :
    Polled (pollerRegister fds fd events) x i ↔
      Polled fds x i ∨ (fd = x ∧ events.getLsbD i = true) := by
  rcases pollerRegister_cases fds fd events with ⟨_, after⟩ | ⟨p, rest, rfl, before, after⟩
  · rw [polled_perm after, polled_cons]
    exact Or.comm
  · rw [polled_perm after, polled_perm before, polled_cons, polled_cons]
    simp only [BitVec.getLsbD_or, Bool.or_eq_true]
    tauto

theorem tabled_register {fds : List PollFd} (table : Tabled fds) (fd : Fd) {events : Events}
    (some : events ≠ 0) : Tabled (pollerRegister fds fd events) := by
  rcases pollerRegister_cases fds fd events with ⟨absent, after⟩ | ⟨p, rest, rfl, before, after⟩
  · apply tabled_perm after.symm
    refine ⟨?_, ?_⟩
    · rw [List.map_cons, List.nodup_cons]
      refine ⟨?_, table.unique⟩
      rintro listed
      obtain ⟨p, member, same⟩ := List.mem_map.mp listed
      exact absent p member same
    · intro p member
      rcases List.mem_cons.mp member with rfl | old
      · exact some
      · exact table.armed p old
  · obtain ⟨unique, armed⟩ := tabled_perm before table
    apply tabled_perm after.symm
    refine ⟨unique, ?_⟩
    intro q member
    rcases List.mem_cons.mp member with rfl | old
    · intro zero
      exact some (BitVec.or_eq_zero_iff.mp zero).2
    · exact armed q (List.mem_cons_of_mem _ old)

theorem polled_unregister {fds : List PollFd} (table : Tabled fds) (fd : Fd) (events : Events) (x : Fd)
    (i : Nat) :
    Polled (pollerUnregister fds fd events) x i ↔
      Polled fds x i ∧ ¬(fd = x ∧ events.getLsbD i = true) := by
  rcases pollerUnregister_cases fds fd events with ⟨absent, same⟩ | ⟨p, rest, rfl, before, after⟩
  · rw [same]
    constructor
    · rintro ⟨p, member, rfl, bit⟩
      exact ⟨⟨p, member, rfl, bit⟩, fun hit => absent p member hit.1.symm⟩
    · exact And.left
  · have unique := (tabled_perm before table).unique
    rw [List.map_cons, List.nodup_cons] at unique
    have elsewhere : Polled rest x i → p.fd ≠ x := by
      rintro ⟨q, member, rfl, _⟩ same
      exact unique.1 (List.mem_map.mpr ⟨q, member, same.symm⟩)
    have cleared : (p.events &&& ~~~events).getLsbD i = true ↔
        p.events.getLsbD i = true ∧ ¬events.getLsbD i = true := by
      rw [BitVec.getLsbD_and, BitVec.getLsbD_not, Bool.and_eq_true, Bool.and_eq_true,
        Bool.not_eq_true', Bool.not_eq_true, decide_eq_true_iff]
      constructor
      · rintro ⟨bit, _, kept⟩
        exact ⟨bit, kept⟩
      · rintro ⟨bit, kept⟩
        exact ⟨bit, mask_bit_lt bit, kept⟩
    rw [polled_perm before, polled_cons]
    rcases after with ⟨empty, after⟩ | ⟨_, after⟩
    · have none : ¬(p.events.getLsbD i = true ∧ ¬events.getLsbD i = true) := by
        rw [← cleared, (mask_eq_zero_iff _).mp empty i]
        decide
      rw [polled_perm after]
      tauto
    · rw [polled_perm after, polled_cons, cleared]
      tauto

theorem tabled_unregister {fds : List PollFd} (table : Tabled fds) (fd : Fd) (events : Events) :
    Tabled (pollerUnregister fds fd events) := by
  rcases pollerUnregister_cases fds fd events with ⟨_, same⟩ | ⟨p, rest, rfl, before, after⟩
  · rw [same]
    exact table
  · obtain ⟨unique, armed⟩ := tabled_perm before table
    rcases after with ⟨_, after⟩ | ⟨left, after⟩
    · apply tabled_perm after.symm
      rw [List.map_cons, List.nodup_cons] at unique
      exact ⟨unique.2, fun q member => armed q (List.mem_cons_of_mem _ member)⟩
    · apply tabled_perm after.symm
      refine ⟨unique, ?_⟩
      intro q member
      rcases List.mem_cons.mp member with rfl | old
      · exact left
      · exact armed q (List.mem_cons_of_mem _ old)

/-! ## Registration against the watchers -/

theorem fdRegisteredMask_bit (rt : State) (fd : Fd) (i : Nat) :
    (rt.fdRegisteredMask fd).getLsbD i = true ↔ Watched rt.watchers fd i := by
  have general (watchers : List Watcher) (mask : Events) :
      (watchers.foldl (fun mask w => if w.fd = fd then mask ||| w.events else mask) mask).getLsbD i = true ↔
        mask.getLsbD i = true ∨ Watched watchers fd i := by
    induction watchers generalizing mask with
    | nil => simp [Watched]
    | cons w watchers ih =>
      rw [List.foldl_cons, ih]
      by_cases same : w.fd = fd
      · simp [Watched, same, or_assoc]
      · simp [Watched, same]
  unfold State.fdRegisteredMask
  rw [general]
  simp

/-- The poller has the union of the watchers' masks, and just the watched descriptors. -/
def Registered (rt : State) : Prop :=
  ∀ fd, pollerMask rt.poller fd = rt.fdRegisteredMask fd ∧
    ((∃ p ∈ rt.poller, p.fd = fd) ↔ ∃ w ∈ rt.watchers, w.fd = fd)

theorem registered_iff {rt : State} (table : Tabled rt.poller) :
    Registered rt ↔ (∀ fd i, Polled rt.poller fd i ↔ Watched rt.watchers fd i) ∧
      ∀ w ∈ rt.watchers, ∃ i, Watched rt.watchers w.fd i := by
  have masks (fd : Fd) : pollerMask rt.poller fd = rt.fdRegisteredMask fd ↔
      ∀ i, Polled rt.poller fd i ↔ Watched rt.watchers fd i := by
    rw [mask_eq_iff]
    simp only [pollerMask_bit table, fdRegisteredMask_bit]
  constructor
  · intro registered
    have same (fd : Fd) := (masks fd).mp (registered fd).1
    refine ⟨same, ?_⟩
    intro w member
    obtain ⟨i, polled⟩ := (registered_iff_polled table w.fd).mp ((registered w.fd).2.mpr ⟨w, member, rfl⟩)
    exact ⟨i, (same w.fd i).mp polled⟩
  · rintro ⟨same, armed⟩ fd
    refine ⟨(masks fd).mpr (same fd), ?_⟩
    rw [registered_iff_polled table fd]
    constructor
    · rintro ⟨i, polled⟩
      obtain ⟨w, member, here, _⟩ := (same fd i).mp polled
      exact ⟨w, member, here⟩
    · rintro ⟨w, member, rfl⟩
      obtain ⟨i, watched⟩ := armed w member
      exact ⟨i, (same w.fd i).mpr watched⟩

/-- From `rt` to `rt'` the watchers in `gone` are removed, and each unregisters its own mask. -/
structure Retires (gone : Watcher → Bool) (rt rt' : State) : Prop where
  kept : rt'.watchers.Perm (rt.watchers.filter fun w => !gone w)
  tabled : Tabled rt.poller → Tabled rt'.poller
  polled : Tabled rt.poller → ∀ fd i, Polled rt'.poller fd i ↔
    Polled rt.poller fd i ∧ ∀ w ∈ rt.watchers, gone w = true → w.fd = fd → ¬w.events.getLsbD i = true

theorem retires_refl {gone : Watcher → Bool} {rt : State} (none : ∀ w ∈ rt.watchers, gone w = false) :
    Retires gone rt rt := by
  refine ⟨?_, id, ?_⟩
  · rw [List.filter_eq_self.mpr (by simpa using none)]
  · intro _ fd i
    refine ⟨fun polled => ⟨polled, ?_⟩, And.left⟩
    intro w member left
    rw [none w member] at left
    cases left

theorem retires_trans {first second : Watcher → Bool} {rt rt' rt'' : State} (left : Retires first rt rt')
    (right : Retires second rt' rt'') : Retires (fun w => first w || second w) rt rt'' := by
  refine ⟨?_, fun table => right.tabled (left.tabled table), ?_⟩
  · refine right.kept.trans ((left.kept.filter _).trans ?_)
    rw [List.filter_filter]
    simp [Bool.and_comm]
  · intro table fd i
    rw [right.polled (left.tabled table), left.polled table]
    have member (w : Watcher) : w ∈ rt'.watchers ↔ w ∈ rt.watchers ∧ first w = false := by
      simp [left.kept.mem_iff]
    simp only [member]
    constructor
    · rintro ⟨⟨polled, early⟩, late⟩
      refine ⟨polled, ?_⟩
      intro w here removed
      by_cases inFirst : first w = true
      · exact early w here inFirst
      · exact late w ⟨here, by simpa using inFirst⟩ (by simpa [inFirst] using removed)
    · rintro ⟨polled, clear⟩
      refine ⟨⟨polled, fun w here removed => clear w here (by simp [removed])⟩, ?_⟩
      exact fun w here removed => clear w here.1 (by simp [removed])

theorem unregister_fold (gone : Watcher → Bool) (order : List Watcher) (fds : List PollFd) (table : Tabled fds) :
    let after := order.foldl (fun fds w => if gone w then pollerUnregister fds w.fd w.events else fds) fds
    Tabled after ∧ ∀ fd i, Polled after fd i ↔
      Polled fds fd i ∧ ∀ w ∈ order, gone w = true → w.fd = fd → ¬w.events.getLsbD i = true := by
  induction order generalizing fds with
  | nil => simpa using table
  | cons w order ih =>
    rw [List.foldl_cons]
    by_cases removed : gone w = true
    · rw [if_pos removed]
      obtain ⟨tabled, polled⟩ := ih _ (tabled_unregister table w.fd w.events)
      refine ⟨tabled, ?_⟩
      intro fd i
      rw [polled, polled_unregister table]
      simp only [List.mem_cons, forall_eq_or_imp, removed, true_imp_iff, not_and]
      tauto
    · rw [if_neg removed]
      obtain ⟨tabled, polled⟩ := ih _ table
      refine ⟨tabled, ?_⟩
      intro fd i
      rw [polled]
      simp [removed]

theorem removeWatchers_retires (rt : State) (t : TaskId) :
    Retires (fun w => w.task = t) rt (rt.removeWatchers t) := by
  obtain ⟨kept, order, visits, after⟩ := rt.removeWatchers_spec t
  have fold (table : Tabled rt.poller) :=
    unregister_fold (fun w => w.task = t) order rt.poller table
  simp only [decide_eq_true_eq] at fold
  refine ⟨by simpa using kept, ?_, ?_⟩
  · intro table
    rw [after]
    exact (fold table).1
  · intro table fd i
    rw [after, (fold table).2]
    simp [visits.mem_iff]

def fires (ready : PollFd) (w : Watcher) : Bool := w.matches ready && w.mode = .oneshot

theorem deliver_poller (ready : PollFd) (order : List Watcher) (rt : State) :
    (order.foldl (State.deliver ready) rt).poller =
      order.foldl (fun fds w => if fires ready w then pollerUnregister fds w.fd w.events else fds)
        rt.poller := by
  induction order generalizing rt with
  | nil => rfl
  | cons w order ih =>
    have one : (rt.deliver ready w).poller =
        if fires ready w then pollerUnregister rt.poller w.fd w.events else rt.poller := by
      unfold State.deliver fires
      by_cases hit : w.matches ready = true
      · by_cases single : w.mode = .oneshot
        · simp [hit, single]
        · simp [hit, single]
      · simp [hit]
    rw [List.foldl_cons, List.foldl_cons, ih, one]

theorem dispatchEvent_retires (rt : State) (ready : PollFd) :
    Retires (fires ready) rt (rt.dispatchEvent ready) := by
  obtain ⟨order, left, visits, after, kept⟩ := rt.dispatchEvent_spec ready
  have poller : (rt.dispatchEvent ready).poller = (order.foldl (State.deliver ready) rt).poller := by
    rw [after]
  rw [deliver_poller] at poller
  have fold (table : Tabled rt.poller) := unregister_fold (fires ready) order rt.poller table
  refine ⟨?_, ?_, ?_⟩
  · rw [after]
    exact kept
  · intro table
    rw [poller]
    exact (fold table).1
  · intro table fd i
    rw [poller, (fold table).2]
    simp [visits.mem_iff]

theorem wait_retires (rt : State) (ready : List PollFd) :
    Retires (fun w => ready.any (fires · w)) rt (rt.wait ready) := by
  unfold State.wait
  induction ready generalizing rt with
  | nil => exact retires_refl (by simp)
  | cons event ready ih =>
    rw [List.foldl_cons]
    have both := retires_trans (dispatchEvent_retires rt event) (ih (rt.dispatchEvent event))
    simpa using both

/-- Entries that go share no event with one of their descriptor that stays, and what stays of a
    descriptor still asks for some event. -/
structure Separate (watchers : List Watcher) (gone : Watcher → Bool) : Prop where
  apart : ∀ w ∈ watchers, gone w = false → ∀ v ∈ watchers, gone v = true → v.fd = w.fd →
    v.events &&& w.events = 0
  armed : ∀ w ∈ watchers, gone w = false → ∃ v ∈ watchers, gone v = false ∧ v.fd = w.fd ∧ v.events ≠ 0

theorem retires_registered {gone : Watcher → Bool} {rt rt' : State} (table : Tabled rt.poller)
    (registered : Registered rt) (retires : Retires gone rt rt') :
    Registered rt' ↔ Separate rt.watchers gone := by
  have same := ((registered_iff table).mp registered).1
  have member (w : Watcher) : w ∈ rt'.watchers ↔ w ∈ rt.watchers ∧ gone w = false := by
    simp [retires.kept.mem_iff]
  have disjoint (v w : Watcher) :
      v.events &&& w.events = 0 ↔ ∀ i, ¬(v.events.getLsbD i = true ∧ w.events.getLsbD i = true) := by
    simp only [mask_eq_zero_iff, BitVec.getLsbD_and, ← Bool.and_eq_true, Bool.not_eq_true]
  rw [registered_iff (retires.tabled table)]
  constructor
  · rintro ⟨after, armed⟩
    refine ⟨?_, ?_⟩
    · intro w here stays v there goes fd
      rw [disjoint]
      rintro i ⟨lost, bit⟩
      have polled := (after w.fd i).mpr ⟨w, (member w).mpr ⟨here, stays⟩, rfl, bit⟩
      exact ((retires.polled table w.fd i).mp polled).2 v there goes fd lost
    · intro w here stays
      obtain ⟨i, v, kept, fd, bit⟩ := armed w ((member w).mpr ⟨here, stays⟩)
      obtain ⟨there, left⟩ := (member v).mp kept
      refine ⟨v, there, left, fd, ?_⟩
      intro zero
      rw [(mask_eq_zero_iff _).mp zero i] at bit
      cases bit
  · rintro ⟨apart, armed⟩
    refine ⟨?_, ?_⟩
    · intro fd i
      rw [retires.polled table, same]
      constructor
      · rintro ⟨⟨w, here, fdW, bit⟩, clear⟩
        refine ⟨w, (member w).mpr ⟨here, ?_⟩, fdW, bit⟩
        by_contra goes
        exact clear w here (by simpa using goes) fdW bit
      · rintro ⟨w, kept, rfl, bit⟩
        obtain ⟨here, stays⟩ := (member w).mp kept
        refine ⟨⟨w, here, rfl, bit⟩, ?_⟩
        intro v there goes fd lost
        exact (disjoint v w).mp (apart w here stays v there goes fd) i ⟨lost, bit⟩
    · intro w kept
      obtain ⟨here, stays⟩ := (member w).mp kept
      obtain ⟨v, there, left, fd, some⟩ := armed w here stays
      by_contra none
      apply some
      rw [mask_eq_zero_iff]
      intro i
      by_contra bit
      exact none ⟨i, v, (member v).mpr ⟨there, left⟩, fd, by simpa using bit⟩

/-! ## Sessions -/

/-- A runtime and the task that `bb_runtime_watch_fd_ex` will create next. -/
structure Session where
  rt : State := {}
  next : TaskId := 0

inductive Operation where
  | watchFd (fd : Fd) (events : Events) (mode : WatchMode)
  | unwatchFd (fd : Fd)
  | cancelTask (t : TaskId)
  | poll (ready : List PollFd)
  deriving DecidableEq, Repr

namespace Session

def perform (s : Session) : Operation → Session
  | .watchFd fd events mode => ⟨s.rt.watchFd fd events mode s.next, s.next + 1⟩
  | .unwatchFd fd => ⟨(s.rt.unwatchFd fd).1, s.next⟩
  | .cancelTask t => ⟨s.rt.cancelTask t, s.next⟩
  | .poll ready => ⟨s.rt.wait ready, s.next⟩

def run (operations : List Operation) : Session := operations.foldl perform {}

def Clean (s : Session) : Operation → Prop
  | .watchFd fd events _ =>
    (s.rt.findWatcherExact fd events).isSome = true ∨ s.rt.fdRegisteredMask fd ||| events ≠ 0
  | .unwatchFd fd => s.rt.fdRegisteredMask fd &&& ~~~(eventRead ||| eventWrite) = 0
  | .cancelTask t => Separate s.rt.watchers fun w => w.task = t
  | .poll ready => Separate s.rt.watchers fun w => ready.any (fires · w)

/-- What holds of every session, clean or not. -/
structure Ordered (s : Session) : Prop where
  tabled : Tabled s.rt.poller
  created : ∀ w ∈ s.rt.watchers, w.task < s.next
  single : (s.rt.watchers.map (·.task)).Nodup

theorem ordered_of_retires {gone : Watcher → Bool} {s : Session} {rt' : State} (ordered : s.Ordered)
    (retires : Retires gone s.rt rt') : Ordered ⟨rt', s.next⟩ := by
  obtain ⟨tabled, created, single⟩ := ordered
  refine ⟨retires.tabled tabled, ?_, ?_⟩
  · intro w member
    exact created w (List.mem_filter.mp (retires.kept.mem_iff.mp member)).1
  · refine ((retires.kept.map _).nodup_iff).mpr ?_
    exact single.sublist (List.filter_sublist.map _)

theorem cancelTask_retires (rt : State) (t : TaskId) :
    Retires (fun w => w.task = t) rt (rt.cancelTask t) := by
  obtain ⟨kept, tabled, polled⟩ := removeWatchers_retires ((rt.markCancelled t).markFinalized t) t
  have watchers : (rt.cancelTask t).watchers =
      (((rt.markCancelled t).markFinalized t).removeWatchers t).watchers := (State.schedule_frame _ t).2.1
  have poller : (rt.cancelTask t).poller =
      (((rt.markCancelled t).markFinalized t).removeWatchers t).poller := (State.schedule_frame _ t).1
  refine ⟨?_, ?_, ?_⟩
  · rw [watchers]
    exact kept
  · rw [poller]
    exact tabled
  · rw [poller]
    exact polled

theorem dropWatcher_poller (fd : Fd) (order : List Watcher) (rt : State) :
    (order.foldl (State.dropWatcher fd) rt).poller = rt.poller := by
  induction order generalizing rt with
  | nil => rfl
  | cons w order ih =>
    rw [List.foldl_cons, ih]
    unfold State.dropWatcher
    split
    · exact (State.schedule_frame _ w.task).1
    · rfl

theorem unwatchFd_poller (rt : State) (fd : Fd) :
    (rt.unwatchFd fd).1.poller = pollerUnregister rt.poller fd (eventRead ||| eventWrite) ∧
      (rt.unwatchFd fd).1.watchers.Perm (rt.watchers.filter fun w => w.fd ≠ fd) := by
  obtain ⟨order, kept, _, after, left⟩ := rt.unwatchFd_spec fd
  rw [after]
  exact ⟨dropWatcher_poller fd order _, left⟩

theorem unwatchFd_registered {rt : State} (table : Tabled rt.poller) (registered : Registered rt) (fd : Fd) :
    Registered (rt.unwatchFd fd).1 ↔ rt.fdRegisteredMask fd &&& ~~~(eventRead ||| eventWrite) = 0 := by
  obtain ⟨same, armed⟩ := (registered_iff table).mp registered
  obtain ⟨poller, kept⟩ := unwatchFd_poller rt fd
  have member (w : Watcher) : w ∈ (rt.unwatchFd fd).1.watchers ↔ w ∈ rt.watchers ∧ w.fd ≠ fd := by
    simp [kept.mem_iff]
  have tabled : Tabled (rt.unwatchFd fd).1.poller := by
    rw [poller]
    exact tabled_unregister table _ _
  have watched (x : Fd) (i : Nat) : Watched (rt.unwatchFd fd).1.watchers x i ↔ Watched rt.watchers x i ∧ fd ≠ x := by
    constructor
    · rintro ⟨w, here, rfl, bit⟩
      exact ⟨⟨w, ((member w).mp here).1, rfl, bit⟩, Ne.symm ((member w).mp here).2⟩
    · rintro ⟨⟨w, here, rfl, bit⟩, other⟩
      exact ⟨w, (member w).mpr ⟨here, Ne.symm other⟩, rfl, bit⟩
  have polled (x : Fd) (i : Nat) : Polled (rt.unwatchFd fd).1.poller x i ↔
      Watched rt.watchers x i ∧ ¬(fd = x ∧ (eventRead ||| eventWrite).getLsbD i = true) := by
    rw [poller, polled_unregister table, same]
  have left : rt.fdRegisteredMask fd &&& ~~~(eventRead ||| eventWrite) = 0 ↔
      ∀ i, Watched rt.watchers fd i → (eventRead ||| eventWrite).getLsbD i = true := by
    rw [mask_eq_zero_iff]
    apply forall_congr'
    intro i
    rw [← fdRegisteredMask_bit rt fd i, BitVec.getLsbD_and, BitVec.getLsbD_not]
    constructor
    · intro clear bit
      by_contra outside
      rw [bit, decide_eq_true (mask_bit_lt bit), eq_false_of_ne_true outside] at clear
      cases clear
    · intro inside
      by_cases bit : (rt.fdRegisteredMask fd).getLsbD i = true
      · simp [inside bit]
      · simp [bit]
  rw [registered_iff tabled, left]
  constructor
  · rintro ⟨agree, _⟩ i here
    by_contra outside
    exact ((watched fd i).mp ((agree fd i).mp ((polled fd i).mpr ⟨here, fun hit => outside hit.2⟩))).2 rfl
  · intro inside
    refine ⟨?_, ?_⟩
    · intro x i
      rw [polled, watched]
      constructor
      · rintro ⟨here, outside⟩
        refine ⟨here, ?_⟩
        rintro rfl
        exact outside ⟨rfl, inside i here⟩
      · rintro ⟨here, other⟩
        exact ⟨here, fun hit => other hit.1⟩
    · intro w kept
      obtain ⟨here, other⟩ := (member w).mp kept
      obtain ⟨i, bit⟩ := armed w here
      exact ⟨i, (watched w.fd i).mpr ⟨bit, Ne.symm other⟩⟩

theorem registered_congr {rt rt' : State} (poller : rt'.poller = rt.poller)
    (same : rt'.watchers.map (fun w => (w.fd, w.events)) = rt.watchers.map fun w => (w.fd, w.events)) :
    Registered rt' ↔ Registered rt := by
  have mask (fd : Fd) (rt : State) : rt.fdRegisteredMask fd =
      (rt.watchers.map fun w => (w.fd, w.events)).foldl
        (fun mask w => if w.1 = fd then mask ||| w.2 else mask) 0 := by
    rw [List.foldl_map]
    rfl
  have some (fd : Fd) (rt : State) : (∃ w ∈ rt.watchers, w.fd = fd) ↔
      ∃ w ∈ rt.watchers.map fun w => (w.fd, w.events), w.1 = fd := by
    simp
  unfold Registered
  simp only [poller, mask, some, same]

/-- A watcher for exactly the same events takes the new task, and no watcher of another task goes
    with the old one. -/
theorem watchFd_replace {s : Session} (ordered : s.Ordered) (fd : Fd) (events : Events) (mode : WatchMode)
    (idx : Nat) (found : s.rt.findWatcherExact fd events = some idx) :
    ∃ placed : State, placed.poller = s.rt.poller ∧
      placed.watchers = s.rt.watchers.modify idx (fun w => { w with mode, task := s.next }) ∧
      Retires (fun _ => false) placed (s.rt.watchFd fd events mode s.next) ∧
      (placed.watchers.map (·.task)).Nodup ∧ ∀ w ∈ placed.watchers, w.task < s.next + 1 := by
  obtain ⟨w, rest, here, _, before, after, _⟩ := SwapRemove.modify_split _ s.rt.watchers idx found
    (fun w => { w with mode, task := s.next })
  have single := ((before.map (·.task)).nodup_iff).mp ordered.single
  rw [List.map_cons, List.nodup_cons] at single
  have created (v : Watcher) (member : v ∈ w :: rest) : v.task < s.next :=
    ordered.created v (before.mem_iff.mpr member)
  have old : w.task < s.next := created w (List.mem_cons_self ..)
  have others (v : Watcher) (member : v ∈ rest) : v.task < s.next := created v (List.mem_cons_of_mem _ member)
  obtain ⟨placed, place⟩ : ∃ placed, (s.rt.createTask s.next).placeWatcher fd events mode s.next =
      (placed, some w.task) ∧ placed.poller = s.rt.poller ∧
        placed.watchers = s.rt.watchers.modify idx (fun w => { w with mode, task := s.next }) := by
    have exact : (s.rt.createTask s.next).findWatcherExact fd events = some idx := found
    have task : ((s.rt.createTask s.next).watchers[idx]?).map (·.task) = some w.task := by
      show (s.rt.watchers[idx]?).map (·.task) = some w.task
      rw [here]
      rfl
    have kept : (some w.task).filter (· ≠ s.next) = some w.task := by
      simp [Nat.ne_of_lt old]
    unfold State.placeWatcher
    simp only [exact, task, kept]
    refine ⟨_, rfl, ?_, rfl⟩
    cases mode
    · rfl
    · rfl
  obtain ⟨place, poller, watchers⟩ := place
  refine ⟨placed, poller, watchers, ?_, ?_, ?_⟩
  · have final : s.rt.watchFd fd events mode s.next = placed.cancelTask w.task := by
      unfold State.watchFd
      rw [place]
    have untouched : ∀ v ∈ placed.watchers, decide (v.task = w.task) = false := by
      intro v member
      rw [watchers, after.mem_iff, List.mem_cons] at member
      apply decide_eq_false
      rcases member with rfl | member
      · exact Nat.ne_of_gt old
      · intro same
        exact single.1 (List.mem_map.mpr ⟨v, member, same⟩)
    obtain ⟨kept, tabled, polled⟩ := cancelTask_retires placed w.task
    rw [final]
    refine ⟨?_, tabled, ?_⟩
    · rw [List.filter_congr (q := fun _ => !false)] at kept
      · exact kept
      · intro v member
        rw [untouched v member]
    · intro table x i
      rw [polled table]
      constructor
      · exact fun ⟨polled, _⟩ => ⟨polled, fun _ _ none => by cases none⟩
      · refine fun ⟨polled, _⟩ => ⟨polled, ?_⟩
        intro v member same
        rw [untouched v member] at same
        cases same
  · rw [watchers, (after.map _).nodup_iff, List.map_cons, List.nodup_cons]
    refine ⟨?_, single.2⟩
    intro listed
    obtain ⟨v, member, same⟩ := List.mem_map.mp listed
    exact Nat.ne_of_lt (others v member) same
  · intro v member
    rw [watchers, after.mem_iff, List.mem_cons] at member
    rcases member with rfl | member
    · exact Nat.lt_succ_self _
    · exact Nat.lt_succ_of_lt (others v member)

/-- The other case of `_watch_fd`. -/
theorem watchFd_append {s : Session} (fd : Fd) (events : Events) (mode : WatchMode)
    (absent : s.rt.findWatcherExact fd events = none) :
    let rt' := s.rt.watchFd fd events mode s.next
    let mask := s.rt.fdRegisteredMask fd
    rt'.watchers = s.rt.watchers ++ [⟨fd, events, mode, s.next⟩] ∧
      rt'.poller = if mask ||| events ≠ mask then
        pollerRegister (if mask ≠ 0 then pollerUnregister s.rt.poller fd mask else s.rt.poller) fd (mask ||| events)
      else s.rt.poller := by
  have none : (s.rt.createTask s.next).findWatcherExact fd events = none := absent
  unfold State.watchFd State.placeWatcher
  simp only [none]
  cases mode
  · exact ⟨rfl, rfl⟩
  · exact ⟨rfl, rfl⟩

theorem watchFd_tabled {s : Session} (ordered : s.Ordered) (fd : Fd) (events : Events) (mode : WatchMode)
    (absent : s.rt.findWatcherExact fd events = none) : Tabled (s.rt.watchFd fd events mode s.next).poller := by
  rw [(watchFd_append fd events mode absent).2]
  split
  · rename_i grows
    have some : s.rt.fdRegisteredMask fd ||| events ≠ 0 := by
      intro zero
      apply grows
      rw [zero, (BitVec.or_eq_zero_iff.mp zero).1]
      rfl
    apply tabled_register _ fd some
    split
    · exact tabled_unregister ordered.tabled _ _
    · exact ordered.tabled
  · exact ordered.tabled

theorem registered_replace {s : Session} (ordered : s.Ordered) (registered : Registered s.rt) (fd : Fd)
    (events : Events) (mode : WatchMode) {idx : Nat} (found : s.rt.findWatcherExact fd events = some idx) :
    Registered (s.rt.watchFd fd events mode s.next) := by
  obtain ⟨placed, poller, watchers, retires, _⟩ := watchFd_replace ordered fd events mode idx found
  have unchanged : placed.watchers.map (fun w => (w.fd, w.events)) =
      s.rt.watchers.map fun w => (w.fd, w.events) := by
    rw [watchers]
    apply List.ext_getElem?
    intro k
    simp only [List.getElem?_map, List.getElem?_modify]
    cases s.rt.watchers[k]? with
    | none => rfl
    | some w => by_cases here : idx = k <;> simp [here]
  have before : Registered placed := (registered_congr poller unchanged).mpr registered
  have table : Tabled placed.poller := by rw [poller]; exact ordered.tabled
  rw [retires_registered table before retires]
  refine ⟨?_, ?_⟩
  · intro _ _ _ _ _ none
    cases none
  · intro w member _
    obtain ⟨i, v, there, fd, bit⟩ := ((registered_iff table).mp before).2 w member
    refine ⟨v, there, rfl, fd, ?_⟩
    intro zero
    rw [(mask_eq_zero_iff _).mp zero i] at bit
    cases bit

section Append

variable {s : Session} (ordered : s.Ordered) (registered : Registered s.rt) (fd : Fd) (events : Events) (mode : WatchMode)
  (absent : s.rt.findWatcherExact fd events = none)

theorem mask_joined_bit (rt : State) (fd : Fd) (events : Events) (i : Nat) :
    (rt.fdRegisteredMask fd ||| events).getLsbD i = true ↔ Watched rt.watchers fd i ∨ events.getLsbD i = true := by
  rw [BitVec.getLsbD_or, Bool.or_eq_true, fdRegisteredMask_bit]

include absent in
theorem watched_append (x : Fd) (i : Nat) : Watched (s.rt.watchFd fd events mode s.next).watchers x i ↔
    Watched s.rt.watchers x i ∨ (fd = x ∧ events.getLsbD i = true) := by
  rw [(watchFd_append fd events mode absent).1]
  simp [Watched, or_and_right, exists_or]

include ordered registered absent in
theorem polled_append (x : Fd) (i : Nat) : Polled (s.rt.watchFd fd events mode s.next).poller x i ↔
    Watched (s.rt.watchFd fd events mode s.next).watchers x i := by
  have same := ((registered_iff ordered.tabled).mp registered).1
  have joined := mask_joined_bit s.rt fd events i
  rw [watched_append fd events mode absent, (watchFd_append fd events mode absent).2]
  split
  · rw [polled_register, joined]
    split
    · rw [polled_unregister ordered.tabled, same, fdRegisteredMask_bit]
      by_cases here : fd = x
      · subst here
        tauto
      · tauto
    · rw [same]
      by_cases here : fd = x
      · subst here
        tauto
      · tauto
  · rename_i still
    rw [ne_eq, not_not] at still
    rw [same]
    constructor
    · exact .inl
    · rintro (old | ⟨rfl, bit⟩)
      · exact old
      · rw [← fdRegisteredMask_bit, ← still, joined]
        exact .inr bit

include ordered registered absent in
theorem registered_append : Registered (s.rt.watchFd fd events mode s.next) ↔ s.rt.fdRegisteredMask fd ||| events ≠ 0 := by
  have watchers := (watchFd_append (s := s) fd events mode absent).1
  have watched := watched_append (s := s) fd events mode absent
  have armed := ((registered_iff ordered.tabled).mp registered).2
  rw [registered_iff (watchFd_tabled ordered fd events mode absent)]
  constructor
  · rintro ⟨_, some⟩ zero
    obtain ⟨i, bit⟩ := some ⟨fd, events, mode, s.next⟩ (by simp [watchers])
    have both := BitVec.or_eq_zero_iff.mp zero
    rcases (watched fd i).mp bit with old | ⟨_, new⟩
    · rw [← fdRegisteredMask_bit, (mask_eq_zero_iff _).mp both.1 i] at old
      cases old
    · rw [(mask_eq_zero_iff _).mp both.2 i] at new
      cases new
  · intro some
    refine ⟨polled_append ordered registered fd events mode absent, ?_⟩
    intro w member
    rw [watchers, List.mem_append, List.mem_singleton] at member
    rcases member with old | rfl
    · obtain ⟨i, bit⟩ := armed w old
      exact ⟨i, (watched w.fd i).mpr (.inl bit)⟩
    · by_contra none
      apply some
      rw [mask_eq_zero_iff]
      intro i
      by_contra bit
      rw [Bool.not_eq_false, mask_joined_bit] at bit
      apply none
      refine ⟨i, (watched fd i).mpr ?_⟩
      rcases bit with old | new
      · exact .inl old
      · exact .inr ⟨rfl, new⟩

end Append

theorem watchFd_registered {s : Session} (ordered : s.Ordered) (registered : Registered s.rt) (fd : Fd)
    (events : Events) (mode : WatchMode) :
    Registered (s.rt.watchFd fd events mode s.next) ↔ s.Clean (.watchFd fd events mode) := by
  show _ ↔ (s.rt.findWatcherExact fd events).isSome = true ∨ s.rt.fdRegisteredMask fd ||| events ≠ 0
  cases found : s.rt.findWatcherExact fd events with
  | some idx => exact iff_of_true (registered_replace ordered registered fd events mode found) (.inl rfl)
  | none =>
    simp only [Option.isSome_none, Bool.false_eq_true, false_or]
    exact registered_append ordered registered fd events mode found

theorem perform_ordered {s : Session} (ordered : s.Ordered) (operation : Operation) :
    (s.perform operation).Ordered := by
  cases operation with
  | watchFd fd events mode =>
    cases found : s.rt.findWatcherExact fd events with
    | some idx =>
      obtain ⟨placed, poller, _, retires, single, created⟩ := watchFd_replace ordered fd events mode idx found
      exact ordered_of_retires (s := ⟨placed, s.next + 1⟩) ⟨by rw [poller]; exact ordered.tabled, created, single⟩
        retires
    | none =>
      obtain ⟨watchers, _⟩ := watchFd_append (s := s) fd events mode found
      refine ⟨watchFd_tabled ordered fd events mode found, ?_, ?_⟩
      · intro w member
        show w.task < s.next + 1
        replace member : w ∈ (s.rt.watchFd fd events mode s.next).watchers := member
        rw [watchers, List.mem_append, List.mem_singleton] at member
        rcases member with old | rfl
        · exact Nat.lt_succ_of_lt (ordered.created w old)
        · exact Nat.lt_succ_self _
      · show ((s.rt.watchFd fd events mode s.next).watchers.map (·.task)).Nodup
        rw [watchers, List.map_append, List.nodup_append]
        refine ⟨ordered.single, by simp, ?_⟩
        intro a listed b new
        obtain ⟨w, member, rfl⟩ := List.mem_map.mp listed
        obtain rfl := by simpa using new
        exact Nat.ne_of_lt (ordered.created w member)
  | unwatchFd fd =>
    obtain ⟨poller, kept⟩ := unwatchFd_poller s.rt fd
    refine ⟨?_, ?_, ?_⟩
    · show Tabled (s.rt.unwatchFd fd).1.poller
      rw [poller]
      exact tabled_unregister ordered.tabled _ _
    · intro w member
      exact ordered.created w (List.mem_filter.mp (kept.mem_iff.mp member)).1
    · refine ((kept.map _).nodup_iff).mpr ?_
      exact ordered.single.sublist (List.filter_sublist.map _)
  | cancelTask t => exact ordered_of_retires ordered (cancelTask_retires s.rt t)
  | poll ready => exact ordered_of_retires ordered (wait_retires s.rt ready)

theorem perform_registered_iff {s : Session} (ordered : s.Ordered) (registered : Registered s.rt)
    (operation : Operation) : Registered (s.perform operation).rt ↔ s.Clean operation := by
  cases operation with
  | watchFd fd events mode => exact watchFd_registered ordered registered fd events mode
  | unwatchFd fd => exact unwatchFd_registered ordered.tabled registered fd
  | cancelTask t => exact retires_registered ordered.tabled registered (cancelTask_retires s.rt t)
  | poll ready => exact retires_registered ordered.tabled registered (wait_retires s.rt ready)

theorem run_ordered (operations : List Operation) : (run operations).Ordered := by
  induction operations using List.reverseRecOn with
  | nil => exact ⟨⟨List.nodup_nil, by simp [run]⟩, by simp [run], List.nodup_nil⟩
  | append_singleton operations operation ih =>
    rw [run, List.foldl_concat]
    exact perform_ordered ih operation

/-- Registration is right in every state of a run exactly when no operation of it mixes masks. -/
theorem registered_iff_clean (operations : List Operation) :
    (∀ before, before <+: operations → Registered (run before).rt) ↔
      ∀ before operation, before ++ [operation] <+: operations → (run before).Clean operation := by
  have next (before : List Operation) (operation : Operation) :
      run (before ++ [operation]) = (run before).perform operation := by
    rw [run, List.foldl_concat]
    rfl
  constructor
  · intro registered before operation inside
    have here := registered before ((List.prefix_append _ _).trans inside)
    have after := registered _ inside
    rw [next] at after
    exact (perform_registered_iff (run_ordered before) here operation).mp after
  · intro clean before inside
    induction before using List.reverseRecOn with
    | nil =>
      intro fd
      exact ⟨rfl, by simp [run]⟩
    | append_singleton before operation ih =>
      have here := ih ((List.prefix_append _ _).trans inside)
      rw [next]
      exact (perform_registered_iff (run_ordered before) here operation).mpr (clean before operation inside)

/-- A one-shot READ watcher takes the READ bit of a persistent READ|WRITE watcher with it. -/
theorem not_registered_overlap : ¬∀ operations, Registered (run operations).rt := by
  intro registered
  have mask := (registered [.watchFd 5 eventRead .oneshot, .watchFd 5 (eventRead ||| eventWrite) .persistent,
    .poll [⟨5, eventRead⟩]] 5).1
  revert mask
  decide

end Session
end BlueBird.Runtime
