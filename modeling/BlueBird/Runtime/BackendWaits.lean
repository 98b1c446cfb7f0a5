import BlueBird.Runtime.Holdings
import BlueBird.Runtime.PollerBackends

/-! A turn of the loop does the same with every back end, up to the order. -/

namespace BlueBird.Runtime

open State

/-! ## What the kernels report -/

/-- What the kernel says of a descriptor that it polls for `sides`: an error or a hang-up is said whatever they are. -/
def Revents.asked (ready : Revents) (sides : Sides) : Revents :=
  { ready with input := ready.input && sides.input, output := ready.output && sides.output }

/-- The events of `epoll_wait`, with the descriptors in an order of the kernel's own. -/
def epollEvents (interest : Fd → Option Sides) (ready : Fd → Revents) (order : List Fd) (room : Nat) : List (Fd × Revents) :=
  (order.filterMap fun fd => (interest fd).bind fun sides =>
    if (ready fd).asked sides = {} then none else some (fd, (ready fd).asked sides)).take room

inductive Filter where
  | read | write
  deriving DecidableEq, Repr

/-- `struct kevent` as `kevent` fills it in; `eof` stands for `EV_EOF` and `EV_ERROR`. -/
structure KEvent where
  ident : Fd
  filter : Filter
  eof : Bool
  deriving DecidableEq, Repr

def kqueueReport (filters : Fd → Sides) (ready : Fd → Revents) (fd : Fd) : Filter → Option KEvent
  | .read => if (filters fd).input && ((ready fd).input || (ready fd).failed) then some ⟨fd, .read, (ready fd).failed⟩ else none
  | .write => if (filters fd).output && ((ready fd).output || (ready fd).failed) then some ⟨fd, .write, (ready fd).failed⟩ else none

/-- The events of `kevent`, with the filters in an order of the kernel's own. -/
def kqueueEvents (filters : Fd → Sides) (ready : Fd → Revents) (order : List (Fd × Filter)) (room : Nat) : List KEvent :=
  (order.filterMap fun known => kqueueReport filters ready known.1 known.2).take room

/-! ## The `kqueue` back end -/

def KEvent.triggered (event : KEvent) : Events :=
  (match event.filter with
    | .read => eventRead
    | .write => eventWrite) ||| if event.eof then eventRead ||| eventWrite else 0

/-- Puts an event with the others of its descriptor, or in a new place if there is room. -/
def coalesce (maxEvents : Nat) (coalesced : List PollFd) (event : KEvent) : List PollFd :=
  match coalesced.findIdx? (·.fd = event.ident) with
  | some idx => coalesced.modify idx fun p => { p with events := p.events ||| event.triggered }
  | none => if coalesced.length < maxEvents then coalesced ++ [⟨event.ident, 0 ||| event.triggered⟩] else coalesced

/-- `_bb_poller_backend_wait` of `kqueue.c` -/
def kqueueWait (maxEvents : Nat) (kernel : Nat → List KEvent) : List PollFd := (kernel maxEvents).foldl (coalesce maxEvents) []

/-! ## What a wait does with the watchers that it wakes -/

/-- States that differ in the order of their tables and of the queue only. -/
structure Alike (rt rt' : State) : Prop where
  running : rt.running = rt'.running
  timers : rt.timers = rt'.timers
  tasks : rt.tasks = rt'.tasks
  queue : rt.queue.Perm rt'.queue
  watchers : rt.watchers.Perm rt'.watchers
  poller : rt.poller.Perm rt'.poller

/-- Just the tasks of the watchers with `hit` are scheduled, each once. -/
structure Wakes (watchers : List Watcher) (hit : Watcher → Bool) (rt rt' : State) : Prop where
  running : rt'.running = rt.running
  timers : rt'.timers = rt.timers
  tasks : ∀ t, rt'.tasks t =
    if watchers.any (fun w => w.task = t && hit w) then { rt.tasks t with scheduled := true } else rt.tasks t
  queue : ∃ woken, rt'.queue = rt.queue ++ woken ∧ woken.Nodup ∧
    ∀ t, t ∈ woken ↔ (rt.tasks t).scheduled = false ∧ watchers.any (fun w => w.task = t && hit w) = true

theorem wakes_none {watchers : List Watcher} {hit : Watcher → Bool} (rt : State) (none : ∀ w ∈ watchers, hit w = false) :
    Wakes watchers hit rt rt := by
  have idle (t : TaskId) : watchers.any (fun w => w.task = t && hit w) = false := by
    rw [List.any_eq_false]
    intro w member
    rw [none w member, Bool.and_false]
    exact Bool.false_ne_true
  refine ⟨rfl, rfl, ?_, [], (List.append_nil _).symm, List.nodup_nil, ?_⟩
  · intro t
    rw [idle, if_neg Bool.false_ne_true]
  · intro t
    simp [idle t]

theorem wakes_congr {watchers watchers' : List Watcher} {hit hit' : Watcher → Bool} {rt rt' : State}
    (same : ∀ t, watchers.any (fun w => w.task = t && hit w) = watchers'.any (fun w => w.task = t && hit' w))
    (wakes : Wakes watchers hit rt rt') : Wakes watchers' hit' rt rt' := by
  rcases wakes with ⟨running, timers, tasks, woken, queue, distinct, member⟩
  refine ⟨running, timers, ?_, woken, queue, distinct, ?_⟩
  · intro t
    rw [tasks, same]
  · intro t
    rw [member, same]

theorem wakes_trans {first second all : List Watcher} {hit hit' hit'' : Watcher → Bool} {rt rt' rt'' : State}
    (left : Wakes first hit rt rt') (right : Wakes second hit' rt' rt'')
    (either : ∀ t, all.any (fun w => w.task = t && hit'' w) =
      (first.any (fun w => w.task = t && hit w) || second.any fun w => w.task = t && hit' w)) : Wakes all hit'' rt rt'' := by
  rcases left with ⟨running, timers, tasks, woken, queue, distinct, member⟩
  rcases right with ⟨running', timers', tasks', woken', queue', distinct', member'⟩
  have early (t : TaskId) : (rt'.tasks t).scheduled =
      ((rt.tasks t).scheduled || first.any fun w => w.task = t && hit w) := by
    rw [tasks]
    split
    · rename_i yes
      rw [yes, Bool.or_true]
    · rename_i no
      rw [(Bool.not_eq_true _).mp no, Bool.or_false]
  refine ⟨running'.trans running, timers'.trans timers, ?_, woken ++ woken', ?_, ?_, ?_⟩
  · intro t
    rw [tasks', tasks, either]
    cases first.any fun w => w.task = t && hit w <;> cases second.any fun w => w.task = t && hit' w <;> rfl
  · rw [queue', queue, List.append_assoc]
  · rw [List.nodup_append]
    refine ⟨distinct, distinct', ?_⟩
    rintro t old _ new rfl
    have idle := ((member' t).mp new).1
    rw [early, ((member t).mp old).2, Bool.or_true] at idle
    cases idle
  · intro t
    rw [List.mem_append, member, member', early, either]
    cases (rt.tasks t).scheduled <;> cases first.any fun w => w.task = t && hit w <;>
      cases second.any fun w => w.task = t && hit' w <;> decide

theorem schedule_wakes (rt : State) (w : Watcher) : Wakes [w] (fun _ => true) rt (rt.schedule w.task) := by
  have alone (t : TaskId) : ([w].any fun v => decide (v.task = t) && true) = decide (t = w.task) := by
    simp [eq_comm]
  refine ⟨(schedule_frame rt w.task).2.2.2, (schedule_frame rt w.task).2.2.1, ?_, ?_⟩
  · intro t
    rw [schedule_tasks, alone]
    simp only [decide_eq_true_eq]
  · unfold State.schedule
    by_cases already : (rt.tasks w.task).scheduled = true
    · rw [if_pos already]
      refine ⟨[], (List.append_nil _).symm, List.nodup_nil, ?_⟩
      intro t
      rw [alone, decide_eq_true_eq]
      constructor
      · intro member
        cases member
      · rintro ⟨idle, rfl⟩
        rw [already] at idle
        cases idle
    · rw [if_neg already]
      refine ⟨[w.task], rfl, List.nodup_singleton _, ?_⟩
      intro t
      rw [alone, decide_eq_true_eq, List.mem_singleton]
      constructor
      · rintro rfl
        exact ⟨(Bool.not_eq_true _).mp already, rfl⟩
      · exact And.right

theorem deliver_wakes (ready : PollFd) (rt : State) (w : Watcher) : Wakes [w] (·.matches ready) rt (rt.deliver ready w) := by
  unfold State.deliver
  by_cases hit : w.matches ready = true
  · rw [if_pos hit]
    have same (t : TaskId) : ([w].any fun v => v.task = t && true) = [w].any fun v => v.task = t && v.matches ready := by
      simp [hit]
    have wakes := wakes_congr same (schedule_wakes rt w)
    dsimp only
    split
    · exact { wakes with }
    · exact wakes
  · rw [if_neg hit]
    apply wakes_none
    simpa using hit

theorem foldl_deliver_wakes (ready : PollFd) (order : List Watcher) (rt : State) :
    Wakes order (·.matches ready) rt (order.foldl (State.deliver ready) rt) := by
  induction order generalizing rt with
  | nil => exact wakes_none rt (by simp)
  | cons w order ih =>
    rw [List.foldl_cons]
    apply wakes_trans (deliver_wakes ready rt w) (ih _)
    intro t
    simp

theorem any_perm {α : Type} {xs ys : List α} (moved : xs.Perm ys) (p : α → Bool) : xs.any p = ys.any p := by
  rw [Bool.eq_iff_iff, List.any_eq_true, List.any_eq_true]
  simp only [moved.mem_iff]

theorem dispatchEvent_wakes (rt : State) (ready : PollFd) : Wakes rt.watchers (·.matches ready) rt (rt.dispatchEvent ready) := by
  rcases rt.dispatchEvent_spec ready with ⟨order, kept, visits, after, _⟩
  rw [after]
  have wakes := wakes_congr (fun t => any_perm visits _) (foldl_deliver_wakes ready order rt)
  exact { wakes with }

/-- A watcher is hit by a report if something of what it waits for is in it. -/
def hitBy (report : List PollFd) (w : Watcher) : Bool := report.any fun ready => w.matches ready

theorem wait_wakes (rt : State) (report : List PollFd) : Wakes rt.watchers (hitBy report) rt (rt.wait report) := by
  unfold State.wait
  induction report generalizing rt with
  | nil => exact wakes_none rt fun _ _ => rfl
  | cons ready report ih =>
    rw [List.foldl_cons]
    apply wakes_trans (dispatchEvent_wakes rt ready) (ih _)
    intro t
    have kept := (dispatchEvent_retires rt ready).kept
    have hits (w : Watcher) : hitBy (ready :: report) w = (w.matches ready || hitBy report w) := rfl
    rw [any_perm kept, Bool.eq_iff_iff, Bool.or_eq_true]
    simp only [List.any_eq_true, Bool.and_eq_true, decide_eq_true_eq, hits, Bool.or_eq_true, List.mem_filter]
    constructor
    · rintro ⟨w, member, mine, now | later⟩
      · exact .inl ⟨w, member, mine, now⟩
      · by_cases now : w.matches ready = true
        · exact .inl ⟨w, member, mine, now⟩
        · refine .inr ⟨w, ⟨member, ?_⟩, mine, later⟩
          unfold fires
          rw [(Bool.not_eq_true _).mp now]
          rfl
    · rintro (⟨w, member, mine, now⟩ | ⟨w, ⟨member, _⟩, mine, later⟩)
      · exact ⟨w, member, mine, .inl now⟩
      · exact ⟨w, member, mine, .inr later⟩

theorem tabled_perm_of_polled {fds fds' : List PollFd} (table : Tabled fds) (table' : Tabled fds')
    (same : ∀ fd i, Polled fds fd i ↔ Polled fds' fd i) : fds.Perm fds' := by
  have inside {fds fds' : List PollFd} (table : Tabled fds) (table' : Tabled fds') (same : ∀ fd i, Polled fds fd i ↔ Polled fds' fd i)
      (p : PollFd) (member : p ∈ fds) : p ∈ fds' := by
    have masks : pollerMask fds p.fd = pollerMask fds' p.fd := by
      rw [mask_eq_iff]
      intro i
      rw [pollerMask_bit table, pollerMask_bit table', same]
    have here : findFd fds p.fd = some p.events := (findFd_eq_some table.unique p.fd p.events).mpr member
    have there : (findFd fds' p.fd).getD 0 = p.events := by
      rw [show (findFd fds' p.fd).getD 0 = pollerMask fds' p.fd from rfl, ← masks]
      exact congrArg (Option.getD · 0) here
    cases found : findFd fds' p.fd with
    | none =>
      rw [found] at there
      exact absurd there.symm (table.armed p member)
    | some events =>
      rw [found] at there
      cases there
      exact (findFd_eq_some table'.unique p.fd p.events).mp found
  have distinct {fds : List PollFd} (table : Tabled fds) : fds.Nodup := List.Nodup.of_map _ table.unique
  rw [List.perm_ext_iff_of_nodup (distinct table) (distinct table')]
  exact fun p => ⟨inside table table' same p, inside table' table (fun fd i => (same fd i).symm) p⟩

theorem any_fires (report : List PollFd) (w : Watcher) :
    (report.any (fires · w)) = (hitBy report w && decide (w.mode = .oneshot)) := by
  unfold hitBy
  induction report with
  | nil => rfl
  | cons ready report ih =>
    rw [List.any_cons, List.any_cons, ih, Bool.and_or_distrib_right]
    rfl

theorem wait_alike {rt : State} (table : Tabled rt.poller) {report report' : List PollFd}
    (same : ∀ w ∈ rt.watchers, hitBy report w = hitBy report' w) : Alike (rt.wait report) (rt.wait report') := by
  have first := wait_wakes rt report
  have second := wait_wakes rt report'
  have woken (t : TaskId) : (rt.watchers.any fun w => w.task = t && hitBy report w) =
      rt.watchers.any fun w => w.task = t && hitBy report' w := by
    rw [Bool.eq_iff_iff, List.any_eq_true, List.any_eq_true]
    constructor
    · rintro ⟨w, member, hit⟩
      exact ⟨w, member, by rw [← same w member]; exact hit⟩
    · rintro ⟨w, member, hit⟩
      exact ⟨w, member, by rw [same w member]; exact hit⟩
  have gone (w : Watcher) (member : w ∈ rt.watchers) : (report.any (fires · w)) = report'.any (fires · w) := by
    rw [any_fires, any_fires, same w member]
  have left := wait_retires rt report
  have right := wait_retires rt report'
  refine ⟨first.running.trans second.running.symm, first.timers.trans second.timers.symm, ?_, ?_, ?_, ?_⟩
  · funext t
    rw [first.tasks, second.tasks, woken]
  · rcases first.queue with ⟨front, queue, distinct, member⟩
    rcases second.queue with ⟨front', queue', distinct', member'⟩
    rw [queue, queue']
    apply List.Perm.append_left
    rw [List.perm_ext_iff_of_nodup distinct distinct']
    intro t
    rw [member, member', woken]
  · refine left.kept.trans (List.Perm.trans ?_ right.kept.symm)
    rw [List.filter_congr fun w member => by rw [gone w member]]
  · apply tabled_perm_of_polled (left.tabled table) (right.tabled table)
    intro fd i
    rw [left.polled table, right.polled table]
    constructor
    · rintro ⟨polled, clear⟩
      exact ⟨polled, fun w member removed => clear w member (by rw [gone w member]; exact removed)⟩
    · rintro ⟨polled, clear⟩
      exact ⟨polled, fun w member removed => clear w member (by rw [← gone w member]; exact removed)⟩

/-! ## The reports by their bits -/

theorem hitBy_iff (report : List PollFd) (w : Watcher) :
    hitBy report w = true ↔ ∃ i, w.events.getLsbD i = true ∧ Polled report w.fd i := by
  have matches_iff (ready : PollFd) : w.matches ready = true ↔
      w.fd = ready.fd ∧ ∃ i, w.events.getLsbD i = true ∧ ready.events.getLsbD i = true := by
    unfold Watcher.matches
    rw [decide_eq_true_eq, ne_eq, mask_eq_zero_iff]
    simp
  unfold hitBy Polled
  simp only [List.any_eq_true, matches_iff]
  constructor
  · rintro ⟨ready, member, here, i, wanted, told⟩
    exact ⟨i, wanted, ready, member, here.symm, told⟩
  · rintro ⟨i, wanted, ready, member, here, told⟩
    exact ⟨ready, member, here.symm, i, wanted, told⟩

def told (ready : Fd → Revents) (entry : PollFd) : Events := ((ready entry.fd).asked (toSides entry.events)).triggered entry.events

theorem triggered_idle (interest : Events) : ({} : Revents).triggered interest = 0 := by
  show (0 : Events) ||| 0 ||| 0 = 0
  decide

theorem getLsbD_eventRead (i : Nat) : eventRead.getLsbD i = decide (i = 0) := by
  show (1#32).getLsbD i = _
  rw [BitVec.getLsbD_one]
  simp

theorem getLsbD_eventWrite (i : Nat) : eventWrite.getLsbD i = decide (i = 1) := by
  show (BitVec.twoPow 32 1).getLsbD i = _
  rw [BitVec.getLsbD_twoPow]
  simp [eq_comm]

theorem told_bit (ready : Fd → Revents) (entry : PollFd) (i : Nat) : (told ready entry).getLsbD i = true ↔
    entry.events.getLsbD i = true ∧
      (i = 0 ∧ (ready entry.fd).input = true ∨ i = 1 ∧ (ready entry.fd).output = true ∨ (ready entry.fd).failed = true) := by
  unfold told Revents.triggered Revents.asked
  dsimp only
  have side (on : Bool) (mask : Events) : (if on = true then mask else 0).getLsbD i = (on && mask.getLsbD i) := by
    cases on with
    | false => exact BitVec.getLsbD_zero
    | true => rfl
  rw [toSides_input, toSides_output, BitVec.getLsbD_or, BitVec.getLsbD_or, side, side, side, getLsbD_eventRead, getLsbD_eventWrite]
  simp only [Bool.or_eq_true, Bool.and_eq_true, decide_eq_true_eq]
  constructor
  · rintro ((⟨⟨input, wanted⟩, rfl⟩ | ⟨⟨output, wanted⟩, rfl⟩) | ⟨failed, wanted⟩)
    · exact ⟨wanted, .inl ⟨rfl, input⟩⟩
    · exact ⟨wanted, .inr (.inl ⟨rfl, output⟩)⟩
    · exact ⟨wanted, .inr (.inr failed)⟩
  · rintro ⟨wanted, ⟨rfl, input⟩ | ⟨rfl, output⟩ | failed⟩
    · exact .inl (.inl ⟨⟨input, wanted⟩, rfl⟩)
    · exact .inl (.inr ⟨⟨output, wanted⟩, rfl⟩)
    · exact .inr ⟨failed, wanted⟩

section Reports

variable {fds : List PollFd} {ready : Fd → Revents} {maxEvents : Nat} (table : Tabled fds) (room : fds.length ≤ maxEvents)

def Told (fds : List PollFd) (ready : Fd → Revents) (fd : Fd) (i : Nat) : Prop :=
  ∃ entry ∈ fds, entry.fd = fd ∧ (told ready entry).getLsbD i = true

include table in
theorem mask_of_mem {entry : PollFd} (member : entry ∈ fds) : pollerMask fds entry.fd = entry.events :=
  congrArg (Option.getD · 0) ((findFd_eq_some table.unique entry.fd entry.events).mpr member)

theorem polled_filterMap {α : Type} {xs : List α} {report : α → Option PollFd} (fd : Fd) (i : Nat)
    (sound : ∀ x ∈ xs, ∀ p, report x = some p → ∃ entry ∈ fds, entry.fd = p.fd ∧ p.events = told ready entry)
    (complete : ∀ entry ∈ fds, told ready entry ≠ 0 → ∃ x ∈ xs, report x = some ⟨entry.fd, told ready entry⟩) :
    Polled (xs.filterMap report) fd i ↔ Told fds ready fd i := by
  unfold Polled Told
  simp only [List.mem_filterMap]
  constructor
  · rintro ⟨p, ⟨x, member, reported⟩, here, bit⟩
    rcases sound x member p reported with ⟨entry, inside, same, events⟩
    exact ⟨entry, inside, same.trans here, by rw [← events]; exact bit⟩
  · rintro ⟨entry, inside, here, bit⟩
    have some_ : told ready entry ≠ 0 := by
      intro zero
      rw [(mask_eq_zero_iff _).mp zero i] at bit
      cases bit
    rcases complete entry inside some_ with ⟨x, member, reported⟩
    exact ⟨⟨entry.fd, told ready entry⟩, ⟨x, member, reported⟩, here, bit⟩

include table in
theorem told_eq {entry : PollFd} (member : entry ∈ fds) :
    ((ready entry.fd).asked (toSides (pollerMask fds entry.fd))).triggered entry.events = told ready entry := by
  rw [mask_of_mem table member]
  rfl

include table room in
theorem polled_pollWait (scanCursor : Nat) (fd : Fd) (i : Nat) :
    Polled (pollWait fds maxEvents scanCursor fun fd => (ready fd).asked (toSides (pollerMask fds fd))).1 fd i ↔
      Told fds ready fd i := by
  let revents : Fd → Revents := fun fd => (ready fd).asked (toSides (pollerMask fds fd))
  show Polled (pollWait fds maxEvents scanCursor revents).1 fd i ↔ _
  unfold pollWait
  by_cases idle : (fds.all fun entry => revents entry.fd = {}) = true
  · rw [if_pos idle]
    apply iff_of_false
    · rintro ⟨p, member, _⟩
      cases member
    · rintro ⟨entry, inside, _, bit⟩
      have quiet : revents entry.fd = {} := of_decide_eq_true (List.all_eq_true.mp idle entry inside)
      rw [← told_eq table inside, show (ready entry.fd).asked _ = _ from quiet, triggered_idle] at bit
      rw [show (0 : Events).getLsbD i = false from BitVec.getLsbD_zero] at bit
      cases bit
  · rw [if_neg idle]
    dsimp only
    rcases @scanTable_spec fds revents maxEvents (scanCursor % fds.length) fds.length 0 [] (Nat.zero_add _) rfl (Nat.zero_le _)
      with ⟨last, bound, scan, few, short⟩
    rw [scan]
    dsimp only
    have whole : (fds.rotate (scanCursor % fds.length)).take last = fds.rotate (scanCursor % fds.length) := by
      apply List.take_of_length_le
      rw [List.length_rotate]
      by_contra fewer
      have within : ((((fds.rotate (scanCursor % fds.length)).take last).filterMap (reported revents)).length) ≤ last := by
        apply Nat.le_trans (List.length_filterMap_le _ _)
        rw [List.length_take]
        omega
      have all := short (by omega)
      omega
    rw [whole]
    apply polled_filterMap
    · intro entry member p reported_
      rw [List.mem_rotate] at member
      unfold reported at reported_
      rw [show (revents entry.fd).triggered entry.events = told ready entry from told_eq table member] at reported_
      dsimp only at reported_
      split at reported_
      · cases reported_
      · cases reported_
        exact ⟨entry, member, rfl, rfl⟩
    · intro entry member some_
      refine ⟨entry, List.mem_rotate.mpr member, ?_⟩
      unfold reported
      rw [show (revents entry.fd).triggered entry.events = told ready entry from told_eq table member]
      exact if_neg some_

theorem told_and (ready : Fd → Revents) (entry : PollFd) : told ready entry &&& entry.events = told ready entry := by
  rw [mask_eq_iff]
  intro i
  rw [BitVec.getLsbD_and, Bool.and_eq_true, told_bit]
  exact ⟨And.left, fun bit => ⟨bit, bit.1⟩⟩

/-- An event that `epoll_wait` reports, as `epoll.c` passes it on. -/
def epollReport (fds : List PollFd) (interest : Fd → Option Sides) (ready : Fd → Revents) (fd : Fd) : Option PollFd :=
  ((interest fd).bind fun sides => if (ready fd).asked sides = {} then none else some (fd, (ready fd).asked sides)).bind fun event =>
    let interest := match fds.find? (·.fd = event.1) with
      | some entry => entry.events
      | none => eventRead ||| eventWrite
    let triggered := event.2.triggered interest &&& interest
    if triggered = 0 then none else some ⟨event.1, triggered⟩

include table in
theorem epollReport_eq {interest : Fd → Option Sides} (interested : ∀ fd, interest fd = (findFd fds fd).map toSides)
    {entry : PollFd} (member : entry ∈ fds) :
    epollReport fds interest ready entry.fd = if told ready entry = 0 then none else some ⟨entry.fd, told ready entry⟩ := by
  have found := (findFd_eq_some table.unique entry.fd entry.events).mpr member
  rcases Option.map_eq_some_iff.mp found with ⟨known, here, same⟩
  unfold epollReport
  rw [interested, found, Option.map_some, Option.bind_some]
  by_cases quiet : (ready entry.fd).asked (toSides entry.events) = {}
  · have nothing : told ready entry = 0 := by
      unfold told
      rw [quiet, triggered_idle]
    rw [if_pos quiet, if_pos nothing]
    rfl
  · rw [if_neg quiet, Option.bind_some, here]
    dsimp only
    rw [same, show ((ready entry.fd).asked (toSides entry.events)).triggered entry.events = told ready entry from rfl, told_and]

include table room in
theorem polled_epollWait {interest : Fd → Option Sides} {order : List Fd} (interested : ∀ fd, interest fd = (findFd fds fd).map toSides)
    (all : order.Perm (fds.map (·.fd))) (scanFd : Fd) (fd : Fd) (i : Nat) :
    Polled (epollWait fds maxEvents scanFd (epollEvents interest ready order)).1 fd i ↔ Told fds ready fd i := by
  have width : order.length = fds.length := by rw [all.length_eq, List.length_map]
  have events : epollEvents interest ready order (max fds.length maxEvents) = order.filterMap fun fd => (interest fd).bind fun sides =>
      if (ready fd).asked sides = {} then none else some (fd, (ready fd).asked sides) := by
    apply List.take_of_length_le
    have few := List.length_filterMap_le (fun fd => (interest fd).bind fun sides =>
      if (ready fd).asked sides = {} then none else some (fd, (ready fd).asked sides)) order
    omega
  have reports : readyEvents fds (epollEvents interest ready order (max fds.length maxEvents)) =
      order.filterMap (epollReport fds interest ready) := by
    rw [events]
    exact List.filterMap_filterMap
  have few : (readyEvents fds (epollEvents interest ready order (max fds.length maxEvents))).length ≤ maxEvents := by
    rw [reports]
    exact Nat.le_trans (List.length_filterMap_le _ _) (by omega)
  unfold epollWait
  dsimp only
  rw [if_pos few, reports]
  apply polled_filterMap
  · intro x member p reported
    rcases List.mem_map.mp (all.mem_iff.mp member) with ⟨entry, inside, rfl⟩
    rw [epollReport_eq table interested inside] at reported
    split at reported
    · cases reported
    · cases reported
      exact ⟨entry, inside, rfl, rfl⟩
  · intro entry inside some_
    refine ⟨entry.fd, all.mem_iff.mpr (List.mem_map_of_mem inside), ?_⟩
    rw [epollReport_eq table interested inside]
    exact if_neg some_

end Reports

/-! ## The report of `kqueue` -/

theorem coalesce_eq {maxEvents : Nat} {coalesced : List PollFd} (room : coalesced.length < maxEvents) (event : KEvent) :
    coalesce maxEvents coalesced event = pollerRegister coalesced event.ident event.triggered := by
  unfold coalesce pollerRegister
  cases coalesced.findIdx? (·.fd = event.ident) with
  | some idx => rfl
  | none =>
    dsimp only
    rw [if_pos room, show 0 ||| event.triggered = event.triggered from BitVec.zero_or]

theorem polled_coalesced {maxEvents : Nat} {events : List KEvent} {coalesced : List PollFd}
    (room : coalesced.length + events.length ≤ maxEvents) (fd : Fd) (i : Nat) :
    Polled (events.foldl (coalesce maxEvents) coalesced) fd i ↔
      Polled coalesced fd i ∨ ∃ event ∈ events, event.ident = fd ∧ event.triggered.getLsbD i = true := by
  induction events generalizing coalesced with
  | nil => simp
  | cons event events ih =>
    rw [List.length_cons] at room
    have longer := length_register coalesced event.ident event.triggered
    rw [List.foldl_cons, coalesce_eq (by omega), ih (by split at longer <;> omega), polled_register]
    simp only [List.mem_cons, exists_eq_or_imp]
    tauto

theorem triggered_bit (event : KEvent) (i : Nat) : event.triggered.getLsbD i = true ↔
    (event.filter = .read ∧ i = 0) ∨ (event.filter = .write ∧ i = 1) ∨ (event.eof = true ∧ (i = 0 ∨ i = 1)) := by
  rcases event with ⟨ident, filter, eof⟩
  unfold KEvent.triggered
  rw [BitVec.getLsbD_or, Bool.or_eq_true]
  cases eof with
  | false => cases filter <;> simp [getLsbD_eventRead, getLsbD_eventWrite]
  | true => cases filter <;> simp [getLsbD_eventRead, getLsbD_eventWrite]

theorem mem_kqueueEvents {filters : Fd → Sides} {ready : Fd → Revents} {order : List (Fd × Filter)} {room : Nat}
    (few : order.length ≤ room) (event : KEvent) :
    event ∈ kqueueEvents filters ready order room ↔ ∃ known ∈ order, kqueueReport filters ready known.1 known.2 = some event := by
  unfold kqueueEvents
  rw [List.take_of_length_le (Nat.le_trans (List.length_filterMap_le _ _) few), List.mem_filterMap]

section KqueueReports

variable {fds : List PollFd} {ready : Fd → Revents} {filters : Fd → Sides} {order : List (Fd × Filter)} (table : Tabled fds)
  (filtered : ∀ fd, filters fd = toSides (pollerMask fds fd))
  (all : ∀ fd filter, (match filter with
    | .read => (filters fd).input
    | .write => (filters fd).output) = true → (fd, filter) ∈ order)

theorem told_of_event {fd : Fd} {filter : Filter} {event : KEvent} (reported : kqueueReport filters ready fd filter = some event)
    {i : Nat} (polled : Polled fds event.ident i) (bit : event.triggered.getLsbD i = true) : Told fds ready event.ident i := by
  rcases polled with ⟨entry, inside, here, wanted⟩
  refine ⟨entry, inside, here, ?_⟩
  rw [told_bit, here]
  refine ⟨wanted, ?_⟩
  rw [triggered_bit] at bit
  unfold kqueueReport at reported
  cases filter with
  | read =>
    dsimp only at reported
    split at reported
    · rename_i on
      cases reported
      have cause := (Bool.and_eq_true_iff.mp on).2
      rcases bit with ⟨_, rfl⟩ | ⟨wrong, _⟩ | ⟨failed, _⟩
      · rcases Bool.or_eq_true_iff.mp cause with input | failed
        · exact .inl ⟨rfl, input⟩
        · exact .inr (.inr failed)
      · cases wrong
      · exact .inr (.inr failed)
    · cases reported
  | write =>
    dsimp only at reported
    split at reported
    · rename_i on
      cases reported
      have cause := (Bool.and_eq_true_iff.mp on).2
      rcases bit with ⟨wrong, _⟩ | ⟨_, rfl⟩ | ⟨failed, _⟩
      · cases wrong
      · rcases Bool.or_eq_true_iff.mp cause with output | failed
        · exact .inr (.inl ⟨rfl, output⟩)
        · exact .inr (.inr failed)
      · exact .inr (.inr failed)
    · cases reported

include table filtered all in
theorem event_of_told {fd : Fd} {i : Nat} (side : i = 0 ∨ i = 1) (known : Told fds ready fd i) :
    ∃ place ∈ order, ∃ event, kqueueReport filters ready place.1 place.2 = some event ∧ event.ident = fd ∧
      event.triggered.getLsbD i = true := by
  rcases known with ⟨entry, inside, rfl, bit⟩
  rw [told_bit] at bit
  rcases bit with ⟨wanted, cause⟩
  have mask : filters entry.fd = toSides entry.events := by rw [filtered, mask_of_mem table inside]
  rcases side with rfl | rfl
  · have on : (filters entry.fd).input = true := by rw [mask, toSides_input, wanted]
    have why : ((ready entry.fd).input || (ready entry.fd).failed) = true := by
      rcases cause with ⟨_, input⟩ | ⟨wrong, _⟩ | failed
      · rw [input, Bool.true_or]
      · cases wrong
      · rw [failed, Bool.or_true]
    refine ⟨(entry.fd, .read), all entry.fd .read on, ⟨entry.fd, .read, (ready entry.fd).failed⟩, ?_, rfl, ?_⟩
    · unfold kqueueReport
      dsimp only
      rw [if_pos (by rw [on, why]; rfl)]
    · exact (triggered_bit _ _).mpr (.inl ⟨rfl, rfl⟩)
  · have on : (filters entry.fd).output = true := by rw [mask, toSides_output, wanted]
    have why : ((ready entry.fd).output || (ready entry.fd).failed) = true := by
      rcases cause with ⟨wrong, _⟩ | ⟨_, output⟩ | failed
      · cases wrong
      · rw [output, Bool.true_or]
      · rw [failed, Bool.or_true]
    refine ⟨(entry.fd, .write), all entry.fd .write on, ⟨entry.fd, .write, (ready entry.fd).failed⟩, ?_, rfl, ?_⟩
    · unfold kqueueReport
      dsimp only
      rw [if_pos (by rw [on, why]; rfl)]
    · exact (triggered_bit _ _).mpr (.inr (.inl ⟨rfl, rfl⟩))

include table filtered all in
theorem polled_kqueueWait {maxEvents : Nat} (few : order.length ≤ maxEvents) {fd : Fd} {i : Nat} (side : i = 0 ∨ i = 1)
    (polled : Polled fds fd i) :
    Polled (kqueueWait maxEvents (kqueueEvents filters ready order)) fd i ↔ Told fds ready fd i := by
  have room : ([] : List PollFd).length + (kqueueEvents filters ready order maxEvents).length ≤ maxEvents := by
    rw [List.length_nil, Nat.zero_add]
    exact List.length_take_le _ _
  unfold kqueueWait
  rw [polled_coalesced room]
  simp only [mem_kqueueEvents few]
  constructor
  · rintro (⟨p, member, _⟩ | ⟨event, ⟨place, _, reported⟩, rfl, bit⟩)
    · cases member
    · exact told_of_event reported polled bit
  · intro known
    rcases event_of_told table filtered all side known with ⟨place, member, event, reported, here, bit⟩
    exact .inr ⟨event, ⟨place, member, reported⟩, here, bit⟩

end KqueueReports

/-! ## A turn of the loop -/

/-- The mask asks for reading and writing only. -/
def ReadsOrWrites (w : Watcher) : Prop := w.events &&& (eventRead ||| eventWrite) = w.events

instance (w : Watcher) : Decidable (ReadsOrWrites w) := inferInstanceAs (Decidable (_ = _))

theorem side_of_bit {w : Watcher} (asks : ReadsOrWrites w) {i : Nat} (bit : w.events.getLsbD i = true) : i = 0 ∨ i = 1 := by
  unfold ReadsOrWrites at asks
  rw [← asks, BitVec.getLsbD_and, BitVec.getLsbD_or, getLsbD_eventRead, getLsbD_eventWrite, Bool.and_eq_true, Bool.or_eq_true,
    decide_eq_true_eq, decide_eq_true_eq] at bit
  exact bit.2

end BlueBird.Runtime
