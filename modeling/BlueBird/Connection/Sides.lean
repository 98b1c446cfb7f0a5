import BlueBird.Connection.Delivery
import BlueBird.Runtime.Registration
import BlueBird.Runtime.Holdings

namespace BlueBird.Net

open BlueBird.Runtime (State Task TaskId Watcher Session Registered Separate Events PollFd Fd eventRead eventWrite)

/-! ## The tasks of the two sides and their watchers -/

namespace AsyncConnection

def task (a : AsyncConnection) : Side → Option TaskId
  | .read => a.readTask
  | .write => a.writeTask

def watchEvents (a : AsyncConnection) : Side → Events
  | .read => a.readWatchEvents
  | .write => a.writeWatchEvents

def watcher (a : AsyncConnection) (side : Side) (t : TaskId) : Watcher :=
  ⟨a.fd, a.watchEvents side, .persistent, t⟩

def Live (task : Task) : Prop := task.cancelled = false ∧ task.finalized = false ∧ task.persistent = true

/-- The watchers are those of the two sides, with different events; the tasks that have not been cancelled are
    the current ones. -/
structure Sided (a : AsyncConnection) : Prop where
  ordered : Session.Ordered ⟨a.rt, a.next⟩
  registered : Registered a.rt
  watched : ∀ w, w ∈ a.rt.watchers ↔ ∃ side t, a.task side = some t ∧ w = a.watcher side t
  live : ∀ side t, a.task side = some t → t < a.next ∧ a.side t = some side ∧ Live (a.rt.tasks t)
  events : ∀ side, a.watchEvents side = eventRead ∨ a.watchEvents side = eventWrite
  apart : ∀ t u, a.task .read = some t → a.task .write = some u → a.watchEvents .read ≠ a.watchEvents .write
  current : ∀ side t, a.side t = some side → (a.rt.tasks t).cancelled = false → a.task side = some t
  born : ∀ side t, a.side t = some side → t < a.next
  over_ : ∀ t, (a.rt.tasks t).cancelled = true → (a.rt.tasks t).finalized = true

variable {a b : AsyncConnection}

theorem events_apart {e f : Events} (first : e = eventRead ∨ e = eventWrite)
    (second : f = eventRead ∨ f = eventWrite) (differs : e ≠ f) : e &&& f = 0 := by
  rcases first with rfl | rfl <;> rcases second with rfl | rfl <;> revert differs <;> decide

theorem events_ne_zero {e : Events} (event : e = eventRead ∨ e = eventWrite) : e ≠ 0 := by
  rcases event with rfl | rfl <;> decide

theorem Sided.other (sided : a.Sided) {side other : Side} {t u : TaskId} (held : a.task side = some t)
    (beside : a.task other = some u) (differs : side ≠ other) :
    a.watchEvents side ≠ a.watchEvents other ∧ t ≠ u := by
  constructor
  · cases side <;> cases other
    · exact (differs rfl).elim
    · exact sided.apart t u held beside
    · exact (sided.apart u t beside held).symm
    · exact (differs rfl).elim
  · rintro rfl
    have mine := (sided.live side t held).2.1
    rw [(sided.live other t beside).2.1] at mine
    exact differs (Option.some.inj mine).symm

/-! ## Cancelling the task of a side -/

theorem cancelTask_tasks (rt : State) (t u : TaskId) : (rt.cancelTask t).tasks u =
    if u = t then { rt.tasks u with cancelled := true, persistent := false, finalized := true, scheduled := true }
    else rt.tasks u := by
  unfold State.cancelTask
  rw [State.finishCancel_tasks]
  by_cases same : u = t
  · subst same
    simp [State.markFinalized, State.markCancelled, State.modifyTask]
  · simp [State.markFinalized, State.markCancelled, State.modifyTask, same]

/-- What becomes of the fields when the task of a side is cancelled. -/
structure Cancels (side : Side) (t : TaskId) (a b : AsyncConnection) : Prop where
  rt : b.rt = a.rt.cancelTask t
  task : ∀ other, b.task other = if other = side then none else a.task other
  watchEvents : b.watchEvents = a.watchEvents
  next : b.next = a.next
  owner : b.side = a.side
  fd : b.fd = a.fd
  rewatching : b.writeRewatching = a.writeRewatching
  connection : b.connection = if side = .write ∧ a.writeRewatching = false then
    a.connection.map fun conn => { conn with writePending := false } else a.connection

theorem cancelTask_cancels (a : AsyncConnection) {side : Side} {t : TaskId} (mine : a.side t = some side)
    (fresh : (a.rt.tasks t).finalized = false) : Cancels side t a (a.cancelTask t) := by
  have first : ((a.rt.markCancelled t).tasks t).finalized = false := by
    show (if t = t then _ else _ : Task).finalized = false
    rw [if_pos rfl]
    exact fresh
  unfold cancelTask finalize
  dsimp only
  rw [if_neg (by rw [first]; decide)]
  unfold cleanup
  dsimp only
  rw [mine]
  cases side with
  | read =>
    refine ⟨rfl, ?_, ?_, rfl, rfl, rfl, rfl, rfl⟩
    · intro other
      cases other <;> rfl
    · funext other
      cases other <;> rfl
  | write =>
    dsimp only
    split
    · rename_i rewatching
      refine ⟨rfl, ?_, ?_, rfl, rfl, rfl, rfl, by simp [rewatching]⟩
      · intro other
        cases other <;> rfl
      · funext other
        cases other <;> rfl
    · rename_i rewatching
      refine ⟨rfl, ?_, ?_, rfl, rfl, rfl, rfl, by simp [rewatching, modifyConnection]⟩
      · intro other
        cases other <;> rfl
      · funext other
        cases other <;> rfl

theorem Cancels.sided {side : Side} {t : TaskId} (cancels : Cancels side t a b) (sided : a.Sided)
    (held : a.task side = some t) : b.Sided := by
  have live := sided.live side t held
  have watchers : ∀ w, w ∈ b.rt.watchers ↔ w ∈ a.rt.watchers ∧ w.task ≠ t := by
    intro w
    rw [cancels.rt, (Session.cancelTask_retires a.rt t).kept.mem_iff]
    simp
  have tasks : ∀ u, u ≠ t → b.rt.tasks u = a.rt.tasks u := by
    intro u different
    rw [cancels.rt, cancelTask_tasks, if_neg different]
  -- what is still there belongs to the other side
  have beside : ∀ other u, b.task other = some u → other ≠ side ∧ a.task other = some u ∧ u ≠ t := by
    intro other u found
    rw [cancels.task] at found
    by_cases same : other = side
    · rw [if_pos same] at found
      cases found
    · rw [if_neg same] at found
      exact ⟨same, found, (sided.other held found (Ne.symm same)).2.symm⟩
  have watched : ∀ w, w ∈ b.rt.watchers ↔ ∃ other u, b.task other = some u ∧ w = b.watcher other u := by
    intro w
    rw [watchers]
    unfold watcher
    rw [cancels.watchEvents, cancels.fd]
    constructor
    · rintro ⟨member, different⟩
      rcases (sided.watched w).mp member with ⟨other, u, found, rfl⟩
      refine ⟨other, u, ?_, rfl⟩
      rw [cancels.task, if_neg, found]
      rintro rfl
      rw [held] at found
      exact different (Option.some.inj found).symm
    · rintro ⟨other, u, found, rfl⟩
      rcases beside other u found with ⟨_, before, different⟩
      exact ⟨(sided.watched _).mpr ⟨other, u, before, rfl⟩, different⟩
  have separate : Session.Clean ⟨a.rt, a.next⟩ (.cancelTask t) := by
    refine ⟨?_, ?_⟩
    · intro w member kept v inside gone _
      rcases (sided.watched w).mp member with ⟨other, u, found, rfl⟩
      rcases (sided.watched v).mp inside with ⟨mine, t', own, rfl⟩
      have same : t' = t := of_decide_eq_true gone
      subst same
      have different : u ≠ t' := of_decide_eq_false kept
      have belongs := (sided.live mine t' own).2.1
      rw [live.2.1] at belongs
      cases belongs
      apply events_apart (sided.events _) (sided.events _)
      refine (sided.other held found ?_).1
      rintro rfl
      rw [held] at found
      exact different (Option.some.inj found).symm
    · intro w member kept
      refine ⟨w, member, kept, rfl, ?_⟩
      rcases (sided.watched w).mp member with ⟨other, u, _, rfl⟩
      exact events_ne_zero (sided.events other)
  refine { ordered := ?_, registered := ?_, watched, live := ?_, events := ?_, apart := ?_, current := ?_, born := ?_,
           over_ := ?_ }
  · rw [cancels.rt, cancels.next]
    exact Session.perform_ordered sided.ordered (.cancelTask t)
  · rw [cancels.rt]
    exact (Session.perform_registered_iff sided.ordered sided.registered (.cancelTask t)).mpr separate
  · intro other u found
    rcases beside other u found with ⟨_, before, different⟩
    rw [cancels.next, cancels.owner, tasks u different]
    exact sided.live other u before
  · intro other
    rw [cancels.watchEvents]
    exact sided.events other
  · intro first second read write
    rw [cancels.watchEvents]
    exact sided.apart first second (beside .read first read).2.1 (beside .write second write).2.1
  · intro other u belongs open_
    rw [cancels.owner] at belongs
    by_cases same : u = t
    · rw [cancels.rt, cancelTask_tasks, if_pos same] at open_
      cases open_
    · rw [tasks u same] at open_
      have now := sided.current other u belongs open_
      rw [cancels.task, if_neg, now]
      rintro rfl
      rw [held] at now
      exact same (Option.some.inj now).symm
  · intro other u belongs
    rw [cancels.owner] at belongs
    rw [cancels.next]
    exact sided.born other u belongs
  · intro u gone
    by_cases same : u = t
    · rw [cancels.rt, cancelTask_tasks, if_pos same]
    · rw [tasks u same] at gone ⊢
      exact sided.over_ u gone

theorem Sided.cancelTask (sided : a.Sided) (side : Side) {t : TaskId} (held : a.task side = some t) :
    Cancels side t a (a.cancelTask t) ∧ (a.cancelTask t).Sided := by
  have live := sided.live side t held
  have cancels := cancelTask_cancels a live.2.1 live.2.2.2.1
  exact ⟨cancels, cancels.sided sided held⟩

/-! ## Registering a task for a side -/

def setTask (a : AsyncConnection) (side : Side) (t : TaskId) (events : Events) : AsyncConnection :=
  match side with
  | .read => { a with readTask := some t, readWatchEvents := events }
  | .write => { a with writeTask := some t, writeWatchEvents := events }

/-- No other side waits for these events. -/
def Free (a : AsyncConnection) (side : Side) (events : Events) : Prop :=
  ∀ other t, other ≠ side → a.task other = some t → a.watchEvents other ≠ events

structure Arms (side : Side) (events : Events) (a b : AsyncConnection) : Prop where
  rt : b.rt = a.rt.watchFd a.fd events .persistent a.next
  task : ∀ other, b.task other = if other = side then some a.next else a.task other
  watchEvents : ∀ other, b.watchEvents other = if other = side then events else a.watchEvents other
  next : b.next = a.next + 1
  owner : ∀ t, b.side t = if t = a.next then some side else a.side t
  fd : b.fd = a.fd
  rewatching : b.writeRewatching = a.writeRewatching
  connection : b.connection = a.connection

theorem Sided.absent (sided : a.Sided) {side : Side} {events : Events} (idle : a.task side = none)
    (free : a.Free side events) : a.rt.findWatcherExact a.fd events = none := by
  unfold State.findWatcherExact
  rw [List.findIdx?_eq_none_iff]
  intro w member
  rcases (sided.watched w).mp member with ⟨other, t, found, rfl⟩
  have differs : other ≠ side := by
    rintro rfl
    rw [idle] at found
    cases found
  simpa [watcher] using free other t differs found

theorem watch_arms (side : Side) (events : Events) (absent : a.rt.findWatcherExact a.fd events = none) :
    (a.watch side events .armed).2 = some a.next ∧
      Arms side events a ((a.watch side events .armed).1.setTask side a.next events) := by
  have absent' : (a.rt.createTask a.next).findWatcherExact a.fd events = none := absent
  rcases State.placeWatcher_append (a.rt.createTask a.next) absent' .persistent a.next with ⟨placed, place, _⟩
  have result : a.watch side events .armed = ({ a.createTask side with rt := placed }, some a.next) := by
    unfold watch
    have place' : (a.createTask side).rt.placeWatcher (a.createTask side).fd events .persistent a.next =
      (placed, none) := place
    simp [place', cancel]
  have rt : a.rt.watchFd a.fd events .persistent a.next = placed := by
    unfold State.watchFd
    rw [place]
  rw [result]
  refine ⟨rfl, ?_⟩
  cases side with
  | read =>
    refine ⟨rt.symm, ?_, ?_, rfl, fun _ => rfl, rfl, rfl, rfl⟩
    · intro other
      cases other <;> rfl
    · intro other
      cases other <;> rfl
  | write =>
    refine ⟨rt.symm, ?_, ?_, rfl, fun _ => rfl, rfl, rfl, rfl⟩
    · intro other
      cases other <;> rfl
    · intro other
      cases other <;> rfl

theorem watchFd_tasks (rt : State) {fd : Fd} {events : Events} (absent : rt.findWatcherExact fd events = none)
    (t u : TaskId) : (rt.watchFd fd events .persistent t).tasks u =
      if u = t then { persistent := true } else rt.tasks u := by
  have absent' : (rt.createTask t).findWatcherExact fd events = none := absent
  rcases State.placeWatcher_append (rt.createTask t) absent' .persistent t with ⟨placed, place, _, _, _, tasks⟩
  unfold State.watchFd
  rw [place]
  dsimp only
  rw [tasks]
  by_cases same : u = t
  · subst same
    simp [State.markPersistent, State.createTask, State.modifyTask]
  · simp [State.markPersistent, State.createTask, State.modifyTask, same]

theorem Arms.sided {side : Side} {events : Events} (arms : Arms side events a b) (sided : a.Sided)
    (idle : a.task side = none) (free : a.Free side events) (event : events = eventRead ∨ events = eventWrite) :
    b.Sided := by
  have absent := sided.absent idle free
  have watchers : b.rt.watchers = a.rt.watchers ++ [⟨a.fd, events, .persistent, a.next⟩] := by
    rw [arms.rt]
    exact (Session.watchFd_append (s := ⟨a.rt, a.next⟩) a.fd events .persistent absent).1
  have tasks : ∀ u, b.rt.tasks u = if u = a.next then { persistent := true } else a.rt.tasks u := by
    intro u
    rw [arms.rt, watchFd_tasks a.rt absent]
  have unborn : ∀ other, a.side a.next ≠ some other := by
    intro other belongs
    exact Nat.lt_irrefl _ (sided.born other a.next belongs)
  have before : ∀ other t, a.task other = some t → t ≠ a.next ∧ other ≠ side := by
    intro other t found
    refine ⟨fun same => unborn other (same ▸ (sided.live other t found).2.1), ?_⟩
    rintro rfl
    rw [idle] at found
    cases found
  -- the tasks of a side: the new one, or the ones there were
  have after : ∀ other t, b.task other = some t ↔ other = side ∧ t = a.next ∨ a.task other = some t := by
    intro other t
    rw [arms.task]
    by_cases same : other = side
    · subst same
      simp [idle, eq_comm]
    · simp [same]
  refine { ordered := ?_, registered := ?_, watched := ?_, live := ?_, events := ?_, apart := ?_, current := ?_,
           born := ?_, over_ := ?_ }
  · rw [arms.rt, arms.next]
    exact Session.perform_ordered sided.ordered (.watchFd a.fd events .persistent)
  · have grows : Session.Clean ⟨a.rt, a.next⟩ (.watchFd a.fd events .persistent) :=
      Or.inr fun zero => events_ne_zero event (BitVec.or_eq_zero_iff.mp zero).2
    rw [arms.rt]
    exact (Session.perform_registered_iff sided.ordered sided.registered (.watchFd a.fd events .persistent)).mpr grows
  · intro w
    rw [watchers, List.mem_append, List.mem_singleton, sided.watched]
    unfold watcher
    rw [arms.fd]
    constructor
    · rintro (⟨other, t, found, rfl⟩ | rfl)
      · refine ⟨other, t, (after other t).mpr (Or.inr found), ?_⟩
        rw [arms.watchEvents, if_neg (before other t found).2]
      · exact ⟨side, a.next, (after side a.next).mpr (Or.inl ⟨rfl, rfl⟩), by rw [arms.watchEvents, if_pos rfl]⟩
    · rintro ⟨other, t, found, rfl⟩
      rw [arms.watchEvents]
      rcases (after other t).mp found with ⟨rfl, rfl⟩ | found
      · exact Or.inr (by rw [if_pos rfl])
      · exact Or.inl ⟨other, t, found, by rw [if_neg (before other t found).2]⟩
  · intro other t found
    rw [arms.next, arms.owner, tasks]
    rcases (after other t).mp found with ⟨rfl, rfl⟩ | found
    · rw [if_pos rfl, if_pos rfl]
      exact ⟨Nat.lt_succ_self _, rfl, rfl, rfl, rfl⟩
    · rw [if_neg (before other t found).1, if_neg (before other t found).1]
      have live := sided.live other t found
      exact ⟨Nat.lt_succ_of_lt live.1, live.2⟩
  · intro other
    rw [arms.watchEvents]
    split
    · exact event
    · exact sided.events other
  · intro first second read write
    rw [arms.watchEvents, arms.watchEvents]
    rcases (after .read first).mp read with ⟨mine, rfl⟩ | read <;>
      rcases (after .write second).mp write with ⟨mine', rfl⟩ | write
    · rw [← mine] at mine'
      cases mine'
    · rw [if_pos mine, if_neg (before .write second write).2]
      exact (free .write second (before .write second write).2 write).symm
    · rw [if_neg (before .read first read).2, if_pos mine']
      exact free .read first (before .read first read).2 read
    · rw [if_neg (before .read first read).2, if_neg (before .write second write).2]
      exact sided.apart first second read write
  · intro other t belongs open_
    rw [arms.owner] at belongs
    rw [after]
    by_cases new : t = a.next
    · rw [if_pos new] at belongs
      exact Or.inl ⟨(Option.some.inj belongs).symm, new⟩
    · rw [if_neg new] at belongs
      rw [tasks, if_neg new] at open_
      exact Or.inr (sided.current other t belongs open_)
  · intro other t belongs
    rw [arms.owner] at belongs
    rw [arms.next]
    by_cases new : t = a.next
    · exact new ▸ Nat.lt_succ_self _
    · rw [if_neg new] at belongs
      exact Nat.lt_succ_of_lt (sided.born other t belongs)
  · intro t gone
    rw [tasks] at gone ⊢
    by_cases new : t = a.next
    · rw [if_pos new] at gone
      cases gone
    · rw [if_neg new] at gone ⊢
      exact sided.over_ t gone

theorem Sided.watch (sided : a.Sided) (side : Side) {events : Events} (idle : a.task side = none)
    (free : a.Free side events) (event : events = eventRead ∨ events = eventWrite) :
    (a.watch side events .armed).2 = some a.next ∧
      Arms side events a ((a.watch side events .armed).1.setTask side a.next events) ∧
        ((a.watch side events .armed).1.setTask side a.next events).Sided := by
  rcases a.watch_arms side events (sided.absent idle free) with ⟨task, arms⟩
  exact ⟨task, arms, arms.sided sided idle free event⟩

theorem Sided.congr (sided : a.Sided) (ordered : Session.Ordered ⟨b.rt, b.next⟩) (registered : Registered b.rt)
    (watchers : ∀ w, w ∈ b.rt.watchers ↔ w ∈ a.rt.watchers)
    (flags : ∀ t, (b.rt.tasks t).cancelled = (a.rt.tasks t).cancelled ∧
      (b.rt.tasks t).persistent = (a.rt.tasks t).persistent ∧
        ((b.rt.tasks t).finalized = (a.rt.tasks t).finalized ∨ a.side t = none ∧ (b.rt.tasks t).finalized = true))
    (task : b.task = a.task) (watchEvents : b.watchEvents = a.watchEvents) (next : b.next = a.next)
    (owner : b.side = a.side) (fd : b.fd = a.fd) : b.Sided where
  ordered
  registered
  watched w := by
    unfold watcher
    rw [watchers, sided.watched, task, watchEvents, fd]
    rfl
  live side t held := by
    rw [task] at held
    have live := sided.live side t held
    have same := flags t
    refine ⟨next ▸ live.1, owner ▸ live.2.1, same.1.trans live.2.2.1, ?_, same.2.1.trans live.2.2.2.2⟩
    rcases same.2.2 with kept | ⟨free, _⟩
    · exact kept.trans live.2.2.2.1
    · rw [free] at live
      cases live.2.1
  events side := watchEvents ▸ sided.events side
  apart first second read write := by
    rw [task] at read write
    exact watchEvents ▸ sided.apart first second read write
  current side t belongs open_ := by
    rw [task]
    exact sided.current side t (owner ▸ belongs) ((flags t).1 ▸ open_)
  born side t belongs := next ▸ sided.born side t (owner ▸ belongs)
  over_ t gone := by
    rcases (flags t).2.2 with kept | ⟨_, now⟩
    · exact kept.trans (sided.over_ t ((flags t).1 ▸ gone))
    · exact now

theorem Sided.beside (sided : a.Sided) {queue : List TaskId} {connection : Option Connection}
    {disconnected disconnect writeRewatching : Bool} :
    Sided { a with rt := { a.rt with queue }, connection, disconnected, disconnect, writeRewatching } :=
  sided.congr ⟨sided.ordered.tabled, sided.ordered.created, sided.ordered.single⟩ sided.registered (fun _ => Iff.rfl)
    (fun _ => ⟨rfl, rfl, Or.inl rfl⟩) rfl rfl rfl rfl rfl

theorem wait_tasks (rt : State) (ready : List PollFd) (t : TaskId) :
    ((rt.wait ready).tasks t).cancelled = (rt.tasks t).cancelled ∧
      ((rt.wait ready).tasks t).persistent = (rt.tasks t).persistent ∧
        ((rt.wait ready).tasks t).finalized = (rt.tasks t).finalized := by
  unfold State.wait
  induction ready generalizing rt with
  | nil => exact ⟨rfl, rfl, rfl⟩
  | cons event ready ih =>
    rw [List.foldl_cons]
    have first := rt.dispatchEvent_tasks event t
    rcases ih (rt.dispatchEvent event) with ⟨cancelled, persistent, finalized⟩
    rw [cancelled, persistent, finalized, first]
    split <;> exact ⟨rfl, rfl, rfl⟩

theorem Sided.wait (sided : a.Sided) (ready : List PollFd) : Sided { a with rt := a.rt.wait ready } := by
  -- all watchers are persistent, so none is given up
  have stays : ∀ w ∈ a.rt.watchers, (ready.any (Runtime.fires · w)) = false := by
    intro w member
    rcases (sided.watched w).mp member with ⟨side, t, _, rfl⟩
    simp [Runtime.fires, watcher]
  have separate : Session.Clean ⟨a.rt, a.next⟩ (.poll ready) := by
    refine ⟨?_, ?_⟩
    · intro w _ _ v member gone _
      rw [stays v member] at gone
      cases gone
    · intro w member kept
      refine ⟨w, member, kept, rfl, ?_⟩
      rcases (sided.watched w).mp member with ⟨side, t, _, rfl⟩
      exact events_ne_zero (sided.events side)
  refine sided.congr ?_ ?_ ?_ ?_ rfl rfl rfl rfl rfl
  · exact Session.perform_ordered sided.ordered (.poll ready)
  · exact (Session.perform_registered_iff sided.ordered sided.registered (.poll ready)).mpr separate
  · intro w
    show w ∈ (a.rt.wait ready).watchers ↔ _
    rw [(Runtime.wait_retires a.rt ready).kept.mem_iff, List.mem_filter]
    constructor
    · exact And.left
    · intro member
      exact ⟨member, by rw [stays w member]; rfl⟩
  · intro t
    have same := wait_tasks a.rt ready t
    exact ⟨same.1, same.2.1, Or.inl same.2.2⟩

theorem Sided.modifyTask (sided : a.Sided) (t : TaskId) (f : Task → Task)
    (flags : ∀ task, (f task).cancelled = task.cancelled ∧ (f task).persistent = task.persistent ∧
      (f task).finalized = task.finalized) : Sided { a with rt := a.rt.modifyTask t f } := by
  refine sided.congr ?_ ?_ ?_ ?_ rfl rfl rfl rfl rfl
  · exact ⟨sided.ordered.tabled, sided.ordered.created, sided.ordered.single⟩
  · exact sided.registered
  · exact fun _ => Iff.rfl
  · intro u
    show ((if u = t then f (a.rt.tasks u) else a.rt.tasks u).cancelled = _) ∧ _
    by_cases same : u = t
    · have kept := flags (a.rt.tasks u)
      simp only [State.modifyTask, if_pos same]
      exact ⟨kept.1, kept.2.1, Or.inl kept.2.2⟩
    · simp [State.modifyTask, same]

theorem Sided.finalize (sided : a.Sided) (t : TaskId) (idle : (a.rt.tasks t).persistent = false) :
    (a.finalize t).Sided ∧ (a.finalize t).task = a.task ∧ (a.finalize t).connection = a.connection ∧
      (a.finalize t).writeRewatching = a.writeRewatching := by
  unfold AsyncConnection.finalize
  by_cases done : (a.rt.tasks t).finalized = true
  · rw [if_pos done]
    exact ⟨sided, rfl, rfl, rfl⟩
  · rw [if_neg done]
    have nobody : a.side t = none := by
      cases owner : a.side t with
      | none => rfl
      | some side =>
        have open_ : (a.rt.tasks t).cancelled = false := by
          cases cancelled : (a.rt.tasks t).cancelled with
          | false => rfl
          | true => exact (done (sided.over_ t cancelled)).elim
        have live := (sided.live side t (sided.current side t owner open_)).2.2
        rw [live.2.2] at idle
        cases idle
    have none_ : ({ a with rt := a.rt.markFinalized t }).cleanup t = { a with rt := a.rt.markFinalized t } := by
      unfold AsyncConnection.cleanup
      simp only [nobody]
    rw [none_]
    refine ⟨?_, rfl, rfl, rfl⟩
    refine sided.congr ?_ ?_ ?_ ?_ rfl rfl rfl rfl rfl
    · exact ⟨sided.ordered.tabled, sided.ordered.created, sided.ordered.single⟩
    · exact sided.registered
    · exact fun _ => Iff.rfl
    · intro u
      by_cases same : u = t
      · subst same
        simp [State.markFinalized, State.modifyTask, nobody]
      · simp [State.markFinalized, State.modifyTask, same]

end AsyncConnection
end BlueBird.Net
