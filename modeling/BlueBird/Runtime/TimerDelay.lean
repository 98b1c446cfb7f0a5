import BlueBird.Runtime.TimerRuns

namespace BlueBird.Runtime

open BinaryHeap

def TimerEvent.task : TimerEvent → TaskId
  | .armed t _ _ => t
  | .fired t _ => t

/-- A task is scheduled no sooner than its delay after it was armed, and again no sooner than that after it was scheduled.
    (Times are natural numbers, and a difference of zero is never short of a delay of zero.) -/
structure NeverEarly (trace : List TimerEvent) : Prop where
  delay : ∀ t now delay time, trace.Pairwise fun earlier later =>
    earlier = .armed t now delay → later = .fired t time → delay ≤ time - now
  interval : ∀ t now delay first second, .armed t now delay ∈ trace → trace.Pairwise fun earlier later =>
    earlier = .fired t first → later = .fired t second → delay ≤ second - first

theorem NeverEarly.armed {trace : List TimerEvent} (early : NeverEarly trace) {t : TaskId}
    (fresh : ∀ event ∈ trace, event.task ≠ t) (now delay : Nat) : NeverEarly (trace ++ [.armed t now delay]) := by
  constructor
  · intro u other least time
    apply List.pairwise_append.mpr
    refine ⟨early.delay u other least time, List.pairwise_singleton .., ?_⟩
    intro earlier _ later last _ fires
    rw [List.mem_singleton.mp last] at fires
    cases fires
  · intro u other least first second member
    apply List.pairwise_append.mpr
    refine ⟨?_, List.pairwise_singleton .., ?_⟩
    · rcases List.mem_append.mp member with old | own
      · exact early.interval u other least first second old
      · cases List.mem_singleton.mp own
        apply List.pairwise_iff_forall_sublist.mpr
        intro earlier later pair fires _
        have seen : earlier ∈ trace := pair.subset (List.mem_cons_self ..)
        rw [fires] at seen
        exact absurd rfl (fresh _ seen)
    · intro earlier _ later last _ fires
      rw [List.mem_singleton.mp last] at fires
      cases fires

theorem NeverEarly.fired {trace : List TimerEvent} (early : NeverEarly trace) {t : TaskId} {time : Nat}
    (since : ∀ now delay, .armed t now delay ∈ trace → delay ≤ time - now)
    (again : ∀ now delay first, .armed t now delay ∈ trace → .fired t first ∈ trace → delay ≤ time - first) :
    NeverEarly (trace ++ [.fired t time]) := by
  constructor
  · intro u now least second
    apply List.pairwise_append.mpr
    refine ⟨early.delay u now least second, List.pairwise_singleton .., ?_⟩
    intro earlier member later last arms fires
    rw [List.mem_singleton.mp last] at fires
    cases fires
    rw [arms] at member
    exact since now least member
  · intro u now least first second member
    have armed : .armed u now least ∈ trace := by
      rcases List.mem_append.mp member with old | own
      · exact old
      · cases List.mem_singleton.mp own
    apply List.pairwise_append.mpr
    refine ⟨early.interval u now least first second armed, List.pairwise_singleton .., ?_⟩
    intro earlier seen later last fires ends
    rw [List.mem_singleton.mp last] at ends
    cases ends
    rw [fires] at seen
    exact again now least first armed seen

/-- The deadline of a timer lies its interval behind everything that has happened to its task. -/
structure Timer.Waits (timer : Timer) (trace : List TimerEvent) : Prop where
  armed : ∀ now delay, .armed timer.task now delay ∈ trace → timer.intervalMs = delay ∧ delay ≤ timer.nextFireMs - now
  fired : ∀ now, .fired timer.task now ∈ trace → timer.intervalMs ≤ timer.nextFireMs - now

theorem Timer.Waits.other {timer : Timer} {trace : List TimerEvent} (waits : timer.Waits trace) {event : TimerEvent}
    (other : event.task ≠ timer.task) : timer.Waits (trace ++ [event]) := by
  constructor
  · intro now delay member
    rcases List.mem_append.mp member with old | own
    · exact waits.armed now delay old
    · rw [← List.mem_singleton.mp own] at other
      exact absurd rfl other
  · intro now member
    rcases List.mem_append.mp member with old | own
    · exact waits.fired now old
    · rw [← List.mem_singleton.mp own] at other
      exact absurd rfl other

namespace Machine

/-- Sums of times and delays that do not wrap around. -/
def inRange (m : Machine) : Action → Bool
  | .call (.setInterval intervalMs now) => now + intervalMs < 2 ^ 64
  | .call (.setTimeout timeoutMs now) => now + timeoutMs < 2 ^ 64
  | .advance =>
    match m.stack with
    | .timers now :: _ => ∀ top ∈ m.rt.dueTimer now, top.repeating = true → now + top.intervalMs < 2 ^ 64
    | _ => true
  | _ => true

def traceStep (s : Machine × List TimerEvent) (action : Action) : Option (Machine × List TimerEvent) :=
  (s.1.step action).map fun m => (m, s.2 ++ s.1.timerEvents action)

def rangedTraceStep (s : Machine × List TimerEvent) (action : Action) : Option (Machine × List TimerEvent) :=
  if s.1.inRange action then traceStep s action else none

def trace (actions : List Action) : Option (Machine × List TimerEvent) := actions.foldlM traceStep ({}, [])

def rangedTrace (actions : List Action) : Option (Machine × List TimerEvent) := actions.foldlM rangedTraceStep ({}, [])

structure Punctual (m : Machine) (trace : List TimerEvent) : Prop where
  timed : m.Timed
  created : ∀ event ∈ trace, event.task < m.next
  single : (m.rt.timers.map Timer.task).Nodup
  waits : ∀ timer ∈ m.rt.timers, timer.Waits trace
  early : NeverEarly trace

theorem Punctual.quiet {m m' : Machine} {trace : List TimerEvent} (punctual : m.Punctual trace) (still : m.Quiet m') :
    m'.Punctual trace := by
  constructor
  · exact (TimerStep.quiet still).timed punctual.timed
  · intro event member
    exact Nat.lt_of_lt_of_le (punctual.created event member) still.next
  · rcases still.timers with ⟨kept, same, fewer⟩
    have distinct := (fewer.map Timer.task).nodup punctual.single
    exact (same.map Timer.task).nodup_iff.mp distinct
  · exact fun timer member => punctual.waits timer (still.timers.subset member)
  · exact punctual.early

theorem Punctual.armed {m : Machine} {trace : List TimerEvent} (punctual : m.Punctual trace) {delay now : Nat}
    (range : now + delay < 2 ^ 64) (repeating : Bool) :
    (m.setTimer delay now repeating).Punctual (trace ++ [.armed m.next now delay]) := by
  have timers := push_perm Timer.nextFireMs m.rt.timers ⟨delay, (now + delay) % 2 ^ 64, repeating, m.next⟩
  rw [← setTimer_timers] at timers
  have fresh : ∀ event ∈ trace, event.task ≠ m.next := fun event member => Nat.ne_of_lt (punctual.created event member)
  constructor
  · exact (TimerStep.armed delay now repeating).timed punctual.timed
  · intro event member
    rcases List.mem_append.mp member with old | own
    · exact Nat.lt_succ_of_lt (punctual.created event old)
    · rw [List.mem_singleton.mp own]
      exact Nat.lt_succ_self m.next
  · rw [(timers.map Timer.task).nodup_iff, List.map_cons, List.nodup_cons]
    refine ⟨?_, punctual.single⟩
    intro taken
    rcases List.mem_map.mp taken with ⟨timer, member, same⟩
    have created := punctual.timed.known.timers timer member
    rw [same] at created
    exact Nat.lt_irrefl _ created
  · intro timer member
    rcases List.mem_cons.mp (timers.mem_iff.mp member) with rfl | old
    · constructor
      · intro other least found
        rcases List.mem_append.mp found with seen | own
        · exact absurd rfl (fresh _ seen)
        · cases List.mem_singleton.mp own
          have least : delay ≤ (now + delay) % 2 ^ 64 - now := by
            rw [Nat.mod_eq_of_lt range]
            omega
          exact ⟨rfl, least⟩
      · intro other found
        rcases List.mem_append.mp found with seen | own
        · exact absurd rfl (fresh _ seen)
        · cases List.mem_singleton.mp own
    · apply (punctual.waits timer old).other
      exact (Nat.ne_of_lt (punctual.timed.known.timers timer old)).symm
  · exact punctual.early.armed fresh now delay

theorem rearmed_waits {now intervalMs : Nat} (range : now + intervalMs < 2 ^ 64) (positive : 0 < intervalMs) :
    State.rearmed now intervalMs = now + intervalMs := by
  unfold State.rearmed
  dsimp only
  rw [Nat.mod_eq_of_lt range, if_neg (by omega)]

theorem waits_rearmed {trace : List TimerEvent} {top after : Timer} {now : Nat} (waits : top.Waits trace) (due : top.due now = true)
    (range : top.repeating = true → now + top.intervalMs < 2 ^ 64) (kept : top.updated now = some after) :
    after.Waits (trace ++ [.fired top.task now]) := by
  have past : top.nextFireMs ≤ now := of_decide_eq_true due
  unfold Timer.updated at kept
  rw [if_pos due] at kept
  split at kept
  · rename_i repeating
    cases kept
    have later (time : Nat) (least : time ≤ now ∨ top.intervalMs ≤ top.nextFireMs - time) :
        top.intervalMs ≤ State.rearmed now top.intervalMs - time := by
      by_cases zero : top.intervalMs = 0
      · omega
      · rw [rearmed_waits (range repeating) (by omega)]
        omega
    constructor
    · intro armed delay found
      rcases List.mem_append.mp found with old | own
      · rcases waits.armed armed delay old with ⟨same, least⟩
        subst same
        exact ⟨rfl, later armed (Or.inr least)⟩
      · cases List.mem_singleton.mp own
    · intro fired found
      rcases List.mem_append.mp found with old | own
      · exact later fired (Or.inr (waits.fired fired old))
      · cases List.mem_singleton.mp own
        exact later now (Or.inl (Nat.le_refl _))
  · cases kept

theorem Punctual.fired {m : Machine} {trace : List TimerEvent} (punctual : m.Punctual trace) {now : Nat} {rest : List Frame}
    {top : Timer} (stack : m.stack = .timers now :: rest) (due : m.rt.dueTimer now = some top)
    (range : top.repeating = true → now + top.intervalMs < 2 ^ 64) :
    Punctual { m with rt := m.rt.fireTimer now top } (trace ++ [.fired top.task now]) := by
  rcases State.dueTimer_mem due with ⟨others, timers⟩
  have ripe := State.dueTimer_due due
  have past : top.nextFireMs ≤ now := of_decide_eq_true ripe
  have waits := punctual.waits top (top_mem due)
  have parts := State.fireTimer_timers timers ripe
  have distinct := punctual.single
  rw [timers, List.map_cons, List.nodup_cons] at distinct
  constructor
  · exact (TimerStep.fired stack due).timed punctual.timed
  · intro event member
    rcases List.mem_append.mp member with old | own
    · exact punctual.created event old
    · rw [List.mem_singleton.mp own]
      exact punctual.timed.known.timers top (top_mem due)
  · rw [(parts.map Timer.task).nodup_iff]
    cases kept : top.updated now with
    | none => exact distinct.2
    | some after =>
      show (after.task :: others.map Timer.task).Nodup
      rw [updated_task kept]
      exact List.nodup_cons.mpr distinct
  · intro timer member
    rcases List.mem_append.mp (parts.mem_iff.mp member) with own | other
    · exact waits_rearmed waits ripe range (Option.mem_toList.mp own)
    · apply (punctual.waits timer (by rw [timers]; exact List.mem_cons_of_mem top other)).other
      intro same
      exact distinct.1 (List.mem_map.mpr ⟨timer, other, same.symm⟩)
  · apply punctual.early.fired
    · intro armed delay found
      have least := (waits.armed armed delay found).2
      omega
    · intro armed delay first found seen
      have same := (waits.armed armed delay found).1
      have least := waits.fired first seen
      omega

theorem range_of_armed {m : Machine} {action : Action} (range : m.inRange action = true) {t : TaskId} {now delay : Nat}
    (arms : m.timerEvents action = [.armed t now delay]) : now + delay < 2 ^ 64 := by
  cases action with
  | call call =>
    cases call with
    | setInterval =>
      cases arms
      exact of_decide_eq_true range
    | setTimeout =>
      cases arms
      exact of_decide_eq_true range
    | schedule => cases arms
    | watchFd => cases arms
    | unwatchFd => cases arms
    | cancelTask => cases arms
    | tick => cases arms
    | setRunning => cases arms
    | stop => cases arms
    | destroy => cases arms
  | ret => cases arms
  | advance =>
    unfold timerEvents at arms
    dsimp only at arms
    split at arms
    · rename_i time _ _
      cases due : m.rt.dueTimer time
      · rw [due] at arms
        cases arms
      · rw [due] at arms
        cases arms
    · cases arms

theorem range_of_fired {m : Machine} {action : Action} (range : m.inRange action = true) {now : Nat} {rest : List Frame}
    {top : Timer} (stack : m.stack = .timers now :: rest) (due : m.rt.dueTimer now = some top)
    (fires : m.timerEvents action = [.fired top.task now]) : top.repeating = true → now + top.intervalMs < 2 ^ 64 := by
  cases action with
  | call call =>
    cases call with
    | setInterval => cases fires
    | setTimeout => cases fires
    | schedule => cases fires
    | watchFd => cases fires
    | unwatchFd => cases fires
    | cancelTask => cases fires
    | tick => cases fires
    | setRunning => cases fires
    | stop => cases fires
    | destroy => cases fires
  | ret => cases fires
  | advance =>
    unfold inRange at range
    rw [stack] at range
    exact of_decide_eq_true range top due

theorem rangedTraceStep_punctual {s s' : Machine × List TimerEvent} (punctual : s.1.Punctual s.2) {action : Action}
    (step : rangedTraceStep s action = some s') : s'.1.Punctual s'.2 := by
  unfold rangedTraceStep at step
  split at step
  · rename_i range
    rcases Option.map_eq_some_iff.mp step with ⟨m, one, rfl⟩
    show m.Punctual (s.2 ++ s.1.timerEvents action)
    have armed := @range_of_armed s.1 action range
    have fired := @range_of_fired s.1 action range
    have change := step_timerStep punctual.timed.known one
    generalize s.1.timerEvents action = events at armed fired change
    cases change with
    | quiet still =>
      rw [List.append_nil]
      exact punctual.quiet still
    | armed delay now repeating => exact punctual.armed (armed rfl) repeating
    | fired stack due => exact punctual.fired stack due (fired stack due rfl)
  · cases step

theorem foldlM_punctual {s s' : Machine × List TimerEvent} (punctual : s.1.Punctual s.2) {actions : List Action}
    (reached : actions.foldlM rangedTraceStep s = some s') : s'.1.Punctual s'.2 :=
  @Runs.invariant_of_run _ _ _ (fun s => s.1.Punctual s.2) _ _ _ punctual
    (fun _ _ _ punctual one => rangedTraceStep_punctual punctual one) reached

/-- In a run whose sums of times and delays stay below `2 ^ 64` no timer fires early. -/
theorem neverEarly_of_rangedTrace (actions : List Action) (m : Machine) (events : List TimerEvent)
    (reached : rangedTrace actions = some (m, events)) : NeverEarly events := by
  have start : Punctual {} [] := by
    refine ⟨timed_init, nofun, List.nodup_nil, nofun, ?_⟩
    exact ⟨fun _ _ _ _ => List.Pairwise.nil, fun _ _ _ _ _ => nofun⟩
  exact (foldlM_punctual start reached).early

def twoTicks : List Action :=
  [.call (.setInterval 5 10), .call (.setTimeout 7 11), .call .setRunning,
    .call (.tick [] 18), .advance, .advance, .advance, .advance, .ret, .advance, .ret, .ret, .advance,
    .call (.tick [] 23), .advance, .advance]

theorem neverEarly_of_rangedTrace_twoTicks : ∃ m events, rangedTrace twoTicks = some (m, events) ∧
    events = [.armed 0 10 5, .armed 1 11 7, .fired 0 18, .fired 1 18, .fired 0 23] ∧ NeverEarly events := by
  have ends : (rangedTrace twoTicks).map Prod.snd =
      some [.armed 0 10 5, .armed 1 11 7, .fired 0 18, .fired 1 18, .fired 0 23] := by decide
  rcases Option.map_eq_some_iff.mp ends with ⟨⟨m, events⟩, reached, same⟩
  exact ⟨m, events, reached, same, neverEarly_of_rangedTrace twoTicks m events reached⟩

def clock : Action → Option Nat
  | .call (.setInterval _ now) | .call (.setTimeout _ now) | .call (.tick _ now) => some now
  | _ => none

/-- The longest timeout there is, for a timer that is meant never to fire. -/
def longestTimeout : List Action := [.call (.setTimeout (2 ^ 64 - 1) 1), .call (.tick [] 1), .advance]

theorem not_neverEarly_longestTimeout : (longestTimeout.filterMap clock).Pairwise (· ≤ ·) ∧
    ∃ m events, trace longestTimeout = some (m, events) ∧ ¬NeverEarly events := by
  constructor
  · show [1, 1].Pairwise (· ≤ ·)
    decide
  · have ends : (trace longestTimeout).map Prod.snd = some [.armed 0 1 (2 ^ 64 - 1), .fired 0 1] := by decide
    rcases Option.map_eq_some_iff.mp ends with ⟨⟨m, events⟩, reached, rfl⟩
    refine ⟨m, _, reached, ?_⟩
    intro never
    have early := never.delay 0 1 (2 ^ 64 - 1) 1
    have short := (List.pairwise_cons.mp early).1 _ (List.mem_cons_self ..) rfl rfl
    revert short
    decide

end Machine
end BlueBird.Runtime
