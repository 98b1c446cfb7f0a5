import BlueBird.Bytes
import Mathlib.Data.List.Infix

/-! The heartbeat of a websocket: pings at every tick, until too many in a row stay without an answer. -/

namespace BlueBird.WebSocket

/-- The fields of `bb_websocket_t` that the heartbeat uses; the counters are `uint32_t`, and the task is
    there when ticks come. -/
structure Heartbeat where
  task : Bool
  intervalMs : Nat
  maxMissedPongs : Nat
  missedPongs : Nat
  waitingForPong : Bool
  deriving DecidableEq, Repr

inductive TickAction where
  | ping | close
  deriving DecidableEq, Repr

namespace Heartbeat

/-- `_bb_websocket_heartbeat_tick` on a websocket with a connection. -/
def tick (ws : Heartbeat) : Heartbeat × TickAction :=
  let missed := if ws.waitingForPong then (ws.missedPongs + 1) % 2^32 else ws.missedPongs
  if ws.waitingForPong ∧ missed ≥ ws.maxMissedPongs then ({ ws with missedPongs := missed }, .close)
  else ({ ws with missedPongs := missed, waitingForPong := true }, .ping)

/-- `bb_websocket_set_heartbeat`; `interval` is whether `bb_runtime_set_interval` gives a task. -/
def set (ws : Heartbeat) (intervalMs maxMissedPongs : Nat) (interval : Bool) : Heartbeat :=
  { ws with
    intervalMs, maxMissedPongs, missedPongs := 0, waitingForPong := false
    task := decide (maxMissedPongs > 0 ∧ intervalMs > 0) && interval }

/-- What `_websocket_read_step` does first with every frame, before it looks at what frame it is. -/
def received (ws : Heartbeat) : Heartbeat := { ws with waitingForPong := false, missedPongs := 0 }

/-- The loop of `_websocket_read_step`, as far as the heartbeat goes: the frames by their opcodes, and whether
    a message could be made of those that hold one. It ends with a close frame, or without memory. -/
def readStep (ws : Heartbeat) : List (Byte × Bool) → Heartbeat
  | [] => ws
  | (opcode, message) :: frames =>
    if (opcode = 0x1 ∨ opcode = 0x2) ∧ message = false then ws.received
    else if opcode = 0x8 then ws.received
    else readStep ws.received frames

end Heartbeat

/-- What happens to a websocket with a heartbeat: the interval passes, or a read finds these frames. -/
inductive HeartbeatEvent where
  | tick
  | frames (first : Byte × Bool) (more : List (Byte × Bool))
  deriving DecidableEq, Repr

namespace Heartbeat

def step (ws : Heartbeat) : HeartbeatEvent → Heartbeat
  | .tick => ws.tick.1
  | .frames first more => ws.readStep (first :: more)

def run (ws : Heartbeat) (events : List HeartbeatEvent) : Heartbeat := events.foldl step ws

/-- No tick of the run has closed the connection. -/
def Alive (ws : Heartbeat) (events : List HeartbeatEvent) : Prop :=
  ∀ front back, events = front ++ .tick :: back → (ws.run front).tick.2 = .ping

theorem readStep_received (ws : Heartbeat) (first : Byte × Bool) (more : List (Byte × Bool)) :
    ws.readStep (first :: more) = ws.received := by
  induction more generalizing ws first with
  | nil =>
    unfold readStep
    split_ifs <;> rfl
  | cons second more ih =>
    unfold readStep
    rw [ih]
    split_ifs <;> rfl

end Heartbeat

/-! ## Pings without an answer -/

def unanswered (events : List HeartbeatEvent) : Nat := (events.reverse.takeWhile (· = .tick)).length

theorem unanswered_tick (events : List HeartbeatEvent) : unanswered (events ++ [.tick]) = unanswered events + 1 := by
  unfold unanswered
  rw [List.reverse_append, List.reverse_singleton, List.singleton_append, List.takeWhile_cons_of_pos (by decide)]
  rfl

theorem unanswered_frames (events : List HeartbeatEvent) (first : Byte × Bool) (more : List (Byte × Bool)) :
    unanswered (events ++ [.frames first more]) = 0 := by
  unfold unanswered
  rw [List.reverse_append, List.reverse_singleton, List.singleton_append, List.takeWhile_cons_of_neg (by simp)]
  rfl

/-- The last `count` events are all ticks. -/
theorem replicate_suffix_iff (count : Nat) (events : List HeartbeatEvent) :
    List.replicate count .tick <:+ events ↔ count ≤ unanswered events := by
  induction events using List.reverseRecOn generalizing count with
  | nil =>
    rw [List.suffix_nil, List.replicate_eq_nil_iff]
    exact Nat.le_zero.symm
  | append_singleton events event ih =>
    cases count with
    | zero => exact iff_of_true (List.nil_suffix) (Nat.zero_le _)
    | succ count =>
      rw [List.replicate_succ']
      cases event with
      | tick => rw [List.suffix_append_self_iff, ih, unanswered_tick, Nat.succ_le_succ_iff]
      | frames first more =>
        rw [unanswered_frames, List.suffix_concat_iff]
        apply iff_of_false _ (Nat.not_succ_le_zero _)
        intro either
        rcases either with empty | ⟨front, same, _⟩
        · simp at empty
        · have last := (List.append_inj' same rfl).2
          cases last

namespace Heartbeat

theorem run_append (ws : Heartbeat) (front back : List HeartbeatEvent) : ws.run (front ++ back) = (ws.run front).run back :=
  List.foldl_append

theorem Alive.front {ws : Heartbeat} {front back : List HeartbeatEvent} (alive : ws.Alive (front ++ back)) : ws.Alive front := by
  intro early late split
  apply alive early (late ++ back)
  rw [split, List.append_assoc]
  rfl

/-- What the fields say while no tick has closed the connection: how many pings stand unanswered. -/
structure Counts (maxMissedPongs pings : Nat) (ws : Heartbeat) : Prop where
  limit : ws.maxMissedPongs = maxMissedPongs
  waiting : ws.waitingForPong = decide (0 < pings)
  missed : ws.missedPongs = pings - 1
  below : pings ≤ maxMissedPongs

theorem Counts.tick {maxMissedPongs pings : Nat} {ws : Heartbeat} (counts : Counts maxMissedPongs pings ws)
    (some_ : 0 < maxMissedPongs) (small : maxMissedPongs < 2^32) :
    (ws.tick.2 = .close ↔ maxMissedPongs ≤ pings) ∧ (ws.tick.2 = .ping → Counts maxMissedPongs (pings + 1) ws.tick.1) := by
  rcases counts with ⟨limit, waiting, missed, below⟩
  unfold Heartbeat.tick
  rw [limit, waiting, missed]
  by_cases none_ : pings = 0
  · subst none_
    rw [if_neg (by simp)]
    exact ⟨iff_of_false (fun closed => by cases closed) (by omega), fun _ => ⟨rfl, rfl, rfl, some_⟩⟩
  · have positive : 0 < pings := Nat.pos_of_ne_zero none_
    have counted : (pings - 1 + 1) % 2^32 = pings := by
      rw [Nat.mod_eq_of_lt (by omega)]
      omega
    rw [decide_eq_true positive, if_pos rfl, counted]
    by_cases enough : maxMissedPongs ≤ pings
    · rw [if_pos ⟨rfl, enough⟩]
      exact ⟨iff_of_true rfl enough, fun pinged => by cases pinged⟩
    · rw [if_neg fun both => enough both.2]
      refine ⟨iff_of_false (fun closed => by cases closed) enough, fun _ => ⟨rfl, ?_, rfl, by omega⟩⟩
      exact (decide_eq_true (Nat.succ_pos _)).symm

theorem run_counts (ws : Heartbeat) (intervalMs : Nat) {maxMissedPongs : Nat} (interval : Bool) (some_ : 0 < maxMissedPongs)
    (small : maxMissedPongs < 2^32) {events : List HeartbeatEvent}
    (alive : (ws.set intervalMs maxMissedPongs interval).Alive events) :
    Counts maxMissedPongs (unanswered events) ((ws.set intervalMs maxMissedPongs interval).run events) := by
  induction events using List.reverseRecOn with
  | nil => exact ⟨rfl, rfl, rfl, Nat.zero_le _⟩
  | append_singleton events event ih =>
    have counts := ih alive.front
    rw [run_append]
    cases event with
    | tick =>
      rw [unanswered_tick]
      exact (counts.tick some_ small).2 (alive events [] rfl)
    | frames first more =>
      rw [unanswered_frames]
      show Counts maxMissedPongs 0 (readStep _ (first :: more))
      rw [readStep_received]
      exact ⟨counts.limit, rfl, rfl, Nat.zero_le _⟩

theorem tick_closes {ws : Heartbeat} {intervalMs maxMissedPongs : Nat} {interval : Bool} (some_ : 0 < maxMissedPongs)
    (small : maxMissedPongs < 2^32) {events : List HeartbeatEvent}
    (alive : (ws.set intervalMs maxMissedPongs interval).Alive events) :
    ((ws.set intervalMs maxMissedPongs interval).run events).tick.2 = .close ↔
      List.replicate maxMissedPongs .tick <:+ events := by
  rw [((run_counts ws intervalMs interval some_ small alive).tick some_ small).1, replicate_suffix_iff]

theorem alive_of_frames {ws : Heartbeat} {intervalMs maxMissedPongs : Nat} {interval : Bool} (some_ : 0 < maxMissedPongs)
    (small : maxMissedPongs < 2^32) {events : List HeartbeatEvent}
    (between : ∀ front back, events ≠ front ++ .tick :: .tick :: back) :
    (ws.set intervalMs maxMissedPongs interval).Alive events := by
  intro front
  generalize size : front.length = n
  induction n using Nat.strongRecOn generalizing front with
  | _ n ih =>
    intro back split
    have alive : (ws.set intervalMs maxMissedPongs interval).Alive front := by
      intro early late inFront
      apply ih early.length _ early rfl (late ++ .tick :: back)
      · rw [split, inFront, List.append_assoc]
        rfl
      · rw [← size, inFront, List.length_append, List.length_cons]
        omega
    cases action : ((ws.set intervalMs maxMissedPongs interval).run front).tick.2 with
    | ping => rfl
    | close =>
      have many := (replicate_suffix_iff _ _).mp ((tick_closes some_ small alive).mp action)
      rcases (replicate_suffix_iff 1 front).mpr (by omega) with ⟨before, whole⟩
      have adjacent : events = before ++ .tick :: .tick :: back := by
        rw [split, ← whole, List.append_assoc]
        rfl
      exact (between before back adjacent).elim

/-- Over any ticks and frames: a tick closes the connection just when the last pings, as many as may be
    missed, had no frame behind them; and with a frame between any two ticks none closes it. -/
theorem heartbeat_law (ws : Heartbeat) (intervalMs : Nat) {maxMissedPongs : Nat} (interval : Bool) (some_ : 0 < maxMissedPongs)
    (small : maxMissedPongs < 2^32) (events : List HeartbeatEvent) :
    ((ws.set intervalMs maxMissedPongs interval).Alive events →
      (((ws.set intervalMs maxMissedPongs interval).run events).tick.2 = .close ↔
        List.replicate maxMissedPongs .tick <:+ events)) ∧
    ((∀ front back, events ≠ front ++ .tick :: .tick :: back) → (ws.set intervalMs maxMissedPongs interval).Alive events) :=
  ⟨fun alive => tick_closes some_ small alive, fun between => alive_of_frames some_ small between⟩

/-- A ping that is answered by a pong, and two that are not. -/
def twoMissed : List HeartbeatEvent := [.tick, .frames (0xA, true) [], .tick, .tick]

theorem heartbeat_law_twoMissed :
    ((Heartbeat.set ⟨false, 0, 0, 0, false⟩ 30000 2 true).Alive twoMissed →
      (((Heartbeat.set ⟨false, 0, 0, 0, false⟩ 30000 2 true).run twoMissed).tick.2 = .close ↔
        List.replicate 2 .tick <:+ twoMissed)) ∧
    ((∀ front back, twoMissed ≠ front ++ .tick :: .tick :: back) →
      (Heartbeat.set ⟨false, 0, 0, 0, false⟩ 30000 2 true).Alive twoMissed) :=
  heartbeat_law ⟨false, 0, 0, 0, false⟩ 30000 true (by decide) (by decide) twoMissed

end Heartbeat
end BlueBird.WebSocket
