import BlueBird.Security.SessionMap

namespace BlueBird.Security

/-! ## The map that the store is -/

abbrev SessionMap := Bytes → Option Session

namespace SessionMap

def add (m : SessionMap) (s : Session) : SessionMap := fun id => if id = s.idString then some s else m id

def remove (m : SessionMap) (id : Bytes) : SessionMap := fun other => if other = id then none else m other

def sweep (m : SessionMap) (now : Int) : SessionMap := fun id => (m id).filter fun s => decide (now < s.expiresAt)

theorem remove_absent {m : SessionMap} {id : Bytes} (absent : m id = none) : m.remove id = m := by
  funext other
  unfold remove
  by_cases here : other = id
  · rw [if_pos here, here, absent]
  · rw [if_neg here]

end SessionMap

def SessionOp.created (env : Surroundings) : SessionOp → Option Session
  | .create config userId ttl => env.random.map fun random => newSession config env.now random userId.bytes ttl
  | _ => none

def SessionOp.next (op : SessionOp) (env : Surroundings) (status : SessionStatus) (m : SessionMap) : SessionMap :=
  match op with
  | .create .. => if status = .ok then (op.created env).elim m m.add else m
  | .get .. => m
  | .destroy id => m.remove id.bytes
  | .cleanup => m.sweep env.now

/-- What a call may answer when the map is `m`. -/
def SessionOp.Answers (op : SessionOp) (env : Surroundings) (m : SessionMap) (status : SessionStatus) (out : Option Session) :
    Prop :=
  match op with
  | .create .. => status = .ok → ∃ s, op.created env = some s ∧ out = some s
  | .get id _ =>
    (status = .ok ↔ ∃ s, m id.bytes = some s ∧ env.now < s.expiresAt) ∧
      ∀ s, m id.bytes = some s → env.now < s.expiresAt → out = some s
  | .destroy id => status = .ok ↔ ∃ s, m id.bytes = some s
  | .cleanup => status = .ok

/-- The used slots hold the sessions of the map, each once and with ids that differ, and no other slot holds anything. -/
structure Represents (store : MemoryStore) (m : SessionMap) (live : List Session) : Prop where
  holds : Holds store live
  named : ∀ s ∈ live, s.Named
  distinct : (live.map Session.idString).Nodup
  entries : ∀ id s, m id = some s ↔ s ∈ live ∧ s.idString = id

/-- A session that a call creates has an id that no stored session has. -/
def Fresh (env : Surroundings) (op : SessionOp) (store : MemoryStore) : Prop :=
  ∀ s, op.created env = some s → ∀ old, some old ∈ store.sessions.take store.count → old.idString ≠ s.idString

/-! ## One call -/

theorem newSession_named (config : SecurityConfig) (now : Int) (random : Nat → Byte) (userId : Bytes) (ttl : Int) :
    (newSession config now random userId ttl).Named := by
  refine ⟨randomHex config.sessionIdLength random, rfl, randomHex_clean _ _, ?_⟩
  have short := randomHex_length config.sessionIdLength random
  have atMost := config.atMost
  unfold sessionIdLengthMax sessionIdSize at atMost
  unfold sessionIdSize
  omega

namespace Represents

variable {store : MemoryStore} {m : SessionMap} {live : List Session}

theorem find (rep : Represents store m live) (id : Bytes) : m id = live.find? fun s => s.idString == id := by
  cases found : live.find? (fun s => s.idString == id) with
  | none =>
    cases entry : m id with
    | none => rfl
    | some s =>
      rcases (rep.entries id s).mp entry with ⟨member, same⟩
      exact absurd (beq_iff_eq.mpr same) (List.find?_eq_none.mp found s member)
  | some s =>
    have same : (s.idString == id) = true := List.find?_some (p := fun s : Session => s.idString == id) found
    exact (rep.entries id s).mpr ⟨List.mem_of_find?_eq_some found, beq_iff_eq.mp same⟩

theorem get (rep : Represents store m live) {id : Bytes} (clean : (0 : Byte) ∉ id) : storeGet store id = m id := by
  unfold storeGet
  rw [slotOf_eq rep.holds rep.named clean, rep.find id]
  cases found : live.findIdx? (fun s => s.idString == id) with
  | none =>
    have absent : live.find? (fun s => s.idString == id) = none := by
      rw [List.find?_eq_none]
      intro s member same
      exact absurd same (Bool.eq_false_iff.mp (List.findIdx?_eq_none_iff.mp found s member))
    rw [absent]
    rfl
  | some i =>
    rcases List.findIdx?_eq_some_iff_getElem.mp found with ⟨inside, same, first⟩
    have present : live.find? (fun s => s.idString == id) = some live[i] := by
      rw [List.find?_eq_some_iff_getElem]
      refine ⟨same, i, inside, rfl, ?_⟩
      intro j before
      simpa using first j before
    rw [Option.bind_some, rep.holds.slot inside, present]

theorem create (rep : Represents store m live) {grows : Bool} {s : Session} (named : s.Named)
    (fresh : ∀ old ∈ live, old.idString ≠ s.idString) {next : MemoryStore} (created : storeCreate grows store s = some next) :
    Represents next (m.add s) (live ++ [s]) := by
  refine ⟨rep.holds.create created, ?_, ?_, ?_⟩
  · intro t member
    rcases List.mem_append.mp member with old | new
    · exact rep.named t old
    · rw [List.mem_singleton.mp new]
      exact named
  · rw [List.map_append, List.nodup_append]
    refine ⟨rep.distinct, List.nodup_cons.mpr ⟨List.not_mem_nil, List.nodup_nil⟩, ?_⟩
    intro a old b new same
    rcases List.mem_map.mp old with ⟨t, member, rfl⟩
    rw [List.map_singleton, List.mem_singleton] at new
    exact fresh t member (same.trans new)
  · intro id t
    unfold SessionMap.add
    by_cases here : id = s.idString
    · rw [if_pos here]
      constructor
      · intro same
        cases same
        exact ⟨List.mem_append_right live List.mem_cons_self, here.symm⟩
      · rintro ⟨member, same⟩
        rcases List.mem_append.mp member with old | new
        · exact absurd (same.trans here) (fresh t old)
        · rw [List.mem_singleton.mp new]
    · rw [if_neg here, rep.entries]
      constructor
      · rintro ⟨member, same⟩
        exact ⟨List.mem_append_left _ member, same⟩
      · rintro ⟨member, same⟩
        rcases List.mem_append.mp member with old | new
        · exact ⟨old, same⟩
        · rw [List.mem_singleton.mp new] at same
          exact absurd same.symm here

theorem destroy (rep : Represents store m live) {id : Bytes} (clean : (0 : Byte) ∉ id) {next : MemoryStore}
    (destroyed : storeDestroy store id = some next) : ∃ rest, Represents next (m.remove id) rest := by
  rcases rep.holds.destroy rep.named clean destroyed with ⟨s, rest, same, perm, holds⟩
  have distinct : (s.idString :: rest.map Session.idString).Nodup := (perm.map Session.idString).nodup_iff.mp rep.distinct
  rcases List.nodup_cons.mp distinct with ⟨gone, others⟩
  refine ⟨rest, holds, fun t member => rep.named t (perm.mem_iff.mpr (List.mem_cons_of_mem s member)), others, ?_⟩
  intro other t
  unfold SessionMap.remove
  by_cases here : other = id
  · rw [if_pos here]
    constructor
    · intro none
      cases none
    · rintro ⟨member, named⟩
      rw [here, ← same] at named
      exact absurd (List.mem_map.mpr ⟨t, member, named⟩) gone
  · rw [if_neg here, rep.entries, perm.mem_iff, List.mem_cons]
    constructor
    · rintro ⟨rfl | member, named⟩
      · exact absurd (named.symm.trans same) here
      · exact ⟨member, named⟩
    · rintro ⟨member, named⟩
      exact ⟨Or.inr member, named⟩

theorem destroy_none (rep : Represents store m live) {id : Bytes} (clean : (0 : Byte) ∉ id) :
    storeDestroy store id = none ↔ m id = none := by
  unfold storeDestroy
  rw [Option.map_eq_none_iff, slotOf_eq rep.holds rep.named clean, List.findIdx?_eq_none_iff, rep.find id, List.find?_eq_none]
  simp

theorem cleanup (rep : Represents store m live) (now : Int) :
    Represents (storeCleanup now store) (m.sweep now) (unexpired now live) := by
  refine ⟨rep.holds.cleanup now, ?_, ?_, ?_⟩
  · exact fun s member => rep.named s (List.mem_of_mem_filter member)
  · exact rep.distinct.sublist (List.filter_sublist.map Session.idString)
  · intro id s
    unfold SessionMap.sweep unexpired
    rw [Option.filter_eq_some_iff, rep.entries, List.mem_filter]
    unfold sessionIsExpired
    simp
    tauto

end Represents

structure Performed (env : Surroundings) (op : SessionOp) (store : MemoryStore) (m : SessionMap) : Prop where
  answers : op.Answers env m (op.perform env store).1 (op.perform env store).2.2
  represents : ∃ live, Represents (op.perform env store).2.1 (op.next env (op.perform env store).1 m) live
  unchanged : (op.perform env store).1 ≠ .ok → (op.perform env store).2.1 = store

namespace Represents

variable {store : MemoryStore} {m : SessionMap} {live : List Session} {env : Surroundings}

theorem perform_refused (rep : Represents store m live) {config : SecurityConfig} {userId : CText} {ttl : Int}
    (status : SessionStatus) (failed : status ≠ .ok)
    (done : sessionCreate config env store userId.bytes ttl = (status, store, Session.zero)) :
    Performed env (.create config userId ttl) store m := by
  constructor <;> simp only [SessionOp.perform, SessionOp.Answers, SessionOp.next, done, if_neg failed]
  · exact fun ok => absurd ok failed
  · exact ⟨live, rep⟩
  · exact fun _ => trivial

theorem perform_create (rep : Represents store m live) {config : SecurityConfig} {userId : CText} {ttl : Int}
    (fresh : Fresh env (.create config userId ttl) store) : Performed env (.create config userId ttl) store m := by
  by_cases badUser : userId.bytes.length = 0 ∨ userId.bytes.length ≥ userIdSize
  · refine rep.perform_refused .invalidConfig (by decide) ?_
    rw [sessionCreate, if_pos badUser]
  by_cases badTtl : ttl > sessionLifetimeMaxSeconds
  · refine rep.perform_refused .invalidConfig (by decide) ?_
    rw [sessionCreate, if_neg badUser, if_pos badTtl]
  cases random : env.random with
  | none =>
    refine rep.perform_refused .randomFailed (by decide) ?_
    rw [sessionCreate, if_neg badUser, if_neg badTtl, random]
  | some bytes =>
    have new : SessionOp.created env (.create config userId ttl) = some (newSession config env.now bytes userId.bytes ttl) := by
      simp only [SessionOp.created, random, Option.map_some]
    cases stored : storeCreate env.grows store (newSession config env.now bytes userId.bytes ttl) with
    | none =>
      refine rep.perform_refused .alloc (by decide) ?_
      simp only [sessionCreate, if_neg badUser, if_neg badTtl, random, stored]
    | some next =>
      have done : sessionCreate config env store userId.bytes ttl =
          (.ok, next, newSession config env.now bytes userId.bytes ttl) := by
        simp only [sessionCreate, if_neg badUser, if_neg badTtl, random, stored]
      have apart : ∀ old ∈ live, old.idString ≠ (newSession config env.now bytes userId.bytes ttl).idString := by
        intro old member
        apply fresh _ new old
        rw [rep.holds.used]
        exact List.mem_map.mpr ⟨old, member, rfl⟩
      constructor <;> simp only [SessionOp.perform, SessionOp.Answers, SessionOp.next, done, if_pos, new, Option.elim]
      · exact fun _ => ⟨_, rfl, rfl⟩
      · exact ⟨_, rep.create (newSession_named config env.now bytes userId.bytes ttl) apart stored⟩
      · exact fun failed => absurd rfl failed

theorem answers_get (rep : Represents store m live) (id : CText) (out : Session) :
    SessionOp.Answers (.get id out) env m (sessionGet env store id.bytes out).1 (some (sessionGet env store id.bytes out).2) := by
  have lookup := rep.get id.clean
  cases found : m id.bytes with
  | none =>
    have done : sessionGet env store id.bytes out = (.notFound, out) := by
      rw [sessionGet, lookup, found]
    simp [SessionOp.Answers, done, found]
  | some s =>
    by_cases expired : s.expiresAt ≤ env.now
    · have done : sessionGet env store id.bytes out = (.expired, Session.zero) := by
        rw [sessionGet, lookup, found]
        exact if_pos expired
      simp [SessionOp.Answers, done, found, Int.not_lt.mpr expired]
    · have done : sessionGet env store id.bytes out = (.ok, s) := by
        rw [sessionGet, lookup, found]
        exact if_neg expired
      simp [SessionOp.Answers, done, found, Int.not_le.mp expired]

theorem perform_destroy (rep : Represents store m live) (id : CText) : Performed env (.destroy id) store m := by
  cases destroyed : storeDestroy store id.bytes with
  | none =>
    have absent := (rep.destroy_none id.clean).mp destroyed
    have done : sessionDestroy store id.bytes = (.notFound, store) := by
      rw [sessionDestroy, destroyed]
    constructor <;> simp only [SessionOp.Answers, SessionOp.perform, SessionOp.next, done, SessionMap.remove_absent absent]
    · simp [absent]
    · exact ⟨live, rep⟩
    · exact fun _ => trivial
  | some next =>
    have present : m id.bytes ≠ none := by
      intro absent
      rw [(rep.destroy_none id.clean).mpr absent] at destroyed
      cases destroyed
    have done : sessionDestroy store id.bytes = (.ok, next) := by
      rw [sessionDestroy, destroyed]
    constructor <;> simp only [SessionOp.Answers, SessionOp.perform, SessionOp.next, done]
    · simpa using Option.ne_none_iff_exists'.mp present
    · exact rep.destroy id.clean destroyed
    · exact fun failed => absurd rfl failed

end Represents

theorem perform_represents {store : MemoryStore} {m : SessionMap} {live : List Session} (rep : Represents store m live)
    {env : Surroundings} {op : SessionOp} (fresh : Fresh env op store) : Performed env op store m := by
  cases op with
  | create config userId ttl => exact rep.perform_create fresh
  | get id out => exact ⟨rep.answers_get id out, ⟨live, rep⟩, fun _ => rfl⟩
  | destroy id => exact rep.perform_destroy id
  | cleanup => exact ⟨rfl, ⟨_, rep.cleanup env.now⟩, fun failed => absurd rfl failed⟩

/-! ## Runs -/

abbrev SessionCalls := List (Surroundings × SessionOp)

def FreshRun (store : MemoryStore) : SessionCalls → Prop
  | [] => True
  | (env, op) :: calls => Fresh env op store ∧ FreshRun (op.perform env store).2.1 calls

def ComparesStrings (store : MemoryStore) : Prop :=
  ∀ s, some s ∈ store.sessions.take store.count → ∀ lookup : CText,
    constantTimeIdEqual lookup.bytes s.id = true ↔ lookup.bytes = s.idString

/-- In every state of the run the store is the map, and every call answers as the map says, changes the map as it says,
and leaves the store alone when it fails. -/
def Explained (m : SessionMap) (store : MemoryStore) : SessionCalls → Prop
  | [] => (∃ live, Represents store m live) ∧ ComparesStrings store
  | (env, op) :: calls =>
    (∃ live, Represents store m live) ∧ ComparesStrings store ∧
      op.Answers env m (op.perform env store).1 (op.perform env store).2.2 ∧
      ((op.perform env store).1 ≠ .ok → (op.perform env store).2.1 = store) ∧
      Explained (op.next env (op.perform env store).1 m) (op.perform env store).2.1 calls

/-- What has been created and not destroyed, expired or not. -/
def SessionOp.made (op : SessionOp) (env : Surroundings) (status : SessionStatus) (m : SessionMap) : SessionMap :=
  match op with
  | .cleanup => m
  | op => op.next env status m

/-- Every lookup succeeds exactly for a session that was created, was not destroyed and has time left. -/
def Recalled (made : SessionMap) (store : MemoryStore) : SessionCalls → Prop
  | [] => True
  | (env, op) :: calls =>
    (∀ id out, op = .get id out →
      ((op.perform env store).1 = .ok ↔ ∃ s, made id.bytes = some s ∧ env.now < s.expiresAt)) ∧
      Recalled (op.made env (op.perform env store).1 made) (op.perform env store).2.1 calls

/-- The clock does not go back. -/
def Timely (last : Int) : SessionCalls → Prop
  | [] => True
  | (env, _) :: calls => last ≤ env.now ∧ Timely env.now calls

theorem Represents.compares {store : MemoryStore} {m : SessionMap} {live : List Session} (rep : Represents store m live) :
    ComparesStrings store := by
  intro s member lookup
  rw [rep.holds.used] at member
  rcases List.mem_map.mp member with ⟨t, inside, same⟩
  cases same
  rw [constantTimeIdEqual_iff (rep.named s inside) lookup.clean, eq_comm]

theorem Represents.explained {store : MemoryStore} {m : SessionMap} {live : List Session} (rep : Represents store m live)
    {calls : SessionCalls} (fresh : FreshRun store calls) : Explained m store calls := by
  induction calls generalizing store m live with
  | nil => exact ⟨⟨live, rep⟩, rep.compares⟩
  | cons call calls ih =>
    rcases perform_represents rep fresh.1 with ⟨answers, ⟨next, represents⟩, unchanged⟩
    exact ⟨⟨live, rep⟩, rep.compares, answers, unchanged, ih represents fresh.2⟩

def Past (m made : SessionMap) (last : Int) : Prop :=
  ∀ id, m id = made id ∨ m id = none ∧ ∃ s, made id = some s ∧ s.expiresAt ≤ last

theorem Past.later {m made : SessionMap} {last now : Int} (past : Past m made last) (ordered : last ≤ now) : Past m made now := by
  intro id
  rcases past id with same | ⟨gone, s, found, old⟩
  · exact Or.inl same
  · exact Or.inr ⟨gone, s, found, Int.le_trans old ordered⟩

theorem Past.step {m made : SessionMap} {env : Surroundings} (past : Past m made env.now) (op : SessionOp)
    (status : SessionStatus) : Past (op.next env status m) (op.made env status made) env.now := by
  cases op with
  | create config userId ttl =>
    show Past (if status = .ok then _ else m) (if status = .ok then _ else made) env.now
    by_cases ok : status = .ok
    · rw [if_pos ok, if_pos ok]
      cases SessionOp.created env (.create config userId ttl) with
      | none => exact past
      | some s =>
        intro id
        show SessionMap.add m s id = SessionMap.add made s id ∨ SessionMap.add m s id = none ∧ _
        unfold SessionMap.add
        by_cases here : id = s.idString
        · simp [here]
        · simp only [Option.elim, if_neg here]
          exact past id
    · rw [if_neg ok, if_neg ok]
      exact past
  | get id out => exact past
  | destroy id =>
    intro other
    show SessionMap.remove m id.bytes other = SessionMap.remove made id.bytes other ∨
      SessionMap.remove m id.bytes other = none ∧ ∃ s, SessionMap.remove made id.bytes other = some s ∧ _
    unfold SessionMap.remove
    by_cases here : other = id.bytes
    · rw [if_pos here, if_pos here]
      exact Or.inl rfl
    · rw [if_neg here, if_neg here]
      exact past other
  | cleanup =>
    intro id
    show (m id).filter _ = made id ∨ (m id).filter _ = none ∧ ∃ s, made id = some s ∧ _
    rcases past id with same | ⟨gone, s, found, old⟩
    · rw [← same]
      cases m id with
      | none => exact Or.inl rfl
      | some s =>
        by_cases alive : env.now < s.expiresAt
        · exact Or.inl (by simp [alive])
        · exact Or.inr ⟨by simpa using alive, s, rfl, Int.not_lt.mp alive⟩
    · rw [gone]
      exact Or.inr ⟨rfl, s, found, old⟩

theorem Represents.recalled {store : MemoryStore} {m made : SessionMap} {live : List Session} (rep : Represents store m live)
    {last : Int} (past : Past m made last) {calls : SessionCalls} (fresh : FreshRun store calls) (timely : Timely last calls) :
    Recalled made store calls := by
  induction calls generalizing store m made live last with
  | nil => trivial
  | cons call calls ih =>
    rcases perform_represents rep fresh.1 with ⟨answers, ⟨next, represents⟩, _⟩
    have current := past.later timely.1
    refine ⟨?_, ih represents (current.step call.2 _) fresh.2 timely.2⟩
    intro id out is
    rw [is] at answers ⊢
    rw [answers.1]
    rcases current id.bytes with same | ⟨gone, s, found, old⟩
    · rw [same]
    · rw [gone, found]
      constructor
      · rintro ⟨t, none, _⟩
        cases none
      · rintro ⟨t, same, alive⟩
        cases same
        exact absurd alive (Int.not_lt.mpr old)

theorem empty_represents : Represents {} (fun _ => none) [] := by
  refine ⟨⟨[], rfl, rfl, fun slot member => absurd member List.not_mem_nil⟩, fun s member => absurd member List.not_mem_nil,
    List.nodup_nil, ?_⟩
  intro id s
  simp

def shortIds : SecurityConfig := ⟨32, by decide, by decide⟩

def byteEnv (now : Int) (b : Byte) : Surroundings := { now, random := some fun _ => b, grows := true }

def idOf (c : Char) (nonzero : ch c ≠ 0) : CText :=
  ⟨List.replicate 32 (ch c), fun inside => nonzero (List.eq_of_mem_replicate inside).symm⟩

/-- Two sessions, of which the first is destroyed and the second swept once it has expired. -/
def twoSessions : SessionCalls :=
  [(byteEnv 10 0x11, .create shortIds ⟨ascii "ann", by decide⟩ 5),
    (byteEnv 11 0x22, .create shortIds ⟨ascii "bob", by decide⟩ 9),
    (byteEnv 12 0, .destroy (idOf '1' (by decide))),
    (byteEnv 13 0, .get (idOf '2' (by decide)) Session.zero),
    (byteEnv 20 0, .cleanup)]

theorem fresh_of_all {env : Surroundings} {op : SessionOp} {store : MemoryStore}
    (all : ((op.created env).all fun s =>
      (store.sessions.take store.count).all fun slot => slot.all fun old => decide (old.idString ≠ s.idString)) = true) :
    Fresh env op store := by
  intro s created old member
  rw [created, Option.all_some, List.all_eq_true] at all
  have apart := all (some old) member
  rw [Option.all_some] at apart
  exact of_decide_eq_true apart

end BlueBird.Security
