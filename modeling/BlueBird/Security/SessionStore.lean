import BlueBird.Bytes

namespace BlueBird.Security

def sessionIdSize : Nat := 64
def userIdSize : Nat := 64
def sessionStoreInitialCapacity : Nat := 32
def sessionLifetimeMaxSeconds : Int := 30 * 24 * 60 * 60
def sessionIdLengthMin : Nat := 32
def sessionIdLengthMax : Nat := sessionIdSize - 1

/-- A configuration that `bb_security_config_set` accepts. -/
structure SecurityConfig where
  sessionIdLength : Nat
  atLeast : sessionIdLengthMin ≤ sessionIdLength
  atMost : sessionIdLength ≤ sessionIdLengthMax

structure Session where
  id : Bytes
  userId : Bytes
  expiresAt : Int
  deriving DecidableEq, Repr

def Session.zero : Session := ⟨List.replicate sessionIdSize 0, List.replicate userIdSize 0, 0⟩

def padded (size : Nat) (text : Bytes) : Bytes := text ++ List.replicate (size - text.length) 0

/-- A slot that was never written is none; `capacity` is the number of slots. -/
structure MemoryStore where
  sessions : List (Option Session) := []
  count : Nat := 0
  deriving DecidableEq, Repr

inductive SessionStatus where
  | ok | alloc | notFound | expired | invalidConfig | randomFailed
  deriving DecidableEq, Repr

/-! ## session_store.c -/

/-- `realloc` gives more room or not. -/
def ensureCapacity (grows : Bool) (store : MemoryStore) : Option MemoryStore :=
  if store.count < store.sessions.length then some store
  else
    let newCap := if store.sessions.length = 0 then sessionStoreInitialCapacity else store.sessions.length * 2
    if grows then
      some { store with sessions := store.sessions ++ List.replicate (newCap - store.sessions.length) none }
    else none

/-- The bits in which the two strings differ; past its NUL nothing of `lookup` is read. -/
def idDifference (lookup : Bytes) (lookupEnded : Bool) (diff : Byte) : Bytes → Byte
  | [] => diff
  | b :: stored =>
    let a := if lookupEnded then 0 else lookup.headD 0
    idDifference (lookup.drop 1) (lookupEnded || a == 0) (diff ||| (a ^^^ b)) stored

def constantTimeIdEqual (lookup stored : Bytes) : Bool := idDifference lookup false 0 stored == 0

def sessionIsExpired (session : Session) (now : Int) : Bool := session.expiresAt ≤ now

def storeCreate (grows : Bool) (store : MemoryStore) (session : Session) : Option MemoryStore :=
  (ensureCapacity grows store).map fun store =>
    { sessions := store.sessions.set store.count (some session), count := store.count + 1 }

def slotOf (store : MemoryStore) (id : Bytes) : Option Nat :=
  (store.sessions.take store.count).findIdx? fun slot => slot.any fun session => constantTimeIdEqual id session.id

def storeGet (store : MemoryStore) (id : Bytes) : Option Session :=
  (slotOf store id).bind fun i => store.sessions.getD i none

def storeDestroy (store : MemoryStore) (id : Bytes) : Option MemoryStore :=
  (slotOf store id).map fun i =>
    let last := store.count - 1
    let sessions := if i ≠ last then store.sessions.set i (store.sessions.getD last none) else store.sessions
    { sessions := sessions.set last (some Session.zero), count := last }

/-- The loop of the cleanup: what is left of it, where it reads and where it writes. -/
def compact (now : Int) : Nat → Nat → Nat → List (Option Session) → List (Option Session) × Nat
  | 0, _, j, sessions => (sessions, j)
  | left + 1, i, j, sessions =>
    if (sessions.getD i none).all fun session => sessionIsExpired session now then compact now left (i + 1) j sessions
    else compact now left (i + 1) (j + 1) (sessions.set j (sessions.getD i none))

def storeCleanup (now : Int) (store : MemoryStore) : MemoryStore :=
  let (sessions, j) := compact now store.count 0 0 store.sessions
  let wiped := List.replicate (store.count - j) (some Session.zero)
  { sessions := sessions.take j ++ wiped ++ sessions.drop store.count, count := j }

/-! ## session.c -/

def hexDigit (n : Byte) : Byte := (ascii "0123456789abcdef").getD n.toNat 0

def randomHex (chars : Nat) (random : Nat → Byte) : Bytes :=
  (((List.range ((chars + 1) / 2)).map random).flatMap fun b : Byte =>
    [hexDigit ((b >>> 4) &&& 0x0F), hexDigit (b &&& 0x0F)]).take chars

/-- What surrounds a call: the clock, the bytes of the random generator when it gives any, and whether memory can grow. -/
structure Surroundings where
  now : Int
  random : Option (Nat → Byte)
  grows : Bool

def newSession (config : SecurityConfig) (now : Int) (random : Nat → Byte) (userId : Bytes) (ttl : Int) : Session where
  id := padded sessionIdSize (randomHex config.sessionIdLength random)
  userId := padded userIdSize userId
  expiresAt := now + ttl

def sessionCreate (config : SecurityConfig) (env : Surroundings) (store : MemoryStore) (userId : Bytes) (ttl : Int) :
    SessionStatus × MemoryStore × Session :=
  if userId.length = 0 ∨ userId.length ≥ userIdSize then (.invalidConfig, store, Session.zero)
  else if ttl > sessionLifetimeMaxSeconds then (.invalidConfig, store, Session.zero)
  else
    match env.random with
    | none => (.randomFailed, store, Session.zero)
    | some random =>
      let session := newSession config env.now random userId ttl
      match storeCreate env.grows store session with
      | none => (.alloc, store, Session.zero)
      | some store => (.ok, store, session)

/-- `out` is what the caller's session holds before. -/
def sessionGet (env : Surroundings) (store : MemoryStore) (id : Bytes) (out : Session) : SessionStatus × Session :=
  match storeGet store id with
  | none => (.notFound, out)
  | some session => if session.expiresAt ≤ env.now then (.expired, Session.zero) else (.ok, session)

def sessionDestroy (store : MemoryStore) (id : Bytes) : SessionStatus × MemoryStore :=
  match storeDestroy store id with
  | none => (.notFound, store)
  | some store => (.ok, store)

def sessionCleanupExpired (env : Surroundings) (store : MemoryStore) : SessionStatus × MemoryStore :=
  (.ok, storeCleanup env.now store)

structure CText where
  bytes : Bytes
  clean : (0 : Byte) ∉ bytes

inductive SessionOp where
  | create (config : SecurityConfig) (userId : CText) (ttl : Int)
  | get (id : CText) (out : Session)
  | destroy (id : CText)
  | cleanup

/-- What a call answers, the store behind it and, of the calls that have one, the caller's session. -/
def SessionOp.perform (op : SessionOp) (env : Surroundings) (store : MemoryStore) :
    SessionStatus × MemoryStore × Option Session :=
  match op with
  | .create config userId ttl =>
    let r := sessionCreate config env store userId.bytes ttl
    (r.1, r.2.1, some r.2.2)
  | .get id out =>
    let r := sessionGet env store id.bytes out
    (r.1, store, some r.2)
  | .destroy id =>
    let r := sessionDestroy store id.bytes
    (r.1, r.2, none)
  | .cleanup =>
    let r := sessionCleanupExpired env store
    (r.1, r.2, none)

end BlueBird.Security
