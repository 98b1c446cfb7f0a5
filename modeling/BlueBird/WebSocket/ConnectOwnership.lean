import BlueBird.Program.Runs
import BlueBird.WebSocket.Connect

/-! When the async connection of a websocket that is connected has one owner. -/

namespace BlueBird.WebSocket

open Accesses (Access Clean clean_cons)
open Net (Link WriteRun ReadRun)
open Runs (run Throughout Along throughout_iff_along)

def HandshakeRead.isError : HandshakeRead → Bool
  | .error => true
  | _ => false

namespace Connecting

/-- Nothing is used that was freed. Once the user has been told, the websocket does not point to an async connection that
    is gone; with the websocket, the async connection has gone, once. -/
structure Owned (c : Connecting) : Prop where
  clean : Clean c.history
  cleared : c.told ≠ [] → c.websocket = true → c.asyncConn = true → .free .asyncConn ∉ c.history
  once : c.websocket = false → c.history.count (.free .asyncConn) = if c.created then 1 else 0

/-- The random bytes and their base64 are there, a callback that is told of the missing memory leaves the websocket alone,
    and the handshake is not read with an error. -/
def Clears (c : Connecting) : Move → Prop
  | .connect d => (parseWsUrl d.url).isSome = true → d.connects = true →
      if d.data then d.random = true ∧ d.base64 = true else c.callback ≠ .destroysOwn
  | .read run chunk create => run ≠ .failed ∧ run ≠ .unarmed ∧
      (run = .bytes → ∀ data, c.data = some data → (handshakeReadStep create data (c.buffer ++ chunk)).1.isError = false)
  | _ => True

variable {c : Connecting}

/-! ## What the functions use and free -/

theorem mem_touch {pieces : List Piece} {piece : Piece} :
    .free piece ∈ (c.touch pieces).history ↔ .free piece ∈ c.history := by
  show _ ∈ (pieces.map Access.use).reverse ++ c.history ↔ _
  simp

theorem clean_touch {pieces : List Piece} (clean : Clean c.history) (there : ∀ piece ∈ pieces, .free piece ∉ c.history) :
    Clean (c.touch pieces).history := by
  show Clean ((pieces.map Access.use).reverse ++ c.history)
  rw [← List.map_reverse]
  have back : ∀ piece ∈ pieces.reverse, .free piece ∉ c.history := fun piece member => there piece (List.mem_reverse.mp member)
  generalize pieces.reverse = order at back
  induction order with
  | nil => exact clean
  | cons piece rest ih =>
    rcases List.forall_mem_cons.mp back with ⟨first, others⟩
    rw [List.map_cons, List.cons_append, clean_cons]
    exact ⟨by simpa [Access.about] using first, ih others⟩

theorem mem_free {freed piece : Piece} : .free piece ∈ (c.free freed).history ↔ piece = freed ∨ .free piece ∈ c.history := by
  show _ ∈ Access.free freed :: c.history ↔ _
  simp

theorem clean_free {piece : Piece} (clean : Clean c.history) (there : .free piece ∉ c.history) : Clean (c.free piece).history :=
  (clean_cons _ _).mpr ⟨there, clean⟩

theorem handleDisconnect_mem {piece : Piece} : .free piece ∈ c.handleDisconnect.history ↔ .free piece ∈ c.history := by
  unfold handleDisconnect
  dsimp only
  split_ifs
  · rw [mem_touch, mem_touch]
  · rw [mem_touch]

theorem handleDisconnect_clean (clean : Clean c.history) (asyncConn : .free .asyncConn ∉ c.history)
    (websocket : c.link.hook = true → .free .websocket ∉ c.history) : Clean c.handleDisconnect.history := by
  have looked : Clean ({ c with link := c.link.handleDisconnect.1 }.touch [.asyncConn]).history := by
    apply clean_touch clean
    simpa using asyncConn
  unfold handleDisconnect
  dsimp only
  split_ifs with hooked
  · have hook : c.link.hook = true := by
      unfold Link.handleDisconnect at hooked
      split at hooked
      · cases hooked
      · exact hooked
    apply clean_touch looked
    intro piece member
    rw [List.mem_singleton.mp member, mem_touch]
    exact websocket hook
  · exact looked

theorem closeConn_mem {piece : Piece} : .free piece ∈ c.closeConn.history ↔
    piece = .connection ∧ c.link.connection = true ∨ .free piece ∈ c.history := by
  unfold closeConn
  dsimp only
  rw [handleDisconnect_mem]
  split_ifs with open_
  · rw [mem_free]
    show _ ∨ .free piece ∈ (c.touch [.asyncConn]).history ↔ _
    rw [mem_touch]
    have same : c.link.connection = true := open_
    simp [same]
  · have same : ¬ c.link.connection = true := open_
    rw [mem_touch]
    simp [same]

theorem closeConn_clean (clean : Clean c.history) (asyncConn : .free .asyncConn ∉ c.history)
    (connection : c.link.connection = true → .free .connection ∉ c.history)
    (websocket : c.link.hook = true → .free .websocket ∉ c.history) : Clean c.closeConn.history := by
  have looked : Clean (c.touch [.asyncConn]).history := clean_touch clean (by simpa using asyncConn)
  unfold closeConn
  dsimp only
  split_ifs with open_
  · apply handleDisconnect_clean
    · exact clean_free looked (mem_touch.not.mpr (connection open_))
    · rw [mem_free]
      show ¬ (_ ∨ .free .asyncConn ∈ (c.touch [.asyncConn]).history)
      rw [mem_touch]
      simpa using asyncConn
    · intro hook
      rw [mem_free]
      show ¬ (_ ∨ .free .websocket ∈ (c.touch [.asyncConn]).history)
      rw [mem_touch]
      simpa using websocket hook
  · exact handleDisconnect_clean looked (mem_touch.not.mpr asyncConn) fun hook => mem_touch.not.mpr (websocket hook)

theorem destroyConn_mem {piece : Piece} : .free piece ∈ c.destroyConn.history ↔
    piece = .asyncConn ∨ piece = .connection ∧ c.link.connection = true ∨ .free piece ∈ c.history := by
  unfold destroyConn
  rw [mem_free, closeConn_mem]

theorem destroyConn_clean (clean : Clean c.history) (asyncConn : .free .asyncConn ∉ c.history)
    (connection : c.link.connection = true → .free .connection ∉ c.history)
    (websocket : c.link.hook = true → .free .websocket ∉ c.history) : Clean c.destroyConn.history := by
  apply clean_free (closeConn_clean clean asyncConn connection websocket)
  rw [closeConn_mem]
  rintro (⟨same, _⟩ | before)
  · cases same
  · exact asyncConn before

theorem handleDisconnect_eq (c : Connecting) :
    c.handleDisconnect = { c with link := c.link.handleDisconnect.1, history := c.handleDisconnect.history } := by
  unfold handleDisconnect
  dsimp only
  split_ifs <;> rfl

theorem closeConn_eq (c : Connecting) : c.closeConn = { c with link := c.link.closed, history := c.closeConn.history } := by
  unfold closeConn
  dsimp only
  split_ifs with open_
  · rw [handleDisconnect_eq]
    rfl
  · have same : ({ c.link with connection := false } : Link) = c.link := by
      have closed : c.link.connection = false := Bool.eq_false_iff.mpr open_
      rw [← closed]
    unfold Link.closed
    rw [handleDisconnect_eq, same]
    rfl

theorem destroyConn_eq (c : Connecting) :
    c.destroyConn = { c with link := c.link.closed, history := c.destroyConn.history } := by
  have closed := c.closeConn_eq
  unfold destroyConn
  rw [closed]
  rfl

/-! ## The pieces have one owner -/

/-- The websocket and its async connection are there as long as they are pointed to. -/
structure Parted (c : Connecting) : Prop where
  clean : Clean c.history
  websocket : c.websocket = true → .free .websocket ∉ c.history
  asyncConn : c.websocket = true → c.asyncConn = true → c.created = true ∧ .free .asyncConn ∉ c.history
  connection : c.websocket = true → c.asyncConn = true → c.link.connection = true → .free .connection ∉ c.history
  gone : c.created = true → c.websocket = false ∨ c.asyncConn = false → .free .asyncConn ∈ c.history
  never : c.created = false → .free .asyncConn ∉ c.history

theorem Parted.owned (parted : c.Parted) : c.Owned where
  clean := parted.clean
  cleared _ there pointed := (parted.asyncConn there pointed).2
  once gone := by
    cases created : c.created with
    | true => exact parted.clean.once (parted.gone created (Or.inl gone))
    | false => exact List.count_eq_zero_of_not_mem (parted.never created)

theorem Parted.destroyConn (parted : c.Parted) (there : c.websocket = true) (pointed : c.asyncConn = true) :
    Clean c.destroyConn.history ∧ .free .websocket ∉ c.destroyConn.history := by
  have asyncConn := parted.asyncConn there pointed
  have websocket := parted.websocket there
  refine ⟨destroyConn_clean parted.clean asyncConn.2 (parted.connection there pointed) fun _ => websocket, ?_⟩
  rw [destroyConn_mem]
  simpa using websocket

theorem destroy_mem {piece : Piece} : .free piece ∈ c.destroy.history ↔ piece = .websocket ∨
    c.asyncConn = true ∧ (piece = .asyncConn ∨ piece = .connection ∧ c.link.connection = true) ∨
      .free piece ∈ c.history := by
  unfold destroy
  dsimp only
  rw [mem_free]
  show _ ∨ Access.free piece ∈ (ite _ _ _ : Connecting).history ↔ _
  split_ifs with pointed
  · have pointed : c.asyncConn = true := pointed
    rw [destroyConn_mem, mem_touch]
    show _ ∨ _ ∨ piece = .connection ∧ c.link.connection = true ∨ .free piece ∈ (c.touch [.websocket]).history ↔ _
    rw [mem_touch]
    simp [pointed, or_assoc]
  · have pointed : ¬ c.asyncConn = true := pointed
    rw [mem_touch]
    simp [pointed]

theorem destroy_eq (c : Connecting) : ∃ link, c.link.Fewer link ∧
    (c.asyncConn = true → (c.link.disconnected = true → c.link.Idle) → link.Idle) ∧
      c.destroy = { c with websocket := false, link, history := c.destroy.history } := by
  unfold destroy
  dsimp only
  split_ifs with pointed
  · have unhooked : ({ c.link with hook := false } : Link).closed.Idle ∨ ¬ (c.link.disconnected = true → c.link.Idle) := by
      by_cases idle : c.link.disconnected = true → c.link.Idle
      · exact Or.inl (@Link.closed_idle { c.link with hook := false } idle)
      · exact Or.inr idle
    refine ⟨({ c.link with hook := false } : Link).closed, ({ c.link with hook := false } : Link).closed_fewer,
      fun _ idle => unhooked.resolve_right (not_not_intro idle), ?_⟩
    rw [destroyConn_eq]
    rfl
  · exact ⟨c.link, .refl _, fun pointed_ => absurd pointed_ pointed, rfl⟩

theorem Parted.destroy (parted : c.Parted) (there : c.websocket = true) : c.destroy.Parted := by
  have websocket := parted.websocket there
  have clean : Clean c.destroy.history := by
    have looked : Clean (c.touch [.websocket]).history := clean_touch parted.clean (by simpa using websocket)
    unfold Connecting.destroy
    dsimp only
    apply clean_free
    · show Clean (ite _ _ _ : Connecting).history
      split_ifs with pointed
      · have asyncConn := (parted.asyncConn there pointed).2
        apply destroyConn_clean
        · apply clean_touch looked
          intro piece member
          rw [List.mem_singleton.mp member]
          exact mem_touch.not.mpr asyncConn
        · rw [mem_touch]
          exact mem_touch.not.mpr asyncConn
        · intro open_
          rw [mem_touch]
          exact mem_touch.not.mpr (parted.connection there pointed open_)
        · intro hook
          cases hook
      · exact looked
    · show Access.free Piece.websocket ∉ (ite _ _ _ : Connecting).history
      split_ifs
      · rw [destroyConn_mem, mem_touch]
        have before : .free .websocket ∉ (c.touch [.websocket]).history := mem_touch.not.mpr websocket
        simpa using before
      · exact mem_touch.not.mpr websocket
  rcases c.destroy_eq with ⟨link, _, _, same⟩
  rw [same]
  refine ⟨clean, (fun still => by cases still), (fun still => by cases still), (fun still => by cases still),
    fun created _ => ?_, fun created => ?_⟩
  · show Access.free Piece.asyncConn ∈ c.destroy.history
    rw [destroy_mem]
    cases pointed : c.asyncConn with
    | true => exact Or.inr (Or.inl ⟨rfl, Or.inl rfl⟩)
    | false => exact Or.inr (Or.inr (parted.gone created (Or.inr pointed)))
  · show Access.free Piece.asyncConn ∉ c.destroy.history
    rw [destroy_mem]
    rintro (same | ⟨pointed, _⟩ | before)
    · cases same
    · have made := (parted.asyncConn there pointed).1
      rw [show c.created = false from created] at made
      cases made
    · exact parted.never created before

theorem Parted.tell (parted : c.Parted) (there : c.websocket = true) (success null : Bool) : (c.tell success null).Parted := by
  have told : Parted { c with told := success :: c.told } :=
    ⟨parted.clean, parted.websocket, parted.asyncConn, parted.connection, parted.gone, parted.never⟩
  unfold Connecting.tell
  dsimp only
  split
  · exact told
  · split
    · exact told
    · exact told.destroy there
  · exact told.destroy there

theorem tell_data (c : Connecting) (success null : Bool) :
    .free .data ∈ (c.tell success null).history ↔ .free .data ∈ c.history := by
  unfold Connecting.tell
  dsimp only
  split
  · rfl
  · split_ifs
    · rfl
    · rw [destroy_mem]
      simp
  · rw [destroy_mem]
    simp

theorem tell_eq (c : Connecting) (success null : Bool) : ∃ websocket link, c.link.Fewer link ∧ c.tell success null =
    { c with told := success :: c.told, websocket, link, history := (c.tell success null).history } := by
  have destroyed : ∃ websocket link, c.link.Fewer link ∧ { c with told := success :: c.told }.destroy =
      { c with told := success :: c.told, websocket, link, history := { c with told := success :: c.told }.destroy.history } := by
    rcases destroy_eq { c with told := success :: c.told } with ⟨link, fewer, _, same⟩
    exact ⟨false, link, fewer, same⟩
  unfold Connecting.tell
  dsimp only
  split
  · exact ⟨c.websocket, c.link, .refl _, rfl⟩
  · split
    · exact ⟨c.websocket, c.link, .refl _, rfl⟩
    · exact destroyed
  · exact destroyed

theorem Parted.free (parted : c.Parted) {freed : Piece} (own : freed = .data ∨ freed = .parser) (there : .free freed ∉ c.history) :
    (c.free freed).Parted := by
  have other : ∀ piece, piece = .websocket ∨ piece = .asyncConn ∨ piece = .connection →
      (.free piece ∈ (c.free freed).history ↔ .free piece ∈ c.history) := by
    intro piece shared
    rw [mem_free]
    have differs : piece ≠ freed := by
      rcases own with rfl | rfl <;> rcases shared with rfl | rfl | rfl <;> decide
    simp [differs]
  refine ⟨clean_free parted.clean there, fun still => ?_, fun still pointed => ?_, fun still pointed open_ => ?_,
    fun created either => ?_, fun created => ?_⟩
  · exact (other _ (by simp)).not.mpr (parted.websocket still)
  · exact ⟨(parted.asyncConn still pointed).1, (other _ (by simp)).not.mpr (parted.asyncConn still pointed).2⟩
  · exact (other _ (by simp)).not.mpr (parted.connection still pointed open_)
  · exact (other _ (by simp)).mpr (parted.gone created either)
  · exact (other _ (by simp)).not.mpr (parted.never created)

theorem Parted.touch (parted : c.Parted) {pieces : List Piece} (there : ∀ piece ∈ pieces, .free piece ∉ c.history) :
    (c.touch pieces).Parted :=
  ⟨clean_touch parted.clean there, fun still => mem_touch.not.mpr (parted.websocket still),
    fun still pointed => ⟨(parted.asyncConn still pointed).1, mem_touch.not.mpr (parted.asyncConn still pointed).2⟩,
    fun still pointed open_ => mem_touch.not.mpr (parted.connection still pointed open_),
    fun created either => mem_touch.mpr (parted.gone created either), fun created => mem_touch.not.mpr (parted.never created)⟩

/-! ## How far the handshake is -/

/-- It is not decided, and nothing was freed. -/
structure Held (c : Connecting) : Prop where
  started : c.started = true
  websocket : c.websocket = true
  asyncConn : c.asyncConn = true
  created : c.created = true
  data : c.data ≠ none
  told : c.told = []
  open_ : c.link.connection = true
  idle : c.link.disconnected = true → c.link.Idle
  single : c.link.readTask = true → c.link.writeTask = false
  clean : Clean c.history
  unfreed : ∀ piece, .free piece ∉ c.history

structure Settled (c : Connecting) : Prop where
  parted : c.Parted
  started : c.websocket = true → c.started = true
  writing : c.link.writeTask = false
  reading : c.link.readTask = false ∨ c.data = none

theorem Held.parted (held : c.Held) : c.Parted where
  clean := held.clean
  websocket _ := held.unfreed _
  asyncConn _ _ := ⟨held.created, held.unfreed _⟩
  connection _ _ _ := held.unfreed _
  gone _ either := by
    rcases either with gone | gone
    · rw [held.websocket] at gone
      cases gone
    · rw [held.asyncConn] at gone
      cases gone
  never created := by
    rw [held.created] at created
    cases created

theorem Held.touch (held : c.Held) (pieces : List Piece) : (c.touch pieces).Held :=
  { held with
    clean := clean_touch held.clean fun piece _ => held.unfreed piece
    unfreed := fun piece => mem_touch.not.mpr (held.unfreed piece) }

theorem Held.link (held : c.Held) {link : Link} (open_ : link.connection = true) (idle : link.disconnected = true → link.Idle)
    (single : link.readTask = true → link.writeTask = false) : Held { c with link } :=
  { held with open_, idle, single }

theorem idle_single {l : Link} (idle : l.Idle) : l.readTask = true → l.writeTask = false := fun _ => idle.2

theorem Held.handleDisconnect (held : c.Held) : c.handleDisconnect.Held := by
  have idle := Link.handleDisconnect_idle held.idle
  have linked : Held { c with link := c.link.handleDisconnect.1 } :=
    held.link (c.link.handleDisconnect_connection.trans held.open_) (fun _ => idle) (idle_single idle)
  unfold Connecting.handleDisconnect
  dsimp only
  split_ifs
  · exact (linked.touch _).touch _
  · exact linked.touch _

/-! ## What a move leaves -/

theorem Parted.freeData (parted : c.Parted) (there : .free .data ∉ c.history) : c.freeData.Parted := by
  have none_ : Parted { c with data := none } :=
    ⟨parted.clean, parted.websocket, parted.asyncConn, parted.connection, parted.gone, parted.never⟩
  exact none_.free (Or.inl rfl) there

theorem Parted.decided (parted : c.Parted) (there : c.websocket = true) (started : c.started = true)
    (data : .free .data ∉ c.history) (writing : c.link.writeTask = false) (success null : Bool) :
    (c.tell success null).freeData.Settled := by
  have told := (parted.tell there success null).freeData ((tell_data c success null).not.mpr data)
  rcases c.tell_eq success null with ⟨websocket, link, fewer, same⟩
  refine ⟨told, fun _ => ?_, ?_, Or.inr rfl⟩
  · rw [same]
    exact started
  · rw [same]
    show link.writeTask = false
    by_contra task
    rw [fewer.2 ((Bool.not_eq_false _).mp task)] at writing
    cases writing

theorem Held.writeFailed (held : c.Held) : c.writeFailed.Settled := by
  have still := held.touch [.data, .websocket, .asyncConn]
  have destroyed := still.parted.destroyConn still.websocket still.asyncConn
  have same := (c.touch [.data, .websocket, .asyncConn]).destroyConn_eq
  have idle : (c.touch [.data, .websocket, .asyncConn]).link.closed.Idle := Link.closed_idle held.idle
  have parted : Parted { (c.touch [.data, .websocket, .asyncConn]).destroyConn with asyncConn := false } := by
    refine ⟨destroyed.1, fun _ => destroyed.2, (fun _ pointed => by cases pointed), (fun _ pointed => by cases pointed),
      fun _ _ => destroyConn_mem.mpr (Or.inl rfl), fun created => ?_⟩
    have made : c.created = false := by
      rw [same] at created
      exact created
    rw [held.created] at made
    cases made
  have data : .free .data ∉ (c.touch [.data, .websocket, .asyncConn]).destroyConn.history := by
    rw [destroyConn_mem]
    rintro (same | ⟨same, _⟩ | before)
    · cases same
    · cases same
    · exact still.unfreed _ before
  have there : ∀ piece ∈ [Piece.websocket],
      .free piece ∉ { (c.touch [.data, .websocket, .asyncConn]).destroyConn with asyncConn := false }.history := by
    intro piece member
    rw [List.mem_singleton.mp member]
    exact destroyed.2
  unfold Connecting.writeFailed
  dsimp only
  rw [if_pos still.open_]
  apply (parted.touch there).decided
  · show (c.touch [.data, .websocket, .asyncConn]).destroyConn.websocket = true
    rw [same]
    exact held.websocket
  · show (c.touch [.data, .websocket, .asyncConn]).destroyConn.started = true
    rw [same]
    exact held.started
  · exact mem_touch.not.mpr data
  · show (c.touch [.data, .websocket, .asyncConn]).destroyConn.link.writeTask = false
    rw [same]
    exact idle.2

theorem Held.writeDone (held : c.Held) (stopped : c.link.writeTask = false) (running : c.link.disconnected = false)
    (armed : Bool) : (c.writeDone armed).Held := by
  have still := held.touch [.data, .websocket, .asyncConn]
  rcases c.link.createReadTask_eq armed with ⟨readTask, link⟩
  have armed_ : Held { c.touch [.data, .websocket, .asyncConn] with link := { c.link with readTask } } :=
    still.link held.open_ (fun ended => by rw [running] at ended; cases ended) fun _ => stopped
  rw [← link] at armed_
  exact armed_

theorem Held.running (held : c.Held) (task : c.link.writeTask = true ∨ c.link.readTask = true) : c.link.disconnected = false := by
  by_contra ended
  have idle := held.idle ((Bool.not_eq_false _).mp ended)
  rcases task with writing | reading
  · rw [idle.2] at writing
    cases writing
  · rw [idle.1] at reading
    cases reading

theorem Held.runWrite (held : c.Held) (task : c.link.writeTask = true) (run : WriteRun) (armed : Bool) :
    (c.runWrite run armed).Held ∨ (c.runWrite run armed).Settled := by
  have looked := held.touch [.asyncConn, .connection]
  have running := held.running (Or.inl task)
  have stopped : Held { c.touch [.asyncConn, .connection] with link := { c.link with writeTask := false } } :=
    looked.link held.open_ (fun ended => by rw [running] at ended; cases ended) fun _ => rfl
  cases run with
  | waits => exact Or.inl looked
  | done => exact Or.inl (stopped.writeDone rfl running armed)
  | failed => exact Or.inr stopped.writeFailed
  | unarmed => exact Or.inr stopped.writeFailed
  | closed => exact Or.inr stopped.handleDisconnect.writeFailed

theorem Held.answered (held : c.Held) (task : c.link.readTask = true) (buffer : Bytes) :
    (((({ { c with buffer }.touch [.parser] with parser := false }.free .parser).touch [.websocket, .asyncConn]).tell
      true false).freeData).Settled := by
  have filled : Held { c with buffer } := { held with }
  have read : Held { { c with buffer }.touch [.parser] with parser := false } := { filled.touch [.parser] with }
  have other : ∀ piece, piece ≠ .parser →
      .free piece ∉ ({ { c with buffer }.touch [.parser] with parser := false }.free .parser).history := by
    intro piece differs
    rw [mem_free]
    rintro (same | before)
    · exact differs same
    · exact read.unfreed piece before
  have freed := read.parted.free (Or.inr rfl) (read.unfreed _)
  have there : ∀ piece ∈ [Piece.websocket, Piece.asyncConn],
      .free piece ∉ ({ { c with buffer }.touch [.parser] with parser := false }.free .parser).history := by
    intro piece member
    apply other
    rintro rfl
    simp at member
  exact (freed.touch there).decided held.websocket held.started (mem_touch.not.mpr (other _ (by decide))) (held.single task)
    true false

theorem Held.readStep (held : c.Held) (task : c.link.readTask = true) {data : HandshakeData} {create : Bool}
    (fine : (handshakeReadStep create data c.buffer).1.isError = false) :
    (c.readStep data create).Held ∨ (c.readStep data create).Settled := by
  have looked : Held { c.touch [.data, .websocket, .asyncConn, .connection] with
      parser := c.parser || create, offered := c.buffer } := { held.touch [.data, .websocket, .asyncConn, .connection] with }
  unfold Connecting.readStep
  dsimp only
  rw [show (c.touch [.data, .websocket, .asyncConn, .connection]).buffer = c.buffer from rfl]
  cases step : handshakeReadStep create data c.buffer with
  | mk result left =>
    cases result with
    | more data' =>
      have more : Held { { c.touch [.data, .websocket, .asyncConn, .connection] with
          parser := c.parser || create, offered := c.buffer } with data := some data', buffer := left } :=
        { looked with data := Option.some_ne_none _ }
      exact Or.inl (more.touch [.parser])
    | error =>
      rw [step] at fine
      cases fine
    | done => exact Or.inr (looked.answered task left)

theorem Held.runRead (held : c.Held) (task : c.link.readTask = true) {data : HandshakeData} {run : ReadRun} {chunk : Bytes}
    {create : Bool} (armed : run ≠ .failed ∧ run ≠ .unarmed)
    (fine : run = .bytes → (handshakeReadStep create data (c.buffer ++ chunk)).1.isError = false) :
    (c.runRead data run chunk create).Held ∨ (c.runRead data run chunk create).Settled := by
  have looked := held.touch [.asyncConn, .connection]
  have read : Held { c.touch [.asyncConn, .connection] with buffer := c.buffer ++ chunk } := { looked with }
  cases run with
  | waits => exact Or.inl read
  | bytes => exact read.readStep task (fine rfl)
  | failed => exact absurd rfl armed.1
  | unarmed => exact absurd rfl armed.2
  | closed => exact Or.inl looked.handleDisconnect

theorem Held.destroy (held : c.Held) : c.destroy.Settled := by
  have parted := held.parted.destroy held.websocket
  rcases c.destroy_eq with ⟨link, _, idle, same⟩
  have none_ := idle held.asyncConn held.idle
  rw [same] at parted ⊢
  exact ⟨parted, (fun still => by cases still), none_.2, Or.inl none_.1⟩

theorem Settled.destroy (settled : c.Settled) (there : c.websocket = true) : c.destroy.Settled := by
  have parted := settled.parted.destroy there
  rcases c.destroy_eq with ⟨link, fewer, _, same⟩
  rw [same] at parted ⊢
  refine ⟨parted, (fun still => by cases still), ?_, ?_⟩
  · have writing := settled.writing
    by_contra task
    rw [fewer.2 ((Bool.not_eq_false _).mp task)] at writing
    cases writing
  · rcases settled.reading with stopped | none_
    · refine Or.inl ?_
      by_contra task
      rw [fewer.1 ((Bool.not_eq_false _).mp task)] at stopped
      cases stopped
    · exact Or.inr none_

/-! ## The call itself -/

theorem fresh_parted (callback : ConnectCb) : Parted { callback, started := true } := by
  constructor <;> simp

theorem fresh_told (callback : ConnectCb) (null : Bool) : (tell { callback, started := true } false null).Settled := by
  have parted := (fresh_parted callback).tell rfl false null
  rcases tell_eq { callback, started := true } false null with ⟨websocket, link, fewer, same⟩
  rw [same] at parted ⊢
  refine ⟨parted, fun _ => rfl, ?_, Or.inr rfl⟩
  by_contra task
  cases fewer.2 ((Bool.not_eq_false _).mp task)

def opened (callback : ConnectCb) : Connecting :=
  { callback, started := true, created := true, asyncConn := true, link := { hook := true },
    history := [.use .asyncConn, .use .websocket] }

theorem connect_opened (callback : ConnectCb) {d : Dialing} (url : (parseWsUrl d.url).isSome = true) (connects : d.connects = true) :
    connect { callback } d =
      if d.data = false then { ((opened callback).tell false true).destroyConn with asyncConn := false }.touch [.websocket]
      else
        let c := { opened callback with allocated := true, data := some {} }.touch [.data]
        if d.random = false ∨ d.base64 = false then (c.tell false true).freeData.destroyConn
        else
          let c := c.touch [.connection, .websocket, .asyncConn]
          { c with link := (c.link.createWriteTask d.armed).1 } := by
  have some_ : ¬ (parseWsUrl d.url).isNone = true :=
    Option.isNone_iff_eq_none.not.mpr (Option.isSome_iff_ne_none.mp url)
  have there : ¬ d.connects = false := by
    rw [connects]
    decide
  unfold connect
  dsimp only
  rw [if_neg some_, if_neg there]
  by_cases data : d.data = false
  · rw [if_pos data, if_pos data]
    rfl
  · rw [if_neg data, if_neg data]
    by_cases random : d.random = false
    · rw [if_pos random, if_pos (Or.inl random)]
      rfl
    · rw [if_neg random]
      by_cases base64 : d.base64 = false
      · rw [if_pos base64, if_pos (Or.inr base64)]
        rfl
      · rw [if_neg base64, if_neg fun either => either.elim random base64]
        rfl

theorem opened_parted (callback : ConnectCb) : (opened callback).Parted := by
  constructor <;> simp [opened, Access.about]

theorem opened_cleared {callback : ConnectCb} (alone : callback ≠ .destroysOwn) :
    (({ ((opened callback).tell false true).destroyConn with asyncConn := false } : Connecting).touch [.websocket]).Settled := by
  have told : (opened callback).tell false true = { opened callback with told := [false] } := by
    cases callback with
    | nothing => rfl
    | destroysArgument => rfl
    | destroysOwn => exact absurd rfl alone
  have parted : Parted { opened callback with told := [false] } := { opened_parted callback with }
  have destroyed := parted.destroyConn rfl rfl
  have same := destroyConn_eq { opened callback with told := [false] }
  rw [told]
  refine ⟨?_, fun _ => ?_, ?_, Or.inr ?_⟩
  · refine ⟨clean_touch destroyed.1 fun piece member => ?_, fun _ => mem_touch.not.mpr destroyed.2,
      (fun _ pointed => by cases pointed), (fun _ pointed => by cases pointed),
      fun _ _ => mem_touch.mpr (destroyConn_mem.mpr (Or.inl rfl)), fun created => ?_⟩
    · rw [List.mem_singleton.mp member]
      exact destroyed.2
    · rw [same] at created
      cases created
  · rw [same]
    rfl
  · rw [same]
    rfl
  · rw [same]
    rfl

theorem opened_held (callback : ConnectCb) (armed : Bool) : Held
    { ({ opened callback with allocated := true, data := some {} }.touch [.data]).touch [.connection, .websocket, .asyncConn] with
      link := (({ hook := true } : Link).createWriteTask armed).1 } := by
  constructor <;> cases armed <;> simp [opened, touch, Access.about, Link.createWriteTask]

/-! ## A pointer that is left behind -/

theorem touch_suffix (c : Connecting) (pieces : List Piece) : c.history <:+ (c.touch pieces).history :=
  List.suffix_append _ _

theorem handleDisconnect_suffix (c : Connecting) : c.history <:+ c.handleDisconnect.history := by
  unfold handleDisconnect
  dsimp only
  split_ifs
  · exact (touch_suffix _ _).trans (touch_suffix _ _)
  · exact touch_suffix _ _

theorem destroyConn_suffix (c : Connecting) : (c.touch [.asyncConn]).history <:+ c.destroyConn.history := by
  unfold destroyConn closeConn
  dsimp only
  refine List.IsSuffix.trans ?_ (List.suffix_cons _ _)
  split_ifs
  · refine List.IsSuffix.trans ?_ (handleDisconnect_suffix _)
    exact List.suffix_cons _ _
  · exact handleDisconnect_suffix _

theorem destroyConn_dangling (gone : .free .asyncConn ∈ c.history) : ¬ Clean c.destroyConn.history := by
  intro clean
  have looked := clean.suffix c.destroyConn_suffix
  exact ((clean_cons _ _).mp looked).1 gone

theorem destroy_suffix (c : Connecting) (pointed : c.asyncConn = true) :
    Access.use .asyncConn :: .use .websocket :: c.history <:+ c.destroy.history := by
  have pointed_ : (c.touch [.websocket]).asyncConn = true := pointed
  unfold destroy
  dsimp only
  refine List.IsSuffix.trans ?_ (List.suffix_cons _ _)
  show _ <:+ (ite _ _ _ : Connecting).history
  rw [if_pos pointed_]
  refine List.IsSuffix.trans ?_ (destroyConn_suffix _)
  exact touch_suffix (touch { c.touch [.websocket] with link := _ } [.asyncConn]) [.asyncConn]

theorem destroy_dangling (pointed : c.asyncConn = true) (gone : .free .asyncConn ∈ c.history) : ¬ Clean c.destroy.history := by
  intro clean
  have looked := clean.suffix (c.destroy_suffix pointed)
  exact ((clean_cons _ _).mp looked).1 (List.mem_cons_of_mem _ gone)

theorem tell_nothing (alone : c.callback = .nothing) (success null : Bool) :
    c.tell success null = { c with told := success :: c.told } := by
  unfold tell
  dsimp only
  rw [alone]

theorem tell_destroys (success : Bool) (destroys : c.callback ≠ .nothing) :
    c.tell success false = destroy { c with told := success :: c.told } := by
  unfold tell
  dsimp only
  split
  · exact absurd ‹_› destroys
  · rfl
  · rfl

theorem tell_lost (there : c.websocket = true) (pointed : c.asyncConn = true) (gone : .free .asyncConn ∈ c.history)
    (success : Bool) : ¬ (c.tell success false).freeData.Owned := by
  intro owned
  by_cases alone : c.callback = .nothing
  · rw [tell_nothing alone] at owned
    exact owned.cleared (List.cons_ne_nil _ _) there pointed (List.mem_cons_of_mem _ gone)
  · rw [tell_destroys success alone] at owned
    exact @destroy_dangling { c with told := success :: c.told } pointed gone (owned.clean.suffix (List.suffix_cons _ _))

theorem readError_lost (there : c.websocket = true) (pointed : c.asyncConn = true) : ¬ c.readError.Owned := by
  have parsed : ∃ parser history, (if (c.touch [.data, .websocket]).parser then
      { c.touch [.data, .websocket] with parser := false }.free .parser else c.touch [.data, .websocket]) =
        { c with parser, history } := by
    split_ifs
    · exact ⟨_, _, rfl⟩
    · exact ⟨_, _, rfl⟩
  rcases parsed with ⟨parser, history, same⟩
  have still := destroyConn_eq { c with parser, history }
  unfold readError
  dsimp only
  rw [same]
  apply tell_lost
  · rw [still]
    exact there
  · rw [still]
    exact pointed
  · exact destroyConn_mem.mpr (Or.inl rfl)

theorem opened_lost {callback : ConnectCb} : ¬ Owned
    ((({ opened callback with allocated := true, data := some {} }.touch [.data]).tell false true).freeData.destroyConn) := by
  intro owned
  cases callback with
  | destroysOwn =>
    refine destroyConn_dangling ?_ owned.clean
    exact List.mem_cons_of_mem _ (destroy_mem.mpr (Or.inr (Or.inl ⟨rfl, Or.inl rfl⟩)))
  | nothing =>
    have still := destroyConn_eq (({ opened .nothing with allocated := true, data := some {} }.touch [.data]).tell false true).freeData
    refine owned.cleared ?_ ?_ ?_ (destroyConn_mem.mpr (Or.inl rfl))
    · rw [still]
      exact List.cons_ne_nil _ _
    · rw [still]
      rfl
    · rw [still]
      rfl
  | destroysArgument =>
    have still :=
      destroyConn_eq (({ opened .destroysArgument with allocated := true, data := some {} }.touch [.data]).tell false true).freeData
    refine owned.cleared ?_ ?_ ?_ (destroyConn_mem.mpr (Or.inl rfl))
    · rw [still]
      exact List.cons_ne_nil _ _
    · rw [still]
      rfl
    · rw [still]
      rfl

theorem opened_destroyed : ¬ Owned
    (({ ((opened .destroysOwn).tell false true).destroyConn with asyncConn := false } : Connecting).touch [.websocket]) := by
  intro owned
  refine @destroyConn_dangling ((opened .destroysOwn).tell false true) ?_ (owned.clean.suffix (List.suffix_append _ _))
  exact destroy_mem.mpr (Or.inr (Or.inl ⟨rfl, Or.inl rfl⟩))

/-! ## Whole runs -/

def Owning (c : Connecting) : Prop := c = { callback := c.callback } ∨ c.Held ∨ c.Settled

theorem Owning.owned (owning : c.Owning) : c.Owned := by
  rcases owning with fresh | held | settled
  · rw [fresh]
    constructor <;> simp
  · exact held.parted.owned
  · exact settled.parted.owned

theorem connect_owning (callback : ConnectCb) {d : Dialing} (clears : Clears { callback } (.connect d)) :
    (connect { callback } d).Owning := by
  refine Or.inr ?_
  by_cases url : (parseWsUrl d.url).isSome = true
  · by_cases connects : d.connects = true
    · have fine := clears url connects
      rw [connect_opened callback url connects]
      cases data : d.data with
      | false =>
        rw [data] at fine
        rw [if_pos rfl]
        exact Or.inr (opened_cleared fine)
      | true =>
        rw [data] at fine
        have both : d.random = true ∧ d.base64 = true := fine
        have neither : ¬ (d.random = false ∨ d.base64 = false) := by
          rw [both.1, both.2]
          decide
        rw [if_neg (by decide)]
        dsimp only
        rw [if_neg neither]
        exact Or.inl (opened_held callback d.armed)
    · have refused : connect { callback } d = tell { callback, started := true } false true := by
        unfold connect
        dsimp only
        rw [if_neg (Option.isNone_iff_eq_none.not.mpr (Option.isSome_iff_ne_none.mp url)), if_pos (Bool.eq_false_iff.mpr connects)]
      rw [refused]
      exact Or.inr (fresh_told callback true)
  · have refused : connect { callback } d = tell { callback, started := true } false false := by
      unfold connect
      dsimp only
      rw [if_pos (by simpa using url)]
    rw [refused]
    exact Or.inr (fresh_told callback false)

theorem connect_lost {callback : ConnectCb} {d : Dialing} (lost : ¬ Clears { callback } (.connect d)) :
    ¬ (connect { callback } d).Owned := by
  unfold Clears at lost
  rw [Classical.not_imp, Classical.not_imp] at lost
  rcases lost with ⟨url, connects, lost⟩
  rw [connect_opened callback url connects]
  cases data : d.data with
  | false =>
    rw [data] at lost
    have own : callback = .destroysOwn := Classical.not_not.mp lost
    rw [if_pos rfl, own]
    exact opened_destroyed
  | true =>
    rw [data] at lost
    have either : d.random = false ∨ d.base64 = false := by
      have neither : ¬ (d.random = true ∧ d.base64 = true) := lost
      rw [not_and_or, Bool.not_eq_true, Bool.not_eq_true] at neither
      exact neither
    rw [if_neg (by decide)]
    dsimp only
    rw [if_pos either]
    exact opened_lost

theorem fresh_destroyed (callback : ConnectCb) : (destroy { callback }).Settled := by
  constructor
  · constructor <;> simp [destroy, touch, free, Access.about]
  · intro still
    cases still
  · rfl
  · exact Or.inl rfl

theorem Settled.still (settled : c.Settled) {data : HandshakeData} (some_ : c.data = some data) : ¬ c.link.readTask = true := by
  rcases settled.reading with stopped | none_
  · rw [stopped]
    decide
  · rw [none_] at some_
    cases some_

theorem owning_step {move : Move} {d : Connecting} (owning : c.Owning) (clears : c.Clears move) (step : c.step move = some d) :
    d.Owning := by
  cases move with
  | connect dialing =>
    simp only [Connecting.step, Option.ite_none_right_eq_some, Option.some.injEq] at step
    rcases step with ⟨⟨fresh, there⟩, rfl⟩
    rcases owning with same | held | settled
    · rw [same] at clears ⊢
      exact connect_owning _ clears
    · rw [held.started] at fresh
      cases fresh
    · rw [settled.started there] at fresh
      cases fresh
  | write run armed =>
    simp only [Connecting.step, Option.ite_none_right_eq_some, Option.some.injEq] at step
    rcases step with ⟨task, rfl⟩
    rcases owning with same | held | settled
    · rw [same] at task
      cases task
    · exact Or.inr (held.runWrite task run armed)
    · rw [settled.writing] at task
      cases task
  | read run chunk create =>
    unfold Connecting.step at step
    cases held_ : c.data with
    | none =>
      rw [held_] at step
      cases step
    | some data =>
      rw [held_] at step
      simp only [Option.ite_none_right_eq_some, Option.some.injEq] at step
      rcases step with ⟨task, rfl⟩
      rcases owning with same | held | settled
      · rw [same] at task
        cases task
      · rcases clears with ⟨sound, armed, fine⟩
        exact Or.inr (held.runRead task ⟨sound, armed⟩ fun bytes => fine bytes data held_)
      · exact absurd task (settled.still held_)
  | destroy =>
    simp only [Connecting.step, Option.ite_none_right_eq_some, Option.some.injEq] at step
    rcases step with ⟨there, rfl⟩
    rcases owning with same | held | settled
    · rw [same]
      exact Or.inr (Or.inr (fresh_destroyed _))
    · exact Or.inr (Or.inr held.destroy)
    · exact Or.inr (Or.inr (settled.destroy there))

theorem Held.readStep_lost (held : c.Held) {data : HandshakeData} {create : Bool}
    (fails : (handshakeReadStep create data c.buffer).1.isError = true) : ¬ (c.readStep data create).Owned := by
  unfold Connecting.readStep
  dsimp only
  rw [show (c.touch [.data, .websocket, .asyncConn, .connection]).buffer = c.buffer from rfl]
  cases step : handshakeReadStep create data c.buffer with
  | mk result left =>
    cases result with
    | error => exact readError_lost held.websocket held.asyncConn
    | more data' =>
      rw [step] at fails
      cases fails
    | done =>
      rw [step] at fails
      cases fails

theorem step_lost {move : Move} {d : Connecting} (owning : c.Owning) (lost : ¬ c.Clears move) (step : c.step move = some d) :
    ¬ d.Owned := by
  cases move with
  | connect dialing =>
    simp only [Connecting.step, Option.ite_none_right_eq_some, Option.some.injEq] at step
    rcases step with ⟨⟨fresh, there⟩, rfl⟩
    rcases owning with same | held | settled
    · rw [same] at lost ⊢
      exact connect_lost lost
    · rw [held.started] at fresh
      cases fresh
    · rw [settled.started there] at fresh
      cases fresh
  | write run armed => exact absurd trivial lost
  | read run chunk create =>
    unfold Connecting.step at step
    cases held_ : c.data with
    | none =>
      rw [held_] at step
      cases step
    | some data =>
      rw [held_] at step
      simp only [Option.ite_none_right_eq_some, Option.some.injEq] at step
      rcases step with ⟨task, rfl⟩
      rcases owning with same | held | settled
      · rw [same] at task
        cases task
      · have looked := held.touch [.asyncConn, .connection]
        cases run with
        | waits => exact absurd ⟨by decide, by decide, fun bytes => by cases bytes⟩ lost
        | closed => exact absurd ⟨by decide, by decide, fun bytes => by cases bytes⟩ lost
        | failed => exact readError_lost looked.websocket looked.asyncConn
        | unarmed => exact readError_lost looked.websocket looked.asyncConn
        | bytes =>
          have read : Held { c.touch [.asyncConn, .connection] with buffer := c.buffer ++ chunk } := { looked with }
          apply read.readStep_lost
          by_contra fine
          refine lost ⟨by decide, by decide, fun _ other same => ?_⟩
          rw [held_] at same
          cases same
          exact Bool.eq_false_iff.mpr fine
      · exact absurd task (settled.still held_)
  | destroy => exact absurd trivial lost

/-- The pieces have one owner throughout a run exactly when each of its moves clears what it should. -/
theorem owned_iff_clears (callback : ConnectCb) {moves : List Move} (possible : (run Connecting.step { callback } moves).isSome = true) :
    Throughout Connecting.step Owned { callback } moves ↔ Along Connecting.step Clears { callback } moves := by
  refine @throughout_iff_along _ _ Connecting.step Clears Owning Owned _ _ (Or.inl rfl) ?_ ?_ ?_ possible
  · exact fun _ _ _ owning clears step => owning_step owning clears step
  · exact fun _ owning => owning.owned
  · exact fun _ _ _ owning lost step => step_lost owning lost step

/-- The peer refuses the bytes of the handshake, and the user destroys the websocket. -/
def failedWrite : List Move := [.connect { url := ascii "ws://a" }, .write .failed true, .destroy]

theorem owned_failedWrite : Throughout Connecting.step Owned { callback := .nothing } failedWrite := by
  refine (owned_iff_clears .nothing (by decide +kernel)).mpr (Runs.along_cons ?_ fun _ _ => Runs.along_cons trivial fun _ _ =>
    Runs.along_cons trivial fun _ _ => Runs.along_nil _)
  intro _ _
  exact ⟨rfl, rfl⟩

/-- Without random bytes the async connection is destroyed, and the websocket still points to it. -/
theorem not_owned_random : ¬ ∀ callback moves, (run Connecting.step { callback } moves).isSome = true →
    Throughout Connecting.step Owned { callback } moves := by
  intro all
  have throughout := all .nothing [.connect { url := ascii "ws://a", random := false }] (by decide +kernel)
  have owned := throughout _ _ (List.prefix_refl _) rfl
  have cleared := owned.cleared
  revert cleared
  decide +kernel

end Connecting
end BlueBird.WebSocket
