import Mathlib.Data.List.Basic

namespace Custody

variable {ι : Type} [DecidableEq ι]

/-! ## What is done with a piece of memory -/

inductive Event (ι : Type) where
  | allocate (b : ι)
  | hand (b : ι)
  | read (b : ι)
  | free (b : ι)
  deriving DecidableEq, Repr

inductive Owner where
  | nobody | caller | holder | freed
  deriving DecidableEq, Repr

def Event.about : Event ι → ι
  | .allocate b | .hand b | .read b | .free b => b

/-- `none` is a misuse: a second free, a free or a read by one who does not own it, a read after a free. -/
def Owner.next : Owner → Event ι → Option Owner
  | .nobody, .allocate _ => some .caller
  | .caller, .hand _ => some .holder
  | .caller, .free _ => some .freed
  | .holder, .read _ => some .holder
  | .holder, .free _ => some .freed
  | _, _ => none

/-- Who owns `b` after the events, if none of them misuses it. -/
def track (b : ι) (events : List (Event ι)) (owner : Owner) : Option Owner :=
  events.foldlM (fun owner event => if event.about = b then owner.next event else some owner) owner

/-! ## Tracking through a run -/

theorem track_append (b : ι) (first second : List (Event ι)) (owner : Owner) :
    track b (first ++ second) owner = (track b first owner).bind (track b second) :=
  List.foldlM_append

theorem track_cons (b : ι) (event : Event ι) (events : List (Event ι)) (owner : Owner) :
    track b (event :: events) owner =
      (if event.about = b then owner.next event else some owner).bind (track b events) :=
  List.foldlM_cons

@[simp] theorem track_nil (b : ι) (owner : Owner) : track b [] owner = some owner := rfl

theorem track_one (b : ι) (event : Event ι) (owner : Owner) :
    track b [event] owner = if event.about = b then owner.next event else some owner := by
  rw [track_cons]
  exact Option.bind_fun_some _

theorem track_other {b : ι} {events : List (Event ι)} (others : ∀ event ∈ events, event.about ≠ b)
    (owner : Owner) : track b events owner = some owner := by
  induction events with
  | nil => rfl
  | cons event events ih =>
    rw [track_cons, if_neg (others event (List.mem_cons_self ..)), Option.bind_some]
    exact ih fun later member => others later (List.mem_cons_of_mem _ member)

/-! ## Using up a list of pieces -/

/-- The events used up `held` from its front until `left` remained: they read and freed nothing else. -/
structure Consumed (held left : List ι) (events : List (Event ι)) : Prop where
  suffix : left <:+ held
  about : ∀ event ∈ events, event.about ∈ held
  tracked : ∀ b ∈ held, track b events .holder = some (if b ∈ left then .holder else .freed)

namespace Consumed

variable {held middle left : List ι} {events first second : List (Event ι)} {b : ι}

theorem refl (held : List ι) : Consumed held held [] where
  suffix := List.suffix_refl held
  about := by simp
  tracked b member := by rw [track_nil, if_pos member]

theorem other (consumed : Consumed held left events) (absent : b ∉ held) (owner : Owner) :
    track b events owner = some owner := by
  apply track_other
  intro event member same
  exact absent (same ▸ consumed.about event member)

theorem trans (left_middle : Consumed held middle first) (middle_left : Consumed middle left second) :
    Consumed held left (first ++ second) where
  suffix := middle_left.suffix.trans left_middle.suffix
  about := by
    intro event member
    rcases List.mem_append.mp member with early | late
    · exact left_middle.about event early
    · exact left_middle.suffix.subset (middle_left.about event late)
  tracked := by
    intro b member
    rw [track_append, left_middle.tracked b member, Option.bind_some]
    by_cases kept : b ∈ middle
    · rw [if_pos kept, middle_left.tracked b kept]
    · rw [if_neg kept, middle_left.other kept, if_neg fun still => kept (middle_left.suffix.subset still)]

theorem read (member : b ∈ held) : Consumed held held [.read b] where
  suffix := List.suffix_refl held
  about := by simpa [Event.about] using member
  tracked := by
    intro c inside
    rw [track_one, if_pos inside]
    by_cases same : b = c
    · rw [if_pos (show (Event.read b).about = c from same)]
      rfl
    · rw [if_neg (show (Event.read b).about ≠ c from same)]

theorem free (single : (b :: left).Nodup) : Consumed (b :: left) left [.free b] where
  suffix := List.suffix_cons b left
  about := by simp [Event.about]
  tracked := by
    intro c inside
    have absent := (List.nodup_cons.mp single).1
    rw [track_one]
    rcases List.mem_cons.mp inside with rfl | later
    · rw [if_pos (show (Event.free c).about = c from rfl), if_neg absent]
      rfl
    · have differs : b ≠ c := fun same => absent (same ▸ later)
      rw [if_neg (show (Event.free b).about ≠ c from differs), if_pos later]

end Consumed
end Custody
