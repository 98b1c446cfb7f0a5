import Mathlib.Data.List.Basic
import Mathlib.Data.List.Pairwise

/-! Pieces of memory, used until they are freed. -/

namespace Accesses

variable {ι : Type}

inductive Access (ι : Type) where
  | use (o : ι)
  | free (o : ι)
  deriving DecidableEq, Repr

def Access.about : Access ι → ι
  | .use o | .free o => o

/-- Nothing is used or freed once it is free. -/
def Sound (accesses : List (Access ι)) : Prop :=
  accesses.Pairwise fun earlier later => earlier ≠ .free later.about

instance [DecidableEq ι] (accesses : List (Access ι)) : Decidable (Sound accesses) :=
  inferInstanceAs (Decidable (List.Pairwise _ accesses))

theorem sound_append {front back : List (Access ι)} : Sound (front ++ back) ↔
    Sound front ∧ Sound back ∧ ∀ earlier ∈ front, ∀ later ∈ back, earlier ≠ .free later.about :=
  List.pairwise_append

theorem Sound.append {front back : List (Access ι)} (first : Sound front) (second : Sound back)
    (kept : ∀ later ∈ back, .free later.about ∉ front) : Sound (front ++ back) := by
  refine sound_append.mpr ⟨first, second, fun earlier before later after same => ?_⟩
  rw [same] at before
  exact kept later after before

theorem sound_of_unfreed {accesses : List (Access ι)} (unfreed : ∀ o, .free o ∉ accesses) : Sound accesses := by
  apply List.pairwise_of_forall_mem_list
  intro earlier before later _ same
  rw [same] at before
  exact unfreed later.about before

theorem not_sound_of_freed {front back : List (Access ι)} {later : Access ι} (freed : .free later.about ∈ front)
    (after : later ∈ back) : ¬ Sound (front ++ back) := by
  intro sound
  exact (sound_append.mp sound).2.2 _ freed later after rfl

/-! ## Histories, with the newest access first -/

def Clean (history : List (Access ι)) : Prop := Sound history.reverse

instance [DecidableEq ι] (history : List (Access ι)) : Decidable (Clean history) :=
  inferInstanceAs (Decidable (Sound history.reverse))

@[simp] theorem clean_nil : Clean ([] : List (Access ι)) := List.Pairwise.nil

@[simp] theorem clean_cons (access : Access ι) (history : List (Access ι)) :
    Clean (access :: history) ↔ .free access.about ∉ history ∧ Clean history := by
  unfold Clean
  rw [List.reverse_cons, sound_append]
  constructor
  · intro ⟨earlier, _, apart⟩
    exact ⟨fun freed => apart _ (List.mem_reverse.mpr freed) access List.mem_cons_self rfl, earlier⟩
  · intro ⟨unfreed, earlier⟩
    refine ⟨earlier, List.pairwise_singleton _ _, fun old member later last same => ?_⟩
    rw [List.mem_singleton.mp last] at same
    rw [same] at member
    exact unfreed (List.mem_reverse.mp member)

theorem Clean.suffix {history later : List (Access ι)} (clean : Clean later) (earlier : history <:+ later) : Clean history :=
  List.Pairwise.sublist (List.reverse_sublist.mpr earlier.sublist) clean

theorem Clean.later {front history : List (Access ι)} (first : Clean front) (second : Clean history)
    (kept : ∀ access ∈ front, .free access.about ∉ history) : Clean (front ++ history) := by
  induction front with
  | nil => exact second
  | cons access front ih =>
    rw [clean_cons] at first
    rcases List.forall_mem_cons.mp kept with ⟨now, before⟩
    rw [List.cons_append, clean_cons, List.mem_append]
    exact ⟨fun freed => freed.elim first.1 now, ih first.2 before⟩

theorem Clean.newest {front history : List (Access ι)} (clean : Clean (front ++ history)) : Clean front :=
  List.Pairwise.sublist (List.reverse_sublist.mpr (List.sublist_append_left front history)) clean

theorem Clean.once [DecidableEq ι] {history : List (Access ι)} (clean : Clean history) {o : ι}
    (freed : .free o ∈ history) : history.count (.free o) = 1 := by
  induction history with
  | nil => cases freed
  | cons access history ih =>
    rw [clean_cons] at clean
    by_cases same : access = .free o
    · have before : (.free o : Access ι) ∉ history := by
        rw [same] at clean
        exact clean.1
      rw [same, List.count_cons_self, List.count_eq_zero_of_not_mem before]
    · rw [List.count_cons_of_ne same]
      apply ih clean.2
      rcases List.mem_cons.mp freed with first | later
      · exact absurd first.symm same
      · exact later

end Accesses
