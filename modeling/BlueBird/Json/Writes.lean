import BlueBird.Json.RoundTrip
import BlueBird.Memory.Writes

/-! The writes that the serializer makes into its buffer, wherever in the recursion it makes them. -/

namespace BlueBird.Json

open Memory (Write performAll Within)

variable {R : Type}

/-- A tracer gives what a printer writes into a buffer of the size that it is given, each write from
    where its own buffer begins, and its length. -/
abbrev Tracer := Nat → List (Write Byte) × Int

def snprintfWrites (size : Nat) (text : Bytes) : List (Write Byte) :=
  if size = 0 then [] else [⟨0, text.take (size - 1) ++ [0]⟩]

def putsWrites (text : Bytes) : Tracer := fun size => (snprintfWrites size text, text.length)

def copiesWrites (text : Bytes) : Tracer := fun _ => ([⟨0, text ++ [0]⟩], text.length)

def fitsWrites (text : Bytes) (length : Int) : Tracer := fun size =>
  (if size > text.length then [⟨0, text ++ [0]⟩] else if size > 0 then [⟨0, [0]⟩] else [], length)

def putsKeyWrites (key : Bytes) : Tracer := fun size =>
  (if size > (escapeString (cString key)).length + 4 then [⟨0, quoted (cString key) ++ ascii ": " ++ [0]⟩] else [],
    (escapeString (cString key)).length + 4)

def traceAll (narrow : Int → Int) (size : Nat) : List Tracer → Int → List (Write Byte) × Int
  | [], len => ([], len)
  | tracer :: tracers, len =>
    let traced := tracer (size - len.toNat)
    let moved := traced.1.map (Write.move len.toNat)
    if traced.2 < 0 then (moved, -1)
    else
      let rest := traceAll narrow size tracers (narrow (len + traced.2))
      (moved ++ rest.1, rest.2)

variable [Reals R]

mutual

/-- The writes of `serialize_json_to_allocated_buffer`, and with an indent those of
    `serialize_json_with_indent`. -/
def serializeWrites : Json R → Option Nat → Tracer
  | null, _ => copiesWrites (ascii "null")
  | bool value, _ => copiesWrites (if value then ascii "true" else ascii "false")
  | int value, _ => putsWrites (formatInt value.toInt)
  | real value, _ => fitsWrites (Reals.formatReal value) (Reals.formatReal value).length
  | text value, _ => fitsWrites (quoted (value.getD [])) (toInt (quoted (value.getD [])).length)
  | array items, indent => fun size =>
    traceAll toInt size
      (arrayLayout putsWrites (arrayIndent indent items) (itemWrites items (deeper (arrayIndent indent items)))) 0
  | object entries, indent => fun size =>
    let traced := traceAll toSize size (objectLayout putsWrites putsKeyWrites indent (entryWrites entries (deeper indent))) 0
    (traced.1, toInt traced.2)

def itemWrites : List (Json R) → Option Nat → List Tracer
  | [], _ => []
  | item :: items, indent => serializeWrites item indent :: itemWrites items indent

def entryWrites : List (Bytes × Json R) → Option Nat → List (Bytes × Tracer)
  | [], _ => []
  | (key, value) :: entries, indent => (key, serializeWrites value indent) :: entryWrites entries indent

end

/-- In a buffer with room for the text the writes leave the text with its NUL, and none of them goes
    further than that. -/
structure Leaves (tracer : Tracer) (text : Bytes) (size : Nat) : Prop where
  length : (tracer size).2 = text.length
  inside : Within (text.length + 1) (tracer size).1
  performs : ∀ memory, performAll memory (tracer size).1 = text ++ 0 :: memory.drop (text.length + 1)

def Traces (tracer : Tracer) (text : Bytes) : Prop :=
  text.length < 2^31 → ∀ size, text.length < size → Leaves tracer text size

omit [Reals R] in
theorem leaves_of_write {tracer : Tracer} {text : Bytes} {size : Nat}
    (traced : tracer size = ([⟨0, text ++ [0]⟩], (text.length : Int))) : Leaves tracer text size where
  length := by rw [traced]
  inside := by
    rw [traced]
    intro write member
    rw [List.mem_singleton] at member
    subst member
    show 0 + (text ++ [0]).length ≤ _
    rw [List.length_append, List.length_singleton]
    omega
  performs memory := by
    rw [traced]
    show memory.take 0 ++ ((text ++ [0]) ++ memory.drop (0 + (text ++ [0]).length)) = _
    rw [List.take_zero, List.nil_append, Nat.zero_add, List.length_append, List.length_singleton, List.append_assoc]
    rfl

theorem putsWrites_traces (text : Bytes) : Traces (putsWrites text) text := by
  intro _ size room
  apply leaves_of_write
  have whole : text.take (size - 1) = text := List.take_of_length_le (by omega)
  unfold putsWrites snprintfWrites
  rw [if_neg (by omega), whole]

theorem copiesWrites_traces (text : Bytes) : Traces (copiesWrites text) text :=
  fun _ _ _ => leaves_of_write rfl

theorem fitsWrites_traces (text : Bytes) {length : Int} (exact_ : text.length < 2^31 → length = text.length) :
    Traces (fitsWrites text length) text := by
  intro small size room
  apply leaves_of_write
  unfold fitsWrites
  rw [if_pos room, exact_ small]

theorem putsKeyWrites_traces (key : Bytes) : Traces (putsKeyWrites key) (keyText key) := by
  intro _ size room
  have length := keyText_length key
  rw [length] at room
  apply leaves_of_write
  unfold putsKeyWrites
  rw [if_pos room, length]
  rfl

theorem traceAll_leaves {narrow : Int → Int} (exact_ : Exact narrow) (size : Nat) {tracers : List Tracer}
    {texts : List Bytes} (traces : List.Forall₂ Traces tracers texts) (some_ : texts ≠ []) (done : Nat)
    (small : done + texts.flatten.length < 2^31) (room : done + texts.flatten.length < size) :
    (traceAll narrow size tracers done).2 = ((done + texts.flatten.length : Nat) : Int) ∧
      Within (done + texts.flatten.length + 1) (traceAll narrow size tracers done).1 ∧
      ∀ front tail : Bytes, front.length = done →
        performAll (front ++ tail) (traceAll narrow size tracers done).1 =
          front ++ (texts.flatten ++ 0 :: tail.drop (texts.flatten.length + 1)) := by
  induction traces generalizing done with
  | nil => exact absurd rfl some_
  | @cons tracer text tracers texts first others ih =>
    rw [List.flatten_cons, List.length_append] at small room ⊢
    have leaves := first (by omega) (size - done) (by omega)
    have unfolded : traceAll narrow size (tracer :: tracers) done =
        ((tracer (size - done)).1.map (Write.move done) ++ (traceAll narrow size tracers ((done + text.length : Nat) : Int)).1,
          (traceAll narrow size tracers ((done + text.length : Nat) : Int)).2) := by
      have narrowed : narrow ((done : Int) + text.length) = ((done + text.length : Nat) : Int) := by
        rw [exact_ _ (by omega) (by omega), Int.natCast_add]
      rw [traceAll]
      dsimp only
      rw [Int.toNat_natCast, leaves.length, if_neg (by omega), narrowed]
    have moved : ∀ front tail : Bytes, front.length = done →
        performAll (front ++ tail) ((tracer (size - done)).1.map (Write.move done)) =
          (front ++ text) ++ 0 :: tail.drop (text.length + 1) := by
      intro front tail length
      rw [← length, Memory.performAll_move, length, leaves.performs, List.append_assoc]
    rw [unfolded]
    dsimp only
    by_cases last : texts = []
    · subst last
      cases others
      rw [traceAll, List.append_nil, List.flatten_nil, List.append_nil, List.length_nil]
      exact ⟨rfl, leaves.inside.move, fun front tail length => by rw [moved front tail length, List.append_assoc]⟩
    · rcases ih last (done + text.length) (by omega) (by omega) with ⟨length, inside, performs⟩
      refine ⟨by rw [length, Nat.add_assoc], ?_, ?_⟩
      · apply Within.append
        · exact (leaves.inside.move).mono (by omega)
        · exact inside.mono (by omega)
      · intro front tail isFront
        rw [Memory.performAll_append, moved front tail isFront,
          performs (front ++ text) _ (by rw [List.length_append, isFront])]
        simp only [List.append_assoc, List.drop_succ_cons, List.drop_drop, Nat.add_assoc, Nat.add_comm 1]

theorem traceAll_traces {narrow : Int → Int} (exact_ : Exact narrow) {tracers : List Tracer} {texts : List Bytes}
    (traces : List.Forall₂ Traces tracers texts) (some_ : texts ≠ []) (small : texts.flatten.length < 2^31) (size : Nat)
    (room : texts.flatten.length < size) : Leaves (fun size => traceAll narrow size tracers 0) texts.flatten size := by
  rcases traceAll_leaves exact_ size traces some_ 0 (by omega) (by omega) with ⟨length, inside, performs⟩
  rw [Nat.zero_add] at length inside
  exact ⟨length, inside, fun memory => performs [] memory rfl⟩

mutual

theorem serializeWrites_traces : (json : Json R) → (indent : Option Nat) →
    Traces (serializeWrites json indent) (render json indent)
  | null, _ => by
    rw [serializeWrites, render]
    exact copiesWrites_traces _
  | bool value, _ => by
    rw [serializeWrites, render]
    exact copiesWrites_traces _
  | int value, _ => by
    rw [serializeWrites, render]
    exact putsWrites_traces _
  | real value, _ => by
    rw [serializeWrites, render]
    exact fitsWrites_traces _ fun _ => rfl
  | text value, _ => by
    rw [serializeWrites, render]
    exact fitsWrites_traces _ fun small => toInt_small (by omega) (by omega)
  | array items, indent => by
    intro small size room
    rw [serializeWrites]
    rw [render] at small room ⊢
    generalize arrayIndent indent items = indent at small room ⊢
    have layout : List.Forall₂ Traces (arrayLayout putsWrites indent (itemWrites items (deeper indent)))
        (arrayLayout id indent (renderItems items (deeper indent))) :=
      arrayLayout_rel putsWrites_traces _ (itemWrites_traces items _)
    exact traceAll_traces (fun n => toInt_small) layout (by simp [arrayLayout]) small size room
  | object entries, indent => by
    intro small size room
    rw [serializeWrites]
    rw [render] at small room ⊢
    have layout : List.Forall₂ Traces (objectLayout putsWrites putsKeyWrites indent (entryWrites entries (deeper indent)))
        (objectLayout id keyText indent (renderEntries entries (deeper indent))) :=
      objectLayout_rel putsWrites_traces putsKeyWrites_traces indent (entryWrites_traces entries _)
    have leaves := traceAll_traces (fun n => toSize_small) layout (by simp [objectLayout]) small size room
    have length := leaves.length
    refine ⟨?_, leaves.inside, leaves.performs⟩
    dsimp only at length ⊢
    rw [length, toInt_small (Int.natCast_nonneg _) (Int.ofNat_lt.mpr small)]

theorem itemWrites_traces : (items : List (Json R)) → (indent : Option Nat) →
    List.Forall₂ Traces (itemWrites items indent) (renderItems items indent)
  | [], _ => by
    rw [itemWrites, renderItems]
    exact .nil
  | item :: items, indent => by
    rw [itemWrites, renderItems]
    exact .cons (serializeWrites_traces item indent) (itemWrites_traces items indent)

theorem entryWrites_traces : (entries : List (Bytes × Json R)) → (indent : Option Nat) →
    List.Forall₂ (EntryRel Traces) (entryWrites entries indent) (renderEntries entries indent)
  | [], _ => by
    rw [entryWrites, renderEntries]
    exact .nil
  | (_, value) :: entries, indent => by
    rw [entryWrites, renderEntries]
    exact .cons ⟨rfl, serializeWrites_traces value indent⟩ (entryWrites_traces entries indent)

end

theorem serializeJson_performs (json : Json R) (indent : Option Nat) (memory : Bytes) (size : Nat)
    (small : (render json indent).length < 2^31) (room : (render json indent).length < size) :
    serializeJson json indent ⟨some memory, size⟩ =
      (some (performAll memory (serializeWrites json indent size).1), (serializeWrites json indent size).2) := by
  have leaves := serializeWrites_traces json indent small size room
  rw [(serializeJson_prints json indent small).writes memory size room, leaves.performs memory, leaves.length]

/-! ## Measured and written -/

/-- The measured length is that of the text, and the callers allocate one byte more. Whatever such a
    block held, it then holds the text and its NUL, and no write goes past it. -/
structure Measures (json : Json R) (indent : Option Nat) : Prop where
  measured : (serializeJson json indent ⟨none, 0⟩).2 = (render json indent).length
  allocated : toInt ((serializeJson json indent ⟨none, 0⟩).2 + 1) = (render json indent).length + 1
  written : ∀ block : Bytes, block.length = (render json indent).length + 1 →
    serializeJson json indent ⟨some block, block.length⟩ =
      (some (render json indent ++ [0]), ((render json indent).length : Int))
  inside : Within ((render json indent).length + 1) (serializeWrites json indent ((render json indent).length + 1)).1

theorem measures_of_small {json : Json R} {indent : Option Nat} (small : (render json indent).length + 1 < 2^31) :
    Measures json indent := by
  have fills := serializeJson_prints json indent (by omega)
  have leaves := serializeWrites_traces json indent (by omega) ((render json indent).length + 1) (by omega)
  have measured : (serializeJson json indent ⟨none, 0⟩).2 = (render json indent).length := by rw [fills.measures 0]
  refine ⟨measured, ?_, ?_, leaves.inside⟩
  · rw [measured, toInt_small (by omega) (by omega)]
  · intro block length
    rw [fills.writes block block.length (by omega), List.drop_eq_nil_of_le (by omega)]

theorem small_of_measures {json : Json R} {indent : Option Nat} (measures : Measures json indent) :
    (render json indent).length + 1 < 2^31 := by
  have same := measures.allocated
  rw [measures.measured] at same
  have bound : toInt ((render json indent).length + 1) < 2^31 := by
    have half : ((render json indent).length + 1 : Int).bmod (2^32) < ((2^32 : Nat) + 1) / 2 := Int.bmod_lt (by decide)
    unfold toInt
    omega
  omega

theorem serialize_measures_iff (json : Json R) (indent : Option Nat) :
    Measures json indent ↔ (render json indent).length + 1 < 2^31 :=
  ⟨small_of_measures, measures_of_small⟩

theorem render_letters (count : Nat) (indent : Option Nat) :
    (render (R := R) (text (some (List.replicate count (ch 'a')))) indent).length = count + 2 := by
  rw [render, Option.getD_some, quoted_letters]

/-- A text that is 2^31 bytes long with its quotes is measured as less than nothing. -/
theorem not_measures_letters : ¬ ∀ json : Json Rat, @Measures Rat halves json none := by
  intro all
  have some_ : ∃ count, count = 2^31 - 2 := ⟨_, rfl⟩
  rcases some_ with ⟨count, isCount⟩
  have small := @small_of_measures Rat halves _ _ (all (text (some (List.replicate count (ch 'a')))))
  rw [@render_letters Rat halves] at small
  omega

end BlueBird.Json
