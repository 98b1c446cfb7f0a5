import BlueBird.Encoding.Utf8
import BlueBird.Memory.CString
import BlueBird.Memory.Writes
import BlueBird.Persist.Schema
import Mathlib.Data.List.GetD
import Mathlib.Data.UInt

/-! Text copied into a field of fixed size. -/

namespace BlueBird.Persist

open Memory (Write Within performAll stringAt lengthAt)

/-- `bb_persist_copy_text_field`: what is written behind `dst`. A text is what the memory holds from its pointer on; there
    is no result where it has no end. -/
def copyTextFieldWrites (size : Nat) (text : Option Bytes) : Option (List (Write Byte)) :=
  if size = 0 then some []
  else
    match text with
    | none => some [⟨0, List.replicate size 0⟩]
    | some text =>
      (lengthAt text).map fun len =>
        let n := if len < size then len else size - 1
        let n := if n < len then characterStart text n else n
        ⟨0, List.replicate size 0⟩ :: if n > 0 then [⟨0, text.take n⟩] else []

/-! ## The cut -/

theorem characterStart_le (text : Bytes) (n : Nat) : characterStart text n ≤ n := by
  induction n with
  | zero => exact Nat.le_refl 0
  | succ n ih =>
    unfold characterStart
    split
    · exact Nat.le_succ_of_le ih
    · exact Nat.le_refl _

theorem characterStart_passes (text : Bytes) {n i : Nat} (above : characterStart text n < i) (below : i ≤ n) :
    Utf8.Continuation (text.getD i 0) := by
  induction n with
  | zero => omega
  | succ n ih =>
    unfold characterStart at above
    split at above
    · rename_i continues
      rcases Nat.lt_or_eq_of_le below with less | rfl
      · exact ih above (Nat.le_of_lt_succ less)
      · exact continues
    · omega

theorem characterStart_stops (text : Bytes) {n : Nat} (inside : 0 < characterStart text n) :
    ¬ Utf8.Continuation (text.getD (characterStart text n) 0) := by
  induction n with
  | zero => exact absurd inside (Nat.lt_irrefl 0)
  | succ n ih =>
    unfold characterStart at inside ⊢
    split
    · rename_i continues
      rw [if_pos continues] at inside
      exact ih inside
    · rename_i first
      exact first

theorem characterStart_append (text behind : Bytes) {n : Nat} (inside : n < text.length) :
    characterStart (text ++ behind) n = characterStart text n := by
  induction n with
  | zero => rfl
  | succ n ih =>
    unfold characterStart
    rw [List.getD_append _ _ _ _ inside, ih (Nat.lt_of_succ_lt inside)]

/-- What a field of `size` bytes keeps of a text. -/
structure Kept (size : Nat) (text kept : Bytes) : Prop where
  front : kept <+: text
  fits : kept.length < size
  valid : Utf8.Valid text → Utf8.Valid kept
  longest : Utf8.Valid text → ∀ other, Utf8.Valid other → other <+: text → other.length < size → other.length ≤ kept.length

theorem kept_cut {size : Nat} {text : Bytes} (positive : 1 ≤ size) (long : size ≤ text.length) :
    Kept size text (text.take (characterStart text (size - 1))) := by
  have back := characterStart_le text (size - 1)
  have length : (text.take (characterStart text (size - 1))).length = characterStart text (size - 1) := by
    rw [List.length_take]
    omega
  refine ⟨List.take_prefix _ _, by omega, ?_, ?_⟩
  · intro valid
    by_cases start : characterStart text (size - 1) = 0
    · rw [start]
      exact Utf8.valid_nil
    · have first := characterStart_stops text (Nat.pos_of_ne_zero start)
      have here := List.getElem?_eq_getElem (show characterStart text (size - 1) < text.length by omega)
      rw [List.getD_eq_getElem _ _ (by omega)] at first
      exact Utf8.valid_take valid here first
  · intro valid other own front short
    rw [length]
    by_contra further
    have passed := characterStart_passes text (Nat.lt_of_not_le further) (Nat.le_sub_one_of_lt short)
    rcases front with ⟨rest, rfl⟩
    have behind := Utf8.valid_rest own valid
    cases rest with
    | nil =>
      rw [List.append_nil] at long
      omega
    | cons b rest =>
      rw [List.getD_append_right _ _ _ _ (Nat.le_refl _), Nat.sub_self] at passed
      exact Utf8.first_of_valid behind passed

theorem copyTextField_kept {size : Nat} (positive : 1 ≤ size) {text : Bytes} (clean : 0 ∉ text) :
    Kept size text (copyTextField size (some text)) := by
  unfold copyTextField
  rw [if_neg (by omega), Option.getD_some, cString_eq text clean]
  dsimp only
  by_cases fits : text.length < size
  · rw [if_pos fits, if_neg (Nat.lt_irrefl _), List.take_length]
    exact ⟨List.prefix_refl _, fits, id, fun _ other _ front _ => front.length_le⟩
  · have long := Nat.le_of_not_lt fits
    rw [if_neg fits, if_pos (by omega)]
    exact kept_cut positive long

/-! ## What is written -/

theorem copyTextFieldWrites_some {size : Nat} (positive : 1 ≤ size) {text : Bytes} (clean : 0 ∉ text) (behind : Bytes) :
    ∃ n, n ≤ text.length ∧ copyTextField size (some text) = text.take n ∧
      copyTextFieldWrites size (some (text ++ 0 :: behind)) =
        some (⟨0, List.replicate size 0⟩ :: if n > 0 then [⟨0, text.take n⟩] else []) := by
  have len : lengthAt (text ++ 0 :: behind) = some text.length := by
    unfold lengthAt
    rw [Memory.stringAt_append clean]
    rfl
  unfold copyTextFieldWrites copyTextField
  rw [if_neg (by omega), if_neg (by omega), Option.getD_some, cString_eq text clean]
  dsimp only
  rw [len, Option.map_some]
  by_cases fits : text.length < size
  · rw [if_pos fits, if_neg (Nat.lt_irrefl _), if_neg (Nat.lt_irrefl _)]
    exact ⟨text.length, Nat.le_refl _, rfl, by rw [List.take_left, List.take_length]⟩
  · have back := characterStart_le text (size - 1)
    have long : size - 1 < text.length := by omega
    rw [if_neg fits, if_pos long, if_pos long, characterStart_append text _ long,
      List.take_append_of_le_length (by omega)]
    exact ⟨characterStart text (size - 1), by omega, rfl, rfl⟩

theorem performAll_field {size n : Nat} {text dst : Bytes} (fits : (text.take n).length < size) :
    performAll dst (⟨0, List.replicate size 0⟩ :: if n > 0 then [⟨0, text.take n⟩] else []) =
      text.take n ++ 0 :: (List.replicate (size - 1 - (text.take n).length) 0 ++ dst.drop size) := by
  have cleared : Write.perform dst ⟨0, List.replicate size 0⟩ = List.replicate size 0 ++ dst.drop size := by
    unfold Write.perform
    rw [List.length_replicate, Nat.zero_add, List.take_zero, List.nil_append]
  have zeros : ∀ k, k < size → List.replicate (size - k) (0 : Byte) = 0 :: List.replicate (size - 1 - k) 0 := by
    intro k small
    rw [show size - k = (size - 1 - k) + 1 by omega, List.replicate_succ]
  rw [performAll, List.foldl_cons, cleared]
  by_cases some_ : n > 0
  · rw [if_pos some_, List.foldl_cons, List.foldl_nil]
    show ([] ++ (text.take n ++ (List.replicate size 0 ++ dst.drop size).drop (0 + (text.take n).length))) = _
    rw [List.nil_append, Nat.zero_add, List.drop_append_of_le_length (by rw [List.length_replicate]; omega),
      List.drop_replicate, zeros _ fits, List.cons_append]
  · have none_ : n = 0 := by omega
    subst none_
    rw [if_neg some_, List.foldl_nil, List.take_zero, List.length_nil, List.nil_append, ← List.cons_append, ← zeros 0 (by omega),
      Nat.sub_zero]

/-- The field holds what is kept of the text and zeros behind it, and nothing is written outside of it. -/
structure Copied (size : Nat) (text dst : Bytes) (writes : List (Write Byte)) (kept : Bytes) : Prop where
  within : Within size writes
  memory : performAll dst writes = kept ++ (List.replicate (size - kept.length) 0 ++ dst.drop size)
  terminated : stringAt (performAll dst writes) = some kept
  kept : Kept size text kept

/-- For every text: the field holds a front of it that ends in the field, and of a text in UTF-8 the longest that is one. -/
theorem copyTextField_copied {size : Nat} (positive : 1 ≤ size) (dst : Bytes) {text : Bytes} (clean : 0 ∉ text) (behind : Bytes) :
    ∃ writes, copyTextFieldWrites size (some (text ++ 0 :: behind)) = some writes ∧
      Copied size text dst writes (copyTextField size (some text)) := by
  have kept := copyTextField_kept positive clean
  rcases copyTextFieldWrites_some positive clean behind with ⟨n, _, same, writes⟩
  rw [same] at kept ⊢
  have memory := @performAll_field size n text dst kept.fits
  refine ⟨_, writes, ?_, ?_, ?_, kept⟩
  · intro write member
    rcases List.mem_cons.mp member with rfl | later
    · show 0 + (List.replicate size (0 : Byte)).length ≤ size
      rw [List.length_replicate, Nat.zero_add]
    · split at later
      · rw [List.mem_singleton.mp later]
        show 0 + (text.take n).length ≤ size
        have fits := kept.fits
        omega
      · cases later
  · rw [memory, ← List.cons_append, ← List.replicate_succ]
    have fits := kept.fits
    rw [show size - 1 - (text.take n).length + 1 = size - (text.take n).length by omega]
  · rw [memory]
    exact Memory.stringAt_append (fun member => clean (List.mem_of_mem_take member)) _

/-- Six letters and one of two bytes, which a field of eight has no room for. -/
def accented : Bytes := ascii "aaaaaa" ++ [0xC3, 0xA9]

theorem copyTextField_copied_accented : copyTextField 8 (some accented) = ascii "aaaaaa" ∧
    ∃ writes, copyTextFieldWrites 8 (some (accented ++ 0 :: [])) = some writes ∧
      Copied 8 accented (List.replicate 8 0x55) writes (copyTextField 8 (some accented)) :=
  ⟨by decide, copyTextField_copied (by decide) _ (by decide) []⟩

end BlueBird.Persist
