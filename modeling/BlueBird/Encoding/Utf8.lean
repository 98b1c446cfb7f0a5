import BlueBird.Bytes
import Mathlib.Data.List.Infix

/-! Texts in UTF-8, and where they may be cut. -/

namespace Utf8

open BlueBird (forall_byte)

/-- `10xxxxxx` -/
def Continuation (b : UInt8) : Prop := b &&& 0xC0 = 0x80

instance (b : UInt8) : Decidable (Continuation b) := inferInstanceAs (Decidable (_ = _))

def encode (chars : List Char) : List UInt8 := chars.flatMap String.utf8EncodeChar

def Valid (text : List UInt8) : Prop := ∃ chars, text = encode chars

/-! ## One character -/

theorem continuation_of_low (x : Nat) : Continuation (UInt8.ofNat (x % 0x40 + 0x80)) := by
  have each : ∀ n : Fin 0x40, Continuation (UInt8.ofNat (n.val + 0x80)) := by decide
  exact each ⟨x % 0x40, Nat.mod_lt _ (by decide)⟩

theorem not_continuation_first {b : UInt8} (first : b.IsUTF8FirstByte) : ¬ Continuation b := by
  revert first
  exact forall_byte (motive := fun b => b.IsUTF8FirstByte → ¬ Continuation b) (by decide +kernel) b

theorem char_parts (c : Char) : ∃ first rest, String.utf8EncodeChar c = first :: rest ∧ ¬ Continuation first ∧
    ∀ b ∈ rest, Continuation b := by
  have lead := @UInt8.isUTF8FirstByte_getElem_zero_utf8EncodeChar c
  have tail : ∃ first rest, String.utf8EncodeChar c = first :: rest ∧ ∀ b ∈ rest, Continuation b := by
    unfold String.utf8EncodeChar
    dsimp only
    split_ifs
    · exact ⟨_, _, rfl, fun b member => absurd member List.not_mem_nil⟩
    · refine ⟨_, _, rfl, ?_⟩
      simp only [List.mem_singleton, forall_eq]
      exact continuation_of_low _
    · refine ⟨_, _, rfl, ?_⟩
      simp only [List.mem_cons, List.not_mem_nil, or_false, forall_eq_or_imp, forall_eq]
      exact ⟨continuation_of_low _, continuation_of_low _⟩
    · refine ⟨_, _, rfl, ?_⟩
      simp only [List.mem_cons, List.not_mem_nil, or_false, forall_eq_or_imp, forall_eq]
      exact ⟨continuation_of_low _, continuation_of_low _, continuation_of_low _⟩
  rcases tail with ⟨first, rest, same, continues⟩
  refine ⟨first, rest, same, ?_, continues⟩
  simp only [same, List.getElem_cons_zero] at lead
  exact not_continuation_first lead

theorem char_unique {c d : Char} {x y : List UInt8} (same : String.utf8EncodeChar c ++ x = String.utf8EncodeChar d ++ y) :
    c = d := by
  have decodes : ∀ (c : Char) (x : List UInt8), (String.utf8EncodeChar c ++ x).toByteArray.utf8DecodeChar? 0 = some c := by
    intro c x
    rw [List.toByteArray_append]
    exact ByteArray.utf8DecodeChar?_utf8EncodeChar_append
  have first := decodes c x
  rw [same, decodes d y] at first
  exact (Option.some.inj first).symm

/-! ## Texts -/

theorem encode_cons (c : Char) (chars : List Char) : encode (c :: chars) = String.utf8EncodeChar c ++ encode chars := rfl

theorem valid_nil : Valid [] := ⟨[], rfl⟩

theorem valid_rest {front rest : List UInt8} (before : Valid front) (whole : Valid (front ++ rest)) : Valid rest := by
  rcases before with ⟨chars, rfl⟩
  rcases whole with ⟨all, same⟩
  induction chars generalizing all with
  | nil => exact ⟨all, same⟩
  | cons c chars ih =>
    rw [encode_cons, List.append_assoc] at same
    cases all with
    | nil =>
      rcases char_parts c with ⟨first, tail, char, _⟩
      rw [char] at same
      cases same
    | cons d all =>
      rw [encode_cons] at same
      have one := char_unique same
      subst one
      exact ih all (List.append_cancel_left same)

theorem first_of_valid {b : UInt8} {rest : List UInt8} (valid : Valid (b :: rest)) : ¬ Continuation b := by
  rcases valid with ⟨chars, same⟩
  cases chars with
  | nil => cases same
  | cons c chars =>
    rcases char_parts c with ⟨first, tail, char, lead, _⟩
    rw [encode_cons, char] at same
    rw [(List.cons.inj same).1]
    exact lead

theorem valid_take {text : List UInt8} (valid : Valid text) {n : Nat} {b : UInt8} (here : text[n]? = some b)
    (first : ¬ Continuation b) : Valid (text.take n) := by
  rcases valid with ⟨chars, rfl⟩
  induction chars generalizing n with
  | nil => exact absurd here (by simp [encode])
  | cons c chars ih =>
    rcases char_parts c with ⟨lead, tail, char, _, continues⟩
    rw [encode_cons] at here ⊢
    by_cases inside : n < (String.utf8EncodeChar c).length
    · rw [List.getElem?_append_left inside, char] at here
      cases n with
      | zero => exact ⟨[], rfl⟩
      | succ n => exact absurd (continues b (List.mem_of_getElem? here)) first
    · have beyond := Nat.le_of_not_lt inside
      rw [List.getElem?_append_right beyond] at here
      rcases ih here with ⟨front, same⟩
      refine ⟨c :: front, ?_⟩
      rw [List.take_append, List.take_of_length_le beyond, same, encode_cons]

end Utf8
