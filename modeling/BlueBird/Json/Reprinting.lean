import BlueBird.Json.RoundTrip

/-! A tree that was read from a text, whatever it is, is printed as a text for the same tree. -/

namespace BlueBird.Json

variable {R : Type} [Reals R]

/-- `Printable` with reals whose texts are read as they were. -/
inductive Reprintable : (levels : Nat) → Json R → Prop
  | null {n} : Reprintable n null
  | bool {n} (value : Bool) : Reprintable n (bool value)
  | int {n} (value : Int32) : Reprintable n (int value)
  | real {n v} : (∀ levels, Denotes levels (Reals.formatReal v) (.value (real v))) → Reprintable n (real v)
  | text {n s} : (0 : Byte) ∉ s → Reprintable n (text (some s))
  | array {n items} : (∀ item ∈ items, Reprintable n item) → Reprintable (n + 1) (array items)
  | object {n entries} : OrderedMap.Distinct entries → (∀ entry ∈ entries, (0 : Byte) ∉ entry.1) →
      (∀ entry ∈ entries, Reprintable n entry.2) → Reprintable (n + 1) (object entries)

theorem Reprintable.denotes {n : Nat} {v : Json R} (reprintable : Reprintable n v) :
    ∀ indent, Denotes n (render v indent) (.value v) := by
  induction reprintable with
  | null => exact (Printable.null).denotes
  | bool value => exact (Printable.bool value).denotes
  | int value => exact (Printable.int value).denotes
  | real formats =>
    intro _
    rw [render]
    exact formats _
  | text clean => exact (Printable.text clean).denotes
  | array _ ih => exact array_denotes ih
  | object distinct keys _ ih => exact object_denotes distinct keys ih

theorem Printable.reprintable {n : Nat} {v : Json R} (printable : Printable n v) : Reprintable n v := by
  induction printable with
  | null => exact .null
  | bool value => exact .bool value
  | int value => exact .int value
  | text clean => exact .text clean
  | array _ ih => exact .array ih
  | object distinct keys _ ih => exact .object distinct keys ih

theorem Reprintable.deeper {n : Nat} {v : Json R} (reprintable : Reprintable n v) : Reprintable (n + 1) v := by
  induction reprintable with
  | null => exact .null
  | bool value => exact .bool value
  | int value => exact .int value
  | real formats => exact .real formats
  | text clean => exact .text clean
  | array _ ih => exact .array ih
  | object distinct keys _ ih => exact .object distinct keys ih

/-- What `format_real` gives for a real that was read is a number for the same real. -/
def FormatsReals (R : Type) [Reals R] : Prop :=
  ∀ (levels : Nat) (token : Bytes) (v : R), Denotes levels token (.value (real v)) →
    ∀ other, Denotes other (Reals.formatReal v) (.value (real v))

/-! ## Texts without a NUL -/

omit [Reals R] in
theorem utf8EncodeChar_clean {c : Char} (other : c.toNat ≠ 0) : (0 : Byte) ∉ String.utf8EncodeChar c := by
  rw [← utf8Encode_toNat]
  have size : c.toNat < 0x110000 := by
    have valid := c.valid
    have same : c.toNat = c.val.toNat := rfl
    rcases valid with low | ⟨_, high⟩ <;> omega
  have nonzero : ∀ k, k % 256 ≠ 0 → UInt8.ofNat k ≠ 0 := by
    intro k some_ zero
    have value := congrArg UInt8.toNat zero
    rw [UInt8.toNat_ofNat'] at value
    exact some_ value
  have marked : ∀ mark k : Nat, mark < 256 → mark ≠ 0 → UInt8.ofNat (mark ||| k) ≠ 0 := by
    intro mark k small some_
    apply nonzero
    intro zero
    have both : (mark ||| k) % 2 ^ 8 = 0 := zero
    rw [Nat.or_mod_two_pow, Nat.or_eq_zero_iff, Nat.mod_eq_of_lt small] at both
    exact some_ both.1
  unfold utf8Encode
  split
  · rename_i ascii_
    simp only [List.mem_singleton]
    exact fun zero => nonzero c.toNat (by omega) zero.symm
  · split
    · simp only [List.mem_cons, List.not_mem_nil, or_false, not_or]
      exact ⟨fun zero => marked _ _ (by decide) (by decide) zero.symm, fun zero => marked _ _ (by decide) (by decide) zero.symm⟩
    · split
      · simp only [List.mem_cons, List.not_mem_nil, or_false, not_or]
        exact ⟨fun zero => marked _ _ (by decide) (by decide) zero.symm, fun zero => marked _ _ (by decide) (by decide) zero.symm,
          fun zero => marked _ _ (by decide) (by decide) zero.symm⟩
      · simp only [List.mem_cons, List.not_mem_nil, or_false, not_or]
        exact ⟨fun zero => marked _ _ (by decide) (by decide) zero.symm, fun zero => marked _ _ (by decide) (by decide) zero.symm,
          fun zero => marked _ _ (by decide) (by decide) zero.symm, fun zero => marked _ _ (by decide) (by decide) zero.symm⟩

omit [Reals R] in
theorem escapeValue_nonzero {mark c : Byte} (escape : escapeValue mark = some c) : c ≠ 0 := by
  unfold escapeValue at escape
  rintro rfl
  repeat' split at escape
  all_goals cases escape

omit [Reals R] in
theorem Chars.text_clean {raw text : Bytes} (chars : Chars raw text) : (0 : Byte) ∉ text := by
  induction chars with
  | nil => exact List.not_mem_nil
  | plain printable _ _ _ ih =>
    refine clean_cons ?_ ih
    rintro rfl
    exact absurd printable (by decide)
  | escape value _ ih => exact clean_cons (escapeValue_nonzero value) ih
  | scalar _ other _ ih => exact clean_append (utf8EncodeChar_clean other) ih
  | pair large _ _ _ ih => exact clean_append (utf8EncodeChar_clean (by omega)) ih

/-! ## What was read -/

def Phrase.Reprintable (n : Nat) : Phrase R → Prop
  | .value v => Json.Reprintable n v
  | .item v => Json.Reprintable n v
  | .items vs => ∀ v ∈ vs, Json.Reprintable n v
  | .member entry => (0 : Byte) ∉ entry.1 ∧ Json.Reprintable n entry.2
  | .members entries => ∀ entry ∈ entries, (0 : Byte) ∉ entry.1 ∧ Json.Reprintable n entry.2

theorem Denotes.reprintable (formats : FormatsReals R) {n : Nat} {text : Bytes} {phrase : Phrase R}
    (denotes : Denotes n text phrase) : phrase.Reprintable n := by
  induction denotes with
  | nullWord => exact .null
  | trueWord => exact .bool true
  | falseWord => exact .bool false
  | int _ _ _ _ => exact .int _
  | @real n minus whole fraction exponent hm hw hf he some_ finite =>
    exact .real (formats n _ _ (.real hm hw hf he some_ finite))
  | text chars => exact .text chars.text_clean
  | noItems _ => exact .array fun item member => absurd member List.not_mem_nil
  | array _ ih => exact .array ih
  | noMembers _ =>
    exact .object List.nodup_nil (fun entry member => absurd member List.not_mem_nil)
      fun entry member => absurd member List.not_mem_nil
  | object _ ih =>
    exact .object (OrderedMap.distinct_collapse _) (fun entry member => (ih entry (OrderedMap.mem_collapse member)).1)
      fun entry member => (ih entry (OrderedMap.mem_collapse member)).2
  | item _ _ _ ih => exact ih
  | lastItem _ ih => exact List.forall_mem_singleton.mpr ih
  | moreItems _ _ ih ihRest => exact List.forall_mem_cons.mpr ⟨ih, ihRest⟩
  | member _ chars _ _ ih => exact ⟨chars.text_clean, ih⟩
  | lastMember _ ih => exact List.forall_mem_singleton.mpr ih
  | moreMembers _ _ ih ihRest => exact List.forall_mem_cons.mpr ⟨ih, ihRest⟩

theorem reprintable_of_parse (formats : FormatsReals R) {text : Bytes} {v : Json R} (clean : (0 : Byte) ∉ text)
    (parsed : parse (text ++ [0]) = .ok v) : Reprintable maxDepth v :=
  (isText_of_parse clean parsed).reprintable formats

end BlueBird.Json
