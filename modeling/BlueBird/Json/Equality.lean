import BlueBird.Json.RoundTrip

/-! What `bb_json_equal` compares: arrays in order, objects as maps. -/

namespace BlueBird.Json

variable {R : Type} [Reals R]

/-- Trees without reals, with their texts set, nested however deep. -/
abbrev Tree (R : Type) := { v : Json R // ∃ levels, Printable levels v }

def Same (a b : Json R) : Prop := equal a b = true

theorem equalItems_iff {as bs : List (Json R)} (length : as.length = bs.length) :
    equalItems as bs = true ↔ List.Forall₂ Same as bs := by
  induction as generalizing bs with
  | nil =>
    cases bs with
    | nil => exact iff_of_true (by rw [equalItems]; simp) .nil
    | cons _ _ => cases length
  | cons a as ih =>
    cases bs with
    | nil => cases length
    | cons b bs =>
      rw [equalItems, Bool.and_eq_true, List.forall₂_cons, ih (Nat.succ.inj length)]
      exact Iff.rfl

theorem same_array {as bs : List (Json R)} : Same (array as) (array bs) ↔ List.Forall₂ Same as bs := by
  unfold Same
  rw [equal, Bool.and_eq_true, beq_iff_eq]
  constructor
  · rintro ⟨length, items⟩
    exact (equalItems_iff length).mp items
  · intro items
    exact ⟨items.length_eq, (equalItems_iff items.length_eq).mpr items⟩

theorem equalEntries_iff {as bs : List (Bytes × Json R)} :
    equalEntries as bs = true ↔ ∀ entry ∈ as, ∃ other, objectGetValue bs entry.1 = some other ∧ Same entry.2 other := by
  induction as with
  | nil => exact iff_of_true (by rw [equalEntries]) fun entry member => absurd member List.not_mem_nil
  | cons entry as ih =>
    rw [equalEntries, Bool.and_eq_true, ih, List.forall_mem_cons]
    apply and_congr_left
    intro _
    cases objectGetValue bs entry.1 with
    | none => simp
    | some other => simp [Same]

theorem same_object {as bs : List (Bytes × Json R)} (distinctA : OrderedMap.Distinct as) (distinctB : OrderedMap.Distinct bs) :
    Same (object as) (object bs) ↔ OrderedMap.Related Same as bs := by
  unfold Same
  rw [equal, Bool.and_eq_true, beq_iff_eq, equalEntries_iff]
  exact (OrderedMap.related_iff distinctA distinctB).symm

theorem same_bool {a b : Bool} : Same (R := R) (bool a) (bool b) ↔ a = b := by
  unfold Same
  rw [equal, beq_iff_eq]

theorem same_int {a b : Int32} : Same (R := R) (int a) (int b) ↔ a = b := by
  unfold Same
  rw [equal, beq_iff_eq]

theorem same_text {s t : Bytes} (cleanS : (0 : Byte) ∉ s) (cleanT : (0 : Byte) ∉ t) :
    Same (R := R) (text (some s)) (text (some t)) ↔ s = t := by
  unfold Same
  rw [equal, beq_iff_eq, cString_of_clean cleanS, cString_of_clean cleanT]

/-! ## An equivalence -/

omit [Reals R] in
theorem forall₂_symm {r s : Json R → Json R → Prop} {as bs : List (Json R)} (related : List.Forall₂ r as bs)
    (each : ∀ a ∈ as, ∀ b ∈ bs, r a b → s b a) : List.Forall₂ s bs as := by
  induction related with
  | nil => exact .nil
  | cons here _ ih =>
    apply List.Forall₂.cons
    · exact each _ (List.mem_cons_self ..) _ (List.mem_cons_self ..) here
    · exact ih fun a inA b inB => each a (List.mem_cons_of_mem _ inA) b (List.mem_cons_of_mem _ inB)

omit [Reals R] in
theorem forall₂_trans {r : Json R → Json R → Prop} {as bs cs : List (Json R)} (first : List.Forall₂ r as bs)
    (second : List.Forall₂ r bs cs) (each : ∀ a ∈ as, ∀ b ∈ bs, ∀ c ∈ cs, r a b → r b c → r a c) :
    List.Forall₂ r as cs := by
  induction first generalizing cs with
  | nil =>
    cases second
    exact .nil
  | cons here _ ih =>
    cases second with
    | cons there rest =>
      apply List.Forall₂.cons
      · exact each _ (List.mem_cons_self ..) _ (List.mem_cons_self ..) _ (List.mem_cons_self ..) here there
      · exact ih rest fun a inA b inB c inC =>
          each a (List.mem_cons_of_mem _ inA) b (List.mem_cons_of_mem _ inB) c (List.mem_cons_of_mem _ inC)

theorem Printable.same_symm {n : Nat} {a : Json R} (printable : Printable n a) :
    ∀ {m : Nat} {b : Json R}, Printable m b → Same a b → Same b a := by
  induction printable with
  | null =>
    intro m b other same
    cases other with
    | null => exact same
    | _ => simp [Same, equal] at same
  | bool value =>
    intro m b other same
    cases other with
    | bool _ => exact same_bool.mpr (same_bool.mp same).symm
    | _ => simp [Same, equal] at same
  | int value =>
    intro m b other same
    cases other with
    | int _ => exact same_int.mpr (same_int.mp same).symm
    | _ => simp [Same, equal] at same
  | text clean =>
    intro m b other same
    cases other with
    | text otherClean => exact (same_text otherClean clean).mpr ((same_text clean otherClean).mp same).symm
    | _ => simp [Same, equal] at same
  | array _ ih =>
    intro m b other same
    cases other with
    | array others =>
      apply same_array.mpr
      exact forall₂_symm (same_array.mp same) fun a inA b inB => ih a inA (others b inB)
    | _ => simp [Same, equal] at same
  | object distinct _ _ ih =>
    intro m b other same
    cases other with
    | object otherDistinct _ others =>
      apply (same_object otherDistinct distinct).mpr
      exact ((same_object distinct otherDistinct).mp same).symm fun a inA b inB => ih a inA (others b inB)
    | _ => simp [Same, equal] at same

theorem Printable.same_trans {n : Nat} {a : Json R} (printable : Printable n a) :
    ∀ {m k : Nat} {b c : Json R}, Printable m b → Printable k c → Same a b → Same b c → Same a c := by
  induction printable with
  | null =>
    intro m k b c middle last first second
    cases middle with
    | null => exact second
    | _ => simp [Same, equal] at first
  | bool value =>
    intro m k b c middle last first second
    cases middle with
    | bool other =>
      rw [same_bool.mp first]
      exact second
    | _ => simp [Same, equal] at first
  | int value =>
    intro m k b c middle last first second
    cases middle with
    | int other =>
      rw [same_int.mp first]
      exact second
    | _ => simp [Same, equal] at first
  | text clean =>
    intro m k b c middle last first second
    cases middle with
    | text otherClean =>
      rw [(same_text clean otherClean).mp first]
      exact second
    | _ => simp [Same, equal] at first
  | array _ ih =>
    intro m k b c middle last first second
    cases middle with
    | array others =>
      cases last with
      | array lasts =>
        apply same_array.mpr
        exact forall₂_trans (same_array.mp first) (same_array.mp second) fun a inA b inB c inC =>
          ih a inA (others b inB) (lasts c inC)
      | _ => simp [Same, equal] at second
    | _ => simp [Same, equal] at first
  | object distinct _ _ ih =>
    intro m k b c middle last first second
    cases middle with
    | object otherDistinct _ others =>
      cases last with
      | object lastDistinct _ lasts =>
        apply (same_object distinct lastDistinct).mpr
        exact ((same_object distinct otherDistinct).mp first).trans ((same_object otherDistinct lastDistinct).mp second)
          fun a inA b inB c inC => ih a inA (others b inB) (lasts c inC)
      | _ => simp [Same, equal] at second
    | _ => simp [Same, equal] at first

theorem same_equivalence : Equivalence fun a b : Tree R => Same a.val b.val where
  refl a := by
    rcases a.property with ⟨_, printable⟩
    exact printable.equal_self
  symm {a b} same := by
    rcases a.property with ⟨_, printable⟩
    rcases b.property with ⟨_, other⟩
    exact printable.same_symm other same
  trans {a b c} first second := by
    rcases a.property with ⟨_, printable⟩
    rcases b.property with ⟨_, middle⟩
    rcases c.property with ⟨_, last⟩
    exact printable.same_trans middle last first second

/-- The laws of `bb_json_equal`. Two texts can be read back so long as the trees nest no deeper than the
    parser goes. -/
theorem equal_laws (numbers : ReadsNumbers R) (malloc : Nat → Bytes) :
    (Equivalence fun a b : Tree R => equal a.val b.val = true) ∧
    (∀ as bs : List (Json R), equal (array as) (array bs) = true ↔ List.Forall₂ (fun a b => equal a b = true) as bs) ∧
    (∀ as bs : List (Bytes × Json R), OrderedMap.Distinct as → OrderedMap.Distinct bs →
      (equal (object as) (object bs) = true ↔
        ∀ key, Option.Rel (fun a b => equal a b = true) (objectGetValue as key) (objectGetValue bs key))) ∧
    ∀ (a b : Json R) (indent : Option Nat), Printable maxDepth a → Printable maxDepth b → equal a b = true →
      (render a indent).length + 1 < 2^31 → (render b indent).length + 1 < 2^31 →
      ∃ textA textB readA readB, serialize malloc indent a = .ok textA ∧ serialize malloc indent b = .ok textB ∧
        parse (R := R) textA = .ok readA ∧ parse textB = .ok readB ∧ equal readA readB = true := by
  refine ⟨same_equivalence, fun _ _ => same_array, fun _ _ distinctA distinctB => same_object distinctA distinctB, ?_⟩
  intro a b indent printableA printableB same smallA smallB
  rcases printableA.reads_back numbers malloc indent smallA with ⟨textA, writtenA, readA⟩
  rcases printableB.reads_back numbers malloc indent smallB with ⟨textB, writtenB, readB⟩
  exact ⟨textA, textB, a, b, writtenA, writtenB, readA, readB, same⟩

theorem equal_laws_halves :
    (Equivalence fun a b : Tree Rat => @equal Rat halves a.val b.val = true) ∧
    (∀ as bs : List (Json Rat), @equal Rat halves (array as) (array bs) = true ↔
      List.Forall₂ (fun a b => @equal Rat halves a b = true) as bs) ∧
    (∀ as bs : List (Bytes × Json Rat), OrderedMap.Distinct as → OrderedMap.Distinct bs →
      (@equal Rat halves (object as) (object bs) = true ↔
        ∀ key, Option.Rel (fun a b => @equal Rat halves a b = true) (objectGetValue as key) (objectGetValue bs key))) ∧
    ∀ (a b : Json Rat) (indent : Option Nat), Printable maxDepth a → Printable maxDepth b → @equal Rat halves a b = true →
      (@render Rat halves a indent).length + 1 < 2^31 → (@render Rat halves b indent).length + 1 < 2^31 →
      ∃ textA textB readA readB, @serialize Rat halves (fun _ => []) indent a = .ok textA ∧
        @serialize Rat halves (fun _ => []) indent b = .ok textB ∧ @parse Rat halves textA = .ok readA ∧
        @parse Rat halves textB = .ok readB ∧ @equal Rat halves readA readB = true :=
  @equal_laws Rat halves (fun _ _ _ _ _ _ _ _ => rfl) (fun _ => [])

def nested : Nat → Json Rat
  | 0 => null
  | levels + 1 => array [nested levels]

theorem nested_printable (levels : Nat) : Printable levels (nested levels) := by
  induction levels with
  | zero => exact .null
  | succ levels ih =>
    apply Printable.array
    intro item member
    rw [List.mem_singleton.mp member]
    exact ih

def nestedText (levels : Nat) : Bytes :=
  List.replicate levels (ch '[') ++ (ascii "null" ++ List.replicate levels (ch ']'))

theorem render_nested (levels : Nat) : @render Rat halves (nested levels) none = nestedText levels := by
  induction levels with
  | zero => rfl
  | succ levels ih =>
    have outer : @render Rat halves (array [nested levels]) none =
        ch '[' :: (@render Rat halves (nested levels) none ++ [ch ']']) := by
      simp [render, renderItems, arrayIndent, deeper, arrayLayout, itemLayout, newline, tabs, brackets]
    show @render Rat halves (array [nested levels]) none = _
    rw [outer, ih, nestedText, nestedText, List.replicate_succ, List.replicate_succ', List.append_assoc, List.append_assoc]
    rfl

theorem nestedText_rejected : (@parse Rat halves (nestedText (maxDepth + 1) ++ [0])).toOption = none := by
  have read : (@parse Rat halves (nestedText 513 ++ [0])).toOption.isSome = false := by decide +kernel
  exact Option.isSome_eq_false_iff.mp read |> Option.isNone_iff_eq_none.mp

/-- One array too deep for the parser is equal to itself, and its text is not read. -/
theorem equal_not_read_back : (∃ levels, Printable levels (nested (maxDepth + 1))) ∧
    @equal Rat halves (nested (maxDepth + 1)) (nested (maxDepth + 1)) = true ∧
    ∃ text, @serialize Rat halves (fun _ => []) none (nested (maxDepth + 1)) = .ok text ∧
      ∀ read, @parse Rat halves text ≠ .ok read := by
  have printable := nested_printable (maxDepth + 1)
  have rendered := render_nested (maxDepth + 1)
  have small : (@render Rat halves (nested (maxDepth + 1)) none).length + 1 < 2^31 := by
    rw [rendered, nestedText, List.length_append, List.length_append, List.length_replicate, List.length_replicate]
    decide
  have written := @serialize_eq_render Rat halves (fun _ => []) none _ small
  rw [List.drop_nil, rendered] at written
  refine ⟨⟨_, printable⟩, @Printable.equal_self Rat halves _ _ printable, _, written, ?_⟩
  intro read parsed
  have rejected := nestedText_rejected
  rw [parsed] at rejected
  cases rejected

end BlueBird.Json
