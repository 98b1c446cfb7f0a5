import BlueBird.Template.Acceptance
import BlueBird.Template.Renderer
import BlueBird.Json.RoundTrip

/-! Text that is to be shown as it is. -/

namespace BlueBird.Template

open Json

def escapeText : Bytes → Bytes
  | [] => []
  | [c] => [c]
  | c :: d :: rest => if [c, d] = braces then escapedBraces ++ escapeText rest else c :: escapeText (d :: rest)

theorem escapeText_head (c : Byte) (rest : Bytes) :
    (∃ later, rest = ch '\x7b' :: later ∧ c = ch '\x7b' ∧ escapeText (c :: rest) = escapedBraces ++ escapeText later) ∨
      (¬ braces <+: c :: rest ∧ escapeText (c :: rest) = c :: escapeText rest) := by
  cases rest with
  | nil =>
    refine Or.inr ⟨fun starts => ?_, rfl⟩
    have short : 2 ≤ 1 := starts.length_le
    exact absurd short (by decide)
  | cons d rest =>
    by_cases pair : [c, d] = braces
    · cases pair
      exact Or.inl ⟨rest, rfl, rfl, if_pos rfl⟩
    · refine Or.inr ⟨fun starts => ?_, if_neg pair⟩
      rcases List.cons_prefix_cons.mp starts with ⟨first, starts⟩
      rcases List.cons_prefix_cons.mp starts with ⟨second, _⟩
      rw [← first, ← second] at pair
      exact pair rfl

theorem escapeText_plain (s : Bytes) : ¬ braces <+: escapeText s := by
  cases s with
  | nil => decide
  | cons c rest =>
    rcases escapeText_head c rest with ⟨later, _, _, same⟩ | ⟨single, same⟩
    · rw [same]
      intro starts
      exact absurd (List.cons_prefix_cons.mp starts).1 (by decide)
    · rw [same]
      intro starts
      rcases List.cons_prefix_cons.mp starts with ⟨first, starts⟩
      cases rest with
      | nil =>
        have short : 1 ≤ 0 := starts.length_le
        exact absurd short (by decide)
      | cons d rest =>
        rcases escapeText_head d rest with ⟨later, _, _, same⟩ | ⟨_, same⟩
        · rw [same] at starts
          exact absurd (List.cons_prefix_cons.mp starts).1 (by decide)
        · rw [same] at starts
          rcases List.cons_prefix_cons.mp starts with ⟨second, _⟩
          rw [← first, ← second] at single
          exact single ⟨rest, rfl⟩

theorem escapeText_clean {s : Bytes} (free : (0 : Byte) ∉ s) : (0 : Byte) ∉ escapeText s := by
  induction s using List.twoStepInduction with
  | nil => exact free
  | singleton c => exact free
  | cons_cons c d rest ih ih' =>
    have later : (0 : Byte) ∉ d :: rest := fun member => free (List.mem_cons_of_mem _ member)
    rcases escapeText_head c (d :: rest) with ⟨behind, same, _, escaped⟩ | ⟨_, same⟩
    · cases same
      rw [escaped]
      intro member
      rcases List.mem_append.mp member with here | further
      · exact absurd here (by decide)
      · exact ih (fun member => later (List.mem_cons_of_mem _ member)) further
    · rw [same]
      intro member
      rcases List.mem_cons.mp member with here | further
      · exact free (here ▸ List.mem_cons_self)
      · exact ih' d later further

/-! ## What the parser makes of it -/

def AllText (nodes : List Node) : Prop := ∀ node ∈ nodes, ∃ value, node = .text value

theorem AllText.append {nodes others : List Node} (first : AllText nodes) (second : AllText others) : AllText (nodes ++ others) := by
  intro node member
  rcases List.mem_append.mp member with here | later
  · exact first node here
  · exact second node later

theorem allText_single (value : Bytes) : AllText [.text value] := by
  intro node member
  exact ⟨value, List.mem_singleton.mp member⟩

theorem AllText.appendText {list : List Node} (texts : AllText list) (text : Bytes) : AllText (appendText list text) := by
  unfold Template.appendText
  split
  · exact texts
  · exact texts.append (allText_single text)

theorem tagAt_plain {c : Byte} {more : Bytes} (plain : ¬ braces <+: c :: more) (unescaped : ¬ escapedBraces <+: c :: more) :
    tagAt (c :: more) = .plain := by
  have fails : ∀ start : Bytes, braces <+: start → ¬ startsWith (c :: more) start = true :=
    fun _ begins starts => plain (begins.trans (List.isPrefixOf_iff_prefix.mp starts))
  have first : ¬ startsWith (c :: more) (ascii "\\\x7b\x7b") = true :=
    fun starts => unescaped (List.isPrefixOf_iff_prefix.mp starts)
  unfold tagAt
  rw [if_neg first, if_neg (fails _ (by decide)), if_neg (fails _ (by decide)), if_neg (fails _ (by decide)),
    if_neg (fails _ (by decide)), if_neg (fails _ (by decide))]

theorem parseNodes_literal {fuel : Nat} {s pending : Bytes} {list : List Node} (enough : (escapeText s).length < fuel)
    (texts : AllText list) : ∃ nodes, parseNodes fuel (escapeText s) pending list none = some ([], nodes) ∧ AllText nodes ∧
      textsOf nodes = textsOf list ++ pending ++ s := by
  induction fuel generalizing s pending list with
  | zero => cases enough
  | succ fuel ih =>
    cases s with
    | nil =>
      refine ⟨_, rfl, texts.appendText pending, ?_⟩
      rw [textsOf_appendText, List.append_nil]
    | cons c rest =>
      rcases escapeText_head c rest with ⟨later, rfl, rfl, same⟩ | ⟨_, same⟩
      · rw [same, List.length_append] at enough
        have below : (escapeText later).length < fuel := by
          have three : escapedBraces.length = 3 := rfl
          omega
        rcases @ih later [] (appendText list pending ++ [.text braces]) below ((texts.appendText pending).append (allText_single _))
          with ⟨nodes, parsed, allText, written⟩
        refine ⟨nodes, ?_, allText, ?_⟩
        · rw [same]
          exact parsed
        · rw [written, textsOf_append, textsOf_appendText, List.append_nil, List.append_assoc]
          rfl
      · have plain := escapeText_plain (c :: rest)
        rw [same] at plain enough
        have unescaped : ¬ escapedBraces <+: c :: escapeText rest := by
          intro starts
          exact escapeText_plain rest (List.cons_prefix_cons.mp starts).2
        rcases @ih rest (pending ++ [c]) list (Nat.lt_of_succ_lt_succ enough) texts with ⟨nodes, parsed, allText, written⟩
        refine ⟨nodes, ?_, allText, ?_⟩
        · rw [same, parseNodes, tagAt_plain plain unescaped]
          exact parsed
        · rw [written, List.append_assoc, List.append_assoc, List.append_assoc]
          rfl

/-! ## What the renderer makes of it -/

variable {R : Type} [Reals R]

theorem renderNodes_texts (malloc : Nat → Bytes) {nodes : List Node} (texts : AllText nodes) (clean : CleanNodes nodes)
    (frames : List (Json R)) (sb : Bytes) : renderNodes malloc nodes frames sb = .ok (sb ++ textsOf nodes) := by
  induction nodes generalizing sb with
  | nil => rw [renderNodes, textsOf, List.append_nil]
  | cons node nodes ih =>
    rcases texts node List.mem_cons_self with ⟨value, rfl⟩
    rcases clean with ⟨here, later⟩
    rw [renderNodes, renderNode]
    show renderNodes malloc nodes frames (append sb value) = _
    rw [ih (fun node member => texts node (List.mem_cons_of_mem _ member)) later, append, cString_of_clean here, List.append_assoc]
    rfl

/-- Escaped text is shown as it was, in any context. -/
theorem literal_survives (malloc : Nat → Bytes) (source : Bytes) (context : Json R) :
    ∃ nodes, parse (escapeText (cString source)) = some nodes ∧ renderTemplate malloc nodes context = .ok (cString source) := by
  have free := escapeText_clean (cString_clean source)
  have whole : cString (escapeText (cString source)) = escapeText (cString source) := cString_of_clean free
  rcases @parseNodes_literal _ (cString source) [] [] (Nat.lt_succ_self _) (fun _ member => by cases member) with
    ⟨nodes, parsed, texts, written⟩
  have done : parse (escapeText (cString source)) = some nodes := by
    unfold parse
    rw [whole, parsed]
    rfl
  refine ⟨nodes, done, ?_⟩
  unfold renderTemplate
  rw [renderNodes_texts malloc texts (parse_clean done), written]
  rfl

end BlueBird.Template
