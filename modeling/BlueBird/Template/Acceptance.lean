import BlueBird.Template.Grammar

/-! Which templates the parser accepts. -/

namespace BlueBird.Template

/-! ## What the parser meets is what can be read -/

theorem neutral_byte (c : Byte) : (Token.byte c).Neutral := by
  intro names tokens
  cases names <;> rfl

theorem neutral_escape : Token.escape.Neutral := by
  intro names tokens
  cases names <;> rfl

theorem neutral_variable (name : Bytes) : (Token.variable_ name).Neutral := by
  intro names tokens
  cases names <;> rfl

theorem neutral_comment : Token.comment.Neutral := by
  intro names tokens
  cases names <;> rfl

theorem nested_opens (conditional : Bool) (name : Bytes) (names : List Bytes) (tokens : List Token) :
    nested names (.opens conditional name :: tokens) = nested (name :: names) tokens := by
  cases names <;> rfl

theorem infix_front {front s : Bytes} (other : ∀ c ∈ front, c ≠ ch '\x7d') (inside : closingBraces <:+: front ++ s) :
    closingBraces <:+: s := by
  induction front with
  | nil => exact inside
  | cons c front ih =>
    rcases List.forall_mem_cons.mp other with ⟨here, later⟩
    rcases List.infix_cons_iff.mp inside with starts | further
    · exact absurd (List.cons_prefix_cons.mp starts).1.symm here
    · exact ih later further

theorem reads_named {front s : Bytes} (other : ∀ c ∈ front, c ≠ ch '\x7d') :
    (readUntil closingBraces s = none → Stuck (braces ++ (front ++ s))) ∧
      ∀ found, readUntil closingBraces s = some found → Reads (braces ++ (front ++ s)) (tagOf (front ++ found.1)) found.2 := by
  constructor
  · intro never token after reads
    have absent := readUntil_none (by decide) never
    generalize given : braces ++ (front ++ s) = whole at reads
    cases reads with
    | byte plain unescaped => exact plain (given ▸ List.prefix_append _ _)
    | escape => cases given
    | @tag body s' after ends =>
      have inner : front ++ s = s' := List.append_cancel_left given
      apply absent
      apply infix_front other
      rw [inner, ends.1, ← List.append_assoc]
      exact List.infix_append body closingBraces after
  · intro found read
    have ends := readUntil_some read
    apply Reads.tag
    induction front with
    | nil => exact ends
    | cons c front ih =>
      rcases List.forall_mem_cons.mp other with ⟨here, later⟩
      exact (ih later).cons here

theorem startsWith_split {rest str : Bytes} (starts : startsWith rest str = true) : rest = str ++ rest.drop str.length := by
  rcases List.isPrefixOf_iff_prefix.mp starts with ⟨after, same⟩
  rw [← same, List.drop_left]

theorem named_means {rest : Bytes} {mark : Byte} (starts : startsWith rest (braces ++ [mark]) = true) (other : mark ≠ ch '\x7d')
    (kind : mark ≠ ch '!') {tag : Bytes → Bytes → Tag}
    (means : ∀ name after, Reads rest (tagOf (mark :: name)) after → (tag name after).Means rest) :
    (named (rest.drop 3) tag).Means rest := by
  have split : rest = braces ++ ([mark] ++ rest.drop 3) := (startsWith_split starts).trans (List.append_assoc ..)
  have single : ∀ c ∈ [mark], c ≠ ch '\x7d' := by
    intro c member
    rw [List.mem_singleton.mp member]
    exact other
  rcases @reads_named [mark] (rest.drop 3) single with ⟨stuck, reads⟩
  rw [← split] at stuck reads
  unfold named
  cases read : readUntil (ascii "\x7d\x7d") (rest.drop 3) with
  | none =>
    refine ⟨stuck read, ?_, ?_⟩
    · rw [split]
      exact List.cons_ne_nil _ _
    · rintro ⟨inner, same, _⟩
      have marks := List.append_cancel_left (same.symm.trans split)
      exact kind (List.cons.inj marks).1.symm
  | some found => exact means _ _ (reads found read)

theorem tagAt_means (c : Byte) (more : Bytes) : (tagAt (c :: more)).Means (c :: more) := by
  generalize whole : c :: more = rest
  unfold tagAt
  split
  · next starts =>
    have split : rest = escapedBraces ++ rest.drop 3 := startsWith_split starts
    have reads := Reads.escape (rest.drop 3)
    rw [← split] at reads
    exact Or.inl ⟨.escape, reads, neutral_escape, rfl⟩
  next unescaped =>
  split
  · next starts => exact named_means starts (by decide) (by decide) fun name after reads => reads
  next notClosing =>
  split
  · next starts => exact named_means starts (by decide) (by decide) fun name after reads => ⟨false, reads, fun _ _ => rfl⟩
  next notSection =>
  split
  · next starts => exact named_means starts (by decide) (by decide) fun name after reads => ⟨true, reads, fun _ _ => rfl⟩
  next notConditional =>
  split
  · next starts =>
    have starts : startsWith rest (braces ++ [ch '!']) = true := starts
    have split : rest = braces ++ ([ch '!'] ++ rest.drop 3) := (startsWith_split starts).trans (List.append_assoc ..)
    have single : ∀ c ∈ [ch '!'], c ≠ ch '\x7d' := by decide +kernel
    have reads := (@reads_named [ch '!'] (rest.drop 3) single).2
    rw [← split] at reads
    cases read : readUntil (ascii "\x7d\x7d") (rest.drop 3) with
    | none => exact Or.inr ⟨⟨rest.drop 3, split, readUntil_none (by decide) read⟩, rfl, rfl⟩
    | some found => exact Or.inl ⟨.comment, reads found read, neutral_comment, rfl⟩
  next notComment =>
  split
  · next starts =>
    have split : rest = braces ++ ([] ++ rest.drop 2) := startsWith_split starts
    rcases @reads_named [] (rest.drop 2) (fun _ member => by cases member) with ⟨stuck, reads⟩
    rw [← split] at stuck reads
    -- none of the marks stands behind the braces
    have marked : ∀ mark name, rest = braces ++ mark :: name → ¬ (mark = ch '/' ∨ mark = ch '#' ∨ mark = ch '?' ∨ mark = ch '!') := by
      intro mark name same marks
      have begins : ∀ str : Bytes, str = braces ++ [mark] → startsWith rest str = true := by
        intro str shape
        apply List.isPrefixOf_iff_prefix.mpr
        rw [shape, same]
        exact ⟨name, rfl⟩
      rcases marks with rfl | rfl | rfl | rfl
      · exact notClosing (begins _ rfl)
      · exact notSection (begins _ rfl)
      · exact notConditional (begins _ rfl)
      · exact notComment (begins _ rfl)
    unfold named
    cases read : readUntil (ascii "\x7d\x7d") (rest.drop 2) with
    | none =>
      refine ⟨stuck read, ?_, ?_⟩
      · rw [← whole]
        exact List.cons_ne_nil _ _
      · rintro ⟨inner, same, _⟩
        exact marked _ _ same (Or.inr (Or.inr (Or.inr rfl)))
    | some found =>
      have read_ := reads found read
      have plain : tagOf ([] ++ found.1) = .variable_ found.1 := by
        cases named_ : found.1 with
        | nil => rfl
        | cons mark name =>
          have same : rest = braces ++ mark :: (name ++ (closingBraces ++ found.2)) := by
            have ends := (readUntil_some read).1
            rw [named_] at ends
            rw [ends] at split
            exact split
          have others := not_or.mp (marked _ _ same)
          have others' := not_or.mp others.2
          have others'' := not_or.mp others'.2
          show tagOf (mark :: name) = _
          unfold tagOf
          dsimp only
          rw [if_neg others.1, if_neg others'.1, if_neg others''.1, if_neg others''.2]
      rw [plain] at read_
      exact Or.inl ⟨_, read_, neutral_variable _, rfl⟩
  next notTag =>
  refine ⟨c, more, whole.symm, ?_⟩
  rw [← whole]
  refine .byte (fun starts => notTag ?_) fun starts => unescaped ?_
  · rw [← whole]
    exact List.isPrefixOf_iff_prefix.mpr starts
  · rw [← whole]
    exact List.isPrefixOf_iff_prefix.mpr starts

/-! ## What is parsed -/

/-- The tokens nest whatever stands around them. -/
def Balanced (tokens : List Token) : Prop := ∀ names more, nested names (tokens ++ more) = nested names more

theorem balanced_nil : Balanced [] := fun _ _ => rfl

theorem Token.Neutral.cons {token : Token} (neutral : token.Neutral) {tokens : List Token} (balanced : Balanced tokens) :
    Balanced (token :: tokens) := fun names more => (neutral names (tokens ++ more)).trans (balanced names more)

theorem Balanced.block {tokens later : List Token} (inner : Balanced tokens) (balanced : Balanced later) (conditional : Bool)
    (name : Bytes) : Balanced (.opens conditional name :: (tokens ++ [.closes name]) ++ later) := by
  intro names more
  rw [List.cons_append, List.cons_append, nested_opens, List.append_assoc, List.append_assoc, inner]
  show (name == name && nested names (later ++ more)) = _
  rw [beq_self_eq_true, Bool.true_and, balanced]

/-- What a successful call has read: up to its closing tag, or to the end or a comment that goes on to the end. -/
def Parsed (rest : Bytes) (closing : Option Bytes) (after : Bytes) (texts : Bytes) : Prop :=
  ∃ tokens, Balanced tokens ∧ texts = tokens.flatMap Token.outside ∧
    match closing with
    | some name => Scans rest (tokens ++ [.closes name]) after
    | none => ∃ left, Scans rest tokens left ∧ (left = [] ∨ Dangling left) ∧ after = []

theorem Parsed.step {rest mid after texts : Bytes} {closing : Option Bytes} {token : Token} (reads : Reads rest token mid)
    (neutral : token.Neutral) (parsed : Parsed mid closing after texts) : Parsed rest closing after (token.outside ++ texts) := by
  rcases parsed with ⟨tokens, balanced, outside, scans⟩
  refine ⟨token :: tokens, neutral.cons balanced, by rw [outside]; rfl, ?_⟩
  cases closing with
  | some name => exact .step reads scans
  | none =>
    rcases scans with ⟨left, scans, ends⟩
    exact ⟨left, .step reads scans, ends⟩

theorem Parsed.block {rest inside mid after texts behind : Bytes} {closing : Option Bytes} {conditional : Bool} {name : Bytes}
    (reads : Reads rest (.opens conditional name) inside) (body : Parsed inside (some name) mid texts)
    (parsed : Parsed mid closing after behind) : Parsed rest closing after (texts ++ behind) := by
  rcases body with ⟨inner, balancedInner, outsideInner, scansInner⟩
  rcases parsed with ⟨tokens, balanced, outside, scans⟩
  have front := Scans.step reads scansInner
  refine ⟨.opens conditional name :: (inner ++ [.closes name]) ++ tokens, balancedInner.block balanced conditional name, ?_, ?_⟩
  · have around : (Token.opens conditional name :: (inner ++ [.closes name]) ++ tokens).flatMap Token.outside =
        (inner.flatMap Token.outside ++ []) ++ tokens.flatMap Token.outside := by
      rw [List.flatMap_append, List.flatMap_cons, List.flatMap_append]
      rfl
    rw [outsideInner, outside, around, List.append_nil]
  · cases closing with
    | some outer =>
      have scans : Scans mid (tokens ++ [.closes outer]) after := scans
      have whole := front.append scans
      rw [← List.append_assoc] at whole
      exact whole
    | none =>
      rcases scans with ⟨left, scans, ends⟩
      exact ⟨left, front.append scans, ends⟩

theorem parseNodes_nil (fuel : Nat) (pending : Bytes) (list : List Node) (closing : Option Bytes) :
    parseNodes (fuel + 1) [] pending list closing = if closing.isSome then none else some ([], appendText list pending) := rfl

theorem parseNodes_parsed (fuel : Nat) {rest pending : Bytes} {list : List Node} {closing : Option Bytes}
    {parsed : Bytes × List Node} (done : parseNodes fuel rest pending list closing = some parsed) :
    ∃ texts, Parsed rest closing parsed.1 texts ∧ textsOf parsed.2 = textsOf list ++ pending ++ texts := by
  induction fuel generalizing rest pending list closing parsed with
  | zero => cases done
  | succ fuel ih =>
    cases rest with
    | nil =>
      rw [parseNodes_nil] at done
      cases closing with
      | some name => cases done
      | none =>
        cases done
        refine ⟨[], ⟨[], balanced_nil, rfl, [], .stop [], Or.inl rfl, rfl⟩, ?_⟩
        rw [textsOf_appendText, List.append_nil]
    | cons c more =>
      have means := tagAt_means c more
      rw [parseNodes] at done
      cases tag : tagAt (c :: more) with
      | plain =>
        simp only [tag] at done
        rw [tag] at means
        rcases means with ⟨_, _, same, reads⟩
        cases same
        rcases ih done with ⟨texts, parsed, written⟩
        refine ⟨[c] ++ texts, parsed.step reads (neutral_byte c), ?_⟩
        rw [written, List.append_assoc, List.append_assoc, List.append_assoc]
      | unclosed =>
        simp only [tag] at done
        cases done
      | leaf nodes after =>
        simp only [tag] at done
        rw [tag] at means
        rcases means with ⟨token, reads, neutral, outside⟩ | ⟨dangling, rfl, rfl⟩
        · rcases ih done with ⟨texts, parsed, written⟩
          refine ⟨token.outside ++ texts, parsed.step reads neutral, ?_⟩
          rw [written, textsOf_append, textsOf_appendText, outside, List.append_nil, List.append_assoc]
        · cases fuel with
          | zero => cases done
          | succ fuel =>
            rw [parseNodes_nil] at done
            cases closing with
            | some name => cases done
            | none =>
              cases done
              refine ⟨[], ⟨[], balanced_nil, rfl, c :: more, .stop _, Or.inr dangling, rfl⟩, ?_⟩
              show textsOf (appendText list pending ++ []) = _
              rw [textsOf_append, textsOf_appendText]
              rfl
      | closing name after =>
        simp only [tag] at done
        rw [tag] at means
        split at done
        · next same =>
          cases done
          refine ⟨[], ⟨[], balanced_nil, rfl, ?_⟩, ?_⟩
          · rw [same]
            exact .step means (.stop after)
          · rw [textsOf_appendText, List.append_nil]
        · cases done
      | opening node name after =>
        simp only [tag] at done
        rw [tag] at means
        rcases means with ⟨conditional, reads, children⟩
        rcases Option.bind_eq_some_iff.mp done with ⟨body, inner, outer⟩
        rcases ih inner with ⟨texts, parsedInner, writtenInner⟩
        rcases ih outer with ⟨behind, parsedOuter, writtenOuter⟩
        refine ⟨texts ++ behind, .block reads parsedInner parsedOuter, ?_⟩
        have block : textsOf [node name body.2] = texts := by
          show (node name body.2).texts ++ [] = texts
          rw [children, writtenInner, List.append_nil]
          rfl
        rw [writtenOuter, textsOf_append, textsOf_appendText, block, List.append_nil, List.append_assoc, List.append_assoc]

def openNames (closing : Option Bytes) (names : List Bytes) : List Bytes :=
  match closing with
  | some name => name :: names
  | none => []

theorem parseNodes_refused {fuel : Nat} {rest pending : Bytes} {list : List Node} {closing : Option Bytes}
    (enough : rest.length < fuel) (refused : parseNodes fuel rest pending list closing = none) {tokens : List Token} {left : Bytes}
    (scans : Scans rest tokens left) (ends : left = [] ∨ Dangling left) (names : List Bytes) :
    nested (openNames closing names) tokens = false := by
  induction fuel generalizing rest pending list closing tokens left names with
  | zero => cases enough
  | succ fuel ih =>
    cases rest with
    | nil =>
      rw [parseNodes_nil] at refused
      rcases scans.stuck_nil stuck_nil with ⟨rfl, _⟩
      cases closing with
      | some name => rfl
      | none => cases refused
    | cons c more =>
      have means := tagAt_means c more
      have shorter := tagAt_shorter c more
      have below := Nat.lt_of_succ_lt_succ enough
      have stuck : Stuck left := by
        rcases ends with rfl | dangling
        · exact stuck_nil
        · exact dangling.stuck
      -- the first token is the one that is read here
      have first : ∀ {token : Token} {mid : Bytes}, Reads (c :: more) token mid →
          ∃ later, tokens = token :: later ∧ Scans mid later left := by
        intro token mid reads
        rcases (Scans.step reads (.stop mid)).split scans stuck with ⟨later, same, rest⟩
        exact ⟨later, same, rest⟩
      rw [parseNodes] at refused
      cases tag : tagAt (c :: more) with
      | plain =>
        simp only [tag] at refused
        rw [tag] at means
        rcases means with ⟨_, _, same, reads⟩
        cases same
        rcases first reads with ⟨later, rfl, scansLater⟩
        rw [neutral_byte]
        exact ih below refused scansLater ends names
      | unclosed =>
        rw [tag] at means
        rcases means with ⟨here, nonempty, closed⟩
        rcases scans.stuck_nil here with ⟨_, rfl⟩
        rcases ends with empty | dangling
        · exact absurd empty nonempty
        · exact absurd dangling closed
      | leaf nodes after =>
        simp only [tag] at refused
        rw [tag] at means shorter
        have least : after.length < fuel := Nat.lt_of_le_of_lt (Nat.le_of_lt_succ shorter) below
        rcases means with ⟨token, reads, neutral, _⟩ | ⟨dangling, rfl, rfl⟩
        · rcases first reads with ⟨later, rfl, scansLater⟩
          rw [neutral]
          exact ih least refused scansLater ends names
        · rcases scans.stuck_nil dangling.stuck with ⟨rfl, _⟩
          exact ih least refused (.stop []) (Or.inl rfl) names
      | closing name after =>
        simp only [tag] at refused
        rw [tag] at means
        rcases first means with ⟨later, rfl, _⟩
        split at refused
        · cases refused
        · next differs =>
          cases closing with
          | none => rfl
          | some own =>
            show (own == name && nested names later) = false
            rw [beq_false_of_ne fun same => differs (congrArg some same), Bool.false_and]
      | opening node name after =>
        simp only [tag] at refused
        rw [tag] at means shorter
        have least : after.length < fuel := Nat.lt_of_le_of_lt (Nat.le_of_lt_succ shorter) below
        rcases means with ⟨conditional, reads, _⟩
        rcases first reads with ⟨later, rfl, scansLater⟩
        rw [nested_opens]
        cases inner : parseNodes fuel after [] [] (some name) with
        | none => exact ih least inner scansLater ends (openNames closing names)
        | some body =>
          rw [inner] at refused
          rcases parseNodes_parsed fuel inner with ⟨_, ⟨block, balanced, _, scansBlock⟩, _⟩
          rcases scansBlock.split scansLater stuck with ⟨behind, rfl, scansBehind⟩
          have further : body.1.length < fuel := Nat.lt_of_le_of_lt (parseNodes_shorter fuel inner) least
          rw [List.append_assoc, balanced]
          show (name == name && nested (openNames closing names) behind) = false
          rw [ih further refused scansBehind ends names, Bool.and_false]

/-! ## Malformed templates -/

/-- Success is for well-formed templates, with their text, and there is no tree for another one. -/
structure RejectsMalformed (source : Bytes) : Prop where
  accepts : (parse source).isSome = true ↔ WellFormed (Json.cString source)
  refuses : ¬ WellFormed (Json.cString source) → parse source = none
  texts : ∀ nodes tokens, parse source = some nodes → Scans (Json.cString source) tokens [] →
    textsOf nodes = tokens.flatMap Token.outside

/-- Everything nests up to a comment that is never closed. -/
def RunsOff (s : Bytes) : Prop := ∃ tokens left, Scans s tokens left ∧ Dangling left ∧ nested [] tokens = true

theorem RunsOff.malformed {s : Bytes} (runsOff : RunsOff s) : ¬ WellFormed s := by
  rcases runsOff with ⟨tokens, left, scans, dangling, _⟩
  rintro ⟨all, whole, _⟩
  rcases scans.split whole stuck_nil with ⟨back, _, rest⟩
  rcases rest.stuck_nil dangling.stuck with ⟨_, empty⟩
  rcases dangling with ⟨inner, same, _⟩
  rw [same] at empty
  cases empty

theorem parse_parsed {source : Bytes} {nodes : List Node} (parsed : parse source = some nodes) :
    ∃ tokens left, Scans (Json.cString source) tokens left ∧ (left = [] ∨ Dangling left) ∧ nested [] tokens = true ∧
      textsOf nodes = tokens.flatMap Token.outside := by
  rcases Option.map_eq_some_iff.mp parsed with ⟨found, done, same⟩
  rcases parseNodes_parsed _ done with ⟨texts, ⟨tokens, balanced, outside, left, scans, ends, _⟩, written⟩
  have nests := balanced [] []
  rw [List.append_nil] at nests
  refine ⟨tokens, left, scans, ends, nests, ?_⟩
  rw [← same, written, outside]
  rfl

theorem parse_isSome_iff (source : Bytes) :
    (parse source).isSome = true ↔ WellFormed (Json.cString source) ∨ RunsOff (Json.cString source) := by
  constructor
  · intro accepted
    rcases Option.isSome_iff_exists.mp accepted with ⟨nodes, parsed⟩
    rcases parse_parsed parsed with ⟨tokens, left, scans, rfl | dangling, nests, _⟩
    · exact Or.inl ⟨tokens, scans, nests⟩
    · exact Or.inr ⟨tokens, left, scans, dangling, nests⟩
  · intro either
    have ends : ∃ tokens left, Scans (Json.cString source) tokens left ∧ (left = [] ∨ Dangling left) ∧ nested [] tokens = true := by
      rcases either with ⟨tokens, scans, nests⟩ | ⟨tokens, left, scans, dangling, nests⟩
      · exact ⟨tokens, [], scans, Or.inl rfl, nests⟩
      · exact ⟨tokens, left, scans, Or.inr dangling, nests⟩
    rcases ends with ⟨tokens, left, scans, ends, nests⟩
    by_contra refused
    have none_ : parseNodes ((Json.cString source).length + 1) (Json.cString source) [] [] none = none := by
      unfold parse at refused
      cases read : parseNodes ((Json.cString source).length + 1) (Json.cString source) [] [] none with
      | none => rfl
      | some found =>
        rw [read] at refused
        exact absurd rfl refused
    have fails := parseNodes_refused (Nat.lt_succ_self _) none_ scans ends []
    rw [show openNames none [] = [] from rfl, nests] at fails
    cases fails

/-- Malformed templates are rejected, but for those that run off in a comment. -/
theorem rejectsMalformed_iff (source : Bytes) : RejectsMalformed source ↔ ¬ RunsOff (Json.cString source) := by
  have accepted := parse_isSome_iff source
  constructor
  · intro rejects runsOff
    exact runsOff.malformed (rejects.accepts.mp (accepted.mpr (Or.inr runsOff)))
  · intro stays
    have accepts : (parse source).isSome = true ↔ WellFormed (Json.cString source) :=
      accepted.trans ⟨fun either => either.resolve_right stays, Or.inl⟩
    refine ⟨accepts, fun malformed => ?_, fun nodes tokens parsed scans => ?_⟩
    · exact Option.not_isSome_iff_eq_none.mp (accepts.not.mpr malformed)
    · rcases parse_parsed parsed with ⟨read, left, scansRead, rfl | dangling, nests, texts⟩
      · rcases scansRead.split scans stuck_nil with ⟨back, same, rest⟩
        rcases rest.stuck_nil stuck_nil with ⟨rfl, _⟩
        rw [same, List.append_nil]
        exact texts
      · exact absurd ⟨read, left, scansRead, dangling, nests⟩ stays

/-- A comment without an end swallows the rest of the page. -/
theorem not_rejectsMalformed_comment : ¬ RejectsMalformed (ascii "a\x7b\x7b! b \x7b\x7bc") := by
  intro rejects
  have same : Json.cString (ascii "a\x7b\x7b! b \x7b\x7bc") = ch 'a' :: (braces ++ ch '!' :: ascii " b \x7b\x7bc") := by decide
  have dangling : Dangling (braces ++ ch '!' :: ascii " b \x7b\x7bc") := ⟨_, rfl, by decide⟩
  have runsOff : RunsOff (Json.cString (ascii "a\x7b\x7b! b \x7b\x7bc")) := by
    rw [same]
    exact ⟨[.byte (ch 'a')], _, .step (.byte (by decide) (by decide)) (.stop _), dangling, rfl⟩
  exact runsOff.malformed (rejects.accepts.mp (by decide))

end BlueBird.Template
