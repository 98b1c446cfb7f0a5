import BlueBird.Template.Parser

/-! What a template is made of: its tokens, and how they nest. -/

namespace BlueBird.Template

def braces : Bytes := ascii "\x7b\x7b"
def closingBraces : Bytes := ascii "\x7d\x7d"
def escapedBraces : Bytes := ascii "\\\x7b\x7b"

inductive Token where
  | byte (c : Byte)
  | escape
  | variable_ (name : Bytes)
  | opens (conditional : Bool) (name : Bytes)
  | closes (name : Bytes)
  | comment
  deriving DecidableEq, Repr

/-- The delimiter stands behind `body` in `s` for the first time. -/
def Until (delimiter body s after : Bytes) : Prop :=
  s = body ++ (delimiter ++ after) ∧ ∀ i < body.length, ¬ delimiter <+: s.drop i

def tagOf : Bytes → Token
  | [] => .variable_ []
  | c :: name =>
    if c = ch '/' then .closes name
    else if c = ch '#' then .opens false name
    else if c = ch '?' then .opens true name
    else if c = ch '!' then .comment
    else .variable_ (c :: name)

/-- A tag starts at braces that are not escaped and ends at the next closing ones; what is no tag stands for itself. -/
inductive Reads : Bytes → Token → Bytes → Prop
  | byte {c : Byte} {rest : Bytes} (plain : ¬ braces <+: c :: rest) (unescaped : ¬ escapedBraces <+: c :: rest) :
      Reads (c :: rest) (.byte c) rest
  | escape (rest : Bytes) : Reads (escapedBraces ++ rest) .escape rest
  | tag {body s after : Bytes} (ends : Until closingBraces body s after) : Reads (braces ++ s) (tagOf body) after

inductive Scans : Bytes → List Token → Bytes → Prop
  | stop (rest : Bytes) : Scans rest [] rest
  | step {s mid left : Bytes} {token : Token} {tokens : List Token} (reads : Reads s token mid) (later : Scans mid tokens left) :
      Scans s (token :: tokens) left

/-- Every section and conditional is closed under its own name, the last one first. -/
def nested : List Bytes → List Token → Bool
  | [], [] => true
  | _ :: _, [] => false
  | names, .opens _ name :: tokens => nested (name :: names) tokens
  | [], .closes _ :: _ => false
  | name :: names, .closes other :: tokens => name == other && nested names tokens
  | names, _ :: tokens => nested names tokens

def WellFormed (s : Bytes) : Prop := ∃ tokens, Scans s tokens [] ∧ nested [] tokens = true

def Token.outside : Token → Bytes
  | .byte c => [c]
  | .escape => braces
  | _ => []

mutual

def Node.texts : Node → Bytes
  | .text value => value
  | .variable_ _ | .comment => []
  | .section_ _ children | .conditional _ children => textsOf children

def textsOf : List Node → Bytes
  | [] => []
  | node :: nodes => node.texts ++ textsOf nodes

end

/-- A comment that is never closed. -/
def Dangling (s : Bytes) : Prop := ∃ rest, s = braces ++ ch '!' :: rest ∧ ¬ closingBraces <:+: rest

theorem textsOf_append (nodes others : List Node) : textsOf (nodes ++ others) = textsOf nodes ++ textsOf others := by
  induction nodes with
  | nil => rfl
  | cons node nodes ih =>
    show node.texts ++ textsOf (nodes ++ others) = (node.texts ++ textsOf nodes) ++ textsOf others
    rw [ih, List.append_assoc]

theorem textsOf_appendText (list : List Node) (text : Bytes) : textsOf (appendText list text) = textsOf list ++ text := by
  unfold appendText
  split
  · next empty => rw [empty, List.append_nil]
  · rw [textsOf_append]
    simp [textsOf, Node.texts]

/-! ## The next delimiter -/

theorem Until.unique {delimiter body other s after rest : Bytes} (first : Until delimiter body s after)
    (second : Until delimiter other s rest) : body = other ∧ after = rest := by
  have here : ∀ {body after : Bytes}, s = body ++ (delimiter ++ after) → delimiter <+: s.drop body.length := by
    intro body after same
    rw [same, List.drop_left]
    exact List.prefix_append _ _
  have long : body.length = other.length := by
    rcases Nat.lt_trichotomy body.length other.length with less | same | more
    · exact absurd (here first.1) (second.2 _ less)
    · exact same
    · exact absurd (here second.1) (first.2 _ more)
  have same := first.1.symm.trans second.1
  rcases List.append_inj same long with ⟨bodies, rests⟩
  exact ⟨bodies, List.append_cancel_left rests⟩

theorem readUntil_some {delimiter s : Bytes} {found : Bytes × Bytes} (read : readUntil delimiter s = some found) :
    Until delimiter found.1 s found.2 := by
  induction s generalizing found with
  | nil => cases read
  | cons c rest ih =>
    rw [readUntil] at read
    split at read
    · next starts =>
      cases read
      rcases List.isPrefixOf_iff_prefix.mp starts with ⟨after, same⟩
      refine ⟨?_, fun i inside => absurd inside (Nat.not_lt_zero i)⟩
      rw [← same, List.drop_left]
      rfl
    · next begins =>
      rcases Option.map_eq_some_iff.mp read with ⟨later, further, rfl⟩
      rcases ih further with ⟨same, first⟩
      refine ⟨congrArg (c :: ·) same, fun i inside => ?_⟩
      cases i with
      | zero => exact fun starts => begins (List.isPrefixOf_iff_prefix.mpr starts)
      | succ i => exact first i (Nat.lt_of_succ_lt_succ inside)

theorem readUntil_none {delimiter s : Bytes} (some_ : delimiter ≠ []) (read : readUntil delimiter s = none) : ¬ delimiter <:+: s := by
  induction s with
  | nil =>
    intro inside
    exact some_ (List.infix_nil.mp inside)
  | cons c rest ih =>
    rw [readUntil] at read
    split at read
    · cases read
    · next begins =>
      intro inside
      rcases List.infix_cons_iff.mp inside with starts | later
      · exact begins (List.isPrefixOf_iff_prefix.mpr starts)
      · exact ih (Option.map_eq_none_iff.mp read) later

theorem Until.cons {c : Byte} (other : c ≠ ch '\x7d') {body s after : Bytes} (ends : Until closingBraces body s after) :
    Until closingBraces (c :: body) (c :: s) after := by
  rcases ends with ⟨same, first⟩
  refine ⟨congrArg (c :: ·) same, fun i inside => ?_⟩
  cases i with
  | zero =>
    intro starts
    exact other (List.cons_prefix_cons.mp starts).1.symm
  | succ i => exact first i (Nat.lt_of_succ_lt_succ inside)

/-! ## What is read next -/

theorem Reads.unique {s a b : Bytes} {token other : Token} (first : Reads s token a) (second : Reads s other b) :
    token = other ∧ a = b := by
  cases first with
  | byte plain unescaped =>
    cases second with
    | byte => exact ⟨rfl, rfl⟩
    | escape => exact absurd (List.prefix_append _ _) unescaped
    | tag => exact absurd (List.prefix_append _ _) plain
  | escape =>
    generalize same : escapedBraces ++ a = whole at second
    cases second with
    | byte plain unescaped => exact absurd (same ▸ List.prefix_append _ _) unescaped
    | escape => exact ⟨rfl, List.append_cancel_left same⟩
    | tag => cases same
  | @tag body s after ends =>
    generalize same : braces ++ s = whole at second
    cases second with
    | byte plain unescaped => exact absurd (same ▸ List.prefix_append _ _) plain
    | escape => cases same
    | tag ends' =>
      cases List.append_cancel_left same
      rcases ends.unique ends' with ⟨bodies, rests⟩
      exact ⟨congrArg tagOf bodies, rests⟩

/-- Nothing can be read here. -/
def Stuck (s : Bytes) : Prop := ∀ token after, ¬ Reads s token after

theorem stuck_nil : Stuck [] := by
  intro token after reads
  generalize same : ([] : Bytes) = s at reads
  cases reads <;> cases same

theorem Dangling.stuck {s : Bytes} (dangling : Dangling s) : Stuck s := by
  rcases dangling with ⟨rest, same, never⟩
  intro token after reads
  generalize given : s = whole at reads
  cases reads with
  | byte plain unescaped =>
    rw [← given, same] at plain
    exact plain (List.prefix_append _ _)
  | escape =>
    rw [same] at given
    cases given
  | @tag body s' after ends =>
    rw [same] at given
    have inner : ch '!' :: rest = s' := List.append_cancel_left given
    rcases ends with ⟨split, _⟩
    rw [← inner] at split
    cases body with
    | nil =>
      cases split
    | cons c body =>
      have tail : rest = body ++ (closingBraces ++ after) := (List.cons.inj split).2
      apply never
      rw [tail, ← List.append_assoc]
      exact List.infix_append body closingBraces after

theorem Scans.split {s mid left : Bytes} {front tokens : List Token} (first : Scans s front mid) (second : Scans s tokens left)
    (stuck : Stuck left) : ∃ back, tokens = front ++ back ∧ Scans mid back left := by
  induction first generalizing tokens with
  | stop => exact ⟨tokens, rfl, second⟩
  | step reads _ ih =>
    cases second with
    | stop => exact absurd reads (stuck _ _)
    | step reads' later =>
      rcases reads.unique reads' with ⟨rfl, rfl⟩
      rcases ih later with ⟨back, same, rest⟩
      exact ⟨back, congrArg (_ :: ·) same, rest⟩

theorem Scans.append {s mid left : Bytes} {front back : List Token} (first : Scans s front mid) (second : Scans mid back left) :
    Scans s (front ++ back) left := by
  induction first with
  | stop => exact second
  | step reads _ ih => exact .step reads (ih second)

theorem Scans.stuck_nil {s left : Bytes} {tokens : List Token} (scans : Scans s tokens left) (stuck : Stuck s) :
    tokens = [] ∧ left = s := by
  cases scans with
  | stop => exact ⟨rfl, rfl⟩
  | step reads later => exact absurd reads (stuck _ _)

/-! ## What the parser meets -/

def Token.Neutral (token : Token) : Prop := ∀ names tokens, nested names (token :: tokens) = nested names tokens

def Tag.Means (rest : Bytes) : Tag → Prop
  | .plain => ∃ c more, rest = c :: more ∧ Reads rest (.byte c) more
  | .unclosed => Stuck rest ∧ rest ≠ [] ∧ ¬ Dangling rest
  | .leaf nodes after =>
    (∃ token, Reads rest token after ∧ token.Neutral ∧ textsOf nodes = token.outside) ∨ Dangling rest ∧ nodes = [] ∧ after = []
  | .closing name after => Reads rest (.closes name) after
  | .opening node name after => ∃ conditional, Reads rest (.opens conditional name) after ∧
      ∀ name children, (node name children).texts = textsOf children

end BlueBird.Template
