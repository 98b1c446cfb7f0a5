import BlueBird.Json.Value
import Mathlib.Data.List.TakeWhile

namespace BlueBird.Template

/-! ## Templates -/

/-- `bb_template_node_t`; the siblings of a node are the rest of its list. -/
inductive Node where
  | text (value : Bytes)
  | variable_ (name : Bytes)
  | section_ (name : Bytes) (children : List Node)
  | conditional (name : Bytes) (children : List Node)
  | comment

def startsWith (rest str : Bytes) : Bool := str.isPrefixOf rest

def readUntil (delimiter : Bytes) : Bytes → Option (Bytes × Bytes)
  | [] => none
  | c :: rest =>
    if startsWith (c :: rest) delimiter then some ([], (c :: rest).drop delimiter.length)
    else (readUntil delimiter rest).map fun found => (c :: found.1, found.2)

/-- What `bb_parser_parse_nodes` meets at `pos`. -/
inductive Tag where
  | plain
  | unclosed
  | leaf (nodes : List Node) (after : Bytes)
  | closing (name after : Bytes)
  | opening (node : Bytes → List Node → Node) (name after : Bytes)

def named (rest : Bytes) (tag : Bytes → Bytes → Tag) : Tag :=
  match readUntil (ascii "\x7d\x7d") rest with
  | none => .unclosed
  | some found => tag found.1 found.2

/-- The branches of `bb_parser_parse_nodes`, in their order; a comment that is not closed runs to the end. -/
def tagAt (rest : Bytes) : Tag :=
  if startsWith rest (ascii "\\\x7b\x7b") then .leaf [.text (ascii "\x7b\x7b")] (rest.drop 3)
  else if startsWith rest (ascii "\x7b\x7b/") then named (rest.drop 3) .closing
  else if startsWith rest (ascii "\x7b\x7b#") then named (rest.drop 3) (.opening .section_)
  else if startsWith rest (ascii "\x7b\x7b?") then named (rest.drop 3) (.opening .conditional)
  else if startsWith rest (ascii "\x7b\x7b!") then
    .leaf [] ((readUntil (ascii "\x7d\x7d") (rest.drop 3)).elim [] (·.2))
  else if startsWith rest (ascii "\x7b\x7b") then named (rest.drop 2) fun name after => .leaf [.variable_ name] after
  else .plain

/-- `bb_parser_append_text`. -/
def appendText (list : List Node) (text : Bytes) : List Node := if text = [] then list else list ++ [.text text]

/-- `bb_parser_parse_nodes`: `rest` is the source from `pos` on, and `pending` what lies between `text_start` and
    `pos`. It gives what is left behind the closing tag. -/
def parseNodes : Nat → Bytes → Bytes → List Node → Option Bytes → Option (Bytes × List Node)
  | 0, _, _, _, _ => none
  | _ + 1, [], pending, list, closing => if closing.isSome then none else some ([], appendText list pending)
  | fuel + 1, c :: more, pending, list, closing =>
    match tagAt (c :: more) with
    | .plain => parseNodes fuel more (pending ++ [c]) list closing
    | .unclosed => none
    | .leaf nodes after => parseNodes fuel after [] (appendText list pending ++ nodes) closing
    | .closing name after => if closing = some name then some (after, appendText list pending) else none
    | .opening node name after =>
      (parseNodes fuel after [] [] (some name)).bind fun body =>
        parseNodes fuel body.1 [] (appendText list pending ++ [node name body.2]) closing

/-- `bb_template_parse_internal`. -/
def parse (source : Bytes) : Option (List Node) :=
  (parseNodes ((Json.cString source).length + 1) (Json.cString source) [] [] none).map (·.2)

/-! ## What is left to parse gets shorter -/

def Tag.Shorter (length : Nat) : Tag → Prop
  | .plain | .unclosed => True
  | .leaf _ after | .closing _ after | .opening _ _ after => after.length < length

theorem readUntil_shorter (delimiter : Bytes) {rest : Bytes} {found : Bytes × Bytes}
    (read : readUntil delimiter rest = some found) : found.2.length ≤ rest.length := by
  induction rest generalizing found with
  | nil => cases read
  | cons c rest ih =>
    rw [readUntil] at read
    split at read
    · cases read
      rw [List.length_drop]
      exact Nat.sub_le _ _
    · rcases Option.map_eq_some_iff.mp read with ⟨later, further, same⟩
      rw [← same]
      exact Nat.le_succ_of_le (@ih later further)

theorem named_shorter {rest : Bytes} {length : Nat} (shorter : rest.length < length) {tag : Bytes → Bytes → Tag}
    (leaves : ∀ name after : Bytes, after.length < length → (tag name after).Shorter length) : (named rest tag).Shorter length := by
  unfold named
  cases read : readUntil (ascii "\x7d\x7d") rest with
  | none => exact True.intro
  | some found => exact leaves _ _ (Nat.lt_of_le_of_lt (readUntil_shorter _ read) shorter)

theorem tagAt_shorter (c : Byte) (more : Bytes) : (tagAt (c :: more)).Shorter (c :: more).length := by
  have drop : ∀ n, 0 < n → ((c :: more).drop n).length < (c :: more).length := by
    intro n some_
    rw [List.length_drop, List.length_cons]
    omega
  unfold tagAt
  split
  · exact drop 3 (by decide)
  split
  · exact named_shorter (drop 3 (by decide)) fun _ _ shorter => shorter
  split
  · exact named_shorter (drop 3 (by decide)) fun _ _ shorter => shorter
  split
  · exact named_shorter (drop 3 (by decide)) fun _ _ shorter => shorter
  split
  · cases read : readUntil (ascii "\x7d\x7d") ((c :: more).drop 3) with
    | none => exact Nat.succ_pos _
    | some found => exact Nat.lt_of_le_of_lt (readUntil_shorter _ read) (drop 3 (by decide))
  split
  · exact named_shorter (drop 2 (by decide)) fun _ _ shorter => shorter
  · exact True.intro

theorem parseNodes_shorter (fuel : Nat) {rest pending : Bytes} {list : List Node} {closing : Option Bytes}
    {parsed : Bytes × List Node} (done : parseNodes fuel rest pending list closing = some parsed) :
    parsed.1.length ≤ rest.length := by
  induction fuel generalizing rest pending list closing parsed with
  | zero => cases done
  | succ fuel ih =>
    cases rest with
    | nil =>
      rw [parseNodes] at done
      split at done
      · cases done
      · cases done
        exact Nat.le_refl _
    | cons c more =>
      have shorter := tagAt_shorter c more
      rw [parseNodes] at done
      cases tag : tagAt (c :: more) with
      | plain =>
        simp only [tag] at done
        exact Nat.le_succ_of_le (ih done)
      | unclosed =>
        simp only [tag] at done
        cases done
      | leaf nodes after =>
        simp only [tag] at done
        rw [tag] at shorter
        exact Nat.le_trans (ih done) (Nat.le_of_lt shorter)
      | closing name after =>
        simp only [tag] at done
        rw [tag] at shorter
        split at done
        · cases done
          exact Nat.le_of_lt shorter
        · cases done
      | opening node name after =>
        simp only [tag] at done
        rw [tag] at shorter
        rcases Option.bind_eq_some_iff.mp done with ⟨body, inner, outer⟩
        exact Nat.le_trans (ih outer) (Nat.le_trans (ih inner) (Nat.le_of_lt shorter))

theorem parseNodes_fuel {fuel fuel' : Nat} {rest : Bytes} (enough : rest.length < fuel) (enough' : rest.length < fuel')
    (pending : Bytes) (list : List Node) (closing : Option Bytes) :
    parseNodes fuel rest pending list closing = parseNodes fuel' rest pending list closing := by
  induction fuel generalizing fuel' rest pending list closing with
  | zero => cases enough
  | succ fuel ih =>
    cases fuel' with
    | zero => cases enough'
    | succ fuel' =>
      cases rest with
      | nil => rfl
      | cons c more =>
        have shorter := tagAt_shorter c more
        have below := Nat.lt_of_succ_lt_succ enough
        have below' := Nat.lt_of_succ_lt_succ enough'
        rw [parseNodes, parseNodes]
        cases tag : tagAt (c :: more) with
        | plain => exact ih below below' _ _ _
        | unclosed => rfl
        | leaf nodes after =>
          rw [tag] at shorter
          have least : after.length ≤ more.length := Nat.le_of_lt_succ shorter
          exact ih (Nat.lt_of_le_of_lt least below) (Nat.lt_of_le_of_lt least below') _ _ _
        | closing name after => rfl
        | opening node name after =>
          rw [tag] at shorter
          have least : after.length ≤ more.length := Nat.le_of_lt_succ shorter
          have body := ih (Nat.lt_of_le_of_lt least below) (Nat.lt_of_le_of_lt least below') [] [] (some name)
          show (parseNodes fuel after [] [] (some name)).bind _ = (parseNodes fuel' after [] [] (some name)).bind _
          rw [← body]
          cases inner : parseNodes fuel after [] [] (some name) with
          | none => rfl
          | some found =>
            have left := Nat.le_trans (parseNodes_shorter fuel inner) least
            exact ih (Nat.lt_of_le_of_lt left below) (Nat.lt_of_le_of_lt left below') _ _ _

/-! ## The texts of a template are C strings -/

mutual

def Node.Clean : Node → Prop
  | .text value => (0 : Byte) ∉ value
  | .variable_ _ | .comment => True
  | .section_ _ children | .conditional _ children => CleanNodes children

def CleanNodes : List Node → Prop
  | [] => True
  | node :: nodes => node.Clean ∧ CleanNodes nodes

end

theorem cleanNodes_nil : CleanNodes [] := True.intro

theorem cleanNodes_single {node : Node} (clean : node.Clean) : CleanNodes [node] := ⟨clean, True.intro⟩

theorem CleanNodes.append {nodes others : List Node} (clean : CleanNodes nodes) (cleanToo : CleanNodes others) :
    CleanNodes (nodes ++ others) := by
  induction nodes with
  | nil => exact cleanToo
  | cons node nodes ih =>
    rcases clean with ⟨here, rest⟩
    exact ⟨here, ih rest⟩

theorem CleanNodes.appendText {list : List Node} (clean : CleanNodes list) {text : Bytes} (free : (0 : Byte) ∉ text) :
    CleanNodes (appendText list text) := by
  unfold Template.appendText
  split
  · exact clean
  · exact clean.append (cleanNodes_single free)

/-- What a tag brings is clean, and what it leaves of a source without NUL has none. -/
def Tag.Clean : Tag → Prop
  | .plain | .unclosed => True
  | .leaf nodes after => CleanNodes nodes ∧ (0 : Byte) ∉ after
  | .closing _ after => (0 : Byte) ∉ after
  | .opening node _ after => (∀ name children, CleanNodes children → (node name children).Clean) ∧ (0 : Byte) ∉ after

theorem readUntil_clean (delimiter : Bytes) {rest : Bytes} (free : (0 : Byte) ∉ rest) {found : Bytes × Bytes}
    (read : readUntil delimiter rest = some found) : (0 : Byte) ∉ found.2 := by
  induction rest generalizing found with
  | nil => cases read
  | cons c rest ih =>
    rw [readUntil] at read
    split at read
    · cases read
      exact fun member => free (List.mem_of_mem_drop member)
    · rcases Option.map_eq_some_iff.mp read with ⟨later, further, same⟩
      rw [← same]
      exact @ih (fun member => free (List.mem_cons_of_mem _ member)) later further

theorem named_clean {rest : Bytes} (free : (0 : Byte) ∉ rest) {tag : Bytes → Bytes → Tag}
    (leaves : ∀ name after : Bytes, (0 : Byte) ∉ after → (tag name after).Clean) : (named rest tag).Clean := by
  unfold named
  cases read : readUntil (ascii "\x7d\x7d") rest with
  | none => exact True.intro
  | some found => exact leaves _ _ (readUntil_clean _ free read)

theorem tagAt_clean {rest : Bytes} (free : (0 : Byte) ∉ rest) : (tagAt rest).Clean := by
  have drop : ∀ n, (0 : Byte) ∉ rest.drop n := fun n member => free (List.mem_of_mem_drop member)
  unfold tagAt
  split
  · have braces : (0 : Byte) ∉ ascii "\x7b\x7b" := by decide
    exact ⟨cleanNodes_single braces, drop 3⟩
  split
  · exact named_clean (drop 3) fun _ _ clean => clean
  split
  · exact named_clean (drop 3) fun _ _ clean => ⟨fun _ _ children => children, clean⟩
  split
  · exact named_clean (drop 3) fun _ _ clean => ⟨fun _ _ children => children, clean⟩
  split
  · refine ⟨True.intro, ?_⟩
    cases read : readUntil (ascii "\x7d\x7d") (rest.drop 3) with
    | none => exact List.not_mem_nil
    | some found => exact readUntil_clean _ (drop 3) read
  split
  · exact named_clean (drop 2) fun _ _ clean => ⟨cleanNodes_single True.intro, clean⟩
  · exact True.intro

theorem parseNodes_clean (fuel : Nat) {rest pending : Bytes} {list : List Node} {closing : Option Bytes}
    {parsed : Bytes × List Node} (free : (0 : Byte) ∉ rest) (waiting : (0 : Byte) ∉ pending) (clean : CleanNodes list)
    (done : parseNodes fuel rest pending list closing = some parsed) : (0 : Byte) ∉ parsed.1 ∧ CleanNodes parsed.2 := by
  induction fuel generalizing rest pending list closing parsed with
  | zero => cases done
  | succ fuel ih =>
    cases rest with
    | nil =>
      rw [parseNodes] at done
      split at done
      · cases done
      · cases done
        exact ⟨free, clean.appendText waiting⟩
    | cons c more =>
      have tagged := tagAt_clean free
      rw [parseNodes] at done
      cases tag : tagAt (c :: more) with
      | plain =>
        simp only [tag] at done
        refine ih (fun member => free (List.mem_cons_of_mem _ member)) ?_ clean done
        intro member
        rcases List.mem_append.mp member with before | here
        · exact waiting before
        · rw [List.mem_singleton.mp here] at free
          exact free List.mem_cons_self
      | unclosed =>
        simp only [tag] at done
        cases done
      | leaf nodes after =>
        simp only [tag] at done
        rw [tag] at tagged
        exact ih tagged.2 List.not_mem_nil ((clean.appendText waiting).append tagged.1) done
      | closing name after =>
        simp only [tag] at done
        rw [tag] at tagged
        split at done
        · cases done
          exact ⟨tagged, clean.appendText waiting⟩
        · cases done
      | opening node name after =>
        simp only [tag] at done
        rw [tag] at tagged
        rcases Option.bind_eq_some_iff.mp done with ⟨body, inner, outer⟩
        rcases ih tagged.2 List.not_mem_nil cleanNodes_nil inner with ⟨left, children⟩
        exact ih left List.not_mem_nil ((clean.appendText waiting).append (cleanNodes_single (tagged.1 _ _ children))) outer

theorem parse_clean {source : Bytes} {nodes : List Node} (parsed : parse source = some nodes) : CleanNodes nodes := by
  rcases Option.map_eq_some_iff.mp parsed with ⟨found, done, same⟩
  rw [← same]
  exact (parseNodes_clean _ (Json.cString_clean source) List.not_mem_nil cleanNodes_nil done).2

end BlueBird.Template
