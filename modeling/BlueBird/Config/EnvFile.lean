import BlueBird.Encoding.NumberText
import BlueBird.Json.Value
import Mathlib.Data.List.DropRight

/-! Settings from a file of lines `KEY=value`. -/

namespace BlueBird.EnvFile

variable {R : Type} [Reals R]

def lineFeed : Byte := 0x0A
def carriageReturn : Byte := 0x0D
def quotationMark : Byte := 0x22
def apostrophe : Byte := 0x27

def trim (s : Bytes) : Bytes := (s.dropWhile isSpace).rdropWhile isSpace

def quoted (mark : Byte) (s : Bytes) : Prop := s.head? = some mark ∧ s.getLast? = some mark

instance (mark : Byte) (s : Bytes) : Decidable (quoted mark s) := inferInstanceAs (Decidable (_ ∧ _))

/-- `strip_quotes` -/
def stripQuotes (s : Bytes) : Bytes :=
  if s.length ≥ 2 ∧ (quoted quotationMark s ∨ quoted apostrophe s) then (s.drop 1).take (s.length - 2) else s

/-- `parse_value` -/
def parseValue (value : Bytes) : Json R :=
  if strCaseEq value (ascii "true") then .bool true
  else if strCaseEq value (ascii "false") then .bool false
  else if strCaseEq value (ascii "null") then .null
  else if (NumberText.strtol value).2 = [] ∧ (NumberText.strtol value).2 ≠ value then
    .int (Int32.ofInt (NumberText.strtol value).1)
  else if (Reals.strtof (R := R) value).2 = [] ∧ (Reals.strtof (R := R) value).2 ≠ value then
    .real (Reals.strtof value).1
  else .text (some value)

/-- The key of a line and what is behind its `=`, both trimmed; a line that sets nothing has none. -/
def keyAndValue (line : Bytes) : Option (Bytes × Bytes) :=
  let p := trim line
  if p = [] then none
  else if p.head? = some (ch '#') then none
  else
    let p := if (ascii "export ").isPrefixOf p then p.drop 7 else p
    if ch '=' ∉ p then none
    else some (trim (p.takeWhile (· ≠ ch '=')), trim ((p.dropWhile (· ≠ ch '=')).drop 1))

def inLine (c : Byte) : Bool := c ≠ carriageReturn ∧ c ≠ lineFeed

/-- `value[strcspn(value, "\r\n")] = '\0'` -/
def cutLineEnd (value : Bytes) : Bytes := value.takeWhile inLine

def readValue (value : Bytes) : Json R := parseValue (stripQuotes (cutLineEnd value))

/-- `fgets` of a stream into a buffer of `size + 1` bytes, with what is left of the stream. -/
def fgets : Nat → Bytes → Bytes × Bytes
  | 0, stream => ([], stream)
  | _ + 1, [] => ([], [])
  | size + 1, c :: stream =>
    if c = lineFeed then ([c], stream) else (c :: (fgets size stream).1, (fgets size stream).2)

/-- The most that `char line[1024]` holds beside its NUL. -/
def lineSize : Nat := 1023

/-- The loop of `bb_config_load_env`; every turn takes a byte at least. -/
def envLoop : Nat → Bytes → List (Bytes × Json R) → List (Bytes × Json R)
  | 0, _, entries => entries
  | fuel + 1, stream, entries =>
    let read := fgets lineSize stream
    if read.1 = [] then entries
    else
      match keyAndValue (Json.cString read.1) with
      | none => envLoop fuel read.2 entries
      | some setting => envLoop fuel read.2 (Json.objectSetValue entries setting.1 (readValue setting.2))

inductive EnvError where
  | typeMismatch | io
  deriving DecidableEq, Repr

/-- `bb_config_load_env`, with the config afterwards; a file that cannot be opened has no content. -/
def loadEnv (config : Json R) (file : Option Bytes) : Except EnvError Unit × Json R :=
  match config with
  | .object entries =>
    match file with
    | none => (.error .io, config)
    | some content => (.ok (), .object (envLoop content.length content entries))
  | _ => (.error .typeMismatch, config)

/-! ## What a file says -/

def fileLines (content : Bytes) : List Bytes := content.splitOnP (· = lineFeed)

def literal (text : Bytes) : Option Int :=
  let scanned := NumberText.scan text
  if scanned.digits ≠ [] ∧ scanned.rest = [] then
    some (if scanned.negative then - NumberText.number scanned.digits else NumberText.number scanned.digits)
  else none

def FitsInt (z : Int) : Prop := -2^31 ≤ z ∧ z < 2^31

instance (z : Int) : Decidable (FitsInt z) := inferInstanceAs (Decidable (_ ∧ _))

def denotes (text : Bytes) : Json R :=
  if strCaseEq text (ascii "true") then .bool true
  else if strCaseEq text (ascii "false") then .bool false
  else if strCaseEq text (ascii "null") then .null
  else
    match (literal text).filter FitsInt with
    | some z => .int (Int32.ofInt z)
    | none => if text ≠ [] ∧ (Reals.strtof (R := R) text).2 = [] then .real (Reals.strtof text).1 else .text (some text)

/-- The settings of a file, one for a line at most, in their order. -/
def settings (content : Bytes) : List (Bytes × Bytes) := (fileLines content).filterMap keyAndValue

def setAll (meaning : Bytes → Json R) (entries : List (Bytes × Json R)) (settings : List (Bytes × Bytes)) :
    List (Bytes × Json R) :=
  settings.foldl (fun entries setting => Json.objectSetValue entries setting.1 (meaning setting.2)) entries

def LoadsExactly (entries : List (Bytes × Json R)) (content : Bytes) : Prop :=
  loadEnv (.object entries) (some content) =
    (.ok (), .object (setAll (fun value => denotes (stripQuotes value)) entries (settings content)))

/-- The value is on one line, and is no integer beyond `int`. -/
def Plain (value : Bytes) : Prop :=
  carriageReturn ∉ value ∧ ∀ z ∈ literal (stripQuotes value), FitsInt z

/-- `strtof` reads a text to its end only when behind white space there is none, and no quotation mark either. -/
def ReadsTokens (R : Type) [Reals R] : Prop :=
  ∀ text : Bytes, text ≠ [] → (Reals.strtof (R := R) text).2 = [] →
    ∃ spaces token, text = spaces ++ token ∧ (∀ c ∈ spaces, isSpace c = true) ∧
      ∀ c ∈ token, isSpace c = false ∧ c ≠ quotationMark ∧ c ≠ apostrophe

/-! ## One line -/

theorem trim_append_blank (text : Bytes) {c : Byte} (blank : isSpace c = true) : trim (text ++ [c]) = trim text := by
  unfold trim
  rw [List.dropWhile_append]
  by_cases empty : (text.dropWhile isSpace).isEmpty = true
  · rw [if_pos empty, List.isEmpty_iff.mp empty]
    simp [blank]
  · rw [if_neg empty, List.rdropWhile_concat_pos _ _ _ blank]

theorem keyAndValue_lineFeed (line : Bytes) : keyAndValue (line ++ [lineFeed]) = keyAndValue line := by
  unfold keyAndValue
  rw [trim_append_blank line (by decide)]

theorem trim_subset (text : Bytes) : ∀ c ∈ trim text, c ∈ text :=
  fun _ member => (List.dropWhile_suffix _).subset ((List.rdropWhile_prefix _ _).subset member)

theorem keyAndValue_none {line : Bytes} (none_ : ch '=' ∉ line) : keyAndValue line = none := by
  have absent : ch '=' ∉ trim line := fun inside => none_ (trim_subset line _ inside)
  have later : ch '=' ∉ (if (ascii "export ").isPrefixOf (trim line) then (trim line).drop 7 else trim line) := by
    split
    · exact fun inside => absent (List.mem_of_mem_drop inside)
    · exact absent
  unfold keyAndValue
  dsimp only
  rw [if_pos later]
  split
  · rfl
  · split <;> rfl

/-! ## Reading by lines -/

theorem fgets_lineFeed (size : Nat) {line : Bytes} (one : lineFeed ∉ line) (rest : Bytes) :
    fgets size (line ++ lineFeed :: rest) =
      if line.length < size then (line ++ [lineFeed], rest) else (line.take size, line.drop size ++ lineFeed :: rest) := by
  induction size generalizing line with
  | zero => simp [fgets]
  | succ size ih =>
    cases line with
    | nil => simp [fgets]
    | cons c line =>
      have other : c ≠ lineFeed := fun same => one (same ▸ List.mem_cons_self ..)
      rw [List.cons_append, fgets, if_neg other, ih fun later => one (List.mem_cons_of_mem _ later)]
      by_cases short : line.length < size
      · rw [if_pos short, if_pos (by simpa using short)]
        rfl
      · rw [if_neg short, if_neg (by simpa using short)]
        rfl

theorem fgets_last (size : Nat) {line : Bytes} (one : lineFeed ∉ line) : fgets size line = (line.take size, line.drop size) := by
  induction size generalizing line with
  | zero => simp [fgets]
  | succ size ih =>
    cases line with
    | nil => rfl
    | cons c line =>
      have other : c ≠ lineFeed := fun same => one (same ▸ List.mem_cons_self ..)
      rw [fgets, if_neg other, ih fun later => one (List.mem_cons_of_mem _ later)]
      rfl

theorem fileLines_last {line : Bytes} (one : lineFeed ∉ line) : fileLines line = [line] := by
  apply List.splitOnP_eq_singleton
  intro c member
  exact decide_eq_false fun same => one (same ▸ member)

theorem fileLines_lineFeed {line : Bytes} (one : lineFeed ∉ line) (rest : Bytes) :
    fileLines (line ++ lineFeed :: rest) = line :: fileLines rest := by
  apply List.splitOnP_append_cons_of_forall_mem
  · intro c member
    exact decide_eq_false fun same => one (same ▸ member)
  · exact decide_eq_true rfl

def Fitting (content : Bytes) : Prop := ∀ line ∈ fileLines content, line.length ≤ lineSize ∨ ch '=' ∉ line

theorem keyAndValue_cut {line : Bytes} {size : Nat} (fits : line.length ≤ size ∨ ch '=' ∉ line) :
    keyAndValue (line.take size) = keyAndValue line ∧ ch '=' ∉ line.drop size := by
  rcases fits with short | absent
  · rw [List.take_of_length_le short, List.drop_of_length_le short]
    exact ⟨rfl, List.not_mem_nil⟩
  · rw [keyAndValue_none absent, keyAndValue_none fun inside => absent (List.mem_of_mem_take inside)]
    exact ⟨rfl, fun inside => absent (List.mem_of_mem_drop inside)⟩

theorem settings_lineFeed {line : Bytes} (one : lineFeed ∉ line) (rest : Bytes) :
    settings (line ++ lineFeed :: rest) = (keyAndValue line).toList ++ settings rest := by
  unfold settings
  rw [fileLines_lineFeed one]
  cases found : keyAndValue line with
  | none => rw [List.filterMap_cons_none found]; rfl
  | some setting => rw [List.filterMap_cons_some found]; rfl

theorem settings_last {line : Bytes} (one : lineFeed ∉ line) : settings line = (keyAndValue line).toList := by
  unfold settings
  rw [fileLines_last one]
  cases found : keyAndValue line with
  | none => rw [List.filterMap_cons_none found]; rfl
  | some setting => rw [List.filterMap_cons_some found]; rfl

omit [Reals R] in
theorem setAll_append (meaning : Bytes → Json R) (entries : List (Bytes × Json R)) (first second : List (Bytes × Bytes)) :
    setAll meaning entries (first ++ second) = setAll meaning (setAll meaning entries first) second :=
  List.foldl_append

theorem envLoop_turn {fuel : Nat} {stream piece rest : Bytes} (read : fgets lineSize stream = (piece, rest))
    (some_ : piece ≠ []) (clean : 0 ∉ piece) (entries : List (Bytes × Json R)) :
    envLoop (fuel + 1) stream entries = envLoop fuel rest (setAll readValue entries (keyAndValue piece).toList) := by
  rw [envLoop, read]
  dsimp only
  rw [if_neg some_, Json.cString_of_clean clean]
  cases keyAndValue piece with
  | none => rfl
  | some setting => rfl

theorem envLoop_settings {fuel : Nat} {content : Bytes} (enough : content.length ≤ fuel) (clean : 0 ∉ content)
    (fitting : Fitting content) (entries : List (Bytes × Json R)) :
    envLoop fuel content entries = setAll readValue entries (settings content) := by
  induction fuel generalizing content entries with
  | zero =>
    rw [List.length_eq_zero_iff.mp (Nat.le_zero.mp enough)]
    rfl
  | succ fuel ih =>
    by_cases ended : lineFeed ∈ content
    · rcases List.eq_append_cons_of_mem ended with ⟨line, rest, rfl, one⟩
      have lines := fileLines_lineFeed one rest
      have cleanLine : 0 ∉ line := fun inside => clean (List.mem_append_left _ inside)
      have cleanRest : 0 ∉ rest := fun inside => clean (List.mem_append_right _ (List.mem_cons_of_mem _ inside))
      have read := fgets_lineFeed lineSize one rest
      rw [List.length_append, List.length_cons] at enough
      unfold Fitting at fitting
      rw [lines, List.forall_mem_cons] at fitting
      rw [settings_lineFeed one, setAll_append]
      by_cases short : line.length < lineSize
      · rw [if_pos short] at read
        rw [envLoop_turn read (by simp) (by simpa using ⟨cleanLine, by decide⟩), keyAndValue_lineFeed]
        exact ih (by omega) cleanRest fitting.2 _
      · have cut := keyAndValue_cut fitting.1
        have positive : 0 < (line.take lineSize).length := by
          rw [List.length_take]
          unfold lineSize at short ⊢
          omega
        have oneLeft : lineFeed ∉ line.drop lineSize := fun inside => one (List.mem_of_mem_drop inside)
        rw [if_neg short] at read
        rw [envLoop_turn read (List.ne_nil_of_length_pos positive) (fun inside => cleanLine (List.mem_of_mem_take inside)),
          cut.1, ih _ _ _ _, settings_lineFeed oneLeft, keyAndValue_none cut.2]
        · rfl
        · rw [List.length_append, List.length_drop, List.length_cons]
          rw [List.length_take] at positive
          omega
        · intro inside
          rcases List.mem_append.mp inside with front | back
          · exact cleanLine (List.mem_of_mem_drop front)
          · rcases List.mem_cons.mp back with zero | later
            · exact absurd zero (by decide)
            · exact cleanRest later
        · unfold Fitting
          rw [fileLines_lineFeed oneLeft, List.forall_mem_cons]
          exact ⟨.inr cut.2, fitting.2⟩
    · have read := fgets_last lineSize ended
      by_cases empty : content = []
      · rw [empty]
        rfl
      · have positive : 0 < (content.take lineSize).length := by
          rw [List.length_take]
          exact Nat.lt_min.mpr ⟨by decide, List.length_pos_iff.mpr empty⟩
        have fits : content.length ≤ lineSize ∨ ch '=' ∉ content := fitting content (by rw [fileLines_last ended]; simp)
        have cut := keyAndValue_cut fits
        have oneLeft : lineFeed ∉ content.drop lineSize := fun inside => ended (List.mem_of_mem_drop inside)
        rw [envLoop_turn read (List.ne_nil_of_length_pos positive) (fun inside => clean (List.mem_of_mem_take inside)), cut.1,
          settings_last ended, ih _ (fun inside => clean (List.mem_of_mem_drop inside)), settings_last oneLeft,
          keyAndValue_none cut.2]
        · rfl
        · unfold Fitting
          rw [fileLines_last oneLeft]
          simpa using .inr cut.2
        · rw [List.length_drop]
          rw [List.length_take] at positive
          omega

/-! ## One value -/

theorem strtol_whole (text : Bytes) :
    (NumberText.strtol text).2 = [] ∧ (NumberText.strtol text).2 ≠ text ↔ (literal text).isSome = true := by
  unfold literal NumberText.strtol
  dsimp only
  by_cases empty : (NumberText.scan text).digits = []
  · rw [if_pos empty, if_neg fun both => both.1 empty]
    simp
  · rw [if_neg empty]
    have some_ : text ≠ [] := by
      rintro rfl
      exact empty rfl
    by_cases ends : (NumberText.scan text).rest = []
    · simp [empty, ends, some_.symm]
    · simp [ends]

theorem strtol_literal {text : Bytes} {z : Int} (number : literal text = some z) :
    (NumberText.strtol text).1 = max (-2^63) (min (2^63 - 1) z) := by
  unfold literal at number
  dsimp only at number
  split at number
  · next whole =>
    cases number
    unfold NumberText.strtol
    dsimp only
    rw [if_neg whole.1]
  · cases number

theorem strtof_whole (text : Bytes) :
    (Reals.strtof (R := R) text).2 = [] ∧ (Reals.strtof (R := R) text).2 ≠ text ↔
      text ≠ [] ∧ (Reals.strtof (R := R) text).2 = [] := by
  constructor
  · intro ⟨ends, moved⟩
    rw [ends] at moved
    exact ⟨moved.symm, ends⟩
  · intro ⟨some_, ends⟩
    rw [ends]
    exact ⟨rfl, some_.symm⟩

def initial (c : Byte) : Bool := isSpace c || isDigit c || c == ch '-' || c == ch '+'

theorem literal_initial {c : Byte} {text : Bytes} (other : initial c = false) : literal (c :: text) = none := by
  unfold initial at other
  simp only [Bool.or_eq_false_iff, beq_eq_false_iff_ne] at other
  rcases other with ⟨⟨⟨space, digit⟩, minus⟩, plus⟩
  have scanned : (NumberText.scan (c :: text)).digits = [] := by
    unfold NumberText.scan
    simp [space, digit, minus, plus]
  unfold literal
  dsimp only
  rw [if_neg fun both => both.1 scanned]

theorem keyword_initial (c : Byte) : toLower c = ch 't' ∨ toLower c = ch 'f' ∨ toLower c = ch 'n' → initial c = false := by
  revert c
  apply forall_byte
  decide +kernel

theorem literal_keyword {text : Bytes}
    (keyword : strCaseEq text (ascii "true") = true ∨ strCaseEq text (ascii "false") = true ∨
      strCaseEq text (ascii "null") = true) : literal text = none := by
  cases text with
  | nil => rfl
  | cons c rest =>
    apply literal_initial
    apply keyword_initial
    rcases keyword with same | same | same
    · exact .inl (List.cons.inj (eq_of_beq same)).1
    · exact .inr (.inl (List.cons.inj (eq_of_beq same)).1)
    · exact .inr (.inr (List.cons.inj (eq_of_beq same)).1)

/-- A text is read as what it stands for, unless it is an integer beyond `int`. -/
theorem parseValue_denotes (text : Bytes) :
    (parseValue text : Json R) = denotes text ↔ ∀ z ∈ literal text, FitsInt z := by
  by_cases keyword : strCaseEq text (ascii "true") = true ∨ strCaseEq text (ascii "false") = true ∨
      strCaseEq text (ascii "null") = true
  · rw [literal_keyword keyword]
    refine iff_of_true ?_ (by simp)
    unfold parseValue denotes
    rcases keyword with same | same | same
    · rw [if_pos same, if_pos same]
    · rw [if_pos same, if_pos same]
    · rw [if_pos same, if_pos same]
  · simp only [not_or] at keyword
    unfold parseValue denotes
    rw [if_neg keyword.1, if_neg keyword.1, if_neg keyword.2.1, if_neg keyword.2.1, if_neg keyword.2.2, if_neg keyword.2.2]
    simp only [strtol_whole, strtof_whole]
    cases number : literal text with
    | none => simp
    | some z =>
      have whole : (some z).isSome = true := rfl
      rw [if_pos whole, strtol_literal number]
      by_cases fits : FitsInt z
      · have clamped : max (-2^63) (min (2^63 - 1) z) = z := by
          unfold FitsInt at fits
          omega
        rw [Option.filter_some, if_pos (decide_eq_true fits), clamped]
        refine iff_of_true rfl ?_
        intro other same
        cases same
        exact fits
      · rw [Option.filter_some, if_neg (by simpa using fits)]
        refine iff_of_false ?_ fun inside => fits (inside z rfl)
        dsimp only
        split <;> exact nofun

theorem strCaseEq_carriageReturn {text word : Bytes} (inside : carriageReturn ∈ text)
    (plain : carriageReturn ∉ word.map toLower) : strCaseEq text word = false := by
  cases same : strCaseEq text word with
  | false => rfl
  | true =>
    have lower : carriageReturn ∈ text.map toLower := List.mem_map.mpr ⟨carriageReturn, inside, by decide⟩
    rw [eq_of_beq same] at lower
    exact absurd lower plain

theorem strCaseEq_broken {text : Bytes} (inside : carriageReturn ∈ text) :
    strCaseEq text (ascii "true") = false ∧ strCaseEq text (ascii "false") = false ∧ strCaseEq text (ascii "null") = false :=
  ⟨strCaseEq_carriageReturn inside (by decide), strCaseEq_carriageReturn inside (by decide),
    strCaseEq_carriageReturn inside (by decide)⟩

theorem denotes_ne {text other : Bytes} (inside : carriageReturn ∈ text) (plain : carriageReturn ∉ other) :
    (denotes text : Json R) ≠ .text (some other) := by
  have apart : text ≠ other := fun same => plain (same ▸ inside)
  have words := strCaseEq_broken inside
  unfold denotes
  rw [words.1, words.2.1, words.2.2, if_neg Bool.false_ne_true, if_neg Bool.false_ne_true, if_neg Bool.false_ne_true]
  split
  · exact nofun
  · split
    · exact nofun
    · intro same
      cases same
      exact apart rfl

theorem denotes_broken (tokens : ReadsTokens R) {text : Bytes} (inside : carriageReturn ∈ text) :
    (denotes text : Json R) = .text (some text) ∨
      ∃ spaces token, text = spaces ++ token ∧ carriageReturn ∈ spaces ∧ ∀ c ∈ spaces, isSpace c = true := by
  have words := strCaseEq_broken inside
  cases number : literal text with
  | none =>
    by_cases whole : text ≠ [] ∧ (Reals.strtof (R := R) text).2 = []
    · rcases tokens text whole.1 whole.2 with ⟨spaces, token, split, blank, plain⟩
      refine .inr ⟨spaces, token, split, ?_, blank⟩
      rw [split] at inside
      rcases List.mem_append.mp inside with front | back
      · exact front
      · exact absurd (plain _ back).1 (by decide)
    · left
      unfold denotes
      rw [words.1, words.2.1, words.2.2, if_neg Bool.false_ne_true, if_neg Bool.false_ne_true, if_neg Bool.false_ne_true,
        number]
      exact if_neg whole
  | some z =>
    unfold literal at number
    dsimp only at number
    split at number
    · next whole =>
      rcases NumberText.scan_written whole.1 with ⟨spaces, mark, written⟩
      refine .inr ⟨spaces, _, written.split, ?_, written.blank⟩
      have parts := written.split
      rw [whole.2, List.append_nil] at parts
      rw [parts] at inside
      rcases List.mem_append.mp inside with front | back
      · exact front
      · rcases List.mem_append.mp back with sign | digit
        · rcases written.sign with empty | plus | minus
          · rw [empty] at sign
            cases sign
          · rw [plus] at sign
            exact absurd sign (by decide)
          · rw [minus] at sign
            exact absurd sign (by decide)
        · exact absurd (written.numeric _ digit) (by decide)
    · cases number

theorem stripQuotes_cases (s : Bytes) :
    stripQuotes s = s ∨ ∃ mark, (mark = quotationMark ∨ mark = apostrophe) ∧ s = mark :: (stripQuotes s ++ [mark]) := by
  by_cases marked : s.length ≥ 2 ∧ (quoted quotationMark s ∨ quoted apostrophe s)
  · right
    have inner : stripQuotes s = (s.drop 1).take (s.length - 2) := if_pos marked
    have around : ∀ mark, quoted mark s → s = mark :: (stripQuotes s ++ [mark]) := by
      intro mark ⟨first, last⟩
      rw [inner]
      cases s with
      | nil => cases first
      | cons c t =>
        cases first
        rcases List.eq_nil_or_concat' t with rfl | ⟨front, d, rfl⟩
        · exact absurd marked.1 (by simp)
        · rw [← List.cons_append, List.getLast?_append, List.getLast?_singleton] at last
          cases last
          simp
    rcases marked.2 with double | single
    · exact ⟨_, .inl rfl, around _ double⟩
    · exact ⟨_, .inr rfl, around _ single⟩
  · exact .inl (if_neg marked)

theorem parseValue_mark (tokens : ReadsTokens R) {mark : Byte} (quote : mark = quotationMark ∨ mark = apostrophe) (rest : Bytes) :
    (parseValue (mark :: rest) : Json R) = .text (some (mark :: rest)) := by
  have number : literal (mark :: rest) = none := by
    rcases quote with rfl | rfl <;> exact literal_initial (by decide)
  have keyword : ∀ word, (word = ascii "true" ∨ word = ascii "false" ∨ word = ascii "null") →
      strCaseEq (mark :: rest) word = false := by
    intro word known
    apply beq_eq_false_iff_ne.mpr
    intro same
    rcases known with rfl | rfl | rfl <;> rcases quote with rfl | rfl <;>
      exact absurd (List.cons.inj same).1 (by decide)
  have real : ¬ (mark :: rest ≠ [] ∧ (Reals.strtof (R := R) (mark :: rest)).2 = []) := by
    intro ⟨some_, ends⟩
    rcases tokens _ some_ ends with ⟨spaces, token, split, blank, plain⟩
    have space : isSpace mark = false := by rcases quote with rfl | rfl <;> decide
    cases spaces with
    | nil =>
      have inside : mark ∈ token := by
        rw [← List.nil_append token, ← split]
        exact List.mem_cons_self ..
      rcases quote with rfl | rfl
      · exact (plain _ inside).2.1 rfl
      · exact (plain _ inside).2.2 rfl
    | cons c spaces =>
      have first := blank c (List.mem_cons_self ..)
      rw [← (List.cons.inj split).1, space] at first
      cases first
  unfold parseValue
  rw [keyword _ (.inl rfl), keyword _ (.inr (.inl rfl)), keyword _ (.inr (.inr rfl))]
  simp only [strtol_whole, strtof_whole, number]
  exact if_neg real

theorem parseValue_text {text other : Bytes} (same : (parseValue text : Json R) = .text (some other)) : other = text := by
  unfold parseValue at same
  repeat' split at same
  all_goals cases same
  rfl

theorem cutLineEnd_front {mark : Byte} {spaces rest : Bytes} (quote : mark = quotationMark ∨ mark = apostrophe)
    (break_ : carriageReturn ∈ spaces) :
    ∃ front, cutLineEnd (mark :: (spaces ++ rest)) = mark :: front ∧ ∀ c ∈ front, c ∈ spaces := by
  rcases List.eq_append_cons_of_mem break_ with ⟨before, after, split, _⟩
  have passes : inLine mark = true := by rcases quote with rfl | rfl <;> decide
  have stops : ((carriageReturn :: (after ++ rest)).takeWhile inLine) = [] := List.takeWhile_cons_of_neg (by decide)
  refine ⟨before.takeWhile inLine, ?_, ?_⟩
  · unfold cutLineEnd
    rw [List.takeWhile_cons_of_pos passes, split, List.append_assoc, List.cons_append, List.takeWhile_append, stops]
    split
    · next whole =>
      rw [List.append_nil, (List.takeWhile_prefix inLine).eq_of_length whole]
    · rfl
  · intro c member
    rw [split]
    exact List.mem_append_left _ ((List.takeWhile_sublist _).subset member)

theorem readValue_broken (tokens : ReadsTokens R) {value : Bytes} (start : ∀ c ∈ value.head?, isSpace c = false)
    (inside : carriageReturn ∈ value) : (readValue value : Json R) ≠ denotes (stripQuotes value) := by
  have cutPlain : carriageReturn ∉ cutLineEnd value := by
    intro member
    have passes := List.mem_takeWhile_imp member
    exact absurd passes (by decide)
  have plain : carriageReturn ∉ stripQuotes (cutLineEnd value) := by
    rcases stripQuotes_cases (cutLineEnd value) with same | ⟨mark, _, around⟩
    · rw [same]
      exact cutPlain
    · intro member
      apply cutPlain
      rw [around]
      exact List.mem_cons_of_mem _ (List.mem_append_left _ member)
  have broken : carriageReturn ∈ stripQuotes value := by
    rcases stripQuotes_cases value with same | ⟨mark, quote, around⟩
    · rw [same]
      exact inside
    · rw [around] at inside
      rcases List.mem_cons.mp inside with first | later
      · rcases quote with rfl | rfl
        · exact absurd first (by decide)
        · exact absurd first (by decide)
      · rcases List.mem_append.mp later with middle | last
        · exact middle
        · rcases quote with rfl | rfl
          · exact absurd last (by decide)
          · exact absurd last (by decide)
  rcases denotes_broken tokens broken with text | ⟨spaces, token, split, front, blank⟩
  · rw [text]
    intro same
    rw [parseValue_text same] at broken
    exact plain broken
  · rcases stripQuotes_cases value with same | ⟨mark, quote, around⟩
    · rw [same] at split
      cases spaces with
      | nil => cases front
      | cons c spaces =>
        have first := start c (by rw [split]; rfl)
        rw [blank c (List.mem_cons_self ..)] at first
        cases first
    · rw [split, List.append_assoc] at around
      rcases @cutLineEnd_front mark spaces (token ++ [mark]) quote front with ⟨kept, cut, among⟩
      rw [← around] at cut
      have whole : stripQuotes (mark :: kept) = mark :: kept := by
        rcases stripQuotes_cases (mark :: kept) with same | ⟨other, _, wrapped⟩
        · exact same
        · rcases List.cons.inj wrapped with ⟨rfl, back⟩
          have ends : mark ∈ kept := by
            rw [back]
            simp
          have space := blank mark (among mark ends)
          rcases quote with rfl | rfl
          · exact absurd space (by decide)
          · exact absurd space (by decide)
      unfold readValue
      rw [cut, whole, parseValue_mark tokens quote]
      rw [cut, whole] at plain
      exact (denotes_ne broken plain).symm

theorem readValue_plain (tokens : ReadsTokens R) {value : Bytes} (start : ∀ c ∈ value.head?, isSpace c = false)
    (one : lineFeed ∉ value) : (readValue value : Json R) = denotes (stripQuotes value) ↔ Plain value := by
  by_cases cut : carriageReturn ∈ value
  · refine iff_of_false ?_ fun plain => plain.1 cut
    exact readValue_broken tokens start cut
  · have whole : cutLineEnd value = value := by
      apply List.takeWhile_eq_self_iff.mpr
      intro c member
      exact decide_eq_true ⟨fun same => cut (same ▸ member), fun same => one (same ▸ member)⟩
    unfold readValue Plain
    rw [whole, parseValue_denotes]
    exact (and_iff_right cut).symm

/-! ## The file -/

theorem trim_start (text : Bytes) : ∀ c ∈ (trim text).head?, isSpace c = false := by
  intro c first
  have prefix_ : trim text <+: text.dropWhile isSpace := List.rdropWhile_prefix _ _
  apply NumberText.dropWhile_ends text c
  rcases prefix_ with ⟨rest, split⟩
  rw [← split, List.head?_append_of_ne_nil]
  · exact first
  · rintro empty
    rw [empty] at first
    cases first

theorem keyAndValue_value {line : Bytes} {setting : Bytes × Bytes} (found : keyAndValue line = some setting) :
    (∀ c ∈ setting.2.head?, isSpace c = false) ∧ ∀ c ∈ setting.2, c ∈ line := by
  have inside : ∀ c ∈ (if (ascii "export ").isPrefixOf (trim line) then (trim line).drop 7 else trim line), c ∈ line := by
    intro c member
    split at member
    · exact trim_subset line c (List.mem_of_mem_drop member)
    · exact trim_subset line c member
  unfold keyAndValue at found
  dsimp only at found
  generalize (if (ascii "export ").isPrefixOf (trim line) then (trim line).drop 7 else trim line) = p at found inside
  split at found
  · cases found
  · split at found
    · cases found
    · split at found
      · cases found
      · cases found
        refine ⟨trim_start _, ?_⟩
        intro c member
        exact inside c ((List.dropWhile_suffix _).subset (List.mem_of_mem_drop (trim_subset _ c member)))

theorem fileLines_one (content : Bytes) : ∀ line ∈ fileLines content, lineFeed ∉ line := by
  unfold fileLines
  induction content with
  | nil => simp
  | cons c content ih =>
    rw [List.splitOnP_cons_eq_if_modifyHead]
    by_cases ends : c = lineFeed
    · rw [if_pos (decide_eq_true ends), List.forall_mem_cons]
      exact ⟨List.not_mem_nil, ih⟩
    · rw [if_neg (by simpa using ends)]
      rcases List.exists_cons_of_ne_nil (List.splitOnP_ne_nil (· = lineFeed) content) with ⟨first, others, split⟩
      rw [split, List.forall_mem_cons] at ih
      rw [split, List.modifyHead_cons, List.forall_mem_cons]
      refine ⟨?_, ih.2⟩
      intro inside
      rcases List.mem_cons.mp inside with same | later
      · exact ends same.symm
      · exact ih.1 later

theorem settings_value {content : Bytes} {setting : Bytes × Bytes} (member : setting ∈ settings content) :
    (∀ c ∈ setting.2.head?, isSpace c = false) ∧ lineFeed ∉ setting.2 := by
  rcases List.mem_filterMap.mp member with ⟨line, among, found⟩
  rcases keyAndValue_value found with ⟨start, inside⟩
  exact ⟨start, fun broken => fileLines_one content line among (inside _ broken)⟩

def LastPlain (content : Bytes) : Prop :=
  ∀ key value, OrderedMap.get? (settings content).reverse key = some value → Plain value

omit [Reals R] in
theorem setAll_mapValues (meaning : Bytes → Json R) (entries : List (Bytes × Json R)) (settings : List (Bytes × Bytes)) :
    setAll meaning entries settings =
      (OrderedMap.mapValues meaning settings).foldl (fun kept entry => OrderedMap.set kept entry.1 entry.2) entries := by
  unfold setAll OrderedMap.mapValues
  rw [List.foldl_map]
  rfl

/-- The config holds what the file says just when the line that counts for a key is always plain. -/
theorem loadsExactly_iff (tokens : ReadsTokens R) {entries : List (Bytes × Json R)} (distinct : OrderedMap.Distinct entries)
    {content : Bytes} (clean : 0 ∉ content) (fitting : Fitting content) :
    LoadsExactly entries content ↔ LastPlain content := by
  have keys : ∀ meaning : Bytes → Json R,
      (OrderedMap.mapValues meaning (settings content)).map (·.1) = (settings content).map (·.1) := by
    intro meaning
    unfold OrderedMap.mapValues
    rw [List.map_map]
    rfl
  have reversed : ∀ meaning : Bytes → Json R, ∀ key,
      OrderedMap.get? (OrderedMap.mapValues meaning (settings content)).reverse key =
        (OrderedMap.get? (settings content).reverse key).map meaning := by
    intro meaning key
    rw [← OrderedMap.get?_mapValues]
    unfold OrderedMap.mapValues
    rw [List.map_reverse]
  have loaded : LoadsExactly entries content ↔
      setAll readValue entries (settings content) =
        setAll (fun value => denotes (stripQuotes value)) entries (settings content) := by
    unfold LoadsExactly loadEnv
    dsimp only
    rw [envLoop_settings (Nat.le_refl _) clean fitting]
    constructor
    · intro same
      exact Json.object.inj (Prod.mk.inj same).2
    · intro same
      rw [same]
  rw [loaded, setAll_mapValues, setAll_mapValues, OrderedMap.foldl_set_eq_iff distinct ((keys _).trans (keys _).symm)]
  unfold LastPlain
  apply forall_congr'
  intro key
  rw [reversed, reversed]
  cases found : OrderedMap.get? (settings content).reverse key with
  | none => simp
  | some value =>
    have member := List.mem_reverse.mp (OrderedMap.mem_of_get? found)
    rcases settings_value member with ⟨start, one⟩
    rw [Option.map_some, Option.map_some, Option.some_inj, readValue_plain tokens start one]
    simp

/-- Numbers that are written with digits only. -/
@[reducible] def digitReals : Reals Nat where
  strtof text := if text ≠ [] ∧ text.all isDigit then (NumberText.number text, []) else (0, text)
  infinite _ := false
  formatReal := Http.decimal
  equal := (· == ·)

theorem digitReals_tokens : @ReadsTokens Nat digitReals := by
  intro text some_ ends
  refine ⟨[], text, rfl, by simp, ?_⟩
  have digits : text.all isDigit = true := by
    by_cases whole : text ≠ [] ∧ text.all isDigit
    · exact whole.2
    · have left : (@Reals.strtof Nat digitReals text).2 = text := congrArg Prod.snd (if_neg whole)
      rw [left] at ends
      exact absurd ends some_
  have plain : ∀ c : Byte, isDigit c = true → isSpace c = false ∧ c ≠ quotationMark ∧ c ≠ apostrophe := by
    apply forall_byte
    decide +kernel
  intro c member
  exact plain c (List.all_eq_true.mp digits c member)

def hostFile : Bytes := ascii "# local\nexport HOST = localhost\nPORT=3000000000\nPORT=8080\n"

def wrappedPort : Bytes := ascii "PORT=4294967376\n"

theorem fitting_host : Fitting hostFile := by
  have short : (fileLines hostFile).all (fun line => decide (line.length ≤ lineSize)) = true := by decide +kernel
  intro line member
  exact .inl (of_decide_eq_true (List.all_eq_true.mp short line member))

theorem lastPlain_host : LastPlain hostFile := by
  have last : (settings hostFile).reverse =
      [(ascii "PORT", ascii "8080"), (ascii "PORT", ascii "3000000000"), (ascii "HOST", ascii "localhost")] := by
    decide +kernel
  have plain : Plain (ascii "8080") ∧ Plain (ascii "localhost") := by
    unfold Plain
    decide +kernel
  intro key value found
  rw [last, OrderedMap.get?_cons, OrderedMap.get?_cons, OrderedMap.get?_cons] at found
  by_cases port : ascii "PORT" = key
  · rw [if_pos port] at found
    cases found
    exact plain.1
  · rw [if_neg port, if_neg port] at found
    split at found
    · cases found
      exact plain.2
    · cases found

theorem loadsExactly_host : @LoadsExactly Nat digitReals [] hostFile :=
  (@loadsExactly_iff Nat digitReals digitReals_tokens [] List.nodup_nil hostFile (by decide +kernel) fitting_host).mpr
    lastPlain_host

theorem not_loadsExactly_wrapped : ¬ @LoadsExactly Nat digitReals [] wrappedPort := by
  intro same
  have stored : @loadEnv Nat digitReals (.object []) (some wrappedPort) = (.ok (), .object [(ascii "PORT", .int 80)]) := rfl
  have written : @setAll Nat (fun value => @denotes Nat digitReals (stripQuotes value)) [] (settings wrappedPort) =
      [(ascii "PORT", .real 4294967376)] := rfl
  unfold LoadsExactly at same
  rw [stored, written] at same
  cases same

end BlueBird.EnvFile
