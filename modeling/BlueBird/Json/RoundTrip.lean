import BlueBird.Json.Acceptance
import BlueBird.Json.Printing
import Mathlib.Data.List.TakeWhile
import Mathlib.Data.Nat.Digits.Lemmas

/-! What is printed for a value is a text of the grammar for it. -/

namespace BlueBird.Json

variable {R : Type}

/-- Trees without reals, with their texts set, and containers at most `levels` deep. -/
inductive Printable : (levels : Nat) → Json R → Prop
  | null {n} : Printable n null
  | bool {n} (value : Bool) : Printable n (bool value)
  | int {n} (value : Int32) : Printable n (int value)
  | text {n s} : (0 : Byte) ∉ s → Printable n (text (some s))
  | array {n items} : (∀ item ∈ items, Printable n item) → Printable (n + 1) (array items)
  | object {n entries} : OrderedMap.Distinct entries → (∀ entry ∈ entries, (0 : Byte) ∉ entry.1) →
      (∀ entry ∈ entries, Printable n entry.2) → Printable (n + 1) (object entries)

/-! ## Strings -/

theorem hexUnit_control : ∀ k : Fin 32,
    (ascii "00" ++ [hexDigit (k.val >>> 4), hexDigit (k.val &&& 0x0F)]).map hexCharToInt =
      [some 0, some 0, some (k.val / 16), some (k.val % 16)] := by
  decide

theorem utf8_control : ∀ k : Fin 32, String.utf8EncodeChar (Char.ofNat k.val) = [UInt8.ofNat k.val] ∧
    (Char.ofNat k.val).toNat = k.val := by
  decide

theorem escapeByte_control {c : Byte} {raw text : Bytes} (control : c < 0x20) (nonzero : c ≠ 0)
    (chars : Chars raw text) :
    Chars (ascii "\\u00" ++ [hexDigit (c.toNat >>> 4), hexDigit (c.toNat &&& 0x0F)] ++ raw) (c :: text) := by
  have small : c.toNat < 32 := UInt8.lt_iff_toNat_lt.mp control
  have digits := hexUnit_control ⟨c.toNat, small⟩
  have utf8 := utf8_control ⟨c.toNat, small⟩
  have unit : HexUnit (ascii "00" ++ [hexDigit (c.toNat >>> 4), hexDigit (c.toNat &&& 0x0F)])
      (Char.ofNat c.toNat).toNat := by
    refine ⟨0, 0, c.toNat / 16, c.toNat % 16, digits, ?_⟩
    rw [utf8.2]
    show c.toNat = _
    omega
  have some_ : (Char.ofNat c.toNat).toNat ≠ 0 := by
    rw [utf8.2]
    intro zero
    exact nonzero (UInt8.toNat_inj.mp zero)
  have scalar := Chars.scalar unit some_ chars
  rw [utf8.1, UInt8.ofNat_toNat, List.singleton_append, List.append_assoc] at scalar
  rw [List.append_assoc]
  exact scalar

theorem escapeByte_chars {c : Byte} {raw text : Bytes} (nonzero : c ≠ 0) (chars : Chars raw text) :
    Chars (escapeByte c ++ raw) (c :: text) := by
  unfold escapeByte
  by_cases backslash : c = ch '\\'
  · rw [if_pos backslash, backslash]
    exact .escape (by decide) chars
  rw [if_neg backslash]
  by_cases quote : c = ch '"'
  · rw [if_pos quote, quote]
    exact .escape (by decide) chars
  rw [if_neg quote]
  by_cases newline : c = 10
  · rw [if_pos newline, newline]
    exact .escape (by decide) chars
  rw [if_neg newline]
  by_cases tab : c = 9
  · rw [if_pos tab, tab]
    exact .escape (by decide) chars
  rw [if_neg tab]
  by_cases feed : c = 13
  · rw [if_pos feed, feed]
    exact .escape (by decide) chars
  rw [if_neg feed]
  by_cases back : c = 8
  · rw [if_pos back, back]
    exact .escape (by decide) chars
  rw [if_neg back]
  by_cases form : c = 12
  · rw [if_pos form, form]
    exact .escape (by decide) chars
  rw [if_neg form]
  by_cases control : c < 0x20
  · rw [if_pos control]
    exact escapeByte_control control nonzero chars
  · rw [if_neg control]
    exact .plain (UInt8.not_lt.mp control) quote backslash chars

theorem escapeString_chars {s : Bytes} (clean : (0 : Byte) ∉ s) : Chars (escapeString s) s := by
  induction s with
  | nil => exact .nil
  | cons c s ih =>
    rw [List.mem_cons, not_or] at clean
    exact escapeByte_chars (fun zero => clean.1 zero.symm) (ih clean.2)

/-! ## Integers -/

def digitsText (n : Nat) : Bytes := (Nat.digits 10 n).reverse.map fun digit => UInt8.ofNat (48 + digit)

theorem digit_byte : ∀ d : Fin 10, isDigit (UInt8.ofNat (48 + d.val)) = true ∧
    digitValue (UInt8.ofNat (48 + d.val)) = d.val ∧ (UInt8.ofNat (48 + d.val) = ch '0' → d.val = 0) := by
  decide

theorem digit_of_digits {n d : Nat} (member : d ∈ Nat.digits 10 n) : isDigit (UInt8.ofNat (48 + d)) = true ∧
    digitValue (UInt8.ofNat (48 + d)) = d ∧ (UInt8.ofNat (48 + d) = ch '0' → d = 0) :=
  digit_byte ⟨d, Nat.digits_lt_base (by decide) member⟩

theorem digitsText_value (n : Nat) : Nat.ofDigits 10 ((digitsText n).map digitValue).reverse = n := by
  have values : (digitsText n).map digitValue = (Nat.digits 10 n).reverse := by
    unfold digitsText
    rw [List.map_map]
    calc
      _ = (Nat.digits 10 n).reverse.map id := by
        apply List.map_congr_left
        intro d member
        exact (digit_of_digits (List.mem_reverse.mp member)).2.1
      _ = _ := List.map_id _
  rw [values, List.reverse_reverse, Nat.ofDigits_digits]

theorem digitsText_whole {n : Nat} (nonzero : n ≠ 0) : Whole (digitsText n) := by
  have some_ : Nat.digits 10 n ≠ [] := Nat.digits_ne_nil_iff_ne_zero.mpr nonzero
  refine .inr ⟨⟨?_, ?_⟩, ?_⟩
  · simpa [digitsText] using some_
  · intro c member
    rcases List.mem_map.mp member with ⟨d, digit, rfl⟩
    exact (digit_of_digits (List.mem_reverse.mp digit)).1
  · have last := Nat.getLast_digit_ne_zero 10 nonzero
    rw [digitsText, List.head?_map, List.head?_reverse, List.getLast?_eq_some_getLast some_, Option.map_some]
    intro zero
    exact last ((digit_of_digits (List.getLast_mem some_)).2.2 (Option.some_inj.mp zero))

variable [Reals R]

theorem formatInt_denotes (n : Nat) (value : Int32) : Denotes (R := R) n (formatInt value.toInt) (.value (int value)) := by
  have least : -2^31 ≤ value.toInt := value.le_toInt
  have greatest : value.toInt < 2^31 := value.toInt_lt
  have denotes : ∀ minus whole, Minus minus → Whole whole → integerValue minus whole = value.toInt →
      Denotes (R := R) n (minus ++ whole) (.value (int value)) := by
    intro minus whole hm hw same
    have int := Denotes.int (R := R) (n := n) hm hw (same ▸ least) (same ▸ greatest)
    rwa [same, Int32.ofInt_toInt] at int
  unfold formatInt
  apply denotes
  · by_cases negative : value.toInt < 0
    · rw [if_pos negative]
      exact .inr rfl
    · rw [if_neg negative]
      exact .inl rfl
  · by_cases zero : value.toInt = 0
    · rw [if_pos zero]
      exact .inl rfl
    · rw [if_neg zero]
      exact digitsText_whole (Int.natAbs_ne_zero.mpr zero)
  · by_cases zero : value.toInt = 0
    · rw [zero]
      rfl
    · rw [if_neg zero]
      show integerValue _ (digitsText value.toInt.natAbs) = _
      unfold integerValue
      rw [digitsText_value]
      by_cases negative : value.toInt < 0
      · rw [if_pos negative, if_neg (by decide)]
        omega
      · rw [if_neg negative, if_pos rfl]
        omega

/-! ## Containers -/

theorem white_byte {c : Byte} (white : whiteSpace c = true) : White [c] := by
  intro d member
  rw [List.mem_singleton] at member
  rw [member]
  exact white

theorem separator : ascii ", " = ch ',' :: [ch ' '] := rfl

theorem brackets : ascii "[" = [ch '['] ∧ ascii "]" = [ch ']'] := ⟨rfl, rfl⟩

theorem braces : ascii "\x7b" = [ch '{'] ∧ ascii "\x7d" = [ch '}'] := ⟨rfl, rfl⟩

theorem newline_white (indent : Option Nat) : White (newline id indent).flatten := by
  cases indent with
  | none => exact White.nil
  | some _ => exact white_byte (c := ch '\n') rfl

theorem tabs_white (indent : Option Nat) : White (tabs id indent).flatten := by
  cases indent with
  | none => exact White.nil
  | some depth =>
    induction depth with
    | zero => exact White.nil
    | succ depth ih => exact (white_byte (c := ch '\t') rfl).append ih

theorem items_denote {n : Nat} {items : List (Json R)} (some_ : items ≠ [])
    (values : ∀ item ∈ items, ∀ indent, Denotes n (render item indent) (.value item)) (indent : Option Nat) {after : Bytes}
    (white : White after) :
    Denotes n ((itemLayout id indent (renderItems items (deeper indent))).flatten ++ after) (.items items) := by
  induction items with
  | nil => exact absurd rfl some_
  | cons item items ih =>
    have value := values item (List.mem_cons_self ..) (deeper indent)
    have others := fun other member => values other (List.mem_cons_of_mem _ member)
    have before := tabs_white (deeper indent)
    have behind := newline_white indent
    cases items with
    | nil =>
      have last := Denotes.lastItem (Denotes.item before value (behind.append white))
      simpa [renderItems, itemLayout] using last
    | cons second items =>
      have gap := (white_byte (c := ch ' ') rfl).append behind
      have rest := (ih (by simp) others).white_items gap
      have more := Denotes.moreItems (Denotes.item before value White.nil) rest
      simpa [renderItems, itemLayout, separator] using more

theorem array_denotes {n : Nat} {items : List (Json R)}
    (values : ∀ item ∈ items, ∀ indent, Denotes n (render item indent) (.value item)) (indent : Option Nat) :
    Denotes (n + 1) (render (array items) indent) (.value (array items)) := by
  rw [render]
  generalize arrayIndent indent items = indent
  have front := newline_white indent
  have back := tabs_white indent
  by_cases none : items = []
  · have empty := Denotes.noItems (R := R) (n := n) (front.append back)
    simpa [none, renderItems, arrayLayout, itemLayout, brackets] using empty
  · have whole := Denotes.array ((items_denote none values indent back).white_items front)
    simpa [arrayLayout, brackets] using whole

theorem member_denotes {n : Nat} {key before text : Bytes} {v : Json R} (clean : (0 : Byte) ∉ key) (white : White before)
    (value : Denotes n text (.item v)) : Denotes n (before ++ (keyText key ++ text)) (.member (key, v)) := by
  have item := value.white_item (white_byte (c := ch ' ') rfl)
  have member := Denotes.member white (escapeString_chars clean) White.nil item
  simpa [keyText, quoted, cString_of_clean clean, show ascii ": " = [ch ':', ch ' '] from rfl] using member

theorem members_denote {n : Nat} {entries : List (Bytes × Json R)} (some_ : entries ≠ [])
    (keys : ∀ entry ∈ entries, (0 : Byte) ∉ entry.1)
    (values : ∀ entry ∈ entries, ∀ indent, Denotes n (render entry.2 indent) (.value entry.2)) (indent : Option Nat)
    {after : Bytes} (white : White after) :
    Denotes n ((entryLayout id keyText indent true (renderEntries entries (deeper indent))).flatten ++ after)
      (.members entries) := by
  induction entries with
  | nil => exact absurd rfl some_
  | cons entry entries ih =>
    have value := values entry (List.mem_cons_self ..) (deeper indent)
    have clean := keys entry (List.mem_cons_self ..)
    have others := fun other member => values other (List.mem_cons_of_mem _ member)
    have otherKeys := fun other member => keys other (List.mem_cons_of_mem _ member)
    have before := (newline_white indent).append (tabs_white (deeper indent))
    cases entries with
    | nil =>
      have last := Denotes.lastMember (member_denotes clean before (Denotes.item White.nil value white))
      simpa [renderEntries, entryLayout] using last
    | cons second entries =>
      have gap := white_byte (c := ch ' ') rfl
      have rest := (ih (by simp) otherKeys others).white_members gap
      have more := Denotes.moreMembers (member_denotes clean before (Denotes.item White.nil value White.nil)) rest
      simpa [renderEntries, entryLayout, separator] using more

theorem object_denotes {n : Nat} {entries : List (Bytes × Json R)} (distinct : OrderedMap.Distinct entries)
    (keys : ∀ entry ∈ entries, (0 : Byte) ∉ entry.1)
    (values : ∀ entry ∈ entries, ∀ indent, Denotes n (render entry.2 indent) (.value entry.2)) (indent : Option Nat) :
    Denotes (n + 1) (render (object entries) indent) (.value (object entries)) := by
  rw [render]
  have back := (newline_white indent).append (tabs_white indent)
  by_cases none : entries = []
  · have empty := Denotes.noMembers (R := R) (n := n) back
    simpa [none, renderEntries, objectLayout, entryLayout, braces] using empty
  · have whole := Denotes.object (members_denote none keys values indent back)
    rw [← OrderedMap.foldl_set_eq_collapse, OrderedMap.foldl_set_of_distinct [] entries distinct] at whole
    simpa [objectLayout, braces] using whole

theorem Printable.denotes {n : Nat} {v : Json R} (printable : Printable n v) :
    ∀ indent, Denotes n (render v indent) (.value v) := by
  induction printable with
  | null =>
    intro _
    rw [render]
    exact .nullWord
  | bool value =>
    intro _
    rw [render]
    cases value with
    | false => exact .falseWord
    | true => exact .trueWord
  | @int n value =>
    intro _
    rw [render]
    exact formatInt_denotes n value
  | text clean =>
    intro _
    rw [render]
    exact .text (escapeString_chars clean)
  | array _ ih => exact array_denotes ih
  | object distinct keys _ ih => exact object_denotes distinct keys ih

/-! ## Equality -/

theorem equalItems_self {items : List (Json R)} (same : ∀ item ∈ items, equal item item = true) :
    equalItems items items = true := by
  induction items with
  | nil => rfl
  | cons item items ih =>
    rw [equalItems, same item (List.mem_cons_self ..), ih fun other member => same other (List.mem_cons_of_mem _ member)]
    rfl

theorem equalEntries_self {entries others : List (Bytes × Json R)} (distinct : OrderedMap.Distinct others)
    (subset : ∀ entry ∈ entries, entry ∈ others) (same : ∀ entry ∈ entries, equal entry.2 entry.2 = true) :
    equalEntries entries others = true := by
  induction entries with
  | nil => rw [equalEntries]
  | cons entry entries ih =>
    have found : objectGetValue others entry.1 = some entry.2 :=
      OrderedMap.get?_eq_some_of_mem distinct (subset entry (List.mem_cons_self ..))
    have rest := ih (fun other member => subset other (List.mem_cons_of_mem _ member))
      (fun other member => same other (List.mem_cons_of_mem _ member))
    rw [equalEntries, found, rest]
    simpa using same entry (List.mem_cons_self ..)

theorem Printable.equal_self {n : Nat} {v : Json R} (printable : Printable n v) : equal v v = true := by
  induction printable with
  | null => rw [equal]
  | bool _ => simp [equal]
  | int _ => simp [equal]
  | text _ => simp [equal]
  | array _ ih => simp [equal, equalItems_self ih]
  | object distinct _ _ ih => simp [equal, equalEntries_self distinct (fun _ member => member) ih]

/-! ## There and back -/

theorem Printable.reads_back (numbers : ReadsNumbers R) (malloc : Nat → Bytes) (indent : Option Nat) {v : Json R}
    (printable : Printable maxDepth v) (small : (render v indent).length + 1 < 2^31) :
    ∃ buffer, serialize malloc indent v = .ok buffer ∧ parse buffer = .ok v := by
  have text : IsText (render v indent) v := by
    have item := Denotes.item White.nil (printable.denotes indent) White.nil
    rwa [List.append_nil] at item
  exact ⟨_, serialize_eq_render malloc indent v small, text.parse_eq numbers _⟩

/-- A tree is read back from its text as it was, the entries of its objects in their order. -/
theorem parse_serialize (numbers : ReadsNumbers R) (malloc : Nat → Bytes) (indent : Option Nat) {v : Json R}
    (printable : Printable maxDepth v) (small : (render v indent).length + 1 < 2^31) :
    ∃ buffer, serialize malloc indent v = .ok buffer ∧ parse buffer = .ok v ∧ equal v v = true := by
  rcases printable.reads_back numbers malloc indent small with ⟨buffer, written, read⟩
  exact ⟨buffer, written, read, printable.equal_self⟩

theorem quoted_letters (count : Nat) : (quoted (List.replicate count (ch 'a'))).length = count + 2 := by
  have escaped : escapeString (List.replicate count (ch 'a')) = (List.replicate count [ch 'a']).flatten :=
    List.flatMap_replicate
  rw [quoted_length, escaped]
  simp

omit [Reals R] in
theorem toInt_large {n : Int} (least : 2^31 ≤ n) (greatest : n < 2^32) : toInt n < 0 := by
  unfold toInt
  rw [Int.bmod_def, Int.emod_eq_of_lt (by omega) (by omega), if_neg (by omega)]
  omega

theorem serialize_long {t : Bytes} (least : 2^31 ≤ (quoted t).length) (greatest : (quoted t).length < 2^32)
    (malloc : Nat → Bytes) (indent : Option Nat) :
    serialize (R := R) malloc indent (text (some t)) = .error .nothing := by
  have negative : toInt ((quoted t).length : Int) < 0 := toInt_large (by omega) (by omega)
  have measured : (serializeJson (R := R) (text (some t)) indent ⟨none, 0⟩).2 = toInt ((quoted t).length : Int) := by
    rw [serializeJson, serializeText, fits, Option.getD_some]
  rw [← measured] at negative
  unfold serialize
  rw [if_pos negative]

/-- A text of 2^31 letters has a length that is no `int`. -/
theorem serialize_not_ok : ¬ ∀ v : Json Rat, Printable maxDepth v → ∀ malloc,
    ∃ buffer, @serialize Rat halves malloc none v = .ok buffer ∧
      ∃ parsed, @parse Rat halves buffer = .ok parsed ∧ @equal Rat halves v parsed = true := by
  intro all
  have some_ : ∃ count, count = 2^31 := ⟨_, rfl⟩
  rcases some_ with ⟨count, isCount⟩
  have clean : (0 : Byte) ∉ List.replicate count (ch 'a') := by
    intro member
    exact absurd (List.eq_of_mem_replicate member) (by decide)
  have length := quoted_letters count
  rcases all (text (some (List.replicate count (ch 'a')))) (.text clean) (fun _ => []) with ⟨buffer, written, _⟩
  rw [@serialize_long Rat halves _ (by omega) (by omega)] at written
  cases written

theorem parse_serialize_tree : ∃ buffer,
    @serialize Rat halves (fun _ => []) (some 0) (object [(ascii "a\n", array [int (-2147483648)])]) = .ok buffer ∧
      @parse Rat halves buffer = .ok (object [(ascii "a\n", array [int (-2147483648)])]) ∧
      @equal Rat halves (object [(ascii "a\n", array [int (-2147483648)])])
        (object [(ascii "a\n", array [int (-2147483648)])]) = true := by
  apply @parse_serialize Rat halves (fun _ _ _ _ _ _ _ _ => rfl)
  · apply Printable.object
    · exact List.nodup_singleton _
    · decide
    · simp only [List.mem_singleton, forall_eq]
      apply Printable.array
      simp only [List.mem_singleton, forall_eq]
      exact .int _
  · decide

end BlueBird.Json
