import BlueBird.Http.Confinement
import BlueBird.Http.RoundTrip

namespace BlueBird.Http

open ServerRequest
open Message (crlf)

/-! ## What the two scans of a target let pass -/

/-- A text of plain bytes that pass one check and escapes for octets that pass another. -/
inductive Scans (byte : Byte → Prop) (octet : Nat → Prop) : Bytes → Prop where
  | nil : Scans byte octet []
  | plain {c : Byte} {rest : Bytes} : c ≠ ch '%' → byte c → Scans byte octet rest → Scans byte octet (c :: rest)
  | escape {hi lo : Byte} {n : Nat} {tail : Bytes} : percentOctet [hi, lo] = some n → octet n → Scans byte octet tail →
      Scans byte octet (ch '%' :: hi :: lo :: tail)

section
variable {byte : Byte → Prop} {octet : Nat → Prop}

theorem scans_plain {c : Byte} (other : c ≠ ch '%') (rest : Bytes) :
    Scans byte octet (c :: rest) ↔ byte c ∧ Scans byte octet rest := by
  constructor
  · intro scans
    cases scans with
    | plain _ passes later => exact ⟨passes, later⟩
    | escape => exact absurd rfl other
  · intro ⟨passes, later⟩
    exact .plain other passes later

theorem scans_escape {hi lo : Byte} {n : Nat} (digits : percentOctet [hi, lo] = some n) (tail : Bytes) :
    Scans byte octet (ch '%' :: hi :: lo :: tail) ↔ octet n ∧ Scans byte octet tail := by
  constructor
  · intro scans
    cases scans with
    | plain differs => exact absurd rfl differs
    | escape found passes later =>
      rw [Option.some.inj (digits.symm.trans found)]
      exact ⟨passes, later⟩
  · intro ⟨passes, later⟩
    exact .escape digits passes later

theorem not_scans_malformed {rest : Bytes} (digits : percentOctet rest = none) : ¬ Scans byte octet (ch '%' :: rest) := by
  intro scans
  cases scans with
  | plain differs => exact absurd rfl differs
  | @escape hi lo n tail found =>
    have some_ : percentOctet (hi :: lo :: tail) = some n := found
    rw [digits] at some_
    cases some_

theorem Scans.append {front : Bytes} (first : Scans byte octet front) (back : Bytes) :
    Scans byte octet (front ++ back) ↔ Scans byte octet back := by
  induction first with
  | nil => exact Iff.rfl
  | plain other passes _ ih =>
    rw [List.cons_append, scans_plain other, ih]
    exact ⟨And.right, And.intro passes⟩
  | escape digits passes _ ih =>
    rw [List.cons_append, List.cons_append, List.cons_append, scans_escape digits, ih]
    exact ⟨And.right, And.intro passes⟩

end

def TargetByte (c : Byte) : Prop := c ≠ ch '#' ∧ c ≠ ch '\\'

def TargetOctet (n : Nat) : Prop := ¬ (n < 0x20 ∨ n = 0x7F ∨ n = (ch '/').toNat ∨ n = (ch '\\').toNat)

def QueryByte (c : Byte) : Prop := ¬ (c < 0x20 ∨ c = 0x7F ∨ c = ch '\\')

def QueryOctet (n : Nat) : Prop := ¬ (n < 0x20 ∨ n = 0x7F)

instance : DecidablePred TargetByte := fun c => inferInstanceAs (Decidable (c ≠ ch '#' ∧ c ≠ ch '\\'))
instance : DecidablePred TargetOctet := fun n =>
  inferInstanceAs (Decidable (¬ (n < 0x20 ∨ n = 0x7F ∨ n = (ch '/').toNat ∨ n = (ch '\\').toNat)))
instance : DecidablePred QueryByte := fun c => inferInstanceAs (Decidable (¬ (c < 0x20 ∨ c = 0x7F ∨ c = ch '\\')))
instance : DecidablePred QueryOctet := fun n => inferInstanceAs (Decidable (¬ (n < 0x20 ∨ n = 0x7F)))

theorem percentOctet_some {rest : Bytes} {n : Nat} (digits : percentOctet rest = some n) :
    ∃ hi lo tail, rest = hi :: lo :: tail ∧ percentOctet [hi, lo] = some n := by
  rcases rest with _ | ⟨hi, _ | ⟨lo, tail⟩⟩
  · cases digits
  · cases digits
  · exact ⟨hi, lo, tail, rfl, digits⟩

theorem scanTarget_ok {fuel : Nat} {text : Bytes} (enough : text.length ≤ fuel) :
    scanTarget fuel text = .ok () ↔ Scans TargetByte TargetOctet text := by
  induction fuel generalizing text with
  | zero =>
    rw [List.length_eq_zero_iff.mp (Nat.le_zero.mp enough)]
    exact ⟨fun _ => .nil, fun _ => rfl⟩
  | succ fuel ih =>
    rcases text with _ | ⟨c, rest⟩
    · exact ⟨fun _ => .nil, fun _ => rfl⟩
    rw [List.length_cons] at enough
    rw [scanTarget]
    by_cases percent : c = ch '%'
    · rw [if_neg (by rw [percent]; decide), if_neg (by rw [percent]; decide), if_pos percent, percent]
      cases digits : percentOctet rest with
      | none => exact ⟨fun scanned => (by cases scanned), fun scans => absurd scans (not_scans_malformed digits)⟩
      | some n =>
        rcases percentOctet_some digits with ⟨hi, lo, tail, rfl, found⟩
        rw [List.length_cons, List.length_cons] at enough
        rw [scans_escape found, ← ih (show tail.length ≤ fuel by omega)]
        unfold TargetOctet
        dsimp only
        split
        · rename_i bad
          exact ⟨fun scanned => (by cases scanned), fun both => absurd bad both.1⟩
        · rename_i good
          exact ⟨And.intro good, And.right⟩
    · rw [scans_plain percent, ← ih (show rest.length ≤ fuel by omega), if_neg percent]
      unfold TargetByte
      split
      · rename_i hash
        exact ⟨fun scanned => (by cases scanned), fun both => absurd hash both.1.1⟩
      · rename_i other
        split
        · rename_i back
          exact ⟨fun scanned => (by cases scanned), fun both => absurd back both.1.2⟩
        · rename_i straight
          exact ⟨And.intro ⟨other, straight⟩, And.right⟩

theorem scanQuery_ok {fuel : Nat} {text : Bytes} (enough : text.length ≤ fuel) :
    scanQuery fuel text = .ok () ↔ Scans QueryByte QueryOctet text := by
  induction fuel generalizing text with
  | zero =>
    rw [List.length_eq_zero_iff.mp (Nat.le_zero.mp enough)]
    exact ⟨fun _ => .nil, fun _ => rfl⟩
  | succ fuel ih =>
    rcases text with _ | ⟨c, rest⟩
    · exact ⟨fun _ => .nil, fun _ => rfl⟩
    rw [List.length_cons] at enough
    rw [scanQuery]
    by_cases percent : c = ch '%'
    · rw [if_pos percent, percent]
      cases digits : percentOctet rest with
      | none => exact ⟨fun scanned => (by cases scanned), fun scans => absurd scans (not_scans_malformed digits)⟩
      | some n =>
        rcases percentOctet_some digits with ⟨hi, lo, tail, rfl, found⟩
        rw [List.length_cons, List.length_cons] at enough
        rw [scans_escape found, ← ih (show tail.length ≤ fuel by omega)]
        unfold QueryOctet
        dsimp only
        split
        · rename_i bad
          exact ⟨fun scanned => (by cases scanned), fun both => absurd bad both.1⟩
        · rename_i good
          exact ⟨And.intro good, And.right⟩
    · rw [scans_plain percent, ← ih (show rest.length ≤ fuel by omega), if_neg percent]
      unfold QueryByte
      split
      · rename_i bad
        exact ⟨fun scanned => (by cases scanned), fun both => absurd bad both.1⟩
      · rename_i good
        exact ⟨And.intro good, And.right⟩

/-! ## Encoded text -/

def isUnreserved (c : Byte) : Bool :=
  isDigit c || (ch 'a' ≤ c && c ≤ ch 'z') || (ch 'A' ≤ c && c ≤ ch 'Z') || (ascii "-._~").contains c

/-- How a text may be written in a query: unreserved bytes as they are, all others as escapes with digits in any case,
    and a space as a plus too. -/
inductive Encodes : Bytes → Bytes → Prop where
  | nil : Encodes [] []
  | plain {c : Byte} {text enc : Bytes} : isUnreserved c = true → Encodes text enc → Encodes (c :: text) (c :: enc)
  | escape {c hi lo : Byte} {text enc : Bytes} : isUnreserved c = false → percentOctet [hi, lo] = some c.toNat → Encodes text enc →
      Encodes (c :: text) (ch '%' :: hi :: lo :: enc)
  | space {text enc : Bytes} : Encodes text enc → Encodes (ch ' ' :: text) (ch '+' :: enc)

def isControl (c : Byte) : Bool := c < 0x20 || c == 0x7F

def isQueryByte (c : Byte) : Bool := isUnreserved c || c == ch '%' || c == ch '+'

theorem unreserved_spec {c : Byte} (free : isUnreserved c = true) :
    c ≠ ch '%' ∧ c ≠ ch '+' ∧ TargetByte c ∧ QueryByte c ∧ isControl c = false := by
  unfold TargetByte QueryByte
  exact @forall_byte (fun c => isUnreserved c = true → c ≠ ch '%' ∧ c ≠ ch '+' ∧ (c ≠ ch '#' ∧ c ≠ ch '\\') ∧
    ¬ (c < 0x20 ∨ c = 0x7F ∨ c = ch '\\') ∧ isControl c = false) (by decide +kernel) c free

theorem hexValue_unreserved {c : Byte} {n : Nat} (digit : hexValue c = some n) : isUnreserved c = true := by
  have digits : (hexValue c).isSome = true := by rw [digit]; rfl
  exact @forall_byte (fun c => (hexValue c).isSome = true → isUnreserved c = true) (by decide +kernel) c digits

theorem percentOctet_unreserved {hi lo : Byte} {n : Nat} (digits : percentOctet [hi, lo] = some n) :
    isUnreserved hi = true ∧ isUnreserved lo = true := by
  rw [percentOctet_eq] at digits
  rcases Option.bind_eq_some_iff.mp digits with ⟨_, high, rest⟩
  rcases Option.bind_eq_some_iff.mp rest with ⟨_, low, _⟩
  exact ⟨hexValue_unreserved high, hexValue_unreserved low⟩

theorem Encodes.bytes {text enc : Bytes} (encodes : Encodes text enc) : ∀ c ∈ enc, isQueryByte c = true := by
  have free : ∀ {c : Byte}, isUnreserved c = true → isQueryByte c = true := by
    intro c plain
    unfold isQueryByte
    rw [plain]
    rfl
  induction encodes with
  | nil => exact fun c member => by cases member
  | plain unreserved _ ih => exact List.forall_mem_cons.mpr ⟨free unreserved, ih⟩
  | escape _ digits _ ih =>
    rcases percentOctet_unreserved digits with ⟨high, low⟩
    exact List.forall_mem_cons.mpr ⟨by decide, List.forall_mem_cons.mpr ⟨free high, List.forall_mem_cons.mpr ⟨free low, ih⟩⟩⟩
  | space _ ih => exact List.forall_mem_cons.mpr ⟨by decide, ih⟩

theorem Encodes.length_le {text enc : Bytes} (encodes : Encodes text enc) : text.length ≤ enc.length := by
  induction encodes with
  | nil => exact Nat.le_refl _
  | plain _ _ ih => exact Nat.succ_le_succ ih
  | escape _ _ _ ih =>
    simp only [List.length_cons]
    omega
  | space _ ih => exact Nat.succ_le_succ ih

theorem Encodes.scans {byte : Byte → Prop} {octet : Nat → Prop} {text enc : Bytes} (encodes : Encodes text enc)
    (free : ∀ c, isUnreserved c = true → byte c ∧ octet c.toNat) (plus : byte (ch '+')) (blank : octet (ch ' ').toNat) (rest : Bytes) :
    Scans byte octet (enc ++ rest) ↔ (∀ c ∈ text, octet c.toNat) ∧ Scans byte octet rest := by
  induction encodes with
  | nil => simp
  | plain unreserved _ ih =>
    rw [List.cons_append, scans_plain (unreserved_spec unreserved).1, ih, List.forall_mem_cons, and_assoc]
    exact and_congr_left' ⟨fun _ => (free _ unreserved).2, fun _ => (free _ unreserved).1⟩
  | escape _ digits _ ih =>
    rw [List.cons_append, List.cons_append, List.cons_append, scans_escape digits, ih, List.forall_mem_cons, and_assoc]
  | space _ ih =>
    rw [List.cons_append, scans_plain (by decide), ih, List.forall_mem_cons, and_assoc]
    exact and_congr_left' ⟨fun _ => blank, fun _ => plus⟩

theorem storeQueryByte_clean {c : Byte} (clean : isControl c = false) {out : Bytes} {room : Nat} (fits : out.length + 1 < room) :
    storeQueryByte out room c = some (out ++ [c]) := by
  have passes : ¬ (c < 0x20 ∨ c = 0x7F) := by
    unfold isControl at clean
    simpa using clean
  unfold storeQueryByte
  rw [if_neg passes, if_neg (by omega)]

theorem decodeQueryComponent_plain {c : Byte} (other : c ≠ ch '%') {room : Nat} {out rest : Bytes} :
    decodeQueryComponent room out (c :: rest) =
      (storeQueryByte out room (if c = ch '+' then ch ' ' else c)).bind fun out => decodeQueryComponent room out rest := by
  rcases rest with _ | ⟨hi, _ | ⟨lo, tail⟩⟩ <;> exact if_neg other

theorem Encodes.decodes {room : Nat} {text enc : Bytes} (encodes : Encodes text enc) (out : Bytes)
    (clean : ∀ c ∈ text, isControl c = false) (fits : out.length + text.length < room) :
    decodeQueryComponent room out enc = some (out ++ text) := by
  induction encodes generalizing out with
  | nil => rw [decodeQueryComponent, List.append_nil]
  | @plain c text enc unreserved _ ih =>
    rcases List.forall_mem_cons.mp clean with ⟨first, rest⟩
    rcases unreserved_spec unreserved with ⟨percent, plus, _⟩
    rw [List.length_cons] at fits
    rw [decodeQueryComponent_plain percent, if_neg plus, storeQueryByte_clean first (by omega), Option.bind_some,
      ih (out ++ [c]) rest (by rw [List.length_append, List.length_singleton]; omega), List.append_assoc]
    rfl
  | @escape c hi lo text enc _ digits _ ih =>
    rcases List.forall_mem_cons.mp clean with ⟨first, rest⟩
    rw [List.length_cons] at fits
    rw [decodeQueryComponent, if_pos rfl, digits, Option.bind_some, UInt8.ofNat_toNat, storeQueryByte_clean first (by omega),
      Option.bind_some, ih (out ++ [c]) rest (by rw [List.length_append, List.length_singleton]; omega), List.append_assoc]
    rfl
  | @space text enc _ ih =>
    rcases List.forall_mem_cons.mp clean with ⟨first, rest⟩
    rw [List.length_cons] at fits
    rw [decodeQueryComponent_plain (by decide), if_pos rfl, storeQueryByte_clean first (by omega), Option.bind_some,
      ih (out ++ [ch ' ']) rest (by rw [List.length_append, List.length_singleton]; omega), List.append_assoc]
    rfl

/-! ## The pairs of a query -/

structure EncodedPair (pair enc : Bytes × Bytes) : Prop where
  named : pair.1 ≠ []
  cleanKey : ∀ c ∈ pair.1, isControl c = false
  cleanValue : ∀ c ∈ pair.2, isControl c = false
  separable : ch '=' ∉ pair.1 ∧ ch '&' ∉ pair.1
  key : Encodes pair.1 enc.1
  value : Encodes pair.2 enc.2
  keyRoom : enc.1.length < maxQueryParamKey
  valueRoom : enc.2.length < maxQueryParamValue

structure EncodedPairs (pairs encs : List (Bytes × Bytes)) : Prop where
  count : pairs.length ≤ maxQueryParams
  distinct : OrderedMap.Distinct pairs
  each : List.Forall₂ EncodedPair pairs encs

def pairText (enc : Bytes × Bytes) : Bytes := enc.1 ++ ch '=' :: enc.2

def queryText (encs : List (Bytes × Bytes)) : Bytes := [ch '&'].intercalate (encs.map pairText)

theorem queryText_cons (enc next : Bytes × Bytes) (encs : List (Bytes × Bytes)) :
    queryText (enc :: next :: encs) = pairText enc ++ ch '&' :: queryText (next :: encs) := by
  unfold queryText
  simp [List.intercalate]

theorem encoded_separators {text enc : Bytes} (encodes : Encodes text enc) : ch '=' ∉ enc ∧ ch '&' ∉ enc :=
  ⟨fun member => absurd (encodes.bytes _ member) (by decide), fun member => absurd (encodes.bytes _ member) (by decide)⟩

theorem addQueryPair_eq (query : List (Bytes × Bytes)) (pair : Bytes) :
    addQueryPair query pair =
      let key := pair.takeWhile (· ≠ ch '=')
      let value := pair.drop (key.length + 1)
      if pair.length = 0 ∨ query.length ≥ maxQueryParams ∨ key.length = 0 ∨ key.length ≥ maxQueryParamKey ∨
          value.length ≥ maxQueryParamValue then none
      else (decodeQueryComponent maxQueryParamKey [] key).bind fun key =>
        (decodeQueryComponent maxQueryParamValue [] value).bind fun value =>
          if ch '=' ∈ key ∨ ch '&' ∈ key then none else some (query ++ [(key, value)]) := by
  unfold addQueryPair
  dsimp only
  split
  · rfl
  · rfl

theorem addQueryPair_encoded {pair enc : Bytes × Bytes} (ok : EncodedPair pair enc) {query : List (Bytes × Bytes)}
    (few : query.length < maxQueryParams) : addQueryPair query (pairText enc) = some (query ++ [pair]) := by
  have key : (pairText enc).takeWhile (· ≠ ch '=') = enc.1 := by
    have all : ∀ c ∈ enc.1, decide (c ≠ ch '=') = true := by
      intro c member
      apply decide_eq_true
      rintro rfl
      exact (encoded_separators ok.key).1 member
    unfold pairText
    rw [List.takeWhile_append_of_pos all, List.takeWhile_cons_of_neg (by decide), List.append_nil]
  have value : (pairText enc).drop (enc.1.length + 1) = enc.2 := by
    unfold pairText
    rw [List.drop_append, List.drop_of_length_le (by omega)]
    have one : enc.1.length + 1 - enc.1.length = 1 := by omega
    rw [one]
    rfl
  have written : 0 < enc.1.length := Nat.lt_of_lt_of_le (List.length_pos_iff.mpr ok.named) ok.key.length_le
  have whole : (pairText enc).length = enc.1.length + (enc.2.length + 1) := by
    unfold pairText
    rw [List.length_append, List.length_cons]
  have shortKey := Nat.lt_of_le_of_lt ok.key.length_le ok.keyRoom
  have shortValue := Nat.lt_of_le_of_lt ok.value.length_le ok.valueRoom
  rw [addQueryPair_eq]
  dsimp only
  rw [key, value, if_neg (by rw [whole]; have := ok.keyRoom; have := ok.valueRoom; omega),
    ok.key.decodes [] ok.cleanKey (by simpa using shortKey), Option.bind_some,
    ok.value.decodes [] ok.cleanValue (by simpa using shortValue), Option.bind_some, List.nil_append, List.nil_append,
    if_neg (by simpa using ok.separable)]

theorem foldlM_addQueryPair {pairs encs : List (Bytes × Bytes)} (each : List.Forall₂ EncodedPair pairs encs)
    (stored : List (Bytes × Bytes)) (room : stored.length + pairs.length ≤ maxQueryParams) :
    (encs.map pairText).foldlM addQueryPair stored = some (stored ++ pairs) := by
  induction each generalizing stored with
  | nil => rw [List.append_nil]; rfl
  | @cons pair enc pairs encs ok _ ih =>
    rw [List.length_cons] at room
    rw [List.map_cons, List.foldlM_cons, addQueryPair_encoded ok (by omega)]
    show (encs.map pairText).foldlM addQueryPair (stored ++ [pair]) = _
    rw [ih (stored ++ [pair]) (by rw [List.length_append, List.length_singleton]; omega), List.append_assoc]
    rfl

theorem pairText_separated {pair enc : Bytes × Bytes} (ok : EncodedPair pair enc) : ch '&' ∉ pairText enc := by
  intro member
  rcases List.mem_append.mp member with key | rest
  · exact (encoded_separators ok.key).2 key
  · rcases List.mem_cons.mp rest with same | value
    · exact absurd same (by decide)
    · exact (encoded_separators ok.value).2 value

theorem pairTexts_separated {pairs encs : List (Bytes × Bytes)} (each : List.Forall₂ EncodedPair pairs encs) :
    ∀ text ∈ encs.map pairText, ch '&' ∉ text := by
  induction each with
  | nil => exact fun text member => by cases member
  | cons ok _ ih => exact List.forall_mem_cons.mpr ⟨pairText_separated ok, ih⟩

theorem queryText_single (enc : Bytes × Bytes) : queryText [enc] = pairText enc := by
  unfold queryText
  simp [List.intercalate]

theorem queryText_ne_nil (enc : Bytes × Bytes) (encs : List (Bytes × Bytes)) : queryText (enc :: encs) ≠ [] := by
  intro empty
  have written : ch '=' ∈ queryText (enc :: encs) := by
    have inside : ch '=' ∈ pairText enc := List.mem_append_right _ List.mem_cons_self
    cases encs with
    | nil => exact (queryText_single enc).symm ▸ inside
    | cons next encs => exact (queryText_cons enc next encs).symm ▸ List.mem_append_left _ inside
  rw [empty] at written
  cases written

theorem queryText_getLast? {pairs encs : List (Bytes × Bytes)} (each : List.Forall₂ EncodedPair pairs encs) :
    (queryText encs).getLast? ≠ some (ch '&') := by
  induction each with
  | nil => exact fun same => by cases same
  | @cons pair enc pairs encs ok rest ih =>
    cases encs with
    | nil =>
      intro same
      rw [queryText_single] at same
      exact pairText_separated ok (List.mem_of_getLast? same)
    | cons next more =>
      rw [queryText_cons, List.getLast?_append_of_ne_nil _ (List.cons_ne_nil _ _), List.getLast?_cons_of_ne_nil]
      · exact ih
      · exact queryText_ne_nil next more

theorem parseQueryParams_encoded {pairs encs : List (Bytes × Bytes)} (encoded : EncodedPairs pairs encs) :
    parseQueryParams (queryText encs) = some pairs := by
  have each := encoded.each
  cases encs with
  | nil =>
    cases each
    rfl
  | cons enc more =>
    have split : (queryText (enc :: more)).splitOn (ch '&') = (enc :: more).map pairText :=
      List.splitOn_intercalate _ (pairTexts_separated each) (List.cons_ne_nil _ _)
    unfold parseQueryParams
    rw [if_neg (fun empty => queryText_ne_nil enc more (List.length_eq_zero_iff.mp empty)), if_neg (queryText_getLast? each), split]
    exact foldlM_addQueryPair each [] (by simpa using encoded.count)

/-! ## The target -/

def SlashFree (pairs : List (Bytes × Bytes)) : Prop := ∀ pair ∈ pairs, ∀ c ∈ pair.1 ++ pair.2, c ≠ ch '/' ∧ c ≠ ch '\\'

theorem targetOctet_iff {c : Byte} (clean : isControl c = false) : TargetOctet c.toNat ↔ c ≠ ch '/' ∧ c ≠ ch '\\' := by
  unfold TargetOctet
  exact @forall_byte (fun c => isControl c = false →
    (¬ (c.toNat < 0x20 ∨ c.toNat = 0x7F ∨ c.toNat = (ch '/').toNat ∨ c.toNat = (ch '\\').toNat) ↔ c ≠ ch '/' ∧ c ≠ ch '\\'))
    (by decide +kernel) c clean

theorem queryOctet_clean {c : Byte} (clean : isControl c = false) : QueryOctet c.toNat := by
  unfold QueryOctet
  exact @forall_byte (fun c => isControl c = false → ¬ (c.toNat < 0x20 ∨ c.toNat = 0x7F)) (by decide +kernel) c clean

theorem unreserved_octets (c : Byte) (free : isUnreserved c = true) :
    (TargetByte c ∧ TargetOctet c.toNat) ∧ (QueryByte c ∧ QueryOctet c.toNat) := by
  rcases unreserved_spec free with ⟨_, _, target, query, clean⟩
  have slash : isUnreserved (ch '/') = false := by decide
  have other : c ≠ ch '/' := by
    rintro rfl
    rw [slash] at free
    cases free
  exact ⟨⟨target, (targetOctet_iff clean).mpr ⟨other, target.2⟩⟩, query, queryOctet_clean clean⟩

section
variable {byte : Byte → Prop} {octet : Nat → Prop} (free : ∀ c, isUnreserved c = true → byte c ∧ octet c.toNat)
  (plus : byte (ch '+')) (blank : octet (ch ' ').toNat) (equals : byte (ch '=')) (ampersand : byte (ch '&'))

include free plus blank equals in
theorem pairText_scans {pair enc : Bytes × Bytes} (ok : EncodedPair pair enc) (rest : Bytes) :
    Scans byte octet (pairText enc ++ rest) ↔ (∀ c ∈ pair.1 ++ pair.2, octet c.toNat) ∧ Scans byte octet rest := by
  unfold pairText
  rw [List.append_assoc, ok.key.scans free plus blank, List.cons_append, scans_plain (by decide), ok.value.scans free plus blank,
    List.forall_mem_append, and_assoc]
  exact and_congr_right' ⟨fun all => all.2, fun both => ⟨equals, both⟩⟩

include free plus blank equals ampersand in
theorem queryText_scans {pairs encs : List (Bytes × Bytes)} (each : List.Forall₂ EncodedPair pairs encs) :
    Scans byte octet (queryText encs) ↔ ∀ pair ∈ pairs, ∀ c ∈ pair.1 ++ pair.2, octet c.toNat := by
  induction each with
  | nil => exact ⟨fun _ pair member => (by cases member), fun _ => .nil⟩
  | @cons pair enc pairs encs ok rest ih =>
    rw [List.forall_mem_cons]
    cases encs with
    | nil =>
      cases rest
      rw [queryText_single, ← List.append_nil (pairText enc), pairText_scans free plus blank equals ok]
      exact ⟨fun both => ⟨both.1, fun pair member => (by cases member)⟩, fun both => ⟨both.1, .nil⟩⟩
    | cons next more =>
      rw [queryText_cons, pairText_scans free plus blank equals ok, scans_plain (by decide), ih]
      exact and_congr_right' ⟨And.right, And.intro ampersand⟩

end

theorem sanitizeRequestTarget_eq (target : Bytes) :
    sanitizeRequestTarget target =
      if target.length = 0 then .error "empty request-target"
      else if target = ascii "*" then .ok ()
      else if target.head? ≠ some (ch '/') then .error "request-target must use origin-form"
      else (scanTarget target.length target).bind fun _ =>
        ((((target.takeWhile (· ≠ ch '?')).drop 1).splitOn (ch '/')).forM checkSegment).bind fun _ =>
          scanQuery ((target.dropWhile (· ≠ ch '?')).drop 1).length ((target.dropWhile (· ≠ ch '?')).drop 1) := rfl

theorem sanitize_ok {target : Bytes} (origin : target.head? = some (ch '/')) :
    sanitizeRequestTarget target = .ok () ↔
      Scans TargetByte TargetOctet target ∧
      (((rawPath target).drop 1).splitOn (ch '/')).forM checkSegment = .ok () ∧
      Scans QueryByte QueryOctet ((target.dropWhile (· ≠ ch '?')).drop 1) := by
  have some_ : target.length ≠ 0 := by
    intro empty
    rw [List.length_eq_zero_iff.mp empty] at origin
    cases origin
  have star : target ≠ ascii "*" := by
    rintro rfl
    exact absurd origin (by decide)
  rw [sanitizeRequestTarget_eq, if_neg some_, if_neg star, if_neg (not_not_intro origin), Outcome.bind_eq_ok,
    ← scanTarget_ok (Nat.le_refl _), ← scanQuery_ok (Nat.le_refl _)]
  constructor
  · intro ⟨_, scanned, rest⟩
    rcases Outcome.bind_eq_ok.mp rest with ⟨_, segments, query⟩
    exact ⟨scanned, segments, query⟩
  · intro ⟨scanned, segments, query⟩
    exact ⟨(), scanned, Outcome.bind_eq_ok.mpr ⟨(), segments, query⟩⟩

theorem encodedPairs_clean {pairs encs : List (Bytes × Bytes)} (encoded : EncodedPairs pairs encs) :
    ∀ pair ∈ pairs, ∀ c ∈ pair.1 ++ pair.2, isControl c = false := by
  have each := encoded.each
  clear encoded
  induction each with
  | nil => exact fun pair member => by cases member
  | cons ok _ ih => exact List.forall_mem_cons.mpr ⟨List.forall_mem_append.mpr ⟨ok.cleanKey, ok.cleanValue⟩, ih⟩

section
variable {path query : Bytes} (unqueried : ch '?' ∉ path)

include unqueried in
theorem rawPath_queried : rawPath (path ++ ch '?' :: query) = path := by
  have all : ∀ c ∈ path, decide (c ≠ ch '?') = true := by
    intro c member
    apply decide_eq_true
    rintro rfl
    exact unqueried member
  unfold rawPath
  rw [List.takeWhile_append_of_pos all, List.takeWhile_cons_of_neg (by decide), List.append_nil]

include unqueried in
theorem query_queried : ((path ++ ch '?' :: query).dropWhile (· ≠ ch '?')).drop 1 = query := by
  have all : ∀ c ∈ path, decide (c ≠ ch '?') = true := by
    intro c member
    apply decide_eq_true
    rintro rfl
    exact unqueried member
  rw [List.dropWhile_append_of_pos all, List.dropWhile_cons_of_neg (by decide)]
  rfl

include unqueried in
theorem rawPath_unqueried : rawPath path = path := by
  apply List.takeWhile_eq_self_iff.mpr
  intro c member
  apply decide_eq_true
  rintro rfl
  exact unqueried member

include unqueried in
theorem sanitize_queried (origin : path.head? = some (ch '/')) (sane : sanitizeRequestTarget path = .ok ())
    {pairs encs : List (Bytes × Bytes)} (encoded : EncodedPairs pairs encs) :
    sanitizeRequestTarget (path ++ ch '?' :: queryText encs) = .ok () ↔ SlashFree pairs := by
  have start : (path ++ ch '?' :: queryText encs).head? = some (ch '/') := by
    rw [List.head?_append, origin]
    rfl
  rcases (sanitize_ok origin).mp sane with ⟨scanned, segments, _⟩
  rw [rawPath_unqueried unqueried] at segments
  rw [sanitize_ok start, rawPath_queried unqueried, query_queried unqueried, scanned.append, scans_plain (by decide),
    queryText_scans (fun c free => (unreserved_octets c free).1) (by decide) (by decide) (by decide) (by decide)
      encoded.each,
    queryText_scans (fun c free => (unreserved_octets c free).2) (by decide) (by decide)
      (by decide) (by decide) encoded.each]
  have clean := encodedPairs_clean encoded
  constructor
  · intro ⟨⟨_, passes⟩, _⟩ pair member c inside
    exact (targetOctet_iff (clean pair member c inside)).mp (passes pair member c inside)
  · intro free
    refine ⟨⟨by decide, ?_⟩, segments, ?_⟩
    · intro pair member c inside
      exact (targetOctet_iff (clean pair member c inside)).mpr (free pair member c inside)
    · exact fun pair member c inside => queryOctet_clean (clean pair member c inside)

end

/-! ## The request -/

def ClientRequest.withQuery (req : ClientRequest) (encs : List (Bytes × Bytes)) : ClientRequest :=
  { req with path := some (req.pathText ++ ch '?' :: queryText encs) }

/-- `bb_server_request_get_query_param` -/
def ServerRequest.getQueryParam (req : ServerRequest) (key : Bytes) : Option Bytes := (req.query.find? (·.1 = key)).map (·.2)

theorem queryByte_clean {c : Byte} (byte : isQueryByte c = true) : ¬ (c = ch ' ' ∨ c < 0x20 ∨ c = 0x7F) :=
  @forall_byte (fun c => isQueryByte c = true → ¬ (c = ch ' ' ∨ c < 0x20 ∨ c = 0x7F)) (by decide +kernel) c byte

theorem queryText_clean {pairs encs : List (Bytes × Bytes)} (each : List.Forall₂ EncodedPair pairs encs) :
    ((queryText encs).any fun c => c = ch ' ' ∨ c < 0x20 ∨ c = 0x7F) = false := by
  have pairs_ : ∀ {pair enc : Bytes × Bytes}, EncodedPair pair enc →
      ((pairText enc).any fun c => c = ch ' ' ∨ c < 0x20 ∨ c = 0x7F) = false := by
    intro pair enc ok
    unfold pairText
    rw [List.any_append, List.any_cons, Bool.or_eq_false_iff, Bool.or_eq_false_iff]
    refine ⟨?_, by decide, ?_⟩
    · apply List.any_eq_false.mpr
      intro c member
      simpa using queryByte_clean (ok.key.bytes c member)
    · apply List.any_eq_false.mpr
      intro c member
      simpa using queryByte_clean (ok.value.bytes c member)
  induction each with
  | nil => rfl
  | @cons pair enc pairs encs ok rest ih =>
    cases encs with
    | nil =>
      rw [queryText_single]
      exact pairs_ ok
    | cons next more =>
      rw [queryText_cons, List.any_append, List.any_cons, pairs_ ok, ih]
      decide

/-- A request that is accepted without a query, and what it is given one of. -/
structure Queried (base : ClientRequest) (pairs encs : List (Bytes × Bytes)) : Prop where
  admitted : base.Admitted
  ordinary : base.msg.Ordinary
  unqueried : ch '?' ∉ base.pathText
  served : (serverRequestFromParsed { method := base.methodText, target := base.pathText }).isSome = true
  encoded : EncodedPairs pairs encs
  short : (base.withQuery encs).pathText.length < pathSize

theorem Queried.admitted_iff {base : ClientRequest} {pairs encs : List (Bytes × Bytes)} (queried : Queried base pairs encs) :
    sanitizeRequestTarget (base.withQuery encs).pathText = .ok () ↔ SlashFree pairs :=
  sanitize_queried queried.unqueried queried.admitted.origin queried.admitted.sane queried.encoded

theorem Queried.clean {base : ClientRequest} {pairs encs : List (Bytes × Bytes)} (queried : Queried base pairs encs) :
    ((base.withQuery encs).pathText.any fun c => c = ch ' ' ∨ c < 0x20 ∨ c = 0x7F) = false := by
  show ((base.pathText ++ ch '?' :: queryText encs).any fun c => c = ch ' ' ∨ c < 0x20 ∨ c = 0x7F) = false
  rw [List.any_append, List.any_cons, queried.admitted.clean, queryText_clean queried.encoded.each]
  decide

theorem Queried.fits {base : ClientRequest} {pairs encs : List (Bytes × Bytes)} (queried : Queried base pairs encs) :
    ((base.withQuery encs).methodText ++ ch ' ' :: ((base.withQuery encs).pathText ++ ascii " HTTP/1.1")).length ≤ maxRequestLine := by
  have method : (base.withQuery encs).methodText.length < methodSize := queried.admitted.short
  have target := queried.short
  have nine : (ascii " HTTP/1.1").length = 9 := by decide
  rw [List.length_append, List.length_cons, List.length_append, nine]
  unfold methodSize at method
  unfold pathSize at target
  unfold maxRequestLine
  omega

theorem Queried.serves {base : ClientRequest} {pairs encs : List (Bytes × Bytes)} (queried : Queried base pairs encs)
    {parsed : Request} (method : parsed.method = base.methodText) (target : parsed.target = (base.withQuery encs).pathText) :
    ∃ req, serverRequestFromParsed parsed = some req ∧ req.query = pairs := by
  rcases Option.isSome_iff_exists.mp queried.served with ⟨plain, converted⟩
  rcases serverRequestFromParsed_eq_some.mp converted with ⟨⟨short, _, rooted⟩, decoded, undotted, _, _⟩
  rw [show ({ method := base.methodText, target := base.pathText } : Request).target = base.pathText from rfl,
    rawPath_unqueried queried.unqueried] at decoded rooted
  have whole : parsed.target = base.pathText ++ ch '?' :: queryText encs := target
  have raw : rawPath parsed.target = base.pathText := by
    rw [whole]
    exact rawPath_queried queried.unqueried
  have query : serverQuery parsed.target = some pairs := by
    unfold serverQuery
    rw [raw, whole, if_pos (by rw [List.length_append, List.length_cons]; omega), List.drop_append,
      List.drop_of_length_le (by omega), show base.pathText.length + 1 - base.pathText.length = 1 by omega]
    exact parseQueryParams_encoded queried.encoded
  refine ⟨{
    msg := serverMessage parsed plain.path
    method := parsed.method
    path := plain.path
    version := serverRequestVersion parsed
    query := pairs }, serverRequestFromParsed_eq_some.mpr ⟨⟨?_, ?_, ?_⟩, ?_, undotted, query, rfl⟩, rfl⟩
  · rw [method]
    exact short
  · rw [target]
    exact queried.short
  · rw [raw]
    exact rooted
  · rw [raw]
    exact decoded

theorem Queried.refused {base : ClientRequest} {pairs encs : List (Bytes × Bytes)} (queried : Queried base pairs encs)
    (slash : ¬ SlashFree pairs) : ((freshCore false).reads (base.withQuery encs).serialize).1.state = .stateError := by
  have line : (base.withQuery encs).startLine =
      (base.withQuery encs).methodText ++ ch ' ' :: ((base.withQuery encs).pathText ++ ascii " HTTP/1.1") := by
    have fits := queried.fits
    unfold ClientRequest.startLine startLineSize
    exact List.take_of_length_le (by unfold maxRequestLine methodSize at *; omega)
  have written : (base.withQuery encs).serialize = (base.withQuery encs).startLine ++ crlf ++
      (((base.withQuery encs).msg.framed.map Message.headerLine).flatten ++ crlf ++ (base.withQuery encs).msg.body) := by
    rw [show (base.withQuery encs).serialize = _ from Message.serialize_stored _]
    simp only [List.append_assoc]
    rfl
  have token : (base.withQuery encs).methodText.all isTchar = true := queried.admitted.token
  have refused : started false (base.withQuery encs).startLine = none := by
    have unfolded : started false (base.withQuery encs).startLine =
        (parseRequestLine (base.withQuery encs).startLine {}).toOption.map fun request =>
          { state := .headers, request, lineLimit := maxHeaderSize } := rfl
    rw [unfolded]
    cases parsed : parseRequestLine (base.withQuery encs).startLine {} with
    | error e => rfl
    | ok request =>
      have sane := (parseRequestLine_ok.mp parsed).1.sane
      rw [line, targetOf_written token, queried.admitted_iff] at sane
      exact absurd sane slash
  have unbroken : ∀ c ∈ (base.withQuery encs).startLine, c ≠ ch '\r' ∧ c ≠ ch '\n' := by
    intro c member
    rw [line] at member
    have plain := requestLine_plain token queried.clean c member
    exact ⟨plain.1, plain.2.1⟩
  rw [written]
  rcases reads_start false unbroken
    (((base.withQuery encs).msg.framed.map Message.headerLine).flatten ++ crlf ++ (base.withQuery encs).msg.body) with
    ⟨q, _, taken, _⟩ | ⟨_, failed⟩
  · rw [refused] at taken
    cases taken
  · exact failed

/-- A query without slashes comes back as it was encoded; one with a slash in it is refused with its request. -/
theorem query_roundTrip {base : ClientRequest} {pairs encs : List (Bytes × Bytes)} (queried : Queried base pairs encs)
    {fragments : List Bytes} (cut : fragments.flatten = (base.withQuery encs).serialize) :
    (SlashFree pairs →
      (feedFragments (freshParser false) fragments).1 = .complete ∧
        ∃ req, serverRequestFromParsed (feedFragments (freshParser false) fragments).2.1.request = some req ∧
          ∀ pair ∈ pairs, req.getQueryParam pair.1 = some pair.2) ∧
      (¬ SlashFree pairs → (feedFragments (freshParser false) fragments).1 = .error) := by
  constructor
  · intro free
    have admitted : (base.withQuery encs).Admitted := by
      have plain := queried.admitted
      refine ⟨plain.method, plain.token, plain.short, ?_, queried.clean, queried.admitted_iff.mpr free, queried.fits⟩
      show (base.pathText ++ ch '?' :: queryText encs).head? = some (ch '/')
      rw [List.head?_append, plain.origin]
      rfl
    rcases @outgoing_reads (.request (base.withQuery encs)) admitted queried.ordinary with ⟨complete, _, start, _⟩
    rcases feedFragments_reads (Outgoing.request (base.withQuery encs)).isResponse fragments with ⟨status, core, _⟩
    have whole : fragments.flatten = (Outgoing.request (base.withQuery encs)).serialize := cut
    rw [whole] at status core
    rw [← core] at start
    rcases start with ⟨method, target⟩
    rcases queried.serves method target with ⟨req, converted, query⟩
    refine ⟨status.trans complete, req, converted, ?_⟩
    intro pair member
    unfold ServerRequest.getQueryParam
    rw [query]
    exact OrderedMap.get?_eq_some_of_mem queried.encoded.distinct member
  · intro slash
    have failed := queried.refused slash
    rw [(feedFragments_reads false fragments).1, cut]
    exact status_error.mpr failed

def queryBase : ClientRequest where
  path := some (ascii "/find")
  msg := { startLine := [], headers := [(ascii "Host", ascii "localhost")] }

theorem queryBase_admitted : queryBase.Admitted :=
  ⟨by decide, by decide, by decide, by decide, by decide, by decide +kernel, by decide⟩

theorem queryBase_ordinary : queryBase.msg.Ordinary where
  sound := by
    intro h member
    rw [List.mem_singleton.mp member]
    exact ⟨by decide, by decide, by decide, by decide⟩
  distinct := by decide
  framing := by decide
  body := by decide
  count := by decide
  bytes := by decide

theorem encodes_letter {c : Byte} (free : isUnreserved c = true) : Encodes [c] [c] := .plain free .nil

/-- `a b&=` -/
theorem encodes_separators : Encodes (ascii "a b&=") (ascii "a+b%26%3d") :=
  .plain (by decide) (.space (.plain (by decide) (.escape (by decide) (by decide) (.escape (by decide) (by decide) .nil))))

theorem encodes_slash : Encodes (ascii "a/") (ascii "a%2F") := .plain (by decide) (.escape (by decide) (by decide) .nil)

theorem queried_single {value enc : Bytes} (clean : ∀ c ∈ value, isControl c = false) (encodes : Encodes value enc)
    (short : enc.length < 200) : Queried queryBase [(ascii "q", value)] [(ascii "q", enc)] where
  admitted := queryBase_admitted
  ordinary := queryBase_ordinary
  unqueried := by decide
  served := by decide +kernel
  encoded := {
    count := (by decide : 1 ≤ maxQueryParams)
    distinct := List.nodup_singleton _
    each := .cons {
      named := List.cons_ne_nil _ _
      cleanKey := forall_of_all (by decide : (ascii "q").all (fun c => decide (isControl c = false)) = true)
      cleanValue := clean
      separable := (by decide : ch '=' ∉ ascii "q" ∧ ch '&' ∉ ascii "q")
      key := encodes_letter (by decide)
      value := encodes
      keyRoom := (by decide : (ascii "q").length < maxQueryParamKey)
      valueRoom := Nat.lt_of_lt_of_le short (by decide) } .nil }
  short := by
    have five : queryBase.pathText.length = 5 := by decide
    have two : (ascii "q").length = 1 := by decide
    show (queryBase.pathText ++ ch '?' :: queryText [(ascii "q", enc)]).length < pathSize
    rw [queryText_single]
    unfold pairText pathSize
    rw [List.length_append, List.length_cons, List.length_append, List.length_cons, five, two]
    dsimp only
    omega

theorem query_roundTrip_separators :
    ∃ req, serverRequestFromParsed
        (feedFragments (freshParser false) [(queryBase.withQuery [(ascii "q", ascii "a+b%26%3d")]).serialize]).2.1.request = some req ∧
      req.getQueryParam (ascii "q") = some (ascii "a b&=") := by
  have queried := queried_single (by decide +kernel) encodes_separators (by decide +kernel)
  have cut : [(queryBase.withQuery [(ascii "q", ascii "a+b%26%3d")]).serialize].flatten =
      (queryBase.withQuery [(ascii "q", ascii "a+b%26%3d")]).serialize := List.append_nil _
  have free : SlashFree [(ascii "q", ascii "a b&=")] := by
    unfold SlashFree
    decide +kernel
  rcases (query_roundTrip queried cut).1 free with ⟨_, req, converted, found⟩
  exact ⟨req, converted, found _ List.mem_cons_self⟩

theorem not_accepted_slash :
    Queried queryBase [(ascii "q", ascii "a/")] [(ascii "q", ascii "a%2F")] ∧
      (feedFragments (freshParser false) [(queryBase.withQuery [(ascii "q", ascii "a%2F")]).serialize]).1 ≠ .complete :=
  ⟨queried_single (by decide +kernel) encodes_slash (by decide +kernel), by decide +kernel⟩

end BlueBird.Http
