import BlueBird.Json.Serializer
import Mathlib.Data.List.Forall2

/-! Measuring and writing agree, and the text fits the block that was measured for it. -/

namespace BlueBird.Json

variable {R : Type}

def keyText (key : Bytes) : Bytes := quoted (cString key) ++ ascii ": "

section Render

variable [Reals R]

mutual

def render : Json R → Option Nat → Bytes
  | null, _ => ascii "null"
  | bool value, _ => if value then ascii "true" else ascii "false"
  | int value, _ => formatInt value.toInt
  | real value, _ => Reals.formatReal value
  | text value, _ => quoted (value.getD [])
  | array items, indent =>
    (arrayLayout id (arrayIndent indent items) (renderItems items (deeper (arrayIndent indent items)))).flatten
  | object entries, indent => (objectLayout id keyText indent (renderEntries entries (deeper indent))).flatten

def renderItems : List (Json R) → Option Nat → List Bytes
  | [], _ => []
  | item :: items, indent => render item indent :: renderItems items indent

def renderEntries : List (Bytes × Json R) → Option Nat → List (Bytes × Bytes)
  | [], _ => []
  | (key, value) :: entries, indent => (key, render value indent) :: renderEntries entries indent

end

end Render

/-- The printer measures the text without a buffer, and writes it with its NUL into one that has the
    room. -/
structure Fills (printer : Printer) (text : Bytes) : Prop where
  measures : ∀ size, printer ⟨none, size⟩ = (none, (text.length : Int))
  writes : ∀ memory size, text.length < size →
    printer ⟨some memory, size⟩ = (some (text ++ 0 :: memory.drop (text.length + 1)), (text.length : Int))

/-- So long as the length of the text is an `int`. -/
def Prints (printer : Printer) (text : Bytes) : Prop := text.length < 2^31 → Fills printer text

theorem toInt_small {n : Int} (least : 0 ≤ n) (small : n < 2^31) : toInt n = n := by
  unfold toInt
  rw [Int.bmod_eq_of_le] <;> omega

theorem toSize_small {n : Int} (least : 0 ≤ n) (small : n < 2^31) : toSize n = n :=
  Int.emod_eq_of_lt least (by omega)

theorem store_nul (memory text : Bytes) : store memory (text ++ [0]) = text ++ 0 :: memory.drop (text.length + 1) := by
  unfold store
  rw [List.append_assoc, List.singleton_append, List.length_append, List.length_singleton]

theorem puts_prints (text : Bytes) : Prints (puts text) text := by
  intro _
  refine ⟨fun _ => rfl, ?_⟩
  intro memory size room
  have whole : text.take (size - 1) = text := List.take_of_length_le (by omega)
  have some_ : ¬ size = 0 := by omega
  show (some (snprintf memory size text), _) = _
  rw [snprintf, if_neg some_, whole, store_nul]

theorem copies_prints (text : Bytes) : Prints (copies text) text := by
  intro _
  refine ⟨fun _ => rfl, ?_⟩
  intro memory size _
  show (some (store memory (text ++ [0])), _) = _
  rw [store_nul]

theorem fits_prints (text : Bytes) {length : Int} (exact_ : text.length < 2^31 → length = text.length) :
    Prints (fits text length) text := by
  intro small
  rw [exact_ small]
  refine ⟨fun _ => rfl, ?_⟩
  intro memory size room
  show (some (if size > text.length then store memory (text ++ [0]) else _), _) = _
  rw [if_pos room, store_nul]

theorem quoted_length (s : Bytes) : (quoted s).length = (escapeString s).length + 2 := by
  simp [quoted]

theorem keyText_length (key : Bytes) : (keyText key).length = (escapeString (cString key)).length + 4 := by
  rw [keyText, List.length_append, quoted_length]
  rfl

theorem putsKey_prints (key : Bytes) : Prints (putsKey key) (keyText key) := by
  intro _
  have length := keyText_length key
  refine ⟨fun _ => by rw [length]; rfl, ?_⟩
  intro memory size room
  rw [length] at room
  show (some (if size > (escapeString (cString key)).length + 4 then
    store memory (keyText key ++ [0]) else memory), _) = _
  rw [if_pos room, store_nul, length]
  rfl

/-! ## Printers in a row -/

/-- A type of lengths is exact for what an `int` holds. -/
def Exact (narrow : Int → Int) : Prop := ∀ n : Int, 0 ≤ n → n < 2^31 → narrow n = n

theorem printAll_cons {narrow : Int → Int} {size : Nat} {printer : Printer} {memory left : Option Bytes}
    {len n : Int} (printers : List Printer)
    (printed : printer ⟨memory.map fun m => m.drop len.toNat, size - len.toNat⟩ = (left, n)) (least : 0 ≤ n) :
    printAll narrow size (printer :: printers) memory len =
      printAll narrow size printers (memory.bind fun m => left.map fun written => m.take len.toNat ++ written)
        (narrow (len + n)) := by
  simp only [printAll, printed]
  rw [if_neg (show ¬ n < 0 by omega)]

theorem printAll_measures {narrow : Int → Int} (exact_ : Exact narrow) (size : Nat) {printers : List Printer}
    {texts : List Bytes} (prints : List.Forall₂ Prints printers texts) (len : Nat)
    (small : len + texts.flatten.length < 2^31) :
    printAll narrow size printers none len = (none, ((len + texts.flatten.length : Nat) : Int)) := by
  induction prints generalizing len with
  | nil => rfl
  | @cons printer text printers texts first _ ih =>
    rw [List.flatten_cons, List.length_append] at small ⊢
    have measured := (first (by omega)).measures (size - (len : Int).toNat)
    rw [printAll_cons printers measured (by omega), exact_ _ (by omega) (by omega), ← Int.natCast_add, ← Nat.add_assoc]
    exact ih _ (by omega)

theorem printAll_fails {narrow : Int → Int} (exact_ : Exact narrow) (size : Nat) {printers : List Printer} {texts : List Bytes}
    (prints : List.Forall₂ Prints printers texts) {printer : Printer} {n : Int} (measured : ∀ size, printer ⟨none, size⟩ = (none, n))
    (negative : n < 0) (rest : List Printer) (len : Nat) (small : len + texts.flatten.length < 2^31) :
    printAll narrow size (printers ++ printer :: rest) none len = (none, -1) := by
  induction prints generalizing len with
  | nil =>
    rw [List.nil_append]
    unfold printAll
    dsimp only [Option.map_none]
    rw [measured, if_pos negative]
    rfl
  | @cons first text printers texts front _ ih =>
    rw [List.flatten_cons, List.length_append] at small
    have own := (front (by omega)).measures (size - (len : Int).toNat)
    rw [List.cons_append, printAll_cons _ own (by omega), exact_ _ (by omega) (by omega), ← Int.natCast_add]
    exact ih _ (by omega)

theorem printAll_writes {narrow : Int → Int} (exact_ : Exact narrow) (size : Nat) {printers : List Printer}
    {texts : List Bytes} (prints : List.Forall₂ Prints printers texts) (some_ : texts ≠ []) (done tail : Bytes)
    (small : done.length + texts.flatten.length < 2^31) (room : done.length + texts.flatten.length < size) :
    printAll narrow size printers (some (done ++ tail)) done.length =
      (some (done ++ (texts.flatten ++ 0 :: tail.drop (texts.flatten.length + 1))),
        ((done.length + texts.flatten.length : Nat) : Int)) := by
  induction prints generalizing done tail with
  | nil => exact absurd rfl some_
  | @cons printer text printers texts first others ih =>
    rw [List.flatten_cons, List.length_append] at small room ⊢
    have written := (first (by omega)).writes tail (size - done.length) (by omega)
    have printed : printer ⟨(some (done ++ tail)).map fun m => m.drop (done.length : Int).toNat,
        size - (done.length : Int).toNat⟩ = (some (text ++ 0 :: tail.drop (text.length + 1)), (text.length : Int)) := by
      simpa only [Option.map_some, Int.toNat_natCast, List.drop_left] using written
    have left : ((some (done ++ tail)).bind fun m => (some (text ++ 0 :: tail.drop (text.length + 1))).map
        fun written => m.take (done.length : Int).toNat ++ written) =
          some ((done ++ text) ++ 0 :: tail.drop (text.length + 1)) := by
      simp only [Option.bind_some, Option.map_some, Int.toNat_natCast, List.take_left, List.append_assoc]
    have length : narrow ((done.length : Int) + text.length) = ((done ++ text).length : Nat) := by
      rw [exact_ _ (by omega) (by omega), List.length_append, Int.natCast_add]
    rw [printAll_cons printers printed (by omega), left, length]
    by_cases last : texts = []
    · subst last
      cases others
      simp [printAll]
    · rw [ih last (done ++ text) (0 :: tail.drop (text.length + 1))
        (by rw [List.length_append]; omega) (by rw [List.length_append]; omega)]
      simp only [List.length_append, List.append_assoc, List.drop_succ_cons, List.drop_drop, Nat.add_assoc,
        Nat.add_comm 1]

/-! ## Layouts

Two layouts of pieces that match are matching lists. -/

section Layouts

variable {α β : Type} {text : Bytes → α} {text' : Bytes → β} {keyed : Bytes → α} {keyed' : Bytes → β} {r : α → β → Prop}

theorem newline_rel (texts : ∀ t, r (text t) (text' t)) (indent : Option Nat) :
    List.Forall₂ r (newline text indent) (newline text' indent) := by
  cases indent with
  | none => exact .nil
  | some _ => exact .cons (texts _) .nil

theorem tabs_rel (texts : ∀ t, r (text t) (text' t)) (indent : Option Nat) :
    List.Forall₂ r (tabs text indent) (tabs text' indent) := by
  cases indent with
  | none => exact .nil
  | some depth =>
    induction depth with
    | zero => exact .nil
    | succ depth ih => exact .cons (texts _) ih

theorem itemLayout_rel (texts : ∀ t, r (text t) (text' t)) (indent : Option Nat) {items : List α} {others : List β}
    (match_ : List.Forall₂ r items others) :
    List.Forall₂ r (itemLayout text indent items) (itemLayout text' indent others) := by
  induction match_ with
  | nil => exact .nil
  | cons first rest ih =>
    apply List.rel_append _ ih
    apply List.rel_append _ (newline_rel texts indent)
    apply List.rel_append (tabs_rel texts _)
    apply List.Forall₂.cons first
    apply List.Forall₂.cons _ .nil
    cases rest with
    | nil => exact texts _
    | cons _ _ => exact texts _

theorem arrayLayout_rel (texts : ∀ t, r (text t) (text' t)) (indent : Option Nat) {items : List α} {others : List β}
    (match_ : List.Forall₂ r items others) :
    List.Forall₂ r (arrayLayout text indent items) (arrayLayout text' indent others) := by
  apply List.rel_append _ (.cons (texts _) .nil)
  apply List.rel_append _ (tabs_rel texts indent)
  apply List.rel_append _ (itemLayout_rel texts indent match_)
  exact .cons (texts _) (newline_rel texts indent)

def EntryRel (r : α → β → Prop) (entry : Bytes × α) (other : Bytes × β) : Prop := entry.1 = other.1 ∧ r entry.2 other.2

theorem entryLayout_rel (texts : ∀ t, r (text t) (text' t)) (keys : ∀ key, r (keyed key) (keyed' key))
    (indent : Option Nat) (first : Bool) {entries : List (Bytes × α)} {others : List (Bytes × β)}
    (match_ : List.Forall₂ (EntryRel r) entries others) :
    List.Forall₂ r (entryLayout text keyed indent first entries) (entryLayout text' keyed' indent first others) := by
  induction match_ generalizing first with
  | nil => exact .nil
  | @cons entry other _ _ here _ ih =>
    rcases here with ⟨sameKey, value⟩
    apply List.rel_append _ (ih false)
    apply List.rel_append
    · apply List.rel_append _ (tabs_rel texts _)
      apply List.rel_append _ (newline_rel texts indent)
      cases first with
      | false => exact .cons (texts _) .nil
      | true => exact .nil
    · apply List.Forall₂.cons _ (.cons value .nil)
      rw [sameKey]
      exact keys other.1

theorem objectLayout_rel (texts : ∀ t, r (text t) (text' t)) (keys : ∀ key, r (keyed key) (keyed' key))
    (indent : Option Nat) {entries : List (Bytes × α)} {others : List (Bytes × β)}
    (match_ : List.Forall₂ (EntryRel r) entries others) :
    List.Forall₂ r (objectLayout text keyed indent entries) (objectLayout text' keyed' indent others) := by
  apply List.rel_append _ (.cons (texts _) .nil)
  apply List.rel_append _ (tabs_rel texts indent)
  apply List.rel_append _ (newline_rel texts indent)
  exact .cons (texts _) (entryLayout_rel texts keys indent true match_)

end Layouts

/-! ## Values -/

theorem printAll_fills {narrow : Int → Int} (exact_ : Exact narrow) {printers : List Printer} {texts : List Bytes}
    (prints : List.Forall₂ Prints printers texts) (some_ : texts ≠ []) (small : texts.flatten.length < 2^31) :
    Fills (fun sink => printAll narrow sink.size printers sink.memory 0) texts.flatten where
  measures size := by
    have measured := printAll_measures exact_ size prints 0 (by omega)
    rwa [Nat.zero_add] at measured
  writes memory size room := by
    have written := printAll_writes exact_ size prints some_ [] memory (by simpa using small) (by simpa using room)
    simpa using written

variable [Reals R]

mutual

theorem serializeJson_prints : (json : Json R) → (indent : Option Nat) →
    Prints (serializeJson json indent) (render json indent)
  | null, _ => by
    rw [serializeJson, render]
    exact copies_prints _
  | bool value, _ => by
    rw [serializeJson, render]
    exact copies_prints _
  | int value, _ => by
    rw [serializeJson, render]
    exact puts_prints _
  | real value, _ => by
    rw [serializeJson, render]
    exact fits_prints _ fun _ => rfl
  | text value, _ => by
    rw [serializeJson, render]
    exact fits_prints _ fun small => toInt_small (by omega) (by omega)
  | array items, indent => by
    intro small
    rw [serializeJson]
    rw [render] at small ⊢
    apply printAll_fills (fun n => toInt_small) (arrayLayout_rel puts_prints _ (serializeItems_prints items _)) _ small
    simp [arrayLayout]
  | object entries, indent => by
    intro small
    rw [serializeJson]
    rw [render] at small ⊢
    have layout : List.Forall₂ Prints (objectLayout puts putsKey indent (serializeEntries entries (deeper indent)))
        (objectLayout id keyText indent (renderEntries entries (deeper indent))) :=
      objectLayout_rel puts_prints putsKey_prints indent (serializeEntries_prints entries _)
    have fills := printAll_fills (fun n => toSize_small) layout (by simp [objectLayout]) small
    have length := toInt_small (Int.natCast_nonneg _) (Int.ofNat_lt.mpr small)
    refine ⟨fun size => ?_, fun memory size room => ?_⟩
    · have measured := fills.measures size
      dsimp only at measured ⊢
      rw [measured, length]
    · have written := fills.writes memory size room
      dsimp only at written ⊢
      rw [written, length]

theorem serializeItems_prints : (items : List (Json R)) → (indent : Option Nat) →
    List.Forall₂ Prints (serializeItems items indent) (renderItems items indent)
  | [], _ => by
    rw [serializeItems, renderItems]
    exact .nil
  | item :: items, indent => by
    rw [serializeItems, renderItems]
    exact .cons (serializeJson_prints item indent) (serializeItems_prints items indent)

theorem serializeEntries_prints : (entries : List (Bytes × Json R)) → (indent : Option Nat) →
    List.Forall₂ (EntryRel Prints) (serializeEntries entries indent) (renderEntries entries indent)
  | [], _ => by
    rw [serializeEntries, renderEntries]
    exact .nil
  | (_, value) :: entries, indent => by
    rw [serializeEntries, renderEntries]
    exact .cons ⟨rfl, serializeJson_prints value indent⟩ (serializeEntries_prints entries indent)

end

theorem serialize_eq_render (malloc : Nat → Bytes) (indent : Option Nat) (json : Json R)
    (small : (render json indent).length + 1 < 2^31) :
    serialize malloc indent json =
      .ok (render json indent ++ 0 :: (malloc ((render json indent).length + 1)).drop ((render json indent).length + 1)) := by
  have fills := serializeJson_prints json indent (by omega)
  have capacity : toInt (((render json indent).length : Int) + 1) = ((render json indent).length + 1 : Nat) := by
    rw [toInt_small (by omega) (by omega)]
    rfl
  rw [serialize, fills.measures 0]
  dsimp only
  rw [if_neg (by omega), capacity, if_neg (by omega), Int.toNat_natCast, fills.writes _ _ (Nat.lt_succ_self _)]
  rfl

end BlueBird.Json
