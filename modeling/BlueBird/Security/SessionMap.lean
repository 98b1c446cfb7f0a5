import BlueBird.Collections.SwapRemove
import BlueBird.Memory.CString
import BlueBird.Security.SessionStore
import Mathlib.Data.List.GetD

namespace BlueBird.Security

/-! ## Comparing ids -/

/-- An array of `n` bytes with the string at its front. -/
def asBuffer (lookup : Bytes) (n : Nat) : Bytes := (lookup ++ List.replicate n 0).take n

theorem asBuffer_succ (lookup : Bytes) (n : Nat) : asBuffer lookup (n + 1) = lookup.headD 0 :: asBuffer (lookup.drop 1) n := by
  cases lookup with
  | nil =>
    show (List.replicate (n + 1) 0).take (n + 1) = 0 :: (List.replicate n 0).take n
    rw [List.take_of_length_le (by simp), List.take_of_length_le (by simp)]
    rfl
  | cons c rest =>
    show c :: ((rest ++ List.replicate (n + 1) 0).take n) = c :: _
    congr 1
    unfold asBuffer
    rw [List.replicate_succ', ← List.append_assoc, List.take_append_of_le_length (by simp)]
    rfl

theorem difference_zero (diff a b : Byte) : diff ||| (a ^^^ b) = 0 ↔ diff = 0 ∧ a = b := by
  rw [UInt8.or_eq_zero_iff, UInt8.xor_eq_zero_iff]

theorem idDifference_zero (stored : Bytes) {lookup : Bytes} (clean : (0 : Byte) ∉ lookup) (ended : Bool) (diff : Byte) :
    idDifference lookup ended diff stored = 0 ↔
      diff = 0 ∧ stored = if ended then List.replicate stored.length 0 else asBuffer lookup stored.length := by
  induction stored generalizing lookup ended diff with
  | nil =>
    have nothing : asBuffer lookup 0 = [] := rfl
    simp [idDifference, nothing]
  | cons b stored ih =>
    have cleanRest : (0 : Byte) ∉ lookup.drop 1 := fun inside => clean (List.mem_of_mem_drop inside)
    unfold idDifference
    dsimp only
    rw [ih cleanRest, difference_zero, List.length_cons, asBuffer_succ, List.replicate_succ]
    cases ended with
    | true =>
      simp
      grind
    | false =>
      cases lookup with
      | nil =>
        have zeros : asBuffer [] stored.length = List.replicate stored.length 0 := by
          unfold asBuffer
          rw [List.nil_append, List.take_of_length_le (by simp)]
        simp [zeros]
        grind
      | cons c rest =>
        have nonzero : c ≠ 0 := fun same => clean (same ▸ List.mem_cons_self)
        simp [nonzero]
        grind

def Session.idString (s : Session) : Bytes := s.id.takeWhile (· ≠ 0)

/-- An id as `bb_session_create` makes it. -/
def Session.Named (s : Session) : Prop :=
  ∃ hex : Bytes, s.id = padded sessionIdSize hex ∧ (0 : Byte) ∉ hex ∧ hex.length < sessionIdSize

theorem zeros_head (n : Nat) : ∀ c ∈ (List.replicate n (0 : Byte)).head?, c = 0 :=
  fun _ first => List.eq_of_mem_replicate (List.mem_of_head? first)

theorem asBuffer_string {lookup : Bytes} (clean : (0 : Byte) ∉ lookup) (n : Nat) :
    (asBuffer lookup n).takeWhile (· ≠ 0) = lookup.take n := by
  unfold asBuffer
  rw [List.take_append, List.take_replicate]
  exact Memory.takeWhile_ended (fun inside => clean (List.mem_of_mem_take inside)) (zeros_head _)

theorem constantTimeIdEqual_iff {s : Session} (named : s.Named) {lookup : Bytes} (clean : (0 : Byte) ∉ lookup) :
    constantTimeIdEqual lookup s.id = true ↔ s.idString = lookup := by
  rcases named with ⟨hex, id, cleanHex, short⟩
  have size : (padded sessionIdSize hex).length = sessionIdSize := by
    unfold padded
    rw [List.length_append, List.length_replicate]
    omega
  have text : s.idString = hex := by
    unfold Session.idString
    rw [id]
    exact Memory.takeWhile_ended cleanHex (zeros_head _)
  have zero := idDifference_zero s.id clean false 0
  have plain : ∀ x y : Bytes, (if false = true then x else y) = y := fun _ _ => rfl
  rw [plain, id, size] at zero
  unfold constantTimeIdEqual
  rw [beq_iff_eq, id, zero, text]
  constructor
  · intro same
    have strings := congrArg (List.takeWhile (· ≠ 0)) same.2
    rw [asBuffer_string clean, ← id] at strings
    have taken : hex = lookup.take sessionIdSize := text.symm.trans strings
    have fits : lookup.length ≤ sessionIdSize := by
      by_contra long
      have cut : (lookup.take sessionIdSize).length = sessionIdSize := List.length_take_of_le (by omega)
      rw [← taken] at cut
      omega
    rw [taken, List.take_of_length_le fits]
  · intro same
    refine ⟨rfl, ?_⟩
    unfold padded asBuffer
    rw [← same, List.take_append, List.take_of_length_le (Nat.le_of_lt short), List.take_replicate, Nat.min_eq_left (by omega)]

theorem hexDigit_ne (b : Byte) : hexDigit (b &&& 0x0F) ≠ 0 := by
  have small : (b &&& 0x0F).toNat ≤ 15 := by
    rw [UInt8.toNat_and]
    exact Nat.and_le_right
  have digits : ∀ n : Fin 16, (ascii "0123456789abcdef").getD n.val 0 ≠ 0 := by decide
  exact digits ⟨(b &&& 0x0F).toNat, by omega⟩

theorem randomHex_clean (chars : Nat) (random : Nat → Byte) : (0 : Byte) ∉ randomHex chars random := by
  intro inside
  rcases List.mem_flatMap.mp (List.mem_of_mem_take inside) with ⟨b, _, digit⟩
  rcases List.mem_cons.mp digit with high | low
  · exact hexDigit_ne (b >>> 4) high.symm
  · exact hexDigit_ne b (List.mem_singleton.mp low).symm

theorem randomHex_length (chars : Nat) (random : Nat → Byte) : (randomHex chars random).length ≤ chars :=
  List.length_take_le chars _

/-! ## The store holds a list of sessions -/

/-- The used slots, and behind them slots that were never written or are wiped. -/
def Holds (store : MemoryStore) (live : List Session) : Prop :=
  ∃ tail, store.sessions = live.map some ++ tail ∧ store.count = live.length ∧
    ∀ slot ∈ tail, slot = none ∨ slot = some Session.zero

theorem Holds.used {store : MemoryStore} {live : List Session} (holds : Holds store live) :
    store.sessions.take store.count = live.map some := by
  rcases holds with ⟨tail, sessions, count, _⟩
  rw [sessions, count, List.take_left' (by simp)]

theorem Holds.slot {store : MemoryStore} {live : List Session} (holds : Holds store live) {i : Nat} (inside : i < live.length) :
    store.sessions.getD i none = some live[i] := by
  rcases holds with ⟨tail, sessions, _, _⟩
  rw [sessions, List.getD_append _ _ _ _ (by simpa using inside), List.getD_eq_getElem _ _ (by simpa using inside)]
  simp

theorem findIdx?_congr {α : Type} {p q : α → Bool} {xs : List α} (same : ∀ x ∈ xs, p x = q x) :
    xs.findIdx? p = xs.findIdx? q := by
  induction xs with
  | nil => rfl
  | cons x xs ih =>
    rw [List.findIdx?_cons, List.findIdx?_cons, same x List.mem_cons_self, ih fun y member => same y (List.mem_cons_of_mem x member)]

theorem slotOf_eq {store : MemoryStore} {live : List Session} (holds : Holds store live)
    (named : ∀ s ∈ live, s.Named) {id : Bytes} (clean : (0 : Byte) ∉ id) :
    slotOf store id = live.findIdx? fun s => s.idString == id := by
  unfold slotOf
  rw [holds.used, List.findIdx?_map]
  apply findIdx?_congr
  intro s member
  show constantTimeIdEqual id s.id = (s.idString == id)
  rw [Bool.eq_iff_iff, constantTimeIdEqual_iff (named s member) clean, beq_iff_eq]

theorem Holds.create {store next : MemoryStore} {live : List Session} (holds : Holds store live) {grows : Bool} {s : Session}
    (created : storeCreate grows store s = some next) : Holds next (live ++ [s]) := by
  rcases holds with ⟨tail, sessions, count, wiped⟩
  have placed : ∀ slots t (rest : List (Option Session)), slots = live.map some ++ t :: rest →
      (∀ slot ∈ rest, slot = none ∨ slot = some Session.zero) →
      Holds { sessions := slots.set store.count (some s), count := store.count + 1 } (live ++ [s]) := by
    intro slots t rest split clean
    refine ⟨rest, ?_, ?_, clean⟩
    · show slots.set store.count (some s) = _
      rw [split, count, List.set_append_right _ _ (by simp), List.length_map, Nat.sub_self, List.map_append]
      simp
    · show store.count + 1 = _
      rw [count, List.length_append, List.length_singleton]
  unfold storeCreate ensureCapacity at created
  split at created
  · rename_i room
    cases tail with
    | nil =>
      rw [sessions, count, List.append_nil, List.length_map] at room
      exact absurd room (Nat.lt_irrefl _)
    | cons t rest =>
      rw [Option.map_some] at created
      cases created
      exact placed store.sessions t rest sessions fun slot member => wiped slot (List.mem_cons_of_mem t member)
  · rename_i full
    cases grows with
    | false => cases created
    | true =>
      rw [if_pos rfl, Option.map_some] at created
      cases created
      have empty : tail = [] := by
        cases tail with
        | nil => rfl
        | cons t rest =>
          rw [sessions, count] at full
          simp at full
      rw [empty, List.append_nil] at sessions
      have more : ∃ n, (if store.sessions.length = 0 then sessionStoreInitialCapacity else store.sessions.length * 2) -
          store.sessions.length = n + 1 := by
        by_cases none : store.sessions.length = 0
        · rw [if_pos none, none]
          exact ⟨31, rfl⟩
        · rw [if_neg none]
          exact ⟨store.sessions.length - 1, by omega⟩
      rcases more with ⟨n, more⟩
      dsimp only
      rw [more]
      apply placed _ none (List.replicate n none)
      · rw [sessions, List.replicate_succ]
      · exact fun slot member => Or.inl (List.eq_of_mem_replicate member)

theorem storeCreate_none {store : MemoryStore} {grows : Bool} {s : Session} :
    storeCreate grows store s = none ↔ store.sessions.length ≤ store.count ∧ grows = false := by
  unfold storeCreate ensureCapacity
  split
  · simp
    omega
  · cases grows with
    | true => simp
    | false =>
      simp
      omega

theorem Holds.destroy {store next : MemoryStore} {live : List Session} (holds : Holds store live)
    (named : ∀ s ∈ live, s.Named) {id : Bytes} (clean : (0 : Byte) ∉ id) (destroyed : storeDestroy store id = some next) :
    ∃ s rest, s.idString = id ∧ live.Perm (s :: rest) ∧ Holds next rest := by
  have place := slotOf_eq holds named clean
  unfold storeDestroy at destroyed
  rw [place] at destroyed
  cases found : live.findIdx? (fun s => s.idString == id) with
  | none =>
    rw [found] at destroyed
    cases destroyed
  | some i =>
    rw [found, Option.map_some] at destroyed
    rcases List.findIdx?_eq_some_iff_getElem.mp found with ⟨inside, same, _⟩
    have here : live[i]? = some live[i] := List.getElem?_eq_getElem inside
    refine ⟨live[i], SwapRemove.swapRemove live i, beq_iff_eq.mp same, SwapRemove.swapRemove_perm live i live[i] here, ?_⟩
    rcases holds with ⟨tail, sessions, count, wiped⟩
    rcases List.eq_nil_or_concat live with empty | ⟨front, last, split⟩
    · rw [empty] at inside
      exact absurd inside (Nat.not_lt_zero i)
    · have length : store.count - 1 = front.length := by
        rw [count, split]
        simp
      have slots : store.sessions = front.map some ++ some last :: tail := by
        rw [sessions, split]
        simp
      have ending : store.sessions.getD front.length none = some last := by
        rw [slots, List.getD_append_right _ _ _ _ (by simp)]
        simp
      have removed : SwapRemove.swapRemove live i = if i ≠ front.length then front.set i last else front := by
        unfold SwapRemove.swapRemove
        rw [split, List.concat_eq_append, List.getLast?_concat]
        dsimp only
        by_cases final : i = front.length
        · rw [if_neg (not_not_intro final), final, List.set_append_right _ _ (le_refl _)]
          simp
        · have before : i < front.length := by
            rw [split] at inside
            simp at inside
            omega
          rw [if_pos final, List.set_append_left _ _ before, List.dropLast_concat]
      dsimp only at destroyed
      rw [length, ending] at destroyed
      cases destroyed
      rw [removed]
      refine ⟨some Session.zero :: tail, ?_, ?_, ?_⟩
      · by_cases final : i = front.length
        · rw [if_neg (not_not_intro final), if_neg (not_not_intro final), slots,
            List.set_append_right _ _ (by simp)]
          simp
        · have before : i < front.length := by
            rw [split] at inside
            simp at inside
            omega
          rw [if_pos final, if_pos final, slots, List.set_append_left _ _ (by simpa using before),
            List.set_append_right _ _ (by simp)]
          simp [List.map_set]
      · show front.length = _
        split
        · rw [List.length_set]
        · rfl
      · intro slot member
        rcases List.mem_cons.mp member with zero | old
        · exact Or.inr zero
        · exact wiped slot old

def unexpired (now : Int) (live : List Session) : List Session := live.filter fun s => !sessionIsExpired s now

theorem unexpired_skip {now : Int} {s : Session} (expired : sessionIsExpired s now = true) (live : List Session) :
    unexpired now (s :: live) = unexpired now live := by
  unfold unexpired
  rw [List.filter_cons_of_neg]
  simpa using expired

theorem unexpired_keep {now : Int} {s : Session} (alive : ¬ sessionIsExpired s now = true) (live : List Session) :
    unexpired now (s :: live) = s :: unexpired now live := by
  unfold unexpired
  rw [List.filter_cons_of_pos]
  simpa using alive

theorem compact_spec (now : Int) (ahead kept : List Session) (mid tail : List (Option Session)) :
    ∃ mid' : List (Option Session),
      compact now ahead.length (kept.length + mid.length) kept.length (kept.map some ++ (mid ++ (ahead.map some ++ tail))) =
        ((kept ++ unexpired now ahead).map some ++ (mid' ++ tail),
          (kept ++ unexpired now ahead).length) ∧
      mid'.length + (unexpired now ahead).length = mid.length + ahead.length := by
  induction ahead generalizing kept mid with
  | nil => exact ⟨mid, by simp [compact, unexpired], by simp [unexpired]⟩
  | cons s ahead ih =>
    have here : (kept.map some ++ (mid ++ ((s :: ahead).map some ++ tail))).getD (kept.length + mid.length) none = some s := by
      rw [List.getD_append_right _ _ _ _ (by simp), List.getD_append_right _ _ _ _ (by simp)]
      simp
    have next : kept.length + mid.length + 1 = kept.length + (mid ++ [some s]).length := by simp [Nat.add_assoc]
    rw [List.length_cons]
    unfold compact
    rw [here, Option.all_some]
    by_cases expired : sessionIsExpired s now = true
    · rw [if_pos expired, unexpired_skip expired, next]
      have shifted : kept.map some ++ (mid ++ ((s :: ahead).map some ++ tail)) =
          kept.map some ++ ((mid ++ [some s]) ++ (ahead.map some ++ tail)) := by simp
      rw [shifted]
      rcases ih kept (mid ++ [some s]) with ⟨mid', loop, size⟩
      refine ⟨mid', loop, ?_⟩
      simp only [List.length_append, List.length_cons, List.length_nil] at size ⊢
      omega
    · have joined : kept ++ s :: unexpired now ahead = (kept ++ [s]) ++ unexpired now ahead := by simp
      have length : kept.length + 1 = (kept ++ [s]).length := by simp
      rw [if_neg expired, unexpired_keep expired, joined]
      cases mid with
      | nil =>
        have written : (kept.map some ++ ([] ++ ((s :: ahead).map some ++ tail))).set kept.length (some s) =
            (kept ++ [s]).map some ++ ([] ++ (ahead.map some ++ tail)) := by
          rw [List.set_append_right _ _ (by simp)]
          simp
        rw [written, length]
        rcases ih (kept ++ [s]) [] with ⟨mid', loop, size⟩
        refine ⟨mid', ?_, ?_⟩
        · have start : kept.length + ([] : List (Option Session)).length + 1 = (kept ++ [s]).length + ([] : List (Option Session)).length := by
            simp
          rw [start]
          exact loop
        · simp only [List.length_nil, List.length_cons] at size ⊢
          omega
      | cons m mid =>
        have written : (kept.map some ++ ((m :: mid) ++ ((s :: ahead).map some ++ tail))).set kept.length (some s) =
            (kept ++ [s]).map some ++ ((mid ++ [some s]) ++ (ahead.map some ++ tail)) := by
          rw [List.set_append_right _ _ (by simp)]
          simp
        rw [written, length]
        rcases ih (kept ++ [s]) (mid ++ [some s]) with ⟨mid', loop, size⟩
        refine ⟨mid', ?_, ?_⟩
        · have start : kept.length + (m :: mid).length + 1 = (kept ++ [s]).length + (mid ++ [some s]).length := by
            simp
            omega
          rw [start]
          exact loop
        · simp only [List.length_append, List.length_cons, List.length_nil] at size ⊢
          omega

theorem Holds.cleanup {store : MemoryStore} {live : List Session} (holds : Holds store live) (now : Int) :
    Holds (storeCleanup now store) (unexpired now live) := by
  rcases holds with ⟨tail, sessions, count, wiped⟩
  rcases compact_spec now live [] [] tail with ⟨mid, loop, size⟩
  simp only [List.length_nil, List.map_nil, List.nil_append, Nat.zero_add] at loop size
  have slots : (storeCleanup now store).sessions =
      (unexpired now live).map some ++
        (List.replicate mid.length (some Session.zero) ++ tail) := by
    unfold storeCleanup
    rw [count, sessions, loop]
    dsimp only
    have left : live.length - (unexpired now live).length = mid.length := by omega
    have rest : ((unexpired now live).map some ++ (mid ++ tail)).drop live.length = tail := by
      rw [← List.append_assoc, List.drop_left' (by rw [List.length_append, List.length_map]; omega)]
    rw [List.take_left' (List.length_map _), rest, left, List.append_assoc]
  refine ⟨List.replicate mid.length (some Session.zero) ++ tail, slots, ?_, ?_⟩
  · unfold storeCleanup
    rw [count, sessions, loop]
  · intro slot member
    rcases List.mem_append.mp member with zero | old
    · exact Or.inr (List.eq_of_mem_replicate zero)
    · exact wiped slot old

end BlueBird.Security
