import BlueBird.Encoding.Sha256

namespace BlueBird.Ledger

def lf : Byte := 10
def cr : Byte := 13

/-- The pairs of digits that `bb_migrate_checksum` writes. -/
def hexOf (digest : Bytes) : Bytes :=
  digest.flatMap fun (b : Byte) =>
    [(ascii "0123456789abcdef").getD (b >>> 4).toNat 0, (ascii "0123456789abcdef").getD (b &&& 0x0F).toNat 0]

/-- The loop of `bb_migrate_checksum`, with the bytes from `start` up to `i` in `run` and those from `i` in the next
argument: the bytes left to feed, and the context. -/
def feedRuns (run : Bytes) : Bytes → Sha256.Ctx → Bytes × Sha256.Ctx
  | c :: d :: rest, ctx =>
    if c = cr ∧ d = lf then feedRuns [] (d :: rest) (if 0 < run.length then Sha256.update ctx run else ctx)
    else feedRuns (run ++ [c]) (d :: rest) ctx
  | rest, ctx => (run ++ rest, ctx)

/-- `bb_migrate_checksum` -/
def checksum (data : Bytes) : Bytes :=
  let fed := feedRuns [] data Sha256.init
  hexOf (Sha256.final (if 0 < fed.1.length then Sha256.update fed.2 fed.1 else fed.2))

/-! ## Line endings -/

def toLf : Bytes → Bytes
  | c :: d :: rest => if c = cr ∧ d = lf then lf :: toLf rest else c :: toLf (d :: rest)
  | rest => rest

def ending (crlf : Bool) : Bytes := if crlf then [cr, lf] else [lf]

/-- A file of lines whose endings `choose_` picks, and of a last line without one. -/
def withEndings {Line : Type} (text : Line → Bytes) (choose_ : Line → Bool) (lines : List Line) (last : Bytes) : Bytes :=
  lines.flatMap (fun line => text line ++ ending (choose_ line)) ++ last

theorem update_ite (ctx : Sha256.Ctx) (run : Bytes) :
    (if 0 < run.length then Sha256.update ctx run else ctx) = Sha256.update ctx run := by
  cases run with
  | nil => exact (Sha256.update_nil ctx).symm
  | cons c run => exact if_pos (Nat.zero_lt_succ _)

theorem toLf_lf (rest : Bytes) : toLf (lf :: rest) = lf :: toLf rest := by
  cases rest with
  | nil => rfl
  | cons d rest => exact if_neg fun pair => absurd pair.1 (by decide)

theorem toLf_ending (crlf : Bool) (rest : Bytes) : toLf (ending crlf ++ rest) = lf :: toLf rest := by
  cases crlf
  · exact toLf_lf rest
  · exact if_pos ⟨rfl, rfl⟩

theorem toLf_pair {c d : UInt8} (pair : c = cr ∧ d = lf) (rest : Bytes) : toLf (c :: d :: rest) = lf :: toLf rest :=
  if_pos pair

theorem toLf_other {c d : UInt8} (other : ¬(c = cr ∧ d = lf)) (rest : Bytes) :
    toLf (c :: d :: rest) = c :: toLf (d :: rest) :=
  if_neg other

theorem toLf_append {front : Bytes} (rest : Bytes) (whole : front.getLast? ≠ some cr) :
    toLf (front ++ rest) = toLf front ++ toLf rest := by
  -- a pair takes two bytes of the front, so the induction is on its length
  induction long : front.length using Nat.strong_induction_on generalizing front with
  | _ size ih =>
    rcases front with _ | ⟨c, _ | ⟨d, front⟩⟩
    · rfl
    · have other : c ≠ cr := by simpa using whole
      cases rest with
      | nil => rfl
      | cons d rest => exact toLf_other (fun pair => other pair.1) rest
    · by_cases pair : c = cr ∧ d = lf
      · have shorter : front.getLast? ≠ some cr := by
          cases front with
          | nil => simp
          | cons b front => simpa using whole
        have smaller : front.length < size := by
          rw [← long, List.length_cons, List.length_cons]
          omega
        rw [List.cons_append, List.cons_append, toLf_pair pair, toLf_pair pair, ih _ smaller shorter rfl, List.cons_append]
      · have shorter : (d :: front).getLast? ≠ some cr := by simpa using whole
        have smaller : (d :: front).length < size := by
          rw [← long]
          simp
        have tail := ih _ smaller shorter rfl
        rw [List.cons_append] at tail
        rw [List.cons_append, List.cons_append, toLf_other pair, toLf_other pair, tail, List.cons_append]

theorem toLf_withEndings {Line : Type} {text : Line → Bytes} (choose_ : Line → Bool) {lines : List Line} (last : Bytes)
    (whole : ∀ line ∈ lines, (text line).getLast? ≠ some cr) :
    toLf (withEndings text choose_ lines last) = lines.flatMap (fun line => toLf (text line) ++ [lf]) ++ toLf last := by
  unfold withEndings
  induction lines with
  | nil => rfl
  | cons line lines ih =>
    have rest := ih fun other member => whole other (List.mem_cons_of_mem _ member)
    rw [List.flatMap_cons, List.flatMap_cons, List.append_assoc, List.append_assoc,
      toLf_append _ (whole line List.mem_cons_self), toLf_ending, rest]
    simp

/-! ## What is hashed -/

theorem feedRuns_spec (run rest : Bytes) (ctx : Sha256.Ctx) :
    Sha256.update (feedRuns run rest ctx).2 (feedRuns run rest ctx).1 = Sha256.update ctx (run ++ toLf rest) := by
  fun_induction feedRuns run rest ctx with
  | case1 run ctx c d rest pair ih =>
    rw [ih, update_ite, Sha256.update_update, List.nil_append, pair.2, toLf_lf]
    rw [toLf, if_pos ⟨pair.1, rfl⟩]
  | case2 run ctx c d rest other ih =>
    rw [ih, toLf, if_neg other, List.append_assoc]
    rfl
  | case3 run rest ctx short =>
    have same : toLf rest = rest := by
      cases rest with
      | nil => rfl
      | cons c rest =>
        cases rest with
        | nil => rfl
        | cons d rest => exact absurd rfl (short c d rest)
    rw [same]

theorem checksum_eq (data : Bytes) : checksum data = hexOf (SecureHash.digest (toLf data)) := by
  simp only [checksum]
  rw [update_ite, feedRuns_spec, List.nil_append, Sha256.final_update]

theorem checksum_normalises :
    (∀ data, checksum data = hexOf (SecureHash.digest (toLf data))) ∧
    (∀ (lines : List (Bytes × Bool × Bool)) (last : Bytes), (∀ line ∈ lines, line.1.getLast? ≠ some cr) →
      checksum (withEndings (·.1) (·.2.1) lines last) = checksum (withEndings (·.1) (·.2.2) lines last)) ∧
    ∀ (data : Bytes) (pieces : List Bytes), pieces.flatten = toLf data →
      hexOf (Sha256.final (pieces.foldl Sha256.update Sha256.init)) = checksum data := by
  refine ⟨checksum_eq, ?_, ?_⟩
  · intro lines last whole
    rw [checksum_eq, checksum_eq, toLf_withEndings _ last whole, toLf_withEndings _ last whole]
  · intro data pieces content
    rw [Sha256.foldl_update, content, Sha256.final_update, checksum_eq]

theorem checksum_normalises_two :
    checksum (withEndings (·.1) (·.2.1) [(ascii "a", true, false), (ascii "b", false, true)] (ascii "c")) =
        checksum (withEndings (·.1) (·.2.2) [(ascii "a", true, false), (ascii "b", false, true)] (ascii "c")) ∧
      hexOf (Sha256.final ([[97], [10, 98]].foldl Sha256.update Sha256.init)) = checksum [97, 13, 10, 98] := by
  rcases checksum_normalises with ⟨_, endings, splits⟩
  exact ⟨endings _ _ (by decide), splits [97, 13, 10, 98] _ (by decide)⟩

end BlueBird.Ledger
