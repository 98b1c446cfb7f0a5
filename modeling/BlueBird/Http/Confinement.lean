import BlueBird.Http.ServerRequest

namespace BlueBird.Http

open ServerRequest

/-! ## Decoding keeps the segments apart -/

/-- Percent-decoding of a segment, with no other change. -/
def percentDecode : Bytes → Option Bytes
  | [] => some []
  | c :: rest =>
    if c = ch '%' then
      match rest with
      | hi :: lo :: tail => (percentOctet [hi, lo]).bind fun octet => (percentDecode tail).map (UInt8.ofNat octet :: ·)
      | _ => none
    else (percentDecode rest).map (c :: ·)

theorem percentDecode_plain {c : Byte} (plain : c ≠ ch '%') (rest : Bytes) :
    percentDecode (c :: rest) = (percentDecode rest).map (c :: ·) := by
  conv_lhs => unfold percentDecode
  rw [if_neg plain]

theorem percentDecode_octet {hi lo : Byte} {octet : Nat} (digits : percentOctet [hi, lo] = some octet) (tail : Bytes) :
    percentDecode (ch '%' :: hi :: lo :: tail) = (percentDecode tail).map (UInt8.ofNat octet :: ·) := by
  conv_lhs => unfold percentDecode
  rw [if_pos rfl]
  show ((percentOctet [hi, lo]).bind fun octet => _) = _
  rw [digits]
  rfl

def segments (path : Bytes) : List Bytes := path.splitOn (ch '/')

theorem segments_slash (rest : Bytes) : segments (ch '/' :: rest) = [] :: segments rest := by
  unfold segments
  rw [List.splitOn_cons_eq_if_modifyHead, if_pos (beq_self_eq_true _)]

theorem segments_cons {c : Byte} (other : c ≠ ch '/') (rest : Bytes) :
    segments (c :: rest) = (segments rest).modifyHead (c :: ·) := by
  unfold segments
  rw [List.splitOn_cons_eq_if_modifyHead, if_neg (by simpa using other)]

theorem mapM_modifyHead {f g : Bytes → Bytes} (decodes : ∀ s, percentDecode (f s) = (percentDecode s).map g)
    {raw decoded : List Bytes} (read : raw.mapM percentDecode = some decoded) :
    (raw.modifyHead f).mapM percentDecode = some (decoded.modifyHead g) := by
  cases raw with
  | nil =>
    cases read
    rfl
  | cons s raw =>
    rw [List.mapM_cons] at read
    rw [List.modifyHead_cons, List.mapM_cons, decodes]
    cases first : percentDecode s with
    | none =>
      rw [first] at read
      cases read
    | some d =>
      rw [first] at read
      cases rest : raw.mapM percentDecode with
      | none =>
        rw [rest] at read
        cases read
      | some ds =>
        rw [rest] at read
        cases read
        rfl

theorem hexValue_slash : hexValue (ch '/') = none := by decide

theorem percentOctet_eq (hi lo : Byte) :
    percentOctet [hi, lo] = (hexValue hi).bind fun h => (hexValue lo).bind fun l => some (h * 16 + l) := rfl

theorem percentOctet_spec {hi lo : Byte} {octet : Nat} (digits : percentOctet [hi, lo] = some octet) :
    hi ≠ ch '/' ∧ lo ≠ ch '/' := by
  rw [percentOctet_eq] at digits
  constructor
  · rintro rfl
    rw [hexValue_slash] at digits
    cases digits
  · rintro rfl
    rw [hexValue_slash] at digits
    cases high : hexValue hi with
    | none =>
      rw [high] at digits
      cases digits
    | some h =>
      rw [high] at digits
      cases digits

theorem storePathByte_some {out out' : Bytes} {room : Nat} {c : Byte} (stored : storePathByte out room c = some out') :
    isValidDecodedPathChar c = true ∧ out' = out ++ [c] := by
  unfold storePathByte at stored
  by_cases valid : isValidDecodedPathChar c = true
  · rw [if_neg (by rw [valid]; decide)] at stored
    by_cases full : out.length + 1 ≥ room
    · rw [if_pos full] at stored
      cases stored
    · rw [if_neg full] at stored
      cases stored
      exact ⟨valid, rfl⟩
  · rw [if_pos (by rw [Bool.eq_false_iff.mpr valid]; decide)] at stored
    cases stored

/-- What a decoded path is made of: bytes that are allowed, in the segments of the raw one. -/
structure Decodes (raw decoded : Bytes) : Prop where
  valid : ∀ c ∈ decoded, isValidDecodedPathChar c = true
  segments : (segments raw).mapM percentDecode = some (segments decoded)

theorem decodes_nil : Decodes [] [] := ⟨by simp, rfl⟩

theorem decodes_slash {raw decoded : Bytes} (rest : Decodes raw decoded) (valid : isValidDecodedPathChar (ch '/') = true) :
    Decodes (ch '/' :: raw) (ch '/' :: decoded) where
  valid := List.forall_mem_cons.mpr ⟨valid, rest.valid⟩
  segments := by
    rw [segments_slash, segments_slash, List.mapM_cons, rest.segments]
    rfl

theorem decodes_plain {raw decoded : Bytes} {c : Byte} (rest : Decodes raw decoded) (other : c ≠ ch '/') (plain : c ≠ ch '%')
    (valid : isValidDecodedPathChar c = true) : Decodes (c :: raw) (c :: decoded) where
  valid := List.forall_mem_cons.mpr ⟨valid, rest.valid⟩
  segments := by
    rw [segments_cons other, segments_cons other]
    exact mapM_modifyHead (percentDecode_plain plain) rest.segments

theorem decodes_octet {raw decoded : Bytes} {hi lo : Byte} {octet : Nat} (rest : Decodes raw decoded)
    (digits : percentOctet [hi, lo] = some octet) (other : UInt8.ofNat octet ≠ ch '/')
    (valid : isValidDecodedPathChar (UInt8.ofNat octet) = true) :
    Decodes (ch '%' :: hi :: lo :: raw) (UInt8.ofNat octet :: decoded) where
  valid := List.forall_mem_cons.mpr ⟨valid, rest.valid⟩
  segments := by
    rcases percentOctet_spec digits with ⟨high, low⟩
    have joined : segments (ch '%' :: hi :: lo :: raw) = (segments raw).modifyHead fun s => ch '%' :: hi :: lo :: s := by
      rw [segments_cons (by decide), segments_cons high, segments_cons low]
      cases segments raw <;> rfl
    rw [joined, segments_cons other]
    exact mapM_modifyHead (percentDecode_octet digits) rest.segments

theorem decodePathFrom_decodes {room : Nat} {out raw path : Bytes} (decoded : decodePathFrom room out raw = some path) :
    ∃ tail, path = out ++ tail ∧ Decodes raw tail := by
  fun_induction decodePathFrom room out raw generalizing path with
  | case1 out =>
    cases decoded
    exact ⟨[], (List.append_nil _).symm, decodes_nil⟩
  | case2 out hi lo tail malformed => cases decoded
  | case3 out hi lo tail octet digits slash => cases decoded
  | case4 out hi lo tail octet digits other ih =>
    rcases Option.bind_eq_some_iff.mp decoded with ⟨out', stored, rest⟩
    rcases storePathByte_some stored with ⟨valid, rfl⟩
    rcases ih _ rest with ⟨end_, rfl, decodes⟩
    exact ⟨UInt8.ofNat octet :: end_, by simp, decodes_octet decodes digits (fun slash => other (Or.inl slash)) valid⟩
  | case5 out rest short => cases decoded
  | case6 out c rest plain ih =>
    rcases Option.bind_eq_some_iff.mp decoded with ⟨out', stored, more⟩
    rcases storePathByte_some stored with ⟨valid, rfl⟩
    rcases ih _ more with ⟨end_, rfl, decodes⟩
    refine ⟨c :: end_, by simp, ?_⟩
    by_cases slash : c = ch '/'
    · rw [slash] at valid ⊢
      exact decodes_slash decodes valid
    · exact decodes_plain decodes slash plain valid

theorem valid_clean {c : Byte} (valid : isValidDecodedPathChar c = true) : ¬ (c < 0x20 ∨ c = 0x7F) ∧ c ≠ ch '\\' := by
  unfold isValidDecodedPathChar at valid
  rcases (Bool.and_eq_true_iff.mp valid) with ⟨printable, allowed⟩
  constructor
  · simpa using printable
  · rintro rfl
    exact absurd allowed (by decide)

theorem segments_undotted {path : Bytes} (rooted : path.head? = some (ch '/')) (undotted : hasDotSegment path = false) :
    ∀ segment ∈ segments path, segment ≠ ascii "." ∧ segment ≠ ascii ".." := by
  cases path with
  | nil => cases rooted
  | cons c rest =>
    rw [Option.some.inj rooted] at undotted ⊢
    unfold hasDotSegment at undotted
    rw [if_pos (show (ch '/' :: rest).head? = some (ch '/') from rfl)] at undotted
    rw [segments_slash]
    intro segment member
    rcases List.mem_cons.mp member with rfl | later
    · decide
    · have clear := List.any_eq_false.mp undotted segment later
      rw [decide_eq_true_eq, not_or] at clear
      exact clear

structure Confined (raw path : Bytes) : Prop where
  rooted : path.head? = some (ch '/')
  undotted : ∀ segment ∈ segments path, segment ≠ ascii "." ∧ segment ≠ ascii ".."
  clean : ∀ c ∈ path, ¬ (c < 0x20 ∨ c = 0x7F) ∧ c ≠ ch '\\'
  segments : (segments raw).mapM percentDecode = some (segments path)

theorem decodePath_confined {raw path : Bytes} {dstCap : Nat} (decoded : decodePath raw dstCap = some path)
    (undotted : hasDotSegment path = false) : Confined raw path := by
  unfold decodePath at decoded
  split at decoded
  · cases decoded
  · rcases Option.filter_eq_some_iff.mp decoded with ⟨read, rooted⟩
    rcases decodePathFrom_decodes read with ⟨tail, rfl, decodes⟩
    have slash : path.head? = some (ch '/') := of_decide_eq_true rooted
    exact ⟨slash, segments_undotted slash undotted, fun c member => valid_clean (decodes.valid c member), decodes.segments⟩

theorem serverRequestFromParsed_path {parsed : Request} {req : ServerRequest}
    (converted : serverRequestFromParsed parsed = some req) :
    decodePath (rawPath parsed.target) pathSize = some req.path ∧ hasDotSegment req.path = false := by
  rcases serverRequestFromParsed_eq_some.mp converted with ⟨_, decoded, undotted, _⟩
  exact ⟨decoded, undotted⟩

/-- What a complete request was read from: its target is the one on the first line, its headers are those of the lines. -/
theorem reads_request_head {stream : Bytes} (complete : ((freshCore false).reads stream).1.status = .complete) :
    ∃ (head : Head) (rest : Bytes), stream = head.bytes ++ rest ∧ head.Accepted false ∧ RequestLine head.start ∧
      ((freshCore false).reads stream).1.request.target = targetOf head.start ∧
      ((freshCore false).reads stream).1.request.headers = head.headers := by
  rcases reads_complete_head complete with ⟨head, rest, split⟩
  refine ⟨head, rest, split, ?_⟩
  rw [split] at complete ⊢
  rcases reads_head false head rest with ⟨q, accepted, taken, read⟩ | ⟨_, failed⟩
  · have data := (resume_finish (q.takingAll head.fields) rest).1
    rw [← read] at data
    rcases started_spec taken with ⟨_, mode, none_, _⟩
    have kept : ((freshCore false).reads (head.bytes ++ rest)).1.startData = q.startData :=
      (congrArg Prod.fst data).trans (takingAll_startData q head.fields)
    have fields : ((freshCore false).reads (head.bytes ++ rest)).1.activeHeaders = head.headers := by
      refine (congrArg (fun d => d.2.1) data).trans ?_
      show (q.takingAll head.fields).activeHeaders = _
      rw [takingAll_activeHeaders, none_, List.nil_append]
      rfl
    rcases Option.map_eq_some_iff.mp (show (parseRequestLine head.start {}).toOption.map _ = some q from taken) with
      ⟨request, parsed, rfl⟩
    have target := (parseRequestLine_keeps (Outcome.ok_of_toOption parsed)).2.2.2.2
    have mode_ : ((freshCore false).reads (head.bytes ++ rest)).1.responseMode = false := (congrArg Prod.fst kept).trans mode
    unfold ParserCore.activeHeaders at fields
    rw [mode_, if_neg Bool.false_ne_true] at fields
    exact ⟨accepted, (parseRequestLine_ok.mp (Outcome.ok_of_toOption parsed)).1, (congrArg (fun d => d.2.1.target) kept).trans target,
      fields⟩
  · rw [status_error.mpr failed] at complete
    cases complete

theorem reads_target {stream : Bytes} (complete : ((freshCore false).reads stream).1.status = .complete) :
    ∃ (head : Head) (rest : Bytes), stream = head.bytes ++ rest ∧
      ((freshCore false).reads stream).1.request.target = targetOf head.start := by
  rcases reads_request_head complete with ⟨head, rest, split, _, _, target, _⟩
  exact ⟨head, rest, split, target⟩

/-- The path of a request that was accepted from a stream is confined, and its segments are those of the path on
    the stream's first line. -/
theorem path_confined (fragments : List Bytes) (req : ServerRequest)
    (accepted : (feedFragments (freshParser false) fragments).1 = .complete)
    (converted : serverRequestFromParsed (feedFragments (freshParser false) fragments).2.1.request = some req) :
    ∃ (head : Head) (rest : Bytes), fragments.flatten = head.bytes ++ rest ∧
      Confined (rawPath (targetOf head.start)) req.path := by
  rcases feedFragments_reads false fragments with ⟨status, core, _⟩
  rw [status] at accepted
  rcases reads_target accepted with ⟨head, rest, split, target⟩
  rcases serverRequestFromParsed_path converted with ⟨decoded, undotted⟩
  rw [← core] at target
  have line : (feedFragments (freshParser false) fragments).2.1.request.target = targetOf head.start := target
  rw [line] at decoded
  exact ⟨head, rest, split, decodePath_confined decoded undotted⟩

def encodedPathStream : List Bytes := [ascii "GET /a%3Fb/%2", ascii "e%2Ex?c=d HTTP/1.1\r\n\r\n"]

theorem path_confined_encoded : ∃ (head : Head) (rest : Bytes), encodedPathStream.flatten = head.bytes ++ rest ∧
    Confined (rawPath (targetOf head.start)) (ascii "/a?b/..x") := by
  have accepted : (feedFragments (freshParser false) encodedPathStream).1 = .complete := by decide +kernel
  have converted : serverRequestFromParsed (feedFragments (freshParser false) encodedPathStream).2.1.request = some {
      msg := { startLine := ascii "GET /a?b/..x HTTP/1.1" }
      method := ascii "GET"
      path := ascii "/a?b/..x"
      version := ascii "HTTP/1.1"
      query := [(ascii "c", ascii "d")] } := by
    decide +kernel
  exact path_confined encodedPathStream _ accepted converted

end BlueBird.Http
