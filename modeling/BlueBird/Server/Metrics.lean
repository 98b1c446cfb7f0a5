import BlueBird.Encoding.NumberText
import BlueBird.Memory.Writes
import BlueBird.Server.Pipeline
import Mathlib.Algebra.Order.Field.Rat
import Mathlib.Data.UInt
import Mathlib.Tactic.FieldSimp
import Mathlib.Tactic.NormNum

/-! The server's metrics: the counters over a run, and what a reader of the rendered text learns of them. -/

namespace BlueBird.Server

open BlueBird.Http (BbResponse decimal digitByte)
open Memory (Printing)

/-! ## The counters -/

/-- `k_latency_bounds_ms` -/
def latencyBoundsMs : List Nat := [1, 5, 10, 25, 50, 100, 250, 1000]

/-- `bb_metrics_latency_bound_ms` -/
def latencyBoundMs (i : Nat) : Nat := latencyBoundsMs.getD i (2^32 - 1)

/-- `bb_metrics_latency_bucket_index` -/
def latencyBucketIndex (latencyMs : Int) : Fin 9 :=
  ⟨latencyBoundsMs.findIdx fun (bound : Nat) => max latencyMs 0 ≤ (bound : Int),
    Nat.lt_succ_of_le (Nat.le_trans List.findIdx_le_length (by decide))⟩

/-- The index that `bb_metrics_observe_request` counts a status under. -/
def statusClass (statusCode : Int) : Fin 6 :=
  if within : ¬(statusCode < 100 ∨ 5 < statusCode.tdiv 100) then
    ⟨(statusCode.tdiv 100).toNat, by omega⟩
  else 0

/-- `bb_metrics_t` -/
structure Metrics where
  connectionsAcceptedTotal : UInt64 := 0
  wsSessionsOpenedTotal : UInt64 := 0
  requestsTotal : UInt64 := 0
  responsesByClass : Fin 6 → UInt64 := fun _ => 0
  latencyBucket : Fin 9 → UInt64 := fun _ => 0
  latencyCount : UInt64 := 0
  latencySumMs : UInt64 := 0

namespace Metrics

def onConnectionAccepted (m : Metrics) : Metrics := { m with connectionsAcceptedTotal := m.connectionsAcceptedTotal + 1 }

def onWsSessionOpened (m : Metrics) : Metrics := { m with wsSessionsOpenedTotal := m.wsSessionsOpenedTotal + 1 }

def observeRequest (m : Metrics) (statusCode latencyMs : Int) : Metrics :=
  let latencyMs := max latencyMs 0
  let cls := statusClass statusCode
  let bucket := latencyBucketIndex latencyMs
  { m with
    requestsTotal := m.requestsTotal + 1
    responsesByClass := fun c => if c = cls then m.responsesByClass c + 1 else m.responsesByClass c
    latencyBucket := fun i => if i = bucket then m.latencyBucket i + 1 else m.latencyBucket i
    latencyCount := m.latencyCount + 1
    latencySumMs := m.latencySumMs + UInt64.ofNat latencyMs.toNat }

end Metrics

inductive Observation where
  | connectionAccepted
  | wsSessionOpened
  | request (statusCode latencyMs : Int)
  deriving DecidableEq, Repr

def Metrics.observe (m : Metrics) : Observation → Metrics
  | .connectionAccepted => m.onConnectionAccepted
  | .wsSessionOpened => m.onWsSessionOpened
  | .request statusCode latencyMs => m.observeRequest statusCode latencyMs

def Metrics.after (history : List Observation) : Metrics := history.foldl Metrics.observe {}

/-- `bb_metrics_snapshot_t` -/
structure MetricsSnapshot where
  counters : Metrics
  activeConnections : UInt64
  activeWsSessions : UInt64

/-! ## The text -/

/-- `%03llu` of what is left of a second, without the zeros at its end. -/
def fmtFraction (frac : Nat) : Bytes :=
  [digitByte (frac / 100), digitByte (frac / 10 % 10), digitByte (frac % 10)].rdropWhile (· = ch '0')

/-- `fmt_seconds` -/
def fmtSeconds (ms : UInt64) : Bytes :=
  let whole := ms.toNat / 1000
  let frac := ms.toNat % 1000
  if frac = 0 then decimal whole else decimal whole ++ ch '.' :: fmtFraction frac

/-- `out_metric_header` -/
def metricHeader (name type help : String) : Bytes :=
  ascii "# HELP " ++ ascii name ++ ascii " " ++ ascii help ++ ascii "\n# TYPE " ++ ascii name ++ ascii " " ++ ascii type ++ ascii "\n"

/-- A sample without a label. -/
def sampleLine (name : String) (value : Bytes) : Bytes := ascii name ++ ascii " " ++ value ++ ascii "\n"

def labelledLine (name label : String) (of value : Bytes) : Bytes :=
  ascii name ++ ascii "\x7b" ++ ascii label ++ ascii "=\"" ++ of ++ ascii "\"\x7d " ++ value ++ ascii "\n"

/-- `k_class_labels` -/
def classLabels : Fin 6 → String
  | 0 => "other"
  | 1 => "1xx"
  | 2 => "2xx"
  | 3 => "3xx"
  | 4 => "4xx"
  | 5 => "5xx"

def bucketLine (i : Fin 9) (cumulative : UInt64) : Bytes :=
  labelledLine "bluebird_http_request_duration_seconds_bucket" "le"
    (if i.val < 8 then fmtSeconds (UInt64.ofNat (latencyBoundMs i.val)) else ascii "+Inf") (decimal cumulative.toNat)

def bucketLines (m : Metrics) : UInt64 → List (Fin 9) → List Bytes
  | _, [] => []
  | cumulative, i :: rest => bucketLine i (cumulative + m.latencyBucket i) :: bucketLines m (cumulative + m.latencyBucket i) rest

/-- What `bb_metrics_render_prometheus` prints, call by call. -/
def prometheusPieces (snap : MetricsSnapshot) : List Bytes :=
  let m := snap.counters
  [metricHeader "bluebird_http_connections_active" "gauge"
      "Open HTTP connections (connections upgraded to WebSocket are not counted).",
    sampleLine "bluebird_http_connections_active" (decimal snap.activeConnections.toNat),
    metricHeader "bluebird_websocket_sessions_active" "gauge" "Open WebSocket sessions.",
    sampleLine "bluebird_websocket_sessions_active" (decimal snap.activeWsSessions.toNat),
    metricHeader "bluebird_connections_accepted_total" "counter" "TCP connections accepted since server start.",
    sampleLine "bluebird_connections_accepted_total" (decimal m.connectionsAcceptedTotal.toNat),
    metricHeader "bluebird_websocket_sessions_opened_total" "counter" "WebSocket sessions opened since server start.",
    sampleLine "bluebird_websocket_sessions_opened_total" (decimal m.wsSessionsOpenedTotal.toNat),
    metricHeader "bluebird_http_requests_total" "counter" "HTTP requests answered, by response status class."] ++
  ([1, 2, 3, 4, 5, 0].map fun cls =>
    labelledLine "bluebird_http_requests_total" "status_class" (ascii (classLabels cls)) (decimal (m.responsesByClass cls).toNat)) ++
  metricHeader "bluebird_http_request_duration_seconds" "histogram"
    "Time from the first read of a request to its response being queued (excludes the socket write)." ::
  bucketLines m 0 (List.finRange 9) ++
  [sampleLine "bluebird_http_request_duration_seconds_sum" (fmtSeconds m.latencySumMs),
    sampleLine "bluebird_http_request_duration_seconds_count" (decimal m.latencyCount.toNat)]

/-- `bb_metrics_render_prometheus`, with the buffer that is left; its result is the length. -/
def renderPrometheus (snap : Option MetricsSnapshot) (buf : Bytes) : Printing Byte :=
  let emptied : Printing Byte := { cells := if buf.isEmpty then [] else 0 :: buf.tail }
  match snap with
  | none => emptied
  | some snap => emptied.printAll (prometheusPieces snap)

def errAlloc : Int32 := 1

/-- `_metrics_route_handler`. `malloc` gives memory with something in it. -/
def metricsRouteHandler (malloc : Nat → Option Bytes) (snap : MetricsSnapshot) (res : BbResponse) : BbResponse × Option BbError :=
  let len := (renderPrometheus (some snap) []).length
  match malloc (len + 1) with
  | none => (res, some { code := errAlloc, msg := ascii "Failed to allocate metrics body." })
  | some memory =>
    let body := (renderPrometheus (some snap) memory).cells
    let res := responseSetHeader { res with statusCode := 200 } (ascii "Content-Type") (ascii "text/plain; version=0.0.4; charset=utf-8")
    ({ res with msg := { res.msg with body := (Memory.stringAt body).getD [] } }, none)

/-! ## What a reader of the format makes of a text -/

inductive ExpositionLine where
  | help (name text : Bytes)
  | type (name kind : Bytes)
  | sample (name : Bytes) (label : Option (Bytes × Bytes)) (value : ℚ)
  deriving DecidableEq

def isNameByte (c : Byte) : Bool := (ch 'a' ≤ c && c ≤ ch 'z') || (ch 'A' ≤ c && c ≤ ch 'Z') || isDigit c || c == ch '_' || c == ch ':'

/-- A decimal number, with or without a fraction. -/
def readNumber (text : Bytes) : Option ℚ :=
  let whole := text.takeWhile isDigit
  if whole = [] then none
  else match text.dropWhile isDigit with
    | [] => some (NumberText.number whole)
    | c :: frac =>
      if c = ch '.' ∧ frac ≠ [] ∧ frac.all isDigit = true then
        some (NumberText.number whole + NumberText.number frac / 10 ^ frac.length)
      else none

/-- A name and what is behind the space after it. -/
def readNamed (text : Bytes) : Option (Bytes × Bytes) :=
  match text.dropWhile isNameByte with
  | c :: rest => if c = ch ' ' then some (text.takeWhile isNameByte, rest) else none
  | [] => none

/-- A label between braces, whose value needs no escape, and what is behind the space after it. -/
def readLabel (text : Bytes) : Option ((Bytes × Bytes) × Bytes) :=
  let key := text.takeWhile isNameByte
  let quoted := text.dropWhile isNameByte
  if (ascii "=\"").isPrefixOf quoted then
    let of := (quoted.drop 2).takeWhile (· ≠ ch '"')
    let rest := (quoted.drop 2).dropWhile (· ≠ ch '"')
    if (ascii "\"\x7d ").isPrefixOf rest then some ((key, of), rest.drop 3) else none
  else none

def readLine (line : Bytes) : Option ExpositionLine :=
  if (ascii "# HELP ").isPrefixOf line then (readNamed (line.drop 7)).map fun named => .help named.1 named.2
  else if (ascii "# TYPE ").isPrefixOf line then (readNamed (line.drop 7)).map fun named => .type named.1 named.2
  else
    let name := line.takeWhile isNameByte
    match line.dropWhile isNameByte with
    | [] => none
    | c :: rest =>
      if c = ch ' ' then (readNumber rest).map (.sample name none)
      else if c = ch '{' then do
        let (label, value) ← readLabel rest
        (readNumber value).map (.sample name (some label))
      else none

def readExposition (text : Bytes) : Option (List ExpositionLine) :=
  let lines := text.splitOn (ch '\n')
  if lines.getLast? = some [] then lines.dropLast.mapM readLine else none

/-! ## Numbers -/

theorem readNumber_decimal (n : Nat) : readNumber (decimal n) = some (n : ℚ) := by
  have digits := Http.decimal_isDigit n
  have all := @NumberText.takeWhile_dropWhile_append _ _ [] digits (by simp)
  rw [List.append_nil] at all
  unfold readNumber
  rw [all.1, all.2]
  dsimp only
  rw [if_neg (Http.decimal_ne_nil n), NumberText.number_decimal]

theorem digitByte_eq_zero {d : Nat} (small : d < 10) : digitByte d = ch '0' ↔ d = 0 := by
  have each : ∀ f : Fin 10, digitByte f.val = ch '0' ↔ f.val = 0 := by decide
  exact each ⟨d, small⟩

theorem number_fraction (frac : Nat) (small : frac < 1000) (some_ : frac ≠ 0) :
    fmtFraction frac ≠ [] ∧ (fmtFraction frac).all isDigit = true ∧
      NumberText.number (fmtFraction frac) * 10 ^ (3 - (fmtFraction frac).length) = frac ∧ (fmtFraction frac).length ≤ 3 := by
  have hundreds : frac / 100 < 10 := by omega
  have tens : frac / 10 % 10 < 10 := Nat.mod_lt _ (by decide)
  have ones : frac % 10 < 10 := Nat.mod_lt _ (by decide)
  have values := @Http.digitValue_digitByte
  have digits := @Http.isDigit_digitByte
  unfold fmtFraction
  by_cases last : frac % 10 = 0
  · by_cases middle : frac / 10 % 10 = 0
    · have first : frac / 100 ≠ 0 := by omega
      have text : [digitByte (frac / 100), digitByte (frac / 10 % 10), digitByte (frac % 10)].rdropWhile (· = ch '0') =
          [digitByte (frac / 100)] := by
        simp [List.rdropWhile, digitByte_eq_zero, hundreds, first, middle, last]
      rw [text]
      simp [NumberText.number, values hundreds, digits hundreds]
      omega
    · have text : [digitByte (frac / 100), digitByte (frac / 10 % 10), digitByte (frac % 10)].rdropWhile (· = ch '0') =
          [digitByte (frac / 100), digitByte (frac / 10 % 10)] := by
        simp [List.rdropWhile, digitByte_eq_zero, tens, middle, last]
      rw [text]
      simp [NumberText.number, values hundreds, digits hundreds, values tens, digits tens]
      omega
  · have text : [digitByte (frac / 100), digitByte (frac / 10 % 10), digitByte (frac % 10)].rdropWhile (· = ch '0') =
        [digitByte (frac / 100), digitByte (frac / 10 % 10), digitByte (frac % 10)] := by
      simp [List.rdropWhile, digitByte_eq_zero, ones, last]
    rw [text]
    simp [NumberText.number, values hundreds, digits hundreds, values tens, digits tens, values ones, digits ones]
    omega

theorem readNumber_fmtSeconds (ms : UInt64) : readNumber (fmtSeconds ms) = some (ms.toNat / 1000 : ℚ) := by
  have divided : (ms.toNat : ℚ) = (ms.toNat / 1000 : Nat) * 1000 + (ms.toNat % 1000 : Nat) := by
    exact_mod_cast (Nat.div_add_mod' ms.toNat 1000).symm
  unfold fmtSeconds
  dsimp only
  by_cases whole : ms.toNat % 1000 = 0
  · rw [if_pos whole, readNumber_decimal, divided, whole, Nat.cast_zero, add_zero, mul_div_cancel_right₀ _ (by norm_num)]
  · rw [if_neg whole]
    rcases number_fraction (ms.toNat % 1000) (Nat.mod_lt _ (by decide)) whole with ⟨nonempty, digits, value, short⟩
    have stop : ∀ c ∈ (ch '.' :: fmtFraction (ms.toNat % 1000)).head?, isDigit c = false := by
      intro c here
      cases here
      decide
    have split := NumberText.takeWhile_dropWhile_append (Http.decimal_isDigit (ms.toNat / 1000)) stop
    have scale : (10 : ℚ) ^ (fmtFraction (ms.toNat % 1000)).length * 10 ^ (3 - (fmtFraction (ms.toNat % 1000)).length) = 1000 := by
      rw [← pow_add, Nat.add_sub_cancel' short]
      norm_num
    have part : (NumberText.number (fmtFraction (ms.toNat % 1000)) : ℚ) *
        10 ^ (3 - (fmtFraction (ms.toNat % 1000)).length) = (ms.toNat % 1000 : Nat) := by
      exact_mod_cast value
    unfold readNumber
    rw [split.1, split.2]
    dsimp only
    rw [if_neg (Http.decimal_ne_nil _), if_pos ⟨rfl, nonempty, digits⟩, NumberText.number_decimal]
    congr 1
    rw [divided, add_div, mul_div_cancel_right₀ _ (by norm_num), ← part, ← scale, mul_div_mul_right _ _ (by positivity)]

/-! ## Texts by their lines -/

def OneLine (bytes : Bytes) : Prop := ∀ c ∈ bytes, c ≠ ch '\n' ∧ c ≠ 0

instance (bytes : Bytes) : Decidable (OneLine bytes) := List.decidableBAll _ bytes

theorem oneLine_append {front back : Bytes} (inFront : OneLine front) (inBack : OneLine back) : OneLine (front ++ back) := by
  intro c member
  rcases List.mem_append.mp member with here | there
  · exact inFront c here
  · exact inBack c there

theorem oneLine_cons {c : Byte} {rest : Bytes} (plain : c ≠ ch '\n' ∧ c ≠ 0) (inRest : OneLine rest) : OneLine (c :: rest) := by
  intro d member
  rcases List.mem_cons.mp member with rfl | later
  · exact plain
  · exact inRest d later

def Reads (text : Bytes) (lines : List ExpositionLine) : Prop := ∃ parts : List Bytes,
  text = (parts.map (· ++ [ch '\n'])).flatten ∧ (∀ part ∈ parts, OneLine part) ∧ parts.mapM readLine = some lines

theorem reads_nil : Reads [] [] := ⟨[], rfl, by simp, rfl⟩

theorem reads_append {text text' : Bytes} {lines lines' : List ExpositionLine} (first : Reads text lines)
    (second : Reads text' lines') : Reads (text ++ text') (lines ++ lines') := by
  rcases first with ⟨parts, rfl, clean, read⟩
  rcases second with ⟨parts', rfl, clean', read'⟩
  refine ⟨parts ++ parts', by rw [List.map_append, List.flatten_append], ?_, ?_⟩
  · intro part member
    rcases List.mem_append.mp member with here | there
    · exact clean part here
    · exact clean' part there
  · rw [List.mapM_append, read, read']
    rfl

theorem reads_one {line : Bytes} {read : ExpositionLine} (clean : OneLine line) (means : readLine line = some read) :
    Reads (line ++ [ch '\n']) [read] := by
  refine ⟨[line], by simp, by simpa using clean, ?_⟩
  rw [List.mapM_cons, means]
  rfl

theorem reads_flatten {α : Type} {xs : List α} {text : α → Bytes} {line : α → ExpositionLine}
    (each : ∀ x ∈ xs, Reads (text x) [line x]) : Reads (xs.map text).flatten (xs.map line) := by
  induction xs with
  | nil => exact reads_nil
  | cons x xs ih =>
    rw [List.map_cons, List.flatten_cons, List.map_cons]
    exact reads_append (each x (List.mem_cons_self ..)) (ih fun y member => each y (List.mem_cons_of_mem x member))

theorem readExposition_reads {text : Bytes} {lines : List ExpositionLine} (reads : Reads text lines) :
    readExposition text = some lines := by
  rcases reads with ⟨parts, rfl, clean, read⟩
  have split : ((parts.map (· ++ [ch '\n'])).flatten).splitOn (ch '\n') = parts ++ [[]] := by
    clear read
    induction parts with
    | nil => rfl
    | cons part parts ih =>
      have rest := ih fun other member => clean other (List.mem_cons_of_mem part member)
      rw [List.map_cons, List.flatten_cons, List.append_assoc, List.singleton_append,
        List.splitOn_append_cons_self_of_not_mem fun member => (clean part (List.mem_cons_self ..) _ member).1 rfl, rest]
      rfl
  unfold readExposition
  rw [split]
  dsimp only
  rw [if_pos (List.getLast?_concat), List.dropLast_concat]
  exact read

/-! ## The lines that are printed -/

def IsName (name : String) : Prop := name ≠ "" ∧ ∀ c ∈ ascii name, isNameByte c = true

theorem nameByte_plain (c : Byte) : isNameByte c = true → c ≠ ch '#' ∧ c ≠ ch '\n' ∧ c ≠ 0 := by
  revert c
  apply forall_byte
  decide +kernel

theorem isName_ofList {cs : List Char} (nonempty : cs ≠ []) (plain : (cs.all fun c => isNameByte c.toUInt8) = true) :
    IsName (String.ofList cs) := by
  constructor
  · intro empty
    apply nonempty
    rw [← @String.toList_ofList cs, empty]
    rfl
  · unfold ascii
    rw [String.toList_ofList]
    intro b member
    rcases List.mem_map.mp member with ⟨c, inside, rfl⟩
    exact List.all_eq_true.mp plain c inside

theorem oneLine_ofList {cs : List Char} (plain : (cs.all fun c => c.toUInt8 ≠ ch '\n' ∧ c.toUInt8 ≠ 0) = true) :
    OneLine (ascii (String.ofList cs)) := by
  unfold ascii
  rw [String.toList_ofList]
  intro b member
  rcases List.mem_map.mp member with ⟨c, inside, rfl⟩
  exact of_decide_eq_true (List.all_eq_true.mp plain c inside)

theorem split_name {name : String} (valid : IsName name) {c : Byte} (other : isNameByte c = false) (rest : Bytes) :
    (ascii name ++ c :: rest).takeWhile isNameByte = ascii name ∧ (ascii name ++ c :: rest).dropWhile isNameByte = c :: rest := by
  apply NumberText.takeWhile_dropWhile_append valid.2
  intro d here
  cases here
  exact other

theorem notComment {name : String} (valid : IsName name) (rest : Bytes) (word : String) :
    ((ascii "# " ++ ascii word).isPrefixOf (ascii name ++ rest)) = false := by
  cases letters : ascii name with
  | nil =>
    exfalso
    apply valid.1
    unfold ascii at letters
    rw [List.map_eq_nil_iff] at letters
    exact String.toList_eq_nil_iff.mp letters
  | cons c more =>
    have plain := (nameByte_plain c (valid.2 c (by rw [letters]; exact List.mem_cons_self ..))).1
    show (ch '#' == c && _) = false
    rw [beq_eq_false_iff_ne.mpr (Ne.symm plain)]
    rfl

theorem oneLine_name {name : String} (valid : IsName name) : OneLine (ascii name) :=
  fun c member => (nameByte_plain c (valid.2 c member)).2

theorem reads_sampleLine {name : String} (valid : IsName name) {text : Bytes} {value : ℚ} (number : readNumber text = some value)
    (clean : OneLine text) : Reads (sampleLine name text) [.sample (ascii name) none value] := by
  have line : sampleLine name text = (ascii name ++ ch ' ' :: text) ++ [ch '\n'] := by
    unfold sampleLine
    rw [show ascii " " = [ch ' '] from rfl, show ascii "\n" = [ch '\n'] from rfl]
    simp
  rw [line]
  apply reads_one
  · exact oneLine_append (oneLine_name valid) (oneLine_cons (by decide) clean)
  · have parts := split_name valid (show isNameByte (ch ' ') = false by decide) text
    unfold readLine
    rw [show ascii "# HELP " = ascii "# " ++ ascii "HELP " from by decide, notComment valid,
      show ascii "# TYPE " = ascii "# " ++ ascii "TYPE " from by decide, notComment valid, parts.1, parts.2]
    simp [number]

theorem reads_labelledLine {name label : String} (valid : IsName name) (key : IsName label) {of text : Bytes} {value : ℚ}
    (plain : ch '"' ∉ of ∧ OneLine of) (number : readNumber text = some value) (clean : OneLine text) :
    Reads (labelledLine name label of text) [.sample (ascii name) (some (ascii label, of)) value] := by
  have line : labelledLine name label of text =
      (ascii name ++ ch '{' :: (ascii label ++ ch '=' :: (ch '"' :: (of ++ ch '"' :: (ch '}' :: ch ' ' :: text))))) ++ [ch '\n'] := by
    unfold labelledLine
    rw [show ascii "\x7b" = [ch '{'] from rfl, show ascii "=\"" = [ch '=', ch '"'] from rfl,
      show ascii "\"\x7d " = [ch '"', ch '}', ch ' '] from rfl, show ascii "\n" = [ch '\n'] from rfl]
    simp
  rw [line]
  apply reads_one
  · have tail : OneLine (ch '"' :: (ch '}' :: ch ' ' :: text)) :=
      oneLine_cons (by decide) (oneLine_cons (by decide) (oneLine_cons (by decide) clean))
    have quoted : OneLine (ch '=' :: (ch '"' :: (of ++ ch '"' :: (ch '}' :: ch ' ' :: text)))) :=
      oneLine_cons (by decide) (oneLine_cons (by decide) (oneLine_append plain.2 tail))
    exact oneLine_append (oneLine_name valid) (oneLine_cons (by decide) (oneLine_append (oneLine_name key) quoted))
  · have parts := split_name valid (show isNameByte (ch '{') = false by decide)
      (ascii label ++ ch '=' :: (ch '"' :: (of ++ ch '"' :: (ch '}' :: ch ' ' :: text))))
    have keys := split_name key (show isNameByte (ch '=') = false by decide) (ch '"' :: (of ++ ch '"' :: (ch '}' :: ch ' ' :: text)))
    have value_ : (of ++ ch '"' :: (ch '}' :: ch ' ' :: text)).takeWhile (· ≠ ch '"') = of ∧
        (of ++ ch '"' :: (ch '}' :: ch ' ' :: text)).dropWhile (· ≠ ch '"') = ch '"' :: (ch '}' :: ch ' ' :: text) := by
      apply NumberText.takeWhile_dropWhile_append
      · intro c member
        apply decide_eq_true
        rintro rfl
        exact plain.1 member
      · intro c here
        cases here
        decide
    have labels : readLabel (ascii label ++ ch '=' :: (ch '"' :: (of ++ ch '"' :: (ch '}' :: ch ' ' :: text)))) =
        some ((ascii label, of), text) := by
      unfold readLabel
      rw [keys.1, keys.2]
      dsimp only
      rw [if_pos (by simp [show ascii "=\"" = [ch '=', ch '"'] from rfl])]
      rw [show (ch '=' :: ch '"' :: (of ++ ch '"' :: (ch '}' :: ch ' ' :: text))).drop 2 = of ++ ch '"' :: (ch '}' :: ch ' ' :: text)
        from rfl, value_.1, value_.2, if_pos (by simp [show ascii "\"\x7d " = [ch '"', ch '}', ch ' '] from rfl])]
      rfl
    unfold readLine
    rw [show ascii "# HELP " = ascii "# " ++ ascii "HELP " from by decide, notComment valid,
      show ascii "# TYPE " = ascii "# " ++ ascii "TYPE " from by decide, notComment valid, parts.1, parts.2]
    dsimp only
    rw [if_neg Bool.false_ne_true, if_neg Bool.false_ne_true, if_neg (by decide), if_pos rfl, labels]
    simp [number]

theorem reads_metricHeader {name type help : String} (valid : IsName name) (cleanType : OneLine (ascii type))
    (cleanHelp : OneLine (ascii help)) :
    Reads (metricHeader name type help) [.help (ascii name) (ascii help), .type (ascii name) (ascii type)] := by
  have lines : metricHeader name type help = ((ascii "# HELP " ++ (ascii name ++ ch ' ' :: ascii help)) ++ [ch '\n']) ++
      ((ascii "# TYPE " ++ (ascii name ++ ch ' ' :: ascii type)) ++ [ch '\n']) := by
    unfold metricHeader
    rw [show ascii " " = [ch ' '] from rfl, show ascii "\n# TYPE " = ch '\n' :: ascii "# TYPE " from by decide,
      show ascii "\n" = [ch '\n'] from rfl]
    simp
  have named (rest : Bytes) : readNamed (ascii name ++ ch ' ' :: rest) = some (ascii name, rest) := by
    have parts := split_name valid (show isNameByte (ch ' ') = false by decide) rest
    unfold readNamed
    rw [parts.1, parts.2]
    exact if_pos rfl
  have clean (word rest : Bytes) (inWord : OneLine word) (inRest : OneLine rest) :
      OneLine (word ++ (ascii name ++ ch ' ' :: rest)) :=
    oneLine_append inWord (oneLine_append (oneLine_name valid) (oneLine_cons (by decide) inRest))
  rw [lines]
  apply @reads_append _ _ [_] [_]
  · apply reads_one (clean _ _ (by decide) cleanHelp)
    unfold readLine
    rw [if_pos (by rw [List.isPrefixOf_iff_prefix]; exact List.prefix_append _ _), List.drop_left' (by decide), named]
    rfl
  · apply reads_one (clean _ _ (by decide) cleanType)
    have other : (ascii "# HELP ").isPrefixOf (ascii "# TYPE " ++ (ascii name ++ ch ' ' :: ascii type)) = false := rfl
    unfold readLine
    rw [other, if_neg Bool.false_ne_true, if_pos (by rw [List.isPrefixOf_iff_prefix]; exact List.prefix_append _ _),
      List.drop_left' (by decide), named]
    rfl

theorem clean_of_reads {text : Bytes} {lines : List ExpositionLine} (reads : Reads text lines) : 0 ∉ text := by
  rcases reads with ⟨parts, rfl, clean, _⟩
  intro member
  rcases List.mem_flatten.mp member with ⟨_, listed, inside⟩
  rcases List.mem_map.mp listed with ⟨part, here, rfl⟩
  rcases List.mem_append.mp inside with inPart | lineFeed
  · exact (clean part here 0 inPart).2 rfl
  · revert lineFeed
    decide

/-! ## The counters over a run -/

def requestsOf (history : List Observation) : List (Int × Int) :=
  history.filterMap fun
    | .request statusCode latencyMs => some (statusCode, latencyMs)
    | _ => none

def ofClass (history : List Observation) (cls : Fin 6) : Nat := (requestsOf history).countP fun r => statusClass r.1 = cls

/-- The requests that took at most so long. A clock that went back counts as no time. -/
def answeredWithin (history : List Observation) (boundMs : Nat) : Nat := (requestsOf history).countP fun r => r.2 ≤ (boundMs : Int)

def totalMs (history : List Observation) : Nat := ((requestsOf history).map fun r => r.2.toNat).sum

structure Metrics.Counts (m : Metrics) (history : List Observation) : Prop where
  accepted : m.connectionsAcceptedTotal = UInt64.ofNat (history.count .connectionAccepted)
  opened : m.wsSessionsOpenedTotal = UInt64.ofNat (history.count .wsSessionOpened)
  requests : m.requestsTotal = UInt64.ofNat (requestsOf history).length
  classes : ∀ cls, m.responsesByClass cls = UInt64.ofNat (ofClass history cls)
  buckets : ∀ i, m.latencyBucket i = UInt64.ofNat ((requestsOf history).countP fun r => latencyBucketIndex r.2 = i)
  count : m.latencyCount = UInt64.ofNat (requestsOf history).length
  sum : m.latencySumMs = UInt64.ofNat (totalMs history)

theorem latencyBucketIndex_max (latencyMs : Int) : latencyBucketIndex (max latencyMs 0) = latencyBucketIndex latencyMs := by
  apply Fin.ext
  show latencyBoundsMs.findIdx (fun (bound : Nat) => max (max latencyMs 0) 0 ≤ (bound : Int)) = _
  rw [max_assoc, max_self]
  rfl

theorem counts_unrequested {m : Metrics} {history : List Observation} (counts : m.Counts history) {observation : Observation}
    (none_ : requestsOf [observation] = []) {accepted opened : UInt64}
    (kept : m.observe observation = { m with connectionsAcceptedTotal := accepted, wsSessionsOpenedTotal := opened })
    (acceptedAfter : accepted = UInt64.ofNat ((history ++ [observation]).count .connectionAccepted))
    (openedAfter : opened = UInt64.ofNat ((history ++ [observation]).count .wsSessionOpened)) :
    (m.observe observation).Counts (history ++ [observation]) := by
  have same : requestsOf (history ++ [observation]) = requestsOf history := by
    unfold requestsOf at none_ ⊢
    rw [List.filterMap_append, none_, List.append_nil]
  rcases counts with ⟨_, _, requests, classes, buckets, count, sum⟩
  unfold ofClass at classes
  unfold totalMs at sum
  rw [kept]
  constructor
  · exact acceptedAfter
  · exact openedAfter
  · rw [same]
    exact requests
  · unfold ofClass
    rw [same]
    exact classes
  · rw [same]
    exact buckets
  · rw [same]
    exact count
  · unfold totalMs
    rw [same]
    exact sum

theorem counts_request {m : Metrics} {history : List Observation} (counts : m.Counts history) (statusCode latencyMs : Int) :
    (m.observeRequest statusCode latencyMs).Counts (history ++ [.request statusCode latencyMs]) := by
  have more : requestsOf (history ++ [.request statusCode latencyMs]) = requestsOf history ++ [(statusCode, latencyMs)] :=
    List.filterMap_append
  have tally (p : Int × Int → Bool) : (requestsOf (history ++ [.request statusCode latencyMs])).countP p =
      (requestsOf history).countP p + if p (statusCode, latencyMs) then 1 else 0 := by
    rw [more, List.countP_append]
    cases here : p (statusCode, latencyMs) with
    | false => rw [List.countP_singleton, here]
    | true => rw [List.countP_singleton, here]
  rcases counts with ⟨accepted, opened, requests, classes, buckets, count, sum⟩
  have length : (requestsOf (history ++ [.request statusCode latencyMs])).length = (requestsOf history).length + 1 := by
    rw [more, List.length_append]
    rfl
  constructor
  · rw [List.count_append]
    exact accepted
  · rw [List.count_append]
    exact opened
  · rw [length, UInt64.ofNat_add]
    exact congrArg (· + 1) requests
  · intro cls
    unfold ofClass
    rw [tally]
    show (if cls = statusClass statusCode then m.responsesByClass cls + 1 else m.responsesByClass cls) = _
    rw [classes]
    by_cases here : statusClass statusCode = cls
    · rw [if_pos here.symm, if_pos (decide_eq_true here), UInt64.ofNat_add]
      rfl
    · rw [if_neg (Ne.symm here), if_neg (by simpa using here), Nat.add_zero]
      rfl
  · intro i
    rw [tally]
    show (if i = latencyBucketIndex (max latencyMs 0) then m.latencyBucket i + 1 else m.latencyBucket i) = _
    rw [buckets, latencyBucketIndex_max]
    by_cases here : latencyBucketIndex latencyMs = i
    · rw [if_pos here.symm, if_pos (decide_eq_true here), UInt64.ofNat_add]
      rfl
    · rw [if_neg (Ne.symm here), if_neg (by simpa using here), Nat.add_zero]
  · rw [length, UInt64.ofNat_add]
    exact congrArg (· + 1) count
  · have total : totalMs (history ++ [.request statusCode latencyMs]) = totalMs history + latencyMs.toNat := by
      unfold totalMs
      rw [more, List.map_append, List.sum_append]
      rfl
    have clamped : (max latencyMs 0).toNat = latencyMs.toNat := by omega
    rw [total, UInt64.ofNat_add]
    show m.latencySumMs + UInt64.ofNat (max latencyMs 0).toNat = _
    rw [sum, clamped]

theorem counts_after (history : List Observation) : (Metrics.after history).Counts history := by
  induction history using List.reverseRecOn with
  | nil => constructor <;> intros <;> rfl
  | append_singleton history observation ih =>
    have next : Metrics.after (history ++ [observation]) = (Metrics.after history).observe observation := List.foldl_concat ..
    rw [next]
    cases observation with
    | connectionAccepted =>
      apply counts_unrequested ih rfl rfl
      · rw [List.count_append, UInt64.ofNat_add, ← ih.accepted]
        rfl
      · rw [List.count_append]
        exact ih.opened
    | wsSessionOpened =>
      apply counts_unrequested ih rfl rfl
      · rw [List.count_append]
        exact ih.accepted
      · rw [List.count_append, UInt64.ofNat_add, ← ih.opened]
        rfl
    | request statusCode latencyMs => exact counts_request ih statusCode latencyMs

/-! ## The histogram -/

theorem latencyBounds_sorted : latencyBoundsMs.Pairwise (· < ·) := by decide

theorem latencyBucketIndex_le {i : Nat} (finite : i < 8) (latencyMs : Int) :
    (latencyBucketIndex latencyMs).val ≤ i ↔ latencyMs ≤ (latencyBoundMs i : Int) := by
  have inside : i < latencyBoundsMs.length := finite
  have bound : latencyBoundMs i = latencyBoundsMs[i] := by
    unfold latencyBoundMs
    rw [List.getD_eq_getElem?_getD, List.getElem?_eq_getElem inside, Option.getD_some]
  show latencyBoundsMs.findIdx (fun (bound : Nat) => max latencyMs 0 ≤ (bound : Int)) ≤ i ↔ _
  rw [bound]
  constructor
  · intro early
    have reached : latencyBoundsMs.findIdx (fun (bound : Nat) => max latencyMs 0 ≤ (bound : Int)) < latencyBoundsMs.length := by omega
    have hit := @List.findIdx_getElem _ (fun (bound : Nat) => decide (max latencyMs 0 ≤ (bound : Int))) latencyBoundsMs reached
    have below := of_decide_eq_true hit
    rcases Nat.lt_or_eq_of_le early with less | same
    · have grows := List.pairwise_iff_getElem.mp latencyBounds_sorted _ _ reached inside less
      omega
    · simp only [same] at below
      omega
  · intro fits
    by_contra late
    have missed := List.not_of_lt_findIdx (Nat.lt_of_not_le late)
    have above := of_decide_eq_false missed
    omega

def inBucketsBefore (history : List Observation) (k : Nat) : Nat :=
  (requestsOf history).countP fun r => (latencyBucketIndex r.2).val < k

theorem inBucketsBefore_succ (history : List Observation) (i : Fin 9) : inBucketsBefore history (i.val + 1) =
    inBucketsBefore history i.val + (requestsOf history).countP fun r => latencyBucketIndex r.2 = i := by
  unfold inBucketsBefore
  induction requestsOf history with
  | nil => rfl
  | cons r rest ih =>
    rw [List.countP_cons, List.countP_cons, List.countP_cons, ih]
    rcases Nat.lt_trichotomy (latencyBucketIndex r.2).val i.val with less | same | more
    · simp [less, Nat.lt_succ_of_lt less, Fin.ne_of_lt (show latencyBucketIndex r.2 < i from less)]
      omega
    · have here : latencyBucketIndex r.2 = i := Fin.ext same
      simp [here]
      omega
    · simp [Nat.not_lt_of_gt more, Nat.not_lt_of_ge (Nat.succ_le_of_lt more),
        Fin.ne_of_gt (show i < latencyBucketIndex r.2 from more)]

theorem bucketLines_after (history : List Observation) {k : Nat} {buckets : List (Fin 9)} (rest : buckets = (List.finRange 9).drop k) :
    bucketLines (Metrics.after history) (UInt64.ofNat (inBucketsBefore history k)) buckets =
      buckets.map fun i => bucketLine i (UInt64.ofNat (inBucketsBefore history (i.val + 1))) := by
  induction buckets generalizing k with
  | nil => rfl
  | cons i buckets ih =>
    have inside : k < 9 := by
      by_contra beyond
      rw [List.drop_of_length_le (by rw [List.length_finRange]; omega)] at rest
      cases rest
    rw [List.drop_eq_getElem_cons (by rw [List.length_finRange]; exact inside)] at rest
    rcases List.cons.inj rest with ⟨here, later⟩
    have place : i.val = k := by
      rw [here, List.getElem_finRange]
      rfl
    have counted := (counts_after history).buckets i
    have total : UInt64.ofNat (inBucketsBefore history k) + (Metrics.after history).latencyBucket i =
        UInt64.ofNat (inBucketsBefore history (i.val + 1)) := by
      rw [counted, ← UInt64.ofNat_add, inBucketsBefore_succ, place]
    rw [bucketLines, total, List.map_cons, place, ih later]

theorem inBucketsBefore_bound (history : List Observation) {i : Nat} (finite : i < 8) :
    inBucketsBefore history (i + 1) = answeredWithin history (latencyBoundMs i) := by
  unfold inBucketsBefore answeredWithin
  apply List.countP_congr
  intro r _
  rw [decide_eq_true_eq, decide_eq_true_eq, Nat.lt_succ_iff, latencyBucketIndex_le finite]

theorem inBucketsBefore_all (history : List Observation) : inBucketsBefore history 9 = (requestsOf history).length := by
  unfold inBucketsBefore
  rw [List.countP_eq_length]
  exact fun r _ => decide_eq_true (latencyBucketIndex r.2).isLt

/-! ## What the text says of the run -/

def shown (n : Nat) : ℚ := (n % 2^64 : Nat)

def family (name kind help : String) (samples : List ExpositionLine) : List ExpositionLine :=
  .help (ascii name) (ascii help) :: .type (ascii name) (ascii kind) :: samples

def boundLabels : List String := ["0.001", "0.005", "0.01", "0.025", "0.05", "0.1", "0.25", "1"]

def exposition (history : List Observation) (activeConnections activeWsSessions : Nat) : List ExpositionLine :=
  family "bluebird_http_connections_active" "gauge"
    "Open HTTP connections (connections upgraded to WebSocket are not counted)."
    [.sample (ascii "bluebird_http_connections_active") none (shown activeConnections)] ++
  family "bluebird_websocket_sessions_active" "gauge" "Open WebSocket sessions."
    [.sample (ascii "bluebird_websocket_sessions_active") none (shown activeWsSessions)] ++
  family "bluebird_connections_accepted_total" "counter" "TCP connections accepted since server start."
    [.sample (ascii "bluebird_connections_accepted_total") none (shown (history.count .connectionAccepted))] ++
  family "bluebird_websocket_sessions_opened_total" "counter" "WebSocket sessions opened since server start."
    [.sample (ascii "bluebird_websocket_sessions_opened_total") none (shown (history.count .wsSessionOpened))] ++
  family "bluebird_http_requests_total" "counter" "HTTP requests answered, by response status class."
    ([1, 2, 3, 4, 5, 0].map fun cls => .sample (ascii "bluebird_http_requests_total")
      (some (ascii "status_class", ascii (classLabels cls))) (shown (ofClass history cls))) ++
  family "bluebird_http_request_duration_seconds" "histogram"
    "Time from the first read of a request to its response being queued (excludes the socket write)."
    ((boundLabels.zip latencyBoundsMs).map fun bound => .sample (ascii "bluebird_http_request_duration_seconds_bucket")
      (some (ascii "le", ascii bound.1)) (shown (answeredWithin history bound.2))) ++
  [.sample (ascii "bluebird_http_request_duration_seconds_bucket") (some (ascii "le", ascii "+Inf"))
      (shown (requestsOf history).length),
    .sample (ascii "bluebird_http_request_duration_seconds_sum") none (shown (totalMs history) / 1000),
    .sample (ascii "bluebird_http_request_duration_seconds_count") none (shown (requestsOf history).length)]

theorem digit_oneLine (c : Byte) : isDigit c = true → c ≠ ch '\n' ∧ c ≠ 0 ∧ c ≠ ch '"' := by
  revert c
  apply forall_byte
  decide +kernel

theorem oneLine_decimal (n : Nat) : OneLine (decimal n) := by
  intro c member
  have plain := digit_oneLine c (Http.decimal_isDigit n c member)
  exact ⟨plain.1, plain.2.1⟩

theorem fmtSeconds_plain (ms : UInt64) : ch '"' ∉ fmtSeconds ms ∧ OneLine (fmtSeconds ms) := by
  have each : ∀ c ∈ fmtSeconds ms, c ≠ ch '\n' ∧ c ≠ 0 ∧ c ≠ ch '"' := by
    intro c member
    unfold fmtSeconds at member
    dsimp only at member
    split at member
    · exact digit_oneLine c (Http.decimal_isDigit _ c member)
    · rename_i part
      have digits := (number_fraction (ms.toNat % 1000) (Nat.mod_lt _ (by decide)) part).2.1
      rcases List.mem_append.mp member with whole | rest
      · exact digit_oneLine c (Http.decimal_isDigit _ c whole)
      · rcases List.mem_cons.mp rest with rfl | fraction
        · decide
        · exact digit_oneLine c (List.all_eq_true.mp digits c fraction)
  exact ⟨fun member => (each _ member).2.2 rfl, fun c member => ⟨(each c member).1, (each c member).2.1⟩⟩

theorem readNumber_shown (n : Nat) : readNumber (decimal (UInt64.ofNat n).toNat) = some (shown n) := by
  rw [readNumber_decimal, UInt64.toNat_ofNat']
  rfl

theorem reads_counter {name : String} (valid : IsName name) (n : Nat) :
    Reads (sampleLine name (decimal (UInt64.ofNat n).toNat)) [.sample (ascii name) none (shown n)] :=
  reads_sampleLine valid (readNumber_shown n) (oneLine_decimal _)

theorem reads_family {name kind help : String} (valid : IsName name) (oneKind : OneLine (ascii kind)) (oneHelp : OneLine (ascii help))
    {text : Bytes} {samples : List ExpositionLine} (reads : Reads text samples) :
    Reads (metricHeader name kind help ++ text) (family name kind help samples) :=
  reads_append (reads_metricHeader valid oneKind oneHelp) reads

def bucketLabel (i : Fin 9) : Bytes := if i.val < 8 then fmtSeconds (UInt64.ofNat (latencyBoundMs i.val)) else ascii "+Inf"

theorem bucketLabel_plain (i : Fin 9) : ch '"' ∉ bucketLabel i ∧ OneLine (bucketLabel i) := by
  unfold bucketLabel
  split
  · exact fmtSeconds_plain _
  · decide

theorem classLabel_plain : ∀ cls : Fin 6, ch '"' ∉ ascii (classLabels cls) ∧ OneLine (ascii (classLabels cls)) := by decide +kernel

theorem isName_connectionsActive : IsName "bluebird_http_connections_active" := isName_ofList (by decide) (by decide)

theorem isName_sessionsActive : IsName "bluebird_websocket_sessions_active" := isName_ofList (by decide) (by decide)

theorem isName_accepted : IsName "bluebird_connections_accepted_total" := isName_ofList (by decide) (by decide)

theorem isName_opened : IsName "bluebird_websocket_sessions_opened_total" := isName_ofList (by decide) (by decide)

theorem isName_requests : IsName "bluebird_http_requests_total" := isName_ofList (by decide) (by decide)

theorem isName_duration : IsName "bluebird_http_request_duration_seconds" := isName_ofList (by decide) (by decide)

theorem isName_bucket : IsName "bluebird_http_request_duration_seconds_bucket" := isName_ofList (by decide) (by decide)

theorem isName_sum : IsName "bluebird_http_request_duration_seconds_sum" := isName_ofList (by decide) (by decide)

theorem isName_count : IsName "bluebird_http_request_duration_seconds_count" := isName_ofList (by decide) (by decide)

theorem help_connectionsActive : OneLine (ascii
    "Open HTTP connections (connections upgraded to WebSocket are not counted).") :=
  oneLine_ofList (by decide)

theorem help_sessionsActive : OneLine (ascii "Open WebSocket sessions.") := oneLine_ofList (by decide)

theorem help_accepted : OneLine (ascii "TCP connections accepted since server start.") := oneLine_ofList (by decide)

theorem help_opened : OneLine (ascii "WebSocket sessions opened since server start.") := oneLine_ofList (by decide)

theorem help_requests : OneLine (ascii "HTTP requests answered, by response status class.") := oneLine_ofList (by decide)

theorem help_duration : OneLine (ascii
    "Time from the first read of a request to its response being queued (excludes the socket write).") :=
  oneLine_ofList (by decide)

theorem reads_buckets (history : List Observation) :
    Reads (bucketLines (Metrics.after history) 0 (List.finRange 9)).flatten
      ((List.finRange 9).map fun i => .sample (ascii "bluebird_http_request_duration_seconds_bucket")
        (some (ascii "le", bucketLabel i)) (shown (inBucketsBefore history (i.val + 1)))) := by
  have none_ : inBucketsBefore history 0 = 0 := by simp [inBucketsBefore]
  have lines := @bucketLines_after history 0 (List.finRange 9) rfl
  rw [none_] at lines
  rw [show (0 : UInt64) = UInt64.ofNat 0 from rfl, lines]
  apply reads_flatten
  intro i _
  exact reads_labelledLine isName_bucket (isName_ofList (by decide) (by decide)) (bucketLabel_plain i) (readNumber_shown _)
    (oneLine_decimal _)

theorem bucket_samples (history : List Observation) :
    ((List.finRange 9).map fun i => ExpositionLine.sample (ascii "bluebird_http_request_duration_seconds_bucket")
        (some (ascii "le", bucketLabel i)) (shown (inBucketsBefore history (i.val + 1)))) =
      ((boundLabels.zip latencyBoundsMs).map fun bound => .sample (ascii "bluebird_http_request_duration_seconds_bucket")
        (some (ascii "le", ascii bound.1)) (shown (answeredWithin history bound.2))) ++
      [.sample (ascii "bluebird_http_request_duration_seconds_bucket") (some (ascii "le", ascii "+Inf"))
        (shown (requestsOf history).length)] := by
  have labels : ∀ i : Fin 8, bucketLabel i.castSucc = ascii (boundLabels.get i) := by decide +kernel
  have eight : (boundLabels.zip latencyBoundsMs).length = 8 := rfl
  apply List.ext_getElem
  · rw [List.length_map, List.length_finRange, List.length_append, List.length_map, eight]
    rfl
  · intro i inside _
    rw [List.length_map, List.length_finRange] at inside
    rw [List.getElem_map, List.getElem_finRange]
    by_cases finite : i < 8
    · have bound : latencyBoundMs i = latencyBoundsMs.get ⟨i, finite⟩ := by
        unfold latencyBoundMs
        rw [List.getD_eq_getElem?_getD, List.getElem?_eq_getElem finite, Option.getD_some]
        rfl
      have count := inBucketsBefore_bound history finite
      rw [bound] at count
      have label := labels ⟨i, finite⟩
      rw [List.getElem_append_left (by rw [List.length_map, eight]; exact finite), List.getElem_map, List.getElem_zip]
      show ExpositionLine.sample _ (some (_, bucketLabel (Fin.castSucc ⟨i, finite⟩))) (shown (inBucketsBefore history (i + 1))) =
        .sample _ (some (_, ascii (boundLabels.get ⟨i, finite⟩))) (shown (answeredWithin history (latencyBoundsMs.get ⟨i, finite⟩)))
      rw [label, count]
      rfl
    · have last : i = 8 := by omega
      subst last
      rw [List.getElem_append_right (by rw [List.length_map, eight])]
      have all := inBucketsBefore_all history
      rw [← all]
      rfl

theorem reads_rendered (history : List Observation) (activeConnections activeWsSessions : Nat) :
    Reads (prometheusPieces ⟨Metrics.after history, UInt64.ofNat activeConnections, UInt64.ofNat activeWsSessions⟩).flatten
      (exposition history activeConnections activeWsSessions) := by
  have counts := counts_after history
  have classes : Reads ([1, 2, 3, 4, 5, 0].map fun cls => labelledLine "bluebird_http_requests_total" "status_class"
      (ascii (classLabels cls)) (decimal ((Metrics.after history).responsesByClass cls).toNat)).flatten
      ([1, 2, 3, 4, 5, 0].map fun cls => .sample (ascii "bluebird_http_requests_total")
        (some (ascii "status_class", ascii (classLabels cls))) (shown (ofClass history cls))) := by
    apply reads_flatten
    intro cls _
    rw [counts.classes]
    exact reads_labelledLine isName_requests (isName_ofList (by decide) (by decide)) (classLabel_plain cls) (readNumber_shown _)
      (oneLine_decimal _)
  have sum : Reads (sampleLine "bluebird_http_request_duration_seconds_sum" (fmtSeconds (Metrics.after history).latencySumMs))
      [.sample (ascii "bluebird_http_request_duration_seconds_sum") none (shown (totalMs history) / 1000)] := by
    apply reads_sampleLine isName_sum _ (fmtSeconds_plain _).2
    rw [readNumber_fmtSeconds, counts.sum, UInt64.toNat_ofNat']
    rfl
  have connections := reads_counter isName_connectionsActive activeConnections
  have sessions := reads_counter isName_sessionsActive activeWsSessions
  have accepted := reads_counter isName_accepted (history.count .connectionAccepted)
  have opened := reads_counter isName_opened (history.count .wsSessionOpened)
  have total := reads_counter isName_count (requestsOf history).length
  have buckets := reads_buckets history
  rw [bucket_samples] at buckets
  rw [← counts.accepted] at accepted
  rw [← counts.opened] at opened
  rw [← counts.count] at total
  have plain : OneLine (ascii "gauge") ∧ OneLine (ascii "counter") ∧ OneLine (ascii "histogram") :=
    ⟨oneLine_ofList (by decide), oneLine_ofList (by decide), oneLine_ofList (by decide)⟩
  have whole := reads_append (reads_append (reads_append (reads_append (reads_append (reads_append
    (reads_family isName_connectionsActive plain.1 help_connectionsActive connections)
    (reads_family isName_sessionsActive plain.1 help_sessionsActive sessions))
    (reads_family isName_accepted plain.2.1 help_accepted accepted))
    (reads_family isName_opened plain.2.1 help_opened opened))
    (reads_family isName_requests plain.2.1 help_requests classes))
    (reads_family isName_duration plain.2.2 help_duration buckets))
    (reads_append sum total)
  unfold prometheusPieces exposition
  simp only [family, List.flatten_append, List.flatten_cons, List.flatten_nil, List.append_assoc, List.cons_append, List.nil_append,
    List.append_nil] at whole ⊢
  exact whole

/-! ## The buffer and the route -/

/-- Whatever the buffer, the result is the length of the whole text, and the buffer has as much of its front as there is room for. -/
theorem renderPrometheus_holds (snap : MetricsSnapshot) (buf : Bytes) :
    (renderPrometheus (some snap) buf).Holds buf.length (prometheusPieces snap).flatten := by
  have start : ({ cells := if buf.isEmpty then [] else 0 :: buf.tail } : Printing Byte).Holds buf.length [] := by
    cases buf with
    | nil =>
      refine ⟨rfl, rfl, ?_⟩
      intro some_
      cases some_
    | cons c buf =>
      refine ⟨rfl, rfl, fun _ => ⟨buf, ?_⟩⟩
      rw [List.take_nil]
      rfl
  have printed := Printing.holds_printAll start (prometheusPieces snap)
  rw [List.nil_append] at printed
  unfold renderPrometheus
  exact printed

theorem bucketLines_clean (m : Metrics) (cumulative : UInt64) (buckets : List (Fin 9)) :
    ∀ piece ∈ bucketLines m cumulative buckets, 0 ∉ piece := by
  induction buckets generalizing cumulative with
  | nil =>
    intro piece member
    cases member
  | cons i buckets ih =>
    intro piece member
    rcases List.mem_cons.mp member with rfl | later
    · exact clean_of_reads (reads_labelledLine isName_bucket (isName_ofList (by decide) (by decide)) (bucketLabel_plain i)
        (readNumber_decimal _) (oneLine_decimal _))
    · exact ih _ piece later

theorem prometheusPieces_clean (snap : MetricsSnapshot) : 0 ∉ (prometheusPieces snap).flatten := by
  have header {name kind help : String} (valid : IsName name) (oneKind : OneLine (ascii kind)) (oneHelp : OneLine (ascii help)) :
      0 ∉ metricHeader name kind help := clean_of_reads (reads_metricHeader valid oneKind oneHelp)
  have counter {name : String} (valid : IsName name) (n : Nat) : 0 ∉ sampleLine name (decimal n) :=
    clean_of_reads (reads_sampleLine valid (readNumber_decimal n) (oneLine_decimal n))
  intro member
  rcases List.mem_flatten.mp member with ⟨piece, listed, inside⟩
  revert inside
  show 0 ∉ piece
  unfold prometheusPieces at listed
  dsimp only at listed
  rcases List.mem_append.mp listed with front | last
  · rcases List.mem_append.mp front with front | buckets
    · rcases List.mem_append.mp front with gauges | byClass
      · simp only [List.mem_cons, List.not_mem_nil, or_false] at gauges
        rcases gauges with rfl | rfl | rfl | rfl | rfl | rfl | rfl | rfl | rfl
        · exact header isName_connectionsActive (oneLine_ofList (by decide)) help_connectionsActive
        · exact counter isName_connectionsActive _
        · exact header isName_sessionsActive (oneLine_ofList (by decide)) help_sessionsActive
        · exact counter isName_sessionsActive _
        · exact header isName_accepted (oneLine_ofList (by decide)) help_accepted
        · exact counter isName_accepted _
        · exact header isName_opened (oneLine_ofList (by decide)) help_opened
        · exact counter isName_opened _
        · exact header isName_requests (oneLine_ofList (by decide)) help_requests
      · rcases List.mem_map.mp byClass with ⟨cls, _, rfl⟩
        exact clean_of_reads (reads_labelledLine isName_requests (isName_ofList (by decide) (by decide)) (classLabel_plain cls)
          (readNumber_decimal _) (oneLine_decimal _))
    · rcases List.mem_cons.mp buckets with rfl | bucket
      · exact header isName_duration (oneLine_ofList (by decide)) help_duration
      · exact bucketLines_clean _ _ _ piece bucket
  · simp only [List.mem_cons, List.not_mem_nil, or_false] at last
    rcases last with rfl | rfl
    · exact clean_of_reads (reads_sampleLine isName_sum (readNumber_fmtSeconds _) (fmtSeconds_plain _).2)
    · exact counter isName_count _

/-- The body of the metrics route says how the server has fared, whatever was in the memory before. -/
theorem metricsRoute_tells {malloc : Nat → Option Bytes} (sized : ∀ n memory, malloc n = some memory → memory.length = n)
    (history : List Observation) (activeConnections activeWsSessions : Nat) (res : BbResponse) :
    let answer := metricsRouteHandler malloc
      ⟨Metrics.after history, UInt64.ofNat activeConnections, UInt64.ofNat activeWsSessions⟩ res
    (answer.2 = none ∧ answer.1.statusCode = 200 ∧
        readExposition answer.1.msg.body = some (exposition history activeConnections activeWsSessions)) ∨
      (answer.1 = res ∧ answer.2 = some { code := errAlloc, msg := ascii "Failed to allocate metrics body." } ∧
        ∃ n, malloc n = none) := by
  intro answer
  let snap : MetricsSnapshot := ⟨Metrics.after history, UInt64.ofNat activeConnections, UInt64.ofNat activeWsSessions⟩
  have measured := (renderPrometheus_holds snap []).measured
  cases given : malloc ((renderPrometheus (some snap) []).length + 1) with
  | none =>
    have failed : answer = (res, some { code := errAlloc, msg := ascii "Failed to allocate metrics body." }) := by
      show metricsRouteHandler malloc snap res = _
      unfold metricsRouteHandler
      dsimp only
      rw [given]
    rw [failed]
    exact .inr ⟨rfl, rfl, _, given⟩
  | some memory =>
    have width := sized _ memory given
    have whole := (renderPrometheus_holds snap memory).stringAt (by rw [width]; exact Nat.succ_pos _) (prometheusPieces_clean snap)
    have room : (prometheusPieces snap).flatten.length ≤ (renderPrometheus (some snap) []).length + 1 - 1 := by omega
    rw [width, List.take_of_length_le room] at whole
    have body : answer.1.msg.body = (prometheusPieces snap).flatten := by
      show (metricsRouteHandler malloc snap res).1.msg.body = _
      unfold metricsRouteHandler
      dsimp only
      rw [given]
      dsimp only
      rw [whole]
      rfl
    have fine : answer.2 = none ∧ answer.1.statusCode = 200 := by
      show (metricsRouteHandler malloc snap res).2 = none ∧ (metricsRouteHandler malloc snap res).1.statusCode = 200
      unfold metricsRouteHandler
      dsimp only
      rw [given]
      exact ⟨rfl, rfl⟩
    left
    refine ⟨fine.1, fine.2, ?_⟩
    rw [body]
    exact readExposition_reads (reads_rendered history activeConnections activeWsSessions)

/-- Two requests of which one was slow, with memory for the answer. -/
theorem metricsRoute_tells_two : readExposition (metricsRouteHandler (fun n => some (List.replicate n 7))
    ⟨Metrics.after [.connectionAccepted, .request 200 7, .request 404 60], UInt64.ofNat 1, UInt64.ofNat 0⟩ {}).1.msg.body =
      some (exposition [.connectionAccepted, .request 200 7, .request 404 60] 1 0) := by
  have tells := @metricsRoute_tells (fun n => some (List.replicate n 7))
    (fun n memory given => by rw [← Option.some.inj given, List.length_replicate])
    [.connectionAccepted, .request 200 7, .request 404 60] 1 0 {}
  rcases tells with ⟨_, _, body⟩ | ⟨_, _, n, failed⟩
  · exact body
  · cases failed

example : answeredWithin [.connectionAccepted, .request 200 7, .request 404 60] 10 = 1 := by decide

end BlueBird.Server
