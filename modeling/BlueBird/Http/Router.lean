import Mathlib.Data.List.Forall2
import Mathlib.Data.List.Perm.Subperm
import BlueBird.Collections.OrderedMap
import BlueBird.Http.Confinement

namespace BlueBird.Http

open ServerRequest

/-! ## Paths in segments -/

def maxSegments : Nat := 20
def maxPathLen : Nat := 256

/-- The segment that ends at a slash or at the end of the path, where one was begun. -/
def closeSegment (stored : List Bytes) (current : Bytes) : Option (List Bytes) :=
  if current = [] then some stored
  else if stored.length ≥ maxSegments ∨ current.length ≥ maxPathLen then none
  else some (stored ++ [current])

def splitPathFrom (stored : List Bytes) (current : Bytes) : Bytes → Option (List Bytes)
  | [] => closeSegment stored current
  | c :: rest =>
    if c = ch '/' then (closeSegment stored current).bind fun stored => splitPathFrom stored [] rest
    else splitPathFrom stored (current ++ [c]) rest

def splitPath (path : Bytes) : Option (List Bytes) := splitPathFrom [] [] path

def pathSegments (path : Bytes) : List Bytes := (segments path).filter (· ≠ [])

theorem splitPathFrom_eq (stored : List Bytes) (current rest : Bytes) :
    splitPathFrom stored current rest = ((segments rest).modifyHead (current ++ ·)).foldlM closeSegment stored := by
  induction rest generalizing stored current with
  | nil =>
    have single : segments [] = [[]] := rfl
    rw [single, List.modifyHead_cons, List.append_nil, List.foldlM_cons]
    show closeSegment stored current = (closeSegment stored current).bind some
    exact (Option.bind_fun_some _).symm
  | cons c rest ih =>
    rw [splitPathFrom]
    by_cases slash : c = ch '/'
    · rw [if_pos slash, slash, segments_slash, List.modifyHead_cons, List.append_nil, List.foldlM_cons]
      apply Option.bind_congr
      intro closed _
      rw [ih]
      congr 1
      cases segments rest <;> rfl
    · rw [if_neg slash, ih, segments_cons slash]
      congr 1
      cases segments rest with
      | nil => rfl
      | cons first later =>
        rw [List.modifyHead_cons, List.modifyHead_cons, List.modifyHead_cons, List.append_assoc]
        rfl

theorem segment_length_le {path segment : Bytes} (member : segment ∈ segments path) : segment.length ≤ path.length := by
  induction path generalizing segment with
  | nil =>
    rw [List.mem_singleton.mp member]
    exact Nat.le_refl _
  | cons c path ih =>
    rw [List.length_cons]
    by_cases slash : c = ch '/'
    · rw [slash, segments_slash] at member
      rcases List.mem_cons.mp member with rfl | later
      · exact Nat.zero_le _
      · exact Nat.le_succ_of_le (ih later)
    · rw [segments_cons slash] at member
      cases pieces : segments path with
      | nil =>
        rw [pieces] at member
        cases member
      | cons first later =>
        rw [pieces, List.modifyHead_cons] at member
        rcases List.mem_cons.mp member with rfl | inside
        · rw [List.length_cons]
          exact Nat.succ_le_succ (ih (by rw [pieces]; exact List.mem_cons_self))
        · exact Nat.le_succ_of_le (ih (by rw [pieces]; exact List.mem_cons_of_mem _ inside))

theorem foldlM_closeSegment (pieces stored : List Bytes) (few : stored.length ≤ maxSegments) :
    pieces.foldlM closeSegment stored =
      if stored.length + (pieces.filter (· ≠ [])).length ≤ maxSegments ∧ ∀ piece ∈ pieces.filter (· ≠ []), piece.length < maxPathLen then
        some (stored ++ pieces.filter (· ≠ []))
      else none := by
  induction pieces generalizing stored with
  | nil =>
    rw [List.foldlM_nil, List.filter_nil, List.append_nil, if_pos ⟨few, fun piece member => by cases member⟩]
    rfl
  | cons piece pieces ih =>
    rw [List.foldlM_cons]
    by_cases empty : piece = []
    · have skipped : closeSegment stored piece = some stored := if_pos empty
      rw [skipped, List.filter_cons_of_neg (by simpa using empty), ← ih stored few]
      rfl
    · rw [List.filter_cons_of_pos (by simpa using empty)]
      simp only [List.length_cons, List.forall_mem_cons]
      by_cases fits : stored.length ≥ maxSegments ∨ piece.length ≥ maxPathLen
      · have refused : closeSegment stored piece = none := (if_neg empty).trans (if_pos fits)
        rw [refused, if_neg]
        · rfl
        · intro ⟨count, short, _⟩
          omega
      · have kept : closeSegment stored piece = some (stored ++ [piece]) := (if_neg empty).trans (if_neg fits)
        rw [kept]
        show pieces.foldlM closeSegment (stored ++ [piece]) = _
        rw [ih (stored ++ [piece]) (by rw [List.length_append, List.length_singleton]; omega), List.length_append,
          List.length_singleton, List.append_assoc, List.singleton_append, Nat.add_assoc, Nat.add_comm 1]
        have short : piece.length < maxPathLen := by omega
        simp only [short, true_and]

theorem splitPath_eq (path : Bytes) :
    splitPath path =
      if (pathSegments path).length ≤ maxSegments ∧ ∀ segment ∈ pathSegments path, segment.length < maxPathLen then
        some (pathSegments path)
      else none := by
  have whole := foldlM_closeSegment (segments path) [] (Nat.zero_le _)
  rw [List.length_nil, Nat.zero_add, List.nil_append] at whole
  unfold splitPath
  rw [splitPathFrom_eq, show (segments path).modifyHead ([] ++ ·) = segments path by cases segments path <;> rfl]
  exact whole

theorem splitPath_some {path : Bytes} {stored : List Bytes} (read : splitPath path = some stored) :
    stored = pathSegments path ∧ stored.length ≤ maxSegments := by
  rw [splitPath_eq] at read
  split at read
  · rename_i fits
    rw [← Option.some.inj read]
    exact ⟨rfl, fits.1⟩
  · cases read

/-! ## Routes -/

inductive RouteType where
  | http | websocket
  deriving DecidableEq

/-- `bb_route_t`; a route exists only for a path that could be split. -/
structure Route (Handler : Type) where
  type : RouteType
  method : Bytes
  pathSegments : List Bytes
  handler : Handler
  few : pathSegments.length ≤ maxSegments

section
variable {Handler : Type}

/-- `route_create` -/
def routeCreate (type : RouteType) (method path : Bytes) (handler : Handler) : Option (Route Handler) :=
  match read : splitPath path with
  | none => none
  | some pathSegments => some { type, method, pathSegments, handler, few := (splitPath_some read).2 }

/-- A call of `bb_route_list_add_http`, `bb_route_list_add_http_ctx` or `bb_route_list_add_websocket`. -/
inductive Registration (Handler : Type) where
  | http (method path : Bytes) (handler : Handler)
  | websocket (path : Bytes) (handler : Handler)

def Registration.create : Registration Handler → Option (Route Handler)
  | .http method path handler => routeCreate .http method path handler
  | .websocket path handler => routeCreate .websocket (ascii "GET") path handler

def Registration.add (routes : List (Route Handler)) (registration : Registration Handler) : List (Route Handler) :=
  match registration.create with
  | none => routes
  | some route => routes ++ [route]

def registered (registrations : List (Registration Handler)) : List (Route Handler) :=
  registrations.foldl Registration.add []

def isParam (segment : Bytes) : Bool := segment.head? == some (ch ':')

def matchSegments (route : Route Handler) (given : List Bytes) : Bool :=
  given.length == route.pathSegments.length &&
    (route.pathSegments.zip given).all fun place => isParam place.1 || place.1 == place.2

/-- `bb_server_request_add_param`; `strncpy` cuts what does not fit. -/
def ServerRequest.addParam (req : ServerRequest) (key value : Bytes) : Option ServerRequest :=
  if req.params.length ≥ maxParams then none
  else some { req with params := req.params ++ [(key.take (maxParamName - 1), value.take (maxParamValue - 1))] }

/-- `bb_server_request_get_param` -/
def ServerRequest.getParam (req : ServerRequest) (name : Bytes) : Option Bytes := (req.params.find? (·.1 = name)).map (·.2)

/-- The result of `bb_request_add_param` is not looked at. -/
def captureParam (req : ServerRequest) (place : Bytes × Bytes) : ServerRequest :=
  if isParam place.1 then (req.addParam (place.1.drop 1) place.2).getD req else req

def routeListMatch (routes : List (Route Handler)) (req : ServerRequest) : Option (Route Handler) × ServerRequest :=
  match splitPath req.path with
  | none => (none, req)
  | some given =>
    match routes.find? fun route => req.method == route.method && matchSegments route given with
    | none => (none, req)
    | some route => (some route, (route.pathSegments.zip given).foldl captureParam req)

/-! ## Dispatch -/

def Route.Fits (route : Route Handler) (method : Bytes) (given : List Bytes) : Prop :=
  route.method = method ∧ List.Forall₂ (fun pattern segment => isParam pattern = true ∨ pattern = segment) route.pathSegments given

def IsFirst {α : Type} (P : α → Prop) (entries : List α) : Option α → Prop
  | none => ∀ entry ∈ entries, ¬ P entry
  | some entry => ∃ before after, entries = before ++ entry :: after ∧ P entry ∧ ∀ other ∈ before, ¬ P other

theorem isFirst_find? {α : Type} {P : α → Prop} {p : α → Bool} (decides : ∀ entry, p entry = true ↔ P entry) (entries : List α) :
    IsFirst P entries (entries.find? p) := by
  cases found : entries.find? p with
  | none =>
    intro entry member holds
    exact List.find?_eq_none.mp found entry member ((decides entry).mpr holds)
  | some entry =>
    rcases List.find?_eq_some_iff_append.mp found with ⟨holds, before, after, split, others⟩
    refine ⟨before, after, split, (decides entry).mp holds, ?_⟩
    intro other member passes
    have fails := others other member
    rw [(decides other).mpr passes] at fails
    cases fails

theorem isFirst_unique {α : Type} {P : α → Prop} {entries : List α} {a b : Option α} (first : IsFirst P entries a)
    (other : IsFirst P entries b) : a = b := by
  have decides : ∀ entry, @decide (P entry) (Classical.dec _) = true ↔ P entry := fun entry => @decide_eq_true_iff _ (Classical.dec _)
  have found : ∀ c, IsFirst P entries c → entries.find? (fun entry => @decide (P entry) (Classical.dec _)) = c := by
    intro c one
    cases c with
    | none =>
      apply List.find?_eq_none.mpr
      intro entry member holds
      exact one entry member ((decides entry).mp holds)
    | some entry =>
      rcases one with ⟨before, after, split, holds, others⟩
      apply List.find?_eq_some_iff_append.mpr
      refine ⟨(decides entry).mpr holds, before, after, split, ?_⟩
      intro third member
      rw [Bool.not_eq_true', Bool.eq_false_iff]
      intro passes
      exact others third member ((decides third).mp passes)
  exact (found a first).symm.trans (found b other)

theorem matchSegments_iff (route : Route Handler) (given : List Bytes) :
    matchSegments route given = true ↔
      List.Forall₂ (fun pattern segment => isParam pattern = true ∨ pattern = segment) route.pathSegments given := by
  unfold matchSegments
  rw [Bool.and_eq_true, beq_iff_eq, List.forall₂_iff_zip, eq_comm]
  apply and_congr_right'
  rw [List.all_eq_true]
  constructor
  · intro all a b member
    simpa using all (a, b) member
  · intro all place member
    simpa using all member

theorem routeListMatch_first {routes : List (Route Handler)} {req : ServerRequest} (short : req.path.length < pathSize) :
    IsFirst (fun route => route.Fits req.method (pathSegments req.path)) routes (routeListMatch routes req).1 := by
  have pieces : ∀ segment ∈ pathSegments req.path, segment.length < maxPathLen := fun segment member =>
    Nat.lt_of_le_of_lt (segment_length_le (List.mem_of_mem_filter member)) short
  unfold routeListMatch
  rw [splitPath_eq]
  by_cases few : (pathSegments req.path).length ≤ maxSegments
  · rw [if_pos ⟨few, pieces⟩]
    dsimp only
    have decides : ∀ route : Route Handler, (req.method == route.method && matchSegments route (pathSegments req.path)) = true ↔
        route.Fits req.method (pathSegments req.path) := by
      intro route
      rw [Bool.and_eq_true, beq_iff_eq, matchSegments_iff, eq_comm]
      exact Iff.rfl
    have first := isFirst_find? decides routes
    cases found : routes.find? fun route => req.method == route.method && matchSegments route (pathSegments req.path) with
    | none =>
      rw [found] at first
      exact first
    | some route =>
      rw [found] at first
      exact first
  · rw [if_neg fun both => few both.1]
    intro route _ fits
    rw [← fits.2.length_eq] at few
    exact few route.few

/-! ## Parameters -/

def cutParam (place : Bytes × Bytes) : Bytes × Bytes :=
  ((place.1.drop 1).take (maxParamName - 1), place.2.take (maxParamValue - 1))

theorem foldl_captureParam (places : List (Bytes × Bytes)) (req : ServerRequest) :
    places.foldl captureParam req =
      { req with params := req.params ++ ((places.filter fun place => isParam place.1).map cutParam).take (maxParams - req.params.length) } := by
  induction places generalizing req with
  | nil =>
    rw [List.filter_nil, List.map_nil, List.take_nil, List.append_nil]
    rfl
  | cons place places ih =>
    rw [List.foldl_cons, ih]
    unfold captureParam
    by_cases param : isParam place.1 = true
    · rw [if_pos param, List.filter_cons_of_pos (by simpa using param), List.map_cons]
      unfold ServerRequest.addParam
      by_cases full : req.params.length ≥ maxParams
      · have none_ : maxParams - req.params.length = 0 := by omega
        rw [if_pos full, Option.getD_none, none_, List.take_zero, List.take_zero]
      · have more : maxParams - req.params.length = (maxParams - (req.params.length + 1)) + 1 := by omega
        rw [if_neg full, Option.getD_some, List.length_append, List.length_singleton, more, List.take_succ_cons,
          List.append_assoc]
        rfl
    · rw [if_neg param, List.filter_cons_of_neg (by simpa using param)]

def Route.names (route : Route Handler) : List Bytes := (route.pathSegments.filter isParam).map (·.drop 1)

/-- The dispatch of a request: the first route that fits, with its own parameters and no others. -/
structure Dispatched (routes : List (Route Handler)) (req : ServerRequest) : Prop where
  first : IsFirst (fun route => route.Fits req.method (pathSegments req.path)) routes (routeListMatch routes req).1
  captured : ∀ route, (routeListMatch routes req).1 = some route → route.names.Nodup →
    ∀ (i : Nat) (name : Bytes), route.pathSegments[i]? = some (ch ':' :: name) →
      (routeListMatch routes req).2.getParam name = (pathSegments req.path)[i]?
  own : ∀ param ∈ (routeListMatch routes req).2.params,
    ∃ route, (routeListMatch routes req).1 = some route ∧ ∃ name ∈ route.names, param.1 = name.take (maxParamName - 1)

/-- The first route that fits has room for its parameters, where their names are distinct. -/
def ParamsFit (routes : List (Route Handler)) (req : ServerRequest) : Prop :=
  ∀ route, IsFirst (fun route => route.Fits req.method (pathSegments req.path)) routes (some route) → route.names.Nodup →
    route.names.length ≤ maxParams ∧ ∀ name ∈ route.names, name.length < maxParamName

theorem isParam_cons {segment : Bytes} (param : isParam segment = true) : segment = ch ':' :: segment.drop 1 := by
  unfold isParam at param
  rw [beq_iff_eq] at param
  cases segment with
  | nil => cases param
  | cons c rest =>
    rw [List.head?_cons, Option.some.injEq] at param
    rw [param]
    rfl

theorem mem_names {route : Route Handler} {name : Bytes} :
    name ∈ route.names ↔ ∃ i : Nat, route.pathSegments[i]? = some (ch ':' :: name) := by
  unfold Route.names
  constructor
  · intro member
    rcases List.mem_map.mp member with ⟨segment, listed, rfl⟩
    rcases List.mem_filter.mp listed with ⟨inside, param⟩
    rcases List.getElem?_of_mem inside with ⟨i, here⟩
    exact ⟨i, here.trans (congrArg some (isParam_cons param))⟩
  · intro ⟨i, here⟩
    exact List.mem_map.mpr ⟨_, List.mem_filter.mpr ⟨List.mem_of_getElem? here, rfl⟩, rfl⟩

/-- The parameters of a place in the route with what stands there in the path. -/
def Route.captures (route : Route Handler) (given : List Bytes) : List (Bytes × Bytes) :=
  (route.pathSegments.zip given).filter fun place => isParam place.1

theorem routeListMatch_params {routes : List (Route Handler)} {req : ServerRequest} (fresh : req.params = []) :
    ((routeListMatch routes req).1 = none ∧ (routeListMatch routes req).2.params = []) ∨
      ∃ route, (routeListMatch routes req).1 = some route ∧ route.Fits req.method (pathSegments req.path) ∧
        (routeListMatch routes req).2.params = ((route.captures (pathSegments req.path)).map cutParam).take maxParams := by
  unfold routeListMatch
  cases read : splitPath req.path with
  | none => exact .inl ⟨rfl, fresh⟩
  | some given =>
    have whole := (splitPath_some read).1
    dsimp only
    cases found : routes.find? fun route => req.method == route.method && matchSegments route given with
    | none => exact .inl ⟨rfl, fresh⟩
    | some route =>
      have fits := List.find?_some found
      rw [Bool.and_eq_true, beq_iff_eq, matchSegments_iff] at fits
      rw [whole] at fits
      right
      refine ⟨route, rfl, ⟨fits.1.symm, fits.2⟩, ?_⟩
      dsimp only
      rw [foldl_captureParam, whole, fresh]
      rfl

theorem captures_names {route : Route Handler} {given : List Bytes} (length : route.pathSegments.length = given.length) :
    (route.captures given).map (fun place => place.1.drop 1) = route.names := by
  unfold Route.captures Route.names
  have fronts : (route.pathSegments.zip given).map (·.1) = route.pathSegments := List.map_fst_zip (Nat.le_of_eq length)
  nth_rewrite 2 [← fronts]
  rw [List.filter_map, List.map_map]
  rfl

theorem mem_captures {route : Route Handler} {given : List Bytes} {place : Bytes × Bytes} (member : place ∈ route.captures given) :
    place.1.drop 1 ∈ route.names ∧ place.2 ∈ given := by
  rcases List.mem_filter.mp member with ⟨inside, param⟩
  rcases List.of_mem_zip inside with ⟨left, right⟩
  exact ⟨List.mem_map.mpr ⟨_, List.mem_filter.mpr ⟨left, param⟩, rfl⟩, right⟩

theorem storePathByte_length {out stored : Bytes} {room : Nat} {c : Byte} (kept : storePathByte out room c = some stored) :
    stored.length < room := by
  unfold storePathByte at kept
  split at kept
  · cases kept
  split at kept
  · cases kept
  · rename_i fits
    rw [← Option.some.inj kept, List.length_append, List.length_singleton]
    omega

theorem decodePathFrom_length {room : Nat} {src out path : Bytes} (read : decodePathFrom room out src = some path)
    (held : out.length < room) : path.length < room := by
  fun_induction decodePathFrom room out src generalizing path with
  | case1 out =>
    cases read
    exact held
  | case2 => cases read
  | case3 => cases read
  | case4 out hi lo tail octet digits other ih =>
    rcases Option.bind_eq_some_iff.mp read with ⟨stored, kept, rest⟩
    exact ih _ rest (storePathByte_length kept)
  | case5 => cases read
  | case6 out c rest plain ih =>
    rcases Option.bind_eq_some_iff.mp read with ⟨stored, kept, more⟩
    exact ih _ more (storePathByte_length kept)

theorem converted_fresh {parsed : Request} {req : ServerRequest} (converted : serverRequestFromParsed parsed = some req) :
    req.params = [] ∧ req.path.length < pathSize := by
  rcases serverRequestFromParsed_eq_some.mp converted with ⟨_, decoded, _, _, whole⟩
  constructor
  · rw [whole]
  · unfold decodePath at decoded
    split at decoded
    · cases decoded
    · exact decodePathFrom_length (Option.filter_eq_some_iff.mp decoded).1 (by decide)

theorem cutParam_eq {place : Bytes × Bytes} (name : (place.1.drop 1).length < maxParamName) (value : place.2.length < maxParamValue) :
    cutParam place = (place.1.drop 1, place.2) := by
  unfold cutParam
  rw [List.take_of_length_le (by omega), List.take_of_length_le (by omega)]

theorem getParam_captured {route : Route Handler} {method path : Bytes} (fits : route.Fits method (pathSegments path))
    (short : path.length < pathSize) (distinct : route.names.Nodup) (few : route.names.length ≤ maxParams)
    (names : ∀ name ∈ route.names, name.length < maxParamName) {i : Nat} {name : Bytes}
    (here : route.pathSegments[i]? = some (ch ':' :: name)) :
    OrderedMap.get? (((route.captures (pathSegments path)).map cutParam).take maxParams) name = (pathSegments path)[i]? := by
  have length := fits.2.length_eq
  have uncut : (route.captures (pathSegments path)).map cutParam =
      (route.captures (pathSegments path)).map fun place => (place.1.drop 1, place.2) := by
    apply List.map_congr_left
    intro place member
    rcases mem_captures member with ⟨listed, given⟩
    exact cutParam_eq (names _ listed) (Nat.lt_of_le_of_lt (segment_length_le (List.mem_of_mem_filter given)) short)
  have keys : ((route.captures (pathSegments path)).map fun place => (place.1.drop 1, place.2)).map (·.1) = route.names := by
    rw [List.map_map]
    exact captures_names length
  have whole : (route.captures (pathSegments path)).length ≤ maxParams := by
    have same := congrArg List.length keys
    rw [List.length_map, List.length_map] at same
    omega
  rw [uncut, List.take_of_length_le (by rw [List.length_map]; exact whole)]
  have bound : i < (pathSegments path).length := by
    rw [← length]
    exact (List.getElem?_eq_some_iff.mp here).1
  have given : (pathSegments path)[i]? = some (pathSegments path)[i] := List.getElem?_eq_getElem bound
  rw [given]
  have paired : (ch ':' :: name, (pathSegments path)[i]) ∈ route.captures (pathSegments path) := by
    apply List.mem_filter.mpr
    refine ⟨?_, rfl⟩
    apply List.mem_of_getElem?
    exact List.getElem?_zip_eq_some.mpr ⟨here, given⟩
  have distinctly : OrderedMap.Distinct ((route.captures (pathSegments path)).map fun place => (place.1.drop 1, place.2)) := by
    unfold OrderedMap.Distinct
    rw [keys]
    exact distinct
  exact OrderedMap.get?_eq_some_of_mem distinctly (List.mem_map.mpr ⟨_, paired, rfl⟩)

/-- The dispatch is right, and parameters are found, exactly where the first route that fits has room for its own. -/
theorem dispatched_iff {registrations : List (Registration Handler)} {parsed : Request} {req : ServerRequest}
    (converted : serverRequestFromParsed parsed = some req) :
    Dispatched (registered registrations) req ↔ ParamsFit (registered registrations) req := by
  rcases converted_fresh converted with ⟨fresh, short⟩
  generalize registered registrations = routes
  have first := @routeListMatch_first Handler routes req short
  have matched := @routeListMatch_params Handler routes req fresh
  constructor
  · intro dispatched route firstRoute distinct
    have same := isFirst_unique first firstRoute
    rcases matched with ⟨none_, _⟩ | ⟨other, some_, fits, params⟩
    · rw [none_] at same
      cases same
    · rw [some_] at same
      cases same
      have found : ∀ name ∈ route.names, ∃ param ∈ (routeListMatch routes req).2.params, param.1 = name := by
        intro name member
        rcases mem_names.mp member with ⟨i, here⟩
        have looked := dispatched.captured route some_ distinct i name here
        have bound : i < (pathSegments req.path).length := by
          rw [← fits.2.length_eq]
          exact (List.getElem?_eq_some_iff.mp here).1
        rw [List.getElem?_eq_getElem bound] at looked
        exact ⟨_, OrderedMap.mem_of_get? looked, rfl⟩
      rw [params] at found
      constructor
      · have inside : route.names ⊆ (((route.captures (pathSegments req.path)).map cutParam).take maxParams).map (·.1) := by
          intro name member
          rcases found name member with ⟨param, listed, named⟩
          exact List.mem_map.mpr ⟨param, listed, named⟩
        have bound := (distinct.subperm inside).length_le
        rw [List.length_map] at bound
        exact Nat.le_trans bound (List.length_take_le _ _)
      · intro name member
        rcases found name member with ⟨param, listed, rfl⟩
        rcases List.mem_map.mp (List.mem_of_mem_take listed) with ⟨place, _, rfl⟩
        exact Nat.lt_of_le_of_lt (List.length_take_le _ _) (by decide)
  · intro room
    refine ⟨first, ?_, ?_⟩
    · intro route some_ distinct i name here
      rcases matched with ⟨none_, _⟩ | ⟨other, found, fits, params⟩
      · rw [none_] at some_
        cases some_
      · rw [found] at some_
        cases some_
        rw [found] at first
        rcases room route first distinct with ⟨few, names⟩
        unfold ServerRequest.getParam
        rw [params]
        exact getParam_captured fits short distinct few names here
    · intro param member
      rcases matched with ⟨_, none_⟩ | ⟨route, found, _, params⟩
      · rw [none_] at member
        cases member
      · rw [params] at member
        rcases List.mem_map.mp (List.mem_of_mem_take member) with ⟨place, captured, rfl⟩
        exact ⟨route, found, _, (mem_captures captured).1, rfl⟩

end

def userRoutes : List (Registration Unit) :=
  [.http (ascii "GET") (ascii "/users/new") (), .http (ascii "GET") (ascii "/users/:id") ()]

def getRequest (path : Bytes) : Request where
  method := ascii "GET"
  target := path
  versionMajor := 1
  versionMinor := 1

def servedRequest (path : Bytes) : ServerRequest where
  msg := { startLine := ascii "GET " ++ path ++ ascii " HTTP/1.1" }
  method := ascii "GET"
  path := path
  version := ascii "HTTP/1.1"

theorem paramsFit_users : ParamsFit (registered userRoutes) (servedRequest (ascii "/users/7")) := by
  intro route ⟨before, after, split, _, _⟩ _
  have listed : route ∈ registered userRoutes := by
    rw [split]
    exact List.mem_append_right _ List.mem_cons_self
  have all : ∀ route ∈ registered userRoutes, route.names.length ≤ maxParams ∧ ∀ name ∈ route.names, name.length < maxParamName := by
    decide +kernel
  exact all route listed

theorem dispatched_iff_users : Dispatched (registered userRoutes) (servedRequest (ascii "/users/7")) :=
  (@dispatched_iff Unit userRoutes (getRequest (ascii "/users/7")) _ (by decide +kernel)).mpr paramsFit_users

def elevenRoutes : List (Registration Unit) := [.http (ascii "GET") (ascii "/:a/:b/:c/:d/:e/:f/:g/:h/:i/:j/:k") ()]

theorem not_dispatched_eleven :
    serverRequestFromParsed (getRequest (ascii "/1/2/3/4/5/6/7/8/9/10/11")) = some (servedRequest (ascii "/1/2/3/4/5/6/7/8/9/10/11")) ∧
      ¬ Dispatched (registered elevenRoutes) (servedRequest (ascii "/1/2/3/4/5/6/7/8/9/10/11")) := by
  refine ⟨by decide +kernel, ?_⟩
  intro dispatched
  have matched : ((routeListMatch (registered elevenRoutes) (servedRequest (ascii "/1/2/3/4/5/6/7/8/9/10/11"))).1.map fun route =>
      (decide route.names.Nodup, route.pathSegments[10]?)) = some (true, some (ascii ":k")) := by decide +kernel
  rcases Option.map_eq_some_iff.mp matched with ⟨route, found, facts⟩
  have distinct : route.names.Nodup := of_decide_eq_true (congrArg Prod.fst facts)
  have lookup := dispatched.captured route found distinct 10 (ascii "k") (congrArg Prod.snd facts)
  exact absurd lookup (by decide +kernel)

end BlueBird.Http
