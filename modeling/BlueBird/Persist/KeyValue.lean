import BlueBird.Json.Parser
import BlueBird.Json.Serializer
import BlueBird.Persist.FileSystem
import BlueBird.Refinement.Simulation

namespace BlueBird.Persist

variable {R : Type}

/-! ## What the backends stand on -/

/-- The rows of `kv`: a parameter that SQLite would not bind is NULL. -/
abbrev KvRows := List (Option Bytes × Option Bytes)

/-- SQLite's databases, under the names they are opened with; `rowSize` is what a row with a key and a value of these
lengths takes. -/
structure Sqlite where
  databases : List (Bytes × KvRows) := []
  canOpen : Bytes → Bool
  maxLength : Nat := 1000000000
  rowSize : Nat → Nat → Nat

structure World where
  files : FileSystem
  sqlite : Sqlite

/-- `bb_persist_kv_api_t`. A handle is the name it was opened with; a call that C does not define gives none. `save` gets
the value and what lies behind it in the caller's memory, `load` the caller's buffer. -/
structure KvApi where
  name : String
  openHandle : World → Bytes → Option World
  close : World → Bytes → World
  save : World → Bytes → (key value behind : Bytes) → Option (World × Int)
  load : World → Bytes → (key buffer : Bytes) → Option (Int × Bytes)
  remove : World → Bytes → (key : Bytes) → Option (World × Int)

/-! ## persist_file.c -/

def makePath (basepath key : Bytes) : Bytes := basepath ++ ch '/' :: key

def fileOpen (w : World) (uri : Bytes) : Option World := some { w with files := w.files.mkdir uri }

def fileSave (w : World) (basepath key data _behind : Bytes) : Option (World × Int) :=
  match w.files.write (makePath basepath key) data with
  | none => some (w, 1)
  | some files => some ({ w with files }, 0)

def fileLoad (w : World) (basepath key buf : Bytes) : Option (Int × Bytes) :=
  match w.files.read (makePath basepath key) with
  | none => some (1, buf)
  | some content =>
    if content.length > buf.length then some (1, buf)
    -- `buf[size] = 0` where the content fills the buffer
    else if content.length = buf.length then none
    else some (0, content ++ 0 :: buf.drop (content.length + 1))

def fileRemove (w : World) (basepath key : Bytes) : Option (World × Int) :=
  match w.files.remove (makePath basepath key) with
  | none => some (w, 1)
  | some files => some ({ w with files }, 0)

def fileApi : KvApi where
  name := "file"
  openHandle := fileOpen
  close w _ := w
  save := fileSave
  load := fileLoad
  remove := fileRemove

/-! ## persist_json.c -/

section
variable [Reals R]

/-- `bb_json_load` -/
def jsonLoadFile (R : Type) [Reals R] (files : FileSystem) (path : Bytes) : Option (Json R) := do
  let content ← files.read path
  if (0 : Byte) ∈ content then none
  else
    let start := if content.take 3 = [0xEF, 0xBB, 0xBF] then content.drop 3 else content
    (Json.parse (start ++ [0])).toOption

/-- `bb_json_dump`: the file is truncated before anything can fail. -/
def jsonDump (malloc : Nat → Bytes) (files : FileSystem) (json : Option (Json R)) (path : Bytes) : FileSystem × Int :=
  match files.write path [] with
  | none => (files, 1)
  | some opened =>
    match json with
    | none => (opened, 1)
    | some json =>
      match Json.serialize malloc (some 0) json with
      | .error _ => (opened, 1)
      | .ok buffer =>
        let size := (Json.serializeJson json (some 0) ⟨none, 0⟩).2
        if size > 0 then ((files.write path (buffer.take size.toNat)).getD opened, 0) else (opened, 0)

/-- `bb_json_object_set_value`, whose error nobody looks at. -/
def setKey (json : Json R) (key : Bytes) (value : Json R) : Json R :=
  match json with
  | .object entries => .object (Json.objectSetValue entries key value)
  | other => other

def getKey (json : Json R) (key : Bytes) : Option (Json R) :=
  match json with
  | .object entries => Json.objectGetValue entries key
  | _ => none

/-- `bb_json_object_remove_key` -/
def removeKey (json : Json R) (key : Bytes) : Json R :=
  match json with
  | .object entries => .object (OrderedMap.erase entries key)
  | other => other

/-- `bb_json_get_size` -/
def jsonSize (json : Json R) : Nat :=
  match json with
  | .text (some text) => text.length
  | .array items => items.length
  | .object entries => entries.length
  | _ => 0

def jsonSave (R : Type) [Reals R] (malloc : Nat → Bytes) (w : World) (jsonpath key data behind : Bytes) :
    Option (World × Int) :=
  -- the size is not looked at: the text is what comes before the first NUL
  if (0 : Byte) ∉ data ++ behind then none
  else
    let json := (jsonLoadFile R w.files jsonpath).getD (.object [])
    let json := setKey json key (.text (some (Json.cString (data ++ behind))))
    let (files, rc) := jsonDump malloc w.files (some json) jsonpath
    some ({ w with files }, rc)

def jsonLoad (R : Type) [Reals R] (w : World) (jsonpath key buf : Bytes) : Option (Int × Bytes) :=
  match (jsonLoadFile R w.files jsonpath).bind fun json => getKey json key with
  | none => some (-1, buf)
  | some value =>
    if jsonSize value > buf.length then some (1, buf)
    else
      match value with
      | .text (some text) => some (0, text ++ buf.drop text.length)
      | other => if jsonSize other = 0 then some (0, buf) else none

def jsonRemove (R : Type) [Reals R] (malloc : Nat → Bytes) (w : World) (jsonpath key : Bytes) : Option (World × Int) :=
  let json := (jsonLoadFile R w.files jsonpath).map fun json => removeKey json key
  let (files, rc) := jsonDump malloc w.files json jsonpath
  some ({ w with files }, rc)

def jsonApi (R : Type) [Reals R] (malloc : Nat → Bytes) : KvApi where
  name := "json"
  openHandle w _ := some w
  close w _ := w
  save := jsonSave R malloc
  load := jsonLoad R
  remove := jsonRemove R malloc

end

/-! ## persist_sqlite.c -/

namespace Sqlite

def rows (s : Sqlite) (uri : Bytes) : KvRows := (OrderedMap.get? s.databases uri).getD []

def withRows (s : Sqlite) (uri : Bytes) (rows : KvRows) : Sqlite :=
  { s with databases := OrderedMap.set s.databases uri rows }

/-- `sqlite3_bind_text` leaves NULL behind where the text is too long. -/
def bindText (s : Sqlite) (text : Bytes) : Option Bytes := if text.length > s.maxLength then none else some text

/-- `sqlite3_bind_blob` is not defined for a length below zero. -/
def bindBlob (s : Sqlite) (data : Bytes) : Option (Option Bytes) :=
  let n := Json.toInt data.length
  if n < 0 then none else if n > s.maxLength then some none else some (some (data.take n.toNat))

end Sqlite

/-- `CREATE TABLE IF NOT EXISTS` -/
def sqliteOpen (w : World) (uri : Bytes) : Option World :=
  if w.sqlite.canOpen uri then some { w with sqlite := w.sqlite.withRows uri (w.sqlite.rows uri) } else none

/-- A database in memory is gone when it is closed. -/
def sqliteClose (w : World) (uri : Bytes) : World :=
  if uri = ascii ":memory:" then
    { w with sqlite := { w.sqlite with databases := OrderedMap.erase w.sqlite.databases uri } }
  else w

def sqliteSave (w : World) (uri key data _behind : Bytes) : Option (World × Int) := do
  let value ← w.sqlite.bindBlob data
  let key := w.sqlite.bindText key
  if w.sqlite.rowSize (key.getD []).length (value.getD []).length > w.sqlite.maxLength then some (w, 1)
  else
    let rows := w.sqlite.rows uri
    -- any number of rows may have a NULL for their key
    let rows := if key = none then rows ++ [(none, value)] else OrderedMap.set rows key value
    some ({ w with sqlite := w.sqlite.withRows uri rows }, 0)

/-- No key equals NULL. -/
def sqliteLoad (w : World) (uri key buf : Bytes) : Option (Int × Bytes) :=
  match (w.sqlite.bindText key).bind fun key => OrderedMap.get? (w.sqlite.rows uri) (some key) with
  | none => some (1, buf)
  | some value =>
    let data := value.getD []
    if data.length ≤ buf.length then some (0, data ++ buf.drop data.length) else some (1, buf)

def sqliteRemove (w : World) (uri key : Bytes) : Option (World × Int) :=
  match w.sqlite.bindText key with
  | none => some (w, 0)
  | some key => some ({ w with sqlite := w.sqlite.withRows uri (OrderedMap.erase (w.sqlite.rows uri) (some key)) }, 0)

def sqliteApi : KvApi where
  name := "sqlite"
  openHandle := sqliteOpen
  close := sqliteClose
  save := sqliteSave
  load := sqliteLoad
  remove := sqliteRemove

/-! ## persist_registry.c -/

def maxBackends : Nat := 8

structure Registry where
  backends : List KvApi := []
  default : Option KvApi := none
  defaultUri : Bytes := []

namespace Registry

def register (r : Registry) (api : KvApi) : Registry × Int :=
  if r.backends.length ≥ maxBackends then (r, 1) else ({ r with backends := r.backends ++ [api] }, 0)

def get (r : Registry) (name : String) : Option KvApi := r.backends.find? (·.name = name)

def setDefault (r : Registry) (name : String) : Registry := { r with default := r.get name }

/-- `strncpy` into 256 bytes whose last one stays zero. -/
def setDefaultUri (r : Registry) (uri : Bytes) : Registry := { r with defaultUri := uri.take 255 }

end Registry

inductive KvOp where
  | save (key value behind : Bytes)
  | load (key buffer : Bytes)
  | remove (key : Bytes)
  deriving DecidableEq, Repr

/-- What a wrapper returns, and the buffer of a load as it leaves it. -/
structure KvResult where
  rc : Int
  buffer : Bytes := []
  deriving DecidableEq, Repr

def KvOp.buffer : KvOp → Bytes
  | .load _ buffer => buffer
  | _ => []

/-- `bb_persist_kv_save`, `bb_persist_kv_load` and `bb_persist_kv_remove`. -/
def kvStep (r : Registry) (w : World) (op : KvOp) : Option (World × KvResult) :=
  match r.default with
  | none => some (w, ⟨1, op.buffer⟩)
  | some api =>
    if r.defaultUri = [] then some (w, ⟨1, op.buffer⟩)
    else
      match api.openHandle w r.defaultUri with
      | none => some (w, ⟨1, op.buffer⟩)
      | some w =>
        match op with
        | .save key value behind => do
          let (w, rc) ← api.save w r.defaultUri key value behind
          return (api.close w r.defaultUri, ⟨rc, []⟩)
        | .load key buffer => do
          let (rc, buffer) ← api.load w r.defaultUri key buffer
          return (api.close w r.defaultUri, ⟨rc, buffer⟩)
        | .remove key => do
          let (w, rc) ← api.remove w r.defaultUri key
          return (api.close w r.defaultUri, ⟨rc, []⟩)

def kvMachine (r : Registry) : Refinement.Machine World KvOp KvResult where
  step := kvStep r

end BlueBird.Persist
