import Mathlib.Data.List.Sort
import TgPlatform.Lib.Json

/-! # Session packages

The runtime's command pairs each session file of a package with its metadata,
validates the sessions one after the other, and prints a manifest. A row of the
manifest finds the files of its session by the session's key alone, the stem of
its file name.
-/

namespace TgPlatform.SessionImport

/-- The parts of a path below the directory of the package. -/
abbrev FilePath := List String

inductive Node
  | file (bytes : Bytes)
  | directory
  deriving DecidableEq, Repr

structure Package where
  entries : List (FilePath × Node)
  nodup : (entries.map Prod.fst).Nodup

namespace Package

variable (pkg : Package)

def node? (path : FilePath) : Option Node := pkg.entries.lookup path

/-- The bytes of a regular file. -/
def bytes? (path : FilePath) : Option Bytes :=
  match pkg.node? path with
  | some (.file bytes) => some bytes
  | _ => none

end Package

inductive SessionFormat | sqlite | string | tdata | unknown
  deriving DecidableEq, Repr

def SessionFormat.value : SessionFormat → String
  | .sqlite => "sqlite"
  | .string => "string"
  | .tdata => "tdata"
  | .unknown => "unknown"

inductive ImportStatus
  | verified | authFailed | twofaLocked | spamblocked | deactivated | invalidFormat | error
  deriving DecidableEq, Repr

structure ImportItem where
  key : String
  sessionPath : FilePath
  fmt : SessionFormat
  metadata : List (String × Json)
  metaPath : Option FilePath

structure ValidationResult where
  key : String
  status : ImportStatus
  userId : Option ℤ := none
  username : Option String := none
  detail : Option String := none
  deriving DecidableEq, Repr

/-- `SQLITE_MAGIC`. -/
def sqliteMagic : Bytes := encode "SQLite format 3" ++ [0]

/-- `detect_format`. -/
def detectFormat : Node → SessionFormat
  | .directory => .tdata
  | .file bytes =>
    let head := bytes.take 4096
    if sqliteMagic.isPrefixOf head then .sqlite
    else if head.all fun b => b < 128 then
      let text := strip (String.ofList (head.map fun b => Char.ofNat b.toNat))
      if text ≠ "" ∧ text.toList.all fun c =>
        c.isAlphanum || c = '-' || c = '_' then .string else .unknown
    else .unknown

/-- What a validation finds out from Telegram. -/
inductive Attempt
  | invalid (detail : String)
  | timeout (detail : String)
  | unauthorized
  | authorized (id : ℤ) (username : Option String)
  | passwordNeeded | userDeactivated | phoneNumberBanned | authKeyError
  | exception (detail : String)
  deriving DecidableEq, Repr

/-- `_load_meta`; the command dies of what it does not catch. -/
def loadMeta (py : Python) (pkg : Package) (path : FilePath) : Option (List (String × Json)) :=
  match pkg.bytes? path with
  | none => some []
  | some bytes =>
    match py.loads bytes with
    | .ok (.dict entries) => some entries
    | .ok _ => some []
    | .error .decode => some []
    | .error .other => none

/-- `path.stem` of a session file; a name that is only a suffix is all stem. -/
def stem (name : String) : String :=
  if name = ".session" then name else String.ofList (name.toList.take (name.length - ".session".length))

/-- `session_path.with_suffix(".json")`. -/
def withJson (path : FilePath) : FilePath := path.dropLast ++ [stem (path.getLastD "") ++ ".json"]

def pathLe : FilePath → FilePath → Bool
  | [], _ => true
  | _ :: _, [] => false
  | a :: p, b :: q => a < b || (a = b && pathLe p q)

/-- `sorted(directory.rglob("*.session"))`. -/
def sessionPaths (pkg : Package) : List FilePath :=
  ((pkg.entries.map Prod.fst).filter fun path => (path.getLastD "").endsWith ".session").insertionSort
    fun p q => pathLe p q = true

def importItem (py : Python) (pkg : Package) (sessionPath : FilePath) : Option ImportItem :=
  let metaPath := withJson sessionPath
  (loadMeta py pkg metaPath).map fun metadata => {
    key := stem (sessionPath.getLastD "")
    sessionPath := sessionPath
    fmt := ((pkg.node? sessionPath).map detectFormat).getD .unknown
    metadata := metadata
    metaPath := if (pkg.node? metaPath).isSome then some metaPath else none }

/-- `parse_directory`. -/
def parseDirectory (py : Python) (pkg : Package) : Option (List ImportItem) :=
  (sessionPaths pkg).mapM (importItem py pkg)

/-- The status of an attempt, once the client is built. -/
def Attempt.result (attempt : Attempt) (key : String) (twoFa : Bool) : ValidationResult :=
  match attempt with
  | .invalid detail => { key, status := .invalidFormat, detail := some detail }
  | .timeout detail => { key, status := .error, detail := some detail }
  | .unauthorized => { key, status := if twoFa then .twofaLocked else .authFailed }
  | .authorized id username => { key, status := .verified, userId := some id, username }
  | .passwordNeeded => { key, status := .twofaLocked }
  | .userDeactivated | .phoneNumberBanned => { key, status := .deactivated }
  | .authKeyError => { key, status := .authFailed }
  | .exception detail => { key, status := .error, detail := some detail }

/-- `validate_item`, given what Telegram says to the session at a path. -/
def validateItem (telegram : FilePath → Attempt) (item : ImportItem) : ValidationResult :=
  let value := fun key => (item.metadata.lookup key).getD .null
  if item.fmt ≠ .sqlite then
    { key := item.key, status := .invalidFormat
      detail := some ("unsupported format: " ++ item.fmt.value) }
  else if item.metadata.isEmpty then
    { key := item.key, status := .invalidFormat
      detail := some "missing json metadata (app_id/app_hash required)" }
  else if (value "app_id") matches .null || !(value "app_hash").truthy then
    { key := item.key, status := .invalidFormat, detail := some "meta missing app_id/app_hash" }
  else (telegram item.sessionPath).result item.key (value "twoFA").truthy

structure ManifestRow where
  result : ValidationResult
  sessionPath : Option FilePath
  metaPath : Option FilePath
  deriving DecidableEq, Repr

/-- `item_by_key`: the last item of a key. -/
def itemByKey (items : List ImportItem) (key : String) : Option ImportItem :=
  items.reverse.find? fun item => item.key = key

/-- `_result_dict`. -/
def resultDict (items : List ImportItem) (r : ValidationResult) : ManifestRow where
  result := r
  sessionPath := (itemByKey items r.key).map ImportItem.sessionPath
  metaPath := (itemByKey items r.key).bind ImportItem.metaPath

/-- The rows that `main` prints with `--json`. -/
def manifest (telegram : FilePath → Attempt) (items : List ImportItem) : List ManifestRow :=
  items.map fun item => resultDict items (validateItem telegram item)

/-! ## What a row points at -/

variable {py : Python} {pkg : Package} {telegram : FilePath → Attempt} {items : List ImportItem}
  {item : ImportItem}

theorem itemByKey_isSome (h : item ∈ items) : (itemByKey items item.key).isSome := by
  unfold itemByKey
  rw [List.find?_isSome]
  exact ⟨item, List.mem_reverse.mpr h, by simp⟩

theorem key_validateItem : (validateItem telegram item).key = item.key := by
  unfold validateItem
  dsimp only
  split_ifs
  · rfl
  · rfl
  · rfl
  · unfold Attempt.result
    split <;> rfl

theorem exists_importItem (h : parseDirectory py pkg = some items) (hitem : item ∈ items) :
    ∃ path, importItem py pkg path = some item := by
  unfold parseDirectory at h
  generalize sessionPaths pkg = paths at h
  induction paths generalizing items with
  | nil =>
    cases h
    cases hitem
  | cons path paths ih =>
    rw [List.mapM_cons] at h
    obtain ⟨first, hfirst, h⟩ := Option.bind_eq_some_iff.mp h
    obtain ⟨rest, hrest, h⟩ := Option.bind_eq_some_iff.mp h
    cases h
    rcases List.mem_cons.mp hitem with rfl | hitem
    · exact ⟨path, hfirst⟩
    · exact ih hitem hrest

theorem bytes_of_sqlite {path : FilePath} (h : importItem py pkg path = some item)
    (hfmt : item.fmt = .sqlite) :
    (pkg.bytes? item.sessionPath).isSome := by
  obtain ⟨metadata, -, rfl⟩ := Option.map_eq_some_iff.mp h
  unfold Package.bytes?
  cases hnode : pkg.node? path with
  | none => simp [hnode] at hfmt
  | some node =>
    cases node with
    | file bytes => rfl
    | directory => simp [hnode, detectFormat] at hfmt

theorem metaPath_of_metadata {path : FilePath} (h : importItem py pkg path = some item)
    (hmeta : item.metadata ≠ []) :
    ∃ p bytes, item.metaPath = some p ∧ pkg.bytes? p = some bytes := by
  obtain ⟨metadata, hload, rfl⟩ := Option.map_eq_some_iff.mp h
  cases hbytes : pkg.bytes? (withJson path) with
  | none =>
    unfold loadMeta at hload
    rw [hbytes] at hload
    exact absurd (Option.some.inj hload).symm hmeta
  | some bytes =>
    refine ⟨withJson path, bytes, ?_, hbytes⟩
    have hnode : (pkg.node? (withJson path)).isSome := by
      unfold Package.bytes? at hbytes
      split at hbytes
      · simp [*]
      · cases hbytes
    simp [hnode]

end TgPlatform.SessionImport
