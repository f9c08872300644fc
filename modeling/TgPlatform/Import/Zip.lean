import Mathlib.Data.List.Forall2
import TgPlatform.Import.Package

/-! # Importing a package

The control plane copies the session of each validated row into the directory of
its batch, under the key of the row, and adds an account. It looks for accounts
of the same Telegram identity in the database, where the rows of the import
itself are not to be seen before the commit: the database session does not
flush on its own.
-/

namespace TgPlatform.SessionImport

structure SecretRef where
  batch : String
  name : String
  deriving DecidableEq, Repr

/-- A row of `tg_telegram_account`. -/
structure AccountRow where
  tenantId : ℕ
  projectId : ℕ
  importBatchId : Option ℕ
  telegramUserId : Option ℤ
  username : Option String
  secretRef : Option SecretRef
  observedStatus : String
  lastError : Option String
  deleted : ℕ := 0
  deriving DecidableEq, Repr

/-- `uk_tg_account_tguser_deleted`; rows without an identity do not clash. -/
def AccountRow.Clash (a b : AccountRow) : Prop :=
  a.telegramUserId.isSome ∧ a.telegramUserId = b.telegramUserId ∧ a.deleted = b.deleted

instance (a b : AccountRow) : Decidable (a.Clash b) := inferInstanceAs (Decidable (_ ∧ _ ∧ _))

structure AccountTable where
  rows : List AccountRow
  unique : rows.Pairwise fun a b => ¬ a.Clash b

namespace AccountTable

def empty : AccountTable := ⟨[], .nil⟩

variable (t : AccountTable)

/-- The flush of an added row, unless it raises `IntegrityError`. -/
def insert (row : AccountRow) : Option AccountTable :=
  if h : ∀ a ∈ t.rows, ¬ a.Clash row then
    some ⟨t.rows ++ [row], List.pairwise_append.mpr
      ⟨t.unique, List.pairwise_singleton .., fun a ha _ hb => List.mem_singleton.mp hb ▸ h a ha⟩⟩
  else none

/-- The flush of some rows. -/
def insertAll (rows : List AccountRow) : Option AccountTable := rows.foldlM insert t

/-- `get_by_tg_user`; the id of an account is its position. -/
def getByTgUser (userId : ℤ) : Option ℕ :=
  t.rows.findIdx? fun a => a.telegramUserId = some userId && a.deleted = 0

end AccountTable

/-- `STATUS_BY_IMPORT_RESULT`. -/
def statusByImportResult : ImportStatus → Option String
  | .verified => some "imported_quarantine"
  | .authFailed => some "reauth_required"
  | .twofaLocked => some "imported_quarantine"
  | .spamblocked => some "imported_quarantine"
  | .deactivated => some "disabled"
  | .invalidFormat => none
  | .error => none

inductive EntryStatus
  | result (status : ImportStatus)
  | duplicate
  deriving DecidableEq, Repr

structure DetailEntry where
  key : String
  status : EntryStatus
  userId : Option ℤ
  username : Option String
  detail : Option String
  deriving DecidableEq, Repr

structure ImportBatch where
  id : ℕ
  uuid : String
  tenantId : ℕ
  projectId : ℕ
  deriving DecidableEq, Repr

structure ImportState where
  /-- The files of the batch directory. -/
  files : String → Option Bytes
  /-- The rows that are added and not flushed. -/
  added : List AccountRow
  detail : List DetailEntry

def ImportState.start : ImportState := ⟨fun _ => none, [], []⟩

def sessionName (key : String) : String := key ++ ".session"

def metaName (key : String) : String := key ++ ".json"

/-- `shutil.copy2`; a directory raises. -/
def copy2 (pkg : Package) (files : String → Option Bytes) (src : FilePath) (dst : String) :
    Option (String → Option Bytes) :=
  (pkg.bytes? src).map fun bytes => Function.update files dst (some bytes)

/-- `existing`, the account of the row's identity that the database shows. -/
def existingOf (accounts : AccountTable) (r : ValidationResult) : Option ℕ :=
  (r.userId.filter (· ≠ 0)).bind accounts.getByTgUser

def entryOf (r : ValidationResult) (existing : Option ℕ) : DetailEntry where
  key := r.key
  status := if existing.isSome then .duplicate else .result r.status
  userId := r.userId
  username := r.username
  detail := (existing.map fun id => s!"已存在账号 id={id}").or r.detail

def accountOf (batch : ImportBatch) (r : ValidationResult) (observedStatus : String) : AccountRow where
  tenantId := batch.tenantId
  projectId := batch.projectId
  importBatchId := some batch.id
  telegramUserId := r.userId
  username := r.username
  secretRef := some ⟨batch.uuid, sessionName r.key⟩
  observedStatus := observedStatus
  lastError := r.detail

def copyFiles (pkg : Package) (files : String → Option Bytes) (r : ManifestRow)
    (sessionPath : FilePath) :
    Option (String → Option Bytes) := do
  let files ← copy2 pkg files sessionPath (sessionName r.result.key)
  match r.metaPath with
  | some metaPath => copy2 pkg files metaPath (metaName r.result.key)
  | none => some files

/-- The loop body of `import_zip`. -/
def importRow (pkg : Package) (accounts : AccountTable) (batch : ImportBatch) (s : ImportState)
    (r : ManifestRow) :
    Option ImportState :=
  match statusByImportResult r.result.status, r.sessionPath with
  | some observedStatus, some sessionPath =>
    match existingOf accounts r.result with
    | some id => some { s with detail := s.detail ++ [entryOf r.result (some id)] }
    | none => (copyFiles pkg s.files r sessionPath).map fun files => {
        files := files
        added := s.added ++ [accountOf batch r.result observedStatus]
        detail := s.detail ++ [entryOf r.result none] }
  | _, _ => some { s with detail := s.detail ++ [entryOf r.result none] }

structure Imported where
  accounts : AccountTable
  files : String → Option Bytes
  detail : List DetailEntry
  total : ℕ
  verified : ℕ
  failed : ℕ

/-- `import_zip` with the commit of its session; an exception rolls everything back. -/
def importZip (pkg : Package) (accounts : AccountTable) (batch : ImportBatch) (rows : List ManifestRow) :
    Option Imported := do
  let s ← rows.foldlM (importRow pkg accounts batch) .start
  let accounts ← accounts.insertAll s.added
  let verified := (rows.filter fun r => r.result.status = .verified).length
  return {
    accounts, files := s.files, detail := s.detail, total := rows.length, verified
    failed := rows.length - verified }

end TgPlatform.SessionImport
