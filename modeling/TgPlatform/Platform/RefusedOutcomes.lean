import TgPlatform.Ai.Candidates
import TgPlatform.Control.Plane
import TgPlatform.Import.Zip
import TgPlatform.Lib.Machine
import TgPlatform.Lib.Routine
import TgPlatform.Platform.Approvals

/-! # Outcomes of refused requests

A decision on an expired approval writes `expired` to it and then raises, and
where the subprocess of an import fails, its batch gets `failed` before the
exception goes on. The transaction of the request ends with the exception, so
that neither is committed. The same goes for an approval whose job cannot be
queued.
-/

namespace TgPlatform

open SessionImport (AccountTable AccountRow DetailEntry ImportBatch ManifestRow Package)

inductive BatchStatus | processing | completed | failed
  deriving DecidableEq, Repr

/-- `TgImportBatch`. -/
structure BatchRow where
  uuid : String
  tenantId : ℕ
  projectId : ℕ
  operatorId : UserId
  filename : String
  fileSha256 : String
  total : ℕ := 0
  verified : ℕ := 0
  failed : ℕ := 0
  status : BatchStatus := .processing
  detail : Option (List DetailEntry) := none
  finishedAt : Option Time := none
  deriving DecidableEq, Repr

structure AuditTables where
  dir : Directory
  candidates : Table ReplyCandidate
  approvals : Table Approval
  jobs : List DeliveryJob
  batches : Table BatchRow
  accounts : AccountTable

/-- A database session: the tables as it sees them, and the account rows that it flushes only when
it commits. -/
structure AuditSession where
  tables : AuditTables
  added : List AccountRow

def AuditTables.begin (t : AuditTables) : AuditSession := ⟨t, []⟩

def AuditSession.commit (s : AuditSession) : Except Raised AuditTables :=
  match s.tables.accounts.insertAll s.added with
  | some accounts => .ok { s.tables with accounts }
  | none => .error (.uncaught "IntegrityError")

inductive RecordedOutcome
  | expired (pk : ApprovalId)
  | decided (pk : ApprovalId) (verdict : Verdict)
  | importFailed (batchId : ℕ)
  | importCompleted (batchId : ℕ)
  deriving DecidableEq, Repr

def RecordedOutcome.In : RecordedOutcome → AuditTables → Prop
  | .expired pk, t => (t.approvals.get? pk).map Approval.status = some .expired
  | .decided pk verdict, t => (t.approvals.get? pk).map Approval.status = some verdict.status
  | .importFailed id, t => (t.batches.get? id).map BatchRow.status = some .failed
  | .importCompleted id, t => (t.batches.get? id).map BatchRow.status = some .completed

/-- What an upload is and what the surroundings answer while it is imported. -/
structure ImportUpload where
  filename : Option String
  size : ℕ
  sha256 : String
  /-- `TG_IMPORT_MAX_SIZE_MB`. -/
  maxSizeMb : ℕ
  /-- The uuid of the batch. -/
  uuid : String
  /-- The exception of storing the package in the batch directory. -/
  store : Option Raised
  /-- The manifest of the subprocess, with what its paths point at. -/
  cli : Except Raised (Package × List ManifestRow)
  /-- The clock at the end. -/
  now : Time

/-- The part of a request that works on its database session. -/
abbrev Audited (α : Type) : Type := Routine AuditSession RecordedOutcome Raised α

namespace Audited

open Routine

def refuse {α : Type} (kind : ErrorKind) (msg : String) : Audited α := raise (.error ⟨kind, msg⟩)

def readTables {α : Type} (f : AuditTables → α) : Audited α := read fun s => f s.tables

def writeTables (f : AuditTables → AuditTables) : Audited Unit :=
  modify fun s => { s with tables := f s.tables }

def record (w : RecordedOutcome) (f : AuditTables → AuditTables) : Audited Unit := do
  writeTables f
  emit w

/-- `_check_scope`. -/
def checkScope (caller : Caller) (tenantId projectId : ℕ) : Audited Unit := do
  let scopes ← readTables fun t => t.dir.scopes caller.id
  if caller.isSuperuser || (tenantId, projectId) ∈ scopes then pure ()
  else refuse .forbidden "无该项目权限"

section Evaluation

variable {α β : Type} {f : AuditTables → α} {g : AuditTables → AuditTables} {k : α → Audited β}
  {k' : Unit → Audited β} {s : AuditSession} {w : RecordedOutcome}

theorem readTables_bind : (readTables f >>= k) s = k (f s.tables) s := rfl

theorem writeTables_bind : (writeTables g >>= k') s = k' () { s with tables := g s.tables } := rfl

theorem record_bind : (record w g >>= k') s =
    ⟨w :: (k' () { s with tables := g s.tables }).log, (k' () { s with tables := g s.tables }).state,
      (k' () { s with tables := g s.tables }).result⟩ := rfl

def Permits (t : AuditTables) (caller : Caller) (tenantId projectId : ℕ) : Prop :=
  caller.isSuperuser = true ∨ (tenantId, projectId) ∈ t.dir.scopes caller.id

theorem checkScope_bind_of_permits {caller : Caller} {tenantId projectId : ℕ}
    (h : Permits s.tables caller tenantId projectId) :
    (checkScope caller tenantId projectId >>= k') s = k' () s := by
  unfold checkScope
  rw [Routine.bind_assoc, readTables_bind, if_pos (by simpa [Permits] using h)]
  rfl

theorem checkScope_bind_of_not_permits {caller : Caller} {tenantId projectId : ℕ}
    (h : ¬ Permits s.tables caller tenantId projectId) :
    (checkScope caller tenantId projectId >>= k') s =
      ⟨[], s, .error (.error ⟨.forbidden, "无该项目权限"⟩)⟩ := by
  unfold checkScope
  rw [Routine.bind_assoc, readTables_bind, if_neg (by simpa [Permits] using h)]
  rfl

end Evaluation

/-! ## Decisions on approvals -/

/-- The lookups of `_create_send_job`. -/
def jobScope (t : AuditTables) (approval : Approval) (candidate : ReplyCandidate) : Option JobScope := do
  let tenant ← t.dir.tenant approval.tenantId
  let project ← t.dir.project approval.projectId
  let account ← t.dir.accountByScope approval.tenantId approval.projectId candidate.accountId
  return ⟨tenant.uuid, project.uuid, account.uuid⟩

def hasJob (t : AuditTables) (approval : Approval) : Bool :=
  t.jobs.any fun j => j.idempotencyKey = approval.jobKey

/-- `_create_send_job`. -/
def createSendJob (approval : Approval) (candidate : ReplyCandidate) (now : Time) : Audited Unit := do
  if ← readTables fun t => hasJob t approval then pure ()
  else
    match ← readTables fun t => jobScope t approval candidate with
    | none => refuse .notFound "候选关联的租户/项目/账号缺失"
    | some scope => writeTables fun t =>
      { t with jobs := t.jobs ++ [(approval.reply candidate scope).job now] }

/-- `_decide`; `now` is the clock of the decision, `jobNow` that of the job. -/
def decide (superuser : Bool) (r : DecideRequest) (now jobNow : Time) : Audited Unit := do
  match ← readTables fun t => t.approvals.get? r.pk with
  | none => refuse .notFound "审批单不存在"
  | some approval => do
    checkScope ⟨r.userId, superuser⟩ approval.tenantId approval.projectId
    if approval.status ≠ .pending then refuse .request "审批已处理"
    else if approval.expiresAt < now then do
      record (.expired r.pk) fun t =>
        { t with approvals := t.approvals.update r.pk fun a => { a with status := .expired } }
      refuse .request "审批已过期"
    else
      match ← readTables fun t => t.candidates.get? approval.candidateId with
      | none => refuse .notFound "候选不存在"
      | some candidate =>
        if candidate.version ≠ r.expectVersion || candidate.version ≠ approval.candidateVersion then
          refuse .conflict "候选版本已变更,审批失效"
        else if candidate.contentHash ≠ r.expectHash || candidate.contentHash ≠ approval.contentHash then
          refuse .conflict "内容 hash 不匹配,审批失效"
        else do
          record (.decided r.pk r.verdict) fun t =>
            { t with approvals := t.approvals.update r.pk fun a => { a with
              status := r.verdict.status, reviewerId := some r.userId, decidedAt := some now
              reason := r.reason } }
          writeTables fun t => { t with
            candidates := t.candidates.update approval.candidateId fun c =>
              { c with status := r.verdict.status } }
          if r.verdict = .approved then createSendJob approval candidate jobNow else pure ()

/-! ## Imports -/

/-- The row that `import_zip` writes when its subprocess fails. -/
def failedDetail : List DetailEntry :=
  [{ key := "*", status := .result .error, userId := none, username := none
     detail := some "import subprocess failed" }]

/-- `import_zip` once the manifest is there. -/
def importManifest (batch : ImportBatch) (pkg : Package) (rows : List ManifestRow) (now : Time) :
    Audited Unit := do
  let accounts ← readTables AuditTables.accounts
  match rows.foldlM (SessionImport.importRow pkg accounts batch) .start with
  | none => raise (.uncaught "OSError")
  | some done => do
    modify fun s => { s with added := s.added ++ done.added }
    let verified := (rows.filter fun r => r.result.status = .verified).length
    record (.importCompleted batch.id) fun t =>
      { t with batches := t.batches.update batch.id fun b => { b with
        total := rows.length, verified, failed := rows.length - verified, status := .completed
        detail := some done.detail, finishedAt := some now } }

/-- `import_zip`. -/
def importZip (caller : Caller) (tenantId projectId : ℕ) (upload : ImportUpload) : Audited Unit := do
  checkScope caller tenantId projectId
  match ← readTables fun t => t.dir.project projectId with
  | none => refuse .notFound "项目不存在"
  | some project =>
    if project.tenantId ≠ tenantId then refuse .forbidden "项目不属于该租户"
    else if upload.maxSizeMb * 1024 * 1024 < upload.size then refuse .request "文件超过大小上限"
    else do
      let id ← readTables fun t => t.batches.size
      writeTables fun t => { t with batches := t.batches.insert {
        uuid := upload.uuid, tenantId, projectId, operatorId := caller.id
        filename := orElse upload.filename "upload.zip", fileSha256 := upload.sha256 } }
      attempt upload.store
      match upload.cli with
      | .error e => do
        record (.importFailed id) fun t =>
          { t with batches := t.batches.update id fun b => { b with
            status := .failed, finishedAt := some upload.now, detail := some failedDetail } }
        raise e
      | .ok (pkg, rows) => importManifest ⟨id, upload.uuid, tenantId, projectId⟩ pkg rows upload.now

end Audited

inductive AuditRequest
  | decide (superuser : Bool) (r : DecideRequest) (now jobNow : Time)
  | importZip (caller : Caller) (tenantId projectId : ℕ) (upload : ImportUpload)

namespace AuditRequest

open Routine

def handle : AuditRequest → Audited Unit
  | .decide superuser r now jobNow => Audited.decide superuser r now jobNow
  | .importZip caller tenantId projectId upload => Audited.importZip caller tenantId projectId upload

def step (t : AuditTables) (r : AuditRequest) : Option AuditTables :=
  some (transaction AuditTables.begin AuditSession.commit r.handle t).state

/-- Every outcome that the services have recorded before they reported an error is committed. -/
def KeepsRecords (t : AuditTables) (r : AuditRequest) (_ : AuditTables) : Prop :=
  KeepsLog AuditTables.begin AuditSession.commit RecordedOutcome.In r.handle t

/-- The caller may decide on the approval, which is pending. -/
structure MayDecide (t : AuditTables) (superuser : Bool) (r : DecideRequest) (approval : Approval) :
    Prop where
  found : t.approvals.get? r.pk = some approval
  permitted : Audited.Permits t ⟨r.userId, superuser⟩ approval.tenantId approval.projectId
  pending : approval.status = .pending

/-- The request decides on the version and the content that the approval is about. -/
structure Accords (t : AuditTables) (r : DecideRequest) (approval : Approval)
    (candidate : ReplyCandidate) : Prop where
  found : t.candidates.get? approval.candidateId = some candidate
  version : candidate.version = r.expectVersion ∧ candidate.version = approval.candidateVersion
  hash : candidate.contentHash = r.expectHash ∧ candidate.contentHash = approval.contentHash

/-- The import gets to its subprocess. -/
structure MayImport (t : AuditTables) (caller : Caller) (tenantId projectId : ℕ)
    (upload : ImportUpload) : Prop where
  permitted : Audited.Permits t caller tenantId projectId
  project : (t.dir.project projectId).map Project.tenantId = some tenantId
  size : upload.size ≤ upload.maxSizeMb * 1024 * 1024
  store : upload.store = none

/-- The outcome that a request records before it reports an error: the approval has expired, or the
job of an approved one cannot be queued, or the subprocess of the import fails. -/
inductive Discards (t : AuditTables) : AuditRequest → RecordedOutcome → Prop
  | expired {superuser : Bool} {r : DecideRequest} {now jobNow : Time} {approval : Approval} :
      MayDecide t superuser r approval → approval.expiresAt < now →
      Discards t (.decide superuser r now jobNow) (.expired r.pk)
  | unqueued {superuser : Bool} {r : DecideRequest} {now jobNow : Time} {approval : Approval}
      {candidate : ReplyCandidate} :
      MayDecide t superuser r approval → ¬ approval.expiresAt < now → Accords t r approval candidate →
      r.verdict = .approved → Audited.hasJob t approval = false →
        Audited.jobScope t approval candidate = none →
      Discards t (.decide superuser r now jobNow) (.decided r.pk .approved)
  | importFailed {caller : Caller} {tenantId projectId : ℕ} {upload : ImportUpload} {e : Raised} :
      MayImport t caller tenantId projectId upload → upload.cli = .error e →
      Discards t (.importZip caller tenantId projectId upload) (.importFailed t.batches.size)

/-- How a request ends: refused without a record, refused with the one it discards, or answered. -/
inductive RequestEnds (t : AuditTables) (r : AuditRequest) :
    List RecordedOutcome → Except Raised Unit → Prop
  | refused (e : Raised) : (∀ w, ¬ Discards t r w) → RequestEnds t r [] (.error e)
  | discards {w : RecordedOutcome} (e : Raised) : Discards t r w → RequestEnds t r [w] (.error e)
  | answered (log : List RecordedOutcome) : (∀ w, ¬ Discards t r w) → RequestEnds t r log (.ok ())

variable {t : AuditTables} {superuser : Bool} {r : DecideRequest} {now jobNow : Time}
  {approval : Approval}

theorem approval_of_discards {w : RecordedOutcome} (h : Discards t (.decide superuser r now jobNow) w) :
    ∃ approval, MayDecide t superuser r approval := by
  cases h with
  | expired hmay _ => exact ⟨_, hmay⟩
  | unqueued hmay _ _ _ _ _ => exact ⟨_, hmay⟩

theorem unqueued_of_discards {w : RecordedOutcome} (hmay : MayDecide t superuser r approval)
    (hlive : ¬ approval.expiresAt < now) (h : Discards t (.decide superuser r now jobNow) w) :
    ∃ candidate, Accords t r approval candidate ∧ r.verdict = .approved ∧
      Audited.hasJob t approval = false ∧ Audited.jobScope t approval candidate = none := by
  cases h with
  | expired hmay' hexpired =>
    obtain rfl := Option.some.inj (hmay.found.symm.trans hmay'.found)
    exact absurd hexpired hlive
  | unqueued hmay' _ haccords hverdict hjob hscope =>
    obtain rfl := Option.some.inj (hmay.found.symm.trans hmay'.found)
    exact ⟨_, haccords, hverdict, hjob, hscope⟩

variable (jobNow) in
theorem createSendJob_ends {candidate : ReplyCandidate} {s : AuditSession}
    (hjobs : s.tables.jobs = t.jobs) (hdir : s.tables.dir = t.dir) :
    (Audited.createSendJob approval candidate jobNow s).log = [] ∧
      ((Audited.createSendJob approval candidate jobNow s).result = .ok () ∧
          (Audited.hasJob t approval = true ∨ (Audited.jobScope t approval candidate).isSome) ∨
        (∃ e, (Audited.createSendJob approval candidate jobNow s).result = .error e) ∧
          Audited.hasJob t approval = false ∧ Audited.jobScope t approval candidate = none) := by
  have hhas : Audited.hasJob s.tables approval = Audited.hasJob t approval := by
    unfold Audited.hasJob
    rw [hjobs]
  have hscope : Audited.jobScope s.tables approval candidate =
    Audited.jobScope t approval candidate := by
    unfold Audited.jobScope
    rw [hdir]
  unfold Audited.createSendJob
  rw [Audited.readTables_bind, hhas]
  cases Audited.hasJob t approval with
  | true => exact ⟨rfl, .inl ⟨rfl, .inl rfl⟩⟩
  | false =>
    rw [if_neg (by simp), Audited.readTables_bind, hscope]
    cases Audited.jobScope t approval candidate with
    | none => exact ⟨rfl, .inr ⟨⟨_, rfl⟩, rfl, rfl⟩⟩
    | some scope => exact ⟨rfl, .inl ⟨rfl, .inr rfl⟩⟩

theorem requestEnds_decide : RequestEnds t (.decide superuser r now jobNow)
    (Audited.decide superuser r now jobNow t.begin).log
      (Audited.decide superuser r now jobNow t.begin).result := by
  unfold Audited.decide
  rw [Audited.readTables_bind]
  have hfirst : t.begin.tables = t := rfl
  rw [hfirst]
  cases hfound : t.approvals.get? r.pk with
  | none =>
    refine .refused _ fun w hw => ?_
    obtain ⟨approval, happroval⟩ := approval_of_discards hw
    rw [happroval.found] at hfound
    cases hfound
  | some approval =>
    have hsame : ∀ {approval'}, MayDecide t superuser r approval' → approval' = approval :=
      fun h => Option.some.inj (h.found.symm.trans hfound)
    by_cases hpermits : Audited.Permits t ⟨r.userId, superuser⟩ approval.tenantId approval.projectId
    swap
    · simp only [Audited.checkScope_bind_of_not_permits (s := t.begin) hpermits]
      refine .refused _ fun w hw => ?_
      obtain ⟨approval', happroval⟩ := approval_of_discards hw
      obtain rfl := hsame happroval
      exact hpermits happroval.permitted
    simp only [Audited.checkScope_bind_of_permits (s := t.begin) hpermits]
    by_cases hpending : approval.status = .pending
    swap
    · rw [if_pos hpending]
      refine .refused _ fun w hw => ?_
      obtain ⟨approval', happroval⟩ := approval_of_discards hw
      obtain rfl := hsame happroval
      exact hpending happroval.pending
    have hmay : MayDecide t superuser r approval := ⟨hfound, hpermits, hpending⟩
    rw [if_neg (not_not_intro hpending)]
    by_cases hexpired : approval.expiresAt < now
    · rw [if_pos hexpired]
      exact .discards _ (.expired hmay hexpired)
    rw [if_neg hexpired, Audited.readTables_bind, hfirst]
    cases hcandidate : t.candidates.get? approval.candidateId with
    | none =>
      refine .refused _ fun w hw => ?_
      obtain ⟨candidate, haccords, -⟩ := unqueued_of_discards hmay hexpired hw
      rw [haccords.found] at hcandidate
      cases hcandidate
    | some candidate =>
      have hsame' : ∀ {candidate'}, Accords t r approval candidate' → candidate' = candidate :=
        fun h => Option.some.inj (h.found.symm.trans hcandidate)
      dsimp only
      split
      · rename_i hversion
        refine .refused _ fun w hw => ?_
        obtain ⟨candidate', haccords, -⟩ := unqueued_of_discards hmay hexpired hw
        obtain rfl := hsame' haccords
        simp [← haccords.version.1, ← haccords.version.2] at hversion
      rename_i hversion
      split
      · rename_i hhash
        refine .refused _ fun w hw => ?_
        obtain ⟨candidate', haccords, -⟩ := unqueued_of_discards hmay hexpired hw
        obtain rfl := hsame' haccords
        simp [← haccords.hash.1, ← haccords.hash.2] at hhash
      rename_i hhash
      have haccords : Accords t r approval candidate :=
        ⟨hcandidate, by simpa using hversion, by simpa using hhash⟩
      rw [Audited.record_bind, Audited.writeTables_bind]
      by_cases hverdict : r.verdict = .approved
      swap
      · rw [if_neg hverdict]
        refine .answered _ fun w hw => ?_
        obtain ⟨candidate', -, happroved, -⟩ := unqueued_of_discards hmay hexpired hw
        exact hverdict happroved
      rw [if_pos hverdict]
      generalize hsession : AuditSession.mk _ _ = s
      have hjobs : s.tables.jobs = t.jobs := by rw [← hsession]; rfl
      have hdir : s.tables.dir = t.dir := by rw [← hsession]; rfl
      obtain ⟨hlog, hends⟩ := createSendJob_ends jobNow hjobs hdir
      dsimp only
      rw [hlog]
      rcases hends with ⟨hok, hqueues⟩ | ⟨⟨e, he⟩, hjob, hscope⟩
      · rw [hok]
        refine .answered _ fun w hw => ?_
        obtain ⟨candidate', haccords', -, hjob, hscope⟩ := unqueued_of_discards hmay hexpired hw
        obtain rfl := hsame' haccords'
        simp [hjob, hscope] at hqueues
      · rw [he, hverdict]
        exact .discards e (.unqueued hmay hexpired haccords hverdict hjob hscope)

theorem importManifest_ends {batch : ImportBatch} {pkg : Package} {rows : List ManifestRow}
    {s : AuditSession} :
    (∃ log, (Audited.importManifest batch pkg rows now s).log = log ∧
        (Audited.importManifest batch pkg rows now s).result = .ok ()) ∨
      (Audited.importManifest batch pkg rows now s).log = [] ∧
        ∃ e, (Audited.importManifest batch pkg rows now s).result = .error e := by
  unfold Audited.importManifest
  rw [Audited.readTables_bind]
  cases rows.foldlM (SessionImport.importRow pkg s.tables.accounts batch) .start with
  | none => exact .inr ⟨rfl, _, rfl⟩
  | some done => exact .inl ⟨_, rfl, rfl⟩

theorem requestEnds_importZip {caller : Caller} {tenantId projectId : ℕ} {upload : ImportUpload} :
    RequestEnds t (.importZip caller tenantId projectId upload)
      (Audited.importZip caller tenantId projectId upload t.begin).log
      (Audited.importZip caller tenantId projectId upload t.begin).result := by
  have hmay : ∀ {w}, Discards t (.importZip caller tenantId projectId upload) w →
      MayImport t caller tenantId projectId upload ∧ ∃ e, upload.cli = .error e := by
    rintro _ ⟨⟩
    exact ⟨‹_›, _, ‹_›⟩
  have hfirst : t.begin.tables = t := rfl
  unfold Audited.importZip
  by_cases hpermits : Audited.Permits t caller tenantId projectId
  swap
  · rw [Audited.checkScope_bind_of_not_permits (s := t.begin) hpermits]
    exact .refused _ fun w hw => hpermits (hmay hw).1.permitted
  rw [Audited.checkScope_bind_of_permits (s := t.begin) hpermits, Audited.readTables_bind, hfirst]
  cases hproject : t.dir.project projectId with
  | none =>
    refine .refused _ fun w hw => ?_
    have htenant := (hmay hw).1.project
    simp [hproject] at htenant
  | some project =>
    dsimp only
    split
    · rename_i htenant
      refine .refused _ fun w hw => htenant ?_
      have htenant' := (hmay hw).1.project
      simpa [hproject] using htenant'
    rename_i htenant
    split
    · rename_i hsize
      exact .refused _ fun w hw => absurd (hmay hw).1.size (Nat.not_le.mpr hsize)
    rename_i hsize
    rw [Audited.readTables_bind, Audited.writeTables_bind]
    cases hstore : upload.store with
    | some e =>
      refine .refused e fun w hw => ?_
      have hnone := (hmay hw).1.store
      rw [hstore] at hnone
      cases hnone
    | none =>
      cases hcli : upload.cli with
      | error e =>
        exact .discards e (.importFailed
          ⟨hpermits, by simpa [hproject] using htenant, Nat.le_of_not_lt hsize, hstore⟩ hcli)
      | ok manifest =>
        have hnot : ∀ w, ¬ Discards t (.importZip caller tenantId projectId upload) w := by
          intro w hw
          obtain ⟨-, e, he⟩ := hmay hw
          rw [hcli] at he
          cases he
        obtain ⟨pkg, rows⟩ := manifest
        generalize AuditSession.mk _ _ = s
        change RequestEnds t _
          (Audited.importManifest ⟨t.batches.size, upload.uuid, tenantId, projectId⟩ pkg rows
            upload.now s).log
          (Audited.importManifest ⟨t.batches.size, upload.uuid, tenantId, projectId⟩ pkg rows
            upload.now s).result
        rcases importManifest_ends with ⟨log, hlog, hok⟩ | ⟨hlog, e, he⟩
        · rw [hlog, hok]
          exact .answered log hnot
        · rw [hlog, he]
          exact .refused e hnot

variable {req : AuditRequest} {w : RecordedOutcome}

theorem requestEnds (t : AuditTables) (req : AuditRequest) :
    RequestEnds t req (req.handle t.begin).log (req.handle t.begin).result := by
  cases req with
  | decide => exact requestEnds_decide
  | importZip => exact requestEnds_importZip

theorem not_in_of_discards (h : Discards t req w) : ¬ w.In t := by
  cases h with
  | expired hmay _ => simp [RecordedOutcome.In, hmay.found, hmay.pending]
  | unqueued hmay _ _ _ _ _ => simp [RecordedOutcome.In, hmay.found, hmay.pending, Verdict.status]
  | importFailed _ _ => simp [RecordedOutcome.In, Table.get?_size]

theorem tables_of_discards (h : Discards t req w) :
    (transaction AuditTables.begin AuditSession.commit req.handle t).state = t := by
  apply transaction_of_refuses
  have hends := requestEnds t req
  unfold Refuses
  generalize (req.handle t.begin).log = log at hends
  generalize (req.handle t.begin).result = result at hends ⊢
  cases hends with
  | refused e _ => exact ⟨e, rfl⟩
  | discards e _ => exact ⟨e, rfl⟩
  | answered _ hnot => exact absurd h (hnot w)

theorem keepsRecords_iff (t' : AuditTables) : KeepsRecords t req t' ↔ ∀ w, ¬ Discards t req w := by
  have hends := requestEnds t req
  have hiff : KeepsRecords t req t' ↔ (Refuses req.handle t.begin → (req.handle t.begin).log = []) := by
    apply keepsLog_iff
    rintro ⟨e, he⟩ w hw
    generalize (req.handle t.begin).log = log at hends hw
    rw [he] at hends
    cases hends with
    | refused => cases hw
    | discards _ h =>
      obtain rfl := List.mem_singleton.mp hw
      exact not_in_of_discards h
  rw [hiff]
  unfold Refuses
  generalize (req.handle t.begin).log = log at hends ⊢
  generalize (req.handle t.begin).result = result at hends ⊢
  cases hends with
  | refused e hnot => exact iff_of_true (fun _ => rfl) hnot
  | discards e h =>
    apply iff_of_false
    · intro hempty
      cases hempty ⟨e, rfl⟩
    · intro hnot
      exact hnot _ h
  | answered _ hnot => exact iff_of_true (by rintro ⟨_, ⟨⟩⟩) hnot

/-- A sequence of requests keeps the outcomes that they have recorded exactly if none of them
records one before it reports an error. -/
theorem refused_outcomes_kept_iff (t : AuditTables) (reqs : List AuditRequest) :
    Machine.Always step KeepsRecords t reqs ↔
      Machine.Always step (fun t req _ => ∀ w, ¬ Discards t req w) t reqs := by
  apply Machine.always_iff_of_invariant (I := fun _ => True)
  · intros
    trivial
  · intro t req t' _ _
    exact keepsRecords_iff t'
  · trivial

end AuditRequest

def pendingApproval : AuditTables where
  dir := ⟨[], [], [], [], .nil, .nil, .nil, .nil, .nil, .nil⟩
  candidates := .empty
  approvals := Table.empty.insert {
    uuid := "a", tenantId := 1, projectId := 1, candidateId := 0
    candidateVersion := 1, contentHash := "h"
    expiresAt := 100 }
  jobs := []
  batches := .empty
  accounts := .empty

/-- A superuser decides too late. -/
def lateDecision : AuditRequest :=
  .decide true { pk := 0, userId := 1, expectVersion := 1, expectHash := "h", verdict := .approved }
    200 200

/-- The approval is still pending after the request that has found it expired. -/
theorem expired_approval_stays_pending : ¬ ∀ (t : AuditTables) (reqs : List AuditRequest),
    Machine.Always AuditRequest.step AuditRequest.KeepsRecords t reqs := by
  intro h
  have hkept := (h pendingApproval [lateDecision]).head rfl ⟨_, rfl⟩ (.expired 0) (by decide +kernel)
  have hdiscards : AuditRequest.Discards pendingApproval lateDecision (.expired 0) :=
    .expired ⟨rfl, .inl rfl, rfl⟩ (by decide)
  rw [AuditRequest.tables_of_discards hdiscards] at hkept
  exact AuditRequest.not_in_of_discards hdiscards hkept

end TgPlatform
