import TgPlatform.Lib.Table
import TgPlatform.Planner.Plan
import TgPlatform.Delivery.Model

/-! # Stored rows

The runtime's tables. The surrogate keys are the row positions; the unique
constraints are checked by the transactions that insert.
-/

namespace TgPlatform

abbrev JobId := ℕ
abbrev RowId := ℕ

structure SourceMessage where
  tenantId : TenantId
  projectId : ProjectId
  message : MessageKey
  latestRevision : ℤ
  groupedId : Option ℤ
  contentHash : Option String
  tombstone : Bool := false
  deriving DecidableEq, Repr

/-- The columns of `uq_source_message_identity`. -/
def SourceMessage.identity (m : SourceMessage) : TenantId × ProjectId × MessageKey :=
  (m.tenantId, m.projectId, m.message)

structure EventInbox where
  message : MessageKey
  kind : EventKind
  revision : ℤ
  accountId : AccountId
  payloadRef : Option String
  payloadHash : Option String
  groupedId : Option ℤ
  topicId : Option ℤ
  replyToSourceId : Option ℤ
  protected_ : Bool
  sourceSenderId : Option ℤ
  sourceMediaKind : Option String
  sourceSenderBot : Option Bool
  ingestSeq : ℤ := 0
  processed : Bool := false
  deriving DecidableEq, Repr

/-- The columns of `uq_event_inbox_dedup`. -/
abbrev DedupKey := MessageKey × EventKind × ℤ

def EventInbox.dedup (r : EventInbox) : DedupKey := (r.message, r.kind, r.revision)

def SourceEvent.dedup (e : SourceEvent) : DedupKey := (e.message, e.kind, e.revision)

/-- The inbox row `ingest` writes for an event. -/
def inboxRow (e : SourceEvent) (ingestSeq : ℤ) : EventInbox where
  message := e.message
  kind := e.kind
  revision := e.revision
  accountId := e.accountId
  payloadRef := e.payloadRef
  payloadHash := e.payloadHash
  groupedId := e.groupedId
  topicId := e.topicId
  replyToSourceId := e.replyToSourceId
  protected_ := e.protected_
  sourceSenderId := e.senderId
  sourceMediaKind := e.mediaKind
  sourceSenderBot := some e.senderIsBot
  ingestSeq := ingestSeq

def eventFromInbox (r : EventInbox) : SourceEvent where
  kind := r.kind
  sourceScope := r.message.sourceScope
  sourceChatId := r.message.sourceChatId
  sourceMessageId := r.message.sourceMessageId
  revision := r.revision
  accountId := r.accountId
  groupedId := r.groupedId
  payloadRef := r.payloadRef
  payloadHash := r.payloadHash
  replyToSourceId := r.replyToSourceId
  topicId := r.topicId
  protected_ := r.protected_
  senderId := r.sourceSenderId
  mediaKind := r.sourceMediaKind
  senderIsBot := r.sourceSenderBot.getD false

/-- Storing an event and reading it back loses nothing. -/
theorem eventFromInbox_inboxRow (e : SourceEvent) (seq : ℤ) :
    eventFromInbox (inboxRow e seq) = e := rfl

structure DeliveryJob where
  tenantId : TenantId
  projectId : ProjectId
  idempotencyKey : String
  kind : String
  routeId : RouteId
  ruleId : RuleId
  ruleVersion : ℤ
  accountId : AccountId
  message : MessageKey
  revision : ℤ
  targetChatId : ℤ
  targetTopicId : Option ℤ
  mode : String
  payloadRef : Option String
  payloadHash : Option String
  requiresApproval : Bool
  replyToTargetMessageId : Option ℤ
  groupedId : Option ℤ
  status : JobStatus
  attemptCount : ℤ := 0
  nextAttemptAt : Option Time := none
  floodWaitUntil : Option Time := none
  lastErrorClass : Option ErrorClass := none
  createdAt : Time
  updatedAt : Time
  deriving DecidableEq, Repr

inductive AttemptStatus
  | job (status : JobStatus)
  | abandoned
  deriving DecidableEq, Repr

structure DeliveryAttempt where
  jobId : JobId
  attemptNo : ℤ
  workerGeneration : ℤ
  startedAt : Time
  finishedAt : Option Time := none
  resultStatus : Option AttemptStatus := none
  errorClass : Option ErrorClass := none
  requestRef : Option String := none
  deriving DecidableEq, Repr

structure MessageMap where
  tenantId : TenantId
  projectId : ProjectId
  ruleId : RuleId
  routeId : RouteId
  ruleVersionAtCreate : ℤ
  message : MessageKey
  sourceAlbumId : Option ℤ
  senderAccountId : AccountId
  targetChatId : ℤ
  targetTopicId : Option ℤ
  targetMessageId : ℤ
  outputPartIndex : ℤ := 0
  lastAppliedRevision : ℤ
  deliveryJobId : JobId
  status : String := "delivered"
  deletedAt : Option Time := none
  deriving DecidableEq, Repr

/-- The columns of `uq_message_map_route_output`. -/
def MessageMap.identity (m : MessageMap) :
    TenantId × ProjectId × RouteId × MessageKey × ℤ :=
  (m.tenantId, m.projectId, m.routeId, m.message, m.outputPartIndex)

structure AccountLease where
  workerId : WorkerId
  generation : ℤ
  leaseUntil : Time
  deriving DecidableEq, Repr

structure Database where
  sourceMessages : Table SourceMessage
  eventInbox : Table EventInbox
  deliveryJobs : Table DeliveryJob
  deliveryAttempts : Table DeliveryAttempt
  messageMaps : Table MessageMap
  /-- `account_lease`, by its primary key. -/
  accountLeases : AccountId → Option AccountLease

def Database.empty : Database := ⟨.empty, .empty, .empty, .empty, .empty, fun _ => none⟩

/-- `_job_from_plan`; `now` is the default of both timestamps. -/
def jobFromPlan (plan : DeliveryPlan) (tenantId : TenantId) (projectId : ProjectId)
    (now : Time) : DeliveryJob where
  tenantId := tenantId
  projectId := projectId
  idempotencyKey := plan.idempotencyKey
  kind := plan.kind.value
  routeId := plan.routeId
  ruleId := plan.ruleId
  ruleVersion := plan.ruleVersion
  accountId := plan.accountId
  message := plan.message
  revision := plan.revision
  targetChatId := plan.targetChatId
  targetTopicId := plan.targetTopicId
  mode := plan.mode.value
  payloadRef := plan.payloadRef
  payloadHash := plan.payloadHash
  requiresApproval := plan.requiresApproval
  replyToTargetMessageId := plan.replyToTargetMessageId
  groupedId := plan.groupedId
  status := if plan.requiresApproval then .waitingApproval else .ready
  createdAt := now
  updatedAt := now

def DeliveryJob.cloneKey (job : DeliveryJob) : CloneKey :=
  ⟨job.ruleId, job.routeId, job.message, job.revision, job.kind⟩

/-- `_JOB_KIND_ALIAS`. -/
def jobKindAlias : String → Option PlanKind
  | "send" => some .send
  | "send_message" => some .send
  | "edit" => some .edit
  | "delete" => some .delete
  | "tombstone" => some .tombstone
  | _ => none

/-- `CloneMode(value)`. -/
def cloneMode : String → Option CloneMode
  | "copy" => some .copy
  | "forward" => some .forward
  | _ => none

/-- `plan_from_job`; `none` stands for the `ValueError` of an unknown kind or mode. -/
def planFromJob (job : DeliveryJob) : Option DeliveryPlan := do
  let kind ← jobKindAlias job.kind
  let mode ← cloneMode job.mode
  return {
    kind, mode
    ruleId := job.ruleId
    ruleVersion := job.ruleVersion
    routeId := job.routeId
    accountId := job.accountId
    sourceScope := job.message.sourceScope
    sourceChatId := job.message.sourceChatId
    sourceMessageId := job.message.sourceMessageId
    revision := job.revision
    targetChatId := job.targetChatId
    targetTopicId := job.targetTopicId
    payloadRef := job.payloadRef
    payloadHash := job.payloadHash
    requiresApproval := job.requiresApproval
    replyToTargetMessageId := job.replyToTargetMessageId
    groupedId := job.groupedId }

theorem planFromJob_eq_some {job : DeliveryJob} {plan : DeliveryPlan}
    (h : planFromJob job = some plan) :
    jobKindAlias job.kind = some plan.kind ∧ plan.message = job.message ∧
      plan.accountId = job.accountId ∧ plan.routeId = job.routeId := by
  simp only [planFromJob, Option.bind_eq_bind, Option.bind_eq_some_iff, Option.pure_def,
    Option.some.injEq] at h
  obtain ⟨kind, hk, mode, _, rfl⟩ := h
  exact ⟨hk, rfl, rfl, rfl⟩

theorem planFromJob_payload {job : DeliveryJob} {plan : DeliveryPlan}
    (h : planFromJob job = some plan) :
    plan.payloadRef = job.payloadRef ∧ plan.payloadHash = job.payloadHash := by
  simp only [planFromJob, Option.bind_eq_bind, Option.bind_eq_some_iff, Option.pure_def,
    Option.some.injEq] at h
  obtain ⟨kind, _, mode, _, rfl⟩ := h
  exact ⟨rfl, rfl⟩

theorem planFromJob_approval {job : DeliveryJob} {plan : DeliveryPlan}
    (h : planFromJob job = some plan) :
    plan.requiresApproval = job.requiresApproval ∧ plan.payloadHash = job.payloadHash := by
  simp only [planFromJob, Option.bind_eq_bind, Option.bind_eq_some_iff, Option.pure_def,
    Option.some.injEq] at h
  obtain ⟨kind, _, mode, _, rfl⟩ := h
  exact ⟨rfl, rfl⟩

theorem jobKindAlias_value (kind : PlanKind) : jobKindAlias kind.value = some kind := by
  cases kind <;> rfl

theorem cloneMode_value (mode : CloneMode) : cloneMode mode.value = some mode := by
  cases mode <;> rfl

theorem planFromJob_jobFromPlan (p : DeliveryPlan) (tenantId : TenantId) (projectId : ProjectId)
    (now : Time) : planFromJob (jobFromPlan p tenantId projectId now) =
      some { p with fetchAccountId := none, transform := false } := by
  have hkind : jobKindAlias (jobFromPlan p tenantId projectId now).kind = some p.kind :=
    jobKindAlias_value p.kind
  have hmode : cloneMode (jobFromPlan p tenantId projectId now).mode = some p.mode :=
    cloneMode_value p.mode
  unfold planFromJob
  rw [hkind, hmode]
  rfl

end TgPlatform
