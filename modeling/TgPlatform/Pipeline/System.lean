import TgPlatform.Worker.Host

/-! # The delivery system

Any number of worker processes and the control platform on one shared
database. An action is one atomic step of one party with everything the
environment decides in it; a run is any sequence of enabled actions.
-/

namespace TgPlatform

/-! ## The control platform -/

/-- An approved reply candidate with the rows `_create_send_job` looks up. -/
structure ApprovedReply where
  approvalUuid : String
  candidateUuid : String
  ruleId : Option RuleId
  accountUuid : AccountId
  tenantUuid : TenantId
  projectUuid : ProjectId
  targetChatId : ℤ
  targetTopicId : Option ℤ
  replyToSourceId : Option ℤ
  contentHash : Option String
  deriving DecidableEq, Repr

/-- The job `_create_send_job` writes. -/
def ApprovedReply.job (x : ApprovedReply) (now : Time) : DeliveryJob where
  tenantId := x.tenantUuid
  projectId := x.projectUuid
  idempotencyKey := s!"approval:{x.approvalUuid}"
  kind := "send_message"
  routeId := s!"ai_candidate:{x.candidateUuid}"
  ruleId := x.ruleId.getD "ai"
  ruleVersion := 0
  accountId := x.accountUuid
  message := ⟨"ai_reply", x.targetChatId, x.replyToSourceId.getD 0⟩
  revision := 0
  targetChatId := x.targetChatId
  targetTopicId := x.targetTopicId
  mode := "copy"
  payloadRef := some s!"candidate:{x.candidateUuid}"
  payloadHash := x.contentHash
  requiresApproval := true
  replyToTargetMessageId := if x.ruleId = none then x.replyToSourceId else none
  groupedId := none
  status := .ready
  createdAt := now
  updatedAt := now

inductive OperatorCall | retry | cancel
  deriving DecidableEq, Repr

/-- `_RETRYABLE` and `_CANCELLABLE`. -/
def OperatorCall.admits : OperatorCall → JobStatus → Bool
  | .retry, status => status ∈ [.failedPermanent, .deadLetter]
  | .cancel, status =>
    status ∈ [.pending, .waitingApproval, .ready, .retryWait, .blocked, .uncertain]

/-- The columns `DeliveryService.retry` and `cancel` write. -/
def OperatorCall.write : OperatorCall → DeliveryJob → DeliveryJob
  | .retry, job => { job with status := .ready, nextAttemptAt := none }
  | .cancel, job => { job with status := .cancelled }

/-! ## States and steps -/

/-- A call of `ingest` between its read and its commit. -/
structure IngestCall where
  tenantId : TenantId
  projectId : ProjectId
  event : SourceEvent
  seen : Option (RowId × SourceMessage)
  deriving DecidableEq, Repr

structure System where
  db : Database
  workers : WorkerId → Worker
  /-- The rule rows the control plane answers with. -/
  published : AccountId → List PublishedRule
  ingests : List IngestCall
  /-- Operator calls whose status test has passed and whose write is still to come. -/
  requests : List (OperatorCall × JobId)
  history : List Event

def System.start (config : WorkerId → WorkerConfig) : System where
  db := .empty
  workers w := .start (config w)
  published _ := []
  ingests := []
  requests := []
  history := []

inductive Action
  | runner (workerId : WorkerId) (accountId : AccountId) (x : RunnerAction)
  | host (workerId : WorkerId) (x : HostAction)
  | crash (workerId : WorkerId)
  | ingestRead (workerId : WorkerId) (accountId : AccountId) (raw : RawUpdate) (pyHash : ℤ)
  | ingestCommit (k : ℕ)
  | publish (accountId : AccountId) (rows : List PublishedRule)
  | enqueue (reply : ApprovedReply) (now : Time)
  | operatorRead (call : OperatorCall) (id : JobId)
  | operatorWrite (k : ℕ)

namespace System

def workerAfter (w : Worker) (accountId : AccountId) (x : RunnerAction) (r : Runner) : Worker :=
  let w := match x with
    | .finish outcome => w.observe outcome
    | _ => w
  { w with runners := Function.update w.runners accountId (some r) }

/-- `make_ingest_handler` never passes an `ingest_seq`, so every row gets the default. -/
def commitIngest (s : System) (c : IngestCall) : System :=
  match s.db.ingestCommit c.seen c.tenantId c.projectId c.event 0 with
  | none => s
  | some db =>
    { s with db, history := s.history ++ [.ingested c.tenantId c.projectId c.event] }

def step (s : System) : Action → Option System
  | .runner w a x =>
    ((s.workers w).runners a).bind fun r =>
      (r.step (s.workers w).deps w a s.db x).map fun e => { s with
        db := e.db
        workers := Function.update s.workers w (workerAfter (s.workers w) a x e.runner)
        history := s.history ++ e.events }
  | .host w x =>
    ((s.workers w).step w s.published s.db x).map fun e => { s with
      db := e.db
      workers := Function.update s.workers w e.worker
      history := s.history ++ e.events }
  | .crash w => some { s with
      workers := Function.update s.workers w (.start (s.workers w).config) }
  | .ingestRead w a raw pyHash =>
    ((s.workers w).sessions a).map fun x =>
      let event := normalize raw a pyHash
      { s with ingests := s.ingests ++
          [⟨x.tenantId, x.projectId, event, s.db.ingestSelect x.tenantId x.projectId event⟩] }
  | .ingestCommit k =>
    (s.ingests[k]?).map fun c => { s with ingests := s.ingests.eraseIdx k }.commitIngest c
  | .publish a rows => some { s with published := Function.update s.published a rows }
  | .enqueue reply now =>
    let job := reply.job now
    if s.db.deliveryJobs.any fun j => j.idempotencyKey = job.idempotencyKey then none
    else some { s with db := { s.db with deliveryJobs := s.db.deliveryJobs.insert job } }
  | .operatorRead call id =>
    (s.db.deliveryJobs.get? id).bind fun job =>
      if call.admits job.status then some { s with requests := s.requests ++ [(call, id)] }
      else none
  | .operatorWrite k =>
    (s.requests[k]?).map fun q => { s with
      requests := s.requests.eraseIdx k
      db := { s.db with deliveryJobs := s.db.deliveryJobs.update q.2 q.1.write } }

abbrev run : System → List Action → Option System := Machine.run step

end System

/-! ## Schedules -/

/-- Worker `w` takes on an account. -/
def assignSteps (w : WorkerId) (a : Assignment) (now : Time) : List Action :=
  [.host w (.assignRead a now), .host w .assignWrite, .host w .assignConnect,
    .host w (.pullRules a.accountId), .host w .applyRules, .host w .assignDone]

def claimSteps (w : WorkerId) (acc : AccountId) (order : List JobId) (now : Time) : List Action :=
  [.runner w acc (.reclaim now), .runner w acc (.select order now), .runner w acc (.tryNext now)]

def callSteps (w : WorkerId) (acc : AccountId) (now : Time) : List Action :=
  [.runner w acc (.gate now), .runner w acc (.settle now now 0), .runner w acc (.lookup []),
    .runner w acc (.execute now)]

def returnSteps (w : WorkerId) (acc : AccountId) (outcome : TransportOutcome) (now : Time) :
    List Action :=
  [.runner w acc (.finish outcome), .runner w acc (.record now now 0 false)]

/-- A session of worker `w` receives an update, and the ingest of it commits at once. -/
def ingestSteps (w : WorkerId) (acc : AccountId) (raw : RawUpdate) : List Action :=
  [.ingestRead w acc raw 0, .ingestCommit 0]

def drainSteps (w : WorkerId) (acc : AccountId) (order : List RowId) (limit : ℕ) (now : Time) :
    List Action :=
  [.runner w acc (.drainRead order limit), .runner w acc (.drainPrefetch []),
    .runner w acc (.drainCommit (fun _ _ _ => 0) (fun _ => now) false)]

def cloneRule : PublishedRule where
  ruleId := "r"
  version := 1
  targets := [{ routeId := "n", targetChatId := 7, sourceChatId := 5 }]

def channelUpdate (kind : EventKind) : RawUpdate where
  kind := kind
  chatId := 5
  messageId := 3
  chatClass := .broadcast

/-- A reply of account `A`, to be sent to chat 7. -/
def reply : ApprovedReply where
  approvalUuid := "1"
  candidateUuid := "c"
  ruleId := none
  accountUuid := "A"
  tenantUuid := "t"
  projectUuid := "p"
  targetChatId := 7
  targetTopicId := none
  replyToSourceId := none
  contentHash := none

/-- Worker `w1` hosts account `A`, and its reply is ready. -/
def queuedReply : List Action :=
  assignSteps "w1" { accountId := "A", tenantId := "t", projectId := "p" } 0 ++ [.enqueue reply 0]

/-- The call that sends the reply, by the worker that holds generation `g`. -/
def replyCall (w : WorkerId) (g attemptNo : ℤ) : Call where
  workerId := w
  accountId := "A"
  generation := g
  jobId := 0
  attemptNo := attemptNo
  plan := {
    kind := .send, ruleId := "ai", ruleVersion := 0, routeId := "ai_candidate:c"
    accountId := "A", sourceScope := "ai_reply", sourceChatId := 7, sourceMessageId := 0
    revision := 0, targetChatId := 7, targetTopicId := none, mode := .copy
    payloadRef := some "candidate:c", payloadHash := none, requiresApproval := true }
  request := .send

end TgPlatform
