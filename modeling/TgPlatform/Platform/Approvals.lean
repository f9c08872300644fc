import TgPlatform.Pipeline.System
import TgPlatform.Platform.Access

/-! # Reply candidates and their approvals

A reply candidate is created together with the approval that binds its version
and its content hash. A decision reads both rows, tests them, and then updates
them by primary key in the same transaction: under READ COMMITTED its reads see
what is committed at that moment, and its update of the approval waits for the
transaction that has updated the row before it.
-/

namespace TgPlatform

abbrev CandidateId := ℕ
abbrev ApprovalId := ℕ

inductive ReviewStatus | pending | approved | rejected | expired | consumed | superseded
  deriving DecidableEq, Repr

/-- The decisions `approve` and `reject` ask `_decide` for. -/
inductive Verdict | approved | rejected
  deriving DecidableEq, Repr

def Verdict.status : Verdict → ReviewStatus
  | .approved => .approved
  | .rejected => .rejected

/-- `TgReplyCandidate`. -/
structure ReplyCandidate where
  uuid : String
  tenantId : ℕ
  projectId : ℕ
  accountId : ℕ
  targetChatId : ℤ
  content : String
  contentHash : String
  expiresAt : Time
  ruleId : Option ℕ := none
  targetTopicId : Option ℤ := none
  replyToSourceId : Option ℤ := none
  version : ℤ := 1
  status : ReviewStatus := .pending
  deriving DecidableEq, Repr

/-- `TgApproval`. -/
structure Approval where
  uuid : String
  tenantId : ℕ
  projectId : ℕ
  candidateId : CandidateId
  candidateVersion : ℤ
  contentHash : String
  expiresAt : Time
  status : ReviewStatus := .pending
  reviewerId : Option UserId := none
  decidedAt : Option Time := none
  reason : Option String := none
  deriving DecidableEq, Repr

/-- The columns of a candidate that no decision writes. -/
def ReplyCandidate.asCreated (candidate : ReplyCandidate) : ReplyCandidate :=
  { candidate with status := .pending }

def Approval.asCreated (approval : Approval) : Approval :=
  { approval with status := .pending, reviewerId := none, decidedAt := none, reason := none }

def Approval.jobKey (approval : Approval) : String := s!"approval:{approval.uuid}"

/-- The uuids that `_create_send_job` looks up for a job. -/
structure JobScope where
  tenantUuid : TenantId
  projectUuid : ProjectId
  accountUuid : AccountId
  deriving DecidableEq, Repr

/-- The reply `_create_send_job` queues. -/
def Approval.reply (approval : Approval) (candidate : ReplyCandidate) (scope : JobScope) :
    ApprovedReply where
  approvalUuid := approval.uuid
  candidateUuid := candidate.uuid
  ruleId := candidate.ruleId.map toString
  accountUuid := scope.accountUuid
  tenantUuid := scope.tenantUuid
  projectUuid := scope.projectUuid
  targetChatId := candidate.targetChatId
  targetTopicId := candidate.targetTopicId
  replyToSourceId := candidate.replyToSourceId
  contentHash := some candidate.contentHash

theorem Approval.reply_key (approval : Approval) (candidate : ReplyCandidate) (scope : JobScope)
    (now : Time) : ((approval.reply candidate scope).job now).idempotencyKey = approval.jobKey := rfl

/-- The arguments of one call of `_decide`. -/
structure DecideRequest where
  pk : ApprovalId
  userId : UserId
  expectVersion : ℤ
  expectHash : String
  verdict : Verdict
  reason : Option String := none
  deriving DecidableEq, Repr

/-- How far a call of `_decide` has come; from `approvalWritten` on it holds the lock of its
approval row. -/
inductive DecideStage
  | opened
  | checked (approval : Approval) (now : Time)
  | verified (approval : Approval) (candidate : ReplyCandidate) (now : Time)
  | approvalWritten (approval : Approval) (candidate : ReplyCandidate) (now : Time)
  | candidateWritten (approval : Approval) (candidate : ReplyCandidate) (now : Time)
  | queued (approval : Approval) (candidate : ReplyCandidate) (now : Time) (job : Option DeliveryJob)
  | closed
  deriving DecidableEq, Repr

def DecideStage.locks : DecideStage → Bool
  | .approvalWritten _ _ _ | .candidateWritten _ _ _ | .queued _ _ _ _ => true
  | _ => false

def DecideStage.seen : DecideStage → Option Approval
  | .opened | .closed => none
  | .checked approval _ | .verified approval _ _ | .approvalWritten approval _ _
  | .candidateWritten approval _ _ | .queued approval _ _ _ => some approval

def DecideStage.read : DecideStage → Option (Approval × ReplyCandidate)
  | .opened | .closed | .checked _ _ => none
  | .verified approval candidate _ | .approvalWritten approval candidate _
  | .candidateWritten approval candidate _ | .queued approval candidate _ _ =>
    some (approval, candidate)

theorem DecideStage.seen_of_read {stage : DecideStage} {approval : Approval}
    {candidate : ReplyCandidate} (h : stage.read = some (approval, candidate)) :
    stage.seen = some approval := by
  cases stage <;> simp_all [DecideStage.read, DecideStage.seen]

structure DecideTx where
  request : DecideRequest
  stage : DecideStage := .opened
  deriving DecidableEq, Repr

/-- The committed rows, the calls of `_decide`, and the decisions in the order of their commits. -/
structure Desk where
  candidates : Table ReplyCandidate
  approvals : Table Approval
  calls : Table DecideTx
  decided : List (ApprovalId × Verdict)

def Desk.empty : Desk := ⟨.empty, .empty, .empty, []⟩

/-- A step of the platform with what the environment decides in it: generated uuids, clock
readings, the answers of the scope check and of the lookups of other tables. -/
inductive DeskAction
  | create (candidate : ReplyCandidate) (approvalUuid : String)
  | createApproved (candidate : ReplyCandidate) (approvalUuid : String) (scope : JobScope)
      (reason : Option String) (now : Time)
  | submit (request : DecideRequest)
  | readApproval (k : ℕ) (now : Time) (allowed : Bool)
  | readCandidate (k : ℕ)
  | writeApproval (k : ℕ)
  | writeCandidate (k : ℕ)
  | createJob (k : ℕ) (scope : Option JobScope) (now : Time)
  | commit (k : ℕ)
  | abort (k : ℕ)

namespace Desk

def bind (d : Desk) (candidate : ReplyCandidate) (approvalUuid : String) : Approval where
  uuid := approvalUuid
  tenantId := candidate.tenantId
  projectId := candidate.projectId
  candidateId := d.candidates.size
  candidateVersion := candidate.version
  contentHash := candidate.contentHash
  expiresAt := candidate.expiresAt

def freshUuids (d : Desk) (candidate : ReplyCandidate) (approvalUuid : String) : Bool :=
  !(d.candidates.any fun c => c.uuid = candidate.uuid) &&
    !(d.approvals.any fun a => a.uuid = approvalUuid)

def setStage (d : Desk) (k : ℕ) (stage : DecideStage) : Desk :=
  { d with calls := d.calls.update k fun tx => { tx with stage } }

def locked (d : Desk) (pk : ApprovalId) : Bool :=
  d.calls.any fun tx => tx.request.pk = pk && tx.stage.locks

/-- The commit of a decision: the columns `update` and `update_status` write. -/
def decide (d : Desk) (k : ℕ) (request : DecideRequest) (approval : Approval) (now : Time) : Desk :=
  { d.setStage k .closed with
    approvals := d.approvals.update request.pk fun a => { a with
      status := request.verdict.status
      reviewerId := some request.userId
      decidedAt := some now
      reason := request.reason }
    candidates := d.candidates.update approval.candidateId fun c =>
      { c with status := request.verdict.status }
    decided := d.decided ++ [(request.pk, request.verdict)] }

/-- The desk after a step and the job it commits; `hasKey` tells which idempotency keys the
committed jobs have. A call that raises is rolled back: also the one that finds the approval
expired, whose update to `expired` goes with it. -/
def step (hasKey : String → Bool) (d : Desk) : DeskAction → Option (Desk × Option DeliveryJob)
  | .create candidate approvalUuid =>
    if d.freshUuids candidate approvalUuid ∧ candidate.status = .pending then
      some ({ d with
        candidates := d.candidates.insert candidate
        approvals := d.approvals.insert (d.bind candidate approvalUuid) }, none)
    else none
  | .createApproved candidate approvalUuid scope reason now =>
    let approval := { d.bind candidate approvalUuid with
      status := .approved, decidedAt := some now, reason }
    if d.freshUuids candidate approvalUuid ∧ candidate.status = .approved ∧
        ¬ hasKey approval.jobKey then
      some ({ d with
        candidates := d.candidates.insert candidate
        approvals := d.approvals.insert approval },
        some ((approval.reply candidate scope).job now))
    else none
  | .submit request => some ({ d with calls := d.calls.insert { request } }, none)
  | .readApproval k now allowed =>
    (d.calls.get? k).bind fun tx =>
      match tx.stage with
      | .opened =>
        let stage := match d.approvals.get? tx.request.pk with
          | some approval =>
            if allowed ∧ approval.status = .pending ∧ now ≤ approval.expiresAt then
              .checked approval now
            else .closed
          | none => .closed
        some (d.setStage k stage, none)
      | _ => none
  | .readCandidate k =>
    (d.calls.get? k).bind fun tx =>
      match tx.stage with
      | .checked approval now =>
        let stage := match d.candidates.get? approval.candidateId with
          | some candidate =>
            if candidate.version = tx.request.expectVersion ∧
                candidate.version = approval.candidateVersion ∧
                candidate.contentHash = tx.request.expectHash ∧
                candidate.contentHash = approval.contentHash then
              .verified approval candidate now
            else .closed
          | none => .closed
        some (d.setStage k stage, none)
      | _ => none
  | .writeApproval k =>
    (d.calls.get? k).bind fun tx =>
      match tx.stage with
      | .verified approval candidate now =>
        if d.locked tx.request.pk then none
        else some (d.setStage k (.approvalWritten approval candidate now), none)
      | _ => none
  | .writeCandidate k =>
    (d.calls.get? k).bind fun tx =>
      match tx.stage with
      | .approvalWritten approval candidate now =>
        some (d.setStage k (.candidateWritten approval candidate now), none)
      | _ => none
  | .createJob k scope now =>
    (d.calls.get? k).bind fun tx =>
      match tx.stage with
      | .candidateWritten approval candidate decidedAt =>
        if tx.request.verdict = .rejected then none
        else if hasKey approval.jobKey then
          some (d.setStage k (.queued approval candidate decidedAt none), none)
        else
          let stage := match scope with
            | some scope => .queued approval candidate decidedAt
                (some ((approval.reply candidate scope).job now))
            | none => .closed
          some (d.setStage k stage, none)
      | _ => none
  | .commit k =>
    (d.calls.get? k).bind fun tx =>
      match tx.stage with
      | .candidateWritten approval _ now =>
        if tx.request.verdict = .rejected then some (d.decide k tx.request approval now, none)
        else none
      | .queued approval _ now job => some (d.decide k tx.request approval now, job)
      | _ => none
  | .abort k => (d.calls.get? k).map fun _ => (d.setStage k .closed, none)

/-! ## What a step does -/

/-- The stage a call gets to when it does not commit. -/
inductive Advances (hasKey : String → Bool) (d : Desk) (tx : DecideTx) : DecideStage → Prop
  | close : Advances hasKey d tx .closed
  | check {approval : Approval} {now : Time} :
      d.approvals.get? tx.request.pk = some approval → approval.status = .pending →
      Advances hasKey d tx (.checked approval now)
  | verify {approval : Approval} {candidate : ReplyCandidate} {now : Time} :
      tx.stage = .checked approval now →
      d.candidates.get? approval.candidateId = some candidate →
      Advances hasKey d tx (.verified approval candidate now)
  | writeApproval {approval : Approval} {candidate : ReplyCandidate} {now : Time} :
      tx.stage = .verified approval candidate now →
      Advances hasKey d tx (.approvalWritten approval candidate now)
  | writeCandidate {approval : Approval} {candidate : ReplyCandidate} {now : Time} :
      tx.stage = .approvalWritten approval candidate now →
      Advances hasKey d tx (.candidateWritten approval candidate now)
  | findJob {approval : Approval} {candidate : ReplyCandidate} {now : Time} :
      tx.stage = .candidateWritten approval candidate now → tx.request.verdict = .approved →
      hasKey approval.jobKey = true → Advances hasKey d tx (.queued approval candidate now none)
  | queue {approval : Approval} {candidate : ReplyCandidate} {decidedAt : Time} (scope : JobScope)
      (now : Time) :
      tx.stage = .candidateWritten approval candidate decidedAt → tx.request.verdict = .approved →
      Advances hasKey d tx (.queued approval candidate decidedAt
        (some ((approval.reply candidate scope).job now)))

/-- The job a call commits together with its decision. -/
inductive Decides (tx : DecideTx) (approval : Approval) (now : Time) : Option DeliveryJob → Prop
  | reject {candidate : ReplyCandidate} : tx.stage = .candidateWritten approval candidate now →
      tx.request.verdict = .rejected → Decides tx approval now none
  | approve {candidate : ReplyCandidate} {job : Option DeliveryJob} :
      tx.stage = .queued approval candidate now job → Decides tx approval now job

inductive Moves (hasKey : String → Bool) (d : Desk) :
    DeskAction → Desk → Option DeliveryJob → Prop
  | create {x : DeskAction} {candidate : ReplyCandidate} {approval : Approval}
      {job : Option DeliveryJob} :
      d.freshUuids candidate approval.uuid = true →
      approval.asCreated = d.bind candidate approval.uuid →
      approval.status = candidate.status →
      (approval.status = .pending ∧ job = none ∨ approval.status = .approved ∧
        ∃ scope now, job = some ((approval.reply candidate scope).job now)) →
      Moves hasKey d x { d with
        candidates := d.candidates.insert candidate
        approvals := d.approvals.insert approval } job
  | submit {x : DeskAction} (request : DecideRequest) :
      Moves hasKey d x { d with calls := d.calls.insert { request } } none
  | advance {x : DeskAction} {k : ℕ} {tx : DecideTx} {stage : DecideStage} : d.calls.get? k = some tx →
      d.Advances hasKey tx stage → Moves hasKey d x (d.setStage k stage) none
  | decide {k : ℕ} {tx : DecideTx} {approval : Approval} {now : Time} {job : Option DeliveryJob} :
      d.calls.get? k = some tx → Decides tx approval now job →
      Moves hasKey d (.commit k) (d.decide k tx.request approval now) job

variable {hasKey : String → Bool} {d d' : Desk} {x : DeskAction} {job : Option DeliveryJob}

theorem step_commit {k : ℕ} (h : d.step hasKey (.commit k) = some (d', job)) :
    ∃ tx approval now, d.calls.get? k = some tx ∧ Decides tx approval now job ∧
      d' = d.decide k tx.request approval now := by
  obtain ⟨tx, htx, h⟩ := Option.bind_eq_some_iff.mp h
  split at h
  · rename_i hstage
    split at h <;> cases h
    rename_i hverdict
    exact ⟨tx, _, _, htx, .reject hstage hverdict, rfl⟩
  · rename_i hstage
    cases h
    exact ⟨tx, _, _, htx, .approve hstage, rfl⟩
  · cases h

theorem step_moves (h : d.step hasKey x = some (d', job)) : d.Moves hasKey x d' job := by
  cases x with
  | create candidate approvalUuid =>
    simp only [step, Option.ite_none_right_eq_some, Option.some.injEq, Prod.mk.injEq] at h
    obtain ⟨⟨hfresh, hstatus⟩, rfl, rfl⟩ := h
    exact .create hfresh rfl hstatus.symm (Or.inl ⟨rfl, rfl⟩)
  | createApproved candidate approvalUuid scope reason now =>
    simp only [step, Option.ite_none_right_eq_some, Option.some.injEq, Prod.mk.injEq] at h
    obtain ⟨⟨hfresh, hstatus, -⟩, rfl, rfl⟩ := h
    exact .create hfresh rfl hstatus.symm (Or.inr ⟨rfl, scope, now, rfl⟩)
  | submit request =>
    cases h
    exact .submit request
  | readApproval k now allowed =>
    obtain ⟨tx, htx, h⟩ := Option.bind_eq_some_iff.mp h
    split at h
    · cases h
      apply Moves.advance htx
      split
      · rename_i approval happroval
        split
        · rename_i hpending
          exact .check happroval hpending.2.1
        · exact .close
      · exact .close
    · cases h
  | readCandidate k =>
    obtain ⟨tx, htx, h⟩ := Option.bind_eq_some_iff.mp h
    split at h
    · rename_i hstage
      cases h
      apply Moves.advance htx
      split
      · rename_i candidate hcandidate
        split
        · exact .verify hstage hcandidate
        · exact .close
      · exact .close
    · cases h
  | writeApproval k =>
    obtain ⟨tx, htx, h⟩ := Option.bind_eq_some_iff.mp h
    split at h
    · rename_i hstage
      split at h <;> cases h
      exact .advance htx (.writeApproval hstage)
    · cases h
  | writeCandidate k =>
    obtain ⟨tx, htx, h⟩ := Option.bind_eq_some_iff.mp h
    split at h
    · rename_i hstage
      cases h
      exact .advance htx (.writeCandidate hstage)
    · cases h
  | createJob k scope now =>
    obtain ⟨tx, htx, h⟩ := Option.bind_eq_some_iff.mp h
    split at h
    · rename_i hstage
      split at h
      · cases h
      · rename_i hverdict
        have happroved : tx.request.verdict = .approved := by
          cases hv : tx.request.verdict with
          | approved => rfl
          | rejected => exact absurd hv hverdict
        split at h
        · rename_i hkey
          cases h
          exact .advance htx (.findJob hstage happroved hkey)
        · cases h
          apply Moves.advance htx
          cases scope with
          | none => exact .close
          | some scope => exact .queue scope now hstage happroved
    · cases h
  | commit k =>
    obtain ⟨tx, approval, now, htx, hdecides, rfl⟩ := step_commit h
    exact .decide htx hdecides
  | abort k =>
    obtain ⟨tx, htx, h⟩ := Option.map_eq_some_iff.mp h
    cases h
    exact .advance htx .close

end Desk

end TgPlatform
