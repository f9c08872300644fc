import TgPlatform.Delivery.Model

/-! # The send policy

One gate in front of every Telegram side effect: account and generation, the
switches of every level, the live send state, rate limits and approvals.
-/

namespace TgPlatform

inductive Decision
  | allow | blockedPolicy | blockedApproval | blockedAccount | blockedLease | blockedRate
  deriving DecidableEq, Repr

inductive SendState | sendable | paused | floodWait | authDead
  deriving DecidableEq, Repr

structure LiveAccount where
  accountId : AccountId
  generation : ℤ
  sendState : SendState
  floodWaitUntil : Option Time := none
  deriving DecidableEq, Repr

/-- Effective policy: any level off is off. -/
structure PolicySnapshot where
  globalDisabled : Bool := false
  tenantDisabled : List TenantId := []
  projectDisabled : List ProjectId := []
  accountDisabled : List AccountId := []
  ruleDisabled : List RuleId := []
  rateLimitBlocked : List RouteId := []
  deriving DecidableEq, Repr

structure ApprovalRecord where
  approved : Bool
  contentHash : Option String
  expiresAt : Option Time
  deriving DecidableEq, Repr

structure PolicyCheckable where
  accountId : AccountId
  ruleId : RuleId
  routeId : RouteId
  tenantId : TenantId
  projectId : ProjectId
  expectedGeneration : ℤ
  requiresApproval : Bool
  contentHash : Option String
  deriving DecidableEq, Repr

def PolicySnapshot.disables (policy : PolicySnapshot) (job : PolicyCheckable) : Bool :=
  policy.globalDisabled || job.tenantId ∈ policy.tenantDisabled ||
    job.projectId ∈ policy.projectDisabled || job.accountId ∈ policy.accountDisabled ||
    job.ruleId ∈ policy.ruleDisabled

/-- A flood wait that is not known to be over. -/
def LiveAccount.inFloodWait (live : LiveAccount) (now : Time) : Bool :=
  live.sendState = .floodWait && !live.floodWaitUntil.any (· ≤ now)

/-- The required approval is absent, refused, bound to other content or expired. -/
def approvalMissing (job : PolicyCheckable) (approval : Option ApprovalRecord) (now : Time) :
    Bool :=
  match approval with
  | none => true
  | some a =>
    !a.approved ||
      (a.contentHash.isSome && job.contentHash.isSome && a.contentHash ≠ job.contentHash) ||
      a.expiresAt.any (· ≤ now)

def check (job : PolicyCheckable) (live : LiveAccount) (policy : PolicySnapshot)
    (approval : Option ApprovalRecord) (now : Time) : Decision :=
  if job.accountId ≠ live.accountId then .blockedLease
  else if job.expectedGeneration ≠ live.generation then .blockedLease
  else if policy.disables job then .blockedPolicy
  else if live.sendState = .paused ∨ live.sendState = .authDead then .blockedAccount
  else if live.inFloodWait now then .blockedRate
  else if job.routeId ∈ policy.rateLimitBlocked then .blockedRate
  else if job.requiresApproval ∧ approvalMissing job approval now then .blockedApproval
  else .allow

variable {job : PolicyCheckable} {live : LiveAccount} {policy : PolicySnapshot}
  {approval : Option ApprovalRecord} {now : Time}

structure Cleared (job : PolicyCheckable) (live : LiveAccount) (policy : PolicySnapshot)
    (approval : Option ApprovalRecord) (now : Time) : Prop where
  account : job.accountId = live.accountId
  generation : job.expectedGeneration = live.generation
  enabled : policy.disables job = false
  notPaused : live.sendState ≠ .paused
  notDead : live.sendState ≠ .authDead
  noFlood : live.inFloodWait now = false
  noLimit : job.routeId ∉ policy.rateLimitBlocked
  approved : job.requiresApproval → approvalMissing job approval now = false

theorem check_eq_allow : check job live policy approval now = .allow ↔
    Cleared job live policy approval now := by
  unfold check
  constructor
  · intro h
    split_ifs at h
    constructor <;> simp_all
  · intro h
    simp [h.account, h.generation, h.enabled, h.notPaused, h.notDead, h.noFlood, h.noLimit]
    exact h.approved

/-- With the switches on and the account neither paused nor dead, only ownership, rate and
approval can stop a job. -/
theorem check_of_open (henabled : policy.disables job = false)
    (hpaused : live.sendState ≠ .paused) (hdead : live.sendState ≠ .authDead)
    (happroval : job.requiresApproval → approvalMissing job approval now = false) :
    check job live policy approval now = .allow ∨
      check job live policy approval now = .blockedLease ∨
      check job live policy approval now = .blockedRate := by
  unfold check
  split_ifs <;> simp_all

end TgPlatform
