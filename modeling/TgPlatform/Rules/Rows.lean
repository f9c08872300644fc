import TgPlatform.Lib.Json
import TgPlatform.Platform.Access

/-! # The tables of the clone rules

A rule has a listening account and a pool of sending ones, its targets are the
routes it copies along, and publishing it stores an immutable snapshot.
-/

namespace TgPlatform

inductive RuleStatus | draft | published | disabled
  deriving DecidableEq, Repr

/-- `TgCloneRule`. -/
structure CloneRule where
  uuid : String
  tenantId : ℕ
  projectId : ℕ
  accountId : ℕ
  name : String
  mode : String := "copy"
  syncEdit : Bool := true
  syncDelete : Bool := true
  enabled : Bool := true
  currentVersion : ℤ := 0
  status : RuleStatus := .draft
  aiRewrite : String := "off"
  adBlock : String := "off"
  adKeywords : List String := []
  aiGroupId : Option ℕ := none
  remark : Option String := none
  senderAccountIds : List ℕ := []
  deleted : Bool := false
  deriving DecidableEq, Repr

def CloneRule.scope (rule : CloneRule) : Scope := (rule.tenantId, rule.projectId)

/-- `_sender_pool`. -/
def CloneRule.senderPool (rule : CloneRule) : List ℕ :=
  let pool := (rule.senderAccountIds.filter fun a => a ≠ 0).eraseDups
  if pool = [] then [rule.accountId] else pool

inductive TargetStatus | active | retired
  deriving DecidableEq, Repr

/-- `TgCloneTarget`. -/
structure CloneTarget where
  ruleId : ℕ
  tenantId : ℕ
  projectId : ℕ
  routeId : String
  sourceChatId : ℤ
  targetChatId : ℤ
  sourceChatRef : Option String := none
  targetChatRef : Option String := none
  joinedAccountId : Option ℕ := none
  sourceTopicId : Option ℤ := none
  targetTopicId : Option ℤ := none
  filters : Option Json := none
  status : TargetStatus := .active
  remark : Option String := none
  joinedAt : Option Time := none
  healthReason : Option String := none
  joinedAccountIds : List ℕ := []
  deleted : Bool := false

/-- `_route_key`. -/
def CloneTarget.routeKey (t : CloneTarget) : ℤ × Option ℤ × ℤ × Option ℤ :=
  (t.sourceChatId, t.sourceTopicId, t.targetChatId, t.targetTopicId)

/-- `_snapshot`. -/
structure PublishedSnapshot where
  id : ℕ
  uuid : String
  name : String
  accountId : ℕ
  senderAccountIds : List ℕ
  transform : Bool
  mode : String
  syncEdit : Bool
  syncDelete : Bool
  enabled : Bool
  targets : List (String × ℤ × Option ℤ × ℤ × Option ℤ × Option Json)

/-- `TgCloneRuleVersion`. -/
structure CloneRuleVersion where
  ruleId : ℕ
  tenantId : ℕ
  projectId : ℕ
  version : ℤ
  snapshot : PublishedSnapshot
  publishedBy : UserId
  publishedAt : Time

/-- `TgRuntimeCommand`, as the platform issues it. -/
structure IssuedCommand where
  tenantId : ℕ
  projectId : ℕ
  accountId : ℕ
  type : String
  dedupKey : String
  issuedBy : UserId
  deadline : Option Time
  deriving DecidableEq, Repr

end TgPlatform
