import TgPlatform.Planner.Model

/-! # The clone planner

Planning is pure: an event and the rules of its account give one plan for each
route of each matching rule. The random choice of a pool account is a draw
supplied by the caller, so a statement about every draw covers every choice.
-/

namespace TgPlatform

structure CloneKey where
  ruleId : RuleId
  routeId : RouteId
  message : MessageKey
  revision : ℤ
  kind : String
  deriving DecidableEq, Repr

def DeliveryPlan.cloneKey (p : DeliveryPlan) : CloneKey :=
  ⟨p.ruleId, p.routeId, p.message, p.revision, p.kind.value⟩

/-- The part of a `message_map` row the planner reads. -/
structure MappingEntry where
  routeId : RouteId
  message : MessageKey
  targetMessageId : ℤ
  senderAccountId : AccountId
  deriving DecidableEq, Repr

/-- Prefetched mapping rows; of rows with one key the last one counts. -/
abbrev DictMappingView := List MappingEntry

namespace DictMappingView

def find (m : DictMappingView) (routeId : RouteId) (key : MessageKey) : Option MappingEntry :=
  m.reverse.find? fun e => e.routeId = routeId ∧ e.message = key

def findTargetMessageId (m : DictMappingView) (routeId : RouteId) (key : MessageKey) :
    Option ℤ :=
  (m.find routeId key).map MappingEntry.targetMessageId

def findSenderAccountId (m : DictMappingView) (routeId : RouteId) (key : MessageKey) :
    Option AccountId :=
  (m.find routeId key).map MappingEntry.senderAccountId

end DictMappingView

def matchesRule (event : SourceEvent) (rule : RuleSnapshot) : Bool :=
  if event.accountId ≠ rule.accountId then false
  else if event.sourceScope ≠ rule.sourceScope ∨ event.sourceChatId ≠ rule.sourceChatId then false
  else if rule.sourceTopicId.isSome ∧ event.topicId ≠ rule.sourceTopicId then false
  else !event.protected_

theorem matchesRule_iff {event : SourceEvent} {rule : RuleSnapshot} :
    matchesRule event rule = true ↔ event.accountId = rule.accountId ∧
      event.sourceScope = rule.sourceScope ∧ event.sourceChatId = rule.sourceChatId ∧
      (rule.sourceTopicId.isSome → event.topicId = rule.sourceTopicId) ∧
      event.protected_ = false := by
  unfold matchesRule
  split_ifs <;> grind

/-- Union of `sender_user_ids` over the filters; `none` when the filter is off. -/
def senderWhitelist (rule : RuleSnapshot) : Option (List ℤ) :=
  let allowed := rule.filters.flatMap RouteFilter.senderUserIds
  if allowed = [] then none else some allowed

def mediaWhitelist (rule : RuleSnapshot) : Option (List String) :=
  let allowed := rule.filters.flatMap RouteFilter.mediaKinds
  if allowed = [] then none else some allowed

def senderBlacklist (rule : RuleSnapshot) : List ℤ :=
  rule.filters.flatMap RouteFilter.blockedSenderIds

def excludesBots (rule : RuleSnapshot) : Bool := rule.filters.any RouteFilter.excludeBots

def passesFilters (event : SourceEvent) (rule : RuleSnapshot) : Bool :=
  if excludesBots rule ∧ event.senderIsBot then false
  else if event.senderId.any (· ∈ senderBlacklist rule) then false
  else if (senderWhitelist rule).any fun w => !event.senderId.any (· ∈ w) then false
  else !(mediaWhitelist rule).any fun w => orElse event.mediaKind "text" ∉ w

/-- The draw behind `random.choice` for one route of one rule. -/
abbrev Draw := RuleSnapshot → RouteTarget → ℕ

def senderPool (rule : RuleSnapshot) : List AccountId :=
  if rule.senderAccountIds = [] then [rule.accountId] else rule.senderAccountIds

def senderFor (mapping : DictMappingView) (draw : Draw) (event : SourceEvent)
    (rule : RuleSnapshot) (route : RouteTarget) (kind : PlanKind) : AccountId :=
  let pool := senderPool rule
  if kind = .send then pool.getD (draw rule route % pool.length) rule.accountId
  else
    orElse (mapping.findSenderAccountId route.routeId event.message)
      (pool.headD rule.accountId)

def EventKind.plan : EventKind → PlanKind
  | .create => .send
  | .edit => .edit
  | .delete => .delete

def planRoute (mapping : DictMappingView) (draw : Draw) (event : SourceEvent)
    (rule : RuleSnapshot) (route : RouteTarget) : DeliveryPlan where
  kind := event.kind.plan
  ruleId := rule.ruleId
  ruleVersion := rule.version
  routeId := route.routeId
  accountId := senderFor mapping draw event rule route event.kind.plan
  sourceScope := event.sourceScope
  sourceChatId := event.sourceChatId
  sourceMessageId := event.sourceMessageId
  revision := event.revision
  targetChatId := route.targetChatId
  targetTopicId := route.targetTopicId
  mode := rule.mode
  payloadRef := event.payloadRef
  payloadHash := event.payloadHash
  requiresApproval := rule.approvalPolicy = .messageReview ∧ event.kind.plan = .send
  replyToTargetMessageId := event.replyToSourceId.bind fun reply =>
    mapping.findTargetMessageId route.routeId
      ⟨event.sourceScope, event.sourceChatId, reply⟩
  groupedId := event.groupedId
  fetchAccountId := some rule.accountId
  transform := rule.transform && event.kind.plan ≠ .delete

def planForRule (mapping : DictMappingView) (draw : Draw) (event : SourceEvent)
    (rule : RuleSnapshot) : List DeliveryPlan :=
  if event.kind = .edit ∧ ¬ rule.syncEdit then []
  else if event.kind = .delete ∧ ¬ rule.syncDelete then []
  else if event.kind = .edit ∧ rule.mode = .forward then []
  else rule.targets.map (planRoute mapping draw event rule)

def plan (mapping : DictMappingView) (draw : Draw) (event : SourceEvent)
    (rules : List RuleSnapshot) : List DeliveryPlan :=
  rules.flatMap fun rule =>
    if ¬ matchesRule event rule then []
    else if event.kind = .create ∧ ¬ passesFilters event rule then []
    else planForRule mapping draw event rule

/-- The routes of `rule` that `event` is planned on, whatever the draws and the mapping. -/
def plannedRoutes (event : SourceEvent) (rule : RuleSnapshot) : List RouteTarget :=
  if ¬ matchesRule event rule then []
  else if event.kind = .create ∧ ¬ passesFilters event rule then []
  else if event.kind = .edit ∧ ¬ rule.syncEdit then []
  else if event.kind = .delete ∧ ¬ rule.syncDelete then []
  else if event.kind = .edit ∧ rule.mode = .forward then []
  else rule.targets

variable {mapping : DictMappingView} {draw : Draw} {event : SourceEvent}
  {rule : RuleSnapshot} {rules : List RuleSnapshot} {p : DeliveryPlan}

theorem plan_eq : plan mapping draw event rules =
    rules.flatMap fun rule =>
      (plannedRoutes event rule).map (planRoute mapping draw event rule) := by
  unfold plan
  congr 1
  funext rule
  unfold plannedRoutes planForRule
  split_ifs <;> rfl

theorem mem_plan : p ∈ plan mapping draw event rules ↔
    ∃ rule ∈ rules, ∃ route ∈ plannedRoutes event rule,
      planRoute mapping draw event rule route = p := by
  simp [plan_eq]

theorem matchesRule_of_mem_plannedRoutes {route : RouteTarget}
    (h : route ∈ plannedRoutes event rule) : matchesRule event rule = true := by
  unfold plannedRoutes at h
  by_contra hm
  simp [hm] at h

theorem plan_source (h : p ∈ plan mapping draw event rules) :
    p.message = event.message ∧ p.revision = event.revision ∧ p.kind = event.kind.plan := by
  obtain ⟨rule, _, route, _, rfl⟩ := mem_plan.mp h
  exact ⟨rfl, rfl, rfl⟩

end TgPlatform
