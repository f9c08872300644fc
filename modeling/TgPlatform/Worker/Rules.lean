import TgPlatform.Lib.Dict
import TgPlatform.Planner.Plan
import TgPlatform.Delivery.Policy

/-! # Published rules and their caches

The control plane publishes rule rows for each account. A worker expands them
into snapshots, caches them under the listening account, and remembers which
rules have disappeared since: those count as disabled at send time.
-/

namespace TgPlatform

/-- A target of a published rule; the platform keeps the source chat on the target. -/
structure PublishedTarget where
  routeId : RouteId
  targetChatId : ℤ
  targetTopicId : Option ℤ := none
  sourceChatId : ℤ
  sourceTopicId : Option ℤ := none
  filters : RouteFilter := {}
  deriving DecidableEq, Repr

/-- A row of the rules endpoint, with its defaults filled in. -/
structure PublishedRule where
  ruleId : RuleId
  version : ℤ
  accountUuid : Option AccountId := none
  mode : CloneMode := .copy
  approvalPolicy : ApprovalPolicy := .ruleAuthorized
  senderAccountUuids : List AccountId := []
  transform : Bool := false
  syncEdit : Bool := true
  syncDelete : Bool := true
  targets : List PublishedTarget
  deriving DecidableEq, Repr

def scopeSpellings (sourceChatId : ℤ) (accountUuid : AccountId) : List String :=
  [s!"peer:{sourceChatId}", s!"peer:{sourceChatId}:acct:{accountUuid}"]

def snapshotOf (row : PublishedRule) (accountUuid : AccountId) (dead : List AccountId)
    (t : PublishedTarget) (scope : String) : RuleSnapshot where
  ruleId := row.ruleId
  version := row.version
  accountId := accountUuid
  sourceScope := scope
  sourceChatId := t.sourceChatId
  sourceTopicId := t.sourceTopicId
  targets := [⟨t.routeId, t.targetChatId, t.targetTopicId⟩]
  mode := row.mode
  syncEdit := row.syncEdit
  syncDelete := row.syncDelete
  approvalPolicy := row.approvalPolicy
  filters := [t.filters]
  senderAccountIds := row.senderAccountUuids.filter fun u => u ≠ "" ∧ u ∉ dead
  transform := row.transform

def rulesFromSnapshot (row : PublishedRule) (accountUuid : AccountId) (dead : List AccountId) :
    List RuleSnapshot :=
  row.targets.flatMap fun t =>
    (scopeSpellings t.sourceChatId accountUuid).map (snapshotOf row accountUuid dead t)

/-- The snapshots `_refresh_rules` builds for an account from the rows it pulled. -/
def rulesFromRows (rows : List PublishedRule) (accountId : AccountId) (dead : List AccountId) :
    List RuleSnapshot :=
  rows.flatMap fun row => rulesFromSnapshot row (orElse row.accountUuid accountId) dead

/-- `_rules_cache`, `_known_rule_ids` and `_disabled_rule_ids`. -/
structure RuleCaches where
  rulesCache : Dict AccountId (List RuleSnapshot)
  knownRuleIds : AccountId → List RuleId
  disabledRuleIds : List RuleId

namespace RuleCaches

def empty : RuleCaches := ⟨.empty, fun _ => [], []⟩

def rules (c : RuleCaches) (accountId : AccountId) : List RuleSnapshot :=
  c.rulesCache.getD accountId []

/-- `_refresh_rules` once the rows are there. -/
def refresh (c : RuleCaches) (accountId : AccountId) (snaps : List RuleSnapshot) : RuleCaches :=
  let newIds := snaps.map RuleSnapshot.ruleId
  let removed := (c.knownRuleIds accountId).filter (· ∉ newIds)
  { rulesCache := c.rulesCache.set accountId snaps
    knownRuleIds := Function.update c.knownRuleIds accountId newIds
    disabledRuleIds := (c.disabledRuleIds ++ removed).filter (· ∉ newIds) }

def release (c : RuleCaches) (accountId : AccountId) : RuleCaches :=
  { c with
    rulesCache := c.rulesCache.pop accountId
    knownRuleIds := Function.update c.knownRuleIds accountId [] }

/-- `_current_policy`. -/
def policy (c : RuleCaches) (base : PolicySnapshot) : PolicySnapshot :=
  if c.disabledRuleIds = [] then base
  else { base with ruleDisabled := base.ruleDisabled ++ c.disabledRuleIds }

/-- `_plan_hints`: of the cached snapshots of a rule the first one with the closest version. -/
def planHints (c : RuleCaches) (ruleId : RuleId) (ruleVersion : ℤ) :
    Option (AccountId × Bool) :=
  let closest := fun (best : Option RuleSnapshot) (s : RuleSnapshot) =>
    if s.ruleId ≠ ruleId then best
    else
      match best with
      | none => some s
      | some b =>
        if (s.version - ruleVersion).natAbs < (b.version - ruleVersion).natAbs then some s
        else best
  (c.rulesCache.values.flatten.foldl closest none).map fun b => (b.accountId, b.transform)

variable {c : RuleCaches} {a b : AccountId} {snaps : List RuleSnapshot}

@[simp] theorem policy_rateLimitBlocked (base : PolicySnapshot) :
    (c.policy base).rateLimitBlocked = base.rateLimitBlocked := by
  unfold policy
  split <;> rfl

@[simp] theorem rules_empty : empty.rules a = [] := rfl

theorem rules_refresh : (c.refresh a snaps).rules b = if b = a then snaps else c.rules b := by
  unfold rules refresh Dict.getD
  split
  · subst b
    rw [Dict.get?_set_self, Option.getD_some]
  · rw [Dict.get?_set_of_ne ‹_›]

theorem rules_release : (c.release a).rules b = if b = a then [] else c.rules b := by
  unfold rules release Dict.getD
  split
  · subst b
    rw [Dict.get?_pop_self, Option.getD_none]
  · rw [Dict.get?_pop_of_ne ‹_›]

end RuleCaches

/-- The keys planned for an event under published rows, whatever the draws, the mapping and
the accounts reported dead. -/
def plannedKeys (event : SourceEvent) (rows : List PublishedRule) (accountId : AccountId) :
    List String :=
  (plan [] (fun _ _ => 0) event (rulesFromRows rows accountId [])).map
    DeliveryPlan.idempotencyKey

theorem plan_keys_eq_plannedKeys (mapping : DictMappingView) (draw : Draw) (event : SourceEvent)
    (rows : List PublishedRule) (accountId : AccountId) (dead : List AccountId) :
    (plan mapping draw event (rulesFromRows rows accountId dead)).map DeliveryPlan.idempotencyKey =
      plannedKeys event rows accountId := by
  simp only [plannedKeys, plan_eq, rulesFromRows, rulesFromSnapshot, List.flatMap_assoc,
    List.flatMap_map, List.map_flatMap, List.map_map]
  rfl

end TgPlatform
