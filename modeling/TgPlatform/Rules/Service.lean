import TgPlatform.Ai.Trigger

/-! # The requests of the clone rules

A rule is looked up with a test of the caller's membership. Its accounts have
to belong to its project, its routes are resolved and joined with the session
of its listening account, and publishing it freezes what the workers run.
-/

namespace TgPlatform

/-- `CreateCloneRuleParam`. -/
structure CreateCloneRule where
  tenantId : ℕ
  projectId : ℕ
  accountId : ℕ
  senderAccountIds : List ℕ := []
  name : String
  mode : String := "copy"
  syncEdit : Bool := true
  syncDelete : Bool := true
  enabled : Bool := true
  aiRewrite : String := "off"
  adBlock : String := "off"
  adKeywords : List String := []
  aiGroupId : Option GroupId := none
  remark : Option String := none
  deriving DecidableEq, Repr

/-- `UpdateCloneRuleParam`. -/
structure UpdateCloneRule where
  name : String
  mode : String
  syncEdit : Bool
  syncDelete : Bool
  enabled : Bool
  senderAccountIds : Option (List ℕ) := none
  aiRewrite : Option String := none
  adBlock : Option String := none
  adKeywords : Option (List String) := none
  aiGroupId : Option GroupId := none
  remark : Option String := none
  deriving DecidableEq, Repr

/-- `CloneTargetParam`. -/
structure CloneTargetParam where
  sourceChatId : String
  sourceTopicId : Option ℤ := none
  targetChatId : String
  targetTopicId : Option ℤ := none
  filters : Option (List (String × Json)) := none
  remark : Option String := none

def targetLost : String := "目标群发不了消息(账号可能被移出/禁言/群已解散)"

def sourceLost : String := "账号已不在源群,收不到消息"

def destLost : String := "账号已不在目标群"

namespace ControlPlane

variable (s : ControlPlane)

/-- `clone_rule_dao.get_all`. -/
def liveRules : List (ℕ × CloneRule) := s.rules.where_ fun r => !r.deleted

/-- `clone_target_dao.get_all_by_rule`. -/
def targetsOf (ruleId : ℕ) : List (ℕ × CloneTarget) :=
  s.targets.where_ fun t => t.ruleId = ruleId && !t.deleted

/-- `clone_target_dao.get_active_by_rule`. -/
def activeTargets (ruleId : ℕ) : List (ℕ × CloneTarget) :=
  s.targets.where_ fun t => t.ruleId = ruleId && t.status = .active && !t.deleted

def target (pk : ℕ) : Option CloneTarget := (s.targets.row? pk).filter fun t => !t.deleted

def updateRuleRow (pk : ℕ) (f : CloneRule → CloneRule) : ControlPlane :=
  { s with rules := s.rules.modify pk f }

def updateTargetRow (pk : ℕ) (f : CloneTarget → CloneTarget) : ControlPlane :=
  { s with targets := s.targets.modify pk f }

/-- `uk_tg_rule_name_deleted`: another live rule of the project has the name. -/
def nameTaken (pk : Option ℕ) (projectId : ℕ) (name : String) : Bool :=
  s.liveRules.any fun r => some r.1 ≠ pk && r.2.projectId = projectId && r.2.name = name

/-- `uk_tg_target_src_deleted`: another target of the rule has the source chat and topic. -/
def sourceTaken (pk : Option ℕ) (ruleId : ℕ) (chatId : ℤ) (topicId : Option ℤ) : Bool :=
  topicId.isSome && (s.targetsOf ruleId).any fun t =>
    some t.1 ≠ pk && t.2.sourceChatId = chatId && t.2.sourceTopicId = topicId

end ControlPlane

variable (out : Outside) (caller : Caller)

/-- `get`. -/
def getRule (pk : ℕ) : Req CloneRule := do
  let rule ← Txn.read fun s => s.rule pk
  let rule ← orRefuse .notFound "规则不存在" rule
  checkScope caller rule.tenantId rule.projectId
  Txn.ret rule

/-- `_validate_pool`. -/
def validatePool (tenantId projectId : ℕ) (pool : List ℕ) (mode : String) : Req Unit :=
  if pool ≠ [] && mode ≠ "copy" then refuse .request "多号搬运只支持 copy 模式"
  else Txn.each (fun accountId => do
    let account ← Txn.read fun s => s.dir.accountByScope tenantId projectId accountId
    let _ ← orRefuse .notFound s!"发送账号 {accountId} 不存在于该项目" account
    Txn.ret ()) pool.eraseDups

def CreateCloneRule.row (obj : CreateCloneRule) : CloneRule where
  uuid := out.uuid 0
  tenantId := obj.tenantId
  projectId := obj.projectId
  accountId := obj.accountId
  name := obj.name
  mode := obj.mode
  syncEdit := obj.syncEdit
  syncDelete := obj.syncDelete
  enabled := obj.enabled
  aiRewrite := obj.aiRewrite
  adBlock := obj.adBlock
  adKeywords := obj.adKeywords
  aiGroupId := obj.aiGroupId
  remark := obj.remark
  senderAccountIds := obj.senderAccountIds

/-- `create`. -/
def createRule (obj : CreateCloneRule) : Req Unit := do
  checkScope caller obj.tenantId obj.projectId
  let project ← Txn.read fun s => s.dir.project obj.projectId
  let _ ← orRefuse .notFound "项目不存在" (project.filter fun p => p.tenantId = obj.tenantId)
  let account ← Txn.read fun s => s.dir.accountByScope obj.tenantId obj.projectId obj.accountId
  let _ ← orRefuse .notFound "账号不存在于该项目" account
  validatePool obj.tenantId obj.projectId obj.senderAccountIds obj.mode
  let taken ← Txn.read fun s => s.nameTaken none obj.projectId obj.name
  if taken then crash "IntegrityError"
  else Txn.write fun s => { s with rules := s.rules.add (obj.row out) }

/-- 30 minutes. -/
def commandTtl : Time := 30 * 60 * 1000000

/-- `RuntimeCommandService.issue`. -/
def issueCommand (accountId : ℕ) (type dedupKey : String) : Req Unit := do
  let account ← Txn.read fun s => s.dir.account accountId
  let account ← orRefuse .notFound "账号不存在" account
  checkScope caller account.tenantId account.projectId
  let existing ← Txn.read fun s => s.commands.first? fun c => c.dedupKey = dedupKey
  if existing.isSome then Txn.ret ()
  else Txn.write fun s => { s with commands := s.commands.add {
    tenantId := account.tenantId, projectId := account.projectId, accountId, type, dedupKey
    issuedBy := caller.id, deadline := some (out.now + commandTtl) } }

/-- `_notify_reload`. -/
def notifyReload (rule : CloneRule) : Req Unit :=
  issueCommand out caller rule.accountId "ReloadConfig" ("reloadcfg-" ++ out.uuid 1)

def UpdateCloneRule.apply (obj : UpdateCloneRule) (rule : CloneRule) : CloneRule :=
  { rule with
    name := obj.name
    mode := obj.mode
    syncEdit := obj.syncEdit
    syncDelete := obj.syncDelete
    enabled := obj.enabled
    senderAccountIds := obj.senderAccountIds.getD rule.senderAccountIds
    aiRewrite := obj.aiRewrite.getD rule.aiRewrite
    adBlock := obj.adBlock.getD rule.adBlock
    adKeywords := obj.adKeywords.getD rule.adKeywords
    aiGroupId := obj.aiGroupId.or rule.aiGroupId
    remark := obj.remark.or rule.remark }

/-- `update`. -/
def updateRule (pk : ℕ) (obj : UpdateCloneRule) : Req Unit := do
  let rule ← getRule caller pk
  validatePool rule.tenantId rule.projectId (obj.senderAccountIds.getD rule.senderAccountIds) obj.mode
  let taken ← Txn.read fun s => s.nameTaken (some pk) rule.projectId obj.name
  if taken then crash "IntegrityError"
  else
    Txn.write fun s => s.updateRuleRow pk fun _ => obj.apply rule
    notifyReload out caller rule

/-- `delete`. -/
def deleteRule (pk : ℕ) : Req Unit := do
  let rule ← getRule caller pk
  Txn.write fun s => s.updateRuleRow pk fun r => { r with deleted := true }
  notifyReload out caller rule

/-! ## Targets -/

/-- `_resolve_refs`. -/
def resolveRefs (rule : CloneRule) (refs : List String) : Req (String → Option JoinResult) := do
  let account ← Txn.read fun s => s.dir.account rule.accountId
  let account ← orRefuse .notFound "规则所属账号不存在" account
  out.joinChatRefs 0 rule.scope account refs

def senderTokens (filters : List (String × Json)) (key : String) : Option (List String) :=
  let v := (Json.dict filters).field key .null
  if v.truthy then v.items.map fun items =>
    (items.map fun x => strip (x.toStr out.python.repr)).filter fun t => t ≠ ""
  else some []

def senderIds (resolved : String → Option ℤ) (tokens : List String) : Except Raised (List ℤ) := do
  let ids ← tokens.mapM fun token =>
    if out.python.isDigit token then
      match out.python.parseInt token with
      | some id => .ok id
      | none => .error (.uncaught "ValueError")
    else
      match resolved token with
      | some id => .ok id
      | none => .error (.error ⟨.request, s!"发言人 {token} 找不到,请检查用户名"⟩)
  return ids.eraseDups

/-- `d.pop(key, None)`. -/
def popKey (key : String) (d : List (String × Json)) : List (String × Json) :=
  d.filter fun entry => entry.1 ≠ key

/-- `d[key] = v`. -/
def setKey (key : String) (v : Json) (d : List (String × Json)) : List (String × Json) :=
  if (d.lookup key).isSome then d.map fun entry => if entry.1 = key then (key, v) else entry
  else d ++ [(key, v)]

/-- The filters with the ids of one sender filter, and its tokens if some are names. -/
def withSenders (key : String) (tokens : List String) (ids : List ℤ) (d : List (String × Json)) :
    List (String × Json) :=
  let d := popKey (key ++ "_refs") d
  if tokens = [] then popKey key d
  else
    let d := setKey key (.list (ids.map Json.int)) d
    if tokens.all out.python.isDigit then d
    else setKey (key ++ "_refs") (.list (tokens.map Json.str)) d

def resolveNames (rule : CloneRule) (names : List String) : Req (String → Option ℤ) :=
  if names = [] then Txn.ret fun _ => none
  else do
    let account ← Txn.read fun s => s.dir.account rule.accountId
    let account ← orRefuse .notFound "规则所属账号不存在" account
    out.resolveUserRefs rule.scope account names.eraseDups

/-- `_normalize_filters`. -/
def normalizeFilters (rule : CloneRule) (filters : Option (List (String × Json))) :
    Req (Option (List (String × Json))) :=
  match filters with
  | none => Txn.ret none
  | some [] => Txn.ret (some [])
  | some d => do
    let senders ← orCrash "TypeError" (senderTokens out d "sender_user_ids")
    let blocked ← orCrash "TypeError" (senderTokens out d "blocked_sender_ids")
    let resolved ← resolveNames out rule
      ((senders ++ blocked).filter fun t => !out.python.isDigit t)
    let senderIds' ← Txn.lift (senderIds out resolved senders)
    let blockedIds ← Txn.lift (senderIds out resolved blocked)
    Txn.ret (some (withSenders out "blocked_sender_ids" blocked blockedIds
      (withSenders out "sender_user_ids" senders senderIds' d)))

/-- `add_target`. -/
def addTarget (ruleId : ℕ) (obj : CloneTargetParam) : Req (ℕ × CloneTarget) := do
  let rule ← getRule caller ruleId
  let srcRef := strip obj.sourceChatId
  let dstRef := strip obj.targetChatId
  if rule.status = .disabled then refuse .request "规则已停用"
  else if srcRef = "" || dstRef = "" then refuse .request "源群/目标群必填"
  else
    let results ← resolveRefs out rule [srcRef, dstRef]
    let srcId ← Outside.resolveOrRaise results "源群" srcRef
    let dstId ← Outside.resolveOrRaise results "目标群" dstRef
    if srcId = dstId && obj.sourceTopicId = obj.targetTopicId then
      refuse .request "禁止源=目标的自环"
    else
      let filters ← normalizeFilters out rule obj.filters
      let target : CloneTarget := {
        ruleId, tenantId := rule.tenantId, projectId := rule.projectId, routeId := out.uuid 2
        sourceChatId := srcId, targetChatId := dstId, sourceChatRef := some srcRef
        targetChatRef := some dstRef, joinedAccountId := some rule.accountId
        sourceTopicId := obj.sourceTopicId, targetTopicId := obj.targetTopicId
        filters := filters.map Json.dict, remark := obj.remark }
      let active ← Txn.read fun s => s.activeTargets ruleId
      let taken ← Txn.read fun s => s.sourceTaken none ruleId srcId obj.sourceTopicId
      if active.any fun t => t.2.routeKey = target.routeKey then
        refuse .request "该规则已有相同的源群→目标群路线,不能重复添加"
      else if taken then crash "IntegrityError"
      else
        let pk ← Txn.read fun s => s.targets.size
        Txn.write fun s => { s with targets := s.targets.add target }
        Txn.ret (pk, target)

/-- `clone_target_dao.retire`. -/
def retireRow (pk : ℕ) : Req Unit :=
  Txn.write fun s => s.updateTargetRow pk fun t => { t with status := .retired }

/-- `update_target`. -/
def updateTarget (ruleId targetId : ℕ) (obj : CloneTargetParam) : Req (ℕ × CloneTarget) := do
  let rule ← getRule caller ruleId
  let target ← Txn.read fun s => s.target targetId
  let target ← orRefuse .notFound "目标不存在"
    (target.filter fun t => t.ruleId = ruleId && t.status = .active)
  let srcRef := strip obj.sourceChatId
  let dstRef := strip obj.targetChatId
  let sameSrc := some srcRef = target.sourceChatRef || srcRef = toString target.sourceChatId
  let sameDst := some dstRef = target.targetChatRef || dstRef = toString target.targetChatId
  if sameSrc && sameDst && obj.sourceTopicId = target.sourceTopicId &&
      obj.targetTopicId = target.targetTopicId then
    let filters ← normalizeFilters out rule obj.filters
    let updated := { target with filters := filters.map Json.dict, remark := obj.remark }
    Txn.write fun s => s.updateTargetRow targetId fun _ => updated
    Txn.ret (targetId, updated)
  else
    retireRow targetId
    addTarget out caller ruleId obj

/-- `retire_target`. -/
def retireTarget (ruleId targetId : ℕ) : Req Unit := do
  let _ ← getRule caller ruleId
  let target ← Txn.read fun s => s.target targetId
  let _ ← orRefuse .notFound "目标不存在" (target.filter fun t => t.ruleId = ruleId)
  retireRow targetId

def JoinResult.isOk : Option JoinResult → Bool
  | some (.ok _) => true
  | _ => false

def lostReason (results : String → Option JoinResult) (t : CloneTarget) : Option String :=
  if !JoinResult.isOk (results (toString t.sourceChatId)) then some sourceLost
  else if !JoinResult.isOk (results (toString t.targetChatId)) then some destLost
  else none

/-- `check_routes`. -/
def checkRoutes (pk : ℕ) : Req (List (ℕ × Option String)) := do
  let rule ← getRule caller pk
  let targets ← Txn.read fun s => s.activeTargets pk
  if targets = [] then Txn.ret []
  else
    let ids := (targets.flatMap fun t =>
      [toString t.2.sourceChatId, toString t.2.targetChatId]).eraseDups
    let results ← resolveRefs out rule ids
    Txn.each (fun t => Txn.write fun s => s.updateTargetRow t.1 fun row => { row with
      healthReason := lostReason results t.2
      joinedAccountId := if (lostReason results t.2).isSome then none else row.joinedAccountId })
      targets
    Txn.ret (targets.map fun t => (t.1, lostReason results t.2))

/-! ## Publishing -/

/-- `route_health` of one target. -/
def CloneTarget.health (t : CloneTarget) : Option String :=
  match truthy t.healthReason with
  | some reason => some reason
  | none => if out.blocked t.routeId t.joinedAt then some targetLost else t.healthReason

def CloneTarget.sourceRef (t : CloneTarget) : String :=
  (truthy t.sourceChatRef).getD (toString t.sourceChatId)

def CloneTarget.targetRef (t : CloneTarget) : String :=
  (truthy t.targetChatRef).getD (toString t.targetChatId)

def joinListener (rule : CloneRule) (results : String → Option JoinResult) (pk : ℕ)
    (t : CloneTarget) : Req Unit := do
  let srcId ← Outside.resolveOrRaise results "源群" t.sourceRef
  let dstId ← Outside.resolveOrRaise results "目标群" t.targetRef
  let taken ← Txn.read fun s => s.sourceTaken (some pk) t.ruleId srcId t.sourceTopicId
  if taken then crash "IntegrityError"
  else Txn.write fun s => s.updateTargetRow pk fun row => { row with
    sourceChatId := srcId, targetChatId := dstId, joinedAccountId := some rule.accountId
    joinedAt := some out.now, healthReason := none }

def joinSender (accountId : ℕ) (results : String → Option JoinResult) (pk : ℕ) (t : CloneTarget) :
    Req Unit := do
  let dstId ← Outside.resolveOrRaise results "目标群" t.targetRef
  Txn.write fun s => s.updateTargetRow pk fun row => { row with
    targetChatId := dstId
    joinedAccountIds := if accountId ∈ row.joinedAccountIds then row.joinedAccountIds
      else row.joinedAccountIds ++ [accountId] }

/-- `_auto_join_pool`. -/
def autoJoinPool (scope : Scope) (ruleId : ℕ) (extraSenders : List ℕ) : Req Unit :=
  Txn.each (fun accountId => do
    let targets ← Txn.read fun s => s.activeTargets ruleId
    let need := targets.filter fun t => accountId ∉ t.2.joinedAccountIds
    if need = [] then Txn.ret ()
    else
      let account ← Txn.read fun s => s.dir.account accountId
      let account ← orRefuse .notFound s!"发送账号 {accountId} 不存在" account
      let refs := (need.map fun t => t.2.targetRef).eraseDups
      let results ← out.joinChatRefs 1 scope account refs
      Txn.each (fun t => joinSender accountId results t.1 t.2) need) extraSenders

def autoJoinListener (rule : CloneRule) (targets : List (ℕ × CloneTarget)) : Req Unit :=
  if targets = [] then Txn.ret ()
  else do
    let refs := (targets.flatMap fun t => [t.2.sourceRef, t.2.targetRef]).eraseDups
    let results ← resolveRefs out rule refs
    Txn.each (fun t => joinListener out rule results t.1 t.2) targets

/-- `_auto_join`. -/
def autoJoin (ruleId : ℕ) (rule : CloneRule) : Req Unit := do
  let targets ← Txn.read fun s => s.activeTargets ruleId
  let extraSenders := rule.senderPool.filter fun a => a ≠ rule.accountId
  let listenerTargets := targets.filter fun t =>
    t.2.joinedAccountId ≠ some rule.accountId || (truthy (t.2.health out)).isSome
  let senderTargets := targets.filter fun t =>
    extraSenders.any fun a => a ∉ t.2.joinedAccountIds
  if listenerTargets = [] && senderTargets = [] then Txn.ret ()
  else
    autoJoinListener out rule listenerTargets
    autoJoinPool out rule.scope ruleId extraSenders

/-- `_snapshot`. -/
def CloneRule.snapshot (rule : CloneRule) (pk : ℕ) (targets : List (ℕ × CloneTarget)) :
    PublishedSnapshot where
  id := pk
  uuid := rule.uuid
  name := rule.name
  accountId := rule.accountId
  senderAccountIds := rule.senderPool
  transform := ((truthy (some rule.aiRewrite)).getD "off") ≠ "off" ||
    ((truthy (some rule.adBlock)).getD "off") ≠ "off"
  mode := rule.mode
  syncEdit := rule.syncEdit
  syncDelete := rule.syncDelete
  enabled := rule.enabled
  targets := targets.map fun t => (t.2.routeId, t.2.sourceChatId, t.2.sourceTopicId,
    t.2.targetChatId, t.2.targetTopicId, t.2.filters)

/-- Before a rule runs its accounts join the chats, and the listener's worker is told of them. -/
def joinBeforeRun (pk : ℕ) (rule : CloneRule) : Req Unit :=
  if rule.enabled then do
    autoJoin out pk rule
    issueCommand out caller rule.accountId "SyncChats" ("syncchats-" ++ out.uuid 0)
  else Txn.ret ()

/-- `publish`. -/
def publish (pk : ℕ) (expectedVersion : ℤ) : Req CloneRuleVersion := do
  let rule ← getRule caller pk
  let targets ← Txn.read fun s => s.activeTargets pk
  if rule.status = .disabled then refuse .request "规则已停用,不能发布"
  else if rule.currentVersion ≠ expectedVersion then refuse .conflict "版本已变更,请刷新后重试"
  else if targets = [] then refuse .request "无 active 目标,不能发布"
  else if ¬ (targets.map fun t => t.2.routeKey).Nodup then
    refuse .request "规则里有重复的源群→目标群路线,请先删除重复的再运行"
  else
    joinBeforeRun out caller pk rule
    let targets ← Txn.read fun s => s.activeTargets pk
    let version : CloneRuleVersion := {
      ruleId := pk, tenantId := rule.tenantId, projectId := rule.projectId
      version := rule.currentVersion + 1, snapshot := rule.snapshot pk targets
      publishedBy := caller.id, publishedAt := out.now }
    Txn.write fun s => { s with versions := s.versions.add version }
    Txn.write fun s => s.updateRuleRow pk fun r => { r with
      currentVersion := rule.currentVersion + 1, status := .published }
    notifyReload out caller rule
    Txn.ret version

end TgPlatform
