import Mathlib.Data.List.Infix
import TgPlatform.Rules.Service

/-! # What the workers report and ask for

A worker reports the state of its account, which may hand a rule over to
another listener, that an account has left a chat, and it has the texts that
a rule copies rewritten by the model of an AI group.
-/

namespace TgPlatform

/-- `_LISTENER_DEAD`. -/
def listenerDead : List String :=
  ["auth_dead", "revoked", "banned", "frozen", "error", "disabled", "reauth_required"]

def TelegramAccount.observe (a : TelegramAccount) (pk : ℕ) (status : String) : TelegramAccount :=
  if a.id = pk then { a with observedStatus := status } else a

@[simp] theorem TelegramAccount.observe_id (a : TelegramAccount) (pk : ℕ) (status : String) :
    (a.observe pk status).id = a.id := by
  unfold observe
  split <;> rfl

@[simp] theorem TelegramAccount.observe_uuid (a : TelegramAccount) (pk : ℕ) (status : String) :
    (a.observe pk status).uuid = a.uuid := by
  unfold observe
  split <;> rfl

@[simp] theorem TelegramAccount.observe_scope (a : TelegramAccount) (pk : ℕ) (status : String) :
    (a.observe pk status).scope = a.scope := by
  unfold observe
  split <;> rfl

/-- `telegram_account_dao.update` of the observed status. -/
def Directory.observe (d : Directory) (pk : ℕ) (status : String) : Directory where
  tenants := d.tenants
  projects := d.projects
  accounts := d.accounts.map fun a => a.observe pk status
  memberships := d.memberships
  tenant_ids := d.tenant_ids
  project_ids := d.project_ids
  account_ids := by simpa [Function.comp_def] using d.account_ids
  tenant_uuids := d.tenant_uuids
  project_uuids := d.project_uuids
  account_uuids := by simpa [Function.comp_def] using d.account_uuids

variable (out : Outside)

/-! ## Failover -/

def TelegramAccount.canListen (a : TelegramAccount) : Bool :=
  a.desiredStatus = "running" && a.observedStatus ∉ listenerDead && (truthy a.secretRef).isSome

/-- A sending account that can take over from the dead listener and has joined the sources. -/
def takeover (dead : ℕ) (rule : CloneRule) (srcRefs : List String) (pid : ℕ) :
    Req (Option TelegramAccount) :=
  if pid = dead then Txn.ret none
  else do
    let a ← Txn.read fun s => s.dir.accountByScope rule.tenantId rule.projectId pid
    match a.filter TelegramAccount.canListen with
    | none => Txn.ret none
    | some a =>
      if srcRefs = [] then Txn.ret (some a)
      else do
        -- an account that fails to join is passed over
        let results ← Txn.attempt (out.joinChatRefs 2 rule.scope a srcRefs) (fun _ => true)
          fun _ => none
        Txn.ret (if srcRefs.all fun ref => JoinResult.isOk (results ref) then some a else none)

def failoverRule (dead pk : ℕ) (rule : CloneRule) : Req (Option ℕ) :=
  if rule.accountId ≠ dead || rule.status ≠ .published || !rule.enabled then Txn.ret none
  else do
    let targets ← Txn.read fun s => s.targetsOf pk
    let srcRefs := (targets.filter fun t => t.2.status = .active).filterMap fun t =>
      truthy t.2.sourceChatRef
    let cand ← Txn.firstSome (takeover out dead rule srcRefs) rule.senderAccountIds
    match cand with
    | none => Txn.ret none
    | some cand => do
      Txn.write fun s => s.updateRuleRow pk fun r => { r with accountId := cand.id }
      Txn.write fun s => { s with commands := s.commands.add {
        tenantId := rule.tenantId, projectId := rule.projectId, accountId := cand.id
        type := "ReloadConfig"
        dedupKey := s!"failover-{pk}-" ++ String.ofList ((out.uuid pk).toList.take 8)
        issuedBy := 0, deadline := some (out.now + commandTtl) } }
      Txn.ret (some cand.id)

/-- `failover_listener_if_dead`. -/
def failoverListenerIfDead (accountId : ℕ) (status : String) : Req (Option ℕ) :=
  if status ∉ listenerDead then Txn.ret none
  else do
    let rules ← Txn.read fun s => s.liveRules
    let news ← Txn.collect (fun r => failoverRule out accountId r.1 r.2) rules
    Txn.ret (news.filterMap id).getLast?

/-- `report_account_status`. -/
def reportAccountStatus (accountId : ℕ) (observedStatus : String) : Req (Option ℕ) := do
  let account ← Txn.read fun s => s.dir.account accountId
  let _ ← orRefuse .notFound "账号不存在" account
  Txn.write fun s => { s with dir := s.dir.observe accountId observedStatus }
  failoverListenerIfDead out accountId observedStatus

/-! ## Lost chats -/

def CloneTarget.lose (t : CloneTarget) (accountId : ℕ) (chatId : ℤ) (reason : String) : CloneTarget :=
  let suffix := if reason = "kicked" then "(被移出或群已不可见)" else ""
  { t with
    healthReason := some ((if t.sourceChatId = chatId then sourceLost else destLost) ++ suffix)
    joinedAccountId := if t.joinedAccountId = some accountId then none else t.joinedAccountId
    joinedAccountIds := t.joinedAccountIds.filter fun a => a ≠ accountId }

/-- `mark_chat_lost`. -/
def markChatLost (accountId : ℕ) (chatId : ℤ) (reason : String) : Req ℕ := do
  let rules ← Txn.read fun s => s.liveRules.filter fun r => r.2.accountId = accountId
  let targets ← Txn.read fun s => s.targets.where_ fun t =>
    t.ruleId ∈ rules.map Prod.fst && t.status = .active && !t.deleted &&
      (t.sourceChatId = chatId || t.targetChatId = chatId)
  Txn.each (fun t => Txn.write fun s => s.updateTargetRow t.1 fun row =>
    row.lose accountId chatId reason) targets
  Txn.ret targets.length

/-- `report_chat_lost`. -/
def reportChatLost (accountId : ℕ) (chatId : ℤ) (reason : String) : Req ℕ := do
  let account ← Txn.read fun s => s.dir.account accountId
  let _ ← orRefuse .notFound "账号不存在" account
  markChatLost accountId chatId reason

/-! ## Rewriting what is copied -/

structure Transformed where
  action : String
  text : String
  reason : String
  deriving DecidableEq, Repr

/-- `_clone_ai_group`. -/
def ControlPlane.cloneAiGroup (s : ControlPlane) (pk : ℕ) (rule : CloneRule) : Option AiGroup :=
  match rule.aiGroupId.bind s.group with
  | some group => some group
  | none =>
    let groups := s.groups.where_ fun g =>
      !g.deleted && g.tenantId = rule.tenantId && g.projectId = rule.projectId
    let targetChats := (s.activeTargets pk).map fun t => t.2.targetChatId
    (groups.find? fun g => targetChats.any fun c => chatMatch g.2.chatId c).map Prod.snd

def hitsKeyword (rule : CloneRule) (text : String) : Bool :=
  ((rule.adKeywords.map strip).filter fun k => k ≠ "").any fun k =>
    (out.lower k).toList <:+: (out.lower text).toList

/-- `clone_transform`. -/
def cloneTransform (ruleId : ℕ) (text : String) : Req Transformed := do
  let rule ← Txn.read fun s => s.rule ruleId
  match rule with
  | none => Txn.ret ⟨"send", text, "rule_not_found"⟩
  | some rule =>
    let needAi := rule.adBlock = "ai" || (rule.aiRewrite ≠ "" && rule.aiRewrite ≠ "off")
    if hitsKeyword out rule text then Txn.ret ⟨"drop", "", "keyword"⟩
    else if !needAi then Txn.ret ⟨"send", text, ""⟩
    else do
      let group ← Txn.read fun s => s.cloneAiGroup ruleId rule
      match group.filter fun g => (truthy (decrypted out g.providerKeyEnc)).isSome &&
        (truthy g.providerModel).isSome with
      | none => Txn.ret ⟨"send", text, "no_provider"⟩
      | some group => do
        Txn.emit (.key (group.tenantId, group.projectId) rule.scope)
        match out.transform rule group text with
        | .error err => crash ("ServerError: clone_transform 模型调用失败:" ++ err)
        | .ok none => Txn.ret ⟨"send", text, "unparseable"⟩
        | .ok (some payload) =>
          let reason := payload.field "reason" .null
          let reason := if reason.truthy then reason.toStr out.python.repr else "ad"
          let newText := payload.field "text" .null
          let newText := strip (if newText.truthy then newText.toStr out.python.repr else "")
          if (payload.field "drop" .null).truthy then
            Txn.ret ⟨"drop", "", String.ofList (("ai_ad:" ++ reason).toList.take 60)⟩
          else Txn.ret ⟨"send", if newText = "" then text else newText, ""⟩

end TgPlatform
