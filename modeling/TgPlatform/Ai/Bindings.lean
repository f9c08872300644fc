import TgPlatform.Control.Outside

/-! # Bindings, conversations and runs

The requests that address these rows directly. None of them looks at who asks.
-/

namespace TgPlatform

/-- A field of a partial update: left out, set to null, or set. -/
inductive Patch (α : Type)
  | keep
  | null
  | set (a : α)
  deriving DecidableEq, Repr

namespace Patch

variable {α : Type}

/-- The new value of a column that may be null. -/
def optional : Patch α → Option α → Option α
  | .keep, old => old
  | .null, _ => none
  | .set a, _ => some a

/-- The new value of a column; null violates its constraint. -/
def required : Patch α → α → Req α
  | .keep, old => Txn.ret old
  | .null, _ => crash "IntegrityError"
  | .set a, _ => Txn.ret a

/-- The new value of a column for which null means unchanged. -/
def getD : Patch α → α → α
  | .set a, _ => a
  | _, old => old

def value : Patch α → Option α
  | .set a => some a
  | _ => none

end Patch

/-- `CreateAiBindingParam`. -/
structure CreateAiBinding where
  tenantId : ℕ
  projectId : ℕ
  accountId : ℕ
  engine : String := "langbot"
  botUuid : String := ""
  baseUrl : String := ""
  inboundSecretRef : String := ""
  outboundSecretRef : String := ""
  chatId : Option String := none
  topicId : Option ℤ := none
  persona : Option String := none
  providerModel : Option String := none
  providerKey : Option String := none
  speakPolicy : String := "all"
  randomProb : ℤ := 30
  contextMaxMessages : ℤ := 12
  autoApprove : Bool := false
  replyDelayS : ℤ := 0
  remark : Option String := none
  deriving DecidableEq, Repr

/-- `UpdateAiBindingParam`. -/
structure UpdateAiBinding where
  accountId : Patch ℕ := .keep
  engine : Patch String := .keep
  baseUrl : Patch String := .keep
  botUuid : Patch String := .keep
  inboundSecretRef : Patch String := .keep
  outboundSecretRef : Patch String := .keep
  chatId : Patch String := .keep
  topicId : Patch ℤ := .keep
  persona : Patch String := .keep
  providerModel : Patch String := .keep
  providerKey : Option String := none
  speakPolicy : Patch String := .keep
  randomProb : Patch ℤ := .keep
  contextMaxMessages : Patch ℤ := .keep
  autoApprove : Patch Bool := .keep
  replyDelayS : Patch ℤ := .keep
  status : Patch String := .keep
  remark : Patch String := .keep
  deriving DecidableEq, Repr

namespace ControlPlane

/-- `ai_binding_dao.get_all`. -/
def bindingsOf (s : ControlPlane) (tenantId projectId : Option ℕ) : List (BindingId × AiBinding) :=
  s.bindings.where_ fun b =>
    !b.deleted && matchesParam tenantId b.tenantId && matchesParam projectId b.projectId

/-- `ai_conversation_dao.get_all`. -/
def conversationsOf (s : ControlPlane) (tenantId projectId : Option ℕ) :
    List (ConversationId × AiConversation) :=
  s.conversations.where_ fun c =>
    !c.deleted && matchesParam tenantId c.tenantId && matchesParam projectId c.projectId

/-- `ai_run_dao.get_all`. -/
def runsOf (s : ControlPlane) (tenantId projectId : Option ℕ) (status : Option RunStatus) :
    List (RunId × AiRun) :=
  s.runs.where_ fun r => !r.deleted && matchesParam tenantId r.tenantId &&
    matchesParam projectId r.projectId && matchesParam status r.status

def updateBindingRow (s : ControlPlane) (pk : BindingId) (f : AiBinding → AiBinding) :
    ControlPlane :=
  { s with bindings := s.bindings.modify pk f }

end ControlPlane

/-- `ai_binding_dao.delete`. -/
def AiBinding.removed (b : AiBinding) : AiBinding :=
  { b with deleted := true, status := "removed", groupId := none }

variable (out : Outside)

/-- `_resolve_chat_id`, for a binding of the scope. -/
def resolveChatId (scope : Scope) (accountId : ℕ) (value : Option String) : Req (Option ℤ) :=
  match value.map strip with
  | none | some "" => Txn.ret none
  | some ref =>
    if out.isNumeric ref then do
      let chatId ← orCrash "ValueError" (out.python.parseInt ref)
      Txn.ret (some chatId)
    else do
      let account ← Txn.read fun s => s.dir.account accountId
      let account ← orRefuse .notFound "绑定账号不存在" account
      let results ← out.joinChatRefs 0 scope account [ref]
      let chatId ← Outside.resolveOrRaise results "群" ref
      Txn.ret (some chatId)

/-- `provider_key` only ever enters, encrypted. -/
def encrypted (key : Option String) (old : Option String) : Option String :=
  match truthy key with
  | some key => some (out.encrypt key)
  | none => old

/-- `get_bindings`. -/
def getBindings (tenantId projectId : Option ℕ) : Req (List (BindingId × AiBinding)) :=
  Txn.read fun s => s.bindingsOf tenantId projectId

def CreateAiBinding.row (obj : CreateAiBinding) (chatId : Option ℤ) : AiBinding where
  uuid := out.uuid 0
  tenantId := obj.tenantId
  projectId := obj.projectId
  accountId := obj.accountId
  botUuid := obj.botUuid
  baseUrl := obj.baseUrl
  inboundSecretRef := obj.inboundSecretRef
  outboundSecretRef := obj.outboundSecretRef
  remark := obj.remark
  engine := obj.engine
  chatId := chatId
  topicId := obj.topicId
  persona := obj.persona
  providerModel := obj.providerModel
  providerKeyEnc := encrypted out obj.providerKey none
  speakPolicy := obj.speakPolicy
  replyDelayS := obj.replyDelayS
  randomProb := obj.randomProb
  contextMaxMessages := obj.contextMaxMessages
  autoApprove := obj.autoApprove

/-- `create_binding`. -/
def createBinding (obj : CreateAiBinding) : Req (BindingId × AiBinding) := do
  let chatId ← resolveChatId out (obj.tenantId, obj.projectId) obj.accountId obj.chatId
  let pk ← Txn.read fun s => s.bindings.size
  let binding := obj.row out chatId
  Txn.write fun s => { s with bindings := s.bindings.add binding }
  Txn.ret (pk, binding)

/-- The row after an update; `chatId` is the new chat, if the update names one. -/
def UpdateAiBinding.apply (obj : UpdateAiBinding) (chatId : Option (Option ℤ)) (b : AiBinding) :
    Req AiBinding := do
  let accountId ← obj.accountId.required b.accountId
  let engine ← obj.engine.required b.engine
  let baseUrl ← obj.baseUrl.required b.baseUrl
  let botUuid ← obj.botUuid.required b.botUuid
  let inboundSecretRef ← obj.inboundSecretRef.required b.inboundSecretRef
  let outboundSecretRef ← obj.outboundSecretRef.required b.outboundSecretRef
  let speakPolicy ← obj.speakPolicy.required b.speakPolicy
  let randomProb ← obj.randomProb.required b.randomProb
  let contextMaxMessages ← obj.contextMaxMessages.required b.contextMaxMessages
  let autoApprove ← obj.autoApprove.required b.autoApprove
  let replyDelayS ← obj.replyDelayS.required b.replyDelayS
  let status ← obj.status.required b.status
  Txn.ret { b with
    accountId, engine, baseUrl, botUuid, inboundSecretRef, outboundSecretRef, speakPolicy
    randomProb, contextMaxMessages, autoApprove, replyDelayS, status
    chatId := chatId.getD b.chatId
    topicId := obj.topicId.optional b.topicId
    persona := obj.persona.optional b.persona
    providerModel := obj.providerModel.optional b.providerModel
    providerKeyEnc := encrypted out obj.providerKey b.providerKeyEnc
    remark := obj.remark.optional b.remark }

/-- `obj.account_id or binding.account_id`. -/
def UpdateAiBinding.resolver (obj : UpdateAiBinding) (b : AiBinding) : ℕ :=
  match obj.accountId with
  | .set a => if a = 0 then b.accountId else a
  | _ => b.accountId

def UpdateAiBinding.newChat (obj : UpdateAiBinding) (b : AiBinding) : Req (Option (Option ℤ)) :=
  match obj.chatId with
  | .keep => Txn.ret none
  | _ => do
    let chatId ← resolveChatId out (b.tenantId, b.projectId) (obj.resolver b) obj.chatId.value
    Txn.ret (some chatId)

/-- `update_binding`. -/
def updateBinding (pk : BindingId) (obj : UpdateAiBinding) : Req (BindingId × AiBinding) := do
  let binding ← Txn.read fun s => s.binding pk
  let binding ← orRefuse .notFound "绑定不存在" binding
  let chatId ← obj.newChat out binding
  let updated ← obj.apply out chatId binding
  Txn.write fun s => s.updateBindingRow pk fun _ => updated
  Txn.ret (pk, updated)

/-- `delete_binding`. -/
def deleteBinding (pk : BindingId) : Req ℕ := do
  let binding ← Txn.read fun s => s.binding pk
  let _ ← orRefuse .notFound "绑定不存在" binding
  Txn.write fun s => s.updateBindingRow pk AiBinding.removed
  Txn.ret 1

/-- `set_auto_approve`. -/
def setAutoApprove (tenantId projectId : ℕ) (enabled : Bool) : Req (ℕ × Bool) := do
  let bindings ← Txn.read fun s => s.bindingsOf (some tenantId) (some projectId)
  let changed := bindings.filter fun b => b.2.engine = "openai" && b.2.autoApprove != enabled
  Txn.each (fun b => Txn.write fun s =>
    s.updateBindingRow b.1 fun row => { row with autoApprove := enabled }) changed
  Txn.ret (changed.length, enabled)

/-- `get_conversations`. -/
def getConversations (tenantId projectId : Option ℕ) :
    Req (List (ConversationId × AiConversation)) :=
  Txn.read fun s => s.conversationsOf tenantId projectId

/-- `get_runs`. -/
def getRuns (tenantId projectId : Option ℕ) (status : Option RunStatus) :
    Req (List (RunId × AiRun)) :=
  Txn.read fun s => s.runsOf tenantId projectId status

/-- `cancel_run`. -/
def cancelRun (pk : RunId) : Req (Option AiRun) := do
  let run ← Txn.read fun s => s.run pk
  let run ← orRefuse .notFound "run 不存在" run
  if !run.status.active then refuse .request "run 已结束"
  else
    Txn.write fun s => (s.updateRun pk fun r => { r with
      status := .cancelled
      completedAt := some out.now }).unlockConversation run.conversationId
    Txn.read fun s => s.run pk

end TgPlatform
