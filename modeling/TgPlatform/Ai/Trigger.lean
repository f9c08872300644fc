import TgPlatform.Ai.Bindings
import TgPlatform.Ai.Callbacks

/-! # Triggering a run

A trigger finds or opens the conversation of its binding, creates the run, and
hands it to the engine: a deferred one to a later task, an OpenAI one to the
model at once, and any other to LangBot, whose answer comes as a callback.
-/

namespace TgPlatform

/-- `AiTriggerParam`. -/
structure AiTrigger where
  bindingId : BindingId
  chatId : ℤ
  text : String
  senderName : String := "User"
  senderId : Option String := none
  topicId : Option ℤ := none
  agentKey : Option String := none
  sourceRefs : Option (List Json) := none
  contextMaxMessages : ℕ := 12
  contextOverride : Option (List Json) := none
  mode : String := "reply"
  scriptLine : Option String := none
  rewrite : Bool := false

/-- `RUN_DEADLINE_SECONDS`, in microseconds. -/
def runDeadline : Time := 180 * 1000000

/-- `l[-n:]`. -/
def lastItems (n : ℕ) (l : List Json) : List Json := if n = 0 then l else l.drop (l.length - n)

theorem lastItems_suffix {n : ℕ} {l : List Json} : lastItems n l <:+ l := by
  unfold lastItems
  split
  · exact List.suffix_refl _
  · exact List.drop_suffix _ _

/-- `_chat_match`. -/
def chatMatch (bindingChat eventChat : ℤ) : Bool :=
  let norm (c : ℤ) : ℕ := if 10 ^ 10 < c.natAbs then c.natAbs % 10 ^ 15 else c.natAbs
  bindingChat = eventChat || norm bindingChat = norm eventChat

namespace ControlPlane

variable (s : ControlPlane)

/-- `_current_epoch`. -/
def currentEpoch (binding : AiBinding) (obj : AiTrigger) : ℤ :=
  let convs := (s.conversationsOf (some binding.tenantId) (some binding.projectId)).filter fun c =>
    c.2.chatId = obj.chatId && c.2.topicId = obj.topicId && c.2.agentKey = obj.agentKey
  (convs.map fun c => c.2.contextEpoch).max?.getD 0

/-- `ai_conversation_dao.get_by_scope`. -/
def conversationByScope (binding : AiBinding) (obj : AiTrigger) (epoch : ℤ) :
    Option (ConversationId × AiConversation) :=
  s.conversations.first? fun c =>
    c.tenantId = binding.tenantId && c.projectId = binding.projectId && c.chatId = obj.chatId &&
      c.topicId = obj.topicId && c.agentKey = obj.agentKey && c.contextEpoch = epoch && !c.deleted

/-- `get_active_by_session`. -/
def activeBySession (sessionId : String) : Option (RunId × AiRun) :=
  s.runs.first? fun r => r.sessionId = sessionId && r.status.active && !r.deleted

def memberNicks (groupId : GroupId) : List (ℤ × Option String) :=
  (s.bindings.where_ fun b => b.groupId = some groupId && !b.deleted).filterMap fun b =>
    (s.dir.accounts.find? fun a => a.id = b.2.accountId).bind fun a =>
      a.telegramUserId.map fun uid => (uid, a.username)

/-- `_account_uid`. -/
def accountUid (accountId : ℕ) : Option ℤ :=
  (s.dir.accounts.find? fun a => a.id = accountId).bind TelegramAccount.telegramUserId

def lockConversation (pk : ConversationId) : ControlPlane :=
  { s with conversations := s.conversations.modify pk fun c => { c with status := .locked } }

end ControlPlane

variable (out : Outside)

/-- `_decrypt`. -/
def decrypted (enc : Option String) : Option String := (truthy enc).bind out.decrypt

/-- `_provider`, with the scope of the row whose key it is. -/
def provider (binding : AiBinding) (group : Option (GroupId × AiGroup)) :
    String × Option String × Option String × Scope :=
  match group with
  | none =>
    (binding.baseUrl, decrypted out binding.providerKeyEnc, binding.providerModel,
      (binding.tenantId, binding.projectId))
  | some (_, g) =>
    if (truthy binding.providerKeyEnc).isSome && (truthy binding.providerModel).isSome then
      (if binding.baseUrl = "" then g.baseUrl else binding.baseUrl,
        decrypted out binding.providerKeyEnc, binding.providerModel,
        (binding.tenantId, binding.projectId))
    else
      (g.baseUrl, decrypted out g.providerKeyEnc, g.providerModel, (g.tenantId, g.projectId))

def AiTrigger.conversation (obj : AiTrigger) (binding : AiBinding) (epoch : ℤ) : AiConversation where
  uuid := out.uuid 1
  tenantId := binding.tenantId
  projectId := binding.projectId
  accountId := binding.accountId
  bindingId := obj.bindingId
  chatId := obj.chatId
  sessionId := "sess_" ++ String.ofList (((out.uuid 2).toList.filter fun c => c ≠ '-').take 24)
  topicId := obj.topicId
  agentKey := obj.agentKey
  contextEpoch := epoch

/-- The message that embeds the context. -/
def AiTrigger.message (py : Python) (obj : AiTrigger) (conv : AiConversation)
    (context : List Json) : String :=
  let shown (m : Json) : String :=
    let sender := (m.field "sender" (.str "?")).toStr py.repr
    let text := (m.field "text" (.str "")).toStr py.repr
    s!"- {sender}: {text}"
  "\n".intercalate
    (s!"[Context — epoch {conv.contextEpoch}, last {context.length} messages]" ::
      context.map shown ++ ["[Trigger]", s!"{obj.senderName}: {obj.text}"])

def AiTrigger.source (obj : AiTrigger) (deferred : Bool) (context : List Json) : Json :=
  let refs := obj.sourceRefs.getD []
  let mid := (refs.head?.map fun m => m.field "message_id" .null).getD .null
  .dict ([("refs", .list refs), ("text", .str obj.text), ("mode", .str obj.mode), ("mid", mid)] ++
    (if obj.mode = "script" then
      [("script_line", .str (obj.scriptLine.getD "")), ("rewrite", .bool obj.rewrite)] else []) ++
    if deferred then [("sender_name", .str obj.senderName), ("context", .list context)] else [])

def AiTrigger.run (obj : AiTrigger) (cid : ConversationId) (conv : AiConversation) (deferred : Bool)
    (context : List Json) (countdown : Time) : AiRun where
  uuid := out.uuid 3
  tenantId := conv.tenantId
  projectId := conv.projectId
  conversationId := cid
  sessionId := conv.sessionId
  triggerSource := obj.source deferred context
  idempotencyKey := out.uuid 4
  deadline := some (out.now + countdown + runDeadline)
  contextWindow := .dict [("strategy", .str "embedded_in_message"),
    ("max_messages", .int obj.contextMaxMessages), ("injected_count", .int context.length),
    ("context_epoch", .int conv.contextEpoch)]
  createdTime := out.now

/-- `_fail_run`. -/
def failRun (pk : RunId) (conversationId : ConversationId) (err : String) : Req (Option AiRun) := do
  Txn.write fun s => (s.updateRun pk fun r => { r with
    status := .failed
    lastError := some (String.ofList (err.toList.take 255)) }).unlockConversation conversationId
  Txn.read fun s => s.run pk

/-- The second half of `_openai_execute`: what comes of the reply. -/
def openaiFinish (prompt : Prompt) (group : Option (GroupId × AiGroup)) (pk : RunId) (mode : String)
    (cid : ConversationId) (conv : AiConversation) : Req (Option AiRun) := do
  let current ← Txn.read fun s => s.runs.row? pk
  if !(current.any fun r => r.status = .pending) then Txn.ret current
  else
    match out.generate prompt with
    | .error err => failRun pk cid err
    | .ok (text, quote) => do
      let candidateId ← Txn.exec fun s => s.createCandidate (fun t => out.python.sha256 (encode t))
        prompt.run conv text (some prompt.binding) (group.map Prod.snd) quote
        ⟨out.uuid 5, out.uuid 6⟩ out.now
      Txn.write fun s => (s.updateRun pk fun r => { r with
        status := .completed
        candidateId := some candidateId
        completedAt := some out.now
        usage := .dict [("model", (prompt.model.map Json.str).getD .null),
          ("mode", .str mode)] }).unlockConversation cid
      Txn.read fun s => s.run pk

/-- `_openai_execute`. -/
def openaiExecute (obj : AiTrigger) (binding : AiBinding) (cid : ConversationId)
    (conv : AiConversation) (pk : RunId) (run : AiRun) (context after : List Json)
    (group : Option (GroupId × AiGroup)) : Req (Option AiRun) := do
  let (baseUrl, apiKey, model, owner) := provider out binding group
  let prompt : Prompt := {
    binding, group := group.map Prod.snd, run, baseUrl, model, apiKey, nicks := []
    selfUid := none, senderName := obj.senderName, text := obj.text, context, after }
  if obj.mode = "script" && !obj.rewrite then openaiFinish out prompt group pk obj.mode cid conv
  else if (truthy apiKey).isNone || baseUrl = "" || (truthy model).isNone then
    failRun pk cid "provider_not_configured"
  else
    let nicks ← Txn.read fun s => (group.map fun g => s.memberNicks g.1).getD []
    let selfUid ← Txn.read fun s => s.accountUid binding.accountId
    Txn.emit (.key owner (binding.tenantId, binding.projectId))
    openaiFinish out { prompt with nicks, selfUid } group pk obj.mode cid conv

/-- What LangBot's answer makes of the run. -/
def submitted (pk : RunId) (cid : ConversationId) (result : SubmitResult) : Req (Option AiRun) := do
  if result.ok then
    Txn.write fun s => (s.updateRun pk fun r => { r with
      status := .dispatched
      acceptedMessageId := result.acceptedMessageId }).lockConversation cid
  else
    let err := if result.statusCode = 409 then "idempotent_conflict_unlinked"
      else (truthy result.error).getD "submit_failed"
    Txn.write fun s => s.updateRun pk fun r => { r with
      status := .failed
      lastError := some err }
  Txn.read fun s => s.run pk

/-- The conversation of a trigger, which is opened if there is none. -/
def openConversation (obj : AiTrigger) (binding : AiBinding) :
    Req (ConversationId × AiConversation) := do
  let epoch ← Txn.read fun s => s.currentEpoch binding obj
  let found ← Txn.read fun s => s.conversationByScope binding obj epoch
  match found with
  | some found => Txn.ret found
  | none =>
    let cid ← Txn.read fun s => s.conversations.size
    let conv := obj.conversation out binding epoch
    Txn.write fun s => { s with conversations := s.conversations.add conv }
    Txn.ret (cid, conv)

/-- `trigger`. -/
def trigger (obj : AiTrigger) (defer : Bool) : Req (Option AiRun) := do
  let binding ← Txn.read fun s => s.binding obj.bindingId
  let binding ← orRefuse .notFound "AI 绑定不存在或已停用"
    (binding.filter fun b => b.status = "active")
  let (cid, conv) ← openConversation out obj binding
  let active ← Txn.read fun s => s.activeBySession conv.sessionId
  if active.isSome then refuse .conflict "该会话已有生成中的 run,请等待回调或取消"
  else
    let context := lastItems obj.contextMaxMessages
      (obj.contextOverride.getD conv.contextMessages)
    let deferred := defer && binding.engine = "openai"
    let countdown := if deferred && obj.mode ≠ "script" then out.replyDelay binding.replyDelayS else 0
    let run := obj.run out cid conv deferred context countdown
    let pk ← Txn.read fun s => s.runs.size
    Txn.write fun s => { s with runs := s.runs.add run }
    if deferred then Txn.ret (some run)
    else if binding.engine = "openai" then
      let group ← Txn.read fun s => binding.groupId.bind fun g => (s.group g).map fun row => (g, row)
      openaiExecute out obj binding cid conv pk run context [] group
    else
      let _ ← Txn.lift (resolveSecret out.python binding.inboundSecretRef)
      submitted pk cid (out.submit {
        binding, sessionId := conv.sessionId, message := obj.message out.python conv context
        senderId := (truthy obj.senderId).getD conv.sessionId, senderName := obj.senderName
        idempotencyKey := run.idempotencyKey })

end TgPlatform
