import TgPlatform.Ai.Trigger
import TgPlatform.Lib.Overlap

/-! # Overlapping triggers

A trigger looks for the conversation of its scope and for an active run, and
inserts what it has not found. Two unique keys keep overlapping triggers apart:
that of a conversation's scope, which does not count if a column is null, and
that of the session of an active run.
-/

namespace TgPlatform

open Overlap

/-- What a conversation is looked up by. -/
structure ConversationScope where
  tenantId : ℕ
  projectId : ℕ
  chatId : ℤ
  topicId : Option ℤ
  agentKey : Option String
  contextEpoch : ℤ
  deriving DecidableEq, Repr

def AiConversation.lookupScope (c : AiConversation) : ConversationScope :=
  ⟨c.tenantId, c.projectId, c.chatId, c.topicId, c.agentKey, c.contextEpoch⟩

/-- No column of the scope is null, so that `uq_tg_ai_conv_scope_epoch` applies. -/
def ConversationScope.keyed (c : ConversationScope) : Bool := c.topicId.isSome && c.agentKey.isSome

structure TriggerRequest where
  out : Outside
  obj : AiTrigger
  defer : Bool

/-- A row of its own that an insert locks, or a key that it claims. -/
inductive TriggerLock
  | conversation (pk : ConversationId)
  | run (pk : RunId)
  | scope (scope : ConversationScope)
  | session (sessionId : String)
  | activeSession (sessionId : String)
  deriving DecidableEq, Repr

structure Chosen where
  pk : ConversationId
  conv : AiConversation
  opened : Bool

inductive TriggerPoint
  | reading (req : TriggerRequest)
  | dating (req : TriggerRequest) (binding : AiBinding)
  | finding (req : TriggerRequest) (binding : AiBinding) (epoch : ℤ)
  | opening (req : TriggerRequest) (binding : AiBinding) (epoch : ℤ)
  | checking (req : TriggerRequest) (binding : AiBinding) (chosen : Chosen)
  | creating (req : TriggerRequest) (binding : AiBinding) (chosen : Chosen)
  | handing (req : TriggerRequest) (binding : AiBinding) (chosen : Chosen) (pk : RunId) (run : AiRun)
  | ending (req : TriggerRequest) (chosen : Chosen) (pk : RunId)

namespace TriggerRequest

variable (req : TriggerRequest) (binding : AiBinding) (conv : AiConversation)

def context : List Json :=
  lastItems req.obj.contextMaxMessages (req.obj.contextOverride.getD conv.contextMessages)

def deferred : Bool := req.defer && binding.engine = "openai"

def run (cid : ConversationId) : AiRun :=
  let countdown :=
    if req.deferred binding && req.obj.mode ≠ "script" then req.out.replyDelay binding.replyDelayS
    else 0
  req.obj.run req.out cid conv (req.deferred binding) (req.context conv) countdown

def handOver (cid : ConversationId) (pk : RunId) (run : AiRun) : Req (Option AiRun) :=
  if req.deferred binding then Txn.ret (some run)
  else if binding.engine = "openai" then do
    let group ← Txn.read fun s => binding.groupId.bind fun g => (s.group g).map fun row => (g, row)
    openaiExecute req.out req.obj binding cid conv pk run (req.context conv) [] group
  else do
    let _ ← Txn.lift (resolveSecret req.out.python binding.inboundSecretRef)
    submitted pk cid (req.out.submit {
      binding, sessionId := conv.sessionId
      message := req.obj.message req.out.python conv (req.context conv)
      senderId := (truthy req.obj.senderId).getD conv.sessionId
      senderName := req.obj.senderName, idempotencyKey := run.idempotencyKey })

end TriggerRequest

theorem trigger_eq (req : TriggerRequest) : trigger req.out req.obj req.defer = (do
    let binding ← Txn.read fun s => s.binding req.obj.bindingId
    let binding ← orRefuse .notFound "AI 绑定不存在或已停用"
      (binding.filter fun b => b.status = "active")
    let (cid, conv) ← openConversation req.out req.obj binding
    let active ← Txn.read fun s => s.activeBySession conv.sessionId
    if active.isSome then refuse .conflict "该会话已有生成中的 run,请等待回调或取消"
    else
      let run := req.run binding conv cid
      let pk ← Txn.read fun s => s.runs.size
      Txn.write fun s => { s with runs := s.runs.add run }
      req.handOver binding conv cid pk run) := rfl

namespace ControlPlane

variable (s : ControlPlane)

def conversationTaken (conv : AiConversation) : Bool :=
  (s.conversations.first? fun c => c.sessionId = conv.sessionId ||
    (conv.lookupScope.keyed && c.lookupScope = conv.lookupScope)).isSome

/-- `uq_tg_ai_run_active_session` is taken. -/
def sessionTaken (sessionId : String) : Bool :=
  (s.runs.first? fun r => r.sessionId = sessionId && r.status.active).isSome

end ControlPlane

def AiConversation.locks (conv : AiConversation) : List TriggerLock :=
  .session conv.sessionId ::
    if conv.lookupScope.keyed then [.scope conv.lookupScope] else []

/-- The statements of `trigger`; an inserted row gets the serial number. -/
def triggerNext : TriggerPoint → ControlPlane → ℕ → Move ControlPlane TriggerLock RunId TriggerPoint
  | .reading req, s, _ =>
    match (s.binding req.obj.bindingId).filter fun b => b.status = "active" with
    | none => .rollback
    | some binding => .go [] id (.dating req binding)
  | .dating req binding, s, _ => .go [] id (.finding req binding (s.currentEpoch binding req.obj))
  | .finding req binding epoch, s, _ =>
    match s.conversationByScope binding req.obj epoch with
    | some (cid, conv) => .go [] id (.checking req binding ⟨cid, conv, false⟩)
    | none => .go [] id (.opening req binding epoch)
  | .opening req binding epoch, s, n =>
    let conv := req.obj.conversation req.out binding epoch
    if s.conversationTaken conv then .rollback
    else .go (.conversation n :: conv.locks)
      (fun s => { s with conversations := s.conversations.put n conv })
      (.checking req binding ⟨n, conv, true⟩)
  | .checking req binding chosen, s, _ =>
    if (s.activeBySession chosen.conv.sessionId).isSome then .rollback
    else .go [] id (.creating req binding chosen)
  | .creating req binding chosen, s, n =>
    let run := req.run binding chosen.conv chosen.pk
    if s.sessionTaken run.sessionId then .rollback
    else .go [.run n, .activeSession run.sessionId]
      (fun s => { s with runs := s.runs.put n run }) (.handing req binding chosen n run)
  | .handing req binding chosen pk run, s, _ =>
    let handing := req.handOver binding chosen.conv chosen.pk pk run
    match handing.answer s with
    | .error _ => .rollback
    | .ok _ => .go [] handing.commit (.ending req chosen pk)
  | .ending _ _ pk, _, _ => .commit pk

/-- `trigger`, statement by statement. -/
def triggering : Program TriggerRequest ControlPlane TriggerLock RunId TriggerPoint where
  start := .reading
  next := triggerNext

theorem triggerNext_eq_commit {point : TriggerPoint} {s : ControlPlane} {n : ℕ} {pk : RunId}
    (h : triggerNext point s n = .commit pk) : ∃ req chosen, point = .ending req chosen pk := by
  cases point with
  | reading req =>
    simp only [triggerNext] at h
    split at h <;> cases h
  | dating req binding => cases h
  | finding req binding epoch =>
    simp only [triggerNext] at h
    split at h <;> cases h
  | opening req binding epoch =>
    simp only [triggerNext] at h
    split at h <;> cases h
  | checking req binding chosen =>
    simp only [triggerNext] at h
    split at h <;> cases h
  | creating req binding chosen =>
    simp only [triggerNext] at h
    split at h <;> cases h
  | handing req binding chosen pk' run =>
    simp only [triggerNext] at h
    split at h <;> cases h
  | ending req chosen pk' =>
    cases h
    exact ⟨req, chosen, rfl⟩

end TgPlatform
