import TgPlatform.Lib.Json
import TgPlatform.Lib.Slots
import TgPlatform.Platform.Approvals

/-! # The tables of the AI chain

A binding gives an account its engine and its secrets, a conversation belongs
to a binding, a run to a conversation, and a callback is linked to a run. A
completed run has produced a reply candidate with its approval.
-/

namespace TgPlatform

abbrev BindingId := ℕ
abbrev ConversationId := ℕ
abbrev RunId := ℕ
abbrev GroupId := ℕ

/-- `TgAiBinding`; a member of a group is a binding with its `groupId`. -/
structure AiBinding where
  uuid : String
  tenantId : ℕ
  projectId : ℕ
  accountId : ℕ
  botUuid : String
  baseUrl : String
  inboundSecretRef : String
  outboundSecretRef : String
  status : String := "active"
  remark : Option String := none
  engine : String := "langbot"
  chatId : Option ℤ := none
  topicId : Option ℤ := none
  persona : Option String := none
  providerModel : Option String := none
  providerKeyEnc : Option String := none
  speakPolicy : String := "all"
  replyDelayS : ℤ := 0
  randomProb : ℤ := 30
  contextMaxMessages : ℤ := 12
  autoApprove : Bool := false
  groupId : Option GroupId := none
  roleName : Option String := none
  memberState : Option String := none
  memberStateDetail : Option String := none
  memberStateAt : Option Time := none
  recentMessages : List Json := []
  deleted : Bool := false

inductive ConversationStatus | open_ | locked
  deriving DecidableEq, Repr

/-- `TgAiConversation`. -/
structure AiConversation where
  uuid : String
  tenantId : ℕ
  projectId : ℕ
  accountId : ℕ
  bindingId : BindingId
  chatId : ℤ
  sessionId : String
  topicId : Option ℤ := none
  agentKey : Option String := none
  contextEpoch : ℤ := 0
  contextMessages : List Json := []
  status : ConversationStatus := .open_
  deleted : Bool := false

inductive RunStatus | pending | dispatched | running | completed | incomplete | failed | cancelled
  deriving DecidableEq, Repr

/-- `ACTIVE_RUN_STATUSES`. -/
def RunStatus.active : RunStatus → Bool
  | .pending | .dispatched | .running => true
  | .completed | .incomplete | .failed | .cancelled => false

/-- `TgAiRun`. -/
structure AiRun where
  uuid : String
  tenantId : ℕ
  projectId : ℕ
  conversationId : ConversationId
  sessionId : String
  triggerSource : Json
  status : RunStatus := .pending
  candidateId : Option CandidateId := none
  acceptedMessageId : Option String := none
  idempotencyKey : String
  deadline : Option Time := none
  expectedSeq : ℤ := 1
  contextWindow : Json := .null
  usage : Json := .null
  lastError : Option String := none
  completedAt : Option Time := none
  createdTime : Time := 0
  deleted : Bool := false

/-- `TgAiCallback`. -/
structure AiCallback where
  bindingId : BindingId
  sessionId : String
  replyTo : String
  sequence : ℤ
  isFinal : Bool
  payload : Json
  payloadSha256 : String
  receivedAt : Time
  aiRunId : Option RunId
  linkStatus : String := "linked"
  deleted : Bool := false

/-- `TgAiGroup`. -/
structure AiGroup where
  tenantId : ℕ
  projectId : ℕ
  name : String
  chatId : ℤ
  chatRef : Option String := none
  topicId : Option ℤ := none
  theme : Option String := none
  baseUrl : String := ""
  providerModel : Option String := none
  providerKeyEnc : Option String := none
  status : String := "paused"
  replyMin : ℤ := 0
  replyMax : ℤ := 1
  accountCooldownS : ℤ := 60
  accountHourlyMax : ℤ := 20
  staleMaxMessages : ℤ := 10
  contextMaxMessages : ℤ := 12
  botChainMax : ℤ := 0
  activeStartHour : ℤ := 0
  activeEndHour : ℤ := 0
  mentionBypassHours : Bool := true
  idleWarmupMin : ℤ := 0
  quoteProb : ℤ := 70
  punctSpaceProb : ℤ := 70
  blockedWords : List String := []
  maxReplyChars : ℤ := 200
  autoApprove : Bool := false
  recentMessages : List Json := []
  lastMessageAt : Option Time := none
  lastRealMessageAt : Option Time := none
  lastWarmupAt : Option Time := none
  remark : Option String := none
  createdTime : Time := 0
  deleted : Bool := false

/-- `TgAiPersona`. -/
structure AiPersona where
  tenantId : ℕ
  projectId : ℕ
  name : String
  roleName : Option String := none
  persona : String := ""
  talkativeness : ℤ := 30
  deleted : Bool := false
  deriving DecidableEq, Repr

structure ScriptLine where
  memberId : BindingId
  text : String
  deriving DecidableEq, Repr

inductive ScriptStatus | idle | running
  deriving DecidableEq, Repr

/-- `TgAiScript`. -/
structure AiScript where
  tenantId : ℕ
  projectId : ℕ
  groupId : GroupId
  name : String
  lines : List ScriptLine
  intervalS : ℤ := 30
  rewrite : Bool := false
  status : ScriptStatus := .idle
  runToken : Option String := none
  cursor : ℕ := 0
  deleted : Bool := false
  deriving DecidableEq, Repr

/-- `TgAiPrivateReply`. -/
structure AiPrivateReply where
  tenantId : ℕ
  projectId : ℕ
  accountId : ℕ
  enabled : Bool := true
  replyText : Option String := none
  replyCooldownMin : ℤ := 60
  forwardChatId : Option ℤ := none
  deleted : Bool := false
  deriving DecidableEq, Repr

structure AiCandidate extends ReplyCandidate where
  agentRunId : Option String := none
  deleted : Bool := false
  deriving DecidableEq, Repr

end TgPlatform
