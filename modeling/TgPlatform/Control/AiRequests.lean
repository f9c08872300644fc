import TgPlatform.Ai.Library

/-! # The AI requests of the control plane

One request for each route of the AI control surface. A committed request
leaves its state to the next one, a failed one is rolled back.
-/

namespace TgPlatform

inductive AiRequest
  | getBindings (tenantId projectId : Option ℕ)
  | createBinding (obj : CreateAiBinding)
  | updateBinding (pk : BindingId) (obj : UpdateAiBinding)
  | setAutoApprove (tenantId projectId : ℕ) (enabled : Bool)
  | deleteBinding (pk : BindingId)
  | getConversations (tenantId projectId : Option ℕ)
  | getRuns (tenantId projectId : Option ℕ) (status : Option RunStatus)
  | triggerRun (obj : AiTrigger)
  | cancelRun (pk : RunId)
  | getGroups (tenantId projectId : Option ℕ)
  | createGroup (obj : CreateAiGroup)
  | updateGroup (pk : GroupId) (obj : GroupFields)
  | deleteGroup (pk : GroupId)
  | getGroupMessages (pk : GroupId)
  | getGroupRuns (pk : GroupId)
  | warmupGroup (pk : GroupId)
  | getMembers (pk : GroupId)
  | addMember (pk : GroupId) (obj : AiMember)
  | updateMember (pk : GroupId) (memberId : BindingId) (obj : AiMember)
  | deleteMember (pk : GroupId) (memberId : BindingId)
  | getScripts (pk : GroupId)
  | createScript (pk : GroupId) (obj : AiScriptParam)
  | updateScript (pk : GroupId) (scriptId : ℕ) (obj : AiScriptParam)
  | deleteScript (pk : GroupId) (scriptId : ℕ)
  | startScript (pk : GroupId) (scriptId : ℕ)
  | stopScript (pk : GroupId) (scriptId : ℕ)
  | getPersonas (tenantId projectId : Option ℕ)
  | createPersona (obj : AiPersonaParam)
  | updatePersona (pk : ℕ) (obj : AiPersonaParam)
  | deletePersona (pk : ℕ)
  | getPrivateReplies (tenantId projectId : Option ℕ)
  | savePrivateReply (accountId : ℕ) (obj : AiPrivateReplyParam)

inductive AiAnswer
  | bindings (rows : List (BindingId × AiBinding))
  | binding (row : BindingId × AiBinding)
  | updated (n : ℕ) (enabled : Bool)
  | count (n : ℕ)
  | conversations (rows : List (ConversationId × AiConversation))
  | runs (rows : List (RunId × AiRun))
  | run (row : Option AiRun)
  | groups (rows : List GroupDetail)
  | group (row : GroupDetail)
  | messages (rows : List Json)
  | groupRuns (rows : List GroupRun)
  | started (ok : Bool)
  | members (rows : List MemberDetail)
  | scripts (rows : List (ℕ × AiScript))
  | script (row : ℕ × AiScript)
  | personas (rows : List (ℕ × AiPersona))
  | persona (row : ℕ × AiPersona)
  | privateReplies (rows : List (ℕ × AiPrivateReply))
  | privateReply (row : ℕ × AiPrivateReply)
  | success

def AiRequest.handle (out : Outside) (caller : Caller) : AiRequest → Req AiAnswer
  | getBindings tenantId projectId => (TgPlatform.getBindings tenantId projectId).map .bindings
  | createBinding obj => (TgPlatform.createBinding out obj).map .binding
  | updateBinding pk obj => (TgPlatform.updateBinding out pk obj).map .binding
  | setAutoApprove tenantId projectId enabled =>
    (TgPlatform.setAutoApprove tenantId projectId enabled).map fun r => .updated r.1 r.2
  | deleteBinding pk => (TgPlatform.deleteBinding pk).map .count
  | getConversations tenantId projectId =>
    (TgPlatform.getConversations tenantId projectId).map .conversations
  | getRuns tenantId projectId status => (TgPlatform.getRuns tenantId projectId status).map .runs
  | triggerRun obj => (trigger out obj false).map .run
  | cancelRun pk => (TgPlatform.cancelRun out pk).map .run
  | getGroups tenantId projectId => (listGroups out caller tenantId projectId).map .groups
  | createGroup obj => (TgPlatform.createGroup out caller obj).map .group
  | updateGroup pk obj => (TgPlatform.updateGroup out caller pk obj).map .group
  | deleteGroup pk => (TgPlatform.deleteGroup caller pk).map fun _ => .success
  | getGroupMessages pk => (TgPlatform.getGroupMessages caller pk).map .messages
  | getGroupRuns pk => (groupRuns out caller pk).map .groupRuns
  | warmupGroup pk => (warmupNow out caller pk).map .started
  | getMembers pk => (listMembers caller pk).map .members
  | addMember pk obj => (TgPlatform.addMember out caller pk obj).map fun _ => .success
  | updateMember pk memberId obj =>
    (TgPlatform.updateMember out caller pk memberId obj).map fun _ => .success
  | deleteMember pk memberId => (TgPlatform.deleteMember caller pk memberId).map fun _ => .success
  | getScripts pk => (listScripts caller pk).map .scripts
  | createScript pk obj => (saveScript caller pk obj none).map .script
  | updateScript pk scriptId obj => (saveScript caller pk obj (some scriptId)).map .script
  | deleteScript pk scriptId => (TgPlatform.deleteScript caller pk scriptId).map fun _ => .success
  | startScript pk scriptId => (TgPlatform.startScript out caller pk scriptId).map fun _ => .success
  | stopScript pk scriptId => (TgPlatform.stopScript caller pk scriptId).map fun _ => .success
  | getPersonas tenantId projectId => (listPersonas caller tenantId projectId).map .personas
  | createPersona obj => (savePersona caller obj none).map .persona
  | updatePersona pk obj => (savePersona caller obj (some pk)).map .persona
  | deletePersona pk => (TgPlatform.deletePersona caller pk).map fun _ => .success
  | getPrivateReplies tenantId projectId => (listPrivate caller tenantId projectId).map .privateReplies
  | savePrivateReply accountId obj => (savePrivate caller accountId obj).map .privateReply

end TgPlatform
