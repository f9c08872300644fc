import TgPlatform.Control.Views

/-! # Requests among a user's own rows

For each request, the rows that its handler reaches without a test of their
scope. They have to be the user's own for the answer to come from these alone.
-/

namespace TgPlatform

namespace ControlPlane

variable (s : ControlPlane) (u : UserId) (out : Outside)

/-- The runs of the bindings that are counted are the user's, with their conversations. -/
def RunsOwned (ids : List BindingId) (counted : AiRun → Bool) : Prop :=
  ∀ x ∈ s.runsOfBindings ids, counted x.2.1 = true →
    s.mine u x.2.1.scope = true ∧
      ∀ c ∈ s.conversations.row? x.2.1.conversationId, s.mine u c.scope = true

/-- A run that `_detail` counts as a reply of the day. -/
def repliesSince (dayStart : Time) (r : AiRun) : Bool :=
  r.status = .completed && dayStart ≤ r.createdTime

def DetailOwned (dayStart : Time) (pk : GroupId) (g : AiGroup) : Prop :=
  s.RunsOwned u ((s.members pk g).map Prod.fst) (repliesSince dayStart) ∧
    ∀ x ∈ s.pendingCandidates g ((s.members pk g).map fun b => b.2.accountId),
      s.mine u x.2.scope = true

/-- The session of the conversation that a trigger continues or opens. -/
def triggerSession (obj : AiTrigger) (b : AiBinding) : String :=
  ((s.conversationByScope b obj (s.currentEpoch b obj)).map Prod.snd).getD
    (obj.conversation out b (s.currentEpoch b obj)) |>.sessionId

def activeRuns (sessionId : String) : List (RunId × AiRun) :=
  s.runs.where_ fun r => r.sessionId = sessionId && r.status.active && !r.deleted

/-- The bindings that point to a group, of any project. -/
def pointingTo (groupId : GroupId) : List (BindingId × AiBinding) :=
  s.bindings.where_ fun b => b.groupId = some groupId && !b.deleted

/-- What the engine reads for a run of the binding is the user's: its group with all that point to
it and their accounts, its own account, and a job that already has the key of the new one. -/
def EngineOwned (b : AiBinding) : Prop :=
  (∀ gid ∈ b.groupId, ∀ g ∈ s.group gid, s.mine u g.scope = true ∧
    ∀ x ∈ s.pointingTo gid, s.mine u x.2.scope = true ∧
      ∀ a ∈ s.accountRow x.2.accountId, s.mine u a.scope = true) ∧
  (∀ a ∈ s.accountRow b.accountId, s.mine u a.scope = true) ∧
  ∀ x ∈ s.jobs.where_ fun job => job.idempotencyKey = s!"approval:{out.uuid 6}",
    s.mineJob u x.2 = true

/-- The binding that a trigger names is the user's, and so is what the run is started with. -/
def TriggerOwned (obj : AiTrigger) (defer : Bool) : Prop :=
  ∀ b ∈ s.binding obj.bindingId, b.status = "active" → s.mine u b.scope = true ∧
    (∀ x ∈ s.activeRuns (s.triggerSession out obj b), s.mine u x.2.scope = true) ∧
    (defer = false → b.engine = "openai" → s.EngineOwned u out b)

def ResolverOwned (accountId : ℕ) (value : Option String) : Prop :=
  ∀ ref ∈ value.map strip, ref ≠ "" → out.isNumeric ref = false →
    ∀ a ∈ s.dir.account accountId, s.mine u a.scope = true

/-- The named group is the user's, and `P` holds of it. -/
def GroupOwned (pk : GroupId) (P : AiGroup → Prop) : Prop :=
  ∀ g ∈ s.group pk, s.mine u g.scope = true ∧ P g

def MemberOwned (pk : GroupId) (memberId : BindingId) : Prop :=
  ∀ b ∈ s.binding memberId, b.groupId = some pk → s.mine u b.scope = true

def ScriptOwned (pk : GroupId) (scriptId : ℕ) : Prop :=
  ∀ x ∈ s.script scriptId, x.groupId = pk → s.mine u x.scope = true

/-- The accounts behind the members are the user's. -/
def AccountsOwned (pk : GroupId) (g : AiGroup) : Prop :=
  ∀ x ∈ s.members pk g, ∀ a ∈ s.accountRow x.2.accountId, s.mine u a.scope = true

/-- A run that `_member_stats` counts. -/
def recentRun (g : AiGroup) (now : Time) (r : AiRun) : Bool :=
  r.status ≠ .cancelled && r.status ≠ .failed &&
    now - seconds (max 3600 g.accountCooldownS) ≤ r.createdTime

/-- What warming up reads of the members is the user's. -/
def WarmupOwned (pk : GroupId) (g : AiGroup) : Prop :=
  s.AccountsOwned u pk g ∧ ∀ x ∈ s.members pk g,
    s.RunsOwned u [x.1] (recentRun g out.now) ∧
      s.TriggerOwned u out (g.speech x.1 "warmup") true

/-- What `group_runs` shows of the members is the user's. -/
def GroupRunsOwned (pk : GroupId) (g : AiGroup) : Prop :=
  s.AccountsOwned u pk g ∧
    s.RunsOwned u ((s.members pk g).map Prod.fst) (fun r => !r.deleted) ∧
    ∀ x ∈ s.latestRuns (s.members pk g), ∀ cid ∈ x.2.1.candidateId,
      ∀ c ∈ s.candidates.row? cid, s.mine u c.scope = true

/-- The rows that a request reaches without a test are the user's. -/
def Owned : AiRequest → Prop
  | .getBindings tenantId projectId =>
    ∀ x ∈ s.bindingsOf tenantId projectId, s.mine u x.2.scope = true
  | .createBinding obj => s.mine u (obj.tenantId, obj.projectId) = true ∧
    s.ResolverOwned u out obj.accountId obj.chatId
  | .updateBinding pk obj => ∀ b ∈ s.binding pk, s.mine u b.scope = true ∧
    s.ResolverOwned u out (obj.resolver b) obj.chatId.value
  | .setAutoApprove tenantId projectId _ =>
    ∀ x ∈ s.bindingsOf (some tenantId) (some projectId), s.mine u x.2.scope = true
  | .deleteBinding pk => ∀ b ∈ s.binding pk, s.mine u b.scope = true
  | .getConversations tenantId projectId =>
    ∀ x ∈ s.conversationsOf tenantId projectId, s.mine u x.2.scope = true
  | .getRuns tenantId projectId status =>
    ∀ x ∈ s.runsOf tenantId projectId status, s.mine u x.2.scope = true
  | .triggerRun obj => s.TriggerOwned u out obj false
  | .cancelRun pk => ∀ r ∈ s.run pk, s.mine u r.scope = true ∧ (r.status.active = true →
    ∀ c ∈ s.conversations.row? r.conversationId, s.mine u c.scope = true)
  | .getGroups tenantId projectId => ∀ x ∈ s.groupsOf tenantId projectId,
    s.mine u x.2.scope = true → s.DetailOwned u out.dayStart x.1 x.2
  | .createGroup obj => ∀ x ∈ s.bindingsOf (some obj.tenantId) (some obj.projectId),
    x.2.groupId ≠ some s.groups.size
  | .updateGroup pk _ => s.GroupOwned u pk (s.DetailOwned u out.dayStart pk)
  | .deleteGroup pk => s.GroupOwned u pk fun _ => ∀ x ∈ s.scriptsOf pk, s.mine u x.2.scope = true
  | .getGroupMessages pk | .addMember pk _ | .createScript pk _ => s.GroupOwned u pk fun _ => True
  | .getGroupRuns pk => s.GroupOwned u pk (s.GroupRunsOwned u pk)
  | .warmupGroup pk => s.GroupOwned u pk fun g => g.status = "active" → s.WarmupOwned u out pk g
  | .getMembers pk => s.GroupOwned u pk (s.AccountsOwned u pk)
  | .updateMember pk memberId _ | .deleteMember pk memberId =>
    s.GroupOwned u pk fun _ => s.MemberOwned u pk memberId
  | .getScripts pk => s.GroupOwned u pk fun _ => ∀ x ∈ s.scriptsOf pk, s.mine u x.2.scope = true
  | .updateScript pk scriptId _ | .deleteScript pk scriptId | .startScript pk scriptId
  | .stopScript pk scriptId => s.GroupOwned u pk fun _ => s.ScriptOwned u pk scriptId
  | .getPersonas _ _ | .createPersona _ | .updatePersona _ _ | .getPrivateReplies _ _ => True
  | .deletePersona pk => ∀ p ∈ s.persona pk, s.mine u p.scope = true
  | .savePrivateReply accountId _ => ∀ a ∈ s.dir.account accountId, s.mine u a.scope = true ∧
    ∀ x ∈ s.privateReplies.where_ fun p => p.accountId = accountId, s.mine u x.2.scope = true

end ControlPlane

end TgPlatform
