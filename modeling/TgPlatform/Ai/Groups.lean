import TgPlatform.Ai.Trigger

/-! # Groups and their members

A group is a chat with a theme and a pace, its members are bindings that point
to it. Every request looks the group up and tests the caller's membership in
its project first.
-/

namespace TgPlatform

/-- `_GroupFields`. -/
structure GroupFields where
  name : Patch String := .keep
  theme : Patch String := .keep
  baseUrl : Patch String := .keep
  providerModel : Patch String := .keep
  providerKey : Option String := none
  replyMin : Patch ℤ := .keep
  replyMax : Patch ℤ := .keep
  accountCooldownS : Patch ℤ := .keep
  accountHourlyMax : Patch ℤ := .keep
  staleMaxMessages : Patch ℤ := .keep
  contextMaxMessages : Patch ℤ := .keep
  botChainMax : Patch ℤ := .keep
  activeStartHour : Patch ℤ := .keep
  activeEndHour : Patch ℤ := .keep
  mentionBypassHours : Patch Bool := .keep
  idleWarmupMin : Patch ℤ := .keep
  quoteProb : Patch ℤ := .keep
  punctSpaceProb : Patch ℤ := .keep
  blockedWords : Patch (List String) := .keep
  maxReplyChars : Patch ℤ := .keep
  autoApprove : Patch Bool := .keep
  status : Patch String := .keep
  remark : Patch String := .keep
  deriving DecidableEq, Repr

/-- `CreateAiGroupParam`. -/
structure CreateAiGroup where
  tenantId : ℕ
  projectId : ℕ
  name : String
  chat : String
  topicId : Option ℤ := none
  joinAccountId : Option ℕ := none
  fields : GroupFields := {}
  deriving DecidableEq, Repr

/-- `AiMemberParam`. -/
structure AiMember where
  accountId : Option ℕ := none
  roleName : Patch String := .keep
  persona : Patch String := .keep
  talkativeness : Option ℤ := none
  replyDelayS : Patch ℤ := .keep
  providerModel : Patch String := .keep
  providerKey : Option String := none
  baseUrl : Patch String := .keep
  status : Patch String := .keep
  deriving DecidableEq, Repr

/-- `GetAiGroupDetail`. -/
structure GroupDetail where
  id : GroupId
  group : AiGroup
  memberCount : ℕ
  activeMemberCount : ℕ
  todayReplies : ℕ
  pendingApprovals : ℕ

/-- `GetAiMemberDetail`. -/
structure MemberDetail where
  id : BindingId
  binding : AiBinding
  accountLabel : String
  accountRunning : Bool

/-- `GetAiGroupRunDetail`. -/
structure GroupRun where
  id : RunId
  createdTime : Time
  status : RunStatus
  mode : Json
  memberId : BindingId
  roleName : Option String
  accountLabel : String
  triggerText : String
  triggerSender : Json
  content : Option String
  candidateStatus : Option ReviewStatus
  lastError : Option String
  model : Json

/-- What `_member_stats` counts of a member's runs. -/
structure MemberStat where
  lastAt : Time
  hourN : ℕ
  activeN : ℕ
  deriving DecidableEq, Repr

/-- `x or None` of a topic. -/
def topicOrNone (topicId : Option ℤ) : Option ℤ := topicId.filter fun t => t ≠ 0

def seconds (n : ℤ) : Time := n * 1000000

/-- `DEAD_MEMBER_STATES`. -/
def deadMemberStates : List String := ["not_in_group", "muted", "banned", "session_dead", "frozen"]

namespace ControlPlane

variable (s : ControlPlane)

/-- `ai_group_dao.get_all`. -/
def groupsOf (tenantId projectId : Option ℕ) : List (GroupId × AiGroup) :=
  s.groups.where_ fun g =>
    !g.deleted && matchesParam tenantId g.tenantId && matchesParam projectId g.projectId

/-- `_members`. -/
def members (pk : GroupId) (group : AiGroup) : List (BindingId × AiBinding) :=
  (s.bindingsOf (some group.tenantId) (some group.projectId)).filter fun b =>
    b.2.groupId = some pk

def runsOfBindings (ids : List BindingId) : List (RunId × AiRun × BindingId) :=
  s.runs.all.filterMap fun r =>
    (s.conversations.row? r.2.conversationId).bind fun c =>
      if c.bindingId ∈ ids then some (r.1, r.2, c.bindingId) else none

/-- The candidates that wait for a decision in the group's chat. -/
def pendingCandidates (group : AiGroup) (accounts : List ℕ) : List (CandidateId × AiCandidate) :=
  s.candidates.where_ fun c =>
    c.tenantId = group.tenantId && c.targetChatId = group.chatId && c.accountId ∈ accounts &&
      c.status = .pending && !c.deleted

/-- `_detail`. -/
def groupDetail (dayStart : Time) (pk : GroupId) (group : AiGroup) : GroupDetail :=
  let members := s.members pk group
  let completed := (s.runsOfBindings (members.map Prod.fst)).filter fun r =>
    r.2.1.status = .completed && dayStart ≤ r.2.1.createdTime
  { id := pk, group
    memberCount := members.length
    activeMemberCount := (members.filter fun b => b.2.status = "active").length
    todayReplies := completed.length
    pendingApprovals := (s.pendingCandidates group (members.map fun b => b.2.accountId)).length }

/-- The account behind an id, deleted or not. -/
def accountRow (pk : ℕ) : Option TelegramAccount := s.dir.accounts.find? fun a => a.id = pk

/-- The row of `_member_stats` for a member. -/
def memberStat (group : AiGroup) (now : Time) (b : BindingId) : Option MemberStat :=
  let since := now - seconds (max 3600 group.accountCooldownS)
  let runs := ((s.runsOfBindings [b]).map fun r => r.2.1).filter fun r =>
    r.status ≠ .cancelled && r.status ≠ .failed && since ≤ r.createdTime
  (runs.map AiRun.createdTime).max?.map fun lastAt =>
    { lastAt
      hourN := (runs.filter fun r => now - seconds 3600 ≤ r.createdTime).length
      activeN := (runs.filter fun r => r.status.active).length }

def updateGroupRow (pk : GroupId) (f : AiGroup → AiGroup) : ControlPlane :=
  { s with groups := s.groups.modify pk f }

end ControlPlane

/-- `_speaker_blocked`. -/
def speakerBlocked (stat : Option MemberStat) (group : AiGroup) (now : Time) : Bool :=
  match stat with
  | none => false
  | some st =>
    st.activeN ≠ 0 ||
      (group.accountCooldownS ≠ 0 && now - seconds group.accountCooldownS < st.lastAt) ||
      (group.accountHourlyMax ≠ 0 && group.accountHourlyMax ≤ st.hourN)

/-- `_cst_hour`. -/
def cstHour (now : Time) : ℤ := (now / (3600 * 1000000) + 8) % 24

/-- `in_active_hours`. -/
def inActiveHours (group : AiGroup) (now : Time) : Bool :=
  let start := group.activeStartHour
  let stop := group.activeEndHour
  let h := cstHour now
  if start = stop then true
  else if start < stop then start ≤ h && h < stop
  else start ≤ h || h < stop

variable (out : Outside) (caller : Caller)

/-- `_group_fields`, put into a row. -/
def GroupFields.apply (f : GroupFields) (g : AiGroup) : AiGroup where
  tenantId := g.tenantId
  projectId := g.projectId
  name := f.name.getD g.name
  chatId := g.chatId
  chatRef := g.chatRef
  topicId := g.topicId
  theme := f.theme.optional g.theme
  baseUrl := f.baseUrl.getD g.baseUrl
  providerModel := f.providerModel.optional g.providerModel
  providerKeyEnc := encrypted out f.providerKey g.providerKeyEnc
  status := f.status.getD g.status
  replyMin := f.replyMin.getD g.replyMin
  replyMax := f.replyMax.getD g.replyMax
  accountCooldownS := f.accountCooldownS.getD g.accountCooldownS
  accountHourlyMax := f.accountHourlyMax.getD g.accountHourlyMax
  staleMaxMessages := f.staleMaxMessages.getD g.staleMaxMessages
  contextMaxMessages := f.contextMaxMessages.getD g.contextMaxMessages
  botChainMax := f.botChainMax.getD g.botChainMax
  activeStartHour := f.activeStartHour.getD g.activeStartHour
  activeEndHour := f.activeEndHour.getD g.activeEndHour
  mentionBypassHours := f.mentionBypassHours.getD g.mentionBypassHours
  idleWarmupMin := f.idleWarmupMin.getD g.idleWarmupMin
  quoteProb := f.quoteProb.getD g.quoteProb
  punctSpaceProb := f.punctSpaceProb.getD g.punctSpaceProb
  blockedWords := match f.blockedWords with
    | .set words => (words.map strip).filter fun w => w ≠ ""
    | _ => g.blockedWords
  maxReplyChars := f.maxReplyChars.getD g.maxReplyChars
  autoApprove := f.autoApprove.getD g.autoApprove
  recentMessages := g.recentMessages
  lastMessageAt := g.lastMessageAt
  lastRealMessageAt := g.lastRealMessageAt
  lastWarmupAt := g.lastWarmupAt
  remark := f.remark.optional g.remark
  createdTime := g.createdTime
  deleted := g.deleted

/-- `get_group`. -/
def getGroup (pk : GroupId) : Req AiGroup := do
  let group ← Txn.read fun s => s.group pk
  let group ← orRefuse .notFound "炒群任务不存在" group
  checkScope caller group.tenantId group.projectId
  Txn.ret group

/-- `_scopes`, as a test. -/
def allowsScope (scopes : List Scope) (scope : Scope) : Bool := caller.isSuperuser || scope ∈ scopes

/-- `list_groups`. -/
def listGroups (tenantId projectId : Option ℕ) : Req (List GroupDetail) := do
  let scopes ← Txn.read fun s => s.dir.scopes caller.id
  let groups ← Txn.read fun s => (s.groupsOf tenantId projectId).filter fun g =>
    allowsScope caller scopes (g.2.tenantId, g.2.projectId)
  Txn.read fun s => groups.map fun g => s.groupDetail out.dayStart g.1 g.2

/-- `_resolve_chat`. -/
def resolveChat (tenantId projectId : ℕ) (chat : String) (accountId : Option ℕ) :
    Req (ℤ × Option String) :=
  let ref := strip chat
  match accountId with
  | none =>
    if out.isNumeric ref then do
      let chatId ← orCrash "ValueError" (out.python.parseInt ref)
      Txn.ret (chatId, none)
    else refuse .request "填链接时需要选一个成员账号用于解析/进群"
  | some accountId => do
    let account ← Txn.read fun s => s.dir.accountByScope tenantId projectId accountId
    let account ← orRefuse .notFound "账号不存在" account
    let results ← out.joinChatRefs 0 (tenantId, projectId) account [ref]
    let chatId ← Outside.resolveOrRaise results "群" ref
    Txn.ret (chatId, if out.isNumeric ref then none else some ref)

/-- `create_group`. -/
def createGroup (obj : CreateAiGroup) : Req GroupDetail := do
  checkScope caller obj.tenantId obj.projectId
  let (chatId, chatRef) ← resolveChat out obj.tenantId obj.projectId obj.chat obj.joinAccountId
  let exists_ ← Txn.read fun s => s.groupsOf (some obj.tenantId) (some obj.projectId)
  if exists_.any fun g => g.2.chatId = chatId && topicOrNone g.2.topicId = topicOrNone obj.topicId then
    refuse .conflict "该群(话题)已有炒群任务"
  else
    let group := ({ obj.fields with name := .keep } : GroupFields).apply out {
      tenantId := obj.tenantId, projectId := obj.projectId, name := obj.name, chatId, chatRef
      topicId := obj.topicId, createdTime := out.now }
    let pk ← Txn.read fun s => s.groups.size
    Txn.write fun s => { s with groups := s.groups.add group }
    Txn.read fun s => s.groupDetail out.dayStart pk group

/-- `update_group`. -/
def updateGroup (pk : GroupId) (obj : GroupFields) : Req GroupDetail := do
  let group ← getGroup caller pk
  if obj.replyMax.getD group.replyMax < obj.replyMin.getD group.replyMin then
    refuse .request "最多接话号数不能小于最少接话号数"
  else
    let updated := obj.apply out group
    Txn.write fun s => s.updateGroupRow pk fun _ => updated
    Txn.read fun s => s.groupDetail out.dayStart pk updated

/-- `delete_group`. -/
def deleteGroup (pk : GroupId) : Req Unit := do
  let group ← getGroup caller pk
  let members ← Txn.read fun s => s.members pk group
  Txn.each (fun b => Txn.write fun s => s.updateBindingRow b.1 AiBinding.removed) members
  let scripts ← Txn.read fun s => s.scripts.where_ fun x => x.groupId = pk && !x.deleted
  Txn.each (fun x => Txn.write fun s => { s with scripts := s.scripts.remove x.1 }) scripts
  Txn.write fun s => { s with groups := s.groups.remove pk }

/-- `get_group_messages`. -/
def getGroupMessages (pk : GroupId) : Req (List Json) := do
  let group ← getGroup caller pk
  Txn.ret (lastItems 100 group.recentMessages)

/-! ## Members -/

/-- `_account_label`. -/
def accountLabelOr (account : Option TelegramAccount) : String :=
  (account.map TelegramAccount.label).getD "-"

/-- `list_members`. -/
def listMembers (pk : GroupId) : Req (List MemberDetail) := do
  let group ← getGroup caller pk
  let members ← Txn.read fun s => s.members pk group
  let accounts ← Txn.read fun s => members.map fun b => s.accountRow b.2.accountId
  Txn.ret ((members.zip accounts).map fun x => {
    id := x.1.1
    binding := x.1.2
    accountLabel := accountLabelOr x.2
    accountRunning := x.2.any fun a => a.desiredStatus = "running" && !a.deleted })

/-- `_member_fields`, put into a row. -/
def AiMember.apply (obj : AiMember) (b : AiBinding) : Req AiBinding := do
  let replyDelayS ← obj.replyDelayS.required b.replyDelayS
  let baseUrl ← obj.baseUrl.required b.baseUrl
  let status ← obj.status.required b.status
  Txn.ret { b with
    replyDelayS, baseUrl, status
    roleName := obj.roleName.optional b.roleName
    persona := obj.persona.optional b.persona
    providerModel := obj.providerModel.optional b.providerModel
    randomProb := obj.talkativeness.getD b.randomProb
    speakPolicy := if obj.talkativeness.isSome then "random" else b.speakPolicy
    providerKeyEnc := encrypted out obj.providerKey b.providerKeyEnc }

def joinGroup (group : AiGroup) (account : TelegramAccount) : Req Unit :=
  match truthy group.chatRef with
  | none => Txn.ret ()
  | some ref => do
    let results ← out.joinChatRefs 0 (group.tenantId, group.projectId) account [ref]
    match results ref with
    | some (.ok _) => Txn.ret ()
    | some (.failed status) => refuse .request s!"账号进群失败:{joinErr status}"
    | none => refuse .request ("账号进群失败:" ++ joinErr "resolve_failed")

/-- `add_member`. -/
def addMember (pk : GroupId) (obj : AiMember) : Req Unit := do
  let group ← getGroup caller pk
  let accountId ← orRefuse .request "请选择账号" obj.accountId
  let account ← Txn.read fun s => s.dir.accountByScope group.tenantId group.projectId accountId
  let account ← orRefuse .notFound "账号不存在" account
  let members ← Txn.read fun s => s.members pk group
  if members.any fun b => b.2.accountId = accountId then
    refuse .conflict "该账号已是本群成员"
  else
    joinGroup out group account
    let binding ← obj.apply out {
      uuid := out.uuid 0, tenantId := group.tenantId, projectId := group.projectId
      accountId, engine := "openai", chatId := some group.chatId, topicId := group.topicId
      groupId := some pk, botUuid := "", baseUrl := "", inboundSecretRef := ""
      outboundSecretRef := "", speakPolicy := "random", randomProb := 30, status := "active" }
    Txn.write fun s => { s with bindings := s.bindings.add binding }

/-- `_member`. -/
def getMember (pk : GroupId) (memberId : BindingId) : Req AiBinding := do
  let _ ← getGroup caller pk
  let b ← Txn.read fun s => (s.binding memberId).filter fun b => b.groupId = some pk
  orRefuse .notFound "成员不存在" b

/-- `update_member`. -/
def updateMember (pk : GroupId) (memberId : BindingId) (obj : AiMember) : Req Unit := do
  let b ← getMember caller pk memberId
  let updated ← obj.apply out b
  Txn.write fun s => s.updateBindingRow memberId fun _ => updated

/-- `delete_member`. -/
def deleteMember (pk : GroupId) (memberId : BindingId) : Req Unit := do
  let _ ← getMember caller pk memberId
  Txn.write fun s => s.updateBindingRow memberId AiBinding.removed

namespace ControlPlane

/-- A run of a member as `group_runs` shows it. -/
def groupRun (s : ControlPlane) (py : Python) (members : List (BindingId × AiBinding)) (pk : RunId)
    (run : AiRun) (b : BindingId) : GroupRun :=
  let member := members.lookup b
  let candidate := run.candidateId.bind s.candidates.row?
  let src := run.triggerSource
  let text := if (src.field "script_line" .null).truthy then src.field "script_line" .null
    else src.field "text" .null
  { id := pk
    createdTime := run.createdTime
    status := run.status
    mode := src.field "mode" (.str "reply")
    memberId := b
    roleName := member.bind AiBinding.roleName
    accountLabel := accountLabelOr (member.bind fun b => s.accountRow b.accountId)
    triggerText := if text.truthy then String.ofList ((text.toStr py.repr).toList.take 300) else ""
    triggerSender := src.field "sender_name" .null
    content := candidate.map fun c => c.content
    candidateStatus := candidate.map fun c => c.status
    lastError := run.lastError
    model := run.usage.field "model" .null }

def latestRuns (s : ControlPlane) (members : List (BindingId × AiBinding)) :
    List (RunId × AiRun × BindingId) :=
  (((s.runsOfBindings (members.map Prod.fst)).filter fun r => !r.2.1.deleted).reverse).take 100

end ControlPlane

/-- `group_runs`. -/
def groupRuns (pk : GroupId) : Req (List GroupRun) := do
  let group ← getGroup caller pk
  let members ← Txn.read fun s => s.members pk group
  let rows ← Txn.read fun s => s.latestRuns members
  Txn.read fun s => rows.map fun r => s.groupRun out.python members r.1 r.2.1 r.2.2

/-! ## Warming up -/

/-- The errors that `_start_member_run` turns into an answer. -/
def Raised.skipsMember : Raised → Bool
  | .error ⟨.request, _⟩ | .error ⟨.conflict, _⟩ | .error ⟨.notFound, _⟩ => true
  | .error ⟨.forbidden, _⟩ => false
  | .uncaught exception => exception = "IntegrityError"

def AiGroup.speech (group : AiGroup) (b : BindingId) (mode : String) : AiTrigger where
  bindingId := b
  chatId := group.chatId
  topicId := group.topicId
  agentKey := some s!"binding:{b}"
  text := ""
  senderName := ""
  sourceRefs := some []
  contextMaxMessages := group.contextMaxMessages.toNat
  contextOverride := some []
  mode := mode

/-- `_start_member_run`. -/
def startMemberRun (group : AiGroup) (b : BindingId) (mode : String) : Req Bool :=
  Txn.attempt
    (do
      let _ ← trigger out (group.speech b mode) true
      Txn.ret true)
    Raised.skipsMember false

def ControlPlane.speakers (s : ControlPlane) (pk : GroupId) (group : AiGroup) (now : Time) :
    List (BindingId × AiBinding) :=
  (s.members pk group).filter fun b =>
    b.2.status = "active" &&
      (s.accountRow b.2.accountId).any (fun a => !a.deleted && a.desiredStatus = "running") &&
      (b.2.memberState.all fun state => state ∉ deadMemberStates) && 0 < b.2.randomProb &&
      !speakerBlocked (s.memberStat group now b.1) group now

def AiGroup.isIdle (group : AiGroup) (now : Time) : Bool :=
  let last := max (max (group.lastRealMessageAt.getD group.createdTime)
    (group.lastWarmupAt.getD group.createdTime)) group.createdTime
  inActiveHours group now && seconds (60 * group.idleWarmupMin) ≤ now - last

/-- `warmup_group`. -/
def warmupGroup (pk : GroupId) (group : AiGroup) (force : Bool) : Req Bool := do
  if !force && !group.isIdle out.now then Txn.ret false
  else
    let pool ← Txn.read fun s => s.speakers pk group out.now
    match pool[out.pick pool.length % pool.length]? with
    | none => Txn.ret false
    | some speaker =>
      Txn.write fun s => s.updateGroupRow pk fun g => { g with lastWarmupAt := some out.now }
      startMemberRun out group speaker.1 "warmup"

/-- `warmup_now`. -/
def warmupNow (pk : GroupId) : Req Bool := do
  let group ← getGroup caller pk
  if group.status ≠ "active" then refuse .request "任务未运行,先启动再暖场"
  else warmupGroup out pk group true

end TgPlatform
