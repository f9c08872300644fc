import TgPlatform.Ai.Groups

/-! # Personas, scripts and private replies

Templates of personas belong to a project, scripts to a group, and the
automatic answer to private messages to an account.
-/

namespace TgPlatform

/-- `AiPersonaParam`. -/
structure AiPersonaParam where
  tenantId : ℕ
  projectId : ℕ
  name : String
  roleName : Option String := none
  persona : String := ""
  talkativeness : ℤ := 30
  deriving DecidableEq, Repr

/-- `AiScriptParam`. -/
structure AiScriptParam where
  name : String
  lines : List ScriptLine
  intervalS : ℤ := 30
  rewrite : Bool := false
  deriving DecidableEq, Repr

/-- `AiPrivateReplyParam`. -/
structure AiPrivateReplyParam where
  enabled : Bool := true
  replyText : Option String := none
  replyCooldownMin : ℤ := 60
  forwardChatId : Option ℤ := none
  deriving DecidableEq, Repr

namespace ControlPlane

variable (s : ControlPlane)

/-- `ai_persona_dao.get_all`. -/
def personasOf (tenantId projectId : Option ℕ) : List (ℕ × AiPersona) :=
  s.personas.where_ fun p =>
    !p.deleted && matchesParam tenantId p.tenantId && matchesParam projectId p.projectId

def persona (pk : ℕ) : Option AiPersona := (s.personas.row? pk).filter fun p => !p.deleted

/-- `ai_script_dao.get_all`. -/
def scriptsOf (groupId : GroupId) : List (ℕ × AiScript) :=
  s.scripts.where_ fun x => x.groupId = groupId && !x.deleted

def script (pk : ℕ) : Option AiScript := (s.scripts.row? pk).filter fun x => !x.deleted

/-- `ai_private_reply_dao.get_all`. -/
def privateRepliesOf (tenantId projectId accountId : Option ℕ) : List (ℕ × AiPrivateReply) :=
  s.privateReplies.where_ fun p => !p.deleted && matchesParam tenantId p.tenantId &&
    matchesParam projectId p.projectId && matchesParam accountId p.accountId

def updatePersonaRow (pk : ℕ) (f : AiPersona → AiPersona) : ControlPlane :=
  { s with personas := s.personas.modify pk f }

def updateScriptRow (pk : ℕ) (f : AiScript → AiScript) : ControlPlane :=
  { s with scripts := s.scripts.modify pk f }

def updatePrivateRow (pk : ℕ) (f : AiPrivateReply → AiPrivateReply) : ControlPlane :=
  { s with privateReplies := s.privateReplies.modify pk f }

end ControlPlane

variable (out : Outside) (caller : Caller)

/-! ## Personas -/

def AiPersonaParam.row (obj : AiPersonaParam) : AiPersona where
  tenantId := obj.tenantId
  projectId := obj.projectId
  name := obj.name
  roleName := obj.roleName
  persona := obj.persona
  talkativeness := obj.talkativeness

/-- `list_personas`. -/
def listPersonas (tenantId projectId : Option ℕ) : Req (List (ℕ × AiPersona)) := do
  let scopes ← Txn.read fun s => s.dir.scopes caller.id
  Txn.read fun s => (s.personasOf tenantId projectId).filter fun p =>
    allowsScope caller scopes (p.2.tenantId, p.2.projectId)

/-- `save_persona`. -/
def savePersona (obj : AiPersonaParam) (pk : Option ℕ) : Req (ℕ × AiPersona) := do
  checkScope caller obj.tenantId obj.projectId
  match pk with
  | none =>
    let pk ← Txn.read fun s => s.personas.size
    Txn.write fun s => { s with personas := s.personas.add obj.row }
    Txn.ret (pk, obj.row)
  | some pk =>
    let p ← Txn.read fun s => (s.persona pk).filter fun p =>
      (p.tenantId, p.projectId) = (obj.tenantId, obj.projectId)
    let _ ← orRefuse .notFound "人设模板不存在" p
    Txn.write fun s => s.updatePersonaRow pk fun _ => obj.row
    Txn.ret (pk, obj.row)

/-- `delete_persona`. -/
def deletePersona (pk : ℕ) : Req Unit := do
  let p ← Txn.read fun s => s.persona pk
  let p ← orRefuse .notFound "人设模板不存在" p
  checkScope caller p.tenantId p.projectId
  Txn.write fun s => { s with personas := s.personas.remove pk }

/-! ## Scripts -/

/-- `list_scripts`. -/
def listScripts (pk : GroupId) : Req (List (ℕ × AiScript)) := do
  let _ ← getGroup caller pk
  Txn.read fun s => s.scriptsOf pk

/-- `_check_lines`. -/
def checkLines (pk : GroupId) (group : AiGroup) (obj : AiScriptParam) : Req Unit := do
  let members ← Txn.read fun s => s.members pk group
  if obj.lines.all fun line => line.memberId ∈ members.map Prod.fst then Txn.ret ()
  else refuse .request "剧本里有不属于本群的成员"

/-- `_script`. -/
def getScript (pk : GroupId) (scriptId : ℕ) : Req AiScript := do
  let x ← Txn.read fun s => (s.script scriptId).filter fun x => x.groupId = pk
  orRefuse .notFound "剧本不存在" x

def AiScriptParam.row (obj : AiScriptParam) (pk : GroupId) (group : AiGroup) : AiScript where
  tenantId := group.tenantId
  projectId := group.projectId
  groupId := pk
  name := obj.name
  lines := obj.lines
  intervalS := obj.intervalS
  rewrite := obj.rewrite

/-- `save_script`. -/
def saveScript (pk : GroupId) (obj : AiScriptParam) (scriptId : Option ℕ) : Req (ℕ × AiScript) := do
  let group ← getGroup caller pk
  checkLines pk group obj
  match scriptId with
  | none =>
    let scriptId ← Txn.read fun s => s.scripts.size
    Txn.write fun s => { s with scripts := s.scripts.add (obj.row pk group) }
    Txn.ret (scriptId, obj.row pk group)
  | some scriptId =>
    let x ← getScript pk scriptId
    if x.status = .running then refuse .request "剧本正在播放,先停止再修改"
    else
      let updated := { x with
        name := obj.name, lines := obj.lines, intervalS := obj.intervalS, rewrite := obj.rewrite }
      Txn.write fun s => s.updateScriptRow scriptId fun _ => updated
      Txn.ret (scriptId, updated)

/-- `delete_script`. -/
def deleteScript (pk : GroupId) (scriptId : ℕ) : Req Unit := do
  let _ ← getGroup caller pk
  let _ ← getScript pk scriptId
  Txn.write fun s => { s with scripts := s.scripts.remove scriptId }

/-- `start_script`. -/
def startScript (pk : GroupId) (scriptId : ℕ) : Req Unit := do
  let group ← getGroup caller pk
  if group.status ≠ "active" then refuse .request "任务未运行,先启动再播放剧本"
  else
    let _ ← getScript pk scriptId
    Txn.write fun s => s.updateScriptRow scriptId fun x => { x with
      status := .running, runToken := some (out.uuid 0), cursor := 0 }

/-- `stop_script`. -/
def stopScript (pk : GroupId) (scriptId : ℕ) : Req Unit := do
  let _ ← getGroup caller pk
  let _ ← getScript pk scriptId
  Txn.write fun s => s.updateScriptRow scriptId fun x => { x with status := .idle, runToken := none }

/-! ## Private replies -/

/-- `list_private`. -/
def listPrivate (tenantId projectId : Option ℕ) : Req (List (ℕ × AiPrivateReply)) := do
  let scopes ← Txn.read fun s => s.dir.scopes caller.id
  Txn.read fun s => (s.privateRepliesOf tenantId projectId none).filter fun p =>
    allowsScope caller scopes (p.2.tenantId, p.2.projectId)

def AiPrivateReplyParam.apply (obj : AiPrivateReplyParam) (p : AiPrivateReply) : AiPrivateReply :=
  { p with
    enabled := obj.enabled
    replyText := obj.replyText
    replyCooldownMin := obj.replyCooldownMin
    forwardChatId := obj.forwardChatId }

/-- `save_private`. -/
def savePrivate (accountId : ℕ) (obj : AiPrivateReplyParam) : Req (ℕ × AiPrivateReply) := do
  let account ← Txn.read fun s => s.dir.account accountId
  let account ← orRefuse .notFound "账号不存在" account
  checkScope caller account.tenantId account.projectId
  let cur ← Txn.read fun s => (s.privateRepliesOf none none (some accountId)).head?
  match cur with
  | some (pk, p) =>
    Txn.write fun s => s.updatePrivateRow pk fun _ => obj.apply p
    Txn.ret (pk, obj.apply p)
  | none =>
    let taken ← Txn.read fun s => s.privateReplies.first? fun p => p.accountId = accountId
    if taken.isSome then crash "IntegrityError"
    else
      let pk ← Txn.read fun s => s.privateReplies.size
      let row := obj.apply {
        tenantId := account.tenantId, projectId := account.projectId, accountId }
      Txn.write fun s => { s with privateReplies := s.privateReplies.add row }
      Txn.ret (pk, row)

end TgPlatform
