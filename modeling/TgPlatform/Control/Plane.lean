import TgPlatform.Ai.Rows
import TgPlatform.Lib.Txn
import TgPlatform.Rules.Rows

/-! # The control plane

The tables behind the requests of the control plane. A request is a
transaction on them that may drive the Telegram session of an account or spend
the key of a model provider.
-/

namespace TgPlatform

/-- What a request ends with instead of an answer: an error response or an uncaught exception. -/
inductive Raised
  | error (e : ApiError)
  | uncaught (exception : String)
  deriving DecidableEq, Repr

structure ControlPlane where
  dir : Directory
  bindings : Slots AiBinding
  conversations : Slots AiConversation
  runs : Slots AiRun
  callbacks : Slots AiCallback
  groups : Slots AiGroup
  personas : Slots AiPersona
  scripts : Slots AiScript
  privateReplies : Slots AiPrivateReply
  candidates : Slots AiCandidate
  approvals : Slots Approval
  jobs : Slots DeliveryJob
  rules : Slots CloneRule
  targets : Slots CloneTarget
  versions : Slots CloneRuleVersion
  commands : Slots IssuedCommand

/-- What a request does outside of the database, for rows of a scope: it drives the session of an
account, or it spends the model key that a row of scope `owner` carries. -/
inductive Use
  | session (account : TelegramAccount) (scope : Scope)
  | key (owner scope : Scope)
  deriving DecidableEq, Repr

abbrev Req (α : Type) : Type := Txn ControlPlane Use Raised α

/-- `raise errors…Error(msg=…)`. -/
def refuse {α : Type} (kind : ErrorKind) (msg : String) : Req α :=
  Txn.throw (.error ⟨kind, msg⟩)

/-- An exception that no handler expects. -/
def crash {α : Type} (exception : String) : Req α := Txn.throw (.uncaught exception)

/-- A value that must be there. -/
def orRefuse {α : Type} (kind : ErrorKind) (msg : String) : Option α → Req α
  | some a => Txn.ret a
  | none => refuse kind msg

def orCrash {α : Type} (exception : String) : Option α → Req α
  | some a => Txn.ret a
  | none => crash exception

/-- `_check_scope`. -/
def checkScope (caller : Caller) (tenantId projectId : ℕ) : Req Unit := do
  let scopes ← Txn.read fun s => s.dir.scopes caller.id
  if caller.isSuperuser || (tenantId, projectId) ∈ scopes then Txn.ret ()
  else refuse .forbidden "无该项目权限"

def matchesParam {α : Type} [DecidableEq α] (param : Option α) (a : α) : Bool :=
  param.all fun p => a = p

namespace ControlPlane

variable (s : ControlPlane)

def bindingByUuid (uuid : String) : Option (BindingId × AiBinding) :=
  s.bindings.first? fun b => b.uuid = uuid && !b.deleted

def binding (pk : BindingId) : Option AiBinding := (s.bindings.row? pk).filter fun b => !b.deleted

def conversation (pk : ConversationId) : Option AiConversation :=
  (s.conversations.row? pk).filter fun c => !c.deleted

def run (pk : RunId) : Option AiRun := (s.runs.row? pk).filter fun r => !r.deleted

def group (pk : GroupId) : Option AiGroup := (s.groups.row? pk).filter fun g => !g.deleted

def rule (pk : ℕ) : Option CloneRule := (s.rules.row? pk).filter fun r => !r.deleted

variable {s} {pk : ℕ}

theorem binding_eq_some {b : AiBinding} :
    s.binding pk = some b ↔ s.bindings.row? pk = some b ∧ b.deleted = false := by
  simp [binding, Option.filter_eq_some_iff]

theorem conversation_eq_some {c : AiConversation} :
    s.conversation pk = some c ↔ s.conversations.row? pk = some c ∧ c.deleted = false := by
  simp [conversation, Option.filter_eq_some_iff]

theorem rule_eq_some {r : CloneRule} :
    s.rule pk = some r ↔ s.rules.row? pk = some r ∧ r.deleted = false := by
  simp [rule, Option.filter_eq_some_iff]

theorem group_eq_some {g : AiGroup} :
    s.group pk = some g ↔ s.groups.row? pk = some g ∧ g.deleted = false := by
  simp [group, Option.filter_eq_some_iff]

variable (s)

def updateRun (pk : RunId) (f : AiRun → AiRun) : ControlPlane :=
  { s with runs := s.runs.modify pk f }

/-- `_unlock_conversation`. -/
def unlockConversation (pk : ConversationId) : ControlPlane :=
  { s with conversations := s.conversations.modify pk fun c => { c with status := .open_ } }

end ControlPlane

end TgPlatform
