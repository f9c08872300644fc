import Mathlib.Algebra.Group.Int.Defs
import Mathlib.Data.Int.Basic
import Mathlib.Data.List.Basic
import Mathlib.Tactic.DeriveFintype

/-! # Source events, rule snapshots and delivery plans

The planning types of the runtime. A source event is one inbound update as one
receiving account sees it; a rule snapshot is an immutable published rule
version; a delivery plan is one action on one route.
-/

namespace TgPlatform

/-- Account uuid: the key of leases, runners, events and jobs. -/
abbrev AccountId := String
abbrev WorkerId := String
abbrev RuleId := String
abbrev RouteId := String
abbrev TenantId := String
abbrev ProjectId := String

/-- Microseconds since the epoch, the resolution of the stored timestamps. -/
abbrev Time := ℤ

/-- Python's `o or d` on an optional string. -/
def orElse (o : Option String) (d : String) : String :=
  match o with
  | some s => if s = "" then d else s
  | none => d

inductive EventKind | create | edit | delete
  deriving DecidableEq, Repr

def EventKind.value : EventKind → String
  | .create => "create"
  | .edit => "edit"
  | .delete => "delete"

inductive CloneMode | copy | forward
  deriving DecidableEq, Repr

def CloneMode.value : CloneMode → String
  | .copy => "copy"
  | .forward => "forward"

inductive ApprovalPolicy | ruleAuthorized | messageReview
  deriving DecidableEq, Repr

/-- The identity of a source message: scope, chat and message id. -/
structure MessageKey where
  sourceScope : String
  sourceChatId : ℤ
  sourceMessageId : ℤ
  deriving DecidableEq, Repr

/-- One normalized inbound event bound to a single receiving account's view. -/
structure SourceEvent where
  kind : EventKind
  sourceScope : String
  sourceChatId : ℤ
  sourceMessageId : ℤ
  revision : ℤ
  accountId : AccountId
  groupedId : Option ℤ := none
  payloadRef : Option String := none
  payloadHash : Option String := none
  replyToSourceId : Option ℤ := none
  topicId : Option ℤ := none
  protected_ : Bool := false
  senderId : Option ℤ := none
  mediaKind : Option String := none
  senderIsBot : Bool := false
  deriving DecidableEq, Repr

def SourceEvent.message (e : SourceEvent) : MessageKey :=
  ⟨e.sourceScope, e.sourceChatId, e.sourceMessageId⟩

structure RouteTarget where
  routeId : RouteId
  targetChatId : ℤ
  targetTopicId : Option ℤ := none
  deriving DecidableEq, Repr

/-- The keys of a target's filter dict that the planner reads; an absent key is empty. -/
structure RouteFilter where
  senderUserIds : List ℤ := []
  blockedSenderIds : List ℤ := []
  mediaKinds : List String := []
  excludeBots : Bool := false
  deriving DecidableEq, Repr

structure RuleSnapshot where
  ruleId : RuleId
  version : ℤ
  accountId : AccountId
  sourceScope : String
  sourceChatId : ℤ
  sourceTopicId : Option ℤ
  targets : List RouteTarget
  mode : CloneMode
  syncEdit : Bool
  syncDelete : Bool
  approvalPolicy : ApprovalPolicy := .ruleAuthorized
  filters : List RouteFilter := []
  senderAccountIds : List AccountId := []
  transform : Bool := false
  deriving DecidableEq, Repr

inductive PlanKind | send | edit | delete | tombstone
  deriving DecidableEq, Repr

def PlanKind.value : PlanKind → String
  | .send => "send"
  | .edit => "edit"
  | .delete => "delete"
  | .tombstone => "tombstone"

structure DeliveryPlan where
  kind : PlanKind
  ruleId : RuleId
  ruleVersion : ℤ
  routeId : RouteId
  accountId : AccountId
  sourceScope : String
  sourceChatId : ℤ
  sourceMessageId : ℤ
  revision : ℤ
  targetChatId : ℤ
  targetTopicId : Option ℤ
  mode : CloneMode
  payloadRef : Option String
  payloadHash : Option String
  requiresApproval : Bool
  replyToTargetMessageId : Option ℤ := none
  groupedId : Option ℤ := none
  fetchAccountId : Option AccountId := none
  transform : Bool := false
  deriving DecidableEq, Repr

def DeliveryPlan.message (p : DeliveryPlan) : MessageKey :=
  ⟨p.sourceScope, p.sourceChatId, p.sourceMessageId⟩

def DeliveryPlan.idempotencyKey (p : DeliveryPlan) : String :=
  s!"{p.ruleId}:{p.routeId}:{p.sourceScope}:" ++
  s!"{p.sourceChatId}:{p.sourceMessageId}:{p.revision}:{p.kind.value}"

/-! ## Normalization -/

inductive ChatClass | broadcast | smallGroup | private_
  deriving DecidableEq, Repr

/-- A client update adapted to plain data at the worker boundary. -/
structure RawUpdate where
  kind : EventKind
  chatId : ℤ
  messageId : ℤ
  chatClass : ChatClass
  editDateTs : Option ℤ := none
  contentHash : Option String := none
  groupedId : Option ℤ := none
  replyToMessageId : Option ℤ := none
  topicId : Option ℤ := none
  protected_ : Bool := false
  payloadRef : Option String := none
  senderId : Option ℤ := none
  mediaKind : Option String := none
  senderIsBot : Bool := false
  deriving DecidableEq, Repr

def sourceScopeFor (chatClass : ChatClass) (chatId : ℤ) (accountId : AccountId) : String :=
  if chatClass = .broadcast then s!"peer:{chatId}" else s!"peer:{chatId}:acct:{accountId}"

theorem scopeSpellings_ne (chatId : ℤ) (accountId : AccountId) :
    s!"peer:{chatId}" ≠ s!"peer:{chatId}:acct:{accountId}" := by
  intro h
  have hlength := congrArg (fun s => s.toList.length) h
  have hacct : toString ":acct:" = "" := by
    simp [String.toList_append] at hlength
    exact hlength.1
  exact absurd hacct (by decide)

/-- `pyHash` is the value of `hash(raw.content_hash)` in the running process. -/
def eventRevision (kind : EventKind) (raw : RawUpdate) (pyHash : ℤ) : ℤ :=
  match kind with
  | .create => 1
  | .edit =>
    match raw.editDateTs with
    | some ts => ts
    | none => if orElse raw.contentHash "" ≠ "" then (pyHash.natAbs : ℤ) % 2 ^ 31 else 2
  | .delete => 2 ^ 31 - 1

def normalize (raw : RawUpdate) (accountId : AccountId) (pyHash : ℤ) : SourceEvent where
  kind := raw.kind
  sourceScope := sourceScopeFor raw.chatClass raw.chatId accountId
  sourceChatId := raw.chatId
  sourceMessageId := raw.messageId
  revision := eventRevision raw.kind raw pyHash
  accountId := accountId
  groupedId := raw.groupedId
  payloadRef := raw.payloadRef
  payloadHash := raw.contentHash
  replyToSourceId := raw.replyToMessageId
  topicId := raw.topicId
  protected_ := raw.protected_
  senderId := raw.senderId
  mediaKind := raw.mediaKind
  senderIsBot := raw.senderIsBot

end TgPlatform
