import TgPlatform.Ai.Deferred
import TgPlatform.Ai.Groups

/-! # Messages in a group

Every account in a group reports each message that it sees. The report locks the
group's row, drops what the cache already has, and lets members answer: as many
as the group's pace asks for, or one if the message is from an account of the
platform and the chain of such messages is not too long.
-/

namespace TgPlatform

/-- `AiGroupEventParam`. -/
structure AiGroupEvent where
  apiRowId : ℕ
  chatId : ℤ
  messageId : ℤ
  text : String
  senderId : Option ℤ := none
  senderName : String := "User"
  topicId : Option ℤ := none
  replyToMessageId : Option ℤ := none
  chatClass : Option String := none
  senderIsBot : Bool := false
  deriving DecidableEq, Repr

/-- What chance decides about a message, and what the outside answers while a member's run starts. -/
structure Dice where
  /-- `random.randint(1, 100)` for a member. -/
  roll : BindingId → ℤ
  /-- `random.shuffle`, of the first and of the second list. -/
  shuffle : ℕ → List (BindingId × AiBinding) → List (BindingId × AiBinding)
  shuffle_perm : ∀ i l, (shuffle i l).Perm l
  /-- `random.randint` within the group's pace. -/
  want : ℤ → ℤ → ℤ
  starting : BindingId → Outside

namespace ControlPlane

variable (s : ControlPlane)

/-- `_find_group`, up to the lock. -/
def findGroup (account : TelegramAccount) (obj : AiGroupEvent) : Option (GroupId × AiGroup) :=
  (s.groupsOf (some account.tenantId) (some account.projectId)).find? fun g =>
    chatMatch g.2.chatId obj.chatId && topicOrNone g.2.topicId = topicOrNone obj.topicId

/-- `_managed_user_ids`. -/
def managedUserIds (tenantId : ℕ) : List ℤ :=
  (s.dir.accounts.filter fun a => a.tenantId = tenantId && !a.deleted).filterMap
    TelegramAccount.telegramUserId

def senderAccounts (account : TelegramAccount) (senderId : ℤ) : List ℕ :=
  (s.dir.accounts.filter fun a => a.tenantId = account.tenantId && a.projectId = account.projectId &&
    a.telegramUserId = some senderId && !a.deleted).map TelegramAccount.id

def rulesSending (account : TelegramAccount) (sender : ℕ) : List ℕ :=
  (s.rules.where_ fun r => r.tenantId = account.tenantId && r.projectId = account.projectId &&
    !r.deleted && r.status = .published && r.enabled &&
    (if r.senderAccountIds = [] then sender = r.accountId else sender ∈ r.senderAccountIds)).map Prod.fst

def copiesInto (rules : List ℕ) (chatId : ℤ) : Bool :=
  (s.targets.first? fun t =>
    t.ruleId ∈ rules && t.targetChatId = chatId && t.status = .active && !t.deleted).isSome

end ControlPlane

/-- `_is_clone_sender`. -/
def isCloneSender (account : TelegramAccount) (obj : AiGroupEvent) (senderId : ℤ) : Req Bool := do
  match ← Txn.read fun s => s.senderAccounts account senderId with
  | [] => Txn.ret false
  | [sender] => Txn.read fun s => s.copiesInto (s.rulesSending account sender) obj.chatId
  | _ => crash "MultipleResultsFound"

inductive Author | ours | cloned | outside
  deriving DecidableEq, Repr

/-- An item that was copied here counts as such even if its sender is one of ours. -/
def authorOf (account : TelegramAccount) (obj : AiGroupEvent) : Req Author :=
  match obj.senderId with
  | none => Txn.ret .outside
  | some senderId => do
    let isOurs ← Txn.read fun s => decide (senderId ∈ s.managedUserIds account.tenantId)
    let cloned ← isCloneSender account obj senderId
    Txn.ret (if cloned then .cloned else if isOurs then .ours else .outside)

def AiGroup.has (group : AiGroup) (messageId : ℤ) : Bool :=
  group.recentMessages.any fun m => sameMid (m.field "mid" .null) (.int messageId)

def AiGroupEvent.entry (obj : AiGroupEvent) (author : Author) (now : Time) : Json :=
  .dict ([("sender", .str (if obj.senderName = "" then "User" else obj.senderName)),
    ("text", .str (String.ofList (obj.text.toList.take 500))), ("mid", .int obj.messageId),
    ("sid", (obj.senderId.map Json.int).getD .null), ("ours", .bool (author = .ours)),
    ("ts", .int (now / 1000000))] ++ if author = .cloned then [("cloned", .bool true)] else [])

/-- `_record_group_message`, for a message that is not in the cache. -/
def AiGroup.record (group : AiGroup) (entry : Json) (author : Author) (now : Time) : AiGroup :=
  { group with
    recentMessages := lastItems 100 (group.recentMessages ++ [entry])
    lastMessageAt := some now
    lastRealMessageAt := if author = .cloned then group.lastRealMessageAt else some now }

/-- The number of messages of ours at the end of a cache. -/
def chainLength (recent : List Json) : ℕ :=
  (recent.reverse.takeWhile fun m => (m.field "ours" .null).truthy).length

/-- `_chain_allowed`. -/
def chainAllowed (group : AiGroup) (recent : List Json) : Bool :=
  group.botChainMax ≠ 0 && chainLength recent ≤ group.botChainMax

def AiGroupEvent.repliedSid (obj : AiGroupEvent) (recent : List Json) : Json :=
  match obj.replyToMessageId.filter fun mid => mid ≠ 0 with
  | none => .null
  | some mid =>
    ((recent.find? fun m => sameMid (m.field "mid" .null) (.int mid)).map fun m =>
      m.field "sid" .null).getD .null

def isCalled (out : Outside) (obj : AiGroupEvent) (recent : List Json) (account : TelegramAccount) :
    Bool :=
  let named := (truthy account.username).any fun username =>
    (out.lower ("@" ++ username)).toList <:+: (out.lower obj.text).toList
  let replied := match obj.repliedSid recent, account.telegramUserId with
    | .int sid, some uid => sid = uid
    | _, _ => false
  named || replied

/-- The members that may answer, with their accounts. -/
def ControlPlane.audience (s : ControlPlane) (group : AiGroup) (members : List (BindingId × AiBinding))
    (obj : AiGroupEvent) (isOurs : Bool) (now : Time) :
    List ((BindingId × AiBinding) × TelegramAccount) :=
  members.filterMap fun b =>
    ((s.accountRow b.2.accountId).filter fun a =>
      !a.deleted && a.desiredStatus = "running" && !(isOurs && a.telegramUserId = obj.senderId) &&
        (b.2.memberState.all fun state => state ∉ deadMemberStates) &&
        !speakerBlocked (s.memberStat group now b.1) group now).map fun a => (b, a)

/-- `_pick_speakers`. -/
def pickSpeakers (out : Outside) (dice : Dice) (s : ControlPlane) (group : AiGroup)
    (members : List (BindingId × AiBinding)) (obj : AiGroupEvent) (recent : List Json) (isOurs : Bool) :
    List (BindingId × AiBinding) :=
  let audience := s.audience group members obj isOurs out.now
  let forced := (audience.filter fun x => isCalled out obj recent x.2).map Prod.fst
  let willing := (audience.filter fun x =>
    !isCalled out obj recent x.2 && 0 < x.1.2.randomProb).map Prod.fst
  let activated := dice.shuffle 0 (willing.filter fun b => dice.roll b.1 ≤ b.2.randomProb)
  let rest := dice.shuffle 1 (willing.filter fun b => b.2.randomProb < dice.roll b.1)
  if !inActiveHours group out.now then
    if group.mentionBypassHours && !isOurs then forced else []
  else if isOurs then (forced ++ activated ++ rest).take 1
  else
    let want := dice.want (max 1 group.replyMin) (max (max 1 group.replyMin) group.replyMax)
    let chosen := forced ++ activated.take (want - forced.length).toNat
    if chosen.length < group.replyMin then
      chosen ++ rest.take (group.replyMin - chosen.length).toNat
    else chosen

/-- The trigger of `_start_member_run` for a message. -/
def AiGroup.reply (group : AiGroup) (b : BindingId) (obj : AiGroupEvent) : AiTrigger where
  bindingId := b
  chatId := group.chatId
  topicId := group.topicId
  agentKey := some s!"binding:{b}"
  text := obj.text
  senderName := obj.senderName
  senderId := (obj.senderId.filter fun sid => sid ≠ 0).map toString
  sourceRefs := some [.dict [("chat_id", .int obj.chatId), ("message_id", .int obj.messageId)]]
  contextMaxMessages := group.contextMaxMessages.toNat
  contextOverride := some []

/-- `_start_member_run`, for a message. -/
def startReply (out : Outside) (group : AiGroup) (obj : AiGroupEvent) (b : BindingId) : Req Bool :=
  Txn.attempt
    (do
      let _ ← trigger out (group.reply b obj) true
      Txn.ret true)
    Raised.skipsMember false

def answerMessage (out : Outside) (dice : Dice) (pk : GroupId) (group : AiGroup) (obj : AiGroupEvent)
    (recent : List Json) (isOurs : Bool) : Req ℕ := do
  let chosen ← Txn.read fun s =>
    pickSpeakers out dice s group ((s.members pk group).filter fun b => b.2.status = "active") obj
      recent isOurs
  let started ← Txn.collect (fun b => startReply (dice.starting b.1) group obj b.1) chosen
  Txn.ret (started.filter id).length

/-- `handle_group_event` for a message that is not private, once its group is locked. -/
def handleGroupEvent (out : Outside) (dice : Dice) (account : TelegramAccount) (obj : AiGroupEvent)
    (pk : GroupId) (group : AiGroup) : Req ℕ := do
  let author ← authorOf account obj
  if group.has obj.messageId then Txn.ret 0
  else
    let recent := group.recentMessages ++ [obj.entry author out.now]
    Txn.write fun s => s.updateGroupRow pk fun g => g.record (obj.entry author out.now) author out.now
    if group.status ≠ "active" || obj.senderIsBot || author = .cloned then Txn.ret 0
    else if author = .ours && !chainAllowed group recent then Txn.ret 0
    else answerMessage out dice pk group obj recent (author = .ours)

/-- `ai_group_event`, with what the runtime reports. -/
structure GroupReport where
  out : Outside
  dice : Dice
  obj : AiGroupEvent
  /-- A private message is answered without a group. -/
  notPrivate : obj.chatClass ≠ some "private"

def GroupReport.group (r : GroupReport) (s : ControlPlane) :
    Option (TelegramAccount × GroupId × AiGroup) :=
  (s.dir.account r.obj.apiRowId).bind fun account =>
    (s.findGroup account r.obj).map fun g => (account, g)

/-- `ai_group_event`. -/
def GroupReport.handle (r : GroupReport) : Req ℕ := do
  let account ← Txn.read fun s => s.dir.account r.obj.apiRowId
  let account ← orRefuse .notFound "账号不存在" account
  match ← Txn.read fun s => s.findGroup account r.obj with
  | none => Txn.ret 0
  | some (pk, group) => handleGroupEvent r.out r.dice account r.obj pk group

end TgPlatform
