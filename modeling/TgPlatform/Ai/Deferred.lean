import TgPlatform.Ai.Trigger

/-! # Runs that end later

A deferred run is generated by a task of its own, from the conversation that the
run was created in. A periodic task ends the runs whose deadline has passed.
-/

namespace TgPlatform

inductive DeferredResult
  | missing
  | skipped (status : RunStatus)
  | cancelled
  | stale
  | ran (run : Option AiRun)

/-- `==` of two message ids. -/
def sameMid : Json → Json → Bool
  | .int m, .int n => m = n
  | .str s, .str t => s = t
  | _, _ => false

/-- `l[-n:] if n else []`. -/
def lastContext (n : ℤ) (l : List Json) : List Json :=
  if n = 0 then [] else l.drop (if 0 < n then l.length - n.toNat else (-n).toNat)

/-- `run.trigger_source`, read back as the trigger it records. -/
def AiRun.request (run : AiRun) (py : Python) (conv : AiConversation) : AiTrigger :=
  let src := run.triggerSource
  let orElse (v : Json) (default : String) := if v.truthy then v.toStr py.repr else default
  { bindingId := conv.bindingId
    chatId := conv.chatId
    text := orElse (src.field "text" .null) ""
    senderName := orElse (src.field "sender_name" .null) "User"
    mode := (src.field "mode" (.str "reply")).toStr py.repr
    rewrite := (src.field "rewrite" .null).truthy }

def AiRun.heard (run : AiRun) (mode : String) (binding : AiBinding) (group : Option AiGroup) :
    List Json × List Json :=
  let src := run.triggerSource
  let cache := (group.map AiGroup.recentMessages).getD binding.recentMessages
  let n := (group.map AiGroup.contextMaxMessages).getD binding.contextMaxMessages
  if mode ≠ "reply" then (lastContext n cache, [])
  else
    match cache.findIdx? fun m => sameMid (m.field "mid" .null) (src.field "mid" .null) with
    | none =>
      let context := src.field "context" .null
      (if context.truthy then context.items.getD [] else [], [])
    | some i => (lastContext n (cache.take i), cache.drop (i + 1))

/-- The group has moved on too far for the answer. -/
def isStale (mode : String) (group : Option AiGroup) (after : List Json) : Bool :=
  let staleMax := (group.map AiGroup.staleMaxMessages).getD 0
  mode = "reply" && staleMax ≠ 0 && staleMax ≤ after.length

namespace ControlPlane

variable (s : ControlPlane)

/-- `_member_group`. -/
def memberGroup (binding : AiBinding) : Option (GroupId × AiGroup) :=
  binding.groupId.bind fun g => (s.group g).map fun row => (g, row)

def speaks (binding : AiBinding) (group : Option (GroupId × AiGroup)) : Bool :=
  binding.status = "active" &&
    (binding.groupId.isNone || group.any fun g => g.2.status = "active")

def scene (run : AiRun) : Option (AiConversation × AiBinding × Option (GroupId × AiGroup)) := do
  let conv ← s.conversation run.conversationId
  let binding ← s.binding conv.bindingId
  let group := s.memberGroup binding
  if speaks binding group then some (conv, binding, group) else none

def giveUp (pk : RunId) (conversationId : ConversationId) (err : String) (now : Time) : ControlPlane :=
  (s.updateRun pk fun r => { r with
    status := .cancelled
    lastError := some err
    completedAt := some now }).unlockConversation conversationId

def expire (pk : RunId) (conversationId : ConversationId) (now : Time) : ControlPlane :=
  (s.updateRun pk fun r => { r with
    status := .incomplete
    lastError := some "callback_deadline_exceeded"
    completedAt := some now }).unlockConversation conversationId

end ControlPlane

/-- `r.status in ACTIVE and r.deadline and r.deadline < now`. -/
def AiRun.overdue (run : AiRun) (now : Time) : Bool :=
  run.status.active && run.deadline.any fun d => d < now

variable (out : Outside)

/-- `run_deferred_openai`. -/
def runDeferredOpenai (pk : RunId) : Req DeferredResult := do
  match ← Txn.read fun s => s.run pk with
  | none => Txn.ret .missing
  | some run =>
    if run.status ≠ .pending then Txn.ret (.skipped run.status)
    else
      match ← Txn.read fun s => s.scene run with
      | none => do
        Txn.write fun s => s.giveUp pk run.conversationId "binding_inactive" out.now
        Txn.ret .cancelled
      | some (conv, binding, group) =>
        let obj := run.request out.python conv
        let (before, after) := run.heard obj.mode binding (group.map Prod.snd)
        if isStale obj.mode (group.map Prod.snd) after then do
          Txn.write fun s => s.giveUp pk run.conversationId "stale" out.now
          Txn.ret .stale
        else
          (openaiExecute out obj binding run.conversationId conv pk run before after group).map .ran

/-- `sweep_deadlines`. -/
def sweepDeadlines : Req ℕ := do
  let runs ← Txn.read fun s => s.runsOf none none none
  let due := runs.filter fun r => r.2.overdue out.now
  Txn.each (fun r => Txn.write fun s => s.expire r.1 r.2.conversationId out.now) due
  Txn.ret due.length

end TgPlatform
