import TgPlatform.Ai.Trigger
import TgPlatform.Lib.Dict

/-! # The messages for the model

The model is asked with the description of the group's member whose account
speaks, the earlier messages, and what it is to answer. The messages of its own
account are given to it as what it has said.
-/

namespace TgPlatform

/-- `DEFAULT_PERSONA`. -/
def defaultPersona : String :=
  "你是一个群聊里的普通成员,说话自然简短,像真人聊天。不要承认自己 AI,不要输出括号动作描述,不要长篇大论。"

structure ModelMessage where
  role : String
  content : String
  deriving DecidableEq, Repr

/-- `mode` of the trigger source. -/
def AiRun.mode (py : Python) (run : AiRun) : String :=
  (run.triggerSource.field "mode" (.str "reply")).toStr py.repr

/-- `_line`. -/
def line (sender text : String) : String := "[" ++ sender ++ "] " ++ text

section Prompting

variable (py : Python) (p : Prompt)

/-- `_member_nicks`: an account is called as the group has seen it last, or by its user name. -/
def memberNames : Dict ℤ String :=
  let rows := p.nicks.foldl (fun d row => d.set row.1 ((truthy row.2).getD (toString row.1))) Dict.empty
  ((p.group.map AiGroup.recentMessages).getD []).foldl (fun d m =>
    match m.field "sid" .null with
    | .int sid =>
      let sender := m.field "sender" .null
      if (d.get? sid).isSome && sender.truthy then d.set sid (sender.toStr py.repr) else d
    | _ => d) rows

/-- `_group_system`. -/
def groupSystem (group : AiGroup) : String :=
  let names := memberNames py p
  let me := truthy (p.selfUid.bind names.get?)
  let peers := (names.order.filter fun uid => some uid ≠ p.selfUid).filterMap names.get?
  let limit := if group.maxReplyChars ≠ 0 then ",不超过 " ++ toString group.maxReplyChars ++ " 字" else ""
  "\n".intercalate ([
    "你是这个 Telegram 群里的一名群成员" ++ (me.elim "" fun me => "(群里显示的昵称是「" ++ me ++ "」)") ++ "。"] ++
    ((truthy p.binding.roleName).toList.map fun role => "你的角色:" ++ role) ++
    ((truthy group.theme).toList.map fun theme => "群主题/背景:" ++ theme) ++
    ["你的人设:" ++ (truthy p.binding.persona).getD defaultPersona] ++
    (if peers = [] then [] else
      ["群里的" ++ "、".intercalate peers ++ "和你是一伙的:不要互相拆台、不要重复他们刚说过的话,可以自然呼应。"]) ++
    ["要求:口语化、简短" ++ limit ++ ";不要承认自己是 AI;不要输出括号动作描述;" ++
      "聊天记录里的「[发言人]」只是标注,回复里不要写任何人的名字、用户名或 @,也不要加「名字:」前缀;" ++
      "只输出要发到群里的那一句话。"])

/-- A message as another member has said it. -/
def heardLine (m : Json) : String :=
  line ((m.field "sender" (.str "?")).toStr py.repr) ((m.field "text" (.str "")).toStr py.repr)

def earlierMessage (m : Json) : ModelMessage :=
  if p.selfUid.any fun uid => match m.field "sid" .null with
    | .int sid => sid = uid
    | _ => false
  then ⟨"assistant", (m.field "text" (.str "")).toStr py.repr⟩
  else ⟨"user", heardLine py m⟩

/-- `_build_messages`. -/
def buildMessages : List ModelMessage :=
  let asked := line p.senderName p.text
  let system := (p.group.elim ((truthy p.binding.persona).getD defaultPersona) (groupSystem py p)) ++
    if p.after = [] then "" else "\n\n群里在这之后又有新消息,请针对" ++ asked ++ "这条自然接话。"
  let task := match p.run.mode py with
    | "warmup" => [⟨"user", "(群里有一阵子没人说话了。请围绕群主题自然地开个新话题或随口聊一句,不要提到冷场。)"⟩]
    | "script" => [⟨"user", "(用你的口吻改写下面这句话发到群里,意思不变,只输出改写后的内容:" ++
        (p.run.triggerSource.field "script_line" (.str "")).toStr py.repr ++ ")"⟩]
    | _ => ⟨"user", asked⟩ :: p.after.map fun m => ⟨"user", heardLine py m⟩
  ⟨"system", system⟩ :: p.context.map (earlierMessage py p) ++ task

end Prompting

end TgPlatform
