import TgPlatform.Control.Plane

/-! # What lies outside of the database

The clock, generated uuids, Telegram sessions, the cipher, model providers and
chance, as the answers they give during one request.
-/

namespace TgPlatform

/-- One result of `join_chat_refs`. -/
inductive JoinResult
  | ok (chatId : ℤ)
  | failed (status : String)
  deriving DecidableEq, Repr

/-- `JOIN_ERR`. -/
def joinErr : String → String
  | "invite_expired" => "邀请链接已过期"
  | "invite_invalid" => "邀请链接无效"
  | "join_approval_pending" => "该群需要管理员审批才能进群"
  | "not_member" =>
    "账号不在该群内,纯数字 ID 无法自动进群——请改用邀请链接(t.me/+xxx)或公开链接(t.me/用户名)"
  | "resolve_failed" => "链接无法解析到群"
  | "account_frozen" => "监听号已被 Telegram 冻结,无法进群/解析——请更换监听账号"
  | "bad_ref" => "群标识无法识别"
  | "unauthorized" => "账号会话已失效,请重新登录"
  | "flood_wait" => "进群操作过于频繁,请稍后重试"
  | _ => "进群/解析失败"

/-- `EngineSubmitResult`. -/
structure SubmitResult where
  ok : Bool
  acceptedMessageId : Option String := none
  statusCode : ℕ := 0
  error : Option String := none
  deriving DecidableEq, Repr

structure Submission where
  binding : AiBinding
  sessionId : String
  message : String
  senderId : String
  senderName : String
  idempotencyKey : String

/-- All that the prompt, the model, the cleaning of its answer and the gate see. -/
structure Prompt where
  binding : AiBinding
  group : Option AiGroup
  run : AiRun
  baseUrl : String
  model : Option String
  apiKey : Option String
  nicks : List (ℤ × Option String)
  selfUid : Option ℤ
  senderName : String
  text : String
  context : List Json
  after : List Json

/-! ## Lower-casing -/

/-- The tables of Unicode behind `str.lower`. -/
structure CaseTables where
  letter : Char → List Char
  cased : Char → Bool
  ignorable : Char → Bool

namespace CaseTables

variable (c : CaseTables)

/-- A capital sigma stands at the end of a word: after a cased letter and before none. -/
def ends (before after : List Char) : Bool :=
  (before.dropWhile c.ignorable).head?.any c.cased && !(after.dropWhile c.ignorable).head?.any c.cased

/-- The lower case of a text, after the letters `before`, the last one first. -/
def lowerFrom (before : List Char) : List Char → List Char
  | [] => []
  | 'Σ' :: rest => (if c.ends before rest then 'ς' else 'σ') :: lowerFrom ('Σ' :: before) rest
  | x :: rest => c.letter x ++ lowerFrom (x :: before) rest

/-- `str.lower`. -/
def lower (s : String) : String := String.ofList (c.lowerFrom [] s.toList)

/-- The lower case letter by letter. -/
def letters (s : List Char) : List Char := s.flatMap fun x => if x = 'Σ' then ['σ'] else c.letter x

variable {c}

/-- Only a capital sigma is lower-cased by what stands around it. -/
theorem lowerFrom_eq_letters {s : List Char} (h : 'Σ' ∉ s) (before : List Char) :
    c.lowerFrom before s = c.letters s := by
  induction s generalizing before with
  | nil => rfl
  | cons x rest ih =>
    rw [List.mem_cons, not_or] at h
    have hx : x ≠ 'Σ' := fun heq => h.1 heq.symm
    rw [lowerFrom.eq_3 c before x rest hx, ih h.2, letters, letters, List.flatMap_cons, if_neg hx]

theorem lower_toList {s : String} (h : 'Σ' ∉ s.toList) : (c.lower s).toList = c.letters s.toList := by
  rw [lower, String.toList_ofList, lowerFrom_eq_letters h]

end CaseTables

/-! ## One request -/

structure Outside where
  python : Python
  now : Time
  dayStart : Time
  uuid : ℕ → String
  encrypt : String → String
  decrypt : String → Option String
  /-- The results for the references, by the purpose of the call and the account. -/
  join : ℕ → TelegramAccount → List String → Except Raised (String → Option JoinResult)
  resolveUsers : TelegramAccount → List String → Except Raised (String → Option ℤ)
  replyDelay : ℤ → Time
  submit : Submission → SubmitResult
  /-- The reply and the message it quotes, or the error of the run. -/
  generate : Prompt → Except String (String × Option ℤ)
  pick : ℕ → ℕ
  /-- The last delivery along the route, since the account joined, was blocked. -/
  blocked : String → Option Time → Bool
  casing : CaseTables
  /-- The parsed answer of the model to a message that a rule copies, or the error of the call. -/
  transform : CloneRule → AiGroup → String → Except String (Option Json)

namespace Outside

variable (out : Outside)

def lower (s : String) : String := out.casing.lower s

/-- `join_chat_refs`, which drives the session of the account. -/
def joinChatRefs (purpose : ℕ) (scope : Scope) (account : TelegramAccount) (refs : List String) :
    Req (String → Option JoinResult) := do
  Txn.emit (.session account scope)
  Txn.lift (out.join purpose account refs)

/-- `resolve_user_refs`, which drives the session of the account too. -/
def resolveUserRefs (scope : Scope) (account : TelegramAccount) (users : List String) :
    Req (String → Option ℤ) := do
  Txn.emit (.session account scope)
  Txn.lift (out.resolveUsers account users)

def resolveOrRaise (results : String → Option JoinResult) (label ref : String) : Req ℤ :=
  match results ref with
  | some (.ok chatId) => Txn.ret chatId
  | some (.failed status) => refuse .request s!"{label} {ref}: {joinErr status}"
  | none =>
    let status := joinErr "resolve_failed"
    refuse .request s!"{label} {ref}: {status}"

/-- `s.lstrip('-').isdigit()`. -/
def isNumeric (s : String) : Bool :=
  out.python.isDigit (String.ofList (s.toList.dropWhile fun c => c = '-'))

end Outside

end TgPlatform
