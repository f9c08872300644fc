import TgPlatform.Import.Zip
import TgPlatform.Lib.Coroutine
import TgPlatform.Platform.Access

/-! # Logging in by a code

An account is added in two requests. The first has a code sent to the phone and
leaves what it was asked for in Redis, under a new login id and for ten minutes.
The second reads it back, signs in with the code, moves the session file to a
directory of its own, with the API credentials beside it, and adds the account.
In between the requests may take turns at every call, and every call may raise,
before or after it has had its effect.
-/

namespace TgPlatform.CodeLogin

open Coroutine
open SessionImport (AccountRow SecretRef)

/-! ## The command line of the login -/

/-- The exceptions of the client that are told apart. -/
inductive TelegramError
  | phoneNumberInvalid
  | phoneCodeInvalid
  | phoneCodeExpired
  | phoneNumberBanned
  | phoneNumberUnoccupied
  | floodWait (seconds : ℤ)
  | sessionPasswordNeeded (text : String)
  | other (text : String)
  deriving DecidableEq, Repr

/-- An `error` that is printed. -/
structure CliError where
  status : String
  seconds : Option ℤ := none
  detail : Option String := none
  deriving DecidableEq, Repr

/-- `_classify`. -/
def classify : TelegramError → CliError
  | .phoneNumberInvalid => { status := "phone_invalid" }
  | .phoneCodeInvalid => { status := "code_invalid" }
  | .phoneCodeExpired => { status := "code_expired" }
  | .phoneNumberBanned => { status := "phone_banned" }
  | .phoneNumberUnoccupied => { status := "phone_unoccupied" }
  | .floodWait seconds => { status := "flood_wait", seconds := some seconds }
  | .sessionPasswordNeeded text | .other text =>
    { status := "error", detail := some (String.ofList (text.toList.take 300)) }

structure TelegramUser where
  id : ℤ
  username : Option String := none
  phone : Option String := none
  deriving DecidableEq, Repr

/-- How the calls of the client end in one run of the command line. -/
structure ClientSide where
  connect : Except TelegramError Unit
  sendCode : Except TelegramError String
  signIn : Except TelegramError TelegramUser
  signInPassword : Except TelegramError TelegramUser
  disconnect : Except TelegramError Unit

inductive SendAnswer
  | ok (phoneCodeHash : String)
  | failed (e : CliError)
  deriving DecidableEq, Repr

inductive SigninAnswer
  | ok (user : TelegramUser)
  | needPassword
  | failed (e : CliError)
  deriving DecidableEq, Repr

/-- `finally: await client.disconnect()`, with the last line that is printed: an exception of the
disconnection comes after all others. -/
def ClientSide.finally_ {α : Type} (c : ClientSide) (failed : CliError → α)
    (body : Except TelegramError α) : α :=
  match c.disconnect, body with
  | .error e, _ => failed (classify e)
  | .ok (), .ok a => a
  | .ok (), .error e => failed (classify e)

/-- `_send`. -/
def send (c : ClientSide) : SendAnswer :=
  match c.connect with
  | .error e => .failed (classify e)
  | .ok () => c.finally_ .failed (c.sendCode.map .ok)

/-- The sign-in with the code, and with the password where one is needed and given. -/
def trySignin (c : ClientSide) (password : Option String) : Except TelegramError SigninAnswer :=
  match c.signIn with
  | .error (.sessionPasswordNeeded _) =>
    match truthy password with
    | none => .ok .needPassword
    | some _ => c.signInPassword.map .ok
  | answer => answer.map .ok

/-- `_signin`. -/
def signin (c : ClientSide) (password : Option String) : SigninAnswer :=
  match c.connect with
  | .error e => .failed (classify e)
  | .ok () => c.finally_ .failed (trySignin c password)

/-! ## What the requests keep -/

/-- `TgTelegramAccount`, with the columns that a login fills in. -/
structure Account extends AccountRow where
  phone : Option String
  desiredStatus : String
  deriving DecidableEq, Repr

/-- The table keeps `uk_tg_account_tguser_deleted`. -/
structure Accounts where
  rows : List Account
  unique : rows.Pairwise fun a b => ¬ a.toAccountRow.Clash b.toAccountRow

namespace Accounts

/-- The flush of an added row, unless it raises `IntegrityError`. -/
def insert (t : Accounts) (row : Account) : Option Accounts :=
  if h : ∀ a ∈ t.rows, ¬ a.toAccountRow.Clash row.toAccountRow then
    some ⟨t.rows ++ [row], List.pairwise_append.mpr
      ⟨t.unique, List.pairwise_singleton .., fun a ha _ hb => List.mem_singleton.mp hb ▸ h a ha⟩⟩
  else none

/-- `get_by_tg_user`; the ids of the accounts begin at 1. -/
def getByTgUser (t : Accounts) (userId : ℤ) : Option ℕ :=
  (t.rows.findIdx? fun a => a.telegramUserId = some userId && a.deleted = 0).map (· + 1)

end Accounts

/-- The parameters that every run of the command line gets. -/
structure Client where
  phone : String
  apiId : ℤ
  apiHash : String
  device : Option String
  appVersion : Option String
  deriving DecidableEq, Repr

/-- `LoginStartParam`. -/
structure LoginStart where
  tenantId : ℕ
  projectId : ℕ
  client : Client
  deriving DecidableEq, Repr

/-- `LoginCompleteParam`. -/
structure LoginComplete where
  loginId : String
  code : String
  password : Option String
  deriving DecidableEq, Repr

/-- What is kept in Redis of a login that has begun. -/
structure Pending where
  sessionPath : SecretRef
  tenantId : ℕ
  projectId : ℕ
  userId : UserId
  client : Client
  phoneCodeHash : String
  deriving DecidableEq, Repr

/-- Microseconds. -/
abbrev Moment : Type := ℕ

/-- `_LOGIN_TTL_S`. -/
def loginTtl : Moment := 600 * 1000000

/-- A file of the storage directory: a session with the moment it was made, or a text in JSON. -/
inductive File
  | session (created : Moment)
  | text (value : Option Json)

def File.created? : File → Option Moment
  | session created => some created
  | text _ => none

/-- `--device` and `--app-version` are passed on only where they are truthy. -/
def Client.args (c : Client) : Client :=
  { c with device := truthy c.device, appVersion := truthy c.appVersion }

/-- `.pending`. -/
def pendingDir : String := ".pending"

def sessionPath (loginId : String) : SecretRef := ⟨pendingDir, loginId ++ ".session"⟩

/-! ## Calls -/

inductive Response
  | started (loginId : String)
  | needPassword
  | created (username : Option String) (telegramUserId : ℤ)
  | error (e : ApiError)
  deriving DecidableEq, Repr

inductive LoginCall
  | getByScope (tenantId projectId : ℕ) (userId : UserId)
  | purgePending
  | uuid4
  | mkdir (dir : String)
  | send (session : SecretRef) (client : Client)
  | signin (session : SecretRef) (client : Client) (phoneCodeHash code : String)
      (password : Option String)
  | unlink (file : SecretRef)
  | move (src dst : SecretRef)
  | writeText (file : SecretRef) (value : Json)
  | pendingSave (loginId : String) (p : Pending)
  | pendingGet (loginId : String)
  | pendingPop (loginId : String)
  | getByTgUser (userId : ℤ)
  | commit (row : Account)
  | respond (r : Response)
  /-- The other requests, as far as the memberships and the accounts go. -/
  | elsewhere (members : List (ℕ × ℕ × UserId)) (accounts : Accounts)

namespace LoginCall

abbrev Answer : LoginCall → Type
  | getByScope .. => Bool
  | purgePending => List SecretRef
  | uuid4 => String
  | send .. => SendAnswer
  | signin .. => SigninAnswer
  | pendingGet _ => Option Pending
  | getByTgUser _ => Option ℕ
  | _ => Unit

end LoginCall

abbrev LoginPart (α : Type) : Type := Coroutine LoginCall LoginCall.Answer α

/-- A call whose exception goes on. -/
abbrev ask (w : LoginCall) : LoginPart w.Answer := request w

def refuse {α : Type} (kind : ErrorKind) (msg : String) : LoginPart α :=
  call (.respond (.error ⟨kind, msg⟩)) (fun _ => raise) raise

/-! ## The requests -/

/-- `_check_scope`. -/
def checkScope (caller : Caller) (tenantId projectId : ℕ) : LoginPart Unit :=
  if caller.isSuperuser then ret ()
  else (ask (.getByScope tenantId projectId caller.id)).andThen fun (member : Bool) =>
    if member then ret () else refuse .forbidden "无该项目权限"

/-- `_LOGIN_ERR`. -/
def loginErr : String → Option String
  | "code_invalid" => some "验证码错误"
  | "code_expired" => some "验证码已过期,请重新发起登录"
  | "phone_invalid" => some "手机号格式错误"
  | "phone_banned" => some "该号码已被 Telegram 封禁"
  | "phone_unoccupied" => some "该号码未注册 Telegram"
  | _ => none

def refuseLogin {α : Type} (e : CliError) (default : String) : LoginPart α :=
  if e.status = "flood_wait" then refuse .request s!"操作频繁,请 {e.seconds.getD 60} 秒后重试"
  else refuse .request ((loginErr e.status).getD (e.detail.getD default))

def pendingOf (caller : Caller) (obj : LoginStart) (loginId phoneCodeHash : String) : Pending where
  sessionPath := sessionPath loginId
  tenantId := obj.tenantId
  projectId := obj.projectId
  userId := caller.id
  client := obj.client
  phoneCodeHash := phoneCodeHash

/-- `login_start`. -/
def loginStart (caller : Caller) (obj : LoginStart) : LoginPart String :=
  (checkScope caller obj.tenantId obj.projectId).andThen fun _ =>
  (ask .purgePending).andThen fun _ =>
  (ask .uuid4).andThen fun loginId =>
  (ask (.mkdir pendingDir)).andThen fun _ =>
  (ask (.send (sessionPath loginId) obj.client.args)).andThen fun
    | .failed e => (ask (.unlink (sessionPath loginId))).andThen fun _ =>
      refuseLogin e "发送验证码失败"
    | .ok phoneCodeHash =>
      (ask (.pendingSave loginId (pendingOf caller obj loginId phoneCodeHash))).andThen fun _ =>
        ret loginId

/-- `existing`. -/
def existingOf (user : TelegramUser) : LoginPart (Option ℕ) :=
  if user.id ≠ 0 then ask (.getByTgUser user.id) else ret none

def phoneKey (p : Pending) (user : TelegramUser) : String :=
  String.ofList (((truthy user.phone).getD p.client.phone).toList.dropWhile (· = '+'))

/-- `key`. -/
def sessionKey (p : Pending) (user : TelegramUser) : LoginPart String :=
  if phoneKey p user ≠ "" then ret (phoneKey p user) else ask .uuid4

def metaOf (c : Client) : Json :=
  .dict [("app_id", .int c.apiId), ("app_hash", .str c.apiHash),
    ("device", c.device.elim .null .str), ("app_version", c.appVersion.elim .null .str)]

def loginDir (uuid : String) : String := "login-" ++ uuid

def accountOf (p : Pending) (user : TelegramUser) (uuid key : String) : Account where
  tenantId := p.tenantId
  projectId := p.projectId
  importBatchId := none
  phone := some ((truthy user.phone).getD p.client.phone)
  telegramUserId := some user.id
  username := user.username
  secretRef := some ⟨loginDir uuid, SessionImport.sessionName key⟩
  desiredStatus := "running"
  observedStatus := "imported_quarantine"
  lastError := none

/-- The end of `login_complete`, once Telegram has signed the user in. -/
def storeSession (p : Pending) (loginId : String) (user : TelegramUser) : LoginPart Account :=
  (ask .uuid4).andThen fun uuid =>
  (ask (.mkdir (loginDir uuid))).andThen fun _ =>
  (sessionKey p user).andThen fun key =>
  (ask (.move p.sessionPath ⟨loginDir uuid, SessionImport.sessionName key⟩)).andThen fun _ =>
  (ask (.writeText ⟨loginDir uuid, SessionImport.metaName key⟩ (metaOf p.client))).andThen fun _ =>
  (ask (.pendingPop loginId)).andThen fun _ =>
    ret (accountOf p user uuid key)

def signedIn (p : Pending) (loginId : String) (user : TelegramUser) : LoginPart Account :=
  (existingOf user).andThen fun
    | some id =>
      (ask (.unlink p.sessionPath)).andThen fun _ =>
      (ask (.pendingPop loginId)).andThen fun _ =>
        refuse .request s!"该 Telegram 身份已存在账号 id={id}"
    | none => storeSession p loginId user

/-- `login_complete`; without an account where a password is asked for. -/
def loginComplete (caller : Caller) (obj : LoginComplete) : LoginPart (Option Account) :=
  (ask .purgePending).andThen fun _ =>
  (ask (.pendingGet obj.loginId)).andThen fun
    | none => refuse .request "登录会话已过期,请重新发起"
    | some p =>
      if p.userId ≠ caller.id && !caller.isSuperuser then refuse .forbidden "无权完成该登录"
      else
        (checkScope caller p.tenantId p.projectId).andThen fun _ =>
        (ask (.signin p.sessionPath p.client.args p.phoneCodeHash obj.code
          (truthy obj.password))).andThen fun
            | .failed e => refuseLogin e "登录失败"
            | .needPassword => ret none
            | .ok user => (signedIn p obj.loginId user).andThen fun account => ret (some account)

/-- The request of `login_start`. -/
def startRequest (caller : Caller) (obj : LoginStart) : LoginPart Unit :=
  (loginStart caller obj).andThen fun loginId => ask (.respond (.started loginId))

/-- The request of `login_complete`, with the commit of its database session. -/
def completeRequest (caller : Caller) (obj : LoginComplete) : LoginPart Unit :=
  (loginComplete caller obj).andThen fun
    | none => ask (.respond .needPassword)
    | some account => (ask (.commit account)).andThen fun _ =>
      ask (.respond (.created account.username (account.telegramUserId.getD 0)))

inductive Begins : LoginPart Unit → Prop
  | start (caller : Caller) (obj : LoginStart) : Begins (startRequest caller obj)
  | complete (caller : Caller) (obj : LoginComplete) : Begins (completeRequest caller obj)
  | elsewhere (members : List (ℕ × ℕ × UserId)) (accounts : Accounts) :
      Begins (ask (.elsewhere members accounts))

/-! ## The world -/

/-- A call with the moment and the way in which it has ended. -/
structure Deed where
  time : Moment
  call : LoginCall
  answer : Option call.Answer

structure LoginWorld where
  clock : Moment
  members : List (ℕ × ℕ × UserId)
  accounts : Accounts
  /-- The values in Redis, with the moments at which they expire. -/
  pending : String → Option (Pending × Moment)
  files : SecretRef → Option File
  /-- The uuids that have been given out. -/
  uuids : List String
  log : List Deed

namespace LoginWorld

/-- `_pending_get`. -/
def live (s : LoginWorld) (loginId : String) : Option Pending :=
  ((s.pending loginId).filter fun x => s.clock < x.2).map Prod.fst

/-- A session of the pending directory that is older than a login may be. -/
def Stale (s : LoginWorld) (file : SecretRef) : Prop :=
  file.batch = pendingDir ∧ ∃ created, (s.files file).bind File.created? = some created ∧
    created + loginTtl < s.clock

end LoginWorld

/-- How a call may be answered. A purge leaves alone what it cannot remove. -/
def LoginCall.Allows (s : LoginWorld) : (w : LoginCall) → w.Answer → Prop
  | getByScope tenantId projectId userId, (member : Bool) =>
    member = decide ((tenantId, projectId, userId) ∈ s.members)
  | purgePending, (removed : List SecretRef) => ∀ file ∈ removed, s.Stale file
  | uuid4, (uuid : String) => uuid ≠ "" ∧ uuid ∉ s.uuids
  | send .., (r : SendAnswer) => ∃ c, r = CodeLogin.send c
  | signin _ _ _ _ password, (r : SigninAnswer) => ∃ c, r = CodeLogin.signin c password
  | pendingGet loginId, (r : Option Pending) => r = s.live loginId
  | getByTgUser userId, (r : Option ℕ) => r = s.accounts.getByTgUser userId
  | move src _, _ => (s.files src).isSome
  | commit row, _ => (s.accounts.insert row).isSome
  | _, _ => True

/-- A run of the command line makes the session file where it is missing. -/
def LoginWorld.touch (s : LoginWorld) (file : SecretRef) : LoginWorld :=
  { s with files := Function.update s.files file ((s.files file).or (some (.session s.clock))) }

def LoginWorld.remove (s : LoginWorld) (removed : List SecretRef) : LoginWorld :=
  { s with files := fun file => if file ∈ removed then none else s.files file }

def LoginCall.effect (s : LoginWorld) : (w : LoginCall) → w.Answer → LoginWorld
  | purgePending, (removed : List SecretRef) => s.remove removed
  | uuid4, (uuid : String) => { s with uuids := uuid :: s.uuids }
  | send session .., _ => s.touch session
  | signin session .., _ => s.touch session
  | unlink file, _ => s.remove [file]
  | move src dst, _ =>
    { s with files := Function.update (Function.update s.files dst (s.files src)) src none }
  | writeText file value, _ =>
    { s with files := Function.update s.files file (some (.text (some value))) }
  | pendingSave loginId p, _ =>
    { s with pending := Function.update s.pending loginId (some (p, s.clock + loginTtl)) }
  | pendingPop loginId, _ => { s with pending := Function.update s.pending loginId none }
  | commit row, _ => { s with accounts := (s.accounts.insert row).getD s.accounts }
  | elsewhere members accounts, _ => { s with members := members, accounts := accounts }
  | _, _ => s

namespace LoginWorld

def at_ (s : LoginWorld) (now : Moment) : LoginWorld := { s with clock := now }

def record (s : LoginWorld) (d : Deed) : LoginWorld := { s with log := s.log ++ [d] }

end LoginWorld

/-- A call is answered some time later. One that raises has had its effect or not. -/
inductive Answers : World LoginWorld LoginCall LoginCall.Answer
  | answer {s : LoginWorld} {w : LoginCall} {r : w.Answer} {now : Moment} (hnow : s.clock ≤ now)
      (h : w.Allows (s.at_ now) r) :
      Answers s w (some r) ((w.effect (s.at_ now) r).record ⟨now, w, some r⟩)
  | raise {s : LoginWorld} {w : LoginCall} {now : Moment} (hnow : s.clock ≤ now) :
      Answers s w none ((s.at_ now).record ⟨now, w, none⟩)
  | lose {s : LoginWorld} {w : LoginCall} {r : w.Answer} {now : Moment} (hnow : s.clock ≤ now)
      (h : w.Allows (s.at_ now) r) :
      Answers s w none ((w.effect (s.at_ now) r).record ⟨now, w, none⟩)

/-! ## The session of an account -/

/-- The last suffix of a name that has a stem. -/
def suffixOf (name : List Char) : List Char :=
  let ext := (name.reverse.takeWhile (· ≠ '.')).reverse
  if '.' ∈ name ∧ ext ≠ [] ∧ ext.length + 1 < name.length then '.' :: ext else []

/-- `Path.with_suffix`. -/
def withSuffix (name suffix : String) : String :=
  String.ofList (name.toList.take (name.length - (suffixOf name.toList).length)) ++ suffix

/-- `account_session_cli_args`. A text is the value that it parses to; the exceptions of a value that is no
object and of a file that is no text are `none`. -/
def accountSessionCliArgs (repr : Json → String) (files : SecretRef → Option File)
    (secretRef : Option SecretRef) : Option (Except ApiError (SecretRef × String × String)) :=
  match secretRef with
  | none => some (.error ⟨.request, "账号无会话文件,无法执行进群"⟩)
  | some ref => do
    let json ← match files ⟨ref.batch, withSuffix ref.name ".json"⟩ with
      | some (.text (some value)) => some value
      | some (.session _) => none
      | _ => some (.dict [])
    let apiId ← json.get "app_id"
    let apiHash ← json.get "app_hash"
    if (files ref).isNone || !apiId.truthy || !apiHash.truthy then
      some (.error ⟨.request, "账号会话或 API 凭据缺失,无法自动进群(重新导入/登录该账号)"⟩)
    else some (.ok (ref, apiId.toStr repr, apiHash.toStr repr))

end TgPlatform.CodeLogin
