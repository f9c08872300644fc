import Mathlib.Data.Finset.Basic
import TgPlatform.Lib.Coroutine
import TgPlatform.Lib.Json

/-! # Sessions of users

Who logs in gets a session with an access token for a day and a refresh token
for a week. Redis keeps the latest of each under the session, and a set of the
sessions of each user, by which all of them can be revoked. Requests take turns
at every command, also within a pipeline, and every command may raise, before or
after it has had its effect. Where the source gathers commands, a request makes
them one after the other.
-/

namespace TgPlatform.Sessions

open Coroutine

/-- Microseconds. -/
abbrev Moment : Type := ℕ

def second : Moment := 1000000

/-- `TOKEN_EXPIRE_SECONDS`. -/
def tokenExpire : Moment := 60 * 60 * 24 * second

/-- `TOKEN_REFRESH_EXPIRE_SECONDS`. -/
def tokenRefreshExpire : Moment := 60 * 60 * 24 * 7 * second

/-- `session_ttl`. -/
def sessionTtl : Moment := max tokenExpire tokenRefreshExpire

/-! ## Tokens -/

structure Payload where
  sessionUuid : String
  jti : String
  exp : Moment
  sub : ℕ
  deriving DecidableEq, Repr

/-- `jwt_encode`, and what a token says whose signature is right. -/
structure Jwt where
  encode : Payload → String
  decode : String → Option Payload

inductive Refusal | token | request | notFound | authorization | forbidden
  deriving DecidableEq, Repr

structure SessionError where
  kind : Refusal
  msg : String
  deriving DecidableEq, Repr

/-- `jwt_decode`. -/
def Jwt.jwtDecode (jwt : Jwt) (now : Moment) (token : String) : Except SessionError Payload :=
  match jwt.decode token with
  | none => .error ⟨.token, "Token 无效"⟩
  | some p =>
    if p.exp / second < now / second then .error ⟨.token, "Token 已过期"⟩
    else if p.sessionUuid = "" then .error ⟨.token, "Token 无效"⟩
    else .ok p

/-! ## Calls -/

inductive RedisKey
  | access (userId : ℕ) (sessionUuid : String)
  | refresh (userId : ℕ) (sessionUuid : String)
  | extraInfo (userId : ℕ) (sessionUuid : String)
  | sessions (userId : ℕ)
  | swagger (userId : ℕ)
  | users
  | online (sessionUuid : String)
  | socket (sid : String)
  deriving DecidableEq, Repr

/-- A text in Redis: a token, or what it parses to. -/
inductive RedisText
  | token (text : String)
  | json (value : Json)

/-- The row of a user, as far as a session goes. -/
structure User where
  id : ℕ
  status : Bool
  isMultiLogin : Bool
  deriving DecidableEq, Repr

/-- `AccessToken`. -/
structure AccessToken where
  accessToken : String
  accessTokenExpireTime : Moment
  sessionUuid : String
  deriving DecidableEq, Repr

/-- `RefreshToken`. -/
structure RefreshToken where
  refreshToken : String
  refreshTokenExpireTime : Moment
  deriving DecidableEq, Repr

/-- `NewToken`. -/
structure NewToken where
  newAccessToken : String
  newAccessTokenExpireTime : Moment
  newRefreshToken : String
  newRefreshTokenExpireTime : Moment
  sessionUuid : String
  deriving DecidableEq, Repr

inductive Response
  | swaggerToken (accessToken : String)
  | loggedIn (access : AccessToken) (refresh : RefreshToken)
  | renewed (new : NewToken)
  | authenticated (userId : ℕ) (sessionUuid token : String)
  | done
  | error (e : SessionError)
  deriving DecidableEq, Repr

inductive SessionCall
  | now
  | uuid4
  /-- The password of a user is checked, or another provider vouches for one. -/
  | verify
  | getUser (id : ℕ)
  | get (key : RedisKey)
  | mget (keys : List RedisKey)
  | smembers (key : RedisKey)
  | set (key : RedisKey) (text : RedisText) (ex : Moment)
  | sadd (key : RedisKey) (members : List String)
  | srem (key : RedisKey) (members : List String)
  | expire (key : RedisKey) (ex : Moment)
  | delete (keys : List RedisKey)
  | disconnect (sid namespace_ : String)
  | respond (r : Response)
  /-- The other requests, as far as users and the sockets of sessions go. -/
  | elsewhere (users : List User) (online : String → Option (Finset String × Option Moment))

abbrev SessionCall.Answer : SessionCall → Type
  | now => Moment
  | uuid4 => String
  | verify => User
  | getUser _ => Option User
  | get _ => Option RedisText
  | mget _ => List (Option RedisText)
  | smembers _ => List String
  | _ => Unit

abbrev Part (α : Type) : Type := Coroutine SessionCall SessionCall.Answer α

/-- A call whose exception goes on. -/
abbrev ask (w : SessionCall) : Part w.Answer := request w

def refuse {α : Type} (e : SessionError) : Part α :=
  call (.respond (.error e)) (fun _ => raise) raise

/-- A pipeline without a transaction. Where one of its commands raises, the others may have been
carried out. -/
def pipeline : List SessionCall → Part Unit
  | [] => ret ()
  | w :: ws =>
    call w (fun _ => pipeline ws)
      ((each (fun w => (attempt w).andThen fun _ => ret ()) ws).andThen fun _ => raise)

def collect {α β : Type} (f : α → Part β) : List α → Part (List β)
  | [] => ret []
  | a :: l => (f a).andThen fun b => (collect f l).andThen fun bs => ret (b :: bs)

/-- `mget_batched`. -/
def mgetBatched (keys : List RedisKey) : Part (List (Option RedisText)) :=
  (collect (fun batch => ask (.mget batch)) (keys.toChunks 1000)).andThen fun values => ret values.flatten

/-- `smembers_many`, batches and all: a pipeline of reads is its commands. -/
def smembersMany (keys : List RedisKey) : Part (List (List String)) :=
  collect (fun key => ask (.smembers key)) keys

/-- `delete_batched`. -/
def deleteBatched (keys : List RedisKey) : Part Unit :=
  each (fun batch => ask (.delete batch)) (keys.toChunks 1000)

/-- `_srem_members`. -/
def sremMembers (key : RedisKey) (members : List String) : Part Unit :=
  each (fun batch => ask (.srem key batch)) (members.toChunks 1000)

/-! ## The sessions of a user -/

/-- `bool` of what `get` answers. -/
def present : Option RedisText → Bool
  | some (.token text) => text ≠ ""
  | some (.json _) => true
  | none => false

/-- The extra information says that the session is one of the debugger. -/
def isSwagger : Option RedisText → Bool
  | some (.json (.dict entries)) =>
    match (Json.dict entries).field "swagger" .null with
    | .null => false
    | _ => true
  | _ => false

/-- What has been found of a session in the index. -/
structure Found where
  sessionUuid : String
  access : Option RedisText
  refresh : Option RedisText
  extra : Option RedisText

/-- The reads of `get_user_sessions`, one after the other. -/
def findSessions (userId : ℕ) (indexed : List String) : Part (List Found) :=
  (mgetBatched (indexed.map (.access userId))).andThen fun access =>
  (mgetBatched (indexed.map (.refresh userId))).andThen fun refresh =>
  (mgetBatched (indexed.map (.extraInfo userId))).andThen fun extra =>
    ret ((indexed.zip (access.zip (refresh.zip extra))).map fun x => ⟨x.1, x.2.1, x.2.2.1, x.2.2.2⟩)

def Found.live (f : Found) : Bool := !isSwagger f.extra && (present f.access || present f.refresh)

/-- The index keeps the sessions that are alive. -/
def indexCommands (userId : ℕ) (indexed live : List String) : List SessionCall :=
  let dropped := indexed.filter (· ∉ live)
  (if dropped = [] then [] else [.srem (.sessions userId) dropped]) ++
    (if live = [] then [.delete [.sessions userId], .srem .users [toString userId]]
    else [.expire (.sessions userId) sessionTtl, .sadd .users [toString userId]])

/-- The sessions of the debugger are moved to their own index. -/
def moveSwagger (userId : ℕ) (swagger : List String) : Part Unit :=
  if swagger = [] then ret ()
  else
    (sremMembers (.sessions userId) swagger).andThen fun _ =>
      pipeline [.sadd (.swagger userId) swagger, .expire (.swagger userId) tokenExpire]

/-- `get_user_sessions`; a set is a list in the order in which it is gone through. -/
def getUserSessions (userId : ℕ) : Part (List String) :=
  (ask (.smembers (.sessions userId))).andThen fun (indexed : List String) =>
  (if indexed = [] then ret [] else findSessions userId indexed).andThen fun found =>
  (moveSwagger userId ((found.filter fun f => isSwagger f.extra).map Found.sessionUuid)).andThen fun _ =>
    let live := (found.filter Found.live).map Found.sessionUuid
    (pipeline (indexCommands userId indexed live)).andThen fun _ => ret live

/-! ## Revoking -/

def sessionKeys (userId : ℕ) (sessionUuid : String) : List RedisKey :=
  [.access userId sessionUuid, .extraInfo userId sessionUuid, .refresh userId sessionUuid,
    .online sessionUuid]

/-- The sockets are closed in the background. -/
def disconnectAll (sids : List String) : Part Unit :=
  each (fun sid => (attempt (.disconnect sid "/")).andThen fun _ =>
    (attempt (.disconnect sid "/ws")).andThen fun _ => ret ()) sids

/-- `_revoke_sessions`. -/
def revokeSessions (userId : ℕ) (sessionUuids : List String) : Part Unit :=
  if sessionUuids = [] then ret ()
  else
    (smembersMany (sessionUuids.map .online)).andThen fun sidSets =>
    (deleteBatched (sessionUuids.flatMap (sessionKeys userId) ++ sidSets.flatten.map .socket)).andThen
      fun _ =>
    (sremMembers (.sessions userId) sessionUuids).andThen fun _ =>
    (sremMembers (.swagger userId) sessionUuids).andThen fun _ =>
    (ask (.smembers (.sessions userId))).andThen fun (left : List String) =>
    (if left = [] then ask (.srem .users [toString userId]) else ret ()).andThen fun _ =>
      disconnectAll sidSets.flatten

/-- `revoke_token`. -/
def revokeToken (userId : ℕ) (sessionUuid : String) : Part Unit := revokeSessions userId [sessionUuid]

/-- `revoke_user_tokens`. -/
def revokeUserTokens (userId : ℕ) (excludeSessionUuid : Option String) (includeSwagger : Bool) : Part Unit :=
  (getUserSessions userId).andThen fun live =>
  (if includeSwagger then ask (.smembers (.swagger userId)) else ret []).andThen
      fun (swagger : List String) =>
    let all := live ++ swagger.filter (· ∉ live)
    revokeSessions userId (all.filter fun sid => truthy excludeSessionUuid ≠ some sid)

/-! ## Making tokens -/

variable (jwt : Jwt)

/-- What `create_access_token` puts into Redis. -/
def accessCommands (userId : ℕ) (sessionUuid token : String) (swagger : Bool)
    (kwargs : List (String × Json)) : List SessionCall :=
  let extraInfo := if swagger then ("swagger", .bool true) :: kwargs else kwargs
  [.set (.access userId sessionUuid) (.token token) tokenExpire] ++
    (if extraInfo.isEmpty then []
    else [.set (.extraInfo userId sessionUuid) (.json (.dict extraInfo))
      (if swagger then tokenExpire else sessionTtl)]) ++
    if swagger then
      [.sadd (.swagger userId) [sessionUuid], .expire (.swagger userId) tokenExpire]
    else
      [.sadd (.sessions userId) [sessionUuid], .expire (.sessions userId) sessionTtl,
        .sadd .users [toString userId]]

/-- The end of `create_access_token`, once it is known which session the token is for. -/
def storeAccessToken (userId : ℕ) (multiLogin : Bool) (sessionUuid : String) (swagger : Bool)
    (kwargs : List (String × Json)) (expire : Moment) : Part AccessToken :=
  (ask .uuid4).andThen fun (jti : String) =>
    let token := jwt.encode ⟨sessionUuid, jti, expire, userId⟩
    (if !swagger && !multiLogin then revokeUserTokens userId (some sessionUuid) false
      else ret ()).andThen fun _ =>
    (pipeline (accessCommands userId sessionUuid token swagger kwargs)).andThen fun _ =>
      ret ⟨token, expire, sessionUuid⟩

/-- `session_uuid or str(uuid.uuid4())`. -/
def sessionUuidOr (sessionUuid : Option String) : Part String :=
  match truthy sessionUuid with
  | some sessionUuid => ret sessionUuid
  | none => ask .uuid4

/-- `create_access_token`. -/
def createAccessToken (userId : ℕ) (multiLogin : Bool) (sessionUuid : Option String) (swagger : Bool)
    (kwargs : List (String × Json)) : Part AccessToken :=
  (ask .now).andThen fun (now : Moment) =>
  (sessionUuidOr sessionUuid).andThen fun sessionUuid =>
    storeAccessToken jwt userId multiLogin sessionUuid swagger kwargs (now + tokenExpire)

/-- What `create_refresh_token` puts into Redis. -/
def refreshCommands (userId : ℕ) (sessionUuid token : String) : List SessionCall :=
  [.set (.refresh userId sessionUuid) (.token token) tokenRefreshExpire,
    .sadd (.sessions userId) [sessionUuid], .expire (.sessions userId) sessionTtl,
    .sadd .users [toString userId]]

/-- `create_refresh_token`. -/
def createRefreshToken (sessionUuid : String) (userId : ℕ) : Part RefreshToken :=
  (ask .now).andThen fun (now : Moment) =>
  (ask .uuid4).andThen fun (jti : String) =>
    let token := jwt.encode ⟨sessionUuid, jti, now + tokenRefreshExpire, userId⟩
    (pipeline (refreshCommands userId sessionUuid token)).andThen fun _ =>
      ret ⟨token, now + tokenRefreshExpire⟩

def storedToken : Option RedisText → Option String
  | some (.token text) => truthy (some text)
  | _ => none

/-- `create_new_token`. -/
def createNewToken (refreshToken sessionUuid : String) (userId : ℕ) (multiLogin : Bool)
    (kwargs : List (String × Json)) : Part NewToken :=
  (ask (.get (.refresh userId sessionUuid))).andThen fun (stored : Option RedisText) =>
  if storedToken stored ≠ some refreshToken then refuse ⟨.token, "Refresh Token 已过期，请重新登录"⟩
  else
    (createAccessToken jwt userId multiLogin (some sessionUuid) false kwargs).andThen fun access =>
    (createRefreshToken jwt sessionUuid userId).andThen fun refresh =>
      ret ⟨access.accessToken, access.accessTokenExpireTime, refresh.refreshToken,
        refresh.refreshTokenExpireTime, sessionUuid⟩

/-! ## Requests -/

def jwtDecodeNow (token : String) : Part (Except SessionError Payload) :=
  (ask .now).andThen fun (now : Moment) => ret (jwt.jwtDecode now token)

/-- `jwt_authentication`, up to the user's record. -/
def jwtAuthentication (token : String) : Part Unit :=
  (jwtDecodeNow jwt token).andThen fun
    | .error e => refuse e
    | .ok p =>
      (ask (.get (.access p.sub p.sessionUuid))).andThen fun (stored : Option RedisText) =>
      if !present stored then refuse ⟨.token, "Token 已过期"⟩
      else if storedToken stored ≠ some token then refuse ⟨.token, "Token 已失效"⟩
      else ask (.respond (.authenticated p.sub p.sessionUuid token))

/-- `login`, once the user has been verified. -/
def login (kwargs : List (String × Json)) : Part Unit :=
  (ask .verify).andThen fun (user : User) =>
  (createAccessToken jwt user.id user.isMultiLogin none false kwargs).andThen fun access =>
  (createRefreshToken jwt access.sessionUuid user.id).andThen fun refresh =>
    ask (.respond (.loggedIn access refresh))

/-- `swagger_login`. -/
def swaggerLogin : Part Unit :=
  (ask .verify).andThen fun (user : User) =>
  (createAccessToken jwt user.id user.isMultiLogin none true []).andThen fun access =>
    ask (.respond (.swaggerToken access.accessToken))

/-- A user who may not log in twice has a session elsewhere. -/
def loggedInElsewhere (user : User) (sessionUuid : String) : Part Bool :=
  if user.isMultiLogin then ret false
  else (getUserSessions user.id).andThen fun live => ret (live.any (· ≠ sessionUuid))

/-- `refresh_token`. -/
def refreshToken (cookie : Option String) (kwargs : List (String × Json)) : Part Unit :=
  match truthy cookie with
  | none => refuse ⟨.request, "Refresh Token 已过期，请重新登录"⟩
  | some token =>
    (jwtDecodeNow jwt token).andThen fun
      | .error e => refuse e
      | .ok p =>
        (ask (.getUser p.sub)).andThen fun
          | none => refuse ⟨.notFound, "用户不存在"⟩
          | some user =>
            if !user.status then refuse ⟨.authorization, "用户已被锁定, 请联系统管理员"⟩
            else
              (loggedInElsewhere user p.sessionUuid).andThen fun elsewhere =>
              if elsewhere then refuse ⟨.forbidden, "此用户已在异地登录，请重新登录并及时修改密码"⟩
              else
                (createNewToken jwt token p.sessionUuid user.id user.isMultiLogin kwargs).andThen fun new =>
                  ask (.respond (.renewed new))

/-- `logout`, with the token of the request's header. -/
def logout (token : Option String) : Part Unit :=
  match token with
  | none => ask (.respond .done)
  | some token =>
    (jwtDecodeNow jwt token).andThen fun
      | .error _ => ask (.respond .done)
      | .ok p => (revokeToken p.sub p.sessionUuid).andThen fun _ => ask (.respond .done)

inductive Begins : Part Unit → Prop
  | login (kwargs : List (String × Json)) : Begins (login jwt kwargs)
  | swaggerLogin : Begins (swaggerLogin jwt)
  | refreshToken (cookie : Option String) (kwargs : List (String × Json)) :
      Begins (refreshToken jwt cookie kwargs)
  | authenticate (token : String) : Begins (jwtAuthentication jwt token)
  | logout (token : Option String) : Begins (logout jwt token)
  | getUserSessions (userId : ℕ) : Begins ((getUserSessions userId).andThen fun _ => ret ())
  | revokeToken (userId : ℕ) (sessionUuid : String) : Begins (revokeToken userId sessionUuid)
  | revokeUserTokens (userId : ℕ) (excludeSessionUuid : Option String) :
      Begins (revokeUserTokens userId excludeSessionUuid true)
  | elsewhere (users : List User) (online : String → Option (Finset String × Option Moment)) :
      Begins (ask (.elsewhere users online))

/-! ## The world -/

/-- A call with the moment and the way in which it has ended. -/
structure Deed where
  time : Moment
  call : SessionCall
  answer : Option call.Answer

structure SessionWorld where
  clock : Moment
  users : List User
  /-- Texts, with the moments at which they expire. -/
  strings : RedisKey → Option (RedisText × Moment)
  /-- Sets that are not empty, with the moments at which they expire. -/
  sets : RedisKey → Option (Finset String × Option Moment)
  /-- The uuids that have been given out. -/
  uuids : List String
  log : List Deed

namespace SessionWorld

variable (s : SessionWorld)

/-- What `GET` answers. -/
def live (key : RedisKey) : Option RedisText :=
  ((s.strings key).filter fun x => s.clock < x.2).map Prod.fst

def liveSet (key : RedisKey) : Option (Finset String × Option Moment) :=
  (s.sets key).filter fun x => x.2.all fun stop => s.clock < stop

/-- What `SMEMBERS` finds. -/
def members (key : RedisKey) : Finset String := ((s.liveSet key).map Prod.fst).getD ∅

def putSet (key : RedisKey) (x : Option (Finset String × Option Moment)) : SessionWorld :=
  { s with sets := Function.update s.sets key x }

end SessionWorld

/-- How a call may be answered. A set is listed in any order. -/
def SessionCall.Allows (s : SessionWorld) : (w : SessionCall) → w.Answer → Prop
  | now, (time : Moment) => time = s.clock
  | uuid4, (uuid : String) => uuid ≠ "" ∧ uuid ∉ s.uuids
  | verify, (user : User) => user ∈ s.users
  | getUser id, (user : Option User) => user = s.users.find? fun user => user.id = id
  | get key, (r : Option RedisText) => r = s.live key
  | mget keys, (r : List (Option RedisText)) => r = keys.map s.live
  | smembers key, (r : List String) => r.Nodup ∧ r.toFinset = s.members key
  | _, _ => True

def SessionCall.effect (s : SessionWorld) : (w : SessionCall) → w.Answer → SessionWorld
  | uuid4, (uuid : String) => { s with uuids := uuid :: s.uuids }
  | set key text ex, _ => { s with strings := Function.update s.strings key (some (text, s.clock + ex)) }
  | sadd key members, _ =>
    s.putSet key (some (s.members key ∪ members.toFinset, (s.liveSet key).bind Prod.snd))
  | srem key members, _ =>
    let left := s.members key \ members.toFinset
    s.putSet key (if left = ∅ then none else some (left, (s.liveSet key).bind Prod.snd))
  | expire key ex, _ => s.putSet key ((s.liveSet key).map fun x => (x.1, some (s.clock + ex)))
  | delete keys, _ =>
    { s with
      strings := fun key => if key ∈ keys then none else s.strings key
      sets := fun key => if key ∈ keys then none else s.sets key }
  | elsewhere users online, _ =>
    { s with
      users := users
      sets := fun key => match key with
        | .online sessionUuid => online sessionUuid
        | key => s.sets key }
  | _, _ => s

namespace SessionWorld

def at_ (s : SessionWorld) (now : Moment) : SessionWorld := { s with clock := now }

def record (s : SessionWorld) (d : Deed) : SessionWorld := { s with log := s.log ++ [d] }

end SessionWorld

/-- A call is answered some time later. One that raises has had its effect or not. -/
inductive Answers : World SessionWorld SessionCall SessionCall.Answer
  | answer {s : SessionWorld} {w : SessionCall} {r : w.Answer} {now : Moment} (hnow : s.clock ≤ now)
      (h : w.Allows (s.at_ now) r) :
      Answers s w (some r) ((w.effect (s.at_ now) r).record ⟨now, w, some r⟩)
  | raise {s : SessionWorld} {w : SessionCall} {now : Moment} (hnow : s.clock ≤ now) :
      Answers s w none ((s.at_ now).record ⟨now, w, none⟩)
  | lose {s : SessionWorld} {w : SessionCall} {r : w.Answer} {now : Moment} (hnow : s.clock ≤ now)
      (h : w.Allows (s.at_ now) r) :
      Answers s w none ((w.effect (s.at_ now) r).record ⟨now, w, none⟩)

end TgPlatform.Sessions
