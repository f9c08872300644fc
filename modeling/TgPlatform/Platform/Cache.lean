import Mathlib.Logic.Function.Basic
import TgPlatform.Lib.Coroutine
import TgPlatform.Lib.Json

/-! # The cache in two levels

What a cached function has computed is kept by the process and by Redis, each for
a time. Whoever changes the data drops the copy of the own process, tells the
other processes by a message and deletes the key in Redis. The tasks of all
processes take turns at every command, and every command may raise, before or
after it has had its effect.
-/

namespace TgPlatform.Caching

open Coroutine

/-- Microseconds. -/
abbrev Moment : Type := ℕ

def second : Moment := 1000000

structure CacheSettings where
  /-- `CACHE_LOCAL_ENABLED`. -/
  localEnabled : Bool
  /-- `CACHE_LOCAL_TTL`, in seconds. -/
  localTtl : ℕ
  /-- `CACHE_REDIS_TTL`, in seconds; `0` is for ever. -/
  redisTtl : ℕ
  /-- `CACHE_PUBSUB_MAX_RECONNECT_ATTEMPTS`. -/
  maxReconnectAttempts : ℕ

namespace CacheSettings

variable (c : CacheSettings)

def localLifetime : Moment := c.localTtl * second

/-- The `ex` of a key. -/
def redisLifetime : Option Moment := if c.redisTtl = 0 then none else some (c.redisTtl * second)

end CacheSettings

/-- `_serialize_result` and `_deserialize_result`. A value is `none` where it is `None`; what cannot
be serialized raises. -/
structure Codec (V : Type) where
  serialize : V → Option String
  deserialize : String → Option V

/-! ## Keys -/

/-- An argument as the text it has in a key, unless it is `None`, with its attributes and, where it
is a dict, its entries. -/
structure Arg where
  text : Option String
  isList : Bool
  attrs : List (String × Option String)
  entries : List (String × Option String)

abbrev Kwargs : Type := List (String × Arg)

structure CacheError where
  msg : String
  deriving DecidableEq, Repr

/-- What a function is decorated with. -/
structure Decorator where
  namespace_ : String
  key : Option String
  keyBuilder : Option (Kwargs → Except CacheError String)
  exclusive : key = none ∨ keyBuilder = none

def Arg.field (a : Arg) (field : String) : Except CacheError (Option String) :=
  if a.isList then .error ⟨"缓存键构建失败：不支持从列表中提取字段，请使用 key_builder 处理列表参数"⟩
  else
    match a.attrs.lookup field <|> a.entries.lookup field with
    | some value => .ok value
    | none => .error ⟨"缓存键构建失败，对象中不存在字段 \"" ++ field ++ "\""⟩

/-- What a key says of the arguments: one of them, or a field of one. -/
def keyValue (key : String) (kwargs : Kwargs) : Except CacheError (Option String) :=
  let param := String.ofList (key.toList.takeWhile (· ≠ '.'))
  match kwargs.lookup param with
  | none => .error ⟨"缓存键构建失败，参数 \"" ++ param ++ "\" 不存在"⟩
  | some a =>
    if '.' ∈ key.toList then a.field (String.ofList ((key.toList.dropWhile (· ≠ '.')).tail))
    else .ok a.text

/-- `_build_cache_key`. -/
def Decorator.buildCacheKey (d : Decorator) (kwargs : Kwargs) : Except CacheError String :=
  match truthy d.key, d.keyBuilder with
  | some key, _ => (keyValue key kwargs).map fun value => d.namespace_ ++ ":" ++ value.getD "none"
  | none, some build => (build kwargs).map fun value => d.namespace_ ++ ":" ++ value
  | none, none => .ok d.namespace_

/-! ## Calls -/

/-- What is to be dropped: one key, or all keys of a namespace. -/
structure Message where
  cacheKey : String
  deleteByPrefix : Bool
  deriving DecidableEq, Repr

def Message.Covers (m : Message) (key : String) : Prop :=
  key = m.cacheKey ∨ m.deleteByPrefix = true ∧ (m.cacheKey ++ ":").toList <+: key.toList

instance (m : Message) (key : String) : Decidable (m.Covers key) :=
  inferInstanceAs (Decidable (_ ∨ _ ∧ _))

structure Caller where
  node : ℕ
  task : ℕ
  deriving DecidableEq, Repr

inductive Response (V : Type)
  | value (key : String) (value : Option V)
  | updated (result : Option V)
  | error (e : CacheError)

/-- What a task asks of its process, of Redis and of the functions that are decorated. -/
inductive Command (V : Type)
  | compute (d : Decorator) (name : String) (kwargs : Kwargs)
  | update (name : String) (kwargs : Kwargs)
  | localGet (key : String)
  | localSet (key : String) (value : Option V)
  | localDelete (m : Message)
  | get (key : String)
  | set (key text : String) (ex : Option Moment)
  | delete (keys : List String)
  | exists_ (key : String)
  | scan (keyPrefix : String) (cursor : ℕ)
  | publish (m : Message)
  | subscribe
  | getMessage
  | close
  | respond (r : Response V)
  /-- The process or Redis has no room for some keys. -/
  | evict (keys : List String)
  | expel (keys : List String)

abbrev Command.Answer {V : Type} : Command V → Type
  | compute .. | update .. | localGet _ => Option V
  | get _ => Option String
  | exists_ _ => Bool
  | scan .. => ℕ × List String
  | getMessage => Option Message
  | _ => Unit

structure CacheCall (V : Type) where
  who : Caller
  command : Command V

abbrev CacheCall.Answer {V : Type} (w : CacheCall V) : Type := w.command.Answer

abbrev Part (V α : Type) : Type := Coroutine (CacheCall V) CacheCall.Answer α

variable {V : Type}

/-- A call whose exception goes on. -/
abbrev ask (me : Caller) (w : Command V) : Part V w.Answer := request (CacheCall.mk me w)

abbrev try_ (me : Caller) (w : Command V) : Part V (Option w.Answer) :=
  attempt (CacheCall.mk me w)

def refuse {α : Type} (me : Caller) (e : CacheError) : Part V α :=
  call ⟨me, .respond (.error e)⟩ (fun _ => raise) raise

/-! ## Cached functions -/

variable (c : CacheSettings) (codec : Codec V)

section Tasks

variable (me : Caller)

def fill (key : String) (value : Option V) : Part V Unit :=
  if c.localEnabled then ask me (.localSet key value) else ret ()

def fromLocal (key : String) : Part V (Option V) :=
  if c.localEnabled then ask me (.localGet key) else ret none

def fromRedis (key : String) : Part V (Option (Option V)) :=
  (ask me (.get key)).andThen fun (redisValue : Option String) =>
    match redisValue with
    | none => ret none
    | some text => (fill c me key (codec.deserialize text)).andThen fun _ =>
        ret (some (codec.deserialize text))

/-- A value that has been computed is put into both levels. -/
def keep (key : String) (value : V) : Part V Unit :=
  match codec.serialize value with
  | none => raise
  | some text =>
    (fill c me key (codec.deserialize text)).andThen fun _ => ask me (.set key text c.redisLifetime)

def keepResult (key : String) : Option V → Part V Unit
  | none => ret ()
  | some value => (caught (keep c codec me key value)).andThen fun _ => ret ()

/-- What is done where neither level has the key. -/
def computed (d : Decorator) (name : String) (kwargs : Kwargs) (key : String) : Part V Unit :=
  (ask me (.compute d name kwargs)).andThen fun (result : Option V) =>
  (keepResult c codec me key result).andThen fun _ => ask me (.respond (.value key result))

/-- What is done where the process does not have the key. -/
def looked (d : Decorator) (name : String) (kwargs : Kwargs) (key : String) : Part V Unit :=
  (caught (fromRedis c codec me key)).andThen fun
    | some (some result) => ask me (.respond (.value key result))
    | _ => computed c codec me d name kwargs key

/-- The wrapper of `cached`. -/
def cached (d : Decorator) (name : String) (kwargs : Kwargs) : Part V Unit :=
  match d.buildCacheKey kwargs with
  | .error e => refuse me e
  | .ok key =>
    (fromLocal c me key).andThen fun (localValue : Option V) =>
    match localValue with
    | some value => ask me (.respond (.value key (some value)))
    | none => looked c codec me d name kwargs key

/-! ## Invalidation -/

/-- The keys of a page are deleted whenever a thousand have come together; the others are kept. -/
def deletePage : List String → List String → Part V (List String)
  | [], batchKeys => ret batchKeys
  | key :: page, batchKeys =>
    if 1000 ≤ (batchKeys ++ [key]).length then
      (ask me (.delete (batchKeys ++ [key]))).andThen fun _ => deletePage page []
    else deletePage page (batchKeys ++ [key])

/-- `scan_iter`, for a number of pages at most: a scan that goes on for longer gets no further than one
that raises. -/
def scanPages (keyPrefix : String) : ℕ → ℕ → List String → Part V (List String)
  | 0, _, _ => raise
  | n + 1, cursor, batchKeys =>
    (ask me (.scan keyPrefix cursor)).andThen fun (answer : ℕ × List String) =>
    (deletePage me answer.2 batchKeys).andThen fun batchKeys =>
      if answer.1 = 0 then ret batchKeys else scanPages keyPrefix n answer.1 batchKeys

/-- `delete_by_prefix` of Redis. -/
def deleteByPrefix (keyPrefix : String) (pages : ℕ) : Part V Unit :=
  (ask me (.exists_ keyPrefix)).andThen fun (there : Bool) =>
  (scanPages me keyPrefix pages 0 (if there then [keyPrefix] else [])).andThen fun batchKeys =>
    if batchKeys = [] then ret () else ask me (.delete batchKeys)

/-- `publish_invalidation`. -/
def publishInvalidation (m : Message) : Part V Unit :=
  (try_ me (.publish m)).andThen fun _ => ret ()

/-- The key of the call is dropped from both levels. -/
def invalidate (d : Decorator) (kwargs : Kwargs) (pages : ℕ) : Part V Unit :=
  match d.buildCacheKey kwargs with
  | .error _ => raise
  | .ok key =>
    (if c.localEnabled then ask me (.localDelete ⟨key, key = d.namespace_⟩) else ret ()).andThen fun _ =>
    (if c.localEnabled then publishInvalidation me ⟨key, key = d.namespace_⟩ else ret ()).andThen fun _ =>
      if key = d.namespace_ then deleteByPrefix me key pages else ask me (.delete [key])

/-- The wrapper of `cache_invalidate`. -/
def cacheInvalidate (d : Decorator) (atomic : Bool) (name : String) (kwargs : Kwargs) (pages : ℕ) :
    Part V Unit :=
  (ask me (.update name kwargs)).andThen fun (result : Option V) =>
  (caught (invalidate c me d kwargs pages)).andThen fun invalidated =>
    if atomic && invalidated.isNone then refuse me ⟨"缓存失效失败，数据可能不一致"⟩
    else ask me (.respond (.updated result))

/-! ## The listener -/

/-- The messages that come while the connection holds, for a number of polls at most. -/
def pollMessages : ℕ → Part V Unit
  | 0 => raise
  | n + 1 =>
    (ask me .getMessage).andThen fun (message : Option Message) =>
    match message with
    | none => pollMessages n
    | some m => (try_ me (.localDelete m)).andThen fun _ => pollMessages n

/-- The attempts to connect that have failed, after one more. -/
def connection (polls reconnectAttempts : ℕ) : Option Unit → Part V ℕ
  | none => ret (reconnectAttempts + 1)
  | some _ => (caught (pollMessages me polls)).andThen fun _ => ret 1

/-- `subscribe_and_listen`. -/
def subscribeAndListen : ℕ → ℕ → Part V Unit
  | 0, _ => ret ()
  | n + 1, reconnectAttempts =>
    if reconnectAttempts < c.maxReconnectAttempts then
      (try_ me .subscribe).andThen fun subscribed =>
      (connection me n reconnectAttempts subscribed).andThen fun reconnectAttempts =>
      (try_ me .close).andThen fun _ => subscribeAndListen n reconnectAttempts
    else ret ()

end Tasks

inductive Begins : Part V Unit → Prop
  | cached (me : Caller) (d : Decorator) (name : String) (kwargs : Kwargs) :
      Begins (cached c codec me d name kwargs)
  | cacheInvalidate (me : Caller) (d : Decorator) (atomic : Bool) (name : String) (kwargs : Kwargs)
      (pages : ℕ) : Begins (cacheInvalidate c me d atomic name kwargs pages)
  | listen (me : Caller) (polls : ℕ) : Begins (subscribeAndListen c me polls 0)
  | evict (me : Caller) (keys : List String) : Begins (ask me (.evict keys))
  | expel (me : Caller) (keys : List String) : Begins (ask me (.expel keys))

/-! ## The world -/

/-- A call with the moment and the way in which it has ended. -/
structure Deed (V : Type) where
  time : Moment
  call : CacheCall V
  answer : Option call.Answer

structure CacheWorld (V : Type) where
  clock : Moment
  /-- What the processes keep, with the moments at which it expires. -/
  hotCache : ℕ → String → Option (Option V × Moment)
  /-- What Redis keeps. -/
  strings : String → Option (String × Option Moment)
  /-- The messages that a subscribed process has still to take. -/
  inbox : ℕ → Option (List Message)
  log : List (Deed V)

namespace CacheWorld

variable (s : CacheWorld V)

/-- What a process finds under a key; `None` is no better than nothing. -/
def hot (node : ℕ) (key : String) : Option V :=
  ((s.hotCache node key).filter fun x => s.clock < x.2).bind Prod.fst

/-- What `GET` answers. -/
def live (key : String) : Option String :=
  ((s.strings key).filter fun x => x.2.all fun stop => s.clock < stop).map Prod.fst

def putHot (node : ℕ) (hot : String → Option (Option V × Moment)) : CacheWorld V :=
  { s with hotCache := Function.update s.hotCache node hot }

def at_ (now : Moment) : CacheWorld V := { s with clock := now }

def record (d : Deed V) : CacheWorld V := { s with log := s.log ++ [d] }

end CacheWorld

/-- How a call may be answered. Redis may list any keys, page by page, and a message takes its time. -/
def CacheCall.Allows (s : CacheWorld V) : (w : CacheCall V) → w.Answer → Prop
  | ⟨who, .localGet key⟩, (r : Option V) => r = s.hot who.node key
  | ⟨_, .get key⟩, (r : Option String) => r = s.live key
  | ⟨_, .exists_ key⟩, (r : Bool) => r = (s.live key).isSome
  | ⟨who, .getMessage⟩, (r : Option Message) =>
    ∃ messages, s.inbox who.node = some messages ∧ (r = none ∨ r = messages.head?)
  | _, _ => True

def CacheCall.effect (s : CacheWorld V) : (w : CacheCall V) → w.Answer → CacheWorld V
  | ⟨who, .localSet key value⟩, _ =>
    s.putHot who.node (Function.update (s.hotCache who.node) key (some (value, s.clock + c.localLifetime)))
  | ⟨who, .localDelete m⟩, _ =>
    s.putHot who.node fun key => if m.Covers key then none else s.hotCache who.node key
  | ⟨who, .evict keys⟩, _ => s.putHot who.node fun key => if key ∈ keys then none else s.hotCache who.node key
  | ⟨_, .set key text ex⟩, _ =>
    { s with strings := Function.update s.strings key (some (text, ex.map (s.clock + ·))) }
  | ⟨_, .delete keys⟩, _ => { s with strings := fun key => if key ∈ keys then none else s.strings key }
  | ⟨_, .expel keys⟩, _ => { s with strings := fun key => if key ∈ keys then none else s.strings key }
  | ⟨_, .publish m⟩, _ => { s with inbox := fun node => (s.inbox node).map (· ++ [m]) }
  | ⟨who, .subscribe⟩, _ => { s with inbox := Function.update s.inbox who.node (some []) }
  | ⟨who, .close⟩, _ => { s with inbox := Function.update s.inbox who.node none }
  | ⟨who, .getMessage⟩, (r : Option Message) =>
    { s with inbox := Function.update s.inbox who.node ((s.inbox who.node).map fun messages =>
        if r.isSome then messages.tail else messages) }
  | _, _ => s

/-- A call is answered some time later. One that raises has had its effect or not. -/
inductive Answers : World (CacheWorld V) (CacheCall V) CacheCall.Answer
  | answer {s : CacheWorld V} {w : CacheCall V} {r : w.Answer} {now : Moment} (hnow : s.clock ≤ now)
      (h : w.Allows (s.at_ now) r) :
      Answers s w (some r) ((w.effect c (s.at_ now) r).record ⟨now, w, some r⟩)
  | raise {s : CacheWorld V} {w : CacheCall V} {now : Moment} (hnow : s.clock ≤ now) :
      Answers s w none ((s.at_ now).record ⟨now, w, none⟩)
  | lose {s : CacheWorld V} {w : CacheCall V} {r : w.Answer} {now : Moment} (hnow : s.clock ≤ now)
      (h : w.Allows (s.at_ now) r) :
      Answers s w none ((w.effect c (s.at_ now) r).record ⟨now, w, none⟩)

end TgPlatform.Caching
