import Mathlib.Data.List.Infix
import TgPlatform.Lib.Trace
import TgPlatform.Platform.Cache

/-! # Where a cached value comes from

A value that a cached function gives is the result of this very call, or Redis
has given it back in time, or the process had it from such a call in time, and
nothing has dropped it in between. Once a key is dropped from Redis and from a
process, and no call under way has been given a value for it, the process gives
only values that have been computed since.
-/

namespace TgPlatform.Caching

open Coroutine
open Trace (Standing Throughout)

variable {V : Type}

/-! ## Places -/

inductive Place
  | redis (key : String)
  | hot (node : ℕ) (key : String)

def CacheCall.Sets : CacheCall V → Place → Prop
  | ⟨_, .set key' _ _⟩, .redis key => key = key'
  | ⟨who, .localSet key' _⟩, .hot node key => node = who.node ∧ key = key'
  | _, _ => False

def CacheCall.Drops : CacheCall V → Place → Prop
  | ⟨_, .delete keys⟩, .redis key => key ∈ keys
  | ⟨_, .expel keys⟩, .redis key => key ∈ keys
  | ⟨who, .localDelete m⟩, .hot node key => node = who.node ∧ m.Covers key
  | ⟨who, .evict keys⟩, .hot node key => node = who.node ∧ key ∈ keys
  | _, _ => False

/-- What was there is not there any more, and the caller knows. -/
def Deed.Clears (place : Place) (d : Deed V) : Prop :=
  d.answer.isSome = true ∧ (d.call.Sets place ∨ d.call.Drops place)

/-- Whatever has been put there has been taken away since. -/
def Cleared (place : Place) (log : List (Deed V)) : Prop :=
  ∀ pre d post, log = pre ++ d :: post → d.call.Sets place →
    ∃ d' ∈ post, d'.answer.isSome = true ∧ d'.call.Drops place

/-! ## Where values come from -/

section Sources

variable (c : CacheSettings) (codec : Codec V)

/-- The task has computed the result by a function that is cached under the key. -/
def Computed (who : Caller) (key : String) (result : Option V) (log : List (Deed V)) : Prop :=
  ∃ d name kwargs time, d.buildCacheKey kwargs = .ok key ∧
    ⟨time, ⟨who, .compute d name kwargs⟩, some result⟩ ∈ log

/-- The text stands for a value that the task has computed. -/
def Serialized (who : Caller) (key text : String) (log : List (Deed V)) : Prop :=
  ∃ value, Computed who key (some value) log ∧ codec.serialize value = some text

/-- Redis has given the task a text in time that another one had computed. -/
def FromRedis (who : Caller) (key text : String) (log : List (Deed V)) : Prop :=
  ∃ pre savedAt writer r mid readAt rest,
    log = pre ++ ⟨savedAt, ⟨writer, .set key text c.redisLifetime⟩, r⟩ ::
      (mid ++ ⟨readAt, ⟨who, .get key⟩, some (some text)⟩ :: rest) ∧
    (∀ ex, c.redisLifetime = some ex → readAt < savedAt + ex) ∧
    (∀ d ∈ mid, ¬ d.Clears (.redis key)) ∧ Serialized codec writer key text pre

/-- What a task may let its process keep. -/
def Fills (who : Caller) (key : String) (value : Option V) (log : List (Deed V)) : Prop :=
  ∃ text, value = codec.deserialize text ∧
    (Serialized codec who key text log ∨ FromRedis c codec who key text log)

/-- The process has given the task a value in time that another task of it may have kept. -/
def FromLocal (who : Caller) (key : String) (value : V) (log : List (Deed V)) : Prop :=
  ∃ pre savedAt writer r mid readAt rest,
    log = pre ++ ⟨savedAt, ⟨writer, .localSet key (some value)⟩, r⟩ ::
      (mid ++ ⟨readAt, ⟨who, .localGet key⟩, some (some value)⟩ :: rest) ∧
    writer.node = who.node ∧ readAt < savedAt + c.localLifetime ∧
    (∀ d ∈ mid, ¬ d.Clears (.hot who.node key)) ∧ Fills c codec writer key (some value) pre

/-- What a task may give its caller. -/
inductive Sourced (who : Caller) (key : String) : Option V → List (Deed V) → Prop
  | computed {result : Option V} {log : List (Deed V)} (h : Computed who key result log) :
      Sourced who key result log
  | redis {text : String} {log : List (Deed V)} (h : FromRedis c codec who key text log) :
      Sourced who key (codec.deserialize text) log
  | hot {value : V} {log : List (Deed V)} (h : FromLocal c codec who key value log) :
      Sourced who key (some value) log

/-- As far as one key and one process go, the call is right after what has been done. -/
def Lawful (node : ℕ) (key : String) (log : List (Deed V)) : CacheCall V → Prop
  | ⟨who, .set key' text ex⟩ => key' = key → ex = c.redisLifetime ∧ Serialized codec who key text log
  | ⟨who, .localSet key' value⟩ => who.node = node → key' = key → Fills c codec who key value log
  | ⟨who, .respond (.value key' value)⟩ => who.node = node → key' = key → Sourced c codec who key value log
  | _ => True

end Sources

/-- What has been done since the log had `n` entries. -/
def CacheWorld.since (n : ℕ) (s : CacheWorld V) : List (Deed V) := s.log.drop n

/-- All calls since have been lawful, and what is kept under the key has been put there last, since
then. -/
structure Inv (c : CacheSettings) (codec : Codec V) (node : ℕ) (key : String) (n : ℕ) (s : CacheWorld V) :
    Prop where
  long : n ≤ s.log.length
  lawful : Throughout (fun pre d => Lawful c codec node key pre d.call) (s.since n)
  redis : ∀ text stop, s.strings key = some (text, stop) →
    Standing (fun _ d => ∃ savedAt who ex r, d = ⟨savedAt, ⟨who, .set key text ex⟩, r⟩ ∧
      stop = ex.map (savedAt + ·)) (Deed.Clears (.redis key)) (s.since n)
  hot : ∀ value stop, s.hotCache node key = some (value, stop) →
    Standing (fun _ d => ∃ savedAt who r, d = ⟨savedAt, ⟨who, .localSet key value⟩, r⟩ ∧
      who.node = node ∧ stop = savedAt + c.localLifetime) (Deed.Clears (.hot node key)) (s.since n)

def Later (s s' : CacheWorld V) : Prop := s.log <+: s'.log

instance : IsPreorder (CacheWorld V) Later where
  refl s := List.prefix_refl s.log
  trans _ _ _ h h' := List.IsPrefix.trans h h'

section Log

variable {c : CacheSettings} {codec : Codec V} {s s' : CacheWorld V} {w : CacheCall V} {r : Option w.Answer}
  {who : Caller} {node n : ℕ} {key text : String} {value : Option V} {log log' : List (Deed V)}
  {stop : Moment}

theorem Computed.mono (h : Computed who key value log) (hle : log <+: log') :
    Computed who key value log' := by
  obtain ⟨d, name, kwargs, time, hkey, hmem⟩ := h
  exact ⟨d, name, kwargs, time, hkey, hle.subset hmem⟩

theorem Serialized.mono (h : Serialized codec who key text log) (hle : log <+: log') :
    Serialized codec who key text log' := by
  obtain ⟨value, hcomputed, htext⟩ := h
  exact ⟨value, hcomputed.mono hle, htext⟩

theorem FromRedis.mono (h : FromRedis c codec who key text log) (hle : log <+: log') :
    FromRedis c codec who key text log' := by
  obtain ⟨pre, savedAt, writer, r, mid, readAt, rest, rfl, h⟩ := h
  obtain ⟨more, rfl⟩ := hle
  exact ⟨pre, savedAt, writer, r, mid, readAt, rest ++ more, by simp, h⟩

theorem FromLocal.mono {value : V} (h : FromLocal c codec who key value log) (hle : log <+: log') :
    FromLocal c codec who key value log' := by
  obtain ⟨pre, savedAt, writer, r, mid, readAt, rest, rfl, h⟩ := h
  obtain ⟨more, rfl⟩ := hle
  exact ⟨pre, savedAt, writer, r, mid, readAt, rest ++ more, by simp, h⟩

theorem Fills.mono (h : Fills c codec who key value log) (hle : log <+: log') :
    Fills c codec who key value log' := by
  obtain ⟨text, hvalue, h | h⟩ := h
  · exact ⟨text, hvalue, .inl (h.mono hle)⟩
  · exact ⟨text, hvalue, .inr (h.mono hle)⟩

theorem Sourced.mono (h : Sourced c codec who key value log) (hle : log <+: log') :
    Sourced c codec who key value log' := by
  cases h with
  | computed h => exact .computed (h.mono hle)
  | redis h => exact .redis (h.mono hle)
  | hot h => exact .hot (h.mono hle)

/-! ## One call -/

@[simp]
theorem log_effect (a : w.Answer) : (w.effect c s a).log = s.log := by
  obtain ⟨who, command⟩ := w
  cases command <;> rfl

theorem Later.since (h : Later s s') : s.since n <+: s'.since n := List.IsPrefix.drop h n

theorem strings_effect {stop : Option Moment} {a : w.Answer}
    (h : (w.effect c s a).strings key = some (text, stop)) :
    (s.strings key = some (text, stop) ∧ ¬ w.Sets (.redis key) ∧ ¬ w.Drops (.redis key)) ∨
      ∃ ex, w.command = .set key text ex ∧ stop = ex.map (s.clock + ·) := by
  obtain ⟨who, command⟩ := w
  cases command with
  | set key' text' ex =>
    change Function.update s.strings key' (some (text', ex.map (s.clock + ·))) key = _ at h
    by_cases hkey : key = key'
    · subst hkey
      rw [Function.update_self] at h
      cases h
      exact .inr ⟨ex, rfl, rfl⟩
    · rw [Function.update_of_ne hkey] at h
      exact .inl ⟨h, hkey, id⟩
  | delete keys | expel keys =>
    change (if key ∈ keys then none else s.strings key) = _ at h
    split at h
    · cases h
    · exact .inl ⟨h, id, ‹_›⟩
  | _ => exact .inl ⟨h, id, id⟩

theorem hotCache_putHot {hot : String → Option (Option V × Moment)} {node' : ℕ}
    (h : (s.putHot node' hot).hotCache node key = some (value, stop)) :
    (node = node' ∧ hot key = some (value, stop)) ∨
      (node ≠ node' ∧ s.hotCache node key = some (value, stop)) := by
  change Function.update s.hotCache node' hot node key = _ at h
  by_cases hnode : node = node'
  · subst hnode
    rw [Function.update_self] at h
    exact .inl ⟨rfl, h⟩
  · rw [Function.update_of_ne hnode] at h
    exact .inr ⟨hnode, h⟩

theorem hotCache_effect {a : w.Answer} (h : (w.effect c s a).hotCache node key = some (value, stop)) :
    (s.hotCache node key = some (value, stop) ∧ ¬ w.Sets (.hot node key) ∧ ¬ w.Drops (.hot node key)) ∨
      w.who.node = node ∧ w.command = .localSet key value ∧ stop = s.clock + c.localLifetime := by
  obtain ⟨who, command⟩ := w
  cases command with
  | localSet key' value' =>
    rcases hotCache_putHot h with ⟨rfl, hhot⟩ | ⟨hnode, hhot⟩
    · by_cases hkey : key = key'
      · subst hkey
        rw [Function.update_self] at hhot
        cases hhot
        exact .inr ⟨rfl, rfl, rfl⟩
      · rw [Function.update_of_ne hkey] at hhot
        exact .inl ⟨hhot, fun hset => hkey hset.2, id⟩
    · exact .inl ⟨hhot, fun hset => hnode hset.1, id⟩
  | localDelete _ | evict _ =>
    rcases hotCache_putHot h with ⟨rfl, hhot⟩ | ⟨hnode, hhot⟩
    · split at hhot
      · cases hhot
      · exact .inl ⟨hhot, id, fun hdrop => absurd hdrop.2 ‹_›⟩
    · exact .inl ⟨hhot, id, fun hdrop => hnode hdrop.1⟩
  | _ => exact .inl ⟨h, id, id⟩

theorem effect_of_answers (h : Answers c s w r s') : ∃ now, s'.log = s.log ++ [⟨now, w, r⟩] ∧
    ((r = none ∧ s'.strings = s.strings ∧ s'.hotCache = s.hotCache) ∨
      ∃ a, s'.strings = (w.effect c (s.at_ now) a).strings ∧
        s'.hotCache = (w.effect c (s.at_ now) a).hotCache) := by
  cases h with
  | @answer _ _ a now _ _ | @lose _ _ a now _ _ =>
    exact ⟨now, congrArg (· ++ _) (log_effect (s := s.at_ now) a), .inr ⟨a, rfl, rfl⟩⟩
  | @raise _ _ now _ => exact ⟨now, rfl, .inl ⟨rfl, rfl, rfl⟩⟩

theorem later_of_answers (h : Answers c s w r s') : Later s s' := by
  obtain ⟨now, hlog, -⟩ := effect_of_answers h
  exact ⟨_, hlog.symm⟩

theorem since_of_answers (hn : n ≤ s.log.length) (h : Answers c s w r s') :
    ∃ now, s'.since n = s.since n ++ [⟨now, w, r⟩] := by
  obtain ⟨now, hlog, -⟩ := effect_of_answers h
  refine ⟨now, ?_⟩
  unfold CacheWorld.since
  rw [hlog, List.drop_append_of_le_length hn]

/-! ## The invariant -/

theorem Inv.call (hI : Inv c codec node key n s) (hlaw : Lawful c codec node key (s.since n) w)
    (h : Answers c s w r s') : Inv c codec node key n s' := by
  obtain ⟨now, hlog, heffect⟩ := effect_of_answers h
  have hsince : s'.since n = s.since n ++ [⟨now, w, r⟩] := by
    unfold CacheWorld.since
    rw [hlog, List.drop_append_of_le_length hI.long]
  constructor
  · rw [hlog, List.length_append]
    exact hI.long.trans (Nat.le_add_right ..)
  · rw [hsince]
    exact hI.lawful.snoc hlaw
  · intro text stop hkey
    rw [hsince]
    rcases heffect with ⟨rfl, hstrings, -⟩ | ⟨a, hstrings, -⟩
    · rw [hstrings] at hkey
      exact (hI.redis text stop hkey).snoc fun hclears => Bool.false_ne_true hclears.1
    · rw [hstrings] at hkey
      rcases strings_effect (s := s.at_ now) hkey with ⟨hold, hsets, hdrops⟩ | ⟨ex, hset, hstop⟩
      · exact (hI.redis text stop hold).snoc fun hclears => hclears.2.elim hsets hdrops
      · obtain ⟨who, command⟩ := w
        cases hset
        exact Trace.standing_last ⟨now, who, ex, r, rfl, hstop⟩
  · intro value stop hkey
    rw [hsince]
    rcases heffect with ⟨rfl, -, hhot⟩ | ⟨a, -, hhot⟩
    · rw [hhot] at hkey
      exact (hI.hot value stop hkey).snoc fun hclears => Bool.false_ne_true hclears.1
    · rw [hhot] at hkey
      rcases hotCache_effect (s := s.at_ now) hkey with ⟨hold, hsets, hdrops⟩ | ⟨hnode, hset, hstop⟩
      · exact (hI.hot value stop hold).snoc fun hclears => hclears.2.elim hsets hdrops
      · obtain ⟨who, command⟩ := w
        cases hset
        exact Trace.standing_last ⟨now, who, r, rfl, hnode, hstop⟩

theorem Inv.fromRedis (hI : Inv c codec node key n s)
    (h : Answers c s ⟨who, .get key⟩ (some (some text)) s') :
    FromRedis c codec who key text (s'.since n) := by
  cases h with
  | @answer _ _ _ now hnow hread =>
    obtain ⟨⟨text', stop⟩, hx, rfl⟩ := Option.map_eq_some_iff.mp (Eq.symm hread)
    obtain ⟨hkept, hlive⟩ := Option.filter_eq_some_iff.mp hx
    obtain ⟨pre, d, mid, hlog, ⟨savedAt, writer, ex, r, rfl, hstop⟩, hmid⟩ := hI.redis text' stop hkept
    obtain ⟨rfl, hserialized⟩ := hI.lawful pre _ mid hlog rfl
    refine ⟨pre, savedAt, writer, r, mid, now, [], ?_, fun ex hex => ?_, hmid, hserialized⟩
    · change List.drop n (s.log ++ [_]) = _
      rw [List.drop_append_of_le_length hI.long]
      change s.since n ++ [_] = _
      rw [hlog]
      simp
    · rw [hstop, hex] at hlive
      exact of_decide_eq_true hlive

theorem Inv.fromLocal {value : V} (hI : Inv c codec node key n s) (hnode : who.node = node)
    (h : Answers c s ⟨who, .localGet key⟩ (some (some value)) s') :
    FromLocal c codec who key value (s'.since n) := by
  subst hnode
  cases h with
  | @answer _ _ _ now hnow hread =>
    obtain ⟨⟨value', stop⟩, hx, rfl⟩ := Option.bind_eq_some_iff.mp (Eq.symm hread)
    obtain ⟨hkept, hlive⟩ := Option.filter_eq_some_iff.mp hx
    obtain ⟨pre, d, mid, hlog, ⟨savedAt, writer, r, rfl, hnode, rfl⟩, hmid⟩ := hI.hot (some value) stop hkept
    have hfills := hI.lawful pre _ mid hlog hnode rfl
    refine ⟨pre, savedAt, writer, r, mid, now, [], ?_, hnode, of_decide_eq_true hlive, hmid, hfills⟩
    change List.drop n (s.log ++ [_]) = _
    rw [List.drop_append_of_le_length hI.long]
    change s.since n ++ [_] = _
    rw [hlog]
    simp

end Log

/-! ## Tasks that leave the key alone -/

abbrev Only {α : Type} (p : CacheCall V → Prop) (Q : α → Prop) (t : Part V α) : Prop :=
  Until (fun _ _ => False) p Q t

def Harmless (c : CacheSettings) (codec : Codec V) (node : ℕ) (key : String) (w : CacheCall V) : Prop :=
  ∀ log, Lawful c codec node key log w

section Parts

variable {c : CacheSettings} {codec : Codec V} {me : Caller} {node : ℕ} {key key' : String}
  {p : CacheCall V → Prop} {α β : Type} {Q : β → Prop} {w : Command V}

theorem only_ask {k : w.Answer → Part V β} (hw : p ⟨me, w⟩) (hk : ∀ a, Only p Q (k a)) :
    Only p Q ((ask me w).andThen k) :=
  until_then (until_request hw fun _ _ => trivial) fun a _ => hk a

theorem only_try {k : Option w.Answer → Part V β} (hw : p ⟨me, w⟩) (hk : ∀ r, Only p Q (k r)) :
    Only p Q ((try_ me w).andThen k) :=
  Until.andThen ⟨hw, fun a _ => hk (some a), hk none⟩

theorem only_request (hw : p ⟨me, w⟩) : Only p (fun _ => True) (ask me w) :=
  until_request hw fun _ _ => trivial

theorem only_refuse {e : CacheError} : Only (Harmless c codec node key) Q (refuse me e) :=
  ⟨fun _ => trivial, fun _ _ => trivial, trivial⟩

theorem only_deletePage {page batchKeys : List String} :
    Only (Harmless c codec node key) (fun _ => True) (deletePage me page batchKeys) := by
  induction page generalizing batchKeys with
  | nil => trivial
  | cons key' page ih =>
    unfold deletePage
    split
    · exact only_ask (fun _ => trivial) fun _ => ih
    · exact ih

theorem only_scanPages {keyPrefix : String} {pages cursor : ℕ} {batchKeys : List String} :
    Only (Harmless c codec node key) (fun _ => True) (scanPages me keyPrefix pages cursor batchKeys) := by
  induction pages generalizing cursor batchKeys with
  | zero => trivial
  | succ n ih =>
    apply only_ask (fun _ => trivial)
    intro answer
    apply until_then only_deletePage
    intro batchKeys _
    split
    · trivial
    · exact ih

theorem only_deleteByPrefix {keyPrefix : String} {pages : ℕ} :
    Only (Harmless c codec node key) (fun _ => True) (deleteByPrefix me keyPrefix pages) := by
  apply only_ask (fun _ => trivial)
  intro there
  apply until_then only_scanPages
  intro batchKeys _
  split
  · trivial
  · exact only_request fun _ => trivial

theorem only_invalidate {d : Decorator} {kwargs : Kwargs} {pages : ℕ} :
    Only (Harmless c codec node key) (fun _ => True) (invalidate c me d kwargs pages) := by
  unfold invalidate
  split
  · trivial
  · apply until_then (Q := fun _ => True)
    · split
      · exact only_request fun _ => trivial
      · trivial
    · intro _ _
      apply until_then (Q := fun _ => True)
      · split
        · exact only_try (fun _ => trivial) fun _ => trivial
        · trivial
      · intro _ _
        split
        · exact only_deleteByPrefix
        · exact only_request fun _ => trivial

theorem only_cacheInvalidate {d : Decorator} {atomic : Bool} {name : String} {kwargs : Kwargs} {pages : ℕ} :
    Only (Harmless c codec node key) (fun _ => True) (cacheInvalidate c me d atomic name kwargs pages) := by
  apply only_ask (fun _ => trivial)
  intro result
  apply until_then only_invalidate.caught
  intro invalidated _
  split
  · exact only_refuse
  · exact only_request fun _ => trivial

theorem only_pollMessages {polls : ℕ} :
    Only (Harmless c codec node key) (fun _ => True) (pollMessages me polls) := by
  induction polls with
  | zero => trivial
  | succ n ih =>
    apply only_ask (fun _ => trivial)
    rintro (_ | m)
    · exact ih
    · exact only_try (fun _ => trivial) fun _ => ih

theorem only_subscribeAndListen {polls reconnectAttempts : ℕ} :
    Only (Harmless c codec node key) (fun _ => True) (subscribeAndListen c me polls reconnectAttempts) := by
  induction polls generalizing reconnectAttempts with
  | zero => trivial
  | succ n ih =>
    unfold subscribeAndListen
    split
    · apply only_try fun _ => trivial
      intro subscribed
      apply until_then (Q := fun _ => True)
      · cases subscribed with
        | none => trivial
        | some _ => exact until_then only_pollMessages.caught fun _ _ => trivial
      · exact fun _ _ => only_try (fun _ => trivial) fun _ => ih
    · trivial

theorem only_fill {value : Option V} (hkey : key' ≠ key) :
    Only (Harmless c codec node key) (fun _ => True) (fill c me key' value) := by
  unfold fill
  split
  · exact only_request fun _ _ h => absurd h hkey
  · trivial

theorem only_keepResult {result : Option V} (hkey : key' ≠ key) :
    Only (Harmless c codec node key) (fun _ => True) (keepResult c codec me key' result) := by
  cases result with
  | none => trivial
  | some value =>
    have hkeep : Only (Harmless c codec node key) (fun _ => True) (keep c codec me key' value) := by
      unfold keep
      split
      · trivial
      · exact until_then (only_fill hkey) fun _ _ => only_request fun _ h => absurd h hkey
    exact until_then hkeep.caught fun _ _ => trivial

theorem only_computed {d : Decorator} {name : String} {kwargs : Kwargs} (hkey : key' ≠ key) :
    Only (Harmless c codec node key) (fun _ => True) (computed c codec me d name kwargs key') := by
  apply only_ask fun _ => trivial
  intro result
  apply until_then (only_keepResult hkey)
  exact fun _ _ => only_request fun _ _ h => absurd h hkey

theorem only_looked {d : Decorator} {name : String} {kwargs : Kwargs} (hkey : key' ≠ key) :
    Only (Harmless c codec node key) (fun _ => True) (looked c codec me d name kwargs key') := by
  have hredis : Only (Harmless c codec node key) (fun _ => True) (fromRedis c codec me key') := by
    apply only_ask fun _ => trivial
    rintro (_ | text)
    · trivial
    · exact until_then (only_fill hkey) fun _ _ => trivial
  apply until_then hredis.caught
  intro r _
  split
  · exact only_request fun _ _ h => absurd h hkey
  · exact only_computed hkey

theorem only_cached {d : Decorator} {name : String} {kwargs : Kwargs}
    (hkey : d.buildCacheKey kwargs ≠ .ok key) :
    Only (Harmless c codec node key) (fun _ => True) (cached c codec me d name kwargs) := by
  unfold cached
  split
  · exact only_refuse
  · rename_i key' hbuild
    have hne : key' ≠ key := by
      rintro rfl
      exact hkey hbuild
    apply until_then (Q := fun _ => True)
    · unfold fromLocal
      split
      · exact only_request fun _ => trivial
      · trivial
    · rintro (_ | value) -
      · exact only_looked hne
      · exact only_request fun _ _ h => absurd h hne

end Parts

/-! ## Calls under the key -/

/-- However the others take turns, the part makes lawful calls only. -/
abbrev Sound (c : CacheSettings) (codec : Codec V) (node : ℕ) (key : String) (n : ℕ) {α : Type}
    (Q : α → CacheWorld V → Prop) (s : CacheWorld V) (t : Part V α) : Prop :=
  Safe (Answers c) (Inv c codec node key n) Later Q s t

def Joins (key : String) : (w : CacheCall V) → w.Answer → Prop
  | ⟨_, .compute d _ kwargs⟩, _ => d.buildCacheKey kwargs = .ok key
  | ⟨_, .get key'⟩, (r : Option String) => key' = key ∧ r.isSome = true
  | ⟨_, .localGet key'⟩, (r : Option V) => key' = key ∧ r.isSome = true
  | _, _ => False

section Tasks

variable {c : CacheSettings} {codec : Codec V} {me : Caller} {node n : ℕ} {key text : String}
  {s s' : CacheWorld V} {α β : Type} {Q : β → CacheWorld V → Prop} {P : α → Prop} {t : Part V α}
  {w : Command V} {value : Option V} {d : Decorator} {name : String} {kwargs : Kwargs}

theorem sound_of_only (h : Only (Harmless c codec node key) P t) :
    Sound c codec node key n (fun a _ => P a) s t := by
  apply h.safe
  · exact fun s w r s' hw hI hW => ⟨hI.call (hw _) hW, later_of_answers hW⟩
  · exact fun _ _ _ _ _ _ hno => hno

theorem sound_call {k : w.Answer → Part V β}
    (hlaw : ∀ log, s.since n <+: log → Lawful c codec node key log ⟨me, w⟩)
    (hk : ∀ a s₁ s₂, Later s s₁ → Inv c codec node key n s₁ → Answers c s₁ ⟨me, w⟩ (some a) s₂ →
      Sound c codec node key n Q s₂ (k a)) :
    Sound c codec node key n Q s ((ask me w).andThen k) := by
  intro s₁ hle hI
  have hcall := hlaw _ (hle.since (n := n))
  constructor
  · exact fun a s₂ hW => ⟨hI.call hcall hW, later_of_answers hW, hk a s₁ s₂ hle hI hW⟩
  · exact fun s₂ hW => ⟨hI.call hcall hW, later_of_answers hW, trivial⟩

theorem sound_ask (hlaw : ∀ log, s.since n <+: log → Lawful c codec node key log ⟨me, w⟩) :
    Sound c codec node key n (fun _ _ => True) s (ask me w) := by
  have hlast : Sound c codec node key n (fun _ _ => True) s ((ask me w).andThen ret) :=
    sound_call hlaw fun _ _ _ _ _ _ _ _ _ => trivial
  exact hlast

theorem sound_fill (h : Fills c codec me key value (s.since n)) :
    Sound c codec node key n (fun _ _ => True) s (fill c me key value) := by
  unfold fill
  split
  · exact sound_ask fun _ hle _ _ => h.mono hle
  · exact fun _ _ _ => trivial

theorem sound_keepResult (h : Computed me key value (s.since n)) :
    Sound c codec node key n (fun _ _ => True) s (keepResult c codec me key value) := by
  cases value with
  | none => exact fun _ _ _ => trivial
  | some value =>
    have hkeep : Sound c codec node key n (fun _ _ => True) s (keep c codec me key value) := by
      unfold keep
      split
      · trivial
      · rename_i text htext
        have hserialized : Serialized codec me key text (s.since n) := ⟨value, h, htext⟩
        apply Safe.andThen
        apply Safe.imp (sound_fill ⟨text, rfl, .inl hserialized⟩)
        intro _ s' hle _ _
        exact sound_ask fun _ hle' _ => ⟨rfl, hserialized.mono (hle.since.trans hle')⟩
    apply Safe.andThen
    exact hkeep.caught.imp fun _ _ _ _ _ _ _ _ => trivial

theorem sound_computed (hkey : d.buildCacheKey kwargs = .ok key) :
    Sound c codec node key n (fun _ _ => True) s (computed c codec me d name kwargs key) := by
  refine sound_call (fun _ _ => trivial) ?_
  intro result s₁ s₂ _ hI hcompute
  have hcomputed : Computed me key result (s₂.since n) := by
    obtain ⟨now, hsince⟩ := since_of_answers hI.long hcompute
    rw [hsince]
    exact ⟨d, name, kwargs, now, hkey, List.mem_append_right _ List.mem_cons_self⟩
  apply Safe.andThen
  apply Safe.imp (sound_keepResult hcomputed)
  intro _ s₃ hle _ _
  exact sound_ask fun _ hle' _ _ => .computed (hcomputed.mono (hle.since.trans hle'))

theorem sound_fromRedis : Sound c codec node key n
    (fun r s' => ∀ value, r = some value → Sourced c codec me key value (s'.since n)) s
    (fromRedis c codec me key) := by
  refine sound_call (fun _ _ => trivial) ?_
  rintro (_ | text) s₁ s₂ _ hI hget
  · exact fun _ _ _ _ h => nomatch h
  · have hredis : FromRedis c codec me key text (s₂.since n) := hI.fromRedis hget
    apply Safe.andThen
    apply Safe.imp (sound_fill ⟨text, rfl, .inr hredis⟩)
    intro _ s₃ hle _ _ s₄ hle' _ value hvalue
    cases hvalue
    exact .redis (hredis.mono (hle.since.trans hle'.since))

theorem sound_looked (hkey : d.buildCacheKey kwargs = .ok key) :
    Sound c codec node key n (fun _ _ => True) s (looked c codec me d name kwargs key) := by
  apply Safe.andThen
  apply Safe.imp sound_fromRedis.caught
  intro r s₁ _ _ hr
  split
  · rename_i result
    exact sound_ask fun _ hle _ _ => (hr _ rfl result rfl).mono hle
  · exact sound_computed hkey

theorem sound_cached : Sound c codec node key n (fun _ _ => True) s (cached c codec me d name kwargs) := by
  by_cases hkey : d.buildCacheKey kwargs = .ok key
  · unfold cached
    rw [hkey]
    dsimp only
    unfold fromLocal
    split
    · refine sound_call (fun _ _ => trivial) ?_
      rintro (_ | value) s₁ s₂ _ hI hget
      · exact sound_looked hkey
      · exact sound_ask fun _ hle hnode _ => .hot ((hI.fromLocal hnode hget).mono hle)
    · exact sound_looked hkey
  · exact sound_of_only (only_cached hkey)

theorem sound_of_begins {t : Part V Unit} (h : Begins c codec t) :
    Sound c codec node key n (fun _ _ => True) s t := by
  cases h with
  | cached me d name kwargs => exact sound_cached
  | cacheInvalidate me d atomic name kwargs pages => exact sound_of_only only_cacheInvalidate
  | listen me polls => exact sound_of_only only_subscribeAndListen
  | evict me keys => exact sound_ask fun _ _ => trivial
  | expel me keys => exact sound_ask fun _ _ => trivial

end Tasks

/-- A world in which nothing has been done and nothing is kept. -/
structure Fresh (s : CacheWorld V) : Prop where
  log : s.log = []
  strings : ∀ key, s.strings key = none
  hotCache : ∀ node key, s.hotCache node key = none

section Run

variable {c : CacheSettings} {codec : Codec V} {s : CacheWorld V} {x : CacheWorld V × List (Part V Unit)}

theorem Fresh.inv (h : Fresh s) (node : ℕ) (key : String) : Inv c codec node key 0 s := by
  constructor
  · exact Nat.zero_le _
  · unfold CacheWorld.since
    rw [h.log]
    exact Trace.throughout_nil
  · intro text stop hkey
    rw [h.strings key] at hkey
    cases hkey
  · intro value stop hkey
    rw [h.hotCache node key] at hkey
    cases hkey

theorem inv_of_reaches (h : Reaches (Answers c) (Begins c codec) s x) (hs : Fresh s)
    (node : ℕ) (key : String) :
    Inv c codec node key 0 x.1 :=
  (h.invariant (hs.inv node key) fun _ _ ht _ => sound_of_begins ht).1

/-- However the tasks of all processes take turns and whichever calls raise, the value that a cached call
gives has been computed by this call, or read back by it from Redis, where another call had put what it had
computed, or from its own process, where another call had put what it had computed or read back from
Redis; each level has given it back in time, and nothing has replaced or dropped it in between. -/
theorem value_sourced (h : Reaches (Answers c) (Begins c codec) s x) (hs : Fresh s) {pre post : List (Deed V)}
    {d : Deed V} {who : Caller} {key : String} {value : Option V} (hx : x.1.log = pre ++ d :: post)
    (hd : d.call = ⟨who, .respond (.value key value)⟩) : Sourced c codec who key value pre := by
  have hlaw : Lawful c codec who.node key pre d.call :=
    (inv_of_reaches h hs who.node key).lawful pre d post hx
  rw [hd] at hlaw
  exact hlaw rfl rfl

end Run

/-! ## Three calls of one function -/

def plainCodec : Codec Bool where
  serialize value := some (if value then "true" else "false")
  deserialize text := if text = "true" then some true else if text = "false" then some false else none

def plainSettings : CacheSettings := ⟨true, 7200, 7200, 10⟩

def plainDecorator : Decorator := ⟨"fba:cache:config", some "pk", none, .inr rfl⟩

def plainKwargs : Kwargs := [("pk", ⟨some "1", false, [], []⟩)]

def emptyWorld : CacheWorld Bool where
  clock := 0
  hotCache _ _ := none
  strings _ := none
  inbox _ := none
  log := []

/-- What has been done when a second process has the value from Redis and then from itself. -/
def firstDeeds : List (Deed Bool) := [
  ⟨0, ⟨⟨0, 0⟩, .localGet "fba:cache:config:1"⟩, some none⟩,
  ⟨0, ⟨⟨0, 0⟩, .get "fba:cache:config:1"⟩, some none⟩,
  ⟨0, ⟨⟨0, 0⟩, .compute plainDecorator "get" plainKwargs⟩, some (some true)⟩,
  ⟨0, ⟨⟨0, 0⟩, .localSet "fba:cache:config:1" (some true)⟩, some ()⟩,
  ⟨0, ⟨⟨0, 0⟩, .set "fba:cache:config:1" "true" plainSettings.redisLifetime⟩, some ()⟩,
  ⟨0, ⟨⟨0, 0⟩, .respond (.value "fba:cache:config:1" (some true))⟩, some ()⟩,
  ⟨0, ⟨⟨1, 1⟩, .localGet "fba:cache:config:1"⟩, some none⟩,
  ⟨0, ⟨⟨1, 1⟩, .get "fba:cache:config:1"⟩, some (some "true")⟩,
  ⟨0, ⟨⟨1, 1⟩, .localSet "fba:cache:config:1" (some true)⟩, some ()⟩,
  ⟨0, ⟨⟨1, 1⟩, .respond (.value "fba:cache:config:1" (some true))⟩, some ()⟩,
  ⟨0, ⟨⟨1, 2⟩, .localGet "fba:cache:config:1"⟩, some (some true)⟩]

theorem reaches_answer {c : CacheSettings} {codec : Codec V} {s s₁ : CacheWorld V} {w : CacheCall V}
    {answered : w.Answer → Part V Unit} {raised : Part V Unit} {ts : List (Part V Unit)}
    (h : Reaches (Answers c) (Begins c codec) s (s₁, call w answered raised :: ts)) (hclock : s₁.clock = 0)
    (a : w.Answer) (hallows : w.Allows (s₁.at_ 0) a) :
    Reaches (Answers c) (Begins c codec) s
      ((w.effect c (s₁.at_ 0) a).record ⟨0, w, some a⟩, answered a :: ts) :=
  h.answer (.answer hclock.le hallows)

theorem reaches_firstDeeds : ∃ s ts,
    Reaches (Answers plainSettings) (Begins plainSettings plainCodec) emptyWorld (s, ts) ∧
    s.log = firstDeeds ++
      [⟨0, ⟨⟨1, 2⟩, .respond (.value "fba:cache:config:1" (some true))⟩, some ()⟩] := by
  have h : Reaches (Answers plainSettings) (Begins plainSettings plainCodec) emptyWorld (emptyWorld, []) :=
    Reaches.refl
  have h := h.begin (.cached ⟨0, 0⟩ plainDecorator "get" plainKwargs)
  have h := reaches_answer h rfl none rfl
  have h := reaches_answer h rfl none rfl
  have h := reaches_answer h rfl (some true) trivial
  have h := reaches_answer h rfl () trivial
  have h := reaches_answer h rfl () trivial
  have h := reaches_answer h rfl () trivial
  have h := h.begin (.cached ⟨1, 1⟩ plainDecorator "get" plainKwargs)
  have h := reaches_answer h rfl none rfl
  have h := reaches_answer h rfl (some "true") rfl
  have h := reaches_answer h rfl () trivial
  have h := reaches_answer h rfl () trivial
  have h := h.begin (.cached ⟨1, 2⟩ plainDecorator "get" plainKwargs)
  have h := reaches_answer h rfl (some true) rfl
  have h := reaches_answer h rfl () trivial
  exact ⟨_, _, h, rfl⟩

theorem value_sourced_third :
    Sourced plainSettings plainCodec ⟨1, 2⟩ "fba:cache:config:1" (some true) firstDeeds := by
  obtain ⟨s, ts, hs, hlog⟩ := reaches_firstDeeds
  exact value_sourced hs ⟨rfl, fun _ => rfl, fun _ _ => rfl⟩ hlog rfl

end TgPlatform.Caching
