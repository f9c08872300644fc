import TgPlatform.Platform.CacheHistory

/-! # Once a key has been dropped

Redis and a process have dropped a key, each at its own time and in any order,
and no call under way has been given a value for it before. From then on the
process gives only values that have been computed since, whatever the other
processes still keep.
-/

namespace TgPlatform.Caching

open Coroutine
open Trace (Standing Throughout)

variable {V : Type}

/-- The task has ended, or it has begun and has not been given a value for the key so far. -/
def Idle (c : CacheSettings) (codec : Codec V) (key : String) (t : Part V Unit) : Prop :=
  t = ret () ∨ t = raise ∨ ∃ t₀ l, Begins c codec t₀ ∧ Path Sigma.mk t₀ l t ∧
    ∀ w r, ⟨w, some r⟩ ∈ l → ¬ Joins key w r

/-- What is left of the task is right whatever has been done. -/
abbrev Anytime (c : CacheSettings) (codec : Codec V) (node : ℕ) (key : String) (n : ℕ) (t : Part V Unit) :
    Prop :=
  ∀ s, Sound c codec node key n (fun _ _ => True) s t

section Tasks

variable {c : CacheSettings} {codec : Codec V} {me : Caller} {node n : ℕ} {key : String} {t : Part V Unit}
  {d : Decorator} {name : String} {kwargs : Kwargs}

theorem lasting_of_only (h : Only (Harmless c codec node key) (fun _ => True) t) :
    Lasting (Joins key) (Anytime c codec node key n) t :=
  h.lasting fun _ hu _ => sound_of_only hu

theorem lasting_computed (hkey : d.buildCacheKey kwargs = .ok key) :
    Lasting (Joins key) (Anytime c codec node key n) (computed c codec me d name kwargs key) :=
  ⟨fun _ => sound_computed hkey, fun _ hjoins => absurd hkey hjoins, fun _ => trivial⟩

theorem lasting_looked (hkey : d.buildCacheKey kwargs = .ok key) :
    Lasting (Joins key) (Anytime c codec node key n) (looked c codec me d name kwargs key) := by
  refine ⟨fun _ => sound_looked hkey, ?_, lasting_computed hkey⟩
  rintro (_ | text) hjoins
  · exact lasting_computed hkey
  · exact absurd ⟨rfl, rfl⟩ hjoins

theorem lasting_cached : Lasting (Joins key) (Anytime c codec node key n)
    (cached c codec me d name kwargs) := by
  by_cases hkey : d.buildCacheKey kwargs = .ok key
  · have hsound : Anytime c codec node key n (cached c codec me d name kwargs) := fun _ => sound_cached
    unfold cached at hsound ⊢
    rw [hkey] at hsound ⊢
    dsimp only at hsound ⊢
    unfold fromLocal at hsound ⊢
    split at hsound
    · rename_i hlocal
      rw [if_pos hlocal]
      refine ⟨hsound, ?_, fun _ => trivial⟩
      rintro (_ | value) hjoins
      · exact lasting_looked hkey
      · exact absurd ⟨rfl, rfl⟩ hjoins
    · rename_i hlocal
      rw [if_neg hlocal]
      exact lasting_looked hkey
  · exact lasting_of_only (only_cached hkey)

theorem lasting_of_begins (h : Begins c codec t) : Lasting (Joins key) (Anytime c codec node key n) t := by
  cases h with
  | cached me d name kwargs => exact lasting_cached
  | cacheInvalidate me d atomic name kwargs pages => exact lasting_of_only only_cacheInvalidate
  | listen me polls => exact lasting_of_only only_subscribeAndListen
  | evict me keys => exact lasting_of_only (only_request fun _ => trivial)
  | expel me keys => exact lasting_of_only (only_request fun _ => trivial)

theorem Idle.anytime (h : Idle c codec key t) : Anytime c codec node key n t := by
  rcases h with rfl | rfl | ⟨t₀, l, hbegins, hpath, hl⟩
  · exact fun _ _ _ _ => trivial
  · exact fun _ => trivial
  · exact ((lasting_of_begins hbegins).path hpath hl).here

end Tasks

section Run

variable {c : CacheSettings} {codec : Codec V} {s : CacheWorld V} {x y : CacheWorld V × List (Part V Unit)}
  {node : ℕ} {key : String} {place : Place} {log : List (Deed V)}

theorem Cleared.not_standing {P : List (Deed V) → Deed V → Prop} (h : Cleared place log)
    (hP : ∀ pre d, P pre d → d.call.Sets place) : ¬ Standing P (Deed.Clears place) log := by
  apply Trace.not_standing
  intro pre d post hlog hd
  obtain ⟨d', hmem, hanswer, hdrops⟩ := h pre d post hlog (hP pre d hd)
  exact ⟨d', hmem, hanswer, .inr hdrops⟩

theorem cleared_of_drop {pre post : List (Deed V)} {d : Deed V} (hanswer : d.answer.isSome = true)
    (hdrops : d.call.Drops place) (hpost : ∀ d' ∈ d :: post, ¬ d'.call.Sets place) :
    Cleared place (pre ++ d :: post) := by
  intro pre' d' post' hsplit hsets
  rcases Trace.split_cases hsplit with ⟨-, rfl, -⟩ | ⟨mid, -, rfl⟩ | hmem
  · exact absurd hsets (hpost d List.mem_cons_self)
  · exact ⟨d, List.mem_append_right mid List.mem_cons_self, hanswer, hdrops⟩
  · exact absurd hsets (hpost d' (List.mem_cons_of_mem d hmem))

theorem Inv.restart (hI : Inv c codec node key 0 s) (hredis : Cleared (.redis key) s.log)
    (hhot : Cleared (.hot node key) s.log) : Inv c codec node key s.log.length s := by
  constructor
  · exact le_rfl
  · unfold CacheWorld.since
    rw [List.drop_length]
    exact Trace.throughout_nil
  · intro text stop hkey
    refine absurd (hI.redis text stop hkey) (hredis.not_standing ?_)
    rintro _ _ ⟨savedAt, who, ex, r, rfl, -⟩
    exact rfl
  · intro value stop hkey
    refine absurd (hI.hot value stop hkey) (hhot.not_standing ?_)
    rintro _ _ ⟨savedAt, who, r, rfl, rfl, -⟩
    exact ⟨rfl, rfl⟩

/-- Once Redis and a process have dropped all they had under a key, and no task under way has been given
a value for it, the process gives only values that have been computed since. -/
theorem fresh_once_dropped (h : Reaches (Answers c) (Begins c codec) s x) (hs : Fresh s)
    (hredis : Cleared (.redis key) x.1.log) (hhot : Cleared (.hot node key) x.1.log)
    (hidle : ∀ t ∈ x.2, Idle c codec key t)
    (hy : Relation.ReflTransGen (Turn (Answers c) (Begins c codec)) x y) :
    ∃ log, y.1.log = x.1.log ++ log ∧ ∀ pre d post who value, log = pre ++ d :: post →
      d.call = ⟨who, .respond (.value key value)⟩ → who.node = node → Sourced c codec who key value pre := by
  have hI : Inv c codec node key x.1.log.length x.1 := (inv_of_reaches h hs node key).restart hredis hhot
  obtain ⟨hI', ⟨log, hlog⟩, -⟩ := invariant_of_turns hy hI (fun t ht => (hidle t ht).anytime x.1)
    fun t s' ht _ => sound_of_begins ht
  refine ⟨log, hlog.symm, ?_⟩
  intro pre d post who value hsplit hd hnode
  have hsince : y.1.since x.1.log.length = log := by
    unfold CacheWorld.since
    rw [← hlog, List.drop_left]
  have hlaw : Lawful c codec node key pre d.call := hI'.lawful pre d post (hsince.trans hsplit)
  rw [hd] at hlaw
  exact hlaw hnode rfl

end Run

/-! ## A key that is dropped -/

def droppingDecorator : Decorator := ⟨"fba:cache:config", none, none, .inl rfl⟩

/-- What has been done when a value has been computed and dropped while another process listens. -/
def droppedDeeds : List (Deed Bool) := [
  ⟨0, ⟨⟨1, 0⟩, .subscribe⟩, some ()⟩,
  ⟨0, ⟨⟨1, 1⟩, .localGet "fba:cache:config:1"⟩, some none⟩,
  ⟨0, ⟨⟨1, 1⟩, .get "fba:cache:config:1"⟩, some none⟩,
  ⟨0, ⟨⟨1, 1⟩, .compute plainDecorator "get" plainKwargs⟩, some (some true)⟩,
  ⟨0, ⟨⟨1, 1⟩, .localSet "fba:cache:config:1" (some true)⟩, some ()⟩,
  ⟨0, ⟨⟨1, 1⟩, .set "fba:cache:config:1" "true" plainSettings.redisLifetime⟩, some ()⟩,
  ⟨0, ⟨⟨1, 1⟩, .respond (.value "fba:cache:config:1" (some true))⟩, some ()⟩,
  ⟨0, ⟨⟨0, 2⟩, .update "update" plainKwargs⟩, some none⟩,
  ⟨0, ⟨⟨0, 2⟩, .localDelete ⟨"fba:cache:config", true⟩⟩, some ()⟩,
  ⟨0, ⟨⟨0, 2⟩, .publish ⟨"fba:cache:config", true⟩⟩, some ()⟩,
  ⟨0, ⟨⟨0, 2⟩, .exists_ "fba:cache:config"⟩, some false⟩,
  ⟨0, ⟨⟨0, 2⟩, .scan "fba:cache:config" 0⟩, some (0, ["fba:cache:config:1"])⟩,
  ⟨0, ⟨⟨0, 2⟩, .delete ["fba:cache:config:1"]⟩, some ()⟩,
  ⟨0, ⟨⟨0, 2⟩, .respond (.updated none)⟩, some ()⟩,
  ⟨0, ⟨⟨1, 0⟩, .getMessage⟩, some (some ⟨"fba:cache:config", true⟩)⟩,
  ⟨0, ⟨⟨1, 0⟩, .localDelete ⟨"fba:cache:config", true⟩⟩, some ()⟩]

def renewedDeeds : List (Deed Bool) := [
  ⟨0, ⟨⟨1, 3⟩, .localGet "fba:cache:config:1"⟩, some none⟩,
  ⟨0, ⟨⟨1, 3⟩, .get "fba:cache:config:1"⟩, some none⟩,
  ⟨0, ⟨⟨1, 3⟩, .compute plainDecorator "get" plainKwargs⟩, some (some false)⟩,
  ⟨0, ⟨⟨1, 3⟩, .localSet "fba:cache:config:1" (some false)⟩, some ()⟩,
  ⟨0, ⟨⟨1, 3⟩, .set "fba:cache:config:1" "false" plainSettings.redisLifetime⟩, some ()⟩,
  ⟨0, ⟨⟨1, 3⟩, .respond (.value "fba:cache:config:1" (some false))⟩, some ()⟩]

theorem turns_answer {c : CacheSettings} {codec : Codec V} {x : CacheWorld V × List (Part V Unit)}
    {s : CacheWorld V} {w : CacheCall V} {answered : w.Answer → Part V Unit} {raised : Part V Unit}
    (pre post : List (Part V Unit))
    (h : Relation.ReflTransGen (Turn (Answers c) (Begins c codec)) x
      (s, pre ++ call w answered raised :: post))
    (hclock : s.clock = 0) (a : w.Answer) (hallows : w.Allows (s.at_ 0) a) :
    Relation.ReflTransGen (Turn (Answers c) (Begins c codec)) x
      ((w.effect c (s.at_ 0) a).record ⟨0, w, some a⟩, pre ++ answered a :: post) :=
  .tail h (.answer (.answer hclock.le hallows))

theorem reaches_droppedDeeds : ∃ s ts,
    Reaches (Answers plainSettings) (Begins plainSettings plainCodec) emptyWorld (s, ts) ∧
    s.log = droppedDeeds ∧ s.clock = 0 ∧ none = (s.at_ 0).hot 1 "fba:cache:config:1" ∧
    none = (s.at_ 0).live "fba:cache:config:1" ∧
      ∀ t ∈ ts, Idle plainSettings plainCodec "fba:cache:config:1" t := by
  have h : Reaches (Answers plainSettings) (Begins plainSettings plainCodec) emptyWorld (emptyWorld, []) :=
    Reaches.refl
  have h := h.begin (.listen ⟨1, 0⟩ 3)
  have h := reaches_answer h rfl () trivial
  have h := h.begin (.cached ⟨1, 1⟩ plainDecorator "get" plainKwargs)
  have h := reaches_answer h rfl none rfl
  have h := reaches_answer h rfl none rfl
  have h := reaches_answer h rfl (some true) trivial
  have h := reaches_answer h rfl () trivial
  have h := reaches_answer h rfl () trivial
  have h := reaches_answer h rfl () trivial
  have h := h.begin (.cacheInvalidate ⟨0, 2⟩ droppingDecorator true "update" plainKwargs 1)
  have h := reaches_answer h rfl none trivial
  have h := reaches_answer h rfl () trivial
  have h := reaches_answer h rfl () trivial
  have h := reaches_answer h rfl false rfl
  have h := reaches_answer h rfl (0, ["fba:cache:config:1"]) trivial
  have h := reaches_answer h rfl () trivial
  have h := reaches_answer h rfl () trivial
  have h := turns_answer [ret (), ret ()] [] h rfl
    (some ⟨"fba:cache:config", true⟩) ⟨[⟨"fba:cache:config", true⟩], rfl, .inr rfl⟩
  have h := turns_answer [ret (), ret ()] [] h rfl () trivial
  refine ⟨_, _, h, rfl, rfl, by decide, rfl, fun t ht => ?_⟩
  simp only [List.cons_append, List.nil_append, List.mem_cons, List.not_mem_nil, or_false] at ht
  rcases ht with rfl | rfl | rfl
  · exact .inl rfl
  · exact .inl rfl
  · have hpath : Path Sigma.mk (subscribeAndListen plainSettings ⟨1, 0⟩ 3 0) []
        (subscribeAndListen (V := Bool) plainSettings ⟨1, 0⟩ 3 0) := .refl _
    have hpath := Path.snoc_answer (r := ()) hpath
    have hpath := Path.snoc_answer (r := some ⟨"fba:cache:config", true⟩) hpath
    have hpath := Path.snoc_answer (r := ()) hpath
    refine .inr (.inr ⟨_, _, .listen ⟨1, 0⟩ 3, hpath, fun w r hr => ?_⟩)
    simp only [List.nil_append, List.cons_append, List.mem_cons, List.not_mem_nil, or_false] at hr
    rcases hr with hr | hr | hr <;> cases hr <;> exact id

theorem turns_renewedDeeds {s : CacheWorld Bool} {ts : List (Part Bool Unit)} (hclock : s.clock = 0)
    (hhot : none = (s.at_ 0).hot 1 "fba:cache:config:1")
    (hlive : none = (s.at_ 0).live "fba:cache:config:1") :
    ∃ y, Relation.ReflTransGen (Turn (Answers plainSettings) (Begins plainSettings plainCodec)) (s, ts) y ∧
      y.1.log = s.log ++ renewedDeeds := by
  have h : Relation.ReflTransGen (Turn (Answers plainSettings) (Begins plainSettings plainCodec)) (s, ts)
      (s, [] ++ cached plainSettings plainCodec ⟨1, 3⟩ plainDecorator "get" plainKwargs :: ts) :=
    .single (.begin (.cached ⟨1, 3⟩ plainDecorator "get" plainKwargs))
  have h := turns_answer [] ts h hclock none hhot
  have h := turns_answer [] ts h rfl none hlive
  have h := turns_answer [] ts h rfl (some false) trivial
  have h := turns_answer [] ts h rfl () trivial
  have h := turns_answer [] ts h rfl () trivial
  have h := turns_answer [] ts h rfl () trivial
  refine ⟨_, h, ?_⟩
  change s.log ++ [_] ++ [_] ++ [_] ++ [_] ++ [_] ++ [_] = _
  simp only [List.append_assoc]
  rfl

theorem fresh_once_dropped_config : ∃ log, droppedDeeds ++ renewedDeeds = droppedDeeds ++ log ∧
    ∀ pre d post who value, log = pre ++ d :: post →
      d.call = ⟨who, .respond (.value "fba:cache:config:1" value)⟩ → who.node = 1 →
      Sourced plainSettings plainCodec who "fba:cache:config:1" value pre := by
  obtain ⟨s, ts, hs, hlog, hclock, hhot, hlive, hidle⟩ := reaches_droppedDeeds
  obtain ⟨y, hy, hlog'⟩ := turns_renewedDeeds hclock hhot hlive
  have hredis : Cleared (.redis "fba:cache:config:1") s.log := by
    rw [hlog]
    exact @cleared_of_drop _ _ (droppedDeeds.take 12) (droppedDeeds.drop 13)
      ⟨0, ⟨⟨0, 2⟩, .delete ["fba:cache:config:1"]⟩, some ()⟩ rfl (List.mem_singleton.mpr rfl)
      (by simp [droppedDeeds, CacheCall.Sets])
  have hlocal : Cleared (.hot 1 "fba:cache:config:1") s.log := by
    rw [hlog]
    exact @cleared_of_drop _ _ (droppedDeeds.take 15) []
      ⟨0, ⟨⟨1, 0⟩, .localDelete ⟨"fba:cache:config", true⟩⟩, some ()⟩ rfl ⟨rfl, by decide⟩
      (by simp [CacheCall.Sets])
  rw [← hlog, ← hlog']
  exact fresh_once_dropped hs ⟨rfl, fun _ => rfl, fun _ _ => rfl⟩ hredis hlocal hidle hy

end TgPlatform.Caching
