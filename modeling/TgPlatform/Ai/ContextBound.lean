import Mathlib.Data.List.Infix
import TgPlatform.Ai.Running
import TgPlatform.Control.AiScope

/-! # The context of a request

A trigger takes the last messages of what it is given, and a deferred run takes
them anew from the cache of its chat. A limit of zero means none to the deferred
run, but all to the trigger; and what the trigger has counted is what the run
keeps on record.
-/

namespace TgPlatform

section Slices

variable {l : List Json}

theorem length_lastItems {n : ℕ} :
    (lastItems n l).length = if n = 0 then l.length else min n l.length := by
  unfold lastItems
  split
  · rfl
  · rw [List.length_drop]
    omega

theorem lastContext_suffix {n : ℤ} : lastContext n l <:+ l := by
  unfold lastContext
  split
  · exact List.nil_suffix
  · exact List.drop_suffix _ _

theorem length_lastContext {n : ℤ} (hn : 0 ≤ n) : (lastContext n l).length = min n.toNat l.length := by
  unfold lastContext
  split
  · rename_i hzero
    simp [hzero]
  · rw [if_pos (by omega), List.length_drop]
    omega

end Slices

/-- What is injected is the end of what there is, not longer than the limit, and counted by the
run. -/
structure ContextKept (limit : ℤ) (earlier injected : List Json) (run : AiRun) : Prop where
  few : (injected.length : ℤ) ≤ limit
  recent : injected <:+ earlier
  counted : run.contextWindow.field "injected_count" .null = .int injected.length

/-! ## Triggers -/

section Trigger

variable (req : TriggerRequest) (binding : AiBinding) (conv : AiConversation) (cid : ConversationId)

def TriggerRequest.earlier : List Json := req.obj.contextOverride.getD conv.contextMessages

def TriggerRequest.counted : ℕ :=
  if req.obj.contextMaxMessages = 0 then (req.earlier conv).length
  else min req.obj.contextMaxMessages (req.earlier conv).length

/-- The model is asked; a script line that is not rewritten stands as it is. -/
def Prompt.asksModel (py : Python) (p : Prompt) : Bool :=
  !((p.run.triggerSource.field "mode" (.str "reply")).toStr py.repr = "script" &&
    !(p.run.triggerSource.field "rewrite" .null).truthy)

inductive TriggerRequest.Asks : List Json → Prop
  | openai (s : ControlPlane) (group : Option (GroupId × AiGroup)) (p : Prompt) :
      binding.engine = "openai" → req.deferred binding = false →
      s.promptOf req.out req.obj binding (req.run binding conv cid) (req.context conv) [] group =
        some p →
      p.asksModel req.out.python = true → Asks p.context
  | langBot : binding.engine ≠ "openai" → Asks (req.context conv)

variable {req binding conv cid}

theorem TriggerRequest.Asks.eq_context {injected : List Json} (h : req.Asks binding conv cid injected) :
    injected = req.context conv := by
  cases h with
  | openai s group p _ _ hprompt _ => exact (ControlPlane.promptOf_holds hprompt).2
  | langBot _ => rfl

theorem length_context : (req.context conv).length = req.counted conv := length_lastItems

theorem context_suffix : req.context conv <:+ req.earlier conv := lastItems_suffix

theorem run_counts : (req.run binding conv cid).contextWindow.field "injected_count" .null =
    .int (req.counted conv) := by
  rw [← length_context]
  rfl

theorem trigger_keeps_iff : ContextKept req.obj.contextMaxMessages (req.earlier conv) (req.context conv)
    (req.run binding conv cid) ↔ req.obj.contextMaxMessages ≠ 0 ∨ req.earlier conv = [] := by
  constructor
  · intro h
    rw [or_iff_not_imp_left, not_not]
    intro hzero
    have hfew := h.few
    rw [length_context, TriggerRequest.counted, if_pos hzero, hzero] at hfew
    exact List.eq_nil_of_length_eq_zero (by omega)
  · intro h
    refine ⟨?_, context_suffix, by rw [length_context, run_counts]⟩
    rw [length_context, TriggerRequest.counted]
    rcases h with hlimit | hnone
    · rw [if_neg hlimit]
      omega
    · rw [hnone]
      simp

end Trigger

/-! ## Deferred runs -/

section Deferred

variable (run : AiRun) (mode : String) (binding : AiBinding) (group : Option AiGroup)

def contextLimit : ℤ := (group.map AiGroup.contextMaxMessages).getD binding.contextMaxMessages

/-- The messages of the cache that come before what the run answers, unless that has left it. -/
def AiRun.before : Option (List Json) :=
  let cache := (group.map AiGroup.recentMessages).getD binding.recentMessages
  if mode ≠ "reply" then some cache
  else (cache.findIdx? fun m => sameMid (m.field "mid" .null)
    (run.triggerSource.field "mid" .null)).map fun i => cache.take i

variable {run mode binding group} {req : TriggerRequest} {conv : AiConversation} {cid : ConversationId}
  {b : AiBinding}

theorem heard_of_before {before : List Json} (h : run.before mode binding group = some before) :
    (run.heard mode binding group).1 = lastContext (contextLimit binding group) before := by
  unfold AiRun.before at h
  unfold AiRun.heard
  dsimp only at h ⊢
  split at h
  · rename_i hmode
    rw [if_pos hmode]
    cases h
    rfl
  · rename_i hmode
    rw [if_neg hmode]
    obtain ⟨i, hi, rfl⟩ := Option.map_eq_some_iff.mp h
    rw [hi]
    rfl

theorem heard_of_left (h : run.before mode binding group = none)
    (hsaved : run.triggerSource.field "context" .null = .list (req.context conv)) :
    (run.heard mode binding group).1 = req.context conv := by
  unfold AiRun.before at h
  unfold AiRun.heard
  dsimp only at h ⊢
  split at h
  · cases h
  · rename_i hmode
    rw [if_neg hmode, Option.map_eq_none_iff.mp h, hsaved]
    cases req.context conv <;> rfl

theorem run_saves (hdeferred : req.deferred b = true) :
    (req.run b conv cid).triggerSource.field "context" .null = .list (req.context conv) := by
  unfold TriggerRequest.run AiTrigger.run AiTrigger.source
  rw [hdeferred]
  dsimp only
  split <;> rfl

/-- The condition for a deferred run: what its trigger has counted is what it takes itself. -/
def TriggerRequest.KeepsLater (req : TriggerRequest) (conv : AiConversation) (limit : ℤ) :
    Option (List Json) → Prop
  | some before => req.counted conv = min limit.toNat before.length
  | none => (req.counted conv : ℤ) ≤ limit

theorem deferred_keeps_iff (hdeferred : req.deferred b = true)
    (hlimit : 0 ≤ contextLimit binding group) :
    ContextKept (contextLimit binding group)
      (((req.run b conv cid).before mode binding group).getD (req.earlier conv))
      ((req.run b conv cid).heard mode binding group).1 (req.run b conv cid) ↔
    req.KeepsLater conv (contextLimit binding group)
      ((req.run b conv cid).before mode binding group) := by
  cases hbefore : (req.run b conv cid).before mode binding group with
  | none =>
    rw [heard_of_left hbefore (run_saves hdeferred)]
    constructor
    · intro h
      have hfew := h.few
      rwa [length_context] at hfew
    · intro h
      exact ⟨by rwa [length_context], context_suffix, by rw [length_context, run_counts]⟩
  | some before =>
    have hlength := length_lastContext (l := before) hlimit
    rw [heard_of_before hbefore]
    constructor
    · intro h
      have hcounted := h.counted
      rw [run_counts, hlength, Json.int.injEq] at hcounted
      exact Int.ofNat.inj hcounted
    · intro h
      refine ⟨?_, lastContext_suffix, ?_⟩
      · rw [hlength]
        omega
      · rw [run_counts, hlength, h]

/-- **Context bound.** What a trigger puts into its request is the end of what it was given, within
its limit and counted by the run, exactly if the limit is not zero or it was given nothing; for a
deferred run, exactly if its trigger has counted as many as the run takes from the cache, or, where
what it answers has left the cache, no more than the limit. -/
theorem context_kept_iff (req : TriggerRequest) (b : AiBinding) (conv : AiConversation)
    (cid : ConversationId) :
    (∀ injected, req.Asks b conv cid injected →
      (ContextKept req.obj.contextMaxMessages (req.earlier conv) injected (req.run b conv cid) ↔
        req.obj.contextMaxMessages ≠ 0 ∨ req.earlier conv = [])) ∧
    (req.deferred b = true → ∀ (s : ControlPlane) (out : Outside) (conv' : AiConversation)
      (binding : AiBinding) (group : Option (GroupId × AiGroup)) (p : Prompt),
      let run := req.run b conv cid
      let obj := run.request out.python conv'
      let heard := run.heard obj.mode binding (group.map Prod.snd)
      let limit := contextLimit binding (group.map Prod.snd)
      let before := run.before obj.mode binding (group.map Prod.snd)
      0 ≤ limit → s.promptOf out obj binding run heard.1 heard.2 group = some p →
        p.asksModel out.python = true →
        (ContextKept limit (before.getD (req.earlier conv)) p.context p.run ↔
          req.KeepsLater conv limit before)) := by
  constructor
  · intro injected hasks
    rw [hasks.eq_context]
    exact trigger_keeps_iff
  · intro hdeferred s out conv' binding group p run obj heard limit before hlimit hprompt _
    obtain ⟨hrun, hcontext⟩ := ControlPlane.promptOf_holds hprompt
    rw [hrun, hcontext]
    exact deferred_keeps_iff hdeferred hlimit

end Deferred

section Requests

open ControlPlane

def heardMessage : Json := .dict [("sender", .str "Ann"), ("text", .str "hi"), ("mid", .int 7)]

def openaiBinding : AiBinding :=
  { foreignBinding with
    engine := "openai", baseUrl := "u", providerKeyEnc := some "k", providerModel := some "m" }

def newConversation : AiConversation where
  uuid := "c"
  tenantId := 1
  projectId := 2
  accountId := 2
  bindingId := 0
  chatId := 1
  sessionId := "s"

def afterOne (limit : ℕ) (defer : Bool) : TriggerRequest :=
  ⟨silence, { bindingId := 0, chatId := 1, text := "hello", contextMaxMessages := limit
              contextOverride := some [heardMessage] }, defer⟩

theorem afterOne_asks {limit : ℕ}
    (hlimit : (afterOne limit false).context newConversation = [heardMessage]) :
    (afterOne limit false).Asks openaiBinding newConversation 0 [heardMessage] := by
  have hprompt : ∃ p, (ofDirectory memberOfFirst).promptOf silence (afterOne limit false).obj
      openaiBinding ((afterOne limit false).run openaiBinding newConversation 0)
      ((afterOne limit false).context newConversation) [] none = some p := ⟨_, rfl⟩
  obtain ⟨p, hp⟩ := hprompt
  obtain ⟨hrun, hcontext⟩ := promptOf_holds hp
  rw [← hlimit, ← hcontext]
  refine .openai (ofDirectory memberOfFirst) none p rfl rfl hp ?_
  rw [Prompt.asksModel, hrun]
  rfl

/-- A limit of zero lets the message through. -/
theorem zero_limit_injects :
    ¬ ∀ injected, (afterOne 0 false).Asks openaiBinding newConversation 0 injected →
      ContextKept 0 [heardMessage] injected
        ((afterOne 0 false).run openaiBinding newConversation 0) := by
  intro h
  have hfew := (h _ (afterOne_asks rfl)).few
  simp at hfew

theorem context_kept_of_one :
    ContextKept 2 [heardMessage] [heardMessage]
      ((afterOne 2 false).run openaiBinding newConversation 0) ∧
    ContextKept 12 [heardMessage] [heardMessage]
      ((afterOne 2 true).run openaiBinding newConversation 0) := by
  obtain ⟨hnow, -⟩ := context_kept_iff (afterOne 2 false) openaiBinding newConversation 0
  constructor
  · exact (hnow _ (afterOne_asks rfl)).mpr (.inl (by decide))
  · obtain ⟨-, hlater⟩ := context_kept_iff (afterOne 2 true) openaiBinding newConversation 0
    refine (hlater rfl (ofDirectory memberOfFirst) silence newConversation openaiBinding none _
      (by decide) rfl rfl).mpr ?_
    change (1 : ℤ) ≤ 12
    decide

end Requests

end TgPlatform
