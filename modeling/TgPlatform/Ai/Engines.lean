import TgPlatform.Ai.Starting

/-! # What the engines are asked

A trigger submits to the engine of the binding that it names, or generates with
that binding and its group. A deferred run is generated for the binding of its
conversation. How the engines answer others makes no difference.
-/

namespace TgPlatform

open Txn

def Outside.answering (out : Outside) (submit : Submission → SubmitResult)
    (generate : Prompt → Except String (String × Option ℤ)) : Outside :=
  { out with submit, generate }

/-- Two answers of the engines agree on what is asked of the binding's own: on its submissions, or
on what is generated for it with its provider. -/
structure AgreesFor (s : ControlPlane) (b : AiBinding) (generates : Bool) (out : Outside)
    (submit : Submission → SubmitResult) (generate : Prompt → Except String (String × Option ℤ)) :
    Prop where
  submit : generates = false → ∀ x, x.binding = b → submit x = out.submit x
  generate : generates = true → ∀ p, p.binding = b → ∀ owner,
    (p.baseUrl, p.apiKey, p.model, owner) = provider out b (s.memberGroup b) →
      generate p = out.generate p

section Engines

variable {out : Outside} {submit : Submission → SubmitResult}
  {generate : Prompt → Except String (String × Option ℤ)} {s : ControlPlane} {b : AiBinding}

theorem openaiFinish_agrees {prompt : Prompt} {group : Option (GroupId × AiGroup)} {pk : RunId}
    {mode : String} {cid : ConversationId} {conv : AiConversation}
    (h : generate prompt = out.generate prompt) :
    openaiFinish (out.answering submit generate) prompt group pk mode cid conv =
      openaiFinish out prompt group pk mode cid conv := by
  unfold openaiFinish Outside.answering
  simp only [h]

theorem openaiExecute_agrees {obj : AiTrigger} {cid : ConversationId} {conv : AiConversation}
    {pk : RunId} {run : AiRun} {context after : List Json}
    (h : AgreesFor s b true out submit generate) :
    openaiExecute (out.answering submit generate) obj b cid conv pk run context after (s.memberGroup b) =
      openaiExecute out obj b cid conv pk run context after (s.memberGroup b) := by
  have hfinish (p : Prompt) (hb : p.binding = b) (owner : Scope)
      (hp : (p.baseUrl, p.apiKey, p.model, owner) = provider out b (s.memberGroup b)) :
      openaiFinish (out.answering submit generate) p (s.memberGroup b) pk obj.mode cid conv =
        openaiFinish out p (s.memberGroup b) pk obj.mode cid conv :=
    openaiFinish_agrees (h.generate rfl p hb owner hp)
  have hprovider : provider (out.answering submit generate) b (s.memberGroup b) =
      provider out b (s.memberGroup b) := rfl
  unfold openaiExecute
  rw [hprovider]
  generalize hp : provider out b (s.memberGroup b) = found at hfinish
  obtain ⟨baseUrl, apiKey, model, owner⟩ := found
  dsimp only
  split
  · exact hfinish _ rfl owner rfl
  · split
    · rfl
    · congr 1
      funext nicks
      congr 1
      funext selfUid
      congr 1
      funext _
      exact hfinish _ rfl owner rfl

theorem handOver_agrees {obj : AiTrigger} {defer : Bool} {conv : AiConversation}
    {cid : ConversationId} {pk : RunId} {run : AiRun}
    (h : AgreesFor s b (b.engine = "openai") out submit generate) :
    TriggerRequest.handOver ⟨out.answering submit generate, obj, defer⟩ b conv cid pk run s =
      TriggerRequest.handOver ⟨out, obj, defer⟩ b conv cid pk run s := by
  have hdeferred : TriggerRequest.deferred ⟨out.answering submit generate, obj, defer⟩ b =
      TriggerRequest.deferred ⟨out, obj, defer⟩ b := rfl
  unfold TriggerRequest.handOver
  rw [hdeferred]
  by_cases hdef : TriggerRequest.deferred ⟨out, obj, defer⟩ b = true
  · rw [if_pos hdef, if_pos hdef]
  · rw [if_neg hdef, if_neg hdef]
    by_cases hengine : b.engine = "openai"
    · rw [if_pos hengine, if_pos hengine]
      refine bind_congr fun group s' heq => ?_
      cases heq
      have hgenerates : AgreesFor s b true out submit generate := by simpa [hengine] using h
      exact congrFun (openaiExecute_agrees hgenerates) s
    · rw [if_neg hengine, if_neg hengine]
      refine bind_congr fun _ s' _ => ?_
      rw [decide_eq_false hengine] at h
      dsimp only [Outside.answering]
      rw [h.submit rfl _ rfl]
      rfl

theorem AgreesFor.congr {s' : ControlPlane} {generates : Bool}
    (h : AgreesFor s b generates out submit generate) (heq : s'.memberGroup b = s.memberGroup b) :
    AgreesFor s' b generates out submit generate := by
  refine ⟨h.submit, fun hgenerates p hp owner hprovider => ?_⟩
  rw [heq] at hprovider
  exact h.generate hgenerates p hp owner hprovider

theorem trigger_agrees {obj : AiTrigger} {defer : Bool} (h : ∀ b, s.binding obj.bindingId = some b →
    AgreesFor s b (b.engine = "openai") out submit generate) :
    trigger (out.answering submit generate) obj defer s = trigger out obj defer s := by
  have hopen (b : AiBinding) : openConversation (out.answering submit generate) obj b =
      openConversation out obj b := rfl
  rw [trigger_eq ⟨out.answering submit generate, obj, defer⟩, trigger_eq ⟨out, obj, defer⟩]
  refine bind_congr fun found s' heq => ?_
  cases heq
  refine bind_congr_post (U := fun _ => True) orRefuse_keeps fun b s' hb => ?_
  obtain ⟨hb, rfl⟩ := hb
  have hagrees := h b (Option.filter_eq_some_iff.mp hb).1
  rw [hopen]
  have hpost : Post (openConversation out obj b) s' (fun _ => True) fun _ s₁ =>
      s₁ = { s' with conversations := s₁.conversations } := by
    refine .bind (.read (.bind (.read ?_)))
    split
    · exact .ret rfl
    · exact .bind (.read (.bind (.write (.ret rfl))))
  refine bind_congr_post hpost fun chosen s₁ hs₁ => ?_
  refine bind_congr fun active s₂ heq => ?_
  cases heq
  dsimp only
  split
  · rfl
  · refine bind_congr fun pk s₂ heq => ?_
    cases heq
    refine bind_congr fun _ s₂ heq => ?_
    cases heq
    refine handOver_agrees (hagrees.congr ?_)
    rw [hs₁]
    rfl

theorem scene_eq_some {run : AiRun} {conv : AiConversation} {group : Option (GroupId × AiGroup)}
    (h : s.scene run = some (conv, b, group)) : s.conversation run.conversationId = some conv ∧
      s.binding conv.bindingId = some b ∧ group = s.memberGroup b := by
  simp only [ControlPlane.scene, Option.bind_eq_bind, Option.bind_eq_some_iff] at h
  obtain ⟨conv', hconv, b', hb, h⟩ := h
  split at h <;> cases h
  exact ⟨hconv, hb, rfl⟩

theorem runDeferredOpenai_agrees {pk : RunId}
    (h : ∀ run conv b group, s.run pk = some run → run.status = .pending →
      s.scene run = some (conv, b, group) → AgreesFor s b true out submit generate) :
    runDeferredOpenai (out.answering submit generate) pk s = runDeferredOpenai out pk s := by
  refine bind_congr fun found s' heq => ?_
  cases heq
  beta_reduce
  cases hrun : s.run pk with
  | none => rfl
  | some run =>
    dsimp only
    by_cases hpending : run.status = .pending
    · simp only [ne_eq, hpending, not_true_eq_false, if_false]
      refine bind_congr fun scene s' heq => ?_
      cases heq
      beta_reduce
      cases hscene : s.scene run with
      | none => rfl
      | some scene =>
        obtain ⟨conv, b, group⟩ := scene
        have hagrees := h run conv b group hrun hpending hscene
        obtain rfl := (scene_eq_some hscene).2.2
        dsimp only
        rw [openaiExecute_agrees hagrees]
        rfl
    · simp only [ne_eq, hpending, not_false_eq_true, if_true]

end Engines

end TgPlatform
