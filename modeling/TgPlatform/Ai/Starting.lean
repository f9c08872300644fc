import TgPlatform.Ai.System

/-! # How a run starts

A trigger finds a conversation by the scope of its binding, which names neither
the binding nor its account, or opens one. Of the requests, one triggers a run
for a binding of the caller's choice and one for a member that is to speak up.
-/

namespace TgPlatform

open Txn

structure Started (req : TriggerRequest) (s : ControlPlane) (b : AiBinding) (cid : ConversationId)
    (conv : AiConversation) (s₀ : ControlPlane) : Prop where
  binding : s.binding req.obj.bindingId = some b
  active : b.status = "active"
  idle : s.activeBySession conv.sessionId = none
  conversation : s.conversationByScope b req.obj (s.currentEpoch b req.obj) = some (cid, conv) ∧
      s₀.conversations = s.conversations ∨
    conv = req.obj.conversation req.out b (s.currentEpoch b req.obj) ∧
      cid = s.conversations.size ∧ s₀.conversations = s.conversations.add conv
  others : s₀ = { s with
    conversations := s₀.conversations, runs := s.runs.add (req.run b conv cid) }

variable {out : Outside} {obj : AiTrigger} {defer : Bool} {s s' : ControlPlane}

theorem trigger_started : Post (trigger out obj defer) s (fun _ => True) fun _ s' =>
    ∃ b cid conv s₀, Started ⟨out, obj, defer⟩ s b cid conv s₀ ∧
      HandedOver ⟨out, obj, defer⟩ s.runs.size
        (TriggerRequest.run ⟨out, obj, defer⟩ b conv cid) cid conv b s₀ s' := by
  rw [trigger_eq ⟨out, obj, defer⟩]
  refine .bind (.read (.bind (orRefuse_keeps.mono fun b s' h => ?_)))
  obtain ⟨hb, rfl⟩ := h
  obtain ⟨hb, hactive⟩ := Option.filter_eq_some_iff.mp hb
  rw [decide_eq_true_eq] at hactive
  refine .bind (.bind (.read (.bind (.read ?_))))
  cases hfound : s'.conversationByScope b obj (s'.currentEpoch b obj) with
  | some found =>
    obtain ⟨cid, conv⟩ := found
    refine .ret (.bind (.read ?_))
    split
    · exact .throw
    · rename_i hidle
      refine .bind (.read (.bind (.write (handOver_handedOver.mono fun _ s'' h => ?_))))
      exact ⟨b, cid, conv, { s' with runs := s'.runs.add _ },
        ⟨hb, hactive, Option.not_isSome_iff_eq_none.mp hidle, .inl ⟨hfound, rfl⟩, rfl⟩, h⟩
  | none =>
    refine .bind (.read (.bind (.write (.ret (.bind (.read ?_))))))
    split
    · exact .throw
    · rename_i hidle
      refine .bind (.read (.bind (.write (handOver_handedOver.mono fun _ s'' h => ?_))))
      exact ⟨b, _, _, _,
        ⟨hb, hactive, Option.not_isSome_iff_eq_none.mp hidle, .inr ⟨rfl, rfl, rfl⟩, rfl⟩, h⟩

/-- The trigger that a step comes down to, and the state that it meets. -/
structure Triggered where
  out : Outside
  obj : AiTrigger
  defer : Bool
  state : ControlPlane

def AiAction.triggered (s : ControlPlane) : AiAction → Option Triggered
  | .trigger out obj defer => some ⟨out, obj, defer, s⟩
  | .request out _ (.triggerRun obj) => some ⟨out, obj, false, s⟩
  | .request out _ (.warmupGroup pk) =>
    (s.group pk).bind fun group =>
      let pool := s.speakers pk group out.now
      (pool[out.pick pool.length % pool.length]?).map fun speaker =>
        ⟨out, group.speech speaker.1 "warmup", true,
          s.updateGroupRow pk fun g => { g with lastWarmupAt := some out.now }⟩
  | _ => none

theorem warmupNow_triggered {caller : Caller} {pk : GroupId} :
    Post (warmupNow out caller pk) s (fun _ => True) fun _ s' => s' = s ∨
      ∃ t, (AiAction.request out caller (.warmupGroup pk)).triggered s = some t ∧
        s' = (trigger t.out t.obj t.defer).commit t.state := by
  refine .bind (.bind (.read (.bind (orRefuse_keeps.mono fun group s' h => ?_))))
  obtain ⟨hgroup, rfl⟩ := h
  refine .bind (checkScope_keeps.mono fun _ s'' h => ?_)
  obtain ⟨-, rfl⟩ := h
  refine .ret ?_
  split
  · exact .throw
  · unfold warmupGroup
    split
    · exact .ret (.inl rfl)
    · refine .bind (.read ?_)
      split
      · exact .ret (.inl rfl)
      · rename_i speaker hspeaker
        refine .bind (.write (Post.attempt_eq.mono fun _ s' hs' => .inr ?_))
        refine ⟨⟨out, group.speech speaker.1 "warmup", true,
          s''.updateGroupRow pk fun g => { g with lastWarmupAt := some out.now }⟩, ?_, hs'.trans ?_⟩
        · simp only [AiAction.triggered, Option.mem_def.mp hgroup, Option.bind_some, hspeaker,
            Option.map_some]
        · exact commit_map

theorem aiNext_triggered {a : AiAction} {t : Triggered} (h : a.triggered s = some t) :
    aiNext s a = s ∨ aiNext s a = (trigger t.out t.obj t.defer).commit t.state := by
  cases a with
  | trigger out obj defer =>
    cases h
    exact .inr rfl
  | request out caller req =>
    cases req with
    | triggerRun obj =>
      cases h
      exact .inr commit_map
    | warmupGroup pk =>
      have hpost := Post.commit (@warmupNow_triggered out s caller pk) (.inl rfl)
      rcases hpost with hsame | ⟨t', ht', hcommit⟩
      · exact .inl (commit_map.trans hsame)
      · rw [h] at ht'
        cases ht'
        exact .inr (commit_map.trans hcommit)
    | _ => cases h
  | _ => cases h

end TgPlatform
