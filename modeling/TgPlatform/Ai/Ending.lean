import TgPlatform.Ai.Deferred
import TgPlatform.Ai.Triggering

/-! # What a run goes through

Once a run is there, its engine, a cancellation or a deadline rewrites its
status and may unlock its conversation, and a reply adds a candidate. A relation
that allows these writes relates the states before and after each of them.
-/

namespace TgPlatform

open Txn

structure Silent (s s' : ControlPlane) : Prop where
  candidates : s'.candidates = s.candidates
  approvals : s'.approvals = s.approvals
  jobs : s'.jobs = s.jobs

instance : Std.Refl Silent where
  refl _ := ⟨rfl, rfl, rfl⟩

instance : IsTrans ControlPlane Silent where
  trans _ _ _ h h' := ⟨h'.candidates.trans h.candidates, h'.approvals.trans h.approvals,
    h'.jobs.trans h.jobs⟩

inductive Finished (pk : RunId) (run : AiRun) (cid : ConversationId) (conv : AiConversation)
    (binding : AiBinding) (group : Option AiGroup) (s : ControlPlane) : ControlPlane → Prop
  | left : (s.runs.row? pk).any (fun r => r.status = .pending) = false →
      Finished pk run cid conv binding group s s
  | fail (err : String) : Finished pk run cid conv binding group s ((s.updateRun pk fun r => { r with
      status := .failed
      lastError := some err }).unlockConversation cid)
  | speak (candidateId : CandidateId) (created : ControlPlane) (now : Time) (usage : Json) :
      s.Created run conv (autoApproves (some binding) group) candidateId created →
      Finished pk run cid conv binding group s ((created.updateRun pk fun r => { r with
        status := .completed
        candidateId := some candidateId
        completedAt := some now
        usage := usage }).unlockConversation cid)

section Finished

variable {pk : RunId} {run : AiRun} {cid : ConversationId} {conv : AiConversation}
  {binding : AiBinding} {out : Outside} {s : ControlPlane} {U : Use → Prop}

theorem failRun_finished {err : String} {group : Option AiGroup} :
    Post (failRun pk cid err) s U fun _ s' => Finished pk run cid conv binding group s s' :=
  .bind (.write (.read (.fail _)))

theorem openaiFinish_finished {prompt : Prompt} {group : Option (GroupId × AiGroup)} {mode : String} :
    Post (openaiFinish out prompt group pk mode cid conv) s U fun _ s' =>
      Finished pk prompt.run cid conv prompt.binding (group.map Prod.snd) s s' := by
  refine .bind (.read ?_)
  split
  · rename_i hpending
    exact .ret (.left (by simpa using hpending))
  · split
    · exact failRun_finished
    · refine .bind (.exec fun candidateId created h => ?_)
      exact .bind (.write (.read (.speak candidateId created _ _
        (ControlPlane.createCandidate_created h))))

theorem openaiExecute_finished {obj : AiTrigger} {context after : List Json}
    {group : Option (GroupId × AiGroup)} :
    Post (openaiExecute out obj binding cid conv pk run context after group) s
      (fun _ => True) fun _ s' =>
      Finished pk run cid conv binding (group.map Prod.snd) s s' := by
  unfold openaiExecute
  dsimp only
  split
  · exact openaiFinish_finished
  · split
    · exact failRun_finished
    · exact .bind (.read (.bind (.read (.bind (.emit trivial openaiFinish_finished)))))

inductive HandedOver (req : TriggerRequest) (pk : RunId) (run : AiRun) (cid : ConversationId)
    (conv : AiConversation) (binding : AiBinding) (s : ControlPlane) : ControlPlane → Prop
  | deferred : req.deferred binding = true → HandedOver req pk run cid conv binding s s
  | generated (s' : ControlPlane) :
      Finished pk run cid conv binding ((s.memberGroup binding).map Prod.snd) s s' →
      HandedOver req pk run cid conv binding s s'
  | dispatched (accepted : Option String) :
      HandedOver req pk run cid conv binding s ((s.updateRun pk fun r => { r with
        status := .dispatched
        acceptedMessageId := accepted }).lockConversation cid)
  | refused (err : String) : HandedOver req pk run cid conv binding s (s.updateRun pk fun r => { r with
      status := .failed
      lastError := some err })

theorem handOver_handedOver {req : TriggerRequest} :
    Post (req.handOver binding conv cid pk run) s (fun _ => True) fun _ s' =>
      HandedOver req pk run cid conv binding s s' := by
  unfold TriggerRequest.handOver
  split
  · rename_i hdeferred
    exact .ret (.deferred hdeferred)
  · split
    · exact .bind (.read (openaiExecute_finished.mono fun _ s' h => .generated s' h))
    · refine .bind (.lift fun _ _ => ?_)
      unfold submitted
      split
      · exact .bind (.write (.read (.dispatched _)))
      · exact .bind (.write (.read (.refused _)))

inductive Delivered (out : Outside) (pk : RunId) (s : ControlPlane) : ControlPlane → Prop
  | skipped : Delivered out pk s s
  | givenUp (run : AiRun) (err : String) : s.run pk = some run → run.status = .pending →
      Delivered out pk s (s.giveUp pk run.conversationId err out.now)
  | generated (run : AiRun) (conv : AiConversation) (binding : AiBinding)
      (group : Option (GroupId × AiGroup)) (s' : ControlPlane) : s.run pk = some run →
      run.status = .pending → s.scene run = some (conv, binding, group) →
      Finished pk run run.conversationId conv binding (group.map Prod.snd) s s' →
      Delivered out pk s s'

theorem runDeferredOpenai_delivered :
    Post (runDeferredOpenai out pk) s (fun _ => True) fun _ s' => Delivered out pk s s' := by
  refine .bind (.read ?_)
  cases hrun : s.run pk with
  | none => exact .ret .skipped
  | some run =>
    dsimp only
    split
    · exact .ret .skipped
    · rename_i hpending
      rw [not_not] at hpending
      refine .bind (.read ?_)
      cases hscene : s.scene run with
      | none => exact .bind (.write (.ret (.givenUp run _ hrun hpending)))
      | some scene =>
        obtain ⟨conv, binding, group⟩ := scene
        dsimp only
        split
        · exact .bind (.write (.ret (.givenUp run _ hrun hpending)))
        · exact .map (openaiExecute_finished.mono fun _ s' h =>
            .generated run conv binding group s' hrun hpending hscene h)

end Finished

/-! ## Relations that allow all this -/

/-- What of a run only its creation and its callbacks decide. -/
structure AiRun.Later (r r' : AiRun) : Prop where
  uuid : r'.uuid = r.uuid
  conversationId : r'.conversationId = r.conversationId
  sessionId : r'.sessionId = r.sessionId
  expectedSeq : r'.expectedSeq = r.expectedSeq
  pending : r'.status = .pending → r.status = .pending

instance : Std.Refl AiRun.Later where
  refl _ := ⟨rfl, rfl, rfl, rfl, id⟩

instance : IsTrans AiRun AiRun.Later where
  trans _ _ _ h h' := ⟨h'.uuid.trans h.uuid, h'.conversationId.trans h.conversationId,
    h'.sessionId.trans h.sessionId, h'.expectedSeq.trans h.expectedSeq,
    fun hp => h.pending (h'.pending hp)⟩

structure Ends (pk : RunId) (P : ControlPlane → ControlPlane → Prop) : Prop where
  run : ∀ s f, (∀ r : AiRun, r.Later (f r)) → P s (s.updateRun pk f)
  conversation : ∀ (s : ControlPlane) cid status,
    P s { s with conversations := s.conversations.modify cid fun c => { c with status := status } }
  candidate : ∀ (s : ControlPlane) candidates approvals jobs,
    P s { s with candidates := candidates, approvals := approvals, jobs := jobs }

section Ends

variable {pk : RunId} {P : ControlPlane → ControlPlane → Prop} [Std.Refl P] [IsTrans ControlPlane P]
  {out : Outside} {run : AiRun} {cid : ConversationId} {conv : AiConversation} {binding : AiBinding}
  {s s' : ControlPlane}

omit [Std.Refl P] in
theorem Ends.unlock (h : Ends pk P) {f : AiRun → AiRun} (hf : ∀ r : AiRun, r.Later (f r)) :
    P s ((s.updateRun pk f).unlockConversation cid) :=
  IsTrans.trans _ _ _ (h.run s f hf) (h.conversation _ cid .open_)

omit [Std.Refl P] in
theorem Ends.lock (h : Ends pk P) {f : AiRun → AiRun} (hf : ∀ r : AiRun, r.Later (f r)) :
    P s ((s.updateRun pk f).lockConversation cid) :=
  IsTrans.trans _ _ _ (h.run s f hf) (h.conversation _ cid .locked)

theorem Ends.finished (h : Ends pk P) {group : Option AiGroup}
    (hs : Finished pk run cid conv binding group s s') : P s s' := by
  cases hs with
  | left _ => exact Std.Refl.refl s
  | fail err => exact h.unlock fun _ => ⟨rfl, rfl, rfl, rfl, nofun⟩
  | speak candidateId created now usage hcreated =>
    have hcandidate : P s created := by
      rw [hcreated.others]
      exact h.candidate s _ _ _
    exact IsTrans.trans _ _ _ hcandidate (h.unlock fun _ => ⟨rfl, rfl, rfl, rfl, nofun⟩)

theorem Ends.handedOver (h : Ends pk P) {req : TriggerRequest}
    (hs : HandedOver req pk run cid conv binding s s') : P s s' := by
  cases hs with
  | deferred _ => exact Std.Refl.refl s
  | generated _ hfinished => exact h.finished hfinished
  | dispatched accepted => exact h.lock fun _ => ⟨rfl, rfl, rfl, rfl, nofun⟩
  | refused err => exact h.run s _ fun _ => ⟨rfl, rfl, rfl, rfl, nofun⟩

theorem Ends.handOver (h : Ends pk P) {req : TriggerRequest} :
    Does P (req.handOver binding conv cid pk run) := fun _ =>
  handOver_handedOver.mono fun _ _ => h.handedOver

theorem Ends.runDeferredOpenai (h : Ends pk P) : Does P (runDeferredOpenai out pk) := by
  intro s
  refine runDeferredOpenai_delivered.mono fun _ s' hs => ?_
  cases hs with
  | skipped => exact Std.Refl.refl s
  | givenUp run err _ _ => exact h.unlock fun _ => ⟨rfl, rfl, rfl, rfl, nofun⟩
  | generated _ _ _ _ _ _ _ _ hfinished => exact h.finished hfinished

end Ends

end TgPlatform
