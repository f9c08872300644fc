import TgPlatform.Ai.Running
import TgPlatform.Ai.System
import TgPlatform.Ai.TriggerWrites

/-! # What a transaction around a run makes

Whatever it is applied to, the write of a transaction rewrites the statuses of
the runs that it has worked on, or adds a new run, and makes a candidate for one
run at most, whose status it ends in the same breath.
-/

namespace TgPlatform

open Slots

/-- One candidate is made for a run, with its approval, and a job at most. -/
structure SaysOne (s s' : ControlPlane) (uuid : String) : Prop where
  candidate : ∃ c : AiCandidate, c.agentRunId = some uuid ∧
    (∀ i, s'.candidates.row? i = if i = s.candidates.size then some c else s.candidates.row? i) ∧
    (s'.jobs = s.jobs ∨ ∃ job : DeliveryJob, job.routeId = s!"ai_candidate:{c.uuid}" ∧
      s'.jobs = s.jobs.add job)
  approval : ∃ a : Approval, a.candidateId = s.candidates.size ∧ s'.approvals = s.approvals.add a

structure Leaves (e : Effect) (s s' : ControlPlane) : Prop where
  run : ∀ i r, s.runs.row? i = some r → ∃ r', s'.runs.row? i = some r' ∧ r'.uuid = r.uuid ∧
    (r'.status = r.status ∨ (i, r'.status) ∈ e.moved)
  back : ∀ i r', s'.runs.row? i = some r' → ∃ r, s.runs.row? i = some r
  said : Silent s s' ∨ ∃ pk uuid, e.speaks = some (pk, uuid) ∧ SaysOne s s' uuid ∧
    ∀ r', s'.runs.row? pk = some r' → r'.status.active = false

structure Adds (pk : RunId) (uuid : String) (s s' : ControlPlane) : Prop where
  others : ∀ i, i ≠ pk → s'.runs.row? i = s.runs.row? i
  own : ∃ r, s'.runs.row? pk = some r ∧ r.uuid = uuid ∧
    (Silent s s' ∨ SaysOne s s' uuid ∧ r.status.active = false)

variable {s s₁ s' : ControlPlane} {e e' e'' : Effect} {pk : RunId} {uuid : String}

theorem SaysOne.after (h : SaysOne s₁ s' uuid) (hsilent : Silent s s₁) : SaysOne s s' uuid := by
  constructor
  · rw [← hsilent.candidates, ← hsilent.jobs]
    exact h.candidate
  · rw [← hsilent.candidates, ← hsilent.approvals]
    exact h.approval

theorem ControlPlane.Created.saysOne {run : AiRun} {conv : AiConversation} {auto : Bool}
    {candidateId : CandidateId} (h : s.Created run conv auto candidateId s') :
    SaysOne s s' run.uuid := by
  obtain rfl := h.pk_eq
  obtain ⟨c, -, hrun, hrows⟩ := h.candidate
  obtain ⟨a, hcandidate, -, hadded⟩ := h.approval
  refine ⟨⟨c, hrun, hrows, ?_⟩, a, hcandidate, hadded⟩
  rcases h.job with hsame | ⟨-, job, -, -, -, -, hqueued, c', hc', hroute⟩
  · exact .inl hsame
  · rw [hrows, if_pos rfl] at hc'
    cases hc'
    exact .inr ⟨job, hroute, hqueued⟩

instance : Std.Refl (Leaves e) where
  refl _ := ⟨fun _ r hr => ⟨r, hr, rfl, .inl rfl⟩, fun _ r' hr' => ⟨r', hr'⟩, .inl ⟨rfl, rfl, rfl⟩⟩

theorem Leaves.of_unmoved (hsilent : Silent s s') (hruns : s'.runs = s.runs) : Leaves e s s' := by
  refine ⟨fun i r hr => ⟨r, ?_, rfl, .inl rfl⟩, fun i r' hr' => ⟨r', ?_⟩, .inl hsilent⟩
  · rwa [hruns]
  · rwa [← hruns]

theorem Leaves.trans (h : Leaves e s s₁) (hquiet : e.speaks = none) (h' : Leaves e' s₁ s')
    (hmoved : e''.moved = e'.moved ++ e.moved) (hspeaks : e''.speaks = e'.speaks) : Leaves e'' s s' := by
  have hsilent : Silent s s₁ := by
    refine h.said.resolve_right ?_
    rintro ⟨pk, uuid, hspoken, -⟩
    rw [hquiet] at hspoken
    cases hspoken
  refine ⟨fun i r hr => ?_, fun i r' hr' => ?_, ?_⟩
  · obtain ⟨r₁, hr₁, huuid, hstatus⟩ := h.run i r hr
    obtain ⟨r', hr', huuid', hstatus'⟩ := h'.run i r₁ hr₁
    refine ⟨r', hr', huuid'.trans huuid, ?_⟩
    rw [hmoved, List.mem_append]
    rcases hstatus' with hsame' | hmem'
    · rw [hsame']
      exact hstatus.imp_right .inr
    · exact .inr (.inl hmem')
  · obtain ⟨r₁, hr₁⟩ := h'.back i r' hr'
    exact h.back i r₁ hr₁
  · rw [hspeaks]
    refine h'.said.imp (fun hsilent' => IsTrans.trans _ _ _ hsilent hsilent') ?_
    rintro ⟨pk, uuid, hspoken, hone, hend⟩
    exact ⟨pk, uuid, hspoken, hone.after hsilent, hend⟩

theorem Leaves.of_modify {f : AiRun → AiRun} {status : RunStatus} (hsilent : Silent s s')
    (hruns : s'.runs = s.runs.modify pk f) (hf : ∀ r, (f r).uuid = r.uuid ∧ (f r).status = status) :
    Leaves { moved := [(pk, status)] } s s' := by
  refine ⟨fun i r hr => ?_, fun i r' hr' => ?_, .inl hsilent⟩
  · rw [hruns, row?_modify]
    split
    · subst i
      rw [hr]
      exact ⟨f r, rfl, (hf r).1, .inr (List.mem_singleton.mpr (by rw [(hf r).2]))⟩
    · exact ⟨r, hr, rfl, .inl rfl⟩
  · rw [hruns, row?_modify] at hr'
    split at hr'
    · obtain ⟨r, hr, -⟩ := Option.map_eq_some_iff.mp hr'
      exact ⟨r, hr⟩
    · exact ⟨r', hr'⟩

theorem Leaves.of_created {f : AiRun → AiRun} {run : AiRun} {conv : AiConversation} {auto : Bool}
    {candidateId : CandidateId} (h : s.Created run conv auto candidateId s₁) (hsilent : Silent s₁ s')
    (hruns : s'.runs = s₁.runs.modify pk f)
    (hf : ∀ r, (f r).uuid = r.uuid ∧ (f r).status = .completed) :
    Leaves { moved := [(pk, .completed)], speaks := some (pk, run.uuid) } s s' := by
  have hone : SaysOne s s' run.uuid := by
    constructor
    · rw [hsilent.candidates, hsilent.jobs]
      exact h.saysOne.candidate
    · rw [hsilent.approvals]
      exact h.saysOne.approval
  have hsame : s₁.runs = s.runs := by rw [h.others]
  rw [hsame] at hruns
  have hmoved : Leaves { moved := [(pk, .completed)] } s { s with runs := s.runs.modify pk f } :=
    .of_modify ⟨rfl, rfl, rfl⟩ rfl hf
  refine ⟨fun i r hr => ?_, fun i r' hr' => ?_, .inr ⟨pk, _, rfl, hone, fun r' hr' => ?_⟩⟩
  · rw [hruns]
    exact hmoved.run i r hr
  · rw [hruns] at hr'
    exact hmoved.back i r' hr'
  · rw [hruns, row?_modify_self] at hr'
    obtain ⟨r, -, rfl⟩ := Option.map_eq_some_iff.mp hr'
    rw [(hf r).2]
    rfl

section Statements

variable {out : Outside} {run : AiRun} {cid : ConversationId}

theorem giveUp_leaves {err : String} {now : Time} :
    Leaves { moved := [(pk, .cancelled)] } s (s.giveUp pk cid err now) :=
  .of_modify ⟨rfl, rfl, rfl⟩ rfl fun _ => ⟨rfl, rfl⟩

theorem expire_leaves {now : Time} :
    Leaves { moved := [(pk, .incomplete)] } s (s.expire pk cid now) :=
  .of_modify ⟨rfl, rfl, rfl⟩ rfl fun _ => ⟨rfl, rfl⟩

theorem failRun_leaves {err : String} :
    Txn.Does (Leaves { moved := [(pk, .failed)] }) ((failRun pk cid err).map fun _ => ()) := by
  intro s
  exact .map (.bind (.write (.read (.of_modify ⟨rfl, rfl, rfl⟩ rfl fun _ => ⟨rfl, rfl⟩))))

theorem speak_leaves {scene : Scene} {text : String} {quote : Option ℤ} :
    Txn.Does (Leaves { moved := [(pk, .completed)], speaks := some (pk, scene.prompt.run.uuid) })
      (speak out pk scene text quote) := by
  intro s
  refine .bind (.exec fun candidateId created h => .write ?_)
  exact .of_created (ControlPlane.createCandidate_created h) ⟨rfl, rfl, rfl⟩ rfl fun _ => ⟨rfl, rfl⟩

theorem answerRun_leaves {py : Python} {req : CallbackRequest} {cb : AiCallback} {text : String}
    {conv : AiConversation} :
    Txn.Does (Leaves { moved := [(pk, .completed)], speaks := some (pk, run.uuid) })
      (answerRun py req cb pk run text conv) := by
  intro s
  refine .bind (.exec fun candidateId created h => .write ?_)
  exact .of_created (ControlPlane.createCandidate_created h) ⟨rfl, rfl, rfl⟩ rfl fun _ => ⟨rfl, rfl⟩

theorem HandedOver.adds {req : TriggerRequest} {conv : AiConversation} {binding : AiBinding}
    (h : HandedOver req pk run cid conv binding s₁ s') (hrow : s₁.runs.row? pk = some run)
    (hsilent : Silent s s₁) (hothers : ∀ i, i ≠ pk → s₁.runs.row? i = s.runs.row? i) :
    Adds pk run.uuid s s' := by
  obtain ⟨r, hr, hlater⟩ := (onward_ends.handedOver h).runs.old pk run hrow
  refine ⟨fun i hi => ((handsOver_ends.handedOver h).others i hi).trans (hothers i hi), r, hr,
    hlater.uuid, ?_⟩
  have hquiet (hsame : Silent s₁ s') : Silent s s' := IsTrans.trans _ _ _ hsilent hsame
  cases h with
  | deferred _ => exact .inl (hquiet ⟨rfl, rfl, rfl⟩)
  | dispatched _ => exact .inl (hquiet ⟨rfl, rfl, rfl⟩)
  | refused _ => exact .inl (hquiet ⟨rfl, rfl, rfl⟩)
  | generated s' hfinished =>
    cases hfinished with
    | left _ => exact .inl (hquiet ⟨rfl, rfl, rfl⟩)
    | fail _ => exact .inl (hquiet ⟨rfl, rfl, rfl⟩)
    | speak candidateId created now usage hcreated =>
      refine .inr ⟨SaysOne.after ⟨hcreated.saysOne.candidate, hcreated.saysOne.approval⟩ hsilent, ?_⟩
      change (created.runs.modify pk _).row? pk = _ at hr
      rw [row?_modify_self] at hr
      obtain ⟨r₀, -, rfl⟩ := Option.map_eq_some_iff.mp hr
      rfl

end Statements

end TgPlatform
