import TgPlatform.Control.BindingScope

/-! # Triggered runs among a user's own rows

A run takes the scope of its conversation and that of its binding, and so do
the candidate, the approval and the send job that come of it.
-/

namespace TgPlatform

namespace ControlPlane

variable {s : ControlPlane} {u : UserId} {out : Outside}

/-! ## From a run to a candidate -/

section Candidates

variable {approval : Approval} {candidate : AiCandidate} {now : Time}

theorem tenant_visible {t p : ℕ} (h : s.mine u (t, p) = true) :
    (s.visible u).dir.tenant t = s.dir.tenant t := by
  refine Directory.tenant_restrict.trans ?_
  cases htenant : s.dir.tenant t with
  | none => rfl
  | some row =>
    have hid : row.id = t := (Directory.tenant_eq_some htenant).2
    have hscope : (t, p) ∈ s.dir.scopes u := of_decide_eq_true h
    have hmem : row.id ∈ (s.dir.scopes u).map Prod.fst :=
      hid ▸ List.mem_map_of_mem (f := Prod.fst) hscope
    exact Option.filter_some_pos (by simpa using hmem)

theorem project_visible {t p : ℕ} (h : s.mine u (t, p) = true) :
    (s.visible u).dir.project p = s.dir.project p := by
  refine Directory.project_restrict.trans ?_
  cases hproject : s.dir.project p with
  | none => rfl
  | some row =>
    have hid : row.id = p := (Directory.project_eq_some hproject).2
    have hscope : (t, p) ∈ s.dir.scopes u := of_decide_eq_true h
    have hmem : row.id ∈ (s.dir.scopes u).map Prod.snd :=
      hid ▸ List.mem_map_of_mem (f := Prod.snd) hscope
    exact Option.filter_some_pos (by simpa using hmem)

theorem hasJob_visible (h : ∀ x ∈ s.jobs.where_ fun job => job.idempotencyKey = approval.jobKey,
    s.mineJob u x.2 = true) :
    ((s.visible u).jobs.first? fun job => job.idempotencyKey = approval.jobKey) =
      s.jobs.first? fun job => job.idempotencyKey = approval.jobKey :=
  Slots.first?_mask fun _ _ hrow hq => h _ (Slots.mem_where.mpr ⟨hrow, hq⟩)

theorem createSendJob_visible (hscope : s.mine u approval.scope = true)
    (hjobs : ∀ x ∈ s.jobs.where_ fun job => job.idempotencyKey = approval.jobKey,
      s.mineJob u x.2 = true) :
    (s.visible u).createSendJob approval candidate now =
      (s.createSendJob approval candidate now).map (fun s' => s'.visible u) ∧
    ∀ s', s.createSendJob approval candidate now = .ok s' → s'.foreign u = s.foreign u := by
  have hmember : (approval.tenantId, approval.projectId) ∈ s.dir.scopes u :=
    of_decide_eq_true hscope
  unfold createSendJob
  rw [hasJob_visible hjobs, tenant_visible hscope, project_visible hscope,
    accountByScope_visible hscope]
  split
  · constructor
    · rfl
    · rintro s' heq
      cases heq
      rfl
  · cases htenant : s.dir.tenant approval.tenantId with
    | none => exact ⟨rfl, fun _ heq => by cases heq⟩
    | some t =>
      cases hproject : s.dir.project approval.projectId with
      | none => exact ⟨rfl, fun _ heq => by cases heq⟩
      | some p =>
        cases s.dir.accountByScope approval.tenantId approval.projectId candidate.accountId with
        | none => exact ⟨rfl, fun _ heq => by cases heq⟩
        | some a =>
          have hjob : s.mineJob u
              ((approval.reply candidate.toReplyCandidate ⟨t.uuid, p.uuid, a.uuid⟩).job now) = true :=
            Directory.inScope_of_rows htenant hproject hmember
          constructor
          · simp only [Except.map, visible]
            congr 2
            exact (Slots.mask_add_of (p := fun job => s.mineJob u job) hjob).symm
          · intro s' heq
            cases heq
            exact congrArg (fun x => { s.foreign u with jobs := x }) (Slots.hidden_add_of hjob)

def candidateTable : ScopedTable AiCandidate where
  rows := candidates
  put s t := { s with candidates := t }
  scope := AiCandidate.scope
  rows_visible _ _ := rfl
  visible_put _ _ _ := rfl
  foreign_put s u _ h := congrArg (fun x => { s.foreign u with candidates := x }) h

def approvalTable : ScopedTable Approval where
  rows := approvals
  put s t := { s with approvals := t }
  scope := Approval.scope
  rows_visible _ _ := rfl
  visible_put _ _ _ := rfl
  foreign_put s u _ h := congrArg (fun x => { s.foreign u with approvals := x }) h

theorem withCandidate_confined (hc : s.mine u candidate.scope = true)
    (ha : s.mine u approval.scope = true) :
    Confined u (Txn.write fun s => s.withCandidate candidate approval) s :=
  .write_comp (candidateTable.add hc) (approvalTable.add ha)

theorem approveCandidate_confined (hc : s.mine u candidate.scope = true) :
    Confined u (Txn.write fun s' => s'.approveCandidate s.candidates.size)
      (s.withCandidate candidate approval) := by
  refine candidateTable.modify fun c hrow => ?_
  change (s.candidates.add candidate).row? s.candidates.size = some c at hrow
  rw [Slots.row?_add, if_pos rfl] at hrow
  cases hrow
  exact ⟨hc, hc⟩

variable {sha256 : String → String} {run : AiRun} {conv : AiConversation} {text : String}
  {binding : Option AiBinding} {group : Option AiGroup} {replyTo : Option ℤ} {minted : Minted}

theorem createCandidate_confined (hrun : s.mine u run.scope = true)
    (hjobs : ∀ x ∈ s.jobs.where_ fun job => job.idempotencyKey = s!"approval:{minted.approval}",
      s.mineJob u x.2 = true) :
    Confined u (Txn.exec fun s =>
      s.createCandidate sha256 run conv text binding group replyTo minted now) s := by
  let c := run.candidate conv sha256 text replyTo minted now
  let a := s.approvalOf c (autoApproves binding group) minted now
  have ha : (s.visible u).approvalOf c (autoApproves binding group) minted now = a := by
    simp [a, approvalOf, visible]
  have hsize : (s.visible u).candidates.size = s.candidates.size := Slots.size_mask
  have hcreate : Confined u (Txn.write fun s => s.withCandidate c a) s :=
    withCandidate_confined hrun hrun
  have happroved : Confined u (Txn.write fun s' => s'.approveCandidate s.candidates.size)
      (s.withCandidate c a) := approveCandidate_confined hrun
  obtain ⟨hwrite, hframe⟩ := hcreate.of_write
  obtain ⟨happrove, hframe'⟩ := happroved.of_write
  obtain ⟨hsend, hframe''⟩ := @createSendJob_visible
    ((s.withCandidate c a).approveCandidate s.candidates.size) u a c now hrun hjobs
  change (s.visible u).withCandidate c a = (s.withCandidate c a).visible u at hwrite
  change ((s.withCandidate c a).visible u).approveCandidate s.candidates.size = _ at happrove
  apply Txn.Confined.exec
  · change (s.visible u).createCandidate sha256 run conv text binding group replyTo minted now = _
    rw [createCandidate_eq, createCandidate_eq]
    dsimp only
    rw [ha, hsize, hwrite]
    split
    · rw [happrove]
      refine (congrArg _ hsend).trans ?_
      cases createSendJob _ a c now <;> rfl
    · rfl
  · intro pk s' heq
    rw [createCandidate_eq] at heq
    dsimp only at heq
    split at heq
    · cases hqueued : ((s.withCandidate c a).approveCandidate s.candidates.size).createSendJob
        a c now with
      | error e => rw [hqueued] at heq; cases heq
      | ok q =>
        rw [hqueued] at heq
        cases heq
        exact (hframe'' _ hqueued).trans (hframe'.trans hframe)
    · cases heq
      exact hframe

end Candidates

/-! ## The conversation of a trigger -/

section Conversations

variable {obj : AiTrigger} {b : AiBinding} {epoch : ℤ}

theorem currentEpoch_visible (h : s.mine u b.scope = true) :
    (s.visible u).currentEpoch b obj = s.currentEpoch b obj := by
  unfold currentEpoch
  rw [conversationsOf_visible]
  intro x hx
  obtain ⟨cid, c⟩ := x
  simp only [conversationsOf, Slots.mem_where, Bool.and_eq_true] at hx
  rw [AiConversation.scope, scope_of_matchesParam hx.2.1.2 hx.2.2]
  exact h

theorem conversationByScope_visible (h : s.mine u b.scope = true) :
    (s.visible u).conversationByScope b obj epoch = s.conversationByScope b obj epoch := by
  refine Slots.first?_mask fun _ c _ hc => ?_
  simp only [Bool.and_eq_true, decide_eq_true_eq] at hc
  rw [AiConversation.scope, hc.1.1.1.1.1.1, hc.1.1.1.1.1.2]
  exact h

theorem openConversation_confined (h : s.mine u b.scope = true) :
    Confined u (openConversation out obj b) s := by
  refine .read_bind (currentEpoch_visible h) (.read_bind (conversationByScope_visible h) ?_)
  split
  · exact .ret
  · refine .read_bind Slots.size_mask ?_
    exact .bind (conversationTable.add h) fun _ _ _ => .ret

theorem conversationByScope_eq_some {cid : ConversationId} {c : AiConversation}
    (h : s.conversationByScope b obj epoch = some (cid, c)) :
    s.conversations.row? cid = some c ∧ c.scope = b.scope := by
  obtain ⟨hrow, hc⟩ := Slots.first?_eq_some h
  simp only [Bool.and_eq_true, decide_eq_true_eq] at hc
  exact ⟨hrow, by rw [AiConversation.scope, hc.1.1.1.1.1.1, hc.1.1.1.1.1.2]; rfl⟩

theorem openConversation_keeps {U : Use → Prop} :
    Txn.Post (openConversation out obj b) s U fun r s' =>
      s'.conversations.row? r.1 = some r.2 ∧ r.2.scope = b.scope ∧
        r.2.sessionId = s.triggerSession out obj b ∧
        ∃ t, s' = { s with conversations := t } := by
  refine .bind (.read (.bind (.read ?_)))
  unfold triggerSession
  cases hfound : s.conversationByScope b obj (s.currentEpoch b obj) with
  | some found =>
    obtain ⟨hrow, hscope⟩ := conversationByScope_eq_some hfound
    exact .ret ⟨hrow, hscope, rfl, _, rfl⟩
  | none =>
    refine .bind (.read (.bind (.write (.ret ⟨?_, rfl, rfl, _, rfl⟩))))
    change (s.conversations.add _).row? s.conversations.size = some _
    rw [Slots.row?_add, if_pos rfl]

end Conversations

/-! ## The engine -/

section Engine

variable {pk : RunId} {cid : ConversationId} {conv : AiConversation}
  {group : Option (GroupId × AiGroup)}

theorem memberNicks_visible {gid : GroupId} (h : ∀ x ∈ s.pointingTo gid,
    s.mine u x.2.scope = true ∧ ∀ a ∈ s.accountRow x.2.accountId, s.mine u a.scope = true) :
    (s.visible u).memberNicks gid = s.memberNicks gid := by
  have hrows : ((s.visible u).bindings.where_ fun b => b.groupId = some gid && !b.deleted) =
      s.bindings.where_ fun b => b.groupId = some gid && !b.deleted :=
    Slots.where_mask_of fun x hx => (h x hx).1
  unfold memberNicks
  rw [hrows]
  refine List.filterMap_congr fun x hx => ?_
  have haccount : (s.visible u).accountRow x.2.accountId = s.accountRow x.2.accountId :=
    accountRow_visible (h x hx).2
  unfold accountRow at haccount
  rw [haccount]

theorem accountUid_visible {accountId : ℕ}
    (h : ∀ a ∈ s.accountRow accountId, s.mine u a.scope = true) :
    (s.visible u).accountUid accountId = s.accountUid accountId := by
  have haccount : (s.visible u).accountRow accountId = s.accountRow accountId :=
    accountRow_visible h
  unfold accountRow at haccount
  unfold accountUid
  rw [haccount]

theorem RunOwned.fail (h : RunOwned s u pk cid) {err : String} : Confined u (failRun pk cid err) s :=
  h.close fun _ => rfl

theorem createSendJob_keeps {s' : ControlPlane} {approval : Approval} {candidate : AiCandidate}
    {now : Time} (h : s.createSendJob approval candidate now = .ok s') :
    s'.dir = s.dir ∧ s'.runs = s.runs ∧ s'.conversations = s.conversations := by
  obtain rfl | ⟨t, p, a, -, -, -, rfl⟩ := createSendJob_cases h
  · exact ⟨rfl, rfl, rfl⟩
  · exact ⟨rfl, rfl, rfl⟩

theorem createCandidate_keeps {s' : ControlPlane} {sha256 : String → String} {run : AiRun}
    {text : String} {binding : Option AiBinding} {g : Option AiGroup} {replyTo : Option ℤ}
    {minted : Minted} {now : Time} {c : CandidateId}
    (h : s.createCandidate sha256 run conv text binding g replyTo minted now = .ok (c, s')) :
    s'.dir = s.dir ∧ s'.runs = s.runs ∧ s'.conversations = s.conversations := by
  rw [createCandidate_eq] at h
  dsimp only at h
  split at h
  · cases hqueued : createSendJob _ _ _ now with
    | error e => rw [hqueued] at h; cases h
    | ok q =>
      rw [hqueued] at h
      cases h
      obtain ⟨hdir, hruns, hconvs⟩ := createSendJob_keeps hqueued
      exact ⟨hdir, hruns, hconvs⟩
  · cases h
    exact ⟨rfl, rfl, rfl⟩

theorem RunOwned.congr {s' : ControlPlane} (h : RunOwned s u pk cid) (hdir : s'.dir = s.dir)
    (hruns : s'.runs = s.runs) (hconvs : s'.conversations = s.conversations) :
    RunOwned s' u pk cid where
  run r hr := by
    rw [hruns] at hr
    rw [mine, hdir]
    exact h.run r hr
  conversation c hc := by
    rw [hconvs] at hc
    rw [mine, hdir]
    exact h.conversation c hc

theorem RunOwned.finish (h : RunOwned s u pk cid) {prompt : Prompt} {mode : String}
    (hrun : s.mine u prompt.run.scope = true)
    (hjobs : ∀ x ∈ s.jobs.where_ fun job => job.idempotencyKey = s!"approval:{out.uuid 6}",
      s.mineJob u x.2 = true) :
    Confined u (openaiFinish out prompt group pk mode cid conv) s := by
  unfold openaiFinish
  refine .read_bind (Slots.row?_mask_of h.run) ?_
  split
  · exact .ret
  · split
    · exact h.fail
    · refine .bind (createCandidate_confined hrun hjobs) fun c s' heq => ?_
      obtain ⟨hdir, hruns, hconvs⟩ := createCandidate_keeps heq
      exact (h.congr hdir hruns hconvs).close fun _ => rfl

theorem RunOwned.execute (h : RunOwned s u pk cid) {obj : AiTrigger} {binding : AiBinding}
    {run : AiRun} {context after : List Json} (hrun : s.mine u run.scope = true)
    (hgroup : ∀ x ∈ group, ∀ y ∈ s.pointingTo x.1, s.mine u y.2.scope = true ∧
      ∀ a ∈ s.accountRow y.2.accountId, s.mine u a.scope = true)
    (haccount : ∀ a ∈ s.accountRow binding.accountId, s.mine u a.scope = true)
    (hjobs : ∀ x ∈ s.jobs.where_ fun job => job.idempotencyKey = s!"approval:{out.uuid 6}",
      s.mineJob u x.2 = true) :
    Confined u (openaiExecute out obj binding cid conv pk run context after group) s := by
  unfold openaiExecute
  dsimp only
  split
  · exact h.finish hrun hjobs
  · split
    · exact h.fail
    · refine .read_bind ?_ (.read_bind (accountUid_visible haccount) (.emit_bind ?_))
      · cases hg : group with
        | none => rfl
        | some x =>
          simp only [Option.map_some, Option.getD_some]
          exact memberNicks_visible (hgroup x hg)
      · exact h.finish hrun hjobs

theorem RunOwned.handOver (h : RunOwned s u pk cid) {f : AiRun → AiRun}
    (hf : ∀ r, (f r).scope = r.scope) : Confined u (do
      Txn.write fun s => (s.updateRun pk f).lockConversation cid
      Txn.read fun s => s.run pk) s := by
  have hmarked := h.of_updateRun hf
  refine .bind (.write_comp (h.updateRun hf) hmarked.lock) fun _ s' heq => ?_
  cases heq
  exact .read (run_visible fun r hr => hmarked.run r (Option.filter_eq_some_iff.mp hr).1)

theorem RunOwned.giveUp (h : RunOwned s u pk cid) {f : AiRun → AiRun}
    (hf : ∀ r, (f r).scope = r.scope) : Confined u (do
      Txn.write fun s => s.updateRun pk f
      Txn.read fun s => s.run pk) s := by
  refine .bind (h.updateRun hf) fun _ s' heq => ?_
  cases heq
  exact (h.of_updateRun hf).read

theorem RunOwned.submit (h : RunOwned s u pk cid) {result : SubmitResult} :
    Confined u (submitted pk cid result) s := by
  unfold submitted
  split
  · exact h.handOver fun _ => rfl
  · exact h.giveUp fun _ => rfl

end Engine

theorem activeBySession_visible {sessionId : String}
    (h : ∀ x ∈ s.activeRuns sessionId, s.mine u x.2.scope = true) :
    (s.visible u).activeBySession sessionId = s.activeBySession sessionId :=
  Slots.first?_mask fun _ _ hrow hq => h _ (Slots.mem_where.mpr ⟨hrow, hq⟩)

theorem RunOwned.of_new {cid : ConversationId} {conv : AiConversation} {run : AiRun}
    (hconv : s.conversations.row? cid = some conv) (hmine : s.mine u conv.scope = true)
    (hrun : run.scope = conv.scope) :
    RunOwned { s with runs := s.runs.add run } u s.runs.size cid where
  run r hr := by
    change (s.runs.add run).row? s.runs.size = some r at hr
    rw [Slots.row?_add, if_pos rfl] at hr
    cases hr
    exact (congrArg (s.mine u) hrun).trans hmine
  conversation c hc := by
    obtain rfl : conv = c := Option.some.inj (hconv.symm.trans hc)
    exact hmine

theorem trigger_confined {obj : AiTrigger} {defer : Bool} (h : s.TriggerOwned u out obj defer) :
    Confined u (trigger out obj defer) s := by
  have hactive : ((s.visible u).binding obj.bindingId).filter (fun b => b.status = "active") =
      (s.binding obj.bindingId).filter fun b => b.status = "active" :=
    Slots.row?_mask_filter_filter fun b hb hactive => (h b hb (of_decide_eq_true hactive)).1
  refine .read_bind_of (congrArg (fun o => orRefuse _ _ o >>= _) hactive)
    (orRefuse_bind fun b hb => ?_)
  rw [Option.mem_def, Option.filter_eq_some_iff, decide_eq_true_eq] at hb
  obtain ⟨hmine, hruns, hengine⟩ := h b hb.1 hb.2
  refine .bind_post (openConversation_confined hmine) (openConversation_keeps (U := fun _ => True)) ?_
  rintro ⟨cid, conv⟩ s' ⟨hconv, hscope, hsession, t, rfl⟩
  dsimp only at hconv hscope hsession ⊢
  have hmine' : s.mine u conv.scope = true := hscope ▸ hmine
  refine .read_bind (activeBySession_visible (hsession ▸ hruns)) ?_
  split
  · exact .throw
  · refine .read_bind Slots.size_mask (.bind (runTable.add hmine') fun _ s'' heq => ?_)
    cases heq
    let run := obj.run out cid conv (defer && b.engine = "openai")
      (lastItems obj.contextMaxMessages (obj.contextOverride.getD conv.contextMessages))
      (if (defer && b.engine = "openai") && obj.mode ≠ "script" then out.replyDelay b.replyDelayS
        else 0)
    have hown := RunOwned.of_new (s := { s with conversations := t }) hconv hmine'
      (show run.scope = conv.scope from rfl)
    split
    · exact .ret
    · rename_i hdeferred
      split
      · rename_i hopenai
        have hdefer : defer = false := by simpa [hopenai] using hdeferred
        obtain ⟨hgroup, haccount, hjobs⟩ := hengine hdefer hopenai
        refine .read_bind ?_ (hown.execute hmine' ?_ haccount hjobs)
        · cases hgid : b.groupId with
          | none => rfl
          | some gid =>
            have hvisible : (s.visible u).group gid = s.group gid :=
              group_visible fun g hg => (hgroup gid hgid g hg).1
            exact congrArg (Option.map fun row => (gid, row)) hvisible
        · intro x hx
          obtain ⟨gid, hgid, hx⟩ := Option.bind_eq_some_iff.mp hx
          obtain ⟨g, hg, rfl⟩ := Option.map_eq_some_iff.mp hx
          exact (hgroup gid hgid g hg).2
      · exact .lift_bind fun _ _ => hown.submit

end ControlPlane

end TgPlatform
