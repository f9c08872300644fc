import TgPlatform.Control.Plane

/-! # From a run to a candidate

The candidate takes its scope from the run and its account, chat and topic from
the run's conversation. With automatic approval its send job is queued at once.
-/

namespace TgPlatform

/-- `CANDIDATE_TTL_HOURS`, in microseconds. -/
def candidateTtl : Time := 24 * 3600 * 1000000

/-- `telegram_account_dao.get_by_scope`. -/
def Directory.accountByScope (d : Directory) (tenantId projectId pk : ℕ) : Option TelegramAccount :=
  d.accounts.find? fun a =>
    a.id = pk && a.tenantId = tenantId && a.projectId = projectId && !a.deleted

structure Minted where
  candidate : String := ""
  approval : String := ""
  deriving DecidableEq, Repr

/-- `bool(group.auto_approve) if group is not None else bool(binding and binding.auto_approve)`. -/
def autoApproves (binding : Option AiBinding) : Option AiGroup → Bool
  | some group => group.autoApprove
  | none => binding.any AiBinding.autoApprove

def AiRun.candidate (run : AiRun) (conv : AiConversation) (sha256 : String → String) (text : String)
    (replyTo : Option ℤ) (minted : Minted) (now : Time) : AiCandidate where
  uuid := minted.candidate
  tenantId := run.tenantId
  projectId := run.projectId
  accountId := conv.accountId
  targetChatId := conv.chatId
  targetTopicId := conv.topicId
  content := text
  contentHash := sha256 text
  expiresAt := now + candidateTtl
  agentRunId := some run.uuid
  replyToSourceId := replyTo

namespace ControlPlane

def approvalOf (s : ControlPlane) (candidate : AiCandidate) (auto : Bool) (minted : Minted)
    (now : Time) :
    Approval where
  uuid := minted.approval
  tenantId := candidate.tenantId
  projectId := candidate.projectId
  candidateId := s.candidates.size
  candidateVersion := candidate.version
  contentHash := candidate.contentHash
  expiresAt := candidate.expiresAt
  status := if auto then .approved else .pending
  decidedAt := if auto then some now else none

/-- `_create_send_job`. -/
def createSendJob (s : ControlPlane) (approval : Approval) (candidate : AiCandidate) (now : Time) :
    Except Raised ControlPlane :=
  if (s.jobs.first? fun job => job.idempotencyKey = approval.jobKey).isSome then .ok s
  else
    match s.dir.tenant approval.tenantId, s.dir.project approval.projectId,
      s.dir.accountByScope approval.tenantId approval.projectId candidate.accountId with
    | some tenant, some project, some account =>
      let scope : JobScope := ⟨tenant.uuid, project.uuid, account.uuid⟩
      .ok { s with jobs := s.jobs.add ((approval.reply candidate.toReplyCandidate scope).job now) }
    | _, _, _ => .error (.error ⟨.notFound, "候选关联的租户/项目/账号缺失"⟩)

/-- `_create_candidate`. -/
def createCandidate (s : ControlPlane) (sha256 : String → String) (run : AiRun) (conv : AiConversation)
    (text : String) (binding : Option AiBinding) (group : Option AiGroup) (replyTo : Option ℤ)
    (minted : Minted) (now : Time) : Except Raised (CandidateId × ControlPlane) := do
  let auto := autoApproves binding group
  let candidate := run.candidate conv sha256 text replyTo minted now
  let approval := s.approvalOf candidate auto minted now
  let pk := s.candidates.size
  let created := { s with
    candidates := s.candidates.add candidate
    approvals := s.approvals.add approval }
  if auto then
    let approved := { created with
      candidates := created.candidates.modify pk fun c => { c with status := .approved } }
    let queued ← approved.createSendJob approval candidate now
    return (pk, queued)
  else return (pk, created)

/-! ## What comes of it -/

section

variable {s s' : ControlPlane} {approval : Approval} {candidate : AiCandidate} {now : Time}

theorem createSendJob_cases (h : s.createSendJob approval candidate now = .ok s') :
    s' = s ∨ ∃ t p a, s.dir.tenant approval.tenantId = some t ∧
      s.dir.project approval.projectId = some p ∧
      s.dir.accountByScope approval.tenantId approval.projectId candidate.accountId = some a ∧
      s' = { s with jobs := s.jobs.add ((approval.reply candidate.toReplyCandidate
        ⟨t.uuid, p.uuid, a.uuid⟩).job now) } := by
  unfold createSendJob at h
  split at h
  · cases h
    exact .inl rfl
  · split at h
    · rename_i t p a ht hp ha
      cases h
      exact .inr ⟨t, p, a, ht, hp, ha, rfl⟩
    · cases h

def withCandidate (s : ControlPlane) (c : AiCandidate) (a : Approval) : ControlPlane :=
  { s with candidates := s.candidates.add c, approvals := s.approvals.add a }

def approveCandidate (s : ControlPlane) (pk : CandidateId) : ControlPlane :=
  { s with candidates := s.candidates.modify pk fun c => { c with status := .approved } }

variable {sha256 : String → String} {run : AiRun} {conv : AiConversation} {text : String}
  {binding : Option AiBinding} {group : Option AiGroup} {replyTo : Option ℤ} {minted : Minted}

theorem createCandidate_eq :
    s.createCandidate sha256 run conv text binding group replyTo minted now =
      let c := run.candidate conv sha256 text replyTo minted now
      let a := s.approvalOf c (autoApproves binding group) minted now
      if autoApproves binding group = true then
        (((s.withCandidate c a).approveCandidate s.candidates.size).createSendJob a c now).map
          fun s' => (s.candidates.size, s')
      else .ok (s.candidates.size, s.withCandidate c a) := by
  unfold createCandidate
  dsimp only
  split
  · unfold approveCandidate withCandidate
    cases createSendJob _ _ _ _ <;> rfl
  · rfl

/-- What `_create_candidate` leaves: a new candidate with its approval, and a job only if it is
approved at once. -/
structure Created (s : ControlPlane) (run : AiRun) (conv : AiConversation) (auto : Bool)
    (pk : CandidateId) (s' : ControlPlane) : Prop where
  pk_eq : pk = s.candidates.size
  candidate : ∃ c : AiCandidate, c.accountId = conv.accountId ∧ c.agentRunId = some run.uuid ∧
    ∀ i, s'.candidates.row? i = if i = pk then some c else s.candidates.row? i
  approval : ∃ a : Approval, a.candidateId = pk ∧ (a.status = .approved → auto = true) ∧
    s'.approvals = s.approvals.add a
  job : s'.jobs = s.jobs ∨ auto = true ∧ ∃ job, ∃ account ∈ s.dir.accounts,
    account.id = conv.accountId ∧ job.accountId = account.uuid ∧ s'.jobs = s.jobs.add job ∧
    ∃ c, s'.candidates.row? pk = some c ∧ job.routeId = s!"ai_candidate:{c.uuid}"
  others : s' = { s with
    candidates := s'.candidates, approvals := s'.approvals, jobs := s'.jobs }

theorem createCandidate_created {pk : CandidateId}
    (h : s.createCandidate sha256 run conv text binding group replyTo minted now = .ok (pk, s')) :
    Created s run conv (autoApproves binding group) pk s' := by
  rw [createCandidate_eq] at h
  dsimp only at h
  cases hauto : autoApproves binding group with
  | false =>
    simp only [hauto, Bool.false_eq_true, if_false] at h
    cases h
    refine ⟨rfl, ⟨_, rfl, rfl, Slots.row?_add⟩, ⟨_, rfl, ?_, rfl⟩, .inl rfl, rfl⟩
    intro happroved
    simp [approvalOf] at happroved
  | true =>
    simp only [hauto, if_true] at h
    generalize hc : run.candidate conv sha256 text replyTo minted now = c at h
    generalize ha : s.approvalOf c true minted now = a at h
    have haccount : c.accountId = conv.accountId := by rw [← hc]; rfl
    have hrun : c.agentRunId = some run.uuid := by rw [← hc]; rfl
    have hcandidate : a.candidateId = s.candidates.size := by rw [← ha]; rfl
    have hrows : ∀ i, ((s.withCandidate c a).approveCandidate s.candidates.size).candidates.row? i =
        if i = s.candidates.size then some { c with status := .approved } else s.candidates.row? i := by
      intro i
      unfold approveCandidate withCandidate
      rw [Slots.row?_modify, Slots.row?_add]
      split
      · rename_i hi
        rw [if_pos hi.symm, if_pos hi.symm]
        rfl
      · rename_i hi
        rw [if_neg (Ne.symm hi), if_neg (Ne.symm hi)]
    obtain ⟨queued, hqueued, heq⟩ : ∃ queued,
        ((s.withCandidate c a).approveCandidate s.candidates.size).createSendJob a c now = .ok queued ∧
          (s.candidates.size, queued) = (pk, s') := by
      cases hq : ((s.withCandidate c a).approveCandidate s.candidates.size).createSendJob a c now with
      | error e =>
        rw [hq] at h
        cases h
      | ok queued =>
        rw [hq] at h
        exact ⟨queued, rfl, Except.ok.inj h⟩
    cases heq
    rcases createSendJob_cases hqueued with rfl | ⟨t, p, account, -, -, hfound, rfl⟩
    · exact ⟨rfl, ⟨{ c with status := .approved }, haccount, hrun, hrows⟩,
        ⟨a, hcandidate, fun _ => rfl, rfl⟩, .inl rfl, rfl⟩
    · have hkey := List.find?_some hfound
      simp only [Bool.and_eq_true, decide_eq_true_eq] at hkey
      exact ⟨rfl, ⟨{ c with status := .approved }, haccount, hrun, hrows⟩,
        ⟨a, hcandidate, fun _ => rfl, rfl⟩,
        .inr ⟨rfl, _, account, List.mem_of_find?_eq_some hfound, hkey.1.1.1.trans haccount, rfl, rfl, _,
          (hrows _).trans (if_pos rfl), rfl⟩,
        rfl⟩

end

end ControlPlane

end TgPlatform
