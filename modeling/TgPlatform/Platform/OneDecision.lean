import TgPlatform.Platform.Decisions

/-! # One decision for each approval

Nothing asks for the status again once a call has read the approval as
pending. Calls that commit one after the other on what they read together all
take effect, and the job of an approval outlives a later rejection.
-/

namespace TgPlatform

structure Reviews where
  desk : Desk
  jobs : Table DeliveryJob

namespace Reviews

def empty : Reviews := ⟨.empty, .empty⟩

def hasKey (s : Reviews) (key : String) : Bool := s.jobs.any fun job => job.idempotencyKey = key

/-- A step of the desk; a job whose key is taken violates the unique constraint. -/
def step (s : Reviews) (x : DeskAction) : Option Reviews :=
  (s.desk.step s.hasKey x).bind fun (desk, job) =>
    match job with
    | none => some { s with desk }
    | some job =>
      if s.hasKey job.idempotencyKey then none else some { desk, jobs := s.jobs.insert job }

/-- Approval `pk` has at most one decision, its candidate has its status, and its job is there
exactly when that is `approved`. -/
structure OneDecision (pk : ApprovalId) (s : Reviews) : Prop where
  once : (s.desk.decidedIds.filter fun id => id = pk).length ≤ 1
  agree : ∀ a, s.desk.approvals.get? pk = some a →
    ∃ c, s.desk.candidates.get? a.candidateId = some c ∧ c.status = a.status
  queued : ∀ a, s.desk.approvals.get? pk = some a → (s.hasKey a.jobKey = true ↔ a.status = .approved)

/-- A decision on approval `pk` that commits finds it pending. -/
def CommitsPending (pk : ApprovalId) (s : Reviews) (x : DeskAction) (_ : Reviews) : Prop :=
  ∀ k tx a, x = .commit k → s.desk.calls.get? k = some tx → tx.request.pk = pk →
    s.desk.approvals.get? pk = some a → a.status = .pending

/-- The desk keeps its invariant and each job is that of an approval. -/
structure Sound (s : Reviews) : Prop where
  desk : s.desk.Sound s.hasKey
  keys : ∀ key, s.hasKey key = true → ∃ i a, s.desk.approvals.get? i = some a ∧ key = a.jobKey

theorem sound_empty : Reviews.empty.Sound where
  desk := Desk.sound_empty _
  keys key h := by cases h

theorem oneDecision_empty (pk : ApprovalId) : OneDecision pk Reviews.empty where
  once := by simp [Reviews.empty, Desk.empty, Desk.decidedIds]
  agree a h := by cases h
  queued a h := by cases h

variable {s s' : Reviews} {x : DeskAction} {pk i : ApprovalId} {a b : Approval} {key : String}

theorem step_desk (h : s.step x = some s') : ∃ job, s.desk.step s.hasKey x = some (s'.desk, job) ∧
    ∀ key, s'.hasKey key = true ↔
      s.hasKey key = true ∨ ∃ j, job = some j ∧ j.idempotencyKey = key := by
  obtain ⟨⟨desk, job⟩, hstep, h⟩ := Option.bind_eq_some_iff.mp h
  cases job with
  | none =>
    cases h
    exact ⟨none, hstep, fun key => by simp [hasKey]⟩
  | some job =>
    simp only [Option.ite_none_left_eq_some] at h
    obtain ⟨-, h⟩ := h
    cases h
    refine ⟨some job, hstep, fun key => ?_⟩
    simp [hasKey, Table.any, Table.insert, Table.append]

theorem Sound.agree (hs : s.Sound) (ha : s.desk.approvals.get? pk = some a) :
    ∃ c, s.desk.candidates.get? a.candidateId = some c ∧ c.status = a.status := by
  obtain ⟨c, hc, -⟩ := hs.desk.tied ha
  exact ⟨c, hc, hs.desk.agree ha hc⟩

theorem Sound.step (hs : s.Sound) (h : s.step x = some s') : s'.Sound := by
  obtain ⟨job, hstep, hkeys⟩ := step_desk h
  have hmoves := Desk.step_moves hstep
  constructor
  · exact (hs.desk.step hstep).mono fun key hkey => (hkeys key).mpr (Or.inl hkey)
  · intro key hkey
    rcases (hkeys key).mp hkey with hkey | ⟨j, hj, rfl⟩
    · obtain ⟨i, a, ha, rfl⟩ := hs.keys key hkey
      obtain ⟨a', ha', hcreated, -⟩ := hmoves.approval_kept ha
      have huuid : a'.uuid = a.uuid := (congrArg Approval.uuid hcreated :)
      exact ⟨i, a', ha', by rw [Approval.jobKey, Approval.jobKey, huuid]⟩
    · obtain ⟨i, a, c, scope, now, ha, -, -, rfl⟩ := hmoves.job_approved hs.desk hj
      exact ⟨i, a, ha, Approval.reply_key a c scope now⟩

theorem once_step (hs : s.Sound) (hone : OneDecision pk s) (h : s.step x = some s')
    (hpending : CommitsPending pk s x s') :
    (s'.desk.decidedIds.filter fun id => id = pk).length ≤ 1 := by
  obtain ⟨job, hstep, -⟩ := step_desk h
  have hmoves := Desk.step_moves hstep
  generalize s'.desk = d' at hmoves ⊢
  cases hmoves with
  | create hfresh hbind hstatus hjob => exact hone.once
  | submit request => exact hone.once
  | advance htx hadvances => exact hone.once
  | @decide k tx approval now job htx hdecides =>
    simp only [Desk.decidedIds, Desk.decide, List.map_append, List.map_cons, List.map_nil,
      List.filter_append, List.length_append]
    by_cases hpk : tx.request.pk = pk
    · have hnone : s.desk.decidedIds.filter (fun id => id = pk) = [] := by
        apply List.filter_eq_nil_iff.mpr
        intro id hid hidpk
        obtain rfl : id = pk := by simpa using hidpk
        obtain ⟨a, ha, hdecided⟩ := hs.desk.decided hid
        exact hdecided (hpending k tx a rfl htx hpk ha)
      rw [Desk.decidedIds] at hnone
      simp [hnone, hpk]
    · have honce := hone.once
      rw [Desk.decidedIds] at honce
      simpa [hpk] using honce

theorem jobKey_ne (hs : s.Sound) (ha : s.desk.approvals.get? pk = some a)
    (hb : s.desk.approvals.get? i = some b) (hne : i ≠ pk) : b.jobKey ≠ a.jobKey := fun heq =>
  hne (hs.desk.uuids hb ha (Approval.jobKey_inj heq))

theorem queued_step (hs : s.Sound) (hone : OneDecision pk s) (h : s.step x = some s')
    (hpending : CommitsPending pk s x s') (ha : s'.desk.approvals.get? pk = some a) :
    s'.hasKey a.jobKey = true ↔ a.status = .approved := by
  obtain ⟨job, hstep, hkeys⟩ := step_desk h
  have hmoves := Desk.step_moves hstep
  rw [hkeys]
  generalize s'.desk = d' at hmoves ha
  cases hmoves with
  | @create _ candidate approval _ hfresh hbind hstatus hjob =>
    rw [Table.get?_insert] at ha
    split at ha
    · cases ha
      have hnone : ¬ s.hasKey a.jobKey = true := by
        intro hkey
        obtain ⟨i, b, hb, heq⟩ := hs.keys _ hkey
        exact Desk.fresh_approval hfresh hb (Approval.jobKey_inj heq)
      rcases hjob with ⟨hstatus, rfl⟩ | ⟨hstatus, scope, now, rfl⟩
      · simp [hnone, hstatus]
      · simp [hstatus, Approval.reply_key]
    · have hother : ∀ j, job = some j → j.idempotencyKey ≠ a.jobKey := by
        rintro j rfl heq
        rcases hjob with ⟨-, hnone⟩ | ⟨-, scope, now, hsome⟩
        · cases hnone
        · cases hsome
          exact Desk.fresh_approval hfresh ha (Approval.jobKey_inj heq)
      rw [← hone.queued a ha]
      exact ⟨fun h => h.elim id fun ⟨j, hj, heq⟩ => (hother j hj heq).elim, Or.inl⟩
  | submit request => simpa using hone.queued a ha
  | advance htx hadvances => simpa using hone.queued a ha
  | @decide k tx approval now job htx hdecides =>
    obtain ⟨b, hb, hcreated, -⟩ := (hs.desk.calls htx).approval hdecides.seen
    have huuid : b.uuid = approval.uuid := (congrArg Approval.uuid hcreated :)
    have hkey : approval.jobKey = b.jobKey := by rw [Approval.jobKey, Approval.jobKey, huuid]
    have hjob : ∀ j, job = some j → j.idempotencyKey = b.jobKey := by
      intro j hj
      cases hdecides with
      | reject hstage hverdict => cases hj
      | approve hstage =>
        obtain ⟨-, -, hsome⟩ := (hs.desk.calls htx).job hstage
        obtain ⟨scope, now, rfl⟩ := hsome j hj
        exact (Approval.reply_key _ _ _ _).trans hkey
    simp only [Desk.decide, Table.get?_update] at ha
    split at ha
    · rename_i hpk
      rw [← hpk, hb] at ha
      cases ha
      have hstatus := hpending k tx b rfl htx hpk (hpk ▸ hb)
      cases hdecides with
      | reject hstage hverdict =>
        have hnone : ¬ s.hasKey b.jobKey = true := by
          rw [hone.queued b (hpk ▸ hb), hstatus]
          decide
        simpa [hverdict, Verdict.status, Approval.jobKey] using hnone
      | @approve _ job hstage =>
        obtain ⟨hverdict, hnone, -⟩ := (hs.desk.calls htx).job hstage
        simp only [hverdict, Verdict.status, iff_true]
        cases job with
        | none => exact Or.inl (hkey ▸ hnone rfl)
        | some j => exact Or.inr ⟨j, rfl, hjob j rfl⟩
    · rename_i hpk
      have hother := jobKey_ne hs ha hb hpk
      rw [← hone.queued a ha]
      exact ⟨fun h => h.elim id fun ⟨j, hj, heq⟩ => (hother ((hjob j hj).symm.trans heq)).elim,
        Or.inl⟩

theorem not_once (hs : s.Sound) (h : s.step x = some s') (hone : OneDecision pk s') :
    CommitsPending pk s x s' := by
  intro k tx a hx htx hpk ha
  obtain ⟨job, hstep, -⟩ := step_desk h
  subst hx
  obtain ⟨tx', approval, now, htx', hdecides, hdesk⟩ := Desk.step_commit hstep
  obtain rfl : tx = tx' := Option.some.inj (htx.symm.trans htx')
  obtain ⟨b, hb, -, hstatus⟩ := (hs.desk.calls htx).approval hdecides.seen
  rw [hpk] at hb hstatus
  obtain rfl : a = b := Option.some.inj (ha.symm.trans hb)
  rcases hstatus with hpending | hdecided
  · exact hpending
  · have honce := hone.once
    rw [hdesk] at honce
    simp only [Desk.decidedIds, Desk.decide, List.map_append, List.map_cons, List.map_nil,
      List.filter_append, List.length_append, hpk] at honce
    have hmem : pk ∈ s.desk.decidedIds.filter fun id => id = pk := by simp [hdecided]
    have hpos := List.length_pos_of_mem hmem
    rw [Desk.decidedIds] at hpos
    simp only [decide_true, List.filter_cons_of_pos, List.filter_nil, List.length_cons,
      List.length_nil] at honce
    omega

/-- Every approval has at most one effective decision, with which its candidate and its job
agree, exactly when each decision on it commits while it is still pending. -/
theorem one_decision (pk : ApprovalId) (as : List DeskAction) :
    Machine.Always step (fun _ _ s' => OneDecision pk s') empty as ↔
      Machine.Always step (CommitsPending pk) empty as := by
  constructor
  · intro h
    exact h.of_invariant (I := Sound) (fun _ _ _ hstep _ hs => hs.step hstep)
      (fun _ _ _ hstep hone hs => not_once hs hstep hone) sound_empty
  · intro h
    have hI (s : Reviews) (x : DeskAction) (s' : Reviews) (hstep : s.step x = some s')
        (hpending : CommitsPending pk s x s') (hs : s.Sound ∧ OneDecision pk s) :
        s'.Sound ∧ OneDecision pk s' :=
      ⟨hs.1.step hstep, once_step hs.1 hs.2 hstep hpending, fun _ ha => (hs.1.step hstep).agree ha,
        fun _ => queued_step hs.1 hs.2 hstep hpending⟩
    exact h.of_invariant hI (fun s x s' hstep hG hs => (hI s x s' hstep hG hs).2)
      ⟨sound_empty, oneDecision_empty pk⟩

/-- Two reviewers open the same approval; the approval commits, then the rejection that has read
it as pending. -/
def staleRejection : List DeskAction :=
  let candidate : ReplyCandidate := {
    uuid := "c", tenantId := 1, projectId := 1, accountId := 1, targetChatId := 7
    content := "hi", contentHash := "h", expiresAt := 100 }
  let request (verdict : Verdict) : DecideRequest := {
    pk := 0, userId := 1, expectVersion := 1, expectHash := "h", verdict }
  let scope : JobScope := ⟨"t", "p", "A"⟩
  [.create candidate "1", .submit (request .approved), .submit (request .rejected),
    .readApproval 0 1 true, .readCandidate 0, .readApproval 1 1 true, .readCandidate 1,
    .writeApproval 0, .writeCandidate 0, .createJob 0 (some scope) 2, .commit 0,
    .writeApproval 1, .writeCandidate 1, .commit 1]

theorem rejected_with_job :
    ∃ s a, Machine.run step empty staleRejection = some s ∧
      s.desk.decided = [(0, .approved), (0, .rejected)] ∧
      s.desk.approvals.get? 0 = some a ∧ a.status = .rejected ∧ s.hasKey a.jobKey = true ∧
      ¬ OneDecision 0 s := by
  have hobserved : (Machine.run step empty staleRejection).map (fun s =>
      (s.desk.decided, (s.desk.approvals.get? 0).map fun a => (a.status, s.hasKey a.jobKey))) =
      some ([(0, .approved), (0, .rejected)], some (.rejected, true)) := by
    decide +kernel
  obtain ⟨s, hrun, hobserved⟩ := Option.map_eq_some_iff.mp hobserved
  simp only [Prod.mk.injEq] at hobserved
  obtain ⟨hdecided, hobserved⟩ := hobserved
  obtain ⟨a, ha, hobserved⟩ := Option.map_eq_some_iff.mp hobserved
  simp only [Prod.mk.injEq] at hobserved
  obtain ⟨hstatus, hkey⟩ := hobserved
  refine ⟨s, a, hrun, hdecided, ha, hstatus, hkey, ?_⟩
  intro hone
  have happroved := (hone.queued a ha).mp hkey
  rw [hstatus] at happroved
  cases happroved

end Reviews

end TgPlatform
