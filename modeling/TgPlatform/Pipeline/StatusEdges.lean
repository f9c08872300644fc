import TgPlatform.Pipeline.Projection

/-! # Status changes and the declared edges

Every writer of the status column follows the declared edges, with three
exceptions: the platform's retry reopens failed jobs, the claim requeues stale
sends, and a platform write can land after the status it tested has changed.
-/

namespace TgPlatform

variable {v : JobView} {l : JobAction} {job job' : DeliveryJob}

theorem resultFields_edge (policy : RetryPolicy) (attemptNo : ℤ) (clock : Time) (draw : ℤ)
    (result : DeliveryResult) :
    JobStatus.sending.canTransition
      (resultFields policy attemptNo clock draw result).newStatus = true := by
  unfold resultFields
  split
  · rfl
  · rfl
  · rfl
  · rfl
  · split
    · rfl
    · split <;> rfl
  · rfl

theorem target_edge (decision : Decision) :
    JobStatus.leased.canTransition decision.target = true := by
  cases decision <;> rfl

theorem cancel_edge {src : JobStatus} (h : src ∈ cancellableByCommand) :
    src.canTransition .cancelled = true := by
  simp only [cancellableByCommand, List.mem_cons, List.not_mem_nil, or_false] at h
  rcases h with rfl | rfl | rfl <;> rfl

/-- A change of a row follows an edge, requeues a stale send or is a platform write. -/
theorem JobView.RowChange.edge (h : v.RowChange job l job') :
    job.status.canTransition job'.status = true ∨
      (∃ acc now, l = .reclaim acc now ∧ job.stale acc now = true) ∨
      ∃ call, l = .operator call ∧ job' = call.write job := by
  cases h with
  | claimed p attemptCount now hready => exact Or.inl (by rw [hready]; rfl)
  | settled p held decision fields now _ hleased =>
    refine Or.inl ?_
    rw [hleased]
    exact target_edge decision
  | recorded p held call result policy now clock draw _ hsending =>
    refine Or.inl ?_
    rw [hsending]
    exact resultFields_edge ..
  | requeued acc now hstale => exact Or.inr (Or.inl ⟨acc, now, rfl, hstale⟩)
  | cancelled now hsrc => exact Or.inl (cancel_edge hsrc)
  | operated call => exact Or.inr (Or.inr ⟨call, rfl, rfl⟩)

def Reopened (s : System) (a : Action) (id : JobId) (job job' : DeliveryJob) : Prop :=
  ∃ k, a = .operatorWrite k ∧ s.requests[k]? = some (.retry, id) ∧
    (job.status = .failedPermanent ∨ job.status = .deadLetter) ∧ job'.status = .ready

/-- A claim finds the job in `sending` for longer than the threshold. -/
def RequeuesStale (a : Action) (job : DeliveryJob) : Prop :=
  ∃ w acc now, a = .runner w acc (.reclaim now) ∧ job.stale acc now = true

/-- A platform write whose status test no longer holds when it lands. -/
def Outdated (s : System) (a : Action) (id : JobId) (job : DeliveryJob) : Prop :=
  ∃ k call, a = .operatorWrite k ∧ s.requests[k]? = some (call, id) ∧
    call.admits job.status = false

theorem cancel_admitted_edge {src : JobStatus} (h : OperatorCall.cancel.admits src = true) :
    src.canTransition .cancelled = true := by
  cases src <;> simp_all [OperatorCall.admits, JobStatus.canTransition, JobStatus.edges]

def ChangesConform (s : System) (a : Action) (s' : System) : Prop :=
  ∀ id job job', s.db.deliveryJobs.get? id = some job → s'.db.deliveryJobs.get? id = some job' →
    job'.status ≠ job.status → ¬ RequeuesStale a job → ¬ Outdated s a id job →
      (job.status.canTransition job'.status = true ∨ Reopened s a id job job') ∧
      (job.status.terminal = true → Reopened s a id job job') ∧
      (job.status = .sending → job'.status ≠ .ready)

theorem changesConform (s : System) (a : Action) (s' : System) (h : s.step a = some s') :
    ChangesConform s a s' := by
  intro id job job' hjob hjob' hne hstale houtdated
  obtain ⟨l, hfrom, hl⟩ := System.view_step h id
  have hcases : job.status.canTransition job'.status = true ∨ Reopened s a id job job' := by
    have hchange : (s.view id).RowChange job l job' := by
      rcases JobView.row_cases hl hjob hjob' with hsame | hchange
      · exact absurd (congrArg _ hsame) hne
      · exact hchange
    rcases hchange.edge with hedge | ⟨acc, now, rfl, hold⟩ | ⟨call, rfl, rfl⟩
    · exact Or.inl hedge
    · obtain ⟨w, rfl⟩ := hfrom
      exact absurd ⟨w, acc, now, rfl, hold⟩ hstale
    · obtain ⟨k, rfl, hk⟩ := hfrom
      have hadmits : call.admits job.status = true := by
        by_contra hadmits
        exact houtdated ⟨k, call, rfl, hk, by simpa using hadmits⟩
      cases call with
      | retry =>
        refine Or.inr ⟨k, rfl, hk, ?_, rfl⟩
        simpa [OperatorCall.admits] using hadmits
      | cancel => exact Or.inl (cancel_admitted_edge hadmits)
  refine ⟨hcases, fun hterminal => ?_, fun hsending hready => ?_⟩
  · rcases hcases with hedge | hreopened
    · rw [JobStatus.not_canTransition_of_terminal hterminal] at hedge
      cases hedge
    · exact hreopened
  · rcases hcases with hedge | ⟨_, _, _, hfailed, _⟩
    · rw [hsending, hready] at hedge
      cases hedge
    · rw [hsending] at hfailed
      rcases hfailed with hfailed | hfailed <;> cases hfailed

/-- In every run, every change of a stored status is a declared edge or the platform's retry of
a failed job; stale sends and outdated platform writes aside. -/
theorem status_changes_conform (config : WorkerId → WorkerConfig) (as : List Action) :
    Machine.Always System.step ChangesConform (.start config) as :=
  Machine.always_of_invariant (I := fun _ => True) (fun _ _ _ _ _ => trivial)
    (fun s a s' h _ => changesConform s a s' h) as trivial

/-- The reading without exceptions: every change of status is a declared edge. -/
def EveryChangeIsEdge (s : System) (_ : Action) (s' : System) : Prop :=
  ∀ id job job', s.db.deliveryJobs.get? id = some job → s'.db.deliveryJobs.get? id = some job' →
    job'.status ≠ job.status → job.status.canTransition job'.status = true

def failedReply : List Action :=
  queuedReply ++ claimSteps "w1" "A" [0] 1 ++ callSteps "w1" "A" 2 ++
    returnSteps "w1" "A" (.error .content "empty" none none) 3 ++ [.operatorRead .retry 0]

theorem retry_leaves_terminal_status :
    ¬ ∀ config as, Machine.Always System.step EveryChangeIsEdge (.start config) as := by
  intro h
  have hobserved : ((System.run (.start fun _ => {}) failedReply).bind fun s =>
      (s.step (.operatorWrite 0)).map fun s' =>
        ((s.db.deliveryJobs.get? 0).map DeliveryJob.status,
          (s'.db.deliveryJobs.get? 0).map DeliveryJob.status)) =
      some (some .failedPermanent, some .ready) := by
    decide +kernel
  obtain ⟨s, s', hrun, hstep, hstatus⟩ := Machine.exists_of_observed hobserved
  obtain ⟨hbefore, hafter⟩ := Prod.mk.inj hstatus
  obtain ⟨job, hjob, hfailed⟩ := Option.map_eq_some_iff.mp hbefore
  obtain ⟨job', hjob', hready⟩ := Option.map_eq_some_iff.mp hafter
  refine Machine.not_always_of_step hrun hstep ?_ (h (fun _ => {}) (failedReply ++ [.operatorWrite 0]))
  intro hedges
  have hedge := hedges 0 job job' hjob hjob' (by rw [hready, hfailed]; decide)
  rw [hfailed, hready] at hedge
  cases hedge

end TgPlatform
