import TgPlatform.Pipeline.StatusEdges

/-! # Jobs that wait for a retry

Nothing selects `retry_wait` or `blocked`: the claim scans `ready` jobs only
and no step writes `ready` over them. A job that waits for its retry can still
be cancelled, and that is all that can happen to it.
-/

namespace TgPlatform

/-- The statuses no scan selects and only a cancellation leaves. -/
def JobStatus.parked (status : JobStatus) : Bool :=
  status ∈ [.retryWait, .blocked, .cancelled]

variable {v : JobView} {l : JobAction} {job job' : DeliveryJob}

/-- No step but an outdated platform write takes a parked job anywhere but to `cancelled`. -/
theorem JobView.RowChange.parked (h : v.RowChange job l job')
    (hjob : job.status.parked = true)
    (hadmits : ∀ call, l = .operator call → call.admits job.status = true) :
    job'.status.parked = true := by
  cases h with
  | claimed p attemptCount now hready =>
    rw [hready] at hjob
    cases hjob
  | settled p held decision fields now _ hleased =>
    rw [hleased] at hjob
    cases hjob
  | recorded p held call result policy now clock draw _ hsending =>
    rw [hsending] at hjob
    cases hjob
  | requeued acc now hstale =>
    simp only [DeliveryJob.stale, Bool.and_eq_true, decide_eq_true_eq] at hstale
    rw [hstale.1.2] at hjob
    cases hjob
  | cancelled now _ => rfl
  | operated call =>
    have hadmitted := hadmits call rfl
    cases call with
    | retry =>
      simp only [JobStatus.parked, List.mem_cons, List.not_mem_nil, or_false,
        decide_eq_true_eq] at hjob
      rcases hjob with hjob | hjob | hjob <;> rw [hjob] at hadmitted <;> cases hadmitted
    | cancel => rfl

def PlatformTested (id : JobId) (s : System) (a : Action) (_ : System) : Prop :=
  ∀ job, s.db.deliveryJobs.get? id = some job → ¬ Outdated s a id job

def Parked (id : JobId) (s : System) : Prop :=
  ∃ job, s.db.deliveryJobs.get? id = some job ∧ job.status.parked = true

theorem parked_step {id : JobId} (s : System) (a : Action) (s' : System)
    (h : s.step a = some s') (hguard : PlatformTested id s a s') (hs : Parked id s) :
    Parked id s' := by
  obtain ⟨job, hjob, hstatus⟩ := hs
  obtain ⟨l, hfrom, hl⟩ := System.view_step h id
  obtain ⟨job', hjob'⟩ := JobView.row_some hl hjob
  refine ⟨job', hjob', ?_⟩
  rcases JobView.row_cases hl hjob hjob' with rfl | hchange
  · exact hstatus
  · refine hchange.parked hstatus ?_
    rintro call rfl
    obtain ⟨k, rfl, hk⟩ := hfrom
    by_contra hadmits
    exact hguard job hjob ⟨k, call, rfl, hk, by simpa using hadmits⟩

/-- Some continuation brings the job to `leased`. -/
def Claimable (id : JobId) (s : System) : Prop :=
  ∃ bs t job, Machine.Always System.step (PlatformTested id) s bs ∧ System.run s bs = some t ∧
    t.db.deliveryJobs.get? id = some job ∧ job.status = .leased

theorem not_claimable_of_parked {id : JobId} {s : System} (h : Parked id s) :
    ¬ Claimable id s := by
  rintro ⟨bs, t, job, hguard, hrun, hjob, hleased⟩
  obtain ⟨job', hjob', hstatus⟩ := hguard.invariant parked_step hrun h
  obtain rfl : job = job' := Option.some.inj (hjob.symm.trans hjob')
  rw [hleased] at hstatus
  cases hstatus

/-- Worker `w` could serve the job at `now`: an idle runner of its account that has not halted,
and a gate that lets it through. -/
def System.serves (s : System) (w : WorkerId) (id : JobId) (now : Time) : Bool :=
  (s.db.deliveryJobs.get? id).any fun job =>
    ((s.workers w).runners job.accountId).any fun r =>
      r.halted.isNone && r.pc = .idle &&
        (hold (s.workers w).deps job.accountId id job).any fun h =>
          h.decide r.generation (s.workers w).deps.policy now = .allow

/-- In every state a job in `retry_wait` is never claimed again, whatever its due times, its
runner and the policy. -/
theorem retry_wait_never_claimable (s : System) (id : JobId) (job : DeliveryJob)
    (hjob : s.db.deliveryJobs.get? id = some job) (hstatus : job.status = .retryWait) :
    ¬ Claimable id s :=
  not_claimable_of_parked ⟨job, hjob, by rw [hstatus]; rfl⟩

def floodedReply : List Action :=
  queuedReply ++ claimSteps "w1" "A" [0] 1 ++ callSteps "w1" "A" 2 ++
    returnSteps "w1" "A" (.error .floodWait "wait" (some 30000000) (some "A")) 3

theorem floodedReply_waits : ∃ s job,
    System.run (.start fun _ => {}) floodedReply = some s ∧
      s.db.deliveryJobs.get? 0 = some job ∧ job.status = .retryWait ∧
      job.due 3600000000 = true ∧ s.serves "w1" 0 3600000000 = true := by
  have hobserved : (System.run (.start fun _ => {}) floodedReply).bind (fun s =>
      (s.db.deliveryJobs.get? 0).map fun job =>
        (job.status, job.due 3600000000, s.serves "w1" 0 3600000000)) =
      some (.retryWait, true, true) := by
    decide +kernel
  obtain ⟨s, hrun, hobserved⟩ := Option.bind_eq_some_iff.mp hobserved
  obtain ⟨job, hjob, hfacts⟩ := Option.map_eq_some_iff.mp hobserved
  simp only [Prod.mk.injEq] at hfacts
  exact ⟨s, job, hrun, hjob, hfacts⟩

theorem retry_wait_never_claimable_flooded : ∃ s,
    System.run (.start fun _ => {}) floodedReply = some s ∧ ¬ Claimable 0 s := by
  obtain ⟨s, job, hrun, hjob, hstatus, _⟩ := floodedReply_waits
  exact ⟨s, hrun, retry_wait_never_claimable s 0 job hjob hstatus⟩

theorem due_retry_is_not_claimed :
    ¬ ∀ config as s id job w now, System.run (.start config) as = some s →
      s.db.deliveryJobs.get? id = some job → job.status = .retryWait → job.due now = true →
      s.serves w id now = true → Claimable id s := by
  intro h
  obtain ⟨s, job, hrun, hjob, hstatus, hdue, hserves⟩ := floodedReply_waits
  exact not_claimable_of_parked ⟨job, hjob, by rw [hstatus]; rfl⟩
    (h _ _ s 0 job "w1" _ hrun hjob hstatus hdue hserves)

end TgPlatform
