import TgPlatform.Pipeline.Steps

/-! # What a holder holds

A holder's copy of a job was read from its row, and the columns that say what
the job is for never change. A started call is thus for what the row says.
-/

namespace TgPlatform

/-- The columns of a job that are written when it is created and never again. -/
def DeliveryJob.asPlanned (job : DeliveryJob) : DeliveryJob :=
  { job with
    status := .pending
    attemptCount := 0
    nextAttemptAt := none
    floodWaitUntil := none
    lastErrorClass := none
    updatedAt := job.createdAt }

namespace JobView

inductive HolderChange (v : JobView) : JobAction → Slot → Stage → Prop
  | claimed (p : Slot) (job : DeliveryJob) (attemptCount : ℤ) (now : Time) : v.row = some job →
      job.status = .ready → HolderChange v (.claim p attemptCount now) p .claimed
  | gated (p : Slot) (h : Holding) (decision : Decision) : v.holder p = some .claimed →
      v.row = some h.job → HolderChange v (.gate p h decision) p (.gated h decision)
  | admitted (p : Slot) (h : Holding) (fields : StatusFields) (now : Time) :
      v.holder p = some (.gated h .allow) → HolderChange v (.settle p fields now) p (.admitted h)
  | calling (p : Slot) (h : Holding) (call : Call) : v.holder p = some (.admitted h) →
      HolderChange v (.start p call) p (.calling h call)
  | skipped (p : Slot) (h : Holding) (result : DeliveryResult) : v.holder p = some (.admitted h) →
      HolderChange v (.skip p result) p (.recording h none result)
  | finished (p : Slot) (h : Holding) (call : Call) (targetIds : List ℤ)
      (outcome : TransportOutcome) : v.holder p = some (.calling h call) →
      HolderChange v (.finish p targetIds outcome) p
        (.recording h (some call) (call.request.result targetIds outcome))

variable {v v' : JobView} {l : JobAction} {p q : Slot} {stage : Stage} {job job' : DeliveryJob}

theorem holder_update {next : Option Stage} (hv : v'.holder = Function.update v.holder q next)
    (hp : v'.holder p = some stage) :
    v.holder p = some stage ∨ (p = q ∧ next = some stage) := by
  rw [hv] at hp
  by_cases hpq : p = q
  · subst hpq
    exact Or.inr ⟨rfl, by rwa [Function.update_self] at hp⟩
  · exact Or.inl (by rwa [Function.update_of_ne hpq] at hp)

theorem holder_cases (h : v.step l = some v') (hp : v'.holder p = some stage) :
    v.holder p = some stage ∨ HolderChange v l p stage := by
  cases l with
  | lose gone =>
    obtain rfl := Option.some.inj h
    simp only at hp
    split at hp
    · cases hp
    · exact Or.inl hp
  | create job =>
    simp only [step] at h
    split at h <;> cases h
    exact Or.inl hp
  | claim q attemptCount now =>
    obtain ⟨job, hjob, h⟩ := Option.bind_eq_some_iff.mp h
    split at h
    · rename_i hready
      cases h
      rcases holder_update rfl hp with hold | ⟨rfl, hnext⟩
      · exact Or.inl hold
      · obtain rfl := Option.some.inj hnext
        exact Or.inr (.claimed p job attemptCount now hjob hready.1)
    · cases h
  | gate q held decision =>
    simp only [step] at h
    split at h
    · rename_i hclaimed
      cases h
      rcases holder_update rfl hp with hold | ⟨rfl, hnext⟩
      · exact Or.inl hold
      · obtain rfl := Option.some.inj hnext
        exact Or.inr (.gated p held decision hclaimed.1 hclaimed.2)
    · cases h
  | settle q fields now =>
    simp only [step] at h
    split at h
    · rename_i held decision hgated
      cases h
      rcases holder_update rfl hp with hold | ⟨rfl, hnext⟩
      · exact Or.inl hold
      · split at hnext
        · rename_i hallow
          subst hallow
          obtain rfl := Option.some.inj hnext
          exact Or.inr (.admitted p held fields now hgated)
        · cases hnext
    · cases h
  | start q call =>
    simp only [step] at h
    split at h
    · rename_i held hadmitted
      split at h
      · cases h
        rcases holder_update rfl hp with hold | ⟨rfl, hnext⟩
        · exact Or.inl hold
        · obtain rfl := Option.some.inj hnext
          exact Or.inr (.calling p held call hadmitted)
      · cases h
    · cases h
  | skip q result =>
    simp only [step] at h
    split at h
    · rename_i held hadmitted
      cases h
      rcases holder_update rfl hp with hold | ⟨rfl, hnext⟩
      · exact Or.inl hold
      · obtain rfl := Option.some.inj hnext
        exact Or.inr (.skipped p held result hadmitted)
    · cases h
  | finish q targetIds outcome =>
    simp only [step] at h
    split at h
    · rename_i held call hcalling
      cases h
      rcases holder_update rfl hp with hold | ⟨rfl, hnext⟩
      · exact Or.inl hold
      · obtain rfl := Option.some.inj hnext
        exact Or.inr (.finished p held call targetIds outcome hcalling)
    · cases h
  | record q policy now clock draw =>
    simp only [step] at h
    split at h
    · obtain ⟨job, _, h⟩ := Option.bind_eq_some_iff.mp h
      split at h
      · cases h
        rcases holder_update rfl hp with hold | ⟨_, hnext⟩
        · exact Or.inl hold
        · cases hnext
      · cases h
    · cases h
  | reclaim acc now =>
    obtain rfl := Option.some.inj h
    exact Or.inl hp
  | cancel src now =>
    obtain ⟨job, _, h⟩ := Option.bind_eq_some_iff.mp h
    split at h <;> cases h
    exact Or.inl hp
  | operator call =>
    obtain rfl := Option.some.inj h
    exact Or.inl hp

theorem RowChange.asPlanned_kept (h : v.RowChange job l job') : job'.asPlanned = job.asPlanned := by
  cases h with
  | operated call => cases call <;> rfl
  | _ => rfl

theorem asPlanned_step (h : v.step l = some v') (hjob : v.row = some job) :
    ∃ job', v'.row = some job' ∧ job'.asPlanned = job.asPlanned := by
  obtain ⟨job', hjob'⟩ := row_some h hjob
  refine ⟨job', hjob', ?_⟩
  rcases row_cases h hjob hjob' with rfl | hchange
  · rfl
  · exact hchange.asPlanned_kept

theorem cloneKey_step (h : v.step l = some v') (hjob : v.row = some job) :
    ∃ job', v'.row = some job' ∧ job'.cloneKey = job.cloneKey := by
  obtain ⟨job', hjob', hplanned⟩ := asPlanned_step h hjob
  have hkey := congrArg DeliveryJob.cloneKey hplanned
  exact ⟨job', hjob', hkey⟩

theorem returned_cases (h : v.step l = some v') {call : Call} {result : DeliveryResult}
    (hmem : .returned call result ∈ v'.history) : .returned call result ∈ v.history ∨
      ∃ p held targetIds outcome, l = .finish p targetIds outcome ∧
        v.holder p = some (.calling held call) ∧
        result = call.request.result targetIds outcome := by
  cases l with
  | finish p targetIds outcome =>
    simp only [step] at h
    split at h
    · rename_i held call' hp
      cases h
      rcases List.mem_append.mp hmem with hold | hnew
      · exact Or.inl hold
      · obtain ⟨rfl, rfl⟩ := Event.returned.inj (List.mem_singleton.mp hnew)
        exact Or.inr ⟨p, held, targetIds, outcome, rfl, hp, rfl⟩
    · cases h
  | start p call' =>
    simp only [step] at h
    split at h
    · split at h <;> cases h
      exact Or.inl (by simpa using hmem)
    · cases h
  | record p policy now clock draw =>
    simp only [step] at h
    split at h
    · obtain ⟨job, _, h⟩ := Option.bind_eq_some_iff.mp h
      split at h <;> cases h
      exact Or.inl (by simpa using hmem)
    · cases h
  | lose gone =>
    obtain rfl := Option.some.inj h
    exact Or.inl hmem
  | create job =>
    simp only [step] at h
    split at h <;> cases h
    exact Or.inl hmem
  | claim p attemptCount now =>
    obtain ⟨job, _, h⟩ := Option.bind_eq_some_iff.mp h
    split at h <;> cases h
    exact Or.inl hmem
  | gate p held decision =>
    simp only [step] at h
    split at h <;> cases h
    exact Or.inl hmem
  | settle p fields now =>
    simp only [step] at h
    split at h <;> cases h
    exact Or.inl hmem
  | skip p result' =>
    simp only [step] at h
    split at h <;> cases h
    exact Or.inl hmem
  | reclaim acc now =>
    obtain rfl := Option.some.inj h
    exact Or.inl hmem
  | cancel src now =>
    obtain ⟨job, _, h⟩ := Option.bind_eq_some_iff.mp h
    split at h <;> cases h
    exact Or.inl hmem
  | operator call' =>
    obtain rfl := Option.some.inj h
    exact Or.inl hmem

end JobView

def Stage.holding : Stage → Option Holding
  | .claimed => none
  | .gated h _ | .admitted h | .calling h _ | .recording h _ _ => some h

/-- The plan is what a job with these columns asks for. -/
def DeliveryPlan.For (plan : DeliveryPlan) (key : CloneKey) : Prop :=
  jobKindAlias key.kind = some plan.kind ∧ plan.message = key.message ∧ plan.routeId = key.routeId

/-- Every copy of the job stands in `R` to the row. -/
def JobView.Copies (R : Holding → DeliveryJob → Prop) (v : JobView) : Prop :=
  ∀ p stage h, v.holder p = some stage → stage.holding = some h → ∃ job, v.row = some job ∧ R h job

def JobView.HoldsRow (v : JobView) : Prop :=
  ∀ p stage h, v.holder p = some stage → stage.holding = some h →
    ∃ job, v.row = some job ∧ h.plan.For job.cloneKey

/-- A gated copy has been read from the row by `hold`. -/
def JobAction.Reads : JobAction → Prop
  | .gate p h _ => ∃ d id, hold d p.2 id h.job = some h
  | _ => True

theorem plan_for_of_hold {d : RunnerDeps} {acc : AccountId} {id : JobId} {job : DeliveryJob}
    {h : Holding} (hh : hold d acc id job = some h) : h.plan.For job.cloneKey := by
  obtain ⟨_, _, _, hplan⟩ := System.hold_eq_some hh
  obtain ⟨plan₀, hplan₀, hhints⟩ := System.heldPlan_eq_some hplan
  obtain ⟨hkind, hmessage, _, hroute⟩ := planFromJob_eq_some hplan₀
  rw [hhints]
  exact ⟨hkind, hmessage, hroute⟩

/-- A relation to the columns written at creation, which holds of a copy when it is read, is
kept. -/
theorem JobView.copies_step {R : Holding → DeliveryJob → Prop}
    (hR : ∀ h job job', job'.asPlanned = job.asPlanned → R h job → R h job')
    {v v' : JobView} {l : JobAction} (h : v.step l = some v')
    (hread : ∀ p held decision, l = .gate p held decision → R held held.job)
    (hv : v.Copies R) : v'.Copies R := by
  intro p stage held hp hheld
  have hkeep : (∃ job, v.row = some job ∧ R held job) → ∃ job, v'.row = some job ∧ R held job := by
    rintro ⟨job, hjob, hrel⟩
    obtain ⟨job', hjob', hplanned⟩ := asPlanned_step h hjob
    exact ⟨job', hjob', hR held job job' hplanned hrel⟩
  rcases holder_cases h hp with hold | hchange
  · exact hkeep (hv p stage held hold hheld)
  · cases hchange with
    | claimed => cases hheld
    | gated _ h decision hclaimed hrow =>
      obtain rfl := Option.some.inj hheld
      exact hkeep ⟨_, hrow, hread p _ decision rfl⟩
    | admitted _ h fields now hgated => exact hkeep (hv p _ held hgated hheld)
    | calling _ h call hadmitted => exact hkeep (hv p _ held hadmitted hheld)
    | skipped _ h result hadmitted => exact hkeep (hv p _ held hadmitted hheld)
    | finished _ h call targetIds outcome hcalling => exact hkeep (hv p _ held hcalling hheld)

theorem JobView.holdsRow_step {v v' : JobView} {l : JobAction} (h : v.step l = some v')
    (hreads : l.Reads) (hv : v.HoldsRow) : v'.HoldsRow := by
  refine copies_step (R := fun h job => h.plan.For job.cloneKey) ?_ h ?_ hv
  · intro h job job' hplanned hfor
    have hkey := congrArg DeliveryJob.cloneKey hplanned
    change h.plan.For job'.asPlanned.cloneKey
    rw [hkey]
    exact hfor
  · rintro p held decision rfl
    obtain ⟨d, id, hhold⟩ := hreads
    exact plan_for_of_hold hhold

namespace System

variable {s s' : System} {a : Action}

def AllHold (s : System) : Prop := ∀ id, (s.view id).HoldsRow

theorem allHold_start (config : WorkerId → WorkerConfig) : AllHold (.start config) := by
  intro id p stage h hp
  cases hp

theorem allHold_step (s : System) (a : Action) (s' : System) (h : s.step a = some s')
    (hs : AllHold s) : AllHold s' := by
  intro id
  obtain ⟨l, hfrom, hview⟩ := view_step h id
  refine JobView.holdsRow_step hview ?_ (hs id)
  cases l with
  | gate p held decision =>
    obtain ⟨r, now, _, _, hhold, _⟩ := hfrom
    exact ⟨_, _, hhold⟩
  | _ => trivial

theorem started_row (hs : AllHold s) {call : Call} (hstarted : StartedBy s a call) :
    ∃ job h, s.db.deliveryJobs.get? call.jobId = some job ∧ call.plan.For job.cloneKey ∧
      (s.view call.jobId).holder (call.workerId, call.accountId) = some (.admitted h) := by
  obtain ⟨now, r, h, targetIds, _, hr, hpc, _, hcall⟩ := hstarted.executes
  have hid : call.jobId = h.id := by rw [hcall]; rfl
  have hplan : call.plan = h.plan := by rw [hcall]; rfl
  have hholder : (s.view call.jobId).holder (call.workerId, call.accountId) =
      some (.admitted h) := by
    rw [hid]
    exact holder_of_executing hr hpc
  obtain ⟨job, hjob, hfor⟩ := hs call.jobId _ _ h hholder rfl
  exact ⟨job, h, hjob, by rwa [hplan], hholder⟩

structure CallsStarted (s : System) : Prop where
  calling : ∀ id p h call, (s.view id).holder p = some (.calling h call) → .started call ∈ s.history
  returned : ∀ call result, .returned call result ∈ s.history → .started call ∈ s.history

theorem callsStarted_start (config : WorkerId → WorkerConfig) : CallsStarted (.start config) where
  calling id p h call hp := by cases hp
  returned call result hmem := by cases hmem

theorem callsStarted_step (s : System) (a : Action) (s' : System) (h : s.step a = some s')
    (hs : CallsStarted s) : CallsStarted s' := by
  have hkeep : ∀ {ev : Event}, ev ∈ s.history → ev ∈ s'.history := by
    intro ev hev
    obtain ⟨events, hhistory⟩ := step_history h
    rw [hhistory]
    exact List.mem_append_left _ hev
  constructor
  · intro id p held call hp
    obtain ⟨l, _, hview⟩ := view_step h id
    rcases JobView.holder_cases hview hp with hold | hchange
    · exact hkeep (hs.calling id p held call hold)
    · cases hchange with
      | calling _ _ _ hadmitted =>
        simp only [JobView.step, hadmitted] at hview
        split at hview
        · have hhistory := congrArg JobView.history (Option.some.inj hview)
          have hmem : .started call ∈ (s'.view id).history := by
            rw [← hhistory]
            simp
          exact (List.mem_filter.mp hmem).1
        · cases hview
  · intro call result hmem
    obtain ⟨l, _, hview⟩ := view_step h call.jobId
    have hview' : .returned call result ∈ (s'.view call.jobId).history :=
      List.mem_filter.mpr ⟨hmem, by simp [Event.concerns]⟩
    rcases JobView.returned_cases hview hview' with hold | ⟨p, held, _, _, _, hp, _⟩
    · exact hkeep (hs.returned call result (List.mem_filter.mp hold).1)
    · exact hkeep (hs.calling _ p held call hp)

end System

end TgPlatform
