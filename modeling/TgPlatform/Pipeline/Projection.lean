import TgPlatform.Pipeline.JobLife

/-! # Every step projects to the life of each job

For one job id, a system step is a step of that job's life: the one its label
names, or a loss of holders when the step concerns other jobs.
-/

namespace TgPlatform

/-- Why the runner in slot `p` lets go of the job `id` without moving its row. -/
inductive Dropped (s : System) (id : JobId) (p : Slot) : Stage → Action → Prop
  | crash (stage : Stage) : Dropped s id p stage (.crash p.1)
  | reassign (stage : Stage) (x : Assigning) : (s.workers p.1).assigning = some x →
      x.assignment.accountId = p.2 → Dropped s id p stage (.host p.1 .assignDone)
  | unplannable (now : Time) (job : DeliveryJob) : s.db.deliveryJobs.get? id = some job →
      planFromJob job = none → Dropped s id p .claimed (.runner p.1 p.2 (.gate now))
  | unrecorded (h : Holding) (call : Option Call) (result : DeliveryResult) (now clock : Time)
      (draw : ℤ) (raises : Bool) :
      (∀ job, s.db.deliveryJobs.get? id = some job → job.status = .sending →
        result.status = .succeeded ∧ result.targetMessageIds ≠ []) →
      Dropped s id p (.recording h call result)
        (.runner p.1 p.2 (.record now clock draw raises))

def JobAction.From (s : System) (id : JobId) (a : Action) : JobAction → Prop
  | .lose gone => ∀ p stage, (s.view id).holder p = some stage → gone p = true →
      Dropped s id p stage a
  | .create job =>
    (∃ w acc draw stamp raises plan tenantId projectId now,
        a = .runner w acc (.drainCommit draw stamp raises) ∧
          job = jobFromPlan plan tenantId projectId now) ∨
      ∃ reply now, a = .enqueue reply now ∧ job = reply.job now
  | .claim p attemptCount now => ∃ r at_ seen rest, a = .runner p.1 p.2 (.tryNext now) ∧
      (s.workers p.1).runners p.2 = some r ∧ r.pc = .claiming at_ ((id, seen) :: rest) ∧
      seen.due at_ = true ∧ attemptCount = seen.attemptCount + 1
  | .gate p h decision => ∃ r now, a = .runner p.1 p.2 (.gate now) ∧
      (s.workers p.1).runners p.2 = some r ∧
      hold (s.workers p.1).deps p.2 id h.job = some h ∧
      decision = h.decide r.generation (s.workers p.1).deps.policy now
  | .settle p _ now => ∃ clock draw, a = .runner p.1 p.2 (.settle now clock draw)
  | .start p call => ∃ r now h targetIds, a = .runner p.1 p.2 (.execute now) ∧
      (s.workers p.1).runners p.2 = some r ∧ r.pc = .executing h targetIds ∧
      dispatch h.plan.kind (h.decide r.generation (s.workers p.1).deps.policy now) targetIds =
        .call call.request ∧
      call.workerId = p.1 ∧ call.accountId = p.2 ∧ call.generation = r.generation ∧
      call.jobId = id
  | .skip p result => ∃ r now h targetIds, a = .runner p.1 p.2 (.execute now) ∧
      (s.workers p.1).runners p.2 = some r ∧ r.pc = .executing h targetIds ∧
      (dispatch h.plan.kind (h.decide r.generation (s.workers p.1).deps.policy now) targetIds =
          .finished result ∨
        ∃ request, dispatch h.plan.kind
            (h.decide r.generation (s.workers p.1).deps.policy now) targetIds = .call request ∧
          result = request.result targetIds (noLiveSession h.plan.accountId))
  | .finish p _ outcome => a = .runner p.1 p.2 (.finish outcome)
  | .record p _ now clock draw =>
    ∃ raises, a = .runner p.1 p.2 (.record now clock draw raises)
  | .reclaim accountId now => ∃ w, a = .runner w accountId (.reclaim now)
  | .cancel src now => ∃ w, a = .host w (.cancelJob id src now)
  | .operator call => ∃ k, a = .operatorWrite k ∧ s.requests[k]? = some (call, id)

namespace JobView

variable {v v' : JobView}

theorem step_lose (hrow : v'.row = v.row) (hhistory : v'.history = v.history)
    (hholder : ∀ p, v'.holder p = v.holder p ∨ v'.holder p = none) :
    ∃ gone, v.step (.lose gone) = some v' ∧ ∀ p, gone p = true → v'.holder p = none := by
  refine ⟨fun p => (v'.holder p).isNone, ?_, fun p hp => by simpa using hp⟩
  obtain ⟨row, holder, history⟩ := v'
  simp only at hrow hhistory hholder
  subst hrow hhistory
  simp only [step, Option.some.injEq, mk.injEq, true_and, and_true]
  funext p
  rcases hholder p with hp | hp
  · by_cases hn : holder p = none
    · simp [hn]
    · simp [← hp, hn]
  · simp [hp]

end JobView

namespace System

variable {s s' : System} {a : Action} {id : JobId} {w : WorkerId} {acc : AccountId} {r : Runner}
  {x : RunnerAction} {e : RunnerEffect}

def afterRunner (s : System) (w : WorkerId) (acc : AccountId) (x : RunnerAction)
    (e : RunnerEffect) : System :=
  { s with
    db := e.db
    workers := Function.update s.workers w (workerAfter (s.workers w) acc x e.runner)
    history := s.history ++ e.events }

theorem step_runner_eq_some (h : s.step (.runner w acc x) = some s') :
    ∃ r e, (s.workers w).runners acc = some r ∧
      r.step (s.workers w).deps w acc s.db x = some e ∧ s' = s.afterRunner w acc x e := by
  obtain ⟨r, hr, h⟩ := Option.bind_eq_some_iff.mp h
  obtain ⟨e, he, rfl⟩ := Option.map_eq_some_iff.mp h
  exact ⟨r, e, hr, he, rfl⟩

theorem workerAfter_runners (w : Worker) (acc : AccountId) (x : RunnerAction) (r : Runner) :
    (workerAfter w acc x r).runners = Function.update w.runners acc (some r) := by
  cases x <;> rfl

theorem runners_afterRunner (p : Slot) :
    ((s.afterRunner w acc x e).workers p.1).runners p.2 =
      if p = (w, acc) then some e.runner else (s.workers p.1).runners p.2 := by
  obtain ⟨w', acc'⟩ := p
  by_cases hw : w' = w
  · subst hw
    by_cases hacc : acc' = acc
    · simp [afterRunner, workerAfter_runners, hacc]
    · simp [afterRunner, workerAfter_runners, hacc]
  · simp [afterRunner, hw]

theorem holder_afterRunner :
    ((s.afterRunner w acc x e).view id).holder =
      Function.update (s.view id).holder (w, acc) (e.runner.stage (w, acc) id) := by
  funext p
  simp only [view, runners_afterRunner]
  by_cases hp : p = (w, acc)
  · simp [hp]
  · simp [hp]

theorem holder_of_runner (hr : (s.workers w).runners acc = some r) :
    (s.view id).holder (w, acc) = r.stage (w, acc) id := by
  simp [view, hr]

theorem holder_of_executing {h : Holding} {targetIds : List ℤ}
    (hr : (s.workers w).runners acc = some r) (hpc : r.pc = .executing h targetIds) :
    (s.view h.id).holder (w, acc) = some (.admitted h) := by
  rw [holder_of_runner hr]
  simp [Runner.stage, hpc]

theorem view_afterRunner :
    (s.afterRunner w acc x e).view id =
      { (s.view id).setHolder (w, acc) (e.runner.stage (w, acc) id) with
        row := e.db.deliveryJobs.get? id
        history := (s.view id).history ++ e.events.filter fun ev => ev.concerns id } := by
  have hholder := @holder_afterRunner s id w acc x e
  simp only [view] at hholder ⊢
  simp only [JobView.setHolder, hholder]
  simp [afterRunner]

/-- A step that touches neither the job's row nor its history, and drops a holder only for one
of the named reasons. -/
theorem view_lose (hrow : (s'.view id).row = (s.view id).row)
    (hhistory : (s'.view id).history = (s.view id).history)
    (hholder : ∀ p, (s'.view id).holder p = (s.view id).holder p ∨
      (s'.view id).holder p = none ∧
        ∀ stage, (s.view id).holder p = some stage → Dropped s id p stage a) :
    ∃ l, JobAction.From s id a l ∧ (s.view id).step l = some (s'.view id) := by
  obtain ⟨gone, hgone, hnone⟩ := JobView.step_lose hrow hhistory
    fun p => (hholder p).imp_right And.left
  refine ⟨.lose gone, ?_, hgone⟩
  intro p stage hp hg
  rcases hholder p with hsame | ⟨_, hdropped⟩
  · rw [hnone p hg, hp] at hsame
    cases hsame
  · exact hdropped stage hp

theorem view_runner_quiet (hr : (s.workers w).runners acc = some r)
    (hrow : e.db.deliveryJobs.get? id = s.db.deliveryJobs.get? id)
    (hevents : e.events.filter (fun ev => ev.concerns id) = [])
    (hstage : e.runner.stage (w, acc) id = r.stage (w, acc) id ∨
      e.runner.stage (w, acc) id = none ∧ ∀ stage, r.stage (w, acc) id = some stage →
        Dropped s id (w, acc) stage (.runner w acc x)) :
    ∃ l, JobAction.From s id (.runner w acc x) l ∧
      (s.view id).step l = some ((s.afterRunner w acc x e).view id) := by
  refine view_lose ?_ ?_ ?_
  · rw [view_afterRunner]
    exact hrow
  · rw [view_afterRunner]
    simp [hevents]
  · intro p
    rw [view_afterRunner]
    by_cases hp : p = (w, acc)
    · subst hp
      simp only [JobView.setHolder, Function.update_self, holder_of_runner hr]
      exact hstage
    · exact Or.inl (by simp [JobView.setHolder, hp])

theorem view_afterRunner_same (hr : (s.workers w).runners acc = some r)
    (hstage : e.runner.stage (w, acc) id = r.stage (w, acc) id) :
    (s.afterRunner w acc x e).view id =
      { s.view id with
        row := e.db.deliveryJobs.get? id
        history := (s.view id).history ++ e.events.filter fun ev => ev.concerns id } := by
  rw [view_afterRunner, hstage, ← holder_of_runner hr]
  simp [JobView.setHolder]

theorem view_append (v : JobView) (jobs : Table DeliveryJob) (added : List DeliveryJob)
    (hrow : v.row = jobs.get? id)
    (hstatus : ∀ job ∈ added, job.status ∈ [JobStatus.ready, JobStatus.waitingApproval]) :
    (jobs.append added).get? id = v.row ∨
      ∃ job ∈ added, v.step (.create job) =
        some { v with row := (jobs.append added).get? id } := by
  rw [Table.get?_append]
  by_cases hlt : id < jobs.size
  · exact Or.inl (by rw [if_pos hlt, hrow])
  · rw [if_neg hlt]
    have hnone : v.row = none := by
      rw [hrow]
      cases hj : jobs.get? id with
      | none => rfl
      | some job => exact absurd (Table.get?_lt hj) hlt
    cases hjob : added[id - jobs.size]? with
    | none => exact Or.inl hnone.symm
    | some job =>
      have hmem : job ∈ added := List.mem_of_getElem? hjob
      refine Or.inr ⟨job, hmem, ?_⟩
      simp only [JobView.step, hnone, hstatus job hmem, and_self, if_true]

theorem jobFromPlan_status (plan : DeliveryPlan) (tenantId : TenantId) (projectId : ProjectId)
    (now : Time) : (jobFromPlan plan tenantId projectId now).status ∈
      [JobStatus.ready, JobStatus.waitingApproval] := by
  cases h : plan.requiresApproval <;> simp [jobFromPlan, h]

theorem view_drained {draw : EventInbox → Draw} {stamp : ℕ → Time} {raises : Bool}
    {rows : List (RowId × EventInbox)} {mapping : DictMappingView} {db : Database}
    (hr : (s.workers w).runners acc = some r) (hpc : r.pc = .draining rows mapping)
    (hdrain : s.db.drainToJobs rows (plansFor (s.workers w).deps mapping draw)
      (s.workers w).deps.tenantId (s.workers w).deps.projectId stamp raises = some db) :
    ∃ l, JobAction.From s id (.runner w acc (.drainCommit draw stamp raises)) l ∧
      (s.view id).step l = some ((s.afterRunner w acc (.drainCommit draw stamp raises)
        ⟨db, { r with pc := .idle }, []⟩).view id) := by
  have hidle : ({ r with pc := .idle } : Runner).stage (w, acc) id = r.stage (w, acc) id := by
    simp [Runner.stage, hpc]
  obtain ⟨added, hadded, rfl⟩ := Database.drainToJobs_eq_some hdrain
  have hplanned : ∀ job ∈ added, ∃ plan tenantId projectId now,
      job = jobFromPlan plan tenantId projectId now := by
    intro job hjob
    obtain ⟨_, _, plan, _, now, rfl⟩ := Database.mem_drainedJobs (hadded.sublist.subset hjob)
    exact ⟨plan, _, _, now, rfl⟩
  have hstatus : ∀ job ∈ added, job.status ∈ [JobStatus.ready, JobStatus.waitingApproval] := by
    intro job hjob
    obtain ⟨plan, tenantId, projectId, now, rfl⟩ := hplanned job hjob
    exact jobFromPlan_status ..
  rcases view_append (s.view id) s.db.deliveryJobs added rfl hstatus with hsame | ⟨job, hjob, hcreate⟩
  · exact view_runner_quiet hr hsame rfl (Or.inl hidle)
  · obtain ⟨plan, tenantId, projectId, now, hplan⟩ := hplanned job hjob
    refine ⟨.create job, Or.inl ⟨w, acc, draw, stamp, raises, plan, tenantId, projectId, now,
      rfl, hplan⟩, ?_⟩
    rw [view_afterRunner_same hr hidle, hcreate]
    simp

theorem view_claimed {now at_ : Time} {i : JobId} {seen : DeliveryJob}
    {rest : List (JobId × DeliveryJob)} {db : Database}
    (hr : (s.workers w).runners acc = some r) (hpc : r.pc = .claiming at_ ((i, seen) :: rest))
    (hdue : seen.due at_ = true)
    (hclaim : s.db.tryClaim i seen r.generation at_ now = .claimed db) :
    ∃ l, JobAction.From s id (.runner w acc (.tryNext now)) l ∧
      (s.view id).step l =
        some ((s.afterRunner w acc (.tryNext now) ⟨db, { r with pc := .claimed i }, []⟩).view id) := by
  obtain ⟨job, hjob, hready, _, rfl⟩ := Database.tryClaim_eq_claimed hclaim
  by_cases hid : i = id
  · subst hid
    refine ⟨.claim (w, acc) (seen.attemptCount + 1) now,
      ⟨r, at_, seen, rest, rfl, hr, hpc, hdue, rfl⟩, ?_⟩
    have hfree : (s.view i).holder (w, acc) = none := by
      simp [holder_of_runner hr, Runner.stage, hpc]
    rw [view_afterRunner]
    simp [JobView.step, hready, hfree, hjob, Runner.stage]
  · refine view_runner_quiet hr ?_ rfl (Or.inl ?_)
    · exact Table.get?_update_of_ne hid
    · simp [Runner.stage, hpc, hid]

theorem heldPlan_eq_some {d : RunnerDeps} {job : DeliveryJob} {plan : DeliveryPlan}
    (h : heldPlan d job = some plan) : ∃ plan₀, planFromJob job = some plan₀ ∧
      plan = { plan₀ with fetchAccountId := plan.fetchAccountId, transform := plan.transform } := by
  obtain ⟨plan₀, h₀, rfl⟩ := Option.map_eq_some_iff.mp h
  refine ⟨plan₀, h₀, ?_⟩
  split <;> rfl

theorem hold_eq_some {d : RunnerDeps} {i : JobId} {job : DeliveryJob} {h : Holding}
    (hh : hold d acc i job = some h) : h.id = i ∧ h.job = job ∧ h.live = d.live acc ∧
      heldPlan d job = some h.plan := by
  obtain ⟨plan, hplan, rfl⟩ := Option.map_eq_some_iff.mp hh
  exact ⟨rfl, rfl, rfl, hplan⟩

theorem planFromJob_of_hold_eq_none {d : RunnerDeps} {i : JobId} {job : DeliveryJob}
    (h : hold d acc i job = none) : planFromJob job = none :=
  Option.map_eq_none_iff.mp (Option.map_eq_none_iff.mp h)

theorem view_unplannable {now : Time} {i : JobId} {job : DeliveryJob}
    (hr : (s.workers w).runners acc = some r) (hpc : r.pc = .claimed i)
    (hjob : s.db.deliveryJobs.get? i = some job)
    (hhold : hold (s.workers w).deps acc i job = none) :
    ∃ l, JobAction.From s id (.runner w acc (.gate now)) l ∧
      (s.view id).step l =
        some ((s.afterRunner w acc (.gate now) ⟨s.db, { r with pc := .idle }, []⟩).view id) := by
  refine view_runner_quiet hr rfl rfl (Or.inr ⟨rfl, ?_⟩)
  intro stage hstage
  simp only [Runner.stage, hpc] at hstage
  split at hstage
  · rename_i hid
    obtain rfl := Option.some.inj hstage
    subst hid
    exact .unplannable now job hjob (planFromJob_of_hold_eq_none hhold)
  · cases hstage

theorem view_gate {now : Time} {i : JobId} {job : DeliveryJob} {h : Holding}
    (hr : (s.workers w).runners acc = some r) (hpc : r.pc = .claimed i)
    (hjob : s.db.deliveryJobs.get? i = some job)
    (hhold : hold (s.workers w).deps acc i job = some h) :
    ∃ l, JobAction.From s id (.runner w acc (.gate now)) l ∧
      (s.view id).step l = some ((s.afterRunner w acc (.gate now) ⟨s.db, { r with
        pc := .gated h (h.decide r.generation (s.workers w).deps.policy now) }, []⟩).view id) := by
  obtain ⟨rfl, rfl, _, _⟩ := hold_eq_some hhold
  by_cases hid : h.id = id
  · subst hid
    refine ⟨.gate (w, acc) h (h.decide r.generation (s.workers w).deps.policy now),
      ⟨r, now, rfl, hr, hhold, rfl⟩, ?_⟩
    have hholder : (s.view h.id).holder (w, acc) = some .claimed := by
      simp [holder_of_runner hr, Runner.stage, hpc]
    rw [view_afterRunner]
    simp [JobView.step, hholder, hjob, Runner.stage, JobView.setHolder]
  · exact view_runner_quiet hr rfl rfl (Or.inl (by simp [Runner.stage, hpc, hid]))

theorem view_settle {now clock : Time} {draw : ℤ} {h : Holding} {decision : Decision}
    (hr : (s.workers w).runners acc = some r) (hpc : r.pc = .gated h decision) :
    ∃ l, JobAction.From s id (.runner w acc (.settle now clock draw)) l ∧
      (s.view id).step l = some ((s.afterRunner w acc (.settle now clock draw)
        (r.settleGate (s.workers w).deps s.db h decision now clock draw)).view id) := by
  obtain ⟨fields, halted, hsettled⟩ :=
    Runner.settleGate_eq (s.workers w).deps s.db r h decision now clock draw
  rw [hsettled]
  by_cases hid : h.id = id
  · refine ⟨.settle (w, acc) fields now, ⟨clock, draw, rfl⟩, ?_⟩
    have hholder : (s.view id).holder (w, acc) = some (.gated h decision) := by
      simp [holder_of_runner hr, Runner.stage, hpc, hid]
    have hstage : ({ r with halted, pc := if decision = .allow then .admitted h else .idle } :
        Runner).stage (w, acc) id = if decision = .allow then some (.admitted h) else none := by
      by_cases hallow : decision = .allow <;> simp [Runner.stage, hallow, hid]
    rw [view_afterRunner, hstage, Database.transition_getD_get?]
    simp [JobView.step, hholder, hid, JobView.setHolder]
  · refine view_runner_quiet hr ?_ rfl (Or.inl ?_)
    · simp [Database.transition_getD_get?, hid]
    · by_cases hallow : decision = .allow <;> simp [Runner.stage, hpc, hallow, hid]

theorem view_execute {now : Time} {h : Holding} {targetIds : List ℤ}
    (hr : (s.workers w).runners acc = some r) (hpc : r.pc = .executing h targetIds) :
    ∃ l, JobAction.From s id (.runner w acc (.execute now)) l ∧
      (s.view id).step l = some ((s.afterRunner w acc (.execute now)
        (r.startCall (s.workers w).deps w acc s.db h targetIds now)).view id) := by
  rcases Runner.startCall_cases (s.workers w).deps w acc s.db r h targetIds now with
    ⟨request, hdispatch, hcall⟩ | ⟨result, hdispatch, hcall⟩ <;>
    rw [hcall]
  · by_cases hid : h.id = id
    · have hholder : (s.view id).holder (w, acc) = some (.admitted h) := by
        rw [← hid]
        exact holder_of_executing hr hpc
      refine ⟨.start (w, acc) (h.call w acc r.generation request),
        ⟨r, now, h, targetIds, rfl, hr, hpc, hdispatch, rfl, rfl, rfl, hid⟩, ?_⟩
      rw [view_afterRunner]
      simp [JobView.step, hholder, Runner.stage, hid, JobView.setHolder, Event.concerns,
        Holding.call]
    · exact view_runner_quiet hr rfl (by simp [Event.concerns, Holding.call, hid])
        (Or.inl (by simp [Runner.stage, hpc, hid]))
  · by_cases hid : h.id = id
    · have hholder : (s.view id).holder (w, acc) = some (.admitted h) := by
        rw [← hid]
        exact holder_of_executing hr hpc
      refine ⟨.skip (w, acc) result, ⟨r, now, h, targetIds, rfl, hr, hpc, hdispatch⟩, ?_⟩
      rw [view_afterRunner]
      simp [JobView.step, hholder, Runner.stage, hid, JobView.setHolder]
    · exact view_runner_quiet hr rfl rfl (Or.inl (by simp [Runner.stage, hpc, hid]))

theorem view_finish {outcome : TransportOutcome} {h : Holding} {targetIds : List ℤ}
    {request : TransportRequest} (hr : (s.workers w).runners acc = some r)
    (hpc : r.pc = .calling h targetIds request) :
    ∃ l, JobAction.From s id (.runner w acc (.finish outcome)) l ∧
      (s.view id).step l = some ((s.afterRunner w acc (.finish outcome) ⟨s.db, { r with
        pc := .recording h (some request) (request.result targetIds outcome) },
        [.returned (h.call w acc r.generation request)
          (request.result targetIds outcome)]⟩).view id) := by
  by_cases hid : h.id = id
  · have hholder : (s.view id).holder (w, acc) =
        some (.calling h (h.call w acc r.generation request)) := by
      simp [holder_of_runner hr, Runner.stage, hpc, hid]
    refine ⟨.finish (w, acc) targetIds outcome, rfl, ?_⟩
    rw [view_afterRunner]
    simp [JobView.step, hholder, Runner.stage, hid, JobView.setHolder, Event.concerns,
      Holding.call]
  · exact view_runner_quiet hr rfl (by simp [Event.concerns, Holding.call, hid])
      (Or.inl (by simp [Runner.stage, hpc, hid]))

/-- Only a delivered send with a new message can fail to be recorded. -/
theorem succeeded_of_raised {db : Database} {i : JobId} {job : DeliveryJob} {attemptNo n : ℤ}
    {policy : RetryPolicy} {clock now : Time} {draw : ℤ} {result : DeliveryResult} {raises : Bool}
    (h : db.recordResult i job attemptNo (resultFields policy n clock draw result) now raises =
      .raised) : result.status = .succeeded ∧ result.targetMessageIds ≠ [] := by
  obtain ⟨hstatus, target, htarget⟩ := Database.recordResult_eq_raised h
  have hsucceeded : result.status = .succeeded := by
    revert hstatus
    unfold resultFields
    split
    · exact fun _ => ‹_›
    · simp
    · simp
    · simp
    · split
      · simp
      · split <;> simp
    · simp
  refine ⟨hsucceeded, ?_⟩
  rintro hnil
  simp [resultFields, hsucceeded, hnil] at htarget

theorem dropped_of_unrecorded {h : Holding} {called : Option TransportRequest}
    {result : DeliveryResult} {now clock : Time} {draw : ℤ} {raises : Bool}
    (hpc : r.pc = .recording h called result)
    (hrecord : ∀ db, s.db.recordResult h.id h.job h.attemptNo
      (resultFields (s.workers w).deps.retryPolicy h.attemptNo clock draw result) now raises ≠
        .recorded db) (stage : Stage) (hstage : r.stage (w, acc) id = some stage) :
    Dropped s id (w, acc) stage (.runner w acc (.record now clock draw raises)) := by
  simp only [Runner.stage, hpc] at hstage
  split at hstage
  · rename_i hid
    obtain rfl := Option.some.inj hstage
    refine .unrecorded h _ result now clock draw raises fun job hjob hsending => ?_
    cases hdb : s.db.recordResult h.id h.job h.attemptNo
        (resultFields (s.workers w).deps.retryPolicy h.attemptNo clock draw result) now raises with
    | stale => exact absurd hdb (Database.recordResult_ne_stale (hid ▸ hjob) hsending)
    | raised => exact succeeded_of_raised hdb
    | recorded db => exact absurd hdb (hrecord db)
  · cases hstage

theorem view_record {now clock : Time} {draw : ℤ} {raises : Bool} {h : Holding}
    {called : Option TransportRequest} {result : DeliveryResult}
    (hr : (s.workers w).runners acc = some r) (hpc : r.pc = .recording h called result) :
    ∃ l, JobAction.From s id (.runner w acc (.record now clock draw raises)) l ∧
      (s.view id).step l = some ((s.afterRunner w acc (.record now clock draw raises)
        (r.recordOutcome (s.workers w).deps s.db h result now clock draw raises)).view id) := by
  obtain ⟨halted, ⟨db, hrecord, hafter⟩ | ⟨hrecord, hafter⟩⟩ := Runner.recordOutcome_cases
    (s.workers w).deps s.db r h result now clock draw raises <;> rw [hafter]
  · obtain ⟨job, close, maps, hjob, hsending, _, rfl⟩ := Database.recordResult_eq_recorded hrecord
    by_cases hid : h.id = id
    · have hholder : (s.view id).holder (w, acc) =
          some (.recording h (called.map (h.call w acc r.generation)) result) := by
        simp [holder_of_runner hr, Runner.stage, hpc, hid]
      rw [hid] at hjob
      refine ⟨.record (w, acc) (s.workers w).deps.retryPolicy now clock draw,
        ⟨raises, rfl⟩, ?_⟩
      rw [view_afterRunner]
      simp [JobView.step, hholder, hjob, hsending, Runner.stage, hid, JobView.setHolder,
        Event.concerns]
    · refine view_runner_quiet hr ?_ (by simp [Event.concerns, hid])
        (Or.inl (by simp [Runner.stage, hpc, hid]))
      exact Table.get?_update_of_ne hid
  · exact view_runner_quiet hr rfl rfl (Or.inr ⟨rfl, dropped_of_unrecorded hpc hrecord⟩)

theorem view_runner (hr : (s.workers w).runners acc = some r)
    (he : r.step (s.workers w).deps w acc s.db x = some e) :
    ∃ l, JobAction.From s id (.runner w acc x) l ∧
      (s.view id).step l = some ((s.afterRunner w acc x e).view id) := by
  have hread : ∀ {x' : RunnerAction} {pc : RunnerPc},
      ({ r with pc } : Runner).stage (w, acc) id = r.stage (w, acc) id →
      ∃ l, JobAction.From s id (.runner w acc x') l ∧
        (s.view id).step l =
          some ((s.afterRunner w acc x' ⟨s.db, { r with pc }, []⟩).view id) :=
    fun hstage => view_runner_quiet hr rfl rfl (Or.inl hstage)
  cases Runner.stepped_of_step he with
  | drainRead order limit hpc => exact hread (by simp [Runner.stage, hpc])
  | drainPrefetch order rows hpc => exact hread (by simp [Runner.stage, hpc])
  | drained draw stamp raises rows mapping db hpc hdrain => exact view_drained hr hpc hdrain
  | drainRaised draw stamp raises rows mapping hpc => exact hread (by simp [Runner.stage, hpc])
  | reclaim now hpc _ =>
    refine ⟨.reclaim acc now, ⟨w, rfl⟩, ?_⟩
    rw [view_afterRunner_same hr (by simp [Runner.stage, hpc])]
    simp [JobView.step, Database.reclaimStaleSending_get?]
  | select order now hpc => exact hread (by simp [Runner.stage, hpc])
  | claimEmpty now at_ hpc => exact hread (by simp [Runner.stage, hpc])
  | claimSkip now at_ i seen rest hpc _ => exact hread (by simp [Runner.stage, hpc])
  | claimRaised now at_ i seen rest hpc _ => exact hread (by simp [Runner.stage, hpc])
  | claimed now at_ i seen rest db hpc hdue hclaim => exact view_claimed hr hpc hdue hclaim
  | unplannable now i job hpc hjob hhold => exact view_unplannable hr hpc hjob hhold
  | gate now i job h hpc hjob hhold => exact view_gate hr hpc hjob hhold
  | settle now clock draw h decision hpc => exact view_settle hr hpc
  | lookup order h targetIds hpc => exact hread (by simp [Runner.stage, hpc])
  | execute now h targetIds hpc => exact view_execute hr hpc
  | finish outcome h targetIds request hpc => exact view_finish hr hpc
  | record now clock draw raises h called result hpc => exact view_record hr hpc

/-! ## Steps of the other parties -/

/-- A host step touches no job and leaves each runner alone, removes an idle one or makes a
new one. -/
structure HostQuiet (db : Database) (wk : Worker) (x : HostAction) (e : HostEffect) : Prop where
  jobs : e.db.deliveryJobs = db.deliveryJobs
  runners : ∀ acc, e.worker.runners acc = wk.runners acc ∨
    (x = .release acc ∧ (∀ r, wk.runners acc = some r → r.pc = .idle) ∧
      e.worker.runners acc = none) ∨
    (x = .assignDone ∧ ∃ a g, wk.assigning = some ⟨a, .connected g⟩ ∧ a.accountId = acc ∧
      e.worker.runners acc = some { generation := g })
  events : ∀ ev ∈ e.events, ∃ acc l, ev = .lease acc l

theorem HostQuiet.of_runners {db db' : Database} {wk wk' : Worker} {x : HostAction}
    {events : List Event} (hjobs : db'.deliveryJobs = db.deliveryJobs)
    (hrunners : wk'.runners = wk.runners)
    (hevents : ∀ ev ∈ events, ∃ acc l, ev = .lease acc l) :
    HostQuiet db wk x ⟨db', wk', events⟩ :=
  ⟨hjobs, fun acc => Or.inl (congrFun hrunners acc), hevents⟩

/-- The only host step that touches a job is the cancel command. -/
theorem host_step_cases {wk : Worker} {published : AccountId → List PublishedRule}
    {db : Database} {x : HostAction} {e : HostEffect}
    (h : wk.step w published db x = some e) :
    HostQuiet db wk x e ∨
      ∃ i src now, x = .cancelJob i src now ∧ src ∈ cancellableByCommand ∧
        db.transition i src .cancelled {} now = some e.db ∧ e.worker = wk ∧ e.events = [] := by
  cases Worker.stepped_of_step h with
  | cancelJob i src now db' hsrc hdb => exact Or.inr ⟨i, src, now, rfl, hsrc, hdb, rfl, rfl⟩
  | assignDone a g hassigning =>
    refine Or.inl ⟨rfl, fun acc => ?_, by simp⟩
    by_cases hacc : acc = a.accountId
    · subst hacc
      exact Or.inr (Or.inr ⟨rfl, a, g, hassigning, rfl, Function.update_self ..⟩)
    · exact Or.inl (Function.update_of_ne hacc _ _)
  | release acc _ hidle =>
    refine Or.inl ⟨rfl, fun acc' => ?_, by simp⟩
    by_cases hacc : acc' = acc
    · subst hacc
      exact Or.inr (Or.inl ⟨rfl, hidle, Function.update_self ..⟩)
    · exact Or.inl (Function.update_of_ne hacc _ _)
  | renew acc now hosted row ok _ _ _ =>
    refine Or.inl (.of_runners rfl ?_ (by simp))
    split <;> rfl
  | _ => exact Or.inl (.of_runners rfl rfl (by simp))

def afterHost (s : System) (w : WorkerId) (e : HostEffect) : System :=
  { s with
    db := e.db
    workers := Function.update s.workers w e.worker
    history := s.history ++ e.events }

theorem step_host_eq_some {x : HostAction} (h : s.step (.host w x) = some s') :
    ∃ e, (s.workers w).step w s.published s.db x = some e ∧ s' = s.afterHost w e := by
  obtain ⟨e, he, rfl⟩ := Option.map_eq_some_iff.mp h
  exact ⟨e, he, rfl⟩

theorem filter_lease_events {events : List Event}
    (h : ∀ ev ∈ events, ∃ acc l, ev = Event.lease acc l) :
    events.filter (fun ev => ev.concerns id) = [] := by
  rw [List.filter_eq_nil_iff]
  intro ev hev
  obtain ⟨acc, l, rfl⟩ := h ev hev
  simp [Event.concerns]

theorem view_host {x : HostAction} {e : HostEffect}
    (he : (s.workers w).step w s.published s.db x = some e) :
    ∃ l, JobAction.From s id (.host w x) l ∧
      (s.view id).step l = some ((s.afterHost w e).view id) := by
  rcases host_step_cases he with hquiet | ⟨i, src, now, rfl, hsrc, hdb, hworker, hevents⟩
  · refine view_lose (congrArg (Table.get? · id) hquiet.jobs)
      (by simp [view, afterHost, filter_lease_events hquiet.events]) ?_
    rintro ⟨w', acc⟩
    by_cases hw : w' = w
    · subst hw
      rcases hquiet.runners acc with hsame | ⟨rfl, hidle, hnone⟩ | ⟨rfl, a, g, hassign, rfl, hnew⟩
      · exact Or.inl (by simp [view, afterHost, hsame])
      · refine Or.inr ⟨by simp [view, afterHost, hnone], fun stage hstage => ?_⟩
        obtain ⟨r, hr, hstage⟩ := Option.bind_eq_some_iff.mp hstage
        simp [Runner.stage, hidle r hr] at hstage
      · exact Or.inr ⟨by simp [view, afterHost, hnew, Runner.stage],
          fun stage _ => .reassign stage _ hassign rfl⟩
    · exact Or.inl (by simp [view, afterHost, hw])
  · have hsame : Function.update s.workers w e.worker = s.workers := by
      rw [hworker, Function.update_eq_self]
    obtain ⟨job, hjob, hstatus, hdb⟩ := Database.transition_eq_some hdb
    by_cases hid : i = id
    · subst hid
      refine ⟨.cancel src now, ⟨w, rfl⟩, ?_⟩
      simp [JobView.step, view, afterHost, hsame, hdb, hevents, hjob, hstatus, hsrc]
    · exact view_lose (by simp [afterHost, hdb, Table.get?_update_of_ne hid])
        (by simp [view, afterHost, hevents]) fun p => Or.inl (by simp [view, afterHost, hsame])

theorem view_quiet (hjobs : s'.db.deliveryJobs.get? id = s.db.deliveryJobs.get? id)
    (hworkers : s'.workers = s.workers) (hhistory : ∃ events, s'.history = s.history ++ events ∧
      events.filter (fun ev => ev.concerns id) = []) :
    ∃ l, JobAction.From s id a l ∧ (s.view id).step l = some (s'.view id) := by
  obtain ⟨events, hhistory, hevents⟩ := hhistory
  exact view_lose hjobs (by simp [view, hhistory, hevents])
    fun p => Or.inl (by simp [view, hworkers])

theorem commitIngest_cases (c : IngestCall) :
    s.commitIngest c = s ∨
      ∃ db, s.db.ingestCommit c.seen c.tenantId c.projectId c.event 0 = some db ∧
        s.commitIngest c =
          { s with db, history := s.history ++ [.ingested c.tenantId c.projectId c.event] } := by
  unfold commitIngest
  split
  · exact Or.inl rfl
  · exact Or.inr ⟨_, ‹_›, rfl⟩

/-- Every system step is a step in the life of every job. -/
theorem view_step (h : s.step a = some s') (id : JobId) :
    ∃ l, JobAction.From s id a l ∧ (s.view id).step l = some (s'.view id) := by
  cases a with
  | runner w acc x =>
    obtain ⟨r, e, hr, he, rfl⟩ := step_runner_eq_some h
    exact view_runner hr he
  | host w x =>
    obtain ⟨e, he, rfl⟩ := step_host_eq_some h
    exact view_host he
  | crash w =>
    obtain rfl := Option.some.inj h
    refine view_lose rfl rfl ?_
    rintro ⟨w', acc⟩
    by_cases hw : w' = w
    · subst hw
      exact Or.inr ⟨by simp [view, Worker.start], fun stage _ => .crash stage⟩
    · exact Or.inl (by simp [view, hw])
  | ingestRead w acc raw pyHash =>
    obtain ⟨x, _, rfl⟩ := Option.map_eq_some_iff.mp h
    exact view_quiet rfl rfl ⟨[], by simp, rfl⟩
  | ingestCommit k =>
    obtain ⟨c, _, rfl⟩ := Option.map_eq_some_iff.mp h
    rcases commitIngest_cases (s := { s with ingests := s.ingests.eraseIdx k }) c with
      hsame | ⟨db, hdb, hcommit⟩
    · rw [hsame]
      exact view_quiet rfl rfl ⟨[], by simp, rfl⟩
    · obtain ⟨_, sources, rfl, _⟩ := Database.ingestCommit_eq_some hdb
      rw [hcommit]
      exact view_quiet rfl rfl ⟨_, rfl, by simp [Event.concerns]⟩
  | publish acc rows =>
    obtain rfl := Option.some.inj h
    exact view_quiet rfl rfl ⟨[], by simp, rfl⟩
  | enqueue reply now =>
    simp only [step] at h
    split at h
    · cases h
    · obtain rfl := Option.some.inj h
      rcases view_append (s.view id) s.db.deliveryJobs [reply.job now] rfl
        (by simp [ApprovedReply.job]) with hsame | ⟨job, hjob, hcreate⟩
      · exact view_quiet hsame rfl ⟨[], by simp, rfl⟩
      · exact ⟨.create job, Or.inr ⟨reply, now, rfl, List.mem_singleton.mp hjob⟩, hcreate⟩
  | operatorRead call i =>
    obtain ⟨job, _, h⟩ := Option.bind_eq_some_iff.mp h
    split at h
    · obtain rfl := Option.some.inj h
      exact view_quiet rfl rfl ⟨[], by simp, rfl⟩
    · cases h
  | operatorWrite k =>
    obtain ⟨⟨call, i⟩, hk, rfl⟩ := Option.map_eq_some_iff.mp h
    by_cases hid : i = id
    · subst hid
      refine ⟨.operator call, ⟨k, rfl, hk⟩, ?_⟩
      simp [JobView.step, view]
    · exact view_quiet (Table.get?_update_of_ne hid) rfl ⟨[], by simp, rfl⟩

end System

end TgPlatform
