import TgPlatform.Pipeline.System

/-! # The life of one job

An abstract machine that sees one delivery job only: its row, how far each
runner has come with it, and the calls and results it has caused. Whole-system
steps project to it, so what holds of every life holds of every job in every
run.
-/

namespace TgPlatform

abbrev Slot := WorkerId × AccountId

/-- How far a runner has come with a job it holds. -/
inductive Stage
  | claimed
  | gated (h : Holding) (decision : Decision)
  | admitted (h : Holding)
  | calling (h : Holding) (call : Call)
  | recording (h : Holding) (call : Option Call) (result : DeliveryResult)
  deriving DecidableEq, Repr

/-- The stage of the runner in slot `p` with the job `id`. -/
def Runner.stage (p : Slot) (id : JobId) (r : Runner) : Option Stage :=
  match r.pc with
  | .claimed i => if i = id then some .claimed else none
  | .gated h decision => if h.id = id then some (.gated h decision) else none
  | .admitted h | .executing h _ => if h.id = id then some (.admitted h) else none
  | .calling h _ request =>
    if h.id = id then some (.calling h (h.call p.1 p.2 r.generation request)) else none
  | .recording h called result =>
    if h.id = id then
      some (.recording h (called.map (h.call p.1 p.2 r.generation)) result)
    else none
  | _ => none

theorem Runner.pc_of_gated {p : Slot} {id : JobId} {r : Runner} {h : Holding}
    {decision : Decision} (hr : r.stage p id = some (.gated h decision)) :
    r.pc = .gated h decision := by
  cases hpc : r.pc with
  | gated held decision' =>
    simp only [Runner.stage, hpc] at hr
    split at hr
    · obtain ⟨rfl, rfl⟩ := Stage.gated.inj (Option.some.inj hr)
      rfl
    · cases hr
  | _ => simp [Runner.stage, hpc] at hr

theorem Runner.pc_of_recording {p : Slot} {id : JobId} {r : Runner} {h : Holding}
    {call : Option Call} {result : DeliveryResult}
    (hr : r.stage p id = some (.recording h call result)) :
    ∃ called, r.pc = .recording h called result ∧ h.id = id ∧
      call = called.map (h.call p.1 p.2 r.generation) := by
  cases hpc : r.pc with
  | recording held called result' =>
    simp only [Runner.stage, hpc] at hr
    split at hr
    · rename_i hid
      obtain ⟨rfl, hcall, rfl⟩ := Stage.recording.inj (Option.some.inj hr)
      exact ⟨called, rfl, hid, hcall.symm⟩
    · cases hr
  | _ => simp [Runner.stage, hpc] at hr

def Event.concerns (id : JobId) : Event → Bool
  | .started call | .returned call _ => call.jobId = id
  | .recorded i _ _ => i = id
  | _ => false

structure JobView where
  row : Option DeliveryJob
  holder : Slot → Option Stage
  history : List Event

inductive JobAction
  | lose (gone : Slot → Bool)
  | create (job : DeliveryJob)
  | claim (p : Slot) (attemptCount : ℤ) (now : Time)
  | gate (p : Slot) (h : Holding) (decision : Decision)
  | settle (p : Slot) (fields : StatusFields) (now : Time)
  | start (p : Slot) (call : Call)
  | skip (p : Slot) (result : DeliveryResult)
  | finish (p : Slot) (targetIds : List ℤ) (outcome : TransportOutcome)
  | record (p : Slot) (policy : RetryPolicy) (now clock : Time) (draw : ℤ)
  | reclaim (accountId : AccountId) (now : Time)
  | cancel (src : JobStatus) (now : Time)
  | operator (call : OperatorCall)

namespace JobView

def setHolder (v : JobView) (p : Slot) (stage : Option Stage) : JobView :=
  { v with holder := Function.update v.holder p stage }

@[simp] theorem setHolder_row (v : JobView) (p : Slot) (stage : Option Stage) :
    (v.setHolder p stage).row = v.row := rfl

@[simp] theorem setHolder_history (v : JobView) (p : Slot) (stage : Option Stage) :
    (v.setHolder p stage).history = v.history := rfl

@[simp] theorem setHolder_holder (v : JobView) (p : Slot) (stage : Option Stage) :
    (v.setHolder p stage).holder = Function.update v.holder p stage := rfl

def step (v : JobView) : JobAction → Option JobView
  | .lose gone => some { v with holder := fun p => if gone p then none else v.holder p }
  | .create job =>
    if v.row = none ∧ job.status ∈ [.ready, .waitingApproval] then some { v with row := some job }
    else none
  | .claim p attemptCount now =>
    v.row.bind fun job =>
      if job.status = .ready ∧ v.holder p = none then
        some { v.setHolder p (some .claimed) with row := some (job.lease attemptCount now) }
      else none
  | .gate p h decision =>
    if v.holder p = some .claimed ∧ v.row = some h.job then
      some (v.setHolder p (some (.gated h decision)))
    else none
  | .settle p fields now =>
    match v.holder p with
    | some (.gated h decision) =>
      some { v.setHolder p (if decision = .allow then some (.admitted h) else none) with
        row := v.row.map fun job =>
          if job.status = .leased then job.move decision.target fields now else job }
    | _ => none
  | .start p call =>
    match v.holder p with
    | some (.admitted h) =>
      if call = h.call p.1 p.2 call.generation call.request then
        some { v.setHolder p (some (.calling h call)) with
          history := v.history ++ [.started call] }
      else none
    | _ => none
  | .skip p result =>
    match v.holder p with
    | some (.admitted h) => some (v.setHolder p (some (.recording h none result)))
    | _ => none
  | .finish p targetIds outcome =>
    match v.holder p with
    | some (.calling h call) =>
      let result := call.request.result targetIds outcome
      some { v.setHolder p (some (.recording h (some call) result)) with
        history := v.history ++ [.returned call result] }
    | _ => none
  | .record p policy now clock draw =>
    match v.holder p with
    | some (.recording h _ result) =>
      let fields := resultFields policy h.attemptNo clock draw result
      v.row.bind fun job =>
        if job.status = .sending then
          some { v.setHolder p none with
            row := some (job.move fields.newStatus fields.toStatusFields now)
            history := v.history ++ [.recorded h.id h.attemptNo fields] }
        else none
    | _ => none
  | .reclaim accountId now => some { v with
      row := v.row.map fun job => if job.stale accountId now then job.requeue now else job }
  | .cancel src now =>
    v.row.bind fun job =>
      if job.status = src ∧ src ∈ cancellableByCommand then
        some { v with row := some (job.move .cancelled {} now) }
      else none
  | .operator call => some { v with row := v.row.map call.write }

end JobView

namespace JobView

inductive RowChange (v : JobView) (job : DeliveryJob) : JobAction → DeliveryJob → Prop
  | claimed (p : Slot) (attemptCount : ℤ) (now : Time) : job.status = .ready →
      RowChange v job (.claim p attemptCount now) (job.lease attemptCount now)
  | settled (p : Slot) (h : Holding) (decision : Decision) (fields : StatusFields) (now : Time) :
      v.holder p = some (.gated h decision) → job.status = .leased →
      RowChange v job (.settle p fields now) (job.move decision.target fields now)
  | recorded (p : Slot) (h : Holding) (call : Option Call) (result : DeliveryResult)
      (policy : RetryPolicy) (now clock : Time) (draw : ℤ) :
      v.holder p = some (.recording h call result) → job.status = .sending →
      RowChange v job (.record p policy now clock draw)
        (job.move (resultFields policy h.attemptNo clock draw result).newStatus
          (resultFields policy h.attemptNo clock draw result).toStatusFields now)
  | requeued (accountId : AccountId) (now : Time) : job.stale accountId now = true →
      RowChange v job (.reclaim accountId now) (job.requeue now)
  | cancelled (now : Time) : job.status ∈ cancellableByCommand →
      RowChange v job (.cancel job.status now) (job.move .cancelled {} now)
  | operated (call : OperatorCall) : RowChange v job (.operator call) (call.write job)

variable {v v' : JobView} {l : JobAction} {job job' : DeliveryJob}

theorem row_cases (h : v.step l = some v') (hjob : v.row = some job)
    (hjob' : v'.row = some job') : job' = job ∨ RowChange v job l job' := by
  have hsame : v'.row = v.row → job' = job := by
    intro he
    rw [he, hjob] at hjob'
    exact (Option.some.inj hjob').symm
  cases l with
  | lose gone =>
    obtain rfl := Option.some.inj h
    exact Or.inl (hsame rfl)
  | create job₀ => simp [step, hjob] at h
  | claim p attemptCount now =>
    simp only [step, hjob, Option.bind_some] at h
    split at h
    · rename_i hready
      obtain rfl := Option.some.inj h
      obtain rfl := Option.some.inj hjob'
      exact Or.inr (.claimed p attemptCount now hready.1)
    · cases h
  | gate p held decision =>
    simp only [step] at h
    split at h
    · obtain rfl := Option.some.inj h
      exact Or.inl (hsame rfl)
    · cases h
  | settle p fields now =>
    simp only [step] at h
    split at h
    · rename_i held decision hp
      obtain rfl := Option.some.inj h
      simp only [hjob, Option.map_some, Option.some.injEq] at hjob'
      by_cases hleased : job.status = .leased
      · rw [if_pos hleased] at hjob'
        subst hjob'
        exact Or.inr (.settled p held decision fields now hp hleased)
      · rw [if_neg hleased] at hjob'
        exact Or.inl hjob'.symm
    · cases h
  | start p call =>
    simp only [step] at h
    split at h
    · split at h
      · obtain rfl := Option.some.inj h
        exact Or.inl (hsame rfl)
      · cases h
    · cases h
  | skip p result =>
    simp only [step] at h
    split at h
    · obtain rfl := Option.some.inj h
      exact Or.inl (hsame rfl)
    · cases h
  | finish p targetIds outcome =>
    simp only [step] at h
    split at h
    · obtain rfl := Option.some.inj h
      exact Or.inl (hsame rfl)
    · cases h
  | record p policy now clock draw =>
    simp only [step] at h
    split at h
    · rename_i held call result hp
      simp only [hjob, Option.bind_some] at h
      split at h
      · rename_i hsending
        obtain rfl := Option.some.inj h
        obtain rfl := Option.some.inj hjob'
        exact Or.inr (.recorded p held call result policy now clock draw hp hsending)
      · cases h
    · cases h
  | reclaim acc now =>
    obtain rfl := Option.some.inj h
    simp only [hjob, Option.map_some, Option.some.injEq] at hjob'
    by_cases hstale : job.stale acc now = true
    · rw [if_pos hstale] at hjob'
      subst hjob'
      exact Or.inr (.requeued acc now hstale)
    · rw [if_neg hstale] at hjob'
      exact Or.inl hjob'.symm
  | cancel src now =>
    simp only [step, hjob, Option.bind_some] at h
    split at h
    · rename_i hsrc
      obtain rfl := Option.some.inj h
      obtain rfl := Option.some.inj hjob'
      obtain ⟨rfl, hmem⟩ := hsrc
      exact Or.inr (.cancelled now hmem)
    · cases h
  | operator call =>
    obtain rfl := Option.some.inj h
    simp only [hjob, Option.map_some, Option.some.injEq] at hjob'
    subst hjob'
    exact Or.inr (.operated call)

theorem row_some (h : v.step l = some v') (hjob : v.row = some job) : ∃ job', v'.row = some job' := by
  cases l <;> simp only [step, hjob, Option.bind_some, Option.map_some] at h <;>
    (try split at h) <;> (try split at h) <;> cases h <;>
    first | exact ⟨_, rfl⟩ | exact ⟨job, hjob⟩

theorem row_created (h : v.step l = some v') (hnone : v.row = none) (hjob' : v'.row = some job') :
    l = .create job' := by
  have hsame : v'.row = v.row → l = .create job' := by
    intro he
    rw [he, hnone] at hjob'
    cases hjob'
  cases l with
  | create job =>
    simp only [step] at h
    split at h
    · obtain rfl := Option.some.inj h
      rw [Option.some.inj hjob']
    · cases h
  | claim p attemptCount now => simp [step, hnone] at h
  | cancel src now => simp [step, hnone] at h
  | lose gone =>
    obtain rfl := Option.some.inj h
    exact hsame rfl
  | gate p held decision =>
    simp only [step] at h
    split at h <;> cases h
    exact hsame rfl
  | settle p fields now =>
    simp only [step] at h
    split at h <;> cases h
    exact hsame (by simp [hnone])
  | start p call =>
    simp only [step] at h
    split at h
    · split at h <;> cases h
      exact hsame rfl
    · cases h
  | skip p result =>
    simp only [step] at h
    split at h <;> cases h
    exact hsame rfl
  | finish p targetIds outcome =>
    simp only [step] at h
    split at h <;> cases h
    exact hsame rfl
  | record p policy now clock draw =>
    simp only [step, hnone, Option.bind_none] at h
    split at h <;> cases h
  | reclaim acc now =>
    obtain rfl := Option.some.inj h
    exact hsame (by simp [hnone])
  | operator call =>
    obtain rfl := Option.some.inj h
    exact hsame (by simp [hnone])

end JobView

/-- What the system shows of one job. -/
def System.view (s : System) (id : JobId) : JobView where
  row := s.db.deliveryJobs.get? id
  holder p := ((s.workers p.1).runners p.2).bind fun r => r.stage p id
  history := s.history.filter fun e => e.concerns id

@[simp] theorem System.view_row (s : System) (id : JobId) :
    (s.view id).row = s.db.deliveryJobs.get? id := rfl

end TgPlatform
