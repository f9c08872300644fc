import TgPlatform.Pipeline.Attempts
import TgPlatform.Pipeline.RetryWait

/-! # Pausing and the queue

The gate writes `blocked` over a job it meets while a switch is off, and
nothing takes a job out of `blocked` again. As long as no gate meets a closed
switch, a queued job stays claimable until it is executed or cancelled.
-/

namespace TgPlatform

/-- The event shows that the job reached the executor and was not denied there. -/
def Event.executes (id : JobId) : Event → Bool
  | .started call => call.jobId = id
  | .recorded i _ fields => i = id && !(fields.newStatus = .blocked && fields.errorClass.isNone)
  | _ => false

def Executed (id : JobId) (history : List Event) : Prop := ∃ ev ∈ history, ev.executes id = true

variable {id : JobId} {history : List Event} {v v' : JobView} {l : JobAction} {job job' : DeliveryJob}

theorem Executed.append (h : Executed id history) (events : List Event) :
    Executed id (history ++ events) := by
  obtain ⟨ev, hmem, hev⟩ := h
  exact ⟨ev, List.mem_append_left _ hmem, hev⟩

theorem executed_snoc {ev : Event} (h : ev.executes id = true) : Executed id (history ++ [ev]) :=
  ⟨ev, by simp, h⟩

def Stage.early : Stage → Bool
  | .claimed | .gated _ _ => true
  | _ => false

/-- The job was executed, is not being worked on, or a runner at the right stage holds it. -/
def Tended (id : JobId) (v : JobView) (job : DeliveryJob) : Prop :=
  Executed id v.history ∨ job.status ∈ [.waitingApproval, .ready, .cancelled] ∨
    (job.status = .leased ∧ ∃ p stage, v.holder p = some stage ∧ stage.early = true) ∨
    (job.status = .sending ∧ ∃ p stage, v.holder p = some stage ∧ stage.early = false)

structure Queued (id : JobId) (v : JobView) : Prop where
  plannable : ∀ job, v.row = some job → (planFromJob job).isSome
  called : ∀ p h call, v.holder p = some (.calling h call) → Executed id v.history
  returned : ∀ p h call result, v.holder p = some (.recording h (some call) result) →
    Executed id v.history
  tended : ∀ job, v.row = some job → Tended id v job

/-- The steps that strand no job: a holder is dropped only when the job does not need it, the
gate asks for no `blocked`, and what is recorded without a call is no denial. -/
def JobAction.Keeps (id : JobId) (v : JobView) : JobAction → Prop
  | .lose gone => ∀ p stage, v.holder p = some stage → gone p = true → stage.early = false ∧
      (Executed id v.history ∨ ∀ job, v.row = some job → job.status ≠ .sending)
  | .create job => (planFromJob job).isSome
  | .settle p _ _ => ∀ h decision, v.holder p = some (.gated h decision) → decision.target ≠ .blocked
  | .record p _ _ _ _ => ∀ h result, v.holder p = some (.recording h none result) → h.id = id ∧
      (result.status = .succeeded ∨ result.status = .failed)
  | .start _ call => call.jobId = id
  | .operator call => call = .retry → Executed id v.history
  | _ => True

theorem JobView.RowChange.plan_kept (h : v.RowChange job l job') :
    job'.kind = job.kind ∧ job'.mode = job.mode := by
  cases h with
  | operated call => cases call <;> exact ⟨rfl, rfl⟩
  | _ => exact ⟨rfl, rfl⟩

theorem planFromJob_isSome_congr (hkind : job'.kind = job.kind) (hmode : job'.mode = job.mode) :
    (planFromJob job').isSome = (planFromJob job).isSome := by
  unfold planFromJob
  rw [hkind, hmode]
  cases jobKindAlias job.kind with
  | none => rfl
  | some kind => cases cloneMode job.mode <;> rfl

/-- No change of a row leads back to waiting for an approval. -/
theorem JobView.RowChange.ne_waitingApproval (h : v.RowChange job l job') :
    job'.status ≠ .waitingApproval := by
  cases h with
  | claimed p attemptCount now _ => simp [DeliveryJob.lease]
  | settled p held decision fields now _ _ => cases decision <;> simp [DeliveryJob.move, Decision.target]
  | recorded p held call result policy now clock draw _ _ =>
    intro hwaiting
    have hedge := resultFields_edge policy held.attemptNo clock draw result
    rw [show (resultFields policy held.attemptNo clock draw result).newStatus = .waitingApproval
      from hwaiting] at hedge
    cases hedge
  | requeued acc now _ => simp [DeliveryJob.requeue]
  | cancelled now _ => simp [DeliveryJob.move]
  | operated call => cases call <;> simp [OperatorCall.write]

namespace Queued

/-- Holders change, the row does not: the job stays tended if each stage that mattered is kept. -/
theorem holders (h : Queued id v) (hrow : v'.row = v.row) (events : List Event)
    (hhistory : v'.history = v.history ++ events)
    (hcalled : ∀ p held call, v'.holder p = some (.calling held call) → Executed id v'.history)
    (hreturned : ∀ p held call result,
      v'.holder p = some (.recording held (some call) result) → Executed id v'.history)
    (hstage : ∀ p stage, v.holder p = some stage →
      (∃ p' stage', v'.holder p' = some stage' ∧ stage'.early = stage.early) ∨
        stage.early = false ∧
          (Executed id v'.history ∨ ∀ job, v.row = some job → job.status ≠ .sending)) :
    Queued id v' := by
  constructor
  · rw [hrow]
    exact h.plannable
  · exact hcalled
  · exact hreturned
  · intro job hjob
    rw [hrow] at hjob
    rcases h.tended job hjob with hdone | hidle | ⟨hleased, p, stage, hp, hearly⟩ |
      ⟨hsending, p, stage, hp, hlate⟩
    · rw [Tended, hhistory]
      exact Or.inl (hdone.append events)
    · exact Or.inr (Or.inl hidle)
    · rcases hstage p stage hp with ⟨p', stage', hp', he⟩ | ⟨hlate, _⟩
      · exact Or.inr (Or.inr (Or.inl ⟨hleased, p', stage', hp', he.trans hearly⟩))
      · rw [hearly] at hlate
        cases hlate
    · rcases hstage p stage hp with ⟨p', stage', hp', he⟩ | ⟨_, hdone | hrow'⟩
      · exact Or.inr (Or.inr (Or.inr ⟨hsending, p', stage', hp', he.trans hlate⟩))
      · exact Or.inl hdone
      · exact absurd hsending (hrow' job hjob)

theorem advance (h : Queued id v) {p : Slot} {stage stage' : Stage}
    (hp : v.holder p = some stage) (hrow : v'.row = v.row) (events : List Event)
    (hhistory : v'.history = v.history ++ events)
    (hholder : v'.holder = Function.update v.holder p (some stage'))
    (hearly : stage'.early = stage.early)
    (hcalls : (∃ held call, stage' = .calling held call) ∨
      (∃ held call result, stage' = .recording held (some call) result) →
        Executed id v'.history) : Queued id v' := by
  refine h.holders hrow events hhistory ?_ ?_ ?_
  · intro q held call hq
    by_cases hqp : q = p
    · rw [hholder, hqp, Function.update_self] at hq
      exact hcalls (Or.inl ⟨held, call, Option.some.inj hq⟩)
    · rw [hholder, Function.update_of_ne hqp] at hq
      rw [hhistory]
      exact (h.called q held call hq).append events
  · intro q held call result hq
    by_cases hqp : q = p
    · rw [hholder, hqp, Function.update_self] at hq
      exact hcalls (Or.inr ⟨held, call, result, Option.some.inj hq⟩)
    · rw [hholder, Function.update_of_ne hqp] at hq
      rw [hhistory]
      exact (h.returned q held call result hq).append events
  · intro q st hq
    by_cases hqp : q = p
    · subst hqp
      obtain rfl := Option.some.inj (hp.symm.trans hq)
      exact Or.inl ⟨q, stage', by rw [hholder, Function.update_self], hearly⟩
    · exact Or.inl ⟨q, st, by rw [hholder, Function.update_of_ne hqp, hq], rfl⟩

theorem rewrite (h : Queued id v) (hholder : v'.holder = v.holder)
    (hhistory : v'.history = v.history)
    (hplannable : ∀ job', v'.row = some job' → (planFromJob job').isSome)
    (htended : ∀ job', v'.row = some job' → Tended id v' job') : Queued id v' := by
  constructor
  · exact hplannable
  · rw [hholder, hhistory]
    exact h.called
  · rw [hholder, hhistory]
    exact h.returned
  · exact htended

theorem plannable_of_change (h : Queued id v) (hl : v.step l = some v')
    (hcreate : ∀ job, l = .create job → (planFromJob job).isSome) :
    ∀ job', v'.row = some job' → (planFromJob job').isSome := by
  intro job' hjob'
  cases hjob : v.row with
  | some job =>
    rcases JobView.row_cases hl hjob hjob' with rfl | hchange
    · exact h.plannable _ hjob
    · obtain ⟨hkind, hmode⟩ := hchange.plan_kept
      rw [planFromJob_isSome_congr hkind hmode]
      exact h.plannable job hjob
  | none => exact hcreate job' (JobView.row_created hl hjob hjob')

theorem lose (h : Queued id v) {gone : Slot → Bool} (hl : v.step (.lose gone) = some v')
    (hkeeps : JobAction.Keeps id v (.lose gone)) : Queued id v' := by
  obtain rfl := Option.some.inj hl
  have hsub : ∀ p stage, (if gone p = true then none else v.holder p) = some stage →
      v.holder p = some stage := by
    intro p stage hp
    split at hp
    · cases hp
    · exact hp
  refine h.holders rfl [] (by simp) ?_ ?_ ?_
  · exact fun p held call hp => h.called p held call (hsub p _ hp)
  · exact fun p held call result hp => h.returned p held call result (hsub p _ hp)
  · intro p stage hp
    by_cases hg : gone p = true
    · exact Or.inr (hkeeps p stage hp hg)
    · exact Or.inl ⟨p, stage, by simp [hg, hp], rfl⟩

theorem claim (h : Queued id v) {p : Slot} {attemptCount : ℤ} {now : Time}
    (hl : v.step (.claim p attemptCount now) = some v') : Queued id v' := by
  have hplannable := h.plannable_of_change hl fun _ he => by cases he
  obtain ⟨job, hjob, hl⟩ := Option.bind_eq_some_iff.mp hl
  split at hl
  · obtain rfl := Option.some.inj hl
    constructor
    · exact hplannable
    · intro q held call hq
      by_cases hqp : q = p
      · simp [hqp] at hq
      · exact h.called q held call (by simpa [hqp] using hq)
    · intro q held call result hq
      by_cases hqp : q = p
      · simp [hqp] at hq
      · exact h.returned q held call result (by simpa [hqp] using hq)
    · intro job' hjob'
      obtain rfl := Option.some.inj hjob'
      exact Or.inr (Or.inr (Or.inl ⟨rfl, p, .claimed, by simp, rfl⟩))
  · cases hl

theorem settle (h : Queued id v) {p : Slot} {fields : StatusFields} {now : Time}
    (hl : v.step (.settle p fields now) = some v')
    (hkeeps : JobAction.Keeps id v (.settle p fields now)) : Queued id v' := by
  have hplannable := h.plannable_of_change hl fun _ he => by cases he
  simp only [JobView.step] at hl
  split at hl
  · rename_i held decision hp
    obtain rfl := Option.some.inj hl
    have htarget := hkeeps held decision hp
    constructor
    · exact hplannable
    · intro q held' call hq
      by_cases hqp : q = p
      · subst hqp
        simp only [JobView.setHolder_holder, Function.update_self] at hq
        split at hq <;> cases hq
      · exact h.called q held' call (by simpa [hqp] using hq)
    · intro q held' call result hq
      by_cases hqp : q = p
      · subst hqp
        simp only [JobView.setHolder_holder, Function.update_self] at hq
        split at hq <;> cases hq
      · exact h.returned q held' call result (by simpa [hqp] using hq)
    · intro job' hjob'
      obtain ⟨job, hjob, rfl⟩ := Option.map_eq_some_iff.mp hjob'
      by_cases hleased : job.status = .leased
      · -- the gate moves the row, to `ready` or on to `sending` with this holder
        rw [if_pos hleased]
        by_cases hallow : decision = .allow
        · subst hallow
          exact Or.inr (Or.inr (Or.inr ⟨rfl, p, .admitted held, by simp, rfl⟩))
        · refine Or.inr (Or.inl ?_)
          cases decision <;> simp_all [Decision.target, DeliveryJob.move]
      · rw [if_neg hleased]
        rcases h.tended job hjob with hdone | hidle | ⟨hstatus, _⟩ | ⟨hsending, q, stage, hq, hlate⟩
        · exact Or.inl hdone
        · exact Or.inr (Or.inl hidle)
        · exact absurd hstatus hleased
        · have hqp : q ≠ p := by
            rintro rfl
            rw [hp] at hq
            obtain rfl := Option.some.inj hq
            cases hlate
          exact Or.inr (Or.inr (Or.inr ⟨hsending, q, stage, by simp [hqp, hq], hlate⟩))
  · cases hl

theorem executes_of_result {policy : RetryPolicy} {held : Holding} {clock : Time} {draw : ℤ}
    {result : DeliveryResult} (hid : held.id = id)
    (hresult : result.status = .succeeded ∨ result.status = .failed) :
    (Event.recorded held.id held.attemptNo
      (resultFields policy held.attemptNo clock draw result)).executes id = true := by
  rcases hresult with hstatus | hstatus <;> simp [Event.executes, hid, resultFields, hstatus]

theorem record (h : Queued id v) {p : Slot} {policy : RetryPolicy} {now clock : Time} {draw : ℤ}
    (hl : v.step (.record p policy now clock draw) = some v')
    (hkeeps : JobAction.Keeps id v (.record p policy now clock draw)) : Queued id v' := by
  have hplannable := h.plannable_of_change hl fun _ he => by cases he
  simp only [JobView.step] at hl
  split at hl
  · rename_i held called result hp
    obtain ⟨job, hjob, hl⟩ := Option.bind_eq_some_iff.mp hl
    split at hl
    · obtain rfl := Option.some.inj hl
      have hdone : Executed id (v.history ++ [.recorded held.id held.attemptNo
          (resultFields policy held.attemptNo clock draw result)]) := by
        cases called with
        | none =>
          obtain ⟨hid, hresult⟩ := hkeeps held result hp
          exact executed_snoc (executes_of_result hid hresult)
        | some call => exact (h.returned p held call result hp).append _
      exact ⟨hplannable, fun _ _ _ _ => hdone, fun _ _ _ _ _ => hdone, fun _ _ => Or.inl hdone⟩
    · cases hl
  · cases hl

end Queued

theorem queued_step (h : Queued id v) (hl : v.step l = some v') (hkeeps : l.Keeps id v) :
    Queued id v' := by
  cases l with
  | lose gone => exact h.lose hl hkeeps
  | create job =>
    have hplannable := h.plannable_of_change hl fun _ he => JobAction.create.inj he ▸ hkeeps
    simp only [JobView.step] at hl
    split at hl
    · rename_i hnew
      obtain rfl := Option.some.inj hl
      refine h.rewrite rfl rfl hplannable ?_
      intro job' hjob'
      obtain rfl := Option.some.inj hjob'
      refine Or.inr (Or.inl ?_)
      simp only [List.mem_cons, List.not_mem_nil, or_false] at hnew ⊢
      rcases hnew.2 with hready | hwaiting
      · exact Or.inr (Or.inl hready)
      · exact Or.inl hwaiting
    · cases hl
  | claim p attemptCount now => exact h.claim hl
  | gate p held decision =>
    simp only [JobView.step] at hl
    split at hl
    · rename_i hp
      obtain rfl := Option.some.inj hl
      exact h.advance hp.1 rfl [] (by simp) rfl rfl (by simp)
    · cases hl
  | settle p fields now => exact h.settle hl hkeeps
  | start p call =>
    simp only [JobView.step] at hl
    split at hl
    · rename_i held hp
      split at hl
      · obtain rfl := Option.some.inj hl
        refine h.advance hp rfl [.started call] rfl rfl rfl fun _ => ?_
        exact executed_snoc (decide_eq_true hkeeps)
      · cases hl
    · cases hl
  | skip p result =>
    simp only [JobView.step] at hl
    split at hl
    · rename_i held hp
      obtain rfl := Option.some.inj hl
      exact h.advance hp rfl [] (by simp) rfl rfl (by simp)
    · cases hl
  | finish p targetIds outcome =>
    simp only [JobView.step] at hl
    split at hl
    · rename_i held call hp
      obtain rfl := Option.some.inj hl
      exact h.advance hp rfl [_] rfl rfl rfl fun _ => (h.called p held call hp).append _
    · cases hl
  | record p policy now clock draw => exact h.record hl hkeeps
  | reclaim acc now =>
    have hplannable := h.plannable_of_change hl fun _ he => by cases he
    obtain rfl := Option.some.inj hl
    refine h.rewrite rfl rfl hplannable ?_
    intro job' hjob'
    obtain ⟨job, hjob, rfl⟩ := Option.map_eq_some_iff.mp hjob'
    split
    · exact Or.inr (Or.inl (by simp [DeliveryJob.requeue]))
    · exact h.tended job hjob
  | cancel src now =>
    have hplannable := h.plannable_of_change hl fun _ he => by cases he
    obtain ⟨job, hjob, hl⟩ := Option.bind_eq_some_iff.mp hl
    split at hl
    · obtain rfl := Option.some.inj hl
      refine h.rewrite rfl rfl hplannable ?_
      intro job' hjob'
      obtain rfl := Option.some.inj hjob'
      exact Or.inr (Or.inl (by simp [DeliveryJob.move]))
    · cases hl
  | operator call =>
    have hplannable := h.plannable_of_change hl fun _ he => by cases he
    obtain rfl := Option.some.inj hl
    refine h.rewrite rfl rfl hplannable ?_
    intro job' hjob'
    obtain ⟨job, hjob, rfl⟩ := Option.map_eq_some_iff.mp hjob'
    cases call with
    | retry => exact Or.inl (hkeeps rfl)
    | cancel => exact Or.inr (Or.inl (by simp [OperatorCall.write]))

/-! ## The gate -/

/-- A switch is off for the job: a level of the policy, or its account is paused or dead. -/
def SwitchedOff (c : PolicyCheckable) (live : LiveAccount) (policy : PolicySnapshot) : Prop :=
  policy.disables c = true ∨ live.sendState = .paused ∨ live.sendState = .authDead

/-- A job that has passed the gate, up to the policy switches and the clock. -/
structure Passed (base : PolicySnapshot) (g : ℤ) (h : Holding) : Prop where
  account : h.plan.accountId = h.live.accountId
  generation : g = h.live.generation
  notPaused : h.live.sendState ≠ .paused
  notDead : h.live.sendState ≠ .authDead
  noLimit : h.plan.routeId ∉ base.rateLimitBlocked
  approved : ∀ now, h.plan.requiresApproval →
    approvalMissing (h.checkable g) (approvalFor h.job) now = false

/-- What a runner knows of the job it holds while no gate meets a closed switch. -/
def Runner.Unblocked (base : PolicySnapshot) (r : Runner) : Prop :=
  match r.pc with
  | .gated h decision =>
    decision.target ≠ .blocked ∧ (decision = .allow → Passed base r.generation h)
  | .admitted h | .executing h _ => Passed base r.generation h
  | .recording _ none result =>
    (result.status = .succeeded ∨ result.status = .failed) ∧ result.targetMessageIds = []
  | _ => True

section Runner

variable {d : RunnerDeps} {w : WorkerId} {acc : AccountId} {db : Database} {r : Runner}
  {x : RunnerAction} {e : RunnerEffect} {base : PolicySnapshot} {h : Holding}

theorem approved_of_hold {job : DeliveryJob} (hhold : hold d acc id job = some h)
    (generation : ℤ) (now : Time) : h.plan.requiresApproval →
      approvalMissing (h.checkable generation) (approvalFor h.job) now = false := by
  obtain ⟨_, rfl, _, hheld⟩ := System.hold_eq_some hhold
  obtain ⟨plan, hplan, hsame⟩ := System.heldPlan_eq_some hheld
  obtain ⟨hrequires, hhash⟩ := planFromJob_approval hplan
  refine approvalMissing_approvalFor h.job (h.checkable generation) now ?_ ?_
  · rw [← hrequires, Holding.checkable, hsame]
  · rw [← hhash, Holding.checkable, hsame]

theorem gate_unblocked {job : DeliveryJob} {now : Time} (hhold : hold d acc id job = some h)
    (hlimits : d.policy.rateLimitBlocked = base.rateLimitBlocked)
    (hopen : h.plan.accountId = h.live.accountId → r.generation = h.live.generation →
      ¬ SwitchedOff (h.checkable r.generation) h.live d.policy) :
    (h.decide r.generation d.policy now).target ≠ .blocked ∧
      (h.decide r.generation d.policy now = .allow → Passed base r.generation h) := by
  constructor
  · by_cases haccount : h.plan.accountId = h.live.accountId
    · by_cases hgeneration : r.generation = h.live.generation
      · have hoff := hopen haccount hgeneration
        simp only [SwitchedOff, not_or, Bool.not_eq_true] at hoff
        obtain ⟨henabled, hpaused, hdead⟩ := hoff
        rcases check_of_open henabled hpaused hdead (approved_of_hold hhold r.generation now) with
          hcheck | hcheck | hcheck <;> rw [Holding.decide, hcheck] <;> simp [Decision.target]
      · have hcheck : h.decide r.generation d.policy now = .blockedLease := by
          simp [Holding.decide, check, Holding.checkable, haccount, hgeneration]
        simp [hcheck, Decision.target]
    · have hcheck : h.decide r.generation d.policy now = .blockedLease := by
        simp [Holding.decide, check, Holding.checkable, haccount]
      simp [hcheck, Decision.target]
  · intro hallow
    have hcleared := check_eq_allow.mp hallow
    exact ⟨hcleared.account, hcleared.generation, hcleared.notPaused, hcleared.notDead,
      hlimits ▸ hcleared.noLimit, approved_of_hold hhold r.generation⟩

theorem decide_of_passed {now : Time} (hp : Passed base r.generation h)
    (hlimits : d.policy.rateLimitBlocked = base.rateLimitBlocked)
    (henabled : d.policy.disables (h.checkable r.generation) = false)
    (hflood : h.live.inFloodWait now = false) : h.decide r.generation d.policy now = .allow := by
  refine check_eq_allow.mpr ?_
  constructor
  · exact hp.account
  · exact hp.generation
  · exact henabled
  · exact hp.notPaused
  · exact hp.notDead
  · exact hflood
  · rw [hlimits]
    exact hp.noLimit
  · exact hp.approved now

theorem skip_unblocked {now : Time} {targetIds : List ℤ} {result : DeliveryResult}
    (hallow : h.decide r.generation d.policy now = .allow)
    (hskip : dispatch h.plan.kind (h.decide r.generation d.policy now) targetIds =
        .finished result ∨
      ∃ request, dispatch h.plan.kind (h.decide r.generation d.policy now) targetIds =
          .call request ∧
        result = request.result targetIds (noLiveSession h.plan.accountId)) :
    (result.status = .succeeded ∨ result.status = .failed) ∧ result.targetMessageIds = [] := by
  rw [hallow] at hskip
  rcases hskip with hfinished | ⟨request, _, rfl⟩
  · cases hkind : h.plan.kind with
    | send => simp [dispatch, hkind] at hfinished
    | edit =>
      cases targetIds with
      | nil =>
        simp only [dispatch, hkind, ne_eq, not_true_eq_false, if_false] at hfinished
        obtain rfl := Dispatch.finished.inj hfinished
        exact ⟨Or.inr rfl, rfl⟩
      | cons id ids => simp [dispatch, hkind] at hfinished
    | delete =>
      simp only [dispatch, hkind, ne_eq, not_true_eq_false, if_false] at hfinished
      split at hfinished <;> cases hfinished
      exact ⟨Or.inl rfl, rfl⟩
    | tombstone =>
      simp only [dispatch, hkind, ne_eq, not_true_eq_false, if_false] at hfinished
      split at hfinished <;> cases hfinished
      exact ⟨Or.inl rfl, rfl⟩
  · exact ⟨Or.inr rfl, rfl⟩

theorem unblocked_step (he : r.step d w acc db x = some e) (h : r.Unblocked base)
    (hlimits : d.policy.rateLimitBlocked = base.rateLimitBlocked)
    (hgate : ∀ now id job held, x = .gate now → r.pc = .claimed id →
      db.deliveryJobs.get? id = some job → hold d acc id job = some held →
        held.plan.accountId = held.live.accountId →
      r.generation = held.live.generation →
      ¬ SwitchedOff (held.checkable r.generation) held.live d.policy)
    (hexecute : ∀ now held targetIds, x = .execute now → r.pc = .executing held targetIds →
      d.policy.disables (held.checkable r.generation) = false ∧
        held.live.inFloodWait now = false) : e.runner.Unblocked base := by
  cases Runner.stepped_of_step he with
  | gate now id job held hpc hjob hhold =>
    exact gate_unblocked hhold hlimits (hgate now id job held rfl hpc hjob hhold)
  | settle now clock draw held decision hpc =>
    obtain ⟨_, _, hsettled⟩ := Runner.settleGate_eq d db r held decision now clock draw
    rw [hsettled]
    simp only [Runner.Unblocked, hpc] at h
    by_cases hallow : decision = .allow
    · simpa [Runner.Unblocked, hallow] using h.2 hallow
    · simp [Runner.Unblocked, hallow]
  | lookup order held targetIds hpc =>
    simp only [Runner.Unblocked, hpc] at h
    exact h
  | execute now held targetIds hpc =>
    simp only [Runner.Unblocked, hpc] at h
    obtain ⟨henabled, hflood⟩ := hexecute now held targetIds rfl hpc
    have hallow := decide_of_passed h hlimits henabled hflood
    rcases Runner.startCall_cases d w acc db r held targetIds now with ⟨_, _, hcall⟩ |
      ⟨result, hskip, hcall⟩ <;> rw [hcall]
    · trivial
    · exact skip_unblocked hallow hskip
  | record now clock draw raises held called result _ =>
    obtain ⟨_, ⟨_, _, hafter⟩ | ⟨_, hafter⟩⟩ := Runner.recordOutcome_cases d db r held result now
      clock draw raises <;> rw [hafter] <;> trivial
  | _ => trivial

end Runner

/-! ## The system -/

/-- No process crashes with a job in its hands, no gate meets a closed switch at the runner's own
generation, and no executor meets a closed policy switch or reads its clock before the end of a
flood wait that the gate found over. -/
structure SwitchesOn (s : System) (a : Action) (_ : System) : Prop where
  crash : ∀ w acc id, a = .crash w → (s.view id).holder (w, acc) = none
  gate : ∀ w acc now r id job h, a = .runner w acc (.gate now) →
    (s.workers w).runners acc = some r → r.pc = .claimed id →
    s.db.deliveryJobs.get? id = some job → hold (s.workers w).deps acc id job = some h →
    h.plan.accountId = h.live.accountId → r.generation = h.live.generation →
    ¬ SwitchedOff (h.checkable r.generation) h.live (s.workers w).deps.policy
  execute : ∀ w acc now r h targetIds, a = .runner w acc (.execute now) →
    (s.workers w).runners acc = some r → r.pc = .executing h targetIds →
    (s.workers w).deps.policy.disables (h.checkable r.generation) = false ∧
      h.live.inFloodWait now = false

structure QueueKept (s : System) : Prop where
  hosting : s.AllHosting
  numbered : Numbered s
  runners : ∀ w acc r, (s.workers w).runners acc = some r →
    r.Unblocked (s.workers w).config.policy
  jobs : ∀ id, Queued id (s.view id)
  requests : ∀ id, (.retry, id) ∈ s.requests → Executed id s.history

theorem queueKept_start (config : WorkerId → WorkerConfig) : QueueKept (.start config) := by
  refine ⟨System.allHosting_start config, numbered_start config, ?_, ?_, ?_⟩
  · intro w acc r hr
    cases hr
  · intro id
    constructor <;> simp [System.view, System.start, Worker.start, Database.empty]
  · intro id hid
    cases hid

section System

variable {s s' : System} {a : Action}

theorem executed_view : Executed id (s.view id).history ↔ Executed id s.history := by
  constructor
  · rintro ⟨ev, hmem, hev⟩
    exact ⟨ev, List.mem_of_mem_filter hmem, hev⟩
  · rintro ⟨ev, hmem, hev⟩
    refine ⟨ev, List.mem_filter.mpr ⟨hmem, ?_⟩, hev⟩
    cases ev <;> simp_all [Event.executes, Event.concerns]

theorem keeps_of_switchesOn (hs : QueueKept s) (hguard : SwitchesOn s a s')
    (hfrom : JobAction.From s id a l) : l.Keeps id (s.view id) := by
  cases l with
  | lose gone =>
    intro p stage hp hgone
    cases hfrom p stage hp hgone with
    | crash stage =>
      rw [hguard.crash p.1 p.2 id rfl] at hp
      cases hp
    | reassign stage x hassigning hacc =>
      -- an account that is being assigned has no runner
      have hnone := (hs.hosting p.1).assigning x hassigning
      have hgen := (hs.hosting p.1).runners p.2
      obtain ⟨r, hr, _⟩ := Option.bind_eq_some_iff.mp hp
      rw [hr, ← hacc, hnone] at hgen
      cases hgen
    | unplannable now job hjob hnone =>
      have hplan := (hs.jobs id).plannable job hjob
      rw [hnone] at hplan
      cases hplan
    | unrecorded h call result now clock draw raises hwhy =>
      refine ⟨rfl, ?_⟩
      obtain ⟨r, hr, hstage⟩ := Option.bind_eq_some_iff.mp hp
      obtain ⟨called, hpc, _, hcall⟩ := Runner.pc_of_recording hstage
      cases called with
      | some request =>
        obtain rfl : call = some (h.call p.1 p.2 r.generation request) := hcall
        exact Or.inl ((hs.jobs id).returned p h _ result hp)
      | none =>
        refine Or.inr fun job hjob hsending => ?_
        have hopen := hs.runners p.1 p.2 r hr
        simp only [Runner.Unblocked, hpc] at hopen
        exact (hwhy job hjob hsending).2 hopen.2
  | create job =>
    rcases hfrom with ⟨_, _, _, _, _, plan, tenantId, projectId, now, _, rfl⟩ |
      ⟨reply, now, _, rfl⟩
    · exact Option.isSome_iff_exists.mpr ⟨_, planFromJob_jobFromPlan ..⟩
    · rfl
  | settle p fields now =>
    intro h decision hp
    obtain ⟨r, hr, hstage⟩ := Option.bind_eq_some_iff.mp hp
    have hopen := hs.runners p.1 p.2 r hr
    simp only [Runner.Unblocked, Runner.pc_of_gated hstage] at hopen
    exact hopen.1
  | record p policy now clock draw =>
    intro h result hp
    obtain ⟨r, hr, hstage⟩ := Option.bind_eq_some_iff.mp hp
    obtain ⟨called, hpc, hid, hcall⟩ := Runner.pc_of_recording hstage
    cases called with
    | some request => cases hcall
    | none =>
      have hopen := hs.runners p.1 p.2 r hr
      simp only [Runner.Unblocked, hpc] at hopen
      exact ⟨hid, hopen.1⟩
  | start p call =>
    obtain ⟨_, _, _, _, _, _, _, _, _, _, _, hid⟩ := hfrom
    exact hid
  | operator call =>
    rintro rfl
    obtain ⟨k, _, hk⟩ := hfrom
    exact executed_view.mpr (hs.requests id (List.mem_of_getElem? hk))
  | _ => trivial

/-- A pending retry was asked for while its job was failed, so the job was executed. -/
theorem requests_step (hs : QueueKept s) (h : s.step a = some s') :
    ∀ id, (.retry, id) ∈ s'.requests → Executed id s'.history := by
  intro id hid
  obtain ⟨events, hhistory⟩ := System.step_history h
  have hold : (.retry, id) ∈ s.requests → Executed id s'.history := by
    intro hmem
    rw [hhistory]
    exact (hs.requests id hmem).append events
  cases a with
  | runner w acc x =>
    obtain ⟨r, e, _, _, rfl⟩ := System.step_runner_eq_some h
    exact hold hid
  | host w x =>
    obtain ⟨e, _, rfl⟩ := System.step_host_eq_some h
    exact hold hid
  | crash w =>
    obtain rfl := Option.some.inj h
    exact hold hid
  | ingestRead w acc raw pyHash =>
    obtain ⟨x, _, rfl⟩ := Option.map_eq_some_iff.mp h
    exact hold hid
  | ingestCommit k =>
    obtain ⟨c, _, rfl⟩ := Option.map_eq_some_iff.mp h
    refine hold ?_
    rcases System.commitIngest_cases (s := { s with ingests := s.ingests.eraseIdx k }) c with
      hsame | ⟨db, _, hcommit⟩
    · rwa [hsame] at hid
    · rwa [hcommit] at hid
  | publish acc rows =>
    obtain rfl := Option.some.inj h
    exact hold hid
  | enqueue reply now =>
    simp only [System.step] at h
    split at h <;> cases h
    exact hold hid
  | operatorRead call i =>
    obtain ⟨job, hjob, h⟩ := Option.bind_eq_some_iff.mp h
    split at h
    · rename_i hadmits
      obtain rfl := Option.some.inj h
      rcases List.mem_append.mp hid with hmem | hmem
      · exact hold hmem
      · obtain ⟨rfl, rfl⟩ := Prod.mk.inj (List.mem_singleton.mp hmem)
        simp only [OperatorCall.admits, List.mem_cons, List.not_mem_nil, or_false,
          decide_eq_true_eq] at hadmits
        rcases (hs.jobs id).tended job hjob with hdone | hidle | ⟨hleased, _⟩ | ⟨hsending, _⟩
        · exact executed_view.mp hdone
        · rcases hadmits with hstatus | hstatus <;> simp [hstatus] at hidle
        · rcases hadmits with hstatus | hstatus <;> simp [hstatus] at hleased
        · rcases hadmits with hstatus | hstatus <;> simp [hstatus] at hsending
    · cases h
  | operatorWrite k =>
    obtain ⟨q, _, rfl⟩ := Option.map_eq_some_iff.mp h
    exact hold (List.mem_of_mem_eraseIdx hid)

theorem queueKept_step (s : System) (a : Action) (s' : System) (h : s.step a = some s')
    (hguard : SwitchesOn s a s') (hs : QueueKept s) : QueueKept s' := by
  refine ⟨System.allHosting_step s a s' h hs.hosting, System.numbered_step s a s' h hs.numbered,
    ?_, ?_, requests_step hs h⟩
  · intro w acc r' hr'
    rw [System.step_config h w]
    rcases System.step_runner_cases h hr' with hr | ⟨x, r, e, rfl, hr, he, rfl, _⟩ |
      ⟨x, g, _, _, _, rfl⟩
    · exact hs.runners w acc r' hr
    · refine unblocked_step he (hs.runners w acc r hr) (RuleCaches.policy_rateLimitBlocked _) ?_ ?_
      · rintro now id job held rfl hpc hjob hhold haccount hgeneration
        exact hguard.gate w acc now r id job held rfl hr hpc hjob hhold haccount hgeneration
      · rintro now held targetIds rfl hpc
        exact hguard.execute w acc now r held targetIds rfl hr hpc
    · trivial
  · intro id
    obtain ⟨l, hfrom, hl⟩ := System.view_step h id
    exact queued_step (hs.jobs id) hl (keeps_of_switchesOn hs hguard hfrom)

end System

/-! ## The queue -/

/-- Every scan of the job's account finds it, it is due from some time on, and the claim of it as
it is stored succeeds. -/
def ClaimCandidate (db : Database) (id : JobId) (job : DeliveryJob) : Prop :=
  (∀ order, db.ReadyOrder job.accountId order → id ∈ order) ∧
    (∃ t, ∀ now, t ≤ now → job.due now = true) ∧
    ∀ generation startedAt now, ∃ db',
      db.tryClaim id job generation startedAt now = .claimed db'

def Kept (id : JobId) (s : System) : Prop :=
  Executed id s.history ∨ ∃ job, s.db.deliveryJobs.get? id = some job ∧
    (job.status = .cancelled ∨
      (job.status ∈ [.leased, .sending] ∧ ∃ p stage, (s.view id).holder p = some stage) ∨
      ClaimCandidate s.db id job)

theorem due_eventually (job : DeliveryJob) : ∃ t, ∀ now, t ≤ now → job.due now = true := by
  refine ⟨max (job.nextAttemptAt.getD 0) (job.floodWaitUntil.getD 0), ?_⟩
  intro now hnow
  have hnext := (le_max_left _ _).trans hnow
  have hflood := (le_max_right _ _).trans hnow
  cases hn : job.nextAttemptAt <;> cases hf : job.floodWaitUntil <;>
    simp_all [DeliveryJob.due]

theorem claimCandidate_of_ready {s : System} (hs : Numbered s)
    (hjob : s.db.deliveryJobs.get? id = some job) (hready : job.status = .ready) :
    ClaimCandidate s.db id job := by
  refine ⟨?_, due_eventually job, System.tryClaim_of_ready hs hjob hready⟩
  intro order horder
  exact horder.mem_iff.mpr ⟨job, hjob, by simp [hready]⟩

def Released (id : JobId) (s : System) : Prop :=
  ∃ job, s.db.deliveryJobs.get? id = some job ∧ job.status ≠ .waitingApproval

theorem released_step {s s' : System} {a : Action} (h : s.step a = some s')
    (hs : Released id s) : Released id s' := by
  obtain ⟨job, hjob, hstatus⟩ := hs
  obtain ⟨l, _, hl⟩ := System.view_step h id
  obtain ⟨job', hjob'⟩ := JobView.row_some hl hjob
  refine ⟨job', hjob', ?_⟩
  rcases JobView.row_cases hl hjob hjob' with rfl | hchange
  · exact hstatus
  · exact hchange.ne_waitingApproval

theorem kept_of_queueKept {s : System} (hs : QueueKept s) (hreleased : Released id s) :
    Kept id s := by
  obtain ⟨job, hjob, hstatus⟩ := hreleased
  rcases (hs.jobs id).tended job hjob with hdone | hidle | ⟨hleased, p, stage, hp, _⟩ |
    ⟨hsending, p, stage, hp, _⟩
  · exact Or.inl (executed_view.mp hdone)
  · simp only [List.mem_cons, List.not_mem_nil, or_false] at hidle
    rcases hidle with hwaiting | hready | hcancelled
    · exact absurd hwaiting hstatus
    · exact Or.inr ⟨job, hjob, Or.inr (Or.inr (claimCandidate_of_ready hs.numbered hjob hready))⟩
    · exact Or.inr ⟨job, hjob, Or.inl hcancelled⟩
  · exact Or.inr ⟨job, hjob, Or.inr (Or.inl ⟨by simp [hleased], p, stage, hp⟩)⟩
  · exact Or.inr ⟨job, hjob, Or.inr (Or.inl ⟨by simp [hsending], p, stage, hp⟩)⟩

/-- In every run whose gates meet no closed switch, a job that was ready stays claimable until
it is executed or cancelled, across every pause and every change of the rules. -/
theorem ready_jobs_kept (config : WorkerId → WorkerConfig) (as bs : List Action)
    (s t : System) (id : JobId) (job : DeliveryJob)
    (hguard : Machine.Always System.step SwitchesOn (.start config) (as ++ bs))
    (hs : System.run (.start config) as = some s) (ht : System.run s bs = some t)
    (hjob : s.db.deliveryJobs.get? id = some job) (hready : job.status = .ready) : Kept id t := by
  have hkept := hguard.left.invariant queueKept_step hs (queueKept_start config)
  have hboth := (hguard.right hs).invariant
    (I := fun s => QueueKept s ∧ Released id s)
    (fun s a s' h hg hi => ⟨queueKept_step s a s' h hg hi.1, released_step h hi.2⟩) ht
    ⟨hkept, job, hjob, by simp [hready]⟩
  exact kept_of_queueKept hboth.1 hboth.2

/-- `SwitchesOn` as a test, for runs without crashes. -/
def switchesOn (s : System) (a : Action) (_ : System) : Bool :=
  match a with
  | .crash _ => false
  | .runner w acc (.gate _) =>
    ((s.workers w).runners acc).all fun r =>
      let live := (s.workers w).deps.live acc
      match r.pc with
      | .claimed id => (s.db.deliveryJobs.get? id).all fun job =>
          (hold (s.workers w).deps acc id job).all fun h =>
            !(s.workers w).deps.policy.disables (h.checkable r.generation) &&
              live.sendState ≠ .paused && live.sendState ≠ .authDead
      | _ => true
  | .runner w acc (.execute now) =>
    ((s.workers w).runners acc).all fun r =>
      match r.pc with
      | .executing h _ =>
        !(s.workers w).deps.policy.disables (h.checkable r.generation) && !h.live.inFloodWait now
      | _ => true
  | _ => true

theorem switchesOn_spec (s : System) (a : Action) (s' : System) (h : switchesOn s a s' = true) :
    SwitchesOn s a s' := by
  constructor
  · rintro w acc id rfl
    cases h
  · rintro w acc now r id job held rfl hr hpc hjob hhold _ _
    obtain ⟨_, _, hlive, _⟩ := System.hold_eq_some hhold
    simp only [switchesOn, hr, Option.all_some, hpc, hjob, hhold, Bool.and_eq_true,
      Bool.not_eq_true', decide_eq_true_eq] at h
    simp only [SwitchedOff, not_or, Bool.not_eq_true, hlive]
    exact ⟨h.1.1, h.1.2, h.2⟩
  · rintro w acc now r held targetIds rfl hr hpc
    simpa [switchesOn, hr, hpc] using h

def sentAfterPause : List Action :=
  [.host "w1" (.pause "A"), .host "w1" (.resume "A")] ++ claimSteps "w1" "A" [0] 1 ++
    callSteps "w1" "A" 2

theorem ready_jobs_kept_resumed : ∃ s t job,
    System.run (.start fun _ => {}) queuedReply = some s ∧ System.run s sentAfterPause = some t ∧
      s.db.deliveryJobs.get? 0 = some job ∧ job.status = .ready ∧ Kept 0 t := by
  have hobserved : (System.run (.start fun _ => {}) queuedReply).bind (fun s =>
      (System.run s sentAfterPause).bind fun _ =>
        (s.db.deliveryJobs.get? 0).map DeliveryJob.status) = some .ready := by
    decide +kernel
  obtain ⟨s, hs, hobserved⟩ := Option.bind_eq_some_iff.mp hobserved
  obtain ⟨t, ht, hobserved⟩ := Option.bind_eq_some_iff.mp hobserved
  obtain ⟨job, hjob, hready⟩ := Option.map_eq_some_iff.mp hobserved
  refine ⟨s, t, job, hs, ht, hjob, hready, ready_jobs_kept (fun _ => {}) queuedReply sentAfterPause
    s t 0 job ?_ hs ht hjob hready⟩
  exact Machine.always_of_checkRun switchesOn_spec (by decide +kernel)

def blockedByPause : List Action :=
  [.host "w1" (.pause "A")] ++ claimSteps "w1" "A" [0] 1 ++
    [.runner "w1" "A" (.gate 2), .runner "w1" "A" (.settle 2 2 0), .host "w1" (.resume "A")]

theorem pause_strands_ready_job :
    ¬ ∀ config as bs s t id job w now, System.run (.start config) as = some s →
      System.run s bs = some t → s.db.deliveryJobs.get? id = some job → job.status = .ready →
      t.serves w id now = true → Kept id t := by
  intro h
  have hobserved : (System.run (.start fun _ => {}) queuedReply).bind (fun s =>
      (System.run s blockedByPause).map fun t =>
        ((s.db.deliveryJobs.get? 0).map DeliveryJob.status, t.history,
          (t.db.deliveryJobs.get? 0).map DeliveryJob.status, t.serves "w1" 0 3)) =
      some (some .ready, [.lease "A" (.acquired "w1" (some 1))], some .blocked, true) := by
    decide +kernel
  obtain ⟨s, hs, hobserved⟩ := Option.bind_eq_some_iff.mp hobserved
  obtain ⟨t, ht, hobserved⟩ := Option.map_eq_some_iff.mp hobserved
  simp only [Prod.mk.injEq] at hobserved
  obtain ⟨hbefore, hhistory, hafter, hserves⟩ := hobserved
  obtain ⟨job, hjob, hready⟩ := Option.map_eq_some_iff.mp hbefore
  rcases h _ _ _ s t 0 job "w1" 3 hs ht hjob hready hserves with ⟨ev, hmem, hev⟩ |
    ⟨job', hjob', hkept⟩
  · rw [hhistory, List.mem_singleton] at hmem
    subst hmem
    cases hev
  · rw [hjob'] at hafter
    have hblocked : job'.status = .blocked := Option.some.inj hafter
    rcases hkept with hcancelled | ⟨hheld, _⟩ | ⟨_, _, hclaim⟩
    · rw [hblocked] at hcancelled
      cases hcancelled
    · simp [hblocked] at hheld
    · obtain ⟨db, hdb⟩ := hclaim 1 3 3
      obtain ⟨job'', hjob'', hstatus, _⟩ := Database.tryClaim_eq_claimed hdb
      obtain rfl : job' = job'' := Option.some.inj (hjob'.symm.trans hjob'')
      rw [hblocked] at hstatus
      cases hstatus

end TgPlatform
