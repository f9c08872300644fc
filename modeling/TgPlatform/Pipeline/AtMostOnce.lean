import TgPlatform.Lib.Trace
import TgPlatform.Pipeline.StatusEdges

/-! # A send is started at most once

While no stale send is requeued, a job that can be claimed has no holder and no
call of unknown outcome behind it, and a job has at most one holder. So a call
is started only when every earlier call of the job was recorded as failed.
-/

namespace TgPlatform

/-- A recorded failure whose outcome is known. -/
def ResultFields.Failure (f : ResultFields) : Prop :=
  f.newStatus ≠ .succeeded ∧ ∃ err, f.errorClass = some err ∧ err ≠ .resultUnknown

/-- Every call started for the job has returned and was recorded as a known failure. -/
def Settled (id : JobId) (history : List Event) : Prop :=
  ∀ pre call post, history = pre ++ .started call :: post → call.jobId = id →
    ∃ result fields, .returned call result ∈ post ∧
      .recorded call.jobId call.attemptNo fields ∈ post ∧ fields.Failure

variable {id : JobId} {history : List Event}

theorem settled_nil : Settled id [] := by
  intro pre call post h
  simp at h

theorem Settled.snoc (h : Settled id history) {ev : Event}
    (hev : ∀ call, ev ≠ .started call) : Settled id (history ++ [ev]) := by
  intro pre call post he hid
  rcases Trace.split_cases he with ⟨-, hstarted, -⟩ | ⟨mid, hsplit, rfl⟩ | hmem
  · exact absurd hstarted (hev call)
  · obtain ⟨result, fields, hreturned, hrecorded, hfailure⟩ := h pre call mid hsplit hid
    exact ⟨result, fields, List.mem_append_left _ hreturned, List.mem_append_left _ hrecorded,
      hfailure⟩
  · cases hmem

/-- A call that returned and was recorded as a failure leaves the history settled. -/
theorem Settled.close (h : Settled id history) {call : Call} {result : DeliveryResult}
    {fields : ResultFields} (hfields : fields.Failure) :
    Settled id (history ++ [.started call, .returned call result] ++
      [.recorded call.jobId call.attemptNo fields]) := by
  intro pre call' post he hid
  have hsplit : history ++ .started call :: [.returned call result,
      .recorded call.jobId call.attemptNo fields] = pre ++ .started call' :: post := by
    simpa using he
  rcases Trace.split_cases hsplit with ⟨-, hcall, rfl⟩ | ⟨mid, rfl, rfl⟩ | hmem
  · obtain rfl := Event.started.inj hcall
    exact ⟨result, fields, by simp, by simp, hfields⟩
  · obtain ⟨result', fields', hreturned, hrecorded, hfailure⟩ := h pre call' mid rfl hid
    exact ⟨result', fields', List.mem_append_left _ hreturned,
      List.mem_append_left _ hrecorded, hfailure⟩
  · simp at hmem

theorem Settled.of_filter (h : Settled id (history.filter fun ev => ev.concerns id)) :
    Settled id history := by
  rintro pre call post rfl hid
  have hkeep : Event.concerns id (.started call) = true := by simp [Event.concerns, hid]
  obtain ⟨result, fields, hreturned, hrecorded, hfailure⟩ :=
    h (pre.filter fun ev => ev.concerns id) call (post.filter fun ev => ev.concerns id)
      (by rw [List.filter_append, List.filter_cons_of_pos hkeep]) hid
  exact ⟨result, fields, List.mem_of_mem_filter hreturned, List.mem_of_mem_filter hrecorded,
    hfailure⟩

theorem resultFields_errorClass (policy : RetryPolicy) (attemptNo : ℤ) (clock : Time) (draw : ℤ)
    (result : DeliveryResult) (h : result.status = .retryable ∨ result.status = .failed) :
    (resultFields policy attemptNo clock draw result).errorClass = result.errorClass ∧
      (resultFields policy attemptNo clock draw result).newStatus ≠ .succeeded := by
  unfold resultFields
  rcases h with h | h <;> rw [h]
  · dsimp only
    split
    · exact ⟨rfl, by simp⟩
    · split <;> exact ⟨rfl, by simp⟩
  · exact ⟨rfl, by simp⟩

theorem resultFields_failure {policy : RetryPolicy} {attemptNo : ℤ} {clock : Time} {draw : ℤ}
    {request : TransportRequest} {targetIds : List ℤ} {outcome : TransportOutcome}
    (h : (resultFields policy attemptNo clock draw (request.result targetIds outcome)).newStatus ∈
      [JobStatus.failedPermanent, JobStatus.deadLetter]) :
    (resultFields policy attemptNo clock draw (request.result targetIds outcome)).Failure := by
  cases outcome with
  | returned ids => simp [resultFields, TransportRequest.result] at h
  | exception detail => simp [resultFields, TransportRequest.result] at h
  | error kind detail floodWaitUntil raisedBy =>
    have hclass : ∀ err, kind.errorClass = err →
        (err.resultStatus = .retryable ∨ err.resultStatus = .failed) → err ≠ .resultUnknown →
        (resultFields policy attemptNo clock draw
          (request.result targetIds (.error kind detail floodWaitUntil raisedBy))).Failure := by
      rintro err rfl hstatus hknown
      obtain ⟨herr, hne⟩ := resultFields_errorClass policy attemptNo clock draw
        (request.result targetIds (.error kind detail floodWaitUntil raisedBy)) hstatus
      exact ⟨hne, kind.errorClass, herr, hknown⟩
    cases kind with
    | permission =>
      simp [resultFields, TransportRequest.result, TransportErrorKind.errorClass,
        ErrorClass.resultStatus] at h
    | resultUnknown =>
      simp [resultFields, TransportRequest.result, TransportErrorKind.errorClass,
        ErrorClass.resultStatus] at h
    | content => exact hclass .contentInvalid rfl (Or.inr rfl) (by simp)
    | auth => exact hclass .authDead rfl (Or.inr rfl) (by simp)
    | floodWait => exact hclass .floodWait rfl (Or.inl rfl) (by simp)
    | transient => exact hclass .transient rfl (Or.inl rfl) (by simp)

/-! ## The invariant of one job's life -/

/-- The statuses from which a job can come to be claimed. -/
def JobStatus.open_ (status : JobStatus) : Bool :=
  status ∈ [.ready, .failedPermanent, .deadLetter]

/-- What a holder knows of the job's calls: none is open but its own. -/
def Stage.Knows (id : JobId) (history : List Event) : Stage → Prop
  | .calling h call => call.jobId = h.id ∧ call.attemptNo = h.attemptNo ∧
      ∃ pre, Settled id pre ∧ history = pre ++ [.started call]
  | .recording h (some call) result => call.jobId = h.id ∧ call.attemptNo = h.attemptNo ∧
      (∃ targetIds outcome, result = call.request.result targetIds outcome) ∧
      ∃ pre, Settled id pre ∧ history = pre ++ [.started call, .returned call result]
  | _ => Settled id history

structure SendOnce (id : JobId) (v : JobView) : Prop where
  unique : ∀ p q, v.holder p ≠ none → v.holder q ≠ none → p = q
  free : ∀ job, v.row = some job → job.status.open_ = true → ∀ p, v.holder p = none
  settled : ∀ job, v.row = some job → job.status.open_ = true → Settled id v.history
  knows : ∀ p stage, v.holder p = some stage → stage.Knows id v.history
  fresh : v.row = none → (∀ p, v.holder p = none) ∧ v.history = []
  ordered : ∀ pre call post, v.history = pre ++ .started call :: post → Settled id pre

/-- The steps that do not overrule the job's status: no stale send is requeued, and a platform
write finds a status it admits. -/
def JobAction.Respects (v : JobView) (l : JobAction) : Prop :=
  ∀ job, v.row = some job →
    (∀ acc now, l = .reclaim acc now → job.stale acc now = false) ∧
    ∀ call, l = .operator call → call.admits job.status = true

variable {v v' : JobView} {l : JobAction} {p : Slot}

theorem ordered_snoc
    (h : ∀ pre call post, history = pre ++ .started call :: post → Settled id pre) {ev : Event}
    (hev : ∀ call, ev = .started call → Settled id history) :
    ∀ pre call post, history ++ [ev] = pre ++ .started call :: post → Settled id pre := by
  intro pre call post he
  rcases Trace.split_cases he with ⟨rfl, hstarted, -⟩ | ⟨mid, hsplit, -⟩ | hmem
  · exact hev call hstarted
  · exact h pre call mid hsplit
  · cases hmem

theorem SendOnce.others (h : SendOnce id v) (hp : v.holder p ≠ none) {q : Slot} (hq : q ≠ p) :
    v.holder q = none := by
  by_contra hne
  exact hq (h.unique q p hne hp)

theorem SendOnce.move (h : SendOnce id v) (hp : v.holder p ≠ none) (stage : Option Stage)
    (hholder : v'.holder = Function.update v.holder p stage)
    (hrow : v'.row = none → v.row = none)
    (hopen : ∀ job, v'.row = some job → job.status.open_ = true →
      stage = none ∧ Settled id v'.history)
    (hknows : ∀ st, stage = some st → st.Knows id v'.history)
    (hordered : ∀ pre call post, v'.history = pre ++ .started call :: post → Settled id pre) :
    SendOnce id v' := by
  have hothers : ∀ q, q ≠ p → v'.holder q = none := by
    intro q hq
    rw [hholder, Function.update_of_ne hq]
    exact h.others hp hq
  constructor
  · intro q₁ q₂ h₁ h₂
    by_contra hne
    by_cases hq : q₁ = p
    · exact h₂ (hothers q₂ fun he => hne (hq.trans he.symm))
    · exact h₁ (hothers q₁ hq)
  · intro job hjob hstatus q
    by_cases hq : q = p
    · rw [hq, hholder, Function.update_self]
      exact (hopen job hjob hstatus).1
    · exact hothers q hq
  · intro job hjob hstatus
    exact (hopen job hjob hstatus).2
  · intro q st hq
    by_cases hqp : q = p
    · rw [hqp, hholder, Function.update_self] at hq
      exact hknows st hq
    · rw [hothers q hqp] at hq
      cases hq
  · intro hr
    exact absurd ((h.fresh (hrow hr)).1 p) hp
  · exact hordered

theorem SendOnce.advance (h : SendOnce id v) (hp : v.holder p ≠ none) (stage : Option Stage)
    (hrow : v'.row = v.row) (hholder : v'.holder = Function.update v.holder p stage)
    (hknows : ∀ st, stage = some st → st.Knows id v'.history)
    (hordered : ∀ pre call post, v'.history = pre ++ .started call :: post → Settled id pre) :
    SendOnce id v' := by
  refine h.move hp stage hholder (fun hr => hrow ▸ hr) ?_ hknows hordered
  intro job hjob hopen
  exact absurd (h.free job (hrow ▸ hjob) hopen p) hp

theorem SendOnce.rewrite (h : SendOnce id v) (hholder : v'.holder = v.holder)
    (hhistory : v'.history = v.history) (hrow : v'.row = none → v.row = none)
    (hopen : ∀ job', v'.row = some job' → job'.status.open_ = true →
      ∃ job, v.row = some job ∧ job.status.open_ = true) : SendOnce id v' := by
  constructor
  · rw [hholder]
    exact h.unique
  · intro job' hjob' hstatus
    obtain ⟨job, hjob, hopen⟩ := hopen job' hjob' hstatus
    rw [hholder]
    exact h.free job hjob hopen
  · intro job' hjob' hstatus
    obtain ⟨job, hjob, hopen⟩ := hopen job' hjob' hstatus
    rw [hhistory]
    exact h.settled job hjob hopen
  · rw [hholder, hhistory]
    exact h.knows
  · intro hr
    rw [hholder, hhistory]
    exact h.fresh (hrow hr)
  · rw [hhistory]
    exact h.ordered

theorem SendOnce.lose (h : SendOnce id v) {gone : Slot → Bool}
    (hl : v.step (.lose gone) = some v') : SendOnce id v' := by
  obtain rfl := Option.some.inj hl
  have hsub : ∀ q, (if gone q = true then none else v.holder q) ≠ none → v.holder q ≠ none := by
    intro q hq hnone
    simp [hnone] at hq
  constructor
  · exact fun p q hp hq => h.unique p q (hsub p hp) (hsub q hq)
  · intro job hjob hopen p
    simp [h.free job hjob hopen p]
  · exact h.settled
  · intro p stage hp
    refine h.knows p stage ?_
    by_cases hg : gone p = true
    · simp [hg] at hp
    · simpa [hg] using hp
  · intro hr
    exact ⟨fun p => by simp [(h.fresh hr).1 p], (h.fresh hr).2⟩
  · exact h.ordered

theorem SendOnce.create (h : SendOnce id v) {job : DeliveryJob}
    (hl : v.step (.create job) = some v') : SendOnce id v' := by
  simp only [JobView.step] at hl
  split at hl
  · rename_i hnew
    obtain rfl := Option.some.inj hl
    obtain ⟨hfree, hempty⟩ := h.fresh hnew.1
    constructor
    · exact h.unique
    · exact fun _ _ _ => hfree
    · intro _ _ _
      rw [hempty]
      exact settled_nil
    · exact h.knows
    · intro hr
      cases hr
    · exact h.ordered
  · cases hl

theorem SendOnce.claim (h : SendOnce id v) {attemptCount : ℤ} {now : Time}
    (hl : v.step (.claim p attemptCount now) = some v') : SendOnce id v' := by
  obtain ⟨job, hjob, hl⟩ := Option.bind_eq_some_iff.mp hl
  split at hl
  · rename_i hready
    obtain rfl := Option.some.inj hl
    have hopen : job.status.open_ = true := by rw [hready.1]; rfl
    have hfree := h.free job hjob hopen
    have hsettled := h.settled job hjob hopen
    constructor
    · intro q₁ q₂ h₁ h₂
      by_contra hne
      by_cases hq : q₁ = p
      · exact h₂ (by simp [Function.update_of_ne fun he => hne (hq.trans he.symm), hfree])
      · exact h₁ (by simp [Function.update_of_ne hq, hfree])
    · intro job' hjob' hstatus
      obtain rfl := Option.some.inj hjob'
      cases hstatus
    · intro job' hjob' hstatus
      obtain rfl := Option.some.inj hjob'
      cases hstatus
    · intro q stage hq
      by_cases hqp : q = p
      · subst hqp
        obtain rfl : Stage.claimed = stage := by simpa using hq
        exact hsettled
      · simp [Function.update_of_ne hqp, hfree] at hq
    · intro hr
      cases hr
    · exact h.ordered
  · cases hl

theorem SendOnce.settle (h : SendOnce id v) {fields : StatusFields} {now : Time}
    (hl : v.step (.settle p fields now) = some v') : SendOnce id v' := by
  simp only [JobView.step] at hl
  split at hl
  · rename_i held decision hp
    obtain rfl := Option.some.inj hl
    have hsettled : Settled id v.history := h.knows p _ hp
    refine h.move (p := p) (by simp [hp]) _ rfl ?_ ?_ ?_ h.ordered
    · intro hr
      simpa using hr
    · intro job' hjob' hopen
      obtain ⟨job, hjob, rfl⟩ := Option.map_eq_some_iff.mp hjob'
      by_cases hleased : job.status = .leased
      · rw [if_pos hleased] at hopen
        refine ⟨?_, hsettled⟩
        have hne : decision ≠ .allow := by
          rintro rfl
          cases hopen
        rw [if_neg hne]
      · rw [if_neg hleased] at hopen
        exact absurd (h.free job hjob hopen p) (by simp [hp])
    · intro st hst
      split at hst
      · obtain rfl := Option.some.inj hst
        exact hsettled
      · cases hst
  · cases hl

theorem SendOnce.start (h : SendOnce id v) {call : Call}
    (hl : v.step (.start p call) = some v') : SendOnce id v' := by
  simp only [JobView.step] at hl
  split at hl
  · rename_i held hp
    have hsettled : Settled id v.history := h.knows p _ hp
    split at hl
    · rename_i hcall
      obtain rfl := Option.some.inj hl
      refine h.advance (p := p) (by simp [hp]) _ rfl rfl ?_ ?_
      · intro st hst
        obtain rfl := Option.some.inj hst
        exact ⟨by rw [hcall]; rfl, by rw [hcall]; rfl, v.history, hsettled, rfl⟩
      · exact ordered_snoc h.ordered fun _ _ => hsettled
    · cases hl
  · cases hl

theorem SendOnce.finish (h : SendOnce id v) {targetIds : List ℤ} {outcome : TransportOutcome}
    (hl : v.step (.finish p targetIds outcome) = some v') : SendOnce id v' := by
  simp only [JobView.step] at hl
  split at hl
  · rename_i held call hp
    obtain rfl := Option.some.inj hl
    obtain ⟨hid, hattempt, pre, hsettled, hhistory⟩ := h.knows p _ hp
    refine h.advance (p := p) (by simp [hp]) _ rfl rfl ?_ ?_
    · intro st hst
      obtain rfl := Option.some.inj hst
      exact ⟨hid, hattempt, ⟨targetIds, outcome, rfl⟩, pre, hsettled, by simp [hhistory]⟩
    · exact ordered_snoc h.ordered (by simp)
  · cases hl

theorem SendOnce.record (h : SendOnce id v) {policy : RetryPolicy} {now clock : Time} {draw : ℤ}
    (hl : v.step (.record p policy now clock draw) = some v') : SendOnce id v' := by
  simp only [JobView.step] at hl
  split at hl
  · rename_i held called result hp
    obtain ⟨job, hjob, hl⟩ := Option.bind_eq_some_iff.mp hl
    split at hl
    · obtain rfl := Option.some.inj hl
      refine h.move (p := p) (by simp [hp]) none rfl (by simp) ?_ (by simp)
        (ordered_snoc h.ordered (by simp))
      intro job' hjob' hopen
      obtain rfl := Option.some.inj hjob'
      refine ⟨rfl, ?_⟩
      cases called with
      | none => exact (h.knows p _ hp).snoc (by simp)
      | some call =>
        obtain ⟨hid, hattempt, ⟨targetIds, outcome, rfl⟩, pre, hsettled, hhistory⟩ :=
          h.knows p _ hp
        have hstatus : (resultFields policy held.attemptNo clock draw
            (call.request.result targetIds outcome)).newStatus ∈
            [JobStatus.failedPermanent, JobStatus.deadLetter] := by
          have hedge := resultFields_edge policy held.attemptNo clock draw
            (call.request.result targetIds outcome)
          revert hopen hedge
          simp only [DeliveryJob.move]
          generalize (resultFields policy held.attemptNo clock draw
            (call.request.result targetIds outcome)).newStatus = status
          cases status <;> simp [JobStatus.open_, JobStatus.canTransition, JobStatus.edges]
        rw [hhistory, ← hid, ← hattempt]
        exact hsettled.close (hattempt ▸ resultFields_failure hstatus)
    · cases hl
  · cases hl

theorem sendOnce_step (h : SendOnce id v) (hl : v.step l = some v') (hrespects : l.Respects v) :
    SendOnce id v' := by
  cases l with
  | lose gone => exact h.lose hl
  | create job => exact h.create hl
  | claim p attemptCount now => exact h.claim hl
  | gate p held decision =>
    simp only [JobView.step] at hl
    split at hl
    · rename_i hp
      obtain rfl := Option.some.inj hl
      have hsettled : Settled id v.history := h.knows p _ hp.1
      refine h.advance (p := p) (by simp [hp.1]) _ rfl rfl ?_ h.ordered
      intro st hst
      obtain rfl := Option.some.inj hst
      exact hsettled
    · cases hl
  | settle p fields now => exact h.settle hl
  | start p call => exact h.start hl
  | skip p result =>
    simp only [JobView.step] at hl
    split at hl
    · rename_i held hp
      obtain rfl := Option.some.inj hl
      have hsettled : Settled id v.history := h.knows p _ hp
      refine h.advance (p := p) (by simp [hp]) _ rfl rfl ?_ h.ordered
      intro st hst
      obtain rfl := Option.some.inj hst
      exact hsettled
    · cases hl
  | finish p targetIds outcome => exact h.finish hl
  | record p policy now clock draw => exact h.record hl
  | reclaim acc now =>
    obtain rfl := Option.some.inj hl
    refine h.rewrite rfl rfl (by simp) ?_
    intro job' hjob' hopen
    obtain ⟨job, hjob, rfl⟩ := Option.map_eq_some_iff.mp hjob'
    rw [(hrespects job hjob).1 acc now rfl] at hopen
    exact ⟨job, hjob, hopen⟩
  | cancel src now =>
    obtain ⟨job, hjob, hl⟩ := Option.bind_eq_some_iff.mp hl
    split at hl
    · obtain rfl := Option.some.inj hl
      refine h.rewrite rfl rfl (by simp) ?_
      intro job' hjob' hopen
      obtain rfl := Option.some.inj hjob'
      cases hopen
    · cases hl
  | operator call =>
    obtain rfl := Option.some.inj hl
    refine h.rewrite rfl rfl (by simp) ?_
    intro job' hjob' hopen
    obtain ⟨job, hjob, rfl⟩ := Option.map_eq_some_iff.mp hjob'
    have hadmits := (hrespects job hjob).2 call rfl
    refine ⟨job, hjob, ?_⟩
    cases call with
    | retry =>
      simp only [OperatorCall.admits, List.mem_cons, List.not_mem_nil, or_false,
        decide_eq_true_eq] at hadmits
      simp [JobStatus.open_, hadmits]
    | cancel => cases hopen

/-! ## All jobs of the system -/

/-- No claim finds a stale send of its account, and platform writes find the status they
tested. -/
def NoStaleSend (s : System) (a : Action) (_ : System) : Prop :=
  ∀ id job, s.db.deliveryJobs.get? id = some job →
    ¬ RequeuesStale a job ∧ ¬ Outdated s a id job

theorem respects_of_noStaleSend {s s' : System} {a : Action} {l : JobAction}
    (h : NoStaleSend s a s') (hfrom : JobAction.From s id a l) : l.Respects (s.view id) := by
  intro job hjob
  obtain ⟨hstale, houtdated⟩ := h id job hjob
  constructor
  · rintro acc now rfl
    obtain ⟨w, rfl⟩ := hfrom
    by_contra hold
    exact hstale ⟨w, acc, now, rfl, by simpa using hold⟩
  · rintro call rfl
    obtain ⟨k, rfl, hk⟩ := hfrom
    by_contra hadmits
    exact houtdated ⟨k, call, rfl, hk, by simpa using hadmits⟩

/-- `NoStaleSend` as a test. -/
def noStaleSend (s : System) (a : Action) (_ : System) : Bool :=
  match a with
  | .runner _ acc (.reclaim now) => !s.db.deliveryJobs.any fun job => job.stale acc now
  | .operatorWrite k => s.requests[k]?.all fun q =>
      (s.db.deliveryJobs.get? q.2).all fun job => q.1.admits job.status
  | _ => true

theorem noStaleSend_spec (s : System) (a : Action) (s' : System)
    (h : noStaleSend s a s' = true) : NoStaleSend s a s' := by
  intro id job hjob
  constructor
  · rintro ⟨w, acc, now, rfl, hstale⟩
    simp only [noStaleSend, Bool.not_eq_true', Table.any_eq_false] at h
    rw [h id job hjob] at hstale
    cases hstale
  · rintro ⟨k, call, rfl, hk, hadmits⟩
    simp [noStaleSend, hk, hjob, hadmits] at h

def AllSendOnce (s : System) : Prop := ∀ id, SendOnce id (s.view id)

theorem allSendOnce_start (config : WorkerId → WorkerConfig) :
    AllSendOnce (.start config) := by
  intro id
  constructor <;> simp [System.view, System.start, Worker.start, Database.empty]

theorem allSendOnce_step (s : System) (a : Action) (s' : System) (h : s.step a = some s')
    (hguard : NoStaleSend s a s') (hs : AllSendOnce s) : AllSendOnce s' := by
  intro id
  obtain ⟨l, hfrom, hl⟩ := System.view_step h id
  exact sendOnce_step (hs id) hl (respects_of_noStaleSend hguard hfrom)

/-- Before each start of a send, every earlier call of the job had returned and was recorded as
a failure of known outcome. -/
def SentAtMostOnce (history : List Event) : Prop :=
  ∀ pre call post, history = pre ++ .started call :: post → call.plan.kind = .send →
    Settled call.jobId pre

theorem sentAtMostOnce_of_allSendOnce {s : System} (h : AllSendOnce s) :
    SentAtMostOnce s.history := by
  intro pre call post he _
  have hkeep : Event.concerns call.jobId (.started call) = true := by simp [Event.concerns]
  refine Settled.of_filter ((h call.jobId).ordered _ call
    (post.filter fun ev => ev.concerns call.jobId) ?_)
  rw [System.view, he, List.filter_append, List.filter_cons_of_pos hkeep]

def RecordsOwn (s : System) (a : Action) (id : JobId) : Prop :=
  ∃ w acc now clock draw raises r h called result,
    a = .runner w acc (.record now clock draw raises) ∧ (s.workers w).runners acc = some r ∧
      r.pc = .recording h called result ∧ h.id = id

/-- A job leaves `sending` with its holder's result or to `uncertain`, never to `ready`. -/
def LeavesSending (s : System) (a : Action) (s' : System) : Prop :=
  ∀ id job job', s.db.deliveryJobs.get? id = some job → s'.db.deliveryJobs.get? id = some job' →
    job.status = .sending → job'.status ≠ .sending →
      (RecordsOwn s a id ∨ job'.status = .uncertain) ∧ job'.status ≠ .ready

theorem recordsOwn_of_holder {s : System} {w : WorkerId} {acc : AccountId} {now clock : Time}
    {draw : ℤ} {raises : Bool} {h : Holding} {call : Option Call} {result : DeliveryResult}
    (hp : (s.view id).holder (w, acc) = some (.recording h call result)) :
    RecordsOwn s (.runner w acc (.record now clock draw raises)) id := by
  obtain ⟨r, hr, hstage⟩ := Option.bind_eq_some_iff.mp hp
  obtain ⟨called, hpc, hid, _⟩ := Runner.pc_of_recording hstage
  exact ⟨w, acc, now, clock, draw, raises, r, h, called, result, rfl, hr, hpc, hid⟩

theorem leavesSending_of_noStaleSend (s : System) (a : Action) (s' : System)
    (h : s.step a = some s') (hguard : NoStaleSend s a s') : LeavesSending s a s' := by
  intro id job job' hjob hjob' hsending hleft
  obtain ⟨l, hfrom, hl⟩ := System.view_step h id
  obtain ⟨hstale, hadmits⟩ := respects_of_noStaleSend hguard hfrom job hjob
  rcases JobView.row_cases hl hjob hjob' with rfl | hchange
  · exact absurd hsending hleft
  · cases hchange with
    | claimed p attemptCount now hready =>
      rw [hready] at hsending
      cases hsending
    | settled p held decision fields now _ hleased =>
      rw [hleased] at hsending
      cases hsending
    | recorded p held call result policy now clock draw hp _ =>
      obtain ⟨raises, rfl⟩ := hfrom
      refine ⟨Or.inl (recordsOwn_of_holder hp), fun hready => ?_⟩
      have hedge := resultFields_edge policy held.attemptNo clock draw result
      rw [show (resultFields policy held.attemptNo clock draw result).newStatus = .ready from
        hready] at hedge
      cases hedge
    | requeued acc now hold =>
      rw [hstale acc now rfl] at hold
      cases hold
    | cancelled now hsrc =>
      rw [hsending] at hsrc
      simp [cancellableByCommand] at hsrc
    | operated call =>
      have hadmitted := hadmits call rfl
      rw [hsending] at hadmitted
      cases call <;> cases hadmitted

end TgPlatform
