import TgPlatform.Pipeline.AtMostOnce
import TgPlatform.Pipeline.Targets

/-! # Operator cancels and sends in flight

The platform tests a job's status in one statement and writes `cancelled` in
another that repeats no test. As long as the test still holds when the write
lands, no runner holds the job, so what the transport accepts is recorded and
what is cancelled stays unsent.
-/

namespace TgPlatform

def Stage.status : Stage → JobStatus
  | .claimed | .gated _ _ => .leased
  | _ => .sending

theorem not_admits_stage (call : OperatorCall) (stage : Stage) :
    call.admits stage.status = false := by
  cases call <;> cases stage <;> rfl

namespace JobView

/-- The row of a held job has the status of its holder's stage. -/
def InHand (v : JobView) : Prop :=
  ∀ p stage, v.holder p = some stage → ∃ job, v.row = some job ∧ job.status = stage.status

variable {v v' : JobView} {l : JobAction} {id : JobId}

theorem holder_moved (h : v.step l = some v') {p : Slot} {stage : Stage}
    (hp : v.holder p = some stage) (hl : (∃ fields now, l = .settle p fields now) ∨
      ∃ policy now clock draw, l = .record p policy now clock draw) :
    v'.holder p ≠ some stage := by
  rcases hl with ⟨fields, now, rfl⟩ | ⟨policy, now, clock, draw, rfl⟩
  · simp only [step, hp] at h
    split at h
    · rename_i held decision heq
      obtain rfl := Option.some.inj heq
      cases h
      by_cases hallow : decision = .allow <;> simp [hallow]
    · cases h
  · simp only [step, hp] at h
    split at h
    · obtain ⟨job, _, h⟩ := Option.bind_eq_some_iff.mp h
      split at h <;> cases h
      simp
    · cases h

theorem inHand_step (hv : SendOnce id v) (h : v.step l = some v') (hrespects : l.Respects v)
    (hcommand : ∀ src now, l ≠ .cancel src now) (hi : v.InHand) : v'.InHand := by
  intro p stage hp
  rcases holder_cases h hp with hold | hchange
  · obtain ⟨job, hjob, hstatus⟩ := hi p stage hold
    obtain ⟨job', hjob'⟩ := row_some h hjob
    rcases row_cases h hjob hjob' with rfl | hrow
    · exact ⟨job', hjob', hstatus⟩
    · cases hrow with
      | claimed q attemptCount now hready =>
        rw [hready] at hstatus
        cases stage <;> cases hstatus
      | settled q held decision fields now hq _ =>
        obtain rfl := hv.unique p q (by simp [hold]) (by simp [hq])
        exact absurd hp (holder_moved h hold (Or.inl ⟨fields, now, rfl⟩))
      | recorded q held call result policy now clock draw hq _ =>
        obtain rfl := hv.unique p q (by simp [hold]) (by simp [hq])
        exact absurd hp (holder_moved h hold (Or.inr ⟨policy, now, clock, draw, rfl⟩))
      | requeued acc now hstale =>
        rw [(hrespects job hjob).1 acc now rfl] at hstale
        cases hstale
      | cancelled now _ => exact absurd rfl (hcommand _ now)
      | operated call =>
        have hadmits := (hrespects job hjob).2 call rfl
        rw [hstatus, not_admits_stage] at hadmits
        cases hadmits
  · cases hchange with
    | claimed _ job attemptCount now hjob hready =>
      obtain ⟨job₀, hjob₀, h⟩ := Option.bind_eq_some_iff.mp h
      split at h <;> cases h
      exact ⟨_, rfl, rfl⟩
    | gated _ held decision hclaimed _ =>
      obtain ⟨job, hjob, hstatus⟩ := hi p _ hclaimed
      simp only [step] at h
      split at h <;> cases h
      exact ⟨job, hjob, hstatus⟩
    | admitted _ held fields now hgated =>
      obtain ⟨job, hjob, hstatus⟩ := hi p _ hgated
      simp only [step, hgated] at h
      cases h
      have hleased : job.status = .leased := hstatus
      exact ⟨job.move .sending fields now, by simp [hjob, hleased, Decision.target], rfl⟩
    | calling _ held call hadmitted =>
      obtain ⟨job, hjob, hstatus⟩ := hi p _ hadmitted
      simp only [step, hadmitted] at h
      split at h <;> cases h
      exact ⟨job, hjob, hstatus⟩
    | skipped _ held result hadmitted =>
      obtain ⟨job, hjob, hstatus⟩ := hi p _ hadmitted
      simp only [step, hadmitted] at h
      cases h
      exact ⟨job, hjob, hstatus⟩
    | finished _ held call targetIds outcome hcalling =>
      obtain ⟨job, hjob, hstatus⟩ := hi p _ hcalling
      simp only [step, hcalling] at h
      cases h
      exact ⟨job, hjob, hstatus⟩

theorem recording_kept (h : v.step l = some v') {p : Slot} {held : Holding} {call : Option Call}
    {result : DeliveryResult} (hp : v.holder p = some (.recording held call result)) :
    v'.holder p = some (.recording held call result) ∨
      (∃ gone, l = .lose gone ∧ gone p = true) ∨
      ∃ policy now clock draw, l = .record p policy now clock draw := by
  -- another slot's step leaves this slot alone
  have hother : ∀ {q : Slot} {next : Option Stage},
      v'.holder = Function.update v.holder q next →
      v.holder q ≠ some (.recording held call result) →
      v'.holder p = some (.recording held call result) := by
    intro q next hholder hq
    have hne : p ≠ q := by
      rintro rfl
      exact hq hp
    rw [hholder, Function.update_of_ne hne, hp]
  cases l with
  | lose gone =>
    obtain rfl := Option.some.inj h
    by_cases hgone : gone p = true
    · exact Or.inr (Or.inl ⟨gone, rfl, hgone⟩)
    · exact Or.inl (by simp [hgone, hp])
  | create job =>
    simp only [step] at h
    split at h <;> cases h
    exact Or.inl hp
  | claim q attemptCount now =>
    obtain ⟨job, _, h⟩ := Option.bind_eq_some_iff.mp h
    split at h
    · rename_i hready
      cases h
      exact Or.inl (hother rfl (by simp [hready.2]))
    · cases h
  | gate q held' decision =>
    simp only [step] at h
    split at h
    · rename_i hclaimed
      cases h
      exact Or.inl (hother rfl (by simp [hclaimed.1]))
    · cases h
  | settle q fields now =>
    simp only [step] at h
    split at h
    · rename_i hgated
      cases h
      exact Or.inl (hother rfl (by simp [hgated]))
    · cases h
  | start q call' =>
    simp only [step] at h
    split at h
    · rename_i hadmitted
      split at h <;> cases h
      exact Or.inl (hother rfl (by simp [hadmitted]))
    · cases h
  | skip q result' =>
    simp only [step] at h
    split at h
    · rename_i hadmitted
      cases h
      exact Or.inl (hother rfl (by simp [hadmitted]))
    · cases h
  | finish q targetIds outcome =>
    simp only [step] at h
    split at h
    · rename_i hcalling
      cases h
      exact Or.inl (hother rfl (by simp [hcalling]))
    · cases h
  | record q policy now clock draw =>
    by_cases hpq : p = q
    · subst hpq
      exact Or.inr (Or.inr ⟨policy, now, clock, draw, rfl⟩)
    · simp only [step] at h
      split at h
      · obtain ⟨job, _, h⟩ := Option.bind_eq_some_iff.mp h
        split at h <;> cases h
        exact Or.inl (by simp [Function.update_of_ne hpq, hp])
      · cases h
  | reclaim acc now =>
    obtain rfl := Option.some.inj h
    exact Or.inl hp
  | cancel src now =>
    obtain ⟨job, _, h⟩ := Option.bind_eq_some_iff.mp h
    split at h <;> cases h
    exact Or.inl hp
  | operator call' =>
    obtain rfl := Option.some.inj h
    exact Or.inl hp

theorem done_kept (h : v.step l = some v') (hrespects : l.Respects v) {job job' : DeliveryJob}
    (hjob : v.row = some job) (hjob' : v'.row = some job')
    (hdone : job.status = .succeeded ∨ job.status = .cancelled) : job'.status = job.status := by
  rcases row_cases h hjob hjob' with rfl | hrow
  · rfl
  · cases hrow with
    | claimed p attemptCount now hready => simp [hready] at hdone
    | settled p held decision fields now _ hleased => simp [hleased] at hdone
    | recorded p held call result policy now clock draw _ hsending => simp [hsending] at hdone
    | requeued acc now hstale =>
      rw [(hrespects job hjob).1 acc now rfl] at hstale
      cases hstale
    | cancelled now hsrc =>
      rcases hdone with hdone | hdone <;> simp [hdone, cancellableByCommand] at hsrc
    | operated call =>
      have hadmits := (hrespects job hjob).2 call rfl
      rcases hdone with hdone | hdone <;> rw [hdone] at hadmits <;> cases call <;> cases hadmits

end JobView

/-! ## The race in the system -/

def Accepted (history : List Event) (id : JobId) (target : ℤ) : Prop :=
  ∃ call result, .returned call result ∈ history ∧ call.jobId = id ∧ call.request = .send ∧
    result.status = .succeeded ∧ result.targetMessageIds.head? = some target

def MappedTo (db : Database) (id : JobId) (target : ℤ) : Prop :=
  ∃ i m, db.messageMaps.get? i = some m ∧ m.deliveryJobId = id ∧ m.targetMessageId = target

/-- Once no runner holds the job, an accepted message is mapped and its job has succeeded; of a
cancelled job no accepted message is unmapped. -/
structure CancelSafe (s : System) (id : JobId) : Prop where
  delivered : ∀ target, Accepted s.history id target → (∀ p, (s.view id).holder p = none) →
    (∃ job, s.db.deliveryJobs.get? id = some job ∧ job.status = .succeeded) ∧
      MappedTo s.db id target
  cancelled : ∀ job, s.db.deliveryJobs.get? id = some job → job.status = .cancelled →
    ∀ target, Accepted s.history id target → MappedTo s.db id target

def StaysCancelled (id : JobId) (s : System) (_ : Action) (s' : System) : Prop :=
  ∀ job, s.db.deliveryJobs.get? id = some job → job.status = .cancelled →
    (∃ job', s'.db.deliveryJobs.get? id = some job' ∧ job'.status = .cancelled) ∧
      ∀ call, s'.history = s.history ++ [.started call] → call.jobId ≠ id

/-- The steps that race: platform reads and writes, claims, gates, calls and recordings. No
process that holds the job stops or is replaced, its send does not become stale, and no worker
command cancels it. -/
structure InRace (id : JobId) (s : System) (a : Action) : Prop where
  running : ∀ p stage, (s.view id).holder p = some stage → a ≠ .crash p.1 ∧
    ∀ x, (s.workers p.1).assigning = some x → x.assignment.accountId = p.2 →
      a ≠ .host p.1 .assignDone
  fresh : ∀ job, s.db.deliveryJobs.get? id = some job → ¬ RequeuesStale a job
  uncommanded : ∀ w src now, a ≠ .host w (.cancelJob id src now)

/-- The job is a clone, a platform write finds a status it admits, and a result is recorded before
another message is mapped for its route and source message. -/
structure CancelsInTime (id : JobId) (s : System) (a : Action) : Prop where
  cloned : ∀ job, s.db.deliveryJobs.get? id = some job → job.kind = "send"
  admitted : ∀ job, s.db.deliveryJobs.get? id = some job → ¬ Outdated s a id job
  unmapped : RecordsOwn s a id → ∀ job, s.db.deliveryJobs.get? id = some job →
    ∀ i m, s.db.messageMaps.get? i = some m → m.routeId = job.routeId → m.message ≠ job.message

theorem respects_of_inTime {s : System} {a : Action} {id : JobId} {l : JobAction}
    (hrace : InRace id s a) (htime : CancelsInTime id s a) (hfrom : JobAction.From s id a l) :
    l.Respects (s.view id) := by
  intro job hjob
  constructor
  · rintro acc now rfl
    obtain ⟨w, rfl⟩ := hfrom
    by_contra hstale
    exact hrace.fresh job hjob ⟨w, acc, now, rfl, by simpa using hstale⟩
  · rintro call rfl
    obtain ⟨k, rfl, hk⟩ := hfrom
    by_contra hadmits
    exact htime.admitted job hjob ⟨k, call, rfl, hk, by simpa using hadmits⟩

structure RaceKept (id : JobId) (s : System) : Prop where
  once : SendOnce id (s.view id)
  inHand : (s.view id).InHand
  copies : s.CopiesAgree
  delivered : ∀ target, Accepted s.history id target →
    (∃ p held call result, (s.view id).holder p = some (.recording held call result) ∧
      result.status = .succeeded ∧ result.targetMessageIds.head? = some target) ∨
    (∃ job, s.db.deliveryJobs.get? id = some job ∧ job.status = .succeeded) ∧
      MappedTo s.db id target

namespace System

variable {s s' : System} {a : Action} {id : JobId}

/-- Recording an accepted send succeeds and maps its message. -/
theorem record_maps (hcopies : CopiesAgree s) {w : WorkerId} {acc : AccountId} {now clock : Time}
    {draw : ℤ} {raises : Bool} (h : s.step (.runner w acc (.record now clock draw raises)) = some s')
    {r : Runner} {held : Holding} {called : Option TransportRequest} {result : DeliveryResult}
    (hr : (s.workers w).runners acc = some r) (hpc : r.pc = .recording held called result)
    (hid : held.id = id) {job : DeliveryJob} (hjob : s.db.deliveryJobs.get? id = some job)
    (hsending : job.status = .sending) (hkind : job.kind = "send")
    (hfresh : ∀ i m, s.db.messageMaps.get? i = some m → m.routeId = job.routeId →
      m.message ≠ job.message) (hsucceeded : result.status = .succeeded) {target : ℤ}
    (htarget : result.targetMessageIds.head? = some target) :
    (∃ job', s'.db.deliveryJobs.get? id = some job' ∧ job'.status = .succeeded) ∧
      MappedTo s'.db id target := by
  subst hid
  obtain ⟨job₀, hjob₀, hcopy⟩ := copy_of_recording hcopies hr hpc
  obtain rfl := Option.some.inj (hjob.symm.trans hjob₀)
  have hk := congrArg DeliveryJob.kind hcopy
  have hroute := congrArg DeliveryJob.routeId hcopy
  have hmessage := congrArg DeliveryJob.message hcopy
  have hfields : ∀ policy, resultFields policy held.attemptNo clock draw result =
      { newStatus := .succeeded, targetMessageId := some target } := by
    intro policy
    simp [resultFields, hsucceeded, htarget]
  have hnew : ∀ i m, s.db.messageMaps.get? i = some m →
      m.identity ≠ (Database.mapFromJob held.id held.job target).identity := by
    intro i m hm heq
    simp only [MessageMap.identity, Database.mapFromJob, Prod.mk.injEq] at heq
    obtain ⟨_, _, hmroute, hmmessage, _⟩ := heq
    exact hfresh i m hm (hmroute.trans hroute) (hmmessage.trans hmessage)
  obtain ⟨r', e, hr', he, rfl⟩ := step_runner_eq_some h
  obtain rfl := Option.some.inj (hr.symm.trans hr')
  simp only [Runner.step, hpc, Option.some.injEq] at he
  obtain ⟨_, ⟨db, hrecord, hafter⟩ | ⟨hnone, _⟩⟩ := Runner.recordOutcome_cases
    (s.workers w).deps s.db r held result now clock draw raises
  · rw [hfields] at hrecord
    obtain ⟨_, _, _, _, _, _, hdb⟩ := Database.recordResult_eq_recorded hrecord
    have hmaps := recordResult_mapped hrecord rfl rfl (hk.trans hkind) hnew
    rw [← he, hafter]
    refine ⟨⟨job.move .succeeded {} now, ?_, rfl⟩, s.db.messageMaps.size,
      Database.mapFromJob held.id held.job target, ?_, rfl, rfl⟩
    · simp [afterRunner, hdb, hjob]
    · simp [afterRunner, hmaps, Table.get?_insert]
  · have hrecorded : ∃ db, s.db.recordResult held.id held.job held.attemptNo
        (resultFields (s.workers w).deps.retryPolicy held.attemptNo clock draw result) now raises =
          .recorded db :=
      recordResult_of_fresh hjob hsending (by rw [hfields]) hnew
    obtain ⟨db, hrecord⟩ := hrecorded
    exact absurd hrecord (hnone db)

theorem accepted_step (h : s.step a = some s') {target : ℤ} (hacc : Accepted s'.history id target) :
    Accepted s.history id target ∨ ∃ p held call result,
      (s'.view id).holder p = some (.recording held call result) ∧ result.status = .succeeded ∧
        result.targetMessageIds.head? = some target := by
  obtain ⟨call, result, hmem, rfl, hsend, hsucceeded, htarget⟩ := hacc
  obtain ⟨l, _, hview⟩ := view_step h call.jobId
  have hmem' : .returned call result ∈ (s'.view call.jobId).history :=
    List.mem_filter.mpr ⟨hmem, by simp [Event.concerns]⟩
  rcases JobView.returned_cases hview hmem' with hold | ⟨p, held, targetIds, outcome, rfl, hp, rfl⟩
  · exact Or.inl ⟨call, result, (List.mem_filter.mp hold).1, rfl, hsend, hsucceeded, htarget⟩
  · refine Or.inr ⟨p, held, some call, _, ?_, hsucceeded, htarget⟩
    simp only [JobView.step, hp, Option.some.injEq] at hview
    rw [← hview]
    simp

theorem mappedTo_kept (h : s.step a = some s') {target : ℤ} (hm : MappedTo s.db id target) :
    MappedTo s'.db id target := by
  obtain ⟨i, m, hm, hrest⟩ := hm
  exact ⟨i, m, map_kept h hm, hrest⟩

theorem raceKept_step (s : System) (a : Action) (s' : System) (h : s.step a = some s')
    (hguard : InRace id s a ∧ CancelsInTime id s a) (hs : RaceKept id s) : RaceKept id s' := by
  obtain ⟨hrace, htime⟩ := hguard
  obtain ⟨l, hfrom, hview⟩ := view_step h id
  have hrespects := respects_of_inTime hrace htime hfrom
  have hcommand : ∀ src now, l ≠ .cancel src now := by
    rintro src now rfl
    obtain ⟨w, rfl⟩ := hfrom
    exact hrace.uncommanded w src now rfl
  refine ⟨sendOnce_step hs.once hview hrespects,
    JobView.inHand_step hs.once hview hrespects hcommand hs.inHand,
    copiesAgree_step s a s' h hs.copies, ?_⟩
  intro target hacc
  rcases accepted_step h hacc with hold | hnew
  · rcases hs.delivered target hold with ⟨p, held, call, result, hp, hsucceeded, htarget⟩ |
      ⟨⟨job, hjob, hdone⟩, hmapped⟩
    · -- the result is recorded by this step, or still to be
      have hrecords : ∀ now clock draw raises, a = .runner p.1 p.2 (.record now clock draw raises) →
          (∃ job', s'.db.deliveryJobs.get? id = some job' ∧ job'.status = .succeeded) ∧
            MappedTo s'.db id target := by
        rintro now clock draw raises rfl
        obtain ⟨r, hr, hstage⟩ := Option.bind_eq_some_iff.mp hp
        obtain ⟨called, hpc, hid, _⟩ := Runner.pc_of_recording hstage
        obtain ⟨job, hjob, hsending⟩ := hs.inHand p _ hp
        exact record_maps hs.copies h hr hpc hid hjob hsending (htime.cloned job hjob)
          (htime.unmapped (recordsOwn_of_holder hp) job hjob) hsucceeded htarget
      rcases JobView.recording_kept hview hp with hkept | ⟨gone, rfl, hgone⟩ |
        ⟨policy, now, clock, draw, rfl⟩
      · exact Or.inl ⟨p, held, call, result, hkept, hsucceeded, htarget⟩
      · cases hfrom p _ hp hgone with
        | crash => exact absurd rfl (hrace.running p _ hp).1
        | reassign _ x hassigning hx => exact absurd rfl ((hrace.running p _ hp).2 x hassigning hx)
        | unrecorded _ _ _ now clock draw raises _ =>
          exact Or.inr (hrecords now clock draw raises rfl)
      · obtain ⟨raises, rfl⟩ := hfrom
        exact Or.inr (hrecords now clock draw raises rfl)
    · obtain ⟨job', hjob'⟩ := JobView.row_some hview hjob
      have hkept := JobView.done_kept hview hrespects hjob hjob' (Or.inl hdone)
      exact Or.inr ⟨⟨job', hjob', hkept.trans hdone⟩, mappedTo_kept h hmapped⟩
  · exact Or.inl hnew

theorem raceKept_start (config : WorkerId → WorkerConfig) (id : JobId) :
    RaceKept id (.start config) where
  once := allSendOnce_start config id
  inHand p stage hp := by cases hp
  copies := copiesAgree_start config
  delivered target hacc := by
    obtain ⟨_, _, hmem, _⟩ := hacc
    cases hmem

theorem cancelSafe_of_raceKept (hs : RaceKept id s) : CancelSafe s id := by
  constructor
  · intro target hacc hfree
    rcases hs.delivered target hacc with ⟨p, _, _, _, hp, _⟩ | hdone
    · rw [hfree p] at hp
      cases hp
    · exact hdone
  · intro job hjob hcancelled target hacc
    rcases hs.delivered target hacc with ⟨p, _, _, _, hp, _⟩ | ⟨_, hmapped⟩
    · obtain ⟨job', hjob', hsending⟩ := hs.inHand p _ hp
      obtain rfl := Option.some.inj (hjob.symm.trans hjob')
      rw [hcancelled] at hsending
      cases hsending
    · exact hmapped

theorem staysCancelled_of_raceKept (h : s.step a = some s')
    (hguard : InRace id s a ∧ CancelsInTime id s a) (hs : RaceKept id s) :
    StaysCancelled id s a s' := by
  intro job hjob hcancelled
  constructor
  · obtain ⟨l, hfrom, hview⟩ := view_step h id
    obtain ⟨job', hjob'⟩ := JobView.row_some hview hjob
    have hkept := JobView.done_kept hview (respects_of_inTime hguard.1 hguard.2 hfrom) hjob hjob'
      (Or.inr hcancelled)
    exact ⟨job', hjob', hkept.trans hcancelled⟩
  · rintro call hhistory rfl
    rcases step_event h with hsame | ⟨ev, hsnoc, hstarted, _⟩
    · rw [hsame] at hhistory
      simp at hhistory
    · obtain rfl : ev = .started call := by
        have hlast := hsnoc.symm.trans hhistory
        simpa using hlast
      obtain ⟨r, held, targetIds, job₀, hr, hpc, _⟩ := started_job hs.copies (hstarted call rfl)
      obtain ⟨_, _, _, _, _, hr', hpc', _, hcall⟩ := (hstarted call rfl).executes
      obtain rfl := Option.some.inj (hr.symm.trans hr')
      obtain ⟨rfl, rfl⟩ := RunnerPc.executing.inj (hpc.symm.trans hpc')
      have hid : held.id = call.jobId := by rw [hcall]; rfl
      have hholder : (s.view call.jobId).holder (call.workerId, call.accountId) =
          some (.admitted held) := by
        rw [← hid]
        exact holder_of_executing hr hpc
      obtain ⟨job', hjob', hsending⟩ := hs.inHand _ _ hholder
      obtain rfl := Option.some.inj (hjob.symm.trans hjob')
      rw [hcancelled] at hsending
      cases hsending

end System

/-- In every race in which the cancels land in time, an accepted message is mapped and its job
succeeds, and a cancelled job is never sent. -/
theorem cancel_loses_no_message (config : WorkerId → WorkerConfig) (as : List Action) (id : JobId)
    (h : Machine.Always System.step (fun s a _ => InRace id s a ∧ CancelsInTime id s a)
      (.start config) as) :
    (∀ s, System.run (.start config) as = some s → CancelSafe s id) ∧
      Machine.Always System.step (StaysCancelled id) (.start config) as := by
  constructor
  · intro s hrun
    exact System.cancelSafe_of_raceKept
      (h.invariant System.raceKept_step hrun (System.raceKept_start config id))
  · exact h.of_invariant System.raceKept_step
      (fun s a s' hstep hguard hs => System.staysCancelled_of_raceKept hstep hguard hs)
      (System.raceKept_start config id)

/-- `InRace`, as a test. -/
def inRace (s : System) : Action → Bool
  | .crash _ => false
  | .host w .assignDone => (s.workers w).assigning.all fun x =>
      ((s.workers w).runners x.assignment.accountId).isNone
  | .host _ (.cancelJob _ _ _) => false
  | .runner _ acc (.reclaim now) => !s.db.deliveryJobs.any fun job => job.stale acc now
  | _ => true

theorem inRace_spec {s : System} {a : Action} (h : inRace s a = true) (id : JobId) :
    InRace id s a := by
  constructor
  · intro p stage hp
    constructor
    · rintro rfl
      cases h
    · rintro x hassigning hx rfl
      have hnone : (s.workers p.1).runners p.2 = none := by
        simpa [inRace, hassigning, hx] using h
      simp [System.view, hnone] at hp
  · rintro job hjob ⟨w, acc, now, rfl, hstale⟩
    simp only [inRace, Bool.not_eq_true', Table.any_eq_false] at h
    rw [h id job hjob] at hstale
    cases hstale
  · rintro w src now rfl
    cases h

/-- `CancelsInTime`, as a test. -/
def cancelsInTime (id : JobId) (s : System) (a : Action) : Bool :=
  (s.db.deliveryJobs.get? id).all fun job => job.kind = "send" &&
    match a with
    | .operatorWrite k => s.requests[k]?.all fun q => q.2 ≠ id || q.1.admits job.status
    | .runner _ _ (.record _ _ _ _) => s.db.messageMaps.rows.all fun m =>
        m.routeId ≠ job.routeId || m.message ≠ job.message
    | _ => true

theorem cancelsInTime_spec {s : System} {a : Action} {id : JobId}
    (h : cancelsInTime id s a = true) : CancelsInTime id s a := by
  constructor
  · intro job hjob
    simp only [cancelsInTime, hjob, Option.all_some, Bool.and_eq_true, decide_eq_true_eq] at h
    exact h.1
  · rintro job hjob ⟨k, call, rfl, hk, hadmits⟩
    simp [cancelsInTime, hjob, hk, hadmits] at h
  · rintro ⟨w, acc, now, clock, draw, raises, r, held, called, result, rfl, _⟩ job hjob i m hm hroute
    simp only [cancelsInTime, hjob, Option.all_some, Bool.and_eq_true, List.all_eq_true] at h
    have hrow := h.2 m (List.mem_of_getElem? hm)
    simpa [hroute] using hrow

/-- A clone is sent into a flood wait; the cancel that was tested before lands while it waits. -/
def cancelledWhileWaiting : List Action :=
  .publish "A" [cloneRule] ::
    assignSteps "w1" { accountId := "A", tenantId := "t", projectId := "p" } 0 ++
    ingestSteps "w1" "A" (channelUpdate .create) ++ drainSteps "w1" "A" [0] 10 1 ++
    [.operatorRead .cancel 0] ++ claimSteps "w1" "A" [0] 2 ++ callSteps "w1" "A" 3 ++
    returnSteps "w1" "A" (.error .floodWait "" (some 9) (some "A")) 4 ++ [.operatorWrite 0]

theorem cancel_loses_no_message_waiting :
    (System.run (.start fun _ => {}) cancelledWhileWaiting).map (fun s =>
        s.db.deliveryJobs.rows.map DeliveryJob.status) = some [.cancelled] ∧
      ∀ s, System.run (.start fun _ => {}) cancelledWhileWaiting = some s → CancelSafe s 0 := by
  constructor
  · decide +kernel
  · refine (cancel_loses_no_message _ _ 0 (Machine.always_of_checkRun
      (c := fun s a _ => inRace s a && cancelsInTime 0 s a) ?_ (by decide +kernel))).1
    intro s a _ h
    rw [Bool.and_eq_true] at h
    exact ⟨inRace_spec h.1 0, cancelsInTime_spec h.2⟩

def cancelledInFlight : List Action :=
  .publish "A" [cloneRule] ::
    assignSteps "w1" { accountId := "A", tenantId := "t", projectId := "p" } 0 ++
    ingestSteps "w1" "A" (channelUpdate .create) ++ drainSteps "w1" "A" [0] 10 1 ++
    [.operatorRead .cancel 0] ++ claimSteps "w1" "A" [0] 2 ++ callSteps "w1" "A" 3 ++
    [.operatorWrite 0] ++ returnSteps "w1" "A" (.returned [9]) 4

/-- The transport has accepted message 9, the job is cancelled, and no mapping row exists. -/
theorem cancel_orphans_sent_message : ¬ ∀ config as id,
    Machine.Always System.step (fun s a _ => InRace id s a) (.start config) as →
      (∀ s, System.run (.start config) as = some s → CancelSafe s id) ∧
        Machine.Always System.step (StaysCancelled id) (.start config) as := by
  intro h
  have hobserved : (System.run (.start fun _ => {}) cancelledInFlight).map (fun s =>
      (s.history.any fun ev =>
        match ev with
        | .returned call result => call.jobId = 0 && call.request = .send &&
            result.status = .succeeded && result.targetMessageIds.head? = some 9
        | _ => false,
        s.db.deliveryJobs.rows.map DeliveryJob.status, s.db.messageMaps.size)) =
      some (true, [.cancelled], 0) := by
    decide +kernel
  obtain ⟨s, hrun, hobserved⟩ := Option.map_eq_some_iff.mp hobserved
  simp only [Prod.mk.injEq] at hobserved
  obtain ⟨hreturned, hstatus, hmaps⟩ := hobserved
  have hrace : Machine.Always System.step (fun s a _ => InRace 0 s a) (.start fun _ => {})
      cancelledInFlight :=
    Machine.always_of_checkRun (c := fun s a _ => inRace s a) (fun _ _ _ h => inRace_spec h 0)
      (by decide +kernel)
  have hacc : Accepted s.history 0 9 := by
    obtain ⟨ev, hmem, hev⟩ := List.any_eq_true.mp hreturned
    cases ev with
    | returned call result =>
      simp only [Bool.and_eq_true, decide_eq_true_eq] at hev
      exact ⟨call, result, hmem, hev.1.1.1, hev.1.1.2, hev.1.2, hev.2⟩
    | _ => cases hev
  obtain ⟨job, hjob, hcancelled⟩ := List.map_eq_singleton_iff.mp hstatus
  have hrow : s.db.deliveryJobs.get? 0 = some job := by simp [Table.get?, hjob]
  obtain ⟨i, m, hm, _⟩ := ((h _ _ 0 hrace).1 s hrun).cancelled job hrow hcancelled 9 hacc
  have hlt := Table.get?_lt hm
  rw [hmaps] at hlt
  exact absurd hlt (Nat.not_lt_zero i)

end TgPlatform
