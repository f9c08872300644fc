import TgPlatform.Pipeline.Holdings
import TgPlatform.Pipeline.Hosting

/-! # Leased jobs

A claim commits before the call that makes it goes on, and only that call moves
the job out of `leased`. Where the call ends early, nothing that a runner does
later finds the job again.
-/

namespace TgPlatform

/-- A step of the system, a row that somebody else writes, or the end of a runner's call by an
exception or a cancellation. -/
inductive ClaimAct
  | system (a : Action)
  | insert (job : DeliveryJob)
  | abort (p : Slot)

namespace System

/-- The runner is back at the start of its loop. -/
def abort (s : System) (p : Slot) : System :=
  let w := s.workers p.1
  { s with workers := Function.update s.workers p.1 { w with
      runners := Function.update w.runners p.2 ((w.runners p.2).map fun r => { r with pc := .idle }) } }

def claimStep (s : System) : ClaimAct → Option System
  | .system a => s.step a
  | .insert job =>
    if job.status = .leased then none
    else some { s with db := { s.db with deliveryJobs := s.db.deliveryJobs.insert job } }
  | .abort p => some (s.abort p)

/-- A runner that does not hold the job has a step, at some time, that makes the job claimable or
ends it. -/
def Recovers (s : System) (id : JobId) : Prop :=
  ∃ (d : RunnerDeps) (p : Slot) (r : Runner) (x : RunnerAction) (e : RunnerEffect) (job : DeliveryJob),
    r.stage p id = none ∧ r.step d p.1 p.2 s.db x = some e ∧ e.db.deliveryJobs.get? id = some job ∧
      (job.status = .ready ∨ job.status.terminal = true)

def Held (s : System) (id : JobId) : Prop := ∃ p, ((s.view id).holder p).isSome = true

def NoOrphan (s : System) : Prop :=
  ∀ id job, s.db.deliveryJobs.get? id = some job → job.status = .leased → s.Held id ∨ s.Recovers id

/-- The call in the slot, which holds the job, ends with the step and leaves a leased row alone. -/
inductive Ends (s : System) (id : JobId) : ClaimAct → Slot → Prop
  | crash (p : Slot) : Ends s id (.system (.crash p.1)) p
  | abort (p : Slot) : Ends s id (.abort p) p
  | unplannable (p : Slot) (now : Time) (job : DeliveryJob) : s.db.deliveryJobs.get? id = some job →
      planFromJob job = none → (s.view id).holder p = some .claimed →
      Ends s id (.system (.runner p.1 p.2 (.gate now))) p
  | recorded (p : Slot) (now clock : Time) (draw : ℤ) (raises : Bool) :
      Ends s id (.system (.runner p.1 p.2 (.record now clock draw raises))) p

/-- No step ends the last call that holds a leased job. -/
def KeepsHolder (s : System) (a : ClaimAct) : Prop :=
  ∀ id job, s.db.deliveryJobs.get? id = some job → job.status = .leased →
    (∃ p, s.Ends id a p ∧ ((s.view id).holder p).isSome = true) →
      ∃ q, ¬ s.Ends id a q ∧ ((s.view id).holder q).isSome = true

end System

/-! ## Nothing finds an orphan -/

theorem Runner.leased_kept {d : RunnerDeps} {p : Slot} {r : Runner} {x : RunnerAction} {e : RunnerEffect}
    {db : Database} {id : JobId} {job : DeliveryJob} (he : r.step d p.1 p.2 db x = some e)
    (hstage : r.stage p id = none) (hjob : db.deliveryJobs.get? id = some job)
    (hleased : job.status = .leased) : e.db.deliveryJobs.get? id = some job := by
  have hother : ∀ {h : Holding} {src dst fields now}, h.id ≠ id →
      ((db.transition h.id src dst fields now).getD db).deliveryJobs.get? id = some job := by
    intro h src dst fields now hne
    rw [Database.transition_getD_get?, hjob]
    simp [hne]
  cases stepped_of_step he with
  | drained draw stamp raises rows mapping db' hpc hdrain =>
    obtain ⟨added, -, rfl⟩ := Database.drainToJobs_eq_some hdrain
    change (db.deliveryJobs.append added).get? id = _
    rw [Table.get?_append, if_pos (Table.get?_lt hjob), hjob]
  | reclaim now hpc hhalted =>
    rw [Database.reclaimStaleSending_get?, hjob]
    simp [DeliveryJob.stale, hleased]
  | claimed now at_ i seen rest db' hpc hdue hclaim =>
    obtain ⟨j, hj, hready, -, rfl⟩ := Database.tryClaim_eq_claimed hclaim
    have hne : i ≠ id := by
      rintro rfl
      rw [hjob] at hj
      cases hj
      rw [hleased] at hready
      cases hready
    change (db.deliveryJobs.update i _).get? id = _
    rw [Table.get?_update_of_ne hne, hjob]
  | settle now clock draw h decision hpc =>
    have hne : h.id ≠ id := by
      intro heq
      simp [Runner.stage, hpc, heq] at hstage
    obtain ⟨fields, halted, hsettled⟩ := Runner.settleGate_eq d db r h decision now clock draw
    rw [hsettled]
    exact hother hne
  | execute now h targetIds hpc =>
    rcases Runner.startCall_cases d p.1 p.2 db r h targetIds now with ⟨_, _, hs⟩ | ⟨_, _, hs⟩ <;>
      rw [hs] <;> exact hjob
  | record now clock draw raises h called result hpc =>
    have hne : h.id ≠ id := by
      intro heq
      simp [Runner.stage, hpc, heq] at hstage
    obtain ⟨_, ⟨db', hrecord, hs⟩ | ⟨_, hs⟩⟩ :=
      Runner.recordOutcome_cases d db r h result now clock draw raises
    · rw [hs]
      obtain ⟨j, close, maps, hj, -, -, rfl⟩ := Database.recordResult_eq_recorded hrecord
      change (db.deliveryJobs.update h.id _).get? id = _
      rw [Table.get?_update_of_ne hne, hjob]
    · rw [hs]
      exact hjob
  | _ => exact hjob

theorem JobView.HolderChange.of_claim_or_holder {v : JobView} {l : JobAction} {p : Slot} {stage : Stage}
    (h : v.HolderChange l p stage) :
    (∃ attemptCount now, l = .claim p attemptCount now) ∨ (v.holder p).isSome = true := by
  cases h with
  | claimed _ job attemptCount now => exact .inl ⟨attemptCount, now, rfl⟩
  | _ => exact .inr (by simp [*])

namespace System

variable {s s' : System} {a : Action} {act : ClaimAct} {id : JobId} {job : DeliveryJob} {p q : Slot}

def AllHeld (s : System) : Prop :=
  ∀ id job, s.db.deliveryJobs.get? id = some job → job.status = .leased → s.Held id

theorem noOrphan_iff : s.NoOrphan ↔ s.AllHeld := by
  constructor
  · intro h id job hjob hleased
    rcases h id job hjob hleased with hheld | ⟨d, p, r, x, e, job', hstage, he, hjob', hstatus⟩
    · exact hheld
    · rw [Runner.leased_kept he hstage hjob hleased] at hjob'
      cases hjob'
      rw [hleased] at hstatus
      rcases hstatus with hready | hterminal <;> contradiction
  · exact fun h id job hjob hleased => .inl (h id job hjob hleased)

theorem held_of_holder {stage : Stage} (h : (s.view id).holder p = some stage) : s.Held id :=
  ⟨p, by rw [h]; rfl⟩

/-! ## Where holders go -/

theorem pc_of_claimed (h : (s.view id).holder p = some .claimed) :
    ∃ r, (s.workers p.1).runners p.2 = some r ∧ r.pc = .claimed id := by
  obtain ⟨r, hr, hstage⟩ := Option.bind_eq_some_iff.mp h
  refine ⟨r, hr, ?_⟩
  cases hpc : r.pc with
  | claimed i =>
    simp only [Runner.stage, hpc] at hstage
    split at hstage
    · rename_i heq
      rw [heq]
    · cases hstage
  | _ =>
    simp only [Runner.stage, hpc] at hstage
    try split at hstage
    all_goals cases hstage

theorem ends_of_dropped (hs : AllHosting s) {stage : Stage} (hp : (s.view id).holder p = some stage)
    (h : Dropped s id p stage a) : s.Ends id (.system a) p := by
  cases h with
  | crash => exact .crash p
  | reassign _ x hassigning haccount =>
    obtain ⟨r, hr, -⟩ := Option.bind_eq_some_iff.mp hp
    have hrunners := (hs p.1).runners p.2
    rw [← haccount, (hs p.1).assigning x hassigning, haccount, hr] at hrunners
    cases hrunners
  | unplannable now job hjob hplan => exact .unplannable p now job hjob hplan hp
  | unrecorded h call result now clock draw raises _ => exact .recorded p now clock draw raises

theorem target_ne_leased (decision : Decision) : decision.target ≠ .leased := by
  cases decision <;> decide

theorem resultFields_ne_leased (policy : RetryPolicy) (attemptNo : ℤ) (clock : Time) (draw : ℤ)
    (result : DeliveryResult) :
      (resultFields policy attemptNo clock draw result).newStatus ≠ .leased := by
  unfold resultFields
  cases result.status with
  | retryable =>
    dsimp only
    split
    · nofun
    · split <;> nofun
  | _ => nofun

theorem leased_before {v v' : JobView} {l : JobAction} (hl : v.step l = some v')
    (hjob : v'.row = some job) (hleased : job.status = .leased) :
    (∃ job, v.row = some job ∧ job.status = .leased) ∨
      ∃ p attemptCount now, l = .claim p attemptCount now := by
  cases hrow : v.row with
  | none =>
    cases JobView.row_created hl hrow hjob
    simp only [JobView.step] at hl
    split at hl
    · rename_i hcreated
      simp [hleased] at hcreated
    · cases hl
  | some job₀ =>
    rcases JobView.row_cases hl hrow hjob with rfl | hchange
    · exact .inl ⟨job, rfl, hleased⟩
    · cases hchange with
      | claimed p attemptCount now hready => exact .inr ⟨p, attemptCount, now, rfl⟩
      | settled p h decision fields now hp hbefore => exact absurd hleased (target_ne_leased decision)
      | recorded p h call result policy now clock draw hp hsending =>
        exact absurd hleased (resultFields_ne_leased policy h.attemptNo clock draw result)
      | requeued accountId now hstale => cases hleased
      | cancelled now hsrc => cases hleased
      | operated call => cases call <;> cases hleased

/-- No step but a loss of holders, a settled gate or a record takes a job's last holder away. -/
theorem held_kept {v v' : JobView} {l : JobAction} (hl : v.step l = some v')
    (hheld : ∃ p, (v.holder p).isSome = true)
    (hlose : ∀ gone, l = .lose gone → ∃ q, gone q = false ∧ (v.holder q).isSome = true)
    (hsettle : ∀ p fields now, l ≠ .settle p fields now)
    (hrecord : ∀ p policy now clock draw, l ≠ .record p policy now clock draw) :
    ∃ q, (v'.holder q).isSome = true := by
  have hset : ∀ p stage, v'.holder = Function.update v.holder p (some stage) →
      ∃ q, (v'.holder q).isSome = true := fun p stage h => ⟨p, by rw [h, Function.update_self]; rfl⟩
  cases l with
  | lose gone =>
    obtain ⟨q, hgone, hq⟩ := hlose gone rfl
    cases hl
    exact ⟨q, by simpa [hgone] using hq⟩
  | create job₀ =>
    simp only [JobView.step] at hl
    split at hl <;> cases hl
    exact hheld
  | claim p attemptCount now =>
    obtain ⟨job₀, -, hl⟩ := Option.bind_eq_some_iff.mp hl
    split at hl <;> cases hl
    exact hset p .claimed rfl
  | gate p h decision =>
    simp only [JobView.step] at hl
    split at hl <;> cases hl
    exact hset p _ rfl
  | settle p fields now => exact absurd rfl (hsettle p fields now)
  | start p call =>
    simp only [JobView.step] at hl
    split at hl
    · split at hl <;> cases hl
      exact hset p _ rfl
    · cases hl
  | skip p result =>
    simp only [JobView.step] at hl
    split at hl <;> cases hl
    exact hset p _ rfl
  | finish p targetIds outcome =>
    simp only [JobView.step] at hl
    split at hl <;> cases hl
    exact hset p _ rfl
  | record p policy now clock draw => exact absurd rfl (hrecord p policy now clock draw)
  | reclaim accountId now =>
    cases hl
    exact hheld
  | cancel src now =>
    obtain ⟨job₀, -, hl⟩ := Option.bind_eq_some_iff.mp hl
    split at hl <;> cases hl
    exact hheld
  | operator call =>
    cases hl
    exact hheld

theorem not_leased_of_moved {v v' : JobView} {l : JobAction} (hl : v.step l = some v')
    (hmoves : (∃ p fields now, l = .settle p fields now) ∨
      ∃ p policy now clock draw, l = .record p policy now clock draw)
    (hjob : v'.row = some job) : job.status ≠ .leased := by
  intro hleased
  rcases hmoves with ⟨p, fields, now, rfl⟩ | ⟨p, policy, now, clock, draw, rfl⟩
  · simp only [JobView.step] at hl
    split at hl <;> cases hl
    obtain ⟨job₀, hrow, hjob⟩ := Option.map_eq_some_iff.mp hjob
    split at hjob
    · rw [← hjob] at hleased
      exact absurd hleased (target_ne_leased _)
    · rename_i hnot
      rw [hjob] at hnot
      exact hnot hleased
  · simp only [JobView.step] at hl
    split at hl
    · rename_i h call result hp
      obtain ⟨job₀, -, hl⟩ := Option.bind_eq_some_iff.mp hl
      split at hl <;> cases hl
      cases hjob
      exact absurd hleased (resultFields_ne_leased policy h.attemptNo clock draw result)
    · cases hl

theorem allHeld_step (h : s.step a = some s') (hs : AllHosting s) (hheld : s.AllHeld)
    (hkeeps : s.KeepsHolder (.system a)) : s'.AllHeld := by
  intro id job hjob hleased
  obtain ⟨l, hfrom, hl⟩ := view_step h id
  rcases leased_before hl hjob hleased with ⟨job₀, hjob₀, hleased₀⟩ | ⟨p, attemptCount, now, rfl⟩
  · have hstays := fun hmoves => not_leased_of_moved hl hmoves hjob hleased
    refine held_kept hl (hheld id job₀ hjob₀ hleased₀) ?_
      (fun p fields now he => hstays (.inl ⟨p, fields, now, he⟩))
      (fun p policy now clock draw he => hstays (.inr ⟨p, policy, now, clock, draw, he⟩))
    rintro gone rfl
    have hends : ∀ p, gone p = true → ((s.view id).holder p).isSome = true →
      s.Ends id (.system a) p := by
      intro p hgone hp
      obtain ⟨stage, hstage⟩ := Option.isSome_iff_exists.mp hp
      exact ends_of_dropped hs hstage (hfrom p stage hstage hgone)
    obtain ⟨p, hp⟩ := hheld id job₀ hjob₀ hleased₀
    cases hgone : gone p with
    | false => exact ⟨p, hgone, hp⟩
    | true =>
      obtain ⟨q, hnot, hq⟩ := hkeeps id job₀ hjob₀ hleased₀ ⟨p, hends p hgone hp, hp⟩
      refine ⟨q, ?_, hq⟩
      rw [← Bool.not_eq_true]
      exact fun hgone => hnot (hends q hgone hq)
  · obtain ⟨job₀, -, hl⟩ := Option.bind_eq_some_iff.mp hl
    split at hl
    · rename_i hready
      have hclaimed : (s'.view id).holder p = some .claimed := by
        rw [← Option.some.inj hl]
        exact Function.update_self ..
      exact held_of_holder hclaimed
    · cases hl

/-! ## What an end leaves behind -/

/-- The holders of a job are those that were there and are not in the slots. -/
def LetGo (s s' : System) (id : JobId) (ended : Slot → Prop) : Prop :=
  ∀ q, ((s'.view id).holder q).isSome = true → ¬ ended q ∧ ((s.view id).holder q).isSome = true

theorem letGo_crash (w : WorkerId) {s' : System} (h : s.step (.crash w) = some s') :
    s'.db = s.db ∧ ∀ id, LetGo s s' id (fun q => q.1 = w) := by
  cases h
  refine ⟨rfl, fun id => ?_⟩
  rintro ⟨w', acc⟩ hq
  by_cases hw : w' = w
  · subst hw
    simp [view, Worker.start] at hq
  · exact ⟨hw, by simpa [view, hw] using hq⟩

theorem letGo_abort : LetGo s (s.abort p) id (fun q => q = p) := by
  rintro ⟨w, acc⟩ hq
  obtain ⟨w', acc'⟩ := p
  by_cases hw : w = w'
  · subst hw
    by_cases hacc : acc = acc'
    · subst hacc
      cases hr : (s.workers w).runners acc <;> simp [view, abort, hr, Runner.stage] at hq
    · exact ⟨by simp [hacc], by simpa [view, abort, hacc] using hq⟩
  · exact ⟨by simp [hw], by simpa [view, abort, hw] using hq⟩

theorem letGo_runner {x : RunnerAction} {e : RunnerEffect} (he : e.runner.stage p id = none) :
    LetGo s (s.afterRunner p.1 p.2 x e) id (fun q => q = p) := by
  intro q hq
  rw [holder_afterRunner] at hq
  by_cases hqp : q = p
  · subst hqp
    rw [Function.update_self, he] at hq
    cases hq
  · rw [Function.update_of_ne hqp] at hq
    exact ⟨hqp, hq⟩

theorem ended_unplannable {now : Time} (h : s.step (.runner p.1 p.2 (.gate now)) = some s')
    (hjob : s.db.deliveryJobs.get? id = some job) (hplan : planFromJob job = none)
    (hp : (s.view id).holder p = some .claimed) : s'.db = s.db ∧ LetGo s s' id (fun q => q = p) := by
  obtain ⟨r, hr, hpc⟩ := pc_of_claimed hp
  obtain ⟨r', e, hr', he, rfl⟩ := step_runner_eq_some h
  cases hr.symm.trans hr'
  cases Runner.stepped_of_step he with
  | unplannable _ i job' hpc' hjob' hhold => exact ⟨rfl, letGo_runner rfl⟩
  | gate _ i job' held hpc' hjob' hhold =>
    rw [hpc] at hpc'
    cases hpc'
    rw [hjob] at hjob'
    cases hjob'
    obtain ⟨plan, hsome, -⟩ := heldPlan_eq_some (hold_eq_some hhold).2.2.2
    rw [hplan] at hsome
    cases hsome

/-- The record of a call whose job is leased again changes no row. -/
theorem ended_recorded {now clock : Time} {draw : ℤ} {raises : Bool}
    (h : s.step (.runner p.1 p.2 (.record now clock draw raises)) = some s')
    (hjob : s.db.deliveryJobs.get? id = some job) (hleased : job.status = .leased)
    (hp : ((s.view id).holder p).isSome = true) :
    s'.db.deliveryJobs.get? id = some job ∧ LetGo s s' id (fun q => q = p) := by
  obtain ⟨r, e, hr, he, rfl⟩ := step_runner_eq_some h
  rw [holder_of_runner hr] at hp
  cases Runner.stepped_of_step he with
  | record _ _ _ _ held called result hpc =>
    have hid : held.id = id := by
      by_contra hne
      simp [Runner.stage, hpc, hne] at hp
    obtain ⟨halted, ⟨db', hrecord, hs⟩ | ⟨-, hs⟩⟩ := Runner.recordOutcome_cases
      (s.workers p.1).deps s.db r held result now clock draw raises
    · obtain ⟨j, -, -, hj, hsending, -, -⟩ := Database.recordResult_eq_recorded hrecord
      rw [hid, hjob] at hj
      cases hj
      rw [hleased] at hsending
      cases hsending
    · rw [hs]
      exact ⟨hjob, letGo_runner rfl⟩

theorem Ends.slot (h : s.Ends id act q) : match act with
    | .system (.crash w) => q.1 = w
    | .system (.runner w acc _) => q = (w, acc)
    | .abort p => q = p
    | _ => False := by
  cases h <;> rfl

/-- Where every leased job is held after a step, the step has ended no last holder. -/
theorem keepsHolder_of_allHeld (h : s.claimStep act = some s') (hheld : s'.AllHeld) :
    s.KeepsHolder act := by
  rintro id job hjob hleased ⟨p, hends, hp⟩
  have hfound : ∀ ended : Slot → Prop, s'.db.deliveryJobs.get? id = some job → LetGo s s' id ended →
      ∃ q, ¬ ended q ∧ ((s.view id).holder q).isSome = true := by
    intro ended hrow hletGo
    obtain ⟨q, hq⟩ := hheld id job hrow hleased
    exact ⟨q, hletGo q hq⟩
  cases hends with
  | crash =>
    obtain ⟨hdb, hletGo⟩ := letGo_crash p.1 h
    obtain ⟨q, hne, hq⟩ := hfound _ (hdb ▸ hjob) (hletGo id)
    exact ⟨q, fun hends => hne hends.slot, hq⟩
  | abort =>
    cases h
    obtain ⟨q, hne, hq⟩ := hfound _ hjob letGo_abort
    exact ⟨q, fun hends => hne hends.slot, hq⟩
  | unplannable _ now job' hjob' hplan hclaimed =>
    obtain ⟨hdb, hletGo⟩ := ended_unplannable h hjob' hplan hclaimed
    obtain ⟨q, hne, hq⟩ := hfound _ (hdb ▸ hjob) hletGo
    exact ⟨q, fun hends => hne hends.slot, hq⟩
  | recorded _ now clock draw raises =>
    obtain ⟨hrow, hletGo⟩ := ended_recorded h hjob hleased hp
    obtain ⟨q, hne, hq⟩ := hfound _ hrow hletGo
    exact ⟨q, fun hends => hne hends.slot, hq⟩

/-! ## Runs -/

theorem allHosting_abort (hs : AllHosting s) : AllHosting (s.abort p) := by
  intro w
  by_cases hw : w = p.1
  · subst hw
    simp only [abort, Function.update_self]
    refine ⟨fun acc => ?_, (hs p.1).assigning⟩
    rw [← (hs p.1).runners acc]
    dsimp only
    by_cases hacc : acc = p.2
    · subst hacc
      rw [Function.update_self]
      cases (s.workers p.1).runners p.2 <;> rfl
    · rw [Function.update_of_ne hacc]
  · simp only [abort, Function.update_of_ne hw]
    exact hs w

theorem allHosting_claimStep (h : s.claimStep act = some s') (hs : AllHosting s) : AllHosting s' := by
  cases act with
  | system a => exact allHosting_step s a s' h hs
  | insert job =>
    simp only [claimStep] at h
    split at h <;> cases h
    exact hs
  | abort p =>
    cases h
    exact allHosting_abort hs

theorem holder_abort (hne : q ≠ p) : ((s.abort p).view id).holder q = (s.view id).holder q := by
  obtain ⟨w, acc⟩ := q
  obtain ⟨w', acc'⟩ := p
  by_cases hw : w = w'
  · subst hw
    have hacc : acc ≠ acc' := fun heq => hne (by rw [heq])
    simp [view, abort, hacc]
  · simp [view, abort, hw]

theorem allHeld_claimStep (h : s.claimStep act = some s') (hs : AllHosting s) (hheld : s.AllHeld)
    (hkeeps : s.KeepsHolder act) : s'.AllHeld := by
  cases act with
  | system a => exact allHeld_step h hs hheld hkeeps
  | insert job₀ =>
    simp only [claimStep] at h
    split at h
    · cases h
    · rename_i hnew
      cases h
      intro id job hjob hleased
      simp only [Table.get?_insert] at hjob
      split at hjob
      · cases hjob
        exact absurd hleased hnew
      · exact hheld id job hjob hleased
  | abort p =>
    cases h
    intro id job hjob hleased
    obtain ⟨q, hq⟩ := hheld id job hjob hleased
    by_cases hqp : q = p
    · subst hqp
      obtain ⟨q', hnot, hq'⟩ := hkeeps id job hjob hleased ⟨q, .abort q, hq⟩
      have hne : q' ≠ q := by
        rintro rfl
        exact hnot (.abort q')
      exact ⟨q', by rw [holder_abort hne]; exact hq'⟩
    · exact ⟨q, by rw [holder_abort hqp]; exact hq⟩

theorem holder_none_step (h : s.claimStep act = some s') (hq : (s.view id).holder q = none)
    (hother : ∀ x, act ≠ .system (.runner q.1 q.2 x)) : (s'.view id).holder q = none := by
  cases act with
  | system a =>
    obtain ⟨l, hfrom, hl⟩ := view_step h id
    by_contra hnot
    obtain ⟨stage, hstage⟩ := Option.ne_none_iff_exists'.mp hnot
    rcases JobView.holder_cases hl hstage with hbefore | hchange
    · rw [hq] at hbefore
      cases hbefore
    · rcases hchange.of_claim_or_holder with ⟨attemptCount, now, rfl⟩ | hsome
      · obtain ⟨_, _, _, _, rfl, -⟩ := hfrom
        exact hother _ rfl
      · rw [hq] at hsome
        cases hsome
  | insert job =>
    simp only [claimStep] at h
    split at h <;> cases h
    exact hq
  | abort p =>
    cases h
    by_cases hqp : q = p
    · subst hqp
      have hletGo : LetGo s (s.abort q) id fun q' => q' = q := letGo_abort
      by_contra hnot
      exact (hletGo q (Option.isSome_iff_ne_none.mpr hnot)).1 rfl
    · rw [holder_abort hqp, hq]

end System

/-- Leased jobs stay within reach all along a run if and only if no step ends the last call that
holds one. -/
theorem leased_jobs_recoverable_iff (config : WorkerId → WorkerConfig) (as : List ClaimAct) :
    Machine.Always System.claimStep (fun _ _ s' => s'.NoOrphan) (.start config) as ↔
      Machine.Always System.claimStep (fun s a _ => s.KeepsHolder a) (.start config) as := by
  apply Machine.always_iff_of_invariant (I := fun s : System => s.AllHosting ∧ s.AllHeld)
  · intro s a s' h hs hno
    exact ⟨System.allHosting_claimStep h hs.1, System.noOrphan_iff.mp hno⟩
  · intro s a s' h hs
    rw [System.noOrphan_iff]
    exact ⟨System.keepsHolder_of_allHeld h, System.allHeld_claimStep h hs.1 hs.2⟩
  · refine ⟨System.allHosting_start config, fun id job hjob _ => ?_⟩
    cases hjob

/-! ## A process that dies -/

/-- Worker `w1` hosts account `A` and claims its reply. -/
def claimedReply : List ClaimAct := (queuedReply ++ claimSteps "w1" "A" [0] 0).map .system

theorem crash_orphans_job : ¬ ∀ (config : WorkerId → WorkerConfig) (as : List ClaimAct),
    Machine.Always System.claimStep (fun _ _ s' => s'.NoOrphan) (.start config) as := by
  intro h
  have hobserved : ((Machine.run System.claimStep (.start fun _ => {}) claimedReply).bind fun s =>
      (s.claimStep (.system (.crash "w1"))).map fun s' =>
        ((s'.db.deliveryJobs.get? 0).map DeliveryJob.status, (s'.view 0).holder ("w1", "A"))) =
          some (some .leased, none) := by
    decide +kernel
  obtain ⟨s, s', hrun, hstep, hs'⟩ :=
    Machine.exists_of_observed (f := fun _ (s' : System) => _) hobserved
  simp only [Prod.mk.injEq, Option.map_eq_some_iff] at hs'
  obtain ⟨⟨job, hjob, hleased⟩, hnone⟩ := hs'
  refine Machine.not_always_of_step hrun hstep (fun hno => ?_) (h _ _)
  obtain ⟨q, hq⟩ := System.noOrphan_iff.mp hno 0 job hjob hleased
  by_cases hslot : q = ("w1", "A")
  · rw [hslot, hnone] at hq
    cases hq
  · have hothers : ∀ act ∈ claimedReply ++ [.system (.crash "w1")],
        ∀ x, act ≠ .system (.runner q.1 q.2 x) := by
      rintro act hact x rfl
      simp [claimedReply, queuedReply, assignSteps, claimSteps, Prod.ext_iff] at hact hslot
      grind
    have hwhole : Machine.run System.claimStep (.start fun _ => {})
        (claimedReply ++ [.system (.crash "w1")]) = some s' := by
      rw [Machine.run_append_of_eq hrun]
      simpa [Machine.run_cons] using hstep
    have hnever : (s'.view 0).holder q = none :=
      (Machine.always_of_mem (P := fun _ act _ => ∀ x, act ≠ .system (.runner q.1 q.2 x))
        fun act hact _ _ => hothers act hact).invariant
          (fun _ _ _ h hother hq => System.holder_none_step h hq hother) hwhole rfl
    rw [hnever] at hq
    cases hq

end TgPlatform
