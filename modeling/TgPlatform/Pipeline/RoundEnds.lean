import Mathlib.Data.List.Find
import TgPlatform.Pipeline.Attempts
import TgPlatform.Pipeline.StatusEdges
import TgPlatform.Worker.Rounds

/-! # Rounds end

Each turn of a round takes a job out of the ready ones, or it puts the job back
with one attempt less to go. The exception is a job that is stopped for its
rate when its attempts are used up: no due time is set for it, so the next turn
finds it as the last one did.
-/

namespace TgPlatform

variable {settings : Set RunnerDeps} {policy : RetryPolicy} {accountId : AccountId} {now : Time}
  {x : SendAnswers} {db db' db₁ : Database} {r : Runner} {h : Holding} {id : JobId}
  {seen job : DeliveryJob}

/-! ## Counted attempts -/

namespace Database

theorem Counted.of_kept (hc : db.Counted) (hkept : db.AttemptsKept db') : db'.Counted := by
  rw [counted_iff] at hc ⊢
  intro id n hn
  obtain ⟨job, hjob, hle⟩ := hc id n ((hkept.attempted id n).mp hn)
  obtain ⟨job', hjob', hcount⟩ := hkept.stored id job hjob
  exact ⟨job', hjob', hcount ▸ hle⟩

theorem Counted.claim (hc : db.Counted) (hseen : db.deliveryJobs.get? id = some seen) (generation : ℤ) :
    (db.claim id seen generation now now).Counted := by
  rw [counted_iff] at hc ⊢
  intro i n hn
  have hjobs : (db.claim id seen generation now now).deliveryJobs =
      db.deliveryJobs.update id fun j => j.lease (seen.attemptCount + 1) now := rfl
  rw [attempted_insert (a := ⟨id, seen.attemptCount + 1, generation, now, none, none, none, none⟩) i
    n rfl] at hn
  rw [hjobs]
  by_cases hid : id = i
  · subst hid
    refine ⟨seen.lease (seen.attemptCount + 1) now, by rw [Table.get?_update_self, hseen]; rfl, ?_⟩
    rcases hn with hn | ⟨-, rfl⟩
    · obtain ⟨job, hjob, hle⟩ := hc id n hn
      obtain rfl : seen = job := Option.some.inj (hseen.symm.trans hjob)
      simp only [DeliveryJob.lease]
      omega
    · exact le_rfl
  · rw [Table.get?_update_of_ne hid]
    rcases hn with hn | ⟨rfl, -⟩
    · exact hc i n hn
    · exact absurd rfl hid

end Database

/-! ## The claimed job -/

/-- In a counted database the claim takes the first candidate that is due. -/
theorem claimFirst_eq (hc : db.Counted) (generation : ℤ) {candidates : List (JobId × DeliveryJob)}
    (hready : ∀ c ∈ candidates, db.deliveryJobs.get? c.1 = some c.2 ∧ c.2.status = .ready) :
    claimFirst db generation now candidates =
      match candidates.find? fun c => c.2.due now with
      | none => .nothing
      | some (id, seen) => .claimed id (db.claim id seen generation now now) := by
  induction candidates with
  | nil => rfl
  | cons c rest ih =>
    obtain ⟨id, seen⟩ := c
    obtain ⟨hstored, hstatus⟩ := hready (id, seen) List.mem_cons_self
    unfold claimFirst
    cases hdue : seen.due now with
    | false =>
      rw [List.find?_cons_of_neg (by simp [hdue])]
      exact ih fun c hmem => hready c (List.mem_cons_of_mem _ hmem)
    | true =>
      rw [List.find?_cons_of_pos (by exact hdue), Database.tryClaim_of_counted hc hstored hstatus]
      rfl

def firstDue (db : Database) (order : List JobId) (now : Time) : Option (JobId × DeliveryJob) :=
  (db.deliveryJobs.fetch order).find? fun c => c.2.due now

theorem claimable_of_mem (horder : db.ReadyOrder accountId x.order)
    (hmem : (id, seen) ∈ db.deliveryJobs.fetch x.order) :
    db.deliveryJobs.get? id = some seen ∧ seen.accountId = accountId ∧ seen.status = .ready := by
  obtain ⟨hin, hstored⟩ := Table.mem_fetch.mp hmem
  obtain ⟨job, hjob, hready⟩ := horder.mem_iff.mp hin
  obtain rfl : job = seen := Option.some.inj (hjob.symm.trans hstored)
  exact ⟨hstored, of_decide_eq_true hready⟩

theorem claimHeld_eq (hc : db.Counted) (horder : db.ReadyOrder accountId x.order) :
    claimHeld accountId now x db r =
      match firstDue db x.order now with
      | none => .nothing
      | some (id, seen) =>
        match hold x.deps accountId id (seen.lease (seen.attemptCount + 1) now) with
        | none => .raised
        | some h => .held (db.claim id seen r.generation now now) h := by
  have hready : ∀ c ∈ db.deliveryJobs.fetch x.order,
      db.deliveryJobs.get? c.1 = some c.2 ∧ c.2.status = .ready := by
    rintro ⟨id, seen⟩ hmem
    obtain ⟨hstored, -, hstatus⟩ := claimable_of_mem horder hmem
    exact ⟨hstored, hstatus⟩
  have hclaim : claimFirst db r.generation now (db.deliveryJobs.fetch x.order) =
      match firstDue db x.order now with
      | none => .nothing
      | some (id, seen) => .claimed id (db.claim id seen r.generation now now) :=
    claimFirst_eq hc r.generation hready
  unfold claimHeld
  rw [hclaim]
  cases hfirst : firstDue db x.order now with
  | none => rfl
  | some c =>
    obtain ⟨id, seen⟩ := c
    obtain ⟨hstored, -, -⟩ := claimable_of_mem horder (List.mem_of_find?_eq_some hfirst)
    have hleased : (db.claim id seen r.generation now now).deliveryJobs.get? id =
        some (seen.lease (seen.attemptCount + 1) now) := by
      unfold Database.claim
      rw [Table.get?_update_self, hstored]
      rfl
    dsimp only
    have hheld : ((db.claim id seen r.generation now now).deliveryJobs.get? id).bind
        (hold x.deps accountId id) =
          hold x.deps accountId id (seen.lease (seen.attemptCount + 1) now) := by
      rw [hleased]
      rfl
    cases hhold : hold x.deps accountId id (seen.lease (seen.attemptCount + 1) now) with
    | none => simp only [hheld, hhold]
    | some h => simp only [hheld, hhold]

structure ClaimOf (x : SendAnswers) (accountId : AccountId) (now : Time) (db : Database) (r : Runner)
    (seen : DeliveryJob) (db₁ : Database) (h : Holding) : Prop where
  first : firstDue db x.order now = some (h.id, seen)
  stored : db.deliveryJobs.get? h.id = some seen
  account : seen.accountId = accountId
  ready : seen.status = .ready
  due : seen.due now = true
  job : h.job = seen.lease (seen.attemptCount + 1) now
  live : h.live = x.deps.live accountId
  plan : heldPlan x.deps h.job = some h.plan
  claimed : db₁ = db.claim h.id seen r.generation now now

theorem claimHeld_held (hc : db.Counted) (horder : db.ReadyOrder accountId x.order)
    (hheld : claimHeld accountId now x db r = .held db₁ h) :
    ∃ seen, ClaimOf x accountId now db r seen db₁ h := by
  rw [claimHeld_eq hc horder] at hheld
  cases hfirst : firstDue db x.order now with
  | none =>
    rw [hfirst] at hheld
    cases hheld
  | some c =>
    obtain ⟨id, seen⟩ := c
    rw [hfirst] at hheld
    dsimp only at hheld
    cases hhold : hold x.deps accountId id (seen.lease (seen.attemptCount + 1) now) with
    | none =>
      rw [hhold] at hheld
      cases hheld
    | some h' =>
      rw [hhold] at hheld
      cases hheld
      obtain ⟨rfl, hjob, hlive, hplan⟩ := System.hold_eq_some hhold
      obtain ⟨hstored, hacc, hstatus⟩ := claimable_of_mem horder (List.mem_of_find?_eq_some hfirst)
      have hdue : seen.due now = true := by
        simpa using List.find?_some hfirst
      rw [← hjob] at hplan
      exact ⟨seen, hfirst, hstored, hacc, hstatus, hdue, hjob, hlive, hplan, rfl⟩

namespace ClaimOf

variable (hc : ClaimOf x accountId now db r seen db₁ h)
include hc

theorem leased : db₁.deliveryJobs.get? h.id = some h.job ∧ h.job.status = .leased := by
  rw [hc.claimed, Database.claim, Table.get?_update_self, hc.stored, hc.job]
  exact ⟨rfl, rfl⟩

theorem moved (dst : JobStatus) (fields : StatusFields) :
    ((db₁.transition h.id .leased dst fields now).getD db₁) = { db₁ with
      deliveryJobs := db.deliveryJobs.update h.id fun j =>
        (j.lease (seen.attemptCount + 1) now).move dst fields now } := by
  obtain ⟨hstored, hleased⟩ := hc.leased
  have hcas : db₁.deliveryJobs.cas h.id (fun j => j.status = .leased) (fun j => j.move dst fields now) =
      some (db₁.deliveryJobs.update h.id fun j => j.move dst fields now) :=
    Table.cas_eq_some.mpr ⟨h.job, hstored, decide_eq_true hleased, rfl⟩
  rw [Database.transition, hcas, Option.map_some, Option.getD_some]
  have hjobs : db₁.deliveryJobs.update h.id (fun j => j.move dst fields now) =
      db.deliveryJobs.update h.id fun j =>
        (j.lease (seen.attemptCount + 1) now).move dst fields now := by
    rw [hc.claimed, Database.claim, Table.update_update]
    rfl
  rw [hjobs]

end ClaimOf

/-! ## The measure -/

/-- How often a job can still be sent in this round. -/
def sendsLeft (policy : RetryPolicy) (accountId : AccountId) (now : Time) (job : DeliveryJob) : ℕ :=
  if job.accountId = accountId ∧ (job.status = .ready ∨ job.stale accountId now = true) then
    (policy.maxAttempts - job.attemptCount).toNat + 1
  else 0

theorem sendsLeft_ready (hacc : job.accountId = accountId) (hready : job.status = .ready) :
    sendsLeft policy accountId now job = (policy.maxAttempts - job.attemptCount).toNat + 1 :=
  if_pos ⟨hacc, Or.inl hready⟩

theorem sendsLeft_requeue (h : job.stale accountId now = true) :
    sendsLeft policy accountId now (job.requeue now) = sendsLeft policy accountId now job := by
  have hacc : job.accountId = accountId := by
    simp only [DeliveryJob.stale, Bool.and_eq_true, decide_eq_true_eq] at h
    exact h.1.1
  rw [sendsLeft_ready (by exact hacc) rfl, sendsLeft, if_pos ⟨hacc, Or.inr h⟩]
  rfl

theorem sendsLeft_move (dst : JobStatus) (fields : StatusFields) (hdst : dst ≠ .ready) :
    sendsLeft policy accountId now (job.move dst fields now) = 0 := by
  rw [sendsLeft, if_neg]
  rintro ⟨-, hready | hstale⟩
  · exact hdst hready
  · simp only [DeliveryJob.stale, Bool.and_eq_true, decide_eq_true_eq] at hstale
    have hpast : now < now - sendingStale := hstale.2
    exact absurd hpast (Int.not_lt.mpr (Int.sub_le_self now (by decide)))

theorem total_reclaim : (db.reclaimStaleSending accountId now).deliveryJobs.total
    (sendsLeft policy accountId now) =
    db.deliveryJobs.total (sendsLeft policy accountId now) :=
  Table.total_updateWhere fun _ hstale => sendsLeft_requeue hstale

variable (policy) in
theorem ClaimOf.total_lt (hc : ClaimOf x accountId now db r seen db₁ h) {f : DeliveryJob → DeliveryJob}
    (hjobs : db'.deliveryJobs = db.deliveryJobs.update h.id f)
    (hf : sendsLeft policy accountId now (f seen) = 0 ∨
      seen.attemptCount + 1 < policy.maxAttempts ∧ sendsLeft policy accountId now (f seen) =
        (policy.maxAttempts - (seen.attemptCount + 1)).toNat + 1) :
    db'.deliveryJobs.total (sendsLeft policy accountId now) <
      db.deliveryJobs.total (sendsLeft policy accountId now) := by
  rw [hjobs]
  apply Table.total_update_lt hc.stored
  have hready : sendsLeft policy accountId now seen =
      (policy.maxAttempts - seen.attemptCount).toNat + 1 := sendsLeft_ready hc.account hc.ready
  omega

/-! ## One turn -/

inductive TurnLeaves (policy : RetryPolicy) (accountId : AccountId) (now : Time) (x : SendAnswers)
    (db : Database) (r : Runner) (seen : DeliveryJob) (h : Holding) (db' : Database) (r' : Runner) : Prop
  | halted : r'.halted ≠ none → TurnLeaves policy accountId now x db r seen h db' r'
  | settled (f : DeliveryJob → DeliveryJob) : db'.deliveryJobs = db.deliveryJobs.update h.id f →
      sendsLeft policy accountId now (f seen) = 0 → TurnLeaves policy accountId now x db r seen h db' r'
  | putBack : h.decide r.generation x.deps.policy now = .blockedRate → db'.deliveryJobs =
        db.deliveryJobs.update h.id (fun j => (j.lease (seen.attemptCount + 1) now).move .ready
          { nextAttemptAt := nextAttemptAt x.deps.retryPolicy h.attemptNo now x.draw } now) →
      TurnLeaves policy accountId now x db r seen h db' r'

theorem recordOutcome_jobs (r : Runner) (d : RunnerDeps) (h : Holding) (result : DeliveryResult)
    (draw : ℤ) (raises : Bool) :
    (r.recordOutcome d db h result now now draw raises).db.deliveryJobs = db.deliveryJobs ∨
      ∃ dst fields, dst ≠ .ready ∧
        (r.recordOutcome d db h result now now draw raises).db.deliveryJobs =
          db.deliveryJobs.update h.id fun j => j.move dst fields now := by
  obtain ⟨_, ⟨db', hrecord, hafter⟩ | ⟨_, hafter⟩⟩ :=
    Runner.recordOutcome_cases d db r h result now now draw raises <;> rw [hafter]
  · obtain ⟨_, _, _, _, _, _, rfl⟩ := Database.recordResult_eq_recorded hrecord
    right
    refine ⟨_, _, ?_, rfl⟩
    intro hready
    have hedge := resultFields_edge d.retryPolicy h.attemptNo now draw result
    rw [hready] at hedge
    cases hedge
  · exact Or.inl rfl

variable (policy) in
theorem sendHeld_returned (hc : ClaimOf x accountId now db r seen db₁ h) {r' : Runner}
    (hreturned : sendHeld now x db₁ r h = some (.returned db' r')) :
    TurnLeaves policy accountId now x db r seen h db' r' := by
  unfold sendHeld at hreturned
  dsimp only at hreturned
  cases hdecision : h.decide r.generation x.deps.policy now with
  | allow =>
    rw [hdecision, if_neg (by simp)] at hreturned
    simp only [Runner.settleGate, hc.moved] at hreturned
    split at hreturned
    · cases hreturned
    · split at hreturned
      · cases hreturned
      · cases hreturned
        rcases recordOutcome_jobs _ _ h _ _ _ with hjobs | ⟨dst, fields, hdst, hjobs⟩
        · refine .settled _ hjobs ?_
          exact sendsLeft_move _ _ (by simp)
        · rw [Table.update_update] at hjobs
          refine .settled _ hjobs ?_
          exact sendsLeft_move _ _ hdst
  | blockedLease =>
    rw [hdecision, if_pos (by simp)] at hreturned
    cases hreturned
    exact .halted (by simp [Runner.settleGate])
  | blockedRate =>
    rw [hdecision, if_pos (by simp)] at hreturned
    cases hreturned
    refine .putBack hdecision ?_
    simp only [Runner.settleGate]
    rw [hc.moved]
  | _ =>
    rw [hdecision, if_pos (by simp)] at hreturned
    cases hreturned
    simp only [Runner.settleGate, hc.moved]
    refine .settled _ rfl ?_
    exact sendsLeft_move _ _ (by simp)

theorem Database.Counted.reclaim (hc : db.Counted) : (db.reclaimStaleSending accountId now).Counted :=
  hc.of_kept (Database.attemptsKept_reclaim accountId now)

theorem sendNext_returned (hc : db.Counted) {r' : Runner}
    (hreturned : sendNext accountId now x db r = some (.returned db' r')) :
    (db.reclaimStaleSending accountId now).ReadyOrder accountId x.order ∧ ∃ db₁ h seen,
      claimHeld accountId now x (db.reclaimStaleSending accountId now) r = .held db₁ h ∧
      ClaimOf x accountId now (db.reclaimStaleSending accountId now) r seen db₁ h ∧
      sendHeld now x db₁ r h = some (.returned db' r') := by
  unfold sendNext at hreturned
  dsimp only at hreturned
  split at hreturned
  · rename_i horder
    refine ⟨horder, ?_⟩
    cases hheld : claimHeld accountId now x (db.reclaimStaleSending accountId now) r with
    | nothing =>
      rw [hheld] at hreturned
      cases hreturned
    | raised =>
      rw [hheld] at hreturned
      cases hreturned
    | held db₁ h =>
      rw [hheld] at hreturned
      obtain ⟨seen, hclaim⟩ := claimHeld_held hc.reclaim horder hheld
      exact ⟨db₁, h, seen, rfl, hclaim, hreturned⟩
  · cases hreturned

theorem sendNext_counted (hc : db.Counted) {r' : Runner}
    (hreturned : sendNext accountId now x db r = some (.returned db' r')) : db'.Counted := by
  obtain ⟨-, db₁, h, seen, -, hclaim, hreturned⟩ := sendNext_returned hc hreturned
  have hgated : ∀ decision, (r.settleGate x.deps db₁ h decision now now x.draw).db.Counted := by
    intro decision
    obtain ⟨_, _, hsettled⟩ := Runner.settleGate_eq x.deps db₁ r h decision now now x.draw
    rw [hsettled]
    apply Database.Counted.of_kept ?_ (Database.attemptsKept_transition ..)
    rw [hclaim.claimed]
    exact hc.reclaim.claim hclaim.stored _
  unfold sendHeld at hreturned
  dsimp only at hreturned
  split at hreturned
  · cases hreturned
    exact hgated _
  · split at hreturned
    · cases hreturned
    · split at hreturned
      · cases hreturned
      · cases hreturned
        obtain ⟨_, ⟨_, hrecord, hafter⟩ | ⟨_, hafter⟩⟩ := Runner.recordOutcome_cases x.deps
          (r.settleGate x.deps db₁ h (h.decide r.generation x.deps.policy now) now now x.draw).db
          (r.settleGate x.deps db₁ h (h.decide r.generation x.deps.policy now) now now x.draw).runner h
          (executeHeld now x _ h _) now now x.draw x.expungeRaises <;> rw [hafter]
        · exact (hgated _).of_kept (Database.attemptsKept_recordResult hrecord)
        · exact hgated _

namespace SendLoop

variable {s s' : SendLoop}

def left (policy : RetryPolicy) (accountId : AccountId) (now : Time) (s : SendLoop) : ℕ :=
  if s.runner.halted = none then s.db.deliveryJobs.total (sendsLeft policy accountId now) + 1 else 0

theorem left_lt (hturn : Turns settings policy accountId now s s')
    (hrate : ¬ RateBlocksExhausted settings policy accountId now s) :
    s'.left policy accountId now < s.left policy accountId now := by
  obtain ⟨hrunning, x, hx, hpolicy, hsend⟩ := hturn
  obtain ⟨horder, db₁, h, seen, hheld, hclaim, hreturned⟩ := sendNext_returned s.counted hsend
  unfold left
  rw [if_pos hrunning]
  cases sendHeld_returned policy hclaim hreturned with
  | halted hhalted =>
    rw [if_neg hhalted]
    omega
  | settled f hjobs hf =>
    have hlt := hclaim.total_lt policy hjobs (Or.inl hf)
    rw [total_reclaim] at hlt
    split <;> omega
  | putBack hdecision hjobs =>
    have hattempt : h.attemptNo = seen.attemptCount + 1 := by
      rw [Holding.attemptNo, hclaim.job]
      rfl
    have hbelow : h.attemptNo < policy.maxAttempts := by
      by_contra hused
      exact hrate ⟨hrunning, x, db₁, h, hx, hpolicy, horder, hheld, hdecision, by omega⟩
    have hlt := hclaim.total_lt policy hjobs
      (Or.inr ⟨by omega, sendsLeft_ready (by exact hclaim.account) rfl⟩)
    rw [total_reclaim] at hlt
    split <;> omega

end SendLoop

/-! ## The same turn again -/

theorem reclaim_again {dst : JobStatus} {fields : StatusFields} {n : ℤ}
    (hjobs : db'.deliveryJobs = (db.reclaimStaleSending accountId now).deliveryJobs.update id
      fun j => (j.lease n now).move dst fields now) :
    (db'.reclaimStaleSending accountId now).deliveryJobs = db'.deliveryJobs := by
  have hfresh : ∀ job : DeliveryJob, now ≤ job.updatedAt → job.stale accountId now = false := by
    intro job hle
    simp only [DeliveryJob.stale, Bool.and_eq_false_iff, decide_eq_false_iff_not]
    right
    exact Int.not_lt.mpr (Int.le_trans (Int.sub_le_self now (by decide)) hle)
  apply Table.updateWhere_of_none
  rw [Table.any_eq_false]
  intro i job hjob
  rw [hjobs, Table.get?_update, Database.reclaimStaleSending_get?] at hjob
  have hold : ∀ j : DeliveryJob,
      (if j.stale accountId now = true then j.requeue now else j).stale accountId now = false := by
    intro j
    split
    · exact hfresh _ (Int.le_refl now)
    · exact Bool.eq_false_iff.mpr ‹_›
  split at hjob
  · obtain ⟨_, _, rfl⟩ := Option.map_eq_some_iff.mp hjob
    exact hfresh _ (Int.le_refl now)
  · obtain ⟨j, _, rfl⟩ := Option.map_eq_some_iff.mp hjob
    exact hold j

/-- The claimed job, back in `ready` without a due time. -/
def putBack (seen : DeliveryJob) (now : Time) (j : DeliveryJob) : DeliveryJob :=
  (j.lease (seen.attemptCount + 1) now).move .ready {} now

theorem ClaimOf.again (hc : ClaimOf x accountId now (db.reclaimStaleSending accountId now) r seen db₁ h)
    (horder : (db.reclaimStaleSending accountId now).ReadyOrder accountId x.order)
    (hjobs : db'.deliveryJobs =
      (db.reclaimStaleSending accountId now).deliveryJobs.update h.id (putBack seen now)) :
    (db'.reclaimStaleSending accountId now).ReadyOrder accountId x.order ∧
      firstDue (db'.reclaimStaleSending accountId now) x.order now =
        some (h.id, putBack seen now seen) := by
  have hsame : (db'.reclaimStaleSending accountId now).deliveryJobs =
      (db.reclaimStaleSending accountId now).deliveryJobs.update h.id (putBack seen now) :=
    (reclaim_again hjobs).trans hjobs
  have honly : ∀ job, (db.reclaimStaleSending accountId now).deliveryJobs.get? h.id = some job →
    job = seen :=
    fun job hjob => Option.some.inj (hjob.symm.trans hc.stored)
  constructor
  · unfold Database.ReadyOrder
    rw [hsame]
    apply Table.Answers.update horder
    · intro job hjob
      obtain rfl := honly job hjob
      simp [putBack, DeliveryJob.move, DeliveryJob.lease, hc.ready]
    · intro job _
      rfl
  · unfold firstDue
    rw [hsame, Table.fetch_update, List.find?_map]
    have hdue : ∀ c ∈ (db.reclaimStaleSending accountId now).deliveryJobs.fetch x.order,
        ((fun c : JobId × DeliveryJob => c.2.due now) ∘ fun c =>
          if c.1 = h.id then (c.1, putBack seen now c.2) else c) c = c.2.due now := by
      rintro ⟨i, job⟩ hmem
      obtain ⟨-, hjob⟩ := Table.mem_fetch.mp hmem
      dsimp only [Function.comp_apply]
      split
      · rename_i hi
        subst hi
        obtain rfl := honly job hjob
        rw [hc.due]
        rfl
      · rfl
    have hfirst := hc.first
    unfold firstDue at hfirst
    rw [List.find?_congr hdue, hfirst]
    simp

theorem hold_again (hc : ClaimOf x accountId now db r seen db₁ h) (n : ℤ) :
    hold x.deps accountId h.id ((putBack seen now seen).lease n now) =
      some { h with job := (putBack seen now seen).lease n now } := by
  have hplan : heldPlan x.deps ((putBack seen now seen).lease n now) = some h.plan := by
    rw [← hc.plan, hc.job]
    rfl
  rw [hold, hplan, ← hc.live]
  rfl

namespace SendLoop

variable {s s' : SendLoop}

theorem rateBlocks_again (hs : RateBlocksExhausted settings policy accountId now s) :
    ∃ s', Turns settings policy accountId now s s' ∧
      RateBlocksExhausted settings policy accountId now s' := by
  obtain ⟨hrunning, x, db₁, h, hx, hpolicy, horder, hheld, hdecision, hused⟩ := hs
  obtain ⟨seen, hclaim⟩ := claimHeld_held s.counted.reclaim horder hheld
  have hdb₁ : db₁.Counted := by
    rw [hclaim.claimed]
    exact s.counted.reclaim.claim hclaim.stored _
  have hnone : nextAttemptAt x.deps.retryPolicy h.attemptNo now x.draw = none := by
    rw [hpolicy]
    exact if_pos hused
  let s' : SendLoop := {
    db := (db₁.transition h.id .leased .ready {} now).getD db₁
    runner := { s.runner with pc := .idle }
    counted := hdb₁.of_kept (Database.attemptsKept_transition ..) }
  have hturn : sendNext accountId now x s.db s.runner = some (.returned s'.db s'.runner) := by
    unfold sendNext
    rw [if_pos horder, hheld]
    dsimp only
    unfold sendHeld
    rw [hdecision, if_pos (by simp)]
    simp only [Runner.settleGate, hnone]
    rfl
  have hjobs : s'.db.deliveryJobs =
      (s.db.reclaimStaleSending accountId now).deliveryJobs.update h.id (putBack seen now) := by
    have hmoved := hclaim.moved .ready {}
    exact congrArg Database.deliveryJobs hmoved
  obtain ⟨horder', hfirst'⟩ := hclaim.again horder hjobs
  let job' := (putBack seen now seen).lease ((putBack seen now seen).attemptCount + 1) now
  have hheld' : claimHeld accountId now x (s'.db.reclaimStaleSending accountId now) s'.runner =
      .held ((s'.db.reclaimStaleSending accountId now).claim h.id (putBack seen now seen)
        s'.runner.generation now now) { h with job := job' } := by
    rw [claimHeld_eq s'.counted.reclaim horder', hfirst']
    dsimp only
    rw [hold_again hclaim]
  refine ⟨s', ⟨hrunning, x, hx, hpolicy, hturn⟩, hrunning, x, _, _, hx, hpolicy, horder', hheld', ?_, ?_⟩
  · rw [← hdecision]
    unfold Holding.decide Holding.checkable
    rw [hclaim.job]
    rfl
  · have hattempt : h.attemptNo = seen.attemptCount + 1 := by
      rw [Holding.attemptNo, hclaim.job]
      rfl
    have hnext : ({ h with job := job' } : Holding).attemptNo = seen.attemptCount + 1 + 1 := rfl
    omega

/-- A round ends exactly if it never stops a job for its rate when its attempts are used up. -/
theorem round_ends_iff (settings : Set RunnerDeps) (policy : RetryPolicy) (accountId : AccountId)
    (now : Time) (s : SendLoop) : Halts (Turns settings policy accountId now) s ↔
      ∀ s', Relation.ReflTransGen (Turns settings policy accountId now) s s' →
        ¬ RateBlocksExhausted settings policy accountId now s' :=
  Halts.iff_never (μ := left policy accountId now) (fun _ => rateBlocks_again) fun _ _ => left_lt

/-- What worker `w1` has while account `A` waits for a flood to end. -/
def flooded : RunnerDeps where
  rules := fun _ => []
  live := fun acc => {
    accountId := acc, generation := 1, sendState := .floodWait, floodWaitUntil := some 60000000 }
  policy := {}
  planHints := fun _ _ => none
  router := fun _ => true

/-- A reply whose attempts were used up and which an operator has set to `ready` again. -/
def retried : SendLoop where
  db := { Database.empty with
    deliveryJobs := Table.empty.insert (OperatorCall.retry.write
      { reply.job 0 with status := .deadLetter, attemptCount := 5 }) }
  runner := { generation := 1 }
  counted := fun _ _ ha => by cases ha

theorem flooded_round_never_ends : ¬ ∀ (settings : Set RunnerDeps) (policy : RetryPolicy)
    (accountId : AccountId) (now : Time) (s : SendLoop),
      Halts (Turns settings policy accountId now) s := by
  intro h
  have hstuck : RateBlocksExhausted {flooded} {} "A" 0 retried := by
    let x : SendAnswers := {
      deps := flooded, order := [0], maps := [], draw := 0
      outcome := .returned [], expungeRaises := false }
    refine ⟨rfl, x, _, _, rfl, rfl, ?_, rfl, ?_, ?_⟩
    · decide
    · decide
    · decide
  exact Halts.not_of_stuck (fun _ => rateBlocks_again) hstuck (h {flooded} {} "A" 0 retried)

end SendLoop

end TgPlatform
