import TgPlatform.Pipeline.Attempts
import TgPlatform.Pipeline.Leases
import TgPlatform.Pipeline.StatusEdges
import TgPlatform.Storage.Conflicts

/-! # The attempt log

A job in `leased` or `sending` is in its latest attempt, and every other attempt
has ended. A job that is put back, blocked or cancelled while it is leased
leaves its attempt open, and a sender that comes back late ends an attempt that
is not its own.
-/

namespace TgPlatform

def JobStatus.attempting (status : JobStatus) : Bool :=
  status ∈ [.leased, .sending]

def DeliveryAttempt.unfinished (a : DeliveryAttempt) : Bool :=
  a.finishedAt = none || a.resultStatus = none

namespace Database

/-- The number of the attempt that the job is in. -/
def currentAttempt (db : Database) (id : JobId) : Option ℤ :=
  ((db.deliveryJobs.get? id).filter fun job => job.status.attempting).map DeliveryJob.attemptCount

/-- An attempt of the job with this number has not ended. -/
def Unfinished (db : Database) (id : JobId) (n : ℤ) : Prop :=
  ∃ k a, db.deliveryAttempts.get? k = some a ∧ a.jobId = id ∧ a.attemptNo = n ∧ a.unfinished = true

def OthersEnded (db : Database) : Prop :=
  ∀ k b, db.deliveryAttempts.get? k = some b → b.finishedAt = none ∨ b.resultStatus = none →
    ∃ job, db.deliveryJobs.get? b.jobId = some job ∧
      (job.status = .leased ∨ job.status = .sending) ∧ job.attemptCount = b.attemptNo

/-- The unfinished attempts are the current ones, and no number is given twice. -/
structure Logged (db : Database) : Prop where
  unfinished : ∀ id n, db.Unfinished id n ↔ db.currentAttempt id = some n
  distinct : ∀ k k' a a', db.deliveryAttempts.get? k = some a → db.deliveryAttempts.get? k' = some a' →
    a.jobId = a'.jobId → a.attemptNo = a'.attemptNo → k = k'
  ended : ∀ k a, db.deliveryAttempts.get? k = some a → (a.finishedAt = none ↔ a.resultStatus = none)

variable {db db' : Database} {id : JobId} {n : ℤ} {job : DeliveryJob}

theorem currentAttempt_of_some (hjob : db.deliveryJobs.get? id = some job) :
    db.currentAttempt id = if job.status.attempting then some job.attemptCount else none := by
  unfold currentAttempt
  rw [hjob]
  cases hstatus : job.status.attempting <;> simp [Option.filter_some, hstatus]

theorem currentAttempt_eq_some : db.currentAttempt id = some n ↔
    ∃ job, db.deliveryJobs.get? id = some job ∧ job.status.attempting = true ∧ job.attemptCount = n := by
  unfold currentAttempt
  simp only [Option.map_eq_some_iff, Option.filter_eq_some_iff, and_assoc]

theorem currentAttempt_of_none (hjob : db.deliveryJobs.get? id = none) :
    db.currentAttempt id = none := by
  simp [currentAttempt, hjob]

theorem currentAttempt_congr (hjob : db'.deliveryJobs.get? id = db.deliveryJobs.get? id) :
    db'.currentAttempt id = db.currentAttempt id := by
  rw [currentAttempt, hjob]
  rfl

namespace Logged

theorem of_same (hlog : db.Logged) (hattempts : db'.deliveryAttempts = db.deliveryAttempts)
    (hcurrent : ∀ id, db'.currentAttempt id = db.currentAttempt id) : db'.Logged := by
  have hunfinished : ∀ id n, db'.Unfinished id n ↔ db.Unfinished id n := by
    intro id n
    unfold Unfinished
    rw [hattempts]
  constructor
  · intro id n
    rw [hunfinished, hcurrent]
    exact hlog.unfinished id n
  · rw [hattempts]
    exact hlog.distinct
  · rw [hattempts]
    exact hlog.ended

theorem ends (hlog : db.Logged) {p : DeliveryAttempt → Bool} {f : DeliveryAttempt → DeliveryAttempt}
    (hattempts : db'.deliveryAttempts = db.deliveryAttempts.updateWhere p f)
    (hkeys : ∀ a, (f a).jobId = a.jobId ∧ (f a).attemptNo = a.attemptNo)
    (hends : ∀ a, (f a).finishedAt ≠ none ∧ (f a).resultStatus ≠ none) (gone : JobId → ℤ → Prop)
    (hp : ∀ k a, db.deliveryAttempts.get? k = some a → a.unfinished = true →
      (p a = true ↔ gone a.jobId a.attemptNo))
    (hcurrent : ∀ id n, db'.currentAttempt id = some n ↔ db.currentAttempt id = some n ∧ ¬ gone id n) :
    db'.Logged := by
  have hkept : ∀ a, (if p a then f a else a).jobId = a.jobId ∧
      (if p a then f a else a).attemptNo = a.attemptNo := by
    intro a
    split
    · exact hkeys a
    · exact ⟨rfl, rfl⟩
  have hrow : ∀ k a', db'.deliveryAttempts.get? k = some a' →
      ∃ a, db.deliveryAttempts.get? k = some a ∧ a' = if p a then f a else a := by
    intro k a' ha'
    rw [hattempts, Table.get?_updateWhere] at ha'
    obtain ⟨a, ha, rfl⟩ := Option.map_eq_some_iff.mp ha'
    exact ⟨a, ha, rfl⟩
  constructor
  · intro id n
    rw [hcurrent, ← hlog.unfinished]
    constructor
    · rintro ⟨k, a', ha', hid, hn, hopen⟩
      obtain ⟨a, ha, rfl⟩ := hrow k a' ha'
      rw [(hkept a).1] at hid
      rw [(hkept a).2] at hn
      cases hpa : p a with
      | true =>
        rw [hpa, if_pos rfl] at hopen
        simp [DeliveryAttempt.unfinished, hends a] at hopen
      | false =>
        rw [hpa, if_neg (by simp)] at hopen
        refine ⟨⟨k, a, ha, hid, hn, hopen⟩, ?_⟩
        intro hgone
        rw [← hid, ← hn, ← hp k a ha hopen, hpa] at hgone
        cases hgone
    · rintro ⟨⟨k, a, ha, hid, hn, hopen⟩, hstays⟩
      have hpa : p a = false := by
        by_contra hpa
        rw [Bool.not_eq_false, hp k a ha hopen, hid, hn] at hpa
        exact hstays hpa
      refine ⟨k, a, ?_, hid, hn, hopen⟩
      rw [hattempts, Table.get?_updateWhere, ha, Option.map_some, hpa]
      rfl
  · intro k k' a' b' ha' hb' hid hn
    obtain ⟨a, ha, rfl⟩ := hrow k a' ha'
    obtain ⟨b, hb, rfl⟩ := hrow k' b' hb'
    rw [(hkept a).1, (hkept b).1] at hid
    rw [(hkept a).2, (hkept b).2] at hn
    exact hlog.distinct k k' a b ha hb hid hn
  · intro k a' ha'
    obtain ⟨a, ha, rfl⟩ := hrow k a' ha'
    split
    · simp [hends a]
    · exact hlog.ended k a ha

theorem begins (hlog : db.Logged) {a : DeliveryAttempt} {now : Time}
    (hjob : db.deliveryJobs.get? a.jobId = some job) (hready : job.status = .ready)
    (hfresh : ∀ k b, db.deliveryAttempts.get? k = some b →
      ¬(b.jobId = a.jobId ∧ b.attemptNo = a.attemptNo))
    (hopen : a.finishedAt = none ∧ a.resultStatus = none)
    (hjobs : db'.deliveryJobs = db.deliveryJobs.update a.jobId fun j => j.lease a.attemptNo now)
    (hattempts : db'.deliveryAttempts = db.deliveryAttempts.insert a) : db'.Logged := by
  have hnone : db.currentAttempt a.jobId = none := by
    rw [currentAttempt_of_some hjob, hready]
    rfl
  have hnew : db'.currentAttempt a.jobId = some a.attemptNo := by
    have hleased : db'.deliveryJobs.get? a.jobId = some (job.lease a.attemptNo now) := by
      rw [hjobs, Table.get?_update_self, hjob]
      rfl
    rw [currentAttempt_of_some hleased]
    rfl
  have hrow : ∀ k b, db'.deliveryAttempts.get? k = some b →
      k = db.deliveryAttempts.size ∧ b = a ∨ db.deliveryAttempts.get? k = some b := by
    intro k b hb
    rw [hattempts, Table.get?_insert] at hb
    split at hb
    · exact Or.inl ⟨‹_›, (Option.some.inj hb).symm⟩
    · exact Or.inr hb
  have hkept : ∀ k b, db.deliveryAttempts.get? k = some b → db'.deliveryAttempts.get? k = some b := by
    intro k b hb
    rw [hattempts]
    exact Table.get?_append_of_some hb
  constructor
  · intro id n
    by_cases hid : a.jobId = id
    · subst hid
      rw [hnew]
      constructor
      · rintro ⟨k, b, hb, hbid, hbn, hbopen⟩
        rcases hrow k b hb with ⟨_, rfl⟩ | hold
        · rw [hbn]
        · have hcurrent := (hlog.unfinished a.jobId n).mp ⟨k, b, hold, hbid, hbn, hbopen⟩
          rw [hnone] at hcurrent
          cases hcurrent
      · intro hn
        refine ⟨db.deliveryAttempts.size, a, ?_, rfl, Option.some.inj hn, ?_⟩
        · rw [hattempts, Table.get?_insert, if_pos rfl]
        · simp [DeliveryAttempt.unfinished, hopen.1]
    · have hsame : db'.currentAttempt id = db.currentAttempt id := by
        apply currentAttempt_congr
        rw [hjobs, Table.get?_update_of_ne hid]
      rw [hsame, ← hlog.unfinished]
      constructor
      · rintro ⟨k, b, hb, hbid, hbn, hbopen⟩
        rcases hrow k b hb with ⟨_, rfl⟩ | hold
        · exact absurd hbid hid
        · exact ⟨k, b, hold, hbid, hbn, hbopen⟩
      · rintro ⟨k, b, hb, hbid, hbn, hbopen⟩
        exact ⟨k, b, hkept k b hb, hbid, hbn, hbopen⟩
  · intro k k' b b' hb hb' hid hn
    rcases hrow k b hb with ⟨hk, rfl⟩ | hold <;> rcases hrow k' b' hb' with ⟨hk', rfl⟩ | hold'
    · rw [hk, hk']
    · exact absurd ⟨hid.symm, hn.symm⟩ (hfresh k' b' hold')
    · exact absurd ⟨hid, hn⟩ (hfresh k b hold)
    · exact hlog.distinct k k' b b' hold hold' hid hn
  · intro k b hb
    rcases hrow k b hb with ⟨_, rfl⟩ | hold
    · simp [hopen]
    · exact hlog.ended k b hold

end Logged

end Database

/-! ## What a step writes -/

/-- The stored jobs stay as they are, and new ones are in no attempt. -/
structure Database.JobsKept (db db' : Database) : Prop where
  stored : ∀ id job, db.deliveryJobs.get? id = some job → db'.deliveryJobs.get? id = some job
  created : ∀ id job, db.deliveryJobs.get? id = none → db'.deliveryJobs.get? id = some job →
    job.status.attempting = false

theorem Database.JobsKept.of_eq {db db' : Database} (h : db'.deliveryJobs = db.deliveryJobs) :
    db.JobsKept db' := by
  constructor
  · rw [h]
    exact fun _ _ hjob => hjob
  · rw [h]
    intro id job hnone hjob
    rw [hnone] at hjob
    cases hjob

theorem Database.JobsKept.of_append {db db' : Database} {added : List DeliveryJob}
    (h : db'.deliveryJobs = db.deliveryJobs.append added)
    (hadded : ∀ job ∈ added, job.status.attempting = false) : db.JobsKept db' := by
  constructor
  · intro id job hjob
    rw [h]
    exact Table.get?_append_of_some hjob
  · intro id job hnone hjob
    rw [h] at hjob
    rcases Table.get?_append_cases hjob with hold | ⟨_, hnew⟩
    · rw [hnone] at hold
      cases hold
    · exact hadded job (List.mem_of_getElem? hnew)

theorem Database.JobsKept.currentAttempt {db db' : Database} (h : db.JobsKept db') (id : JobId) :
    db'.currentAttempt id = db.currentAttempt id := by
  cases hjob : db.deliveryJobs.get? id with
  | some job =>
    apply Database.currentAttempt_congr
    rw [h.stored id job hjob, hjob]
  | none =>
    rw [Database.currentAttempt_of_none hjob]
    cases hjob' : db'.deliveryJobs.get? id with
    | none => exact Database.currentAttempt_of_none hjob'
    | some job' =>
      rw [Database.currentAttempt_of_some hjob', h.created id job' hjob hjob']
      rfl

inductive JobWrite (s : System) : Action → Database → Prop
  | kept (a : Action) (db' : Database) : s.db.JobsKept db' →
      db'.deliveryAttempts = s.db.deliveryAttempts → JobWrite s a db'
  | claimed (w : WorkerId) (acc : AccountId) (now at_ : Time) (id : JobId) (seen : DeliveryJob)
      (generation : ℤ) (db' : Database) :
      s.db.tryClaim id seen generation at_ now = .claimed db' →
      JobWrite s (.runner w acc (.tryNext now)) db'
  | settled (w : WorkerId) (acc : AccountId) (now clock : Time) (draw : ℤ) (r : Runner) (h : Holding)
      (decision : Decision) (fields : StatusFields) : (s.workers w).runners acc = some r →
      r.pc = .gated h decision → JobWrite s (.runner w acc (.settle now clock draw))
        ((s.db.transition h.id .leased decision.target fields now).getD s.db)
  | recorded (w : WorkerId) (acc : AccountId) (now clock : Time) (draw : ℤ) (raises : Bool) (r : Runner)
      (h : Holding) (called : Option TransportRequest) (result : DeliveryResult) (db' : Database) :
      (s.workers w).runners acc = some r → r.pc = .recording h called result →
      s.db.recordResult h.id h.job h.attemptNo
        (resultFields (s.workers w).deps.retryPolicy h.attemptNo clock draw result) now raises =
          .recorded db' →
      JobWrite s (.runner w acc (.record now clock draw raises)) db'
  | reclaimed (w : WorkerId) (acc : AccountId) (now : Time) :
      JobWrite s (.runner w acc (.reclaim now)) (s.db.reclaimStaleSending acc now)
  | cancelled (w : WorkerId) (id : JobId) (src : JobStatus) (now : Time) (db' : Database) :
      src ∈ cancellableByCommand → s.db.transition id src .cancelled {} now = some db' →
      JobWrite s (.host w (.cancelJob id src now)) db'
  | operated (k : ℕ) (call : OperatorCall) (id : JobId) : s.requests[k]? = some (call, id) →
      JobWrite s (.operatorWrite k)
        { s.db with deliveryJobs := s.db.deliveryJobs.update id call.write }

variable {s s' : System} {a : Action}

theorem not_attempting_of_new {status : JobStatus} (h : status ∈ [JobStatus.ready, .waitingApproval]) :
    status.attempting = false := by
  cases status <;> simp_all [JobStatus.attempting]

theorem jobWrite_of_step (h : s.step a = some s') : JobWrite s a s'.db := by
  cases a with
  | runner w acc x =>
    obtain ⟨r, e, hr, he, rfl⟩ := System.step_runner_eq_some h
    change JobWrite s (.runner w acc x) e.db
    cases Runner.stepped_of_step he with
    | drained draw stamp raises rows mapping db' _ hdrain =>
      obtain ⟨added, hadded, rfl⟩ := Database.drainToJobs_eq_some hdrain
      refine .kept _ _ (.of_append rfl ?_) rfl
      intro job hjob
      obtain ⟨_, _, plan, _, now, rfl⟩ := Database.mem_drainedJobs (hadded.sublist.subset hjob)
      exact not_attempting_of_new (System.jobFromPlan_status ..)
    | reclaim now => exact .reclaimed w acc now
    | claimed now at_ id seen rest db' hpc _ hclaim => exact .claimed w acc now at_ id seen _ db' hclaim
    | settle now clock draw held decision hpc =>
      obtain ⟨fields, _, hsettled⟩ :=
        Runner.settleGate_eq (s.workers w).deps s.db r held decision now clock draw
      rw [hsettled]
      exact .settled w acc now clock draw r held decision fields hr hpc
    | execute now held targetIds _ =>
      rcases Runner.startCall_cases (s.workers w).deps w acc s.db r held targetIds now with
        ⟨_, _, hcall⟩ | ⟨_, _, hcall⟩ <;> rw [hcall] <;> exact .kept _ _ (.of_eq rfl) rfl
    | record now clock draw raises held called result hpc =>
      obtain ⟨_, ⟨db', hrecord, hafter⟩ | ⟨_, hafter⟩⟩ := Runner.recordOutcome_cases
        (s.workers w).deps s.db r held result now clock draw raises <;> rw [hafter]
      · exact .recorded w acc now clock draw raises r held called result db' hr hpc hrecord
      · exact .kept _ _ (.of_eq rfl) rfl
    | _ => exact .kept _ _ (.of_eq rfl) rfl
  | host w x =>
    obtain ⟨e, he, rfl⟩ := System.step_host_eq_some h
    change JobWrite s (.host w x) e.db
    cases Worker.stepped_of_step he with
    | cancelJob id src now db' hsrc hdb => exact .cancelled w id src now db' hsrc hdb
    | _ => exact .kept _ _ (.of_eq rfl) rfl
  | crash w =>
    obtain rfl := Option.some.inj h
    exact .kept _ _ (.of_eq rfl) rfl
  | ingestRead w acc raw pyHash =>
    obtain ⟨x, _, rfl⟩ := Option.map_eq_some_iff.mp h
    exact .kept _ _ (.of_eq rfl) rfl
  | ingestCommit k =>
    obtain ⟨c, _, rfl⟩ := Option.map_eq_some_iff.mp h
    rcases System.commitIngest_cases (s := { s with ingests := s.ingests.eraseIdx k }) c with
      hsame | ⟨db, hdb, hcommit⟩
    · rw [hsame]
      exact .kept _ _ (.of_eq rfl) rfl
    · obtain ⟨_, sources, rfl, _⟩ := Database.ingestCommit_eq_some hdb
      rw [hcommit]
      exact .kept _ _ (.of_eq rfl) rfl
  | publish acc rows =>
    obtain rfl := Option.some.inj h
    exact .kept _ _ (.of_eq rfl) rfl
  | enqueue reply now =>
    simp only [System.step] at h
    split at h
    · cases h
    · obtain rfl := Option.some.inj h
      refine .kept _ _ (.of_append rfl ?_) rfl
      intro job hjob
      obtain rfl := List.mem_singleton.mp hjob
      rfl
  | operatorRead call i =>
    obtain ⟨job, _, h⟩ := Option.bind_eq_some_iff.mp h
    split at h
    · obtain rfl := Option.some.inj h
      exact .kept _ _ (.of_eq rfl) rfl
    · cases h
  | operatorWrite k =>
    obtain ⟨⟨call, i⟩, hk, rfl⟩ := Option.map_eq_some_iff.mp h
    exact .operated k call i hk

structure RecordedBy (s : System) (a : Action) (w : WorkerId) (acc : AccountId) (now clock : Time)
    (draw : ℤ) (raises : Bool) (r : Runner) (h : Holding) (called : Option TransportRequest)
    (result : DeliveryResult) : Prop where
  action : a = .runner w acc (.record now clock draw raises)
  runner : (s.workers w).runners acc = some r
  pc : r.pc = .recording h called result

theorem recorded_of_step {id : JobId} {n : ℤ} {fields : ResultFields} (h : s.step a = some s')
    (hev : s'.history = s.history ++ [.recorded id n fields]) :
    ∃ w acc now clock draw raises r held called result db',
      RecordedBy s a w acc now clock draw raises r held called result ∧ held.id = id ∧
      held.attemptNo = n ∧ s.db.recordResult held.id held.job held.attemptNo
        (resultFields (s.workers w).deps.retryPolicy held.attemptNo clock draw result) now raises =
          .recorded db' := by
  have hother : ∀ events, s'.history = s.history ++ events →
      Event.recorded id n fields ∉ events → False := by
    intro events hevents hmem
    rw [hev] at hevents
    rw [← List.append_cancel_left hevents] at hmem
    exact hmem List.mem_cons_self
  cases a with
  | runner w acc x =>
    obtain ⟨r, e, hr, he, rfl⟩ := System.step_runner_eq_some h
    cases Runner.stepped_of_step he with
    | settle now clock draw held decision _ =>
      obtain ⟨_, _, hsettled⟩ :=
        Runner.settleGate_eq (s.workers w).deps s.db r held decision now clock draw
      exact (hother _ rfl (by rw [hsettled]; simp)).elim
    | execute now held targetIds _ =>
      rcases Runner.startCall_cases (s.workers w).deps w acc s.db r held targetIds now with
        ⟨_, _, hcall⟩ | ⟨_, _, hcall⟩ <;> exact (hother _ rfl (by rw [hcall]; simp)).elim
    | record now clock draw raises held called result hpc =>
      obtain ⟨_, ⟨db', hrecord, hafter⟩ | ⟨_, hafter⟩⟩ := Runner.recordOutcome_cases
        (s.workers w).deps s.db r held result now clock draw raises
      · rw [System.afterRunner, hafter] at hev
        have hsame := List.append_cancel_left hev
        simp only [List.cons.injEq, Event.recorded.injEq, and_true] at hsame
        exact ⟨w, acc, now, clock, draw, raises, r, held, called, result, db', ⟨rfl, hr, hpc⟩,
          hsame.1, hsame.2.1, hrecord⟩
      · exact (hother _ rfl (by rw [hafter]; simp)).elim
    | _ => exact (hother _ rfl (by simp)).elim
  | host w x =>
    obtain ⟨e, he, rfl⟩ := System.step_host_eq_some h
    cases Worker.stepped_of_step he <;> exact (hother _ rfl (by simp)).elim
  | crash w =>
    obtain rfl := Option.some.inj h
    exact (hother [] (by simp) (by simp)).elim
  | ingestRead w acc raw pyHash =>
    obtain ⟨x, _, rfl⟩ := Option.map_eq_some_iff.mp h
    exact (hother [] (by simp) (by simp)).elim
  | ingestCommit k =>
    obtain ⟨c, _, rfl⟩ := Option.map_eq_some_iff.mp h
    rcases System.commitIngest_cases (s := { s with ingests := s.ingests.eraseIdx k }) c with
      hsame | ⟨db, hdb, hcommit⟩
    · exact (hother [] (by rw [hsame]; simp) (by simp)).elim
    · exact (hother _ (by rw [hcommit]) (by simp)).elim
  | publish acc rows =>
    obtain rfl := Option.some.inj h
    exact (hother [] (by simp) (by simp)).elim
  | enqueue reply now =>
    simp only [System.step] at h
    split at h
    · cases h
    · obtain rfl := Option.some.inj h
      exact (hother [] (by simp) (by simp)).elim
  | operatorRead call i =>
    obtain ⟨job, _, h⟩ := Option.bind_eq_some_iff.mp h
    split at h
    · obtain rfl := Option.some.inj h
      exact (hother [] (by simp) (by simp)).elim
    · cases h
  | operatorWrite k =>
    obtain ⟨⟨call, i⟩, hk, rfl⟩ := Option.map_eq_some_iff.mp h
    exact (hother [] (by simp) (by simp)).elim

/-! ## Runs -/

/-- The system and, for each job, the attempt that has put it into `sending` last. -/
structure SendLog where
  system : System
  sender : JobId → Option ℤ

def noteSender (s : System) (a : Action) (sender : JobId → Option ℤ) (id : JobId) : Option ℤ :=
  match a with
  | .runner w acc (.settle _ _ _) =>
    match ((s.workers w).runners acc).map Runner.pc with
    | some (.gated h .allow) =>
      if h.id = id ∧ (s.db.deliveryJobs.get? id).any fun job => job.status = .leased then
        some h.attemptNo
      else sender id
    | _ => sender id
  | _ => sender id

namespace SendLog

def start (config : WorkerId → WorkerConfig) : SendLog := ⟨.start config, fun _ => none⟩

def step (x : SendLog) (a : Action) : Option SendLog :=
  (x.system.step a).map fun s' => ⟨s', noteSender x.system a x.sender⟩

/-- The attempts are numbered as the jobs have counted them, all but the current ones have ended,
and a result is recorded by the attempt that put the job into `sending`. -/
structure LogExact (x : SendLog) (a : Action) (x' : SendLog) : Prop where
  numbered : ∀ id job, x'.system.db.deliveryJobs.get? id = some job →
    ∀ n, x'.system.db.Attempted id n ↔ 1 ≤ n ∧ n ≤ job.attemptCount
  distinct : ∀ k k' b b', x'.system.db.deliveryAttempts.get? k = some b →
    x'.system.db.deliveryAttempts.get? k' = some b' → b.jobId = b'.jobId → b.attemptNo = b'.attemptNo →
      k = k'
  ended : x'.system.db.OthersEnded
  decided : ∀ id n fields, x'.system.history = x.system.history ++ [.recorded id n fields] →
    x.sender id = some n

/-- A leased job goes on to `sending`, and the result of a job in `sending` is that of its latest
attempt. -/
structure Undisturbed (x : SendLog) (a : Action) (_ : SendLog) : Prop where
  settled : ∀ w acc now clock draw r h decision job, a = .runner w acc (.settle now clock draw) →
    (x.system.workers w).runners acc = some r → r.pc = .gated h decision →
      x.system.db.deliveryJobs.get? h.id = some job → job.status = .leased → decision = .allow
  cancelled : ∀ w id src now job, a = .host w (.cancelJob id src now) →
    x.system.db.deliveryJobs.get? id = some job → job.status = src → src ≠ .leased
  operated : ∀ k call id job, a = .operatorWrite k → x.system.requests[k]? = some (call, id) →
    x.system.db.deliveryJobs.get? id = some job → job.status.attempting = false
  recorded : ∀ w acc now clock draw raises r h called result job,
    RecordedBy x.system a w acc now clock draw raises r h called result →
      x.system.db.deliveryJobs.get? h.id = some job → job.status = .sending →
      ¬ (raises = true ∧ x.system.db.MapStored h.id h.job
        (resultFields (x.system.workers w).deps.retryPolicy h.attemptNo clock draw result)) →
      h.attemptNo = job.attemptCount

end SendLog

/-! ## One step -/

namespace Database

variable {db db' : Database} {id : JobId} {n : ℤ} {job : DeliveryJob}

theorem currentAttempt_of_map {f : DeliveryJob → DeliveryJob}
    (hjobs : db'.deliveryJobs.get? id = (db.deliveryJobs.get? id).map f)
    (hf : ∀ job, db.deliveryJobs.get? id = some job →
      (f job).status.attempting = job.status.attempting ∧ (f job).attemptCount = job.attemptCount) :
    db'.currentAttempt id = db.currentAttempt id := by
  cases hjob : db.deliveryJobs.get? id with
  | none =>
    apply currentAttempt_congr
    rw [hjobs, hjob]
    rfl
  | some job =>
    rw [hjob, Option.map_some] at hjobs
    rw [currentAttempt_of_some hjobs, currentAttempt_of_some hjob, (hf job hjob).1, (hf job hjob).2]

theorem attempting_iff {status : JobStatus} :
    status.attempting = true ↔ status = .leased ∨ status = .sending := by
  simp [JobStatus.attempting]

theorem othersEnded_iff : db.OthersEnded ↔
    ∀ id n, db.Unfinished id n → db.currentAttempt id = some n := by
  simp only [currentAttempt_eq_some, attempting_iff]
  constructor
  · rintro h id n ⟨k, b, hb, rfl, rfl, hopen⟩
    exact h k b hb (by simpa [DeliveryAttempt.unfinished] using hopen)
  · intro h k b hb hopen
    exact h b.jobId b.attemptNo ⟨k, b, hb, rfl, rfl, by simpa [DeliveryAttempt.unfinished] using hopen⟩

theorem Logged.othersEnded (hlog : db.Logged) : db.OthersEnded :=
  othersEnded_iff.mpr fun id n => (hlog.unfinished id n).mp

theorem Logged.current_kept (hlog : db.Logged) (hattempts : db'.deliveryAttempts = db.deliveryAttempts)
    (hended : db'.OthersEnded) (hcurrent : db.currentAttempt id = some n) :
    db'.currentAttempt id = some n := by
  apply othersEnded_iff.mp hended
  unfold Unfinished
  rw [hattempts]
  exact (hlog.unfinished id n).mpr hcurrent

theorem Logged.attempting_kept (hlog : db.Logged)
    (hattempts : db'.deliveryAttempts = db.deliveryAttempts)
    (hended : db'.OthersEnded) (hjob : db.deliveryJobs.get? id = some job)
    (hattempting : job.status.attempting = true) {job' : DeliveryJob}
    (hjob' : db'.deliveryJobs.get? id = some job') : job'.status.attempting = true := by
  have hcurrent : db.currentAttempt id = some job.attemptCount := by
    rw [currentAttempt_of_some hjob, if_pos hattempting]
  have hkept := hlog.current_kept hattempts hended hcurrent
  rw [currentAttempt_of_some hjob'] at hkept
  by_contra hleft
  rw [if_neg hleft] at hkept
  cases hkept

theorem Logged.of_idle (hlog : db.Logged) {f : DeliveryJob → DeliveryJob}
    (hattempts : db'.deliveryAttempts = db.deliveryAttempts)
    (hjobs : db'.deliveryJobs = db.deliveryJobs.update id f)
    (hidle : ∀ job, db.deliveryJobs.get? id = some job → job.status.attempting = false)
    (hf : ∀ job, (f job).status.attempting = false) : db'.Logged := by
  apply hlog.of_same hattempts
  intro i
  by_cases hi : id = i
  · subst hi
    cases hjob : db.deliveryJobs.get? id with
    | none =>
      apply currentAttempt_congr
      rw [hjobs, Table.get?_update_self, hjob]
      rfl
    | some job =>
      have hjob' : db'.deliveryJobs.get? id = some (f job) := by
        rw [hjobs, Table.get?_update_self, hjob]
        rfl
      rw [currentAttempt_of_some hjob', currentAttempt_of_some hjob, hidle job hjob, hf job]
      rfl
  · apply currentAttempt_congr
    rw [hjobs, Table.get?_update_of_ne hi]

theorem Logged.claim (hlog : db.Logged) {seen : DeliveryJob} {generation : ℤ} {at_ now : Time}
    (hclaim : db.tryClaim id seen generation at_ now = .claimed db') : db'.Logged := by
  obtain ⟨job, hjob, hready, hfresh, rfl⟩ := tryClaim_eq_claimed hclaim
  exact hlog.begins (a := ⟨id, seen.attemptCount + 1, generation, at_, none, none, none, none⟩) hjob
    hready
    hfresh ⟨rfl, rfl⟩ rfl rfl

theorem Logged.reclaim (hlog : db.Logged) (accountId : AccountId) (now : Time) :
    (db.reclaimStaleSending accountId now).Logged := by
  refine hlog.ends rfl (fun _ => ⟨rfl, rfl⟩) (by simp)
    (fun i _ => i ∈ db.deliveryJobs.select fun j => j.stale accountId now) ?_ ?_
  · intro k a ha hopen
    have hfinished : a.finishedAt = none := by
      simp only [DeliveryAttempt.unfinished, Bool.or_eq_true, decide_eq_true_eq] at hopen
      rcases hopen with hopen | hopen
      · exact hopen
      · exact (hlog.ended k a ha).mpr hopen
    simp [hfinished]
  · intro i n
    rw [Table.mem_select]
    simp only [currentAttempt_eq_some, reclaimStaleSending_get?, Option.map_eq_some_iff]
    constructor
    · rintro ⟨_, ⟨job, hjob, rfl⟩, hattempting, hn⟩
      by_cases hstale : job.stale accountId now = true
      · rw [if_pos hstale] at hattempting
        cases hattempting
      · rw [if_neg hstale] at hattempting hn
        refine ⟨⟨job, hjob, hattempting, hn⟩, ?_⟩
        rintro ⟨job', hjob', hstale'⟩
        obtain rfl : job = job' := Option.some.inj (hjob.symm.trans hjob')
        exact hstale hstale'
    · rintro ⟨⟨job, hjob, hattempting, hn⟩, hfresh⟩
      refine ⟨job, ⟨job, hjob, if_neg ?_⟩, hattempting, hn⟩
      intro hstale
      exact hfresh ⟨job, hjob, hstale⟩

theorem recordResult_attempts {attemptNo : ℤ} {fields : ResultFields} {now : Time} {raises : Bool}
    (h : db.recordResult id job attemptNo fields now raises = .recorded db') :
    db'.deliveryAttempts = db.deliveryAttempts.updateWhere
      (fun a => a.jobId = id && a.attemptNo = attemptNo) fun a => { a with
        finishedAt := some now
        resultStatus := some (.job fields.newStatus)
        errorClass := fields.errorClass
        requestRef := fields.requestRef } := by
  unfold recordResult at h
  dsimp only at h
  split at h
  · cases h
  · split at h
    · split at h
      · split at h
        · split at h <;> cases h
          rfl
        · cases h
          rfl
      · cases h
        rfl
    · cases h
      rfl

theorem Logged.record (hlog : db.Logged) {attemptNo : ℤ} {fields : ResultFields} {now : Time}
    {raises : Bool} {j : DeliveryJob} (hjob : db.deliveryJobs.get? id = some j)
    (hown : attemptNo = j.attemptCount) (hleaves : fields.newStatus.attempting = false)
    (h : db.recordResult id job attemptNo fields now raises = .recorded db') : db'.Logged := by
  have hattempts := recordResult_attempts h
  obtain ⟨j', close, maps, hjob', hsending, -, hdb'⟩ := recordResult_eq_recorded h
  obtain rfl : j = j' := Option.some.inj (hjob.symm.trans hjob')
  have hjobs : db'.deliveryJobs = db.deliveryJobs.update id fun j =>
      j.move fields.newStatus fields.toStatusFields now := by
    rw [hdb']
  refine hlog.ends hattempts (fun _ => ⟨rfl, rfl⟩) (by simp) (fun i n => i = id ∧ n = attemptNo) ?_ ?_
  · intro k a _ _
    simp
  · intro i n
    by_cases hi : id = i
    · subst hi
      have hleft : db'.currentAttempt id = none := by
        have hmoved : db'.deliveryJobs.get? id =
            some (j.move fields.newStatus fields.toStatusFields now) := by
          rw [hjobs, Table.get?_update_self, hjob]
          rfl
        rw [currentAttempt_of_some hmoved]
        simp [DeliveryJob.move, hleaves]
      have hcurrent : db.currentAttempt id = some attemptNo := by
        rw [currentAttempt_of_some hjob, hsending, hown]
        rfl
      simp [hleft, hcurrent, eq_comm]
    · have hsame : db'.currentAttempt i = db.currentAttempt i := by
        apply currentAttempt_congr
        rw [hjobs, Table.get?_update_of_ne hi]
      simp [hsame, Ne.symm hi]

end Database

namespace SendLog

variable {x x' : SendLog} {a : Action}

structure Consistent (x : SendLog) : Prop where
  numbered : Numbered x.system
  leases : ∀ id, (x.system.view id).Leases
  logged : x.system.db.Logged
  sender : ∀ id job, x.system.db.deliveryJobs.get? id = some job → job.status = .sending →
    x.sender id = some job.attemptCount

theorem step_eq_some (h : x.step a = some x') : x.system.step a = some x'.system ∧
    x'.sender = noteSender x.system a x.sender := by
  obtain ⟨s', hs', rfl⟩ := Option.map_eq_some_iff.mp h
  exact ⟨hs', rfl⟩

theorem Consistent.gated (hx : x.Consistent) {w : WorkerId} {acc : AccountId} {r : Runner} {h : Holding}
    {decision : Decision} (hr : (x.system.workers w).runners acc = some r)
    (hpc : r.pc = .gated h decision) :
    x.system.db.deliveryJobs.get? h.id = some h.job ∧ h.job.status = .leased := by
  have hp : (x.system.view h.id).holder (w, acc) = some (.gated h decision) := by
    rw [System.holder_of_runner hr, Runner.stage, hpc]
    exact if_pos rfl
  have hrow := (hx.leases h.id).gated (w, acc) h decision hp
  obtain ⟨job, hjob, hleased⟩ := (hx.leases h.id).leased (w, acc) _ hp rfl
  obtain rfl : h.job = job := Option.some.inj (hrow.symm.trans hjob)
  exact ⟨hrow, hleased⟩

theorem Undisturbed.sends (hx : x.Consistent) (hquiet : Undisturbed x a x') {id : JobId} {l : JobAction}
    {v' : JobView} (hfrom : JobAction.From x.system id a l) (hl : (x.system.view id).step l = some v') :
    (x.system.view id).Sends l := by
  cases l with
  | settle p fields now =>
    obtain ⟨clock, draw, rfl⟩ := hfrom
    intro h decision hp
    obtain ⟨r, hr, hstage⟩ := Option.bind_eq_some_iff.mp hp
    have hpc := Runner.pc_of_gated hstage
    obtain ⟨hjob, hleased⟩ := hx.gated hr hpc
    exact hquiet.settled p.1 p.2 now clock draw r h decision h.job rfl hr hpc hjob hleased
  | cancel src now =>
    obtain ⟨w, rfl⟩ := hfrom
    obtain ⟨job, hjob, hl⟩ := Option.bind_eq_some_iff.mp hl
    split at hl
    · rename_i hsrc
      exact hquiet.cancelled w id src now job rfl hjob hsrc.1
    · cases hl
  | operator call =>
    obtain ⟨k, rfl, hk⟩ := hfrom
    intro job hjob hleased
    have hidle := hquiet.operated k call id job rfl hk hjob
    rw [hleased] at hidle
    cases hidle
  | _ => trivial

theorem noteSender_of_ne (s : System) (a : Action) (sender : JobId → Option ℤ) {id : JobId}
    {job : DeliveryJob} (hjob : s.db.deliveryJobs.get? id = some job) (hne : job.status ≠ .leased) :
    noteSender s a sender id = sender id := by
  unfold noteSender
  split
  · split
    · rename_i h _
      rw [if_neg]
      rintro ⟨-, hleased⟩
      rw [hjob] at hleased
      exact hne (by simpa using hleased)
    · rfl
  · rfl

theorem noteSender_gated {s : System} {sender : JobId → Option ℤ} {w : WorkerId} {acc : AccountId}
    {now clock : Time} {draw : ℤ} {r : Runner} {h : Holding} {job : DeliveryJob}
    (hr : (s.workers w).runners acc = some r) (hpc : r.pc = .gated h .allow)
    (hjob : s.db.deliveryJobs.get? h.id = some job) (hleased : job.status = .leased) :
    noteSender s (.runner w acc (.settle now clock draw)) sender h.id = some h.attemptNo := by
  simp [noteSender, hr, hpc, hjob, hleased]

theorem Consistent.sender_step (hx : x.Consistent) (h : x.step a = some x')
    (hquiet : Undisturbed x a x') :
    ∀ id job, x'.system.db.deliveryJobs.get? id = some job → job.status = .sending →
      x'.sender id = some job.attemptCount := by
  intro id job' hjob' hsending
  obtain ⟨hstep, hsender⟩ := step_eq_some h
  obtain ⟨l, hfrom, hl⟩ := System.view_step hstep id
  have hsends := hquiet.sends hx hfrom hl
  rw [hsender]
  cases hjob : x.system.db.deliveryJobs.get? id with
  | none =>
    obtain rfl := JobView.row_created hl hjob hjob'
    simp only [JobView.step] at hl
    split at hl
    · rename_i hnew
      rw [hsending] at hnew
      simp at hnew
    · cases hl
  | some job =>
    rcases JobView.row_cases hl hjob hjob' with rfl | hchange
    · rw [noteSender_of_ne x.system a x.sender hjob (by simp [hsending])]
      exact hx.sender id job' hjob hsending
    · cases hchange with
      | settled p held decision fields now hp hleased =>
        obtain ⟨clock, draw, rfl⟩ := hfrom
        obtain rfl : decision = .allow := hsends held decision hp
        obtain ⟨r, hr, hstage⟩ := Option.bind_eq_some_iff.mp hp
        have hpc := Runner.pc_of_gated hstage
        obtain rfl : held.id = id := by
          simp only [Runner.stage, hpc] at hstage
          split at hstage
          · assumption
          · cases hstage
        obtain ⟨hheld, _⟩ := hx.gated hr hpc
        obtain rfl : held.job = job := Option.some.inj (hheld.symm.trans hjob)
        rw [noteSender_gated hr hpc hjob hleased]
        rfl
      | recorded p held call result policy now clock draw _ _ =>
        have hedge := resultFields_edge policy held.attemptNo clock draw result
        simp only [DeliveryJob.move] at hsending
        rw [hsending] at hedge
        cases hedge
      | operated call => cases call <;> cases hsending
      | _ => cases hsending

theorem recordResult_not_raised {db db' : Database} {id : JobId} {job j : DeliveryJob} {attemptNo : ℤ}
    {fields : ResultFields} {now : Time} {raises : Bool} (hj : db.deliveryJobs.get? id = some j)
    (hsending : j.status = .sending)
    (h : db.recordResult id job attemptNo fields now raises = .recorded db') :
    ¬ (raises = true ∧ db.MapStored id job fields) := by
  rintro ⟨rfl, hstored⟩
  rw [(Database.recordResult_raised_iff hj hsending).mpr hstored] at h
  cases h

theorem recordResult_recorded {db : Database} {id : JobId} {job j : DeliveryJob} {attemptNo : ℤ}
    {fields : ResultFields} {now : Time} {raises : Bool} (hj : db.deliveryJobs.get? id = some j)
    (hsending : j.status = .sending) (hmap : ¬ (raises = true ∧ db.MapStored id job fields)) :
    ∃ db', db.recordResult id job attemptNo fields now raises = .recorded db' := by
  cases hrecord : db.recordResult id job attemptNo fields now raises with
  | stale => exact absurd hrecord (Database.recordResult_ne_stale hj hsending)
  | recorded db' => exact ⟨db', rfl⟩
  | raised =>
    cases raises with
    | true => exact absurd ⟨rfl, (Database.recordResult_raised_iff hj hsending).mp hrecord⟩ hmap
    | false =>
      unfold Database.recordResult at hrecord
      simp only [Bool.false_eq_true, if_false] at hrecord
      split at hrecord
      · cases hrecord
      · split at hrecord
        · split at hrecord
          · split at hrecord <;> cases hrecord
          · cases hrecord
        · cases hrecord

theorem resultFields_not_attempting (policy : RetryPolicy) (attemptNo : ℤ) (clock : Time) (draw : ℤ)
    (result : DeliveryResult) :
    (resultFields policy attemptNo clock draw result).newStatus.attempting = false := by
  have hedge := resultFields_edge policy attemptNo clock draw result
  generalize (resultFields policy attemptNo clock draw result).newStatus = status at hedge
  cases status <;> first | rfl | cases hedge

theorem Consistent.logged_step (hx : x.Consistent) (h : x.step a = some x')
    (hquiet : Undisturbed x a x') :
    x'.system.db.Logged := by
  obtain ⟨hstep, -⟩ := step_eq_some h
  have hlog := hx.logged
  have hwrite := jobWrite_of_step hstep
  generalize x'.system.db = db' at hwrite
  cases hwrite with
  | kept _ _ hjobs hattempts => exact hlog.of_same hattempts hjobs.currentAttempt
  | claimed w acc now at_ id seen generation _ hclaim => exact hlog.claim hclaim
  | settled w acc now clock draw r held decision fields hr hpc =>
    obtain ⟨hjob, hleased⟩ := hx.gated hr hpc
    obtain rfl := hquiet.settled w acc now clock draw r held decision held.job rfl hr hpc hjob hleased
    apply hlog.of_same
    · cases ht : x.system.db.transition held.id .leased Decision.allow.target fields now with
      | none => rfl
      | some db =>
        obtain ⟨_, _, _, rfl⟩ := Database.transition_eq_some ht
        rfl
    · intro id
      apply Database.currentAttempt_of_map (Database.transition_getD_get? ..)
      intro job _
      split
      · rename_i hmoved
        rw [hmoved.2]
        exact ⟨rfl, rfl⟩
      · exact ⟨rfl, rfl⟩
  | recorded w acc now clock draw raises r held called result _ hr hpc hrecord =>
    obtain ⟨job, _, _, hjob, hsending, -, -⟩ := Database.recordResult_eq_recorded hrecord
    have hown : held.attemptNo = job.attemptCount :=
      hquiet.recorded w acc now clock draw raises r held called result job ⟨rfl, hr, hpc⟩ hjob hsending
        (recordResult_not_raised hjob hsending hrecord)
    exact hlog.record hjob hown (resultFields_not_attempting ..) hrecord
  | reclaimed w acc now => exact hlog.reclaim acc now
  | cancelled w id src now _ hsrc hcancel =>
    obtain ⟨job, hjob, rfl, rfl⟩ := Database.transition_eq_some hcancel
    have hne := hquiet.cancelled w id job.status now job rfl hjob rfl
    refine hlog.of_idle rfl rfl ?_ fun _ => rfl
    intro job' hjob'
    obtain rfl : job = job' := Option.some.inj (hjob.symm.trans hjob')
    simp only [cancellableByCommand, List.mem_cons, List.not_mem_nil, or_false] at hsrc
    rcases hsrc with hready | hwaiting | hleased
    · rw [hready]
      rfl
    · rw [hwaiting]
      rfl
    · exact absurd hleased hne
  | operated k call id hk =>
    refine hlog.of_idle rfl rfl ?_ ?_
    · intro job hjob
      exact hquiet.operated k call id job rfl hk hjob
    · intro job
      cases call <;> rfl

theorem Consistent.step (hx : x.Consistent) (h : x.step a = some x') (hquiet : Undisturbed x a x') :
    x'.Consistent where
  numbered := System.numbered_step _ a _ (step_eq_some h).1 hx.numbered
  leases id := by
    obtain ⟨l, hfrom, hl⟩ := System.view_step (step_eq_some h).1 id
    exact (hx.leases id).step hl (hquiet.sends hx hfrom hl)
  logged := hx.logged_step h hquiet
  sender := hx.sender_step h hquiet

theorem Consistent.logExact (hx : x.Consistent) (h : x.step a = some x') (hquiet : Undisturbed x a x') :
    LogExact x a x' := by
  have hx' := hx.step h hquiet
  constructor
  · intro id job hjob
    exact (hx'.numbered.stored id job hjob).2
  · exact hx'.logged.distinct
  · exact hx'.logged.othersEnded
  · intro id n fields hev
    obtain ⟨w, acc, now, clock, draw, raises, r, held, called, result, db', hby, rfl, rfl, hrecord⟩ :=
      recorded_of_step (step_eq_some h).1 hev
    obtain ⟨job, _, _, hjob, hsending, -, -⟩ := Database.recordResult_eq_recorded hrecord
    rw [hx.sender held.id job hjob hsending, hquiet.recorded w acc now clock draw raises r held called
      result job hby hjob hsending (recordResult_not_raised hjob hsending hrecord)]

theorem Consistent.undisturbed (hx : x.Consistent) (h : x.step a = some x') (hexact : LogExact x a x') :
    Undisturbed x a x' := by
  obtain ⟨hstep, -⟩ := step_eq_some h
  have hended := hexact.ended
  constructor
  · rintro w acc now clock draw r held decision job rfl hr hpc hjob hleased
    obtain ⟨r', e, hr', he, hs'⟩ := System.step_runner_eq_some hstep
    obtain rfl : r = r' := Option.some.inj (hr.symm.trans hr')
    simp only [Runner.step, hpc, Option.some.injEq] at he
    obtain ⟨fields, _, hsettled⟩ := Runner.settleGate_eq (x.system.workers w).deps x.system.db r held
      decision now clock draw
    have hdb : x'.system.db =
        (x.system.db.transition held.id .leased decision.target fields now).getD x.system.db := by
      rw [hs', ← he, hsettled]
      rfl
    have hmoved : x'.system.db.deliveryJobs.get? held.id =
      some (job.move decision.target fields now) := by
      rw [hdb, Database.transition_getD_get?, hjob]
      simp [hleased]
    have hattempts : x'.system.db.deliveryAttempts = x.system.db.deliveryAttempts := by
      rw [hdb]
      cases ht : x.system.db.transition held.id .leased decision.target fields now with
      | none => rfl
      | some db =>
        obtain ⟨_, _, _, rfl⟩ := Database.transition_eq_some ht
        rfl
    have hstill : (job.move decision.target fields now).status.attempting = true :=
      hx.logged.attempting_kept hattempts hended hjob (by rw [hleased]; rfl) hmoved
    cases decision <;> first | rfl | cases hstill
  · rintro w id src now job rfl hjob rfl hleased
    obtain ⟨e, he, hs'⟩ := System.step_host_eq_some hstep
    cases Worker.stepped_of_step he with
    | cancelJob _ _ _ db' _ hdb =>
      obtain ⟨_, _, _, rfl⟩ := Database.transition_eq_some hdb
      have hmoved : x'.system.db.deliveryJobs.get? id = some (job.move .cancelled {} now) := by
        rw [hs']
        simp [System.afterHost, hjob]
      have hattempts : x'.system.db.deliveryAttempts = x.system.db.deliveryAttempts := by
        rw [hs']
        rfl
      have hstill := hx.logged.attempting_kept hattempts hended hjob (by rw [hleased]; rfl) hmoved
      cases hstill
  · rintro k call id job rfl hk hjob
    obtain ⟨q, hq, hs'⟩ := Option.map_eq_some_iff.mp hstep
    obtain rfl : q = (call, id) := Option.some.inj (hq.symm.trans hk)
    have hmoved : x'.system.db.deliveryJobs.get? id = some (call.write job) := by
      rw [← hs']
      simp [hjob]
    have hattempts : x'.system.db.deliveryAttempts = x.system.db.deliveryAttempts := by
      rw [← hs']
    by_contra hattempting
    have hstill := hx.logged.attempting_kept hattempts hended hjob (by simpa using hattempting) hmoved
    cases call <;> cases hstill
  · rintro w acc now clock draw raises r held called result job ⟨rfl, hr, hpc⟩ hjob hsending hmap
    obtain ⟨r', e, hr', he, hs'⟩ := System.step_runner_eq_some hstep
    obtain rfl : r = r' := Option.some.inj (hr.symm.trans hr')
    simp only [Runner.step, hpc, Option.some.injEq] at he
    obtain ⟨db', hrecord⟩ : ∃ db', x.system.db.recordResult held.id held.job held.attemptNo
        (resultFields (x.system.workers w).deps.retryPolicy held.attemptNo clock draw result)
          now raises = .recorded db' := recordResult_recorded hjob hsending hmap
    obtain ⟨_, ⟨_, _, hafter⟩ | ⟨hnone, _⟩⟩ := Runner.recordOutcome_cases (x.system.workers w).deps
      x.system.db r held result now clock draw raises
    · have hev : x'.system.history = x.system.history ++ [.recorded held.id held.attemptNo
          (resultFields (x.system.workers w).deps.retryPolicy held.attemptNo clock draw result)] := by
        rw [hs', ← he, hafter]
        rfl
      have hown := hexact.decided held.id held.attemptNo _ hev
      rw [hx.sender held.id job hjob hsending] at hown
      exact (Option.some.inj hown).symm
    · exact absurd hrecord (hnone db')

theorem consistent_start (config : WorkerId → WorkerConfig) : (start config).Consistent where
  numbered := numbered_start config
  leases id := by
    constructor <;> simp [start, System.view, System.start, Worker.start]
  logged := by
    constructor
    · intro id n
      simp [start, System.start, Database.empty, Database.Unfinished, Database.currentAttempt]
    · rintro k k' b b' hb
      cases hb
    · rintro k b hb
      cases hb
  sender id job hjob := by cases hjob

/-- The attempt log is exact exactly as long as every leased job goes on to `sending` and every
result of a job in `sending` comes from its latest attempt. -/
theorem attempt_log_exact_iff (config : WorkerId → WorkerConfig) (as : List Action) :
    Machine.Always step LogExact (start config) as ↔
      Machine.Always step Undisturbed (start config) as := by
  apply Machine.always_iff_of_invariant (I := Consistent)
  · intro x a x' h hx hexact
    exact hx.step h (hx.undisturbed h hexact)
  · intro x a x' h hx
    exact ⟨hx.undisturbed h, hx.logExact h⟩
  · exact consistent_start config

def limited (_ : WorkerId) : WorkerConfig where
  policy := { rateLimitBlocked := ["ai_candidate:c"] }

/-- The gate puts the claimed reply back, and its attempt stays open. -/
theorem released_attempt_stays_open :
    ¬ ∀ config as, Machine.Always step LogExact (start config) as := by
  intro h
  have hobserved : ((Machine.run step (start limited)
      (queuedReply ++ claimSteps "w1" "A" [0] 1 ++ [.runner "w1" "A" (.gate 1)])).bind fun x =>
        (x.step (.runner "w1" "A" (.settle 1 1 0))).map fun x' =>
          ((x'.system.db.deliveryJobs.get? 0).map DeliveryJob.status,
            (x'.system.db.deliveryAttempts.get? 0).map fun b => (b.jobId, b.finishedAt))) =
      some (some .ready, some (0, none)) := by
    decide +kernel
  obtain ⟨x, x', hrun, hstep, hobserved⟩ := Machine.exists_of_observed hobserved
  simp only [Prod.mk.injEq, Option.map_eq_some_iff] at hobserved
  obtain ⟨⟨job, hjob, hready⟩, b, hb, hid, hopen⟩ := hobserved
  refine Machine.not_always_of_step hrun hstep ?_ (h limited _)
  intro hexact
  obtain ⟨job', hjob', hattempting, -⟩ := hexact.ended 0 b hb (Or.inl hopen)
  rw [hid] at hjob'
  obtain rfl : job = job' := Option.some.inj (hjob.symm.trans hjob')
  rw [hready] at hattempting
  rcases hattempting with hleased | hsending
  · cases hleased
  · cases hsending

end SendLog

end TgPlatform
