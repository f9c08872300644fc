import TgPlatform.Pipeline.Hosting

/-! # Attempt numbers

The attempts of a job are numbered from 1 to its attempt count, and no claim
candidate was read with a count the job has not reached. So the claim of a
ready job never meets an attempt number that is taken.
-/

namespace TgPlatform

namespace Database

def Attempted (db : Database) (id : JobId) (n : ℤ) : Prop :=
  ∃ k a, db.deliveryAttempts.get? k = some a ∧ a.jobId = id ∧ a.attemptNo = n

/-- A transaction that adds no attempt and counts none. -/
structure AttemptsKept (db db' : Database) : Prop where
  attempted : ∀ id n, db'.Attempted id n ↔ db.Attempted id n
  stored : ∀ id job, db.deliveryJobs.get? id = some job →
    ∃ job', db'.deliveryJobs.get? id = some job' ∧ job'.attemptCount = job.attemptCount
  created : ∀ id job', db.deliveryJobs.get? id = none → db'.deliveryJobs.get? id = some job' →
    job'.attemptCount = 0

variable {db db' : Database} {id : JobId} {n : ℤ}

theorem attempted_updateWhere {p : DeliveryAttempt → Bool} {f : DeliveryAttempt → DeliveryAttempt}
    (hdb : db'.deliveryAttempts = db.deliveryAttempts.updateWhere p f)
    (hf : ∀ a, (f a).jobId = a.jobId ∧ (f a).attemptNo = a.attemptNo) :
    db'.Attempted id n ↔ db.Attempted id n := by
  have hkeep : ∀ a, (if p a then f a else a).jobId = a.jobId ∧
      (if p a then f a else a).attemptNo = a.attemptNo := by
    intro a
    split
    · exact hf a
    · exact ⟨rfl, rfl⟩
  unfold Attempted
  simp only [hdb, Table.get?_updateWhere, Option.map_eq_some_iff]
  constructor
  · rintro ⟨k, _, ⟨a, ha, rfl⟩, hid, hn⟩
    exact ⟨k, a, ha, (hkeep a).1 ▸ hid, (hkeep a).2 ▸ hn⟩
  · rintro ⟨k, a, ha, hid, hn⟩
    exact ⟨k, _, ⟨a, ha, rfl⟩, (hkeep a).1.trans hid, (hkeep a).2.trans hn⟩

theorem attempted_insert {a : DeliveryAttempt} (id : JobId) (n : ℤ)
    (hdb : db'.deliveryAttempts = db.deliveryAttempts.insert a) :
    db'.Attempted id n ↔ db.Attempted id n ∨ (a.jobId = id ∧ a.attemptNo = n) := by
  unfold Attempted
  simp only [hdb, Table.get?_insert]
  constructor
  · rintro ⟨k, b, hb, hid, hn⟩
    split at hb
    · obtain rfl := Option.some.inj hb
      exact Or.inr ⟨hid, hn⟩
    · exact Or.inl ⟨k, b, hb, hid, hn⟩
  · rintro (⟨k, b, hb, hid, hn⟩ | ⟨hid, hn⟩)
    · have hk := Table.get?_lt hb
      exact ⟨k, b, by rw [if_neg (by omega), hb], hid, hn⟩
    · exact ⟨db.deliveryAttempts.size, a, by simp, hid, hn⟩

theorem attempted_of_eq (hdb : db'.deliveryAttempts = db.deliveryAttempts) :
    db'.Attempted id n ↔ db.Attempted id n := by
  unfold Attempted
  rw [hdb]

theorem AttemptsKept.of_map (hattempted : ∀ id n, db'.Attempted id n ↔ db.Attempted id n)
    (hjobs : ∀ id, ∃ f, db'.deliveryJobs.get? id = (db.deliveryJobs.get? id).map f ∧
      ∀ job : DeliveryJob, (f job).attemptCount = job.attemptCount) : AttemptsKept db db' := by
  constructor
  · exact hattempted
  · intro id job hjob
    obtain ⟨f, hf, hcount⟩ := hjobs id
    exact ⟨f job, by rw [hf, hjob]; rfl, hcount job⟩
  · intro id job' hnone hjob'
    obtain ⟨f, hf, _⟩ := hjobs id
    rw [hf, hnone] at hjob'
    cases hjob'

theorem AttemptsKept.of_eq (hattempts : db'.deliveryAttempts = db.deliveryAttempts)
    (hjobs : db'.deliveryJobs = db.deliveryJobs) : AttemptsKept db db' :=
  .of_map (fun _ _ => attempted_of_eq hattempts) fun _ => ⟨fun job => job, by simp [hjobs],
    fun _ => rfl⟩

theorem AttemptsKept.refl (db : Database) : AttemptsKept db db := .of_eq rfl rfl

theorem AttemptsKept.of_append {added : List DeliveryJob}
    (hattempts : db'.deliveryAttempts = db.deliveryAttempts)
    (hjobs : db'.deliveryJobs = db.deliveryJobs.append added)
    (hadded : ∀ job ∈ added, job.attemptCount = 0) : AttemptsKept db db' := by
  constructor
  · intro id n
    exact attempted_of_eq hattempts
  · intro id job hjob
    exact ⟨job, by rw [hjobs]; exact Table.get?_append_of_some hjob, rfl⟩
  · intro id job' hnone hjob'
    rw [hjobs] at hjob'
    rcases Table.get?_append_cases hjob' with hold | ⟨_, hnew⟩
    · rw [hnone] at hold
      cases hold
    · exact hadded job' (List.mem_of_getElem? hnew)

theorem attemptsKept_transition (i : JobId) (src dst : JobStatus) (fields : StatusFields)
    (now : Time) : AttemptsKept db ((db.transition i src dst fields now).getD db) := by
  refine .of_map ?_ ?_
  · intro id n
    cases ht : db.transition i src dst fields now with
    | none => exact Iff.rfl
    | some db' =>
      obtain ⟨_, _, _, rfl⟩ := transition_eq_some ht
      exact Iff.rfl
  · intro id
    refine ⟨_, transition_getD_get? db .., ?_⟩
    intro job
    split <;> rfl

theorem attemptsKept_recordResult {job : DeliveryJob} {attemptNo : ℤ} {fields : ResultFields}
    {now : Time} {raises : Bool}
    (h : db.recordResult id job attemptNo fields now raises = .recorded db') :
    AttemptsKept db db' := by
  obtain ⟨_, close, maps, _, _, hclose, rfl⟩ := recordResult_eq_recorded h
  refine .of_map (fun _ _ => attempted_updateWhere rfl hclose) ?_
  intro i
  by_cases hi : id = i
  · subst hi
    exact ⟨_, Table.get?_update_self, fun _ => rfl⟩
  · exact ⟨fun job => job, by simp [Table.get?_update_of_ne hi], fun _ => rfl⟩

theorem attemptsKept_reclaim (accountId : AccountId) (now : Time) :
    AttemptsKept db (db.reclaimStaleSending accountId now) := by
  refine .of_map (fun _ _ => attempted_updateWhere rfl fun _ => ⟨rfl, rfl⟩) ?_
  intro id
  refine ⟨_, reclaimStaleSending_get? id, ?_⟩
  intro job
  split <;> rfl

end Database

/-! ## One step -/

section Runner

variable {d : RunnerDeps} {w : WorkerId} {acc : AccountId} {db : Database} {r : Runner}
  {x : RunnerAction} {e : RunnerEffect}

theorem runner_step_attempts (he : r.step d w acc db x = some e) :
    db.AttemptsKept e.db ∨ ∃ now at_ id seen rest, r.pc = .claiming at_ ((id, seen) :: rest) ∧
      db.tryClaim id seen r.generation at_ now = .claimed e.db ∧ e.runner.pc = .claimed id := by
  cases Runner.stepped_of_step he with
  | drained draw stamp raises rows mapping db' _ hdrain =>
    obtain ⟨added, hadded, rfl⟩ := Database.drainToJobs_eq_some hdrain
    refine Or.inl (.of_append rfl rfl ?_)
    intro job hjob
    obtain ⟨_, _, plan, _, now, rfl⟩ := Database.mem_drainedJobs (hadded.sublist.subset hjob)
    rfl
  | reclaim now => exact Or.inl (Database.attemptsKept_reclaim acc now)
  | claimed now at_ id seen rest db' hpc _ hclaim =>
    exact Or.inr ⟨now, at_, id, seen, rest, hpc, hclaim, rfl⟩
  | settle now clock draw h decision _ =>
    obtain ⟨_, _, hsettled⟩ :=
      Runner.settleGate_eq d db r h decision now clock draw
    rw [hsettled]
    exact Or.inl (Database.attemptsKept_transition ..)
  | execute now h targetIds _ =>
    rcases Runner.startCall_cases d w acc db r h targetIds now with ⟨_, _, hcall⟩ |
      ⟨_, _, hcall⟩ <;> rw [hcall] <;> exact Or.inl (.refl db)
  | record now clock draw raises h called result _ =>
    obtain ⟨_, ⟨_, hrecord, hafter⟩ | ⟨_, hafter⟩⟩ := Runner.recordOutcome_cases d db r h result now
      clock draw raises <;> rw [hafter]
    · exact Or.inl (Database.attemptsKept_recordResult hrecord)
    · exact Or.inl (.refl db)
  | _ => exact Or.inl (.refl db)

theorem runner_step_claiming (he : r.step d w acc db x = some e) {at_ : Time}
    {candidates : List (JobId × DeliveryJob)} (hpc : e.runner.pc = .claiming at_ candidates) :
    e.db = db ∧ ((∃ order, candidates = db.deliveryJobs.fetch order) ∨
      ∃ c, r.pc = .claiming at_ (c :: candidates)) := by
  cases Runner.stepped_of_step he with
  | select order now _ _ =>
    obtain ⟨_, rfl⟩ := RunnerPc.claiming.inj hpc
    exact ⟨rfl, Or.inl ⟨order, rfl⟩⟩
  | claimSkip now at' id seen rest hr _ =>
    obtain ⟨rfl, rfl⟩ := RunnerPc.claiming.inj hpc
    exact ⟨rfl, Or.inr ⟨_, hr⟩⟩
  | settle now clock draw h decision _ =>
    obtain ⟨_, _, hsettled⟩ :=
      Runner.settleGate_eq d db r h decision now clock draw
    rw [hsettled] at hpc
    dsimp only at hpc
    split at hpc <;> cases hpc
  | execute now h targetIds _ =>
    rcases Runner.startCall_cases d w acc db r h targetIds now with ⟨_, _, hcall⟩ |
      ⟨_, _, hcall⟩ <;> rw [hcall] at hpc <;> cases hpc
  | record now clock draw raises h called result _ =>
    obtain ⟨_, ⟨_, _, hafter⟩ | ⟨_, hafter⟩⟩ := Runner.recordOutcome_cases d db r h result now
      clock draw raises <;> rw [hafter] at hpc <;> cases hpc
  | _ => cases hpc

end Runner

/-! ## Whole runs -/

structure Numbered (s : System) : Prop where
  stored : ∀ id job, s.db.deliveryJobs.get? id = some job → 0 ≤ job.attemptCount ∧
    ∀ n, s.db.Attempted id n ↔ 1 ≤ n ∧ n ≤ job.attemptCount
  absent : ∀ id n, s.db.deliveryJobs.get? id = none → ¬ s.db.Attempted id n
  seen : ∀ w acc r at_ candidates id seen, (s.workers w).runners acc = some r →
    r.pc = .claiming at_ candidates → (id, seen) ∈ candidates →
      ∃ job, s.db.deliveryJobs.get? id = some job ∧ 0 ≤ seen.attemptCount ∧
        seen.attemptCount ≤ job.attemptCount

theorem Database.counted_iff {db : Database} : db.Counted ↔ ∀ id n, db.Attempted id n →
    ∃ job, db.deliveryJobs.get? id = some job ∧ n ≤ job.attemptCount := by
  constructor
  · rintro hc id n ⟨k, a, ha, rfl, rfl⟩
    exact hc k a ha
  · intro hc k a ha
    exact hc a.jobId a.attemptNo ⟨k, a, ha, rfl, rfl⟩

theorem Numbered.counted {s : System} (hs : Numbered s) : s.db.Counted := by
  rw [Database.counted_iff]
  intro id n hn
  cases hjob : s.db.deliveryJobs.get? id with
  | none => exact absurd hn (hs.absent id n hjob)
  | some job => exact ⟨job, rfl, (((hs.stored id job hjob).2 n).mp hn).2⟩

theorem numbered_start (config : WorkerId → WorkerConfig) : Numbered (.start config) := by
  constructor
  · intro id job hjob
    cases hjob
  · rintro id n - ⟨k, a, ha, _⟩
    cases ha
  · intro w acc r at_ candidates id seen hr
    cases hr

namespace System

variable {s s' : System} {a : Action}

theorem step_attempts (h : s.step a = some s') : s.db.AttemptsKept s'.db ∨
    ∃ w acc now at_ id seen rest r, (s.workers w).runners acc = some r ∧
      r.pc = .claiming at_ ((id, seen) :: rest) ∧
      s.db.tryClaim id seen r.generation at_ now = .claimed s'.db := by
  cases a with
  | runner w acc x =>
    obtain ⟨r, e, hr, he, rfl⟩ := step_runner_eq_some h
    rcases runner_step_attempts he with hkept | ⟨now, at_, id, seen, rest, hpc, hclaim, _⟩
    · exact Or.inl hkept
    · exact Or.inr ⟨w, acc, now, at_, id, seen, rest, r, hr, hpc, hclaim⟩
  | host w x =>
    obtain ⟨e, he, rfl⟩ := step_host_eq_some h
    refine Or.inl ?_
    cases Worker.stepped_of_step he with
    | cancelJob id src now db' _ hdb =>
      have hkept : s.db.AttemptsKept ((s.db.transition id src .cancelled {} now).getD s.db) :=
        Database.attemptsKept_transition ..
      rwa [hdb] at hkept
    | _ => exact .of_eq rfl rfl
  | crash w =>
    obtain rfl := Option.some.inj h
    exact Or.inl (.refl _)
  | ingestRead w acc raw pyHash =>
    obtain ⟨x, _, rfl⟩ := Option.map_eq_some_iff.mp h
    exact Or.inl (.refl _)
  | ingestCommit k =>
    obtain ⟨c, _, rfl⟩ := Option.map_eq_some_iff.mp h
    rcases commitIngest_cases (s := { s with ingests := s.ingests.eraseIdx k }) c with
      hsame | ⟨db, hdb, hcommit⟩
    · rw [hsame]
      exact Or.inl (.refl _)
    · obtain ⟨_, sources, rfl, _⟩ := Database.ingestCommit_eq_some hdb
      rw [hcommit]
      exact Or.inl (.of_eq rfl rfl)
  | publish acc rows =>
    obtain rfl := Option.some.inj h
    exact Or.inl (.refl _)
  | enqueue reply now =>
    simp only [step] at h
    split at h
    · cases h
    · obtain rfl := Option.some.inj h
      refine Or.inl (.of_append rfl rfl ?_)
      intro job hjob
      obtain rfl := List.mem_singleton.mp hjob
      rfl
  | operatorRead call i =>
    obtain ⟨job, _, h⟩ := Option.bind_eq_some_iff.mp h
    split at h
    · obtain rfl := Option.some.inj h
      exact Or.inl (.refl _)
    · cases h
  | operatorWrite k =>
    obtain ⟨⟨call, i⟩, _, rfl⟩ := Option.map_eq_some_iff.mp h
    refine Or.inl (.of_map (fun _ _ => Iff.rfl) fun id => ?_)
    by_cases hid : i = id
    · subst hid
      exact ⟨call.write, Table.get?_update_self, fun job => by cases call <;> rfl⟩
    · exact ⟨fun job => job, by simp [Table.get?_update_of_ne hid], fun _ => rfl⟩

/-- What a claim of a numbered system writes: the next number of the row it takes. -/
theorem claim_numbered (hs : Numbered s) {w : WorkerId} {acc : AccountId} {r : Runner}
    {at_ now : Time} {id : JobId} {seen : DeliveryJob} {rest : List (JobId × DeliveryJob)}
    {db : Database} (hr : (s.workers w).runners acc = some r)
    (hpc : r.pc = .claiming at_ ((id, seen) :: rest))
    (hclaim : s.db.tryClaim id seen r.generation at_ now = .claimed db) :
    ∃ job, s.db.deliveryJobs.get? id = some job ∧
      db.deliveryJobs = s.db.deliveryJobs.update id
        (fun j => j.lease (job.attemptCount + 1) now) ∧
      ∀ i n, db.Attempted i n ↔ s.db.Attempted i n ∨ (id = i ∧ job.attemptCount + 1 = n) := by
  obtain ⟨job, hjob, _, hfresh, rfl⟩ := Database.tryClaim_eq_claimed hclaim
  obtain ⟨job', hjob', hnonneg, hle⟩ := hs.seen w acc r at_ _ id seen hr hpc (by simp)
  obtain rfl : job = job' := Option.some.inj (hjob.symm.trans hjob')
  have hcount : seen.attemptCount = job.attemptCount := by
    by_contra hne
    have htaken : s.db.Attempted id (seen.attemptCount + 1) :=
      ((hs.stored id job hjob).2 _).mpr ⟨by omega, by omega⟩
    obtain ⟨k, a, ha, hid, hn⟩ := htaken
    exact hfresh k a ha ⟨hid, hn⟩
  rw [hcount]
  refine ⟨job, hjob, rfl, ?_⟩
  intro i n
  rw [Database.attempted_insert i n rfl]

theorem attemptCount_mono (hs : Numbered s) (h : s.step a = some s') {id : JobId}
    {job : DeliveryJob} (hjob : s.db.deliveryJobs.get? id = some job) :
    ∃ job', s'.db.deliveryJobs.get? id = some job' ∧ job.attemptCount ≤ job'.attemptCount := by
  rcases step_attempts h with hkept | ⟨w, acc, now, at_, i, seen, rest, r, hr, hpc, hclaim⟩
  · obtain ⟨job', hjob', hcount⟩ := hkept.stored id job hjob
    exact ⟨job', hjob', hcount.ge⟩
  · obtain ⟨claimed, hclaimed, hjobs, _⟩ := claim_numbered hs hr hpc hclaim
    rw [hjobs]
    by_cases hid : i = id
    · subst hid
      obtain rfl : claimed = job := Option.some.inj (hclaimed.symm.trans hjob)
      refine ⟨claimed.lease (claimed.attemptCount + 1) now, by simp [hjob], ?_⟩
      simp only [DeliveryJob.lease]
      omega
    · exact ⟨job, by rw [Table.get?_update_of_ne hid, hjob], le_rfl⟩

theorem numbered_step (s : System) (a : Action) (s' : System) (h : s.step a = some s')
    (hs : Numbered s) : Numbered s' := by
  have hseen : ∀ w acc r at_ candidates id seen, (s'.workers w).runners acc = some r →
      r.pc = .claiming at_ candidates → (id, seen) ∈ candidates →
        ∃ job, s'.db.deliveryJobs.get? id = some job ∧ 0 ≤ seen.attemptCount ∧
          seen.attemptCount ≤ job.attemptCount := by
    intro w acc r' at_ candidates id seen hr' hpc' hmem
    have hmono : (∃ job, s.db.deliveryJobs.get? id = some job ∧ 0 ≤ seen.attemptCount ∧
        seen.attemptCount ≤ job.attemptCount) →
        ∃ job, s'.db.deliveryJobs.get? id = some job ∧ 0 ≤ seen.attemptCount ∧
          seen.attemptCount ≤ job.attemptCount := by
      rintro ⟨job, hjob, hnonneg, hle⟩
      obtain ⟨job', hjob', hcount⟩ := attemptCount_mono hs h hjob
      exact ⟨job', hjob', hnonneg, hle.trans hcount⟩
    rcases step_runner_cases h hr' with hr | ⟨x, r, e, _, hr, he, rfl, hdb⟩ |
      ⟨x, g, _, _, _, rfl⟩
    · exact hmono (hs.seen w acc r' at_ candidates id seen hr hpc' hmem)
    · obtain ⟨hsame, ⟨order, rfl⟩ | ⟨c, hpc⟩⟩ := runner_step_claiming he hpc'
      · obtain ⟨_, hjob⟩ := Table.mem_fetch.mp hmem
        refine ⟨seen, by rw [hdb, hsame, hjob], (hs.stored id seen hjob).1, le_rfl⟩
      · exact hmono (hs.seen w acc r at_ _ id seen hr hpc (List.mem_cons_of_mem _ hmem))
    · cases hpc'
  rcases step_attempts h with hkept | ⟨w, acc, now, at_, i, seen, rest, r, hr, hpc, hclaim⟩
  · constructor
    · intro id job' hjob'
      cases hjob : s.db.deliveryJobs.get? id with
      | none =>
        have hzero := hkept.created id job' hjob hjob'
        refine ⟨hzero.ge, fun n => ?_⟩
        rw [hkept.attempted]
        refine ⟨fun hn => absurd hn (hs.absent id n hjob), fun hn => ?_⟩
        omega
      | some job =>
        obtain ⟨job₁, hjob₁, hcount⟩ := hkept.stored id job hjob
        obtain rfl : job₁ = job' := Option.some.inj (hjob₁.symm.trans hjob')
        rw [hcount]
        obtain ⟨hnonneg, hnumbers⟩ := hs.stored id job hjob
        exact ⟨hnonneg, fun n => (hkept.attempted id n).trans (hnumbers n)⟩
    · intro id n hnone
      rw [hkept.attempted]
      refine hs.absent id n ?_
      cases hjob : s.db.deliveryJobs.get? id with
      | none => rfl
      | some job =>
        obtain ⟨job', hjob', _⟩ := hkept.stored id job hjob
        rw [hnone] at hjob'
        cases hjob'
    · exact hseen
  · obtain ⟨job, hjob, hjobs, hattempted⟩ := claim_numbered hs hr hpc hclaim
    constructor
    · intro id job' hjob'
      rw [hjobs] at hjob'
      by_cases hid : i = id
      · subst hid
        obtain ⟨hnonneg, hnumbers⟩ := hs.stored i job hjob
        rw [Table.get?_update_self, hjob] at hjob'
        obtain rfl := Option.some.inj hjob'
        refine ⟨by simp [DeliveryJob.lease]; omega, fun n => ?_⟩
        rw [hattempted, hnumbers]
        simp [DeliveryJob.lease]
        omega
      · rw [Table.get?_update_of_ne hid] at hjob'
        obtain ⟨hnonneg, hnumbers⟩ := hs.stored id job' hjob'
        refine ⟨hnonneg, fun n => ?_⟩
        rw [hattempted, hnumbers]
        simp [hid]
    · intro id n hnone
      rw [hjobs] at hnone
      rw [hattempted]
      by_cases hid : i = id
      · subst hid
        simp [hjob] at hnone
      · rw [Table.get?_update_of_ne hid] at hnone
        simpa [hid] using hs.absent id n hnone
    · exact hseen

/-- In a numbered system the claim of a ready job as it is stored succeeds. -/
theorem tryClaim_of_ready (hs : Numbered s) {id : JobId} {job : DeliveryJob}
    (hjob : s.db.deliveryJobs.get? id = some job) (hready : job.status = .ready)
    (generation : ℤ) (startedAt now : Time) :
    ∃ db, s.db.tryClaim id job generation startedAt now = .claimed db :=
  ⟨_, Database.tryClaim_of_counted hs.counted hjob hready⟩

end System

end TgPlatform
