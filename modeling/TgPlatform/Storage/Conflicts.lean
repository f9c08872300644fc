import TgPlatform.Storage.Inbox
import TgPlatform.Storage.Jobs

/-! # Conflicts inside a transaction

A drained job or a mapping row that is already there is rejected behind a
savepoint. The rolled back savepoint has dropped the rejected row from the
session, so expunging it in the handler raises: the one conflict that is to be
skipped ends the whole transaction.
-/

namespace TgPlatform

/-! ## Draining -/

/-- No key of the jobs is stored, and none is there twice. -/
def Unstored (jobs : Table DeliveryJob) (new : List DeliveryJob) : Prop :=
  (∀ job ∈ new, ∀ i j, jobs.get? i = some j → j.idempotencyKey ≠ job.idempotencyKey) ∧
    (new.map DeliveryJob.idempotencyKey).Nodup

theorem unstored_cons {jobs : Table DeliveryJob} {job : DeliveryJob} {rest : List DeliveryJob} :
    Unstored jobs (job :: rest) ↔
      (∀ i j, jobs.get? i = some j → j.idempotencyKey ≠ job.idempotencyKey) ∧
        Unstored (jobs.insert job) rest := by
  have hsize : (jobs.insert job).get? jobs.size = some job := by simp [Table.get?_insert]
  constructor
  · rintro ⟨hfresh, hnodup⟩
    rw [List.map_cons, List.nodup_cons] at hnodup
    refine ⟨hfresh job List.mem_cons_self, ?_, hnodup.2⟩
    intro other hother i j hj
    rw [Table.get?_insert] at hj
    split at hj
    · cases hj
      rintro hkey
      exact hnodup.1 (List.mem_map.mpr ⟨other, hother, hkey.symm⟩)
    · exact hfresh other (List.mem_cons_of_mem job hother) i j hj
  · rintro ⟨hjob, hfresh, hnodup⟩
    constructor
    · intro other hother i j hj
      rcases List.mem_cons.mp hother with rfl | hother
      · exact hjob i j hj
      · exact hfresh other hother i j (Table.get?_append_of_some hj)
    · rw [List.map_cons, List.nodup_cons]
      refine ⟨?_, hnodup⟩
      intro hmem
      obtain ⟨other, hother, hkey⟩ := List.mem_map.mp hmem
      exact hfresh other hother jobs.size job hsize hkey.symm

theorem insertJobs_isSome_iff {new : List DeliveryJob} : ∀ {jobs : Table DeliveryJob},
    (∃ jobs', Database.insertJobs true jobs new = some jobs') ↔ Unstored jobs new := by
  induction new with
  | nil =>
    intro jobs
    constructor
    · intro _
      exact ⟨by simp, .nil⟩
    · intro _
      exact ⟨jobs, rfl⟩
  | cons job rest ih =>
    intro jobs
    have hcons : Database.insertJobs true jobs (job :: rest) =
        if jobs.any fun j => j.idempotencyKey = job.idempotencyKey then none
        else Database.insertJobs true (jobs.insert job) rest := rfl
    rw [unstored_cons, ← ih, hcons]
    cases hstored : jobs.any fun j => j.idempotencyKey = job.idempotencyKey with
    | true =>
      obtain ⟨i, j, hj, hkey⟩ := Table.any_iff.mp hstored
      constructor
      · rintro ⟨jobs', hjobs⟩
        cases hjobs
      · rintro ⟨hfresh, -⟩
        exact absurd (of_decide_eq_true hkey) (hfresh i j hj)
    | false =>
      have hfresh := Table.any_eq_false.mp hstored
      simp only [decide_eq_false_iff_not] at hfresh
      constructor
      · intro hrest
        exact ⟨hfresh, hrest⟩
      · rintro ⟨-, hrest⟩
        exact hrest

namespace Database

variable (db : Database)

/-- The drain stores exactly the jobs whose keys were not there, marks its rows and commits. -/
def DrainSkips (rows : List (RowId × EventInbox)) (plansFor : EventInbox → List DeliveryPlan)
    (tenantId : TenantId) (projectId : ProjectId) (stamp : ℕ → Time) : Prop :=
  ∃ added, Inserted db.deliveryJobs (drainedJobs rows plansFor tenantId projectId stamp) added ∧
    db.drainToJobs rows plansFor tenantId projectId stamp true = some { db with
      deliveryJobs := db.deliveryJobs.append added
      eventInbox := db.eventInbox.updateAll (rows.map Prod.fst) fun r => { r with processed := true } }

variable {db} {rows : List (RowId × EventInbox)} {plansFor : EventInbox → List DeliveryPlan}
  {tenantId : TenantId} {projectId : ProjectId} {stamp : ℕ → Time}

theorem drainSkips_iff : db.DrainSkips rows plansFor tenantId projectId stamp ↔
    Unstored db.deliveryJobs (drainedJobs rows plansFor tenantId projectId stamp) := by
  rw [← insertJobs_isSome_iff]
  unfold DrainSkips
  constructor
  · rintro ⟨added, -, hdrain⟩
    obtain ⟨jobs', hjobs, -⟩ := Option.map_eq_some_iff.mp hdrain
    exact ⟨jobs', hjobs⟩
  · rintro ⟨jobs', hjobs⟩
    obtain ⟨db', hdrain⟩ :
      ∃ db', db.drainToJobs rows plansFor tenantId projectId stamp true = some db' :=
      ⟨_, Option.map_eq_some_iff.mpr ⟨jobs', hjobs, rfl⟩⟩
    obtain ⟨added, hadded, rfl⟩ := drainToJobs_eq_some hdrain
    exact ⟨added, hadded, hdrain⟩

/-! ## Recording -/

variable (db) in
/-- A job in `sending` gets the new status, whatever mapping rows are there. -/
def RecordSkips (id : JobId) (job : DeliveryJob) (attemptNo : ℤ) (fields : ResultFields) (now : Time) :
    Prop :=
  ∀ j, db.deliveryJobs.get? id = some j → j.status = .sending →
    ∃ db', db.recordResult id job attemptNo fields now true = .recorded db' ∧
      db'.deliveryJobs.get? id = some (j.move fields.newStatus fields.toStatusFields now)

/-- The result of a send is stored together with a mapping row that is already there. -/
def MapStored (db : Database) (id : JobId) (job : DeliveryJob) (fields : ResultFields) : Prop :=
  fields.newStatus = .succeeded ∧ job.kind = "send" ∧ ∃ target, fields.targetMessageId = some target ∧
    ∃ i m, db.messageMaps.get? i = some m ∧ m.identity = (mapFromJob id job target).identity

variable {id : JobId} {job : DeliveryJob} {attemptNo : ℤ} {fields : ResultFields} {now : Time}

theorem recordResult_raised_iff {j : DeliveryJob} (hj : db.deliveryJobs.get? id = some j)
    (hsending : j.status = .sending) :
    db.recordResult id job attemptNo fields now true = .raised ↔ db.MapStored id job fields := by
  have hcas : db.deliveryJobs.cas id (fun j => j.status = .sending)
      (fun j => j.move fields.newStatus fields.toStatusFields now) = some (db.deliveryJobs.update id
        fun j => j.move fields.newStatus fields.toStatusFields now) :=
    Table.cas_eq_some.mpr ⟨j, hj, decide_eq_true hsending, rfl⟩
  unfold recordResult MapStored
  rw [hcas]
  dsimp only
  cases htarget : fields.targetMessageId with
  | none => simp
  | some target =>
    by_cases hsend : fields.newStatus = .succeeded ∧ job.kind = "send"
    · simp only [hsend, and_self, if_true, true_and, Option.some.injEq, exists_eq_left']
      cases hany : db.messageMaps.any fun m => m.identity = (mapFromJob id job target).identity with
      | true =>
        obtain ⟨i, m, hm, hidentity⟩ := Table.any_iff.mp hany
        simp only [if_true, true_iff]
        exact ⟨i, m, hm, of_decide_eq_true hidentity⟩
      | false =>
        have hnone := Table.any_eq_false.mp hany
        simp only [decide_eq_false_iff_not] at hnone
        simp only [Bool.false_eq_true, if_false, reduceCtorEq, false_iff, not_exists, not_and]
        exact hnone
    · simp only [hsend, if_false, reduceCtorEq, false_iff]
      rintro ⟨hsucceeded, hkind, -⟩
      exact hsend ⟨hsucceeded, hkind⟩

theorem recordSkips_iff : db.RecordSkips id job attemptNo fields now ↔
    ∀ j, db.deliveryJobs.get? id = some j → j.status = .sending → ¬ db.MapStored id job fields := by
  unfold RecordSkips
  apply forall_congr'
  intro j
  apply forall_congr'
  intro hj
  apply forall_congr'
  intro hsending
  have hraise : db.recordResult id job attemptNo fields now true = .raised ↔
    db.MapStored id job fields :=
    recordResult_raised_iff hj hsending
  rw [← hraise]
  constructor
  · rintro ⟨db', hrecord, -⟩ hraised
    rw [hrecord] at hraised
    cases hraised
  · intro hraised
    cases hrecord : db.recordResult id job attemptNo fields now true with
    | stale => exact absurd hrecord (recordResult_ne_stale hj hsending)
    | raised => exact absurd hrecord hraised
    | recorded db' =>
      obtain ⟨_, _, _, -, -, -, rfl⟩ := recordResult_eq_recorded hrecord
      exact ⟨_, rfl, by rw [Table.get?_update_self, hj]; rfl⟩

/-- A conflict is skipped exactly if there is none. -/
theorem conflicts_skipped_iff (db : Database) :
    (∀ rows plansFor tenantId projectId stamp, db.DrainSkips rows plansFor tenantId projectId stamp ↔
      Unstored db.deliveryJobs (drainedJobs rows plansFor tenantId projectId stamp)) ∧
    ∀ id job attemptNo fields now, db.RecordSkips id job attemptNo fields now ↔
      ∀ j, db.deliveryJobs.get? id = some j → j.status = .sending → ¬ db.MapStored id job fields :=
  ⟨fun _ _ _ _ _ => drainSkips_iff, fun _ _ _ _ _ => recordSkips_iff⟩

/-! ## A row that was drained before -/

def drainedPlan : DeliveryPlan where
  kind := .send
  ruleId := "r"
  ruleVersion := 1
  routeId := "r1"
  accountId := "A"
  sourceScope := "peer:5"
  sourceChatId := 5
  sourceMessageId := 3
  revision := 1
  targetChatId := 7
  targetTopicId := none
  mode := .copy
  payloadRef := none
  payloadHash := none
  requiresApproval := false

def drainedRow : EventInbox :=
  inboxRow { kind := .create, sourceScope := "peer:5", sourceChatId := 5, sourceMessageId := 3
             revision := 1, accountId := "A" } 1

/-- Another runner has drained the row, this one has read it before. -/
def drainedTwice : Database where
  __ := Database.empty
  deliveryJobs := Table.empty.insert (jobFromPlan drainedPlan "t" "p" 0)
  eventInbox := Table.empty.insert { drainedRow with processed := true }

/-- The second runner stores nothing and commits nothing. -/
theorem second_drain_raises :
    ¬ ((∀ db rows plansFor tenantId projectId stamp,
        Database.DrainSkips db rows plansFor tenantId projectId stamp) ∧
      ∀ db id job attemptNo fields now, Database.RecordSkips db id job attemptNo fields now) := by
  rintro ⟨hskips, -⟩
  obtain ⟨added, -, hdrain⟩ :=
    hskips drainedTwice [(0, drainedRow)] (fun _ => [drainedPlan]) "t" "p" (fun _ => 5)
  have hnone : drainedTwice.drainToJobs [(0, drainedRow)] (fun _ => [drainedPlan]) "t" "p"
      (fun _ => 5) true = none := by
    have hstored : (Database.insertJobs true drainedTwice.deliveryJobs
        (drainedJobs [(0, drainedRow)] (fun _ => [drainedPlan]) "t" "p" fun _ => 5)).isNone := by
      decide +kernel
    rw [drainToJobs, Option.isNone_iff_eq_none.mp hstored, Option.map_none]
  rw [hnone] at hdrain
  cases hdrain

end Database

end TgPlatform
