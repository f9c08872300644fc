import TgPlatform.Storage.Rows

/-! # Delivery jobs

The transactions on `delivery_job`: requeueing stale sends, the scan and the
conditional claim, guarded transitions and the recording of results.
-/

namespace TgPlatform

/-- `_SENDING_STALE_S`, in microseconds. -/
def sendingStale : ℤ := 300000000

/-- `claim_next` takes the job at `now`: both due times are unset or past. -/
def DeliveryJob.due (job : DeliveryJob) (now : Time) : Bool :=
  job.nextAttemptAt.all (· ≤ now) && job.floodWaitUntil.all (· ≤ now)

/-- In `sending` for longer than the threshold. -/
def DeliveryJob.stale (job : DeliveryJob) (accountId : AccountId) (now : Time) : Bool :=
  job.accountId = accountId && job.status = .sending && job.updatedAt < now - sendingStale

def DeliveryJob.lease (job : DeliveryJob) (attemptCount : ℤ) (now : Time) : DeliveryJob :=
  { job with status := .leased, attemptCount, updatedAt := now }

def DeliveryJob.requeue (job : DeliveryJob) (now : Time) : DeliveryJob :=
  { job with status := .ready, updatedAt := now }

/-- What `transition` and `record_result` write besides the status. -/
structure StatusFields where
  nextAttemptAt : Option Time := none
  floodWaitUntil : Option Time := none
  errorClass : Option ErrorClass := none
  deriving DecidableEq, Repr

/-- The arguments `_record` passes to `record_result`. -/
structure ResultFields extends StatusFields where
  newStatus : JobStatus
  targetMessageId : Option ℤ := none
  requestRef : Option String := none
  deriving DecidableEq, Repr

def DeliveryJob.move (job : DeliveryJob) (dst : JobStatus) (fields : StatusFields) (now : Time) :
    DeliveryJob :=
  { job with
    status := dst
    nextAttemptAt := fields.nextAttemptAt
    floodWaitUntil := fields.floodWaitUntil
    lastErrorClass := fields.errorClass
    updatedAt := now }

inductive ClaimOutcome
  | lost
  | raised
  | claimed (db : Database)

/-- The outcome of `record_result`. -/
inductive RecordOutcome
  | stale
  | raised
  | recorded (db : Database)

namespace Database

/-- `_reclaim_stale_sending`. -/
def reclaimStaleSending (db : Database) (accountId : AccountId) (now : Time) : Database :=
  let stale := db.deliveryJobs.select fun j => j.stale accountId now
  { db with
    deliveryJobs := db.deliveryJobs.updateWhere (fun j => j.stale accountId now)
      fun j => j.requeue now
    deliveryAttempts := db.deliveryAttempts.updateWhere
      (fun a => a.jobId ∈ stale && a.finishedAt = none)
      fun a => { a with resultStatus := some .abandoned, finishedAt := some now } }

/-- `order` is an answer of the scan of `claim_next`. -/
def ReadyOrder (db : Database) (accountId : AccountId) (order : List JobId) : Prop :=
  db.deliveryJobs.Answers (fun j => j.accountId = accountId ∧ j.status = .ready)
    DeliveryJob.createdAt order

instance (db : Database) (accountId : AccountId) (order : List JobId) :
    Decidable (db.ReadyOrder accountId order) :=
  inferInstanceAs (Decidable (Table.Answers ..))

/-- The guarded update of one due candidate, read as `seen`, together with its attempt row;
a repeated attempt number raises and undoes the update. -/
def tryClaim (db : Database) (id : JobId) (seen : DeliveryJob) (generation : ℤ)
    (startedAt now : Time) : ClaimOutcome :=
  let next := seen.attemptCount + 1
  match db.deliveryJobs.cas id (fun j => j.status = .ready)
      fun j => j.lease next now with
  | none => .lost
  | some deliveryJobs =>
    if db.deliveryAttempts.any fun a => a.jobId = id ∧ a.attemptNo = next then .raised
    else .claimed { db with
      deliveryJobs
      deliveryAttempts := db.deliveryAttempts.insert {
        jobId := id, attemptNo := next, workerGeneration := generation, startedAt := startedAt } }

/-- `transition`; `none` when the job is not in `src`. -/
def transition (db : Database) (id : JobId) (src dst : JobStatus) (fields : StatusFields)
    (now : Time) : Option Database :=
  (db.deliveryJobs.cas id (fun j => j.status = src) fun j => j.move dst fields now).map
    fun deliveryJobs => { db with deliveryJobs }

def mapFromJob (id : JobId) (job : DeliveryJob) (targetMessageId : ℤ) : MessageMap where
  tenantId := job.tenantId
  projectId := job.projectId
  ruleId := job.ruleId
  routeId := job.routeId
  ruleVersionAtCreate := job.ruleVersion
  message := job.message
  sourceAlbumId := job.groupedId
  senderAccountId := job.accountId
  targetChatId := job.targetChatId
  targetTopicId := job.targetTopicId
  targetMessageId := targetMessageId
  lastAppliedRevision := job.revision
  deliveryJobId := id

/-- `record_result` for a job read as `job`. A mapping row that is already there is skipped, or
ends the transaction if expunging the rejected one raises. -/
def recordResult (db : Database) (id : JobId) (job : DeliveryJob) (attemptNo : ℤ)
    (fields : ResultFields) (now : Time) (expungeRaises : Bool) : RecordOutcome :=
  match db.deliveryJobs.cas id (fun j => j.status = .sending)
      fun j => j.move fields.newStatus fields.toStatusFields now with
  | none => .stale
  | some deliveryJobs =>
    let deliveryAttempts := db.deliveryAttempts.updateWhere
      (fun a => a.jobId = id && a.attemptNo = attemptNo)
      fun a => { a with
        finishedAt := some now
        resultStatus := some (.job fields.newStatus)
        errorClass := fields.errorClass
        requestRef := fields.requestRef }
    let recorded := { db with deliveryJobs, deliveryAttempts }
    match fields.targetMessageId with
    | some target =>
      if fields.newStatus = .succeeded ∧ job.kind = "send" then
        if db.messageMaps.any fun m => m.identity = (mapFromJob id job target).identity then
          if expungeRaises then .raised else .recorded recorded
        else .recorded { recorded with
          messageMaps := db.messageMaps.insert (mapFromJob id job target) }
      else .recorded recorded
    | none => .recorded recorded

/-! ## Mapping lookups -/

/-- The rows `lookup_many` prefetches for a batch of inbox rows. -/
def prefetched (rows : List (RowId × EventInbox)) (m : MessageMap) : Bool :=
  m.deletedAt = none && rows.any fun r =>
    r.2.message.sourceScope = m.message.sourceScope &&
    r.2.message.sourceChatId = m.message.sourceChatId &&
    (r.2.message.sourceMessageId = m.message.sourceMessageId ||
      r.2.replyToSourceId = some m.message.sourceMessageId)

/-- The live target parts of one message on one route. -/
def targetPart (routeId : RouteId) (message : MessageKey) (m : MessageMap) : Bool :=
  m.routeId = routeId && m.message = message && m.deletedAt = none

def mappingEntries (db : Database) (order : List RowId) : DictMappingView :=
  (db.messageMaps.fetch order).map fun m =>
    ⟨m.2.routeId, m.2.message, m.2.targetMessageId, m.2.senderAccountId⟩

/-- `find_target_message_ids` when the database answers in `order`. -/
def targetMessageIds (db : Database) (order : List RowId) : List ℤ :=
  (db.messageMaps.fetch order).map fun m => m.2.targetMessageId

/-! ## What the transactions do to one job -/

variable {db db' : Database} {id i : JobId} {job j j' : DeliveryJob} {accountId : AccountId}
  {generation attemptNo : ℤ} {startedAt now : Time} {src dst : JobStatus} {fields : StatusFields}
  {result : ResultFields} {expungeRaises : Bool}

theorem reclaimStaleSending_get? (i : JobId) :
    (db.reclaimStaleSending accountId now).deliveryJobs.get? i =
      (db.deliveryJobs.get? i).map fun j =>
        if j.stale accountId now then j.requeue now else j :=
  Table.get?_updateWhere i

/-- A claim moves exactly one ready job to `leased` and adds its attempt row. -/
theorem tryClaim_eq_claimed (h : db.tryClaim id job generation startedAt now = .claimed db') :
    ∃ j, db.deliveryJobs.get? id = some j ∧ j.status = .ready ∧
      (∀ k a, db.deliveryAttempts.get? k = some a →
        ¬(a.jobId = id ∧ a.attemptNo = job.attemptCount + 1)) ∧
      db' = { db with
        deliveryJobs := db.deliveryJobs.update id fun j => j.lease (job.attemptCount + 1) now
        deliveryAttempts := db.deliveryAttempts.insert {
          jobId := id, attemptNo := job.attemptCount + 1, workerGeneration := generation,
          startedAt := startedAt } } := by
  unfold tryClaim at h
  dsimp only at h
  split at h
  · cases h
  · rename_i jobs hcas
    obtain ⟨j, hj, hready, rfl⟩ := Table.cas_eq_some.mp hcas
    split at h
    · cases h
    · rename_i hattempt
      simp only [Bool.not_eq_true, Table.any_eq_false, decide_eq_false_iff_not] at hattempt
      exact ⟨j, hj, of_decide_eq_true hready, hattempt, (ClaimOutcome.claimed.inj h).symm⟩

def Counted (db : Database) : Prop :=
  ∀ k a, db.deliveryAttempts.get? k = some a →
    ∃ job, db.deliveryJobs.get? a.jobId = some job ∧ a.attemptNo ≤ job.attemptCount

def claim (db : Database) (id : JobId) (job : DeliveryJob) (generation : ℤ) (startedAt now : Time) :
    Database :=
  { db with
    deliveryJobs := db.deliveryJobs.update id fun j => j.lease (job.attemptCount + 1) now
    deliveryAttempts := db.deliveryAttempts.insert {
      jobId := id, attemptNo := job.attemptCount + 1, workerGeneration := generation,
      startedAt := startedAt } }

theorem tryClaim_of_counted (hc : db.Counted) (hjob : db.deliveryJobs.get? id = some job)
    (hready : job.status = .ready) :
    db.tryClaim id job generation startedAt now =
      .claimed (db.claim id job generation startedAt now) := by
  have hcas : db.deliveryJobs.cas id (fun j => j.status = .ready)
      (fun j => j.lease (job.attemptCount + 1) now) =
        some (db.deliveryJobs.update id fun j => j.lease (job.attemptCount + 1) now) :=
    Table.cas_eq_some.mpr ⟨job, hjob, by simp [hready], rfl⟩
  have hfresh : (db.deliveryAttempts.any fun a =>
      a.jobId = id ∧ a.attemptNo = job.attemptCount + 1) = false := by
    rw [Table.any_eq_false]
    intro k a ha
    rw [decide_eq_false_iff_not]
    rintro ⟨rfl, hn⟩
    obtain ⟨job', hjob', hle⟩ := hc k a ha
    obtain rfl : job = job' := Option.some.inj (hjob.symm.trans hjob')
    omega
  simp only [tryClaim, hcas, hfresh]
  rfl

theorem transition_eq_some (h : db.transition id src dst fields now = some db') :
    ∃ j, db.deliveryJobs.get? id = some j ∧ j.status = src ∧
      db' = { db with deliveryJobs := db.deliveryJobs.update id fun j => j.move dst fields now } := by
  obtain ⟨jobs, hcas, rfl⟩ := Option.map_eq_some_iff.mp h
  obtain ⟨j, hj, hsrc, rfl⟩ := Table.cas_eq_some.mp hcas
  exact ⟨j, hj, of_decide_eq_true hsrc, rfl⟩

theorem transition_getD_get? (db : Database) (i : JobId) (src dst : JobStatus)
    (fields : StatusFields) (now : Time) (k : JobId) :
    ((db.transition i src dst fields now).getD db).deliveryJobs.get? k =
      (db.deliveryJobs.get? k).map fun job =>
        if i = k ∧ job.status = src then job.move dst fields now else job := by
  cases ht : db.transition i src dst fields now with
  | some db' =>
    obtain ⟨job, hjob, hsrc, rfl⟩ := transition_eq_some ht
    by_cases hik : i = k
    · subst hik
      simp [hjob, hsrc]
    · simp [hik, Table.get?_update_of_ne hik]
  | none =>
    simp only [transition, Option.map_eq_none_iff, Table.cas_eq_none] at ht
    by_cases hik : i = k
    · subst hik
      cases hjob : db.deliveryJobs.get? i with
      | none => simp [hjob]
      | some job => simp [hjob, of_decide_eq_false (ht job hjob)]
    · simp [hik]

/-- A recorded result moves exactly one job out of `sending` and renumbers no attempt. -/
theorem recordResult_eq_recorded
    (h : db.recordResult id job attemptNo result now expungeRaises = .recorded db') :
    ∃ j close maps, db.deliveryJobs.get? id = some j ∧ j.status = .sending ∧
      (∀ a : DeliveryAttempt, (close a).jobId = a.jobId ∧ (close a).attemptNo = a.attemptNo) ∧
      db' = { db with
        deliveryJobs := db.deliveryJobs.update id fun j =>
          j.move result.newStatus result.toStatusFields now
        deliveryAttempts := db.deliveryAttempts.updateWhere
          (fun a => a.jobId = id && a.attemptNo = attemptNo) close
        messageMaps := maps } := by
  unfold recordResult at h
  dsimp only at h
  split at h
  · cases h
  · rename_i jobs hcas
    obtain ⟨j, hj, hsrc, rfl⟩ := Table.cas_eq_some.mp hcas
    have hmaps : ∃ maps, db' = { db with
        deliveryJobs := db.deliveryJobs.update id fun j =>
          j.move result.newStatus result.toStatusFields now
        deliveryAttempts := db.deliveryAttempts.updateWhere
          (fun a => a.jobId = id && a.attemptNo = attemptNo)
          fun a => { a with
            finishedAt := some now
            resultStatus := some (.job result.newStatus)
            errorClass := result.errorClass
            requestRef := result.requestRef }
        messageMaps := maps } := by
      split at h
      · split at h
        · split at h
          · split at h
            · cases h
            · exact ⟨_, (RecordOutcome.recorded.inj h).symm⟩
          · exact ⟨_, (RecordOutcome.recorded.inj h).symm⟩
        · exact ⟨_, (RecordOutcome.recorded.inj h).symm⟩
      · exact ⟨_, (RecordOutcome.recorded.inj h).symm⟩
    obtain ⟨maps, rfl⟩ := hmaps
    refine ⟨j, _, maps, hj, of_decide_eq_true hsrc, ?_, rfl⟩
    exact fun _ => ⟨rfl, rfl⟩

theorem recordResult_ne_stale (hjob : db.deliveryJobs.get? id = some j)
    (hsending : j.status = .sending) :
    db.recordResult id job attemptNo result now expungeRaises ≠ .stale := by
  unfold recordResult
  dsimp only
  split
  · rename_i hcas
    have hmiss := Table.cas_eq_none.mp hcas j hjob
    simp [hsending] at hmiss
  · split
    · split
      · split
        · split <;> simp
        · simp
      · simp
    · simp

theorem recordResult_eq_raised
    (h : db.recordResult id job attemptNo result now expungeRaises = .raised) :
    result.newStatus = .succeeded ∧ ∃ target, result.targetMessageId = some target := by
  unfold recordResult at h
  dsimp only at h
  split at h
  · cases h
  · split at h
    · rename_i target htarget
      split at h
      · rename_i hsend
        exact ⟨hsend.1, target, htarget⟩
      · cases h
    · cases h

end Database

end TgPlatform
