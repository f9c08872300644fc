import TgPlatform.Storage.Rows

/-! # The event inbox

Ingesting an event is a read of its source message followed by one commit;
draining is a read of unprocessed rows followed by one commit that inserts the
planned jobs and marks the rows. A violated unique constraint undoes the whole
commit.
-/

namespace TgPlatform

/-- The attributes `ingest` sets on a source message that it read as `seen`. -/
def SourceMessage.observe (seen : SourceMessage) (event : SourceEvent) (m : SourceMessage) :
    SourceMessage where
  tenantId := m.tenantId
  projectId := m.projectId
  message := m.message
  groupedId := m.groupedId
  latestRevision := if seen.latestRevision < event.revision then event.revision else m.latestRevision
  contentHash :=
    if seen.latestRevision < event.revision ∧ orElse event.payloadHash "" ≠ "" then
      event.payloadHash
    else m.contentHash
  tombstone := if event.kind = .delete then true else m.tombstone

/-- The row of a message first seen with `event`. -/
def SourceMessage.first (tenantId : TenantId) (projectId : ProjectId) (event : SourceEvent) :
    SourceMessage where
  tenantId := tenantId
  projectId := projectId
  message := event.message
  latestRevision := event.revision
  groupedId := event.groupedId
  contentHash := event.payloadHash

namespace Database

def ingestSelect (db : Database) (tenantId : TenantId) (projectId : ProjectId)
    (event : SourceEvent) : Option (RowId × SourceMessage) :=
  db.sourceMessages.find? fun m => m.identity = (tenantId, projectId, event.message)

/-- The commit of `ingest` after the read `seen`; `none` when a unique constraint rejects it
and `ingest` returns `False`. -/
def ingestCommit (db : Database) (seen : Option (RowId × SourceMessage)) (tenantId : TenantId)
    (projectId : ProjectId) (event : SourceEvent) (ingestSeq : ℤ) : Option Database :=
  if db.eventInbox.any fun r => r.dedup = event.dedup then none
  else
    let inbox := db.eventInbox.insert (inboxRow event ingestSeq)
    match seen with
    | none =>
      if db.sourceMessages.any fun m => m.identity = (tenantId, projectId, event.message) then none
      else some { db with
        sourceMessages := db.sourceMessages.insert (.first tenantId projectId event)
        eventInbox := inbox }
    | some (i, m) => some { db with
        sourceMessages := db.sourceMessages.update i (m.observe event)
        eventInbox := inbox }

/-- `order` is an answer of the query of `next_unprocessed` without its limit. -/
def UnprocessedOrder (db : Database) (order : List RowId) : Prop :=
  db.eventInbox.Answers (fun r => !r.processed) EventInbox.ingestSeq order

instance (db : Database) (order : List RowId) : Decidable (db.UnprocessedOrder order) :=
  inferInstanceAs (Decidable (Table.Answers ..))

/-- The rows `next_unprocessed` returns when the database answers in `order`. -/
def nextUnprocessed (db : Database) (order : List RowId) (limit : ℕ) : List (RowId × EventInbox) :=
  db.eventInbox.fetch (order.take limit)

/-- Insert jobs one by one, each behind a savepoint. On a repeated idempotency key the session
has already dropped the job when the conflict handler expunges it: `expungeRaises` tells whether
that raises and ends the batch, or the job is skipped. -/
def insertJobs (expungeRaises : Bool) (jobs : Table DeliveryJob) :
    List DeliveryJob → Option (Table DeliveryJob)
  | [] => some jobs
  | job :: rest =>
    if jobs.any fun j => j.idempotencyKey = job.idempotencyKey then
      if expungeRaises then none else insertJobs expungeRaises jobs rest
    else insertJobs expungeRaises (jobs.insert job) rest

/-- The jobs one drain builds; `stamp k` is the clock at the insert of the `k`-th job. -/
def drainedJobs (rows : List (RowId × EventInbox)) (plansFor : EventInbox → List DeliveryPlan)
    (tenantId : TenantId) (projectId : ProjectId) (stamp : ℕ → Time) : List DeliveryJob :=
  (rows.flatMap fun r => plansFor r.2).mapIdx fun k plan =>
    jobFromPlan plan tenantId projectId (stamp k)

/-- The commit of `drain_to_jobs`. -/
def drainToJobs (db : Database) (rows : List (RowId × EventInbox))
    (plansFor : EventInbox → List DeliveryPlan) (tenantId : TenantId) (projectId : ProjectId)
    (stamp : ℕ → Time) (expungeRaises : Bool) : Option Database :=
  let jobs := drainedJobs rows plansFor tenantId projectId stamp
  (insertJobs expungeRaises db.deliveryJobs jobs).map fun deliveryJobs => { db with
    deliveryJobs
    eventInbox := db.eventInbox.updateAll (rows.map Prod.fst) fun r => { r with processed := true } }

end Database

/-- `added` are the jobs of `new` that an insert on `jobs` keeps. -/
structure Inserted (jobs : Table DeliveryJob) (new added : List DeliveryJob) : Prop where
  sublist : added.Sublist new
  fresh : ∀ job ∈ added, ∀ i j, jobs.get? i = some j → j.idempotencyKey ≠ job.idempotencyKey
  nodup : (added.map DeliveryJob.idempotencyKey).Nodup
  complete : ∀ job ∈ new, ∃ i j, (jobs.append added).get? i = some j ∧
    j.idempotencyKey = job.idempotencyKey

theorem append_insert (jobs : Table DeliveryJob) (job : DeliveryJob) (rest : List DeliveryJob) :
    (jobs.insert job).append rest = jobs.append (job :: rest) := by
  simp [Table.insert, Table.append]

theorem Inserted.skip {jobs : Table DeliveryJob} {job : DeliveryJob}
    {rest added : List DeliveryJob} (h : Inserted jobs rest added) {i : JobId} {j : DeliveryJob}
    (hi : jobs.get? i = some j) (hkey : j.idempotencyKey = job.idempotencyKey) :
    Inserted jobs (job :: rest) added where
  sublist := h.sublist.cons _
  fresh := h.fresh
  nodup := h.nodup
  complete job' hj := by
    rcases List.mem_cons.mp hj with rfl | hj
    · exact ⟨i, j, Table.get?_append_of_some hi, hkey⟩
    · exact h.complete job' hj

theorem Inserted.cons {jobs : Table DeliveryJob} {job : DeliveryJob}
    {rest added : List DeliveryJob} (h : Inserted (jobs.insert job) rest added)
    (hfresh : ∀ i j, jobs.get? i = some j → j.idempotencyKey ≠ job.idempotencyKey) :
    Inserted jobs (job :: rest) (job :: added) where
  sublist := h.sublist.cons_cons _
  fresh job' hj i j hi := by
    rcases List.mem_cons.mp hj with rfl | hj
    · exact hfresh i j hi
    · exact h.fresh job' hj i j (Table.get?_append_of_some hi)
  nodup := by
    rw [List.map_cons, List.nodup_cons]
    refine ⟨fun hm => ?_, h.nodup⟩
    obtain ⟨job', hj, he⟩ := List.mem_map.mp hm
    exact h.fresh job' hj jobs.size job (by simp [Table.get?_insert]) he.symm
  complete job' hj := by
    rw [← append_insert]
    rcases List.mem_cons.mp hj with rfl | hj
    · exact ⟨jobs.size, job', Table.get?_append_of_some (by simp [Table.get?_insert]), rfl⟩
    · exact h.complete job' hj

theorem insertJobs_eq_some {expungeRaises : Bool} {new : List DeliveryJob} :
    ∀ {jobs jobs' : Table DeliveryJob},
    Database.insertJobs expungeRaises jobs new = some jobs' →
      ∃ added, Inserted jobs new added ∧ jobs' = jobs.append added := by
  induction new with
  | nil =>
    intro jobs jobs' h
    refine ⟨[], ⟨.slnil, by simp, .nil, by simp⟩, ?_⟩
    rw [Database.insertJobs, Option.some.injEq] at h
    simp [← h, Table.append]
  | cons job rest ih =>
    intro jobs jobs' h
    unfold Database.insertJobs at h
    split at h
    · rename_i hstored
      obtain ⟨i, j, hi, hkey⟩ := Table.any_iff.mp hstored
      split at h
      · cases h
      · obtain ⟨added, hadded, rfl⟩ := ih h
        exact ⟨added, hadded.skip hi (of_decide_eq_true hkey), rfl⟩
    · rename_i hfresh
      simp only [Bool.not_eq_true, Table.any_eq_false, decide_eq_false_iff_not] at hfresh
      obtain ⟨added, hadded, rfl⟩ := ih h
      exact ⟨job :: added, hadded.cons hfresh, append_insert ..⟩

namespace Database

variable {db db' : Database} {rows : List (RowId × EventInbox)}
  {plansFor : EventInbox → List DeliveryPlan} {tenantId : TenantId} {projectId : ProjectId}
  {stamp : ℕ → Time} {expungeRaises : Bool} {event : SourceEvent}
  {seen : Option (RowId × SourceMessage)} {seq : ℤ}

theorem drainToJobs_eq_some
    (h : db.drainToJobs rows plansFor tenantId projectId stamp expungeRaises = some db') :
    ∃ added, Inserted db.deliveryJobs (drainedJobs rows plansFor tenantId projectId stamp) added ∧
      db' = { db with
        deliveryJobs := db.deliveryJobs.append added
        eventInbox := db.eventInbox.updateAll (rows.map Prod.fst)
          fun r => { r with processed := true } } := by
  obtain ⟨jobs, hjobs, rfl⟩ := Option.map_eq_some_iff.mp h
  obtain ⟨added, hadded, rfl⟩ := insertJobs_eq_some hjobs
  exact ⟨added, hadded, rfl⟩

theorem mem_drainedJobs {job : DeliveryJob}
    (h : job ∈ drainedJobs rows plansFor tenantId projectId stamp) :
    ∃ r ∈ rows, ∃ plan ∈ plansFor r.2, ∃ now, job = jobFromPlan plan tenantId projectId now := by
  obtain ⟨k, hk, he⟩ := List.mem_mapIdx.mp h
  obtain ⟨r, hr, hplan⟩ := List.mem_flatMap.mp (List.getElem_mem hk)
  exact ⟨r, hr, _, hplan, stamp k, he.symm⟩

theorem jobFromPlan_mem_drainedJobs (tenantId : TenantId) (projectId : ProjectId)
    (stamp : ℕ → Time) {r : RowId × EventInbox} {plan : DeliveryPlan} (hr : r ∈ rows)
    (hplan : plan ∈ plansFor r.2) :
    ∃ now, jobFromPlan plan tenantId projectId now ∈
      drainedJobs rows plansFor tenantId projectId stamp := by
  have hmem : plan ∈ rows.flatMap fun r => plansFor r.2 := List.mem_flatMap.mpr ⟨r, hr, hplan⟩
  obtain ⟨k, hk, he⟩ := List.mem_iff_getElem.mp hmem
  exact ⟨stamp k, List.mem_mapIdx.mpr ⟨k, hk, by rw [he]⟩⟩

/-- An ingest that commits adds exactly its own inbox row and touches one source message. -/
theorem ingestCommit_eq_some (h : db.ingestCommit seen tenantId projectId event seq = some db') :
    (∀ i r, db.eventInbox.get? i = some r → r.dedup ≠ event.dedup) ∧
      ∃ sources, db' = { db with
          sourceMessages := sources
          eventInbox := db.eventInbox.insert (inboxRow event seq) } ∧
        ((seen = none ∧ sources = db.sourceMessages.insert (.first tenantId projectId event)) ∨
          ∃ i m, seen = some (i, m) ∧ sources = db.sourceMessages.update i (m.observe event)) := by
  unfold ingestCommit at h
  split at h
  · cases h
  · rename_i hdedup
    simp only [Bool.not_eq_true, Table.any_eq_false, decide_eq_false_iff_not] at hdedup
    refine ⟨hdedup, ?_⟩
    split at h
    · split at h
      · cases h
      · exact ⟨_, (Option.some.inj h).symm, Or.inl ⟨rfl, rfl⟩⟩
    · exact ⟨_, (Option.some.inj h).symm, Or.inr ⟨_, _, rfl, rfl⟩⟩

end Database

end TgPlatform
