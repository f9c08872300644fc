import TgPlatform.Pipeline.Steps

/-! # Inbox rows and drain batches

An inbox row never changes but for its processed flag, which only a drain
commit sets, and a drain batch holds rows as they are stored.
-/

namespace TgPlatform

def EventInbox.content (r : EventInbox) : EventInbox := { r with processed := false }

@[simp] theorem eventFromInbox_content (r : EventInbox) :
    eventFromInbox r.content = eventFromInbox r := rfl

theorem EventInbox.message_of_content {r r' : EventInbox} (h : r'.content = r.content) :
    r'.message = r.message := by
  have hmessage := congrArg EventInbox.message h
  exact hmessage

def RunnerPc.batch : RunnerPc → List (RowId × EventInbox)
  | .prefetching rows | .draining rows _ => rows
  | _ => []

section Runner

variable {d : RunnerDeps} {w : WorkerId} {acc : AccountId} {db : Database} {r : Runner}
  {x : RunnerAction} {e : RunnerEffect}

theorem runner_step_batch (he : r.step d w acc db x = some e) :
    e.runner.pc.batch = [] ∨ (e.runner.pc.batch = r.pc.batch ∧ e.db = db) ∨
      ∃ order limit, x = .drainRead order limit ∧ db.UnprocessedOrder order ∧ e.db = db ∧
        e.runner.pc.batch = db.nextUnprocessed order limit := by
  cases Runner.stepped_of_step he with
  | drainRead order limit _ _ horder =>
    exact Or.inr (Or.inr ⟨order, limit, rfl, horder, rfl, rfl⟩)
  | drainPrefetch order rows hpc _ => exact Or.inr (Or.inl ⟨by rw [hpc]; rfl, rfl⟩)
  | settle now clock draw h decision _ =>
    obtain ⟨_, _, hsettled⟩ := Runner.settleGate_eq d db r h decision now clock draw
    rw [hsettled]
    exact Or.inl (by by_cases hallow : decision = .allow <;> simp [hallow, RunnerPc.batch])
  | execute now h targetIds _ =>
    rcases Runner.startCall_cases d w acc db r h targetIds now with ⟨_, _, hcall⟩ | ⟨_, _, hcall⟩ <;>
      rw [hcall] <;> exact Or.inl rfl
  | record now clock draw raises h called result _ =>
    obtain ⟨_, ⟨_, _, hafter⟩ | ⟨_, hafter⟩⟩ := Runner.recordOutcome_cases d db r h result now
      clock draw raises <;> rw [hafter] <;> exact Or.inl rfl
  | _ => exact Or.inl rfl

theorem runner_step_inbox (he : r.step d w acc db x = some e) :
    (e.db.eventInbox = db.eventInbox ∧ e.db.sourceMessages = db.sourceMessages) ∨
      ∃ draw stamp raises rows mapping,
      x = .drainCommit draw stamp raises ∧ r.pc = .draining rows mapping ∧
        db.drainToJobs rows (plansFor d mapping draw) d.tenantId d.projectId stamp raises =
          some e.db := by
  cases Runner.stepped_of_step he with
  | drained draw stamp raises rows mapping db' hpc hdrain =>
    exact Or.inr ⟨draw, stamp, raises, rows, mapping, rfl, hpc, hdrain⟩
  | claimed now at_ id seen rest db' _ _ hclaim =>
    obtain ⟨_, _, _, _, rfl⟩ := Database.tryClaim_eq_claimed hclaim
    exact Or.inl ⟨rfl, rfl⟩
  | settle now clock draw h decision _ =>
    obtain ⟨fields, _, hsettled⟩ := Runner.settleGate_eq d db r h decision now clock draw
    rw [hsettled]
    refine Or.inl ?_
    cases hdb : db.transition h.id .leased decision.target fields now with
    | none => exact ⟨rfl, rfl⟩
    | some db' =>
      obtain ⟨_, _, _, rfl⟩ := Database.transition_eq_some hdb
      exact ⟨rfl, rfl⟩
  | execute now h targetIds _ =>
    rcases Runner.startCall_cases d w acc db r h targetIds now with ⟨_, _, hcall⟩ | ⟨_, _, hcall⟩ <;>
      rw [hcall] <;> exact Or.inl ⟨rfl, rfl⟩
  | record now clock draw raises h called result _ =>
    obtain ⟨_, ⟨_, hrecord, hafter⟩ | ⟨_, hafter⟩⟩ := Runner.recordOutcome_cases d db r h result now
      clock draw raises <;> rw [hafter]
    · obtain ⟨_, _, _, _, _, _, rfl⟩ := Database.recordResult_eq_recorded hrecord
      exact Or.inl ⟨rfl, rfl⟩
    · exact Or.inl ⟨rfl, rfl⟩
  | _ => exact Or.inl ⟨rfl, rfl⟩

end Runner

structure IngestedBy (s : System) (a : Action) (s' : System) (k : ℕ) (c : IngestCall) : Prop where
  action : a = .ingestCommit k
  call : s.ingests[k]? = some c
  fresh : ∀ i r, s.db.eventInbox.get? i = some r → r.dedup ≠ c.event.dedup
  inbox : s'.db.eventInbox = s.db.eventInbox.insert (inboxRow c.event 0)
  sources : (c.seen = none ∧ s'.db.sourceMessages =
      s.db.sourceMessages.insert (.first c.tenantId c.projectId c.event)) ∨
    ∃ i m, c.seen = some (i, m) ∧
      s'.db.sourceMessages = s.db.sourceMessages.update i (m.observe c.event)
  rest : s'.workers = s.workers ∧ s'.db.deliveryJobs = s.db.deliveryJobs
  history : s'.history = s.history ++ [.ingested c.tenantId c.projectId c.event]

structure DrainedBy (s : System) (a : Action) (s' : System) (w : WorkerId) (acc : AccountId)
    (rows : List (RowId × EventInbox)) (mapping : DictMappingView) (draw : EventInbox → Draw)
    (stamp : ℕ → Time) (raises : Bool) : Prop where
  action : a = .runner w acc (.drainCommit draw stamp raises)
  runner : ∃ r, (s.workers w).runners acc = some r ∧ r.pc = .draining rows mapping
  commit : s.db.drainToJobs rows (plansFor (s.workers w).deps mapping draw)
    (s.workers w).deps.tenantId (s.workers w).deps.projectId stamp raises = some s'.db

namespace System

variable {s s' : System} {a : Action}

theorem ingestCommit_step {k : ℕ} (h : s.step (.ingestCommit k) = some s') :
    s' = { s with ingests := s.ingests.eraseIdx k } ∨
      (s'.ingests = s.ingests.eraseIdx k ∧ ∃ c, IngestedBy s (.ingestCommit k) s' k c) := by
  obtain ⟨c, hc, rfl⟩ := Option.map_eq_some_iff.mp h
  rcases commitIngest_cases (s := { s with ingests := s.ingests.eraseIdx k }) c with
    hsame | ⟨db, hdb, hcommit⟩
  · exact Or.inl hsame
  · obtain ⟨hfresh, sources, rfl, hsources⟩ := Database.ingestCommit_eq_some hdb
    rw [hcommit]
    refine Or.inr ⟨rfl, c, rfl, hc, hfresh, rfl, ?_, ⟨rfl, rfl⟩, rfl⟩
    rcases hsources with ⟨hseen, rfl⟩ | ⟨i, m, hseen, rfl⟩
    · exact Or.inl ⟨hseen, rfl⟩
    · exact Or.inr ⟨i, m, hseen, rfl⟩

/-- The inbox changes only by an ingest or a drain, the source messages only by an ingest. -/
theorem inbox_step (h : s.step a = some s') :
    (s'.db.eventInbox = s.db.eventInbox ∧ s'.db.sourceMessages = s.db.sourceMessages) ∨
    (∃ k c, IngestedBy s a s' k c) ∨
    ∃ w acc rows mapping draw stamp raises,
      DrainedBy s a s' w acc rows mapping draw stamp raises := by
  cases a with
  | runner w acc x =>
    obtain ⟨r, e, hr, he, rfl⟩ := step_runner_eq_some h
    rcases runner_step_inbox he with hsame | ⟨draw, stamp, raises, rows, mapping, rfl, hpc, hdrain⟩
    · exact Or.inl hsame
    · exact Or.inr (Or.inr ⟨w, acc, rows, mapping, draw, stamp, raises, rfl, ⟨r, hr, hpc⟩, hdrain⟩)
  | host w x =>
    obtain ⟨e, he, rfl⟩ := step_host_eq_some h
    cases Worker.stepped_of_step he with
    | cancelJob id src now db' _ hdb =>
      obtain ⟨_, _, _, rfl⟩ := Database.transition_eq_some hdb
      exact Or.inl ⟨rfl, rfl⟩
    | _ => exact Or.inl ⟨rfl, rfl⟩
  | crash w =>
    obtain rfl := Option.some.inj h
    exact Or.inl ⟨rfl, rfl⟩
  | ingestRead w acc raw pyHash =>
    obtain ⟨x, _, rfl⟩ := Option.map_eq_some_iff.mp h
    exact Or.inl ⟨rfl, rfl⟩
  | ingestCommit k =>
    rcases ingestCommit_step h with rfl | ⟨_, c, hingested⟩
    · exact Or.inl ⟨rfl, rfl⟩
    · exact Or.inr (Or.inl ⟨k, c, hingested⟩)
  | publish acc rows =>
    obtain rfl := Option.some.inj h
    exact Or.inl ⟨rfl, rfl⟩
  | enqueue reply now =>
    simp only [step] at h
    split at h <;> cases h
    exact Or.inl ⟨rfl, rfl⟩
  | operatorRead call i =>
    obtain ⟨job, _, h⟩ := Option.bind_eq_some_iff.mp h
    split at h <;> cases h
    exact Or.inl ⟨rfl, rfl⟩
  | operatorWrite k =>
    obtain ⟨q, _, rfl⟩ := Option.map_eq_some_iff.mp h
    exact Or.inl ⟨rfl, rfl⟩

theorem drained_inbox {w : WorkerId} {acc : AccountId} {rows : List (RowId × EventInbox)}
    {mapping : DictMappingView} {draw : EventInbox → Draw} {stamp : ℕ → Time} {raises : Bool}
    (h : DrainedBy s a s' w acc rows mapping draw stamp raises) (i : RowId) :
    s'.db.eventInbox.get? i = (s.db.eventInbox.get? i).map fun r =>
      if i ∈ rows.map Prod.fst then { r with processed := true } else r := by
  obtain ⟨added, _, hdb⟩ := Database.drainToJobs_eq_some h.commit
  rw [hdb]
  exact Table.get?_updateAll i

theorem sources_step (h : s.step a = some s') :
    s'.db.sourceMessages = s.db.sourceMessages ∨ ∃ k c, IngestedBy s a s' k c := by
  rcases inbox_step h with ⟨_, hsame⟩ | hingested | ⟨w, acc, rows, mapping, draw, stamp, raises,
    hdrained⟩
  · exact Or.inl hsame
  · exact Or.inr hingested
  · obtain ⟨added, _, hdb⟩ := Database.drainToJobs_eq_some hdrained.commit
    exact Or.inl (by rw [hdb])

theorem ingested_step (h : s.step a = some s') {tenantId : TenantId} {projectId : ProjectId}
    {event : SourceEvent} (hmem : .ingested tenantId projectId event ∈ s'.history) :
    .ingested tenantId projectId event ∈ s.history ∨ ∃ k c, IngestedBy s a s' k c ∧
      c.tenantId = tenantId ∧ c.projectId = projectId ∧ c.event = event := by
  rcases step_event h with hsame | ⟨ev, hsnoc, _, hingest⟩
  · exact Or.inl (by rwa [hsame] at hmem)
  · rw [hsnoc, List.mem_append, List.mem_singleton] at hmem
    rcases hmem with hmem | rfl
    · exact Or.inl hmem
    · obtain ⟨k, rfl⟩ := hingest _ _ _ rfl
      rcases ingestCommit_step h with rfl | ⟨_, c, hingested⟩
      · simp at hsnoc
      · have hlast := hingested.history.symm.trans hsnoc
        obtain ⟨rfl, rfl, rfl⟩ : c.tenantId = tenantId ∧ c.projectId = projectId ∧
            c.event = event := by simpa using hlast
        exact Or.inr ⟨k, c, hingested, rfl, rfl, rfl⟩

theorem inbox_row_step (h : s.step a = some s') {i : RowId} {r : EventInbox}
    (hr : s.db.eventInbox.get? i = some r) : ∃ r', s'.db.eventInbox.get? i = some r' ∧
      r'.content = r.content ∧ (r.processed = true → r'.processed = true) := by
  rcases inbox_step h with ⟨hsame, _⟩ | ⟨k, c, hingested⟩ | ⟨w, acc, rows, mapping, draw, stamp,
    raises, hdrained⟩
  · exact ⟨r, by rw [hsame, hr], rfl, id⟩
  · refine ⟨r, ?_, rfl, id⟩
    rw [hingested.inbox]
    exact Table.get?_append_of_some hr
  · refine ⟨_, by rw [drained_inbox hdrained, hr]; rfl, ?_, ?_⟩
    · split <;> rfl
    · split
      · exact fun _ => rfl
      · exact id

theorem inbox_row_new (h : s.step a = some s') {i : RowId} {r' : EventInbox}
    (hr : s.db.eventInbox.get? i = none) (hr' : s'.db.eventInbox.get? i = some r') :
    ∃ k c, IngestedBy s a s' k c ∧ r' = inboxRow c.event 0 ∧ i = s.db.eventInbox.size := by
  rcases inbox_step h with ⟨hsame, _⟩ | ⟨k, c, hingested⟩ | ⟨w, acc, rows, mapping, draw, stamp,
    raises, hdrained⟩
  · rw [hsame, hr] at hr'
    cases hr'
  · rw [hingested.inbox, Table.get?_insert] at hr'
    split at hr'
    · exact ⟨k, c, hingested, (Option.some.inj hr').symm, ‹_›⟩
    · rw [hr] at hr'
      cases hr'
  · rw [drained_inbox hdrained, hr] at hr'
    cases hr'

/-- A new job is an approved reply, or one a drain has planned under a key not stored yet. -/
theorem job_new (h : s.step a = some s') {id : JobId} {job : DeliveryJob}
    (hnone : s.db.deliveryJobs.get? id = none) (hjob : s'.db.deliveryJobs.get? id = some job) :
    (∃ reply now, a = .enqueue reply now ∧ job = reply.job now) ∨
      ∃ w acc rows mapping draw stamp raises,
        DrainedBy s a s' w acc rows mapping draw stamp raises ∧
        ∃ i row plan now, (i, row) ∈ rows ∧
          plan ∈ plansFor (s.workers w).deps mapping draw row ∧
          job = jobFromPlan plan (s.workers w).deps.tenantId (s.workers w).deps.projectId now ∧
          ∀ i' j, s.db.deliveryJobs.get? i' = some j → j.idempotencyKey ≠ plan.idempotencyKey := by
  obtain ⟨l, hfrom, hview⟩ := view_step h id
  obtain rfl := JobView.row_created hview hnone hjob
  rcases hfrom with ⟨w, acc, draw, stamp, raises, _, _, _, _, rfl, _⟩ | hreply
  · obtain ⟨r, e, hr, he, rfl⟩ := step_runner_eq_some h
    cases Runner.stepped_of_step he with
    | drainRaised _ _ _ rows mapping hpc =>
      simp only [afterRunner] at hjob
      rw [hnone] at hjob
      cases hjob
    | drained _ _ _ rows mapping db hpc hdrain =>
      obtain ⟨added, hadded, hdb⟩ := Database.drainToJobs_eq_some hdrain
      have happended : (s.db.deliveryJobs.append added).get? id = some job := by
        simpa [afterRunner, hdb] using hjob
      rcases Table.get?_append_cases happended with hold | ⟨_, hnew⟩
      · rw [hnone] at hold
        cases hold
      · have hmem := List.mem_of_getElem? hnew
        obtain ⟨⟨i, row⟩, hrow, plan, hplan, now, rfl⟩ :=
          Database.mem_drainedJobs (hadded.sublist.subset hmem)
        exact Or.inr ⟨w, acc, rows, mapping, draw, stamp, raises, ⟨rfl, ⟨r, hr, hpc⟩, hdrain⟩,
          i, row, plan, now, hrow, hplan, rfl, fun i' j hj => hadded.fresh _ hmem i' j hj⟩
  · exact Or.inl hreply

def BatchesStored (s : System) : Prop :=
  ∀ w acc r i row, (s.workers w).runners acc = some r → (i, row) ∈ r.pc.batch →
    ∃ r', s.db.eventInbox.get? i = some r' ∧ r'.content = row

theorem batchesStored_start (config : WorkerId → WorkerConfig) : BatchesStored (.start config) := by
  intro w acc r i row hr
  cases hr

theorem mem_nextUnprocessed {db : Database} {order : List RowId} {limit : ℕ}
    (horder : db.UnprocessedOrder order) {i : RowId} {row : EventInbox}
    (h : (i, row) ∈ db.nextUnprocessed order limit) :
    db.eventInbox.get? i = some row ∧ row.processed = false := by
  obtain ⟨hi, hrow⟩ := Table.mem_fetch.mp h
  obtain ⟨r, hr, hunprocessed⟩ := horder.mem_iff.mp (List.mem_of_mem_take hi)
  obtain rfl : row = r := Option.some.inj (hrow.symm.trans hr)
  exact ⟨hrow, by simpa using hunprocessed⟩

theorem batchesStored_step (s : System) (a : Action) (s' : System) (h : s.step a = some s')
    (hs : BatchesStored s) : BatchesStored s' := by
  intro w acc r' i row hr' hmem
  have hkeep : (∃ r, s.db.eventInbox.get? i = some r ∧ r.content = row) →
      ∃ r, s'.db.eventInbox.get? i = some r ∧ r.content = row := by
    rintro ⟨r, hr, rfl⟩
    obtain ⟨r', hr', hcontent, _⟩ := inbox_row_step h hr
    exact ⟨r', hr', hcontent⟩
  rcases step_runner_cases h hr' with hr | ⟨x, r, e, rfl, hr, he, rfl, _⟩ | ⟨x, g, _, _, _, rfl⟩
  · exact hkeep (hs w acc r' i row hr hmem)
  · rcases runner_step_batch he with hnil | ⟨hsame, _⟩ | ⟨order, limit, _, horder, _, hread⟩
    · rw [hnil] at hmem
      cases hmem
    · exact hkeep (hs w acc r i row hr (hsame ▸ hmem))
    · obtain ⟨hrow, hunprocessed⟩ := mem_nextUnprocessed horder (hread ▸ hmem)
      exact hkeep ⟨row, hrow, by simp [EventInbox.content, ← hunprocessed]⟩
  · cases hmem

end System

end TgPlatform
