import TgPlatform.Lib.Trace
import TgPlatform.Pipeline.Draining
import TgPlatform.Pipeline.Holdings
import TgPlatform.Pipeline.StatusEdges

/-! # Deleted messages

An ingest that has seen the source message of a delete marks it with a
tombstone, which no other step reads: what keeps a deleted message from being
sent or edited is only that no job for it is left to be claimed.
-/

namespace TgPlatform

def DeletedIn (past : List Event) (m : MessageKey) : Prop :=
  ∃ tenantId projectId event, .ingested tenantId projectId event ∈ past ∧ event.kind = .delete ∧
    event.message = m

def Tombstoned (s : System) : Prop :=
  ∀ tenantId projectId event, .ingested tenantId projectId event ∈ s.history →
    event.kind = .delete → ∃ i m, s.db.sourceMessages.get? i = some m ∧
      m.identity = (tenantId, projectId, event.message) ∧ m.tombstone = true

/-- The operation shows the content of the message. -/
def PlanKind.shows : PlanKind → Bool
  | .send | .edit => true
  | _ => false

def NotResurrected (past : List Event) (ev : Event) : Prop :=
  ∀ call, ev = .started call → call.plan.kind.shows = true → ¬ DeletedIn past call.plan.message

def DeliveryJob.shows (job : DeliveryJob) : Bool := (jobKindAlias job.kind).any PlanKind.shows

def Stage.called : Stage → Bool
  | .calling _ _ | .recording _ _ _ => true
  | _ => false

/-- The job cannot be claimed, and every holder is past its call. -/
structure Quiet (v : JobView) : Prop where
  notReady : ∀ job, v.row = some job → job.status ≠ .ready
  called : ∀ p stage, v.holder p = some stage → stage.called = true

theorem resultFields_ne_ready (policy : RetryPolicy) (attemptNo : ℤ) (clock : Time) (draw : ℤ)
    (result : DeliveryResult) :
    (resultFields policy attemptNo clock draw result).newStatus ≠ .ready := by
  intro hready
  have hedge := resultFields_edge policy attemptNo clock draw result
  rw [hready] at hedge
  cases hedge

theorem quiet_step {v v' : JobView} {l : JobAction} (h : v.step l = some v') {job : DeliveryJob}
    (hjob : v.row = some job) (hv : Quiet v)
    (hrequeue : ∀ acc now, l = .reclaim acc now → job.stale acc now = false)
    (hretry : l ≠ .operator .retry) : Quiet v' := by
  constructor
  · intro job' hjob'
    rcases JobView.row_cases h hjob hjob' with rfl | hchange
    · exact hv.notReady _ hjob
    · cases hchange with
      | claimed p attemptCount now hready => exact absurd hready (hv.notReady job hjob)
      | settled p held decision fields now hgated _ => cases hv.called p _ hgated
      | recorded p held call result policy now clock draw _ _ =>
        exact resultFields_ne_ready policy held.attemptNo clock draw result
      | requeued acc now hstale =>
        rw [hrequeue acc now rfl] at hstale
        cases hstale
      | cancelled now _ => simp [DeliveryJob.move]
      | operated call =>
        cases call with
        | retry => exact absurd rfl hretry
        | cancel => simp [OperatorCall.write]
  · intro p stage hp
    rcases JobView.holder_cases h hp with hold | hchange
    · exact hv.called p stage hold
    · cases hchange with
      | claimed _ job' attemptCount now hjob' hready =>
        exact absurd hready (hv.notReady job' hjob')
      | gated _ held decision hclaimed _ => cases hv.called p _ hclaimed
      | admitted _ held fields now hgated => cases hv.called p _ hgated
      | calling _ held call hadmitted => cases hv.called p _ hadmitted
      | skipped _ held result hadmitted => cases hv.called p _ hadmitted
      | finished _ held call targetIds outcome _ => rfl

/-! ## Ingests -/

theorem sourceScopeFor_ne_reply (chatClass : ChatClass) (chatId : ℤ) (acc : AccountId) :
    sourceScopeFor chatClass chatId acc ≠ "ai_reply" := by
  have hpeer : (sourceScopeFor chatClass chatId acc).toList.head? = some 'p' := by
    unfold sourceScopeFor
    split <;> simp [toString]
  intro hreply
  rw [hreply] at hpeer
  exact absurd hpeer (by decide)

/-- What is known about the calls of `ingest` that are between their read and their commit, and
about those that are over. -/
structure Ingesting (s : System) : Prop where
  seen : ∀ c ∈ s.ingests, ∀ i m, c.seen = some (i, m) → ∃ m',
    s.db.sourceMessages.get? i = some m' ∧
      m'.identity = (c.tenantId, c.projectId, c.event.message)
  pending_scope : ∀ c ∈ s.ingests, c.event.sourceScope ≠ "ai_reply"
  ingested_scope : ∀ tenantId projectId event,
    .ingested tenantId projectId event ∈ s.history → event.sourceScope ≠ "ai_reply"

namespace System

variable {s s' : System} {a : Action}

theorem ingests_step (h : s.step a = some s') {c : IngestCall} (hc : c ∈ s'.ingests) :
    c ∈ s.ingests ∨ ∃ w acc raw pyHash, a = .ingestRead w acc raw pyHash ∧
      c.event = normalize raw acc pyHash ∧
      c.seen = s.db.ingestSelect c.tenantId c.projectId c.event ∧ s'.db = s.db := by
  cases a with
  | runner w acc x =>
    obtain ⟨r, e, _, _, rfl⟩ := step_runner_eq_some h
    exact Or.inl hc
  | host w x =>
    obtain ⟨e, _, rfl⟩ := step_host_eq_some h
    exact Or.inl hc
  | crash w =>
    obtain rfl := Option.some.inj h
    exact Or.inl hc
  | ingestRead w acc raw pyHash =>
    obtain ⟨x, _, rfl⟩ := Option.map_eq_some_iff.mp h
    rcases List.mem_append.mp hc with hc | hc
    · exact Or.inl hc
    · obtain rfl := List.mem_singleton.mp hc
      exact Or.inr ⟨w, acc, raw, pyHash, rfl, rfl, rfl, rfl⟩
  | ingestCommit k =>
    rcases ingestCommit_step h with rfl | ⟨hrest, _⟩
    · exact Or.inl (List.mem_of_mem_eraseIdx hc)
    · rw [hrest] at hc
      exact Or.inl (List.mem_of_mem_eraseIdx hc)
  | publish acc rows =>
    obtain rfl := Option.some.inj h
    exact Or.inl hc
  | enqueue reply now =>
    simp only [step] at h
    split at h <;> cases h
    exact Or.inl hc
  | operatorRead call i =>
    obtain ⟨job, _, h⟩ := Option.bind_eq_some_iff.mp h
    split at h <;> cases h
    exact Or.inl hc
  | operatorWrite k =>
    obtain ⟨q, _, rfl⟩ := Option.map_eq_some_iff.mp h
    exact Or.inl hc

theorem source_row_step (h : s.step a = some s') {i : RowId} {m : SourceMessage}
    (hm : s.db.sourceMessages.get? i = some m) : ∃ m', s'.db.sourceMessages.get? i = some m' ∧
      m'.identity = m.identity ∧ (m.tombstone = true → m'.tombstone = true) := by
  rcases sources_step h with hsame | ⟨k, c, hingested⟩
  · exact ⟨m, by rw [hsame, hm], rfl, id⟩
  · rcases hingested.sources with ⟨_, hinsert⟩ | ⟨j, seen, _, hupdate⟩
    · refine ⟨m, ?_, rfl, id⟩
      rw [hinsert]
      exact Table.get?_append_of_some hm
    · rw [hupdate, Table.get?_update]
      by_cases hj : j = i
      · refine ⟨seen.observe c.event m, by simp [hj, hm], rfl, ?_⟩
        intro htombstone
        simp [SourceMessage.observe, htombstone]
      · exact ⟨m, by simp [hj, hm], rfl, id⟩

theorem ingesting_start (config : WorkerId → WorkerConfig) : Ingesting (.start config) where
  seen c hc := by cases hc
  pending_scope c hc := by cases hc
  ingested_scope tenantId projectId event hmem := by cases hmem

theorem ingesting_step (s : System) (a : Action) (s' : System) (h : s.step a = some s')
    (hs : Ingesting s) : Ingesting s' := by
  constructor
  · intro c hc i m hseen
    rcases ingests_step h hc with hc | ⟨_, _, _, _, _, _, hselect, hdb⟩
    · obtain ⟨m', hm', hidentity⟩ := hs.seen c hc i m hseen
      obtain ⟨m'', hm'', hsame, _⟩ := source_row_step h hm'
      exact ⟨m'', hm'', hsame.trans hidentity⟩
    · rw [hseen] at hselect
      obtain ⟨hm, hidentity⟩ := Table.find?_eq_some hselect.symm
      exact ⟨m, by rw [hdb, hm], of_decide_eq_true hidentity⟩
  · intro c hc
    rcases ingests_step h hc with hc | ⟨_, acc, raw, pyHash, _, hevent, _⟩
    · exact hs.pending_scope c hc
    · rw [hevent]
      exact sourceScopeFor_ne_reply raw.chatClass raw.chatId acc
  · intro tenantId projectId event hmem
    rcases ingested_step h hmem with hmem | ⟨k, c, hingested, _, _, rfl⟩
    · exact hs.ingested_scope tenantId projectId event hmem
    · exact hs.pending_scope c (List.mem_of_getElem? hingested.call)

end System

/-! ## When the tombstone wins -/

/-- A delete is stored once its message is known and nothing of the message is left to be sent or
edited, and afterwards no such job is planned, requeued or retried. -/
structure DeletesLast (s : System) (a : Action) (s' : System) : Prop where
  seen : ∀ k c, IngestedBy s a s' k c → c.event.kind = .delete → c.seen ≠ none
  quiet : ∀ k c id job, IngestedBy s a s' k c → c.event.kind = .delete →
    s.db.deliveryJobs.get? id = some job → job.shows = true → job.message = c.event.message →
    Quiet (s.view id)
  planned : ∀ w acc rows mapping draw stamp raises i row plan,
    DrainedBy s a s' w acc rows mapping draw stamp raises → (i, row) ∈ rows →
    plan ∈ plansFor (s.workers w).deps mapping draw row → plan.kind.shows = true →
    DeletedIn s.history plan.message → ∃ id job, s.db.deliveryJobs.get? id = some job ∧
      job.idempotencyKey = plan.idempotencyKey
  requeued : ∀ w acc now id job, a = .runner w acc (.reclaim now) →
    s.db.deliveryJobs.get? id = some job → job.shows = true → DeletedIn s.history job.message →
    job.stale acc now = false
  retried : ∀ k id job, a = .operatorWrite k → s.requests[k]? = some (.retry, id) →
    s.db.deliveryJobs.get? id = some job → job.shows = true → ¬ DeletedIn s.history job.message

structure TombstoneWins (s : System) : Prop where
  tombstoned : Tombstoned s
  quiet : ∀ id job, s.db.deliveryJobs.get? id = some job → job.shows = true →
    DeletedIn s.history job.message → Quiet (s.view id)
  calls : Trace.Throughout NotResurrected s.history

namespace System

variable {s s' : System} {a : Action}

theorem deletedIn_step (h : s.step a = some s') {m : MessageKey} (hm : DeletedIn s'.history m) :
    DeletedIn s.history m ∨
      ∃ k c, IngestedBy s a s' k c ∧ c.event.kind = .delete ∧ c.event.message = m := by
  obtain ⟨tenantId, projectId, event, hmem, hkind, hmessage⟩ := hm
  rcases ingested_step h hmem with hmem | ⟨k, c, hingested, _, _, rfl⟩
  · exact Or.inl ⟨tenantId, projectId, event, hmem, hkind, hmessage⟩
  · exact Or.inr ⟨k, c, hingested, hkind, hmessage⟩

theorem tombstoned_step (h : s.step a = some s') (hg : DeletesLast s a s') (hi : Ingesting s)
    (hs : Tombstoned s) : Tombstoned s' := by
  intro tenantId projectId event hmem hkind
  rcases ingested_step h hmem with hmem | ⟨k, c, hingested, rfl, rfl, rfl⟩
  · obtain ⟨i, m, hm, hidentity, htombstone⟩ := hs tenantId projectId event hmem hkind
    obtain ⟨m', hm', hsame, hkept⟩ := source_row_step h hm
    exact ⟨i, m', hm', hsame.trans hidentity, hkept htombstone⟩
  · rcases hingested.sources with ⟨hnone, _⟩ | ⟨i, seen, hseen, hupdate⟩
    · exact absurd hnone (hg.seen k c hingested hkind)
    · obtain ⟨m, hm, hidentity⟩ := hi.seen c (List.mem_of_getElem? hingested.call) i seen hseen
      refine ⟨i, seen.observe c.event m, ?_, hidentity, ?_⟩
      · rw [hupdate, Table.get?_update_self, hm]
        rfl
      · simp [SourceMessage.observe, hkind]

theorem shows_congr {job job' : DeliveryJob} (h : job'.cloneKey = job.cloneKey) :
    job'.shows = job.shows ∧ job'.message = job.message := by
  have hkind : job'.kind = job.kind := congrArg CloneKey.kind h
  exact ⟨by simp [DeliveryJob.shows, hkind], congrArg CloneKey.message h⟩

/-- What shows a deleted message was quiet when the delete came, and has stayed so. -/
theorem quiet_kept (h : s.step a = some s') (hg : DeletesLast s a s') (hi : Ingesting s')
    (hs : TombstoneWins s) {id : JobId} {job' : DeliveryJob}
    (hjob' : s'.db.deliveryJobs.get? id = some job') (hshows : job'.shows = true)
    (hdeleted : DeletedIn s'.history job'.message) : Quiet (s'.view id) := by
  cases hjob : s.db.deliveryJobs.get? id with
  | none =>
    rcases job_new h hjob hjob' with ⟨reply, now, rfl, rfl⟩ |
      ⟨w, acc, rows, mapping, draw, stamp, raises, hdrained, i, row, plan, now, hrow, hplan, rfl,
        hfresh⟩
    · -- an approved reply answers no ingested message
      obtain ⟨tenantId, projectId, event, hmem, _, hmessage⟩ := hdeleted
      exact absurd (congrArg MessageKey.sourceScope hmessage)
        (hi.ingested_scope tenantId projectId event hmem)
    · rcases deletedIn_step h hdeleted with hdeleted | ⟨k, c, hingested, _⟩
      · have hplanShows : plan.kind.shows = true := by
          simpa [DeliveryJob.shows, jobFromPlan, jobKindAlias_value] using hshows
        obtain ⟨id', job, hold, hkey⟩ := hg.planned w acc rows mapping draw stamp raises i row plan
          hdrained hrow hplan hplanShows hdeleted
        exact absurd hkey (hfresh id' job hold)
      · cases hdrained.action.symm.trans hingested.action
  | some job =>
    obtain ⟨l, hfrom, hview⟩ := view_step h id
    obtain ⟨job'', hjob'', hkey⟩ := JobView.cloneKey_step hview hjob
    obtain rfl := Option.some.inj (hjob'.symm.trans hjob'')
    obtain ⟨hshowsSame, hmessage⟩ := shows_congr hkey
    rw [hshowsSame] at hshows
    rw [hmessage] at hdeleted
    rcases deletedIn_step h hdeleted with hdeleted | ⟨k, c, hingested, hkind, hsame⟩
    · apply quiet_step hview hjob (hs.quiet id job hjob hshows hdeleted)
      · rintro acc now rfl
        obtain ⟨w, rfl⟩ := hfrom
        exact hg.requeued w acc now id job rfl hjob hshows hdeleted
      · rintro rfl
        obtain ⟨k, rfl, hrequest⟩ := hfrom
        exact hg.retried k id job rfl hrequest hjob hshows hdeleted
    · have hquiet := hg.quiet k c id job hingested hkind hjob hshows hsame.symm
      obtain ⟨hworkers, hjobs⟩ := hingested.rest
      constructor
      · intro job' hrow
        exact hquiet.notReady job' (by rwa [view_row, ← hjobs])
      · intro p stage hp
        refine hquiet.called p stage ?_
        simpa [view, hworkers] using hp

theorem notResurrected_of_started (hheld : AllHold s) (hs : TombstoneWins s) {call : Call}
    (hstarted : StartedBy s a call) (hshows : call.plan.kind.shows = true) :
    ¬ DeletedIn s.history call.plan.message := by
  intro hdeleted
  obtain ⟨job, h, hjob, ⟨hkind, hmessage, _⟩, hholder⟩ := started_row hheld hstarted
  have hjobShows : job.shows = true := by
    rw [DeliveryJob.shows, show jobKindAlias job.kind = some call.plan.kind from hkind]
    exact hshows
  rw [hmessage] at hdeleted
  cases (hs.quiet call.jobId job hjob hjobShows hdeleted).called _ _ hholder

theorem tombstoneWins_start (config : WorkerId → WorkerConfig) :
    TombstoneWins (.start config) where
  tombstoned tenantId projectId event hmem := by cases hmem
  quiet id job hjob := by cases hjob
  calls := Trace.throughout_nil

theorem tombstoneWins_step (h : s.step a = some s') (hg : DeletesLast s a s') (hi : Ingesting s)
    (hheld : AllHold s) (hs : TombstoneWins s) : TombstoneWins s' := by
  constructor
  · exact tombstoned_step h hg hi hs.tombstoned
  · intro id job hjob hshows hdeleted
    exact quiet_kept h hg (ingesting_step s a s' h hi) hs hjob hshows hdeleted
  · rcases step_event h with hsame | ⟨ev, hsnoc, hstarted, _⟩
    · rw [hsame]
      exact hs.calls
    · rw [hsnoc]
      apply hs.calls.snoc
      rintro call rfl hshows
      exact notResurrected_of_started hheld hs (hstarted call rfl) hshows

end System

/-- In every run in which each delete comes last, every deleted source message is marked and no
send or edit of it is started. -/
theorem tombstone_wins (config : WorkerId → WorkerConfig) (as : List Action) (s : System)
    (hguard : Machine.Always System.step DeletesLast (.start config) as)
    (hrun : System.run (.start config) as = some s) :
    Tombstoned s ∧ Trace.Throughout NotResurrected s.history := by
  have hall := hguard.invariant
    (I := fun s => Ingesting s ∧ System.AllHold s ∧ TombstoneWins s) ?_ hrun
    ⟨System.ingesting_start config, System.allHold_start config,
      System.tombstoneWins_start config⟩
  · exact ⟨hall.2.2.tombstoned, hall.2.2.calls⟩
  · rintro s a s' h hg ⟨hi, hheld, hs⟩
    exact ⟨System.ingesting_step s a s' h hi, System.allHold_step s a s' h hheld,
      System.tombstoneWins_step h hg hi hheld hs⟩

/-- Only the slot `p` has a runner. -/
def System.OnlyRunner (p : Slot) (s : System) : Prop :=
  ∀ w acc r, (s.workers w).runners acc = some r → (w, acc) = p

theorem System.onlyRunner_step {p : Slot} {s s' : System} {a : Action} (h : s.step a = some s')
    (hassign : ∀ w x g, a = .host w .assignDone →
      (s.workers w).assigning = some ⟨x, .connected g⟩ → (w, x.accountId) = p)
    (hs : s.OnlyRunner p) : s'.OnlyRunner p := by
  intro w acc r' hr'
  rcases step_runner_cases h hr' with hr | ⟨x, r, e, _, hr, _⟩ | ⟨x, g, rfl, hassigning, rfl, _⟩
  · exact hs w acc r' hr
  · exact hs w acc r hr
  · exact hassign w x g rfl hassigning

/-- `DeletesLast` as a test, for runs with one runner in which each delete comes when it is idle
and no job is ready, and in which nothing is requeued or retried. -/
def deletesLast (w : WorkerId) (acc : AccountId) (s : System) (a : Action) (_ : System) : Bool :=
  match a with
  | .ingestCommit k => (s.ingests[k]?).all fun c =>
      c.event.kind ≠ .delete || (c.seen.isSome &&
        s.db.deliveryJobs.rows.all (fun job => job.status ≠ .ready) &&
        ((s.workers w).runners acc).all fun r => r.pc = .idle)
  | .runner w acc (.drainCommit draw _ _) => ((s.workers w).runners acc).all fun r =>
      match r.pc with
      | .draining rows mapping => rows.all fun row =>
          (plansFor (s.workers w).deps mapping draw row.2).all fun plan =>
            !plan.kind.shows || s.history.all fun ev =>
              match ev with
              | .ingested _ _ event => event.kind ≠ .delete || event.message ≠ plan.message
              | _ => true
      | _ => true
  | .runner _ acc (.reclaim now) => s.db.deliveryJobs.rows.all fun job => !job.stale acc now
  | .operatorWrite _ => false
  | .host w' .assignDone => (s.workers w').assigning.all fun x =>
      (w', x.assignment.accountId) = (w, acc)
  | _ => true

theorem deletesLast_spec {w : WorkerId} {acc : AccountId} {s s' : System} {a : Action}
    (h : deletesLast w acc s a s' = true) (hs : s.OnlyRunner (w, acc)) : DeletesLast s a s' := by
  constructor
  · intro k c hingested hkind
    obtain rfl := hingested.action
    simp [deletesLast, hingested.call, hkind] at h
    exact Option.isSome_iff_ne_none.mp h.1.1
  · intro k c id job hingested hkind hjob _ _
    obtain rfl := hingested.action
    simp only [deletesLast, hingested.call, hkind, Option.all_some, ne_eq, not_true_eq_false,
      decide_false, Bool.false_or, Bool.and_eq_true, List.all_eq_true, decide_eq_true_eq] at h
    constructor
    · intro job' hjob'
      exact h.1.2 job' (List.mem_of_getElem? hjob')
    · rintro ⟨w', acc'⟩ stage hp
      obtain ⟨r, hr, hstage⟩ := Option.bind_eq_some_iff.mp hp
      obtain ⟨rfl, rfl⟩ := Prod.mk.inj (hs w' acc' r hr)
      have hidle : r.pc = .idle := by simpa [hr] using h.2
      simp [Runner.stage, hidle] at hstage
  · intro w' acc' rows mapping draw stamp raises i row plan hdrained hrow hplan hshows hdeleted
    obtain rfl := hdrained.action
    obtain ⟨r, hr, hpc⟩ := hdrained.runner
    simp only [deletesLast, hr, hpc, Option.all_some, List.all_eq_true] at h
    have hnone := h _ hrow plan hplan
    rw [hshows, Bool.not_true, Bool.false_or, List.all_eq_true] at hnone
    obtain ⟨tenantId, projectId, event, hmem, hkind, hmessage⟩ := hdeleted
    simpa [hkind, hmessage] using hnone _ hmem
  · rintro w' acc' now id job rfl hjob _ _
    simp only [deletesLast, List.all_eq_true, Bool.not_eq_true'] at h
    exact h job (List.mem_of_getElem? hjob)
  · rintro k id job rfl
    cases h

theorem deletesLast_assigns {w : WorkerId} {acc : AccountId} {s s' : System} {a : Action}
    (h : deletesLast w acc s a s' = true) : ∀ w' x g, a = .host w' .assignDone →
      (s.workers w').assigning = some ⟨x, .connected g⟩ → (w', x.accountId) = (w, acc) := by
  rintro w' x g rfl hassigning
  simpa [deletesLast, hassigning] using h

def deletedAfterSend : List Action :=
  .publish "A" [cloneRule] ::
    assignSteps "w1" { accountId := "A", tenantId := "t", projectId := "p" } 0 ++
    ingestSteps "w1" "A" (channelUpdate .create) ++ drainSteps "w1" "A" [0] 10 1 ++
    claimSteps "w1" "A" [0] 2 ++ callSteps "w1" "A" 3 ++
    returnSteps "w1" "A" (.returned [9]) 4 ++
    ingestSteps "w1" "A" (channelUpdate .delete) ++
    [.runner "w1" "A" (.drainRead [1] 10), .runner "w1" "A" (.drainPrefetch [0]),
      .runner "w1" "A" (.drainCommit (fun _ _ _ => 0) (fun _ => 5) false)] ++
    claimSteps "w1" "A" [1] 6 ++
    [.runner "w1" "A" (.gate 7), .runner "w1" "A" (.settle 7 7 0),
      .runner "w1" "A" (.lookup [0]), .runner "w1" "A" (.execute 7)]

def startedKinds (history : List Event) : List PlanKind :=
  history.filterMap fun
    | .started call => some call.plan.kind
    | _ => none

theorem tombstone_wins_after_send :
    (System.run (.start fun _ => {}) deletedAfterSend).map
        (fun s => startedKinds s.history) = some [.send, .delete] ∧
      ∀ s, System.run (.start fun _ => {}) deletedAfterSend = some s →
        Tombstoned s ∧ Trace.Throughout NotResurrected s.history := by
  constructor
  · decide +kernel
  · intro s hrun
    refine tombstone_wins (fun _ => {}) deletedAfterSend s ?_ hrun
    have hchecked : Machine.Always System.step (fun s a s' => deletesLast "w1" "A" s a s' = true)
        (.start fun _ => {}) deletedAfterSend :=
      Machine.always_of_checkRun (fun _ _ _ h => h) (by decide +kernel)
    exact hchecked.of_invariant (I := System.OnlyRunner ("w1", "A"))
      (fun s a s' h hg hs => System.onlyRunner_step h (deletesLast_assigns hg) hs)
      (fun s a s' _ hg hs => deletesLast_spec hg hs) (by rintro w acc r ⟨⟩)

/-- The delete is the first event seen of the message; the late create is drained and sent. -/
def createdAfterDelete : List Action :=
  .publish "A" [cloneRule] ::
    assignSteps "w1" { accountId := "A", tenantId := "t", projectId := "p" } 0 ++
    ingestSteps "w1" "A" (channelUpdate .delete) ++ ingestSteps "w1" "A" (channelUpdate .create) ++
    drainSteps "w1" "A" [0, 1] 10 1 ++ claimSteps "w1" "A" [1, 0] 2 ++ callSteps "w1" "A" 3

theorem late_create_is_sent :
    ¬ ∀ config as s, System.run (.start config) as = some s →
      Tombstoned s ∧ Trace.Throughout NotResurrected s.history := by
  intro h
  have hobserved : (System.run (.start fun _ => {}) createdAfterDelete).map (fun s =>
      (s.db.sourceMessages.rows.map SourceMessage.tombstone,
        s.history.take 3, startedKinds (s.history.drop 3))) =
      some ([false], [.lease "A" (.acquired "w1" (some 1)),
        .ingested "t" "p" (normalize (channelUpdate .delete) "A" 0),
        .ingested "t" "p" (normalize (channelUpdate .create) "A" 0)], [.send]) := by
    decide +kernel
  obtain ⟨s, hrun, hobserved⟩ := Option.map_eq_some_iff.mp hobserved
  simp only [Prod.mk.injEq] at hobserved
  obtain ⟨hflags, hpast, _⟩ := hobserved
  have hdeleted : .ingested "t" "p" (normalize (channelUpdate .delete) "A" 0) ∈ s.history := by
    apply List.mem_of_mem_take (i := 3)
    simp [hpast]
  obtain ⟨i, m, hm, _, htombstone⟩ := (h _ _ s hrun).1 _ _ _ hdeleted rfl
  have hmem : m.tombstone ∈ s.db.sourceMessages.rows.map SourceMessage.tombstone :=
    List.mem_map_of_mem (List.mem_of_getElem? hm)
  rw [hflags, List.mem_singleton, htombstone] at hmem
  cases hmem

end TgPlatform
