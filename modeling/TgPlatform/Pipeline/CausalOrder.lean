import TgPlatform.Pipeline.Holdings
import TgPlatform.Pipeline.InboxOrder
import TgPlatform.Pipeline.StatusEdges

/-! # Operations of one message in order

A scan lists the ready jobs of one account by creation time and the claim loop
takes the first one it can get. An edit or delete waits for the jobs of earlier
events only as long as these stand before it in the list and are not skipped.
-/

namespace TgPlatform

def PlanKind.changes : PlanKind → Bool
  | .edit | .delete => true
  | _ => false

def DeliveryJob.changes (job : DeliveryJob) : Bool := (jobKindAlias job.kind).any PlanKind.changes

def DeliveryJob.IsFor (job : DeliveryJob) (r : EventInbox) : Prop :=
  job.message = r.message ∧ job.revision = r.revision ∧ job.kind = r.kind.plan.value

/-- `y` is on the route of `x`, for an event of the same message that was ingested earlier. -/
def Precedes (db : Database) (y x : DeliveryJob) : Prop :=
  y.routeId = x.routeId ∧ ∃ i j ry rx, db.eventInbox.get? i = some ry ∧
    db.eventInbox.get? j = some rx ∧ y.IsFor ry ∧ x.IsFor rx ∧ ry.message = rx.message ∧ i < j

/-- The job `x` is in turn: what precedes it is terminal, apart from the jobs listed. -/
def InTurn (db : Database) (x : JobId) (apart : List JobId) : Prop :=
  ∀ job, db.deliveryJobs.get? x = some job → job.changes = true →
    ∀ y other, db.deliveryJobs.get? y = some other → Precedes db other job →
      other.status.terminal = true ∨ y ∈ apart

/-- The executor is entered for an edit or delete only when all jobs of earlier events are
terminal. -/
def StartsInOrder (s : System) (a : Action) (_ : System) : Prop :=
  ∀ w acc now r h targetIds, a = .runner w acc (.execute now) →
    (s.workers w).runners acc = some r → r.pc = .executing h targetIds →
    h.plan.kind.changes = true → ∃ job, s.db.deliveryJobs.get? h.id = some job ∧
      ∀ y other, s.db.deliveryJobs.get? y = some other → Precedes s.db other job →
        other.status.terminal = true

/-- The jobs a runner may still start, in the order in which it takes them. -/
def RunnerPc.queue : RunnerPc → List JobId
  | .claiming _ candidates => candidates.map Prod.fst
  | .claimed id => [id]
  | .gated h _ | .admitted h | .executing h _ => [h.id]
  | _ => []

/-- A scan lists what precedes an edit or delete before it, the claim loop does not skip it, and
no retry reopens it behind a runner that is past it. -/
structure ClaimsInOrder (s : System) (a : Action) (_ : System) : Prop where
  scanned : ∀ w acc order now, a = .runner w acc (.select order now) →
    ∀ pre x post, order = pre ++ x :: post → InTurn s.db x pre
  skipped : ∀ w acc now r at_ id seen rest, a = .runner w acc (.tryNext now) →
    (s.workers w).runners acc = some r → r.pc = .claiming at_ ((id, seen) :: rest) →
    (seen.due at_ = true → s.db.tryClaim id seen r.generation at_ now = .lost) →
    ∀ job x xjob, s.db.deliveryJobs.get? id = some job → x ∈ rest.map Prod.fst →
      s.db.deliveryJobs.get? x = some xjob → xjob.changes = true → Precedes s.db job xjob →
      job.status.terminal = true
  reopened : ∀ k id job, a = .operatorWrite k → s.requests[k]? = some (.retry, id) →
    s.db.deliveryJobs.get? id = some job → job.status.terminal = true →
    ∀ w acc r x xjob, (s.workers w).runners acc = some r → x ∈ r.pc.queue →
      s.db.deliveryJobs.get? x = some xjob → xjob.changes = true → ¬ Precedes s.db job xjob

/-! ## Jobs and their events -/

/-- Inbox rows have different keys, and every planned job is for a processed row. -/
structure JobsPlanned (s : System) : Prop where
  unique : ∀ i j ri rj, s.db.eventInbox.get? i = some ri → s.db.eventInbox.get? j = some rj →
    ri.dedup = rj.dedup → i = j
  planned : ∀ id job, s.db.deliveryJobs.get? id = some job → job.kind = "send_message" ∨
    ∃ i r, s.db.eventInbox.get? i = some r ∧ job.IsFor r ∧ r.processed = true

theorem DeliveryJob.IsFor.dedup {job : DeliveryJob} {r r' : EventInbox} (h : job.IsFor r)
    (h' : job.IsFor r') : r.dedup = r'.dedup := by
  obtain ⟨hmessage, hrevision, hkind⟩ := h
  obtain ⟨hmessage', hrevision', hkind'⟩ := h'
  have hplan : r.kind = r'.kind := by
    have hvalue := hkind.symm.trans hkind'
    revert hvalue
    cases r.kind <;> cases r'.kind <;> decide
  simp only [EventInbox.dedup, Prod.mk.injEq]
  exact ⟨hmessage.symm.trans hmessage', hplan, hrevision.symm.trans hrevision'⟩

theorem DeliveryJob.IsFor.congr {job job' : DeliveryJob} {r r' : EventInbox}
    (hjob : job'.cloneKey = job.cloneKey) (hr : r'.content = r.content) (h : job.IsFor r) :
    job'.IsFor r' := by
  obtain ⟨hmessage, hrevision, hkind⟩ := h
  have hkeys : job'.message = job.message ∧ job'.revision = job.revision ∧ job'.kind = job.kind :=
    ⟨congrArg CloneKey.message hjob, congrArg CloneKey.revision hjob, congrArg CloneKey.kind hjob⟩
  have hrows : r'.message = r.message ∧ r'.revision = r.revision ∧ r'.kind = r.kind := by
    have hm := congrArg EventInbox.message hr
    have hv := congrArg EventInbox.revision hr
    have hk := congrArg EventInbox.kind hr
    exact ⟨hm, hv, hk⟩
  rw [IsFor, hkeys.1, hkeys.2.1, hkeys.2.2, hrows.1, hrows.2.1, hrows.2.2]
  exact ⟨hmessage, hrevision, hkind⟩

theorem not_isFor_reply {job : DeliveryJob} {r : EventInbox} (h : job.IsFor r) :
    job.kind ≠ "send_message" := by
  rw [h.2.2]
  cases r.kind <;> decide

theorem isFor_of_plan {d : RunnerDeps} {mapping : DictMappingView} {draw : EventInbox → Draw}
    {row : EventInbox} {plan : DeliveryPlan} (h : plan ∈ plansFor d mapping draw row)
    (tenantId : TenantId) (projectId : ProjectId) (now : Time) :
    (jobFromPlan plan tenantId projectId now).IsFor row := by
  obtain ⟨hmessage, hrevision, hkind⟩ := plan_source h
  exact ⟨hmessage, hrevision, congrArg PlanKind.value hkind⟩

namespace System

variable {s s' : System} {a : Action}

theorem unique_step (h : s.step a = some s') (hs : JobsPlanned s) {i j : RowId}
    {ri' rj' : EventInbox} (hi' : s'.db.eventInbox.get? i = some ri')
    (hj' : s'.db.eventInbox.get? j = some rj') (hkey : ri'.dedup = rj'.dedup) : i = j := by
  have hdedup : ∀ {r r' : EventInbox}, r'.content = r.content → r'.dedup = r.dedup := by
    intro r r' hcontent
    have hkeys := congrArg EventInbox.dedup hcontent
    exact hkeys
  -- a new row has a key that no stored row has
  have hnew : ∀ {m n : RowId} {rm rn' : EventInbox}, s.db.eventInbox.get? m = some rm →
      s.db.eventInbox.get? n = none → s'.db.eventInbox.get? n = some rn' →
      rm.dedup ≠ rn'.dedup := by
    intro m n rm rn' hm hn hn'
    obtain ⟨k, c, hingested, rfl, _⟩ := inbox_row_new h hn hn'
    exact hingested.fresh m rm hm
  cases hi : s.db.eventInbox.get? i with
  | none =>
    cases hj : s.db.eventInbox.get? j with
    | none =>
      obtain ⟨_, _, _, _, hsizei⟩ := inbox_row_new h hi hi'
      obtain ⟨_, _, _, _, hsizej⟩ := inbox_row_new h hj hj'
      rw [hsizei, hsizej]
    | some rj =>
      obtain ⟨_, hkept, hcontent, _⟩ := inbox_row_step h hj
      obtain rfl := Option.some.inj (hj'.symm.trans hkept)
      exact absurd ((hdedup hcontent).symm.trans hkey.symm) (hnew hj hi hi')
  | some ri =>
    obtain ⟨_, hkept, hcontent, _⟩ := inbox_row_step h hi
    obtain rfl := Option.some.inj (hi'.symm.trans hkept)
    cases hj : s.db.eventInbox.get? j with
    | none => exact absurd ((hdedup hcontent).symm.trans hkey) (hnew hi hj hj')
    | some rj =>
      obtain ⟨_, hkeptj, hcontentj, _⟩ := inbox_row_step h hj
      obtain rfl := Option.some.inj (hj'.symm.trans hkeptj)
      exact hs.unique i j ri rj hi hj
        ((hdedup hcontent).symm.trans (hkey.trans (hdedup hcontentj)))

theorem job_kept (h : s.step a = some s') {id : JobId} {job : DeliveryJob}
    (hjob : s.db.deliveryJobs.get? id = some job) : ∃ job', s'.db.deliveryJobs.get? id = some job' ∧
      job'.cloneKey = job.cloneKey := by
  obtain ⟨l, _, hview⟩ := view_step h id
  exact JobView.cloneKey_step hview hjob

theorem jobsPlanned_start (config : WorkerId → WorkerConfig) : JobsPlanned (.start config) where
  unique i j ri rj hi := by cases hi
  planned id job hjob := by cases hjob

theorem jobsPlanned_step (s : System) (a : Action) (s' : System) (h : s.step a = some s')
    (hs : JobsPlanned s ∧ BatchesStored s) : JobsPlanned s' ∧ BatchesStored s' := by
  refine ⟨⟨fun i j ri rj hi hj hkey => unique_step h hs.1 hi hj hkey, ?_⟩,
    batchesStored_step s a s' h hs.2⟩
  intro id job' hjob'
  cases hjob : s.db.deliveryJobs.get? id with
  | none =>
    rcases job_new h hjob hjob' with ⟨reply, now, _, rfl⟩ |
      ⟨w, acc, rows, mapping, draw, stamp, raises, hdrained, i, row, plan, now, hrow, hplan, rfl, _⟩
    · exact Or.inl rfl
    · obtain ⟨r, hr, hpc⟩ := hdrained.runner
      obtain ⟨stored, hstored, hcontent⟩ := hs.2 w acc r i row hr (by rw [hpc]; exact hrow)
      have hmem : i ∈ rows.map Prod.fst := List.mem_map.mpr ⟨(i, row), hrow, rfl⟩
      refine Or.inr ⟨i, { stored with processed := true }, ?_, ?_, rfl⟩
      · rw [drained_inbox hdrained, hstored, Option.map_some, if_pos hmem]
      · have hfor := isFor_of_plan hplan (s.workers w).deps.tenantId (s.workers w).deps.projectId now
        rw [← hcontent] at hfor
        exact hfor
  | some job =>
    obtain ⟨job'', hjob'', hkey⟩ := job_kept h hjob
    obtain rfl := Option.some.inj (hjob'.symm.trans hjob'')
    rcases hs.1.planned id job hjob with hreply | ⟨i, r, hr, hfor, hprocessed⟩
    · exact Or.inl ((congrArg CloneKey.kind hkey).trans hreply)
    · obtain ⟨r', hr', hcontent, hmono⟩ := inbox_row_step h hr
      exact Or.inr ⟨i, r', hr', hfor.congr hkey hcontent, hmono hprocessed⟩

theorem isFor_before (h : s.step a = some s') (hs : JobsPlanned s) {id : JobId}
    {job job' : DeliveryJob} (hjob : s.db.deliveryJobs.get? id = some job)
    (hkey : job'.cloneKey = job.cloneKey) {i : RowId} {r' : EventInbox}
    (hr' : s'.db.eventInbox.get? i = some r') (hfor : job'.IsFor r') :
    ∃ r, s.db.eventInbox.get? i = some r ∧ job.IsFor r ∧ r'.content = r.content ∧
      r.processed = true := by
  have hkind : job.kind ≠ "send_message" := by
    rw [show job.kind = job'.kind from (congrArg CloneKey.kind hkey).symm]
    exact not_isFor_reply hfor
  obtain ⟨i₀, r₀, hr₀, hfor₀, hprocessed⟩ := (hs.planned id job hjob).resolve_left hkind
  obtain ⟨r₀', hr₀', hcontent, _⟩ := inbox_row_step h hr₀
  have hsame : i = i₀ :=
    unique_step h hs hr' hr₀' (hfor.dedup (hfor₀.congr hkey hcontent))
  subst hsame
  obtain rfl := Option.some.inj (hr'.symm.trans hr₀')
  exact ⟨r₀, hr₀, hfor₀, hcontent, hprocessed⟩

theorem precedes_before (h : s.step a = some s') (hs : JobsPlanned s) {x y : JobId}
    {xjob xjob' yjob yjob' : DeliveryJob} (hx : s.db.deliveryJobs.get? x = some xjob)
    (hy : s.db.deliveryJobs.get? y = some yjob) (hxkey : xjob'.cloneKey = xjob.cloneKey)
    (hykey : yjob'.cloneKey = yjob.cloneKey) (hpre : Precedes s'.db yjob' xjob') :
    Precedes s.db yjob xjob := by
  obtain ⟨hroute, i, j, ry', rx', hry', hrx', hyfor, hxfor, hmessage, hlt⟩ := hpre
  obtain ⟨ry, hry, hyfor, hycontent, _⟩ := isFor_before h hs hy hykey hry' hyfor
  obtain ⟨rx, hrx, hxfor, hxcontent, _⟩ := isFor_before h hs hx hxkey hrx' hxfor
  refine ⟨?_, i, j, ry, rx, hry, hrx, hyfor, hxfor, ?_, hlt⟩
  · have hy' : yjob'.routeId = yjob.routeId := congrArg CloneKey.routeId hykey
    have hx' : xjob'.routeId = xjob.routeId := congrArg CloneKey.routeId hxkey
    rw [← hy', ← hx', hroute]
  · rw [← EventInbox.message_of_content hycontent, ← EventInbox.message_of_content hxcontent,
      hmessage]

/-! ## Queues in turn -/

theorem terminal_step (h : s.step a = some s') {y : JobId} {job job' : DeliveryJob}
    (hjob : s.db.deliveryJobs.get? y = some job) (hjob' : s'.db.deliveryJobs.get? y = some job')
    (hterminal : job.status.terminal = true)
    (hretry : ∀ k, a = .operatorWrite k → s.requests[k]? ≠ some (.retry, y)) :
    job'.status.terminal = true := by
  obtain ⟨l, hfrom, hview⟩ := view_step h y
  rcases JobView.row_cases hview hjob hjob' with rfl | hchange
  · exact hterminal
  · cases hchange with
    | claimed p attemptCount now hready =>
      rw [hready] at hterminal
      cases hterminal
    | settled p held decision fields now _ hleased =>
      rw [hleased] at hterminal
      cases hterminal
    | recorded p held call result policy now clock draw _ hsending =>
      rw [hsending] at hterminal
      cases hterminal
    | requeued acc now hstale =>
      have hsending : job.status = .sending := by
        simp only [DeliveryJob.stale, Bool.and_eq_true, decide_eq_true_eq] at hstale
        exact hstale.1.2
      rw [hsending] at hterminal
      cases hterminal
    | cancelled now _ => rfl
    | operated call =>
      cases call with
      | retry =>
        obtain ⟨k, rfl, hrequest⟩ := hfrom
        exact absurd hrequest (hretry k rfl)
      | cancel => rfl

/-- A job that a drain has just planned precedes no stored one. -/
theorem not_precedes_new (h : s.step a = some s') (hs : JobsPlanned s) (hstored : BatchesStored s)
    (hplans : PlansInOrder s a s') {x y : JobId} {xjob xjob' other : DeliveryJob}
    (hx : s.db.deliveryJobs.get? x = some xjob) (hxkey : xjob'.cloneKey = xjob.cloneKey)
    (hy : s.db.deliveryJobs.get? y = none) (hy' : s'.db.deliveryJobs.get? y = some other) :
    ¬ Precedes s'.db other xjob' := by
  rintro ⟨_, i, j, ry', rx', hry', hrx', hyfor, hxfor, hmessage, hlt⟩
  obtain ⟨rx, hrx, _, hxcontent, hprocessed⟩ := isFor_before h hs hx hxkey hrx' hxfor
  rcases job_new h hy hy' with ⟨reply, now, _, rfl⟩ |
    ⟨w, acc, rows, mapping, draw, stamp, raises, hdrained, n, row, plan, now, hrow, hplan, rfl, _⟩
  · exact not_isFor_reply hyfor rfl
  · obtain ⟨r, hr, hpc⟩ := hdrained.runner
    obtain ⟨stored, hrowStored, hcontent⟩ := hstored w acc r n row hr (by rw [hpc]; exact hrow)
    obtain ⟨stored', hstored', hcontent', _⟩ := inbox_row_step h hrowStored
    have hfor : (jobFromPlan plan (s.workers w).deps.tenantId (s.workers w).deps.projectId
        now).IsFor stored' := by
      have hrowFor := isFor_of_plan hplan (s.workers w).deps.tenantId
        (s.workers w).deps.projectId now
      rw [← hcontent, ← hcontent'] at hrowFor
      exact hrowFor
    have hsame : i = n := unique_step h hs hry' hstored' (hyfor.dedup hfor)
    subst hsame
    obtain ⟨pre, post, hsplit⟩ := List.append_of_mem hrow
    have hnewer : rx.message = row.message := by
      rw [← EventInbox.message_of_content hxcontent, ← hmessage]
      obtain rfl := Option.some.inj (hry'.symm.trans hstored')
      rw [EventInbox.message_of_content hcontent', ← hcontent]
      rfl
    have horder := hplans w acc rows mapping draw stamp raises hdrained pre i row post hsplit j rx
      hrx hnewer
    rw [(horder.2 hlt).1] at hprocessed
    cases hprocessed

theorem changes_congr {job job' : DeliveryJob} (h : job'.cloneKey = job.cloneKey) :
    job'.changes = job.changes := by
  have hkind : job'.kind = job.kind := congrArg CloneKey.kind h
  simp [DeliveryJob.changes, hkind]

/-- A job in turn stays in turn, unless a retry reopens a job that precedes it. -/
theorem inTurn_step (h : s.step a = some s') (hs : JobsPlanned s) (hstored : BatchesStored s)
    (hplans : PlansInOrder s a s') {x : JobId} {xjob : DeliveryJob} {apart : List JobId}
    (hx : s.db.deliveryJobs.get? x = some xjob) (hturn : InTurn s.db x apart)
    (hreopen : ∀ k y job, a = .operatorWrite k → s.requests[k]? = some (.retry, y) →
      s.db.deliveryJobs.get? y = some job → job.status.terminal = true →
      xjob.changes = true → ¬ Precedes s.db job xjob) : InTurn s'.db x apart := by
  intro xjob' hx' hchanges y other hy' hprecedes
  obtain ⟨_, hkept, hxkey⟩ := job_kept h hx
  obtain rfl := Option.some.inj (hx'.symm.trans hkept)
  cases hy : s.db.deliveryJobs.get? y with
  | none => exact absurd hprecedes (not_precedes_new h hs hstored hplans hx hxkey hy hy')
  | some yjob =>
    obtain ⟨_, hykept, hykey⟩ := job_kept h hy
    obtain rfl := Option.some.inj (hy'.symm.trans hykept)
    have hbefore := precedes_before h hs hx hy hxkey hykey hprecedes
    rw [changes_congr hxkey] at hchanges
    rcases hturn xjob hx hchanges y yjob hy hbefore with hterminal | hapart
    · refine Or.inl (terminal_step h hy hy' hterminal ?_)
      intro k hk hrequest
      exact hreopen k y yjob hk hrequest hy hterminal hchanges hbefore
    · exact Or.inr hapart

structure QueuesInTurn (s : System) : Prop where
  stored : ∀ w acc r x, (s.workers w).runners acc = some r → x ∈ r.pc.queue →
    ∃ job, s.db.deliveryJobs.get? x = some job
  inTurn : ∀ w acc r pre x post, (s.workers w).runners acc = some r →
    r.pc.queue = pre ++ x :: post → InTurn s.db x pre

end System

theorem fetch_keys {α : Type*} {t : Table α} {ids : List ℕ}
    (h : ∀ i ∈ ids, ∃ a, t.get? i = some a) : (t.fetch ids).map Prod.fst = ids := by
  induction ids with
  | nil => rfl
  | cons i ids ih =>
    obtain ⟨a, ha⟩ := h i (by simp)
    have hrest := ih fun j hj => h j (by simp [hj])
    simp only [Table.fetch, List.filterMap_cons, ha, Option.map_some, List.map_cons,
      List.cons.injEq, true_and]
    exact hrest

/-- A runner's queue is kept, emptied, read by a scan, or loses its head, which the runner skips
or takes. -/
theorem runner_step_queue {d : RunnerDeps} {w : WorkerId} {acc : AccountId} {db : Database}
    {r : Runner} {x : RunnerAction} {e : RunnerEffect} (he : r.step d w acc db x = some e) :
    e.runner.pc.queue = [] ∨ e.runner.pc.queue = r.pc.queue ∨
      (∃ order now, x = .select order now ∧ db.ReadyOrder acc order ∧ e.db = db ∧
        e.runner.pc.queue = order) ∨
      (∃ now at_ id seen rest, x = .tryNext now ∧ r.pc = .claiming at_ ((id, seen) :: rest) ∧
        (seen.due at_ = true → db.tryClaim id seen r.generation at_ now = .lost) ∧ e.db = db ∧
        e.runner.pc.queue = rest.map Prod.fst) ∨
      ∃ id rest, r.pc.queue = id :: rest ∧ e.runner.pc.queue = [id] := by
  cases Runner.stepped_of_step he with
  | select order now hpc horder =>
    refine Or.inr (Or.inr (Or.inl ⟨order, now, rfl, horder, rfl, ?_⟩))
    apply fetch_keys
    intro i hi
    obtain ⟨job, hjob, _⟩ := horder.mem_iff.mp hi
    exact ⟨job, hjob⟩
  | claimSkip now at_ id seen rest hpc hlost =>
    exact Or.inr (Or.inr (Or.inr (Or.inl ⟨now, at_, id, seen, rest, rfl, hpc, hlost, rfl, rfl⟩)))
  | claimed now at_ id seen rest db' hpc _ _ =>
    refine Or.inr (Or.inr (Or.inr (Or.inr ⟨id, rest.map Prod.fst, ?_, rfl⟩)))
    rw [hpc]
    rfl
  | gate now id job held hpc _ hhold =>
    obtain ⟨hid, _⟩ := System.hold_eq_some hhold
    refine Or.inr (Or.inl ?_)
    rw [hpc]
    simp [RunnerPc.queue, hid]
  | settle now clock draw held decision hpc =>
    obtain ⟨_, _, hsettled⟩ := Runner.settleGate_eq d db r held decision now clock draw
    rw [hsettled, hpc]
    by_cases hallow : decision = .allow
    · exact Or.inr (Or.inl (by simp [hallow, RunnerPc.queue]))
    · exact Or.inl (by simp [hallow, RunnerPc.queue])
  | lookup order held targetIds hpc =>
    refine Or.inr (Or.inl ?_)
    rw [hpc]
    rfl
  | execute now held targetIds _ =>
    rcases Runner.startCall_cases d w acc db r held targetIds now with ⟨_, _, hcall⟩ | ⟨_, _, hcall⟩ <;>
      rw [hcall] <;> exact Or.inl rfl
  | record now clock draw raises held called result _ =>
    obtain ⟨_, ⟨_, _, hafter⟩ | ⟨_, hafter⟩⟩ := Runner.recordOutcome_cases d db r held result now
      clock draw raises <;> rw [hafter] <;> exact Or.inl rfl
  | _ => exact Or.inl rfl

namespace System

variable {s s' : System} {a : Action}

theorem queuesInTurn_start (config : WorkerId → WorkerConfig) :
    QueuesInTurn (.start config) where
  stored w acc r x hr := by cases hr
  inTurn w acc r pre x post hr := by cases hr

theorem queue_kept (h : s.step a = some s') (hg : ClaimsInOrder s a s') (hs : JobsPlanned s)
    (hstored : BatchesStored s) (hplans : PlansInOrder s a s') (hq : QueuesInTurn s)
    {w : WorkerId} {acc : AccountId} {r : Runner} (hr : (s.workers w).runners acc = some r) :
    (∀ x ∈ r.pc.queue, ∃ job, s'.db.deliveryJobs.get? x = some job) ∧
      ∀ pre x post, r.pc.queue = pre ++ x :: post → InTurn s'.db x pre := by
  constructor
  · intro x hx
    obtain ⟨job, hjob⟩ := hq.stored w acc r x hr hx
    obtain ⟨job', hjob', _⟩ := job_kept h hjob
    exact ⟨job', hjob'⟩
  · intro pre x post hsplit
    have hx : x ∈ r.pc.queue := by
      rw [hsplit]
      simp
    obtain ⟨job, hjob⟩ := hq.stored w acc r x hr hx
    refine inTurn_step h hs hstored hplans hjob (hq.inTurn w acc r pre x post hr hsplit) ?_
    intro k y yjob hk hrequest hy hterminal hchanges
    exact hg.reopened k y yjob hk hrequest hy hterminal w acc r x job hr hx hjob hchanges

theorem queuesInTurn_step (h : s.step a = some s') (hg : ClaimsInOrder s a s')
    (hs : JobsPlanned s) (hstored : BatchesStored s) (hplans : PlansInOrder s a s')
    (hq : QueuesInTurn s) : QueuesInTurn s' := by
  have hqueue : ∀ w acc r', (s'.workers w).runners acc = some r' →
      (∀ x ∈ r'.pc.queue, ∃ job, s'.db.deliveryJobs.get? x = some job) ∧
        ∀ pre x post, r'.pc.queue = pre ++ x :: post → InTurn s'.db x pre := by
    intro w acc r' hr'
    have hempty : r'.pc.queue = [] →
        (∀ x ∈ r'.pc.queue, ∃ job, s'.db.deliveryJobs.get? x = some job) ∧
          ∀ pre x post, r'.pc.queue = pre ++ x :: post → InTurn s'.db x pre := by
      intro hnil
      rw [hnil]
      simp
    rcases step_runner_cases h hr' with hr | ⟨x, r, e, rfl, hr, he, rfl, hdb⟩ |
      ⟨x, g, _, _, _, rfl⟩
    · exact queue_kept h hg hs hstored hplans hq hr
    · obtain ⟨hkept, hturns⟩ := queue_kept h hg hs hstored hplans hq hr
      rcases runner_step_queue he with hnil | hsame | ⟨order, now, rfl, horder, hsame, hread⟩ |
        ⟨now, at_, id, seen, rest, rfl, hpc, hlost, hsame, hrest⟩ | ⟨id, rest, hhead, htaken⟩
      · exact hempty hnil
      · rw [hsame]
        exact ⟨hkept, hturns⟩
      · rw [hread, hdb, hsame]
        constructor
        · intro x hx
          obtain ⟨job, hjob, _⟩ := horder.mem_iff.mp hx
          exact ⟨job, hjob⟩
        · intro pre x post hsplit
          exact hg.scanned w acc order now rfl pre x post hsplit
      · have hqueued : r.pc.queue = id :: rest.map Prod.fst := by rw [hpc]; rfl
        rw [hrest]
        constructor
        · intro x hx
          exact hkept x (by rw [hqueued]; exact List.mem_cons_of_mem _ hx)
        · intro pre x post hsplit xjob hx hchanges y other hy hprecedes
          have hturn := hturns (id :: pre) x post (by rw [hqueued, hsplit]; rfl)
          rcases hturn xjob hx hchanges y other hy hprecedes with hterminal | hin
          · exact Or.inl hterminal
          · rcases List.mem_cons.mp hin with rfl | hin
            · -- the skipped job itself
              rw [hdb, hsame] at hx hy hprecedes
              exact Or.inl (hg.skipped w acc now r at_ y seen rest rfl hr hpc hlost other x xjob hy
                (by rw [hsplit]; simp) hx hchanges hprecedes)
            · exact Or.inr hin
      · rw [htaken]
        constructor
        · intro x hx
          obtain rfl := List.mem_singleton.mp hx
          exact hkept x (by rw [hhead]; simp)
        · intro pre x post hsplit
          obtain ⟨rfl, rfl, _⟩ : pre = [] ∧ id = x ∧ post = [] := by
            cases pre with
            | nil => simpa using hsplit
            | cons y pre => simp at hsplit
          exact hturns [] id rest hhead
    · exact hempty rfl
  exact ⟨fun w acc r x hr hx => (hqueue w acc r hr).1 x hx,
    fun w acc r pre x post hr hsplit => (hqueue w acc r hr).2 pre x post hsplit⟩

theorem startsInOrder_of (hheld : AllHold s) (hq : QueuesInTurn s) : StartsInOrder s a s' := by
  rintro w acc now r h targetIds rfl hr hpc hchanges
  obtain ⟨job, hjob, hkind, _⟩ := hheld h.id _ _ h (holder_of_executing hr hpc) rfl
  have hjobChanges : job.changes = true := by
    rw [DeliveryJob.changes, show jobKindAlias job.kind = some h.plan.kind from hkind]
    exact hchanges
  refine ⟨job, hjob, ?_⟩
  intro y other hy hprecedes
  have hqueue : r.pc.queue = [] ++ h.id :: [] := by rw [hpc]; rfl
  rcases hq.inTurn w acc r [] h.id [] hr hqueue job hjob hjobChanges y other hy hprecedes with
    hterminal | hin
  · exact hterminal
  · cases hin

end System

/-- In every run whose scans and claims keep to the order of the ingests, the rows of a message
are planned in that order, and no edit or delete is started while a job of an earlier event of
its route and message is not terminal. -/
theorem messages_in_causal_order (config : WorkerId → WorkerConfig) (as : List Action)
    (hguard : Machine.Always System.step (fun s a s' => ScansInOrder s a s' ∧ ClaimsInOrder s a s')
      (.start config) as) :
    Machine.Always System.step (fun s a s' => PlansInOrder s a s' ∧ StartsInOrder s a s')
      (.start config) as := by
  have hstart : System.AllHold (.start config) ∧ (JobsPlanned (.start config) ∧
      System.BatchesStored (.start config)) ∧ InboxInOrder (.start config) ∧
      System.QueuesInTurn (.start config) :=
    ⟨System.allHold_start config, ⟨System.jobsPlanned_start config,
      System.batchesStored_start config⟩, System.inboxInOrder_start config,
      System.queuesInTurn_start config⟩
  refine hguard.of_invariant (I := fun s => System.AllHold s ∧
    (JobsPlanned s ∧ System.BatchesStored s) ∧ InboxInOrder s ∧ System.QueuesInTurn s) ?_ ?_ hstart
  · rintro s a s' h ⟨hscans, hclaims⟩ ⟨hheld, hjobs, hinbox, hqueues⟩
    have hplans := System.plansInOrder_of hscans hjobs.2 hinbox
    exact ⟨System.allHold_step s a s' h hheld, System.jobsPlanned_step s a s' h hjobs,
      System.inboxInOrder_step h hscans hjobs.2 hinbox,
      System.queuesInTurn_step h hclaims hjobs.1 hjobs.2 hplans hqueues⟩
  · rintro s a s' _ ⟨hscans, _⟩ ⟨hheld, hjobs, hinbox, hqueues⟩
    exact ⟨System.plansInOrder_of hscans hjobs.2 hinbox, System.startsInOrder_of hheld hqueues⟩

/-- `Precedes` as a test. -/
def precedes (db : Database) (y x : DeliveryJob) : Bool :=
  let rows := List.range db.eventInbox.size
  y.routeId = x.routeId && rows.any fun i => (db.eventInbox.get? i).any fun ry =>
    rows.any fun j => (db.eventInbox.get? j).any fun rx =>
      y.message = ry.message ∧ y.revision = ry.revision ∧ y.kind = ry.kind.plan.value ∧
        x.message = rx.message ∧ x.revision = rx.revision ∧ x.kind = rx.kind.plan.value ∧
        ry.message = rx.message ∧ i < j

theorem precedes_iff {db : Database} {x y : DeliveryJob} :
    precedes db y x = true ↔ Precedes db y x := by
  simp only [precedes, Bool.and_eq_true, decide_eq_true_eq, List.any_eq_true, List.mem_range,
    Option.any_eq_true]
  constructor
  · rintro ⟨hroute, i, _, ry, hry, j, _, rx, hrx, hym, hyr, hyk, hxm, hxr, hxk, hmessage, hlt⟩
    exact ⟨hroute, i, j, ry, rx, hry, hrx, ⟨hym, hyr, hyk⟩, ⟨hxm, hxr, hxk⟩, hmessage, hlt⟩
  · rintro ⟨hroute, i, j, ry, rx, hry, hrx, ⟨hym, hyr, hyk⟩, ⟨hxm, hxr, hxk⟩, hmessage, hlt⟩
    exact ⟨hroute, i, Table.get?_lt hry, ry, hry, j, Table.get?_lt hrx, rx, hrx, hym, hyr, hyk,
      hxm, hxr, hxk, hmessage, hlt⟩

/-- `InTurn` as a test. -/
def inTurn (db : Database) (x : JobId) (apart : List JobId) : Bool :=
  (db.deliveryJobs.get? x).all fun job => !job.changes ||
    (List.range db.deliveryJobs.size).all fun y => (db.deliveryJobs.get? y).all fun other =>
      !precedes db other job || other.status.terminal || y ∈ apart

theorem inTurn_spec {db : Database} {x : JobId} {apart : List JobId}
    (h : inTurn db x apart = true) : InTurn db x apart := by
  intro job hjob hchanges y other hy hprecedes
  simp only [inTurn, hjob, hchanges, Option.all_some, Bool.not_true, Bool.false_or,
    List.all_eq_true, List.mem_range] at h
  have hother := h y (Table.get?_lt hy)
  simpa [hy, precedes_iff.mpr hprecedes] using hother

def keepsOrder (s : System) (a : Action) (_ : System) : Bool :=
  match a with
  | .runner _ _ (.drainRead order _) => order.Pairwise (· < ·)
  | .runner w acc (.drainCommit _ _ _) => ((s.workers w).runners acc).all fun r =>
      r.pc.batch.all fun x => (s.db.eventInbox.get? x.1).all fun row => !row.processed
  | .runner _ _ (.select order _) => order.zipIdx.all fun x => inTurn s.db x.1 (order.take x.2)
  | .runner w acc (.tryNext now) => ((s.workers w).runners acc).all fun r =>
      match r.pc with
      | .claiming at_ ((id, seen) :: _) => seen.due at_ &&
          match s.db.tryClaim id seen r.generation at_ now with
          | .lost => false
          | _ => true
      | _ => true
  | .operatorWrite _ => false
  | _ => true

theorem keepsOrder_spec (s : System) (a : Action) (s' : System) (h : keepsOrder s a s' = true) :
    ScansInOrder s a s' ∧ ClaimsInOrder s a s' := by
  refine ⟨⟨?_, ?_⟩, ⟨?_, ?_, ?_⟩⟩
  · rintro w acc order limit rfl
    have hpairs : order.Pairwise (· < ·) := of_decide_eq_true h
    exact hpairs.imp fun hlt _ _ _ _ _ => hlt
  · intro w acc rows mapping draw stamp raises hdrained i row stored hmem hrow hprocessed
    obtain rfl := hdrained.action
    obtain ⟨r, hr, hpc⟩ := hdrained.runner
    simp only [keepsOrder, hr, hpc, Option.all_some, List.all_eq_true] at h
    have hopen := h (i, row) hmem
    simp [hrow, hprocessed] at hopen
  · rintro w acc order now rfl pre x post rfl
    simp only [keepsOrder, List.all_eq_true] at h
    have hturn := h (x, pre.length) (by simp [List.mem_zipIdx_iff_getElem?])
    rw [List.take_left] at hturn
    exact inTurn_spec hturn
  · rintro w acc now r at_ id seen rest rfl hr hpc hlost
    simp only [keepsOrder, hr, hpc, Option.all_some, Bool.and_eq_true] at h
    rw [hlost h.1] at h
    simp at h
  · rintro k id job rfl
    cases h

def editedAfterSend : List Action :=
  .publish "A" [cloneRule] ::
    assignSteps "w1" { accountId := "A", tenantId := "t", projectId := "p" } 0 ++
    ingestSteps "w1" "A" (channelUpdate .create) ++ ingestSteps "w1" "A" (channelUpdate .edit) ++
    drainSteps "w1" "A" [0, 1] 10 1 ++ claimSteps "w1" "A" [0, 1] 2 ++ callSteps "w1" "A" 3 ++
    returnSteps "w1" "A" (.returned [9]) 4 ++ claimSteps "w1" "A" [1] 5 ++
    [.runner "w1" "A" (.gate 6), .runner "w1" "A" (.settle 6 6 0),
      .runner "w1" "A" (.lookup [0]), .runner "w1" "A" (.execute 6)]

/-- The message is flooded and waits for its retry; its delete is started. -/
def deletedBeforeSend : List Action :=
  .publish "A" [cloneRule] ::
    assignSteps "w1" { accountId := "A", tenantId := "t", projectId := "p" } 0 ++
    ingestSteps "w1" "A" (channelUpdate .create) ++ ingestSteps "w1" "A" (channelUpdate .delete) ++
    drainSteps "w1" "A" [0, 1] 10 1 ++ claimSteps "w1" "A" [0, 1] 2 ++ callSteps "w1" "A" 3 ++
    returnSteps "w1" "A" (.error .floodWait "" (some 10) (some "A")) 4 ++
    claimSteps "w1" "A" [1] 20 ++
    [.runner "w1" "A" (.gate 21), .runner "w1" "A" (.settle 21 21 0), .runner "w1" "A" (.lookup [])]

theorem messages_in_causal_order_edited :
    (System.run (.start fun _ => {}) editedAfterSend).map (fun s =>
        s.db.deliveryJobs.rows.map DeliveryJob.status) = some [.succeeded, .sending] ∧
      Machine.Always System.step (fun s a s' => PlansInOrder s a s' ∧ StartsInOrder s a s')
        (.start fun _ => {}) editedAfterSend :=
  ⟨by decide +kernel, messages_in_causal_order _ _
    (Machine.always_of_checkRun keepsOrder_spec (by decide +kernel))⟩

/-- The job for which the executor is about to be entered. -/
def RunnerPc.executes : RunnerPc → Option (JobId × PlanKind)
  | .executing h _ => some (h.id, h.plan.kind)
  | _ => none

theorem RunnerPc.executing_of_executes {pc : RunnerPc} {id : JobId} {kind : PlanKind}
    (h : pc.executes = some (id, kind)) :
    ∃ held targetIds, pc = .executing held targetIds ∧ held.id = id ∧ held.plan.kind = kind := by
  cases pc with
  | executing held targetIds =>
    obtain ⟨rfl, rfl⟩ := Prod.mk.inj (Option.some.inj h)
    exact ⟨held, targetIds, rfl, rfl, rfl⟩
  | _ => cases h

theorem delete_overtakes_send :
    ¬ ∀ config as, Machine.Always System.step
      (fun s a s' => PlansInOrder s a s' ∧ StartsInOrder s a s') (.start config) as := by
  intro h
  have hobserved : ((System.run (.start fun _ => {}) deletedBeforeSend).bind fun s =>
      (s.step (.runner "w1" "A" (.execute 21))).map fun _ =>
        (((s.workers "w1").runners "A").bind fun r => r.pc.executes,
          (s.db.deliveryJobs.get? 0).bind fun y => (s.db.deliveryJobs.get? 1).map fun x =>
            (y.status, precedes s.db y x))) =
      some (some (1, .delete), some (.retryWait, true)) := by
    decide +kernel
  obtain ⟨s, t, hrun, hstep, hobserved⟩ := Machine.exists_of_observed hobserved
  obtain ⟨hexecutes, hjobs⟩ := Prod.mk.inj hobserved
  obtain ⟨r, hr, hexecutes⟩ := Option.bind_eq_some_iff.mp hexecutes
  obtain ⟨held, targetIds, hpc, hid, hkind⟩ := RunnerPc.executing_of_executes hexecutes
  obtain ⟨y, hy, hjobs⟩ := Option.bind_eq_some_iff.mp hjobs
  obtain ⟨x, hx, hjobs⟩ := Option.map_eq_some_iff.mp hjobs
  obtain ⟨hstatus, hprecedes⟩ := Prod.mk.inj hjobs
  refine Machine.not_always_of_step hrun hstep ?_ (h _ _)
  rintro ⟨_, hstarts⟩
  obtain ⟨job, hjob, hterminal⟩ := hstarts "w1" "A" 21 r held targetIds rfl hr hpc
    (by rw [hkind]; rfl)
  rw [hid, hx] at hjob
  obtain rfl := Option.some.inj hjob
  have hdone := hterminal 0 y hy (precedes_iff.mp hprecedes)
  rw [hstatus] at hdone
  cases hdone

end TgPlatform
