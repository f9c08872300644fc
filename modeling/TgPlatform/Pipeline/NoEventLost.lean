import TgPlatform.Lib.Trace
import TgPlatform.Pipeline.Draining

/-! # Draining loses no event

Every runner drains the rows of every account and plans each with the rules its
own process has cached for the row's account; an account without a cache plans
nothing, and the row is processed all the same. If the cache holds rules that
were published since the row was ingested, the commit that processes the row
stores every job they plan.
-/

namespace TgPlatform

/-- At some moment of the run `pre` the row was in the inbox and the rules of the account were
`rows`. -/
def PublishedSince (config : WorkerId → WorkerConfig) (pre : List Action) (i : RowId)
    (acc : AccountId) (rows : List PublishedRule) : Prop :=
  ∃ pre₁ pre₂ t, pre = pre₁ ++ pre₂ ∧ System.run (.start config) pre₁ = some t ∧
    (t.db.eventInbox.get? i).isSome ∧ t.published acc = rows

def Processes (s s' : System) (i : RowId) (row : EventInbox) : Prop :=
  s.db.eventInbox.get? i = some row ∧ row.processed = false ∧
    ∃ row', s'.db.eventInbox.get? i = some row' ∧ row'.processed = true

/-- Every transaction that processes a row leaves all jobs stored that rules published for its
account since its ingest plan for it. -/
def NoEventLost (config : WorkerId → WorkerConfig) (as : List Action) : Prop :=
  ∀ pre a post s s' i row, as = pre ++ a :: post → System.run (.start config) pre = some s →
    s.step a = some s' → Processes s s' i row →
    ∃ rows, PublishedSince config pre i row.accountId rows ∧
      ∀ key ∈ plannedKeys (eventFromInbox row) rows row.accountId,
        ∃ id job, s'.db.deliveryJobs.get? id = some job ∧ job.idempotencyKey = key

/-- When a batch is committed, the process has cached for the account of each unprocessed row
rules that were published since the row was ingested. -/
def CachesLoaded (config : WorkerId → WorkerConfig) (as : List Action) : Prop :=
  ∀ pre w acc draw stamp raises post s r rows mapping i row stored,
    as = pre ++ .runner w acc (.drainCommit draw stamp raises) :: post →
    System.run (.start config) pre = some s → (s.workers w).runners acc = some r →
    r.pc = .draining rows mapping → (i, row) ∈ rows →
    s.db.eventInbox.get? i = some stored → stored.processed = false →
    ∃ published dead, PublishedSince config pre i row.accountId published ∧
      (s.workers w).caches.rules row.accountId =
        rulesFromRows published row.accountId dead

theorem planned_of_drained {s s' : System} {a : Action} {w : WorkerId} {acc : AccountId}
    {rows : List (RowId × EventInbox)} {mapping : DictMappingView} {draw : EventInbox → Draw}
    {stamp : ℕ → Time} {raises : Bool}
    (h : DrainedBy s a s' w acc rows mapping draw stamp raises) {i : RowId} {row : EventInbox}
    (hmem : (i, row) ∈ rows) {plan : DeliveryPlan}
    (hplan : plan ∈ plansFor (s.workers w).deps mapping draw row) :
    ∃ id job, s'.db.deliveryJobs.get? id = some job ∧
      job.idempotencyKey = plan.idempotencyKey := by
  obtain ⟨added, hadded, hdb⟩ := Database.drainToJobs_eq_some h.commit
  obtain ⟨now, hnew⟩ := Database.jobFromPlan_mem_drainedJobs (s.workers w).deps.tenantId
    (s.workers w).deps.projectId stamp hmem hplan
  obtain ⟨id, job, hjob, hkey⟩ := hadded.complete _ hnew
  exact ⟨id, job, by rw [hdb]; exact hjob, hkey⟩

theorem drained_of_processes {s s' : System} {a : Action} (h : s.step a = some s')
    (hs : s.BatchesStored) {i : RowId} {row : EventInbox} (hprocesses : Processes s s' i row) :
    ∃ w acc rows mapping draw stamp raises,
      DrainedBy s a s' w acc rows mapping draw stamp raises ∧ (i, row) ∈ rows := by
  obtain ⟨hrow, hunprocessed, row', hrow', hprocessed⟩ := hprocesses
  rcases System.inbox_step h with ⟨hsame, _⟩ | ⟨k, c, hingested⟩ |
    ⟨w, acc, rows, mapping, draw, stamp, raises, hdrained⟩
  · rw [hsame, hrow] at hrow'
    obtain rfl := Option.some.inj hrow'
    rw [hunprocessed] at hprocessed
    cases hprocessed
  · have hkept : s'.db.eventInbox.get? i = some row := by
      rw [hingested.inbox]
      exact Table.get?_append_of_some hrow
    obtain rfl := Option.some.inj (hkept.symm.trans hrow')
    rw [hunprocessed] at hprocessed
    cases hprocessed
  · refine ⟨w, acc, rows, mapping, draw, stamp, raises, hdrained, ?_⟩
    rw [System.drained_inbox hdrained, hrow] at hrow'
    by_cases hmem : i ∈ rows.map Prod.fst
    · obtain ⟨⟨i', batched⟩, hbatched, rfl⟩ := List.mem_map.mp hmem
      obtain ⟨r, hr, hpc⟩ := hdrained.runner
      obtain ⟨stored, hstored, hcontent⟩ :=
        hs w acc r i' batched hr (by rw [hpc]; exact hbatched)
      obtain rfl := Option.some.inj (hrow.symm.trans hstored)
      have hsame : batched = row := by
        rw [← hcontent, EventInbox.content, ← hunprocessed]
      exact hsame ▸ hbatched
    · simp only [if_neg hmem, Option.map_some] at hrow'
      obtain rfl := Option.some.inj hrow'
      rw [hunprocessed] at hprocessed
      cases hprocessed

/-- In every run in which each draining process has loaded, for the account of each row it
processes, rules published since the row's ingest, no event is lost. -/
theorem no_event_lost (config : WorkerId → WorkerConfig) (as : List Action)
    (h : CachesLoaded config as) : NoEventLost config as := by
  intro pre a post s s' i row has hrun hstep hprocesses
  have hbatches :=
    Machine.run_invariant System.batchesStored_step hrun (System.batchesStored_start config)
  obtain ⟨w, acc, rows, mapping, draw, stamp, raises, hdrained, hmem⟩ :=
    drained_of_processes hstep hbatches hprocesses
  obtain ⟨r, hr, hpc⟩ := hdrained.runner
  obtain ⟨published, dead, hpublished, hcache⟩ := h pre w acc draw stamp raises post s r rows
    mapping i row row (hdrained.action ▸ has) hrun hr hpc hmem hprocesses.1 hprocesses.2.1
  refine ⟨published, hpublished, ?_⟩
  intro key hkey
  rw [← plan_keys_eq_plannedKeys mapping (draw row) (eventFromInbox row) published row.accountId
    dead] at hkey
  obtain ⟨plan, hplan, rfl⟩ := List.mem_map.mp hkey
  refine planned_of_drained hdrained hmem ?_
  change plan ∈ TgPlatform.plan mapping (draw row) (eventFromInbox row)
    ((s.workers w).caches.rules row.accountId)
  rwa [hcache]

/-- The process of account `A` has loaded its rule and ingests a new message. -/
def ingestedClone : List Action :=
  .publish "A" [cloneRule] ::
    assignSteps "w1" { accountId := "A", tenantId := "t", projectId := "p" } 0 ++
    ingestSteps "w1" "A" (channelUpdate .create)

def commitDrain (w : WorkerId) (acc : AccountId) (now : Time) : Action :=
  .runner w acc (.drainCommit (fun _ _ _ => 0) (fun _ => now) false)

def Action.commitsDrain : Action → Bool
  | .runner _ _ (.drainCommit _ _ _) => true
  | _ => false

def drainedAtHome : List Action :=
  ingestedClone ++ [.runner "w1" "A" (.drainRead [0] 10), .runner "w1" "A" (.drainPrefetch [])]

/-- Another process, which hosts only account `B`, drains the inbox, up to its commit. -/
def drainedElsewhere : List Action :=
  ingestedClone ++ assignSteps "w2" { accountId := "B", tenantId := "t", projectId := "p" } 1 ++
    [.runner "w2" "B" (.drainRead [0] 10), .runner "w2" "B" (.drainPrefetch [])]

def clonedRow : EventInbox := inboxRow (normalize (channelUpdate .create) "A" 0) 0

theorem no_event_lost_at_home :
    ((System.run (.start fun _ => {}) (drainedAtHome ++ [commitDrain "w1" "A" 5])).map fun s =>
        (s.db.eventInbox.rows, s.db.deliveryJobs.rows.map DeliveryJob.idempotencyKey)) =
      some ([{ clonedRow with processed := true }], ["r:n:peer:5:5:3:1:send"]) ∧
    NoEventLost (fun _ => {}) (drainedAtHome ++ [commitDrain "w1" "A" 5]) := by
  constructor
  · decide +kernel
  · apply no_event_lost
    intro pre w acc draw stamp raises post s r rows mapping i row stored has hrun hr hpc hmem
      hstored _
    obtain ⟨rfl, haction⟩ := Trace.snoc_split (p := fun a => Action.commitsDrain a = true)
      (by decide) rfl has
    obtain ⟨rfl, rfl, _⟩ := Action.runner.inj haction
    have hobserved : (System.run (.start fun _ => {}) drainedAtHome).map (fun s =>
        (((s.workers "w1").runners "A").map Runner.pc, s.published "A",
          (s.workers "w1").caches.rules "A")) =
        some (some (.draining [(0, clonedRow)] []), [cloneRule],
          rulesFromRows [cloneRule] "A" []) := by
      decide +kernel
    simp only [hrun, hr, Option.map_some, Option.some.injEq, Prod.mk.injEq, hpc] at hobserved
    obtain ⟨hdraining, hpublished, hcached⟩ := hobserved
    obtain ⟨rfl, rfl⟩ := RunnerPc.draining.inj hdraining
    obtain ⟨rfl, rfl⟩ := Prod.mk.inj (List.mem_singleton.mp hmem)
    refine ⟨[cloneRule], [], ⟨drainedAtHome, [], s, (List.append_nil _).symm, hrun, ?_, ?_⟩, ?_⟩
    · simp [hstored]
    · exact hpublished
    · exact hcached

theorem rows_of_drainedElsewhere {rows : List PublishedRule}
    (h : PublishedSince (fun _ => {}) drainedElsewhere 0 "A" rows) : rows = [cloneRule] := by
  obtain ⟨pre₁, pre₂, t, hsplit, hrun, hstored, rfl⟩ := h
  have hall : ∀ k < drainedElsewhere.length + 1,
      (System.run (.start fun _ => {}) (drainedElsewhere.take k)).all fun t =>
        (t.db.eventInbox.get? 0).isNone || t.published "A" = [cloneRule] := by
    decide +kernel
  have htake : drainedElsewhere.take pre₁.length = pre₁ := by simp [hsplit]
  have hk := hall pre₁.length (by rw [hsplit, List.length_append]; omega)
  simpa [htake, hrun, Option.isSome_iff_ne_none.mp hstored] using hk

theorem foreign_drain_loses_event :
    ¬ ∀ config as s, System.run (.start config) as = some s → NoEventLost config as := by
  intro h
  have hobserved : ((System.run (.start fun _ => {}) drainedElsewhere).bind fun s =>
      (s.step (commitDrain "w2" "B" 5)).map fun t =>
        (s.db.eventInbox.get? 0, t.db.eventInbox.get? 0, t.db.deliveryJobs.size)) =
      some (some clonedRow, some { clonedRow with processed := true }, 0) := by
    decide +kernel
  obtain ⟨s, t, hrun, hstep, hobserved⟩ := Machine.exists_of_observed hobserved
  simp only [Prod.mk.injEq] at hobserved
  obtain ⟨hrow, hrow', hsize⟩ := hobserved
  have hruns : System.run (.start fun _ => {}) (drainedElsewhere ++ [commitDrain "w2" "B" 5]) =
      some t := by
    simp [System.run, Machine.run_append_of_eq hrun, Machine.run_cons, hstep]
  obtain ⟨rows, hpublished, hplanned⟩ := h _ _ t hruns drainedElsewhere _ [] s t 0 clonedRow rfl
    hrun hstep ⟨hrow, rfl, _, hrow', rfl⟩
  obtain rfl := rows_of_drainedElsewhere hpublished
  obtain ⟨id, job, hjob, _⟩ := hplanned "r:n:peer:5:5:3:1:send" (by decide +kernel)
  have hlt := Table.get?_lt hjob
  omega

end TgPlatform
