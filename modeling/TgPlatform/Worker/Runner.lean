import TgPlatform.Storage.Inbox
import TgPlatform.Storage.Jobs
import TgPlatform.Storage.Lease
import TgPlatform.Worker.Live
import TgPlatform.Worker.Rules

/-! # The account runner

One runner serves one account at one lease generation. A round drains the
inbox into jobs, then claims, gates, executes and records one job after the
other. Every await of the source is a step boundary, so other runners and
processes interleave between any two of the steps below.
-/

namespace TgPlatform

/-- What the runners of one worker process read from it. -/
structure RunnerDeps where
  rules : AccountId → List RuleSnapshot
  live : AccountId → LiveAccount
  policy : PolicySnapshot
  planHints : RuleId → ℤ → Option (AccountId × Bool)
  /-- The accounts the transport router has a session for. -/
  router : AccountId → Bool
  retryPolicy : RetryPolicy := {}
  tenantId : TenantId := ""
  projectId : ProjectId := ""

/-- `_approval_for`: the job row itself is the proof of its approval. -/
def approvalFor (job : DeliveryJob) : Option ApprovalRecord :=
  if job.requiresApproval then some ⟨true, job.payloadHash, none⟩ else none

/-- A claimed job as `send_next` holds it; `live` is the state read at the gate. -/
structure Holding where
  id : JobId
  job : DeliveryJob
  plan : DeliveryPlan
  live : LiveAccount
  deriving DecidableEq, Repr

def Holding.attemptNo (h : Holding) : ℤ := h.job.attemptCount

def Holding.checkable (h : Holding) (generation : ℤ) : PolicyCheckable where
  accountId := h.plan.accountId
  ruleId := h.plan.ruleId
  routeId := h.plan.routeId
  tenantId := h.job.tenantId
  projectId := h.job.projectId
  expectedGeneration := generation
  requiresApproval := h.plan.requiresApproval
  contentHash := h.plan.payloadHash

/-- The plan of a claimed job, with the hints its row does not store. -/
def heldPlan (d : RunnerDeps) (job : DeliveryJob) : Option DeliveryPlan :=
  (planFromJob job).map fun plan =>
    match d.planHints plan.ruleId plan.ruleVersion with
    | some (fetchAccountId, transform) =>
      { plan with
        fetchAccountId := some (if fetchAccountId = "" then plan.accountId else fetchAccountId)
        transform }
    | none => plan

def hold (d : RunnerDeps) (accountId : AccountId) (id : JobId) (job : DeliveryJob) :
    Option Holding :=
  (heldPlan d job).map fun plan => ⟨id, job, plan, d.live accountId⟩

/-- The gate: both `send_next` and the executor ask it, with the same live state. -/
def Holding.decide (h : Holding) (generation : ℤ) (policy : PolicySnapshot) (now : Time) :
    Decision :=
  check (h.checkable generation) h.live policy (approvalFor h.job) now

structure Call where
  workerId : WorkerId
  accountId : AccountId
  generation : ℤ
  jobId : JobId
  attemptNo : ℤ
  plan : DeliveryPlan
  request : TransportRequest
  deriving DecidableEq, Repr

def Holding.call (h : Holding) (workerId : WorkerId) (accountId : AccountId) (generation : ℤ)
    (request : TransportRequest) : Call :=
  { workerId, accountId, generation, jobId := h.id, attemptNo := h.attemptNo, plan := h.plan
    request }

/-- Where a runner stands between two awaits. -/
inductive RunnerPc
  | idle
  | prefetching (rows : List (RowId × EventInbox))
  | draining (rows : List (RowId × EventInbox)) (mapping : DictMappingView)
  | selecting
  | claiming (now : Time) (candidates : List (JobId × DeliveryJob))
  | claimed (id : JobId)
  | gated (h : Holding) (decision : Decision)
  | admitted (h : Holding)
  | executing (h : Holding) (targetIds : List ℤ)
  | calling (h : Holding) (targetIds : List ℤ) (request : TransportRequest)
  | recording (h : Holding) (called : Option TransportRequest) (result : DeliveryResult)
  deriving DecidableEq, Repr

def Decision.target : Decision → JobStatus
  | .allow => .sending
  | .blockedLease | .blockedRate => .ready
  | _ => .blocked

inductive Halt
  | leaseLost
  | error (err : ErrorClass)
  deriving DecidableEq, Repr

structure Runner where
  generation : ℤ
  halted : Option Halt := none
  pc : RunnerPc := .idle
  deriving DecidableEq, Repr

/-- What a run has done for others to see, oldest first. -/
inductive Event
  | lease (accountId : AccountId) (event : LeaseEvent)
  | ingested (tenantId : TenantId) (projectId : ProjectId) (event : SourceEvent)
  | started (call : Call)
  | returned (call : Call) (result : DeliveryResult)
  | recorded (id : JobId) (attemptNo : ℤ) (result : ResultFields)
  deriving DecidableEq, Repr

/-! ## Results -/

/-- `_record`: the fields written for a result; `clock` and `draw` feed the backoff. -/
def resultFields (policy : RetryPolicy) (attemptNo : ℤ) (clock : Time) (draw : ℤ)
    (result : DeliveryResult) : ResultFields :=
  match result.status with
  | .succeeded => { newStatus := .succeeded, targetMessageId := result.targetMessageIds.head? }
  | .policyDenied => { newStatus := .blocked }
  | .blocked => { newStatus := .blocked, errorClass := result.errorClass }
  | .uncertain => { newStatus := .uncertain, errorClass := some .resultUnknown }
  | .retryable =>
    match result.errorClass.bind fun err => (classifyError err result.floodWaitUntil).floodWaitUntil with
    | some until_ =>
      { newStatus := .retryWait, errorClass := result.errorClass, floodWaitUntil := some until_ }
    | none =>
      match nextAttemptAt policy attemptNo clock draw with
      | none => { newStatus := .deadLetter, errorClass := result.errorClass }
      | some next =>
        { newStatus := .retryWait, errorClass := result.errorClass, nextAttemptAt := some next }
  | .failed =>
    { newStatus := .failedPermanent, errorClass := result.errorClass
      requestRef := result.errorDetail.bind fun detail =>
        if detail = "" then none else some (String.ofList (detail.toList.take 200)) }

/-- The errors on which `_record` halts the runner. -/
def haltOf (result : DeliveryResult) : Option Halt :=
  if result.status = .failed then
    match result.errorClass with
    | some .authDead => some (.error .authDead)
    | some .storageDown => some (.error .storageDown)
    | some .cacheDown => some (.error .cacheDown)
    | _ => none
  else none

/-! ## Steps -/

/-- A step of a runner with everything the environment decides: query answers, clock readings,
random draws, transport outcomes. -/
inductive RunnerAction
  | drainRead (order : List RowId) (limit : ℕ)
  | drainPrefetch (order : List RowId)
  | drainCommit (draw : EventInbox → Draw) (stamp : ℕ → Time) (expungeRaises : Bool)
  | reclaim (now : Time)
  | select (order : List JobId) (now : Time)
  | tryNext (now : Time)
  | gate (now : Time)
  | settle (now clock : Time) (draw : ℤ)
  | lookup (order : List RowId)
  | execute (now : Time)
  | finish (outcome : TransportOutcome)
  | record (now clock : Time) (draw : ℤ) (expungeRaises : Bool)

structure RunnerEffect where
  db : Database
  runner : Runner
  events : List Event := []

def plansFor (d : RunnerDeps) (mapping : DictMappingView) (draw : EventInbox → Draw)
    (row : EventInbox) : List DeliveryPlan :=
  plan mapping (draw row) (eventFromInbox row) (d.rules row.accountId)

/-- The answer of a router without a session for the account. -/
def noLiveSession (accountId : AccountId) : TransportOutcome :=
  .error .auth s!"no live session for {accountId}" none none

namespace Runner

variable (d : RunnerDeps) (workerId : WorkerId) (accountId : AccountId) (db : Database)

/-- The status writes of the gate: back to `ready`, on to `sending`, or `blocked`. -/
def settleGate (r : Runner) (h : Holding) (decision : Decision) (now clock : Time) (draw : ℤ) :
    RunnerEffect :=
  let moved := fun dst fields => (db.transition h.id .leased dst fields now).getD db
  match decision with
  | .blockedLease =>
    ⟨moved .ready {}, { r with halted := some .leaseLost, pc := .idle }, []⟩
  | .blockedRate =>
    ⟨moved .ready { nextAttemptAt := nextAttemptAt d.retryPolicy h.attemptNo clock draw },
      { r with pc := .idle }, []⟩
  | .allow => ⟨moved .sending {}, { r with pc := .admitted h }, []⟩
  | _ => ⟨moved .blocked {}, { r with pc := .idle }, []⟩

/-- The executor up to the transport call; without a session no call is made. -/
def startCall (r : Runner) (h : Holding) (targetIds : List ℤ) (now : Time) : RunnerEffect :=
  match dispatch h.plan.kind (h.decide r.generation d.policy now) targetIds with
  | .finished result => ⟨db, { r with pc := .recording h none result }, []⟩
  | .call request =>
    if d.router h.plan.accountId then
      ⟨db, { r with pc := .calling h targetIds request },
        [.started (h.call workerId accountId r.generation request)]⟩
    else
      let result := request.result targetIds (noLiveSession h.plan.accountId)
      ⟨db, { r with pc := .recording h none result }, []⟩

def recordOutcome (r : Runner) (h : Holding) (result : DeliveryResult) (now clock : Time)
    (draw : ℤ) (expungeRaises : Bool) : RunnerEffect :=
  let r := { r with halted := (haltOf result).or r.halted, pc := .idle }
  let fields := resultFields d.retryPolicy h.attemptNo clock draw result
  match db.recordResult h.id h.job h.attemptNo fields now expungeRaises with
  | .recorded db' => ⟨db', r, [.recorded h.id h.attemptNo fields]⟩
  | .stale | .raised => ⟨db, r, []⟩

def step (r : Runner) : RunnerAction → Option RunnerEffect
  | .drainRead order limit =>
    if r.pc = .idle ∧ r.halted = none ∧ db.UnprocessedOrder order ∧
        db.nextUnprocessed order limit ≠ [] then
      some ⟨db, { r with pc := .prefetching (db.nextUnprocessed order limit) }, []⟩
    else none
  | .drainPrefetch order =>
    match r.pc with
    | .prefetching rows =>
      if order.Perm (db.messageMaps.select (Database.prefetched rows)) then
        some ⟨db, { r with pc := .draining rows (db.mappingEntries order) }, []⟩
      else none
    | _ => none
  | .drainCommit draw stamp expungeRaises =>
    match r.pc with
    | .draining rows mapping =>
      some ⟨(db.drainToJobs rows (plansFor d mapping draw) d.tenantId d.projectId stamp
        expungeRaises).getD db, { r with pc := .idle }, []⟩
    | _ => none
  | .reclaim now =>
    if r.pc = .idle ∧ r.halted = none then
      some ⟨db.reclaimStaleSending accountId now, { r with pc := .selecting }, []⟩
    else none
  | .select order now =>
    if r.pc = .selecting ∧ db.ReadyOrder accountId order then
      some ⟨db, { r with pc := .claiming now (db.deliveryJobs.fetch order) }, []⟩
    else none
  | .tryNext now =>
    match r.pc with
    | .claiming _ [] => some ⟨db, { r with pc := .idle }, []⟩
    | .claiming at_ ((id, seen) :: rest) =>
      if seen.due at_ then
        match db.tryClaim id seen r.generation at_ now with
        | .lost => some ⟨db, { r with pc := .claiming at_ rest }, []⟩
        | .raised => some ⟨db, { r with pc := .idle }, []⟩
        | .claimed db' => some ⟨db', { r with pc := .claimed id }, []⟩
      else some ⟨db, { r with pc := .claiming at_ rest }, []⟩
    | _ => none
  | .gate now =>
    match r.pc with
    | .claimed id =>
      (db.deliveryJobs.get? id).map fun job =>
        match hold d accountId id job with
        | none => ⟨db, { r with pc := .idle }, []⟩
        | some h => ⟨db, { r with pc := .gated h (h.decide r.generation d.policy now) }, []⟩
    | _ => none
  | .settle now clock draw =>
    match r.pc with
    | .gated h decision => some (r.settleGate d db h decision now clock draw)
    | _ => none
  | .lookup order =>
    match r.pc with
    | .admitted h =>
      if h.plan.kind = .send then some ⟨db, { r with pc := .executing h [] }, []⟩
      else if db.messageMaps.Answers (Database.targetPart h.job.routeId h.job.message)
          MessageMap.outputPartIndex order then
        some ⟨db, { r with pc := .executing h (db.targetMessageIds order) }, []⟩
      else none
    | _ => none
  | .execute now =>
    match r.pc with
    | .executing h targetIds => some (r.startCall d workerId accountId db h targetIds now)
    | _ => none
  | .finish outcome =>
    match r.pc with
    | .calling h targetIds request =>
      let result := request.result targetIds outcome
      some ⟨db, { r with pc := .recording h (some request) result },
        [.returned (h.call workerId accountId r.generation request) result]⟩
    | _ => none
  | .record now clock draw expungeRaises =>
    match r.pc with
    | .recording h _ result => some (r.recordOutcome d db h result now clock draw expungeRaises)
    | _ => none

inductive Stepped (r : Runner) : RunnerAction → RunnerEffect → Prop
  | drainRead (order : List RowId) (limit : ℕ) : r.pc = .idle → r.halted = none →
      db.UnprocessedOrder order → Stepped r (.drainRead order limit)
        ⟨db, { r with pc := .prefetching (db.nextUnprocessed order limit) }, []⟩
  | drainPrefetch (order : List RowId) (rows : List (RowId × EventInbox)) :
      r.pc = .prefetching rows → order.Perm (db.messageMaps.select (Database.prefetched rows)) →
      Stepped r (.drainPrefetch order)
        ⟨db, { r with pc := .draining rows (db.mappingEntries order) }, []⟩
  | drained (draw : EventInbox → Draw) (stamp : ℕ → Time) (raises : Bool)
      (rows : List (RowId × EventInbox)) (mapping : DictMappingView) (db' : Database) :
      r.pc = .draining rows mapping →
      db.drainToJobs rows (plansFor d mapping draw) d.tenantId d.projectId stamp raises =
        some db' →
      Stepped r (.drainCommit draw stamp raises) ⟨db', { r with pc := .idle }, []⟩
  | drainRaised (draw : EventInbox → Draw) (stamp : ℕ → Time) (raises : Bool)
      (rows : List (RowId × EventInbox)) (mapping : DictMappingView) :
      r.pc = .draining rows mapping →
      Stepped r (.drainCommit draw stamp raises) ⟨db, { r with pc := .idle }, []⟩
  | reclaim (now : Time) : r.pc = .idle → r.halted = none →
      Stepped r (.reclaim now)
        ⟨db.reclaimStaleSending accountId now, { r with pc := .selecting }, []⟩
  | select (order : List JobId) (now : Time) : r.pc = .selecting → db.ReadyOrder accountId order →
      Stepped r (.select order now)
        ⟨db, { r with pc := .claiming now (db.deliveryJobs.fetch order) }, []⟩
  | claimEmpty (now at_ : Time) : r.pc = .claiming at_ [] →
      Stepped r (.tryNext now) ⟨db, { r with pc := .idle }, []⟩
  | claimSkip (now at_ : Time) (id : JobId) (seen : DeliveryJob)
      (rest : List (JobId × DeliveryJob)) : r.pc = .claiming at_ ((id, seen) :: rest) →
      (seen.due at_ = true → db.tryClaim id seen r.generation at_ now = .lost) →
      Stepped r (.tryNext now) ⟨db, { r with pc := .claiming at_ rest }, []⟩
  | claimRaised (now at_ : Time) (id : JobId) (seen : DeliveryJob)
      (rest : List (JobId × DeliveryJob)) : r.pc = .claiming at_ ((id, seen) :: rest) →
      db.tryClaim id seen r.generation at_ now = .raised →
      Stepped r (.tryNext now) ⟨db, { r with pc := .idle }, []⟩
  | claimed (now at_ : Time) (id : JobId) (seen : DeliveryJob)
      (rest : List (JobId × DeliveryJob)) (db' : Database) :
      r.pc = .claiming at_ ((id, seen) :: rest) → seen.due at_ = true →
      db.tryClaim id seen r.generation at_ now = .claimed db' →
      Stepped r (.tryNext now) ⟨db', { r with pc := .claimed id }, []⟩
  | unplannable (now : Time) (id : JobId) (job : DeliveryJob) : r.pc = .claimed id →
      db.deliveryJobs.get? id = some job → hold d accountId id job = none →
      Stepped r (.gate now) ⟨db, { r with pc := .idle }, []⟩
  | gate (now : Time) (id : JobId) (job : DeliveryJob) (h : Holding) : r.pc = .claimed id →
      db.deliveryJobs.get? id = some job → hold d accountId id job = some h →
      Stepped r (.gate now)
        ⟨db, { r with pc := .gated h (h.decide r.generation d.policy now) }, []⟩
  | settle (now clock : Time) (draw : ℤ) (h : Holding) (decision : Decision) :
      r.pc = .gated h decision →
      Stepped r (.settle now clock draw) (r.settleGate d db h decision now clock draw)
  | lookup (order : List RowId) (h : Holding) (targetIds : List ℤ) : r.pc = .admitted h →
      Stepped r (.lookup order) ⟨db, { r with pc := .executing h targetIds }, []⟩
  | execute (now : Time) (h : Holding) (targetIds : List ℤ) : r.pc = .executing h targetIds →
      Stepped r (.execute now) (r.startCall d workerId accountId db h targetIds now)
  | finish (outcome : TransportOutcome) (h : Holding) (targetIds : List ℤ)
      (request : TransportRequest) : r.pc = .calling h targetIds request →
      Stepped r (.finish outcome)
        ⟨db, { r with pc := .recording h (some request) (request.result targetIds outcome) },
          [.returned (h.call workerId accountId r.generation request)
            (request.result targetIds outcome)]⟩
  | record (now clock : Time) (draw : ℤ) (raises : Bool) (h : Holding)
      (called : Option TransportRequest) (result : DeliveryResult) :
      r.pc = .recording h called result →
      Stepped r (.record now clock draw raises) (r.recordOutcome d db h result now clock draw raises)

variable {d workerId accountId db} {r : Runner} {x : RunnerAction} {e : RunnerEffect}

theorem stepped_of_step (he : r.step d workerId accountId db x = some e) :
    r.Stepped d workerId accountId db x e := by
  cases x with
  | drainRead order limit =>
    simp only [step] at he
    split at he <;> cases he
    rename_i h
    exact .drainRead order limit h.1 h.2.1 h.2.2.1
  | drainPrefetch order =>
    simp only [step] at he
    split at he
    · rename_i rows hpc
      split at he <;> cases he
      exact .drainPrefetch order rows hpc ‹_›
    · cases he
  | drainCommit draw stamp raises =>
    simp only [step] at he
    split at he
    · rename_i rows mapping hpc
      obtain rfl := Option.some.inj he
      cases hdrain : db.drainToJobs rows (plansFor d mapping draw) d.tenantId d.projectId stamp
          raises with
      | none => exact .drainRaised draw stamp raises rows mapping hpc
      | some db' => exact .drained draw stamp raises rows mapping db' hpc hdrain
    · cases he
  | reclaim now =>
    simp only [step] at he
    split at he <;> cases he
    rename_i h
    exact .reclaim now h.1 h.2
  | select order now =>
    simp only [step] at he
    split at he <;> cases he
    rename_i h
    exact .select order now h.1 h.2
  | tryNext now =>
    simp only [step] at he
    split at he
    · cases he
      exact .claimEmpty now _ ‹_›
    · rename_i at_ id seen rest hpc
      split at he
      · rename_i hdue
        split at he <;> cases he
        · exact .claimSkip now at_ id seen rest hpc fun _ => ‹_›
        · exact .claimRaised now at_ id seen rest hpc ‹_›
        · exact .claimed now at_ id seen rest _ hpc hdue ‹_›
      · rename_i hdue
        cases he
        exact .claimSkip now at_ id seen rest hpc fun h => absurd h hdue
    · cases he
  | gate now =>
    simp only [step] at he
    split at he
    · rename_i id hpc
      obtain ⟨job, hjob, he⟩ := Option.map_eq_some_iff.mp he
      split at he <;> cases he
      · exact .unplannable now id job hpc hjob ‹_›
      · exact .gate now id job _ hpc hjob ‹_›
    · cases he
  | settle now clock draw =>
    simp only [step] at he
    split at he <;> cases he
    exact .settle now clock draw _ _ ‹_›
  | lookup order =>
    simp only [step] at he
    split at he
    · rename_i h hpc
      split at he
      · cases he
        exact .lookup order h [] hpc
      · split at he <;> cases he
        exact .lookup order h _ hpc
    · cases he
  | execute now =>
    simp only [step] at he
    split at he <;> cases he
    exact .execute now _ _ ‹_›
  | finish outcome =>
    simp only [step] at he
    split at he <;> cases he
    exact .finish outcome _ _ _ ‹_›
  | record now clock draw raises =>
    simp only [step] at he
    split at he <;> cases he
    exact .record now clock draw raises _ _ _ ‹_›

/-! ## Where a runner goes -/

variable (d workerId accountId db)

theorem settleGate_eq (r : Runner) (h : Holding) (decision : Decision) (now clock : Time)
    (draw : ℤ) : ∃ fields halted, r.settleGate d db h decision now clock draw =
      ⟨(db.transition h.id .leased decision.target fields now).getD db,
        { r with halted, pc := if decision = .allow then .admitted h else .idle }, []⟩ := by
  cases decision <;> exact ⟨_, _, rfl⟩

theorem startCall_cases (r : Runner) (h : Holding) (targetIds : List ℤ) (now : Time) :
    (∃ request, dispatch h.plan.kind (h.decide r.generation d.policy now) targetIds =
        .call request ∧ r.startCall d workerId accountId db h targetIds now =
          ⟨db, { r with pc := .calling h targetIds request },
            [.started (h.call workerId accountId r.generation request)]⟩) ∨
      ∃ result, (dispatch h.plan.kind (h.decide r.generation d.policy now) targetIds =
          .finished result ∨
        ∃ request, dispatch h.plan.kind (h.decide r.generation d.policy now) targetIds =
            .call request ∧
          result = request.result targetIds (noLiveSession h.plan.accountId)) ∧
        r.startCall d workerId accountId db h targetIds now =
          ⟨db, { r with pc := .recording h none result }, []⟩ := by
  unfold startCall
  split
  · rename_i result hdispatch
    exact Or.inr ⟨result, Or.inl hdispatch, rfl⟩
  · rename_i request hdispatch
    split
    · exact Or.inl ⟨request, hdispatch, rfl⟩
    · exact Or.inr ⟨_, Or.inr ⟨request, hdispatch, rfl⟩, rfl⟩

theorem recordOutcome_cases (r : Runner) (h : Holding) (result : DeliveryResult)
    (now clock : Time) (draw : ℤ) (raises : Bool) : ∃ halted,
    ((∃ db', db.recordResult h.id h.job h.attemptNo
          (resultFields d.retryPolicy h.attemptNo clock draw result) now raises = .recorded db' ∧
        r.recordOutcome d db h result now clock draw raises =
          ⟨db', { r with halted, pc := .idle }, [.recorded h.id h.attemptNo
            (resultFields d.retryPolicy h.attemptNo clock draw result)]⟩) ∨
      (∀ db', db.recordResult h.id h.job h.attemptNo
          (resultFields d.retryPolicy h.attemptNo clock draw result) now raises ≠ .recorded db') ∧
        r.recordOutcome d db h result now clock draw raises =
          ⟨db, { r with halted, pc := .idle }, []⟩) := by
  refine ⟨(haltOf result).or r.halted, ?_⟩
  unfold recordOutcome
  dsimp only
  split
  · exact Or.inl ⟨_, ‹_›, rfl⟩
  · exact Or.inr ⟨by simp [*], rfl⟩
  · exact Or.inr ⟨by simp [*], rfl⟩

variable {d workerId accountId db}

theorem step_generation (he : r.step d workerId accountId db x = some e) :
    e.runner.generation = r.generation := by
  cases stepped_of_step he with
  | settle now clock draw h decision _ =>
    obtain ⟨_, _, hsettled⟩ := settleGate_eq d db r h decision now clock draw
    rw [hsettled]
  | execute now h targetIds _ =>
    rcases startCall_cases d workerId accountId db r h targetIds now with ⟨_, _, he⟩ |
      ⟨_, _, he⟩ <;> rw [he]
  | record now clock draw raises h called result _ =>
    obtain ⟨_, ⟨_, _, he⟩ | ⟨_, he⟩⟩ := recordOutcome_cases d db r h result now clock draw
      raises <;> rw [he]
  | _ => rfl

end Runner

/-- The gate never lacks an approval: a job that needs one carries it. -/
theorem approvalMissing_approvalFor (job : DeliveryJob) (c : PolicyCheckable) (now : Time)
    (hc : c.requiresApproval = job.requiresApproval) (hhash : c.contentHash = job.payloadHash) :
    c.requiresApproval → approvalMissing c (approvalFor job) now = false := by
  intro h
  simp [approvalFor, ← hc, h, approvalMissing, hhash]

end TgPlatform
