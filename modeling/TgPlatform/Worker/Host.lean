import TgPlatform.Worker.Runner

/-! # The worker host

One process hosts many accounts. Assigning an account wins its lease, connects
its session, registers it as live and loads its rules before a runner exists;
releasing drops all of that. The heartbeat renews the lease and only flags a
loss for the next reconcile round.
-/

namespace TgPlatform

/-- One account the control plane wants online. -/
structure Assignment where
  accountId : AccountId
  tenantId : TenantId
  projectId : ProjectId
  hasSession : Bool := true
  deriving DecidableEq, Repr

/-- How far a call of `_assign` has come. -/
inductive AssignStage
  | acquiring (read : AcquireRead)
  | connecting (generation : ℤ)
  | connected (generation : ℤ)
  deriving DecidableEq, Repr

structure Assigning where
  assignment : Assignment
  stage : AssignStage
  deriving DecidableEq, Repr

/-- A hosted account; the generation is the one its heartbeat renews. -/
structure Hosted where
  assignment : Assignment
  generation : ℤ
  deriving DecidableEq, Repr

structure WorkerConfig where
  leaseTtl : ℤ := 45000000
  policy : PolicySnapshot := {}
  retryPolicy : RetryPolicy := {}

structure Worker where
  config : WorkerConfig
  registry : LiveRegistry
  router : AccountId → Bool
  /-- The sessions whose update handlers run. -/
  sessions : AccountId → Option Assignment
  caches : RuleCaches
  deadAccounts : List AccountId
  /-- The answer of the rules endpoint that is still to be applied. -/
  pulled : Option (AccountId × List PublishedRule)
  assigning : Option Assigning
  runners : AccountId → Option Runner
  hosted : AccountId → Option Hosted
  lost : AccountId → Bool

def Worker.start (config : WorkerConfig) : Worker where
  config := config
  registry := .empty
  router := fun _ => false
  sessions := fun _ => none
  caches := .empty
  deadAccounts := []
  pulled := none
  assigning := none
  runners := fun _ => none
  hosted := fun _ => none
  lost := fun _ => false

def Worker.deps (w : Worker) : RunnerDeps where
  rules := w.caches.rules
  live := w.registry.get
  policy := w.caches.policy w.config.policy
  planHints := w.caches.planHints
  router := w.router
  retryPolicy := w.config.retryPolicy

/-- What a finished transport call leaves in the memory of the process. -/
def Worker.observe (w : Worker) (outcome : TransportOutcome) : Worker :=
  { w with
    registry := outcome.mark w.registry
    deadAccounts := outcome.reportsDead.toList ++ w.deadAccounts }

inductive HostAction
  | assignRead (assignment : Assignment) (now : Time)
  | assignWrite
  | assignConnect
  | assignFail
  | assignDone
  | pullRules (accountId : AccountId)
  | applyRules
  | renew (accountId : AccountId) (now : Time)
  | heartbeatFails (accountId : AccountId)
  | surfaceHalt (accountId : AccountId)
  | release (accountId : AccountId)
  | pause (accountId : AccountId)
  | resume (accountId : AccountId)
  | cancelJob (id : JobId) (src : JobStatus) (now : Time)

/-- The sources `_cancel_job` tries one after the other. -/
def cancellableByCommand : List JobStatus := [.ready, .retryWait, .leased]

structure HostEffect where
  db : Database
  worker : Worker
  events : List Event := []

namespace Worker

/-- `_release`. -/
def release (w : Worker) (accountId : AccountId) : Worker :=
  { w with
    hosted := Function.update w.hosted accountId none
    runners := Function.update w.runners accountId none
    router := Function.update w.router accountId false
    registry := w.registry.drop accountId
    caches := w.caches.release accountId
    sessions := Function.update w.sessions accountId none
    lost := Function.update w.lost accountId false }

def engaged (w : Worker) (accountId : AccountId) : Bool :=
  (w.hosted accountId).isSome ||
    w.assigning.any fun x => x.assignment.accountId = accountId

def setLost (w : Worker) (accountId : AccountId) : Worker :=
  { w with lost := Function.update w.lost accountId true }

def step (w : Worker) (workerId : WorkerId) (published : AccountId → List PublishedRule)
    (db : Database) : HostAction → Option HostEffect
  | .assignRead a now =>
    if w.assigning = none ∧ w.hosted a.accountId = none ∧ a.hasSession then
      some ⟨db, { w with
        assigning := some ⟨a, .acquiring ⟨now, db.accountLeases a.accountId⟩⟩ }, []⟩
    else none
  | .assignWrite =>
    match w.assigning with
    | some ⟨a, .acquiring read⟩ =>
      let (row, generation) :=
        acquireWrite (db.accountLeases a.accountId) workerId w.config.leaseTtl read
      some ⟨{ db with accountLeases := Function.update db.accountLeases a.accountId row },
        { w with assigning := generation.map fun g => ⟨a, .connecting g⟩ },
        [.lease a.accountId (.acquired workerId generation)]⟩
    | _ => none
  | .assignConnect =>
    match w.assigning with
    | some ⟨a, .connecting g⟩ =>
      some ⟨db, { w with
        sessions := Function.update w.sessions a.accountId (some a)
        registry := w.registry.register a.accountId g
        router := Function.update w.router a.accountId true
        assigning := some ⟨a, .connected g⟩ }, []⟩
    | _ => none
  | .assignFail =>
    match w.assigning with
    | some ⟨a, .connected _⟩ =>
      some ⟨db, { w with
        sessions := Function.update w.sessions a.accountId none, assigning := none }, []⟩
    | some _ => some ⟨db, { w with assigning := none }, []⟩
    | none => none
  | .assignDone =>
    match w.assigning with
    | some ⟨a, .connected g⟩ =>
      some ⟨db, { w with
        runners := Function.update w.runners a.accountId (some { generation := g })
        hosted := Function.update w.hosted a.accountId (some ⟨a, g⟩)
        assigning := none }, []⟩
    | _ => none
  | .pullRules accountId =>
    if w.engaged accountId then
      some ⟨db, { w with pulled := some (accountId, published accountId) }, []⟩
    else none
  | .applyRules =>
    w.pulled.map fun p => ⟨db, { w with
      caches := w.caches.refresh p.1 (rulesFromRows p.2 p.1 w.deadAccounts), pulled := none }, []⟩
  | .renew accountId now =>
    (w.hosted accountId).bind fun hosted =>
      if w.lost accountId then none
      else
        let (row, ok) := renewLease (db.accountLeases accountId) workerId hosted.generation
          (now + w.config.leaseTtl)
        some ⟨{ db with accountLeases := Function.update db.accountLeases accountId row },
          if ok then w else w.setLost accountId,
          [.lease accountId (.renewed workerId hosted.generation ok)]⟩
  | .heartbeatFails accountId =>
    if (w.hosted accountId).isSome then some ⟨db, w.setLost accountId, []⟩ else none
  | .surfaceHalt accountId =>
    (w.runners accountId).bind fun r =>
      if r.halted.isSome then some ⟨db, w.setLost accountId, []⟩ else none
  | .release accountId =>
    if (w.hosted accountId).isSome ∧ (w.runners accountId).all fun r => r.pc = .idle then
      some ⟨db, w.release accountId, []⟩
    else none
  | .pause accountId =>
    if (w.hosted accountId).isSome then
      some ⟨db, { w with registry := w.registry.markPaused accountId }, []⟩
    else none
  | .resume accountId =>
    if (w.hosted accountId).isSome then
      some ⟨db, { w with registry := w.registry.markResumed accountId }, []⟩
    else none
  | .cancelJob id src now =>
    if src ∈ cancellableByCommand then
      (db.transition id src .cancelled {} now).map fun db' => ⟨db', w, []⟩
    else none

inductive Stepped (w : Worker) (workerId : WorkerId)
    (published : AccountId → List PublishedRule) (db : Database) : HostAction → HostEffect → Prop
  | assignRead (a : Assignment) (now : Time) : w.assigning = none → w.hosted a.accountId = none →
      Stepped w workerId published db (.assignRead a now) ⟨db, { w with
        assigning := some ⟨a, .acquiring ⟨now, db.accountLeases a.accountId⟩⟩ }, []⟩
  | assignWrite (a : Assignment) (read : AcquireRead) (row : Option AccountLease)
      (generation : Option ℤ) : w.assigning = some ⟨a, .acquiring read⟩ →
      acquireWrite (db.accountLeases a.accountId) workerId w.config.leaseTtl read =
        (row, generation) →
      Stepped w workerId published db .assignWrite
        ⟨{ db with accountLeases := Function.update db.accountLeases a.accountId row },
          { w with assigning := generation.map fun g => ⟨a, .connecting g⟩ },
          [.lease a.accountId (.acquired workerId generation)]⟩
  | assignConnect (a : Assignment) (g : ℤ) : w.assigning = some ⟨a, .connecting g⟩ →
      Stepped w workerId published db .assignConnect ⟨db, { w with
        sessions := Function.update w.sessions a.accountId (some a)
        registry := w.registry.register a.accountId g
        router := Function.update w.router a.accountId true
        assigning := some ⟨a, .connected g⟩ }, []⟩
  | assignFail (x : Assigning) (sessions : AccountId → Option Assignment) :
      w.assigning = some x →
      Stepped w workerId published db .assignFail
        ⟨db, { w with sessions, assigning := none }, []⟩
  | assignDone (a : Assignment) (g : ℤ) : w.assigning = some ⟨a, .connected g⟩ →
      Stepped w workerId published db .assignDone ⟨db, { w with
        runners := Function.update w.runners a.accountId (some { generation := g })
        hosted := Function.update w.hosted a.accountId (some ⟨a, g⟩)
        assigning := none }, []⟩
  | pullRules (accountId : AccountId) : w.engaged accountId = true →
      Stepped w workerId published db (.pullRules accountId)
        ⟨db, { w with pulled := some (accountId, published accountId) }, []⟩
  | applyRules (accountId : AccountId) (rows : List PublishedRule) :
      w.pulled = some (accountId, rows) →
      Stepped w workerId published db .applyRules ⟨db, { w with
        caches := w.caches.refresh accountId (rulesFromRows rows accountId w.deadAccounts)
        pulled := none }, []⟩
  | renew (accountId : AccountId) (now : Time) (hosted : Hosted) (row : Option AccountLease)
      (ok : Bool) : w.hosted accountId = some hosted → w.lost accountId = false →
      renewLease (db.accountLeases accountId) workerId hosted.generation
        (now + w.config.leaseTtl) = (row, ok) →
      Stepped w workerId published db (.renew accountId now)
        ⟨{ db with accountLeases := Function.update db.accountLeases accountId row },
          if ok then w else w.setLost accountId,
          [.lease accountId (.renewed workerId hosted.generation ok)]⟩
  | heartbeatFails (accountId : AccountId) :
      Stepped w workerId published db (.heartbeatFails accountId) ⟨db, w.setLost accountId, []⟩
  | surfaceHalt (accountId : AccountId) :
      Stepped w workerId published db (.surfaceHalt accountId) ⟨db, w.setLost accountId, []⟩
  | release (accountId : AccountId) : (w.hosted accountId).isSome →
      (∀ r, w.runners accountId = some r → r.pc = .idle) →
      Stepped w workerId published db (.release accountId) ⟨db, w.release accountId, []⟩
  | pause (accountId : AccountId) : (w.hosted accountId).isSome →
      Stepped w workerId published db (.pause accountId)
        ⟨db, { w with registry := w.registry.markPaused accountId }, []⟩
  | resume (accountId : AccountId) : (w.hosted accountId).isSome →
      Stepped w workerId published db (.resume accountId)
        ⟨db, { w with registry := w.registry.markResumed accountId }, []⟩
  | cancelJob (id : JobId) (src : JobStatus) (now : Time) (db' : Database) :
      src ∈ cancellableByCommand → db.transition id src .cancelled {} now = some db' →
      Stepped w workerId published db (.cancelJob id src now) ⟨db', w, []⟩

variable {w : Worker} {workerId : WorkerId} {published : AccountId → List PublishedRule}
  {db : Database} {x : HostAction} {e : HostEffect}

theorem stepped_of_step (he : w.step workerId published db x = some e) :
    w.Stepped workerId published db x e := by
  cases x with
  | assignRead a now =>
    simp only [step] at he
    split at he <;> cases he
    rename_i h
    exact .assignRead a now h.1 h.2.1
  | assignWrite =>
    simp only [step] at he
    split at he <;> cases he
    exact .assignWrite _ _ _ _ ‹_› rfl
  | assignConnect =>
    simp only [step] at he
    split at he <;> cases he
    exact .assignConnect _ _ ‹_›
  | assignFail =>
    simp only [step] at he
    split at he <;> cases he
    · exact .assignFail _ _ ‹_›
    · exact .assignFail _ _ ‹_›
  | assignDone =>
    simp only [step] at he
    split at he <;> cases he
    exact .assignDone _ _ ‹_›
  | pullRules accountId =>
    simp only [step] at he
    split at he <;> cases he
    exact .pullRules accountId ‹_›
  | applyRules =>
    obtain ⟨⟨accountId, rows⟩, hpulled, rfl⟩ := Option.map_eq_some_iff.mp he
    exact .applyRules accountId rows hpulled
  | renew accountId now =>
    obtain ⟨hosted, hhosted, he⟩ := Option.bind_eq_some_iff.mp he
    split at he <;> cases he
    rename_i hlost
    exact .renew accountId now hosted _ _ hhosted (by simpa using hlost) rfl
  | heartbeatFails accountId =>
    simp only [step] at he
    split at he <;> cases he
    exact .heartbeatFails accountId
  | surfaceHalt accountId =>
    obtain ⟨r, _, he⟩ := Option.bind_eq_some_iff.mp he
    split at he <;> cases he
    exact .surfaceHalt accountId
  | release accountId =>
    simp only [step] at he
    split at he <;> cases he
    rename_i h
    refine .release accountId h.1 fun r hr => ?_
    simpa [hr] using h.2
  | pause accountId =>
    simp only [step] at he
    split at he <;> cases he
    exact .pause accountId ‹_›
  | resume accountId =>
    simp only [step] at he
    split at he <;> cases he
    exact .resume accountId ‹_›
  | cancelJob id src now =>
    simp only [step] at he
    split at he
    · obtain ⟨db', hdb, rfl⟩ := Option.map_eq_some_iff.mp he
      exact .cancelJob id src now db' ‹_› hdb
    · cases he

end Worker

end TgPlatform
