import TgPlatform.Lib.Loop
import TgPlatform.Worker.Runner
import Mathlib.Data.Set.Basic

/-! # The sends of one round

A round of a runner claims, gates, executes and records one job after the
other until there is nothing to claim. Here no one else interferes and the
clock stands still.
-/

namespace TgPlatform

/-- What the surroundings answer to one `send_next`. -/
structure SendAnswers where
  deps : RunnerDeps
  /-- The database's answers to the scan and to the mapping lookup. -/
  order : List JobId
  maps : List RowId
  draw : ℤ
  outcome : TransportOutcome
  expungeRaises : Bool

/-- `claim_next` after its scan. -/
inductive NextClaim
  | nothing
  | raised
  | claimed (id : JobId) (db : Database)

def claimFirst (db : Database) (generation : ℤ) (now : Time) : List (JobId × DeliveryJob) → NextClaim
  | [] => .nothing
  | (id, seen) :: rest =>
    if seen.due now then
      match db.tryClaim id seen generation now now with
      | .lost => claimFirst db generation now rest
      | .raised => .raised
      | .claimed db' => .claimed id db'
    else claimFirst db generation now rest

inductive NextHeld
  | nothing
  | raised
  | held (db : Database) (h : Holding)

def claimHeld (accountId : AccountId) (now : Time) (x : SendAnswers) (db : Database) (r : Runner) :
    NextHeld :=
  match claimFirst db r.generation now (db.deliveryJobs.fetch x.order) with
  | .nothing => .nothing
  | .raised => .raised
  | .claimed id db =>
    match (db.deliveryJobs.get? id).bind (hold x.deps accountId id) with
    | none => .raised
    | some h => .held db h

/-- How `send_next` ends: with nothing to send, with an exception, or with the id of a job. -/
inductive SendOutcome
  | nothing
  | raised
  | returned (db : Database) (r : Runner)

/-- `execute`. -/
def executeHeld (now : Time) (x : SendAnswers) (r : Runner) (h : Holding) (targetIds : List ℤ) :
    DeliveryResult :=
  match dispatch h.plan.kind (h.decide r.generation x.deps.policy now) targetIds with
  | .finished result => result
  | .call request =>
    request.result targetIds
      (if x.deps.router h.plan.accountId then x.outcome else noLiveSession h.plan.accountId)

/-- What is done with a claimed job; `none` for an answer the database cannot give. -/
def sendHeld (now : Time) (x : SendAnswers) (db : Database) (r : Runner) (h : Holding) :
    Option SendOutcome :=
  let decision := h.decide r.generation x.deps.policy now
  let gated := r.settleGate x.deps db h decision now now x.draw
  if decision ≠ .allow then some (.returned gated.db gated.runner)
  else if h.plan.kind ≠ .send ∧ ¬ gated.db.messageMaps.Answers
      (Database.targetPart h.job.routeId h.job.message) MessageMap.outputPartIndex x.maps then none
  else
    let targetIds := if h.plan.kind = .send then [] else gated.db.targetMessageIds x.maps
    let result := executeHeld now x gated.runner h targetIds
    let recorded := gated.runner.recordOutcome x.deps gated.db h result now now x.draw x.expungeRaises
    match gated.db.recordResult h.id h.job h.attemptNo
        (resultFields x.deps.retryPolicy h.attemptNo now x.draw result) now x.expungeRaises with
    | .raised => some .raised
    | _ => some (.returned recorded.db recorded.runner)

/-- `send_next`. -/
def sendNext (accountId : AccountId) (now : Time) (x : SendAnswers) (db : Database) (r : Runner) :
    Option SendOutcome :=
  let db := db.reclaimStaleSending accountId now
  if db.ReadyOrder accountId x.order then
    match claimHeld accountId now x db r with
    | .nothing => some .nothing
    | .raised => some .raised
    | .held db h => sendHeld now x db r h
  else none

/-- What the loop of `run_once` works on. -/
structure SendLoop where
  db : Database
  runner : Runner
  counted : db.Counted

namespace SendLoop

variable (settings : Set RunnerDeps) (policy : RetryPolicy) (accountId : AccountId) (now : Time)

/-- One turn of the loop, with one of the live states and switches. -/
def Turns (s s' : SendLoop) : Prop :=
  s.runner.halted = none ∧ ∃ x : SendAnswers, x.deps ∈ settings ∧ x.deps.retryPolicy = policy ∧
    sendNext accountId now x s.db s.runner = some (.returned s'.db s'.runner)

/-- A turn that stops a job for its rate when its attempts are used up. -/
def RateBlocksExhausted (s : SendLoop) : Prop :=
  s.runner.halted = none ∧ ∃ (x : SendAnswers) (db : Database) (h : Holding),
    x.deps ∈ settings ∧ x.deps.retryPolicy = policy ∧
    (s.db.reclaimStaleSending accountId now).ReadyOrder accountId x.order ∧
    claimHeld accountId now x (s.db.reclaimStaleSending accountId now) s.runner = .held db h ∧
    h.decide s.runner.generation x.deps.policy now = .blockedRate ∧ policy.maxAttempts ≤ h.attemptNo

end SendLoop

/-! ## A turn is a run of the runner -/

/-- One step of a runner, with no one else in between. -/
def Runner.Moves (d : RunnerDeps) (workerId : WorkerId) (accountId : AccountId)
    (p q : Database × Runner) : Prop :=
  ∃ a e, p.2.step d workerId accountId p.1 a = some e ∧ q = (e.db, e.runner)

section

open Relation

variable {x : SendAnswers} {workerId : WorkerId} {accountId : AccountId} {now : Time}
  {db db' : Database} {r r' : Runner} {h : Holding} {id : JobId}

theorem Runner.moves_of_step {d : RunnerDeps} {a : RunnerAction} {e : RunnerEffect}
    (he : r.step d workerId accountId db a = some e) :
    ReflTransGen (Runner.Moves d workerId accountId) (db, r) (e.db, e.runner) :=
  .single ⟨a, e, he, rfl⟩

theorem claimFirst_runs (d : RunnerDeps) {candidates : List (JobId × DeliveryJob)}
    (hclaim : claimFirst db r.generation now candidates = .claimed id db') :
    ReflTransGen (Runner.Moves d workerId accountId) (db, { r with pc := .claiming now candidates })
      (db', { r with pc := .claimed id }) := by
  induction candidates with
  | nil => cases hclaim
  | cons c rest ih =>
    obtain ⟨i, seen⟩ := c
    unfold claimFirst at hclaim
    have hstep : ∀ e, ({ r with pc := .claiming now ((i, seen) :: rest) } : Runner).step d workerId
        accountId db (.tryNext now) = some e → e = ⟨db, { r with pc := .claiming now rest }, []⟩ →
          claimFirst db r.generation now rest = .claimed id db' →
          ReflTransGen (Runner.Moves d workerId accountId)
            (db, { r with pc := .claiming now ((i, seen) :: rest) })
              (db', { r with pc := .claimed id }) := by
      rintro e he rfl hrest
      exact (Runner.moves_of_step he).trans (ih hrest)
    cases hdue : seen.due now with
    | false =>
      rw [hdue] at hclaim
      exact hstep _ (by simp [Runner.step, hdue]) rfl hclaim
    | true =>
      rw [hdue, if_pos rfl] at hclaim
      cases htry : db.tryClaim i seen r.generation now now with
      | lost =>
        rw [htry] at hclaim
        exact hstep _ (by simp [Runner.step, hdue, htry]) rfl hclaim
      | raised =>
        rw [htry] at hclaim
        cases hclaim
      | claimed db₁ =>
        rw [htry] at hclaim
        cases hclaim
        have he : ({ r with pc := .claiming now ((id, seen) :: rest) } : Runner).step d workerId
            accountId db (.tryNext now) = some ⟨db', { r with pc := .claimed id }, []⟩ := by
          simp [Runner.step, hdue, htry]
        exact Runner.moves_of_step he

theorem executeHeld_runs (targetIds : List ℤ) :
    let recorded := r.recordOutcome x.deps db h (executeHeld now x r h targetIds) now now x.draw
      x.expungeRaises
    ReflTransGen (Runner.Moves x.deps workerId accountId)
      (db, { r with pc := .executing h targetIds }) (recorded.db, recorded.runner) := by
  intro recorded
  have hrecord : ∀ called, ReflTransGen (Runner.Moves x.deps workerId accountId)
      (db, { r with pc := .recording h called (executeHeld now x r h targetIds) })
      (recorded.db, recorded.runner) := by
    intro called
    have he : ({ r with pc := .recording h called (executeHeld now x r h targetIds) } : Runner).step
        x.deps workerId accountId db (.record now now x.draw x.expungeRaises) = some recorded := by
      simp only [Runner.step, Option.some.injEq]
      rfl
    exact Runner.moves_of_step he
  have hexecute : ({ r with pc := .executing h targetIds } : Runner).step x.deps workerId accountId db
      (.execute now) = some (r.startCall x.deps workerId accountId db h targetIds now) := rfl
  refine (Runner.moves_of_step hexecute).trans ?_
  cases hdispatch : dispatch h.plan.kind (h.decide r.generation x.deps.policy now) targetIds with
  | finished result =>
    have hresult : executeHeld now x r h targetIds = result := by
      rw [executeHeld, hdispatch]
    rw [hresult] at hrecord
    rw [Runner.startCall, hdispatch]
    exact hrecord none
  | call request =>
    cases hrouter : x.deps.router h.plan.accountId with
    | false =>
      have hresult : executeHeld now x r h targetIds =
          request.result targetIds (noLiveSession h.plan.accountId) := by
        rw [executeHeld, hdispatch]
        simp [hrouter]
      rw [hresult] at hrecord
      simp only [Runner.startCall, hdispatch, hrouter]
      exact hrecord none
    | true =>
      have hresult : executeHeld now x r h targetIds = request.result targetIds x.outcome := by
        rw [executeHeld, hdispatch]
        simp [hrouter]
      rw [hresult] at hrecord
      simp only [Runner.startCall, hdispatch, hrouter]
      have hfinish : ({ r with pc := .calling h targetIds request } : Runner).step x.deps workerId
        accountId db
          (.finish x.outcome) = some ⟨db, { r with
            pc := .recording h (some request) (request.result targetIds x.outcome) },
            [.returned (h.call workerId accountId r.generation request)
              (request.result targetIds x.outcome)]⟩ := rfl
      exact (Runner.moves_of_step hfinish).trans (hrecord (some request))

theorem sendHeld_runs (hreturned : sendHeld now x db r h = some (.returned db' r')) :
    ReflTransGen (Runner.Moves x.deps workerId accountId)
      (db, { r with pc := .gated h (h.decide r.generation x.deps.policy now) }) (db', r') := by
  have hsettle : ∀ decision, ({ r with pc := .gated h decision } : Runner).step x.deps workerId accountId
      db (.settle now now x.draw) = some (r.settleGate x.deps db h decision now now x.draw) := by
    intro decision
    cases decision <;> rfl
  unfold sendHeld at hreturned
  dsimp only at hreturned
  split at hreturned
  · cases hreturned
    exact Runner.moves_of_step (hsettle _)
  · rename_i hallow
    rw [not_not] at hallow
    rw [hallow] at hreturned ⊢
    refine (Runner.moves_of_step (hsettle .allow)).trans ?_
    split at hreturned
    · cases hreturned
    · rename_i hanswers
      split at hreturned
      · cases hreturned
      · cases hreturned
        let gated := r.settleGate x.deps db h .allow now now x.draw
        have hlookup : gated.runner.step x.deps workerId accountId gated.db (.lookup x.maps) =
            some ⟨gated.db, { gated.runner with
              pc := .executing h
                (if h.plan.kind = .send then [] else gated.db.targetMessageIds x.maps) }, []⟩ := by
          have hpc : gated.runner.pc = .admitted h := rfl
          by_cases hsend : h.plan.kind = .send
          · simp [Runner.step, hpc, hsend]
          · have hmaps : gated.db.messageMaps.Answers (Database.targetPart h.job.routeId h.job.message)
                MessageMap.outputPartIndex x.maps := not_not.mp fun hmiss => hanswers ⟨hsend, hmiss⟩
            simp [Runner.step, hpc, hsend, hmaps]
        exact (Runner.moves_of_step hlookup).trans (executeHeld_runs _)

/-- A turn of the loop is a run of the runner's steps, from the poll to the recorded result. -/
theorem sendNext_runs (hidle : r.pc = .idle) (hrunning : r.halted = none)
    (hreturned : sendNext accountId now x db r = some (.returned db' r')) :
    ReflTransGen (Runner.Moves x.deps workerId accountId) (db, r) (db', r') := by
  have hreclaim : r.step x.deps workerId accountId db (.reclaim now) =
      some ⟨db.reclaimStaleSending accountId now, { r with pc := .selecting }, []⟩ := by
    simp [Runner.step, hidle, hrunning]
  refine (Runner.moves_of_step hreclaim).trans ?_
  unfold sendNext at hreturned
  dsimp only at hreturned
  generalize db.reclaimStaleSending accountId now = db at hreturned ⊢
  split at hreturned
  · rename_i horder
    have hselect : ({ r with pc := .selecting } : Runner).step x.deps workerId accountId db
        (.select x.order now) =
          some ⟨db, { r with pc := .claiming now (db.deliveryJobs.fetch x.order) }, []⟩ := by
      simp [Runner.step, horder]
    refine (Runner.moves_of_step hselect).trans ?_
    unfold claimHeld at hreturned
    cases hclaim : claimFirst db r.generation now (db.deliveryJobs.fetch x.order) with
    | nothing =>
      rw [hclaim] at hreturned
      cases hreturned
    | raised =>
      rw [hclaim] at hreturned
      cases hreturned
    | claimed id db₁ =>
      rw [hclaim] at hreturned
      refine (claimFirst_runs x.deps hclaim).trans ?_
      dsimp only at hreturned
      cases hjob : db₁.deliveryJobs.get? id with
      | none =>
        rw [hjob] at hreturned
        cases hreturned
      | some job =>
        rw [hjob, Option.bind_some] at hreturned
        cases hhold : hold x.deps accountId id job with
        | none =>
          rw [hhold] at hreturned
          cases hreturned
        | some h =>
          rw [hhold] at hreturned
          have hgate : ({ r with pc := .claimed id } : Runner).step x.deps workerId accountId db₁
              (.gate now) = some ⟨db₁, { r with
                pc := .gated h (h.decide r.generation x.deps.policy now) }, []⟩ := by
            simp [Runner.step, hjob, hhold]
          exact (Runner.moves_of_step hgate).trans (sendHeld_runs hreturned)
  · cases hreturned

end

end TgPlatform
