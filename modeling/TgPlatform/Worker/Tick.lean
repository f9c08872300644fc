import TgPlatform.Lib.Routine
import TgPlatform.Worker.Commands

/-! # One round of the worker loop

A tick reconciles the hosted accounts with the control plane's assignments,
applies the pulled commands, pulls the rules again where they are stale, and
ends with a round of every runner. Each request to the control plane may fail,
and each place that makes one catches some of the failures.
-/

namespace TgPlatform

/-! ## The control client -/

/-- The body of a response; other shapes than the expected one are malformed. -/
inductive Body (α : Type)
  | malformed (error : String)
  | envelope (code : Option ℤ) (data : α)

inductive Reply (α : Type)
  | refused
  | timedOut
  | response (status : ℕ) (body : Body α)

/-- The exceptions of a request, and the type of those that are not `ControlApiError`. -/
inductive ControlFault
  | controlApi
  | other (exception : String)
  deriving DecidableEq, Repr

namespace Reply

variable {α : Type}

/-- `_get` and `_post` with `_unwrap`. -/
def unwrap : Reply α → Except ControlFault α
  | .refused => .error (.other "ConnectError")
  | .timedOut => .error (.other "ReadTimeout")
  | .response status body =>
    if 400 ≤ status then .error .controlApi
    else
      match body with
      | .malformed error => .error (.other error)
      | .envelope code data =>
        if code ∈ [none, some 0, some 200] then .ok data else .error .controlApi

def data (r : Reply α) : Option α := r.unwrap.toOption

/-- The request raises something else than `ControlApiError`. -/
def escapes (r : Reply α) : Bool :=
  match r.unwrap with
  | .error (.other _) => true
  | _ => false

variable {r : Reply α}

theorem escapes_iff : r.escapes = true ↔ ∃ e, r.unwrap = .error (.other e) := by
  unfold escapes
  split
  · simp [*]
  · rename_i h
    simpa using h

end Reply

/-! ## The state of the loop -/

/-- The calls of `pull_rules`: while assigning, for a command, and for stale rules. -/
inductive RulesCall
  | assign (accountId : AccountId)
  | reload (commandId : ℕ)
  | periodic (accountId : AccountId)
  deriving DecidableEq, Repr

inductive ControlCall
  | listAccounts
  | fetchSession (accountId : AccountId)
  | pullRules (call : RulesCall)
  | pullCommands (accountId : AccountId)
  | ackCommand (id : ℕ)
  deriving DecidableEq, Repr

inductive TickEvent
  | call (c : ControlCall)
  | assigning (accountId : AccountId)
  | refreshed (accountId : AccountId) (rows : List PublishedRule)
  | applied (accountId : AccountId) (id : ℕ) (outcome : CommandOutcome)
  | round (accounts : List AccountId)
  deriving DecidableEq, Repr

/-- Everything that the surroundings answer in a tick. -/
structure TickEnv where
  workerId : WorkerId
  listAccounts : Reply (List Assignment)
  /-- The bundle itself only goes to the connector. -/
  fetchSession : AccountId → Reply Unit
  connects : AccountId → Bool
  pullRules : RulesCall → Reply (List PublishedRule)
  pullCommands : AccountId → Reply (List PendingCommand)
  ackCommand : ℕ → Reply Unit
  /-- What the other awaits of a command answer. -/
  answers : ℕ → CommandAnswers
  leaseRead : AccountId → AcquireRead
  /-- The monotonic clock after a pull of rules. -/
  refreshedAt : RulesCall → Time
  /-- The monotonic clock when the age of the rules is checked. -/
  now : Time
  /-- What a round makes of a runner. -/
  runOnce : AccountId → Runner → Runner

/-- The memory of `WorkerHostMain`; `order` is the order of the keys of `_hosted`. -/
structure HostMain where
  worker : Worker
  db : Database
  order : List AccountId
  seen : List ℕ
  rulesRefreshedAt : Time
  mem_order : ∀ a, a ∈ order ↔ (worker.hosted a).isSome
  runs : ∀ a, (worker.hosted a).isSome → (worker.runners a).isSome
  keyed : ∀ a h, worker.hosted a = some h → h.assignment.accountId = a

/-- A command changes no hosting, or it has released its account. -/
theorem Worker.applyCommand_worker (wk : Worker) (db : Database) (accountId : AccountId)
    (hosted : Hosted)
    (cmd : PendingCommand) (answers : CommandAnswers) :
    (cmd.type = .stopAccount ∧
        (wk.applyCommand db accountId hosted cmd answers).2.1 = wk.release accountId) ∨
      cmd.type ≠ .stopAccount ∧
        (wk.applyCommand db accountId hosted cmd answers).2.1.hosted = wk.hosted ∧
        (wk.applyCommand db accountId hosted cmd answers).2.1.runners = wk.runners := by
  unfold applyCommand refreshRules
  cases cmd.type with
  | stopAccount => exact .inl ⟨rfl, rfl⟩
  | reloadConfig =>
    refine .inr ⟨nofun, ?_⟩
    cases answers.raised with
    | some e => exact ⟨rfl, rfl⟩
    | none => cases answers.rows <;> exact ⟨rfl, rfl⟩
  | syncChats =>
    refine .inr ⟨nofun, ?_⟩
    cases answers.raised <;> exact ⟨rfl, rfl⟩
  | cancelJob =>
    refine .inr ⟨nofun, ?_⟩
    cases answers.raised with
    | some e => exact ⟨rfl, rfl⟩
    | none => dsimp only; split <;> exact ⟨rfl, rfl⟩
  | _ => exact .inr ⟨nofun, rfl, rfl⟩

namespace HostMain

def start (config : WorkerConfig) : HostMain where
  worker := .start config
  db := .empty
  order := []
  seen := []
  rulesRefreshedAt := 0
  mem_order := by simp [Worker.start]
  runs := by simp [Worker.start]
  keyed := by simp [Worker.start]

variable (s : HostMain)

/-- `_hosted.items()`. -/
def items : List (AccountId × Hosted) := s.order.filterMap fun a => (s.worker.hosted a).map (a, ·)

def withWorker (wk : Worker) (hhosted : wk.hosted = s.worker.hosted)
    (hruns : ∀ a, (s.worker.runners a).isSome → (wk.runners a).isSome) : HostMain :=
  { s with
    worker := wk
    mem_order := by rw [hhosted]; exact s.mem_order
    runs := fun a h => hruns a (s.runs a (hhosted ▸ h))
    keyed := by rw [hhosted]; exact s.keyed }

/-- `_release`. -/
def release (accountId : AccountId) : HostMain :=
  { s with
    worker := s.worker.release accountId
    order := s.order.filter fun a => a ≠ accountId
    mem_order := by
      intro a
      by_cases h : a = accountId <;> simp [Worker.release, h, s.mem_order]
    runs := by
      intro a
      by_cases h : a = accountId
      · simp [Worker.release, h]
      · simpa [Worker.release, h] using s.runs a
    keyed := by
      intro a x hx
      by_cases h : a = accountId
      · simp [Worker.release, h] at hx
      · exact s.keyed a x (by simpa [Worker.release, h] using hx) }

def clearLost : HostMain := s.withWorker { s.worker with lost := fun _ => false } rfl fun _ h => h

/-- The event handlers, the registry and the router have the account. -/
def connect (a : Assignment) (generation : ℤ) : HostMain :=
  s.withWorker { s.worker with
    sessions := Function.update s.worker.sessions a.accountId (some a)
    registry := s.worker.registry.register a.accountId generation
    router := Function.update s.worker.router a.accountId true } rfl fun _ h => h

def closeSession (a : Assignment) : HostMain :=
  s.withWorker { s.worker with sessions := Function.update s.worker.sessions a.accountId none } rfl
    fun _ h => h

def host (a : Assignment) (generation : ℤ) : HostMain :=
  { s with
    worker := { s.worker with
      runners := Function.update s.worker.runners a.accountId (some { generation })
      hosted := Function.update s.worker.hosted a.accountId (some ⟨a, generation⟩) }
    order := if a.accountId ∈ s.order then s.order else s.order ++ [a.accountId]
    mem_order := by
      intro b
      by_cases hb : b = a.accountId
      · subst hb
        split <;> simp [*]
      · split <;> simp [hb, s.mem_order]
    runs := by
      intro b
      by_cases hb : b = a.accountId
      · simp [hb]
      · simpa [hb] using s.runs b
    keyed := by
      intro b x hx
      by_cases hb : b = a.accountId
      · subst hb
        have hx' : (⟨a, generation⟩ : Hosted) = x := by simpa using hx
        rw [← hx']
      · exact s.keyed b x (by simpa [hb] using hx) }

/-- `acquire` in a session of its own. -/
def acquire (env : TickEnv) (accountId : AccountId) : Option ℤ × HostMain :=
  let (row, generation) := acquireWrite (s.db.accountLeases accountId) env.workerId
    s.worker.config.leaseTtl (env.leaseRead accountId)
  (generation, { s with
    db := { s.db with accountLeases := Function.update s.db.accountLeases accountId row } })

/-- `_refresh_rules` once the rows are there. -/
def refreshRules (a : Assignment) (rows : List PublishedRule) (now : Time) : HostMain :=
  { s.withWorker (s.worker.refreshRules ⟨a, 0⟩ (some rows)) rfl fun _ h => h with
    rulesRefreshedAt := now }

def see (id : ℕ) : HostMain := { s with seen := id :: s.seen }

/-- `_apply_command`; a reload that has pulled its rules restarts their age. -/
def applyCommand (accountId : AccountId) (hosted : Hosted) (cmd : PendingCommand)
    (answers : CommandAnswers)
    (refreshedAt : Option Time) : CommandOutcome × HostMain :=
  let r := s.worker.applyCommand s.db accountId hosted cmd answers
  (r.2.2, {
    worker := r.2.1
    db := r.1
    order := s.order.filter fun a => (r.2.1.hosted a).isSome
    seen := s.seen
    rulesRefreshedAt := refreshedAt.getD s.rulesRefreshedAt
    mem_order := by
      intro a
      rw [List.mem_filter, s.mem_order]
      rcases s.worker.applyCommand_worker s.db accountId hosted cmd answers with ⟨-, h⟩ | ⟨-, h, -⟩
      · by_cases ha : a = accountId <;> simp [r, h, Worker.release, ha]
      · simp [r, h]
    runs := by
      intro a
      rcases s.worker.applyCommand_worker s.db accountId hosted cmd answers with ⟨-, h⟩ | ⟨-, h, h'⟩
      · by_cases ha : a = accountId
        · simp [r, h, Worker.release, ha]
        · simpa [r, h, Worker.release, ha] using s.runs a
      · simpa [r, h, h'] using s.runs a
    keyed := by
      intro a x hx
      rcases s.worker.applyCommand_worker s.db accountId hosted cmd answers with ⟨-, h⟩ | ⟨-, h, -⟩
      · by_cases ha : a = accountId
        · simp [r, h, Worker.release, ha] at hx
        · exact s.keyed a x (by simpa [r, h, Worker.release, ha] using hx)
      · exact s.keyed a x (by simpa [r, h] using hx) })

def running : List AccountId :=
  s.order.filter fun a => (s.worker.runners a).any fun r => r.halted.isNone

/-- `WorkerHost.run_once`, and what is left of it in the runners. -/
def runOnce (env : TickEnv) : HostMain :=
  s.withWorker { s.worker with
    runners := fun a => (s.worker.runners a).map fun r =>
      if r.halted.isSome then r else env.runOnce a r } rfl
    fun a h => by simpa using h

/-- The halted runners are flagged for the next tick. -/
def surfaceHalts : HostMain :=
  s.withWorker { s.worker with
    lost := fun a => s.worker.lost a || (s.worker.runners a).any fun r =>
      r.halted.isSome } rfl fun _ h => h

end HostMain

/-! ## The tick -/

def rulesRefreshS : ℤ := 60000000

abbrev Tick : Type := Routine HostMain TickEvent String Unit

namespace TickEnv

open Routine

variable (env : TickEnv)

/-- `_refresh_rules`. -/
def refreshRules (c : RulesCall) (a : Assignment) : Tick := do
  emit (.call (.pullRules c))
  match (env.pullRules c).unwrap with
  | .error .controlApi => pure ()
  | .error (.other e) => raise e
  | .ok rows => do
    modify fun s => s.refreshRules a rows (env.refreshedAt c)
    emit (.refreshed a.accountId rows)

/-- `_assign` once the session is connected. -/
def serve (a : Assignment) (generation : ℤ) : Tick := do
  modify fun s => s.connect a generation
  onRaise (env.refreshRules (.assign a.accountId) a) fun s => s.closeSession a
  modify fun s => s.host a generation

/-- `_assign`. -/
def assign (a : Assignment) : Tick := do
  emit (.assigning a.accountId)
  if a.hasSession then
    match ← exec fun s => s.acquire env a.accountId with
    | none => pure ()
    | some generation => do
      emit (.call (.fetchSession a.accountId))
      if (env.fetchSession a.accountId).data.isSome && env.connects a.accountId then
        env.serve a generation
      else pure ()
  else pure ()

/-- The assignments by account, unless the control plane fails. -/
def desired : Option (Dict AccountId Assignment) :=
  env.listAccounts.data.map fun assignments =>
    assignments.foldl (fun d a => d.set a.accountId a) .empty

/-- `reconcile` as far as it depends on the assignments. -/
def reassign : Tick := do
  emit (.call .listAccounts)
  match env.desired with
  | none => pure ()
  | some desired => do
    let unassigned ← read fun s => s.order.filter fun a => (desired.get? a).isNone
    each (fun a => modify fun s => s.release a) unassigned
    each (fun a => do
      let hosted ← read fun s => (s.worker.hosted a.accountId).isSome
      if hosted then pure () else env.assign a) desired.values

/-- `reconcile`. -/
def reconcile : Tick := do
  env.reassign
  let lost ← read fun s => s.order.filter s.worker.lost
  each (fun a => modify fun s => s.release a) lost
  modify HostMain.clearLost

def answersTo (cmd : PendingCommand) : CommandAnswers :=
  match cmd.type with
  | .reloadConfig =>
    match (env.pullRules (.reload cmd.id)).unwrap with
    | .ok rows => { rows := some rows }
    | .error .controlApi => {}
    | .error (.other e) => { raised := some e }
  | _ => env.answers cmd.id

def reloadedAt (cmd : PendingCommand) : Option Time :=
  if cmd.type = .reloadConfig ∧ (env.pullRules (.reload cmd.id)).data.isSome then
    some (env.refreshedAt (.reload cmd.id))
  else none

/-- The loop body of `poll_commands` for one command. -/
def command (accountId : AccountId) (hosted : Hosted) (cmd : PendingCommand) : Tick := do
  let seen ← read fun s => decide (cmd.id ∈ s.seen)
  if seen then pure ()
  else do
    modify fun s => s.see cmd.id
    let outcome ← exec fun s =>
      s.applyCommand accountId hosted cmd (env.answersTo cmd) (env.reloadedAt cmd)
    emit (.applied accountId cmd.id outcome)
    emit (.call (.ackCommand cmd.id))
    match (env.ackCommand cmd.id).unwrap with
    | .error (.other e) => raise e
    | _ => pure ()

/-- The loop body of `poll_commands` for one account. -/
def poll (accountId : AccountId) (hosted : Hosted) : Tick := do
  emit (.call (.pullCommands accountId))
  match (env.pullCommands accountId).unwrap with
  | .error .controlApi => pure ()
  | .error (.other e) => raise e
  | .ok cmds => each (env.command accountId hosted) cmds

/-- `poll_commands`. -/
def pollCommands : Tick := do
  let items ← read HostMain.items
  each (fun x => env.poll x.1 x.2) items

def refreshStale : Tick := do
  let stale ← read fun s => decide (rulesRefreshS < env.now - s.rulesRefreshedAt)
  let items ← read HostMain.items
  if stale then
    each (fun x => env.refreshRules (.periodic x.2.assignment.accountId) x.2.assignment) items
  else pure ()

def sendRound : Tick := do
  let accounts ← read HostMain.running
  emit (.round accounts)
  modify fun s => s.runOnce env
  modify HostMain.surfaceHalts

/-- `tick`. -/
def tick : Tick := do
  env.reconcile
  env.pollCommands
  env.refreshStale
  env.sendRound

end TickEnv

end TgPlatform
