import TgPlatform.Pipeline.System

/-! # Runtime commands

The platform issues commands to the worker that hosts an account. A worker
polls the pending ones, applies each id at most once and acknowledges it; the
platform's row stays pending until an acknowledgement arrives.
-/

namespace TgPlatform

inductive CommandType
  | startAccount | stopAccount | pauseAccount | resumeAccount | reloadConfig | syncChats | cancelJob
  | other (name : String)
  deriving DecidableEq, Repr

inductive CommandStatus | pending | acknowledged | done | rejected
  deriving DecidableEq, Repr

/-- `TgRuntimeCommand`; its id is the position in the table. -/
structure CommandRow where
  accountId : AccountId
  type : CommandType
  /-- The `job_id` of the payload. -/
  jobId : Option JobId := none
  expectedGeneration : Option ℤ := none
  dedupKey : String
  deadline : Option Time
  status : CommandStatus := .pending
  result : Option String := none
  deriving DecidableEq, Repr

structure PendingCommand where
  id : ℕ
  type : CommandType
  jobId : Option JobId
  expectedGeneration : Option ℤ
  deriving DecidableEq, Repr

def CommandRow.pending (row : CommandRow) (id : ℕ) : PendingCommand :=
  { id, type := row.type, jobId := row.jobId, expectedGeneration := row.expectedGeneration }

def CommandRow.alive (row : CommandRow) (now : Time) : Bool := row.deadline.all (now < ·)

/-- The body of an `issue` request. -/
structure CreateCommand where
  accountId : AccountId
  type : CommandType
  jobId : Option JobId := none
  expectedGeneration : Option ℤ := none
  dedupKey : Option String := none
  deriving DecidableEq, Repr

/-- Thirty minutes, in microseconds. -/
def commandDeadline : ℤ := 1800000000

abbrev CommandTable := Table CommandRow

namespace CommandTable

/-- `issue`: a dedup key that is known already replays its command. -/
def issue (commands : CommandTable) (obj : CreateCommand) (uuid : String) (now : Time) :
    Option CommandTable :=
  let key := (obj.dedupKey.filter (· ≠ "")).getD uuid
  if commands.any fun c => c.dedupKey = key then
    if (obj.dedupKey.filter (· ≠ "")).isSome then some commands else none
  else some (Table.insert commands {
    accountId := obj.accountId, type := obj.type, jobId := obj.jobId
    expectedGeneration := obj.expectedGeneration, dedupKey := key
    deadline := some (now + commandDeadline) })

def pendingOf (accountId : AccountId) (row : CommandRow) : Bool :=
  row.accountId = accountId && row.status = .pending

/-- `get_pending`: the rows come in the order of the query's answer. -/
def getPending (commands : CommandTable) (order : List ℕ) (now : Time) : List PendingCommand :=
  ((commands.fetch order).filter fun c => c.2.alive now).map fun c => c.2.pending c.1

/-- `ack` for an id that exists. -/
def ack (commands : CommandTable) (id : ℕ) (status : CommandStatus) (result : String) :
    CommandTable :=
  commands.update id fun row => { row with status, result := some result }

end CommandTable

/-- `_cancel_job`: the first of the conditional updates that hits. -/
def Database.cancelJob (db : Database) (id : JobId) (now : Time) : Option Database :=
  cancellableByCommand.findSome? fun src => db.transition id src .cancelled {} now

/-- What the awaits of `_apply_command` answer. -/
structure CommandAnswers where
  /-- The type of the exception that ends it. -/
  raised : Option String := none
  /-- The answer of `pull_rules`, unless the control plane reports an error. -/
  rows : Option (List PublishedRule) := none
  now : Time := 0

abbrev CommandOutcome := CommandStatus × String

/-- `_refresh_rules`. -/
def Worker.refreshRules (wk : Worker) (hosted : Hosted) (rows : Option (List PublishedRule)) :
    Worker :=
  match rows with
  | none => wk
  | some rows =>
    let accountId := hosted.assignment.accountId
    { wk with caches := wk.caches.refresh accountId (rulesFromRows rows accountId wk.deadAccounts) }

/-- `_apply_command`; only the commands that await something outside the process can raise. -/
def Worker.applyCommand (wk : Worker) (db : Database) (accountId : AccountId) (hosted : Hosted)
    (cmd : PendingCommand) (answers : CommandAnswers) : Database × Worker × CommandOutcome :=
  let rejected := fun e => (db, wk, .rejected, "error:" ++ e)
  match cmd.type with
  | .stopAccount => (db, wk.release accountId, .done, "released")
  | .startAccount => (db, wk, .done, "already_hosted")
  | .pauseAccount =>
    (db, { wk with registry := wk.registry.markPaused accountId }, .done, "paused")
  | .resumeAccount =>
    (db, { wk with registry := wk.registry.markResumed accountId }, .done, "resumed")
  | .reloadConfig =>
    match answers.raised with
    | some e => rejected e
    | none => (db, wk.refreshRules hosted answers.rows, .done, "rules_refreshed")
  | .syncChats =>
    match answers.raised with
    | some e => rejected e
    | none => (db, wk, .done, "dialogs_warmed")
  | .cancelJob =>
    match answers.raised with
    | some e => rejected e
    | none =>
      match cmd.jobId.bind fun id => db.cancelJob id answers.now with
      | some db' => (db', wk, .done, "cancelled")
      | none => (db, wk, .rejected, "job_not_cancellable")
  | .other name => (db, wk, .rejected, "unsupported:" ++ name)

/-! ## The protocol -/

/-- The rest of the commands one pull has returned, and the acknowledgement to be posted next. -/
structure Batch where
  accountId : AccountId
  hosted : Hosted
  rest : List PendingCommand
  unsent : Option (ℕ × CommandOutcome) := none
  deriving DecidableEq, Repr

/-- What a process remembers of the commands; `incarnation` counts its restarts. -/
structure Poller where
  incarnation : ℕ := 0
  /-- `_seen_cmds`. -/
  seen : List ℕ := []
  batch : Option Batch := none
  deriving DecidableEq, Repr

def Poller.restart (p : Poller) : Poller := { incarnation := p.incarnation + 1 }

/-- The loop over the pulled commands is done. -/
def Poller.idle (p : Poller) : Bool := p.batch.all fun b => b.rest.isEmpty && b.unsent.isNone

structure Application where
  workerId : WorkerId
  incarnation : ℕ
  accountId : AccountId
  id : ℕ
  outcome : CommandOutcome
  deriving DecidableEq, Repr

structure CommandSystem where
  system : System
  commands : CommandTable
  pollers : WorkerId → Poller
  /-- The platform's latest clock reading. -/
  clock : Option Time
  /-- The applications so far, oldest first. -/
  applied : List Application

def CommandSystem.start (config : WorkerId → WorkerConfig) : CommandSystem where
  system := .start config
  commands := .empty
  pollers _ := {}
  clock := none
  applied := []

inductive CommandAction
  | system (a : Action)
  | issue (obj : CreateCommand) (uuid : String) (now : Time)
  | pull (workerId : WorkerId) (accountId : AccountId) (order : List ℕ) (now : Time)
  | next (workerId : WorkerId) (answers : CommandAnswers)
  | ack (workerId : WorkerId) (arrives : Bool)
  /-- The acknowledgement raises something else than a `ControlApiError`. -/
  | abort (workerId : WorkerId) (arrives : Bool)

namespace CommandSystem

def setPoller (s : CommandSystem) (w : WorkerId) (p : Poller) : CommandSystem :=
  { s with pollers := Function.update s.pollers w p }

/-- A process applies a command it has not seen. -/
def applyNext (s : CommandSystem) (w : WorkerId) (b : Batch) (cmd : PendingCommand)
    (rest : List PendingCommand) (answers : CommandAnswers) : CommandSystem :=
  let p := s.pollers w
  let (db, wk, outcome) :=
    (s.system.workers w).applyCommand s.system.db b.accountId b.hosted cmd answers
  { s with
    system := { s.system with db, workers := Function.update s.system.workers w wk }
    pollers := Function.update s.pollers w { p with
      seen := cmd.id :: p.seen, batch := some { b with rest, unsent := some (cmd.id, outcome) } }
    applied := s.applied ++ [⟨w, p.incarnation, b.accountId, cmd.id, outcome⟩] }

/-- An acknowledgement is posted, and the process goes on as `p`. -/
def acknowledged (s : CommandSystem) (w : WorkerId) (p : Poller) (id : ℕ) (outcome : CommandOutcome)
    (arrives : Bool) : CommandSystem :=
  { s with commands := if arrives then s.commands.ack id outcome.1 outcome.2 else s.commands }.setPoller w p

def step (s : CommandSystem) : CommandAction → Option CommandSystem
  | .system a =>
    (s.system.step a).map fun system =>
      match a with
      | .crash w => { s with system }.setPoller w (s.pollers w).restart
      | _ => { s with system }
  | .issue obj uuid now =>
    (s.commands.issue obj uuid now).map fun commands => { s with commands, clock := some now }
  | .pull w accountId order now =>
    ((s.system.workers w).hosted accountId).bind fun hosted =>
      if (s.pollers w).idle ∧ order.Perm (s.commands.select (CommandTable.pendingOf accountId)) then
        some ({ s with clock := some now }.setPoller w { s.pollers w with
          batch := some { accountId, hosted, rest := s.commands.getPending order now } })
      else none
  | .next w answers =>
    (s.pollers w).batch.bind fun b =>
      match b.rest, b.unsent with
      | cmd :: rest, none =>
        if cmd.id ∈ (s.pollers w).seen then
          some (s.setPoller w { s.pollers w with batch := some { b with rest } })
        else some (s.applyNext w b cmd rest answers)
      | _, _ => none
  | .ack w arrives =>
    (s.pollers w).batch.bind fun b =>
      b.unsent.map fun a =>
        s.acknowledged w { s.pollers w with batch := some { b with unsent := none } } a.1 a.2 arrives
  | .abort w arrives =>
    (s.pollers w).batch.bind fun b =>
      b.unsent.map fun a => s.acknowledged w { s.pollers w with batch := none } a.1 a.2 arrives

inductive Stepped (s : CommandSystem) : CommandAction → CommandSystem → Prop
  | crash (w : WorkerId) (system : System) : Stepped s (.system (.crash w))
      ({ s with system }.setPoller w (s.pollers w).restart)
  | system (a : Action) (system : System) : (∀ w, a ≠ .crash w) →
      Stepped s (.system a) { s with system }
  | replay (obj : CreateCommand) (uuid : String) (now : Time) :
      Stepped s (.issue obj uuid now) { s with clock := some now }
  | issue (obj : CreateCommand) (uuid : String) (now : Time) (row : CommandRow) :
      row.status = .pending → Stepped s (.issue obj uuid now)
        { s with commands := s.commands.insert row, clock := some now }
  | pull (w : WorkerId) (accountId : AccountId) (order : List ℕ) (now : Time) (hosted : Hosted) :
      order.Perm (s.commands.select (CommandTable.pendingOf accountId)) →
      Stepped s (.pull w accountId order now)
        ({ s with clock := some now }.setPoller w { s.pollers w with
          batch := some { accountId, hosted, rest := s.commands.getPending order now } })
  | skip (w : WorkerId) (answers : CommandAnswers) (b : Batch) (cmd : PendingCommand)
      (rest : List PendingCommand) : (s.pollers w).batch = some b → b.rest = cmd :: rest →
      cmd.id ∈ (s.pollers w).seen → Stepped s (.next w answers)
        (s.setPoller w { s.pollers w with batch := some { b with rest } })
  | apply (w : WorkerId) (answers : CommandAnswers) (b : Batch) (cmd : PendingCommand)
      (rest : List PendingCommand) : (s.pollers w).batch = some b → b.rest = cmd :: rest →
      cmd.id ∉ (s.pollers w).seen → Stepped s (.next w answers) (s.applyNext w b cmd rest answers)
  | ack (w : WorkerId) (arrives : Bool) (b : Batch) (id : ℕ) (outcome : CommandOutcome) :
      (s.pollers w).batch = some b → b.unsent = some (id, outcome) →
      Stepped s (.ack w arrives)
        (s.acknowledged w { s.pollers w with batch := some { b with unsent := none } } id outcome arrives)
  | abort (w : WorkerId) (arrives : Bool) (b : Batch) (id : ℕ) (outcome : CommandOutcome) :
      (s.pollers w).batch = some b → b.unsent = some (id, outcome) →
      Stepped s (.abort w arrives)
        (s.acknowledged w { s.pollers w with batch := none } id outcome arrives)

theorem stepped_of_step {s s' : CommandSystem} {a : CommandAction} (h : s.step a = some s') :
    s.Stepped a s' := by
  cases a with
  | system a =>
    obtain ⟨system, _, rfl⟩ := Option.map_eq_some_iff.mp h
    cases a with
    | crash w => exact .crash w system
    | _ => exact .system _ system (by simp)
  | issue obj uuid now =>
    obtain ⟨commands, hissue, rfl⟩ := Option.map_eq_some_iff.mp h
    simp only [CommandTable.issue] at hissue
    split_ifs at hissue
    · obtain rfl := Option.some.inj hissue
      exact .replay obj uuid now
    · obtain rfl := Option.some.inj hissue
      exact .issue obj uuid now _ rfl
  | pull w accountId order now =>
    obtain ⟨hosted, _, h⟩ := Option.bind_eq_some_iff.mp h
    split_ifs at h with hpull
    obtain rfl := Option.some.inj h
    exact .pull w accountId order now hosted hpull.2
  | next w answers =>
    obtain ⟨b, hb, h⟩ := Option.bind_eq_some_iff.mp h
    split at h
    · rename_i cmd rest hrest _
      split_ifs at h with hseen
      · obtain rfl := Option.some.inj h
        exact .skip w answers b cmd rest hb hrest hseen
      · obtain rfl := Option.some.inj h
        exact .apply w answers b cmd rest hb hrest hseen
    · cases h
  | ack w arrives =>
    obtain ⟨b, hb, h⟩ := Option.bind_eq_some_iff.mp h
    obtain ⟨⟨id, outcome⟩, hunsent, rfl⟩ := Option.map_eq_some_iff.mp h
    exact .ack w arrives b id outcome hb hunsent
  | abort w arrives =>
    obtain ⟨b, hb, h⟩ := Option.bind_eq_some_iff.mp h
    obtain ⟨⟨id, outcome⟩, hunsent, rfl⟩ := Option.map_eq_some_iff.mp h
    exact .abort w arrives b id outcome hb hunsent

end CommandSystem

end TgPlatform
