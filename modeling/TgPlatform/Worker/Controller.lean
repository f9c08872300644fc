import Mathlib.Data.Int.Notation
import TgPlatform.Lib.Dict
import TgPlatform.Lib.Machine

/-! # The account lifecycle

The controller keeps a state for each account. Commands move it along a table of
allowed phases; the worker's two reports and an unconfirmed takeover write it
without a look at the table.
-/

namespace TgPlatform.RuntimeControl

inductive CommandType
  | start | stop | pause | resume | markReauth | markRevoked | disable | takeover
  deriving DecidableEq, Repr

def CommandType.value : CommandType → String
  | .start => "start"
  | .stop => "stop"
  | .pause => "pause"
  | .resume => "resume"
  | .markReauth => "reauth"
  | .markRevoked => "revoked"
  | .disable => "disable"
  | .takeover => "takeover"

inductive AccountPhase
  | stopped | starting | online | paused | stopping | reauthRequired | revoked | disabled
  | takeoverBlocked
  deriving DecidableEq, Repr

def AccountPhase.value : AccountPhase → String
  | .stopped => "stopped"
  | .starting => "starting"
  | .online => "online"
  | .paused => "paused"
  | .stopping => "stopping"
  | .reauthRequired => "reauth_required"
  | .revoked => "revoked"
  | .disabled => "disabled"
  | .takeoverBlocked => "takeover_blocked"

structure AccountRuntimeState where
  accountId : String
  phase : AccountPhase := .stopped
  workerId : Option String := none
  generation : Option ℤ := none
  reason : String := ""
  deriving DecidableEq, Repr

structure RuntimeCommand where
  accountId : String
  type : CommandType
  dedupKey : String := ""
  issuedBy : String := ""
  oldHolderConfirmedDead : Bool := false
  deriving DecidableEq, Repr

inductive CommandStatus | applied | duplicate | rejected
  deriving DecidableEq, Repr

structure CommandResult where
  status : CommandStatus
  state : AccountRuntimeState
  reason : String := ""
  deriving DecidableEq, Repr

/-- `InMemoryStateStore`: each row is stored under its own account. -/
structure StateStore where
  rows : Dict String AccountRuntimeState
  keyed : ∀ id state, rows.get? id = some state → state.accountId = id

def StateStore.empty : StateStore := ⟨.empty, by simp⟩

def StateStore.put (store : StateStore) (state : AccountRuntimeState) : StateStore where
  rows := store.rows.set state.accountId state
  keyed id state' h := by
    by_cases hid : id = state.accountId
    · subst hid
      rw [Dict.get?_set_self] at h
      cases h
      rfl
    · rw [Dict.get?_set_of_ne hid] at h
      exact store.keyed id state' h

/-- `_ALLOWED`. -/
def allowed : CommandType → List AccountPhase
  | .start => [.stopped, .paused, .reauthRequired]
  | .stop => [.starting, .online, .paused, .reauthRequired, .stopping]
  | .pause => [.online]
  | .resume => [.paused]
  | .markReauth => [.starting, .online, .paused]
  | .markRevoked => [.starting, .online, .paused, .reauthRequired]
  | .disable => [.stopped, .starting, .online, .paused, .stopping, .reauthRequired, .revoked,
    .takeoverBlocked]
  | .takeover => [.online, .paused, .starting, .stopping, .takeoverBlocked]

/-- `_NEXT_PHASE`. -/
def nextPhase : CommandType → AccountPhase
  | .start => .starting
  | .stop => .stopping
  | .pause => .paused
  | .resume => .online
  | .markReauth => .reauthRequired
  | .markRevoked => .revoked
  | .disable => .disabled
  | .takeover => .online

structure RuntimeController where
  store : StateStore
  seenDedup : List String

namespace RuntimeController

def fresh : RuntimeController := ⟨.empty, []⟩

variable (ctl : RuntimeController)

/-- `current`. -/
def current (accountId : String) : AccountRuntimeState :=
  (ctl.store.rows.get? accountId).getD { accountId }

/-- `_store.put`. -/
def put (state : AccountRuntimeState) : RuntimeController := { ctl with store := ctl.store.put state }

/-- `_takeover`. -/
def takeover (command : RuntimeCommand) (state : AccountRuntimeState) :
    RuntimeController × CommandResult :=
  if !command.oldHolderConfirmedDead then
    let blocked := { state with phase := .takeoverBlocked, reason := "old_holder_unconfirmed" }
    (ctl.put blocked, { status := .rejected, state := blocked, reason := "takeover_requires_fencing" })
  else if state.phase ∉ allowed .takeover then
    (ctl, { status := .rejected, state, reason := s!"illegal:{state.phase.value}->takeover" })
  else
    let newState : AccountRuntimeState := {
      accountId := command.accountId
      phase := .online
      workerId := if command.issuedBy = "" then state.workerId else some command.issuedBy
      generation := some (state.generation.getD 0 + 1) }
    (ctl.put newState, { status := .applied, state := newState })

/-- `apply`, after the key was looked up. -/
def dispatch (command : RuntimeCommand) : RuntimeController × CommandResult :=
  let state := ctl.current command.accountId
  if command.type = .takeover then ctl.takeover command state
  else if state.phase ∉ allowed command.type then
    (ctl, { status := .rejected, state
            reason := s!"illegal:{state.phase.value}->{command.type.value}" })
  else
    let newState := { state with phase := nextPhase command.type, reason := "" }
    (ctl.put newState, { status := .applied, state := newState })

def replayed (command : RuntimeCommand) : Bool :=
  command.dedupKey ≠ "" && command.dedupKey ∈ ctl.seenDedup

/-- `apply`. -/
def apply (command : RuntimeCommand) : RuntimeController × CommandResult :=
  if ctl.replayed command then
    (ctl, { status := .duplicate, state := ctl.current command.accountId, reason := "dedup_replay" })
  else if command.dedupKey ≠ "" then
    dispatch { ctl with seenDedup := command.dedupKey :: ctl.seenDedup } command
  else ctl.dispatch command

/-- `mark_online`. -/
def markOnline (accountId workerId : String) (generation : ℤ) : RuntimeController :=
  ctl.put { ctl.current accountId with
    phase := .online, workerId := some workerId, generation := some generation }

/-- `mark_stopped`. -/
def markStopped (accountId reason : String) : RuntimeController :=
  ctl.put { ctl.current accountId with phase := .stopped, workerId := none, generation := none, reason }

end RuntimeController

inductive ControllerAction
  | command (command : RuntimeCommand)
  | markOnline (accountId workerId : String) (generation : ℤ)
  | markStopped (accountId reason : String)
  deriving DecidableEq, Repr

def controllerNext (ctl : RuntimeController) : ControllerAction → RuntimeController
  | .command c => (ctl.apply c).1
  | .markOnline accountId workerId generation => ctl.markOnline accountId workerId generation
  | .markStopped accountId reason => ctl.markStopped accountId reason

def controllerStep (ctl : RuntimeController) (a : ControllerAction) : Option RuntimeController :=
  some (controllerNext ctl a)

/-! ## What one step writes -/

namespace RuntimeController

variable {ctl : RuntimeController} {id : String} {c : RuntimeCommand}

theorem accountId_current : (ctl.current id).accountId = id := by
  unfold current
  cases h : ctl.store.rows.get? id with
  | none => rfl
  | some state => exact ctl.store.keyed id state h

@[simp] theorem get?_put {state : AccountRuntimeState} :
    (ctl.put state).store.rows.get? id =
      if id = state.accountId then some state else ctl.store.rows.get? id := by
  split
  · subst id
    exact Dict.get?_set_self
  · exact Dict.get?_set_of_ne ‹_›

@[simp] theorem current_put {state : AccountRuntimeState} :
    (ctl.put state).current id = if id = state.accountId then state else ctl.current id := by
  unfold current
  rw [get?_put]
  split <;> rfl

theorem current_eq_of_store {ctl' : RuntimeController} (h : ctl'.store = ctl.store) :
    ctl'.current id = ctl.current id := by
  rw [current, h, current]

inductive Applied (ctl : RuntimeController) (c : RuntimeCommand) :
    RuntimeController → CommandStatus → Prop
  | duplicate : ctl.replayed c = true → Applied ctl c ctl .duplicate
  | illegal (ctl' : RuntimeController) : ctl.replayed c = false → ctl'.store = ctl.store →
      (ctl.current c.accountId).phase ∉ allowed c.type →
      (c.type = .takeover → c.oldHolderConfirmedDead = true) → Applied ctl c ctl' .rejected
  | unconfirmed (ctl' : RuntimeController) : ctl.replayed c = false → ctl'.store = ctl.store →
      c.type = .takeover → c.oldHolderConfirmedDead = false →
      Applied ctl c (ctl'.put { ctl.current c.accountId with
        phase := .takeoverBlocked, reason := "old_holder_unconfirmed" }) .rejected
  | moved (ctl' : RuntimeController) : ctl.replayed c = false → ctl'.store = ctl.store →
      c.type ≠ .takeover → (ctl.current c.accountId).phase ∈ allowed c.type →
      Applied ctl c (ctl'.put { ctl.current c.accountId with phase := nextPhase c.type, reason := "" })
        .applied
  | takenOver (ctl' : RuntimeController) (workerId : Option String) : ctl.replayed c = false →
      ctl'.store = ctl.store → c.type = .takeover → c.oldHolderConfirmedDead = true →
      (ctl.current c.accountId).phase ∈ allowed .takeover →
      Applied ctl c (ctl'.put {
        accountId := c.accountId
        phase := .online
        workerId := workerId
        generation := some ((ctl.current c.accountId).generation.getD 0 + 1) }) .applied

theorem applied_of_dispatch {ctl' : RuntimeController} (hstore : ctl'.store = ctl.store)
    (hnew : ctl.replayed c = false) :
    Applied ctl c (ctl'.dispatch c).1 (ctl'.dispatch c).2.status := by
  unfold dispatch takeover
  rw [current_eq_of_store hstore]
  by_cases htype : c.type = .takeover
  · by_cases hconfirmed : c.oldHolderConfirmedDead = true
    · by_cases hphase : (ctl.current c.accountId).phase ∈ allowed .takeover
      · simp only [htype, hconfirmed, hphase, if_true, Bool.not_true, Bool.false_eq_true, if_false,
          not_true_eq_false]
        exact .takenOver ctl' _ hnew hstore htype hconfirmed hphase
      · simp only [htype, hconfirmed, hphase, if_true, Bool.not_true, Bool.false_eq_true, if_false,
          not_false_eq_true]
        exact .illegal ctl' hnew hstore (htype ▸ hphase) fun _ => hconfirmed
    · rw [Bool.not_eq_true] at hconfirmed
      simp only [htype, hconfirmed, if_true, Bool.not_false]
      exact .unconfirmed ctl' hnew hstore htype hconfirmed
  · by_cases hphase : (ctl.current c.accountId).phase ∈ allowed c.type
    · simp only [htype, hphase, if_false, not_true_eq_false]
      exact .moved ctl' hnew hstore htype hphase
    · simp only [htype, hphase, if_false, not_false_eq_true, if_true]
      exact .illegal ctl' hnew hstore hphase fun h => (htype h).elim

theorem applied_of_apply : Applied ctl c (ctl.apply c).1 (ctl.apply c).2.status := by
  unfold apply
  cases hnew : ctl.replayed c with
  | true => exact .duplicate hnew
  | false =>
    rw [if_neg (by simp)]
    split
    · exact applied_of_dispatch rfl hnew
    · exact applied_of_dispatch rfl hnew

end RuntimeController

end TgPlatform.RuntimeControl
