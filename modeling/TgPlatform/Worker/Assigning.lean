import TgPlatform.Worker.DeadSessions

/-! # Assigning an account

Once the lease is won and the session connected, `_assign` fills the tables of
the host one after the other. Its `except` clause closes the session and takes
nothing else back, and a refused pull of the rules does not even reach it. The
call is all or nothing exactly where it fails before the registry has the
account, or where the rules come and nothing fails.
-/

namespace TgPlatform

/-- The exceptions of the calls that `_assign` makes besides those to the control plane, and the
answer to its status report. -/
structure AssignFaults where
  registerLiveEvents : Option String := none
  registerMembershipWatch : Option String := none
  runnerAssign : Option String := none
  reportStatus : Reply Unit := .response 200 (.envelope (some 200) ())

/-- Where `_assign` returns. -/
inductive AssignOutcome
  | noSession
  | heldElsewhere
  | connectFailed
  | assigned (generation : ℤ)
  deriving DecidableEq, Repr

/-! ## The call -/

namespace HostMain

variable (s : HostMain)

def openSession (a : Assignment) : HostMain :=
  s.withWorker { s.worker with sessions := Function.update s.worker.sessions a.accountId (some a) } rfl
    fun _ h => h

/-- The registry and the router have the account. -/
def enlist (a : Assignment) (generation : ℤ) : HostMain :=
  s.withWorker { s.worker with
    registry := s.worker.registry.register a.accountId generation
    router := Function.update s.worker.router a.accountId true } rfl fun _ h => h

end HostMain

namespace TickEnv

open Routine

variable (env : TickEnv) (faults : AssignFaults)

/-- `_report_status`: a failed report is only logged. -/
def reportStatus (answer : Reply Unit) : Tick :=
  match answer.unwrap with
  | .ok () => pure ()
  | .error _ => pure ()

/-- The second `try` of `_assign`. -/
def serveOrClose (a : Assignment) (generation : ℤ) :
    Routine HostMain TickEvent String AssignOutcome := do
  modify fun s => s.openSession a
  onRaise (do
    attempt faults.registerLiveEvents
    modify fun s => s.enlist a generation
    env.refreshRules (.assign a.accountId) a
    attempt faults.registerMembershipWatch
    attempt faults.runnerAssign
    modify fun s => s.host a generation
    reportStatus faults.reportStatus
    pure (.assigned generation)) fun s => s.closeSession a

/-- The session bundle comes and the session connects. -/
def reaches (a : Assignment) : Bool :=
  (env.fetchSession a.accountId).data.isSome && env.connects a.accountId

/-- `_assign` with every place where it can fail. -/
def assignWith (a : Assignment) : Routine HostMain TickEvent String AssignOutcome := do
  emit (.assigning a.accountId)
  if a.hasSession then
    match ← exec fun s => s.acquire env a.accountId with
    | none => pure .heldElsewhere
    | some generation => do
      emit (.call (.fetchSession a.accountId))
      if env.reaches a then
        env.serveOrClose faults a generation
      else do
        reportStatus faults.reportStatus
        pure .connectFailed
  else pure .noSession

theorem reportStatus_eq (answer : Reply Unit) : reportStatus answer = pure () := by
  unfold reportStatus
  cases answer.unwrap <;> rfl

/-- The host after `_refresh_rules`: a pull without rows changes nothing. -/
def withRules (a : Assignment) (s : HostMain) : HostMain :=
  match (env.pullRules (.assign a.accountId)).unwrap with
  | .ok rows => s.refreshRules a rows (env.refreshedAt (.assign a.accountId))
  | .error _ => s

/-- How the second `try` ends. -/
inductive ServeEnds (a : Assignment) (g : ℤ) (s : HostMain) :
    Except String AssignOutcome → HostMain → Prop
  | unregistered (e : String) : faults.registerLiveEvents = some e →
      ServeEnds a g s (.error e) ((s.openSession a).closeSession a)
  | pullRaised (e : String) : faults.registerLiveEvents = none →
      (env.pullRules (.assign a.accountId)).unwrap = .error (.other e) →
      ServeEnds a g s (.error e) ((s.connect a g).closeSession a)
  | raised (e : String) : faults.registerLiveEvents = none →
      (env.pullRules (.assign a.accountId)).escapes = false →
      (faults.registerMembershipWatch = some e ∨
        faults.registerMembershipWatch = none ∧ faults.runnerAssign = some e) →
      ServeEnds a g s (.error e) ((env.withRules a (s.connect a g)).closeSession a)
  | assigned : faults.registerLiveEvents = none →
      (env.pullRules (.assign a.accountId)).escapes = false →
      faults.registerMembershipWatch = none → faults.runnerAssign = none →
      ServeEnds a g s (.ok (.assigned g)) ((env.withRules a (s.connect a g)).host a g)

variable {env faults} {a : Assignment} {g : ℤ} {s : HostMain}

theorem refreshRules_of_not_escapes (h : (env.pullRules (.assign a.accountId)).escapes = false) :
    ∃ log, env.refreshRules (.assign a.accountId) a s = ⟨log, env.withRules a s, .ok ()⟩ := by
  unfold refreshRules withRules
  unfold Reply.escapes at h
  cases hpull : (env.pullRules (.assign a.accountId)).unwrap with
  | ok rows => exact ⟨_, rfl⟩
  | error fault =>
    cases fault with
    | controlApi => exact ⟨_, rfl⟩
    | other e => simp [hpull] at h

variable (env faults a g s) in
theorem serveEnds : env.ServeEnds faults a g s (env.serveOrClose faults a g s).result
    (env.serveOrClose faults a g s).state := by
  unfold serveOrClose
  rw [reportStatus_eq]
  cases hevents : faults.registerLiveEvents with
  | some e => exact .unregistered e hevents
  | none =>
    cases hpull : (env.pullRules (.assign a.accountId)).escapes with
    | true =>
      obtain ⟨e, he⟩ := Reply.escapes_iff.mp hpull
      unfold refreshRules
      rw [he]
      exact .pullRaised e hevents he
    | false =>
      obtain ⟨log, hrules⟩ := refreshRules_of_not_escapes (s := s.connect a g) hpull
      generalize env.refreshRules (.assign a.accountId) a = refresh at hrules ⊢
      change env.ServeEnds faults a g s
        (onRaise (refresh >>= fun _ => _) _ (s.connect a g)).result
        (onRaise (refresh >>= fun _ => _) _ (s.connect a g)).state
      simp only [onRaise, Bind.bind, andThen, hrules]
      cases hwatch : faults.registerMembershipWatch with
      | some e => exact .raised e hevents hpull (.inl hwatch)
      | none =>
        cases hrunner : faults.runnerAssign with
        | some e => exact .raised e hevents hpull (.inr ⟨hwatch, hrunner⟩)
        | none => exact .assigned hevents hpull hwatch hrunner

/-- Where nothing but the control plane and the connection fails, this is the `_assign` of a tick. -/
theorem assign_eq_assignWith (answer : Reply Unit) :
    env.assign a = (env.assignWith { reportStatus := answer } a >>= fun _ => pure ()) := by
  funext s
  unfold assign assignWith reaches
  rw [reportStatus_eq]
  cases a.hasSession with
  | false => rfl
  | true =>
    simp only [Bind.bind, andThen, emit, exec, if_true]
    cases (s.acquire env a.accountId).1 with
    | none => rfl
    | some g =>
      dsimp only
      split
      · unfold serve serveOrClose refreshRules
        rw [reportStatus_eq]
        rcases (env.pullRules (.assign a.accountId)).unwrap with (_ | e) | rows <;> rfl
      · rfl

variable (faults) in
theorem assignWith_of_acquired (hsession : a.hasSession = true)
    (hacquired : (s.acquire env a.accountId).1 = some g) :
    (env.assignWith faults a s).result =
        (if env.reaches a then (env.serveOrClose faults a g (s.acquire env a.accountId).2).result
        else .ok .connectFailed) ∧
      (env.assignWith faults a s).state =
        if env.reaches a then (env.serveOrClose faults a g (s.acquire env a.accountId).2).state
        else (s.acquire env a.accountId).2 := by
  unfold assignWith
  rw [if_pos hsession, reportStatus_eq]
  simp only [Bind.bind, andThen, emit, exec, hacquired]
  split
  · exact ⟨rfl, rfl⟩
  · exact ⟨rfl, rfl⟩

end TickEnv

/-! ## All or nothing -/

namespace HostMain

structure Absent (s : HostMain) (a : AccountId) : Prop where
  session : s.worker.sessions a = none
  registry : s.worker.registry a = none
  router : s.worker.router a = false
  rules : s.worker.caches.rulesCache.get? a = none
  runner : s.worker.runners a = none
  hosted : s.worker.hosted a = none

/-- The host has an account in all of its tables, at one generation of the lease. -/
structure ServesAt (s : HostMain) (a : Assignment) (g : ℤ) : Prop where
  session : s.worker.sessions a.accountId = some a
  registry : (s.worker.registry a.accountId).map LiveAccount.generation = some g
  router : s.worker.router a.accountId = true
  rules : (s.worker.caches.rulesCache.get? a.accountId).isSome
  runner : (s.worker.runners a.accountId).map Runner.generation = some g
  hosted : s.worker.hosted a.accountId = some ⟨a, g⟩

/-- The memory of the host is what it was; only the database may differ. -/
structure SameMemory (s s' : HostMain) : Prop where
  worker : s'.worker = s.worker
  order : s'.order = s.order
  seen : s'.seen = s.seen
  rulesRefreshedAt : s'.rulesRefreshedAt = s.rulesRefreshedAt

variable {env : TickEnv} {faults : AssignFaults} {a : Assignment} {g : ℤ} {s : HostMain}

theorem sameMemory_acquire {accountId : AccountId} : SameMemory s (s.acquire env accountId).2 :=
  ⟨rfl, rfl, rfl, rfl⟩

theorem sameMemory_closeSession (h : s.worker.sessions a.accountId = none) :
    SameMemory s ((s.openSession a).closeSession a) := by
  have hsessions : Function.update s.worker.sessions a.accountId none = s.worker.sessions := by
    rw [← h, Function.update_eq_self]
  refine ⟨?_, rfl, rfl, rfl⟩
  simp [openSession, closeSession, withWorker, hsessions]

theorem SameMemory.trans {s₁ s₂ s₃ : HostMain} (h : SameMemory s₁ s₂) (h' : SameMemory s₂ s₃) :
    SameMemory s₁ s₃ where
  worker := h'.worker.trans h.worker
  order := h'.order.trans h.order
  seen := h'.seen.trans h.seen
  rulesRefreshedAt := h'.rulesRefreshedAt.trans h.rulesRefreshedAt

theorem SameMemory.symm {s' : HostMain} (h : SameMemory s s') : SameMemory s' s where
  worker := h.worker.symm
  order := h.order.symm
  seen := h.seen.symm
  rulesRefreshedAt := h.rulesRefreshedAt.symm

theorem SameMemory.absent {s' : HostMain} {accountId : AccountId} (h : SameMemory s s')
    (hs : s.Absent accountId) : s'.Absent accountId := by
  constructor <;> rw [h.worker]
  · exact hs.session
  · exact hs.registry
  · exact hs.router
  · exact hs.rules
  · exact hs.runner
  · exact hs.hosted

theorem holds_of_acquired {accountId : AccountId} (h : (s.acquire env accountId).1 = some g) :
    ∃ r, (s.acquire env accountId).2.db.accountLeases accountId = some r ∧
      r.workerId = env.workerId := by
  have hrow : (s.acquire env accountId).2.db.accountLeases accountId =
      (acquireWrite (s.db.accountLeases accountId) env.workerId s.worker.config.leaseTtl
        (env.leaseRead accountId)).1 := by
    simp [acquire]
  have hgeneration : (acquireWrite (s.db.accountLeases accountId) env.workerId s.worker.config.leaseTtl
      (env.leaseRead accountId)).2 = some g := h
  rw [hrow]
  exact owner_of_acquired hgeneration

theorem acquired_of_own {accountId : AccountId} {r : AccountLease}
    (hrow : s.db.accountLeases accountId = some r) (hown : r.workerId = env.workerId)
    (hread : (env.leaseRead accountId).seen = s.db.accountLeases accountId) :
    (s.acquire env accountId).1 = some r.generation := by
  unfold acquire acquireWrite
  rw [hread, hrow]
  simp [Option.filter_some, hown]

end HostMain

namespace TickEnv

variable (env : TickEnv) (faults : AssignFaults) (a : Assignment) (s : HostMain)

/-- The call does not get as far as the registry. -/
def FailsEarly : Prop := env.reaches a = false ∨ faults.registerLiveEvents.isSome

structure Completes : Prop where
  reaches : env.reaches a = true
  events : faults.registerLiveEvents = none
  pull : (env.pullRules (.assign a.accountId)).escapes = false
  watch : faults.registerMembershipWatch = none
  runner : faults.runnerAssign = none

/-- The rules come with this call or were there before it. -/
def HasRules : Prop :=
  (env.pullRules (.assign a.accountId)).data.isSome ∨
    (s.worker.caches.rulesCache.get? a.accountId).isSome

/-- The next call of the same worker that finds its lease as it is and nothing failing assigns. -/
def AssignableAgain : Prop :=
  ∀ env' faults', env'.workerId = env.workerId →
    (env'.leaseRead a.accountId).seen = s.db.accountLeases a.accountId → Completes env' faults' a →
    (env'.pullRules (.assign a.accountId)).data.isSome →
    ∃ g, (env'.assignWith faults' a s).result = .ok (.assigned g) ∧
      (env'.assignWith faults' a s).state.ServesAt a g

/-- The call has failed: it has raised, or caught that the session does not connect. -/
def AssignFails : Prop :=
  (env.assignWith faults a s).result = .ok .connectFailed ∨
    ∃ e, (env.assignWith faults a s).result = .error e

/-- A failed call leaves the host as it was, without the account; another one has the account
everywhere, at the generation it has won. -/
structure AllOrNothing : Prop where
  nothing : env.AssignFails faults a s →
    s.SameMemory (env.assignWith faults a s).state ∧
      (env.assignWith faults a s).state.Absent a.accountId ∧
      env.AssignableAgain a (env.assignWith faults a s).state
  all : ¬ env.AssignFails faults a s → ∃ g, (s.acquire env a.accountId).1 = some g ∧
    (env.assignWith faults a s).result = .ok (.assigned g) ∧
      (env.assignWith faults a s).state.ServesAt a g

variable {env faults a s} {g : ℤ}

variable (env a s) in
theorem withRules_cases : ((env.pullRules (.assign a.accountId)).data = none ∧ env.withRules a s = s) ∨
    ∃ rows, (env.pullRules (.assign a.accountId)).data = some rows ∧
      env.withRules a s = s.refreshRules a rows (env.refreshedAt (.assign a.accountId)) := by
  unfold withRules Reply.data
  cases (env.pullRules (.assign a.accountId)).unwrap with
  | ok rows => exact .inr ⟨rows, rfl, rfl⟩
  | error fault => exact .inl ⟨rfl, rfl⟩

variable (env a s) in
theorem withRules_tables : (env.withRules a s).worker.sessions = s.worker.sessions ∧
    (env.withRules a s).worker.registry = s.worker.registry ∧
    (env.withRules a s).worker.router = s.worker.router := by
  rcases env.withRules_cases a s with ⟨-, h⟩ | ⟨rows, -, h⟩
  · rw [h]
    exact ⟨rfl, rfl, rfl⟩
  · rw [h]
    exact ⟨rfl, rfl, rfl⟩

theorem servesAt_host_iff :
    ((env.withRules a (s.connect a g)).host a g).ServesAt a g ↔ env.HasRules a s := by
  obtain ⟨hsessions, hregistry, hrouter⟩ := env.withRules_tables a (s.connect a g)
  have hrules : (((env.withRules a (s.connect a g)).host a g).worker.caches.rulesCache.get?
    a.accountId).isSome ↔
      env.HasRules a s := by
    unfold HasRules
    change ((env.withRules a (s.connect a g)).worker.caches.rulesCache.get? a.accountId).isSome ↔ _
    rcases env.withRules_cases a (s.connect a g) with ⟨hdata, h⟩ | ⟨rows, hdata, h⟩
    · rw [h, hdata]
      exact ⟨.inr, fun h => h.resolve_left nofun⟩
    · rw [h, hdata]
      refine iff_of_true ?_ (.inl rfl)
      simp [HostMain.refreshRules, HostMain.withWorker, Worker.refreshRules, RuleCaches.refresh]
  constructor
  · intro h
    exact hrules.mp h.rules
  · intro h
    refine ⟨?_, ?_, ?_, hrules.mpr h, ?_, ?_⟩
    · change (env.withRules a (s.connect a g)).worker.sessions a.accountId = some a
      rw [hsessions]
      exact Function.update_self ..
    · change ((env.withRules a (s.connect a g)).worker.registry a.accountId).map
        LiveAccount.generation = some g
      rw [hregistry]
      change ((s.worker.registry.register a.accountId g) a.accountId).map LiveAccount.generation = some g
      rw [LiveRegistry.register_self, Option.map_some]
    · change (env.withRules a (s.connect a g)).worker.router a.accountId = true
      rw [hrouter]
      exact Function.update_self ..
    · simp [HostMain.host]
    · simp [HostMain.host]

theorem assignWith_of_completes (hsession : a.hasSession = true)
    (hacquired : (s.acquire env a.accountId).1 = some g) (h : env.Completes faults a) :
    (env.assignWith faults a s).result = .ok (.assigned g) ∧
      (env.assignWith faults a s).state =
        (env.withRules a ((s.acquire env a.accountId).2.connect a g)).host a g := by
  obtain ⟨hresult, hstate⟩ := assignWith_of_acquired faults hsession hacquired
  rw [hresult, hstate, if_pos h.reaches, if_pos h.reaches]
  generalize (s.acquire env a.accountId).2 = s₁
  have hends := env.serveEnds faults a g s₁
  have hpull := h.pull
  generalize (env.serveOrClose faults a g s₁).result = result at hends ⊢
  generalize (env.serveOrClose faults a g s₁).state = s₂ at hends ⊢
  cases hends with
  | unregistered e he => simp [h.events] at he
  | pullRaised e _ he => simp [Reply.escapes, he] at hpull
  | raised e _ _ he => simp [h.watch, h.runner] at he
  | assigned => exact ⟨rfl, rfl⟩

theorem assignableAgain_of_acquired (hsession : a.hasSession = true)
    (hacquired : (s.acquire env a.accountId).1 = some g) {s' : HostMain}
    (hlease : s'.db = (s.acquire env a.accountId).2.db) : env.AssignableAgain a s' := by
  intro env' faults' hworker hread hcompletes hrows
  obtain ⟨r, hrow, hown⟩ := HostMain.holds_of_acquired hacquired
  have hagain : (s'.acquire env' a.accountId).1 = some r.generation :=
    HostMain.acquired_of_own (by rw [hlease, hrow]) (hown.trans hworker.symm) hread
  obtain ⟨hresult, hstate⟩ := assignWith_of_completes hsession hagain hcompletes
  refine ⟨r.generation, hresult, ?_⟩
  rw [hstate]
  exact servesAt_host_iff.mpr (.inl hrows)

/-- A failed call that keeps the memory is all or nothing if there was nothing before. -/
theorem allOrNothing_iff_absent (hfails : env.AssignFails faults a s)
    (hmemory : s.Absent a.accountId → s.SameMemory (env.assignWith faults a s).state)
    (hagain : env.AssignableAgain a (env.assignWith faults a s).state) :
    env.AllOrNothing faults a s ↔ s.Absent a.accountId := by
  constructor
  · intro h
    obtain ⟨hsame, habsent, -⟩ := h.nothing hfails
    exact hsame.symm.absent habsent
  · intro habsent
    exact ⟨fun _ => ⟨hmemory habsent, (hmemory habsent).absent habsent, hagain⟩, fun hnot =>
      absurd hfails hnot⟩

theorem not_allOrNothing_of_registered {e : String} {live : LiveAccount}
    (hresult : (env.assignWith faults a s).result = .error e)
    (hregistry : (env.assignWith faults a s).state.worker.registry a.accountId = some live) :
    ¬ env.AllOrNothing faults a s := by
  intro h
  have habsent := (h.nothing (.inr ⟨e, hresult⟩)).2.1
  rw [habsent.registry] at hregistry
  cases hregistry

theorem registry_connect : (s.connect a g).worker.registry a.accountId =
    some { accountId := a.accountId, generation := g, sendState := .sendable } :=
  LiveRegistry.register_self

end TickEnv

/-- The control plane serves the session, but times out when the rules are pulled. -/
def slowRules : TickEnv := { twoAssignments with pullRules := fun _ => .timedOut }

def accountA : Assignment := { accountId := "A", tenantId := "t", projectId := "p" }

end TgPlatform
