import TgPlatform.Worker.Controller

/-! # What an operator's word is worth

A disabled account stays disabled, a revoked one leaves that phase only to be
disabled, and a rejected command leaves the states as they were. Commands go
through the table of allowed phases. The two reports and an unconfirmed
takeover do not, and each of them can undo an operator's word.
-/

namespace TgPlatform.RuntimeControl

namespace RuntimeController

def phase (ctl : RuntimeController) (id : String) : AccountPhase := (ctl.current id).phase

def SameStates (ctl ctl' : RuntimeController) : Prop :=
  ∀ id, ctl'.store.rows.get? id = ctl.store.rows.get? id

/-- An unconfirmed takeover has blocked an account from which a takeover is allowed. -/
structure Blocks (ctl : RuntimeController) (c : RuntimeCommand) (ctl' : RuntimeController) : Prop where
  takeover : c.type = .takeover
  unconfirmed : c.oldHolderConfirmedDead = false
  allowed : ctl.phase c.accountId ∈ allowed .takeover
  blocked : ctl'.phase c.accountId = .takeoverBlocked
  others : ∀ id, id ≠ c.accountId → ctl'.store.rows.get? id = ctl.store.rows.get? id

inductive ComesOnline (ctl : RuntimeController) (id : String) : ControllerAction → Prop
  | reported (workerId : String) (generation : ℤ) :
      ctl.phase id = .starting → ComesOnline ctl id (.markOnline id workerId generation)
  | resumed (c : RuntimeCommand) : c.accountId = id → c.type = .resume → ctl.phase id = .paused →
      ComesOnline ctl id (.command c)
  | takenOver (c : RuntimeCommand) : c.accountId = id → c.type = .takeover →
      c.oldHolderConfirmedDead = true → ctl.phase id ∈ allowed .takeover →
      ComesOnline ctl id (.command c)

structure Lawful (ctl : RuntimeController) (a : ControllerAction) (ctl' : RuntimeController) : Prop where
  disabled : ∀ id, ctl.phase id = .disabled → ctl'.phase id = .disabled
  revoked : ∀ id, ctl.phase id = .revoked → ctl'.phase id = .revoked ∨ ctl'.phase id = .disabled
  rejected : ∀ c, a = .command c → (ctl.apply c).2.status = .rejected →
    ctl.SameStates ctl' ∨ ctl.Blocks c ctl'
  reported : ∀ id workerId generation, a = .markOnline id workerId generation →
    ctl.phase id ≠ .starting → ctl.SameStates ctl'
  online : ∀ id, ctl.phase id ≠ .online → ctl'.phase id = .online → ctl.ComesOnline id a
  starting : ∀ id, ctl.phase id ≠ .starting → ctl'.phase id = .starting →
    ∃ c, a = .command c ∧ c.accountId = id ∧ c.type = .start
  paused : ∀ id, ctl.phase id ≠ .paused → ctl'.phase id = .paused →
    ctl.phase id = .online ∧ ∃ c, a = .command c ∧ c.accountId = id ∧ c.type = .pause

/-- A report of this holder changes nothing: the account is online with it already. -/
def Holds (ctl : RuntimeController) (id workerId : String) (generation : ℤ) : Prop :=
  ctl.phase id = .online ∧ (ctl.current id).workerId = some workerId ∧
    (ctl.current id).generation = some generation

def Respects (ctl : RuntimeController) : ControllerAction → Prop
  | .command c => c.type = .takeover → c.oldHolderConfirmedDead = false → ctl.replayed c = false →
      ctl.phase c.accountId ∈ allowed .takeover
  | .markOnline id workerId generation =>
      ctl.phase id = .starting ∨ ctl.Holds id workerId generation
  | .markStopped id _ => ctl.phase id ≠ .disabled ∧ ctl.phase id ≠ .revoked

variable {ctl ctl' : RuntimeController} {id : String} {c : RuntimeCommand}

/-! ## Which phases a step leaves and enters -/

theorem phase_put {state : AccountRuntimeState} :
    (ctl.put state).phase id = if id = state.accountId then state.phase else ctl.phase id := by
  unfold phase
  rw [current_put]
  split <;> rfl

theorem phase_eq_of_store (h : ctl'.store = ctl.store) : ctl'.phase id = ctl.phase id := by
  rw [phase, current_eq_of_store h, phase]

/-- A write of the account `target` on an unchanged store is lawful as far as the phases go. -/
structure Turn (ctl : RuntimeController) (a : ControllerAction) (target : String)
    (next : AccountPhase) : Prop where
  disabled : ctl.phase target = .disabled → next = .disabled
  revoked : ctl.phase target = .revoked → next = .revoked ∨ next = .disabled
  online : ctl.phase target ≠ .online → next = .online → ctl.ComesOnline target a
  starting : ctl.phase target ≠ .starting → next = .starting →
    ∃ c, a = .command c ∧ c.accountId = target ∧ c.type = .start
  paused : ctl.phase target ≠ .paused → next = .paused →
    ctl.phase target = .online ∧ ∃ c, a = .command c ∧ c.accountId = target ∧ c.type = .pause

variable {a : ControllerAction} {state : AccountRuntimeState}

theorem Turn.lawful (hstore : ctl'.store = ctl.store) (h : ctl.Turn a state.accountId state.phase)
    (hrejected : ∀ c, a = .command c → (ctl.apply c).2.status = .rejected →
      ctl.SameStates (ctl'.put state) ∨ ctl.Blocks c (ctl'.put state))
    (hreported : ∀ id workerId generation, a = .markOnline id workerId generation →
      ctl.phase id ≠ .starting → ctl.SameStates (ctl'.put state)) :
    ctl.Lawful a (ctl'.put state) := by
  have hphase : ∀ id, (ctl'.put state).phase id =
      if id = state.accountId then state.phase else ctl.phase id := by
    intro id
    rw [phase_put, phase_eq_of_store hstore]
  constructor
  · intro id hid
    rw [hphase]
    split
    · subst id
      exact h.disabled hid
    · exact hid
  · intro id hid
    rw [hphase]
    split
    · subst id
      exact h.revoked hid
    · exact Or.inl hid
  · exact hrejected
  · exact hreported
  · intro id hid hnext
    rw [hphase] at hnext
    split at hnext
    · subst id
      exact h.online hid hnext
    · exact absurd hnext hid
  · intro id hid hnext
    rw [hphase] at hnext
    split at hnext
    · subst id
      exact h.starting hid hnext
    · exact absurd hnext hid
  · intro id hid hnext
    rw [hphase] at hnext
    split at hnext
    · subst id
      exact h.paused hid hnext
    · exact absurd hnext hid

theorem lawful_of_store (hstore : ctl'.store = ctl.store) : ctl.Lawful a ctl' := by
  have hphase : ∀ id, ctl'.phase id = ctl.phase id := fun id => phase_eq_of_store hstore
  have hsame : ctl.SameStates ctl' := fun id => by rw [hstore]
  constructor
  · intro id hid
    rw [hphase, hid]
  · intro id hid
    exact Or.inl (by rw [hphase, hid])
  · exact fun _ _ _ => Or.inl hsame
  · exact fun _ _ _ _ _ => hsame
  · intro id hid hnext
    exact absurd (hphase id ▸ hnext) hid
  · intro id hid hnext
    exact absurd (hphase id ▸ hnext) hid
  · intro id hid hnext
    exact absurd (hphase id ▸ hnext) hid

theorem turn_nextPhase (htype : c.type ≠ .takeover) (hallowed : ctl.phase c.accountId ∈ allowed c.type) :
    ctl.Turn (.command c) c.accountId (nextPhase c.type) := by
  constructor
  · intro h
    rw [h] at hallowed
    cases hc : c.type <;> simp [hc, allowed] at hallowed
  · intro h
    rw [h] at hallowed
    cases hc : c.type <;> simp [hc, allowed] at hallowed htype ⊢
    simp [nextPhase]
  · intro _ h
    cases hc : c.type <;> simp [hc, nextPhase] at h htype
    rw [hc] at hallowed
    exact .resumed c rfl hc (by simpa [allowed] using hallowed)
  · intro _ h
    cases hc : c.type <;> simp [hc, nextPhase] at h
    exact ⟨c, rfl, rfl, hc⟩
  · intro _ h
    cases hc : c.type <;> simp [hc, nextPhase] at h
    rw [hc] at hallowed
    exact ⟨by simpa [allowed] using hallowed, c, rfl, rfl, hc⟩

/-- From a phase that allows a takeover, neither of the two final phases is left. -/
theorem not_final_of_allowed {p : AccountPhase} (h : p ∈ allowed .takeover) :
    p ≠ .disabled ∧ p ≠ .revoked := by
  cases p <;> simp [allowed] at h ⊢

/-! ## Commands and reports -/

theorem sameStates_put_of_current (h : ctl.current id = state) (hphase : state.phase ≠ .stopped) :
    ctl.SameStates (ctl.put state) := by
  intro id'
  rw [get?_put]
  split
  · rename_i hid
    rw [← h, accountId_current] at hid
    subst id'
    unfold current at h
    cases hrow : ctl.store.rows.get? id with
    | none =>
      rw [hrow] at h
      exact absurd (congrArg AccountRuntimeState.phase h).symm hphase
    | some row =>
      rw [hrow] at h
      exact congrArg some h.symm
  · rfl

/-- A command is lawful unless it is an unconfirmed takeover from a phase outside the table. -/
theorem lawful_command : ctl.Lawful (.command c) (ctl.apply c).1 ↔ ctl.Respects (.command c) := by
  have happlied : Applied ctl c (ctl.apply c).1 (ctl.apply c).2.status := applied_of_apply
  have hstatus : ∀ {status}, (ctl.apply c).2.status = status → status ≠ .rejected →
      ∀ c', ControllerAction.command c = .command c' → (ctl.apply c').2.status = .rejected →
        ∀ (p : Prop), p := by
    rintro status h hne c' ⟨⟩ hrejected p
    exact absurd (h ▸ hrejected) hne
  generalize hctl' : (ctl.apply c).1 = ctl' at happlied ⊢
  generalize hst : (ctl.apply c).2.status = status at happlied
  cases happlied with
  | duplicate hseen =>
    exact ⟨fun _ _ _ hnew => by simp [hseen] at hnew, fun _ => lawful_of_store rfl⟩
  | illegal _ hnew hstore hphase hconfirmed =>
    refine ⟨fun _ htype hunconfirmed _ => ?_, fun _ => lawful_of_store hstore⟩
    simp [hconfirmed htype] at hunconfirmed
  | unconfirmed ctl' hnew hstore htype hunconfirmed =>
    constructor
    · intro h _ _ _
      rcases h.rejected c rfl hst with hsame | hblocks
      · have hrow := hsame c.accountId
        rw [get?_put, if_pos accountId_current.symm, ← hstore] at hrow
        have hblocked : ctl.current c.accountId = { ctl.current c.accountId with
            phase := .takeoverBlocked, reason := "old_holder_unconfirmed" } := by
          conv_lhs => rw [← current_eq_of_store hstore, current, ← hrow]
          rfl
        rw [phase, hblocked]
        simp [allowed]
      · exact hblocks.allowed
    · intro h
      have hallowed := h htype hunconfirmed hnew
      refine Turn.lawful hstore ?_ ?_ fun _ _ _ ha => by cases ha
      · have hfinal := not_final_of_allowed hallowed
        rw [show
          ({ ctl.current c.accountId with
            phase := .takeoverBlocked, reason := "old_holder_unconfirmed" } :
              AccountRuntimeState).accountId = c.accountId from accountId_current]
        refine ⟨fun h => absurd h hfinal.1, fun h => absurd h hfinal.2, ?_, ?_, ?_⟩ <;> rintro _ ⟨⟩
      · rintro c' ⟨⟩ _
        refine Or.inr ⟨htype, hunconfirmed, hallowed, ?_, fun id hid => ?_⟩
        · rw [phase_put, if_pos accountId_current.symm]
        · rw [get?_put, if_neg (by rwa [accountId_current]), hstore]
  | moved ctl' hnew hstore htype hphase =>
    refine ⟨fun _ h => absurd h htype, fun _ => Turn.lawful hstore ?_ ?_ fun _ _ _ ha => by cases ha⟩
    · have hturn := turn_nextPhase htype hphase
      rwa [← (accountId_current : (ctl.current c.accountId).accountId = c.accountId)] at hturn
    · exact fun c' heq hrejected => hstatus hst (by decide) c' heq hrejected _
  | takenOver ctl' workerId hnew hstore htype hconfirmed hphase =>
    refine ⟨fun _ _ h => by simp [hconfirmed] at h,
      fun _ => Turn.lawful hstore ?_ ?_ fun _ _ _ ha => by cases ha⟩
    · have hfinal := not_final_of_allowed hphase
      refine ⟨fun h => absurd h hfinal.1, fun h => absurd h hfinal.2,
        fun _ _ => .takenOver c rfl htype hconfirmed hphase, ?_, ?_⟩ <;> rintro _ ⟨⟩
    · exact fun c' heq hrejected => hstatus hst (by decide) c' heq hrejected _

theorem lawful_markOnline {workerId : String} {generation : ℤ} :
    ctl.Lawful (.markOnline id workerId generation) (ctl.markOnline id workerId generation) ↔
      ctl.Respects (.markOnline id workerId generation) := by
  constructor
  · intro h
    by_cases hstarting : ctl.phase id = .starting
    · exact Or.inl hstarting
    · right
      have hrow := h.reported id workerId generation rfl hstarting id
      rw [markOnline, get?_put, if_pos accountId_current.symm] at hrow
      have hcurrent : ctl.current id = { ctl.current id with
          phase := .online, workerId := some workerId, generation := some generation } := by
        conv_lhs => rw [current, ← hrow]
        rfl
      exact ⟨congrArg AccountRuntimeState.phase hcurrent,
        congrArg AccountRuntimeState.workerId hcurrent,
        congrArg AccountRuntimeState.generation hcurrent⟩
  · rintro (hstarting | ⟨hphase, hworker, hgeneration⟩)
    · refine Turn.lawful rfl ?_ (fun _ ha => by cases ha) ?_
      · rw [show
          ({ ctl.current id with
            phase := .online, workerId := some workerId, generation := some generation } :
              AccountRuntimeState).accountId = id from accountId_current]
        refine ⟨fun h => ?_, fun h => ?_, fun _ _ => .reported workerId generation hstarting, ?_, ?_⟩
        · simp [hstarting] at h
        · simp [hstarting] at h
        · rintro _ ⟨⟩
        · rintro _ ⟨⟩
      · rintro id' _ _ ⟨⟩ hne
        exact absurd hstarting hne
    · have hsame : ctl.SameStates (ctl.markOnline id workerId generation) := by
        refine sameStates_put_of_current (?_ : ctl.current id = _) (by rintro ⟨⟩)
        unfold phase at hphase
        cases hrow : ctl.current id
        simp_all
      have hcurrent : ∀ id', (ctl.markOnline id workerId generation).phase id' = ctl.phase id' := by
        intro id'
        rw [phase, current, hsame id', phase, current]
      constructor
      · intro id' h
        rw [hcurrent, h]
      · intro id' h
        exact Or.inl (by rw [hcurrent, h])
      · rintro _ ⟨⟩
      · exact fun _ _ _ _ _ => hsame
      · intro id' h hnext
        exact absurd (hcurrent id' ▸ hnext) h
      · intro id' h hnext
        exact absurd (hcurrent id' ▸ hnext) h
      · intro id' h hnext
        exact absurd (hcurrent id' ▸ hnext) h

theorem lawful_markStopped {reason : String} :
    ctl.Lawful (.markStopped id reason) (ctl.markStopped id reason) ↔
      ctl.Respects (.markStopped id reason) := by
  have hphase : (ctl.markStopped id reason).phase id = .stopped := by
    rw [markStopped, phase_put, if_pos accountId_current.symm]
  constructor
  · intro h
    refine ⟨fun hdisabled => ?_, fun hrevoked => ?_⟩
    · have := h.disabled id hdisabled
      simp [hphase] at this
    · have := h.revoked id hrevoked
      simp [hphase] at this
  · rintro ⟨hdisabled, hrevoked⟩
    refine Turn.lawful rfl ?_ nofun nofun
    rw [show ({ ctl.current id with phase := .stopped, workerId := none, generation := none, reason } :
      AccountRuntimeState).accountId = id from accountId_current]
    exact ⟨fun h => absurd h hdisabled, fun h => absurd h hrevoked, nofun, nofun, nofun⟩

theorem lawful_iff_respects (h : controllerStep ctl a = some ctl') :
    ctl.Lawful a ctl' ↔ ctl.Respects a := by
  cases h
  cases a with
  | command c => exact lawful_command
  | markOnline id workerId generation => exact lawful_markOnline
  | markStopped id reason => exact lawful_markStopped

/-- From any state, a run of commands and reports is lawful exactly if no unconfirmed takeover
comes in a phase outside the table, a worker reports only starting accounts online, unless they
are already so, and no disabled or revoked account is reported stopped. -/
theorem run_lawful (ctl : RuntimeController) (as : List ControllerAction) :
    Machine.Always controllerStep Lawful ctl as ↔
      Machine.Always controllerStep (fun ctl a _ => ctl.Respects a) ctl as := by
  apply Machine.always_iff_of_invariant (I := fun _ => True)
  · exact fun _ _ _ _ _ _ => trivial
  · exact fun _ _ _ h _ => lawful_iff_respects h
  · trivial

end RuntimeController

/-! ## A disabled account comes online -/

def disabledAccount : List ControllerAction :=
  [.command { accountId := "a", type := .start }, .command { accountId := "a", type := .disable }]

theorem disabled_account_comes_online :
    ¬ ∀ ctl as, Machine.Always controllerStep RuntimeController.Lawful ctl as := by
  intro h
  have hobserved : ((Machine.run controllerStep .fresh disabledAccount).bind fun ctl =>
      (controllerStep ctl (.markOnline "a" "w" 1)).map fun ctl' => (ctl.phase "a", ctl'.phase "a")) =
      some (.disabled, .online) := by decide +kernel
  obtain ⟨ctl, ctl', hrun, hstep, hphases⟩ := Machine.exists_of_observed hobserved
  obtain ⟨hbefore, hafter⟩ := Prod.mk.inj hphases
  refine Machine.not_always_of_step hrun hstep (fun hlawful => ?_) (h _ _)
  rw [hlawful.disabled "a" hbefore] at hafter
  cases hafter

end TgPlatform.RuntimeControl
