import TgPlatform.Worker.Controller

/-! # Generations as a fencing token

A new holder of an account is told apart from the old ones by a greater
generation. The controller counts up from the row, copies what a worker
reports, and clears the row when the account is stopped: the next takeover
counts from zero again.
-/

namespace TgPlatform.RuntimeControl

namespace RuntimeController

def generation (ctl : RuntimeController) (id : String) : ℤ := (ctl.current id).generation.getD 0

inductive Owns (ctl : RuntimeController) : ControllerAction → String → ℤ → Prop
  | takenOver (c : RuntimeCommand) (g : ℤ) : c.type = .takeover → (ctl.apply c).2.status = .applied →
      ((ctl.apply c).1.current c.accountId).generation = some g →
      Owns ctl (.command c) c.accountId g
  | reported (id workerId : String) (g : ℤ) : (ctl.current id).workerId ≠ some workerId →
      Owns ctl (.markOnline id workerId g) id g

def attached (ctl : RuntimeController) (id : String) : List ℤ := (ctl.current id).generation.toList

def attach (attached : String → List ℤ) (ctl : RuntimeController) (a : ControllerAction) (id : String) :
    List ℤ :=
  (controllerNext ctl a).attached id ++ attached id

def step : RuntimeController × (String → List ℤ) → ControllerAction →
    Option (RuntimeController × (String → List ℤ)) :=
  Machine.recorded controllerStep attach

/-- A new holder's generation is greater than all before. -/
def Fenced (x : RuntimeController × (String → List ℤ)) (a : ControllerAction) : Prop :=
  ∀ id g, x.1.Owns a id g → ∀ g' ∈ x.2 id, g' < g

/-- A confirmed takeover finds the greatest generation still in the row, and another worker
reports a greater one than any before. -/
def Counts (x : RuntimeController × (String → List ℤ)) : ControllerAction → Prop
  | .command c => c.type = .takeover → c.oldHolderConfirmedDead = true → x.1.replayed c = false →
      (x.1.current c.accountId).phase ∈ allowed .takeover →
      ∀ g ∈ x.2 c.accountId, g ≤ x.1.generation c.accountId
  | .markOnline id workerId generation => (x.1.current id).workerId ≠ some workerId →
      ∀ g ∈ x.2 id, g < generation
  | .markStopped _ _ => True

variable {x y : RuntimeController × (String → List ℤ)} {a : ControllerAction} {c : RuntimeCommand}

/-- Who holds an account after a command: the one who took it over, one generation up. -/
theorem owns_command {ctl : RuntimeController} {id : String} {g : ℤ} :
    ctl.Owns (.command c) id g ↔ id = c.accountId ∧ c.type = .takeover ∧
      c.oldHolderConfirmedDead = true ∧ ctl.replayed c = false ∧
      (ctl.current c.accountId).phase ∈ allowed .takeover ∧ g = ctl.generation c.accountId + 1 := by
  have happlied : Applied ctl c (ctl.apply c).1 (ctl.apply c).2.status := applied_of_apply
  constructor
  · rintro ⟨_, _, htype, hstatus, hgeneration⟩
    rw [hstatus] at happlied
    generalize (ctl.apply c).1 = ctl' at happlied hgeneration
    generalize hs : CommandStatus.applied = status at happlied
    cases happlied with
    | duplicate => cases hs
    | illegal => cases hs
    | unconfirmed => cases hs
    | moved _ _ _ hne => exact absurd htype hne
    | takenOver ctl' workerId hnew _ _ hconfirmed hphase =>
      rw [current_put, if_pos rfl] at hgeneration
      exact ⟨rfl, htype, hconfirmed, hnew, hphase, (Option.some.inj hgeneration).symm⟩
  · rintro ⟨rfl, htype, hconfirmed, hnew, hphase, rfl⟩
    refine .takenOver c _ htype ?_ ?_
    · generalize (ctl.apply c).1 = ctl' at happlied
      generalize (ctl.apply c).2.status = status at happlied ⊢
      cases happlied with
      | duplicate hseen => simp [hnew] at hseen
      | illegal _ _ _ hillegal => exact absurd (htype ▸ hphase) hillegal
      | unconfirmed _ _ _ _ hunconfirmed => simp [hconfirmed] at hunconfirmed
      | moved => rfl
      | takenOver => rfl
    · generalize (ctl.apply c).1 = ctl' at happlied ⊢
      generalize (ctl.apply c).2.status = status at happlied
      cases happlied with
      | duplicate hseen => simp [hnew] at hseen
      | illegal _ _ _ hillegal => exact absurd (htype ▸ hphase) hillegal
      | unconfirmed _ _ _ _ hunconfirmed => simp [hconfirmed] at hunconfirmed
      | moved _ _ _ hne => exact absurd htype hne
      | takenOver ctl' workerId =>
        rw [current_put, if_pos rfl]
        rfl

theorem fenced_iff_counts : Fenced x a ↔ Counts x a := by
  cases a with
  | command c =>
    constructor
    · intro h htype hconfirmed hnew hphase g hg
      have := h c.accountId _ (owns_command.mpr ⟨rfl, htype, hconfirmed, hnew, hphase, rfl⟩) g hg
      omega
    · intro h id g howns g' hg'
      obtain ⟨rfl, htype, hconfirmed, hnew, hphase, rfl⟩ := owns_command.mp howns
      have := h htype hconfirmed hnew hphase g' hg'
      omega
  | markOnline id workerId generation =>
    constructor
    · exact fun h hworker => h id generation (.reported id workerId generation hworker)
    · rintro h _ _ ⟨⟩
      exact h ‹_›
  | markStopped id reason =>
    exact ⟨fun _ => trivial, fun _ _ _ h => by cases h⟩

/-- From any state, every new ownership of a run is fenced exactly if each confirmed takeover finds
the greatest generation still in the row and each report of another worker brings a greater one. -/
theorem run_fenced (ctl : RuntimeController) (as : List ControllerAction) :
    Machine.Always step (fun x a _ => Fenced x a) (ctl, ctl.attached) as ↔
      Machine.Always step (fun x a _ => Counts x a) (ctl, ctl.attached) as := by
  apply Machine.always_iff_of_invariant (I := fun _ => True)
  · exact fun _ _ _ _ _ _ => trivial
  · exact fun _ _ _ _ _ => fenced_iff_counts
  · trivial

/-! ## An account that is never stopped -/

def Greatest (x : RuntimeController × (String → List ℤ)) : Prop :=
  ∀ id, ∀ g ∈ x.2 id, g ≤ x.1.generation id

def Advances (ctl : RuntimeController) : ControllerAction → Prop
  | .command _ => True
  | .markOnline id workerId g => ctl.generation id ≤ g ∧
      ((ctl.current id).workerId ≠ some workerId → ctl.generation id < g)
  | .markStopped id _ => ctl.generation id ≤ 0

theorem generation_le_put {ctl ctl' : RuntimeController} {state : AccountRuntimeState}
    (hstore : ctl'.store = ctl.store)
    (h : ctl.generation state.accountId ≤ state.generation.getD 0) (id : String) :
    ctl.generation id ≤ (ctl'.put state).generation id := by
  unfold generation at h ⊢
  rw [current_put]
  split
  · subst id
    exact h
  · exact Int.le_of_eq (by rw [current_eq_of_store hstore])

theorem generation_le_of_advances {ctl : RuntimeController} (h : ctl.Advances a) (id : String) :
    ctl.generation id ≤ (controllerNext ctl a).generation id := by
  have hcurrent : ∀ id, ctl.generation (ctl.current id).accountId ≤
    (ctl.current id).generation.getD 0 := by
    intro id
    rw [accountId_current]
    exact Int.le_refl _
  cases a with
  | command c =>
    have happlied : Applied ctl c (ctl.apply c).1 (ctl.apply c).2.status := applied_of_apply
    change ctl.generation id ≤ (ctl.apply c).1.generation id
    generalize (ctl.apply c).1 = ctl' at happlied ⊢
    generalize (ctl.apply c).2.status = status at happlied
    cases happlied with
    | duplicate => exact Int.le_refl _
    | illegal _ _ hstore =>
      unfold generation
      exact Int.le_of_eq (by rw [current_eq_of_store hstore])
    | unconfirmed _ _ hstore =>
      apply generation_le_put hstore
      exact hcurrent c.accountId
    | moved _ _ hstore =>
      apply generation_le_put hstore
      exact hcurrent c.accountId
    | takenOver _ _ _ hstore =>
      apply generation_le_put hstore
      change ctl.generation c.accountId ≤ ctl.generation c.accountId + 1
      omega
  | markOnline id' workerId g =>
    apply generation_le_put rfl
    change ctl.generation (ctl.current id').accountId ≤ g
    rw [accountId_current]
    exact h.1
  | markStopped id' reason =>
    apply generation_le_put rfl
    change ctl.generation (ctl.current id').accountId ≤ 0
    rw [accountId_current]
    exact h

theorem greatest_step (hstep : step x a = some y) (h : x.1.Advances a) (hx : Greatest x) :
    Greatest y := by
  obtain ⟨hnext, hattached⟩ := Machine.recorded_eq_some.mp hstep
  have hy : y.1 = controllerNext x.1 a := (Option.some.inj hnext).symm
  intro id g hg
  rw [hattached] at hg
  rw [hy]
  rcases List.mem_append.mp hg with hg | hg
  · unfold attached at hg
    unfold generation
    rw [Option.mem_toList] at hg
    rw [Option.mem_def.mp hg]
    exact Int.le_refl g
  · exact Int.le_trans (hx id g hg) (generation_le_of_advances h id)

theorem run_fenced_of_advances (ctl : RuntimeController) (as : List ControllerAction)
    (h : Machine.Always step (fun x a _ => x.1.Advances a) (ctl, ctl.attached) as) :
    Machine.Always step (fun x a _ => Fenced x a) (ctl, ctl.attached) as := by
  apply h.of_invariant (I := Greatest)
  · exact fun _ _ _ => greatest_step
  · intro x a y _ hadvances hx
    apply fenced_iff_counts.mpr
    cases a with
    | command c => exact fun _ _ _ _ => hx c.accountId
    | markOnline id workerId g =>
      exact fun hworker g' hg' => Int.lt_of_le_of_lt (hx id g' hg') (hadvances.2 hworker)
    | markStopped => trivial
  · intro id g hg
    change g ∈ ctl.attached id at hg
    unfold attached at hg
    unfold generation
    rw [Option.mem_toList] at hg
    rw [Option.mem_def.mp hg]
    exact Int.le_refl g

end RuntimeController

/-! ## A generation given twice -/

def stoppedAccount : List ControllerAction :=
  [.command { accountId := "a", type := .start }, .markOnline "a" "w" 5, .markStopped "a" "drained",
    .command { accountId := "a", type := .start }]

/-- `w2` takes the account over from its confirmed dead holder. -/
def takeoverCommand : RuntimeCommand :=
  { accountId := "a", type := .takeover, issuedBy := "w2", oldHolderConfirmedDead := true }

theorem takeover_after_stop_counts_from_zero :
    ¬ ∀ ctl as, Machine.Always RuntimeController.step (fun x a _ => RuntimeController.Fenced x a)
      (ctl, ctl.attached) as := by
  intro h
  have hobserved : ((Machine.run RuntimeController.step (.fresh, RuntimeController.fresh.attached)
      stoppedAccount).bind fun x => (RuntimeController.step x (.command takeoverCommand)).map fun y =>
        ((x.1.apply takeoverCommand).2.status,
          ((x.1.apply takeoverCommand).1.current "a").generation, decide (5 ∈ x.2 "a"))) =
      some (.applied, some 1, true) := by decide +kernel
  obtain ⟨x, y, hrun, hstep, hseen⟩ := Machine.exists_of_observed hobserved
  obtain ⟨hstatus, hrest⟩ := Prod.mk.inj hseen
  obtain ⟨hgeneration, hattached⟩ := Prod.mk.inj hrest
  refine Machine.not_always_of_step hrun hstep (fun hfenced => ?_) (h _ _)
  have := hfenced "a" 1 (.takenOver takeoverCommand 1 rfl hstatus hgeneration) 5
    (of_decide_eq_true hattached)
  omega

end TgPlatform.RuntimeControl
