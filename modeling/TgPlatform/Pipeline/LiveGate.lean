import TgPlatform.Pipeline.Hosting
import TgPlatform.Pipeline.Steps

/-! # The live state and the marks behind it

The registry folds operator pauses, dead sessions and flood deadlines of an
account into one row that each mark overwrites, and the gate reads the row
once, before the awaits that lead to the call. As long as no mark overwrites
one that still stands, a call only starts when all marks allow it.
-/

namespace TgPlatform

/-- What has been marked on an account in the life of one process. -/
structure Marks where
  /-- Paused, and not resumed since. -/
  paused : Bool := false
  /-- The session was marked dead after it had been connected. -/
  dead : Bool := false
  /-- Every flood deadline on record. -/
  floods : List Time := []
  /-- The latest clock reading of the process. -/
  clock : Option Time := none
  deriving DecidableEq, Repr

inductive Mark
  | paused | resumed | connected | dead | flooded (until_ : Time) | restarted
  deriving DecidableEq, Repr

namespace Marks

def add (m : Marks) : Option Mark → Marks
  | none => m
  | some .paused => { m with paused := true }
  | some .resumed => { m with paused := false }
  | some .connected => { m with dead := false }
  | some .dead => { m with dead := true }
  | some (.flooded until_) => { m with floods := until_ :: m.floods }
  | some .restarted => {}

def read (m : Marks) : Option Time → Marks
  | none => m
  | some now => { m with clock := some (m.clock.elim now (max now)) }

/-- The deadline had passed at some reading of the clock. -/
def Over (m : Marks) (u : Time) : Prop := ∃ t, m.clock = some t ∧ u ≤ t

instance (m : Marks) (u : Time) : Decidable (m.Over u) :=
  match h : m.clock with
  | none => isFalse fun ⟨_, ht, _⟩ => by simp [h] at ht
  | some t => decidable_of_iff (u ≤ t) ⟨fun hu => ⟨t, h, hu⟩, fun ⟨_, ht, hu⟩ => by simp_all⟩

variable {m : Marks} {u : Time}

@[simp] theorem read_paused (now : Option Time) : (m.read now).paused = m.paused := by
  cases now <;> rfl

@[simp] theorem read_dead (now : Option Time) : (m.read now).dead = m.dead := by
  cases now <;> rfl

@[simp] theorem read_floods (now : Option Time) : (m.read now).floods = m.floods := by
  cases now <;> rfl

theorem Over.read (h : m.Over u) (now : Option Time) : (m.read now).Over u := by
  obtain ⟨t, ht, hu⟩ := h
  cases now with
  | none => exact ⟨t, ht, hu⟩
  | some now => exact ⟨max now t, by simp [Marks.read, ht], le_max_of_le_right hu⟩

end Marks

/-! ## The row of an account -/

def LiveAccount.Closed (l : LiveAccount) : Prop := l.sendState = .paused ∨ l.sendState = .authDead

/-- The row is closed, or nothing but floods is marked and each of them is over or covered. -/
def LiveAccount.Respects (l : LiveAccount) (m : Marks) : Prop :=
  l.Closed ∨ (m.paused = false ∧ m.dead = false ∧
    ∀ u ∈ m.floods, m.Over u ∨ (l.sendState = .floodWait ∧ ∃ v, l.floodWaitUntil = some v ∧ u ≤ v))

inductive Mark.Rewrites : Option Mark → Option LiveAccount → Option LiveAccount → Prop
  | same (row : Option LiveAccount) : Rewrites none row row
  | dropped (row : Option LiveAccount) : Rewrites none row none
  | paused (row : Option LiveAccount) :
      Rewrites (some .paused) row (row.map fun l => { l with sendState := .paused })
  | resumed (row : Option LiveAccount) : Rewrites (some .resumed) row
      (row.map fun l => { l with sendState := .sendable, floodWaitUntil := none })
  | connected (row : Option LiveAccount) (l : LiveAccount) : l.sendState = .sendable →
      Rewrites (some .connected) row (some l)
  | dead (row : Option LiveAccount) :
      Rewrites (some .dead) row (row.map fun l => { l with sendState := .authDead })
  | flooded (row : Option LiveAccount) (u : Time) : Rewrites (some (.flooded u)) row
      (row.map fun l => { l with sendState := .floodWait, floodWaitUntil := some u })
  | restarted (row : Option LiveAccount) : Rewrites (some .restarted) row none

/-- The mark overwrites nothing that still stands. `reading`: the runner of the account is between
its gate and its call. -/
def Mark.Allowed (m : Marks) (registered reading : Prop) : Mark → Prop
  | .paused | .dead => ¬ reading
  | .resumed => m.dead = false ∧ ∀ u ∈ m.floods, m.Over u
  | .connected => m.paused = false ∧ ∀ u ∈ m.floods, m.Over u
  | .flooded v => ¬ reading ∧ (registered →
      m.paused = false ∧ m.dead = false ∧ ∀ u ∈ m.floods, m.Over u ∨ u ≤ v)
  | .restarted => True

instance (m : Marks) (registered reading : Prop) [Decidable registered] [Decidable reading]
    (k : Mark) : Decidable (k.Allowed m registered reading) :=
  match k with
  | .paused | .dead => inferInstanceAs (Decidable (¬ reading))
  | .resumed | .connected => inferInstanceAs (Decidable (_ ∧ _))
  | .flooded _ => inferInstanceAs (Decidable (_ ∧ (_ → _)))
  | .restarted => inferInstanceAs (Decidable True)

namespace LiveAccount

variable {l : LiveAccount} {m : Marks}

theorem Respects.read (h : l.Respects m) (now : Option Time) : l.Respects (m.read now) := by
  rcases h with hclosed | ⟨hpaused, hdead, hfloods⟩
  · exact Or.inl hclosed
  · refine Or.inr ⟨by simpa, by simpa, fun u hu => ?_⟩
    exact (hfloods u (by simpa using hu)).imp (·.read now) id

theorem Respects.cleared (h : l.Respects m) {job : PolicyCheckable} {policy : PolicySnapshot}
    {approval : Option ApprovalRecord} {now : Time} (hc : Cleared job l policy approval now)
    (hclock : ∀ t, m.clock = some t → t ≤ now) :
    m.paused = false ∧ m.dead = false ∧ ∀ u ∈ m.floods, u ≤ now := by
  rcases h with (hpaused | hdead) | ⟨hpaused, hdead, hfloods⟩
  · exact absurd hpaused hc.notPaused
  · exact absurd hdead hc.notDead
  · refine ⟨hpaused, hdead, fun u hu => ?_⟩
    rcases hfloods u hu with ⟨t, ht, hle⟩ | ⟨hstate, v, hv, hle⟩
    · exact hle.trans (hclock t ht)
    · have hover := hc.noFlood
      simp only [inFloodWait, hstate, hv, decide_true, Option.any_some, Bool.true_and,
        Bool.not_eq_false', decide_eq_true_eq] at hover
      exact hle.trans hover

theorem respects_of_rewrites {mark : Option Mark} {row row' : Option LiveAccount} {reading : Prop}
    (hrow : Mark.Rewrites mark row row') (h : ∀ l, row = some l → l.Respects m)
    (hallowed : ∀ k, mark = some k → k.Allowed m (row.isSome) reading) :
    ∀ l, row' = some l → l.Respects (m.add mark) := by
  intro l hl
  cases hrow with
  | same => exact h l hl
  | dropped => cases hl
  | paused =>
    obtain ⟨l', hl', rfl⟩ := Option.map_eq_some_iff.mp hl
    exact Or.inl (Or.inl rfl)
  | resumed =>
    obtain ⟨hdead, hover⟩ := hallowed _ rfl
    exact Or.inr ⟨rfl, hdead, fun u hu => Or.inl (hover u hu)⟩
  | connected _ =>
    obtain ⟨hpaused, hover⟩ := hallowed _ rfl
    exact Or.inr ⟨hpaused, rfl, fun u hu => Or.inl (hover u hu)⟩
  | dead =>
    obtain ⟨l', hl', rfl⟩ := Option.map_eq_some_iff.mp hl
    exact Or.inl (Or.inr rfl)
  | flooded _ u =>
    obtain ⟨l', hl', rfl⟩ := Option.map_eq_some_iff.mp hl
    obtain ⟨hpaused, hdead, hfloods⟩ := (hallowed _ rfl).2 (by simp [hl'])
    refine Or.inr ⟨hpaused, hdead, fun t ht => ?_⟩
    rcases List.mem_cons.mp ht with rfl | ht
    · exact Or.inr ⟨rfl, t, rfl, le_rfl⟩
    · exact (hfloods t ht).imp id fun hle => ⟨rfl, u, rfl, hle⟩
  | restarted => cases hl

/-- The state a runner has read respects the marks until one of them closes the account. -/
theorem Respects.kept {mark : Option Mark} {registered : Prop} (h : l.Respects m)
    (hallowed : ∀ k, mark = some k → k.Allowed m registered True) (hrestart : mark ≠ some .restarted) :
    l.Respects (m.add mark) := by
  match mark with
  | none => exact h
  | some .paused => exact absurd trivial (hallowed _ rfl)
  | some .dead => exact absurd trivial (hallowed _ rfl)
  | some (.flooded u) => exact absurd trivial (hallowed _ rfl).1
  | some .resumed =>
    exact h.imp id fun ⟨_, hdead, hfloods⟩ => ⟨rfl, hdead, hfloods⟩
  | some .connected =>
    exact h.imp id fun ⟨hpaused, _, hfloods⟩ => ⟨hpaused, rfl, hfloods⟩
  | some .restarted => exact absurd rfl hrestart

end LiveAccount

/-! ## Marks in a run -/

/-- What a transport call that ended so has marked on an account. -/
def TransportOutcome.markOn (acc : AccountId) : TransportOutcome → Option Mark
  | .error .floodWait _ (some until_) (some b) => if b = acc then some (.flooded until_) else none
  | .error .auth _ _ (some b) => if b = acc then some .dead else none
  | _ => none

def HostAction.mark (wk : Worker) (acc : AccountId) : HostAction → Option Mark
  | .pause b => if b = acc then some .paused else none
  | .resume b => if b = acc then some .resumed else none
  | .assignConnect =>
    match wk.assigning with
    | some ⟨a, .connecting _⟩ => if a.accountId = acc then some .connected else none
    | _ => none
  | _ => none

/-- The mark a step makes on account `acc` in process `w`. -/
def Action.mark (w : WorkerId) (acc : AccountId) (s : System) : Action → Option Mark
  | .host w' x => if w' = w then x.mark (s.workers w) acc else none
  | .runner w' _ (.finish outcome) => if w' = w then outcome.markOn acc else none
  | .crash w' => if w' = w then some .restarted else none
  | _ => none

def HostAction.reading : HostAction → Option Time
  | .assignRead _ now | .renew _ now | .cancelJob _ _ now => some now
  | _ => none

def RunnerAction.reading : RunnerAction → Option Time
  | .reclaim now | .select _ now | .tryNext now | .gate now | .execute now => some now
  | .settle now clock _ | .record now clock _ _ => some (max now clock)
  | _ => none

/-- The reading of its clock that process `w` makes in a step. -/
def Action.reading (w : WorkerId) : Action → Option Time
  | .host w' x => if w' = w then x.reading else none
  | .runner w' _ x => if w' = w then x.reading else none
  | _ => none

def noteMark (w : WorkerId) (acc : AccountId) (m : Marks) (s : System) (a : Action) : Marks :=
  (m.add (a.mark w acc s)).read (a.reading w)

/-- The system with the marks of account `acc` in process `w` kept beside it. -/
abbrev stepWithMarks (w : WorkerId) (acc : AccountId) :
    System × Marks → Action → Option (System × Marks) :=
  Machine.recorded System.step (noteMark w acc)

/-- The state read at the gate, until the call. -/
def RunnerPc.read : RunnerPc → Option Holding
  | .gated h _ | .admitted h | .executing h _ => some h
  | _ => none

def Worker.Reading (wk : Worker) (acc : AccountId) : Prop :=
  ((wk.runners acc).bind fun r => r.pc.read).isSome

instance (wk : Worker) (acc : AccountId) : Decidable (wk.Reading acc) :=
  inferInstanceAs (Decidable (_ = true))

/-- The step overwrites no mark that still stands, and no call is started at a time before the
clock's latest reading. -/
structure MarksStand (w : WorkerId) (acc : AccountId) (x : System × Marks) (a : Action)
    (_ : System × Marks) : Prop where
  mark : ∀ k, a.mark w acc x.1 = some k →
    k.Allowed x.2 (((x.1.workers w).registry acc).isSome) ((x.1.workers w).Reading acc)
  clock : ∀ now, a = .runner w acc (.execute now) → ∀ t, x.2.clock = some t → t ≤ now

/-- A call of the account that the step starts finds every mark allowing it. -/
def StartsAllowed (w : WorkerId) (acc : AccountId) (x : System × Marks) (a : Action)
    (y : System × Marks) : Prop :=
  ∀ call, y.1.history = x.1.history ++ [.started call] → call.workerId = w →
    call.accountId = acc → ∃ now, a = .runner w acc (.execute now) ∧
      x.2.paused = false ∧ x.2.dead = false ∧ ∀ u ∈ x.2.floods, u ≤ now

variable {w : WorkerId} {acc : AccountId} {x y : System × Marks} {a : Action}

theorem Mark.Rewrites.of_eq {row row' : Option LiveAccount} (h : row' = row) :
    Mark.Rewrites none row row' := by
  rw [h]
  exact .same row

theorem rewrites_finish (outcome : TransportOutcome) (registry : LiveRegistry) :
    Mark.Rewrites (outcome.markOn acc) (registry acc) (outcome.mark registry acc) := by
  unfold TransportOutcome.markOn
  split
  · rename_i until_ b
    by_cases hb : b = acc
    · subst hb
      simpa [TransportOutcome.mark, LiveRegistry.markFloodWait] using .flooded (registry b) until_
    · rw [if_neg hb]
      exact .of_eq (LiveRegistry.modify_of_ne (Ne.symm hb))
  · rename_i b
    by_cases hb : b = acc
    · subst hb
      simpa [TransportOutcome.mark, LiveRegistry.markAuthDead] using .dead (registry b)
    · rw [if_neg hb]
      exact .of_eq (LiveRegistry.modify_of_ne (Ne.symm hb))
  · rename_i hflood hauth
    have hmark : outcome.mark registry = registry := by
      unfold TransportOutcome.mark
      split
      · exact absurd rfl (hflood _ _ _)
      · exact absurd rfl (hauth _ _ _)
      · rfl
    rw [hmark]
    exact .same _

theorem rewrites_host {s : System} {z : HostAction} {e : HostEffect}
    (he : (s.workers w).step w s.published s.db z = some e) :
    Mark.Rewrites (z.mark (s.workers w) acc) ((s.workers w).registry acc)
      (e.worker.registry acc) := by
  cases Worker.stepped_of_step he with
  | assignConnect b g hassigning =>
    simp only [HostAction.mark, hassigning]
    by_cases hb : b.accountId = acc
    · subst hb
      simpa using .connected _ { accountId := b.accountId, generation := g, sendState := .sendable } rfl
    · rw [if_neg hb]
      exact .of_eq (LiveRegistry.register_of_ne (Ne.symm hb))
  | renew b now hosted row ok _ _ _ => cases ok <;> exact .of_eq rfl
  | release b _ _ =>
    by_cases hb : acc = b
    · subst hb
      simpa [Worker.release] using .dropped _
    · exact .of_eq (LiveRegistry.drop_of_ne hb)
  | pause b _ =>
    simp only [HostAction.mark]
    by_cases hb : b = acc
    · subst hb
      simpa [LiveRegistry.markPaused] using .paused _
    · rw [if_neg hb]
      exact .of_eq (LiveRegistry.modify_of_ne (Ne.symm hb))
  | resume b _ =>
    simp only [HostAction.mark]
    by_cases hb : b = acc
    · subst hb
      simpa [LiveRegistry.markResumed] using .resumed _
    · rw [if_neg hb]
      exact .of_eq (LiveRegistry.modify_of_ne (Ne.symm hb))
  | _ => exact .of_eq rfl

theorem rewrites_of_step {s s' : System} (h : s.step a = some s') :
    Mark.Rewrites (a.mark w acc s) ((s.workers w).registry acc) ((s'.workers w).registry acc) := by
  cases a with
  | host w' z =>
    obtain ⟨e, he, rfl⟩ := System.step_host_eq_some h
    by_cases hw : w' = w
    · subst hw
      simpa [Action.mark, System.afterHost] using rewrites_host he
    · simpa [Action.mark, System.afterHost, hw, Ne.symm hw] using .same _
  | runner w' b z =>
    obtain ⟨r, e, hr, he, rfl⟩ := System.step_runner_eq_some h
    by_cases hw : w' = w
    · subst hw
      cases z with
      | finish outcome =>
        simpa [Action.mark, System.afterRunner, System.workerAfter, Worker.observe] using
          rewrites_finish outcome _
      | _ => simpa [Action.mark, System.afterRunner] using .of_eq rfl
    · cases z <;> simpa [Action.mark, System.afterRunner, hw, Ne.symm hw] using .same _
  | crash w' =>
    obtain rfl := Option.some.inj h
    by_cases hw : w' = w
    · subst hw
      simpa [Action.mark] using .restarted _
    · simpa [Action.mark, hw, Ne.symm hw] using .same _
  | _ =>
    rcases System.step_workers h w with hsame | ⟨_, _, _, _, ha, _⟩ | ⟨_, _, ha, _⟩ | ⟨ha, _⟩
    · rw [hsame]
      exact .same _
    · cases ha
    · cases ha
    · cases ha

/-- Where the state a runner holds before its call comes from. -/
theorem Runner.read_step {d : RunnerDeps} {db : Database} {r : Runner} {z : RunnerAction}
    {e : RunnerEffect} {h : Holding} (he : r.step d w acc db z = some e)
    (hread : e.runner.pc.read = some h) :
    (r.pc.read = some h ∧ ∀ outcome, z ≠ .finish outcome) ∨
      (∃ now, z = .gate now) ∧ h.live = d.live acc := by
  cases stepped_of_step he with
  | gate now id job held _ _ hhold =>
    obtain rfl := Option.some.inj hread
    exact Or.inr ⟨⟨now, rfl⟩, (System.hold_eq_some hhold).2.2.1⟩
  | settle now clock draw held decision hpc =>
    obtain ⟨_, _, hsettled⟩ := settleGate_eq d db r held decision now clock draw
    rw [hsettled] at hread
    by_cases hallow : decision = .allow
    · simp only [hallow, if_true, RunnerPc.read] at hread
      exact Or.inl ⟨by simpa [hpc, RunnerPc.read] using hread, by simp⟩
    · simp [hallow, RunnerPc.read] at hread
  | lookup order held targetIds hpc =>
    exact Or.inl ⟨by simpa [hpc, RunnerPc.read] using hread, by simp⟩
  | execute now held targetIds hpc =>
    rcases startCall_cases d w acc db r held targetIds now with ⟨_, _, hcall⟩ | ⟨_, _, hcall⟩
    · rw [hcall] at hread
      cases hread
    · rw [hcall] at hread
      cases hread
  | record now clock draw raises held called result _ =>
    obtain ⟨_, ⟨_, _, hafter⟩ | ⟨_, hafter⟩⟩ := recordOutcome_cases d db r held result now clock draw
      raises
    · rw [hafter] at hread
      cases hread
    · rw [hafter] at hread
      cases hread
  | _ => cases hread

structure Respected (w : WorkerId) (acc : AccountId) (x : System × Marks) : Prop where
  row : ∀ l, (x.1.workers w).registry acc = some l → l.Respects x.2
  read : ∀ r h, (x.1.workers w).runners acc = some r → r.pc.read = some h → h.live.Respects x.2

theorem crash_of_mark_restarted {s : System} (h : a.mark w acc s = some .restarted) :
    a = .crash w := by
  unfold Action.mark at h
  split at h
  · rename_i w' z
    split_ifs at h
    cases z <;> simp only [HostAction.mark] at h <;> (try split at h) <;> (try split_ifs at h) <;>
      cases h
  · split_ifs at h
    unfold TransportOutcome.markOn at h
    split at h <;> (try split_ifs at h) <;> cases h
  · split_ifs at h with hw
    rw [hw]
  · cases h

theorem respected_step (h : stepWithMarks w acc x a = some y) (hguard : MarksStand w acc x a y)
    (hx : Respected w acc x) : Respected w acc y := by
  obtain ⟨hstep, hmarks⟩ := Machine.recorded_eq_some.mp h
  have hkept : ∀ r held, (x.1.workers w).runners acc = some r → r.pc.read = some held →
      a ≠ .crash w → held.live.Respects y.2 := by
    intro r held hr hread hcrash
    rw [hmarks]
    refine (@LiveAccount.Respects.kept _ _ _ (((x.1.workers w).registry acc).isSome = true)
      (hx.read r held hr hread) ?_ ?_).read _
    · intro k hk
      have hallowed := hguard.mark k hk
      have hreading : (x.1.workers w).Reading acc := by simp [Worker.Reading, hr, hread]
      rwa [eq_true hreading] at hallowed
    · exact fun hrestart => hcrash (crash_of_mark_restarted hrestart)
  constructor
  · intro l hl
    rw [hmarks]
    exact (LiveAccount.respects_of_rewrites (rewrites_of_step hstep) hx.row hguard.mark l hl).read _
  · intro r' held hr' hread
    have hcrash : a ≠ .crash w := by
      rintro rfl
      obtain hs' := Option.some.inj hstep
      simp [← hs', Worker.start] at hr'
    rcases System.step_runner_cases hstep hr' with hsame | ⟨z, r, e, rfl, hr, he, rfl, _⟩ |
      ⟨_, g, _, _, _, rfl⟩
    · exact hkept r' held hsame hread hcrash
    · rcases Runner.read_step he hread with ⟨hold, _⟩ | ⟨⟨now, rfl⟩, hlive⟩
      · exact hkept r held hr hold hcrash
      · rw [hmarks]
        refine LiveAccount.Respects.read ?_ _
        simp only [Action.mark, Marks.add]
        rw [hlive]
        cases hrow : (x.1.workers w).registry acc with
        | none => exact Or.inl (Or.inr (by simp [Worker.deps, LiveRegistry.get, hrow]))
        | some l =>
          rw [show (x.1.workers w).deps.live acc = l from LiveRegistry.get_of_some hrow]
          exact hx.row l hrow
    · cases hread

theorem allow_of_dispatch {kind : PlanKind} {decision : Decision} {targetIds : List ℤ}
    {request : TransportRequest} (h : dispatch kind decision targetIds = .call request) :
    decision = .allow := by
  by_contra hne
  simp [dispatch, hne] at h

theorem startsAllowed_of_respected (h : stepWithMarks w acc x a = some y)
    (hguard : MarksStand w acc x a y) (hx : Respected w acc x) : StartsAllowed w acc x a y := by
  obtain ⟨hstep, _⟩ := Machine.recorded_eq_some.mp h
  rintro call hhistory rfl rfl
  rcases System.step_event hstep with hsame | ⟨ev, hsnoc, hstarted, _⟩
  · rw [hsame] at hhistory
    simp at hhistory
  · obtain rfl : ev = .started call := by simpa [hsnoc] using hhistory
    obtain ⟨now, r, held, targetIds, rfl, hr, hpc, hdispatch, _⟩ := (hstarted call rfl).executes
    have hcleared := check_eq_allow.mp (allow_of_dispatch hdispatch)
    have hread : r.pc.read = some held := by rw [hpc]; rfl
    exact ⟨now, rfl, (hx.read r held hr hread).cleared hcleared (hguard.clock now rfl)⟩

/-- In a run in which no mark overwrites one that still stands, each call starts with its account
neither paused nor dead and every flood deadline over. -/
theorem calls_respect_marks (config : WorkerId → WorkerConfig) (w : WorkerId) (acc : AccountId)
    (as : List Action)
    (hguard : Machine.Always (stepWithMarks w acc) (MarksStand w acc) (.start config, {}) as) :
    Machine.Always (stepWithMarks w acc) (StartsAllowed w acc) (.start config, {}) as := by
  refine hguard.of_invariant (I := Respected w acc) ?_ ?_ ?_
  · intro x a y h hg hx
    exact respected_step h hg hx
  · intro x a y h hg hx
    exact startsAllowed_of_respected h hg hx
  · constructor
    · intro l hl
      cases hl
    · intro r held hr
      cases hr

/-- `MarksStand` as a test. -/
def marksStand (w : WorkerId) (acc : AccountId) (x : System × Marks) (a : Action)
    (_ : System × Marks) : Bool :=
  (a.mark w acc x.1).all (fun k =>
    k.Allowed x.2 (((x.1.workers w).registry acc).isSome) ((x.1.workers w).Reading acc)) &&
  match a with
  | .runner _ _ (.execute now) => x.2.clock.all (· ≤ now)
  | _ => true

theorem marksStand_spec (x : System × Marks) (a : Action) (y : System × Marks)
    (h : marksStand w acc x a y = true) : MarksStand w acc x a y := by
  obtain ⟨hmark, hclock⟩ := Bool.and_eq_true_iff.mp h
  constructor
  · intro k hk
    simpa [hk] using hmark
  · rintro now rfl t ht
    simpa [ht] using hclock

/-- The first send of the reply meets a flood wait; the second one is made when it is over. -/
def calledAfterFlood : List Action :=
  queuedReply ++ claimSteps "w1" "A" [0] 1 ++ callSteps "w1" "A" 2 ++
    returnSteps "w1" "A" (.error .floodWait "" (some 5) (some "A")) 3 ++
    claimSteps "w1" "A" [0] 6 ++ callSteps "w1" "A" 7

theorem calls_respect_marks_after_flood :
    Machine.Always (stepWithMarks "w1" "A") (StartsAllowed "w1" "A") (.start fun _ => {}, {})
      calledAfterFlood :=
  calls_respect_marks _ _ _ _ (Machine.always_of_checkRun marksStand_spec (by decide +kernel))

def calledAfterReassignment : List Action :=
  queuedReply ++ [.host "w1" (.pause "A"), .host "w1" (.release "A")] ++
    assignSteps "w1" { accountId := "A", tenantId := "t", projectId := "p" } 1 ++
    claimSteps "w1" "A" [0] 2 ++
    [.runner "w1" "A" (.gate 3), .runner "w1" "A" (.settle 3 3 0),
      .runner "w1" "A" (.lookup [])]

/-- Registering the account again forgets the operator's pause. -/
theorem reassignment_forgets_pause : ¬ ∀ (config : WorkerId → WorkerConfig) (w : WorkerId)
    (acc : AccountId) (as : List Action),
    Machine.Always (stepWithMarks w acc) (StartsAllowed w acc) (.start config, {}) as := by
  intro h
  have hobserved : ((Machine.run (stepWithMarks "w1" "A") (.start fun _ => {}, {})
      calledAfterReassignment).bind fun x =>
        (stepWithMarks "w1" "A" x (.runner "w1" "A" (.execute 4))).map fun y =>
          (y.1.history = x.1.history ++ [.started (replyCall "w1" 1 1)] : Bool) && x.2.paused) =
      some true := by
    decide +kernel
  obtain ⟨x, y, hrun, hstep, hy⟩ :=
    Machine.exists_of_observed (f := fun (x y : System × Marks) => _) hobserved
  simp only [Bool.and_eq_true, decide_eq_true_eq] at hy
  refine Machine.not_always_of_step hrun hstep ?_ (h _ _ _ _)
  intro hstarts
  obtain ⟨_, _, hpaused, _⟩ := hstarts _ hy.1 rfl rfl
  rw [hy.2] at hpaused
  cases hpaused

end TgPlatform
