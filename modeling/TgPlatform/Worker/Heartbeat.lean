import TgPlatform.Lib.Machine

/-! # The heartbeat of a lease

A heartbeat renews the lease of an account until a renewal fails, which it
reports, or until it is stopped. It waits for each renewal and between them, so
that it may be stopped, or its task cancelled, at any of these points.
-/

namespace TgPlatform

/-- `HeartbeatState`. -/
inductive HeartbeatState | idle | running | lost | stopped
  deriving DecidableEq, Repr

/-- Where the task of `run` waits. -/
inductive HeartbeatPoint | created | renewing | sleeping | ended
  deriving DecidableEq, Repr

/-- What comes of a renewal: an exception has the name of its type. -/
inductive Renewal
  | ok
  | refused
  | raised (exception : String)
  deriving DecidableEq, Repr

def Renewal.lossReason : Renewal → Option String
  | .ok => none
  | .refused => some "lease_lost"
  | .raised exception => some ("renew_error:" ++ exception)

/-- `LeaseHeartbeat`, with the task of its `run` and the calls of `on_lost`. -/
structure Heartbeat where
  state : HeartbeatState := .idle
  renewCount : ℕ := 0
  point : HeartbeatPoint := .created
  reports : List String := []
  deriving DecidableEq, Repr

namespace Heartbeat

/-- `tick`, once the renewal is there, and the loop of `run` up to its next wait. -/
def tick (hb : Heartbeat) (renewal : Renewal) : Heartbeat :=
  match renewal.lossReason with
  | none => { hb with renewCount := hb.renewCount + 1, point := .sleeping }
  | some reason => { hb with state := .lost, reports := hb.reports ++ [reason], point := .ended }

/-- `stop`. -/
def stop (hb : Heartbeat) : Heartbeat :=
  { hb with state := if hb.state = .running then .stopped else hb.state }

/-- What happens to a heartbeat: its task goes on or is cancelled, and others call `stop`. -/
inductive Action
  | start
  | renewed (renewal : Renewal)
  | slept
  | cancelled
  | stop
  deriving DecidableEq, Repr

def step (hb : Heartbeat) : Action → Option Heartbeat
  | .start =>
    if hb.point = .created then some { hb with state := .running, point := .renewing } else none
  | .renewed renewal => if hb.point = .renewing then some (hb.tick renewal) else none
  | .slept =>
    if hb.point = .sleeping then
      some { hb with point := if hb.state = .running then .renewing else .ended }
    else none
  -- a cancellation is no `Exception`, so that `tick` lets it through
  | .cancelled => if hb.point = .ended then none else some { hb with point := .ended }
  | .stop => some hb.stop

def Action.fails : Action → Bool
  | .renewed renewal => renewal.lossReason.isSome
  | _ => false

/-- What holds at any time: before its task has started a heartbeat is idle, and it reports once,
when it is lost and its task has ended. -/
structure Sound (hb : Heartbeat) : Prop where
  idle : hb.point = .created → hb.state = .idle
  once : hb.reports.length ≤ 1
  ended : hb.reports ≠ [] → hb.point = .ended

variable {hb hb' : Heartbeat} {a : Action} {as : List Action} {renewal : Renewal}

theorem step_cases (h : hb.step a = some hb') :
    a.fails = false ∧ hb'.reports = hb.reports ∧
      (a ≠ .start → hb.state = .stopped → hb'.state = .stopped) ∧
        (hb.point = .ended → hb'.point = .ended) ∨
    ∃ reason, hb.point = .renewing ∧ a.fails = true ∧
      hb' = { hb with state := .lost, reports := hb.reports ++ [reason], point := .ended } := by
  cases a with
  | start =>
    obtain ⟨hpoint, heq⟩ := Option.ite_none_right_eq_some.mp h
    obtain rfl := Option.some.inj heq
    exact .inl ⟨rfl, rfl, fun hne => absurd rfl hne, fun hended => by simp [hpoint] at hended⟩
  | renewed renewal =>
    obtain ⟨hpoint, heq⟩ := Option.ite_none_right_eq_some.mp h
    obtain rfl := Option.some.inj heq
    unfold tick
    cases hloss : renewal.lossReason with
    | none =>
      refine .inl ⟨by simp [Action.fails, hloss], rfl, fun _ h => h, fun hended => ?_⟩
      simp [hpoint] at hended
    | some reason => exact .inr ⟨reason, hpoint, by simp [Action.fails, hloss], rfl⟩
  | slept =>
    obtain ⟨hpoint, heq⟩ := Option.ite_none_right_eq_some.mp h
    obtain rfl := Option.some.inj heq
    exact .inl ⟨rfl, rfl, fun _ h => h, fun hended => by simp [hpoint] at hended⟩
  | cancelled =>
    obtain ⟨-, heq⟩ := Option.ite_none_left_eq_some.mp h
    obtain rfl := Option.some.inj heq
    exact .inl ⟨rfl, rfl, fun _ h => h, fun _ => rfl⟩
  | stop =>
    cases h
    refine .inl ⟨rfl, rfl, fun _ hstopped => ?_, fun h => h⟩
    simp [stop, hstopped]

theorem sound_new : Sound {} where
  idle _ := rfl
  once := Nat.zero_le 1
  ended h := absurd rfl h

theorem step_idle (h : hb.step a = some hb') (hs : hb.Sound) :
    hb'.point = .created → hb'.state = .idle := by
  cases a with
  | start =>
    obtain rfl := Option.some.inj (Option.ite_none_right_eq_some.mp h).2
    exact fun hcreated => by simp at hcreated
  | renewed renewal =>
    obtain rfl := Option.some.inj (Option.ite_none_right_eq_some.mp h).2
    unfold tick
    split <;> simp
  | slept =>
    obtain rfl := Option.some.inj (Option.ite_none_right_eq_some.mp h).2
    dsimp only
    split <;> simp
  | cancelled =>
    obtain rfl := Option.some.inj (Option.ite_none_left_eq_some.mp h).2
    exact fun hcreated => by simp at hcreated
  | stop =>
    cases h
    intro hcreated
    simp [stop, hs.idle hcreated]

theorem step_sound (h : hb.step a = some hb') (hs : hb.Sound) : hb'.Sound := by
  rcases step_cases h with ⟨-, hreports, -, hended⟩ | ⟨reason, hpoint, -, rfl⟩
  · exact ⟨step_idle h hs, by rw [hreports]; exact hs.once,
      fun hne => hended (hs.ended (by rwa [← hreports]))⟩
  · have hnone : hb.reports = [] := by
      by_contra hne
      have hended := hs.ended hne
      simp [hpoint] at hended
    exact ⟨step_idle h hs, by simp [hnone], fun _ => rfl⟩

abbrev run : Heartbeat → List Action → Option Heartbeat := Machine.run step

theorem run_split {pre post : List Action} {mid : Heartbeat} (h : run hb (pre ++ post) = some hb')
    (hpre : run hb pre = some mid) : run mid post = some hb' :=
  (Machine.run_append_of_eq hpre).symm.trans h

theorem run_sound (h : run hb as = some hb') (hs : hb.Sound) : hb'.Sound :=
  Machine.run_invariant (fun _ _ _ => step_sound) h hs

theorem run_quiet : ∀ {as : List Action} {hb : Heartbeat}, run hb as = some hb' → hb.Sound →
    (∀ a ∈ as, a.fails = false) →
      hb'.reports = hb.reports ∧ (hb.state = .stopped → hb'.state = .stopped)
  | [], hb, h, _, _ => by
    obtain rfl := Option.some.inj h
    exact ⟨rfl, id⟩
  | a :: as, hb, h, hs, hquiet => by
    obtain ⟨next, hstep, h⟩ := Machine.run_cons_eq_some.mp h
    rw [List.forall_mem_cons] at hquiet
    obtain ⟨hreports, hstopped⟩ := run_quiet h (step_sound hstep hs) hquiet.2
    rcases step_cases hstep with ⟨-, hsame, hstays, -⟩ | ⟨reason, -, hfails, -⟩
    · refine ⟨hreports.trans hsame, fun hstate => hstopped (hstays ?_ hstate)⟩
      rintro rfl
      have hcreated := (Option.ite_none_right_eq_some.mp hstep).1
      rw [hs.idle hcreated] at hstate
      cases hstate
    · rw [hquiet.1] at hfails
      cases hfails

theorem run_ended : ∀ {as : List Action} {hb : Heartbeat}, run hb as = some hb' →
    hb.point = .ended → hb'.reports = hb.reports
  | [], hb, h, _ => by
    obtain rfl := Option.some.inj h
    rfl
  | a :: as, hb, h, hended => by
    obtain ⟨next, hstep, h⟩ := Machine.run_cons_eq_some.mp h
    rcases step_cases hstep with ⟨-, hreports, -, hstays⟩ | ⟨reason, hpoint, -, -⟩
    · exact (run_ended h (hstays hended)).trans hreports
    · simp [hpoint] at hended

theorem run_failed (h : run hb (a :: as) = some hb') (hs : hb.Sound) (hfails : a.fails = true) :
    hb.reports = [] ∧ ∃ reason, hb'.reports = [reason] := by
  obtain ⟨next, hstep, h⟩ := Machine.run_cons_eq_some.mp h
  rcases step_cases hstep with ⟨hnot, -, -, -⟩ | ⟨reason, hpoint, -, rfl⟩
  · rw [hnot] at hfails
    cases hfails
  · have hnone : hb.reports = [] := by
      by_contra hne
      have hended := hs.ended hne
      simp [hpoint] at hended
    refine ⟨hnone, reason, ?_⟩
    rw [run_ended h rfl]
    simp [hnone]

structure ReportsLoss (as : List Action) (last : Heartbeat) : Prop where
  once : last.reports.length ≤ 1
  reported : ∀ pre a post hb, as = pre ++ a :: post → run {} pre = some hb → hb.state = .running →
    a.fails = true → last.reports.length = 1
  quiet : ∀ pre post hb, as = pre ++ .stop :: post → run {} pre = some hb →
    last.reports = hb.reports ∧ (hb.stop.state = .stopped → last.state = .stopped)

/-- **Reporting a loss.** A heartbeat reports its loss exactly once, and nothing after a stop, exactly
if no renewal fails after `stop` was called. -/
theorem reportsLoss_iff {last : Heartbeat} (hrun : run {} as = some last) :
    ReportsLoss as last ↔
      ∀ pre a post, as = pre ++ a :: post → a.fails = true → Action.stop ∉ pre := by
  constructor
  · rintro h pre a post rfl hfails hstop
    obtain ⟨before, between, rfl⟩ := List.append_of_mem hstop
    rw [List.append_assoc, List.cons_append] at hrun h
    obtain ⟨hb, hbefore, hafter⟩ := Machine.run_append_eq_some.mp hrun
    obtain ⟨hsame, -⟩ := h.quiet before _ hb rfl hbefore
    rw [← List.cons_append] at hafter
    obtain ⟨mid, hbetween, hfailed⟩ := Machine.run_append_eq_some.mp hafter
    have hs := run_sound hbefore sound_new
    obtain ⟨hnone, reason, hreason⟩ := run_failed hfailed (run_sound hbetween hs) hfails
    -- what was reported at the stop is the failure that comes after it
    have hended : hb.point = .ended := hs.ended (by rw [← hsame, hreason]; exact List.cons_ne_nil _ _)
    rw [← run_ended hbetween hended, hnone] at hsame
    rw [hreason] at hsame
    cases hsame
  · intro h
    have hlast := run_sound hrun sound_new
    refine ⟨hlast.once, ?_, ?_⟩
    · rintro pre a post hb rfl hpre - hfails
      obtain ⟨-, reason, hreports⟩ := run_failed (run_split hrun hpre) (run_sound hpre sound_new) hfails
      rw [hreports]
      rfl
    · rintro pre post hb rfl hpre
      obtain ⟨next, hstep, hrun⟩ := Machine.run_cons_eq_some.mp (run_split hrun hpre)
      obtain rfl := Option.some.inj hstep
      refine run_quiet hrun (step_sound hstep (run_sound hpre sound_new)) fun a ha => ?_
      obtain ⟨l, r, rfl⟩ := List.append_of_mem ha
      cases hfails : a.fails with
      | false => rfl
      | true => exact absurd (by simp) (h (pre ++ .stop :: l) a r (by simp) hfails)

/-- A renewal that is refused after it was asked for and the heartbeat stopped. -/
theorem late_refusal_is_reported : ∃ last,
    run {} [.start, .stop, .renewed .refused] = some last ∧
      ¬ ReportsLoss [.start, .stop, .renewed .refused] last := by
  refine ⟨_, rfl, fun h => ?_⟩
  have hquiet := (h.quiet [.start] [.renewed .refused] _ rfl rfl).1
  simp [tick, stop, Renewal.lossReason] at hquiet

theorem refusal_is_reported :
    ReportsLoss [.start, .renewed .ok, .slept, .renewed .refused]
      ⟨.lost, 1, .ended, ["lease_lost"]⟩ := by
  refine (reportsLoss_iff rfl).mpr ?_
  intro pre a post h _ hstop
  have hmem : Action.stop ∈ [.start, .renewed .ok, .slept, .renewed .refused] := by
    rw [h]
    exact List.mem_append_left _ hstop
  simp at hmem

/-- `_release` stops a heartbeat and cancels its task, which keeps it from reporting. -/
theorem release_is_quiet (h : run hb (.stop :: .cancelled :: as) = some hb') :
    hb'.reports = hb.reports := by
  obtain ⟨stopped, hstop, h⟩ := Machine.run_cons_eq_some.mp h
  obtain ⟨ended, hcancelled, h⟩ := Machine.run_cons_eq_some.mp h
  obtain rfl := Option.some.inj hstop
  obtain rfl := Option.some.inj (Option.ite_none_left_eq_some.mp hcancelled).2
  have hsame := run_ended h rfl
  exact hsame

end Heartbeat

end TgPlatform
