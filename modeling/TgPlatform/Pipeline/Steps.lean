import TgPlatform.Pipeline.Projection

/-! # Steps of the system

What one step does to the processes, the runners, the inbox and the history,
whichever party makes it.
-/

namespace TgPlatform

namespace System

variable {s s' : System} {a : Action} {w : WorkerId} {acc : AccountId}

/-- The workers after a step: at most one process has changed, by a step of its own. -/
theorem step_workers (h : s.step a = some s') (w : WorkerId) :
    s'.workers w = s.workers w ∨
      (∃ acc x r e, a = .runner w acc x ∧ (s.workers w).runners acc = some r ∧
        r.step (s.workers w).deps w acc s.db x = some e ∧
        s'.workers w = workerAfter (s.workers w) acc x e.runner) ∨
      (∃ x e, a = .host w x ∧ (s.workers w).step w s.published s.db x = some e ∧
        s'.workers w = e.worker) ∨
      (a = .crash w ∧ s'.workers w = .start (s.workers w).config) := by
  cases a with
  | runner w' acc x =>
    obtain ⟨r, e, hr, he, rfl⟩ := step_runner_eq_some h
    by_cases hw : w = w'
    · subst hw
      exact Or.inr (Or.inl ⟨acc, x, r, e, rfl, hr, he, by simp [afterRunner]⟩)
    · exact Or.inl (by simp [afterRunner, hw])
  | host w' x =>
    obtain ⟨e, he, rfl⟩ := step_host_eq_some h
    by_cases hw : w = w'
    · subst hw
      exact Or.inr (Or.inr (Or.inl ⟨x, e, rfl, he, by simp [afterHost]⟩))
    · exact Or.inl (by simp [afterHost, hw])
  | crash w' =>
    obtain rfl := Option.some.inj h
    by_cases hw : w = w'
    · subst hw
      exact Or.inr (Or.inr (Or.inr ⟨rfl, by simp⟩))
    · exact Or.inl (by simp [hw])
  | ingestRead w' acc raw pyHash =>
    obtain ⟨x, _, rfl⟩ := Option.map_eq_some_iff.mp h
    exact Or.inl rfl
  | ingestCommit k =>
    obtain ⟨c, _, rfl⟩ := Option.map_eq_some_iff.mp h
    rcases commitIngest_cases (s := { s with ingests := s.ingests.eraseIdx k }) c with
      hsame | ⟨db, _, hcommit⟩
    · exact Or.inl (by rw [hsame])
    · exact Or.inl (by rw [hcommit])
  | publish acc rows =>
    obtain rfl := Option.some.inj h
    exact Or.inl rfl
  | enqueue reply now =>
    simp only [step] at h
    split at h
    · cases h
    · obtain rfl := Option.some.inj h
      exact Or.inl rfl
  | operatorRead call i =>
    obtain ⟨job, _, h⟩ := Option.bind_eq_some_iff.mp h
    split at h
    · obtain rfl := Option.some.inj h
      exact Or.inl rfl
    · cases h
  | operatorWrite k =>
    obtain ⟨q, _, rfl⟩ := Option.map_eq_some_iff.mp h
    exact Or.inl rfl

theorem step_runner_cases (h : s.step a = some s') {r' : Runner}
    (hr' : (s'.workers w).runners acc = some r') :
    (s.workers w).runners acc = some r' ∨
      (∃ x r e, a = .runner w acc x ∧ (s.workers w).runners acc = some r ∧
        r.step (s.workers w).deps w acc s.db x = some e ∧ r' = e.runner ∧ s'.db = e.db) ∨
      ∃ x g, a = .host w .assignDone ∧ (s.workers w).assigning = some ⟨x, .connected g⟩ ∧
        x.accountId = acc ∧ r' = { generation := g } := by
  rcases step_workers h w with hsame | ⟨acc', x, r, e, rfl, hr, he, hw⟩ |
    ⟨x, e, rfl, he, hw⟩ | ⟨_, hw⟩
  · exact Or.inl (by rwa [hsame] at hr')
  · rw [hw, workerAfter_runners] at hr'
    by_cases hacc : acc = acc'
    · subst hacc
      rw [Function.update_self] at hr'
      obtain ⟨r₀, e₀, hr₀, he₀, rfl⟩ := step_runner_eq_some h
      obtain rfl : r₀ = r := Option.some.inj (hr₀.symm.trans hr)
      obtain rfl : e₀ = e := Option.some.inj (he₀.symm.trans he)
      exact Or.inr (Or.inl ⟨x, _, _, rfl, hr, he, (Option.some.inj hr').symm, rfl⟩)
    · rw [Function.update_of_ne hacc] at hr'
      exact Or.inl hr'
  · rw [hw] at hr'
    rcases host_step_cases he with hquiet | ⟨i, src, now, rfl, _, _, hworker, _⟩
    · rcases hquiet.runners acc with hsame | ⟨_, _, hnone⟩ | ⟨rfl, x, g, hassigning, hacc, hnew⟩
      · exact Or.inl (by rwa [hsame] at hr')
      · rw [hnone] at hr'
        cases hr'
      · rw [hnew] at hr'
        exact Or.inr (Or.inr ⟨x, g, rfl, hassigning, hacc, (Option.some.inj hr').symm⟩)
    · exact Or.inl (by rwa [hworker] at hr')
  · rw [hw] at hr'
    cases hr'

theorem step_published (h : s.step a = some s') : s'.published = s.published ∨
    ∃ acc rows, a = .publish acc rows ∧ s'.published = Function.update s.published acc rows := by
  cases a with
  | runner w acc x =>
    obtain ⟨r, e, _, _, rfl⟩ := step_runner_eq_some h
    exact Or.inl rfl
  | host w x =>
    obtain ⟨e, _, rfl⟩ := step_host_eq_some h
    exact Or.inl rfl
  | crash w =>
    obtain rfl := Option.some.inj h
    exact Or.inl rfl
  | ingestRead w acc raw pyHash =>
    obtain ⟨x, _, rfl⟩ := Option.map_eq_some_iff.mp h
    exact Or.inl rfl
  | ingestCommit k =>
    obtain ⟨c, _, rfl⟩ := Option.map_eq_some_iff.mp h
    rcases commitIngest_cases (s := { s with ingests := s.ingests.eraseIdx k }) c with
      hsame | ⟨db, _, hcommit⟩
    · exact Or.inl (by rw [hsame])
    · exact Or.inl (by rw [hcommit])
  | publish acc rows =>
    obtain rfl := Option.some.inj h
    exact Or.inr ⟨acc, rows, rfl, rfl⟩
  | enqueue reply now =>
    simp only [step] at h
    split at h <;> cases h
    exact Or.inl rfl
  | operatorRead call i =>
    obtain ⟨job, _, h⟩ := Option.bind_eq_some_iff.mp h
    split at h <;> cases h
    exact Or.inl rfl
  | operatorWrite k =>
    obtain ⟨q, _, rfl⟩ := Option.map_eq_some_iff.mp h
    exact Or.inl rfl

theorem step_config (h : s.step a = some s') (w : WorkerId) :
    (s'.workers w).config = (s.workers w).config := by
  rcases step_workers h w with hsame | ⟨acc, x, r, e, _, _, _, hw⟩ | ⟨x, e, _, he, hw⟩ | ⟨_, hw⟩
  · rw [hsame]
  · rw [hw]
    cases x <;> rfl
  · rw [hw]
    cases Worker.stepped_of_step he with
    | renew acc now hosted row ok _ _ _ => cases ok <;> rfl
    | _ => rfl
  · rw [hw]
    rfl

structure StartedBy (s : System) (a : Action) (call : Call) : Prop where
  executes : ∃ now r h targetIds, a = .runner call.workerId call.accountId (.execute now) ∧
    (s.workers call.workerId).runners call.accountId = some r ∧
    r.pc = .executing h targetIds ∧
    dispatch h.plan.kind (h.decide r.generation (s.workers call.workerId).deps.policy now)
      targetIds = .call call.request ∧
    call = h.call call.workerId call.accountId r.generation call.request

/-- A step adds at most one event: a started call only by an executor's step, an ingested event
only by the commit of an ingest. -/
theorem step_event (h : s.step a = some s') : s'.history = s.history ∨
    ∃ ev, s'.history = s.history ++ [ev] ∧ (∀ call, ev = .started call → StartedBy s a call) ∧
      ∀ tenantId projectId event, ev = .ingested tenantId projectId event →
        ∃ k, a = .ingestCommit k := by
  cases a with
  | runner w acc x =>
    obtain ⟨r, e, hr, he, rfl⟩ := step_runner_eq_some h
    have hquiet : e.events = [] → (s.afterRunner w acc x e).history = s.history := by
      intro hnil
      simp [afterRunner, hnil]
    cases Runner.stepped_of_step he with
    | settle now clock draw held decision _ =>
      obtain ⟨_, _, hsettled⟩ :=
        Runner.settleGate_eq (s.workers w).deps s.db r held decision now clock draw
      exact Or.inl (hquiet (by rw [hsettled]))
    | execute now held targetIds hpc =>
      rcases Runner.startCall_cases (s.workers w).deps w acc s.db r held targetIds now with
        ⟨request, hdispatch, hcall⟩ | ⟨_, _, hcall⟩
      · refine Or.inr ⟨.started (held.call w acc r.generation request), ?_, ?_⟩
        · simp [afterRunner, hcall]
        · refine ⟨?_, by simp⟩
          rintro _ hstarted
          obtain rfl := Event.started.inj hstarted
          exact ⟨now, r, held, targetIds, rfl, hr, hpc, hdispatch, rfl⟩
      · exact Or.inl (hquiet (by rw [hcall]))
    | finish outcome held targetIds request _ => exact Or.inr ⟨_, rfl, by simp, by simp⟩
    | record now clock draw raises held called result _ =>
      obtain ⟨_, ⟨_, _, hafter⟩ | ⟨_, hafter⟩⟩ := Runner.recordOutcome_cases (s.workers w).deps s.db
        r held result now clock draw raises
      · exact Or.inr ⟨_, by rw [hafter]; rfl, by simp, by simp⟩
      · exact Or.inl (hquiet (by rw [hafter]))
    | _ => exact Or.inl (hquiet rfl)
  | host w x =>
    obtain ⟨e, he, rfl⟩ := step_host_eq_some h
    cases Worker.stepped_of_step he with
    | assignWrite x read row generation _ _ => exact Or.inr ⟨_, rfl, by simp, by simp⟩
    | renew acc now hosted row ok _ _ _ => exact Or.inr ⟨_, rfl, by simp, by simp⟩
    | _ => exact Or.inl (by simp [afterHost])
  | crash w =>
    obtain rfl := Option.some.inj h
    exact Or.inl rfl
  | ingestRead w acc raw pyHash =>
    obtain ⟨x, _, rfl⟩ := Option.map_eq_some_iff.mp h
    exact Or.inl rfl
  | ingestCommit k =>
    obtain ⟨c, _, rfl⟩ := Option.map_eq_some_iff.mp h
    rcases commitIngest_cases (s := { s with ingests := s.ingests.eraseIdx k }) c with
      hsame | ⟨db, _, hcommit⟩
    · exact Or.inl (by rw [hsame])
    · exact Or.inr ⟨_, by rw [hcommit], by simp, fun _ _ _ _ => ⟨k, rfl⟩⟩
  | publish acc rows =>
    obtain rfl := Option.some.inj h
    exact Or.inl rfl
  | enqueue reply now =>
    simp only [step] at h
    split at h <;> cases h
    exact Or.inl rfl
  | operatorRead call i =>
    obtain ⟨job, _, h⟩ := Option.bind_eq_some_iff.mp h
    split at h <;> cases h
    exact Or.inl rfl
  | operatorWrite k =>
    obtain ⟨q, _, rfl⟩ := Option.map_eq_some_iff.mp h
    exact Or.inl rfl

theorem step_history (h : s.step a = some s') : ∃ events, s'.history = s.history ++ events := by
  rcases step_event h with hsame | ⟨ev, hsnoc, _⟩
  · exact ⟨[], by simp [hsame]⟩
  · exact ⟨[ev], hsnoc⟩

end System

end TgPlatform
