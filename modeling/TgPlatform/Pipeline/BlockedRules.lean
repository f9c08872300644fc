import TgPlatform.Pipeline.Steps

/-! # The rules a process blocks

A refresh blocks the rules that its account's pull has lost since the last one.
It looks at one account only, and a release forgets what the account had
pulled. The blocked rules are the stopped ones exactly as long as no rule
changes hands between hosted accounts and none is lost while forgotten.
-/

namespace TgPlatform

/-- The rules of each account's latest pull by one process. -/
abbrev Pulls := AccountId → List RuleId

def ruleIds (rows : List PublishedRule) : List RuleId := rows.map PublishedRule.ruleId

/-- A row of the rule has a target, so that a snapshot carries its id. -/
def Routed (rows : List PublishedRule) (r : RuleId) : Prop :=
  ∃ row ∈ rows, row.ruleId = r ∧ row.targets ≠ []

theorem mem_ruleId_rulesFromRows {rows : List PublishedRule} {acc : AccountId}
    {dead : List AccountId} {r : RuleId} :
    r ∈ (rulesFromRows rows acc dead).map RuleSnapshot.ruleId ↔ Routed rows r := by
  simp only [rulesFromRows, rulesFromSnapshot, List.mem_map, List.mem_flatMap, Routed]
  constructor
  · rintro ⟨snap, ⟨row, hrow, t, ht, scope, _, rfl⟩, rfl⟩
    exact ⟨row, hrow, rfl, List.ne_nil_of_mem ht⟩
  · rintro ⟨row, hrow, rfl, htargets⟩
    obtain ⟨t, ht⟩ := List.exists_mem_of_ne_nil _ htargets
    exact ⟨snapshotOf row _ dead t _, ⟨row, hrow, t, ht, _, List.mem_cons_self, rfl⟩, rfl⟩

theorem Routed.mem_ruleIds {rows : List PublishedRule} {r : RuleId} (h : Routed rows r) :
    r ∈ ruleIds rows := by
  obtain ⟨row, hrow, rfl, _⟩ := h
  exact List.mem_map_of_mem hrow

theorem RuleCaches.mem_disabled_refresh {c : RuleCaches} {acc : AccountId}
    {rows : List PublishedRule} {dead : List AccountId} {r : RuleId} :
    r ∈ (c.refresh acc (rulesFromRows rows acc dead)).disabledRuleIds ↔
      (r ∈ c.disabledRuleIds ∨ r ∈ c.knownRuleIds acc) ∧ ¬ Routed rows r := by
  simp only [RuleCaches.refresh, List.mem_filter, List.mem_append, decide_eq_true_eq,
    mem_ruleId_rulesFromRows]
  tauto

/-- Some hosted account listens to the rule, by its latest pull. -/
def Worker.Listens (wk : Worker) (pulls : Pulls) (r : RuleId) : Prop :=
  ∃ acc, (wk.hosted acc).isSome ∧ r ∈ pulls acc

/-- A hosted account other than `acc` listens to the rule. -/
def Worker.ListensBeside (wk : Worker) (pulls : Pulls) (acc : AccountId) (r : RuleId) : Prop :=
  ∃ b, b ≠ acc ∧ (wk.hosted b).isSome ∧ r ∈ pulls b

/-- The latest pulls of process `w` after a step; a new process has pulled nothing. -/
def notePull (w : WorkerId) (pulls : Pulls) (s : System) : Action → Pulls
  | .host w' .applyRules =>
    if w' = w then
      match (s.workers w).pulled with
      | some (acc, rows) => Function.update pulls acc (ruleIds rows)
      | none => pulls
    else pulls
  | .crash w' => if w' = w then fun _ => [] else pulls
  | _ => pulls

/-- The system with the latest pulls of process `w` kept beside it. -/
abbrev stepWithPulls (w : WorkerId) : System × Pulls → Action → Option (System × Pulls) :=
  Machine.recorded System.step (notePull w)

/-- The blocked rules of process `w` track the published ones over a step. -/
structure BlocksStopped (w : WorkerId) (x : System × Pulls) (a : Action) (y : System × Pulls) :
    Prop where
  /-- No rule of a hosted account's latest pull is blocked. -/
  live : ∀ r ∈ (y.1.workers w).caches.disabledRuleIds, ¬ (y.1.workers w).Listens y.2 r
  /-- A rule lost by the refreshed account and listened to by no hosted one is blocked. -/
  stopped : a = .host w .applyRules → ∀ acc rows, (x.1.workers w).pulled = some (acc, rows) →
    ∀ r ∈ x.2 acc, r ∉ ruleIds rows → ¬ (y.1.workers w).Listens y.2 r →
      r ∈ (y.1.workers w).caches.disabledRuleIds
  /-- A blocked rule stays blocked until some pull has it again. -/
  kept : a ≠ .crash w → ∀ r ∈ (x.1.workers w).caches.disabledRuleIds,
    (a = .host w .applyRules → ∀ acc rows, (x.1.workers w).pulled = some (acc, rows) →
      r ∉ ruleIds rows) →
    r ∈ (y.1.workers w).caches.disabledRuleIds

/-- What a pull has to agree on with what the process remembers. -/
structure Worker.PullAgrees (wk : Worker) (pulls : Pulls) (acc : AccountId)
    (rows : List PublishedRule) : Prop where
  /-- A remembered or blocked rule comes with a target. -/
  routed : (wk.hosted acc).isSome → ∀ r ∈ ruleIds rows,
    r ∈ wk.caches.disabledRuleIds ∨ r ∈ wk.caches.knownRuleIds acc → Routed rows r
  /-- A rule the account has lost has not moved to another hosted account. -/
  unmoved : ∀ r ∈ wk.caches.knownRuleIds acc, ¬ Routed rows r → ¬ wk.ListensBeside pulls acc r
  /-- A rule lost since a pull that a release has made the process forget is blocked anyway. -/
  remembered : ∀ r ∈ pulls acc, r ∉ ruleIds rows → r ∉ wk.caches.knownRuleIds acc →
    r ∈ wk.caches.disabledRuleIds ∨ wk.ListensBeside pulls acc r

/-- The step of process `w` meets no pull at odds with its memory, and hosts no account whose
latest pull has a blocked rule. -/
structure PullsAgree (w : WorkerId) (x : System × Pulls) (a : Action) (_ : System × Pulls) :
    Prop where
  refresh : a = .host w .applyRules → ∀ acc rows, (x.1.workers w).pulled = some (acc, rows) →
    (x.1.workers w).PullAgrees x.2 acc rows
  hosting : a = .host w .assignDone → ∀ acc g, (x.1.workers w).assigning = some ⟨acc, .connected g⟩ →
    ∀ r ∈ x.2 acc.accountId, r ∉ (x.1.workers w).caches.disabledRuleIds

/-- What a step does to the blocked rules of process `w`, its hosted accounts and its pulls. -/
inductive PullStep (w : WorkerId) (x : System × Pulls) : Action → System × Pulls → Prop
  | quiet (a : Action) (y : System × Pulls) : a ≠ .host w .applyRules → a ≠ .host w .assignDone →
      a ≠ .crash w → y.2 = x.2 →
      (y.1.workers w).caches.disabledRuleIds = (x.1.workers w).caches.disabledRuleIds →
      (∀ acc, ((y.1.workers w).hosted acc).isSome → ((x.1.workers w).hosted acc).isSome) →
      PullStep w x a y
  | refresh (y : System × Pulls) (acc : AccountId) (rows : List PublishedRule) :
      (x.1.workers w).pulled = some (acc, rows) →
      (y.1.workers w).hosted = (x.1.workers w).hosted →
      (y.1.workers w).caches = (x.1.workers w).caches.refresh acc
        (rulesFromRows rows acc (x.1.workers w).deadAccounts) →
      y.2 = Function.update x.2 acc (ruleIds rows) → PullStep w x (.host w .applyRules) y
  | hosts (y : System × Pulls) (acc : Assignment) (g : ℤ) :
      (x.1.workers w).assigning = some ⟨acc, .connected g⟩ →
      (y.1.workers w).hosted = Function.update (x.1.workers w).hosted acc.accountId (some ⟨acc, g⟩) →
      (y.1.workers w).caches = (x.1.workers w).caches → y.2 = x.2 →
      PullStep w x (.host w .assignDone) y
  | crash (y : System × Pulls) (config : WorkerConfig) : y.1.workers w = .start config →
      y.2 = (fun _ => []) → PullStep w x (.crash w) y

variable {w : WorkerId} {x y : System × Pulls} {a : Action}

theorem notePull_of_ne {pulls : Pulls} {s : System} (hrefresh : a ≠ .host w .applyRules)
    (hcrash : a ≠ .crash w) : notePull w pulls s a = pulls := by
  unfold notePull
  split
  · rw [if_neg]
    rintro rfl
    exact hrefresh rfl
  · rw [if_neg]
    rintro rfl
    exact hcrash rfl
  · rfl

theorem pullStep_of_host {z : HostAction} (h : stepWithPulls w x (.host w z) = some y) :
    PullStep w x (.host w z) y := by
  obtain ⟨hstep, hpulls⟩ := Machine.recorded_eq_some.mp h
  obtain ⟨e, he, hs'⟩ := System.step_host_eq_some hstep
  have hw : y.1.workers w = e.worker := by simp [hs', System.afterHost]
  cases Worker.stepped_of_step he with
  | applyRules acc rows hpulled =>
    refine .refresh y acc rows hpulled (by rw [hw]) (by rw [hw]) ?_
    rw [hpulls]
    simp [notePull, hpulled]
  | assignDone acc g hassigning =>
    refine .hosts y acc g hassigning (by rw [hw]) (by rw [hw]) ?_
    rw [hpulls, notePull_of_ne (by simp) (by simp)]
  | renew acc now hosted row ok _ _ _ =>
    refine .quiet _ y (by simp) (by simp) (by simp) ?_ ?_ ?_
    · rw [hpulls, notePull_of_ne (by simp) (by simp)]
    · rw [hw]
      cases ok <;> rfl
    · intro acc' hacc'
      rw [hw] at hacc'
      cases ok <;> exact hacc'
  | release acc _ _ =>
    refine .quiet _ y (by simp) (by simp) (by simp) ?_ (by rw [hw]; rfl) ?_
    · rw [hpulls, notePull_of_ne (by simp) (by simp)]
    · intro acc' hacc'
      rw [hw] at hacc'
      by_cases hacc : acc' = acc
      · simp [hacc, Worker.release] at hacc'
      · simpa [hacc, Worker.release] using hacc'
  | _ =>
    refine .quiet _ y (by simp) (by simp) (by simp) ?_ (by simp [hw, Worker.setLost])
      (by simp [hw, Worker.setLost])
    rw [hpulls, notePull_of_ne (by simp) (by simp)]

theorem pullStep_of_step (h : stepWithPulls w x a = some y) : PullStep w x a y := by
  by_cases hhost : ∃ z, a = .host w z
  · obtain ⟨z, rfl⟩ := hhost
    exact pullStep_of_host h
  have hne : ∀ z, a ≠ .host w z := fun z ha => hhost ⟨z, ha⟩
  obtain ⟨hstep, hpulls⟩ := Machine.recorded_eq_some.mp h
  by_cases hcrash : a = .crash w
  · subst hcrash
    obtain hs' := Option.some.inj hstep
    refine .crash y (x.1.workers w).config ?_ (by simp [hpulls, notePull])
    simp [← hs']
  · rw [notePull_of_ne (hne _) hcrash] at hpulls
    rcases System.step_workers hstep w with hsame | ⟨acc, z, r, e, rfl, _, _, hw⟩ |
      ⟨z, _, rfl, _⟩ | ⟨rfl, _⟩
    · exact .quiet a y (hne _) (hne _) hcrash hpulls (by rw [hsame]) (by rw [hsame]; exact fun _ => id)
    · refine .quiet _ y (hne _) (hne _) hcrash hpulls ?_ ?_
      · rw [hw]
        cases z <;> rfl
      · intro acc' hacc'
        rw [hw] at hacc'
        cases z <;> exact hacc'
    · exact absurd rfl (hne z)
    · exact absurd rfl hcrash

def LiveUnblocked (w : WorkerId) (x : System × Pulls) : Prop :=
  ∀ r ∈ (x.1.workers w).caches.disabledRuleIds, ¬ (x.1.workers w).Listens x.2 r

/-- Who listens to a rule after a refresh: the refreshed account, if hosted, by the new rows. -/
theorem listens_refresh {acc : AccountId} {rows : List PublishedRule} {r : RuleId}
    (hhosted : (y.1.workers w).hosted = (x.1.workers w).hosted)
    (hpulls : y.2 = Function.update x.2 acc (ruleIds rows)) :
    (y.1.workers w).Listens y.2 r ↔ (((x.1.workers w).hosted acc).isSome ∧ r ∈ ruleIds rows) ∨
      (x.1.workers w).ListensBeside x.2 acc r := by
  rw [Worker.Listens, hhosted, hpulls]
  constructor
  · rintro ⟨b, hb, hr⟩
    by_cases hacc : b = acc
    · subst hacc
      exact Or.inl ⟨hb, by simpa using hr⟩
    · exact Or.inr ⟨b, hacc, hb, by simpa [hacc] using hr⟩
  · rintro (⟨hacc, hr⟩ | ⟨b, hacc, hb, hr⟩)
    · exact ⟨acc, hacc, by simpa using hr⟩
    · exact ⟨b, hb, by simpa [hacc] using hr⟩

theorem Worker.ListensBeside.listens {wk : Worker} {pulls : Pulls} {acc : AccountId} {r : RuleId}
    (h : wk.ListensBeside pulls acc r) : wk.Listens pulls r := by
  obtain ⟨b, _, hb, hr⟩ := h
  exact ⟨b, hb, hr⟩

/-- The guard of a refresh says what the refresh does wrong otherwise. -/
theorem blocksStopped_refresh {acc : AccountId} {rows : List PublishedRule}
    (hpulled : (x.1.workers w).pulled = some (acc, rows))
    (hhosted : (y.1.workers w).hosted = (x.1.workers w).hosted)
    (hcaches : (y.1.workers w).caches = (x.1.workers w).caches.refresh acc
      (rulesFromRows rows acc (x.1.workers w).deadAccounts))
    (hpulls : y.2 = Function.update x.2 acc (ruleIds rows)) (hx : LiveUnblocked w x) :
    BlocksStopped w x (.host w .applyRules) y ↔ (x.1.workers w).PullAgrees x.2 acc rows := by
  have hblocked : ∀ r, r ∈ (y.1.workers w).caches.disabledRuleIds ↔
      (r ∈ (x.1.workers w).caches.disabledRuleIds ∨ r ∈ (x.1.workers w).caches.knownRuleIds acc) ∧
        ¬ Routed rows r := by
    intro r
    rw [hcaches]
    exact RuleCaches.mem_disabled_refresh
  have hlistens := fun r => listens_refresh (r := r) hhosted hpulls
  constructor
  · intro h
    constructor
    · intro hacc r hr hmem
      by_contra hrouted
      exact h.live r ((hblocked r).mpr ⟨hmem, hrouted⟩) ((hlistens r).mpr (Or.inl ⟨hacc, hr⟩))
    · intro r hr hrouted hbeside
      exact h.live r ((hblocked r).mpr ⟨Or.inr hr, hrouted⟩) ((hlistens r).mpr (Or.inr hbeside))
    · intro r hr hrows hknown
      by_cases hbeside : (x.1.workers w).ListensBeside x.2 acc r
      · exact Or.inr hbeside
      · have hnone : ¬ (y.1.workers w).Listens y.2 r := by
          rw [hlistens]
          rintro (⟨_, hr'⟩ | hbeside')
          · exact hrows hr'
          · exact hbeside hbeside'
        rcases ((hblocked r).mp (h.stopped rfl acc rows hpulled r hr hrows hnone)).1 with hr' | hr'
        · exact Or.inl hr'
        · exact absurd hr' hknown
  · intro h
    constructor
    · intro r hr hlisten
      obtain ⟨hmem, hrouted⟩ := (hblocked r).mp hr
      rcases (hlistens r).mp hlisten with ⟨hacc, hrows⟩ | hbeside
      · exact hrouted (h.routed hacc r hrows hmem)
      · rcases hmem with hr' | hr'
        · exact hx r hr' hbeside.listens
        · exact h.unmoved r hr' hrouted hbeside
    · rintro - acc' rows' hpulled' r hr hrows hnone
      obtain ⟨rfl, rfl⟩ : acc = acc' ∧ rows = rows' := by simpa [hpulled] using hpulled'
      refine (hblocked r).mpr ⟨?_, fun hrouted => hrows hrouted.mem_ruleIds⟩
      by_cases hknown : r ∈ (x.1.workers w).caches.knownRuleIds acc
      · exact Or.inr hknown
      · rcases h.remembered r hr hrows hknown with hr' | hbeside
        · exact Or.inl hr'
        · exact absurd ((hlistens r).mpr (Or.inr hbeside)) hnone
    · rintro - r hr hrows
      exact (hblocked r).mpr ⟨Or.inl hr, fun hrouted => hrows rfl acc rows hpulled hrouted.mem_ruleIds⟩

theorem blocksStopped_hosts {acc : Assignment} {g : ℤ}
    (hhosted : (y.1.workers w).hosted =
      Function.update (x.1.workers w).hosted acc.accountId (some ⟨acc, g⟩))
    (hcaches : (y.1.workers w).caches = (x.1.workers w).caches) (hpulls : y.2 = x.2)
    (hx : LiveUnblocked w x) :
    BlocksStopped w x (.host w .assignDone) y ↔
      ∀ r ∈ x.2 acc.accountId, r ∉ (x.1.workers w).caches.disabledRuleIds := by
  constructor
  · intro h r hr hmem
    refine h.live r (by rwa [hcaches]) ⟨acc.accountId, ?_, by rwa [hpulls]⟩
    simp [hhosted]
  · intro h
    constructor
    · rintro r hr ⟨b, hb, hmem⟩
      rw [hcaches] at hr
      rw [hpulls] at hmem
      by_cases hacc : b = acc.accountId
      · subst hacc
        exact h r hmem hr
      · rw [hhosted, Function.update_of_ne hacc] at hb
        exact hx r hr ⟨b, hb, hmem⟩
    · intro ha
      cases ha
    · intro _ r hr _
      rwa [hcaches]

/-- Where the live rules have been unblocked so far, a step tracks the published rules exactly
if its pull agrees with the memory. -/
theorem blocksStopped_iff (h : stepWithPulls w x a = some y) (hx : LiveUnblocked w x) :
    BlocksStopped w x a y ↔ PullsAgree w x a y := by
  cases pullStep_of_step h with
  | quiet _ _ hrefresh hhosting hcrash hpulls hblocked hhosted =>
    constructor
    · intro _
      exact ⟨fun ha => absurd ha hrefresh, fun ha => absurd ha hhosting⟩
    · intro _
      constructor
      · rintro r hr ⟨b, hb, hmem⟩
        rw [hblocked] at hr
        rw [hpulls] at hmem
        exact hx r hr ⟨b, hhosted b hb, hmem⟩
      · exact fun ha => absurd ha hrefresh
      · intro _ r hr _
        rwa [hblocked]
  | refresh _ acc rows hpulled hhosted hcaches hpulls =>
    rw [blocksStopped_refresh hpulled hhosted hcaches hpulls hx]
    constructor
    · intro hagrees
      refine ⟨?_, by simp⟩
      rintro - acc' rows' hpulled'
      obtain ⟨rfl, rfl⟩ : acc = acc' ∧ rows = rows' := by simpa [hpulled] using hpulled'
      exact hagrees
    · exact fun hagrees => hagrees.refresh rfl acc rows hpulled
  | hosts _ acc g hassigning hhosted hcaches hpulls =>
    rw [blocksStopped_hosts hhosted hcaches hpulls hx]
    constructor
    · intro hagrees
      refine ⟨by simp, ?_⟩
      rintro - acc' g' hassigning'
      obtain ⟨rfl, rfl⟩ : acc = acc' ∧ g = g' := by simpa [hassigning] using hassigning'
      exact hagrees
    · exact fun hagrees => hagrees.hosting rfl acc g hassigning
  | crash _ config hw hpulls =>
    constructor
    · intro _
      exact ⟨by simp, by simp⟩
    · intro _
      constructor
      · intro r hr
        rw [hw] at hr
        cases hr
      · intro ha
        cases ha
      · exact fun ha => absurd rfl ha

def System.freshPulls (config : WorkerId → WorkerConfig) : System × Pulls :=
  (.start config, fun _ => [])

/-- The blocked rules of a process track the published rules in a run exactly if every pull of
the run agrees with what the process remembers. -/
theorem blocked_rules_track_pulls (config : WorkerId → WorkerConfig) (w : WorkerId)
    (as : List Action) :
    Machine.Always (stepWithPulls w) (BlocksStopped w) (System.freshPulls config) as ↔
      Machine.Always (stepWithPulls w) (PullsAgree w) (System.freshPulls config) as := by
  refine Machine.always_iff_of_invariant (I := LiveUnblocked w) ?_ ?_ as ?_
  · intro x a y _ _ h
    exact h.live
  · intro x a y h hx
    exact blocksStopped_iff h hx
  · intro r hr
    cases hr

/-! ## A listener fails over -/

/-- The published rule `r`, cloned from channel 5. -/
def ruleRows : List PublishedRule := [cloneRule]

/-- Process `w1` hosts `A` with the rule and `B` without; the rule moves to `B`, which is
refreshed before `A`. -/
def refreshedInListOrder : List Action :=
  [.publish "A" ruleRows] ++
    assignSteps "w1" { accountId := "A", tenantId := "t", projectId := "p" } 0 ++
    assignSteps "w1" { accountId := "B", tenantId := "t", projectId := "p" } 0 ++
    [.publish "A" [], .publish "B" ruleRows, .host "w1" (.pullRules "B"), .host "w1" .applyRules,
      .host "w1" (.pullRules "A")]

/-- A rule taken over by a hosted account is blocked by the refresh of the account it left. -/
theorem moved_rule_is_blocked : ¬ ∀ (config : WorkerId → WorkerConfig) (w : WorkerId)
    (as : List Action),
    Machine.Always (stepWithPulls w) (BlocksStopped w) (System.freshPulls config) as := by
  intro h
  have hobserved : ((Machine.run (stepWithPulls "w1") (System.freshPulls fun _ => {})
      refreshedInListOrder).bind fun x => (stepWithPulls "w1" x (.host "w1" .applyRules)).map fun y =>
        ("r" ∈ (y.1.workers "w1").caches.disabledRuleIds : Bool) &&
          ((y.1.workers "w1").hosted "B").isSome && ("r" ∈ y.2 "B" : Bool)) = some true := by
    decide +kernel
  obtain ⟨x, y, hrun, hstep, hy⟩ :=
    Machine.exists_of_observed (f := fun _ (y : System × Pulls) => _) hobserved
  simp only [Bool.and_eq_true, decide_eq_true_eq] at hy
  refine Machine.not_always_of_step hrun hstep ?_ (h _ _ _)
  intro hblocks
  exact hblocks.live "r" hy.1.1 ⟨"B", hy.1.2, hy.2⟩

end TgPlatform
