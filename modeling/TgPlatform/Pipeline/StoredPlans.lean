import TgPlatform.Pipeline.System
import TgPlatform.Pipeline.Transport

/-! # Plans through storage

A job row stores what a plan asks for, but neither the account that reads the
source message nor the transform flag. Before sending both are read off the
cached snapshot of the plan's rule whose version is closest, so a stored plan
comes back as long as the caches agree with the snapshots it was made from.
-/

namespace TgPlatform

/-! ## The closest snapshot -/

namespace RuleCaches

variable {c : RuleCaches} {ruleId : RuleId} {ruleVersion : ℤ}

def snapshots (c : RuleCaches) : List RuleSnapshot := c.rulesCache.values.flatten

/-- One step of the scan of `_plan_hints`. -/
def closer (ruleId : RuleId) (ruleVersion : ℤ) (best : Option RuleSnapshot) (s : RuleSnapshot) :
    Option RuleSnapshot :=
  if s.ruleId ≠ ruleId then best
  else
    match best with
    | none => some s
    | some b =>
      if (s.version - ruleVersion).natAbs < (b.version - ruleVersion).natAbs then some s else best

theorem planHints_eq : c.planHints ruleId ruleVersion =
    (c.snapshots.foldl (closer ruleId ruleVersion) none).map fun b => (b.accountId, b.transform) :=
  rfl

theorem closer_cases (best : Option RuleSnapshot) (s : RuleSnapshot) :
    closer ruleId ruleVersion best s = best ∧ (s.ruleId = ruleId → best.isSome) ∨
      closer ruleId ruleVersion best s = some s ∧ s.ruleId = ruleId := by
  unfold closer
  by_cases hid : s.ruleId = ruleId
  · cases best with
    | none => simp [hid]
    | some b =>
      by_cases hlt : (s.version - ruleVersion).natAbs < (b.version - ruleVersion).natAbs
      · simp [hid, hlt]
      · simp [hid, hlt]
  · simp [hid]

variable (ruleId ruleVersion) in
theorem foldl_closer (l : List RuleSnapshot) : ∀ best : Option RuleSnapshot,
    (∀ b, l.foldl (closer ruleId ruleVersion) best = some b →
      best = some b ∨ b ∈ l ∧ b.ruleId = ruleId) ∧
    ((best.isSome ∨ ∃ s ∈ l, s.ruleId = ruleId) →
      (l.foldl (closer ruleId ruleVersion) best).isSome) := by
  induction l with
  | nil =>
    intro best
    simp
  | cons s rest ih =>
    intro best
    rw [List.foldl_cons]
    obtain ⟨hmem, hsome⟩ := ih (closer ruleId ruleVersion best s)
    rcases closer_cases best s with ⟨hkeep, hbest⟩ | ⟨htake, hid⟩
    · rw [hkeep] at hmem hsome ⊢
      constructor
      · intro b hb
        rcases hmem b hb with hb | ⟨hb, hid⟩
        · exact Or.inl hb
        · exact Or.inr ⟨List.mem_cons_of_mem s hb, hid⟩
      · rintro (hb | ⟨t, ht, hid⟩)
        · exact hsome (Or.inl hb)
        · rcases List.mem_cons.mp ht with rfl | ht
          · exact hsome (Or.inl (hbest hid))
          · exact hsome (Or.inr ⟨t, ht, hid⟩)
    · rw [htake] at hmem hsome ⊢
      constructor
      · intro b hb
        rcases hmem b hb with hb | ⟨hb, hb'⟩
        · cases hb
          exact Or.inr ⟨List.mem_cons_self, hid⟩
        · exact Or.inr ⟨List.mem_cons_of_mem s hb, hb'⟩
      · intro _
        exact hsome (Or.inl rfl)

/-- Where all cached snapshots of a rule agree, the hints are what they agree on. -/
theorem planHints_of_agree {accountId : AccountId} {transform : Bool}
    (hcached : ∃ s ∈ c.snapshots, s.ruleId = ruleId)
    (hagree : ∀ s ∈ c.snapshots, s.ruleId = ruleId → s.accountId = accountId ∧ s.transform = transform) :
    c.planHints ruleId ruleVersion = some (accountId, transform) := by
  obtain ⟨hmem, hsome⟩ := foldl_closer ruleId ruleVersion c.snapshots none
  obtain ⟨b, hb⟩ := Option.isSome_iff_exists.mp (hsome (Or.inr hcached))
  rcases hmem b hb with hnone | ⟨hb', hid⟩
  · cases hnone
  · obtain ⟨haccount, htransform⟩ := hagree b hb' hid
    rw [planHints_eq, hb, Option.map_some, haccount, htransform]

end RuleCaches

/-! ## Expanded rows -/

/-- A published row expanded for the account that listens for it, named by its uuid, without the
accounts reported dead at the time. -/
structure ListenedRow where
  row : PublishedRule
  accountUuid : AccountId
  dead : List AccountId
  named : accountUuid ≠ ""

def ListenedRow.snapshots (l : ListenedRow) : List RuleSnapshot :=
  rulesFromSnapshot l.row l.accountUuid l.dead

def listenedSnapshots (published : List ListenedRow) : List RuleSnapshot :=
  published.flatMap ListenedRow.snapshots

theorem mem_rulesFromSnapshot {row : PublishedRule} {accountUuid : AccountId} {dead : List AccountId}
    {s : RuleSnapshot} (h : s ∈ rulesFromSnapshot row accountUuid dead) :
    s.ruleId = row.ruleId ∧ s.accountId = accountUuid ∧ s.transform = row.transform := by
  obtain ⟨t, -, hs⟩ := List.mem_flatMap.mp h
  obtain ⟨scope, -, rfl⟩ := List.mem_map.mp hs
  exact ⟨rfl, rfl, rfl⟩

/-- The caches still hold the snapshots of a rule; all they hold of it are snapshots of its row for
its account, whatever accounts have been reported dead since. -/
structure RuleCaches.StillHold (c : RuleCaches) (published : List ListenedRow) (ruleId : RuleId) :
    Prop where
  kept : ∀ s ∈ listenedSnapshots published, s.ruleId = ruleId → s ∈ c.snapshots
  only : ∀ s ∈ c.snapshots, s.ruleId = ruleId →
    ∃ l ∈ published, ∃ dead, s ∈ rulesFromSnapshot l.row l.accountUuid dead

variable {published : List ListenedRow} {ruleId : RuleId}

theorem listenedRow_unique (hdistinct : (published.map fun l => l.row.ruleId).Nodup)
    {l l' : ListenedRow} (hl : l ∈ published) (hl' : l' ∈ published)
    (hid : l.row.ruleId = l'.row.ruleId) : l = l' :=
  List.inj_on_of_nodup_map hdistinct hl hl' hid

theorem planHints_of_stillHold {c : RuleCaches} {rule : RuleSnapshot} (ruleVersion : ℤ)
    (hdistinct : (published.map fun l => l.row.ruleId).Nodup)
    (hhold : c.StillHold published rule.ruleId) (hrule : rule ∈ listenedSnapshots published) :
    c.planHints rule.ruleId ruleVersion = some (rule.accountId, rule.transform) ∧
      rule.accountId ≠ "" := by
  obtain ⟨l, hl, hmem⟩ := List.mem_flatMap.mp hrule
  obtain ⟨hid, haccount, htransform⟩ := mem_rulesFromSnapshot hmem
  constructor
  · apply RuleCaches.planHints_of_agree ⟨rule, hhold.kept rule hrule rfl, rfl⟩
    intro s hs hsid
    obtain ⟨l', hl', dead, hmem'⟩ := hhold.only s hs hsid
    obtain ⟨hid', haccount', htransform'⟩ := mem_rulesFromSnapshot hmem'
    cases listenedRow_unique hdistinct hl hl' (by rw [← hid, ← hid', hsid])
    exact ⟨haccount'.trans haccount.symm, htransform'.trans htransform.symm⟩
  · rw [haccount]
    exact l.named

/-- A plan that was stored as a job comes back at send time, up to a transform flag that the
deletion of a message does not read. -/
theorem plan_survives_storage (published : List ListenedRow)
    (hdistinct : (published.map fun l => l.row.ruleId).Nodup) (mapping : DictMappingView)
    (draw : Draw) (event : SourceEvent) (p : DeliveryPlan)
    (hp : p ∈ plan mapping draw event (listenedSnapshots published)) (w : Worker)
    (hhold : w.caches.StillHold published p.ruleId) (jobs : Table DeliveryJob) (tenantId : TenantId)
    (projectId : ProjectId) (now : Time) :
    ∃ q, ((jobs.insert (jobFromPlan p tenantId projectId now)).get? jobs.size).bind
        (heldPlan w.deps) = some q ∧
      q = { p with transform := q.transform } ∧ (p.kind ≠ .delete → q = p) ∧
      (p.kind = .delete → ∀ (env : Surroundings) (targetMessageIds : List ℤ),
        env.outcome (.delete targetMessageIds) q = env.outcome (.delete targetMessageIds) p) := by
  obtain ⟨rule, hrule, route, -, rfl⟩ := mem_plan.mp hp
  obtain ⟨hhints, hnamed⟩ := planHints_of_stillHold rule.version hdistinct hhold hrule
  have hstored : (jobs.insert (jobFromPlan (planRoute mapping draw event rule route) tenantId projectId
      now)).get? jobs.size = some (jobFromPlan (planRoute mapping draw event rule route) tenantId
        projectId now) := by
    simp [Table.get?_insert]
  refine ⟨{ planRoute mapping draw event rule route with transform := rule.transform }, ?_, rfl, ?_, ?_⟩
  · rw [hstored, Option.bind_some, heldPlan, planFromJob_jobFromPlan, Option.map_some]
    have hdeps : w.deps.planHints rule.ruleId rule.version = some (rule.accountId, rule.transform) :=
      hhints
    simp only [planRoute, hdeps, hnamed, if_false]
  · intro hkind
    have htransform : (planRoute mapping draw event rule route).transform = rule.transform := by
      have hsend : event.kind.plan ≠ .delete := hkind
      simp [planRoute, hsend]
    rw [← htransform]
  · intro _ env targetMessageIds
    rfl

/-- The row of a transforming rule with a sender pool, one of whose accounts has died. -/
def pooledRow : ListenedRow where
  row := { cloneRule with senderAccountUuids := ["B", "C"], transform := true }
  accountUuid := "A"
  dead := ["C"]
  named := by decide

def poolWorker : Worker where
  __ := Worker.start {}
  caches := RuleCaches.empty.refresh "A" (listenedSnapshots [pooledRow])

def pooledPlan : DeliveryPlan :=
  planRoute [] (fun _ _ => 4) (normalize (channelUpdate .create) "A" 0)
    (snapshotOf pooledRow.row "A" ["C"] ⟨"n", 7, none, 5, none, {}⟩ "peer:5") ⟨"n", 7, none⟩

theorem pooledPlan_survives_storage :
    ((Table.empty.insert (jobFromPlan pooledPlan "t" "p" 0)).get? 0).bind (heldPlan poolWorker.deps) =
      some pooledPlan := by
  have hp : pooledPlan ∈ plan [] (fun _ _ => 4) (normalize (channelUpdate .create) "A" 0)
      (listenedSnapshots [pooledRow]) := by
    decide +kernel
  have hhold : poolWorker.caches.StillHold [pooledRow] pooledPlan.ruleId := by
    constructor
    · decide +kernel
    · intro s hs _
      have hcached : s ∈ rulesFromSnapshot pooledRow.row pooledRow.accountUuid pooledRow.dead := by
        simpa [RuleCaches.snapshots, Dict.values, poolWorker, RuleCaches.refresh, RuleCaches.empty,
          Dict.set, Dict.empty, listenedSnapshots, ListenedRow.snapshots] using hs
      exact ⟨pooledRow, List.mem_singleton_self _, _, hcached⟩
  obtain ⟨q, hq, -, hself, -⟩ := plan_survives_storage [pooledRow] (by decide +kernel) []
    (fun _ _ => 4) _ pooledPlan hp poolWorker hhold .empty "t" "p" 0
  rw [hself (by decide)] at hq
  exact hq

end TgPlatform
