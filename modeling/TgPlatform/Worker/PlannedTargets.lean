import TgPlatform.Planner.Keys
import TgPlatform.Worker.Rules

/-! # Exactly the wanted targets are planned

Each target of a published row becomes two snapshots, one per spelling of its
source scope. A normalized event has one of the two spellings, so planning over
all snapshots is planning over the targets that want the event, each once.
-/

namespace TgPlatform

/-! ## What a target wants -/

structure RouteFilter.Admits (f : RouteFilter) (event : SourceEvent) : Prop where
  bots : f.excludeBots = true → event.senderIsBot = false
  blocked : ∀ id, event.senderId = some id → id ∉ f.blockedSenderIds
  allowed : f.senderUserIds ≠ [] → ∃ id ∈ f.senderUserIds, event.senderId = some id
  media : f.mediaKinds ≠ [] → orElse event.mediaKind "text" ∈ f.mediaKinds

/-- A target of a row that `accountUuid` listens for is to see the event. -/
structure PublishedTarget.Wants (t : PublishedTarget) (row : PublishedRule) (accountUuid : AccountId)
    (event : SourceEvent) : Prop where
  account : event.accountId = accountUuid
  chat : event.sourceChatId = t.sourceChatId
  topic : t.sourceTopicId = none ∨ event.topicId = t.sourceTopicId
  unprotected : event.protected_ = false
  create : event.kind = .create → t.filters.Admits event
  edit : event.kind = .edit → row.syncEdit = true ∧ row.mode ≠ .forward
  delete : event.kind = .delete → row.syncDelete = true

variable {event : SourceEvent} {row : PublishedRule} {accountUuid : AccountId} {dead : List AccountId}
  {t : PublishedTarget} {scope : String}

theorem passesFilters_iff {rule : RuleSnapshot} : passesFilters event rule = true ↔
    (excludesBots rule = true → event.senderIsBot = false) ∧
      (event.senderId.any (· ∈ senderBlacklist rule) = false) ∧
      (∀ w, senderWhitelist rule = some w → event.senderId.any (· ∈ w) = true) ∧
      ∀ w, mediaWhitelist rule = some w → orElse event.mediaKind "text" ∈ w := by
  unfold passesFilters
  cases senderWhitelist rule with
  | none => cases mediaWhitelist rule <;> grind
  | some w => cases mediaWhitelist rule <;> grind

theorem passesFilters_snapshotOf : passesFilters event (snapshotOf row accountUuid dead t scope) = true ↔
    t.filters.Admits event := by
  have hwhite : senderWhitelist (snapshotOf row accountUuid dead t scope) =
      if t.filters.senderUserIds = [] then none else some t.filters.senderUserIds := by
    simp [senderWhitelist, snapshotOf]
  have hmedia : mediaWhitelist (snapshotOf row accountUuid dead t scope) =
      if t.filters.mediaKinds = [] then none else some t.filters.mediaKinds := by
    simp [mediaWhitelist, snapshotOf]
  have hblack : senderBlacklist (snapshotOf row accountUuid dead t scope) =
    t.filters.blockedSenderIds := by
    simp [senderBlacklist, snapshotOf]
  have hbots : excludesBots (snapshotOf row accountUuid dead t scope) = t.filters.excludeBots := by
    simp [excludesBots, snapshotOf]
  rw [passesFilters_iff, hwhite, hmedia, hblack, hbots]
  constructor
  · rintro ⟨hbot, hblocked, hallowed, hkinds⟩
    refine ⟨hbot, ?_, ?_, ?_⟩
    · intro id hid
      simpa [hid] using hblocked
    · intro hne
      have hany := hallowed t.filters.senderUserIds (if_neg hne)
      obtain ⟨id, hid, hmem⟩ := (Option.any_eq_true _ _).mp hany
      exact ⟨id, of_decide_eq_true hmem, hid⟩
    · intro hne
      exact hkinds t.filters.mediaKinds (if_neg hne)
  · rintro ⟨hbot, hblocked, hallowed, hkinds⟩
    refine ⟨hbot, ?_, ?_, ?_⟩
    · cases hid : event.senderId with
      | none => rfl
      | some id => simpa using hblocked id hid
    · intro w hw
      split at hw
      · cases hw
      · rename_i hne
        cases hw
        obtain ⟨id, hmem, hid⟩ := hallowed hne
        simpa [hid] using hmem
    · intro w hw
      split at hw
      · cases hw
      · rename_i hne
        cases hw
        exact hkinds hne

theorem plannedRoutes_snapshotOf_eq (hwants : t.Wants row accountUuid event)
    (hscope : event.sourceScope = scope) :
    plannedRoutes event (snapshotOf row accountUuid dead t scope) =
      [⟨t.routeId, t.targetChatId, t.targetTopicId⟩] := by
  have hmatches : matchesRule event (snapshotOf row accountUuid dead t scope) = true := by
    rw [matchesRule_iff]
    refine ⟨hwants.account, hscope, hwants.chat, ?_, hwants.unprotected⟩
    intro hsome
    rcases hwants.topic with hnone | htopic
    · simp [snapshotOf, hnone] at hsome
    · exact htopic
  have hpasses : event.kind = .create →
      passesFilters event (snapshotOf row accountUuid dead t scope) = true :=
    fun hkind => passesFilters_snapshotOf.mpr (hwants.create hkind)
  have hedit : event.kind = .edit → (snapshotOf row accountUuid dead t scope).syncEdit = true ∧
      (snapshotOf row accountUuid dead t scope).mode ≠ .forward := hwants.edit
  have hdelete : event.kind = .delete → (snapshotOf row accountUuid dead t scope).syncDelete = true :=
    hwants.delete
  have htargets : (snapshotOf row accountUuid dead t scope).targets =
      [⟨t.routeId, t.targetChatId, t.targetTopicId⟩] := rfl
  unfold plannedRoutes
  cases hkind : event.kind with
  | create => simp [hmatches, hpasses hkind, htargets]
  | edit => simp [hmatches, hedit hkind, htargets]
  | delete => simp [hmatches, hdelete hkind, htargets]

theorem wants_of_plannedRoutes {route : RouteTarget}
    (h : route ∈ plannedRoutes event (snapshotOf row accountUuid dead t scope)) :
    t.Wants row accountUuid event ∧ event.sourceScope = scope := by
  obtain ⟨haccount, hscope, hchat, htopic, hprotected⟩ :=
    matchesRule_iff.mp (matchesRule_of_mem_plannedRoutes h)
  refine ⟨⟨haccount, hchat, ?_, hprotected, ?_, ?_, ?_⟩, hscope⟩
  · cases htarget : t.sourceTopicId with
    | none => exact Or.inl rfl
    | some topic => exact Or.inr ((htopic (by simp [snapshotOf, htarget])).trans htarget)
  · intro hkind
    have hpasses : passesFilters event (snapshotOf row accountUuid dead t scope) = true := by
      unfold plannedRoutes at h
      by_contra hpasses
      simp [hkind, hpasses] at h
    exact passesFilters_snapshotOf.mp hpasses
  · intro hkind
    unfold plannedRoutes at h
    constructor
    · by_contra hsync
      simp [hkind, snapshotOf, hsync] at h
    · intro hmode
      simp [hkind, snapshotOf, hmode] at h
  · intro hkind
    unfold plannedRoutes at h
    by_contra hsync
    simp [hkind, snapshotOf, hsync] at h

theorem plannedRoutes_eq_nil (h : ¬ (t.Wants row accountUuid event ∧ event.sourceScope = scope)) :
    plannedRoutes event (snapshotOf row accountUuid dead t scope) = [] :=
  List.eq_nil_iff_forall_not_mem.mpr fun _ hroute => h (wants_of_plannedRoutes hroute)

/-! ## One plan for each wanting target -/

structure ListenedTarget where
  row : PublishedRule
  accountUuid : AccountId
  target : PublishedTarget

abbrev Listening := List (PublishedRule × AccountId)

namespace Listening

def targets (rows : Listening) : List ListenedTarget :=
  rows.flatMap fun r => r.1.targets.map fun t => ⟨r.1, r.2, t⟩

def snapshots (rows : Listening) (dead : List AccountId) : List RuleSnapshot :=
  rows.flatMap fun r => rulesFromSnapshot r.1 r.2 dead

def RoutesApart (rows : Listening) : Prop :=
  (rows.targets.map fun l => l.target.routeId).Nodup

end Listening

def ListenedTarget.plan (l : ListenedTarget) (mapping : DictMappingView) (draw : Draw)
    (event : SourceEvent) (dead : List AccountId) : DeliveryPlan :=
  planRoute mapping draw event (snapshotOf l.row l.accountUuid dead l.target event.sourceScope)
    ⟨l.target.routeId, l.target.targetChatId, l.target.targetTopicId⟩

def ListenedTarget.Wants (l : ListenedTarget) (event : SourceEvent) : Prop :=
  l.target.Wants l.row l.accountUuid event

variable {rows : Listening} {mapping : DictMappingView} {draw : Draw} {raw : RawUpdate}
  {accountId : AccountId} {pyHash : ℤ} {p : DeliveryPlan}

open Classical in
theorem plans_of_target (l : ListenedTarget) :
    ((scopeSpellings l.target.sourceChatId l.accountUuid).map
        (snapshotOf l.row l.accountUuid dead l.target)).flatMap (fun rule =>
      (plannedRoutes (normalize raw accountId pyHash) rule).map
        (planRoute mapping draw (normalize raw accountId pyHash) rule)) =
      if l.Wants (normalize raw accountId pyHash) then
        [l.plan mapping draw (normalize raw accountId pyHash) dead] else [] := by
  generalize hevent : normalize raw accountId pyHash = event
  have hspelled : l.Wants event → ∃ chatClass,
      event.sourceScope = sourceScopeFor chatClass l.target.sourceChatId l.accountUuid := by
    intro hwants
    have haccount := hwants.account
    have hchat := hwants.chat
    rw [← hevent] at haccount hchat ⊢
    exact ⟨raw.chatClass, by rw [← haccount, ← hchat]; rfl⟩
  by_cases hwants : l.Wants event
  · rw [if_pos hwants]
    obtain ⟨chatClass, hscope⟩ := hspelled hwants
    have hne := scopeSpellings_ne l.target.sourceChatId l.accountUuid
    have hplan : ∀ scope, event.sourceScope = scope →
        (plannedRoutes event (snapshotOf l.row l.accountUuid dead l.target scope)).map
          (planRoute mapping draw event (snapshotOf l.row l.accountUuid dead l.target scope)) =
            [l.plan mapping draw event dead] := by
      rintro scope rfl
      rw [plannedRoutes_snapshotOf_eq hwants rfl]
      rfl
    have hskip : ∀ scope, event.sourceScope ≠ scope →
        (plannedRoutes event (snapshotOf l.row l.accountUuid dead l.target scope)).map
          (planRoute mapping draw event (snapshotOf l.row l.accountUuid dead l.target scope)) = [] := by
      intro scope hother
      rw [plannedRoutes_eq_nil fun h => hother h.2, List.map_nil]
    simp only [scopeSpellings, List.map_cons, List.map_nil, List.flatMap_cons, List.flatMap_nil,
      List.append_nil]
    by_cases hbroadcast : chatClass = .broadcast
    · have hpeer : event.sourceScope = s!"peer:{l.target.sourceChatId}" := by
        rw [hscope, sourceScopeFor, if_pos hbroadcast]
      rw [hplan _ hpeer, hskip _ (by rw [hpeer]; exact hne), List.append_nil]
    · have hacct : event.sourceScope = s!"peer:{l.target.sourceChatId}:acct:{l.accountUuid}" := by
        rw [hscope, sourceScopeFor, if_neg hbroadcast]
      rw [hplan _ hacct, hskip _ (by rw [hacct]; exact hne.symm), List.nil_append]
  · rw [if_neg hwants, List.flatMap_eq_nil_iff]
    intro rule hrule
    obtain ⟨scope, -, rfl⟩ := List.mem_map.mp hrule
    rw [plannedRoutes_eq_nil fun h => hwants h.1, List.map_nil]

open Classical in
/-- Planning over all snapshots is planning over the targets that want the event. -/
theorem plan_eq_wanted :
    plan mapping draw (normalize raw accountId pyHash) (rows.snapshots dead) =
      (rows.targets.filter fun l => l.Wants (normalize raw accountId pyHash)).map
        fun l => l.plan mapping draw (normalize raw accountId pyHash) dead := by
  have hfilter : ∀ targets : List ListenedTarget,
      (targets.filter fun l => l.Wants (normalize raw accountId pyHash)).map
          (fun l => l.plan mapping draw (normalize raw accountId pyHash) dead) =
        targets.flatMap fun l => if l.Wants (normalize raw accountId pyHash) then
          [l.plan mapping draw (normalize raw accountId pyHash) dead] else [] := by
    intro targets
    induction targets with
    | nil => rfl
    | cons l rest ih =>
      rw [List.flatMap_cons, ← ih]
      by_cases hwants : l.Wants (normalize raw accountId pyHash)
      · simp [hwants]
      · simp [hwants]
  rw [hfilter, plan_eq, Listening.snapshots, Listening.targets, List.flatMap_assoc, List.flatMap_assoc]
  congr 1
  funext r
  rw [rulesFromSnapshot, List.flatMap_assoc, List.flatMap_map]
  congr 1
  funext t
  exact plans_of_target ⟨r.1, r.2, t⟩

/-! ## Exactness -/

/-- A send goes out from a configured live account of the pool, or from the listener where no
account of the pool is live. -/
def ListenedTarget.Sends (l : ListenedTarget) (dead : List AccountId) (sender : AccountId) : Prop :=
  sender ∈ l.row.senderAccountUuids ∧ sender ∉ dead ∨
    (∀ u ∈ l.row.senderAccountUuids, u = "" ∨ u ∈ dead) ∧ sender = l.accountUuid

structure ListenedTarget.Planned (l : ListenedTarget) (event : SourceEvent) (dead : List AccountId)
    (p : DeliveryPlan) : Prop where
  wants : l.Wants event
  rule : p.ruleId = l.row.ruleId ∧ p.ruleVersion = l.row.version ∧ p.mode = l.row.mode
  route : p.routeId = l.target.routeId ∧ p.targetChatId = l.target.targetChatId ∧
    p.targetTopicId = l.target.targetTopicId
  source : p.message = event.message ∧ p.revision = event.revision ∧ p.kind = event.kind.plan
  sender : p.kind = .send → l.Sends dead p.accountId

/-- Each target that wants the event has exactly one plan, and no other target has any. -/
structure Exact (rows : Listening) (dead : List AccountId) (event : SourceEvent)
    (plans : List DeliveryPlan) : Prop where
  once : ∀ l ∈ rows.targets, l.Wants event → plans.countP (fun p => p.routeId = l.target.routeId) = 1
  never : ∀ l ∈ rows.targets, ¬ l.Wants event →
    plans.countP (fun p => p.routeId = l.target.routeId) = 0
  planned : ∀ p ∈ plans, ∃ l ∈ rows.targets, l.Planned event dead p

theorem ListenedTarget.sends_plan (l : ListenedTarget) (hkind : event.kind.plan = .send) :
    l.Sends dead (l.plan mapping draw event dead).accountId := by
  have hsender : (l.plan mapping draw event dead).accountId =
      let pool := senderPool (snapshotOf l.row l.accountUuid dead l.target event.sourceScope)
      pool.getD (draw (snapshotOf l.row l.accountUuid dead l.target event.sourceScope)
        ⟨l.target.routeId, l.target.targetChatId, l.target.targetTopicId⟩ % pool.length)
        l.accountUuid := by
    simp only [ListenedTarget.plan, planRoute, senderFor, hkind, if_true]
    rfl
  rw [hsender]
  dsimp only
  generalize draw _ _ = k
  have hpool : (snapshotOf l.row l.accountUuid dead l.target event.sourceScope).senderAccountIds =
      l.row.senderAccountUuids.filter fun u => u ≠ "" ∧ u ∉ dead := rfl
  unfold senderPool
  rw [hpool]
  split
  · rename_i hempty
    right
    constructor
    · intro u hu
      have hnot := List.filter_eq_nil_iff.mp hempty u hu
      simp only [decide_eq_true_eq, not_and, Decidable.not_not] at hnot
      exact or_iff_not_imp_left.mpr hnot
    · cases k % _ <;> rfl
  · rename_i hne
    left
    have hlive : ∀ u ∈ l.row.senderAccountUuids.filter fun u => u ≠ "" ∧ u ∉ dead,
        u ∈ l.row.senderAccountUuids ∧ u ∉ dead := by
      intro u hu
      obtain ⟨hu, hlive⟩ := List.mem_filter.mp hu
      exact ⟨hu, (of_decide_eq_true hlive).2⟩
    rw [List.getD_eq_getElem _ _ (Nat.mod_lt _ (List.length_pos_of_ne_nil hne))]
    exact hlive _ (List.getElem_mem _)

theorem count_routes {targets : List ListenedTarget}
    (hroutes : (targets.map fun l => l.target.routeId).Nodup) (wants : ListenedTarget → Bool)
    {l : ListenedTarget} (hl : l ∈ targets) :
    ((targets.filter wants).map fun l => l.target.routeId).count l.target.routeId =
      if wants l then 1 else 0 := by
  have hnodup : ((targets.filter wants).map fun l => l.target.routeId).Nodup :=
    (List.filter_sublist.map _).nodup hroutes
  split
  · rename_i hwants
    exact List.count_eq_one_of_mem hnodup
      (List.mem_map.mpr ⟨l, List.mem_filter.mpr ⟨hl, hwants⟩, rfl⟩)
  · rename_i hwants
    rw [List.count_eq_zero]
    intro hmem
    obtain ⟨l', hl', hid⟩ := List.mem_map.mp hmem
    obtain ⟨hl', hwants'⟩ := List.mem_filter.mp hl'
    cases List.inj_on_of_nodup_map hroutes hl' hl hid
    exact hwants hwants'

theorem exact_plan (hroutes : rows.RoutesApart) :
    Exact rows dead (normalize raw accountId pyHash)
      (plan mapping draw (normalize raw accountId pyHash) (rows.snapshots dead)) := by
  classical
  have hcount : ∀ l ∈ rows.targets,
      (plan mapping draw (normalize raw accountId pyHash) (rows.snapshots dead)).countP
          (fun p => p.routeId = l.target.routeId) =
        if l.Wants (normalize raw accountId pyHash) then 1 else 0 := by
    intro l hl
    have hroute := count_routes hroutes (fun l => l.Wants (normalize raw accountId pyHash)) hl
    have hrouteId : ∀ l' : ListenedTarget,
        (l'.plan mapping draw (normalize raw accountId pyHash) dead).routeId = l'.target.routeId :=
      fun _ => rfl
    rw [plan_eq_wanted, List.countP_map]
    simpa [List.count, List.countP_map, Function.comp_def, beq_eq_decide, hrouteId] using hroute
  constructor
  · intro l hl hwants
    rw [hcount l hl, if_pos hwants]
  · intro l hl hwants
    rw [hcount l hl, if_neg hwants]
  · intro p hp
    rw [plan_eq_wanted, List.mem_map] at hp
    obtain ⟨l, hl, rfl⟩ := hp
    obtain ⟨hl, hwants⟩ := List.mem_filter.mp hl
    refine ⟨l, hl, of_decide_eq_true hwants, ⟨rfl, rfl, rfl⟩, ⟨rfl, rfl, rfl⟩, ⟨rfl, rfl, rfl⟩, ?_⟩
    intro hkind
    exact l.sends_plan hkind

/-- The plan was made for some event from some rows, whose rule and route ids hold no colon. -/
def Emitted (p : DeliveryPlan) : Prop :=
  ∃ (rows : Listening) (dead : List AccountId) (mapping : DictMappingView) (draw : Draw)
    (raw : RawUpdate) (accountId : AccountId) (pyHash : ℤ),
    (∀ l ∈ rows.targets, ':' ∉ l.row.ruleId.toList ∧ ':' ∉ l.target.routeId.toList) ∧
    p ∈ plan mapping draw (normalize raw accountId pyHash) (rows.snapshots dead)

theorem Emitted.plainIds (h : Emitted p) : p.PlainIds := by
  classical
  obtain ⟨rows, dead, mapping, draw, raw, accountId, pyHash, hids, hp⟩ := h
  rw [plan_eq_wanted, List.mem_map] at hp
  obtain ⟨l, hl, rfl⟩ := hp
  exact hids l (List.mem_filter.mp hl).1

/-- The planner makes one plan for each wanting target, and plans with one key are plans of one
revision of one message for one route. -/
theorem planner_exact :
    (∀ (rows : Listening) (dead : List AccountId) (mapping : DictMappingView) (draw : Draw)
      (raw : RawUpdate) (accountId : AccountId) (pyHash : ℤ), rows.RoutesApart →
      Exact rows dead (normalize raw accountId pyHash)
        (plan mapping draw (normalize raw accountId pyHash) (rows.snapshots dead))) ∧
    ∀ p q, Emitted p → Emitted q → p.idempotencyKey = q.idempotencyKey →
      p.ruleId = q.ruleId ∧ p.routeId = q.routeId ∧ p.message = q.message ∧ p.revision = q.revision ∧
        p.kind = q.kind := by
  constructor
  · intro rows dead mapping draw raw accountId pyHash hroutes
    exact exact_plan hroutes
  · intro p q hp hq hkey
    have hclone := cloneKey_of_idempotencyKey hp.plainIds hq.plainIds hkey
    simp only [DeliveryPlan.cloneKey, CloneKey.mk.injEq] at hclone
    obtain ⟨hrule, hroute, hmessage, hrevision, hkind⟩ := hclone
    exact ⟨hrule, hroute, hmessage, hrevision, PlanKind.value_injective hkind⟩

/-- A rule of account `A` on two chats, with a pool of which `C` is dead. -/
def twoChats : Listening :=
  [({ ruleId := "r", version := 1, senderAccountUuids := ["B", "C"],
      targets := [{ routeId := "n", targetChatId := 7, sourceChatId := 5 },
                  { routeId := "m", targetChatId := 7, sourceChatId := 6 }] }, "A")]

def firstChatUpdate : RawUpdate where
  kind := .create
  chatId := 5
  messageId := 3
  chatClass := .smallGroup

theorem planner_exact_of_twoChats :
    (plan [] (fun _ _ => 4) (normalize firstChatUpdate "A" 0) (twoChats.snapshots ["C"])).countP
        (fun p => p.routeId = "n") = 1 ∧
      ∀ p ∈ plan [] (fun _ _ => 4) (normalize firstChatUpdate "A" 0) (twoChats.snapshots ["C"]),
        ∀ q ∈ plan [] (fun _ _ => 5) (normalize firstChatUpdate "A" 8) (twoChats.snapshots []),
          p.idempotencyKey = q.idempotencyKey → p.routeId = q.routeId := by
  constructor
  · have hexact := planner_exact.1 twoChats ["C"] [] (fun _ _ => 4) firstChatUpdate "A" 0
      (by unfold Listening.RoutesApart; decide +kernel)
    let row : PublishedRule := (twoChats.head (by decide)).1
    exact hexact.once ⟨row, "A", { routeId := "n", targetChatId := 7, sourceChatId := 5 }⟩
      (List.mem_cons_self) ⟨rfl, rfl, Or.inl rfl, rfl,
        fun _ => ⟨by decide, by decide, by decide, by decide⟩, by decide, by decide⟩
  · intro p hp q hq hkey
    have hids : ∀ l ∈ twoChats.targets, ':' ∉ l.row.ruleId.toList ∧ ':' ∉ l.target.routeId.toList := by
      decide +kernel
    exact (planner_exact.2 p q ⟨_, _, _, _, _, _, _, hids, hp⟩ ⟨_, _, _, _, _, _, _, hids, hq⟩ hkey).2.1

end TgPlatform
