import TgPlatform.Control.AiScope
import TgPlatform.Lib.Session
import TgPlatform.Rules.Routes
import TgPlatform.Worker.Rules

/-! # Routes that feed themselves

The planner takes a missing source topic for every topic of the source chat, so
a route within one chat that names no source topic copies its own output.
Publishing compares the routes before the accounts have joined, and only with
each other.
-/

namespace TgPlatform

structure RouteKey where
  sourceChatId : ℤ
  sourceTopicId : Option ℤ
  targetChatId : ℤ
  targetTopicId : Option ℤ
  deriving DecidableEq, Repr

def RouteKey.OfTarget (key : RouteKey) (t : PublishedTarget) : Prop :=
  t.sourceChatId = key.sourceChatId ∧ t.sourceTopicId = key.sourceTopicId ∧
    t.targetChatId = key.targetChatId ∧ t.targetTopicId = key.targetTopicId

/-- Some message in the target chat and topic matches the route in some worker's rule. -/
def RouteKey.FeedsItself (key : RouteKey) : Prop :=
  ∃ (row : PublishedRule) (accountUuid : AccountId) (dead : List AccountId) (t : PublishedTarget),
    key.OfTarget t ∧ ∃ scope ∈ scopeSpellings t.sourceChatId accountUuid, ∃ event : SourceEvent,
      event.sourceChatId = key.targetChatId ∧ event.topicId = key.targetTopicId ∧
        matchesRule event (snapshotOf row accountUuid dead t scope) = true

/-- A route within one chat leaves its source topic. -/
def RouteKey.leaves (key : RouteKey) : Bool :=
  key.sourceChatId ≠ key.targetChatId ||
    key.sourceTopicId.any fun topic => key.targetTopicId ≠ some topic

def RouteKey.output (key : RouteKey) (scope : String) : SourceEvent where
  kind := .create
  sourceScope := scope
  sourceChatId := key.targetChatId
  sourceMessageId := 0
  revision := 0
  accountId := ""
  topicId := key.targetTopicId

theorem feedsItself_iff {key : RouteKey} : key.FeedsItself ↔ key.leaves = false := by
  constructor
  · rintro ⟨row, acc, dead, t, ⟨hsrc, hsrcTopic, -, -⟩, scope, -, event, hchat, htopic, hmatch⟩
    obtain ⟨-, -, hsource, hwild, -⟩ := matchesRule_iff.mp hmatch
    have hsame : key.sourceChatId = key.targetChatId := by
      rw [← hsrc, ← hchat]
      exact hsource.symm
    have hnamed : key.sourceTopicId.isSome → key.targetTopicId = key.sourceTopicId := by
      rw [← htopic, ← hsrcTopic]
      exact hwild
    unfold RouteKey.leaves
    cases htopics : key.sourceTopicId <;> simp_all
  · intro hstays
    have hsame : key.sourceChatId = key.targetChatId := by
      by_contra hne
      simp [RouteKey.leaves, hne] at hstays
    have hnamed : key.sourceTopicId.isSome → key.targetTopicId = key.sourceTopicId := by
      intro h
      obtain ⟨topic, htopic⟩ := Option.isSome_iff_exists.mp h
      simpa [RouteKey.leaves, hsame, htopic] using hstays
    let t : PublishedTarget :=
      ⟨"", key.targetChatId, key.targetTopicId, key.sourceChatId, key.sourceTopicId, {}⟩
    let row : PublishedRule := { ruleId := "", version := 0, targets := [t] }
    refine ⟨row, "", [], t, ⟨rfl, rfl, rfl, rfl⟩, s!"peer:{key.sourceChatId}", List.mem_cons_self,
      key.output s!"peer:{key.sourceChatId}", rfl, rfl, ?_⟩
    exact matchesRule_iff.mpr ⟨rfl, rfl, hsame.symm, hnamed, rfl⟩

structure RoutesSound (keys : List RouteKey) : Prop where
  distinct : keys.Nodup
  quiet : ∀ key ∈ keys, ¬ key.FeedsItself

structure RoutesApart (keys : List RouteKey) : Prop where
  distinct : keys.Nodup
  leaves : ∀ key ∈ keys, key.leaves = true

theorem routesSound_iff {keys : List RouteKey} : RoutesSound keys ↔ RoutesApart keys := by
  have hkey : ∀ key : RouteKey, ¬ key.FeedsItself ↔ key.leaves = true := by
    intro key
    rw [feedsItself_iff, Bool.not_eq_false]
  constructor
  · rintro ⟨hdistinct, hquiet⟩
    exact ⟨hdistinct, fun key h => (hkey key).mp (hquiet key h)⟩
  · rintro ⟨hdistinct, hleaves⟩
    exact ⟨hdistinct, fun key h => (hkey key).mpr (hleaves key h)⟩

def PublishedSnapshot.routeKeys (snapshot : PublishedSnapshot) : List RouteKey :=
  snapshot.targets.map fun t => ⟨t.2.1, t.2.2.1, t.2.2.2.1, t.2.2.2.2.1⟩

def CloneTarget.key (t : CloneTarget) : RouteKey :=
  ⟨t.sourceChatId, t.sourceTopicId, t.targetChatId, t.targetTopicId⟩

def routeKeysOf (targets : List (ℕ × CloneTarget)) : List RouteKey := targets.map fun t => t.2.key

theorem routeKeys_snapshot {rule : CloneRule} {pk : ℕ} {targets : List (ℕ × CloneTarget)} :
    (rule.snapshot pk targets).routeKeys = routeKeysOf targets := by
  simp [PublishedSnapshot.routeKeys, CloneRule.snapshot, routeKeysOf, CloneTarget.key]

def CloneRule.publishedTargets (out : Outside) (dir : Directory) (rule : CloneRule)
    (targets : List (ℕ × CloneTarget)) : List (ℕ × CloneTarget) :=
  if rule.enabled then joinedTargets out dir rule targets else targets

/-! ## A new route is checked and then stored -/

/-- `add_target` up to the row it creates. -/
def checkTarget (out : Outside) (caller : Caller) (ruleId : ℕ) (obj : CloneTargetParam) :
    Req CloneTarget := do
  let rule ← getRule caller ruleId
  let srcRef := strip obj.sourceChatId
  let dstRef := strip obj.targetChatId
  if rule.status = .disabled then refuse .request "规则已停用"
  else if srcRef = "" || dstRef = "" then refuse .request "源群/目标群必填"
  else
    let results ← resolveRefs out rule [srcRef, dstRef]
    let srcId ← Outside.resolveOrRaise results "源群" srcRef
    let dstId ← Outside.resolveOrRaise results "目标群" dstRef
    if srcId = dstId && obj.sourceTopicId = obj.targetTopicId then
      refuse .request "禁止源=目标的自环"
    else
      let filters ← normalizeFilters out rule obj.filters
      let target : CloneTarget := {
        ruleId, tenantId := rule.tenantId, projectId := rule.projectId, routeId := out.uuid 2
        sourceChatId := srcId, targetChatId := dstId, sourceChatRef := some srcRef
        targetChatRef := some dstRef, joinedAccountId := some rule.accountId
        sourceTopicId := obj.sourceTopicId, targetTopicId := obj.targetTopicId
        filters := filters.map Json.dict, remark := obj.remark }
      let active ← Txn.read fun s => s.activeTargets ruleId
      if active.any fun t => t.2.routeKey = target.routeKey then
        refuse .request "该规则已有相同的源群→目标群路线,不能重复添加"
      else Txn.ret target

def storeTarget (target : CloneTarget) : Req (ℕ × CloneTarget) := do
  let taken ← Txn.read fun s =>
    s.sourceTaken none target.ruleId target.sourceChatId target.sourceTopicId
  if taken then crash "IntegrityError"
  else
    let pk ← Txn.read fun s => s.targets.size
    Txn.write fun s => { s with targets := s.targets.add target }
    Txn.ret (pk, target)

/-! ## What the requests do to the versions -/

variable {out : Outside} {caller : Caller} {s : ControlPlane} {U : Use → Prop}

theorem getRule_keeps {pk : ℕ} : Txn.Post (getRule caller pk) s U fun rule s' =>
    s.rule pk = some rule ∧ s' = s := by
  refine .bind (.read (.bind (orRefuse_keeps.mono ?_)))
  rintro rule s ⟨hrule, rfl⟩
  refine .bind (checkScope_keeps.mono ?_)
  rintro _ s ⟨-, rfl⟩
  exact .ret ⟨hrule, rfl⟩

theorem issueCommand_keeps {accountId : ℕ} {type dedupKey : String} :
    Txn.Post (issueCommand out caller accountId type dedupKey) s U fun _ s' =>
      ∃ commands, s' = { s with commands } := by
  refine .bind (.read (.bind (orRefuse_keeps.mono ?_)))
  rintro account s ⟨-, rfl⟩
  refine .bind (checkScope_keeps.mono ?_)
  rintro _ s ⟨-, rfl⟩
  refine .bind (.read ?_)
  split
  · exact .ret ⟨s.commands, rfl⟩
  · exact .write ⟨_, rfl⟩

/-- What a publish leaves in the targets is what joining before the run has left there. -/
theorem publish_targets {Q : Slots CloneTarget → Prop} {pk : ℕ} {expectedVersion : ℤ}
    (h : ∀ rule, s.rule pk = some rule →
      Txn.Post (joinBeforeRun out caller pk rule) s U fun _ s' => Q s'.targets) :
    Txn.Post (publish out caller pk expectedVersion) s U fun _ s' => Q s'.targets := by
  refine .bind (getRule_keeps.mono ?_)
  rintro rule s ⟨hrule, rfl⟩
  refine .bind (.read ?_)
  split
  · exact refuse_keeps
  split
  · exact refuse_keeps
  split
  · exact refuse_keeps
  split
  · exact refuse_keeps
  refine .bind ((h rule hrule).mono ?_)
  intro _ s' hQ
  refine .bind (.read (.bind (.write (.bind (.write ?_)))))
  refine .bind (issueCommand_keeps.mono ?_)
  rintro _ _ ⟨commands', rfl⟩
  exact .ret hQ

variable (hU : ∀ u, U u)

include hU

theorem joinBeforeRun_eq {pk : ℕ} {rule : CloneRule} :
    Txn.Post (joinBeforeRun out caller pk rule) s U fun _ s' =>
      (∃ targets commands, s' = { s with targets, commands }) ∧ OthersStay pk s s' ∧
        s'.activeTargets pk = rule.publishedTargets out s.dir (s.activeTargets pk) := by
  unfold joinBeforeRun CloneRule.publishedTargets
  split
  · refine .bind ((autoJoin_eq hU).mono ?_)
    rintro _ _ ⟨⟨targets, rfl⟩, hstay, htargets⟩
    refine issueCommand_keeps.mono ?_
    rintro _ _ ⟨commands, rfl⟩
    exact ⟨⟨targets, commands, rfl⟩, hstay, htargets⟩
  · exact .ret ⟨⟨s.targets, s.commands, rfl⟩, .refl, rfl⟩

theorem publish_stores {pk : ℕ} {expectedVersion : ℤ} :
    Txn.Post (publish out caller pk expectedVersion) s U fun v s' =>
      s'.versions = s.versions.add v ∧ (routeKeysOf (s.activeTargets pk)).Nodup ∧
        ∃ rule, s.rule pk = some rule ∧ v.snapshot.routeKeys =
          routeKeysOf (rule.publishedTargets out s.dir (s.activeTargets pk)) := by
  refine .bind (getRule_keeps.mono ?_)
  rintro rule s ⟨hrule, rfl⟩
  refine .bind (.read ?_)
  split
  · exact refuse_keeps
  split
  · exact refuse_keeps
  split
  · exact refuse_keeps
  split
  · exact refuse_keeps
  rename_i hdistinct
  have hkeys : (routeKeysOf (s.activeTargets pk)).Nodup := by
    refine List.Nodup.of_map
      (fun key => (key.sourceChatId, key.sourceTopicId, key.targetChatId, key.targetTopicId)) ?_
    rw [routeKeysOf, List.map_map]
    exact not_not.mp hdistinct
  refine .bind ((joinBeforeRun_eq hU).mono ?_)
  rintro _ _ ⟨⟨targets, commands, rfl⟩, -, htargets⟩
  refine .bind (.read (.bind (.write (.bind (.write ?_)))))
  refine .bind (issueCommand_keeps.mono ?_)
  rintro _ _ ⟨commands', rfl⟩
  refine .ret ⟨rfl, hkeys, rule, hrule, ?_⟩
  rw [← htargets]
  exact routeKeys_snapshot

theorem publish_routes {pk : ℕ} {expectedVersion : ℤ} :
    Txn.Post (publish out caller pk expectedVersion) s U fun _ s' =>
      OthersStay pk s s' ∧ ∃ rule, s.rule pk = some rule ∧
        s'.activeTargets pk = rule.publishedTargets out s.dir (s.activeTargets pk) := by
  refine publish_targets (Q := fun targets => OthersStay pk s { s with targets } ∧
    ∃ rule, s.rule pk = some rule ∧ ({ s with targets }).activeTargets pk =
      rule.publishedTargets out s.dir (s.activeTargets pk)) fun rule hrule => ?_
  refine (joinBeforeRun_eq hU).mono ?_
  rintro _ _ ⟨⟨targets, commands, rfl⟩, hstay, htargets⟩
  exact ⟨hstay, rule, hrule, htargets⟩

theorem resolveNames_keeps {rule : CloneRule} {names : List String} :
    Txn.Post (resolveNames out rule names) s U fun _ s' => s' = s := by
  unfold resolveNames
  split
  · exact .ret rfl
  · refine .bind (.read (.bind (orRefuse_keeps.mono ?_)))
    rintro account s ⟨-, rfl⟩
    exact .bind (.emit (hU _) (.lift fun _ _ => rfl))

theorem normalizeFilters_keeps {rule : CloneRule} {filters : Option (List (String × Json))} :
    Txn.Post (normalizeFilters out rule filters) s U fun _ s' => s' = s := by
  unfold normalizeFilters
  split
  · exact .ret rfl
  · exact .ret rfl
  · refine .bind (orCrash_keeps.mono ?_)
    rintro senders s ⟨-, rfl⟩
    refine .bind (orCrash_keeps.mono ?_)
    rintro blocked s ⟨-, rfl⟩
    refine .bind ((resolveNames_keeps hU).mono ?_)
    rintro resolved s rfl
    exact .bind (.lift fun _ _ => .bind (.lift fun _ _ => .ret rfl))

theorem checkTarget_keeps {ruleId : ℕ} {obj : CloneTargetParam} :
    Txn.Post (checkTarget out caller ruleId obj) s U fun _ s' => s' = s := by
  refine .bind (getRule_keeps.mono ?_)
  rintro rule s ⟨-, rfl⟩
  dsimp only
  split
  · exact refuse_keeps
  split
  · exact refuse_keeps
  refine .bind ((resolveRefs_eq hU).mono ?_)
  rintro results s ⟨rfl, -⟩
  refine .bind (resolveOrRaise_keeps.mono ?_)
  rintro srcId s rfl
  refine .bind (resolveOrRaise_keeps.mono ?_)
  rintro dstId s rfl
  split
  · exact refuse_keeps
  refine .bind ((normalizeFilters_keeps hU).mono ?_)
  rintro filters s rfl
  refine .bind (.read ?_)
  split
  · exact refuse_keeps
  · exact .ret rfl

omit hU in
/-- The unique key is looked at after the active routes, whatever these are. -/
theorem addTarget_eq {ruleId : ℕ} {obj : CloneTargetParam} :
    addTarget out caller ruleId obj = (checkTarget out caller ruleId obj >>= storeTarget) := by
  unfold addTarget checkTarget storeTarget
  simp only [Txn.bind_assoc, Txn.ite_bind, refuse, Txn.throw_bind, Txn.ret_bind, Txn.read_bind_ite]

theorem addTarget_keeps {ruleId : ℕ} {obj : CloneTargetParam} :
    Txn.Post (addTarget out caller ruleId obj) s U fun _ s' => ∃ targets, s' = { s with targets } := by
  rw [addTarget_eq]
  refine .bind ((checkTarget_keeps hU).mono ?_)
  rintro target s rfl
  refine .bind (.read ?_)
  split
  · exact .throw
  · exact .bind (.read (.bind (.write (.ret ⟨_, rfl⟩))))

theorem updateTarget_keeps {ruleId targetId : ℕ} {obj : CloneTargetParam} :
    Txn.Post (updateTarget out caller ruleId targetId obj) s U fun _ s' =>
      ∃ targets, s' = { s with targets } := by
  refine .bind (getRule_keeps.mono ?_)
  rintro rule s ⟨-, rfl⟩
  refine .bind (.read (.bind (orRefuse_keeps.mono ?_)))
  rintro target s ⟨-, rfl⟩
  dsimp only
  split
  · refine .bind ((normalizeFilters_keeps hU).mono ?_)
    rintro filters s rfl
    exact .bind (.write (.ret ⟨_, rfl⟩))
  · refine .bind (.write ((addTarget_keeps hU).mono ?_))
    rintro _ _ ⟨targets, rfl⟩
    exact ⟨targets, rfl⟩

omit hU in
theorem retireTarget_keeps {ruleId targetId : ℕ} :
    Txn.Post (retireTarget caller ruleId targetId) s U fun _ s' =>
      ∃ targets, s' = { s with targets } := by
  refine .bind (getRule_keeps.mono ?_)
  rintro rule s ⟨-, rfl⟩
  refine .bind (.read (.bind (orRefuse_keeps.mono ?_)))
  rintro target s ⟨-, rfl⟩
  exact .write ⟨_, rfl⟩

omit hU

/-! ## Editing and publishing -/

inductive RouteRequest
  | addTarget (ruleId : ℕ) (obj : CloneTargetParam)
  | updateTarget (ruleId targetId : ℕ) (obj : CloneTargetParam)
  | retireTarget (ruleId targetId : ℕ)
  | publish (pk : ℕ) (expectedVersion : ℤ)

structure RouteCall where
  out : Outside
  caller : Caller
  request : RouteRequest

def RouteCall.handle (call : RouteCall) : Req Unit :=
  match call.request with
  | .addTarget ruleId obj => (addTarget call.out call.caller ruleId obj).map fun _ => ()
  | .updateTarget ruleId targetId obj =>
    (updateTarget call.out call.caller ruleId targetId obj).map fun _ => ()
  | .retireTarget ruleId targetId => retireTarget call.caller ruleId targetId
  | .publish pk expectedVersion =>
    (publish call.out call.caller pk expectedVersion).map fun _ => ()

/-- A publish that goes through finds the routes apart once the accounts have joined. -/
def RouteCall.FindsApart (s : ControlPlane) (call : RouteCall) : Prop :=
  match call.request with
  | .publish pk _ => call.handle.answer s = .ok () → ∀ rule, s.rule pk = some rule →
    RoutesApart (routeKeysOf (rule.publishedTargets call.out s.dir (s.activeTargets pk)))
  | _ => True

theorem publish_addsRow {pk : ℕ} {expectedVersion : ℤ} :
    Txn.AddsRow RouteCall.handle ControlPlane.versions (fun v => RoutesSound v.snapshot.routeKeys)
      RouteCall.FindsApart s ⟨out, caller, .publish pk expectedVersion⟩ := by
  have hstores := (@publish_stores out caller s (fun _ => True) (fun _ => trivial) pk
    expectedVersion).2
  simp only [Txn.AddsRow, RouteCall.FindsApart, RouteCall.handle, Txn.commit_map, Txn.answer_map]
  rcases Txn.commit_cases (m := publish out caller pk expectedVersion) (s := s) with
    ⟨hsame, e, hanswer⟩ | ⟨v, hrun, hanswer⟩
  · rw [hsame, hanswer]
    exact .inl ⟨rfl, by rintro ⟨⟩⟩
  · obtain ⟨hversions, -, rule, hrule, hkeys⟩ := hstores v _ hrun
    refine .inr ⟨v, hversions, ?_⟩
    rw [hkeys, routesSound_iff, hanswer, hrule]
    constructor
    · rintro hapart - rule' ⟨⟩
      exact hapart
    · intro h
      exact h rfl rule rfl

theorem editing_addsRow {call : RouteCall} {P : CloneRuleVersion → Prop}
    (hpost : Txn.Post call.handle s (fun _ => True) fun _ s' => ∃ targets, s' = { s with targets })
    (hapart : call.FindsApart s) :
    Txn.AddsRow RouteCall.handle ControlPlane.versions P RouteCall.FindsApart s call := by
  obtain ⟨targets, hcommit⟩ := hpost.commit (I := fun s' => ∃ targets, s' = { s with targets })
    ⟨s.targets, rfl⟩
  exact .inl ⟨by rw [hcommit], hapart⟩

theorem routeCall_addsRow (call : RouteCall) :
    Txn.AddsRow RouteCall.handle ControlPlane.versions (fun v => RoutesSound v.snapshot.routeKeys)
      RouteCall.FindsApart s call := by
  obtain ⟨out, caller, request⟩ := call
  cases request with
  | addTarget ruleId obj => exact editing_addsRow (.map (addTarget_keeps fun _ => trivial)) trivial
  | updateTarget ruleId targetId obj =>
    exact editing_addsRow (.map (updateTarget_keeps fun _ => trivial)) trivial
  | retireTarget ruleId targetId => exact editing_addsRow retireTarget_keeps trivial
  | publish pk expectedVersion => exact publish_addsRow

/-- The published snapshots are sound exactly if the routes are apart at each publishing. -/
theorem published_routes_sound_iff (s : ControlPlane) (calls : List RouteCall) :
    (∀ pk v, s.versions.size ≤ pk →
      (Txn.final RouteCall.handle s calls).versions.row? pk = some v →
        RoutesSound v.snapshot.routeKeys) ↔
      Txn.Each RouteCall.handle RouteCall.FindsApart s calls :=
  Txn.rows_good_iff_each fun _ call => routeCall_addsRow call

def selfFeedingCalls : List RouteCall :=
  let out := { ControlPlane.silence with join := fun _ _ _ => .ok fun _ => some (.ok (-100)) }
  let caller : Caller := { id := 1, isSuperuser := true }
  let target : CloneTargetParam :=
    { sourceChatId := "-100", targetChatId := "-100", targetTopicId := some 7 }
  [⟨out, caller, .addTarget 0 target⟩, ⟨out, caller, .publish 0 0⟩]

def withDraft : ControlPlane :=
  let rule : CloneRule := { uuid := "r", tenantId := 1, projectId := 1, accountId := 1, name := "r" }
  { ControlPlane.ofDirectory ControlPlane.memberOfFirst with rules := ⟨[some rule]⟩ }

theorem whole_chat_feeds_itself : ¬ ∀ (s : ControlPlane) (calls : List RouteCall) (pk : ℕ)
    (v : CloneRuleVersion), s.versions.size ≤ pk →
      (Txn.final RouteCall.handle s calls).versions.row? pk = some v →
        RoutesSound v.snapshot.routeKeys := by
  intro h
  have hkeys : ((Txn.final RouteCall.handle withDraft selfFeedingCalls).versions.row? 0).map
      (fun v => v.snapshot.routeKeys) = some [⟨-100, none, -100, some 7⟩] := by decide +kernel
  obtain ⟨v, hrow, hv⟩ := Option.map_eq_some_iff.mp hkeys
  have hsound := h withDraft selfFeedingCalls 0 v (by decide) hrow
  rw [hv] at hsound
  exact hsound.quiet _ List.mem_cons_self (feedsItself_iff.mpr rfl)

/-! ## Where the checks suffice -/

/-- No account is told one chat for both references, unless the source topic is named. -/
def CloneTargetParam.NamesTopic (out : Outside) (obj : CloneTargetParam) : Prop :=
  obj.sourceTopicId = none → ∀ account results chatId,
    out.join 0 account [strip obj.sourceChatId, strip obj.targetChatId] = .ok results →
      results (strip obj.sourceChatId) = some (.ok chatId) →
        results (strip obj.targetChatId) ≠ some (.ok chatId)

/-- Whoever joins the chats of the target is told the ids that it has. -/
structure CloneTarget.Settled (out : Outside) (t : CloneTarget) : Prop where
  source : ∀ purpose account refs results chatId, out.join purpose account refs = .ok results →
    results t.sourceRef = some (.ok chatId) → chatId = t.sourceChatId
  target : ∀ purpose account refs results chatId, out.join purpose account refs = .ok results →
    results t.targetRef = some (.ok chatId) → chatId = t.targetChatId

/-- No route is made of a whole chat into the same chat, and no chat has changed its id where a rule
is published. -/
def RouteCall.Careful (s : ControlPlane) (call : RouteCall) : Prop :=
  match call.request with
  | .addTarget _ obj => obj.NamesTopic call.out
  | .updateTarget _ _ obj => obj.NamesTopic call.out
  | .retireTarget _ _ => True
  | .publish pk _ => ∀ t ∈ s.activeTargets pk, t.2.Settled call.out

/-- Every active route within one chat leaves its source topic. -/
def ControlPlane.RoutesLeave (s : ControlPlane) : Prop :=
  ∀ ruleId, ∀ x ∈ s.activeTargets ruleId, x.2.key.leaves = true

/-- What the joins of an account read and write of a target. -/
def CloneTarget.place (t : CloneTarget) : RouteKey × Option String × Option String :=
  (t.key, t.sourceChatRef, t.targetChatRef)

section Settled

variable {t t' : CloneTarget} {purpose : ℕ} {account : Option TelegramAccount} {refs : List String}
  {rule : CloneRule} {dir : Directory} {targets : List (ℕ × CloneTarget)}

theorem joined_eq_some {ref : String} {r : JoinResult} (h : out.joined purpose account refs ref = some r) :
    ∃ a, out.join purpose a refs = .ok (out.joined purpose account refs) := by
  unfold Outside.joined at h ⊢
  cases account with
  | none => cases h
  | some a =>
    refine ⟨a, ?_⟩
    dsimp only at h ⊢
    cases hjoin : out.join purpose a refs with
    | ok results => rfl
    | error e =>
      rw [hjoin] at h
      cases h

theorem CloneTarget.Settled.of_place (h : t.Settled out) (hplace : t'.place = t.place) :
    t'.Settled out := by
  simp only [CloneTarget.place, CloneTarget.key, Prod.mk.injEq, RouteKey.mk.injEq] at hplace
  obtain ⟨⟨hsource, -, htarget, -⟩, hsourceRef, htargetRef⟩ := hplace
  constructor
  · simpa only [CloneTarget.sourceRef, hsource, hsourceRef] using h.source
  · simpa only [CloneTarget.targetRef, htarget, htargetRef] using h.target

theorem CloneTarget.Settled.chatOf_source (h : t.Settled out) :
    chatOf (out.joined purpose account refs) t.sourceRef t.sourceChatId = t.sourceChatId := by
  unfold chatOf
  split
  · rename_i chatId hresult
    obtain ⟨a, hjoin⟩ := joined_eq_some hresult
    exact h.source _ _ _ _ _ hjoin hresult
  · rfl

theorem CloneTarget.Settled.chatOf_target (h : t.Settled out) :
    chatOf (out.joined purpose account refs) t.targetRef t.targetChatId = t.targetChatId := by
  unfold chatOf
  split
  · rename_i chatId hresult
    obtain ⟨a, hjoin⟩ := joined_eq_some hresult
    exact h.target _ _ _ _ _ hjoin hresult
  · rfl

theorem places_listenerJoined (h : ∀ t ∈ targets, t.2.Settled out) :
    (listenerJoined out dir rule targets).map (fun t => t.2.place) =
      targets.map fun t => t.2.place := by
  unfold listenerJoined
  rw [List.map_map]
  refine List.map_congr_left fun t ht => ?_
  dsimp only [Function.comp_apply]
  split
  · simp only [CloneTarget.place, CloneTarget.key, relocate, (h t ht).chatOf_source,
      (h t ht).chatOf_target]
  · rfl

theorem places_senderJoined (h : ∀ t ∈ targets, t.2.Settled out) (accountId : ℕ) :
    (senderJoined out dir targets accountId).map (fun t => t.2.place) =
      targets.map fun t => t.2.place := by
  unfold senderJoined
  rw [List.map_map]
  refine List.map_congr_left fun t ht => ?_
  dsimp only [Function.comp_apply]
  split
  · rfl
  · simp only [CloneTarget.place, CloneTarget.key, enlist, (h t ht).chatOf_target]

theorem settled_of_places {targets' : List (ℕ × CloneTarget)} (h : ∀ t ∈ targets, t.2.Settled out)
    (hplaces : targets'.map (fun t => t.2.place) = targets.map fun t => t.2.place) :
    ∀ t ∈ targets', t.2.Settled out := by
  intro t' ht'
  have hmem : t'.2.place ∈ targets.map fun t => t.2.place := by
    rw [← hplaces]
    exact List.mem_map.mpr ⟨t', ht', rfl⟩
  obtain ⟨t, ht, hplace⟩ := List.mem_map.mp hmem
  exact (h t ht).of_place hplace.symm

theorem places_foldl_senderJoined (senders : List ℕ) : ∀ {targets : List (ℕ × CloneTarget)},
    (∀ t ∈ targets, t.2.Settled out) →
      (senders.foldl (senderJoined out dir) targets).map (fun t => t.2.place) =
        targets.map fun t => t.2.place := by
  induction senders with
  | nil => exact fun _ => rfl
  | cons accountId senders ih =>
    intro targets h
    have hplaces : (senderJoined out dir targets accountId).map (fun t => t.2.place) =
        targets.map fun t => t.2.place := places_senderJoined h accountId
    rw [List.foldl_cons, ih (settled_of_places h hplaces), hplaces]

/-- Joining moves no route whose chats are settled. -/
theorem routeKeys_publishedTargets (h : ∀ t ∈ targets, t.2.Settled out) :
    routeKeysOf (rule.publishedTargets out dir targets) = routeKeysOf targets := by
  have hplaces : (rule.publishedTargets out dir targets).map (fun t => t.2.place) =
      targets.map fun t => t.2.place := by
    unfold CloneRule.publishedTargets joinedTargets
    split
    · have hlistener : (listenerJoined out dir rule targets).map (fun t => t.2.place) =
          targets.map fun t => t.2.place := places_listenerJoined h
      rw [places_foldl_senderJoined _ (settled_of_places h hlistener), hlistener]
    · rfl
  have hkeys := congrArg (List.map Prod.fst) hplaces
  rwa [List.map_map, List.map_map] at hkeys

end Settled

/-- A new route leaves its source topic: a route within a topic is refused, and one of the whole chat
is not asked for. -/
theorem checkTarget_leaves {ruleId : ℕ} {obj : CloneTargetParam} (hnames : obj.NamesTopic out) :
    Txn.Post (checkTarget out caller ruleId obj) s (fun _ => True) fun target s' =>
      s' = s ∧ target.key.leaves = true := by
  have hU : ∀ u : Use, (fun _ : Use => True) u := fun _ => trivial
  refine .bind (getRule_keeps.mono ?_)
  rintro rule s ⟨-, rfl⟩
  dsimp only
  split
  · exact refuse_keeps
  split
  · exact refuse_keeps
  refine .bind ((resolveRefs_eq hU).mono ?_)
  rintro results s ⟨rfl, hresults⟩
  refine .bind (resolveOrRaise_ok.mono ?_)
  rintro srcId s ⟨rfl, hsrc⟩
  refine .bind (resolveOrRaise_ok.mono ?_)
  rintro dstId s ⟨rfl, hdst⟩
  split
  · exact refuse_keeps
  rename_i hloop
  refine .bind ((normalizeFilters_keeps hU).mono ?_)
  rintro filters s rfl
  refine .bind (.read ?_)
  split
  · exact refuse_keeps
  refine .ret ⟨rfl, ?_⟩
  unfold RouteKey.leaves CloneTarget.key
  dsimp only
  by_cases hsame : srcId = dstId
  · subst hsame
    cases htopic : obj.sourceTopicId with
    | none =>
      subst hresults
      obtain ⟨a, hjoin⟩ := joined_eq_some hsrc
      exact absurd hdst (hnames htopic a _ _ hjoin hsrc)
    | some topic =>
      have hne : obj.targetTopicId ≠ some topic := by
        intro h
        exact hloop (by simp [htopic, h])
      simp [hne]
  · simp [hsame]

theorem ControlPlane.RoutesLeave.of_rows {s' : ControlPlane} (hs : s.RoutesLeave)
    (h : ∀ pk t, s'.targets.row? pk = some t → t.status = .active → t.deleted = false →
      t.key.leaves = true ∨
        ∃ t₀, s.targets.row? pk = some t₀ ∧ t₀.status = .active ∧ t₀.deleted = false ∧
          t₀.key = t.key) :
    s'.RoutesLeave := by
  rintro ruleId ⟨pk, t⟩ ht
  obtain ⟨hrow, -, hactive, hdeleted⟩ := mem_activeTargets.mp ht
  rcases h pk t hrow hactive hdeleted with hleaves | ⟨t₀, hrow₀, hactive₀, hdeleted₀, hkey⟩
  · exact hleaves
  · rw [← hkey]
    exact hs t₀.ruleId (pk, t₀) (mem_activeTargets.mpr ⟨hrow₀, rfl, hactive₀, hdeleted₀⟩)

theorem addTarget_leaves {ruleId : ℕ} {obj : CloneTargetParam} (hs : s.RoutesLeave)
    (hnames : obj.NamesTopic out) :
    Txn.Post (addTarget out caller ruleId obj) s (fun _ => True) fun _ s' => s'.RoutesLeave := by
  rw [addTarget_eq]
  refine .bind ((checkTarget_leaves hnames).mono ?_)
  rintro target s ⟨rfl, hleaves⟩
  refine .bind (.read ?_)
  split
  · exact .throw
  · refine .bind (.read (.bind (.write (.ret (hs.of_rows fun pk t hrow hactive hdeleted => ?_)))))
    rw [Slots.row?_add] at hrow
    split at hrow
    · obtain rfl := Option.some.inj hrow
      exact .inl hleaves
    · exact .inr ⟨t, hrow, hactive, hdeleted, rfl⟩

theorem ControlPlane.RoutesLeave.updateTargetRow {pk : ℕ} {f : CloneTarget → CloneTarget}
    (hs : s.RoutesLeave) (hf : ∀ t, s.targets.row? pk = some t → (f t).status = .active →
      (f t).deleted = false → t.status = .active ∧ t.deleted = false ∧ t.key = (f t).key) :
    (s.updateTargetRow pk f).RoutesLeave := by
  refine hs.of_rows fun pk' t hrow hactive hdeleted => .inr ?_
  change (s.targets.modify pk f).row? pk' = some t at hrow
  rw [Slots.row?_modify] at hrow
  split at hrow
  · rename_i hpk
    subst hpk
    obtain ⟨t₀, hrow₀, rfl⟩ := Option.map_eq_some_iff.mp hrow
    exact ⟨t₀, hrow₀, hf t₀ hrow₀ hactive hdeleted⟩
  · exact ⟨t, hrow, hactive, hdeleted, rfl⟩

theorem retireRow_leaves {pk : ℕ} (hs : s.RoutesLeave) :
    (s.updateTargetRow pk fun t => { t with status := .retired }).RoutesLeave :=
  hs.updateTargetRow fun _ _ => nofun

theorem retireTarget_leaves {ruleId targetId : ℕ} (hs : s.RoutesLeave) :
    Txn.Post (retireTarget caller ruleId targetId) s U fun _ s' => s'.RoutesLeave := by
  refine .bind (getRule_keeps.mono ?_)
  rintro rule s ⟨-, rfl⟩
  refine .bind (.read (.bind (orRefuse_keeps.mono ?_)))
  rintro target s ⟨-, rfl⟩
  exact .write (retireRow_leaves hs)

theorem updateTarget_leaves {ruleId targetId : ℕ} {obj : CloneTargetParam} (hs : s.RoutesLeave)
    (hnames : obj.NamesTopic out) :
    Txn.Post (updateTarget out caller ruleId targetId obj) s (fun _ => True)
      fun _ s' => s'.RoutesLeave := by
  refine .bind (getRule_keeps.mono ?_)
  rintro rule s ⟨-, rfl⟩
  refine .bind (.read (.bind (orRefuse_keeps.mono ?_)))
  rintro target s ⟨htarget, rfl⟩
  dsimp only
  split
  · refine .bind ((normalizeFilters_keeps fun _ => trivial).mono ?_)
    rintro filters s rfl
    refine .bind (.write (.ret (hs.updateTargetRow ?_)))
    rintro t hrow - hdeleted
    obtain ⟨hrow', hkept⟩ := Option.filter_eq_some_iff.mp htarget
    obtain ⟨hrow', -⟩ := Option.filter_eq_some_iff.mp hrow'
    obtain rfl := Option.some.inj (hrow.symm.trans hrow')
    rw [Bool.and_eq_true, decide_eq_true_eq, decide_eq_true_eq] at hkept
    exact ⟨hkept.2, hdeleted, rfl⟩
  · exact .bind (.write (addTarget_leaves (retireRow_leaves hs) hnames))

theorem publish_leaves {pk : ℕ} {expectedVersion : ℤ} (hs : s.RoutesLeave)
    (hsettled : ∀ t ∈ s.activeTargets pk, t.2.Settled out) :
    Txn.Post (publish out caller pk expectedVersion) s (fun _ => True) fun _ s' => s'.RoutesLeave := by
  refine (publish_routes fun _ => trivial).mono ?_
  rintro _ s' ⟨hstay, rule, -, htargets⟩ ruleId x hx
  by_cases hrule : ruleId = pk
  · subst hrule
    have hkey : x.2.key ∈ routeKeysOf (s.activeTargets ruleId) := by
      rw [← routeKeys_publishedTargets hsettled, ← htargets]
      exact List.mem_map.mpr ⟨x, hx, rfl⟩
    obtain ⟨t, ht, hkey⟩ := List.mem_map.mp hkey
    rw [← hkey]
    exact hs ruleId t ht
  · exact hs ruleId x ((hstay ruleId hrule x).mp hx)

theorem routeCall_leaves {call : RouteCall} (hs : s.RoutesLeave) (hcareful : call.Careful s) :
    Txn.Post call.handle s (fun _ => True) fun _ s' => s'.RoutesLeave := by
  obtain ⟨out, caller, request⟩ := call
  cases request with
  | addTarget ruleId obj => exact .map (addTarget_leaves hs hcareful)
  | updateTarget ruleId targetId obj => exact .map (updateTarget_leaves hs hcareful)
  | retireTarget ruleId targetId => exact retireTarget_leaves hs
  | publish pk expectedVersion => exact .map (publish_leaves hs hcareful)

/-- A publish has compared the routes itself. -/
theorem findsApart_of_careful {call : RouteCall} (hs : s.RoutesLeave) (hcareful : call.Careful s) :
    call.FindsApart s := by
  obtain ⟨out, caller, request⟩ := call
  cases request with
  | addTarget ruleId obj => trivial
  | updateTarget ruleId targetId obj => trivial
  | retireTarget ruleId targetId => trivial
  | publish pk expectedVersion =>
    intro hanswer rule _
    simp only [RouteCall.handle, Txn.answer_map] at hanswer
    rw [routeKeys_publishedTargets hcareful]
    rcases Txn.commit_cases (m := publish out caller pk expectedVersion) (s := s) with
      ⟨-, e, herror⟩ | ⟨v, hrun, -⟩
    · rw [herror] at hanswer
      cases hanswer
    · obtain ⟨-, hdistinct, -⟩ := (publish_stores (U := fun _ => True) fun _ => trivial).2 v _ hrun
      refine ⟨hdistinct, fun key hkey => ?_⟩
      obtain ⟨t, ht, rfl⟩ := List.mem_map.mp hkey
      exact hs pk t ht

/-- In a session that asks for no route of a whole chat into itself, and in which no chat changes its
id, the checks of the requests keep every published snapshot sound. -/
theorem published_routes_sound_of_careful {calls : List RouteCall} (hs : s.RoutesLeave)
    (hcareful : Txn.Each RouteCall.handle RouteCall.Careful s calls) :
    ∀ pk v, s.versions.size ≤ pk →
      (Txn.final RouteCall.handle s calls).versions.row? pk = some v →
        RoutesSound v.snapshot.routeKeys := by
  refine (Txn.rows_good_iff_each fun _ call => routeCall_addsRow call).mpr ?_
  induction calls generalizing s with
  | nil => trivial
  | cons call calls ih =>
    refine Txn.each_cons (findsApart_of_careful hs hcareful.head) (ih ?_ hcareful.tail)
    exact (routeCall_leaves hs hcareful.head).commit hs

end TgPlatform
