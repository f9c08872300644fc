import TgPlatform.Rules.Reports
import TgPlatform.Worker.Rules

/-! # Who listens after a report

A report of a dead status hands the rules of the account over, each to the
first account of its pool that can take over. The published rows that a worker
pulls follow the listener, and the accounts of their pools are named by uuid.
-/

namespace TgPlatform

variable (out : Outside)

namespace ControlPlane

variable (s : ControlPlane)

def sourceRefs (pk : ℕ) : List String :=
  ((s.targetsOf pk).filter fun t => t.2.status = .active).filterMap fun t => truthy t.2.sourceChatRef

def joinResults (a : TelegramAccount) (refs : List String) : String → Option JoinResult :=
  match out.join 2 a refs with
  | .ok results => results
  | .error _ => fun _ => none

def joins (a : TelegramAccount) (refs : List String) : Bool :=
  refs.all fun ref => JoinResult.isOk (joinResults out a refs ref)

def candidate (dead : ℕ) (rule : CloneRule) (refs : List String) (pid : ℕ) : Option TelegramAccount :=
  if pid = dead then none
  else ((s.dir.accountByScope rule.tenantId rule.projectId pid).filter TelegramAccount.canListen).filter
    fun a => joins out a refs

def successor (dead pk : ℕ) (rule : CloneRule) : Option TelegramAccount :=
  if rule.accountId ≠ dead || rule.status ≠ .published || !rule.enabled then none
  else rule.senderAccountIds.findSome? (s.candidate out dead rule (s.sourceRefs pk))

/-- The rule after the failover, with the command that tells its new listener's worker. -/
def handOver (dead : ℕ) (r : ℕ × CloneRule) : ControlPlane :=
  match s.successor out dead r.1 r.2 with
  | none => s
  | some cand =>
    { s.updateRuleRow r.1 fun rule => { rule with accountId := cand.id } with
      commands := s.commands.add {
        tenantId := r.2.tenantId, projectId := r.2.projectId, accountId := cand.id
        type := "ReloadConfig"
        dedupKey := s!"failover-{r.1}-" ++ String.ofList ((out.uuid r.1).toList.take 8)
        issuedBy := 0, deadline := some (out.now + commandTtl) } }

end ControlPlane

variable {out} {s : ControlPlane} {dead pk : ℕ} {rule : CloneRule} {refs : List String} {status : String}

/-! ## What the transactions return -/

theorem takeover_ok {pid : ℕ} :
    (takeover out dead rule refs pid s).2 = .ok (s.candidate out dead rule refs pid, s) := by
  unfold takeover ControlPlane.candidate
  split
  · rfl
  · refine (Txn.ok_bind rfl).trans ?_
    cases (s.dir.accountByScope rule.tenantId rule.projectId pid).filter TelegramAccount.canListen with
    | none => rfl
    | some a =>
      dsimp only
      split
      · subst refs
        rfl
      · have hjoin : (Txn.attempt (out.joinChatRefs 2 rule.scope a refs) (fun _ => true) (fun _ => none)
            s).2 = .ok (ControlPlane.joinResults out a refs, s) := by
          unfold Txn.attempt Outside.joinChatRefs ControlPlane.joinResults
          cases out.join 2 a refs <;> rfl
        exact Txn.ok_bind hjoin

theorem failoverRule_ok (r : ℕ × CloneRule) : ∃ new,
    (failoverRule out dead r.1 r.2 s).2 = .ok (new, s.handOver out dead r) := by
  unfold failoverRule ControlPlane.handOver ControlPlane.successor
  split
  · exact ⟨none, rfl⟩
  · have hfirst : (Txn.firstSome (takeover out dead r.2 (s.sourceRefs r.1)) r.2.senderAccountIds s).2 =
        .ok (r.2.senderAccountIds.findSome? (s.candidate out dead r.2 (s.sourceRefs r.1)), s) :=
      Txn.firstSome_ok fun pid _ => takeover_ok
    cases hcand : r.2.senderAccountIds.findSome? (s.candidate out dead r.2 (s.sourceRefs r.1)) with
    | none =>
      rw [hcand] at hfirst
      exact ⟨none, (Txn.ok_bind rfl).trans (Txn.ok_bind hfirst)⟩
    | some cand =>
      rw [hcand] at hfirst
      exact ⟨some cand.id, (Txn.ok_bind rfl).trans (Txn.ok_bind hfirst)⟩

/-! ## What a failover reads and writes -/

theorem successor_congr {s' : ControlPlane} (hdir : s'.dir = s.dir) (htargets : s'.targets = s.targets) :
    s'.successor out dead pk rule = s.successor out dead pk rule := by
  unfold ControlPlane.successor ControlPlane.sourceRefs ControlPlane.candidate ControlPlane.targetsOf
  rw [hdir, htargets]

structure SameDesk (s s' : ControlPlane) : Prop where
  dir : s'.dir = s.dir
  targets : s'.targets = s.targets
  versions : s'.versions = s.versions

theorem sameDesk_handOver (r : ℕ × CloneRule) : SameDesk s (s.handOver out dead r) := by
  unfold ControlPlane.handOver
  split <;> exact ⟨rfl, rfl, rfl⟩

def CloneRule.heardBy (rule : CloneRule) (cand : Option TelegramAccount) : CloneRule :=
  match cand with
  | none => rule
  | some a => { rule with accountId := a.id }

theorem rules_handOver (r : ℕ × CloneRule) (i : ℕ) : (s.handOver out dead r).rules.row? i =
    if r.1 = i then (s.rules.row? i).map fun row => row.heardBy (s.successor out dead r.1 r.2)
    else s.rules.row? i := by
  unfold ControlPlane.handOver
  cases s.successor out dead r.1 r.2 with
  | none =>
    dsimp only
    split
    · simp [CloneRule.heardBy]
    · rfl
  | some cand => exact Slots.row?_modify i

theorem SameDesk.refl : SameDesk s s := ⟨rfl, rfl, rfl⟩

theorem SameDesk.trans {t u : ControlPlane} (h : SameDesk s t) (h' : SameDesk t u) : SameDesk s u :=
  ⟨h'.dir.trans h.dir, h'.targets.trans h.targets, h'.versions.trans h.versions⟩

theorem sameDesk_failover (l : List (ℕ × CloneRule)) :
    SameDesk s (l.foldl (fun t r => t.handOver out dead r) s) := by
  induction l generalizing s with
  | nil => exact .refl
  | cons r l ih => exact (sameDesk_handOver r).trans ih

theorem rules_failover : ∀ {l : List (ℕ × CloneRule)} {s : ControlPlane}, (l.map Prod.fst).Nodup →
    ∀ i rule, (i, rule) ∈ l → (l.foldl (fun t r => t.handOver out dead r) s).rules.row? i =
      (s.rules.row? i).map fun row => row.heardBy (s.successor out dead i rule)
  | [], _, _, _, _, hmem => by cases hmem
  | r :: l, s, hnodup, i, rule, hmem => by
    obtain ⟨hr, hnodup⟩ := List.nodup_cons.mp hnodup
    have hdesk : SameDesk s (s.handOver out dead r) := sameDesk_handOver r
    rcases List.mem_cons.mp hmem with rfl | hmem
    · have hrest : ∀ {l : List (ℕ × CloneRule)} {t : ControlPlane}, i ∉ l.map Prod.fst →
          (l.foldl (fun t r => t.handOver out dead r) t).rules.row? i = t.rules.row? i := by
        intro l
        induction l with
        | nil => exact fun _ => rfl
        | cons r l ih =>
          intro t hi
          rw [List.map_cons, List.mem_cons, not_or] at hi
          rw [List.foldl_cons, ih hi.2, rules_handOver, if_neg (Ne.symm hi.1)]
      rw [List.foldl_cons, hrest hr, rules_handOver, if_pos rfl]
    · have hne : r.1 ≠ i := by
        intro hi
        exact hr (List.mem_map.mpr ⟨(i, rule), hmem, hi.symm⟩)
      rw [List.foldl_cons, rules_failover hnodup i rule hmem, rules_handOver, if_neg hne,
        successor_congr hdesk.dir hdesk.targets]

/-! ## Observed accounts -/

section Observed

variable {d : Directory} {tenantId projectId pid : ℕ}

theorem accountByScope_observe : (d.observe pk status).accountByScope tenantId projectId pid =
    (d.accountByScope tenantId projectId pid).map fun a => a.observe pk status := by
  unfold Directory.accountByScope Directory.observe
  rw [List.find?_map]
  congr 1
  apply congrArg (fun q => d.accounts.find? q)
  funext a
  simp only [Function.comp, TelegramAccount.observe]
  split <;> rfl

/-- The account that a status is observed of takes no rule over from itself. -/
theorem successor_observe :
    ({ s with dir := s.dir.observe pk status } : ControlPlane).successor out pk dead rule =
    s.successor out pk dead rule := by
  unfold ControlPlane.successor
  congr 1
  apply congrArg (fun f => rule.senderAccountIds.findSome? f)
  funext pid
  unfold ControlPlane.candidate
  split
  · rfl
  · rename_i hne
    dsimp only
    rw [accountByScope_observe]
    cases hacc : s.dir.accountByScope rule.tenantId rule.projectId pid with
    | none => rfl
    | some a =>
      have hid : a.id = pid := by
        have hfound := List.find?_some hacc
        simp only [Bool.and_eq_true, decide_eq_true_eq] at hfound
        exact hfound.1.1.1
      have hsame : a.observe pk status = a := by
        unfold TelegramAccount.observe
        rw [if_neg (hid ▸ hne)]
      rw [Option.map_some, hsame]
      rfl

end Observed

/-! ## A report -/

section Report

variable {account : TelegramAccount}

/-- A report of a dead status, once its account is there, is a failover of all rules. -/
theorem report_eq (haccount : s.dir.account pk = some account) (hstatus : status ∈ listenerDead) :
    (reportAccountStatus out pk status).commit s =
      s.liveRules.foldl (fun t r => t.handOver out pk r) { s with dir := s.dir.observe pk status } := by
  obtain ⟨news, hnews⟩ : ∃ news, (Txn.collect (fun r => failoverRule out pk r.1 r.2) s.liveRules
      { s with dir := s.dir.observe pk status }).2 =
        .ok (news, s.liveRules.foldl (fun t r => t.handOver out pk r)
          { s with dir := s.dir.observe pk status }) :=
    Txn.collect_ok (I := fun _ => True) trivial fun r _ t _ => ⟨trivial, failoverRule_ok r⟩
  have hfound : (orRefuse .notFound "账号不存在" (s.dir.account pk) s).2 = .ok (account, s) := by
    rw [haccount]
    rfl
  apply Txn.commit_of_ok (a := (news.filterMap id).getLast?)
  unfold reportAccountStatus failoverListenerIfDead
  rw [if_neg (not_not.mpr hstatus)]
  refine (Txn.ok_bind rfl).trans ?_
  refine (Txn.ok_bind hfound).trans ?_
  refine (Txn.ok_bind rfl).trans ?_
  refine (Txn.ok_bind rfl).trans ?_
  exact (Txn.ok_bind hnews).trans rfl

theorem report_of_missing (haccount : s.dir.account pk = none) :
    (reportAccountStatus out pk status).commit s = s := by
  have hmissing : (orRefuse .notFound "账号不存在" (s.dir.account pk) s).2 =
      .error (.error ⟨.notFound, "账号不存在"⟩) := by
    rw [haccount]
    rfl
  apply Txn.commit_of_error
  unfold reportAccountStatus
  refine (Txn.ok_bind rfl).trans ?_
  exact Txn.error_bind hmissing

theorem rule_reported {i : ℕ} (haccount : s.dir.account pk = some account)
    (hstatus : status ∈ listenerDead) (hrule : s.rule i = some rule) :
    ((reportAccountStatus out pk status).commit s).rule i =
      some (rule.heardBy (s.successor out pk i rule)) := by
  obtain ⟨hrow, hlive⟩ := ControlPlane.rule_eq_some.mp hrule
  have hmem : (i, rule) ∈ s.liveRules := Slots.mem_where.mpr ⟨hrow, by simp [hlive]⟩
  have hnodup : (s.liveRules.map Prod.fst).Nodup := Slots.nodup_where
  rw [report_eq haccount hstatus, ControlPlane.rule_eq_some]
  constructor
  · rw [rules_failover hnodup i rule hmem, successor_observe]
    exact congrArg _ hrow
  · unfold CloneRule.heardBy
    split <;> exact hlive

theorem tables_reported (haccount : s.dir.account pk = some account) (hstatus : status ∈ listenerDead) :
    ((reportAccountStatus out pk status).commit s).versions = s.versions ∧
      ((reportAccountStatus out pk status).commit s).dir = s.dir.observe pk status := by
  rw [report_eq haccount hstatus]
  exact ⟨(sameDesk_failover _).versions, (sameDesk_failover _).dir⟩

/-- No account of the rule's pool can take over from the account, unless another one listens. -/
def ControlPlane.NoSuccessor (out : Outside) (s : ControlPlane) (dead pk : ℕ) (rule : CloneRule) :
    Prop :=
  rule.accountId = dead → ∀ pid ∈ rule.senderAccountIds,
    s.candidate out dead rule (s.sourceRefs pk) pid = none

theorem successor_eq_none (hrunning : rule.status = .published ∧ rule.enabled = true) :
    s.successor out dead pk rule = none ↔ s.NoSuccessor out dead pk rule := by
  unfold ControlPlane.successor ControlPlane.NoSuccessor
  by_cases hlistens : rule.accountId = dead
  · simp [hlistens, hrunning.1, hrunning.2, List.findSome?_eq_none_iff]
  · simp [hlistens]

theorem successor_ne {cand : TelegramAccount} (h : s.successor out dead pk rule = some cand) :
    cand.id ≠ rule.accountId := by
  unfold ControlPlane.successor at h
  split at h
  · cases h
  · rename_i hlistens
    obtain ⟨pid, -, hcand⟩ := List.exists_of_findSome?_eq_some h
    unfold ControlPlane.candidate at hcand
    split at hcand
    · cases hcand
    · rename_i hpid
      have hfound := List.find?_some
        (Option.filter_eq_some_iff.mp (Option.filter_eq_some_iff.mp hcand).1).1
      simp only [Bool.and_eq_true, decide_eq_true_eq] at hfound
      simp only [Bool.or_eq_true, decide_eq_true_eq, not_or, not_not] at hlistens
      rw [hfound.1.1.1, hlistens.1.1]
      exact hpid

end Report

/-! ## What the workers pull -/

variable (readFilter : Option Json → RouteFilter)

/-- A target of a snapshot, as a worker takes it; `readFilter` reads its filter dict. -/
def publishedTarget : String × ℤ × Option ℤ × ℤ × Option ℤ × Option Json → PublishedTarget
  | (routeId, sourceChatId, sourceTopicId, targetChatId, targetTopicId, filters) =>
    { routeId, targetChatId, targetTopicId, sourceChatId, sourceTopicId, filters := readFilter filters }

namespace ControlPlane

variable (s : ControlPlane)

/-- The row that `pull_rules` answers with for one rule; an account that is gone has no uuid. -/
def publishedRow (pk : ℕ) (rule : CloneRule) : Option PublishedRule :=
  if rule.status ≠ .published || !rule.enabled then none
  else
    (s.versions.first? fun v => v.ruleId = pk && v.version = rule.currentVersion).map fun cur =>
      let snap := cur.2.snapshot
      let poolIds := if snap.senderAccountIds = [] then [rule.accountId] else snap.senderAccountIds
      let uuidOf := fun pid =>
        (s.dir.accountByScope rule.tenantId rule.projectId pid).map TelegramAccount.uuid
      { ruleId := toString (if snap.id = 0 then pk else snap.id)
        version := cur.2.version
        accountUuid := uuidOf rule.accountId
        -- the platform stores modes that exist
        mode := (cloneMode snap.mode).getD .copy
        senderAccountUuids := poolIds.map fun pid => (uuidOf pid).getD ""
        transform := snap.transform
        syncEdit := snap.syncEdit
        syncDelete := snap.syncDelete
        targets := snap.targets.map (publishedTarget readFilter) }

/-- `pull_rules`. -/
def pullRules (accountId : ℕ) : List PublishedRule :=
  s.liveRules.filterMap fun r =>
    if r.2.accountId ≠ accountId then none else s.publishedRow readFilter r.1 r.2

def published (pk : ℕ) : Option PublishedRule := (s.rule pk).bind (s.publishedRow readFilter pk)

end ControlPlane

theorem mem_pullRules {row : PublishedRule} {accountId : ℕ} : row ∈ s.pullRules readFilter accountId ↔
    ∃ i rule, s.rule i = some rule ∧ rule.accountId = accountId ∧
      s.published readFilter i = some row := by
  unfold ControlPlane.pullRules ControlPlane.published
  rw [List.mem_filterMap]
  constructor
  · rintro ⟨⟨i, rule⟩, hmem, hrow⟩
    obtain ⟨hi, hlive⟩ := Slots.mem_where.mp hmem
    have hrule : s.rule i = some rule := ControlPlane.rule_eq_some.mpr ⟨hi, by simpa using hlive⟩
    split at hrow
    · cases hrow
    · rename_i hlistens
      exact ⟨i, rule, hrule, not_not.mp hlistens, by rw [hrule]; exact hrow⟩
  · rintro ⟨i, rule, hrule, rfl, hrow⟩
    obtain ⟨hi, hlive⟩ := ControlPlane.rule_eq_some.mp hrule
    rw [hrule] at hrow
    refine ⟨(i, rule), Slots.mem_where.mpr ⟨hi, by simp [hlive]⟩, ?_⟩
    rw [if_neg (not_not.mpr rfl)]
    exact hrow

theorem running_of_published {i : ℕ} {row : PublishedRule} (hrule : s.rule i = some rule)
    (hrow : s.published readFilter i = some row) : rule.status = .published ∧ rule.enabled = true := by
  unfold ControlPlane.published ControlPlane.publishedRow at hrow
  rw [hrule] at hrow
  dsimp only [Option.bind_some] at hrow
  split at hrow
  · cases hrow
  · rename_i hrunning
    simpa using hrunning

theorem published_reported {i : ℕ} {account : TelegramAccount}
    (haccount : s.dir.account pk = some account)
    (hstatus : status ∈ listenerDead) (hrule : s.rule i = some rule)
    (hkept : s.successor out pk i rule = none) :
    ((reportAccountStatus out pk status).commit s).published readFilter i =
      s.published readFilter i := by
  have hversions : ((reportAccountStatus out pk status).commit s).versions = s.versions :=
    (tables_reported haccount hstatus).1
  have hdir : ((reportAccountStatus out pk status).commit s).dir = s.dir.observe pk status :=
    (tables_reported haccount hstatus).2
  have huuid : ∀ tenantId projectId pid,
      ((s.dir.observe pk status).accountByScope tenantId projectId pid).map TelegramAccount.uuid =
        (s.dir.accountByScope tenantId projectId pid).map TelegramAccount.uuid := by
    intro tenantId projectId pid
    rw [accountByScope_observe, Option.map_map]
    congr 1
    funext a
    exact TelegramAccount.observe_uuid a pk status
  unfold ControlPlane.published
  rw [rule_reported haccount hstatus hrule, hkept, hrule]
  unfold ControlPlane.publishedRow
  simp only [Option.bind_some, CloneRule.heardBy, hversions, hdir, huuid]

end TgPlatform
