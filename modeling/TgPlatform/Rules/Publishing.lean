import TgPlatform.Lib.Overlap
import TgPlatform.Rules.SelfFeeding

/-! # Overlapping publishes

A publish compares the version it has read without a lock. What orders the
publishes of a rule is the unique key of the version it then inserts: the
others wait for it and are rolled back with it in place.
-/

namespace TgPlatform

open Overlap

structure PublishRequest where
  out : Outside
  caller : Caller
  pk : ℕ
  expectedVersion : ℤ

/-- How far a publish has come, with what it has read. -/
inductive PublishPoint
  | reading (req : PublishRequest)
  | listing (req : PublishRequest) (rule : CloneRule)
  | flushing (req : PublishRequest) (rule : CloneRule) (targets changed : List (ℕ × CloneTarget))
  | syncing (req : PublishRequest) (rule : CloneRule) (targets : List (ℕ × CloneTarget))
  | inserting (req : PublishRequest) (rule : CloneRule) (targets : List (ℕ × CloneTarget))
  | updating (req : PublishRequest) (rule : CloneRule) (version : CloneRuleVersion)
  | reloading (req : PublishRequest) (rule : CloneRule) (version : CloneRuleVersion)
  | ending (req : PublishRequest) (rule : CloneRule) (version : CloneRuleVersion)

inductive PublishLock
  | target (pk : ℕ)
  | version (ruleId : ℕ) (version : ℤ)
  | rule (pk : ℕ)
  deriving DecidableEq, Repr

def CloneTarget.rejoined (old new : CloneTarget) : Bool :=
  old.sourceChatId ≠ new.sourceChatId || old.targetChatId ≠ new.targetChatId ||
    old.joinedAccountId ≠ new.joinedAccountId || old.joinedAt ≠ new.joinedAt ||
    old.healthReason ≠ new.healthReason || old.joinedAccountIds ≠ new.joinedAccountIds

def rejoinedRows (old new : List (ℕ × CloneTarget)) : List (ℕ × CloneTarget) :=
  ((old.zip new).filter fun x => x.1.2.rejoined x.2.2).map Prod.snd

/-- A row with what joining may change as it is in `new`. -/
def CloneTarget.asJoined (new row : CloneTarget) : CloneTarget :=
  { row with
    sourceChatId := new.sourceChatId, targetChatId := new.targetChatId
    joinedAccountId := new.joinedAccountId, joinedAt := new.joinedAt
    healthReason := new.healthReason, joinedAccountIds := new.joinedAccountIds }

def PublishRequest.version (req : PublishRequest) (rule : CloneRule)
    (targets : List (ℕ × CloneTarget)) : CloneRuleVersion where
  ruleId := req.pk
  tenantId := rule.tenantId
  projectId := rule.projectId
  version := rule.currentVersion + 1
  snapshot := rule.snapshot req.pk targets
  publishedBy := req.caller.id
  publishedAt := req.out.now

def CloneRule.published (rule row : CloneRule) : CloneRule :=
  { row with currentVersion := rule.currentVersion + 1, status := .published }

/-- A request of another service within the transaction. -/
def within (m : Req Unit) (s : ControlPlane) (next : PublishPoint) :
    Move ControlPlane PublishLock (PublishRequest × CloneRuleVersion) PublishPoint :=
  match m.answer s with
  | .error _ => .rollback
  | .ok () => .go [] m.commit next

/-- The statements of `publish`. -/
def publishNext : PublishPoint → ControlPlane →
    Move ControlPlane PublishLock (PublishRequest × CloneRuleVersion) PublishPoint
  | .reading req, s =>
    match (getRule req.caller req.pk).answer s with
    | .error _ => .rollback
    | .ok rule => .go [] id (.listing req rule)
  | .listing req rule, s =>
    let targets := s.activeTargets req.pk
    if rule.status = .disabled || rule.currentVersion ≠ req.expectedVersion || targets = [] ||
        ¬ (targets.map fun t => t.2.routeKey).Nodup then .rollback
    else if rule.enabled then
      -- of what the joins read, other publishes write the targets only, and those are listed
      match (autoJoin req.out req.pk rule s).2 with
      | .error _ => .rollback
      | .ok (_, s') =>
        let joined := s'.activeTargets req.pk
        .go [] id (.flushing req rule joined (rejoinedRows targets joined))
    else .go [] id (.inserting req rule targets)
  | .flushing req rule targets [], _ => .go [] id (.syncing req rule targets)
  | .flushing req rule targets (t :: rest), _ =>
    .go [.target t.1] (fun s => s.updateTargetRow t.1 t.2.asJoined)
      (.flushing req rule targets rest)
  | .syncing req rule targets, s =>
    within (issueCommand req.out req.caller rule.accountId "SyncChats"
      ("syncchats-" ++ req.out.uuid 0)) s (.inserting req rule targets)
  | .inserting req rule targets, s =>
    let version := req.version rule targets
    if (s.versions.first? fun v => v.ruleId = req.pk && v.version = version.version).isSome then
      .rollback
    else .go [.version req.pk version.version]
      (fun s => { s with versions := s.versions.add version }) (.updating req rule version)
  | .updating req rule version, _ =>
    .go [.rule req.pk] (fun s => s.updateRuleRow req.pk rule.published)
      (.reloading req rule version)
  | .reloading req rule version, s =>
    within (notifyReload req.out req.caller rule) s (.ending req rule version)
  | .ending req _ version, _ => .commit (req, version)

/-- `publish`, statement by statement. -/
def publishing : Program PublishRequest ControlPlane PublishLock
    (PublishRequest × CloneRuleVersion) PublishPoint where
  start := .reading
  next point s _ := publishNext point s

/-! ## The versions of one rule -/

def ControlPlane.versionsOf (s : ControlPlane) (pk : ℕ) : List (ℕ × CloneRuleVersion) :=
  s.versions.where_ fun v => v.ruleId = pk

def versionNumbers (n : ℕ) : List ℤ := (List.range n).map fun (i : ℕ) => (i : ℤ) + 1

theorem mem_versionNumbers {n : ℕ} {v : ℤ} : v ∈ versionNumbers n ↔ 1 ≤ v ∧ v ≤ n := by
  simp only [versionNumbers, List.mem_map, List.mem_range]
  constructor
  · rintro ⟨i, hi, rfl⟩
    omega
  · rintro ⟨hpos, hle⟩
    exact ⟨(v - 1).toNat, by omega, by omega⟩

theorem versionNumbers_succ (n : ℕ) : versionNumbers (n + 1) = versionNumbers n ++ [(n : ℤ) + 1] := by
  simp [versionNumbers, List.range_succ]

/-- The version rows of the rule are 1 to its current version, each once. -/
def ControlPlane.Linear (s : ControlPlane) (pk : ℕ) : Prop :=
  ∀ rule, s.rules.row? pk = some rule → ∃ n : ℕ, rule.currentVersion = n ∧
    (s.versionsOf pk).map (fun v => v.2.version) = versionNumbers n

/-! ## What each publish may rely on -/

section Rule

variable {pk : ℕ} {s s' : ControlPlane} {n : ℕ}

def Untouched (t : Session ControlPlane PublishLock PublishPoint) : Prop :=
  ∀ s, (t.write s).rules = s.rules ∧ (t.write s).versions = s.versions

def NotAhead (pk : ℕ) (s : ControlPlane) (rule : CloneRule) : Prop :=
  0 ≤ rule.currentVersion ∧ ∃ row, s.rules.row? pk = some row ∧ rule.currentVersion ≤ row.currentVersion

structure InsertedVersion (t : Session ControlPlane PublishLock PublishPoint)
    (req : PublishRequest) (rule : CloneRule) (version : CloneRuleVersion) : Prop where
  expected : rule.currentVersion = req.expectedVersion
  ruleId : version.ruleId = req.pk
  number : version.version = rule.currentVersion + 1
  locked : .version req.pk version.version ∈ t.held
  versions : ∀ s, (t.write s).versions = s.versions.add version

/-- What a publish may rely on for the rule `pk`. -/
def Relies (pk : ℕ) (s : ControlPlane) (t : Session ControlPlane PublishLock PublishPoint) : Prop :=
  match t.at_ with
  | .reading _ => Untouched t
  | .listing req rule => Untouched t ∧ (req.pk = pk → NotAhead pk s rule)
  | .flushing req rule _ _ | .syncing req rule _ | .inserting req rule _ =>
    rule.currentVersion = req.expectedVersion ∧ Untouched t ∧ (req.pk = pk → NotAhead pk s rule)
  | .updating req rule version =>
    InsertedVersion t req rule version ∧ (∀ s, (t.write s).rules = s.rules) ∧
      (req.pk = pk → ∃ row, s.rules.row? pk = some row ∧ row.currentVersion = rule.currentVersion)
  | .reloading req rule version | .ending req rule version =>
    InsertedVersion t req rule version ∧
      (∀ s, (t.write s).rules = s.rules.modify req.pk rule.published) ∧
      (req.pk = pk → ∃ row, s.rules.row? pk = some row ∧ row.currentVersion = rule.currentVersion)

/-- The publishes of the rule that have succeeded, each with its own expected version. -/
structure Recorded (pk : ℕ) (s : ControlPlane) (log : List (PublishRequest × CloneRuleVersion)) :
    Prop where
  below : ∀ done ∈ log, done.1.pk = pk → ∃ row, s.rules.row? pk = some row ∧
    done.1.expectedVersion < row.currentVersion
  once : ((log.filter fun done => done.1.pk = pk).map fun done => done.1.expectedVersion).Nodup

/-! ### The end of a publish -/

variable {t u : Session ControlPlane PublishLock PublishPoint} {req : PublishRequest}
  {rule : CloneRule} {version : CloneRuleVersion}

structure Publishes (req : PublishRequest) (rule : CloneRule) (version : CloneRuleVersion)
    (s s' : ControlPlane) : Prop where
  rules : s'.rules = s.rules.modify req.pk rule.published
  versions : s'.versions = s.versions.add version

theorem Publishes.row_self (h : Publishes req rule version s s') {row : CloneRule}
    (hrow : s.rules.row? req.pk = some row) :
    s'.rules.row? req.pk = some (rule.published row) := by
  rw [h.rules, Slots.row?_modify_self, hrow]
  rfl

theorem Publishes.row_other (h : Publishes req rule version s s') (hpk : req.pk ≠ pk) :
    s'.rules.row? pk = s.rules.row? pk := by
  rw [h.rules, Slots.row?_modify, if_neg hpk]

theorem Publishes.linear (h : Publishes req rule version s s') (hs : s.Linear pk)
    (hid : version.ruleId = req.pk) (hnumber : version.version = rule.currentVersion + 1)
    (hrow : req.pk = pk → ∃ row, s.rules.row? pk = some row ∧
      row.currentVersion = rule.currentVersion) : s'.Linear pk := by
  intro rule' hrule'
  have hversions : s'.versionsOf pk = s.versionsOf pk ++
      if version.ruleId = pk then [(s.versions.size, version)] else [] := by
    unfold ControlPlane.versionsOf
    rw [h.versions, Slots.where_add]
    simp
  by_cases hpk : req.pk = pk
  · subst hpk
    obtain ⟨row, hrow, hlevel⟩ := hrow rfl
    obtain ⟨n, hn, hnumbers⟩ := hs row hrow
    rw [h.row_self hrow] at hrule'
    cases hrule'
    refine ⟨n + 1, ?_, ?_⟩
    · change rule.currentVersion + 1 = _
      omega
    · have hlast : version.version = n + 1 := by omega
      rw [hversions, if_pos hid, List.map_append, hnumbers, versionNumbers_succ, List.map_singleton,
        hlast]
  · rw [h.row_other hpk] at hrule'
    obtain ⟨n, hn, hnumbers⟩ := hs rule' hrule'
    refine ⟨n, hn, ?_⟩
    rw [hversions, if_neg (by rw [hid]; exact hpk), List.append_nil]
    exact hnumbers

theorem Publishes.notAhead (h : Publishes req rule version s s') {rule' : CloneRule}
    (hrow : req.pk = pk → ∃ row, s.rules.row? pk = some row ∧
      row.currentVersion = rule.currentVersion) (hahead : NotAhead pk s rule') :
    NotAhead pk s' rule' := by
  obtain ⟨hpos, row, hold, hle⟩ := hahead
  refine ⟨hpos, ?_⟩
  by_cases hpk : req.pk = pk
  · subst hpk
    obtain ⟨row', hrow', hlevel⟩ := hrow rfl
    rw [hold] at hrow'
    cases hrow'
    refine ⟨_, h.row_self hold, ?_⟩
    change _ ≤ rule.currentVersion + 1
    omega
  · exact ⟨row, by rw [h.row_other hpk, hold], hle⟩

theorem Publishes.recorded (h : Publishes req rule version s s')
    {log : List (PublishRequest × CloneRuleVersion)}
      (hexpected : rule.currentVersion = req.expectedVersion)
    (hrow : req.pk = pk → ∃ row, s.rules.row? pk = some row ∧
      row.currentVersion = rule.currentVersion) (hlog : Recorded pk s log) :
    Recorded pk s' (log ++ [(req, version)]) := by
  by_cases hpk : req.pk = pk
  · subst hpk
    obtain ⟨row, hrow, hlevel⟩ := hrow rfl
    have hrow' := h.row_self hrow
    have hbelow : ∀ done ∈ log, done.1.pk = req.pk → done.1.expectedVersion < rule.currentVersion := by
      intro done hdone hpk
      obtain ⟨row', hrow', hlt⟩ := hlog.below done hdone hpk
      rw [hrow] at hrow'
      cases hrow'
      omega
    constructor
    · intro done hdone hpk
      refine ⟨_, hrow', ?_⟩
      change _ < rule.currentVersion + 1
      rcases List.mem_append.mp hdone with hold | hnew
      · have := hbelow done hold hpk
        omega
      · rw [List.mem_singleton.mp hnew]
        change req.expectedVersion < _
        omega
    · rw [List.filter_append, List.map_append, List.nodup_append']
      refine ⟨hlog.once, by simp, ?_⟩
      intro v hv hnew
      obtain ⟨done, hdone, rfl⟩ := List.mem_map.mp hv
      rw [List.mem_filter, decide_eq_true_eq] at hdone
      have hlt := hbelow done hdone.1 hdone.2
      simp at hnew
      omega
  · constructor
    · intro done hdone hpk'
      rcases List.mem_append.mp hdone with hold | hnew
      · rw [h.row_other hpk]
        exact hlog.below done hold hpk'
      · rw [List.mem_singleton.mp hnew] at hpk'
        exact absurd hpk' hpk
    · simpa [List.filter_append, hpk] using hlog.once

/-! ### What each statement keeps -/

theorem Untouched.go {write : ControlPlane → ControlPlane} {locks : List PublishLock}
    {next : PublishPoint} (h : Untouched t)
    (hwrite : ∀ s, (write s).rules = s.rules ∧ (write s).versions = s.versions) :
    Untouched ⟨next, write ∘ t.write, locks ++ t.held⟩ := by
  intro s
  obtain ⟨hrules, hversions⟩ := hwrite (t.write s)
  obtain ⟨hrules', hversions'⟩ := h s
  exact ⟨hrules.trans hrules', hversions.trans hversions'⟩

theorem issueCommand_commit {out : Outside} {caller : Caller} {accountId : ℕ} {type dedupKey : String} :
    ∃ commands, (issueCommand out caller accountId type dedupKey).commit s = { s with commands } :=
  (issueCommand_keeps (U := fun _ => True)).commit (I := fun s' => ∃ commands, s' = { s with commands })
    ⟨s.commands, rfl⟩

theorem within_eq_go {m : Req Unit} {next next' : PublishPoint} {locks : List PublishLock}
    {write : ControlPlane → ControlPlane} (h : within m s next = .go locks write next') :
    locks = [] ∧ write = m.commit ∧ next' = next := by
  unfold within at h
  split at h
  · cases h
  · cases h
    exact ⟨rfl, rfl, rfl⟩

theorem relies_reading {locks : List PublishLock} {write : ControlPlane → ControlPlane}
    {next : PublishPoint} (hs : s.Linear pk) (ht : Untouched t)
    (h : publishNext (.reading req) (t.write s) = .go locks write next) :
    Relies pk s ⟨next, write ∘ t.write, locks ++ t.held⟩ := by
  simp only [publishNext] at h
  split at h
  · cases h
  · rename_i rule hanswer
    cases h
    have hread := (getRule_keeps (U := fun _ => True)).answer hanswer
    refine ⟨ht.go fun _ => ⟨rfl, rfl⟩, fun hpk => ?_⟩
    subst hpk
    have hrow : s.rules.row? req.pk = some rule := by
      rw [← (ht s).1]
      exact (ControlPlane.rule_eq_some.mp hread.1).1
    obtain ⟨n, hn, _⟩ := hs rule hrow
    exact ⟨by omega, rule, hrow, le_refl _⟩

theorem relies_listing {locks : List PublishLock} {write : ControlPlane → ControlPlane}
    {next : PublishPoint} (ht : Untouched t) (hahead : req.pk = pk → NotAhead pk s rule)
    (h : publishNext (.listing req rule) (t.write s) = .go locks write next) :
    Relies pk s ⟨next, write ∘ t.write, locks ++ t.held⟩ := by
  simp only [publishNext] at h
  split at h
  · cases h
  rename_i hchecks
  have hexpected : rule.currentVersion = req.expectedVersion := by
    by_contra hne
    simp [hne] at hchecks
  split at h
  · split at h
    · cases h
    · cases h
      exact ⟨hexpected, ht.go fun _ => ⟨rfl, rfl⟩, hahead⟩
  · cases h
    exact ⟨hexpected, ht.go fun _ => ⟨rfl, rfl⟩, hahead⟩

/-- A version that is not there yet while the versions are 1 to the current one. -/
theorem level_of_absent (hs : s.Linear pk) (hahead : NotAhead pk s rule)
    (habsent : s.versions.first? (fun v => v.ruleId = pk && v.version = rule.currentVersion + 1) =
      none) :
    ∃ row, s.rules.row? pk = some row ∧ row.currentVersion = rule.currentVersion := by
  obtain ⟨hpos, row, hrow, hle⟩ := hahead
  obtain ⟨n, hn, hnumbers⟩ := hs row hrow
  refine ⟨row, hrow, le_antisymm ?_ hle⟩
  by_contra hlt
  have hmem : rule.currentVersion + 1 ∈ versionNumbers n := mem_versionNumbers.mpr ⟨by omega, by omega⟩
  rw [← hnumbers, List.mem_map] at hmem
  obtain ⟨x, hx, hnumber⟩ := hmem
  obtain ⟨hrow', hid⟩ := Slots.mem_where.mp hx
  have hfalse := Slots.first?_eq_none habsent hrow'
  rw [decide_eq_true_eq] at hid
  simp [hid, hnumber] at hfalse

theorem relies_inserting {targets : List (ℕ × CloneTarget)} {locks : List PublishLock}
    {write : ControlPlane → ControlPlane} {next : PublishPoint} (hs : s.Linear pk)
    (hexpected : rule.currentVersion = req.expectedVersion) (ht : Untouched t)
    (hahead : req.pk = pk → NotAhead pk s rule)
    (h : publishNext (.inserting req rule targets) (t.write s) = .go locks write next) :
    Relies pk s ⟨next, write ∘ t.write, locks ++ t.held⟩ := by
  simp only [publishNext] at h
  split at h
  · cases h
  · rename_i habsent
    cases h
    rw [Bool.not_eq_true, Option.isSome_eq_false_iff, Option.isNone_iff_eq_none, (ht s).2] at habsent
    refine ⟨⟨hexpected, rfl, rfl, List.mem_cons_self, fun s => ?_⟩, fun s => (ht s).1, fun hpk => ?_⟩
    · change ((t.write s).versions).add _ = _
      rw [(ht s).2]
    · subst hpk
      exact level_of_absent hs (hahead rfl) habsent

theorem InsertedVersion.go {write : ControlPlane → ControlPlane} {locks : List PublishLock}
    {next : PublishPoint} (h : InsertedVersion t req rule version)
    (hwrite : ∀ s, (write s).versions = s.versions) :
    InsertedVersion ⟨next, write ∘ t.write, locks ++ t.held⟩ req rule version where
  expected := h.expected
  ruleId := h.ruleId
  number := h.number
  locked := List.mem_append_right _ h.locked
  versions s := (hwrite (t.write s)).trans (h.versions s)

theorem relies_go {locks : List PublishLock} {write : ControlPlane → ControlPlane}
    {next : PublishPoint} (hs : s.Linear pk) (ht : Relies pk s t)
    (h : publishNext t.at_ (t.write s) = .go locks write next) :
    Relies pk s ⟨next, write ∘ t.write, locks ++ t.held⟩ := by
  obtain ⟨point, w, held⟩ := t
  dsimp only at h
  cases point with
  | reading req => exact relies_reading hs ht h
  | listing req rule => exact relies_listing ht.1 ht.2 h
  | flushing req rule targets changed =>
    obtain ⟨hexpected, huntouched, hahead⟩ := ht
    cases changed with
    | nil =>
      cases h
      exact ⟨hexpected, huntouched.go fun _ => ⟨rfl, rfl⟩, hahead⟩
    | cons x changed =>
      cases h
      exact ⟨hexpected, huntouched.go fun _ => ⟨rfl, rfl⟩, hahead⟩
  | syncing req rule targets =>
    obtain ⟨hexpected, huntouched, hahead⟩ := ht
    obtain ⟨rfl, rfl, rfl⟩ := within_eq_go h
    refine ⟨hexpected, huntouched.go fun s => ?_, hahead⟩
    obtain ⟨commands, hcommit⟩ := issueCommand_commit (s := s)
    rw [hcommit]
    exact ⟨rfl, rfl⟩
  | inserting req rule targets => exact relies_inserting hs ht.1 ht.2.1 ht.2.2 h
  | updating req rule version =>
    obtain ⟨hinserted, hrules, hlevel⟩ := ht
    cases h
    refine ⟨hinserted.go fun _ => rfl, fun s => ?_, hlevel⟩
    change ((w s).rules).modify _ _ = _
    rw [hrules s]
  | reloading req rule version =>
    obtain ⟨hinserted, hrules, hlevel⟩ := ht
    obtain ⟨rfl, rfl, rfl⟩ := within_eq_go h
    have hcommands : ∀ s, ∃ commands, (notifyReload req.out req.caller rule).commit s =
      { s with commands } := fun s => issueCommand_commit
    refine ⟨hinserted.go fun s => ?_, fun s => ?_, hlevel⟩
    · obtain ⟨commands, hcommit⟩ := hcommands s
      rw [hcommit]
    · obtain ⟨commands, hcommit⟩ := hcommands (w s)
      change ((notifyReload req.out req.caller rule).commit (w s)).rules = _
      rw [hcommit]
      exact hrules s
  | ending req rule version => cases h

theorem publishNext_eq_commit {point : PublishPoint} {done : PublishRequest × CloneRuleVersion}
    (h : publishNext point s = .commit done) :
    ∃ rule, point = .ending done.1 rule done.2 := by
  have hwithin : ∀ {m : Req Unit} {next}, within m s next ≠ .commit done := by
    intro m next heq
    unfold within at heq
    split at heq <;> cases heq
  cases point with
  | reading req =>
    simp only [publishNext] at h
    split at h <;> cases h
  | listing req rule =>
    simp only [publishNext] at h
    split at h
    · cases h
    split at h
    · split at h <;> cases h
    · cases h
  | flushing req rule targets changed => cases changed <;> cases h
  | syncing req rule targets => exact (hwithin h).elim
  | inserting req rule targets =>
    simp only [publishNext] at h
    split at h <;> cases h
  | updating req rule version => cases h
  | reloading req rule version => exact (hwithin h).elim
  | ending req rule version =>
    cases h
    exact ⟨rule, rfl⟩

/-- Two publishes that have both inserted the next version of the rule would hold the same key. -/
theorem not_both_inserted {req' : PublishRequest} {rule' : CloneRule} {version' : CloneRuleVersion}
    (ht : InsertedVersion t req rule version) (hu : InsertedVersion u req' rule' version')
    (hdisjoint : t.held.Disjoint u.held) (hpk : req.pk = pk) (hpk' : req'.pk = pk)
    (hrow : ∃ row, s.rules.row? pk = some row ∧ row.currentVersion = rule.currentVersion)
    (hrow' : ∃ row, s.rules.row? pk = some row ∧ row.currentVersion = rule'.currentVersion) :
    False := by
  obtain ⟨row, hrow, hlevel⟩ := hrow
  obtain ⟨row', hrow', hlevel'⟩ := hrow'
  rw [hrow] at hrow'
  cases hrow'
  have hversion : version'.version = version.version := by
    rw [ht.number, hu.number, ← hlevel, ← hlevel']
  have hheld := hu.locked
  rw [hversion, hpk', ← hpk] at hheld
  exact hdisjoint ht.locked hheld

theorem Relies.publishes (hu : Relies pk s u) (h : Publishes req rule version s s')
    (ht : InsertedVersion t req rule version) (hdisjoint : t.held.Disjoint u.held)
    (hrow : req.pk = pk → ∃ row, s.rules.row? pk = some row ∧
      row.currentVersion = rule.currentVersion) : Relies pk s' u := by
  have hlevel : ∀ {req' rule' version'}, InsertedVersion u req' rule' version' →
      (req'.pk = pk → ∃ row, s.rules.row? pk = some row ∧ row.currentVersion = rule'.currentVersion) →
      req'.pk = pk → ∃ row, s'.rules.row? pk = some row ∧ row.currentVersion = rule'.currentVersion := by
    intro req' rule' version' hinserted hrow' hpk'
    by_cases hpk : req.pk = pk
    · exact (not_both_inserted ht hinserted hdisjoint hpk hpk' (hrow hpk) (hrow' hpk')).elim
    · rw [h.row_other hpk]
      exact hrow' hpk'
  obtain ⟨point, w, held⟩ := u
  cases point with
  | reading req' => exact hu
  | listing req' rule' => exact ⟨hu.1, fun hpk' => h.notAhead hrow (hu.2 hpk')⟩
  | flushing req' rule' targets changed =>
    exact ⟨hu.1, hu.2.1, fun hpk' => h.notAhead hrow (hu.2.2 hpk')⟩
  | syncing req' rule' targets => exact ⟨hu.1, hu.2.1, fun hpk' => h.notAhead hrow (hu.2.2 hpk')⟩
  | inserting req' rule' targets =>
    exact ⟨hu.1, hu.2.1, fun hpk' => h.notAhead hrow (hu.2.2 hpk')⟩
  | updating req' rule' version' => exact ⟨hu.1, hu.2.1, hlevel hu.1 hu.2.2⟩
  | reloading req' rule' version' => exact ⟨hu.1, hu.2.1, hlevel hu.1 hu.2.2⟩
  | ending req' rule' version' => exact ⟨hu.1, hu.2.1, hlevel hu.1 hu.2.2⟩

theorem publishing_keeps (pk : ℕ) :
    Keeps publishing (fun _ _ => True) (fun s _ log => s.Linear pk ∧ Recorded pk s log)
      (fun s _ t => Relies pk s t) where
  start s n log req _ := fun s => ⟨rfl, rfl⟩
  later s n log h := ⟨h, fun _ ht => ht⟩
  go s n log t locks write next h ht _ hnext := relies_go h.1 ht hnext
  commit s n log t done h ht _ hnext := by
    obtain ⟨hlinear, hlog⟩ := h
    obtain ⟨rule, hpoint⟩ := publishNext_eq_commit hnext
    obtain ⟨req, version⟩ := done
    obtain ⟨point, w, held⟩ := t
    subst hpoint
    obtain ⟨hinserted, hrules, hrow⟩ := ht
    have hpublishes : Publishes req rule version s (w s) := ⟨hrules s, hinserted.versions s⟩
    refine ⟨⟨?_, ?_⟩, fun u hu hdisjoint => ?_⟩
    · exact hpublishes.linear hlinear hinserted.ruleId hinserted.number hrow
    · exact hpublishes.recorded hinserted.expected hrow hlog
    · exact hu.publishes hpublishes hinserted hdisjoint hrow

end Rule

/-! ## Publishing is linear -/

/-- A version row stays as it is once it is committed, and only a publish that succeeds changes
what is committed. -/
structure KeepsVersions
    (x : State ControlPlane PublishLock (PublishRequest × CloneRuleVersion) PublishPoint)
    (_ : Act PublishRequest)
    (y : State ControlPlane PublishLock (PublishRequest × CloneRuleVersion) PublishPoint) : Prop where
  immutable : ∀ i v, x.committed.versions.row? i = some v → y.committed.versions.row? i = some v
  failed : y.log = x.log → y.committed = x.committed

abbrev Publishable (pk : ℕ)
    (x : State ControlPlane PublishLock (PublishRequest × CloneRuleVersion) PublishPoint) : Prop :=
  Sound (fun s _ log => s.Linear pk ∧ Recorded pk s log) (fun s _ t => Relies pk s t) x

theorem keepsVersions_of_step {pk : ℕ}
    {x y : State ControlPlane PublishLock (PublishRequest × CloneRuleVersion) PublishPoint}
    {a : Act PublishRequest} (h : publishing.step x a = some y) (hx : Publishable pk x) :
    KeepsVersions x a y := by
  rcases committed_of_step h with ⟨_, hsame⟩ | ⟨i, t, done, ht, hnext, hcommitted, hlog⟩
  · exact ⟨fun i v hv => by rwa [hsame], fun _ => hsame⟩
  · obtain ⟨rule, hpoint⟩ := publishNext_eq_commit hnext
    have hrelies := hx.session i t ht
    obtain ⟨point, w, held⟩ := t
    subst hpoint
    constructor
    · intro j v hv
      rw [hcommitted, hrelies.1.versions]
      exact Slots.row?_add_of_some hv
    · intro hsame
      rw [hlog] at hsame
      simp at hsame

/-- Of the publishes of a rule, however they overlap, one at most succeeds for each expected version,
and its version rows are 1 to its current version throughout. -/
theorem publishing_linear {s : ControlPlane} {pk : ℕ} (hs : s.Linear pk) (n : ℕ)
    (acts : List (Act PublishRequest)) :
    Machine.Always publishing.step KeepsVersions { committed := s, serial := n } acts ∧
      ∀ x, Machine.run publishing.step { committed := s, serial := n } acts = some x →
        x.committed.Linear pk ∧
          ((x.log.filter fun done => done.1.pk = pk).map fun done => done.1.expectedVersion).Nodup := by
  have hinit : Publishable pk { committed := s, serial := n } :=
    .init ⟨hs, ⟨fun done h => (List.not_mem_nil h).elim, List.nodup_nil⟩⟩
  have hstep : ∀ x a y, publishing.step x a = some y → Publishable pk x → Publishable pk y :=
    fun _ _ _ hstep hx => hx.step (publishing_keeps pk) (fun _ _ _ _ => trivial) hstep
  constructor
  · exact Machine.always_of_invariant (I := Publishable pk)
      hstep (fun _ _ _ hstep hx => keepsVersions_of_step hstep hx) acts hinit
  · intro x hx
    have hfinal := Machine.run_invariant hstep hx hinit
    exact ⟨hfinal.committed.1, hfinal.committed.2.once⟩

def withRoute : ControlPlane :=
  let target : CloneTarget := {
    ruleId := 0, tenantId := 1, projectId := 1, routeId := "x", sourceChatId := -100
    targetChatId := -200, joinedAccountId := some 1 }
  { withDraft with targets := ⟨[some target]⟩ }

def twoPublishes : List (Act PublishRequest) :=
  let req : PublishRequest := {
    out := ControlPlane.silence, caller := { id := 1, isSuperuser := true }, pk := 0
    expectedVersion := 0 }
  [.start req, .start req] ++
    [0, 1, 0, 1, 0, 1, 0, 1, 0, 0, 0, 0, 1].map .move

theorem publishing_linear_twice :
    ((Machine.run publishing.step { committed := withRoute } twoPublishes).map fun x =>
      (x.log.map fun done => done.2.version, (x.committed.versionsOf 0).map fun v => v.2.version)) =
        some ([1], [1]) ∧
      Machine.Always publishing.step KeepsVersions { committed := withRoute } twoPublishes := by
  constructor
  · decide +kernel
  · refine (@publishing_linear withRoute 0 ?_ 0 twoPublishes).1
    rintro rule ⟨⟩
    exact ⟨0, rfl, rfl⟩

end TgPlatform
