import TgPlatform.Control.AiRequests
import TgPlatform.Control.Steps
import TgPlatform.Control.Views
import TgPlatform.Rules.Reports

/-! # References inside a project

Rules, bindings and published snapshots name accounts and groups by plain
numbers. Here is what it means that all of these lie in the project of the row
that names them, and what the writes keep of it.
-/

namespace TgPlatform

def Directory.Has (d : Directory) (pk : ℕ) (scope : Scope) : Prop :=
  ∃ a ∈ d.accounts, a.id = pk ∧ a.scope = scope

/-- The job is sent by an account of the project that it names. -/
def Directory.Sends (d : Directory) (job : DeliveryJob) : Prop :=
  ∃ t ∈ d.tenants, ∃ p ∈ d.projects, ∃ a ∈ d.accounts, t.uuid = job.tenantId ∧
    p.uuid = job.projectId ∧ a.uuid = job.accountId ∧ a.scope = (t.id, p.id)

/-- What is used belongs to the project it is used for. -/
def Use.Inside : Use → Prop
  | .session account scope => account.scope = scope
  | .key owner scope => owner = scope

namespace Directory

variable {d : Directory} {pk t p : ℕ} {scope : Scope} {a : TelegramAccount}

theorem account_eq_some (h : d.account pk = some a) : a ∈ d.accounts ∧ a.id = pk := by
  have hkey := List.find?_some h
  rw [Bool.and_eq_true, decide_eq_true_eq] at hkey
  exact ⟨List.mem_of_find?_eq_some h, hkey.1⟩

theorem accountByScope_eq_some (h : d.accountByScope t p pk = some a) :
    a ∈ d.accounts ∧ a.id = pk ∧ a.scope = (t, p) := by
  have hkey := List.find?_some h
  simp only [Bool.and_eq_true, decide_eq_true_eq] at hkey
  exact ⟨List.mem_of_find?_eq_some h, hkey.1.1.1, Prod.ext hkey.1.1.2 hkey.1.2⟩

theorem has_of_accountByScope (h : d.accountByScope t p pk = some a) : d.Has pk (t, p) :=
  ⟨a, accountByScope_eq_some h⟩

theorem Has.scope_eq (h : d.Has pk scope) (ha : d.account pk = some a) : a.scope = scope := by
  obtain ⟨b, hb, hid, rfl⟩ := h
  obtain ⟨hmem, hid'⟩ := account_eq_some ha
  rw [eq_of_nodup d.account_ids hmem hb (hid'.trans hid.symm)]

theorem Has.observe {pk' : ℕ} {status : String} (h : d.Has pk scope) :
    (d.observe pk' status).Has pk scope := by
  obtain ⟨a, ha, hid, hscope⟩ := h
  refine ⟨a.observe pk' status, List.mem_map_of_mem ha, ?_, ?_⟩
  · rw [TelegramAccount.observe_id, hid]
  · rw [TelegramAccount.observe_scope, hscope]

theorem Sends.observe {job : DeliveryJob} {pk' : ℕ} {status : String} (h : d.Sends job) :
    (d.observe pk' status).Sends job := by
  obtain ⟨t, ht, p, hp, a, ha, htenant, hproject, haccount, hscope⟩ := h
  refine ⟨t, ht, p, hp, a.observe pk' status, List.mem_map_of_mem ha, htenant, hproject, ?_, ?_⟩
  · rw [TelegramAccount.observe_uuid, haccount]
  · rw [TelegramAccount.observe_scope, hscope]

end Directory

/-- What a live rule refers to. -/
structure CloneRule.Inside (d : Directory) (groups : Slots AiGroup) (r : CloneRule) : Prop where
  listener : d.Has r.accountId r.scope
  pool : ∀ a ∈ r.senderAccountIds, d.Has a r.scope
  group : ∀ gid ∈ r.aiGroupId, ∀ g ∈ groups.row? gid, g.scope = r.scope

/-- What a live binding refers to; a member's group has been created before. -/
structure AiBinding.Inside (d : Directory) (groups : Slots AiGroup) (b : AiBinding) : Prop where
  account : d.Has b.accountId b.scope
  created : ∀ gid ∈ b.groupId, gid < groups.size
  group : ∀ gid ∈ b.groupId, ∀ g ∈ groups.row? gid, g.scope = b.scope

structure CloneRuleVersion.Inside (d : Directory) (v : CloneRuleVersion) : Prop where
  listener : d.Has v.snapshot.accountId v.scope
  pool : ∀ a ∈ v.snapshot.senderAccountIds, d.Has a v.scope

namespace ControlPlane

structure Inside (s : ControlPlane) : Prop where
  rules : ∀ pk r, s.rule pk = some r → r.Inside s.dir s.groups
  bindings : ∀ pk b, s.binding pk = some b → b.Inside s.dir s.groups
  versions : ∀ pk v, s.versions.row? pk = some v → v.Inside s.dir
  jobs : ∀ pk job, s.jobs.row? pk = some job → s.dir.Sends job

/-- The tables that these references are in or point to. -/
def refs (s : ControlPlane) : Directory × Slots AiBinding × Slots AiGroup × Slots CloneRule ×
    Slots CloneRuleVersion × Slots DeliveryJob :=
  (s.dir, s.bindings, s.groups, s.rules, s.versions, s.jobs)

variable {s s' : ControlPlane} {pk : ℕ}

theorem Inside.of_refs (h : s.Inside) (heq : s'.refs = s.refs) : s'.Inside := by
  simp only [refs, Prod.mk.injEq] at heq
  obtain ⟨hdir, hbindings, hgroups, hrules, hversions, hjobs⟩ := heq
  constructor
  · intro pk r hr
    rw [hdir, hgroups]
    exact h.rules pk r (by rw [rule, ← hrules]; exact hr)
  · intro pk b hb
    rw [hdir, hgroups]
    exact h.bindings pk b (by rw [binding, ← hbindings]; exact hb)
  · intro pk v hv
    rw [hdir]
    exact h.versions pk v (hversions ▸ hv)
  · intro pk job hjob
    rw [hdir]
    exact h.jobs pk job (hjobs ▸ hjob)

/-! ## Writes -/

theorem Inside.addBinding (h : s.Inside) {b : AiBinding} (hb : b.Inside s.dir s.groups) :
    ({ s with bindings := s.bindings.add b } : ControlPlane).Inside := by
  refine ⟨h.rules, fun i b' hb' => ?_, h.versions, h.jobs⟩
  obtain ⟨hrow, hlive⟩ := binding_eq_some.mp hb'
  simp only [Slots.row?_add] at hrow
  split at hrow
  · cases hrow
    exact hb
  · exact h.bindings i b' (binding_eq_some.mpr ⟨hrow, hlive⟩)

theorem Inside.modifyBinding (h : s.Inside) {f : AiBinding → AiBinding}
    (hf : ∀ b, s.bindings.row? pk = some b → (f b).deleted = false →
      b.deleted = false ∧ (b.Inside s.dir s.groups → (f b).Inside s.dir s.groups)) :
    (s.updateBindingRow pk f).Inside := by
  refine ⟨h.rules, fun i b' hb' => ?_, h.versions, h.jobs⟩
  obtain ⟨hrow, hlive⟩ := binding_eq_some.mp hb'
  simp only [updateBindingRow, Slots.row?_modify] at hrow
  split at hrow
  · subst i
    obtain ⟨b, hb, rfl⟩ := Option.map_eq_some_iff.mp hrow
    obtain ⟨hold, hkeep⟩ := hf b hb hlive
    exact hkeep (h.bindings pk b (binding_eq_some.mpr ⟨hb, hold⟩))
  · exact h.bindings i b' (binding_eq_some.mpr ⟨hrow, hlive⟩)

theorem Inside.addRule (h : s.Inside) {r : CloneRule} (hr : r.Inside s.dir s.groups) :
    ({ s with rules := s.rules.add r } : ControlPlane).Inside := by
  refine ⟨fun i r' hr' => ?_, h.bindings, h.versions, h.jobs⟩
  obtain ⟨hrow, hlive⟩ := rule_eq_some.mp hr'
  simp only [Slots.row?_add] at hrow
  split at hrow
  · cases hrow
    exact hr
  · exact h.rules i r' (rule_eq_some.mpr ⟨hrow, hlive⟩)

theorem Inside.modifyRule (h : s.Inside) {f : CloneRule → CloneRule}
    (hf : ∀ r, s.rules.row? pk = some r → (f r).deleted = false →
      r.deleted = false ∧ (r.Inside s.dir s.groups → (f r).Inside s.dir s.groups)) :
    (s.updateRuleRow pk f).Inside := by
  refine ⟨fun i r' hr' => ?_, h.bindings, h.versions, h.jobs⟩
  obtain ⟨hrow, hlive⟩ := rule_eq_some.mp hr'
  simp only [updateRuleRow, Slots.row?_modify] at hrow
  split at hrow
  · subst i
    obtain ⟨r, hr, rfl⟩ := Option.map_eq_some_iff.mp hrow
    obtain ⟨hold, hkeep⟩ := hf r hr hlive
    exact hkeep (h.rules pk r (rule_eq_some.mpr ⟨hr, hold⟩))
  · exact h.rules i r' (rule_eq_some.mpr ⟨hrow, hlive⟩)

/-- A group is created; no rule of another project waits for its number. -/
theorem Inside.addGroup (h : s.Inside) {g : AiGroup}
    (hnew : ∀ pk r, s.rule pk = some r → r.aiGroupId = some s.groups.size → r.scope = g.scope) :
    ({ s with groups := s.groups.add g } : ControlPlane).Inside := by
  constructor
  · intro pk r hr
    refine ⟨(h.rules pk r hr).listener, (h.rules pk r hr).pool, fun gid hgid g' hg' => ?_⟩
    rw [Option.mem_def, Slots.row?_add] at hg'
    split at hg'
    · subst gid
      cases hg'
      exact (hnew pk r hr hgid).symm
    · exact (h.rules pk r hr).group gid hgid g' hg'
  · intro pk b hb
    have hcreated := (h.bindings pk b hb).created
    refine ⟨(h.bindings pk b hb).account, fun gid hgid => ?_, fun gid hgid g' hg' => ?_⟩
    · exact lt_of_lt_of_eq (Nat.lt_succ_of_lt (hcreated gid hgid)) Slots.size_add.symm
    · rw [Option.mem_def, Slots.row?_add, if_neg (Nat.ne_of_lt (hcreated gid hgid))] at hg'
      exact (h.bindings pk b hb).group gid hgid g' hg'
  · exact h.versions
  · exact h.jobs

theorem Inside.of_groups (h : s.Inside) {groups : Slots AiGroup} (hsize : groups.size = s.groups.size)
    (hrows : ∀ gid, ∀ g ∈ groups.row? gid, ∃ g' ∈ s.groups.row? gid, g.scope = g'.scope) :
    ({ s with groups := groups } : ControlPlane).Inside := by
  constructor
  · intro pk r hr
    refine ⟨(h.rules pk r hr).listener, (h.rules pk r hr).pool, fun gid hgid g hg => ?_⟩
    obtain ⟨g', hg', hscope⟩ := hrows gid g hg
    exact hscope.trans ((h.rules pk r hr).group gid hgid g' hg')
  · intro pk b hb
    refine ⟨(h.bindings pk b hb).account, fun gid hgid => ?_, fun gid hgid g hg => ?_⟩
    · exact lt_of_lt_of_eq ((h.bindings pk b hb).created gid hgid) hsize.symm
    · obtain ⟨g', hg', hscope⟩ := hrows gid g hg
      exact hscope.trans ((h.bindings pk b hb).group gid hgid g' hg')
  · exact h.versions
  · exact h.jobs

theorem Inside.modifyGroup (h : s.Inside) {f : AiGroup → AiGroup}
    (hf : ∀ g ∈ s.groups.row? pk, (f g).scope = g.scope) : (s.updateGroupRow pk f).Inside := by
  refine h.of_groups Slots.size_modify fun gid g hg => ?_
  rw [Option.mem_def, Slots.row?_modify] at hg
  split at hg
  · subst gid
    obtain ⟨g', hg', rfl⟩ := Option.map_eq_some_iff.mp hg
    exact ⟨g', hg', hf g' hg'⟩
  · exact ⟨g, hg, rfl⟩

theorem Inside.removeGroup (h : s.Inside) :
    ({ s with groups := s.groups.remove pk } : ControlPlane).Inside := by
  refine h.of_groups Slots.size_remove fun gid g hg => ?_
  rw [Option.mem_def, Slots.row?_remove] at hg
  split at hg
  · cases hg
  · exact ⟨g, hg, rfl⟩

theorem Inside.addVersion (h : s.Inside) {v : CloneRuleVersion} (hv : v.Inside s.dir) :
    ({ s with versions := s.versions.add v } : ControlPlane).Inside := by
  refine ⟨h.rules, h.bindings, fun i v' hv' => ?_, h.jobs⟩
  rw [Slots.row?_add] at hv'
  split at hv'
  · cases hv'
    exact hv
  · exact h.versions i v' hv'

theorem Inside.addJob (h : s.Inside) {job : DeliveryJob} (hjob : s.dir.Sends job) :
    ({ s with jobs := s.jobs.add job } : ControlPlane).Inside := by
  refine ⟨h.rules, h.bindings, h.versions, fun i job' hjob' => ?_⟩
  rw [Slots.row?_add] at hjob'
  split at hjob'
  · cases hjob'
    exact hjob
  · exact h.jobs i job' hjob'

theorem Inside.observe (h : s.Inside) {accountId : ℕ} {status : String} :
    ({ s with dir := s.dir.observe accountId status } : ControlPlane).Inside := by
  constructor
  · intro pk r hr
    have hold := h.rules pk r hr
    exact ⟨hold.listener.observe, fun a ha => (hold.pool a ha).observe, hold.group⟩
  · intro pk b hb
    have hold := h.bindings pk b hb
    exact ⟨hold.account.observe, hold.created, hold.group⟩
  · intro pk v hv
    have hold := h.versions pk v hv
    exact ⟨hold.listener.observe, fun a ha => (hold.pool a ha).observe⟩
  · intro pk job hjob
    exact (h.jobs pk job hjob).observe

end ControlPlane

end TgPlatform
