import TgPlatform.Control.AiRequests

/-! # What a user may see of the control plane

A row belongs to a scope, and a user sees the rows of the scopes of the user's
memberships. Callbacks carry no scope and are seen by nobody.
-/

namespace TgPlatform

def AiBinding.scope (b : AiBinding) : Scope := (b.tenantId, b.projectId)

def AiConversation.scope (c : AiConversation) : Scope := (c.tenantId, c.projectId)

def AiRun.scope (r : AiRun) : Scope := (r.tenantId, r.projectId)

def AiGroup.scope (g : AiGroup) : Scope := (g.tenantId, g.projectId)

def AiPersona.scope (p : AiPersona) : Scope := (p.tenantId, p.projectId)

def AiScript.scope (x : AiScript) : Scope := (x.tenantId, x.projectId)

def AiPrivateReply.scope (p : AiPrivateReply) : Scope := (p.tenantId, p.projectId)

def AiCandidate.scope (c : AiCandidate) : Scope := (c.tenantId, c.projectId)

def Approval.scope (a : Approval) : Scope := (a.tenantId, a.projectId)

def CloneTarget.scope (t : CloneTarget) : Scope := (t.tenantId, t.projectId)

def CloneRuleVersion.scope (v : CloneRuleVersion) : Scope := (v.tenantId, v.projectId)

def IssuedCommand.scope (c : IssuedCommand) : Scope := (c.tenantId, c.projectId)

namespace ControlPlane

variable (s : ControlPlane) (u : UserId)

def mine (scope : Scope) : Bool := scope ∈ s.dir.scopes u

/-- The runtime names tenants and projects by their uuids. -/
def mineJob (job : DeliveryJob) : Bool := s.dir.inScope u job.tenantId job.projectId

def visible : ControlPlane where
  dir := s.dir.visible u
  bindings := s.bindings.mask fun b => s.mine u b.scope
  conversations := s.conversations.mask fun c => s.mine u c.scope
  runs := s.runs.mask fun r => s.mine u r.scope
  callbacks := s.callbacks.mask fun _ => false
  groups := s.groups.mask fun g => s.mine u g.scope
  personas := s.personas.mask fun p => s.mine u p.scope
  scripts := s.scripts.mask fun x => s.mine u x.scope
  privateReplies := s.privateReplies.mask fun p => s.mine u p.scope
  candidates := s.candidates.mask fun c => s.mine u c.scope
  approvals := s.approvals.mask fun a => s.mine u a.scope
  jobs := s.jobs.mask fun job => s.mineJob u job
  rules := s.rules.mask fun r => s.mine u r.scope
  targets := s.targets.mask fun t => s.mine u t.scope
  versions := s.versions.mask fun v => s.mine u v.scope
  commands := s.commands.mask fun c => s.mine u c.scope

structure Foreign where
  dir : Directory
  bindings : BindingId → Option AiBinding
  conversations : ConversationId → Option AiConversation
  runs : RunId → Option AiRun
  callbacks : ℕ → Option AiCallback
  groups : GroupId → Option AiGroup
  personas : ℕ → Option AiPersona
  scripts : ℕ → Option AiScript
  privateReplies : ℕ → Option AiPrivateReply
  candidates : CandidateId → Option AiCandidate
  approvals : ApprovalId → Option Approval
  jobs : ℕ → Option DeliveryJob
  rules : ℕ → Option CloneRule
  targets : ℕ → Option CloneTarget
  versions : ℕ → Option CloneRuleVersion
  commands : ℕ → Option IssuedCommand

/-- These rows, and the whole directory. -/
def foreign : Foreign where
  dir := s.dir
  bindings := s.bindings.hidden fun b => s.mine u b.scope
  conversations := s.conversations.hidden fun c => s.mine u c.scope
  runs := s.runs.hidden fun r => s.mine u r.scope
  callbacks := s.callbacks.hidden fun _ => false
  groups := s.groups.hidden fun g => s.mine u g.scope
  personas := s.personas.hidden fun p => s.mine u p.scope
  scripts := s.scripts.hidden fun x => s.mine u x.scope
  privateReplies := s.privateReplies.hidden fun p => s.mine u p.scope
  candidates := s.candidates.hidden fun c => s.mine u c.scope
  approvals := s.approvals.hidden fun a => s.mine u a.scope
  jobs := s.jobs.hidden fun job => s.mineJob u job
  rules := s.rules.hidden fun r => s.mine u r.scope
  targets := s.targets.hidden fun t => s.mine u t.scope
  versions := s.versions.hidden fun v => s.mine u v.scope
  commands := s.commands.hidden fun c => s.mine u c.scope

variable {s u}

@[simp] theorem mine_visible (scope : Scope) : (s.visible u).mine u scope = s.mine u scope := by
  simp [mine, visible]

@[simp] theorem mineJob_visible (job : DeliveryJob) : (s.visible u).mineJob u job = s.mineJob u job := by
  simp [mineJob, visible]

theorem visible_visible : (s.visible u).visible u = s.visible u := by
  rw [visible]
  simp only [mine_visible, mineJob_visible]
  simp [visible]

def view (u : UserId) : View ControlPlane := ⟨fun s => s.visible u, fun _ => visible_visible⟩

/-- The transaction answers and changes only what the user sees. -/
abbrev Confined {α : Type} (u : UserId) (m : Req α) (s : ControlPlane) : Prop :=
  Txn.Confined (view u) (fun s => s.foreign u) m s

/-! ## Writes -/

/-- A table whose rows belong to scopes, as a part of the database. -/
structure ScopedTable (α : Type) where
  rows : ControlPlane → Slots α
  put : ControlPlane → Slots α → ControlPlane
  scope : α → Scope
  rows_visible : ∀ s u, rows (s.visible u) = (rows s).mask fun a => s.mine u (scope a)
  visible_put : ∀ s u t, (put s t).visible u =
    put (s.visible u) (t.mask fun a => s.mine u (scope a))
  foreign_put : ∀ s u t, (t.hidden fun a => s.mine u (scope a)) =
    ((rows s).hidden fun a => s.mine u (scope a)) → (put s t).foreign u = s.foreign u

namespace ScopedTable

variable {α : Type} (T : ScopedTable α) {f : α → α} {a : α} {pk : ℕ}

theorem add (h : s.mine u (T.scope a) = true) :
    Confined u (Txn.write fun s => T.put s ((T.rows s).add a)) s := by
  apply Txn.Confined.write
  · change T.put (s.visible u) ((T.rows (s.visible u)).add a) = (T.put s ((T.rows s).add a)).visible u
    rw [T.visible_put, T.rows_visible, Slots.mask_add_of (p := fun a => s.mine u (T.scope a)) h]
  · exact T.foreign_put s u _ (Slots.hidden_add_of h)

theorem modify (h : ∀ a, (T.rows s).row? pk = some a →
    s.mine u (T.scope a) = true ∧ s.mine u (T.scope (f a)) = true) :
    Confined u (Txn.write fun s => T.put s ((T.rows s).modify pk f)) s := by
  apply Txn.Confined.write
  · change T.put (s.visible u) ((T.rows (s.visible u)).modify pk f) =
      (T.put s ((T.rows s).modify pk f)).visible u
    rw [T.visible_put, T.rows_visible, Slots.mask_modify_of h]
  · exact T.foreign_put s u _ (Slots.hidden_modify_of h)

theorem remove (h : ∀ a, (T.rows s).row? pk = some a → s.mine u (T.scope a) = true) :
    Confined u (Txn.write fun s => T.put s ((T.rows s).remove pk)) s := by
  apply Txn.Confined.write
  · change T.put (s.visible u) ((T.rows (s.visible u)).remove pk) =
      (T.put s ((T.rows s).remove pk)).visible u
    rw [T.visible_put, T.rows_visible, Slots.mask_remove]
  · exact T.foreign_put s u _ (Slots.hidden_remove_of h)

end ScopedTable

def bindingTable : ScopedTable AiBinding where
  rows := bindings
  put s t := { s with bindings := t }
  scope := AiBinding.scope
  rows_visible _ _ := rfl
  visible_put _ _ _ := rfl
  foreign_put s u _ h := congrArg (fun x => { s.foreign u with bindings := x }) h

def conversationTable : ScopedTable AiConversation where
  rows := conversations
  put s t := { s with conversations := t }
  scope := AiConversation.scope
  rows_visible _ _ := rfl
  visible_put _ _ _ := rfl
  foreign_put s u _ h := congrArg (fun x => { s.foreign u with conversations := x }) h

def runTable : ScopedTable AiRun where
  rows := runs
  put s t := { s with runs := t }
  scope := AiRun.scope
  rows_visible _ _ := rfl
  visible_put _ _ _ := rfl
  foreign_put s u _ h := congrArg (fun x => { s.foreign u with runs := x }) h

def groupTable : ScopedTable AiGroup where
  rows := groups
  put s t := { s with groups := t }
  scope := AiGroup.scope
  rows_visible _ _ := rfl
  visible_put _ _ _ := rfl
  foreign_put s u _ h := congrArg (fun x => { s.foreign u with groups := x }) h

def personaTable : ScopedTable AiPersona where
  rows := personas
  put s t := { s with personas := t }
  scope := AiPersona.scope
  rows_visible _ _ := rfl
  visible_put _ _ _ := rfl
  foreign_put s u _ h := congrArg (fun x => { s.foreign u with personas := x }) h

def scriptTable : ScopedTable AiScript where
  rows := scripts
  put s t := { s with scripts := t }
  scope := AiScript.scope
  rows_visible _ _ := rfl
  visible_put _ _ _ := rfl
  foreign_put s u _ h := congrArg (fun x => { s.foreign u with scripts := x }) h

def privateReplyTable : ScopedTable AiPrivateReply where
  rows := privateReplies
  put s t := { s with privateReplies := t }
  scope := AiPrivateReply.scope
  rows_visible _ _ := rfl
  visible_put _ _ _ := rfl
  foreign_put s u _ h := congrArg (fun x => { s.foreign u with privateReplies := x }) h

/-! ## Reads -/

section Reads

variable {tenantId projectId : Option ℕ} {pk : ℕ} {scope : Scope} {g : AiGroup}

@[simp] theorem scopes_visible : (s.visible u).dir.scopes u = s.dir.scopes u :=
  Directory.scopes_visible

theorem account_visible (h : ∀ a ∈ s.dir.account pk, s.mine u a.scope = true) :
    (s.visible u).dir.account pk = s.dir.account pk := by
  refine Directory.account_restrict.trans ?_
  cases haccount : s.dir.account pk with
  | none => rfl
  | some a => exact Option.filter_some_pos (h a haccount)

theorem accountByScope_visible {t p : ℕ} (h : s.mine u (t, p) = true) :
    (s.visible u).dir.accountByScope t p pk = s.dir.accountByScope t p pk := by
  refine List.find?_filter_of_imp fun a _ ha => ?_
  simp only [Bool.and_eq_true, decide_eq_true_eq] at ha
  rw [TelegramAccount.scope, ha.1.1.2, ha.1.2]
  exact h

theorem accountRow_visible (h : ∀ a ∈ s.accountRow pk, s.mine u a.scope = true) :
    (s.visible u).accountRow pk = s.accountRow pk := by
  have hfind : (s.dir.visible u).accounts.find? (fun a => a.id = pk) =
      (s.dir.accounts.find? fun a => a.id = pk).filter fun a => a.scope ∈ s.dir.scopes u := by
    refine List.find?_filter_of_unique fun a ha b hb hpa hpb => ?_
    rw [decide_eq_true_eq] at hpa hpb
    exact Directory.eq_of_nodup s.dir.account_ids ha hb (hpa.trans hpb.symm)
  refine hfind.trans ?_
  unfold accountRow at h ⊢
  cases haccount : s.dir.accounts.find? fun a => a.id = pk with
  | none => rfl
  | some a =>
    have hmine := h a haccount
    exact Option.filter_some_pos hmine

theorem binding_visible (h : ∀ b ∈ s.binding pk, s.mine u b.scope = true) :
    (s.visible u).binding pk = s.binding pk := Slots.row?_mask_filter h

theorem run_visible (h : ∀ r ∈ s.run pk, s.mine u r.scope = true) :
    (s.visible u).run pk = s.run pk := Slots.row?_mask_filter h

theorem group_visible (h : ∀ g ∈ s.group pk, s.mine u g.scope = true) :
    (s.visible u).group pk = s.group pk := Slots.row?_mask_filter h

theorem persona_visible (h : ∀ p ∈ s.persona pk, s.mine u p.scope = true) :
    (s.visible u).persona pk = s.persona pk := Slots.row?_mask_filter h

theorem bindingsOf_visible
    (h : ∀ x ∈ s.bindingsOf tenantId projectId, s.mine u x.2.scope = true) :
    (s.visible u).bindingsOf tenantId projectId = s.bindingsOf tenantId projectId :=
  Slots.where_mask_of h

theorem conversationsOf_visible
    (h : ∀ x ∈ s.conversationsOf tenantId projectId, s.mine u x.2.scope = true) :
    (s.visible u).conversationsOf tenantId projectId = s.conversationsOf tenantId projectId :=
  Slots.where_mask_of h

theorem runsOf_visible {status : Option RunStatus}
    (h : ∀ x ∈ s.runsOf tenantId projectId status, s.mine u x.2.scope = true) :
    (s.visible u).runsOf tenantId projectId status = s.runsOf tenantId projectId status :=
  Slots.where_mask_of h

theorem scriptsOf_visible (h : ∀ x ∈ s.scriptsOf pk, s.mine u x.2.scope = true) :
    (s.visible u).scriptsOf pk = s.scriptsOf pk := Slots.where_mask_of h

theorem mem_bindingsOf {x : BindingId × AiBinding} : x ∈ s.bindingsOf tenantId projectId ↔
    s.bindings.row? x.1 = some x.2 ∧ x.2.deleted = false ∧ matchesParam tenantId x.2.tenantId = true ∧
      matchesParam projectId x.2.projectId = true := by
  obtain ⟨pk, b⟩ := x
  simp [bindingsOf, Slots.mem_where, and_assoc]

theorem scope_of_matchesParam {t p : ℕ} {t' p' : ℕ} (ht : matchesParam (some t) t' = true)
    (hp : matchesParam (some p) p' = true) : (t', p') = (t, p) := by
  simp only [matchesParam, Option.all_some, decide_eq_true_eq] at ht hp
  rw [ht, hp]

theorem bindingsOf_scope_visible {t p : ℕ} (h : s.mine u (t, p) = true) :
    (s.visible u).bindingsOf (some t) (some p) = s.bindingsOf (some t) (some p) := by
  refine bindingsOf_visible fun x hx => ?_
  obtain ⟨-, -, ht, hp⟩ := mem_bindingsOf.mp hx
  rw [AiBinding.scope, scope_of_matchesParam ht hp, h]

theorem members_visible (h : s.mine u g.scope = true) :
    (s.visible u).members pk g = s.members pk g := by
  unfold members
  rw [bindingsOf_scope_visible h]

end Reads

end ControlPlane

end TgPlatform
