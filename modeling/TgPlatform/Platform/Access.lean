import Mathlib.Data.List.Basic
import Mathlib.Data.List.Nodup
import TgPlatform.Lib.Json
import TgPlatform.Lib.View
import TgPlatform.Planner.Model

/-! # Tenants, projects and memberships

The directory of the control platform. A caller who is no superuser has one
scope, a tenant and a project in it, for each membership; what the caller may
see of the directory is the rows of these scopes.
-/

namespace TgPlatform

abbrev UserId := ℕ

abbrev Scope := ℕ × ℕ

instance : LawfulBEq Scope := inferInstance

inductive ErrorKind | request | forbidden | notFound | conflict
  deriving DecidableEq, Repr

structure ApiError where
  kind : ErrorKind
  msg : String
  deriving DecidableEq, Repr

/-- `request.user`. -/
structure Caller where
  id : UserId
  isSuperuser : Bool := false
  deriving DecidableEq, Repr

structure Tenant where
  id : ℕ
  uuid : TenantId
  deleted : Bool := false
  deriving DecidableEq, Repr

structure Project where
  id : ℕ
  uuid : ProjectId
  tenantId : ℕ
  deleted : Bool := false
  deriving DecidableEq, Repr

/-- `TgTelegramAccount`. -/
structure TelegramAccount where
  id : ℕ
  uuid : AccountId
  tenantId : ℕ
  projectId : ℕ
  phone : Option String := none
  telegramUserId : Option ℤ := none
  username : Option String := none
  secretRef : Option String := none
  desiredStatus : String := "stopped"
  observedStatus : String := "imported_quarantine"
  deleted : Bool := false
  deriving DecidableEq, Repr

def TelegramAccount.scope (a : TelegramAccount) : Scope := (a.tenantId, a.projectId)

def TelegramAccount.label (a : TelegramAccount) : String :=
  match truthy a.username with
  | some username => "@" ++ username
  | none =>
    match truthy a.phone with
    | some phone => phone
    | none =>
      match a.telegramUserId.filter fun id => id ≠ 0 with
      | some id => toString id
      | none => toString a.id

structure Membership where
  userId : UserId
  tenantId : ℕ
  projectId : ℕ
  deleted : Bool := false
  deriving DecidableEq, Repr

def Membership.scope (m : Membership) : Scope := (m.tenantId, m.projectId)

structure Directory where
  tenants : List Tenant
  projects : List Project
  accounts : List TelegramAccount
  memberships : List Membership
  tenant_ids : (tenants.map Tenant.id).Nodup
  project_ids : (projects.map Project.id).Nodup
  account_ids : (accounts.map TelegramAccount.id).Nodup
  tenant_uuids : (tenants.map Tenant.uuid).Nodup
  project_uuids : (projects.map Project.uuid).Nodup
  account_uuids : (accounts.map TelegramAccount.uuid).Nodup

namespace Directory

variable (d : Directory) (u : UserId)

def scopes : List Scope :=
  (d.memberships.filter fun m => m.userId = u && !m.deleted).map Membership.scope

/-- `tenant_dao.get`. -/
def tenant (pk : ℕ) : Option Tenant := d.tenants.find? fun t => t.id = pk && !t.deleted

def tenantByUuid (uuid : TenantId) : Option Tenant := d.tenants.find? fun t => t.uuid = uuid

/-- `project_dao.get`. -/
def project (pk : ℕ) : Option Project := d.projects.find? fun p => p.id = pk && !p.deleted

def projectByUuid (uuid : ProjectId) : Option Project := d.projects.find? fun p => p.uuid = uuid

/-- `telegram_account_dao.get`. -/
def account (pk : ℕ) : Option TelegramAccount := d.accounts.find? fun a => a.id = pk && !a.deleted

/-- The scope behind the uuids that the runtime's rows carry is one of the user's. -/
def inScope (tenantId : TenantId) (projectId : ProjectId) : Bool :=
  match d.tenantByUuid tenantId, d.projectByUuid projectId with
  | some t, some p => (t.id, p.id) ∈ d.scopes u
  | _, _ => false

def restrict (scopes : List Scope) : Directory where
  tenants := d.tenants.filter fun t => t.id ∈ scopes.map Prod.fst
  projects := d.projects.filter fun p => p.id ∈ scopes.map Prod.snd
  accounts := d.accounts.filter fun a => a.scope ∈ scopes
  memberships := d.memberships.filter fun m => m.scope ∈ scopes
  tenant_ids := d.tenant_ids.sublist (List.filter_sublist.map _)
  project_ids := d.project_ids.sublist (List.filter_sublist.map _)
  account_ids := d.account_ids.sublist (List.filter_sublist.map _)
  tenant_uuids := d.tenant_uuids.sublist (List.filter_sublist.map _)
  project_uuids := d.project_uuids.sublist (List.filter_sublist.map _)
  account_uuids := d.account_uuids.sublist (List.filter_sublist.map _)

def visible : Directory := d.restrict (d.scopes u)

variable {d u} {pk : ℕ} {scopes : List Scope}

theorem restrict_restrict : (d.restrict scopes).restrict scopes = d.restrict scopes := by
  simp [restrict, List.filter_filter]

@[simp] theorem scopes_visible : (d.visible u).scopes u = d.scopes u := by
  unfold Directory.scopes
  congr 1
  refine List.filter_filter_of_imp fun m hm hmine => ?_
  rw [decide_eq_true_eq]
  exact List.mem_map_of_mem (List.mem_filter.mpr ⟨hm, hmine⟩)

@[simp] theorem visible_visible : (d.visible u).visible u = d.visible u := by
  rw [visible, scopes_visible]
  exact restrict_restrict

theorem eq_of_nodup {α β : Type*} {l : List α} {f : α → β} (h : (l.map f).Nodup) {x y : α}
    (hx : x ∈ l) (hy : y ∈ l) (hxy : f x = f y) : x = y :=
  List.inj_on_of_nodup_map h hx hy hxy

theorem tenant_restrict : (d.restrict scopes).tenant pk =
    (d.tenant pk).filter fun t => t.id ∈ scopes.map Prod.fst := by
  refine List.find?_filter_of_unique fun t ht t' ht' hpk hpk' => ?_
  simp only [Bool.and_eq_true, decide_eq_true_eq] at hpk hpk'
  exact eq_of_nodup d.tenant_ids ht ht' (hpk.1.trans hpk'.1.symm)

theorem project_restrict : (d.restrict scopes).project pk =
    (d.project pk).filter fun p => p.id ∈ scopes.map Prod.snd := by
  refine List.find?_filter_of_unique fun p hp p' hp' hpk hpk' => ?_
  simp only [Bool.and_eq_true, decide_eq_true_eq] at hpk hpk'
  exact eq_of_nodup d.project_ids hp hp' (hpk.1.trans hpk'.1.symm)

theorem account_restrict : (d.restrict scopes).account pk =
    (d.account pk).filter fun a => a.scope ∈ scopes := by
  refine List.find?_filter_of_unique fun a ha b hb hpa hpb => ?_
  simp only [Bool.and_eq_true, decide_eq_true_eq] at hpa hpb
  exact eq_of_nodup d.account_ids ha hb (hpa.1.trans hpb.1.symm)

theorem tenantByUuid_restrict (uuid : TenantId) : (d.restrict scopes).tenantByUuid uuid =
    (d.tenantByUuid uuid).filter fun t => t.id ∈ scopes.map Prod.fst := by
  refine List.find?_filter_of_unique fun t ht t' ht' hu hu' => ?_
  rw [decide_eq_true_eq] at hu hu'
  exact eq_of_nodup d.tenant_uuids ht ht' (hu.trans hu'.symm)

theorem projectByUuid_restrict (uuid : ProjectId) : (d.restrict scopes).projectByUuid uuid =
    (d.projectByUuid uuid).filter fun p => p.id ∈ scopes.map Prod.snd := by
  refine List.find?_filter_of_unique fun p hp p' hp' hu hu' => ?_
  rw [decide_eq_true_eq] at hu hu'
  exact eq_of_nodup d.project_uuids hp hp' (hu.trans hu'.symm)

theorem inScope_iff {tenantId : TenantId} {projectId : ProjectId} :
    d.inScope u tenantId projectId = true ↔ ∃ t p, d.tenantByUuid tenantId = some t ∧
      d.projectByUuid projectId = some p ∧ (t.id, p.id) ∈ d.scopes u := by
  unfold inScope
  cases d.tenantByUuid tenantId <;> cases d.projectByUuid projectId <;> simp

@[simp] theorem inScope_visible (tenantId : TenantId) (projectId : ProjectId) :
    (d.visible u).inScope u tenantId projectId = d.inScope u tenantId projectId := by
  rw [Bool.eq_iff_iff, inScope_iff, inScope_iff, scopes_visible]
  simp only [visible, tenantByUuid_restrict, projectByUuid_restrict, Option.filter_eq_some_iff]
  constructor
  · rintro ⟨t, p, ⟨ht, -⟩, ⟨hp, -⟩, hscope⟩
    exact ⟨t, p, ht, hp, hscope⟩
  · rintro ⟨t, p, ht, hp, hscope⟩
    have hfst : t.id ∈ (d.scopes u).map Prod.fst := List.mem_map_of_mem (f := Prod.fst) hscope
    have hsnd : p.id ∈ (d.scopes u).map Prod.snd := List.mem_map_of_mem (f := Prod.snd) hscope
    exact ⟨t, p, ⟨ht, by simpa using hfst⟩, ⟨hp, by simpa using hsnd⟩, hscope⟩

theorem tenant_eq_some {t : Tenant} (h : d.tenant pk = some t) : t ∈ d.tenants ∧ t.id = pk := by
  have hkey := List.find?_some h
  rw [Bool.and_eq_true, decide_eq_true_eq] at hkey
  exact ⟨List.mem_of_find?_eq_some h, hkey.1⟩

theorem project_eq_some {p : Project} (h : d.project pk = some p) : p ∈ d.projects ∧ p.id = pk := by
  have hkey := List.find?_some h
  rw [Bool.and_eq_true, decide_eq_true_eq] at hkey
  exact ⟨List.mem_of_find?_eq_some h, hkey.1⟩

theorem inScope_of_rows {tenantId projectId : ℕ} {t : Tenant} {p : Project}
    (ht : d.tenant tenantId = some t) (hp : d.project projectId = some p)
    (hscope : (tenantId, projectId) ∈ d.scopes u) : d.inScope u t.uuid p.uuid = true := by
  obtain ⟨htmem, rfl⟩ := tenant_eq_some ht
  obtain ⟨hpmem, rfl⟩ := project_eq_some hp
  refine inScope_iff.mpr ⟨t, p, ?_, ?_, hscope⟩
  · refine List.find?_eq_some_of_unique htmem (by simp) fun t' ht' huuid => ?_
    exact eq_of_nodup d.tenant_uuids ht' htmem (by simpa using huuid)
  · refine List.find?_eq_some_of_unique hpmem (by simp) fun p' hp' huuid => ?_
    exact eq_of_nodup d.project_uuids hp' hpmem (by simpa using huuid)

/-- A tenant with one project, whose accounts are `a` and `b`. -/
def oneProject : Directory where
  tenants := [⟨1, "t", false⟩]
  projects := [⟨1, "p", 1, false⟩]
  accounts := [
    { id := 1, uuid := "a", tenantId := 1, projectId := 1 },
    { id := 2, uuid := "b", tenantId := 1, projectId := 1 }]
  memberships := []
  tenant_ids := by decide
  project_ids := by decide
  account_ids := by decide
  tenant_uuids := by decide
  project_uuids := by decide
  account_uuids := by decide

end Directory

end TgPlatform
