import TgPlatform.Platform.Access
import TgPlatform.Storage.Rows

/-! # The delivery views

The list filters jobs by the tenants of the caller's memberships, a single job
is checked by its tenant and project, and the detail of a job joins the mapping
rows by source message alone.
-/

namespace TgPlatform

def JobStatus.value : JobStatus → String
  | .pending => "pending"
  | .waitingApproval => "waiting_approval"
  | .ready => "ready"
  | .leased => "leased"
  | .sending => "sending"
  | .succeeded => "succeeded"
  | .retryWait => "retry_wait"
  | .blocked => "blocked"
  | .failedPermanent => "failed_permanent"
  | .deadLetter => "dead_letter"
  | .uncertain => "uncertain"
  | .reconciledSucceeded => "reconciled_succeeded"
  | .confirmedNotSent => "confirmed_not_sent"
  | .manualReview => "manual_review"
  | .cancelled => "cancelled"
  | .expired => "expired"
  | .superseded => "superseded"

/-- `STATUS_GROUPS.get(status, [status])`. -/
def statusGroup : String → List String
  | "waiting" => ["pending", "waiting_approval", "ready", "leased", "retry_wait"]
  | "sending" => ["sending"]
  | "succeeded" => ["succeeded", "reconciled_succeeded"]
  | "failed" =>
    ["blocked", "failed_permanent", "dead_letter", "confirmed_not_sent", "cancelled", "expired"]
  | "uncertain" => ["uncertain", "manual_review"]
  | status => [status]

abbrev JobRow := JobId × DeliveryJob

structure DeliveryData where
  dir : Directory
  jobs : List JobRow
  attempts : List DeliveryAttempt
  maps : List (RowId × MessageMap)
  job_ids : (jobs.map Prod.fst).Nodup

/-- A legal order of `ORDER BY created_at DESC`. -/
structure NewestFirst where
  sort : List JobRow → List JobRow
  perm : ∀ rows, (sort rows).Perm rows
  sorted : ∀ rows, (sort rows).Pairwise fun x y => y.2.createdAt ≤ x.2.createdAt

def NewestFirst.byMergeSort : NewestFirst where
  sort rows := rows.mergeSort fun x y => decide (y.2.createdAt ≤ x.2.createdAt)
  perm rows := List.mergeSort_perm rows _
  sorted rows := by
    refine (List.pairwise_mergeSort ?_ ?_ rows).imp fun h => of_decide_eq_true h
    · intro x y z hxy hyz
      rw [decide_eq_true_eq] at hxy hyz ⊢
      exact hyz.trans hxy
    · intro x y
      simp only [Bool.or_eq_true, decide_eq_true_eq]
      exact le_total _ _

structure ListQuery where
  tenantId : Option ℕ := none
  projectId : Option ℕ := none
  accountId : Option ℕ := none
  status : Option String := none
  since : Option Time := none
  until_ : Option Time := none
  page : ℤ := 1
  size : ℤ := 20
  deriving DecidableEq, Repr

def ListQuery.pageNo (q : ListQuery) : ℤ := max q.page 1

def ListQuery.pageSize (q : ListQuery) : ℤ := min (max q.size 1) 200

/-- What `_scope_uuids` returns. -/
structure ScopeUuids where
  allowed : Option (List TenantId)
  tenantUuid : Option TenantId
  projectUuid : Option ProjectId
  accountUuid : Option AccountId
  deriving DecidableEq, Repr

structure JobItem where
  id : JobId
  job : DeliveryJob
  accountLabel : String
  deriving DecidableEq, Repr

structure JobPage where
  total : ℕ
  page : ℤ
  size : ℤ
  items : List JobItem
  deriving DecidableEq, Repr

structure MapItem where
  id : RowId
  routeId : RouteId
  targetChatId : ℤ
  targetTopicId : Option ℤ
  targetMessageId : ℤ
  status : String
  deletedAt : Option Time
  deriving DecidableEq, Repr

structure JobDetail where
  id : JobId
  job : DeliveryJob
  attempts : List DeliveryAttempt
  messageMaps : List MapItem
  deriving DecidableEq, Repr

/-- The value of an optional id parameter: absent, or the uuid of the row it names. -/
def lookupParam {α β : Type} (param : Option ℕ) (get : ℕ → Option α) (uuid : α → β) (msg : String) :
    Except ApiError (Option β) :=
  match param with
  | none => .ok none
  | some pk =>
    match get pk with
    | none => .error ⟨.notFound, msg⟩
    | some row => .ok (some (uuid row))

def unresolved {α : Type} (param : Option ℕ) (get : ℕ → Option α) : Bool :=
  param.any fun pk => (get pk).isNone

namespace DeliveryData

variable (db : DeliveryData) (caller : Caller)

/-- The tenants of the caller's memberships, `none` for all. -/
def allowedTenants (tenantUuid : Option TenantId) : Except ApiError (Option (List TenantId)) :=
  if caller.isSuperuser then .ok none
  else if db.dir.scopes caller.id = [] then .ok (some [])
  else
    let allowed :=
      ((db.dir.scopes caller.id).filterMap fun scope => db.dir.tenant scope.1).map Tenant.uuid
    if tenantUuid.any fun uuid => uuid ≠ "" && uuid ∉ allowed then
      .error ⟨.forbidden, "无该租户权限"⟩
    else .ok (some allowed)

/-- `_scope_uuids`. -/
def scopeUuids (q : ListQuery) : Except ApiError ScopeUuids := do
  let tenantUuid ← lookupParam q.tenantId db.dir.tenant Tenant.uuid "租户不存在"
  let projectUuid ← lookupParam q.projectId db.dir.project Project.uuid "项目不存在"
  let accountUuid ← lookupParam q.accountId db.dir.account TelegramAccount.uuid "账号不存在"
  let allowed ← db.allowedTenants caller tenantUuid
  return ⟨allowed, tenantUuid, projectUuid, accountUuid⟩

/-- `_where`. -/
def selects (scope : ScopeUuids) (q : ListQuery) (row : JobRow) : Bool :=
  scope.tenantUuid.all (fun uuid => row.2.tenantId = uuid) &&
    scope.projectUuid.all (fun uuid => row.2.projectId = uuid) &&
    scope.accountUuid.all (fun uuid => row.2.accountId = uuid) &&
    (truthy q.status).all (fun status => row.2.status.value ∈ statusGroup status) &&
    q.since.all (fun since => since ≤ row.2.createdAt) &&
    q.until_.all (fun until_ => row.2.createdAt < until_) &&
    scope.allowed.all (fun allowed => row.2.tenantId ∈ allowed)

def pageOf (order : NewestFirst) (q : ListQuery) (rows : List JobRow) : List JobRow :=
  ((order.sort rows).drop ((q.pageNo - 1) * q.pageSize).toNat).take q.pageSize.toNat

/-- `labels.get(account_id, account_id[:8])`. -/
def accountLabel (accountId : AccountId) : String :=
  match if accountId = "" then none
      else db.dir.accounts.find? fun a => a.uuid = accountId && !a.deleted with
  | some a => a.label
  | none => String.ofList (accountId.toList.take 8)

def item (row : JobRow) : JobItem := ⟨row.1, row.2, db.accountLabel row.2.accountId⟩

/-- `get_all`. -/
def getAll (order : NewestFirst) (q : ListQuery) : Except ApiError JobPage := do
  let scope ← db.scopeUuids caller q
  if scope.allowed = some [] then return ⟨0, q.page, q.size, []⟩
  let rows := db.jobs.filter (selects scope q)
  return ⟨rows.length, q.pageNo, q.pageSize, (pageOf order q rows).map db.item⟩

def job (pk : JobId) : Option JobRow := db.jobs.find? fun row => row.1 = pk

/-- `_check_job_scope`. -/
def checkJobScope (job : DeliveryJob) : Except ApiError Unit :=
  if caller.isSuperuser then .ok ()
  else
    match db.dir.tenantByUuid job.tenantId, db.dir.projectByUuid job.projectId with
    | some t, some p =>
      if (t.id, p.id) ∈ db.dir.scopes caller.id then .ok ()
      else .error ⟨.forbidden, "无该项目权限"⟩
    | _, _ => .error ⟨.notFound, "任务不存在"⟩

/-- `get`. -/
def get (pk : JobId) : Except ApiError JobRow :=
  match db.job pk with
  | none => .error ⟨.notFound, "投递任务不存在"⟩
  | some row => do
    db.checkJobScope caller row.2
    return row

def mapItem (row : RowId × MessageMap) : MapItem where
  id := row.1
  routeId := row.2.routeId
  targetChatId := row.2.targetChatId
  targetTopicId := row.2.targetTopicId
  targetMessageId := row.2.targetMessageId
  status := row.2.status
  deletedAt := row.2.deletedAt

def detailOf (row : JobRow) : JobDetail where
  id := row.1
  job := row.2
  attempts := (db.attempts.filter fun a => a.jobId = row.1).mergeSort fun a b =>
    a.attemptNo ≤ b.attemptNo
  messageMaps := (db.maps.filter fun m => m.2.message = row.2.message).map mapItem

/-- `get_detail`. -/
def getDetail (pk : JobId) : Except ApiError JobDetail := do
  let row ← db.get caller pk
  return db.detailOf row

/-! ## The visible rows -/

/-- The row's tenant and project are one of the user's scopes. -/
def jobInScope (u : UserId) (job : DeliveryJob) : Bool := db.dir.inScope u job.tenantId job.projectId

def mapInScope (u : UserId) (m : MessageMap) : Bool := db.dir.inScope u m.tenantId m.projectId

def visible (u : UserId) : DeliveryData where
  dir := db.dir.visible u
  jobs := db.jobs.filter fun row => db.jobInScope u row.2
  attempts := db.attempts.filter fun a =>
    (db.jobs.filter fun row => db.jobInScope u row.2).any fun row => row.1 = a.jobId
  maps := db.maps.filter fun row => db.mapInScope u row.2
  job_ids := db.job_ids.sublist (List.filter_sublist.map _)

variable {db} {u : UserId} {q : ListQuery} {order : NewestFirst}

theorem ext {db db' : DeliveryData} (hd : db.dir = db'.dir) (hj : db.jobs = db'.jobs)
    (ha : db.attempts = db'.attempts) (hm : db.maps = db'.maps) : db = db' := by
  cases db
  cases db'
  simp_all

@[simp] theorem jobInScope_visible (job : DeliveryJob) :
    (db.visible u).jobInScope u job = db.jobInScope u job :=
  Directory.inScope_visible _ _

/-- What user `u` may see. -/
def view (u : UserId) : View DeliveryData where
  see db := db.visible u
  idem db := by
    apply ext
    · exact Directory.visible_visible
    · simp [visible, List.filter_filter, jobInScope, Directory.inScope_visible]
    · simp [visible, List.filter_filter, jobInScope, Directory.inScope_visible]
    · simp [visible, List.filter_filter, mapInScope, Directory.inScope_visible]

/-- The rows that the parameters of the list name are the caller's. A parameter is looked up only
if the ones before it name a row. -/
structure ParamsScoped (db : DeliveryData) (u : UserId) (q : ListQuery) : Prop where
  tenant : ∀ pk t, q.tenantId = some pk → db.dir.tenant pk = some t →
    t.id ∈ (db.dir.scopes u).map Prod.fst
  project : unresolved q.tenantId db.dir.tenant = false →
    ∀ pk p, q.projectId = some pk → db.dir.project pk = some p →
      p.id ∈ (db.dir.scopes u).map Prod.snd
  account : unresolved q.tenantId db.dir.tenant = false →
    unresolved q.projectId db.dir.project = false →
    ∀ pk a, q.accountId = some pk → db.dir.account pk = some a → a.scope ∈ db.dir.scopes u

/-- What decides whether the list shows no more than the visible rows: the rows its parameters
name are the caller's, and so are all the jobs it selects and the accounts it takes labels from. -/
structure ListScoped (db : DeliveryData) (u : UserId) (order : NewestFirst) (q : ListQuery) :
    Prop where
  params : db.ParamsScoped u q
  rows : ∀ scope, db.scopeUuids ⟨u, false⟩ q = .ok scope → ∀ row ∈ db.jobs,
    selects scope q row = true → db.jobInScope u row.2 = true
  labels : ∀ scope, db.scopeUuids ⟨u, false⟩ q = .ok scope →
    ∀ row ∈ pageOf order q (db.jobs.filter (selects scope q)), ∀ a ∈ db.dir.accounts,
    a.uuid = row.2.accountId → a.uuid ≠ "" → a.deleted = false →
    a.scope ∈ db.dir.scopes u ∨ a.label = String.ofList (row.2.accountId.toList.take 8)

/-- The named job and all mapping rows of its source message are the caller's. -/
def DetailScoped (db : DeliveryData) (u : UserId) (pk : JobId) : Prop :=
  ∀ row, db.job pk = some row → db.jobInScope u row.2 = true ∧
    ∀ m ∈ db.maps, m.2.message = row.2.message → db.mapInScope u m.2 = true

def ListsOpenable (db : DeliveryData) (u : UserId) (order : NewestFirst) (q : ListQuery) : Prop :=
  ∀ page, db.getAll ⟨u, false⟩ order q = .ok page → ∀ item ∈ page.items,
    db.get ⟨u, false⟩ item.id = .ok (item.id, item.job)

/-! ## One job -/

theorem job_visible (pk : JobId) :
    (db.visible u).job pk = (db.job pk).filter fun row => db.jobInScope u row.2 := by
  refine List.find?_filter_of_unique fun x hx y hy hpx hpy => ?_
  rw [decide_eq_true_eq] at hpx hpy
  exact Directory.eq_of_nodup db.job_ids hx hy (hpx.trans hpy.symm)

theorem job_of_mem {row : JobRow} (h : row ∈ db.jobs) : db.job row.1 = some row := by
  refine List.find?_eq_some_of_unique h (by simp) fun row' hrow' hpk => ?_
  exact Directory.eq_of_nodup db.job_ids hrow' h (of_decide_eq_true hpk)

theorem checkJobScope_iff {job : DeliveryJob} :
    db.checkJobScope ⟨u, false⟩ job = .ok () ↔ db.jobInScope u job = true := by
  rw [jobInScope, Directory.inScope_iff]
  unfold checkJobScope
  cases db.dir.tenantByUuid job.tenantId <;> cases db.dir.projectByUuid job.projectId <;> simp

theorem checkJobScope_msg {job : DeliveryJob} :
    db.checkJobScope ⟨u, false⟩ job ≠ .error ⟨.notFound, "投递任务不存在"⟩ := by
  unfold checkJobScope
  cases db.dir.tenantByUuid job.tenantId <;> cases db.dir.projectByUuid job.projectId <;>
    simp only [Bool.false_eq_true, if_false] <;> try split
  all_goals simp

theorem get_of_visible {pk : JobId} {row : JobRow} (hrow : db.job pk = some row)
    (hscope : db.jobInScope u row.2 = true) : db.get ⟨u, false⟩ pk = .ok row := by
  simp [get, hrow, checkJobScope_iff.mpr hscope]

theorem attempts_visible {row : JobRow} (hrow : row ∈ db.jobs)
    (hscope : db.jobInScope u row.2 = true) :
    (db.visible u).attempts.filter (fun a => a.jobId = row.1) =
      db.attempts.filter fun a => a.jobId = row.1 := by
  refine List.filter_filter_of_imp fun a _ ha => ?_
  rw [decide_eq_true_eq] at ha
  exact List.any_eq_true.mpr ⟨row, List.mem_filter.mpr ⟨hrow, hscope⟩, by simp [ha]⟩

theorem getDetail_of_none {pk : JobId} (hjob : db.job pk = none) :
    db.getDetail ⟨u, false⟩ pk = .error ⟨.notFound, "投递任务不存在"⟩ := by
  simp [getDetail, get, hjob, bind, Except.bind]

theorem getDetail_of_some {pk : JobId} {row : JobRow} (hjob : db.job pk = some row) :
    db.getDetail ⟨u, false⟩ pk =
      (db.checkJobScope ⟨u, false⟩ row.2).map fun _ => db.detailOf row := by
  simp only [getDetail, get, hjob]
  cases db.checkJobScope ⟨u, false⟩ row.2 <;> rfl

/-- The detail of a job comes from the caller's rows exactly if it and its mapping rows do. -/
theorem getDetail_settled (pk : JobId) :
    (view u).Settles (fun db => db.getDetail ⟨u, false⟩ pk) db ↔ db.DetailScoped u pk := by
  change (db.visible u).getDetail ⟨u, false⟩ pk = db.getDetail ⟨u, false⟩ pk ↔ _
  cases hjob : db.job pk with
  | none =>
    have hvisible : (db.visible u).job pk = none := by rw [job_visible, hjob]; rfl
    rw [getDetail_of_none hjob, getDetail_of_none hvisible]
    exact ⟨fun _ row hrow => (by rw [hjob] at hrow; cases hrow), fun _ => rfl⟩
  | some row =>
    have hrow : row ∈ db.jobs := List.mem_of_find?_eq_some hjob
    rw [getDetail_of_some hjob]
    cases hscope : db.jobInScope u row.2 with
    | false =>
      have hvisible : (db.visible u).job pk = none := by simp [job_visible, hjob, hscope]
      rw [getDetail_of_none hvisible]
      constructor
      · intro h
        cases hcheck : db.checkJobScope ⟨u, false⟩ row.2 with
        | ok x => rw [hcheck] at h; cases h
        | error e =>
          rw [hcheck] at h
          cases h
          exact (checkJobScope_msg hcheck).elim
      · intro h
        rw [(h row hjob).1] at hscope
        cases hscope
    | true =>
      have hvisible : (db.visible u).job pk = some row := by simp [job_visible, hjob, hscope]
      have hcheck := checkJobScope_iff.mpr hscope
      have hcheck' : (db.visible u).checkJobScope ⟨u, false⟩ row.2 = .ok () :=
        checkJobScope_iff.mpr (by rw [jobInScope_visible, hscope])
      rw [getDetail_of_some hvisible, hcheck, hcheck']
      have hmaps : (db.visible u).maps.filter (fun m => m.2.message = row.2.message) =
          (db.maps.filter fun m => m.2.message = row.2.message).filter
            fun m => db.mapInScope u m.2 := by
        simp only [visible, List.filter_filter, Bool.and_comm]
      simp only [Except.map, Except.ok.injEq, detailOf, JobDetail.mk.injEq, true_and,
        attempts_visible hrow hscope, hmaps]
      constructor
      · rintro hitems row' hrow'
        obtain rfl := Option.some.inj (hjob.symm.trans hrow')
        refine ⟨hscope, fun m hm hmessage => ?_⟩
        have hlength := congrArg List.length hitems
        rw [List.length_map, List.length_map, List.length_filter_eq_length_iff] at hlength
        exact hlength m (List.mem_filter.mpr ⟨hm, by simpa using hmessage⟩)
      · intro h
        rw [List.filter_eq_self.mpr]
        intro m hm
        obtain ⟨hm, hmessage⟩ := List.mem_filter.mp hm
        exact (h row hjob).2 m hm (by simpa using hmessage)

end DeliveryData

end TgPlatform
