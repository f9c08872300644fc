import TgPlatform.Platform.DeliveryViews

/-! # What the delivery views depend on

The list and a detail are settled by the rows of the caller's scopes exactly if
what they select, join and label comes from these rows.
-/

namespace TgPlatform

namespace DeliveryData

variable {db : DeliveryData} {u : UserId} {q : ListQuery} {order : NewestFirst}

theorem lookupParam_eq {α β : Type} (param : Option ℕ) (get : ℕ → Option α) (uuid : α → β)
    (msg : String) : lookupParam param get uuid msg =
      if unresolved param get then .error ⟨.notFound, msg⟩
      else .ok ((param.bind get).map uuid) := by
  cases param with
  | none => rfl
  | some pk => cases hget : get pk <;> simp [lookupParam, unresolved, hget]

theorem scopeUuids_eq {caller : Caller} : db.scopeUuids caller q =
    if unresolved q.tenantId db.dir.tenant then .error ⟨.notFound, "租户不存在"⟩
    else if unresolved q.projectId db.dir.project then .error ⟨.notFound, "项目不存在"⟩
    else if unresolved q.accountId db.dir.account then .error ⟨.notFound, "账号不存在"⟩
    else (db.allowedTenants caller ((q.tenantId.bind db.dir.tenant).map Tenant.uuid)).map
      fun allowed => ⟨allowed, (q.tenantId.bind db.dir.tenant).map Tenant.uuid,
        (q.projectId.bind db.dir.project).map Project.uuid,
        (q.accountId.bind db.dir.account).map TelegramAccount.uuid⟩ := by
  rw [scopeUuids, lookupParam_eq, lookupParam_eq, lookupParam_eq]
  cases unresolved q.tenantId db.dir.tenant <;> cases unresolved q.projectId db.dir.project <;>
    cases unresolved q.accountId db.dir.account <;> rfl

theorem allowedTenants_ne {β : Type} {caller : Caller} {tenantUuid : Option TenantId}
    {f : Option (List TenantId) → β} {msg : String} :
    (db.allowedTenants caller tenantUuid).map f ≠ .error ⟨.notFound, msg⟩ := by
  unfold allowedTenants
  dsimp only
  split_ifs <;> simp [Except.map]

theorem allowedTenants_visible (tenantUuid : Option TenantId) :
    (db.visible u).allowedTenants ⟨u, false⟩ tenantUuid =
      db.allowedTenants ⟨u, false⟩ tenantUuid := by
  have hscopes : (db.visible u).dir.scopes u = db.dir.scopes u := Directory.scopes_visible
  have htenants : (db.dir.scopes u).filterMap (fun scope => (db.visible u).dir.tenant scope.1) =
      (db.dir.scopes u).filterMap fun scope => db.dir.tenant scope.1 := by
    refine List.filterMap_congr fun scope hscope => ?_
    refine Directory.tenant_restrict.trans ?_
    cases htenant : db.dir.tenant scope.1 with
    | none => rfl
    | some t =>
      -- the tenant is found by the key that the scope carries
      have hid := List.find?_some htenant
      rw [Bool.and_eq_true, decide_eq_true_eq] at hid
      have hmem : t.id ∈ (db.dir.scopes u).map Prod.fst :=
        hid.1 ▸ List.mem_map_of_mem (f := Prod.fst) hscope
      exact Option.filter_some_pos (by simpa using hmem)
  simp only [allowedTenants, hscopes, htenants]

theorem getAll_of_error {caller : Caller} {e : ApiError} (h : db.scopeUuids caller q = .error e) :
    db.getAll caller order q = .error e := by
  rw [getAll, h]
  rfl

theorem getAll_of_ok {caller : Caller} {scope : ScopeUuids} (h : db.scopeUuids caller q = .ok scope) :
    db.getAll caller order q = .ok (if scope.allowed = some [] then ⟨0, q.page, q.size, []⟩
      else ⟨(db.jobs.filter (selects scope q)).length, q.pageNo, q.pageSize,
        (pageOf order q (db.jobs.filter (selects scope q))).map db.item⟩) := by
  rw [getAll, h]
  simp only [bind, Except.bind]
  split <;> rfl

theorem getAll_error_iff {caller : Caller} {e : ApiError} :
    db.getAll caller order q = .error e ↔ db.scopeUuids caller q = .error e := by
  cases h : db.scopeUuids caller q with
  | error e' => rw [getAll_of_error h]; simp
  | ok scope => rw [getAll_of_ok h]; simp

section Refusals

variable {caller : Caller}

theorem scopeUuids_tenant_iff : db.scopeUuids caller q = .error ⟨.notFound, "租户不存在"⟩ ↔
    unresolved q.tenantId db.dir.tenant = true := by
  rw [scopeUuids_eq]
  split_ifs with ht hp ha <;> simp_all [allowedTenants_ne]

theorem scopeUuids_project_iff : db.scopeUuids caller q = .error ⟨.notFound, "项目不存在"⟩ ↔
    unresolved q.tenantId db.dir.tenant = false ∧
      unresolved q.projectId db.dir.project = true := by
  rw [scopeUuids_eq]
  split_ifs with ht hp ha <;> simp_all [allowedTenants_ne]

theorem scopeUuids_account_iff : db.scopeUuids caller q = .error ⟨.notFound, "账号不存在"⟩ ↔
    unresolved q.tenantId db.dir.tenant = false ∧
      unresolved q.projectId db.dir.project = false ∧
        unresolved q.accountId db.dir.account = true := by
  rw [scopeUuids_eq]
  split_ifs with ht hp ha <;> simp_all [allowedTenants_ne]

end Refusals

section Narrowed

variable {α : Type} {param : Option ℕ} {get get' : ℕ → Option α} {p : α → Bool}

theorem unresolved_iff (h : ∀ pk, get' pk = (get pk).filter p) :
    unresolved param get' = unresolved param get ↔
      ∀ pk row, param = some pk → get pk = some row → p row = true := by
  cases param with
  | none => simp [unresolved]
  | some pk =>
    have hvisible : unresolved (some pk) get' = unresolved (some pk) get ↔
        ∀ row, get pk = some row → p row = true := by
      cases hget : get pk with
      | none => simp [unresolved, h, hget]
      | some row => cases hp : p row <;> simp [unresolved, h, hget, hp, Option.filter]
    rw [hvisible]
    constructor
    · intro hrow pk' row hpk hget
      exact hrow row (Option.some.inj hpk ▸ hget)
    · intro hrow row hget
      exact hrow pk row rfl hget

theorem bind_of_unresolved_eq (h : ∀ pk, get' pk = (get pk).filter p)
    (heq : unresolved param get' = unresolved param get) : param.bind get' = param.bind get := by
  cases param with
  | none => rfl
  | some pk =>
    have hp := (unresolved_iff h).mp heq pk
    cases hget : get pk with
    | none => simp [h, hget]
    | some row => simp [h, hget, hp row rfl hget]

end Narrowed

theorem paramsScoped_iff : db.ParamsScoped u q ↔
    unresolved q.tenantId (db.visible u).dir.tenant = unresolved q.tenantId db.dir.tenant ∧
    (unresolved q.tenantId db.dir.tenant = false →
      unresolved q.projectId (db.visible u).dir.project = unresolved q.projectId db.dir.project) ∧
    (unresolved q.tenantId db.dir.tenant = false →
      unresolved q.projectId db.dir.project = false →
      unresolved q.accountId (db.visible u).dir.account =
        unresolved q.accountId db.dir.account) := by
  have htenant : unresolved q.tenantId (db.dir.visible u).tenant = _ ↔ _ :=
    unresolved_iff fun _ => Directory.tenant_restrict
  have hproject : unresolved q.projectId (db.dir.visible u).project = _ ↔ _ :=
    unresolved_iff fun _ => Directory.project_restrict
  have haccount : unresolved q.accountId (db.dir.visible u).account = _ ↔ _ :=
    unresolved_iff fun _ => Directory.account_restrict
  simp only [decide_eq_true_eq] at htenant hproject haccount
  change _ ↔ unresolved q.tenantId (db.dir.visible u).tenant = _ ∧
    (_ → unresolved q.projectId (db.dir.visible u).project = _) ∧
    (_ → _ → unresolved q.accountId (db.dir.visible u).account = _)
  rw [htenant, hproject, haccount]
  constructor
  · rintro ⟨ht, hp, ha⟩
    exact ⟨ht, hp, ha⟩
  · rintro ⟨ht, hp, ha⟩
    exact ⟨ht, hp, ha⟩

theorem paramsScoped_of_refusals
    (h : ∀ e, (db.visible u).scopeUuids ⟨u, false⟩ q = .error e ↔
      db.scopeUuids ⟨u, false⟩ q = .error e) : db.ParamsScoped u q := by
  have htenant := h ⟨.notFound, "租户不存在"⟩
  have hproject := h ⟨.notFound, "项目不存在"⟩
  have haccount := h ⟨.notFound, "账号不存在"⟩
  rw [scopeUuids_tenant_iff, scopeUuids_tenant_iff, ← Bool.eq_iff_iff] at htenant
  rw [scopeUuids_project_iff, scopeUuids_project_iff, htenant] at hproject
  rw [scopeUuids_account_iff, scopeUuids_account_iff, htenant] at haccount
  rw [paramsScoped_iff]
  refine ⟨htenant, fun ht => ?_, fun ht hp => ?_⟩
  · simpa [ht, ← Bool.eq_iff_iff] using hproject
  · have hp' : unresolved q.projectId (db.visible u).dir.project = false := by
      simpa [ht, hp] using hproject
    simpa [ht, hp, hp', ← Bool.eq_iff_iff] using haccount

theorem ParamsScoped.scopeUuids_eq (h : db.ParamsScoped u q) :
    (db.visible u).scopeUuids ⟨u, false⟩ q = db.scopeUuids ⟨u, false⟩ q := by
  obtain ⟨htenant, hproject, haccount⟩ := paramsScoped_iff.mp h
  rw [DeliveryData.scopeUuids_eq, DeliveryData.scopeUuids_eq, htenant]
  cases ht : unresolved q.tenantId db.dir.tenant with
  | true => rfl
  | false =>
    rw [hproject ht]
    cases hp : unresolved q.projectId db.dir.project with
    | true => rfl
    | false =>
      have htenants : q.tenantId.bind (db.visible u).dir.tenant = q.tenantId.bind db.dir.tenant :=
        bind_of_unresolved_eq (fun _ => Directory.tenant_restrict) htenant
      have hprojects : q.projectId.bind (db.visible u).dir.project =
          q.projectId.bind db.dir.project :=
        bind_of_unresolved_eq (fun _ => Directory.project_restrict) (hproject ht)
      have haccounts : q.accountId.bind (db.visible u).dir.account =
          q.accountId.bind db.dir.account :=
        bind_of_unresolved_eq (fun _ => Directory.account_restrict) (haccount ht hp)
      rw [haccount ht hp, htenants, hprojects, haccounts, allowedTenants_visible]

theorem accountLabel_visible_iff (accountId : AccountId) :
    (db.visible u).accountLabel accountId = db.accountLabel accountId ↔
      ∀ a ∈ db.dir.accounts, a.uuid = accountId → a.uuid ≠ "" → a.deleted = false →
        a.scope ∈ db.dir.scopes u ∨ a.label = String.ofList (accountId.toList.take 8) := by
  unfold accountLabel
  by_cases hempty : accountId = ""
  · simp only [hempty, if_true, true_iff]
    intro a _ huuid hne
    exact (hne huuid).elim
  · have hunique : ∀ a ∈ db.dir.accounts, ∀ b ∈ db.dir.accounts,
        (a.uuid = accountId && !a.deleted) = true → (b.uuid = accountId && !b.deleted) = true →
          a = b := by
      intro a ha b hb hpa hpb
      simp only [Bool.and_eq_true, decide_eq_true_eq] at hpa hpb
      exact Directory.eq_of_nodup db.dir.account_uuids ha hb (hpa.1.trans hpb.1.symm)
    have hfind := List.find?_filter_of_unique (p := fun a => decide (a.scope ∈ db.dir.scopes u))
      hunique
    have haccounts : (db.visible u).dir.accounts =
        db.dir.accounts.filter fun a => decide (a.scope ∈ db.dir.scopes u) := rfl
    simp only [haccounts, hempty, if_false, hfind]
    cases haccount : db.dir.accounts.find? fun a => a.uuid = accountId && !a.deleted with
    | none =>
      have hnone := List.find?_eq_none.mp haccount
      simp only [Option.filter, true_iff]
      intro a ha huuid _ hdeleted
      exact (hnone a ha (by simp [huuid, hdeleted])).elim
    | some b =>
      have hb := List.mem_of_find?_eq_some haccount
      have hpb := List.find?_some haccount
      have hall : (∀ a ∈ db.dir.accounts, a.uuid = accountId → a.uuid ≠ "" → a.deleted = false →
          a.scope ∈ db.dir.scopes u ∨ a.label = String.ofList (accountId.toList.take 8)) ↔
          b.scope ∈ db.dir.scopes u ∨ b.label = String.ofList (accountId.toList.take 8) := by
        simp only [Bool.and_eq_true, decide_eq_true_eq, Bool.not_eq_true'] at hpb
        constructor
        · intro h
          exact h b hb hpb.1 (hpb.1 ▸ hempty) hpb.2
        · intro h a ha huuid _ hdeleted
          rwa [hunique a ha b hb (by simp [huuid, hdeleted]) (by simp [hpb])]
      rw [hall]
      by_cases hscope : b.scope ∈ db.dir.scopes u
      · simp [Option.filter, hscope]
      · simp [Option.filter, hscope, eq_comm]

theorem selected_visible (scope : ScopeUuids) :
    (db.visible u).jobs.filter (selects scope q) =
      (db.jobs.filter (selects scope q)).filter fun row => db.jobInScope u row.2 := by
  simp only [visible, List.filter_filter, Bool.and_comm]

theorem mem_pageOf {rows : List JobRow} {row : JobRow} (h : row ∈ pageOf order q rows) :
    row ∈ rows :=
  (order.perm rows).mem_iff.mp (List.mem_of_mem_drop (List.mem_of_mem_take h))

theorem ListScoped.selected_eq (h : db.ListScoped u order q) {scope : ScopeUuids}
    (hscope : db.scopeUuids ⟨u, false⟩ q = .ok scope) :
    (db.visible u).jobs.filter (selects scope q) = db.jobs.filter (selects scope q) := by
  rw [selected_visible, List.filter_eq_self]
  intro row hrow
  obtain ⟨hmem, hselects⟩ := List.mem_filter.mp hrow
  exact h.rows scope hscope row hmem hselects

theorem item_visible_iff (row : JobRow) :
    (db.visible u).item row = db.item row ↔
      (db.visible u).accountLabel row.2.accountId = db.accountLabel row.2.accountId := by
  simp [item]

theorem not_selects {scope : ScopeUuids} (h : scope.allowed = some []) (row : JobRow) :
    selects scope q row = false := by
  simp [selects, h]

/-- The list comes from the caller's rows exactly if what it selects and shows is the caller's. -/
theorem getAll_settled :
    (view u).Settles (fun db => db.getAll ⟨u, false⟩ order q) db ↔ db.ListScoped u order q := by
  change (db.visible u).getAll ⟨u, false⟩ order q = db.getAll ⟨u, false⟩ order q ↔ _
  constructor
  · intro h
    have hparams : db.ParamsScoped u q := by
      apply paramsScoped_of_refusals
      intro e
      exact getAll_error_iff.symm.trans ((Eq.congr_left h).trans getAll_error_iff)
    refine ⟨hparams, fun scope hscope => ?_, fun scope hscope => ?_⟩ <;>
      rw [getAll_of_ok hscope, getAll_of_ok (hparams.scopeUuids_eq.trans hscope),
        Except.ok.injEq, selected_visible] at h
    · intro row hrow hselects
      have hallowed : scope.allowed ≠ some [] := by
        intro hnone
        rw [not_selects hnone] at hselects
        cases hselects
      rw [if_neg hallowed, if_neg hallowed, JobPage.mk.injEq] at h
      exact List.length_filter_eq_length_iff.mp h.1 row (List.mem_filter.mpr ⟨hrow, hselects⟩)
    · intro row hrow
      have hmem := List.mem_filter.mp (mem_pageOf hrow)
      have hallowed : scope.allowed ≠ some [] := by
        intro hnone
        rw [not_selects hnone] at hmem
        cases hmem.2
      rw [if_neg hallowed, if_neg hallowed, JobPage.mk.injEq] at h
      have hrows := List.filter_eq_self.mpr (List.length_filter_eq_length_iff.mp h.1)
      have hitems := h.2.2.2
      rw [hrows, List.map_inj_left] at hitems
      rw [← accountLabel_visible_iff, ← item_visible_iff]
      exact hitems row hrow
  · intro h
    have heq := h.params.scopeUuids_eq
    cases hscope : db.scopeUuids ⟨u, false⟩ q with
    | error e => rw [getAll_of_error hscope, getAll_of_error (heq.trans hscope)]
    | ok scope =>
      rw [getAll_of_ok hscope, getAll_of_ok (heq.trans hscope), h.selected_eq hscope]
      have hitems : (pageOf order q (db.jobs.filter (selects scope q))).map (db.visible u).item =
          (pageOf order q (db.jobs.filter (selects scope q))).map db.item := by
        rw [List.map_inj_left]
        intro row hrow
        rw [item_visible_iff, accountLabel_visible_iff]
        exact h.labels scope hscope row hrow
      rw [hitems]

theorem ListScoped.openable (h : db.ListScoped u order q) : db.ListsOpenable u order q := by
  intro page hpage item hitem
  cases hscope : db.scopeUuids ⟨u, false⟩ q with
  | error e =>
    rw [getAll_of_error hscope] at hpage
    cases hpage
  | ok scope =>
    rw [getAll_of_ok hscope, Except.ok.injEq] at hpage
    subst hpage
    split_ifs at hitem with hallowed
    · cases hitem
    · obtain ⟨row, hrow, rfl⟩ := List.mem_map.mp hitem
      obtain ⟨hmem, hselects⟩ := List.mem_filter.mp (mem_pageOf hrow)
      exact get_of_visible (job_of_mem hmem) (h.rows scope hscope row hmem hselects)

/-- The delivery views of a user answer from the rows of the user's scopes alone, and list only
jobs that the user could open, exactly if the parameters name the user's own rows or none, every
job that the filters select and every account that labels one is the user's, and the mapping rows
of an opened job's source message are the user's too. Where that holds, databases that agree on
these rows give the same answers. -/
theorem delivery_views_scoped (u : UserId) (order : NewestFirst) (q : ListQuery) (pk : JobId) :
    (∀ db, (view u).Settles (fun db => db.getAll ⟨u, false⟩ order q) db ∧
      db.ListsOpenable u order q ↔ db.ListScoped u order q) ∧
    (∀ db, (view u).Settles (fun db => db.getDetail ⟨u, false⟩ pk) db ↔ db.DetailScoped u pk) ∧
    (∀ db db', (view u).Alike db db' → db.ListScoped u order q → db'.ListScoped u order q →
      db.getAll ⟨u, false⟩ order q = db'.getAll ⟨u, false⟩ order q) ∧
    ∀ db db', (view u).Alike db db' → db.DetailScoped u pk → db'.DetailScoped u pk →
      db.getDetail ⟨u, false⟩ pk = db'.getDetail ⟨u, false⟩ pk := by
  refine ⟨fun db => ?_, fun db => getDetail_settled pk, fun db db' halike h h' => ?_,
    fun db db' halike h h' => ?_⟩
  · constructor
    · intro h
      exact getAll_settled.mp h.1
    · intro h
      exact ⟨getAll_settled.mpr h, h.openable⟩
  · exact (getAll_settled.mpr h).eq (getAll_settled.mpr h') halike
  · exact ((getDetail_settled pk).mpr h).eq ((getDetail_settled pk).mpr h') halike

def twoProjects : Directory where
  __ := Directory.oneProject
  projects := [⟨1, "p", 1, false⟩, ⟨2, "q", 1, false⟩]
  accounts := []
  memberships := [⟨1, 1, 1, false⟩]
  project_ids := by decide
  account_ids := List.nodup_nil
  project_uuids := by decide
  account_uuids := List.nodup_nil

def foreignJob : JobRow := (0, {
  tenantId := "t", projectId := "q", idempotencyKey := "k", kind := "send", routeId := "r"
  ruleId := "c", ruleVersion := 1, accountId := "a", message := ⟨"a", 7, 1⟩, revision := 0
  targetChatId := 8, targetTopicId := none, mode := "copy", payloadRef := none
  payloadHash := none, requiresApproval := false, replyToTargetMessageId := none
  groupedId := none, status := .succeeded, createdAt := 5, updatedAt := 5 })

/-- A user counts and reads the jobs of another project of the tenant, and cannot open them. -/
theorem foreign_project_is_listed : ¬ ∀ (u : UserId) (order : NewestFirst) (q : ListQuery) pk,
    (∀ db db', (view u).Alike db db' →
      db.getAll ⟨u, false⟩ order q = db'.getAll ⟨u, false⟩ order q ∧
        db.getDetail ⟨u, false⟩ pk = db'.getDetail ⟨u, false⟩ pk) ∧
    ∀ db : DeliveryData, db.ListsOpenable u order q := by
  intro h
  let db : DeliveryData := ⟨twoProjects, [], [], [], by decide⟩
  let db' : DeliveryData := ⟨twoProjects, [foreignJob], [], [], by decide⟩
  have halike : (view 1).Alike db db' := by
    apply ext <;> rfl
  have hlist := ((h 1 .byMergeSort {} 0).1 db db' halike).1
  have htotal : (db.getAll ⟨1, false⟩ .byMergeSort {}).map JobPage.total ≠
      (db'.getAll ⟨1, false⟩ .byMergeSort {}).map JobPage.total := by
    decide +kernel
  exact htotal (congrArg (Except.map JobPage.total) hlist)

end DeliveryData

end TgPlatform
