import TgPlatform.Pipeline.LiveGate

/-! # The gate before the transport

Nothing reaches the transport but what the policy allows at that moment, and
the policy allows exactly what every level permits. Closing a switch or taking
an approval back allows nothing that was not allowed before.
-/

namespace TgPlatform

/-! ## The decision -/

/-- Every level is on, the sender is the account of this generation and may send, its route is not
held back, and a required approval is there and holds for this content. -/
structure Permitted (job : PolicyCheckable) (live : LiveAccount) (policy : PolicySnapshot)
    (approval : Option ApprovalRecord) (now : Time) : Prop where
  globalOn : policy.globalDisabled = false
  tenantOn : job.tenantId ∉ policy.tenantDisabled
  projectOn : job.projectId ∉ policy.projectDisabled
  accountOn : job.accountId ∉ policy.accountDisabled
  ruleOn : job.ruleId ∉ policy.ruleDisabled
  account : job.accountId = live.accountId
  generation : job.expectedGeneration = live.generation
  notPaused : live.sendState ≠ .paused
  notDead : live.sendState ≠ .authDead
  floodOver : live.sendState = .floodWait → ∃ until_, live.floodWaitUntil = some until_ ∧ until_ ≤ now
  unlimited : job.routeId ∉ policy.rateLimitBlocked
  approved : job.requiresApproval → ∃ a, approval = some a ∧ a.approved ∧
    (∀ expiresAt, a.expiresAt = some expiresAt → now < expiresAt) ∧
    ∀ x y, a.contentHash = some x → job.contentHash = some y → x = y

section Deciding

variable {job : PolicyCheckable} {live : LiveAccount} {policy policy' : PolicySnapshot}
  {approval approval' : Option ApprovalRecord} {now : Time}

theorem disables_eq_false : policy.disables job = false ↔ policy.globalDisabled = false ∧
    job.tenantId ∉ policy.tenantDisabled ∧ job.projectId ∉ policy.projectDisabled ∧
      job.accountId ∉ policy.accountDisabled ∧ job.ruleId ∉ policy.ruleDisabled := by
  simp only [PolicySnapshot.disables, Bool.or_eq_false_iff, decide_eq_false_iff_not, and_assoc]

theorem inFloodWait_eq_false : live.inFloodWait now = false ↔
    (live.sendState = .floodWait → ∃ until_, live.floodWaitUntil = some until_ ∧ until_ ≤ now) := by
  simp only [LiveAccount.inFloodWait, Bool.and_eq_false_iff, decide_eq_false_iff_not, Bool.not_eq_false',
    Option.any_eq_true, decide_eq_true_eq, imp_iff_not_or]

theorem approvalMissing_eq_false : approvalMissing job approval now = false ↔
    ∃ a, approval = some a ∧ a.approved ∧
      (∀ expiresAt, a.expiresAt = some expiresAt → now < expiresAt) ∧
      ∀ x y, a.contentHash = some x → job.contentHash = some y → x = y := by
  cases approval with
  | none => simp [approvalMissing]
  | some a =>
    have hbound :
        (a.contentHash.isSome && job.contentHash.isSome && a.contentHash ≠ job.contentHash) = false ↔
        ∀ x y, a.contentHash = some x → job.contentHash = some y → x = y := by
      cases a.contentHash <;> cases job.contentHash <;> simp
    have hexpires : a.expiresAt.any (· ≤ now) = false ↔
        ∀ expiresAt, a.expiresAt = some expiresAt → now < expiresAt := by
      cases a.expiresAt <;> simp
    simp only [approvalMissing, Bool.or_eq_false_iff, hbound, hexpires, Bool.not_eq_false',
      Option.some.injEq,
      exists_eq_left', and_assoc]
    exact and_congr_right fun _ => and_comm

theorem check_eq_allow_iff_permitted :
    check job live policy approval now = .allow ↔ Permitted job live policy approval now := by
  rw [check_eq_allow]
  constructor
  · intro h
    obtain ⟨hglobal, htenant, hproject, haccount, hrule⟩ := disables_eq_false.mp h.enabled
    exact ⟨hglobal, htenant, hproject, haccount, hrule, h.account, h.generation, h.notPaused, h.notDead,
      inFloodWait_eq_false.mp h.noFlood, h.noLimit, fun hreq =>
        approvalMissing_eq_false.mp (h.approved hreq)⟩
  · intro h
    exact ⟨h.account, h.generation,
      disables_eq_false.mpr ⟨h.globalOn, h.tenantOn, h.projectOn, h.accountOn, h.ruleOn⟩, h.notPaused,
      h.notDead, inFloodWait_eq_false.mpr h.floodOver, h.unlimited,
      fun hreq => approvalMissing_eq_false.mpr (h.approved hreq)⟩

end Deciding

/-! ## Closing switches -/

/-- What `policy` disables or holds back, `policy'` does too. -/
structure PolicySnapshot.Within (policy policy' : PolicySnapshot) : Prop where
  globalDisabled : policy.globalDisabled → policy'.globalDisabled
  tenantDisabled : policy.tenantDisabled ⊆ policy'.tenantDisabled
  projectDisabled : policy.projectDisabled ⊆ policy'.projectDisabled
  accountDisabled : policy.accountDisabled ⊆ policy'.accountDisabled
  ruleDisabled : policy.ruleDisabled ⊆ policy'.ruleDisabled
  rateLimitBlocked : policy.rateLimitBlocked ⊆ policy'.rateLimitBlocked

inductive Withdrawing : Option ApprovalRecord → Option ApprovalRecord → Prop
  | kept (approval : Option ApprovalRecord) : Withdrawing approval approval
  | refused (a : ApprovalRecord) : Withdrawing (some a) (some { a with approved := false })
  | removed (approval : Option ApprovalRecord) : Withdrawing approval none

section Closing

variable {job : PolicyCheckable} {live : LiveAccount} {policy policy' : PolicySnapshot}
  {approval approval' : Option ApprovalRecord} {now : Time}

theorem Permitted.of_within (h : Permitted job live policy' approval now)
    (hpolicy : policy.Within policy') :
    Permitted job live policy approval now where
  globalOn := Bool.eq_false_of_not_eq_true fun hoff =>
    absurd (hpolicy.globalDisabled hoff) (Bool.not_eq_true _ ▸ h.globalOn)
  tenantOn := fun hoff => h.tenantOn (hpolicy.tenantDisabled hoff)
  projectOn := fun hoff => h.projectOn (hpolicy.projectDisabled hoff)
  accountOn := fun hoff => h.accountOn (hpolicy.accountDisabled hoff)
  ruleOn := fun hoff => h.ruleOn (hpolicy.ruleDisabled hoff)
  account := h.account
  generation := h.generation
  notPaused := h.notPaused
  notDead := h.notDead
  floodOver := h.floodOver
  unlimited := fun hblocked => h.unlimited (hpolicy.rateLimitBlocked hblocked)
  approved := h.approved

theorem Permitted.of_withdrawing (h : Permitted job live policy approval' now)
    (hwithdrawn : Withdrawing approval approval') : Permitted job live policy approval now := by
  refine { h with approved := fun hreq => ?_ }
  obtain ⟨a, ha, happroved, hrest⟩ := h.approved hreq
  cases hwithdrawn with
  | kept => exact ⟨a, ha, happroved, hrest⟩
  | refused b =>
    cases ha
    cases happroved
  | removed => cases ha

end Closing

/-! ## Every call -/

/-- `PolicyCheckable` of a plan. -/
def DeliveryPlan.checkable (plan : DeliveryPlan) (tenantId : TenantId) (projectId : ProjectId)
    (expectedGeneration : ℤ) : PolicyCheckable where
  accountId := plan.accountId
  ruleId := plan.ruleId
  routeId := plan.routeId
  tenantId
  projectId
  expectedGeneration
  requiresApproval := plan.requiresApproval
  contentHash := plan.payloadHash

/-- `DeliveryExecutor.execute`, up to the transport call. -/
def DeliveryPlan.execute (plan : DeliveryPlan) (live : LiveAccount) (policy : PolicySnapshot)
    (approval : Option ApprovalRecord) (expectedGeneration : ℤ) (tenantId : TenantId)
      (projectId : ProjectId)
    (now : Time) (targetMessageIds : List ℤ) : Dispatch :=
  dispatch plan.kind (check (plan.checkable tenantId projectId expectedGeneration) live policy
    approval now)
    targetMessageIds

namespace System

/-- A call that starts is one that the executor makes in this step, with what the process knows now. -/
def CallsPermitted (s : System) (a : Action) (s' : System) : Prop :=
  ∀ call, s'.history = s.history ++ [.started call] →
    ∃ (now : Time) (r : Runner) (h : Holding) (targetIds : List ℤ),
    a = .runner call.workerId call.accountId (.execute now) ∧
      (s.workers call.workerId).runners call.accountId = some r ∧
      call = h.call call.workerId call.accountId r.generation call.request ∧
      h.plan.execute h.live (s.workers call.workerId).deps.policy (approvalFor h.job) r.generation
        h.job.tenantId h.job.projectId now targetIds = .call call.request ∧
      Permitted (h.plan.checkable h.job.tenantId h.job.projectId r.generation) h.live
        (s.workers call.workerId).deps.policy (approvalFor h.job) now

variable {s s' : System} {a : Action}

theorem callsPermitted_of_step (h : s.step a = some s') : CallsPermitted s a s' := by
  intro call hhistory
  rcases step_event h with hsame | ⟨ev, hsnoc, hstarted, -⟩
  · rw [hsame] at hhistory
    simp at hhistory
  · obtain rfl : ev = .started call := by simpa [hsnoc] using hhistory
    obtain ⟨now, r, held, targetIds, ha, hr, -, hdispatch, hcall⟩ := (hstarted call rfl).executes
    have hallow : check (held.plan.checkable held.job.tenantId held.job.projectId r.generation) held.live
        (s.workers call.workerId).deps.policy (approvalFor held.job) now = .allow :=
      allow_of_dispatch hdispatch
    exact ⟨now, r, held, targetIds, ha, hr, hcall, hdispatch, check_eq_allow_iff_permitted.mp hallow⟩

end System

/-- The transport is called only where the policy allows it, in the executor and in every run; the policy
allows what is permitted; and what it does not allow, it does not allow with more switches closed or the
approval withdrawn. -/
theorem policy_gate_sound (config : WorkerId → WorkerConfig) (as : List Action) :
    (∀ (plan : DeliveryPlan) (live : LiveAccount) (policy : PolicySnapshot)
      (approval : Option ApprovalRecord) (generation : ℤ) (tenantId : TenantId)
        (projectId : ProjectId) (now : Time) (targetIds : List ℤ)
      (request : TransportRequest),
      plan.execute live policy approval generation tenantId projectId now targetIds = .call request →
        check (plan.checkable tenantId projectId generation) live policy approval now = .allow) ∧
    (∀ job live policy approval now,
      check job live policy approval now = .allow ↔ Permitted job live policy approval now) ∧
    (∀ job live policy policy' approval approval' now, policy.Within policy' →
      Withdrawing approval approval' →
      check job live policy approval now ≠ .allow → check job live policy' approval' now ≠ .allow) ∧
    Machine.Always System.step System.CallsPermitted (.start config) as := by
  refine ⟨?_, ?_, ?_, ?_⟩
  · intro plan live policy approval generation tenantId projectId now targetIds request hcall
    exact allow_of_dispatch hcall
  · intro job live policy approval now
    exact check_eq_allow_iff_permitted
  · intro job live policy policy' approval approval' now hpolicy hwithdrawn hdenied hallow
    have hpermitted := check_eq_allow_iff_permitted.mp hallow
    have hbefore := (hpermitted.of_withdrawing hwithdrawn).of_within hpolicy
    exact hdenied (check_eq_allow_iff_permitted.mpr hbefore)
  · refine Machine.always_of_invariant (I := fun _ => True) ?_ ?_ as trivial
    · exact fun _ _ _ _ _ => trivial
    · exact fun _ _ _ h _ => System.callsPermitted_of_step h

/-- An account waits for the end of a flood at 5; before, closing its tenant lets nothing through. -/
theorem policy_gate_sound_after_flood :
    Machine.Always System.step System.CallsPermitted (.start fun _ => {}) calledAfterFlood ∧
      check ⟨"A", "r", "n", "t", "p", 1, false, none⟩ ⟨"A", 1, .floodWait, some 5⟩
        { tenantDisabled := ["t"] }
        none 4 ≠ .allow := by
  obtain ⟨-, -, hclosing, hcalls⟩ := policy_gate_sound (fun _ => {}) calledAfterFlood
  refine ⟨hcalls, hclosing _ _ {} _ none none _ ?_ (.kept none) (by decide)⟩
  exact ⟨nofun, List.nil_subset _, List.nil_subset _, List.nil_subset _, List.nil_subset _,
    List.nil_subset _⟩

end TgPlatform
