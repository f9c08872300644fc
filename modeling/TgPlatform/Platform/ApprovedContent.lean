import TgPlatform.Pipeline.Mappings
import TgPlatform.Pipeline.Tombstone
import TgPlatform.Platform.Replies

/-! # Approved content only

A worker asks for the status of a candidate when it resolves the text, and for
its hash unless that is empty. It never asks when the approval expires.
-/

namespace TgPlatform

/-! ## Events name no payload -/

/-- No event names a payload, wherever it is. -/
structure PlainInbox (s : System) : Prop where
  ingests : ∀ c ∈ s.ingests, c.event.payloadRef = none
  inbox : ∀ i r, s.db.eventInbox.get? i = some r → r.payloadRef = none

namespace System

variable {s s' : System} {a : Action}

theorem plainInbox_start (config : WorkerId → WorkerConfig) : PlainInbox (.start config) where
  ingests c hc := by cases hc
  inbox i r hr := by cases hr

theorem plainInbox_step (h : s.step a = some s')
    (hplain : ∀ w acc raw pyHash, a = .ingestRead w acc raw pyHash → raw.payloadRef = none)
    (hs : PlainInbox s) : PlainInbox s' := by
  constructor
  · intro c hc
    rcases ingests_step h hc with hc | ⟨w, acc, raw, pyHash, ha, hevent, _, _⟩
    · exact hs.ingests c hc
    · rw [hevent]
      exact hplain w acc raw pyHash ha
  · intro i r' hr'
    cases hr : s.db.eventInbox.get? i with
    | none =>
      obtain ⟨k, c, hingested, rfl, _⟩ := inbox_row_new h hr hr'
      exact hs.ingests c (List.mem_of_getElem? hingested.call)
    | some r =>
      obtain ⟨r'', hr'', hcontent, _⟩ := inbox_row_step h hr
      obtain rfl := Option.some.inj (hr'.symm.trans hr'')
      have hpayload : r'.payloadRef = r.payloadRef := (congrArg EventInbox.payloadRef hcontent :)
      rw [hpayload]
      exact hs.inbox i r hr

theorem drained_payload (hplain : PlainInbox s) (hstored : BatchesStored s) {s' : System}
    {w : WorkerId} {acc : AccountId} {rows : List (RowId × EventInbox)} {mapping : DictMappingView}
    {draw : EventInbox → Draw} {stamp : ℕ → Time} {raises : Bool}
    (hdrained : DrainedBy s a s' w acc rows mapping draw stamp raises) {i : RowId}
    {row : EventInbox} (hrow : (i, row) ∈ rows) {plan : DeliveryPlan}
    (hplan : plan ∈ plansFor (s.workers w).deps mapping draw row) : plan.payloadRef = none := by
  obtain ⟨r, hr, hpc⟩ := hdrained.runner
  obtain ⟨r', hr', rfl⟩ := hstored w acc r i row hr (by rw [hpc]; exact hrow)
  obtain ⟨rule, _, route, _, rfl⟩ := mem_plan.mp hplan
  exact hplain.inbox i r' hr'

end System

/-! ## What is known about jobs and resolved texts -/

namespace Desk

def Bound (d : Desk) (job : DeliveryJob) : Prop :=
  ∃ i a c, d.approvals.get? i = some a ∧ d.candidates.get? a.candidateId = some c ∧
    job.payloadRef = some s!"candidate:{c.uuid}" ∧ job.payloadHash = some a.contentHash

/-- The text may be sent for the candidate, as far as a worker asks. -/
def Releases (sha256 : String → String) (d : Desk) (uuid text : String) : Prop :=
  ∃ i a c, d.approvals.get? i = some a ∧ d.candidates.get? a.candidateId = some c ∧
    c.uuid = uuid ∧ a.status = .approved ∧ (a.contentHash = "" ∨ sha256 text = a.contentHash)

variable {hasKey : String → Bool} {d d' : Desk} {x : DeskAction} {job : Option DeliveryJob}
variable {sha256 : String → String} {uuid text : String} {j : DeliveryJob}

theorem Bound.kept (hbound : d.Bound j) (h : d.Moves hasKey x d' job) : d'.Bound j := by
  obtain ⟨i, a, c, ha, hc, hpayload, hhash⟩ := hbound
  obtain ⟨a', ha', hcreated, -⟩ := h.approval_kept ha
  obtain ⟨c', hc', hkept⟩ := h.candidate_kept hc
  have hid : a'.candidateId = a.candidateId := (congrArg Approval.candidateId hcreated :)
  have hahash : a'.contentHash = a.contentHash := (congrArg Approval.contentHash hcreated :)
  have huuid : c'.uuid = c.uuid := (congrArg ReplyCandidate.uuid hkept :)
  refine ⟨i, a', c', ha', by rwa [hid], ?_, ?_⟩
  · rw [huuid, hpayload]
  · rw [hahash, hhash]

theorem Bound.congr {j' : DeliveryJob} (hbound : d.Bound j) (h : j'.asPlanned = j.asPlanned) :
    d.Bound j' := by
  obtain ⟨i, a, c, ha, hc, hpayload, hhash⟩ := hbound
  have hp : j'.payloadRef = j.payloadRef := (congrArg DeliveryJob.payloadRef h :)
  have hh : j'.payloadHash = j.payloadHash := (congrArg DeliveryJob.payloadHash h :)
  exact ⟨i, a, c, ha, hc, hp.trans hpayload, hh.trans hhash⟩

theorem bound_of_committed (h : d.Moves hasKey x d' job) (hd : d.Sound hasKey)
    (hd' : d'.Sound hasKey) (hj : job = some j) :
    d'.Bound j ∧ ∃ reply now, j = ApprovedReply.job reply now := by
  obtain ⟨i, a, c, scope, now, ha, hc, -, rfl⟩ := h.job_approved hd hj
  obtain ⟨c', hc', hbinds⟩ := hd'.tied ha
  obtain rfl : c = c' := Option.some.inj (hc.symm.trans hc')
  refine ⟨⟨i, a, c, ha, hc, rfl, ?_⟩, _, now, rfl⟩
  rw [hbinds.hash]
  rfl

/-- An approval stays approved if decisions find their approvals pending. -/
theorem Moves.approved_kept {i : ApprovalId} {a : Approval} (h : d.Moves hasKey x d' job)
    (hpending : ∀ k tx a, x = .commit k → d.calls.get? k = some tx →
      d.approvals.get? tx.request.pk = some a → a.status = .pending)
    (ha : d.approvals.get? i = some a) (hstatus : a.status = .approved) :
    ∃ a', d'.approvals.get? i = some a' ∧ a'.asCreated = a.asCreated ∧ a'.status = .approved := by
  cases h with
  | create hfresh hbind hs hjob => exact ⟨a, Table.get?_append_of_some ha, rfl, hstatus⟩
  | submit request => exact ⟨a, ha, rfl, hstatus⟩
  | advance htx hadvances => exact ⟨a, ha, rfl, hstatus⟩
  | @decide k tx approval now job htx hdecides =>
    have hpk : tx.request.pk ≠ i := by
      rintro rfl
      have hp := hpending k tx a rfl htx ha
      rw [hstatus] at hp
      cases hp
    exact ⟨a, by rw [Desk.decide, Table.get?_update_of_ne hpk, ha], rfl, hstatus⟩

theorem Releases.kept (hrel : d.Releases sha256 uuid text) (h : d.Moves hasKey x d' job)
    (hpending : ∀ k tx a, x = .commit k → d.calls.get? k = some tx →
      d.approvals.get? tx.request.pk = some a → a.status = .pending) :
    d'.Releases sha256 uuid text := by
  obtain ⟨i, a, c, ha, hc, huuid, hstatus, hhash⟩ := hrel
  obtain ⟨a', ha', hcreated, hstatus'⟩ := h.approved_kept hpending ha hstatus
  obtain ⟨c', hc', hkept⟩ := h.candidate_kept hc
  have hid : a'.candidateId = a.candidateId := (congrArg Approval.candidateId hcreated :)
  have hahash : a'.contentHash = a.contentHash := (congrArg Approval.contentHash hcreated :)
  have hcuuid : c'.uuid = c.uuid := (congrArg ReplyCandidate.uuid hkept :)
  exact ⟨i, a', c', ha', by rwa [hid], hcuuid.trans huuid, hstatus', by rwa [hahash]⟩

theorem releases_of_text (hd : d.Sound hasKey) (hbound : d.Bound j) {ref : String}
    (href : j.payloadRef = some ref) (huuid : candidateRef ref = some uuid)
    (htext : candidateText sha256 d uuid j.payloadHash = some text) :
    d.Releases sha256 uuid text := by
  obtain ⟨i, a, c, ha, hc, hpayload, hhash⟩ := hbound
  obtain rfl := Option.some.inj (href.symm.trans hpayload)
  rw [candidateRef_candidate] at huuid
  obtain rfl := Option.some.inj huuid
  obtain ⟨⟨ci, c'⟩, hfind, htext⟩ := Option.bind_eq_some_iff.mp htext
  obtain ⟨hc', hsame⟩ := Table.find?_eq_some hfind
  obtain rfl := hd.candidateUuids hc hc' (of_decide_eq_true hsame).symm
  obtain rfl : c = c' := Option.some.inj (hc.symm.trans hc')
  simp only [hhash] at htext
  split at htext
  · cases htext
  · rename_i hstatus
    have happroved : a.status = .approved := by
      rw [← hd.agree ha hc]
      exact not_not.mp hstatus
    split at htext
    · cases htext
    · rename_i hmatch
      obtain rfl := Option.some.inj htext
      refine ⟨i, a, c, ha, hc, rfl, happroved, ?_⟩
      by_cases hempty : a.contentHash = ""
      · exact Or.inl hempty
      · exact Or.inr (not_not.mp fun hne => hmatch ⟨hempty, hne⟩)

end Desk

namespace Platform

variable {sha256 : String → String} {s s' : Platform} {x : PlatformAction}

/-- The text sent for a candidate is the approved one, and its approval stands and has not
expired at that moment. -/
def SentApproved (sha256 : String → String) (s : Platform) (sent : Sent) : Prop :=
  ∃ i a c, s.desk.approvals.get? i = some a ∧ s.desk.candidates.get? a.candidateId = some c ∧
    c.uuid = sent.uuid ∧ sha256 sent.text = a.contentHash ∧ a.status = .approved ∧
    c.version = a.candidateVersion ∧ sent.at_ < a.expiresAt

/-- A worker hands a text over before its approval expires and none has an empty hash, and a
decision that commits finds its approval pending. -/
structure SendsInTime (s : Platform) (x : PlatformAction) (_ : Platform) : Prop where
  decides : ∀ k tx a, x = .desk (.commit k) → s.desk.calls.get? k = some tx →
    s.desk.approvals.get? tx.request.pk = some a → a.status = .pending
  sends : ∀ p now uuid text i a c, x = .sendText p now → s.sends p = .resolved uuid text →
    s.desk.approvals.get? i = some a → s.desk.candidates.get? a.candidateId = some c →
    c.uuid = uuid → a.contentHash ≠ "" ∧ now < a.expiresAt

structure Sound (sha256 : String → String) (s : Platform) : Prop where
  desk : s.desk.Sound s.hasKey
  copies : System.CopiesAgree s.sys
  stored : System.BatchesStored s.sys
  plain : PlainInbox s.sys
  jobs : ∀ id job, s.sys.db.deliveryJobs.get? id = some job →
    job.payloadRef = none ∨ s.desk.Bound job
  resolved : ∀ p uuid text, s.sends p = .resolved uuid text → s.desk.Releases sha256 uuid text

theorem sound_start (config : WorkerId → WorkerConfig) : (start config).Sound sha256 where
  desk := Desk.sound_empty _
  copies := System.copiesAgree_start config
  stored := System.batchesStored_start config
  plain := System.plainInbox_start config
  jobs id job h := by cases h
  resolved p uuid text h := by cases h

theorem desk_step {y : DeskAction} (h : s.step sha256 (.desk y) = some s') :
    ∃ job, s.desk.step s.hasKey y = some (s'.desk, job) ∧ s'.sends = s.sends ∧ s'.sent = s.sent ∧
      (job = none ∧ s'.sys = s.sys ∨ ∃ j, job = some j ∧
        ∀ reply now, j = ApprovedReply.job reply now →
          s.sys.step (.enqueue reply now) = some s'.sys) := by
  obtain ⟨⟨desk, job⟩, hstep, h⟩ := Option.bind_eq_some_iff.mp h
  cases job with
  | none =>
    cases h
    exact ⟨none, hstep, rfl, rfl, Or.inl ⟨rfl, rfl⟩⟩
  | some j =>
    simp only [Option.ite_none_left_eq_some] at h
    obtain ⟨hfresh, h⟩ := h
    cases h
    refine ⟨some j, hstep, rfl, rfl, Or.inr ⟨j, rfl, ?_⟩⟩
    rintro reply now rfl
    exact if_neg hfresh

theorem hasKey_kept {a : Action} (h : s.sys.step a = some s'.sys) {key : String}
    (hkey : s.hasKey key = true) : s'.hasKey key = true := by
  obtain ⟨id, job, hjob, hkey⟩ := Table.any_iff.mp hkey
  obtain ⟨job', hjob', hplanned⟩ := System.planned_kept h hjob
  have hsame : job'.idempotencyKey = job.idempotencyKey :=
    (congrArg DeliveryJob.idempotencyKey hplanned :)
  exact Table.any_iff.mpr ⟨id, job', hjob', by rwa [hsame]⟩

theorem jobs_step {sys : System} {desk : Desk} {a : Action} (h : s.sys.step a = some sys)
    (hs : s.Sound sha256) (hkept : ∀ job, s.desk.Bound job → desk.Bound job)
    (hreply : ∀ reply now, a = .enqueue reply now → desk.Bound (reply.job now)) {id : JobId}
    {job' : DeliveryJob} (hjob' : sys.db.deliveryJobs.get? id = some job') :
    job'.payloadRef = none ∨ desk.Bound job' := by
  cases hjob : s.sys.db.deliveryJobs.get? id with
  | none =>
    rcases System.job_new h hjob hjob' with ⟨reply, now, ha, rfl⟩ |
      ⟨w, acc, rows, mapping, draw, stamp, raises, hdrained, i, row, plan, now, hrow, hplan, rfl, _⟩
    · exact Or.inr (hreply reply now ha)
    · exact Or.inl (System.drained_payload hs.plain hs.stored hdrained hrow hplan)
  | some job =>
    obtain ⟨job'', hjob'', hplanned⟩ := System.planned_kept h hjob
    obtain rfl := Option.some.inj (hjob'.symm.trans hjob'')
    rcases hs.jobs id job hjob with hnone | hbound
    · exact Or.inl ((congrArg DeliveryJob.payloadRef hplanned :).trans hnone)
    · exact Or.inr ((hkept job hbound).congr hplanned)

theorem sound_desk {y : DeskAction} (h : s.step sha256 (.desk y) = some s')
    (hg : s.SendsInTime (.desk y) s') (hs : s.Sound sha256) : s'.Sound sha256 := by
  obtain ⟨job, hstep, hsends, -, hsys⟩ := desk_step h
  have hmoves := Desk.step_moves hstep
  have hdesk := hs.desk.step hstep
  have hresolved : ∀ p uuid text, s'.sends p = .resolved uuid text →
      s'.desk.Releases sha256 uuid text := by
    intro p uuid text hp
    rw [hsends] at hp
    exact (hs.resolved p uuid text hp).kept hmoves fun k tx a hy => hg.decides k tx a (hy ▸ rfl)
  rcases hsys with ⟨-, hsame⟩ | ⟨j, hj, henqueue⟩
  · have hkeys : s'.hasKey = s.hasKey := by
      funext key
      rw [hasKey, hasKey, hsame]
    refine ⟨hkeys ▸ hdesk, hsame ▸ hs.copies, hsame ▸ hs.stored, hsame ▸ hs.plain, ?_, hresolved⟩
    intro id job hjob
    rw [hsame] at hjob
    exact (hs.jobs id job hjob).imp_right fun hbound => hbound.kept hmoves
  · obtain ⟨hbound, reply, now, rfl⟩ := Desk.bound_of_committed hmoves hs.desk hdesk hj
    have henqueued := henqueue reply now rfl
    refine ⟨hdesk.mono fun key hkey => hasKey_kept henqueued hkey,
      System.copiesAgree_step _ _ _ henqueued hs.copies,
      System.batchesStored_step _ _ _ henqueued hs.stored,
      System.plainInbox_step henqueued (by simp) hs.plain, ?_, hresolved⟩
    intro id job' hjob'
    refine jobs_step henqueued hs (fun job hbound => hbound.kept hmoves) ?_ hjob'
    rintro reply' now' heq
    obtain ⟨rfl, rfl⟩ := Action.enqueue.inj heq
    exact hbound

theorem sound_system {a : Action} (h : s.step sha256 (.system a) = some s')
    (hs : s.Sound sha256) : s'.Sound sha256 := by
  simp only [step, Option.ite_none_right_eq_some, Option.map_eq_some_iff] at h
  obtain ⟨hadmits, sys, hstep, rfl⟩ := h
  refine ⟨hs.desk.mono fun key hkey => hasKey_kept hstep hkey,
    System.copiesAgree_step _ _ _ hstep hs.copies, System.batchesStored_step _ _ _ hstep hs.stored,
    System.plainInbox_step hstep ?_ hs.plain, ?_, ?_⟩
  · rintro w acc raw pyHash rfl
    exact Option.isNone_iff_eq_none.mp hadmits
  · intro id job' hjob'
    refine jobs_step hstep hs (fun job hbound => hbound) ?_ hjob'
    rintro reply now rfl
    cases hadmits
  · intro p uuid text hp
    simp only at hp
    split at hp
    · exact hs.resolved p uuid text hp
    · cases hp

theorem sending_job (hs : s.Sound sha256) {p : Slot} {h : Holding}
    (hsending : sending s.sys p = some h) :
    ∃ job, h.plan.payloadRef = job.payloadRef ∧ h.plan.payloadHash = job.payloadHash ∧
      (job.payloadRef = none ∨ s.desk.Bound job) := by
  obtain ⟨r, hr, hpc⟩ := Option.bind_eq_some_iff.mp hsending
  split at hpc
  · rename_i held targetIds hcalling
    obtain rfl := Option.some.inj hpc
    have hholder : (s.sys.view held.id).holder p =
        some (.calling held (held.call p.1 p.2 r.generation .send)) := by
      rw [show p = (p.1, p.2) from rfl, System.holder_of_runner hr]
      simp [Runner.stage, hcalling]
    obtain ⟨job, hjob, _, hplanned, d, acc, hhold⟩ := hs.copies held.id p _ held hholder rfl
    obtain ⟨_, _, _, hheld⟩ := System.hold_eq_some hhold
    obtain ⟨plan₀, hplan₀, hhints⟩ := System.heldPlan_eq_some hheld
    obtain ⟨hpayload, hhash⟩ := planFromJob_payload hplan₀
    have hp : held.job.payloadRef = job.payloadRef := (congrArg DeliveryJob.payloadRef hplanned :)
    have hh : held.job.payloadHash = job.payloadHash := (congrArg DeliveryJob.payloadHash hplanned :)
    refine ⟨job, ?_, ?_, hs.jobs held.id job hjob⟩
    · rw [hhints]
      exact hpayload.trans hp
    · rw [hhints]
      exact hhash.trans hh
  · cases hpc

theorem Sound.setSend (hs : s.Sound sha256) {p : Slot} {stage : SendStage} {sent : List Sent}
    (hstage : ∀ uuid text, stage = .resolved uuid text → s.desk.Releases sha256 uuid text) :
    { s with sends := Function.update s.sends p stage, sent }.Sound sha256 where
  desk := hs.desk
  copies := hs.copies
  stored := hs.stored
  plain := hs.plain
  jobs := hs.jobs
  resolved q uuid text hq := by
    simp only [Function.update_apply] at hq
    split at hq
    · exact hstage uuid text hq
    · exact hs.resolved q uuid text hq

theorem sound_step (sha256 : String → String) (s : Platform) (x : PlatformAction) (s' : Platform)
    (h : s.step sha256 x = some s') (hg : s.SendsInTime x s') (hs : s.Sound sha256) :
    s'.Sound sha256 := by
  cases x with
  | desk y => exact sound_desk h hg hs
  | system a => exact sound_system h hs
  | resolveText p =>
    simp only [step, Option.ite_none_right_eq_some] at h
    obtain ⟨-, h⟩ := h
    obtain ⟨held, hsending, h⟩ := Option.bind_eq_some_iff.mp h
    obtain ⟨uuid, huuid, h⟩ := Option.bind_eq_some_iff.mp h
    obtain ⟨text, htext, rfl⟩ := Option.map_eq_some_iff.mp h
    apply hs.setSend
    rintro uuid' text' heq
    obtain ⟨rfl, rfl⟩ := SendStage.resolved.inj heq
    obtain ⟨ref, href, huuid⟩ := Option.bind_eq_some_iff.mp huuid
    obtain ⟨job, hpayload, hhash, hjob⟩ := sending_job hs hsending
    rw [hpayload] at href
    rw [hhash] at htext
    rcases hjob with hnone | hbound
    · rw [hnone] at href
      cases href
    · exact Desk.releases_of_text hs.desk hbound href huuid htext
  | sendText p now =>
    simp only [step] at h
    split at h
    · cases h
      apply hs.setSend
      intro uuid' text' heq
      cases heq
    · cases h

def ContentApproved (sha256 : String → String) (s : Platform) : Prop :=
  ∀ sent ∈ s.sent, s.SentApproved sha256 sent

theorem SentApproved.kept {y : DeskAction} {sent : Sent} (hsent : s.SentApproved sha256 sent)
    (h : s.step sha256 (.desk y) = some s') (hg : s.SendsInTime (.desk y) s') :
    s'.SentApproved sha256 sent := by
  obtain ⟨i, a, c, ha, hc, huuid, hhash, hstatus, hversion, hexpiry⟩ := hsent
  obtain ⟨job, hstep, -, -, -⟩ := desk_step h
  have hmoves := Desk.step_moves hstep
  obtain ⟨a', ha', hcreated, hstatus'⟩ :=
    hmoves.approved_kept (fun k tx a hy => hg.decides k tx a (hy ▸ rfl)) ha hstatus
  obtain ⟨c', hc', hkept⟩ := hmoves.candidate_kept hc
  have hid : a'.candidateId = a.candidateId := (congrArg Approval.candidateId hcreated :)
  have hahash : a'.contentHash = a.contentHash := (congrArg Approval.contentHash hcreated :)
  have haversion : a'.candidateVersion = a.candidateVersion :=
    (congrArg Approval.candidateVersion hcreated :)
  have haexpiry : a'.expiresAt = a.expiresAt := (congrArg Approval.expiresAt hcreated :)
  have hcuuid : c'.uuid = c.uuid := (congrArg ReplyCandidate.uuid hkept :)
  have hcversion : c'.version = c.version := (congrArg ReplyCandidate.version hkept :)
  exact ⟨i, a', c', ha', by rwa [hid], hcuuid.trans huuid, by rw [hahash, hhash], hstatus',
    by rw [hcversion, haversion, hversion], by rwa [haexpiry]⟩

theorem contentApproved_step (sha256 : String → String) (s : Platform) (x : PlatformAction)
    (s' : Platform) (h : s.step sha256 x = some s') (hg : s.SendsInTime x s')
    (hs : s.Sound sha256) (hsent : s.ContentApproved sha256) : s'.ContentApproved sha256 := by
  intro sent hmem
  cases x with
  | desk y =>
    obtain ⟨_, _, _, hsame, _⟩ := desk_step h
    exact (hsent sent (hsame ▸ hmem)).kept h hg
  | system a =>
    simp only [step, Option.ite_none_right_eq_some, Option.map_eq_some_iff] at h
    obtain ⟨-, sys, -, rfl⟩ := h
    exact hsent sent hmem
  | resolveText p =>
    simp only [step, Option.ite_none_right_eq_some] at h
    obtain ⟨-, h⟩ := h
    obtain ⟨held, -, h⟩ := Option.bind_eq_some_iff.mp h
    obtain ⟨uuid, -, h⟩ := Option.bind_eq_some_iff.mp h
    obtain ⟨text, -, rfl⟩ := Option.map_eq_some_iff.mp h
    exact hsent sent hmem
  | sendText p now =>
    simp only [step] at h
    split at h
    · rename_i uuid text hresolved
      cases h
      rcases List.mem_append.mp hmem with hold | hnew
      · exact hsent sent hold
      · obtain rfl := List.mem_singleton.mp hnew
        obtain ⟨i, a, c, ha, hc, huuid, hstatus, hhash⟩ := hs.resolved p uuid text hresolved
        obtain ⟨hnonempty, hexpiry⟩ := hg.sends p now uuid text i a c rfl hresolved ha hc huuid
        obtain ⟨c', hc', hbinds⟩ := hs.desk.tied ha
        obtain rfl : c = c' := Option.some.inj (hc.symm.trans hc')
        exact ⟨i, a, c, ha, hc, huuid, hhash.resolve_left hnonempty, hstatus,
          hbinds.version.symm, hexpiry⟩
    · cases h

/-- Every text sent for a candidate is approved, bound and in time, in every run in which texts
are handed over in time, under a hash, and no decision comes too late. -/
theorem approved_content_only (sha256 : String → String) (config : WorkerId → WorkerConfig)
    (as : List PlatformAction)
    (hg : Machine.Always (step sha256) SendsInTime (start config) as) :
    Machine.Always (step sha256) (fun _ _ s' => s'.ContentApproved sha256) (start config) as := by
  have hI (s : Platform) (x : PlatformAction) (s' : Platform) (h : s.step sha256 x = some s')
      (hg : s.SendsInTime x s') (hs : s.Sound sha256 ∧ s.ContentApproved sha256) :
      s'.Sound sha256 ∧ s'.ContentApproved sha256 :=
    ⟨sound_step sha256 s x s' h hg hs.1, contentApproved_step sha256 s x s' h hg hs.1 hs.2⟩
  refine hg.of_invariant hI (fun s x s' h hg hs => (hI s x s' h hg hs).2) ⟨sound_start config, ?_⟩
  intro sent hmem
  cases hmem

/-- `SendsInTime` as a test. -/
def sendsInTime (s : Platform) (x : PlatformAction) (_ : Platform) : Bool :=
  match x with
  | .desk (.commit k) => (s.desk.calls.get? k).all fun tx =>
      (s.desk.approvals.get? tx.request.pk).all fun a => a.status = .pending
  | .sendText p now =>
    match s.sends p with
    | .resolved uuid _ => s.desk.approvals.rows.all fun a =>
        (s.desk.candidates.get? a.candidateId).all fun c =>
          c.uuid ≠ uuid || (a.contentHash ≠ "" && now < a.expiresAt)
    | _ => true
  | _ => true

theorem sendsInTime_spec (s : Platform) (x : PlatformAction) (s' : Platform)
    (h : sendsInTime s x s' = true) : s.SendsInTime x s' := by
  constructor
  · rintro k tx a rfl htx ha
    simpa [sendsInTime, htx, ha] using h
  · rintro p now uuid text i a c rfl hresolved ha hc rfl
    have hall := List.all_eq_true.mp (by simpa only [sendsInTime, hresolved] using h) a
      (List.mem_of_getElem? ha)
    simpa [hc] using hall

/-- SHA-256 of the one text below. -/
def digest (text : String) : String :=
  if text = "hi" then "8f434346648f6b96df89dda901c5176b10a6d83961dd3c1ac88b59b2dc327aa4" else ""

def replyResolved : List PlatformAction :=
  let candidate : ReplyCandidate := {
    uuid := "c", tenantId := 1, projectId := 1, accountId := 1, targetChatId := 7
    content := "hi", contentHash := digest "hi", expiresAt := 100 }
  let request : DecideRequest := {
    pk := 0, userId := 1, expectVersion := 1, expectHash := digest "hi", verdict := .approved }
  [.create candidate "1", .submit request, .readApproval 0 1 true, .readCandidate 0,
      .writeApproval 0, .writeCandidate 0, .createJob 0 (some ⟨"t", "p", "A"⟩) 2,
      .commit 0].map PlatformAction.desk ++
    (assignSteps "w1" { accountId := "A", tenantId := "t", projectId := "p" } 0 ++
      claimSteps "w1" "A" [0] 3 ++ callSteps "w1" "A" 4).map PlatformAction.system ++
    [.resolveText ("w1", "A")]

theorem approved_content_only_in_time :
    Machine.Always (step digest) (fun _ _ s' => s'.ContentApproved digest) (start fun _ => {})
        (replyResolved ++ [.sendText ("w1", "A") 10]) ∧
      ∃ s s', Machine.run (step digest) (start fun _ => {}) replyResolved = some s ∧
        s.step digest (.sendText ("w1", "A") 10) = some s' ∧ s'.sent = [⟨"c", "hi", 10⟩] := by
  constructor
  · apply approved_content_only
    exact Machine.always_of_checkRun sendsInTime_spec (by decide +kernel)
  · exact Machine.exists_of_observed (f := fun _ (s' : Platform) => s'.sent) (by decide +kernel)

/-- The approval expires at 100, and its text is sent at 200. -/
theorem expired_reply_is_sent : ¬ ∀ sha256 config as,
    Machine.Always (step sha256) (fun _ _ s' => s'.ContentApproved sha256) (start config) as := by
  intro h
  obtain ⟨s, s', hrun, hsend, hobserved⟩ : ∃ s s',
      Machine.run (step digest) (start fun _ => {}) replyResolved = some s ∧
        s.step digest (.sendText ("w1", "A") 200) = some s' ∧
        (s'.sent, s'.desk.approvals.rows.map Approval.expiresAt) = ([⟨"c", "hi", 200⟩], [100]) :=
    Machine.exists_of_observed (f := fun _ (s' : Platform) =>
      (s'.sent, s'.desk.approvals.rows.map Approval.expiresAt)) (by decide +kernel)
  obtain ⟨hsent, hexpires⟩ := Prod.mk.inj hobserved
  refine Machine.not_always_of_step hrun hsend ?_ (h digest (fun _ => {}) _)
  intro happroved
  obtain ⟨i, a, c, ha, -, -, -, -, -, hexpiry⟩ := happroved ⟨"c", "hi", 200⟩ (by rw [hsent]; simp)
  have hmem : a.expiresAt ∈ s'.desk.approvals.rows.map Approval.expiresAt :=
    List.mem_map_of_mem (List.mem_of_getElem? ha)
  rw [hexpires, List.mem_singleton] at hmem
  rw [hmem] at hexpiry
  exact absurd hexpiry (by decide)

end Platform

end TgPlatform
