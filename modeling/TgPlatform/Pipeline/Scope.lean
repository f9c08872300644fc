import TgPlatform.Pipeline.Mappings

/-! # The scope of persisted work

A session ingests under the tenant and project of its assignment, but the
drain writes the scope of the process, which no host sets. The jobs and mapping
rows of an event thus carry the empty scope, whichever runner has drained it.
-/

namespace TgPlatform

def IngestedFor (s : System) (x : Assignment) (event : SourceEvent) : Prop :=
  event.accountId = x.accountId ∧ .ingested x.tenantId x.projectId event ∈ s.history

/-- The job was created from the inbox row of an event ingested under the assignment. -/
def CreatedFor (s : System) (x : Assignment) (id : JobId) : Prop :=
  ∃ event job, IngestedFor s x event ∧ s.db.deliveryJobs.get? id = some job ∧
    job.IsFor (inboxRow event 0)

/-- The jobs created for the assignment, and their mapping rows, carry its scope. -/
structure CarriesScope (s : System) (x : Assignment) : Prop where
  jobs : ∀ id job, CreatedFor s x id → s.db.deliveryJobs.get? id = some job →
    job.tenantId = x.tenantId ∧ job.projectId = x.projectId
  maps : ∀ i m, s.db.messageMaps.get? i = some m → CreatedFor s x m.deliveryJobId →
    m.tenantId = x.tenantId ∧ m.projectId = x.projectId

theorem System.created_unscoped {s : System} (hs : s.JobsUnscoped) {x : Assignment} {id : JobId}
    (hcreated : CreatedFor s x id) {job : DeliveryJob} (hjob : s.db.deliveryJobs.get? id = some job) :
    job.tenantId = "" ∧ job.projectId = "" := by
  obtain ⟨event, job', _, hjob', hfor⟩ := hcreated
  obtain rfl := Option.some.inj (hjob'.symm.trans hjob)
  rcases hs id job' hjob' with hreply | hunscoped
  · exact absurd hreply (not_isFor_reply hfor)
  · exact hunscoped

theorem scope_carried_iff (config : WorkerId → WorkerConfig) (as : List Action) (s : System)
    (hrun : System.run (.start config) as = some s) (x : Assignment) :
    CarriesScope s x ↔ (x.tenantId = "" ∧ x.projectId = "") ∨ ∀ id, ¬ CreatedFor s x id := by
  have hs : s.MapsFaithful :=
    Machine.run_invariant System.mapsFaithful_step hrun (System.mapsFaithful_start config)
  constructor
  · intro hcarries
    by_contra hneither
    push Not at hneither
    obtain ⟨hscope, id, hcreated⟩ := hneither
    obtain ⟨event, job, hevent, hjob, hfor⟩ := hcreated
    obtain ⟨htenant, hproject⟩ := hcarries.jobs id job ⟨event, job, hevent, hjob, hfor⟩ hjob
    obtain ⟨hnotenant, hnoproject⟩ :=
      System.created_unscoped hs.unscoped ⟨event, job, hevent, hjob, hfor⟩ hjob
    exact hscope (htenant.symm.trans hnotenant) (hproject.symm.trans hnoproject)
  · rintro (⟨htenant, hproject⟩ | hnone)
    · constructor
      · intro id job hcreated hjob
        rw [htenant, hproject]
        exact System.created_unscoped hs.unscoped hcreated hjob
      · intro i m hm _
        rw [htenant, hproject]
        exact System.map_unscoped hs.agree hs.unscoped hm
    · constructor
      · intro id job hcreated
        exact absurd hcreated (hnone id)
      · intro i m _ hcreated
        exact absurd hcreated (hnone _)

/-- Account `A` of tenant `t` and project `p` receives a message, and its clone is sent. -/
def clonedForTenant : List Action :=
  .publish "A" [cloneRule] ::
    assignSteps "w1" { accountId := "A", tenantId := "t", projectId := "p" } 0 ++
    ingestSteps "w1" "A" (channelUpdate .create) ++ drainSteps "w1" "A" [0] 10 1 ++
    claimSteps "w1" "A" [0] 2 ++ callSteps "w1" "A" 3 ++ returnSteps "w1" "A" (.returned [9]) 4

/-- A job is created for the assignment, as far as an evaluation can tell. -/
def createdFor (s : System) (x : Assignment) (id : JobId) : Bool :=
  s.history.any fun ev =>
    match ev with
    | .ingested tenantId projectId event =>
      tenantId = x.tenantId && projectId = x.projectId && event.accountId = x.accountId &&
        (s.db.deliveryJobs.get? id).any fun job => job.message = event.message &&
          job.revision = event.revision && job.kind = event.kind.plan.value
    | _ => false

theorem createdFor_spec {s : System} {x : Assignment} {id : JobId}
    (h : createdFor s x id = true) : CreatedFor s x id := by
  obtain ⟨ev, hmem, hev⟩ := List.any_eq_true.mp h
  cases ev with
  | ingested tenantId projectId event =>
    simp only [Bool.and_eq_true, decide_eq_true_eq, Option.any_eq_true] at hev
    obtain ⟨⟨⟨rfl, rfl⟩, hacc⟩, job, hjob, ⟨hmessage, hrevision⟩, hkind⟩ := hev
    exact ⟨event, job, ⟨hacc, hmem⟩, hjob, hmessage, hrevision, hkind⟩
  | _ => cases hev

theorem scope_carried_iff_cloned : ∃ s,
    System.run (.start fun _ => {}) clonedForTenant = some s ∧
      s.db.messageMaps.size = 1 ∧ ¬ CarriesScope s ⟨"A", "t", "p", true⟩ := by
  have hobserved : (System.run (.start fun _ => {}) clonedForTenant).map (fun s =>
      (s.db.messageMaps.size, createdFor s ⟨"A", "t", "p", true⟩ 0)) = some (1, true) := by
    decide +kernel
  obtain ⟨s, hrun, hobserved⟩ := Option.map_eq_some_iff.mp hobserved
  obtain ⟨hmaps, hcreated⟩ := Prod.mk.inj hobserved
  refine ⟨s, hrun, hmaps, ?_⟩
  rw [scope_carried_iff _ _ s hrun]
  rintro (⟨htenant, _⟩ | hnone)
  · exact absurd htenant (by decide)
  · exact hnone 0 (createdFor_spec hcreated)

/-- The clone's job and mapping row have lost the tenant and project of the assignment. -/
theorem cloned_job_loses_scope : ¬ ∀ config as s,
    System.run (.start config) as = some s → ∀ x, CarriesScope s x := by
  intro h
  have hobserved : (System.run (.start fun _ => {}) clonedForTenant).map (fun s =>
      (s.db.deliveryJobs.rows.map DeliveryJob.tenantId,
        createdFor s ⟨"A", "t", "p", true⟩ 0)) = some ([""], true) := by
    decide +kernel
  obtain ⟨s, hrun, hobserved⟩ := Option.map_eq_some_iff.mp hobserved
  obtain ⟨htenants, hcreated⟩ := Prod.mk.inj hobserved
  have hfor := createdFor_spec hcreated
  obtain ⟨event, job, _, hjob, _⟩ := id hfor
  have htenant := ((h _ _ s hrun ⟨"A", "t", "p", true⟩).jobs 0 job hfor hjob).1
  have hmem : job.tenantId ∈ s.db.deliveryJobs.rows.map DeliveryJob.tenantId :=
    List.mem_map_of_mem (List.mem_of_getElem? hjob)
  rw [htenants, List.mem_singleton, htenant] at hmem
  exact absurd hmem (by decide)

end TgPlatform
