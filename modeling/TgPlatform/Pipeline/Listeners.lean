import Mathlib.Data.Set.Basic
import TgPlatform.Pipeline.System
import TgPlatform.Planner.Keys

/-! # Listeners of one source

Several accounts ingest what they see of one channel, and the inbox is drained
with the published rules of every account loaded. A dedup key has no account in
it, so of all the arrivals of an event only the first one gets an inbox row, and
only the rules of its account plan it.
-/

namespace TgPlatform

structure Arrival where
  tenantId : TenantId
  projectId : ProjectId
  event : SourceEvent
  deriving DecidableEq, Repr

/-- `ingest`; a rejected commit leaves the database as it was. -/
def Database.ingest (db : Database) (x : Arrival) : Database :=
  (db.ingestCommit (db.ingestSelect x.tenantId x.projectId x.event) x.tenantId x.projectId x.event
    0).getD db

structure Intake where
  db : Database
  /-- Batches that have been read and are still to be committed. -/
  batches : List (List (RowId × EventInbox))

inductive IntakeAction
  | ingest (x : Arrival)
  | drainRead (order : List RowId) (limit : ℕ)
  | drainCommit (k : ℕ) (dead : List AccountId) (mapping : DictMappingView)
      (draw : EventInbox → Draw) (tenantId : TenantId) (projectId : ProjectId) (stamp : ℕ → Time)
      (expungeRaises : Bool)

def Intake.start : Intake := ⟨.empty, []⟩

/-- The plans of a drained row under the rules published for its account; `dead` are the pool
accounts that the draining process has reported dead. -/
def publishedPlans (published : AccountId → List PublishedRule) (dead : List AccountId)
    (mapping : DictMappingView) (draw : EventInbox → Draw) (row : EventInbox) :
    List DeliveryPlan :=
  plan mapping (draw row) (eventFromInbox row)
    (rulesFromRows (published row.accountId) row.accountId dead)

def Intake.step (published : AccountId → List PublishedRule) (s : Intake) :
    IntakeAction → Option Intake
  | .ingest x => some { s with db := s.db.ingest x }
  | .drainRead order limit =>
    if s.db.UnprocessedOrder order then
      some { s with batches := s.batches ++ [s.db.nextUnprocessed order limit] }
    else none
  | .drainCommit k dead mapping draw tenantId projectId stamp expungeRaises =>
    (s.batches[k]?).map fun rows =>
      { db := (s.db.drainToJobs rows (publishedPlans published dead mapping draw) tenantId
          projectId stamp expungeRaises).getD s.db
        batches := s.batches.eraseIdx k }

abbrev Intake.run (published : AccountId → List PublishedRule) :
    List IntakeAction → Option Intake :=
  Machine.run (Intake.step published) .start

def arrivals (as : List IntakeAction) : List SourceEvent :=
  as.filterMap fun
    | .ingest x => some x.event
    | _ => none

def Intake.Drained (s : Intake) : Prop :=
  ∀ i r, s.db.eventInbox.get? i = some r → r.processed = true

/-- What has a delivery job under the rules of an account. -/
def Intake.cloned (published : AccountId → List PublishedRule) (s : Intake) (a : AccountId) :
    Set CloneKey :=
  { key | (∃ row ∈ published a, row.ruleId = key.ruleId) ∧
    ∃ id job, s.db.deliveryJobs.get? id = some job ∧ job.cloneKey = key }

def clonesOf (published : AccountId → List PublishedRule) (e : SourceEvent) : List CloneKey :=
  (plan [] (fun _ _ => 0) e (rulesFromRows (published e.accountId) e.accountId [])).map
    DeliveryPlan.cloneKey

/-- Every rule is published for one account, and rule and route ids hold no colon. -/
structure OwnRules (published : AccountId → List PublishedRule) : Prop where
  owner : ∀ a b row row', row ∈ published a → row' ∈ published b → row.ruleId = row'.ruleId → a = b
  rule_plain : ∀ a row, row ∈ published a → ':' ∉ row.ruleId.toList
  route_plain : ∀ a row t, row ∈ published a → t ∈ row.targets → ':' ∉ t.routeId.toList

/-- Of every event that the rules of `a` clone on its first arrival at `a`, that arrival is the
first one altogether. -/
def Unshadowed (published : AccountId → List PublishedRule) (a : AccountId)
    (events : List SourceEvent) : Prop :=
  ∀ e first, (events.filter fun x => x.accountId = a).find? (fun x => x.dedup = e.dedup) = some e →
    events.find? (fun x => x.dedup = e.dedup) = some first →
    clonesOf published e ≠ [] → first.accountId = a

/-! ## Ingest -/

theorem Database.ingest_cases (db : Database) (x : Arrival) :
    ((∃ i r, db.eventInbox.get? i = some r ∧ r.dedup = x.event.dedup) ∧ db.ingest x = db) ∨
      (∀ i r, db.eventInbox.get? i = some r → r.dedup ≠ x.event.dedup) ∧
        ∃ sources, db.ingest x = { db with
          sourceMessages := sources
          eventInbox := db.eventInbox.insert (inboxRow x.event 0) } := by
  unfold ingest
  cases hcommit : db.ingestCommit (db.ingestSelect x.tenantId x.projectId x.event) x.tenantId
      x.projectId x.event 0 with
  | some db' =>
    obtain ⟨hfresh, sources, rfl, _⟩ := ingestCommit_eq_some hcommit
    exact Or.inr ⟨hfresh, sources, rfl⟩
  | none =>
    refine Or.inl ⟨?_, rfl⟩
    unfold ingestCommit at hcommit
    split at hcommit
    · rename_i hany
      obtain ⟨i, r, hr, hdedup⟩ := Table.any_iff.mp hany
      exact ⟨i, r, hr, of_decide_eq_true hdedup⟩
    · split at hcommit
      · rename_i hseen
        split at hcommit
        · -- the read saw no row of the message, so the constraint holds
          rename_i hany
          obtain ⟨i, m, hm, hidentity⟩ := Table.any_iff.mp hany
          have hmiss := Table.find?_eq_none hseen hm
          rw [hidentity] at hmiss
          cases hmiss
        · cases hcommit
      · cases hcommit

/-! ## What published rules plan -/

section Planned

variable {published : AccountId → List PublishedRule} {rows : List PublishedRule}
  {accountId : AccountId} {dead : List AccountId} {event : SourceEvent} {mapping : DictMappingView}
  {draw : Draw} {p : DeliveryPlan} {key : CloneKey}

theorem mem_rulesFromRows {rule : RuleSnapshot} (h : rule ∈ rulesFromRows rows accountId dead) :
    ∃ row ∈ rows, rule.ruleId = row.ruleId ∧ ∃ t ∈ row.targets,
      rule.targets = [⟨t.routeId, t.targetChatId, t.targetTopicId⟩] := by
  simp only [rulesFromRows, rulesFromSnapshot, List.mem_flatMap, List.mem_map] at h
  obtain ⟨row, hrow, t, ht, scope, _, rfl⟩ := h
  exact ⟨row, hrow, rfl, t, ht, rfl⟩

theorem routes_subset (event : SourceEvent) (rule : RuleSnapshot) :
    plannedRoutes event rule ⊆ rule.targets := by
  unfold plannedRoutes
  split_ifs <;> simp

theorem plan_ids (h : p ∈ plan mapping draw event (rulesFromRows rows accountId dead)) :
    ∃ row ∈ rows, p.ruleId = row.ruleId ∧ ∃ t ∈ row.targets, p.routeId = t.routeId := by
  obtain ⟨rule, hrule, route, hroute, rfl⟩ := mem_plan.mp h
  obtain ⟨row, hrow, hid, t, ht, htargets⟩ := mem_rulesFromRows hrule
  have hmem := routes_subset event rule hroute
  rw [htargets, List.mem_singleton] at hmem
  exact ⟨row, hrow, hid, t, ht, by rw [hmem]; rfl⟩

theorem OwnRules.plainIds (h : OwnRules published)
    (hp : p ∈ plan mapping draw event (rulesFromRows (published accountId) accountId dead)) :
    p.PlainIds := by
  obtain ⟨row, hrow, hrule, t, ht, hroute⟩ := plan_ids hp
  constructor
  · rw [hrule]
    exact h.rule_plain accountId row hrow
  · rw [hroute]
    exact h.route_plain accountId row t hrow ht

/-- What an event is cloned to depends on no draw, no mapping row and no dead account. -/
theorem map_cloneKey_plan (mapping : DictMappingView) (draw : Draw) (event : SourceEvent)
    (dead : List AccountId) :
    (plan mapping draw event
      (rulesFromRows (published event.accountId) event.accountId dead)).map
        DeliveryPlan.cloneKey = clonesOf published event := by
  simp only [clonesOf, plan_eq, rulesFromRows, rulesFromSnapshot, List.flatMap_assoc,
    List.flatMap_map, List.map_flatMap, List.map_map]
  rfl

theorem clonesOf_spec (h : key ∈ clonesOf published event) :
    key.message = event.message ∧ key.revision = event.revision ∧
      key.kind = event.kind.plan.value ∧
      ∃ row ∈ published event.accountId, row.ruleId = key.ruleId := by
  obtain ⟨p, hp, rfl⟩ := List.mem_map.mp h
  obtain ⟨hmessage, hrevision, hkind⟩ := plan_source hp
  obtain ⟨row, hrow, hrule, _⟩ := plan_ids hp
  exact ⟨hmessage, hrevision, by rw [← hkind]; rfl, row, hrow, hrule.symm⟩

theorem EventKind.plan_injective {k k' : EventKind} (h : k.plan = k'.plan) : k = k' := by
  cases k <;> cases k' <;> first | rfl | cases h

theorem dedup_of_clonesOf {event' : SourceEvent} (h : key ∈ clonesOf published event)
    (h' : key ∈ clonesOf published event') : event.dedup = event'.dedup := by
  obtain ⟨hmessage, hrevision, hkind, _⟩ := clonesOf_spec h
  obtain ⟨hmessage', hrevision', hkind', _⟩ := clonesOf_spec h'
  have hplan := PlanKind.value_injective (hkind.symm.trans hkind')
  simp only [SourceEvent.dedup, Prod.mk.injEq]
  exact ⟨hmessage.symm.trans hmessage', EventKind.plan_injective hplan,
    hrevision.symm.trans hrevision'⟩

end Planned

/-! ## What a run leaves -/

/-- The inbox holds the first arrival of every event, and the jobs are the clones of the
processed rows. -/
structure Accounted (published : AccountId → List PublishedRule) (events : List SourceEvent)
    (s : Intake) : Prop where
  stored : ∀ e, (∃ i r, s.db.eventInbox.get? i = some r ∧ eventFromInbox r = e) ↔
    events.find? (fun x => x.dedup = e.dedup) = some e
  batched : ∀ rows ∈ s.batches, ∀ i row, (i, row) ∈ rows →
    ∃ r, s.db.eventInbox.get? i = some r ∧ eventFromInbox r = eventFromInbox row
  sound : ∀ id job, s.db.deliveryJobs.get? id = some job →
    ∃ i r, ∃ p : DeliveryPlan, s.db.eventInbox.get? i = some r ∧ p.PlainIds ∧
      p.cloneKey ∈ clonesOf published (eventFromInbox r) ∧ job.cloneKey = p.cloneKey ∧
      job.idempotencyKey = p.idempotencyKey
  complete : ∀ i r, s.db.eventInbox.get? i = some r → r.processed = true →
    ∀ key ∈ clonesOf published (eventFromInbox r),
      ∃ id job, s.db.deliveryJobs.get? id = some job ∧ job.cloneKey = key

section Run

variable {published : AccountId → List PublishedRule} {events : List SourceEvent}
  {s s' : Intake}

theorem accounted_start : Accounted published [] .start where
  stored e := by simp [Intake.start, Database.empty]
  batched rows hrows := by simp [Intake.start] at hrows
  sound id job hjob := by simp [Intake.start, Database.empty] at hjob
  complete i r hr := by simp [Intake.start, Database.empty] at hr

theorem find?_snoc_of_ne {x e : SourceEvent} (h : x.dedup ≠ e.dedup) :
    (events ++ [x]).find? (fun y => y.dedup = e.dedup) =
      events.find? (fun y => y.dedup = e.dedup) := by
  simp [List.find?_append, h]

theorem Accounted.ingest (hs : Accounted published events s) (x : Arrival) :
    Accounted published (events ++ [x.event]) { s with db := s.db.ingest x } := by
  rcases s.db.ingest_cases x with ⟨⟨i, r, hr, hdedup⟩, hsame⟩ | ⟨hfresh, sources, hnew⟩
  · -- a repeated event: its first arrival stays the one that counts
    rw [hsame]
    refine ⟨?_, hs.batched, hs.sound, hs.complete⟩
    intro e
    rw [hs.stored e]
    by_cases he : x.event.dedup = e.dedup
    · have hfirst := (hs.stored (eventFromInbox r)).mp ⟨i, r, hr, rfl⟩
      have hkey : (eventFromInbox r).dedup = e.dedup := hdedup.trans he
      rw [hkey] at hfirst
      rw [List.find?_append, hfirst, Option.some_or]
    · rw [find?_snoc_of_ne he]
  · rw [hnew]
    have hkept : ∀ i r, s.db.eventInbox.get? i = some r →
        (s.db.eventInbox.insert (inboxRow x.event 0)).get? i = some r :=
      fun i r hr => Table.get?_append_of_some hr
    have hold : ∀ i r, (s.db.eventInbox.insert (inboxRow x.event 0)).get? i = some r →
        r = inboxRow x.event 0 ∨ s.db.eventInbox.get? i = some r := by
      intro i r hr
      rw [Table.get?_insert] at hr
      split at hr
      · exact Or.inl (Option.some.inj hr).symm
      · exact Or.inr hr
    refine ⟨?_, ?_, ?_, ?_⟩
    · intro e
      by_cases he : x.event.dedup = e.dedup
      · have hnone : events.find? (fun y => y.dedup = e.dedup) = none := by
          by_contra hsome
          obtain ⟨first, hfirst⟩ := Option.ne_none_iff_exists'.mp hsome
          have hkey : first.dedup = e.dedup := by simpa using List.find?_some hfirst
          rw [← hkey] at hfirst
          obtain ⟨i, r, hr, rfl⟩ := (hs.stored first).mpr hfirst
          exact hfresh i r hr (hkey.trans he.symm)
        rw [List.find?_append, hnone, Option.none_or]
        constructor
        · rintro ⟨i, r, hr, rfl⟩
          rcases hold i r hr with rfl | hr
          · simp [eventFromInbox_inboxRow]
          · exact absurd he.symm (hfresh i r hr)
        · intro hlast
          have hx : x.event = e := by simpa [he] using hlast
          exact ⟨s.db.eventInbox.size, inboxRow x.event 0, by simp [Table.get?_insert], hx⟩
      · rw [find?_snoc_of_ne he, ← hs.stored e]
        constructor
        · rintro ⟨i, r, hr, rfl⟩
          rcases hold i r hr with rfl | hr
          · exact absurd rfl he
          · exact ⟨i, r, hr, rfl⟩
        · rintro ⟨i, r, hr, rfl⟩
          exact ⟨i, r, hkept i r hr, rfl⟩
    · intro rows hrows i row hmem
      obtain ⟨r, hr, hevent⟩ := hs.batched rows hrows i row hmem
      exact ⟨r, hkept i r hr, hevent⟩
    · intro id job hjob
      obtain ⟨i, r, p, hr, hp⟩ := hs.sound id job hjob
      exact ⟨i, r, p, hkept i r hr, hp⟩
    · intro i r hr hprocessed
      rcases hold i r hr with rfl | hr
      · cases hprocessed
      · exact hs.complete i r hr hprocessed

theorem stored_updateAll {inbox : Table EventInbox} {ids : List RowId} {i : RowId}
    {e : SourceEvent} :
    (∃ r, (inbox.updateAll ids fun r => { r with processed := true }).get? i = some r ∧
        eventFromInbox r = e) ↔
      ∃ r, inbox.get? i = some r ∧ eventFromInbox r = e := by
  rw [Table.get?_updateAll]
  constructor
  · rintro ⟨r', hr', rfl⟩
    obtain ⟨r, hr, rfl⟩ := Option.map_eq_some_iff.mp hr'
    refine ⟨r, hr, ?_⟩
    split <;> rfl
  · rintro ⟨r, hr, rfl⟩
    refine ⟨_, by rw [hr]; rfl, ?_⟩
    split <;> rfl

theorem Accounted.drain (hs : Accounted published events s) (hown : OwnRules published)
    {rows : List (RowId × EventInbox)} {batches : List (List (RowId × EventInbox))}
    (hrows : rows ∈ s.batches) (hbatches : batches ⊆ s.batches) {dead : List AccountId}
    {mapping : DictMappingView} {draw : EventInbox → Draw} {tenantId : TenantId}
    {projectId : ProjectId} {stamp : ℕ → Time} {expungeRaises : Bool} {db : Database}
    (hdrain : s.db.drainToJobs rows (publishedPlans published dead mapping draw) tenantId projectId
      stamp expungeRaises = some db) :
    Accounted published events ⟨db, batches⟩ := by
  obtain ⟨added, hadded, rfl⟩ := Database.drainToJobs_eq_some hdrain
  have hsound : ∀ id job, (s.db.deliveryJobs.append added).get? id = some job →
      ∃ i r, ∃ p : DeliveryPlan, s.db.eventInbox.get? i = some r ∧ p.PlainIds ∧
        p.cloneKey ∈ clonesOf published (eventFromInbox r) ∧ job.cloneKey = p.cloneKey ∧
        job.idempotencyKey = p.idempotencyKey := by
    intro id job hjob
    rcases Table.get?_append_cases hjob with hjob | ⟨_, hjob⟩
    · exact hs.sound id job hjob
    · have hnew := hadded.sublist.subset (List.mem_of_getElem? hjob)
      obtain ⟨⟨i, row⟩, hmem, p, hp, now, rfl⟩ := Database.mem_drainedJobs hnew
      obtain ⟨r, hr, hevent⟩ := hs.batched rows hrows i row hmem
      refine ⟨i, r, p, hr, hown.plainIds hp, ?_, rfl, rfl⟩
      rw [hevent, ← map_cloneKey_plan mapping (draw row) (eventFromInbox row) dead]
      exact List.mem_map_of_mem hp
  have hstored : ∀ i e, (∃ r, (s.db.eventInbox.updateAll (rows.map Prod.fst)
      fun r => { r with processed := true }).get? i = some r ∧ eventFromInbox r = e) ↔
      ∃ r, s.db.eventInbox.get? i = some r ∧ eventFromInbox r = e := fun i e => stored_updateAll
  refine ⟨?_, ?_, ?_, ?_⟩
  · intro e
    rw [← hs.stored e]
    exact exists_congr fun i => hstored i e
  · intro rows' hrows' i row hmem
    exact (hstored i _).mpr (hs.batched rows' (hbatches hrows') i row hmem)
  · intro id job hjob
    obtain ⟨i, r, p, hr, hplain, hkey, hjobKey⟩ := hsound id job hjob
    obtain ⟨r', hr', hevent⟩ := (hstored i _).mpr ⟨r, hr, rfl⟩
    exact ⟨i, r', p, hr', hplain, by rwa [hevent], hjobKey⟩
  · intro i r' hr' hprocessed key hkey
    simp only [Table.get?_updateAll] at hr'
    obtain ⟨r, hr, rfl⟩ := Option.map_eq_some_iff.mp hr'
    split at hprocessed
    · -- the row is in the batch, so every plan of it has been inserted or was there
      rename_i hmem
      rw [if_pos hmem] at hkey
      obtain ⟨⟨i, row⟩, hbatched, rfl⟩ := List.mem_map.mp hmem
      obtain ⟨r₀, hr₀, hevent⟩ := hs.batched rows hrows i row hbatched
      obtain rfl : r = r₀ := Option.some.inj (hr.symm.trans hr₀)
      have hplanned : key ∈ clonesOf published (eventFromInbox row) := by
        rw [← hevent]
        exact hkey
      rw [← map_cloneKey_plan mapping (draw row) (eventFromInbox row) dead] at hplanned
      obtain ⟨p, hp, rfl⟩ := List.mem_map.mp hplanned
      have hrow : p ∈ publishedPlans published dead mapping draw row := hp
      obtain ⟨now, hnew⟩ :=
        Database.jobFromPlan_mem_drainedJobs tenantId projectId stamp hbatched hrow
      obtain ⟨id, job, hjob, hid⟩ := hadded.complete _ hnew
      obtain ⟨_, _, q, _, hq, _, hjobKey, hjobId⟩ := hsound id job hjob
      refine ⟨id, job, hjob, ?_⟩
      rw [hjobKey]
      exact cloneKey_of_idempotencyKey hq (hown.plainIds hp) (hjobId.symm.trans hid)
    · rename_i hmem
      rw [if_neg hmem] at hkey
      obtain ⟨id, job, hjob, hjobKey⟩ := hs.complete i r hr hprocessed key hkey
      exact ⟨id, job, Table.get?_append_of_some hjob, hjobKey⟩

theorem Accounted.batches (hs : Accounted published events s)
    {batches : List (List (RowId × EventInbox))}
    (hbatches : ∀ rows ∈ batches, ∀ i row, (i, row) ∈ rows →
      ∃ r, s.db.eventInbox.get? i = some r ∧ eventFromInbox r = eventFromInbox row) :
    Accounted published events { s with batches } :=
  ⟨hs.stored, hbatches, hs.sound, hs.complete⟩

theorem accounted_step {a : IntakeAction} (h : s.step published a = some s')
    (hown : OwnRules published) (hs : Accounted published events s) :
    Accounted published (events ++ arrivals [a]) s' := by
  cases a with
  | ingest x =>
    obtain rfl := Option.some.inj h
    exact hs.ingest x
  | drainRead order limit =>
    simp only [Intake.step] at h
    split at h
    · rename_i horder
      obtain rfl := Option.some.inj h
      rw [arrivals, List.filterMap_cons_none rfl, List.filterMap_nil, List.append_nil]
      refine hs.batches ?_
      intro rows hrows i row hmem
      rcases List.mem_append.mp hrows with hrows | hrows
      · exact hs.batched rows hrows i row hmem
      · rw [List.mem_singleton] at hrows
        subst hrows
        exact ⟨row, (Table.mem_fetch.mp hmem).2, rfl⟩
    · cases h
  | drainCommit k dead mapping draw tenantId projectId stamp expungeRaises =>
    obtain ⟨rows, hrows, rfl⟩ := Option.map_eq_some_iff.mp h
    rw [arrivals, List.filterMap_cons_none rfl, List.filterMap_nil, List.append_nil]
    have hsubset : s.batches.eraseIdx k ⊆ s.batches := (List.eraseIdx_sublist ..).subset
    cases hdrain : s.db.drainToJobs rows (publishedPlans published dead mapping draw) tenantId
        projectId stamp expungeRaises with
    | none => exact hs.batches fun rows hrows => hs.batched rows (hsubset hrows)
    | some db => exact hs.drain hown (List.mem_of_getElem? hrows) hsubset hdrain

theorem accounted_run (hown : OwnRules published) : ∀ {as : List IntakeAction}
    {events : List SourceEvent} {s t : Intake}, Machine.run (Intake.step published) s as = some t →
      Accounted published events s → Accounted published (events ++ arrivals as) t := by
  intro as
  induction as with
  | nil =>
    intro events s t h hs
    obtain rfl : s = t := by simpa using h
    simpa [arrivals] using hs
  | cons a as ih =>
    intro events s t h hs
    obtain ⟨s', ha, h⟩ := Machine.run_cons_eq_some.mp h
    have hrest := ih h (accounted_step ha hown hs)
    have hcons : arrivals (a :: as) = arrivals [a] ++ arrivals as := by
      rw [arrivals, arrivals, arrivals, ← List.filterMap_append, List.singleton_append]
    rw [hcons, ← List.append_assoc]
    exact hrest

/-- Once all rows are drained, the rules of an account have cloned exactly the events whose first
arrival was at the account. -/
theorem mem_cloned (hs : Accounted published events s) (hown : OwnRules published)
    (hdrained : s.Drained) {a : AccountId} {key : CloneKey} : key ∈ s.cloned published a ↔
      ∃ e, e.accountId = a ∧ events.find? (fun x => x.dedup = e.dedup) = some e ∧
        key ∈ clonesOf published e := by
  constructor
  · rintro ⟨⟨row, hrow, hrule⟩, id, job, hjob, rfl⟩
    obtain ⟨i, r, p, hr, _, hkey, hjobKey, _⟩ := hs.sound id job hjob
    rw [← hjobKey] at hkey
    obtain ⟨_, _, _, row', hrow', hrule'⟩ := clonesOf_spec hkey
    have howner := hown.owner _ _ row' row hrow' hrow (hrule'.trans hrule.symm)
    exact ⟨eventFromInbox r, howner, (hs.stored _).mp ⟨i, r, hr, rfl⟩, hkey⟩
  · rintro ⟨e, rfl, hfirst, hkey⟩
    obtain ⟨i, r, hr, rfl⟩ := (hs.stored e).mpr hfirst
    obtain ⟨id, job, hjob, hjobKey⟩ := hs.complete i r hr (hdrained i r hr) key hkey
    obtain ⟨_, _, _, row, hrow, hrule⟩ := clonesOf_spec hkey
    exact ⟨⟨row, hrow, hrule⟩, id, job, hjob, hjobKey⟩

end Run

/-- The first event with a property is also the first one of any part of the list that has it. -/
theorem find?_filter_of_find? {events : List SourceEvent} {p q : SourceEvent → Bool}
    {e : SourceEvent} (h : events.find? p = some e) (hq : q e = true) :
    (events.filter q).find? p = some e := by
  obtain ⟨hp, before, after, rfl, hbefore⟩ := List.find?_eq_some_iff_append.mp h
  rw [List.find?_eq_some_iff_append]
  refine ⟨hp, before.filter q, after.filter q, by simp [hq], ?_⟩
  intro x hx
  exact hbefore x (List.mem_of_mem_filter hx)

/-- The rules of an account clone what they would clone with the account as the only listener,
exactly if none of the arrivals they clone is shadowed by an earlier one elsewhere. -/
theorem listeners_independent_iff (published : AccountId → List PublishedRule)
    (hown : OwnRules published) (a : AccountId) (as bs : List IntakeAction) (s t : Intake)
    (hs : Intake.run published as = some s) (ht : Intake.run published bs = some t)
    (hsdrained : s.Drained) (htdrained : t.Drained)
    (halone : arrivals bs = (arrivals as).filter fun e => e.accountId = a) :
    s.cloned published a = t.cloned published a ↔ Unshadowed published a (arrivals as) := by
  have hall : Accounted published (arrivals as) s := by
    simpa using accounted_run hown hs accounted_start
  have hown' : Accounted published (arrivals bs) t := by
    simpa using accounted_run hown ht accounted_start
  rw [halone] at hown'
  constructor
  · intro hsame e first hown_first hfirst hclones
    obtain ⟨key, hkey⟩ := List.exists_mem_of_ne_nil _ hclones
    have haccount : e.accountId = a := by
      simpa using List.of_mem_filter (List.mem_of_find?_eq_some hown_first)
    have hmem : key ∈ s.cloned published a := by
      rw [hsame]
      exact (mem_cloned hown' hown htdrained).mpr ⟨e, haccount, hown_first, hkey⟩
    obtain ⟨e', haccount', hfirst', hkey'⟩ := (mem_cloned hall hown hsdrained).mp hmem
    rw [dedup_of_clonesOf hkey' hkey, hfirst] at hfirst'
    obtain rfl := Option.some.inj hfirst'
    exact haccount'
  · intro hunshadowed
    ext key
    rw [mem_cloned hall hown hsdrained, mem_cloned hown' hown htdrained]
    constructor
    · rintro ⟨e, haccount, hfirst, hkey⟩
      exact ⟨e, haccount, find?_filter_of_find? hfirst (by simpa using haccount), hkey⟩
    · rintro ⟨e, haccount, hown_first, hkey⟩
      have hexists : ((arrivals as).find? fun x => x.dedup = e.dedup).isSome := by
        rw [List.find?_isSome]
        exact ⟨e, List.mem_of_mem_filter (List.mem_of_find?_eq_some hown_first), by simp⟩
      obtain ⟨first, hfirst⟩ := Option.isSome_iff_exists.mp hexists
      have howns := hunshadowed e first hown_first hfirst (List.ne_nil_of_mem hkey)
      -- both lists begin with the same arrival of the event
      have hsame := find?_filter_of_find? (q := fun x => x.accountId = a) hfirst
        (by simpa using howns)
      rw [hown_first] at hsame
      obtain rfl := Option.some.inj hsame
      exact ⟨e, haccount, hfirst, hkey⟩

/-- Accounts `A` and `B` clone channel 5, each with a rule of its own. -/
def twoListeners (a : AccountId) : List PublishedRule :=
  if a = "A" then [cloneRule]
  else if a = "B" then
    [{ cloneRule with
        ruleId := "q", targets := [{ routeId := "m", targetChatId := 8, sourceChatId := 5 }] }]
  else []

theorem ownRules_twoListeners : OwnRules twoListeners := by
  constructor
  · intro a b row row' hrow hrow' hid
    simp only [twoListeners] at hrow hrow'
    split_ifs at hrow hrow' <;> simp_all [cloneRule]
  · intro a row hrow
    simp only [twoListeners] at hrow
    split_ifs at hrow <;> simp_all [cloneRule]
  · intro a row t hrow ht
    simp only [twoListeners] at hrow
    split_ifs at hrow <;> simp_all [cloneRule]

def groupView (a : AccountId) : SourceEvent :=
  normalize { channelUpdate .create with chatClass := .smallGroup } a 0

def reported (a : AccountId) (chatClass : ChatClass) : IntakeAction :=
  .ingest ⟨"t", "p", normalize { channelUpdate .create with chatClass } a 0⟩

def drainedIntake (order : List RowId) : List IntakeAction :=
  [.drainRead order 10, .drainCommit 0 [] [] (fun _ _ _ => 0) "" "" (fun _ => 5) false]

def Intake.summary (s : Intake) : Bool × List CloneKey :=
  (s.db.eventInbox.rows.all EventInbox.processed, s.db.deliveryJobs.rows.map DeliveryJob.cloneKey)

theorem Intake.drained_of_summary {s : Intake} {keys : List CloneKey}
    (h : s.summary = (true, keys)) : s.Drained := by
  intro i r hr
  have hall : s.db.eventInbox.rows.all EventInbox.processed = true := (Prod.mk.inj h).1
  exact List.all_eq_true.mp hall r (List.mem_of_getElem? hr)

theorem Intake.mem_cloned_of_summary {published : AccountId → List PublishedRule} {s : Intake}
    {keys : List CloneKey} {key : CloneKey} {a : AccountId} (h : s.summary = (true, keys)) :
    key ∈ s.cloned published a ↔ (∃ row ∈ published a, row.ruleId = key.ruleId) ∧ key ∈ keys := by
  have hkeys : s.db.deliveryJobs.rows.map DeliveryJob.cloneKey = keys := (Prod.mk.inj h).2
  constructor
  · rintro ⟨hrule, id, job, hjob, rfl⟩
    refine ⟨hrule, ?_⟩
    rw [← hkeys]
    exact List.mem_map_of_mem (List.mem_of_getElem? hjob)
  · rintro ⟨hrule, hmem⟩
    rw [← hkeys] at hmem
    obtain ⟨job, hjob, rfl⟩ := List.mem_map.mp hmem
    obtain ⟨i, hi⟩ := List.getElem?_of_mem hjob
    exact ⟨hrule, i, job, hi, rfl⟩

/-- The clone of the message by the rule of account `B`. -/
def clonedByB (scope : String) : CloneKey := ⟨"q", "m", ⟨scope, 5, 3⟩, 1, "send"⟩

/-- In a small group each account has its own view of the message, and neither is shadowed. -/
theorem listeners_independent_in_group : ∃ s t,
    Intake.run twoListeners
        (reported "A" .smallGroup :: reported "B" .smallGroup :: drainedIntake [0, 1]) = some s ∧
      Intake.run twoListeners (reported "B" .smallGroup :: drainedIntake [0]) = some t ∧
      s.cloned twoListeners "B" = t.cloned twoListeners "B" ∧
      clonedByB "peer:5:acct:B" ∈ t.cloned twoListeners "B" := by
  have hs : (Intake.run twoListeners (reported "A" .smallGroup :: reported "B" .smallGroup ::
      drainedIntake [0, 1])).map Intake.summary = some (true,
        [⟨"r", "n", ⟨"peer:5:acct:A", 5, 3⟩, 1, "send"⟩, clonedByB "peer:5:acct:B"]) := by
    decide +kernel
  have ht : (Intake.run twoListeners (reported "B" .smallGroup :: drainedIntake [0])).map
      Intake.summary = some (true, [clonedByB "peer:5:acct:B"]) := by
    decide +kernel
  obtain ⟨s, hruns, hs⟩ := Option.map_eq_some_iff.mp hs
  obtain ⟨t, hrunt, ht⟩ := Option.map_eq_some_iff.mp ht
  refine ⟨s, t, hruns, hrunt, ?_, ?_⟩
  · refine (listeners_independent_iff twoListeners ownRules_twoListeners "B" _ _ s t hruns hrunt
      (Intake.drained_of_summary hs) (Intake.drained_of_summary ht) (by decide)).mpr ?_
    intro e first hown hfirst _
    have hmem := List.mem_of_find?_eq_some hown
    have hviews : (arrivals (reported "A" .smallGroup :: reported "B" .smallGroup ::
        drainedIntake [0, 1])).filter (fun x => x.accountId = "B") = [groupView "B"] := by
      decide +kernel
    rw [hviews, List.mem_singleton] at hmem
    subst hmem
    have hfound : (arrivals (reported "A" .smallGroup :: reported "B" .smallGroup ::
        drainedIntake [0, 1])).find? (fun x => x.dedup = (groupView "B").dedup) =
          some (groupView "B") := by
      decide +kernel
    rw [hfound] at hfirst
    obtain rfl := Option.some.inj hfirst
    rfl
  · exact (Intake.mem_cloned_of_summary ht).mpr ⟨by decide +kernel, by simp⟩

/-- In a channel the event that arrives at `A` first shadows its arrival at `B`. -/
theorem second_listener_is_shadowed :
    ¬ ∀ published, OwnRules published → ∀ a as bs s t, Intake.run published as = some s →
      Intake.run published bs = some t → s.Drained → t.Drained →
      arrivals bs = (arrivals as).filter (fun e => e.accountId = a) →
      s.cloned published a = t.cloned published a := by
  intro h
  have hs : (Intake.run twoListeners (reported "A" .broadcast :: reported "B" .broadcast ::
      drainedIntake [0])).map Intake.summary =
        some (true, [⟨"r", "n", ⟨"peer:5", 5, 3⟩, 1, "send"⟩]) := by
    decide +kernel
  have ht : (Intake.run twoListeners (reported "B" .broadcast :: drainedIntake [0])).map
      Intake.summary = some (true, [clonedByB "peer:5"]) := by
    decide +kernel
  obtain ⟨s, hruns, hs⟩ := Option.map_eq_some_iff.mp hs
  obtain ⟨t, hrunt, ht⟩ := Option.map_eq_some_iff.mp ht
  have hsame := h twoListeners ownRules_twoListeners "B" _ _ s t hruns hrunt
    (Intake.drained_of_summary hs) (Intake.drained_of_summary ht) (by decide)
  have hmem : clonedByB "peer:5" ∈ t.cloned twoListeners "B" :=
    (Intake.mem_cloned_of_summary ht).mpr ⟨by decide +kernel, by simp⟩
  rw [← hsame, Intake.mem_cloned_of_summary hs] at hmem
  exact absurd hmem.2 (by decide)

end TgPlatform
