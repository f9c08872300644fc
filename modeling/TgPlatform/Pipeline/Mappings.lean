import TgPlatform.Pipeline.CausalOrder

/-! # Jobs and the mapping rows they leave

The columns a job is created with never change, every copy of a job agrees with
its row on them, and a mapping row is written once, from the copy of the job
whose result is recorded.
-/

namespace TgPlatform

/-- A reply of the platform, or a drained job with the runners' empty scope. -/
def DeliveryJob.ReplyOrUnscoped (job : DeliveryJob) : Prop :=
  job.kind = "send_message" ∨ (job.tenantId = "" ∧ job.projectId = "")

structure MappedBy (s : System) (a : Action) (s' : System) (h : Holding) (target : ℤ) : Prop where
  records : ∃ w acc now clock draw raises r called result,
    a = .runner w acc (.record now clock draw raises) ∧ (s.workers w).runners acc = some r ∧
      r.pc = .recording h called result
  sent : h.job.kind = "send"
  fresh : ∀ i m, s.db.messageMaps.get? i = some m →
    m.identity ≠ (Database.mapFromJob h.id h.job target).identity
  maps : s'.db.messageMaps = s.db.messageMaps.insert (Database.mapFromJob h.id h.job target)

section Record

variable {db db' : Database} {id : JobId} {job : DeliveryJob} {attemptNo : ℤ}
  {fields : ResultFields} {now : Time} {raises : Bool}

theorem recordResult_maps
    (h : db.recordResult id job attemptNo fields now raises = .recorded db') :
    db'.messageMaps = db.messageMaps ∨ ∃ target, fields.targetMessageId = some target ∧
      job.kind = "send" ∧
      (∀ i m, db.messageMaps.get? i = some m →
        m.identity ≠ (Database.mapFromJob id job target).identity) ∧
      db'.messageMaps = db.messageMaps.insert (Database.mapFromJob id job target) := by
  unfold Database.recordResult at h
  dsimp only at h
  split at h
  · cases h
  · split at h
    · rename_i target htarget
      split at h
      · rename_i hsent
        split at h
        · split at h <;> cases h
          exact Or.inl rfl
        · rename_i hfresh
          cases h
          simp only [Bool.not_eq_true, Table.any_eq_false, decide_eq_false_iff_not] at hfresh
          exact Or.inr ⟨target, htarget, hsent.2, hfresh, rfl⟩
      · cases h
        exact Or.inl rfl
    · cases h
      exact Or.inl rfl

/-- The row of a delivered message is written unless one with its identity is there. -/
theorem recordResult_mapped {target : ℤ}
    (h : db.recordResult id job attemptNo fields now raises = .recorded db')
    (htarget : fields.targetMessageId = some target) (hstatus : fields.newStatus = .succeeded)
    (hkind : job.kind = "send") (hfresh : ∀ i m, db.messageMaps.get? i = some m →
      m.identity ≠ (Database.mapFromJob id job target).identity) :
    db'.messageMaps = db.messageMaps.insert (Database.mapFromJob id job target) := by
  have hany : (db.messageMaps.any fun m =>
      m.identity = (Database.mapFromJob id job target).identity) = false := by
    simpa [Table.any_eq_false] using hfresh
  unfold Database.recordResult at h
  dsimp only at h
  split at h
  · cases h
  · simp only [htarget, hstatus, hkind, and_self, if_true] at h
    rw [hany] at h
    cases h
    rfl

theorem recordResult_of_fresh {j : DeliveryJob} {target : ℤ} (hjob : db.deliveryJobs.get? id = some j)
    (hsending : j.status = .sending) (htarget : fields.targetMessageId = some target)
    (hfresh : ∀ i m, db.messageMaps.get? i = some m →
      m.identity ≠ (Database.mapFromJob id job target).identity) :
    ∃ db', db.recordResult id job attemptNo fields now raises = .recorded db' := by
  have hany : (db.messageMaps.any fun m =>
      m.identity = (Database.mapFromJob id job target).identity) = false := by
    simpa [Table.any_eq_false] using hfresh
  have hstale : db.recordResult id job attemptNo fields now raises ≠ .stale :=
    Database.recordResult_ne_stale hjob hsending
  unfold Database.recordResult at hstale ⊢
  dsimp only at hstale ⊢
  split at hstale
  · exact absurd rfl hstale
  · simp only [htarget]
    rw [hany]
    split
    · exact ⟨_, rfl⟩
    · exact ⟨_, rfl⟩

end Record

section Runner

variable {d : RunnerDeps} {w : WorkerId} {acc : AccountId} {db : Database} {r : Runner}
  {x : RunnerAction} {e : RunnerEffect}

theorem runner_step_maps (he : r.step d w acc db x = some e) :
    e.db.messageMaps = db.messageMaps ∨ ∃ now clock draw raises h called result target,
      x = .record now clock draw raises ∧ r.pc = .recording h called result ∧
      h.job.kind = "send" ∧
      (∀ i m, db.messageMaps.get? i = some m →
        m.identity ≠ (Database.mapFromJob h.id h.job target).identity) ∧
      e.db.messageMaps = db.messageMaps.insert (Database.mapFromJob h.id h.job target) := by
  cases Runner.stepped_of_step he with
  | drained draw stamp raises rows mapping db' _ hdrain =>
    obtain ⟨_, _, rfl⟩ := Database.drainToJobs_eq_some hdrain
    exact Or.inl rfl
  | claimed now at_ id seen rest db' _ _ hclaim =>
    obtain ⟨_, _, _, _, rfl⟩ := Database.tryClaim_eq_claimed hclaim
    exact Or.inl rfl
  | settle now clock draw h decision _ =>
    obtain ⟨fields, _, hsettled⟩ := Runner.settleGate_eq d db r h decision now clock draw
    rw [hsettled]
    cases hdb : db.transition h.id .leased decision.target fields now with
    | none => exact Or.inl rfl
    | some db' =>
      obtain ⟨_, _, _, rfl⟩ := Database.transition_eq_some hdb
      exact Or.inl rfl
  | execute now h targetIds _ =>
    rcases Runner.startCall_cases d w acc db r h targetIds now with ⟨_, _, hcall⟩ | ⟨_, _, hcall⟩ <;>
      rw [hcall] <;> exact Or.inl rfl
  | record now clock draw raises h called result hpc =>
    obtain ⟨_, ⟨_, hrecord, hafter⟩ | ⟨_, hafter⟩⟩ := Runner.recordOutcome_cases d db r h result now
      clock draw raises <;> rw [hafter]
    · rcases recordResult_maps hrecord with hsame | ⟨target, _, hkind, hfresh, hmaps⟩
      · exact Or.inl hsame
      · exact Or.inr ⟨now, clock, draw, raises, h, called, result, target, rfl, hpc, hkind, hfresh,
          hmaps⟩
    · exact Or.inl rfl
  | _ => exact Or.inl rfl

end Runner

namespace System

variable {s s' : System} {a : Action}

theorem maps_step (h : s.step a = some s') :
    s'.db.messageMaps = s.db.messageMaps ∨ ∃ held target, MappedBy s a s' held target := by
  cases a with
  | runner w acc x =>
    obtain ⟨r, e, hr, he, rfl⟩ := step_runner_eq_some h
    rcases runner_step_maps he with hsame | ⟨now, clock, draw, raises, held, called, result, target,
      rfl, hpc, hsent, hfresh, hmaps⟩
    · exact Or.inl hsame
    · refine Or.inr ⟨held, target, ?_, hsent, hfresh, hmaps⟩
      exact ⟨w, acc, now, clock, draw, raises, r, called, result, rfl, hr, hpc⟩
  | host w x =>
    obtain ⟨e, he, rfl⟩ := step_host_eq_some h
    cases Worker.stepped_of_step he with
    | cancelJob id src now db' _ hdb =>
      obtain ⟨_, _, _, rfl⟩ := Database.transition_eq_some hdb
      exact Or.inl rfl
    | _ => exact Or.inl rfl
  | crash w =>
    obtain rfl := Option.some.inj h
    exact Or.inl rfl
  | ingestRead w acc raw pyHash =>
    obtain ⟨x, _, rfl⟩ := Option.map_eq_some_iff.mp h
    exact Or.inl rfl
  | ingestCommit k =>
    obtain ⟨c, _, rfl⟩ := Option.map_eq_some_iff.mp h
    rcases commitIngest_cases (s := { s with ingests := s.ingests.eraseIdx k }) c with
      hsame | ⟨db, hdb, hcommit⟩
    · exact Or.inl (by rw [hsame])
    · obtain ⟨_, _, rfl, _⟩ := Database.ingestCommit_eq_some hdb
      exact Or.inl (by rw [hcommit])
  | publish acc rows =>
    obtain rfl := Option.some.inj h
    exact Or.inl rfl
  | enqueue reply now =>
    simp only [step] at h
    split at h <;> cases h
    exact Or.inl rfl
  | operatorRead call i =>
    obtain ⟨job, _, h⟩ := Option.bind_eq_some_iff.mp h
    split at h <;> cases h
    exact Or.inl rfl
  | operatorWrite k =>
    obtain ⟨q, _, rfl⟩ := Option.map_eq_some_iff.mp h
    exact Or.inl rfl

theorem map_kept (h : s.step a = some s') {i : RowId} {m : MessageMap}
    (hm : s.db.messageMaps.get? i = some m) : s'.db.messageMaps.get? i = some m := by
  rcases maps_step h with hsame | ⟨held, target, hmapped⟩
  · rwa [hsame]
  · rw [hmapped.maps]
    exact Table.get?_append_of_some hm

theorem map_cases (h : s.step a = some s') {i : RowId} {m : MessageMap}
    (hm : s'.db.messageMaps.get? i = some m) : s.db.messageMaps.get? i = some m ∨
      ∃ held target, MappedBy s a s' held target ∧ m = Database.mapFromJob held.id held.job target := by
  rcases maps_step h with hsame | ⟨held, target, hmapped⟩
  · exact Or.inl (by rwa [hsame] at hm)
  · rw [hmapped.maps, Table.get?_insert] at hm
    split at hm
    · exact Or.inr ⟨held, target, hmapped, (Option.some.inj hm).symm⟩
    · exact Or.inl hm

theorem planned_kept (h : s.step a = some s') {id : JobId} {job : DeliveryJob}
    (hjob : s.db.deliveryJobs.get? id = some job) : ∃ job', s'.db.deliveryJobs.get? id = some job' ∧
      job'.asPlanned = job.asPlanned := by
  obtain ⟨l, _, hview⟩ := view_step h id
  exact JobView.asPlanned_step hview hjob

/-! ## Copies and mapping rows agree with the jobs -/

def CopiesAgree (s : System) : Prop :=
  ∀ id, (s.view id).Copies fun h job => h.id = id ∧ h.job.asPlanned = job.asPlanned ∧
    ∃ d acc, hold d acc id h.job = some h

theorem copiesAgree_start (config : WorkerId → WorkerConfig) : CopiesAgree (.start config) := by
  intro id p stage h hp
  cases hp

theorem copiesAgree_step (s : System) (a : Action) (s' : System) (h : s.step a = some s')
    (hs : CopiesAgree s) : CopiesAgree s' := by
  intro id
  obtain ⟨l, hfrom, hview⟩ := view_step h id
  refine JobView.copies_step ?_ hview ?_ (hs id)
  · rintro held job job' hplanned ⟨hid, hcopy, hhold⟩
    exact ⟨hid, hcopy.trans hplanned.symm, hhold⟩
  · rintro p held decision rfl
    obtain ⟨r, now, _, _, hhold, _⟩ := hfrom
    obtain ⟨hid, _⟩ := hold_eq_some hhold
    exact ⟨hid, rfl, _, _, hhold⟩

theorem copy_of_recording (hs : CopiesAgree s) {w : WorkerId} {acc : AccountId} {r : Runner}
    {h : Holding} {called : Option TransportRequest} {result : DeliveryResult}
    (hr : (s.workers w).runners acc = some r) (hpc : r.pc = .recording h called result) :
    ∃ job, s.db.deliveryJobs.get? h.id = some job ∧ h.job.asPlanned = job.asPlanned := by
  have hholder : (s.view h.id).holder (w, acc) =
      some (.recording h (called.map (h.call w acc r.generation)) result) := by
    rw [holder_of_runner hr]
    simp [Runner.stage, hpc]
  obtain ⟨job, hjob, _, hplanned, _⟩ := hs h.id _ _ h hholder rfl
  exact ⟨job, hjob, hplanned⟩

def MapsAgree (s : System) : Prop :=
  ∀ i m, s.db.messageMaps.get? i = some m → ∃ job copy target,
    s.db.deliveryJobs.get? m.deliveryJobId = some job ∧ copy.asPlanned = job.asPlanned ∧
      copy.kind = "send" ∧ m = Database.mapFromJob m.deliveryJobId copy target

theorem mapsAgree_start (config : WorkerId → WorkerConfig) : MapsAgree (.start config) := by
  intro i m hm
  cases hm

theorem mapsAgree_step (s : System) (a : Action) (s' : System) (h : s.step a = some s')
    (hs : MapsAgree s ∧ CopiesAgree s) : MapsAgree s' ∧ CopiesAgree s' := by
  refine ⟨?_, copiesAgree_step s a s' h hs.2⟩
  intro i m hm
  have hkeep : ∀ {id : JobId} {job copy : DeliveryJob}, s.db.deliveryJobs.get? id = some job →
      copy.asPlanned = job.asPlanned → ∃ job', s'.db.deliveryJobs.get? id = some job' ∧
        copy.asPlanned = job'.asPlanned := by
    intro id job copy hjob hcopy
    obtain ⟨job', hjob', hplanned⟩ := planned_kept h hjob
    exact ⟨job', hjob', hcopy.trans hplanned.symm⟩
  rcases map_cases h hm with hold | ⟨held, target, hmapped, rfl⟩
  · obtain ⟨job, copy, target, hjob, hcopy, hkind, heq⟩ := hs.1 i m hold
    obtain ⟨job', hjob', hcopy'⟩ := hkeep hjob hcopy
    exact ⟨job', copy, target, hjob', hcopy', hkind, heq⟩
  · obtain ⟨w, acc, now, clock, draw, raises, r, called, result, _, hr, hpc⟩ := hmapped.records
    obtain ⟨job, hjob, hcopy⟩ := copy_of_recording hs.2 hr hpc
    obtain ⟨job', hjob', hcopy'⟩ := hkeep hjob hcopy
    exact ⟨job', held.job, target, hjob', hcopy', hmapped.sent, rfl⟩

theorem map_job (hs : MapsAgree s) {i : RowId} {m : MessageMap}
    (hm : s.db.messageMaps.get? i = some m) : ∃ job, s.db.deliveryJobs.get? m.deliveryJobId = some job ∧
      job.kind = "send" ∧ (m.tenantId, m.projectId) = (job.tenantId, job.projectId) ∧
      m.routeId = job.routeId ∧ m.message = job.message ∧ m.senderAccountId = job.accountId ∧
      m.targetChatId = job.targetChatId ∧ m.outputPartIndex = 0 ∧ m.deletedAt = none := by
  obtain ⟨job, copy, target, hjob, hcopy, hkind, heq⟩ := hs i m hm
  have hk := congrArg DeliveryJob.kind hcopy
  have ht := congrArg DeliveryJob.tenantId hcopy
  have hp := congrArg DeliveryJob.projectId hcopy
  have hr := congrArg DeliveryJob.routeId hcopy
  have hmsg := congrArg DeliveryJob.message hcopy
  have ha := congrArg DeliveryJob.accountId hcopy
  have hc := congrArg DeliveryJob.targetChatId hcopy
  refine ⟨job, hjob, hk.symm.trans hkind, ?_⟩
  rw [heq]
  exact ⟨Prod.ext ht hp, hr, hmsg, ha, hc, rfl, rfl⟩

/-! ## The scope of drained work -/

def JobsUnscoped (s : System) : Prop :=
  ∀ id job, s.db.deliveryJobs.get? id = some job → job.ReplyOrUnscoped

theorem jobsUnscoped_start (config : WorkerId → WorkerConfig) : JobsUnscoped (.start config) := by
  intro id job hjob
  cases hjob

theorem jobsUnscoped_step (s : System) (a : Action) (s' : System) (h : s.step a = some s')
    (hs : JobsUnscoped s) : JobsUnscoped s' := by
  intro id job' hjob'
  cases hjob : s.db.deliveryJobs.get? id with
  | none =>
    rcases job_new h hjob hjob' with ⟨reply, now, _, rfl⟩ |
      ⟨_, _, _, _, _, _, _, _, _, _, plan, now, _, _, rfl, _⟩
    · exact Or.inl rfl
    · exact Or.inr ⟨rfl, rfl⟩
  | some job =>
    obtain ⟨job'', hjob'', hplanned⟩ := planned_kept h hjob
    obtain rfl := Option.some.inj (hjob'.symm.trans hjob'')
    have hk := congrArg DeliveryJob.kind hplanned
    have ht := congrArg DeliveryJob.tenantId hplanned
    have hp := congrArg DeliveryJob.projectId hplanned
    rcases hs id job hjob with hreply | ⟨htenant, hproject⟩
    · exact Or.inl (hk.trans hreply)
    · exact Or.inr ⟨ht.trans htenant, hp.trans hproject⟩

theorem map_unscoped (hs : MapsAgree s) (hjobs : JobsUnscoped s) {i : RowId} {m : MessageMap}
    (hm : s.db.messageMaps.get? i = some m) : m.tenantId = "" ∧ m.projectId = "" := by
  obtain ⟨job, hjob, hkind, hscope, _⟩ := map_job hs hm
  rcases hjobs _ job hjob with hreply | ⟨htenant, hproject⟩
  · rw [hkind] at hreply
    exact absurd hreply (by decide)
  · obtain ⟨ht, hp⟩ := Prod.ext_iff.mp hscope
    exact ⟨ht.trans htenant, hp.trans hproject⟩

def MapsUnique (s : System) : Prop :=
  ∀ i j m n, s.db.messageMaps.get? i = some m → s.db.messageMaps.get? j = some n →
    m.identity = n.identity → i = j

theorem mapsUnique_start (config : WorkerId → WorkerConfig) : MapsUnique (.start config) := by
  intro i j m n hm
  cases hm

theorem mapsUnique_step (s : System) (a : Action) (s' : System) (h : s.step a = some s')
    (hs : MapsUnique s) : MapsUnique s' := by
  intro i j m n hm hn hid
  rcases maps_step h with hsame | ⟨held, target, hmapped⟩
  · rw [hsame] at hm hn
    exact hs i j m n hm hn hid
  · rw [hmapped.maps, Table.get?_insert] at hm hn
    split at hm
    · obtain rfl := Option.some.inj hm
      split at hn
      · rename_i hi hj
        rw [hi, hj]
      · exact absurd hid.symm (hmapped.fresh j n hn)
    · split at hn
      · obtain rfl := Option.some.inj hn
        exact absurd hid (hmapped.fresh i m hm)
      · exact hs i j m n hm hn hid

structure MapsFaithful (s : System) : Prop where
  agree : MapsAgree s
  copies : CopiesAgree s
  unscoped : JobsUnscoped s
  unique : MapsUnique s

theorem mapsFaithful_start (config : WorkerId → WorkerConfig) : MapsFaithful (.start config) :=
  ⟨mapsAgree_start config, copiesAgree_start config, jobsUnscoped_start config,
    mapsUnique_start config⟩

theorem mapsFaithful_step (s : System) (a : Action) (s' : System) (h : s.step a = some s')
    (hs : MapsFaithful s) : MapsFaithful s' := by
  obtain ⟨hagree, hcopies⟩ := mapsAgree_step s a s' h ⟨hs.agree, hs.copies⟩
  exact ⟨hagree, hcopies, jobsUnscoped_step s a s' h hs.unscoped, mapsUnique_step s a s' h hs.unique⟩

theorem map_unique (hs : MapsFaithful s) {i j : RowId} {m n : MessageMap}
    (hm : s.db.messageMaps.get? i = some m) (hn : s.db.messageMaps.get? j = some n)
    (hroute : m.routeId = n.routeId) (hmessage : m.message = n.message) : i = j := by
  obtain ⟨htm, hpm⟩ := map_unscoped hs.agree hs.unscoped hm
  obtain ⟨htn, hpn⟩ := map_unscoped hs.agree hs.unscoped hn
  obtain ⟨_, _, _, _, _, _, _, _, hpartm, _⟩ := map_job hs.agree hm
  obtain ⟨_, _, _, _, _, _, _, _, hpartn, _⟩ := map_job hs.agree hn
  refine hs.unique i j m n hm hn ?_
  simp [MessageMap.identity, htm, hpm, htn, hpn, hroute, hmessage, hpartm, hpartn]

end System

end TgPlatform
