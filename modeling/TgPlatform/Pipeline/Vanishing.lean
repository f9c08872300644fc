import TgPlatform.Pipeline.AtMostOnce
import TgPlatform.Pipeline.Leases
import TgPlatform.Pipeline.Orphans

/-! # Workers that vanish while they send

Only the call that holds a job takes it from `sending` to `uncertain`. Where that
call ends and records nothing, no later step does it in its place, so the job
stays in `sending` until a claim requeues it.
-/

namespace TgPlatform

namespace System

variable {s s' : System} {a : Action} {id : JobId} {job job' : DeliveryJob} {p q : Slot}

def Sending (s : System) (id : JobId) : Prop :=
  ∃ job, s.db.deliveryJobs.get? id = some job ∧ job.status = .sending

/-- The job is in `sending`, and no call holds it. -/
def Abandoned (s : System) (id : JobId) : Prop := s.Sending id ∧ ¬ s.Held id

/-- Some steps keep the job in `sending`, and the next one makes it `uncertain`. -/
def TurnsUncertain (s : System) (id : JobId) : Prop :=
  ∃ as s₁ a s₂ job, run s as = some s₁ ∧ Machine.Always step (fun _ _ s' => s'.Sending id) s as ∧
    s₁.step a = some s₂ ∧ s₂.db.deliveryJobs.get? id = some job ∧ job.status = .uncertain

/-- A job whose worker has vanished while it was in `sending` comes to `uncertain`. -/
def VanishedUncertain (s : System) : Prop := ∀ id, s.Abandoned id → s.TurnsUncertain id

/-- With the step the call in the slot ends and records nothing: its process dies, or the
transaction that records its result is rolled back. -/
inductive Vanishes (s : System) (id : JobId) : Action → Slot → Prop
  | crash (p : Slot) : Vanishes s id (.crash p.1) p
  | unrecorded (p : Slot) (r : Runner) (h : Holding) (called : Option TransportRequest)
      (result : DeliveryResult) (now clock : Time) (draw : ℤ) :
      (s.workers p.1).runners p.2 = some r → r.pc = .recording h called result → h.id = id →
      s.db.recordResult id h.job h.attemptNo
        (resultFields (s.workers p.1).deps.retryPolicy h.attemptNo clock draw result) now true =
          .raised →
      Vanishes s id (.runner p.1 p.2 (.record now clock draw true)) p

/-- No call vanishes with the step while the job it holds is in `sending`. -/
def KeepsSenders (s : System) (a : Action) : Prop :=
  ∀ id p, s.Sending id → ((s.view id).holder p).isSome = true → ¬ s.Vanishes id a p

/-! ## A vanished worker's job -/

theorem held_of_uncertain (h : s.step a = some s') (hsending : s.Sending id)
    (hjob' : s'.db.deliveryJobs.get? id = some job') (huncertain : job'.status = .uncertain) :
    s.Held id := by
  obtain ⟨job, hjob, hstatus⟩ := hsending
  obtain ⟨l, -, hl⟩ := view_step h id
  rcases JobView.row_cases hl hjob hjob' with rfl | hchange
  · rw [hstatus] at huncertain
    cases huncertain
  · cases hchange with
    | claimed p attemptCount now hready =>
      rw [hstatus] at hready
      cases hready
    | settled p held decision fields now hp hleased =>
      rw [hstatus] at hleased
      cases hleased
    | recorded p held call result policy now clock draw hp _ => exact held_of_holder hp
    | requeued acc now hstale => cases huncertain
    | cancelled now hsrc => cases huncertain
    | operated call => cases call <;> cases huncertain

theorem held_before (h : s.step a = some s') (hsending : s.Sending id) (hheld : s'.Held id) :
    s.Held id := by
  obtain ⟨job, hjob, hstatus⟩ := hsending
  obtain ⟨p, hp⟩ := hheld
  obtain ⟨stage, hstage⟩ := Option.isSome_iff_exists.mp hp
  obtain ⟨l, -, hl⟩ := view_step h id
  rcases JobView.holder_cases hl hstage with hbefore | hchange
  · exact held_of_holder hbefore
  · rcases hchange.of_claim_or_holder with ⟨attemptCount, now, rfl⟩ | hsome
    · obtain ⟨job₀, hjob₀, hl⟩ := Option.bind_eq_some_iff.mp hl
      split at hl
      · rename_i hready
        obtain rfl : job = job₀ := Option.some.inj (hjob.symm.trans hjob₀)
        rw [hstatus] at hready
        cases hready.1
      · cases hl
    · exact ⟨p, hsome⟩

/-- A job that a vanished worker has left in `sending` never turns `uncertain`. -/
theorem not_turnsUncertain (hs : s.Abandoned id) : ¬ s.TurnsUncertain id := by
  rintro ⟨as, s₁, a, s₂, job, hrun, hstays, hstep, hjob, huncertain⟩
  have habandoned : s₁.Abandoned id := by
    refine hstays.invariant (I := fun s : System => s.Abandoned id) ?_ hrun hs
    intro s a s' h hsending hs
    exact ⟨hsending, fun hheld => hs.2 (held_before h hs.1 hheld)⟩
  exact habandoned.2 (held_of_uncertain hstep habandoned.1 hjob huncertain)

theorem vanishedUncertain_iff : s.VanishedUncertain ↔ ∀ id, s.Sending id → s.Held id := by
  constructor
  · intro h id hsending
    by_contra hheld
    exact not_turnsUncertain ⟨hsending, hheld⟩ (h id ⟨hsending, hheld⟩)
  · intro h id habandoned
    exact absurd (h id habandoned.1) habandoned.2

end System

/-! ## Jobs in the hands of their workers -/

/-- Whoever waits at the gate with a job finds it leased, or cancelled since its claim. -/
def JobView.WaitsLeased (v : JobView) : Prop :=
  ∀ p stage job, v.holder p = some stage → stage.waits = true → v.row = some job →
    job.status = .leased ∨ job.status = .cancelled

section Life

variable {id : JobId} {v v' : JobView} {l : JobAction} {p : Slot} {job job' : DeliveryJob}

theorem leased_or_cancelled_step (hchange : v.RowChange job l job') (hrow : v.row = some job)
    (hrespects : l.Respects v) (hstatus : job.status = .leased ∨ job.status = .cancelled)
    (hsettle : ∀ p fields now, l ≠ .settle p fields now) :
    job'.status = .leased ∨ job'.status = .cancelled := by
  cases hchange with
  | claimed q attemptCount now _ => exact .inl rfl
  | settled q held decision fields now _ _ => exact absurd rfl (hsettle q fields now)
  | recorded q held call result policy now clock draw _ hsending =>
    rw [hsending] at hstatus
    rcases hstatus with hleased | hcancelled <;> contradiction
  | requeued acc now hstale =>
    rw [(hrespects job hrow).1 acc now rfl] at hstale
    cases hstale
  | cancelled now _ => exact .inr rfl
  | operated call =>
    have hadmits := (hrespects job hrow).2 call rfl
    rcases hstatus with hleased | hcancelled
    · rw [hleased] at hadmits
      cases call <;> cases hadmits
    · rw [hcancelled] at hadmits
      cases call <;> cases hadmits

theorem waitsLeased_step (hl : v.step l = some v') (hs : SendOnce id v) (hrespects : l.Respects v)
    (hwaits : v.WaitsLeased) : v'.WaitsLeased := by
  intro p stage job' hp hstage hjob'
  rcases JobView.holder_cases hl hp with hbefore | hchange
  · cases hrow : v.row with
    | none =>
      rw [(hs.fresh hrow).1 p] at hbefore
      cases hbefore
    | some job =>
      have hstatus := hwaits p stage job hbefore hstage hrow
      rcases JobView.row_cases hl hrow hjob' with rfl | hchange
      · exact hstatus
      · refine leased_or_cancelled_step hchange hrow hrespects hstatus ?_
        -- the settle is the waiting holder's own, after which it does not wait any more
        rintro q fields now rfl
        obtain ⟨stage', hq⟩ : ∃ stage', v.holder q = some stage' := by
          cases hchange
          exact ⟨_, ‹_›⟩
        obtain rfl : p = q := hs.unique p q (by simp [hbefore]) (by simp [hq])
        rw [JobView.waits_of_settle hl hp] at hstage
        cases hstage
  · cases hchange with
    | claimed _ job attemptCount now hjob hready =>
      obtain ⟨job₀, -, hl⟩ := Option.bind_eq_some_iff.mp hl
      split at hl <;> cases hl
      cases hjob'
      exact .inl rfl
    | gated _ held decision hclaimed hrow =>
      simp only [JobView.step] at hl
      split at hl <;> cases hl
      exact hwaits p .claimed job' hclaimed rfl hjob'
    | _ => cases hstage

theorem held_of_admitted {fields : StatusFields} {now : Time}
    (hl : v.step (.settle p fields now) = some v') (hwaits : v.WaitsLeased) (hjob' : v'.row = some job')
    (hsending : job'.status = .sending) : (v'.holder p).isSome = true := by
  simp only [JobView.step] at hl
  split at hl <;> cases hl
  rename_i h decision hp
  obtain ⟨job, hrow, hjob'⟩ := Option.map_eq_some_iff.mp hjob'
  have hallow : decision = .allow := by
    rcases hwaits p _ job hp rfl hrow with hleased | hcancelled
    · rw [if_pos hleased] at hjob'
      subst hjob'
      cases decision <;> first | rfl | cases hsending
    · rw [if_neg (by simp [hcancelled])] at hjob'
      rw [← hjob', hcancelled] at hsending
      cases hsending
  simp [hallow]

theorem not_sending_of_record {policy : RetryPolicy} {now clock : Time} {draw : ℤ}
    (hl : v.step (.record p policy now clock draw) = some v') (hjob' : v'.row = some job') :
    job'.status ≠ .sending := by
  simp only [JobView.step] at hl
  split at hl
  · rename_i h call result hp
    obtain ⟨job, -, hl⟩ := Option.bind_eq_some_iff.mp hl
    split at hl <;> cases hl
    cases hjob'
    intro hsending
    have hedge := resultFields_edge policy h.attemptNo clock draw result
    rw [show (resultFields policy h.attemptNo clock draw result).newStatus = .sending from
      hsending] at hedge
    cases hedge
  · cases hl

theorem sending_before (hl : v.step l = some v') (hjob' : v'.row = some job')
    (hsending : job'.status = .sending) (hsettle : ∀ p fields now, l ≠ .settle p fields now) :
    ∃ job, v.row = some job ∧ job.status = .sending := by
  cases hrow : v.row with
  | none =>
    cases JobView.row_created hl hrow hjob'
    simp only [JobView.step] at hl
    split at hl
    · rename_i hnew
      simp [hsending] at hnew
    · cases hl
  | some job =>
    rcases JobView.row_cases hl hrow hjob' with rfl | hchange
    · exact ⟨job', rfl, hsending⟩
    · cases hchange with
      | claimed q attemptCount now _ => cases hsending
      | settled q held decision fields now _ _ => exact absurd rfl (hsettle q fields now)
      | recorded q held call result policy now clock draw _ _ =>
        exact absurd hsending (not_sending_of_record hl hjob')
      | requeued acc now hstale => cases hsending
      | cancelled now _ => cases hsending
      | operated call => cases call <;> cases hsending

theorem inHand_sending_step (hl : v.step l = some v') (hwaits : v.WaitsLeased)
    (hheld : ∀ job, v.row = some job → job.status = .sending → ∃ p, (v.holder p).isSome = true)
    (hlose : ∀ gone, l = .lose gone → ∀ p, (v.holder p).isSome = true → gone p = false)
    (hjob' : v'.row = some job') (hsending : job'.status = .sending) :
    ∃ p, (v'.holder p).isSome = true := by
  by_cases hsettle : ∃ p fields now, l = .settle p fields now
  · obtain ⟨p, fields, now, rfl⟩ := hsettle
    exact ⟨p, held_of_admitted hl hwaits hjob' hsending⟩
  · push Not at hsettle
    obtain ⟨job, hjob, hstatus⟩ := sending_before hl hjob' hsending hsettle
    obtain ⟨p, hp⟩ := hheld job hjob hstatus
    refine System.held_kept hl ⟨p, hp⟩ (fun gone he => ⟨p, hlose gone he p hp, hp⟩) hsettle ?_
    rintro q policy now clock draw rfl
    exact not_sending_of_record hl hjob' hsending

end Life

namespace Database

variable {db : Database} {id : JobId} {job : DeliveryJob} {attemptNo : ℤ} {fields : ResultFields}
  {now : Time} {raises : Bool}

/-- A result is rolled back only where expunging a rejected mapping row raises. -/
theorem raises_of_raised (h : db.recordResult id job attemptNo fields now raises = .raised) :
    raises = true := by
  unfold recordResult at h
  dsimp only at h
  split at h
  · cases h
  · split at h
    · split at h
      · split at h
        · split at h
          · assumption
          · cases h
        · cases h
      · cases h
    · cases h

end Database

/-! ## Runs -/

namespace System

variable {s s' : System} {a : Action} {id : JobId} {p : Slot} {stage : Stage}

/-- Every job in `sending` is in the hands of one call. -/
structure Staffed (s : System) : Prop where
  hosting : AllHosting s
  once : AllSendOnce s
  waits : ∀ id, (s.view id).WaitsLeased
  held : ∀ id, s.Sending id → s.Held id

theorem staffed_start (config : WorkerId → WorkerConfig) : Staffed (.start config) where
  hosting := allHosting_start config
  once := allSendOnce_start config
  waits := by
    intro id p stage job hp
    cases hp
  held := by
    rintro id ⟨job, hjob, -⟩
    cases hjob

theorem vanishes_of_dropped (h : s.step a = some s') (hs : s.Staffed)
    (hp : (s.view id).holder p = some stage) (hdropped : Dropped s id p stage a)
    (hsending : s.Sending id) (hsending' : s'.Sending id) : s.Vanishes id a p := by
  obtain ⟨job, hjob, hstatus⟩ := hsending
  cases hdropped with
  | crash => exact .crash p
  | reassign _ x hassigning haccount =>
    obtain ⟨r, hr, -⟩ := Option.bind_eq_some_iff.mp hp
    have hrunners := (hs.hosting p.1).runners p.2
    rw [← haccount, (hs.hosting p.1).assigning x hassigning, haccount, hr] at hrunners
    cases hrunners
  | unplannable now _ _ _ =>
    have hwaits := hs.waits id p .claimed job hp rfl hjob
    rw [hstatus] at hwaits
    rcases hwaits with hleased | hcancelled <;> contradiction
  | unrecorded held call result now clock draw raises _ =>
    obtain ⟨r, hr, hstage⟩ := Option.bind_eq_some_iff.mp hp
    obtain ⟨called, hpc, hid, -⟩ := Runner.pc_of_recording hstage
    obtain ⟨r', e, hr', he, rfl⟩ := step_runner_eq_some h
    obtain rfl : r = r' := Option.some.inj (hr.symm.trans hr')
    simp only [Runner.step, hpc, Option.some.injEq] at he
    subst hid
    cases hrecord : s.db.recordResult held.id held.job held.attemptNo
        (resultFields (s.workers p.1).deps.retryPolicy held.attemptNo clock draw result) now raises with
    | recorded db' =>
      obtain ⟨job', hjob', hsending'⟩ := hsending'
      obtain ⟨j, close, maps, hj, -, -, rfl⟩ := Database.recordResult_eq_recorded hrecord
      rw [← he] at hjob'
      simp only [afterRunner, Runner.recordOutcome, hrecord, Table.get?_update_self, hj,
        Option.map_some, Option.some.injEq] at hjob'
      have hedge := resultFields_edge (s.workers p.1).deps.retryPolicy held.attemptNo clock draw result
      rw [← hjob'] at hsending'
      rw [show (resultFields (s.workers p.1).deps.retryPolicy held.attemptNo clock draw
        result).newStatus = .sending from hsending'] at hedge
      cases hedge
    | stale => exact absurd hrecord (Database.recordResult_ne_stale hjob hstatus)
    | raised =>
      obtain rfl := Database.raises_of_raised hrecord
      exact .unrecorded p r held called result now clock draw hr hpc rfl hrecord

/-- Where no stale send is requeued and no call vanishes from `sending`, every job in `sending`
stays in hand. -/
theorem staffed_step (h : s.step a = some s') (hguard : NoStaleSend s a s') (hs : s.Staffed)
    (hkeeps : s.KeepsSenders a) : s'.Staffed where
  hosting := allHosting_step s a s' h hs.hosting
  once := allSendOnce_step s a s' h hguard hs.once
  waits := by
    intro id
    obtain ⟨l, hfrom, hl⟩ := view_step h id
    exact waitsLeased_step hl (hs.once id) (respects_of_noStaleSend hguard hfrom) (hs.waits id)
  held := by
    rintro id ⟨job', hjob', hstatus⟩
    obtain ⟨l, hfrom, hl⟩ := view_step h id
    refine inHand_sending_step hl (hs.waits id) (fun job hjob hsending => hs.held id ⟨job, hjob, hsending⟩)
      ?_ hjob' hstatus
    rintro gone rfl p hp
    obtain ⟨stage, hstage⟩ := Option.isSome_iff_exists.mp hp
    obtain ⟨job, hjob, hsending⟩ := sending_before hl hjob' hstatus (by simp)
    by_contra hgone
    exact hkeeps id p ⟨job, hjob, hsending⟩ hp (vanishes_of_dropped h hs hstage
      (hfrom p stage hstage (by simpa using hgone)) ⟨job, hjob, hsending⟩ ⟨job', hjob', hstatus⟩)

theorem keepsSenders_of_held (h : s.step a = some s') (hs : s.Staffed)
    (hheld : ∀ id, s'.Sending id → s'.Held id) : s.KeepsSenders a := by
  intro id p hsending hp hvanishes
  have halone : ∀ ended : Slot → Prop, s'.Sending id → LetGo s s' id ended → ended p → False := by
    intro ended hsending' hletGo hended
    obtain ⟨q, hq⟩ := hheld id hsending'
    obtain ⟨hnot, hbefore⟩ := hletGo q hq
    obtain rfl : q = p := (hs.once id).unique q p (Option.isSome_iff_ne_none.mp hbefore)
      (Option.isSome_iff_ne_none.mp hp)
    exact hnot hended
  cases hvanishes with
  | crash =>
    obtain ⟨hdb, hletGo⟩ := letGo_crash p.1 h
    exact halone _ (by rwa [Sending, hdb]) (hletGo id) rfl
  | unrecorded _ r held called result now clock draw hr hpc hid hraised =>
    obtain ⟨r', e, hr', he, rfl⟩ := step_runner_eq_some h
    obtain rfl : r = r' := Option.some.inj (hr.symm.trans hr')
    subst hid
    simp only [Runner.step, hpc, Option.some.injEq, Runner.recordOutcome, hraised] at he
    subst he
    exact halone _ hsending (letGo_runner rfl) rfl

end System

/-- In a run without a requeued stale send, what vanished workers leave in `sending` comes to
`uncertain` if and only if they leave nothing there. -/
theorem vanishedUncertain_iff_keepsSenders {config : WorkerId → WorkerConfig} {as : List Action}
    (h : Machine.Always System.step NoStaleSend (.start config) as) :
    Machine.Always System.step (fun _ _ s' => s'.VanishedUncertain) (.start config) as ↔
      Machine.Always System.step (fun s a _ => s.KeepsSenders a) (.start config) as := by
  have hboth : Machine.Always System.step (fun s a s' => NoStaleSend s a s' ∧ s'.VanishedUncertain)
      (.start config) as ↔
        Machine.Always System.step (fun s a s' => NoStaleSend s a s' ∧ s.KeepsSenders a)
          (.start config) as := by
    apply Machine.always_iff_of_invariant (I := System.Staffed)
    · intro s a s' hstep hs ⟨hguard, huncertain⟩
      rw [System.vanishedUncertain_iff] at huncertain
      exact System.staffed_step hstep hguard hs (System.keepsSenders_of_held hstep hs huncertain)
    · intro s a s' hstep hs
      rw [System.vanishedUncertain_iff]
      constructor
      · rintro ⟨hguard, hheld⟩
        exact ⟨hguard, System.keepsSenders_of_held hstep hs hheld⟩
      · rintro ⟨hguard, hkeeps⟩
        exact ⟨hguard, (System.staffed_step hstep hguard hs hkeeps).held⟩
    · exact System.staffed_start config
  constructor
  · intro huncertain
    exact (hboth.mp (h.and huncertain)).mono fun _ _ _ _ hstep => hstep.2
  · intro hkeeps
    exact (hboth.mpr (h.and hkeeps)).mono fun _ _ _ _ hstep => hstep.2

/-- In every run without a requeued stale send, a send is started again only after every
earlier call of its job was recorded as a known failure, and a job in `sending` leaves it with
its own holder's result or to `uncertain`. What becomes of a vanished worker's job is `uncertain`
exactly if no worker vanishes while it holds a job in `sending`. -/
theorem send_at_most_once (config : WorkerId → WorkerConfig) (as : List Action)
    (h : Machine.Always System.step NoStaleSend (.start config) as) :
    (∀ s, System.run (.start config) as = some s → SentAtMostOnce s.history) ∧
      Machine.Always System.step LeavesSending (.start config) as ∧
      (Machine.Always System.step (fun _ _ s' => s'.VanishedUncertain) (.start config) as ↔
        Machine.Always System.step (fun s a _ => s.KeepsSenders a) (.start config) as) := by
  refine ⟨?_, h.mono leavesSending_of_noStaleSend, vanishedUncertain_iff_keepsSenders h⟩
  intro s hrun
  exact sentAtMostOnce_of_allSendOnce (h.invariant allSendOnce_step hrun (allSendOnce_start config))

def Action.mayVanish : Action → Bool
  | .crash _ => true
  | .runner _ _ (.record _ _ _ raises) => raises
  | _ => false

theorem keepsSenders_of_mayVanish {a : Action} (ha : a.mayVanish = false) (s : System) :
    s.KeepsSenders a := by
  intro id p _ _ hvanishes
  cases hvanishes <;> cases ha

def retriedReply : List Action :=
  failedReply ++ [.operatorWrite 0] ++ claimSteps "w1" "A" [0] 4 ++ callSteps "w1" "A" 5

theorem send_at_most_once_retried :
    (System.run (.start fun _ => {}) retriedReply).map (fun s =>
        s.history.filterMap fun | .started call => some call | _ => none) =
      some [replyCall "w1" 1 1, replyCall "w1" 1 2] ∧
    (∀ s, System.run (.start fun _ => {}) retriedReply = some s → SentAtMostOnce s.history) ∧
    Machine.Always System.step LeavesSending (.start fun _ => {}) retriedReply ∧
    Machine.Always System.step (fun _ _ s' => s'.VanishedUncertain) (.start fun _ => {})
      retriedReply := by
  obtain ⟨hsent, hleaves, huncertain⟩ := send_at_most_once (fun _ => {}) retriedReply
    (Machine.always_of_checkRun noStaleSend_spec (by decide +kernel))
  have hkeeps : ∀ a ∈ retriedReply, a.mayVanish = false := by decide
  refine ⟨by decide +kernel, hsent, hleaves, huncertain.mpr (Machine.always_of_mem ?_)⟩
  exact fun a ha s _ => keepsSenders_of_mayVanish (hkeeps a ha) s

def strandedReply : List Action :=
  queuedReply ++ claimSteps "w1" "A" [0] 1 ++ callSteps "w1" "A" 2 ++ [.crash "w1"]

/-- 400 seconds later the next claim requeues the job, and the send is started a second time. -/
def resentReply : List Action :=
  strandedReply ++ assignSteps "w2" { accountId := "A", tenantId := "t", projectId := "p" } 400000000 ++
    claimSteps "w2" "A" [0] 400000001 ++ callSteps "w2" "A" 400000002

/-- A worker that stops after it has started a call leaves its job in `sending`, where it never
turns `uncertain`, also before any claim finds it. -/
theorem crash_strands_send : Machine.Always System.step NoStaleSend (.start fun _ => {}) strandedReply ∧
    ¬ Machine.Always System.step (fun _ _ s' => s'.VanishedUncertain) (.start fun _ => {})
      strandedReply := by
  have hfresh : Machine.Always System.step NoStaleSend (.start fun _ => {}) strandedReply :=
    Machine.always_of_checkRun noStaleSend_spec (by decide +kernel)
  refine ⟨hfresh, ?_⟩
  rw [vanishedUncertain_iff_keepsSenders hfresh]
  have hobserved : ((System.run (.start fun _ => {})
      (queuedReply ++ claimSteps "w1" "A" [0] 1 ++ callSteps "w1" "A" 2)).bind fun s =>
        (s.step (.crash "w1")).map fun _ => ((s.db.deliveryJobs.get? 0).map DeliveryJob.status,
          ((s.view 0).holder ("w1", "A")).isSome)) = some (some .sending, true) := by
    decide +kernel
  obtain ⟨s, s', hrun, hstep, hs⟩ := Machine.exists_of_observed (f := fun (s _ : System) => _) hobserved
  obtain ⟨hstatus, hheld⟩ := Prod.mk.inj hs
  obtain ⟨job, hjob, hsending⟩ := Option.map_eq_some_iff.mp hstatus
  apply Machine.not_always_of_step hrun hstep
  exact fun hkeeps => hkeeps 0 ("w1", "A") ⟨job, hjob, hsending⟩ hheld (.crash ("w1", "A"))

theorem stale_send_is_resent :
    ¬ ∀ config as, (∀ s, System.run (.start config) as = some s → SentAtMostOnce s.history) ∧
      Machine.Always System.step LeavesSending (.start config) as ∧
      Machine.Always System.step (fun _ _ s' => s'.VanishedUncertain) (.start config) as := by
  intro h
  have hobserved : (System.run (.start fun _ => {}) resentReply).map System.history =
      some ([.lease "A" (.acquired "w1" (some 1)), .started (replyCall "w1" 1 1),
        .lease "A" (.acquired "w2" (some 2)), .started (replyCall "w2" 2 2)]) := by
    decide +kernel
  obtain ⟨s, hrun, hhistory⟩ := Option.map_eq_some_iff.mp hobserved
  have hsent := (h (fun _ => {}) resentReply).1 s hrun
  have hsettled := hsent [.lease "A" (.acquired "w1" (some 1)), .started (replyCall "w1" 1 1),
    .lease "A" (.acquired "w2" (some 2))] (replyCall "w2" 2 2) [] hhistory rfl
  obtain ⟨result, fields, hreturned, _⟩ :=
    hsettled [.lease "A" (.acquired "w1" (some 1))] (replyCall "w1" 1 1) _ rfl rfl
  simp at hreturned

end TgPlatform
