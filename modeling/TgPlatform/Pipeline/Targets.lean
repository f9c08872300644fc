import TgPlatform.Pipeline.Mappings

/-! # Edits and deletes address what was sent

The ids of an edit or delete are read from the mapping rows of its route and
message when it is executed; its account and its chat were fixed when its job
was planned. They fit together when the job was planned like the send it
changes.
-/

namespace TgPlatform

def TransportRequest.targets : TransportRequest → List ℤ
  | .send => []
  | .edit id => [id]
  | .delete ids => ids

/-- Each addressed id is recorded for the source message on the route. -/
def Call.Recorded (db : Database) (call : Call) : Prop :=
  ∀ target ∈ call.request.targets, ∃ i m, db.messageMaps.get? i = some m ∧
    m.routeId = call.plan.routeId ∧ m.message = call.plan.message ∧ m.targetMessageId = target

/-- Each addressed id is recorded for the source message on the route, as sent by the calling
account into the addressed chat. -/
def Call.HitsSent (db : Database) (call : Call) : Prop :=
  ∀ target ∈ call.request.targets, ∃ i m, db.messageMaps.get? i = some m ∧
    m.routeId = call.plan.routeId ∧ m.message = call.plan.message ∧ m.targetMessageId = target ∧
    m.senderAccountId = call.plan.accountId ∧ m.targetChatId = call.plan.targetChatId

/-- The job was planned for the account and the chat that the mapped send of its route and
message was planned for. -/
def PlannedLikeSend (db : Database) (id : JobId) : Prop :=
  ∀ job, db.deliveryJobs.get? id = some job → ∀ i m, db.messageMaps.get? i = some m →
    m.routeId = job.routeId → m.message = job.message →
    ∀ sent, db.deliveryJobs.get? m.deliveryJobId = some sent →
      job.accountId = sent.accountId ∧ job.targetChatId = sent.targetChatId

theorem dispatch_targets {kind : PlanKind} {decision : Decision} {targetIds : List ℤ}
    {request : TransportRequest} (h : dispatch kind decision targetIds = .call request)
    (hsend : request ≠ .send) :
    kind ≠ .send ∧ request.targets ≠ [] ∧ ∀ target ∈ request.targets, target ∈ targetIds := by
  unfold dispatch at h
  split at h
  · cases h
  · cases kind with
    | send =>
      cases h
      exact absurd rfl hsend
    | edit =>
      cases targetIds with
      | nil => cases h
      | cons id ids =>
        cases h
        simp [TransportRequest.targets]
    | delete | tombstone =>
      dsimp only at h
      split at h <;> cases h
      rename_i hne
      exact ⟨nofun, hne, fun _ ht => ht⟩

theorem planFromJob_targetChatId {job : DeliveryJob} {plan : DeliveryPlan}
    (h : planFromJob job = some plan) : plan.targetChatId = job.targetChatId := by
  simp only [planFromJob, Option.bind_eq_bind, Option.bind_eq_some_iff, Option.pure_def,
    Option.some.injEq] at h
  obtain ⟨kind, _, mode, _, rfl⟩ := h
  rfl

section Runner

variable {d : RunnerDeps} {w : WorkerId} {acc : AccountId} {db : Database} {r : Runner}
  {x : RunnerAction} {e : RunnerEffect} {h : Holding} {targetIds : List ℤ}

theorem runner_step_executing (he : r.step d w acc db x = some e)
    (hpc : e.runner.pc = .executing h targetIds) : e.db = db ∧ (targetIds = [] ∨ ∃ order,
      db.messageMaps.Answers (Database.targetPart h.job.routeId h.job.message)
        MessageMap.outputPartIndex order ∧ targetIds = db.targetMessageIds order) := by
  cases Runner.stepped_of_step he with
  | lookup order held ids hadmitted =>
    obtain ⟨rfl, rfl⟩ := RunnerPc.executing.inj hpc
    simp only [Runner.step, hadmitted] at he
    split at he
    · cases he
      exact ⟨rfl, Or.inl rfl⟩
    · split at he <;> cases he
      exact ⟨rfl, Or.inr ⟨order, ‹_›, rfl⟩⟩
  | settle now clock draw held decision _ =>
    obtain ⟨_, _, hsettled⟩ := Runner.settleGate_eq d db r held decision now clock draw
    rw [hsettled] at hpc
    by_cases hallow : decision = .allow <;> simp [hallow] at hpc
  | execute now held ids _ =>
    rcases Runner.startCall_cases d w acc db r held ids now with ⟨_, _, hcall⟩ | ⟨_, _, hcall⟩ <;>
      rw [hcall] at hpc <;> cases hpc
  | record now clock draw raises held called result _ =>
    obtain ⟨_, ⟨_, _, hafter⟩ | ⟨_, hafter⟩⟩ := Runner.recordOutcome_cases d db r held result now
      clock draw raises <;> rw [hafter] at hpc <;> cases hpc
  | _ => cases hpc

theorem mem_targetMessageIds {order : List RowId} {routeId : RouteId} {message : MessageKey}
    (horder : db.messageMaps.Answers (Database.targetPart routeId message)
      MessageMap.outputPartIndex order) {target : ℤ} (h : target ∈ db.targetMessageIds order) :
    ∃ i m, db.messageMaps.get? i = some m ∧ m.routeId = routeId ∧ m.message = message ∧
      m.targetMessageId = target := by
  obtain ⟨⟨i, m⟩, hm, rfl⟩ := List.mem_map.mp h
  obtain ⟨hi, hm⟩ := Table.mem_fetch.mp hm
  obtain ⟨m', hm', hpart⟩ := horder.mem_iff.mp hi
  obtain rfl := Option.some.inj (hm.symm.trans hm')
  simp only [Database.targetPart, Bool.and_eq_true, decide_eq_true_eq] at hpart
  exact ⟨i, m, hm, hpart.1.1, hpart.1.2, rfl⟩

end Runner

namespace System

variable {s s' : System} {a : Action}

def TargetsRecorded (s : System) : Prop :=
  ∀ w acc r h targetIds, (s.workers w).runners acc = some r → r.pc = .executing h targetIds →
    ∀ target ∈ targetIds, ∃ i m, s.db.messageMaps.get? i = some m ∧ m.routeId = h.job.routeId ∧
      m.message = h.job.message ∧ m.targetMessageId = target

theorem targetsRecorded_start (config : WorkerId → WorkerConfig) :
    TargetsRecorded (.start config) := by
  intro w acc r h targetIds hr
  cases hr

theorem targetsRecorded_step (s : System) (a : Action) (s' : System) (h : s.step a = some s')
    (hs : TargetsRecorded s) : TargetsRecorded s' := by
  intro w acc r' held targetIds hr' hpc target htarget
  rcases step_runner_cases h hr' with hr | ⟨x, r, e, rfl, hr, he, rfl, hdb⟩ | ⟨x, g, _, _, _, rfl⟩
  · obtain ⟨i, m, hm, hrest⟩ := hs w acc r' held targetIds hr hpc target htarget
    exact ⟨i, m, map_kept h hm, hrest⟩
  · obtain ⟨hsame, rfl | ⟨order, horder, rfl⟩⟩ := runner_step_executing he hpc
    · cases htarget
    · rw [hdb, hsame]
      exact mem_targetMessageIds horder htarget
  · cases hpc

theorem started_job (hs : CopiesAgree s) {call : Call} (hstarted : StartedBy s a call) :
    ∃ r h targetIds job, (s.workers call.workerId).runners call.accountId = some r ∧
      r.pc = .executing h targetIds ∧ s.db.deliveryJobs.get? call.jobId = some job ∧
      h.job.asPlanned = job.asPlanned ∧ call.plan.routeId = job.routeId ∧
      call.plan.message = job.message ∧ call.plan.accountId = job.accountId ∧
      call.plan.targetChatId = job.targetChatId ∧
      (call.request ≠ .send → jobKindAlias job.kind ≠ some .send ∧ call.request.targets ≠ [] ∧
        ∀ target ∈ call.request.targets, target ∈ targetIds) := by
  obtain ⟨now, r, h, targetIds, _, hr, hpc, hdispatch, hcall⟩ := hstarted.executes
  have hid : call.jobId = h.id := by rw [hcall]; rfl
  have hplan : call.plan = h.plan := by rw [hcall]; rfl
  have hholder : (s.view call.jobId).holder (call.workerId, call.accountId) =
      some (.admitted h) := by
    rw [hid]
    exact holder_of_executing hr hpc
  obtain ⟨job, hjob, _, hplanned, d, acc, hhold⟩ := hs call.jobId _ _ h hholder rfl
  obtain ⟨_, _, _, hheld⟩ := hold_eq_some hhold
  obtain ⟨plan₀, hplan₀, hhints⟩ := heldPlan_eq_some hheld
  obtain ⟨hkind, hmessage, haccount, hroute⟩ := planFromJob_eq_some hplan₀
  have hchat := planFromJob_targetChatId hplan₀
  have hkind' := congrArg DeliveryJob.kind hplanned
  have hroute' := congrArg DeliveryJob.routeId hplanned
  have hmessage' := congrArg DeliveryJob.message hplanned
  have haccount' := congrArg DeliveryJob.accountId hplanned
  have hchat' := congrArg DeliveryJob.targetChatId hplanned
  refine ⟨r, h, targetIds, job, hr, hpc, hjob, hplanned, ?_⟩
  rw [hplan, hhints]
  refine ⟨hroute.trans hroute', hmessage.trans hmessage', haccount.trans haccount',
    hchat.trans hchat', fun hsend => ?_⟩
  obtain ⟨hedits, htargets⟩ := dispatch_targets hdispatch hsend
  refine ⟨fun hsent => hedits ?_, htargets⟩
  rw [hhints]
  exact Option.some.inj (hkind.symm.trans ((congrArg jobKindAlias hkind').trans hsent))

theorem started_recorded (hs : CopiesAgree s) (ht : TargetsRecorded s) {call : Call}
    (hstarted : StartedBy s a call) : call.Recorded s.db := by
  intro target htarget
  obtain ⟨r, h, targetIds, job, hr, hpc, _, hplanned, hroute, hmessage, _, _, htargets⟩ :=
    started_job hs hstarted
  have hsend : call.request ≠ .send := by
    intro hsend
    rw [hsend] at htarget
    cases htarget
  obtain ⟨i, m, hm, hmroute, hmmessage, hid⟩ :=
    ht _ _ r h targetIds hr hpc target ((htargets hsend).2.2 target htarget)
  have hjroute := congrArg DeliveryJob.routeId hplanned
  have hjmessage := congrArg DeliveryJob.message hplanned
  exact ⟨i, m, hm, hmroute.trans (hjroute.trans hroute.symm),
    hmmessage.trans (hjmessage.trans hmessage.symm), hid⟩

theorem startedBy_of_history (h : s.step a = some s') {call : Call}
    (hhistory : s'.history = s.history ++ [.started call]) : StartedBy s a call := by
  rcases step_event h with hsame | ⟨ev, hsnoc, hstarted, _⟩
  · rw [hsame] at hhistory
    simp at hhistory
  · obtain rfl : ev = .started call := by
      have hlast := hsnoc.symm.trans hhistory
      simpa using hlast
    exact hstarted call rfl

/-- A started edit or delete hits what was sent exactly if its job was planned like the send. -/
theorem hits_sent_iff (hs : MapsFaithful s) (ht : TargetsRecorded s) {call : Call}
    (hstarted : StartedBy s a call) (hsend : call.request ≠ .send) :
    call.HitsSent s.db ↔ PlannedLikeSend s.db call.jobId := by
  obtain ⟨_, _, _, job, _, _, hjob, _, hroute, hmessage, haccount, hchat, htargets⟩ :=
    started_job hs.copies hstarted
  constructor
  · intro hhits job' hjob' i m hm hmroute hmmessage sent hsent
    obtain rfl := Option.some.inj (hjob.symm.trans hjob')
    obtain ⟨target, htarget⟩ := List.exists_mem_of_ne_nil _ (htargets hsend).2.1
    obtain ⟨j, n, hn, hnroute, hnmessage, _, hnsender, hnchat⟩ := hhits target htarget
    -- the route has one row for the message, so `m` is the row the call hits
    obtain rfl := map_unique hs hm hn (hmroute.trans (hroute.symm.trans hnroute.symm))
      (hmmessage.trans (hmessage.symm.trans hnmessage.symm))
    obtain rfl := Option.some.inj (hm.symm.trans hn)
    obtain ⟨sent', hsent', _, _, _, _, hsender, htargetChat, _⟩ := map_job hs.agree hm
    obtain rfl := Option.some.inj (hsent.symm.trans hsent')
    exact ⟨haccount.symm.trans (hnsender.symm.trans hsender),
      hchat.symm.trans (hnchat.symm.trans htargetChat)⟩
  · intro hlike target htarget
    obtain ⟨i, m, hm, hmroute, hmmessage, hid⟩ :=
      started_recorded hs.copies ht hstarted target htarget
    obtain ⟨sent, hsent, _, _, _, _, hsender, htargetChat, _⟩ := map_job hs.agree hm
    obtain ⟨hacc, hch⟩ := hlike job hjob i m hm (hmroute.trans hroute) (hmmessage.trans hmessage)
      sent hsent
    exact ⟨i, m, hm, hmroute, hmmessage, hid, hsender.trans (hacc.symm.trans haccount.symm),
      htargetChat.trans (hch.symm.trans hchat.symm)⟩

end System

/-- In every run, a started edit or delete addresses what was sent exactly if its job was planned
like the send. -/
theorem edits_hit_sent_iff (config : WorkerId → WorkerConfig) (as : List Action) :
    Machine.Always System.step (fun s _ s' => ∀ call, s'.history = s.history ++ [.started call] →
      call.request ≠ .send → (call.HitsSent s.db ↔ PlannedLikeSend s.db call.jobId))
      (.start config) as := by
  refine Machine.always_of_invariant
    (I := fun s => s.MapsFaithful ∧ s.TargetsRecorded) ?_ ?_ as
    ⟨System.mapsFaithful_start config, System.targetsRecorded_start config⟩
  · rintro s a s' h ⟨hmaps, htargets⟩
    exact ⟨System.mapsFaithful_step s a s' h hmaps, System.targetsRecorded_step s a s' h htargets⟩
  · rintro s a s' h ⟨hmaps, htargets⟩ call hhistory hsend
    exact System.hits_sent_iff hmaps htargets (System.startedBy_of_history h hhistory) hsend

/-- The message is sent to chat 7; then the route is moved to chat 8 and the message is edited. -/
def editedAfterMove : List Action :=
  .publish "A" [cloneRule] ::
    assignSteps "w1" { accountId := "A", tenantId := "t", projectId := "p" } 0 ++
    ingestSteps "w1" "A" (channelUpdate .create) ++ drainSteps "w1" "A" [0] 10 1 ++
    claimSteps "w1" "A" [0] 2 ++ callSteps "w1" "A" 3 ++
    returnSteps "w1" "A" (.returned [9]) 4 ++
    [.publish "A" [{ cloneRule with
        version := 2, targets := [{ routeId := "n", targetChatId := 8, sourceChatId := 5 }] }],
      .host "w1" (.pullRules "A"), .host "w1" .applyRules] ++
    ingestSteps "w1" "A" (channelUpdate .edit) ++
    [.runner "w1" "A" (.drainRead [1] 10), .runner "w1" "A" (.drainPrefetch [0]),
      .runner "w1" "A" (.drainCommit (fun _ _ _ => 0) (fun _ => 5) false)] ++
    claimSteps "w1" "A" [1] 6 ++
    [.runner "w1" "A" (.gate 7), .runner "w1" "A" (.settle 7 7 0),
      .runner "w1" "A" (.lookup [0])]

def startedTargets (history : List Event) : List (ℤ × List ℤ) :=
  history.filterMap fun
    | .started call => some (call.plan.targetChatId, call.request.targets)
    | _ => none

/-- The edit addresses message 9 of chat 8, though message 9 was sent to chat 7. -/
theorem edit_follows_moved_route : ¬ ∀ config as, Machine.Always System.step
    (fun s _ s' => ∀ call, s'.history = s.history ++ [.started call] → call.request ≠ .send →
      call.HitsSent s.db) (.start config) as := by
  intro h
  have hobserved : ((System.run (.start fun _ => {}) editedAfterMove).bind fun s =>
      (s.step (.runner "w1" "A" (.execute 7))).map fun t =>
        (s.db.messageMaps.rows.map MessageMap.targetChatId,
          startedTargets (t.history.drop s.history.length))) = some ([7], [(8, [9])]) := by
    decide +kernel
  obtain ⟨s, t, hrun, hstep, hobserved⟩ := Machine.exists_of_observed hobserved
  obtain ⟨hchats, hstarted⟩ := Prod.mk.inj hobserved
  refine Machine.not_always_of_step hrun hstep ?_ (h _ _)
  intro hhits
  rcases System.step_event hstep with hsame | ⟨ev, hsnoc, _⟩
  · rw [hsame, List.drop_length] at hstarted
    cases hstarted
  · rw [hsnoc, List.drop_left] at hstarted
    cases ev with
    | started call =>
      simp only [startedTargets, List.filterMap_cons, List.filterMap_nil, List.cons.injEq,
        Prod.mk.injEq, and_true] at hstarted
      obtain ⟨hchat, htargets⟩ := hstarted
      have hsend : call.request ≠ .send := by
        intro hsend
        rw [hsend] at htargets
        cases htargets
      obtain ⟨i, m, hm, _, _, _, _, hmchat⟩ := hhits call hsnoc hsend 9 (by simp [htargets])
      have hmem : m.targetChatId ∈ s.db.messageMaps.rows.map MessageMap.targetChatId :=
        List.mem_map_of_mem (List.mem_of_getElem? hm)
      rw [hchats, List.mem_singleton, hmchat, hchat] at hmem
      exact absurd hmem (by decide)
    | _ => cases hstarted

/-! ## Routes that keep their chats

An edit follows its message where no publish moves a route to another chat and every drain
finds the message that it plans an edit or a delete of in its view.
-/

def Action.KeepsChats (chat : RouteId → ℤ) : Action → Prop
  | .publish _ rows => ∀ row ∈ rows, ∀ t ∈ row.targets, t.targetChatId = chat t.routeId
  | _ => True

/-- A drain has the sender of every message that it plans an edit or a delete of. -/
def DrainsMapped (s : System) (a : Action) (s' : System) : Prop :=
  ∀ w acc rows mapping draw stamp raises, DrainedBy s a s' w acc rows mapping draw stamp raises →
    ∀ i row, (i, row) ∈ rows → ∀ plan ∈ plansFor (s.workers w).deps mapping draw row,
      plan.kind ≠ .send →
        ∃ sender ≠ "", mapping.findSenderAccountId plan.routeId plan.message = some sender

theorem findSenderAccountId_eq_some {mapping : DictMappingView} {routeId : RouteId} {key : MessageKey}
    {sender : AccountId} (h : mapping.findSenderAccountId routeId key = some sender) :
    ∃ e ∈ mapping, e.routeId = routeId ∧ e.message = key ∧ e.senderAccountId = sender := by
  obtain ⟨e, he, rfl⟩ := Option.map_eq_some_iff.mp h
  have hkey := List.find?_some he
  rw [decide_eq_true_iff] at hkey
  exact ⟨e, List.mem_reverse.mp (List.mem_of_find?_eq_some he), hkey.1, hkey.2, rfl⟩

/-- A plan follows its rule's route, and an edit or a delete the sender in the view. -/
theorem plan_follows {mapping : DictMappingView} {draw : Draw} {event : SourceEvent}
    {rules : List RuleSnapshot} {plan : DeliveryPlan}
    (h : plan ∈ TgPlatform.plan mapping draw event rules) :
    (∃ rule ∈ rules, ∃ route ∈ rule.targets,
      plan.routeId = route.routeId ∧ plan.targetChatId = route.targetChatId) ∧
    ∀ sender ≠ "", plan.kind ≠ .send →
      mapping.findSenderAccountId plan.routeId plan.message = some sender →
        plan.accountId = sender := by
  obtain ⟨rule, hrule, route, hroute, rfl⟩ := mem_plan.mp h
  have hmem : route ∈ rule.targets := by
    unfold plannedRoutes at hroute
    split_ifs at hroute <;> first | exact hroute | exact absurd hroute List.not_mem_nil
  refine ⟨⟨rule, hrule, route, hmem, rfl, rfl⟩, fun sender hne hkind hfind => ?_⟩
  change mapping.findSenderAccountId route.routeId event.message = some sender at hfind
  change senderFor mapping draw event rule route event.kind.plan = sender
  change event.kind.plan ≠ .send at hkind
  simp only [senderFor, if_neg hkind, hfind, orElse, if_neg hne]

namespace System

variable {s s' : System} {a : Action} {chat : RouteId → ℤ}

structure ChatsKept (chat : RouteId → ℤ) (s : System) : Prop where
  published : ∀ acc, ∀ row ∈ s.published acc, ∀ t ∈ row.targets, t.targetChatId = chat t.routeId
  pulled : ∀ w acc rows, (s.workers w).pulled = some (acc, rows) →
    ∀ row ∈ rows, ∀ t ∈ row.targets, t.targetChatId = chat t.routeId
  cached : ∀ w acc, ∀ rule ∈ (s.workers w).caches.rules acc, ∀ t ∈ rule.targets,
    t.targetChatId = chat t.routeId
  jobs : ∀ id job, s.db.deliveryJobs.get? id = some job →
    job.kind = "send_message" ∨ job.targetChatId = chat job.routeId

theorem chatsKept_start (config : WorkerId → WorkerConfig) : ChatsKept chat (.start config) where
  published _ _ h := absurd h List.not_mem_nil
  pulled _ _ _ h := by cases h
  cached _ _ _ h := absurd h List.not_mem_nil
  jobs _ _ h := by cases h

theorem rulesFromRows_targets {rows : List PublishedRule} {acc : AccountId} {dead : List AccountId}
    (h : ∀ row ∈ rows, ∀ t ∈ row.targets, t.targetChatId = chat t.routeId) {rule : RuleSnapshot}
    (hrule : rule ∈ rulesFromRows rows acc dead) : ∀ t ∈ rule.targets, t.targetChatId = chat t.routeId := by
  obtain ⟨row, hrow, hrule⟩ := List.mem_flatMap.mp hrule
  obtain ⟨t, ht, hrule⟩ := List.mem_flatMap.mp hrule
  obtain ⟨scope, _, rfl⟩ := List.mem_map.mp hrule
  intro route hroute
  obtain rfl := List.mem_singleton.mp hroute
  exact h row hrow t ht

theorem published_kept (h : s.step a = some s') (ha : a.KeepsChats chat) (hs : ChatsKept chat s) :
    ∀ acc, ∀ row ∈ s'.published acc, ∀ t ∈ row.targets, t.targetChatId = chat t.routeId := by
  intro acc
  rcases step_published h with hsame | ⟨acc', rows, rfl, hnew⟩
  · rw [hsame]
    exact hs.published acc
  · rw [hnew]
    by_cases hacc : acc = acc'
    · subst hacc
      rw [Function.update_self]
      exact ha
    · rw [Function.update_of_ne hacc]
      exact hs.published acc

/-- The memory of a process takes its routes from what is published. -/
theorem worker_kept (h : s.step a = some s') (hs : ChatsKept chat s) (w : WorkerId) :
    (∀ acc rows, (s'.workers w).pulled = some (acc, rows) →
      ∀ row ∈ rows, ∀ t ∈ row.targets, t.targetChatId = chat t.routeId) ∧
    ∀ acc, ∀ rule ∈ (s'.workers w).caches.rules acc, ∀ t ∈ rule.targets,
      t.targetChatId = chat t.routeId := by
  rcases step_workers h w with hsame | ⟨acc, x, r, e, _, _, _, hw⟩ | ⟨x, e, _, he, hw⟩ | ⟨_, hw⟩
  · rw [hsame]
    exact ⟨hs.pulled w, hs.cached w⟩
  · have hpulled : (s'.workers w).pulled = (s.workers w).pulled := by
      rw [hw]
      cases x <;> rfl
    have hcaches : (s'.workers w).caches = (s.workers w).caches := by
      rw [hw]
      cases x <;> rfl
    rw [hpulled, hcaches]
    exact ⟨hs.pulled w, hs.cached w⟩
  · rw [hw]
    cases Worker.stepped_of_step he with
    | pullRules acc _ =>
      refine ⟨?_, hs.cached w⟩
      rintro acc' rows hpulled
      obtain ⟨rfl, rfl⟩ := Prod.mk.inj (Option.some.inj hpulled)
      exact hs.published acc
    | applyRules acc rows hpulled =>
      refine ⟨fun _ _ => nofun, fun acc' rule hrule => ?_⟩
      dsimp only at hrule
      rw [RuleCaches.rules_refresh] at hrule
      split at hrule
      · exact rulesFromRows_targets (hs.pulled w acc rows hpulled) hrule
      · exact hs.cached w acc' rule hrule
    | release acc _ _ =>
      refine ⟨hs.pulled w, fun acc' rule hrule => ?_⟩
      change rule ∈ ((s.workers w).caches.release acc).rules acc' at hrule
      rw [RuleCaches.rules_release] at hrule
      split at hrule
      · cases hrule
      · exact hs.cached w acc' rule hrule
    | renew acc now hosted row ok _ _ _ =>
      cases ok
      · exact ⟨hs.pulled w, hs.cached w⟩
      · exact ⟨hs.pulled w, hs.cached w⟩
    | _ => exact ⟨hs.pulled w, hs.cached w⟩
  · rw [hw]
    exact ⟨fun _ _ => nofun, fun _ _ hrule => absurd hrule List.not_mem_nil⟩

theorem chatsKept_step (h : s.step a = some s') (ha : a.KeepsChats chat) (hs : ChatsKept chat s) :
    ChatsKept chat s' where
  published := published_kept h ha hs
  pulled w := (worker_kept h hs w).1
  cached w := (worker_kept h hs w).2
  jobs := by
    intro id job' hjob'
    cases hjob : s.db.deliveryJobs.get? id with
    | none =>
      rcases job_new h hjob hjob' with ⟨reply, now, _, rfl⟩ |
        ⟨w, _, _, _, _, _, _, _, i, row, plan, now, _, hplan, rfl, _⟩
      · exact Or.inl rfl
      · obtain ⟨⟨rule, hrule, route, hroute, hrouteId, hchat⟩, -⟩ := plan_follows hplan
        refine Or.inr (hchat.trans ?_)
        rw [hs.cached w _ rule hrule route hroute]
        exact congrArg chat hrouteId.symm
    | some job =>
      obtain ⟨job'', hjob'', hplanned⟩ := planned_kept h hjob
      obtain rfl := Option.some.inj (hjob'.symm.trans hjob'')
      have hk := congrArg DeliveryJob.kind hplanned
      have hr := congrArg DeliveryJob.routeId hplanned
      have hc := congrArg DeliveryJob.targetChatId hplanned
      rcases hs.jobs id job hjob with hreply | hchat
      · exact Or.inl (hk.trans hreply)
      · exact Or.inr (hc.trans (hchat.trans (congrArg chat hr.symm)))

end System

/-! ### The accounts of edits and deletes -/

theorem runner_step_draining {d : RunnerDeps} {w : WorkerId} {acc : AccountId} {db : Database}
    {r : Runner} {x : RunnerAction} {e : RunnerEffect} {rows : List (RowId × EventInbox)}
    {mapping : DictMappingView} (he : r.step d w acc db x = some e)
    (hpc : e.runner.pc = .draining rows mapping) :
    e.db = db ∧ ∃ order, mapping = db.mappingEntries order := by
  cases Runner.stepped_of_step he with
  | drainPrefetch order _ _ _ =>
    obtain ⟨rfl, rfl⟩ := RunnerPc.draining.inj hpc
    exact ⟨rfl, order, rfl⟩
  | settle now clock draw held decision _ =>
    obtain ⟨_, _, hsettled⟩ := Runner.settleGate_eq d db r held decision now clock draw
    rw [hsettled] at hpc
    by_cases hallow : decision = .allow <;> simp [hallow] at hpc
  | execute now held ids _ =>
    rcases Runner.startCall_cases d w acc db r held ids now with ⟨_, _, hcall⟩ | ⟨_, _, hcall⟩ <;>
      rw [hcall] at hpc <;> cases hpc
  | record now clock draw raises held called result _ =>
    obtain ⟨_, ⟨_, _, hafter⟩ | ⟨_, hafter⟩⟩ := Runner.recordOutcome_cases d db r held result now
      clock draw raises <;> rw [hafter] at hpc <;> cases hpc
  | _ => cases hpc

def SentBy (db : Database) (routeId : RouteId) (message : MessageKey) (sender : AccountId) : Prop :=
  ∃ i m, db.messageMaps.get? i = some m ∧ m.routeId = routeId ∧ m.message = message ∧
    m.senderAccountId = sender

namespace System

variable {s s' : System} {a : Action} {chat : RouteId → ℤ}

theorem sentBy_kept (h : s.step a = some s') {routeId : RouteId} {message : MessageKey}
    {sender : AccountId} (hm : SentBy s.db routeId message sender) :
    SentBy s'.db routeId message sender := by
  obtain ⟨i, m, hm, hrest⟩ := hm
  exact ⟨i, m, map_kept h hm, hrest⟩

def ViewsStored (s : System) : Prop :=
  ∀ w acc r rows mapping, (s.workers w).runners acc = some r → r.pc = .draining rows mapping →
    ∀ e ∈ mapping, SentBy s.db e.routeId e.message e.senderAccountId

theorem viewsStored_step (h : s.step a = some s') (hs : ViewsStored s) : ViewsStored s' := by
  intro w acc r' rows mapping hr' hpc e he
  rcases step_runner_cases h hr' with hr | ⟨x, r, effect, rfl, hr, hstep, rfl, hdb⟩ |
    ⟨x, g, _, _, _, rfl⟩
  · exact sentBy_kept h (hs w acc r' rows mapping hr hpc e he)
  · obtain ⟨hsame, order, rfl⟩ := runner_step_draining hstep hpc
    obtain ⟨⟨i, m⟩, hm, rfl⟩ := List.mem_map.mp he
    rw [hdb, hsame]
    exact ⟨i, m, (Table.mem_fetch.mp hm).2, rfl, rfl, rfl⟩
  · cases hpc

def EditsFollow (s : System) : Prop :=
  ∀ id job, s.db.deliveryJobs.get? id = some job → jobKindAlias job.kind ≠ some .send →
    SentBy s.db job.routeId job.message job.accountId

theorem editsFollow_step (h : s.step a = some s') (ha : DrainsMapped s a s') (hviews : ViewsStored s)
    (hs : EditsFollow s) : EditsFollow s' := by
  intro id job' hjob' hkind
  cases hjob : s.db.deliveryJobs.get? id with
  | none =>
    rcases job_new h hjob hjob' with ⟨reply, now, _, rfl⟩ |
      ⟨w, acc, rows, mapping, draw, stamp, raises, hdrained, i, row, plan, now, hrow, hplan, rfl, _⟩
    · exact absurd rfl hkind
    · have hedits : plan.kind ≠ .send := by
        intro hsend
        exact hkind (by change jobKindAlias plan.kind.value = _; rw [hsend]; rfl)
      obtain ⟨sender, hne, hfind⟩ := ha w acc rows mapping draw stamp raises hdrained i row hrow plan
        hplan hedits
      obtain ⟨e, he, hroute, hmessage, hsender⟩ := findSenderAccountId_eq_some hfind
      obtain ⟨r, hr, hpc⟩ := hdrained.runner
      have hstored := sentBy_kept h (hviews w acc r rows mapping hr hpc e he)
      rw [hroute, hmessage, hsender, ← (plan_follows hplan).2 sender hne hedits hfind] at hstored
      exact hstored
  | some job =>
    obtain ⟨job'', hjob'', hplanned⟩ := planned_kept h hjob
    obtain rfl := Option.some.inj (hjob'.symm.trans hjob'')
    have hk := congrArg DeliveryJob.kind hplanned
    have hr := congrArg DeliveryJob.routeId hplanned
    have hm := congrArg DeliveryJob.message hplanned
    have hacc := congrArg DeliveryJob.accountId hplanned
    obtain ⟨i, m, hrow, hroute, hmessage, hsender⟩ := sentBy_kept h <| hs id job hjob fun hsent =>
      hkind ((congrArg jobKindAlias hk).trans hsent)
    exact ⟨i, m, hrow, hroute.trans hr.symm, hmessage.trans hm.symm, hsender.trans hacc.symm⟩

/-- What holds as long as the routes keep their chats and the drains find what was sent. -/
structure Follows (chat : RouteId → ℤ) (s : System) : Prop where
  maps : MapsFaithful s
  targets : TargetsRecorded s
  chats : ChatsKept chat s
  views : ViewsStored s
  edits : EditsFollow s

theorem follows_start (config : WorkerId → WorkerConfig) : Follows chat (.start config) where
  maps := mapsFaithful_start config
  targets := targetsRecorded_start config
  chats := chatsKept_start config
  views _ _ _ _ _ hr := by cases hr
  edits _ _ hjob := by cases hjob

theorem follows_step (h : s.step a = some s') (hchats : a.KeepsChats chat) (hdrains : DrainsMapped s a s')
    (hs : Follows chat s) : Follows chat s' where
  maps := mapsFaithful_step s a s' h hs.maps
  targets := targetsRecorded_step s a s' h hs.targets
  chats := chatsKept_step h hchats hs.chats
  views := viewsStored_step h hs.views
  edits := editsFollow_step h hdrains hs.views hs.edits

theorem Follows.plannedLikeSend (hs : Follows chat s) {id : JobId} {job : DeliveryJob}
    (hjob : s.db.deliveryJobs.get? id = some job) (hkind : jobKindAlias job.kind ≠ some .send) :
    PlannedLikeSend s.db id := by
  intro job' hjob' i m hm hroute hmessage sent hsent
  obtain rfl := Option.some.inj (hjob.symm.trans hjob')
  obtain ⟨j, n, hn, hnroute, hnmessage, hsender⟩ := hs.edits id job hjob hkind
  -- the row that the drain has seen is the only one
  obtain rfl := map_unique hs.maps hm hn (hroute.trans hnroute.symm) (hmessage.trans hnmessage.symm)
  obtain rfl := Option.some.inj (hm.symm.trans hn)
  obtain ⟨sent', hsent', hsentKind, _, hsentRoute, _, hsentSender, _⟩ := map_job hs.maps.agree hm
  obtain rfl := Option.some.inj (hsent.symm.trans hsent')
  have hchat : job.targetChatId = chat job.routeId :=
    (hs.chats.jobs id job hjob).resolve_left fun h => hkind (h ▸ rfl)
  have hsentChat : sent.targetChatId = chat sent.routeId :=
    (hs.chats.jobs _ sent hsent).resolve_left fun h => absurd (hsentKind.symm.trans h) (by decide)
  refine ⟨hsender.symm.trans hsentSender, ?_⟩
  rw [hchat, hsentChat, ← hsentRoute, hroute]

end System

/-- Where no publish gives a route another chat and every drain finds the messages that it plans edits
and deletes of, every started edit and delete addresses what was sent. -/
theorem edits_hit_sent_of_kept_chats (config : WorkerId → WorkerConfig) (as : List Action)
    (chat : RouteId → ℤ) (hchats : ∀ a ∈ as, a.KeepsChats chat)
    (hdrains : Machine.Always System.step DrainsMapped (.start config) as) :
    Machine.Always System.step (fun s _ s' => ∀ call, s'.history = s.history ++ [.started call] →
      call.request ≠ .send → call.HitsSent s.db) (.start config) as := by
  refine Machine.Always.of_invariant (I := System.Follows chat) ?_ ?_
    ((Machine.always_of_mem fun a ha _ _ => hchats a ha).and hdrains) (System.follows_start config)
  · rintro s a s' h ⟨hkeeps, hmapped⟩ hs
    exact System.follows_step h hkeeps hmapped hs
  · rintro s a s' h - hs call hhistory hsend
    have hstarted := System.startedBy_of_history h hhistory
    refine (System.hits_sent_iff hs.maps hs.targets hstarted hsend).mpr ?_
    obtain ⟨_, _, _, job, _, _, hjob, _, _, _, _, _, hedits⟩ :=
      System.started_job hs.maps.copies hstarted
    exact hs.plannedLikeSend hjob (hedits hsend).1

end TgPlatform
