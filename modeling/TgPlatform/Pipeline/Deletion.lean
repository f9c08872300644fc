import TgPlatform.Pipeline.Targets

/-! # What a delete leaves behind

A delete removes the messages it finds mapped when it is executed, and no code
sets `deleted_at`. A message that was delivered and recorded on a route thus
stays marked as present, and one recorded after the delete stays in the chat.
-/

namespace TgPlatform

structure Produces (routeId : RouteId) (message : MessageKey) (call : Call)
    (result : DeliveryResult) (target : ℤ) : Prop where
  send : call.request = .send
  route : call.plan.routeId = routeId
  source : call.plan.message = message
  succeeded : result.status = .succeeded
  target : target ∈ result.targetMessageIds

/-- The returned call has deleted the message `target` of the chat. -/
structure Deletes (chatId target : ℤ) (call : Call) (result : DeliveryResult) : Prop where
  chat : call.plan.targetChatId = chatId
  succeeded : result.status = .succeeded
  target : ∃ ids, call.request = .delete ids ∧ target ∈ ids

/-- The create and the delete of the message are ingested and drained, and the route's jobs for
it have ended. -/
structure DeleteDue (s : System) (routeId : RouteId) (message : MessageKey) : Prop where
  created : ∃ tenantId projectId event, .ingested tenantId projectId event ∈ s.history ∧
    event.kind = .create ∧ event.message = message
  deleted : ∃ tenantId projectId event, .ingested tenantId projectId event ∈ s.history ∧
    event.kind = .delete ∧ event.message = message
  drained : ∀ i r, s.db.eventInbox.get? i = some r → r.message = message → r.processed = true
  ended : ∀ id job, s.db.deliveryJobs.get? id = some job → job.routeId = routeId →
    job.message = message → job.status.terminal = true

/-- No target message is present any more, and every mapping row is marked as deleted. -/
structure DeleteComplete (s : System) (routeId : RouteId) (message : MessageKey) : Prop where
  gone : ∀ pre call result post target, s.history = pre ++ .returned call result :: post →
    Produces routeId message call result target →
    ∃ call' result', .returned call' result' ∈ post ∧
      Deletes call.plan.targetChatId target call' result'
  marked : ∀ i m, s.db.messageMaps.get? i = some m → m.routeId = routeId → m.message = message →
    m.deletedAt ≠ none

/-- No mapping row exists, and only deletes for other messages or routes have removed the target
messages there were. -/
structure NeverMapped (s : System) (routeId : RouteId) (message : MessageKey) : Prop where
  unmapped : ∀ i m, s.db.messageMaps.get? i = some m → m.routeId = routeId → m.message ≠ message
  strays : ∀ pre call result post target, s.history = pre ++ .returned call result :: post →
    Produces routeId message call result target →
    ∃ call' result', .returned call' result' ∈ post ∧
      Deletes call.plan.targetChatId target call' result' ∧
      (call'.plan.routeId, call'.plan.message) ≠ (routeId, message)

namespace System

variable {s s' : System} {a : Action}

def StartsRecorded (s : System) : Prop :=
  ∀ call, .started call ∈ s.history → call.Recorded s.db

theorem startsRecorded_start (config : WorkerId → WorkerConfig) :
    StartsRecorded (.start config) := by
  intro call hmem
  cases hmem

theorem startsRecorded_step (h : s.step a = some s') (hcopies : CopiesAgree s)
    (htargets : TargetsRecorded s) (hs : StartsRecorded s) : StartsRecorded s' := by
  have hkeep : ∀ {call : Call}, call.Recorded s.db → call.Recorded s'.db := by
    intro call hrecorded target htarget
    obtain ⟨i, m, hm, hrest⟩ := hrecorded target htarget
    exact ⟨i, m, map_kept h hm, hrest⟩
  intro call hmem
  rcases step_event h with hsame | ⟨ev, hsnoc, hstarted, _⟩
  · rw [hsame] at hmem
    exact hkeep (hs call hmem)
  · rw [hsnoc, List.mem_append, List.mem_singleton] at hmem
    rcases hmem with hmem | rfl
    · exact hkeep (hs call hmem)
    · exact hkeep (started_recorded hcopies htargets (hstarted call rfl))

structure DeletesTraced (s : System) : Prop where
  maps : MapsFaithful s
  targets : TargetsRecorded s
  calls : CallsStarted s
  starts : StartsRecorded s

theorem deletesTraced_start (config : WorkerId → WorkerConfig) : DeletesTraced (.start config) :=
  ⟨mapsFaithful_start config, targetsRecorded_start config, callsStarted_start config,
    startsRecorded_start config⟩

theorem deletesTraced_step (s : System) (a : Action) (s' : System) (h : s.step a = some s')
    (hs : DeletesTraced s) : DeletesTraced s' :=
  ⟨mapsFaithful_step s a s' h hs.maps, targetsRecorded_step s a s' h hs.targets,
    callsStarted_step s a s' h hs.calls,
    startsRecorded_step h hs.maps.copies hs.targets hs.starts⟩

theorem mapped_of_deletes (hs : DeletesTraced s) {call : Call} {result : DeliveryResult}
    (hmem : .returned call result ∈ s.history) {chatId target : ℤ}
    (hdeletes : Deletes chatId target call result) : ∃ i m, s.db.messageMaps.get? i = some m ∧
      m.routeId = call.plan.routeId ∧ m.message = call.plan.message := by
  obtain ⟨ids, hrequest, htarget⟩ := hdeletes.target
  have hrecorded := hs.starts call (hs.calls.returned call result hmem)
  obtain ⟨i, m, hm, hroute, hmessage, _⟩ := hrecorded target (by rw [hrequest]; exact htarget)
  exact ⟨i, m, hm, hroute, hmessage⟩

theorem deleteComplete_iff (hs : DeletesTraced s) (routeId : RouteId) (message : MessageKey) :
    DeleteComplete s routeId message ↔ NeverMapped s routeId message := by
  constructor
  · intro hcomplete
    have hunmapped : ∀ i m, s.db.messageMaps.get? i = some m → m.routeId = routeId →
        m.message ≠ message := by
      intro i m hm hroute hmessage
      obtain ⟨_, _, _, _, _, _, _, _, _, hnone⟩ := map_job hs.maps.agree hm
      exact hcomplete.marked i m hm hroute hmessage hnone
    refine ⟨hunmapped, ?_⟩
    intro pre call result post target hhistory hproduces
    obtain ⟨call', result', hmem, hdeletes⟩ :=
      hcomplete.gone pre call result post target hhistory hproduces
    refine ⟨call', result', hmem, hdeletes, ?_⟩
    intro hsame
    obtain ⟨hroute', hmessage'⟩ := Prod.mk.inj hsame
    have hin : .returned call' result' ∈ s.history := by
      rw [hhistory]
      exact List.mem_append_right _ (List.mem_cons_of_mem _ hmem)
    obtain ⟨i, m, hm, hroute, hmessage⟩ := mapped_of_deletes hs hin hdeletes
    exact hunmapped i m hm (hroute.trans hroute') (hmessage.trans hmessage')
  · intro hnever
    constructor
    · intro pre call result post target hhistory hproduces
      obtain ⟨call', result', hmem, hdeletes, _⟩ :=
        hnever.strays pre call result post target hhistory hproduces
      exact ⟨call', result', hmem, hdeletes⟩
    · intro i m hm hroute hmessage
      exact absurd hmessage (hnever.unmapped i m hm hroute)

end System

/-- `DeleteDue`, as a test. -/
def deleteDue (s : System) (routeId : RouteId) (message : MessageKey) : Bool :=
  let seen := fun kind => s.history.any fun
    | .ingested _ _ event => event.kind = kind && event.message = message
    | _ => false
  seen .create && seen .delete &&
    (s.db.eventInbox.rows.all fun r => r.message ≠ message || r.processed) &&
    s.db.deliveryJobs.rows.all fun job =>
      job.routeId ≠ routeId || job.message ≠ message || job.status.terminal

theorem deleteDue_spec {s : System} {routeId : RouteId} {message : MessageKey}
    (h : deleteDue s routeId message = true) : DeleteDue s routeId message := by
  simp only [deleteDue, Bool.and_eq_true] at h
  obtain ⟨⟨⟨hcreate, hdelete⟩, hinbox⟩, hjobs⟩ := h
  have hseen : ∀ {kind : EventKind}, (s.history.any fun
      | .ingested _ _ event => event.kind = kind && event.message = message
      | _ => false) = true → ∃ tenantId projectId event,
        .ingested tenantId projectId event ∈ s.history ∧ event.kind = kind ∧
          event.message = message := by
    intro kind hany
    obtain ⟨ev, hmem, hev⟩ := List.any_eq_true.mp hany
    cases ev with
    | ingested tenantId projectId event =>
      simp only [Bool.and_eq_true, decide_eq_true_eq] at hev
      exact ⟨tenantId, projectId, event, hmem, hev⟩
    | _ => cases hev
  constructor
  · exact hseen hcreate
  · exact hseen hdelete
  · intro i r hr hmessage
    have hrow := List.all_eq_true.mp hinbox r (List.mem_of_getElem? hr)
    simpa [hmessage] using hrow
  · intro id job hjob hroute hmessage
    have hrow := List.all_eq_true.mp hjobs job (List.mem_of_getElem? hjob)
    simpa [hroute, hmessage] using hrow

def channelMessage : MessageKey := (normalize (channelUpdate .create) "A" 0).message

def deletedWhenMapped : List Action :=
  .publish "A" [cloneRule] ::
    assignSteps "w1" { accountId := "A", tenantId := "t", projectId := "p" } 0 ++
    ingestSteps "w1" "A" (channelUpdate .create) ++ drainSteps "w1" "A" [0] 10 1 ++
    claimSteps "w1" "A" [0] 2 ++ callSteps "w1" "A" 3 ++
    returnSteps "w1" "A" (.returned [9]) 4 ++
    ingestSteps "w1" "A" (channelUpdate .delete) ++
    [.runner "w1" "A" (.drainRead [1] 10), .runner "w1" "A" (.drainPrefetch [0]),
      .runner "w1" "A" (.drainCommit (fun _ _ _ => 0) (fun _ => 5) false)] ++
    claimSteps "w1" "A" [1] 6 ++
    [.runner "w1" "A" (.gate 7), .runner "w1" "A" (.settle 7 7 0),
      .runner "w1" "A" (.lookup [0]), .runner "w1" "A" (.execute 7)] ++
    returnSteps "w1" "A" (.returned []) 8

/-- The delete is executed before the message is sent, finds nothing mapped and succeeds. -/
def deletedBeforeSent : List Action :=
  .publish "A" [cloneRule] ::
    assignSteps "w1" { accountId := "A", tenantId := "t", projectId := "p" } 0 ++
    ingestSteps "w1" "A" (channelUpdate .create) ++ ingestSteps "w1" "A" (channelUpdate .delete) ++
    drainSteps "w1" "A" [0, 1] 10 1 ++ claimSteps "w1" "A" [1, 0] 2 ++
    callSteps "w1" "A" 3 ++ [.runner "w1" "A" (.record 4 4 0 false)] ++
    claimSteps "w1" "A" [0] 5 ++ callSteps "w1" "A" 6 ++ returnSteps "w1" "A" (.returned [9]) 7

end TgPlatform
