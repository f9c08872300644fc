import TgPlatform.Ai.CallbackIsolation
import TgPlatform.Ai.Ending

/-! # Transactions around a run

Triggers, callbacks, deliveries of the task, cancellations and sweeps overlap.
Each reads the run once and writes it by its id later, a delivery after the call
of the model. Reads that follow one another are one statement here, and so are
the last writes of a transaction.
-/

namespace TgPlatform

open Overlap

inductive RunRequest
  | trigger (req : TriggerRequest)
  | callback (py : Python) (req : CallbackRequest)
  | deferred (out : Outside) (pk : RunId)
  | cancel (out : Outside) (pk : RunId)
  | sweep (out : Outside)

inductive RunLock
  | trigger (lock : TriggerLock)
  | uuid (uuid : String)
  | segment (b : BindingId) (sessionId replyTo : String) (sequence : ℤ)
  deriving DecidableEq

/-- What a transaction makes of runs: the statuses that it has written, and the run that it has
created a candidate for. -/
structure Effect where
  moved : List (RunId × RunStatus) := []
  speaks : Option (RunId × String) := none

/-- What a reply of the model is made a candidate from. -/
structure Scene where
  mode : String
  cid : ConversationId
  conv : AiConversation
  prompt : Prompt
  group : Option AiGroup

inductive RunPoint
  | triggering (point : TriggerPoint)
  | accepting (py : Python) (req : CallbackRequest)
  | linking (py : Python) (req : CallbackRequest) (b : BindingId) (fields : CallbackFields)
  | storing (py : Python) (req : CallbackRequest) (b : BindingId) (fields : CallbackFields)
      (run : Option (RunId × AiRun))
  | advancing (py : Python) (req : CallbackRequest) (cb : AiCallback) (pk : RunId) (run : AiRun)
  | answering (py : Python) (req : CallbackRequest) (cb : AiCallback) (pk : RunId) (run : AiRun)
      (text : String) (conv : AiConversation)
  | fetching (out : Outside) (pk : RunId)
  | casting (out : Outside) (pk : RunId) (run : AiRun)
  | refreshing (out : Outside) (pk : RunId) (scene : Scene)
  | finishing (out : Outside) (pk : RunId) (scene : Scene)
  | checking (out : Outside) (pk : RunId)
  | cancelling (out : Outside) (pk : RunId) (run : AiRun)
  | collecting (out : Outside)
  | expiring (out : Outside) (due : List (RunId × AiRun)) (effect : Effect)
  | ending (effect : Effect)

/-- The first half of `_openai_execute`: what the model is asked, if the provider is configured. -/
def ControlPlane.promptOf (s : ControlPlane) (out : Outside) (obj : AiTrigger) (binding : AiBinding)
    (run : AiRun) (context after : List Json) (group : Option (GroupId × AiGroup)) : Option Prompt :=
  let (baseUrl, apiKey, model, _) := provider out binding group
  let prompt : Prompt := {
    binding, group := group.map Prod.snd, run, baseUrl, model, apiKey, nicks := []
    selfUid := none, senderName := obj.senderName, text := obj.text, context, after }
  if obj.mode = "script" && !obj.rewrite then some prompt
  else if (truthy apiKey).isNone || baseUrl = "" || (truthy model).isNone then none
  else some { prompt with
    nicks := (group.map fun g => s.memberNicks g.1).getD []
    selfUid := s.accountUid binding.accountId }

theorem ControlPlane.promptOf_holds {s : ControlPlane} {out : Outside} {obj : AiTrigger}
    {binding : AiBinding} {run : AiRun} {context after : List Json} {group : Option (GroupId × AiGroup)}
    {prompt : Prompt} (h : s.promptOf out obj binding run context after group = some prompt) :
    prompt.run = run ∧ prompt.context = context := by
  unfold promptOf at h
  dsimp only at h
  split at h
  · cases h
    exact ⟨rfl, rfl⟩
  · split at h <;> cases h
    exact ⟨rfl, rfl⟩

/-- The last part of `_openai_execute`, for a reply that has passed the gate. -/
def speak (out : Outside) (pk : RunId) (scene : Scene) (text : String) (quote : Option ℤ) :
    Req Unit := do
  let prompt := scene.prompt
  let candidateId ← Txn.exec fun s => s.createCandidate (fun t => out.python.sha256 (encode t))
    prompt.run scene.conv text (some prompt.binding) scene.group quote ⟨out.uuid 5, out.uuid 6⟩ out.now
  Txn.write fun s => (s.updateRun pk fun r => { r with
    status := .completed
    candidateId := some candidateId
    completedAt := some out.now
    usage := .dict [("model", (prompt.model.map Json.str).getD .null),
      ("mode", .str scene.mode)] }).unlockConversation scene.cid

/-- The last part of `_advance_run`, for the text of a whole reply. -/
def answerRun (py : Python) (req : CallbackRequest) (cb : AiCallback) (pk : RunId) (run : AiRun)
    (text : String) (conv : AiConversation) : Req Unit := do
  let candidateId ← Txn.exec fun s => s.createCandidate (fun t => py.sha256 (encode t)) run conv text
    none none none req.minted req.now
  Txn.write fun s => (s.updateRun pk fun r => { r with
    expectedSeq := cb.sequence + 1
    status := .completed
    candidateId := some candidateId
    completedAt := some req.now }).unlockConversation run.conversationId

/-- The last writes of a transaction, which fails with them. -/
def lastly (m : Req Unit) (s : ControlPlane) (locks : List RunLock) (effect : Effect) :
    Move ControlPlane RunLock Unit RunPoint :=
  match m.answer s with
  | .error _ => .rollback
  | .ok () => .go locks m.commit (.ending effect)

def rowLock (pk : RunId) : List RunLock := [.trigger (.run pk)]

/-- The uuid of the run that the next statement inserts, which has a unique key. -/
def TriggerPoint.inserts : TriggerPoint → Option String
  | .creating req _ _ => some (req.out.uuid 3)
  | _ => none

def runNext : RunPoint → ControlPlane → ℕ → Move ControlPlane RunLock Unit RunPoint
  | .triggering point, s, n =>
    if point.inserts.any fun uuid => (s.runs.first? fun r => r.uuid = uuid).isSome then .rollback
    else
      match triggerNext point s n with
      | .go locks write next =>
        .go (point.inserts.toList.map .uuid ++ locks.map .trigger) write (.triggering next)
      | .commit _ => .commit ()
      | .rollback => .rollback
  | .accepting py req, s, _ =>
    match s.acceptCallback py req with
    | .error _ => .rollback
    | .ok (b, fields) => .go [] id (.linking py req b fields)
  | .linking py req b fields, s, _ =>
    .go [] id (.storing py req b fields (s.linkRun fields.sessionId fields.replyTo))
  | .storing py req b fields run, s, _ =>
    let cb := fields.row b (run.map Prod.fst) (py.sha256 req.body) req.now
    if !fields.fits || s.seenCallback b fields then .rollback
    else .go [.segment b fields.sessionId fields.replyTo fields.sequence]
      (fun s => { s with callbacks := s.callbacks.add cb })
      (match run with
      | none => .ending {}
      | some (pk, run) => .advancing py req cb pk run)
  | .advancing py req cb pk run, s, _ =>
    if cb.sequence ≠ run.expectedSeq then
      if cb.isFinal then
        .go (rowLock pk) (fun s => (s.updateRun pk fun r => { r with
            status := .incomplete
            lastError := some s!"gap: expected_seq={run.expectedSeq}, got {cb.sequence}"
            completedAt := some req.now }).unlockConversation run.conversationId)
          (.ending { moved := [(pk, .incomplete)] })
      else .go [] id (.ending {})
    else if cb.isFinal then
      match s.replyText pk cb.payload, s.conversation run.conversationId with
      | some text, some conv => .go [] id (.answering py req cb pk run text conv)
      | _, _ => .rollback
    else
      .go (rowLock pk)
        (fun s => s.updateRun pk fun r => { r with expectedSeq := cb.sequence + 1, status := .running })
        (.ending { moved := [(pk, .running)] })
  | .answering py req cb pk run text conv, s, _ =>
    lastly (answerRun py req cb pk run text conv) s (rowLock pk)
      { moved := [(pk, .completed)], speaks := some (pk, run.uuid) }
  | .fetching out pk, s, _ =>
    match s.run pk with
    | none => .go [] id (.ending {})
    | some run =>
      if run.status ≠ .pending then .go [] id (.ending {}) else .go [] id (.casting out pk run)
  | .casting out pk run, s, _ =>
    match s.scene run with
    | none =>
      .go (rowLock pk) (fun s => s.giveUp pk run.conversationId "binding_inactive" out.now)
        (.ending { moved := [(pk, .cancelled)] })
    | some (conv, binding, group) =>
      let obj := run.request out.python conv
      let (before, after) := run.heard obj.mode binding (group.map Prod.snd)
      if isStale obj.mode (group.map Prod.snd) after then
        .go (rowLock pk) (fun s => s.giveUp pk run.conversationId "stale" out.now)
          (.ending { moved := [(pk, .cancelled)] })
      else
        match s.promptOf out obj binding run before after group with
        | none =>
          lastly ((failRun pk run.conversationId "provider_not_configured").map fun _ => ()) s
            (rowLock pk) { moved := [(pk, .failed)] }
        | some prompt => .go [] id (.refreshing out pk
          ⟨obj.mode, run.conversationId, conv, prompt, group.map Prod.snd⟩)
  | .refreshing out pk scene, s, _ =>
    if !((s.runs.row? pk).any fun r => r.status = .pending) then .go [] id (.ending {})
    else .go [] id (.finishing out pk scene)
  | .finishing out pk scene, s, _ =>
    match out.generate scene.prompt with
    | .error err =>
      lastly ((failRun pk scene.cid err).map fun _ => ()) s (rowLock pk) { moved := [(pk, .failed)] }
    | .ok (text, quote) =>
      lastly (speak out pk scene text quote) s (rowLock pk)
        { moved := [(pk, .completed)], speaks := some (pk, scene.prompt.run.uuid) }
  | .checking out pk, s, _ =>
    match s.run pk with
    | none => .rollback
    | some run => if !run.status.active then .rollback else .go [] id (.cancelling out pk run)
  | .cancelling out pk run, _, _ =>
    .go (rowLock pk) (fun s => (s.updateRun pk fun r => { r with
        status := .cancelled
        completedAt := some out.now }).unlockConversation run.conversationId)
      (.ending { moved := [(pk, .cancelled)] })
  | .collecting out, s, _ =>
    .go [] id (.expiring out ((s.runsOf none none none).filter fun r => r.2.overdue out.now) {})
  | .expiring _ [] effect, _, _ => .go [] id (.ending effect)
  | .expiring out ((pk, run) :: due) effect, _, _ =>
    .go (rowLock pk) (fun s => s.expire pk run.conversationId out.now)
      (.expiring out due { effect with moved := (pk, .incomplete) :: effect.moved })
  | .ending _, _, _ => .commit ()

def RunRequest.start : RunRequest → RunPoint
  | .trigger req => .triggering (.reading req)
  | .callback py req => .accepting py req
  | .deferred out pk => .fetching out pk
  | .cancel out pk => .checking out pk
  | .sweep out => .collecting out

def running : Program RunRequest ControlPlane RunLock Unit RunPoint where
  start := RunRequest.start
  next := runNext

/-! ## Each transaction on its own -/

section Alone

variable {s : ControlPlane} {n : ℕ} {out : Outside} {pk : RunId}

theorem ending_alone {effect : Effect} : running.Alone (.ending effect) s n (some s) := .commit rfl

/-- The last writes of a transaction succeed or fail as one. -/
theorem alone_of_lastly {point : RunPoint} {m : Req Unit} {locks : List RunLock} {effect : Effect}
    (h : runNext point s n = lastly m s locks effect) : running.Alone point s n (m.ended s) := by
  unfold lastly at h
  rcases Txn.ended_cases (m := m) (s := s) with ⟨hended, e, herror⟩ | ⟨u, hended, hanswer⟩
  · rw [herror] at h
    rw [hended]
    exact .rollback h
  · rw [hanswer] at h
    rw [hended]
    exact .go h ending_alone

theorem cancel_alone : running.Alone (.checking out pk) s n ((cancelRun out pk).ended s) := by
  unfold cancelRun
  rw [Txn.ended_read_bind]
  cases hrun : s.run pk with
  | none => exact .rollback (by simp only [running, runNext, hrun])
  | some run =>
    unfold orRefuse
    rw [Txn.ended_ret_bind]
    cases hactive : run.status.active with
    | false => exact .rollback (by simp [running, runNext, hrun, hactive])
    | true =>
      have hcheck : runNext (.checking out pk) s n = .go [] id (.cancelling out pk run) := by
        simp [runNext, hrun, hactive]
      exact .go hcheck (.go rfl ending_alone)

theorem sweep_alone : running.Alone (.collecting out) s n ((sweepDeadlines out).ended s) := by
  have hexpire (due : List (RunId × AiRun)) (effect : Effect) (s : ControlPlane) (n : ℕ) :
      running.Alone (.expiring out due effect) s n
        (some (due.foldl (fun s r => s.expire r.1 r.2.conversationId out.now) s)) := by
    induction due generalizing effect s n with
    | nil => exact .go rfl ending_alone
    | cons r due ih => exact .go rfl (ih _ _ _)
  have hended : (sweepDeadlines out).ended s =
      some (((s.runsOf none none none).filter fun r => r.2.overdue out.now).foldl
        (fun s r => s.expire r.1 r.2.conversationId out.now) s) :=
    Txn.ended_map.trans (Txn.ended_each_write _ s)
  rw [hended]
  exact .go rfl (hexpire _ _ _ _)

theorem advancing_alone {py : Python} {req : CallbackRequest} {cb : AiCallback} {run : AiRun} :
    running.Alone (.advancing py req cb pk run) s n
      (s.advanceRun py pk run cb req.minted req.now).toOption := by
  unfold ControlPlane.advanceRun
  split_ifs with hseq hfinal hfinal
  · have hnext : runNext (.advancing py req cb pk run) s n = .go (rowLock pk)
        (fun s => (s.updateRun pk fun r => { r with
          status := .incomplete
          lastError := some s!"gap: expected_seq={run.expectedSeq}, got {cb.sequence}"
          completedAt := some req.now }).unlockConversation run.conversationId)
        (.ending { moved := [(pk, .incomplete)] }) := by
      simp [runNext, hseq, hfinal]
    exact .go hnext ending_alone
  · have hnext : runNext (.advancing py req cb pk run) s n = .go [] id (.ending {}) := by
      simp [runNext, hseq, hfinal]
    exact .go hnext ending_alone
  · cases htext : s.replyText pk cb.payload with
    | none => exact .rollback (by simp [running, runNext, hseq, hfinal, htext])
    | some text =>
      cases hconv : s.conversation run.conversationId with
      | none => exact .rollback (by simp [running, runNext, hseq, hfinal, htext, hconv])
      | some conv =>
        have hnext : runNext (.advancing py req cb pk run) s n =
            .go [] id (.answering py req cb pk run text conv) := by
          simp [runNext, hseq, hfinal, htext, hconv]
        have hanswer : running.Alone (.answering py req cb pk run text conv) s (n + 1)
            ((answerRun py req cb pk run text conv).ended s) := alone_of_lastly rfl
        exact .go hnext hanswer
  · have hnext : runNext (.advancing py req cb pk run) s n = .go (rowLock pk)
        (fun s => s.updateRun pk fun r => { r with expectedSeq := cb.sequence + 1, status := .running })
        (.ending { moved := [(pk, .running)] }) := by
      simp [runNext, hseq, hfinal]
    exact .go hnext ending_alone

theorem callback_alone {py : Python} {req : CallbackRequest} :
    ∃ r, running.Alone (.accepting py req) s n r ∧ r.getD s = s.afterCallback py req := by
  unfold ControlPlane.afterCallback
  cases haccept : s.acceptCallback py req with
  | error e =>
    refine ⟨none, .rollback (by simp only [running, runNext, haccept]), ?_⟩
    unfold ControlPlane.handleCallback
    rw [haccept]
    rfl
  | ok accepted =>
    obtain ⟨b, fields⟩ := accepted
    have hlinking : runNext (.accepting py req) s n = .go [] id (.linking py req b fields) := by
      simp only [runNext, haccept]
    rw [ControlPlane.handleCallback_of_accept haccept]
    cases hfits : fields.fits with
    | false =>
      refine ⟨none, .go hlinking (.go rfl (.rollback ?_)), rfl⟩
      simp [running, runNext, hfits]
    | true =>
      cases hseen : s.seenCallback b fields with
      | true =>
        refine ⟨none, .go hlinking (.go rfl (.rollback ?_)), rfl⟩
        simp [running, runNext, hseen]
      | false =>
        have hstoring : ∀ link, runNext (.storing py req b fields link) s (n + 1 + 1) =
            .go [.segment b fields.sessionId fields.replyTo fields.sequence]
              (fun s => s.store (fields.row b (link.map Prod.fst) (py.sha256 req.body) req.now))
              (match link with
              | none => .ending {}
              | some (pk, run) => .advancing py req
                (fields.row b (link.map Prod.fst) (py.sha256 req.body) req.now) pk run) := by
          intro link
          simp only [runNext, hfits, hseen]
          rfl
        have hlink : runNext (.linking py req b fields) s (n + 1) =
            .go [] id (.storing py req b fields (s.linkRun fields.sessionId fields.replyTo)) := rfl
        unfold ControlPlane.storedCallback
        generalize s.linkRun fields.sessionId fields.replyTo = link at hlink ⊢
        cases link with
        | none => exact ⟨some _, .go hlinking (.go hlink (.go (hstoring none) ending_alone)), rfl⟩
        | some linked =>
          obtain ⟨pk, run⟩ := linked
          refine ⟨_, .go hlinking (.go hlink (.go (hstoring (some (pk, run))) advancing_alone)), ?_⟩
          simp only [Option.map_some, Bool.not_true, Bool.false_eq_true, if_false]
          generalize fields.row b (some pk) (py.sha256 req.body) req.now = cb
          change ((s.store cb).advanceRun py pk run cb req.minted req.now).toOption.getD s = _
          cases (s.store cb).advanceRun py pk run cb req.minted req.now <;> rfl

theorem openaiExecute_ended {obj : AiTrigger} {binding : AiBinding} {cid : ConversationId}
    {conv : AiConversation} {run : AiRun} {context after : List Json}
    {group : Option (GroupId × AiGroup)} :
    (openaiExecute out obj binding cid conv pk run context after group).ended s =
      match s.promptOf out obj binding run context after group with
      | none => (failRun pk cid "provider_not_configured").ended s
      | some prompt => (openaiFinish out prompt group pk obj.mode cid conv).ended s := by
  unfold openaiExecute ControlPlane.promptOf
  dsimp only
  split
  · rfl
  · split <;> rfl

theorem openaiFinish_ended {prompt : Prompt} {group : Option (GroupId × AiGroup)} {mode : String}
    {cid : ConversationId} {conv : AiConversation} :
    (openaiFinish out prompt group pk mode cid conv).ended s =
      if (s.runs.row? pk).any (fun r => r.status = .pending) then
        match out.generate prompt with
        | .error err => (failRun pk cid err).ended s
        | .ok (text, quote) =>
          (speak out pk ⟨mode, cid, conv, prompt, group.map Prod.snd⟩ text quote).ended s
      else some s := by
  unfold openaiFinish
  rw [Txn.ended_read_bind]
  cases hpending : (s.runs.row? pk).any fun r => r.status = .pending with
  | false => rfl
  | true =>
    simp only [Bool.not_true, Bool.false_eq_true, if_false, if_true]
    cases out.generate prompt with
    | error err => rfl
    | ok reply => exact Txn.ended_bind_bind_read

theorem refreshing_alone {prompt : Prompt} {group : Option (GroupId × AiGroup)} {mode : String}
    {cid : ConversationId} {conv : AiConversation} :
    running.Alone (.refreshing out pk ⟨mode, cid, conv, prompt, group.map Prod.snd⟩) s n
      ((openaiFinish out prompt group pk mode cid conv).ended s) := by
  rw [openaiFinish_ended]
  generalize hscene : (⟨mode, cid, conv, prompt, group.map Prod.snd⟩ : Scene) = scene
  have hprompt : scene.prompt = prompt := by rw [← hscene]
  have hcid : scene.cid = cid := by rw [← hscene]
  cases hpending : (s.runs.row? pk).any fun r => r.status = .pending with
  | false =>
    have hrefresh : runNext (.refreshing out pk scene) s n = .go [] id (.ending {}) := by
      simp [runNext, hpending]
    exact .go hrefresh ending_alone
  | true =>
    have hrefresh : runNext (.refreshing out pk scene) s n = .go [] id (.finishing out pk scene) := by
      simp [runNext, hpending]
    rw [if_pos rfl]
    refine .go hrefresh ?_
    cases hreply : out.generate prompt with
    | error err =>
      have hfinish : runNext (.finishing out pk scene) s (n + 1) = lastly
          ((failRun pk cid err).map fun _ => ()) s (rowLock pk) { moved := [(pk, .failed)] } := by
        simp only [runNext, hprompt, hcid, hreply]
      have halone := alone_of_lastly hfinish
      rw [Txn.ended_map] at halone
      exact halone
    | ok reply =>
      obtain ⟨text, quote⟩ := reply
      have hfinish : runNext (.finishing out pk scene) s (n + 1) =
        lastly (speak out pk scene text quote) s
          (rowLock pk) { moved := [(pk, .completed)], speaks := some (pk, scene.prompt.run.uuid) } := by
        simp only [runNext, hprompt, hreply]
      exact alone_of_lastly hfinish

theorem deferred_alone : running.Alone (.fetching out pk) s n ((runDeferredOpenai out pk).ended s) := by
  unfold runDeferredOpenai
  rw [Txn.ended_read_bind]
  cases hrun : s.run pk with
  | none =>
    have hfetch : runNext (.fetching out pk) s n = .go [] id (.ending {}) := by simp only [runNext, hrun]
    exact .go hfetch ending_alone
  | some run =>
    dsimp only
    by_cases hpending : run.status = .pending
    · have hfetch : runNext (.fetching out pk) s n = .go [] id (.casting out pk run) := by
        simp [runNext, hrun, hpending]
      rw [if_neg (not_not.mpr hpending), Txn.ended_read_bind]
      refine .go hfetch ?_
      cases hscene : s.scene run with
      | none =>
        have hcast : runNext (.casting out pk run) s (n + 1) = .go (rowLock pk)
            (fun s => s.giveUp pk run.conversationId "binding_inactive" out.now)
            (.ending { moved := [(pk, .cancelled)] }) := by simp only [runNext, hscene]
        exact .go hcast ending_alone
      | some scene =>
        obtain ⟨conv, binding, group⟩ := scene
        dsimp only
        generalize hobj : run.request out.python conv = obj
        generalize hheard : run.heard obj.mode binding (group.map Prod.snd) = heard
        obtain ⟨before, after⟩ := heard
        dsimp only
        split
        · rename_i hstale
          have hcast : runNext (.casting out pk run) s (n + 1) = .go (rowLock pk)
              (fun s => s.giveUp pk run.conversationId "stale" out.now)
              (.ending { moved := [(pk, .cancelled)] }) := by
            simp only [runNext, hscene, hobj, hheard, hstale, if_true]
          exact .go hcast ending_alone
        · rename_i hfollows
          rw [Txn.ended_map, openaiExecute_ended]
          rw [Bool.not_eq_true] at hfollows
          cases hprompt : s.promptOf out obj binding run before after group with
          | none =>
            have hcast : runNext (.casting out pk run) s (n + 1) = lastly
                ((failRun pk run.conversationId "provider_not_configured").map fun _ => ()) s
                (rowLock pk) { moved := [(pk, .failed)] } := by
              simp only [runNext, hscene, hobj, hheard, hfollows, hprompt, Bool.false_eq_true, if_false]
            have halone := alone_of_lastly hcast
            rw [Txn.ended_map] at halone
            exact halone
          | some prompt =>
            have hcast : runNext (.casting out pk run) s (n + 1) = .go [] id (.refreshing out pk
                ⟨obj.mode, run.conversationId, conv, prompt, group.map Prod.snd⟩) := by
              simp only [runNext, hscene, hobj, hheard, hfollows, hprompt, Bool.false_eq_true, if_false]
            exact .go hcast refreshing_alone
    · have hfetch : runNext (.fetching out pk) s n = .go [] id (.ending {}) := by
        simp [runNext, hrun, hpending]
      rw [if_pos hpending]
      exact .go hfetch ending_alone

end Alone

end TgPlatform
