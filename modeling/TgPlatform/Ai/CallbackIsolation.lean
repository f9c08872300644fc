import TgPlatform.Ai.Callbacks

/-! # What a callback can reach

A run belongs to the binding of its conversation, and what a run has produced
belongs to it too. The door knows the binding that signed, but it links by the
session that the body names.
-/

namespace TgPlatform

namespace ControlPlane

open Slots

variable (s : ControlPlane) (b : BindingId)

def OwnsRun (run : AiRun) : Prop :=
  ∃ conv, s.conversations.row? run.conversationId = some conv ∧ conv.bindingId = b

def OwnsCandidate (candidate : AiCandidate) : Prop :=
  ∃ pk run, s.runs.row? pk = some run ∧ candidate.agentRunId = some run.uuid ∧ s.OwnsRun b run

def OwnsApproval (approval : Approval) : Prop :=
  ∃ candidate, s.candidates.row? approval.candidateId = some candidate ∧
    s.OwnsCandidate b candidate

def OwnsJob (job : DeliveryJob) : Prop :=
  ∃ pk candidate, s.candidates.row? pk = some candidate ∧ s.OwnsCandidate b candidate ∧
    job.routeId = s!"ai_candidate:{candidate.uuid}"

/-- All that differs between two states belongs to conversations of the binding. -/
structure Isolated (b : BindingId) (s s' : ControlPlane) : Prop where
  runs : Within (s.OwnsRun b) s.runs s'.runs
  conversations : Within (fun conv => conv.bindingId = b) s.conversations s'.conversations
  candidates : Within (s'.OwnsCandidate b) s.candidates s'.candidates
  approvals : Within (s'.OwnsApproval b) s.approvals s'.approvals
  jobs : Within (s'.OwnsJob b) s.jobs s'.jobs
  callbacks : Within (fun cb => cb.bindingId = b) s.callbacks s'.callbacks
  others : s' = { s with
    runs := s'.runs, conversations := s'.conversations, candidates := s'.candidates
    approvals := s'.approvals, jobs := s'.jobs, callbacks := s'.callbacks }

variable {s b} {py : Python} {req : CallbackRequest} {s' : ControlPlane} {pk : RunId} {run : AiRun}
  {cb : AiCallback} {minted : Minted} {now : Time}

def store (s : ControlPlane) (cb : AiCallback) : ControlPlane :=
  { s with callbacks := s.callbacks.add cb }

def storedCallback (s : ControlPlane) (py : Python) (req : CallbackRequest) (b : BindingId)
    (fields : CallbackFields) : AiCallback :=
  fields.row b ((s.linkRun fields.sessionId fields.replyTo).map Prod.fst) (py.sha256 req.body)
    req.now

/-- The callback moves its run on: it is the next segment, and can be joined with the others if
it is the last one, or it is the last one and the next segment is missing. -/
def Advances (s : ControlPlane) (pk : RunId) (run : AiRun) (cb : AiCallback) : Prop :=
  if cb.sequence = run.expectedSeq then
    cb.isFinal = true → (s.replyText pk cb.payload).isSome ∧
      (s.conversation run.conversationId).isSome
  else cb.isFinal = true

/-- The callback is accepted and new, and the session that it names links it to a run of another
binding, which it moves on. -/
def AdvancesForeign (s : ControlPlane) (py : Python) (req : CallbackRequest) (b : BindingId) : Prop :=
  ∃ fields pk run, s.acceptCallback py req = .ok (b, fields) ∧ fields.fits = true ∧
    s.seenCallback b fields = false ∧
    s.linkRun fields.sessionId fields.replyTo = some (pk, run) ∧ ¬ s.OwnsRun b run ∧
    (s.store (s.storedCallback py req b fields)).Advances pk run
      (s.storedCallback py req b fields)

/-! ## One run -/

theorem linkRun_some {sessionId replyTo : String} (h : s.linkRun sessionId replyTo = some (pk, run)) :
    s.runs.row? pk = some run ∧ run.status.active = true := by
  unfold linkRun at h
  split at h
  · cases h
  · obtain ⟨hrow, hq⟩ := first?_eq_some h
    simp only [Bool.and_eq_true] at hq
    exact ⟨hrow, hq.1.2⟩

theorem createCandidate_unapproved {sha256 : String → String} {conv : AiConversation}
    {text : String} {replyTo : Option ℤ} :
    s.createCandidate sha256 run conv text none none replyTo minted now =
      .ok (s.candidates.size, { s with
        candidates := s.candidates.add (run.candidate conv sha256 text replyTo minted now)
        approvals := s.approvals.add
          (s.approvalOf (run.candidate conv sha256 text replyTo minted now) false minted now) }) :=
  rfl

inductive Advanced (s : ControlPlane) (py : Python) (pk : RunId) (run : AiRun) (cb : AiCallback)
    (minted : Minted) (now : Time) : ControlPlane → Prop
  | stored : cb.sequence ≠ run.expectedSeq → cb.isFinal = false →
      Advanced s py pk run cb minted now s
  | gap (err : Option String) : cb.sequence ≠ run.expectedSeq → cb.isFinal = true →
      Advanced s py pk run cb minted now ((s.updateRun pk fun r => { r with
        status := .incomplete
        lastError := err
        completedAt := some now }).unlockConversation run.conversationId)
  | next : cb.sequence = run.expectedSeq → cb.isFinal = false →
      Advanced s py pk run cb minted now (s.updateRun pk fun r => { r with
        expectedSeq := cb.sequence + 1
        status := .running })
  | complete (text : String) (conv : AiConversation) : cb.sequence = run.expectedSeq →
      cb.isFinal = true → s.replyText pk cb.payload = some text →
      s.conversation run.conversationId = some conv →
      Advanced s py pk run cb minted now (((s.withCandidate
        (run.candidate conv (fun t => py.sha256 (encode t)) text none minted now)
        (s.approvalOf (run.candidate conv (fun t => py.sha256 (encode t)) text none minted now) false
          minted now)).updateRun pk fun r => { r with
            expectedSeq := cb.sequence + 1
            status := .completed
            candidateId := some s.candidates.size
            completedAt := some now }).unlockConversation run.conversationId)

theorem advanced_of_advanceRun (h : s.advanceRun py pk run cb minted now = .ok s') :
    Advanced s py pk run cb minted now s' := by
  unfold advanceRun at h
  split_ifs at h with hseq hfinal hfinal
  · cases h
    exact .gap _ hseq hfinal
  · cases h
    exact .stored hseq (by simpa using hfinal)
  · cases htext : s.replyText pk cb.payload with
    | none => simp [htext] at h
    | some text =>
      cases hconv : s.conversation run.conversationId with
      | none => simp [htext, hconv] at h
      | some conv =>
        simp only [htext, hconv, createCandidate_unapproved] at h
        cases h
        exact .complete text conv (not_not.mp hseq) hfinal htext hconv
  · cases h
    exact .next (not_not.mp hseq) (by simpa using hfinal)

structure Moved (s : ControlPlane) (pk : RunId) (run : AiRun) (s' : ControlPlane) : Prop where
  runs : ∃ f : AiRun → AiRun, s'.runs = s.runs.modify pk f ∧
    (∀ r, (f r).conversationId = r.conversationId ∧ (f r).uuid = r.uuid) ∧
    (run.status.active = true → f run ≠ run)
  conversations : s'.conversations = s.conversations ∨
    s'.conversations = (s.unlockConversation run.conversationId).conversations
  produced : s'.candidates = s.candidates ∧ s'.approvals = s.approvals ∨
    ∃ candidate : AiCandidate, ∃ approval : Approval,
      candidate.agentRunId = some run.uuid ∧ approval.candidateId = s.candidates.size ∧
      s'.candidates = s.candidates.add candidate ∧ s'.approvals = s.approvals.add approval
  others : s' = { s with
    runs := s'.runs, conversations := s'.conversations, candidates := s'.candidates
    approvals := s'.approvals }

theorem advanceRun_moves (h : s.advanceRun py pk run cb minted now = .ok s') :
    ¬ s.Advances pk run cb ∧ s' = s ∨ s.Advances pk run cb ∧ s.Moved pk run s' := by
  unfold Advances
  cases advanced_of_advanceRun h with
  | stored hseq hmore => exact Or.inl ⟨by simp [hseq, hmore], rfl⟩
  | gap err hseq hfinal =>
    refine Or.inr ⟨by simp [hseq, hfinal], ⟨_, rfl, fun r => ⟨rfl, rfl⟩, fun hactive heq => ?_⟩,
      Or.inr rfl, Or.inl ⟨rfl, rfl⟩, rfl⟩
    rw [← congrArg AiRun.status heq] at hactive
    cases hactive
  | next hseq hmore =>
    refine Or.inr ⟨by simp [hseq, hmore], ⟨_, rfl, fun r => ⟨rfl, rfl⟩, fun _ heq => ?_⟩, Or.inl rfl,
      Or.inl ⟨rfl, rfl⟩, rfl⟩
    have hexpected := congrArg AiRun.expectedSeq heq
    dsimp only at hexpected
    omega
  | complete text conv hseq hfinal htext hconv =>
    refine Or.inr ⟨by simp [hseq, htext, hconv], ⟨_, rfl, fun r => ⟨rfl, rfl⟩, fun hactive heq => ?_⟩,
      Or.inr rfl, Or.inr ⟨_, _, rfl, rfl, rfl, rfl⟩, rfl⟩
    rw [← congrArg AiRun.status heq] at hactive
    cases hactive

theorem advanceRun_ok (py : Python) (minted : Minted) (now : Time) (h : s.Advances pk run cb) :
    ∃ s', s.advanceRun py pk run cb minted now = .ok s' := by
  unfold Advances at h
  unfold advanceRun
  split_ifs with hseq hfinal hfinal
  · exact ⟨_, rfl⟩
  · exact ⟨_, rfl⟩
  · rw [not_not] at hseq
    rw [if_pos hseq] at h
    obtain ⟨htext, hconv⟩ := h hfinal
    obtain ⟨text, htext⟩ := Option.isSome_iff_exists.mp htext
    obtain ⟨conv, hconv⟩ := Option.isSome_iff_exists.mp hconv
    simp only [htext, hconv, createCandidate_unapproved]
    exact ⟨_, rfl⟩
  · exact ⟨_, rfl⟩

section Frames

theorem Isolated.refl : Isolated b s s :=
  ⟨.refl, .refl, .refl, .refl, .refl, .refl, rfl⟩

theorem ownsRun_of_moved (h : s.Moved pk run s') {r r' : AiRun}
    (hr : r'.conversationId = r.conversationId) (howns : s.OwnsRun b r) : s'.OwnsRun b r' := by
  obtain ⟨conv, hconv, hb⟩ := howns
  unfold OwnsRun
  rw [hr]
  rcases h.conversations with hsame | hopened
  · rw [hsame]
    exact ⟨conv, hconv, hb⟩
  · simp only [hopened, unlockConversation, row?_modify, hconv]
    split
    · exact ⟨_, rfl, hb⟩
    · exact ⟨_, rfl, hb⟩

theorem Moved.isolated (h : s.Moved pk run s') (hrow : s.runs.row? pk = some run)
    (howns : s.OwnsRun b run) : Isolated b s s' := by
  obtain ⟨f, hruns, hf, -⟩ := h.runs
  have hrun : s'.runs.row? pk = some (f run) := by rw [hruns, row?_modify_self, hrow, Option.map_some]
  have hown : ∀ candidate : AiCandidate, candidate.agentRunId = some run.uuid →
      s'.OwnsCandidate b candidate := by
    intro candidate hcandidate
    refine ⟨pk, f run, hrun, ?_, ownsRun_of_moved h (hf run).1 howns⟩
    rw [hcandidate, (hf run).2]
  have hcallbacks : s'.callbacks = s.callbacks := by rw [h.others]
  have hjobs : s'.jobs = s.jobs := by rw [h.others]
  have hconversations : Within (fun conv => conv.bindingId = b) s.conversations
      s'.conversations := by
    rcases h.conversations with hsame | hopened
    · rw [hsame]
      exact .refl
    · rw [hopened]
      refine .modify fun conv hconv => ?_
      obtain ⟨conv', hconv', hb⟩ := howns
      obtain rfl := Option.some.inj (hconv.symm.trans hconv')
      exact ⟨hb, hb⟩
  have hrunsWithin : Within (s.OwnsRun b) s.runs s'.runs := by
    rw [hruns]
    refine .modify fun r hr => ?_
    obtain rfl := Option.some.inj (hrow.symm.trans hr)
    refine ⟨howns, ?_⟩
    unfold OwnsRun
    rw [(hf run).1]
    exact howns
  have hothers : s' = { s with
      runs := s'.runs, conversations := s'.conversations, candidates := s'.candidates
      approvals := s'.approvals, jobs := s'.jobs, callbacks := s'.callbacks } := by
    rw [hcallbacks, hjobs]
    exact h.others
  refine ⟨hrunsWithin, hconversations, ?_, ?_, ?_, ?_, hothers⟩
  · rcases h.produced with ⟨hsame, -⟩ | ⟨candidate, approval, hrunId, -, hadded, -⟩
    · rw [hsame]
      exact .refl
    · rw [hadded]
      exact .add (hown candidate hrunId)
  · rcases h.produced with ⟨-, hsame⟩ | ⟨candidate, approval, hrunId, hpk, hadded, happroval⟩
    · rw [hsame]
      exact .refl
    · rw [happroval]
      refine .add ⟨candidate, ?_, hown candidate hrunId⟩
      rw [hadded, hpk, row?_add, if_pos rfl]
  · rw [hjobs]
    exact .refl
  · rw [hcallbacks]
    exact .refl

theorem Isolated.of_store (cb : AiCallback) (hcb : cb.bindingId = b) (h : Isolated b (s.store cb) s') :
    Isolated b s s' where
  runs := h.runs
  conversations := h.conversations
  candidates := h.candidates
  approvals := h.approvals
  jobs := h.jobs
  callbacks := Within.trans (.add hcb) h.callbacks
  others := h.others

end Frames

/-! ## One request -/

theorem acceptCallback_eq_ok {fields : CallbackFields} (h : s.acceptCallback py req = .ok (b, fields)) :
    (∃ binding, s.bindingByUuid req.bindingUuid = some (b, binding)) ∧
      callbackFields py req.body = .ok fields := by
  unfold acceptCallback at h
  cases hbinding : s.bindingByUuid req.bindingUuid with
  | none => simp [hbinding] at h
  | some found =>
    obtain ⟨b', binding⟩ := found
    simp only [hbinding, bind, Except.bind, pure, Except.pure] at h
    split at h
    · cases h
    · split at h
      · cases h
      · split at h
        · cases h
        · split at h
          · cases h
          · split at h
            · cases h
            · rename_i hread
              cases h
              exact ⟨⟨binding, rfl⟩, hread⟩

theorem handleCallback_of_accept {fields : CallbackFields}
    (h : s.acceptCallback py req = .ok (b, fields)) : s.handleCallback py req =
      if !fields.fits then .error (.uncaught "DBAPIError")
      else if s.seenCallback b fields then .ok (s, .dedup)
      else match s.linkRun fields.sessionId fields.replyTo with
        | none => .ok (s.store (s.storedCallback py req b fields), .ok)
        | some (pk, run) =>
          ((s.store (s.storedCallback py req b fields)).advanceRun py pk run
            (s.storedCallback py req b fields) req.minted req.now).bind
              fun advanced => .ok (advanced, .ok) := by
  unfold handleCallback
  rw [h]
  rfl

/-- A request either writes nothing, or it stores its callback and moves on the run that the
callback is linked to. -/
theorem afterCallback_cases : s.afterCallback py req = s ∨
    ∃ b fields, s.acceptCallback py req = .ok (b, fields) ∧ fields.fits = true ∧
      s.seenCallback b fields = false ∧
      (s.linkRun fields.sessionId fields.replyTo = none ∧
        s.afterCallback py req = s.store (s.storedCallback py req b fields) ∨
      ∃ pk run s', s.linkRun fields.sessionId fields.replyTo = some (pk, run) ∧
        (s.store (s.storedCallback py req b fields)).advanceRun py pk run
          (s.storedCallback py req b fields) req.minted req.now = .ok s' ∧
        s.afterCallback py req = s') := by
  unfold afterCallback
  cases haccept : s.acceptCallback py req with
  | error e =>
    unfold handleCallback
    rw [haccept]
    exact Or.inl rfl
  | ok accepted =>
    obtain ⟨b, fields⟩ := accepted
    rw [handleCallback_of_accept haccept]
    cases hfits : fields.fits with
    | false => exact Or.inl rfl
    | true =>
      cases hseen : s.seenCallback b fields with
      | true => exact Or.inl rfl
      | false =>
        cases hlink : s.linkRun fields.sessionId fields.replyTo with
        | none => exact Or.inr ⟨b, fields, rfl, hfits, hseen, Or.inl ⟨hlink, rfl⟩⟩
        | some linked =>
          obtain ⟨pk, run⟩ := linked
          dsimp only
          cases hadvance : (s.store (s.storedCallback py req b fields)).advanceRun py pk run
              (s.storedCallback py req b fields) req.minted req.now with
          | error e => exact Or.inl rfl
          | ok s' =>
            exact Or.inr ⟨b, fields, rfl, hfits, hseen,
              Or.inr ⟨pk, run, s', hlink, hadvance, rfl⟩⟩

/-- A callback under the secret of a binding changes nothing beyond what belongs to conversations
of that binding, unless the session in its body links it to a run of another one that it moves
on. -/
theorem callback_isolated_iff {binding : AiBinding}
    (h : s.bindingByUuid req.bindingUuid = some (b, binding)) :
    Isolated b s (s.afterCallback py req) ↔ ¬ s.AdvancesForeign py req b := by
  constructor
  · rintro hisolated ⟨fields, pk, run, haccept, hfits, hseen, hlink, hforeign, hadvances⟩
    obtain ⟨s', hs'⟩ := advanceRun_ok py req.minted req.now hadvances
    have hafter : s.afterCallback py req = s' := by
      unfold afterCallback
      rw [handleCallback_of_accept haccept, hfits, hseen, hlink]
      dsimp only
      rw [hs']
      rfl
    rw [hafter] at hisolated
    obtain ⟨hrow, hactive⟩ := linkRun_some hlink
    obtain ⟨-, hmoved⟩ := (advanceRun_moves hs').resolve_left fun h => h.1 hadvances
    obtain ⟨f, hruns, -, hne⟩ := hmoved.runs
    refine hforeign (hisolated.runs.of_changed hrow ?_)
    rw [hruns]
    change (s.runs.modify pk f).row? pk ≠ some run
    rw [row?_modify_self, hrow, Option.map_some]
    intro heq
    exact hne hactive (Option.some.inj heq)
  · intro hforeign
    rcases afterCallback_cases with hsame | ⟨b', fields, haccept, hfits, hseen, hcases⟩
    · rw [hsame]
      exact .refl
    · obtain ⟨binding', hb'⟩ := (acceptCallback_eq_ok haccept).1
      obtain ⟨rfl, rfl⟩ := Prod.mk.inj (Option.some.inj (h.symm.trans hb'))
      rcases hcases with ⟨-, hstored⟩ | ⟨pk, run, s', hlink, hadvance, hafter⟩
      · rw [hstored]
        exact .of_store _ rfl .refl
      · rw [hafter]
        refine .of_store (s.storedCallback py req b fields) rfl ?_
        rcases advanceRun_moves hadvance with ⟨-, rfl⟩ | ⟨hadvances, hmoved⟩
        · exact .refl
        · refine hmoved.isolated (linkRun_some hlink).1 ?_
          by_contra howns
          exact hforeign ⟨fields, pk, run, haccept, hfits, hseen, hlink, howns, hadvances⟩

/-- A final segment for the run of session `sess`. -/
def finalSegment : Json := .dict [("session_id", .str "sess"), ("reply_to", .str "in_1"),
  ("sequence", .int 1), ("is_final", .bool true),
  ("message", .list [.dict [("type", .str "Plain"), ("text", .str "hi")]])]

def finalBody : Bytes := encode (
  "\x7b\"session_id\":\"sess\",\"reply_to\":\"in_1\",\"sequence\":1,\"is_final\":true," ++
  "\"message\":[\x7b\"type\":\"Plain\",\"text\":\"hi\"\x7d]\x7d")

def signatureA : String := "30873d3d240de9d606ad0b30b1eabb41590faae3a9393b502542cb55f41abd3d"

def signatureB : String := "8353b6250b1cf5990daeaace7181df3678cd3e6ea8d8abb82f8e725e4201e728"

def python : Python where
  sha256 bytes :=
    if bytes = encode "hi" then "8f434346648f6b96df89dda901c5176b10a6d83961dd3c1ac88b59b2dc327aa4"
    else if bytes = finalBody then
      "3085e3786e0240b2a0f5911ceb34171bb7fac355439badd5afe09a81329a401c"
    else ""
  hmacSha256 key msg :=
    if msg ≠ encode "1700000000." ++ finalBody then ""
    else if key = encode "ka" then signatureA
    else if key = encode "kb" then signatureB
    else ""
  loads bytes := if bytes = finalBody then .ok finalSegment else .error .decode
  parseInt _ := none
  parseFloat s := if s = "1700000000" then some (.finite 1700000000) else none
  repr _ := ""
  environ name := if name = "A" then some "ka" else if name = "B" then some "kb" else none
  isDigit _ := false

def twoBindings : ControlPlane where
  dir := {
    tenants := [], projects := [], accounts := [], memberships := []
    tenant_ids := List.nodup_nil, project_ids := List.nodup_nil, account_ids := List.nodup_nil
    tenant_uuids := List.nodup_nil, project_uuids := List.nodup_nil
    account_uuids := List.nodup_nil }
  bindings := ⟨[
    some { uuid := "a", tenantId := 1, projectId := 1, accountId := 1, botUuid := "", baseUrl := ""
           inboundSecretRef := "", outboundSecretRef := "env:A" },
    some { uuid := "b", tenantId := 2, projectId := 2, accountId := 2, botUuid := "", baseUrl := ""
           inboundSecretRef := "", outboundSecretRef := "env:B" }]⟩
  conversations := ⟨[some {
    uuid := "c", tenantId := 2, projectId := 2, accountId := 2, bindingId := 1, chatId := 7
    sessionId := "sess" }]⟩
  runs := ⟨[some {
    uuid := "r", tenantId := 2, projectId := 2, conversationId := 0, sessionId := "sess"
    triggerSource := .dict [], status := .dispatched, idempotencyKey := "k" }]⟩
  callbacks := .empty
  groups := .empty
  personas := .empty
  scripts := .empty
  privateReplies := .empty
  candidates := .empty
  approvals := .empty
  jobs := .empty
  rules := .empty
  targets := .empty
  versions := .empty
  commands := .empty

def signedBy (uuid signature : String) : CallbackRequest where
  bindingUuid := uuid
  body := finalBody
  timestamp := some "1700000000"
  signature := some ("sha256=" ++ signature)
  clock := 1700000000
  now := 1700000000000000

/-- The second binding completes its own run. -/
theorem callback_isolated_own :
    Isolated 1 twoBindings (twoBindings.afterCallback python (signedBy "b" signatureB)) ∧
      ((twoBindings.afterCallback python (signedBy "b" signatureB)).runs.row? 0).map
        AiRun.status = some .completed := by
  constructor
  · refine (callback_isolated_iff rfl).mpr ?_
    rintro ⟨fields, pk, run, -, -, -, hlink, hforeign, -⟩
    have hrow := mem_all.mpr (linkRun_some hlink).1
    obtain ⟨-, rfl⟩ := Prod.mk.inj (List.mem_singleton.mp hrow)
    exact hforeign ⟨_, rfl, rfl⟩
  · decide +kernel

/-- The first binding completes the run of the second one, with a text of its choice. -/
theorem foreign_run_is_completed : ¬ ∀ (py : Python) (s : ControlPlane)
    (req : CallbackRequest) b binding,
    s.bindingByUuid req.bindingUuid = some (b, binding) →
      Isolated b s (s.afterCallback py req) := by
  intro h
  have hisolated := h python twoBindings (signedBy "a" signatureA) 0 _ rfl
  have hcompleted : ((twoBindings.afterCallback python (signedBy "a" signatureA)).runs.row? 0).map
      AiRun.status = some .completed := by decide +kernel
  have hrow : twoBindings.runs.row? 0 = some _ := rfl
  obtain ⟨conv, hconv, hb⟩ := hisolated.runs.of_changed hrow (by
    intro hsame
    rw [hsame] at hcompleted
    cases hcompleted)
  cases hconv
  cases hb

end ControlPlane

end TgPlatform
