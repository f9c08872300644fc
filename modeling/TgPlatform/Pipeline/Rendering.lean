import TgPlatform.Pipeline.DeadAccounts

/-! # What a message is created from

A send asks the sender's session for one message: one of three requests, built
from the plan and from what the source and the control plane have answered. None
of them names a topic, a forward names no reply either, and an empty processed
text gives way to the source's.
-/

namespace TgPlatform

inductive Creation
  | message (entity : Peer) (text : String) (replyTo : Option ℤ)
  | file (entity : Peer) (parts : MediaParts) (caption : String) (replyTo : Option ℤ)
  | forward (entity messageId fromPeer : ℤ)
  deriving DecidableEq, Repr

namespace Creation

/-- What a session answers to the request: the ids of what it has created. -/
def perform (session : Client) : Creation → Except ClientError (List ℤ)
  | message entity text replyTo => (session.sendMessage entity text replyTo).map fun id => [id]
  | file entity parts caption replyTo =>
    (session.sendFile entity parts caption replyTo).map fun id => [id]
  | forward entity messageId fromPeer => session.forwardMessages entity messageId fromPeer

def replyTo : Creation → Option ℤ
  | message _ _ replyTo | file _ _ _ replyTo => replyTo
  | forward _ _ _ => none

def text : Creation → Option String
  | message _ text _ | file _ _ text _ => some text
  | forward _ _ _ => none

/-- The topic that the message comes to be in: that of the message it replies to. -/
def topic (topicOf : ℤ → ℤ → Option ℤ) (chatId : ℤ) (c : Creation) : Option ℤ :=
  c.replyTo.bind (topicOf chatId)

end Creation

def DeliveryPlan.Forwarded (plan : DeliveryPlan) : Prop :=
  plan.payloadRef.bind candidateRef = none ∧ plan.mode = .forward

namespace Surroundings

variable {env : Surroundings} {plan : DeliveryPlan} {self : AccountId} {c : Creation}

def rendering (env : Surroundings) (plan : DeliveryPlan) : Exchange Creation := do
  match ← env.resolveText plan with
  | some text => do
    let entity ← env.entity plan.accountId plan.targetChatId
    pure (.message entity text plan.replyToTargetMessageId)
  | none =>
    if plan.mode = .forward then
      pure (.forward plan.targetChatId plan.sourceMessageId plan.sourceChatId)
    else do
      let (entity, text, parts) ← env.copied plan
      pure (match parts.file with
        | none => .message entity text plan.replyToTargetMessageId
        | some _ => .file entity parts text plan.replyToTargetMessageId)

def ownId (env : Surroundings) (self : AccountId) : Exchange ℤ :=
  match (env.client self).selfId with
  | some selfId => pure selfId
  | none => env.call self (env.client self).getMe

def CreatesIn (env : Surroundings) (self : AccountId) (chatId : ℤ) : Creation → Prop
  | .message .me _ _ | .file .me _ _ _ => env.ownId self = .ok chatId
  | .message (.chat id) _ _ | .file (.chat id) _ _ _ => id = chatId
  | .forward entity _ _ => entity = chatId

structure Processed (env : Surroundings) (plan : DeliveryPlan) (src : SourceContent) (text : String) :
    Prop where
  fetched : env.fetchSource plan (env.fetcherFor plan) = .ok src
  asked : plan.payloadRef.bind candidateRef = none ∧ plan.mode ≠ .forward ∧ plan.transform
  spoken : strip ((truthy src.text).getD "") ≠ ""
  answered : ∃ r, env.cloneTransform plan.ruleId ((truthy src.text).getD "") = .ok r ∧ r.text = some text

/-- A completed send has followed the plan's route and rule: the message is created by the sender, in
the chat and the topic, as a reply to the mapped target and with the processed text. -/
structure KeepsRoute (env : Surroundings) (topicOf : ℤ → ℤ → Option ℤ) (plan : DeliveryPlan)
    (ids : List ℤ)
    (c : Creation) : Prop where
  asked : env.rendering plan = .ok c
  created : c.perform (env.client plan.accountId) = .ok ids
  chat : env.CreatesIn plan.accountId plan.targetChatId c
  topic : c.topic topicOf plan.targetChatId = plan.targetTopicId
  reply : ∀ targetId, plan.replyToTargetMessageId = some targetId → c.replyTo = some targetId
  text : ∀ src text, env.Processed plan src text → c.text = some text

theorem call_map {α β : Type} {answer : Except ClientError α} {g : α → β} :
    env.call self (answer.map g) = (env.call self answer).map g := by
  cases answer <;> rfl

/-- A send is its request, asked of the sender's session. -/
theorem send_eq_rendering : env.send plan =
    env.rendering plan >>= fun c => env.call plan.accountId (c.perform (env.client plan.accountId)) := by
  unfold send rendering
  rw [bind_assoc]
  refine bind_congr fun text => ?_
  cases text with
  | some text =>
    dsimp only
    rw [bind_assoc]
    refine bind_congr fun entity => ?_
    rw [pure_bind]
    exact call_map.symm
  | none =>
    by_cases hmode : plan.mode = .forward
    · simp only [if_pos hmode, pure_bind]
      rfl
    · simp only [if_neg hmode, bind_assoc, pure_bind]
      refine bind_congr fun copy => ?_
      cases copy.2.2.file <;> exact call_map.symm

theorem call_eq_ok {α : Type} {answer : Except ClientError α} {a : α} :
    env.call self answer = .ok a ↔ answer = .ok a := by
  cases answer with
  | error e => exact ⟨nofun, nofun⟩
  | ok b => exact ⟨fun h => congrArg _ (Except.ok.inj h), fun h => congrArg _ (Except.ok.inj h)⟩

theorem entity_eq (chatId : ℤ) : env.entity self chatId =
    env.ownId self >>= fun selfId => pure (if chatId = selfId then .me else .chat chatId) := by
  unfold entity ownId
  cases (env.client self).selfId <;> rfl

theorem createsIn_of_entity {chatId : ℤ} {peer : Peer} (h : env.entity self chatId = .ok peer) :
    (peer = .me ∧ env.ownId self = .ok chatId) ∨ peer = .chat chatId := by
  rw [entity_eq] at h
  obtain ⟨selfId, hself, hpeer⟩ := Except.bind_eq_ok.mp h
  obtain rfl := Except.ok.inj hpeer
  by_cases hid : chatId = selfId
  · exact .inl ⟨if_pos hid, hid ▸ hself⟩
  · exact .inr (if_neg hid)

inductive RenderingEnds (env : Surroundings) (plan : DeliveryPlan) : Creation → Prop
  | candidate {uuid text : String} {entity : Peer} (href : plan.payloadRef.bind candidateRef = some uuid)
      (hentity : env.entity plan.accountId plan.targetChatId = .ok entity) :
      RenderingEnds env plan (.message entity text plan.replyToTargetMessageId)
  | forward (hforward : plan.Forwarded) :
      RenderingEnds env plan (.forward plan.targetChatId plan.sourceMessageId plan.sourceChatId)
  | copy {entity : Peer} {src : SourceContent} {text : String} (parts : MediaParts)
      (hforward : ¬plan.Forwarded) (hsrc : env.fetchSource plan (env.fetcherFor plan) = .ok src)
      (hentity : env.entity plan.accountId plan.targetChatId = .ok entity)
      (htext : env.transform plan ((truthy src.text).getD "") = .ok text) (c : Creation)
      (hc : c = .message entity text plan.replyToTargetMessageId ∨
        c = .file entity parts text plan.replyToTargetMessageId) :
      RenderingEnds env plan c

theorem rendering_ends (h : env.rendering plan = .ok c) : RenderingEnds env plan c := by
  obtain ⟨text, htext, hc⟩ := Except.bind_eq_ok.mp h
  unfold resolveText at htext
  cases href : plan.payloadRef.bind candidateRef with
  | some uuid =>
    rw [href] at htext
    obtain ⟨text', -, htext⟩ := Except.bind_eq_ok.mp htext
    obtain rfl := Except.ok.inj htext
    obtain ⟨entity, hentity, hc⟩ := Except.bind_eq_ok.mp hc
    obtain rfl := Except.ok.inj hc
    exact .candidate href hentity
  | none =>
    rw [href] at htext
    obtain rfl := Except.ok.inj htext
    dsimp only at hc
    by_cases hmode : plan.mode = .forward
    · rw [if_pos hmode] at hc
      obtain rfl := Except.ok.inj hc
      exact .forward ⟨href, hmode⟩
    · rw [if_neg hmode] at hc
      obtain ⟨⟨entity, text, parts⟩, hcopied, hc⟩ := Except.bind_eq_ok.mp hc
      obtain ⟨src, hsrc, hcopied⟩ := Except.bind_eq_ok.mp hcopied
      obtain ⟨entity, hentity, hcopied⟩ := Except.bind_eq_ok.mp hcopied
      obtain ⟨text, htext, hcopied⟩ := Except.bind_eq_ok.mp hcopied
      obtain ⟨parts, -, hcopied⟩ := Except.bind_eq_ok.mp hcopied
      obtain ⟨rfl, rfl, rfl⟩ := Except.ok.inj hcopied
      refine .copy parts (fun hforward => hmode hforward.2) hsrc hentity htext c ?_
      obtain rfl := Except.ok.inj hc
      cases parts.file
      · exact .inl rfl
      · exact .inr rfl

namespace RenderingEnds

theorem createsIn (h : RenderingEnds env plan c) : env.CreatesIn plan.accountId plan.targetChatId c := by
  cases h with
  | forward => exact rfl
  | candidate _ hentity =>
    rcases createsIn_of_entity hentity with ⟨rfl, hself⟩ | rfl
    · exact hself
    · exact rfl
  | copy _ _ _ hentity _ _ hc =>
    rcases createsIn_of_entity hentity with ⟨rfl, hself⟩ | rfl
    · rcases hc with rfl | rfl <;> exact hself
    · rcases hc with rfl | rfl <;> exact rfl

theorem replyTo_forwarded (h : RenderingEnds env plan c) (hforward : plan.Forwarded) :
    c.replyTo = none := by
  cases h with
  | candidate href => exact absurd (href.symm.trans hforward.1) (Option.some_ne_none _)
  | forward => rfl
  | copy _ hnot => exact absurd hforward hnot

theorem replyTo_eq (h : RenderingEnds env plan c) (hforward : ¬plan.Forwarded) :
    c.replyTo = plan.replyToTargetMessageId := by
  cases h with
  | candidate => rfl
  | forward hyes => exact absurd hyes hforward
  | copy _ _ _ _ _ _ hc => rcases hc with rfl | rfl <;> rfl

theorem text_eq (h : RenderingEnds env plan c) {src : SourceContent} {text : String}
    (hprocessed : env.Processed plan src text) :
    c.text = some ((truthy (some text)).getD ((truthy src.text).getD "")) := by
  obtain ⟨hfetched, ⟨href, hmode, htransform⟩, hspoken, r, hanswer, htext⟩ := hprocessed
  cases h with
  | candidate href' => exact absurd (href'.symm.trans href) (Option.some_ne_none _)
  | forward hforward => exact absurd hforward.2 hmode
  | copy _ _ hsrc _ hsent _ hc =>
    obtain rfl := Except.ok.inj (hfetched.symm.trans hsrc)
    unfold transform at hsent
    rw [if_neg (by simp [htransform, hspoken]), hanswer] at hsent
    dsimp only at hsent
    split at hsent
    · cases hsent
    · obtain rfl := Except.ok.inj hsent
      rw [← htext]
      rcases hc with rfl | rfl <;> rfl

end RenderingEnds

end Surroundings

open Surroundings in
/-- A completed send follows the plan's route and rule if and only if a forwarded plan replies to
nothing, the plan's topic is that of the message it replies to, and the processed text is not empty. -/
theorem Surroundings.send_keeps_route_iff (topicOf : ℤ → ℤ → Option ℤ) (env : Surroundings)
    (plan : DeliveryPlan) (ids : List ℤ) (hsent : env.send plan = .ok ids) :
    (∃ c, env.KeepsRoute topicOf plan ids c) ↔
      (plan.Forwarded → plan.replyToTargetMessageId = none) ∧
      plan.targetTopicId = plan.replyToTargetMessageId.bind (topicOf plan.targetChatId) ∧
      ∀ src, ¬env.Processed plan src "" := by
  rw [send_eq_rendering] at hsent
  obtain ⟨c, hasked, hcreated⟩ := Except.bind_eq_ok.mp hsent
  rw [call_eq_ok] at hcreated
  have hends := rendering_ends hasked
  constructor
  · rintro ⟨c', hkeeps⟩
    obtain rfl := Except.ok.inj (hasked.symm.trans hkeeps.asked)
    have hnone : plan.Forwarded → plan.replyToTargetMessageId = none := by
      intro hforward
      by_contra hsome
      obtain ⟨targetId, htarget⟩ := Option.ne_none_iff_exists'.mp hsome
      have hreply := hkeeps.reply targetId htarget
      rw [hends.replyTo_forwarded hforward] at hreply
      cases hreply
    refine ⟨hnone, ?_, ?_⟩
    · rw [← hkeeps.topic, Creation.topic]
      by_cases hforward : plan.Forwarded
      · rw [hends.replyTo_forwarded hforward, hnone hforward]
      · rw [hends.replyTo_eq hforward]
    · intro src hempty
      have htext := hkeeps.text src "" hempty
      rw [hends.text_eq hempty] at htext
      exact hempty.spoken (congrArg strip (Option.some.inj htext))
  · rintro ⟨hnone, htopic, hempty⟩
    have hreply : c.replyTo = plan.replyToTargetMessageId := by
      by_cases hforward : plan.Forwarded
      · rw [hends.replyTo_forwarded hforward, hnone hforward]
      · exact hends.replyTo_eq hforward
    refine ⟨c, hasked, hcreated, hends.createsIn, ?_, fun targetId htarget => hreply.trans htarget, ?_⟩
    · rw [Creation.topic, hreply, htopic]
    · intro src text hprocessed
      have hne : text ≠ "" := by
        rintro rfl
        exact hempty src hprocessed
      rw [hends.text_eq hprocessed, truthy_eq_some.mpr ⟨rfl, hne⟩]
      rfl

/-- A reply in a topic, whose text goes through the control plane. -/
def topicReply : DeliveryPlan :=
  { relayedPlan with
    fetchAccountId := none, transform := true, targetTopicId := some 5
    replyToTargetMessageId := some 4 }

theorem topicReply_keeps_route : ∃ c, revokedFetcher.KeepsRoute (fun _ _ => some 5) topicReply
    [9] c := by
  refine (Surroundings.send_keeps_route_iff (fun _ _ => some 5) revokedFetcher topicReply [9]
    (by decide +kernel)).mpr ⟨fun hforward => absurd hforward.2 (by decide), rfl, ?_⟩
  rintro src ⟨hfetched, -, -, r, hanswer, htext⟩
  have hsrc : revokedFetcher.fetchSource topicReply (revokedFetcher.fetcherFor topicReply) =
      .ok { text := some "hello" } := by decide +kernel
  obtain rfl := Except.ok.inj (hfetched.symm.trans hsrc)
  obtain rfl := Except.ok.inj hanswer
  revert htext
  decide +kernel

/-- A message for a topic that replies to nothing is not created in the topic. -/
theorem topic_is_dropped : ¬ ∀ (topicOf : ℤ → ℤ → Option ℤ) (env : Surroundings) (plan : DeliveryPlan)
    (ids : List ℤ), env.send plan = .ok ids → ∃ c, env.KeepsRoute topicOf plan ids c := by
  intro hall
  let plan : DeliveryPlan := { relayedPlan with fetchAccountId := none, targetTopicId := some 5 }
  obtain ⟨c, hkeeps⟩ := hall (fun _ _ => none) revokedFetcher plan [9] (by decide +kernel)
  have hasked : revokedFetcher.rendering plan = .ok (.message (.chat 7) "hello" none) := by
    decide +kernel
  obtain rfl := Except.ok.inj (hkeeps.asked.symm.trans hasked)
  cases hkeeps.topic

end TgPlatform
