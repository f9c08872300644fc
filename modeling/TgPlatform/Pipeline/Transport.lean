import TgPlatform.Lib.Json
import TgPlatform.Platform.Replies
import TgPlatform.Worker.Live

/-! # The transport

One transport call asks the sessions of up to two accounts: the fetch account
reads the source message, and the sending account does the rest. What a session
raises is classified where it is raised, and the first error ends the call.
-/

namespace TgPlatform

/-- The exceptions that `_classify` tells apart. -/
inductive ClientException
  | flood (seconds : ℤ)
  | forbidden
  | frozen
  | unauthorized
  | badContent
  | noConnection
  | other
  deriving DecidableEq, Repr

structure ClientError where
  exception : ClientException
  text : String := ""
  deriving DecidableEq, Repr

/-- `_classify`. -/
def ClientException.kind : ClientException → TransportErrorKind
  | .flood _ => .floodWait
  | .forbidden => .permission
  | .frozen | .unauthorized => .auth
  | .badContent => .content
  | .noConnection => .resultUnknown
  | .other => .transient

structure SourceContent where
  text : Option String := none
  media : Option String := none
  fileName : Option String := none
  fileExt : Option String := none
  attributes : List String := []
  mimeType : Option String := none
  deriving DecidableEq, Repr

/-- The file of a message: the media itself, or its bytes under a name. -/
inductive MediaFile
  | media (media : String)
  | bytes (data name : String)
  deriving DecidableEq, Repr

/-- `_media_file`'s answer. -/
structure MediaParts where
  file : Option MediaFile := none
  attributes : Option (List String) := none
  mimeType : Option String := none
  deriving DecidableEq, Repr

inductive Peer
  | me
  | chat (id : ℤ)
  deriving DecidableEq, Repr

/-- What the session of one account answers to each request. -/
structure Client where
  /-- The account's own id, where it is known already. -/
  selfId : Option ℤ
  getMe : Except ClientError ℤ
  getMessages : ℤ → ℤ → Except ClientError (Option SourceContent)
  downloadMedia : SourceContent → Except ClientError (Option String)
  sendMessage : Peer → String → Option ℤ → Except ClientError ℤ
  sendFile : Peer → MediaParts → String → Option ℤ → Except ClientError ℤ
  forwardMessages : ℤ → ℤ → ℤ → Except ClientError (List ℤ)
  editMessage : Peer → ℤ → String → Option MediaFile → Except ClientError Unit
  deleteMessages : Peer → List ℤ → Except ClientError Unit

/-- `CandidatePayload`. -/
structure CandidatePayload where
  content : String
  contentHash : String
  status : String
  deriving DecidableEq, Repr

structure TransformReply where
  action : Option String := none
  text : Option String := none
  reason : Option String := none
  deriving DecidableEq, Repr

structure Surroundings where
  now : Time
  client : AccountId → Client
  /-- The routes of the router. -/
  connected : AccountId → Bool
  getCandidate : String → Except String CandidatePayload
  cloneTransform : RuleId → String → Except String TransformReply
  sha256 : String → String

/-- How a transport call fails; an error that a session raises names its account. -/
inductive TransportFailure
  | error (kind : TransportErrorKind) (detail : String) (floodWaitUntil : Option Time)
      (raisedBy : Option AccountId)
  | exception (detail : String)
  deriving DecidableEq, Repr

def TransportFailure.outcome : TransportFailure → TransportOutcome
  | .error kind detail floodWaitUntil raisedBy => .error kind detail floodWaitUntil raisedBy
  | .exception detail => .exception detail

abbrev Exchange (α : Type) : Type := Except TransportFailure α

def clip (n : ℕ) (s : String) : String := String.ofList (s.toList.take n)

/-- The error that `_call` raises for an exception. -/
def ClientError.failure (e : ClientError) (now : Time) (accountId : AccountId) : TransportFailure :=
  match e.exception with
  | .flood seconds => .error .floodWait e.text (some (now + seconds * 1000000)) (some accountId)
  | exception => .error exception.kind (clip 300 e.text) none (some accountId)

def contentError {α : Type} (detail : String) : Exchange α := throw (.error .content detail none none)

namespace Surroundings

variable (env : Surroundings)

/-- `_call`. -/
def call {α : Type} (accountId : AccountId) (answer : Except ClientError α) : Exchange α :=
  answer.mapError fun e => e.failure env.now accountId

/-- `candidate_text`. -/
def candidateText (uuid : String) (expectedHash : Option String) : Exchange String :=
  match env.getCandidate uuid with
  | .error detail => throw (.exception detail)
  | .ok cand =>
    if cand.status ≠ "approved" then contentError s!"candidate {uuid} status={cand.status}"
    else if (truthy expectedHash).any fun h => env.sha256 cand.content ≠ h then
      contentError s!"candidate {uuid} hash mismatch"
    else pure cand.content

/-- `_resolve_text`. -/
def resolveText (plan : DeliveryPlan) : Exchange (Option String) :=
  match plan.payloadRef.bind candidateRef with
  | some uuid => do return some (← env.candidateText uuid plan.payloadHash)
  | none => pure none

/-- `_entity`. -/
def entity (self : AccountId) (targetId : ℤ) : Exchange Peer := do
  let selfId ← match (env.client self).selfId with
    | some selfId => pure selfId
    | none => env.call self (env.client self).getMe
  pure (if targetId = selfId then .me else .chat targetId)

/-- `_fetch_source`. -/
def fetchSource (plan : DeliveryPlan) (fetcher : AccountId) : Exchange SourceContent := do
  match ← env.call fetcher ((env.client fetcher).getMessages plan.sourceChatId plan.sourceMessageId) with
  | some src => pure src
  | none => contentError "source message missing"

/-- `_media_file`. -/
def mediaFile (self : AccountId) (src : SourceContent) (fetcher : AccountId) : Exchange MediaParts :=
  match src.media with
  | none => pure {}
  | some media =>
    if fetcher = self then pure { file := some (.media media) }
    else do
      match ← env.call fetcher ((env.client fetcher).downloadMedia src) with
      | none => pure {}
      | some data =>
        let name := (truthy src.fileName).getD
          (((truthy src.fileExt).map fun ext => "media" ++ ext).getD "media.bin")
        pure {
          file := some (.bytes data name), attributes := some src.attributes
          mimeType := src.mimeType }

/-- `_transform`. -/
def transform (plan : DeliveryPlan) (text : String) : Exchange String :=
  if !plan.transform || strip text = "" then pure text
  else
    match env.cloneTransform plan.ruleId text with
    | .error detail => throw (.error .transient (clip 300 ("clone_transform: " ++ detail)) none none)
    | .ok r =>
      if r.action = some "drop" then contentError ("dropped:" ++ (truthy r.reason).getD "filtered")
      else pure ((truthy r.text).getD text)

/-- `_fetcher_for`, and the sender itself where that account has no session here. -/
def fetcherFor (plan : DeliveryPlan) : AccountId :=
  let fetcher := (truthy plan.fetchAccountId).getD plan.accountId
  if env.connected fetcher then fetcher else plan.accountId

/-- A message as it is sent on: its peer, its text and its media. -/
def copied (plan : DeliveryPlan) : Exchange (Peer × String × MediaParts) := do
  let fetcher := env.fetcherFor plan
  let src ← env.fetchSource plan fetcher
  let entity ← env.entity plan.accountId plan.targetChatId
  let text ← env.transform plan ((truthy src.text).getD "")
  let parts ← env.mediaFile plan.accountId src fetcher
  pure (entity, text, parts)

/-- `TelethonTransport.send`. -/
def send (plan : DeliveryPlan) : Exchange (List ℤ) := do
  let self := env.client plan.accountId
  match ← env.resolveText plan with
  | some text => do
    let entity ← env.entity plan.accountId plan.targetChatId
    let id ← env.call plan.accountId (self.sendMessage entity text plan.replyToTargetMessageId)
    pure [id]
  | none =>
    if plan.mode = .forward then
      env.call plan.accountId
        (self.forwardMessages plan.targetChatId plan.sourceMessageId plan.sourceChatId)
    else do
      let (entity, text, parts) ← env.copied plan
      let id ← env.call plan.accountId (match parts.file with
        | none => self.sendMessage entity text plan.replyToTargetMessageId
        | some _ => self.sendFile entity parts text plan.replyToTargetMessageId)
      pure [id]

/-- `TelethonTransport.edit`. -/
def edit (plan : DeliveryPlan) (targetMessageId : ℤ) : Exchange Unit := do
  let (entity, text, parts) ← env.copied plan
  env.call plan.accountId
    ((env.client plan.accountId).editMessage entity targetMessageId text parts.file)

/-- `TelethonTransport.delete`. -/
def delete (plan : DeliveryPlan) (targetMessageIds : List ℤ) : Exchange Unit := do
  let entity ← env.entity plan.accountId plan.targetChatId
  env.call plan.accountId ((env.client plan.accountId).deleteMessages entity targetMessageIds)

/-- The call that the router hands to the sender's transport, with the ids of what is sent. -/
def exchange (request : TransportRequest) (plan : DeliveryPlan) : Exchange (List ℤ) :=
  match request with
  | .send => env.send plan
  | .edit targetMessageId => do
    env.edit plan targetMessageId
    return []
  | .delete targetMessageIds => do
    env.delete plan targetMessageIds
    return []

def outcome (request : TransportRequest) (plan : DeliveryPlan) : TransportOutcome :=
  match env.exchange request plan with
  | .ok ids => .returned ids
  | .error failure => failure.outcome

end Surroundings

end TgPlatform
