import Mathlib.Data.List.Sort
import TgPlatform.Ai.Candidates

/-! # The callback door

A callback names its binding in the URL and is signed with the secret of that
binding; its body names the session and the message it replies to. What is
stored is linked to a run, and a run is completed by its last segment.
-/

namespace TgPlatform

/-- `REPLAY_WINDOW_SECONDS`. -/
def replayWindow : ℤ := 300

/-- A request at the door; `clock` is the time in seconds. -/
structure CallbackRequest where
  bindingUuid : String
  body : Bytes
  timestamp : Option String
  signature : Option String
  clock : ℤ
  now : Time
  minted : Minted := {}

inductive CallbackResult | ok | dedup
  deriving DecidableEq, Repr

structure CallbackFields where
  sessionId : String
  replyTo : String
  sequence : ℤ
  isFinal : Bool
  payload : Json

def CallbackFields.fits (fields : CallbackFields) : Bool :=
  fields.sessionId.length ≤ 96 && fields.replyTo.length ≤ 64 && fields.sequence < 2 ^ 31

def CallbackFields.row (fields : CallbackFields) (b : BindingId)
    (run : Option RunId) (sha : String) (now : Time) : AiCallback where
  bindingId := b
  sessionId := fields.sessionId
  replyTo := fields.replyTo
  sequence := fields.sequence
  isFinal := fields.isFinal
  payload := fields.payload
  payloadSha256 := sha
  receivedAt := now
  aiRunId := run
  linkStatus := if run.isSome then "linked" else "pending_link"

section Door

variable (py : Python)

/-- `resolve_secret`. -/
def resolveSecret (secretRef : String) : Except Raised String :=
  match if secretRef.startsWith "env:" then truthy (py.environ (secretRef.drop 4).toString)
    else none with
  | some value => .ok value
  | none => .error (.error ⟨.notFound, s!"密钥引用无法解析: {py.repr (.str secretRef)}"⟩)

/-- `compute_signature`. -/
def computeSignature (secret : String) (body : Bytes) (timestamp : String) : String :=
  "sha256=" ++ py.hmacSha256 (encode secret) (encode (timestamp ++ ".") ++ body)

/-- `hmac.compare_digest` of two strings, which are to be ASCII. -/
def compareDigest (x y : String) : Except Raised Bool :=
  if (x.toList ++ y.toList).all (fun c => c.toNat < 128) then .ok (x = y)
  else .error (.uncaught "TypeError")

/-- `verify_callback_signature`. -/
def verifyCallbackSignature (secret : String) (body : Bytes) (timestamp signature : Option String)
    (clock : ℤ) : Except Raised (Bool × String) :=
  match truthy timestamp, truthy signature with
  | some timestamp, some signature =>
    match py.parseFloat timestamp with
    | none | some .nan => .ok (false, "bad_timestamp")
    | some (.infinity _) => .error (.uncaught "OverflowError")
    | some (.finite ts) =>
      if replayWindow < (clock - truncate ts).natAbs then .ok (false, "expired")
      else do
        let equal ← compareDigest (computeSignature py secret body timestamp) signature
        return if equal then (true, "") else (false, "signature_mismatch")
  | _, _ => .ok (false, "missing_headers")

/-- `json.loads` and the fields the door reads. -/
def callbackFields (body : Bytes) : Except Raised CallbackFields := do
  let payload ← match py.loads body with
    | .ok payload => .ok payload
    | .error .decode => .error (.error ⟨.request, "回调体不是合法 JSON"⟩)
    | .error .other => .error (.uncaught "ValueError")
  let some sessionId := payload.get "session_id" | .error (.uncaught "AttributeError")
  let some replyTo := payload.get "reply_to" | .error (.uncaught "AttributeError")
  let some sequence := payload.get "sequence" | .error (.uncaught "AttributeError")
  let some isFinal := payload.get "is_final" | .error (.uncaught "AttributeError")
  let session := if sessionId.truthy then sessionId.toStr py.repr else ""
  let reply := if replyTo.truthy then replyTo.toStr py.repr else ""
  let some seq := (if sequence.truthy then sequence.toInt py.parseInt else some 0)
    | .error (.uncaught "ValueError")
  if session = "" || reply = "" || seq < 1 then
    .error (.error ⟨.request, "回调缺 session_id/reply_to/sequence"⟩)
  else return ⟨session, reply, seq, isFinal.truthy, payload⟩

end Door

/-- `payload.get('message') or []`, as a loop visits it. -/
def messageParts (payload : Json) : Option (List Json) :=
  match payload.get "message" with
  | some parts => if parts.truthy then parts.items else some []
  | none => none

/-- `p.get('type') == 'Plain'` of a dict. -/
def isPlain (part : Json) : Bool :=
  match part.get "type" with
  | some (.str kind) => kind = "Plain"
  | _ => false

/-- The text of the last segment alone. -/
def fallbackText (payload : Json) : Option String := do
  let parts ← messageParts payload
  let texts := (parts.filter isPlain).map fun part => part.field "text" (.str "")
  return strip (← joinStrings "\n" texts)

def segmentTexts (callback : AiCallback) : Option (List Json) := do
  let parts ← messageParts callback.payload
  return ((parts.filter isPlain).filterMap fun part => part.get "text").filter Json.truthy

/-- `_assemble`. -/
def assemble (callbacks : List AiCallback) (fallback : String) : Option String := do
  let ordered := callbacks.insertionSort fun x y => x.sequence ≤ y.sequence
  let texts ← ordered.mapM segmentTexts
  let joined ← joinStrings "\n" texts.flatten
  return if strip joined = "" then fallback else strip joined

namespace ControlPlane

variable (s : ControlPlane) (py : Python)

/-- `_link_run`. -/
def linkRun (sessionId replyTo : String) : Option (RunId × AiRun) :=
  match s.conversations.first? fun c => c.sessionId = sessionId && !c.deleted with
  | none => none
  | some (_, conv) => s.runs.first? fun r =>
    r.tenantId = conv.tenantId && !r.deleted && r.sessionId = sessionId && r.status.active &&
      (r.acceptedMessageId = some replyTo || r.acceptedMessageId = none)

def replyText (pk : RunId) (payload : Json) : Option String := do
  let fallback ← fallbackText payload
  let callbacks := s.callbacks.where_ fun cb => cb.aiRunId = some pk && !cb.deleted
  assemble (callbacks.map Prod.snd) fallback

/-- `_advance_run`. -/
def advanceRun (pk : RunId) (run : AiRun) (cb : AiCallback) (minted : Minted) (now : Time) :
    Except Raised ControlPlane :=
  if cb.sequence ≠ run.expectedSeq then
    if cb.isFinal then
      .ok ((s.updateRun pk fun r => { r with
        status := .incomplete
        lastError := some s!"gap: expected_seq={run.expectedSeq}, got {cb.sequence}"
        completedAt := some now }).unlockConversation run.conversationId)
    else .ok s
  else if cb.isFinal then do
    let some text := s.replyText pk cb.payload | .error (.uncaught "TypeError")
    let some conv := s.conversation run.conversationId | .error (.uncaught "AttributeError")
    let (candidateId, created) ←
      s.createCandidate (fun t => py.sha256 (encode t)) run conv text none none none minted now
    return (created.updateRun pk fun r => { r with
      expectedSeq := cb.sequence + 1
      status := .completed
      candidateId := some candidateId
      completedAt := some now }).unlockConversation run.conversationId
  else
    .ok (s.updateRun pk fun r => { r with expectedSeq := cb.sequence + 1, status := .running })

def seenCallback (b : BindingId) (fields : CallbackFields) : Bool :=
  (s.callbacks.first? fun cb => cb.bindingId = b && cb.sessionId = fields.sessionId &&
    cb.replyTo = fields.replyTo && cb.sequence = fields.sequence).isSome

/-- The checks of `handle_callback` before anything is stored. -/
def acceptCallback (req : CallbackRequest) : Except Raised (BindingId × CallbackFields) := do
  let some (b, binding) := s.bindingByUuid req.bindingUuid
    | .error (.error ⟨.notFound, "AI 绑定不存在"⟩)
  if binding.status ≠ "active" then
    .error (.error ⟨.notFound, "AI 绑定不存在"⟩)
  else
    let secret ← resolveSecret py binding.outboundSecretRef
    let (ok, reason) ←
      verifyCallbackSignature py secret req.body req.timestamp req.signature req.clock
    if !ok then
      .error (.error ⟨.request, s!"回调签名无效: {reason}"⟩)
    else
      let fields ← callbackFields py req.body
      return (b, fields)

/-- `handle_callback`. -/
def handleCallback (req : CallbackRequest) : Except Raised (ControlPlane × CallbackResult) := do
  let (b, fields) ← s.acceptCallback py req
  let run := s.linkRun fields.sessionId fields.replyTo
  let cb := fields.row b (run.map Prod.fst) (py.sha256 req.body) req.now
  if !fields.fits then
    .error (.uncaught "DBAPIError")
  else if s.seenCallback b fields then
    return (s, .dedup)
  else
    let stored := { s with callbacks := s.callbacks.add cb }
    match run with
    | none => return (stored, .ok)
    | some (pk, run) =>
      let advanced ← stored.advanceRun py pk run cb req.minted req.now
      return (advanced, .ok)

/-- The committed rows after the request: an exception rolls the transaction back. -/
def afterCallback (req : CallbackRequest) : ControlPlane :=
  match s.handleCallback py req with
  | .ok (s', _) => s'
  | .error _ => s

end ControlPlane

end TgPlatform
