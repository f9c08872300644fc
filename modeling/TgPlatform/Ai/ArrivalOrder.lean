import TgPlatform.Ai.WholeReplies
import TgPlatform.Control.AiScope
import TgPlatform.Lib.Receiver

/-! # The order of arrival

The segments of a reply may arrive in any order, more than once, and before the
trigger has committed. The door files each of them once, but a run takes in none
but the next one, and no filed segment is looked at again before the last one
completes the run.
-/

namespace TgPlatform

open Txn

/-- A reply to the message `replyTo` in `count` segments whose Plain parts carry texts. -/
structure SegmentedReply where
  replyTo : String
  count : ℕ
  payload : ℕ → Json
  texts : ℕ → List String
  nonempty : 0 < count
  short : replyTo.length ≤ 64
  plain : ∀ k, 1 ≤ k → k ≤ count → plainTexts (payload k) = some (texts k)

namespace SegmentedReply

variable (reply : SegmentedReply)

/-- What the door reads of segment `k`. -/
def segment (sessionId : String) (k : ℕ) : CallbackFields where
  sessionId := sessionId
  replyTo := reply.replyTo
  sequence := k
  isFinal := k = reply.count
  payload := reply.payload k

def text : String :=
  strip ("\n".intercalate
    ((((List.range' 1 reply.count).map reply.texts).flatten).filter fun t => t ≠ ""))

end SegmentedReply

namespace ControlPlane

variable (s : ControlPlane) (out : Outside) (obj : AiTrigger) (b : AiBinding)

def chosen : ConversationId × AiConversation :=
  (s.conversationByScope b obj (s.currentEpoch b obj)).getD
    (s.conversations.size, obj.conversation out b (s.currentEpoch b obj))

def opened : ControlPlane :=
  match s.conversationByScope b obj (s.currentEpoch b obj) with
  | some _ => s
  | none => { s with conversations := s.conversations.add (s.chosen out obj b).2 }

end ControlPlane

namespace AiTrigger

variable (obj : AiTrigger) (out : Outside) (b : AiBinding)

def firstRun (chosen : ConversationId × AiConversation) : AiRun :=
  TriggerRequest.run ⟨out, obj, false⟩ b chosen.2 chosen.1

def submission (chosen : ConversationId × AiConversation) : Submission :=
  let req : TriggerRequest := ⟨out, obj, false⟩
  { binding := b
    sessionId := chosen.2.sessionId
    message := obj.message out.python chosen.2 (req.context chosen.2)
    senderId := (truthy obj.senderId).getD chosen.2.sessionId
    senderName := obj.senderName
    idempotencyKey := (obj.firstRun out b chosen).idempotencyKey }

def dispatchedRun (chosen : ConversationId × AiConversation) : AiRun :=
  { obj.firstRun out b chosen with
    status := .dispatched
    acceptedMessageId := (out.submit (obj.submission out b chosen)).acceptedMessageId }

end AiTrigger

/-- A trigger that LangBot accepts, the reply to it, and how the door reads bodies. Its session has no
conversation but the trigger's, and nothing of the reply is there yet. -/
structure LangBotCall (s : ControlPlane) where
  out : Outside
  obj : AiTrigger
  binding : AiBinding
  secret : String
  py : Python
  reply : SegmentedReply
  found : s.binding obj.bindingId = some binding
  active : binding.status = "active"
  langbot : binding.engine ≠ "openai"
  resolved : resolveSecret out.python binding.inboundSecretRef = .ok secret
  submits : (out.submit (obj.submission out binding (s.chosen out obj binding))).ok = true
  accepted : (out.submit (obj.submission out binding (s.chosen out obj binding))).acceptedMessageId
    = some reply.replyTo
  idle : s.activeBySession (s.chosen out obj binding).2.sessionId = none
  short : (s.chosen out obj binding).2.sessionId.length ≤ 96
  alone : ∀ i c, s.conversations.row? i = some c → c.deleted = false →
    c.sessionId = (s.chosen out obj binding).2.sessionId → i = (s.chosen out obj binding).1
  fresh : ∀ i c, s.callbacks.row? i = some c →
    c.sessionId = (s.chosen out obj binding).2.sessionId → c.replyTo ≠ reply.replyTo

namespace LangBotCall

variable {s : ControlPlane} (x : LangBotCall s)

def cid : ConversationId := (s.chosen x.out x.obj x.binding).1

def conv : AiConversation := (s.chosen x.out x.obj x.binding).2

def pk (_ : LangBotCall s) : RunId := s.runs.size

def segment (k : ℕ) : CallbackFields := x.reply.segment x.conv.sessionId k

/-- A request that the door of the binding accepts as segment `part`. -/
structure Arrival where
  req : CallbackRequest
  part : ℕ
  pos : 1 ≤ part
  le : part ≤ x.reply.count
  accepted : s.acceptCallback x.py req = .ok (x.obj.bindingId, x.segment part)

variable {x} in
def Arrival.action (a : x.Arrival) : AiAction := .callback x.py a.req

/-- Some segments arrive before the trigger commits and some after. -/
def actions (early late : List x.Arrival) : List AiAction :=
  early.map Arrival.action ++ .trigger x.out x.obj false :: late.map Arrival.action

/-- The run is completed with one candidate, which is the whole reply. -/
def Answered (t : ControlPlane) : Prop :=
  ∃ run c, t.runs.row? x.pk = some run ∧ run.status = .completed ∧
    run.candidateId = some s.candidates.size ∧ t.candidates = s.candidates.add c ∧
    c.agentRunId = some run.uuid ∧ c.content = x.reply.text

end LangBotCall

/-! ## The trigger -/

namespace ControlPlane

variable {s : ControlPlane} {out : Outside} {obj : AiTrigger} {b : AiBinding}

theorem opened_eq : s.opened out obj b =
    { s with conversations := (s.opened out obj b).conversations } := by
  unfold opened
  split <;> rfl

theorem opened_row : (s.opened out obj b).conversations.row? (s.chosen out obj b).1 =
    some (s.chosen out obj b).2 ∧ (s.chosen out obj b).2.deleted = false := by
  unfold opened chosen
  cases hfound : s.conversationByScope b obj (s.currentEpoch b obj) with
  | some found =>
    obtain ⟨hrow, hq⟩ := Slots.first?_eq_some hfound
    simp only [Bool.and_eq_true, Bool.not_eq_true'] at hq
    exact ⟨hrow, hq.2⟩
  | none =>
    refine ⟨?_, rfl⟩
    exact (Slots.row?_add _).trans (if_pos rfl)

theorem row_of_opened {i : ConversationId} {c : AiConversation}
    (h : (s.opened out obj b).conversations.row? i = some c) :
    i = (s.chosen out obj b).1 ∨ s.conversations.row? i = some c := by
  unfold opened chosen at *
  cases hfound : s.conversationByScope b obj (s.currentEpoch b obj) with
  | some found =>
    rw [hfound] at h
    exact .inr h
  | none =>
    rw [hfound] at h
    rw [Slots.row?_add] at h
    split at h
    · rename_i heq
      exact .inl heq
    · exact .inr h

theorem openConversation_ok :
    (openConversation out obj b s).2 = .ok (s.chosen out obj b, s.opened out obj b) := by
  unfold openConversation opened chosen
  rw [ok_read_bind, ok_read_bind]
  cases s.conversationByScope b obj (s.currentEpoch b obj) <;> rfl

def dispatched (s : ControlPlane) (out : Outside) (obj : AiTrigger) (b : AiBinding) : ControlPlane :=
  let chosen := s.chosen out obj b
  let added := { s.opened out obj b with runs := s.runs.add (obj.firstRun out b chosen) }
  (added.updateRun s.runs.size fun r => { r with
    status := .dispatched
    acceptedMessageId := (out.submit (obj.submission out b chosen)).acceptedMessageId }).lockConversation
      chosen.1

theorem handOver_dispatched {req : TriggerRequest} {conv : AiConversation} {cid : ConversationId}
    {pk : RunId} {run : AiRun} {secret : String} (hdeferred : req.deferred b = false)
    (hengine : b.engine ≠ "openai")
    (hsecret : resolveSecret req.out.python b.inboundSecretRef = .ok secret)
    (hok : (req.out.submit {
      binding := b, sessionId := conv.sessionId
      message := req.obj.message req.out.python conv (req.context conv)
      senderId := (truthy req.obj.senderId).getD conv.sessionId
      senderName := req.obj.senderName, idempotencyKey := run.idempotencyKey }).ok = true) :
    ∃ a, (req.handOver b conv cid pk run s).2 = .ok (a, (s.updateRun pk fun r => { r with
      status := .dispatched
      acceptedMessageId := (req.out.submit {
        binding := b, sessionId := conv.sessionId
        message := req.obj.message req.out.python conv (req.context conv)
        senderId := (truthy req.obj.senderId).getD conv.sessionId
        senderName := req.obj.senderName
        idempotencyKey := run.idempotencyKey }).acceptedMessageId }).lockConversation cid) := by
  unfold TriggerRequest.handOver
  rw [hdeferred, if_neg Bool.false_ne_true, if_neg hengine, hsecret]
  unfold submitted
  rw [if_pos hok]
  exact ⟨_, rfl⟩

theorem trigger_of_opened {cid : ConversationId} {conv : AiConversation} {t : ControlPlane}
    {secret : String} (hb : s.binding obj.bindingId = some b) (hactive : b.status = "active")
    (hengine : b.engine ≠ "openai")
    (hsecret : resolveSecret out.python b.inboundSecretRef = .ok secret)
    (hopen : (openConversation out obj b s).2 = .ok ((cid, conv), t))
    (hidle : t.activeBySession conv.sessionId = none)
    (hok : (out.submit (obj.submission out b (cid, conv))).ok = true) :
    (trigger out obj false).commit s = (({ t with
      runs := t.runs.add (obj.firstRun out b (cid, conv)) }).updateRun t.runs.size fun r => { r with
        status := .dispatched
        acceptedMessageId :=
          (out.submit (obj.submission out b (cid, conv))).acceptedMessageId }).lockConversation cid := by
  have hhanded : ∃ a, (TriggerRequest.handOver ⟨out, obj, false⟩ b conv cid t.runs.size
      (obj.firstRun out b (cid, conv)) { t with
        runs := t.runs.add (obj.firstRun out b (cid, conv)) }).2 = .ok (a, _) :=
    handOver_dispatched rfl hengine hsecret hok
  obtain ⟨a, ha⟩ := hhanded
  have hfound : (some b).filter (fun b => b.status = "active") = some b := by
    rw [Option.filter_some, hactive, decide_eq_true rfl, if_pos rfl]
  rw [trigger_eq ⟨out, obj, false⟩]
  apply commit_of_ok (a := a)
  rw [ok_read_bind, hb, hfound]
  refine ok_ret_bind.trans ?_
  rw [ok_bind hopen]
  dsimp only
  rw [ok_read_bind, hidle]
  exact ha

theorem trigger_dispatched {secret : String} (hb : s.binding obj.bindingId = some b)
    (hactive : b.status = "active") (hengine : b.engine ≠ "openai")
    (hsecret : resolveSecret out.python b.inboundSecretRef = .ok secret)
    (hok : (out.submit (obj.submission out b (s.chosen out obj b))).ok = true)
    (hidle : s.activeBySession (s.chosen out obj b).2.sessionId = none) :
    (trigger out obj false).commit s = s.dispatched out obj b := by
  have hruns : (s.opened out obj b).runs = s.runs := by rw [opened_eq]
  have hidle : (s.opened out obj b).activeBySession (s.chosen out obj b).2.sessionId = none := by
    rw [opened_eq]
    exact hidle
  rw [trigger_of_opened hb hactive hengine hsecret openConversation_ok hidle hok, hruns]
  rfl

/-! ## A callback -/

variable {py : Python} {req : CallbackRequest} {bid : BindingId} {fields : CallbackFields}
  {cb : AiCallback} {pk : RunId}

theorem acceptCallback_congr {t : ControlPlane} (h : t.bindings = s.bindings) :
    t.acceptCallback py req = s.acceptCallback py req := by
  unfold acceptCallback bindingByUuid
  rw [h]

theorem acceptCallback_of {binding : AiBinding} {secret reason : String}
    (hb : s.bindingByUuid req.bindingUuid = some (bid, binding)) (hactive : binding.status = "active")
    (hsecret : resolveSecret py binding.outboundSecretRef = .ok secret)
    (hverify : verifyCallbackSignature py secret req.body req.timestamp req.signature req.clock =
      .ok (true, reason)) (hfields : callbackFields py req.body = .ok fields) :
    s.acceptCallback py req = .ok (bid, fields) := by
  unfold acceptCallback
  simp only [hb, hactive, ne_eq, not_true_eq_false, if_false, hsecret, bind, Except.bind, hverify,
    hfields,
    Bool.not_true, Bool.false_eq_true]
  rfl

theorem afterCallback_of_seen (h : s.acceptCallback py req = .ok (bid, fields))
    (hseen : s.seenCallback bid fields = true) : s.afterCallback py req = s := by
  unfold afterCallback
  rw [handleCallback_of_accept h, hseen]
  cases fields.fits <;> rfl

theorem afterCallback_of_unfit (h : s.acceptCallback py req = .ok (bid, fields))
    (hfits : fields.fits = false) : s.afterCallback py req = s := by
  unfold afterCallback
  rw [handleCallback_of_accept h, hfits]
  rfl

theorem afterCallback_of_unlinked (h : s.acceptCallback py req = .ok (bid, fields))
    (hfits : fields.fits = true) (hnew : s.seenCallback bid fields = false)
    (hlink : s.linkRun fields.sessionId fields.replyTo = none) :
    s.afterCallback py req = s.store (s.storedCallback py req bid fields) := by
  unfold afterCallback
  rw [handleCallback_of_accept h, hfits, hnew, hlink]
  rfl

theorem afterCallback_of_linked {run : AiRun} {s' : ControlPlane}
    (h : s.acceptCallback py req = .ok (bid, fields)) (hfits : fields.fits = true)
    (hnew : s.seenCallback bid fields = false)
    (hlink : s.linkRun fields.sessionId fields.replyTo = some (pk, run))
    (hadvance : (s.store (s.storedCallback py req bid fields)).advanceRun py pk run
      (s.storedCallback py req bid fields) req.minted req.now = .ok s') :
    s.afterCallback py req = s' := by
  unfold afterCallback
  rw [handleCallback_of_accept h, hfits, hnew, hlink]
  dsimp only
  rw [hadvance]
  rfl

theorem seenCallback_iff : s.seenCallback bid fields = true ↔
    ∃ i c, s.callbacks.row? i = some c ∧ c.bindingId = bid ∧ c.sessionId = fields.sessionId ∧
      c.replyTo = fields.replyTo ∧ c.sequence = fields.sequence := by
  unfold seenCallback
  rw [Option.isSome_iff_exists]
  constructor
  · rintro ⟨⟨i, c⟩, hfirst⟩
    obtain ⟨hrow, hq⟩ := Slots.first?_eq_some hfirst
    simp only [Bool.and_eq_true, decide_eq_true_eq, and_assoc] at hq
    exact ⟨i, c, hrow, hq⟩
  · rintro ⟨i, c, hrow, hb, hsession, hreply, hseq⟩
    by_contra hnone
    have hfalse := Slots.first?_eq_none (Option.eq_none_iff_forall_not_mem.mpr fun x hx =>
      hnone ⟨x, hx⟩) hrow
    simp [hb, hsession, hreply, hseq] at hfalse

theorem seenCallback_store : (s.store cb).seenCallback bid fields = true ↔
    s.seenCallback bid fields = true ∨ cb.bindingId = bid ∧ cb.sessionId = fields.sessionId ∧
      cb.replyTo = fields.replyTo ∧ cb.sequence = fields.sequence := by
  rw [seenCallback_iff, seenCallback_iff]
  unfold store
  constructor
  · rintro ⟨i, c, hrow, hkey⟩
    rw [Slots.row?_add] at hrow
    split at hrow
    · cases hrow
      exact .inr hkey
    · exact .inl ⟨i, c, hrow, hkey⟩
  · rintro (⟨i, c, hrow, hkey⟩ | hkey)
    · exact ⟨i, c, Slots.row?_add_of_some hrow, hkey⟩
    · exact ⟨s.callbacks.size, cb, (Slots.row?_add _).trans (if_pos rfl), hkey⟩

theorem segments_store (hlive : cb.deleted = false) : (s.store cb).segments pk =
    s.segments pk ++ if cb.aiRunId = some pk then [cb] else [] := by
  unfold segments store
  rw [Slots.where_add, List.map_append]
  by_cases hrun : cb.aiRunId = some pk
  · simp [hrun, hlive]
  · simp [hrun]

theorem advanceRun_of_early {run : AiRun} {minted : Minted} {now : Time}
    (hseq : cb.sequence ≠ run.expectedSeq) (hmore : cb.isFinal = false) :
    s.advanceRun py pk run cb minted now = .ok s := by
  unfold advanceRun
  rw [if_pos hseq, hmore, if_neg Bool.false_ne_true]

theorem advanceRun_of_gap {run : AiRun} {minted : Minted} {now : Time}
    (hseq : cb.sequence ≠ run.expectedSeq) (hfinal : cb.isFinal = true) :
    s.advanceRun py pk run cb minted now = .ok ((s.updateRun pk fun r => { r with
      status := .incomplete
      lastError := some s!"gap: expected_seq={run.expectedSeq}, got {cb.sequence}"
      completedAt := some now }).unlockConversation run.conversationId) := by
  unfold advanceRun
  rw [if_pos hseq, if_pos hfinal]

theorem advanceRun_of_next {run : AiRun} {minted : Minted} {now : Time}
    (hseq : cb.sequence = run.expectedSeq) (hmore : cb.isFinal = false) :
    s.advanceRun py pk run cb minted now = .ok (s.updateRun pk fun r => { r with
      expectedSeq := cb.sequence + 1, status := .running }) := by
  unfold advanceRun
  rw [if_neg (not_not.mpr hseq), hmore, if_neg Bool.false_ne_true]

end ControlPlane

/-! ## The door as a receiver -/

namespace LangBotCall

open ControlPlane

variable {s t : ControlPlane} {x : LangBotCall s} {run : AiRun} {has : ℕ → Prop} {taken : List ℕ}
  {next : ℕ} {r : Receiver}

/-- The callback carries segment `k`. -/
def IsPart (x : LangBotCall s) (c : AiCallback) (k : ℕ) : Prop :=
  c.sequence = k ∧ c.payload = x.reply.payload k

/-- The callbacks of the reply that are stored, and those of them that are linked to the run. -/
structure Files (x : LangBotCall s) (t : ControlPlane) (has : ℕ → Prop) (taken : List ℕ) : Prop where
  bindings : t.bindings = s.bindings
  seen : ∀ k, t.seenCallback x.obj.bindingId (x.segment k) = true ↔ has k
  linked : List.Forall₂ x.IsPart (t.segments x.pk) taken

/-- What of a conversation decides which callbacks it links. -/
def place (c : AiConversation) : String × ℕ × Bool := (c.sessionId, c.tenantId, c.deleted)

/-- The run of the trigger is there and expects segment `next`. -/
structure Expects (x : LangBotCall s) (t : ControlPlane) (run : AiRun) (next : ℕ) : Prop where
  row : t.runs.row? x.pk = some run
  others : ∀ i, i ≠ x.pk → t.runs.row? i = s.runs.row? i
  conversations : Slots.SameBy place (s.opened x.out x.obj x.binding).conversations t.conversations
  conversationId : run.conversationId = x.cid
  sessionId : run.sessionId = x.conv.sessionId
  tenantId : run.tenantId = x.conv.tenantId
  accepted : run.acceptedMessageId = some x.reply.replyTo
  live : run.deleted = false
  next : run.expectedSeq = next

def Shows (x : LangBotCall s) (t : ControlPlane) (run : AiRun) : Reception → Prop
  | .open_ => run.status.active = true ∧ t.candidates = s.candidates
  | .broken => run.status = .incomplete
  | .complete => run.status = .completed ∧ run.candidateId = some s.candidates.size ∧
    ∃ c, t.candidates = s.candidates.add c ∧ c.agentRunId = some run.uuid ∧ c.content = x.reply.text

structure Mirrors (x : LangBotCall s) (t : ControlPlane) (r : Receiver) : Prop where
  files : x.Files t (fun k => k ∈ r.aside ∨ k ∈ r.taken) r.taken
  run : ∃ run, x.Expects t run r.next ∧ x.Shows t run r.reception

theorem segment_fits {k : ℕ} (hk : (k : ℤ) < 2 ^ 31) : (x.segment k).fits = true := by
  simp only [CallbackFields.fits, Bool.and_eq_true, decide_eq_true_eq]
  exact ⟨⟨x.short, x.reply.short⟩, hk⟩

theorem segment_unfit {k : ℕ} (hk : ¬ (k : ℤ) < 2 ^ 31) : (x.segment k).fits = false := by
  simp only [CallbackFields.fits, Bool.and_eq_false_iff, decide_eq_false_iff_not]
  exact .inr hk

section Files

variable (h : x.Files t has taken) (a : x.Arrival)

include h

theorem Files.accepts : t.acceptCallback x.py a.req = .ok (x.obj.bindingId, x.segment a.part) := by
  rw [acceptCallback_congr h.bindings]
  exact a.accepted

theorem Files.seen_store (k : ℕ) :
    (t.store (t.storedCallback x.py a.req x.obj.bindingId (x.segment a.part))).seenCallback
      x.obj.bindingId (x.segment k) = true ↔ has k ∨ k = a.part := by
  rw [seenCallback_store, h.seen k]
  refine or_congr_right ⟨?_, ?_⟩
  · rintro ⟨-, -, -, hseq⟩
    exact (Int.ofNat_inj.mp hseq).symm
  · rintro rfl
    exact ⟨rfl, rfl, rfl, rfl⟩

theorem Files.store_unlinked
    (hlink : t.linkRun (x.segment a.part).sessionId (x.segment a.part).replyTo = none) :
    x.Files (t.store (t.storedCallback x.py a.req x.obj.bindingId (x.segment a.part)))
      (fun k => has k ∨ k = a.part) taken := by
  refine ⟨h.bindings, h.seen_store a, ?_⟩
  rw [segments_store rfl, if_neg (by simp [storedCallback, CallbackFields.row, hlink]), List.append_nil]
  exact h.linked

theorem Files.store_linked
    (hlink : t.linkRun (x.segment a.part).sessionId (x.segment a.part).replyTo = some (x.pk, run)) :
    x.Files (t.store (t.storedCallback x.py a.req x.obj.bindingId (x.segment a.part)))
      (fun k => has k ∨ k = a.part) (taken ++ [a.part]) := by
  refine ⟨h.bindings, h.seen_store a, ?_⟩
  rw [segments_store rfl, if_pos (by simp [storedCallback, CallbackFields.row, hlink])]
  exact List.rel_append h.linked (.cons ⟨rfl, rfl⟩ .nil)

theorem Files.congr {t' : ControlPlane} {has' : ℕ → Prop} (hbindings : t'.bindings = t.bindings)
    (hcallbacks : t'.callbacks = t.callbacks) (hhas : ∀ k, has k ↔ has' k) : x.Files t' has' taken := by
  constructor
  · rw [hbindings]
    exact h.bindings
  · intro k
    rw [← hhas, ← h.seen]
    unfold seenCallback
    rw [hcallbacks]
  · unfold segments
    rw [hcallbacks]
    exact h.linked

end Files

section Expects

variable (h : x.Expects t run next)

include h

theorem Expects.conversation : ∃ c, t.conversations.row? x.cid = some c ∧
    c.sessionId = x.conv.sessionId ∧ c.tenantId = x.conv.tenantId ∧ c.deleted = false := by
  have hopened : (s.opened x.out x.obj x.binding).conversations.row? x.cid = some x.conv ∧
      x.conv.deleted = false := opened_row
  obtain ⟨hrow, hlive⟩ := hopened
  obtain ⟨c, hc, hplace⟩ := h.conversations.row_back hrow
  simp only [place, Prod.mk.injEq] at hplace
  exact ⟨c, hc, hplace.1, hplace.2.1, hplace.2.2.trans hlive⟩

theorem Expects.alone {i : ConversationId} {c : AiConversation} (hc : t.conversations.row? i = some c)
    (hsession : c.sessionId = x.conv.sessionId) (hlive : c.deleted = false) : i = x.cid := by
  obtain ⟨d, hd, hplace⟩ := h.conversations.row hc
  simp only [place, Prod.mk.injEq] at hplace
  rcases row_of_opened hd with heq | hd
  · exact heq
  · exact x.alone i d hd (hplace.2.2.trans hlive) (hplace.1.trans hsession)

theorem Expects.linkRun : t.linkRun x.conv.sessionId x.reply.replyTo =
    if run.status.active then some (x.pk, run) else none := by
  obtain ⟨c, hc, hsession, htenant, hlive⟩ := h.conversation
  have hconversation : (t.conversations.first? fun c => c.sessionId = x.conv.sessionId && !c.deleted) =
      some (x.cid, c) := by
    refine Slots.first?_of_alone hc (by simp [hsession, hlive]) fun i d hd hq => ?_
    simp only [Bool.and_eq_true, decide_eq_true_eq, Bool.not_eq_true'] at hq
    exact h.alone hd hq.1 hq.2
  have hothers {i : RunId} {r : AiRun} (hr : t.runs.row? i = some r) (hne : i ≠ x.pk)
      (hsession : r.sessionId = x.conv.sessionId) (hactive : r.status.active = true)
      (hlive : r.deleted = false) : False := by
    rw [h.others i hne] at hr
    have hfalse := Slots.first?_eq_none x.idle hr
    have hsession : r.sessionId = (s.chosen x.out x.obj x.binding).2.sessionId := hsession
    simp [hsession, hactive, hlive] at hfalse
  unfold ControlPlane.linkRun
  rw [hconversation]
  dsimp only
  split
  · rename_i hactive
    refine Slots.first?_of_alone h.row ?_ fun i r hr hq => ?_
    · simp [h.tenantId, htenant, h.live, h.sessionId, hactive, h.accepted]
    · simp only [Bool.and_eq_true, decide_eq_true_eq, Bool.not_eq_true'] at hq
      by_contra hne
      exact hothers hr hne hq.1.1.2 hq.1.2 hq.1.1.1.2
  · rename_i hended
    refine Slots.first?_of_none fun i r hr => ?_
    by_contra hq
    simp only [Bool.not_eq_false, Bool.and_eq_true, decide_eq_true_eq, Bool.not_eq_true'] at hq
    by_cases heq : i = x.pk
    · subst heq
      rw [h.row] at hr
      cases hr
      exact hended hq.1.2
    · exact hothers hr heq hq.1.1.2 hq.1.2 hq.1.1.1.2

theorem Expects.updateRun {f : AiRun → AiRun}
    (hf : ∀ r, (f r).conversationId = r.conversationId ∧ (f r).sessionId = r.sessionId ∧
      (f r).tenantId = r.tenantId ∧ (f r).acceptedMessageId = r.acceptedMessageId ∧
      (f r).deleted = r.deleted) {next' : ℕ} (hnext : (f run).expectedSeq = next') :
    x.Expects (t.updateRun x.pk f) (f run) next' := by
  obtain ⟨hconversation, hsession, htenant, haccepted, hlive⟩ := hf run
  constructor
  · unfold ControlPlane.updateRun
    rw [Slots.row?_modify_self, h.row, Option.map_some]
  · intro i hi
    unfold ControlPlane.updateRun
    rw [Slots.row?_modify, if_neg hi.symm]
    exact h.others i hi
  · exact h.conversations
  · exact hconversation.trans h.conversationId
  · exact hsession.trans h.sessionId
  · exact htenant.trans h.tenantId
  · exact haccepted.trans h.accepted
  · exact hlive.trans h.live
  · exact hnext

theorem Expects.unlock (cid : ConversationId) : x.Expects (t.unlockConversation cid) run next :=
  ⟨h.row, h.others, h.conversations.trans (.modify fun _ => rfl), h.conversationId, h.sessionId,
    h.tenantId, h.accepted, h.live, h.next⟩

theorem Expects.withCandidate (c : AiCandidate) (approval : Approval) :
    x.Expects (t.withCandidate c approval) run next :=
  ⟨h.row, h.others, h.conversations, h.conversationId, h.sessionId, h.tenantId, h.accepted, h.live,
    h.next⟩

theorem Expects.store (cb : AiCallback) : x.Expects (t.store cb) run next :=
  ⟨h.row, h.others, h.conversations, h.conversationId, h.sessionId, h.tenantId, h.accepted, h.live,
    h.next⟩

end Expects

section Text

theorem texts_of_parts {segments : List AiCallback} {parts : List ℕ}
    (h : List.Forall₂ x.IsPart segments parts) (hparts : ∀ k ∈ parts, 1 ≤ k ∧ k ≤ x.reply.count) :
    List.Forall₂ (fun c texts => plainTexts c.payload = some texts) segments
      (parts.map x.reply.texts) := by
  induction h with
  | nil => exact .nil
  | cons hc _ ih =>
    obtain ⟨hpos, hle⟩ := hparts _ List.mem_cons_self
    refine .cons ?_ (ih fun k hk => hparts k (List.mem_cons_of_mem _ hk))
    rw [hc.2]
    exact x.reply.plain _ hpos hle

theorem sequences_of_parts {segments : List AiCallback} {parts : List ℕ}
    (h : List.Forall₂ x.IsPart segments parts) :
    segments.map AiCallback.sequence = parts.map fun k : ℕ => (k : ℤ) := by
  induction h with
  | nil => rfl
  | cons hc _ ih => rw [List.map_cons, List.map_cons, hc.1, ih]

/-- Once all segments are linked in their order, they make the reply. -/
theorem Files.replyText (h : x.Files t has (List.range' 1 x.reply.count)) {cb : AiCallback}
    (hcb : t.SegmentOf x.pk cb) (hpayload : cb.payload = x.reply.payload x.reply.count) :
    t.replyText x.pk cb.payload = some x.reply.text := by
  have hbounds : ∀ k ∈ List.range' 1 x.reply.count, 1 ≤ k ∧ k ≤ x.reply.count := by
    intro k hk
    rw [List.mem_range'_1] at hk
    omega
  have hsorted : inSequence (t.segments x.pk) = t.segments x.pk := by
    apply List.Pairwise.insertionSort_eq
    rw [← List.pairwise_map (f := AiCallback.sequence) (R := fun a b => a ≤ b),
      sequences_of_parts h.linked, List.pairwise_map]
    exact (List.pairwise_lt_range').imp fun hlt => Int.ofNat_le.mpr (Nat.le_of_lt hlt)
  have hjoined : joinedTexts (inSequence (t.segments x.pk)) = some x.reply.text := by
    rw [hsorted, joinedTexts_of_plain (texts_of_parts h.linked hbounds)]
    rfl
  have hfallback := fallbackText_of_plain (x.reply.plain _ x.reply.nonempty (Nat.le_refl _))
  rw [← hpayload] at hfallback
  have hsome : ∃ text, t.replyText x.pk cb.payload = some text := by
    unfold ControlPlane.replyText
    rw [hfallback]
    change ∃ text, assemble (t.segments x.pk) _ = some text
    rw [assemble_eq, hjoined]
    exact ⟨_, rfl⟩
  obtain ⟨text, htext⟩ := hsome
  rw [htext, ← replyText_eq hcb htext, hjoined]

end Text

section Step

variable (h : x.Mirrors t r) (hr : r.Sound x.reply.count) (a : x.Arrival)

theorem Shows.congr {t' : ControlPlane} {reception : Reception} (h : x.Shows t run reception)
    (hcandidates : t'.candidates = t.candidates) : x.Shows t' run reception := by
  cases reception with
  | open_ => exact ⟨h.1, hcandidates.trans h.2⟩
  | broken => exact h
  | complete =>
    obtain ⟨hstatus, hcandidate, c, hadded, hc⟩ := h
    exact ⟨hstatus, hcandidate, c, hcandidates.trans hadded, hc⟩

theorem Shows.inactive {reception : Reception} (h : x.Shows t run reception)
    (hended : reception ≠ .open_) : run.status.active = false := by
  cases reception with
  | open_ => exact absurd rfl hended
  | broken =>
    have hstatus : run.status = .incomplete := h
    rw [hstatus]
    rfl
  | complete =>
    rw [h.1]
    rfl

include h hr

/-- A segment is handled as the receiver handles it. -/
theorem Mirrors.receive (hfits : (a.part : ℤ) < 2 ^ 31) :
    x.Mirrors (t.afterCallback x.py a.req) (r.receive x.reply.count a.part) := by
  have haccept := h.files.accepts a
  have hsegment := segment_fits (x := x) hfits
  have hsound := hr.receive a.pos a.le
  have hreceived := Receiver.received x.reply.count r a.part
  generalize r.receive x.reply.count a.part = r' at hreceived hsound ⊢
  have hunseen (hnew : ¬ (a.part ∈ r.aside ∨ a.part ∈ r.taken)) :
      t.seenCallback x.obj.bindingId (x.segment a.part) = false := by
    rw [← Bool.not_eq_true, h.files.seen]
    exact hnew
  have hadded (k : ℕ) : k ∈ r.aside ∨ k ∈ r.taken ∨ k = a.part ↔
      k ∈ r.aside ∨ k ∈ r.taken ++ [a.part] := by
    rw [List.mem_append, List.mem_singleton]
  obtain ⟨run, hexpects, hshows⟩ := h.run
  cases hreceived with
  | again hhas =>
    rw [afterCallback_of_seen haccept ((h.files.seen _).mpr hhas)]
    exact h
  | ended hnew hended =>
    have hlink := hexpects.linkRun
    rw [hshows.inactive hended, if_neg Bool.false_ne_true] at hlink
    rw [afterCallback_of_unlinked haccept hsegment (hunseen hnew) hlink]
    refine ⟨(h.files.store_unlinked a hlink).congr rfl rfl fun k => ?_, run, hexpects.store _,
      hshows.congr rfl⟩
    rw [List.mem_append, List.mem_singleton]
    exact or_right_comm
  | early hnew hopen hne =>
    obtain ⟨hactive, hsame⟩ : x.Shows t run .open_ := hopen ▸ hshows
    have hlink := hexpects.linkRun
    rw [hactive, if_pos rfl] at hlink
    have hfiles := h.files.store_linked a hlink
    have hseq : (t.storedCallback x.py a.req x.obj.bindingId (x.segment a.part)).sequence ≠
        run.expectedSeq := by
      rw [hexpects.next]
      exact fun heq => hne (Int.ofNat_inj.mp heq)
    by_cases hlast : a.part = x.reply.count
    · rw [afterCallback_of_linked haccept hsegment (hunseen hnew) hlink
        (advanceRun_of_gap hseq (decide_eq_true hlast)), if_pos hlast]
      refine ⟨hfiles.congr rfl rfl fun k => (or_assoc.trans (hadded k)), _,
        ((hexpects.store _).updateRun ?_ ?_).unlock _, ?_⟩
      · exact fun _ => ⟨rfl, rfl, rfl, rfl, rfl⟩
      · exact hexpects.next
      · rfl
    · rw [afterCallback_of_linked haccept hsegment (hunseen hnew) hlink
        (advanceRun_of_early hseq (decide_eq_false hlast)), if_neg hlast]
      exact ⟨hfiles.congr rfl rfl fun k => (or_assoc.trans (hadded k)), run, hexpects.store _,
        hactive, hsame⟩
  | next hnew hopen heq =>
    obtain ⟨hactive, hsame⟩ : x.Shows t run .open_ := hopen ▸ hshows
    have hlink := hexpects.linkRun
    rw [hactive, if_pos rfl] at hlink
    have hfiles := h.files.store_linked a hlink
    have hseq : (x.segment a.part).sequence = run.expectedSeq := by
      rw [hexpects.next, ← heq]
      rfl
    by_cases hlast : a.part = x.reply.count
    · rw [if_pos hlast] at hsound ⊢
      have hcb : (t.store (t.storedCallback x.py a.req x.obj.bindingId (x.segment a.part))).SegmentOf
          x.pk (t.storedCallback x.py a.req x.obj.bindingId (x.segment a.part)) :=
        segmentOf_store.mpr (.inr ⟨rfl, congrArg (Option.map Prod.fst) hlink, rfl⟩)
      have htaken : r.taken ++ [a.part] = List.range' 1 x.reply.count := hsound.taken_of_complete rfl
      have htext := (htaken ▸ hfiles).replyText hcb (congrArg x.reply.payload hlast)
      obtain ⟨c, hc, -, -, hlive⟩ := hexpects.conversation
      have hcompletes : t.Completes x.py a.req x.obj.bindingId (x.segment a.part) x.pk run := by
        refine ⟨haccept, hsegment, hunseen hnew, hlink, decide_eq_true hlast, hseq, ?_, ?_⟩
        · exact Option.isSome_iff_exists.mpr ⟨_, htext⟩
        · rw [hexpects.conversationId]
          exact Option.isSome_iff_exists.mpr ⟨c, conversation_eq_some.mpr ⟨hc, hlive⟩⟩
      obtain ⟨text, conv, htext', hafter⟩ := hcompletes.after
      obtain rfl : x.reply.text = text := Option.some.inj (htext.symm.trans htext')
      rw [hafter]
      refine ⟨hfiles.congr rfl rfl fun k => (or_assoc.trans (hadded k)), _,
        (((hexpects.store _).withCandidate _ _).updateRun ?_ ?_).unlock _, rfl, ?_,
        run.candidate conv (fun t => x.py.sha256 (encode t)) x.reply.text none a.req.minted a.req.now,
        ?_, rfl, rfl⟩
      · exact fun _ => ⟨rfl, rfl, rfl, rfl, rfl⟩
      · rfl
      · change some t.candidates.size = some s.candidates.size
        rw [hsame]
      · change t.candidates.add _ = s.candidates.add _
        rw [hsame]
    · rw [afterCallback_of_linked haccept hsegment (hunseen hnew) hlink
        (advanceRun_of_next hseq (decide_eq_false hlast)), if_neg hlast]
      refine ⟨hfiles.congr rfl rfl fun k => (or_assoc.trans (hadded k)), _,
        (hexpects.store _).updateRun ?_ ?_, ?_, hsame⟩
      · exact fun _ => ⟨rfl, rfl, rfl, rfl, rfl⟩
      · rfl
      · rfl

end Step

/-! ## The whole exchange -/

def parts (arrivals : List x.Arrival) : List ℕ :=
  (arrivals.map Arrival.part).filter fun k => (k : ℤ) < 2 ^ 31

theorem bounds_of_parts {arrivals : List x.Arrival} {k : ℕ} (hk : k ∈ parts arrivals) :
    1 ≤ k ∧ k ≤ x.reply.count := by
  obtain ⟨a, -, rfl⟩ := List.mem_map.mp (List.mem_filter.mp hk).1
  exact ⟨a.pos, a.le⟩

theorem parts_concat (arrivals : List x.Arrival) (a : x.Arrival) : parts (arrivals ++ [a]) =
    parts arrivals ++ if (a.part : ℤ) < 2 ^ 31 then [a.part] else [] := by
  unfold parts
  rw [List.map_append, List.filter_append, List.map_singleton]
  by_cases hfits : (a.part : ℤ) < 2 ^ 31
  · simp only [List.filter_cons, hfits, decide_true, if_true, List.filter_nil]
  · simp only [List.filter_cons, hfits, decide_false, Bool.false_eq_true, if_false, List.filter_nil]

theorem run_aiStep (s : ControlPlane) (as : List AiAction) :
    Machine.run aiStep s as = some (as.foldl aiNext s) := by
  induction as generalizing s with
  | nil => rfl
  | cons a as ih => exact ih (aiNext s a)

theorem files_early (hs : s.Segmented) (early : List x.Arrival) : ∃ callbacks,
    (early.map Arrival.action).foldl aiNext s = { s with callbacks := callbacks } ∧
      x.Files { s with callbacks := callbacks } (fun k => k ∈ parts early) [] := by
  induction early using List.reverseRecOn with
  | nil =>
    refine ⟨s.callbacks, rfl, rfl, fun k => ?_, ?_⟩
    · simp only [parts, List.map_nil, List.filter_nil, List.not_mem_nil, iff_false]
      intro hseen
      obtain ⟨i, c, hrow, -, hsession, hreply, -⟩ := seenCallback_iff.mp hseen
      exact x.fresh i c hrow hsession hreply
    · have hnone : s.segments x.pk = [] := by
        apply List.eq_nil_iff_forall_not_mem.mpr
        intro c hc
        obtain ⟨r, hr, -⟩ := hs.linked x.pk c (mem_segments.mp hc)
        rw [LangBotCall.pk, Slots.row?_size] at hr
        cases hr
      change List.Forall₂ x.IsPart (s.segments x.pk) []
      rw [hnone]
      exact .nil
  | append_singleton early a ih =>
    obtain ⟨callbacks, hstate, hfiles⟩ := ih
    rw [List.map_append, List.foldl_append, hstate]
    change ∃ callbacks', ControlPlane.afterCallback _ x.py a.req = _ ∧ _
    have haccept := hfiles.accepts a
    rw [parts_concat]
    split
    · rename_i hfits
      by_cases hseen : a.part ∈ parts early
      · rw [afterCallback_of_seen haccept ((hfiles.seen _).mpr hseen)]
        refine ⟨callbacks, rfl, hfiles.congr rfl rfl fun k => ?_⟩
        rw [List.mem_append, List.mem_singleton]
        exact ⟨.inl, fun hk => hk.elim id fun heq => heq ▸ hseen⟩
      · have hlink : ControlPlane.linkRun { s with callbacks := callbacks } (x.segment a.part).sessionId
            (x.segment a.part).replyTo = none := by
          unfold ControlPlane.linkRun
          split
          · rfl
          · refine Slots.first?_of_none fun i r hr => ?_
            have hfalse := Slots.first?_eq_none x.idle hr
            by_contra hq
            simp only [Bool.not_eq_false, Bool.and_eq_true, decide_eq_true_eq, Bool.not_eq_true'] at hq
            have hsession : r.sessionId = (s.chosen x.out x.obj x.binding).2.sessionId := hq.1.1.2
            simp [hsession, hq.1.2, hq.1.1.1.2] at hfalse
        have hnew : ControlPlane.seenCallback { s with callbacks := callbacks } x.obj.bindingId
            (x.segment a.part) = false := by
          rw [← Bool.not_eq_true, hfiles.seen]
          exact hseen
        rw [afterCallback_of_unlinked haccept (segment_fits hfits) hnew hlink]
        refine ⟨_, rfl, (hfiles.store_unlinked a hlink).congr rfl rfl fun k => ?_⟩
        rw [List.mem_append, List.mem_singleton]
    · rename_i hfits
      rw [afterCallback_of_unfit haccept (segment_unfit hfits), List.append_nil]
      exact ⟨callbacks, rfl, hfiles⟩

theorem mirrors_trigger {callbacks : Slots AiCallback} {early : List ℕ}
    (hfiles : x.Files { s with callbacks := callbacks } (fun k => k ∈ early) []) :
    x.Mirrors (aiNext { s with callbacks := callbacks } (.trigger x.out x.obj false))
      (.opened early) := by
  have hopened : ControlPlane.opened { s with callbacks := callbacks } x.out x.obj x.binding =
      { s.opened x.out x.obj x.binding with callbacks := callbacks } := by
    unfold ControlPlane.opened
    change (match s.conversationByScope x.binding x.obj (s.currentEpoch x.binding x.obj) with
      | some _ => _
      | none => _) = _
    cases s.conversationByScope x.binding x.obj (s.currentEpoch x.binding x.obj) <;> rfl
  have hnext : aiNext { s with callbacks := callbacks } (.trigger x.out x.obj false) =
      ControlPlane.dispatched { s with callbacks := callbacks } x.out x.obj x.binding :=
    trigger_dispatched x.found x.active x.langbot x.resolved x.submits x.idle
  rw [hnext]
  have hruns : (ControlPlane.dispatched { s with callbacks := callbacks } x.out x.obj x.binding).runs =
      (s.runs.add (x.obj.firstRun x.out x.binding (s.chosen x.out x.obj x.binding))).modify x.pk
        fun r => { r with
          status := .dispatched
          acceptedMessageId := (x.out.submit (x.obj.submission x.out x.binding
            (s.chosen x.out x.obj x.binding))).acceptedMessageId } := rfl
  have hrow : (s.runs.add (x.obj.firstRun x.out x.binding (s.chosen x.out x.obj x.binding))).row? x.pk =
      some (x.obj.firstRun x.out x.binding (s.chosen x.out x.obj x.binding)) :=
    (Slots.row?_add _).trans (if_pos rfl)
  constructor
  · refine hfiles.congr ?_ ?_ fun k => (or_iff_left List.not_mem_nil).symm
    · change (ControlPlane.opened { s with callbacks := callbacks } x.out x.obj x.binding).bindings = _
      rw [hopened, opened_eq]
    · change (ControlPlane.opened { s with callbacks := callbacks } x.out x.obj x.binding).callbacks = _
      rw [hopened]
  · refine ⟨x.obj.dispatchedRun x.out x.binding (s.chosen x.out x.obj x.binding),
      ⟨?_, fun i hi => ?_, ?_, rfl, rfl, rfl, x.accepted, rfl, rfl⟩, rfl, ?_⟩
    · rw [hruns, Slots.row?_modify_self, hrow, Option.map_some]
      rfl
    · rw [hruns, Slots.row?_modify, if_neg hi.symm, Slots.row?_add]
      exact if_neg hi
    · change Slots.SameBy place _ ((ControlPlane.opened { s with callbacks := callbacks } x.out x.obj
        x.binding).conversations.modify _ _)
      rw [hopened]
      exact .modify fun _ => rfl
    · change (ControlPlane.opened { s with callbacks := callbacks } x.out x.obj x.binding).candidates = _
      rw [hopened, opened_eq]

theorem mirrors_late (hs : s.Segmented) (early late : List x.Arrival) : x.Mirrors
    ((x.actions early late).foldl aiNext s)
      (.receiveAll x.reply.count (parts early) (parts late)) := by
  induction late using List.reverseRecOn with
  | nil =>
    obtain ⟨callbacks, hstate, hfiles⟩ := files_early hs early
    unfold actions
    rw [List.foldl_append, hstate]
    exact mirrors_trigger hfiles
  | append_singleton late a ih =>
    have hactions : x.actions early (late ++ [a]) = x.actions early late ++ [a.action] := by
      simp [actions]
    rw [hactions, List.foldl_append, parts_concat]
    change x.Mirrors (ControlPlane.afterCallback _ x.py a.req) _
    split
    · rename_i hfits
      rw [Receiver.receiveAll_concat]
      exact ih.receive (Receiver.sound_receiveAll fun k => bounds_of_parts) a hfits
    · rename_i hfits
      rw [List.append_nil, afterCallback_of_unfit (ih.files.accepts a) (segment_unfit hfits)]
      exact ih

theorem Mirrors.answered_iff (h : x.Mirrors t r) : x.Answered t ↔ r.reception = .complete := by
  obtain ⟨run, hexpects, hshows⟩ := h.run
  constructor
  · rintro ⟨run', c, hrow, hstatus, -⟩
    rw [hexpects.row] at hrow
    cases hrow
    cases hreception : r.reception with
    | complete => rfl
    | open_ =>
      rw [hreception] at hshows
      have hactive := hshows.1
      rw [hstatus] at hactive
      cases hactive
    | broken =>
      rw [hreception] at hshows
      have hbroken : run.status = .incomplete := hshows
      rw [hstatus] at hbroken
      cases hbroken
  · intro hcomplete
    rw [hcomplete] at hshows
    obtain ⟨hstatus, hcandidate, c, hadded, hrun, htext⟩ := hshows
    exact ⟨run, c, hexpects.row, hstatus, hcandidate, hadded, hrun, htext⟩

/-- Once the trigger and all segments of its reply have been handled, in any order and any number of
times, the run is completed with the reply exactly if no segment arrived before the trigger had
committed, each arrived after the one before it, and their numbers fit into the column. -/
theorem reply_answered_iff (x : LangBotCall s) (hs : s.Segmented) (early late : List x.Arrival)
    (hall : ∀ k, 1 ≤ k → k ≤ x.reply.count → ∃ a ∈ early ++ late, a.part = k) :
    (∃ t, Machine.run aiStep s (x.actions early late) = some t ∧ x.Answered t) ↔
      early = [] ∧ Successive (late.map Arrival.part) ∧ x.reply.count < 2 ^ 31 := by
  have hmirrors := mirrors_late hs early late
  have hsound : (Receiver.receiveAll x.reply.count (parts early) (parts late)).Sound x.reply.count :=
    Receiver.sound_receiveAll fun k => bounds_of_parts
  have hrun : (∃ t, Machine.run aiStep s (x.actions early late) = some t ∧ x.Answered t) ↔
      x.Answered ((x.actions early late).foldl aiNext s) := by
    rw [run_aiStep]
    exact ⟨fun ⟨t, ht, h⟩ => Option.some.inj ht ▸ h, fun h => ⟨_, rfl, h⟩⟩
  rw [hrun, hmirrors.answered_iff]
  by_cases hfits : x.reply.count < 2 ^ 31
  · have hparts (arrivals : List x.Arrival) : parts arrivals = arrivals.map Arrival.part := by
      apply List.filter_eq_self.mpr
      intro k hk
      obtain ⟨a, -, rfl⟩ := List.mem_map.mp hk
      have hle := a.le
      exact decide_eq_true (by omega)
    have hcover : ∀ k, 1 ≤ k → k ≤ x.reply.count → k ∈ parts early ∨ k ∈ parts late := by
      intro k hpos hle
      obtain ⟨a, ha, rfl⟩ := hall k hpos hle
      rw [hparts, hparts]
      exact (List.mem_append.mp ha).imp List.mem_map_of_mem List.mem_map_of_mem
    rw [Receiver.complete_iff x.reply.nonempty (fun k => bounds_of_parts)
      (fun k => bounds_of_parts) hcover,
      hparts, hparts, List.map_eq_nil_iff]
    exact ⟨fun h => ⟨h.1, h.2, hfits⟩, fun h => ⟨h.1, h.2.1⟩⟩
  · refine iff_of_false (fun hcomplete => hfits ?_) fun h => hfits h.2.2
    -- the last segment has been taken in, so its number fits
    have htaken := hsound.taken_of_complete hcomplete
    have hpos := x.reply.nonempty
    have hlast : x.reply.count ∈ List.range' 1 x.reply.count := by
      rw [List.mem_range'_1]
      omega
    rw [← htaken] at hlast
    have harrived := ((Receiver.follows_receiveAll (parts early) (parts late)).taken _ hlast).1
    have hbound := of_decide_eq_true (List.mem_filter.mp harrived).2
    omega

end LangBotCall

/-! ## Two segments -/

namespace ControlPlane

def awaiting : ControlPlane :=
  let binding : AiBinding := {
    uuid := "b", tenantId := 2, projectId := 2, accountId := 2, botUuid := "", baseUrl := ""
    inboundSecretRef := "env:B", outboundSecretRef := "env:B" }
  { twoBindings with
    bindings := ⟨[none, some binding]⟩
    runs := .empty }

/-- LangBot accepts every message as `in_1`. -/
def langBot : Outside :=
  { silence with
    python := Piece.python
    submit := fun _ => { ok := true, acceptedMessageId := some "in_1" } }

/-- The reply `a` and `b` to the message `in_1`. -/
def twoSegments : SegmentedReply where
  replyTo := "in_1"
  count := 2
  payload k := if k = 1 then Piece.first.json else Piece.second.json
  texts k := if k = 1 then ["a"] else ["b"]
  nonempty := by decide
  short := by decide
  plain := by
    intro k hpos hle
    obtain rfl | rfl : k = 1 ∨ k = 2 := by omega
    · rfl
    · rfl

def twoSegmentCall : LangBotCall awaiting where
  out := langBot
  obj := { bindingId := 1, chatId := 7, text := "hello" }
  binding := {
    uuid := "b", tenantId := 2, projectId := 2, accountId := 2, botUuid := "", baseUrl := ""
    inboundSecretRef := "env:B", outboundSecretRef := "env:B" }
  secret := "kb"
  py := Piece.python
  reply := twoSegments
  found := rfl
  active := rfl
  langbot := by decide
  resolved := by decide +kernel
  submits := rfl
  accepted := rfl
  idle := rfl
  short := by decide
  alone := by
    intro i c hc _ _
    have hmem : (i, c) ∈ awaiting.conversations.all := Slots.mem_all.mpr hc
    obtain ⟨rfl, -⟩ := Prod.mk.inj (List.mem_singleton.mp hmem)
    rfl
  fresh := by
    intro i c hc
    cases hc

namespace Piece

variable (p : Piece)

def request : CallbackRequest where
  bindingUuid := "b"
  body := p.body
  timestamp := some "1700000000"
  signature := some ("sha256=" ++ p.signature)
  clock := 1700000000
  now := 1700000000000000

variable {p} in
theorem loads_of_find {bytes : Bytes}
    (h : ([first, second, third].find? fun p => bytes = p.body) = some p) :
    python.loads bytes = .ok p.json := by
  simp only [python, h]

/-- A piece in its own signature is accepted as the segment that its body holds. -/
theorem accepts {k : ℕ}
    (hverify : verifyCallbackSignature python "kb" p.body (some "1700000000")
      (some ("sha256=" ++ p.signature)) 1700000000 = .ok (true, ""))
    (hfields : callbackFields python p.body = .ok (twoSegmentCall.segment k)) :
    awaiting.acceptCallback python p.request = .ok (1, twoSegmentCall.segment k) := by
  have hbinding : awaiting.bindingByUuid "b" = some (1, twoSegmentCall.binding) := rfl
  have hsecret : resolveSecret python "env:B" = .ok "kb" := by decide +kernel
  exact acceptCallback_of hbinding rfl hsecret hverify hfields

end Piece

def firstArrival : twoSegmentCall.Arrival where
  req := Piece.first.request
  part := 1
  pos := by decide
  le := by decide
  accepted := by
    have hloads : Piece.python.loads Piece.first.body = .ok Piece.first.json := by
      apply Piece.loads_of_find
      rw [List.find?_cons_of_pos (by simp)]
    refine Piece.first.accepts (by decide +kernel) ?_
    unfold callbackFields
    rw [hloads]
    rfl

def secondArrival : twoSegmentCall.Arrival where
  req := Piece.second.request
  part := 2
  pos := by decide
  le := by decide
  accepted := by
    have hother : Piece.second.body ≠ Piece.first.body := by decide +kernel
    have hloads : Piece.python.loads Piece.second.body = .ok Piece.second.json := by
      apply Piece.loads_of_find
      rw [List.find?_cons_of_neg (by simpa using hother), List.find?_cons_of_pos (by simp)]
    refine Piece.second.accepts (by decide +kernel) ?_
    unfold callbackFields
    rw [hloads]
    rfl

theorem arrives_of_le {k : ℕ} (hpos : 1 ≤ k) (hle : k ≤ twoSegmentCall.reply.count) :
    ∃ a ∈ [secondArrival, firstArrival], a.part = k := by
  have hle : k ≤ 2 := hle
  obtain rfl | rfl : k = 1 ∨ k = 2 := by omega
  · exact ⟨firstArrival, by simp, rfl⟩
  · exact ⟨secondArrival, by simp, rfl⟩

theorem segmented_awaiting : awaiting.Segmented where
  unique i j c d hc := by cases hc
  positive i c hc := by cases hc
  linked := by
    rintro pk c ⟨i, hi, -⟩
    cases hi
  received := by
    intro pk r k hr
    cases hr

/-- The segments in their order, the second one twice. -/
theorem segments_in_order_answered : ∃ t, Machine.run aiStep awaiting
    (twoSegmentCall.actions [] [firstArrival, secondArrival, secondArrival]) = some t ∧
      twoSegmentCall.Answered t := by
  refine (LangBotCall.reply_answered_iff twoSegmentCall segmented_awaiting [] _ ?_).mpr
    ⟨rfl, ?_, by decide⟩
  · intro k hpos hle
    obtain ⟨a, ha, hpart⟩ := arrives_of_le hpos hle
    refine ⟨a, ?_, hpart⟩
    simpa [or_comm] using ha
  · rintro (_ | ⟨i, _ | ⟨j, _ | ⟨k, before⟩⟩⟩) l after heq hone
    · cases heq
      exact absurd hone (by decide)
    · cases heq
      exact List.mem_singleton.mpr rfl
    · cases heq
      exact List.mem_cons_self
    · have hlength := congrArg List.length heq
      simp at hlength

/-- A last segment that comes first leaves the run incomplete. -/
theorem last_segment_first_lost : ¬ ∀ (s : ControlPlane) (x : LangBotCall s), s.Segmented →
    ∀ early late : List x.Arrival,
      (∀ k, 1 ≤ k → k ≤ x.reply.count → ∃ a ∈ early ++ late, a.part = k) →
        ∃ t, Machine.run aiStep s (x.actions early late) = some t ∧ x.Answered t := by
  intro h
  have hobserved : ((Machine.run aiStep awaiting
      (twoSegmentCall.actions [] [secondArrival, firstArrival])).bind fun t =>
        (t.runs.row? 0).map AiRun.status) = some .incomplete := by
    decide +kernel
  obtain ⟨t, hrun, r, c, hrow, hstatus, -⟩ :=
    h awaiting twoSegmentCall segmented_awaiting [] [secondArrival, firstArrival]
      fun _ => arrives_of_le
  have hpk : t.runs.row? 0 = some r := hrow
  rw [hrun, Option.bind_some, hpk, Option.map_some, hstatus] at hobserved
  cases hobserved

end ControlPlane

end TgPlatform
