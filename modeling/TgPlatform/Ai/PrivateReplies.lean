import TgPlatform.Ai.GroupEvents
import TgPlatform.Ai.Library
import TgPlatform.Control.AiScope
import TgPlatform.Lib.Except
import TgPlatform.Lib.Expiring
import TgPlatform.Lib.Machine

/-! # Replies to private messages

A private message that a worker reports is answered with a configured text and
forwarded to a configured chat. Redis keeps a claim for each message and a
cooldown for each sender; the statements of the handlers interleave in any
order, with each other and with all else that rewrites the tables.
-/

namespace TgPlatform

/-- `GROUP_EVENT_CLAIM_TTL_S`, in microseconds. -/
def groupEventClaimTtl : Time := 86400 * 1000000

namespace AiPrivateReply

variable (cfg : AiPrivateReply)

def answer : Option String := truthy (cfg.replyText.map strip)

/-- `reply_cooldown_min`, in microseconds. -/
def cooldown : Time := cfg.replyCooldownMin * 60 * 1000000

def forwardTo : Option ℤ := cfg.forwardChatId.filter fun chatId => chatId ≠ 0

end AiPrivateReply

namespace ControlPlane

variable (s : ControlPlane) (sha256 : String → String) (account : TelegramAccount)

def privateSettings : Option AiPrivateReply :=
  ((s.privateRepliesOf none none (some account.id)).head?.map Prod.snd).filter fun cfg =>
    cfg.enabled && cfg.tenantId = account.tenantId

/-- `_direct_send`: a candidate with an approval, and its send job. -/
def directSend (chatId : ℤ) (text : String) (minted : Minted) (now : Time) :
    Except Raised ControlPlane :=
  let candidate : AiCandidate := {
    uuid := minted.candidate
    tenantId := account.tenantId
    projectId := account.projectId
    accountId := account.id
    targetChatId := chatId
    content := text
    contentHash := sha256 text
    expiresAt := now + candidateTtl }
  let approval := { s.approvalOf candidate true minted now with reason := some "私信自动回复/转发" }
  ((s.withCandidate candidate approval).approveCandidate s.candidates.size).createSendJob
    approval candidate now

/-- Send a text if there is one. The job that is queued for it comes with the tables. -/
def directSend? (message : Option (ℤ × String)) (minted : Minted) (now : Time) :
    Except Raised (ControlPlane × Option ℕ) :=
  match message with
  | none => .ok (s, none)
  | some (chatId, text) => (s.directSend sha256 account chatId text minted now).map fun s' =>
    (s', if s'.jobs.size = s.jobs.size then none else some s.jobs.size)

variable {s sha256 account} {s' : ControlPlane} {message : Option (ℤ × String)} {minted : Minted}
  {now : Time} {queued : Option ℕ}

theorem directSend_jobs {chatId : ℤ} {text : String}
    (h : s.directSend sha256 account chatId text minted now = .ok s') :
    s'.jobs = s.jobs ∨ ∃ job, s'.jobs = s.jobs.add job := by
  rcases createSendJob_cases h with rfl | ⟨t, p, a, -, -, -, rfl⟩
  · exact .inl rfl
  · exact .inr ⟨_, rfl⟩

theorem directSend?_job (h : s.directSend? sha256 account message minted now = .ok (s', queued))
    {id : ℕ} {job : DeliveryJob} (hjob : s'.jobs.row? id = some job) :
    s.jobs.row? id = some job ∨ queued = some id := by
  cases message with
  | none =>
    cases h
    exact .inl hjob
  | some m =>
    simp only [directSend?] at h
    cases hsent : s.directSend sha256 account m.1 m.2 minted now with
    | error err =>
      rw [hsent] at h
      cases h
    | ok t =>
      rw [hsent] at h
      cases h
      rcases directSend_jobs hsent with hjobs | ⟨new, hjobs⟩
      · rw [hjobs] at hjob
        exact .inl hjob
      · rw [hjobs, Slots.row?_add] at hjob
        split at hjob
        · rename_i hid
          right
          rw [hjobs, Slots.size_add, if_neg (Nat.succ_ne_self _), hid]
        · exact .inl hjob

theorem directSend?_none (h : s.directSend? sha256 account none minted now = .ok (s', queued)) :
    queued = none := by
  cases h
  rfl

end ControlPlane

/-! ## A handler -/

inductive PrivatePoint
  | configuring
  | checking (cfg : AiPrivateReply)
  | claiming (cfg : AiPrivateReply)
  | cooling (cfg : AiPrivateReply)
  | sending (cfg : AiPrivateReply) (answer : Option String)
  /-- The transaction is committed; these are the jobs that it queued. -/
  | done (cfg : AiPrivateReply) (reply forward : Option ℕ)
  | quit

/-- One call of `handle_private_event`. -/
structure PrivateHandler where
  account : TelegramAccount
  obj : AiGroupEvent
  senderId : ℤ
  /-- The tables that the sender was looked up in. -/
  seen : ControlPlane
  claim : Option (Grant String Time) := none
  cooldown : Option (Grant String Time) := none
  point : PrivatePoint := .configuring

/-- Redis, the tables and the calls. -/
structure PrivateDesk where
  plane : ControlPlane
  store : Expiring String Time
  now : Time
  handlers : Table PrivateHandler

namespace PrivateHandler

variable (h : PrivateHandler)

def claimKey : String := s!"tg:ai:pm:{h.account.id}:{h.obj.chatId}:{h.obj.messageId}"

def cooldownKey : String := s!"tg:ai:pm_cd:{h.account.id}:{h.senderId}"

def body : String :=
  "[私信] " ++ h.obj.senderName ++ s!"({h.senderId}):\n" ++ String.ofList (h.obj.text.toList.take 1500)

def send (cfg : AiPrivateReply) (answer : Option String) (sha256 : String → String)
    (reply forward : Minted) (s : ControlPlane) (now : Time) :
    Except Raised (ControlPlane × Option ℕ × Option ℕ) := do
  let (s, replied) ←
    s.directSend? sha256 h.account (answer.map fun text => (h.obj.chatId, text)) reply now
  let (s, forwarded) ←
    s.directSend? sha256 h.account (cfg.forwardTo.map fun chatId => (chatId, h.body)) forward now
  return (s, replied, forwarded)

/-- The next statement. Redis keeps what it has set when an exception ends the call. -/
def advance (sha256 : String → String) (reply forward : Minted) (s : PrivateDesk) :
    Option (PrivateHandler × PrivateDesk) :=
  match h.point with
  | .configuring =>
    match s.plane.privateSettings h.account with
    | none => some ({ h with point := .quit }, s)
    | some cfg => some ({ h with point := .checking cfg }, s)
  | .checking cfg =>
    if h.senderId ∈ s.plane.managedUserIds h.account.tenantId then some ({ h with point := .quit }, s)
    else some ({ h with seen := s.plane, point := .claiming cfg }, s)
  | .claiming cfg =>
    let stop := s.now + groupEventClaimTtl
    match s.store.setAbsent s.now stop h.claimKey with
    | none => some ({ h with point := .quit }, s)
    | some store =>
      some ({ h with claim := some ⟨h.claimKey, s.now, stop⟩, point := .cooling cfg }, { s with store })
  | .cooling cfg =>
    if cfg.answer = none ∨ cfg.replyCooldownMin = 0 then
      some ({ h with point := .sending cfg cfg.answer }, s)
    else if cfg.replyCooldownMin < 0 then some ({ h with point := .quit }, s)  -- `invalid expire time`
    else
      let stop := s.now + cfg.cooldown
      match s.store.setAbsent s.now stop h.cooldownKey with
      | none => some ({ h with point := .sending cfg none }, s)
      | some store =>
        some ({ h with
          cooldown := some ⟨h.cooldownKey, s.now, stop⟩, point := .sending cfg cfg.answer },
          { s with store })
  | .sending cfg answer =>
    match h.send cfg answer sha256 reply forward s.plane s.now with
    | .error _ => some ({ h with point := .quit }, s)
    | .ok (plane, replied, forwarded) =>
      some ({ h with point := .done cfg replied forwarded }, { s with plane })
  | .done .. | .quit => none

def reply : Option ℕ :=
  match h.point with
  | .done _ reply _ => reply
  | _ => none

def forward : Option ℕ :=
  match h.point with
  | .done _ _ forward => forward
  | _ => none

def Sent : Prop := h.reply.isSome ∨ h.forward.isSome

theorem Sent.point {h : PrivateHandler} (hsent : h.Sent) :
    ∃ cfg reply forward, h.point = .done cfg reply forward := by
  unfold Sent PrivateHandler.reply PrivateHandler.forward at hsent
  cases hpoint : h.point with
  | done cfg reply forward => exact ⟨cfg, reply, forward, rfl⟩
  | configuring | checking | claiming | cooling | sending | quit => simp [hpoint] at hsent

/-- The calls are for one message of one account. -/
def SameMessage (h h' : PrivateHandler) : Prop :=
  h.account.id = h'.account.id ∧ h.obj.chatId = h'.obj.chatId ∧ h.obj.messageId = h'.obj.messageId

end PrivateHandler

inductive PrivateAction
  | wait (d : ℕ)
  /-- Another transaction commits. -/
  | change (plane : ControlPlane)
  | report (obj : AiGroupEvent)
  | advance (i : ℕ) (reply forward : Minted)

namespace PrivateDesk

def start (plane : ControlPlane) (store : Expiring String Time) (now : Time) : PrivateDesk :=
  ⟨plane, store, now, .empty⟩

/-- The call for a report that names a live account and a sender who may be answered. -/
def opened (s : PrivateDesk) (obj : AiGroupEvent) : Option PrivateHandler := do
  let account ← s.plane.dir.account obj.apiRowId
  let senderId ← obj.senderId
  if obj.chatClass = some "private" ∧ obj.senderIsBot = false ∧
      account.telegramUserId ≠ some senderId then
    some { account, obj, senderId, seen := s.plane }
  else none

def step (sha256 : String → String) (s : PrivateDesk) : PrivateAction → Option PrivateDesk
  | .wait d => some { s with now := s.now + d }
  | .change plane => some { s with plane }
  | .report obj =>
    match s.opened obj with
    | none => some s
    | some h => some { s with handlers := s.handlers.insert h }
  | .advance i reply forward => do
    let h ← s.handlers.get? i
    let (h', s') ← h.advance sha256 reply forward s
    some { s' with handlers := s.handlers.update i fun _ => h' }

end PrivateDesk

/-! ## What a statement does -/

namespace PrivateHandler

variable {h h' : PrivateHandler} {s s' : PrivateDesk} {sha256 : String → String}
  {reply forward : Minted}

inductive Advanced (h : PrivateHandler) (s : PrivateDesk) : PrivateHandler → PrivateDesk → Prop
  | quits : Advanced h s { h with point := .quit } s
  | configures (cfg : AiPrivateReply) (hpoint : h.point = .configuring) :
      Advanced h s { h with point := .checking cfg } s
  | checks (cfg : AiPrivateReply) (hpoint : h.point = .checking cfg)
      (hsender : h.senderId ∉ s.plane.managedUserIds h.account.tenantId) :
      Advanced h s { h with seen := s.plane, point := .claiming cfg } s
  | claims (cfg : AiPrivateReply) (store : Expiring String Time) (hpoint : h.point = .claiming cfg)
      (hset : s.store.setAbsent s.now (s.now + groupEventClaimTtl) h.claimKey = some store) :
      Advanced h s { h with
        claim := some ⟨h.claimKey, s.now, s.now + groupEventClaimTtl⟩, point := .cooling cfg }
        { s with store }
  | skips (cfg : AiPrivateReply) (answer : Option String) (hpoint : h.point = .cooling cfg)
      (hskip : answer = none ∨ cfg.replyCooldownMin = 0) :
      Advanced h s { h with point := .sending cfg answer } s
  | cools (cfg : AiPrivateReply) (store : Expiring String Time) (hpoint : h.point = .cooling cfg)
      (hset : s.store.setAbsent s.now (s.now + cfg.cooldown) h.cooldownKey = some store) :
      Advanced h s { h with
        cooldown := some ⟨h.cooldownKey, s.now, s.now + cfg.cooldown⟩
        point := .sending cfg cfg.answer } { s with store }
  | sends (cfg : AiPrivateReply) (answer : Option String) (plane : ControlPlane)
      (replied forwarded : Option ℕ) (hpoint : h.point = .sending cfg answer)
      (hreply : answer = none → replied = none)
      (hjobs : ∀ id job, plane.jobs.row? id = some job →
        s.plane.jobs.row? id = some job ∨ replied = some id ∨ forwarded = some id) :
      Advanced h s { h with point := .done cfg replied forwarded } { s with plane }

theorem send_ok {cfg : AiPrivateReply} {answer : Option String} {plane plane' : ControlPlane}
    {now : Time} {replied forwarded : Option ℕ}
    (hsend : h.send cfg answer sha256 reply forward plane now = .ok (plane', replied, forwarded)) :
    (answer = none → replied = none) ∧ ∀ id job, plane'.jobs.row? id = some job →
      plane.jobs.row? id = some job ∨ replied = some id ∨ forwarded = some id := by
  unfold send at hsend
  obtain ⟨⟨middle, r⟩, hreply, hsend⟩ := Except.bind_eq_ok.mp hsend
  obtain ⟨⟨last, f⟩, hforward, hsend⟩ := Except.bind_eq_ok.mp hsend
  cases hsend
  constructor
  · rintro rfl
    exact ControlPlane.directSend?_none hreply
  · intro id job hjob
    rcases ControlPlane.directSend?_job hforward hjob with hjob | hforwarded
    · exact (ControlPlane.directSend?_job hreply hjob).imp_right Or.inl
    · exact .inr (.inr hforwarded)

theorem advance_cases (hadvance : h.advance sha256 reply forward s = some (h', s')) :
    Advanced h s h' s' := by
  unfold advance at hadvance
  split at hadvance
  · rename_i hpoint
    split at hadvance <;> cases hadvance
    · exact .quits
    · exact .configures _ hpoint
  · rename_i cfg hpoint
    split at hadvance <;> cases hadvance
    · exact .quits
    · rename_i hsender
      exact .checks cfg hpoint hsender
  · rename_i cfg hpoint
    dsimp only at hadvance
    split at hadvance <;> cases hadvance
    · exact .quits
    · rename_i store hset
      exact .claims cfg store hpoint hset
  · rename_i cfg hpoint
    dsimp only at hadvance
    split at hadvance
    · rename_i hskip
      cases hadvance
      exact .skips cfg _ hpoint hskip
    · split at hadvance
      · cases hadvance
        exact .quits
      · split at hadvance <;> cases hadvance
        · exact .skips cfg none hpoint (.inl rfl)
        · rename_i store hset
          exact .cools cfg store hpoint hset
  · rename_i cfg answer hpoint
    split at hadvance <;> cases hadvance
    · exact .quits
    · rename_i plane replied forwarded hsend
      obtain ⟨hreply, hjobs⟩ := send_ok hsend
      exact .sends cfg answer plane replied forwarded hpoint hreply hjobs
  · cases hadvance
  · cases hadvance

/-! ## What holds of a call -/

/-- The sender is none of the tenant's accounts. -/
def Outsider (h : PrivateHandler) : Prop := h.senderId ∉ h.seen.managedUserIds h.account.tenantId

def Claimed (h : PrivateHandler) : Prop :=
  ∃ t, h.claim = some ⟨h.claimKey, t, t + groupEventClaimTtl⟩

def Cooled (h : PrivateHandler) (cfg : AiPrivateReply) : Prop :=
  cfg.replyCooldownMin = 0 ∨ ∃ t, h.cooldown = some ⟨h.cooldownKey, t, t + cfg.cooldown⟩

def Sound (h : PrivateHandler) : Prop :=
  match h.point with
  | .configuring | .checking _ => h.claim = none ∧ h.cooldown = none
  | .claiming _ => h.Outsider ∧ h.claim = none ∧ h.cooldown = none
  | .cooling _ => h.Outsider ∧ h.Claimed ∧ h.cooldown = none
  | .sending cfg answer => h.Outsider ∧ h.Claimed ∧ (answer ≠ none → h.Cooled cfg)
  | .done cfg reply _ => h.Outsider ∧ h.Claimed ∧ (reply ≠ none → h.Cooled cfg)
  | .quit => True

theorem Advanced.sound (hadvanced : Advanced h s h' s') (hsound : h.Sound) : h'.Sound := by
  cases hadvanced with
  | quits => trivial
  | configures cfg hpoint =>
    simp only [Sound, hpoint] at hsound
    exact hsound
  | checks cfg hpoint hsender =>
    simp only [Sound, hpoint] at hsound
    exact ⟨hsender, hsound⟩
  | claims cfg store hpoint hset =>
    simp only [Sound, hpoint] at hsound
    exact ⟨hsound.1, ⟨s.now, rfl⟩, hsound.2.2⟩
  | skips cfg answer hpoint hskip =>
    simp only [Sound, hpoint] at hsound
    exact ⟨hsound.1, hsound.2.1, fun hanswer => .inl (hskip.resolve_left hanswer)⟩
  | cools cfg store hpoint hset =>
    simp only [Sound, hpoint] at hsound
    exact ⟨hsound.1, hsound.2.1, fun _ => .inr ⟨s.now, rfl⟩⟩
  | sends cfg answer plane replied forwarded hpoint hreply hjobs =>
    simp only [Sound, hpoint] at hsound
    exact ⟨hsound.1, hsound.2.1, fun hreplied => hsound.2.2 (mt hreply hreplied)⟩

/-- What Redis has granted to a call: the claim, and the cooldown. -/
def granted (h : PrivateHandler) : Bool → Option (Grant String Time)
  | false => h.claim
  | true => h.cooldown

/-- A statement is granted at most one key, which was not there. -/
theorem Advanced.granted (hadvanced : Advanced h s h' s') (hsound : h.Sound) :
    (s'.store = s.store ∧ h'.granted = h.granted) ∨ ∃ slot key stop, h.granted slot = none ∧
      s.store.setAbsent s.now stop key = some s'.store ∧
      h'.granted = Function.update h.granted slot (some ⟨key, s.now, stop⟩) := by
  cases hadvanced with
  | quits | configures | checks | skips | sends => exact .inl ⟨rfl, rfl⟩
  | claims cfg store hpoint hset =>
    simp only [Sound, hpoint] at hsound
    refine .inr ⟨false, _, _, hsound.2.1, hset, ?_⟩
    funext slot
    cases slot <;> rfl
  | cools cfg store hpoint hset =>
    simp only [Sound, hpoint] at hsound
    refine .inr ⟨true, _, _, hsound.2.2, hset, ?_⟩
    funext slot
    cases slot <;> rfl

theorem Advanced.now (hadvanced : Advanced h s h' s') : s'.now = s.now := by
  cases hadvanced <;> rfl

end PrivateHandler

/-! ## What holds of every run -/

namespace PrivateDesk

variable {s s' : PrivateDesk} {a : PrivateAction} {sha256 : String → String}

def heldBy (handlers : Table PrivateHandler) (i : ℕ × Bool) : Option (Grant String Time) :=
  (handlers.get? i.1).bind fun h => h.granted i.2

structure Inv (s : PrivateDesk) : Prop where
  ledger : Expiring.Ledger s.store s.now (heldBy s.handlers)
  sound : ∀ i h, s.handlers.get? i = some h → h.Sound

theorem inv_start (plane : ControlPlane) (store : Expiring String Time) (now : Time) :
    (start plane store now).Inv where
  ledger := .of_none fun _ => rfl
  sound i h hi := by cases hi

theorem Inv.report (hs : s.Inv) {obj : AiGroupEvent} {h : PrivateHandler}
    (hopened : s.opened obj = some h) :
    Inv { s with handlers := s.handlers.insert h } := by
  have hfresh : h.Sound ∧ h.granted = fun _ => none := by
    unfold opened at hopened
    obtain ⟨account, -, hopened⟩ := Option.bind_eq_some_iff.mp hopened
    obtain ⟨senderId, -, hopened⟩ := Option.bind_eq_some_iff.mp hopened
    split at hopened <;> cases hopened
    refine ⟨⟨rfl, rfl⟩, ?_⟩
    funext slot
    cases slot <;> rfl
  have hheld : heldBy (s.handlers.insert h) = heldBy s.handlers := by
    funext ⟨i, slot⟩
    unfold heldBy
    dsimp only
    rw [Table.get?_insert]
    split
    · rename_i hi
      rw [hi, Table.get?_size, Option.bind_some, hfresh.2]
      rfl
    · rfl
  constructor
  · change Expiring.Ledger s.store s.now (heldBy (s.handlers.insert h))
    rw [hheld]
    exact hs.ledger
  · intro i h' hi
    dsimp only at hi
    rw [Table.get?_insert] at hi
    split at hi
    · cases hi
      exact hfresh.1
    · exact hs.sound i h' hi

theorem get?_advanced {handlers : Table PrivateHandler} {i : ℕ} {h h' : PrivateHandler}
    (hi : handlers.get? i = some h) (j : ℕ) :
    (handlers.update i fun _ => h').get? j = if i = j then some h' else handlers.get? j := by
  rw [Table.get?_update]
  split
  · rename_i hij
    rw [← hij, hi]
    rfl
  · rfl

theorem heldBy_advanced {handlers : Table PrivateHandler} {i : ℕ} {h h' : PrivateHandler}
    (hi : handlers.get? i = some h) (j : ℕ) (slot : Bool) :
    heldBy (handlers.update i fun _ => h') (j, slot) =
      if i = j then h'.granted slot else heldBy handlers (j, slot) := by
  unfold heldBy
  dsimp only
  rw [get?_advanced hi]
  split <;> rfl

theorem Inv.advance (hs : s.Inv) {i : ℕ} {h h' : PrivateHandler} (hi : s.handlers.get? i = some h)
    (hadvanced : h.Advanced s h' s') : Inv { s' with handlers := s.handlers.update i fun _ => h' } := by
  have hsound := hs.sound i h hi
  have hheld (slot : Bool) : heldBy s.handlers (i, slot) = h.granted slot := by
    rw [heldBy, hi, Option.bind_some]
  constructor
  · change Expiring.Ledger s'.store s'.now (heldBy (s.handlers.update i fun _ => h'))
    rw [hadvanced.now]
    rcases hadvanced.granted hsound with ⟨hstore, hgranted⟩ | ⟨slot, key, stop, hnone, hset, hgranted⟩
    · have hsame : heldBy (s.handlers.update i fun _ => h') = heldBy s.handlers := by
        funext ⟨j, slot⟩
        rw [heldBy_advanced hi, hgranted]
        split
        · rename_i hij
          rw [← hij, hheld]
        · rfl
      rw [hstore, hsame]
      exact hs.ledger
    · have hupdate : heldBy (s.handlers.update i fun _ => h') =
          Function.update (heldBy s.handlers) (i, slot) (some ⟨key, s.now, stop⟩) := by
        funext ⟨j, slot'⟩
        rw [heldBy_advanced hi, hgranted]
        split
        · rename_i hij
          subst hij
          by_cases hslot : slot' = slot
          · rw [hslot, Function.update_self, Function.update_self]
          · rw [Function.update_of_ne hslot, Function.update_of_ne (by simp [hslot]), hheld]
        · rename_i hij
          rw [Function.update_of_ne (by simp [Ne.symm hij])]
      rw [hupdate]
      exact hs.ledger.grant hset ((hheld slot).trans hnone)
  · intro j h'' hj
    dsimp only at hj
    rw [get?_advanced hi] at hj
    split at hj
    · cases hj
      exact hadvanced.sound hsound
    · exact hs.sound j h'' hj

theorem step_inv (hs : s.Inv) (hstep : s.step sha256 a = some s') : s'.Inv := by
  cases a with
  | wait d =>
    cases hstep
    exact ⟨hs.ledger.wait (Int.le_add_of_nonneg_right (Int.natCast_nonneg d)), hs.sound⟩
  | change plane =>
    cases hstep
    exact ⟨hs.ledger, hs.sound⟩
  | report obj =>
    simp only [step] at hstep
    split at hstep <;> cases hstep
    · exact hs
    · rename_i h hopened
      exact hs.report hopened
  | advance i reply forward =>
    obtain ⟨h, hi, hstep⟩ := Option.bind_eq_some_iff.mp hstep
    obtain ⟨⟨h', t⟩, hadvance, hstep⟩ := Option.bind_eq_some_iff.mp hstep
    cases hstep
    exact hs.advance hi (PrivateHandler.advance_cases hadvance)

structure Bounded (s : PrivateDesk) : Prop where
  /-- Two calls that sent something for one message have claimed it a lifetime apart. -/
  once : ∀ i j h h', i ≠ j → s.handlers.get? i = some h → s.handlers.get? j = some h' →
    h.SameMessage h' → h.Sent → h'.Sent → ∃ g ∈ h.claim, ∃ g' ∈ h'.claim,
      g.start + groupEventClaimTtl ≤ g'.start ∨ g'.start + groupEventClaimTtl ≤ g.start
  /-- Two replies of an account to a sender, each under a cooldown, were let through in windows that
  do not overlap. -/
  cooled : ∀ i j h h' cfg cfg' r r' f f', i ≠ j →
    s.handlers.get? i = some h → s.handlers.get? j = some h' →
    h.account.id = h'.account.id → h.senderId = h'.senderId →
    h.point = .done cfg (some r) f → h'.point = .done cfg' (some r') f' →
    cfg.replyCooldownMin ≠ 0 → cfg'.replyCooldownMin ≠ 0 → ∃ g ∈ h.cooldown, ∃ g' ∈ h'.cooldown,
      g.start + cfg.cooldown ≤ g'.start ∨ g'.start + cfg'.cooldown ≤ g.start
  /-- Nothing is sent for a message of a live account of the same tenant. -/
  outsiders : ∀ i h, s.handlers.get? i = some h → h.Sent → ∀ a ∈ h.seen.dir.accounts,
    a.tenantId = h.account.tenantId → a.deleted = false → a.telegramUserId ≠ some h.senderId

/-- A step queues no more than what a call that had sent nothing records, for good, as its reply and
its forward. -/
structure Accounts (s : PrivateDesk) (a : PrivateAction) (s' : PrivateDesk) : Prop where
  queued : (∀ plane, a ≠ .change plane) → ∀ id job, s'.plane.jobs.row? id = some job →
    s.plane.jobs.row? id = some job ∨
      ∃ i h h', s.handlers.get? i = some h ∧ ¬ h.Sent ∧ s'.handlers.get? i = some h' ∧
        (h'.reply = some id ∨ h'.forward = some id)
  kept : ∀ i h, s.handlers.get? i = some h → h.Sent → s'.handlers.get? i = some h

theorem Inv.sent (hs : s.Inv) {i : ℕ} {h : PrivateHandler} (hi : s.handlers.get? i = some h)
    (hsent : h.Sent) : h.Outsider ∧ h.Claimed := by
  obtain ⟨cfg, reply, forward, hpoint⟩ := hsent.point
  have hsound := hs.sound i h hi
  simp only [PrivateHandler.Sound, hpoint] at hsound
  exact ⟨hsound.1, hsound.2.1⟩

/-- Grants of one key do not overlap. -/
theorem Inv.apart (hs : s.Inv) {i j : ℕ} {h h' : PrivateHandler} (hne : i ≠ j)
    (hi : s.handlers.get? i = some h) (hj : s.handlers.get? j = some h') (slot : Bool)
    {g g' : Grant String Time} (hg : h.granted slot = some g) (hg' : h'.granted slot = some g')
    (hkey : g.key = g'.key) : g.stop ≤ g'.start ∨ g'.stop ≤ g.start := by
  refine hs.ledger.apart (i, slot) (j, slot) g g' (by simp [hne]) ?_ ?_ hkey
  · rw [heldBy, hi, Option.bind_some, hg]
  · rw [heldBy, hj, Option.bind_some, hg']

theorem Inv.bounded (hs : s.Inv) : s.Bounded where
  once i j h h' hne hi hj hsame hsent hsent' := by
    obtain ⟨t, ht⟩ := (hs.sent hi hsent).2
    obtain ⟨t', ht'⟩ := (hs.sent hj hsent').2
    refine ⟨_, ht, _, ht', ?_⟩
    refine hs.apart hne hi hj false ht ht' ?_
    unfold PrivateHandler.claimKey
    rw [hsame.1, hsame.2.1, hsame.2.2]
  cooled i j h h' cfg cfg' r r' f f' hne hi hj haccount hsender hpoint hpoint' hcfg hcfg' := by
    have hsound := hs.sound i h hi
    have hsound' := hs.sound j h' hj
    simp only [PrivateHandler.Sound, hpoint] at hsound
    simp only [PrivateHandler.Sound, hpoint'] at hsound'
    obtain ⟨t, ht⟩ := (hsound.2.2 nofun).resolve_left hcfg
    obtain ⟨t', ht'⟩ := (hsound'.2.2 nofun).resolve_left hcfg'
    refine ⟨_, ht, _, ht', ?_⟩
    refine hs.apart hne hi hj true ht ht' ?_
    unfold PrivateHandler.cooldownKey
    rw [haccount, hsender]
  outsiders i h hi hsent a ha htenant hdeleted hsender := by
    refine (hs.sent hi hsent).1 (List.mem_filterMap.mpr ⟨a, List.mem_filter.mpr ⟨ha, ?_⟩, hsender⟩)
    simp [htenant, hdeleted]

theorem step_accounts (hstep : s.step sha256 a = some s') : s.Accounts a s' := by
  cases a with
  | wait d =>
    cases hstep
    exact ⟨fun _ id job hjob => .inl hjob, fun i h hi _ => hi⟩
  | change plane =>
    cases hstep
    exact ⟨fun hchange => absurd rfl (hchange plane), fun i h hi _ => hi⟩
  | report obj =>
    simp only [step] at hstep
    split at hstep <;> cases hstep
    · exact ⟨fun _ id job hjob => .inl hjob, fun i h hi _ => hi⟩
    · refine ⟨fun _ id job hjob => .inl hjob, fun i h hi _ => ?_⟩
      rw [Table.get?_insert, if_neg (Table.get?_lt hi).ne, hi]
  | advance i reply forward =>
    obtain ⟨h, hi, hstep⟩ := Option.bind_eq_some_iff.mp hstep
    obtain ⟨⟨h', t⟩, hadvance, hstep⟩ := Option.bind_eq_some_iff.mp hstep
    cases hstep
    constructor
    · intro _ id job hjob
      have hmoved : (s.handlers.update i fun _ => h').get? i = some h' := by
        rw [get?_advanced hi, if_pos rfl]
      cases PrivateHandler.advance_cases hadvance with
      | quits | configures | checks | claims | skips | cools => exact .inl hjob
      | sends cfg answer plane replied forwarded hpoint hreply hjobs =>
        refine (hjobs id job hjob).imp_right fun hid => ⟨i, h, _, hi, fun hsent => ?_, hmoved, hid⟩
        obtain ⟨cfg', r, f, hdone⟩ := hsent.point
        cases hpoint.symm.trans hdone
    · intro j h'' hj hsent
      rw [Table.get?_update_of_ne, hj]
      rintro rfl
      cases hi.symm.trans hj
      obtain ⟨cfg, r, f, hpoint⟩ := hsent.point
      simp only [PrivateHandler.advance, hpoint] at hadvance
      cases hadvance

/-- Whatever is reported and however the calls interleave: a message leads to one reply and one forward
at most while it is claimed, a sender gets one reply at most in each window of the cooldown, and
nothing is sent for the messages of the tenant's own accounts. -/
theorem private_replies_bounded (plane : ControlPlane) (store : Expiring String Time) (now : Time)
    (as : List PrivateAction) :
    Machine.Always (step sha256) (fun s a s' => s'.Bounded ∧ s.Accounts a s')
      (start plane store now) as :=
  Machine.always_of_invariant (fun _ _ _ hstep hs => step_inv hs hstep)
    (fun _ _ _ hstep hs => ⟨(step_inv hs hstep).bounded, step_accounts hstep⟩) as
    (inv_start plane store now)

/-- Accounts of two tenants, each with a greeting and no cooldown. -/
def greeters : ControlPlane :=
  let account (id : ℕ) (uid : ℤ) : TelegramAccount := {
    id, uuid := toString id, tenantId := id, projectId := id, telegramUserId := some uid }
  let settings (id : ℕ) : AiPrivateReply := {
    tenantId := id, projectId := id, accountId := id, replyText := some "hello", replyCooldownMin := 0 }
  let dir : Directory := {
    tenants := [⟨1, "t", false⟩, ⟨2, "u", false⟩], projects := [⟨1, "p", 1, false⟩, ⟨2, "q", 2, false⟩]
    accounts := [account 1 11, account 2 22], memberships := []
    tenant_ids := by decide, project_ids := by decide, account_ids := by decide
    tenant_uuids := by decide, project_uuids := by decide, account_uuids := by decide }
  { ControlPlane.ofDirectory dir with privateReplies := ⟨[some (settings 1), some (settings 2)]⟩ }

/-- A report of the first message of a chat, and the call for it up to its last statement. -/
def greeting (i account : ℕ) (sender : ℤ) : List PrivateAction :=
  .report { apiRowId := account, chatId := sender, messageId := 1, text := "hello"
            senderId := some sender, chatClass := some "private" } :: List.replicate 4 (.advance i {} {})

/-- The second account writes to the first, and either answers the other. -/
theorem tenants_answer_each_other : ¬ ∀ (plane : ControlPlane) (store : Expiring String Time)
    (now : Time) (as : List PrivateAction),
    Machine.Always (step id) (fun _ _ s' => ∀ h ∈ s'.handlers.rows, h.reply ≠ none →
      ∀ a ∈ h.seen.dir.accounts, a.deleted = false → a.telegramUserId ≠ some h.senderId)
      (start plane store now) as := by
  intro h
  have hobserved : ((Machine.run (step id) (start greeters (fun _ => none) 0)
      (greeting 0 1 22 ++ [.advance 0 ⟨"c", "a"⟩ {}] ++ greeting 1 2 11)).bind fun s =>
        (s.step id (.advance 1 ⟨"d", "b"⟩ {})).map fun s' =>
          s'.handlers.rows.map fun h => (h.reply, h.seen.dir.accounts.filterMap fun a =>
            if a.deleted = false ∧ a.telegramUserId = some h.senderId then some a.id else none)) =
              some [(some 0, [2]), (some 1, [1])] := by decide +kernel
  obtain ⟨s, s', hrun, hstep, hs'⟩ := Machine.exists_of_observed hobserved
  refine Machine.not_always_of_step hrun hstep (fun hneutral => ?_) (h _ _ _ _)
  obtain ⟨call, hcall, hanswered⟩ := List.mem_map.mp (hs' ▸ List.mem_cons_self ..)
  obtain ⟨hreply, haccounts⟩ := Prod.mk.inj hanswered
  obtain ⟨a, ha, hmatch⟩ := List.mem_filterMap.mp (haccounts ▸ List.mem_singleton_self 2)
  split at hmatch
  · rename_i hsender
    exact hneutral call hcall (by rw [hreply]; nofun) a ha hsender.1 hsender.2
  · cases hmatch

end PrivateDesk

end TgPlatform
