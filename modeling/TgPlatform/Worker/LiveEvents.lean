import TgPlatform.Storage.Jobs

/-! # Live events

The client library reports what happens in a chat as event objects. A new or an
edited message may come without the entity of its chat, a deletion only with the
ids of the deleted messages and, in channels, the id of the chat. The adapter
classifies the chat from what is there, and the class decides the scope under
which the message is looked up later.
-/

namespace TgPlatform

/-! ## Event objects -/

inductive ChatEntity | channel | chat | user
  deriving DecidableEq, Repr

structure ReplyHeader where
  forumTopic : Bool := false
  replyToTopId : Option ℤ := none
  replyToMsgId : Option ℤ := none
  deriving DecidableEq, Repr

structure TextEntity where
  typeName : String
  offset : ℤ
  length : ℤ
  deriving DecidableEq, Repr

structure MessageSender where
  bot : Bool := false
  username : Option String := none
  deriving DecidableEq, Repr

/-- The attributes of a message that the adapter reads; peers by their marked ids. -/
structure TelethonMessage where
  id : ℤ
  peerId : Option ℤ
  text : Option String := none
  entities : List TextEntity := []
  editDate : Option ℤ := none
  groupedId : Option ℤ := none
  replyTo : Option ReplyHeader := none
  noforwards : Bool := false
  senderId : Option ℤ := none
  fromId : Option ℤ := none
  viaBot : Bool := false
  sender : Option MessageSender := none
  /-- The names of the media attributes that are set. -/
  media : List String := []
  deriving DecidableEq, Repr

structure MessageEvent where
  chat : Option ChatEntity
  chatId : ℤ
  message : Option TelethonMessage
  deriving DecidableEq, Repr

structure DeletedEvent where
  chatId : Option ℤ
  deletedIds : List ℤ
  deriving DecidableEq, Repr

inductive TelethonEvent
  | newMessage (event : MessageEvent)
  | messageEdited (event : MessageEvent)
  | messageDeleted (event : DeletedEvent)
  | other
  deriving DecidableEq, Repr

/-! ## The adapter -/

def ChatEntity.chatClass : ChatEntity → ChatClass
  | .channel => .broadcast
  | .chat => .smallGroup
  | .user => .private_

/-- `_content_hash`. -/
def contentHashOf (sha256 : String → String) (message : TelethonMessage) : String :=
  sha256 (message.text.getD "" ++ String.join (message.entities.map fun e =>
    e.typeName ++ toString e.offset ++ toString e.length))

def topicIdOf (replyTo : Option ReplyHeader) : Option ℤ :=
  replyTo.bind fun header =>
    if !header.forumTopic then none
    else
      match header.replyToTopId with
      | some top => if top = 0 then header.replyToMsgId else some top
      | none => header.replyToMsgId

def senderIdOf (message : TelethonMessage) : Option ℤ := message.senderId.orElse fun _ => message.fromId

/-- The answer of `_record_sender_bot`. -/
def MessageSender.isBot (sender : MessageSender) : Bool :=
  sender.bot || (sender.username.getD "").toLower.endsWith "bot"

/-- `_sender_is_bot`; `known` are the senders seen before. -/
def senderIsBot (known : Option ℤ → Bool) (message : TelethonMessage) : Bool :=
  message.viaBot ||
    match message.sender with
    | some sender => sender.isBot
    | none => known (senderIdOf message)

/-- `_MEDIA_ATTRS`. -/
def mediaAttrs : List (String × String) :=
  [("sticker", "sticker"), ("photo", "photo"), ("video", "video"), ("gif", "gif"), ("voice", "voice"),
    ("audio", "audio"), ("document", "document"), ("poll", "poll"), ("contact", "contact"),
    ("geo", "location"), ("venue", "location")]

def mediaKindOf (message : TelethonMessage) : String :=
  ((mediaAttrs.find? fun attr => attr.1 ∈ message.media).map Prod.snd).getD "text"

structure Adapter where
  sha256 : String → String
  known : Option ℤ → Bool

namespace Adapter

variable (adapter : Adapter)

def messageRaw (kind : EventKind) (event : MessageEvent) (message : TelethonMessage) : RawUpdate where
  kind := kind
  chatId := message.peerId.getD event.chatId
  messageId := message.id
  chatClass := (event.chat.map ChatEntity.chatClass).getD .private_
  editDateTs := message.editDate
  contentHash := some (contentHashOf adapter.sha256 message)
  groupedId := message.groupedId
  replyToMessageId := message.replyTo.bind ReplyHeader.replyToMsgId
  topicId := topicIdOf message.replyTo
  protected_ := message.noforwards
  senderId := senderIdOf message
  mediaKind := some (mediaKindOf message)
  senderIsBot := senderIsBot adapter.known message

def deletedRaw (event : DeletedEvent) (messageId : ℤ) : RawUpdate where
  kind := .delete
  chatId := event.chatId.getD 0
  messageId := messageId
  chatClass := .broadcast

/-- `_to_raws`. -/
def toRaws (event : TelethonEvent) : List RawUpdate :=
  match event with
  | .newMessage e => (e.message.map (adapter.messageRaw .create e)).toList
  | .messageEdited e => (e.message.map (adapter.messageRaw .edit e)).toList
  | .messageDeleted e => e.deletedIds.map (deletedRaw e)
  | .other => []

end Adapter

/-! ## What is seen of a message -/

inductive ChatKind | channel | supergroup | basicGroup | private_
  deriving DecidableEq, Repr

/-- The library has one type of entity for channels and supergroups. -/
def ChatKind.entity : ChatKind → ChatEntity
  | .channel | .supergroup => .channel
  | .basicGroup => .chat
  | .private_ => .user

/-- A message of a chat; marked chat ids are not zero. -/
structure ChatMessage where
  kind : ChatKind
  chatId : ℤ
  chatId_ne : chatId ≠ 0
  id : ℤ

/-- The event is about the message. The entity of the chat may be missing, and the id of the chat
may be on the message or on the event. -/
structure MessageEvent.Sees (event : MessageEvent) (m : ChatMessage) : Prop where
  message : ∃ message, event.message = some message ∧ message.id = m.id ∧
    message.peerId.getD event.chatId = m.chatId
  chat : ∀ entity, event.chat = some entity → entity = m.kind.entity

/-- Message ids are correct; only deletions in channels and supergroups name the chat. -/
structure DeletedEvent.Sees (event : DeletedEvent) (m : ChatMessage) : Prop where
  message : m.id ∈ event.deletedIds
  chat : ∀ chatId, event.chatId = some chatId → chatId = m.chatId ∧ m.kind.entity = .channel

/-- The events of one message that an account sees. -/
structure Sightings (m : ChatMessage) where
  create : MessageEvent
  edits : List MessageEvent
  deletes : List DeletedEvent
  create_sees : create.Sees m
  edits_see : ∀ event ∈ edits, event.Sees m
  deletes_see : ∀ event ∈ deletes, event.Sees m

def RawUpdate.key (raw : RawUpdate) (accountId : AccountId) : MessageKey :=
  ⟨sourceScopeFor raw.chatClass raw.chatId accountId, raw.chatId, raw.messageId⟩

namespace Sightings

variable {m : ChatMessage} (s : Sightings m) (adapter : Adapter) (accountId : AccountId)

def rawsOf (event : TelethonEvent) : List RawUpdate :=
  (adapter.toRaws event).filter fun r => r.messageId = m.id

def events : List TelethonEvent :=
  .newMessage s.create :: (s.edits.map .messageEdited ++ s.deletes.map .messageDeleted)

def raws : List RawUpdate := s.events.flatMap (rawsOf (m := m) adapter)

/-- All updates of the message name one scope, chat and message. -/
structure Agree : Prop where
  one : ∀ r ∈ s.raws adapter, ∀ r' ∈ s.raws adapter, ∀ pyHash pyHash',
    (normalize r accountId pyHash).message = (normalize r' accountId pyHash').message
  /-- The mapping rows of the created message are found. -/
  finds : ∀ c ∈ rawsOf (m := m) adapter (.newMessage s.create), ∀ r ∈ s.raws adapter,
    ∀ pyHash pyHash' routeId (row : MessageMap), row.routeId = routeId → row.deletedAt = none →
      row.message = (normalize c accountId pyHash).message →
      Database.targetPart routeId (normalize r accountId pyHash').message row = true
  /-- No update is attributed to another chat. -/
  nowhere : ∀ r ∈ s.raws adapter, ∀ pyHash, ∀ other : ChatMessage, other.chatId ≠ m.chatId →
    (normalize r accountId pyHash).sourceChatId ≠ other.chatId

/-- Every deletion names the chat, and in a channel or a supergroup the chat's entity comes with
every new or edited message, or with none of them where nothing is deleted. -/
structure Locatable : Prop where
  named : ∀ event ∈ s.deletes, event.chatId = some m.chatId
  entity : m.kind.entity = .channel → (∀ event ∈ s.create :: s.edits, event.chat.isSome) ∨
    (∀ event ∈ s.create :: s.edits, event.chat = none) ∧ s.deletes = []

end Sightings

namespace Adapter

variable {m : ChatMessage} {adapter : Adapter} {accountId : AccountId} {r : RawUpdate}

/-- The key under which the account stores the message where the chat is a channel for it. -/
def publicKey (m : ChatMessage) : MessageKey := ⟨s!"peer:{m.chatId}", m.chatId, m.id⟩

def accountKey (m : ChatMessage) (accountId : AccountId) : MessageKey :=
  ⟨s!"peer:{m.chatId}:acct:{accountId}", m.chatId, m.id⟩

def lostKey (m : ChatMessage) : MessageKey := ⟨s!"peer:{(0 : ℤ)}", 0, m.id⟩

theorem publicKey_ne_accountKey (m : ChatMessage) (accountId : AccountId) :
    publicKey m ≠ accountKey m accountId :=
  fun h => scopeSpellings_ne m.chatId accountId (congrArg MessageKey.sourceScope h)

theorem lostKey_ne_publicKey (m : ChatMessage) : lostKey m ≠ publicKey m := by
  intro h
  exact m.chatId_ne (congrArg MessageKey.sourceChatId h).symm

theorem lostKey_ne_accountKey (m : ChatMessage) (accountId : AccountId) :
    lostKey m ≠ accountKey m accountId := by
  intro h
  exact m.chatId_ne (congrArg MessageKey.sourceChatId h).symm

def sightKey (m : ChatMessage) (accountId : AccountId) (event : MessageEvent) : MessageKey :=
  if m.kind.entity = .channel ∧ event.chat.isSome then publicKey m else accountKey m accountId

def deletedKey (m : ChatMessage) (event : DeletedEvent) : MessageKey :=
  if event.chatId.isSome then publicKey m else lostKey m

theorem key_messageRaw {kind : EventKind} {event : MessageEvent} {message : TelethonMessage}
    (hsees : event.Sees m) (hmessage : event.message = some message) :
    (adapter.messageRaw kind event message).key accountId = sightKey m accountId event := by
  obtain ⟨message', hmessage', hid, hchat⟩ := hsees.message
  rw [hmessage] at hmessage'
  cases hmessage'
  unfold RawUpdate.key Adapter.messageRaw sightKey
  dsimp only
  rw [hid, hchat]
  cases hentity : event.chat with
  | none => simp [accountKey, sourceScopeFor]
  | some entity =>
    cases hsees.chat entity hentity
    cases hkind : m.kind.entity <;>
      simp [publicKey, accountKey, sourceScopeFor, ChatEntity.chatClass]

theorem key_deletedRaw {event : DeletedEvent} (hsees : event.Sees m) :
    (deletedRaw event m.id).key accountId = deletedKey m event := by
  unfold RawUpdate.key deletedRaw deletedKey
  cases hchat : event.chatId with
  | none => simp [lostKey, sourceScopeFor]
  | some chatId =>
    obtain ⟨rfl, -⟩ := hsees.chat chatId hchat
    simp [publicKey, sourceScopeFor]

end Adapter

theorem normalize_message (raw : RawUpdate) (accountId : AccountId) (pyHash : ℤ) :
    (normalize raw accountId pyHash).message = raw.key accountId := rfl

namespace Sightings

open Adapter

variable {m : ChatMessage} {s : Sightings m} {adapter : Adapter} {accountId : AccountId}
  {kind : EventKind} {event : MessageEvent} {r : RawUpdate}

def keys (s : Sightings m) (accountId : AccountId) : List MessageKey :=
  sightKey m accountId s.create ::
    (s.edits.map (sightKey m accountId) ++ s.deletes.map (deletedKey m))

variable (adapter accountId kind) in
theorem rawsOf_message (hsees : event.Sees m) : ∃ message,
    (event.message.map (adapter.messageRaw kind event)).toList.filter (fun r => r.messageId = m.id) =
        [adapter.messageRaw kind event message] ∧
      (adapter.messageRaw kind event message).key accountId = sightKey m accountId event := by
  obtain ⟨message, hmessage, hid, -⟩ := hsees.message
  have hraw : (adapter.messageRaw kind event message).messageId = m.id := hid
  refine ⟨message, ?_, key_messageRaw hsees hmessage⟩
  simp [hmessage, hraw]

theorem mem_rawsOf_deleted {event : DeletedEvent} :
    r ∈ rawsOf (m := m) adapter (.messageDeleted event) ↔
      m.id ∈ event.deletedIds ∧ r = deletedRaw event m.id := by
  unfold rawsOf Adapter.toRaws
  rw [List.mem_filter, List.mem_map]
  constructor
  · rintro ⟨⟨id, hid, rfl⟩, hm⟩
    have hm : id = m.id := of_decide_eq_true hm
    subst hm
    exact ⟨hid, rfl⟩
  · rintro ⟨hid, rfl⟩
    exact ⟨⟨m.id, hid, rfl⟩, decide_eq_true rfl⟩

variable (adapter) in
theorem mem_keys_iff {key : MessageKey} :
    key ∈ s.keys accountId ↔ ∃ r ∈ s.raws adapter, r.key accountId = key := by
  have hmessage : ∀ {event : MessageEvent} (kind : EventKind), event.Sees m →
      (key = sightKey m accountId event ↔ ∃ r ∈ ((event.message.map (adapter.messageRaw kind
        event)).toList.filter fun r => r.messageId = m.id), r.key accountId = key) := by
    intro event kind hsees
    obtain ⟨message, hraws, hkey⟩ := rawsOf_message adapter accountId kind hsees
    rw [hraws]
    simp [hkey, eq_comm]
  have hdeleted : ∀ {event : DeletedEvent}, event.Sees m →
      (key = deletedKey m event ↔
        ∃ r ∈ rawsOf (m := m) adapter (.messageDeleted event), r.key accountId = key) := by
    intro event hsees
    constructor
    · rintro rfl
      exact ⟨_, mem_rawsOf_deleted.mpr ⟨hsees.message, rfl⟩, key_deletedRaw hsees⟩
    · rintro ⟨r, hr, rfl⟩
      obtain ⟨-, rfl⟩ := mem_rawsOf_deleted.mp hr
      exact key_deletedRaw hsees
  unfold keys raws events
  simp only [List.mem_cons, List.mem_append, List.mem_map, List.mem_flatMap]
  constructor
  · rintro (hkey | ⟨event, hevent, rfl⟩ | ⟨event, hevent, rfl⟩)
    · obtain ⟨r, hr, hkey⟩ := (hmessage .create s.create_sees).mp hkey
      exact ⟨r, ⟨.newMessage s.create, Or.inl rfl, hr⟩, hkey⟩
    · obtain ⟨r, hr, hkey⟩ := (hmessage .edit (s.edits_see event hevent)).mp rfl
      exact ⟨r, ⟨.messageEdited event, Or.inr (Or.inl ⟨event, hevent, rfl⟩), hr⟩, hkey⟩
    · obtain ⟨r, hr, hkey⟩ := (hdeleted (s.deletes_see event hevent)).mp rfl
      exact ⟨r, ⟨.messageDeleted event, Or.inr (Or.inr ⟨event, hevent, rfl⟩), hr⟩, hkey⟩
  · rintro ⟨r, ⟨_, rfl | ⟨event, hevent, rfl⟩ | ⟨event, hevent, rfl⟩, hr⟩, hkey⟩
    · exact Or.inl ((hmessage .create s.create_sees).mpr ⟨r, hr, hkey⟩)
    · exact Or.inr (Or.inl ⟨event, hevent, ((hmessage .edit (s.edits_see event hevent)).mpr
        ⟨r, hr, hkey⟩).symm⟩)
    · exact Or.inr (Or.inr ⟨event, hevent, ((hdeleted (s.deletes_see event hevent)).mpr
        ⟨r, hr, hkey⟩).symm⟩)

theorem sightKey_of_some (h : m.kind.entity = .channel) (hchat : event.chat.isSome) :
    sightKey m accountId event = publicKey m := if_pos ⟨h, hchat⟩

theorem sightKey_of_none (hchat : event.chat = none) :
    sightKey m accountId event = accountKey m accountId := by
  simp [sightKey, hchat]

theorem sightKey_ne_lostKey : lostKey m ≠ sightKey m accountId event := by
  unfold sightKey
  split
  · exact lostKey_ne_publicKey m
  · exact lostKey_ne_accountKey m accountId

variable (accountId) in
theorem locatable_of_keys (h : ∀ key ∈ s.keys accountId, key = sightKey m accountId s.create) :
    s.Locatable := by
  have hedit : ∀ event ∈ s.create :: s.edits,
      sightKey m accountId event = sightKey m accountId s.create := by
    intro event hevent
    apply h
    rcases List.mem_cons.mp hevent with rfl | hevent
    · exact List.mem_cons_self
    · exact List.mem_cons_of_mem _ (List.mem_append_left _ (List.mem_map_of_mem hevent))
  have hdelete : ∀ event ∈ s.deletes, deletedKey m event = sightKey m accountId s.create :=
    fun event hevent =>
      h _ (List.mem_cons_of_mem _ (List.mem_append_right _ (List.mem_map_of_mem hevent)))
  have hnamed : ∀ event ∈ s.deletes, event.chatId = some m.chatId := by
    intro event hevent
    cases hchat : event.chatId with
    | none =>
      have hkey := hdelete event hevent
      simp only [deletedKey, hchat, Option.isSome_none, Bool.false_eq_true, if_false] at hkey
      exact absurd hkey sightKey_ne_lostKey
    | some chatId => rw [((s.deletes_see event hevent).chat chatId hchat).1]
  refine ⟨hnamed, ?_⟩
  intro hchannel
  cases hcreate : s.create.chat with
  | some entity =>
    left
    intro event hevent
    by_contra hchat
    have hkey := hedit event hevent
    rw [sightKey_of_none (Option.not_isSome_iff_eq_none.mp hchat),
      sightKey_of_some hchannel (by rw [hcreate]; rfl)] at hkey
    exact publicKey_ne_accountKey m accountId hkey.symm
  | none =>
    right
    constructor
    · intro event hevent
      by_contra hchat
      have hkey := hedit event hevent
      rw [sightKey_of_some hchannel (Option.isSome_iff_ne_none.mpr hchat), sightKey_of_none hcreate]
        at hkey
      exact publicKey_ne_accountKey m accountId hkey
    · rw [List.eq_nil_iff_forall_not_mem]
      intro event hevent
      have hkey := hdelete event hevent
      rw [sightKey_of_none hcreate, deletedKey, hnamed event hevent] at hkey
      exact publicKey_ne_accountKey m accountId hkey

theorem Locatable.keys_eq (h : s.Locatable) :
    ∀ key ∈ s.keys accountId, key = sightKey m accountId s.create := by
  intro key hkey
  rw [keys, List.mem_cons, List.mem_append, List.mem_map, List.mem_map] at hkey
  rcases hkey with rfl | ⟨event, hevent, rfl⟩ | ⟨event, hevent, rfl⟩
  · rfl
  · by_cases hchannel : m.kind.entity = .channel
    · rcases h.entity hchannel with hall | ⟨hall, -⟩
      · rw [sightKey_of_some hchannel (hall event (List.mem_cons_of_mem _ hevent)),
          sightKey_of_some hchannel (hall _ List.mem_cons_self)]
      · rw [sightKey_of_none (hall event (List.mem_cons_of_mem _ hevent)),
          sightKey_of_none (hall _ List.mem_cons_self)]
    · simp [sightKey, hchannel]
  · have hnamed := h.named event hevent
    have hchannel := ((s.deletes_see event hevent).chat _ hnamed).2
    rcases h.entity hchannel with hall | ⟨-, hnone⟩
    · rw [sightKey_of_some hchannel (hall _ List.mem_cons_self), deletedKey, hnamed]
      rfl
    · rw [hnone] at hevent
      cases hevent

theorem chat_of_mem_raws (hr : r ∈ s.raws adapter) : r.chatId = m.chatId ∨ r.chatId = 0 := by
  have hkey : r.key "" ∈ s.keys "" := (mem_keys_iff adapter).mpr ⟨r, hr, rfl⟩
  have hchat : ∀ key ∈ s.keys "", key.sourceChatId = m.chatId ∨ key.sourceChatId = 0 := by
    intro key hkey
    rw [keys, List.mem_cons, List.mem_append, List.mem_map, List.mem_map] at hkey
    have hsight : ∀ event, (sightKey m "" event).sourceChatId = m.chatId := by
      intro event
      unfold sightKey
      split <;> rfl
    rcases hkey with rfl | ⟨event, -, rfl⟩ | ⟨event, -, rfl⟩
    · exact Or.inl (hsight _)
    · exact Or.inl (hsight event)
    · unfold deletedKey
      split
      · exact Or.inl rfl
      · exact Or.inr rfl
  exact hchat _ hkey

/-- The updates of a message agree exactly if every deletion names its chat and, in a channel or a
supergroup, the chat's entity comes with all other events, or with none where nothing is deleted. -/
theorem agree_iff (m : ChatMessage) (s : Sightings m) (adapter : Adapter) (accountId : AccountId) :
    s.Agree adapter accountId ↔ s.Locatable := by
  have hcreate : sightKey m accountId s.create ∈ s.keys accountId := List.mem_cons_self
  constructor
  · intro h
    apply locatable_of_keys accountId
    intro key hkey
    obtain ⟨r, hr, rfl⟩ := (mem_keys_iff adapter).mp hkey
    obtain ⟨c, hc, hckey⟩ := (mem_keys_iff adapter).mp hcreate
    rw [← hckey]
    exact h.one r hr c hc 0 0
  · intro h
    have hone : ∀ r ∈ s.raws adapter, r.key accountId = sightKey m accountId s.create := by
      intro r hr
      exact h.keys_eq _ ((mem_keys_iff adapter).mpr ⟨r, hr, rfl⟩)
    have hcreated : ∀ c ∈ rawsOf (m := m) adapter (.newMessage s.create), c ∈ s.raws adapter := by
      intro c hc
      exact List.mem_flatMap.mpr ⟨_, List.mem_cons_self, hc⟩
    constructor
    · intro r hr r' hr' _ _
      rw [normalize_message, normalize_message, hone r hr, hone r' hr']
    · intro c hc r hr _ _ routeId row hroute hlive hmessage
      rw [normalize_message, hone c (hcreated c hc)] at hmessage
      rw [normalize_message, hone r hr, Database.targetPart]
      simp [hroute, hlive, hmessage]
    · intro r hr _ other hother
      rcases chat_of_mem_raws hr with hchat | hchat
      · intro heq
        exact hother (heq.symm.trans hchat)
      · intro heq
        exact other.chatId_ne (heq.symm.trans hchat)

end Sightings

/-! ## An event without the entity of its chat -/

def sightedMessage : ChatMessage where
  kind := .channel
  chatId := -1005
  chatId_ne := by decide
  id := 3

def withoutEntity : Sightings sightedMessage where
  create := { chat := none, chatId := -1005, message := some { id := 3, peerId := some (-1005) } }
  edits := []
  deletes := [{ chatId := some (-1005), deletedIds := [3] }]
  create_sees := ⟨⟨{ id := 3, peerId := some (-1005) }, rfl, rfl, rfl⟩, nofun⟩
  edits_see := by simp
  deletes_see := by
    intro event hevent
    cases List.mem_singleton.mp hevent
    exact ⟨by decide, fun chatId h => ⟨(Option.some.inj h).symm, rfl⟩⟩

/-- The deletion is looked up where the message was not stored. -/
theorem deletion_misses_message :
    ¬ ∀ m s adapter accountId, Sightings.Agree (m := m) s adapter accountId := by
  intro h
  let adapter : Adapter := ⟨id, fun _ => false⟩
  have hone := (h sightedMessage withoutEntity adapter "A").one
    (adapter.messageRaw .create withoutEntity.create { id := 3, peerId := some (-1005) })
    (by decide +kernel) (Adapter.deletedRaw { chatId := some (-1005), deletedIds := [3] } 3)
    (by decide +kernel) 0 0
  exact absurd hone (by decide +kernel)

end TgPlatform
