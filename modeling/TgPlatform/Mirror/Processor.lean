import Mathlib.Data.List.Nodup
import TgPlatform.Lib.Coroutine
import TgPlatform.Mirror.Filters
import TgPlatform.Mirror.Storage

/-! # The event processor

Each event of a source chat is handled by a coroutine that reads the mappings,
sends, edits or deletes messages in the target chats, and writes the mappings.
The handlers of different events take turns at their calls. What a call answers
and whether it raises is up to the database and to the messenger.
-/

namespace TgPlatform.Mirror

inductive Mode
  | copy
  | forward
  deriving DecidableEq, Repr

structure DirectionConfig where
  disableDelete : Bool
  disableEdit : Bool
  filters : MessageFilter
  fromTopicId : Option ℤ := none
  toTopicId : Option ℤ := none
  mode : Mode := .copy

/-- The targets of one source chat with their configurations, a dictionary. -/
structure Outgoing where
  items : List (ℤ × List DirectionConfig)
  nodup : (items.map Prod.fst).Nodup

/-- `chat_mapping`; a chat that is not in it has no targets. -/
abbrev ChatMapping : Type := ℤ → Outgoing

/-- `self._chat_mapping.get(chat_id, {}).get(channel)`. -/
def ChatMapping.get? (mapping : ChatMapping) (chatId channel : ℤ) : Option (List DirectionConfig) :=
  ((mapping chatId).items.find? fun x => x.1 = channel).map Prod.snd

/-- The configuration of `EventProcessor`, and what the parse mode of its client makes of a text
with its entities, to be parsed again when it is sent. -/
structure EventProcessor where
  chatMapping : ChatMapping
  unparse : Text → List MessageEntity → Text

/-- `message.text`. -/
def EventProcessor.text (proc : EventProcessor) (m : EventMessage) : Text :=
  proc.unparse m.message m.entities

/-! ## Calls -/

/-- The chat and the messages for which a call is made. They are not passed to the messenger. -/
structure Origin where
  chatId : ℤ
  ids : List ℤ
  deriving DecidableEq, Repr

/-- What is passed to `send_message`, `send_file` or `forward_messages` besides the target. -/
inductive Sending
  | message (m : EventMessage) (replyTo : Option ℤ) (replyToTopicId : Option ℤ)
  | file (captions : List Text) (files : List (Option Media)) (replyTo : Option ℤ)
      (replyToTopicId : Option ℤ)
  | forward (messages : List EventMessage) (replyToTopicId : Option ℤ)
  deriving DecidableEq, Repr

inductive MirrorCall
  | getMessages (originalId : Option ℤ) (originalChannel : ℤ)
  | getMessagesBatch (originalIds : List ℤ) (originalChannel : ℤ)
  | insert (e : MirrorMessage)
  | insertBatch (l : List MirrorMessage)
  | deleteMessagesBatch (originalIds : List ℤ) (originalChannel : ℤ)
  | send (origin : Origin) (entity : ℤ) (what : Sending)
  | editMessage (origin : Origin) (entity : ℤ) (message : ℤ) (text : Text)
      (entities : List MessageEntity) (file : Option Media) (linkPreview : Bool)
  | deleteFrom (origin : Origin) (entity : ℤ) (messageIds : List ℤ)
  deriving DecidableEq, Repr

/-- What a sending answers: nothing, a message, or a list in which messages can be missing. -/
inductive Sent
  | nothing
  | one (id : ℤ)
  | list (ids : List (Option ℤ))
  deriving DecidableEq, Repr

def MirrorCall.Answer : MirrorCall → Type
  | getMessages .. | getMessagesBatch .. => List MirrorMessage
  | send .. => Sent
  | _ => Unit

abbrev HandlerPart (α : Type) : Type := Coroutine MirrorCall MirrorCall.Answer α

abbrev Handler : Type := HandlerPart Unit

open Coroutine

/-! ## Directions -/

/-- `GENERAL_TOPIC_ID`. -/
def generalTopicId : ℤ := 1

def incomingTopicId (m : EventMessage) : Option ℤ :=
  match m.replyTo with
  | some r =>
    if r.forumTopic then
      match r.replyToTopId with
      | some top => if top ≠ 0 then some top else r.replyToMsgId
      | none => r.replyToMsgId
    else some generalTopicId
  | none => some generalTopicId

def DirectionConfig.hears (config : DirectionConfig) (m : EventMessage) : Bool :=
  match config.fromTopicId with
  | none => true
  | some topic =>
    !(m.replyTo.isNone && topic ≠ generalTopicId) && incomingTopicId m = some topic

/-- Content whose forwarding is restricted is left alone, unless a filter is made for it. -/
def DirectionConfig.permits (config : DirectionConfig) (m : EventMessage) : Bool :=
  !(m.noforwards && (!config.filters.restrictedContentAllowed || config.mode = .forward))

def repliesOf (rows : List MirrorMessage) (channel : ℤ) : Option ℤ :=
  (rows.reverse.find? fun e => e.mirrorChannel = channel).map MirrorMessage.mirrorId

def DirectionConfig.topicReply (config : DirectionConfig) (reply : Option ℤ) : Bool :=
  reply.isSome && config.toTopicId.isSome

def DirectionConfig.replyTo (config : DirectionConfig) (reply : Option ℤ) : Option ℤ :=
  if config.topicReply reply || config.toTopicId.isNone then reply else config.toTopicId

def DirectionConfig.replyToTopicId (config : DirectionConfig) (reply : Option ℤ) : Option ℤ :=
  if config.topicReply reply then config.toTopicId else none

def Outgoing.directions (o : Outgoing) : List (ℤ × DirectionConfig) :=
  o.items.flatMap fun x => x.2.map fun config => (x.1, config)

/-- The mappings of the messages that a sending has answered with, in the order of the originals;
nothing where an original or a message is missing. -/
def mirrored (origin : Origin) (entity : ℤ) (ids : List (Option ℤ)) : Option (List MirrorMessage) :=
  ids.zipIdx.mapM fun (id, i) =>
    id.bind fun id => origin.ids[i]?.map fun original => ⟨original, origin.chatId, id, entity⟩

/-- A copy of the message before the filters, in which a quiz has become a poll. -/
def withoutQuiz (m : EventMessage) : EventMessage :=
  match m.media with
  | some (.poll _) => { m with media := some (.poll none) }
  | _ => m

/-! ## Handlers -/

section Handlers

variable (proc : EventProcessor) (chatId : ℤ)

def repliedTo : Option ReplyTo → HandlerPart (List MirrorMessage)
  | some r => request (MirrorCall.getMessages r.replyToMsgId chatId)
  | none => ret []

def recordMessage (originalId entity : ℤ) : Option Sent → Handler
  | some (.one id) => request (MirrorCall.insert ⟨originalId, chatId, id, entity⟩)
  | some (.list (_ :: _)) => raise
  | _ => ret ()

def recordAlbum (origin : Origin) (entity : ℤ) : Option Sent → Handler
  | some (.list ids) =>
    match mirrored origin entity ids with
    | some l => request (MirrorCall.insertBatch l)
    | none => raise
  | _ => ret ()

def newMessageTo (rows : List MirrorMessage) (m : EventMessage) (d : ℤ × DirectionConfig) : Handler :=
  if !d.2.hears m || !d.2.permits m then ret ()
  else
    match d.2.filters.onMessage m .newMessage with
    | none => raise
    | some (action, filtered) =>
      if action.discards then ret ()
      else
        let origin : Origin := ⟨chatId, [filtered.id]⟩
        let reply := repliesOf rows d.1
        let what := match d.2.mode with
          | .copy => Sending.message filtered (d.2.replyTo reply) (d.2.replyToTopicId reply)
          | .forward => Sending.forward [m] d.2.toTopicId
        andThen (recordMessage chatId filtered.id d.1) (attempt (MirrorCall.send origin d.1 what))

/-- `EventProcessor.new_message`. -/
def newMessage (m : EventMessage) : Handler :=
  if (proc.chatMapping chatId).items.isEmpty then ret ()
  else
    (repliedTo chatId m.replyTo).andThen fun rows =>
    each (newMessageTo chatId rows (withoutQuiz m)) (proc.chatMapping chatId).directions

def newAlbumTo (rows : List MirrorMessage) (first : EventMessage) (album : List EventMessage)
    (d : ℤ × DirectionConfig) : Handler :=
  if !d.2.hears first || !d.2.permits first then ret ()
  else
    match d.2.filters.onAlbum album .album with
    | none => raise
    | some (action, filtered) =>
      if action.discards then ret ()
      else
        let origin : Origin := ⟨chatId, filtered.map EventMessage.id⟩
        let reply := repliesOf rows d.1
        let what := match d.2.mode with
          | .copy => Sending.file (filtered.map proc.text) (filtered.map EventMessage.media)
              (d.2.replyTo reply) (d.2.replyToTopicId reply)
          | .forward => Sending.forward album d.2.toTopicId
        andThen (recordAlbum origin d.1) (attempt (MirrorCall.send origin d.1 what))

/-- `EventProcessor.new_album`. -/
def newAlbum : List EventMessage → Handler
  | [] => raise
  | first :: rest =>
    if (proc.chatMapping chatId).items.isEmpty then ret ()
    else
      (repliedTo chatId first.replyTo).andThen fun rows =>
      each (newAlbumTo proc chatId rows first (first :: rest)) (proc.chatMapping chatId).directions

/-- A voice note cannot be edited into a message. -/
def editMediaAllowed : Option Media → Bool
  | some (.document (some attributes)) => attributes.all fun a => a ≠ .audio true
  | _ => true

def editOne (m : EventMessage) (row : MirrorMessage) (config : DirectionConfig) : Handler :=
  if config.disableEdit || config.mode = .forward then ret ()
  else
    match config.filters.onMessage m .messageEdited with
    | none => raise
    | some (action, filtered) =>
      if action.discards then ret ()
      else
        (attempt (MirrorCall.editMessage ⟨chatId, [m.id]⟩ row.mirrorChannel row.mirrorId filtered.message
          filtered.entities (if editMediaAllowed filtered.media then filtered.media else none)
          (filtered.media matches some (.webPage _)))).andThen fun _ => ret ()

/-- `EventProcessor.edit_message`. -/
def editMessage (m : EventMessage) : Handler :=
  (request (MirrorCall.getMessages (some m.id) chatId)).andThen fun (rows : List MirrorMessage) =>
  each (fun row => each (editOne chatId m row) ((proc.chatMapping.get? chatId row.mirrorChannel).getD []))
    rows

/-- `setdefault(channel, []).append(id)`. -/
def collect (channel id : ℤ) : List (ℤ × List ℤ) → List (ℤ × List ℤ)
  | [] => [(channel, [id])]
  | x :: l => if x.1 = channel then (x.1, x.2 ++ [id]) :: l else x :: collect channel id l

/-- `deleting_per_channel`. -/
def deletingPerChannel (rows : List MirrorMessage) : List (ℤ × List ℤ) :=
  (rows.flatMap fun row => ((proc.chatMapping.get? chatId row.mirrorChannel).getD []).filterMap fun config =>
    if config.disableDelete then none else some (row.mirrorChannel, row.mirrorId)).foldl
    (fun l x => collect x.1 x.2 l) []

/-- `EventProcessor.delete_message`. The loop over the channels takes `message_ids` as the name of
its own variable, so that afterwards it stands for the messages of the last channel. -/
def deleteMessage (messageIds : List ℤ) : Handler :=
  (request (MirrorCall.getMessagesBatch messageIds chatId)).andThen fun (rows : List MirrorMessage) =>
  if rows.isEmpty then ret ()
  else
    let perChannel := deletingPerChannel proc chatId rows
    (each (fun x => (attempt (MirrorCall.deleteFrom ⟨chatId, messageIds⟩ x.1 x.2)).andThen fun _ => ret ())
      perChannel).andThen fun _ =>
    request (MirrorCall.deleteMessagesBatch ((perChannel.getLast?.map Prod.snd).getD messageIds) chatId)

end Handlers

/-! ## Events -/

inductive MirrorEvent
  | newMessage (chatId : ℤ) (m : EventMessage)
  | album (chatId : ℤ) (l : List EventMessage)
  | edited (chatId : ℤ) (m : EventMessage)
  | deleted (chatId : ℤ) (ids : List ℤ)

/-- `EventHandlers`: the parts of an album come as an album, and what changes in a message besides
its content is passed over. -/
def handleEvent (proc : EventProcessor) : MirrorEvent → Handler
  | .newMessage chatId m => if m.groupedId.isSome then ret () else newMessage proc chatId m
  | .album chatId l => newAlbum proc chatId l
  | .edited chatId m => if m.editHide then ret () else editMessage proc chatId m
  | .deleted chatId ids => deleteMessage proc chatId ids

/-! ## The world -/

structure Deed where
  call : MirrorCall
  answer : Option call.Answer

structure Mirrored where
  rows : PostgresDatabase := []
  log : List Deed := []

def MirrorCall.write (rows : PostgresDatabase) : MirrorCall → PostgresDatabase
  | insert e => postgres.insert rows e
  | insertBatch l => postgres.insertBatch rows l
  | deleteMessagesBatch ids channel => postgres.deleteMessagesBatch rows ids channel
  | _ => rows

/-- What the table answers; the messenger answers anything. -/
def MirrorCall.Truthful (rows : PostgresDatabase) : (w : MirrorCall) → w.Answer → Prop
  | getMessages none _, r => r = ([] : List MirrorMessage)
  | getMessages (some id) channel, r => r = postgres.getMessages rows id channel
  | getMessagesBatch ids channel, r => r = postgres.getMessagesBatch rows ids channel
  | _, _ => True

/-- A call that raises leaves the table as it is. -/
inductive Answers : World Mirrored MirrorCall MirrorCall.Answer
  | answer {s : Mirrored} {w : MirrorCall} {r : w.Answer} (h : w.Truthful s.rows r) :
      Answers s w (some r) ⟨w.write s.rows, s.log ++ [⟨w, some r⟩]⟩
  | raise {s : Mirrored} {w : MirrorCall} : Answers s w none ⟨s.rows, s.log ++ [⟨w, none⟩]⟩

end TgPlatform.Mirror
