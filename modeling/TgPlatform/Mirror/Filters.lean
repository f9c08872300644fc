import Mathlib.Data.Int.Notation
import Mathlib.Data.List.Basic

/-! # Messages and filters

A message is what a handler reads of it. A filter rewrites a message or an
album and says whether to go on, to send at once or to discard.
-/

namespace TgPlatform.Mirror

abbrev Text : Type := List UInt16

inductive EntityKind
  | url
  | textUrl (url : String)
  | mention
  | mentionName
  | other (name : String)
  deriving DecidableEq, Repr

structure MessageEntity where
  kind : EntityKind
  offset : ℤ
  length : ℤ
  deriving DecidableEq, Repr

inductive DocumentAttribute
  | audio (voice : Bool)
  | other (name : String)
  deriving DecidableEq, Repr

inductive Media
  | webPage (url : Option String)
  | document (attributes : Option (List DocumentAttribute))
  | poll (quiz : Option Bool)
  | other (name : String)
  deriving DecidableEq, Repr

structure ReplyTo where
  replyToMsgId : Option ℤ
  replyToTopId : Option ℤ
  forumTopic : Bool
  deriving DecidableEq, Repr

structure EventMessage where
  id : ℤ
  noforwards : Bool := false
  replyTo : Option ReplyTo := none
  message : Text := []
  entities : List MessageEntity := []
  media : Option Media := none
  groupedId : Option ℤ := none
  editHide : Bool := false
  deriving DecidableEq, Repr

inductive EventType
  | newMessage
  | album
  | messageEdited
  deriving DecidableEq, Repr

/-- `FilterAction`, or the truth value that a filter may answer instead of it. -/
inductive FilterAction
  | continue_
  | forceSend
  | discard
  | bool (b : Bool)
  deriving DecidableEq, Repr

/-- The cases in which the next filter is asked. `FilterAction.CONTINUE` is 0, which is equal to
`False`. -/
def FilterAction.goesOn : FilterAction → Bool
  | continue_ | bool _ => true
  | forceSend | discard => false

/-- `filter_action is FilterAction.DISCARD or filter_action is False`. -/
def FilterAction.discards : FilterAction → Bool
  | discard | bool false => true
  | _ => false

/-- What a filter does with a message and with an album; it may raise. -/
structure MessageFilter where
  restrictedContentAllowed : Bool
  onMessage : EventMessage → EventType → Option (FilterAction × EventMessage)
  onAlbum : List EventMessage → EventType → Option (FilterAction × List EventMessage)

namespace MessageFilter

/-- `_process_album`: the messages are processed in place, up to the first that stops. -/
def processAlbum (f : EventMessage → EventType → Option (FilterAction × EventMessage))
    (type : EventType) : List EventMessage → Option (FilterAction × List EventMessage)
  | [] => some (.continue_, [])
  | m :: album =>
    (f m type).bind fun (action, m') =>
      if action.goesOn then
        (processAlbum f type album).map fun (action, album') => (action, m' :: album')
      else some (action, m' :: album)

def ofMessage (f : EventMessage → EventType → Option (FilterAction × EventMessage)) :
    MessageFilter where
  restrictedContentAllowed := false
  onMessage := f
  onAlbum album type := processAlbum f type album

/-- `EmptyMessageFilter`. -/
def empty : MessageFilter where
  restrictedContentAllowed := false
  onMessage m _ := some (.continue_, m)
  onAlbum album _ := some (.continue_, album)

end MessageFilter

end TgPlatform.Mirror
