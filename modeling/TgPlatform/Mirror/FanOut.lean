import TgPlatform.Mirror.Provenance

/-! # Each message once

A handler reads the mappings it needs and then makes the calls that the
configuration lets through, each once and in the order of the directions, and
stores the mapping of every message that has been sent. An exception of the
messenger does not stop it. The calls of all handlers together are those of each
on its own, whatever turns they take.
-/

namespace TgPlatform.Mirror

open Coroutine

def Deed.asked (d : Deed) : Option MirrorCall :=
  match d.call with
  | .insert _ | .insertBatch _ | .deleteMessagesBatch .. => none
  | w => some w

def readBy : List Deed → List MirrorMessage
  | ⟨w, some r⟩ :: _ => w.rows r
  | _ => []

def MirrorCall.reads : MirrorCall → Bool
  | getMessages .. | getMessagesBatch .. => true
  | _ => false

/-! ## What the configuration lets through -/

section Plan

variable (proc : EventProcessor) (chatId : ℤ) (rows : List MirrorMessage)

def sendingTo (m : EventMessage) (d : ℤ × DirectionConfig) : Option MirrorCall :=
  if !d.2.hears m || !d.2.permits m then none
  else
    match d.2.filters.onMessage m .newMessage with
    | none => none
    | some (action, filtered) =>
      if action.discards then none
      else
        let reply := repliesOf rows d.1
        some (.send ⟨chatId, [filtered.id]⟩ d.1 (match d.2.mode with
          | .copy => .message filtered (d.2.replyTo reply) (d.2.replyToTopicId reply)
          | .forward => .forward [m] d.2.toTopicId))

def albumTo (first : EventMessage) (album : List EventMessage) (d : ℤ × DirectionConfig) :
    Option MirrorCall :=
  if !d.2.hears first || !d.2.permits first then none
  else
    match d.2.filters.onAlbum album .album with
    | none => none
    | some (action, filtered) =>
      if action.discards then none
      else
        let reply := repliesOf rows d.1
        some (.send ⟨chatId, filtered.map EventMessage.id⟩ d.1 (match d.2.mode with
          | .copy => .file (filtered.map proc.text) (filtered.map EventMessage.media)
              (d.2.replyTo reply) (d.2.replyToTopicId reply)
          | .forward => .forward album d.2.toTopicId))

def editing (m : EventMessage) (row : MirrorMessage) (config : DirectionConfig) : Option MirrorCall :=
  if config.disableEdit || config.mode = .forward then none
  else
    match config.filters.onMessage m .messageEdited with
    | none => none
    | some (action, filtered) =>
      if action.discards then none
      else some (.editMessage ⟨chatId, [m.id]⟩ row.mirrorChannel row.mirrorId filtered.message
        filtered.entities (if editMediaAllowed filtered.media then filtered.media else none)
        (filtered.media matches some (.webPage _)))

def MirrorEvent.reading : MirrorEvent → Option MirrorCall
  | newMessage chatId m =>
    if m.groupedId.isSome || (proc.chatMapping chatId).items.isEmpty then none
    else m.replyTo.map fun r => .getMessages r.replyToMsgId chatId
  | album _ [] => none
  | album chatId (first :: _) =>
    if (proc.chatMapping chatId).items.isEmpty then none
    else first.replyTo.map fun r => .getMessages r.replyToMsgId chatId
  | edited chatId m => if m.editHide then none else some (.getMessages (some m.id) chatId)
  | deleted chatId ids => some (.getMessagesBatch ids chatId)

def MirrorEvent.outgoing : MirrorEvent → List MirrorCall
  | newMessage chatId m =>
    if m.groupedId.isSome then []
    else (proc.chatMapping chatId).directions.filterMap (sendingTo chatId rows (withoutQuiz m))
  | album _ [] => []
  | album chatId (first :: rest) =>
    (proc.chatMapping chatId).directions.filterMap (albumTo proc chatId rows first (first :: rest))
  | edited chatId m =>
    if m.editHide then []
    else rows.flatMap fun row =>
      ((proc.chatMapping.get? chatId row.mirrorChannel).getD []).filterMap (editing chatId m row)
  | deleted chatId ids =>
    (deletingPerChannel proc chatId rows).map fun x => .deleteFrom ⟨chatId, ids⟩ x.1 x.2

end Plan

/-- The mappings that are due when a call for an album has been answered. Where a single message has
been answered there are none. -/
def albumOwes : Deed → List MirrorMessage
  | ⟨.send .., some (.one _)⟩ => []
  | d => d.call.mappings d.answer

def MirrorEvent.owes : MirrorEvent → Deed → List MirrorMessage
  | album .. => albumOwes
  | _ => fun d => d.call.mappings d.answer

/-! ## The calls of one handler -/

section Calls

variable {proc : EventProcessor} {chatId : ℤ} {rows : List MirrorMessage}

abbrev Asks (plan : List MirrorCall) (t : Handler) : Prop := Emits Deed.mk Deed.asked plan t

theorem asks_recordMessage {originalId entity : ℤ} (r : Option Sent) :
    Asks [] (recordMessage chatId originalId entity r) := by
  match r with
  | none | some .nothing | some (.list []) => exact emits_ret
  | some (.one id) => exact emits_request fun _ => rfl
  | some (.list (_ :: _)) => exact emits_raise

theorem asks_recordAlbum {origin : Origin} {entity : ℤ} (r : Option Sent) :
    Asks [] (recordAlbum origin entity r) := by
  match r with
  | none | some .nothing | some (.one _) => exact emits_ret
  | some (.list ids) =>
    simp only [recordAlbum]
    split
    · exact emits_request fun _ => rfl
    · exact emits_raise

theorem asks_attempt {w : MirrorCall} {k : Option w.Answer → Handler}
    (hw : ∀ r, (⟨w, r⟩ : Deed).asked = some w) (hk : ∀ r, Asks [] (k r)) :
    Asks [w] ((attempt w).andThen k) := by
  rw [← List.append_nil [w]]
  exact Emits.andThen (emits_attempt hw) hk

theorem asks_newMessageTo {m : EventMessage} (d : ℤ × DirectionConfig) :
    Asks (sendingTo chatId rows m d).toList (newMessageTo chatId rows m d) := by
  unfold newMessageTo sendingTo
  split
  · exact emits_ret
  · cases d.2.filters.onMessage m .newMessage with
    | none => exact emits_raise
    | some x =>
      obtain ⟨action, filtered⟩ := x
      dsimp only
      split
      · exact emits_ret
      · exact asks_attempt (fun _ => rfl) asks_recordMessage

theorem asks_newAlbumTo {first : EventMessage} {album : List EventMessage} (d : ℤ × DirectionConfig) :
    Asks (albumTo proc chatId rows first album d).toList (newAlbumTo proc chatId rows first album d) := by
  unfold newAlbumTo albumTo
  split
  · exact emits_ret
  · cases d.2.filters.onAlbum album .album with
    | none => exact emits_raise
    | some x =>
      obtain ⟨action, filtered⟩ := x
      dsimp only
      split
      · exact emits_ret
      · exact asks_attempt (fun _ => rfl) asks_recordAlbum

theorem asks_editOne {m : EventMessage} {row : MirrorMessage} (config : DirectionConfig) :
    Asks (editing chatId m row config).toList (editOne chatId m row config) := by
  unfold editOne editing
  split
  · exact emits_ret
  · cases config.filters.onMessage m .messageEdited with
    | none => exact emits_raise
    | some x =>
      obtain ⟨action, filtered⟩ := x
      dsimp only
      split
      · exact emits_ret
      · exact asks_attempt (fun _ => rfl) fun _ => emits_ret

theorem asks_each_filterMap {γ : Type} {f : γ → Handler} {p : γ → Option MirrorCall}
    (h : ∀ c, Asks (p c).toList (f c)) (cs : List γ) : Asks (cs.filterMap p) (each f cs) := by
  rw [List.filterMap_eq_flatMap_toList]
  exact emits_each fun c _ => h c

theorem follows_reading (w : MirrorCall) (hw : w.reads = true) {k : w.Answer → Handler}
    (plan : List MirrorMessage → List MirrorCall) (hk : ∀ r, Asks (plan (w.rows r)) (k r)) :
    Follows Deed.mk (fun l => l.filterMap Deed.asked <+: w :: plan (readBy l))
      (fun _ l => l.filterMap Deed.asked = w :: plan (readBy l)) ((request w).andThen k) := by
  have hasked : ∀ r, (⟨w, r⟩ : Deed).asked = some w := by
    intro r
    cases w <;> first | rfl | cases hw
  refine Follows.andThen (follows_request List.nil_prefix ?_ fun r => ⟨?_, ?_⟩)
  · rw [List.filterMap_cons_some (hasked none)]
    exact List.prefix_append [w] _
  · rw [List.filterMap_cons_some (hasked _)]
    exact List.prefix_append [w] _
  · refine (hk r).imp (fun l hl => ?_) fun _ l hl => ?_
    · rw [List.singleton_append, List.filterMap_cons_some (hasked _)]
      exact List.cons_prefix_cons.mpr ⟨rfl, hl⟩
    · rw [List.singleton_append, List.filterMap_cons_some (hasked _), hl]
      rfl

theorem follows_silent (plan : List MirrorMessage → List MirrorCall) {t : Handler}
    (hplan : ∀ w ∈ plan [], w.reads = false) (h : Asks (plan []) t) :
    Follows Deed.mk (fun l => l.filterMap Deed.asked <+: plan (readBy l))
      (fun _ l => l.filterMap Deed.asked = plan (readBy l)) t := by
  have hread : ∀ l, l.filterMap Deed.asked <+: plan [] → readBy l = [] := by
    intro l hl
    cases l with
    | nil => rfl
    | cons d l =>
      obtain ⟨w, r⟩ := d
      have hnot : ∀ w', (⟨w, r⟩ : Deed).asked = some w' → w'.reads = false := by
        intro w' hw'
        rw [List.filterMap_cons_some hw'] at hl
        exact hplan _ (hl.subset List.mem_cons_self)
      cases r with
      | none => rfl
      | some r => cases w <;> first | rfl | cases hnot _ rfl
  intro l u hpath
  obtain ⟨hl, hret⟩ := h l u hpath
  simp only [hread l hl]
  exact ⟨hl, hret⟩

def Handles (proc : EventProcessor) (event : MirrorEvent) (t : Handler) : Prop :=
  Follows Deed.mk
    (fun l => l.filterMap Deed.asked <+:
      (event.reading proc).toList ++ event.outgoing proc (readBy l))
    (fun _ l => l.filterMap Deed.asked =
      (event.reading proc).toList ++ event.outgoing proc (readBy l)) t

theorem reads_of_mem_filterMap {γ : Type} {f : γ → Option MirrorCall} {cs : List γ}
    (h : ∀ c w, f c = some w → w.reads = false) : ∀ w ∈ cs.filterMap f, w.reads = false := by
  intro w hw
  obtain ⟨c, -, hc⟩ := List.mem_filterMap.mp hw
  exact h c w hc

theorem reads_sendingTo {m : EventMessage} (d : ℤ × DirectionConfig) (w : MirrorCall)
    (h : sendingTo chatId rows m d = some w) : w.reads = false := by
  unfold sendingTo at h
  split at h
  · cases h
  · cases hfilter : d.2.filters.onMessage m .newMessage with
    | none =>
      rw [hfilter] at h
      cases h
    | some x =>
      rw [hfilter] at h
      dsimp only at h
      split at h
      · cases h
      · cases h
        rfl

theorem reads_albumTo {first : EventMessage} {album : List EventMessage} (d : ℤ × DirectionConfig)
    (w : MirrorCall) (h : albumTo proc chatId rows first album d = some w) : w.reads = false := by
  unfold albumTo at h
  split at h
  · cases h
  · cases hfilter : d.2.filters.onAlbum album .album with
    | none =>
      rw [hfilter] at h
      cases h
    | some x =>
      rw [hfilter] at h
      dsimp only at h
      split at h
      · cases h
      · cases h
        rfl

theorem handles_sending {event : MirrorEvent} {replyTo : Option ReplyTo}
    {f : List MirrorMessage → ℤ × DirectionConfig → Handler}
    {p : List MirrorMessage → ℤ × DirectionConfig → Option MirrorCall}
    (hreading : event.reading proc = replyTo.map fun r => .getMessages r.replyToMsgId chatId)
    (houtgoing : ∀ rows, event.outgoing proc rows = (proc.chatMapping chatId).directions.filterMap (p rows))
    (hreads : ∀ rows d w, p rows d = some w → w.reads = false)
    (h : ∀ rows d, Asks (p rows d).toList (f rows d)) :
    Handles proc event
      ((repliedTo chatId replyTo).andThen fun rows =>
        each (f rows) (proc.chatMapping chatId).directions) := by
  have heach : ∀ rows,
      Asks (event.outgoing proc rows) (each (f rows) (proc.chatMapping chatId).directions) := by
    intro rows
    rw [houtgoing rows]
    exact asks_each_filterMap (h rows) _
  cases replyTo with
  | none =>
    simp only [Handles, hreading, Option.map_none, Option.toList_none, List.nil_append]
    refine follows_silent (fun rows => event.outgoing proc rows) ?_ (heach [])
    rw [houtgoing []]
    exact reads_of_mem_filterMap (hreads [])
  | some r =>
    simp only [Handles, hreading, Option.map_some, Option.toList_some, List.singleton_append]
    exact follows_reading _ rfl (fun rows => event.outgoing proc rows) heach

theorem handles_newMessage {m : EventMessage} (hgroup : m.groupedId.isSome = false) :
    Handles proc (.newMessage chatId m) (newMessage proc chatId m) := by
  unfold newMessage
  split
  · rename_i hempty
    have hdirections : (proc.chatMapping chatId).directions = [] := by
      simp [Outgoing.directions, List.isEmpty_iff.mp hempty]
    simp only [Handles, MirrorEvent.reading, MirrorEvent.outgoing, hgroup, hempty, hdirections]
    exact emits_ret
  · rename_i hne
    refine handles_sending ?_ (fun rows => ?_) (fun rows d w => reads_sendingTo d w)
      fun rows d => asks_newMessageTo d
    · simp [MirrorEvent.reading, hgroup, hne]
    · simp [MirrorEvent.outgoing, hgroup]

theorem handles_newAlbum {album : List EventMessage} :
    Handles proc (.album chatId album) (newAlbum proc chatId album) := by
  cases album with
  | nil => exact emits_raise
  | cons first rest =>
    simp only [newAlbum]
    split
    · rename_i hempty
      have hdirections : (proc.chatMapping chatId).directions = [] := by
        simp [Outgoing.directions, List.isEmpty_iff.mp hempty]
      simp only [Handles, MirrorEvent.reading, MirrorEvent.outgoing, hempty, hdirections]
      exact emits_ret
    · rename_i hne
      refine handles_sending (p := fun rows => albumTo proc chatId rows first (first :: rest)) ?_
        (fun rows => rfl) (fun rows d w => reads_albumTo d w) fun rows d => asks_newAlbumTo d
      simp [MirrorEvent.reading, hne]

theorem handles_editMessage {m : EventMessage} (hhide : m.editHide = false) :
    Handles proc (.edited chatId m) (editMessage proc chatId m) := by
  simp only [Handles, MirrorEvent.reading, MirrorEvent.outgoing, hhide]
  exact follows_reading (.getMessages (some m.id) chatId) rfl
    (fun rows => rows.flatMap fun row =>
      ((proc.chatMapping.get? chatId row.mirrorChannel).getD []).filterMap (editing chatId m row))
    fun rows => emits_each fun row _ => asks_each_filterMap asks_editOne _

theorem handles_deleteMessage {ids : List ℤ} :
    Handles proc (.deleted chatId ids) (deleteMessage proc chatId ids) := by
  refine follows_reading (.getMessagesBatch ids chatId) rfl
    (fun rows => (deletingPerChannel proc chatId rows).map fun x => .deleteFrom ⟨chatId, ids⟩ x.1 x.2)
    fun (rows : List MirrorMessage) => ?_
  split
  · rename_i hempty
    rw [List.isEmpty_iff.mp hempty]
    exact emits_ret
  · have heach : Asks ((deletingPerChannel proc chatId rows).flatMap fun x =>
        [.deleteFrom ⟨chatId, ids⟩ x.1 x.2]) (each (fun x =>
          (attempt (MirrorCall.deleteFrom ⟨chatId, ids⟩ x.1 x.2)).andThen fun _ => ret ())
          (deletingPerChannel proc chatId rows)) :=
      emits_each fun x _ => asks_attempt (fun _ => rfl) fun _ => emits_ret
    rw [List.map_eq_flatMap, ← List.append_nil (List.flatMap _ _)]
    exact heach.andThen fun _ => emits_request fun _ => rfl

theorem handles_handleEvent (event : MirrorEvent) : Handles proc event (handleEvent proc event) := by
  cases event with
  | newMessage chatId m =>
    rw [handleEvent]
    split
    · rename_i hgroup
      simp only [Handles, MirrorEvent.reading, MirrorEvent.outgoing, hgroup]
      exact emits_ret
    · rename_i hgroup
      exact handles_newMessage (by simpa using hgroup)
  | album chatId l => exact handles_newAlbum
  | edited chatId m =>
    rw [handleEvent]
    split
    · rename_i hhide
      simp only [Handles, MirrorEvent.reading, MirrorEvent.outgoing, hhide]
      exact emits_ret
    · rename_i hhide
      exact handles_editMessage (by simpa using hhide)
  | deleted chatId ids => exact handles_deleteMessage

end Calls

/-! ## The mappings of what has been sent -/

section Settles

variable {proc : EventProcessor} {chatId : ℤ} {rows : List MirrorMessage}
  {owes : Deed → List MirrorMessage}

def Deed.stored (d : Deed) : List MirrorMessage := d.call.stored d.answer

/-- The mappings that are stored are those that are due, in their order, and all of them once the
handler has ended. -/
def Settles (owes : Deed → List MirrorMessage) {α : Type} (t : HandlerPart α) : Prop :=
  Follows Deed.mk (fun l => l.flatMap Deed.stored <+: l.flatMap owes)
    (fun _ l => l.flatMap Deed.stored = l.flatMap owes) t

theorem settles_ret {α : Type} {a : α} : Settles owes (ret a : HandlerPart α) :=
  follows_ret List.nil_prefix rfl

theorem settles_raise {α : Type} : Settles owes (raise : HandlerPart α) :=
  follows_raise List.nil_prefix

theorem Settles.andThen {α β : Type} {t : HandlerPart α} {k : α → HandlerPart β}
    (h : Settles owes t) (hk : ∀ a, Settles owes (k a)) : Settles owes (t.andThen k) := by
  refine Follows.andThen (Follows.imp h (fun _ hl => hl) fun a l hl => ?_)
  refine (hk a).imp (fun l' hl' => ?_) fun _ l' hl' => ?_
  · rw [List.flatMap_append, List.flatMap_append, hl]
    exact (List.prefix_append_right_inj _).mpr hl'
  · rw [List.flatMap_append, List.flatMap_append, hl, hl']

theorem settles_each {γ : Type} {f : γ → Handler} {cs : List γ} (h : ∀ c ∈ cs, Settles owes (f c)) :
    Settles owes (each f cs) := by
  induction cs with
  | nil => exact settles_ret
  | cons c cs ih =>
    exact (h c List.mem_cons_self).andThen fun _ => ih fun c' hc' => h c' (List.mem_cons_of_mem c hc')

theorem settles_request {w : MirrorCall}
    (hw : ∀ r, Deed.stored ⟨w, r⟩ = [] ∧ owes ⟨w, r⟩ = []) : Settles owes (request w) := by
  have hnil : ∀ r, [(⟨w, r⟩ : Deed)].flatMap Deed.stored = [(⟨w, r⟩ : Deed)].flatMap owes := by
    intro r
    rw [List.flatMap_singleton, List.flatMap_singleton, (hw r).1, (hw r).2]
  exact follows_request List.nil_prefix (hnil none ▸ List.prefix_rfl)
    fun r => ⟨hnil (some r) ▸ List.prefix_rfl, hnil (some r)⟩

theorem settles_attempt {w : MirrorCall} {k : Option w.Answer → Handler}
    (hw : ∀ r, Deed.stored ⟨w, r⟩ = [])
    (hk : ∀ r, Follows Deed.mk (fun l => l.flatMap Deed.stored <+: owes ⟨w, r⟩ ++ l.flatMap owes)
      (fun _ l => l.flatMap Deed.stored = owes ⟨w, r⟩ ++ l.flatMap owes) (k r)) :
    Settles owes ((attempt w).andThen k) := by
  refine Follows.andThen (follows_attempt List.nil_prefix fun r => ⟨?_, ?_⟩)
  · rw [List.flatMap_singleton, hw r]
    exact List.nil_prefix
  · refine (hk r).imp (fun l hl => ?_) fun _ l hl => ?_
    · rwa [List.singleton_append, List.flatMap_cons, List.flatMap_cons, hw r, List.nil_append]
    · rwa [List.singleton_append, List.flatMap_cons, List.flatMap_cons, hw r, List.nil_append]

theorem follows_store (w : MirrorCall) (due : List MirrorMessage) (hnone : w.stored none = [])
    (hsome : ∀ r, w.stored (some r) = due) (howes : ∀ r, owes ⟨w, r⟩ = []) :
    Follows Deed.mk (fun l => l.flatMap Deed.stored <+: due ++ l.flatMap owes)
      (fun _ l => l.flatMap Deed.stored = due ++ l.flatMap owes) (request w) := by
  have hstored : ∀ r, [(⟨w, some r⟩ : Deed)].flatMap Deed.stored =
      due ++ [(⟨w, some r⟩ : Deed)].flatMap owes := by
    intro r
    rw [List.flatMap_singleton, List.flatMap_singleton, howes, List.append_nil]
    exact hsome r
  refine follows_request List.nil_prefix ?_ fun r => ⟨hstored r ▸ List.prefix_rfl, hstored r⟩
  rw [List.flatMap_singleton, Deed.stored, hnone]
  exact List.nil_prefix

theorem stored_send {origin : Origin} {entity : ℤ} {what : Sending}
    (r : Option (MirrorCall.send origin entity what).Answer) : Deed.stored ⟨_, r⟩ = [] := by
  cases r <;> rfl

theorem settles_newMessageTo {m : EventMessage} (d : ℤ × DirectionConfig) :
    Settles (fun d => d.call.mappings d.answer) (newMessageTo chatId rows m d) := by
  unfold newMessageTo
  split
  · exact settles_ret
  · cases d.2.filters.onMessage m .newMessage with
    | none => exact settles_raise
    | some x =>
      obtain ⟨action, filtered⟩ := x
      dsimp only
      split
      · exact settles_ret
      · refine settles_attempt stored_send fun r => ?_
        match r with
        | none | some .nothing | some (.list []) => exact settles_ret
        | some (.one id) =>
          exact follows_store (.insert ⟨filtered.id, chatId, id, d.1⟩) [⟨filtered.id, chatId, id, d.1⟩]
            rfl (fun _ => rfl) fun r => by cases r <;> rfl
        | some (.list (_ :: _)) => exact follows_raise List.nil_prefix

theorem settles_newAlbumTo {first : EventMessage} {album : List EventMessage}
    (d : ℤ × DirectionConfig) : Settles albumOwes (newAlbumTo proc chatId rows first album d) := by
  unfold newAlbumTo
  split
  · exact settles_ret
  · cases d.2.filters.onAlbum album .album with
    | none => exact settles_raise
    | some x =>
      obtain ⟨action, filtered⟩ := x
      dsimp only
      split
      · exact settles_ret
      · refine settles_attempt stored_send fun r => ?_
        match r with
        | none | some .nothing | some (.one _) => exact settles_ret
        | some (.list ids) =>
          simp only [recordAlbum, albumOwes, MirrorCall.mappings]
          split
          · rename_i l hl
            rw [hl]
            exact follows_store (.insertBatch l) l rfl (fun _ => rfl) fun r => by cases r <;> rfl
          · exact follows_raise List.nil_prefix

theorem settles_ignored {w : MirrorCall} (hw : ∀ r, Deed.stored ⟨w, r⟩ = [] ∧ owes ⟨w, r⟩ = []) :
    Settles owes ((attempt w).andThen fun _ => (ret () : Handler)) := by
  refine settles_attempt (fun r => (hw r).1) fun r => follows_ret List.nil_prefix ?_
  rw [(hw r).2]
  rfl

theorem settles_repliedTo {replyTo : Option ReplyTo} (howes : ∀ id r, owes ⟨.getMessages id chatId, r⟩ = []) :
    Settles owes (repliedTo chatId replyTo) := by
  cases replyTo with
  | none => exact settles_ret
  | some r => exact settles_request fun r' => ⟨by cases r' <;> rfl, howes _ r'⟩

theorem settles_editOne {m : EventMessage} {row : MirrorMessage} (config : DirectionConfig) :
    Settles (fun d => d.call.mappings d.answer) (editOne chatId m row config) := by
  unfold editOne
  split
  · exact settles_ret
  · cases config.filters.onMessage m .messageEdited with
    | none => exact settles_raise
    | some x =>
      obtain ⟨action, filtered⟩ := x
      dsimp only
      split
      · exact settles_ret
      · exact settles_ignored fun r => ⟨by cases r <;> rfl, by cases r <;> rfl⟩

theorem settles_handleEvent (event : MirrorEvent) :
    Settles event.owes (handleEvent proc event) := by
  cases event with
  | newMessage chatId m =>
    rw [handleEvent]
    split
    · exact settles_ret
    · unfold newMessage
      split
      · exact settles_ret
      · exact (settles_repliedTo fun _ r => by cases r <;> rfl).andThen fun rows =>
          settles_each fun d _ => settles_newMessageTo d
  | album chatId l =>
    cases l with
    | nil => exact settles_raise
    | cons first rest =>
      simp only [handleEvent, newAlbum]
      split
      · exact settles_ret
      · exact (settles_repliedTo fun _ r => by cases r <;> rfl).andThen fun rows =>
          settles_each fun d _ => settles_newAlbumTo d
  | edited chatId m =>
    rw [handleEvent]
    split
    · exact settles_ret
    · exact (settles_request fun r => ⟨by cases r <;> rfl, by cases r <;> rfl⟩).andThen
        fun (rows : List MirrorMessage) => settles_each fun row _ => settles_each fun c _ => settles_editOne c
  | deleted chatId ids =>
    refine (settles_request fun r => ⟨by cases r <;> rfl, by cases r <;> rfl⟩).andThen
      fun (rows : List MirrorMessage) => ?_
    split
    · exact settles_ret
    · refine (settles_each fun x _ => settles_ignored fun r => ?_).andThen
        fun _ => settles_request fun r => ?_
      · exact ⟨by cases r <;> rfl, by cases r <;> rfl⟩
      · exact ⟨by cases r <;> rfl, by cases r <;> rfl⟩

end Settles

/-! ## All handlers together -/

structure Handling where
  event : MirrorEvent
  done : List Deed
  rest : Handler

structure Handling.Orderly (proc : EventProcessor) (h : Handling) : Prop where
  path : Path Deed.mk (handleEvent proc h.event) h.done h.rest
  asked : h.done.filterMap Deed.asked <+:
    (h.event.reading proc).toList ++ h.event.outgoing proc (readBy h.done)
  stored : h.done.flatMap Deed.stored <+: h.done.flatMap h.event.owes

/-- A handler that has ended has made each of the calls once and stored all mappings. -/
structure Handling.Complete (proc : EventProcessor) (h : Handling) : Prop where
  asked : h.done.filterMap Deed.asked =
    (h.event.reading proc).toList ++ h.event.outgoing proc (readBy h.done)
  stored : h.done.flatMap Deed.stored = h.done.flatMap h.event.owes

theorem Handling.orderly_of_path {proc : EventProcessor} {h : Handling}
    (hpath : Path Deed.mk (handleEvent proc h.event) h.done h.rest) :
    h.Orderly proc ∧ (h.rest = ret () → h.Complete proc) := by
  obtain ⟨hasked, hended⟩ := handles_handleEvent h.event h.done h.rest hpath
  obtain ⟨hstored, hsettled⟩ := settles_handleEvent h.event h.done h.rest hpath
  exact ⟨⟨hpath, hasked, hstored⟩, fun hrest => ⟨hended () hrest, hsettled () hrest⟩⟩

theorem exists_handled {proc : EventProcessor} {events : MirrorEvent → Prop}
    {begun : List (Handler × List Deed)} {ts : List Handler}
    (h : List.Forall₂ (fun b t => (∃ event, events event ∧ b.1 = handleEvent proc event) ∧
      Path Deed.mk b.1 b.2 t) begun ts) :
    ∃ handled : List Handling, handled.map Handling.rest = ts ∧
      handled.map Handling.done = begun.map Prod.snd ∧
      ∀ h ∈ handled, events h.event ∧ Path Deed.mk (handleEvent proc h.event) h.done h.rest := by
  induction h with
  | nil => exact ⟨[], rfl, rfl, fun h hh => (List.not_mem_nil hh).elim⟩
  | @cons b t begun ts hb _ ih =>
    obtain ⟨⟨event, hevent, hbegun⟩, hpath⟩ := hb
    obtain ⟨handled, hrest, hdone, hall⟩ := ih
    refine ⟨⟨event, b.2, t⟩ :: handled, by rw [List.map_cons, hrest], ?_, ?_⟩
    · rw [List.map_cons, List.map_cons, hdone]
    · intro h hh
      rcases List.mem_cons.mp hh with rfl | hh
      · exact ⟨hevent, hbegun ▸ hpath⟩
      · exact hall h hh

/-- However the handlers take turns and whatever their calls answer, all calls together are those of
the handlers, each of which makes its calls once, in the order of the directions, and stores the
mappings that are due for what it has sent. -/
theorem sent_once {proc : EventProcessor} {events : MirrorEvent → Prop} {x : Mirrored × List Handler}
    (h : Reaches Answers (fun t => ∃ event, events event ∧ t = handleEvent proc event) {} x) :
    ∃ handled : List Handling, handled.map Handling.rest = x.2 ∧
      x.1.log.Perm (handled.flatMap Handling.done) ∧
      ∀ h ∈ handled, events h.event ∧ h.Orderly proc ∧ (h.rest = ret () → h.Complete proc) := by
  have hlog : ∀ s w r s', Answers s w r s' → s'.log = s.log ++ [Deed.mk w r] :=
    fun _ _ _ _ hW => log_of_answers hW
  obtain ⟨begun, hpaths, hperm⟩ := h.paths hlog rfl
  obtain ⟨handled, hrest, hdone, hall⟩ := exists_handled hpaths
  refine ⟨handled, hrest, ?_, fun h hh => ?_⟩
  · rwa [List.flatMap_def, hdone, ← List.flatMap_def]
  · obtain ⟨hevent, hpath⟩ := hall h hh
    exact ⟨hevent, Handling.orderly_of_path hpath⟩

theorem sent_once_stored : ∃ handled : List Handling, handled.map Handling.rest = [ret ()] ∧
    [sendingDeed, storingDeed].Perm (handled.flatMap Handling.done) ∧
    ∀ h ∈ handled, h.Orderly oneDirection ∧ h.Complete oneDirection := by
  obtain ⟨handled, hrest, hperm, hall⟩ := sent_once reaches_stored
  refine ⟨handled, hrest, hperm, fun h hh => ?_⟩
  obtain ⟨-, horderly, hcomplete⟩ := hall h hh
  have hended : h.rest ∈ handled.map Handling.rest := List.mem_map_of_mem hh
  rw [hrest] at hended
  exact ⟨horderly, hcomplete (List.mem_singleton.mp hended)⟩

end TgPlatform.Mirror
