import TgPlatform.Lib.Trace
import TgPlatform.Mirror.Processor

/-! # What the mirror touches

However the handlers take turns and whatever the database and the messenger
answer, the mirror sends only what a direction of the source chat lets through,
answers only messages it has sent for the original that is replied to, and edits
and deletes only messages it has sent for the edited or deleted original.
-/

namespace TgPlatform.Mirror

open Coroutine

def MirrorCall.mappings : (w : MirrorCall) → Option w.Answer → List MirrorMessage
  | send origin entity _, some (.one id) => (mirrored origin entity [some id]).getD []
  | send origin entity _, some (.list ids) => (mirrored origin entity ids).getD []
  | _, _ => []

def MirrorCall.stored : (w : MirrorCall) → Option w.Answer → List MirrorMessage
  | insert e, some _ => [e]
  | insertBatch l, some _ => l
  | _, _ => []

def MirrorCall.rows : (w : MirrorCall) → w.Answer → List MirrorMessage
  | getMessages .., rows => rows
  | getMessagesBatch .., rows => rows
  | _, _ => []

/-- The message has been sent for its original. -/
def SentFor (log : List Deed) (e : MirrorMessage) : Prop :=
  ∃ d ∈ log, e ∈ d.call.mappings d.answer

def Found (log : List Deed) (w : MirrorCall) (e : MirrorMessage) : Prop :=
  ∃ pre answer post, log = pre ++ (⟨w, some answer⟩ : Deed) :: post ∧ e ∈ w.rows answer ∧
    ∃ d ∈ pre, e ∈ d.call.stored d.answer

variable (proc : EventProcessor) (events : MirrorEvent → Prop)

/-- A reply goes to the message that has been sent for the original, if to any. -/
def Replies (log : List Deed) (chatId entity : ℤ) (replyTo : Option ReplyTo) (reply : Option ℤ) :
    Prop :=
  ∀ id, reply = some id → ∃ r original, replyTo = some r ∧ r.replyToMsgId = some original ∧
    SentFor log ⟨original, chatId, id, entity⟩ ∧
    Found log (.getMessages original chatId) ⟨original, chatId, id, entity⟩

def SendsMessage (log : List Deed) (origin : Origin) (entity : ℤ) (what : Sending) : Prop :=
  ∃ m config action filtered reply, events (.newMessage origin.chatId m) ∧ m.groupedId = none ∧
    (entity, config) ∈ (proc.chatMapping origin.chatId).directions ∧ config.hears m ∧ config.permits m ∧
    config.filters.onMessage (withoutQuiz m) .newMessage = some (action, filtered) ∧
    action.discards = false ∧ origin.ids = [filtered.id] ∧
    Replies log origin.chatId entity m.replyTo reply ∧
    what = match config.mode with
      | .copy => .message filtered (config.replyTo reply) (config.replyToTopicId reply)
      | .forward => .forward [withoutQuiz m] config.toTopicId

/-- A direction lets an album through, and this is what becomes of it. -/
def SendsAlbum (log : List Deed) (origin : Origin) (entity : ℤ) (what : Sending) : Prop :=
  ∃ first rest config action filtered reply, events (.album origin.chatId (first :: rest)) ∧
    (entity, config) ∈ (proc.chatMapping origin.chatId).directions ∧ config.hears first ∧
    config.permits first ∧
    config.filters.onAlbum (first :: rest) .album = some (action, filtered) ∧
    action.discards = false ∧ origin.ids = filtered.map EventMessage.id ∧
    Replies log origin.chatId entity first.replyTo reply ∧
    what = match config.mode with
      | .copy => .file (filtered.map proc.text) (filtered.map EventMessage.media)
          (config.replyTo reply) (config.replyToTopicId reply)
      | .forward => .forward (first :: rest) config.toTopicId

/-- A configuration of the target lets an edit through, and the message is one that a lookup of the
edited one has found. -/
def Edits (log : List Deed) (origin : Origin) (entity message : ℤ) (text : Text)
    (entities : List MessageEntity) (file : Option Media) : Prop :=
  ∃ m configs config action filtered, events (.edited origin.chatId m) ∧ m.editHide = false ∧
    SentFor log ⟨m.id, origin.chatId, message, entity⟩ ∧
    Found log (.getMessages m.id origin.chatId) ⟨m.id, origin.chatId, message, entity⟩ ∧
    proc.chatMapping.get? origin.chatId entity = some configs ∧ config ∈ configs ∧
    config.disableEdit = false ∧ config.mode = .copy ∧
    config.filters.onMessage m .messageEdited = some (action, filtered) ∧
    action.discards = false ∧ text = filtered.message ∧ entities = filtered.entities ∧
    (file = none ∨ file = filtered.media)

/-- Each of the messages is one that the lookup of the deleted ones has found, and a configuration of
the target lets the deletion through. -/
def Deletes (log : List Deed) (origin : Origin) (entity : ℤ) (messageIds : List ℤ) : Prop :=
  events (.deleted origin.chatId origin.ids) ∧ ∀ id ∈ messageIds,
    (∃ original ∈ origin.ids, SentFor log ⟨original, origin.chatId, id, entity⟩ ∧
      Found log (.getMessagesBatch origin.ids origin.chatId) ⟨original, origin.chatId, id, entity⟩) ∧
    ∃ configs config, proc.chatMapping.get? origin.chatId entity = some configs ∧ config ∈ configs ∧
      config.disableDelete = false

/-- The mappings of the deleted messages have been found, and no configuration of their targets lets
the deletion through. -/
def Withheld (log : List Deed) (chatId : ℤ) (originals : List ℤ) : Prop :=
  ∃ rows : List MirrorMessage, rows ≠ [] ∧
    (⟨.getMessagesBatch originals chatId, some rows⟩ : Deed) ∈ log ∧
    ∀ e ∈ rows, SentFor log e ∧ e.originalChannel = chatId ∧ e.originalId ∈ originals ∧
      ∀ configs config, proc.chatMapping.get? chatId e.mirrorChannel = some configs →
        config ∈ configs → config.disableDelete = true

/-- The ids whose mappings are dropped are those that have been deleted from a target, or, where no
configuration lets the deletion through, those of the deleted messages. -/
def Forgets (log : List Deed) (ids : List ℤ) (chatId : ℤ) : Prop :=
  ∃ originals, events (.deleted chatId originals) ∧
    ((∃ entity answer,
        (⟨.deleteFrom ⟨chatId, originals⟩ entity ids, answer⟩ : Deed) ∈ log) ∨
      (ids = originals ∧ Withheld proc log chatId originals))

def Lawful (log : List Deed) : MirrorCall → Prop
  | .send origin entity what =>
    SendsMessage proc events log origin entity what ∨
    SendsAlbum proc events log origin entity what
  | .editMessage origin entity message text entities file _ =>
    Edits proc events log origin entity message text entities file
  | .deleteFrom origin entity messageIds => Deletes proc events log origin entity messageIds
  | .insert e => SentFor log e
  | .insertBatch l => ∀ e ∈ l, SentFor log e
  | .deleteMessagesBatch ids chatId => Forgets proc events log ids chatId
  | .getMessages .. | .getMessagesBatch .. => True

/-- All calls have been lawful, and every mapping is of a message that has been sent. -/
structure Inv (s : Mirrored) : Prop where
  lawful : Trace.Throughout (fun pre d => Lawful proc events pre d.call) s.log
  sent : ∀ e ∈ s.rows, SentFor s.log e
  stored : ∀ e ∈ s.rows, ∃ d ∈ s.log, e ∈ d.call.stored d.answer

def Later (s s' : Mirrored) : Prop := s.log <+: s'.log

instance : IsPreorder Mirrored Later where
  refl s := List.prefix_refl s.log
  trans _ _ _ h h' := List.IsPrefix.trans h h'

variable {proc events} {s s' s'' : Mirrored} {log log' : List Deed} {w : MirrorCall}
  {r : Option w.Answer} {e : MirrorMessage} {chatId entity : ℤ}

theorem SentFor.mono (h : SentFor log e) (hle : log <+: log') : SentFor log' e := by
  obtain ⟨d, hd, he⟩ := h
  exact ⟨d, hle.subset hd, he⟩

theorem Found.mono (h : Found log w e) (hle : log <+: log') : Found log' w e := by
  obtain ⟨pre, answer, post, rfl, hmem, hstored⟩ := h
  obtain ⟨tail, rfl⟩ := hle
  exact ⟨pre, answer, post ++ tail, by simp, hmem, hstored⟩

theorem Withheld.mono {originals : List ℤ} (h : Withheld proc log chatId originals)
    (hle : log <+: log') : Withheld proc log' chatId originals := by
  obtain ⟨rows, hne, hread, hrows⟩ := h
  refine ⟨rows, hne, hle.subset hread, fun e he => ?_⟩
  obtain ⟨hsent, hrest⟩ := hrows e he
  exact ⟨hsent.mono hle, hrest⟩

theorem Replies.mono {replyTo : Option ReplyTo} {reply : Option ℤ}
    (h : Replies log chatId entity replyTo reply) (hle : log <+: log') :
    Replies log' chatId entity replyTo reply := by
  intro id hid
  obtain ⟨r, original, hr, horiginal, hsent, hfound⟩ := h id hid
  exact ⟨r, original, hr, horiginal, hsent.mono hle, hfound.mono hle⟩

theorem log_of_answers (h : Answers s w r s') : s'.log = s.log ++ [⟨w, r⟩] := by
  cases h <;> rfl

theorem mem_log (h : Answers s w r s') (hle : Later s' s'') : (⟨w, r⟩ : Deed) ∈ s''.log := by
  refine hle.subset ?_
  rw [log_of_answers h]
  exact List.mem_append_right _ (List.mem_singleton_self _)

theorem mem_write {rows : PostgresDatabase} {a : w.Answer} (h : e ∈ w.write rows) :
    e ∈ rows ∨ e ∈ w.stored (some a) := by
  cases w with
  | insert e' => exact List.mem_append.mp h
  | insertBatch l => exact List.mem_append.mp h
  | deleteMessagesBatch ids channel => exact .inl (List.mem_of_mem_filter h)
  | _ => exact .inl h

/-- A lawful call keeps the invariant. -/
theorem Inv.call (hI : Inv proc events s) (hlaw : Lawful proc events s.log w)
    (h : Answers s w r s') : Inv proc events s' ∧ Later s s' := by
  have hle : s.log <+: s'.log := by
    rw [log_of_answers h]
    exact List.prefix_append ..
  refine ⟨⟨?_, ?_, ?_⟩, hle⟩
  · rw [log_of_answers h]
    exact hI.lawful.snoc hlaw
  · intro e he
    cases h with
    | raise => exact (hI.sent e he).mono hle
    | answer _ =>
      cases w with
      | insert e' =>
        rcases List.mem_append.mp he with he | he
        · exact (hI.sent e he).mono hle
        · rw [List.mem_singleton.mp he]
          exact SentFor.mono hlaw hle
      | insertBatch l =>
        rcases List.mem_append.mp he with he | he
        · exact (hI.sent e he).mono hle
        · exact SentFor.mono (hlaw e he) hle
      | deleteMessagesBatch ids channel => exact (hI.sent e (List.mem_of_mem_filter he)).mono hle
      | _ => exact (hI.sent e he).mono hle
  · intro e he
    have hbefore : e ∈ s.rows → ∃ d ∈ s'.log, e ∈ d.call.stored d.answer := by
      intro he
      obtain ⟨d, hd, hstored⟩ := hI.stored e he
      exact ⟨d, hle.subset hd, hstored⟩
    cases h with
    | raise => exact hbefore he
    | @answer _ _ r _ =>
      rcases mem_write he with he | he
      · exact hbefore he
      · exact ⟨⟨w, some r⟩, by simp, he⟩

abbrev Sound (proc : EventProcessor) (events : MirrorEvent → Prop) {α : Type}
    (Q : α → Mirrored → Prop) (s : Mirrored) (t : HandlerPart α) : Prop :=
  Safe Answers (Inv proc events) Later Q s t

abbrev Done : Unit → Mirrored → Prop := fun _ _ => True

theorem sound_ret : Sound proc events Done s (ret ()) := fun _ _ _ => trivial

theorem sound_request {Q : w.Answer → Mirrored → Prop}
    (hlaw : ∀ s', Later s s' → Inv proc events s' → Lawful proc events s'.log w)
    (hQ : ∀ s' r s'', Later s s' → Inv proc events s' → Answers s' w (some r) s'' →
      ∀ s₁, Later s'' s₁ → Inv proc events s₁ → Q r s₁) :
    Sound proc events Q s (request w) := by
  refine safe_request fun s' hle hI => ⟨fun r s'' hW => ?_, fun s'' hW => ?_⟩
  · obtain ⟨hI', hle'⟩ := hI.call (hlaw s' hle hI) hW
    exact ⟨hI', hle', hQ s' r s'' hle hI hW⟩
  · exact hI.call (hlaw s' hle hI) hW

theorem sound_attempt {Q : Option w.Answer → Mirrored → Prop}
    (hlaw : ∀ s', Later s s' → Inv proc events s' → Lawful proc events s'.log w)
    (hQ : ∀ s' r s'', Later s s' → Answers s' w r s'' →
      ∀ s₁, Later s'' s₁ → Inv proc events s₁ → Q r s₁) :
    Sound proc events Q s (attempt w) := by
  refine safe_attempt fun s' hle hI r s'' hW => ?_
  obtain ⟨hI', hle'⟩ := hI.call (hlaw s' hle hI) hW
  exact ⟨hI', hle', hQ s' r s'' hle hW⟩

theorem found_of_answers {a : w.Answer} (hI : Inv proc events s) (hW : Answers s w (some a) s')
    (hle : Later s' s'') (he : e ∈ w.rows a) (hrow : e ∈ s.rows) : Found s''.log w e := by
  have hfound : Found s'.log w e := ⟨s.log, a, [], log_of_answers hW, he, hI.stored e hrow⟩
  exact hfound.mono hle

/-! ## The handlers of new messages -/

def Read (chatId : ℤ) (replyTo : Option ReplyTo) (rows : List MirrorMessage) (s : Mirrored) : Prop :=
  ∀ e ∈ rows, SentFor s.log e ∧ e.originalChannel = chatId ∧
    (∃ r, replyTo = some r ∧ r.replyToMsgId = some e.originalId) ∧
    Found s.log (.getMessages e.originalId chatId) e

theorem sound_repliedTo {replyTo : Option ReplyTo} :
    Sound proc events (Read chatId replyTo) s (repliedTo chatId replyTo) := by
  cases replyTo with
  | none => exact fun _ _ _ e he => (List.not_mem_nil he).elim
  | some r =>
    refine sound_request (fun _ _ _ => trivial) ?_
    intro s' rows s'' _ hI hW s₁ hle' _ e he
    have hfound : e ∈ s'.rows → Found s₁.log (.getMessages r.replyToMsgId chatId) e :=
      found_of_answers hI hW hle' he
    cases hW with
    | answer htrue =>
      cases hid : r.replyToMsgId with
      | none =>
        rw [hid] at htrue
        have hrows : rows = ([] : List MirrorMessage) := htrue
        subst hrows
        exact (List.not_mem_nil he).elim
      | some id =>
        rw [hid] at htrue hfound
        have hrows : rows = postgres.getMessages s'.rows id chatId := htrue
        subst hrows
        obtain ⟨hmem, hcond⟩ := List.mem_filter.mp he
        obtain ⟨hchannel, horiginal⟩ := of_decide_eq_true hcond
        refine ⟨(hI.sent e hmem).mono ?_, hchannel, ⟨r, rfl, ?_⟩, ?_⟩
        · exact (List.prefix_append _ _).trans hle'
        · rw [hid, horiginal]
        · rw [horiginal]
          exact hfound hmem

theorem Read.replies {replyTo : Option ReplyTo} {rows : List MirrorMessage}
    (h : Read chatId replyTo rows s) :
    Replies s.log chatId entity replyTo (repliesOf rows entity) := by
  intro id hid
  obtain ⟨e, hfind, rfl⟩ := Option.map_eq_some_iff.mp hid
  obtain ⟨hsent, rfl, ⟨r, hr, horiginal⟩, hfound⟩ :=
    h e (List.mem_reverse.mp (List.mem_of_find?_eq_some hfind))
  obtain rfl : e.mirrorChannel = entity := by simpa using List.find?_some hfind
  exact ⟨r, e.originalId, hr, horiginal, hsent, hfound⟩

theorem sound_recordMessage {originalId : ℤ} {what : Sending} {answer : Option Sent}
    (h : (⟨.send ⟨chatId, [originalId]⟩ entity what, answer⟩ : Deed) ∈ s.log) :
    Sound proc events Done s (recordMessage chatId originalId entity answer) := by
  match answer, h with
  | some (.one id), h =>
    refine sound_request (fun s' hle _ => ?_) (fun _ _ _ _ _ _ _ _ _ => trivial)
    exact ⟨_, hle.subset h, by simp [MirrorCall.mappings, mirrored]⟩
  | some (.list []), _ => exact sound_ret
  | some (.list (_ :: _)), _ => trivial
  | some .nothing, _ => exact sound_ret
  | none, _ => exact sound_ret

theorem sound_recordAlbum {origin : Origin} {what : Sending} {answer : Option Sent}
    (h : (⟨.send origin entity what, answer⟩ : Deed) ∈ s.log) :
    Sound proc events Done s (recordAlbum origin entity answer) := by
  match answer, h with
  | some (.list ids), h =>
    unfold recordAlbum
    dsimp only
    split
    · rename_i l hl
      refine sound_request (fun s' hle _ e he => ?_) (fun _ _ _ _ _ _ _ _ _ => trivial)
      refine ⟨_, hle.subset h, ?_⟩
      change e ∈ (mirrored origin entity ids).getD []
      rwa [hl]
    · trivial
  | some (.one _), _ => exact sound_ret
  | some .nothing, _ => exact sound_ret
  | none, _ => exact sound_ret

@[simp] theorem replyTo_withoutQuiz (m : EventMessage) : (withoutQuiz m).replyTo = m.replyTo := by
  unfold withoutQuiz
  split <;> rfl

@[simp] theorem hears_withoutQuiz (config : DirectionConfig) (m : EventMessage) :
    config.hears (withoutQuiz m) = config.hears m := by
  simp [DirectionConfig.hears, incomingTopicId]

@[simp] theorem permits_withoutQuiz (config : DirectionConfig) (m : EventMessage) :
    config.permits (withoutQuiz m) = config.permits m := by
  have h : (withoutQuiz m).noforwards = m.noforwards := by
    unfold withoutQuiz
    split <;> rfl
  simp [DirectionConfig.permits, h]

theorem sound_newMessage {m : EventMessage} (hevent : events (.newMessage chatId m))
    (hgroup : m.groupedId = none) :
    Sound proc events Done s (newMessage proc chatId m) := by
  unfold newMessage
  split
  · exact sound_ret
  · refine Safe.andThen (sound_repliedTo.imp fun rows s' _ _ hrows => safe_each ?_)
    rintro ⟨entity, config⟩ hd s₁ hle₁ _
    unfold newMessageTo
    split
    · exact sound_ret
    · rename_i hcond
      split
      · trivial
      · rename_i action filtered hfilter
        split
        · exact sound_ret
        · rename_i hdiscard
          simp only [hears_withoutQuiz, permits_withoutQuiz, Bool.or_eq_true, Bool.not_eq_true',
            not_or, Bool.not_eq_false] at hcond
          refine Safe.andThen (sound_attempt (fun s₂ hle₂ _ => .inl ?_) ?_)
          · exact ⟨m, config, action, filtered, repliesOf rows entity, hevent, hgroup, hd, hcond.1,
              hcond.2, hfilter, by simpa using hdiscard, rfl,
              hrows.replies.mono (hle₁.trans hle₂), rfl⟩
          · intro s₂ r s₃ _ hW s₄ hle₄ _
            exact sound_recordMessage (mem_log hW hle₄)

theorem sound_newAlbum {l : List EventMessage} (hevent : events (.album chatId l)) :
    Sound proc events Done s (newAlbum proc chatId l) := by
  cases l with
  | nil => trivial
  | cons first rest =>
    rw [newAlbum]
    split
    · exact sound_ret
    · refine Safe.andThen (sound_repliedTo.imp fun rows s' _ _ hrows => safe_each ?_)
      rintro ⟨entity, config⟩ hd s₁ hle₁ _
      unfold newAlbumTo
      split
      · exact sound_ret
      · rename_i hcond
        split
        · trivial
        · rename_i action filtered hfilter
          split
          · exact sound_ret
          · rename_i hdiscard
            simp only [Bool.or_eq_true, Bool.not_eq_true', not_or, Bool.not_eq_false] at hcond
            refine Safe.andThen (sound_attempt (fun s₂ hle₂ _ => .inr ?_) ?_)
            · exact ⟨first, rest, config, action, filtered, repliesOf rows entity, hevent, hd,
                hcond.1, hcond.2, hfilter, by simpa using hdiscard, rfl,
                hrows.replies.mono (hle₁.trans hle₂), rfl⟩
            · intro s₂ r s₃ _ hW s₄ hle₄ _
              exact sound_recordAlbum (mem_log hW hle₄)

/-! ## The handlers of edits and deletions -/

theorem sound_getMessages {id : ℤ} :
    Sound proc events (Read chatId (some ⟨some id, none, false⟩)) s
      (request (MirrorCall.getMessages (some id) chatId)) :=
  @sound_repliedTo _ _ _ _ (some ⟨some id, none, false⟩)

theorem sound_editMessage {m : EventMessage} (hevent : events (.edited chatId m))
    (hhide : m.editHide = false) : Sound proc events Done s (editMessage proc chatId m) := by
  refine Safe.andThen (sound_getMessages.imp fun rows s' _ _ hrows => safe_each ?_)
  intro row hrow s₁ hle₁ _
  obtain ⟨hsent, hchannel, ⟨r, hr, horiginal⟩, hfound⟩ := hrows row hrow
  obtain rfl := Option.some.inj hr
  obtain hid : m.id = row.originalId := Option.some.inj horiginal
  refine safe_each fun config hconfig s₂ hle₂ _ => ?_
  obtain ⟨configs, hconfigs, hmem⟩ : ∃ configs,
      proc.chatMapping.get? chatId row.mirrorChannel = some configs ∧ config ∈ configs := by
    cases hget : proc.chatMapping.get? chatId row.mirrorChannel with
    | none =>
      rw [hget] at hconfig
      exact (List.not_mem_nil hconfig).elim
    | some configs =>
      rw [hget] at hconfig
      exact ⟨configs, rfl, hconfig⟩
  unfold editOne
  split
  · exact sound_ret
  · rename_i hcond
    split
    · trivial
    · rename_i action filtered hfilter
      split
      · exact sound_ret
      · rename_i hdiscard
        have hcond' : config.disableEdit = false ∧ config.mode = .copy := by
          cases hmode : config.mode <;> simp_all
        refine Safe.andThen (sound_attempt (fun s₃ hle₃ _ => ?_) fun _ _ _ _ _ _ _ _ => sound_ret)
        have hrow : (⟨m.id, chatId, row.mirrorId, row.mirrorChannel⟩ : MirrorMessage) = row := by
          rw [hid, ← hchannel]
        have hle := (hle₁.trans hle₂).trans hle₃
        refine ⟨m, configs, config, action, filtered, hevent, hhide, ?_, ?_, hconfigs, hmem, hcond'.1,
          hcond'.2, hfilter, by simpa using hdiscard, rfl, rfl, ?_⟩
        · rw [hrow]
          exact hsent.mono hle
        · rw [hrow, hid]
          exact hfound.mono hle
        · split
          · exact .inr rfl
          · exact .inl rfl

theorem mem_collect {channel id : ℤ} {l : List (ℤ × List ℤ)} {x : ℤ × List ℤ}
    (h : x ∈ collect channel id l) {i : ℤ} (hi : i ∈ x.2) :
    (x.1 = channel ∧ i = id) ∨ ∃ y ∈ l, y.1 = x.1 ∧ i ∈ y.2 := by
  induction l with
  | nil =>
    obtain rfl := List.mem_singleton.mp h
    exact .inl ⟨rfl, List.mem_singleton.mp hi⟩
  | cons y l ih =>
    unfold collect at h
    split at h
    · rename_i hy
      rcases List.mem_cons.mp h with rfl | h
      · rcases List.mem_append.mp hi with hi | hi
        · exact .inr ⟨y, List.mem_cons_self, rfl, hi⟩
        · exact .inl ⟨hy, List.mem_singleton.mp hi⟩
      · exact .inr ⟨x, List.mem_cons_of_mem _ h, rfl, hi⟩
    · rcases List.mem_cons.mp h with rfl | h
      · exact .inr ⟨x, List.mem_cons_self, rfl, hi⟩
      · exact (ih h).imp_right fun ⟨z, hz, hzx⟩ => ⟨z, List.mem_cons_of_mem _ hz, hzx⟩

theorem mem_deletingPerChannel {rows : List MirrorMessage} {x : ℤ × List ℤ} {i : ℤ}
    (h : x ∈ deletingPerChannel proc chatId rows) (hi : i ∈ x.2) :
    ∃ row ∈ rows, row.mirrorChannel = x.1 ∧ row.mirrorId = i ∧
      ∃ configs config, proc.chatMapping.get? chatId x.1 = some configs ∧ config ∈ configs ∧
        config.disableDelete = false := by
  have hfold : ∀ (pairs : List (ℤ × ℤ)) (l : List (ℤ × List ℤ)),
      x ∈ pairs.foldl (fun l x => collect x.1 x.2 l) l →
      (x.1, i) ∈ pairs ∨ ∃ y ∈ l, y.1 = x.1 ∧ i ∈ y.2 := by
    intro pairs
    induction pairs with
    | nil => exact fun l hx => .inr ⟨x, hx, rfl, hi⟩
    | cons p pairs ih =>
      intro l hx
      rcases ih _ hx with hmem | ⟨y, hy, hyx, hiy⟩
      · exact .inl (List.mem_cons_of_mem _ hmem)
      · rcases mem_collect hy hiy with ⟨hchannel, rfl⟩ | ⟨z, hz, hzy, hiz⟩
        · left
          rw [← hyx, hchannel]
          exact List.mem_cons_self
        · exact .inr ⟨z, hz, hzy.trans hyx, hiz⟩
  rcases hfold _ [] h with hmem | ⟨y, hy, -⟩
  · obtain ⟨row, hrow, hpair⟩ := List.mem_flatMap.mp hmem
    obtain ⟨config, hconfig, hsome⟩ := List.mem_filterMap.mp hpair
    split at hsome
    · cases hsome
    · rename_i hdelete
      obtain ⟨hchannel, hid⟩ := Prod.mk.inj (Option.some.inj hsome)
      refine ⟨row, hrow, hchannel, hid, ?_⟩
      cases hget : proc.chatMapping.get? chatId row.mirrorChannel with
      | none =>
        rw [hget] at hconfig
        exact (List.not_mem_nil hconfig).elim
      | some configs =>
        rw [hget] at hconfig
        exact ⟨configs, config, by rw [← hchannel]; exact hget, hconfig, by simpa using hdelete⟩
  · exact (List.not_mem_nil hy).elim

theorem collect_ne_nil {channel id : ℤ} {l : List (ℤ × List ℤ)} : collect channel id l ≠ [] := by
  cases l with
  | nil => simp [collect]
  | cons x l =>
    unfold collect
    split <;> exact List.cons_ne_nil _ _

theorem disableDelete_of_nil {rows : List MirrorMessage} (h : deletingPerChannel proc chatId rows = [])
    {row : MirrorMessage} (hrow : row ∈ rows) {configs : List DirectionConfig} {config : DirectionConfig}
    (hconfigs : proc.chatMapping.get? chatId row.mirrorChannel = some configs)
    (hconfig : config ∈ configs) : config.disableDelete = true := by
  have hfold : ∀ (pairs : List (ℤ × ℤ)) (l : List (ℤ × List ℤ)), l ≠ [] →
      pairs.foldl (fun l x => collect x.1 x.2 l) l ≠ [] := by
    intro pairs
    induction pairs with
    | nil => exact fun _ hl => hl
    | cons p pairs ih => exact fun _ _ => ih _ collect_ne_nil
  unfold deletingPerChannel at h
  by_contra hallows
  have hpair : (row.mirrorChannel, row.mirrorId) ∈ rows.flatMap fun row =>
      ((proc.chatMapping.get? chatId row.mirrorChannel).getD []).filterMap fun config =>
        if config.disableDelete then none else some (row.mirrorChannel, row.mirrorId) := by
    refine List.mem_flatMap.mpr ⟨row, hrow, List.mem_filterMap.mpr ⟨config, ?_, by simp [hallows]⟩⟩
    rw [hconfigs]
    exact hconfig
  generalize List.flatMap _ rows = pairs at h hpair
  cases pairs with
  | nil => cases hpair
  | cons p pairs => exact hfold pairs _ collect_ne_nil h

theorem sound_deleteMessage {ids : List ℤ} (hevent : events (.deleted chatId ids)) :
    Sound proc events Done s (deleteMessage proc chatId ids) := by
  have hread : Sound proc events (fun (rows : List MirrorMessage) s' =>
      (⟨.getMessagesBatch ids chatId, some rows⟩ : Deed) ∈ s'.log ∧ ∀ e ∈ rows,
        SentFor s'.log e ∧ e.originalChannel = chatId ∧ e.originalId ∈ ids ∧
          Found s'.log (.getMessagesBatch ids chatId) e) s
      (request (MirrorCall.getMessagesBatch ids chatId)) := by
    refine sound_request (fun _ _ _ => trivial) ?_
    intro s' rows s'' _ hI hW s₁ hle' _
    refine ⟨mem_log hW hle', fun e he => ?_⟩
    have hfound : e ∈ s'.rows → Found s₁.log (.getMessagesBatch ids chatId) e :=
      found_of_answers hI hW hle' he
    cases hW with
    | answer htrue =>
      have hrows : rows = postgres.getMessagesBatch s'.rows ids chatId := htrue
      subst hrows
      obtain ⟨hmem, hcond⟩ := List.mem_filter.mp he
      obtain ⟨hchannel, horiginal⟩ := of_decide_eq_true hcond
      exact ⟨(hI.sent e hmem).mono ((List.prefix_append _ _).trans hle'), hchannel, horiginal,
        hfound hmem⟩
  refine Safe.andThen (hread.imp fun rows s' _ _ ⟨hlookup, hrows⟩ => ?_)
  split
  · exact sound_ret
  · rename_i hne
    have hloop : Sound proc events (fun _ s₁ => ∀ x ∈ deletingPerChannel proc chatId rows,
        ∃ answer, (⟨.deleteFrom ⟨chatId, ids⟩ x.1 x.2, answer⟩ : Deed) ∈ s₁.log) s'
        (each (fun x => (attempt (MirrorCall.deleteFrom ⟨chatId, ids⟩ x.1 x.2)).andThen
          fun _ => ret ()) (deletingPerChannel proc chatId rows)) := by
      refine safe_each_mem (fun x _ _ hle ⟨answer, hmem⟩ => ⟨answer, hle.subset hmem⟩) ?_
      intro x hx s₁ hle₁ _
      refine Safe.andThen (sound_attempt (fun s₂ hle₂ _ => ?_) ?_)
      · refine ⟨hevent, fun id hid => ?_⟩
        obtain ⟨row, hrow, hchannel, rfl, hconfig⟩ := mem_deletingPerChannel hx hid
        obtain ⟨hsent, rfl, horiginal, hfound⟩ := hrows row hrow
        refine ⟨⟨row.originalId, horiginal, ?_⟩, hconfig⟩
        rw [← hchannel]
        exact ⟨hsent.mono (hle₁.trans hle₂), hfound.mono (hle₁.trans hle₂)⟩
      · exact fun s₂ r s₃ _ hW s₄ hle₄ _ s₅ hle₅ _ => ⟨r, mem_log hW (hle₄.trans hle₅)⟩
    refine Safe.andThen (hloop.imp fun _ s₁ hle₁ _ hdone => ?_)
    refine sound_request (fun s₂ hle₂ _ => ⟨ids, hevent, ?_⟩) fun _ _ _ _ _ _ _ _ _ => trivial
    cases hlast : (deletingPerChannel proc chatId rows).getLast? with
    | none =>
      have hnil := List.getLast?_eq_none_iff.mp hlast
      have hle := hle₁.trans hle₂
      refine .inr ⟨rfl, rows, by simpa using hne, hle.subset hlookup, fun e he => ?_⟩
      obtain ⟨hsent, hchannel, horiginal, -⟩ := hrows e he
      exact ⟨hsent.mono hle, hchannel, horiginal, fun _ _ hconfigs hconfig =>
        disableDelete_of_nil hnil he hconfigs hconfig⟩
    | some x =>
      obtain ⟨answer, hmem⟩ := hdone x (List.mem_of_getLast? hlast)
      exact .inl ⟨x.1, answer, hle₂.subset hmem⟩

/-! ## All handlers together -/

theorem sound_handleEvent {event : MirrorEvent} (h : events event) :
    Sound proc events Done s (handleEvent proc event) := by
  cases event with
  | newMessage chatId m =>
    rw [handleEvent]
    split
    · exact sound_ret
    · rename_i hgroup
      exact sound_newMessage h (by simpa using hgroup)
  | album chatId l => exact sound_newAlbum h
  | edited chatId m =>
    rw [handleEvent]
    split
    · exact sound_ret
    · rename_i hhide
      exact sound_editMessage h (by simpa using hhide)
  | deleted chatId ids => exact sound_deleteMessage h

theorem inv_of_reaches {x : Mirrored × List Handler}
    (h : Reaches Answers (fun t => ∃ event, events event ∧ t = handleEvent proc event) {} x) :
    Inv proc events x.1 := by
  have hinit : Inv proc events {} := ⟨Trace.throughout_nil, fun e he => (List.not_mem_nil he).elim,
    fun e he => (List.not_mem_nil he).elim⟩
  have hbegin : ∀ t s', (∃ event, events event ∧ t = handleEvent proc event) →
      Inv proc events s' → Sound proc events Done s' t := by
    rintro t s' ⟨event, hevent, rfl⟩ _
    exact sound_handleEvent hevent
  exact (h.invariant hinit hbegin).1

/-- Whatever events there are, however their handlers take turns and whatever their calls answer,
each call is lawful after those before it, and the table names only messages that have been sent. -/
theorem handlers_lawful {x : Mirrored × List Handler}
    (h : Reaches Answers (fun t => ∃ event, events event ∧ t = handleEvent proc event) {} x) :
    Trace.Throughout (fun pre d => Lawful proc events pre d.call) x.1.log ∧
    ∀ e ∈ x.1.rows, SentFor x.1.log e :=
  ⟨(inv_of_reaches h).lawful, (inv_of_reaches h).sent⟩

def oneDirection : EventProcessor where
  chatMapping chatId :=
    if chatId = -100 then
      { items := [(-200, [{ disableDelete := true, disableEdit := false, filters := .empty }])]
        nodup := by simp }
    else ⟨[], List.nodup_nil⟩
  unparse text _ := text

def sendingDeed : Deed :=
  ⟨.send ⟨-100, [5]⟩ (-200) (.message { id := 5 } none none), some (Sent.one 7)⟩

def storingDeed : Deed := ⟨.insert ⟨5, -100, 7, -200⟩, some ()⟩

def sentAndDeleted : MirrorEvent → Prop
  | .newMessage chatId m => chatId = -100 ∧ m = { id := 5 }
  | .deleted chatId ids => chatId = -100 ∧ ids = [5]
  | _ => False

theorem reaches_stored : Reaches Answers
    (fun t => ∃ event, sentAndDeleted event ∧ t = handleEvent oneDirection event) {}
    ({ rows := [⟨5, -100, 7, -200⟩], log := [sendingDeed, storingDeed] }, [ret ()]) := by
  have hbegun : Reaches Answers
      (fun t => ∃ event, sentAndDeleted event ∧ t = handleEvent oneDirection event) {}
      ({}, [call sendingDeed.call
        (fun r => (recordMessage (-100) 5 (-200) (some r)).andThen fun _ => ret ()) (ret ())]) :=
    Reaches.begin .refl ⟨.newMessage (-100) { id := 5 }, ⟨rfl, rfl⟩, rfl⟩
  have hsent : Answers {} sendingDeed.call (some (Sent.one 7)) ⟨[], [sendingDeed]⟩ := .answer trivial
  have hstored : Answers ⟨[], [sendingDeed]⟩ storingDeed.call (some ())
      ⟨[⟨5, -100, 7, -200⟩], [sendingDeed, storingDeed]⟩ := .answer trivial
  have hrecords : Reaches Answers
      (fun t => ∃ event, sentAndDeleted event ∧ t = handleEvent oneDirection event) {}
      (⟨[], [sendingDeed]⟩, [call storingDeed.call ret raise]) := hbegun.answer hsent
  exact hrecords.answer hstored

theorem handlers_lawful_stored : SentFor [sendingDeed, storingDeed] ⟨5, -100, 7, -200⟩ :=
  (handlers_lawful reaches_stored).2 _ List.mem_cons_self

/-! ## Which mappings are lost -/

/-- A stored mapping is in the table, unless its original is among those dropped since. -/
def Kept (s : Mirrored) : Prop :=
  ∀ pre d post, s.log = pre ++ d :: post → ∀ e ∈ d.call.stored d.answer,
    e ∈ s.rows ∨ ∃ ids answer, e.originalId ∈ ids ∧
      (⟨.deleteMessagesBatch ids e.originalChannel, answer⟩ : Deed) ∈ post

theorem stored_of_answer {a : w.Answer} (h : e ∈ w.stored (some a)) {rows : PostgresDatabase} :
    e ∈ w.write rows := by
  cases w with
  | insert e' => exact List.mem_append_right _ h
  | insertBatch l => exact List.mem_append_right _ h
  | _ => exact (List.not_mem_nil h).elim

theorem Kept.answers (hK : Kept s) (h : Answers s w r s') : Kept s' := by
  intro pre d post hlog e he
  rw [log_of_answers h] at hlog
  rcases Trace.split_cases hlog with ⟨-, hd, -⟩ | ⟨mid, hold, rfl⟩ | hd
  · subst hd
    cases h with
    | raise =>
      change e ∈ w.stored none at he
      cases w <;> exact (List.not_mem_nil he).elim
    | answer _ => exact .inl (stored_of_answer he)
  · rcases hK pre d mid hold e he with hrow | ⟨ids, answer, hid, hmem⟩
    · by_cases hlost : ∃ ids, e.originalId ∈ ids ∧ w = .deleteMessagesBatch ids e.originalChannel
      · obtain ⟨ids, hid, rfl⟩ := hlost
        exact .inr ⟨ids, r, hid, List.mem_append_right _ (List.mem_singleton_self _)⟩
      · left
        cases h with
        | raise => exact hrow
        | answer _ =>
          cases w with
          | insert e' => exact List.mem_append_left _ hrow
          | insertBatch l => exact List.mem_append_left _ hrow
          | deleteMessagesBatch ids channel =>
            refine List.mem_filter.mpr ⟨hrow, decide_eq_true ?_⟩
            rintro ⟨rfl, hid⟩
            exact hlost ⟨ids, hid, rfl⟩
          | _ => exact hrow
    · exact .inr ⟨ids, answer, hid, List.mem_append_left _ hmem⟩
  · cases hd

/-- A stored mapping is lost only with a deletion in its chat, and then only if its original has the
id of a message that has been deleted from a target, or if it is one of the deleted messages and no
configuration has let the deletion through. -/
theorem mapping_kept {x : Mirrored × List Handler}
    (h : Reaches Answers (fun t => ∃ event, events event ∧ t = handleEvent proc event) {} x)
    {d : Deed} (hd : d ∈ x.1.log) (he : e ∈ d.call.stored d.answer) :
    e ∈ x.1.rows ∨ ∃ originals, events (.deleted e.originalChannel originals) ∧
      ((∃ entity ids answer, e.originalId ∈ ids ∧
          (⟨.deleteFrom ⟨e.originalChannel, originals⟩ entity ids, answer⟩ : Deed) ∈ x.1.log) ∨
        (e.originalId ∈ originals ∧ Withheld proc x.1.log e.originalChannel originals)) := by
  have hkept : Kept x.1 := by
    refine h.keeps (J := Kept) (fun s w r s' hW hK => hK.answers hW) ?_
    intro pre d post hlog
    simp at hlog
  obtain ⟨pre, post, hlog⟩ := List.append_of_mem hd
  refine (hkept pre d post hlog e he).imp_right ?_
  rintro ⟨ids, answer, hid, hmem⟩
  obtain ⟨pre', post', hpost⟩ := List.append_of_mem hmem
  have hsplit : x.1.log = (pre ++ d :: pre') ++ ⟨.deleteMessagesBatch ids e.originalChannel, answer⟩ ::
      post' := by
    rw [hlog, hpost]
    simp
  have hprefix : pre ++ d :: pre' <+: x.1.log := by
    rw [hsplit]
    exact List.prefix_append ..
  obtain ⟨originals, hevent, hwhich⟩ := (inv_of_reaches h).lawful _ _ _ hsplit
  refine ⟨originals, hevent, ?_⟩
  rcases hwhich with ⟨entity, answer', hdeed⟩ | ⟨rfl, hwithheld⟩
  · exact .inl ⟨entity, ids, answer', hid, hprefix.subset hdeed⟩
  · exact .inr ⟨hid, hwithheld.mono hprefix⟩

def lookupDeed : Deed :=
  ⟨.getMessagesBatch [5] (-100), some ([⟨5, -100, 7, -200⟩] : List MirrorMessage)⟩

def droppingDeed : Deed := ⟨.deleteMessagesBatch [5] (-100), some ()⟩

theorem reaches_dropped : Reaches Answers
    (fun t => ∃ event, sentAndDeleted event ∧ t = handleEvent oneDirection event) {}
    ({ rows := [], log := [sendingDeed, storingDeed, lookupDeed, droppingDeed] }, [ret (), ret ()]) := by
  have hbegun : Reaches Answers
      (fun t => ∃ event, sentAndDeleted event ∧ t = handleEvent oneDirection event) {}
      (⟨[⟨5, -100, 7, -200⟩], [sendingDeed, storingDeed]⟩,
        [handleEvent oneDirection (.deleted (-100) [5]), ret ()]) :=
    reaches_stored.begin ⟨.deleted (-100) [5], ⟨rfl, rfl⟩, rfl⟩
  have hlookup : Answers ⟨[⟨5, -100, 7, -200⟩], [sendingDeed, storingDeed]⟩ lookupDeed.call
      lookupDeed.answer ⟨[⟨5, -100, 7, -200⟩], [sendingDeed, storingDeed, lookupDeed]⟩ :=
    Answers.answer (w := lookupDeed.call) (r := ([⟨5, -100, 7, -200⟩] : List MirrorMessage)) rfl
  have hdropped : Answers ⟨[⟨5, -100, 7, -200⟩], [sendingDeed, storingDeed, lookupDeed]⟩
      droppingDeed.call (some ())
        ⟨[], [sendingDeed, storingDeed, lookupDeed, droppingDeed]⟩ := .answer trivial
  have hread : Reaches Answers
      (fun t => ∃ event, sentAndDeleted event ∧ t = handleEvent oneDirection event) {}
      (⟨[⟨5, -100, 7, -200⟩], [sendingDeed, storingDeed, lookupDeed]⟩,
        [call droppingDeed.call ret raise, ret ()]) := hbegun.answer hlookup
  exact hread.answer hdropped

theorem mapping_kept_dropped : Withheld oneDirection
    [sendingDeed, storingDeed, lookupDeed, droppingDeed] (-100) [5] := by
  have hlost := (mapping_kept reaches_dropped (d := storingDeed) (e := ⟨5, -100, 7, -200⟩)
    (List.mem_cons_of_mem _ List.mem_cons_self) List.mem_cons_self).resolve_left List.not_mem_nil
  obtain ⟨originals, ⟨-, rfl⟩, hwhich⟩ := hlost
  refine (hwhich.resolve_left ?_).2
  rintro ⟨entity, ids, answer, -, hdeed⟩
  simp [sendingDeed, storingDeed, lookupDeed, droppingDeed] at hdeed

end TgPlatform.Mirror
