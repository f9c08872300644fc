import TgPlatform.Ai.Ending

/-! # What a trigger writes until it commits

A trigger under way has opened a conversation and created a run that no other
transaction sees, and holds the keys of both. The end of another trigger takes
neither from it, and leaves what the keys of the tables promise.
-/

namespace TgPlatform

open Overlap

/-- What of a conversation a trigger leaves alone. -/
def AiConversation.place (c : AiConversation) : ConversationScope × String × Bool :=
  (c.lookupScope, c.sessionId, c.deleted)

/-- What of a run a trigger leaves alone. -/
def AiRun.place (r : AiRun) : ConversationId × String := (r.conversationId, r.sessionId)

/-- What the rest of a trigger may do to the conversations and the runs once its run is there. -/
structure HandsOver (pk : RunId) (s s' : ControlPlane) : Prop where
  conversations : Slots.SameBy AiConversation.place s.conversations s'.conversations
  runs : Slots.SameBy AiRun.place s.runs s'.runs
  others : ∀ i, i ≠ pk → s'.runs.row? i = s.runs.row? i

instance {pk : RunId} : Std.Refl (HandsOver pk) where
  refl _ := ⟨.refl, .refl, fun _ _ => rfl⟩

instance {pk : RunId} : IsTrans ControlPlane (HandsOver pk) where
  trans _ _ _ h h' := ⟨h.conversations.trans h'.conversations, h.runs.trans h'.runs,
    fun i hi => (h'.others i hi).trans (h.others i hi)⟩

theorem handsOver_ends {pk : RunId} : Ends pk (HandsOver pk) where
  run s f hf := by
    refine ⟨.refl, .modify fun r => ?_, fun i hi => ?_⟩
    · exact Prod.ext (hf r).conversationId (hf r).sessionId
    · change (s.runs.modify pk f).row? i = _
      rw [Slots.row?_modify, if_neg (Ne.symm hi)]
  conversation s cid status := ⟨.modify fun _ => rfl, .refl, fun _ _ => rfl⟩
  candidate s _ _ _ := ⟨.refl, .refl, fun _ _ => rfl⟩

/-! ## Conversations and runs -/

namespace ControlPlane

def OneConversation (s : ControlPlane) : Prop :=
  ∀ i j c d, s.conversations.row? i = some c → s.conversations.row? j = some d →
    c.deleted = false → d.deleted = false → c.lookupScope = d.lookupScope → i = j

def OneRun (s : ControlPlane) : Prop :=
  ∀ i j r r' c d, s.runs.row? i = some r → s.runs.row? j = some r' →
    r.status.active = true → r'.status.active = true →
    s.conversation r.conversationId = some c → s.conversation r'.conversationId = some d →
    c.lookupScope = d.lookupScope → i = j

/-- What the keys of the tables promise; the ids given so far are below `n`. -/
structure Keyed (s : ControlPlane) (n : ℕ) : Prop where
  conversation_lt : ∀ i c, s.conversations.row? i = some c → i < n
  run_lt : ∀ i r, s.runs.row? i = some r → i < n
  linked : ∀ i r, s.runs.row? i = some r →
    ∃ c, s.conversations.row? r.conversationId = some c ∧ c.sessionId = r.sessionId
  active : ∀ i j r r', s.runs.row? i = some r → s.runs.row? j = some r' →
    r.status.active = true → r'.status.active = true → r.sessionId = r'.sessionId → i = j

variable {s : ControlPlane} {n : ℕ}

theorem Keyed.oneRun (h : s.Keyed n) (hone : s.OneConversation) : s.OneRun := by
  intro i j r r' c d hr hr' hactive hactive' hc hd hscope
  obtain ⟨hc, hlive⟩ := conversation_eq_some.mp hc
  obtain ⟨hd, hlive'⟩ := conversation_eq_some.mp hd
  have hsame := hone _ _ c d hc hd hlive hlive' hscope
  obtain ⟨c', hc', hsession⟩ := h.linked i r hr
  obtain ⟨d', hd', hsession'⟩ := h.linked j r' hr'
  rw [hsame, hd'] at hc'
  cases hc'
  exact h.active i j r r' hr hr' hactive hactive' (hsession.symm.trans hsession')

end ControlPlane

/-! ## What each trigger may rely on -/

abbrev TriggerSession := Session ControlPlane TriggerLock TriggerPoint

/-- What a transaction has written: the conversation it has opened and the run it has created. -/
structure Wrote (t : TriggerSession) (opened : Option (ConversationId × AiConversation))
    (created : Option (RunId × AiRun)) : Prop where
  conversations : ∀ s, Slots.SameBy AiConversation.place (s.conversations.withRow opened)
    (t.write s).conversations
  runs : ∀ s, Slots.SameBy AiRun.place (s.runs.withRow created) (t.write s).runs
  others : ∀ s i, (∀ run, created ≠ some (i, run)) → (t.write s).runs.row? i = s.runs.row? i

/-- A conversation that no other transaction sees, and whose keys no other claims. -/
structure Opened (s : ControlPlane) (n : ℕ) (t : TriggerSession) (cid : ConversationId)
    (conv : AiConversation) : Prop where
  live : conv.deleted = false
  lt : cid < n
  fresh : s.conversations.row? cid = none
  locked : .conversation cid ∈ t.held
  claimed : conv.lookupScope.keyed = true → .scope conv.lookupScope ∈ t.held
  alone : conv.lookupScope.keyed = true →
    ∀ i c, s.conversations.row? i = some c → c.lookupScope ≠ conv.lookupScope

structure Created (s : ControlPlane) (n : ℕ) (t : TriggerSession) (pk : RunId) (run : AiRun) :
    Prop where
  lt : pk < n
  fresh : s.runs.row? pk = none
  locked : .run pk ∈ t.held
  claimed : .activeSession run.sessionId ∈ t.held
  alone : ∀ i r, s.runs.row? i = some r → r.status.active = true → r.sessionId ≠ run.sessionId

structure Writes (s : ControlPlane) (n : ℕ) (t : TriggerSession)
    (opened : Option (ConversationId × AiConversation)) (created : Option (RunId × AiRun)) : Prop where
  wrote : Wrote t opened created
  opened : ∀ cid conv, opened = some (cid, conv) → Opened s n t cid conv
  created : ∀ pk run, created = some (pk, run) → Created s n t pk run

def Chosen.row (chosen : Chosen) : Option (ConversationId × AiConversation) :=
  if chosen.opened then some (chosen.pk, chosen.conv) else none

def Chosen.Stands (s : ControlPlane) (chosen : Chosen) : Prop :=
  chosen.opened = true ∨
    ∃ c, s.conversations.row? chosen.pk = some c ∧ c.sessionId = chosen.conv.sessionId

def TriggerRelies (s : ControlPlane) (n : ℕ) (t : TriggerSession) : Prop :=
  match t.at_ with
  | .reading _ | .dating _ _ | .finding _ _ _ | .opening _ _ _ => Writes s n t none none
  | .checking _ _ chosen | .creating _ _ chosen => Writes s n t chosen.row none ∧ chosen.Stands s
  | .handing _ _ chosen pk run => Writes s n t chosen.row (some (pk, run)) ∧ chosen.Stands s ∧
    run.place = (chosen.pk, chosen.conv.sessionId)
  | .ending _ chosen pk => ∃ run, Writes s n t chosen.row (some (pk, run)) ∧ chosen.Stands s ∧
    run.place = (chosen.pk, chosen.conv.sessionId)

/-! ### What each statement keeps -/

section Statements

variable {s : ControlPlane} {n : ℕ} {t u : TriggerSession} {req : TriggerRequest}
  {opened : Option (ConversationId × AiConversation)} {created : Option (RunId × AiRun)}

theorem Opened.later {cid : ConversationId} {conv : AiConversation} (h : Opened s n t cid conv)
    (hheld : t.held ⊆ u.held) : Opened s (n + 1) u cid conv where
  live := h.live
  lt := Nat.lt_succ_of_lt h.lt
  fresh := h.fresh
  locked := hheld h.locked
  claimed hkeyed := hheld (h.claimed hkeyed)
  alone := h.alone

theorem Created.later {pk : RunId} {run : AiRun} (h : Created s n t pk run)
    (hheld : t.held ⊆ u.held) : Created s (n + 1) u pk run where
  lt := Nat.lt_succ_of_lt h.lt
  fresh := h.fresh
  locked := hheld h.locked
  claimed := hheld h.claimed
  alone := h.alone

theorem Writes.query (h : Writes s n t opened created) (next : TriggerPoint) :
    Writes s (n + 1) ⟨next, id ∘ t.write, [] ++ t.held⟩ opened created where
  wrote := ⟨h.wrote.conversations, h.wrote.runs, h.wrote.others⟩
  opened cid conv ho := (h.opened cid conv ho).later fun _ => id
  created pk run hc := (h.created pk run hc).later fun _ => id

theorem Writes.later (h : Writes s n t opened created) : Writes s (n + 1) t opened created where
  wrote := h.wrote
  opened cid conv ho := (h.opened cid conv ho).later fun _ => id
  created pk run hc := (h.created pk run hc).later fun _ => id

theorem TriggerRelies.later (h : TriggerRelies s n t) : TriggerRelies s (n + 1) t := by
  obtain ⟨point, w, held⟩ := t
  cases point with
  | reading req => exact Writes.later h
  | dating req binding => exact Writes.later h
  | finding req binding epoch => exact Writes.later h
  | opening req binding epoch => exact Writes.later h
  | checking req binding chosen => exact ⟨h.1.later, h.2⟩
  | creating req binding chosen => exact ⟨h.1.later, h.2⟩
  | handing req binding chosen pk run => exact ⟨h.1.later, h.2⟩
  | ending req chosen pk =>
    obtain ⟨run, hwrites, hplace⟩ := h
    exact ⟨run, hwrites.later, hplace⟩

theorem conversations_row_of_wrote (h : Wrote t none created) {i : ℕ} {c : AiConversation}
    (hc : s.conversations.row? i = some c) :
    ∃ c', (t.write s).conversations.row? i = some c' ∧ c'.place = c.place :=
  (h.conversations s).row_back hc

theorem Writes.open_ (h : Writes s n t none none) (hs : s.Keyed n) {conv : AiConversation}
    (hlive : conv.deleted = false) (htaken : (t.write s).conversationTaken conv = false)
    (next : TriggerPoint) :
    Writes s (n + 1) ⟨next, (fun s => { s with conversations := s.conversations.put n conv }) ∘ t.write,
      (.conversation n :: conv.locks) ++ t.held⟩ (some (n, conv)) none where
  wrote := ⟨fun s => (h.wrote.conversations s).put, h.wrote.runs, h.wrote.others⟩
  opened cid conv' ho := by
    cases ho
    refine ⟨hlive, Nat.lt_succ_self n, ?_, by simp, fun hkeyed => ?_, fun hkeyed i c hc hscope => ?_⟩
    · by_contra hrow
      obtain ⟨c, hc⟩ := Option.ne_none_iff_exists'.mp hrow
      exact (Nat.lt_irrefl n) (hs.conversation_lt n c hc)
    · simp [AiConversation.locks, hkeyed]
    · obtain ⟨c', hc', hplace⟩ := conversations_row_of_wrote h.wrote hc
      rw [ControlPlane.conversationTaken, Option.isSome_eq_false_iff,
        Option.isNone_iff_eq_none] at htaken
      have hfalse := Slots.first?_eq_none htaken hc'
      have hsame : c'.lookupScope = conv.lookupScope := (congrArg Prod.fst hplace).trans hscope
      simp [hkeyed, hsame] at hfalse
  created pk run hc := by cases hc

theorem Writes.create (h : Writes s n t opened none) (hs : s.Keyed n) {run : AiRun}
    (htaken : (t.write s).sessionTaken run.sessionId = false) (next : TriggerPoint) :
    Writes s (n + 1) ⟨next, (fun s => { s with runs := s.runs.put n run }) ∘ t.write,
      [.run n, .activeSession run.sessionId] ++ t.held⟩ opened (some (n, run)) where
  wrote := by
    refine ⟨h.wrote.conversations, fun s => (h.wrote.runs s).put, fun s i hi => ?_⟩
    change ((t.write s).runs.put n run).row? i = _
    rw [Slots.row?_put, if_neg]
    · exact h.wrote.others s i fun run => by simp
    · rintro rfl
      exact hi run rfl
  opened cid conv ho := (h.opened cid conv ho).later fun _ => List.mem_append_right _
  created pk run' hc := by
    cases hc
    refine ⟨Nat.lt_succ_self n, ?_, by simp, by simp, fun i r hr hactive hsession => ?_⟩
    · by_contra hrow
      obtain ⟨r, hr⟩ := Option.ne_none_iff_exists'.mp hrow
      exact (Nat.lt_irrefl n) (hs.run_lt n r hr)
    · rw [ControlPlane.sessionTaken, Option.isSome_eq_false_iff, Option.isNone_iff_eq_none] at htaken
      have hr' : (t.write s).runs.row? i = some r :=
        (h.wrote.others s i fun run => by simp).trans hr
      have hfalse := Slots.first?_eq_none htaken hr'
      simp [hsession, hactive] at hfalse

theorem Writes.handOver {pk : RunId} {run : AiRun} (h : Writes s n t opened (some (pk, run)))
    {α : Type} {m : Req α} (hm : Txn.Does (HandsOver pk) m) (next : TriggerPoint) :
    Writes s (n + 1) ⟨next, m.commit ∘ t.write, [] ++ t.held⟩ opened (some (pk, run)) where
  wrote := by
    have hand : ∀ s, HandsOver pk (t.write s) (m.commit (t.write s)) := fun s => hm.commit _
    refine ⟨fun s => (h.wrote.conversations s).trans (hand s).conversations,
      fun s => (h.wrote.runs s).trans (hand s).runs, fun s i hi => ?_⟩
    have hne : i ≠ pk := by
      rintro rfl
      exact hi run rfl
    exact ((hand s).others i hne).trans (h.wrote.others s i hi)
  opened cid conv ho := (h.opened cid conv ho).later fun _ => id
  created pk run hc := (h.created pk run hc).later fun _ => id

theorem TriggerRelies.go {locks : List TriggerLock} {write : ControlPlane → ControlPlane}
    {next : TriggerPoint} (hs : s.Keyed n) (ht : TriggerRelies s n t)
    (h : triggerNext t.at_ (t.write s) n = .go locks write next) :
    TriggerRelies s (n + 1) ⟨next, write ∘ t.write, locks ++ t.held⟩ := by
  obtain ⟨point, w, held⟩ := t
  dsimp only at h
  cases point with
  | reading req =>
    simp only [triggerNext] at h
    split at h
    · cases h
    · cases h
      exact ht.query _
  | dating req binding =>
    cases h
    exact ht.query _
  | finding req binding epoch =>
    simp only [triggerNext] at h
    split at h
    · rename_i cid conv hfound
      cases h
      obtain ⟨hrow, -⟩ := Slots.first?_eq_some hfound
      obtain ⟨c, hc, hplace⟩ := (ht.wrote.conversations s).row hrow
      refine ⟨ht.query _, .inr ⟨c, hc, ?_⟩⟩
      exact congrArg (fun x => x.2.1) hplace
    · cases h
      exact ht.query _
  | opening req binding epoch =>
    simp only [triggerNext] at h
    split at h
    · cases h
    · rename_i htaken
      cases h
      exact ⟨ht.open_ hs rfl (by simpa using htaken) _, .inl rfl⟩
  | checking req binding chosen =>
    simp only [triggerNext] at h
    split at h
    · cases h
    · cases h
      exact ⟨ht.1.query _, ht.2⟩
  | creating req binding chosen =>
    simp only [triggerNext] at h
    split at h
    · cases h
    · rename_i htaken
      cases h
      exact ⟨ht.1.create hs (by simpa using htaken) _, ht.2, rfl⟩
  | handing req binding chosen pk run =>
    obtain ⟨hwrites, hstands, hplace⟩ := ht
    simp only [triggerNext] at h
    split at h
    · cases h
    · cases h
      exact ⟨run, hwrites.handOver handsOver_ends.handOver _, hstands, hplace⟩
  | ending req chosen pk => cases h

/-! ### What the end of a trigger does -/

theorem Writes.conversation_row (h : Writes s n t opened created) {i : ℕ} {c : AiConversation}
    (hc : (t.write s).conversations.row? i = some c) :
    (∃ conv, opened = some (i, conv) ∧ conv.place = c.place) ∨
      ∃ c', s.conversations.row? i = some c' ∧ c'.place = c.place := by
  obtain ⟨c', hc', hplace⟩ := (h.wrote.conversations s).row hc
  rcases Slots.row?_withRow hc' with ho | hrow
  · exact .inl ⟨c', ho, hplace⟩
  · exact .inr ⟨c', hrow, hplace⟩

theorem Writes.conversation_stays (h : Writes s n t opened created) {i : ℕ} {c : AiConversation}
    (hc : s.conversations.row? i = some c) :
    ∃ c', (t.write s).conversations.row? i = some c' ∧ c'.place = c.place := by
  refine (h.wrote.conversations s).row_back (Slots.row?_withRow_of_some hc fun conv ho => ?_)
  rw [(h.opened i conv ho).fresh] at hc
  cases hc

theorem Writes.opened_row (h : Writes s n t opened created) {cid : ConversationId}
    {conv : AiConversation} (ho : opened = some (cid, conv)) :
    ∃ c, (t.write s).conversations.row? cid = some c ∧ c.place = conv.place := by
  subst ho
  refine (h.wrote.conversations s).row_back ?_
  change (s.conversations.put cid conv).row? cid = _
  rw [Slots.row?_put, if_pos rfl]

theorem Writes.run_row (h : Writes s n t opened created) {i : ℕ} {r : AiRun}
    (hr : (t.write s).runs.row? i = some r) :
    (∃ run, created = some (i, run) ∧ run.place = r.place) ∨ s.runs.row? i = some r := by
  by_cases hnew : ∃ run, created = some (i, run)
  · obtain ⟨run, hrun⟩ := hnew
    subst hrun
    obtain ⟨r', hr', hplace⟩ := (h.wrote.runs s).row hr
    rcases Slots.row?_withRow hr' with hcreated | hrow
    · cases hcreated
      exact .inl ⟨run, rfl, hplace⟩
    · rw [(h.created i run rfl).fresh] at hrow
      cases hrow
  · right
    rw [← h.wrote.others s i fun run hrun => hnew ⟨run, hrun⟩]
    exact hr

/-- Another transaction's own conversation is untouched, and its key still its own. -/
theorem Opened.stable {cid : ConversationId} {conv : AiConversation} (hu : Opened s n u cid conv)
    (ht : Writes s n t opened created) (hdisjoint : t.held.Disjoint u.held) :
    Opened (t.write s) n u cid conv where
  live := hu.live
  lt := hu.lt
  fresh := by
    by_contra hrow
    obtain ⟨c, hc⟩ := Option.ne_none_iff_exists'.mp hrow
    rcases ht.conversation_row hc with ⟨conv', ho, _⟩ | ⟨c', hc', _⟩
    · exact hdisjoint (ht.opened cid conv' ho).locked hu.locked
    · rw [hu.fresh] at hc'
      cases hc'
  locked := hu.locked
  claimed := hu.claimed
  alone hkeyed i c hc hscope := by
    rcases ht.conversation_row hc with ⟨conv', ho, hplace⟩ | ⟨c', hc', hplace⟩
    · have hsame : conv'.lookupScope = conv.lookupScope := (congrArg Prod.fst hplace).trans hscope
      have hclaimed := (ht.opened i conv' ho).claimed (hsame ▸ hkeyed)
      rw [hsame] at hclaimed
      exact hdisjoint hclaimed (hu.claimed hkeyed)
    · exact hu.alone hkeyed i c' hc' ((congrArg Prod.fst hplace).trans hscope)

theorem Created.stable {pk : RunId} {run : AiRun} (hu : Created s n u pk run)
    (ht : Writes s n t opened created) (hdisjoint : t.held.Disjoint u.held) :
    Created (t.write s) n u pk run where
  lt := hu.lt
  fresh := by
    by_contra hrow
    obtain ⟨r, hr⟩ := Option.ne_none_iff_exists'.mp hrow
    rcases ht.run_row hr with ⟨run', hcreated, _⟩ | hr'
    · exact hdisjoint (ht.created pk run' hcreated).locked hu.locked
    · rw [hu.fresh] at hr'
      cases hr'
  locked := hu.locked
  claimed := hu.claimed
  alone i r hr hactive hsession := by
    rcases ht.run_row hr with ⟨run', hcreated, hplace⟩ | hr'
    · have hsame : run'.sessionId = run.sessionId := (congrArg Prod.snd hplace).trans hsession
      have hclaimed := (ht.created i run' hcreated).claimed
      rw [hsame] at hclaimed
      exact hdisjoint hclaimed hu.claimed
    · exact hu.alone i r hr' hactive hsession

theorem Writes.stable {opened' : Option (ConversationId × AiConversation)}
    {created' : Option (RunId × AiRun)} (hu : Writes s n u opened' created')
    (ht : Writes s n t opened created) (hdisjoint : t.held.Disjoint u.held) :
    Writes (t.write s) n u opened' created' where
  wrote := hu.wrote
  opened cid conv ho := (hu.opened cid conv ho).stable ht hdisjoint
  created pk run hc := (hu.created pk run hc).stable ht hdisjoint

theorem Chosen.Stands.stable {chosen : Chosen} (hu : chosen.Stands s)
    (ht : Writes s n t opened created) : chosen.Stands (t.write s) := by
  rcases hu with hopened | ⟨c, hc, hsession⟩
  · exact .inl hopened
  · obtain ⟨c', hc', hplace⟩ := ht.conversation_stays hc
    exact .inr ⟨c', hc', (congrArg (fun x => x.2.1) hplace).trans hsession⟩

theorem TriggerRelies.stable (hu : TriggerRelies s n u) (ht : Writes s n t opened created)
    (hdisjoint : t.held.Disjoint u.held) : TriggerRelies (t.write s) n u := by
  obtain ⟨point, w, held⟩ := u
  cases point with
  | reading req => exact Writes.stable hu ht hdisjoint
  | dating req binding => exact Writes.stable hu ht hdisjoint
  | finding req binding epoch => exact Writes.stable hu ht hdisjoint
  | opening req binding epoch => exact Writes.stable hu ht hdisjoint
  | checking req binding chosen => exact ⟨hu.1.stable ht hdisjoint, hu.2.stable ht⟩
  | creating req binding chosen => exact ⟨hu.1.stable ht hdisjoint, hu.2.stable ht⟩
  | handing req binding chosen pk run =>
    exact ⟨hu.1.stable ht hdisjoint, hu.2.1.stable ht, hu.2.2⟩
  | ending req chosen pk =>
    obtain ⟨run, hwrites, hstands, hplace⟩ := hu
    exact ⟨run, hwrites.stable ht hdisjoint, hstands.stable ht, hplace⟩

theorem Writes.keyed {chosen : Chosen} {pk : RunId} {run : AiRun}
    (h : Writes s n t chosen.row (some (pk, run))) (hs : s.Keyed n) (hstands : chosen.Stands s)
    (hplace : run.place = (chosen.pk, chosen.conv.sessionId)) : (t.write s).Keyed n where
  conversation_lt i c hc := by
    rcases h.conversation_row hc with ⟨conv, ho, _⟩ | ⟨c', hc', _⟩
    · exact (h.opened i conv ho).lt
    · exact hs.conversation_lt i c' hc'
  run_lt i r hr := by
    rcases h.run_row hr with ⟨run', hcreated, _⟩ | hr'
    · exact (h.created i run' hcreated).lt
    · exact hs.run_lt i r hr'
  linked i r hr := by
    rcases h.run_row hr with ⟨run', hcreated, hplace'⟩ | hr'
    · cases hcreated
      have hr' : r.place = (chosen.pk, chosen.conv.sessionId) := hplace'.symm.trans hplace
      have hcid : r.conversationId = chosen.pk := congrArg Prod.fst hr'
      have hsession : r.sessionId = chosen.conv.sessionId := congrArg Prod.snd hr'
      rw [hcid, hsession]
      rcases hstands with hopened | ⟨c, hc, hsame⟩
      · have ho : chosen.row = some (chosen.pk, chosen.conv) := if_pos hopened
        obtain ⟨c, hc, hplace⟩ := h.opened_row ho
        exact ⟨c, hc, congrArg (fun x => x.2.1) hplace⟩
      · obtain ⟨c', hc', hplace⟩ := h.conversation_stays hc
        exact ⟨c', hc', (congrArg (fun x => x.2.1) hplace).trans hsame⟩
    · obtain ⟨c, hc, hsession⟩ := hs.linked i r hr'
      obtain ⟨c', hc', hplace⟩ := h.conversation_stays hc
      exact ⟨c', hc', (congrArg (fun x => x.2.1) hplace).trans hsession⟩
  active i j r r' hr hr' hactive hactive' hsession := by
    have halone := (h.created pk run rfl).alone
    rcases h.run_row hr with ⟨run₁, hcreated, hplace₁⟩ | hold <;>
      rcases h.run_row hr' with ⟨run₂, hcreated', hplace₂⟩ | hold'
    · cases hcreated
      cases hcreated'
      rfl
    · cases hcreated
      have hsame : run.sessionId = r.sessionId := congrArg Prod.snd hplace₁
      exact (halone j r' hold' hactive' (hsession.symm.trans hsame.symm)).elim
    · cases hcreated'
      have hsame : run.sessionId = r'.sessionId := congrArg Prod.snd hplace₂
      exact (halone i r hold hactive (hsession.trans hsame.symm)).elim
    · exact hs.active i j r r' hold hold' hactive hactive' hsession

/-- The end of a trigger keeps the conversations of each scope to one, if none of the scope it has
opened is there already. -/
theorem Writes.oneConversation (h : Writes s n t opened created) (hs : s.OneConversation)
    (halone : ∀ cid conv, opened = some (cid, conv) → ∀ i c, s.conversations.row? i = some c →
      c.deleted = false → c.lookupScope ≠ conv.lookupScope) : (t.write s).OneConversation := by
  intro i j c d hc hd hlive hlive' hscope
  rcases h.conversation_row hc with ⟨conv, ho, hplace⟩ | ⟨c', hc', hplace⟩ <;>
    rcases h.conversation_row hd with ⟨conv', ho', hplace'⟩ | ⟨d', hd', hplace'⟩
  · rw [ho] at ho'
    cases ho'
    rfl
  · refine (halone i conv ho j d' hd' ?_ ?_).elim
    · exact (congrArg (fun x => x.2.2) hplace').trans hlive'
    · exact (congrArg Prod.fst hplace').trans (hscope.symm.trans (congrArg Prod.fst hplace).symm)
  · refine (halone j conv' ho' i c' hc' ?_ ?_).elim
    · exact (congrArg (fun x => x.2.2) hplace).trans hlive
    · exact (congrArg Prod.fst hplace).trans (hscope.trans (congrArg Prod.fst hplace').symm)
  · refine hs i j c' d' hc' hd' ?_ ?_ ?_
    · exact (congrArg (fun x => x.2.2) hplace).trans hlive
    · exact (congrArg (fun x => x.2.2) hplace').trans hlive'
    · exact (congrArg Prod.fst hplace).trans (hscope.trans (congrArg Prod.fst hplace').symm)

end Statements

end TgPlatform
