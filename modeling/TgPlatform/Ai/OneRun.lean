import TgPlatform.Ai.TriggerWrites
import TgPlatform.Control.AiScope

/-! # One generating run for each conversation

While each scope has one conversation, the key of the active session keeps its
generating runs to one. The key of a scope keeps its conversations to one unless
the topic or the agent is null: then two triggers that look before either
commits open one each.
-/

namespace TgPlatform

open Overlap

/-- Where a trigger without a topic or an agent commits the conversation it has opened, none of the
scope has been committed before. -/
def OpensAlone (s : ControlPlane) (t : TriggerSession) : Prop :=
  match t.at_ with
  | .ending _ chosen _ => chosen.opened = true → chosen.conv.lookupScope.keyed = false →
    ∀ i c, s.conversations.row? i = some c → c.deleted = false →
      c.lookupScope ≠ chosen.conv.lookupScope
  | _ => True

theorem triggering_keeps : Keeps triggering OpensAlone
    (fun s n _ => s.Keyed n ∧ s.OneConversation) TriggerRelies where
  start s n log req _ := by
    refine ⟨⟨fun _ => .refl, fun _ => .refl, fun _ _ _ => rfl⟩, ?_, ?_⟩
    · rintro cid conv ⟨⟩
    · rintro pk run ⟨⟩
  later s n log h := by
    obtain ⟨hkeyed, hone⟩ := h
    refine ⟨⟨⟨fun i c hc => ?_, fun i r hr => ?_, hkeyed.linked, hkeyed.active⟩, hone⟩, ?_⟩
    · exact Nat.lt_succ_of_lt (hkeyed.conversation_lt i c hc)
    · exact Nat.lt_succ_of_lt (hkeyed.run_lt i r hr)
    · exact fun t ht => ht.later
  go s n log t locks write next h ht _ hnext := ht.go h.1 hnext
  commit s n log t pk h ht hg hnext := by
    obtain ⟨hkeyed, hone⟩ := h
    obtain ⟨req, chosen, hpoint⟩ := triggerNext_eq_commit hnext
    obtain ⟨point, w, held⟩ := t
    subst hpoint
    obtain ⟨run, hwrites, hstands, hplace⟩ := ht
    refine ⟨⟨hwrites.keyed hkeyed hstands hplace, hwrites.oneConversation hone ?_⟩, ?_⟩
    · rintro cid conv ho i c hc hlive
      unfold Chosen.row at ho
      split at ho
      · rename_i hopened
        cases ho
        by_cases hscope : chosen.conv.lookupScope.keyed = true
        · exact (hwrites.opened chosen.pk chosen.conv (if_pos hopened)).alone hscope i c hc
        · exact hg hopened (by simpa using hscope) i c hc hlive
      · cases ho
    · exact fun u hu hdisjoint => hu.stable hwrites hdisjoint

/-! ## One conversation and one generating run -/

abbrev TriggerState := State ControlPlane TriggerLock RunId TriggerPoint

/-- What is committed has one conversation and one generating run for each scope. -/
def CommitsOne (_ : TriggerState) (_ : Act TriggerRequest) (x : TriggerState) : Prop :=
  x.committed.OneConversation ∧ x.committed.OneRun

abbrev TriggersSoundly (x : TriggerState) : Prop :=
  Sound (fun s n (_ : List RunId) => s.Keyed n ∧ s.OneConversation) TriggerRelies x

/-- A trigger that commits a second conversation of its scope breaks the rule at once. -/
theorem opensAlone_of_commitsOne {x y : TriggerState} {a : Act TriggerRequest}
    (hx : TriggersSoundly x) (h : triggering.step x a = some y) (hone : y.committed.OneConversation) :
    Guarded OpensAlone x a y := by
  rintro i t rfl ht
  have hrelies := hx.session i t ht
  obtain ⟨point, w, held⟩ := t
  cases point with
  | ending req chosen pk =>
    rintro hopened - j c hc hlive hscope
    obtain ⟨run, hwrites, -, -⟩ := hrelies
    have ho : chosen.row = some (chosen.pk, chosen.conv) := if_pos hopened
    have hmine := hwrites.opened chosen.pk chosen.conv ho
    obtain ⟨c', hc', hplace⟩ := hwrites.opened_row ho
    obtain ⟨d, hd, hplace'⟩ := hwrites.conversation_stays hc
    have hcommitted : y.committed = w x.committed := by
      simp only [Program.step, ht, Option.bind_some, Program.move] at h
      cases h
      rfl
    rw [hcommitted] at hone
    have hlive' : c'.deleted = false := (congrArg (fun x => x.2.2) hplace).trans hmine.live
    have hlived : d.deleted = false := (congrArg (fun x => x.2.2) hplace').trans hlive
    have hsame : c'.lookupScope = d.lookupScope :=
      (congrArg Prod.fst hplace).trans (hscope.symm.trans (congrArg Prod.fst hplace').symm)
    have hij := hone chosen.pk j c' d hc' hd hlive' hlived hsame
    rw [← hij, hmine.fresh] at hc
    cases hc
  | _ => trivial

/-- However triggers overlap, each scope has one conversation and one generating run at most, exactly
if none without a topic or an agent commits a conversation where one of its scope is committed. -/
theorem one_generating_run_iff {s : ControlPlane} {n : ℕ} (hs : s.Keyed n)
    (hone : s.OneConversation) (acts : List (Act TriggerRequest)) :
    Machine.Always triggering.step CommitsOne { committed := s, serial := n } acts ↔
      Machine.Always triggering.step (Guarded OpensAlone) { committed := s, serial := n } acts := by
  have hinit : TriggersSoundly { committed := s, serial := n } := .init ⟨hs, hone⟩
  refine Machine.always_iff_of_invariant (I := TriggersSoundly) ?_ ?_ acts hinit
  · intro x a y hstep hx hcommits
    exact hx.step triggering_keeps (opensAlone_of_commitsOne hx hstep hcommits.1) hstep
  · intro x a y hstep hx
    constructor
    · intro hcommits
      exact opensAlone_of_commitsOne hx hstep hcommits.1
    · intro hguard
      have hy := (hx.step triggering_keeps hguard hstep).committed
      exact ⟨hy.2, hy.1.oneRun hy.2⟩

def withMember : ControlPlane :=
  let binding : AiBinding := {
    uuid := "b", tenantId := 1, projectId := 1, accountId := 1, botUuid := "", baseUrl := ""
    inboundSecretRef := "", outboundSecretRef := "", engine := "openai" }
  { ControlPlane.ofDirectory ControlPlane.memberOfFirst with bindings := ⟨[some binding]⟩ }

theorem keyed_withMember : withMember.Keyed 0 where
  conversation_lt i c hc := by cases hc
  run_lt i r hr := by cases hr
  linked i r hr := by cases hr
  active i j r r' hr := by cases hr

/-- Two triggers for a chat, whose uuids begin with different letters. -/
def triggerOf (topicId : Option ℤ) (agentKey : Option String) (tag : String) : TriggerRequest where
  out := { ControlPlane.silence with uuid := fun i => tag ++ toString i }
  obj := { bindingId := 0, chatId := -100, text := "", topicId, agentKey }
  defer := true

def bothTriggers (topicId : Option ℤ) (agentKey : Option String) (order : List ℕ) :
    List (Act TriggerRequest) :=
  [.start (triggerOf topicId agentKey "a"), .start (triggerOf topicId agentKey "b")] ++
    order.map .move

def unkeyedInTurn : List (Act TriggerRequest) :=
  bothTriggers none none [0, 1, 0, 1, 0, 1, 0, 1, 0, 1, 0, 1, 0, 1, 0]

theorem two_conversations_opened : ¬ ∀ (s : ControlPlane) (n : ℕ) (acts : List (Act TriggerRequest)),
    s.Keyed n → s.OneConversation →
      Machine.Always triggering.step CommitsOne { committed := s, serial := n } acts := by
  intro h
  let key (c : AiConversation) := (c.deleted, c.lookupScope)
  have hobserved : ((Machine.run triggering.step { committed := withMember } unkeyedInTurn).bind fun x =>
        (triggering.step x (.move 1)).map fun y =>
        ((y.committed.conversations.row? 6).map key, (y.committed.conversations.row? 7).map key)) =
      some (some (false, ⟨1, 1, -100, none, none, 0⟩), some (false, ⟨1, 1, -100, none, none, 0⟩)) := by
    decide +kernel
  obtain ⟨x, y, hrun, hstep, hy⟩ :=
    Machine.exists_of_observed (f := fun (x y : TriggerState) => _) hobserved
  have hone : withMember.OneConversation := by
    intro i j c d hc
    cases hc
  refine Machine.not_always_of_step hrun hstep ?_ (h withMember 0 _ keyed_withMember hone)
  rintro ⟨hcommits, -⟩
  obtain ⟨hfirst, hsecond⟩ := Prod.mk.inj hy
  obtain ⟨c, hc, hkey⟩ := Option.map_eq_some_iff.mp hfirst
  obtain ⟨d, hd, hkey'⟩ := Option.map_eq_some_iff.mp hsecond
  obtain ⟨hlive, hscope⟩ := Prod.mk.inj hkey
  obtain ⟨hlive', hscope'⟩ := Prod.mk.inj hkey'
  exact absurd (hcommits 6 7 c d hc hd hlive hlive' (hscope.trans hscope'.symm)) (by decide)

def opensAlone (t : TriggerSession) : Bool :=
  match t.at_ with
  | .ending _ chosen _ => !chosen.opened || chosen.conv.lookupScope.keyed
  | _ => true

theorem guarded_of_opensAlone {x y : TriggerState} {a : Act TriggerRequest}
    (h : (match a with
      | .move i => (x.sessions.row? i).all opensAlone
      | _ => true) = true) : Guarded OpensAlone x a y := by
  rintro i t rfl ht
  simp only [ht, Option.all_some] at h
  unfold OpensAlone
  unfold opensAlone at h
  split
  · rename_i req chosen pk hpoint
    rintro hopened hkeyed
    simp [hpoint, hopened, hkeyed] at h
  · trivial

/-- With a topic and an agent the second trigger finds the key of the scope taken. -/
def oneAfterTheOther : List (Act TriggerRequest) :=
  bothTriggers (some 1) (some "agent") [0, 1, 0, 1, 0, 1, 0, 0, 0, 0, 0, 1]

theorem one_generating_run_keyed :
    (Machine.run triggering.step { committed := withMember } oneAfterTheOther).map
      (fun x => (x.committed.conversations.all.map Prod.fst, x.log)) = some ([6], [8]) ∧
      Machine.Always triggering.step CommitsOne { committed := withMember } oneAfterTheOther := by
  constructor
  · decide +kernel
  · have hone : withMember.OneConversation := by
      intro i j c d hc
      cases hc
    refine (one_generating_run_iff keyed_withMember hone _).mpr ?_
    exact Machine.always_of_checkRun (fun _ _ _ => guarded_of_opensAlone) (by decide +kernel)

end TgPlatform
