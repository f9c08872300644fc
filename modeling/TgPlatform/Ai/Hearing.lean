import TgPlatform.Ai.Chain

/-! # One decision for each message

All accounts of a group report the messages that they see. The cache knows a
message by its id alone, and only while it is among the last hundred. A message
is recorded and decided on exactly once where the ids in the cache tell messages
apart and no report comes later than that.
-/

namespace TgPlatform

open Txn

/-- What happens to a group: a report of a message, known by its number, or another request. -/
inductive HearAct (pk : GroupId)
  | report (message : ℕ) (r : GroupReport)
  | elsewhere (request : OtherRequest pk AiGroup.recentMessages)

/-- The platform, with the messages reported so far and their ids, in the order of the first reports. -/
structure Hearing where
  plane : ControlPlane
  heard : List (ℕ × ℤ) := []

namespace Hearing

variable (x : Hearing)

def Knows (message : ℕ) : Prop := message ∈ x.heard.map Prod.fst

/-- The ids of the messages, as the cache keeps them. -/
def ids : List Json := x.heard.map fun m => .int m.2

def hears (message : ℕ) (r : GroupReport) (pk : GroupId) : List (ℕ × ℤ) :=
  if ((r.group x.plane).any fun found => found.2.1 = pk) && message ∉ x.heard.map Prod.fst then
    x.heard ++ [(message, r.obj.messageId)]
  else x.heard

end Hearing

/-- A report that fails is rolled back, and is no step. -/
def hearStep (pk : GroupId) (x : Hearing) : HearAct pk → Option Hearing
  | .elsewhere request => some { x with plane := request.write x.plane }
  | .report message r =>
    match (r.handle x.plane).2 with
    | .ok (_, s') => some ⟨s', x.hears message r pk⟩
    | .error _ => none

/-- A message is recorded at its first report, and nothing is done at the later ones. -/
structure DecidedOnce (message : ℕ) (r : GroupReport) (pk : GroupId) (group : AiGroup) (x x' : Hearing) :
    Prop where
  first : ¬ x.Knows message → ∃ author,
    x'.plane.group pk = some (group.record (r.obj.entry author r.out.now) author r.out.now)
  later : x.Knows message → x'.plane = x.plane

def OneDecision (pk : GroupId) (x : Hearing) (a : HearAct pk) (x' : Hearing) : Prop :=
  match a with
  | .elsewhere _ => True
  | .report message r => ∀ account group, r.About x.plane account pk group →
    DecidedOnce message r pk group x x'

/-- The id of a reported message is one of the last hundred if and only if that message has been
reported. -/
def IdsTell (pk : GroupId) (x : Hearing) (a : HearAct pk) (_ : Hearing) : Prop :=
  match a with
  | .elsewhere _ => True
  | .report message r => ∀ account group, r.About x.plane account pk group →
    (Json.int r.obj.messageId ∈ lastItems 100 x.ids ↔ x.Knows message)

/-! ## The cache -/

section Cache

variable {l : List Json} {m : Json} {k : ℕ}

theorem lastItems_append (hk : k ≠ 0) : lastItems k (lastItems k l ++ [m]) = lastItems k (l ++ [m]) := by
  have hlen : l.length - k ≤ l.length := Nat.sub_le _ _
  unfold lastItems
  simp only [hk, if_false, List.length_append, List.length_drop, List.length_singleton]
  rw [← List.drop_append_of_le_length hlen, List.drop_drop]
  congr 1
  omega

/-- A full cache without repetitions changes with every new entry. -/
theorem lastItems_append_ne (hk : 2 ≤ k) (hnodup : l.Nodup) : lastItems k (l ++ [m]) ≠ l := by
  intro h
  have hlength := congrArg List.length h
  unfold lastItems at h hlength
  rw [if_neg (by omega)] at h hlength
  simp only [List.length_append, List.length_singleton, List.length_drop] at h hlength
  have hfull : l.length = k ∧ l.length + 1 - k = 1 := by omega
  rw [hfull.2] at h
  have hget := congrArg (fun l => l[0]?) h
  simp only [List.getElem?_drop] at hget
  rw [List.getElem?_append_left (by omega)] at hget
  have hone : 1 + 0 = 0 := (List.getElem?_inj (by omega) hnodup).mp hget
  cases hone

end Cache

theorem sameMid_int {j : Json} {n : ℤ} : sameMid j (.int n) = true ↔ j = .int n := by
  unfold sameMid
  split <;> simp_all

def AiGroup.mids (group : AiGroup) : List Json := group.recentMessages.map fun m => m.field "mid" .null

section Mids

variable {group : AiGroup} {obj : AiGroupEvent} {author : Author} {now : Time}

theorem has_iff {n : ℤ} : group.has n = true ↔ Json.int n ∈ group.mids := by
  unfold AiGroup.has AiGroup.mids
  simp only [List.any_eq_true, sameMid_int, List.mem_map]

theorem mids_record : (group.record (obj.entry author now) author now).mids =
    lastItems 100 (group.mids ++ [.int obj.messageId]) := by
  have hmid : (obj.entry author now).field "mid" .null = .int obj.messageId := by
    unfold AiGroupEvent.entry
    simp [Json.field, List.lookup_cons]
  unfold AiGroup.mids AiGroup.record
  dsimp only
  unfold lastItems
  simp [List.map_drop, hmid]

theorem record_ne (hnodup : group.mids.Nodup) :
    group.record (obj.entry author now) author now ≠ group := by
  intro h
  have hmids := congrArg AiGroup.mids h
  rw [mids_record] at hmids
  exact lastItems_append_ne (by decide) hnodup hmids

end Mids

/-! ## Step by step -/

/-- The cache knows the last hundred messages, each by an id of its own. -/
structure Follows (pk : GroupId) (x : Hearing) : Prop where
  cache : ∀ g, x.plane.group pk = some g → g.mids = lastItems 100 x.ids
  apart : (lastItems 100 x.ids).Nodup

variable {pk : GroupId} {x x' : Hearing} {message n : ℕ} {r : GroupReport} {s' : ControlPlane}
  {account : TelegramAccount} {group : AiGroup} {author : Author}

theorem Follows.nodup (h : Follows pk x) (habout : r.About x.plane account pk group) :
    group.mids.Nodup := by
  rw [h.cache group habout.row]
  exact h.apart

theorem Follows.decided_iff (h : Follows pk x) (habout : r.About x.plane account pk group)
    (hhandled : Handled r.out r.obj pk group author x.plane n s') {heard : List (ℕ × ℤ)} :
    DecidedOnce message r pk group x ⟨s', heard⟩ ↔
      (Json.int r.obj.messageId ∈ lastItems 100 x.ids ↔ x.Knows message) := by
  have hnodup := h.nodup habout
  have hrow := habout.row
  rw [← h.cache group hrow, ← has_iff]
  cases hhandled with
  | known hhas =>
    rw [hhas]
    constructor
    · intro hdecided
      refine ⟨fun _ => ?_, fun _ => rfl⟩
      by_contra hknows
      obtain ⟨author', hrecorded⟩ := hdecided.first hknows
      dsimp only at hrecorded
      rw [hrow] at hrecorded
      exact record_ne hnodup (Option.some.inj hrecorded).symm
    · intro hknows
      exact ⟨fun hnot => absurd (hknows.mp rfl) hnot, fun _ => rfl⟩
  | recorded hnew hgroups hanswered hsilent =>
    have hrecorded := group_of_recorded hgroups
    rw [hrow] at hrecorded
    rw [hnew]
    constructor
    · intro hdecided
      refine ⟨fun hfalse => (Bool.noConfusion hfalse), fun hknows => ?_⟩
      have hsame : s' = x.plane := hdecided.later hknows
      rw [hsame, hrow] at hrecorded
      exact absurd (Option.some.inj hrecorded).symm (record_ne hnodup)
    · intro hknows
      exact ⟨fun _ => ⟨author, hrecorded⟩, fun hheard => Bool.noConfusion (hknows.mpr hheard)⟩

theorem hears_known (hknows : x.Knows message) : x.hears message r pk = x.heard := by
  unfold Hearing.hears
  have hmem : message ∈ x.heard.map Prod.fst := hknows
  simp [hmem]

theorem hears_new (habout : r.About x.plane account pk group) (hnew : ¬ x.Knows message) :
    x.hears message r pk = x.heard ++ [(message, r.obj.messageId)] := by
  unfold Hearing.hears
  rw [habout]
  have hmem : message ∉ x.heard.map Prod.fst := hnew
  simp [hmem]

theorem Follows.report (h : Follows pk x) (habout : r.About x.plane account pk group)
    (hhandled : Handled r.out r.obj pk group author x.plane n s')
    (htell : Json.int r.obj.messageId ∈ lastItems 100 x.ids ↔ x.Knows message) :
    Follows pk ⟨s', x.hears message r pk⟩ := by
  have hrow := habout.row
  cases hhandled with
  | known hhas =>
    rw [has_iff, h.cache group hrow] at hhas
    rw [hears_known (htell.mp hhas)]
    exact h
  | recorded hnew hgroups hanswered hsilent =>
    have hrecorded := group_of_recorded hgroups
    rw [hrow] at hrecorded
    have hfresh : Json.int r.obj.messageId ∉ lastItems 100 x.ids := by
      rw [← h.cache group hrow, ← has_iff, hnew]
      exact Bool.false_ne_true
    rw [hears_new habout fun hknows => hfresh (htell.mpr hknows)]
    have hids : Hearing.ids ⟨s', x.heard ++ [(message, r.obj.messageId)]⟩ =
        x.ids ++ [.int r.obj.messageId] := by
      unfold Hearing.ids
      rw [List.map_append]
      rfl
    refine ⟨fun g hg => ?_, ?_⟩
    · dsimp only at hg
      rw [hrecorded] at hg
      cases hg
      rw [mids_record, h.cache group hrow, hids, lastItems_append (by decide)]
    · rw [hids, ← lastItems_append (by decide)]
      apply List.Nodup.sublist lastItems_suffix.sublist
      refine List.nodup_append'.mpr ⟨h.apart, List.nodup_singleton _, ?_⟩
      rw [List.disjoint_singleton]
      exact hfresh

theorem Follows.elsewhere {request : OtherRequest pk AiGroup.recentMessages} (h : Follows pk x) :
    Follows pk { x with plane := request.write x.plane } := by
  refine ⟨fun g' hg' => ?_, h.apart⟩
  obtain ⟨g, hg, hkept⟩ := request.keeps x.plane g' hg'
  unfold AiGroup.mids
  rw [hkept]
  exact h.cache g hg

theorem Follows.aside (h : Follows pk x) (habout : ∀ account group, ¬ r.About x.plane account pk group)
    (hrow : s'.group pk = x.plane.group pk) : Follows pk ⟨s', x.hears message r pk⟩ := by
  have hheard : x.hears message r pk = x.heard := by
    unfold Hearing.hears
    cases hgroup : r.group x.plane with
    | none => rfl
    | some found =>
      obtain ⟨account, pk', group⟩ := found
      have hpk : pk' ≠ pk := by
        rintro rfl
        exact habout account group hgroup
      simp [hpk]
  rw [hheard]
  exact ⟨fun g hg => h.cache g (hrow ▸ hg), h.apart⟩

theorem hearStep_report (h : hearStep pk x (.report message r) = some x') :
    (∃ account group author n s', r.About x.plane account pk group ∧
      Handled r.out r.obj pk group author x.plane n s' ∧ x' = ⟨s', x.hears message r pk⟩) ∨
    (∀ account group, ¬ r.About x.plane account pk group) ∧
      x'.plane.group pk = x.plane.group pk ∧ x' = ⟨x'.plane, x.hears message r pk⟩ := by
  simp only [hearStep] at h
  split at h <;> cases h
  rename_i n s' hhandle
  rcases GroupReport.handle_handled hhandle with ⟨hnone, rfl, rfl⟩ |
    ⟨account, pk', group, author, habout, hauthor, hhandled⟩
  · refine .inr ⟨fun account group habout => ?_, rfl, rfl⟩
    rw [GroupReport.About, hnone] at habout
    cases habout
  · by_cases hpk : pk' = pk
    · subst hpk
      exact .inl ⟨account, group, author, n, s', habout, hhandled, rfl⟩
    · refine .inr ⟨fun account' group' habout' => ?_, hhandled.others fun heq => hpk heq.symm, rfl⟩
      rw [GroupReport.About, habout] at habout'
      cases habout'
      exact hpk rfl

theorem Follows.step {a : HearAct pk} (h : Follows pk x) (hstep : hearStep pk x a = some x')
    (hone : OneDecision pk x a x') : Follows pk x' := by
  cases a with
  | elsewhere request =>
    cases hstep
    exact h.elsewhere
  | report message r =>
    rcases hearStep_report hstep with ⟨account, group, author, n, s', habout, hhandled, rfl⟩ |
      ⟨habout, hrow, heq⟩
    · exact h.report habout hhandled ((h.decided_iff habout hhandled).mp (hone account group habout))
    · rw [heq]
      exact h.aside habout hrow

theorem Follows.one_iff {a : HearAct pk} (h : Follows pk x) (hstep : hearStep pk x a = some x') :
    OneDecision pk x a x' ↔ IdsTell pk x a x' := by
  cases a with
  | elsewhere request => exact Iff.rfl
  | report message r =>
    rcases hearStep_report hstep with ⟨account, group, author, n, s', habout, hhandled, rfl⟩ |
      ⟨habout, -, -⟩
    · unfold OneDecision IdsTell
      constructor
      · intro hone account' group' habout'
        cases habout.symm.trans habout'
        exact (h.decided_iff habout hhandled).mp (hone account group habout)
      · intro htell account' group' habout'
        cases habout.symm.trans habout'
        exact (h.decided_iff habout hhandled).mpr (htell account group habout)
    · exact ⟨fun _ account group h => absurd h (habout account group),
        fun _ account group h => absurd h (habout account group)⟩

/-! ## Whole runs -/

/-- From an empty cache on, every message is recorded and decided on once if and only if at every
report its id is among the last hundred exactly if the message has been reported. -/
theorem one_decision_iff (pk : GroupId) (s : ControlPlane)
    (hempty : ∀ g, s.group pk = some g → g.recentMessages = []) (as : List (HearAct pk)) :
    Machine.Always (hearStep pk) (OneDecision pk) { plane := s } as ↔
      Machine.Always (hearStep pk) (IdsTell pk) { plane := s } as := by
  apply Machine.always_iff_of_invariant (I := Follows pk)
  · exact fun _ _ _ hstep h hone => h.step hstep hone
  · exact fun _ _ _ hstep h => h.one_iff hstep
  · refine ⟨fun g hg => ?_, .nil⟩
    unfold AiGroup.mids
    rw [hempty g hg]
    rfl

/-! ## A small group -/

def heardFrom (apiRowId : ℕ) (messageId : ℤ) (chatClass : String) (h : chatClass ≠ "private") :
    GroupReport where
  out := ControlPlane.silence
  dice := willing
  obj := { apiRowId, chatId := -100, messageId, text := "hi", chatClass := some chatClass }
  notPrivate := by simpa using h

def reportedTwice : List (HearAct 0) :=
  [.report 0 (heardFrom 1 5 "broadcast" (by decide)), .report 0 (heardFrom 2 5 "broadcast" (by decide)),
    .report 1 (heardFrom 2 6 "broadcast" (by decide))]

def idsTell (x : Hearing) : HearAct 0 → Bool
  | .elsewhere _ => true
  | .report message r =>
    (lastItems 100 x.ids).any (fun j => sameMid j (.int r.obj.messageId)) =
      decide (message ∈ x.heard.map Prod.fst)

theorem reported_twice_decided_once :
    ((Machine.run (hearStep 0) { plane := talkativePair } reportedTwice).bind fun x =>
      x.plane.group 0).map
        (fun g => g.recentMessages.length) = some 2 ∧
      Machine.Always (hearStep 0) (OneDecision 0) { plane := talkativePair } reportedTwice := by
  constructor
  · decide +kernel
  · apply (one_decision_iff 0 talkativePair ?_ reportedTwice).mpr
    · apply Machine.always_of_checkRun (c := fun (x : Hearing) (a : HearAct 0) _ => idsTell x a)
      · intro x a x' htell
        cases a with
        | elsewhere request => trivial
        | report message r =>
          intro account group habout
          unfold idsTell at htell
          rw [decide_eq_true_eq, Bool.eq_iff_iff] at htell
          simpa [sameMid_int, Hearing.Knows] using htell
      · decide +kernel
    · rintro g ⟨⟩
      rfl

/-- In a small group every account numbers the messages on its own, and two of them get one number. -/
theorem small_group_merges_messages : ¬ ∀ (pk : GroupId) (s : ControlPlane),
    (∀ g, s.group pk = some g → g.recentMessages = []) → ∀ as : List (HearAct pk),
      Machine.Always (hearStep pk) (OneDecision pk) { plane := s } as := by
  intro h
  let second : GroupReport := heardFrom 2 5 "small_group" (by decide)
  have hobserved : ((Machine.run (hearStep 0) { plane := talkativePair }
      [.report 0 (heardFrom 1 5 "small_group" (by decide))]).bind fun x =>
        (hearStep 0 x (.report 1 second)).map fun y =>
          ((x.heard, (second.group x.plane).map fun found =>
            (found.2.1, found.2.2.recentMessages.length)),
            (y.plane.group 0).map fun g => g.recentMessages.length)) =
      some (([(0, 5)], some (0, 1)), some 1) := by
    decide +kernel
  obtain ⟨x, y, hrun, hstep, hy⟩ := Machine.exists_of_observed (f := fun (x y : Hearing) => _) hobserved
  refine Machine.not_always_of_step hrun hstep ?_ (h 0 talkativePair (by rintro g ⟨⟩; rfl) _)
  intro hone
  simp only [Prod.mk.injEq, Option.map_eq_some_iff] at hy
  obtain ⟨⟨hheard, ⟨account, pk, group⟩, habout, rfl, hbefore⟩, g, hg, hafter⟩ := hy
  have hnew : ¬ x.Knows 1 := by
    unfold Hearing.Knows
    rw [hheard]
    decide
  obtain ⟨author, hrecorded⟩ := (hone account group habout).first hnew
  rw [hg] at hrecorded
  cases hrecorded
  dsimp only [AiGroup.record] at hafter hbefore
  unfold lastItems at hafter
  simp [hbefore] at hafter

end TgPlatform
