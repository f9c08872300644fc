import TgPlatform.Ai.GroupEvents
import TgPlatform.Rules.Reports

/-! # Matching chats

Telegram knows a channel by its bare id and by its marked id, the negative
number with a one and twelve digits of the bare id. The service compares the
magnitudes of two ids, modulo a power that is too large to remove the mark.
-/

namespace TgPlatform

def IsMarked (marked bare : ℤ) : Prop := 0 < bare ∧ bare < 10 ^ 12 ∧ marked = -(10 ^ 12 + bare)

def unmark (chatId : ℤ) : ℤ :=
  if -(2 * 10 ^ 12) < chatId ∧ chatId < -10 ^ 12 then -chatId - 10 ^ 12 else chatId

/-- Two ids have the same magnitude, those beyond ten digits modulo `10 ^ 15`. -/
def SameMagnitude (a b : ℤ) : Prop :=
  a.natAbs = b.natAbs ∨
    10 ^ 10 < a.natAbs ∧ 10 ^ 10 < b.natAbs ∧ a.natAbs % 10 ^ 15 = b.natAbs % 10 ^ 15 ∨
    10 ^ 10 < a.natAbs ∧ b.natAbs ≤ 10 ^ 10 ∧ a.natAbs % 10 ^ 15 = b.natAbs ∨
    a.natAbs ≤ 10 ^ 10 ∧ 10 ^ 10 < b.natAbs ∧ a.natAbs = b.natAbs % 10 ^ 15

/-- The ids are equal, or neither of one magnitude nor the marked and the bare id of a channel. -/
def ToldApart (a b : ℤ) : Prop := a = b ∨ ¬ SameMagnitude a b ∧ ¬ IsMarked a b ∧ ¬ IsMarked b a

variable {a b c : ℤ}

theorem unmark_of_isMarked (h : IsMarked a b) : unmark a = b := by
  obtain ⟨hpos, hlt, rfl⟩ := h
  unfold unmark
  rw [if_pos (by omega)]
  omega

theorem unmark_of_pos (h : 0 < a) : unmark a = a := if_neg (by omega)

theorem unmark_eq_iff : unmark a = unmark b ↔ a = b ∨ IsMarked a b ∨ IsMarked b a := by
  constructor
  · unfold unmark IsMarked
    intro h
    split_ifs at h <;> omega
  · rintro (rfl | h | h)
    · rfl
    · rw [unmark_of_isMarked h, unmark_of_pos h.1]
    · rw [unmark_of_isMarked h, unmark_of_pos h.1]

/-- What is compared of ids that differ. -/
def magnitude (chatId : ℤ) : ℕ :=
  if 10 ^ 10 < chatId.natAbs then chatId.natAbs % 10 ^ 15 else chatId.natAbs

theorem chatMatch_iff_magnitude : chatMatch a b = true ↔ magnitude a = magnitude b := by
  unfold chatMatch
  rw [Bool.or_eq_true, decide_eq_true_eq, decide_eq_true_eq]
  exact or_iff_right_of_imp fun h => congrArg magnitude h

theorem magnitude_eq_iff : magnitude a = magnitude b ↔ SameMagnitude a b := by
  unfold magnitude SameMagnitude
  split_ifs <;> omega

theorem chatMatch_iff : chatMatch a b = true ↔ SameMagnitude a b :=
  chatMatch_iff_magnitude.trans magnitude_eq_iff

theorem not_sameMagnitude_of_isMarked (h : IsMarked a b) : ¬ SameMagnitude a b := by
  obtain ⟨hpos, hlt, rfl⟩ := h
  unfold SameMagnitude
  omega

theorem SameMagnitude.symm (h : SameMagnitude a b) : SameMagnitude b a :=
  magnitude_eq_iff.mp (magnitude_eq_iff.mpr h).symm

theorem chatMatch_equivalence : Equivalence fun a b => chatMatch a b = true where
  refl _ := chatMatch_iff_magnitude.mpr rfl
  symm h := chatMatch_iff_magnitude.mpr (chatMatch_iff_magnitude.mp h).symm
  trans h h' := chatMatch_iff_magnitude.mpr
    ((chatMatch_iff_magnitude.mp h).trans (chatMatch_iff_magnitude.mp h'))

/-- A pair of ids is matched as it should be exactly if the magnitudes tell it apart. -/
theorem chatMatch_peer_iff : (chatMatch a b = true ↔ unmark a = unmark b) ↔ ToldApart a b := by
  rw [chatMatch_iff, unmark_eq_iff]
  unfold ToldApart
  constructor
  · intro h
    by_cases heq : a = b
    · exact .inl heq
    · right
      have hapart : ¬ SameMagnitude a b := by
        intro hsame
        rcases (h.mp hsame).resolve_left heq with hmarks | hmarks
        · exact not_sameMagnitude_of_isMarked hmarks hsame
        · exact not_sameMagnitude_of_isMarked hmarks hsame.symm
      exact ⟨hapart, fun hm => hapart (h.mpr (.inr (.inl hm))),
        fun hm => hapart (h.mpr (.inr (.inr hm)))⟩
  · rintro (rfl | ⟨hapart, hab, hba⟩)
    · exact iff_of_true (.inl rfl) (.inl rfl)
    · refine iff_of_false hapart ?_
      rintro (rfl | hm | hm)
      · exact hapart (.inl rfl)
      · exact hab hm
      · exact hba hm

/-! ## Choosing a group -/

/-- The choice of `_find_group` among the groups of the project. -/
def groupForEvent (chatId : ℤ) (topicId : Option ℤ) (groups : List (GroupId × AiGroup)) :
    Option (GroupId × AiGroup) :=
  groups.find? fun g => chatMatch g.2.chatId chatId && topicOrNone g.2.topicId = topicOrNone topicId

/-- The choice of `_clone_ai_group` among the groups of the project. -/
def groupForTargets (targetChats : List ℤ) (groups : List (GroupId × AiGroup)) : Option AiGroup :=
  (groups.find? fun g => targetChats.any fun c => chatMatch g.2.chatId c).map Prod.snd

def OrderFree {α β : Type*} (choose : List α → Option β) (l : List α) : Prop :=
  ∀ l' : List α, l'.Perm l → choose l' = choose l

theorem findGroup_eq {s : ControlPlane} {account : TelegramAccount} {obj : AiGroupEvent} :
    s.findGroup account obj = groupForEvent obj.chatId obj.topicId
      (s.groupsOf (some account.tenantId) (some account.projectId)) := rfl

theorem cloneAiGroup_eq {s : ControlPlane} {pk : ℕ} {rule : CloneRule} :
    s.cloneAiGroup pk rule = (rule.aiGroupId.bind s.group).or
      (groupForTargets ((s.activeTargets pk).map fun t => t.2.targetChatId)
        (s.groupsOf (some rule.tenantId) (some rule.projectId))) := by
  unfold ControlPlane.cloneAiGroup groupForTargets
  cases rule.aiGroupId.bind s.group with
  | some group => rfl
  | none => simp [ControlPlane.groupsOf, matchesParam]

theorem groupForEvent_orderFree_iff {topicId : Option ℤ} {groups : List (GroupId × AiGroup)} :
    OrderFree (groupForEvent c topicId) groups ↔ ∀ g ∈ groups, ∀ g' ∈ groups,
      topicOrNone g.2.topicId = topicOrNone topicId → topicOrNone g'.2.topicId = topicOrNone topicId →
        SameMagnitude g.2.chatId c → SameMagnitude g'.2.chatId c → g = g' := by
  have hperm := @List.find?_perm_iff _ groups
    (fun g => chatMatch g.2.chatId c && topicOrNone g.2.topicId = topicOrNone topicId) _ id
  simp only [Option.map_id_fun, id_eq, Bool.and_eq_true, chatMatch_iff, decide_eq_true_eq] at hperm
  refine hperm.trans (forall₂_congr fun g _ => forall₂_congr fun g' _ => ?_)
  tauto

theorem groupForTargets_orderFree_iff {targetChats : List ℤ} {groups : List (GroupId × AiGroup)} :
    OrderFree (groupForTargets targetChats) groups ↔ ∀ g ∈ groups, ∀ g' ∈ groups,
      (∃ c ∈ targetChats, SameMagnitude g.2.chatId c) →
        (∃ c ∈ targetChats, SameMagnitude g'.2.chatId c) → g.2 = g'.2 := by
  have hperm := @List.find?_perm_iff _ groups
    (fun g => targetChats.any fun c => chatMatch g.2.chatId c) _ Prod.snd
  simp only [List.any_eq_true, chatMatch_iff] at hperm
  exact hperm

end TgPlatform
