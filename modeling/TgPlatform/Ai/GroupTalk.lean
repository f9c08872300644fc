import TgPlatform.Ai.GroupEvents
import TgPlatform.Ai.OwnVoice

/-! # What a report leaves

A report of a message that the cache has changes nothing. Any other report adds
the message to the cache of its group and to no other, and it lets members
answer only as the author of the message allows.
-/

namespace TgPlatform

open Txn

variable {s s' : ControlPlane} {out : Outside} {dice : Dice} {account : TelegramAccount}
  {obj : AiGroupEvent}
  {pk : GroupId} {group : AiGroup} {author : Author} {n : ℕ}

/-! ## Answers leave the groups alone -/

theorem openConversation_sameCast {trig : AiTrigger} {binding : AiBinding} :
    Does SameCast (openConversation out trig binding) := by
  refine .bind .read fun epoch => .bind .read fun found => ?_
  cases found with
  | some found => exact .ret
  | none => exact .bind .read fun _ => .bind (.write fun _ => ⟨rfl, rfl⟩) fun _ => .ret

theorem trigger_sameCast {trig : AiTrigger} {defer : Bool} : Does SameCast (trigger out trig defer) := by
  rw [trigger_eq ⟨out, trig, defer⟩]
  refine .bind .read fun _ => .bind orRefuse_does fun binding =>
    .bind openConversation_sameCast fun chosen => .bind .read fun active => ?_
  split
  · exact .throw
  · exact .bind .read fun _ => .bind (.write fun _ => ⟨rfl, rfl⟩) fun _ => sameCast_ends.handOver

theorem startReply_sameCast {b : BindingId} : Does SameCast (startReply out group obj b) :=
  .attempt (.bind trigger_sameCast fun _ => .ret)

theorem answerMessage_sameCast {recent : List Json} {isOurs : Bool} :
    Does SameCast (answerMessage out dice pk group obj recent isOurs) :=
  .bind .read fun _ => .bind (.collect fun _ _ => startReply_sameCast) fun _ => .ret

/-! ## Whose the message is -/

theorem isCloneSender_keeps {senderId : ℤ} :
    Post (isCloneSender account obj senderId) s (fun _ => True) fun _ s' => s' = s := by
  refine .bind (.read ?_)
  split
  · exact .ret rfl
  · exact .read rfl
  · exact .throw

theorem authorOf_keeps :
    Post (authorOf account obj) s (fun _ => True) fun author s' => s' = s ∧
      (authorOf account obj).answer s = .ok author := by
  refine ⟨fun _ _ => trivial, fun author s' heq => ⟨?_, ?_⟩⟩
  · have h : Post (authorOf account obj) s (fun _ => True) fun _ s' => s' = s := by
      unfold authorOf
      split
      · exact .ret rfl
      · refine .bind (.read (.bind (isCloneSender_keeps.mono ?_)))
        rintro _ _ rfl
        exact .ret rfl
    exact h.2 author s' heq
  · unfold Txn.answer
    rw [heq]
    rfl

/-! ## The report as a whole -/

/-- What a report about a group leaves, with the number of members that answer. A copied item
changes nothing but the row of its group. -/
inductive Handled (out : Outside) (obj : AiGroupEvent) (pk : GroupId) (group : AiGroup) (author : Author)
    (s : ControlPlane) : ℕ → ControlPlane → Prop
  | known (hhas : group.has obj.messageId = true) : Handled out obj pk group author s 0 s
  | recorded {n : ℕ} {s' : ControlPlane} (hnew : group.has obj.messageId = false)
      (hgroups : s'.groups = s.groups.modify pk fun g =>
        g.record (obj.entry author out.now) author out.now)
      (hanswered : 0 < n → author ≠ .cloned ∧ (author = .ours →
        chainAllowed group (group.recentMessages ++ [obj.entry author out.now]) = true))
      (hsilent : author = .cloned → ∃ groups, s' = { s with groups }) :
      Handled out obj pk group author s n s'

theorem handleGroupEvent_handled :
    Post (handleGroupEvent out dice account obj pk group) s (fun _ => True) fun n s' =>
      ∃ author, (authorOf account obj).answer s = .ok author ∧
        Handled out obj pk group author s n s' := by
  refine .bind (authorOf_keeps.mono ?_)
  rintro author _ ⟨rfl, hauthor⟩
  split
  · rename_i hhas
    exact .ret ⟨author, hauthor, .known hhas⟩
  · rename_i hnew
    rw [Bool.not_eq_true] at hnew
    refine .bind (.write ?_)
    split
    · exact .ret ⟨author, hauthor, .recorded hnew rfl (fun h => absurd h (Nat.lt_irrefl 0)) fun _ => ⟨_, rfl⟩⟩
    · rename_i hmay
      simp only [Bool.or_eq_true, not_or, decide_eq_true_eq] at hmay
      split
      · exact .ret ⟨author, hauthor, .recorded hnew rfl (fun h => absurd h (Nat.lt_irrefl 0))
            fun _ => ⟨_, rfl⟩⟩
      · rename_i hchain
        refine (answerMessage_sameCast _).mono fun n s' hcast => ?_
        refine ⟨author, hauthor, .recorded hnew hcast.groups (fun _ => ⟨hmay.2, fun hours => ?_⟩)
          fun hcloned => absurd hcloned hmay.2⟩
        simpa [hours] using hchain

def GroupReport.About (r : GroupReport) (s : ControlPlane) (account : TelegramAccount) (pk : GroupId)
    (group : AiGroup) : Prop :=
  r.group s = some (account, pk, group)

theorem GroupReport.About.row {r : GroupReport} (h : r.About s account pk group) :
    s.group pk = some group := by
  obtain ⟨account', -, h⟩ := Option.bind_eq_some_iff.mp h
  obtain ⟨⟨pk', group'⟩, hfound, heq⟩ := Option.map_eq_some_iff.mp h
  cases heq
  obtain ⟨hrow, hq⟩ := Slots.mem_where.mp (List.mem_of_find?_eq_some hfound)
  simp only [Bool.and_eq_true, Bool.not_eq_true'] at hq
  exact ControlPlane.group_eq_some.mpr ⟨hrow, hq.1.1⟩

/-- A report that is answered is about no group and changes nothing, or it is about one. -/
theorem GroupReport.handle_handled {r : GroupReport} (h : (r.handle s).2 = .ok (n, s')) :
    (r.group s = none ∧ n = 0 ∧ s' = s) ∨ ∃ account pk group author, r.About s account pk group ∧
      (authorOf account r.obj).answer s = .ok author ∧ Handled r.out r.obj pk group author s n s' := by
  have hpost : Post r.handle s (fun _ => True) fun n s' => (r.group s = none ∧ n = 0 ∧ s' = s) ∨
      ∃ account pk group author, r.About s account pk group ∧
        (authorOf account r.obj).answer s = .ok author ∧ Handled r.out r.obj pk group author s n s' := by
    refine .bind (.read ?_)
    cases haccount : s.dir.account r.obj.apiRowId with
    | none => exact .bind .throw
    | some account =>
      refine .bind (.ret (.bind (.read ?_)))
      cases hgroup : s.findGroup account r.obj with
      | none =>
        refine .ret (.inl ⟨?_, rfl, rfl⟩)
        unfold GroupReport.group
        rw [haccount]
        simp [hgroup]
      | some found =>
        obtain ⟨pk, group⟩ := found
        refine handleGroupEvent_handled.mono fun n s' hhandled => .inr ?_
        obtain ⟨author, hauthor, hhandled⟩ := hhandled
        refine ⟨account, pk, group, author, ?_, hauthor, hhandled⟩
        unfold GroupReport.About GroupReport.group
        rw [haccount]
        simp [hgroup]
  exact hpost.2 n s' h

theorem group_of_recorded {entry : Json} {now : Time}
    (hgroups : s'.groups = s.groups.modify pk fun g => g.record entry author now) :
    s'.group pk = (s.group pk).map fun g => g.record entry author now := by
  unfold ControlPlane.group
  rw [hgroups, Slots.row?_modify_self]
  cases s.groups.row? pk with
  | none => rfl
  | some g =>
    simp only [Option.map_some]
    cases hdel : g.deleted <;> simp [Option.filter, AiGroup.record, hdel]

theorem Handled.others {pk' : GroupId} (h : Handled out obj pk group author s n s') (hne : pk' ≠ pk) :
    s'.group pk' = s.group pk' := by
  cases h with
  | known hhas => rfl
  | recorded hnew hgroups hanswered hsilent =>
    unfold ControlPlane.group
    rw [hgroups, Slots.row?_modify, if_neg hne.symm]

end TgPlatform
