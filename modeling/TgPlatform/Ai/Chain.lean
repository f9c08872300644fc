import TgPlatform.Ai.GroupTalk
import TgPlatform.Lib.Machine

/-! # Conversations between accounts of the platform

Members of a group may answer one another for as many rounds as the group
allows. The rounds are counted in the cache, from its end to the first message
that is not from a member. A copied item is such a message, so it gives the
members all their rounds back.
-/

namespace TgPlatform

open Txn

/-! ## The chain at the end of a cache -/

section Chain

variable {out : Outside} {obj : AiGroupEvent} {author : Author} {recent : List Json} {now : Time}

theorem chainLength_append (m : Json) : chainLength (recent ++ [m]) =
    if (m.field "ours" .null).truthy then chainLength recent + 1 else 0 := by
  unfold chainLength
  rw [List.reverse_append, List.reverse_singleton, List.singleton_append, List.takeWhile_cons]
  split <;> rfl

/-- What falls out of the cache cuts the chain to the length of the cache. -/
theorem chainLength_lastItems {k : ℕ} (hk : k ≠ 0) : chainLength (lastItems k recent) =
    min k (chainLength recent) := by
  unfold chainLength lastItems
  rw [if_neg hk, List.reverse_drop, ← List.take_takeWhile, List.length_take]
  have hle : (recent.reverse.takeWhile fun m => (m.field "ours" .null).truthy).length ≤
      recent.reverse.length := (List.takeWhile_prefix _).length_le
  rw [List.length_reverse] at hle
  omega

theorem ours_entry : ((obj.entry author now).field "ours" .null).truthy = decide (author = .ours) := by
  unfold AiGroupEvent.entry
  simp [Json.field, List.lookup_cons, Json.truthy]

theorem chainLength_record {group : AiGroup} :
    chainLength (group.record (obj.entry author now) author now).recentMessages =
      if author = .ours then min 100 (chainLength group.recentMessages + 1) else 0 := by
  unfold AiGroup.record
  rw [chainLength_lastItems (by decide), chainLength_append, ours_entry]
  cases author <;> simp

end Chain

/-! ## The talk of a group -/

/-- A request that leaves what a group's row keeps as it is, or deletes the group. -/
structure OtherRequest {β : Type} (pk : GroupId) (kept : AiGroup → β) where
  write : ControlPlane → ControlPlane
  keeps : ∀ s g', (write s).group pk = some g' → ∃ g, s.group pk = some g ∧ kept g' = kept g

def AiGroup.talk (group : AiGroup) : List Json × ℤ := (group.recentMessages, group.botChainMax)

inductive TalkAct (pk : GroupId)
  | report (r : GroupReport)
  | elsewhere (request : OtherRequest pk AiGroup.talk)

/-- The platform, with the number of messages of members that were answered since somebody else spoke. -/
structure Talk where
  plane : ControlPlane
  spent : ℕ

def GroupReport.authorIn (r : GroupReport) (s : ControlPlane) (pk : GroupId) : Option Author :=
  (r.group s).bind fun x =>
    if x.2.1 = pk then ((authorOf x.1 r.obj).answer s).toOption else none

/-- The number after a report that lets `n` members answer. -/
def Talk.spentAfter (x : Talk) (author : Option Author) (n : ℕ) : ℕ :=
  match author with
  | some .ours => if 0 < n then x.spent + 1 else x.spent
  | some .outside => 0
  | _ => x.spent

/-- A report that fails is rolled back, and is no step. -/
def talkStep (pk : GroupId) (x : Talk) : TalkAct pk → Option Talk
  | .elsewhere request => some { x with plane := request.write x.plane }
  | .report r =>
    match (r.handle x.plane).2 with
    | .ok (n, s') => some ⟨s', x.spentAfter (r.authorIn x.plane pk) n⟩
    | .error _ => none

/-- A copied item is reported again, or it comes while no chain is going on. -/
def SparesChain (pk : GroupId) (x : Talk) : TalkAct pk → Prop
  | .elsewhere _ => True
  | .report r => r.authorIn x.plane pk = some .cloned → ∀ g, x.plane.group pk = some g →
    g.has r.obj.messageId = true ∨ chainLength g.recentMessages = 0

/-- A copied item is answered by nobody, and changes nothing but the rows of the groups. -/
def CopiesSilent (pk : GroupId) (x : Talk) : TalkAct pk → Talk → Prop
  | .elsewhere _, _ => True
  | .report r, x' => r.authorIn x.plane pk = some .cloned →
    (r.handle x.plane).2 = .ok (0, x'.plane) ∧ ∃ groups, x'.plane = { x.plane with groups }

/-- As many messages were answered as the chain is long, at most, and no more than the group allows. -/
structure Bounded (pk : GroupId) (most : ℤ) (x : Talk) : Prop where
  chain : ∀ g, x.plane.group pk = some g → g.botChainMax = most ∧ x.spent ≤ chainLength g.recentMessages
  spent : x.spent ≤ most.toNat

variable {pk : GroupId} {most : ℤ} {x x' : Talk}

theorem Bounded.elsewhere {request : OtherRequest pk AiGroup.talk} (h : Bounded pk most x) :
    Bounded pk most { x with plane := request.write x.plane } := by
  refine ⟨fun g' hg' => ?_, h.spent⟩
  obtain ⟨g, hg, hkept⟩ := request.keeps x.plane g' hg'
  obtain ⟨hmax, hchain⟩ := h.chain g hg
  obtain ⟨hrecent, hbound⟩ := Prod.mk.inj hkept
  dsimp only
  rw [hrecent, hbound]
  exact ⟨hmax, hchain⟩

theorem Bounded.aside {s' : ControlPlane} (h : Bounded pk most x)
    (hrow : s'.group pk = x.plane.group pk) :
    Bounded pk most ⟨s', x.spent⟩ :=
  ⟨fun g hg => h.chain g (hrow ▸ hg), h.spent⟩

theorem authorIn_of_about {r : GroupReport} {account : TelegramAccount} {group : AiGroup}
    {author : Author} {s : ControlPlane} (habout : r.About s account pk group)
    (hauthor : (authorOf account r.obj).answer s = .ok author) : r.authorIn s pk = some author := by
  unfold GroupReport.authorIn
  rw [habout]
  simp [hauthor, Except.toOption]

theorem spentAfter_le {author : Option Author} {n : ℕ} (h : 0 < n → author ≠ some .ours) :
    x.spentAfter author n ≤ x.spent := by
  unfold Talk.spentAfter
  split
  · split
    · rename_i hn
      exact absurd rfl (h hn)
    · exact Nat.le_refl _
  · exact Nat.zero_le _
  · exact Nat.le_refl _

theorem Bounded.recorded {r : GroupReport} {group : AiGroup} {author : Author} {s' : ControlPlane}
    {n : ℕ}
    (h : Bounded pk most x) (hmost : most ≤ 100) (hgroup : x.plane.group pk = some group)
    (hrow : s'.group pk = some (group.record (r.obj.entry author r.out.now) author r.out.now))
    (hcloned : author = .cloned → chainLength group.recentMessages = 0)
    (hanswered : 0 < n → author = .ours →
      chainAllowed group (group.recentMessages ++ [r.obj.entry author r.out.now]) = true) :
    Bounded pk most ⟨s', x.spentAfter (some author) n⟩ := by
  obtain ⟨hmax, hchain⟩ := h.chain group hgroup
  have hspent := h.spent
  have hbound : x.spentAfter (some author) n ≤ most.toNat ∧ x.spentAfter (some author) n ≤
      if author = .ours then min 100 (chainLength group.recentMessages + 1) else 0 := by
    cases author with
    | ours =>
      change (if 0 < n then x.spent + 1 else x.spent) ≤ _ ∧ (if 0 < n then x.spent + 1 else x.spent) ≤ _
      rw [if_pos rfl]
      split
      · rename_i hn
        have hallowed := hanswered hn rfl
        unfold chainAllowed at hallowed
        rw [chainLength_append, ours_entry] at hallowed
        simp only [decide_true, if_true, Bool.and_eq_true, decide_eq_true_eq] at hallowed
        omega
      · omega
    | cloned =>
      have hnone := hcloned rfl
      unfold Talk.spentAfter
      simp only [reduceCtorEq, if_false]
      omega
    | outside =>
      unfold Talk.spentAfter
      simp
  refine ⟨fun g hg => ?_, hbound.1⟩
  rw [hrow] at hg
  cases hg
  refine ⟨hmax, ?_⟩
  rw [chainLength_record]
  exact hbound.2

theorem Bounded.report {r : GroupReport} {s' : ControlPlane} {n : ℕ} (h : Bounded pk most x)
    (hmost : most ≤ 100) (hspares : SparesChain pk x (.report r))
    (hhandle : (r.handle x.plane).2 = .ok (n, s')) :
    Bounded pk most ⟨s', x.spentAfter (r.authorIn x.plane pk) n⟩ := by
  rcases GroupReport.handle_handled hhandle with ⟨hnone, rfl, rfl⟩ |
    ⟨account, pk', group, author, habout, hauthor, hhandled⟩
  · unfold GroupReport.authorIn
    rw [hnone]
    exact h.aside rfl
  · by_cases hpk : pk' = pk
    · subst hpk
      have hrow := habout.row
      rw [authorIn_of_about habout hauthor]
      cases hhandled with
      | known hhas =>
        have hle : x.spentAfter (some author) 0 ≤ x.spent := spentAfter_le nofun
        exact ⟨fun g hg => ⟨(h.chain g hg).1, hle.trans (h.chain g hg).2⟩, hle.trans h.spent⟩
      | recorded hnew hgroups hanswered hsilent =>
        have hrecorded := group_of_recorded hgroups
        rw [hrow] at hrecorded
        refine h.recorded hmost hrow hrecorded (fun hcloned => ?_) fun hn hours => (hanswered hn).2 hours
        have hauthorIn := authorIn_of_about habout hauthor
        rw [hcloned] at hauthorIn
        rcases hspares hauthorIn group hrow with hhas | hzero
        · rw [hnew] at hhas
          cases hhas
        · exact hzero
    · have hnot : r.authorIn x.plane pk = none := by
        unfold GroupReport.authorIn
        rw [habout]
        exact if_neg hpk
      rw [hnot]
      exact h.aside (hhandled.others fun heq => hpk heq.symm)

theorem copiesSilent_report {r : GroupReport} {s' : ControlPlane} {n : ℕ}
    (hhandle : (r.handle x.plane).2 = .ok (n, s')) (hcloned : r.authorIn x.plane pk = some .cloned) :
    n = 0 ∧ ∃ groups, s' = { x.plane with groups } := by
  rcases GroupReport.handle_handled hhandle with ⟨hnone, rfl, rfl⟩ |
    ⟨account, pk', group, author, habout, hauthor, hhandled⟩
  · exact ⟨rfl, _, rfl⟩
  · have hauthorIn := authorIn_of_about habout hauthor
    obtain rfl : pk' = pk := by
      by_contra hne
      unfold GroupReport.authorIn at hcloned
      rw [habout] at hcloned
      simp [hne] at hcloned
    obtain rfl : author = .cloned := Option.some.inj (hauthorIn.symm.trans hcloned)
    cases hhandled with
    | known hhas => exact ⟨rfl, _, rfl⟩
    | recorded hnew hgroups hanswered hsilent =>
      refine ⟨?_, hsilent rfl⟩
      by_contra hn
      exact (hanswered (Nat.pos_of_ne_zero hn)).1 rfl

theorem copiesSilent_step {a : TalkAct pk} (h : talkStep pk x a = some x') : CopiesSilent pk x a x' := by
  cases a with
  | elsewhere request => trivial
  | report r =>
    simp only [talkStep] at h
    split at h <;> cases h
    rename_i n s' hhandle
    intro hcloned
    obtain ⟨rfl, hgroups⟩ := copiesSilent_report hhandle hcloned
    exact ⟨hhandle, hgroups⟩

/-! ## Whole conversations -/

/-- Where no copied item cuts a chain, members are answered no more often than their group allows
until somebody else speaks, and copied items are answered by nobody. The schema lets a group allow
ten rounds, and the cache keeps a hundred messages. -/
theorem chains_end (s : ControlPlane) {g : AiGroup} (hgroup : s.group pk = some g)
    (hmost : g.botChainMax ≤ 100) (as : List (TalkAct pk))
    (hspares : Machine.Always (talkStep pk) (fun x a _ => SparesChain pk x a) ⟨s, 0⟩ as) :
    Machine.Always (talkStep pk) (fun x a x' => x'.spent ≤ g.botChainMax.toNat ∧
      CopiesSilent pk x a x') ⟨s, 0⟩ as := by
  have hstart : Bounded pk g.botChainMax ⟨s, 0⟩ := by
    refine ⟨fun g' hg' => ?_, Nat.zero_le _⟩
    rw [hgroup] at hg'
    cases hg'
    exact ⟨rfl, Nat.zero_le _⟩
  have hstep : ∀ x a x', talkStep pk x a = some x' → SparesChain pk x a → Bounded pk g.botChainMax x →
      Bounded pk g.botChainMax x' := by
    intro x a x' hstep hguard h
    cases a with
    | elsewhere request =>
      cases hstep
      exact h.elsewhere
    | report r =>
      simp only [talkStep] at hstep
      split at hstep <;> cases hstep
      rename_i n s' hhandle
      exact h.report hmost hguard hhandle
  apply hspares.of_invariant (I := Bounded pk g.botChainMax)
  · exact fun x a x' ha hguard h => hstep x a x' ha hguard h
  · exact fun x a x' ha hguard h => ⟨(hstep x a x' ha hguard h).spent, copiesSilent_step ha⟩
  · exact hstart

/-! ## One round -/

def oneRoundGroup : AiGroup where
  tenantId := 1
  projectId := 1
  name := "g"
  chatId := -100
  status := "active"
  botChainMax := 1

def talkativePair : ControlPlane :=
  let account (id : ℕ) (uid : ℤ) : TelegramAccount := {
    id, uuid := toString id, tenantId := 1, projectId := 1, telegramUserId := some uid
    desiredStatus := "running" }
  let member (uuid : String) (accountId : ℕ) : AiBinding := {
    uuid, tenantId := 1, projectId := 1, accountId, botUuid := "", baseUrl := ""
    inboundSecretRef := "", outboundSecretRef := "", engine := "openai", groupId := some 0 }
  let dir : Directory := { Directory.oneProject with
    accounts := [account 1 11, account 2 12, account 3 13]
    account_ids := by decide, account_uuids := by decide }
  { ControlPlane.ofDirectory dir with
    groups := ⟨[some oneRoundGroup]⟩
    bindings := ⟨[some (member "a" 1), some (member "b" 2)]⟩
    rules := ⟨[some {
      uuid := "r", tenantId := 1, projectId := 1, accountId := 3, name := "r", status := .published }]⟩
    targets := ⟨[some {
      ruleId := 0, tenantId := 1, projectId := 1, routeId := "", sourceChatId := -200
      targetChatId := -100 }]⟩ }

def willing : Dice where
  roll _ := 1
  shuffle _ l := l
  shuffle_perm _ _ := .refl _
  want least _ := least
  starting b := { ControlPlane.silence with uuid := fun i => toString b ++ "-" ++ toString i }

def reportOf (messageId : ℤ) (sender : ℤ) : GroupReport where
  out := ControlPlane.silence
  dice := willing
  obj := { apiRowId := 3, chatId := -100, messageId, text := "hi", senderId := some sender }
  notPrivate := nofun

def copiedBefore : List (TalkAct 0) :=
  [.report (reportOf 1 13), .report (reportOf 2 11), .report (reportOf 3 12)]

def sparesChain (x : Talk) : TalkAct 0 → Bool
  | .elsewhere _ => true
  | .report r => r.authorIn x.plane 0 ≠ some .cloned ||
    (x.plane.group 0).all fun g => chainLength g.recentMessages = 0

theorem one_round_ends :
    (Machine.run (talkStep 0) ⟨talkativePair, 0⟩ copiedBefore).map
        (fun x => (x.spent, x.plane.runs.size)) = some (1, 1) ∧
      Machine.Always (talkStep 0) (fun x a x' => x'.spent ≤ oneRoundGroup.botChainMax.toNat ∧
        CopiesSilent 0 x a x') ⟨talkativePair, 0⟩ copiedBefore := by
  constructor
  · decide +kernel
  · apply chains_end talkativePair rfl (by decide)
    apply Machine.always_of_checkRun (c := fun (x : Talk) (a : TalkAct 0) _ => sparesChain x a)
    · intro x a x' hspares
      cases a with
      | elsewhere request => trivial
      | report r =>
        intro hcloned g hg
        simp only [sparesChain, hcloned, hg, Option.all_some, Bool.or_eq_true,
          decide_eq_true_eq] at hspares
        exact hspares.imp_left fun hne => absurd rfl hne
    · decide +kernel

/-- A copied item between two messages of members gives them another round. -/
theorem copied_item_renews_chain : ¬ ∀ (pk : GroupId) (s : ControlPlane) (g : AiGroup),
    s.group pk = some g → g.botChainMax ≤ 100 → ∀ as : List (TalkAct pk),
      Machine.Always (talkStep pk) (fun x a x' => x'.spent ≤ g.botChainMax.toNat ∧
        CopiesSilent pk x a x') ⟨s, 0⟩ as := by
  intro h
  have hobserved : ((Machine.run (talkStep 0) ⟨talkativePair, 0⟩
      [.report (reportOf 1 11), .report (reportOf 2 13)]).bind fun x =>
        (talkStep 0 x (.report (reportOf 3 12))).map fun y => y.spent) = some 2 := by
    decide +kernel
  obtain ⟨x, y, hrun, hstep, hspent⟩ :=
    Machine.exists_of_observed (f := fun _ (y : Talk) => y.spent) hobserved
  refine Machine.not_always_of_step hrun hstep ?_ (h 0 talkativePair oneRoundGroup rfl (by decide) _)
  rintro ⟨hbound, -⟩
  rw [hspent] at hbound
  exact absurd hbound (by decide)

end TgPlatform
