import TgPlatform.Ai.GroupEvents

/-! # Who speaks

The members that may answer a message fall into three buckets: those that it
calls, those that their dice have woken, and the other willing ones. The pace of
the group bounds how many of them answer, and all that are called do.
-/

namespace TgPlatform

/-- Dice that keep to the range that they are asked for. -/
structure FairDice extends Dice where
  want_mem : ∀ low high, low ≤ high → low ≤ want low high ∧ want low high ≤ high

/-- The member is not generating, its last run is long enough ago, and its hour is not used up. -/
structure MemberStat.Rested (st : MemberStat) (group : AiGroup) (now : Time) : Prop where
  idle : st.activeN = 0
  cooled : group.accountCooldownS ≠ 0 → st.lastAt ≤ now - seconds group.accountCooldownS
  belowLimit : group.accountHourlyMax ≠ 0 → st.hourN < group.accountHourlyMax

theorem speakerBlocked_eq_false {stat : Option MemberStat} {group : AiGroup} {now : Time} :
    speakerBlocked stat group now = false ↔ ∀ st, stat = some st → st.Rested group now := by
  cases stat with
  | none => exact iff_of_true rfl nofun
  | some st =>
    simp only [speakerBlocked, Bool.or_eq_false_iff, Bool.and_eq_false_iff, decide_eq_false_iff_not,
      not_lt, not_le, ne_eq, not_not, Option.some.injEq, forall_eq']
    constructor
    · rintro ⟨⟨hidle, hcooled⟩, hlimit⟩
      exact ⟨hidle, fun h => hcooled.resolve_left h, fun h => hlimit.resolve_left h⟩
    · rintro ⟨hidle, hcooled, hlimit⟩
      exact ⟨⟨hidle, or_iff_not_imp_left.mpr hcooled⟩, or_iff_not_imp_left.mpr hlimit⟩

theorem filter_filterMap_pairs {α β : Type*} {f : α → Option β} {q : α → β → Bool}
    {p : α × β → Bool} (l : List α) :
    ((l.filterMap fun x => ((f x).filter (q x)).map fun y => (x, y)).filter p).map Prod.fst =
      l.filter fun x => (f x).any fun y => q x y && p (x, y) := by
  induction l with
  | nil => rfl
  | cons x l ih =>
    rw [List.filterMap_cons, List.filter_cons]
    cases hf : f x with
    | none => exact ih
    | some y =>
      rw [Option.filter_some, Option.any_some]
      cases hq : q x y <;> cases hp : p (x, y) <;> simp [hp, ih]

/-- The message has the account's name in it, whatever the case, or replies to what the account has
written, as far as the cache says. -/
inductive Addresses (out : Outside) (obj : AiGroupEvent) (recent : List Json) (a : TelegramAccount) : Prop
  | named {username : String} : a.username = some username → username ≠ "" →
      (out.lower ("@" ++ username)).toList <:+: (out.lower obj.text).toList → Addresses out obj recent a
  | answered {mid uid : ℤ} {m : Json} : obj.replyToMessageId = some mid → mid ≠ 0 →
      recent.find? (fun m => sameMid (m.field "mid" .null) (.int mid)) = some m →
      m.field "sid" .null = .int uid → a.telegramUserId = some uid → Addresses out obj recent a

theorem repliedSid_eq_int {obj : AiGroupEvent} {recent : List Json} {sid : ℤ} :
    obj.repliedSid recent = .int sid ↔ ∃ mid m, obj.replyToMessageId = some mid ∧ mid ≠ 0 ∧
      recent.find? (fun m => sameMid (m.field "mid" .null) (.int mid)) = some m ∧
        m.field "sid" .null = .int sid := by
  unfold AiGroupEvent.repliedSid
  cases hreply : obj.replyToMessageId.filter fun mid => mid ≠ 0 with
  | none =>
    refine iff_of_false nofun ?_
    rintro ⟨mid, m, hmid, hne, -⟩
    rw [hmid, Option.filter_some, decide_eq_true hne] at hreply
    cases hreply
  | some mid =>
    obtain ⟨hmid, hne⟩ := Option.filter_eq_some_iff.mp hreply
    cases hfind : recent.find? fun m => sameMid (m.field "mid" .null) (.int mid) with
    | none => simp [hmid, hfind]
    | some m => simp [hmid, hfind, of_decide_eq_true hne]

theorem isCalled_iff {out : Outside} {obj : AiGroupEvent} {recent : List Json} {a : TelegramAccount} :
    isCalled out obj recent a = true ↔ Addresses out obj recent a := by
  unfold isCalled
  dsimp only
  rw [Bool.or_eq_true, Option.any_eq_true]
  constructor
  · rintro (⟨username, hname, htext⟩ | hreplied)
    · obtain ⟨hname, hne⟩ := truthy_eq_some.mp hname
      exact .named hname hne (of_decide_eq_true htext)
    · split at hreplied
      · rename_i sid uid hsid huid
        obtain ⟨mid, m, hmid, hne, hfind, hfield⟩ := repliedSid_eq_int.mp hsid
        exact .answered hmid hne hfind (of_decide_eq_true hreplied ▸ hfield) huid
      · cases hreplied
  · rintro (⟨hname, hne, htext⟩ | ⟨hmid, hne, hfind, hfield, huid⟩)
    · exact .inl ⟨_, truthy_eq_some.mpr ⟨hname, hne⟩, decide_eq_true htext⟩
    · rw [repliedSid_eq_int.mpr ⟨_, _, hmid, hne, hfind, hfield⟩, huid]
      exact .inr (decide_eq_true rfl)

/-- A name is found in the text that has it letter by letter, but for the capital sigma. -/
theorem addresses_of_mention {out : Outside} {obj : AiGroupEvent} {recent : List Json}
    {a : TelegramAccount} {username : String} (hname : a.username = some username) (hne : username ≠ "")
    (htext : ("@" ++ username).toList <:+: obj.text.toList) (hsigma : 'Σ' ∉ obj.text.toList) :
    Addresses out obj recent a := by
  obtain ⟨before, after, hsplit⟩ := htext
  have hmention : 'Σ' ∉ ("@" ++ username).toList := fun h => hsigma <| hsplit ▸
    List.mem_append_left _ (List.mem_append_right _ h)
  refine .named hname hne ⟨out.casing.letters before, out.casing.letters after, ?_⟩
  unfold Outside.lower
  rw [CaseTables.lower_toList hsigma, CaseTables.lower_toList hmention, ← hsplit]
  simp only [CaseTables.letters, List.flatMap_append]

namespace ControlPlane

variable (s : ControlPlane) (out : Outside) (group : AiGroup) (obj : AiGroupEvent) (recent : List Json)
  (b : BindingId × AiBinding)

def canSpeak : Bool :=
  (s.accountRow b.2.accountId).any fun a => !a.deleted && a.desiredStatus = "running" &&
    (b.2.memberState.all fun state => state ∉ deadMemberStates) &&
      !speakerBlocked (s.memberStat group out.now b.1) group out.now

def called : Bool := (s.accountRow b.2.accountId).any fun a => isCalled out obj recent a

def isSender : Bool := (s.accountRow b.2.accountId).any fun a => a.telegramUserId = obj.senderId

def mayAnswer (isOurs : Bool) : Bool := s.canSpeak out group b && !(isOurs && s.isSender obj b)

variable {s out group obj recent b} {members : List (BindingId × AiBinding)} {isOurs : Bool}

theorem canSpeak_iff : s.canSpeak out group b = true ↔ ∃ a, s.accountRow b.2.accountId = some a ∧
    a.deleted = false ∧ a.desiredStatus = "running" ∧
      (∀ state, b.2.memberState = some state → state ∉ deadMemberStates) ∧
        ∀ st, s.memberStat group out.now b.1 = some st → st.Rested group out.now := by
  unfold canSpeak
  simp only [Option.any_eq_true, Bool.and_eq_true, Bool.not_eq_true', decide_eq_true_eq,
    Option.all_eq_true, speakerBlocked_eq_false, and_assoc]

theorem called_iff : s.called out obj recent b = true ↔
    ∃ a, s.accountRow b.2.accountId = some a ∧ Addresses out obj recent a := by
  simp only [called, Option.any_eq_true, isCalled_iff]

theorem audience_filter (p : (BindingId × AiBinding) × TelegramAccount → Bool) :
    ((s.audience group members obj isOurs out.now).filter p).map Prod.fst =
      members.filter fun b => s.mayAnswer out group obj b isOurs &&
        (s.accountRow b.2.accountId).any fun a => p (b, a) := by
  unfold audience
  rw [filter_filterMap_pairs]
  refine List.filter_congr fun b _ => ?_
  unfold mayAnswer canSpeak isSender
  cases s.accountRow b.2.accountId with
  | none => rfl
  | some a =>
    simp only [Option.any_some]
    cases a.deleted <;> cases isOurs <;> cases decide (a.telegramUserId = obj.senderId) <;>
      simp [Bool.and_assoc]

variable (s out group obj recent) in
/-- The members that may answer and are called. -/
def forced (members : List (BindingId × AiBinding)) (isOurs : Bool) : List (BindingId × AiBinding) :=
  members.filter fun b => s.mayAnswer out group obj b isOurs && s.called out obj recent b

variable (s out group obj recent) in
/-- The other members that may answer and want to. -/
def willing (members : List (BindingId × AiBinding)) (isOurs : Bool) : List (BindingId × AiBinding) :=
  members.filter fun b => s.mayAnswer out group obj b isOurs && !s.called out obj recent b &&
    0 < b.2.randomProb

theorem forced_eq :
    ((s.audience group members obj isOurs out.now).filter fun x =>
      isCalled out obj recent x.2).map Prod.fst = s.forced out group obj recent members isOurs :=
  audience_filter _

theorem willing_eq :
    ((s.audience group members obj isOurs out.now).filter fun x =>
      !isCalled out obj recent x.2 && 0 < x.1.2.randomProb).map Prod.fst =
        s.willing out group obj recent members isOurs := by
  rw [audience_filter]
  refine List.filter_congr fun b _ => ?_
  unfold mayAnswer canSpeak called
  cases s.accountRow b.2.accountId with
  | none => rfl
  | some a => simp only [Option.any_some, Bool.and_assoc]

theorem pickSpeakers_cases (dice : Dice) : ∃ activated rest,
    (activated ++ rest).Perm (s.willing out group obj recent members isOurs) ∧
      pickSpeakers out dice s group members obj recent isOurs =
        let forced := s.forced out group obj recent members isOurs
        if !inActiveHours group out.now then
          if group.mentionBypassHours && !isOurs then forced else []
        else if isOurs then (forced ++ activated ++ rest).take 1
        else
          let want := dice.want (max 1 group.replyMin) (max (max 1 group.replyMin) group.replyMax)
          let chosen := forced ++ activated.take (want - forced.length).toNat
          if chosen.length < group.replyMin then
            chosen ++ rest.take (group.replyMin - chosen.length).toNat
          else chosen := by
  let willing := s.willing out group obj recent members isOurs
  refine ⟨dice.shuffle 0 (willing.filter fun b => dice.roll b.1 ≤ b.2.randomProb),
    dice.shuffle 1 (willing.filter fun b => b.2.randomProb < dice.roll b.1), ?_, ?_⟩
  · refine ((dice.shuffle_perm 0 _).append (dice.shuffle_perm 1 _)).trans ?_
    have hnot : ∀ b : BindingId × AiBinding,
        decide (b.2.randomProb < dice.roll b.1) = !decide (dice.roll b.1 ≤ b.2.randomProb) := by
      intro b
      rw [← decide_not]
      exact decide_eq_decide.mpr not_le.symm
    simp only [hnot]
    exact List.filter_append_perm _ _
  · unfold pickSpeakers
    dsimp only
    rw [forced_eq, willing_eq]

theorem forced_append_willing_perm :
    (s.forced out group obj recent members isOurs ++ s.willing out group obj recent members isOurs).Perm
      (members.filter fun b => s.mayAnswer out group obj b isOurs &&
        (s.called out obj recent b || 0 < b.2.randomProb)) := by
  have hforced : s.forced out group obj recent members isOurs =
      (members.filter fun b => s.mayAnswer out group obj b isOurs &&
        (s.called out obj recent b || 0 < b.2.randomProb)).filter fun b =>
          s.called out obj recent b := by
    rw [List.filter_filter]
    refine List.filter_congr fun b _ => ?_
    cases s.mayAnswer out group obj b isOurs <;> cases s.called out obj recent b <;> simp
  have hwilling : s.willing out group obj recent members isOurs =
      (members.filter fun b => s.mayAnswer out group obj b isOurs &&
        (s.called out obj recent b || 0 < b.2.randomProb)).filter fun b =>
          !s.called out obj recent b := by
    rw [List.filter_filter]
    refine List.filter_congr fun b _ => ?_
    cases s.mayAnswer out group obj b isOurs <;> cases s.called out obj recent b <;> simp
  rw [hforced, hwilling]
  exact List.filter_append_perm _ _

end ControlPlane

/-- What the choice of the speakers owes to the group's settings. -/
structure WellPicked (s : ControlPlane) (out : Outside) (group : AiGroup)
    (members : List (BindingId × AiBinding)) (obj : AiGroupEvent) (recent : List Json) (isOurs : Bool)
    (chosen : List (BindingId × AiBinding)) : Prop where
  once : chosen.Subperm members
  distinct : (members.map Prod.fst).Nodup → (chosen.map Prod.fst).Nodup
  eligible : ∀ b ∈ chosen, ∃ a, s.accountRow b.2.accountId = some a ∧ a.deleted = false ∧
    a.desiredStatus = "running" ∧
      (∀ state, b.2.memberState = some state → state ∉ deadMemberStates) ∧
        ∀ st, s.memberStat group out.now b.1 = some st → st.Rested group out.now
  quiet : ∀ b ∈ chosen, b.2.randomProb ≤ 0 → s.called out obj recent b = true
  calls : inActiveHours group out.now = true → isOurs = false → ∀ b ∈ members,
    s.canSpeak out group b = true → s.called out obj recent b = true → b ∈ chosen
  enough : inActiveHours group out.now = true → isOurs = false →
    min group.replyMin (members.filter fun b => s.canSpeak out group b &&
      (s.called out obj recent b || 0 < b.2.randomProb)).length ≤ chosen.length
  few : inActiveHours group out.now = true → isOurs = false →
    chosen.length ≤ max ((members.filter fun b => s.canSpeak out group b &&
      s.called out obj recent b).length : ℤ) (max (max 1 group.replyMin) group.replyMax)
  own : isOurs = true → chosen.length ≤ 1 ∧ ∀ b ∈ chosen, s.isSender obj b = false
  offHours : inActiveHours group out.now = false → ∀ b ∈ chosen,
    s.called out obj recent b = true ∧ group.mentionBypassHours = true ∧ isOurs = false

section Picking

variable {s : ControlPlane} {out : Outside} {group : AiGroup} {obj : AiGroupEvent}
  {recent : List Json} {members : List (BindingId × AiBinding)} {isOurs : Bool}

open ControlPlane

theorem mem_forced {b : BindingId × AiBinding} :
    b ∈ s.forced out group obj recent members isOurs ↔
      b ∈ members ∧ s.mayAnswer out group obj b isOurs = true ∧ s.called out obj recent b = true := by
  simp [ControlPlane.forced]

theorem mayAnswer_outside {b : BindingId × AiBinding} :
    s.mayAnswer out group obj b false = s.canSpeak out group b := by
  simp [mayAnswer]

/-- The choice draws on the called and the willing members, none of them twice. -/
theorem pickSpeakers_subperm (dice : Dice) :
    (pickSpeakers out dice s group members obj recent isOurs).Subperm
      (members.filter fun b => s.mayAnswer out group obj b isOurs &&
        (s.called out obj recent b || 0 < b.2.randomProb)) := by
  obtain ⟨activated, rest, hperm, heq⟩ :=
    @pickSpeakers_cases s out group obj recent members isOurs dice
  generalize hforced : s.forced out group obj recent members isOurs = forced at heq
  have hall : (forced ++ activated ++ rest).Perm (members.filter fun b =>
      s.mayAnswer out group obj b isOurs && (s.called out obj recent b || 0 < b.2.randomProb)) := by
    rw [List.append_assoc, ← hforced]
    exact (hperm.append_left _).trans forced_append_willing_perm
  have hsub : (pickSpeakers out dice s group members obj recent isOurs).Sublist
      (forced ++ activated ++ rest) := by
    rw [heq]
    dsimp only
    split_ifs
    · rw [List.append_assoc]
      exact List.sublist_append_left _ _
    · exact List.nil_sublist _
    · exact List.take_sublist _ _
    · exact ((List.Sublist.refl _).append (List.take_sublist _ _)).append (List.take_sublist _ _)
    · refine List.Sublist.trans ?_ (List.sublist_append_left _ _)
      exact (List.Sublist.refl _).append (List.take_sublist _ _)
  exact hsub.subperm.trans hall.subperm

theorem pickSpeakers_distinct (dice : Dice) (hmembers : (members.map Prod.fst).Nodup) :
    ((pickSpeakers out dice s group members obj recent isOurs).map Prod.fst).Nodup := by
  obtain ⟨l, hperm, hsub⟩ := (@pickSpeakers_subperm s out group obj recent members isOurs dice).trans
    List.filter_sublist.subperm
  exact (hperm.map Prod.fst).nodup_iff.mp ((hsub.map Prod.fst).nodup hmembers)

/-- During the active hours, a message of another is answered by all that it calls, and the pace of
the group bounds how many others answer it. -/
theorem pickSpeakers_outside (dice : FairDice) (hactive : inActiveHours group out.now = true) :
    ∃ more, pickSpeakers out dice.toDice s group members obj recent false =
        s.forced out group obj recent members false ++ more ∧
      ((pickSpeakers out dice.toDice s group members obj recent false).length : ℤ) ≤
        max ((s.forced out group obj recent members false).length : ℤ)
          (max (max 1 group.replyMin) group.replyMax) ∧
      min group.replyMin ((s.forced out group obj recent members false).length +
        (s.willing out group obj recent members false).length) ≤
          (pickSpeakers out dice.toDice s group members obj recent false).length := by
  obtain ⟨activated, rest, hperm, heq⟩ :=
    @pickSpeakers_cases s out group obj recent members false dice.toDice
  have hlength : activated.length + rest.length =
      (s.willing out group obj recent members false).length := by
    rw [← List.length_append, hperm.length_eq]
  have hwant := dice.want_mem (max 1 group.replyMin) (max (max 1 group.replyMin) group.replyMax)
    (le_max_left _ _)
  rw [hactive] at heq
  generalize s.forced out group obj recent members false = forced at heq ⊢
  generalize dice.want (max 1 group.replyMin) (max (max 1 group.replyMin) group.replyMax) = want
    at heq hwant
  rw [← hlength, heq]
  dsimp only
  simp only [Bool.not_true, Bool.false_eq_true, if_false]
  split_ifs with hfew
  · -- too few are awake, so the others fill up to the lower bound of the pace
    refine ⟨_, List.append_assoc _ _ _, ?_⟩
    simp only [List.length_append, List.length_take] at hfew ⊢
    omega
  · refine ⟨_, rfl, ?_⟩
    simp only [List.length_append, List.length_take] at hfew ⊢
    omega

theorem pickSpeakers_own (dice : Dice) :
    (pickSpeakers out dice s group members obj recent true).length ≤ 1 := by
  obtain ⟨activated, rest, -, heq⟩ := @pickSpeakers_cases s out group obj recent members true dice
  rw [heq]
  dsimp only
  rw [if_pos rfl, Bool.not_true, Bool.and_false, if_neg Bool.false_ne_true]
  split_ifs
  · exact Nat.zero_le 1
  · exact List.length_take_le _ _

theorem pickSpeakers_offHours (dice : Dice) (hactive : inActiveHours group out.now = false)
    {b : BindingId × AiBinding} (hb : b ∈ pickSpeakers out dice s group members obj recent isOurs) :
    s.called out obj recent b = true ∧ group.mentionBypassHours = true ∧ isOurs = false := by
  obtain ⟨activated, rest, -, heq⟩ := @pickSpeakers_cases s out group obj recent members isOurs dice
  rw [heq, hactive] at hb
  dsimp only at hb
  simp only [Bool.not_false, if_true] at hb
  split_ifs at hb with hbypass
  · simp only [Bool.and_eq_true, Bool.not_eq_true'] at hbypass
    exact ⟨(mem_forced.mp hb).2.2, hbypass⟩
  · exact absurd hb List.not_mem_nil

theorem forced_length : (s.forced out group obj recent members false).length =
    (members.filter fun b => s.canSpeak out group b && s.called out obj recent b).length := by
  simp only [ControlPlane.forced, mayAnswer_outside]

theorem forced_add_willing_length : (s.forced out group obj recent members false).length +
    (s.willing out group obj recent members false).length =
      (members.filter fun b => s.canSpeak out group b &&
        (s.called out obj recent b || 0 < b.2.randomProb)).length := by
  have hperm := @forced_append_willing_perm s out group obj recent members false
  rw [← List.length_append, hperm.length_eq]
  simp only [mayAnswer_outside]

/-- **Speaker selection.** Whatever the draws and the shuffles are, the choice of the speakers
keeps to the pace of the group, and the members that the control plane lists for the group come in
it once each. -/
theorem pickSpeakers_wellPicked (dice : FairDice) (s : ControlPlane) (out : Outside) (group : AiGroup)
    (obj : AiGroupEvent) (recent : List Json) (isOurs : Bool) :
    (∀ members, WellPicked s out group members obj recent isOurs
      (pickSpeakers out dice.toDice s group members obj recent isOurs)) ∧
    ∀ pk, ((pickSpeakers out dice.toDice s group
      ((s.members pk group).filter fun b => b.2.status = "active") obj recent isOurs).map
        Prod.fst).Nodup := by
  refine ⟨fun members => ?_, fun pk => ?_⟩
  · have hsub := @pickSpeakers_subperm s out group obj recent members isOurs dice.toDice
    have hmem : ∀ b ∈ pickSpeakers out dice.toDice s group members obj recent isOurs,
        s.mayAnswer out group obj b isOurs = true ∧
          (s.called out obj recent b = true ∨ 0 < b.2.randomProb) := by
      intro b hb
      have hb := (List.mem_filter.mp (hsub.subset hb)).2
      simpa only [Bool.and_eq_true, Bool.or_eq_true, decide_eq_true_eq] using hb
    have honce := hsub.trans List.filter_sublist.subperm
    constructor
    case once => exact honce
    case distinct => exact pickSpeakers_distinct dice.toDice
    case eligible =>
      intro b hb
      have hmay := (hmem b hb).1
      simp only [mayAnswer, Bool.and_eq_true] at hmay
      exact canSpeak_iff.mp hmay.1
    case quiet =>
      intro b hb hprob
      exact (hmem b hb).2.resolve_right (not_lt.mpr hprob)
    case calls =>
      rintro hactive rfl b hb hcan hcalled
      obtain ⟨more, heq, -⟩ := @pickSpeakers_outside s out group obj recent members dice hactive
      rw [heq]
      exact List.mem_append_left _ (mem_forced.mpr ⟨hb, mayAnswer_outside.trans hcan, hcalled⟩)
    case enough =>
      rintro hactive rfl
      obtain ⟨-, -, -, henough⟩ := @pickSpeakers_outside s out group obj recent members dice hactive
      rw [← forced_add_willing_length]
      exact_mod_cast henough
    case few =>
      rintro hactive rfl
      obtain ⟨-, -, hfew, -⟩ := @pickSpeakers_outside s out group obj recent members dice hactive
      rwa [← forced_length]
    case own =>
      rintro rfl
      refine ⟨pickSpeakers_own dice.toDice, fun b hb => ?_⟩
      have hmay := (hmem b hb).1
      simp only [mayAnswer, Bool.true_and, Bool.and_eq_true, Bool.not_eq_true'] at hmay
      exact hmay.2
    case offHours =>
      exact fun hactive b hb => pickSpeakers_offHours dice.toDice hactive hb
  · have hlisted : ((s.members pk group).map Prod.fst).Nodup :=
      (List.filter_sublist.map Prod.fst).nodup Slots.nodup_where
    exact pickSpeakers_distinct dice.toDice ((List.filter_sublist.map Prod.fst).nodup hlisted)

end Picking

end TgPlatform
