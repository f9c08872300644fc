import TgPlatform.Rules.Failover
import TgPlatform.Rules.SelfFeeding

/-! # Who is recorded as joined

A target keeps the listening account that has joined its chats in one column
and the accounts of the pool that have joined its target chat in another. A
publish joins whoever is missing and fills both columns, a check of the routes
and a report of a lost chat clear them. The report clears the targets of the
rules that the account listens for.
-/

namespace TgPlatform

namespace CloneTarget

/-- The account is recorded as a member of the chat: the listener is in both chats of the target, an
account of the pool in its target chat. -/
def Records (t : CloneTarget) (accountId : ℕ) (chatId : ℤ) : Prop :=
  (t.joinedAccountId = some accountId ∧ (t.sourceChatId = chatId ∨ t.targetChatId = chatId)) ∨
    accountId ∈ t.joinedAccountIds ∧ t.targetChatId = chatId

instance (t : CloneTarget) (accountId : ℕ) (chatId : ℤ) : Decidable (t.Records accountId chatId) :=
  inferInstanceAs (Decidable (_ ∨ _))

/-- The reference of the target chat while the chat has the id. -/
def refAt (t : CloneTarget) (chatId : ℤ) : String := (truthy t.targetChatRef).getD (toString chatId)

variable {t t' : CloneTarget} {accountId : ℕ} {chatId : ℤ} {reason : String}

theorem records_of_le (hsource : t'.sourceChatId = t.sourceChatId)
    (htarget : t'.targetChatId = t.targetChatId)
    (hlistener : t'.joinedAccountId = some accountId → t.joinedAccountId = some accountId)
    (hsenders : accountId ∈ t'.joinedAccountIds → accountId ∈ t.joinedAccountIds)
    (h : t'.Records accountId chatId) : t.Records accountId chatId := by
  unfold Records at *
  rw [hsource, htarget] at h
  exact h.imp (And.imp_left hlistener) (And.imp_left hsenders)

theorem not_records_lose {lost : ℤ} : ¬ (t.lose accountId lost reason).Records accountId chatId := by
  unfold Records lose
  rintro (⟨hlistener, -⟩ | ⟨hsender, -⟩)
  · dsimp only at hlistener
    split at hlistener
    · cases hlistener
    · contradiction
  · simp at hsender

theorem records_of_lose {other : ℕ} {lost : ℤ}
    (h : (t.lose other lost reason).Records accountId chatId) :
    t.Records accountId chatId := by
  apply @records_of_le t (t.lose other lost reason) accountId chatId rfl rfl _ _ h
  · intro hlistener
    dsimp only [lose] at hlistener
    split at hlistener
    · cases hlistener
    · exact hlistener
  · exact List.mem_of_mem_filter

end CloneTarget

def CloneRule.uses (rule : CloneRule) (accountId : ℕ) : Bool :=
  accountId = rule.accountId || accountId ∈ rule.senderPool

/-! ## Reports and checks -/

section Clearing

variable {out : Outside} {caller : Caller} {s s' : ControlPlane} {ruleId accountId : ℕ} {chatId : ℤ}
  {reason : String}

/-- The active targets of a rule are the old ones, and nothing is recorded anew. -/
def Forgets (ruleId : ℕ) (s s' : ControlPlane) : Prop :=
  ∀ pk t', (pk, t') ∈ s'.activeTargets ruleId → ∃ t, (pk, t) ∈ s.activeTargets ruleId ∧
    ∀ accountId chatId, t'.Records accountId chatId → t.Records accountId chatId

theorem Forgets.of_targets (h : s'.targets = s.targets) : Forgets ruleId s s' := by
  intro pk t' ht'
  unfold ControlPlane.activeTargets at *
  rw [h] at ht'
  exact ⟨t', ht', fun _ _ => id⟩

/-- The account listens for the live rule with this id. -/
def ControlPlane.listens (s : ControlPlane) (accountId ruleId : ℕ) : Bool :=
  (s.rule ruleId).any fun rule => rule.accountId = accountId

theorem mem_heardRules : ruleId ∈ (s.liveRules.filter fun r => r.2.accountId = accountId).map Prod.fst ↔
    s.listens accountId ruleId = true := by
  unfold ControlPlane.listens ControlPlane.liveRules ControlPlane.rule
  simp only [List.mem_map, List.mem_filter, Prod.exists, exists_and_right, exists_eq_right,
    Slots.mem_where]
  cases s.rules.row? ruleId with
  | none => simp
  | some rule => cases hdeleted : rule.deleted <;> simp [Option.filter, hdeleted]

def ControlPlane.reported (s : ControlPlane) (accountId : ℕ) (chatId : ℤ) (reason : String)
    (t : CloneTarget) : CloneTarget :=
  if s.listens accountId t.ruleId && t.status = .active && !t.deleted &&
      (t.sourceChatId = chatId || t.targetChatId = chatId) then t.lose accountId chatId reason
  else t

variable (s accountId chatId reason) in
theorem markChatLost_rows : ∃ targets,
    (markChatLost accountId chatId reason).commit s = { s with targets } ∧
    ∀ i, targets.row? i = (s.targets.row? i).map (s.reported accountId chatId reason) := by
  let lost (t : CloneTarget) : Bool :=
    t.ruleId ∈ (s.liveRules.filter fun r => r.2.accountId = accountId).map Prod.fst &&
      t.status = .active && !t.deleted && (t.sourceChatId = chatId || t.targetChatId = chatId)
  let lose (_ row : CloneTarget) : CloneTarget := row.lose accountId chatId reason
  refine ⟨(s.targets.where_ lost).foldl (fun t x => t.modify x.1 (lose x.2)) s.targets, ?_, fun i => ?_⟩
  · apply Txn.commit_of_ok (a := (s.targets.where_ lost).length)
    refine (Txn.ok_bind rfl).trans ?_
    refine (Txn.ok_bind rfl).trans ?_
    refine (Txn.ok_bind (Txn.each_write_ok _ _)).trans ?_
    rw [rewriteTargets_eq_foldl (g := lose)]
    rfl
  · rw [Slots.row?_rewriteWhere]
    congr 1
    funext t
    simp only [lost, lose, ControlPlane.reported, mem_heardRules, Bool.decide_eq_true]

theorem mem_activeTargets_lost {pk : ℕ} {t' : CloneTarget} :
    (pk, t') ∈ ((markChatLost accountId chatId reason).commit s).activeTargets ruleId ↔
      ∃ t, (pk, t) ∈ s.activeTargets ruleId ∧ s.reported accountId chatId reason t = t' := by
  obtain ⟨targets, hcommit, hrows⟩ := markChatLost_rows s accountId chatId reason
  rw [hcommit]
  apply mem_activeTargets_map hrows <;> intro t <;> unfold ControlPlane.reported <;> split <;> rfl

theorem forgets_markChatLost : Forgets ruleId s ((markChatLost accountId chatId reason).commit s) := by
  intro pk t' ht'
  obtain ⟨t, ht, rfl⟩ := mem_activeTargets_lost.mp ht'
  refine ⟨t, ht, fun a c h => ?_⟩
  unfold ControlPlane.reported at h
  split at h
  · exact CloneTarget.records_of_lose h
  · exact h

/-- After a report no rule that the account listens for records it in the chat; the other rules
record what they did. -/
theorem records_markChatLost {pk : ℕ} {t : CloneTarget} (ht : (pk, t) ∈ s.activeTargets ruleId) :
    (s.reported accountId chatId reason t).Records accountId chatId ↔
      s.listens accountId ruleId = false ∧ t.Records accountId chatId := by
  obtain ⟨-, rfl, hstatus, hdeleted⟩ := mem_activeTargets.mp ht
  unfold ControlPlane.reported
  cases hlistens : s.listens accountId t.ruleId with
  | false => simp
  | true =>
    simp only [hstatus, hdeleted, decide_true, Bool.not_false, Bool.and_true, Bool.true_and,
      Bool.or_eq_true, decide_eq_true_eq, Bool.true_eq_false, false_and, iff_false]
    split
    · exact CloneTarget.not_records_lose
    · rename_i hchat
      rintro (⟨-, h⟩ | ⟨-, h⟩)
      · exact hchat h
      · exact hchat (.inr h)

/-! ### Checks of the routes and failovers -/

theorem forgets_checkRoutes {pk : ℕ} : Forgets ruleId s ((checkRoutes out caller pk).commit s) := by
  apply Txn.Post.commit (U := fun _ => True) (I := fun s' => Forgets ruleId s s')
  · refine .bind (getRule_keeps.mono ?_)
    rintro rule s ⟨-, rfl⟩
    refine .bind (.read ?_)
    split
    · exact .ret (.of_targets rfl)
    · refine .bind ((resolveRefs_eq fun _ => trivial).mono ?_)
      rintro results s ⟨rfl, -⟩
      let check (t row : CloneTarget) : CloneTarget := { row with
        healthReason := lostReason results t
        joinedAccountId := if (lostReason results t).isSome then none else row.joinedAccountId }
      have hcheck : KeepsActive check := ⟨fun _ _ => rfl, fun _ _ => rfl, fun _ _ => rfl⟩
      refine .bind ((Txn.Post.each_foldl fun t _ s => .write rfl).mono ?_)
      rintro _ _ rfl
      rw [rewriteTargets_eq_foldl (g := check), ← List.filter_true (s.activeTargets pk)]
      refine .ret ?_
      intro i t' ht'
      obtain ⟨t, ht, rfl⟩ := (mem_activeTargets_rewrite hcheck (r := fun _ => true)).mp ht'
      refine ⟨t, ht, fun a c h => ?_⟩
      split at h
      · apply @CloneTarget.records_of_le t (check t t) a c rfl rfl _ _ h
        · intro hlistener
          dsimp only [check] at hlistener
          split at hlistener
          · cases hlistener
          · exact hlistener
        · exact id
      · exact h
  · exact .of_targets rfl

theorem targets_report {status : String} :
    ((reportAccountStatus out accountId status).commit s).targets = s.targets := by
  cases haccount : s.dir.account accountId with
  | none => rw [report_of_missing haccount]
  | some account =>
    by_cases hstatus : status ∈ listenerDead
    · rw [report_eq haccount hstatus]
      exact (sameDesk_failover _).targets
    · apply Txn.Post.commit (U := fun _ => True) 
          (I := fun s' : ControlPlane => s'.targets = s.targets)
      · unfold reportAccountStatus failoverListenerIfDead
        rw [if_pos hstatus]
        refine .bind (.read (.bind (orRefuse_keeps.mono ?_)))
        rintro _ s ⟨-, rfl⟩
        exact .bind (.write (.ret rfl))
      · rfl

end Clearing

/-! ## Publishing -/

def CloneRule.RecordedOn (rule : CloneRule) (t : CloneTarget) : Prop :=
  t.joinedAccountId = some rule.accountId ∧ ∀ a ∈ rule.extraSenders, a ∈ t.joinedAccountIds

/-- The account is asked to join chats, among them the reference's, and it gets into that one. -/
def Outside.JoinsChat (out : Outside) (purpose : ℕ) (dir : Directory) (accountId : ℕ)
    (ref : String) : Prop :=
  ∃ refs, ref ∈ refs ∧ JoinResult.isOk (out.joined purpose (dir.account accountId) refs ref) = true

section Joining

variable {out : Outside} {caller : Caller} {s : ControlPlane} {U : Use → Prop} {rule : CloneRule}
  {dir : Directory} {ruleId accountId : ℕ} {results : String → Option JoinResult}

theorem resolveOrRaise_isOk {label ref : String} :
    Txn.Post (Outside.resolveOrRaise results label ref) s U fun _ _ =>
      JoinResult.isOk (results ref) = true := by
  unfold Outside.resolveOrRaise
  cases results ref with
  | none => exact .throw
  | some r =>
    cases r with
    | ok chatId => exact .ret rfl
    | failed status => exact .throw

/-! ### What is recorded afterwards -/

theorem recorded_listenerJoined {targets : List (ℕ × CloneTarget)} {x : ℕ × CloneTarget}
    (hx : x ∈ listenerJoined out dir rule targets) : x.2.joinedAccountId = some rule.accountId := by
  obtain ⟨t, -, rfl⟩ := List.mem_map.mp hx
  split
  · rfl
  · rename_i hfresh
    unfold CloneTarget.stale at hfresh
    simp only [Bool.or_eq_true, decide_eq_true_eq, not_or, not_not] at hfresh
    exact hfresh.1

theorem recorded_foldl_senderJoined {senders : List ℕ} {targets : List (ℕ × CloneTarget)}
    {x : ℕ × CloneTarget} (hx : x ∈ senders.foldl (senderJoined out dir) targets) :
    ∃ t ∈ targets, x.2.joinedAccountId = t.2.joinedAccountId ∧
      (∀ a ∈ t.2.joinedAccountIds, a ∈ x.2.joinedAccountIds) ∧
        ∀ a ∈ senders, a ∈ x.2.joinedAccountIds := by
  induction senders generalizing targets with
  | nil => exact ⟨x, hx, rfl, fun _ => id, by simp⟩
  | cons a senders ih =>
    obtain ⟨y, hy, hlistener, hids, hsenders⟩ := ih hx
    obtain ⟨t, ht, rfl⟩ := List.mem_map.mp hy
    by_cases hjoined : a ∈ t.2.joinedAccountIds
    · rw [if_pos hjoined] at hlistener hids
      exact ⟨t, ht, hlistener, hids, List.forall_mem_cons.mpr ⟨hids a hjoined, hsenders⟩⟩
    · rw [if_neg hjoined] at hlistener hids
      have hold : ∀ b ∈ t.2.joinedAccountIds, b ∈ x.2.joinedAccountIds := by
        intro b hb
        apply hids
        simp [enlist, hjoined, hb]
      have ha : a ∈ x.2.joinedAccountIds := hids a (by simp [enlist, hjoined])
      exact ⟨t, ht, hlistener, hold, List.forall_mem_cons.mpr ⟨ha, hsenders⟩⟩

theorem recorded_joinedTargets {targets : List (ℕ × CloneTarget)} {x : ℕ × CloneTarget}
    (hx : x ∈ joinedTargets out dir rule targets) : rule.RecordedOn x.2 := by
  obtain ⟨t, ht, hlistener, -, hsenders⟩ := recorded_foldl_senderJoined hx
  exact ⟨hlistener.trans (recorded_listenerJoined ht), hsenders⟩

/-! ### Who joins -/

variable (hU : ∀ u, U u)

include hU

theorem autoJoinListener_joins : Txn.Post (autoJoinListener out rule ((s.activeTargets ruleId).filter
    fun t => t.2.stale out rule)) s U fun _ _ =>
      ∀ t ∈ s.activeTargets ruleId, t.2.stale out rule = true →
        out.JoinsChat 0 s.dir rule.accountId t.2.sourceRef ∧
          out.JoinsChat 0 s.dir rule.accountId t.2.targetRef := by
  unfold autoJoinListener
  split
  · rename_i hnone
    rw [List.filter_eq_nil_iff] at hnone
    exact .ret fun t ht hstale => absurd hstale (hnone t ht)
  · dsimp only
    generalize hrefs : (((s.activeTargets ruleId).filter fun t => t.2.stale out rule).flatMap
      fun t => [t.2.sourceRef, t.2.targetRef]).eraseDups = refs
    have hmem : ∀ t ∈ (s.activeTargets ruleId).filter (fun t => t.2.stale out rule),
        t.2.sourceRef ∈ refs ∧ t.2.targetRef ∈ refs := by
      intro t ht
      rw [← hrefs, List.mem_eraseDups, List.mem_eraseDups, List.mem_flatMap, List.mem_flatMap]
      exact ⟨⟨t, ht, by simp⟩, ⟨t, ht, by simp⟩⟩
    refine .bind ((resolveRefs_eq hU).mono ?_)
    rintro results s ⟨rfl, rfl⟩
    refine (Txn.Post.each_all
      (P := fun t => JoinResult.isOk
        (out.joined 0 (s.dir.account rule.accountId) refs t.2.sourceRef) = true ∧
        JoinResult.isOk (out.joined 0 (s.dir.account rule.accountId) refs t.2.targetRef) = true)
      fun t _ s' => ?_).mono ?_
    · refine .bind (resolveOrRaise_isOk.and resolveOrRaise_keeps |>.mono ?_)
      rintro srcId s' ⟨hsrc, rfl⟩
      refine .bind (resolveOrRaise_isOk.mono ?_)
      rintro dstId s'' hdst
      refine .bind (.read ?_)
      split
      · exact .throw
      · exact .write ⟨hsrc, hdst⟩
    · intro _ _ hall t ht hstale
      have htf : t ∈ (s.activeTargets ruleId).filter fun t => t.2.stale out rule :=
        List.mem_filter.mpr ⟨ht, hstale⟩
      exact ⟨⟨refs, (hmem t htf).1, (hall t htf).1⟩, ⟨refs, (hmem t htf).2, (hall t htf).2⟩⟩

theorem joinPoolAccount_joins {scope : Scope} : Txn.Post (joinPoolAccount out scope ruleId accountId) s U
    fun _ _ => ∀ t ∈ s.activeTargets ruleId, accountId ∉ t.2.joinedAccountIds →
      out.JoinsChat 1 s.dir accountId t.2.targetRef := by
  refine .bind (.read ?_)
  dsimp only
  split
  · rename_i hnone
    rw [List.filter_eq_nil_iff] at hnone
    exact .ret fun t ht hnew => absurd (decide_eq_true hnew) (hnone t ht)
  · generalize hrefs : (((s.activeTargets ruleId).filter fun t =>
      accountId ∉ t.2.joinedAccountIds).map fun t => t.2.targetRef).eraseDups = refs
    have hmem : ∀ t ∈ (s.activeTargets ruleId).filter (fun t => accountId ∉ t.2.joinedAccountIds),
        t.2.targetRef ∈ refs := by
      intro t ht
      rw [← hrefs, List.mem_eraseDups, List.mem_map]
      exact ⟨t, ht, rfl⟩
    refine .bind (.read (.bind (orRefuse_keeps.mono ?_)))
    rintro account s ⟨haccount, rfl⟩
    refine .bind ((joinChatRefs_eq hU).mono ?_)
    rintro results s ⟨rfl, rfl⟩
    refine (Txn.Post.each_all
      (P := fun t => JoinResult.isOk (out.joined 1 (some account) refs t.2.targetRef) = true)
      fun t _ s' => ?_).mono ?_
    · refine .bind (resolveOrRaise_isOk.mono ?_)
      exact fun _ _ hdst => .write hdst
    · intro _ _ hall t ht hnew
      have htf : t ∈ (s.activeTargets ruleId).filter fun t => accountId ∉ t.2.joinedAccountIds :=
        List.mem_filter.mpr ⟨ht, decide_eq_true hnew⟩
      refine ⟨refs, hmem t htf, ?_⟩
      rw [show s.dir.account accountId = some account from haccount]
      exact hall t htf

theorem autoJoinPool_joins {scope : Scope} (senders : List ℕ) : ∀ s,
    Txn.Post (autoJoinPool out scope ruleId senders) s U fun _ _ =>
      ∀ x ∈ s.activeTargets ruleId, ∀ a ∈ senders, a ∉ x.2.joinedAccountIds →
        ∃ chatId, out.JoinsChat 1 s.dir a (x.2.refAt chatId) := by
  induction senders with
  | nil =>
    intro s
    exact .ret (by simp)
  | cons accountId rest ih =>
    intro s
    have hround : Txn.Post (joinPoolAccount out scope ruleId accountId) s U _ :=
      (joinPoolAccount_joins hU).and (joinPoolAccount_eq hU)
    refine .andThen (hround.mono ?_)
    rintro _ _ ⟨hjoins, ⟨targets, rfl⟩, -, htargets⟩
    refine (ih { s with targets }).mono ?_
    intro _ s' hjoins' x hx a ha hnew
    by_cases hhead : a = accountId
    · subst hhead
      exact ⟨x.2.targetChatId, hjoins x hx hnew⟩
    · have hrest : a ∈ rest := (List.mem_cons.mp ha).resolve_left hhead
      rw [htargets] at hjoins'
      have hmem := List.mem_map_of_mem (f := fun t => if accountId ∈ t.2.joinedAccountIds then t
        else (t.1, enlist accountId (out.joined 1 (s.dir.account accountId)
          (((s.activeTargets ruleId).filter fun t => accountId ∉ t.2.joinedAccountIds).map fun t =>
            t.2.targetRef).eraseDups) t.2 t.2)) hx
      have hnext := hjoins' _ hmem a hrest
      split at hnext
      · exact hnext hnew
      · exact hnext (by
          dsimp only [enlist]
          split
          · exact hnew
          · simp [hnew, hhead])

structure CloneRule.Completes (out : Outside) (dir : Directory) (rule : CloneRule) (t : CloneTarget) :
    Prop where
  listener : t.stale out rule = true →
    out.JoinsChat 0 dir rule.accountId t.sourceRef ∧ out.JoinsChat 0 dir rule.accountId t.targetRef
  senders : ∀ a ∈ rule.extraSenders, a ∉ t.joinedAccountIds →
    ∃ chatId, out.JoinsChat 1 dir a (t.refAt chatId)

theorem autoJoin_joins : Txn.Post (autoJoin out ruleId rule) s U fun _ _ =>
    ∀ x ∈ s.activeTargets ruleId, rule.Completes out s.dir x.2 := by
  refine .bind (.read ?_)
  dsimp only
  split
  · rename_i hnone
    rw [Bool.and_eq_true, decide_eq_true_eq, decide_eq_true_eq, List.filter_eq_nil_iff,
      List.filter_eq_nil_iff] at hnone
    refine .ret fun x hx => ⟨fun hstale => absurd hstale (hnone.1 x hx), ?_⟩
    intro a ha hnew
    exact absurd (List.any_eq_true.mpr ⟨a, ha, decide_eq_true hnew⟩) (hnone.2 x hx)
  · refine .bind (((autoJoinListener_joins hU).and (autoJoinListener_eq hU)).mono ?_)
    rintro _ _ ⟨hjoins, ⟨targets, rfl⟩, -, htargets⟩
    refine (autoJoinPool_joins hU _ _).mono ?_
    intro _ s' hjoins' x hx
    refine ⟨hjoins x hx, fun a ha hnew => ?_⟩
    rw [htargets] at hjoins'
    have hmem := List.mem_map_of_mem (f := fun t => if t.2.stale out rule then
      (t.1, relocate out rule (out.joined 0 (s.dir.account rule.accountId)
        (((s.activeTargets ruleId).filter fun t => t.2.stale out rule).flatMap fun t =>
          [t.2.sourceRef, t.2.targetRef]).eraseDups) t.2 t.2) else t) hx
    have hnext := hjoins' _ hmem a ha
    split at hnext <;> exact hnext hnew

omit hU

structure PublishJoins (out : Outside) (pk : ℕ) (s : ControlPlane) (rule : CloneRule)
    (s' : ControlPlane) :
    Prop where
  others : OthersStay pk s s'
  recorded : rule.enabled = true → ∀ x ∈ s'.activeTargets pk, rule.RecordedOn x.2
  completes : rule.enabled = true → ∀ x ∈ s.activeTargets pk, rule.Completes out s.dir x.2
  same : rule.enabled = false → s'.activeTargets pk = s.activeTargets pk

include hU

theorem publish_completes {pk : ℕ} {expectedVersion : ℤ} :
    Txn.Post (publish out caller pk expectedVersion) s U fun _ s' =>
      ∀ rule, s.rule pk = some rule → PublishJoins out pk s rule s' := by
  refine (publish_targets (Q := fun targets => ∀ rule, s.rule pk = some rule →
    PublishJoins out pk s rule { s with targets }) fun rule hrule => ?_).mono fun _ s' h rule hrule =>
      have hp := h rule hrule
      ⟨hp.others, hp.recorded, hp.completes, hp.same⟩
  unfold joinBeforeRun
  split
  · rename_i henabled
    refine .bind (((autoJoin_joins hU).and (autoJoin_eq hU)).mono ?_)
    rintro _ _ ⟨hcompletes, ⟨targets, rfl⟩, hstay, htargets⟩
    refine issueCommand_keeps.mono ?_
    rintro _ _ ⟨commands, rfl⟩ rule' hrule'
    obtain rfl := Option.some.inj (hrule.symm.trans hrule')
    constructor
    · exact hstay
    · intro _ x hx
      exact recorded_joinedTargets (htargets ▸ hx)
    · exact fun _ => hcompletes
    · simp [henabled]
  · rename_i henabled
    refine .ret fun rule' hrule' => ?_
    obtain rfl := Option.some.inj (hrule.symm.trans hrule')
    constructor
    · exact .refl
    · exact fun h => absurd h henabled
    · exact fun h => absurd h henabled
    · exact fun _ => rfl

end Joining

/-! ## Runs of requests -/

inductive JoinRequest
  | publish (pk : ℕ) (expectedVersion : ℤ)
  | chatLost (accountId : ℕ) (chatId : ℤ) (reason : String)
  | checkRoutes (pk : ℕ)
  | reportStatus (accountId : ℕ) (status : String)

structure JoinCall where
  out : Outside
  caller : Caller
  request : JoinRequest

def JoinCall.handle (call : JoinCall) : Req Unit :=
  match call.request with
  | .publish pk expectedVersion => (publish call.out call.caller pk expectedVersion).map fun _ => ()
  | .chatLost accountId chatId reason => (markChatLost accountId chatId reason).map fun _ => ()
  | .checkRoutes pk => (checkRoutes call.out call.caller pk).map fun _ => ()
  | .reportStatus accountId status => (reportAccountStatus call.out accountId status).map fun _ => ()

/-- An account that has been reported out of a chat of a target. -/
structure LostJoin where
  ruleId : ℕ
  target : ℕ
  accountId : ℕ
  chatId : ℤ

def ControlPlane.affected (s : ControlPlane) (accountId : ℕ) (chatId : ℤ) : List LostJoin :=
  (s.liveRules.filter fun r => r.2.uses accountId).flatMap fun r =>
    ((s.activeTargets r.1).filter fun x => x.2.sourceChatId = chatId || x.2.targetChatId = chatId).map
      fun x => ⟨r.1, x.1, accountId, chatId⟩

/-- The database beside what has been reported since the last publish of each rule. -/
structure JoinDesk where
  plane : ControlPlane
  lost : List LostJoin

/-- The accounts of an enabled rule have joined, since its publish has gone through. -/
def JoinCall.joins (call : JoinCall) (s : ControlPlane) (pk : ℕ) : Bool :=
  (call.handle.answer s).isOk && (s.rule pk).any CloneRule.enabled

def JoinCall.lostAfter (call : JoinCall) (x : JoinDesk) : List LostJoin :=
  match call.request with
  | .publish pk _ => if call.joins x.plane pk then x.lost.filter fun e => e.ruleId ≠ pk else x.lost
  | .chatLost accountId chatId _ => x.lost ++ x.plane.affected accountId chatId
  | _ => x.lost

namespace JoinDesk

def step (x : JoinDesk) (call : JoinCall) : Option JoinDesk :=
  some { plane := call.handle.commit x.plane, lost := call.lostAfter x }

/-- The account gets into the chat again, as the listener or as a sender of the rule. -/
structure Rejoins (out : Outside) (dir : Directory) (rule : CloneRule) (t : CloneTarget) (accountId : ℕ)
    (chatId : ℤ) : Prop where
  listener : accountId = rule.accountId → t.sourceChatId = chatId ∨ t.targetChatId = chatId →
    out.JoinsChat 0 dir accountId t.sourceRef ∧ out.JoinsChat 0 dir accountId t.targetRef
  sender : accountId ∈ rule.extraSenders → t.targetChatId = chatId →
    ∃ id, out.JoinsChat 1 dir accountId (t.refAt id)

/-- After a report no rule that uses the account records it in the chat. A publish of an enabled rule
that goes through has joined the reported accounts again, and records all accounts of the rule. -/
def Follows (x : JoinDesk) (call : JoinCall) (x' : JoinDesk) : Prop :=
  match call.request with
  | .chatLost accountId chatId _ => ∀ pk rule, x'.plane.rule pk = some rule →
      rule.uses accountId = true → ∀ t ∈ x'.plane.activeTargets pk, ¬ t.2.Records accountId chatId
  | .publish pk _ => call.joins x.plane pk = true → ∀ rule, x.plane.rule pk = some rule →
      (∀ t ∈ x'.plane.activeTargets pk, rule.RecordedOn t.2) ∧
        ∀ e ∈ x.lost, e.ruleId = pk → ∀ t, (e.target, t) ∈ x.plane.activeTargets pk →
          Rejoins call.out x.plane.dir rule t e.accountId e.chatId
  | _ => True

/-- No rule that another account listens for, and that uses the reported one, records it in the chat. -/
def Unrecorded (x : JoinDesk) (call : JoinCall) (_ : JoinDesk) : Prop :=
  match call.request with
  | .chatLost accountId chatId _ => ∀ pk rule, x.plane.rule pk = some rule →
      rule.accountId ≠ accountId → rule.uses accountId = true →
        ∀ t ∈ x.plane.activeTargets pk, ¬ t.2.Records accountId chatId
  | _ => True

def Forgotten (x : JoinDesk) : Prop :=
  ∀ e ∈ x.lost, ∀ t, (e.target, t) ∈ x.plane.activeTargets e.ruleId → ¬ t.Records e.accountId e.chatId

variable {x x' : JoinDesk} {call : JoinCall} {out : Outside} {caller : Caller}

theorem rule_chatLost {accountId : ℕ} {chatId : ℤ} {reason : String} {s : ControlPlane} {pk : ℕ} :
    ((markChatLost accountId chatId reason).commit s).rule pk = s.rule pk := by
  obtain ⟨targets, hcommit, -⟩ := markChatLost_rows s accountId chatId reason
  rw [hcommit]
  rfl

theorem Forgotten.of_forgets (h : x.Forgotten) {s' : ControlPlane} {lost : List LostJoin}
    (hlost : ∀ e ∈ lost, e ∈ x.lost ∧ Forgets e.ruleId x.plane s') : Forgotten ⟨s', lost⟩ := by
  intro e he t' ht' hrecords
  obtain ⟨hmem, hforgets⟩ := hlost e he
  obtain ⟨t, ht, hle⟩ := hforgets _ t' ht'
  exact h e hmem t ht (hle _ _ hrecords)

theorem follows_chatLost_iff {accountId : ℕ} {chatId : ℤ} {reason : String}
    (hstep : x.step ⟨out, caller, .chatLost accountId chatId reason⟩ = some x') :
    x.Follows ⟨out, caller, .chatLost accountId chatId reason⟩ x' ↔
      x.Unrecorded ⟨out, caller, .chatLost accountId chatId reason⟩ x' := by
  cases hstep
  simp only [Follows, Unrecorded, JoinCall.handle, Txn.commit_map, rule_chatLost]
  constructor
  · rintro h pk rule hrule hother huses ⟨i, t⟩ ht hrecords
    apply h pk rule hrule huses _ (mem_activeTargets_lost.mpr ⟨t, ht, rfl⟩)
    rw [records_markChatLost ht]
    exact ⟨by simp [ControlPlane.listens, hrule, hother], hrecords⟩
  · rintro h pk rule hrule huses ⟨i, t'⟩ ht' hrecords
    obtain ⟨t, ht, rfl⟩ := mem_activeTargets_lost.mp ht'
    obtain ⟨hother, hold⟩ := (records_markChatLost ht).mp hrecords
    apply h pk rule hrule _ huses _ ht hold
    simpa [ControlPlane.listens, hrule] using hother

theorem publish_cases (x : JoinDesk) (out : Outside) (caller : Caller) (pk : ℕ) (expectedVersion : ℤ) :
    let call : JoinCall := ⟨out, caller, .publish pk expectedVersion⟩
    (call.handle.commit x.plane = x.plane ∧ call.joins x.plane pk = false) ∨
      ∃ rule, x.plane.rule pk = some rule ∧ call.joins x.plane pk = rule.enabled ∧
        PublishJoins out pk x.plane rule (call.handle.commit x.plane) := by
  simp only [JoinCall.joins, JoinCall.handle, Txn.commit_map, Txn.answer_map]
  rcases Txn.commit_cases (m := publish out caller pk expectedVersion) (s := x.plane) with
    ⟨hsame, e, hanswer⟩ | ⟨v, hrun, hanswer⟩
  · rw [hanswer]
    exact .inl ⟨hsame, rfl⟩
  · have hU : ∀ u : Use, (fun _ => True) u := fun _ => trivial
    obtain ⟨-, -, rule, hrule, -⟩ := (publish_stores hU).2 v _ hrun
    refine .inr ⟨rule, hrule, ?_, (publish_completes hU).2 v _ hrun rule hrule⟩
    rw [hanswer, hrule]
    rfl

theorem follows_publish {pk : ℕ} {expectedVersion : ℤ} (hx : x.Forgotten)
    (hstep : x.step ⟨out, caller, .publish pk expectedVersion⟩ = some x') :
    x.Follows ⟨out, caller, .publish pk expectedVersion⟩ x' := by
  cases hstep
  intro hjoins rule hrule
  rcases publish_cases x out caller pk expectedVersion with ⟨-, hfails⟩ |
    ⟨rule', hrule', henabled, hpublishes⟩
  · rw [hfails] at hjoins
    cases hjoins
  · obtain rfl := Option.some.inj (hrule.symm.trans hrule')
    rw [henabled] at hjoins
    refine ⟨hpublishes.recorded hjoins, ?_⟩
    rintro e he rfl t ht
    have hcompletes := hpublishes.completes hjoins _ ht
    have hnot := hx e he t ht
    constructor
    · rintro hlistener hchat
      rw [hlistener]
      apply hcompletes.listener
      have hmissing : t.joinedAccountId ≠ some rule.accountId := by
        intro hrecorded
        exact hnot (.inl ⟨hlistener ▸ hrecorded, hchat⟩)
      simp [CloneTarget.stale, hmissing]
    · intro hsender hchat
      exact hcompletes.senders _ hsender fun hrecorded => hnot (.inr ⟨hrecorded, hchat⟩)

theorem OthersStay.forgets {s s' : ControlPlane} {ruleId other : ℕ} (h : OthersStay ruleId s s')
    (hne : other ≠ ruleId) : Forgets other s s' :=
  fun _ t' ht' => ⟨t', (h other hne _).mp ht', fun _ _ => id⟩

theorem forgotten_step (hx : x.Forgotten) (hfollows : x.Follows call x')
    (hstep : x.step call = some x') :
    x'.Forgotten := by
  obtain ⟨out, caller, request⟩ := call
  cases request with
  | publish pk expectedVersion =>
    cases hstep
    apply hx.of_forgets
    intro e he
    simp only [JoinCall.lostAfter] at he
    rcases publish_cases x out caller pk expectedVersion with
      ⟨hsame, hfails⟩ | ⟨rule, hrule, henables, hpublishes⟩
    · rw [hsame]
      exact ⟨by simpa [hfails] using he, .of_targets rfl⟩
    · rw [henables] at he
      by_cases hpk : e.ruleId = pk
      · cases henabled : rule.enabled with
        | true => simp [henabled, hpk] at he
        | false =>
          refine ⟨by simpa [henabled] using he, fun i t' ht' => ⟨t', ?_, fun _ _ => id⟩⟩
          rwa [hpk, hpublishes.same henabled, ← hpk] at ht'
      · refine ⟨?_, OthersStay.forgets hpublishes.others hpk⟩
        split at he
        · exact List.mem_of_mem_filter he
        · exact he
  | chatLost accountId chatId reason =>
    cases hstep
    simp only [Follows, JoinCall.handle, Txn.commit_map, rule_chatLost] at hfollows
    intro e he
    rcases List.mem_append.mp he with he | he
    · have hforgets : Forgotten ⟨(markChatLost accountId chatId reason).commit x.plane, x.lost⟩ :=
        hx.of_forgets fun e he => ⟨he, forgets_markChatLost⟩
      simpa only [JoinCall.handle, Txn.commit_map] using hforgets e he
    · obtain ⟨⟨pk, rule⟩, hr, he⟩ := List.mem_flatMap.mp he
      obtain ⟨y, -, rfl⟩ := List.mem_map.mp he
      obtain ⟨hlive, huses⟩ := List.mem_filter.mp hr
      obtain ⟨hrow, hdeleted⟩ := Slots.mem_where.mp hlive
      have hrule : x.plane.rule pk = some rule :=
        ControlPlane.rule_eq_some.mpr ⟨hrow, by simpa using hdeleted⟩
      simp only [JoinCall.handle, Txn.commit_map]
      intro t ht
      exact hfollows pk rule hrule huses _ ht
  | checkRoutes pk =>
    cases hstep
    apply hx.of_forgets
    simp only [JoinCall.lostAfter, JoinCall.handle, Txn.commit_map]
    exact fun e he => ⟨he, forgets_checkRoutes⟩
  | reportStatus accountId status =>
    cases hstep
    apply hx.of_forgets
    simp only [JoinCall.lostAfter, JoinCall.handle, Txn.commit_map]
    exact fun e he => ⟨he, .of_targets targets_report⟩

/-- The records follow the reports in exactly those runs in which each report finds its account
unrecorded wherever it only sends. -/
theorem join_state_follows_iff (s : ControlPlane) (calls : List JoinCall) :
    Machine.Always step Follows ⟨s, []⟩ calls ↔ Machine.Always step Unrecorded ⟨s, []⟩ calls := by
  apply Machine.always_iff_of_invariant (I := Forgotten)
  · exact fun x call x' hstep hx hfollows => forgotten_step hx hfollows hstep
  · rintro x ⟨out, caller, request⟩ x' hstep hx
    cases request with
    | chatLost accountId chatId reason => exact follows_chatLost_iff hstep
    | publish pk expectedVersion => exact iff_of_true (follows_publish hx hstep) trivial
    | _ => exact Iff.rfl
  · exact fun _ he => nomatch he

end JoinDesk

def withSender : ControlPlane where
  __ := ControlPlane.ofDirectory .oneProject
  rules := Slots.add .empty {
    uuid := "r", tenantId := 1, projectId := 1, accountId := 1, name := "r", senderAccountIds := [1, 2] }
  targets := Slots.add .empty {
    ruleId := 0, tenantId := 1, projectId := 1, routeId := "route", sourceChatId := -100
    targetChatId := -200, sourceChatRef := some "t.me/s", targetChatRef := some "t.me/t" }

def publishWithSender : JoinCall where
  out := { ControlPlane.silence with
    join := fun _ _ _ => .ok fun ref => some (.ok (if ref = "t.me/s" then -100 else -200)) }
  caller := { id := 1, isSuperuser := true }
  request := .publish 0 0

/-- A sender that is reported out of the target chat stays recorded in it. -/
theorem lost_sender_stays_recorded : ¬ ∀ (s : ControlPlane) (calls : List JoinCall),
    Machine.Always JoinDesk.step JoinDesk.Follows ⟨s, []⟩ calls := by
  intro h
  let report : JoinCall := { publishWithSender with request := .chatLost 2 (-200) "kicked" }
  have hobserved : ((Machine.run JoinDesk.step ⟨withSender, []⟩ [publishWithSender]).bind fun x =>
      (x.step report).map fun x' => (x'.plane.rule 0).map fun rule => (rule.uses 2,
        (x'.plane.activeTargets 0).map fun t => decide (t.2.Records 2 (-200)))) =
          some (some (true, [true])) := by decide +kernel
  obtain ⟨x, x', hrun, hstep, hx⟩ := Machine.exists_of_observed hobserved
  refine Machine.not_always_of_step hrun hstep ?_ (h _ _)
  intro hfollows
  obtain ⟨rule, hrule, hx⟩ := Option.map_eq_some_iff.mp hx
  obtain ⟨huses, htargets⟩ := Prod.mk.inj hx
  obtain ⟨t, ht, hrecords⟩ := List.mem_map.mp (htargets ▸ List.mem_singleton_self true)
  exact hfollows 0 rule hrule huses t ht (of_decide_eq_true hrecords)

end TgPlatform
