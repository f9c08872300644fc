import TgPlatform.Control.GroupReferences
import TgPlatform.Rules.SelfFeeding

/-! # What the rule requests keep of the references

The accounts of a rule are looked up in its project when they are written, and
a failover looks its candidate up once more. The group that a rule borrows its
model from is written as it is given.
-/

namespace TgPlatform

namespace ControlPlane

variable {s s' : ControlPlane} {out : Outside} {caller : Caller} {α : Type}

theorem dir_of_refs (h : s'.refs = s.refs) : s'.dir = s.dir := congrArg Prod.fst h

theorem KeepsRefs.andThen {β : Type} {m : Req β} {k : β → Req α} (hm : KeepsRefs m s)
    (hk : ∀ b s', s'.refs = s.refs → KeepsRefs (k b) s') : KeepsRefs (m >>= k) s :=
  Txn.Post.bind (hm.mono fun b s' h => (hk b s' h).mono fun _ _ h' => h'.trans h)

theorem KeepsRefs.loop {β : Type} {f : β → Req Unit} {l : List β}
    (h : ∀ b ∈ l, ∀ s', s'.refs = s.refs → KeepsRefs (f b) s') : KeepsRefs (Txn.each f l) s := by
  refine Txn.Post.each (I := fun s' : ControlPlane => s'.refs = s.refs) (fun b hb s' hs' => ?_) rfl
  exact (h b hb s' hs').mono fun _ _ h' => h'.trans hs'

theorem issueCommand_keepsRefs {accountId : ℕ} {type dedupKey : String} :
    KeepsRefs (issueCommand out caller accountId type dedupKey) s := by
  refine issueCommand_keeps.mono ?_
  rintro _ _ ⟨commands, rfl⟩
  rfl

theorem getRule_keepsRefs {pk : ℕ} {k : CloneRule → Req α}
    (h : ∀ rule, s.rule pk = some rule → KeepsRefs (k rule) s) :
      KeepsRefs (getRule caller pk >>= k) s := by
  refine .bind (getRule_keeps.mono ?_)
  rintro rule _ ⟨hrule, rfl⟩
  exact h rule hrule

/-! ## Sessions of the listening account -/

section Listener

variable {rule : CloneRule} (hlistener : s.dir.Has rule.accountId rule.scope)

include hlistener

theorem resolveRefs_keepsRefs {refs : List String} : KeepsRefs (resolveRefs out rule refs) s := by
  refine .bind (.read (.bind (orRefuse_keeps.mono fun account s' h => ?_)))
  obtain ⟨haccount, rfl⟩ := h
  refine (joinChatRefs_keeps (hlistener.scope_eq haccount)).mono ?_
  rintro _ _ rfl
  rfl

theorem resolveNames_keepsRefs {names : List String} : KeepsRefs (resolveNames out rule names) s := by
  unfold resolveNames
  split
  · exact .ret rfl
  · refine .bind (.read (.bind (orRefuse_keeps.mono fun account s' h => ?_)))
    obtain ⟨haccount, rfl⟩ := h
    exact .bind (.emit (hlistener.scope_eq haccount) (.lift fun _ _ => rfl))

theorem normalizeFilters_keepsRefs {filters : Option (List (String × Json))} :
    KeepsRefs (normalizeFilters out rule filters) s := by
  unfold normalizeFilters
  split
  · exact .ret rfl
  · exact .ret rfl
  · refine .bind (orCrash_keeps.mono ?_)
    rintro _ _ ⟨-, rfl⟩
    refine .bind (orCrash_keeps.mono ?_)
    rintro _ _ ⟨-, rfl⟩
    refine (resolveNames_keepsRefs hlistener).andThen fun _ s' h => ?_
    exact .bind (.lift fun _ _ => .bind (.lift fun _ _ => .ret rfl))

end Listener

theorem resolveOrRaise_keepsRefs {results : String → Option JoinResult} {label ref : String} :
    KeepsRefs (Outside.resolveOrRaise results label ref) s :=
  resolveOrRaise_keeps.mono fun _ _ h => congrArg refs h

/-! ## Targets -/

theorem addTarget_keepsRefs {ruleId : ℕ} {obj : CloneTargetParam} (hs : s.Inside) :
    KeepsRefs (addTarget out caller ruleId obj) s := by
  refine getRule_keepsRefs fun rule hrule => ?_
  have hlistener := (hs.rules ruleId rule hrule).listener
  split
  · exact refuse_keeps
  dsimp only
  split
  · exact refuse_keeps
  refine (resolveRefs_keepsRefs hlistener).andThen fun results s₁ h₁ => ?_
  refine resolveOrRaise_keepsRefs.andThen fun srcId s₂ h₂ =>
    resolveOrRaise_keepsRefs.andThen fun dstId s₃ h₃ => ?_
  split
  · exact refuse_keeps
  have hdir : s₃.dir = s.dir := dir_of_refs (h₃.trans (h₂.trans h₁))
  refine (normalizeFilters_keepsRefs (hdir ▸ hlistener)).andThen fun filters s₄ _ =>
    .bind (.read (.bind (.read ?_)))
  split
  · exact refuse_keeps
  split
  · exact .throw
  · exact .bind (.read (.bind (.write (.ret rfl))))

theorem updateTarget_keepsRefs {ruleId targetId : ℕ} {obj : CloneTargetParam} (hs : s.Inside) :
    KeepsRefs (updateTarget out caller ruleId targetId obj) s := by
  refine getRule_keepsRefs fun rule hrule => .bind (.read (orRefuse_keepsRefs fun target => ?_))
  dsimp only
  split
  · refine (normalizeFilters_keepsRefs (hs.rules ruleId rule hrule).listener).andThen
      fun filters s' _ => ?_
    exact .bind (.write (.ret rfl))
  · refine KeepsRefs.andThen (.write rfl) fun _ s' h => ?_
    exact addTarget_keepsRefs (hs.of_refs h)

theorem retireTarget_keepsRefs {ruleId targetId : ℕ} :
    KeepsRefs (retireTarget caller ruleId targetId) s :=
  getRule_keepsRefs fun _ _ => .bind (.read (orRefuse_keepsRefs fun _ => .write rfl))

theorem checkRoutes_keepsRefs {pk : ℕ} (hs : s.Inside) : KeepsRefs (checkRoutes out caller pk) s := by
  refine getRule_keepsRefs fun rule hrule => .bind (.read ?_)
  split
  · exact .ret rfl
  · refine (resolveRefs_keepsRefs (hs.rules pk rule hrule).listener).andThen fun results s' _ => ?_
    refine KeepsRefs.andThen (.loop fun _ _ _ _ => .write rfl) fun _ _ _ => .ret rfl

/-! ## Joining and publishing -/

section Joining

variable {rule : CloneRule} {results : String → Option JoinResult}

def PoolInside (s : ControlPlane) (rule : CloneRule) : Prop :=
  s.dir.Has rule.accountId rule.scope ∧ ∀ a ∈ rule.senderPool, s.dir.Has a rule.scope

theorem mem_senderPool {a : ℕ} (h : a ∈ rule.senderPool) :
    a ∈ rule.senderAccountIds ∨ a = rule.accountId := by
  unfold CloneRule.senderPool at h
  dsimp only at h
  split at h
  · exact .inr (List.mem_singleton.mp h)
  · exact .inl (List.mem_of_mem_filter (List.mem_eraseDups.mp h))

theorem Inside.poolInside {pk : ℕ} (hs : s.Inside) (hrule : s.rule pk = some rule) :
    s.PoolInside rule := by
  have hinside := hs.rules pk rule hrule
  refine ⟨hinside.listener, fun a ha => ?_⟩
  rcases mem_senderPool ha with ha | rfl
  · exact hinside.pool a ha
  · exact hinside.listener

theorem joinListener_keepsRefs {pk : ℕ} {t : CloneTarget} :
    KeepsRefs (joinListener out rule results pk t) s := by
  refine resolveOrRaise_keepsRefs.andThen fun srcId _ _ =>
    resolveOrRaise_keepsRefs.andThen fun dstId _ _ => ?_
  refine .bind (.read ?_)
  split
  · exact .throw
  · exact .write rfl

theorem joinSender_keepsRefs {accountId pk : ℕ} {t : CloneTarget} :
    KeepsRefs (joinSender accountId results pk t) s :=
  resolveOrRaise_keepsRefs.andThen fun _ _ _ => .write rfl

theorem autoJoinListener_keepsRefs {targets : List (ℕ × CloneTarget)}
    (hlistener : s.dir.Has rule.accountId rule.scope) :
      KeepsRefs (autoJoinListener out rule targets) s := by
  unfold autoJoinListener
  split
  · exact .ret rfl
  · exact (resolveRefs_keepsRefs hlistener).andThen fun _ _ _ => .loop fun _ _ _ _ =>
      joinListener_keepsRefs

theorem autoJoinPool_keepsRefs {scope : Scope} {ruleId : ℕ} {senders : List ℕ}
    (hsenders : ∀ a ∈ senders, s.dir.Has a scope) :
      KeepsRefs (autoJoinPool out scope ruleId senders) s := by
  refine KeepsRefs.loop fun accountId ha s' h => .bind (.read ?_)
  dsimp only
  split
  · exact .ret rfl
  · refine .bind (.read (.bind (orRefuse_keeps.mono fun account s'' h' => ?_)))
    obtain ⟨haccount, rfl⟩ := h'
    have hscope := (hsenders accountId ha).scope_eq (dir_of_refs h ▸ haccount)
    refine .bind ((joinChatRefs_keeps hscope).mono ?_)
    rintro results _ rfl
    exact KeepsRefs.loop fun _ _ _ _ => joinSender_keepsRefs

theorem autoJoin_keepsRefs {ruleId : ℕ} (hpool : s.PoolInside rule) :
    KeepsRefs (autoJoin out ruleId rule) s := by
  refine .bind (.read ?_)
  dsimp only
  split
  · exact .ret rfl
  · refine (autoJoinListener_keepsRefs hpool.1).andThen fun _ s' h =>
      autoJoinPool_keepsRefs fun a ha => ?_
    exact dir_of_refs h ▸ hpool.2 a (List.mem_of_mem_filter ha)

theorem joinBeforeRun_keepsRefs {pk : ℕ} (hpool : s.PoolInside rule) :
    KeepsRefs (joinBeforeRun out caller pk rule) s := by
  unfold joinBeforeRun
  split
  · exact (autoJoin_keepsRefs hpool).andThen fun _ _ _ => issueCommand_keepsRefs
  · exact .ret rfl

theorem publish_inside {pk : ℕ} {expectedVersion : ℤ} (hs : s.Inside) :
    Txn.Post (publish out caller pk expectedVersion) s Use.Inside fun _ s' => s'.Inside := by
  refine .bind (getRule_keeps.mono ?_)
  rintro rule _ ⟨hrule, rfl⟩
  have hpool := hs.poolInside hrule
  refine .bind (.read ?_)
  split
  · exact refuse_keeps
  split
  · exact refuse_keeps
  split
  · exact refuse_keeps
  split
  · exact refuse_keeps
  refine .bind ((joinBeforeRun_keepsRefs hpool).mono fun _ s' h => ?_)
  have hs' := hs.of_refs h
  have hdir := dir_of_refs h
  refine .bind (.read (.bind (.write (.bind (.write (.bind ?_))))))
  refine (issueCommand_keepsRefs.inside ?_).mono fun _ _ h => .ret h
  refine (hs'.addVersion ⟨?_, ?_⟩).modifyRule fun r _ hlive =>
    ⟨hlive, fun h => ⟨h.listener, h.pool, h.group⟩⟩
  · exact hdir ▸ hpool.1
  · exact hdir ▸ hpool.2

end Joining

/-! ## Writing a rule -/

/-- The group that a rule of the scope names is of that scope, if it is there. -/
def BorrowsInside (s : ControlPlane) (aiGroupId : Option GroupId) (scope : Scope) : Prop :=
  ∀ gid ∈ aiGroupId, ∀ g ∈ s.groups.row? gid, g.scope = scope

theorem validatePool_keeps {U : Use → Prop} {t p : ℕ} {pool : List ℕ} {mode : String} :
    Txn.Post (validatePool t p pool mode) s U fun _ s' => (∀ a ∈ pool, s.dir.Has a (t, p)) ∧ s' = s := by
  unfold validatePool
  split
  · exact refuse_keeps
  · refine (Txn.Post.each_tests (P := fun a => s.dir.Has a (t, p)) fun a _ => ?_).mono ?_
    · refine .bind (.read (.bind (orRefuse_keeps.mono ?_)))
      rintro account _ ⟨haccount, rfl⟩
      exact .ret ⟨Directory.has_of_accountByScope haccount, rfl⟩
    · rintro _ s' ⟨hall, rfl⟩
      exact ⟨fun a ha => hall a (List.mem_eraseDups.mpr ha), rfl⟩

theorem createRule_inside {obj : CreateCloneRule} (hs : s.Inside)
    (hborrows : s.BorrowsInside obj.aiGroupId (obj.tenantId, obj.projectId)) :
    Txn.Post (createRule out caller obj) s Use.Inside fun _ s' => s'.Inside := by
  refine .bind (checkScope_keeps.mono ?_)
  rintro _ _ ⟨-, rfl⟩
  refine .bind (.read (.bind (orRefuse_keeps.mono ?_)))
  rintro project _ ⟨-, rfl⟩
  refine .bind (.read (.bind (orRefuse_keeps.mono ?_)))
  rintro account _ ⟨haccount, rfl⟩
  refine .bind (validatePool_keeps.mono ?_)
  rintro _ _ ⟨hpool, rfl⟩
  refine .bind (.read ?_)
  split
  · exact .throw
  · exact .write (hs.addRule ⟨Directory.has_of_accountByScope haccount, hpool, hborrows⟩)

theorem updateRule_inside {pk : ℕ} {obj : UpdateCloneRule} (hs : s.Inside)
    (hborrows : ∀ rule ∈ s.rule pk, s.BorrowsInside obj.aiGroupId rule.scope) :
    Txn.Post (updateRule out caller pk obj) s Use.Inside fun _ s' => s'.Inside := by
  refine .bind (getRule_keeps.mono ?_)
  rintro rule _ ⟨hrule, rfl⟩
  refine .bind (validatePool_keeps.mono ?_)
  rintro _ _ ⟨hpool, rfl⟩
  refine .bind (.read ?_)
  split
  · exact .throw
  · refine .bind (.write ((issueCommand_keepsRefs.inside ?_).mono fun _ _ h => h))
    refine hs.modifyRule fun r hr hlive => ?_
    obtain ⟨hrow, hdeleted⟩ := rule_eq_some.mp hrule
    obtain rfl : rule = r := Option.some.inj (hrow.symm.trans hr)
    refine ⟨hdeleted, fun hinside => ⟨hinside.listener, hpool, fun gid hgid g hg => ?_⟩⟩
    rcases Option.or_eq_some_iff.mp hgid with hset | ⟨-, hkept⟩
    · exact hborrows rule hrule gid hset g hg
    · exact hinside.group gid hkept g hg

theorem deleteRule_inside {pk : ℕ} (hs : s.Inside) :
    Txn.Post (deleteRule out caller pk) s Use.Inside fun _ s' => s'.Inside := by
  refine .bind (getRule_keeps.mono ?_)
  rintro rule _ ⟨-, rfl⟩
  refine .bind (.write ((issueCommand_keepsRefs.inside ?_).mono fun _ _ h => h))
  exact hs.modifyRule fun _ _ hlive => by cases hlive

/-! ## Reports of the workers -/

section Reports

variable {rule : CloneRule}

theorem takeover_inside {dead pid : ℕ} {srcRefs : List String} :
    Txn.Post (takeover out dead rule srcRefs pid) s Use.Inside fun cand s' =>
      s' = s ∧ ∀ a, cand = some a → s.dir.Has a.id rule.scope := by
  unfold takeover
  split
  · exact .ret ⟨rfl, nofun⟩
  refine .bind (.read ?_)
  split
  · exact .ret ⟨rfl, nofun⟩
  rename_i account hcand
  obtain ⟨hmem, -, hscope⟩ := Directory.accountByScope_eq_some (Option.filter_eq_some_iff.mp hcand).1
  have hhas : s.dir.Has account.id rule.scope := ⟨account, hmem, rfl, hscope⟩
  split
  · exact .ret ⟨rfl, fun a ha => Option.some.inj ha ▸ hhas⟩
  · refine .bind ((Txn.Post.attempt (joinChatRefs_keeps hscope) rfl).mono ?_)
    rintro results _ rfl
    refine .ret ⟨rfl, fun a ha => ?_⟩
    split at ha
    · exact Option.some.inj ha ▸ hhas
    · cases ha

theorem failoverRule_inside {dead pk : ℕ} (hs : s.Inside)
    (hrow : ∀ r, s.rules.row? pk = some r → r.scope = rule.scope) :
    Txn.Post (failoverRule out dead pk rule) s Use.Inside fun _ s' =>
      s'.Inside ∧ Slots.SameBy CloneRule.scope s.rules s'.rules := by
  unfold failoverRule
  split
  · exact .ret ⟨hs, .refl⟩
  refine .bind (.read (.bind (Txn.Post.mono (Txn.Post.firstSome (I := fun s' => s' = s)
    (P := fun a => s.dir.Has a.id rule.scope) ?_ rfl) ?_)))
  · rintro pid _ _ rfl
    exact takeover_inside
  · rintro cand _ ⟨rfl, hcand⟩
    split
    · exact .ret ⟨hs, .refl⟩
    · rename_i cand
      refine .bind (.write (.bind
        (.write (.ret ⟨Inside.of_refs (hs.modifyRule fun r hr hlive => ?_) rfl, ?_⟩))))
      · refine ⟨hlive, fun h => ⟨?_, h.pool, h.group⟩⟩
        rw [show ({ r with accountId := cand.id } : CloneRule).scope = rule.scope from hrow r hr]
        exact hcand cand rfl
      · exact .modify fun _ => rfl

theorem reportAccountStatus_inside {accountId : ℕ} {status : String} (hs : s.Inside) :
    Txn.Post (reportAccountStatus out accountId status) s Use.Inside fun _ s' => s'.Inside := by
  refine .bind (.read (.bind (orRefuse_keeps.mono ?_)))
  rintro account s ⟨-, rfl⟩
  refine .bind (.write ?_)
  unfold failoverListenerIfDead
  split
  · exact .ret hs.observe
  refine .bind (.read (.bind (Txn.Post.mono (Txn.Post.collect
    (I := fun s' : ControlPlane => s'.Inside ∧ Slots.SameBy CloneRule.scope s.rules s'.rules) ?_
    ⟨hs.observe, .refl⟩) fun _ _ h => .ret h.1)))
  rintro ⟨pk, rule⟩ hmem s' ⟨hs', hsame⟩
  refine (failoverRule_inside hs' fun r hr => ?_).mono fun _ _ h => ⟨h.1, hsame.trans h.2⟩
  obtain ⟨a, ha, hscope⟩ := hsame.row hr
  have hrow : s.rules.row? pk = some rule := (Slots.mem_where.mp hmem).1
  obtain rfl : a = rule := Option.some.inj (ha.symm.trans hrow)
  exact hscope.symm

theorem reportChatLost_keepsRefs {accountId : ℕ} {chatId : ℤ} {reason : String} :
    KeepsRefs (reportChatLost accountId chatId reason) s := by
  refine .bind (.read (orRefuse_keepsRefs fun _ => .bind (.read (.bind (.read ?_)))))
  exact KeepsRefs.andThen (.loop fun _ _ _ _ => .write rfl) fun _ _ _ => .ret rfl

theorem cloneAiGroup_inside {pk : ℕ} {g : AiGroup} (hs : s.Inside) (hrule : s.rule pk = some rule)
    (hg : s.cloneAiGroup pk rule = some g) : g.scope = rule.scope := by
  unfold cloneAiGroup at hg
  split at hg
  · rename_i group hgroup
    obtain ⟨gid, hgid, hlive⟩ := Option.bind_eq_some_iff.mp hgroup
    exact Option.some.inj hg ▸ (hs.rules pk rule hrule).group gid hgid group (group_eq_some.mp hlive).1
  · obtain ⟨x, hx, rfl⟩ := Option.map_eq_some_iff.mp hg
    have hmem := (Slots.mem_where.mp (List.mem_of_find?_eq_some hx)).2
    simp only [Bool.and_eq_true, decide_eq_true_eq] at hmem
    exact Prod.ext hmem.1.2 hmem.2

theorem cloneTransform_keepsRefs {ruleId : ℕ} {text : String} (hs : s.Inside) :
    KeepsRefs (cloneTransform out ruleId text) s := by
  refine .bind (.read ?_)
  split
  · exact .ret rfl
  rename_i rule hrule
  dsimp only
  split
  · exact .ret rfl
  split
  · exact .ret rfl
  refine .bind (.read ?_)
  split
  · exact .ret rfl
  rename_i group hgroup
  have hscope := cloneAiGroup_inside hs hrule (Option.filter_eq_some_iff.mp hgroup).1
  refine .bind (.emit hscope ?_)
  split
  · exact .throw
  · exact .ret rfl
  · split
    · exact .ret rfl
    · exact .ret rfl

end Reports

end ControlPlane

end TgPlatform
