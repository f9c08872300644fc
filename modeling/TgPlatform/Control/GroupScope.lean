import TgPlatform.Control.TriggerScope

/-! # Groups among a user's own rows

The handlers of groups, members and scripts test the caller's membership in the
group's project, those of personas and private replies in that of their row.
-/

namespace TgPlatform

namespace ControlPlane

variable {s : ControlPlane} {u : UserId} {out : Outside} {α β : Type}

/-! ## Membership tests -/

theorem checkScope_bind {t p : ℕ} {k : Unit → Req β}
    (h : s.mine u (t, p) = true → Confined u (k ()) s) :
    Confined u (checkScope ⟨u, false⟩ t p >>= k) s := by
  have htest : Confined u (checkScope ⟨u, false⟩ t p) s := by
    refine .read_bind scopes_visible ?_
    split
    · exact .ret
    · exact .throw
  refine .bind_post htest (checkScope_keeps (U := fun _ => True)) ?_
  rintro ⟨⟩ s' ⟨hmember, rfl⟩
  exact h (by simpa [mine] using hmember)

variable {pk : GroupId} {P : AiGroup → Prop}

theorem getGroup_bind {k : AiGroup → Req β} (hown : s.GroupOwned u pk P)
    (h : ∀ g, s.group pk = some g → s.mine u g.scope = true → P g → Confined u (k g) s) :
    Confined u (getGroup ⟨u, false⟩ pk >>= k) s := by
  have htest : Confined u (getGroup ⟨u, false⟩ pk) s := by
    refine .read_bind (group_visible fun g hg => (hown g hg).1) (orRefuse_bind fun g _ => ?_)
    exact checkScope_bind fun _ => .ret
  refine .bind_post htest (getGroup_keeps (U := fun _ => True)) ?_
  rintro g s' ⟨hg, -, rfl⟩
  exact h g hg (hown g hg).1 (hown g hg).2

theorem row_of_group {g : AiGroup} (h : s.group pk = some g) : s.groups.row? pk = some g :=
  (Option.filter_eq_some_iff.mp h).1

theorem modifyGroup {g : AiGroup} {f : AiGroup → AiGroup} (hg : s.group pk = some g)
    (hmine : s.mine u g.scope = true) (hf : (f g).scope = g.scope) :
    Confined u (Txn.write fun s => s.updateGroupRow pk f) s := by
  refine groupTable.modify fun a ha => ?_
  obtain rfl : g = a := Option.some.inj ((row_of_group hg).symm.trans ha)
  exact ⟨hmine, (congrArg (s.mine u) hf).trans hmine⟩

/-! ## Details -/

variable {g : AiGroup}

theorem runsOfBindings_visible {ids : List BindingId} {counted : AiRun → Bool}
    (h : s.RunsOwned u ids counted) :
    ((s.visible u).runsOfBindings ids).filter (fun r => counted r.2.1) =
      (s.runsOfBindings ids).filter fun r => counted r.2.1 := by
  change (((s.runs.mask fun r => s.mine u r.scope).all.filterMap fun r =>
    ((s.conversations.mask fun c => s.mine u c.scope).row? r.2.conversationId).bind _).filter _) = _
  unfold runsOfBindings
  rw [Slots.all_mask, List.filterMap_filter, List.filter_filterMap, List.filter_filterMap]
  refine List.filterMap_congr fun r hr => ?_
  rw [Slots.row?_mask]
  cases hconv : s.conversations.row? r.2.conversationId with
  | none => cases s.mine u r.2.scope <;> rfl
  | some c =>
    by_cases hid : c.bindingId ∈ ids
    · cases hcounted : counted r.2 with
      | false =>
        cases s.mine u r.2.scope <;> cases hc : s.mine u c.scope <;>
          simp [Option.filter, hid, hcounted, hc]
      | true =>
        have hmem : (r.1, r.2, c.bindingId) ∈ s.runsOfBindings ids :=
          List.mem_filterMap.mpr ⟨r, hr, by simp [hconv, hid]⟩
        obtain ⟨hrun, hconvs⟩ := h _ hmem hcounted
        simp [hrun, hconvs c hconv, Option.filter, hid]
    · cases s.mine u r.2.scope <;> cases hc : s.mine u c.scope <;> simp [Option.filter, hid, hc]

theorem pendingCandidates_visible {accounts : List ℕ}
    (h : ∀ x ∈ s.pendingCandidates g accounts, s.mine u x.2.scope = true) :
    (s.visible u).pendingCandidates g accounts = s.pendingCandidates g accounts :=
  Slots.where_mask_of h

theorem groupDetail_visible {dayStart : Time} (hg : s.mine u g.scope = true)
    (h : s.DetailOwned u dayStart pk g) :
    (s.visible u).groupDetail dayStart pk g = s.groupDetail dayStart pk g := by
  have hruns := runsOfBindings_visible h.1
  have hcandidates := pendingCandidates_visible h.2
  unfold groupDetail
  simp only [members_visible hg]
  unfold repliesSince at hruns
  rw [hruns, hcandidates]

/-! ## Groups -/

theorem listGroups_confined {t p : Option ℕ} (h : ∀ x ∈ s.groupsOf t p,
    s.mine u x.2.scope = true → s.DetailOwned u out.dayStart x.1 x.2) :
    Confined u (listGroups out ⟨u, false⟩ t p) s := by
  refine .read_bind scopes_visible (.read_bind ?_ (.read ?_))
  · exact Slots.where_mask_filter (p := fun g : AiGroup => s.mine u g.scope)
  · refine List.map_congr_left fun x hx => ?_
    obtain ⟨hmem, hmine⟩ := List.mem_filter.mp hx
    exact groupDetail_visible hmine (h x hmem hmine)

theorem groupsOf_scope_visible {t p : ℕ} (h : s.mine u (t, p) = true) :
    (s.visible u).groupsOf (some t) (some p) = s.groupsOf (some t) (some p) := by
  refine Slots.where_mask fun _ g _ hg => ?_
  rw [Bool.and_eq_true, Bool.and_eq_true] at hg
  rw [AiGroup.scope, scope_of_matchesParam hg.1.2 hg.2, h]

theorem resolveChat_confined {t p : ℕ} {chat : String} {accountId : Option ℕ}
    (h : s.mine u (t, p) = true) : Confined u (resolveChat out t p chat accountId) s := by
  unfold resolveChat
  dsimp only
  split
  · split
    · exact .bind orCrash_confined fun _ _ _ => .ret
    · exact .throw
  · refine .read_bind (accountByScope_visible h) (orRefuse_bind fun account _ => ?_)
    exact joinChatRefs_bind fun results => .bind resolveOrRaise_confined fun _ _ _ => .ret

theorem DetailOwned.of_unused {dayStart : Time}
    (h : ∀ x ∈ s.bindingsOf (some g.tenantId) (some g.projectId), x.2.groupId ≠ some pk) :
    s.DetailOwned u dayStart pk g := by
  have hmembers : s.members pk g = [] := by
    refine List.filter_eq_nil_iff.mpr fun x hx => ?_
    simpa using h x hx
  unfold DetailOwned
  rw [hmembers]
  constructor
  · intro x hx
    simp [runsOfBindings] at hx
  · intro x hx
    simp [pendingCandidates, Slots.where_] at hx

theorem createGroup_confined {obj : CreateAiGroup}
    (h : ∀ x ∈ s.bindingsOf (some obj.tenantId) (some obj.projectId),
      x.2.groupId ≠ some s.groups.size) : Confined u (createGroup out ⟨u, false⟩ obj) s := by
  refine checkScope_bind fun hmine => ?_
  refine .bind_post (resolveChat_confined hmine)
    (resolveChat_keeps (U := fun _ => True) fun _ _ _ => trivial) ?_
  rintro ⟨chatId, chatRef⟩ s' rfl
  refine .read_bind (groupsOf_scope_visible hmine) ?_
  split
  · exact .throw
  · refine .read_bind Slots.size_mask (.bind (groupTable.add hmine) fun _ s'' heq => ?_)
    cases heq
    exact .read (groupDetail_visible hmine (DetailOwned.of_unused h))

theorem updateGroup_confined {obj : GroupFields}
    (h : s.GroupOwned u pk (s.DetailOwned u out.dayStart pk)) :
    Confined u (updateGroup out ⟨u, false⟩ pk obj) s := by
  refine getGroup_bind h fun g hg hmine hdetail => ?_
  split
  · exact .throw
  · refine .bind (modifyGroup hg hmine rfl) fun _ s' heq => ?_
    cases heq
    exact .read (groupDetail_visible hmine hdetail)

theorem getGroupMessages_confined (h : s.GroupOwned u pk fun _ => True) :
    Confined u (getGroupMessages ⟨u, false⟩ pk) s :=
  getGroup_bind h fun _ _ _ _ => .ret

theorem mem_members {x : BindingId × AiBinding} (h : x ∈ s.members pk g) :
    s.bindings.row? x.1 = some x.2 ∧ x.2.scope = g.scope := by
  obtain ⟨hrow, -, ht, hp⟩ := mem_bindingsOf.mp (List.mem_of_mem_filter h)
  exact ⟨hrow, scope_of_matchesParam ht hp⟩

theorem eachBinding_keeps {U : Use → Prop} {l : List (BindingId × AiBinding)}
    {f : AiBinding → AiBinding} :
    Txn.Post (Txn.each (fun x => Txn.write fun s => s.updateBindingRow x.1 f) l : Req Unit) s U
      fun _ s' => ∃ t, s' = { s with bindings := t } := by
  refine Txn.Post.each (I := fun s' => ∃ t, s' = { s with bindings := t }) ?_ ⟨s.bindings, rfl⟩
  rintro x - s' ⟨t, rfl⟩
  exact .write ⟨_, rfl⟩

theorem eachScript_keeps {U : Use → Prop} {l : List (ℕ × AiScript)} :
    Txn.Post (Txn.each (fun x => Txn.write fun s : ControlPlane =>
      { s with scripts := s.scripts.remove x.1 }) l : Req Unit) s U fun _ s' =>
        ∃ t, s' = { s with scripts := t } := by
  refine Txn.Post.each (I := fun s' => ∃ t, s' = { s with scripts := t }) ?_ ⟨s.scripts, rfl⟩
  rintro x - s' ⟨t, rfl⟩
  exact .write ⟨_, rfl⟩

theorem eachScript_confined {l : List (ℕ × AiScript)}
    (hl : ∀ x ∈ l, ∀ y, s.scripts.row? x.1 = some y → s.mine u y.scope = true) :
    Confined u (Txn.each (fun x => Txn.write fun s : ControlPlane =>
      { s with scripts := s.scripts.remove x.1 }) l) s := by
  refine Txn.Confined.each (I := fun s => ∀ x ∈ l, ∀ y, s.scripts.row? x.1 = some y →
    s.mine u y.scope = true) (fun x hx s hs => ⟨scriptTable.remove (hs x hx), .write ?_⟩) hl
  intro z hz y hy
  change (s.scripts.remove x.1).row? z.1 = some y at hy
  rw [Slots.row?_remove] at hy
  split at hy
  · cases hy
  · exact hs z hz y hy

theorem deleteGroup_confined
    (h : s.GroupOwned u pk fun _ => ∀ x ∈ s.scriptsOf pk, s.mine u x.2.scope = true) :
    Confined u (deleteGroup ⟨u, false⟩ pk) s := by
  refine getGroup_bind h fun g hg hmine hscripts => ?_
  refine .read_bind (members_visible hmine) ?_
  refine .bind_post (eachBinding_confined ?_ fun _ => rfl) (eachBinding_keeps (U := fun _ => True)) ?_
  · intro x hx b hb
    obtain ⟨hrow, hscope⟩ := mem_members hx
    obtain rfl : x.2 = b := Option.some.inj (hrow.symm.trans hb)
    exact hscope ▸ hmine
  rintro ⟨⟩ s' ⟨t, rfl⟩
  refine .read_bind (Slots.where_mask_of hscripts) ?_
  refine .bind_post (eachScript_confined ?_) (eachScript_keeps (U := fun _ => True)) ?_
  · intro x hx y hy
    obtain ⟨hrow, -⟩ := Slots.mem_where.mp hx
    obtain rfl : x.2 = y := Option.some.inj (hrow.symm.trans hy)
    exact hscripts x hx
  rintro ⟨⟩ s' ⟨t', rfl⟩
  refine groupTable.remove fun a ha => ?_
  obtain rfl : g = a := Option.some.inj ((row_of_group hg).symm.trans ha)
  exact hmine

/-! ## Members -/

theorem listMembers_confined (h : s.GroupOwned u pk (s.AccountsOwned u pk)) :
    Confined u (listMembers ⟨u, false⟩ pk) s := by
  refine getGroup_bind h fun g _ hmine haccounts => ?_
  refine .read_bind (members_visible hmine) (.read_bind ?_ .ret)
  exact List.map_congr_left fun x hx => accountRow_visible (haccounts x hx)

theorem memberApply_confined {obj : AiMember} {b : AiBinding} :
    Confined u (obj.apply out b) s := by
  unfold AiMember.apply
  iterate 3 refine required_bind fun _ => ?_
  exact .ret

theorem joinGroup_confined {account : TelegramAccount} :
    Confined u (joinGroup out g account) s := by
  unfold joinGroup
  split
  · exact .ret
  · refine joinChatRefs_bind fun results => ?_
    split
    · exact .ret
    · exact .throw
    · exact .throw

theorem addMember_confined {obj : AiMember} (h : s.GroupOwned u pk fun _ => True) :
    Confined u (addMember out ⟨u, false⟩ pk obj) s := by
  refine getGroup_bind h fun g _ hmine _ => orRefuse_bind fun accountId _ => ?_
  refine .read_bind (accountByScope_visible hmine) (orRefuse_bind fun account _ => ?_)
  refine .read_bind (members_visible hmine) ?_
  split
  · exact .throw
  · refine .bind_post joinGroup_confined (joinGroup_keeps (U := fun _ => True) trivial) ?_
    rintro ⟨⟩ s' rfl
    refine .bind_post memberApply_confined (memberApply_keeps (U := fun _ => True)) ?_
    rintro b s' ⟨ht, hp, -, -, -, rfl⟩
    refine bindingTable.add (?_ : s'.mine u b.scope = true)
    rw [AiBinding.scope, ht, hp]
    exact hmine

theorem getMember_bind {memberId : BindingId} {k : AiBinding → Req β}
    (hown : s.GroupOwned u pk fun _ => s.MemberOwned u pk memberId)
    (h : ∀ b, s.binding memberId = some b → s.mine u b.scope = true → Confined u (k b) s) :
    Confined u (getMember ⟨u, false⟩ pk memberId >>= k) s := by
  have hmember (hown : s.MemberOwned u pk memberId) :
      ((s.visible u).binding memberId).filter (fun b => b.groupId = some pk) =
        (s.binding memberId).filter fun b => b.groupId = some pk :=
    Slots.row?_mask_filter_filter fun b hb hpoints => hown b hb (of_decide_eq_true hpoints)
  have htest : Confined u (getMember ⟨u, false⟩ pk memberId) s := by
    refine getGroup_bind hown fun g _ _ hown => .read_bind (hmember hown) ?_
    exact orRefuse_confined
  refine .bind_post htest (getMember_keeps (U := fun _ => True)) ?_
  rintro b s' ⟨hb, hpoints, ⟨g, hg, -⟩, rfl⟩
  exact h b hb ((hown g hg).2 b hb hpoints)

theorem updateMember_confined {memberId : BindingId} {obj : AiMember}
    (h : s.GroupOwned u pk fun _ => s.MemberOwned u pk memberId) :
    Confined u (updateMember out ⟨u, false⟩ pk memberId obj) s := by
  refine getMember_bind h fun b hb hmine => ?_
  refine .bind_post memberApply_confined (memberApply_keeps (U := fun _ => True)) ?_
  rintro updated s' ⟨ht, hp, -, -, -, rfl⟩
  refine modifyBinding hb hmine ?_
  rw [AiBinding.scope, ht, hp, AiBinding.scope]

theorem deleteMember_confined {memberId : BindingId}
    (h : s.GroupOwned u pk fun _ => s.MemberOwned u pk memberId) :
    Confined u (deleteMember ⟨u, false⟩ pk memberId) s :=
  getMember_bind h fun _ hb hmine => modifyBinding hb hmine rfl

/-! ## Runs of a group -/

theorem latestRuns_visible {members : List (BindingId × AiBinding)}
    (h : s.RunsOwned u (members.map Prod.fst) fun r => !r.deleted) :
    (s.visible u).latestRuns members = s.latestRuns members := by
  unfold latestRuns
  rw [runsOfBindings_visible h]

theorem groupRun_visible {py : Python} {members : List (BindingId × AiBinding)} {pk : RunId}
    {run : AiRun} {b : BindingId}
    (hcandidate : ∀ cid ∈ run.candidateId, ∀ c ∈ s.candidates.row? cid, s.mine u c.scope = true)
    (haccounts : ∀ x ∈ members, ∀ a ∈ s.accountRow x.2.accountId, s.mine u a.scope = true) :
    (s.visible u).groupRun py members pk run b = s.groupRun py members pk run b := by
  have hcandidates : run.candidateId.bind (s.visible u).candidates.row? =
      run.candidateId.bind s.candidates.row? := by
    cases hcid : run.candidateId with
    | none => rfl
    | some cid => exact Slots.row?_mask_of (hcandidate cid hcid)
  have hlabels : (members.lookup b).bind (fun b => (s.visible u).accountRow b.accountId) =
      (members.lookup b).bind fun b => s.accountRow b.accountId := by
    cases hmember : members.lookup b with
    | none => rfl
    | some row =>
      obtain ⟨l₁, l₂, rfl, -⟩ := List.lookup_eq_some_iff.mp hmember
      exact accountRow_visible (haccounts (b, row) (by simp))
  unfold groupRun
  simp only [hcandidates, hlabels]

theorem groupRuns_confined (h : s.GroupOwned u pk (s.GroupRunsOwned u pk)) :
    Confined u (groupRuns out ⟨u, false⟩ pk) s := by
  refine getGroup_bind h fun g _ hmine hown => ?_
  obtain ⟨haccounts, hruns, hcandidates⟩ := hown
  refine .read_bind (members_visible hmine) (.read_bind (latestRuns_visible hruns) (.read ?_))
  exact List.map_congr_left fun x hx => groupRun_visible (hcandidates x hx) haccounts

/-! ## Warming up -/

theorem memberStat_visible {now : Time} {b : BindingId}
    (h : s.RunsOwned u [b] (recentRun g now)) :
    (s.visible u).memberStat g now b = s.memberStat g now b := by
  have hruns (s : ControlPlane) : ((s.runsOfBindings [b]).map fun r => r.2.1).filter
      (recentRun g now) = ((s.runsOfBindings [b]).filter fun r => recentRun g now r.2.1).map
        fun r => r.2.1 := List.filter_map ..
  have heq := (hruns (s.visible u)).trans
    ((congrArg (List.map fun r => r.2.1) (runsOfBindings_visible h)).trans (hruns s).symm)
  unfold memberStat
  unfold recentRun at heq
  simp only [heq]

theorem speakers_visible (hmine : s.mine u g.scope = true) (h : s.WarmupOwned u out pk g) :
    (s.visible u).speakers pk g out.now = s.speakers pk g out.now := by
  unfold speakers
  rw [members_visible hmine]
  refine List.filter_congr fun x hx => ?_
  rw [accountRow_visible (h.1 x hx), memberStat_visible (h.2 x hx).1]

theorem warmupGroup_confined {force : Bool} (hg : s.group pk = some g)
    (hmine : s.mine u g.scope = true) (h : s.WarmupOwned u out pk g) :
    Confined u (warmupGroup out pk g force) s := by
  unfold warmupGroup
  split
  · exact .ret
  · refine .read_bind (speakers_visible hmine h) ?_
    split
    · exact .ret
    · rename_i speaker hspeaker
      have hmem : speaker ∈ s.members pk g :=
        List.mem_of_mem_filter (List.mem_of_getElem? hspeaker)
      refine .bind (modifyGroup hg hmine rfl) fun _ s' heq => ?_
      cases heq
      refine .attempt (.bind (trigger_confined fun b hb hactive => ?_) fun _ _ _ => .ret)
      -- a deferred run does not reach the engine
      obtain ⟨hbinding, hruns, -⟩ := (h.2 speaker hmem).2 b hb hactive
      exact ⟨hbinding, hruns, fun hdefer => by cases hdefer⟩

theorem warmupNow_confined
    (h : s.GroupOwned u pk fun g => g.status = "active" → s.WarmupOwned u out pk g) :
    Confined u (warmupNow out ⟨u, false⟩ pk) s := by
  refine getGroup_bind h fun g hg hmine hown => ?_
  split
  · exact .throw
  · rename_i hactive
    exact warmupGroup_confined hg hmine (hown (by simpa using hactive))

/-! ## Scripts -/

theorem listScripts_confined
    (h : s.GroupOwned u pk fun _ => ∀ x ∈ s.scriptsOf pk, s.mine u x.2.scope = true) :
    Confined u (listScripts ⟨u, false⟩ pk) s :=
  getGroup_bind h fun _ _ _ hscripts => .read (scriptsOf_visible hscripts)

theorem checkLines_confined {obj : AiScriptParam} (hmine : s.mine u g.scope = true) :
    Confined u (checkLines pk g obj) s := by
  refine .read_bind (members_visible hmine) ?_
  split
  · exact .ret
  · exact .throw

theorem checkLines_keeps {U : Use → Prop} {obj : AiScriptParam} :
    Txn.Post (checkLines pk g obj) s U fun _ s' => s' = s := by
  refine .bind (.read ?_)
  split
  · exact .ret rfl
  · exact .throw

theorem getScript_bind {scriptId : ℕ} {k : AiScript → Req β} (hown : s.ScriptOwned u pk scriptId)
    (h : ∀ x, s.script scriptId = some x → s.mine u x.scope = true → Confined u (k x) s) :
    Confined u (getScript pk scriptId >>= k) s := by
  have hscript : ((s.visible u).script scriptId).filter (fun x => x.groupId = pk) =
      (s.script scriptId).filter fun x => x.groupId = pk :=
    Slots.row?_mask_filter_filter fun x hx hpk => hown x hx (of_decide_eq_true hpk)
  have htest : Confined u (getScript pk scriptId) s := .read_bind hscript orRefuse_confined
  refine .bind_post htest (getScript_keeps (U := fun _ => True)) ?_
  rintro x s' ⟨hx, hpk, rfl⟩
  exact h x hx (hown x hx hpk)

theorem row_of_script {scriptId : ℕ} {x : AiScript} (h : s.script scriptId = some x) :
    s.scripts.row? scriptId = some x := (Option.filter_eq_some_iff.mp h).1

theorem modifyScript {scriptId : ℕ} {x : AiScript} {f : AiScript → AiScript}
    (hx : s.script scriptId = some x) (hmine : s.mine u x.scope = true)
    (hf : (f x).scope = x.scope) :
    Confined u (Txn.write fun s => s.updateScriptRow scriptId f) s := by
  refine scriptTable.modify fun a ha => ?_
  obtain rfl : x = a := Option.some.inj ((row_of_script hx).symm.trans ha)
  exact ⟨hmine, (congrArg (s.mine u) hf).trans hmine⟩

theorem createScript_confined {obj : AiScriptParam} (h : s.GroupOwned u pk fun _ => True) :
    Confined u (saveScript ⟨u, false⟩ pk obj none) s := by
  refine getGroup_bind h fun g _ hmine _ => ?_
  refine .bind_post (checkLines_confined hmine) (checkLines_keeps (U := fun _ => True)) ?_
  rintro ⟨⟩ s' rfl
  exact .read_bind Slots.size_mask (.bind (scriptTable.add hmine) fun _ _ _ => .ret)

theorem updateScript_confined {scriptId : ℕ} {obj : AiScriptParam}
    (h : s.GroupOwned u pk fun _ => s.ScriptOwned u pk scriptId) :
    Confined u (saveScript ⟨u, false⟩ pk obj (some scriptId)) s := by
  refine getGroup_bind h fun g _ hmine hown => ?_
  refine .bind_post (checkLines_confined hmine) (checkLines_keeps (U := fun _ => True)) ?_
  rintro ⟨⟩ s' rfl
  refine getScript_bind hown fun x hx hmine' => ?_
  split
  · exact .throw
  · exact .bind (modifyScript hx hmine' rfl) fun _ _ _ => .ret

theorem deleteScript_confined {scriptId : ℕ}
    (h : s.GroupOwned u pk fun _ => s.ScriptOwned u pk scriptId) :
    Confined u (deleteScript ⟨u, false⟩ pk scriptId) s := by
  refine getGroup_bind h fun g _ _ hown => getScript_bind hown fun x hx hmine => ?_
  refine scriptTable.remove fun a ha => ?_
  obtain rfl : x = a := Option.some.inj ((row_of_script hx).symm.trans ha)
  exact hmine

theorem startScript_confined {scriptId : ℕ}
    (h : s.GroupOwned u pk fun _ => s.ScriptOwned u pk scriptId) :
    Confined u (startScript out ⟨u, false⟩ pk scriptId) s := by
  refine getGroup_bind h fun g _ _ hown => ?_
  split
  · exact .throw
  · exact getScript_bind hown fun x hx hmine => modifyScript hx hmine rfl

theorem stopScript_confined {scriptId : ℕ}
    (h : s.GroupOwned u pk fun _ => s.ScriptOwned u pk scriptId) :
    Confined u (stopScript ⟨u, false⟩ pk scriptId) s :=
  getGroup_bind h fun _ _ _ hown => getScript_bind hown fun _ hx hmine => modifyScript hx hmine rfl

/-! ## Personas -/

theorem listPersonas_confined {t p : Option ℕ} : Confined u (listPersonas ⟨u, false⟩ t p) s :=
  .read_bind scopes_visible
    (.read (Slots.where_mask_filter (p := fun p : AiPersona => s.mine u p.scope)))

theorem createPersona_confined {obj : AiPersonaParam} :
    Confined u (savePersona ⟨u, false⟩ obj none) s :=
  checkScope_bind fun hmine =>
    .read_bind Slots.size_mask (.bind (personaTable.add hmine) fun _ _ _ => .ret)

theorem updatePersona_confined {obj : AiPersonaParam} {pk : ℕ} :
    Confined u (savePersona ⟨u, false⟩ obj (some pk)) s := by
  refine checkScope_bind fun hmine => ?_
  have hpersona : ((s.visible u).persona pk).filter (fun p =>
      (p.tenantId, p.projectId) = (obj.tenantId, obj.projectId)) =
      (s.persona pk).filter fun p => (p.tenantId, p.projectId) = (obj.tenantId, obj.projectId) :=
    Slots.row?_mask_filter_filter fun p _ hscope =>
      (congrArg (s.mine u) (of_decide_eq_true hscope)).trans hmine
  refine .read_bind hpersona (orRefuse_bind fun p hp => ?_)
  rw [Option.mem_def, Option.filter_eq_some_iff, decide_eq_true_eq] at hp
  refine .bind (personaTable.modify fun a ha => ?_) fun _ _ _ => .ret
  obtain rfl : p = a := Option.some.inj ((Option.filter_eq_some_iff.mp hp.1).1.symm.trans ha)
  exact ⟨(congrArg (s.mine u) hp.2).trans hmine, hmine⟩

theorem deletePersona_confined {pk : ℕ} (h : ∀ p ∈ s.persona pk, s.mine u p.scope = true) :
    Confined u (deletePersona ⟨u, false⟩ pk) s := by
  refine .read_bind (persona_visible h) (orRefuse_bind fun p hp => checkScope_bind fun hmine => ?_)
  refine personaTable.remove fun a ha => ?_
  obtain rfl : p = a := Option.some.inj ((Option.filter_eq_some_iff.mp hp).1.symm.trans ha)
  exact hmine

/-! ## Private replies -/

theorem listPrivate_confined {t p : Option ℕ} : Confined u (listPrivate ⟨u, false⟩ t p) s :=
  .read_bind scopes_visible
    (.read (Slots.where_mask_filter (p := fun p : AiPrivateReply => s.mine u p.scope)))

theorem mem_privateRepliesOf {accountId : ℕ} {x : ℕ × AiPrivateReply}
    (h : x ∈ s.privateRepliesOf none none (some accountId)) :
    s.privateReplies.row? x.1 = some x.2 ∧
      x ∈ s.privateReplies.where_ fun p => p.accountId = accountId := by
  obtain ⟨hrow, hx⟩ := Slots.mem_where.mp h
  rw [Bool.and_eq_true] at hx
  exact ⟨hrow, Slots.mem_where.mpr ⟨hrow, by simpa [matchesParam] using hx.2⟩⟩

theorem savePrivate_confined {accountId : ℕ} {obj : AiPrivateReplyParam}
    (h : ∀ a ∈ s.dir.account accountId, s.mine u a.scope = true ∧
      ∀ x ∈ s.privateReplies.where_ fun p => p.accountId = accountId, s.mine u x.2.scope = true) :
    Confined u (savePrivate ⟨u, false⟩ accountId obj) s := by
  refine .read_bind (account_visible fun a ha => (h a ha).1) (orRefuse_bind fun a ha => ?_)
  refine checkScope_bind fun hmine => ?_
  have hrows := (h a ha).2
  have hcur : (s.visible u).privateRepliesOf none none (some accountId) =
      s.privateRepliesOf none none (some accountId) :=
    Slots.where_mask_of fun x hx => hrows x (mem_privateRepliesOf hx).2
  refine .read_bind (congrArg List.head? hcur) ?_
  split
  · rename_i pk p hp
    obtain ⟨hrow, hmem⟩ := mem_privateRepliesOf (List.mem_of_head? hp)
    refine .bind (privateReplyTable.modify fun b hb => ?_) fun _ _ _ => .ret
    obtain rfl : p = b := Option.some.inj (hrow.symm.trans hb)
    exact ⟨hrows _ hmem, hrows _ hmem⟩
  · refine .read_bind ?_ ?_
    · exact Slots.first?_mask fun pk p hrow hp => hrows (pk, p) (Slots.mem_where.mpr ⟨hrow, hp⟩)
    · split
      · exact .throw
      · exact .read_bind Slots.size_mask (.bind (privateReplyTable.add hmine) fun _ _ _ => .ret)

end ControlPlane

end TgPlatform
