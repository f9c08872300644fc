import TgPlatform.Control.AiReferences
import TgPlatform.Control.GroupScope

/-! # What runs and groups keep of the references

A run spends the key of its binding or of the binding's group, and a job is
queued for an account of the candidate's project. Groups and members are written
in the project that the caller has been tested for.
-/

namespace TgPlatform

namespace ControlPlane

variable {s s' : ControlPlane} {out : Outside} {caller : Caller} {α : Type}

/-- The request touches no reference, and what it uses is inside. -/
def KeepsRefs (m : Req α) (s : ControlPlane) : Prop :=
  Txn.Post m s Use.Inside fun _ s' => s'.refs = s.refs

theorem KeepsRefs.inside {m : Req α} (h : KeepsRefs m s) (hs : s.Inside) :
    Txn.Post m s Use.Inside fun _ s' => s'.Inside :=
  h.mono fun _ _ => hs.of_refs

/-! ## Triggered runs -/

section Runs

variable {pk : RunId} {cid : ConversationId} {conv : AiConversation} {binding : AiBinding}
  {group : Option (GroupId × AiGroup)}

theorem Inside.createSendJob {approval : Approval} {candidate : AiCandidate} {now : Time} (hs : s.Inside)
    (h : s.createSendJob approval candidate now = .ok s') : s'.Inside := by
  obtain rfl | ⟨t, p, a, ht, hp, ha, rfl⟩ := createSendJob_cases h
  · exact hs
  · obtain ⟨htenant, htid⟩ := Directory.tenant_eq_some ht
    obtain ⟨hproject, hpid⟩ := Directory.project_eq_some hp
    obtain ⟨haccount, -, hscope⟩ := Directory.accountByScope_eq_some ha
    refine hs.addJob ⟨t, htenant, p, hproject, a, haccount, rfl, rfl, rfl, ?_⟩
    rw [hscope, htid, hpid]

theorem Inside.createCandidate {sha256 : String → String} {run : AiRun} {text : String}
    {b : Option AiBinding} {g : Option AiGroup} {replyTo : Option ℤ} {minted : Minted} {now : Time}
    {c : CandidateId} (hs : s.Inside)
    (h : s.createCandidate sha256 run conv text b g replyTo minted now = .ok (c, s')) : s'.Inside := by
  rw [createCandidate_eq] at h
  dsimp only at h
  split at h
  · cases hqueued : ControlPlane.createSendJob _ _ _ now with
    | error e => rw [hqueued] at h; cases h
    | ok q =>
      rw [hqueued] at h
      cases h
      refine Inside.createSendJob ?_ hqueued
      exact hs.of_refs rfl
  · cases h
    exact hs.of_refs rfl

theorem failRun_inside {err : String} (hs : s.Inside) :
    Txn.Post (failRun pk cid err) s Use.Inside fun _ s' => s'.Inside :=
  .bind (.write (.read (hs.of_refs rfl)))

theorem openaiFinish_inside {prompt : Prompt} {mode : String} (hs : s.Inside) :
    Txn.Post (openaiFinish out prompt group pk mode cid conv) s Use.Inside fun _ s' => s'.Inside := by
  refine .bind (.read ?_)
  split
  · exact .ret hs
  · split
    · exact failRun_inside hs
    · refine .bind (.exec fun c s' h => ?_)
      exact .bind (.write (.read ((hs.createCandidate h).of_refs rfl)))

theorem provider_owner (hgroup : ∀ x ∈ group, x.2.scope = binding.scope) :
    (provider out binding group).2.2.2 = binding.scope := by
  unfold provider
  split
  · rfl
  · rename_i gid g
    split
    · rfl
    · exact hgroup (gid, g) rfl

theorem openaiExecute_inside {obj : AiTrigger} {run : AiRun} {context after : List Json} (hs : s.Inside)
    (hgroup : ∀ x ∈ group, x.2.scope = binding.scope) :
    Txn.Post (openaiExecute out obj binding cid conv pk run context after group) s Use.Inside
      fun _ s' => s'.Inside := by
  unfold openaiExecute
  dsimp only
  split
  · exact openaiFinish_inside hs
  · split
    · exact failRun_inside hs
    · refine .bind (.read (.bind (.read (.bind (.emit ?_ ?_)))))
      · exact provider_owner hgroup
      · exact openaiFinish_inside hs

theorem submitted_inside {result : SubmitResult} (hs : s.Inside) :
    Txn.Post (submitted pk cid result) s Use.Inside fun _ s' => s'.Inside := by
  unfold submitted
  split
  · exact .bind (.write (.read (hs.of_refs rfl)))
  · exact .bind (.write (.read (hs.of_refs rfl)))

theorem trigger_inside {obj : AiTrigger} {defer : Bool} (hs : s.Inside) :
    Txn.Post (trigger out obj defer) s Use.Inside fun _ s' => s'.Inside := by
  refine .bind (.read (.bind (orRefuse_keeps.mono fun b s' h => ?_)))
  obtain ⟨hb, rfl⟩ := h
  have hbinding : s'.binding obj.bindingId = some b := (Option.filter_eq_some_iff.mp hb).1
  refine .bind (openConversation_keeps.mono ?_)
  rintro ⟨cid, conv⟩ _ ⟨-, -, -, t, rfl⟩
  refine .bind (.read ?_)
  split
  · exact refuse_keeps
  · refine .bind (.read (.bind (.write ?_)))
    split
    · exact .ret (hs.of_refs rfl)
    · split
      · refine .bind (.read (openaiExecute_inside (hs.of_refs rfl) fun x hx => ?_))
        obtain ⟨gid, hgid, hx⟩ := Option.bind_eq_some_iff.mp hx
        obtain ⟨g, hg, rfl⟩ := Option.map_eq_some_iff.mp hx
        exact (hs.bindings _ b hbinding).group gid hgid g (group_eq_some.mp hg).1
      · exact .bind (.lift fun _ _ => submitted_inside (hs.of_refs rfl))

theorem cancelRun_inside (hs : s.Inside) :
    Txn.Post (cancelRun out pk) s Use.Inside fun _ s' => s'.Inside := by
  refine .bind (.read (.bind (orRefuse_keeps.mono fun run s' h => ?_)))
  obtain ⟨-, rfl⟩ := h
  split
  · exact refuse_keeps
  · exact .bind (.write (.read (hs.of_refs rfl)))

end Runs

/-! ## Groups -/

section Groups

variable {pk : GroupId}

/-- No live rule of another project names the number that the group is to get. -/
def GroupAwaited (s : ControlPlane) (scope : Scope) : Prop :=
  ∀ pk r, s.rule pk = some r → r.aiGroupId = some s.groups.size → r.scope = scope

theorem resolveChat_inside {t p : ℕ} {chat : String} {accountId : Option ℕ} :
    Txn.Post (resolveChat out t p chat accountId) s Use.Inside fun _ s' => s' = s :=
  resolveChat_keeps fun _ _ ha => (Directory.accountByScope_eq_some ha).2.2

theorem createGroup_inside {obj : CreateAiGroup} (hs : s.Inside)
    (hawaited : s.GroupAwaited (obj.tenantId, obj.projectId)) :
    Txn.Post (createGroup out caller obj) s Use.Inside fun _ s' => s'.Inside := by
  refine .bind (checkScope_keeps.mono fun _ s' h => ?_)
  obtain ⟨-, rfl⟩ := h
  refine .bind (resolveChat_inside.mono ?_)
  rintro ⟨chatId, chatRef⟩ s' rfl
  refine .bind (.read ?_)
  split
  · exact refuse_keeps
  · exact .bind (.read (.bind (.write (.read (hs.addGroup hawaited)))))

theorem updateGroup_inside {obj : GroupFields} (hs : s.Inside) :
    Txn.Post (updateGroup out caller pk obj) s Use.Inside fun _ s' => s'.Inside := by
  refine .bind (getGroup_keeps.mono fun g s' h => ?_)
  obtain ⟨hg, -, rfl⟩ := h
  split
  · exact refuse_keeps
  · refine .bind (.write (.read (hs.modifyGroup fun g' hg' => ?_)))
    obtain rfl : g = g' := Option.some.inj ((row_of_group hg).symm.trans hg')
    rfl

theorem deleteGroup_inside (hs : s.Inside) :
    Txn.Post (deleteGroup caller pk) s Use.Inside fun _ s' => s'.Inside := by
  refine .bind (getGroup_keeps.mono fun g s' h => ?_)
  obtain ⟨-, -, rfl⟩ := h
  refine .bind (.read (.bind (Txn.Post.mono (Txn.Post.each ?_ hs) fun _ s' hs => ?_)))
  · exact fun b _ s hs => .write hs.removeBinding
  · refine .bind (.read (.bind (eachScript_keeps.mono ?_)))
    rintro _ _ ⟨t, rfl⟩
    exact .write (Inside.removeGroup (hs.of_refs rfl))

theorem startMemberRun_inside {group : AiGroup} {b : BindingId} {mode : String} (hs : s.Inside) :
    Txn.Post (startMemberRun out group b mode) s Use.Inside fun _ s' => s'.Inside :=
  .attempt (.bind ((trigger_inside hs).mono fun _ _ hs' => .ret hs')) hs

theorem warmupNow_inside (hs : s.Inside) :
    Txn.Post (warmupNow out caller pk) s Use.Inside fun _ s' => s'.Inside := by
  refine .bind (getGroup_keeps.mono fun g s' h => ?_)
  obtain ⟨-, -, rfl⟩ := h
  split
  · exact refuse_keeps
  · unfold warmupGroup
    split
    · exact .ret hs
    · refine .bind (.read ?_)
      split
      · exact .ret hs
      · exact .bind (.write (startMemberRun_inside (hs.modifyGroup fun _ _ => rfl)))

/-! ## Members -/

theorem addMember_inside {obj : AiMember} (hs : s.Inside) :
    Txn.Post (addMember out caller pk obj) s Use.Inside fun _ s' => s'.Inside := by
  refine .bind (getGroup_keeps.mono fun g s' h => ?_)
  obtain ⟨hg, -, rfl⟩ := h
  refine .bind (orRefuse_keeps.mono fun accountId s' h => ?_)
  obtain ⟨-, rfl⟩ := h
  refine .bind (.read (.bind (orRefuse_keeps.mono fun account s' h => ?_)))
  obtain ⟨haccount, rfl⟩ := h
  refine .bind (.read ?_)
  split
  · exact refuse_keeps
  · refine .bind
      ((joinGroup_keeps (Directory.accountByScope_eq_some haccount).2.2).mono fun _ s' h => ?_)
    subst h
    refine .bind (memberApply_keeps.mono fun b s' h => ?_)
    obtain ⟨htenant, hproject, hgroup, -, hid, rfl⟩ := h
    have hscope : b.scope = g.scope := Prod.ext htenant hproject
    refine .write (hs.addBinding ⟨?_, fun gid hgid => ?_, fun gid hgid g' hg' => ?_⟩)
    · rw [hscope, hid]
      exact Directory.has_of_accountByScope haccount
    · obtain rfl : pk = gid := Option.some.inj (hgroup.symm.trans hgid)
      exact Slots.row?_lt (row_of_group hg)
    · obtain rfl : pk = gid := Option.some.inj (hgroup.symm.trans hgid)
      obtain rfl : g = g' := Option.some.inj ((row_of_group hg).symm.trans hg')
      exact hscope.symm

theorem updateMember_inside {memberId : BindingId} {obj : AiMember} (hs : s.Inside) :
    Txn.Post (updateMember out caller pk memberId obj) s Use.Inside fun _ s' => s'.Inside := by
  refine .bind (getMember_keeps.mono fun b s' h => ?_)
  obtain ⟨hb, -, -, rfl⟩ := h
  refine .bind (memberApply_keeps.mono fun updated s' h => ?_)
  obtain ⟨htenant, hproject, hgroup, -, hid, rfl⟩ := h
  have hscope : updated.scope = b.scope := Prod.ext htenant hproject
  refine .write (hs.modifyBinding fun b' hb' _ => ?_)
  obtain ⟨hrow, hdeleted⟩ := binding_eq_some.mp hb
  obtain rfl : b = b' := Option.some.inj (hrow.symm.trans hb')
  refine ⟨hdeleted, fun hinside => ⟨?_, ?_, ?_⟩⟩
  · rw [hscope, hid]
    exact hinside.account
  · rw [hgroup]
    exact hinside.created
  · rw [hgroup, hscope]
    exact hinside.group

theorem deleteMember_inside {memberId : BindingId} (hs : s.Inside) :
    Txn.Post (deleteMember caller pk memberId) s Use.Inside fun _ s' => s'.Inside := by
  refine .bind (getMember_keeps.mono fun b s' h => ?_)
  obtain ⟨-, -, -, rfl⟩ := h
  exact .write hs.removeBinding

theorem getGroup_keepsRefs {k : AiGroup → Req α} (h : ∀ g, KeepsRefs (k g) s) :
    KeepsRefs (getGroup caller pk >>= k) s := by
  refine .bind (getGroup_keeps.mono fun g s' h' => ?_)
  obtain ⟨-, -, rfl⟩ := h'
  exact h g

end Groups

/-! ## Scripts, personas and private replies -/

section Library

variable {pk : GroupId} {scriptId : ℕ}

theorem checkScope_keepsRefs {t p : ℕ} {k : Unit → Req α} (h : KeepsRefs (k ()) s) :
    KeepsRefs (checkScope caller t p >>= k) s := by
  refine .bind (checkScope_keeps.mono fun _ s' h' => ?_)
  obtain ⟨-, rfl⟩ := h'
  exact h

theorem orRefuse_keepsRefs {β : Type} {kind : ErrorKind} {msg : String} {o : Option β} {k : β → Req α}
    (h : ∀ a, KeepsRefs (k a) s) : KeepsRefs (orRefuse kind msg o >>= k) s := by
  refine .bind (orRefuse_keeps.mono fun a s' h' => ?_)
  obtain ⟨-, rfl⟩ := h'
  exact h a

theorem getScript_keepsRefs {k : AiScript → Req α} (h : ∀ x, KeepsRefs (k x) s) :
    KeepsRefs (getScript pk scriptId >>= k) s := by
  refine .bind (getScript_keeps.mono fun x s' h' => ?_)
  obtain ⟨-, -, rfl⟩ := h'
  exact h x

theorem saveScript_keepsRefs {obj : AiScriptParam} {x : Option ℕ} :
    KeepsRefs (saveScript caller pk obj x) s := by
  refine getGroup_keepsRefs fun g => .bind (.bind (.read ?_))
  split
  · refine .ret ?_
    split
    · exact .bind (.read (.bind (.write (.ret rfl))))
    · refine getScript_keepsRefs fun x => ?_
      split
      · exact refuse_keeps
      · exact .bind (.write (.ret rfl))
  · exact refuse_keeps

theorem deleteScript_keepsRefs : KeepsRefs (deleteScript caller pk scriptId) s :=
  getGroup_keepsRefs fun _ => getScript_keepsRefs fun _ => .write rfl

theorem startScript_keepsRefs : KeepsRefs (startScript out caller pk scriptId) s := by
  refine getGroup_keepsRefs fun g => ?_
  split
  · exact refuse_keeps
  · exact getScript_keepsRefs fun _ => .write rfl

theorem stopScript_keepsRefs : KeepsRefs (stopScript caller pk scriptId) s :=
  getGroup_keepsRefs fun _ => getScript_keepsRefs fun _ => .write rfl

theorem savePersona_keepsRefs {obj : AiPersonaParam} {x : Option ℕ} :
    KeepsRefs (savePersona caller obj x) s := by
  refine checkScope_keepsRefs ?_
  split
  · exact .bind (.read (.bind (.write (.ret rfl))))
  · exact .bind (.read (orRefuse_keepsRefs fun _ => .bind (.write (.ret rfl))))

theorem deletePersona_keepsRefs {x : ℕ} : KeepsRefs (deletePersona caller x) s :=
  .bind (.read (orRefuse_keepsRefs fun _ => checkScope_keepsRefs (.write rfl)))

theorem savePrivate_keepsRefs {accountId : ℕ} {obj : AiPrivateReplyParam} :
    KeepsRefs (savePrivate caller accountId obj) s := by
  refine .bind (.read (orRefuse_keepsRefs fun account => checkScope_keepsRefs (.bind (.read ?_))))
  split
  · exact .bind (.write (.ret rfl))
  · refine .bind (.read ?_)
    split
    · exact .throw
    · exact .bind (.read (.bind (.write (.ret rfl))))

end Library

/-! ## The requests -/

/-- The references that an AI request writes unchecked are inside: the account of a binding, and the
number of a new group for the rules that name it already. -/
def RefersInside (s : ControlPlane) : AiRequest → Prop
  | .createBinding obj => s.GivesInside (.set obj.accountId) (obj.tenantId, obj.projectId)
  | .updateBinding pk obj => ∀ b ∈ s.binding pk, s.GivesInside obj.accountId b.scope
  | .createGroup obj => s.GroupAwaited (obj.tenantId, obj.projectId)
  | _ => True

/-- One handler a case: what it does not look up in the project is in the condition. -/
theorem aiRequest_inside {req : AiRequest} (hs : s.Inside) (hreq : s.RefersInside req) :
    Txn.Post (req.handle out caller) s Use.Inside fun _ s' => s'.Inside := by
  have hlist : ∀ {pk : GroupId} {β : Type} {k : AiGroup → Req β}, (∀ g, KeepsRefs (k g) s) →
      Txn.Post (getGroup caller pk >>= k) s Use.Inside fun _ s' => s'.Inside :=
    fun h => (getGroup_keepsRefs h).inside hs
  cases req with
  | getBindings _ _ => exact .map (.read hs)
  | createBinding _ => exact .map (createBinding_inside hs hreq)
  | updateBinding _ _ => exact .map (updateBinding_inside hs hreq)
  | setAutoApprove _ _ _ => exact .map (setAutoApprove_inside hs)
  | deleteBinding _ => exact .map (deleteBinding_inside hs)
  | getConversations _ _ => exact .map (.read hs)
  | getRuns _ _ _ => exact .map (.read hs)
  | triggerRun _ => exact .map (trigger_inside hs)
  | cancelRun _ => exact .map (cancelRun_inside hs)
  | getGroups _ _ => exact .map (.bind (.read (.bind (.read (.read hs)))))
  | createGroup _ => exact .map (createGroup_inside hs hreq)
  | updateGroup _ _ => exact .map (updateGroup_inside hs)
  | deleteGroup _ => exact .map (deleteGroup_inside hs)
  | getGroupMessages _ => exact .map (hlist fun _ => .ret rfl)
  | getGroupRuns _ => exact .map (hlist fun _ => .bind (.read (.bind (.read (.read rfl)))))
  | warmupGroup _ => exact .map (warmupNow_inside hs)
  | getMembers _ => exact .map (hlist fun _ => .bind (.read (.bind (.read (.ret rfl)))))
  | addMember _ _ => exact .map (addMember_inside hs)
  | updateMember _ _ _ => exact .map (updateMember_inside hs)
  | deleteMember _ _ => exact .map (deleteMember_inside hs)
  | getScripts _ => exact .map (hlist fun _ => .read rfl)
  | createScript _ _ => exact .map (saveScript_keepsRefs.inside hs)
  | updateScript _ _ _ => exact .map (saveScript_keepsRefs.inside hs)
  | deleteScript _ _ => exact .map (deleteScript_keepsRefs.inside hs)
  | startScript _ _ => exact .map (startScript_keepsRefs.inside hs)
  | stopScript _ _ => exact .map (stopScript_keepsRefs.inside hs)
  | getPersonas _ _ => exact .map (.bind (.read (.read hs)))
  | createPersona _ => exact .map (savePersona_keepsRefs.inside hs)
  | updatePersona _ _ => exact .map (savePersona_keepsRefs.inside hs)
  | deletePersona _ => exact .map (deletePersona_keepsRefs.inside hs)
  | getPrivateReplies _ _ => exact .map (.bind (.read (.read hs)))
  | savePrivateReply _ _ => exact .map (savePrivate_keepsRefs.inside hs)

end ControlPlane

end TgPlatform
