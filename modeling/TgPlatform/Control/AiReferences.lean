import TgPlatform.Control.References

/-! # What the AI requests keep of the references

A member's account is looked up in its group's project. The requests that write
a binding's account as it is given, and the creation of a group whose number a
rule has named before, keep the references inside only under a condition.
-/

namespace TgPlatform

namespace ControlPlane

variable {s : ControlPlane} {out : Outside} {caller : Caller} {α : Type}

/-! ## Bindings -/

/-- The account that a request gives to a binding of the scope. -/
def GivesInside (s : ControlPlane) (accountId : Patch ℕ) (scope : Scope) : Prop :=
  ∀ a, accountId = .set a → s.dir.Has a scope

theorem createBinding_inside {obj : CreateAiBinding} (hs : s.Inside)
    (hgives : s.GivesInside (.set obj.accountId) (obj.tenantId, obj.projectId)) :
    Txn.Post (createBinding out obj) s Use.Inside fun _ s' => s'.Inside := by
  have haccount := hgives _ rfl
  have hU (a : TelegramAccount) (ha : a ∈ s.dir.account obj.accountId) :
      Use.Inside (.session a (obj.tenantId, obj.projectId)) := haccount.scope_eq ha
  refine .bind ((resolveChatId_keeps fun _ _ _ _ => hU).mono fun chatId s' h => ?_)
  subst h
  refine .bind (.read (.bind (.write (.ret (hs.addBinding ⟨haccount, ?_, ?_⟩)))))
  · intro gid hgid
    cases hgid
  · intro gid hgid
    cases hgid

theorem newChat_keeps {obj : UpdateAiBinding} {b : AiBinding} {U : Use → Prop}
    (hU : ∀ a ∈ s.dir.account (obj.resolver b), U (.session a b.scope)) :
    Txn.Post (obj.newChat out b) s U fun _ s' => s' = s := by
  unfold UpdateAiBinding.newChat
  split
  · exact .ret rfl
  · exact .bind ((resolveChatId_keeps fun _ _ _ _ => hU).mono fun _ _ h => .ret h)

theorem updateBinding_inside {pk : BindingId} {obj : UpdateAiBinding} (hs : s.Inside)
    (hgives : ∀ b ∈ s.binding pk, s.GivesInside obj.accountId b.scope) :
    Txn.Post (updateBinding out pk obj) s Use.Inside fun _ s' => s'.Inside := by
  refine .bind (.read (.bind (orRefuse_keeps.mono fun b s' h => ?_)))
  obtain ⟨hb, rfl⟩ := h
  have hbinding := hs.bindings pk b hb
  have hresolver : s'.dir.Has (obj.resolver b) b.scope := by
    unfold UpdateAiBinding.resolver
    split
    · rename_i a hset
      split
      · exact hbinding.account
      · exact hgives b hb a hset
    · exact hbinding.account
  refine .bind ((newChat_keeps fun a ha => hresolver.scope_eq ha).mono fun chatId s'' h => ?_)
  subst h
  refine .bind (updateApply_keeps.mono fun updated s' h => ?_)
  obtain ⟨htenant, hproject, hgroup, -, haccount, rfl⟩ := h
  refine .bind (.write (.ret (hs.modifyBinding fun b' hb' hlive => ?_)))
  obtain ⟨hrow, hdeleted⟩ := binding_eq_some.mp hb
  obtain rfl : b = b' := Option.some.inj (hrow.symm.trans hb')
  have hscope : updated.scope = b.scope := Prod.ext htenant hproject
  refine ⟨hdeleted, fun hinside => ⟨?_, ?_, ?_⟩⟩
  · rw [hscope]
    obtain hsame | hset := haccount
    · rw [hsame]
      exact hinside.account
    · exact hgives b hb _ hset
  · rw [hgroup]
    exact hinside.created
  · rw [hgroup, hscope]
    exact hinside.group

theorem Inside.removeBinding (hs : s.Inside) {pk : BindingId} :
    (s.updateBindingRow pk AiBinding.removed).Inside :=
  hs.modifyBinding fun _ _ hlive => by cases hlive

theorem deleteBinding_inside {pk : BindingId} (hs : s.Inside) :
    Txn.Post (deleteBinding pk) s Use.Inside fun _ s' => s'.Inside := by
  refine .bind (.read (.bind (orRefuse_keeps.mono fun b s' h => ?_)))
  obtain ⟨-, rfl⟩ := h
  exact .bind (.write (.ret hs.removeBinding))

theorem setAutoApprove_inside {t p : ℕ} {enabled : Bool} (hs : s.Inside) :
    Txn.Post (setAutoApprove t p enabled) s Use.Inside fun _ s' => s'.Inside := by
  refine .bind (.read (.bind (Txn.Post.mono (Txn.Post.each ?_ hs) fun _ _ hs' => .ret hs')))
  intro x _ s hs
  exact .write (hs.modifyBinding fun b _ hlive => ⟨hlive, fun h => ⟨h.account, h.created, h.group⟩⟩)

end ControlPlane

end TgPlatform
