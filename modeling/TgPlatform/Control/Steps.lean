import TgPlatform.Ai.Library

/-! # What the common steps of the handlers do

Looking a row up, testing the caller's membership and resolving a chat leave
the database as it is; a chat is resolved with the session of one account.
-/

namespace TgPlatform

variable {s : ControlPlane} {U : Use → Prop} {out : Outside} {α : Type}

theorem refuse_keeps {kind : ErrorKind} {msg : String} {Q : α → ControlPlane → Prop} :
    Txn.Post (refuse kind msg) s U Q := .throw

theorem orRefuse_keeps {kind : ErrorKind} {msg : String} {o : Option α} :
    Txn.Post (orRefuse kind msg o) s U fun a s' => a ∈ o ∧ s' = s := by
  cases o with
  | none => exact .throw
  | some a => exact .ret ⟨rfl, rfl⟩

theorem orCrash_keeps {exception : String} {o : Option α} :
    Txn.Post (orCrash exception o) s U fun a s' => a ∈ o ∧ s' = s := by
  cases o with
  | none => exact .throw
  | some a => exact .ret ⟨rfl, rfl⟩

theorem checkScope_keeps {caller : Caller} {t p : ℕ} :
    Txn.Post (checkScope caller t p) s U fun _ s' =>
      (caller.isSuperuser = true ∨ (t, p) ∈ s.dir.scopes caller.id) ∧ s' = s := by
  refine .bind (.read ?_)
  split
  · rename_i hmember
    exact .ret ⟨by simpa using hmember, rfl⟩
  · exact .throw

theorem joinChatRefs_keeps {purpose : ℕ} {scope : Scope} {account : TelegramAccount}
    {refs : List String} (hU : U (.session account scope)) :
    Txn.Post (out.joinChatRefs purpose scope account refs) s U fun _ s' => s' = s :=
  .bind (.emit hU (.lift fun _ _ => rfl))

theorem resolveOrRaise_keeps {results : String → Option JoinResult} {label ref : String} :
    Txn.Post (Outside.resolveOrRaise results label ref) s U fun _ s' => s' = s := by
  unfold Outside.resolveOrRaise
  cases results ref with
  | none => exact .throw
  | some r =>
    cases r with
    | ok chatId => exact .ret rfl
    | failed status => exact .throw

/-- A binding's chat is resolved by the account of the given number, whatever its project. -/
theorem resolveChatId_keeps {scope : Scope} {accountId : ℕ} {value : Option String}
    (hU : ∀ ref ∈ value.map strip, ref ≠ "" → out.isNumeric ref = false →
      ∀ a ∈ s.dir.account accountId, U (.session a scope)) :
    Txn.Post (resolveChatId out scope accountId value) s U fun _ s' => s' = s := by
  unfold resolveChatId
  split
  · exact .ret rfl
  · exact .ret rfl
  · rename_i ref hne href
    split
    · exact .bind (orCrash_keeps.mono fun _ _ h => .ret h.2)
    · rename_i hnumeric
      refine .bind (.read (.bind (orRefuse_keeps.mono fun account s' h => ?_)))
      obtain ⟨haccount, rfl⟩ := h
      have huse := hU ref href hne (by simpa using hnumeric) account haccount
      refine .bind ((joinChatRefs_keeps huse).mono fun results s'' h => ?_)
      subst h
      exact .bind (resolveOrRaise_keeps.mono fun _ _ h => .ret h)

theorem resolveChat_keeps {t p : ℕ} {chat : String} {accountId : Option ℕ}
    (hU : ∀ pk, ∀ a ∈ s.dir.accountByScope t p pk, U (.session a (t, p))) :
    Txn.Post (resolveChat out t p chat accountId) s U fun _ s' => s' = s := by
  unfold resolveChat
  dsimp only
  split
  · split
    · exact .bind (orCrash_keeps.mono fun _ _ h => .ret h.2)
    · exact .throw
  · refine .bind (.read (.bind (orRefuse_keeps.mono fun account s' h => ?_)))
    obtain ⟨haccount, rfl⟩ := h
    refine .bind ((joinChatRefs_keeps (hU _ account haccount)).mono fun results s'' h => ?_)
    subst h
    exact .bind (resolveOrRaise_keeps.mono fun _ _ h => .ret h)

theorem joinGroup_keeps {group : AiGroup} {account : TelegramAccount}
    (hU : U (.session account (group.tenantId, group.projectId))) :
    Txn.Post (joinGroup out group account) s U fun _ s' => s' = s := by
  unfold joinGroup
  split
  · exact .ret rfl
  · refine .bind ((joinChatRefs_keeps hU).mono fun results s' h => ?_)
    subst h
    split
    · exact .ret rfl
    · exact .throw
    · exact .throw

theorem getGroup_keeps {caller : Caller} {pk : GroupId} :
    Txn.Post (getGroup caller pk) s U fun g s' => s.group pk = some g ∧
      (caller.isSuperuser = true ∨ (g.tenantId, g.projectId) ∈ s.dir.scopes caller.id) ∧ s' = s := by
  refine .bind (.read (.bind (orRefuse_keeps.mono fun g s' h => ?_)))
  obtain ⟨hg, rfl⟩ := h
  refine .bind (checkScope_keeps.mono fun _ s'' h => ?_)
  obtain ⟨hmember, rfl⟩ := h
  exact .ret ⟨hg, hmember, rfl⟩

theorem getMember_keeps {caller : Caller} {pk : GroupId} {memberId : BindingId} :
    Txn.Post (getMember caller pk memberId) s U fun b s' =>
      s.binding memberId = some b ∧ b.groupId = some pk ∧
        (∃ g, s.group pk = some g ∧ (caller.isSuperuser = true ∨
          (g.tenantId, g.projectId) ∈ s.dir.scopes caller.id)) ∧ s' = s := by
  refine .bind (getGroup_keeps.mono fun g s' h => ?_)
  obtain ⟨hg, hmember, rfl⟩ := h
  refine .bind (.read (orRefuse_keeps.mono fun b s'' h => ?_))
  obtain ⟨hb, rfl⟩ := h
  rw [Option.mem_def, Option.filter_eq_some_iff] at hb
  exact ⟨hb.1, by simpa using hb.2, ⟨g, hg, hmember⟩, rfl⟩

theorem getScript_keeps {pk : GroupId} {scriptId : ℕ} :
    Txn.Post (getScript pk scriptId) s U fun x s' =>
      s.script scriptId = some x ∧ x.groupId = pk ∧ s' = s := by
  refine .bind (.read (orRefuse_keeps.mono fun x s' h => ?_))
  obtain ⟨hx, rfl⟩ := h
  rw [Option.mem_def, Option.filter_eq_some_iff] at hx
  exact ⟨hx.1, by simpa using hx.2, rfl⟩

theorem required_keeps {p : Patch α} {old : α} :
    Txn.Post (p.required old) s U fun a s' => (a = old ∨ p = .set a) ∧ s' = s := by
  cases p with
  | keep => exact .ret ⟨.inl rfl, rfl⟩
  | null => exact .throw
  | set a => exact .ret ⟨.inr rfl, rfl⟩

theorem updateApply_keeps {obj : UpdateAiBinding} {chatId : Option (Option ℤ)} {b : AiBinding} :
    Txn.Post (obj.apply out chatId b) s U fun b' s' =>
      b'.tenantId = b.tenantId ∧ b'.projectId = b.projectId ∧ b'.groupId = b.groupId ∧
        b'.deleted = b.deleted ∧ (b'.accountId = b.accountId ∨ obj.accountId = .set b'.accountId) ∧
        s' = s := by
  refine .bind (required_keeps.mono fun accountId s' h => ?_)
  obtain ⟨haccount, rfl⟩ := h
  iterate 11
    refine .bind (required_keeps.mono fun _ _ h => ?_)
    obtain ⟨-, rfl⟩ := h
  exact .ret ⟨rfl, rfl, rfl, rfl, haccount, rfl⟩

theorem memberApply_keeps {obj : AiMember} {b : AiBinding} :
    Txn.Post (obj.apply out b) s U fun b' s' =>
      b'.tenantId = b.tenantId ∧ b'.projectId = b.projectId ∧ b'.groupId = b.groupId ∧
        b'.deleted = b.deleted ∧ b'.accountId = b.accountId ∧ s' = s := by
  unfold AiMember.apply
  iterate 3
    refine .bind (required_keeps.mono fun _ _ h => ?_)
    obtain ⟨-, rfl⟩ := h
  exact .ret ⟨rfl, rfl, rfl, rfl, rfl, rfl⟩

end TgPlatform
