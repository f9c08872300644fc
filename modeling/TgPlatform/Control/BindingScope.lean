import TgPlatform.Control.Owned
import TgPlatform.Control.Steps

/-! # Bindings, conversations and runs among a user's own rows

The handlers that test nothing answer and change only what the user sees, where
the rows they reach are the user's.
-/

namespace TgPlatform

namespace ControlPlane

variable {s : ControlPlane} {u : UserId} {out : Outside} {α β : Type}

/-! ## Steps of a handler -/

theorem orRefuse_bind {kind : ErrorKind} {msg : String} {o : Option α} {k : α → Req β}
    (h : ∀ a ∈ o, Confined u (k a) s) : Confined u (orRefuse kind msg o >>= k) s := by
  cases o with
  | none => exact .bind .throw fun _ _ heq => by cases heq
  | some a => exact .bind .ret fun _ _ heq => by cases heq; exact h a rfl

theorem orRefuse_confined {kind : ErrorKind} {msg : String} {o : Option α} :
    Confined u (orRefuse kind msg o) s := by
  cases o with
  | none => exact .throw
  | some a => exact .ret

theorem orCrash_confined {exception : String} {o : Option α} :
    Confined u (orCrash exception o) s := by
  cases o with
  | none => exact .throw
  | some a => exact .ret

theorem resolveOrRaise_confined {results : String → Option JoinResult} {label ref : String} :
    Confined u (Outside.resolveOrRaise results label ref) s := by
  unfold Outside.resolveOrRaise
  cases results ref with
  | none => exact .throw
  | some r =>
    cases r with
    | ok chatId => exact .ret
    | failed status => exact .throw

/-- The session of an account is driven, and the answer of Telegram comes from outside. -/
theorem joinChatRefs_bind {purpose : ℕ} {scope : Scope} {account : TelegramAccount}
    {refs : List String} {k : (String → Option JoinResult) → Req β}
    (h : ∀ results, Confined u (k results) s) :
    Confined u (out.joinChatRefs purpose scope account refs >>= k) s := by
  refine .bind_post (.emit_bind .lift) (joinChatRefs_keeps (U := fun _ => True) trivial) ?_
  rintro results s' rfl
  exact h results

theorem resolveChatId_confined {scope : Scope} {accountId : ℕ} {value : Option String}
    (hown : s.ResolverOwned u out accountId value) :
    Confined u (resolveChatId out scope accountId value) s := by
  unfold resolveChatId
  split
  · exact .ret
  · exact .ret
  · rename_i ref hne href
    split
    · exact .bind orCrash_confined fun _ _ _ => .ret
    · rename_i hnumeric
      have haccount := hown ref href hne (by simpa using hnumeric)
      refine .read_bind (account_visible haccount) (orRefuse_bind fun account _ => ?_)
      exact joinChatRefs_bind fun results => .bind resolveOrRaise_confined fun _ _ _ => .ret

theorem resolveChatId_bind {scope : Scope} {accountId : ℕ} {value : Option String}
    {k : Option ℤ → Req β} (hown : s.ResolverOwned u out accountId value)
    (h : ∀ chatId, Confined u (k chatId) s) :
    Confined u (resolveChatId out scope accountId value >>= k) s := by
  refine .bind_post (resolveChatId_confined hown)
    (resolveChatId_keeps (U := fun _ => True) fun _ _ _ _ _ _ => trivial) ?_
  rintro chatId s' rfl
  exact h chatId

theorem required_bind {p : Patch α} {old : α} {k : α → Req β} (h : ∀ a, Confined u (k a) s) :
    Confined u (p.required old >>= k) s := by
  cases p with
  | keep => exact .bind .ret fun _ _ heq => by cases heq; exact h old
  | null => exact .bind .throw fun _ _ heq => by cases heq
  | set a => exact .bind .ret fun _ _ heq => by cases heq; exact h a

/-! ## Bindings -/

theorem getBindings_confined {t p : Option ℕ}
    (h : ∀ x ∈ s.bindingsOf t p, s.mine u x.2.scope = true) : Confined u (getBindings t p) s :=
  .read (bindingsOf_visible h)

theorem createBinding_confined {obj : CreateAiBinding}
    (hscope : s.mine u (obj.tenantId, obj.projectId) = true)
    (hresolver : s.ResolverOwned u out obj.accountId obj.chatId) :
    Confined u (createBinding out obj) s := by
  refine resolveChatId_bind hresolver fun chatId => .read_bind ?_ ?_
  · exact Slots.size_mask
  · exact .bind (bindingTable.add hscope) fun _ _ _ => .ret

theorem updateApply_confined {obj : UpdateAiBinding} {chatId : Option (Option ℤ)} {b : AiBinding} :
    Confined u (obj.apply out chatId b) s := by
  unfold UpdateAiBinding.apply
  iterate 12 refine required_bind fun _ => ?_
  exact .ret

theorem row_of_binding {pk : BindingId} {b : AiBinding} (h : s.binding pk = some b) :
    s.bindings.row? pk = some b := (Option.filter_eq_some_iff.mp h).1

theorem modifyBinding {pk : BindingId} {b : AiBinding} {f : AiBinding → AiBinding}
    (hb : s.binding pk = some b) (hmine : s.mine u b.scope = true) (hf : (f b).scope = b.scope) :
    Confined u (Txn.write fun s => s.updateBindingRow pk f) s := by
  refine bindingTable.modify fun a ha => ?_
  obtain rfl : b = a := Option.some.inj ((row_of_binding hb).symm.trans ha)
  exact ⟨hmine, (congrArg (s.mine u) hf).trans hmine⟩

theorem newChat_bind {obj : UpdateAiBinding} {b : AiBinding} {k : Option (Option ℤ) → Req β}
    (hown : s.ResolverOwned u out (obj.resolver b) obj.chatId.value)
    (h : ∀ chatId, Confined u (k chatId) s) : Confined u (obj.newChat out b >>= k) s := by
  unfold UpdateAiBinding.newChat
  split
  · exact .bind .ret fun _ _ heq => by cases heq; exact h none
  · refine .bind_post (Q := fun _ s' => s' = s) (U := fun _ => True)
      (resolveChatId_bind hown fun _ => .ret) ?_ ?_
    · exact .bind ((resolveChatId_keeps fun _ _ _ _ _ _ => trivial).mono fun _ _ h => .ret h)
    · rintro chatId s' rfl
      exact h chatId

theorem updateBinding_confined {pk : BindingId} {obj : UpdateAiBinding}
    (h : ∀ b ∈ s.binding pk, s.mine u b.scope = true ∧
      s.ResolverOwned u out (obj.resolver b) obj.chatId.value) :
    Confined u (updateBinding out pk obj) s := by
  refine .read_bind (binding_visible fun b hb => (h b hb).1) (orRefuse_bind fun b hb => ?_)
  refine newChat_bind (h b hb).2 fun chatId => ?_
  refine .bind_post updateApply_confined (updateApply_keeps (U := fun _ => True)) ?_
  rintro updated s' ⟨ht, hp, -, -, -, rfl⟩
  refine .bind (modifyBinding hb (h b hb).1 ?_) fun _ _ _ => .ret
  rw [AiBinding.scope, ht, hp, AiBinding.scope]

theorem deleteBinding_confined {pk : BindingId} (h : ∀ b ∈ s.binding pk, s.mine u b.scope = true) :
    Confined u (deleteBinding pk) s := by
  refine .read_bind (binding_visible h) (orRefuse_bind fun b hb => ?_)
  exact .bind (modifyBinding hb (h b hb) rfl) fun _ _ _ => .ret

theorem eachBinding_confined {l : List (BindingId × AiBinding)} {f : AiBinding → AiBinding}
    (hl : ∀ x ∈ l, ∀ b, s.bindings.row? x.1 = some b → s.mine u b.scope = true)
    (hf : ∀ b, (f b).scope = b.scope) :
    Confined u (Txn.each (fun x => Txn.write fun s => s.updateBindingRow x.1 f) l) s := by
  -- what the rounds keep: the memberships, and that the listed rows are the user's
  refine Txn.Confined.each (I := fun s => ∀ x ∈ l, ∀ b, s.bindings.row? x.1 = some b →
    s.mine u b.scope = true) (fun x hx s hs => ⟨?_, .write ?_⟩) hl
  · refine bindingTable.modify fun b hb => ⟨hs x hx b hb, ?_⟩
    exact (congrArg (s.mine u) (hf b)).trans (hs x hx b hb)
  · intro y hy b hb
    change (s.bindings.modify x.1 f).row? y.1 = some b at hb
    rw [Slots.row?_modify] at hb
    split at hb
    · obtain ⟨a, ha, rfl⟩ := Option.map_eq_some_iff.mp hb
      exact (congrArg (s.mine u) (hf a)).trans (hs y hy a ha)
    · exact hs y hy b hb

theorem setAutoApprove_confined {t p : ℕ} {enabled : Bool}
    (h : ∀ x ∈ s.bindingsOf (some t) (some p), s.mine u x.2.scope = true) :
    Confined u (setAutoApprove t p enabled) s := by
  refine .read_bind (bindingsOf_visible h) (.bind (eachBinding_confined ?_ ?_) fun _ _ _ => .ret)
  · intro x hx b hb
    have hmem := List.mem_of_mem_filter hx
    obtain rfl : x.2 = b := Option.some.inj ((mem_bindingsOf.mp hmem).1.symm.trans hb)
    exact h x hmem
  · exact fun _ => rfl

/-! ## Conversations and runs -/

theorem getConversations_confined {t p : Option ℕ}
    (h : ∀ x ∈ s.conversationsOf t p, s.mine u x.2.scope = true) :
    Confined u (getConversations t p) s := .read (conversationsOf_visible h)

theorem getRuns_confined {t p : Option ℕ} {status : Option RunStatus}
    (h : ∀ x ∈ s.runsOf t p status, s.mine u x.2.scope = true) :
    Confined u (getRuns t p status) s := .read (runsOf_visible h)

/-- A run and its conversation are the user's, if they exist. -/
structure RunOwned (s : ControlPlane) (u : UserId) (pk : RunId) (cid : ConversationId) : Prop where
  run : ∀ r, s.runs.row? pk = some r → s.mine u r.scope = true
  conversation : ∀ c, s.conversations.row? cid = some c → s.mine u c.scope = true

variable {pk : RunId} {cid : ConversationId}

theorem RunOwned.of_updateRun (h : RunOwned s u pk cid) {f : AiRun → AiRun}
    (hf : ∀ r, (f r).scope = r.scope) : RunOwned (s.updateRun pk f) u pk cid where
  run r hr := by
    change (s.runs.modify pk f).row? pk = some r at hr
    rw [Slots.row?_modify_self] at hr
    obtain ⟨a, ha, rfl⟩ := Option.map_eq_some_iff.mp hr
    exact (congrArg (s.mine u) (hf a)).trans (h.run a ha)
  conversation := h.conversation

theorem RunOwned.updateRun (h : RunOwned s u pk cid) {f : AiRun → AiRun}
    (hf : ∀ r, (f r).scope = r.scope) : Confined u (Txn.write fun s => s.updateRun pk f) s :=
  runTable.modify fun r hr => ⟨h.run r hr, (congrArg (s.mine u) (hf r)).trans (h.run r hr)⟩

theorem RunOwned.unlock (h : RunOwned s u pk cid) :
    Confined u (Txn.write fun s => s.unlockConversation cid) s :=
  conversationTable.modify fun c hc => ⟨h.conversation c hc, h.conversation c hc⟩

theorem RunOwned.lock (h : RunOwned s u pk cid) :
    Confined u (Txn.write fun s => s.lockConversation cid) s :=
  conversationTable.modify fun c hc => ⟨h.conversation c hc, h.conversation c hc⟩

theorem RunOwned.read (h : RunOwned s u pk cid) : Confined u (Txn.read fun s => s.run pk) s :=
  .read (run_visible fun r hr => h.run r (Option.filter_eq_some_iff.mp hr).1)

theorem RunOwned.close (h : RunOwned s u pk cid) {f : AiRun → AiRun}
    (hf : ∀ r, (f r).scope = r.scope) : Confined u (do
      Txn.write fun s => (s.updateRun pk f).unlockConversation cid
      Txn.read fun s => s.run pk) s := by
  have hclosed := h.of_updateRun hf
  refine .bind (.write_comp (h.updateRun hf) hclosed.unlock) fun _ s' heq => ?_
  cases heq
  exact .read (run_visible fun r hr => hclosed.run r (Option.filter_eq_some_iff.mp hr).1)

theorem cancelRun_confined (h : ∀ r ∈ s.run pk, s.mine u r.scope = true ∧
    (r.status.active = true → ∀ c ∈ s.conversations.row? r.conversationId,
      s.mine u c.scope = true)) : Confined u (cancelRun out pk) s := by
  refine .read_bind (run_visible fun r hr => (h r hr).1) (orRefuse_bind fun r hr => ?_)
  split
  · exact .throw
  · rename_i hactive
    have hrow : s.runs.row? pk = some r := (Option.filter_eq_some_iff.mp hr).1
    have hown : RunOwned s u pk r.conversationId := by
      constructor
      · intro r' hr'
        obtain rfl : r = r' := Option.some.inj (hrow.symm.trans hr')
        exact (h r hr).1
      · exact (h r hr).2 (by simpa using hactive)
    exact hown.close fun _ => rfl

end ControlPlane

end TgPlatform
