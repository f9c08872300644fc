import TgPlatform.Control.AiScope
import TgPlatform.Rules.References

/-! # References stay inside of their project

Requests of any users, the reports of the workers and the rewriting of texts are
handled one after the other. As long as bindings are given accounts of their
project, and rules groups of theirs, no session and no key of another project is
ever used.
-/

namespace TgPlatform

/-- What writes references, or follows them. -/
inductive ProjectRequest
  | ai (caller : Caller) (req : AiRequest)
  | createRule (caller : Caller) (obj : CreateCloneRule)
  | updateRule (caller : Caller) (pk : ℕ) (obj : UpdateCloneRule)
  | deleteRule (caller : Caller) (pk : ℕ)
  | addTarget (caller : Caller) (ruleId : ℕ) (obj : CloneTargetParam)
  | updateTarget (caller : Caller) (ruleId targetId : ℕ) (obj : CloneTargetParam)
  | retireTarget (caller : Caller) (ruleId targetId : ℕ)
  | checkRoutes (caller : Caller) (pk : ℕ)
  | publish (caller : Caller) (pk : ℕ) (expectedVersion : ℤ)
  | reportAccountStatus (accountId : ℕ) (observedStatus : String)
  | reportChatLost (accountId : ℕ) (chatId : ℤ) (reason : String)
  | cloneTransform (ruleId : ℕ) (text : String)

/-- The handler of a request, without its answer. -/
def ProjectRequest.handle (out : Outside) : ProjectRequest → Req Unit
  | ai caller req => (req.handle out caller).map fun _ => ()
  | createRule caller obj => TgPlatform.createRule out caller obj
  | updateRule caller pk obj => TgPlatform.updateRule out caller pk obj
  | deleteRule caller pk => TgPlatform.deleteRule out caller pk
  | addTarget caller ruleId obj => (TgPlatform.addTarget out caller ruleId obj).map fun _ => ()
  | updateTarget caller ruleId targetId obj =>
    (TgPlatform.updateTarget out caller ruleId targetId obj).map fun _ => ()
  | retireTarget caller ruleId targetId => TgPlatform.retireTarget caller ruleId targetId
  | checkRoutes caller pk => (TgPlatform.checkRoutes out caller pk).map fun _ => ()
  | publish caller pk expectedVersion =>
    (TgPlatform.publish out caller pk expectedVersion).map fun _ => ()
  | reportAccountStatus accountId observedStatus =>
    (TgPlatform.reportAccountStatus out accountId observedStatus).map fun _ => ()
  | reportChatLost accountId chatId reason =>
    (TgPlatform.reportChatLost accountId chatId reason).map fun _ => ()
  | cloneTransform ruleId text => (TgPlatform.cloneTransform out ruleId text).map fun _ => ()

def projectSession (a : Outside × ProjectRequest) : Req Unit := a.2.handle a.1

namespace ControlPlane

variable {s : ControlPlane} {out : Outside}

/-- The references that a request writes unchecked are inside. -/
def WritesInside (s : ControlPlane) : ProjectRequest → Prop
  | .ai _ req => s.RefersInside req
  | .createRule _ obj => s.BorrowsInside obj.aiGroupId (obj.tenantId, obj.projectId)
  | .updateRule _ pk obj => ∀ rule ∈ s.rule pk, s.BorrowsInside obj.aiGroupId rule.scope
  | _ => True

theorem projectRequest_inside {req : ProjectRequest} (hs : s.Inside) (hreq : s.WritesInside req) :
    Txn.Post (req.handle out) s Use.Inside fun _ s' => s'.Inside := by
  cases req with
  | ai _ _ => exact .map (aiRequest_inside hs hreq)
  | createRule _ _ => exact createRule_inside hs hreq
  | updateRule _ _ _ => exact updateRule_inside hs hreq
  | deleteRule _ _ => exact deleteRule_inside hs
  | addTarget _ _ _ => exact .map ((addTarget_keepsRefs hs).inside hs)
  | updateTarget _ _ _ _ => exact .map ((updateTarget_keepsRefs hs).inside hs)
  | retireTarget _ _ _ => exact retireTarget_keepsRefs.inside hs
  | checkRoutes _ _ => exact .map ((checkRoutes_keepsRefs hs).inside hs)
  | publish _ _ _ => exact .map (publish_inside hs)
  | reportAccountStatus _ _ => exact .map (reportAccountStatus_inside hs)
  | reportChatLost _ _ _ => exact .map (reportChatLost_keepsRefs.inside hs)
  | cloneTransform _ _ => exact .map ((cloneTransform_keepsRefs hs).inside hs)

theorem inside_ofDirectory (dir : Directory) : (ofDirectory dir).Inside where
  rules _ _ hr := absurd (Slots.row?_lt (rule_eq_some.mp hr).1) (Nat.not_lt_zero _)
  bindings _ _ hb := absurd (Slots.row?_lt (binding_eq_some.mp hb).1) (Nat.not_lt_zero _)
  versions _ _ hv := absurd (Slots.row?_lt hv) (Nat.not_lt_zero _)
  jobs _ _ hjob := absurd (Slots.row?_lt hjob) (Nat.not_lt_zero _)

/-- For every sequence of requests whose unchecked references are inside: all references stay inside of
their project, and so is every session and every key that the requests use. -/
theorem references_stay_inside (s : ControlPlane) (as : List (Outside × ProjectRequest)) (hs : s.Inside)
    (h : Txn.Each projectSession (fun s a => s.WritesInside a.2) s as) :
    (Txn.final projectSession s as).Inside ∧ ∀ w ∈ Txn.uses projectSession s as, w.Inside :=
  h.keeps (fun _ _ hs hreq => projectRequest_inside hs hreq) hs

/-! ## Two projects -/

def ownReferences : List (Outside × ProjectRequest) :=
  let root : Caller := { id := 1, isSuperuser := true }
  [(silence, .ai root (.createBinding { tenantId := 1, projectId := 1, accountId := 1 })),
    (silence, .createRule root {
      tenantId := 1, projectId := 1, accountId := 1, name := "r", aiGroupId := some 0 }),
    (silence, .addTarget root 0 { sourceChatId := "@a", targetChatId := "@b" })]

theorem ownReferences_inside :
    (Txn.final projectSession (ofDirectory memberOfFirst) ownReferences).Inside ∧
      ∀ w ∈ Txn.uses projectSession (ofDirectory memberOfFirst) ownReferences, w.Inside := by
  refine references_stay_inside _ _ (inside_ofDirectory _)
    (Txn.each_cons ?_ (Txn.each_cons ?_ (Txn.each_cons trivial trivial)))
  · rintro a ⟨⟩
    exact ⟨{ id := 1, uuid := "a", tenantId := 1, projectId := 1 }, by decide +kernel, rfl, rfl⟩
  · -- there is no group yet
    intro gid _ g hg
    exact absurd (Slots.row?_lt hg) (Nat.not_lt_zero _)

/-- A binding of the first project is given an account of the second one. -/
theorem foreign_account_is_bound :
    ¬ ∀ (s : ControlPlane) (as : List (Outside × ProjectRequest)), s.Inside →
    (Txn.final projectSession s as).Inside ∧ ∀ w ∈ Txn.uses projectSession s as, w.Inside := by
  intro h
  let obj : CreateAiBinding := { tenantId := 1, projectId := 1, accountId := 2 }
  obtain ⟨hinside, -⟩ := h (ofDirectory memberOfFirst) [(silence, .ai ⟨1, false⟩ (.createBinding obj))]
    (inside_ofDirectory _)
  obtain ⟨a, ha, hid, hscope⟩ := (hinside.bindings 0 (obj.row silence none) rfl).account
  have hforeign : ∀ a ∈ memberOfFirst.accounts, a.id = 2 → a.scope ≠ (1, 1) := by decide +kernel
  exact hforeign a ha hid hscope

end ControlPlane

end TgPlatform
