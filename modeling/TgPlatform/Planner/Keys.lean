import TgPlatform.Lib.Fields
import TgPlatform.Planner.Plan

/-! # Idempotency keys

A key joins its fields with colons. Rule and route ids hold no colon, and
neither do the printed numbers and the kind, so two plans with one key are
plans of one rule, route, message, revision and kind.
-/

namespace TgPlatform

/-- The ids of the plan hold no colon. -/
def DeliveryPlan.PlainIds (p : DeliveryPlan) : Prop :=
  ':' ∉ p.ruleId.toList ∧ ':' ∉ p.routeId.toList

theorem PlanKind.value_injective {k k' : PlanKind} (h : k.value = k'.value) : k = k' := by
  cases k <;> cases k' <;> first | rfl | exact absurd h (by decide)

theorem PlanKind.colon_notMem_value (k : PlanKind) : ':' ∉ k.value.toList := by
  cases k <;> decide

theorem colon_notMem_int (n : ℤ) : ':' ∉ (toString n).toList :=
  Fields.not_mem_toString_int (by decide) (by decide) n

theorem idempotencyKey_toList (p : DeliveryPlan) : p.idempotencyKey.toList =
    p.ruleId.toList ++ ':' :: (p.routeId.toList ++ ':' ::
      ((((p.sourceScope.toList ++ ':' :: (toString p.sourceChatId).toList) ++
        ':' :: (toString p.sourceMessageId).toList) ++ ':' :: (toString p.revision).toList) ++
        ':' :: p.kind.value.toList)) := by
  have hcolon : (":" : String).toList = [':'] := rfl
  have hstring : ∀ t : String, toString t = t := fun _ => rfl
  simp only [DeliveryPlan.idempotencyKey, String.toList_append, hstring, hcolon]
  simp

theorem cloneKey_of_idempotencyKey {p q : DeliveryPlan} (hp : p.PlainIds) (hq : q.PlainIds)
    (h : p.idempotencyKey = q.idempotencyKey) : p.cloneKey = q.cloneKey := by
  have hkey := congrArg String.toList h
  rw [idempotencyKey_toList, idempotencyKey_toList] at hkey
  obtain ⟨hrule, hkey⟩ := Fields.first_eq hp.1 hq.1 hkey
  obtain ⟨hroute, hkey⟩ := Fields.first_eq hp.2 hq.2 hkey
  obtain ⟨hkey, hkind⟩ :=
    Fields.last_eq p.kind.colon_notMem_value q.kind.colon_notMem_value hkey
  obtain ⟨hkey, hrevision⟩ := Fields.last_eq (colon_notMem_int _) (colon_notMem_int _) hkey
  obtain ⟨hkey, hmessage⟩ := Fields.last_eq (colon_notMem_int _) (colon_notMem_int _) hkey
  obtain ⟨hscope, hchat⟩ := Fields.last_eq (colon_notMem_int _) (colon_notMem_int _) hkey
  simp only [DeliveryPlan.cloneKey, DeliveryPlan.message, CloneKey.mk.injEq, MessageKey.mk.injEq]
  exact ⟨String.toList_injective hrule, String.toList_injective hroute,
    ⟨String.toList_injective hscope, Fields.toString_int_injective hchat,
      Fields.toString_int_injective hmessage⟩,
    Fields.toString_int_injective hrevision, String.toList_injective hkind⟩

end TgPlatform
