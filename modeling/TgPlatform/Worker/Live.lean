import Mathlib.Logic.Function.Basic
import TgPlatform.Delivery.Executor

/-! # The live registry

The send state of each hosted account, as one worker process keeps it in
memory. Assignment, commands and failed transport calls change it; the send
policy reads it.
-/

namespace TgPlatform

abbrev LiveRegistry := AccountId → Option LiveAccount

namespace LiveRegistry

def empty : LiveRegistry := fun _ => none

def register (r : LiveRegistry) (accountId : AccountId) (generation : ℤ) : LiveRegistry :=
  Function.update r accountId (some { accountId, generation, sendState := .sendable })

/-- An unknown account reads as dead, at a generation no lease has. -/
def get (r : LiveRegistry) (accountId : AccountId) : LiveAccount :=
  (r accountId).getD { accountId, generation := -1, sendState := .authDead }

/-- `_set`: unknown accounts are left alone. -/
def modify (r : LiveRegistry) (accountId : AccountId) (f : LiveAccount → LiveAccount) :
    LiveRegistry :=
  Function.update r accountId ((r accountId).map f)

def markPaused (r : LiveRegistry) (accountId : AccountId) : LiveRegistry :=
  r.modify accountId fun l => { l with sendState := .paused }

def markResumed (r : LiveRegistry) (accountId : AccountId) : LiveRegistry :=
  r.modify accountId fun l => { l with sendState := .sendable, floodWaitUntil := none }

def markAuthDead (r : LiveRegistry) (accountId : AccountId) : LiveRegistry :=
  r.modify accountId fun l => { l with sendState := .authDead }

def markFloodWait (r : LiveRegistry) (accountId : AccountId) (until_ : Time) : LiveRegistry :=
  r.modify accountId fun l => { l with sendState := .floodWait, floodWaitUntil := some until_ }

def drop (r : LiveRegistry) (accountId : AccountId) : LiveRegistry :=
  Function.update r accountId none

def Keyed (r : LiveRegistry) : Prop := ∀ a l, r a = some l → l.accountId = a

variable {r : LiveRegistry} {a b : AccountId} {generation : ℤ} {f : LiveAccount → LiveAccount}

@[simp] theorem register_self :
    r.register a generation a = some { accountId := a, generation, sendState := .sendable } := by
  simp [register]

theorem register_of_ne (h : b ≠ a) : r.register a generation b = r b := by simp [register, h]

@[simp] theorem modify_self : r.modify a f a = (r a).map f := by simp [modify]

theorem modify_of_ne (h : b ≠ a) : r.modify a f b = r b := by simp [modify, h]

@[simp] theorem drop_self : r.drop a a = none := by simp [drop]

theorem drop_of_ne (h : b ≠ a) : r.drop a b = r b := by simp [drop, h]

theorem get_of_some {l : LiveAccount} (h : r a = some l) : r.get a = l := by simp [get, h]

theorem Keyed.register (h : r.Keyed) : (r.register a generation).Keyed := by
  intro b l hl
  by_cases hb : b = a
  · subst hb
    rw [register_self] at hl
    rw [← Option.some.inj hl]
  · exact h b l (by rwa [register_of_ne hb] at hl)

theorem Keyed.modify (h : r.Keyed) (hf : ∀ l, (f l).accountId = l.accountId) :
    (r.modify a f).Keyed := by
  intro b l hl
  by_cases hb : b = a
  · subst hb
    rw [modify_self] at hl
    obtain ⟨l, hl', rfl⟩ := Option.map_eq_some_iff.mp hl
    rw [hf, h b l hl']
  · exact h b l (by rwa [modify_of_ne hb] at hl)

theorem Keyed.drop (h : r.Keyed) : (r.drop a).Keyed := by
  intro b l hl
  by_cases hb : b = a
  · subst hb
    simp at hl
  · exact h b l (by rwa [drop_of_ne hb] at hl)

theorem Keyed.get (h : r.Keyed) (a : AccountId) : (r.get a).accountId = a := by
  cases hl : r a with
  | none => simp [LiveRegistry.get, hl]
  | some l => rw [get_of_some hl, h a l hl]

end LiveRegistry

/-- What a failed call tells the registry about the account whose client raised it. -/
def TransportOutcome.mark (outcome : TransportOutcome) (r : LiveRegistry) : LiveRegistry :=
  match outcome with
  | .error .floodWait _ (some until_) (some accountId) => r.markFloodWait accountId until_
  | .error .auth _ _ (some accountId) => r.markAuthDead accountId
  | _ => r

def TransportOutcome.reportsDead : TransportOutcome → Option AccountId
  | .error .auth _ _ raisedBy => raisedBy
  | .error .permission _ _ raisedBy => raisedBy
  | _ => none

end TgPlatform
