import Mathlib.Logic.Function.Basic
import Mathlib.Order.Lattice

/-! # Keys that expire

A store keeps keys for a time, and a key is set only where it is absent. Whoever
asks for a key, and however the requests follow one another, the intervals for
which one key has been granted do not overlap.
-/

/-- A key that is granted from a moment on and up to another. -/
structure Grant (κ τ : Type) where
  key : κ
  start : τ
  stop : τ
  deriving DecidableEq, Repr

abbrev Expiring (κ τ : Type) : Type := κ → Option τ

/-- Grants of different keys, or of one key for intervals that do not overlap. -/
def Grant.Apart {κ τ : Type} [LE τ] (g g' : Grant κ τ) : Prop :=
  g.key = g'.key → g.stop ≤ g'.start ∨ g'.stop ≤ g.start

namespace Expiring

variable {ι κ τ : Type} [LinearOrder τ]

def live (s : Expiring κ τ) (now : τ) (k : κ) : Bool := (s k).any fun stop => now < stop

/-- The store knows of all that has been granted up to now and has not expired, and the grants do not
overlap. -/
structure Ledger (s : Expiring κ τ) (now : τ) (held : ι → Option (Grant κ τ)) : Prop where
  started : ∀ i g, held i = some g → g.start ≤ now
  covered : ∀ i g, held i = some g → g.stop ≤ now ∨ ∃ stop, s g.key = some stop ∧ g.stop ≤ stop
  apart : ∀ i j g g', i ≠ j → held i = some g → held j = some g' → g.Apart g'

variable {s s' : Expiring κ τ} {now later stop : τ} {k : κ} {i : ι} {held : ι → Option (Grant κ τ)}

theorem Ledger.of_none (h : ∀ i, held i = none) : Ledger s now held := by
  have hnone : ∀ i g, held i ≠ some g := by
    intro i g hg
    rw [h i] at hg
    cases hg
  exact ⟨fun i g hg => absurd hg (hnone i g), fun i g hg => absurd hg (hnone i g),
    fun i j g g' _ hg _ => absurd hg (hnone i g)⟩

theorem Ledger.wait (h : Ledger s now held) (hle : now ≤ later) : Ledger s later held := by
  refine ⟨fun i g hg => (h.started i g hg).trans hle, fun i g hg => ?_, h.apart⟩
  exact (h.covered i g hg).imp_left fun hstop => hstop.trans hle

theorem Ledger.expired (h : Ledger s now held) (hlive : s.live now k = false) {g : Grant κ τ}
    (hg : held i = some g) (hkey : g.key = k) : g.stop ≤ now := by
  rcases h.covered i g hg with hstop | ⟨stop, hs, hle⟩
  · exact hstop
  · rw [live, ← hkey, hs] at hlive
    exact hle.trans (not_lt.mp (by simpa using hlive))

variable [DecidableEq κ]

/-- Set a key unless it is there. -/
def setAbsent (s : Expiring κ τ) (now stop : τ) (k : κ) : Option (Expiring κ τ) :=
  if s.live now k then none else some (Function.update s k (some stop))

theorem setAbsent_eq_some : s.setAbsent now stop k = some s' ↔
    s.live now k = false ∧ s' = Function.update s k (some stop) := by
  unfold setAbsent
  split
  · rename_i hlive
    simp [hlive]
  · rename_i hlive
    simp [hlive, eq_comm (a := s')]

theorem Ledger.grant [DecidableEq ι] (h : Ledger s now held) (hset : s.setAbsent now stop k = some s')
    (hi : held i = none) :
    Ledger s' now (Function.update held i (some ⟨k, now, stop⟩)) := by
  obtain ⟨hlive, rfl⟩ := setAbsent_eq_some.mp hset
  have hcases : ∀ j g, Function.update held i (some ⟨k, now, stop⟩) j = some g →
      (j = i ∧ g = ⟨k, now, stop⟩) ∨ (j ≠ i ∧ held j = some g) := by
    intro j g hg
    by_cases hj : j = i
    · subst hj
      rw [Function.update_self] at hg
      exact .inl ⟨rfl, (Option.some.inj hg).symm⟩
    · rw [Function.update_of_ne hj] at hg
      exact .inr ⟨hj, hg⟩
  constructor
  · intro j g hg
    rcases hcases j g hg with ⟨-, rfl⟩ | ⟨-, hg⟩
    · exact le_refl now
    · exact h.started j g hg
  · intro j g hg
    rcases hcases j g hg with ⟨-, rfl⟩ | ⟨-, hg⟩
    · exact .inr ⟨stop, Function.update_self .., le_refl stop⟩
    · by_cases hkey : g.key = k
      · exact .inl (h.expired hlive hg hkey)
      · refine (h.covered j g hg).imp_right fun hcover => ?_
        rwa [Function.update_of_ne hkey]
  · intro j j' g g' hne hg hg' hkey
    rcases hcases j g hg with ⟨rfl, rfl⟩ | ⟨-, hg⟩
    · rcases hcases j' g' hg' with ⟨rfl, -⟩ | ⟨-, hg'⟩
      · exact absurd rfl hne
      · exact .inr (h.expired hlive hg' hkey.symm)
    · rcases hcases j' g' hg' with ⟨-, rfl⟩ | ⟨-, hg'⟩
      · exact .inl (h.expired hlive hg hkey)
      · exact h.apart j j' g g' hne hg hg' hkey

end Expiring
