import Mathlib.Logic.Relation
import Mathlib.Order.WellFounded

/-! # Loops

A loop ends if there is no infinite sequence of its rounds. Where every round
but those of one kind makes a measure smaller, and a round of that kind can be
followed by another one for ever, the loop ends exactly if it never comes to
such a round.
-/

/-- There is no infinite sequence of rounds from `s`. -/
def Halts {σ : Type*} (R : σ → σ → Prop) (s : σ) : Prop :=
  ¬ ∃ f : ℕ → σ, f 0 = s ∧ ∀ n, R (f n) (f (n + 1))

namespace Halts

open Relation

variable {σ : Type*} {R : σ → σ → Prop} {P : σ → Prop} {μ : σ → ℕ} {s s' : σ}

theorem iff_acc : Halts R s ↔ Acc (fun t s => R s t) s := by
  have hchain : ¬ Acc (fun t s => R s t) s ↔ ∃ f : ℕ → σ, f 0 = s ∧ ∀ n, R (f n) (f (n + 1)) :=
    not_acc_iff_exists_descending_chain
  rw [Halts, ← hchain, not_not]

theorem of_step (h : Halts R s) (hs : R s s') : Halts R s' := by
  rw [iff_acc] at h ⊢
  exact h.inv hs

theorem of_reach (h : Halts R s) (hs : ReflTransGen R s s') : Halts R s' := by
  induction hs with
  | refl => exact h
  | tail _ hstep ih => exact ih.of_step hstep

/-- A property that always has a next round with the property. -/
theorem not_of_stuck (hP : ∀ s, P s → ∃ s', R s s' ∧ P s') (hs : P s) : ¬ Halts R s := by
  intro h
  rw [iff_acc] at h
  induction h with
  | intro s _ ih =>
    obtain ⟨s', hstep, hs'⟩ := hP s hs
    exact ih s' hstep hs'

theorem of_measure (hμ : ∀ t t', ReflTransGen R s t → R t t' → μ t' < μ t) : Halts R s := by
  rw [iff_acc]
  have hacc : ∀ n t, ReflTransGen R s t → μ t ≤ n → Acc (fun t s => R s t) t := by
    intro n
    induction n with
    | zero =>
      intro t ht hle
      constructor
      intro t' hstep
      have hlt := hμ t t' ht hstep
      omega
    | succ n ih =>
      intro t ht hle
      constructor
      intro t' hstep
      have hlt := hμ t t' ht hstep
      exact ih t' (ht.tail hstep) (by omega)
  exact hacc (μ s) s .refl (Nat.le_refl _)

theorem iff_never (hP : ∀ s, P s → ∃ s', R s s' ∧ P s') (hμ : ∀ s s', R s s' → ¬ P s → μ s' < μ s) :
    Halts R s ↔ ∀ s', ReflTransGen R s s' → ¬ P s' := by
  constructor
  · intro h s' hs' hstuck
    exact not_of_stuck hP hstuck (h.of_reach hs')
  · intro h
    apply of_measure (μ := μ)
    intro t t' ht hstep
    exact hμ t t' hstep (h t ht)

end Halts
