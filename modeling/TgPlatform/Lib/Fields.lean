import Mathlib

/-! # Fields joined by a separator

A list joined from fields by a separator gives back its first and its last
field, as long as the separator does not occur in them.
-/

namespace Fields

variable {α : Type*} {c : α} {a a' b b' : List α}

theorem first_eq (ha : c ∉ a) (ha' : c ∉ a') (h : a ++ c :: b = a' ++ c :: b') :
    a = a' ∧ b = b' := by
  induction a generalizing a' with
  | nil =>
    cases a' with
    | nil => simpa using h
    | cons x a' =>
      obtain ⟨rfl, _⟩ := List.cons.inj h
      simp at ha'
  | cons x a ih =>
    cases a' with
    | nil =>
      obtain ⟨rfl, _⟩ := List.cons.inj h
      simp at ha
    | cons x' a' =>
      obtain ⟨rfl, htail⟩ := List.cons.inj h
      obtain ⟨rfl, hrest⟩ := ih (List.not_mem_of_not_mem_cons ha)
        (List.not_mem_of_not_mem_cons ha') htail
      exact ⟨rfl, hrest⟩

theorem last_eq (hb : c ∉ b) (hb' : c ∉ b') (h : a ++ c :: b = a' ++ c :: b') :
    a = a' ∧ b = b' := by
  have hreverse : b.reverse ++ c :: a.reverse = b'.reverse ++ c :: a'.reverse := by
    simpa using congrArg List.reverse h
  obtain ⟨hlast, hinit⟩ := first_eq (by simpa using hb) (by simpa using hb') hreverse
  exact ⟨List.reverse_injective hinit, List.reverse_injective hlast⟩

theorem not_mem_toString_int {d : Char} (hdigit : d.isDigit = false) (hsign : d ≠ '-') (n : ℤ) :
    d ∉ (toString n).toList := by
  have hnat : ∀ m : ℕ, d ∉ Nat.toDigits 10 m := by
    intro m hm
    have hd := Nat.isDigit_of_mem_toDigits (by decide) (by decide) hm
    rw [hdigit] at hd
    cases hd
  rw [Int.toString_eq_repr, Int.repr_eq_if]
  split
  · simp [hnat]
  · simp [hnat, hsign]

theorem toString_int_injective {m n : ℤ} (h : (toString m).toList = (toString n).toList) :
    m = n := by
  apply Int.repr_inj.mp
  rw [← Int.toString_eq_repr, ← Int.toString_eq_repr]
  exact String.toList_injective h

end Fields
