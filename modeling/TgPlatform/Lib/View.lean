import Mathlib.Data.List.Basic
import Mathlib.Data.List.Nodup

/-! # Views of a state

What an observer may see of a state is a state again, the part that is left of
it. An answer depends only on that part if states that look alike give the
same answer, and for that it is enough to ask each state and its own view.
-/

/-- A projection of states onto their visible part. -/
structure View (σ : Type*) where
  see : σ → σ
  idem : ∀ s, see (see s) = see s

namespace View

variable {σ β : Type*} {v : View σ} {f : σ → β} {s t : σ}

def Alike (v : View σ) (s t : σ) : Prop := v.see s = v.see t

/-- The visible part of `s` alone gives the answer that `s` gives. -/
def Settles (v : View σ) (f : σ → β) (s : σ) : Prop := f (v.see s) = f s

theorem Settles.eq (hs : v.Settles f s) (ht : v.Settles f t) (h : v.Alike s t) : f s = f t := by
  rw [← hs, ← ht, h]

end View

/-! ## Searching the visible rows -/

namespace List

variable {α : Type*} {l : List α} {p q : α → Bool}

theorem find?_filter_of_imp (h : ∀ x ∈ l, q x = true → p x = true) :
    (l.filter p).find? q = l.find? q := by
  rw [List.find?_filter]
  induction l with
  | nil => rfl
  | cons x l ih =>
    have hx := h x (List.mem_cons_self ..)
    have hrest := ih fun y hy => h y (List.mem_cons_of_mem _ hy)
    cases hq : q x with
    | true => simp [hq, hx hq]
    | false => simpa [hq] using hrest

theorem find?_eq_some_of_unique {x : α} (hx : x ∈ l) (hq : q x = true)
    (h : ∀ y ∈ l, q y = true → y = x) : l.find? q = some x := by
  obtain ⟨y, hy⟩ := Option.isSome_iff_exists.mp (List.find?_isSome.mpr ⟨x, hx, hq⟩)
  rw [hy, h y (List.mem_of_find?_eq_some hy) (List.find?_some hy)]

theorem find?_filter_of_unique (h : ∀ x ∈ l, ∀ y ∈ l, q x = true → q y = true → x = y) :
    (l.filter p).find? q = (l.find? q).filter p := by
  cases hfind : l.find? q with
  | none =>
    have hnone := List.find?_eq_none.mp hfind
    exact List.find?_eq_none.mpr fun x hx => hnone x (List.mem_of_mem_filter hx)
  | some x =>
    have hq := List.find?_some hfind
    have hx := List.mem_of_find?_eq_some hfind
    cases hp : p x with
    | true =>
      rw [Option.filter, if_pos hp]
      refine find?_eq_some_of_unique (List.mem_filter.mpr ⟨hx, hp⟩) hq fun y hy hqy => ?_
      exact h y (List.mem_of_mem_filter hy) x hx hqy hq
    | false =>
      simp only [Option.filter, hp, Bool.false_eq_true, if_false]
      refine List.find?_eq_none.mpr fun y hy hqy => ?_
      obtain ⟨hyl, hpy⟩ := List.mem_filter.mp hy
      rw [h y hyl x hx hqy hq, hp] at hpy
      cases hpy

/-- What a search finds does not depend on the order exactly if it can find one thing only. -/
theorem find?_perm_iff {β : Type*} {f : α → β} :
    (∀ l' : List α, l'.Perm l → (l'.find? q).map f = (l.find? q).map f) ↔
      ∀ x ∈ l, ∀ y ∈ l, q x = true → q y = true → f x = f y := by
  constructor
  · intro h
    have hfirst : ∀ x ∈ l, q x = true → (l.find? q).map f = some (f x) := by
      intro x hx hq
      obtain ⟨before, after, rfl⟩ := List.append_of_mem hx
      rw [← h (x :: (before ++ after)) List.perm_middle.symm, List.find?_cons_of_pos hq,
        Option.map_some]
    intro x hx y hy hqx hqy
    exact Option.some.inj ((hfirst x hx hqx).symm.trans (hfirst y hy hqy))
  · intro h l' hperm
    cases hfind : l.find? q with
    | none =>
      have hnone := List.find?_eq_none.mp hfind
      rw [List.find?_eq_none.mpr fun x hx => hnone x (hperm.subset hx)]
    | some x =>
      have hx := List.mem_of_find?_eq_some hfind
      have hq := List.find?_some hfind
      obtain ⟨y, hy⟩ := Option.isSome_iff_exists.mp
        (List.find?_isSome.mpr ⟨x, hperm.symm.subset hx, hq⟩)
      rw [hy, Option.map_some, Option.map_some]
      exact congrArg some (h y (hperm.subset (List.mem_of_find?_eq_some hy)) x hx
        (List.find?_some hy) hq)

theorem filter_filter_of_imp (h : ∀ x ∈ l, q x = true → p x = true) :
    (l.filter p).filter q = l.filter q := by
  rw [List.filter_filter]
  refine List.filter_congr fun x hx => ?_
  cases hq : q x with
  | true => simp [h x hx hq]
  | false => simp

end List
