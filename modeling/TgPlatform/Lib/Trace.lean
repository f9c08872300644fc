import Mathlib.Data.List.Basic
import Mathlib.Data.List.Forall2

/-! # Elements of a growing list and what came before them

A property of each element of a list together with the elements before it,
for histories that grow at the end, and what they tell of in some order.
-/

namespace Trace

variable {α : Type*}

/-- `P` holds of every element of `l` with the list of the elements before it. -/
def Throughout (P : List α → α → Prop) (l : List α) : Prop :=
  ∀ pre x post, l = pre ++ x :: post → P pre x

variable {P Q : List α → α → Prop} {l : List α} {x : α}

theorem split_cases {l' r r' : List α} {y : α} (h : l ++ x :: r = l' ++ y :: r') :
    (l = l' ∧ x = y ∧ r = r') ∨ (∃ mid, l = l' ++ y :: mid ∧ r' = mid ++ x :: r) ∨ y ∈ r := by
  rcases List.append_eq_append_iff.mp h with ⟨mid, rfl, hmid⟩ | ⟨mid, rfl, hmid⟩
  · cases mid with
    | nil => exact .inl ⟨(List.append_nil l).symm, List.cons.inj hmid⟩
    | cons z mid =>
      right
      right
      rw [(List.cons.inj hmid).2]
      exact List.mem_append_right mid List.mem_cons_self
  · cases mid with
    | nil =>
      obtain ⟨rfl, rfl⟩ := List.cons.inj hmid
      exact .inl ⟨List.append_nil l', rfl, rfl⟩
    | cons z mid =>
      obtain ⟨rfl, hrest⟩ := List.cons.inj hmid
      exact .inr (.inl ⟨mid, rfl, hrest⟩)

theorem throughout_nil : Throughout P ([] : List α) := by
  intro pre x post h
  simp at h

theorem Throughout.snoc (h : Throughout P l) (hx : P l x) : Throughout P (l ++ [x]) := by
  intro pre y post he
  rcases split_cases he with ⟨rfl, rfl, -⟩ | ⟨mid, hl, -⟩ | hy
  · exact hx
  · exact h pre y mid hl
  · cases hy

theorem snoc_split {p : α → Prop} {pre post : List α} {y : α} (hl : ∀ z ∈ l, ¬ p z) (hy : p y)
    (h : l ++ [x] = pre ++ y :: post) : pre = l ∧ y = x := by
  rcases split_cases h with ⟨rfl, rfl, -⟩ | ⟨mid, rfl, -⟩ | hmem
  · exact ⟨rfl, rfl⟩
  · exact absurd hy (hl y (List.mem_append_right pre List.mem_cons_self))
  · cases hmem

/-! ## What has been done last -/

/-- An element of the list satisfies `P` together with those before it, and none behind it clears. -/
def Standing (P : List α → α → Prop) (clears : α → Prop) (l : List α) : Prop :=
  ∃ pre x mid, l = pre ++ x :: mid ∧ P pre x ∧ ∀ y ∈ mid, ¬ clears y

variable {clears : α → Prop}

theorem standing_last (h : P l x) : Standing P clears (l ++ [x]) :=
  ⟨l, x, [], rfl, h, fun _ hy => (List.not_mem_nil hy).elim⟩

theorem Standing.snoc (h : Standing P clears l) (hx : ¬ clears x) : Standing P clears (l ++ [x]) := by
  obtain ⟨pre, y, mid, rfl, hy, hmid⟩ := h
  refine ⟨pre, y, mid ++ [x], by simp, hy, fun z hz => ?_⟩
  rcases List.mem_append.mp hz with hz | hz
  · exact hmid z hz
  · rcases List.mem_singleton.mp hz with rfl
    exact hx

/-- Nothing stands where each such element has one behind it that clears. -/
theorem not_standing (h : ∀ pre x post, l = pre ++ x :: post → P pre x → ∃ y ∈ post, clears y) :
    ¬ Standing P clears l := by
  rintro ⟨pre, x, mid, hl, hx, hmid⟩
  obtain ⟨y, hy, hclears⟩ := h pre x mid hl hx
  exact hmid y hy hclears

/-! ## What a history tells of -/

/-- Among the elements of the list there is one for each of the steps, in their order. -/
def Tells (steps : List (α → Prop)) (l : List α) : Prop := List.SublistForall₂ (fun p x => p x) steps l

variable {steps : List (α → Prop)}

theorem tells_nil : Tells [] l := .nil

theorem Tells.append_right (h : Tells steps l) (l' : List α) : Tells steps (l ++ l') := by
  induction h with
  | nil => exact .nil
  | cons hp _ ih => exact .cons hp ih
  | cons_right _ ih => exact .cons_right ih

theorem Tells.mono {l' : List α} (h : Tells steps l) (hle : l <+: l') : Tells steps l' := by
  obtain ⟨rest, rfl⟩ := hle
  exact h.append_right rest

theorem Tells.snoc {p : α → Prop} (h : Tells steps l) (hp : p x) : Tells (steps ++ [p]) (l ++ [x]) := by
  induction h with
  | @nil l =>
    induction l with
    | nil => exact .cons hp .nil
    | cons y l ih => exact .cons_right ih
  | cons hq _ ih => exact .cons hq ih
  | cons_right _ ih => exact .cons_right ih

theorem Tells.exists_mem {p : α → Prop} (h : Tells steps l) (hp : p ∈ steps) : ∃ x ∈ l, p x := by
  induction h with
  | nil => exact (List.not_mem_nil hp).elim
  | cons hq _ ih =>
    rcases List.mem_cons.mp hp with rfl | hp
    · exact ⟨_, List.mem_cons_self, hq⟩
    · obtain ⟨x, hx, hpx⟩ := ih hp
      exact ⟨x, List.mem_cons_of_mem _ hx, hpx⟩
  | cons_right _ ih =>
    obtain ⟨x, hx, hpx⟩ := ih hp
    exact ⟨x, List.mem_cons_of_mem _ hx, hpx⟩

end Trace
