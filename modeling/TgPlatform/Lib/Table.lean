import Mathlib.Algebra.GroupWithZero.Nat
import Mathlib.Data.List.Basic
import Mathlib.Data.List.Perm.Basic
import Mathlib.Data.List.Nodup

/-! # Append-only tables

A table is the list of its rows; the position of a row is its surrogate key,
so keys are unique and fresh by construction. Rows are inserted and updated,
never removed. Guarded updates report whether they hit a row, and a query with
an `ORDER BY` has every order that sorts the selected rows as a legal answer.
-/

/-- A table whose rows are addressed by insertion position. -/
structure Table (α : Type*) where
  rows : List α

namespace Table

variable {α κ : Type*}

def empty : Table α := ⟨[]⟩

def size (t : Table α) : ℕ := t.rows.length

def get? (t : Table α) (i : ℕ) : Option α := t.rows[i]?

def append (t : Table α) (l : List α) : Table α := ⟨t.rows ++ l⟩

def insert (t : Table α) (a : α) : Table α := t.append [a]

/-- Rewrite the row with key `i`. -/
def update (t : Table α) (i : ℕ) (f : α → α) : Table α := ⟨t.rows.modify i f⟩

/-- Rewrite every row that satisfies `p`. -/
def updateWhere (t : Table α) (p : α → Bool) (f : α → α) : Table α :=
  ⟨t.rows.map fun a => if p a then f a else a⟩

def updateAll (t : Table α) (ids : List ℕ) (f : α → α) : Table α :=
  ⟨t.rows.mapIdx fun i a => if i ∈ ids then f a else a⟩

/-- `UPDATE … WHERE id = i AND p`: `none` when no row is hit. -/
def cas (t : Table α) (i : ℕ) (p : α → Bool) (f : α → α) : Option (Table α) :=
  if (t.get? i).any p then some (t.update i f) else none

def any (t : Table α) (p : α → Bool) : Bool := t.rows.any p

/-- The keys of the rows that satisfy `p`, in insertion order. -/
def select (t : Table α) (p : α → Bool) : List ℕ :=
  (List.range t.size).filter fun i => (t.get? i).any p

/-- The rows behind a list of keys, each with its key. -/
def fetch (t : Table α) (ids : List ℕ) : List (ℕ × α) :=
  ids.filterMap fun i => (t.get? i).map fun a => (i, a)

/-- The first row that satisfies `p`, with its key. -/
def find? (t : Table α) (p : α → Bool) : Option (ℕ × α) := (t.fetch (t.select p)).head?

/-- `ids` is a legal answer of `SELECT … WHERE p ORDER BY key`. -/
def Answers [LE κ] (t : Table α) (p : α → Bool) (key : α → κ) (ids : List ℕ) : Prop :=
  ids.Perm (t.select p) ∧ (t.fetch ids).Pairwise fun x y => key x.2 ≤ key y.2

instance [LE κ] [DecidableLE κ] (t : Table α) (p : α → Bool) (key : α → κ) (ids : List ℕ) :
    Decidable (t.Answers p key ids) :=
  inferInstanceAs (Decidable (_ ∧ _))

variable {t t' : Table α} {i j : ℕ} {a b : α} {p : α → Bool} {f : α → α} {l : List α}

@[simp] theorem get?_empty (i : ℕ) : (empty : Table α).get? i = none := rfl

theorem get?_lt (h : t.get? i = some a) : i < t.size := by
  obtain ⟨hi, _⟩ := List.getElem?_eq_some_iff.mp h
  exact hi

theorem get?_size : t.get? t.size = none := by simp [get?, size]

@[simp] theorem size_update : (t.update i f).size = t.size := by simp [update, size]

theorem get?_append (i : ℕ) :
    (t.append l).get? i = if i < t.size then t.get? i else l[i - t.size]? :=
  List.getElem?_append

theorem get?_append_of_lt (h : i < t.size) : (t.append l).get? i = t.get? i := by
  simp [get?_append, h]

theorem get?_append_of_some (h : t.get? i = some a) : (t.append l).get? i = some a := by
  rw [get?_append_of_lt (get?_lt h), h]

theorem get?_append_cases (h : (t.append l).get? i = some a) :
    t.get? i = some a ∨ (t.size ≤ i ∧ l[i - t.size]? = some a) := by
  rw [get?_append] at h
  split at h
  · exact Or.inl h
  · exact Or.inr ⟨by omega, h⟩

theorem get?_insert (i : ℕ) : (t.insert a).get? i = if i = t.size then some a else t.get? i := by
  rw [insert, get?_append]
  split
  · rw [if_neg (by omega)]
  · rename_i h
    split
    · subst i; simp
    · have : 1 ≤ i - t.size := by omega
      rw [List.getElem?_eq_none (by simpa using this)]
      exact (List.getElem?_eq_none (by simpa [size] using h)).symm

theorem get?_update (i j : ℕ) :
    (t.update i f).get? j = if i = j then (t.get? j).map f else t.get? j := by
  simp only [update, get?, List.getElem?_modify]
  split <;> simp

@[simp] theorem get?_update_self : (t.update i f).get? i = (t.get? i).map f := by
  simp [get?_update]

theorem get?_update_of_ne (h : i ≠ j) : (t.update i f).get? j = t.get? j := by
  simp [get?_update, h]

theorem get?_updateWhere (j : ℕ) :
    (t.updateWhere p f).get? j = (t.get? j).map fun a => if p a then f a else a := by
  simp [updateWhere, get?]

theorem get?_updateAll {ids : List ℕ} (j : ℕ) :
    (t.updateAll ids f).get? j = (t.get? j).map fun a => if j ∈ ids then f a else a := by
  simp [updateAll, get?, List.getElem?_mapIdx]

theorem cas_eq_some :
    t.cas i p f = some t' ↔ ∃ a, t.get? i = some a ∧ p a = true ∧ t' = t.update i f := by
  unfold cas
  constructor
  · intro h
    split at h
    · rename_i ha
      simp only [Option.any_eq_true] at ha
      obtain ⟨a, ha, hp⟩ := ha
      exact ⟨a, ha, hp, (Option.some.inj h).symm⟩
    · cases h
  · rintro ⟨a, ha, hp, rfl⟩
    simp [ha, hp]

theorem cas_eq_none : t.cas i p f = none ↔ ∀ a, t.get? i = some a → p a = false := by
  simp only [cas]
  cases t.get? i <;> simp

theorem any_iff : t.any p = true ↔ ∃ i a, t.get? i = some a ∧ p a = true := by
  simp only [any, List.any_eq_true, get?]
  constructor
  · rintro ⟨a, ha, hp⟩
    obtain ⟨i, hi⟩ := List.getElem?_of_mem ha
    exact ⟨i, a, hi, hp⟩
  · rintro ⟨i, a, hi, hp⟩
    exact ⟨a, List.mem_of_getElem? hi, hp⟩

theorem any_eq_false : t.any p = false ↔ ∀ i a, t.get? i = some a → p a = false := by
  rw [Bool.eq_false_iff, Ne, any_iff]
  simp

theorem mem_select : i ∈ t.select p ↔ ∃ a, t.get? i = some a ∧ p a = true := by
  simp only [select, List.mem_filter, List.mem_range, Option.any_eq_true]
  exact ⟨fun h => h.2, fun h => ⟨get?_lt h.choose_spec.1, h⟩⟩

theorem nodup_select : (t.select p).Nodup := List.nodup_range.filter _

theorem mem_fetch {ids : List ℕ} : (i, a) ∈ t.fetch ids ↔ i ∈ ids ∧ t.get? i = some a := by
  simp only [fetch, List.mem_filterMap, Option.map_eq_some_iff, Prod.mk.injEq]
  constructor
  · rintro ⟨j, hj, b, hb, rfl, rfl⟩
    exact ⟨hj, hb⟩
  · rintro ⟨hi, ha⟩
    exact ⟨i, hi, a, ha, rfl, rfl⟩

theorem find?_eq_some (h : t.find? p = some (i, a)) : t.get? i = some a ∧ p a = true := by
  obtain ⟨hi, ha⟩ := mem_fetch.mp (List.mem_of_mem_head? h)
  obtain ⟨b, hb, hp⟩ := mem_select.mp hi
  obtain rfl : a = b := Option.some.inj (ha.symm.trans hb)
  exact ⟨ha, hp⟩

theorem find?_eq_none (h : t.find? p = none) (ha : t.get? i = some a) : p a = false := by
  by_contra hp
  have hm : (i, a) ∈ t.fetch (t.select p) :=
    mem_fetch.mpr ⟨mem_select.mpr ⟨a, ha, by simpa using hp⟩, ha⟩
  rw [List.head?_eq_none_iff.mp h] at hm
  exact List.not_mem_nil hm

theorem Answers.mem_iff [LE κ] {key : α → κ} {ids : List ℕ} (h : t.Answers p key ids) :
    i ∈ ids ↔ ∃ a, t.get? i = some a ∧ p a = true :=
  h.1.mem_iff.trans mem_select

theorem Answers.nodup [LE κ] {key : α → κ} {ids : List ℕ} (h : t.Answers p key ids) :
    ids.Nodup :=
  h.1.nodup_iff.mpr nodup_select

/-! ## Rewriting a row -/

theorem update_update {g : α → α} : (t.update i f).update i g = t.update i (g ∘ f) := by
  unfold update
  rw [List.modify_modify_eq]

theorem updateWhere_of_none (h : t.any p = false) : t.updateWhere p f = t := by
  have hrows : t.rows.map (fun a => if p a then f a else a) = t.rows := by
    rw [any, List.any_eq_false] at h
    refine (List.map_congr_left fun a ha => ?_).trans (List.map_id _)
    exact if_neg (h a ha)
  unfold updateWhere
  rw [hrows]

theorem fetch_update (ids : List ℕ) :
    (t.update i f).fetch ids = (t.fetch ids).map fun x => if x.1 = i then (x.1, f x.2) else x := by
  unfold fetch
  rw [List.map_filterMap]
  congr 1
  funext j
  rw [get?_update]
  by_cases hj : i = j
  · subst hj
    cases t.get? i <;> simp
  · cases t.get? j <;> simp [hj, Ne.symm hj]

theorem select_update (h : ∀ a, t.get? i = some a → p (f a) = p a) :
    (t.update i f).select p = t.select p := by
  unfold select
  rw [size_update]
  refine List.filter_congr fun j _ => ?_
  rw [get?_update]
  split
  · rename_i hj
    subst hj
    cases hi : t.get? i with
    | none => rfl
    | some a => simpa using h a hi
  · rfl

theorem Answers.update [LE κ] {key : α → κ} {ids : List ℕ} (h : t.Answers p key ids)
    (hp : ∀ a, t.get? i = some a → p (f a) = p a)
    (hkey : ∀ a, t.get? i = some a → key (f a) = key a) : (t.update i f).Answers p key ids := by
  obtain ⟨hperm, hsorted⟩ := h
  constructor
  · rwa [select_update hp]
  · rw [fetch_update, List.pairwise_map]
    refine hsorted.imp_of_mem ?_
    have hsame : ∀ x ∈ t.fetch ids, key (if x.1 = i then (x.1, f x.2) else x).2 = key x.2 := by
      rintro ⟨j, a⟩ hx
      obtain ⟨-, ha⟩ := mem_fetch.mp hx
      dsimp only
      split
      · rename_i hj
        subst hj
        exact hkey a ha
      · rfl
    intro x y hx hy hle
    rw [hsame x hx, hsame y hy]
    exact hle

def total (t : Table α) (w : α → ℕ) : ℕ := (t.rows.map w).sum

theorem total_updateWhere {w : α → ℕ} (h : ∀ a, p a = true → w (f a) = w a) :
    (t.updateWhere p f).total w = t.total w := by
  unfold total updateWhere
  rw [List.map_map]
  congr 2
  funext a
  dsimp only [Function.comp_apply]
  split
  · exact h a ‹_›
  · rfl

theorem total_update_lt {w : α → ℕ} (ha : t.get? i = some a) (hlt : w (f a) < w a) :
    (t.update i f).total w < t.total w := by
  obtain ⟨rows⟩ := t
  unfold total update get? at *
  dsimp only at *
  induction rows generalizing i with
  | nil => simp at ha
  | cons b rest ih =>
    cases i with
    | zero =>
      simp at ha
      subst ha
      simp [hlt]
    | succ i =>
      have hrest := ih (by simpa using ha)
      simpa using hrest

end Table
