import Mathlib.Data.List.Basic
import Mathlib.Order.Defs.Unbundled
import TgPlatform.Lib.Table
import TgPlatform.Lib.View

/-! # Tables with deletion

Rows are addressed by serial numbers that are never used again: a removed row
leaves a hole. A frame says which rows an operation may add, rewrite or remove.
-/

/-- A table whose removed rows have left holes. -/
abbrev Slots (α : Type*) := Table (Option α)

namespace Slots

variable {α : Type*}

/-- The row with serial number `pk`. -/
def row? (t : Slots α) (pk : ℕ) : Option α := (t.get? pk).join

def add (t : Slots α) (a : α) : Slots α := t.insert (some a)

/-- Rewrite the row with serial number `pk`. -/
def modify (t : Slots α) (pk : ℕ) (f : α → α) : Slots α := t.update pk (Option.map f)

def remove (t : Slots α) (pk : ℕ) : Slots α := t.update pk fun _ => none

/-- Put a row where no row has been, beyond the end too. -/
def put (t : Slots α) (pk : ℕ) (a : α) : Slots α :=
  ⟨(List.range (max t.size (pk + 1))).map fun i => if i = pk then some a else t.row? i⟩

def withRow (t : Slots α) : Option (ℕ × α) → Slots α
  | none => t
  | some x => t.put x.1 x.2

def all (t : Slots α) : List (ℕ × α) :=
  (List.range t.size).filterMap fun pk => (t.row? pk).map fun a => (pk, a)

/-- The rows that satisfy `q`. -/
def where_ (t : Slots α) (q : α → Bool) : List (ℕ × α) := t.all.filter fun x => q x.2

/-- The first row that satisfies `q`. -/
def first? (t : Slots α) (q : α → Bool) : Option (ℕ × α) := t.all.find? fun x => q x.2

variable {t t' t'' : Slots α} {pk i : ℕ} {a : α} {f : α → α} {q : α → Bool} {P : α → Prop}

theorem row?_lt (h : t.row? pk = some a) : pk < t.size :=
  Table.get?_lt (Option.join_eq_some_iff.mp h)

theorem row?_size : t.row? t.size = none := by simp [row?, Table.get?_size]

@[simp] theorem size_add : (t.add a).size = t.size + 1 := by
  simp [add, Table.insert, Table.append, Table.size]

@[simp] theorem size_modify : (t.modify pk f).size = t.size := by simp [modify]

@[simp] theorem size_remove : (t.remove pk).size = t.size := by simp [remove]

theorem row?_add (i : ℕ) : (t.add a).row? i = if i = t.size then some a else t.row? i := by
  simp only [row?, add, Table.get?_insert]
  split <;> rfl

theorem row?_modify (i : ℕ) :
    (t.modify pk f).row? i = if pk = i then (t.row? i).map f else t.row? i := by
  simp only [row?, modify, Table.get?_update]
  split
  · cases t.get? i <;> simp
  · rfl

theorem row?_remove (i : ℕ) :
    (t.remove pk).row? i = if pk = i then none else t.row? i := by
  simp only [row?, remove, Table.get?_update]
  split
  · cases t.get? i <;> simp
  · rfl

theorem row?_put (i : ℕ) : (t.put pk a).row? i = if i = pk then some a else t.row? i := by
  simp only [row?, put, Table.get?, List.getElem?_map]
  by_cases hi : i < max t.size (pk + 1)
  · rw [List.getElem?_range hi]
    rfl
  · have hpk : i ≠ pk := by omega
    have hsize : t.rows.length ≤ i := by
      change t.size ≤ i
      omega
    rw [if_neg hpk, List.getElem?_eq_none (by simpa using hi), List.getElem?_eq_none hsize]
    rfl

theorem row?_of_remove (h : (t.remove pk).row? i = some a) : i ≠ pk ∧ t.row? i = some a := by
  rw [row?_remove] at h
  split at h
  · cases h
  · rename_i hne
    exact ⟨Ne.symm hne, h⟩

@[simp] theorem row?_modify_self : (t.modify pk f).row? pk = (t.row? pk).map f := by
  simp [row?_modify]

theorem row?_add_of_some (h : t.row? i = some a) {b : α} : (t.add b).row? i = some a := by
  rw [row?_add, if_neg (Nat.ne_of_lt (row?_lt h)), h]

theorem mem_all : (pk, a) ∈ t.all ↔ t.row? pk = some a := by
  simp only [all, List.mem_filterMap, List.mem_range, Option.map_eq_some_iff, Prod.mk.injEq]
  constructor
  · rintro ⟨i, -, b, hb, rfl, rfl⟩
    exact hb
  · intro h
    exact ⟨pk, row?_lt h, a, h, rfl, rfl⟩

theorem mem_where : (pk, a) ∈ t.where_ q ↔ t.row? pk = some a ∧ q a = true := by
  rw [where_, List.mem_filter, mem_all]

theorem all_add : (t.add a).all = t.all ++ [(t.size, a)] := by
  have hold : ∀ i ∈ List.range t.size, (t.add a).row? i = t.row? i := by
    intro i hi
    rw [row?_add, if_neg (Nat.ne_of_lt (List.mem_range.mp hi))]
  rw [all, size_add, List.range_succ, List.filterMap_append]
  congr 1
  · exact List.filterMap_congr fun i hi => by rw [hold i hi]
  · simp [row?_add]

theorem where_add : (t.add a).where_ q = t.where_ q ++ if q a then [(t.size, a)] else [] := by
  rw [where_, all_add, List.filter_append, where_]
  cases hq : q a <;> simp [hq]

theorem first?_eq_some (h : t.first? q = some (pk, a)) : t.row? pk = some a ∧ q a = true := by
  unfold first? at h
  have hq := List.find?_some h
  exact ⟨mem_all.mp (List.mem_of_find?_eq_some h), hq⟩

theorem first?_eq_none (h : t.first? q = none) (ha : t.row? pk = some a) : q a = false := by
  simpa using List.find?_eq_none.mp h _ (mem_all.mpr ha)

theorem first?_of_none (h : ∀ i b, t.row? i = some b → q b = false) : t.first? q = none := by
  cases hfirst : t.first? q with
  | none => rfl
  | some x =>
    obtain ⟨hrow, hq⟩ := first?_eq_some hfirst
    rw [h x.1 x.2 hrow] at hq
    cases hq

theorem first?_of_alone (ha : t.row? pk = some a) (hq : q a = true)
    (h : ∀ i b, t.row? i = some b → q b = true → i = pk) : t.first? q = some (pk, a) := by
  cases hfirst : t.first? q with
  | none =>
    rw [first?_eq_none hfirst ha] at hq
    cases hq
  | some x =>
    obtain ⟨i, b⟩ := x
    obtain ⟨hb, hqb⟩ := first?_eq_some hfirst
    obtain rfl := h i b hb hqb
    rw [ha] at hb
    cases hb
    rfl

/-! ## Tables that differ in other columns only -/

/-- The same rows as far as `f` reads them. -/
def SameBy {β : Type*} (f : α → β) (t t' : Slots α) : Prop :=
  ∀ i, (t'.row? i).map f = (t.row? i).map f

section SameBy

variable {β : Type*} {g : α → β}

theorem SameBy.refl : SameBy g t t := fun _ => rfl

theorem SameBy.trans (h : SameBy g t t') (h' : SameBy g t' t'') : SameBy g t t'' :=
  fun i => (h' i).trans (h i)

theorem SameBy.modify (h : ∀ a, g (f a) = g a) : SameBy g t (t.modify pk f) := by
  intro i
  rw [row?_modify]
  split
  · rw [Option.map_map]
    congr 1
    funext a
    exact h a
  · rfl

theorem SameBy.put (h : SameBy g t t') : SameBy g (t.put pk a) (t'.put pk a) := by
  intro i
  rw [row?_put, row?_put]
  split
  · rfl
  · exact h i

theorem row?_withRow {o : Option (ℕ × α)} (h : (t.withRow o).row? i = some a) :
    o = some (i, a) ∨ t.row? i = some a := by
  cases o with
  | none => exact .inr h
  | some x =>
    change (t.put x.1 x.2).row? i = some a at h
    rw [row?_put] at h
    split at h
    · rename_i hi
      cases h
      exact .inl (by rw [hi])
    · exact .inr h

theorem row?_withRow_of_some {o : Option (ℕ × α)} (ha : t.row? i = some a)
    (h : ∀ b, o ≠ some (i, b)) : (t.withRow o).row? i = some a := by
  cases o with
  | none => exact ha
  | some x =>
    change (t.put x.1 x.2).row? i = some a
    rw [row?_put, if_neg, ha]
    rintro rfl
    exact h x.2 rfl

theorem SameBy.row (h : SameBy g t t') {b : α} (hb : t'.row? i = some b) :
    ∃ a, t.row? i = some a ∧ g a = g b := by
  have hrow := h i
  rw [hb] at hrow
  exact Option.map_eq_some_iff.mp hrow.symm

theorem SameBy.row_back (h : SameBy g t t') (ha : t.row? i = some a) :
    ∃ b, t'.row? i = some b ∧ g b = g a := by
  have hrow := h i
  rw [ha] at hrow
  exact Option.map_eq_some_iff.mp hrow

end SameBy

/-! ## Frames -/

/-- Every row that differs between the two tables satisfies `P`, in both. -/
def Within (P : α → Prop) (t t' : Slots α) : Prop :=
  ∀ pk, t'.row? pk ≠ t.row? pk →
    (∀ a, t.row? pk = some a → P a) ∧ ∀ a, t'.row? pk = some a → P a

theorem Within.refl : Within P t t := fun _ h => (h rfl).elim

theorem Within.add (h : P a) : Within P t (t.add a) := by
  intro pk hne
  rw [row?_add] at hne ⊢
  split at hne
  · rename_i hpk
    subst hpk
    simp [row?_size, h]
  · exact (hne rfl).elim

theorem Within.modify (h : ∀ a, t.row? pk = some a → P a ∧ P (f a)) :
    Within P t (t.modify pk f) := by
  intro i hne
  rw [row?_modify] at hne ⊢
  split at hne
  · rename_i hpk
    subst hpk
    rw [if_pos rfl]
    constructor
    · intro a ha
      exact (h a ha).1
    · intro b hb
      obtain ⟨a, ha, rfl⟩ := Option.map_eq_some_iff.mp hb
      exact (h a ha).2
  · exact (hne rfl).elim

theorem Within.trans (h : Within P t t') (h' : Within P t' t'') : Within P t t'' := by
  intro pk hne
  by_cases hmid : t'.row? pk = t.row? pk
  · have hlast : t''.row? pk ≠ t'.row? pk := fun heq => hne (heq.trans hmid)
    rw [← hmid]
    exact h' pk hlast
  · by_cases hlast : t''.row? pk = t'.row? pk
    · rw [hlast]
      exact h pk hmid
    · exact ⟨(h pk hmid).1, (h' pk hlast).2⟩

theorem Within.of_changed (h : Within P t t') (ha : t.row? pk = some a)
    (hne : t'.row? pk ≠ some a) : P a :=
  (h pk (by rwa [ha])).1 a ha

/-! ## Histories of rows -/

/-- No row is lost: `L` relates what a row was to what it is, and `N` holds of a new one. -/
structure Evolves (L : α → α → Prop) (N : α → Prop) (t t' : Slots α) : Prop where
  old : ∀ i a, t.row? i = some a → ∃ b, t'.row? i = some b ∧ L a b
  new : ∀ i b, t.row? i = none → t'.row? i = some b → N b

section Evolves

variable {L : α → α → Prop} {N : α → Prop}

theorem Evolves.refl [Std.Refl L] : Evolves L N t t where
  old _ a ha := ⟨a, ha, Std.Refl.refl a⟩
  new i b hnone hb := by
    rw [hnone] at hb
    cases hb

theorem Evolves.trans [IsTrans α L] (hN : ∀ a b, L a b → N a → N b) (h : Evolves L N t t')
    (h' : Evolves L N t' t'') : Evolves L N t t'' where
  old i a ha := by
    obtain ⟨b, hb, hab⟩ := h.old i a ha
    obtain ⟨c, hc, hbc⟩ := h'.old i b hb
    exact ⟨c, hc, IsTrans.trans _ _ _ hab hbc⟩
  new i c hnone hc := by
    cases hmid : t'.row? i with
    | none => exact h'.new i c hmid hc
    | some b =>
      obtain ⟨c', hc', hbc⟩ := h'.old i b hmid
      obtain rfl := Option.some.inj (hc.symm.trans hc')
      exact hN b _ hbc (h.new i b hnone hmid)

theorem Evolves.add [Std.Refl L] (h : N a) : Evolves L N t (t.add a) where
  old i b hb := ⟨b, row?_add_of_some hb, Std.Refl.refl b⟩
  new i b hnone hb := by
    rw [row?_add] at hb
    split at hb
    · cases hb
      exact h
    · rw [hnone] at hb
      cases hb

theorem Evolves.modify [Std.Refl L] (h : ∀ a, t.row? pk = some a → L a (f a)) :
    Evolves L N t (t.modify pk f) where
  old i a ha := by
    rw [row?_modify]
    split
    · subst i
      exact ⟨f a, by rw [ha, Option.map_some], h a ha⟩
    · exact ⟨a, ha, Std.Refl.refl a⟩
  new i b hnone hb := by
    rw [row?_modify, hnone] at hb
    split at hb <;> cases hb

theorem Evolves.back (h : Evolves L N t t') {b : α} (hb : t'.row? i = some b) :
    (∃ a, t.row? i = some a ∧ L a b) ∨ t.row? i = none ∧ N b := by
  cases ha : t.row? i with
  | none => exact .inr ⟨rfl, h.new i b ha hb⟩
  | some a =>
    obtain ⟨b', hb', hab⟩ := h.old i a ha
    obtain rfl := Option.some.inj (hb.symm.trans hb')
    exact .inl ⟨a, rfl, hab⟩

end Evolves

/-! ## Masks -/

/-- The table with the rows that satisfy `p` only; the others leave holes. -/
def mask (p : α → Bool) (t : Slots α) : Slots α := ⟨t.rows.map fun o => o.filter p⟩

variable {p : α → Bool}

@[simp] theorem size_mask : (t.mask p).size = t.size := by simp [mask, Table.size]

theorem row?_mask (pk : ℕ) : (t.mask p).row? pk = (t.row? pk).filter p := by
  simp only [row?, mask, Table.get?, List.getElem?_map]
  cases t.rows[pk]? <;> rfl

theorem row?_mask_of (h : ∀ a, t.row? pk = some a → p a = true) :
    (t.mask p).row? pk = t.row? pk := by
  rw [row?_mask]
  cases hrow : t.row? pk with
  | none => rfl
  | some a => exact Option.filter_some_pos (h a hrow)

@[ext] theorem ext (hsize : t.size = t'.size) (h : ∀ i, t.get? i = t'.get? i) : t = t' := by
  cases t
  cases t'
  congr
  exact List.ext_getElem? h

theorem get?_mask (i : ℕ) : (t.mask p).get? i = (t.get? i).map fun o => o.filter p := by
  simp [mask, Table.get?]

@[simp] theorem mask_mask : (t.mask p).mask p = t.mask p := by
  simp [mask, Option.filter_filter]

theorem all_mask : (t.mask p).all = t.all.filter fun x => p x.2 := by
  simp only [all, size_mask, row?_mask, List.filter_filterMap]
  refine List.filterMap_congr fun pk _ => ?_
  cases t.row? pk with
  | none => rfl
  | some a => cases hp : p a <;> simp [Option.filter, hp]

/-- A query that selects visible rows only gives the same on the visible rows. -/
theorem where_mask (h : ∀ pk a, t.row? pk = some a → q a = true → p a = true) :
    (t.mask p).where_ q = t.where_ q := by
  rw [where_, where_, all_mask]
  exact List.filter_filter_of_imp fun x hx hq => h x.1 x.2 (mem_all.mp hx) hq

theorem where_mask_of (h : ∀ x ∈ t.where_ q, p x.2 = true) : (t.mask p).where_ q = t.where_ q :=
  where_mask fun _ _ hrow hq => h _ (mem_where.mpr ⟨hrow, hq⟩)

theorem where_mask_filter :
    ((t.mask p).where_ q).filter (fun x => p x.2) = (t.where_ q).filter fun x => p x.2 := by
  simp only [where_, all_mask, List.filter_filter]
  congr 1
  funext x
  cases p x.2 <;> simp

theorem row?_mask_filter (h : ∀ a ∈ (t.row? pk).filter q, p a = true) :
    ((t.mask p).row? pk).filter q = (t.row? pk).filter q := by
  rw [row?_mask]
  cases hrow : t.row? pk with
  | none => rfl
  | some a =>
    cases hq : q a with
    | true =>
      have hp : p a = true := h a (by simp [hrow, hq])
      simp [Option.filter, hp]
    | false => cases hp : p a <;> simp [Option.filter, hp, hq]

theorem row?_mask_filter_filter {r : α → Bool}
    (h : ∀ a ∈ (t.row? pk).filter q, r a = true → p a = true) :
    (((t.mask p).row? pk).filter q).filter r = ((t.row? pk).filter q).filter r := by
  rw [Option.filter_filter, Option.filter_filter]
  refine row?_mask_filter fun a ha => ?_
  rw [Option.mem_def, Option.filter_eq_some_iff, Bool.and_eq_true] at ha
  exact h a (Option.filter_eq_some_iff.mpr ⟨ha.1, ha.2.1⟩) ha.2.2

theorem first?_mask (h : ∀ pk a, t.row? pk = some a → q a = true → p a = true) :
    (t.mask p).first? q = t.first? q := by
  rw [first?, first?, all_mask]
  exact List.find?_filter_of_imp fun x hx hq => h x.1 x.2 (mem_all.mp hx) hq

theorem mask_add_of (h : p a = true) : (t.add a).mask p = (t.mask p).add a := by
  simp [mask, add, Table.insert, Table.append, Option.filter, h]

theorem mask_modify_of (h : ∀ a, t.row? pk = some a → p a = true ∧ p (f a) = true) :
    (t.modify pk f).mask p = (t.mask p).modify pk f := by
  ext i
  · simp [modify]
  · simp only [get?_mask, modify, Table.get?_update]
    split
    · subst i
      cases hget : t.get? pk with
      | none => rfl
      | some o =>
        cases o with
        | none => rfl
        | some a =>
          obtain ⟨hp, hpf⟩ := h a (by simp [row?, hget])
          simp [Option.filter, hp, hpf]
    · rfl

theorem mask_remove : (t.remove pk).mask p = (t.mask p).remove pk := by
  ext i
  · simp [remove]
  · simp only [get?_mask, remove, Table.get?_update]
    split
    · subst i
      cases t.get? pk <;> rfl
    · rfl

/-- The rows that do not satisfy `p`. -/
def hidden (p : α → Bool) (t : Slots α) (pk : ℕ) : Option α := (t.row? pk).filter fun a => !p a

theorem hidden_add_of (h : p a = true) : (t.add a).hidden p = t.hidden p := by
  funext i
  simp only [hidden, row?_add]
  split
  · subst i
    simp [row?_size, Option.filter, h]
  · rfl

theorem hidden_modify_of (h : ∀ a, t.row? pk = some a → p a = true ∧ p (f a) = true) :
    (t.modify pk f).hidden p = t.hidden p := by
  funext i
  simp only [hidden, row?_modify]
  split
  · subst i
    cases hrow : t.row? pk with
    | none => rfl
    | some a =>
      obtain ⟨hp, hpf⟩ := h a hrow
      simp [Option.filter, hp, hpf]
  · rfl

theorem hidden_remove_of (h : ∀ a, t.row? pk = some a → p a = true) :
    (t.remove pk).hidden p = t.hidden p := by
  funext i
  simp only [hidden, row?_remove]
  split
  · subst i
    cases hrow : t.row? pk with
    | none => rfl
    | some a => simp [Option.filter, h a hrow]
  · rfl

/-! ## Rewriting the rows of a query -/

theorem pairwise_where : (t.where_ q).Pairwise fun x y => x.1 < y.1 := by
  refine List.Pairwise.filter _ (List.Pairwise.filterMap _ ?_ List.pairwise_lt_range)
  intro i j hij x hx y hy
  obtain ⟨a, _, rfl⟩ := Option.map_eq_some_iff.mp hx
  obtain ⟨b, _, rfl⟩ := Option.map_eq_some_iff.mp hy
  exact hij

theorem nodup_where : ((t.where_ q).map Prod.fst).Nodup := by
  rw [List.nodup_iff_pairwise_ne, List.pairwise_map]
  exact pairwise_where.imp fun h => Nat.ne_of_lt h

theorem row?_foldl_modify {g : α → α → α} : ∀ {l : List (ℕ × α)} {t : Slots α},
    (l.map Prod.fst).Nodup → (∀ x ∈ l, t.row? x.1 = some x.2) → ∀ i,
      (l.foldl (fun t x => t.modify x.1 (g x.2)) t).row? i =
        if i ∈ l.map Prod.fst then (t.row? i).map fun a => g a a else t.row? i
  | [], _, _, _, _ => rfl
  | x :: l, t, hnodup, hrows, i => by
    obtain ⟨hx, hnodup⟩ := List.nodup_cons.mp hnodup
    have hrows' : ∀ y ∈ l, (t.modify x.1 (g x.2)).row? y.1 = some y.2 := by
      intro y hy
      rw [row?_modify, if_neg, hrows y (List.mem_cons_of_mem x hy)]
      rintro heq
      exact hx (heq ▸ List.mem_map_of_mem hy)
    rw [List.foldl_cons, row?_foldl_modify hnodup hrows' i, row?_modify]
    by_cases hi : x.1 = i
    · subst hi
      rw [if_neg hx, if_pos rfl, if_pos (by simp), hrows x List.mem_cons_self]
      rfl
    · have hcons : i ∈ (x :: l).map Prod.fst ↔ i ∈ l.map Prod.fst := by
        simp [Ne.symm hi]
      simp only [if_neg hi, hcons]

theorem size_foldl_modify {g : α → α → α} (l : List (ℕ × α)) (t : Slots α) :
    (l.foldl (fun t x => t.modify x.1 (g x.2)) t).size = t.size := by
  induction l generalizing t with
  | nil => rfl
  | cons x l ih => rw [List.foldl_cons, ih, size_modify]

theorem where_of_rewritten {g : α → α} (hsize : t'.size = t.size)
    (h : ∀ i, t'.row? i = (t.row? i).map g) (hq : ∀ a, q (g a) = q a) :
    t'.where_ q = (t.where_ q).map fun x => (x.1, g x.2) := by
  have hall : t'.all = t.all.map fun x => (x.1, g x.2) := by
    simp only [all, hsize, h, List.map_filterMap, Option.map_map]
    rfl
  rw [where_, hall, where_, List.filter_map]
  congr 1
  exact List.filter_congr fun x _ => by simp [hq]

theorem row?_rewriteWhere {g : α → α → α} (i : ℕ) :
    ((t.where_ q).foldl (fun t x => t.modify x.1 (g x.2)) t).row? i =
      (t.row? i).map fun a => if q a then g a a else a := by
  rw [row?_foldl_modify nodup_where fun x hx => (mem_where.mp hx).1]
  cases hrow : t.row? i with
  | none => simp
  | some a =>
    have hmem : i ∈ (t.where_ q).map Prod.fst ↔ q a = true := by
      simp [mem_where, hrow]
    by_cases hq : q a = true
    · rw [if_pos (hmem.mpr hq), Option.map_some, Option.map_some, if_pos hq]
    · rw [if_neg (hmem.not.mpr hq), Option.map_some, if_neg hq]

theorem where_filter {r : α → Bool} :
    ((t.where_ q).filter fun x => r x.2) = t.where_ fun a => q a && r a := by
  unfold where_
  rw [List.filter_filter]
  exact List.filter_congr fun x _ => Bool.and_comm _ _

theorem where_foldl_modify {r : α → Bool} {g : α → α → α} (hq : ∀ a, q (g a a) = q a) :
    (((t.where_ q).filter fun x => r x.2).foldl (fun t x => t.modify x.1 (g x.2)) t).where_ q =
      (t.where_ q).map fun x => if r x.2 then (x.1, g x.2 x.2) else x := by
  rw [where_filter, where_of_rewritten (size_foldl_modify _ _) row?_rewriteWhere ?_]
  · refine List.map_congr_left fun x hx => ?_
    simp only [(mem_where.mp hx).2, Bool.true_and]
    split <;> rfl
  · intro a
    split <;> simp_all

end Slots
