import Mathlib.Data.List.Dedup
import Mathlib.Data.List.Nodup
import Mathlib.Data.List.Perm.Subperm

/-! # Items in the order of their last use

A list of items with distinct keys, the one used longest ago first. Using an
item moves it to the end, a purge drops items from the front. An item outlives
every purge that comes before too many other keys have been used after it.
-/

namespace Recency

variable {κ ν : Type*} {α : Type*}

/-- The keys in the order of their last use. -/
def keys (l : List (κ × ν)) : List κ := l.map Prod.fst

@[simp] theorem keys_nil : keys ([] : List (κ × ν)) = [] := rfl

@[simp] theorem keys_cons (x : κ × ν) (l : List (κ × ν)) : keys (x :: l) = x.1 :: keys l := rfl

@[simp] theorem keys_append (l l' : List (κ × ν)) : keys (l ++ l') = keys l ++ keys l' := by
  simp [keys]

@[simp] theorem length_keys (l : List (κ × ν)) : (keys l).length = l.length := by simp [keys]

/-- Drop the oldest item as long as more than `keep` are left. -/
def purge (keep : ℕ) : List α → List α
  | [] => []
  | x :: l => if keep < (x :: l).length then purge keep l else x :: l

theorem purge_eq_drop (keep : ℕ) (l : List α) : purge keep l = l.drop (l.length - keep) := by
  induction l with
  | nil => simp [purge]
  | cons x l ih =>
    unfold purge
    split
    · rename_i h
      rw [ih, List.length_cons, Nat.succ_sub (Nat.le_of_lt_succ h), List.drop_succ_cons]
    · rename_i h
      rw [Nat.sub_eq_zero_of_le (Nat.le_of_not_lt h), List.drop_zero]

theorem length_purge (keep : ℕ) (l : List α) : (purge keep l).length = min keep l.length := by
  rw [purge_eq_drop, List.length_drop]
  omega

theorem purge_sublist (keep : ℕ) (l : List α) : (purge keep l).Sublist l := by
  rw [purge_eq_drop]
  exact List.drop_sublist _ l

theorem purge_append_cons {keep : ℕ} {old young : List α} {x : α} (h : young.length < keep) :
    ∃ old', purge keep (old ++ x :: young) = old' ++ x :: young := by
  refine ⟨old.drop ((old ++ x :: young).length - keep), ?_⟩
  rw [purge_eq_drop, List.drop_append_of_le_length]
  simp only [List.length_append, List.length_cons]
  omega

variable [DecidableEq κ]

def get? : List (κ × ν) → κ → Option ν
  | [], _ => none
  | x :: l, k => if x.1 = k then some x.2 else get? l k

def erase (l : List (κ × ν)) (k : κ) : List (κ × ν) := l.filter fun x => x.1 ≠ k

/-- Put an item at the end, in place of the one with its key. -/
def put (l : List (κ × ν)) (k : κ) (v : ν) : List (κ × ν) := erase l k ++ [(k, v)]

def mutate (l : List (κ × ν)) (k : κ) (f : ν → ν) : List (κ × ν) :=
  l.map fun x => if x.1 = k then (x.1, f x.2) else x

variable {l old young : List (κ × ν)} {k k' : κ} {v w : ν} {f : ν → ν}

theorem mem_keys_erase : k' ∈ keys (erase l k) ↔ k' ∈ keys l ∧ k' ≠ k := by
  simp only [keys, erase, List.mem_map, List.mem_filter, decide_eq_true_eq]
  constructor
  · rintro ⟨x, ⟨hx, hne⟩, rfl⟩
    exact ⟨⟨x, hx, rfl⟩, hne⟩
  · rintro ⟨⟨x, hx, rfl⟩, hne⟩
    exact ⟨x, ⟨hx, hne⟩, rfl⟩

theorem mem_keys_put : k' ∈ keys (put l k v) ↔ k' = k ∨ k' ∈ keys l := by
  simp only [put, keys_append, keys_cons, keys_nil, List.mem_append, List.mem_singleton,
    mem_keys_erase]
  tauto

theorem nodup_erase (h : (keys l).Nodup) : (keys (erase l k)).Nodup :=
  h.sublist (List.filter_sublist.map Prod.fst)

theorem nodup_put (h : (keys l).Nodup) : (keys (put l k v)).Nodup := by
  rw [put, keys_append]
  refine (nodup_erase h).append (List.nodup_singleton _) ?_
  intro x hx hk
  obtain rfl : x = k := List.mem_singleton.mp hk
  exact (mem_keys_erase.mp hx).2 rfl

theorem keys_mutate : keys (mutate l k f) = keys l := by
  unfold keys mutate
  rw [List.map_map]
  refine List.map_congr_left fun x _ => ?_
  dsimp only [Function.comp]
  split <;> rfl

theorem mutate_of_notMem (h : k ∉ keys l) : mutate l k f = l := by
  refine (List.map_congr_left fun x hx => ?_).trans (List.map_id l)
  rw [if_neg]
  · rfl
  · rintro rfl
    exact h (List.mem_map_of_mem hx)

/-! ## Reading -/

@[simp] theorem get?_nil : get? ([] : List (κ × ν)) k = none := rfl

theorem get?_eq_none : get? l k = none ↔ k ∉ keys l := by
  induction l with
  | nil => simp
  | cons x l ih =>
    unfold get?
    split
    · rename_i hx
      simp [hx]
    · rename_i hx
      simp [ih, Ne.symm hx]

theorem get?_append_of_notMem (h : k ∉ keys l) (l' : List (κ × ν)) :
    get? (l ++ l') k = get? l' k := by
  induction l with
  | nil => rfl
  | cons x l ih =>
    obtain ⟨hx, hl⟩ := not_or.mp (mt List.mem_cons.mpr h)
    rw [List.cons_append, get?, if_neg (Ne.symm hx), ih hl]

theorem get?_split (h : (keys (old ++ (k, v) :: young)).Nodup) :
    get? (old ++ (k, v) :: young) k = some v := by
  have hold : k ∉ keys old := by
    rw [keys_append, keys_cons] at h
    exact fun hk => (List.disjoint_of_nodup_append h) hk List.mem_cons_self
  rw [get?_append_of_notMem hold, get?, if_pos rfl]

theorem get?_erase_self : get? (erase l k) k = none := by
  rw [get?_eq_none, mem_keys_erase]
  exact fun h => h.2 rfl

theorem get?_erase_of_ne (h : k' ≠ k) : get? (erase l k) k' = get? l k' := by
  induction l with
  | nil => rfl
  | cons x l ih =>
    unfold erase at ih ⊢
    by_cases hx : x.1 = k
    · rw [List.filter_cons_of_neg (by simpa using hx), get?, if_neg (hx ▸ Ne.symm h), ih]
    · rw [List.filter_cons_of_pos (by simpa using hx), get?, get?, ih]

theorem get?_put_self : get? (put l k v) k = some v := by
  have hk : k ∉ keys (erase l k) := fun h => (mem_keys_erase.mp h).2 rfl
  rw [put, get?_append_of_notMem hk, get?, if_pos rfl]

theorem get?_append_of_none {l' : List (κ × ν)} (h : get? l' k = none) :
    get? (l ++ l') k = get? l k := by
  induction l with
  | nil => rw [List.nil_append, h, get?_nil]
  | cons x l ih => rw [List.cons_append, get?, get?, ih]

theorem get?_put_of_ne (h : k' ≠ k) : get? (put l k v) k' = get? l k' := by
  have hlast : get? [(k, v)] k' = none := by rw [get?, if_neg (Ne.symm h), get?_nil]
  rw [put, get?_append_of_none hlast, get?_erase_of_ne h]

theorem get?_mutate_self : get? (mutate l k f) k = (get? l k).map f := by
  induction l with
  | nil => rfl
  | cons x l ih =>
    unfold mutate at ih ⊢
    by_cases hx : x.1 = k
    · simp [get?, hx]
    · simpa [get?, hx] using ih

theorem get?_mutate_of_ne (h : k' ≠ k) : get? (mutate l k f) k' = get? l k' := by
  induction l with
  | nil => rfl
  | cons x l ih =>
    unfold mutate at ih ⊢
    by_cases hx : x.1 = k
    · simpa [get?, hx, Ne.symm h] using ih
    · simp [get?, hx, ih]

theorem get?_of_suffix (h : (keys (old ++ young)).Nodup) (hv : get? young k = some v) :
    get? (old ++ young) k = some v := by
  have hk : k ∈ keys young := by
    by_contra hn
    rw [get?_eq_none.mpr hn] at hv
    cases hv
  have hold : k ∉ keys old := by
    rw [keys_append] at h
    exact fun hk' => List.disjoint_of_nodup_append h hk' hk
  rw [get?_append_of_notMem hold, hv]

theorem get?_purge {keep : ℕ} (h : (keys l).Nodup) (hv : get? (purge keep l) k = some v) :
    get? l k = some v := by
  rw [purge_eq_drop] at hv
  rw [← List.take_append_drop (l.length - keep) l] at h ⊢
  exact get?_of_suffix h hv

/-! ## What stays -/

/-- The item is there, and the keys of the items behind it have been used since. -/
def Held (l : List (κ × ν)) (k : κ) (v : ν) (since : List κ) : Prop :=
  ∃ old young, l = old ++ (k, v) :: young ∧ keys young ⊆ since

variable {since : List κ}

theorem Held.get? (h : Held l k v since) (hl : (keys l).Nodup) : get? l k = some v := by
  obtain ⟨old, young, rfl, -⟩ := h
  exact get?_split hl

omit [DecidableEq κ] in
theorem Held.mono {since' : List κ} (h : Held l k v since) (hsub : since ⊆ since') :
    Held l k v since' := by
  obtain ⟨old, young, hl, hsince⟩ := h
  exact ⟨old, young, hl, fun x hx => hsub (hsince hx)⟩

theorem held_put : Held (put l k v) k v [] := ⟨erase l k, [], rfl, List.nil_subset _⟩

theorem Held.put_of_ne (h : Held l k v since) (hne : k ≠ k') :
    Held (put l k' w) k v (k' :: since) := by
  obtain ⟨old, young, rfl, hsince⟩ := h
  refine ⟨erase old k', put young k' w, ?_, ?_⟩
  · simp [put, erase, hne]
  · intro x hx
    rcases mem_keys_put.mp hx with rfl | hx
    · exact List.mem_cons_self
    · exact List.mem_cons_of_mem _ (hsince hx)

theorem Held.erase_of_ne (h : Held l k v since) (hne : k ≠ k') : Held (erase l k') k v since := by
  obtain ⟨old, young, rfl, hsince⟩ := h
  refine ⟨erase old k', erase young k', ?_, ?_⟩
  · simp [erase, hne]
  · exact fun x hx => hsince (mem_keys_erase.mp hx).1

theorem Held.mutate_self (h : Held l k v since) (hl : (keys l).Nodup) :
    Held (mutate l k f) k (f v) since := by
  obtain ⟨old, young, rfl, hsince⟩ := h
  rw [keys_append, keys_cons] at hl
  have hold : k ∉ keys old := fun hk =>
    List.disjoint_of_nodup_append hl hk List.mem_cons_self
  have hyoung : k ∉ keys young := (List.nodup_cons.mp hl.of_append_right).1
  refine ⟨old, young, ?_, hsince⟩
  calc mutate (old ++ (k, v) :: young) k f
      = mutate old k f ++ (k, f v) :: mutate young k f := by simp [mutate]
    _ = old ++ (k, f v) :: young := by rw [mutate_of_notMem hold, mutate_of_notMem hyoung]

theorem Held.mutate_of_ne (h : Held l k v since) (hne : k ≠ k') :
    Held (mutate l k' f) k v since := by
  obtain ⟨old, young, rfl, hsince⟩ := h
  refine ⟨mutate old k' f, mutate young k' f, ?_, ?_⟩
  · simp [mutate, hne]
  · rwa [keys_mutate]

theorem Held.purge {keep : ℕ} (h : Held l k v since) (hl : (keys l).Nodup)
    (hfew : since.dedup.length < keep) : Held (purge keep l) k v since := by
  obtain ⟨old, young, rfl, hsince⟩ := h
  have hyoung : young.length < keep := by
    have hnodup : (keys young).Nodup := by
      rw [keys_append, keys_cons] at hl
      exact (List.nodup_cons.mp hl.of_append_right).2
    have hsub : keys young ⊆ since.dedup := fun x hx => List.mem_dedup.mpr (hsince hx)
    have hle := (List.subperm_of_subset hnodup hsub).length_le
    rw [length_keys] at hle
    omega
  obtain ⟨old', hpurge⟩ : ∃ old', purge keep (old ++ (k, v) :: young) = old' ++ (k, v) :: young :=
    purge_append_cons hyoung
  exact ⟨old', young, hpurge, hsince⟩

end Recency
