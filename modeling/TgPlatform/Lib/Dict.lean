import Mathlib.Data.List.Nodup
import Mathlib.Logic.Function.Basic

/-! # Insertion-ordered dictionaries

A finite map together with the insertion order of its keys. Setting a present
key keeps its position, a new key goes to the end, and iteration follows the
order.
-/

/-- A map and the order in which its keys were inserted. -/
structure Dict (κ ν : Type*) where
  order : List κ
  entry : κ → Option ν

namespace Dict

variable {κ ν : Type*}

def empty : Dict κ ν := ⟨[], fun _ => none⟩

def get? (d : Dict κ ν) (k : κ) : Option ν := d.entry k

/-- `d.get(k, v)`. -/
def getD (d : Dict κ ν) (k : κ) (v : ν) : ν := (d.get? k).getD v

@[simp] theorem get?_empty (k : κ) : (empty : Dict κ ν).get? k = none := rfl

def values (d : Dict κ ν) : List ν := d.order.filterMap d.entry

variable [DecidableEq κ] {d : Dict κ ν} {k k' : κ} {v : ν}

/-- `d[k] = v`. -/
def set (d : Dict κ ν) (k : κ) (v : ν) : Dict κ ν :=
  ⟨if k ∈ d.order then d.order else d.order ++ [k], Function.update d.entry k (some v)⟩

/-- `d.pop(k, None)`. -/
def pop (d : Dict κ ν) (k : κ) : Dict κ ν :=
  ⟨d.order.filter fun k' => k' ≠ k, Function.update d.entry k none⟩

@[simp] theorem get?_set_self : (d.set k v).get? k = some v := by simp [set, get?]

theorem get?_set_of_ne (h : k' ≠ k) : (d.set k v).get? k' = d.get? k' := by simp [set, get?, h]

theorem get?_pop_self : (d.pop k).get? k = none := by simp [pop, get?]

theorem get?_pop_of_ne (h : k' ≠ k) : (d.pop k).get? k' = d.get? k' := by simp [pop, get?, h]

/-! ## Values that know their keys -/

variable {key : ν → κ}

/-- The keys stand once each in the order, and each value is stored under its own key. -/
structure KeyedBy (key : ν → κ) (d : Dict κ ν) : Prop where
  nodup : d.order.Nodup
  mem_order : ∀ k, k ∈ d.order ↔ (d.get? k).isSome
  keyed : ∀ k v, d.get? k = some v → key v = k

omit [DecidableEq κ] in
theorem keyedBy_empty : (empty : Dict κ ν).KeyedBy key := by
  constructor <;> simp [empty, get?]

namespace KeyedBy

variable (h : d.KeyedBy key)

include h

theorem set : (d.set (key v) v).KeyedBy key where
  nodup := by
    unfold Dict.set
    split
    · exact h.nodup
    · rename_i hnew
      exact List.Nodup.append h.nodup (List.nodup_singleton _) (by simpa using hnew)
  mem_order k := by
    by_cases hk : k = key v
    · subst hk
      rw [get?_set_self]
      unfold Dict.set
      split
      · exact iff_of_true ‹_› rfl
      · simp
    · rw [get?_set_of_ne hk, ← h.mem_order k]
      unfold Dict.set
      split <;> simp [hk]
  keyed k w hw := by
    by_cases hk : k = key v
    · subst hk
      rw [get?_set_self] at hw
      rw [Option.some.inj hw]
    · rw [get?_set_of_ne hk] at hw
      exact h.keyed k w hw

theorem pop : (d.pop k).KeyedBy key where
  nodup := h.nodup.filter _
  mem_order k' := by
    by_cases hk : k' = k
    · subst hk
      rw [get?_pop_self]
      simp [Dict.pop]
    · rw [get?_pop_of_ne hk, ← h.mem_order k']
      simp [Dict.pop, hk]
  keyed k' w hw := by
    by_cases hk : k' = k
    · subst hk
      rw [get?_pop_self] at hw
      cases hw
    · rw [get?_pop_of_ne hk] at hw
      exact h.keyed k' w hw

omit [DecidableEq κ] in
theorem map_values : d.values.map key = d.order := by
  have hentry : ∀ k ∈ d.order, (d.entry k).map key = some k := by
    intro k hk
    obtain ⟨v, hv⟩ := Option.isSome_iff_exists.mp ((h.mem_order k).mp hk)
    have hv' : d.entry k = some v := hv
    rw [hv', Option.map_some, h.keyed k v hv]
  unfold values
  rw [List.map_filterMap, List.filterMap_congr hentry, List.filterMap_some]

omit [DecidableEq κ] in
theorem mem_values : v ∈ d.values ↔ d.get? (key v) = some v := by
  unfold values
  rw [List.mem_filterMap]
  constructor
  · rintro ⟨k, -, hk⟩
    rwa [h.keyed k v hk]
  · intro hv
    exact ⟨key v, (h.mem_order _).mpr (by simp [hv]), hv⟩

end KeyedBy

end Dict
