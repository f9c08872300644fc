import Mathlib.Data.List.Induction
import TgPlatform.Lib.Trace

/-! # Numbered parts

The parts 1 to n of a message arrive in any order and any number of times. A
receiver files each part once, but it takes in none but the next one: a part that
comes early is filed and never looked at again. So the message is complete only
if each part arrives after the one before it.
-/

/-- Each part has been preceded by the part before it. -/
def Successive (arrivals : List ℕ) : Prop :=
  ∀ before k after, arrivals = before ++ k :: after → 1 < k → k - 1 ∈ before

def SuccessiveBelow (m : ℕ) (arrivals : List ℕ) : Prop :=
  ∀ before k after, arrivals = before ++ k :: after → 1 < k → k < m → k - 1 ∈ before

theorem successiveBelow_concat {m k : ℕ} {l : List ℕ} :
    SuccessiveBelow m (l ++ [k]) ↔ SuccessiveBelow m l ∧ (1 < k → k < m → k - 1 ∈ l) := by
  constructor
  · intro h
    constructor
    · rintro before j after rfl
      exact h before j (after ++ [k]) (by simp)
    · exact h l k [] rfl
  · rintro ⟨hl, hk⟩ before j after heq
    rcases Trace.split_cases heq with ⟨rfl, rfl, -⟩ | ⟨mid, hsplit, -⟩ | hmem
    · exact hk
    · exact hl before j mid hsplit
    · cases hmem

theorem successive_iff_below {m : ℕ} {l : List ℕ} (hl : ∀ k ∈ l, k < m) :
    Successive l ↔ SuccessiveBelow m l := by
  constructor
  · exact fun h before k after heq hone _ => h before k after heq hone
  · intro h before k after heq hone
    exact h before k after heq hone (hl k (by simp [heq]))

inductive Reception | open_ | complete | broken
  deriving DecidableEq, Repr

/-- What is filed aside, what is taken in, and the part that comes next. -/
structure Receiver where
  aside : List ℕ
  taken : List ℕ
  next : ℕ
  reception : Reception

namespace Receiver

variable (n : ℕ)

/-- Part `k` of `n` arrives. -/
def receive (r : Receiver) (k : ℕ) : Receiver :=
  if k ∈ r.aside ∨ k ∈ r.taken then r
  else match r.reception with
    | .open_ =>
      if k = r.next then
        { r with
          taken := r.taken ++ [k], next := k + 1
          reception := if k = n then .complete else .open_ }
      else
        { r with
          taken := r.taken ++ [k]
          reception := if k = n then .broken else .open_ }
    | _ => { r with aside := r.aside ++ [k] }

/-- A receiver that is opened when some parts have arrived already. -/
def opened (early : List ℕ) : Receiver := ⟨early, [], 1, .open_⟩

def receiveAll (early late : List ℕ) : Receiver := late.foldl (receive n) (opened early)

variable {n} {r : Receiver} {early arrived : List ℕ} {k : ℕ}

theorem receiveAll_concat : receiveAll n early (arrived ++ [k]) =
    (receiveAll n early arrived).receive n k := by
  unfold receiveAll
  rw [List.foldl_append]
  rfl

theorem receive_of_has (h : k ∈ r.aside ∨ k ∈ r.taken) : r.receive n k = r := if_pos h

theorem receive_of_next (h : ¬ (k ∈ r.aside ∨ k ∈ r.taken)) (hopen : r.reception = .open_)
    (hk : k = r.next) : r.receive n k = { r with
      taken := r.taken ++ [k], next := k + 1
      reception := if k = n then .complete else .open_ } := by
  unfold receive
  simp only [if_neg h, hopen, if_pos hk]

theorem receive_of_early (h : ¬ (k ∈ r.aside ∨ k ∈ r.taken)) (hopen : r.reception = .open_)
    (hk : k ≠ r.next) : r.receive n k = { r with
      taken := r.taken ++ [k]
      reception := if k = n then .broken else .open_ } := by
  unfold receive
  simp only [if_neg h, hopen, if_neg hk]

theorem receive_of_ended (h : ¬ (k ∈ r.aside ∨ k ∈ r.taken)) (hended : r.reception ≠ .open_) :
    r.receive n k = { r with aside := r.aside ++ [k] } := by
  unfold receive
  rw [if_neg h]
  split
  · contradiction
  · rfl

/-- What may come of an arrival. -/
inductive Received (n : ℕ) (r : Receiver) (k : ℕ) : Receiver → Prop
  | again : k ∈ r.aside ∨ k ∈ r.taken → Received n r k r
  | next : ¬ (k ∈ r.aside ∨ k ∈ r.taken) → r.reception = .open_ → k = r.next →
      Received n r k { r with
        taken := r.taken ++ [k], next := k + 1
        reception := if k = n then .complete else .open_ }
  | early : ¬ (k ∈ r.aside ∨ k ∈ r.taken) → r.reception = .open_ → k ≠ r.next →
      Received n r k { r with
        taken := r.taken ++ [k]
        reception := if k = n then .broken else .open_ }
  | ended : ¬ (k ∈ r.aside ∨ k ∈ r.taken) → r.reception ≠ .open_ →
      Received n r k { r with aside := r.aside ++ [k] }

theorem received (n : ℕ) (r : Receiver) (k : ℕ) : Received n r k (r.receive n k) := by
  by_cases h : k ∈ r.aside ∨ k ∈ r.taken
  · rw [receive_of_has h]
    exact .again h
  · by_cases hopen : r.reception = .open_
    · by_cases hk : k = r.next
      · rw [receive_of_next h hopen hk]
        exact .next h hopen hk
      · rw [receive_of_early h hopen hk]
        exact .early h hopen hk
    · rw [receive_of_ended h hopen]
      exact .ended h hopen

/-! ## What is taken in -/

/-- What is taken in are the parts before the next one, in their order, unless one of them has come
early. -/
structure Sound (n : ℕ) (r : Receiver) : Prop where
  pos : 1 ≤ r.next
  taken : r.taken = List.range' 1 (r.next - 1) ∨ ∃ j ∈ r.taken, r.next ≤ j
  bounded : ∀ j ∈ r.taken, 1 ≤ j ∧ j ≤ n
  complete : r.reception = .complete → r.next = n + 1

theorem Sound.opened (n : ℕ) (early : List ℕ) : (opened early).Sound n :=
  ⟨Nat.le_refl 1, .inl rfl, nofun, nofun⟩

theorem Sound.receive (h : r.Sound n) (hpos : 1 ≤ k) (hle : k ≤ n) : (r.receive n k).Sound n := by
  have hbounded : ∀ j ∈ r.taken ++ [k], 1 ≤ j ∧ j ≤ n := by
    intro j hj
    rcases List.mem_append.mp hj with hj | hj
    · exact h.bounded j hj
    · rw [List.mem_singleton.mp hj]
      exact ⟨hpos, hle⟩
  have hsound := received n r k
  generalize r.receive n k = r' at hsound ⊢
  cases hsound with
  | again _ => exact h
  | ended _ _ => exact ⟨h.pos, h.taken, h.bounded, h.complete⟩
  | early hnew _ hne =>
    refine ⟨h.pos, ?_, hbounded, ?_⟩
    · right
      rcases h.taken with hrange | ⟨j, hj, hnext⟩
      · refine ⟨k, by simp, ?_⟩
        have hout : k ∉ List.range' 1 (r.next - 1) := fun hk => hnew (.inr (hrange ▸ hk))
        rw [List.mem_range'_1] at hout
        change r.next ≤ k
        omega
      · exact ⟨j, List.mem_append_left _ hj, hnext⟩
    · intro hcomplete
      dsimp only at hcomplete
      split at hcomplete <;> cases hcomplete
  | next hnew _ heq =>
    refine ⟨Nat.le_add_left 1 k, ?_, hbounded, ?_⟩
    · rcases h.taken with hrange | ⟨j, hj, hnext⟩
      · left
        obtain ⟨m, hm⟩ := Nat.exists_eq_add_of_le' hpos
        have hlast : r.next - 1 = m := by omega
        have hend : k + 1 - 1 = m + 1 := by omega
        dsimp only
        rw [hrange, hlast, hend, List.range'_1_concat, hm, Nat.add_comm]
      · right
        refine ⟨j, List.mem_append_left _ hj, ?_⟩
        have hne : j ≠ k := fun hjk => hnew (.inr (hjk ▸ hj))
        change k + 1 ≤ j
        omega
    · intro hcomplete
      dsimp only at hcomplete ⊢
      split at hcomplete
      · omega
      · cases hcomplete

theorem Sound.taken_of_complete (h : r.Sound n) (hcomplete : r.reception = .complete) :
    r.taken = List.range' 1 n := by
  have hnext := h.complete hcomplete
  rcases h.taken with hrange | ⟨j, hj, hle⟩
  · rw [hrange, hnext, Nat.add_sub_cancel]
  · have hj := (h.bounded j hj).2
    omega

theorem sound_receiveAll {late : List ℕ} (hlate : ∀ k ∈ late, 1 ≤ k ∧ k ≤ n) :
    (receiveAll n early late).Sound n := by
  induction late using List.reverseRecOn with
  | nil => exact .opened n early
  | append_singleton late k ih =>
    rw [receiveAll_concat]
    obtain ⟨hpos, hle⟩ := hlate k (by simp)
    exact (ih fun j hj => hlate j (by simp [hj])).receive hpos hle

/-! ## What has arrived -/

/-- What has been taken in has arrived in turn, and after the receiver was opened. -/
structure Follows (early arrived : List ℕ) (r : Receiver) : Prop where
  parked : ∀ k ∈ early, k ∈ r.aside
  filed : ∀ k ∈ arrived, k ∈ r.aside ∨ k ∈ r.taken
  taken : ∀ k ∈ r.taken, k ∈ arrived ∧ k ∉ early
  before : ∀ k, 1 ≤ k → k < r.next → k ∈ r.taken
  successive : SuccessiveBelow r.next arrived

theorem Follows.receive (h : r.Follows early arrived) :
    (r.receive n k).Follows early (arrived ++ [k]) := by
  have hturn : SuccessiveBelow r.next (arrived ++ [k]) := by
    refine successiveBelow_concat.mpr ⟨h.successive, fun hone hk => ?_⟩
    exact (h.taken _ (h.before (k - 1) (by omega) (by omega))).1
  have hlate {aside taken : List ℕ} (haside : r.aside ⊆ aside) (htaken : r.taken ⊆ taken)
      (hk : k ∈ aside ∨ k ∈ taken) : ∀ j ∈ arrived ++ [k], j ∈ aside ∨ j ∈ taken := by
    intro j hj
    rcases List.mem_append.mp hj with hj | hj
    · exact (h.filed j hj).imp (@haside j) (@htaken j)
    · rw [List.mem_singleton.mp hj]
      exact hk
  have htaken (hnew : ¬ (k ∈ r.aside ∨ k ∈ r.taken)) :
      ∀ j ∈ r.taken ++ [k], j ∈ arrived ++ [k] ∧ j ∉ early := by
    intro j hj
    rcases List.mem_append.mp hj with hj | hj
    · exact ⟨List.mem_append_left _ (h.taken j hj).1, (h.taken j hj).2⟩
    · rw [List.mem_singleton.mp hj]
      exact ⟨by simp, fun hk => hnew (.inl (h.parked k hk))⟩
  have hreceived := received n r k
  generalize r.receive n k = r' at hreceived ⊢
  cases hreceived with
  | again hhas =>
    refine ⟨h.parked, hlate (List.Subset.refl _) (List.Subset.refl _) hhas, ?_, h.before, hturn⟩
    exact fun j hj => ⟨List.mem_append_left _ (h.taken j hj).1, (h.taken j hj).2⟩
  | ended hnew _ =>
    refine ⟨fun j hj => List.mem_append_left _ (h.parked j hj),
      hlate (List.subset_append_left _ _) (List.Subset.refl _) (by simp), ?_, h.before, hturn⟩
    exact fun j hj => ⟨List.mem_append_left _ (h.taken j hj).1, (h.taken j hj).2⟩
  | early hnew _ _ =>
    refine ⟨h.parked, hlate (List.Subset.refl _) (List.subset_append_left _ _) (by simp),
      htaken hnew, ?_, hturn⟩
    exact fun j hpos hj => List.mem_append_left _ (h.before j hpos hj)
  | next hnew _ heq =>
    refine ⟨h.parked, hlate (List.Subset.refl _) (List.subset_append_left _ _) (by simp),
      htaken hnew, ?_, ?_⟩
    · intro j hpos hj
      by_cases hlast : j = k
      · simp [hlast]
      · change j < k + 1 at hj
        exact List.mem_append_left _ (h.before j hpos (by omega))
    · have hk : k ∉ arrived := fun hk => hnew (h.filed k hk)
      refine successiveBelow_concat.mpr ⟨fun before j after harrived hone hj => ?_, fun hone _ => ?_⟩
      · have hne : j ≠ k := fun hjk => hk (by simp [harrived, hjk])
        change j < k + 1 at hj
        exact h.successive before j after harrived hone (by omega)
      · exact (h.taken _ (h.before (k - 1) (by omega) (by omega))).1

theorem follows_receiveAll (early late : List ℕ) : (receiveAll n early late).Follows early late := by
  induction late using List.reverseRecOn with
  | nil =>
    refine ⟨fun k => id, nofun, nofun, ?_, ?_⟩
    · intro k hpos hk
      change k < 1 at hk
      omega
    · rintro before k after heq
      simp at heq
  | append_singleton late k ih =>
    rw [receiveAll_concat]
    exact ih.receive

/-- While the parts arrive in turn, all that have arrived have been taken in. -/
structure Steady (n : ℕ) (arrived : List ℕ) (r : Receiver) : Prop where
  pos : 1 ≤ r.next
  le : r.next ≤ n + 1
  aside : r.aside = []
  taken : ∀ k, k ∈ r.taken ↔ 1 ≤ k ∧ k < r.next
  arrived : ∀ k ∈ arrived, k < r.next
  reception : r.reception = if r.next = n + 1 then .complete else .open_

theorem Steady.receive (h : r.Steady n arrived) (hpos : 1 ≤ k) (hle : k ≤ n)
    (hturn : 1 < k → k - 1 ∈ arrived) : (r.receive n k).Steady n (arrived ++ [k]) := by
  have hnext : k ≤ r.next := by
    by_cases hone : 1 < k
    · have hlast := h.arrived _ (hturn hone)
      omega
    · have hfirst := h.pos
      omega
  have hhas (hk : k < r.next) : k ∈ r.aside ∨ k ∈ r.taken := .inr ((h.taken k).mpr ⟨hpos, hk⟩)
  have hreceived := received n r k
  generalize r.receive n k = r' at hreceived ⊢
  cases hreceived with
  | again hk =>
    rw [h.aside] at hk
    have hlt := ((h.taken k).mp (hk.resolve_left (by simp))).2
    refine ⟨h.pos, h.le, h.aside, h.taken, ?_, h.reception⟩
    intro j hj
    rcases List.mem_append.mp hj with hj | hj
    · exact h.arrived j hj
    · rw [List.mem_singleton.mp hj]
      exact hlt
  | ended hnew hended =>
    have hfull : r.next = n + 1 := by
      by_contra hne
      exact hended (h.reception.trans (if_neg hne))
    exact absurd (hhas (by omega)) hnew
  | early hnew _ hne => exact absurd (hhas (by omega)) hnew
  | next hnew _ heq =>
    refine ⟨Nat.le_add_left 1 k, Nat.succ_le_succ hle, h.aside, ?_, ?_, ?_⟩
    · intro j
      simp only [List.mem_append, List.mem_singleton, h.taken]
      omega
    · intro j hj
      change j < k + 1
      rcases List.mem_append.mp hj with hj | hj
      · have hlt := h.arrived j hj
        omega
      · rw [List.mem_singleton.mp hj]
        exact Nat.lt_succ_self k
    · by_cases hlast : k = n
      · simp [hlast]
      · simp [hlast]

theorem steady_receiveAll {late : List ℕ} (hlate : ∀ k ∈ late, 1 ≤ k ∧ k ≤ n) (hturn : Successive late)
    (hn : 0 < n) : (receiveAll n [] late).Steady n late := by
  induction late using List.reverseRecOn with
  | nil =>
    refine ⟨Nat.le_refl 1, Nat.succ_le_succ (Nat.zero_le n), rfl, ?_, nofun, ?_⟩
    · intro k
      change k ∈ [] ↔ 1 ≤ k ∧ k < 1
      simp only [List.not_mem_nil, false_iff]
      omega
    · exact (if_neg (by change ¬ 1 = n + 1; omega)).symm
  | append_singleton late k ih =>
    rw [receiveAll_concat]
    obtain ⟨hpos, hle⟩ := hlate k (by simp)
    have hlate : ∀ j ∈ late, 1 ≤ j ∧ j ≤ n := fun j hj => hlate j (by simp [hj])
    have hturn' : Successive late := fun before j after heq =>
      hturn before j (after ++ [k]) (by simp [heq])
    exact (ih hlate hturn').receive hpos hle (hturn late k [] rfl)

/-! ## When a message is complete -/

/-- Once all parts have arrived, the message is complete exactly if none came before the receiver was
opened and each came after the part before it. -/
theorem complete_iff {late : List ℕ} (hn : 0 < n) (hearly : ∀ k ∈ early, 1 ≤ k ∧ k ≤ n)
    (hlate : ∀ k ∈ late, 1 ≤ k ∧ k ≤ n) (hall : ∀ k, 1 ≤ k → k ≤ n → k ∈ early ∨ k ∈ late) :
    (receiveAll n early late).reception = .complete ↔ early = [] ∧ Successive late := by
  constructor
  · intro hcomplete
    have hfollows := follows_receiveAll (n := n) early late
    have hnext := (sound_receiveAll hlate).complete hcomplete
    constructor
    · apply List.eq_nil_iff_forall_not_mem.mpr
      intro k hk
      obtain ⟨hpos, hle⟩ := hearly k hk
      exact (hfollows.taken k (hfollows.before k hpos (by omega))).2 hk
    · refine (successive_iff_below (m := n + 1) fun k hk => ?_).mpr (hnext ▸ hfollows.successive)
      exact Nat.lt_succ_of_le (hlate k hk).2
  · rintro ⟨rfl, hturn⟩
    have hsteady := steady_receiveAll hlate hturn hn
    have hlast := hsteady.arrived n ((hall n hn (Nat.le_refl n)).resolve_left nofun)
    have hle := hsteady.le
    rw [hsteady.reception, if_pos (by omega)]

end Receiver
