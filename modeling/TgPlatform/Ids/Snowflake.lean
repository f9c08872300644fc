import Mathlib.Data.List.Basic
import Mathlib.Data.List.Pairwise
import Mathlib.Order.Basic
import Mathlib.Tactic.Ring

/-! # Snowflake ids

An id is made of a moment, the node of the process and a sequence number within
the moment. Whatever the clock reads, a process that goes on waits until its
clock is past the last id, so that its ids increase; and the parts can be read
back from an id.
-/

namespace TgPlatform

/-! ## `SnowflakeConfig` -/

namespace SnowflakeConfig

def workerIdBits : ℕ := 5
def datacenterIdBits : ℕ := 5
def sequenceBits : ℕ := 12

def maxWorkerId : ℕ := (1 <<< workerIdBits) - 1
def maxDatacenterId : ℕ := (1 <<< datacenterIdBits) - 1
def sequenceMask : ℕ := (1 <<< sequenceBits) - 1

def workerIdShift : ℕ := sequenceBits
def datacenterIdShift : ℕ := sequenceBits + workerIdBits
def timestampLeftShift : ℕ := sequenceBits + workerIdBits + datacenterIdBits

def clockBackwardToleranceMs : ℕ := 10000

end SnowflakeConfig

open SnowflakeConfig

/-- The parts of an id; moments are milliseconds since `EPOCH`. -/
structure SnowflakeInfo where
  timestamp : ℕ
  datacenterId : ℕ
  workerId : ℕ
  sequence : ℕ
  deriving DecidableEq, Repr

namespace SnowflakeInfo

variable (i : SnowflakeInfo)

structure Fits : Prop where
  datacenter_le : i.datacenterId ≤ maxDatacenterId
  worker_le : i.workerId ≤ maxWorkerId
  sequence_le : i.sequence ≤ sequenceMask

def compose : ℕ :=
  i.timestamp <<< timestampLeftShift ||| i.datacenterId <<< datacenterIdShift |||
    i.workerId <<< workerIdShift ||| i.sequence

/-- `parse`. -/
def parse (id : ℕ) : SnowflakeInfo where
  timestamp := id >>> timestampLeftShift
  datacenterId := (id >>> datacenterIdShift) &&& maxDatacenterId
  workerId := (id >>> workerIdShift) &&& maxWorkerId
  sequence := id &&& sequenceMask

variable {i}

theorem Fits.compose_eq (h : i.Fits) : i.compose =
    ((i.timestamp * 32 + i.datacenterId) * 32 + i.workerId) * 4096 + i.sequence := by
  have hdatacenter : i.datacenterId ≤ 31 := h.datacenter_le
  have hworker : i.workerId ≤ 31 := h.worker_le
  have hsequence : i.sequence ≤ 4095 := h.sequence_le
  have hfirst : i.timestamp <<< 22 ||| i.datacenterId <<< 17 =
      (i.timestamp * 32 + i.datacenterId) <<< 17 := by
    rw [← Nat.shiftLeft_add_eq_or_of_lt]
    · simp only [Nat.shiftLeft_eq]
      ring
    · rw [Nat.shiftLeft_eq]
      omega
  have hsecond : (i.timestamp * 32 + i.datacenterId) <<< 17 ||| i.workerId <<< 12 =
      ((i.timestamp * 32 + i.datacenterId) * 32 + i.workerId) <<< 12 := by
    rw [← Nat.shiftLeft_add_eq_or_of_lt]
    · simp only [Nat.shiftLeft_eq]
      ring
    · rw [Nat.shiftLeft_eq]
      omega
  change i.timestamp <<< 22 ||| i.datacenterId <<< 17 ||| i.workerId <<< 12 ||| i.sequence = _
  rw [hfirst, hsecond, ← Nat.shiftLeft_add_eq_or_of_lt (by omega), Nat.shiftLeft_eq]

theorem Fits.parse_compose (h : i.Fits) : parse i.compose = i := by
  have hdatacenter : i.datacenterId ≤ 31 := h.datacenter_le
  have hworker : i.workerId ≤ 31 := h.worker_le
  have hsequence : i.sequence ≤ 4095 := h.sequence_le
  rw [h.compose_eq]
  have hmask : ∀ x, x &&& 31 = x % 32 := fun x => Nat.and_two_pow_sub_one_eq_mod x 5
  have hmask' : ∀ x, x &&& 4095 = x % 4096 := fun x => Nat.and_two_pow_sub_one_eq_mod x 12
  change (⟨_ >>> 22, (_ >>> 17) &&& 31, (_ >>> 12) &&& 31, _ &&& 4095⟩ : SnowflakeInfo) = i
  simp only [hmask, hmask', Nat.shiftRight_eq_div_pow]
  obtain ⟨timestamp, datacenterId, workerId, sequence⟩ := i
  simp only [SnowflakeInfo.mk.injEq] at *
  omega

theorem Fits.compose_lt {j : SnowflakeInfo} (hi : i.Fits) (hj : j.Fits)
    (hdatacenter : i.datacenterId = j.datacenterId) (hworker : i.workerId = j.workerId)
    (h : i.timestamp < j.timestamp ∨ i.timestamp = j.timestamp ∧ i.sequence < j.sequence) :
    i.compose < j.compose := by
  have hd : j.datacenterId ≤ 31 := hj.datacenter_le
  have hw : j.workerId ≤ 31 := hj.worker_le
  have hs : i.sequence ≤ 4095 := hi.sequence_le
  rw [hi.compose_eq, hj.compose_eq, hdatacenter, hworker]
  omega

end SnowflakeInfo

/-! ## The generator -/

/-- `Snowflake`, once it is initialized. There is no last moment before the first id. -/
structure Snowflake where
  datacenterId : ℕ
  workerId : ℕ
  sequence : ℕ := 0
  lastTimestamp : Option ℕ := none
  datacenter_le : datacenterId ≤ maxDatacenterId
  worker_le : workerId ≤ maxWorkerId
  sequence_le : sequence ≤ sequenceMask := by decide

/-- How a call of `generate` ends. -/
inductive Generated
  | id (n : ℕ)
  | clockBackward (backMs : ℕ)
  deriving DecidableEq, Repr

/-- `_till_next_ms`, on what the clock reads from now on. -/
def tillNextMs (lastTimestamp : ℕ) : List ℕ → Option (ℕ × List ℕ)
  | [] => none
  | ts :: readings => if ts ≤ lastTimestamp then tillNextMs lastTimestamp readings else some (ts, readings)

theorem tillNextMs_eq_some {last ts : ℕ} {readings rest : List ℕ}
    (h : tillNextMs last readings = some (ts, rest)) :
    last < ts ∧ ∃ waited, readings = waited ++ ts :: rest := by
  induction readings with
  | nil => cases h
  | cons t readings ih =>
    unfold tillNextMs at h
    split at h
    · obtain ⟨hlt, waited, rfl⟩ := ih h
      exact ⟨hlt, t :: waited, rfl⟩
    · cases h
      exact ⟨by omega, [], rfl⟩

theorem tillNextMs_eq_none {last : ℕ} {readings : List ℕ} (h : tillNextMs last readings = none) :
    ∀ t ∈ readings, t ≤ last := by
  induction readings with
  | nil => nofun
  | cons t readings ih =>
    unfold tillNextMs at h
    split at h
    · rename_i hle
      intro t' ht'
      rcases List.mem_cons.mp ht' with rfl | ht'
      · exact hle
      · exact ih h t' ht'
    · cases h

theorem and_sequenceMask_le (n : ℕ) : n &&& sequenceMask ≤ sequenceMask := Nat.and_le_right

theorem next_sequence {n : ℕ} (hle : n ≤ sequenceMask) (h : (n + 1) &&& sequenceMask ≠ 0) :
    n < (n + 1) &&& sequenceMask := by
  have hmask : (n + 1) &&& sequenceMask = (n + 1) % 4096 := Nat.and_two_pow_sub_one_eq_mod _ 12
  have hle' : n ≤ 4095 := hle
  rw [hmask] at h ⊢
  omega

namespace Snowflake

variable (s : Snowflake)

def info (timestamp sequence : ℕ) : SnowflakeInfo := ⟨timestamp, s.datacenterId, s.workerId, sequence⟩

def after (timestamp sequence : ℕ) (h : sequence ≤ sequenceMask) : Snowflake :=
  { s with sequence := sequence, lastTimestamp := some timestamp, sequence_le := h }

/-- The end of `generate`. -/
def issue (timestamp sequence : ℕ) (h : sequence ≤ sequenceMask) (readings : List ℕ) :
    Generated × Snowflake × List ℕ :=
  (.id (s.info timestamp sequence).compose, s.after timestamp sequence h, readings)

/-- `generate`, with the readings of the clock that it does not use; it does not return where they do
not suffice. -/
def generate : List ℕ → Option (Generated × Snowflake × List ℕ)
  | [] => none
  | timestamp :: readings =>
    match s.lastTimestamp with
    | none => some (s.issue timestamp 0 (Nat.zero_le _) readings)
    | some last =>
      if timestamp < last then
        if last - timestamp ≤ clockBackwardToleranceMs then
          (tillNextMs last readings).map fun x => s.issue x.1 0 (Nat.zero_le _) x.2
        else some (.clockBackward (last - timestamp), s, readings)
      else if timestamp = last then
        if (s.sequence + 1) &&& sequenceMask = 0 then
          (tillNextMs last readings).map fun x => s.issue x.1 0 (Nat.zero_le _) x.2
        else some (s.issue timestamp ((s.sequence + 1) &&& sequenceMask) (and_sequenceMask_le _) readings)
      else some (s.issue timestamp 0 (Nat.zero_le _) readings)

def issued : ℕ → Snowflake → List ℕ → List ℕ
  | 0, _, _ => []
  | n + 1, s, readings =>
    match s.generate readings with
    | none => []
    | some (.id id, s', rest) => id :: issued n s' rest
    | some (.clockBackward _, s', rest) => issued n s' rest

variable {s}

theorem fits (timestamp sequence : ℕ) (h : sequence ≤ sequenceMask) : (s.info timestamp sequence).Fits :=
  ⟨s.datacenter_le, s.worker_le, h⟩

def Later (s : Snowflake) (timestamp sequence : ℕ) : Prop :=
  ∀ last, s.lastTimestamp = some last → last < timestamp ∨ last = timestamp ∧ s.sequence < sequence

theorem generate_cases {readings rest : List ℕ} {g : Generated} {s' : Snowflake}
    (h : s.generate readings = some (g, s', rest)) :
    (∃ back t, g = .clockBackward back ∧ s' = s ∧ readings = t :: rest) ∨
      ∃ timestamp sequence hle waited, readings = waited ++ timestamp :: rest ∧
        s.Later timestamp sequence ∧ (g, s', rest) = s.issue timestamp sequence hle rest := by
  cases readings with
  | nil => cases h
  | cons t readings =>
    unfold generate at h
    cases hlast : s.lastTimestamp with
    | none =>
      simp only [hlast] at h
      cases h
      exact .inr ⟨t, 0, Nat.zero_le _, [], rfl, by simp [Later, hlast], rfl⟩
    | some last =>
      have hnext : ∀ x : ℕ × List ℕ, tillNextMs last readings = some x →
          some (s.issue x.1 0 (Nat.zero_le _) x.2) = some (g, s', rest) →
          ∃ timestamp sequence hle waited, t :: readings = waited ++ timestamp :: rest ∧
            s.Later timestamp sequence ∧ (g, s', rest) = s.issue timestamp sequence hle rest := by
        rintro ⟨ts, rest'⟩ hx he
        cases he
        obtain ⟨hlt, waited, rfl⟩ := tillNextMs_eq_some hx
        refine ⟨ts, 0, Nat.zero_le _, t :: waited, rfl, ?_, rfl⟩
        intro last' hlast'
        rw [hlast] at hlast'
        cases hlast'
        exact .inl hlt
      simp only [hlast] at h
      split at h
      · split at h
        · obtain ⟨x, hx, he⟩ := Option.map_eq_some_iff.mp h
          exact .inr (hnext x hx (congrArg some he))
        · cases h
          exact .inl ⟨_, t, rfl, rfl, rfl⟩
      · split at h
        · rename_i heq
          subst heq
          split at h
          · obtain ⟨x, hx, he⟩ := Option.map_eq_some_iff.mp h
            exact .inr (hnext x hx (congrArg some he))
          · rename_i hne
            cases h
            refine .inr ⟨t, _, and_sequenceMask_le _, [], rfl, ?_, rfl⟩
            intro last' hlast'
            rw [hlast] at hlast'
            cases hlast'
            exact .inr ⟨rfl, next_sequence s.sequence_le hne⟩
        · rename_i hlt hne
          cases h
          refine .inr ⟨t, 0, Nat.zero_le _, [], rfl, ?_, rfl⟩
          intro last' hlast'
          rw [hlast] at hlast'
          cases hlast'
          left
          omega

theorem Later.after {timestamp sequence t q : ℕ} {hle : sequence ≤ sequenceMask}
    (h : s.Later timestamp sequence) (h' : (s.after timestamp sequence hle).Later t q) :
    (timestamp < t ∨ timestamp = t ∧ sequence < q) ∧ s.Later t q := by
  have hnext : timestamp < t ∨ timestamp = t ∧ sequence < q := h' timestamp rfl
  refine ⟨hnext, fun last hlast => ?_⟩
  have hfirst := h last hlast
  omega

theorem mem_issued {n id : ℕ} {readings : List ℕ} (h : id ∈ issued n s readings) :
    ∃ timestamp ∈ readings, ∃ sequence, sequence ≤ sequenceMask ∧ s.Later timestamp sequence ∧
      id = (s.info timestamp sequence).compose := by
  induction n generalizing s readings with
  | zero => cases h
  | succ n ih =>
    unfold issued at h
    split at h
    · cases h
    · rename_i first s' rest hgen
      rcases generate_cases hgen with ⟨back, _, hback, -⟩ | ⟨t, q, hle, waited, rfl, hlater, hissue⟩
      · cases hback
      · cases hissue
        rcases List.mem_cons.mp h with rfl | h
        · exact ⟨t, List.mem_append_right _ List.mem_cons_self, q, hle, hlater, rfl⟩
        · obtain ⟨t', ht', q', hle', hlater', hid⟩ := ih h
          refine ⟨t', ?_, q', hle', (hlater.after hlater').2, hid⟩
          exact List.mem_append_right _ (List.mem_cons_of_mem _ ht')
    · rename_i back s' rest hgen
      rcases generate_cases hgen with ⟨back', t, -, rfl, rfl⟩ | ⟨t, q, hle, waited, -, -, hissue⟩
      · obtain ⟨t', ht', hrest⟩ := ih h
        exact ⟨t', List.mem_cons_of_mem _ ht', hrest⟩
      · cases hissue

theorem generate_eq_none {readings : List ℕ} (h : s.generate readings = none) (hne : readings ≠ []) :
    ∃ last, s.lastTimestamp = some last ∧ ∀ t ∈ readings, t ≤ last := by
  cases readings with
  | nil => exact absurd rfl hne
  | cons t readings =>
    unfold generate at h
    cases hlast : s.lastTimestamp with
    | none =>
      simp only [hlast] at h
      cases h
    | some last =>
      have hwaits : ∀ x, (tillNextMs last readings).map x = (none : Option (Generated × Snowflake × List ℕ)) →
          t ≤ last → ∀ t' ∈ t :: readings, t' ≤ last := by
        intro x hx hle t' ht'
        rcases List.mem_cons.mp ht' with rfl | ht'
        · exact hle
        · exact tillNextMs_eq_none (Option.map_eq_none_iff.mp hx) t' ht'
      simp only [hlast] at h
      refine ⟨last, rfl, ?_⟩
      split at h
      · rename_i hlt
        split at h
        · exact hwaits _ h hlt.le
        · cases h
      · split at h
        · rename_i heq
          split at h
          · exact hwaits _ h heq.le
          · cases h
        · cases h

theorem pairwise_issued (n : ℕ) (s : Snowflake) (readings : List ℕ) :
    (issued n s readings).Pairwise (· < ·) := by
  induction n generalizing s readings with
  | zero => exact .nil
  | succ n ih =>
    unfold issued
    split
    · exact .nil
    · rename_i first s' rest hgen
      refine List.pairwise_cons.mpr ⟨fun id hid => ?_, ih s' rest⟩
      rcases generate_cases hgen with ⟨back, _, hback, -⟩ | ⟨t, q, hle, waited, -, hlater, hissue⟩
      · cases hback
      · cases hissue
        obtain ⟨t', -, q', hle', hlater', rfl⟩ := mem_issued hid
        exact (fits t q hle).compose_lt (fits t' q' hle') rfl rfl (hlater.after hlater').1
    · exact ih _ _

/-- Whatever the clock reads, the ids of a process increase, its node and a moment that the clock has
read can be read back from each, and only a clock that does not get past the last moment keeps a
call from returning. -/
theorem ids_increase (n : ℕ) (s : Snowflake) (readings : List ℕ) :
    (issued n s readings).Pairwise (· < ·) ∧
      (∀ id ∈ issued n s readings, ∃ timestamp ∈ readings, ∃ sequence,
        SnowflakeInfo.parse id = s.info timestamp sequence ∧ s.Later timestamp sequence ∧
          id = (s.info timestamp sequence).compose) ∧
      (s.generate readings = none → readings ≠ [] →
        ∃ last, s.lastTimestamp = some last ∧ ∀ t ∈ readings, t ≤ last) := by
  refine ⟨pairwise_issued n s readings, fun id hid => ?_, generate_eq_none⟩
  obtain ⟨timestamp, hmem, sequence, hle, hlater, rfl⟩ := mem_issued hid
  exact ⟨timestamp, hmem, sequence, (fits timestamp sequence hle).parse_compose, hlater, rfl⟩

end Snowflake

end TgPlatform
