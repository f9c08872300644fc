import TgPlatform.Lib.Machine
import TgPlatform.Storage.Rows

/-! # The account lease

`acquire` reads the lease row and later writes it under a condition on what it
read; `renew` is one conditional update. The machine below interleaves the
calls of all workers on one row, each with its own clock readings.
-/

namespace TgPlatform

/-- What a call of `acquire` holds between its read and its write. -/
structure AcquireRead where
  now : Time
  seen : Option AccountLease
  deriving DecidableEq, Repr

/-- The write of `acquire`: the row it leaves and the generation it returns. -/
def acquireWrite (row : Option AccountLease) (workerId : WorkerId) (ttl : ℤ)
    (read : AcquireRead) : Option AccountLease × Option ℤ :=
  let leaseUntil := read.now + ttl
  match read.seen with
  | none =>
    match row with
    | none => (some ⟨workerId, 1, leaseUntil⟩, some 1)
    | some _ => (row, none)
  | some seen =>
    if seen.workerId = workerId then
      match row.filter fun r => r.workerId = workerId with
      | some r => (some { r with leaseUntil }, some seen.generation)
      | none => (row, none)
    else if read.now < seen.leaseUntil then (row, none)
    else
      match row.filter fun r => r.generation = seen.generation ∧ r.leaseUntil ≤ read.now with
      | some _ => (some ⟨workerId, seen.generation + 1, leaseUntil⟩, some (seen.generation + 1))
      | none => (row, none)

/-- `renew`: the row it leaves and its answer. -/
def renewLease (row : Option AccountLease) (workerId : WorkerId) (generation : ℤ)
    (leaseUntil : Time) : Option AccountLease × Bool :=
  match row.filter fun r => r.workerId = workerId ∧ r.generation = generation with
  | some r => (some { r with leaseUntil }, true)
  | none => (row, false)

/-- A finished lease call with its answer. -/
inductive LeaseEvent
  | acquired (workerId : WorkerId) (generation : Option ℤ)
  | renewed (workerId : WorkerId) (generation : ℤ) (ok : Bool)
  deriving DecidableEq, Repr

/-- The row of one account, the acquire calls between read and write, and the answers given. -/
structure LeaseState where
  row : Option AccountLease
  calls : WorkerId → Option AcquireRead
  history : List LeaseEvent

def LeaseState.start (row : Option AccountLease) : LeaseState := ⟨row, fun _ => none, []⟩

inductive LeaseAction
  | read (workerId : WorkerId) (now : Time)
  | write (workerId : WorkerId) (ttl : ℤ)
  | abandon (workerId : WorkerId)
  | renew (workerId : WorkerId) (generation : ℤ) (leaseUntil : Time)
  deriving DecidableEq, Repr

namespace LeaseState

def step (s : LeaseState) : LeaseAction → Option LeaseState
  | .read w now =>
    if s.calls w = none then
      some { s with calls := Function.update s.calls w (some ⟨now, s.row⟩) }
    else none
  | .write w ttl =>
    (s.calls w).map fun read => {
      row := (acquireWrite s.row w ttl read).1
      calls := Function.update s.calls w none
      history := s.history ++ [.acquired w (acquireWrite s.row w ttl read).2] }
  | .abandon w => some { s with calls := Function.update s.calls w none }
  | .renew w g leaseUntil => some { s with
      row := (renewLease s.row w g leaseUntil).1
      history := s.history ++ [.renewed w g (renewLease s.row w g leaseUntil).2] }

end LeaseState

/-! ## What a write can do -/

/-- `row'` has the owner and the generation of `row`. -/
def SameHolder (row row' : Option AccountLease) : Prop :=
  row'.map (fun r => (r.workerId, r.generation)) = row.map fun r => (r.workerId, r.generation)

/-- How a worker that read `seen` finds the row later: as it was, or taken on by others. -/
def Followed (workerId : WorkerId) (seen : AccountLease) (row : Option AccountLease) : Prop :=
  ∃ r, row = some r ∧
    ((r.workerId = seen.workerId ∧ r.generation = seen.generation) ∨
      (seen.generation < r.generation ∧ r.workerId ≠ workerId))

/-- The row is held by `workerId` at `generation`. -/
def Holds (row : Option AccountLease) (workerId : WorkerId) (generation : ℤ) : Prop :=
  ∃ r, row = some r ∧ r.workerId = workerId ∧ r.generation = generation

/-- The row changes owner, one generation up; a missing row is created at generation 1. -/
def Taken (row row' : Option AccountLease) (workerId : WorkerId) : Prop :=
  (row = none ∧ Holds row' workerId 1) ∨
    ∃ r, row = some r ∧ r.workerId ≠ workerId ∧ Holds row' workerId (r.generation + 1)

variable {row row' : Option AccountLease} {w w' : WorkerId} {g ttl : ℤ} {now leaseUntil : Time}
  {read : AcquireRead} {seen : AccountLease}

theorem Taken.holds (h : Taken row row' w) : ∃ g, Holds row' w g := by
  rcases h with ⟨_, h⟩ | ⟨_, _, _, h⟩ <;> exact ⟨_, h⟩

/-- A write that returns a generation leaves the row held at it, with the old holder or as a
takeover; any other write changes nothing. -/
theorem acquireWrite_cases (ttl : ℤ) (hread : ∀ seen, read.seen = some seen → Followed w seen row) :
    (∃ g, (acquireWrite row w ttl read).2 = some g ∧ Holds (acquireWrite row w ttl read).1 w g ∧
      (SameHolder row (acquireWrite row w ttl read).1 ∨
        Taken row (acquireWrite row w ttl read).1 w)) ∨
    (acquireWrite row w ttl read).2 = none ∧ (acquireWrite row w ttl read).1 = row := by
  unfold acquireWrite
  cases hseen : read.seen with
  | none =>
    cases row with
    | none => exact Or.inl ⟨1, rfl, ⟨_, rfl, rfl, rfl⟩, Or.inr (Or.inl ⟨rfl, _, rfl, rfl, rfl⟩)⟩
    | some r => exact Or.inr ⟨rfl, rfl⟩
  | some seen =>
    obtain ⟨r, rfl, hr⟩ := hread seen hseen
    dsimp only
    split
    · rename_i hown
      by_cases hw : r.workerId = w
      · have hg : r.generation = seen.generation := by
          rcases hr with ⟨_, hg⟩ | ⟨_, hne⟩
          · exact hg
          · exact absurd hw hne
        have hhit : (some r).filter (fun r => decide (r.workerId = w)) = some r := by
          simp [Option.filter_some, hw]
        rw [hhit]
        exact Or.inl ⟨_, rfl, ⟨_, rfl, hw, hg⟩, Or.inl rfl⟩
      · simp [Option.filter_some, hw]
    · rename_i hother
      split
      · exact Or.inr ⟨rfl, rfl⟩
      · by_cases hmatch : r.generation = seen.generation ∧ r.leaseUntil ≤ read.now
        · have hne : r.workerId ≠ w := by
            rcases hr with ⟨ho, _⟩ | ⟨_, hne⟩
            · rwa [ho]
            · exact hne
          simp only [Option.filter_some, hmatch, and_self, decide_true, if_true]
          refine Or.inl ⟨_, rfl, ⟨_, rfl, rfl, rfl⟩, Or.inr (Or.inr ⟨r, rfl, hne, ?_⟩)⟩
          exact ⟨_, rfl, rfl, by rw [hmatch.1]⟩
        · simp [Option.filter_some, hmatch]

theorem owner_of_acquired (h : (acquireWrite row w ttl read).2 = some g) :
    ∃ r, (acquireWrite row w ttl read).1 = some r ∧ r.workerId = w := by
  revert h
  unfold acquireWrite
  dsimp only
  split
  · split
    · exact fun _ => ⟨_, rfl, rfl⟩
    · nofun
  · split
    · split
      · rename_i hr
        exact fun _ => ⟨_, rfl, of_decide_eq_true (Option.filter_eq_some_iff.mp hr).2⟩
      · nofun
    · split
      · nofun
      · split
        · exact fun _ => ⟨_, rfl, rfl⟩
        · nofun

theorem acquireWrite_expired {r : AccountLease} (hne : r.workerId ≠ w)
    (hwrite : (acquireWrite (some r) w ttl read).1 ≠ some r) : r.leaseUntil ≤ read.now := by
  unfold acquireWrite at hwrite
  split at hwrite
  · exact absurd rfl hwrite
  · dsimp only at hwrite
    split at hwrite
    · simp [Option.filter_some, hne] at hwrite
    · split at hwrite
      · exact absurd rfl hwrite
      · split at hwrite
        · rename_i r' hr'
          obtain ⟨hr, hmatch⟩ := Option.filter_eq_some_iff.mp hr'
          obtain rfl := Option.some.inj hr
          exact (of_decide_eq_true hmatch).2
        · exact absurd rfl hwrite

theorem renewLease_spec : SameHolder row (renewLease row w g leaseUntil).1 ∧
    ((renewLease row w g leaseUntil).2 = true → Holds row w g) := by
  unfold renewLease
  split
  · rename_i r hr
    obtain ⟨rfl, hmatch⟩ := Option.filter_eq_some_iff.mp hr
    exact ⟨rfl, fun _ => ⟨r, rfl, of_decide_eq_true hmatch⟩⟩
  · exact ⟨rfl, fun h => by cases h⟩

theorem SameHolder.holds (h : SameHolder row row') (hh : Holds row w g) : Holds row' w g := by
  obtain ⟨r, rfl, rfl, rfl⟩ := hh
  obtain ⟨r', rfl, he⟩ := Option.map_eq_some_iff.mp h
  exact ⟨r', rfl, congrArg Prod.fst he, congrArg Prod.snd he⟩

theorem SameHolder.followed (h : SameHolder row row') (hf : Followed w seen row) :
    Followed w seen row' := by
  obtain ⟨r, rfl, hr⟩ := hf
  obtain ⟨r', rfl, hw, hg⟩ := h.holds ⟨r, rfl, rfl, rfl⟩
  exact ⟨r', rfl, by rwa [hw, hg]⟩

theorem Taken.followed (h : Taken row row' w') (hw : w ≠ w') (hf : Followed w seen row) :
    Followed w seen row' := by
  obtain ⟨r, rfl, hr⟩ := hf
  rcases h with ⟨h, _⟩ | ⟨r₀, h, _, r', rfl, hw', hg'⟩
  · cases h
  · obtain rfl : r = r₀ := Option.some.inj h
    refine ⟨r', rfl, Or.inr ⟨?_, fun he => hw (he.symm.trans hw')⟩⟩
    rcases hr with ⟨_, hg⟩ | ⟨hlt, _⟩ <;> omega

/-! ## The invariant -/

/-- The generation was returned to `w` and the row has not fallen behind it. -/
def NotBehind (row : Option AccountLease) (w : WorkerId) (g : ℤ) : Prop :=
  ∃ r, row = some r ∧ (g < r.generation ∨ (g = r.generation ∧ r.workerId = w))

theorem Holds.notBehind (h : Holds row w g) : NotBehind row w g := by
  obtain ⟨r, rfl, hw, hg⟩ := h
  exact ⟨r, rfl, Or.inr ⟨hg.symm, hw⟩⟩

theorem SameHolder.notBehind (h : SameHolder row row') (hn : NotBehind row w g) :
    NotBehind row' w g := by
  obtain ⟨r, rfl, hr⟩ := hn
  obtain ⟨r', rfl, hw, hg⟩ := h.holds ⟨r, rfl, rfl, rfl⟩
  exact ⟨r', rfl, by rwa [hw, hg]⟩

theorem Taken.behind (h : Taken row row' w') (hn : NotBehind row w g) :
    ∃ r, row' = some r ∧ g < r.generation := by
  obtain ⟨r, rfl, hr⟩ := hn
  rcases h with ⟨h, _⟩ | ⟨r₀, h, _, r', rfl, _, hg'⟩
  · cases h
  · obtain rfl : r = r₀ := Option.some.inj h
    refine ⟨r', rfl, ?_⟩
    rcases hr with hlt | ⟨heq, _⟩ <;> omega

structure LeaseInvariant (s : LeaseState) : Prop where
  followed : ∀ w read seen, s.calls w = some read → read.seen = some seen → Followed w seen s.row
  notBehind : ∀ w g, LeaseEvent.acquired w (some g) ∈ s.history → NotBehind s.row w g
  unique : ∀ w w' g, LeaseEvent.acquired w (some g) ∈ s.history →
    LeaseEvent.acquired w' (some g) ∈ s.history → w = w'

theorem leaseInvariant_start (row : Option AccountLease) : LeaseInvariant (.start row) := by
  constructor <;> simp [LeaseState.start]

theorem LeaseInvariant.keep {s s' : LeaseState} (h : LeaseInvariant s)
    (hrow : SameHolder s.row s'.row)
    (hcalls : ∀ w read, s'.calls w = some read → s.calls w = some read ∨ read.seen = s'.row)
    (hhist : ∀ w g, LeaseEvent.acquired w (some g) ∈ s'.history →
      LeaseEvent.acquired w (some g) ∈ s.history) : LeaseInvariant s' where
  followed w read seen hc hs := by
    rcases hcalls w read hc with hc | he
    · exact hrow.followed (h.followed w read seen hc hs)
    · exact ⟨seen, by rw [← he, hs], Or.inl ⟨rfl, rfl⟩⟩
  notBehind w g hg := hrow.notBehind (h.notBehind w g (hhist w g hg))
  unique w w' g hg hg' := h.unique w w' g (hhist w g hg) (hhist w' g hg')

theorem LeaseInvariant.acquire {s s' : LeaseState} (h : LeaseInvariant s)
    (hholds : Holds s'.row w g)
    (hrow : SameHolder s.row s'.row ∨ Taken s.row s'.row w)
    (hcalls : s'.calls = Function.update s.calls w none)
    (hhist : s'.history = s.history ++ [.acquired w (some g)]) : LeaseInvariant s' := by
  have hold : ∀ w' g', LeaseEvent.acquired w' (some g') ∈ s.history →
      NotBehind s'.row w' g' := by
    intro w' g' hm
    rcases hrow with hsame | htaken
    · exact hsame.notBehind (h.notBehind w' g' hm)
    · obtain ⟨r, hr, hlt⟩ := htaken.behind (h.notBehind w' g' hm)
      exact ⟨r, hr, Or.inl hlt⟩
  have hnew : ∀ w', LeaseEvent.acquired w' (some g) ∈ s.history → w' = w := by
    intro w' hm
    obtain ⟨r, hr, hcase⟩ := hold w' g hm
    obtain ⟨r', hr', hw, hg⟩ := hholds
    obtain rfl : r = r' := Option.some.inj (hr.symm.trans hr')
    rcases hcase with hlt | ⟨_, he⟩
    · omega
    · exact he.symm.trans hw
  constructor
  · intro w' read seen hc hs
    have hne : w' ≠ w := by
      rintro rfl
      simp [hcalls] at hc
    rw [hcalls, Function.update_of_ne hne] at hc
    rcases hrow with hsame | htaken
    · exact hsame.followed (h.followed w' read seen hc hs)
    · exact htaken.followed hne (h.followed w' read seen hc hs)
  · intro w' g' hm
    rw [hhist, List.mem_append, List.mem_singleton] at hm
    rcases hm with hm | hm
    · exact hold w' g' hm
    · obtain ⟨rfl, hg⟩ := LeaseEvent.acquired.inj hm
      obtain rfl : g' = g := Option.some.inj hg
      exact hholds.notBehind
  · intro w₁ w₂ g' h₁ h₂
    rw [hhist, List.mem_append, List.mem_singleton] at h₁ h₂
    rcases h₁ with h₁ | h₁ <;> rcases h₂ with h₂ | h₂
    · exact h.unique w₁ w₂ g' h₁ h₂
    · obtain ⟨rfl, hg⟩ := LeaseEvent.acquired.inj h₂
      obtain rfl : g' = g := Option.some.inj hg
      exact hnew w₁ h₁
    · obtain ⟨rfl, hg⟩ := LeaseEvent.acquired.inj h₁
      obtain rfl : g' = g := Option.some.inj hg
      exact (hnew w₂ h₂).symm
    · rw [(LeaseEvent.acquired.inj h₁).1, (LeaseEvent.acquired.inj h₂).1]

theorem leaseInvariant_step (s : LeaseState) (a : LeaseAction) (s' : LeaseState)
    (ha : s.step a = some s') (h : LeaseInvariant s) : LeaseInvariant s' := by
  cases a with
  | read w now =>
    simp only [LeaseState.step] at ha
    split at ha
    · obtain rfl := Option.some.inj ha
      refine h.keep rfl ?_ fun _ _ => id
      intro w' read hc
      by_cases hw : w' = w
      · have he : some ⟨now, s.row⟩ = some read := by simpa [hw] using hc
        exact Or.inr (by rw [← Option.some.inj he])
      · exact Or.inl (by simpa [hw] using hc)
    · cases ha
  | write w ttl =>
    obtain ⟨read, hc, rfl⟩ := Option.map_eq_some_iff.mp ha
    rcases acquireWrite_cases ttl (h.followed w read · hc) with
      ⟨g, hg, hholds, hrow⟩ | ⟨hnone, hrow⟩
    · exact h.acquire hholds hrow rfl (by rw [hg])
    · refine h.keep ?_ ?_ ?_
      · simp only [SameHolder, hrow]
      · intro w' read' hc'
        by_cases hw : w' = w
        · simp [hw] at hc'
        · exact Or.inl (by simpa [hw] using hc')
      · simp [hnone]
  | abandon w =>
    obtain rfl := Option.some.inj ha
    refine h.keep rfl ?_ fun _ _ => id
    intro w' read hc
    by_cases hw : w' = w
    · simp [hw] at hc
    · exact Or.inl (by simpa [hw] using hc)
  | renew w g leaseUntil =>
    obtain rfl := Option.some.inj ha
    exact h.keep renewLease_spec.1 (fun _ _ => Or.inl) (by simp)

theorem generation_of_created (h : SameHolder row row' ∨ Taken row row' w) {r' : AccountLease}
    (hr : row = none) (hr' : row' = some r') : r'.generation = 1 := by
  subst hr hr'
  rcases h with hsame | ⟨_, r, hr, _, hg⟩ | ⟨r, hr, _⟩
  · cases hsame
  · rw [Option.some.inj hr]
    exact hg
  · cases hr

theorem generation_of_moved (h : SameHolder row row' ∨ Taken row row' w) {r : AccountLease}
    (hr : row = some r) : ∃ r', row' = some r' ∧
      ((r'.workerId = r.workerId ∧ r'.generation = r.generation) ∨
        (r'.workerId ≠ r.workerId ∧ r'.generation = r.generation + 1)) := by
  subst hr
  rcases h with hsame | ⟨hnone, _⟩ | ⟨r₀, hr₀, hne, r', hr', hw, hg⟩
  · obtain ⟨r', hr', hw, hg⟩ := hsame.holds ⟨r, rfl, rfl, rfl⟩
    exact ⟨r', hr', Or.inl ⟨hw, hg⟩⟩
  · cases hnone
  · obtain rfl : r = r₀ := Option.some.inj hr₀
    exact ⟨r', hr', Or.inr ⟨by rw [hw]; exact hne.symm, hg⟩⟩

structure LeaseStep (s : LeaseState) (_ : LeaseAction) (s' : LeaseState) : Prop where
  created : ∀ r', s.row = none → s'.row = some r' → r'.generation = 1
  generation : ∀ r, s.row = some r → ∃ r', s'.row = some r' ∧
    ((r'.workerId = r.workerId ∧ r'.generation = r.generation) ∨
      (r'.workerId ≠ r.workerId ∧ r'.generation = r.generation + 1))
  acquired : ∀ w g, s'.history = s.history ++ [.acquired w (some g)] → Holds s'.row w g
  renewed : ∀ w g, s'.history = s.history ++ [.renewed w g true] → Holds s.row w g

theorem leaseStep_of_moved {s s' : LeaseState} {a : LeaseAction}
    (h : SameHolder s.row s'.row ∨ Taken s.row s'.row w)
    (hacquired : ∀ w g, s'.history = s.history ++ [.acquired w (some g)] → Holds s'.row w g)
    (hrenewed : ∀ w g, s'.history = s.history ++ [.renewed w g true] → Holds s.row w g) :
    LeaseStep s a s' :=
  ⟨fun _ => generation_of_created h, fun _ => generation_of_moved h, hacquired, hrenewed⟩

theorem leaseStep_of_invariant (s : LeaseState) (a : LeaseAction) (s' : LeaseState)
    (ha : s.step a = some s') (h : LeaseInvariant s) : LeaseStep s a s' := by
  cases a with
  | read w now =>
    simp only [LeaseState.step] at ha
    split at ha
    · obtain rfl := Option.some.inj ha
      exact leaseStep_of_moved (w := w) (Or.inl rfl) (by simp) (by simp)
    · cases ha
  | write w ttl =>
    obtain ⟨read, hc, rfl⟩ := Option.map_eq_some_iff.mp ha
    rcases acquireWrite_cases ttl (h.followed w read · hc) with
      ⟨g, hg, hholds, hrow⟩ | ⟨hnone, hrow⟩
    · refine leaseStep_of_moved hrow ?_ (by simp)
      intro w' g' he
      simp only [hg, List.append_cancel_left_eq, List.cons.injEq, LeaseEvent.acquired.injEq,
        Option.some.injEq, and_true] at he
      obtain ⟨rfl, rfl⟩ := he
      exact hholds
    · have hsame : SameHolder s.row (acquireWrite s.row w ttl read).1 := by
        simp only [SameHolder, hrow]
      exact leaseStep_of_moved (w := w) (Or.inl hsame) (by simp [hnone]) (by simp)
  | abandon w =>
    obtain rfl := Option.some.inj ha
    exact leaseStep_of_moved (w := w) (Or.inl rfl) (by simp) (by simp)
  | renew w g leaseUntil =>
    obtain rfl := Option.some.inj ha
    refine leaseStep_of_moved (w := w) (Or.inl renewLease_spec.1) (by simp) ?_
    intro w' g' he
    simp only [List.append_cancel_left_eq, List.cons.injEq, LeaseEvent.renewed.injEq,
      and_true] at he
    obtain ⟨rfl, rfl, hok⟩ := he
    exact renewLease_spec.2 hok

/-- Whatever the workers' clocks and however their calls interleave: the generation goes up by
one exactly when the owner changes, `acquire` returns what its own write left, `renew` answers
true only to the holder, and no generation is returned to two workers. -/
theorem lease_compare_and_swap (row : Option AccountLease) (as : List LeaseAction) :
    Machine.Always LeaseState.step LeaseStep (.start row) as ∧
      ∀ s, Machine.run LeaseState.step (.start row) as = some s →
        ∀ w w' g, LeaseEvent.acquired w (some g) ∈ s.history →
          LeaseEvent.acquired w' (some g) ∈ s.history → w = w' := by
  constructor
  · exact Machine.always_of_invariant leaseInvariant_step leaseStep_of_invariant as
      (leaseInvariant_start row)
  · intro s hrun
    exact (Machine.run_invariant leaseInvariant_step hrun (leaseInvariant_start row)).unique

/-- Two workers race for an expired lease: the second writer's read is out of date. -/
def leaseRace : List LeaseAction :=
  [.read "w1" 0, .write "w1" 45, .read "w2" 50, .read "w3" 51, .renew "w1" 1 49, .write "w3" 45,
    .write "w2" 45, .renew "w1" 1 100, .read "w3" 60, .write "w3" 45]

theorem lease_compare_and_swap_race :
    (Machine.run LeaseState.step (.start none) leaseRace).map LeaseState.history =
        some [.acquired "w1" (some 1), .renewed "w1" 1 true, .acquired "w3" (some 2),
          .acquired "w2" none, .renewed "w1" 1 false, .acquired "w3" (some 2)] ∧
      Machine.Always LeaseState.step LeaseStep (.start none) leaseRace :=
  ⟨by decide, (lease_compare_and_swap none leaseRace).1⟩

end TgPlatform
