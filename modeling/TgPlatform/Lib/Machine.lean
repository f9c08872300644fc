import Mathlib.Data.Option.Basic
import Mathlib.Data.List.Basic

/-! # Runs of a partial step function

A machine is a partial function from a state and an action to the next state;
every choice the environment makes is part of the action. Invariants and
step properties of whole runs follow from what one step preserves, possibly
under a guard on the states before the steps.
-/

namespace Machine

variable {σ α τ β : Type*}

/-- Execute a list of actions from left to right; an action that is not enabled ends the run. -/
def run (step : σ → α → Option σ) : σ → List α → Option σ
  | s, [] => some s
  | s, a :: as => (step s a).bind fun s' => run step s' as

variable {step : σ → α → Option σ} {s s' t : σ} {a : α} {as bs : List α}

@[simp] theorem run_nil (s : σ) : run step s [] = some s := rfl

theorem run_cons (s : σ) (a : α) (as : List α) :
    run step s (a :: as) = (step s a).bind fun s' => run step s' as := rfl

theorem run_append (s : σ) (as bs : List α) :
    run step s (as ++ bs) = (run step s as).bind fun s' => run step s' bs := by
  induction as generalizing s with
  | nil => rfl
  | cons a as ih =>
    simp only [List.cons_append, run_cons, Option.bind_assoc]
    congr 1
    funext s'
    exact ih s'

theorem run_append_of_eq (h : run step s as = some t) : run step s (as ++ bs) = run step t bs := by
  simp [run_append, h]

theorem run_cons_eq_some : run step s (a :: as) = some t ↔
    ∃ s', step s a = some s' ∧ run step s' as = some t := by
  simp [run_cons, Option.bind_eq_some_iff]

theorem run_append_eq_some : run step s (as ++ bs) = some t ↔
    ∃ s', run step s as = some s' ∧ run step s' bs = some t := by
  simp [run_append, Option.bind_eq_some_iff]

/-- An invariant kept by every step holds at the end of every run. -/
theorem run_invariant {I : σ → Prop} (hI : ∀ s a s', step s a = some s' → I s → I s') :
    ∀ {as : List α} {s t : σ}, run step s as = some t → I s → I t
  | [], s, t, h, hs => by
    obtain rfl : s = t := by simpa using h
    exact hs
  | _ :: _, _, _, h, hs => by
    obtain ⟨s', ha, h⟩ := run_cons_eq_some.mp h
    exact run_invariant hI h (hI _ _ s' ha hs)

/-- Every step of the run from `s` satisfies `P`, read as (state before, action, state after). -/
def Always (step : σ → α → Option σ) (P : σ → α → σ → Prop) : σ → List α → Prop
  | _, [] => True
  | s, a :: as => ∀ s', step s a = some s' → P s a s' ∧ Always step P s' as

variable {P Q G : σ → α → σ → Prop} {I : σ → Prop}

theorem Always.head (h : Always step P s (a :: as)) (ha : step s a = some s') : P s a s' :=
  (h s' ha).1

theorem Always.tail (h : Always step P s (a :: as)) (ha : step s a = some s') :
    Always step P s' as :=
  (h s' ha).2

theorem Always.left : ∀ {as : List α} {s : σ}, Always step P s (as ++ bs) → Always step P s as
  | [], _, _ => trivial
  | _ :: _, _, h => fun _ ha => ⟨h.head ha, (h.tail ha).left⟩

theorem Always.right : ∀ {as : List α} {s : σ}, Always step P s (as ++ bs) →
    run step s as = some t → Always step P t bs
  | [], s, h, hr => by
    obtain rfl : s = t := by simpa using hr
    exact h
  | _ :: _, _, h, hr => by
    obtain ⟨s', ha, hr⟩ := run_cons_eq_some.mp hr
    exact (h.tail ha).right hr

theorem Always.mono (hPQ : ∀ s a s', step s a = some s' → P s a s' → Q s a s') :
    ∀ {as : List α} {s : σ}, Always step P s as → Always step Q s as
  | [], _, _ => trivial
  | _ :: _, _, h => fun _ ha => ⟨hPQ _ _ _ ha (h.head ha), (h.tail ha).mono hPQ⟩

theorem Always.and : ∀ {as : List α} {s : σ}, Always step P s as → Always step Q s as →
    Always step (fun s a s' => P s a s' ∧ Q s a s') s as
  | [], _, _, _ => trivial
  | _ :: _, _, hP, hQ => fun _ ha =>
    ⟨⟨hP.head ha, hQ.head ha⟩, (hP.tail ha).and (hQ.tail ha)⟩

/-- `Always` says the same as: `P` holds at the step after every prefix of the run. -/
theorem always_iff : ∀ {as : List α} {s : σ}, Always step P s as ↔
    ∀ pre a post sp s', as = pre ++ a :: post → run step s pre = some sp →
      step sp a = some s' → P sp a s'
  | [], s => by simp [Always]
  | b :: bs, s => by
    constructor
    · intro h pre a post sp s' he hr ha
      cases pre with
      | nil =>
        obtain ⟨rfl, rfl⟩ : b = a ∧ bs = post := by simpa using he
        obtain rfl : s = sp := by simpa using hr
        exact h.head ha
      | cons c pre =>
        obtain ⟨rfl, rfl⟩ : b = c ∧ bs = pre ++ a :: post := by simpa using he
        obtain ⟨s₁, hb, hr⟩ := run_cons_eq_some.mp hr
        exact always_iff.mp (h.tail hb) pre a post sp s' rfl hr ha
    · intro h s₁ hb
      refine ⟨h [] b bs s s₁ rfl rfl hb, always_iff.mpr ?_⟩
      rintro pre a post sp s' rfl hr ha
      exact h (b :: pre) a post sp s' rfl (run_cons_eq_some.mpr ⟨s₁, hb, hr⟩) ha

theorem not_always_of_step (hr : run step s as = some s') (ha : step s' a = some t)
    (hP : ¬ P s' a t) : ¬ Always step P s (as ++ [a]) := by
  intro h
  exact hP (always_iff.mp h as a [] s' t rfl hr ha)

theorem exists_of_observed {f : σ → σ → β} {b : β}
    (h : ((run step s as).bind fun s' => (step s' a).map fun t => f s' t) = some b) :
    ∃ s' t, run step s as = some s' ∧ step s' a = some t ∧ f s' t = b := by
  obtain ⟨s', hr, h⟩ := Option.bind_eq_some_iff.mp h
  obtain ⟨t, ha, hb⟩ := Option.map_eq_some_iff.mp h
  exact ⟨s', t, hr, ha, hb⟩

theorem always_of_mem : ∀ {as : List α} {s : σ}, (∀ a ∈ as, ∀ s s', P s a s') → Always step P s as
  | [], _, _ => trivial
  | a :: _, _, h => fun _ _ => ⟨h a (List.mem_cons_self ..) _ _,
    always_of_mem fun b hb => h b (List.mem_cons_of_mem a hb)⟩

def checkRun (step : σ → α → Option σ) (c : σ → α → σ → Bool) : σ → List α → Bool
  | _, [] => true
  | s, a :: as =>
    match step s a with
    | some s' => c s a s' && checkRun step c s' as
    | none => true

theorem always_of_checkRun {c : σ → α → σ → Bool} (hP : ∀ s a s', c s a s' = true → P s a s') :
    ∀ {as : List α} {s : σ}, checkRun step c s as = true → Always step P s as
  | [], _, _ => trivial
  | _ :: _, _, h => fun s' ha => by
    rw [checkRun, ha, Bool.and_eq_true] at h
    exact ⟨hP _ _ s' h.1, always_of_checkRun hP h.2⟩

theorem Always.invariant (hI : ∀ s a s', step s a = some s' → G s a s' → I s → I s') :
    ∀ {as : List α} {s t : σ}, Always step G s as → run step s as = some t → I s → I t
  | [], s, t, _, h, hs => by
    obtain rfl : s = t := by simpa using h
    exact hs
  | _ :: _, _, _, hG, h, hs => by
    obtain ⟨s', ha, h⟩ := run_cons_eq_some.mp h
    exact (hG.tail ha).invariant hI h (hI _ _ s' ha (hG.head ha) hs)

/-- A property of the steps that an invariant implies holds along every guarded run. -/
theorem Always.of_invariant (hI : ∀ s a s', step s a = some s' → G s a s' → I s → I s')
    (hP : ∀ s a s', step s a = some s' → G s a s' → I s → P s a s') :
    ∀ {as : List α} {s : σ}, Always step G s as → I s → Always step P s as
  | [], _, _, _ => trivial
  | _ :: _, _, hG, hs => fun _ ha =>
    ⟨hP _ _ _ ha (hG.head ha) hs,
      (hG.tail ha).of_invariant hI hP (hI _ _ _ ha (hG.head ha) hs)⟩

theorem always_of_invariant (hI : ∀ s a s', step s a = some s' → I s → I s')
    (hP : ∀ s a s', step s a = some s' → I s → P s a s') :
    ∀ (as : List α) {s : σ}, I s → Always step P s as
  | [], _, _ => trivial
  | _ :: as, _, hs => fun _ ha =>
    ⟨hP _ _ _ ha hs, always_of_invariant hI hP as (hI _ _ _ ha hs)⟩

/-! ## A record of the run beside its state -/

/-- The machine whose state carries along what `note` makes of its steps. -/
def recorded {γ : Type*} (step : σ → α → Option σ) (note : γ → σ → α → γ) (x : σ × γ) (a : α) :
    Option (σ × γ) :=
  (step x.1 a).map fun s' => (s', note x.2 x.1 a)

section Recorded

variable {γ : Type*} {note : γ → σ → α → γ} {x y : σ × γ}

theorem recorded_eq_some : recorded step note x a = some y ↔
    step x.1 a = some y.1 ∧ y.2 = note x.2 x.1 a := by
  rcases y with ⟨s', g⟩
  simp [recorded, eq_comm]

/-- Where a property of the steps is decided by a guard as long as it has held so far, the whole
run has the property exactly if it meets the guard. -/
theorem always_iff_of_invariant
    (hI : ∀ s a s', step s a = some s' → I s → P s a s' → I s')
    (hP : ∀ s a s', step s a = some s' → I s → (P s a s' ↔ G s a s')) :
    ∀ (as : List α) {s : σ}, I s → (Always step P s as ↔ Always step G s as)
  | [], _, _ => Iff.rfl
  | a :: as, s, hs => by
    constructor
    · intro h s' ha
      have hhead := h.head ha
      exact ⟨(hP s a s' ha hs).mp hhead,
        (always_iff_of_invariant hI hP as (hI s a s' ha hs hhead)).mp (h.tail ha)⟩
    · intro h s' ha
      have hhead := (hP s a s' ha hs).mpr (h.head ha)
      exact ⟨hhead, (always_iff_of_invariant hI hP as (hI s a s' ha hs hhead)).mpr (h.tail ha)⟩

end Recorded

end Machine
