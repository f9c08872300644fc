import TgPlatform.Pipeline.Steps

/-! # Hosted accounts and their runners

A process has a runner exactly for the accounts it hosts, at the generation it
hosts them at, and an account that is still being assigned is not hosted yet.
-/

namespace TgPlatform

structure Worker.Hosting (wk : Worker) : Prop where
  runners : ∀ acc, (wk.runners acc).map Runner.generation = (wk.hosted acc).map Hosted.generation
  assigning : ∀ x, wk.assigning = some x → wk.hosted x.assignment.accountId = none

/-! ## The processes -/

theorem hosting_start (config : WorkerConfig) : (Worker.start config).Hosting :=
  ⟨fun _ => rfl, fun _ h => by cases h⟩

namespace Worker

variable {wk : Worker} {acc : AccountId}

theorem Hosting.keep (h : wk.Hosting) {wk' : Worker} (hrunners : wk'.runners = wk.runners)
    (hhosted : wk'.hosted = wk.hosted)
    (hassigning : ∀ x, wk'.assigning = some x →
      wk'.hosted x.assignment.accountId = none) : wk'.Hosting := by
  constructor
  · intro acc
    rw [hrunners, hhosted]
    exact h.runners acc
  · exact hassigning

theorem Hosting.release (h : wk.Hosting) : (wk.release acc).Hosting := by
  constructor
  · intro acc'
    by_cases hacc : acc' = acc
    · simp [Worker.release, hacc]
    · simpa [Worker.release, hacc] using h.runners acc'
  · intro x hx
    by_cases hacc : x.assignment.accountId = acc
    · simp [Worker.release, hacc]
    · simpa [Worker.release, hacc] using h.assigning x hx

theorem Hosting.assignDone (h : wk.Hosting) {a : Assignment} {g : ℤ} :
    Hosting { wk with
      runners := Function.update wk.runners a.accountId (some { generation := g })
      hosted := Function.update wk.hosted a.accountId (some ⟨a, g⟩)
      assigning := none } := by
  constructor
  · intro acc
    by_cases hacc : acc = a.accountId
    · simp [hacc]
    · simpa [hacc] using h.runners acc
  · intro x hx
    cases hx

theorem hosting_step {workerId : WorkerId} {published : AccountId → List PublishedRule}
    {db : Database} {x : HostAction} {e : HostEffect} (he : wk.step workerId published db x = some e)
    (h : wk.Hosting) : e.worker.Hosting := by
  cases Worker.stepped_of_step he with
  | assignRead a now _ hfree =>
    refine h.keep rfl rfl ?_
    intro x hx
    obtain rfl := Option.some.inj hx
    exact hfree
  | assignWrite a read row generation hassigning _ =>
    refine h.keep rfl rfl ?_
    intro x hx
    obtain ⟨g, _, rfl⟩ := Option.map_eq_some_iff.mp hx
    exact h.assigning ⟨a, .acquiring read⟩ hassigning
  | assignConnect a g hassigning =>
    refine h.keep rfl rfl ?_
    intro x hx
    obtain rfl := Option.some.inj hx
    exact h.assigning ⟨a, .connecting g⟩ hassigning
  | assignFail x sessions _ => exact h.keep rfl rfl fun _ hx => by cases hx
  | assignDone a g _ => exact h.assignDone
  | renew acc now hosted row ok _ _ _ =>
    dsimp only
    split
    · exact h
    · exact h.keep rfl rfl h.assigning
  | release acc _ _ => exact h.release
  | _ => exact h.keep rfl rfl h.assigning

end Worker

namespace System

variable {s s' : System} {a : Action} {w : WorkerId} {acc : AccountId}

def AllHosting (s : System) : Prop := ∀ w, (s.workers w).Hosting

theorem allHosting_start (config : WorkerId → WorkerConfig) : AllHosting (.start config) :=
  fun w => hosting_start (config w)

theorem hosting_workerAfter {wk : Worker} {x : RunnerAction} {r r' : Runner}
    (h : wk.Hosting) (hr : wk.runners acc = some r) (hg : r'.generation = r.generation) :
    (workerAfter wk acc x r').Hosting := by
  have hrunners := workerAfter_runners wk acc x r'
  have hhosted : (workerAfter wk acc x r').hosted = wk.hosted := by cases x <;> rfl
  have hassigning : (workerAfter wk acc x r').assigning = wk.assigning := by cases x <;> rfl
  constructor
  · intro acc'
    rw [hrunners, hhosted]
    by_cases hacc : acc' = acc
    · have hgen := h.runners acc
      rw [hr] at hgen
      simp [hacc, hg, ← hgen]
    · simpa [hacc] using h.runners acc'
  · rw [hhosted, hassigning]
    exact h.assigning

theorem allHosting_step (s : System) (a : Action) (s' : System) (h : s.step a = some s')
    (hs : AllHosting s) : AllHosting s' := by
  intro w
  rcases step_workers h w with hsame | ⟨acc, x, r, e, _, hr, he, hw⟩ | ⟨x, e, _, he, hw⟩ | ⟨_, hw⟩
  · rw [hsame]
    exact hs w
  · rw [hw]
    exact hosting_workerAfter (hs w) hr (Runner.step_generation he)
  · rw [hw]
    exact Worker.hosting_step he (hs w)
  · rw [hw]
    exact hosting_start _

end System

end TgPlatform
