import Mathlib.Init

/-! # Outcomes

A sequence of steps goes on while each of them succeeds.
-/

namespace Except

variable {ε α β : Type} {x : Except ε α} {k : α → Except ε β}

theorem bind_eq_ok {b : β} : (x >>= k) = .ok b ↔ ∃ a, x = .ok a ∧ k a = .ok b := by
  cases x with
  | error e => simp [Bind.bind, Except.bind]
  | ok a => simp [Bind.bind, Except.bind]

theorem bind_eq_error {e : ε} :
    (x >>= k) = .error e ↔ x = .error e ∨ ∃ a, x = .ok a ∧ k a = .error e := by
  cases x with
  | error e => simp [Bind.bind, Except.bind]
  | ok a => simp [Bind.bind, Except.bind]

theorem toOption_eq_some {a : α} : x.toOption = some a ↔ x = .ok a := by
  cases x with
  | error e => simp [Except.toOption]
  | ok b => simp [Except.toOption]

/-! ## Lists of steps -/

section mapM

variable {f : α → Except ε β} {l : List α} {e : ε}

theorem mapM_error_of_mem {a : α} (ha : a ∈ l) (hf : f a = .error e) :
    ∃ b ∈ l, ∃ e', f b = .error e' ∧ l.mapM f = .error e' := by
  induction l with
  | nil => cases ha
  | cons b l ih =>
    rw [List.mapM_cons]
    cases hb : f b with
    | error e' => exact ⟨b, List.mem_cons_self, e', hb, rfl⟩
    | ok c =>
      have hmem : a ∈ l := by
        refine (List.mem_cons.mp ha).resolve_left ?_
        rintro rfl
        rw [hb] at hf
        cases hf
      obtain ⟨b', hb', e', hf', hl⟩ := ih hmem
      refine ⟨b', List.mem_cons_of_mem b hb', e', hf', ?_⟩
      rw [hl]
      rfl

/-- A list of steps fails in one way exactly if no step fails in another way before. -/
theorem mapM_ne_error {go : α → Bool} (hgo : ∀ a ∈ l, go a = false ↔ ∃ e', e' ≠ e ∧ f a = .error e') :
    l.mapM f ≠ .error e ↔ ∀ a ∈ l.takeWhile go, f a ≠ .error e := by
  induction l with
  | nil => exact iff_of_true nofun nofun
  | cons b l ih =>
    have hb := hgo b List.mem_cons_self
    rw [List.mapM_cons]
    cases hstep : f b with
    | error e' =>
      rw [hstep] at hb
      cases hgob : go b with
      | false =>
        obtain ⟨e'', hne, heq⟩ := hb.mp hgob
        obtain rfl := Except.error.inj heq
        rw [List.takeWhile_cons_of_neg (by simp [hgob])]
        exact iff_of_true (fun h => hne (Except.error.inj h)) nofun
      | true =>
        have heq : e' = e := Classical.byContradiction fun hne => by
          rw [hb.mpr ⟨e', hne, rfl⟩] at hgob
          cases hgob
        rw [List.takeWhile_cons_of_pos hgob, heq]
        refine iff_of_false (fun h => h rfl) fun h => ?_
        exact h b List.mem_cons_self (hstep.trans (congrArg _ heq))
    | ok c =>
      have hgob : go b = true := Classical.byContradiction fun hgob => by
        obtain ⟨e', -, heq⟩ := hb.mp (by simpa using hgob)
        rw [hstep] at heq
        cases heq
      have hrest : (Except.ok c >>= fun c => List.mapM f l >>= fun cs => pure (c :: cs)) = .error e ↔
          l.mapM f = .error e := by
        cases List.mapM f l <;> simp [Bind.bind, Except.bind, Pure.pure, Except.pure]
      rw [List.takeWhile_cons_of_pos hgob, List.forall_mem_cons, ne_eq, hrest, hstep]
      exact (ih fun a ha => hgo a (List.mem_cons_of_mem b ha)).trans (and_iff_right nofun).symm

end mapM

end Except
