import TgPlatform.Lib.Machine
import TgPlatform.Lib.Slots

/-! # Overlapping transactions

Transactions proceed statement by statement, in any order of their statements.
A statement sees what is committed by then and what its own transaction has
written, and waits for the locks that other transactions hold to their end.
-/

namespace Overlap

/-- What a transaction does next: a statement with the locks it takes and what it writes, or its
end. -/
inductive Move (σ κ β ℓ : Type)
  | go (locks : List κ) (write : σ → σ) (next : ℓ)
  | commit (answer : β)
  | rollback

/-- The transactions for the requests `ι`. The next move depends on how far the transaction has
come, on what it sees, and on a serial number that no one else gets. -/
structure Program (ι σ κ β ℓ : Type) where
  start : ι → ℓ
  next : ℓ → σ → ℕ → Move σ κ β ℓ

structure Session (σ κ ℓ : Type) where
  at_ : ℓ
  write : σ → σ := id
  held : List κ := []

structure State (σ κ β ℓ : Type) where
  committed : σ
  sessions : Slots (Session σ κ ℓ) := ⟨[]⟩
  serial : ℕ := 0
  log : List β := []

inductive Act (ι : Type)
  | start (r : ι)
  | move (i : ℕ)
  | abort (i : ℕ)
  deriving DecidableEq, Repr

variable {ι σ κ β ℓ : Type} [DecidableEq κ]

/-- No other transaction holds any of the locks. -/
def State.free (s : State σ κ β ℓ) (i : ℕ) (locks : List κ) : Bool :=
  s.sessions.all.all fun x => x.1 = i || locks.all fun k => k ∉ x.2.held

def Program.move (p : Program ι σ κ β ℓ) (s : State σ κ β ℓ) (i : ℕ) (t : Session σ κ ℓ) :
    Option (State σ κ β ℓ) :=
  match p.next t.at_ (t.write s.committed) s.serial with
  | .go locks write next =>
    if s.free i locks then
      some { s with
        sessions := s.sessions.modify i fun t => ⟨next, write ∘ t.write, locks ++ t.held⟩
        serial := s.serial + 1 }
    else none
  | .commit answer => some { s with
      committed := t.write s.committed
      sessions := s.sessions.remove i
      log := s.log ++ [answer] }
  | .rollback => some { s with sessions := s.sessions.remove i }

def Program.step (p : Program ι σ κ β ℓ) (s : State σ κ β ℓ) : Act ι → Option (State σ κ β ℓ)
  | .start r => some { s with sessions := s.sessions.add { at_ := p.start r } }
  | .move i => (s.sessions.row? i).bind (p.move s i)
  | .abort i => (s.sessions.row? i).map fun _ => { s with sessions := s.sessions.remove i }

variable {p : Program ι σ κ β ℓ} {s s' : State σ κ β ℓ} {a : Act ι} {as : List (Act ι)}
  {i j : ℕ} {t u : Session σ κ ℓ}

inductive Stepped (p : Program ι σ κ β ℓ) (s : State σ κ β ℓ) : Act ι → State σ κ β ℓ → Prop
  | start (r : ι) : Stepped p s (.start r) { s with sessions := s.sessions.add { at_ := p.start r } }
  | go (i : ℕ) (t : Session σ κ ℓ) (locks : List κ) (write : σ → σ) (next : ℓ) :
      s.sessions.row? i = some t →
      p.next t.at_ (t.write s.committed) s.serial = .go locks write next → s.free i locks = true →
      Stepped p s (.move i) { s with
        sessions := s.sessions.modify i fun t => ⟨next, write ∘ t.write, locks ++ t.held⟩
        serial := s.serial + 1 }
  | commit (i : ℕ) (t : Session σ κ ℓ) (answer : β) : s.sessions.row? i = some t →
      p.next t.at_ (t.write s.committed) s.serial = .commit answer →
      Stepped p s (.move i) { s with
        committed := t.write s.committed
        sessions := s.sessions.remove i
        log := s.log ++ [answer] }
  | fail (a : Act ι) (i : ℕ) (t : Session σ κ ℓ) : s.sessions.row? i = some t →
      (a = .move i ∧ p.next t.at_ (t.write s.committed) s.serial = .rollback ∨ a = .abort i) →
      Stepped p s a { s with sessions := s.sessions.remove i }

theorem stepped_of_step (h : p.step s a = some s') : Stepped p s a s' := by
  cases a with
  | start r =>
    cases h
    exact .start r
  | move i =>
    obtain ⟨t, ht, h⟩ := Option.bind_eq_some_iff.mp h
    unfold Program.move at h
    split at h
    · rename_i locks write next hnext
      split at h
      · rename_i hfree
        cases h
        exact .go i t locks write next ht hnext hfree
      · cases h
    · rename_i answer hnext
      cases h
      exact .commit i t answer ht hnext
    · rename_i hnext
      cases h
      exact .fail _ i t ht (.inl ⟨rfl, hnext⟩)
  | abort i =>
    obtain ⟨t, ht, rfl⟩ := Option.map_eq_some_iff.mp h
    exact .fail _ i t ht (.inr rfl)

theorem not_mem_held_of_free {locks : List κ} (h : s.free i locks = true)
    (hu : s.sessions.row? j = some u) (hij : j ≠ i) : locks.Disjoint u.held := by
  intro k hk hheld
  have hall := List.all_eq_true.mp h (j, u) (Slots.mem_all.mpr hu)
  simp only [hij, decide_false, Bool.false_or, List.all_eq_true, decide_eq_true_eq] at hall
  exact hall k hk hheld

theorem committed_of_step (h : p.step s a = some s') :
    (s'.log = s.log ∧ s'.committed = s.committed) ∨ ∃ i t answer, s.sessions.row? i = some t ∧
      p.next t.at_ (t.write s.committed) s.serial = .commit answer ∧
      s'.committed = t.write s.committed ∧ s'.log = s.log ++ [answer] := by
  cases stepped_of_step h with
  | start r => exact .inl ⟨rfl, rfl⟩
  | go i t locks write next _ _ _ => exact .inl ⟨rfl, rfl⟩
  | commit i t answer ht hnext => exact .inr ⟨i, t, answer, ht, hnext, rfl, rfl⟩
  | fail _ i t _ _ => exact .inl ⟨rfl, rfl⟩

/-! ## One transaction at a time -/

/-- What a transaction comes to on its own from a point: the state it commits, or nothing. -/
inductive Program.Alone (p : Program ι σ κ β ℓ) : ℓ → σ → ℕ → Option σ → Prop
  | go {at_ next : ℓ} {d : σ} {n : ℕ} {locks : List κ} {write : σ → σ} {r : Option σ} :
      p.next at_ d n = .go locks write next → p.Alone next (write d) (n + 1) r → p.Alone at_ d n r
  | commit {at_ : ℓ} {d : σ} {n : ℕ} {answer : β} : p.next at_ d n = .commit answer →
      p.Alone at_ d n (some d)
  | rollback {at_ : ℓ} {d : σ} {n : ℕ} : p.next at_ d n = .rollback → p.Alone at_ d n none

/-- While no other transaction is under way, the moves of the only one lead to what it comes to. -/
theorem Program.Alone.run {at_ : ℓ} {d : σ} {n : ℕ} {r : Option σ} (h : p.Alone at_ d n r) :
    ∀ {s : State σ κ β ℓ} {t : Session σ κ ℓ}, at_ = t.at_ → d = t.write s.committed → n = s.serial →
      s.sessions.row? i = some t → (∀ j u, s.sessions.row? j = some u → j = i) →
      ∃ k s', Machine.run p.step s (List.replicate k (.move i)) = some s' ∧
        s'.committed = r.getD s.committed := by
  induction h with
  | go hnext _ ih =>
    rename_i at_ next d n locks write r _
    rintro s t rfl rfl rfl ht honly
    have hfree : s.free i locks = true := by
      unfold State.free
      rw [List.all_eq_true]
      intro x hx
      simp [honly x.1 x.2 (Slots.mem_all.mp hx)]
    have hstep : p.step s (.move i) = some { s with
        sessions := s.sessions.modify i fun t => ⟨next, write ∘ t.write, locks ++ t.held⟩
        serial := s.serial + 1 } := by
      simp only [Program.step, ht, Option.bind_some, Program.move, hnext, hfree, if_true]
    obtain ⟨k, s', hrun, hcommitted⟩ := @ih
      { s with
        sessions := s.sessions.modify i fun t => ⟨next, write ∘ t.write, locks ++ t.held⟩
        serial := s.serial + 1 }
      ⟨next, write ∘ t.write, locks ++ t.held⟩ rfl rfl rfl
      (by rw [Slots.row?_modify_self, ht, Option.map_some])
      (by
        intro j u hu
        rw [Slots.row?_modify] at hu
        split at hu
        · rename_i hij
          exact hij.symm
        · exact honly j u hu)
    exact ⟨k + 1, s', Machine.run_cons_eq_some.mpr ⟨_, hstep, hrun⟩, hcommitted⟩
  | commit hnext =>
    rename_i answer
    rintro s t rfl rfl rfl ht -
    have hstep : p.step s (.move i) = some { s with
        committed := t.write s.committed
        sessions := s.sessions.remove i
        log := s.log ++ [answer] } := by
      simp only [Program.step, ht, Option.bind_some, Program.move, hnext]
    exact ⟨1, _, Machine.run_cons_eq_some.mpr ⟨_, hstep, rfl⟩, rfl⟩
  | rollback hnext =>
    rintro s t rfl rfl rfl ht -
    have hstep : p.step s (.move i) = some { s with sessions := s.sessions.remove i } := by
      simp only [Program.step, ht, Option.bind_some, Program.move, hnext]
    exact ⟨1, _, Machine.run_cons_eq_some.mpr ⟨_, hstep, rfl⟩, rfl⟩

theorem Program.Alone.start {req : ι} {d : σ} {n : ℕ} {r : Option σ} (h : p.Alone (p.start req) d n r) :
    ∃ k s', Machine.run p.step { committed := d, serial := n }
      (.start req :: List.replicate k (.move 0)) =
      some s' ∧ s'.committed = r.getD d := by
  have hstep : p.step { committed := d, serial := n } (.start req) = some {
      committed := d, serial := n, sessions := ⟨[some { at_ := p.start req }]⟩ } := rfl
  obtain ⟨k, s', hrun, hcommitted⟩ := h.run
    (s := { committed := d, serial := n, sessions := ⟨[some { at_ := p.start req }]⟩ })
    (t := { at_ := p.start req }) (i := 0) rfl rfl rfl rfl (by
      intro j u hu
      exact (Prod.mk.inj (List.mem_singleton.mp (Slots.mem_all.mpr hu))).1)
  exact ⟨k, s', Machine.run_cons_eq_some.mpr ⟨_, hstep, hrun⟩, hcommitted⟩

/-! ## What holds of the committed state and of each transaction -/

/-- A transaction that makes its next move meets the guard. -/
def Guarded (G : σ → Session σ κ ℓ → Prop) (s : State σ κ β ℓ) (a : Act ι) (_ : State σ κ β ℓ) :
    Prop :=
  ∀ i t, a = .move i → s.sessions.row? i = some t → G s.committed t

/-- An invariant of the committed state and the answers, with what each transaction may rely on,
where the moves are guarded. -/
structure Keeps (p : Program ι σ κ β ℓ) (G : σ → Session σ κ ℓ → Prop)
    (I : σ → ℕ → List β → Prop) (A : σ → ℕ → Session σ κ ℓ → Prop) : Prop where
  start : ∀ s n log r, I s n log → A s n { at_ := p.start r }
  later : ∀ s n log, I s n log → I s (n + 1) log ∧ ∀ t, A s n t → A s (n + 1) t
  go : ∀ s n log t locks write next, I s n log → A s n t → G s t →
    p.next t.at_ (t.write s) n = .go locks write next →
      A s (n + 1) ⟨next, write ∘ t.write, locks ++ t.held⟩
  commit : ∀ s n log t answer, I s n log → A s n t → G s t →
    p.next t.at_ (t.write s) n = .commit answer → I (t.write s) n (log ++ [answer]) ∧
      ∀ u, A s n u → t.held.Disjoint u.held → A (t.write s) n u

variable {G : σ → Session σ κ ℓ → Prop} {I : σ → ℕ → List β → Prop} {A : σ → ℕ → Session σ κ ℓ → Prop}

/-- The invariant holds, the transactions may rely on what they do, and no lock is held twice. -/
structure Sound (I : σ → ℕ → List β → Prop) (A : σ → ℕ → Session σ κ ℓ → Prop)
    (s : State σ κ β ℓ) : Prop where
  committed : I s.committed s.serial s.log
  session : ∀ i t, s.sessions.row? i = some t → A s.committed s.serial t
  apart : ∀ i j t u, i ≠ j → s.sessions.row? i = some t → s.sessions.row? j = some u →
    t.held.Disjoint u.held

omit [DecidableEq κ] in
theorem Sound.init {d : σ} {n : ℕ} (h : I d n []) :
    Sound I A ({ committed := d, serial := n } : State σ κ β ℓ) where
  committed := h
  session i t ht := by simp [Slots.row?, Table.get?] at ht
  apart i j t u _ ht := by simp [Slots.row?, Table.get?] at ht

omit [DecidableEq κ] in
theorem Sound.start (hp : Keeps p G I A) (hs : Sound I A s) (r : ι) :
    Sound I A { s with sessions := s.sessions.add { at_ := p.start r } } where
  committed := hs.committed
  session j u hu := by
    rw [Slots.row?_add] at hu
    split at hu
    · cases hu
      exact hp.start _ _ _ r hs.committed
    · exact hs.session j u hu
  apart j k u v hjk hu hv := by
    rw [Slots.row?_add] at hu hv
    split at hu <;> split at hv
    · omega
    · cases hu
      exact List.disjoint_nil_left _
    · cases hv
      exact List.disjoint_nil_right _
    · exact hs.apart j k u v hjk hu hv

theorem Sound.go (hp : Keeps p G I A) (hs : Sound I A s) {locks : List κ} {write : σ → σ} {next : ℓ}
    (ht : s.sessions.row? i = some t) (hg : G s.committed t)
    (hnext : p.next t.at_ (t.write s.committed) s.serial = .go locks write next)
    (hfree : s.free i locks = true) :
    Sound I A { s with
      sessions := s.sessions.modify i fun t => ⟨next, write ∘ t.write, locks ++ t.held⟩
      serial := s.serial + 1 } where
  committed := (hp.later _ _ _ hs.committed).1
  session j u hu := by
    rw [Slots.row?_modify] at hu
    split at hu
    · subst i
      rw [ht] at hu
      cases hu
      exact hp.go _ _ _ t locks write next hs.committed (hs.session j t ht) hg hnext
    · exact (hp.later _ _ _ hs.committed).2 u (hs.session j u hu)
  apart j k u v hjk hu hv := by
    rw [Slots.row?_modify] at hu hv
    split at hu <;> split at hv
    · omega
    · subst i
      rw [ht] at hu
      cases hu
      refine List.disjoint_append_left.mpr ⟨?_, hs.apart j k t v hjk ht hv⟩
      exact not_mem_held_of_free hfree hv (Ne.symm hjk)
    · subst i
      rw [ht] at hv
      cases hv
      refine List.disjoint_append_right.mpr ⟨?_, hs.apart j k u t hjk hu ht⟩
      exact List.disjoint_comm.mp (not_mem_held_of_free hfree hu hjk)
    · exact hs.apart j k u v hjk hu hv

omit [DecidableEq κ] in
theorem Sound.fail (hs : Sound I A s) : Sound I A { s with sessions := s.sessions.remove i } where
  committed := hs.committed
  session j u hu := hs.session j u (Slots.row?_of_remove hu).2
  apart j k u v hjk hu hv := hs.apart j k u v hjk (Slots.row?_of_remove hu).2 (Slots.row?_of_remove hv).2

omit [DecidableEq κ] in
theorem Sound.commit (hp : Keeps p G I A) (hs : Sound I A s) {answer : β}
    (ht : s.sessions.row? i = some t) (hg : G s.committed t)
    (hnext : p.next t.at_ (t.write s.committed) s.serial = .commit answer) :
    Sound I A { s with
      committed := t.write s.committed
      sessions := s.sessions.remove i
      log := s.log ++ [answer] } := by
  obtain ⟨hcommitted, hothers⟩ := hp.commit _ _ _ t answer hs.committed (hs.session i t ht) hg
    hnext
  refine ⟨hcommitted, fun j u hu => ?_, fun j k u v hjk hu hv => ?_⟩
  · obtain ⟨hji, hu⟩ := Slots.row?_of_remove hu
    exact hothers u (hs.session j u hu) (hs.apart i j t u (Ne.symm hji) ht hu)
  · exact hs.apart j k u v hjk (Slots.row?_of_remove hu).2 (Slots.row?_of_remove hv).2

theorem Sound.step (hp : Keeps p G I A) (hs : Sound I A s) (hg : Guarded G s a s')
    (h : p.step s a = some s') : Sound I A s' := by
  cases stepped_of_step h with
  | start r => exact hs.start hp r
  | go i t locks write next ht hnext hfree => exact hs.go hp ht (hg i t rfl ht) hnext hfree
  | commit i t answer ht hnext => exact hs.commit hp ht (hg i t rfl ht) hnext
  | fail _ i t _ _ => exact hs.fail

end Overlap
