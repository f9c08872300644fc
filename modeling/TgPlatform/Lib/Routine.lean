import Mathlib.Data.List.Basic

/-! # Routines

A routine works on a state, keeps a log of what it does, and ends with an
answer or raises. Unlike a transaction's, its state and its log stay as they
are where it raises. A specification of a routine bounds its log however it
ends, and describes its log, its answer and its state where it answers.
-/

structure Ending (σ ω ε α : Type) where
  log : List ω
  state : σ
  result : Except ε α

def Routine (σ ω ε α : Type) : Type := σ → Ending σ ω ε α

namespace Routine

variable {σ ω ε α β : Type}

def ret (a : α) : Routine σ ω ε α := fun s => ⟨[], s, .ok a⟩

def andThen (m : Routine σ ω ε α) (k : α → Routine σ ω ε β) : Routine σ ω ε β := fun s =>
  match m s with
  | ⟨log, s', .error e⟩ => ⟨log, s', .error e⟩
  | ⟨log, s', .ok a⟩ => ⟨log ++ (k a s').log, (k a s').state, (k a s').result⟩

instance : Monad (Routine σ ω ε) where
  pure := ret
  bind := andThen

def read (f : σ → α) : Routine σ ω ε α := fun s => ⟨[], s, .ok (f s)⟩

def exec (f : σ → α × σ) : Routine σ ω ε α := fun s => ⟨[], (f s).2, .ok (f s).1⟩

def modify (f : σ → σ) : Routine σ ω ε Unit := exec fun s => ((), f s)

def emit (w : ω) : Routine σ ω ε Unit := fun s => ⟨[w], s, .ok ()⟩

def raise (e : ε) : Routine σ ω ε α := fun s => ⟨[], s, .error e⟩

/-- A call that may raise and has no other effect. -/
def attempt : Option ε → Routine σ ω ε Unit
  | none => ret ()
  | some e => raise e

/-- A clean-up before the exception goes on. -/
def onRaise (m : Routine σ ω ε α) (f : σ → σ) : Routine σ ω ε α := fun s =>
  match m s with
  | ⟨log, s', .error e⟩ => ⟨log, f s', .error e⟩
  | r => r

def each (f : α → Routine σ ω ε Unit) : List α → Routine σ ω ε Unit
  | [] => ret ()
  | a :: l => andThen (f a) fun _ => each f l

variable {m : Routine σ ω ε α} {k : α → Routine σ ω ε β} {f : α → Routine σ ω ε Unit} {s : σ} {a : α}

theorem bind_assoc {γ : Type} {k' : β → Routine σ ω ε γ} :
    ((m >>= k) >>= k') = (m >>= fun a => k a >>= k') := by
  funext s
  change andThen (andThen m k) k' s = andThen m (fun a => andThen (k a) k') s
  unfold andThen
  rcases m s with ⟨log, s', e | a⟩
  · rfl
  · dsimp only
    rcases k a s' with ⟨log', s'', e | b⟩
    · rfl
    · simp [List.append_assoc]

theorem each_modify {f : α → σ → σ} {l : List α} :
    (each (fun a => modify (f a)) l : Routine σ ω ε Unit) s =
      ⟨[], l.foldl (fun s a => f a s) s, .ok ()⟩ := by
  induction l generalizing s with
  | nil => rfl
  | cons a l ih =>
    change andThen (modify (f a)) (fun _ => (each (fun a => modify (f a)) l : Routine σ ω ε Unit)) s = _
    have hrest := ih (s := f a s)
    generalize (each (fun a => modify (f a)) l : Routine σ ω ε Unit) = rest at hrest ⊢
    unfold andThen modify exec
    dsimp only
    rw [hrest]
    rfl

/-! ## Specifications -/

/-- All that `m` logs satisfies `U`, and where it answers `Q` holds of its log, answer and state. -/
def Post (m : Routine σ ω ε α) (s : σ) (U : ω → Prop) (Q : List ω → α → σ → Prop) : Prop :=
  (∀ w ∈ (m s).log, U w) ∧ ∀ a, (m s).result = .ok a → Q (m s).log a (m s).state

variable {U U' : ω → Prop} {Q Q' : List ω → α → σ → Prop} {R : List ω → β → σ → Prop}

theorem Post.ret (h : Q [] a s) : Post (Routine.ret a : Routine σ ω ε α) s U Q := by
  constructor
  · intro w hw
    cases hw
  · rintro _ ⟨⟩
    exact h

theorem Post.andThen (h : Post m s U fun log a s' => Post (k a) s' U fun log' => R (log ++ log')) :
    Post (m.andThen k) s U R := by
  obtain ⟨hlog, hnext⟩ := h
  unfold Post Routine.andThen
  rcases hm : m s with ⟨log, s', _ | a⟩
  · rw [hm] at hlog
    exact ⟨hlog, nofun⟩
  · rw [hm] at hlog hnext
    obtain ⟨hlog', hnext'⟩ := hnext a rfl
    constructor
    · intro w hw
      exact (List.mem_append.mp hw).elim (hlog w) (hlog' w)
    · exact hnext'

theorem Post.bind (h : Post m s U fun log a s' => Post (k a) s' U fun log' => R (log ++ log')) :
    Post (m >>= k) s U R := Post.andThen h

theorem Post.pure (h : Q [] a s) : Post (Pure.pure a : Routine σ ω ε α) s U Q := Post.ret h

theorem Post.read {f : σ → α} (h : Q [] (f s) s) : Post (Routine.read f : Routine σ ω ε α) s U Q := by
  constructor
  · intro w hw
    cases hw
  · rintro _ ⟨⟩
    exact h

theorem Post.exec {f : σ → α × σ} (h : Q [] (f s).1 (f s).2) :
    Post (Routine.exec f : Routine σ ω ε α) s U Q := by
  constructor
  · intro w hw
    cases hw
  · rintro _ ⟨⟩
    exact h

theorem Post.modify {f : σ → σ} {Q : List ω → Unit → σ → Prop} (h : Q [] () (f s)) :
    Post (Routine.modify f : Routine σ ω ε Unit) s U Q := .exec h

theorem Post.emit {w : ω} {Q : List ω → Unit → σ → Prop} (hw : U w) (h : Q [w] () s) :
    Post (Routine.emit w : Routine σ ω ε Unit) s U Q := by
  constructor
  · intro w' hw'
    exact List.mem_singleton.mp hw' ▸ hw
  · rintro _ ⟨⟩
    exact h

theorem Post.raise {e : ε} : Post (Routine.raise e : Routine σ ω ε α) s U Q := by
  constructor
  · intro w hw
    cases hw
  · rintro _ ⟨⟩

theorem Post.onRaise {f : σ → σ} (h : Post m s U Q) : Post (m.onRaise f) s U Q := by
  unfold Post Routine.onRaise at *
  split <;> simp_all

theorem Post.mono (h : Post m s U Q) (hU : ∀ w, U w → U' w) (hQ : ∀ log a s', Q log a s' → Q' log a s') :
    Post m s U' Q' :=
  ⟨fun w hw => hU w (h.1 w hw), fun a ha => hQ _ a _ (h.2 a ha)⟩

/-- The invariant of a loop speaks of the elements that are done and of the log so far. -/
theorem Post.each {I : List α → List ω → σ → Prop} {l : List α}
    (step : ∀ done a rest, l = done ++ a :: rest → ∀ log s, I done log s →
      Post (f a) s U fun log' _ s' => I (done ++ [a]) (log ++ log') s')
    (h : I [] [] s) : Post (Routine.each f l) s U fun log _ s' => I l log s' := by
  suffices hrest : ∀ rest done log s, l = done ++ rest → I done log s →
      Post (Routine.each f rest) s U fun log' _ s' => I l (log ++ log') s' by
    simpa using hrest l [] [] s rfl h
  intro rest
  induction rest with
  | nil =>
    intro done log s hl hI
    obtain rfl : l = done := by simpa using hl
    exact .ret (by simpa using hI)
  | cons a rest ih =>
    intro done log s hl hI
    refine .andThen ((step done a rest hl log s hI).mono (fun _ hw => hw) fun log' _ s' hI' => ?_)
    simpa using ih (done ++ [a]) (log ++ log') s' (by simpa using hl) hI'

/-! ## Transactions -/

section Transaction

variable {τ : Type} (start : τ → σ) (commit : σ → Except ε τ)

/-- The routine works on a session of its own. What it leaves there is committed if it answers and
the commit succeeds, and is rolled back otherwise. -/
def transaction (m : Routine σ ω ε α) : Routine τ ω ε α := fun t =>
  match m (start t) with
  | ⟨log, _, .error e⟩ => ⟨log, t, .error e⟩
  | ⟨log, s, .ok a⟩ =>
    match commit s with
    | .error e => ⟨log, t, .error e⟩
    | .ok t' => ⟨log, t', .ok a⟩

def Refuses (m : Routine σ ω ε α) (s : σ) : Prop := ∃ e, (m s).result = .error e

/-- What a refused routine has logged holds of the state that its transaction leaves. -/
def KeepsLog (holds : ω → τ → Prop) (m : Routine σ ω ε α) (t : τ) : Prop :=
  Refuses m (start t) → ∀ w ∈ (m (start t)).log, holds w (transaction start commit m t).state

variable {start commit} {t : τ}

theorem transaction_of_refuses (h : Refuses m (start t)) : (transaction start commit m t).state = t := by
  obtain ⟨e, he⟩ := h
  unfold transaction
  rcases hm : m (start t) with ⟨log, s, e' | a⟩
  · rfl
  · rw [hm] at he
    cases he

/-- Where every entry of a log is news, only a refused routine without a log keeps it. -/
theorem keepsLog_iff {holds : ω → τ → Prop}
    (hnews : Refuses m (start t) → ∀ w ∈ (m (start t)).log, ¬ holds w t) :
    KeepsLog start commit holds m t ↔ (Refuses m (start t) → (m (start t)).log = []) := by
  constructor
  · intro h hrefuses
    have hkept := h hrefuses
    rw [transaction_of_refuses hrefuses] at hkept
    exact List.eq_nil_iff_forall_not_mem.mpr fun w hw => hnews hrefuses w hw (hkept w hw)
  · intro h hrefuses w hw
    rw [h hrefuses] at hw
    cases hw

end Transaction

/-! ## Why a routine raises -/

/-- The routine raises exactly if it logs something bad. -/
def Blames (bad : ω → Prop) (m : Routine σ ω ε α) : Prop :=
  ∀ s, (∃ e, (m s).result = .error e) ↔ ∃ w ∈ (m s).log, bad w

variable {bad : ω → Prop}

theorem Blames.ret : Blames bad (Routine.ret a : Routine σ ω ε α) := by
  intro s
  simp [Routine.ret]

theorem Blames.pure : Blames bad (Pure.pure a : Routine σ ω ε α) := Blames.ret

theorem Blames.andThen (hm : Blames bad m) (hk : ∀ a, Blames bad (k a)) : Blames bad (m.andThen k) := by
  intro s
  have hms := hm s
  unfold Routine.andThen
  rcases h : m s with ⟨log, s', e | a⟩
  · simpa [h] using hms
  · have hgood : ∀ w ∈ log, ¬ bad w := by simpa [h] using hms
    rw [hk a s']
    constructor
    · rintro ⟨w, hw, hbad⟩
      exact ⟨w, List.mem_append_right log hw, hbad⟩
    · rintro ⟨w, hw, hbad⟩
      rcases List.mem_append.mp hw with hw | hw
      · exact absurd hbad (hgood w hw)
      · exact ⟨w, hw, hbad⟩

theorem Blames.bind (hm : Blames bad m) (hk : ∀ a, Blames bad (k a)) : Blames bad (m >>= k) :=
  Blames.andThen hm hk

theorem Blames.read {f : σ → α} : Blames bad (Routine.read f : Routine σ ω ε α) := by
  intro s
  simp [Routine.read]

theorem Blames.exec {f : σ → α × σ} : Blames bad (Routine.exec f : Routine σ ω ε α) := by
  intro s
  simp [Routine.exec]

theorem Blames.modify {f : σ → σ} : Blames bad (Routine.modify f : Routine σ ω ε Unit) := .exec

theorem Blames.emit {w : ω} (hw : ¬ bad w) : Blames bad (Routine.emit w : Routine σ ω ε Unit) := by
  intro s
  simp [Routine.emit, hw]

theorem Blames.announce {w : ω} {m : Routine σ ω ε α} (hbad : bad w → ∀ s, ∃ e, (m s).result = .error e)
    (hgood : ¬ bad w → Blames bad m) : Blames bad (Routine.emit w >>= fun _ => m) := by
  by_cases hw : bad w
  · intro s
    constructor
    · intro
      exact ⟨w, List.mem_append_left _ (List.mem_singleton_self w), hw⟩
    · intro
      exact hbad hw s
  · exact .bind (.emit hw) fun _ => hgood hw

theorem Blames.onRaise {f : σ → σ} (hm : Blames bad m) : Blames bad (m.onRaise f) := by
  intro s
  have hms := hm s
  unfold Routine.onRaise
  rcases h : m s with ⟨log, s', e | a⟩ <;> simpa [h] using hms

theorem Blames.each {l : List α} (hf : ∀ a, Blames bad (f a)) : Blames bad (Routine.each f l) := by
  induction l with
  | nil => exact .ret
  | cons a l ih => exact .andThen (hf a) fun _ => ih

theorem Post.blameless (h : Post m s U Q) (hm : Blames bad m) :
    Post m s U fun log a s' => Q log a s' ∧ ∀ w ∈ log, ¬ bad w := by
  refine ⟨h.1, fun a ha => ⟨h.2 a ha, fun w hw hbad => ?_⟩⟩
  obtain ⟨e, he⟩ := (hm s).mpr ⟨w, hw, hbad⟩
  rw [he] at ha
  cases ha

/-! ## What a routine leaves -/

/-- A relation of the states before and after a stretch of the log that holds over the empty
stretch and over any two in a row. -/
structure Sequential (R : σ → List ω → σ → Prop) : Prop where
  refl : ∀ s, R s [] s
  append : ∀ s log s' log' s'', R s log s' → R s' log' s'' → R s (log ++ log') s''

/-- However the routine ends, it leaves states and log related. -/
def Yields (R : σ → List ω → σ → Prop) (m : Routine σ ω ε α) : Prop := ∀ s, R s (m s).log (m s).state

namespace Yields

variable {R R' : σ → List ω → σ → Prop}

theorem mono (hm : Yields R m) (h : ∀ s log s', R s log s' → R' s log s') : Yields R' m :=
  fun s => h _ _ _ (hm s)

variable (hR : Sequential R)
include hR

theorem ret : Yields R (Routine.ret a : Routine σ ω ε α) := hR.refl

theorem pure : Yields R (Pure.pure a : Routine σ ω ε α) := hR.refl

theorem raise {e : ε} : Yields R (Routine.raise e : Routine σ ω ε α) := hR.refl

theorem read {f : σ → α} : Yields R (Routine.read f : Routine σ ω ε α) := hR.refl

omit hR in
theorem exec {f : σ → α × σ} (h : ∀ s, R s [] (f s).2) : Yields R (Routine.exec f : Routine σ ω ε α) := h

omit hR in
theorem modify {f : σ → σ} (h : ∀ s, R s [] (f s)) :
    Yields R (Routine.modify f : Routine σ ω ε Unit) := h

omit hR in
theorem emit {w : ω} (h : ∀ s, R s [w] s) : Yields R (Routine.emit w : Routine σ ω ε Unit) := h

theorem andThen (hm : Yields R m) (hk : ∀ a, Yields R (k a)) : Yields R (m.andThen k) := by
  intro s
  have hms := hm s
  unfold Routine.andThen
  rcases h : m s with ⟨log, s', e | a⟩ <;> rw [h] at hms
  · exact hms
  · exact hR.append _ _ _ _ _ hms (hk a s')

theorem bind (hm : Yields R m) (hk : ∀ a, Yields R (k a)) : Yields R (m >>= k) := andThen hR hm hk

omit hR in
theorem read_bind {f : σ → α} (h : ∀ s, R s (k (f s) s).log (k (f s) s).state) :
    Yields R (Routine.read f >>= k) := by
  intro s
  exact h s

theorem onRaise {f : σ → σ} (hm : Yields R m) (hf : ∀ s, R s [] (f s)) : Yields R (m.onRaise f) := by
  intro s
  have hms := hm s
  unfold Routine.onRaise
  rcases h : m s with ⟨log, s', e | a⟩ <;> rw [h] at hms
  · simpa using hR.append _ _ _ _ _ hms (hf s')
  · exact hms

theorem each {l : List α} (hf : ∀ a ∈ l, Yields R (f a)) : Yields R (Routine.each f l) := by
  induction l with
  | nil => exact hR.refl
  | cons a l ih =>
    apply andThen hR (hf a List.mem_cons_self)
    intro _
    exact ih fun b hb => hf b (List.mem_cons_of_mem a hb)

end Yields

end Routine
