import Mathlib.Data.List.Basic
import Mathlib.Order.Defs.Unbundled
import TgPlatform.Lib.View

/-! # Transactions

A transaction reads and writes a state and may fail, which rolls the state
back; what it has done outside the database stays in a log. Two kinds of
statements about a transaction compose along its steps: what it may do and
leave behind, and that it reads and writes no more than an observer sees.
-/

/-- A transaction on states `σ` with log entries `ω` and failures `ε`. -/
def Txn (σ ω ε α : Type) : Type := σ → List ω × Except ε (α × σ)

namespace Txn

variable {σ τ ω ε α β : Type}

def ret (a : α) : Txn σ ω ε α := fun s => ([], .ok (a, s))

def andThen (m : Txn σ ω ε α) (k : α → Txn σ ω ε β) : Txn σ ω ε β := fun s =>
  match m s with
  | (log, .error e) => (log, .error e)
  | (log, .ok (a, s')) => (log ++ (k a s').1, (k a s').2)

instance : Monad (Txn σ ω ε) where
  pure := ret
  bind := andThen

def read (f : σ → α) : Txn σ ω ε α := fun s => ([], .ok (f s, s))

def write (f : σ → σ) : Txn σ ω ε Unit := fun s => ([], .ok ((), f s))

def throw (e : ε) : Txn σ ω ε α := fun _ => ([], .error e)

def emit (w : ω) : Txn σ ω ε Unit := fun s => ([w], .ok ((), s))

def map (m : Txn σ ω ε α) (f : α → β) : Txn σ ω ε β := m.andThen fun a => ret (f a)

/-- A step written as a function of the state. -/
def exec (f : σ → Except ε (α × σ)) : Txn σ ω ε α := fun s => ([], f s)

def lift : Except ε α → Txn σ ω ε α
  | .ok a => ret a
  | .error e => throw e

/-- A savepoint: a caught failure rolls back to it and answers `otherwise`. -/
def attempt (m : Txn σ ω ε α) (caught : ε → Bool) (otherwise : α) : Txn σ ω ε α := fun s =>
  match m s with
  | (log, .error e) => (log, if caught e then .ok (otherwise, s) else .error e)
  | r => r

def each (f : α → Txn σ ω ε Unit) : List α → Txn σ ω ε Unit
  | [] => ret ()
  | a :: l => andThen (f a) fun _ => each f l

def collect (f : α → Txn σ ω ε β) : List α → Txn σ ω ε (List β)
  | [] => ret []
  | a :: l => andThen (f a) fun b => (collect f l).map fun bs => b :: bs

/-- The first element for which the loop body answers. -/
def firstSome (f : α → Txn σ ω ε (Option β)) : List α → Txn σ ω ε (Option β)
  | [] => ret none
  | a :: l => andThen (f a) fun b => match b with
    | some b => ret (some b)
    | none => firstSome f l

/-- The state after the transaction: a failure rolls it back. -/
def commit (m : Txn σ ω ε α) (s : σ) : σ :=
  match (m s).2 with
  | .ok (_, s') => s'
  | .error _ => s

def answer (m : Txn σ ω ε α) (s : σ) : Except ε α := (m s).2.map Prod.fst

variable {m : Txn σ ω ε α} {k : α → Txn σ ω ε β} {s s' : σ} {a : α} {b : β}

/-! ## What a transaction may do -/

/-- All that `m` logs satisfies `U`, and if it succeeds its answer and its state satisfy `Q`. -/
def Post (m : Txn σ ω ε α) (s : σ) (U : ω → Prop) (Q : α → σ → Prop) : Prop :=
  (∀ w ∈ (m s).1, U w) ∧ ∀ a s', (m s).2 = .ok (a, s') → Q a s'

variable {U : ω → Prop} {Q Q' : α → σ → Prop} {R : β → σ → Prop}

theorem Post.ret (h : Q a s) : Post (Txn.ret a : Txn σ ω ε α) s U Q :=
  ⟨fun _ hw => (List.not_mem_nil hw).elim, fun _ _ heq => by cases heq; exact h⟩

theorem Post.andThen (h : Post m s U fun a s' => Post (k a) s' U R) :
    Post (m.andThen k) s U R := by
  obtain ⟨hlog, hnext⟩ := h
  unfold Post Txn.andThen
  cases hm : m s with
  | mk log r =>
    rw [hm] at hlog hnext
    cases r with
    | error e => exact ⟨hlog, fun _ _ heq => by cases heq⟩
    | ok x =>
      obtain ⟨hlog', hnext'⟩ := hnext x.1 x.2 rfl
      constructor
      · intro w hw
        exact (List.mem_append.mp hw).elim (hlog w) (hlog' w)
      · exact hnext'

theorem Post.bind (h : Post m s U fun a s' => Post (k a) s' U R) : Post (m >>= k) s U R :=
  Post.andThen h

theorem Post.read {f : σ → α} (h : Q (f s) s) : Post (Txn.read f : Txn σ ω ε α) s U Q :=
  ⟨fun _ hw => (List.not_mem_nil hw).elim, fun _ _ heq => by cases heq; exact h⟩

theorem Post.write {f : σ → σ} {Q : Unit → σ → Prop} (h : Q () (f s)) :
    Post (Txn.write f : Txn σ ω ε Unit) s U Q :=
  ⟨fun _ hw => (List.not_mem_nil hw).elim, fun _ _ heq => by cases heq; exact h⟩

theorem Post.throw {e : ε} : Post (Txn.throw e : Txn σ ω ε α) s U Q :=
  ⟨fun _ hw => (List.not_mem_nil hw).elim, fun _ _ heq => by cases heq⟩

theorem Post.emit {w : ω} {Q : Unit → σ → Prop} (hw : U w) (h : Q () s) :
    Post (Txn.emit w : Txn σ ω ε Unit) s U Q :=
  ⟨fun _ hmem => List.mem_singleton.mp hmem ▸ hw, fun _ _ heq => by cases heq; exact h⟩

theorem Post.exec {f : σ → Except ε (α × σ)} (h : ∀ a s', f s = .ok (a, s') → Q a s') :
    Post (Txn.exec f : Txn σ ω ε α) s U Q :=
  ⟨fun _ hw => (List.not_mem_nil hw).elim, h⟩

theorem Post.lift {r : Except ε α} (h : ∀ a, r = .ok a → Q a s) :
    Post (Txn.lift r : Txn σ ω ε α) s U Q := by
  cases r with
  | ok a => exact .ret (h a rfl)
  | error e => exact .throw

theorem Post.mono (h : Post m s U Q) (hQ : ∀ a s', Q a s' → Q' a s') : Post m s U Q' :=
  ⟨h.1, fun a s' heq => hQ a s' (h.2 a s' heq)⟩

theorem Post.and (h : Post m s U Q) (h' : Post m s U Q') : Post m s U fun a s' => Q a s' ∧ Q' a s' :=
  ⟨h.1, fun a s' ha => ⟨h.2 a s' ha, h'.2 a s' ha⟩⟩

theorem Post.map {f : α → β} {R : β → σ → Prop} (h : Post m s U fun a s' => R (f a) s') :
    Post (m.map f) s U R :=
  .andThen (h.mono fun _ _ hR => .ret hR)

theorem Post.attempt {caught : ε → Bool} {otherwise : α} (h : Post m s U Q) (ho : Q otherwise s) :
    Post (m.attempt caught otherwise) s U Q := by
  unfold Post Txn.attempt
  obtain ⟨hlog, hnext⟩ := h
  cases hm : m s with
  | mk log r =>
    rw [hm] at hlog hnext
    cases r with
    | ok x => exact ⟨hlog, hnext⟩
    | error e =>
      refine ⟨hlog, fun a s' heq => ?_⟩
      dsimp only at heq
      split at heq
      · cases heq
        exact ho
      · cases heq

theorem Post.each {f : α → Txn σ ω ε Unit} {I : σ → Prop} : ∀ {l : List α} {s : σ},
    (∀ a ∈ l, ∀ s, I s → Post (f a) s U fun _ s' => I s') → I s →
      Post (Txn.each f l) s U fun _ s' => I s'
  | [], _, _, hs => .ret hs
  | a :: _, s, h, hs => .andThen <| (h a (List.mem_cons_self ..) s hs).mono fun _ _ hs' =>
    Post.each (fun b hb => h b (List.mem_cons_of_mem a hb)) hs'

theorem Post.each_all {f : α → Txn σ ω ε Unit} {P : α → Prop} {l : List α} {s : σ}
    (h : ∀ a ∈ l, ∀ s, Post (f a) s U fun _ _ => P a) :
    Post (Txn.each f l) s U fun _ _ => ∀ a ∈ l, P a := by
  induction l generalizing s with
  | nil => exact .ret (by simp)
  | cons a l ih =>
    refine .andThen ((h a List.mem_cons_self s).mono fun _ _ ha => ?_)
    refine (ih fun b hb => h b (List.mem_cons_of_mem a hb)).mono fun _ _ hl => ?_
    exact List.forall_mem_cons.mpr ⟨ha, hl⟩

theorem Post.each_tests {f : α → Txn σ ω ε Unit} {P : α → Prop} {l : List α} {s : σ}
    (h : ∀ a ∈ l, Post (f a) s U fun _ s' => P a ∧ s' = s) :
    Post (Txn.each f l) s U fun _ s' => (∀ a ∈ l, P a) ∧ s' = s := by
  induction l with
  | nil => exact .ret ⟨by simp, rfl⟩
  | cons a l ih =>
    refine .andThen ((h a List.mem_cons_self).mono ?_)
    rintro _ s' ⟨ha, rfl⟩
    refine (ih fun b hb => h b (List.mem_cons_of_mem a hb)).mono ?_
    rintro _ s' ⟨hl, rfl⟩
    exact ⟨List.forall_mem_cons.mpr ⟨ha, hl⟩, rfl⟩

theorem Post.each_foldl {f : α → Txn σ ω ε Unit} {w : σ → α → σ} : ∀ {l : List α} {s : σ},
    (∀ a ∈ l, ∀ s, Post (f a) s U fun _ s' => s' = w s a) →
      Post (Txn.each f l) s U fun _ s' => s' = l.foldl w s
  | [], _, _ => .ret rfl
  | a :: _, s, h => .andThen <| (h a (List.mem_cons_self ..) s).mono fun _ _ hs' => by
    subst hs'
    exact Post.each_foldl fun b hb => h b (List.mem_cons_of_mem a hb)

theorem Post.collect {f : α → Txn σ ω ε β} {I : σ → Prop} : ∀ {l : List α} {s : σ},
    (∀ a ∈ l, ∀ s, I s → Post (f a) s U fun _ s' => I s') → I s →
      Post (Txn.collect f l) s U fun _ s' => I s'
  | [], _, _, hs => .ret hs
  | a :: _, s, h, hs => .andThen <| (h a (List.mem_cons_self ..) s hs).mono fun _ _ hs' =>
    .map (Post.collect (fun b hb => h b (List.mem_cons_of_mem a hb)) hs')

theorem Post.firstSome {f : α → Txn σ ω ε (Option β)} {I : σ → Prop} {P : β → Prop} :
    ∀ {l : List α} {s : σ},
    (∀ a ∈ l, ∀ s, I s → Post (f a) s U fun b s' => I s' ∧ ∀ x, b = some x → P x) → I s →
      Post (Txn.firstSome f l) s U fun b s' => I s' ∧ ∀ x, b = some x → P x
  | [], _, _, hs => .ret ⟨hs, fun _ hx => by cases hx⟩
  | a :: l, s, h, hs => by
    refine .andThen <| (h a (List.mem_cons_self ..) s hs).mono fun b s' hs' => ?_
    cases b with
    | some b => exact .ret hs'
    | none => exact Post.firstSome (fun b hb => h b (List.mem_cons_of_mem a hb)) hs'.1

theorem Post.commit {I : σ → Prop} (h : Post m s U fun _ s' => I s') (hs : I s) :
    I (m.commit s) := by
  unfold Txn.commit
  split
  · rename_i a s' heq
    exact h.2 a s' heq
  · exact hs

theorem Post.answer (h : Post m s U Q) (ha : m.answer s = .ok a) : Q a (m.commit s) := by
  obtain ⟨_, hnext⟩ := h
  unfold Txn.answer Txn.commit at *
  rcases hm : (m s).2 with e | ⟨b, s'⟩
  · rw [hm] at ha
    cases ha
  · rw [hm] at ha
    cases ha
    exact hnext _ s' hm

@[simp] theorem commit_map {f : α → β} : (m.map f).commit s = m.commit s := by
  unfold Txn.commit Txn.map Txn.andThen
  rcases m s with ⟨log, e | ⟨a, s'⟩⟩ <;> rfl

@[simp] theorem answer_map {f : α → β} : (m.map f).answer s = (m.answer s).map f := by
  unfold Txn.answer Txn.map Txn.andThen
  rcases m s with ⟨log, e | ⟨a, s'⟩⟩ <;> rfl

/-- A transaction leaves the state as it was, or answers. -/
theorem commit_cases : m.commit s = s ∧ (∃ e, m.answer s = .error e) ∨
    ∃ a, (m s).2 = .ok (a, m.commit s) ∧ m.answer s = .ok a := by
  unfold Txn.commit Txn.answer
  rcases m s with ⟨log, e | ⟨a, s'⟩⟩
  · exact .inl ⟨rfl, e, rfl⟩
  · exact .inr ⟨a, rfl, rfl⟩

def ended (m : Txn σ ω ε α) (s : σ) : Option σ := (m s).2.toOption.map Prod.snd

theorem ended_cases : (m.ended s = none ∧ ∃ e, m.answer s = .error e) ∨
    ∃ a, m.ended s = some (m.commit s) ∧ m.answer s = .ok a := by
  unfold ended Txn.commit Txn.answer
  rcases (m s).2 with e | ⟨a, s'⟩
  · exact .inl ⟨rfl, e, rfl⟩
  · exact .inr ⟨a, rfl, rfl⟩

theorem ended_read_bind {f : σ → α} : (read f >>= k).ended s = (k (f s)).ended s := rfl

theorem ended_ret_bind : (ret a >>= k).ended s = (k a).ended s := rfl

theorem ended_map {f : α → β} : (m.map f).ended s = m.ended s := by
  unfold ended Txn.map Txn.andThen
  rcases m s with ⟨log, e | ⟨a, s'⟩⟩ <;> rfl

theorem ended_bind_bind_read {γ : Type} {f : α → β → σ → γ} :
    (m >>= fun a => k a >>= fun b => read (f a b)).ended s = (m >>= k).ended s := by
  change (m.andThen fun a => (k a).andThen _).ended s = (m.andThen k).ended s
  unfold ended andThen
  rcases m s with ⟨log, e | ⟨a, s'⟩⟩
  · rfl
  · dsimp only
    rcases k a s' with ⟨log', e | ⟨b, s''⟩⟩ <;> rfl

theorem each_write_ok {f : α → σ → σ} (l : List α) (s : σ) :
    ((each (fun a => write (f a)) l : Txn σ ω ε Unit) s).2 = .ok ((), l.foldl (fun s a => f a s) s) := by
  induction l generalizing s with
  | nil => rfl
  | cons a l ih =>
    change ((write (f a)).andThen (fun _ => each (fun a => write (f a)) l) s : _ × _).2 = _
    rw [List.foldl_cons, ← ih (f a s)]
    rfl

theorem ended_each_write {f : α → σ → σ} (l : List α) (s : σ) :
    (each (fun a => write (f a)) l : Txn σ ω ε Unit).ended s = some (l.foldl (fun s a => f a s) s) := by
  unfold ended
  rw [each_write_ok]
  rfl

/-! ## Transactions that succeed -/

theorem commit_of_ok (h : (m s).2 = .ok (a, s')) : m.commit s = s' := by
  unfold commit
  rw [h]

theorem ok_bind (h : (m s).2 = .ok (a, s')) : ((m >>= k) s).2 = (k a s').2 := by
  change (m.andThen k s).2 = _
  unfold andThen
  rcases hm : m s with ⟨log, r⟩
  rw [hm] at h
  cases h
  rfl

theorem ok_read_bind {f : σ → α} : ((read f >>= k) s).2 = (k (f s) s).2 := rfl

theorem ok_ret_bind : ((ret a >>= k) s).2 = (k a s).2 := rfl

theorem commit_of_error {e : ε} (h : (m s).2 = .error e) : m.commit s = s := by
  unfold commit
  rw [h]

theorem error_bind {e : ε} (h : (m s).2 = .error e) : ((m >>= k) s).2 = .error e := by
  change (m.andThen k s).2 = _
  unfold andThen
  rcases hm : m s with ⟨log, r⟩
  rw [hm] at h
  cases h
  rfl

theorem bind_assoc {γ : Type} {k' : β → Txn σ ω ε γ} :
    ((m >>= k) >>= k') = (m >>= fun a => k a >>= k') := by
  funext s
  change (m.andThen k).andThen k' s = m.andThen (fun a => (k a).andThen k') s
  unfold andThen
  rcases m s with ⟨log, e | ⟨a, s'⟩⟩
  · rfl
  · dsimp only
    rcases k a s' with ⟨log', e | ⟨b, s''⟩⟩
    · rfl
    · dsimp only
      rw [List.append_assoc]

theorem throw_bind {e : ε} : ((throw e : Txn σ ω ε α) >>= k) = throw e := rfl

theorem ret_bind : (ret a >>= k) = k a := by
  funext s
  rfl

theorem map_eq {f : α → β} : m.map f = (m >>= fun a => ret (f a)) := rfl

theorem bind_ret_unit {m : Txn σ ω ε Unit} : (m >>= fun _ => ret ()) = m := by
  funext s
  change m.andThen _ s = m s
  unfold andThen
  rcases m s with ⟨log, e | ⟨a, s'⟩⟩
  · rfl
  · simp [ret]

theorem ite_bind {c : Prop} [Decidable c] {m' : Txn σ ω ε α} :
    ((if c then m else m') >>= k) = if c then m >>= k else m' >>= k := by
  split <;> rfl

/-- A test that does not use what was read may come before the read. -/
theorem read_bind_ite {γ : Type} {f : σ → γ} {c : Prop} [Decidable c] {e : ε} {k : γ → Txn σ ω ε β} :
    (read f >>= fun a => if c then throw e else k a) = if c then throw e else read f >>= k := by
  split <;> rfl

theorem answer_bind : (m >>= k).answer s =
    match (m s).2 with
    | .ok (a, s') => (k a).answer s'
    | .error e => .error e := by
  change (m.andThen k).answer s = _
  unfold answer andThen
  rcases m s with ⟨log, e | ⟨a, s'⟩⟩ <;> rfl

theorem firstSome_ok {f : α → Txn σ ω ε (Option β)} {g : α → Option β} {l : List α}
    (h : ∀ a ∈ l, (f a s).2 = .ok (g a, s)) : (firstSome f l s).2 = .ok (l.findSome? g, s) := by
  induction l with
  | nil => rfl
  | cons a l ih =>
    have hrest := ih fun b hb => h b (List.mem_cons_of_mem a hb)
    refine (ok_bind (h a List.mem_cons_self)).trans ?_
    rw [List.findSome?_cons]
    cases g a with
    | none => exact hrest
    | some b => rfl

theorem collect_ok {f : α → Txn σ ω ε β} {w : σ → α → σ} {I : σ → Prop} :
    ∀ {l : List α} {s : σ}, I s →
      (∀ a ∈ l, ∀ s, I s → I (w s a) ∧ ∃ b, (f a s).2 = .ok (b, w s a)) →
        ∃ bs, (collect f l s).2 = .ok (bs, l.foldl w s)
  | [], _, _, _ => ⟨[], rfl⟩
  | a :: l, s, hs, h => by
    obtain ⟨hs', b, hb⟩ := h a List.mem_cons_self s hs
    obtain ⟨bs, hbs⟩ := collect_ok hs' fun c hc => h c (List.mem_cons_of_mem a hc)
    refine ⟨b :: bs, (ok_bind hb).trans ?_⟩
    exact ok_bind hbs

/-- A caught failure leaves what was there before, as if it had been rolled back. -/
theorem Post.attempt_eq {caught : ε → Bool} {otherwise : α} :
    Post (m.attempt caught otherwise) s (fun _ => True) fun _ s' => s' = m.commit s := by
  refine ⟨fun _ _ => trivial, fun a s' heq => ?_⟩
  unfold Txn.attempt at heq
  unfold Txn.commit
  cases hm : m s with
  | mk log r =>
    rw [hm] at heq
    cases r with
    | error e =>
      dsimp only at heq ⊢
      split at heq <;> cases heq
      rfl
    | ok x =>
      cases heq
      rfl

theorem bind_congr {k' : α → Txn σ ω ε β} (h : ∀ a s', (m s).2 = .ok (a, s') → k a s' = k' a s') :
    (m >>= k) s = (m >>= k') s := by
  change m.andThen k s = m.andThen k' s
  unfold Txn.andThen
  cases hm : m s with
  | mk log r =>
    cases r with
    | error e => rfl
    | ok x =>
      dsimp only
      rw [h x.1 x.2 (by rw [hm])]

theorem bind_congr_post {k' : α → Txn σ ω ε β} (hpost : Post m s U Q)
    (h : ∀ a s', Q a s' → k a s' = k' a s') : (m >>= k) s = (m >>= k') s :=
  bind_congr fun a s' heq => h a s' (hpost.2 a s' heq)

/-! ## Transactions that write nothing -/

/-- The transaction comes to this outcome and leaves the state as it is. -/
def Yields (m : Txn σ ω ε α) (s : σ) (x : Except ε α) : Prop := (m s).2 = x.map fun a => (a, s)

section Yields

variable {x : Except ε α} {e : ε}

theorem Yields.ret : Yields (Txn.ret a : Txn σ ω ε α) s (.ok a) := rfl

theorem Yields.throw : Yields (Txn.throw e : Txn σ ω ε α) s (.error e) := rfl

theorem Yields.lift : Yields (Txn.lift x : Txn σ ω ε α) s x := by
  cases x <;> rfl

theorem Yields.bind {y : Except ε β} (hm : Yields m s (.ok a)) (hk : Yields (k a) s y) :
    Yields (m >>= k) s y := (ok_bind hm).trans hk

theorem Yields.bind_error (hm : Yields m s (.error e)) : Yields (m >>= k) s (.error e) :=
  error_bind hm

theorem Yields.read_bind {f : σ → α} {y : Except ε β} (hk : Yields (k (f s)) s y) :
    Yields (read f >>= k) s y := hk

theorem Yields.emit_bind {w : ω} {k : Unit → Txn σ ω ε β} {y : Except ε β} (hk : Yields (k ()) s y) :
    Yields (emit w >>= k) s y := hk

theorem Yields.answer (h : Yields m s x) : m.answer s = x := by
  unfold Txn.answer
  rw [h]
  cases x <;> rfl

end Yields

/-! ## What every transaction of a kind does -/

/-- Whatever the state before, the transaction leaves one that `R` relates to it. -/
def Does (R : σ → σ → Prop) (m : Txn σ ω ε α) : Prop :=
  ∀ s, Post m s (fun _ => True) fun _ s' => R s s'

section Does

variable {P : σ → σ → Prop}

theorem Does.mono {P' : σ → σ → Prop} (hP : ∀ s s', P s s' → P' s s') (h : Does P m) : Does P' m :=
  fun s => (h s).mono fun _ s' => hP s s'

theorem Does.write {f : σ → σ} (h : ∀ s, P s (f s)) : Does P (Txn.write f : Txn σ ω ε Unit) :=
  fun s => .write (h s)

theorem Does.throw {e : ε} : Does P (Txn.throw e : Txn σ ω ε α) := fun _ => .throw

section Refl

variable [Std.Refl P]

theorem Does.ret : Does P (Txn.ret a : Txn σ ω ε α) := fun s => .ret (Std.Refl.refl s)

theorem Does.read {f : σ → α} : Does P (Txn.read f : Txn σ ω ε α) :=
  fun s => .read (Std.Refl.refl s)

theorem Does.emit {w : ω} : Does P (Txn.emit w : Txn σ ω ε Unit) :=
  fun s => .emit trivial (Std.Refl.refl s)

theorem Does.lift {r : Except ε α} : Does P (Txn.lift r : Txn σ ω ε α) :=
  fun s => .lift fun _ _ => Std.Refl.refl s

theorem Does.attempt {caught : ε → Bool} {otherwise : α} (h : Does P m) :
    Does P (m.attempt caught otherwise) := fun s => (h s).attempt (Std.Refl.refl s)

theorem Does.commit (h : Does P m) (s : σ) : P s (m.commit s) :=
  (h s).commit (I := fun s' => P s s') (Std.Refl.refl s)

end Refl

variable [IsTrans σ P]

theorem Does.bind (hm : Does P m) (hk : ∀ a, Does P (k a)) : Does P (m >>= k) := by
  intro s
  refine .bind ((hm s).mono fun a s' h => ?_)
  exact (hk a s').mono fun _ _ h' => IsTrans.trans _ _ _ h h'

theorem Does.map [Std.Refl P] {f : α → β} (h : Does P m) : Does P (m.map f) :=
  .bind h fun _ => .ret

theorem Does.each [Std.Refl P] {f : α → Txn σ ω ε Unit} :
    ∀ {l : List α}, (∀ a ∈ l, Does P (f a)) → Does P (Txn.each f l)
  | [], _ => .ret
  | a :: _, h => .bind (h a (List.mem_cons_self ..)) fun _ =>
    Does.each fun b hb => h b (List.mem_cons_of_mem a hb)

theorem Does.collect [Std.Refl P] {f : α → Txn σ ω ε β} :
    ∀ {l : List α}, (∀ a ∈ l, Does P (f a)) → Does P (Txn.collect f l)
  | [], _ => .ret
  | a :: _, h => .bind (h a (List.mem_cons_self ..)) fun _ =>
    .map (Does.collect fun b hb => h b (List.mem_cons_of_mem a hb))

end Does

/-! ## What a transaction depends on -/

def viewed (f : σ → σ) (r : List ω × Except ε (α × σ)) : List ω × Except ε (α × σ) :=
  (r.1, r.2.map fun x => (x.1, f x.2))

/-- On what `v` sees of the state the transaction does the same, and what `hide` is left with it
does not change. -/
structure Confined (v : View σ) (hide : σ → τ) (m : Txn σ ω ε α) (s : σ) : Prop where
  same : m (v.see s) = viewed v.see (m s)
  frame : ∀ a s', (m s).2 = .ok (a, s') → hide s' = hide s

variable {v : View σ} {hide : σ → τ}

theorem Confined.ret : Confined v hide (Txn.ret a : Txn σ ω ε α) s :=
  ⟨rfl, fun _ _ heq => by cases heq; rfl⟩

theorem Confined.throw {e : ε} : Confined v hide (Txn.throw e : Txn σ ω ε α) s :=
  ⟨rfl, fun _ _ heq => by cases heq⟩

theorem Confined.emit {x : ω} : Confined v hide (Txn.emit x : Txn σ ω ε Unit) s :=
  ⟨rfl, fun _ _ heq => by cases heq; rfl⟩

theorem Confined.exec {f : σ → Except ε (α × σ)}
    (hv : f (v.see s) = (f s).map fun x => (x.1, v.see x.2))
    (hhide : ∀ a s', f s = .ok (a, s') → hide s' = hide s) :
    Confined v hide (Txn.exec f : Txn σ ω ε α) s :=
  ⟨by simp [Txn.exec, viewed, hv], hhide⟩

theorem Confined.lift {r : Except ε α} : Confined v hide (Txn.lift r : Txn σ ω ε α) s := by
  cases r with
  | ok a => exact .ret
  | error e => exact .throw

theorem Confined.read {f : σ → α} (h : f (v.see s) = f s) :
    Confined v hide (Txn.read f : Txn σ ω ε α) s :=
  ⟨by simp [Txn.read, viewed, h, Except.map], fun _ _ heq => by cases heq; rfl⟩

theorem Confined.write {f : σ → σ} (hv : f (v.see s) = v.see (f s)) (hhide : hide (f s) = hide s) :
    Confined v hide (Txn.write f : Txn σ ω ε Unit) s :=
  ⟨by simp [Txn.write, viewed, hv, Except.map], fun _ _ heq => by cases heq; exact hhide⟩

theorem Confined.of_write {f : σ → σ} (h : Confined v hide (Txn.write f : Txn σ ω ε Unit) s) :
    f (v.see s) = v.see (f s) ∧ hide (f s) = hide s := by
  constructor
  · have hsame := congrArg Prod.snd h.same
    simpa [Txn.write, viewed, Except.map] using hsame
  · exact h.frame () _ rfl

theorem Confined.write_comp {f g : σ → σ} (hf : Confined v hide (Txn.write f : Txn σ ω ε Unit) s)
    (hg : Confined v hide (Txn.write g : Txn σ ω ε Unit) (f s)) :
    Confined v hide (Txn.write (fun s => g (f s)) : Txn σ ω ε Unit) s := by
  obtain ⟨hfv, hfh⟩ := hf.of_write
  obtain ⟨hgv, hgh⟩ := hg.of_write
  apply Confined.write
  · rw [hfv, hgv]
  · rw [hgh, hfh]

theorem Confined.andThen (h : Confined v hide m s)
    (hk : ∀ a s', (m s).2 = .ok (a, s') → Confined v hide (k a) s') :
    Confined v hide (m.andThen k) s := by
  constructor
  · unfold Txn.andThen
    rw [h.same]
    cases hm : m s with
    | mk log r =>
      cases r with
      | error e => rfl
      | ok x =>
        have hnext := (hk x.1 x.2 (by rw [hm])).same
        simp only [viewed, Except.map]
        rw [hnext]
        rfl
  · unfold Txn.andThen
    intro b s'' heq
    cases hm : m s with
    | mk log r =>
      rw [hm] at heq
      cases r with
      | error e => cases heq
      | ok x =>
        rw [(hk x.1 x.2 (by rw [hm])).frame b s'' heq]
        exact h.frame x.1 x.2 (by rw [hm])

theorem Confined.bind (h : Confined v hide m s)
    (hk : ∀ a s', (m s).2 = .ok (a, s') → Confined v hide (k a) s') : Confined v hide (m >>= k) s :=
  h.andThen hk

theorem Confined.map {f : α → β} (h : Confined v hide m s) : Confined v hide (m.map f) s :=
  h.andThen fun _ _ _ => .ret

/-- What is known of the answer and the state after the first part may be used in the second. -/
theorem Confined.bind_post {Q : α → σ → Prop} (h : Confined v hide m s) (hpost : Post m s U Q)
    (hk : ∀ a s', Q a s' → Confined v hide (k a) s') : Confined v hide (m >>= k) s :=
  h.bind fun a s' heq => hk a s' (hpost.2 a s' heq)

theorem Confined.read_bind {f : σ → α} {k : α → Txn σ ω ε β} (h : f (v.see s) = f s)
    (hk : Confined v hide (k (f s)) s) : Confined v hide (Txn.read f >>= k) s :=
  .bind (.read h) fun _ _ heq => by cases heq; exact hk

/-- A read in front whose differences the rest does not tell apart. -/
theorem Confined.read_bind_of {f : σ → α} {k : α → Txn σ ω ε β} (h : k (f (v.see s)) = k (f s))
    (hk : Confined v hide (k (f s)) s) : Confined v hide (Txn.read f >>= k) s := by
  constructor
  · change ([] ++ (k (f (v.see s)) (v.see s)).1, (k (f (v.see s)) (v.see s)).2) =
      viewed v.see ([] ++ (k (f s) s).1, (k (f s) s).2)
    rw [h]
    exact hk.same
  · exact hk.frame

theorem Confined.emit_bind {x : ω} {k : Unit → Txn σ ω ε β} (hk : Confined v hide (k ()) s) :
    Confined v hide (Txn.emit x >>= k) s :=
  .bind .emit fun _ _ heq => by cases heq; exact hk

theorem Confined.lift_bind {r : Except ε α} {k : α → Txn σ ω ε β}
    (hk : ∀ a, r = .ok a → Confined v hide (k a) s) : Confined v hide (Txn.lift r >>= k) s := by
  refine .bind .lift fun a s' heq => ?_
  cases r with
  | error e => cases heq
  | ok x =>
    cases heq
    exact hk _ rfl

theorem Confined.attempt {caught : ε → Bool} {otherwise : α} (h : Confined v hide m s) :
    Confined v hide (m.attempt caught otherwise) s := by
  constructor
  · unfold Txn.attempt
    rw [h.same]
    cases hm : m s with
    | mk log r =>
      cases r with
      | ok x => rfl
      | error e =>
        simp only [viewed, Except.map]
        split <;> rfl
  · unfold Txn.attempt
    intro a s' heq
    cases hm : m s with
    | mk log r =>
      rw [hm] at heq
      cases r with
      | ok x => exact h.frame a s' (by rw [hm]; exact heq)
      | error e =>
        dsimp only at heq
        split at heq
        · cases heq
          rfl
        · cases heq

theorem Confined.each {f : α → Txn σ ω ε Unit} {I : σ → Prop} : ∀ {l : List α} {s : σ},
    (∀ a ∈ l, ∀ s, I s → Confined v hide (f a) s ∧ Post (f a) s (fun _ => True) fun _ s' => I s') →
      I s → Confined v hide (Txn.each f l) s
  | [], _, _, _ => .ret
  | a :: l, s, h, hs => by
    obtain ⟨hconfined, hpost⟩ := h a (List.mem_cons_self ..) s hs
    refine hconfined.andThen fun _ s' heq => ?_
    exact Confined.each (fun b hb => h b (List.mem_cons_of_mem a hb)) (hpost.2 _ s' heq)

/-- The answer of a confined transaction is settled by what `v` sees. -/
theorem Confined.answer_eq (h : Confined v hide m s) : m.answer (v.see s) = m.answer s := by
  unfold Txn.answer
  rw [h.same, viewed]
  cases (m s).2 <;> rfl

theorem Confined.commit_see (h : Confined v hide m s) : m.commit (v.see s) = v.see (m.commit s) := by
  unfold Txn.commit
  rw [h.same, viewed]
  cases (m s).2 <;> rfl

theorem Confined.commit_frame (h : Confined v hide m s) : hide (m.commit s) = hide s := by
  unfold Txn.commit
  split
  · rename_i a s' heq
    exact h.frame a s' heq
  · rfl

end Txn
