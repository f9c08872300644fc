import Mathlib.Data.List.Forall2
import Mathlib.Data.List.Infix
import Mathlib.Data.List.Perm.Basic
import Mathlib.Logic.Relation
import TgPlatform.Lib.Trace

/-! # Tasks that take turns

A task is a tree of calls: it ends, raises, or makes a call and goes on with
what the call answers. Between two calls of one task the others may make theirs.
An invariant of the world that every call keeps in the light of what the task
has learned holds however the tasks take turns. What has been done is what the
tasks have done, each in the order of its own calls.
-/

/-- A task whose calls `ω` answer with values of `ρ` or raise. -/
inductive Coroutine (ω : Type) (ρ : ω → Type) (α : Type)
  | ret (a : α)
  | raise
  | call (w : ω) (answered : ρ w → Coroutine ω ρ α) (raised : Coroutine ω ρ α)

namespace Coroutine

variable {ω : Type} {ρ : ω → Type} {α β σ : Type}

def andThen (k : α → Coroutine ω ρ β) : Coroutine ω ρ α → Coroutine ω ρ β
  | ret a => k a
  | raise => raise
  | call w answered raised => call w (fun r => andThen k (answered r)) (andThen k raised)

/-- A call whose exception goes on. -/
def request (w : ω) : Coroutine ω ρ (ρ w) := call w ret raise

/-- A call whose exception is caught. -/
def attempt (w : ω) : Coroutine ω ρ (Option (ρ w)) := call w (fun r => ret (some r)) (ret none)

def caught : Coroutine ω ρ α → Coroutine ω ρ (Option α)
  | ret a => ret (some a)
  | raise => ret none
  | call w answered raised => call w (fun r => caught (answered r)) (caught raised)

def each (f : α → Coroutine ω ρ Unit) : List α → Coroutine ω ρ Unit
  | [] => ret ()
  | a :: l => andThen (fun _ => each f l) (f a)

/-! ## Taking turns -/

/-- How the world may answer a call; `none` is an exception. -/
abbrev World (σ ω : Type) (ρ : ω → Type) : Type := σ → (w : ω) → Option (ρ w) → σ → Prop

/-- One of the tasks begins or has a call answered. -/
inductive Turn (W : World σ ω ρ) (Begins : Coroutine ω ρ Unit → Prop) :
    σ × List (Coroutine ω ρ Unit) → σ × List (Coroutine ω ρ Unit) → Prop
  | begin {s : σ} {ts : List (Coroutine ω ρ Unit)} {t : Coroutine ω ρ Unit} (h : Begins t) :
      Turn W Begins (s, ts) (s, t :: ts)
  | answer {s s' : σ} {pre post : List (Coroutine ω ρ Unit)} {w : ω} {answered : ρ w → Coroutine ω ρ Unit}
      {raised : Coroutine ω ρ Unit} {r : ρ w} (h : W s w (some r) s') :
      Turn W Begins (s, pre ++ call w answered raised :: post) (s', pre ++ answered r :: post)
  | fail {s s' : σ} {pre post : List (Coroutine ω ρ Unit)} {w : ω} {answered : ρ w → Coroutine ω ρ Unit}
      {raised : Coroutine ω ρ Unit} (h : W s w none s') :
      Turn W Begins (s, pre ++ call w answered raised :: post) (s', pre ++ raised :: post)

/-- The worlds and tasks that can come about from `s` with no task under way. -/
def Reaches (W : World σ ω ρ) (Begins : Coroutine ω ρ Unit → Prop) (s : σ)
    (x : σ × List (Coroutine ω ρ Unit)) : Prop :=
  Relation.ReflTransGen (Turn W Begins) (s, []) x

/-- What every answer of the world keeps holds whatever the tasks do. -/
theorem Reaches.keeps {W : World σ ω ρ} {Begins : Coroutine ω ρ Unit → Prop} {s : σ}
    {x : σ × List (Coroutine ω ρ Unit)} {J : σ → Prop} (h : Reaches W Begins s x)
    (hJ : ∀ s w r s', W s w r s' → J s → J s') (hs : J s) : J x.1 := by
  induction h with
  | refl => exact hs
  | tail _ hturn ih =>
    cases hturn with
    | begin _ => exact ih
    | answer hW => exact hJ _ _ _ _ hW ih
    | fail hW => exact hJ _ _ _ _ hW ih

theorem Reaches.refl {W : World σ ω ρ} {Begins : Coroutine ω ρ Unit → Prop} {s : σ} :
    Reaches W Begins s (s, []) := Relation.ReflTransGen.refl

theorem Reaches.begin {W : World σ ω ρ} {Begins : Coroutine ω ρ Unit → Prop} {s s₁ : σ}
    {t : Coroutine ω ρ Unit} {ts : List (Coroutine ω ρ Unit)} (h : Reaches W Begins s (s₁, ts))
    (ht : Begins t) : Reaches W Begins s (s₁, t :: ts) :=
  Relation.ReflTransGen.tail h (.begin ht)

theorem Reaches.answer {W : World σ ω ρ} {Begins : Coroutine ω ρ Unit → Prop} {s s₁ s₂ : σ} {w : ω}
    {answered : ρ w → Coroutine ω ρ Unit} {raised : Coroutine ω ρ Unit} {ts : List (Coroutine ω ρ Unit)}
    {r : ρ w} (h : Reaches W Begins s (s₁, call w answered raised :: ts)) (hW : W s₁ w (some r) s₂) :
    Reaches W Begins s (s₂, answered r :: ts) :=
  Relation.ReflTransGen.tail h (@Turn.answer _ _ _ _ _ _ _ [] ts _ _ _ _ hW)

/-! ## What every call keeps -/

section Safe

variable (W : World σ ω ρ) (I : σ → Prop) (le : σ → σ → Prop)

/-- Every call the task can come to make keeps the invariant and only moves the world up, and what
the task ends with satisfies `Q`. -/
def Safe (Q : α → σ → Prop) : σ → Coroutine ω ρ α → Prop
  | s, ret a => ∀ s', le s s' → I s' → Q a s'
  | _, raise => True
  | s, call w answered raised => ∀ s', le s s' → I s' →
      (∀ r s'', W s' w (some r) s'' → I s'' ∧ le s' s'' ∧ Safe Q s'' (answered r)) ∧
      ∀ s'', W s' w none s'' → I s'' ∧ le s' s'' ∧ Safe Q s'' raised

variable {W I le} {Q : α → σ → Prop} {R : β → σ → Prop} {s s' : σ} {t : Coroutine ω ρ α}
  {k : α → Coroutine ω ρ β} [IsPreorder σ le]

omit [IsPreorder σ le] in
theorem Safe.mono [IsTrans σ le] (h : Safe W I le Q s t) (hle : le s s') : Safe W I le Q s' t := by
  cases t with
  | ret a => exact fun s'' hle' => h s'' (Trans.trans hle hle')
  | raise => trivial
  | call w answered raised => exact fun s'' hle' => h s'' (Trans.trans hle hle')

theorem safe_of_forall (h : ∀ s', le s s' → I s' → Safe W I le Q s' t) : Safe W I le Q s t := by
  cases t with
  | ret a => exact fun s' hle hI => h s' hle hI s' (refl_of le s') hI
  | raise => trivial
  | call w answered raised => exact fun s' hle hI => h s' hle hI s' (refl_of le s') hI

theorem Safe.andThen (h : Safe W I le (fun a s' => Safe W I le R s' (k a)) s t) :
    Safe W I le R s (t.andThen k) := by
  induction t generalizing s with
  | ret a => exact safe_of_forall h
  | raise => trivial
  | call w answered raised iha ihr =>
    intro s' hle hI
    obtain ⟨hanswered, hraised⟩ := h s' hle hI
    constructor
    · intro r s'' hW
      obtain ⟨hI', hle', hsafe⟩ := hanswered r s'' hW
      exact ⟨hI', hle', iha r hsafe⟩
    · intro s'' hW
      obtain ⟨hI', hle', hsafe⟩ := hraised s'' hW
      exact ⟨hI', hle', ihr hsafe⟩

theorem Safe.imp {Q' : α → σ → Prop} (h : Safe W I le Q s t)
    (hQ : ∀ a s', le s s' → I s' → Q a s' → Q' a s') : Safe W I le Q' s t := by
  induction t generalizing s with
  | ret a => exact fun s' hle hI => hQ a s' hle hI (h s' hle hI)
  | raise => trivial
  | call w answered raised iha ihr =>
    intro s' hle hI
    obtain ⟨hanswered, hraised⟩ := h s' hle hI
    constructor
    · intro r s'' hW
      obtain ⟨hI', hle', hsafe⟩ := hanswered r s'' hW
      exact ⟨hI', hle', iha r hsafe fun a s₁ hle₁ =>
        hQ a s₁ (Trans.trans (Trans.trans hle hle') hle₁)⟩
    · intro s'' hW
      obtain ⟨hI', hle', hsafe⟩ := hraised s'' hW
      exact ⟨hI', hle', ihr hsafe fun a s₁ hle₁ =>
        hQ a s₁ (Trans.trans (Trans.trans hle hle') hle₁)⟩

omit [IsPreorder σ le] in
theorem Safe.caught (h : Safe W I le Q s t) :
    Safe W I le (fun r s' => ∀ a, r = some a → Q a s') s (caught t) := by
  induction t generalizing s with
  | ret a =>
    intro s' hle hI b hb
    cases hb
    exact h s' hle hI
  | raise => exact fun _ _ _ _ hb => nomatch hb
  | call w answered raised iha ihr =>
    intro s' hle hI
    obtain ⟨hanswered, hraised⟩ := h s' hle hI
    constructor
    · intro r s'' hW
      obtain ⟨hI', hle', hsafe⟩ := hanswered r s'' hW
      exact ⟨hI', hle', iha r hsafe⟩
    · intro s'' hW
      obtain ⟨hI', hle', hsafe⟩ := hraised s'' hW
      exact ⟨hI', hle', ihr hsafe⟩

omit [IsPreorder σ le] in
/-- What holds now and is not undone may be assumed from here on. -/
theorem Safe.assume {J : σ → Prop} (h : Safe W (fun s' => I s' ∧ J s') le Q s t)
    (hmono : ∀ s s', le s s' → J s → J s') (hJ : J s) : Safe W I le Q s t := by
  induction t generalizing s with
  | ret a => exact fun s' hle hI => h s' hle ⟨hI, hmono s s' hle hJ⟩
  | raise => trivial
  | call w answered raised iha ihr =>
    intro s' hle hI
    obtain ⟨hanswered, hraised⟩ := h s' hle ⟨hI, hmono s s' hle hJ⟩
    constructor
    · intro r s'' hW
      obtain ⟨⟨hI', hJ'⟩, hle', hsafe⟩ := hanswered r s'' hW
      exact ⟨hI', hle', iha r hsafe hJ'⟩
    · intro s'' hW
      obtain ⟨⟨hI', hJ'⟩, hle', hsafe⟩ := hraised s'' hW
      exact ⟨hI', hle', ihr hsafe hJ'⟩

/-- What each turn of a loop brings about and nothing undoes holds at the end of the loop. -/
theorem safe_each_mem {γ : Type} {f : γ → Coroutine ω ρ Unit} {l : List γ} {P : γ → σ → Prop}
    (hmono : ∀ a s s', le s s' → P a s → P a s')
    (h : ∀ a ∈ l, ∀ s', le s s' → I s' → Safe W I le (fun _ s'' => P a s'') s' (f a)) :
    Safe W I le (fun _ s' => ∀ a ∈ l, P a s') s (each f l) := by
  induction l generalizing s with
  | nil => exact fun _ _ _ _ ha => (List.not_mem_nil ha).elim
  | cons a l ih =>
    refine Safe.andThen ((safe_of_forall (h a List.mem_cons_self)).imp ?_)
    intro _ s' hle _ ha
    have hrest := ih (s := s') fun b hb s'' hle' =>
      h b (List.mem_cons_of_mem a hb) s'' (Trans.trans hle hle')
    refine hrest.imp fun _ s'' hle' _ hl b hb => ?_
    rcases List.mem_cons.mp hb with rfl | hb
    · exact hmono b s' s'' hle' ha
    · exact hl b hb

theorem safe_each {γ : Type} {f : γ → Coroutine ω ρ Unit} {l : List γ}
    (h : ∀ a ∈ l, ∀ s', le s s' → I s' → Safe W I le (fun _ _ => True) s' (f a)) :
    Safe W I le (fun _ _ => True) s (each f l) :=
  (safe_each_mem (P := fun _ _ => True) (fun _ _ _ _ _ => trivial) h).imp fun _ _ _ _ _ => trivial

omit [IsPreorder σ le] in
theorem safe_request {w : ω} {Q : ρ w → σ → Prop}
    (h : ∀ s', le s s' → I s' → (∀ r s'', W s' w (some r) s'' →
      I s'' ∧ le s' s'' ∧ ∀ s₁, le s'' s₁ → I s₁ → Q r s₁) ∧
      ∀ s'', W s' w none s'' → I s'' ∧ le s' s'') : Safe W I le Q s (request w) := by
  intro s' hle hI
  obtain ⟨hanswered, hraised⟩ := h s' hle hI
  exact ⟨hanswered, fun s'' hW => ⟨(hraised s'' hW).1, (hraised s'' hW).2, trivial⟩⟩

omit [IsPreorder σ le] in
theorem safe_attempt {w : ω} {Q : Option (ρ w) → σ → Prop}
    (h : ∀ s', le s s' → I s' → ∀ r s'', W s' w r s'' →
      I s'' ∧ le s' s'' ∧ ∀ s₁, le s'' s₁ → I s₁ → Q r s₁) : Safe W I le Q s (attempt w) := by
  intro s' hle hI
  exact ⟨fun r s'' hW => h s' hle hI (some r) s'' hW, fun s'' hW => h s' hle hI none s'' hW⟩

/-- The invariant is kept by what the tasks do from here on, and what one of them has still to do stays
safe. -/
theorem invariant_of_turns {Begins : Coroutine ω ρ Unit → Prop} {x y : σ × List (Coroutine ω ρ Unit)}
    (h : Relation.ReflTransGen (Turn W Begins) x y) (hI : I x.1)
    (hsafe : ∀ t ∈ x.2, Safe W I le (fun _ _ => True) x.1 t)
    (hbegin : ∀ t s', Begins t → I s' → Safe W I le (fun _ _ => True) s' t) :
    I y.1 ∧ le x.1 y.1 ∧ ∀ t ∈ y.2, Safe W I le (fun _ _ => True) y.1 t := by
  induction h with
  | refl => exact ⟨hI, refl_of le x.1, hsafe⟩
  | tail _ hturn ih =>
    obtain ⟨hI', hle, hsafe⟩ := ih
    have hnext : ∀ {s₁ s₂ : σ} {pre post : List (Coroutine ω ρ Unit)}
        {t t' : Coroutine ω ρ Unit},
        (∀ u ∈ pre ++ t :: post, Safe W I le (fun _ _ => True) s₁ u) → le s₁ s₂ →
        Safe W I le (fun _ _ => True) s₂ t' →
        ∀ u ∈ pre ++ t' :: post, Safe W I le (fun _ _ => True) s₂ u := by
      intro s₁ s₂ pre post t t' hall hle' ht' u hu
      rcases List.mem_append.mp hu with hu | hu
      · exact (hall u (List.mem_append_left _ hu)).mono hle'
      · rcases List.mem_cons.mp hu with rfl | hu
        · exact ht'
        · exact (hall u (List.mem_append_right _ (List.mem_cons_of_mem _ hu))).mono hle'
    cases hturn with
    | begin hb =>
      refine ⟨hI', hle, fun u hu => ?_⟩
      rcases List.mem_cons.mp hu with rfl | hu
      · exact hbegin _ _ hb hI'
      · exact hsafe u hu
    | answer hW =>
      have hcall := hsafe _ (List.mem_append_right _ List.mem_cons_self)
      obtain ⟨hI'', hle', hrest⟩ := (hcall _ (refl_of le _) hI').1 _ _ hW
      exact ⟨hI'', Trans.trans hle hle', hnext hsafe hle' hrest⟩
    | fail hW =>
      have hcall := hsafe _ (List.mem_append_right _ List.mem_cons_self)
      obtain ⟨hI'', hle', hrest⟩ := (hcall _ (refl_of le _) hI').2 _ hW
      exact ⟨hI'', Trans.trans hle hle', hnext hsafe hle' hrest⟩

/-- The invariant holds in every world that the tasks bring about, and what one of them has still to
do is safe. -/
theorem Reaches.invariant {Begins : Coroutine ω ρ Unit → Prop} {x : σ × List (Coroutine ω ρ Unit)}
    (h : Reaches W Begins s x) (hI : I s)
    (hbegin : ∀ t s', Begins t → I s' → Safe W I le (fun _ _ => True) s' t) :
    I x.1 ∧ le s x.1 ∧ ∀ t ∈ x.2, Safe W I le (fun _ _ => True) x.1 t :=
  invariant_of_turns h hI (fun _ ht => (List.not_mem_nil ht).elim) hbegin

end Safe

/-! ## What one task has done -/

section Path

variable {δ : Type} (entry : (w : ω) → Option (ρ w) → δ)

/-- A task whose calls are answered as the list says goes on as the second one. -/
inductive Path : Coroutine ω ρ α → List δ → Coroutine ω ρ α → Prop
  | refl (t : Coroutine ω ρ α) : Path t [] t
  | answer {w : ω} {answered : ρ w → Coroutine ω ρ α} {raised t : Coroutine ω ρ α} {r : ρ w}
      {l : List δ} (h : Path (answered r) l t) : Path (call w answered raised) (entry w (some r) :: l) t
  | fail {w : ω} {answered : ρ w → Coroutine ω ρ α} {raised t : Coroutine ω ρ α} {l : List δ}
      (h : Path raised l t) : Path (call w answered raised) (entry w none :: l) t

variable {entry} {t u : Coroutine ω ρ α} {l : List δ}

theorem Path.snoc_answer {w : ω} {answered : ρ w → Coroutine ω ρ α} {raised : Coroutine ω ρ α} {r : ρ w}
    (h : Path entry t l (call w answered raised)) :
    Path entry t (l ++ [entry w (some r)]) (answered r) := by
  generalize hu : call w answered raised = u at h
  induction h with
  | refl _ =>
    subst hu
    exact .answer (.refl _)
  | answer _ ih => exact .answer (ih hu)
  | fail _ ih => exact .fail (ih hu)

theorem Path.snoc_fail {w : ω} {answered : ρ w → Coroutine ω ρ α} {raised : Coroutine ω ρ α}
    (h : Path entry t l (call w answered raised)) : Path entry t (l ++ [entry w none]) raised := by
  generalize hu : call w answered raised = u at h
  induction h with
  | refl _ =>
    subst hu
    exact .fail (.refl _)
  | answer _ ih => exact .answer (ih hu)
  | fail _ ih => exact .fail (ih hu)

theorem Path.andThen_cases {k : α → Coroutine ω ρ β} {v : Coroutine ω ρ β}
    (h : Path entry (t.andThen k) l v) :
    (∃ u, Path entry t l u ∧ v = u.andThen k) ∨
      ∃ a l₁ l₂, l = l₁ ++ l₂ ∧ Path entry t l₁ (ret a) ∧ Path entry (k a) l₂ v := by
  induction t generalizing l with
  | ret a => exact .inr ⟨a, [], l, rfl, .refl _, h⟩
  | raise =>
    cases h
    exact .inl ⟨raise, .refl _, rfl⟩
  | call w answered raised iha ihr =>
    cases h with
    | refl _ => exact .inl ⟨_, .refl _, rfl⟩
    | answer h =>
      rcases iha _ h with ⟨u, hu, rfl⟩ | ⟨a, l₁, l₂, rfl, h₁, h₂⟩
      · exact .inl ⟨u, .answer hu, rfl⟩
      · exact .inr ⟨a, _ :: l₁, l₂, rfl, .answer h₁, h₂⟩
    | fail h =>
      rcases ihr h with ⟨u, hu, rfl⟩ | ⟨a, l₁, l₂, rfl, h₁, h₂⟩
      · exact .inl ⟨u, .fail hu, rfl⟩
      · exact .inr ⟨a, _ :: l₁, l₂, rfl, .fail h₁, h₂⟩

/-- However the tasks take turns, what has been done is what each of them has done on its own. -/
theorem Reaches.paths {W : World σ ω ρ} {Begins : Coroutine ω ρ Unit → Prop} {s : σ}
    {x : σ × List (Coroutine ω ρ Unit)} {log : σ → List δ}
    (hlog : ∀ s w r s', W s w r s' → log s' = log s ++ [entry w r]) (hs : log s = [])
    (h : Reaches W Begins s x) :
    ∃ begun : List (Coroutine ω ρ Unit × List δ),
      List.Forall₂ (fun b t => Begins b.1 ∧ Path entry b.1 b.2 t) begun x.2 ∧
      (log x.1).Perm (begun.flatMap Prod.snd) := by
  induction h with
  | refl => exact ⟨[], .nil, by rw [hs]; exact .refl _⟩
  | tail _ hturn ih =>
    obtain ⟨begun, hpaths, hperm⟩ := ih
    have hnext : ∀ {s₁ s₂ : σ} {pre post : List (Coroutine ω ρ Unit)} {t t' : Coroutine ω ρ Unit}
        {w : ω} {r : Option (ρ w)},
        List.Forall₂ (fun b t => Begins b.1 ∧ Path entry b.1 b.2 t) begun (pre ++ t :: post) →
        (log s₁).Perm (begun.flatMap Prod.snd) → W s₁ w r s₂ →
        (∀ u l, Path entry u l t → Path entry u (l ++ [entry w r]) t') →
        ∃ begun' : List (Coroutine ω ρ Unit × List δ),
          List.Forall₂ (fun b t => Begins b.1 ∧ Path entry b.1 b.2 t) begun' (pre ++ t' :: post) ∧
          (log s₂).Perm (begun'.flatMap Prod.snd) := by
      intro s₁ s₂ pre post t t' w r hpaths hperm hW hsnoc
      have htake := List.forall₂_take_append _ _ _ hpaths
      have hdrop := List.forall₂_drop_append _ _ _ hpaths
      obtain ⟨b, bs', ⟨hbegins, hpath⟩, hbs', hcs⟩ := List.forall₂_cons_right_iff.mp hdrop
      obtain ⟨bs, hbs⟩ : ∃ bs, bs = begun.take pre.length := ⟨_, rfl⟩
      have hsplit : begun = bs ++ b :: bs' := by
        rw [hbs, ← hcs, List.take_append_drop]
      subst hsplit
      rw [← hbs] at htake
      refine ⟨bs ++ (b.1, b.2 ++ [entry w r]) :: bs',
        List.rel_append htake (.cons ⟨hbegins, hsnoc _ _ hpath⟩ hbs'), ?_⟩
      rw [hlog _ _ _ _ hW]
      refine (hperm.append_right _).trans ?_
      simp only [List.flatMap_append, List.flatMap_cons, List.append_assoc]
      exact (List.perm_append_comm.append_left b.2).append_left _
    cases hturn with
    | begin hb => exact ⟨(_, []) :: begun, .cons ⟨hb, .refl _⟩ hpaths, by simpa using hperm⟩
    | answer hW => exact hnext hpaths hperm hW fun _ _ hpath => hpath.snoc_answer
    | fail hW => exact hnext hpaths hperm hW fun _ _ hpath => hpath.snoc_fail

/-! ## What is told of every path -/

/-- What the task has done satisfies `A`, and `E` with its result once it has ended. -/
def Follows (entry : (w : ω) → Option (ρ w) → δ) (A : List δ → Prop) (E : α → List δ → Prop)
    (t : Coroutine ω ρ α) : Prop :=
  ∀ l u, Path entry t l u → A l ∧ ∀ a, u = ret a → E a l

variable {A : List δ → Prop} {E : α → List δ → Prop} {F : β → List δ → Prop}

theorem follows_ret {a : α} (hA : A []) (hE : E a []) : Follows entry A E (ret a) := by
  intro l u h
  cases h
  refine ⟨hA, fun b hb => ?_⟩
  cases hb
  exact hE

theorem follows_raise (hA : A []) : Follows entry A E raise := by
  intro l u h
  cases h
  exact ⟨hA, fun a ha => by cases ha⟩

theorem Follows.imp {A' : List δ → Prop} {E' : α → List δ → Prop} (h : Follows entry A E t)
    (hA : ∀ l, A l → A' l) (hE : ∀ a l, E a l → E' a l) : Follows entry A' E' t := by
  intro l u hpath
  obtain ⟨hl, hret⟩ := h l u hpath
  exact ⟨hA l hl, fun a ha => hE a l (hret a ha)⟩

theorem follows_call {w : ω} {answered : ρ w → Coroutine ω ρ α} {raised : Coroutine ω ρ α} (hA : A [])
    (hanswered : ∀ r, Follows entry (fun l => A (entry w (some r) :: l))
      (fun a l => E a (entry w (some r) :: l)) (answered r))
    (hraised : Follows entry (fun l => A (entry w none :: l)) (fun a l => E a (entry w none :: l)) raised) :
    Follows entry A E (call w answered raised) := by
  intro l u h
  cases h with
  | refl _ => exact ⟨hA, fun a ha => by cases ha⟩
  | answer h => exact hanswered _ _ _ h
  | fail h => exact hraised _ _ h

theorem Follows.andThen {k : α → Coroutine ω ρ β}
    (h : Follows entry A (fun a l => Follows entry (fun l' => A (l ++ l')) (fun b l' => F b (l ++ l'))
      (k a)) t) : Follows entry A F (t.andThen k) := by
  intro l v hpath
  rcases hpath.andThen_cases with ⟨u, hu, rfl⟩ | ⟨a, l₁, l₂, rfl, h₁, h₂⟩
  · obtain ⟨hA, hret⟩ := h l u hu
    cases u with
    | ret a =>
      obtain ⟨-, hF⟩ := hret a rfl [] (k a) (.refl _)
      exact ⟨hA, fun b hb => by simpa using hF b hb⟩
    | raise => exact ⟨hA, fun b hb => by cases hb⟩
    | call w answered raised => exact ⟨hA, fun b hb => by cases hb⟩
  · exact (h l₁ (ret a) h₁).2 a rfl l₂ v h₂

theorem follows_request {w : ω} {E : ρ w → List δ → Prop} (hA : A []) (hraised : A [entry w none])
    (h : ∀ r, A [entry w (some r)] ∧ E r [entry w (some r)]) : Follows entry A E (request w) :=
  follows_call hA (fun r => follows_ret (h r).1 (h r).2) (follows_raise hraised)

theorem follows_attempt {w : ω} {E : Option (ρ w) → List δ → Prop} (hA : A [])
    (h : ∀ r, A [entry w r] ∧ E r [entry w r]) : Follows entry A E (attempt w) :=
  follows_call hA (fun r => follows_ret (h (some r)).1 (h (some r)).2)
    (follows_ret (h none).1 (h none).2)

theorem follows_each {γ : Type} {f : γ → Coroutine ω ρ Unit} {A E : List γ → List δ → Prop}
    {B C : γ → List δ → Prop} (hnil : A [] [] ∧ E [] [])
    (hfirst : ∀ c cs l, B c l → A (c :: cs) l)
    (hA : ∀ c cs l l', C c l → A cs l' → A (c :: cs) (l ++ l'))
    (hE : ∀ c cs l l', C c l → E cs l' → E (c :: cs) (l ++ l')) {cs : List γ}
    (h : ∀ c ∈ cs, Follows entry (B c) (fun _ => C c) (f c)) :
    Follows entry (A cs) (fun _ => E cs) (each f cs) := by
  induction cs with
  | nil => exact follows_ret hnil.1 hnil.2
  | cons c cs ih =>
    have hrest := ih fun c' hc' => h c' (List.mem_cons_of_mem c hc')
    refine Follows.andThen ((h c List.mem_cons_self).imp (hfirst c cs) fun _ l hC => ?_)
    exact hrest.imp (fun l' => hA c cs l l' hC) fun _ l' => hE c cs l l' hC

/-! ## How often -/

/-- The task makes at most `n` entries that satisfy `p`. -/
def AtMost (entry : (w : ω) → Option (ρ w) → δ) (p : δ → Bool) (n : ℕ) (t : Coroutine ω ρ α) : Prop :=
  Follows entry (fun l => l.countP p ≤ n) (fun _ l => l.countP p ≤ n) t

/-- The task makes no more entries that satisfy `p` than entries that satisfy `q`. -/
def Balanced (entry : (w : ω) → Option (ρ w) → δ) (p q : δ → Bool) (t : Coroutine ω ρ α) : Prop :=
  Follows entry (fun l => l.countP p ≤ l.countP q) (fun _ l => l.countP p ≤ l.countP q) t

section Count

variable {p q : δ → Bool} {m n : ℕ} {k : α → Coroutine ω ρ β}

theorem atMost_ret {a : α} : AtMost entry p n (ret a : Coroutine ω ρ α) :=
  follows_ret (Nat.zero_le n) (Nat.zero_le n)

theorem atMost_raise : AtMost entry p n (raise : Coroutine ω ρ α) := follows_raise (Nat.zero_le n)

theorem AtMost.mono (h : AtMost entry p m t) (hle : m ≤ n) : AtMost entry p n t :=
  Follows.imp h (fun _ hl => Nat.le_trans hl hle) fun _ _ hl => Nat.le_trans hl hle

theorem AtMost.andThen (h : AtMost entry p m t) (hk : ∀ a, AtMost entry p n (k a)) :
    AtMost entry p (m + n) (t.andThen k) := by
  refine Follows.andThen (Follows.imp h (fun l hl => by omega) fun a l hl => ?_)
  refine (hk a).imp (fun l' hl' => ?_) fun b l' hl' => ?_
  · rw [List.countP_append]
    omega
  · rw [List.countP_append]
    omega

theorem atMost_call {w : ω} {answered : ρ w → Coroutine ω ρ α} {raised : Coroutine ω ρ α}
    (hw : ∀ r, p (entry w r) = false) (hanswered : ∀ r, AtMost entry p n (answered r))
    (hraised : AtMost entry p n raised) : AtMost entry p n (call w answered raised) := by
  refine follows_call (Nat.zero_le n) (fun r => (hanswered r).imp ?_ ?_) (hraised.imp ?_ ?_)
  all_goals
    intros
    simpa [hw] using ‹_›

theorem atMost_request {w : ω} {b : Bool} (hw : ∀ r, p (entry w r) = b) :
    AtMost entry p b.toNat (request w) := by
  have hone : ∀ r, [entry w r].countP p ≤ b.toNat := by
    intro r
    rw [List.countP_singleton, hw]
    cases b <;> exact Nat.le_refl _
  exact follows_request (Nat.zero_le _) (hone none) fun r => ⟨hone (some r), hone (some r)⟩

theorem AtMost.balanced (h : AtMost entry p 0 t) : Balanced entry p q t :=
  Follows.imp h (fun _ hl => Nat.le_trans hl (Nat.zero_le _)) fun _ _ hl => Nat.le_trans hl (Nat.zero_le _)

theorem Balanced.andThen (h : Balanced entry p q t) (hk : ∀ a, Balanced entry p q (k a)) :
    Balanced entry p q (t.andThen k) := by
  refine Follows.andThen (Follows.imp h (fun l hl => hl) fun a l hl => ?_)
  refine (hk a).imp (fun l' hl' => ?_) fun b l' hl' => ?_
  · rw [List.countP_append, List.countP_append]
    omega
  · rw [List.countP_append, List.countP_append]
    omega

theorem balanced_call {w : ω} {answered : ρ w → Coroutine ω ρ α} {raised : Coroutine ω ρ α}
    (hw : ∀ r, p (entry w r) = false)
    (hanswered : ∀ r, AtMost entry p (q (entry w (some r))).toNat (answered r))
    (hraised : AtMost entry p 0 raised) : Balanced entry p q (call w answered raised) := by
  have hpaid : ∀ r l, l.countP p ≤ (q (entry w (some r))).toNat →
      (entry w (some r) :: l).countP p ≤ (entry w (some r) :: l).countP q := by
    intro r l hl
    rw [List.countP_cons_of_neg (by simp [hw])]
    cases hq : q (entry w (some r)) with
    | true =>
      rw [hq, Bool.toNat_true] at hl
      rw [List.countP_cons_of_pos hq]
      omega
    | false =>
      rw [hq, Bool.toNat_false] at hl
      omega
  have hnone : ∀ l, l.countP p ≤ 0 → (entry w none :: l).countP p ≤ (entry w none :: l).countP q := by
    intro l hl
    rw [List.countP_cons_of_neg (by simp [hw])]
    exact Nat.le_trans hl (Nat.zero_le _)
  exact follows_call (Nat.zero_le 0)
    (fun r => (hanswered r).imp (hpaid r) fun _ => hpaid r) (hraised.imp hnone fun _ => hnone)

/-- What holds of each task holds of all together. -/
theorem Reaches.countP_le {W : World σ ω ρ} {Begins : Coroutine ω ρ Unit → Prop} {s : σ}
    {x : σ × List (Coroutine ω ρ Unit)} {log : σ → List δ}
    (hlog : ∀ s w r s', W s w r s' → log s' = log s ++ [entry w r]) (hs : log s = [])
    (h : Reaches W Begins s x) (hbalanced : ∀ t, Begins t → Balanced entry p q t) :
    (log x.1).countP p ≤ (log x.1).countP q := by
  obtain ⟨begun, hpaths, hperm⟩ := h.paths hlog hs
  rw [hperm.countP_eq, hperm.countP_eq]
  clear hperm
  generalize x.2 = ts at hpaths
  induction hpaths with
  | nil => exact Nat.le_refl _
  | cons hb _ ih =>
    obtain ⟨hbegins, hpath⟩ := hb
    have hfirst := (hbalanced _ hbegins _ _ hpath).1
    simp only [List.flatMap_cons, List.countP_append]
    omega

end Count

/-! ## Plans -/

variable {ε : Type} {obs : δ → Option ε} {plan rest : List ε}

/-- What is observed of a task is a beginning of the plan, and the whole plan once it has ended. -/
def Emits (entry : (w : ω) → Option (ρ w) → δ) (obs : δ → Option ε) (plan : List ε)
    (t : Coroutine ω ρ α) : Prop :=
  Follows entry (fun l => l.filterMap obs <+: plan) (fun _ l => l.filterMap obs = plan) t

theorem emits_ret {a : α} : Emits entry obs [] (ret a : Coroutine ω ρ α) :=
  follows_ret (List.nil_prefix) rfl

theorem emits_raise : Emits entry obs plan (raise : Coroutine ω ρ α) :=
  follows_raise (List.nil_prefix)

theorem Emits.andThen {k : α → Coroutine ω ρ β} (h : Emits entry obs plan t)
    (hk : ∀ a, Emits entry obs rest (k a)) : Emits entry obs (plan ++ rest) (t.andThen k) := by
  refine Follows.andThen (Follows.imp h (fun l hl => hl.trans (List.prefix_append ..)) ?_)
  intro a l hl
  refine (hk a).imp (fun l' hl' => ?_) fun b l' hl' => ?_
  · rw [List.filterMap_append, hl]
    exact (List.prefix_append_right_inj plan).mpr hl'
  · rw [List.filterMap_append, hl, hl']

theorem emits_attempt {w : ω} {e : Option ε} (hw : ∀ r, obs (entry w r) = e) :
    Emits entry obs e.toList (attempt w) := by
  have hobs : ∀ r, [entry w r].filterMap obs = e.toList := by
    intro r
    cases e with
    | none => rw [List.filterMap_cons_none (hw r), List.filterMap_nil, Option.toList_none]
    | some e => rw [List.filterMap_cons_some (hw r), List.filterMap_nil, Option.toList_some]
  exact follows_attempt List.nil_prefix fun r => ⟨hobs r ▸ List.prefix_rfl, hobs r⟩

theorem emits_request {w : ω} (hw : ∀ r, obs (entry w r) = none) :
    Emits entry obs [] (request w) := by
  have hobs : ∀ r, [entry w r].filterMap obs = [] := fun r => List.filterMap_cons_none (hw r)
  exact follows_request List.nil_prefix ((hobs none).symm ▸ List.prefix_rfl)
    fun r => ⟨(hobs (some r)).symm ▸ List.prefix_rfl, hobs (some r)⟩

theorem emits_each {γ : Type} {f : γ → Coroutine ω ρ Unit} {p : γ → List ε} {cs : List γ}
    (h : ∀ c ∈ cs, Emits entry obs (p c) (f c)) : Emits entry obs (cs.flatMap p) (each f cs) := by
  refine follows_each (A := fun cs l => l.filterMap obs <+: cs.flatMap p)
    (E := fun cs l => l.filterMap obs = cs.flatMap p) ⟨List.nil_prefix, rfl⟩ ?_ ?_ ?_ h
  · intro c cs l hl
    exact hl.trans (List.prefix_append ..)
  · intro c cs l l' hl hl'
    rw [List.filterMap_append, hl]
    exact (List.prefix_append_right_inj (p c)).mpr hl'
  · intro c cs l l' hl hl'
    rw [List.filterMap_append, hl, hl', List.flatMap_cons]

end Path

/-! ## Which task has done what -/

section Numbers

variable {δ ε : Type} (entry : (w : ω) → Option (ρ w) → δ) (f : ε → δ)

/-- Every call is written down, with more than its entry. -/
def Records : World (List ε) ω ρ := fun l w r l' => ∃ e, f e = entry w r ∧ l' = l ++ [e]

def own (i : ℕ) (l : List (ℕ × ε)) : List ε := (l.filter fun x => x.1 = i).map Prod.snd

/-- All that has been done under one number has been done by one task, in the order of its calls. -/
def Numbered (Begins : Coroutine ω ρ Unit → Prop) (task : ℕ → Coroutine ω ρ Unit)
    (l : List (ℕ × ε)) : Prop :=
  ∀ x ∈ l, Begins (task x.1) ∧ ∃ t, Path entry (task x.1) ((own x.1 l).map f) t

variable {entry f} {i j : ℕ} {e : ε} {l l' : List (ℕ × ε)} {Begins : Coroutine ω ρ Unit → Prop}

@[simp]
theorem own_append : own i (l ++ l') = own i l ++ own i l' := by
  simp [own]

@[simp]
theorem own_cons_self : own i ((i, e) :: l) = e :: own i l := by
  simp [own]

theorem own_cons_of_ne (h : j ≠ i) : own i ((j, e) :: l) = own i l := by
  simp [own, h]

theorem mem_own : e ∈ own i l ↔ (i, e) ∈ l := by
  simp [own]

theorem Safe.path {I : List ε → Prop} {Q : α → List ε → Prop} {t u : Coroutine ω ρ α} {done more : List ε}
    (h : Safe (Records entry f) I (· <+: ·) Q done t) (hI : I done) (hpath : Path entry t (more.map f) u) :
    I (done ++ more) := by
  generalize hl : more.map f = l at hpath
  induction hpath generalizing done more with
  | refl t =>
    rw [List.map_eq_nil_iff.mp hl, List.append_nil]
    exact hI
  | answer _ ih =>
    obtain ⟨e, more, rfl, he, hl⟩ := List.map_eq_cons_iff.mp hl
    obtain ⟨hI', -, hrest⟩ := (h done List.prefix_rfl hI).1 _ _ ⟨e, he, rfl⟩
    simpa using ih hrest hI' hl
  | fail _ ih =>
    obtain ⟨e, more, rfl, he, hl⟩ := List.map_eq_cons_iff.mp hl
    obtain ⟨hI', -, hrest⟩ := (h done List.prefix_rfl hI).2 _ ⟨e, he, rfl⟩
    simpa using ih hrest hI' hl

theorem Numbered.throughout {task : ℕ → Coroutine ω ρ Unit} (h : Numbered entry f Begins task l)
    {P : Coroutine ω ρ Unit → List ε → ε → Prop}
    (hsafe : ∀ t, Begins t → Safe (Records entry f) (Trace.Throughout (P t)) (· <+: ·)
      (fun _ _ => True) [] t) :
    Trace.Throughout (fun pre x => P (task x.1) (own x.1 pre) x.2) l := by
  rintro pre ⟨i, e⟩ post rfl
  obtain ⟨hbegins, t, hpath⟩ := h (i, e) (List.mem_append_right _ List.mem_cons_self)
  have hall := (hsafe _ hbegins).path Trace.throughout_nil hpath
  exact hall (own i pre) e (own i post) (by simp)

/-- The tasks under way have done all of it, each under the number of its place. -/
structure Placed (entry : (w : ω) → Option (ρ w) → δ) (f : ε → δ) (Begins : Coroutine ω ρ Unit → Prop)
    (task : ℕ → Coroutine ω ρ Unit) (l : List (ℕ × ε)) (ts : List (Coroutine ω ρ Unit)) : Prop where
  lt : ∀ x ∈ l, x.1 < ts.length
  path : ∀ i t, ts.reverse[i]? = some t → Begins (task i) ∧ Path entry (task i) ((own i l).map f) t

variable {task : ℕ → Coroutine ω ρ Unit} {t t' : Coroutine ω ρ Unit} {ts pre post : List (Coroutine ω ρ Unit)}

theorem Placed.numbered (h : Placed entry f Begins task l ts) : Numbered entry f Begins task l := by
  intro x hx
  have hlt : x.1 < ts.reverse.length := by simpa using h.lt x hx
  obtain ⟨hbegins, hpath⟩ := h.path x.1 _ (List.getElem?_eq_getElem hlt)
  exact ⟨hbegins, _, hpath⟩

theorem Placed.begin (h : Placed entry f Begins task l ts) (ht : Begins t) :
    Placed entry f Begins (Function.update task ts.length t) l (t :: ts) := by
  refine ⟨fun x hx => Nat.lt_succ_of_lt (h.lt x hx), fun i u hu => ?_⟩
  rw [List.reverse_cons, List.getElem?_append, List.length_reverse] at hu
  split at hu
  · rename_i hi
    rw [Function.update_of_ne (Nat.ne_of_lt hi)]
    exact h.path i u hu
  · obtain ⟨hi, rfl⟩ : i - ts.length = 0 ∧ t = u := by
      simpa [List.getElem?_singleton] using hu
    have hnone : own ts.length l = [] := by
      rw [List.eq_nil_iff_forall_not_mem]
      exact fun e he => Nat.lt_irrefl _ (h.lt _ (mem_own.mp he))
    obtain rfl : i = ts.length := by omega
    rw [Function.update_self, hnone]
    exact ⟨ht, .refl _⟩

theorem Placed.next {w : ω} {r : Option (ρ w)} (h : Placed entry f Begins task l (pre ++ t :: post))
    (he : f e = entry w r) (hsnoc : ∀ u m, Path entry u m t → Path entry u (m ++ [entry w r]) t') :
    Placed entry f Begins task (l ++ [(post.length, e)]) (pre ++ t' :: post) := by
  refine ⟨fun x hx => ?_, fun i u hu => ?_⟩
  · rw [List.length_append, List.length_cons]
    rcases List.mem_append.mp hx with hx | hx
    · simpa using h.lt x hx
    · rcases List.mem_singleton.mp hx with rfl
      dsimp only
      omega
  · have hold := h.path i
    rw [List.reverse_append, List.reverse_cons, List.append_assoc, List.singleton_append] at hu hold
    by_cases hi : i = post.length
    · subst hi
      have hu' : t' = u := by simpa using hu
      subst hu'
      obtain ⟨hbegins, hpath⟩ := hold t (by simp)
      refine ⟨hbegins, ?_⟩
      have hown : own post.length [(post.length, e)] = [e] := own_cons_self
      rw [own_append, hown, List.map_append, List.map_singleton, he]
      exact hsnoc _ _ hpath
    · have hown : own i [(post.length, e)] = [] := own_cons_of_ne (Ne.symm hi)
      rw [own_append, hown, List.append_nil]
      refine hold u (hu ▸ ?_)
      simp only [List.getElem?_append, List.length_reverse]
      split
      · rfl
      · obtain ⟨n, hn⟩ := Nat.exists_eq_succ_of_ne_zero (show i - post.length ≠ 0 by omega)
        rw [hn, List.getElem?_cons_succ, List.getElem?_cons_succ]

/-- However the tasks take turns, all that has been done can be numbered by them. -/
theorem Reaches.numbered {W : World σ ω ρ} {s : σ} {x : σ × List (Coroutine ω ρ Unit)} {log : σ → List ε}
    (hlog : ∀ s w r s', W s w r s' → ∃ e, f e = entry w r ∧ log s' = log s ++ [e]) (hs : log s = [])
    (h : Reaches W Begins s x) :
    ∃ task l, l.map Prod.snd = log x.1 ∧ Numbered entry f Begins task l := by
  suffices hplaced : ∃ task l, l.map Prod.snd = log x.1 ∧ Placed entry f Begins task l x.2 by
    obtain ⟨task, l, hl, h⟩ := hplaced
    exact ⟨task, l, hl, h.numbered⟩
  induction h with
  | refl => exact ⟨fun _ => raise, [], by rw [hs]; rfl, nofun, by simp⟩
  | tail _ hturn ih =>
    obtain ⟨task, l, hl, h⟩ := ih
    cases hturn with
    | begin hb => exact ⟨_, l, hl, h.begin hb⟩
    | answer hW =>
      obtain ⟨e, he, hlog'⟩ := hlog _ _ _ _ hW
      exact ⟨task, _, by simp [hl, hlog'], h.next he fun _ _ hpath => hpath.snoc_answer⟩
    | fail hW =>
      obtain ⟨e, he, hlog'⟩ := hlog _ _ _ _ hW
      exact ⟨task, _, by simp [hl, hlog'], h.next he fun _ _ hpath => hpath.snoc_fail⟩

end Numbers

/-! ## What is done until an answer comes -/

section Until

variable (joins : (w : ω) → ρ w → Prop) (p : ω → Prop)

/-- As long as no answer joins, the task makes calls of one kind only, and `Q` holds of what it ends
with. -/
def Until (Q : α → Prop) : Coroutine ω ρ α → Prop
  | ret a => Q a
  | raise => True
  | call w answered raised => p w ∧ (∀ r, ¬ joins w r → Until Q (answered r)) ∧ Until Q raised

variable {joins p} {Q R : α → Prop} {S : β → Prop} {t : Coroutine ω ρ α} {k : α → Coroutine ω ρ β}

theorem Until.andThen (h : Until joins p (fun a => Until joins p S (k a)) t) :
    Until joins p S (t.andThen k) := by
  induction t with
  | ret a => exact h
  | raise => trivial
  | call w answered raised iha ihr =>
    obtain ⟨hw, hanswered, hraised⟩ := h
    exact ⟨hw, fun r hr => iha r (hanswered r hr), ihr hraised⟩

theorem Until.imp {joins' : (w : ω) → ρ w → Prop} {p' : ω → Prop} (h : Until joins p Q t)
    (hjoins : ∀ w r, joins w r → joins' w r) (hp : ∀ w, p w → p' w) (hQ : ∀ a, Q a → R a) :
    Until joins' p' R t := by
  induction t with
  | ret a => exact hQ a h
  | raise => trivial
  | call w answered raised iha ihr =>
    obtain ⟨hw, hanswered, hraised⟩ := h
    exact ⟨hp w hw, fun r hr => iha r (hanswered r fun hj => hr (hjoins w r hj)), ihr hraised⟩

theorem until_then (h : Until joins p Q t) (hk : ∀ a, Q a → Until joins p S (k a)) :
    Until joins p S (t.andThen k) :=
  Until.andThen (h.imp (fun _ _ h => h) (fun _ h => h) hk)

theorem Until.caught (h : Until joins p Q t) :
    Until joins p (fun r => ∀ a, r = some a → Q a) (caught t) := by
  induction t with
  | ret a =>
    intro b hb
    cases hb
    exact h
  | raise => exact fun _ hb => nomatch hb
  | call w answered raised iha ihr =>
    obtain ⟨hw, hanswered, hraised⟩ := h
    exact ⟨hw, fun r hr => iha r (hanswered r hr), ihr hraised⟩

theorem until_request {w : ω} {Q : ρ w → Prop} (hw : p w) (hQ : ∀ r, ¬ joins w r → Q r) :
    Until joins p Q (request w) := ⟨hw, hQ, trivial⟩

theorem until_attempt {w : ω} (hw : p w) : Until joins p (fun _ => True) (attempt w) :=
  ⟨hw, fun _ _ => trivial, trivial⟩

theorem until_each {γ : Type} {f : γ → Coroutine ω ρ Unit} {l : List γ}
    (h : ∀ c ∈ l, Until joins p (fun _ => True) (f c)) : Until joins p (fun _ => True) (each f l) := by
  induction l with
  | nil => trivial
  | cons c l ih =>
    have hrest := ih fun c' hc' => h c' (List.mem_cons_of_mem c hc')
    exact Until.andThen ((h c List.mem_cons_self).imp (fun _ _ h => h) (fun _ h => h) fun _ _ => hrest)

theorem Until.path {δ : Type} {entry : (w : ω) → Option (ρ w) → δ} {l : List δ} {u : Coroutine ω ρ α}
    (h : Until joins p Q t) (hpath : Path entry t l u)
    (hl : ∀ w r, entry w (some r) ∈ l → ¬ joins w r) : Until joins p Q u := by
  induction hpath with
  | refl _ => exact h
  | @answer w _ _ _ r _ _ ih =>
    exact ih (h.2.1 r (hl w r List.mem_cons_self)) fun w' r' hr' => hl w' r' (List.mem_cons_of_mem _ hr')
  | fail _ ih => exact ih h.2.2 fun w' r' hr' => hl w' r' (List.mem_cons_of_mem _ hr')

/-- Where calls of the kind keep the invariant and no answer joins, the task is safe. -/
theorem Until.safe {W : World σ ω ρ} {I : σ → Prop} {le : σ → σ → Prop} {s : σ} (h : Until joins p Q t)
    (hp : ∀ s w r s', p w → I s → W s w r s' → I s' ∧ le s s')
    (hjoins : ∀ s w r s', I s → W s w (some r) s' → ¬ joins w r) :
    Safe W I le (fun a _ => Q a) s t := by
  induction t generalizing s with
  | ret a => exact fun _ _ _ => h
  | raise => trivial
  | call w answered raised iha ihr =>
    obtain ⟨hw, hanswered, hraised⟩ := h
    intro s' _ hI
    refine ⟨fun r s'' hW => ?_, fun s'' hW => ?_⟩
    · obtain ⟨hI', hle'⟩ := hp s' w (some r) s'' hw hI hW
      exact ⟨hI', hle', iha r (hanswered r (hjoins s' w r s'' hI hW))⟩
    · obtain ⟨hI', hle'⟩ := hp s' w none s'' hw hI hW
      exact ⟨hI', hle', ihr hraised⟩

/-- As long as no answer joins, `P` holds of what is left of the task. -/
def Lasting (joins : (w : ω) → ρ w → Prop) (P : Coroutine ω ρ α → Prop) : Coroutine ω ρ α → Prop
  | ret a => P (ret a)
  | raise => P raise
  | call w answered raised => P (call w answered raised) ∧
      (∀ r, ¬ joins w r → Lasting joins P (answered r)) ∧ Lasting joins P raised

theorem Lasting.here {P : Coroutine ω ρ α → Prop} (h : Lasting joins P t) : P t := by
  cases t with
  | ret a => exact h
  | raise => exact h
  | call w answered raised => exact h.1

theorem Lasting.path {δ : Type} {entry : (w : ω) → Option (ρ w) → δ} {l : List δ} {u : Coroutine ω ρ α}
    {P : Coroutine ω ρ α → Prop} (h : Lasting joins P t) (hpath : Path entry t l u)
    (hl : ∀ w r, entry w (some r) ∈ l → ¬ joins w r) : Lasting joins P u := by
  induction hpath with
  | refl _ => exact h
  | @answer w _ _ _ r _ _ ih =>
    exact ih (h.2.1 r (hl w r List.mem_cons_self)) fun w' r' hr' => hl w' r' (List.mem_cons_of_mem _ hr')
  | fail _ ih => exact ih h.2.2 fun w' r' hr' => hl w' r' (List.mem_cons_of_mem _ hr')

theorem Until.lasting {P : Coroutine ω ρ α → Prop} (h : Until (fun _ _ => False) p Q t)
    (hP : ∀ u, Until (fun _ _ => False) p Q u → P u) : Lasting joins P t := by
  induction t with
  | ret a => exact hP _ h
  | raise => exact hP _ trivial
  | call w answered raised iha ihr =>
    exact ⟨hP _ h, fun r _ => iha r (h.2.1 r id), ihr h.2.2⟩

end Until

end Coroutine
