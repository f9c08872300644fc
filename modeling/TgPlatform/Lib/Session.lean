import TgPlatform.Lib.Machine
import TgPlatform.Lib.Slots
import TgPlatform.Lib.Txn

/-! # Sessions of transactions

Requests are handled one after the other, each as a transaction on what the
ones before it have left. Statements about one transaction carry over to every
session whose requests meet a condition on the state before them.
-/

namespace Txn

variable {σ τ ω ε α β : Type} (handle : α → Txn σ ω ε β)

def step (s : σ) (a : α) : Option σ := some ((handle a).commit s)

def answers : σ → List α → List (Except ε β)
  | _, [] => []
  | s, a :: as => (handle a).answer s :: answers ((handle a).commit s) as

/-- What the requests do outside of the state. -/
def uses : σ → List α → List ω
  | _, [] => []
  | s, a :: as => (handle a s).1 ++ uses ((handle a).commit s) as

def final : σ → List α → σ
  | s, [] => s
  | s, a :: as => final ((handle a).commit s) as

def Each (G : σ → α → Prop) (s : σ) (as : List α) : Prop :=
  Machine.Always (step handle) (fun s a _ => G s a) s as

variable {handle} {G : σ → α → Prop} {s t : σ} {a : α} {as : List α}

theorem Each.head (h : Each handle G s (a :: as)) : G s a := Machine.Always.head h rfl

theorem Each.tail (h : Each handle G s (a :: as)) : Each handle G ((handle a).commit s) as :=
  Machine.Always.tail h rfl

theorem each_cons (ha : G s a) (h : Each handle G ((handle a).commit s) as) :
    Each handle G s (a :: as) := by
  rintro s' heq
  cases heq
  exact ⟨ha, h⟩

/-! ## Invariants -/

variable {U : ω → Prop} {I : σ → Prop}

theorem Each.keeps (hI : ∀ s a, I s → G s a → Post (handle a) s U fun _ s' => I s')
    (h : Each handle G s as) (hs : I s) :
    I (final handle s as) ∧ ∀ w ∈ uses handle s as, U w := by
  induction as generalizing s with
  | nil => exact ⟨hs, fun _ hw => (List.not_mem_nil hw).elim⟩
  | cons a as ih =>
    have hpost := hI s a hs h.head
    obtain ⟨hfinal, huses⟩ := ih h.tail (hpost.commit hs)
    constructor
    · exact hfinal
    · intro w hw
      exact (List.mem_append.mp hw).elim (hpost.1 w) (huses w)

/-! ## Tables that requests only add to -/

section Rows

variable {γ : Type} {rows : σ → Slots γ} {P : γ → Prop}

/-- A request leaves the rows as they are, or adds one, which is good if the condition holds. -/
def AddsRow (handle : α → Txn σ ω ε β) (rows : σ → Slots γ) (P : γ → Prop) (G : σ → α → Prop)
    (s : σ) (a : α) : Prop :=
  (rows ((handle a).commit s) = rows s ∧ G s a) ∨
    ∃ b, rows ((handle a).commit s) = (rows s).add b ∧ (P b ↔ G s a)

theorem rows_final (h : ∀ s a, AddsRow handle rows P G s a) {pk : ℕ} (hpk : pk < (rows s).size) :
    pk < (rows (final handle s as)).size ∧
      (rows (final handle s as)).row? pk = (rows s).row? pk := by
  induction as generalizing s with
  | nil => exact ⟨hpk, rfl⟩
  | cons a as ih =>
    rcases h s a with ⟨hrows, _⟩ | ⟨b, hrows, _⟩
    · rw [← hrows] at hpk ⊢
      exact ih hpk
    · have hne : pk ≠ (rows s).size := Nat.ne_of_lt hpk
      have hsize : pk < (rows ((handle a).commit s)).size := by
        rw [hrows, Slots.size_add]
        omega
      obtain ⟨hlt, hrow⟩ := ih hsize
      refine ⟨hlt, hrow.trans ?_⟩
      rw [hrows, Slots.row?_add, if_neg hne]

/-- The added rows are good exactly if the condition holds of each request. -/
theorem rows_good_iff_each (h : ∀ s a, AddsRow handle rows P G s a) :
    (∀ pk b, (rows s).size ≤ pk → (rows (final handle s as)).row? pk = some b → P b) ↔
      Each handle G s as := by
  induction as generalizing s with
  | nil =>
    constructor
    · intro _
      trivial
    · rintro - pk b hpk hrow
      exact absurd (Slots.row?_lt hrow) (Nat.not_lt.mpr hpk)
  | cons a as ih =>
    rcases h s a with ⟨hrows, ha⟩ | ⟨b, hrows, hb⟩
    · rw [← hrows]
      exact ih.trans ⟨each_cons ha, Each.tail⟩
    · have hold : (rows (final handle s (a :: as))).row? (rows s).size = some b := by
        have hlt : (rows s).size < (rows ((handle a).commit s)).size := by simp [hrows]
        refine (rows_final h hlt).2.trans ?_
        rw [hrows, Slots.row?_add, if_pos rfl]
      have hnext := @ih ((handle a).commit s)
      rw [hrows, Slots.size_add] at hnext
      constructor
      · intro hgood
        refine each_cons (hb.mp (hgood _ b (Nat.le_refl _) hold)) (hnext.mp fun pk c hpk hrow => ?_)
        exact hgood pk c (Nat.le_of_succ_le hpk) hrow
      · intro heach pk c hpk hrow
        rcases Nat.eq_or_lt_of_le hpk with heq | hlt
        · subst heq
          rw [hold] at hrow
          cases hrow
          exact hb.mpr heach.head
        · exact hnext.mpr heach.tail pk c hlt hrow

end Rows

/-! ## Two sessions that look alike -/

variable {v : View σ} {hide : σ → τ}

theorem Confined.answer_eq_of_alike {m : Txn σ ω ε β} (hs : Confined v hide m s)
    (ht : Confined v hide m t) (h : v.Alike s t) : m.answer s = m.answer t := by
  rw [← hs.answer_eq, ← ht.answer_eq, h]

theorem Confined.commit_alike {m : Txn σ ω ε β} (hs : Confined v hide m s)
    (ht : Confined v hide m t) (h : v.Alike s t) : v.Alike (m.commit s) (m.commit t) := by
  unfold View.Alike
  rw [← hs.commit_see, ← ht.commit_see, h]

/-- From states that look alike the same answers come, and the states stay alike. -/
theorem Each.alike (hG : ∀ s a, G s a → Confined v hide (handle a) s)
    (hs : Each handle G s as) (ht : Each handle G t as) (h : v.Alike s t) :
    answers handle s as = answers handle t as ∧
      v.Alike (final handle s as) (final handle t as) := by
  induction as generalizing s t with
  | nil => exact ⟨rfl, h⟩
  | cons a as ih =>
    have hconf := hG s a hs.head
    have hconf' := hG t a ht.head
    obtain ⟨hanswers, hfinal⟩ := ih hs.tail ht.tail (hconf.commit_alike hconf' h)
    constructor
    · rw [answers, answers, hconf.answer_eq_of_alike hconf' h, hanswers]
    · exact hfinal

theorem Each.frame (hG : ∀ s a, G s a → Confined v hide (handle a) s) (h : Each handle G s as) :
    hide (final handle s as) = hide s := by
  induction as generalizing s with
  | nil => rfl
  | cons a as ih => exact (ih h.tail).trans (hG s a h.head).commit_frame

end Txn
