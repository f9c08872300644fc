import TgPlatform.Lib.Loop
import Mathlib.Data.List.Forall2
import Mathlib.Data.List.Infix

/-! # Patterns

A pattern is given by the ways to match it at the start of a text, in the order
in which a backtracking matcher tries them: what is captured, and what is left
of the text. The matcher takes the first of them. Whether there is any does not
depend on the order, and neither does the end of a loop that erases matches.
-/

structure Pattern (β α : Type*) where
  tries : List β → List (α × List β)
  suffix : ∀ {s x}, x ∈ tries s → x.2 <:+ s

namespace Pattern

variable {β α γ : Type*} {s t : List β}

/-- The match that a backtracking matcher finds at the start of the text. -/
def first (p : Pattern β α) (s : List β) : Option (α × List β) := (p.tries s).head?

def ret (a : α) : Pattern β α where
  tries s := [(a, s)]
  suffix hx := by
    rw [List.mem_singleton.mp hx]

def bind (p : Pattern β α) (f : α → Pattern β γ) : Pattern β γ where
  tries s := (p.tries s).flatMap fun x => (f x.1).tries x.2
  suffix hx := by
    obtain ⟨y, hy, hx⟩ := List.mem_flatMap.mp hx
    exact ((f y.1).suffix hx).trans (p.suffix hy)

/-- One after the other, with what the second one captures. -/
def andThen (p : Pattern β α) (q : Pattern β γ) : Pattern β γ := p.bind fun _ => q

/-- The first pattern before the second one. -/
def orElse (p q : Pattern β α) : Pattern β α where
  tries s := p.tries s ++ q.tries s
  suffix hx := (List.mem_append.mp hx).elim p.suffix q.suffix

def choice (ps : List (Pattern β α)) : Pattern β α where
  tries s := ps.flatMap fun p => p.tries s
  suffix hx := by
    obtain ⟨p, -, hx⟩ := List.mem_flatMap.mp hx
    exact p.suffix hx

/-- Once if that is possible, then not at all. -/
def optional (p : Pattern β Unit) : Pattern β Unit := p.orElse (ret ())

/-- The words that are the same as `w`, symbol by symbol. -/
def textTries (same : β → β → Bool) : List β → List β → List (Unit × List β)
  | [], s => [((), s)]
  | _ :: _, [] => []
  | a :: w, c :: s => if same a c then textTries same w s else []

theorem mem_textTries {same : β → β → Bool} {x : Unit × List β} : ∀ {w s : List β},
    x ∈ textTries same w s ↔ ∃ v, s = v ++ x.2 ∧ List.Forall₂ (fun a c => same a c = true) w v
  | [], s => by
    simp only [textTries, List.mem_singleton, List.forall₂_nil_left_iff]
    constructor
    · rintro rfl
      exact ⟨[], rfl, rfl⟩
    · rintro ⟨_, rfl, rfl⟩
      rfl
  | a :: w, [] => by
    simp only [textTries, List.not_mem_nil, false_iff]
    rintro ⟨v, hs, hv⟩
    obtain ⟨rfl, -⟩ := List.append_eq_nil_iff.mp hs.symm
    cases hv
  | a :: w, c :: s => by
    unfold textTries
    constructor
    · intro hx
      split at hx
      · rename_i hsame
        obtain ⟨v, rfl, hv⟩ := mem_textTries.mp hx
        exact ⟨c :: v, rfl, .cons hsame hv⟩
      · cases hx
    · rintro ⟨v, hs, hv⟩
      cases hv with
      | cons hsame hv =>
        obtain ⟨rfl, rfl⟩ := List.cons_eq_cons.mp hs
        rw [if_pos hsame]
        exact mem_textTries.mpr ⟨_, rfl, hv⟩

/-- A word, up to which symbols count as the same. -/
def text (same : β → β → Bool) (w : List β) : Pattern β Unit where
  tries := textTries same w
  suffix hx := by
    obtain ⟨v, hs, -⟩ := mem_textTries.mp hx
    exact ⟨v, hs.symm⟩

def word [DecidableEq β] (w : List β) : Pattern β Unit := text (fun a c => decide (a = c)) w

def manyTries (P : β → Bool) : List β → List (List β × List β)
  | [] => [([], [])]
  | c :: s =>
    if P c then ((manyTries P s).map fun x => (c :: x.1, x.2)) ++ [([], c :: s)] else [([], c :: s)]

theorem mem_manyTries {P : β → Bool} {x : List β × List β} : ∀ {s : List β},
    x ∈ manyTries P s ↔ s = x.1 ++ x.2 ∧ ∀ c ∈ x.1, P c = true
  | [] => by
    rcases x with ⟨v, r⟩
    simp only [manyTries, List.mem_singleton, Prod.mk.injEq]
    constructor
    · rintro ⟨rfl, rfl⟩
      exact ⟨rfl, by simp⟩
    · rintro ⟨hs, -⟩
      exact List.append_eq_nil_iff.mp hs.symm
  | c :: s => by
    rcases x with ⟨v, r⟩
    unfold manyTries
    cases v with
    | nil =>
      have hswap : r = c :: s ↔ c :: s = r := ⟨Eq.symm, Eq.symm⟩
      split <;> simp [hswap]
    | cons a v =>
      split
      · rename_i hP
        simp only [List.mem_append, List.mem_map, Prod.mk.injEq, List.cons.injEq, Prod.exists,
          List.mem_singleton, reduceCtorEq, false_and, or_false, mem_manyTries, List.cons_append,
          List.forall_mem_cons]
        constructor
        · rintro ⟨v', r', ⟨rfl, hv⟩, ⟨rfl, rfl⟩, rfl⟩
          exact ⟨⟨rfl, rfl⟩, hP, hv⟩
        · rintro ⟨⟨rfl, rfl⟩, -, hv⟩
          exact ⟨v, r, ⟨rfl, hv⟩, ⟨rfl, rfl⟩, rfl⟩
      · rename_i hP
        simp only [List.mem_singleton, Prod.mk.injEq, reduceCtorEq, false_and, List.cons_append,
          List.cons.injEq, List.forall_mem_cons, false_iff]
        rintro ⟨⟨rfl, -⟩, hPc, -⟩
        exact hP hPc

/-- The words over a class, the longest one first. -/
def many (P : β → Bool) : Pattern β (List β) where
  tries := manyTries P
  suffix hx := ⟨_, (mem_manyTries.mp hx).1.symm⟩

/-- The words over a class, the shortest one first. -/
def fewest (P : β → Bool) : Pattern β (List β) where
  tries s := (manyTries P s).reverse
  suffix hx := ⟨_, (mem_manyTries.mp (List.mem_reverse.mp hx)).1.symm⟩

/-- The end of the text, or what the test says of the rest. -/
def ahead (P : List β → Bool) : Pattern β Unit where
  tries s := if P s then [((), s)] else []
  suffix {s x} hx := by
    split at hx
    · rw [List.mem_singleton.mp hx]
    · cases hx

/-- The matches whose captures pass a test. -/
def guard (ok : α → Bool) (p : Pattern β α) : Pattern β α where
  tries s := (p.tries s).filter fun x => ok x.1
  suffix hx := p.suffix (List.mem_of_mem_filter hx)

/-- What the first match captures, at the leftmost place where there is one. -/
def search (p : Pattern β α) : List β → Option α
  | [] => (p.first []).map Prod.fst
  | c :: s => ((p.first (c :: s)).map Prod.fst).or (search p s)

section Matches

variable {p : Pattern β α} {q : Pattern β α} {f : α → Pattern β γ}

theorem mem_ret {a : α} {x : α × List β} : x ∈ (ret a : Pattern β α).tries s ↔ x = (a, s) :=
  List.mem_singleton

theorem mem_bind {x : γ × List β} :
    x ∈ (p.bind f).tries s ↔ ∃ y ∈ p.tries s, x ∈ (f y.1).tries y.2 := List.mem_flatMap

theorem mem_andThen {r : Pattern β γ} {x : γ × List β} :
    x ∈ (p.andThen r).tries s ↔ ∃ y ∈ p.tries s, x ∈ r.tries y.2 := mem_bind

theorem mem_orElse {x : α × List β} :
    x ∈ (p.orElse q).tries s ↔ x ∈ p.tries s ∨ x ∈ q.tries s := List.mem_append

theorem mem_choice {ps : List (Pattern β α)} {x : α × List β} :
    x ∈ (choice ps).tries s ↔ ∃ p ∈ ps, x ∈ p.tries s := List.mem_flatMap

theorem mem_text {same : β → β → Bool} {w : List β} {x : Unit × List β} :
    x ∈ (text same w).tries s ↔
      ∃ v, s = v ++ x.2 ∧ List.Forall₂ (fun a c => same a c = true) w v := mem_textTries

theorem mem_word [DecidableEq β] {w : List β} {x : Unit × List β} :
    x ∈ (word w).tries s ↔ s = w ++ x.2 := by
  rw [word, mem_text]
  simp only [decide_eq_true_eq, List.forall₂_eq_eq_eq, exists_eq_right']

theorem mem_optional {p : Pattern β Unit} {x : Unit × List β} :
    x ∈ (optional p).tries s ↔ x ∈ p.tries s ∨ x = ((), s) := by
  rw [optional, mem_orElse, mem_ret]

theorem mem_many {P : β → Bool} {x : List β × List β} :
    x ∈ (many P).tries s ↔ s = x.1 ++ x.2 ∧ ∀ c ∈ x.1, P c = true := mem_manyTries

theorem mem_ahead {P : List β → Bool} {x : Unit × List β} :
    x ∈ (ahead P).tries s ↔ P s = true ∧ x = ((), s) := by
  change x ∈ (if P s then _ else _) ↔ _
  split
  · rename_i hP
    simp [hP]
  · rename_i hP
    simp [hP]

theorem mem_guard {ok : α → Bool} {x : α × List β} :
    x ∈ (p.guard ok).tries s ↔ x ∈ p.tries s ∧ ok x.1 = true := List.mem_filter

theorem mem_fewest {P : β → Bool} {x : List β × List β} :
    x ∈ (fewest P).tries s ↔ s = x.1 ++ x.2 ∧ ∀ c ∈ x.1, P c = true :=
  List.mem_reverse.trans mem_manyTries

theorem first_eq_none : p.first s = none ↔ p.tries s = [] := List.head?_eq_none_iff

theorem mem_of_first {x : α × List β} (h : p.first s = some x) : x ∈ p.tries s :=
  List.mem_of_head? h

theorem search_of_first {x : α × List β} (h : p.first s = some x) :
    p.search s = some x.1 := by
  cases s <;> simp [search, h]

theorem exists_of_search {a : α} : ∀ {s : List β}, p.search s = some a →
    ∃ t x, t <:+ s ∧ x ∈ p.tries t ∧ x.1 = a
  | [], h => by
    obtain ⟨x, hx, rfl⟩ := Option.map_eq_some_iff.mp h
    exact ⟨[], x, List.suffix_refl _, mem_of_first hx, rfl⟩
  | c :: s, h => by
    rcases Option.or_eq_some_iff.mp h with h | ⟨-, h⟩
    · obtain ⟨x, hx, rfl⟩ := Option.map_eq_some_iff.mp h
      exact ⟨c :: s, x, List.suffix_refl _, mem_of_first hx, rfl⟩
    · obtain ⟨t, x, hsuffix, hx, rfl⟩ := exists_of_search h
      exact ⟨t, x, hsuffix.trans (List.suffix_cons c s), hx, rfl⟩

end Matches

section First

variable {p : Pattern β α} {q : Pattern β γ}

theorem first_many {P : β → Bool} : ∀ s : List β,
    (many P).first s = some (s.takeWhile P, s.dropWhile P)
  | [] => rfl
  | c :: s => by
    change (manyTries P (c :: s)).head? = _
    have hrest : (manyTries P s).head? = some (s.takeWhile P, s.dropWhile P) := first_many s
    unfold manyTries
    cases hc : P c with
    | false => simp [hc]
    | true => simp [hc, hrest]

theorem first_guard {ok : α → Bool} {x : α × List β} (h : p.first s = some x) (hok : ok x.1 = true) :
    (p.guard ok).first s = some x := by
  unfold first at h
  change ((p.tries s).filter fun x => ok x.1).head? = some x
  obtain ⟨l, hl⟩ := List.head?_eq_some_iff.mp h
  rw [hl, List.filter_cons, if_pos hok]
  rfl

/-- The pattern does not look at what comes after its match. -/
def Extends (p : Pattern β α) : Prop :=
  ∀ s x, x ∈ p.tries s → ∀ t, (x.1, x.2 ++ t) ∈ p.tries (s ++ t)

theorem Extends.text {same : β → β → Bool} {w : List β} : (text same w).Extends := by
  intro s x hx t
  obtain ⟨v, rfl, hv⟩ := mem_text.mp hx
  exact mem_text.mpr ⟨v, List.append_assoc _ _ _, hv⟩

theorem Extends.andThen (hp : p.Extends) (hq : q.Extends) : (p.andThen q).Extends := by
  intro s x hx t
  obtain ⟨y, hy, hx⟩ := mem_andThen.mp hx
  exact mem_andThen.mpr ⟨_, hp _ _ hy t, hq _ _ hx t⟩

theorem Extends.orElse {q : Pattern β α} (hp : p.Extends) (hq : q.Extends) : (p.orElse q).Extends := by
  intro s x hx t
  exact mem_orElse.mpr ((mem_orElse.mp hx).imp (fun h => hp _ _ h t) fun h => hq _ _ h t)

theorem Extends.optional {p : Pattern β Unit} (hp : p.Extends) : (optional p).Extends :=
  hp.orElse fun _ _ hx t => by
    rw [mem_ret.mp hx]
    exact mem_ret.mpr rfl

end First

/-! ## Unambiguous patterns -/

/-- There is at most one way to match at the start of a text. -/
def Unambiguous (p : Pattern β α) : Prop := ∀ s x y, x ∈ p.tries s → y ∈ p.tries s → x = y

/-- What the pattern matches begins with a symbol of a class. -/
def Begins (p : Pattern β α) (P : β → Prop) : Prop := ∀ s x, x ∈ p.tries s → ∃ c ∈ s.head?, P c

section Unambiguous

variable {p : Pattern β α} {q : Pattern β γ} {P Q : β → Prop} {same : β → β → Bool}

theorem Begins.mono (h : p.Begins P) (hPQ : ∀ c, P c → Q c) : p.Begins Q := by
  intro s x hx
  obtain ⟨c, hc, hP⟩ := h s x hx
  exact ⟨c, hc, hPQ c hP⟩

theorem begins_text {a : β} {w : List β} : (text same (a :: w)).Begins fun c => same a c = true := by
  intro s x hx
  obtain ⟨v, rfl, hv⟩ := mem_text.mp hx
  cases hv with
  | cons hsame _ => exact ⟨_, rfl, hsame⟩

theorem Begins.andThen (h : p.Begins P) : (p.andThen q).Begins P := by
  intro s x hx
  obtain ⟨y, hy, -⟩ := mem_andThen.mp hx
  exact h s y hy

theorem Begins.mem (h : p.Begins P) {x : α × List β} (hx : x ∈ p.tries s) : ∃ c ∈ s, P c := by
  obtain ⟨c, hc, hP⟩ := h s x hx
  exact ⟨c, List.mem_of_head? hc, hP⟩

theorem mem_of_andThen {x : γ × List β} (hx : x ∈ (p.andThen q).tries s)
    (hq : ∀ t y, y ∈ q.tries t → ∃ c ∈ t, Q c) : ∃ c ∈ s, Q c := by
  obtain ⟨y, hy, hx⟩ := mem_andThen.mp hx
  obtain ⟨c, hc, hQ⟩ := hq _ _ hx
  exact ⟨c, (p.suffix hy).subset hc, hQ⟩

theorem Begins.optional {p : Pattern β Unit} (hp : p.Begins P) (hq : q.Begins P) :
    ((optional p).andThen q).Begins P := by
  intro s x hx
  obtain ⟨y, hy, hx⟩ := mem_andThen.mp hx
  rcases mem_optional.mp hy with hy | rfl
  · exact hp s y hy
  · exact hq s x hx

theorem Unambiguous.text {w : List β} : (text same w).Unambiguous := by
  intro s x y hx hy
  obtain ⟨v, hs, hv⟩ := mem_text.mp hx
  obtain ⟨v', hs', hv'⟩ := mem_text.mp hy
  rw [hs] at hs'
  have hlength : v.length = v'.length := hv.length_eq.symm.trans hv'.length_eq
  exact Prod.ext rfl (List.append_inj hs' hlength).2

theorem Unambiguous.andThen (hp : p.Unambiguous) (hq : q.Unambiguous) :
    (p.andThen q).Unambiguous := by
  intro s x y hx hy
  obtain ⟨x', hx', hx⟩ := mem_andThen.mp hx
  obtain ⟨y', hy', hy⟩ := mem_andThen.mp hy
  obtain rfl := hp s x' y' hx' hy'
  exact hq _ x y hx hy

theorem Begins.apart (hp : p.Begins P) (hq : q.Begins Q) (hne : ∀ c, P c → ¬ Q c) {x : α × List β}
    {y : γ × List β} (hx : x ∈ p.tries s) : y ∉ q.tries s := by
  intro hy
  obtain ⟨c, hc, hP⟩ := hp s x hx
  obtain ⟨c', hc', hQ⟩ := hq s y hy
  obtain rfl := Option.mem_unique hc hc'
  exact hne c hP hQ

theorem Unambiguous.orElse {q : Pattern β α} (hp : p.Unambiguous) (hq : q.Unambiguous)
    (hbegins : p.Begins P) (hbegins' : q.Begins Q) (hne : ∀ c, P c → ¬ Q c) :
    (p.orElse q).Unambiguous := by
  intro s x y hx hy
  rcases mem_orElse.mp hx with hx | hx <;> rcases mem_orElse.mp hy with hy | hy
  · exact hp s x y hx hy
  · exact absurd hy (hbegins.apart hbegins' hne hx)
  · exact absurd hx (hbegins.apart hbegins' hne hy)
  · exact hq s x y hx hy

theorem Unambiguous.optional {p : Pattern β Unit} (hp : p.Unambiguous) (hq : q.Unambiguous)
    (hbegins : p.Begins P) (hbegins' : q.Begins Q) (hne : ∀ c, P c → ¬ Q c) :
    ((optional p).andThen q).Unambiguous := by
  intro s x y hx hy
  obtain ⟨x', hx', hx⟩ := mem_andThen.mp hx
  obtain ⟨y', hy', hy⟩ := mem_andThen.mp hy
  rcases mem_optional.mp hx' with hx' | rfl <;> rcases mem_optional.mp hy' with hy' | rfl
  · exact hp.andThen hq s x y (mem_andThen.mpr ⟨x', hx', hx⟩) (mem_andThen.mpr ⟨y', hy', hy⟩)
  · exact absurd hy (hbegins.apart hbegins' hne hx')
  · exact absurd hx (hbegins.apart hbegins' hne hy')
  · exact hq s x y hx hy

/-- The part after an unambiguous one decides about the first match. -/
theorem Unambiguous.first_andThen (hp : p.Unambiguous) {x : α × List β} (hx : x ∈ p.tries s) :
    (p.andThen q).first s = q.first x.2 := by
  have hall : ∀ y ∈ p.tries s, y = x := fun y hy => hp s y x hy hx
  have hne : p.tries s ≠ [] := List.ne_nil_of_mem hx
  change ((p.tries s).flatMap fun y => q.tries y.2).head? = (q.tries x.2).head?
  generalize p.tries s = l at hall hne
  cases l with
  | nil => exact absurd rfl hne
  | cons y l =>
    obtain ⟨rfl, hall⟩ := List.forall_mem_cons.mp hall
    rw [List.flatMap_cons, List.head?_append]
    cases hq : q.tries y.2 with
    | nil =>
      have hnil : (l.flatMap fun y => q.tries y.2) = [] :=
        List.flatMap_eq_nil_iff.mpr fun z hz => by rw [hall z hz, hq]
      rw [hnil]
      rfl
    | cons z zs => rfl

end Unambiguous

/-! ## The shortest match -/

section Shortest

theorem manyTries_sorted {P : β → Bool} : ∀ s : List β,
    (manyTries P s).Pairwise fun x y => y.1.length < x.1.length
  | [] => List.pairwise_singleton _ _
  | c :: s => by
    unfold manyTries
    split
    · refine List.pairwise_append.mpr ⟨?_, List.pairwise_singleton _ _, ?_⟩
      · exact List.pairwise_map.mpr ((manyTries_sorted s).imp fun h => Nat.succ_lt_succ h)
      · intro x hx y hy
        obtain ⟨z, -, rfl⟩ := List.mem_map.mp hx
        rw [List.mem_singleton.mp hy]
        exact Nat.succ_pos _
    · exact List.pairwise_singleton _ _

theorem fewest_sorted {P : β → Bool} :
    ((fewest P).tries s).Pairwise fun x y => x.1.length < y.1.length :=
  List.pairwise_reverse.mpr (manyTries_sorted s)

/-- A word over a class that passes a test, as short as what comes after it allows. -/
def shortest (P : β → Bool) (ok : List β → Bool) (after : Pattern β Unit) : Pattern β (List β) :=
  ((fewest P).guard ok).bind fun w => after.bind fun _ => ret w

variable {P : β → Bool} {ok : List β → Bool} {after : Pattern β Unit} {x : List β × List β}

theorem mem_shortest : x ∈ (shortest P ok after).tries s ↔ (∀ c ∈ x.1, P c = true) ∧ ok x.1 = true ∧
    ∃ t, s = x.1 ++ t ∧ ((), x.2) ∈ after.tries t := by
  simp only [shortest, mem_bind, mem_guard, mem_fewest, mem_ret]
  constructor
  · rintro ⟨⟨w, t⟩, ⟨⟨rfl, hP⟩, hok⟩, y, hy, rfl⟩
    exact ⟨hP, hok, t, rfl, hy⟩
  · rintro ⟨hP, hok, t, rfl, hy⟩
    exact ⟨(x.1, t), ⟨⟨rfl, hP⟩, hok⟩, ((), x.2), hy, rfl⟩

theorem shortest_sorted :
    ((shortest P ok after).tries s).Pairwise fun x y => x.1.length ≤ y.1.length := by
  refine List.pairwise_flatMap.mpr ⟨?_, ?_⟩
  · intro x _
    apply List.pairwise_of_forall_mem_list
    intro y hy z hz
    obtain ⟨y', -, hy⟩ := mem_bind.mp hy
    obtain ⟨z', -, hz⟩ := mem_bind.mp hz
    rw [mem_ret.mp hy, mem_ret.mp hz]
  · refine (fewest_sorted.filter _).imp ?_
    intro x y hlt z hz w hw
    obtain ⟨z', -, hz⟩ := mem_bind.mp hz
    obtain ⟨w', -, hw⟩ := mem_bind.mp hw
    rw [mem_ret.mp hz, mem_ret.mp hw]
    exact Nat.le_of_lt hlt

/-- The first match is the only one that captures so short a word. -/
theorem first_shortest (hx : x ∈ (shortest P ok after).tries s)
    (hleast : ∀ y ∈ (shortest P ok after).tries s, y.1.length ≤ x.1.length → y = x) :
    (shortest P ok after).first s = some x := by
  have hsorted := @shortest_sorted _ s P ok after
  unfold first
  generalize (shortest P ok after).tries s = l at hx hleast hsorted
  cases l with
  | nil => cases hx
  | cons y l =>
    rcases List.mem_cons.mp hx with rfl | hx
    · rfl
    · rw [hleast y List.mem_cons_self (List.rel_of_pairwise_cons hsorted hx)]
      rfl

end Shortest

/-! ## What matches leave -/

/-- What is left of the text, for each way to match. -/
def rests (p : Pattern β α) (s : List β) : List (List β) := (p.tries s).map Prod.snd

section Rests

variable {p : Pattern β α} {q : Pattern β γ} {r : List β}

theorem rests_andThen : (p.andThen q).rests = fun s => (p.rests s).flatMap q.rests := by
  funext s
  unfold rests
  rw [List.flatMap_map]
  exact List.map_flatMap

theorem rests_orElse {q : Pattern β α} : (p.orElse q).rests s = p.rests s ++ q.rests s :=
  List.map_append

theorem rests_choice {ps : List (Pattern β α)} :
    (choice ps).rests s = ps.flatMap fun p => p.rests s := List.map_flatMap

theorem suffix_of_mem_rests (h : r ∈ p.rests s) : r <:+ s := by
  obtain ⟨x, hx, rfl⟩ := List.mem_map.mp h
  exact p.suffix hx

theorem length_of_mem_rests_text {same : β → β → Bool} {w : List β}
    (h : r ∈ (text same w).rests s) : s.length = w.length + r.length := by
  obtain ⟨x, hx, rfl⟩ := List.mem_map.mp h
  obtain ⟨v, hs, hv⟩ := mem_text.mp hx
  rw [hs, List.length_append, hv.length_eq]

theorem rests_words_sorted {same : β → β → Bool} {ws : List (List β)}
    (hsorted : ws.Pairwise fun v w => w.length ≤ v.length) :
    ((choice (ws.map (text same))).rests s).Pairwise fun r t => r.length ≤ t.length := by
  rw [rests_choice, List.flatMap_map, List.pairwise_flatMap]
  constructor
  · intro w _
    apply List.pairwise_of_forall_mem_list
    intro r hr t ht
    have hr := length_of_mem_rests_text hr
    have ht := length_of_mem_rests_text ht
    omega
  · refine hsorted.imp ?_
    intro v w hle r hr t ht
    have hr := length_of_mem_rests_text hr
    have ht := length_of_mem_rests_text ht
    omega

/-- Words of the same length leave the same of a text, so that their order does not matter. -/
theorem rests_words_perm {same : β → β → Bool} {vs ws : List (List β)} (hperm : vs.Perm ws)
    (hvs : vs.Pairwise fun v w => w.length ≤ v.length)
    (hws : ws.Pairwise fun v w => w.length ≤ v.length) :
    (choice (vs.map (text same))).rests s = (choice (ws.map (text same))).rests s := by
  refine List.Perm.eq_of_pairwise ?_ (rests_words_sorted hvs) (rests_words_sorted hws) ?_
  · intro r t hr ht hle hge
    have hsuffix := List.suffix_of_suffix_length_le (suffix_of_mem_rests hr) (suffix_of_mem_rests ht) hle
    exact hsuffix.eq_of_length (Nat.le_antisymm hle hge)
  · rw [rests_choice, rests_choice]
    exact (hperm.map _).flatMap_right _

end Rests

/-! ## Erasing -/

def erase (p : Pattern β α) (s : List β) : List β := ((p.first s).map Prod.snd).getD s

variable {p q : Pattern β α}

theorem erase_suffix : p.erase s <:+ s := by
  unfold erase
  cases h : p.first s with
  | none => exact List.suffix_refl s
  | some x => exact p.suffix (mem_of_first h)

theorem erase_cases : p.tries s = [] ∧ p.erase s = s ∨ ∃ x ∈ p.tries s, p.erase s = x.2 := by
  unfold erase
  cases h : p.first s with
  | none => exact .inl ⟨first_eq_none.mp h, rfl⟩
  | some x => exact .inr ⟨x, mem_of_first h, rfl⟩

theorem erase_congr {q : Pattern β γ} (h : p.rests s = q.rests s) : p.erase s = q.erase s := by
  unfold erase first
  rw [← List.head?_map, ← List.head?_map]
  exact congrArg (fun l => l.head?.getD s) h

theorem erase_length_lt (h : p.erase s ≠ s) : (p.erase s).length < s.length := by
  have hle : (p.erase s).length ≤ s.length := erase_suffix.length_le
  exact lt_of_le_of_ne hle fun heq => h (erase_suffix.eq_of_length heq)

theorem erase_eq_self (hp : ∀ x ∈ p.tries s, x.2 ≠ s) : p.erase s = s ↔ p.tries s = [] := by
  rcases erase_cases (p := p) (s := s) with ⟨htries, herase⟩ | ⟨x, hx, herase⟩
  · exact iff_of_true herase htries
  · refine iff_of_false ?_ (List.ne_nil_of_mem hx)
    rw [herase]
    exact hp x hx

/-- A round of the loop that erases a match as long as that changes the text. -/
def Round (p : Pattern β α) (s t : List β) : Prop := t = p.erase s ∧ t ≠ s

theorem halts_round (p : Pattern β α) (s : List β) : Halts p.Round s := by
  apply Halts.of_measure (μ := List.length)
  rintro t _ - ⟨rfl, hne⟩
  exact erase_length_lt hne

variable [DecidableEq β]

def eraseAll (p : Pattern β α) (s : List β) : List β :=
  if p.erase s = s then s else eraseAll p (p.erase s)
termination_by s.length
decreasing_by exact erase_length_lt ‹_›

theorem eraseAll_reaches (p : Pattern β α) (s : List β) :
    Relation.ReflTransGen p.Round s (p.eraseAll s) := by
  fun_induction eraseAll p s with
  | case1 s h => exact .refl
  | case2 s h ih => exact .head ⟨rfl, h⟩ ih

theorem erase_eraseAll (p : Pattern β α) (s : List β) : p.erase (p.eraseAll s) = p.eraseAll s := by
  fun_induction eraseAll p s with
  | case1 s h => exact h
  | case2 s h ih => exact ih

theorem eraseAll_of_fixed (h : p.erase s = s) : p.eraseAll s = s := by
  rw [eraseAll, if_pos h]

theorem eraseAll_congr (h : ∀ s, p.erase s = q.erase s) (s : List β) : p.eraseAll s = q.eraseAll s := by
  fun_induction eraseAll p s with
  | case1 s hs => rw [eraseAll_of_fixed (h s ▸ hs)]
  | case2 s hs ih =>
    rw [ih]
    conv_rhs => rw [eraseAll]
    rw [← h s, if_neg hs]

end Pattern
