import TgPlatform.Lib.Txn

/-! # Readers and their languages

A reader takes pieces of a string from a position on; it logs the places of the
pieces, and answers or fails. What it accepts is a language of words with their
answers, which composes along its steps, and so does that it reads on from where
it has stopped, and hence nothing twice.
-/

/-- A reader of strings of symbols `β`: the log has the start and the length of each piece. -/
abbrev Reader (β ε α : Type) : Type := List β → Txn ℕ (ℕ × ℕ) ε α

namespace Reader

variable {β ε α γ δ : Type}

/-- The next `n` symbols; `short` is the failure where there are fewer. -/
def take (short : ℕ → ℕ → ε) (n : ℕ) : Reader β ε (List β) := fun b i =>
  if b.length < i + n then ([], .error (short n i)) else ([(i, n)], .ok ((b.drop i).take n, i + n))

theorem bind_eq_ok {m : Reader β ε α} {k : α → Reader β ε γ} {b : List β} {i j : ℕ} {c : γ} :
    ((m b >>= fun a => k a b) i).2 = .ok (c, j) ↔
      ∃ a l, (m b i).2 = .ok (a, l) ∧ (k a b l).2 = .ok (c, j) := by
  change ((m b).andThen _ i).2 = _ ↔ _
  unfold Txn.andThen
  rcases m b i with ⟨log, e | ⟨a, l⟩⟩
  · simp
  · simp

theorem bind_eq_error {m : Reader β ε α} {k : α → Reader β ε γ} {b : List β} {i : ℕ} {e : ε} :
    ((m b >>= fun a => k a b) i).2 = .error e ↔
      (m b i).2 = .error e ∨ ∃ a l, (m b i).2 = .ok (a, l) ∧ (k a b l).2 = .error e := by
  change ((m b).andThen _ i).2 = _ ↔ _
  unfold Txn.andThen
  rcases m b i with ⟨log, e | ⟨a, l⟩⟩
  · simp
  · simp

theorem answer_eq_ok {m : Reader β ε α} {b : List β} {i : ℕ} {a : α} :
    (m b).answer i = .ok a ↔ ∃ j, (m b i).2 = .ok (a, j) := by
  unfold Txn.answer
  rcases m b i with ⟨log, e | ⟨x, j⟩⟩
  · simp [Except.map]
  · simp [Except.map]

theorem answer_eq_error {m : Reader β ε α} {b : List β} {i : ℕ} {e : ε} :
    (m b).answer i = .error e ↔ (m b i).2 = .error e := by
  unfold Txn.answer
  rcases m b i with ⟨log, e | ⟨x, j⟩⟩
  · simp [Except.map]
  · simp [Except.map]

/-! ## Languages -/

/-- The reader accepts the words of the language, wherever they stand, and these alone. -/
structure Recognizes (m : Reader β ε α) (L : List β → α → Prop) : Prop where
  sound : ∀ {before rest : List β} {a : α} {j : ℕ}, (m (before ++ rest) before.length).2 = .ok (a, j) →
    ∃ w after, rest = w ++ after ∧ j = before.length + w.length ∧ L w a
  complete : ∀ {before w after : List β} {a : α}, L w a →
    (m (before ++ (w ++ after)) before.length).2 = .ok (a, before.length + w.length)

namespace Recognizes

variable {m : Reader β ε α} {k : α → Reader β ε γ} {L L' : List β → α → Prop} {M : α → List β → γ → Prop}

theorem congr (h : Recognizes m L) (hL : ∀ w a, L w a ↔ L' w a) : Recognizes m L' where
  sound hrun := by
    obtain ⟨w, after, hrest, hj, hword⟩ := h.sound hrun
    exact ⟨w, after, hrest, hj, (hL w _).mp hword⟩
  complete hword := h.complete ((hL _ _).mpr hword)

theorem ret (a : α) : Recognizes (fun _ => Txn.ret a : Reader β ε α) fun w x => w = [] ∧ x = a where
  sound hrun := by
    obtain ⟨rfl, rfl⟩ := Prod.mk.inj (Except.ok.inj hrun)
    exact ⟨[], _, rfl, rfl, rfl, rfl⟩
  complete := by
    rintro before w after a ⟨rfl, rfl⟩
    rfl

theorem throw (e : ε) : Recognizes (fun _ => Txn.throw e : Reader β ε α) fun _ _ => False where
  sound hrun := by cases hrun
  complete := False.elim

theorem take (short : ℕ → ℕ → ε) (n : ℕ) :
    Recognizes (Reader.take short n : Reader β ε (List β)) fun w a => w.length = n ∧ a = w where
  sound := by
    intro before rest a j hrun
    unfold Reader.take at hrun
    split at hrun
    · cases hrun
    · rename_i hlong
      obtain ⟨rfl, rfl⟩ := Prod.mk.inj (Except.ok.inj hrun)
      rw [List.length_append] at hlong
      rw [List.drop_left]
      have hlength : (rest.take n).length = n := List.length_take_of_le (by omega)
      exact ⟨rest.take n, rest.drop n, (List.take_append_drop n rest).symm, by rw [hlength],
        hlength, rfl⟩
  complete := by
    rintro before w after a ⟨rfl, rfl⟩
    unfold Reader.take
    rw [if_neg (by simp only [List.length_append]; omega), List.drop_left, List.take_left]

theorem bind (hm : Recognizes m L) (hk : ∀ a, Recognizes (k a) (M a)) :
    Recognizes (fun b => m b >>= fun a => k a b) fun w c => ∃ u v a, w = u ++ v ∧ L u a ∧ M a v c where
  sound := by
    intro before rest c j hrun
    obtain ⟨a, l, hfirst, hnext⟩ := bind_eq_ok.mp hrun
    obtain ⟨u, after, rfl, rfl, hu⟩ := hm.sound hfirst
    rw [← List.length_append, ← List.append_assoc] at hnext
    obtain ⟨v, after, rfl, rfl, hv⟩ := (hk a).sound hnext
    refine ⟨u ++ v, after, (List.append_assoc ..).symm, ?_, u, v, a, rfl, hu, hv⟩
    simp only [List.length_append, Nat.add_assoc]
  complete := by
    rintro before _ after c ⟨u, v, a, rfl, hu, hv⟩
    have hnext : (k a (before ++ u ++ (v ++ after)) (before ++ u).length).2 =
        .ok (c, (before ++ u).length + v.length) := (hk a).complete hv
    rw [List.append_assoc u v after, bind_eq_ok]
    refine ⟨a, _, hm.complete hu, ?_⟩
    rw [List.append_assoc, List.length_append] at hnext
    simpa only [List.length_append, Nat.add_assoc] using hnext

/-- What is accepted from the start on is what begins with a word. -/
theorem answer_eq_ok (h : Recognizes m L) {b : List β} {a : α} :
    (m b).answer 0 = .ok a ↔ ∃ w after, b = w ++ after ∧ L w a := by
  rw [Reader.answer_eq_ok]
  constructor
  · rintro ⟨j, hrun⟩
    obtain ⟨w, after, hb, -, hw⟩ := @sound _ _ _ _ _ h [] b a j hrun
    exact ⟨w, after, hb, hw⟩
  · rintro ⟨w, after, rfl, hw⟩
    exact ⟨_, @complete _ _ _ _ _ h [] w after a hw⟩

end Recognizes

/-! ## Reading on -/

/-- The pieces of the log follow one another, from `i` to `j`. -/
def Consecutive : ℕ → List (ℕ × ℕ) → ℕ → Prop
  | i, [], j => i = j
  | i, (start, n) :: log, j => start = i ∧ Consecutive (i + n) log j

theorem Consecutive.append : ∀ {log log' : List (ℕ × ℕ)} {i j l : ℕ}, Consecutive i log j →
    Consecutive j log' l → Consecutive i (log ++ log') l
  | [], _, _, _, _, h, h' => by
    obtain rfl := h
    exact h'
  | _ :: _, _, _, _, _, ⟨hstart, h⟩, h' => ⟨hstart, h.append h'⟩

/-- The reader reads on from where it is, up to where it goes on or fails, and not past the end. -/
def ReadsOn (m : Reader β ε α) : Prop := ∀ (b : List β) (i : ℕ), i ≤ b.length →
  ∃ j, j ≤ b.length ∧ Consecutive i (m b i).1 j ∧ ∀ a l, (m b i).2 = .ok (a, l) → l = j

namespace ReadsOn

variable {m : Reader β ε α} {k : α → Reader β ε γ}

theorem ret (a : α) : ReadsOn (fun _ => Txn.ret a : Reader β ε α) := by
  intro b i hi
  refine ⟨i, hi, rfl, fun x l h => ?_⟩
  exact (Prod.mk.inj (Except.ok.inj h)).2.symm

theorem throw (e : ε) : ReadsOn (fun _ => Txn.throw e : Reader β ε α) :=
  fun _ i hi => ⟨i, hi, rfl, nofun⟩

theorem take (short : ℕ → ℕ → ε) (n : ℕ) : ReadsOn (Reader.take short n : Reader β ε (List β)) := by
  intro b i hi
  unfold Reader.take
  split
  · exact ⟨i, hi, rfl, nofun⟩
  · refine ⟨i + n, by omega, ⟨rfl, rfl⟩, fun a l h => ?_⟩
    exact (Prod.mk.inj (Except.ok.inj h)).2.symm

theorem bind (hm : ReadsOn m) (hk : ∀ a, ReadsOn (k a)) : ReadsOn (fun b => m b >>= fun a => k a b) := by
  intro b i hi
  obtain ⟨j, hj, hlog, hend⟩ := hm b i hi
  change ∃ l, l ≤ b.length ∧ Consecutive i ((m b).andThen _ i).1 l ∧
    ∀ a x, ((m b).andThen _ i).2 = _ → x = l
  unfold Txn.andThen
  split
  · rename_i log e heq
    rw [heq] at hlog
    exact ⟨j, hj, hlog, nofun⟩
  · rename_i log a i' heq
    rw [heq] at hlog hend
    obtain rfl := hend a i' rfl
    obtain ⟨l, hl, hlog', hend'⟩ := hk a b i' hj
    exact ⟨l, hl, hlog.append hlog', hend'⟩

end ReadsOn

/-! ## Failures -/

def FailsOnly (P : ε → Prop) (m : Reader β ε α) : Prop := ∀ b i e, (m b i).2 = .error e → P e

namespace FailsOnly

variable {P : ε → Prop} {m : Reader β ε α} {k : α → Reader β ε γ}

theorem ret (a : α) : FailsOnly P (fun _ => Txn.ret a : Reader β ε α) := nofun

theorem throw {e : ε} (h : P e) : FailsOnly P (fun _ => Txn.throw e : Reader β ε α) := by
  rintro b i _ ⟨⟩
  exact h

theorem take {short : ℕ → ℕ → ε} (h : ∀ n i, P (short n i)) (n : ℕ) :
    FailsOnly P (Reader.take short n : Reader β ε (List β)) := by
  intro b i e herror
  unfold Reader.take at herror
  split at herror
  · cases herror
    exact h n i
  · cases herror

theorem bind (hm : FailsOnly P m) (hk : ∀ a, FailsOnly P (k a)) :
    FailsOnly P (fun b => m b >>= fun a => k a b) := by
  intro b i e herror
  rcases bind_eq_error.mp herror with hfirst | ⟨a, l, -, hnext⟩
  · exact hm b i e hfirst
  · exact hk a b l e hnext

end FailsOnly

/-! ## Reading to the end -/

/-- `while not at_end`, for as long as the fuel lasts. -/
def untilEnd (stuck : ε) (m : γ → Reader β ε γ) : ℕ → γ → Reader β ε γ
  | 0, s => fun b i => if b.length ≤ i then Txn.ret s i else Txn.throw stuck i
  | fuel + 1, s => fun b i =>
    if b.length ≤ i then Txn.ret s i else (m s b >>= fun s' => untilEnd stuck m fuel s' b) i

/-- The string is a sequence of words, each of the language of the state that the words before
lead to. -/
inductive Words (L : γ → List β → γ → Prop) : γ → List β → γ → Prop
  | nil (s : γ) : Words L s [] s
  | cons {s s' t : γ} {w v : List β} : L s w s' → Words L s' v t → Words L s (w ++ v) t

section UntilEnd

variable {stuck : ε} {m : γ → Reader β ε γ} {L : γ → List β → γ → Prop}

theorem untilEnd_nil {fuel : ℕ} {s : γ} {before : List β} :
    untilEnd stuck m fuel s (before ++ []) before.length = ([], .ok (s, before.length)) := by
  cases fuel <;> exact if_pos (by simp)

theorem untilEnd_succ {fuel : ℕ} {s : γ} {before rest : List β} (h : rest ≠ []) :
    untilEnd stuck m (fuel + 1) s (before ++ rest) before.length =
      (m s (before ++ rest) >>= fun s' => untilEnd stuck m fuel s' (before ++ rest)) before.length := by
  have hpos := List.length_pos_of_ne_nil h
  exact if_neg (by rw [List.length_append]; omega)

theorem words_nil (hne : ∀ s w s', L s w s' → w ≠ []) {s t : γ} : Words L s [] t ↔ t = s := by
  constructor
  · intro h
    generalize hrest : ([] : List β) = rest at h
    cases h with
    | nil => rfl
    | cons hw _ => exact absurd (List.append_eq_nil_iff.mp hrest.symm).1 (hne _ _ _ hw)
  · rintro rfl
    exact .nil t

/-- A loop whose rounds each read something accepts the sequences of their words, and has the fuel
for it. -/
theorem untilEnd_eq_ok (hm : ∀ s, Recognizes (m s) (L s)) (hne : ∀ s w s', L s w s' → w ≠ []) :
    ∀ {fuel : ℕ} {s t : γ} {before rest : List β} {j : ℕ}, rest.length ≤ fuel →
      ((untilEnd stuck m fuel s (before ++ rest) before.length).2 = .ok (t, j) ↔
        Words L s rest t ∧ j = before.length + rest.length) := by
  intro fuel
  induction fuel with
  | zero =>
    intro s t before rest j hfuel
    obtain rfl := List.length_eq_zero_iff.mp (Nat.le_zero.mp hfuel)
    rw [untilEnd_nil, words_nil hne]
    simp [eq_comm]
  | succ fuel ih =>
    intro s t before rest j hfuel
    by_cases hrest : rest = []
    · subst hrest
      rw [untilEnd_nil, words_nil hne]
      simp [eq_comm]
    · rw [untilEnd_succ hrest, bind_eq_ok]
      constructor
      · rintro ⟨s', l, hround, hloop⟩
        obtain ⟨w, v, rfl, rfl, hw⟩ := (hm s).sound hround
        have hpos := List.length_pos_of_ne_nil (hne _ _ _ hw)
        rw [List.length_append] at hfuel
        rw [← List.append_assoc, ← List.length_append, ih (by omega)] at hloop
        refine ⟨.cons hw hloop.1, ?_⟩
        simp only [hloop.2, List.length_append, Nat.add_assoc]
      · rintro ⟨hwords, rfl⟩
        cases hwords with
        | nil => exact absurd rfl hrest
        | @cons _ s' _ w v hw hv =>
          have hpos := List.length_pos_of_ne_nil (hne _ _ _ hw)
          rw [List.length_append] at hfuel
          refine ⟨s', _, (hm s).complete hw, ?_⟩
          rw [← List.append_assoc, ← List.length_append, ih (by omega)]
          refine ⟨hv, ?_⟩
          simp only [List.length_append, Nat.add_assoc]

theorem exists_of_untilEnd_eq_error (hm : ∀ s, Recognizes (m s) (L s))
    (hne : ∀ s w s', L s w s' → w ≠ []) :
    ∀ {fuel : ℕ} {s : γ} {before rest : List β} {e : ε}, rest.length ≤ fuel →
      (untilEnd stuck m fuel s (before ++ rest) before.length).2 = .error e →
        ∃ s' b i, (m s' b i).2 = .error e := by
  intro fuel
  induction fuel with
  | zero =>
    intro s before rest e hfuel herror
    obtain rfl := List.length_eq_zero_iff.mp (Nat.le_zero.mp hfuel)
    rw [untilEnd_nil] at herror
    cases herror
  | succ fuel ih =>
    intro s before rest e hfuel herror
    by_cases hrest : rest = []
    · subst hrest
      rw [untilEnd_nil] at herror
      cases herror
    · rw [untilEnd_succ hrest, bind_eq_error] at herror
      rcases herror with hround | ⟨s', l, hround, hloop⟩
      · exact ⟨s, _, _, hround⟩
      · obtain ⟨w, v, rfl, rfl, hw⟩ := (hm s).sound hround
        have hpos := List.length_pos_of_ne_nil (hne _ _ _ hw)
        rw [List.length_append] at hfuel
        rw [← List.append_assoc, ← List.length_append] at hloop
        exact ih (by omega) hloop

theorem ReadsOn.untilEnd (hm : ∀ s, ReadsOn (m s)) :
    ∀ (fuel : ℕ) (s : γ), ReadsOn (untilEnd stuck m fuel s)
  | 0, s => by
    intro b i hi
    unfold Reader.untilEnd
    split
    · exact ReadsOn.ret s b i hi
    · exact ReadsOn.throw stuck b i hi
  | fuel + 1, s => by
    intro b i hi
    unfold Reader.untilEnd
    split
    · exact ReadsOn.ret s b i hi
    · exact ReadsOn.bind (hm s) (fun s' => ReadsOn.untilEnd hm fuel s') b i hi

end UntilEnd

end Reader
