import TgPlatform.Ai.Reciting

/-! # What a script is played by

Whoever rewrites the row of a script holds its lock, a step of the task from the
moment it has read the row. So each transaction can rely on the row that it has
read, whatever the others commit, and the cursor stays above the lines that were
started under the token of the row.
-/

namespace TgPlatform

open Overlap

def Played.linesOf (l : List Played) (id : ℕ) (token : String) : List ℕ :=
  (l.filter fun p => p.script = id && p.token = token).map Played.line

def PlayStage.linesOf (s : PlayStage) (id : ℕ) (token : String) : List ℕ :=
  Played.linesOf s.played id token

def PlayStage.Plays (s : PlayStage) (id : ℕ) (token : String) : Prop :=
  ∃ x, s.plane.script id = some x ∧ x.playsUnder token = true

/-- Whatever the state, the writes put a run with the line at the cursor into the table. -/
def AiScript.Recited (x : AiScript) (write : PlayStage → PlayStage) : Prop :=
  ∃ line pk, x.lines[x.cursor]? = some line ∧
    ∀ s, ∃ run, (write s).plane.runs.row? pk = some run ∧ run.recites line

abbrev PlaySession := Session PlayStage PlayLock PlayPoint

/-! ## What a transaction writes -/

/-- The writes rewrite one script at most, and add these lines to the book. -/
structure Rewrites (write : PlayStage → PlayStage) (id : ℕ) (f : Option AiScript → Option AiScript)
    (lines : List Played) : Prop where
  row : ∀ s j, (write s).script j = if j = id then f (s.script id) else s.script j
  played : ∀ s, (write s).played = s.played ++ lines

section Rewrites

variable {w w' : PlayStage → PlayStage} {id : ℕ} {f g : Option AiScript → Option AiScript}
  {lines lines' : List Played}

theorem rewrites_id (id : ℕ) : Rewrites (fun s => s) id (fun o => o) [] where
  row s j := by
    split
    · rename_i hj
      rw [hj]
    · rfl
  played _ := (List.append_nil _).symm

theorem Rewrites.comp (h : Rewrites w id f lines) (h' : Rewrites w' id g lines') :
    Rewrites (w' ∘ w) id (g ∘ f) (lines ++ lines') where
  row s j := by
    rw [Function.comp_apply, h'.row, h.row, h.row, if_pos rfl]
    split <;> rfl
  played s := by rw [Function.comp_apply, h'.played, h.played, List.append_assoc]

theorem Rewrites.aside (hscripts : ∀ s, (w s).plane.scripts = s.plane.scripts)
    (hplayed : ∀ s, (w s).played = s.played) (id : ℕ) : Rewrites w id (fun o => o) [] where
  row s j := by
    unfold PlayStage.script
    rw [hscripts]
    split
    · rename_i hj
      rw [hj]
    · rfl
  played s := by rw [hplayed, List.append_nil]

theorem rewrites_onScripts {u : Slots AiScript → Slots AiScript}
    (h : ∀ t j, (u t).row? j = if j = id then f (t.row? id) else t.row? j) :
    Rewrites (PlayStage.onScripts u) id f [] where
  row s j := h s.plane.scripts j
  played _ := (List.append_nil _).symm

theorem rewrites_modify {u : AiScript → AiScript} :
    Rewrites (PlayStage.onScripts fun t => t.modify id u) id (Option.map u) [] :=
  rewrites_onScripts fun t j => by
    rw [Slots.row?_modify]
    split
    · rename_i hj
      rw [if_pos hj.symm, hj]
    · rename_i hj
      rw [if_neg (Ne.symm hj)]

end Rewrites

/-! ## What one transaction may rely on -/

section Relies

variable {mint : ℕ → String} {s : PlayStage} {n : ℕ} {t u : PlaySession} {id : ℕ} {token : String}

/-- The step has read the row under its lock, and the script plays under its token. -/
structure Performs (s : PlayStage) (held : List PlayLock) (id : ℕ) (token : String) (x : AiScript) :
    Prop where
  locked : .script id ∈ held
  row : s.plane.script id = some x
  plays : x.playsUnder token = true

inductive RowChange (mint : ℕ → String) (s : PlayStage) (n : ℕ) (id : ℕ) :
    Option AiScript → List Played → Prop
  | quiet (o : Option AiScript) : (∀ x' token, o = some x' → x'.runToken = some token →
      ∃ x, s.script id = some x ∧ x.runToken = some token ∧ x'.cursor = x.cursor) →
      RowChange mint s n id o []
  | passed (x x' : AiScript) (token : String) (started : Bool) : s.script id = some x →
      x.runToken = some token → x'.cursor = x.cursor + 1 →
      (x'.runToken = none ∨ x'.runToken = some token) →
      RowChange mint s n id (some x') (if started then [⟨id, token, x.cursor⟩] else [])
  | restarted (x' : AiScript) (m : ℕ) : m < n → x'.runToken = some (mint m) →
      s.linesOf id (mint m) = [] → RowChange mint s n id (some x') []

inductive Ended (s : PlayStage) (t : PlaySession) (turn : Turn) : Prop
  | idle : t.write = (fun s => s) → turn.passed = none → turn.scheduled = false → Ended s t turn
  | rested (x : AiScript) (f : Option AiScript → Option AiScript) :
      Performs s t.held turn.script turn.token x → turn.passed = none →
      Rewrites t.write turn.script f [] →
      (f (some x) = some x ∨ f (some x) = some x.halt) → Ended s t turn
  | passed (x : AiScript) (f : Option AiScript → Option AiScript) :
      Performs s t.held turn.script turn.token x → turn.passed = some x.cursor →
      Rewrites t.write turn.script f
        (if turn.started then [⟨turn.script, turn.token, x.cursor⟩] else []) →
      f (some x) = some (x.advance x) → (turn.started = true → x.Recited t.write) → Ended s t turn

structure Booked (mint : ℕ → String) (s : PlayStage) (n : ℕ) : Prop where
  sorted : ∀ id token, (s.linesOf id token).Pairwise (· < ·)
  below : ∀ id x token, s.script id = some x → x.runToken = some token →
    ∀ k ∈ s.linesOf id token, k < x.cursor
  rows : ∀ id x m, s.script id = some x → n ≤ m → x.runToken ≠ some (mint m)
  lines : ∀ id m, n ≤ m → s.linesOf id (mint m) = []

def PlayRelies (mint : ℕ → String) (s : PlayStage) (n : ℕ) (t : PlaySession) : Prop :=
  match t.at_ with
  | .asking _ | .changing _ | .elsewhere _ | .fetching _ => t.write = fun s => s
  | .casting d x => t.write = (fun s => s) ∧ Performs s t.held d.script d.token x
  | .seeking d x _ line => t.write = (fun s => s) ∧ Performs s t.held d.script d.token x ∧
      x.lines[x.cursor]? = some line
  | .triggering d x line point pending => t.write = (fun s => s) ∧ Performs s t.held d.script d.token x ∧
      x.lines[x.cursor]? = some line ∧ Prepares line point pending
  | .passing d x started => Performs s t.held d.script d.token x ∧
      Rewrites t.write d.script (fun o => o) (if started then [⟨d.script, d.token, x.cursor⟩] else []) ∧
      (started = true → x.Recited t.write)
  | .ending none => ∃ id f, Rewrites t.write id f [] ∧
      ((∀ o, f o = o) ∨ .script id ∈ t.held ∧ RowChange mint s n id (f (s.script id)) [])
  | .ending (some turn) => Ended s t turn

theorem Booked.later (h : Booked mint s n) : Booked mint s (n + 1) where
  sorted := h.sorted
  below := h.below
  rows id x m hx hm := h.rows id x m hx (Nat.le_of_succ_le hm)
  lines id m hm := h.lines id m (Nat.le_of_succ_le hm)

theorem RowChange.later {o : Option AiScript} {lines : List Played}
    (h : RowChange mint s n id o lines) : RowChange mint s (n + 1) id o lines := by
  cases h with
  | quiet _ h => exact .quiet _ h
  | passed x x' token started hx htoken hcursor hnext =>
    exact .passed x x' token started hx htoken hcursor hnext
  | restarted x' m hm htoken hlines => exact .restarted x' m (Nat.lt_succ_of_lt hm) htoken hlines

theorem PlayRelies.later (h : PlayRelies mint s n t) : PlayRelies mint s (n + 1) t := by
  obtain ⟨point, write, held⟩ := t
  cases point with
  | ending turn =>
    cases turn with
    | none =>
      obtain ⟨id, f, hwrite, hf⟩ := h
      exact ⟨id, f, hwrite, hf.imp_right fun ⟨hlocked, hchange⟩ => ⟨hlocked, hchange.later⟩⟩
    | some turn => exact h
  | _ => exact h

theorem linesOf_append {l l' : List Played} :
    Played.linesOf (l ++ l') id token = Played.linesOf l id token ++ Played.linesOf l' id token := by
  simp [Played.linesOf]

theorem linesOf_started {started : Bool} {id' k : ℕ} {token' : String} :
    Played.linesOf (if started then [⟨id', token', k⟩] else []) id token =
      if started = true ∧ id' = id ∧ token' = token then [k] else [] := by
  cases started with
  | false => rfl
  | true =>
    by_cases hid : id' = id <;> by_cases htoken : token' = token <;>
      simp [Played.linesOf, hid, htoken]

theorem Booked.of_row {t : PlayStage} {o : Option AiScript} (h : Booked mint s n)
    (hrow : ∀ j, t.script j = if j = id then o else s.script j)
    (hlines : ∀ j token, t.linesOf j token = s.linesOf j token)
    (hbelow : ∀ x token, o = some x → x.runToken = some token → ∀ k ∈ s.linesOf id token, k < x.cursor)
    (hrows : ∀ x m, o = some x → n ≤ m → x.runToken ≠ some (mint m)) : Booked mint t n where
  sorted j token := by
    rw [hlines]
    exact h.sorted j token
  below j x token hx htoken := by
    rw [hlines]
    rw [hrow] at hx
    split at hx
    · subst j
      exact hbelow x token hx htoken
    · exact h.below j x token hx htoken
  rows j x m hx hm := by
    rw [hrow] at hx
    split at hx
    · exact hrows x m hx hm
    · exact h.rows j x m hx hm
  lines j m hm := by
    rw [hlines]
    exact h.lines j m hm

theorem Booked.commit {w : PlayStage → PlayStage} {f : Option AiScript → Option AiScript}
    {lines : List Played}
    (h : Booked mint s n) (hmint : Function.Injective mint) (hw : Rewrites w id f lines)
    (hchange : RowChange mint s n id (f (s.script id)) lines) : Booked mint (w s) n := by
  have hrow : ∀ j, (w s).script j = if j = id then f (s.script id) else s.script j := hw.row s
  have hlines : ∀ j token,
    (w s).linesOf j token = s.linesOf j token ++ Played.linesOf lines j token := by
    intro j token
    rw [PlayStage.linesOf, hw.played, linesOf_append]
    rfl
  generalize f (s.script id) = o at hrow hchange
  cases hchange with
  | quiet _ hquiet =>
    refine h.of_row hrow (fun j token => (hlines j token).trans (List.append_nil _)) ?_ ?_
    · intro x token hx htoken
      obtain ⟨x₀, hx₀, htoken₀, hcursor⟩ := hquiet x token hx htoken
      rw [hcursor]
      exact h.below id x₀ token hx₀ htoken₀
    · intro x m hx hm htoken
      obtain ⟨x₀, hx₀, htoken₀, -⟩ := hquiet x _ hx htoken
      exact h.rows id x₀ m hx₀ hm htoken₀
  | passed x x' token started hx htoken hcursor hnext =>
    have hbelow := h.below id x token hx htoken
    constructor
    · intro j token'
      rw [hlines, linesOf_started]
      split
      · rename_i heq
        obtain ⟨-, rfl, rfl⟩ := heq
        refine List.pairwise_append.mpr ⟨h.sorted id token, List.pairwise_singleton _ _, ?_⟩
        rintro k hk _ hmem
        rw [List.mem_singleton.mp hmem]
        exact hbelow k hk
      · rw [List.append_nil]
        exact h.sorted j token'
    · intro j y token' hy htoken' k hk
      rw [hrow] at hy
      rw [hlines, linesOf_started] at hk
      split at hy
      · cases hy
        subst j
        rcases hnext with hnone | hsame
        · rw [hnone] at htoken'
          cases htoken'
        · rw [hsame] at htoken'
          cases htoken'
          rw [hcursor]
          rcases List.mem_append.mp hk with hk | hk
          · exact Nat.lt_succ_of_lt (hbelow k hk)
          · split at hk
            · rw [List.mem_singleton.mp hk]
              exact Nat.lt_succ_self _
            · cases hk
      · rename_i hj
        rw [if_neg (fun heq => hj heq.2.1.symm), List.append_nil] at hk
        exact h.below j y token' hy htoken' k hk
    · intro j y m hy hm htoken'
      rw [hrow] at hy
      split at hy
      · cases hy
        rcases hnext with hnone | hsame
        · rw [hnone] at htoken'
          cases htoken'
        · rw [hsame] at htoken'
          exact h.rows id x m hx hm (htoken.trans htoken')
      · exact h.rows j y m hy hm htoken'
    · intro j m hm
      rw [hlines, linesOf_started, h.lines j m hm, if_neg]
      · rfl
      · rintro ⟨-, rfl, heq⟩
        exact h.rows id x m hx hm (htoken.trans (congrArg some heq))
  | restarted x' m hm htoken hnone =>
    refine h.of_row hrow (fun j token => (hlines j token).trans (List.append_nil _)) ?_ ?_
    · rintro x token ⟨⟩ htoken' k hk
      rw [htoken] at htoken'
      cases htoken'
      rw [hnone] at hk
      cases hk
    · rintro x m' ⟨⟩ hm' htoken'
      rw [htoken] at htoken'
      have := hmint (Option.some.inj htoken')
      omega

/-! ### Other transactions -/

section Stable

variable {w : PlayStage → PlayStage} {f : Option AiScript → Option AiScript} {lines : List Played}

/-- The writes spare the rows that another transaction has locked. -/
def Spares (id : ℕ) (f : Option AiScript → Option AiScript) (lines : List Played)
    (u : PlaySession) : Prop :=
  (∀ o, f o = o) ∧ lines = [] ∨ .script id ∉ u.held ∧ ∀ p ∈ lines, p.script = id

theorem Rewrites.kept (hw : Rewrites w id f lines) (hspares : Spares id f lines u) {id' : ℕ}
    (hheld : .script id' ∈ u.held) :
    (w s).script id' = s.script id' ∧ ∀ token, (w s).linesOf id' token = s.linesOf id' token := by
  have hlines : ∀ token, (w s).linesOf id' token =
      s.linesOf id' token ++ Played.linesOf lines id' token := by
    intro token
    rw [PlayStage.linesOf, hw.played, linesOf_append]
    rfl
  rcases hspares with ⟨hf, rfl⟩ | ⟨hfree, hown⟩
  · refine ⟨?_, fun token => (hlines token).trans (List.append_nil _)⟩
    rw [hw.row]
    split
    · rename_i hid
      rw [hf, hid]
    · rfl
  · have hne : id' ≠ id := by
      rintro rfl
      exact hfree hheld
    refine ⟨by rw [hw.row, if_neg hne], fun token => ?_⟩
    have hnone : Played.linesOf lines id' token = [] := by
      unfold Played.linesOf
      rw [List.map_eq_nil_iff, List.filter_eq_nil_iff]
      intro p hp
      rw [hown p hp]
      simp [Ne.symm hne]
    rw [hlines, hnone, List.append_nil]

theorem Performs.stable {x : AiScript} {id' : ℕ} (hw : Rewrites w id f lines)
    (hspares : Spares id f lines u) (hu : Performs s u.held id' token x) :
    Performs (w s) u.held id' token x := by
  refine ⟨hu.locked, ?_, hu.plays⟩
  change ((w s).script id').filter _ = _
  rw [(hw.kept hspares hu.locked).1]
  exact hu.row

theorem RowChange.stable {id' : ℕ} {o : Option AiScript} {lines' : List Played} {s' : PlayStage}
    (hrow : s'.script id' = s.script id') (hlines : ∀ token, s'.linesOf id' token = s.linesOf id' token)
    (h : RowChange mint s n id' o lines') : RowChange mint s' n id' o lines' := by
  cases h with
  | quiet _ h =>
    refine .quiet _ fun x' token hx' htoken => ?_
    rw [hrow]
    exact h x' token hx' htoken
  | passed x x' token started hx htoken hcursor hnext =>
    exact .passed x x' token started (hrow.trans hx) htoken hcursor hnext
  | restarted x' m hm htoken hnone => exact .restarted x' m hm htoken ((hlines _).trans hnone)

theorem PlayRelies.stable (hw : Rewrites w id f lines) (hspares : Spares id f lines u)
    (hu : PlayRelies mint s n u) : PlayRelies mint (w s) n u := by
  obtain ⟨point, write, held⟩ := u
  cases point with
  | asking => exact hu
  | changing => exact hu
  | elsewhere => exact hu
  | fetching => exact hu
  | casting d x => exact ⟨hu.1, hu.2.stable hw hspares⟩
  | seeking d x group line => exact ⟨hu.1, hu.2.1.stable hw hspares, hu.2.2⟩
  | triggering d x line point pending => exact ⟨hu.1, hu.2.1.stable hw hspares, hu.2.2⟩
  | passing d x started => exact ⟨hu.1.stable hw hspares, hu.2⟩
  | ending turn =>
    cases turn with
    | none =>
      obtain ⟨id', f', hwrite, hf⟩ := hu
      refine ⟨id', f', hwrite, hf.imp_right ?_⟩
      rintro ⟨hlocked, hchange⟩
      obtain ⟨hrow, hlines⟩ := hw.kept hspares hlocked
      refine ⟨hlocked, ?_⟩
      rw [hrow]
      exact hchange.stable hrow hlines
    | some turn =>
      cases hu with
      | idle hwrite hpassed hscheduled => exact .idle hwrite hpassed hscheduled
      | rested x f' hperforms hpassed hwrite hf =>
        exact .rested x f' (hperforms.stable hw hspares) hpassed hwrite hf
      | passed x f' hperforms hpassed hwrite hf hrecited =>
        exact .passed x f' (hperforms.stable hw hspares) hpassed hwrite hf hrecited

end Stable

/-! ### The end of a transaction -/

section Performs

variable {held : List PlayLock} {x : AiScript}

theorem Performs.script (h : Performs s held id token x) : s.script id = some x :=
  (Option.filter_eq_some_iff.mp h.row).1

theorem Performs.runToken (h : Performs s held id token x) : x.runToken = some token := by
  have := h.plays
  unfold AiScript.playsUnder at this
  simp only [Bool.and_eq_true, decide_eq_true_eq] at this
  exact this.2

theorem Performs.stage (h : Performs s held id token x) : s.Plays id token :=
  ⟨x, h.row, h.plays⟩

theorem Performs.more (h : Performs s held id token x) (locks : List PlayLock) :
    Performs s (locks ++ held) id token x :=
  ⟨List.mem_append_right locks h.locked, h.row, h.plays⟩

end Performs

theorem runToken_advance {x : AiScript} :
    (x.advance x).runToken = none ∨ (x.advance x).runToken = x.runToken := by
  unfold AiScript.advance
  dsimp only
  split
  · exact Or.inl rfl
  · exact Or.inr rfl

theorem cursor_advance {x : AiScript} : (x.advance x).cursor = x.cursor + 1 := by
  unfold AiScript.advance
  dsimp only
  split <;> rfl

theorem PlayRelies.wrote {turn : Option Turn} (h : PlayRelies mint s n t) (ht : t.at_ = .ending turn) :
    ∃ id f lines, Rewrites t.write id f lines ∧ ((∀ o, f o = o) ∧ lines = [] ∨
      .script id ∈ t.held ∧ RowChange mint s n id (f (s.script id)) lines ∧
        ∀ p ∈ lines, p.script = id) := by
  obtain ⟨point, write, held⟩ := t
  cases ht
  cases turn with
  | none =>
    obtain ⟨id, f, hwrite, hf⟩ := h
    refine ⟨id, f, [], hwrite, hf.imp (fun hf => ⟨hf, rfl⟩) ?_⟩
    exact fun hchange => ⟨hchange.1, hchange.2, fun p hp => by cases hp⟩
  | some turn =>
    cases h with
    | idle hwrite _ _ =>
      refine ⟨0, fun o => o, [], ?_, Or.inl ⟨fun _ => rfl, rfl⟩⟩
      rw [show write = fun s => s from hwrite]
      exact rewrites_id 0
    | rested x f hperforms _ hwrite hf =>
      refine ⟨_, f, [], hwrite, Or.inr ⟨hperforms.locked, .quiet _ ?_, fun p hp => by cases hp⟩⟩
      intro x' token hx' htoken
      rw [hperforms.script] at hx'
      rcases hf with hsame | hhalt
      · rw [hsame] at hx'
        cases hx'
        exact ⟨x, hperforms.script, htoken, rfl⟩
      · rw [hhalt] at hx'
        cases hx'
        cases htoken
    | passed x f hperforms _ hwrite hf _ =>
      refine ⟨_, f, _, hwrite, Or.inr ⟨hperforms.locked, ?_, fun p hp => ?_⟩⟩
      · rw [hperforms.script, hf]
        refine .passed x _ turn.token turn.started hperforms.script hperforms.runToken cursor_advance ?_
        exact runToken_advance.imp_right fun h => h.trans hperforms.runToken
      · split at hp
        · rw [List.mem_singleton.mp hp]
        · cases hp

/-! ### One statement -/

theorem relies_change (hs : Booked mint s n) (change : ScriptChange) {held : List PlayLock} :
    PlayRelies mint s (n + 1) ⟨.ending none, PlayStage.onScripts (change.statement mint n).2,
      .script (change.statement mint n).1 :: held⟩ := by
  cases change with
  | insert obj pk group =>
    refine ⟨n, fun _ => some (obj.row pk group), ?_, Or.inr ⟨List.mem_cons_self, .quiet _ ?_⟩⟩
    · exact rewrites_onScripts fun t j => Slots.row?_put j
    · rintro x' token ⟨⟩ htoken
      cases htoken
  | save id obj =>
    refine ⟨id, Option.map obj.apply, rewrites_modify, Or.inr ⟨List.mem_cons_self, .quiet _ ?_⟩⟩
    intro x' token hx' htoken
    obtain ⟨x, hx, rfl⟩ := Option.map_eq_some_iff.mp hx'
    exact ⟨x, hx, htoken, rfl⟩
  | delete id =>
    refine ⟨id, fun _ => none, ?_, Or.inr ⟨List.mem_cons_self, .quiet _ fun x' _ h => by cases h⟩⟩
    refine rewrites_onScripts fun t j => ?_
    change (t.remove id).row? j = _
    rw [Slots.row?_remove]
    simp only [eq_comm]
  | start id =>
    refine ⟨id, Option.map (AiScript.play (mint n)), rewrites_modify, Or.inr ⟨List.mem_cons_self, ?_⟩⟩
    cases s.script id with
    | none => exact .quiet _ fun x' _ h => by cases h
    | some x => exact .restarted _ n (Nat.lt_succ_self n) rfl (hs.lines id n (Nat.le_refl n))
  | stop id =>
    refine ⟨id, Option.map AiScript.halt, rewrites_modify, Or.inr ⟨List.mem_cons_self, .quiet _ ?_⟩⟩
    intro x' token hx' htoken
    obtain ⟨x, -, rfl⟩ := Option.map_eq_some_iff.mp hx'
    cases htoken

theorem PlayRelies.go {locks : List PlayLock} {write : PlayStage → PlayStage} {next : PlayPoint}
    (hs : Booked mint s n) (h : PlayRelies mint s n t)
    (hgo : playNext mint t.at_ (t.write s) n = .go locks write next) :
    PlayRelies mint s (n + 1) ⟨next, write ∘ t.write, locks ++ t.held⟩ := by
  obtain ⟨point, w, held⟩ := t
  dsimp only at hgo
  cases point with
  | asking edit =>
    obtain rfl : w = fun s => s := h
    simp only [playNext] at hgo
    split at hgo <;> cases hgo
    rfl
  | changing change =>
    obtain rfl : w = fun s => s := h
    cases hgo
    exact relies_change hs change
  | elsewhere e =>
    obtain rfl : w = fun s => s := h
    cases hgo
    have haside : Rewrites (fun s => { s with plane := e.write s.plane }) 0 (fun o => o) [] := by
      apply Rewrites.aside
      · exact fun s => e.scripts s.plane
      · exact fun _ => rfl
    exact ⟨0, fun o => o, haside, Or.inl fun _ => rfl⟩
  | fetching d =>
    obtain rfl : w = fun s => s := h
    simp only [playNext] at hgo
    split at hgo
    · cases hgo
      exact .idle rfl rfl rfl
    · rename_i x hx
      split at hgo <;> cases hgo
      · exact ⟨rfl, List.mem_cons_self, hx, ‹_›⟩
      · exact .idle rfl rfl rfl
  | casting d x =>
    obtain ⟨rfl, hperforms⟩ := h
    simp only [playNext] at hgo
    split at hgo
    · cases hgo
      exact ⟨rfl, hperforms, ‹_›⟩
    · cases hgo
      exact .rested x _ hperforms rfl rewrites_modify (Or.inr rfl)
  | seeking d x group line =>
    obtain ⟨rfl, hperforms, hline⟩ := h
    simp only [playNext] at hgo
    split at hgo
    · cases hgo
      exact ⟨hperforms, rewrites_id _, nofun⟩
    · cases hgo
      exact ⟨rfl, hperforms, hline, rfl, rfl, fun _ => rfl, fun pk hpk => by cases hpk⟩
  | triggering d x line point pending =>
    obtain ⟨rfl, hperforms, hline, hprepares⟩ := h
    simp only [playNext] at hgo
    split at hgo
    · rename_i hnext
      cases hgo
      exact ⟨rfl, hperforms.more _, hline, hprepares.go hnext⟩
    · rename_i pk hnext
      cases hgo
      refine ⟨hperforms, ⟨fun s j => ?_, fun s => rfl⟩, fun _ => ⟨line, pk, hline, fun s => ?_⟩⟩
      · change (pending s.plane).scripts.row? j = _
        rw [hprepares.scripts]
        split
        · rename_i hj
          rw [hj]
          rfl
        · rfl
      · exact hprepares.run pk (created_of_commit hnext) s.plane
    · split at hgo <;> cases hgo
      exact .rested x _ hperforms rfl (rewrites_id _) (Or.inl rfl)
  | passing d x started =>
    obtain ⟨hperforms, hwrite, hrecited⟩ := h
    cases hgo
    refine .passed x (Option.map x.advance) hperforms rfl ?_ rfl ?_
    · have hcomp := hwrite.comp (rewrites_modify : Rewrites
        (PlayStage.onScripts fun t => t.modify d.script x.advance) d.script (Option.map x.advance) [])
      rwa [List.append_nil] at hcomp
    · intro hstarted
      obtain ⟨line, pk, hline, hrun⟩ := hrecited hstarted
      exact ⟨line, pk, hline, hrun⟩
  | ending turn => cases hgo

theorem playNext_eq_commit {turn : Option Turn} {point : PlayPoint}
    (h : playNext mint point s n = .commit turn) : point = .ending turn := by
  cases point with
  | ending turn' =>
    cases h
    rfl
  | changing change => cases h
  | elsewhere e => cases h
  | passing d x started => cases h
  | asking edit =>
    simp only [playNext] at h
    split at h <;> cases h
  | fetching d =>
    simp only [playNext] at h
    split at h
    · cases h
    · split at h <;> cases h
  | casting d x =>
    simp only [playNext] at h
    split at h <;> cases h
  | seeking d x group line =>
    simp only [playNext] at h
    split at h <;> cases h
  | triggering d x line point pending =>
    simp only [playNext] at h
    split at h
    · cases h
    · cases h
    · split at h <;> cases h

/-- Whatever the order of the statements, the rows and the book go on to fit together. -/
theorem keeps_playing (hmint : Function.Injective mint) : Keeps (playing mint) (fun _ _ => True)
    (fun s n _ => Booked mint s n) (PlayRelies mint) where
  start s n log r _ := by cases r <;> rfl
  later s n log h := ⟨h.later, fun t ht => ht.later⟩
  go s n log t locks write next hs ht _ hgo := ht.go hs hgo
  commit s n log t answer hs ht _ hnext := by
    obtain ⟨id, f, lines, hwrite, hrow⟩ := ht.wrote (playNext_eq_commit hnext)
    constructor
    · rcases hrow with ⟨hf, rfl⟩ | ⟨-, hchange, -⟩
      · refine hs.commit hmint hwrite (.quiet _ fun x' token hx' htoken => ?_)
        rw [hf] at hx'
        exact ⟨x', hx', htoken, rfl⟩
      · exact hs.commit hmint hwrite hchange
    · intro u hu hdisjoint
      refine hu.stable hwrite (hrow.imp_right ?_)
      rintro ⟨hlocked, -, hown⟩
      exact ⟨fun hheld => hdisjoint hlocked hheld, hown⟩

end Relies

end TgPlatform
