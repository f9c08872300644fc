import TgPlatform.Ai.ScriptRows
import TgPlatform.Control.AiScope
import TgPlatform.Lib.Fields

/-! # Each line once, in order

Deliveries of the task may come late and more than once, and overlap with
requests that restart, stop, save or delete the script. Whoever moves the cursor
holds the row's lock from the moment it has read the row, so for one token the
cursor only moves on, and a line is started only by the step that leaves it.
-/

namespace TgPlatform

open Overlap

abbrev PlayState := State PlayStage PlayLock (Option Turn) PlayPoint

structure Playback (s : PlayState) (a : Act PlayRequest) (s' : PlayState) : Prop where
  /-- The lines of a token are started in order, and each of them once. -/
  sorted : ∀ id token, (s'.committed.linesOf id token).Pairwise (· < ·)
  /-- A step that has scheduled the next one runs under the current token. -/
  scheduled : ∀ i t turn, s.sessions.row? i = some t → t.at_ = .ending (some turn) →
    turn.scheduled = true → s.committed.Plays turn.script turn.token
  /-- A step under another token changes nothing. -/
  stale : ∀ i t turn, a = .move i → s.sessions.row? i = some t → t.at_ = .ending (some turn) →
    ¬ s.committed.Plays turn.script turn.token → s'.committed = s.committed
  /-- A step that moves the cursor leaves one line, which it has started if it tells so. -/
  passed : ∀ i t turn x x', a = .move i → s.sessions.row? i = some t → t.at_ = .ending (some turn) →
    s.committed.script turn.script = some x → s'.committed.script turn.script = some x' →
    x'.cursor ≠ x.cursor → x'.cursor = x.cursor + 1 ∧ turn.passed = some x.cursor ∧
      (turn.started = true → x.Recited t.write ∧
        s'.committed.played = s.committed.played ++ [⟨turn.script, turn.token, x.cursor⟩])
  /-- A step tells truly whether it has started the line. -/
  tells : ∀ i t t' turn k, a = .move i → s.sessions.row? i = some t → s'.sessions.row? i = some t' →
    t'.at_ = .ending (some turn) → turn.passed = some k →
    ∃ d x, t.at_ = .passing d x turn.started ∧ d.script = turn.script ∧ x.cursor = k
  /-- A line is left without being started only if its member is not active in the group. -/
  absent : ∀ i t t' d x, a = .move i → s.sessions.row? i = some t → s'.sessions.row? i = some t' →
    t'.at_ = .passing d x false → ∃ group line, x.lines[x.cursor]? = some line ∧
      t.at_ = .seeking d x group line ∧
      line.memberId ∉ ((t.write s.committed).plane.groupMembers x.groupId group).map Prod.fst

/-! ## Runs -/

section Runs

variable {mint : ℕ → String} {s s' : PlayState} {a : Act PlayRequest}

/-- The rows and the book fit together, and each transaction has what it relies on. -/
abbrev Staged (mint : ℕ → String) (s : PlayState) : Prop :=
  Sound (fun s n _ => Booked mint s n) (PlayRelies mint) s

theorem Staged.step (hmint : Function.Injective mint) (hs : Staged mint s)
    (h : (playing mint).step s a = some s') : Staged mint s' :=
  Sound.step (keeps_playing hmint) hs (fun _ _ _ _ => trivial) h

theorem go_of_move {i : ℕ} {t t' : PlaySession} (h : (playing mint).step s (.move i) = some s')
    (ht : s.sessions.row? i = some t) (ht' : s'.sessions.row? i = some t') :
    ∃ locks write, playNext mint t.at_ (t.write s.committed) s.serial = .go locks write t'.at_ := by
  generalize ha : Act.move i = a at h
  cases stepped_of_step h with
  | start r => cases ha
  | go j u locks write next hu hnext hfree =>
    cases ha
    rw [ht] at hu
    cases hu
    rw [Slots.row?_modify_self, ht] at ht'
    cases ht'
    exact ⟨locks, write, hnext⟩
  | commit j u answer hu hnext =>
    cases ha
    exact absurd rfl (Slots.row?_of_remove ht').1
  | fail _ j u hu hend =>
    rcases hend with ⟨heq, -⟩ | heq
    · rw [heq] at ha
      cases ha
      exact absurd rfl (Slots.row?_of_remove ht').1
    · rw [heq] at ha
      cases ha

theorem committed_of_ending {i : ℕ} {t : PlaySession} {turn : Option Turn}
    (h : (playing mint).step s (.move i) = some s') (ht : s.sessions.row? i = some t)
    (hending : t.at_ = .ending turn) : s'.committed = t.write s.committed := by
  change (s.sessions.row? i).bind _ = _ at h
  rw [ht, Option.bind_some] at h
  unfold Program.move at h
  rw [hending] at h
  cases h
  rfl

/-- A step that has read a script that does not play under its token has done nothing. -/
theorem Ended.stays {s : PlayStage} {t : PlaySession} {turn : Turn} (h : Ended s t turn)
    (hstale : ¬ s.Plays turn.script turn.token) : t.write s = s := by
  cases h with
  | idle hwrite _ _ => rw [hwrite]
  | rested x f hperforms _ _ _ => exact absurd hperforms.stage hstale
  | passed x f hperforms _ _ _ _ => exact absurd hperforms.stage hstale

theorem Ended.plays {s : PlayStage} {t : PlaySession} {turn : Turn} (h : Ended s t turn)
    (hscheduled : turn.scheduled = true) : s.Plays turn.script turn.token := by
  cases h with
  | idle _ _ hidle =>
    rw [hidle] at hscheduled
    cases hscheduled
  | rested x f hperforms _ _ _ => exact hperforms.stage
  | passed x f hperforms _ _ _ _ => exact hperforms.stage

theorem Ended.moves {s : PlayStage} {t : PlaySession} {turn : Turn} {x x' : AiScript}
    (h : Ended s t turn)
    (hx : s.script turn.script = some x) (hx' : (t.write s).script turn.script = some x')
    (hne : x'.cursor ≠ x.cursor) : x'.cursor = x.cursor + 1 ∧ turn.passed = some x.cursor ∧
      (turn.started = true → x.Recited t.write ∧
        (t.write s).played = s.played ++ [⟨turn.script, turn.token, x.cursor⟩]) := by
  cases h with
  | idle hwrite _ _ =>
    rw [hwrite, hx] at hx'
    cases hx'
    exact absurd rfl hne
  | rested y f hperforms _ hwrite hf =>
    rw [hwrite.row, if_pos rfl, hperforms.script] at hx'
    rw [hperforms.script] at hx
    cases hx
    rcases hf with hsame | hhalt
    · rw [hsame] at hx'
      cases hx'
      exact absurd rfl hne
    · rw [hhalt] at hx'
      cases hx'
      exact absurd rfl hne
  | passed y f hperforms hpassed hwrite hf hrecited =>
    rw [hwrite.row, if_pos rfl, hperforms.script, hf] at hx'
    rw [hperforms.script] at hx
    cases hx
    cases hx'
    refine ⟨cursor_advance, hpassed, fun hstarted => ⟨hrecited hstarted, ?_⟩⟩
    rw [hwrite.played, if_pos hstarted]

theorem Staged.ended (hs : Staged mint s) {i : ℕ} {t : PlaySession} {turn : Turn}
    (ht : s.sessions.row? i = some t) (hending : t.at_ = .ending (some turn)) :
    Ended s.committed t turn := by
  have hrelies := hs.session i t ht
  unfold PlayRelies at hrelies
  rw [hending] at hrelies
  exact hrelies

/-- A step has passed a line only from the statement that has told whether it is started. -/
theorem passing_of_go {n : ℕ} {d : PlayStage} {point : PlayPoint} {locks : List PlayLock}
    {write : PlayStage → PlayStage} {turn : Turn} {k : ℕ}
    (h : playNext mint point d n = .go locks write (.ending (some turn))) (hk : turn.passed = some k) :
    ∃ d x, point = .passing d x turn.started ∧ d.script = turn.script ∧ x.cursor = k := by
  cases point with
  | passing d x started =>
    cases h
    exact ⟨d, x, rfl, rfl, Option.some.inj hk⟩
  | changing change => cases h
  | elsewhere e => cases h
  | ending turn' => cases h
  | asking edit =>
    simp only [playNext] at h
    split at h <;> cases h
  | fetching d =>
    simp only [playNext] at h
    split at h
    · cases h
      cases hk
    · split at h <;> cases h
      cases hk
  | casting d x =>
    simp only [playNext] at h
    split at h <;> cases h
    cases hk
  | seeking d x group line =>
    simp only [playNext] at h
    split at h <;> cases h
  | triggering d x line point pending =>
    simp only [playNext] at h
    split at h
    · cases h
    · cases h
    · split at h <;> cases h
      cases hk

theorem seeking_of_go {n : ℕ} {s : PlayStage} {point : PlayPoint} {locks : List PlayLock}
    {write : PlayStage → PlayStage} {d : ScriptStep} {x : AiScript}
    (h : playNext mint point s n = .go locks write (.passing d x false)) :
    ∃ group line, point = .seeking d x group line ∧
      line.memberId ∉ (s.plane.groupMembers x.groupId group).map Prod.fst := by
  cases point with
  | seeking d' x' group line =>
    simp only [playNext] at h
    split at h
    · rename_i hnone
      cases h
      refine ⟨group, line, rfl, fun hmem => ?_⟩
      obtain ⟨b, hb, hid⟩ := List.mem_map.mp hmem
      simpa [hid] using List.find?_eq_none.mp hnone b hb
    · cases h
  | triggering d' x' line point pending =>
    simp only [playNext] at h
    split at h
    · cases h
    · cases h
    · split at h <;> cases h
  | passing d' x' started => cases h
  | changing change => cases h
  | elsewhere e => cases h
  | ending turn' => cases h
  | asking edit =>
    simp only [playNext] at h
    split at h <;> cases h
  | fetching d' =>
    simp only [playNext] at h
    split at h
    · cases h
    · split at h <;> cases h
  | casting d' x' =>
    simp only [playNext] at h
    split at h <;> cases h

theorem Staged.playback (hmint : Function.Injective mint) (hs : Staged mint s)
    (h : (playing mint).step s a = some s') : Playback s a s' where
  sorted := (hs.step hmint h).committed.sorted
  scheduled i t turn ht hending hscheduled := (hs.ended ht hending).plays hscheduled
  stale i t turn ha ht hending hstale := by
    subst a
    rw [committed_of_ending h ht hending]
    exact (hs.ended ht hending).stays hstale
  passed i t turn x x' ha ht hending hx hx' hne := by
    subst a
    rw [committed_of_ending h ht hending] at hx' ⊢
    exact (hs.ended ht hending).moves hx hx' hne
  tells i t t' turn k ha ht ht' hending hk := by
    subst a
    obtain ⟨locks, write, hgo⟩ := go_of_move h ht ht'
    rw [hending] at hgo
    exact passing_of_go hgo hk
  absent i t t' d x ha ht ht' hpassing := by
    subst a
    obtain ⟨locks, write, hgo⟩ := go_of_move h ht ht'
    rw [hpassing] at hgo
    obtain ⟨group, line, hat, hmember⟩ := seeking_of_go hgo
    have hrelies := hs.session i t ht
    unfold PlayRelies at hrelies
    rw [hat] at hrelies
    exact ⟨group, line, hrelies.2.2, hat, hmember⟩

/-- From rows whose tokens are never minted again, every interleaving of steps, of requests on
scripts and of whatever else is written plays each script line by line. -/
theorem scripts_play_in_order (hmint : Function.Injective mint) (plane : ControlPlane)
    (hold : ∀ id x m, plane.scripts.row? id = some x → x.runToken ≠ some (mint m)) (n : ℕ)
    (as : List (Act PlayRequest)) :
    Machine.Always (playing mint).step Playback { committed := { plane }, serial := n } as := by
  have hinit : Staged mint { committed := { plane }, serial := n } := by
    refine .init ⟨fun _ _ => .nil, ?_, fun id x m hx _ => hold id x m hx, fun _ _ _ => rfl⟩
    intro id x token _ _ k hk
    cases hk
  apply Machine.always_of_invariant (I := Staged mint)
  · exact fun _ _ _ hstep hs => hs.step hmint hstep
  · exact fun _ _ _ hstep hs => hs.playback hmint hstep
  · exact hinit

end Runs

/-! ## One line delivered twice -/

/-- A group with one member, and a script with a line of someone else. -/
def scriptedGroup : ControlPlane :=
  { ControlPlane.ofDirectory ControlPlane.memberOfFirst with
    groups := ⟨[some { tenantId := 1, projectId := 1, name := "g", chatId := -100, status := "active" }]⟩
    bindings := ⟨[some {
      uuid := "b", tenantId := 1, projectId := 1, accountId := 1, botUuid := "", baseUrl := ""
      inboundSecretRef := "", outboundSecretRef := "", engine := "openai", groupId := some 0 }]⟩
    scripts := ⟨[some { tenantId := 1, projectId := 1, groupId := 0, name := "s"
                        lines := [⟨0, "hi"⟩, ⟨7, "who?"⟩, ⟨0, "bye"⟩] }]⟩ }

def mintNumber (n : ℕ) : String := toString (n : ℤ)

theorem mintNumber_injective : Function.Injective mintNumber := fun _ _ h =>
  Int.ofNat.inj (Fields.toString_int_injective (congrArg String.toList h))

def deliveredTwice : List (Act PlayRequest) :=
  let step : Act PlayRequest := .start (.step ⟨ControlPlane.silence, 0, "1"⟩)
  .start (.edit (.start ControlPlane.silence { id := 0, isSuperuser := true } 0 0)) ::
    List.replicate 3 (.move 0) ++ [step, step] ++ List.replicate 13 (.move 1) ++
      List.replicate 5 (.move 2)

theorem second_delivery_goes_on :
    ((Machine.run (playing mintNumber).step { committed := { plane := scriptedGroup } }
      deliveredTwice).map fun s =>
        (s.committed.played, s.committed.plane.scripts.all.map fun x => x.2.cursor)) =
        some ([⟨0, "1", 0⟩], [2]) ∧
      Machine.Always (playing mintNumber).step Playback { committed := { plane := scriptedGroup } }
        deliveredTwice := by
  constructor
  · decide +kernel
  · apply scripts_play_in_order mintNumber_injective
    intro id x m hx htoken
    obtain ⟨-, hmem⟩ := List.mem_singleton.mp (Slots.mem_all.mpr hx) |> Prod.mk.inj
    rw [hmem] at htoken
    cases htoken

end TgPlatform
