import TgPlatform.Ai.OwnVoice
import TgPlatform.Ai.RunsEnd

/-! # Transactions that overtake one another

A transaction knows the uuid of the run that it works on, and a trigger holds the
keys of the run that it adds. What the others commit meanwhile takes neither from
it.
-/

namespace TgPlatform

open Overlap Slots

/-- What a transaction has written so far. -/
def RunPoint.effect : RunPoint → Effect
  | .expiring _ _ effect | .ending effect => effect
  | _ => {}

def RunPoint.names : RunPoint → Option (RunId × String)
  | .storing _ _ _ _ run => run.map fun r => (r.1, r.2.uuid)
  | .advancing _ _ _ pk run | .answering _ _ _ pk run _ _ | .casting _ pk run | .cancelling _ pk run =>
    some (pk, run.uuid)
  | .refreshing _ pk scene | .finishing _ pk scene => some (pk, scene.prompt.run.uuid)
  | .ending effect => effect.speaks
  | _ => none

def RunPoint.isTrigger : RunPoint → Bool
  | .triggering _ => true
  | _ => false

/-- A transaction has written what its point tells, and knows the run that it works on. -/
structure Rests (s : ControlPlane) (write : ControlPlane → ControlPlane) (point : RunPoint) : Prop where
  write : ∀ s, Leaves point.effect s (write s)
  speaks : ∀ x, point.effect.speaks = some x → point.names = some x
  knows : ∀ x, point.names = some x → s.Knows x

/-- The run that a trigger has put in is fresh, and nobody else claims its id or its uuid. -/
structure Claims (s : ControlPlane) (n : ℕ) (held : List RunLock) (pk : RunId) (uuid : String) :
    Prop where
  lt : pk < n
  fresh : Fresh s pk uuid
  locked : .trigger (.run pk) ∈ held
  claimed : .uuid uuid ∈ held

def TriggerRests (s : ControlPlane) (n : ℕ) (write : ControlPlane → ControlPlane) (held : List RunLock) :
    TriggerPoint → Prop
  | .handing req _ _ pk run => Claims s n held pk (req.out.uuid 3) ∧ run.uuid = req.out.uuid 3 ∧
    ∀ s, Silent s (write s) ∧ (write s).runs = s.runs.put pk run
  | .ending req _ pk => Claims s n held pk (req.out.uuid 3) ∧ ∀ s, Adds pk (req.out.uuid 3) s (write s)
  | _ => ∀ s, Silent s (write s) ∧ (write s).runs = s.runs

def RunRelies (s : ControlPlane) (n : ℕ) (t : RunSession) : Prop :=
  match t.at_ with
  | .triggering point => TriggerRests s n t.write t.held point
  | point => Rests s t.write point

section Relies

variable {s s' : ControlPlane} {n : ℕ} {write : ControlPlane → ControlPlane} {held : List RunLock}
  {point next : RunPoint}

theorem Claims.mono {held' : List RunLock} {pk : RunId} {uuid : String} (h : Claims s n held pk uuid)
    (hheld : held ⊆ held') : Claims s (n + 1) held' pk uuid :=
  ⟨Nat.lt_succ_of_lt h.lt, h.fresh, hheld h.locked, hheld h.claimed⟩

theorem TriggerRests.later {point : TriggerPoint} (h : TriggerRests s n write held point) :
    TriggerRests s (n + 1) write held point := by
  cases point with
  | handing req binding chosen pk run => exact ⟨h.1.mono fun _ => id, h.2⟩
  | ending req chosen pk => exact ⟨h.1.mono fun _ => id, h.2⟩
  | _ => exact h

theorem RunRelies.later {t : RunSession} (h : RunRelies s n t) : RunRelies s (n + 1) t := by
  obtain ⟨point, write, held⟩ := t
  cases point with
  | triggering point => exact TriggerRests.later h
  | _ => exact h

theorem Rests.sees (h : Rests s write point) {pk : RunId} {run : AiRun}
    (hrow : (write s).runs.row? pk = some run) : s.Knows (pk, run.uuid) := by
  obtain ⟨r, hr, huuid⟩ := ((h.write s).persist.back pk run hrow).resolve_right nofun
  exact ⟨r, hr, huuid.symm⟩

theorem Rests.go {w : ControlPlane → ControlPlane} {e : Effect} (h : Rests s write point)
    (hquiet : point.effect.speaks = none) (hw : ∀ s, Leaves e s (w s))
    (hmoved : next.effect.moved = e.moved ++ point.effect.moved)
    (hspeaks : next.effect.speaks = e.speaks)
    (hsaid : ∀ x, next.effect.speaks = some x → next.names = some x)
    (hknows : ∀ x, next.names = some x → s.Knows x) : Rests s (w ∘ write) next :=
  ⟨fun s => (h.write s).trans hquiet (hw _) hmoved hspeaks, hsaid, hknows⟩

theorem Rests.query (h : Rests s write point) (hquiet : point.effect = {}) (hnext : next.effect = {})
    (hknows : ∀ x, next.names = some x → s.Knows x) : Rests s (id ∘ write) next := by
  refine h.go (e := {}) ?_ (fun s => Std.Refl.refl s) ?_ ?_ ?_ hknows
  · rw [hquiet]
  · rw [hquiet, hnext]
    rfl
  · rw [hnext]
  · rw [hnext]
    nofun

theorem Rests.idle (h : Rests s write point) (hquiet : point.effect = {}) (hnext : next.effect = {})
    (hnames : next.names = none) : Rests s (id ∘ write) next := by
  refine h.query hquiet hnext fun x hx => ?_
  rw [hnames] at hx
  cases hx

theorem Rests.lastly {m : Req Unit} {locks locks' : List RunLock} {e : Effect}
    (h : Rests s write point) (hquiet : point.effect = {})
    (hm : Txn.Does (Leaves e) m) (hnames : ∀ x, e.speaks = some x → point.names = some x)
    {w : ControlPlane → ControlPlane}
    (hgo : lastly m (write s) locks e = .go locks' w next) : Rests s (w ∘ write) next := by
  unfold TgPlatform.lastly at hgo
  split at hgo
  · cases hgo
  · cases hgo
    refine h.go (by rw [hquiet]) (fun s => hm.commit s) ?_ rfl (fun x => id) fun x hx => ?_
    · rw [hquiet]
      exact (List.append_nil _).symm
    · exact h.knows x (hnames x hx)

theorem isTrigger_of_lastly {m : Req Unit} {locks locks' : List RunLock} {e : Effect}
    {w : ControlPlane → ControlPlane} (hgo : lastly m s locks e = .go locks' w next) :
    next.isTrigger = false := by
  unfold TgPlatform.lastly at hgo
  split at hgo <;> cases hgo
  rfl

theorem Rests.moves {w : ControlPlane → ControlPlane} {x : RunId × RunStatus}
    (h : Rests s write point) (hquiet : point.effect = {})
    (hw : ∀ s, Leaves { moved := [x] } s (w s)) :
    Rests s (w ∘ write) (.ending { moved := [x] }) := by
  refine h.go (by rw [hquiet]) hw ?_ rfl nofun nofun
  rw [hquiet]
  rfl

theorem TriggerRests.go {point : TriggerPoint} (hs : RunsKept s n)
    (h : TriggerRests s n write held point) {locks : List RunLock} {w : ControlPlane → ControlPlane}
    (hgo : runNext (.triggering point) (write s) n = .go locks w next) :
    ∃ point', next = .triggering point' ∧ TriggerRests s (n + 1) (w ∘ write) (locks ++ held) point' := by
  simp only [runNext] at hgo
  split at hgo
  · cases hgo
  · rename_i hunique
    cases point with
    | reading req =>
      simp only [triggerNext] at hgo
      split at hgo <;> rename_i hnext
      · split at hnext <;> cases hnext
        cases hgo
        exact ⟨_, rfl, h⟩
      · cases hgo
      · cases hgo
    | dating req binding =>
      cases hgo
      exact ⟨_, rfl, h⟩
    | finding req binding epoch =>
      simp only [triggerNext] at hgo
      split at hgo <;> rename_i hnext
      · split at hnext <;> cases hnext <;> cases hgo
        · exact ⟨_, rfl, h⟩
        · exact ⟨_, rfl, h⟩
      · cases hgo
      · cases hgo
    | opening req binding epoch =>
      simp only [triggerNext] at hgo
      split at hgo <;> rename_i hnext
      · split at hnext <;> cases hnext
        cases hgo
        exact ⟨_, rfl, fun s => ⟨⟨(h s).1.candidates, (h s).1.approvals, (h s).1.jobs⟩, (h s).2⟩⟩
      · cases hgo
      · cases hgo
    | checking req binding chosen =>
      simp only [triggerNext] at hgo
      split at hgo <;> rename_i hnext
      · split at hnext <;> cases hnext
        cases hgo
        exact ⟨_, rfl, h⟩
      · cases hgo
      · cases hgo
    | creating req binding chosen =>
      simp only [triggerNext] at hgo
      split at hgo <;> rename_i hnext
      · split at hnext <;> cases hnext
        cases hgo
        refine ⟨_, rfl, ⟨Nat.lt_succ_self n, ⟨?_, fun i r hr huuid => ?_⟩, by simp, ?_⟩, rfl,
          fun s => ?_⟩
        · by_contra hrow
          obtain ⟨r, hr⟩ := Option.ne_none_iff_exists'.mp hrow
          exact (Nat.lt_irrefl n) (hs.lt n r hr)
        · simp only [TriggerPoint.inserts, Option.any_some, Bool.not_eq_true, Option.isSome_eq_false_iff,
            Option.isNone_iff_eq_none] at hunique
          rw [← (h s).2] at hr
          have hfalse := first?_eq_none hunique hr
          simp [huuid] at hfalse
        · simp [TriggerPoint.inserts]
        · exact ⟨⟨(h s).1.candidates, (h s).1.approvals, (h s).1.jobs⟩,
            congrArg (fun runs => Slots.put runs n _) (h s).2⟩
      · cases hgo
      · cases hgo
    | handing req binding chosen pk run =>
      obtain ⟨hclaims, huuid, hwrite⟩ := h
      simp only [triggerNext] at hgo
      split at hgo <;> rename_i hnext
      · split at hnext <;> cases hnext
        cases hgo
        refine ⟨_, rfl, hclaims.mono (List.subset_append_right _ _), fun s => ?_⟩
        obtain ⟨hsilent, hput⟩ := hwrite s
        have hrow : (write s).runs.row? pk = some run := by
          rw [hput, row?_put, if_pos rfl]
        have hothers (i : RunId) (hi : i ≠ pk) : (write s).runs.row? i = s.runs.row? i := by
          rw [hput, row?_put, if_neg hi]
        rw [← huuid]
        refine Txn.Post.commit (U := fun _ => True) (I := fun s' => Adds pk run.uuid s s') ?_ ?_
        · exact handOver_handedOver.mono fun _ _ hhanded => hhanded.adds hrow hsilent hothers
        · exact ⟨hothers, run, hrow, rfl, .inl hsilent⟩
      · cases hgo
      · cases hgo
    | ending req chosen pk => cases hgo

/-- A statement of another transaction leaves it with what it may rely on next. -/
theorem Rests.step (h : Rests s write point) (hpoint : point.isTrigger = false)
    {locks : List RunLock} {w : ControlPlane → ControlPlane}
    (hgo : runNext point (write s) n = .go locks w next) :
    Rests s (w ∘ write) next ∧ next.isTrigger = false := by
  cases point with
  | triggering p => cases hpoint
  | accepting py req =>
    simp only [runNext] at hgo
    split at hgo <;> cases hgo
    exact ⟨h.idle rfl rfl rfl, rfl⟩
  | linking py req b fields =>
    cases hgo
    refine ⟨h.query rfl rfl ?_, rfl⟩
    intro x hx
    obtain ⟨⟨pk, run⟩, hlink, rfl⟩ := Option.map_eq_some_iff.mp hx
    exact h.sees (ControlPlane.linkRun_some hlink).1
  | storing py req b fields run =>
    simp only [runNext] at hgo
    split at hgo
    · cases hgo
    · cases hgo
      have hstore (cb : AiCallback) (s : ControlPlane) :
          Leaves {} s { s with callbacks := s.callbacks.add cb } :=
        .of_unmoved ⟨rfl, rfl, rfl⟩ rfl
      cases run with
      | none => exact ⟨h.go rfl (hstore _) rfl rfl (fun x => id) (fun x hx => by cases hx), rfl⟩
      | some found =>
        obtain ⟨pk, run⟩ := found
        exact ⟨h.go rfl (hstore _) rfl rfl (fun x hx => by cases hx) h.knows, rfl⟩
  | advancing py req cb pk run =>
    simp only [runNext] at hgo
    split at hgo
    · split at hgo <;> cases hgo
      · exact ⟨h.moves rfl fun s => .of_modify ⟨rfl, rfl, rfl⟩ rfl fun _ => ⟨rfl, rfl⟩, rfl⟩
      · exact ⟨h.idle rfl rfl rfl, rfl⟩
    · split at hgo
      · split at hgo <;> cases hgo
        exact ⟨h.query rfl rfl h.knows, rfl⟩
      · cases hgo
        exact ⟨h.moves rfl fun s => .of_modify ⟨rfl, rfl, rfl⟩ rfl fun _ => ⟨rfl, rfl⟩, rfl⟩
  | answering py req cb pk run text conv =>
    simp only [runNext] at hgo
    exact ⟨h.lastly rfl answerRun_leaves (fun x hx => hx) hgo, isTrigger_of_lastly hgo⟩
  | fetching out pk =>
    simp only [runNext] at hgo
    split at hgo
    · cases hgo
      exact ⟨h.idle rfl rfl rfl, rfl⟩
    · rename_i run hrun
      split at hgo <;> cases hgo
      · exact ⟨h.idle rfl rfl rfl, rfl⟩
      · refine ⟨h.query rfl rfl ?_, rfl⟩
        rintro x ⟨⟩
        exact h.sees (Option.filter_eq_some_iff.mp hrun).1
  | casting out pk run =>
    simp only [runNext] at hgo
    split at hgo
    · cases hgo
      exact ⟨h.moves rfl fun s => giveUp_leaves, rfl⟩
    · split at hgo
      · cases hgo
        exact ⟨h.moves rfl fun s => giveUp_leaves, rfl⟩
      · split at hgo
        · exact ⟨h.lastly rfl failRun_leaves (fun x hx => by cases hx) hgo, isTrigger_of_lastly hgo⟩
        · rename_i prompt hprompt
          cases hgo
          refine ⟨h.query rfl rfl fun x hx => h.knows x ?_, rfl⟩
          rw [← hx]
          have hrun := (ControlPlane.promptOf_holds hprompt).1
          exact congrArg (fun r => some (pk, AiRun.uuid r)) hrun.symm
  | refreshing out pk scene =>
    simp only [runNext] at hgo
    split at hgo <;> cases hgo
    · exact ⟨h.idle rfl rfl rfl, rfl⟩
    · exact ⟨h.query rfl rfl h.knows, rfl⟩
  | finishing out pk scene =>
    simp only [runNext] at hgo
    split at hgo
    · exact ⟨h.lastly rfl failRun_leaves (fun x hx => by cases hx) hgo, isTrigger_of_lastly hgo⟩
    · exact ⟨h.lastly rfl speak_leaves (fun x hx => hx) hgo, isTrigger_of_lastly hgo⟩
  | checking out pk =>
    simp only [runNext] at hgo
    split at hgo
    · cases hgo
    · rename_i run hrun
      split at hgo <;> cases hgo
      refine ⟨h.query rfl rfl ?_, rfl⟩
      rintro x ⟨⟩
      exact h.sees (Option.filter_eq_some_iff.mp hrun).1
  | cancelling out pk run =>
    cases hgo
    exact ⟨h.moves rfl fun s => .of_modify ⟨rfl, rfl, rfl⟩ rfl fun _ => ⟨rfl, rfl⟩, rfl⟩
  | collecting out =>
    cases hgo
    exact ⟨h.idle rfl rfl rfl, rfl⟩
  | expiring out due effect =>
    have hquiet : effect.speaks = none := by
      by_contra hspeaks
      obtain ⟨x, hx⟩ := Option.ne_none_iff_exists'.mp hspeaks
      cases h.speaks x hx
    cases due with
    | nil =>
      cases hgo
      refine ⟨h.go (e := {}) hquiet (fun s => Std.Refl.refl s) rfl hquiet (fun x => id) ?_, rfl⟩
      intro x hx
      cases hquiet.symm.trans hx
    | cons r due =>
      obtain ⟨pk, run⟩ := r
      cases hgo
      refine ⟨h.go (e := { moved := [(pk, .incomplete)] }) hquiet (fun s => expire_leaves) rfl hquiet ?_
        ?_, rfl⟩
      · intro x hx
        cases hquiet.symm.trans hx
      · intro x hx
        cases hx
  | ending effect => cases hgo

/-! ## The end of a transaction -/

theorem Rests.stable {created : Option (RunId × String)} (h : Rests s write point)
    (hpersist : Persist created s s') : Rests s' write point :=
  ⟨h.write, h.speaks, fun x hx => hpersist.knows (h.knows x hx)⟩

theorem Claims.stable {created : Option (RunId × String)} {held' : List RunLock} {pk : RunId}
    {uuid : String} (h : Claims s n held pk uuid) (hpersist : Persist created s s')
    (hnew : ∀ x, created = some x → Claims s n held' x.1 x.2) (hdisjoint : held'.Disjoint held) :
    Claims s' n held pk uuid := by
  refine ⟨h.lt, ⟨?_, fun i r' hr' huuid => ?_⟩, h.locked, h.claimed⟩
  · by_contra hrow
    obtain ⟨r', hr'⟩ := Option.ne_none_iff_exists'.mp hrow
    rcases hpersist.back pk r' hr' with ⟨r, hr, -⟩ | hcreated
    · rw [h.fresh.row] at hr
      cases hr
    · exact hdisjoint (hnew _ hcreated).locked h.locked
  · rcases hpersist.back i r' hr' with ⟨r, hr, hsame⟩ | hcreated
    · exact h.fresh.uuid i r hr (hsame.symm.trans huuid)
    · have hclaimed := (hnew _ hcreated).claimed
      rw [huuid] at hclaimed
      exact hdisjoint hclaimed h.claimed

theorem RunRelies.stable {created : Option (RunId × String)} {held' : List RunLock} {t : RunSession}
    (h : RunRelies s n t) (hpersist : Persist created s s')
    (hnew : ∀ x, created = some x → Claims s n held' x.1 x.2) (hdisjoint : held'.Disjoint t.held) :
    RunRelies s' n t := by
  obtain ⟨point, write, held⟩ := t
  cases point with
  | triggering point =>
    cases point with
    | handing req binding chosen pk run => exact ⟨h.1.stable hpersist hnew hdisjoint, h.2⟩
    | ending req chosen pk => exact ⟨h.1.stable hpersist hnew hdisjoint, h.2⟩
    | _ => exact h
  | _ => exact Rests.stable h hpersist

theorem runNext_eq_commit (h : runNext point s n = .commit ()) :
    (∃ req chosen pk, point = .triggering (.ending req chosen pk)) ∨ ∃ e, point = .ending e := by
  cases point with
  | triggering point =>
    simp only [runNext] at h
    split at h
    · cases h
    · split at h <;> cases h
      rename_i pk hnext
      obtain ⟨req, chosen, rfl⟩ := triggerNext_eq_commit hnext
      exact .inl ⟨req, chosen, pk, rfl⟩
  | ending e => exact .inr ⟨e, rfl⟩
  | storing _ _ _ _ run =>
    simp only [runNext] at h
    split at h <;> cases h
  | expiring _ due _ => cases due <;> cases h
  | _ =>
    simp only [runNext, lastly] at h
    repeat' split at h
    all_goals cases h

theorem RunRelies.commit {t : RunSession} (h : RunRelies s n t) (hs : RunsKept s n)
    (hg : FindsActive s t) (hnext : runNext t.at_ (t.write s) n = .commit ()) :
    RunsEnd s (t.write s) ∧ RunsKept (t.write s) n ∧
      ∀ u : RunSession, RunRelies s n u → t.held.Disjoint u.held → RunRelies (t.write s) n u := by
  obtain ⟨point, write, held⟩ := t
  rcases runNext_eq_commit hnext with ⟨req, chosen, pk, hpoint⟩ | ⟨e, hpoint⟩
  · obtain rfl : point = _ := hpoint
    obtain ⟨hclaims, hadds⟩ := h
    refine ⟨(hadds s).runsEnd hs hclaims.fresh, (hadds s).runsKept hs hclaims.fresh hclaims.lt, ?_⟩
    intro u hu hdisjoint
    refine hu.stable ((hadds s).persist hclaims.fresh.row) ?_ hdisjoint
    rintro x ⟨⟩
    exact hclaims
  · obtain rfl : point = _ := hpoint
    obtain ⟨hleaves, -, hknows⟩ := h
    refine ⟨(hleaves s).runsEnd hs hknows hg, (hleaves s).runsKept hs hknows hg, ?_⟩
    intro u hu hdisjoint
    exact hu.stable (hleaves s).persist nofun hdisjoint

theorem running_keeps : Keeps running FindsActive (fun s n _ => RunsKept s n) RunRelies where
  start s n log req _ := by
    have hrests (point : RunPoint) (heffect : point.effect = {}) (hnames : point.names = none) :
        Rests s id point := by
      refine ⟨fun s => Std.Refl.refl s, ?_, ?_⟩
      · rw [heffect]
        nofun
      · rw [hnames]
        nofun
    cases req with
    | trigger req => exact fun s => ⟨⟨rfl, rfl, rfl⟩, rfl⟩
    | callback py req => exact hrests (.accepting py req) rfl rfl
    | deferred out pk => exact hrests (.fetching out pk) rfl rfl
    | cancel out pk => exact hrests (.checking out pk) rfl rfl
    | sweep out => exact hrests (.collecting out) rfl rfl
  later s n log h := by
    refine ⟨⟨fun i r hr => ?_, h.uuids, h.unsaid, h.known, h.one⟩, fun t ht => ht.later⟩
    exact Nat.lt_succ_of_lt (h.lt i r hr)
  go s n log t locks write next h ht _ hnext := by
    obtain ⟨point, w, held⟩ := t
    change runNext point (w s) n = _ at hnext
    cases hpoint : point.isTrigger with
    | true =>
      cases point with
      | triggering point =>
        obtain ⟨point', rfl, hrests⟩ := TriggerRests.go h ht hnext
        exact hrests
      | _ => cases hpoint
    | false =>
      have hrests : Rests s w point := by
        cases point with
        | triggering _ => cases hpoint
        | _ => exact ht
      obtain ⟨hrests', hnot⟩ := hrests.step hpoint hnext
      cases next with
      | triggering _ => cases hnot
      | _ => exact hrests'
  commit s n log t answer h ht hg hnext := by
    obtain ⟨-, hkept, hothers⟩ := ht.commit h hg hnext
    exact ⟨hkept, hothers⟩

end Relies

/-- However the transactions around runs overlap, a run that has ended stays as it is and gets no
candidate, and none gets two, where the transactions that commit find what they have written still
active. -/
theorem runs_end_once {s : ControlPlane} {n : ℕ} (hs : RunsKept s n) {acts : List (Act RunRequest)}
    (h : Machine.Always running.step (Guarded FindsActive) { committed := s, serial := n } acts) :
    Machine.Always running.step (fun x _ y => RunsEnd x.committed y.committed)
      { committed := s, serial := n } acts := by
  refine h.of_invariant (I := Sound (fun s n _ => RunsKept s n) RunRelies) ?_ ?_ (.init hs)
  · exact fun x a y hstep hg hx => hx.step running_keeps hg hstep
  · intro x a y hstep hg hx
    cases stepped_of_step hstep with
    | start r => exact hx.committed.runsEnd
    | go i t locks write next _ _ _ => exact hx.committed.runsEnd
    | commit i t answer ht hnext =>
      exact ((hx.session i t ht).commit hx.committed (hg i t rfl ht) hnext).1
    | fail _ i t _ _ => exact hx.committed.runsEnd

/-! ## A delivery and a cancellation -/

theorem runsKept_twoVoices : RunsKept twoVoices 0 where
  lt i r hr := by cases hr
  uuids i j r r' hr := by cases hr
  unsaid i r k c hr := by cases hr
  known k c uuid hc := by cases hc
  one i j c d uuid hc := by cases hc

/-- A deferred run, which gets the id 5; then what follows, session by session. -/
def deferredThen (requests : List RunRequest) (order : List ℕ) : List (Act RunRequest) :=
  let req : TriggerRequest := ⟨namesBinding "x", { bindingId := 0, chatId := -100, text := "hi" }, true⟩
  .start (.trigger req) :: (List.replicate 8 (.move 0) ++ requests.map .start ++ order.map .move)

def findsActive (s : ControlPlane) (t : RunSession) : Bool :=
  match t.at_ with
  | .ending effect =>
    (effect.moved.all fun x => (s.runs.row? x.1).all fun r => r.status.active || r.status = x.2) &&
      effect.speaks.all fun x => (s.runs.row? x.1).all fun r => r.status.active
  | _ => true

theorem guarded_of_findsActive (x : RunsState) (a : Act RunRequest) (y : RunsState)
    (h : (match a with
      | .move i => (x.sessions.row? i).all (findsActive x.committed)
      | _ => true) = true) : Guarded FindsActive x a y := by
  rintro i t rfl ht
  simp only [ht, Option.all_some] at h
  unfold FindsActive
  unfold findsActive at h
  split
  · rename_i effect hpoint
    rw [hpoint] at h
    simp only [Bool.and_eq_true, List.all_eq_true] at h
    refine ⟨fun z hz r hr => ?_, fun z hz r hr => ?_⟩
    · have hmoved := h.1 z hz
      rw [hr, Option.all_some, Bool.or_eq_true, decide_eq_true_eq] at hmoved
      exact hmoved
    · have hspoken := h.2
      rw [hz, Option.all_some, hr, Option.all_some] at hspoken
      exact hspoken
  · trivial

/-- The second of two deliveries sees at its refresh that the first one has completed the run. -/
def twoDeliveries : List (Act RunRequest) :=
  deferredThen [.deferred (namesBinding "y") 5, .deferred (namesBinding "z") 5]
    [1, 2, 1, 2, 1, 1, 1, 2, 2]

theorem two_deliveries_one_candidate :
    (Machine.run running.step { committed := twoVoices } twoDeliveries).map (fun x =>
      (x.committed.candidates.size, (x.committed.runs.row? 5).map AiRun.status, x.sessions.all.length)) =
        some (1, some .completed, 0) ∧
      Machine.Always running.step (fun x _ y => RunsEnd x.committed y.committed)
        { committed := twoVoices } twoDeliveries := by
  constructor
  · decide +kernel
  · apply runs_end_once runsKept_twoVoices
    exact Machine.always_of_checkRun (c := fun (x : RunsState) (a : Act RunRequest) _ =>
      match a with
      | .move i => (x.sessions.row? i).all (findsActive x.committed)
      | _ => true) guarded_of_findsActive (by decide +kernel)

/-- A delivery that has seen the run pending completes it after it was cancelled. -/
theorem cancelled_run_completed : ¬ ∀ (s : ControlPlane) (n : ℕ) (acts : List (Act RunRequest)),
    RunsKept s n → Machine.Always running.step (fun x _ y => RunsEnd x.committed y.committed)
      { committed := s, serial := n } acts := by
  intro h
  have hobserved : ((Machine.run running.step { committed := twoVoices }
        (deferredThen [.deferred (namesBinding "y") 5, .cancel (namesBinding "z") 5]
          [1, 1, 1, 2, 2, 2, 1])).bind fun x => (running.step x (.move 1)).map fun y =>
      ((x.committed.runs.row? 5).map AiRun.status, (y.committed.runs.row? 5).map AiRun.status)) =
      some (some .cancelled, some .completed) := by
    decide +kernel
  obtain ⟨x, y, hrun, hstep, hy⟩ :=
    Machine.exists_of_observed (f := fun (x y : RunsState) => _) hobserved
  refine Machine.not_always_of_step hrun hstep ?_ (h _ _ _ runsKept_twoVoices)
  intro hends
  obtain ⟨hcancelled, hcompleted⟩ := Prod.mk.inj hy
  obtain ⟨r, hr, hstatus⟩ := Option.map_eq_some_iff.mp hcancelled
  obtain ⟨r', hr', hstatus'⟩ := hends.status 5 r hr (by rw [hstatus]; rfl)
  rw [hr', Option.map_some, hstatus', hstatus] at hcompleted
  cases hcompleted

end TgPlatform
