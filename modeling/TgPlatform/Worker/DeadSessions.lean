import TgPlatform.Worker.Faults

/-! # Dead sessions

A runner that halts is released in the next tick, and the reason goes with it.
Nothing else remembers that the session is dead: as long as the control plane
names the account, the reconciliation after that connects it again.
-/

namespace TgPlatform

namespace HostMain

def Silent (s : HostMain) (a : AccountId) : Prop :=
  a ∈ s.order → ∃ r, s.worker.runners a = some r ∧ r.halted ≠ none

def Surfaced (s : HostMain) : Prop :=
  ∀ a ∈ s.order, ∀ r, s.worker.runners a = some r → r.halted ≠ none → s.worker.lost a = true

/-- The heartbeat of an account has lost its lease. -/
def heartbeatLost (s : HostMain) (a : AccountId) : HostMain :=
  s.withWorker (s.worker.setLost a) rfl fun _ h => h

/-- The accounts that are still hosted are as they were. -/
def Shrinks (s s' : HostMain) : Prop := ∀ a ∈ s'.order,
  a ∈ s.order ∧ s'.worker.runners a = s.worker.runners a ∧ s'.worker.lost a = s.worker.lost a

variable {s s' : HostMain} {a b : AccountId}

theorem silent_of_not_mem (h : a ∉ s.order) : s.Silent a := fun ha => absurd ha h

theorem Shrinks.of_eq (horder : s'.order = s.order) (hrunners : s'.worker.runners = s.worker.runners)
    (hlost : s'.worker.lost = s.worker.lost) : Shrinks s s' :=
  fun a ha => ⟨horder ▸ ha, congrFun hrunners a, congrFun hlost a⟩

theorem Shrinks.silent (h : Shrinks s s') (hs : s.Silent a) : s'.Silent a := by
  intro ha
  obtain ⟨hmem, hrunner, -⟩ := h a ha
  rw [hrunner]
  exact hs hmem

theorem Shrinks.surfaced (h : Shrinks s s') (hs : s.Surfaced) : s'.Surfaced := by
  intro a ha r hr hhalted
  obtain ⟨hmem, hrunner, hlost⟩ := h a ha
  rw [hlost]
  exact hs a hmem r (hrunner ▸ hr) hhalted

theorem shrinks_release : Shrinks s (s.release b) := by
  intro a ha
  obtain ⟨hmem, hne⟩ : a ∈ s.order ∧ a ≠ b := by simpa [release] using ha
  exact ⟨hmem, Function.update_of_ne hne _ _, Function.update_of_ne hne _ _⟩

section Commands

variable {accountId : AccountId} {hosted : Hosted} {cmd : PendingCommand} {answers : CommandAnswers}
  {refreshedAt : Option Time}

theorem applyCommand_lost
    (h : a ∈ (s.applyCommand accountId hosted cmd answers refreshedAt).2.order) :
    (s.applyCommand accountId hosted cmd answers refreshedAt).2.worker.lost a = s.worker.lost a := by
  rw [TickEnv.applyCommand_order] at h
  obtain ⟨-, h⟩ := List.mem_filter.mp h
  change (s.worker.applyCommand s.db accountId hosted cmd answers).2.1.lost a = _
  unfold Worker.applyCommand Worker.refreshRules
  cases hcmd : cmd.type with
  | stopAccount =>
    apply Function.update_of_ne
    rintro rfl
    simp [hcmd] at h
  | reloadConfig =>
    cases answers.raised with
    | some e => rfl
    | none => cases answers.rows <;> rfl
  | syncChats => cases answers.raised <;> rfl
  | cancelJob =>
    cases answers.raised with
    | some e => rfl
    | none => dsimp only; split <;> rfl
  | _ => rfl

theorem shrinks_applyCommand : Shrinks s (s.applyCommand accountId hosted cmd answers refreshedAt).2 :=
  fun _ ha => ⟨List.mem_of_mem_filter ha, TickEnv.applyCommand_runners ha, applyCommand_lost ha⟩

end Commands

end HostMain

namespace TickEnv

open Routine HostMain

variable {env : TickEnv} {s s' : HostMain} {a : AccountId} {log : List TickEvent}

/-! ## The parts of a tick -/

/-- A relation that only the assignment and the send round of an account can break. -/
structure Tracks (R : HostMain → List TickEvent → HostMain → Prop) : Prop extends Sequential R where
  shrinks : ∀ s s', Shrinks s s' → R s [] s'
  call : ∀ s c, (∀ a, c ≠ .fetchSession a) → R s [.call c] s
  refreshed : ∀ s a rows, R s [.refreshed a rows] s

section Parts

variable {R : HostMain → List TickEvent → HostMain → Prop} (hR : Tracks R)
include hR

theorem Tracks.releases (l : List AccountId) :
    Yields R (each (fun a => modify fun s : HostMain => s.release a) l : Tick) :=
  .each hR.toSequential fun _ _ s => hR.shrinks s _ shrinks_release

theorem Tracks.refreshRules (c : RulesCall) (x : Assignment) : Yields R (env.refreshRules c x) := by
  unfold TickEnv.refreshRules
  apply Yields.bind hR.toSequential
  · exact fun s => hR.call s _ nofun
  · intro _
    split
    · exact .pure hR.toSequential
    · exact .raise hR.toSequential
    · apply Yields.bind hR.toSequential
      · exact fun s => hR.shrinks s _ (.of_eq rfl rfl rfl)
      · exact fun _ s => hR.refreshed s _ _

theorem Tracks.assign {x : Assignment} (hassigning : ∀ s, R s [.assigning x.accountId] s)
    (hfetch : ∀ s, R s [.call (.fetchSession x.accountId)] s)
    (hhost : ∀ s generation, R s [] (s.host x generation)) : Yields R (env.assign x) := by
  unfold TickEnv.assign
  apply Yields.bind hR.toSequential (.emit hassigning)
  intro _
  split
  · apply Yields.bind hR.toSequential
    · exact fun s => hR.shrinks s _ (.of_eq rfl rfl rfl)
    · rintro (_ | generation)
      · exact .pure hR.toSequential
      · apply Yields.bind hR.toSequential (.emit hfetch)
        intro _
        split
        · unfold serve
          apply Yields.bind hR.toSequential
          · exact fun s => hR.shrinks s _ (.of_eq rfl rfl rfl)
          · intro _
            apply Yields.bind hR.toSequential
            · apply Yields.onRaise hR.toSequential (hR.refreshRules _ _)
              exact fun s => hR.shrinks s _ (.of_eq rfl rfl rfl)
            · exact fun _ s => hhost s generation
        · exact .pure hR.toSequential
  · exact .pure hR.toSequential

theorem Tracks.reassign
    (hassign : ∀ s x, x.accountId ∉ s.order → R s (env.assign x s).log (env.assign x s).state) :
    Yields R env.reassign := by
  unfold TickEnv.reassign
  apply Yields.bind hR.toSequential
  · exact fun s => hR.call s _ nofun
  · intro _
    cases env.desired with
    | none => exact .pure hR.toSequential
    | some desired =>
      apply Yields.bind hR.toSequential (.read hR.toSequential)
      intro unassigned
      apply Yields.bind hR.toSequential (hR.releases unassigned)
      intro _
      apply Yields.each hR.toSequential
      intro x _
      apply Yields.read_bind
      intro s
      split
      · exact hR.refl s
      · rename_i hhosted
        exact hassign s x fun hmem => hhosted ((s.mem_order _).mp hmem)

theorem Tracks.poll {accountId : AccountId} (hosted : Hosted)
    (happlied : ∀ s id outcome, R s [.applied accountId id outcome] s) :
    Yields R (env.poll accountId hosted) := by
  unfold TickEnv.poll
  apply Yields.bind hR.toSequential
  · exact fun s => hR.call s _ nofun
  · intro _
    split
    · exact .pure hR.toSequential
    · exact .raise hR.toSequential
    · apply Yields.each hR.toSequential
      intro cmd _
      apply Yields.bind hR.toSequential (.read hR.toSequential)
      intro seen
      split
      · exact .pure hR.toSequential
      · apply Yields.bind hR.toSequential
        · exact fun s => hR.shrinks s _ (.of_eq rfl rfl rfl)
        · intro _
          apply Yields.bind hR.toSequential
          · exact fun s => hR.shrinks s _ shrinks_applyCommand
          · intro outcome
            apply Yields.bind hR.toSequential
            · exact fun s => happlied s _ _
            · intro _
              apply Yields.bind hR.toSequential
              · exact fun s => hR.call s _ nofun
              · intro _
                split
                · exact .raise hR.toSequential
                · exact .pure hR.toSequential

theorem Tracks.pollCommands (happlied : ∀ s a id outcome, R s [.applied a id outcome] s) :
    Yields R env.pollCommands := by
  unfold TickEnv.pollCommands
  apply Yields.bind hR.toSequential (.read hR.toSequential)
  intro items
  apply Yields.each hR.toSequential
  exact fun x _ => hR.poll x.2 fun s => happlied s x.1

theorem Tracks.refreshStale : Yields R env.refreshStale := by
  unfold TickEnv.refreshStale
  apply Yields.bind hR.toSequential (.read hR.toSequential)
  intro stale
  apply Yields.bind hR.toSequential (.read hR.toSequential)
  intro items
  split
  · exact .each hR.toSequential fun x _ => hR.refreshRules _ _
  · exact .pure hR.toSequential

end Parts

/-! ## What a tick does for an account -/

def Tries (env : TickEnv) (a : AccountId) (log : List TickEvent) : Prop :=
  .call (.fetchSession a) ∈ log ∧ (env.fetchSession a).data.isSome

def Connects (env : TickEnv) (a : AccountId) (log : List TickEvent) : Prop :=
  env.Tries a log ∧ env.connects a = true

def waiting (env : TickEnv) (a : AccountId) : List PendingCommand := (env.pullCommands a).data.getD []

/-- The client of the account is used: to connect, in the send round, or to sync its chats. -/
inductive Calls (env : TickEnv) (a : AccountId) : TickEvent → Prop
  | connect : (env.fetchSession a).data.isSome → Calls env a (.call (.fetchSession a))
  | send (accounts : List AccountId) : a ∈ accounts → Calls env a (.round accounts)
  | sync (cmd : PendingCommand) (outcome : CommandOutcome) : cmd ∈ env.waiting a →
      cmd.type = .syncChats → Calls env a (.applied a cmd.id outcome)

structure Follows (env : TickEnv) (a : AccountId) (s : HostMain) (log : List TickEvent)
    (s' : HostMain) : Prop where
  order : a ∈ s'.order → a ∈ s.order ∨ env.Connects a log
  silent : s.Silent a → s'.Silent a ∨ env.Connects a log
  tried : env.Tries a log → env.connects a = false → a ∉ s'.order

theorem Tries.of_append {log' : List TickEvent} (h : env.Tries a (log ++ log')) :
    env.Tries a log ∨ env.Tries a log' :=
  (List.mem_append.mp h.1).imp (⟨·, h.2⟩) (⟨·, h.2⟩)

theorem Connects.left {log' : List TickEvent} (h : env.Connects a log) : env.Connects a (log ++ log') :=
  ⟨⟨List.mem_append_left _ h.1.1, h.1.2⟩, h.2⟩

theorem Connects.right {log' : List TickEvent} (h : env.Connects a log') :
    env.Connects a (log ++ log') :=
  ⟨⟨List.mem_append_right _ h.1.1, h.1.2⟩, h.2⟩

theorem Follows.of_quiet (hlog : .call (.fetchSession a) ∉ log) (horder : a ∈ s'.order → a ∈ s.order)
    (hsilent : s.Silent a → s'.Silent a) : env.Follows a s log s' where
  order ha := .inl (horder ha)
  silent h := .inl (hsilent h)
  tried h := absurd h.1 hlog

theorem Follows.of_connects (h : env.Connects a log) : env.Follows a s log s' where
  order _ := .inr h
  silent _ := .inr h
  tried _ hfails := absurd h.2 (by simp [hfails])

theorem tracks_follows : Tracks (env.Follows a) where
  refl s := .of_quiet (by simp) id id
  append s log s' log' s'' h h' := by
    constructor
    · intro ha
      rcases h'.order ha with ha | hc
      · exact (h.order ha).imp_right Connects.left
      · exact .inr hc.right
    · intro hs
      rcases h.silent hs with hs | hc
      · exact (h'.silent hs).imp_right Connects.right
      · exact .inr hc.left
    · intro htried hfails ha
      rcases htried.of_append with ht | ht
      · rcases h'.order ha with ha | hc
        · exact h.tried ht hfails ha
        · exact absurd hc.2 (by simp [hfails])
      · exact h'.tried ht hfails ha
  shrinks _ _ h := .of_quiet List.not_mem_nil (fun ha => (h a ha).1) h.silent
  call _ c hc := .of_quiet (by simpa using (hc a).symm) id id
  refreshed _ _ _ := .of_quiet (by simp) id id

theorem follows_assign {x : Assignment} (hx : x.accountId ≠ a) :
    Yields (env.Follows a) (env.assign x) := by
  apply tracks_follows.assign
  · exact fun s => .of_quiet (by simp) id id
  · exact fun s => .of_quiet (by simpa using hx.symm) id id
  · intro s generation
    have horder : a ∈ (s.host x generation).order → a ∈ s.order := by
      change a ∈ (if _ then _ else _) → _
      split <;> simp [hx.symm]
    apply Follows.of_quiet List.not_mem_nil horder
    intro hs ha
    have hsame : (s.host x generation).worker.runners a = s.worker.runners a :=
      Function.update_of_ne hx.symm _ _
    rw [hsame]
    exact hs (horder ha)

theorem follows_assign_self {x : Assignment} (hnot : x.accountId ∉ s.order) :
    env.Follows x.accountId s (env.assign x s).log (env.assign x s).state := by
  unfold assign
  by_cases hsession : x.hasSession = true
  · rw [if_pos hsession]
    change env.Follows x.accountId s (andThen (emit _) (fun _ => andThen (exec _) _) s).log
      (andThen (emit _) (fun _ => andThen (exec _) _) s).state
    unfold andThen emit exec
    dsimp only
    cases hlease : (s.acquire env x.accountId).1 with
    | none => exact .of_quiet (by simp [pure, ret]) id fun hs => hs
    | some generation =>
      dsimp only
      split
      · rename_i hconnects
        rw [Bool.and_eq_true] at hconnects
        exact .of_connects ⟨⟨by simp [bind, andThen], hconnects.1⟩, hconnects.2⟩
      · constructor
        · exact .inl
        · exact fun _ => .inl (silent_of_not_mem hnot)
        · exact fun _ _ => hnot
  · rw [if_neg hsession]
    exact .of_quiet (by simp [emit, bind, andThen, pure, ret]) id id

theorem follows_reconcile : Yields (env.Follows a) env.reconcile := by
  have hR : Tracks (env.Follows a) := tracks_follows
  unfold reconcile
  apply Yields.bind hR.toSequential
  · apply hR.reassign
    intro s x hnot
    by_cases hx : x.accountId = a
    · subst hx
      exact follows_assign_self hnot
    · exact follows_assign hx s
  · intro _
    apply Yields.bind hR.toSequential (.read hR.toSequential)
    intro lost
    apply Yields.bind hR.toSequential (hR.releases lost)
    exact fun _ s => .of_quiet List.not_mem_nil id fun hs => hs

theorem follows_sendRound : Yields (env.Follows a) env.sendRound := by
  have hR : Tracks (env.Follows a) := tracks_follows
  unfold sendRound
  apply Yields.bind hR.toSequential (.read hR.toSequential)
  intro accounts
  apply Yields.bind hR.toSequential
  · exact fun s => .of_quiet (by simp [emit]) id id
  · intro _
    apply Yields.bind hR.toSequential
    · intro s
      refine .of_quiet List.not_mem_nil id fun hs ha => ?_
      obtain ⟨r, hr, hhalted⟩ := hs ha
      refine ⟨r, ?_, hhalted⟩
      change (s.worker.runners a).map _ = some r
      rw [hr, Option.map_some, if_pos (Option.isSome_iff_ne_none.mpr hhalted)]
    · exact fun _ s => .of_quiet List.not_mem_nil id fun hs => hs

theorem follows_tick : Yields (env.Follows a) env.tick := by
  have hR : Tracks (env.Follows a) := tracks_follows
  unfold tick
  apply Yields.bind hR.toSequential follows_reconcile
  intro _
  apply Yields.bind hR.toSequential
  · exact hR.pollCommands fun _ _ _ _ => .of_quiet (by simp) id id
  · intro _
    exact .bind hR.toSequential hR.refreshStale fun _ => follows_sendRound

/-! ## The flags -/

def Flags (s : HostMain) (_log : List TickEvent) (s' : HostMain) : Prop := s.Surfaced → s'.Surfaced

theorem tracks_flags : Tracks Flags where
  refl _ := id
  append _ _ _ _ _ h h' hs := h' (h hs)
  shrinks _ _ h := h.surfaced
  call _ _ _ := id
  refreshed _ _ _ := id

theorem flags_host {x : Assignment} {generation : ℤ} (hs : s.Surfaced) :
    (s.host x generation).Surfaced := by
  intro b hb r hr hhalted
  have hbx : b ≠ x.accountId := by
    rintro rfl
    have hnew : (s.host x generation).worker.runners x.accountId = some { generation } :=
      Function.update_self ..
    rw [Option.some.inj (hr.symm.trans hnew)] at hhalted
    exact hhalted rfl
  have horder : b ∈ s.order := by
    change b ∈ (if _ then _ else _) at hb
    split at hb
    · exact hb
    · simpa [hbx] using hb
  apply hs b horder r _ hhalted
  rw [← hr]
  exact (Function.update_of_ne hbx _ _).symm

theorem flags_reconcile : Yields Flags env.reconcile := by
  have hR := tracks_flags
  unfold reconcile
  apply Yields.bind hR.toSequential
  · apply hR.reassign
    exact fun s x _ => hR.assign (fun _ => id) (fun _ => id) (fun _ _ => flags_host) s
  · intro _
    apply Yields.read_bind
    intro s hs b hb r hr hhalted
    exfalso
    change b ∈ (andThen (each _ _) _ s).state.order at hb
    change (andThen (each _ _) _ s).state.worker.runners b = _ at hr
    unfold andThen at hb hr
    rw [each_modify] at hb hr
    have hreleased := (post_release (U := fun _ => True) (s := s) (s.order.filter s.worker.lost)).2 ()
    rw [each_modify] at hreleased
    obtain ⟨-, hreleased⟩ := hreleased rfl
    generalize List.foldl _ s _ = s' at *
    change b ∈ s'.order at hb
    change s'.worker.runners b = some r at hr
    rw [hreleased.order, List.mem_filter] at hb
    have hnot := of_decide_eq_true hb.2
    rw [hreleased.runners b hnot] at hr
    exact hnot (List.mem_filter.mpr ⟨hb.1, hs b hb.1 r hr hhalted⟩)

theorem flags_tick : Yields Flags env.tick := by
  have hR := tracks_flags
  unfold tick
  apply Yields.bind hR.toSequential flags_reconcile
  intro _
  apply Yields.bind hR.toSequential (hR.pollCommands fun _ _ _ _ => id)
  intro _
  apply Yields.bind hR.toSequential hR.refreshStale
  intro _ s _ b _ r hr hhalted
  have hr' : (s.runOnce env).worker.runners b = some r := hr
  have hflag : ((s.runOnce env).surfaceHalts).worker.lost b = true := by
    change ((s.runOnce env).worker.lost b || ((s.runOnce env).worker.runners b).any _) = true
    rw [hr', Bool.or_eq_true]
    exact .inr (Option.isSome_iff_ne_none.mpr hhalted)
  exact hflag

/-! ## An account that is silent -/

/-- An account that is not hosted stays so, and its client is not used. -/
def Idles (env : TickEnv) (a : AccountId) (s : HostMain) (log : List TickEvent) (s' : HostMain) : Prop :=
  a ∉ s.order → a ∉ s'.order ∧ ∀ w ∈ log, ¬ env.Calls a w

theorem idles_emit {w : TickEvent} (hw : ¬ env.Calls a w) (s : HostMain) : env.Idles a s [w] s := by
  intro ha
  exact ⟨ha, by simpa using hw⟩

theorem tracks_idles : Tracks (env.Idles a) where
  refl _ ha := ⟨ha, by simp⟩
  append _ _ _ _ _ h h' ha := by
    obtain ⟨ha', hlog⟩ := h ha
    obtain ⟨ha'', hlog'⟩ := h' ha'
    refine ⟨ha'', fun w hw => ?_⟩
    exact (List.mem_append.mp hw).elim (hlog w) (hlog' w)
  shrinks _ _ h ha := ⟨fun hmem => ha (h a hmem).1, by simp⟩
  call s c hc := by
    apply idles_emit
    rintro ⟨⟩
    exact hc a rfl
  refreshed _ _ _ := by
    apply idles_emit
    rintro ⟨⟩

theorem idles_rest : Yields (env.Idles a) (do env.pollCommands; env.refreshStale; env.sendRound) := by
  have hR : Tracks (env.Idles a) := tracks_idles
  apply Yields.bind hR.toSequential
  · unfold pollCommands
    apply Yields.read_bind
    intro s
    by_cases ha : a ∈ s.order
    · exact fun hnot => absurd ha hnot
    · have hitems : ∀ x ∈ s.items, x.1 ≠ a := by
        rintro x hx rfl
        apply ha
        rw [← map_items]
        exact List.mem_map_of_mem hx
      have hpoll : ∀ x ∈ s.items, Yields (env.Idles a) (env.poll x.1 x.2) := by
        intro x hx
        apply hR.poll
        intro s' id outcome
        apply idles_emit
        rintro ⟨⟩
        exact hitems x hx rfl
      exact Yields.each hR.toSequential hpoll s
  · intro _
    apply Yields.bind hR.toSequential hR.refreshStale
    intro _
    apply Yields.read_bind
    intro s hnot
    refine ⟨hnot, fun w hw => ?_⟩
    obtain rfl : w = .round s.running := List.mem_singleton.mp hw
    rintro (_ | ⟨-, hmem⟩)
    exact hnot (List.mem_of_mem_filter hmem)

theorem calls_tick (hsurfaced : s.Surfaced) (hsilent : s.Silent a) (hleft : ∀ x, x.accountId = a →
    env.Fetches s x → (env.fetchSession a).data = none) : ∀ w ∈ (env.tick s).log, ¬ env.Calls a w := by
  have hbounds : env.Bounds s fun w => ¬ env.Calls a w := by
    constructor
    · exact fun _ => nofun
    · exact fun _ _ => nofun
    · exact nofun
    · rintro x hx (hcome | _)
      simp [hleft x rfl hx] at hcome
    · exact fun _ _ => nofun
  obtain ⟨hlog, hanswers⟩ := post_reconcile hbounds
  have hfollows : env.Follows a s (env.reconcile s).log (env.reconcile s).state := follows_reconcile s
  change ∀ w ∈ (andThen env.reconcile _ s).log, _
  unfold andThen
  rcases hr : env.reconcile s with ⟨log, s', e | u⟩
  · rw [hr] at hlog
    exact hlog
  · rw [hr] at hlog hanswers hfollows
    have hreconciled : env.Reconciled s log s' := hanswers u rfl
    have hnot : a ∉ s'.order := by
      intro ha
      -- a runner that is halted already was flagged, and a new one is not halted
      have hconnects : ¬ env.Connects a log := fun hc => hlog _ hc.1.1 (.connect hc.1.2)
      obtain ⟨r, hr', hhalted⟩ := (hfollows.silent hsilent).resolve_right hconnects ha
      rcases hreconciled.alive a ha with ⟨hmem, hsame⟩ | ⟨r', hnew, hnone⟩
      · have hlost := hsurfaced a hmem r (hsame ▸ hr') hhalted
        rw [hreconciled.order] at ha
        have hkept := (List.mem_filter.mp ha).2
        rw [hlost] at hkept
        cases hkept
      · rw [hr'] at hnew
        cases hnew
        exact hhalted hnone
    obtain ⟨-, hrest⟩ := idles_rest s' hnot
    intro w hw
    exact (List.mem_append.mp hw).elim (hlog w) (hrest w)

/-! ## Runs of the host -/

def wanted (env : TickEnv) (a : AccountId) : Option Assignment := env.desired.bind fun d => d.get? a

def starts (env : TickEnv) (a : AccountId) : Bool :=
  (env.waiting a).any fun cmd => cmd.type = .startAccount

end TickEnv

/-- A tick, and the connects that it fails because the session is not authorized. -/
structure HostRound where
  env : TickEnv
  unauthorized : AccountId → Bool
  fails : ∀ a, unauthorized a = true → env.connects a = false

/-- What happens to the host: its ticks, its heartbeats, and what others do in the database. -/
inductive WatchAction
  | tick (round : HostRound)
  | heartbeatLost (accountId : AccountId)
  | others (db : Database)

/-- The host beside the assignments with which an account was last found dead. -/
structure WatchedHost where
  main : HostMain
  dead : AccountId → Option Assignment

namespace WatchedHost

def start (config : WorkerConfig) : WatchedHost := ⟨.start config, fun _ => none⟩

variable (x : WatchedHost) (round : HostRound) (a : AccountId)

/-- The account has been found dead, its assignment has not changed since, and it is not started. -/
def stillDead : Option Assignment :=
  (x.dead a).filter fun y =>
    (round.env.desired.all fun d => d.get? a = some y) && !round.env.starts a

/-- The tick finds the session dead: the connect fails, or the runner halts. -/
def foundDead : Option Assignment :=
  if (round.env.tick x.main).log.contains (.call (.fetchSession a)) &&
      ((round.env.fetchSession a).data.isSome && round.unauthorized a) then round.env.wanted a
  else if ((round.env.tick x.main).state.worker.runners a).any fun r =>
    r.halted = some (.error .authDead) then
    ((round.env.tick x.main).state.worker.hosted a).map Hosted.assignment
  else none

def step (x : WatchedHost) : WatchAction → Option WatchedHost
  | .tick round => some {
      main := (round.env.tick x.main).state
      dead := fun a => (x.foundDead round a).or (x.stillDead round a) }
  | .heartbeatLost a => some { x with main := x.main.heartbeatLost a }
  | .others db => some { x with main := { x.main with db } }

def LeavesAlone (x : WatchedHost) : WatchAction → WatchedHost → Prop
  | .tick round, _ => ∀ a, (x.stillDead round a).isSome →
      ∀ w ∈ (round.env.tick x.main).log, ¬ round.env.Calls a w
  | _, _ => True

/-- The bundle of a dead session does not come where the tick comes to ask for it. -/
def Spares (x : WatchedHost) : WatchAction → WatchedHost → Prop
  | .tick round, _ => ∀ y : Assignment, (x.stillDead round y.accountId).isSome →
      round.env.Fetches x.main y → (round.env.fetchSession y.accountId).data = none
  | _, _ => True

/-- The dead sessions are silent, and what halts is flagged. -/
structure Silences (x : WatchedHost) : Prop where
  surfaced : x.main.Surfaced
  silent : ∀ a, (x.dead a).isSome → x.main.Silent a

variable {x : WatchedHost} {round : HostRound} {a : AccountId} {action : WatchAction} {x' : WatchedHost}

theorem silences_start (config : WorkerConfig) : (start config).Silences := by
  constructor
  · exact fun _ ha => nomatch ha
  · exact fun _ => nofun

theorem Silences.leavesAlone (h : x.Silences) (hspares : x.Spares (.tick round) x') :
    x.LeavesAlone (.tick round) x' := by
  intro a hdead
  have hsome : (x.dead a).isSome := by
    obtain ⟨y, hy⟩ := Option.isSome_iff_exists.mp hdead
    exact Option.isSome_iff_exists.mpr ⟨y, (Option.filter_eq_some_iff.mp hy).1⟩
  apply TickEnv.calls_tick h.surfaced (h.silent a hsome)
  rintro y rfl
  exact hspares y hdead

/-- Where the tick finds the session dead, no runner of it sends after that. -/
theorem silent_of_foundDead (h : (x.foundDead round a).isSome) :
    (round.env.tick x.main).state.Silent a := by
  unfold foundDead at h
  split at h
  · rename_i htried
    simp only [Bool.and_eq_true, List.contains_iff_mem] at htried
    obtain ⟨hmem, hcome, hunauthorized⟩ := htried
    have hfollows : round.env.Follows a x.main _ _ := TickEnv.follows_tick x.main
    exact HostMain.silent_of_not_mem (hfollows.tried ⟨hmem, hcome⟩ (round.fails a hunauthorized))
  · split at h
    · rename_i hhalted
      intro _
      cases hr : (round.env.tick x.main).state.worker.runners a with
      | none => simp [hr] at hhalted
      | some r =>
        rw [hr, Option.any_some] at hhalted
        exact ⟨r, rfl, by simp [of_decide_eq_true hhalted]⟩
    · cases h

theorem Silences.step (h : x.Silences) (hleaves : x.LeavesAlone action x')
    (hstep : x.step action = some x') : x'.Silences := by
  cases action with
  | tick round =>
    cases hstep
    constructor
    · exact TickEnv.flags_tick x.main h.surfaced
    · intro a ha
      cases hfound : x.foundDead round a with
      | some y => exact silent_of_foundDead (by simp [hfound])
      | none =>
        have hdead : (x.stillDead round a).isSome := by simpa [hfound] using ha
        obtain ⟨y, hy⟩ := Option.isSome_iff_exists.mp hdead
        have hsilent := h.silent a (by simp [(Option.filter_eq_some_iff.mp hy).1])
        have hfollows : round.env.Follows a x.main _ _ := TickEnv.follows_tick x.main
        apply (hfollows.silent hsilent).resolve_right
        intro hconnects
        exact hleaves a hdead _ hconnects.1.1 (.connect hconnects.1.2)
  | heartbeatLost b =>
    cases hstep
    constructor
    · intro a ha r hr hhalted
      have hlost := h.surfaced a ha r hr hhalted
      change Function.update x.main.worker.lost b true a = true
      by_cases hab : a = b
      · simp [hab]
      · simpa [hab] using hlost
    · exact h.silent
  | others db =>
    cases hstep
    exact ⟨h.surfaced, h.silent⟩

/-- A dead session is left alone in every run in which its bundle does not come again. -/
theorem dead_session_left_alone (config : WorkerConfig) (as : List WatchAction)
    (h : Machine.Always WatchedHost.step Spares (start config) as) :
    Machine.Always WatchedHost.step LeavesAlone (start config) as := by
  have hleaves : ∀ x a x', WatchedHost.step x a = some x' → Spares x a x' → Silences x →
      LeavesAlone x a x' := by
    intro x a x' _ hspares hx
    cases a with
    | tick round => exact hx.leavesAlone hspares
    | _ => trivial
  apply h.of_invariant _ hleaves (silences_start config)
  intro x a x' hstep hspares hx
  exact hx.step (hleaves x a x' hstep hspares hx) hstep

end WatchedHost

/-- A round that halts the runner of account `A` because its session is dead. -/
def revokedRound (seen : Option AccountLease) (bundle : Reply Unit) : HostRound where
  env := { twoAssignments with
    fetchSession := fun _ => bundle
    leaseRead := fun _ => ⟨0, seen⟩
    runOnce := fun a r => if a = "A" then { r with halted := some (.error .authDead) } else r }
  unauthorized _ := false
  fails := nofun

/-- The bundle comes, and the leases are those of the first round. -/
def reconnectingRound : HostRound :=
  revokedRound (some ⟨"w1", 1, 45000000⟩) (.response 200 (.envelope (some 200) ()))

/-- The first round finds the session of account `A` dead, the second releases the account, and the
platform then refuses its bundle. -/
def refusedBundles : List WatchAction := [
  .tick (revokedRound none (.response 200 (.envelope (some 200) ()))), .tick reconnectingRound,
  .tick (revokedRound (some ⟨"w1", 1, 45000000⟩) (.response 404 (.malformed "Not found"))),
  .tick (revokedRound (some ⟨"w1", 1, 45000000⟩) (.response 404 (.malformed "Not found")))]

theorem refused_bundles_leave_alone :
    Machine.Always WatchedHost.step WatchedHost.LeavesAlone (.start {}) refusedBundles := by
  apply WatchedHost.dead_session_left_alone
  let test (x : WatchedHost) (action : WatchAction) (_ : WatchedHost) : Bool :=
    match action with
    | .tick round => round.env.desired.all fun d => d.values.all fun y =>
        (x.stillDead round y.accountId).isNone || (x.main.worker.hosted y.accountId).isSome ||
          (round.env.fetchSession y.accountId).data.isNone
    | _ => true
  apply Machine.always_of_checkRun (c := test)
  · rintro x (round | _ | _) x' htest
    · intro y hdead hfetches
      obtain ⟨d, done, rest, hd, hvalues, -⟩ := hfetches.reached
      simp only [test, hd, Option.all_some, List.all_eq_true] at htest
      have hy := htest y (by simp [hvalues])
      simpa [hfetches.hosted, Option.isSome_iff_ne_none.mp hdead] using hy
    · trivial
    · trivial
  · decide +kernel

/-- The third tick connects the dead session of account `A` again. -/
theorem dead_session_connected_again : ¬ ∀ (config : WorkerConfig) (as : List WatchAction),
    Machine.Always WatchedHost.step WatchedHost.LeavesAlone (.start config) as := by
  intro h
  have hobserved : ((Machine.run WatchedHost.step (.start {}) (refusedBundles.take 2)).bind
      fun x => (x.step (.tick reconnectingRound)).map fun _ =>
        ((x.stillDead reconnectingRound "A").isSome,
        (reconnectingRound.env.tick x.main).log.contains (.call (.fetchSession "A")))) =
          some (true, true) := by
    decide +kernel
  obtain ⟨x, x', hrun, hstep, hx⟩ := Machine.exists_of_observed hobserved
  refine Machine.not_always_of_step hrun hstep ?_ (h _ _)
  intro hleaves
  obtain ⟨hdead, hmem⟩ := Prod.mk.inj hx
  exact hleaves "A" hdead _ (List.contains_iff_mem.mp hmem) (.connect rfl)

end TgPlatform
