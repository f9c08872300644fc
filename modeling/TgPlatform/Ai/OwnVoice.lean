import TgPlatform.Ai.CallbackIsolation
import TgPlatform.Ai.Engines
import TgPlatform.Control.AiScope

/-! # The voice of a run

A run stores its conversation only. A candidate takes its account from the
conversation, a deferred run takes its binding from there too, and a trigger goes
on with whatever conversation it finds in the scope of its binding.
-/

namespace TgPlatform

open Slots

/-! ## What a step says -/

/-- A step says one thing: for a run, as an account, and approved at once only under a switch. -/
structure Speaks (s s' : ControlPlane) (pk : RunId) (account : ℕ) (switch : Bool) : Prop where
  candidate : ∃ r : AiRun, ∃ c : AiCandidate, s'.runs.row? pk = some r ∧
    r.candidateId = some s.candidates.size ∧ c.agentRunId = some r.uuid ∧ c.accountId = account ∧
    ∀ i, s'.candidates.row? i = if i = s.candidates.size then some c else s.candidates.row? i
  approvals : Within (fun a => a.candidateId = s.candidates.size ∧
    (a.status = .approved → switch = true)) s.approvals s'.approvals
  jobs : Within (fun job => switch = true ∧ ∃ row ∈ s.dir.accounts,
    row.id = account ∧ job.accountId = row.uuid) s.jobs s'.jobs

section Speaks

variable {s s₀ s' : ControlPlane} {pk : RunId} {account : ℕ} {switch : Bool} {run r : AiRun}
  {cid : ConversationId} {conv : AiConversation} {binding : AiBinding}

theorem Speaks.after (h : Speaks s₀ s' pk account switch) (hsilent : Silent s s₀)
    (hdir : s₀.dir = s.dir) : Speaks s s' pk account switch := by
  constructor
  · rw [← hsilent.candidates]
    exact h.candidate
  · rw [← hsilent.candidates, ← hsilent.approvals]
    exact h.approvals
  · rw [← hsilent.jobs, ← hdir]
    exact h.jobs

theorem Finished.speaks {group : Option AiGroup} (h : Finished pk run cid conv binding group s s')
    (hrow : s.runs.row? pk = some r) (huuid : r.uuid = run.uuid) :
    Silent s s' ∨ Speaks s s' pk conv.accountId (autoApproves (some binding) group) := by
  cases h with
  | left _ => exact .inl ⟨rfl, rfl, rfl⟩
  | fail err => exact .inl ⟨rfl, rfl, rfl⟩
  | speak candidateId created now usage hcreated =>
    obtain rfl := hcreated.pk_eq
    obtain ⟨c, haccount, hrun, hrows⟩ := hcreated.candidate
    obtain ⟨a, hcandidate, happroved, hadded⟩ := hcreated.approval
    have hmodified (f : AiRun → AiRun) : (created.runs.modify pk f).row? pk = some (f r) := by
      rw [row?_modify_self, hcreated.others]
      exact congrArg _ hrow
    refine .inr ⟨?_, ?_, ?_⟩
    · exact ⟨_, c, hmodified _, rfl, hrun.trans (congrArg some huuid.symm), haccount, hrows⟩
    · change Within _ s.approvals created.approvals
      rw [hadded]
      exact .add ⟨hcandidate, happroved⟩
    · change Within _ s.jobs created.jobs
      rcases hcreated.job with hsame | ⟨hauto, job, row, hrow, hid, hjob, hqueued, -⟩
      · rw [hsame]
        exact .refl
      · rw [hqueued]
        exact .add ⟨hauto, row, hrow, hid, hjob⟩

theorem HandedOver.speaks {req : TriggerRequest} (h : HandedOver req pk run cid conv binding s s')
    (hrow : s.runs.row? pk = some run) : Silent s s' ∨
      Speaks s s' pk conv.accountId
        (autoApproves (some binding) ((s.memberGroup binding).map Prod.snd)) := by
  cases h with
  | deferred _ => exact .inl ⟨rfl, rfl, rfl⟩
  | generated _ hfinished => exact hfinished.speaks hrow rfl
  | dispatched _ => exact .inl ⟨rfl, rfl, rfl⟩
  | refused _ => exact .inl ⟨rfl, rfl, rfl⟩

theorem ControlPlane.Advanced.speaks {py : Python} {cb : AiCallback} {minted : Minted} {now : Time}
    (h : s.Advanced py pk run cb minted now s') (hrow : s.runs.row? pk = some run) :
    Silent s s' ∨ ∃ conv, s.conversation run.conversationId = some conv ∧
      Speaks s s' pk conv.accountId false := by
  cases h with
  | stored _ _ => exact .inl ⟨rfl, rfl, rfl⟩
  | gap _ _ _ => exact .inl ⟨rfl, rfl, rfl⟩
  | next _ _ => exact .inl ⟨rfl, rfl, rfl⟩
  | complete text conv hseq hfinal htext hconv =>
    have hmodified (f : AiRun → AiRun) : (s.runs.modify pk f).row? pk = some (f run) := by
      rw [row?_modify_self, hrow, Option.map_some]
    refine .inr ⟨conv, hconv, ?_, ?_, .refl⟩
    · exact ⟨_, _, hmodified _, rfl, rfl, rfl, row?_add⟩
    · exact .add ⟨rfl, fun happroved => by simp [ControlPlane.approvalOf] at happroved⟩

end Speaks

/-! ## Steps that say nothing -/

section Quiet

variable {out : Outside} {pk : RunId} {s : ControlPlane} {a : AiAction} {t : Triggered}

theorem cancelRun_silent : Txn.Does Silent (cancelRun out pk) := by
  refine .bind .read fun _ => .bind orRefuse_does fun run => ?_
  split
  · exact .throw
  · exact .bind (.write fun _ => ⟨rfl, rfl, rfl⟩) fun _ => .read

theorem sweepDeadlines_silent : Txn.Does Silent (sweepDeadlines out) := by
  refine .bind .read fun runs => .bind (.each fun r _ => ?_) fun _ => .ret
  exact .write fun _ => ⟨rfl, rfl, rfl⟩

theorem handle_silent {caller : Caller} {req : AiRequest}
    (h : (AiAction.request out caller req).triggered s = none) :
    Silent s (aiNext s (.request out caller req)) := by
  cases htouches : req.touchesRuns with
  | false =>
    have haside : SameChain s (aiNext s (.request out caller req)) := (handle_aside htouches).commit s
    exact ⟨haside.candidates, haside.approvals, haside.jobs⟩
  | true =>
    cases req with
    | triggerRun _ => cases h
    | cancelRun _ => exact (Txn.Does.map cancelRun_silent).commit s
    | warmupGroup pk =>
      rcases Txn.Post.commit (@warmupNow_triggered out s caller pk) (.inl rfl) with hsame | ⟨t, ht, -⟩
      · have hleft : aiNext s (.request out caller (.warmupGroup pk)) = s :=
          Txn.commit_map.trans hsame
        rw [hleft]
        exact Std.Refl.refl s
      · rw [h] at ht
        cases ht
    | _ => cases htouches

theorem sameChain_of_triggered (h : a.triggered s = some t) : SameChain s t.state := by
  unfold AiAction.triggered at h
  split at h
  · cases h
    exact Std.Refl.refl s
  · cases h
    exact Std.Refl.refl s
  · obtain ⟨group, -, h⟩ := Option.bind_eq_some_iff.mp h
    obtain ⟨speaker, -, rfl⟩ := Option.map_eq_some_iff.mp h
    exact .of_tables
  · cases h

end Quiet

/-! ## Voices -/

/-- The binding that a run was triggered for, and its account then. -/
abbrev Voices := RunId → Option (BindingId × ℕ)

def Triggered.voice (t : Triggered) : Option (BindingId × ℕ) :=
  (t.state.binding t.obj.bindingId).map fun b => (t.obj.bindingId, b.accountId)

def noteVoice (voices : Voices) (s : ControlPlane) (a : AiAction) : Voices := fun pk =>
  if pk = s.runs.size ∧ ((aiNext s a).runs.row? pk).isSome then (a.triggered s).bind Triggered.voice
  else voices pk

/-- The binding may speak without approval, or its group may. -/
def ControlPlane.SwitchOn (s : ControlPlane) (b : BindingId) : Prop :=
  ∃ binding, s.binding b = some binding ∧
    autoApproves (some binding) ((s.memberGroup binding).map Prod.snd) = true

/-- What a run says is asked of its own binding's engine, and said as the account that the binding
had when it was triggered. -/
structure OwnVoice (x : ControlPlane × Voices) (a : AiAction) (x' : ControlPlane × Voices) : Prop where
  asked : ∀ t b submit generate, a.triggered x.1 = some t → t.state.binding t.obj.bindingId = some b →
    AgreesFor t.state b (b.engine = "openai") t.out submit generate →
    trigger (t.out.answering submit generate) t.obj t.defer t.state =
      trigger t.out t.obj t.defer t.state
  generated : ∀ out pk b account submit generate, a = .deferred out pk →
    x.2 pk = some (b, account) →
    (∀ binding, x.1.binding b = some binding → AgreesFor x.1 binding true out submit generate) →
    runDeferredOpenai (out.answering submit generate) pk x.1 = runDeferredOpenai out pk x.1
  said : Silent x.1 x'.1 ∨ ∃ pk account switch, Speaks x.1 x'.1 pk account switch ∧
    ∀ b own, x'.2 pk = some (b, own) → account = own ∧ (switch = true → x'.1.SwitchOn b)

/-- A conversation that the trigger finds free has the account of its binding, and the binding too
if the run is left for later. -/
def Triggered.findsOwn (t : Triggered) : Bool :=
  ((t.state.binding t.obj.bindingId).filter fun b => b.status = "active").all fun b =>
    ((t.state.conversationByScope b t.obj (t.state.currentEpoch b t.obj)).filter fun c =>
      (t.state.activeBySession c.2.sessionId).isNone).all fun c =>
        c.2.accountId = b.accountId &&
          (!(t.defer && b.engine = "openai") || c.2.bindingId = t.obj.bindingId)

def AiAction.findsOwn (s : ControlPlane) (a : AiAction) : Bool := (a.triggered s).all Triggered.findsOwn

/-- A conversation says what a run's voice was, as long as it matters. -/
def Remembers (x : ControlPlane × Voices) : Prop :=
  ∀ pk b account, x.2 pk = some (b, account) → ∃ r conv, x.1.runs.row? pk = some r ∧
    x.1.conversations.row? r.conversationId = some conv ∧ conv.accountId = account ∧
    (r.status = .pending → conv.bindingId = b)

section Voices

variable {s s₀ s' : ControlPlane} {voices : Voices} {a : AiAction} {t : Triggered} {pk : RunId}
  {b : AiBinding} {cid : ConversationId} {conv : AiConversation} {run : AiRun}

theorem Started.own (h : Started ⟨t.out, t.obj, t.defer⟩ t.state b cid conv s₀)
    (hown : t.findsOwn = true) : conv.accountId = b.accountId ∧
      (TriggerRequest.deferred ⟨t.out, t.obj, t.defer⟩ b = true → conv.bindingId = t.obj.bindingId) := by
  rcases h.conversation with ⟨hfound, -⟩ | ⟨rfl, -, -⟩
  · unfold Triggered.findsOwn at hown
    rw [h.binding, Option.filter_some_pos (by simpa using h.active), Option.all_some, hfound,
      Option.filter_some_pos (by simpa using h.idle), Option.all_some] at hown
    simp only [Bool.and_eq_true, decide_eq_true_eq, Bool.or_eq_true, Bool.not_eq_true'] at hown
    refine ⟨hown.1, fun hdeferred => hown.2.resolve_left ?_⟩
    unfold TriggerRequest.deferred at hdeferred
    simp [hdeferred]
  · exact ⟨rfl, fun _ => rfl⟩

theorem HandedOver.pending {req : TriggerRequest} {r : AiRun}
    (h : HandedOver req pk run cid conv b s s') (hrow : s.runs.row? pk = some run)
    (hrun : run.status = .pending) (hrow' : s'.runs.row? pk = some r) (hr : r.status = .pending) :
    req.deferred b = true := by
  have hmodified (s₁ : ControlPlane) (hruns : s₁.runs = s.runs) (f : AiRun → AiRun)
      (hf : (f run).status ≠ .pending) (heq : s'.runs = s₁.runs.modify pk f) : False := by
    rw [heq, row?_modify_self, hruns, hrow] at hrow'
    cases hrow'
    exact hf hr
  cases h with
  | deferred hdeferred => exact hdeferred
  | dispatched accepted => exact (hmodified s rfl _ (by nofun) rfl).elim
  | refused err => exact (hmodified s rfl _ (by nofun) rfl).elim
  | generated s' hfinished =>
    cases hfinished with
    | left hleft =>
      rw [hrow] at hleft
      simp [hrun] at hleft
    | fail err => exact (hmodified s rfl _ (by nofun) rfl).elim
    | speak candidateId created now usage hcreated =>
      exact (hmodified created (by rw [hcreated.others]) _ (by nofun) rfl).elim

structure Carries (s s' : ControlPlane) : Prop where
  run : ∀ pk r, s.runs.row? pk = some r → ∃ r', s'.runs.row? pk = some r' ∧
    r'.conversationId = r.conversationId ∧ (r'.status = .pending → r.status = .pending)
  conversation : ∀ cid c, s.conversations.row? cid = some c →
    ∃ c', s'.conversations.row? cid = some c' ∧ c.Stays c'

theorem Onward.carries (h : Onward s s') : Carries s s' := by
  refine ⟨fun pk r hr => ?_, h.conversations.old⟩
  obtain ⟨r', hr', hlater⟩ := h.runs.old pk r hr
  exact ⟨r', hr', hlater.conversationId, hlater.pending⟩

theorem ControlPlane.Advanced.carries {py : Python} {cb : AiCallback} {minted : Minted} {now : Time}
    (h : s.Advanced py pk run cb minted now s') : Carries s s' := by
  have hruns (f : AiRun → AiRun) (hf : ∀ r, (f r).conversationId = r.conversationId ∧
      (f r).status ≠ .pending) (i : RunId) (r : AiRun) (hr : s.runs.row? i = some r) :
      ∃ r', (s.runs.modify pk f).row? i = some r' ∧ r'.conversationId = r.conversationId ∧
        (r'.status = .pending → r.status = .pending) := by
    rw [row?_modify, hr]
    split
    · exact ⟨f r, rfl, (hf r).1, fun hpending => ((hf r).2 hpending).elim⟩
    · exact ⟨r, rfl, rfl, id⟩
  have hsame : Evolves AiConversation.Stays (fun _ => True) s.conversations s.conversations := .refl
  have hopened : Evolves AiConversation.Stays (fun _ => True) s.conversations
      (s.unlockConversation run.conversationId).conversations := .modify fun _ _ => ⟨rfl, rfl, rfl⟩
  cases h with
  | stored _ _ => exact ⟨fun i r hr => ⟨r, hr, rfl, id⟩, hsame.old⟩
  | gap _ _ _ => exact ⟨hruns _ fun _ => ⟨rfl, nofun⟩, hopened.old⟩
  | next _ _ => exact ⟨hruns _ fun _ => ⟨rfl, nofun⟩, hsame.old⟩
  | complete _ _ _ _ _ _ => exact ⟨hruns _ fun _ => ⟨rfl, nofun⟩, hopened.old⟩

theorem carries_aiNext : Carries s (aiNext s a) := by
  cases hcallback : a.isCallback with
  | false => exact (aiNext_onward hcallback).carries
  | true =>
    cases a with
    | callback py req =>
      rcases (ControlPlane.afterCallback_cases : s.afterCallback py req = s ∨ _) with
        hsame | ⟨b, fields, -, -, -, ⟨-, hstored⟩ | ⟨pk, run, s', -, hadvance, hafter⟩⟩
      · change Carries s (s.afterCallback py req)
        rw [hsame]
        exact Onward.carries (Std.Refl.refl s)
      · change Carries s (s.afterCallback py req)
        rw [hstored]
        exact ⟨fun i r hr => ⟨r, hr, rfl, id⟩, fun i c hc => ⟨c, hc, Std.Refl.refl c⟩⟩
      · change Carries s (s.afterCallback py req)
        rw [hafter]
        have hcarries := (ControlPlane.advanced_of_advanceRun hadvance).carries
        exact ⟨hcarries.run, hcarries.conversation⟩
    | _ => cases hcallback

theorem Remembers.carried (h : Remembers (s, voices)) (hcarries : Carries s s') :
    Remembers (s', voices) := by
  intro pk b account hvoice
  obtain ⟨r, conv, hr, hconv, haccount, hbinding⟩ := h pk b account hvoice
  obtain ⟨r', hr', hcid, hpending⟩ := hcarries.run pk r hr
  obtain ⟨conv', hconv', hstays⟩ := hcarries.conversation _ conv hconv
  refine ⟨r', conv', hr', ?_, hstays.accountId.trans haccount, fun hr' => ?_⟩
  · rw [hcid]
    exact hconv'
  · exact hstays.bindingId.trans (hbinding (hpending hr'))

theorem Started.rows (h : Started ⟨t.out, t.obj, t.defer⟩ t.state b cid conv s₀) :
    s₀.runs.row? t.state.runs.size = some (TriggerRequest.run ⟨t.out, t.obj, t.defer⟩ b conv cid) ∧
      s₀.conversations.row? cid = some conv := by
  constructor
  · rw [h.others]
    exact (row?_add _).trans (if_pos rfl)
  · rcases h.conversation with ⟨hfound, hsame⟩ | ⟨-, rfl, hadded⟩
    · rw [hsame]
      exact (first?_eq_some hfound).1
    · rw [hadded]
      exact (row?_add _).trans (if_pos rfl)

/-- A trigger does nothing, or starts a run with the voice of its binding. -/
theorem triggered_cases (h : a.triggered s = some t) : Silent s (aiNext s a) ∧
      (aiNext s a).runs = s.runs ∨
    ∃ b cid conv s₀, Started ⟨t.out, t.obj, t.defer⟩ t.state b cid conv s₀ ∧
      HandedOver ⟨t.out, t.obj, t.defer⟩ s.runs.size
        (TriggerRequest.run ⟨t.out, t.obj, t.defer⟩ b conv cid) cid conv b s₀ (aiNext s a) := by
  have hsame := sameChain_of_triggered h
  rcases aiNext_triggered h with hleft | hcommit
  · rw [hleft]
    exact .inl ⟨Std.Refl.refl s, rfl⟩
  · rw [hcommit]
    have hpost := @trigger_started t.out t.obj t.defer t.state
    rcases (hpost.mono fun _ _ => Or.inr).commit (I := fun s' => s' = t.state ∨ _) (.inl rfl) with
      hleft | hstarted
    · rw [hleft]
      exact .inl ⟨⟨hsame.candidates, hsame.approvals, hsame.jobs⟩, hsame.runs⟩
    · rw [hsame.runs] at hstarted
      exact .inr hstarted

theorem Remembers.step (h : Remembers (s, voices)) (hguard : a.findsOwn s = true) :
    Remembers (aiNext s a, noteVoice voices s a) := by
  intro pk b account hvoice
  change noteVoice voices s a pk = _ at hvoice
  unfold noteVoice at hvoice
  split at hvoice
  · rename_i hnew
    obtain ⟨rfl, hnew⟩ := hnew
    obtain ⟨t, ht, hvoice⟩ := Option.bind_eq_some_iff.mp hvoice
    obtain ⟨binding, hbinding, heq⟩ := Option.map_eq_some_iff.mp hvoice
    cases heq
    rcases triggered_cases ht with ⟨-, hruns⟩ | ⟨b, cid, conv, s₀, hstarted, hhanded⟩
    · rw [hruns, row?_size] at hnew
      cases hnew
    · obtain rfl := Option.some.inj (hstarted.binding.symm.trans hbinding)
      obtain ⟨hrow, hconv⟩ := hstarted.rows
      rw [(sameChain_of_triggered ht).runs] at hrow
      have hown := hstarted.own (by simpa [AiAction.findsOwn, ht] using hguard)
      have hcarries := (onward_ends.handedOver hhanded).carries
      obtain ⟨r, hr, hcid, -⟩ := hcarries.run _ _ hrow
      obtain ⟨conv', hconv', hstays⟩ := hcarries.conversation _ _ hconv
      refine ⟨r, conv', hr, ?_, hstays.accountId.trans hown.1, fun hpending => ?_⟩
      · rw [hcid]
        exact hconv'
      · exact hstays.bindingId.trans (hown.2 (hhanded.pending hrow rfl hr hpending))
  · exact h.carried carries_aiNext pk b account hvoice

structure SameCast (s s' : ControlPlane) : Prop where
  bindings : s'.bindings = s.bindings
  groups : s'.groups = s.groups

instance : Std.Refl SameCast where
  refl _ := ⟨rfl, rfl⟩

instance : IsTrans ControlPlane SameCast where
  trans _ _ _ h h' := ⟨h'.bindings.trans h.bindings, h'.groups.trans h.groups⟩

theorem sameCast_ends : Ends pk SameCast where
  run _ _ _ := ⟨rfl, rfl⟩
  conversation _ _ _ := ⟨rfl, rfl⟩
  candidate _ _ _ _ := ⟨rfl, rfl⟩

theorem SameCast.switchOn {bid : BindingId} (h : SameCast s s') (hb : s.binding bid = some b)
    (hauto : autoApproves (some b) ((s.memberGroup b).map Prod.snd) = true) : s'.SwitchOn bid := by
  refine ⟨b, ?_, ?_⟩
  · unfold ControlPlane.binding at *
    rwa [h.bindings]
  · unfold ControlPlane.memberGroup ControlPlane.group at *
    rwa [h.groups]

theorem said_of_triggered (ht : a.triggered s = some t) (hguard : a.findsOwn s = true) :
    Silent s (aiNext s a) ∨ ∃ pk account switch, Speaks s (aiNext s a) pk account switch ∧
      ∀ b own, noteVoice voices s a pk = some (b, own) →
        account = own ∧ (switch = true → (aiNext s a).SwitchOn b) := by
  rcases triggered_cases ht with ⟨hsilent, -⟩ | ⟨b, cid, conv, s₀, hstarted, hhanded⟩
  · exact .inl hsilent
  · have hsame := sameChain_of_triggered ht
    have hsilent : Silent s s₀ := by
      rw [hstarted.others]
      exact ⟨hsame.candidates, hsame.approvals, hsame.jobs⟩
    have hdir : s₀.dir = s.dir := by
      rw [hstarted.others]
      exact hsame.dir
    have hcast : SameCast t.state s₀ := by
      rw [hstarted.others]
      exact ⟨rfl, rfl⟩
    obtain ⟨hrow, -⟩ := hstarted.rows
    rw [hsame.runs] at hrow
    rcases hhanded.speaks hrow with hquiet | hspeaks
    · exact .inl (IsTrans.trans _ _ _ hsilent hquiet)
    · refine .inr ⟨_, _, _, hspeaks.after hsilent hdir, fun bid own hvoice => ?_⟩
      obtain ⟨r, -, hr, -⟩ := hspeaks.candidate
      unfold noteVoice at hvoice
      rw [if_pos ⟨rfl, by rw [hr]; rfl⟩, ht, Option.bind_some, Triggered.voice, hstarted.binding,
        Option.map_some] at hvoice
      cases hvoice
      refine ⟨(hstarted.own (by simpa [AiAction.findsOwn, ht] using hguard)).1, fun hauto => ?_⟩
      have hbinding : s₀.binding t.obj.bindingId = some b := by
        unfold ControlPlane.binding
        rw [hcast.bindings]
        exact hstarted.binding
      exact (sameCast_ends.handedOver hhanded).switchOn hbinding hauto

theorem said_of_deferred {out : Outside} (h : Remembers (s, voices)) :
    Silent s (aiNext s (.deferred out pk)) ∨
      ∃ account switch, Speaks s (aiNext s (.deferred out pk)) pk account switch ∧
        ∀ b own, voices pk = some (b, own) →
          account = own ∧ (switch = true → (aiNext s (.deferred out pk)).SwitchOn b) := by
  have hdelivered : Delivered out pk s (aiNext s (.deferred out pk)) :=
    runDeferredOpenai_delivered.commit .skipped
  generalize aiNext s (.deferred out pk) = s' at hdelivered
  cases hdelivered with
  | skipped => exact .inl (Std.Refl.refl s)
  | givenUp _ _ _ _ => exact .inl ⟨rfl, rfl, rfl⟩
  | generated run conv binding group s' hrun hpending hscene hfinished =>
    have hrow := (Option.filter_eq_some_iff.mp hrun).1
    rcases hfinished.speaks hrow rfl with hquiet | hspeaks
    · exact .inl hquiet
    · refine .inr ⟨_, _, hspeaks, fun b own hvoice => ?_⟩
      obtain ⟨r, conv', hr, hconv, haccount, hb⟩ := h pk b own hvoice
      obtain rfl := Option.some.inj (hrow.symm.trans hr)
      obtain ⟨hfound, hbinding, hgroup⟩ := scene_eq_some hscene
      obtain rfl := Option.some.inj (hconv.symm.trans (ControlPlane.conversation_eq_some.mp hfound).1)
      obtain rfl := hb hpending
      subst hgroup
      exact ⟨haccount, fun hauto => (sameCast_ends.finished hfinished).switchOn hbinding hauto⟩

theorem said_of_callback {py : Python} {req : CallbackRequest} (h : Remembers (s, voices)) :
    Silent s (aiNext s (.callback py req)) ∨
      ∃ pk account, Speaks s (aiNext s (.callback py req)) pk account false ∧
        pk < s.runs.size ∧ ∀ b own, voices pk = some (b, own) → account = own := by
  rcases (ControlPlane.afterCallback_cases : s.afterCallback py req = s ∨ _) with
    hsame | ⟨b, fields, -, -, -, ⟨-, hstored⟩ | ⟨pk, run, s', hlink, hadvance, hafter⟩⟩
  · refine .inl ?_
    change Silent s (s.afterCallback py req)
    rw [hsame]
    exact Std.Refl.refl s
  · refine .inl ?_
    change Silent s (s.afterCallback py req)
    rw [hstored]
    exact ⟨rfl, rfl, rfl⟩
  · change Silent s (s.afterCallback py req) ∨ ∃ pk account, Speaks s (s.afterCallback py req) pk account
      false ∧ _
    rw [hafter]
    obtain ⟨hrow, -⟩ := ControlPlane.linkRun_some hlink
    rcases (ControlPlane.advanced_of_advanceRun hadvance).speaks hrow with hquiet |
      ⟨conv, hconv, hspeaks⟩
    · exact .inl ⟨hquiet.candidates, hquiet.approvals, hquiet.jobs⟩
    · refine .inr ⟨pk, conv.accountId, hspeaks.after ⟨rfl, rfl, rfl⟩ rfl, row?_lt hrow,
        fun b own hvoice => ?_⟩
      obtain ⟨r, conv', hr, hconv', haccount, -⟩ := h pk b own hvoice
      obtain rfl := Option.some.inj (hrow.symm.trans hr)
      obtain rfl := Option.some.inj (hconv'.symm.trans (ControlPlane.conversation_eq_some.mp hconv).1)
      exact haccount

theorem noteVoice_old (h : pk < s.runs.size) : noteVoice voices s a pk = voices pk := by
  unfold noteVoice
  rw [if_neg fun hnew => (hnew.1 ▸ h).ne rfl]

theorem ownVoice_of_findsOwn (h : Remembers (s, voices)) (hguard : a.findsOwn s = true) :
    OwnVoice (s, voices) a (aiNext s a, noteVoice voices s a) := by
  constructor
  · intro t b submit generate ht hb hagrees
    refine trigger_agrees fun b' hb' => ?_
    obtain rfl := Option.some.inj (hb.symm.trans hb')
    exact hagrees
  · intro out pk b account submit generate ha hvoice hagrees
    refine runDeferredOpenai_agrees fun run conv binding group hrun hpending hscene => ?_
    obtain ⟨r, conv', hr, hconv, -, hb⟩ := h pk b account hvoice
    obtain rfl := Option.some.inj ((Option.filter_eq_some_iff.mp hrun).1.symm.trans hr)
    obtain ⟨hfound, hbinding, -⟩ := scene_eq_some hscene
    obtain rfl := Option.some.inj (hconv.symm.trans (ControlPlane.conversation_eq_some.mp hfound).1)
    obtain rfl := hb hpending
    exact hagrees binding hbinding
  · change Silent s (aiNext s a) ∨ ∃ pk account switch, Speaks s (aiNext s a) pk account switch ∧
      ∀ b own, noteVoice voices s a pk = some (b, own) →
        account = own ∧ (switch = true → (aiNext s a).SwitchOn b)
    cases ht : a.triggered s with
    | some t => exact said_of_triggered ht hguard
    | none =>
      cases a with
      | request out caller req => exact .inl (handle_silent ht)
      | trigger out obj defer => cases ht
      | callback py req =>
        rcases @said_of_callback s voices py req h with hquiet | ⟨pk, account, hspeaks, hlt, hown⟩
        · exact .inl hquiet
        · refine .inr ⟨pk, account, false, hspeaks, fun b own hvoice => ?_⟩
          rw [noteVoice_old hlt] at hvoice
          exact ⟨hown b own hvoice, nofun⟩
      | deferred out pk =>
        rcases @said_of_deferred s voices pk out h with hquiet | ⟨account, switch, hspeaks, hown⟩
        · exact .inl hquiet
        · refine .inr ⟨pk, account, switch, hspeaks, fun b own hvoice => ?_⟩
          unfold noteVoice at hvoice
          rw [ht, Option.bind_none] at hvoice
          split at hvoice
          · cases hvoice
          · exact hown b own hvoice
      | sweep out => exact .inl (sweepDeadlines_silent.commit s)

end Voices

/-- A run speaks for the binding that was triggered and as the account that it had then, if every
trigger that goes on with a conversation finds one of its own. -/
theorem runs_keep_their_voice {s : ControlPlane} {as : List AiAction}
    (h : Machine.Always (Machine.recorded aiStep noteVoice) (fun x a _ => a.findsOwn x.1 = true)
      (s, fun _ => none) as) :
    Machine.Always (Machine.recorded aiStep noteVoice) OwnVoice (s, fun _ => none) as := by
  have hnext (x : ControlPlane × Voices) (a : AiAction) (x' : ControlPlane × Voices)
      (hstep : Machine.recorded aiStep noteVoice x a = some x') :
      x' = (aiNext x.1 a, noteVoice x.2 x.1 a) := (Option.some.inj hstep).symm
  refine h.of_invariant (I := Remembers) ?_ ?_ fun pk b account hvoice => by cases hvoice
  · rintro ⟨s, voices⟩ a x' hstep hguard hs
    rw [hnext _ _ _ hstep]
    exact hs.step hguard
  · rintro ⟨s, voices⟩ a x' hstep hguard hs
    rw [hnext _ _ _ hstep]
    exact ownVoice_of_findsOwn hs hguard

/-! ## Two bindings in one chat -/

def twoVoices : ControlPlane :=
  let member (uuid : String) (accountId : ℕ) : AiBinding := {
    uuid, tenantId := 1, projectId := 1, accountId, botUuid := "", baseUrl := "url"
    inboundSecretRef := "", outboundSecretRef := "", engine := "openai"
    providerKeyEnc := some "key", providerModel := some "model" }
  { ControlPlane.ofDirectory .oneProject with bindings := ⟨[some (member "a" 1), some (member "b" 2)]⟩ }

def namesBinding (tag : String) : Outside :=
  { ControlPlane.silence with
    uuid := fun i => tag ++ toString i
    generate := fun p => .ok (p.binding.uuid, none) }

def triggerVoice (tag : String) (bindingId : BindingId) (topicId : Option ℤ) (defer : Bool) : AiAction :=
  .trigger (namesBinding tag) { bindingId, chatId := -100, text := "hi", topicId } defer

/-- Each binding in its own topic, one of them deferred, and the first one once more. -/
def inOwnTopics : List AiAction :=
  [triggerVoice "x" 0 (some 1) false, triggerVoice "y" 1 (some 2) true,
    .deferred (namesBinding "z") 1, triggerVoice "w" 0 (some 1) false]

theorem own_topics_keep_voices :
    (Machine.run aiStep twoVoices inOwnTopics).map
      (fun s => s.candidates.all.map fun c => (c.2.accountId, c.2.content)) =
        some [(1, "a"), (2, "b"), (1, "a")] ∧
      Machine.Always (Machine.recorded aiStep noteVoice) OwnVoice (twoVoices, fun _ => none)
        inOwnTopics := by
  constructor
  · decide +kernel
  · apply runs_keep_their_voice
    exact Machine.always_of_checkRun (c := fun (x : ControlPlane × Voices) (a : AiAction) _ =>
      a.findsOwn x.1) (fun _ _ _ h => h)
      (by decide +kernel)

/-- The second binding of a chat speaks as the account of the first one. -/
theorem left_over_conversation_lends_account : ¬ ∀ (s : ControlPlane) (as : List AiAction),
    Machine.Always (Machine.recorded aiStep noteVoice) OwnVoice (s, fun _ => none) as := by
  intro h
  have hobserved : ((Machine.run (Machine.recorded aiStep noteVoice) (twoVoices, fun _ => none)
        [triggerVoice "x" 0 none false]).bind fun x =>
      (Machine.recorded aiStep noteVoice x (triggerVoice "y" 1 none false)).map fun y =>
        (((x.1.candidates.size, (x.1.candidates.row? 1).isNone),
            y.1.runs.all.all fun r => r.2.candidateId ≠ some 1 || r.1 = 1),
          (y.1.candidates.row? 1).map fun c => c.accountId, y.2 1)) =
      some (((1, true), true), some 1, some (1, 2)) := by
    decide +kernel
  obtain ⟨x, y, hrun, hstep, hy⟩ :=
    Machine.exists_of_observed (f := fun (x y : ControlPlane × Voices) => _) hobserved
  refine Machine.not_always_of_step hrun hstep ?_ (h _ _)
  intro hvoice
  simp only [Prod.mk.injEq, Option.isNone_iff_eq_none, Option.map_eq_some_iff, List.all_eq_true] at hy
  obtain ⟨⟨⟨hsize, hnone⟩, hruns⟩, ⟨c, hc, haccount⟩, hown⟩ := hy
  rcases hvoice.said with hsilent | ⟨pk, account, switch, hspeaks, hkept⟩
  · rw [hsilent.candidates, hnone] at hc
    cases hc
  · obtain ⟨r, d, hr, hcandidate, -, hd, hrows⟩ := hspeaks.candidate
    rw [hrows 1, hsize, if_pos rfl] at hc
    cases hc
    have honly := hruns (pk, r) (Slots.mem_all.mpr hr)
    rw [hsize] at hcandidate
    obtain rfl : pk = 1 := by simpa [hcandidate] using honly
    have hlent := (hkept 1 2 hown).1
    omega

end TgPlatform
