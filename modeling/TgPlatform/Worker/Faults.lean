import TgPlatform.Worker.Tick

/-! # A tick with faults

A request that raises `ControlApiError` costs no more than its own answer.
Another exception ends the tick where `pull_rules`, `pull_commands` or
`ack_command` has raised it: nothing is sent in that round.
-/

namespace TgPlatform

/-! ## The desired accounts -/

/-- A dictionary as the comprehension over the assignments builds it. -/
structure Desired (d : Dict AccountId Assignment) : Prop where
  nodup : d.order.Nodup
  mem_order : ∀ k, k ∈ d.order ↔ (d.get? k).isSome
  keyed : ∀ k a, d.get? k = some a → a.accountId = k

namespace Desired

variable {d : Dict AccountId Assignment} {a : Assignment}

theorem iff_keyedBy : Desired d ↔ d.KeyedBy Assignment.accountId :=
  ⟨fun h => ⟨h.nodup, h.mem_order, h.keyed⟩, fun h => ⟨h.nodup, h.mem_order, h.keyed⟩⟩

theorem empty : Desired .empty := iff_keyedBy.mpr Dict.keyedBy_empty

theorem set (h : Desired d) : Desired (d.set a.accountId a) :=
  iff_keyedBy.mpr (iff_keyedBy.mp h).set

theorem foldl (h : Desired d) (l : List Assignment) :
    Desired (l.foldl (fun d a => d.set a.accountId a) d) := by
  induction l generalizing d with
  | nil => exact h
  | cons a l ih => exact ih h.set

theorem map_values (h : Desired d) : d.values.map Assignment.accountId = d.order :=
  (iff_keyedBy.mp h).map_values

theorem mem_values (h : Desired d) : a ∈ d.values ↔ d.get? a.accountId = some a :=
  (iff_keyedBy.mp h).mem_values

end Desired

namespace TickEnv

variable (env : TickEnv) (s : HostMain)

theorem desired_of_eq_some {d : Dict AccountId Assignment} (h : env.desired = some d) : Desired d := by
  obtain ⟨assignments, -, rfl⟩ := Option.map_eq_some_iff.mp h
  exact Desired.empty.foldl assignments

/-! ## What a tick is to do -/

/-- The hosted accounts that the control plane still wants; without its answer, all of them. -/
def kept : List AccountId := s.order.filter fun a => env.desired.all fun d => (d.get? a).isSome

/-- The lease and the session of an assignment are to be had. -/
def admits (a : Assignment) : Bool :=
  a.hasSession && (s.acquire env a.accountId).1.isSome &&
    ((env.fetchSession a.accountId).data.isSome && env.connects a.accountId)

def joins (a : Assignment) : Bool := (s.worker.hosted a.accountId).isNone && env.admits s a

def joining : List Assignment := ((env.desired.map Dict.values).getD []).filter (env.joins s)

def settled : List AccountId :=
  (env.kept s ++ (env.joining s).map Assignment.accountId).filter fun a => !s.worker.lost a

def pulled (accounts : List AccountId) : List (AccountId × PendingCommand) :=
  accounts.flatMap fun a => ((env.pullCommands a).data.getD []).map (a, ·)

end TickEnv

def unseen (seen : List ℕ) : List (AccountId × PendingCommand) → List (AccountId × PendingCommand)
  | [] => []
  | x :: l => if x.2.id ∈ seen then unseen seen l else x :: unseen (x.2.id :: seen) l

theorem unseen_append (seen : List ℕ) (l l' : List (AccountId × PendingCommand)) :
    unseen seen l <+: unseen seen (l ++ l') := by
  induction l generalizing seen with
  | nil => exact List.nil_prefix
  | cons x l ih =>
    rw [List.cons_append]
    unfold unseen
    split
    · exact ih seen
    · exact (List.prefix_cons_inj x).mpr (ih _)

theorem unseen_snoc (seen : List ℕ) (l : List (AccountId × PendingCommand))
    (x : AccountId × PendingCommand) : unseen seen (l ++ [x]) =
      unseen seen l ++ if x.2.id ∈ seen ∨ ∃ y ∈ l, y.2.id = x.2.id then [] else [x] := by
  induction l generalizing seen with
  | nil => simp [unseen]
  | cons y l ih =>
    rw [List.cons_append]
    unfold unseen
    by_cases hy : y.2.id ∈ seen
    · rw [if_pos hy, if_pos hy, ih]
      have hiff : (x.2.id ∈ seen ∨ ∃ z ∈ y :: l, z.2.id = x.2.id) ↔
          x.2.id ∈ seen ∨ ∃ z ∈ l, z.2.id = x.2.id := by
        simp only [List.mem_cons, exists_eq_or_imp]
        constructor
        · rintro (h | h | h)
          · exact .inl h
          · exact .inl (h ▸ hy)
          · exact .inr h
        · rintro (h | h)
          · exact .inl h
          · exact .inr (.inr h)
      simp only [hiff]
    · rw [if_neg hy, if_neg hy, ih, List.cons_append]
      have hiff : (x.2.id ∈ seen ∨ ∃ z ∈ y :: l, z.2.id = x.2.id) ↔
          x.2.id ∈ y.2.id :: seen ∨ ∃ z ∈ l, z.2.id = x.2.id := by
        simp only [List.mem_cons, exists_eq_or_imp]
        rw [eq_comm (a := x.2.id)]
        tauto
      simp only [hiff]

namespace TickEnv

variable (env : TickEnv) (s : HostMain)

def fresh : List (AccountId × PendingCommand) := unseen s.seen (env.pulled (env.settled s))

def Stops (commands : List (AccountId × PendingCommand)) (a : AccountId) : Bool :=
  commands.any fun x => x.1 = a && x.2.type = .stopAccount

def remaining : List AccountId := (env.settled s).filter fun a => !Stops (env.fresh s) a

/-- When the rules have been refreshed last, after the assignments of some accounts. -/
def refreshedBy (joined : List Assignment) : Time :=
  joined.foldl (fun t a =>
    if (env.pullRules (.assign a.accountId)).data.isSome then env.refreshedAt (.assign a.accountId)
    else t) s.rulesRefreshedAt

def reloadedBy (t : Time) (commands : List (AccountId × PendingCommand)) : Time :=
  commands.foldl (fun t x => (env.reloadedAt x.2).getD t) t

/-- The rules are too old when the tick checks their age. -/
def Stale : Prop :=
  rulesRefreshS < env.now - env.reloadedBy (env.refreshedBy s (env.joining s)) (env.fresh s)

/-- The requests of a tick that can end it. -/
inductive Sends : ControlCall → Prop
  | assigned (a : Assignment) : a ∈ env.joining s → Sends (.pullRules (.assign a.accountId))
  | polled (a : AccountId) : a ∈ env.settled s → Sends (.pullCommands a)
  | acked (x : AccountId × PendingCommand) : x ∈ env.fresh s → Sends (.ackCommand x.2.id)
  | refreshed (a : AccountId) : env.Stale s → a ∈ env.remaining s → Sends (.pullRules (.periodic a))

def escapes : ControlCall → Bool
  | .pullRules (.reload _) => false
  | .pullRules c => (env.pullRules c).escapes
  | .pullCommands a => (env.pullCommands a).escapes
  | .ackCommand id => (env.ackCommand id).escapes
  | .listAccounts | .fetchSession _ => false

def Fatal (w : TickEvent) : Prop := ∃ c, w = .call c ∧ env.escapes c = true

end TickEnv

/-! ## Why a tick ends early -/

namespace TickEnv

open Routine

variable {env : TickEnv} {s : HostMain}

theorem not_fatal {w : TickEvent} (h : ∀ c, w ≠ .call c) : ¬ env.Fatal w := by
  rintro ⟨c, rfl, -⟩
  exact h c rfl

theorem blames_call {c : ControlCall} {m : Tick} (hc : env.escapes c = true → ∃ e, m = raise e)
    (hm : env.escapes c = false → Blames env.Fatal m) :
    Blames env.Fatal (emit (.call c) >>= fun _ => m) := by
  apply Blames.announce
  · rintro ⟨_, ⟨⟩, hesc⟩ s
    obtain ⟨e, rfl⟩ := hc hesc
    exact ⟨e, rfl⟩
  · intro hgood
    apply hm
    by_contra hesc
    exact hgood ⟨c, rfl, by simpa using hesc⟩

theorem blames_note {w : TickEvent} {m : Tick} (hw : ∀ c, w ≠ .call c) (hm : Blames env.Fatal m) :
    Blames env.Fatal (emit w >>= fun _ => m) :=
  .bind (.emit (not_fatal hw)) fun _ => hm

theorem blames_ask {α : Type} {c : ControlCall} {r : Reply α} {m : Tick}
    (hc : env.escapes c = r.escapes) (hm : ∀ e, r.unwrap = .error (.other e) → m = raise e)
    (hfault : r.unwrap = .error .controlApi → Blames env.Fatal m)
    (hdata : ∀ a, r.unwrap = .ok a → Blames env.Fatal m) :
    Blames env.Fatal (emit (.call c) >>= fun _ => m) := by
  apply blames_call
  · intro hesc
    obtain ⟨e, he⟩ := Reply.escapes_iff.mp (hc ▸ hesc)
    exact ⟨e, hm e he⟩
  · intro hesc
    cases hr : r.unwrap with
    | ok a => exact hdata a hr
    | error e =>
      cases e with
      | controlApi => exact hfault hr
      | other e =>
        rw [hc, Reply.escapes_iff.mpr ⟨e, hr⟩] at hesc
        cases hesc

theorem blames_refreshRules {c : RulesCall} {a : Assignment}
    (hc : env.escapes (.pullRules c) = (env.pullRules c).escapes) :
    Blames env.Fatal (env.refreshRules c a) := by
  apply blames_ask hc
  · intro e he
    rw [he]
  · intro he
    rw [he]
    exact .pure
  · intro rows hrows
    rw [hrows]
    exact .bind .modify fun _ => .emit (not_fatal nofun)

theorem blames_assign {a : Assignment} : Blames env.Fatal (env.assign a) := by
  unfold assign
  refine blames_note nofun ?_
  split
  · apply Blames.bind .exec
    intro generation
    cases generation with
    | none => exact .pure
    | some generation =>
      apply blames_call
      · exact nofun
      · intro _
        split
        · exact .bind .modify fun _ => .bind (.onRaise (blames_refreshRules rfl)) fun _ => .modify
        · exact .pure
  · exact .pure

theorem blames_reconcile : Blames env.Fatal env.reconcile := by
  have hrelease : ∀ l : List AccountId,
      Blames env.Fatal (each (fun a => modify fun s : HostMain => s.release a) l : Tick) :=
    fun l => .each fun _ => .modify
  apply Blames.bind
  · apply blames_call
    · exact nofun
    · intro _
      cases env.desired with
      | none => exact .pure
      | some d =>
        apply Blames.bind .read
        intro unassigned
        apply Blames.bind (hrelease unassigned)
        intro _
        apply Blames.each
        intro a
        apply Blames.bind .read
        intro hosted
        split
        · exact .pure
        · exact blames_assign
  · intro _
    exact .bind .read fun lost => .bind (hrelease lost) fun _ => .modify

theorem blames_command {accountId : AccountId} {hosted : Hosted} {cmd : PendingCommand} :
    Blames env.Fatal (env.command accountId hosted cmd) := by
  apply Blames.bind .read
  intro seen
  split
  · exact .pure
  · apply Blames.bind .modify
    intro _
    apply Blames.bind .exec
    intro outcome
    refine blames_note nofun ?_
    apply blames_ask (r := env.ackCommand cmd.id) rfl
    · intro e he
      rw [he]
    · intro he
      rw [he]
      exact .pure
    · intro _ hdone
      rw [hdone]
      exact .pure

theorem blames_pollCommands : Blames env.Fatal env.pollCommands := by
  apply Blames.bind .read
  intro items
  apply Blames.each
  rintro ⟨accountId, hosted⟩
  apply blames_ask (r := env.pullCommands accountId) rfl
  · intro e he
    rw [he]
  · intro he
    rw [he]
    exact .pure
  · intro cmds hcmds
    rw [hcmds]
    exact .each fun _ => blames_command

theorem blames_refreshStale : Blames env.Fatal env.refreshStale := by
  apply Blames.bind .read
  intro stale
  apply Blames.bind .read
  intro items
  split
  · exact .each fun _ => blames_refreshRules rfl
  · exact .pure

/-! ## What each part of a tick leaves -/

/-- What `_assign` changes. -/
structure Assigned (env : TickEnv) (a : Assignment) (s s' : HostMain) : Prop where
  order : s'.order = if env.admits s a ∧ a.accountId ∉ s.order then s.order ++ [a.accountId] else s.order
  leases : ∀ b, b ≠ a.accountId → s'.db.accountLeases b = s.db.accountLeases b
  config : s'.worker.config = s.worker.config
  lost : s'.worker.lost = s.worker.lost
  seen : s'.seen = s.seen
  refreshed : s'.rulesRefreshedAt =
    if env.admits s a ∧ (env.pullRules (.assign a.accountId)).data.isSome then
      env.refreshedAt (.assign a.accountId)
    else s.rulesRefreshedAt
  others : ∀ b, b ≠ a.accountId → s'.worker.runners b = s.worker.runners b
  runner : env.admits s a = true → ∃ r, s'.worker.runners a.accountId = some r ∧ r.halted = none

def Pulled (env : TickEnv) (c : RulesCall) (accountId : AccountId) (log : List TickEvent) : Prop :=
  .call (.pullRules c) ∈ log ∧
    ∀ rows, (env.pullRules c).data = some rows → .refreshed accountId rows ∈ log

variable {U : TickEvent → Prop}

theorem post_refreshRules {c : RulesCall} {a : Assignment} (hcall : U (.call (.pullRules c)))
    (hrefreshed : ∀ accountId rows, U (.refreshed accountId rows)) :
    Post (env.refreshRules c a) s U fun log _ s' => env.Pulled c a.accountId log ∧
      s' = ((env.pullRules c).data.map fun rows => s.refreshRules a rows (env.refreshedAt c)).getD
        s := by
  unfold refreshRules Pulled Reply.data
  apply Post.bind
  apply Post.emit hcall
  cases (env.pullRules c).unwrap with
  | error e =>
    cases e with
    | controlApi => exact .pure ⟨⟨by simp, nofun⟩, rfl⟩
    | other e => exact .raise
  | ok rows =>
    apply Post.bind
    apply Post.modify
    apply Post.emit (hrefreshed _ _)
    exact ⟨⟨by simp, fun _ h => by cases h; simp⟩, rfl⟩

theorem post_serve {a : Assignment} {generation : ℤ}
    (hcall : U (.call (.pullRules (.assign a.accountId))))
    (hrefreshed : ∀ accountId rows, U (.refreshed accountId rows)) :
    Post (env.serve a generation) s U fun log _ s' => env.Pulled (.assign a.accountId) a.accountId log ∧
      s' = ((((env.pullRules (.assign a.accountId)).data.map fun rows =>
        (s.connect a generation).refreshRules a rows (env.refreshedAt (.assign a.accountId))).getD
          (s.connect a generation)).host a generation) := by
  unfold serve
  apply Post.bind
  apply Post.modify
  apply Post.bind
  apply Post.onRaise
  apply (post_refreshRules hcall hrefreshed).mono (fun _ h => h)
  rintro log _ s' ⟨hpulled, rfl⟩
  apply Post.modify
  simpa using hpulled

theorem Assigned.of_not_admits {a : Assignment} {s' : HostMain} (h : env.admits s a = false)
    (hs' : s' = s ∨ s' = (s.acquire env a.accountId).2) : env.Assigned a s s' := by
  have hleases : ∀ b, b ≠ a.accountId →
      (s.acquire env a.accountId).2.db.accountLeases b = s.db.accountLeases b := by
    intro b hb
    exact Function.update_of_ne hb _ _
  rcases hs' with rfl | rfl
  · constructor <;> simp [h]
  · constructor <;> first | exact hleases | simp [h, HostMain.acquire]

theorem Assigned.of_admits {a : Assignment} {s' : HostMain} {generation : ℤ} (h : env.admits s a = true)
    (hs' : s' = (((env.pullRules (.assign a.accountId)).data.map fun rows =>
      ((s.acquire env a.accountId).2.connect a generation).refreshRules a rows
        (env.refreshedAt (.assign a.accountId))).getD
          ((s.acquire env a.accountId).2.connect a generation)).host a generation) :
    env.Assigned a s s' := by
  have hleases : ∀ b, b ≠ a.accountId →
      (s.acquire env a.accountId).2.db.accountLeases b = s.db.accountLeases b := by
    intro b hb
    exact Function.update_of_ne hb _ _
  subst hs'
  cases hdata : (env.pullRules (.assign a.accountId)).data with
  | none =>
    constructor
    · by_cases hmem : a.accountId ∈ s.order <;> simp [h, hmem, HostMain.host, HostMain.connect,
        HostMain.withWorker, HostMain.acquire]
    · exact hleases
    · rfl
    · rfl
    · rfl
    · simp [hdata]; rfl
    · intro b hb
      exact Function.update_of_ne hb _ _
    · exact fun _ => ⟨_, Function.update_self .., rfl⟩
  | some rows =>
    constructor
    · by_cases hmem : a.accountId ∈ s.order <;> simp [h, hmem, HostMain.host, HostMain.connect,
        HostMain.withWorker, HostMain.acquire, HostMain.refreshRules]
    · exact hleases
    · rfl
    · rfl
    · rfl
    · simp [hdata, h]; rfl
    · intro b hb
      exact Function.update_of_ne hb _ _
    · exact fun _ => ⟨_, Function.update_self .., rfl⟩

theorem post_assign {a : Assignment} (hassigning : U (.assigning a.accountId))
    (hfetch : a.hasSession = true → (s.acquire env a.accountId).1.isSome →
      U (.call (.fetchSession a.accountId)))
    (hcall : env.admits s a = true → U (.call (.pullRules (.assign a.accountId))))
    (hrefreshed : ∀ accountId rows, U (.refreshed accountId rows)) :
    Post (env.assign a) s U fun log _ s' => .assigning a.accountId ∈ log ∧
      (env.admits s a = true → env.Pulled (.assign a.accountId) a.accountId log) ∧
        env.Assigned a s s' := by
  unfold assign
  apply Post.bind
  apply Post.emit hassigning
  split
  · rename_i hsession
    apply Post.bind
    apply Post.exec
    cases hlease : (s.acquire env a.accountId).1 with
    | none =>
      have hnot : env.admits s a = false := by simp [admits, hlease]
      exact .pure ⟨by simp, by simp [hnot], .of_not_admits hnot (.inr rfl)⟩
    | some generation =>
      apply Post.bind
      apply Post.emit (hfetch hsession (by simp [hlease]))
      split
      · rename_i hconnects
        have hadmits : env.admits s a = true := by simp [admits, hsession, hlease, hconnects]
        apply (post_serve (hcall hadmits) hrefreshed).mono (fun _ h => h)
        rintro log _ s' ⟨hpulled, hs'⟩
        refine ⟨by simp, fun _ => ?_, .of_admits hadmits hs'⟩
        exact ⟨by simp [hpulled.1], fun rows hrows => by simp [hpulled.2 rows hrows]⟩
      · rename_i hconnects
        have hnot : env.admits s a = false := by simp only [admits, hconnects, Bool.and_false]
        exact .pure ⟨by simp, by simp [hnot], .of_not_admits hnot (.inr rfl)⟩
  · rename_i hsession
    have hnot : env.admits s a = false := by simp [admits, hsession]
    exact .pure ⟨by simp, by simp [hnot], .of_not_admits hnot (.inl rfl)⟩

structure Released (l : List AccountId) (s s' : HostMain) : Prop where
  order : s'.order = s.order.filter fun a => a ∉ l
  runners : ∀ a, a ∉ l → s'.worker.runners a = s.worker.runners a
  lost : ∀ a, a ∉ l → s'.worker.lost a = s.worker.lost a
  config : s'.worker.config = s.worker.config
  db : s'.db = s.db
  seen : s'.seen = s.seen
  refreshed : s'.rulesRefreshedAt = s.rulesRefreshedAt

theorem Released.snoc {l : List AccountId} {s s' : HostMain} (h : Released l s s') (a : AccountId) :
    Released (l ++ [a]) s (s'.release a) where
  order := by
    change s'.order.filter _ = _
    rw [h.order, List.filter_filter]
    apply List.filter_congr
    intro b _
    simp [and_comm]
  runners b hb := by
    simp only [List.mem_append, List.mem_singleton, not_or] at hb
    exact (Function.update_of_ne hb.2 _ _).trans (h.runners b hb.1)
  lost b hb := by
    simp only [List.mem_append, List.mem_singleton, not_or] at hb
    exact (Function.update_of_ne hb.2 _ _).trans (h.lost b hb.1)
  config := h.config
  db := h.db
  seen := h.seen
  refreshed := h.refreshed

theorem post_release (l : List AccountId) :
    Post (each (fun a => modify fun s : HostMain => s.release a) l : Tick) s U
      fun log _ s' => log = [] ∧ Released l s s' := by
  apply Post.each (I := fun done log s' => log = [] ∧ Released done s s')
  · rintro done a rest - log s' ⟨rfl, h⟩
    exact .modify ⟨rfl, h.snoc a⟩
  · constructor
    · rfl
    · constructor <;> simp

/-- Every hosted account has the runner it had before, or a new one. -/
def Alive (s s' : HostMain) : Prop := ∀ a ∈ s'.order,
  (a ∈ s.order ∧ s'.worker.runners a = s.worker.runners a) ∨
    ∃ r, s'.worker.runners a = some r ∧ r.halted = none

/-- A part of the log that no part of a tick before the send round leaves out of its bounds. -/
def Allowed (env : TickEnv) (s : HostMain) (w : TickEvent) : Prop :=
  (∀ accounts, w ≠ .round accounts) ∧ ∀ c, w = .call c → env.escapes c = true → env.Sends s c

theorem allowed_call {c : ControlCall} (h : env.escapes c = true → env.Sends s c) :
    env.Allowed s (.call c) := by
  constructor
  · exact nofun
  · rintro _ ⟨⟩
    exact h

theorem allowed_of_ne {w : TickEvent} (h : ∀ c, w ≠ .call c) (h' : ∀ accounts, w ≠ .round accounts) :
    env.Allowed s w := ⟨h', fun c hc => absurd hc (h c)⟩

/-- The account is tried, since nothing ends the tick before it; it has a session, and its lease is
to be had. -/
structure Fetches (env : TickEnv) (s : HostMain) (a : Assignment) : Prop where
  hosted : s.worker.hosted a.accountId = none
  session : a.hasSession = true
  lease : (s.acquire env a.accountId).1.isSome
  reached : ∃ d done rest, env.desired = some d ∧ d.values = done ++ a :: rest ∧
    ∀ b ∈ done, env.joins s b = true → env.escapes (.pullRules (.assign b.accountId)) = false

structure Bounds (env : TickEnv) (s : HostMain) (U : TickEvent → Prop) : Prop where
  assigning : ∀ a, U (.assigning a)
  refreshed : ∀ a rows, U (.refreshed a rows)
  list : U (.call .listAccounts)
  fetch : ∀ a, env.Fetches s a → U (.call (.fetchSession a.accountId))
  rules : ∀ a ∈ env.joining s, U (.call (.pullRules (.assign a.accountId)))

theorem bounds_allowed : env.Bounds s (env.Allowed s) where
  assigning _ := allowed_of_ne nofun nofun
  refreshed _ _ := allowed_of_ne nofun nofun
  list := allowed_call nofun
  fetch _ _ := allowed_call nofun
  rules a ha := allowed_call fun _ => .assigned a ha

/-- The loop over the assignments; `s₁` is the state in which it starts. -/
structure Joined (env : TickEnv) (s s₁ : HostMain) (done : List Assignment) (log : List TickEvent)
    (s' : HostMain) : Prop where
  order : s'.order = s₁.order ++ (done.filter (env.joins s)).map Assignment.accountId
  leases : ∀ b, b ∉ done.map Assignment.accountId → s'.db.accountLeases b = s.db.accountLeases b
  config : s'.worker.config = s.worker.config
  lost : s'.worker.lost = s₁.worker.lost
  seen : s'.seen = s.seen
  refreshed : s'.rulesRefreshedAt = env.refreshedBy s (done.filter (env.joins s))
  alive : Alive s s'
  tried : ∀ a ∈ done, s.worker.hosted a.accountId = none → .assigning a.accountId ∈ log
  rules : ∀ a ∈ done.filter (env.joins s), env.Pulled (.assign a.accountId) a.accountId log

theorem acquire_congr {s' : HostMain} {accountId : AccountId}
    (hlease : s'.db.accountLeases accountId = s.db.accountLeases accountId)
    (hconfig : s'.worker.config = s.worker.config) :
    (s'.acquire env accountId).1 = (s.acquire env accountId).1 := by
  unfold HostMain.acquire
  rw [hlease, hconfig]

theorem admits_congr {s' : HostMain} {a : Assignment}
    (hlease : s'.db.accountLeases a.accountId = s.db.accountLeases a.accountId)
    (hconfig : s'.worker.config = s.worker.config) : env.admits s' a = env.admits s a := by
  unfold admits
  rw [acquire_congr hlease hconfig]

theorem Pulled.mono {c : RulesCall} {accountId : AccountId} {log log' : List TickEvent}
    (h : env.Pulled c accountId log) (hlog : ∀ w ∈ log, w ∈ log') : env.Pulled c accountId log' :=
  ⟨hlog _ h.1, fun rows hrows => hlog _ (h.2 rows hrows)⟩

section Joining

variable {s₁ s' s'' : HostMain} {done : List Assignment} {log log' : List TickEvent} {a : Assignment}

theorem joins_of_hosted (h : (s.worker.hosted a.accountId).isSome) : env.joins s a = false := by
  unfold joins
  rw [Option.isNone_eq_false_iff.mpr h, Bool.false_and]

theorem joins_of_not_hosted (h : s.worker.hosted a.accountId = none) :
    env.joins s a = env.admits s a := by
  simp [joins, h]

theorem Joined.skip (h : env.Joined s s₁ done log s') (hhosted : (s.worker.hosted a.accountId).isSome) :
    env.Joined s s₁ (done ++ [a]) log s' := by
  have hfilter : (done ++ [a]).filter (env.joins s) = done.filter (env.joins s) := by
    simp [joins_of_hosted hhosted]
  constructor
  · rw [hfilter]
    exact h.order
  · intro b hb
    exact h.leases b fun hmem => hb (by simp_all)
  · exact h.config
  · exact h.lost
  · exact h.seen
  · rw [hfilter]
    exact h.refreshed
  · exact h.alive
  · intro b hb hnone
    rcases List.mem_append.mp hb with hb | hb
    · exact h.tried b hb hnone
    · obtain rfl := List.mem_singleton.mp hb
      rw [hnone] at hhosted
      cases hhosted
  · rw [hfilter]
    exact h.rules

theorem Joined.assign (h : env.Joined s s₁ done log s')
    (hnew : a.accountId ∉ done.map Assignment.accountId)
    (hhosted : s.worker.hosted a.accountId = none) (hnot : a.accountId ∉ s'.order)
    (ha : env.Assigned a s' s'') (htried : .assigning a.accountId ∈ log')
    (hrules : env.admits s' a = true → env.Pulled (.assign a.accountId) a.accountId log') :
    env.Joined s s₁ (done ++ [a]) (log ++ log') s'' := by
  have hadmits : env.admits s' a = env.joins s a :=
    (admits_congr (h.leases _ hnew) h.config).trans (joins_of_not_hosted hhosted).symm
  have hfilter : (done ++ [a]).filter (env.joins s) =
      done.filter (env.joins s) ++ if env.joins s a = true then [a] else [] := by
    rw [List.filter_append, List.filter_singleton]
    cases env.joins s a <;> rfl
  constructor
  · rw [ha.order, h.order, hfilter, hadmits]
    have hnot' : a.accountId ∉ s₁.order ++ (done.filter (env.joins s)).map Assignment.accountId := by
      rwa [← h.order]
    by_cases hjoins : env.joins s a = true
    · rw [if_pos ⟨hjoins, hnot'⟩, if_pos hjoins]
      simp
    · rw [if_neg (fun hboth => hjoins hboth.1), if_neg hjoins]
      simp
  · intro b hb
    rw [List.map_append, List.mem_append, not_or] at hb
    rw [ha.leases b (by simpa using hb.2), h.leases b hb.1]
  · rw [ha.config, h.config]
  · rw [ha.lost, h.lost]
  · rw [ha.seen, h.seen]
  · rw [ha.refreshed, h.refreshed, hfilter, hadmits]
    unfold refreshedBy
    rw [List.foldl_append]
    by_cases hjoins : env.joins s a = true <;> simp [hjoins]
  · intro b hb
    by_cases hba : b = a.accountId
    · subst hba
      by_cases hjoins : env.joins s a = true
      · exact .inr (ha.runner (hadmits.trans hjoins))
      · exfalso
        rw [ha.order, hadmits, if_neg (fun hboth => hjoins hboth.1)] at hb
        exact hnot hb
    · rw [ha.others b hba]
      apply h.alive
      rw [ha.order] at hb
      split at hb
      · exact (List.mem_append.mp hb).resolve_right (by simpa using hba)
      · exact hb
  · intro b hb hnone
    rcases List.mem_append.mp hb with hb | hb
    · exact List.mem_append_left _ (h.tried b hb hnone)
    · obtain rfl := List.mem_singleton.mp hb
      exact List.mem_append_right _ htried
  · intro b hb
    rw [hfilter] at hb
    rcases List.mem_append.mp hb with hb | hb
    · exact (h.rules b hb).mono fun w hw => List.mem_append_left _ hw
    · split at hb
      · rename_i hjoins
        obtain rfl := List.mem_singleton.mp hb
        exact (hrules (hadmits.trans hjoins)).mono fun w hw => List.mem_append_right _ hw
      · cases hb

end Joining

structure Reconciled (env : TickEnv) (s : HostMain) (log : List TickEvent) (s' : HostMain) : Prop where
  order : s'.order = env.settled s
  seen : s'.seen = s.seen
  refreshed : s'.rulesRefreshedAt = env.refreshedBy s (env.joining s)
  alive : Alive s s'
  tried : ∀ d, env.desired = some d → ∀ a ∈ d.values, s.worker.hosted a.accountId = none →
    .assigning a.accountId ∈ log
  rules : ∀ a ∈ env.joining s, env.Pulled (.assign a.accountId) a.accountId log

theorem kept_of_none (h : env.desired = none) : env.kept s = s.order := by
  simp [kept, h]

theorem kept_of_some {d : Dict AccountId Assignment} (h : env.desired = some d) :
    env.kept s = s.order.filter fun a => (d.get? a).isSome := by
  simp [kept, h]

/-- The loop over the assignments, from the state in which the unassigned accounts are released. -/
theorem post_consider (hU : env.Bounds s U) {d : Dict AccountId Assignment} (hd : env.desired = some d)
    {s₁ : HostMain} (hs₁ : Released (s.order.filter fun a => (d.get? a).isNone) s s₁) :
    Post (each (fun a => do
      let hosted ← read fun s : HostMain => (s.worker.hosted a.accountId).isSome
      if hosted then pure () else env.assign a) d.values : Tick) s₁ U
      fun log _ s' => env.Joined s s₁ d.values log s' := by
  have hdesired := desired_of_eq_some env hd
  apply (Post.each (I := fun done log s' => env.Joined s s₁ done log s' ∧ ∀ w ∈ log, ¬ env.Fatal w)
    ?_ ?_).mono (fun _ h => h) fun _ _ _ h => h.1
  · rintro done a rest hl log s' ⟨hI, hgood⟩
    have hdistinct : a.accountId ∉ done.map Assignment.accountId := by
      have hnodup := hdesired.nodup
      rw [← hdesired.map_values, hl, List.map_append, List.map_cons] at hnodup
      intro hmem
      exact (List.disjoint_of_nodup_append hnodup) hmem List.mem_cons_self
    have hmem : a ∈ d.values := by simp [hl]
    have hwanted : (d.get? a.accountId).isSome := by
      rw [hdesired.mem_values.mp hmem]
      rfl
    have hhosted : (s'.worker.hosted a.accountId).isSome = (s.worker.hosted a.accountId).isSome := by
      rw [Bool.eq_iff_iff, ← s'.mem_order, ← s.mem_order, hI.order, hs₁.order]
      have hjoined : a.accountId ∉ (done.filter (env.joins s)).map Assignment.accountId := by
        intro hmem
        exact hdistinct (List.map_subset _ (List.filter_subset_self _) hmem)
      rw [List.mem_append, or_iff_left hjoined, List.mem_filter, and_iff_left]
      simp [Option.isSome_iff_ne_none.mp hwanted]
    have hblames : Blames env.Fatal (do
        let hosted ← read fun s : HostMain => (s.worker.hosted a.accountId).isSome
        if hosted then pure () else env.assign a : Tick) := by
      apply Blames.bind .read
      intro hosted
      split
      · exact .pure
      · exact blames_assign
    suffices hnext : Post (do
        let hosted ← read fun s : HostMain => (s.worker.hosted a.accountId).isSome
        if hosted then pure () else env.assign a : Tick) s' U
        fun log' _ s'' => env.Joined s s₁ (done ++ [a]) (log ++ log') s'' by
      apply (hnext.blameless hblames).mono (fun _ h => h)
      rintro log' _ s'' ⟨hjoined, hgood'⟩
      refine ⟨hjoined, fun w hw => ?_⟩
      exact (List.mem_append.mp hw).elim (hgood w) (hgood' w)
    apply Post.bind
    apply Post.read
    split
    · rename_i hthere
      exact .pure (by simpa using hI.skip (hhosted ▸ hthere))
    · rename_i hthere
      rw [hhosted] at hthere
      have hnone : s.worker.hosted a.accountId = none := by simpa using hthere
      have hnot : a.accountId ∉ s'.order := by
        rw [s'.mem_order, hhosted]
        exact hthere
      have hadmits : env.admits s' a = env.joins s a :=
        (admits_congr (hI.leases _ hdistinct) hI.config).trans (joins_of_not_hosted hnone).symm
      -- the assignments that joined before have pulled their rules, and the tick has gone on
      have hreached : ∀ b ∈ done, env.joins s b = true →
          env.escapes (.pullRules (.assign b.accountId)) = false := by
        intro b hb hjoins
        have hpulled := (hI.rules b (List.mem_filter.mpr ⟨hb, hjoins⟩)).1
        simpa using fun hesc => hgood _ hpulled ⟨_, rfl, hesc⟩
      apply (post_assign (hU.assigning _) ?_ ?_ hU.refreshed).mono (fun _ h => h)
      · rintro log' _ s'' ⟨htried, hrules, hassigned⟩
        exact hI.assign hdistinct hnone hnot hassigned htried hrules
      · intro hsession hlease
        apply hU.fetch
        constructor
        · exact hnone
        · exact hsession
        · rwa [acquire_congr (hI.leases _ hdistinct) hI.config] at hlease
        · exact ⟨d, done, rest, hd, hl, hreached⟩
      · intro hadm
        apply hU.rules
        unfold joining
        rw [hd]
        exact List.mem_filter.mpr ⟨hmem, hadmits ▸ hadm⟩
  · refine ⟨?_, by simp⟩
    constructor
    · simp
    · intro b _
      rw [hs₁.db]
    · exact hs₁.config
    · rfl
    · exact hs₁.seen
    · exact hs₁.refreshed
    · intro b hb
      rw [hs₁.order] at hb
      obtain ⟨hmem, hkept⟩ := List.mem_filter.mp hb
      exact .inl ⟨hmem, hs₁.runners b (by simp_all)⟩
    · simp
    · simp

theorem post_reassign (hU : env.Bounds s U) : Post env.reassign s U fun log _ s' =>
    s'.order = env.kept s ++ (env.joining s).map Assignment.accountId ∧
      (∀ a ∈ s'.order, s'.worker.lost a = s.worker.lost a) ∧ s'.seen = s.seen ∧
        s'.rulesRefreshedAt = env.refreshedBy s (env.joining s) ∧ Alive s s' ∧
          (∀ d, env.desired = some d → ∀ a ∈ d.values, s.worker.hosted a.accountId = none →
            .assigning a.accountId ∈ log) ∧
          ∀ a ∈ env.joining s, env.Pulled (.assign a.accountId) a.accountId log := by
  unfold reassign
  apply Post.bind
  apply Post.emit hU.list
  cases hd : env.desired with
  | none =>
    have hjoining : env.joining s = [] := by simp [joining, hd]
    apply Post.pure
    rw [kept_of_none hd, hjoining]
    exact ⟨by simp, fun _ _ => rfl, rfl, rfl, fun _ ha => .inl ⟨ha, rfl⟩, nofun, by simp⟩
  | some d =>
    have hjoining : env.joining s = d.values.filter (env.joins s) := by simp [joining, hd]
    apply Post.bind
    apply Post.read
    apply Post.bind
    apply (post_release _).mono (fun _ h => h)
    rintro log s₁ s₁ ⟨rfl, hs₁⟩
    apply (post_consider hU hd hs₁).mono (fun _ h => h)
    intro log _ s' h
    have horder : s₁.order = env.kept s := by
      rw [hs₁.order, kept_of_some hd]
      apply List.filter_congr
      intro a ha
      cases hget : d.get? a <;> simp [ha, hget]
    rw [hjoining]
    refine ⟨by rw [h.order, horder], ?_, h.seen, h.refreshed, h.alive, ?_, ?_⟩
    · intro a ha
      rw [h.lost]
      apply hs₁.lost
      intro hgone
      obtain ⟨-, hnone⟩ := List.mem_filter.mp hgone
      rw [h.order, List.mem_append, horder, kept_of_some hd] at ha
      rcases ha with ha | ha
      · simp_all
      · obtain ⟨b, hb, rfl⟩ := List.mem_map.mp ha
        rw [(desired_of_eq_some env hd).mem_values.mp (List.mem_of_mem_filter hb)] at hnone
        cases hnone
    · rintro _ ⟨⟩ a ha hnone
      simp [h.tried a ha hnone]
    · intro a ha
      exact (h.rules a ha).mono fun w hw => by simp [hw]

theorem post_reconcile (hU : env.Bounds s U) :
    Post env.reconcile s U fun log _ s' => env.Reconciled s log s' := by
  unfold reconcile
  apply Post.bind
  apply (post_reassign hU).mono (fun _ h => h)
  rintro log _ s₁ ⟨horder, hlost, hseen, hrefreshed, halive, htried, hrules⟩
  apply Post.bind
  apply Post.read
  apply Post.bind
  apply (post_release _).mono (fun _ h => h)
  rintro _ _ s₂ ⟨rfl, hs₂⟩
  apply Post.modify
  have horder₂ : s₂.order = env.settled s := by
    rw [hs₂.order]
    unfold settled
    rw [← horder]
    apply List.filter_congr
    intro a ha
    simp [ha, hlost a ha]
  constructor
  · exact horder₂
  · exact hs₂.seen.trans hseen
  · exact hs₂.refreshed.trans hrefreshed
  · intro a ha
    have ha₂ : a ∈ s₂.order := ha
    rw [hs₂.order, List.mem_filter] at ha₂
    change (a ∈ s.order ∧ s₂.worker.runners a = _) ∨ ∃ r, s₂.worker.runners a = some r ∧ _
    rw [hs₂.runners a (of_decide_eq_true ha₂.2)]
    exact halive a ha₂.1
  · simpa using htried
  · simpa using hrules

/-! ## The commands -/

section Polling

variable {s₁ s' : HostMain} {accountId : AccountId} {hosted : Hosted} {cmd : PendingCommand}
  {answers : CommandAnswers} {refreshedAt : Option Time}

theorem applyCommand_order : (s.applyCommand accountId hosted cmd answers refreshedAt).2.order =
    s.order.filter fun a => !(decide (accountId = a) && decide (cmd.type = .stopAccount)) := by
  change s.order.filter _ = _
  apply List.filter_congr
  intro a ha
  have hhosted := (s.mem_order a).mp ha
  rcases s.worker.applyCommand_worker s.db accountId hosted cmd answers with ⟨hstop, h⟩ | ⟨hstop, h, -⟩
  · rw [h]
    by_cases haa : a = accountId
    · subst haa
      simp [Worker.release, hstop]
    · rw [show (s.worker.release accountId).hosted a =
        s.worker.hosted a from Function.update_of_ne haa _ _,
        hhosted]
      simp [Ne.symm haa]
  · rw [h, hhosted]
    simp [hstop]

theorem applyCommand_runners {a : AccountId}
    (ha : a ∈ (s.applyCommand accountId hosted cmd answers refreshedAt).2.order) :
    (s.applyCommand accountId hosted cmd answers refreshedAt).2.worker.runners a =
      s.worker.runners a := by
  rw [applyCommand_order] at ha
  obtain ⟨-, ha⟩ := List.mem_filter.mp ha
  change (s.worker.applyCommand s.db accountId hosted cmd answers).2.1.runners a = _
  rcases s.worker.applyCommand_worker s.db accountId hosted cmd answers with ⟨hstop, h⟩ | ⟨-, -, h⟩
  · rw [h]
    apply Function.update_of_ne
    rintro rfl
    simp [hstop] at ha
  · rw [h]

structure Polled (env : TickEnv) (s s₁ : HostMain) (done : List (AccountId × PendingCommand))
    (log : List TickEvent) (s' : HostMain) : Prop where
  order : s'.order = s₁.order.filter fun a => !Stops (unseen s.seen done) a
  seen : ∀ id, id ∈ s'.seen ↔ id ∈ s.seen ∨ ∃ x ∈ done, x.2.id = id
  refreshed : s'.rulesRefreshedAt = env.reloadedBy s₁.rulesRefreshedAt (unseen s.seen done)
  alive : Alive s s'
  applied : ∀ x ∈ unseen s.seen done,
    (∃ outcome, .applied x.1 x.2.id outcome ∈ log) ∧ .call (.ackCommand x.2.id) ∈ log

variable {done : List (AccountId × PendingCommand)} {log : List TickEvent}
  {x : AccountId × PendingCommand}

theorem Polled.skip (h : env.Polled s s₁ done log s') (hseen : x.2.id ∈ s'.seen) :
    env.Polled s s₁ (done ++ [x]) log s' := by
  have hunseen : unseen s.seen (done ++ [x]) = unseen s.seen done := by
    rw [unseen_snoc, if_pos ((h.seen _).mp hseen), List.append_nil]
  constructor
  · rw [hunseen]
    exact h.order
  · intro id
    rw [h.seen]
    constructor
    · rintro (hid | ⟨y, hy, hid⟩)
      · exact .inl hid
      · exact .inr ⟨y, List.mem_append_left _ hy, hid⟩
    · rintro (hid | ⟨y, hy, rfl⟩)
      · exact .inl hid
      · rcases List.mem_append.mp hy with hy | hy
        · exact .inr ⟨y, hy, rfl⟩
        · obtain rfl := List.mem_singleton.mp hy
          exact (h.seen _).mp hseen
  · rw [hunseen]
    exact h.refreshed
  · exact h.alive
  · rw [hunseen]
    exact h.applied

theorem Polled.apply (h : env.Polled s s₁ done log s') (hnew : x.2.id ∉ s'.seen)
    {log' : List TickEvent} (happlied : ∃ outcome, .applied x.1 x.2.id outcome ∈ log')
    (hack : .call (.ackCommand x.2.id) ∈ log') :
    env.Polled s s₁ (done ++ [x]) (log ++ log') ((s'.see x.2.id).applyCommand x.1 hosted x.2
      (env.answersTo x.2) (env.reloadedAt x.2)).2 := by
  have hunseen : unseen s.seen (done ++ [x]) = unseen s.seen done ++ [x] := by
    rw [unseen_snoc, if_neg fun hseen => hnew ((h.seen _).mpr hseen)]
  constructor
  · rw [applyCommand_order, hunseen]
    change s'.order.filter _ = _
    rw [h.order, List.filter_filter]
    apply List.filter_congr
    intro a _
    simp [Stops, Bool.and_comm]
  · intro id
    change id ∈ x.2.id :: s'.seen ↔ _
    rw [List.mem_cons, h.seen]
    simp only [List.mem_append, List.mem_singleton, or_and_right, exists_or, exists_eq_left]
    rw [eq_comm (a := id), or_comm, or_assoc]
  · change (env.reloadedAt x.2).getD s'.rulesRefreshedAt = _
    rw [hunseen, h.refreshed]
    unfold reloadedBy
    rw [List.foldl_append]
    rfl
  · intro a ha
    rw [applyCommand_runners ha]
    apply h.alive
    rw [applyCommand_order] at ha
    exact List.mem_of_mem_filter ha
  · intro y hy
    rw [hunseen] at hy
    rcases List.mem_append.mp hy with hy | hy
    · obtain ⟨⟨outcome, hout⟩, hcall⟩ := h.applied y hy
      exact ⟨⟨outcome, List.mem_append_left _ hout⟩, List.mem_append_left _ hcall⟩
    · obtain rfl := List.mem_singleton.mp hy
      obtain ⟨outcome, hout⟩ := happlied
      exact ⟨⟨outcome, List.mem_append_right _ hout⟩, List.mem_append_right _ hack⟩

theorem post_command (hinit : done ++ [x] <+: env.pulled (env.settled s))
    (h : env.Polled s s₁ done log s') :
    Post (env.command x.1 hosted x.2) s' (env.Allowed s)
      fun log' _ s'' => env.Polled s s₁ (done ++ [x]) (log ++ log') s'' := by
  unfold command
  apply Post.bind
  apply Post.read
  split
  · rename_i hseen
    exact .pure (by simpa using h.skip (by simpa using hseen))
  · rename_i hseen
    have hnew : x.2.id ∉ s'.seen := by simpa using hseen
    have hfresh : x ∈ env.fresh s := by
      obtain ⟨rest, hrest⟩ := hinit
      unfold fresh
      rw [← hrest]
      apply (unseen_append s.seen (done ++ [x]) rest).subset
      rw [unseen_snoc, if_neg fun hseen => hnew ((h.seen _).mpr hseen)]
      simp
    apply Post.bind
    apply Post.modify
    apply Post.bind
    apply Post.exec
    apply Post.bind
    refine Post.emit (allowed_of_ne nofun nofun) ?_
    apply Post.bind
    apply Post.emit (allowed_call fun _ => .acked x hfresh)
    split
    · exact .raise
    · apply Post.pure
      exact h.apply hnew ⟨_, List.mem_cons_self⟩ (by simp)

theorem map_items (s : HostMain) : s.items.map Prod.fst = s.order := by
  have hhosted : ∀ a ∈ s.order, ((s.worker.hosted a).map (a, ·)).map Prod.fst = some a := by
    intro a ha
    obtain ⟨x, hx⟩ := Option.isSome_iff_exists.mp ((s.mem_order a).mp ha)
    rw [hx]
    rfl
  unfold HostMain.items
  rw [List.map_filterMap, List.filterMap_congr hhosted, List.filterMap_some]

theorem pulled_append (l l' : List AccountId) : env.pulled (l ++ l') = env.pulled l ++ env.pulled l' :=
  List.flatMap_append

theorem Polled.mono (h : env.Polled s s₁ done log s') {log' : List TickEvent}
    (hlog : ∀ w ∈ log, w ∈ log') :
    env.Polled s s₁ done log' s' where
  order := h.order
  seen := h.seen
  refreshed := h.refreshed
  alive := h.alive
  applied x hx := by
    obtain ⟨⟨outcome, hout⟩, hcall⟩ := h.applied x hx
    exact ⟨⟨outcome, hlog _ hout⟩, hlog _ hcall⟩

theorem post_commands {a : AccountId} {cmds : List PendingCommand}
    (hinit : done ++ cmds.map (a, ·) <+: env.pulled (env.settled s)) (h : env.Polled s s₁ done log s') :
    Post (each (env.command a hosted) cmds) s' (env.Allowed s)
      fun log' _ s'' => env.Polled s s₁ (done ++ cmds.map (a, ·)) (log ++ log') s'' := by
  apply Post.each (I := fun cdone log' s'' =>
    env.Polled s s₁ (done ++ cdone.map (a, ·)) (log ++ log') s'')
  · intro cdone cmd rest hl log' s'' h'
    have hsnoc : done ++ (cdone ++ [cmd]).map (a, ·) =
        (done ++ cdone.map (a, ·)) ++ [(a, cmd)] := by
      simp
    have hcmd : (done ++ cdone.map (a, ·)) ++ [(a, cmd)] <+: env.pulled (env.settled s) := by
      apply List.IsPrefix.trans _ hinit
      rw [hl]
      exact ⟨rest.map (a, ·), by simp⟩
    rw [hsnoc]
    simpa using post_command (x := (a, cmd)) hcmd h'
  · simpa using h

theorem post_pollCommands (h : env.Reconciled s log s₁) : Post env.pollCommands s₁ (env.Allowed s)
    fun log' _ s' => env.Polled s s₁ (env.pulled (env.settled s)) log' s' ∧
      ∀ a ∈ env.settled s, .call (.pullCommands a) ∈ log' := by
  unfold pollCommands
  apply Post.bind
  apply Post.read
  have hitems : s₁.items.map Prod.fst = env.settled s := by rw [map_items, h.order]
  rw [← hitems]
  apply (Post.each (I := fun done log s' => env.Polled s s₁ (env.pulled (done.map Prod.fst)) log s' ∧
    ∀ a ∈ done.map Prod.fst, .call (.pullCommands a) ∈ log) ?_ ?_).mono (fun _ h => h) (fun _ _ _ h => h)
  · rintro done ⟨a, hosted⟩ rest hl log s' ⟨hpolled, hcalls⟩
    have hsettled : env.settled s = done.map Prod.fst ++ a :: rest.map Prod.fst := by
      rw [← hitems, hl, List.map_append, List.map_cons]
    apply Post.bind
    apply Post.emit (allowed_call fun _ => .polled a (by simp [hsettled]))
    have hsnoc : env.pulled ((done ++ [(a, hosted)]).map Prod.fst) = env.pulled (done.map Prod.fst) ++
        ((env.pullCommands a).data.getD []).map (a, ·) := by
      rw [List.map_append, pulled_append]
      simp [pulled]
    have hcalls' : ∀ b ∈ (done ++ [(a, hosted)]).map Prod.fst, ∀ log',
        .call (.pullCommands b) ∈ log ++ ([.call (.pullCommands a)] ++ log') := by
      intro b hb log'
      rw [List.map_append, List.mem_append] at hb
      rcases hb with hb | hb
      · exact List.mem_append_left _ (hcalls b hb)
      · obtain rfl := List.mem_singleton.mp hb
        simp
    rw [hsnoc]
    cases hcmds : (env.pullCommands a).unwrap with
    | error e =>
      cases e with
      | controlApi =>
        have hnone : (env.pullCommands a).data = none := by simp [Reply.data, hcmds, Except.toOption]
        apply Post.pure
        exact ⟨by simpa [hnone] using hpolled.mono fun w hw => by simp [hw], fun b hb => hcalls' b hb []⟩
      | other e => exact .raise
    | ok cmds =>
      have hsome : (env.pullCommands a).data = some cmds := by simp [Reply.data, hcmds, Except.toOption]
      have hinit : env.pulled (done.map Prod.fst) ++ cmds.map (a, ·) <+: env.pulled (env.settled s) := by
        rw [hsettled, pulled_append]
        apply (List.prefix_append_right_inj _).mpr
        simp [pulled, hsome]
      rw [hsome]
      apply (post_commands hinit hpolled).mono (fun _ h => h)
      intro log' _ s'' h'
      constructor
      · apply h'.mono
        intro w hw
        rcases List.mem_append.mp hw with hw | hw <;> simp [hw]
      · exact fun b hb => hcalls' b hb log'
  · constructor
    · constructor
      · simp [pulled, unseen, Stops]
      · simp [pulled, h.seen]
      · rfl
      · exact h.alive
      · simp [pulled, unseen]
    · simp

end Polling

/-! ## The stale rules and the send round -/

structure Prepared (env : TickEnv) (s : HostMain) (log : List TickEvent) (s' : HostMain) : Prop where
  order : s'.order = env.remaining s
  alive : Alive s s'
  tried : ∀ d, env.desired = some d → ∀ a ∈ d.values, s.worker.hosted a.accountId = none →
    .assigning a.accountId ∈ log
  rules : ∀ a ∈ env.joining s, env.Pulled (.assign a.accountId) a.accountId log
  polled : ∀ a ∈ env.settled s, .call (.pullCommands a) ∈ log
  applied : ∀ x ∈ env.fresh s,
    (∃ outcome, .applied x.1 x.2.id outcome ∈ log) ∧ .call (.ackCommand x.2.id) ∈ log
  refreshed : env.Stale s → ∀ a ∈ env.remaining s, env.Pulled (.periodic a) a log

theorem keyed_items {s : HostMain} {x : AccountId × Hosted} (h : x ∈ s.items) :
    x.2.assignment.accountId = x.1 := by
  obtain ⟨a, -, ha⟩ := List.mem_filterMap.mp h
  obtain ⟨hosted, hhosted, rfl⟩ := Option.map_eq_some_iff.mp ha
  exact s.keyed a hosted hhosted

theorem post_refreshStale {s₂ : HostMain} (horder : s₂.order = env.remaining s)
    (hrefreshed : s₂.rulesRefreshedAt =
      env.reloadedBy (env.refreshedBy s (env.joining s)) (env.fresh s)) :
    Post env.refreshStale s₂ (env.Allowed s) fun log _ s' => s'.order = s₂.order ∧
      s'.worker.runners = s₂.worker.runners ∧
        (env.Stale s → ∀ a ∈ env.remaining s, env.Pulled (.periodic a) a log) := by
  unfold refreshStale
  apply Post.bind
  apply Post.read
  apply Post.bind
  apply Post.read
  split
  · rename_i hstale
    have hstale' : env.Stale s := by
      unfold Stale
      rw [← hrefreshed]
      exact of_decide_eq_true hstale
    apply (Post.each (I := fun done log s' => s'.order = s₂.order ∧
      s'.worker.runners = s₂.worker.runners ∧ ∀ a ∈ done.map Prod.fst, env.Pulled (.periodic a) a log)
        ?_ ⟨rfl, rfl, by simp⟩).mono (fun _ h => h)
    · rintro log _ s' ⟨horder', hrunners', hpulled⟩
      refine ⟨horder', hrunners', fun _ a ha => ?_⟩
      rw [← horder, ← map_items] at ha
      simpa using hpulled a ha
    · rintro done x rest hl log s' ⟨horder', hrunners', hpulled⟩
      have hx : x ∈ s₂.items := by simp [hl]
      have hmem : x.1 ∈ env.remaining s := by
        rw [← horder, ← map_items]
        exact List.mem_map_of_mem hx
      rw [keyed_items hx]
      apply (post_refreshRules (allowed_call fun _ => .refreshed x.1 hstale' hmem)
        (fun _ _ => allowed_of_ne nofun nofun)).mono (fun _ h => h)
      rintro log' _ _ ⟨hpulled', rfl⟩
      rw [keyed_items hx] at hpulled'
      refine ⟨?_, ?_, ?_⟩
      · rw [← horder']
        cases (env.pullRules (.periodic x.1)).data <;> rfl
      · rw [← hrunners']
        cases (env.pullRules (.periodic x.1)).data <;> rfl
      · intro a ha
        rw [List.map_append, List.mem_append] at ha
        rcases ha with ha | ha
        · exact (hpulled a ha).mono fun w hw => List.mem_append_left _ hw
        · obtain rfl := List.mem_singleton.mp ha
          exact hpulled'.mono fun w hw => List.mem_append_right _ hw
  · rename_i hstale
    refine .pure ⟨rfl, rfl, fun hstale' => ?_⟩
    unfold Stale at hstale'
    rw [← hrefreshed] at hstale'
    exact absurd (decide_eq_true hstale') hstale

def prepare (env : TickEnv) : Tick := do
  env.reconcile
  env.pollCommands
  env.refreshStale

theorem tick_eq : env.tick = (env.prepare >>= fun _ => env.sendRound) := by
  unfold tick prepare
  rw [Routine.bind_assoc]
  simp only [Routine.bind_assoc]

theorem blames_prepare : Blames env.Fatal env.prepare :=
  .bind blames_reconcile fun _ => .bind blames_pollCommands fun _ => blames_refreshStale

theorem post_prepare : Post env.prepare s (env.Allowed s) fun log _ s' => env.Prepared s log s' := by
  unfold prepare
  apply Post.bind
  apply (post_reconcile bounds_allowed).mono (fun _ h => h)
  intro log₁ _ s₁ h₁
  apply Post.bind
  apply (post_pollCommands h₁).mono (fun _ h => h)
  rintro log₂ _ s₂ ⟨h₂, hcalls⟩
  have horder : s₂.order = env.remaining s := by
    rw [h₂.order, h₁.order]
    rfl
  have hrefreshed : s₂.rulesRefreshedAt =
      env.reloadedBy (env.refreshedBy s (env.joining s)) (env.fresh s) := by
    rw [h₂.refreshed, h₁.refreshed]
    rfl
  apply (post_refreshStale horder hrefreshed).mono (fun _ h => h)
  rintro log₃ _ s₃ ⟨horder₃, hrunners₃, hpulled⟩
  constructor
  · rw [horder₃, horder]
  · intro a ha
    rw [hrunners₃]
    exact h₂.alive a (horder₃ ▸ ha)
  · intro d hd a ha hnone
    exact List.mem_append_left _ (h₁.tried d hd a ha hnone)
  · intro a ha
    exact (h₁.rules a ha).mono fun w hw => List.mem_append_left _ hw
  · intro a ha
    simp [hcalls a ha]
  · intro x hx
    obtain ⟨⟨outcome, hout⟩, hcall⟩ := h₂.applied x hx
    exact ⟨⟨outcome, by simp [hout]⟩, by simp [hcall]⟩
  · intro hstale a ha
    exact (hpulled hstale a ha).mono fun w hw => by simp [hw]

/-! ## The whole tick -/

def rounds (log : List TickEvent) : List (List AccountId) :=
  log.filterMap fun
    | .round accounts => some accounts
    | _ => none

/-- A tick that no fault of the control plane degrades beyond its own answer. -/
structure DegradesNothing (env : TickEnv) (s : HostMain) : Prop where
  round : ∃ accounts, rounds (env.tick s).log = [accounts] ∧ ∀ a ∈ (env.tick s).state.order,
    a ∈ accounts ∨ a ∈ s.order ∧ ∃ r, s.worker.runners a = some r ∧ r.halted ≠ none
  hosting : (env.tick s).state.order = env.remaining s
  assigned : ∀ d, env.desired = some d → ∀ a ∈ d.values, s.worker.hosted a.accountId = none →
    .assigning a.accountId ∈ (env.tick s).log
  loaded : ∀ a ∈ env.joining s, env.Pulled (.assign a.accountId) a.accountId (env.tick s).log
  polled : ∀ a ∈ env.settled s, .call (.pullCommands a) ∈ (env.tick s).log
  applied : ∀ x ∈ env.fresh s, (∃ outcome, .applied x.1 x.2.id outcome ∈ (env.tick s).log) ∧
    .call (.ackCommand x.2.id) ∈ (env.tick s).log
  refreshed : env.Stale s → ∀ a ∈ env.remaining s, env.Pulled (.periodic a) a (env.tick s).log

theorem Prepared.mem {log : List TickEvent} {s' : HostMain} (h : env.Prepared s log s') {c : ControlCall}
    (hc : env.Sends s c) : .call c ∈ log := by
  cases hc with
  | assigned a ha => exact (h.rules a ha).1
  | polled a ha => exact h.polled a ha
  | acked x hx => exact (h.applied x hx).2
  | refreshed a hstale ha => exact (h.refreshed hstale a ha).1

theorem rounds_prepare : rounds (env.prepare s).log = [] := by
  apply List.filterMap_eq_nil_iff.mpr
  intro w hw
  have hallowed := post_prepare.1 w hw
  cases w with
  | round accounts => exact absurd rfl (hallowed.1 accounts)
  | _ => rfl

theorem tick_of_error {e : String} (h : (env.prepare s).result = .error e) :
    (env.tick s).log = (env.prepare s).log := by
  rw [tick_eq]
  change (andThen env.prepare _ s).log = _
  unfold andThen
  rcases hp : env.prepare s with ⟨log, s', e' | a⟩
  · rfl
  · rw [hp] at h
    cases h

theorem tick_of_ok (h : (env.prepare s).result = .ok ()) :
    (env.tick s).log = (env.prepare s).log ++ [.round (env.prepare s).state.running] ∧
      (env.tick s).state.order = (env.prepare s).state.order := by
  rw [tick_eq]
  change (andThen env.prepare _ s).log = _ ∧ (andThen env.prepare _ s).state.order = _
  unfold andThen
  rcases hp : env.prepare s with ⟨log, s', e' | a⟩
  · rw [hp] at h
    cases h
  · exact ⟨rfl, rfl⟩

theorem running_of_alive {s' : HostMain} (halive : Alive s s') {a : AccountId} (ha : a ∈ s'.order) :
    a ∈ s'.running ∨ a ∈ s.order ∧ ∃ r, s.worker.runners a = some r ∧ r.halted ≠ none := by
  obtain ⟨r, hr⟩ := Option.isSome_iff_exists.mp (s'.runs a ((s'.mem_order a).mp ha))
  by_cases hhalted : r.halted = none
  · exact .inl (List.mem_filter.mpr ⟨ha, by simp [hr, hhalted]⟩)
  · rcases halive a ha with ⟨hmem, hsame⟩ | ⟨r', hr', hnone⟩
    · exact .inr ⟨hmem, r, hsame ▸ hr, hhalted⟩
    · rw [hr] at hr'
      cases hr'
      exact absurd hnone hhalted

end TickEnv

/-- All requests are answered; the control plane wants accounts `A` and `B`. -/
def twoAssignments : TickEnv where
  workerId := "w1"
  listAccounts := .response 200 (.envelope (some 200) [
    { accountId := "A", tenantId := "t", projectId := "p" },
      { accountId := "B", tenantId := "t", projectId := "p" }])
  fetchSession _ := .response 200 (.envelope (some 200) ())
  connects _ := true
  pullRules _ := .response 200 (.envelope (some 200) [])
  pullCommands _ := .response 200 (.envelope (some 200) [])
  ackCommand _ := .response 200 (.envelope (some 200) ())
  answers _ := {}
  leaseRead _ := ⟨0, none⟩
  refreshedAt _ := 0
  now := 0
  runOnce _ r := r

def hostsBoth : HostMain := (twoAssignments.tick (.start {})).state

end TgPlatform
