import TgPlatform.Control.AiScope
import TgPlatform.Pipeline.Transport
import TgPlatform.Rules.Failover

/-! # What a lost chat costs an account

A session that may not write to a chat is reported as banned, whichever chat it
was. The worker's process leaves the account out of all sender pools from then
on, and the platform hands its rules over. Nothing takes an account back in
before the process ends.
-/

namespace TgPlatform

/-! ## Processes and the platform -/

/-- `_DEAD_STATUSES`. -/
def deadStatuses : List String :=
  ["auth_dead", "revoked", "banned", "frozen", "error", "disabled", "reauth_required", "unauthorized"]

/-- The status that `_call` reports for an exception. -/
def ClientException.deadStatus : ClientException → Option String
  | .forbidden => some "banned"
  | .frozen => some "frozen"
  | .unauthorized => some "auth_dead"
  | _ => none

/-- `TelethonTransport`, as far as its reports need it. -/
structure Transport where
  apiRowId : ℕ
  reported : List String := []
  deriving DecidableEq, Repr

/-- A status report on its way to the platform, with the chat whose loss has caused it. -/
structure StatusPost where
  apiRowId : ℕ
  status : String
  lostChat : Option ℤ := none
  deriving DecidableEq, Repr

structure Process where
  transports : AccountId → Option Transport
  deadAccounts : List AccountId

namespace Process

def fresh : Process := ⟨fun _ => none, []⟩

variable (p : Process)

def connect (accountId : AccountId) (transport : Transport) : Process :=
  { p with transports := Function.update p.transports accountId (some transport) }

def drop (accountId : AccountId) : Process :=
  { p with transports := Function.update p.transports accountId none }

/-- `_on_status`, without its report. -/
def onStatus (accountId : AccountId) (status : String) : Process :=
  if status ∈ deadStatuses then { p with deadAccounts := accountId :: p.deadAccounts }
  else if status = "active" then { p with deadAccounts := p.deadAccounts.filter fun a => a ≠ accountId }
  else p

end Process

structure Fleet where
  plane : ControlPlane
  processes : WorkerId → Process
  posts : List StatusPost

def Fleet.start (plane : ControlPlane) : Fleet := ⟨plane, fun _ => .fresh, []⟩

inductive FleetAction
  /-- A call about a chat raises the exception in the account's session. -/
  | call (w : WorkerId) (accountId : AccountId) (chat : ℤ) (exception : ClientException)
  | connect (w : WorkerId) (pk : ℕ)
  | connectFails (w : WorkerId) (pk : ℕ)
  | release (w : WorkerId) (accountId : AccountId) (leaseLost : Bool)
  | restart (w : WorkerId)
  | deliver (k : ℕ) (out : Outside)
  | lose (k : ℕ)
  /-- Any other request of the platform. -/
  | request (m : Req Unit)

namespace Fleet

variable (s : Fleet)

def setProcess (w : WorkerId) (p : Process) : Fleet :=
  { s with processes := Function.update s.processes w p }

def post (x : StatusPost) : Fleet := { s with posts := s.posts ++ [x] }

/-- `_report_dead`: every status once in the life of a transport. -/
def reportDead (w : WorkerId) (accountId : AccountId) (t : Transport) (status : String)
    (lostChat : Option ℤ) : Fleet :=
  if status ∈ t.reported then s
  else
    (s.setProcess w (((s.processes w).connect accountId
      { t with reported := status :: t.reported }).onStatus accountId status)).post
        ⟨t.apiRowId, status, lostChat⟩

def step (s : Fleet) : FleetAction → Option Fleet
  | .call w accountId chat exception =>
    ((s.processes w).transports accountId).map fun t =>
      match exception.deadStatus with
      | none => s
      | some status =>
        s.reportDead w accountId t status (if exception.kind = .permission then some chat else none)
  | .connect w pk =>
    (s.plane.dir.account pk).bind fun account =>
      if ((s.processes w).transports account.uuid).isSome then none
      else some ((s.setProcess w ((s.processes w).connect account.uuid { apiRowId := pk })).post
        -- `_report_status`, not `_on_status`
        { apiRowId := pk, status := "active" })
  | .connectFails w pk =>
    (s.plane.dir.account pk).bind fun account =>
      if ((s.processes w).transports account.uuid).isSome then none
      else some (s.post { apiRowId := pk, status := "error" })
  | .release w accountId leaseLost =>
    ((s.processes w).transports accountId).map fun t =>
      let s' := s.setProcess w ((s.processes w).drop accountId)
      if leaseLost then s' else s'.post { apiRowId := t.apiRowId, status := "stopped" }
  | .restart w => some (s.setProcess w .fresh)
  | .deliver k out => (s.posts[k]?).map fun x => { s with
      plane := (reportAccountStatus out x.apiRowId x.status).commit s.plane
      posts := s.posts.eraseIdx k }
  | .lose k => if k < s.posts.length then some { s with posts := s.posts.eraseIdx k } else none
  | .request m => some { s with plane := m.commit s.plane }

end Fleet

/-! ## Sender pools -/

namespace PublishedRule

variable (row : PublishedRule)

/-- The configured accounts that a process with these dead ones takes over into its snapshots. -/
def live (dead : List AccountId) : List AccountId :=
  row.senderAccountUuids.filter fun u => u ≠ "" ∧ u ∉ dead

/-- The pool that senders are drawn from; without a live account the listener is alone in it. -/
def senders (listener : AccountId) (dead : List AccountId) : List AccountId :=
  if row.live dead = [] then [listener] else row.live dead

def Configures (accountId : AccountId) : Prop := accountId ≠ "" ∧ accountId ∈ row.senderAccountUuids

/-- A route of the rule has nothing to do with the chat. -/
def OffChat (chat : ℤ) : Prop := ∃ t ∈ row.targets, t.sourceChatId ≠ chat ∧ t.targetChatId ≠ chat

/-- Leaving the account out changes nothing: it is out already, or the listener alone is left. -/
def Spared (accountId listener : AccountId) (dead : List AccountId) : Prop :=
  accountId ∉ row.live dead ∨ row.live dead = [accountId] ∧ listener = accountId

variable {row} {dead : List AccountId} {accountId listener : AccountId}

theorem senderPool_of_mem {snap : RuleSnapshot} (h : snap ∈ rulesFromSnapshot row listener dead) :
    senderPool snap = row.senders listener dead := by
  unfold rulesFromSnapshot at h
  simp only [List.mem_flatMap, List.mem_map] at h
  obtain ⟨t, -, scope, -, rfl⟩ := h
  rfl

theorem live_cons : row.live (accountId :: dead) = (row.live dead).filter fun u => u ≠ accountId := by
  unfold live
  rw [List.filter_filter]
  congr 1
  funext u
  by_cases hu : u = accountId <;> simp [hu]

theorem senders_cons : row.senders listener (accountId :: dead) = row.senders listener dead ↔
    row.Spared accountId listener dead := by
  unfold senders Spared
  rw [live_cons]
  generalize row.live dead = live
  by_cases hmem : accountId ∈ live
  · have hlive : live ≠ [] := List.ne_nil_of_mem hmem
    rw [if_neg hlive]
    constructor
    · intro hsame
      split at hsame
      · rw [← hsame, List.mem_singleton] at hmem
        exact .inr ⟨by rw [← hsame, hmem], hmem.symm⟩
      · rw [← hsame] at hmem
        simp at hmem
    · rintro (hout | ⟨rfl, rfl⟩)
      · exact absurd hmem hout
      · simp
  · have hsame : live.filter (fun u => u ≠ accountId) = live := by
      apply List.filter_eq_self.mpr
      intro u hu
      simp only [ne_eq, decide_not, Bool.not_eq_true', decide_eq_false_iff_not]
      rintro rfl
      exact hmem hu
    rw [hsame]
    exact ⟨fun _ => .inl hmem, fun _ => rfl⟩

theorem mem_senders (h : row.Configures accountId) : accountId ∈ row.senders listener dead ↔
    accountId ∉ dead ∨ row.live dead = [] ∧ listener = accountId := by
  have hlive : accountId ∈ row.live dead ↔ accountId ∉ dead := by
    unfold live
    simp [h.1, h.2]
  unfold senders
  split
  · rename_i hnone
    rw [hnone] at hlive
    simp only [List.not_mem_nil, false_iff, not_not] at hlive
    simp [hnone, hlive, eq_comm]
  · rename_i hsome
    simp [hsome, hlive]

end PublishedRule

namespace Fleet

variable (readFilter : Option Json → RouteFilter)

/-- The pool that a process draws the senders of a rule from, in the snapshots it builds for an
account that it hosts. -/
def senders (s : Fleet) (w : WorkerId) (hosted : AccountId) (i : ℕ) : Option (List AccountId) :=
  (s.plane.published readFilter i).map fun row =>
    row.senders (orElse row.accountUuid hosted) (s.processes w).deadAccounts

/-- The rules with a route off the chat have kept their listener and, in every process, their
sender pool. -/
def SameOffChat (chat : ℤ) (s s' : Fleet) : Prop :=
  ∀ i row, s.plane.published readFilter i = some row → row.OffChat chat →
    (s'.plane.rule i).map CloneRule.accountId = (s.plane.rule i).map CloneRule.accountId ∧
      ∀ w hosted, s'.senders readFilter w hosted i = s.senders readFilter w hosted i

def Eligible (s : Fleet) (accountId : AccountId) : Prop :=
  ∀ i row, s.plane.published readFilter i = some row → row.Configures accountId → ∀ w hosted,
    accountId ∈ row.senders (orElse row.accountUuid hosted) (s.processes w).deadAccounts

/-- A lost permission, and the report of it, are of no concern off the chat; an account that is
connected and reported active is eligible. -/
def Regular (s : Fleet) (a : FleetAction) (s' : Fleet) : Prop :=
  match a with
  | .call _ _ chat exception => exception.kind = .permission → SameOffChat readFilter chat s s'
  | .deliver k _ => ∀ x chat, s.posts[k]? = some x → x.lostChat = some chat →
    SameOffChat readFilter chat s s'
  | .connect _ pk => ∀ account, s.plane.dir.account pk = some account →
    Eligible readFilter s' account.uuid
  | _ => True

/-- The account whose permission is lost is in no pool of a rule with a route off the chat, but for
those where it is alone and listens itself; no account can take over such a rule from it when the
report arrives; and no process has the account that is connected among its dead ones, unless it
listens and all other accounts of the pool are dead. -/
def Spares (s : Fleet) : FleetAction → Prop
  | .call w accountId chat exception => exception.kind = .permission →
    ∀ i row, s.plane.published readFilter i = some row → row.OffChat chat → ∀ hosted,
      row.Spared accountId (orElse row.accountUuid hosted) (s.processes w).deadAccounts
  | .deliver k out => ∀ x chat, s.posts[k]? = some x → x.lostChat = some chat →
    (s.plane.dir.account x.apiRowId).isSome → ∀ i rule row, s.plane.rule i = some rule →
      s.plane.published readFilter i = some row → row.OffChat chat →
        s.plane.NoSuccessor out x.apiRowId i rule
  | .connect _ pk => ∀ account, s.plane.dir.account pk = some account →
    ∀ i row, s.plane.published readFilter i = some row → row.Configures account.uuid → ∀ w hosted,
      account.uuid ∉ (s.processes w).deadAccounts ∨
        row.live (s.processes w).deadAccounts = [] ∧ orElse row.accountUuid hosted = account.uuid
  | _ => True

/-! ## What a run knows of its reports -/

/-- An account with a report behind it is among the dead ones, and a chat is lost to a ban. -/
structure Accounted (s : Fleet) : Prop where
  reported : ∀ w accountId t, (s.processes w).transports accountId = some t → t.reported ≠ [] →
    accountId ∈ (s.processes w).deadAccounts
  banned : ∀ x ∈ s.posts, x.lostChat.isSome → x.status = "banned"

variable {readFilter} {s s' : Fleet} {a : FleetAction} {w : WorkerId} {accountId : AccountId}
  {t : Transport}
  {status : String} {lostChat : Option ℤ} {p : Process} {x : StatusPost}

@[simp] theorem setProcess_self : (s.setProcess w p).processes w = p := Function.update_self ..

theorem setProcess_of_ne {w' : WorkerId} (h : w' ≠ w) :
    (s.setProcess w p).processes w' = s.processes w' :=
  Function.update_of_ne h ..

theorem accounted_start (plane : ControlPlane) : (start plane).Accounted where
  reported _ _ _ h := by cases h
  banned _ h := by cases h

theorem Accounted.setProcess (hs : s.Accounted) (hp : ∀ accountId t, p.transports accountId = some t →
    t.reported ≠ [] → accountId ∈ p.deadAccounts) : (s.setProcess w p).Accounted where
  reported w' accountId t ht hreported := by
    by_cases hw : w' = w
    · subst hw
      rw [setProcess_self] at ht ⊢
      exact hp accountId t ht hreported
    · rw [setProcess_of_ne hw] at ht ⊢
      exact hs.reported w' accountId t ht hreported
  banned := hs.banned

theorem Accounted.post (hs : s.Accounted) (hx : x.lostChat.isSome → x.status = "banned") :
    (s.post x).Accounted where
  reported := hs.reported
  banned y hy := by
    rcases List.mem_append.mp hy with hy | hy
    · exact hs.banned y hy
    · rw [List.mem_singleton.mp hy]
      exact hx

theorem Accounted.erase (hs : s.Accounted) (plane : ControlPlane) (k : ℕ) :
    Accounted { s with plane, posts := s.posts.eraseIdx k } where
  reported := hs.reported
  banned y hy := hs.banned y (List.mem_of_mem_eraseIdx hy)

theorem deadStatus_mem {exception : ClientException} (h : exception.deadStatus = some status) :
    status ∈ deadStatuses := by
  cases exception <;> cases h <;> decide

theorem onStatus_dead (h : status ∈ deadStatuses) :
    p.onStatus accountId status = { p with deadAccounts := accountId :: p.deadAccounts } := by
  unfold Process.onStatus
  rw [if_pos h]

theorem Accounted.reportDead (hs : s.Accounted) (hstatus : status ∈ deadStatuses)
    (hlost : lostChat.isSome → status = "banned") :
    (s.reportDead w accountId t status lostChat).Accounted := by
  unfold Fleet.reportDead
  split
  · exact hs
  · refine .post (.setProcess hs ?_) hlost
    rw [onStatus_dead hstatus]
    intro b u hu hreported
    by_cases hb : b = accountId
    · exact List.mem_cons.mpr (.inl hb)
    · apply List.mem_cons_of_mem
      apply hs.reported w b u _ hreported
      simpa [Process.connect, Function.update_of_ne hb] using hu

theorem Accounted.step (hs : s.Accounted) (h : s.step a = some s') : s'.Accounted := by
  cases a with
  | call w accountId chat exception =>
    obtain ⟨t, ht, rfl⟩ := Option.map_eq_some_iff.mp h
    cases hstatus : exception.deadStatus with
    | none => exact hs
    | some status =>
      apply hs.reportDead (deadStatus_mem hstatus)
      intro hlost
      split at hlost
      · rename_i hkind
        cases exception with
        | forbidden =>
          cases hstatus
          rfl
        | _ => cases hkind
      · cases hlost
  | connect w pk =>
    obtain ⟨account, _, h⟩ := Option.bind_eq_some_iff.mp h
    split at h <;> cases h
    refine .post (.setProcess hs ?_) nofun
    intro b u hu hreported
    by_cases hb : b = account.uuid
    · subst hb
      simp only [Process.connect, Function.update_self, Option.some.injEq] at hu
      subst hu
      exact absurd rfl hreported
    · exact hs.reported w b u (by simpa [Process.connect, Function.update_of_ne hb] using hu) hreported
  | connectFails w pk =>
    obtain ⟨account, _, h⟩ := Option.bind_eq_some_iff.mp h
    split at h <;> cases h
    exact hs.post nofun
  | release w accountId leaseLost =>
    obtain ⟨t, _, rfl⟩ := Option.map_eq_some_iff.mp h
    have hdropped : (s.setProcess w ((s.processes w).drop accountId)).Accounted := by
      apply hs.setProcess
      intro b u hu hreported
      by_cases hb : b = accountId
      · subst hb
        simp [Process.drop] at hu
      · exact hs.reported w b u (by simpa [Process.drop, Function.update_of_ne hb] using hu) hreported
    cases leaseLost with
    | true => exact hdropped
    | false => exact hdropped.post nofun
  | restart w =>
    cases h
    exact hs.setProcess nofun
  | deliver k out =>
    obtain ⟨x, _, rfl⟩ := Option.map_eq_some_iff.mp h
    exact hs.erase _ k
  | lose k =>
    simp only [Fleet.step] at h
    split at h <;> cases h
    exact hs.erase s.plane k
  | request m =>
    cases h
    exact ⟨hs.reported, hs.banned⟩

/-! ## What one step does to pools and listeners -/

theorem reportDead_processes (hstatus : status ∈ deadStatuses) (w' : WorkerId) :
    ((s.reportDead w accountId t status lostChat).processes w').deadAccounts =
      if w' = w ∧ status ∉ t.reported then accountId :: (s.processes w).deadAccounts
      else (s.processes w').deadAccounts := by
  unfold Fleet.reportDead
  by_cases hreported : status ∈ t.reported
  · rw [if_pos hreported, if_neg (fun h => h.2 hreported)]
  · rw [if_neg hreported]
    by_cases hw : w' = w
    · subst hw
      rw [if_pos ⟨rfl, hreported⟩]
      change ((s.setProcess _ _).processes _).deadAccounts = _
      rw [setProcess_self, onStatus_dead hstatus]
      rfl
    · rw [if_neg (fun h => hw h.1)]
      change ((s.setProcess _ _).processes _).deadAccounts = _
      rw [setProcess_of_ne hw]

theorem reportDead_plane : (s.reportDead w accountId t status lostChat).plane = s.plane := by
  unfold Fleet.reportDead
  split <;> rfl

theorem mem_deadAccounts_call (hs : s.Accounted) {chat now : ℤ} {e : ClientError} {wk : Worker}
    (hsame : ∀ b, b ∈ wk.deadAccounts ↔ b ∈ (s.processes w).deadAccounts)
    (h : s.step (.call w accountId chat e.exception) = some s') (b : AccountId) :
    b ∈ (wk.observe (e.failure now accountId).outcome).deadAccounts ↔
      b ∈ (s'.processes w).deadAccounts := by
  obtain ⟨t, ht, rfl⟩ := Option.map_eq_some_iff.mp h
  have hreports : (e.failure now accountId).outcome.reportsDead =
      e.exception.deadStatus.map fun _ => accountId := by
    unfold ClientError.failure
    cases e.exception <;> rfl
  unfold Worker.observe
  rw [hreports]
  cases hstatus : e.exception.deadStatus with
  | none => exact hsame b
  | some status =>
    dsimp only
    rw [reportDead_processes (deadStatus_mem hstatus)]
    change b ∈ accountId :: wk.deadAccounts ↔ _
    split
    · simp [hsame]
    · rename_i hreported
      have hmem : accountId ∈ (s.processes w).deadAccounts :=
        hs.reported w accountId t ht (List.ne_nil_of_mem (not_not.mp fun hnew => hreported ⟨rfl, hnew⟩))
      rw [List.mem_cons, hsame]
      constructor
      · rintro (rfl | hb)
        · exact hmem
        · exact hb
      · exact .inr

theorem dead_of_step (h : s.step a = some s') (ha : a ≠ .restart w)
    (hdead : accountId ∈ (s.processes w).deadAccounts) : accountId ∈ (s'.processes w).deadAccounts := by
  have hset : ∀ {w' : WorkerId} {p : Process}, p.deadAccounts = (s.processes w').deadAccounts →
      accountId ∈ ((s.setProcess w' p).processes w).deadAccounts := by
    intro w' p hp
    by_cases hw : w = w'
    · subst hw
      rw [setProcess_self, hp]
      exact hdead
    · rw [setProcess_of_ne hw]
      exact hdead
  cases a with
  | call w' b chat exception =>
    obtain ⟨t, _, rfl⟩ := Option.map_eq_some_iff.mp h
    cases hstatus : exception.deadStatus with
    | none => exact hdead
    | some status =>
      dsimp only
      rw [reportDead_processes (deadStatus_mem hstatus)]
      split
      · rename_i hw
        exact List.mem_cons_of_mem _ (hw.1 ▸ hdead)
      · exact hdead
  | connect w' pk =>
    obtain ⟨account, _, h⟩ := Option.bind_eq_some_iff.mp h
    split at h <;> cases h
    exact hset rfl
  | connectFails w' pk =>
    obtain ⟨account, _, h⟩ := Option.bind_eq_some_iff.mp h
    split at h <;> cases h
    exact hdead
  | release w' b leaseLost =>
    obtain ⟨t, _, rfl⟩ := Option.map_eq_some_iff.mp h
    cases leaseLost with
    | true => exact hset rfl
    | false => exact hset rfl
  | restart w' =>
    cases h
    rw [setProcess_of_ne]
    · exact hdead
    · rintro rfl
      exact ha rfl
  | deliver k out =>
    obtain ⟨x, _, rfl⟩ := Option.map_eq_some_iff.mp h
    exact hdead
  | lose k =>
    simp only [Fleet.step] at h
    split at h <;> cases h
    exact hdead
  | request m =>
    cases h
    exact hdead

/-- No reconnection and no report of an active account ends that. -/
theorem dead_of_run {as : List FleetAction} (h : Machine.run step s as = some s')
    (has : .restart w ∉ as) (hdead : accountId ∈ (s.processes w).deadAccounts) :
    accountId ∈ (s'.processes w).deadAccounts := by
  induction as generalizing s with
  | nil =>
    cases h
    exact hdead
  | cons a as ih =>
    obtain ⟨s₁, ha, h⟩ := Machine.run_cons_eq_some.mp h
    rw [List.mem_cons, not_or] at has
    exact ih h has.2 (dead_of_step ha (Ne.symm has.1) hdead)

theorem senders_of_pulled {pk : ℕ} {hosted : AccountId} {snap : RuleSnapshot}
    (h : snap ∈ rulesFromRows (s.plane.pullRules readFilter pk) hosted (s.processes w).deadAccounts) :
    ∃ i rule, s.plane.rule i = some rule ∧ rule.accountId = pk ∧
      s.senders readFilter w hosted i = some (senderPool snap) := by
  obtain ⟨row, hrow, hsnap⟩ := List.mem_flatMap.mp h
  obtain ⟨i, rule, hrule, hlistens, hpublished⟩ := (mem_pullRules readFilter).mp hrow
  refine ⟨i, rule, hrule, hlistens, ?_⟩
  unfold senders
  rw [hpublished, PublishedRule.senderPool_of_mem hsnap]
  rfl

variable (readFilter) in
/-- A lost permission leaves the pools off the chat alone exactly if they can do without the
account. -/
theorem call_regular_iff (hs : s.Accounted) {chat : ℤ} {exception : ClientException}
    (h : s.step (.call w accountId chat exception) = some s') :
    Regular readFilter s (.call w accountId chat exception) s' ↔
      Spares readFilter s (.call w accountId chat exception) := by
  obtain ⟨t, ht, rfl⟩ := Option.map_eq_some_iff.mp h
  unfold Regular Spares
  apply forall_congr'
  intro hkind
  obtain rfl : exception = .forbidden := by
    cases exception <;> first | rfl | cases hkind
  change SameOffChat readFilter chat s (s.reportDead w accountId t "banned" (some chat)) ↔ _
  have hbanned : "banned" ∈ deadStatuses := by decide
  have hdead : "banned" ∈ t.reported → accountId ∈ (s.processes w).deadAccounts :=
    fun hmem => hs.reported w accountId t ht (List.ne_nil_of_mem hmem)
  unfold SameOffChat senders
  rw [reportDead_plane]
  apply forall_congr'
  intro i
  apply forall_congr'
  intro row
  apply forall_congr'
  intro hrow
  apply forall_congr'
  intro hoff
  simp only [hrow, Option.map_some, Option.some.injEq, true_and, reportDead_processes hbanned]
  constructor
  · intro hsame hosted
    have hpool := hsame w hosted
    split at hpool
    · exact PublishedRule.senders_cons.mp hpool
    · rename_i hreported
      have hmem : "banned" ∈ t.reported := not_not.mp fun hnew => hreported ⟨rfl, hnew⟩
      apply Or.inl
      simp [PublishedRule.live, hdead hmem]
  · intro hspared w' hosted
    split
    · rename_i hw
      rw [hw.1]
      exact PublishedRule.senders_cons.mpr (hspared hosted)
    · rfl

variable (readFilter) in
/-- The report of a lost permission leaves the rules off the chat alone exactly if nobody can take
them over. -/
theorem deliver_regular_iff (hs : s.Accounted) {k : ℕ} {out : Outside}
    (h : s.step (.deliver k out) = some s') :
    Regular readFilter s (.deliver k out) s' ↔ Spares readFilter s (.deliver k out) := by
  obtain ⟨x, hx, rfl⟩ := Option.map_eq_some_iff.mp h
  unfold Regular Spares
  apply forall_congr'
  intro x'
  apply forall_congr'
  intro chat
  apply forall_congr'
  intro hx'
  obtain rfl : x = x' := Option.some.inj (hx.symm.trans hx')
  apply forall_congr'
  intro hchat
  have hstatus : x.status ∈ listenerDead := by
    rw [hs.banned x (List.mem_of_getElem? hx) (by rw [hchat]; rfl)]
    decide
  unfold SameOffChat senders
  dsimp only
  constructor
  · intro hsame haccount i rule row hrule hrow hoff
    obtain ⟨account, haccount⟩ := Option.isSome_iff_exists.mp haccount
    obtain ⟨hlistener, -⟩ := hsame i row hrow hoff
    rw [rule_reported haccount hstatus hrule, hrule] at hlistener
    rw [← successor_eq_none (running_of_published readFilter hrule hrow)]
    cases hsucc : s.plane.successor out x.apiRowId i rule with
    | none => rfl
    | some cand =>
      rw [hsucc] at hlistener
      exact absurd (Option.some.inj hlistener) (successor_ne hsucc)
  · intro hspared i row hrow hoff
    cases haccount : s.plane.dir.account x.apiRowId with
    | none =>
      rw [report_of_missing haccount]
      exact ⟨rfl, fun _ _ => rfl⟩
    | some account =>
      obtain ⟨rule, hrule, _⟩ := Option.bind_eq_some_iff.mp hrow
      have hkept := hspared (by rw [haccount]; rfl) i rule row hrule hrow hoff
      rw [← successor_eq_none (running_of_published readFilter hrule hrow)] at hkept
      rw [rule_reported haccount hstatus hrule,
        published_reported readFilter haccount hstatus hrule hkept,
        hkept, hrule]
      exact ⟨rfl, fun _ _ => rfl⟩

variable (readFilter) in
theorem connect_regular_iff {pk : ℕ} (h : s.step (.connect w pk) = some s') :
    Regular readFilter s (.connect w pk) s' ↔ Spares readFilter s (.connect w pk) := by
  obtain ⟨account, haccount, h⟩ := Option.bind_eq_some_iff.mp h
  split at h <;> cases h
  have hsame : ∀ w', (((s.setProcess w ((s.processes w).connect account.uuid { apiRowId := pk })).post
      { apiRowId := pk, status := "active" }).processes w').deadAccounts =
        (s.processes w').deadAccounts := by
    intro w'
    change ((s.setProcess _ _).processes _).deadAccounts = _
    by_cases hw : w' = w
    · subst hw
      rw [setProcess_self]
      rfl
    · rw [setProcess_of_ne hw]
  unfold Regular Spares Eligible
  simp only [hsame]
  constructor
  · intro heligible found hfound i row hrow hconf w' hosted
    exact (PublishedRule.mem_senders hconf).mp (heligible found hfound i row hrow hconf w' hosted)
  · intro hspared found hfound i row hrow hconf w' hosted
    exact (PublishedRule.mem_senders hconf).mpr (hspared found hfound i row hrow hconf w' hosted)

/-- For every sequence of transport outcomes, connections, status reports and other requests. -/
theorem lost_chat_stays_local_iff (readFilter : Option Json → RouteFilter) (plane : ControlPlane)
    (as : List FleetAction) :
    Machine.Always step (Regular readFilter) (start plane) as ↔
      Machine.Always step (fun s a _ => Spares readFilter s a) (start plane) as := by
  apply Machine.always_iff_of_invariant (I := Accounted)
  · exact fun s a s' h hs _ => hs.step h
  · intro s a s' h hs
    cases a with
    | call w accountId chat exception => exact call_regular_iff readFilter hs h
    | connect w pk => exact connect_regular_iff readFilter h
    | deliver k out => exact deliver_regular_iff readFilter hs h
    | _ => exact Iff.rfl
  · exact accounted_start plane

/-- Accounts `a` and `b` send for one rule, from chat 6 to chat 8. -/
def pooled : ControlPlane where
  __ := ControlPlane.ofDirectory .oneProject
  rules := Slots.add .empty {
    uuid := "r", tenantId := 1, projectId := 1, accountId := 2, name := "r"
    currentVersion := 1, status := .published, senderAccountIds := [1, 2] }
  versions := Slots.add .empty {
    ruleId := 0, tenantId := 1, projectId := 1, version := 1, publishedBy := 1, publishedAt := 0
    snapshot := {
      id := 0, uuid := "r", name := "r", accountId := 2, senderAccountIds := [1, 2], transform := false
      mode := "copy", syncEdit := true, syncDelete := true, enabled := true
      targets := [("n", 6, none, 8, none, none)] } }

/-- Account `a` may no longer write to chat 7, and the rule loses it. -/
theorem lost_chat_empties_pool : ¬ ∀ readFilter plane as,
    Machine.Always step (Regular readFilter) (start plane) as := by
  intro h
  have hobserved : ((Machine.run step (start pooled) [.connect "w" 1, .connect "w" 2]).bind fun s =>
      (step s (.call "w" "a" 7 .forbidden)).map fun s' =>
        ((s.plane.published (fun _ => {}) 0).map PublishedRule.targets,
          s.senders (fun _ => {}) "w" "b" 0, s'.senders (fun _ => {}) "w" "b" 0)) =
            some (some [{ routeId := "n", targetChatId := 8, sourceChatId := 6 }],
              some ["a", "b"], some ["b"]) := by
    decide +kernel
  obtain ⟨s, s', hrun, hstep, hobserved⟩ := Machine.exists_of_observed hobserved
  obtain ⟨htargets, hobserved⟩ := Prod.mk.inj hobserved
  obtain ⟨hbefore, hafter⟩ := Prod.mk.inj hobserved
  refine Machine.not_always_of_step hrun hstep ?_ (h (fun _ => {}) pooled _)
  intro hregular
  obtain ⟨row, hrow, htargets⟩ := Option.map_eq_some_iff.mp htargets
  have hoff : row.OffChat 7 := by
    unfold PublishedRule.OffChat
    rw [htargets]
    exact ⟨_, List.mem_singleton_self _, by decide, by decide⟩
  obtain ⟨-, hsame⟩ := hregular rfl 0 row hrow hoff
  rw [hsame "w" "b", hbefore] at hafter
  exact absurd (Option.some.inj hafter) (by decide)

end Fleet

end TgPlatform
