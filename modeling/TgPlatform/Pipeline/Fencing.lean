import TgPlatform.Lib.Trace
import TgPlatform.Pipeline.Hosting

/-! # Fencing

A process serves an account from the acquire that won its lease to the release.
The gate compares generations inside one process, so it does not see that
another process has taken the lease over. As long as no lease is taken over
while its former owner still serves the account, every call carries the newest
generation.
-/

namespace TgPlatform

/-! ## The lease of one account in a run -/

/-- The read of an acquire call of the process on the account, while its write is to come. -/
def Worker.acquiring (wk : Worker) (acc : AccountId) : Option AcquireRead :=
  match wk.assigning with
  | some ⟨x, .acquiring read⟩ => if x.accountId = acc then some read else none
  | _ => none

def Event.leaseOf (acc : AccountId) : Event → Option LeaseEvent
  | .lease acc' ev => if acc' = acc then some ev else none
  | _ => none

def System.lease (s : System) (acc : AccountId) : LeaseState where
  row := s.db.accountLeases acc
  calls w := (s.workers w).acquiring acc
  history := s.history.filterMap (Event.leaseOf acc)

namespace System

variable {s s' : System} {a : Action} {w : WorkerId} {acc : AccountId}

theorem lease_ext {t : LeaseState} (hrow : s.db.accountLeases acc = t.row)
    (hcalls : ∀ w, (s.workers w).acquiring acc = t.calls w)
    (hhistory : s.history.filterMap (Event.leaseOf acc) = t.history) : s.lease acc = t := by
  obtain ⟨row, calls, history⟩ := t
  simp only [lease, LeaseState.mk.injEq]
  exact ⟨hrow, funext hcalls, hhistory⟩

theorem runner_step_leases {d : RunnerDeps} {db : Database} {r : Runner} {x : RunnerAction}
    {e : RunnerEffect} (he : r.step d w acc db x = some e) :
    e.db.accountLeases = db.accountLeases ∧
      ∀ acc', e.events.filterMap (Event.leaseOf acc') = [] := by
  cases Runner.stepped_of_step he with
  | drained draw stamp raises rows mapping db' _ hdrain =>
    obtain ⟨_, _, rfl⟩ := Database.drainToJobs_eq_some hdrain
    exact ⟨rfl, fun _ => rfl⟩
  | claimed now at_ id seen rest db' _ _ hclaim =>
    obtain ⟨_, _, _, _, rfl⟩ := Database.tryClaim_eq_claimed hclaim
    exact ⟨rfl, fun _ => rfl⟩
  | settle now clock draw h decision _ =>
    obtain ⟨fields, _, hsettled⟩ := Runner.settleGate_eq d db r h decision now clock draw
    rw [hsettled]
    refine ⟨?_, fun _ => rfl⟩
    cases hdb : db.transition h.id .leased decision.target fields now with
    | none => rfl
    | some db' =>
      obtain ⟨_, _, _, rfl⟩ := Database.transition_eq_some hdb
      rfl
  | execute now h targetIds _ =>
    rcases Runner.startCall_cases d w acc db r h targetIds now with ⟨_, _, hcall⟩ | ⟨_, _, hcall⟩ <;>
      rw [hcall] <;> exact ⟨rfl, fun _ => rfl⟩
  | record now clock draw raises h called result _ =>
    obtain ⟨_, ⟨_, hrecord, hafter⟩ | ⟨_, hafter⟩⟩ := Runner.recordOutcome_cases d db r h result now
      clock draw raises <;> rw [hafter]
    · obtain ⟨_, _, _, _, _, _, rfl⟩ := Database.recordResult_eq_recorded hrecord
      exact ⟨rfl, fun _ => rfl⟩
    · exact ⟨rfl, fun _ => rfl⟩
  | _ => exact ⟨rfl, fun _ => rfl⟩

theorem acquiring_workerAfter (wk : Worker) (x : RunnerAction) (r : Runner) (acc' : AccountId) :
    (workerAfter wk acc x r).acquiring acc' = wk.acquiring acc' := by
  cases x <;> rfl

theorem lease_host_same {e : HostEffect}
    (hrow : e.db.accountLeases acc = s.db.accountLeases acc)
    (hcalls : e.worker.acquiring acc = (s.workers w).acquiring acc)
    (hevents : e.events.filterMap (Event.leaseOf acc) = []) :
    (s.afterHost w e).lease acc = s.lease acc := by
  refine lease_ext hrow ?_ (by simp [afterHost, hevents, lease])
  intro w'
  by_cases hw : w' = w
  · subst hw
    simpa [afterHost, lease] using hcalls
  · simp [afterHost, lease, hw]

theorem lease_host {x : HostAction} {e : HostEffect}
    (he : (s.workers w).step w s.published s.db x = some e) (acc : AccountId) :
    (s.afterHost w e).lease acc = s.lease acc ∨
      ∃ l, (s.lease acc).step l = some ((s.afterHost w e).lease acc) := by
  cases Worker.stepped_of_step he with
  | assignRead x now hfree _ =>
    by_cases hacc : x.accountId = acc
    · refine Or.inr ⟨.read w now, ?_⟩
      have hnone : (s.lease acc).calls w = none := by simp [lease, Worker.acquiring, hfree]
      rw [LeaseState.step, if_pos hnone, Option.some.injEq, eq_comm]
      refine lease_ext rfl ?_ (by simp [afterHost, lease])
      intro w'
      by_cases hw : w' = w
      · subst hw
        simp [afterHost, Worker.acquiring, hacc, lease]
      · simp [afterHost, lease, hw]
    · refine Or.inl (lease_host_same rfl ?_ rfl)
      simp [Worker.acquiring, hacc, hfree]
  | assignWrite x read row generation hassigning hwrite =>
    by_cases hacc : x.accountId = acc
    · subst hacc
      refine Or.inr ⟨.write w (s.workers w).config.leaseTtl, ?_⟩
      have hread : (s.lease x.accountId).calls w = some read := by
        simp [lease, Worker.acquiring, hassigning]
      rw [LeaseState.step, hread, Option.map_some, Option.some.injEq, eq_comm]
      refine lease_ext ?_ ?_ ?_
      · simp [afterHost, lease, hwrite]
      · intro w'
        by_cases hw : w' = w
        · subst hw
          cases generation <;> simp [afterHost, Worker.acquiring]
        · simp [afterHost, lease, hw]
      · simp [afterHost, lease, Event.leaseOf, hwrite]
    · refine Or.inl (lease_host_same ?_ ?_ ?_)
      · simp [Function.update_of_ne (Ne.symm hacc)]
      · cases generation <;> simp [Worker.acquiring, hassigning, hacc]
      · simp [Event.leaseOf, hacc]
  | assignConnect x g hassigning =>
    exact Or.inl (lease_host_same rfl (by simp [Worker.acquiring, hassigning]) rfl)
  | assignFail x sessions hassigning =>
    refine Or.inr ⟨.abandon w, ?_⟩
    rw [LeaseState.step, Option.some.injEq, eq_comm]
    refine lease_ext rfl ?_ (by simp [afterHost, lease])
    intro w'
    by_cases hw : w' = w
    · subst hw
      simp [afterHost, Worker.acquiring]
    · simp [afterHost, lease, hw]
  | assignDone x g hassigning =>
    exact Or.inl (lease_host_same rfl (by simp [Worker.acquiring, hassigning]) rfl)
  | renew acc' now hosted row ok _ _ hrenew =>
    by_cases hacc : acc' = acc
    · subst hacc
      refine Or.inr ⟨.renew w hosted.generation (now + (s.workers w).config.leaseTtl), ?_⟩
      rw [LeaseState.step, Option.some.injEq, eq_comm]
      refine lease_ext ?_ ?_ ?_
      · simp [afterHost, lease, hrenew]
      · intro w'
        by_cases hw : w' = w
        · subst hw
          cases ok <;> simp [afterHost, lease, Worker.acquiring, Worker.setLost]
        · simp [afterHost, lease, hw]
      · simp [afterHost, lease, Event.leaseOf, hrenew]
    · refine Or.inl (lease_host_same ?_ ?_ ?_)
      · simp [Function.update_of_ne (Ne.symm hacc)]
      · cases ok <;> rfl
      · simp [Event.leaseOf, hacc]
  | cancelJob id src now db' _ hdb =>
    obtain ⟨_, _, _, rfl⟩ := Database.transition_eq_some hdb
    exact Or.inl (lease_host_same rfl rfl rfl)
  | _ => exact Or.inl (lease_host_same rfl rfl rfl)

theorem lease_same (hrow : s'.db.accountLeases = s.db.accountLeases) (hworkers : s'.workers = s.workers)
    (hhistory : s'.history.filterMap (Event.leaseOf acc) =
      s.history.filterMap (Event.leaseOf acc)) : s'.lease acc = s.lease acc :=
  lease_ext (congrFun hrow acc) (fun w => by rw [hworkers]; rfl) hhistory

/-- Every system step is a step of each lease's machine, or leaves the lease alone. -/
theorem lease_step (h : s.step a = some s') (acc : AccountId) :
    s'.lease acc = s.lease acc ∨ ∃ l, (s.lease acc).step l = some (s'.lease acc) := by
  cases a with
  | runner w acc' x =>
    obtain ⟨r, e, hr, he, rfl⟩ := step_runner_eq_some h
    obtain ⟨hleases, hevents⟩ := runner_step_leases he
    refine Or.inl (lease_ext (congrFun hleases acc) ?_ (by simp [afterRunner, hevents, lease]))
    intro w'
    by_cases hw : w' = w
    · subst hw
      simp [afterRunner, acquiring_workerAfter, lease]
    · simp [afterRunner, lease, hw]
  | host w x =>
    obtain ⟨e, he, rfl⟩ := step_host_eq_some h
    exact lease_host he acc
  | crash w =>
    obtain rfl := Option.some.inj h
    refine Or.inr ⟨.abandon w, ?_⟩
    rw [LeaseState.step, Option.some.injEq, eq_comm]
    refine lease_ext rfl ?_ rfl
    intro w'
    by_cases hw : w' = w
    · subst hw
      simp [Worker.acquiring, Worker.start]
    · simp [lease, hw]
  | ingestRead w acc' raw pyHash =>
    obtain ⟨x, _, rfl⟩ := Option.map_eq_some_iff.mp h
    exact Or.inl (lease_same rfl rfl rfl)
  | ingestCommit k =>
    obtain ⟨c, _, rfl⟩ := Option.map_eq_some_iff.mp h
    rcases commitIngest_cases (s := { s with ingests := s.ingests.eraseIdx k }) c with
      hsame | ⟨db, hdb, hcommit⟩
    · rw [hsame]
      exact Or.inl (lease_same rfl rfl rfl)
    · obtain ⟨_, sources, rfl, _⟩ := Database.ingestCommit_eq_some hdb
      rw [hcommit]
      exact Or.inl (lease_same rfl rfl (by simp [Event.leaseOf]))
  | publish acc' rows =>
    obtain rfl := Option.some.inj h
    exact Or.inl (lease_same rfl rfl rfl)
  | enqueue reply now =>
    simp only [step] at h
    split at h <;> cases h
    exact Or.inl (lease_same rfl rfl rfl)
  | operatorRead call i =>
    obtain ⟨job, _, h⟩ := Option.bind_eq_some_iff.mp h
    split at h <;> cases h
    exact Or.inl (lease_same rfl rfl rfl)
  | operatorWrite k =>
    obtain ⟨q, _, rfl⟩ := Option.map_eq_some_iff.mp h
    exact Or.inl (lease_same rfl rfl rfl)

theorem leaseInvariant_lease (s : System) (a : Action) (s' : System) (h : s.step a = some s')
    (hs : ∀ acc, LeaseInvariant (s.lease acc)) : ∀ acc, LeaseInvariant (s'.lease acc) := by
  intro acc
  rcases lease_step h acc with hsame | ⟨l, hl⟩
  · rw [hsame]
    exact hs acc
  · exact leaseInvariant_step _ l _ hl (hs acc)

end System

/-! ## Who serves an account -/

/-- The process hosts the account at the generation, or has won the lease and is connecting. -/
def Worker.Serves (wk : Worker) (acc : AccountId) (g : ℤ) : Prop :=
  (∃ h, wk.hosted acc = some h ∧ h.generation = g) ∨
    ∃ x, wk.assigning = some x ∧ x.assignment.accountId = acc ∧
      (x.stage = .connecting g ∨ x.stage = .connected g)

/-- A process comes to serve an account only by the write that wins its lease. -/
theorem Worker.serves_step {wk : Worker} {w : WorkerId}
    {published : AccountId → List PublishedRule} {db : Database} {x : HostAction} {e : HostEffect}
    {acc : AccountId} {g : ℤ} (he : wk.step w published db x = some e)
    (hserves : e.worker.Serves acc g) : wk.Serves acc g ∨
      ∃ a read, x = .assignWrite ∧ wk.assigning = some ⟨a, .acquiring read⟩ ∧
        a.accountId = acc ∧
        (acquireWrite (db.accountLeases acc) w wk.config.leaseTtl read).2 = some g := by
  cases Worker.stepped_of_step he with
  | assignRead a now hfree _ =>
    rcases hserves with hhosted | ⟨x, hx, _, hstage⟩
    · exact Or.inl (Or.inl hhosted)
    · obtain rfl := Option.some.inj hx
      rcases hstage with hstage | hstage <;> cases hstage
  | assignWrite a read row generation hassigning hwrite =>
    rcases hserves with hhosted | ⟨x, hx, hacc, hstage⟩
    · exact Or.inl (Or.inl hhosted)
    · obtain ⟨g', hg', rfl⟩ := Option.map_eq_some_iff.mp hx
      obtain rfl : a.accountId = acc := hacc
      refine Or.inr ⟨a, read, rfl, hassigning, rfl, ?_⟩
      rw [hwrite, hg']
      rcases hstage with hstage | hstage <;> cases hstage
      rfl
  | assignConnect a g' hassigning =>
    rcases hserves with hhosted | ⟨x, hx, hacc, hstage⟩
    · exact Or.inl (Or.inl hhosted)
    · obtain rfl := Option.some.inj hx
      refine Or.inl (Or.inr ⟨_, hassigning, hacc, Or.inl ?_⟩)
      rcases hstage with hstage | hstage <;> cases hstage
      rfl
  | assignFail x sessions hassigning =>
    rcases hserves with hhosted | ⟨x, hx, _⟩
    · exact Or.inl (Or.inl hhosted)
    · cases hx
  | assignDone a g' hassigning =>
    rcases hserves with ⟨h, hh, hg⟩ | ⟨x, hx, _⟩
    · by_cases hacc : acc = a.accountId
      · subst hacc
        obtain rfl : ⟨a, g'⟩ = h := by simpa using hh
        exact Or.inl (Or.inr ⟨_, hassigning, rfl, Or.inr (by rw [← hg])⟩)
      · exact Or.inl (Or.inl ⟨h, by simpa [hacc] using hh, hg⟩)
    · cases hx
  | release acc' _ _ =>
    rcases hserves with ⟨h, hh, hg⟩ | hassigning
    · by_cases hacc : acc = acc'
      · subst hacc
        simp [Worker.release] at hh
      · exact Or.inl (Or.inl ⟨h, by simpa [Worker.release, hacc] using hh, hg⟩)
    · exact Or.inl (Or.inr hassigning)
  | renew acc' now hosted row ok _ _ _ =>
    cases ok <;> exact Or.inl hserves
  | _ => exact Or.inl hserves

theorem serves_workerAfter {wk : Worker} {acc acc' : AccountId} {x : RunnerAction} {r : Runner}
    {g : ℤ} : (System.workerAfter wk acc' x r).Serves acc g ↔ wk.Serves acc g := by
  cases x <;> exact Iff.rfl

/-- No acquire takes a lease over while its former owner still serves the account at the
generation of the row. -/
def FormerOwnerGone (s : System) (a : Action) (_ : System) : Prop :=
  ∀ w x read r, a = .host w .assignWrite →
    (s.workers w).assigning = some ⟨x, .acquiring read⟩ →
    s.db.accountLeases x.accountId = some r → r.workerId ≠ w → r.leaseUntil ≤ read.now →
    ¬ (s.workers r.workerId).Serves x.accountId r.generation

/-- The call is at least as new as every acquire of its account before it. -/
def Fenced (pre : List Event) (ev : Event) : Prop :=
  ∀ call, ev = .started call → ∀ w g,
    .lease call.accountId (.acquired w (some g)) ∈ pre → g ≤ call.generation

structure OneServer (s : System) : Prop where
  hosting : s.AllHosting
  leases : ∀ acc, LeaseInvariant (s.lease acc)
  holds : ∀ w acc g, (s.workers w).Serves acc g → Holds (s.db.accountLeases acc) w g
  fenced : Trace.Throughout Fenced s.history

theorem oneServer_start (config : WorkerId → WorkerConfig) : OneServer (.start config) := by
  refine ⟨System.allHosting_start config, ?_, ?_, Trace.throughout_nil⟩
  · exact fun acc => leaseInvariant_start none
  · rintro w acc g (⟨h, hh, _⟩ | ⟨x, hx, _⟩)
    · cases hh
    · cases hx

section System

variable {s s' : System} {a : Action}

theorem lease_row_step (h : s.step a = some s') (acc : AccountId) :
    SameHolder (s.db.accountLeases acc) (s'.db.accountLeases acc) ∨
      ∃ w x read, a = .host w .assignWrite ∧
        (s.workers w).assigning = some ⟨x, .acquiring read⟩ ∧ x.accountId = acc ∧
        s'.db.accountLeases acc = (acquireWrite (s.db.accountLeases acc) w
          (s.workers w).config.leaseTtl read).1 := by
  have hsame : s'.db.accountLeases acc = s.db.accountLeases acc →
      SameHolder (s.db.accountLeases acc) (s'.db.accountLeases acc) := by
    intro he
    rw [he]
    rfl
  cases a with
  | host w x =>
    obtain ⟨e, he, rfl⟩ := System.step_host_eq_some h
    cases Worker.stepped_of_step he with
    | assignWrite x read row generation hassigning hwrite =>
      by_cases hacc : x.accountId = acc
      · subst hacc
        exact Or.inr ⟨w, x, read, rfl, hassigning, rfl, by simp [System.afterHost, hwrite]⟩
      · exact Or.inl (hsame (by simp [System.afterHost, Function.update_of_ne (Ne.symm hacc)]))
    | renew acc' now hosted row ok _ _ hrenew =>
      refine Or.inl ?_
      by_cases hacc : acc' = acc
      · subst hacc
        simp only [System.afterHost, Function.update_self]
        have hspec : SameHolder (s.db.accountLeases acc') (renewLease (s.db.accountLeases acc') w
            hosted.generation (now + (s.workers w).config.leaseTtl)).1 := renewLease_spec.1
        rwa [hrenew] at hspec
      · exact hsame (by simp [System.afterHost, Function.update_of_ne (Ne.symm hacc)])
    | cancelJob id src now db' _ hdb =>
      obtain ⟨_, _, _, rfl⟩ := Database.transition_eq_some hdb
      exact Or.inl (hsame rfl)
    | _ => exact Or.inl (hsame rfl)
  | runner w acc' x =>
    obtain ⟨r, e, _, he, rfl⟩ := System.step_runner_eq_some h
    exact Or.inl (hsame (congrFun (System.runner_step_leases he).1 acc))
  | crash w =>
    obtain rfl := Option.some.inj h
    exact Or.inl (hsame rfl)
  | ingestRead w acc' raw pyHash =>
    obtain ⟨x, _, rfl⟩ := Option.map_eq_some_iff.mp h
    exact Or.inl (hsame rfl)
  | ingestCommit k =>
    obtain ⟨c, _, rfl⟩ := Option.map_eq_some_iff.mp h
    rcases System.commitIngest_cases (s := { s with ingests := s.ingests.eraseIdx k }) c with
      hcommit | ⟨db, hdb, hcommit⟩
    · rw [hcommit]
      exact Or.inl rfl
    · obtain ⟨_, sources, rfl, _⟩ := Database.ingestCommit_eq_some hdb
      rw [hcommit]
      exact Or.inl rfl
  | publish acc' rows =>
    obtain rfl := Option.some.inj h
    exact Or.inl (hsame rfl)
  | enqueue reply now =>
    simp only [System.step] at h
    split at h <;> cases h
    exact Or.inl (hsame rfl)
  | operatorRead call i =>
    obtain ⟨job, _, h⟩ := Option.bind_eq_some_iff.mp h
    split at h <;> cases h
    exact Or.inl (hsame rfl)
  | operatorWrite k =>
    obtain ⟨q, _, rfl⟩ := Option.map_eq_some_iff.mp h
    exact Or.inl (hsame rfl)

theorem serves_of_step (h : s.step a = some s') {w : WorkerId} {acc : AccountId} {g : ℤ}
    (hserves : (s'.workers w).Serves acc g) : (s.workers w).Serves acc g ∨
      ∃ x read, a = .host w .assignWrite ∧
        (s.workers w).assigning = some ⟨x, .acquiring read⟩ ∧ x.accountId = acc ∧
        (acquireWrite (s.db.accountLeases acc) w (s.workers w).config.leaseTtl read).2 =
          some g := by
  rcases System.step_workers h w with hsame | ⟨acc', x, r, e, _, _, _, hw⟩ | ⟨x, e, rfl, he, hw⟩ |
    ⟨_, hw⟩
  · exact Or.inl (hsame ▸ hserves)
  · rw [hw] at hserves
    exact Or.inl (serves_workerAfter.mp hserves)
  · rw [hw] at hserves
    rcases Worker.serves_step he hserves with hold | ⟨y, read, rfl, hassigning, hacc, hg⟩
    · exact Or.inl hold
    · exact Or.inr ⟨y, read, rfl, hassigning, hacc, hg⟩
  · rw [hw] at hserves
    rcases hserves with ⟨_, hh, _⟩ | ⟨_, hx, _⟩
    · cases hh
    · cases hx

theorem holds_step (h : s.step a = some s') (hguard : FormerOwnerGone s a s') (hs : OneServer s)
    {w : WorkerId} {acc : AccountId} {g : ℤ} (hserves : (s'.workers w).Serves acc g) :
    Holds (s'.db.accountLeases acc) w g := by
  rcases lease_row_step h acc with hsame | ⟨w₀, x₀, read, rfl, hassigning, rfl, hrow⟩
  · rcases serves_of_step h hserves with hold | ⟨x, read, rfl, hassigning, rfl, hg⟩
    · exact hsame.holds (hs.holds w acc g hold)
    · -- the winner of the lease holds what its write has left
      obtain ⟨e, he, rfl⟩ := System.step_host_eq_some h
      have hread : (s.lease x.accountId).calls w = some read := by
        simp [System.lease, Worker.acquiring, hassigning]
      rcases acquireWrite_cases (s.workers w).config.leaseTtl
        ((hs.leases x.accountId).followed w read · hread) with ⟨g', hg', hholds, _⟩ | ⟨hnone, _⟩
      · obtain rfl : g' = g := Option.some.inj (hg'.symm.trans hg)
        cases Worker.stepped_of_step he with
        | assignWrite y read' row generation hassigning' hwrite =>
          obtain ⟨rfl, hstage⟩ := Assigning.mk.inj
            (Option.some.inj (hassigning.symm.trans hassigning'))
          obtain rfl := AssignStage.acquiring.inj hstage
          simpa [System.afterHost, System.lease, hwrite] using hholds
      · exact absurd (hnone.symm.trans hg) (by simp)
  · have hread : (s.lease x₀.accountId).calls w₀ = some read := by
      simp [System.lease, Worker.acquiring, hassigning]
    have hcases := acquireWrite_cases (s.workers w₀).config.leaseTtl
      ((hs.leases x₀.accountId).followed w₀ read · hread)
    rw [hrow]
    rcases serves_of_step h hserves with hold | ⟨x, read', hw, hassigning', hacc, hg⟩
    · have hheld := hs.holds w _ g hold
      rcases hcases with ⟨_, _, _, hsame | htaken⟩ | ⟨_, hsame⟩
      · exact hsame.holds hheld
      · obtain ⟨r, hr, rfl, rfl⟩ := hheld
        rcases htaken with ⟨hnone, _⟩ | ⟨r₀, hr₀, hne, _, hw', hg', _⟩
        · rw [show (s.lease x₀.accountId).row = some r from hr] at hnone
          cases hnone
        · obtain rfl : r = r₀ := Option.some.inj (hr.symm.trans hr₀)
          refine absurd hold (hguard w₀ x₀ read r rfl hassigning hr hne ?_)
          have hchanged : (acquireWrite (some r) w₀ (s.workers w₀).config.leaseTtl read).1 ≠
              some r := by
            rw [show some r = (s.lease x₀.accountId).row from hr.symm, hw']
            intro he
            obtain rfl := Option.some.inj (he.trans hr)
            exact hne hg'
          exact acquireWrite_expired hne hchanged
      · rw [show (acquireWrite (s.db.accountLeases x₀.accountId) w₀
          (s.workers w₀).config.leaseTtl read).1 = s.db.accountLeases x₀.accountId from hsame]
        exact hheld
    · obtain ⟨rfl, _⟩ := Action.host.inj hw
      obtain ⟨rfl, hstage⟩ := Assigning.mk.inj
        (Option.some.inj (hassigning.symm.trans hassigning'))
      obtain rfl := AssignStage.acquiring.inj hstage
      rcases hcases with ⟨g', hg', hholds, _⟩ | ⟨hnone, _⟩
      · obtain rfl : g' = g := Option.some.inj (hg'.symm.trans hg)
        exact hholds
      · exact absurd (hnone.symm.trans hg) (by simp)

/-- A runner's call carries the generation of the lease row. -/
theorem fenced_of_started (hs : OneServer s) {call : Call} (hstarted : System.StartedBy s a call)
    {w : WorkerId} {g : ℤ} (hmem : .lease call.accountId (.acquired w (some g)) ∈ s.history) :
    g ≤ call.generation := by
  obtain ⟨now, r, h, targetIds, _, hr, _, _, hcall⟩ := hstarted
  have hgen := (hs.hosting call.workerId).runners call.accountId
  rw [hr, Option.map_some, eq_comm, Option.map_eq_some_iff] at hgen
  obtain ⟨hosted, hhosted, hgen⟩ := hgen
  obtain ⟨row, hrow, _, hg⟩ :=
    hs.holds call.workerId call.accountId r.generation (Or.inl ⟨hosted, hhosted, hgen⟩)
  have hacquired : LeaseEvent.acquired w (some g) ∈ (s.lease call.accountId).history :=
    List.mem_filterMap.mpr ⟨_, hmem, by simp [Event.leaseOf]⟩
  obtain ⟨row', hrow', hle⟩ := (hs.leases call.accountId).notBehind w g hacquired
  obtain rfl : row = row' := Option.some.inj (hrow.symm.trans hrow')
  have hcallg : call.generation = r.generation := by rw [hcall]; rfl
  omega

theorem oneServer_step (s : System) (a : Action) (s' : System) (h : s.step a = some s')
    (hguard : FormerOwnerGone s a s') (hs : OneServer s) : OneServer s' := by
  refine ⟨System.allHosting_step s a s' h hs.hosting,
    System.leaseInvariant_lease s a s' h hs.leases,
    fun w acc g hserves => holds_step h hguard hs hserves, ?_⟩
  rcases System.step_event h with hsame | ⟨ev, hsnoc, hstarted, _⟩
  · rw [hsame]
    exact hs.fenced
  · rw [hsnoc]
    refine hs.fenced.snoc ?_
    rintro call rfl w g hmem
    exact fenced_of_started hs (hstarted call rfl) hmem

end System

/-- In every run in which no lease is taken over from a process that still serves the account,
no call is started at a generation below one that has been acquired before. -/
theorem calls_are_fenced (config : WorkerId → WorkerConfig) (as : List Action)
    (hguard : Machine.Always System.step FormerOwnerGone (.start config) as) (s : System)
    (hrun : System.run (.start config) as = some s) : Trace.Throughout Fenced s.history :=
  (hguard.invariant oneServer_step hrun (oneServer_start config)).fenced

/-- `Worker.Serves` as a test. -/
def Worker.serves (wk : Worker) (acc : AccountId) (g : ℤ) : Bool :=
  (wk.hosted acc).any (fun h => h.generation = g) ||
    wk.assigning.any fun x => x.assignment.accountId = acc ∧
      (x.stage = .connecting g ∨ x.stage = .connected g)

theorem Worker.serves_iff {wk : Worker} {acc : AccountId} {g : ℤ} :
    wk.serves acc g = true ↔ wk.Serves acc g := by
  simp [Worker.serves, Worker.Serves, Option.any_eq_true]

/-- `FormerOwnerGone` as a test. -/
def formerOwnerGone (s : System) (a : Action) (_ : System) : Bool :=
  match a with
  | .host w .assignWrite =>
    match (s.workers w).assigning with
    | some ⟨x, .acquiring read⟩ => (s.db.accountLeases x.accountId).all fun r =>
        r.workerId = w || read.now < r.leaseUntil ||
          !(s.workers r.workerId).serves x.accountId r.generation
    | _ => true
  | _ => true

theorem formerOwnerGone_spec (s : System) (a : Action) (s' : System)
    (h : formerOwnerGone s a s' = true) : FormerOwnerGone s a s' := by
  rintro w x read r rfl hassigning hrow hne hexpired hserves
  have hserves := Worker.serves_iff.mpr hserves
  have hearly : read.now < r.leaseUntil := by
    simpa [formerOwnerGone, hassigning, hrow, hne, hserves] using h
  exact absurd hearly (not_lt.mpr hexpired)

/-- The account is released, and another worker takes it on once the lease has expired. -/
def handedOver : List Action :=
  queuedReply ++ [.host "w1" (.release "A")] ++
    assignSteps "w2" { accountId := "A", tenantId := "t", projectId := "p" } 50000000 ++
    claimSteps "w2" "A" [0] 50000001 ++ callSteps "w2" "A" 50000002

theorem calls_are_fenced_handed_over :
    (System.run (.start fun _ => {}) handedOver).map System.history =
        some [.lease "A" (.acquired "w1" (some 1)), .lease "A" (.acquired "w2" (some 2)),
          .started (replyCall "w2" 2 1)] ∧
      ∀ s, System.run (.start fun _ => {}) handedOver = some s →
        Trace.Throughout Fenced s.history :=
  ⟨by decide +kernel, calls_are_fenced _ _
    (Machine.always_of_checkRun formerOwnerGone_spec (by decide +kernel))⟩

def calledAfterTakeover : List Action :=
  queuedReply ++ claimSteps "w1" "A" [0] 1 ++
    [.runner "w1" "A" (.gate 2), .runner "w1" "A" (.settle 2 2 0), .runner "w1" "A" (.lookup [])] ++
    assignSteps "w2" { accountId := "A", tenantId := "t", projectId := "p" } 50000000 ++
    [.runner "w1" "A" (.execute 50000001)]

theorem stale_runner_calls :
    ¬ ∀ config as s, System.run (.start config) as = some s →
      Trace.Throughout Fenced s.history := by
  intro h
  have hobserved : (System.run (.start fun _ => {}) calledAfterTakeover).map System.history =
      some ([.lease "A" (.acquired "w1" (some 1)), .lease "A" (.acquired "w2" (some 2))] ++
        .started (replyCall "w1" 1 1) :: []) := by
    decide +kernel
  obtain ⟨s, hrun, hhistory⟩ := Option.map_eq_some_iff.mp hobserved
  have hfenced := h _ _ s hrun _ _ _ hhistory (replyCall "w1" 1 1) rfl "w2" 2 (by simp [replyCall])
  simp [replyCall] at hfenced

end TgPlatform
