import TgPlatform.Ai.Effects

/-! # Runs that have ended

A transaction writes a run by its id, whatever has become of it since it was
read. If it is still active by then, or gets the status that it already has, no
run that has ended changes, and none has two candidates.
-/

namespace TgPlatform

open Overlap Slots

abbrev RunSession := Session ControlPlane RunLock RunPoint

abbrev RunsState := State ControlPlane RunLock Unit RunPoint

/-- A run that has ended keeps its status and gets no candidate. Approvals and jobs are for new
candidates only, and no run has two candidates. -/
structure RunsEnd (s s' : ControlPlane) : Prop where
  status : ∀ pk r, s.runs.row? pk = some r → r.status.active = false →
    ∃ r', s'.runs.row? pk = some r' ∧ r'.status = r.status
  candidates : ∀ pk r i c, s.runs.row? pk = some r → r.status.active = false →
    s'.candidates.row? i = some c → c.agentRunId = some r.uuid → s.candidates.row? i = some c
  approvals : ∀ i a, s'.approvals.row? i = some a → s.approvals.row? i = some a ∨
    s.candidates.row? a.candidateId = none
  jobs : ∀ i job, s'.jobs.row? i = some job → s.jobs.row? i = some job ∨
    ∃ k c, s.candidates.row? k = none ∧ s'.candidates.row? k = some c ∧
      job.routeId = s!"ai_candidate:{c.uuid}"
  one : ∀ i j c d uuid, s'.candidates.row? i = some c → s'.candidates.row? j = some d →
    c.agentRunId = some uuid → d.agentRunId = some uuid → i = j

/-- What always holds of the runs and their candidates; the ids given so far are below `n`. -/
structure RunsKept (s : ControlPlane) (n : ℕ) : Prop where
  lt : ∀ i r, s.runs.row? i = some r → i < n
  uuids : ∀ i j r r', s.runs.row? i = some r → s.runs.row? j = some r' → r.uuid = r'.uuid → i = j
  unsaid : ∀ i r k c, s.runs.row? i = some r → r.status.active = true →
    s.candidates.row? k = some c → c.agentRunId ≠ some r.uuid
  known : ∀ k c uuid, s.candidates.row? k = some c → c.agentRunId = some uuid →
    ∃ i r, s.runs.row? i = some r ∧ r.uuid = uuid
  one : ∀ i j c d uuid, s.candidates.row? i = some c → s.candidates.row? j = some d →
    c.agentRunId = some uuid → d.agentRunId = some uuid → i = j

def ControlPlane.Knows (s : ControlPlane) (x : RunId × String) : Prop :=
  ∃ r, s.runs.row? x.1 = some r ∧ r.uuid = x.2

/-- Each run that has been written is still active or has the status that it was given, and the one
that a candidate was made for is active. -/
def Effect.FindsActive (e : Effect) (s : ControlPlane) : Prop :=
  (∀ x ∈ e.moved, ∀ r, s.runs.row? x.1 = some r → r.status.active = true ∨ r.status = x.2) ∧
    ∀ x, e.speaks = some x → ∀ r, s.runs.row? x.1 = some r → r.status.active = true

def FindsActive (s : ControlPlane) (t : RunSession) : Prop :=
  match t.at_ with
  | .ending effect => effect.FindsActive s
  | _ => True

section Commit

variable {s s' : ControlPlane} {n : ℕ} {e : Effect} {pk : RunId} {uuid : String}

theorem SaysOne.approvals (h : SaysOne s s' uuid) {i : ℕ} {a : Approval}
    (ha : s'.approvals.row? i = some a) :
    s.approvals.row? i = some a ∨ s.candidates.row? a.candidateId = none := by
  obtain ⟨a', hcandidate, hadded⟩ := h.approval
  rw [hadded, row?_add] at ha
  split at ha
  · cases ha
    rw [hcandidate]
    exact .inr row?_size
  · exact .inl ha

theorem SaysOne.jobs (h : SaysOne s s' uuid) {i : ℕ} {job : DeliveryJob}
    (hjob : s'.jobs.row? i = some job) : s.jobs.row? i = some job ∨
      ∃ k c, s.candidates.row? k = none ∧ s'.candidates.row? k = some c ∧
        job.routeId = s!"ai_candidate:{c.uuid}" := by
  obtain ⟨c, -, hrows, hsame | ⟨job', hroute, hadded⟩⟩ := h.candidate
  · rw [hsame] at hjob
    exact .inl hjob
  · rw [hadded, row?_add] at hjob
    split at hjob
    · cases hjob
      exact .inr ⟨_, c, row?_size, (hrows _).trans (if_pos rfl), hroute⟩
    · exact .inl hjob

theorem SaysOne.row (h : SaysOne s s' uuid) {i : CandidateId} {c : AiCandidate}
    (hc : s'.candidates.row? i = some c) : s.candidates.row? i = some c ∨
      i = s.candidates.size ∧ c.agentRunId = some uuid := by
  obtain ⟨d, hd, hrows, -⟩ := h.candidate
  rw [hrows] at hc
  split at hc
  · cases hc
    exact .inr ⟨‹_›, hd⟩
  · exact .inl hc

theorem SaysOne.one (h : SaysOne s s' uuid) (hs : RunsKept s n)
    (hnew : ∀ k c, s.candidates.row? k = some c → c.agentRunId ≠ some uuid) (i j : CandidateId)
    (c d : AiCandidate) (u : String) (hc : s'.candidates.row? i = some c)
    (hd : s'.candidates.row? j = some d) (hcu : c.agentRunId = some u) (hdu : d.agentRunId = some u) :
    i = j := by
  rcases h.row hc with hold | ⟨hi, hrun⟩ <;> rcases h.row hd with hold' | ⟨hj, hrun'⟩
  · exact hs.one i j c d u hold hold' hcu hdu
  · exact (hnew i c hold (hcu.trans (hdu.symm.trans hrun'))).elim
  · exact (hnew j d hold' (hdu.trans (hcu.symm.trans hrun))).elim
  · exact hi.trans hj.symm

theorem RunsKept.runsEnd (hs : RunsKept s n) : RunsEnd s s :=
  ⟨fun _ r hr _ => ⟨r, hr, rfl⟩, fun _ _ _ _ _ _ hc _ => hc, fun _ _ => .inl, fun _ _ => .inl, hs.one⟩

/-- Runs stay, with their uuids, and none but `created` is new. -/
structure Persist (created : Option (RunId × String)) (s s' : ControlPlane) : Prop where
  stays : ∀ i r, s.runs.row? i = some r → ∃ r', s'.runs.row? i = some r' ∧ r'.uuid = r.uuid
  back : ∀ i r', s'.runs.row? i = some r' → (∃ r, s.runs.row? i = some r ∧ r'.uuid = r.uuid) ∨
    created = some (i, r'.uuid)

theorem Leaves.persist (h : Leaves e s s') : Persist none s s' := by
  constructor
  · intro i r hr
    obtain ⟨r', hr', huuid, -⟩ := h.run i r hr
    exact ⟨r', hr', huuid⟩
  · intro i r' hr'
    obtain ⟨r, hr⟩ := h.back i r' hr'
    obtain ⟨r'', hr'', huuid, -⟩ := h.run i r hr
    obtain rfl := Option.some.inj (hr'.symm.trans hr'')
    exact .inl ⟨r, hr, huuid⟩

theorem Adds.persist (h : Adds pk uuid s s') (hfresh : s.runs.row? pk = none) :
    Persist (some (pk, uuid)) s s' := by
  obtain ⟨r₀, hr₀, huuid, -⟩ := h.own
  constructor
  · intro i r hr
    refine ⟨r, (h.others i ?_).trans hr, rfl⟩
    rintro rfl
    rw [hfresh] at hr
    cases hr
  · intro i r' hr'
    by_cases hi : i = pk
    · subst i
      obtain rfl := Option.some.inj (hr'.symm.trans hr₀)
      exact .inr (by rw [huuid])
    · rw [h.others i hi] at hr'
      exact .inl ⟨r', hr', rfl⟩

theorem Persist.knows {created : Option (RunId × String)} {x : RunId × String}
    (h : Persist created s s') (hx : s.Knows x) : s'.Knows x := by
  obtain ⟨r, hr, huuid⟩ := hx
  obtain ⟨r', hr', hsame⟩ := h.stays _ r hr
  exact ⟨r', hr', hsame.trans huuid⟩

theorem Leaves.active (h : Leaves e s s') (hg : e.FindsActive s) {i : RunId} {r r' : AiRun}
    (hr : s.runs.row? i = some r) (hr' : s'.runs.row? i = some r') (hactive : r'.status.active = true) :
    r.status.active = true := by
  obtain ⟨r'', hr'', -, hstatus⟩ := h.run i r hr
  obtain rfl := Option.some.inj (hr'.symm.trans hr'')
  rcases hstatus with hsame | hmoved
  · rwa [← hsame]
  · rcases hg.1 _ hmoved r hr with hold | hsame
    · exact hold
    · rwa [hsame]

theorem Leaves.runsEnd (h : Leaves e s s') (hs : RunsKept s n)
    (hknows : ∀ x, e.speaks = some x → s.Knows x) (hg : e.FindsActive s) : RunsEnd s s' := by
  have hstatus (pk : RunId) (r : AiRun) (hr : s.runs.row? pk = some r)
      (hended : r.status.active = false) : ∃ r', s'.runs.row? pk = some r' ∧ r'.status = r.status := by
    obtain ⟨r', hr', -, hsame | hmoved⟩ := h.run pk r hr
    · exact ⟨r', hr', hsame⟩
    · rcases hg.1 _ hmoved r hr with hactive | hsame
      · rw [hended] at hactive
        cases hactive
      · exact ⟨r', hr', hsame.symm⟩
  rcases h.said with hsilent | ⟨pk, uuid, hspeaks, hone, -⟩
  · refine ⟨hstatus, fun pk r i c hr _ hc _ => ?_, fun i a ha => .inl ?_, fun i job hjob => .inl ?_, ?_⟩
    · rwa [hsilent.candidates] at hc
    · rwa [hsilent.approvals] at ha
    · rwa [hsilent.jobs] at hjob
    · rw [hsilent.candidates]
      exact hs.one
  · obtain ⟨r₀, hr₀, huuid⟩ := hknows _ hspeaks
    have hactive := hg.2 _ hspeaks r₀ hr₀
    refine ⟨hstatus, fun pk' r i c hr hended hc hrun => ?_, fun i a ha => hone.approvals ha,
      fun i job hjob => hone.jobs hjob, hone.one hs fun k c hc => ?_⟩
    · refine (hone.row hc).resolve_right ?_
      rintro ⟨-, hnew⟩
      have hsame : r.uuid = r₀.uuid :=
        (Option.some.inj (hrun.symm.trans hnew)).trans huuid.symm
      obtain rfl := hs.uuids _ _ r r₀ hr hr₀ hsame
      obtain rfl := Option.some.inj (hr.symm.trans hr₀)
      rw [hended] at hactive
      cases hactive
    · obtain rfl : r₀.uuid = uuid := huuid
      exact hs.unsaid _ r₀ k c hr₀ hactive hc

theorem Persist.uuids {created : Option (RunId × String)} (h : Persist created s s') (hs : RunsKept s n)
    (hnew : ∀ x, created = some x → ∀ i r, s.runs.row? i = some r → r.uuid ≠ x.2) (i j : RunId)
    (r r' : AiRun) (hr : s'.runs.row? i = some r) (hr' : s'.runs.row? j = some r')
    (hsame : r.uuid = r'.uuid) : i = j := by
  rcases h.back i r hr with ⟨q, hq, huuid⟩ | hcreated <;>
    rcases h.back j r' hr' with ⟨q', hq', huuid'⟩ | hcreated'
  · exact hs.uuids i j q q' hq hq' (huuid.symm.trans (hsame.trans huuid'))
  · exact (hnew _ hcreated' i q hq (huuid.symm.trans hsame)).elim
  · exact (hnew _ hcreated j q' hq' (huuid'.symm.trans hsame.symm)).elim
  · exact congrArg Prod.fst (Option.some.inj (hcreated.symm.trans hcreated'))

theorem Leaves.runsKept (h : Leaves e s s') (hs : RunsKept s n)
    (hknows : ∀ x, e.speaks = some x → s.Knows x) (hg : e.FindsActive s) : RunsKept s' n where
  lt i r' hr' := by
    obtain ⟨r, hr⟩ := h.back i r' hr'
    exact hs.lt i r hr
  uuids := h.persist.uuids hs nofun
  unsaid i r' k c hr' hactive hc hrun := by
    obtain ⟨r, hr, huuid⟩ := (h.persist.back i r' hr').resolve_right nofun
    have hwas := h.active hg hr hr' hactive
    rcases h.said with hsilent | ⟨pk, uuid, hspeaks, hone, hended⟩
    · rw [hsilent.candidates] at hc
      exact hs.unsaid i r k c hr hwas hc (huuid ▸ hrun)
    · rcases hone.row hc with hold | ⟨-, hnew⟩
      · exact hs.unsaid i r k c hr hwas hold (huuid ▸ hrun)
      · obtain ⟨r₀, hr₀, huuid₀⟩ := hknows _ hspeaks
        have hsame : r.uuid = r₀.uuid :=
          huuid.symm.trans ((Option.some.inj (hrun.symm.trans hnew)).trans huuid₀.symm)
        obtain rfl := hs.uuids _ _ r r₀ hr hr₀ hsame
        rw [hended r' hr'] at hactive
        cases hactive
  known k c uuid hc hrun := by
    have hold (u : String) (hu : ∃ i r, s.runs.row? i = some r ∧ r.uuid = u) :
        ∃ i r, s'.runs.row? i = some r ∧ r.uuid = u := by
      obtain ⟨i, r, hr⟩ := hu
      obtain ⟨r', hr'⟩ := h.persist.knows (x := (i, u)) ⟨r, hr⟩
      exact ⟨i, r', hr'⟩
    rcases h.said with hsilent | ⟨pk, u, hspeaks, hone, -⟩
    · rw [hsilent.candidates] at hc
      exact hold uuid (hs.known k c uuid hc hrun)
    · rcases hone.row hc with hc | ⟨-, hnew⟩
      · exact hold uuid (hs.known k c uuid hc hrun)
      · obtain rfl := Option.some.inj (hrun.symm.trans hnew)
        obtain ⟨r, hr⟩ := hknows _ hspeaks
        exact hold uuid ⟨pk, r, hr⟩
  one := (h.runsEnd hs hknows hg).one

structure Fresh (s : ControlPlane) (pk : RunId) (uuid : String) : Prop where
  row : s.runs.row? pk = none
  uuid : ∀ i r, s.runs.row? i = some r → r.uuid ≠ uuid

theorem Fresh.unsaid (h : Fresh s pk uuid) (hs : RunsKept s n) (k : CandidateId) (c : AiCandidate)
    (hc : s.candidates.row? k = some c) : c.agentRunId ≠ some uuid := by
  intro hrun
  obtain ⟨i, r, hr, huuid⟩ := hs.known k c uuid hc hrun
  exact h.uuid i r hr huuid

theorem Adds.runsEnd (h : Adds pk uuid s s') (hs : RunsKept s n) (hfresh : Fresh s pk uuid) :
    RunsEnd s s' := by
  have hstatus (i : RunId) (r : AiRun) (hr : s.runs.row? i = some r) (_ : r.status.active = false) :
      ∃ r', s'.runs.row? i = some r' ∧ r'.status = r.status := by
    refine ⟨r, (h.others i ?_).trans hr, rfl⟩
    rintro rfl
    rw [hfresh.row] at hr
    cases hr
  obtain ⟨r₀, -, -, hsaid⟩ := h.own
  rcases hsaid with hsilent | ⟨hone, -⟩
  · refine ⟨hstatus, fun i r k c hr _ hc _ => ?_, fun i a ha => .inl ?_, fun i job hjob => .inl ?_, ?_⟩
    · rwa [hsilent.candidates] at hc
    · rwa [hsilent.approvals] at ha
    · rwa [hsilent.jobs] at hjob
    · rw [hsilent.candidates]
      exact hs.one
  · refine ⟨hstatus, fun i r k c hr _ hc hrun => ?_, fun i a ha => hone.approvals ha,
      fun i job hjob => hone.jobs hjob, hone.one hs (hfresh.unsaid hs)⟩
    refine (hone.row hc).resolve_right ?_
    rintro ⟨-, hnew⟩
    exact hfresh.uuid i r hr (Option.some.inj (hrun.symm.trans hnew))

theorem Adds.runsKept (h : Adds pk uuid s s') (hs : RunsKept s n) (hfresh : Fresh s pk uuid)
    (hlt : pk < n) : RunsKept s' n := by
  have hpersist := h.persist hfresh.row
  obtain ⟨r₀, hr₀, huuid₀, hsaid⟩ := h.own
  have hrow (k : CandidateId) (c : AiCandidate) (hc : s'.candidates.row? k = some c) :
      s.candidates.row? k = some c ∨ c.agentRunId = some uuid ∧ r₀.status.active = false := by
    rcases hsaid with hsilent | ⟨hone, hended⟩
    · rw [hsilent.candidates] at hc
      exact .inl hc
    · exact (hone.row hc).imp_right fun hnew => ⟨hnew.2, hended⟩
  refine ⟨fun i r' hr' => ?_, hpersist.uuids hs ?_, fun i r' k c hr' hactive hc hrun => ?_,
    fun k c u hc hrun => ?_, (h.runsEnd hs hfresh).one⟩
  · rcases hpersist.back i r' hr' with ⟨r, hr, -⟩ | hcreated
    · exact hs.lt i r hr
    · cases hcreated
      exact hlt
  · rintro x ⟨⟩ i r hr
    exact hfresh.uuid i r hr
  · rcases hpersist.back i r' hr' with ⟨r, hr, huuid⟩ | hcreated
    · have hi : i ≠ pk := by
        rintro rfl
        rw [hfresh.row] at hr
        cases hr
      rw [h.others i hi] at hr'
      rcases hrow k c hc with hold | ⟨hnew, -⟩
      · exact hs.unsaid i r' k c hr' hactive hold hrun
      · exact hfresh.uuid i r' hr' (Option.some.inj (hrun.symm.trans hnew))
    · obtain ⟨rfl, huuid⟩ := Prod.mk.inj (Option.some.inj hcreated)
      obtain rfl := Option.some.inj (hr'.symm.trans hr₀)
      rcases hrow k c hc with hold | ⟨-, hended⟩
      · exact hfresh.unsaid hs k c hold (by rw [hrun, huuid])
      · rw [hended] at hactive
        cases hactive
  · rcases hrow k c hc with hold | ⟨hnew, -⟩
    · obtain ⟨i, r, hr⟩ := hs.known k c u hold hrun
      obtain ⟨r', hr'⟩ := hpersist.knows (x := (i, u)) ⟨r, hr⟩
      exact ⟨i, r', hr'⟩
    · obtain rfl := Option.some.inj (hrun.symm.trans hnew)
      exact ⟨pk, r₀, hr₀, huuid₀⟩

end Commit

end TgPlatform
