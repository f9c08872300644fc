import TgPlatform.Pipeline.Holdings

/-! # Leases

Where no job is taken out of `leased` except to be sent, the holder of a claimed
job is the only one, and the job is as the holder has read it.
-/

namespace TgPlatform

def Stage.waits : Stage → Bool
  | .claimed | .gated _ _ => true
  | _ => false

namespace JobView

structure Leases (v : JobView) : Prop where
  leased : ∀ p stage, v.holder p = some stage → stage.waits = true →
    ∃ job, v.row = some job ∧ job.status = .leased
  gated : ∀ p h decision, v.holder p = some (.gated h decision) → v.row = some h.job
  one : ∀ p q stage stage', v.holder p = some stage → v.holder q = some stage' →
    stage.waits = true → stage'.waits = true → p = q

/-- A claimed job is sent; no one puts it back, blocks or cancels it. -/
def Sends (v : JobView) : JobAction → Prop
  | .settle p _ _ => ∀ h decision, v.holder p = some (.gated h decision) → decision = .allow
  | .cancel src _ => src ≠ .leased
  | .operator _ => ∀ job, v.row = some job → job.status ≠ .leased
  | _ => True

variable {v v' : JobView} {l : JobAction} {p : Slot} {stage : Stage} {job : DeliveryJob}

theorem waits_of_settle {fields : StatusFields} {now : Time}
    (h : v.step (.settle p fields now) = some v')
    (hp : v'.holder p = some stage) : stage.waits = false := by
  simp only [step] at h
  split at h
  · obtain rfl := Option.some.inj h
    simp only [setHolder_holder, Function.update_self] at hp
    split at hp <;> cases hp
    rfl
  · cases h

namespace Leases

variable (hv : v.Leases)
include hv

/-- The row of a waiting holder stays as it is until the holder itself moves the job. -/
theorem row_kept (h : v.step l = some v') (hl : v.Sends l) (hp : v.holder p = some stage)
    (hwaits : stage.waits = true) (hstill : v'.holder p = some stage) : v'.row = v.row := by
  obtain ⟨job, hjob, hleased⟩ := hv.leased p stage hp hwaits
  obtain ⟨job', hjob'⟩ := row_some h hjob
  have hsame : job' = job := by
    rcases row_cases h hjob hjob' with hsame | hchange
    · exact hsame
    · cases hchange with
      | claimed q attemptCount now hready =>
        rw [hleased] at hready
        cases hready
      | settled q held decision fields now hq _ =>
        obtain rfl : p = q := hv.one p q stage _ hp hq hwaits rfl
        rw [waits_of_settle h hstill] at hwaits
        cases hwaits
      | recorded q held call result policy now clock draw _ hsending =>
        rw [hleased] at hsending
        cases hsending
      | requeued acc now hstale =>
        simp [DeliveryJob.stale, hleased] at hstale
      | cancelled now _ => exact absurd hleased hl
      | operated call => exact absurd hleased (hl job hjob)
  rw [hjob', hjob, hsame]

theorem none_waits (hjob : v.row = some job) (hready : job.status = .ready)
    (hp : v.holder p = some stage) : stage.waits = false := by
  by_contra hwaits
  obtain ⟨job', hjob', hleased⟩ := hv.leased p stage hp (by simpa using hwaits)
  obtain rfl : job = job' := Option.some.inj (hjob.symm.trans hjob')
  rw [hready] at hleased
  cases hleased

theorem of_held (h : v.step l = some v') (hl : v.Sends l)
    (hheld : ∀ p stage, v'.holder p = some stage → stage.waits = true →
      v.holder p = some stage) : v'.Leases := by
  have hrow : ∀ p stage, v'.holder p = some stage → stage.waits = true → v'.row = v.row :=
    fun p stage hp hwaits => hv.row_kept h hl (hheld p stage hp hwaits) hwaits hp
  constructor
  · intro p stage hp hwaits
    rw [hrow p stage hp hwaits]
    exact hv.leased p stage (hheld p stage hp hwaits) hwaits
  · intro p held decision hp
    rw [hrow p _ hp rfl]
    exact hv.gated p held decision (hheld p _ hp rfl)
  · intro p q stage stage' hp hq hwaits hwaits'
    exact hv.one p q stage stage' (hheld p stage hp hwaits) (hheld q stage' hq hwaits') hwaits hwaits'

theorem step (h : v.step l = some v') (hl : v.Sends l) : v'.Leases := by
  have hheld : (∀ p stage, v.HolderChange l p stage → stage.waits = false) →
      ∀ p stage, v'.holder p = some stage → stage.waits = true → v.holder p = some stage := by
    intro hchange p stage hp hwaits
    rcases holder_cases h hp with hold | hnew
    · exact hold
    · rw [hchange p stage hnew] at hwaits
      cases hwaits
  cases l with
  | claim p attemptCount now =>
    obtain ⟨job, hjob, hstep⟩ := Option.bind_eq_some_iff.mp h
    split at hstep
    · rename_i hready
      obtain rfl := Option.some.inj hstep
      have honly : ∀ q stage, (v.setHolder p (some .claimed)).holder q = some stage →
          stage.waits = true → q = p ∧ stage = .claimed := by
        intro q stage hq hwaits
        rcases holder_update rfl hq with hold | ⟨rfl, hnext⟩
        · rw [hv.none_waits hjob hready.1 hold] at hwaits
          cases hwaits
        · exact ⟨rfl, (Option.some.inj hnext).symm⟩
      constructor
      · intro q stage _ _
        exact ⟨_, rfl, rfl⟩
      · intro q held decision hq
        obtain ⟨_, hstage⟩ := honly q _ hq rfl
        cases hstage
      · intro q q' stage stage' hq hq' hwaits hwaits'
        rw [(honly q stage hq hwaits).1, (honly q' stage' hq' hwaits').1]
    · cases hstep
  | gate p held decision =>
    simp only [JobView.step] at h
    split at h
    · rename_i hclaimed
      obtain rfl := Option.some.inj h
      have hbefore : ∀ q stage, (v.setHolder p (some (.gated held decision))).holder q = some stage →
          stage.waits = true → ∃ stage', v.holder q = some stage' ∧ stage'.waits = true := by
        intro q stage hq hwaits
        rcases holder_update rfl hq with hold | ⟨rfl, _⟩
        · exact ⟨stage, hold, hwaits⟩
        · exact ⟨.claimed, hclaimed.1, rfl⟩
      constructor
      · intro q stage hq hwaits
        obtain ⟨stage', hq', hwaits'⟩ := hbefore q stage hq hwaits
        exact hv.leased q stage' hq' hwaits'
      · intro q held' decision' hq
        rcases holder_update rfl hq with hold | ⟨rfl, hnext⟩
        · exact hv.gated q held' decision' hold
        · obtain ⟨rfl, -⟩ := Stage.gated.inj (Option.some.inj hnext)
          exact hclaimed.2
      · intro q q' stage stage' hq hq' hwaits hwaits'
        obtain ⟨st, hst, hstw⟩ := hbefore q stage hq hwaits
        obtain ⟨st', hst', hstw'⟩ := hbefore q' stage' hq' hwaits'
        exact hv.one q q' st st' hst hst' hstw hstw'
    · cases h
  | _ =>
    apply hv.of_held h hl (hheld ?_)
    intro p stage hchange
    cases hchange <;> rfl

end Leases

end JobView

end TgPlatform
