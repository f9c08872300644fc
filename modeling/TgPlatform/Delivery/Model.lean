import TgPlatform.Planner.Model

/-! # Job statuses, errors and retries

The declared edges of the job state machine, the error taxonomy with the
action it prescribes, and the exponential backoff of retries.
-/

namespace TgPlatform

inductive JobStatus
  | pending | waitingApproval | ready | leased | sending | succeeded | retryWait | blocked
  | failedPermanent | deadLetter | uncertain | reconciledSucceeded | confirmedNotSent
  | manualReview | cancelled | expired | superseded
  deriving DecidableEq, Repr

namespace JobStatus

/-- `TERMINAL`. -/
def terminal : JobStatus → Bool
  | succeeded | reconciledSucceeded | failedPermanent | deadLetter | manualReview | cancelled
  | expired | superseded => true
  | _ => false

/-- `_EDGES`: anything not listed is a bug, not a transition. -/
def edges : JobStatus → List JobStatus
  | pending => [waitingApproval, ready, cancelled, expired, superseded]
  | waitingApproval => [ready, cancelled, expired, superseded]
  | ready => [leased, blocked, cancelled, expired, superseded]
  | leased => [sending, ready, blocked, cancelled, expired, superseded]
  | sending => [succeeded, retryWait, blocked, failedPermanent, deadLetter, uncertain, superseded]
  | retryWait => [ready, blocked, deadLetter, cancelled, expired, superseded]
  | blocked => [ready, cancelled, expired, superseded]
  | uncertain => [reconciledSucceeded, confirmedNotSent, manualReview, cancelled]
  | confirmedNotSent => [ready, cancelled, expired, superseded]
  | _ => []

def canTransition (src dst : JobStatus) : Bool := dst ∈ src.edges

theorem not_canTransition_of_terminal {src : JobStatus} (h : src.terminal = true)
    (dst : JobStatus) : src.canTransition dst = false := by
  cases src <;> simp_all [terminal, canTransition, edges]

end JobStatus

inductive ErrorClass
  | floodWait | transient | resultUnknown | authDead | permissionBlocked | contentInvalid
  | storageDown | cacheDown
  deriving DecidableEq, Repr

structure ErrorAction where
  /-- `none`: no per-job transition, the worker halts instead. -/
  nextStatus : Option JobStatus
  workerHalts : Bool
  retryable : Bool
  floodWaitUntil : Option Time := none
  deriving DecidableEq, Repr

def classifyError (err : ErrorClass) (floodWaitUntil : Option Time) : ErrorAction :=
  match err with
  | .floodWait => ⟨some .retryWait, false, true, floodWaitUntil⟩
  | .transient => ⟨some .retryWait, false, true, none⟩
  | .resultUnknown => ⟨some .uncertain, false, false, none⟩
  | .authDead => ⟨none, true, false, none⟩
  | .permissionBlocked => ⟨some .blocked, false, false, none⟩
  | .contentInvalid => ⟨some .failedPermanent, false, false, none⟩
  | .storageDown => ⟨none, true, false, none⟩
  | .cacheDown => ⟨some .blocked, true, false, none⟩

/-- Delays in microseconds, the jitter in parts per million. -/
structure RetryPolicy where
  maxAttempts : ℤ := 5
  baseDelay : ℤ := 5000000
  maxDelay : ℤ := 1800000000
  jitter : ℤ := 200000
  deriving DecidableEq, Repr

/-- `draw` is the value of `rand.uniform(-jitter, jitter)`; `none` once attempts are used up. -/
def nextAttemptAt (policy : RetryPolicy) (attemptNo : ℤ) (now : Time) (draw : ℤ) : Option Time :=
  if policy.maxAttempts ≤ attemptNo then none
  else
    let delay := min (policy.baseDelay * 2 ^ (max (attemptNo - 1) 0).toNat) policy.maxDelay
    some (now + max (delay * (1000000 + draw) / 1000000) 0)

end TgPlatform
