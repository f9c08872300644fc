import TgPlatform.Delivery.Policy

/-! # The delivery executor

One plan gives one result. The executor checks the policy again, then either
ends without a transport call or hands one call to the transport, whose
outcome it classifies. The transport itself is the environment.
-/

namespace TgPlatform

inductive TransportErrorKind | floodWait | transient | resultUnknown | permission | content | auth
  deriving DecidableEq, Repr

/-- `_ERROR_CLASS_MAP`. -/
def TransportErrorKind.errorClass : TransportErrorKind → ErrorClass
  | .floodWait => .floodWait
  | .transient => .transient
  | .resultUnknown => .resultUnknown
  | .permission => .permissionBlocked
  | .content => .contentInvalid
  | .auth => .authDead

inductive ResultStatus | succeeded | retryable | blocked | failed | uncertain | policyDenied
  deriving DecidableEq, Repr

structure DeliveryResult where
  status : ResultStatus
  targetMessageIds : List ℤ := []
  errorClass : Option ErrorClass := none
  errorDetail : Option String := none
  floodWaitUntil : Option Time := none
  decision : Option Decision := none
  deriving DecidableEq, Repr

/-- A call handed to the transport. -/
inductive TransportRequest
  | send
  | edit (targetMessageId : ℤ)
  | delete (targetMessageIds : List ℤ)
  deriving DecidableEq, Repr

/-- How a transport call ends: ids of created messages, a classified error together with the
account whose client raised it, or any other exception. -/
inductive TransportOutcome
  | returned (ids : List ℤ)
  | error (kind : TransportErrorKind) (detail : String) (floodWaitUntil : Option Time)
      (raisedBy : Option AccountId)
  | exception (detail : String)
  deriving DecidableEq, Repr

/-- What `execute` does before the transport answers. -/
inductive Dispatch
  | finished (result : DeliveryResult)
  | call (request : TransportRequest)
  deriving DecidableEq, Repr

/-- `execute` up to the transport call. -/
def dispatch (kind : PlanKind) (decision : Decision) (targetMessageIds : List ℤ) : Dispatch :=
  if decision ≠ .allow then .finished { status := .policyDenied, decision := some decision }
  else
    match kind with
    | .send => .call .send
    | .edit =>
      match targetMessageIds with
      | [] => .finished {
          status := .failed, errorClass := some .contentInvalid,
          errorDetail := some "no mapped target message", decision := some .allow }
      | id :: _ => .call (.edit id)
    | .delete | .tombstone =>
      if targetMessageIds = [] then .finished { status := .succeeded, decision := some .allow }
      else .call (.delete targetMessageIds)

def ErrorClass.resultStatus : ErrorClass → ResultStatus
  | .floodWait | .transient => .retryable
  | .permissionBlocked => .blocked
  | .resultUnknown => .uncertain
  | _ => .failed

/-- `execute` after the transport call; an exception outside the taxonomy is caught by the
runner and counts as an unknown result. -/
def TransportRequest.result (request : TransportRequest) (targetMessageIds : List ℤ)
    (outcome : TransportOutcome) : DeliveryResult :=
  match outcome with
  | .returned ids =>
    { status := .succeeded, decision := some .allow,
      targetMessageIds := if request = .send then ids else targetMessageIds }
  | .error kind detail floodWaitUntil _ =>
    { status := kind.errorClass.resultStatus, errorClass := some kind.errorClass,
      errorDetail := some detail, floodWaitUntil := floodWaitUntil, decision := some .allow }
  | .exception detail =>
    { status := .uncertain, errorClass := some .resultUnknown,
      errorDetail := some (String.ofList (("executor error: " ++ detail).toList.take 300)) }

end TgPlatform
