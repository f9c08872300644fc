import TgPlatform.Pipeline.JobLife
import TgPlatform.Platform.Decisions

/-! # Sending approved replies

The desk and the delivery system on one database: the jobs of approvals are
queued by the desk, claimed by the workers and sent with the text that the
worker pulls from the control plane while its transport call is running.
-/

namespace TgPlatform

/-- The candidate a `payload_ref` names. -/
def candidateRef (payloadRef : String) : Option String :=
  let label := "candidate:".toList
  if label.isPrefixOf payloadRef.toList then
    some (String.ofList (payloadRef.toList.drop label.length))
  else none

theorem candidateRef_candidate (uuid : String) : candidateRef s!"candidate:{uuid}" = some uuid := by
  have hlist : (s!"candidate:{uuid}").toList = "candidate:".toList ++ uuid.toList := by
    simp [toString]
  simp only [candidateRef, hlist, List.drop_left]
  rw [if_pos (List.isPrefixOf_iff_prefix.mpr (List.prefix_append _ _)), String.ofList_toList]

/-- `candidate_text`, with what it reads of the control plane; `none` when it raises. -/
def candidateText (sha256 : String → String) (d : Desk) (uuid : String)
    (expectedHash : Option String) : Option String :=
  (d.candidates.find? fun c => c.uuid = uuid).bind fun (_, c) =>
    if c.status ≠ .approved then none
    else
      match expectedHash with
      | some hash => if hash ≠ "" ∧ sha256 c.content ≠ hash then none else some c.content
      | none => some c.content

structure Sent where
  uuid : String
  text : String
  at_ : Time
  deriving DecidableEq, Repr

/-- How far the send call of a runner has come with its text. -/
inductive SendStage
  | unresolved
  | resolved (uuid text : String)
  | handedOver
  deriving DecidableEq, Repr

structure Platform where
  desk : Desk
  sys : System
  sends : Slot → SendStage
  sent : List Sent

inductive PlatformAction
  | desk (x : DeskAction)
  | system (a : Action)
  | resolveText (p : Slot)
  | sendText (p : Slot) (now : Time)

namespace Platform

def start (config : WorkerId → WorkerConfig) : Platform :=
  ⟨.empty, .start config, fun _ => .unresolved, []⟩

def hasKey (s : Platform) (key : String) : Bool :=
  s.sys.db.deliveryJobs.any fun job => job.idempotencyKey = key

def sending (sys : System) (p : Slot) : Option Holding :=
  ((sys.workers p.1).runners p.2).bind fun r =>
    match r.pc with
    | .calling h _ .send => some h
    | _ => none

/-- The jobs of approvals come from the desk, and `_to_raws` leaves `payload_ref` empty. -/
def admits : Action → Bool
  | .enqueue _ _ => false
  | .ingestRead _ _ raw _ => raw.payloadRef.isNone
  | _ => true

def step (sha256 : String → String) (s : Platform) : PlatformAction → Option Platform
  | .desk x =>
    (s.desk.step s.hasKey x).bind fun (desk, job) =>
      match job with
      | none => some { s with desk }
      | some job =>
        if s.hasKey job.idempotencyKey then none
        else some { s with
          desk
          sys := { s.sys with db := { s.sys.db with
            deliveryJobs := s.sys.db.deliveryJobs.insert job } } }
  | .system a =>
    if admits a then
      (s.sys.step a).map fun sys => { s with
        sys
        sends := fun p => if sending sys p = sending s.sys p then s.sends p else .unresolved }
    else none
  | .resolveText p =>
    if s.sends p = .unresolved then
      (sending s.sys p).bind fun h =>
        (h.plan.payloadRef.bind candidateRef).bind fun uuid =>
          (candidateText sha256 s.desk uuid h.plan.payloadHash).map fun text =>
            { s with sends := Function.update s.sends p (.resolved uuid text) }
    else none
  | .sendText p now =>
    match s.sends p with
    | .resolved uuid text => some { s with
        sends := Function.update s.sends p .handedOver
        sent := s.sent ++ [⟨uuid, text, now⟩] }
    | _ => none

end Platform

end TgPlatform
