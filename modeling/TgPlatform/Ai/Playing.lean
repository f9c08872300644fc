import TgPlatform.Ai.Library
import TgPlatform.Ai.Triggering

/-! # Playing a script

The task plays one line at the cursor and schedules the next step. It reads the
script under a lock on its row; the requests that start, stop, save or delete a
script rewrite the row without having locked it before. A line is started inside
a savepoint, so that a trigger that fails leaves nothing.
-/

namespace TgPlatform

open Overlap

/-- A delivery of `tg_ai_script_step`. -/
structure ScriptStep where
  out : Outside
  script : ℕ
  token : String

/-- A line that was started. -/
structure Played where
  script : ℕ
  token : String
  line : ℕ
  deriving DecidableEq, Repr

structure PlayStage where
  plane : ControlPlane
  played : List Played := []

inductive ScriptEdit
  | save (caller : Caller) (pk : GroupId) (obj : AiScriptParam) (scriptId : Option ℕ)
  | delete (caller : Caller) (pk : GroupId) (scriptId : ℕ)
  | start (out : Outside) (caller : Caller) (pk : GroupId) (scriptId : ℕ)
  | stop (caller : Caller) (pk : GroupId) (scriptId : ℕ)

/-- The statement that a request on a script ends with. -/
inductive ScriptChange
  | insert (obj : AiScriptParam) (pk : GroupId) (group : AiGroup)
  | save (scriptId : ℕ) (obj : AiScriptParam)
  | delete (scriptId : ℕ)
  | start (scriptId : ℕ)
  | stop (scriptId : ℕ)

/-- What else the platform writes. -/
structure Elsewhere where
  write : ControlPlane → ControlPlane
  scripts : ∀ s, (write s).scripts = s.scripts

inductive PlayRequest
  | edit (edit : ScriptEdit)
  | step (d : ScriptStep)
  | elsewhere (e : Elsewhere)

structure Turn where
  script : ℕ
  token : String
  /-- The line that the cursor has left. -/
  passed : Option ℕ := none
  started : Bool := false
  scheduled : Bool := false
  deriving DecidableEq, Repr

inductive PlayLock
  | script (scriptId : ℕ)
  | trigger (lock : TriggerLock)
  deriving DecidableEq, Repr

/-- How far a transaction has come, with what it has read. Before its savepoint is released, a
trigger keeps its writes to itself. -/
inductive PlayPoint
  | asking (edit : ScriptEdit)
  | changing (change : ScriptChange)
  | elsewhere (e : Elsewhere)
  | fetching (d : ScriptStep)
  | casting (d : ScriptStep) (script : AiScript)
  | seeking (d : ScriptStep) (script : AiScript) (group : AiGroup) (line : ScriptLine)
  | triggering (d : ScriptStep) (script : AiScript) (line : ScriptLine) (point : TriggerPoint)
      (pending : ControlPlane → ControlPlane)
  | passing (d : ScriptStep) (script : AiScript) (started : Bool)
  | ending (turn : Option Turn)

def ScriptEdit.change (s : ControlPlane) : ScriptEdit → Option ScriptChange
  | .save caller pk obj none =>
    ((saveScript caller pk obj none).answer s).toOption.bind fun _ =>
      (s.group pk).map fun group => .insert obj pk group
  | .save caller pk obj (some id) =>
    ((saveScript caller pk obj (some id)).answer s).toOption.map fun _ => .save id obj
  | .delete caller pk id => ((deleteScript caller pk id).answer s).toOption.map fun _ => .delete id
  | .start out caller pk id => ((startScript out caller pk id).answer s).toOption.map fun _ => .start id
  | .stop caller pk id => ((stopScript caller pk id).answer s).toOption.map fun _ => .stop id

def AiScriptParam.apply (obj : AiScriptParam) (x : AiScript) : AiScript :=
  { x with name := obj.name, lines := obj.lines, intervalS := obj.intervalS, rewrite := obj.rewrite }

/-- `start_script` resets the cursor under a new token. -/
def AiScript.play (token : String) (x : AiScript) : AiScript :=
  { x with status := .running, runToken := some token, cursor := 0 }

def AiScript.halt (x : AiScript) : AiScript := { x with status := .idle, runToken := none }

/-- The cursor is moved past a line, and the script ends with its last. -/
def AiScript.advance (script x : AiScript) : AiScript :=
  let x := { x with cursor := script.cursor + 1 }
  if script.lines.length ≤ script.cursor + 1 then x.halt else x

def AiScript.playsUnder (x : AiScript) (token : String) : Bool :=
  x.status = .running && x.runToken = some token

/-- The trigger of `_start_member_run` for a line. -/
def AiGroup.recite (group : AiGroup) (b : BindingId) (script : AiScript) (line : ScriptLine) :
    AiTrigger :=
  { group.speech b "script" with scriptLine := some line.text, rewrite := script.rewrite }

/-- `_group_members`. -/
def ControlPlane.groupMembers (s : ControlPlane) (pk : GroupId) (group : AiGroup) :
    List (BindingId × AiBinding) :=
  (s.members pk group).filter fun b => b.2.status = "active"

/-- The error that ends a trigger here is one that `_start_member_run` turns into an answer. -/
def TriggerPoint.skipsMember (point : TriggerPoint) (s : ControlPlane) : Bool :=
  match point with
  | .handing req binding chosen pk run =>
    match (req.handOver binding chosen.conv chosen.pk pk run).answer s with
    | .error e => e.skipsMember
    | .ok _ => true
  | _ => true

def PlayStage.script (s : PlayStage) (id : ℕ) : Option AiScript := s.plane.scripts.row? id

def PlayStage.onScripts (f : Slots AiScript → Slots AiScript) (s : PlayStage) : PlayStage :=
  { s with plane := { s.plane with scripts := f s.plane.scripts } }

def ScriptStep.turn (d : ScriptStep) : Turn := { script := d.script, token := d.token }

/-- The lock on the row, and the statement on it; `uuid4_str` gives a token that no one has had. -/
def ScriptChange.statement (mint : ℕ → String) (n : ℕ) :
    ScriptChange → ℕ × (Slots AiScript → Slots AiScript)
  | .insert obj pk group => (n, fun t => t.put n (obj.row pk group))
  | .save id obj => (id, fun t => t.modify id obj.apply)
  | .delete id => (id, fun t => t.remove id)
  | .start id => (id, fun t => t.modify id (AiScript.play (mint n)))
  | .stop id => (id, fun t => t.modify id AiScript.halt)

def playNext (mint : ℕ → String) :
    PlayPoint → PlayStage → ℕ → Move PlayStage PlayLock (Option Turn) PlayPoint
  | .asking edit, s, _ =>
    match edit.change s.plane with
    | none => .rollback
    | some change => .go [] id (.changing change)
  | .changing change, _, n =>
    let (id, f) := change.statement mint n
    .go [.script id] (PlayStage.onScripts f) (.ending none)
  | .elsewhere e, _, _ => .go [] (fun s => { s with plane := e.write s.plane }) (.ending none)
  | .fetching d, s, _ =>
    match s.plane.script d.script with
    | none => .go [] id (.ending (some d.turn))
    | some x =>
      if x.playsUnder d.token then .go [.script d.script] id (.casting d x)
      else .go [.script d.script] id (.ending (some d.turn))
  | .casting d x, s, _ =>
    match (s.plane.group x.groupId).filter (fun g => g.status = "active"), x.lines[x.cursor]? with
    | some group, some line => .go [] id (.seeking d x group line)
    | _, _ => .go [] (PlayStage.onScripts fun t => t.modify d.script AiScript.halt)
      (.ending (some d.turn))
  | .seeking d x group line, s, _ =>
    match (s.plane.groupMembers x.groupId group).find? fun b => b.1 = line.memberId with
    | none => .go [] id (.passing d x false)
    | some b => .go [] id
      (.triggering d x line (.reading ⟨d.out, group.recite b.1 x line, true⟩) id)
  | .triggering d x line point pending, s, n =>
    match triggerNext point (pending s.plane) n with
    | .go locks write next => .go (locks.map .trigger) id (.triggering d x line next (write ∘ pending))
    | .commit _ => .go [] (fun s => ⟨pending s.plane, s.played ++ [⟨d.script, d.token, x.cursor⟩]⟩)
      (.passing d x true)
    | .rollback =>
      if point.skipsMember (pending s.plane) then
        .go [] id (.ending (some { d.turn with scheduled := true }))
      else .rollback
  | .passing d x started, _, _ =>
    .go [] (PlayStage.onScripts fun t => t.modify d.script x.advance) (.ending (some { d.turn with
      passed := some x.cursor, started, scheduled := x.cursor + 1 < x.lines.length }))
  | .ending turn, _, _ => .commit turn

def PlayRequest.start : PlayRequest → PlayPoint
  | .edit x => .asking x
  | .step d => .fetching d
  | .elsewhere e => .elsewhere e

def playing (mint : ℕ → String) : Program PlayRequest PlayStage PlayLock (Option Turn) PlayPoint where
  start := PlayRequest.start
  next := playNext mint

end TgPlatform
