import TgPlatform.Ai.Ending
import TgPlatform.Ai.Playing

/-! # What the trigger of a line leaves

Whatever the state, the writes of the trigger leave the scripts alone and put a
run with the text of the line into the table.
-/

namespace TgPlatform

open Overlap

def AiRun.recites (run : AiRun) (line : ScriptLine) : Prop :=
  run.triggerSource.field "script_line" .null = .str line.text

/-- The scripts are left alone, and so is what the run was triggered by. -/
structure LeavesScripts (pk : RunId) (s s' : ControlPlane) : Prop where
  scripts : s'.scripts = s.scripts
  source : ∀ r, s.runs.row? pk = some r → ∃ r', s'.runs.row? pk = some r' ∧
    r'.triggerSource = r.triggerSource

section Handing

variable {req : TriggerRequest} {pk : RunId} {run : AiRun} {cid : ConversationId} {conv : AiConversation}
  {binding : AiBinding} {s s' : ControlPlane}

theorem LeavesScripts.refl : LeavesScripts pk s s := ⟨rfl, fun r hr => ⟨r, hr, rfl⟩⟩

theorem LeavesScripts.of_modify {f : AiRun → AiRun} (hscripts : s'.scripts = s.scripts)
    (hruns : s'.runs = s.runs.modify pk f) (hf : ∀ r, (f r).triggerSource = r.triggerSource) :
    LeavesScripts pk s s' := by
  refine ⟨hscripts, fun r hr => ⟨f r, ?_, hf r⟩⟩
  rw [hruns, Slots.row?_modify_self, hr]
  rfl

theorem Finished.leavesScripts {group : Option AiGroup}
    (h : Finished pk run cid conv binding group s s') :
    LeavesScripts pk s s' := by
  cases h with
  | left _ => exact .refl
  | fail err => exact .of_modify rfl rfl fun _ => rfl
  | speak candidateId created now usage hcreated =>
    have hother := hcreated.others
    refine .of_modify ?_ (?_ : _ = s.runs.modify pk fun r => { r with
      status := .completed, candidateId := some candidateId, completedAt := some now
      usage := usage }) fun _ => rfl
    · rw [hother]
      rfl
    · rw [hother]
      rfl

theorem HandedOver.leavesScripts (h : HandedOver req pk run cid conv binding s s') :
    LeavesScripts pk s s' := by
  cases h with
  | deferred _ => exact .refl
  | generated _ hfinished => exact hfinished.leavesScripts
  | dispatched accepted => exact .of_modify rfl rfl fun _ => rfl
  | refused err => exact .of_modify rfl rfl fun _ => rfl

theorem leavesScripts_handOver :
    LeavesScripts pk s ((req.handOver binding conv cid pk run).commit s) :=
  Txn.Post.commit (U := fun _ => True) (I := LeavesScripts pk s)
    (handOver_handedOver.mono fun _ _ h => h.leavesScripts) .refl

theorem recites_run {line : ScriptLine} (hmode : req.obj.mode = "script")
    (hline : req.obj.scriptLine = some line.text) : (req.run binding conv cid).recites line := by
  unfold AiRun.recites TriggerRequest.run AiTrigger.run AiTrigger.source
  simp [hmode, hline, Json.field, List.lookup_cons]

end Handing

/-! ## Statement by statement -/

def TriggerPoint.request : TriggerPoint → TriggerRequest
  | .reading req | .dating req _ | .finding req _ _ | .opening req _ _ | .checking req _ _
  | .creating req _ _ | .handing req _ _ _ _ | .ending req _ _ => req

def TriggerPoint.created : TriggerPoint → Option RunId
  | .handing _ _ _ pk _ | .ending _ _ pk => some pk
  | _ => none

structure Prepares (line : ScriptLine) (point : TriggerPoint) (pending : ControlPlane → ControlPlane) :
    Prop where
  mode : point.request.obj.mode = "script"
  text : point.request.obj.scriptLine = some line.text
  scripts : ∀ p, (pending p).scripts = p.scripts
  run : ∀ pk, point.created = some pk → ∀ p, ∃ run, (pending p).runs.row? pk = some run ∧
    run.recites line

variable {line : ScriptLine} {point next : TriggerPoint} {pending write : ControlPlane → ControlPlane}
  {s : ControlPlane} {n : ℕ} {locks : List TriggerLock}

theorem Prepares.onward (h : Prepares line point pending) (hrequest : next.request = point.request)
    (hcreated : next.created = none) (hscripts : ∀ p, (write p).scripts = p.scripts) :
    Prepares line next (write ∘ pending) where
  mode := by rw [hrequest, h.mode]
  text := by rw [hrequest, h.text]
  scripts p := (hscripts _).trans (h.scripts p)
  run pk hpk := by rw [hcreated] at hpk; cases hpk

theorem Prepares.go (h : Prepares line point pending)
    (hgo : triggerNext point s n = .go locks write next) : Prepares line next (write ∘ pending) := by
  cases point with
  | reading req =>
    simp only [triggerNext] at hgo
    split at hgo <;> cases hgo
    exact h.onward rfl rfl fun _ => rfl
  | dating req binding =>
    cases hgo
    exact h.onward rfl rfl fun _ => rfl
  | finding req binding epoch =>
    simp only [triggerNext] at hgo
    split at hgo <;> cases hgo <;> exact h.onward rfl rfl fun _ => rfl
  | opening req binding epoch =>
    simp only [triggerNext] at hgo
    split at hgo <;> cases hgo
    exact h.onward rfl rfl fun _ => rfl
  | checking req binding chosen =>
    simp only [triggerNext] at hgo
    split at hgo <;> cases hgo
    exact h.onward rfl rfl fun _ => rfl
  | creating req binding chosen =>
    simp only [triggerNext] at hgo
    split at hgo <;> cases hgo
    refine ⟨h.mode, h.text, h.scripts, ?_⟩
    rintro pk ⟨⟩ p
    refine ⟨req.run binding chosen.conv chosen.pk, ?_, recites_run h.mode h.text⟩
    exact (Slots.row?_put n).trans (if_pos rfl)
  | handing req binding chosen pk run =>
    simp only [triggerNext] at hgo
    split at hgo <;> cases hgo
    refine ⟨h.mode, h.text, fun p => leavesScripts_handOver.scripts.trans (h.scripts p), ?_⟩
    rintro pk' ⟨⟩ p
    obtain ⟨r, hr, hrecites⟩ := h.run pk rfl p
    obtain ⟨r', hr', hsource⟩ := leavesScripts_handOver.source r hr
    refine ⟨r', hr', ?_⟩
    unfold AiRun.recites
    rw [hsource]
    exact hrecites
  | ending req chosen pk => cases hgo

theorem created_of_commit {pk : RunId} (h : triggerNext point s n = .commit pk) :
    point.created = some pk := by
  obtain ⟨req, chosen, rfl⟩ := triggerNext_eq_commit h
  rfl

end TgPlatform
