import TgPlatform.Ai.Ending
import TgPlatform.Control.Aside

/-! # The AI chain as a system

Requests, triggers, callbacks and tasks follow one another. No conversation and
no run is ever lost, and apart from the callbacks no step moves a run on by a
segment.
-/

namespace TgPlatform

open Txn

/-- A step of the chain, with what the outside answers meanwhile. -/
inductive AiAction
  | request (out : Outside) (caller : Caller) (req : AiRequest)
  | trigger (out : Outside) (obj : AiTrigger) (defer : Bool)
  | callback (py : Python) (req : CallbackRequest)
  | deferred (out : Outside) (pk : RunId)
  | sweep (out : Outside)

def aiNext (s : ControlPlane) : AiAction → ControlPlane
  | .request out caller req => (req.handle out caller).commit s
  | .trigger out obj defer => (trigger out obj defer).commit s
  | .callback py req => s.afterCallback py req
  | .deferred out pk => (runDeferredOpenai out pk).commit s
  | .sweep out => (sweepDeadlines out).commit s

/-- Every step is possible. -/
def aiStep (s : ControlPlane) (a : AiAction) : Option ControlPlane := some (aiNext s a)

/-- What of a conversation never changes. -/
structure AiConversation.Stays (c c' : AiConversation) : Prop where
  bindingId : c'.bindingId = c.bindingId
  accountId : c'.accountId = c.accountId
  sessionId : c'.sessionId = c.sessionId

instance : Std.Refl AiConversation.Stays where
  refl _ := ⟨rfl, rfl, rfl⟩

instance : IsTrans AiConversation AiConversation.Stays where
  trans _ _ _ h h' := ⟨h'.bindingId.trans h.bindingId, h'.accountId.trans h.accountId,
    h'.sessionId.trans h.sessionId⟩

/-- What a step does to the chain if it is no callback. -/
structure Onward (s s' : ControlPlane) : Prop where
  dir : s'.dir = s.dir
  callbacks : s'.callbacks = s.callbacks
  conversations : Slots.Evolves AiConversation.Stays (fun _ => True) s.conversations s'.conversations
  runs : Slots.Evolves AiRun.Later (fun r => r.expectedSeq = 1) s.runs s'.runs

instance : Std.Refl Onward where
  refl _ := ⟨rfl, rfl, .refl, .refl⟩

instance : IsTrans ControlPlane Onward where
  trans _ _ _ h h' := ⟨h'.dir.trans h.dir, h'.callbacks.trans h.callbacks,
    h.conversations.trans (fun _ _ _ _ => trivial) h'.conversations,
    h.runs.trans (fun _ _ hlater hnew => hlater.expectedSeq.trans hnew) h'.runs⟩

variable {pk : RunId} {out : Outside} {caller : Caller} {s s' : ControlPlane}

theorem onward_ends : Ends pk Onward where
  run _ _ hf := ⟨rfl, rfl, .refl, .modify fun r _ => hf r⟩
  conversation _ _ _ := ⟨rfl, rfl, .modify fun _ _ => ⟨rfl, rfl, rfl⟩, .refl⟩
  candidate _ _ _ _ := ⟨rfl, rfl, .refl, .refl⟩

theorem SameChain.onward (h : SameChain s s') : Onward s s' := by
  refine ⟨h.dir, h.callbacks, ?_, ?_⟩
  · rw [h.conversations]
    exact .refl
  · rw [h.runs]
    exact .refl

theorem openConversation_onward {obj : AiTrigger} {binding : AiBinding} :
    Does Onward (openConversation out obj binding) := by
  refine .bind .read fun epoch => .bind .read fun found => ?_
  cases found with
  | some found => exact .ret
  | none =>
    exact .bind .read fun _ => .bind (.write fun _ => ⟨rfl, rfl, .add trivial, .refl⟩) fun _ => .ret

theorem trigger_onward {obj : AiTrigger} {defer : Bool} : Does Onward (trigger out obj defer) := by
  rw [trigger_eq ⟨out, obj, defer⟩]
  refine .bind .read fun _ => .bind orRefuse_does fun binding =>
    .bind openConversation_onward fun chosen => .bind .read fun active => ?_
  split
  · exact .throw
  · exact .bind .read fun _ => .bind (.write fun _ => ⟨rfl, rfl, .refl, .add rfl⟩) fun _ =>
      onward_ends.handOver

theorem cancelRun_onward : Does Onward (cancelRun out pk) := by
  refine .bind .read fun _ => .bind orRefuse_does fun run => ?_
  split
  · exact .throw
  · exact .bind (.write fun _ => onward_ends.unlock fun _ => ⟨rfl, rfl, rfl, rfl, nofun⟩)
      fun _ => .read

theorem startMemberRun_onward {group : AiGroup} {b : BindingId} {mode : String} :
    Does Onward (startMemberRun out group b mode) :=
  .attempt (.bind trigger_onward fun _ => .ret)

theorem warmupNow_onward : Does Onward (warmupNow out caller pk) := by
  refine .bind getGroup_does fun group => ?_
  split
  · exact .throw
  · unfold warmupGroup
    split
    · exact .ret
    · refine .bind .read fun pool => ?_
      split
      · exact .ret
      · exact .bind (.write fun _ => SameChain.of_tables.onward) fun _ => startMemberRun_onward

theorem handle_onward {req : AiRequest} : Does Onward (req.handle out caller) := by
  cases htouches : req.touchesRuns with
  | false => exact (handle_aside htouches).mono fun _ _ => SameChain.onward
  | true =>
    cases req with
    | triggerRun _ => exact trigger_onward.map
    | cancelRun _ => exact cancelRun_onward.map
    | warmupGroup _ => exact warmupNow_onward.map
    | _ => cases htouches

theorem sweepDeadlines_onward : Does Onward (sweepDeadlines out) := by
  refine .bind .read fun runs => .bind (.each fun r _ => ?_) fun _ => .ret
  exact .write fun _ => onward_ends.unlock fun _ => ⟨rfl, rfl, rfl, rfl, nofun⟩

def AiAction.isCallback : AiAction → Bool
  | .callback _ _ => true
  | _ => false

theorem aiNext_onward {a : AiAction} (h : a.isCallback = false) : Onward s (aiNext s a) := by
  cases a with
  | request out caller req => exact handle_onward.commit s
  | trigger out obj defer => exact trigger_onward.commit s
  | callback py req => cases h
  | deferred out pk => exact onward_ends.runDeferredOpenai.commit s
  | sweep out => exact sweepDeadlines_onward.commit s

end TgPlatform
