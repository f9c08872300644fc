import TgPlatform.Control.AiRequests
import TgPlatform.Control.Steps

/-! # Requests beside the runs

All requests but three leave the conversations with their runs, callbacks and
candidates alone: they read, or they write to the tables that a trigger starts
from.
-/

namespace TgPlatform

open Txn

/-- What a request leaves alone that only writes bindings, groups and what belongs to groups. -/
structure SameChain (s s' : ControlPlane) : Prop where
  dir : s'.dir = s.dir
  conversations : s'.conversations = s.conversations
  runs : s'.runs = s.runs
  callbacks : s'.callbacks = s.callbacks
  candidates : s'.candidates = s.candidates
  approvals : s'.approvals = s.approvals
  jobs : s'.jobs = s.jobs

instance : Std.Refl SameChain where
  refl _ := ⟨rfl, rfl, rfl, rfl, rfl, rfl, rfl⟩

instance : IsTrans ControlPlane SameChain where
  trans _ _ _ h h' := ⟨h'.dir.trans h.dir, h'.conversations.trans h.conversations,
    h'.runs.trans h.runs, h'.callbacks.trans h.callbacks, h'.candidates.trans h.candidates,
    h'.approvals.trans h.approvals, h'.jobs.trans h.jobs⟩

theorem SameChain.of_tables {s : ControlPlane} {bindings : Slots AiBinding} {groups : Slots AiGroup}
    {personas : Slots AiPersona} {scripts : Slots AiScript} {privateReplies : Slots AiPrivateReply} :
    SameChain s { s with
      bindings := bindings
      groups := groups
      personas := personas
      scripts := scripts
      privateReplies := privateReplies } := ⟨rfl, rfl, rfl, rfl, rfl, rfl, rfl⟩

variable {out : Outside} {caller : Caller} {pk : ℕ} {α : Type}

/-! ## Steps that only read -/

section Reads

variable {P : ControlPlane → ControlPlane → Prop} [Std.Refl P]

theorem orRefuse_does {kind : ErrorKind} {msg : String} {o : Option α} :
    Does P (orRefuse kind msg o) := by
  cases o with
  | none => exact .throw
  | some a => exact .ret

theorem orCrash_does {exception : String} {o : Option α} : Does P (orCrash exception o) := by
  cases o with
  | none => exact .throw
  | some a => exact .ret

theorem resolveOrRaise_does {results : String → Option JoinResult} {label ref : String} :
    Does P (Outside.resolveOrRaise results label ref) := by
  unfold Outside.resolveOrRaise
  split
  · exact .ret
  · exact .throw
  · exact .throw

theorem required_does {p : Patch α} {a : α} : Does P (p.required a) := by
  cases p with
  | keep => exact .ret
  | null => exact .throw
  | set b => exact .ret

variable [IsTrans ControlPlane P]

theorem checkScope_does {tenantId projectId : ℕ} : Does P (checkScope caller tenantId projectId) := by
  refine .bind .read fun scopes => ?_
  split
  · exact .ret
  · exact .throw

theorem joinChatRefs_does {purpose : ℕ} {scope : Scope} {account : TelegramAccount}
    {refs : List String} : Does P (out.joinChatRefs purpose scope account refs) :=
  .bind .emit fun _ => .lift

theorem resolveChatId_does {scope : Scope} {accountId : ℕ} {value : Option String} :
    Does P (resolveChatId out scope accountId value) := by
  unfold resolveChatId
  split
  · exact .ret
  · exact .ret
  · split
    · exact .bind orCrash_does fun _ => .ret
    · refine .bind .read fun _ => .bind orRefuse_does fun _ => ?_
      exact .bind joinChatRefs_does fun _ => .bind resolveOrRaise_does fun _ => .ret

theorem resolveChat_does {tenantId projectId : ℕ} {chat : String} {accountId : Option ℕ} :
    Does P (resolveChat out tenantId projectId chat accountId) := by
  unfold resolveChat
  dsimp only
  split
  · split
    · exact .bind orCrash_does fun _ => .ret
    · exact .throw
  · refine .bind .read fun _ => .bind orRefuse_does fun _ => ?_
    exact .bind joinChatRefs_does fun _ => .bind resolveOrRaise_does fun _ => .ret

theorem newChat_does {obj : UpdateAiBinding} {b : AiBinding} : Does P (obj.newChat out b) := by
  unfold UpdateAiBinding.newChat
  split
  · exact .ret
  · exact .bind resolveChatId_does fun _ => .ret

theorem updateApply_does {obj : UpdateAiBinding} {chatId : Option (Option ℤ)} {b : AiBinding} :
    Does P (obj.apply out chatId b) :=
  .bind required_does fun _ => .bind required_does fun _ => .bind required_does fun _ =>
  .bind required_does fun _ => .bind required_does fun _ => .bind required_does fun _ =>
  .bind required_does fun _ => .bind required_does fun _ => .bind required_does fun _ =>
  .bind required_does fun _ => .bind required_does fun _ => .bind required_does fun _ => .ret

theorem memberApply_does {obj : AiMember} {b : AiBinding} : Does P (obj.apply out b) :=
  .bind required_does fun _ => .bind required_does fun _ => .bind required_does fun _ => .ret

theorem getGroup_does : Does P (getGroup caller pk) :=
  .bind .read fun _ => .bind orRefuse_does fun _ => .bind checkScope_does fun _ => .ret

theorem getMember_does {memberId : BindingId} : Does P (getMember caller pk memberId) :=
  .bind getGroup_does fun _ => .bind .read fun _ => orRefuse_does

theorem joinGroup_does {group : AiGroup} {account : TelegramAccount} :
    Does P (joinGroup out group account) := by
  unfold joinGroup
  split
  · exact .ret
  · refine .bind joinChatRefs_does fun _ => ?_
    split
    · exact .ret
    · exact .throw
    · exact .throw

theorem checkLines_does {group : AiGroup} {obj : AiScriptParam} : Does P (checkLines pk group obj) := by
  refine .bind .read fun _ => ?_
  split
  · exact .ret
  · exact .throw

theorem getScript_does {scriptId : ℕ} : Does P (getScript pk scriptId) :=
  .bind .read fun _ => orRefuse_does

end Reads

/-! ## Requests that write -/

theorem createBinding_aside {obj : CreateAiBinding} : Does SameChain (createBinding out obj) :=
  .bind resolveChatId_does fun _ => .bind .read fun _ =>
    .bind (.write fun _ => .of_tables) fun _ => .ret

theorem updateBinding_aside {obj : UpdateAiBinding} : Does SameChain (updateBinding out pk obj) :=
  .bind .read fun _ => .bind orRefuse_does fun _ => .bind newChat_does fun _ =>
    .bind updateApply_does fun _ => .bind (.write fun _ => .of_tables) fun _ => .ret

theorem setAutoApprove_aside {t p : ℕ} {enabled : Bool} :
    Does SameChain (setAutoApprove t p enabled) := by
  refine .bind .read fun _ => .bind (.each ?_) fun _ => .ret
  exact fun _ _ => .write fun _ => .of_tables

theorem deleteBinding_aside : Does SameChain (deleteBinding pk) :=
  .bind .read fun _ => .bind orRefuse_does fun _ =>
    .bind (.write fun _ => .of_tables) fun _ => .ret

theorem createGroup_aside {obj : CreateAiGroup} : Does SameChain (createGroup out caller obj) := by
  refine .bind checkScope_does fun _ => .bind resolveChat_does fun found => .bind .read fun _ => ?_
  obtain ⟨chatId, chatRef⟩ := found
  dsimp only
  split
  · exact .throw
  · exact .bind .read fun _ => .bind (.write fun _ => .of_tables) fun _ => .read

theorem updateGroup_aside {obj : GroupFields} : Does SameChain (updateGroup out caller pk obj) := by
  refine .bind getGroup_does fun _ => ?_
  split
  · exact .throw
  · exact .bind (.write fun _ => .of_tables) fun _ => .read

theorem deleteGroup_aside : Does SameChain (deleteGroup caller pk) := by
  refine .bind getGroup_does fun _ => .bind .read fun _ => .bind (.each ?_) fun _ => ?_
  · exact fun _ _ => .write fun _ => .of_tables
  · refine .bind .read fun _ => .bind (.each ?_) fun _ => .write fun _ => .of_tables
    exact fun _ _ => .write fun _ => .of_tables

theorem addMember_aside {obj : AiMember} : Does SameChain (addMember out caller pk obj) := by
  refine .bind getGroup_does fun _ => .bind orRefuse_does fun _ => .bind .read fun _ =>
    .bind orRefuse_does fun _ => .bind .read fun _ => ?_
  split
  · exact .throw
  · exact .bind joinGroup_does fun _ => .bind memberApply_does fun _ => .write fun _ => .of_tables

theorem updateMember_aside {memberId : BindingId} {obj : AiMember} :
    Does SameChain (updateMember out caller pk memberId obj) :=
  .bind getMember_does fun _ => .bind memberApply_does fun _ => .write fun _ => .of_tables

theorem deleteMember_aside {memberId : BindingId} : Does SameChain (deleteMember caller pk memberId) :=
  .bind getMember_does fun _ => .write fun _ => .of_tables

theorem saveScript_aside {obj : AiScriptParam} {scriptId : Option ℕ} :
    Does SameChain (saveScript caller pk obj scriptId) := by
  refine .bind getGroup_does fun _ => .bind checkLines_does fun _ => ?_
  cases scriptId with
  | none => exact .bind .read fun _ => .bind (.write fun _ => .of_tables) fun _ => .ret
  | some scriptId =>
    refine .bind getScript_does fun _ => ?_
    split
    · exact .throw
    · exact .bind (.write fun _ => .of_tables) fun _ => .ret

theorem deleteScript_aside {scriptId : ℕ} : Does SameChain (deleteScript caller pk scriptId) :=
  .bind getGroup_does fun _ => .bind getScript_does fun _ => .write fun _ => .of_tables

theorem startScript_aside {scriptId : ℕ} : Does SameChain (startScript out caller pk scriptId) := by
  refine .bind getGroup_does fun _ => ?_
  split
  · exact .throw
  · exact .bind getScript_does fun _ => .write fun _ => .of_tables

theorem stopScript_aside {scriptId : ℕ} : Does SameChain (stopScript caller pk scriptId) :=
  .bind getGroup_does fun _ => .bind getScript_does fun _ => .write fun _ => .of_tables

theorem savePersona_aside {obj : AiPersonaParam} {pk : Option ℕ} :
    Does SameChain (savePersona caller obj pk) := by
  refine .bind checkScope_does fun _ => ?_
  cases pk with
  | none => exact .bind .read fun _ => .bind (.write fun _ => .of_tables) fun _ => .ret
  | some pk =>
    exact .bind .read fun _ => .bind orRefuse_does fun _ =>
      .bind (.write fun _ => .of_tables) fun _ => .ret

theorem deletePersona_aside : Does SameChain (deletePersona caller pk) :=
  .bind .read fun _ => .bind orRefuse_does fun _ => .bind checkScope_does fun _ =>
    .write fun _ => .of_tables

theorem savePrivate_aside {accountId : ℕ} {obj : AiPrivateReplyParam} :
    Does SameChain (savePrivate caller accountId obj) := by
  refine .bind .read fun _ => .bind orRefuse_does fun _ => .bind checkScope_does fun _ =>
    .bind .read fun cur => ?_
  cases cur with
  | some x => exact .bind (.write fun _ => .of_tables) fun _ => .ret
  | none =>
    refine .bind .read fun _ => ?_
    split
    · exact .throw
    · exact .bind .read fun _ => .bind (.write fun _ => .of_tables) fun _ => .ret

/-! ## The requests -/

def AiRequest.touchesRuns : AiRequest → Bool
  | .triggerRun _ | .cancelRun _ | .warmupGroup _ => true
  | _ => false

theorem handle_aside {req : AiRequest} (h : req.touchesRuns = false) :
    Does SameChain (req.handle out caller) := by
  cases req with
  | getBindings _ _ => exact Does.read.map
  | createBinding _ => exact createBinding_aside.map
  | updateBinding _ _ => exact updateBinding_aside.map
  | setAutoApprove _ _ _ => exact setAutoApprove_aside.map
  | deleteBinding _ => exact deleteBinding_aside.map
  | getConversations _ _ => exact Does.read.map
  | getRuns _ _ _ => exact Does.read.map
  | triggerRun _ => cases h
  | cancelRun _ => cases h
  | getGroups _ _ => exact (Does.bind .read fun _ => .bind .read fun _ => .read).map
  | createGroup _ => exact createGroup_aside.map
  | updateGroup _ _ => exact updateGroup_aside.map
  | deleteGroup _ => exact deleteGroup_aside.map
  | getGroupMessages _ => exact (Does.bind getGroup_does fun _ => .ret).map
  | getGroupRuns _ =>
    exact (Does.bind getGroup_does fun _ => .bind .read fun _ => .bind .read fun _ => .read).map
  | warmupGroup _ => cases h
  | getMembers _ =>
    exact (Does.bind getGroup_does fun _ => .bind .read fun _ => .bind .read fun _ => .ret).map
  | addMember _ _ => exact addMember_aside.map
  | updateMember _ _ _ => exact updateMember_aside.map
  | deleteMember _ _ => exact deleteMember_aside.map
  | getScripts _ => exact (Does.bind getGroup_does fun _ => .read).map
  | createScript _ _ => exact saveScript_aside.map
  | updateScript _ _ _ => exact saveScript_aside.map
  | deleteScript _ _ => exact deleteScript_aside.map
  | startScript _ _ => exact startScript_aside.map
  | stopScript _ _ => exact stopScript_aside.map
  | getPersonas _ _ => exact (Does.bind .read fun _ => .read).map
  | createPersona _ => exact savePersona_aside.map
  | updatePersona _ _ => exact savePersona_aside.map
  | deletePersona _ => exact deletePersona_aside.map
  | getPrivateReplies _ _ => exact (Does.bind .read fun _ => .read).map
  | savePrivateReply _ _ => exact savePrivate_aside.map

end TgPlatform
