import TgPlatform.Control.GroupScope
import TgPlatform.Lib.Session
import TgPlatform.Platform.DeliveryScope

/-! # What the AI surface depends on

A request among a user's own rows is answered from what the user sees and
changes nothing else. So is every session of such requests.
-/

namespace TgPlatform

namespace ControlPlane

variable {s : ControlPlane} {u : UserId} {out : Outside}

/-- One handler a case: what it does not test itself is in the condition. -/
theorem handle_confined {req : AiRequest} (h : s.Owned u out req) :
    Confined u (req.handle out ⟨u, false⟩) s := by
  cases req with
  | getBindings _ _ => exact (getBindings_confined h).map
  | createBinding _ => exact (createBinding_confined h.1 h.2).map
  | updateBinding _ _ => exact (updateBinding_confined h).map
  | setAutoApprove _ _ _ => exact (setAutoApprove_confined h).map
  | deleteBinding _ => exact (deleteBinding_confined h).map
  | getConversations _ _ => exact (getConversations_confined h).map
  | getRuns _ _ _ => exact (getRuns_confined h).map
  | triggerRun _ => exact (trigger_confined h).map
  | cancelRun _ => exact (cancelRun_confined h).map
  | getGroups _ _ => exact (listGroups_confined h).map
  | createGroup _ => exact (createGroup_confined h).map
  | updateGroup _ _ => exact (updateGroup_confined h).map
  | deleteGroup _ => exact (deleteGroup_confined h).map
  | getGroupMessages _ => exact (getGroupMessages_confined h).map
  | getGroupRuns _ => exact (groupRuns_confined h).map
  | warmupGroup _ => exact (warmupNow_confined h).map
  | getMembers _ => exact (listMembers_confined h).map
  | addMember _ _ => exact (addMember_confined h).map
  | updateMember _ _ _ => exact (updateMember_confined h).map
  | deleteMember _ _ => exact (deleteMember_confined h).map
  | getScripts _ => exact (listScripts_confined h).map
  | createScript _ _ => exact (createScript_confined h).map
  | updateScript _ _ _ => exact (updateScript_confined h).map
  | deleteScript _ _ => exact (deleteScript_confined h).map
  | startScript _ _ => exact (startScript_confined h).map
  | stopScript _ _ => exact (stopScript_confined h).map
  | getPersonas _ _ => exact listPersonas_confined.map
  | createPersona _ => exact createPersona_confined.map
  | updatePersona _ _ => exact updatePersona_confined.map
  | deletePersona _ => exact (deletePersona_confined h).map
  | getPrivateReplies _ _ => exact listPrivate_confined.map
  | savePrivateReply _ _ => exact (savePrivate_confined h).map

/-- The requests of a user, each with what the outside answers meanwhile. -/
def aiSession (u : UserId) (a : Outside × AiRequest) : Req AiAnswer := a.2.handle a.1 ⟨u, false⟩

/-- For every sequence of AI requests of a user who is no superuser, each of which reaches the
user's own rows only: databases that agree on what the user sees give the same answers and go on
agreeing, and what the user does not see is left as it was. -/
theorem ai_requests_scoped (u : UserId) (as : List (Outside × AiRequest)) (s t : ControlPlane)
    (halike : (view u).Alike s t)
    (hs : Txn.Each (aiSession u) (fun s a => s.Owned u a.1 a.2) s as)
    (ht : Txn.Each (aiSession u) (fun s a => s.Owned u a.1 a.2) t as) :
    Txn.answers (aiSession u) s as = Txn.answers (aiSession u) t as ∧
      (view u).Alike (Txn.final (aiSession u) s as) (Txn.final (aiSession u) t as) ∧
      (Txn.final (aiSession u) s as).foreign u = s.foreign u ∧
      (Txn.final (aiSession u) t as).foreign u = t.foreign u := by
  have hconf : ∀ s (a : Outside × AiRequest), s.Owned u a.1 a.2 →
      Txn.Confined (view u) (fun s => s.foreign u) (aiSession u a) s := fun _ _ => handle_confined
  obtain ⟨hanswers, hfinal⟩ := hs.alike hconf ht halike
  exact ⟨hanswers, hfinal, hs.frame hconf, ht.frame hconf⟩

/-! ## Two projects -/

/-- The tables of a new installation. -/
def ofDirectory (dir : Directory) : ControlPlane where
  dir := dir
  bindings := .empty
  conversations := .empty
  runs := .empty
  callbacks := .empty
  groups := .empty
  personas := .empty
  scripts := .empty
  privateReplies := .empty
  candidates := .empty
  approvals := .empty
  jobs := .empty
  rules := .empty
  targets := .empty
  versions := .empty
  commands := .empty

/-- A tenant with two projects, each with an account; user 1 belongs to the first. -/
def memberOfFirst : Directory where
  __ := DeliveryData.twoProjects
  accounts := [
    { id := 1, uuid := "a", tenantId := 1, projectId := 1 },
    { id := 2, uuid := "b", tenantId := 1, projectId := 2 }]
  account_ids := by decide
  account_uuids := by decide

/-- Nobody answers, and no text is understood. -/
def silence : Outside where
  python := {
    sha256 := fun _ => "", hmacSha256 := fun _ _ => "", loads := fun _ => .error .decode
    parseInt := fun _ => none, parseFloat := fun _ => none, repr := fun _ => ""
    environ := fun _ => none, isDigit := fun _ => false }
  now := 0
  dayStart := 0
  uuid := toString
  encrypt := id
  decrypt := some
  join _ _ _ := .ok fun _ => none
  resolveUsers _ _ := .ok fun _ => none
  replyDelay _ := 0
  submit _ := { ok := false }
  generate _ := .error ""
  pick _ := 0
  blocked _ _ := false
  casing := { letter := fun c => [c], cased := fun _ => false, ignorable := fun _ => false }
  transform _ _ _ := .error ""

def foreignBinding : AiBinding where
  uuid := "x"
  tenantId := 1
  projectId := 2
  accountId := 2
  botUuid := ""
  baseUrl := ""
  inboundSecretRef := ""
  outboundSecretRef := ""

def withForeign : ControlPlane :=
  { ofDirectory memberOfFirst with bindings := ⟨[some foreignBinding]⟩ }

def withoutForeign : ControlPlane := { ofDirectory memberOfFirst with bindings := ⟨[none]⟩ }

def ownSession : List (Outside × AiRequest) := [
  (silence, .createBinding { tenantId := 1, projectId := 1, accountId := 1 }),
  (silence, .getBindings (some 1) (some 1))]

theorem ownSession_owned {s : ControlPlane} (hmine : s.mine 1 (1, 1) = true)
    (hlisted : ∀ x ∈ ((createBinding silence { tenantId := 1, projectId := 1, accountId := 1 }).map
      AiAnswer.binding |>.commit s).bindingsOf (some 1) (some 1),
      ((createBinding silence { tenantId := 1, projectId := 1, accountId := 1 }).map
        AiAnswer.binding |>.commit s).mine 1 x.2.scope = true) :
    Txn.Each (aiSession 1) (fun s a => s.Owned 1 a.1 a.2) s ownSession := by
  refine Txn.each_cons ⟨hmine, ?_⟩ (Txn.each_cons hlisted trivial)
  intro ref href
  cases href

/-- The session of the first project's user does not notice the second project. -/
theorem own_session_scoped :
    Txn.answers (aiSession 1) withForeign ownSession =
        Txn.answers (aiSession 1) withoutForeign ownSession ∧
      (Txn.final (aiSession 1) withForeign ownSession).foreign 1 = withForeign.foreign 1 := by
  obtain ⟨hanswers, -, hframe, -⟩ := ai_requests_scoped 1 ownSession withForeign withoutForeign rfl
    (ownSession_owned (by decide +kernel) (by decide +kernel))
    (ownSession_owned (by decide +kernel) (by decide +kernel))
  exact ⟨hanswers, hframe⟩

/-- The first project's user deletes a binding of the second one. -/
theorem foreign_binding_is_deleted : ¬ ∀ (u : UserId) (as : List (Outside × AiRequest)) s t,
    (view u).Alike s t →
      Txn.answers (aiSession u) s as = Txn.answers (aiSession u) t as ∧
        (view u).Alike (Txn.final (aiSession u) s as) (Txn.final (aiSession u) t as) ∧
        (Txn.final (aiSession u) s as).foreign u = s.foreign u ∧
        (Txn.final (aiSession u) t as).foreign u = t.foreign u := by
  intro h
  obtain ⟨-, -, hframe, -⟩ := h 1 [(silence, .deleteBinding 0)] withForeign withoutForeign rfl
  have hdeleted : ((Txn.final (aiSession 1) withForeign [(silence, .deleteBinding 0)]).foreign 1
      |>.bindings 0 |>.map AiBinding.deleted) ≠
      ((withForeign.foreign 1).bindings 0).map AiBinding.deleted := by decide +kernel
  exact hdeleted (congrArg (fun x => (x.bindings 0).map AiBinding.deleted) hframe)

end ControlPlane

end TgPlatform
