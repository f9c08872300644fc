import TgPlatform.Import.CodeLogin
import TgPlatform.Lib.Trace

/-! # Where the accounts of logins come from

Whatever turns the requests take and whichever of their calls raise, an account
that is committed has the whole history of a login behind it: a code was sent to
its phone by a member of its project, and within ten minutes the same user, or a
superuser, read the login back, was found to be a member, and signed in.
-/

namespace TgPlatform.CodeLogin

open Coroutine
open Trace (Tells)

/-! ## Histories -/

/-- The call has been answered with `r`. -/
def Did (w : LoginCall) (r : w.Answer) (d : Deed) : Prop := ∃ time, d = ⟨time, w, some r⟩

/-- A caller who is no superuser has been found to be a member. -/
def scopeSteps (caller : Caller) (tenantId projectId : ℕ) : List (Deed → Prop) :=
  if caller.isSuperuser then [] else [Did (.getByScope tenantId projectId caller.id) true]

structure Beginning where
  startedBy : Caller
  start : LoginStart
  loginId : String
  phoneCodeHash : String

namespace Beginning

variable (b : Beginning)

def pending : Pending := pendingOf b.startedBy b.start b.loginId b.phoneCodeHash

def steps : List (Deed → Prop) :=
  scopeSteps b.startedBy b.start.tenantId b.start.projectId ++
    [Did .uuid4 b.loginId] ++
    [Did (.send (sessionPath b.loginId) b.start.client.args) (.ok b.phoneCodeHash)]

def savedStep (savedAt : Moment) (d : Deed) : Prop :=
  ∃ r, d = ⟨savedAt, .pendingSave b.loginId b.pending, r⟩

def readStep (readAt : Moment) (d : Deed) : Prop :=
  d = ⟨readAt, .pendingGet b.loginId, some (some b.pending)⟩

end Beginning

structure LoginHistory extends Beginning where
  savedAt : Moment
  readAt : Moment
  completedBy : Caller
  code : String
  password : Option String
  user : TelegramUser
  uuid : String
  key : String

namespace LoginHistory

variable (h : LoginHistory)

def signinStep : Deed → Prop :=
  Did (.signin h.pending.sessionPath h.pending.client.args h.phoneCodeHash h.code (truthy h.password))
    (.ok h.user)

def lookupSteps : List (Deed → Prop) :=
  if h.user.id ≠ 0 then [Did (.getByTgUser h.user.id) none] else []

def moveStep : Deed → Prop :=
  Did (.move h.pending.sessionPath ⟨loginDir h.uuid, SessionImport.sessionName h.key⟩) ()

def writeStep : Deed → Prop :=
  Did (.writeText ⟨loginDir h.uuid, SessionImport.metaName h.key⟩ (metaOf h.start.client)) ()

def signedSteps : List (Deed → Prop) :=
  h.toBeginning.steps ++ [h.savedStep h.savedAt] ++ [h.readStep h.readAt] ++
    scopeSteps h.completedBy h.start.tenantId h.start.projectId ++ [h.signinStep]

def steps : List (Deed → Prop) :=
  h.signedSteps ++ h.lookupSteps ++ [Did .uuid4 h.uuid] ++ [h.moveStep] ++ [h.writeStep]

/-- The user who began a login completes it, or a superuser does, while it is kept. -/
structure Admitted : Prop where
  allowed : h.completedBy.id = h.startedBy.id ∨ h.completedBy.isSuperuser = true
  timely : h.readAt < h.savedAt + loginTtl

structure Proper : Prop extends h.Admitted where
  named : h.key ≠ ""

def account : Account := accountOf h.pending h.user h.uuid h.key

end LoginHistory

/-! ## Lawful calls -/

def Lawful (log : List Deed) : LoginCall → Prop
  | .send session .. | .signin session .. | .unlink session => session.batch = pendingDir
  | .move src dst =>
    src.batch = pendingDir ∧ ∃ uuid key, dst = ⟨loginDir uuid, SessionImport.sessionName key⟩
  | .writeText file _ => ∃ uuid key, file = ⟨loginDir uuid, SessionImport.metaName key⟩
  | .pendingSave loginId p => ∃ b : Beginning, b.loginId = loginId ∧ b.pending = p ∧ Tells b.steps log
  | .commit row => ∃ h : LoginHistory, h.account = row ∧ h.Proper ∧ Tells h.steps log
  | _ => True

/-- All calls have been lawful, and what Redis keeps are logins that have begun. -/
structure Inv (s : LoginWorld) : Prop where
  lawful : Trace.Throughout (fun pre d => Lawful pre d.call) s.log
  kept : ∀ loginId p stop, s.pending loginId = some (p, stop) → ∃ (b : Beginning) (savedAt : Moment),
    b.loginId = loginId ∧ b.pending = p ∧ stop = savedAt + loginTtl ∧
      Tells (b.steps ++ [b.savedStep savedAt]) s.log

def Later (s s' : LoginWorld) : Prop := s.log <+: s'.log

instance : IsPreorder LoginWorld Later where
  refl s := List.prefix_refl s.log
  trans _ _ _ h h' := List.IsPrefix.trans h h'

variable {s s' s'' : LoginWorld} {w : LoginCall} {r : Option w.Answer} {steps : List (Deed → Prop)}
  {caller : Caller} {tenantId projectId : ℕ} {α : Type} {p : Pending} {loginId : String}

@[simp]
theorem log_effect (a : w.Answer) : (w.effect s a).log = s.log := by
  cases w <;> rfl

theorem log_of_answers (h : Answers s w r s') : ∃ now, s'.log = s.log ++ [⟨now, w, r⟩] := by
  cases h with
  | @answer _ _ a now _ _ => exact ⟨now, congrArg (· ++ _) (log_effect a)⟩
  | @raise _ _ now _ => exact ⟨now, rfl⟩
  | @lose _ _ a now _ _ => exact ⟨now, congrArg (· ++ _) (log_effect a)⟩

theorem later_of_answers (h : Answers s w r s') : Later s s' := by
  obtain ⟨now, hlog⟩ := log_of_answers h
  exact ⟨_, hlog.symm⟩

theorem pending_effect {a : w.Answer} {id : String} {stop : Moment}
    (h : (w.effect s a).pending id = some (p, stop)) :
    s.pending id = some (p, stop) ∨ w = .pendingSave id p ∧ stop = s.clock + loginTtl := by
  cases w with
  | pendingSave loginId q =>
    change Function.update s.pending loginId (some (q, s.clock + loginTtl)) id = _ at h
    by_cases hid : id = loginId
    · subst hid
      rw [Function.update_self] at h
      cases h
      exact .inr ⟨rfl, rfl⟩
    · rw [Function.update_of_ne hid] at h
      exact .inl h
  | pendingPop loginId =>
    change Function.update s.pending loginId none id = _ at h
    by_cases hid : id = loginId
    · subst hid
      rw [Function.update_self] at h
      cases h
    · rw [Function.update_of_ne hid] at h
      exact .inl h
  | _ => exact .inl h

theorem pending_of_answers {id : String} {stop : Moment} (h : Answers s w r s')
    (hp : s'.pending id = some (p, stop)) :
    s.pending id = some (p, stop) ∨
      ∃ now, w = .pendingSave id p ∧ stop = now + loginTtl ∧ s'.log = s.log ++ [⟨now, w, r⟩] := by
  cases h with
  | @answer _ _ a now _ _ =>
    refine (pending_effect (s := s.at_ now) hp).imp_right fun ⟨hw, hstop⟩ => ⟨now, hw, hstop, ?_⟩
    exact congrArg (· ++ _) (log_effect a)
  | raise _ => exact .inl hp
  | @lose _ _ a now _ _ =>
    refine (pending_effect (s := s.at_ now) hp).imp_right fun ⟨hw, hstop⟩ => ⟨now, hw, hstop, ?_⟩
    exact congrArg (· ++ _) (log_effect a)

theorem Inv.call (hI : Inv s) (hlaw : Lawful s.log w) (h : Answers s w r s') : Inv s' := by
  constructor
  · obtain ⟨now, hlog⟩ := log_of_answers h
    rw [hlog]
    exact hI.lawful.snoc hlaw
  · intro id q stop hq
    rcases pending_of_answers h hq with hold | ⟨now, rfl, hstop, hlog⟩
    · obtain ⟨b, savedAt, hid, hb, hstop, htells⟩ := hI.kept id q stop hold
      exact ⟨b, savedAt, hid, hb, hstop, htells.mono (later_of_answers h)⟩
    · obtain ⟨b, hid, hb, htells⟩ := hlaw
      refine ⟨b, now, hid, hb, hstop, ?_⟩
      rw [hlog]
      exact htells.snoc ⟨r, by rw [hid, hb]⟩

/-! ## The requests -/

/-- A request from here on makes lawful calls only. -/
abbrev Sound (Q : α → LoginWorld → Prop) (s : LoginWorld) (t : LoginPart α) : Prop :=
  Safe Answers Inv Later Q s t

abbrev Told (steps : List (Deed → Prop)) : α → LoginWorld → Prop := fun _ s => Tells steps s.log

theorem sound_ret {a : α} {Q : α → LoginWorld → Prop} (h : ∀ s', Later s s' → Inv s' → Q a s') :
    Sound Q s (ret a) := h

theorem sound_call {k : w.Answer → LoginPart α} {Q : α → LoginWorld → Prop} (h : Tells steps s.log)
    (hlaw : ∀ log, Tells steps log → Lawful log w)
    (hk : ∀ a s', Tells steps s'.log → Tells (steps ++ [Did w a]) s'.log → Sound Q s' (k a)) :
    Sound Q s ((ask w).andThen k) := by
  intro s₁ hle hI
  have hcall : Lawful s₁.log w := hlaw _ (h.mono hle)
  constructor
  · intro a s₂ hW
    refine ⟨hI.call hcall hW, later_of_answers hW, hk a s₂ ?_ ?_⟩
    · exact h.mono (Trans.trans hle (later_of_answers hW))
    · obtain ⟨now, hlog⟩ := log_of_answers hW
      rw [hlog]
      exact (h.mono hle).snoc ⟨now, rfl⟩
  · exact fun s₂ hW => ⟨hI.call hcall hW, later_of_answers hW, trivial⟩

theorem sound_ask {Q : w.Answer → LoginWorld → Prop} (h : Tells steps s.log)
    (hlaw : ∀ log, Tells steps log → Lawful log w)
    (hQ : ∀ a s', Tells steps s'.log → Tells (steps ++ [Did w a]) s'.log → Q a s') : Sound Q s (ask w) := by
  have hlast : Sound Q s ((ask w).andThen ret) := sound_call h hlaw fun a s₁ hold hnew =>
    sound_ret fun s₂ hle _ => hQ a s₂ (hold.mono hle) (hnew.mono hle)
  exact hlast

theorem sound_refuse {kind : ErrorKind} {msg : String} {Q : α → LoginWorld → Prop} :
    Sound Q s (refuse kind msg) := by
  intro s' _ hI
  have hlaw : Lawful s'.log (.respond (.error ⟨kind, msg⟩)) := trivial
  exact ⟨fun _ _ hW => ⟨hI.call hlaw hW, later_of_answers hW, trivial⟩,
    fun _ hW => ⟨hI.call hlaw hW, later_of_answers hW, trivial⟩⟩

theorem sound_refuseLogin {e : CliError} {default : String} {Q : α → LoginWorld → Prop} :
    Sound Q s (refuseLogin e default) := by
  unfold refuseLogin
  split <;> exact sound_refuse

theorem sound_checkScope (h : Tells steps s.log) :
    Sound (Told (steps ++ scopeSteps caller tenantId projectId)) s
      (checkScope caller tenantId projectId) := by
  unfold checkScope scopeSteps
  split
  · refine sound_ret fun s' hle _ => ?_
    rw [List.append_nil]
    exact h.mono hle
  · refine sound_call h (fun _ _ => trivial) ?_
    rintro (_ | _) s' - hdid
    · exact sound_refuse
    · exact sound_ret fun s'' hle _ => hdid.mono hle

theorem sound_loginStart {obj : LoginStart} : Sound (fun _ _ => True) s (loginStart caller obj) := by
  refine Safe.andThen ((sound_checkScope Trace.tells_nil).imp ?_)
  intro _ s₁ _ _ hscope
  refine sound_call hscope (fun _ _ => trivial) fun _ s₂ hscope _ => ?_
  refine sound_call hscope (fun _ _ => trivial) fun loginId s₃ _ hid => ?_
  refine sound_call hid (fun _ _ => trivial) fun _ s₄ hid _ => ?_
  refine sound_call hid (fun _ _ => rfl) ?_
  rintro (phoneCodeHash | e) s₅ - hsent
  · refine sound_call hsent (fun log hlog => ?_) fun _ s₆ _ _ => sound_ret fun _ _ _ => trivial
    exact ⟨⟨caller, obj, loginId, phoneCodeHash⟩, rfl, rfl, hlog⟩
  · exact sound_call hsent (fun _ _ => rfl) fun _ s₆ _ _ => sound_refuseLogin

theorem sound_startRequest {obj : LoginStart} : Sound (fun _ _ => True) s (startRequest caller obj) := by
  refine Safe.andThen (sound_loginStart.imp fun loginId s₁ _ _ _ => ?_)
  exact sound_ask Trace.tells_nil (fun _ _ => trivial) fun _ _ _ _ => trivial

/-- A login that is read back has begun less than ten minutes ago. -/
theorem sound_pendingGet {k : Option Pending → LoginPart α} {Q : α → LoginWorld → Prop}
    (hnone : ∀ s', Sound Q s' (k none))
    (hsome : ∀ (b : Beginning) (savedAt readAt : Moment) (s' : LoginWorld), b.loginId = loginId →
      readAt < savedAt + loginTtl →
      Tells (b.steps ++ [b.savedStep savedAt] ++ [b.readStep readAt]) s'.log →
      Sound Q s' (k (some b.pending))) :
    Sound Q s ((ask (.pendingGet loginId)).andThen k) := by
  intro s₁ _ hI
  have hlaw : Lawful s₁.log (.pendingGet loginId) := trivial
  refine ⟨fun a s₂ hW => ⟨hI.call hlaw hW, later_of_answers hW, ?_⟩,
    fun s₂ hW => ⟨hI.call hlaw hW, later_of_answers hW, trivial⟩⟩
  cases hW with
  | @answer _ _ _ now hnow hread =>
    cases a with
    | none => exact hnone _
    | some p =>
      obtain ⟨⟨q, stop⟩, hq, rfl⟩ := Option.map_eq_some_iff.mp hread.symm
      obtain ⟨hkept, hlive⟩ := Option.filter_eq_some_iff.mp hq
      obtain ⟨b, savedAt, rfl, rfl, rfl, htells⟩ := hI.kept loginId q stop hkept
      exact hsome b savedAt now _ rfl (of_decide_eq_true hlive) (htells.snoc rfl)

def Completed (row : Account) (s : LoginWorld) : Prop :=
  ∃ h : LoginHistory, h.account = row ∧ h.Proper ∧ Tells h.steps s.log

theorem Completed.mono {row : Account} (h : Completed row s) (hle : Later s s') : Completed row s' := by
  obtain ⟨h, hrow, hproper, htold⟩ := h
  exact ⟨h, hrow, hproper, htold.mono hle⟩

theorem sound_sessionKey {user : TelegramUser} (h : Tells steps s.log) :
    Sound (fun key s' => key ≠ "" ∧ Tells steps s'.log) s (sessionKey p user) := by
  unfold sessionKey
  by_cases hkey : phoneKey p user ≠ ""
  · rw [if_pos hkey]
    exact sound_ret fun s' hle _ => ⟨hkey, h.mono hle⟩
  · rw [if_neg hkey]
    refine safe_request fun s₁ hle hI => ?_
    have hlaw : Lawful s₁.log .uuid4 := trivial
    refine ⟨fun uuid s₂ hW => ?_, fun s₂ hW => ⟨hI.call hlaw hW, later_of_answers hW⟩⟩
    refine ⟨hI.call hlaw hW, later_of_answers hW, fun s₃ hle' _ => ⟨?_, ?_⟩⟩
    · cases hW with
      | answer _ hallows => exact hallows.1
    · exact h.mono (Trans.trans hle (Trans.trans (later_of_answers hW) hle'))

theorem sound_storeSession {h : LoginHistory} (hadmitted : h.Admitted)
    (htold : Tells (h.signedSteps ++ h.lookupSteps) s.log) :
    Sound Completed s (storeSession h.pending h.loginId h.user) := by
  refine sound_call htold (fun _ _ => trivial) fun uuid s₁ _ huuid => ?_
  refine sound_call huuid (fun _ _ => trivial) fun _ s₂ huuid _ => ?_
  refine Safe.andThen ((sound_sessionKey huuid).imp ?_)
  intro key s₃ _ _ ⟨hkey, huuid⟩
  refine sound_call huuid (fun _ _ => ⟨rfl, uuid, key, rfl⟩) fun _ s₄ _ hmoved => ?_
  refine sound_call hmoved (fun _ _ => ⟨uuid, key, rfl⟩) fun _ s₅ _ hwritten => ?_
  refine sound_call hwritten (fun _ _ => trivial) fun _ s₆ hwritten _ => ?_
  refine sound_ret fun s₇ hle _ => ⟨{ h with uuid := uuid, key := key }, rfl, ⟨⟨?_, ?_⟩, hkey⟩, ?_⟩
  · exact hadmitted.allowed
  · exact hadmitted.timely
  · exact hwritten.mono hle

theorem sound_signedIn {h : LoginHistory} (hadmitted : h.Admitted) (htold : Tells h.signedSteps s.log) :
    Sound Completed s (signedIn h.pending h.loginId h.user) := by
  have hexisting : Sound (fun id s' => id = none → Tells (h.signedSteps ++ h.lookupSteps) s'.log) s
      (existingOf h.user) := by
    unfold existingOf LoginHistory.lookupSteps
    by_cases huser : h.user.id ≠ 0
    · rw [if_pos huser, if_pos huser]
      refine sound_ask htold (fun _ _ => trivial) fun (id : Option ℕ) s₁ _ hdid hid => ?_
      subst hid
      exact hdid
    · rw [if_neg huser, if_neg huser, List.append_nil]
      exact sound_ret fun s₁ hle _ _ => htold.mono hle
  refine Safe.andThen (hexisting.imp ?_)
  rintro (_ | id) s₁ hle - hnone
  · exact sound_storeSession hadmitted (hnone rfl)
  · refine sound_call (htold.mono hle) (fun _ _ => rfl) fun _ s₂ hold _ => ?_
    exact sound_call hold (fun _ _ => trivial) fun _ s₃ _ _ => sound_refuse

theorem sound_loginComplete {obj : LoginComplete} :
    Sound (fun row s' => ∀ account, row = some account → Completed account s') s
      (loginComplete caller obj) := by
  refine sound_call Trace.tells_nil (fun _ _ => trivial) fun _ s₁ _ _ => ?_
  refine sound_pendingGet (fun s₂ => sound_refuse) ?_
  intro b savedAt readAt s₂ hid htimely hread
  dsimp only
  split
  · exact sound_refuse
  · rename_i hallowed
    refine Safe.andThen ((sound_checkScope hread).imp ?_)
    intro _ s₃ _ _ hscope
    refine sound_call hscope (fun _ _ => rfl) ?_
    rintro (user | _ | e) s₄ - hsigned
    · obtain ⟨h, hh⟩ : ∃ h : LoginHistory, h = ⟨b, savedAt, readAt, caller, obj.code, obj.password,
        user, "", ""⟩ := ⟨_, rfl⟩
      have hadmitted : h.Admitted := by
        subst hh
        refine ⟨?_, htimely⟩
        by_contra hneither
        obtain ⟨hid', hsuper⟩ := not_or.mp hneither
        refine hallowed ((Bool.and_eq_true _ _).mpr ⟨decide_eq_true fun he => hid' he.symm, ?_⟩)
        simpa using hsuper
      have htold : Tells h.signedSteps s₄.log := by
        subst hh
        exact hsigned
      subst hh
      change Sound _ s₄ ((signedIn b.pending obj.loginId user).andThen fun row => ret (some row))
      rw [← hid]
      refine Safe.andThen ((sound_signedIn hadmitted htold).imp fun row s₅ _ _ hrow => ?_)
      refine sound_ret fun s₆ hle _ account haccount => ?_
      cases haccount
      exact hrow.mono hle
    · exact sound_ret fun _ _ _ _ hrow => nomatch hrow
    · exact sound_refuseLogin

theorem sound_completeRequest {obj : LoginComplete} :
    Sound (fun _ _ => True) s (completeRequest caller obj) := by
  refine Safe.andThen (sound_loginComplete.imp ?_)
  rintro (_ | row) s₁ - - hrow
  · exact sound_ask Trace.tells_nil (fun _ _ => trivial) fun _ _ _ _ => trivial
  · obtain ⟨h, hh, hproper, htold⟩ := hrow row rfl
    refine sound_call htold (fun log hlog => ⟨h, hh, hproper, hlog⟩) fun _ s₂ hold _ => ?_
    exact sound_ask hold (fun _ _ => trivial) fun _ _ _ _ => trivial

theorem sound_of_begins {t : LoginPart Unit} (h : Begins t) : Sound (fun _ _ => True) s t := by
  cases h with
  | start caller obj => exact sound_startRequest
  | complete caller obj => exact sound_completeRequest
  | elsewhere members accounts =>
    exact sound_ask Trace.tells_nil (fun _ _ => trivial) fun _ _ _ _ => trivial

theorem inv_of_reaches {x : LoginWorld × List (LoginPart Unit)} (h : Reaches Answers Begins s x)
    (hlog : s.log = []) (hpending : ∀ loginId, s.pending loginId = none) : Inv x.1 := by
  have hinit : Inv s := by
    refine ⟨hlog ▸ Trace.throughout_nil, fun id p stop hp => ?_⟩
    rw [hpending id] at hp
    cases hp
  exact (h.invariant hinit fun t s' ht _ => sound_of_begins ht).1

def member : Caller := ⟨7, false⟩

def projectWorld : LoginWorld where
  clock := 0
  members := [(1, 1, 7)]
  accounts := ⟨[], .nil⟩
  pending _ := none
  files _ := none
  uuids := []
  log := []

def memberStart : LoginStart := ⟨1, 1, ⟨"+100", 5, "hash", none, none⟩⟩

def memberUser : TelegramUser := ⟨9, none, some "100"⟩

def willing : ClientSide := ⟨.ok (), .ok "sent", .ok memberUser, .ok memberUser, .ok ()⟩

def memberPending : Pending := pendingOf member memberStart "a" "sent"

def memberDeeds : List Deed := [
  ⟨0, .getByScope 1 1 7, some true⟩,
  ⟨0, .purgePending, some []⟩,
  ⟨0, .uuid4, some "a"⟩,
  ⟨0, .mkdir ".pending", some ()⟩,
  ⟨0, .send (sessionPath "a") memberStart.client, some (.ok "sent")⟩,
  ⟨0, .pendingSave "a" memberPending, some ()⟩,
  ⟨0, .respond (.started "a"), some ()⟩,
  ⟨0, .purgePending, some []⟩,
  ⟨0, .pendingGet "a", some (some memberPending)⟩,
  ⟨0, .getByScope 1 1 7, some true⟩,
  ⟨0, .signin (sessionPath "a") memberStart.client "sent" "12345" none, some (.ok memberUser)⟩,
  ⟨0, .getByTgUser 9, some none⟩,
  ⟨0, .uuid4, some "b"⟩,
  ⟨0, .mkdir "login-b", some ()⟩,
  ⟨0, .move (sessionPath "a") ⟨"login-b", "100.session"⟩, some ()⟩,
  ⟨0, .writeText ⟨"login-b", "100.json"⟩ (metaOf memberStart.client), some ()⟩,
  ⟨0, .pendingPop "a", some ()⟩]

def memberAccount : Account := accountOf memberPending memberUser "b" "100"

theorem reaches_answer {s₁ : LoginWorld} {answered : w.Answer → LoginPart Unit} {raised : LoginPart Unit}
    {ts : List (LoginPart Unit)} (h : Reaches Answers Begins s (s₁, call w answered raised :: ts))
    (hclock : s₁.clock = 0) (a : w.Answer) (hallows : w.Allows (s₁.at_ 0) a) :
    Reaches Answers Begins s ((w.effect (s₁.at_ 0) a).record ⟨0, w, some a⟩, answered a :: ts) :=
  h.answer (.answer hclock.le hallows)

theorem reaches_memberAccount : ∃ x, Reaches Answers Begins projectWorld x ∧
    x.1.log = memberDeeds ++ [⟨0, .commit memberAccount, some ()⟩] := by
  have h : Reaches Answers Begins projectWorld (projectWorld, []) := Reaches.refl
  have h := h.begin (.start member memberStart)
  have h := reaches_answer h rfl true rfl
  have h := reaches_answer h rfl [] nofun
  have h := reaches_answer h rfl "a" ⟨by decide, show "a" ∉ [] by decide⟩
  have h := reaches_answer h rfl () trivial
  have h := reaches_answer h rfl (.ok "sent") ⟨willing, rfl⟩
  have h := reaches_answer h rfl () trivial
  have h := reaches_answer h rfl () trivial
  have h := h.begin (.complete member ⟨"a", "12345", none⟩)
  have h := reaches_answer h rfl [] nofun
  have h := reaches_answer h rfl (some memberPending) rfl
  have h := reaches_answer h rfl true rfl
  have h := reaches_answer h rfl (.ok memberUser) ⟨willing, rfl⟩
  have h := reaches_answer h rfl none rfl
  have h := reaches_answer h rfl "b" ⟨by decide, show "b" ∉ ["a"] by decide⟩
  have h := reaches_answer h rfl () trivial
  have h := reaches_answer h rfl () rfl
  have h := reaches_answer h rfl () trivial
  have h := reaches_answer h rfl () trivial
  have h := reaches_answer h rfl () rfl
  exact ⟨_, h, rfl⟩

end TgPlatform.CodeLogin
