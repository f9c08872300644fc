import TgPlatform.Import.Identity
import TgPlatform.Import.LoginHistory

/-! # The sessions of the accounts of logins

A directory is named by a uuid that no other request gets, and only the pending
directory loses files. So the session of an account stays where it was moved to,
beside the credentials that its login was begun with.
-/

namespace TgPlatform.CodeLogin

open Coroutine SessionImport
open Trace (Tells)

/-! ## Files that stay -/

variable {s s' : LoginWorld} {w : LoginCall} {r : Option w.Answer} {file : SecretRef} {uuid : String}

theorem loginDir_inj {a b : String} (h : loginDir a = loginDir b) : a = b := by
  have hlist := congrArg String.toList h
  simp only [loginDir, String.toList_append] at hlist
  exact String.toList_inj.mp (List.append_cancel_left hlist)

theorem loginDir_ne_pendingDir : loginDir uuid ≠ pendingDir := by
  intro h
  have hlist := congrArg (fun s => s.toList.head?) h
  simp only [loginDir, pendingDir, String.toList_append] at hlist
  rw [List.head?_append_of_ne_nil _ (by decide)] at hlist
  revert hlist
  decide

/-- A call that writes only where the requests do. -/
def Placed : LoginCall → Prop
  | .send session .. | .signin session .. | .unlink session => session.batch = pendingDir
  | .move src dst => src.batch = pendingDir ∧ ∃ uuid key, dst = ⟨loginDir uuid, sessionName key⟩
  | .writeText file _ => ∃ uuid key, file = ⟨loginDir uuid, metaName key⟩
  | _ => True

theorem Lawful.placed {log : List Deed} (h : Lawful log w) : Placed w := by
  cases w <;> first | exact h | trivial

theorem files_touch {session : SecretRef} (hsession : session.batch = pendingDir)
    (hfile : file.batch ≠ pendingDir) : (s.touch session).files file = s.files file := by
  refine Function.update_of_ne (fun he => hfile ?_) ..
  rw [he, hsession]

theorem files_remove {removed : List SecretRef} (hremoved : ∀ f ∈ removed, f.batch = pendingDir)
    (hfile : file.batch ≠ pendingDir) : (s.remove removed).files file = s.files file := by
  unfold LoginWorld.remove
  exact if_neg fun hmem => hfile (hremoved file hmem)

theorem files_effect {a : w.Answer} (hplaced : Placed w) (hallows : w.Allows s a)
    (hfile : file.batch ≠ pendingDir) :
    (w.effect s a).files file = s.files file ∨
      (∃ src, w = .move src file ∧ (w.effect s a).files file = s.files src) ∨
      ∃ value, w = .writeText file value ∧ (w.effect s a).files file = some (.text (some value)) := by
  cases w with
  | send session client => exact .inl (files_touch hplaced hfile)
  | signin session client hash code password => exact .inl (files_touch hplaced hfile)
  | unlink session =>
    refine .inl (files_remove (fun f hf => ?_) hfile)
    rw [List.mem_singleton.mp hf]
    exact hplaced
  | purgePending => exact .inl (files_remove (fun f hf => (hallows f hf).1) hfile)
  | move src dst =>
    have hsrc : file ≠ src := by
      rintro rfl
      exact hfile hplaced.1
    have hmoved : ((LoginCall.move src dst).effect s a).files file =
        Function.update s.files dst (s.files src) file := Function.update_of_ne hsrc ..
    rw [hmoved]
    by_cases hdst : file = dst
    · subst hdst
      exact .inr (.inl ⟨src, rfl, Function.update_self ..⟩)
    · exact .inl (Function.update_of_ne hdst ..)
  | writeText f value =>
    by_cases hf : file = f
    · subst hf
      exact .inr (.inr ⟨value, rfl, Function.update_self ..⟩)
    · exact .inl (Function.update_of_ne hf ..)
  | _ => exact .inl rfl

/-- What has been moved or written outside of the pending directory is still there. -/
structure Shelved (s : LoginWorld) : Prop where
  moved : ∀ time src dst, ⟨time, .move src dst, some ()⟩ ∈ s.log → (s.files dst).isSome
  written : ∀ time uuid key value,
    ⟨time, .writeText ⟨loginDir uuid, metaName key⟩ value, some ()⟩ ∈ s.log →
    ∃ value' time' answer, s.files ⟨loginDir uuid, metaName key⟩ = some (.text (some value')) ∧
      ⟨time', .writeText ⟨loginDir uuid, metaName key⟩ value', answer⟩ ∈ s.log

theorem Placed.move_ne {src dst : SecretRef} (h : Placed (.move src dst)) : dst.batch ≠ pendingDir := by
  obtain ⟨-, uuid, key, rfl⟩ := h
  exact loginDir_ne_pendingDir

theorem Shelved.effect {a : w.Answer} (hS : Shelved s) (hlog : ∀ d ∈ s.log, Placed d.call)
    (hplaced : Placed w) (hallows : w.Allows s a) (now : Moment) (r : Option w.Answer) :
    Shelved ((w.effect s a).record ⟨now, w, r⟩) := by
  have hmem : ∀ d, d ∈ ((w.effect s a).record ⟨now, w, r⟩).log → d ∈ s.log ∨ d = ⟨now, w, r⟩ := by
    intro d hd
    rcases List.mem_append.mp hd with hd | hd
    · rw [log_effect] at hd
      exact .inl hd
    · exact .inr (List.mem_singleton.mp hd)
  have hold : ∀ d, d ∈ s.log → d ∈ ((w.effect s a).record ⟨now, w, r⟩).log := by
    intro d hd
    refine List.mem_append_left _ ?_
    rwa [log_effect]
  have hnew : (⟨now, w, r⟩ : Deed) ∈ ((w.effect s a).record ⟨now, w, r⟩).log :=
    List.mem_append_right _ (List.mem_singleton_self _)
  constructor
  · intro time src dst hd
    rcases hmem _ hd with hd | hd
    · have hdst := Placed.move_ne (hlog _ hd)
      rcases files_effect hplaced hallows hdst with hsame | ⟨src', rfl, hmoved⟩ | ⟨value, -, htext⟩
      · exact (congrArg Option.isSome hsame).trans (hS.moved time src dst hd)
      · exact (congrArg Option.isSome hmoved).trans hallows
      · exact congrArg Option.isSome htext
    · cases hd
      have hne : dst ≠ src := by
        rintro rfl
        exact Placed.move_ne hplaced hplaced.1
      have hmoved : ((LoginCall.move src dst).effect s a).files dst = s.files src :=
        (Function.update_of_ne hne ..).trans (Function.update_self ..)
      exact (congrArg Option.isSome hmoved).trans hallows
  · intro time uuid key value hd
    rcases hmem _ hd with hd | hd
    · obtain ⟨value', time', answer, htext, hdeed⟩ := hS.written time uuid key value hd
      have hfile : (⟨loginDir uuid, metaName key⟩ : SecretRef).batch ≠ pendingDir := loginDir_ne_pendingDir
      rcases files_effect hplaced hallows hfile with hsame | ⟨src', rfl, -⟩ | ⟨value'', rfl, htext'⟩
      · exact ⟨value', time', answer, hsame.trans htext, hold _ hdeed⟩
      · obtain ⟨-, uuid', key', he⟩ := hplaced
        exact absurd (congrArg SecretRef.name he).symm sessionName_ne_metaName
      · exact ⟨value'', now, r, htext', hnew⟩
    · cases hd
      exact ⟨value, now, some (), Function.update_self .., hnew⟩

theorem Shelved.answers (hS : Shelved s) (hlog : ∀ d ∈ s.log, Placed d.call) (hplaced : Placed w)
    (h : Answers s w r s') : Shelved s' := by
  have hat : ∀ now, Shelved (s.at_ now) := fun now => ⟨hS.moved, hS.written⟩
  cases h with
  | @answer _ _ _ now _ hallows => exact (hat now).effect hlog hplaced hallows now _
  | @lose _ _ _ now _ hallows => exact (hat now).effect hlog hplaced hallows now _
  | @raise _ _ now _ =>
    have hmem : ∀ d, d ∈ ((s.at_ now).record ⟨now, w, none⟩).log → d ∈ s.log ∨ d = ⟨now, w, none⟩ :=
      fun d hd => (List.mem_append.mp hd).imp_right List.mem_singleton.mp
    constructor
    · intro time src dst hd
      rcases hmem _ hd with hd | hd
      · exact hS.moved time src dst hd
      · cases hd
    · intro time uuid key value hd
      rcases hmem _ hd with hd | hd
      · obtain ⟨value', time', answer, htext, hdeed⟩ := hS.written time uuid key value hd
        exact ⟨value', time', answer, htext, List.mem_append_left _ hdeed⟩
      · cases hd

theorem shelved_of_reaches {x : LoginWorld × List (LoginPart Unit)} (h : Reaches Answers Begins s x)
    (hlog : s.log = []) (hpending : ∀ loginId, s.pending loginId = none) : Shelved x.1 := by
  have hplaced : ∀ d ∈ x.1.log, Placed d.call := by
    intro d hd
    obtain ⟨pre, post, hx⟩ := List.append_of_mem hd
    exact ((inv_of_reaches h hlog hpending).lawful pre d post hx).placed
  have hkept : (∀ d ∈ x.1.log, Placed d.call) → Shelved x.1 := by
    refine h.keeps (J := fun s => (∀ d ∈ s.log, Placed d.call) → Shelved s) ?_ ?_
    · intro s w r s' hW hJ hall
      obtain ⟨now, hs'⟩ := log_of_answers hW
      rw [hs'] at hall
      have hbefore : ∀ d ∈ s.log, Placed d.call := fun d hd => hall d (List.mem_append_left _ hd)
      exact (hJ hbefore).answers hbefore
        (hall _ (List.mem_append_right _ (List.mem_singleton_self _))) hW
    · intro _
      exact ⟨fun time src dst hd => by simp [hlog] at hd, fun time uuid key value hd => by simp [hlog] at hd⟩
  exact hkept hplaced

/-! ## One text for each directory -/

abbrev Ended : Type := Σ w : LoginCall, Option w.Answer

def ended (w : LoginCall) (r : Option w.Answer) : Ended := ⟨w, r⟩

def writes (uuid : String) : Ended → Bool
  | ⟨.writeText file _, _⟩ => file.batch = loginDir uuid
  | _ => false

def gives (uuid : String) : Ended → Bool
  | ⟨.uuid4, some given⟩ => given = uuid
  | _ => false

abbrev Silent {α : Type} (uuid : String) (t : LoginPart α) : Prop := AtMost ended (writes uuid) 0 t

variable {α : Type} {caller : Caller} {tenantId projectId : ℕ}

theorem Silent.andThen {β : Type} {n : ℕ} {t : LoginPart α} {k : α → LoginPart β} (h : Silent uuid t)
    (hk : ∀ a, AtMost ended (writes uuid) n (k a)) : AtMost ended (writes uuid) n (t.andThen k) :=
  (AtMost.andThen h hk).mono (Nat.zero_add n).le

theorem silent_ask (hw : ∀ r, writes uuid (ended w r) = false) : Silent uuid (ask w) :=
  atMost_call hw (fun _ => atMost_ret) atMost_raise

theorem silent_refuse {kind : ErrorKind} {msg : String} :
    Silent uuid (refuse kind msg : LoginPart α) :=
  atMost_call (fun _ => rfl) (fun _ => atMost_raise) atMost_raise

theorem silent_refuseLogin {e : CliError} {default : String} :
    Silent uuid (refuseLogin e default : LoginPart α) := by
  unfold refuseLogin
  split <;> exact silent_refuse

theorem silent_checkScope : Silent uuid (checkScope caller tenantId projectId) := by
  unfold checkScope
  split
  · exact atMost_ret
  · refine Silent.andThen (silent_ask fun _ => rfl) ?_
    rintro (_ | _)
    · exact silent_refuse
    · exact atMost_ret

theorem silent_startRequest {obj : LoginStart} : Silent uuid (startRequest caller obj) := by
  have hstart : Silent uuid (loginStart caller obj) := by
    refine Silent.andThen silent_checkScope fun _ => ?_
    refine Silent.andThen (silent_ask fun _ => rfl) fun _ => ?_
    refine Silent.andThen (silent_ask fun _ => rfl) fun loginId => ?_
    refine Silent.andThen (silent_ask fun _ => rfl) fun _ => ?_
    refine Silent.andThen (silent_ask fun _ => rfl) ?_
    rintro (phoneCodeHash | e)
    · exact Silent.andThen (silent_ask fun _ => rfl) fun _ => atMost_ret
    · exact Silent.andThen (silent_ask fun _ => rfl) fun _ => silent_refuseLogin
  exact Silent.andThen hstart fun _ => silent_ask fun _ => rfl

theorem silent_sessionKey {p : Pending} {user : TelegramUser} : Silent uuid (sessionKey p user) := by
  unfold sessionKey
  by_cases hkey : phoneKey p user ≠ ""
  · rw [if_pos hkey]
    exact atMost_ret
  · rw [if_neg hkey]
    exact silent_ask fun _ => rfl

theorem silent_existingOf {user : TelegramUser} : Silent uuid (existingOf user) := by
  unfold existingOf
  by_cases huser : user.id ≠ 0
  · rw [if_pos huser]
    exact silent_ask fun _ => rfl
  · rw [if_neg huser]
    exact atMost_ret

theorem writes_text {given key : String} {value : Json} {r : Option Unit} :
    writes uuid (ended (.writeText ⟨loginDir given, metaName key⟩ value) r) = decide (given = uuid) :=
  decide_eq_decide.mpr ⟨loginDir_inj, congrArg loginDir⟩

theorem balanced_storeSession {p : Pending} {loginId : String} {user : TelegramUser} :
    Balanced ended (writes uuid) (gives uuid) (storeSession p loginId user) := by
  have hrest : ∀ given, AtMost ended (writes uuid) (decide (given = uuid)).toNat
      ((ask (.mkdir (loginDir given))).andThen fun _ => (sessionKey p user).andThen fun key =>
        (ask (.move p.sessionPath ⟨loginDir given, sessionName key⟩)).andThen fun _ =>
        (ask (.writeText ⟨loginDir given, metaName key⟩ (metaOf p.client))).andThen fun _ =>
        (ask (.pendingPop loginId)).andThen fun _ =>
          (ret (accountOf p user given key) : LoginPart Account)) := by
    intro given
    refine Silent.andThen (silent_ask fun _ => rfl) fun _ => ?_
    refine Silent.andThen silent_sessionKey fun key => ?_
    refine Silent.andThen (silent_ask fun _ => rfl) fun _ => ?_
    refine AtMost.andThen (n := 0) (atMost_request fun _ => writes_text) fun _ => ?_
    exact Silent.andThen (silent_ask fun _ => rfl) fun _ => atMost_ret
  exact balanced_call (fun _ => rfl) hrest atMost_raise

theorem balanced_completeRequest {obj : LoginComplete} :
    Balanced ended (writes uuid) (gives uuid) (completeRequest caller obj) := by
  have hask : ∀ w, (∀ r, writes uuid (ended w r) = false) →
      Balanced ended (writes uuid) (gives uuid) (ask w) := fun w hw => (silent_ask hw).balanced
  refine Balanced.andThen ?_ ?_
  · refine Balanced.andThen (hask _ fun _ => rfl) fun _ => ?_
    refine Balanced.andThen (hask _ fun _ => rfl) ?_
    rintro (_ | p)
    · exact silent_refuse.balanced
    · dsimp only
      split
      · exact silent_refuse.balanced
      · refine Balanced.andThen silent_checkScope.balanced fun _ => ?_
        refine Balanced.andThen (hask _ fun _ => rfl) ?_
        rintro (user | _ | e)
        · refine Balanced.andThen ?_ fun row => atMost_ret.balanced
          refine Balanced.andThen silent_existingOf.balanced ?_
          rintro (_ | id)
          · exact balanced_storeSession
          · refine Balanced.andThen (hask _ fun _ => rfl) fun _ => ?_
            exact Balanced.andThen (hask _ fun _ => rfl) fun _ => silent_refuse.balanced
        · exact atMost_ret.balanced
        · exact silent_refuseLogin.balanced
  · rintro (_ | row)
    · exact hask _ fun _ => rfl
    · exact Balanced.andThen (hask _ fun _ => rfl) fun _ => hask _ fun _ => rfl

def done (s : LoginWorld) : List Ended := s.log.map fun d => ended d.call d.answer

theorem done_of_answers (h : Answers s w r s') : done s' = done s ++ [ended w r] := by
  obtain ⟨now, hlog⟩ := log_of_answers h
  simp [done, hlog]

theorem uuids_of_answers (h : Answers s w r s') :
    (∀ u ∈ s.uuids, u ∈ s'.uuids) ∧ ∀ u, gives u (ended w r) = true → u ∉ s.uuids ∧ u ∈ s'.uuids := by
  have hgrow : ∀ (s : LoginWorld) (a : w.Answer), ∀ u ∈ s.uuids, u ∈ (w.effect s a).uuids := by
    intro s a u hu
    cases w with
    | uuid4 => exact List.mem_cons_of_mem _ hu
    | _ => exact hu
  cases h with
  | @answer _ _ a now _ hallows =>
    refine ⟨hgrow (s.at_ now) a, fun u hu => ?_⟩
    cases w with
    | uuid4 =>
      have hgiven : a = u := of_decide_eq_true hu
      subst hgiven
      exact ⟨hallows.2, List.mem_cons_self⟩
    | _ => cases hu
  | @raise _ _ now _ =>
    refine ⟨fun u hu => hu, fun u hu => ?_⟩
    cases w <;> cases hu
  | @lose _ _ a now _ _ =>
    refine ⟨hgrow (s.at_ now) a, fun u hu => ?_⟩
    cases w <;> cases hu

theorem countP_gives_le {x : LoginWorld × List (LoginPart Unit)} (h : Reaches Answers Begins s x)
    (hlog : s.log = []) : (done x.1).countP (gives uuid) ≤ 1 := by
  have hcount : (done x.1).countP (gives uuid) ≤ 1 ∧
      (0 < (done x.1).countP (gives uuid) → uuid ∈ x.1.uuids) := by
    refine h.keeps (J := fun s => (done s).countP (gives uuid) ≤ 1 ∧
      (0 < (done s).countP (gives uuid) → uuid ∈ s.uuids)) ?_ ?_
    · intro s w r s' hW hJ
      obtain ⟨hgrow, hgiven⟩ := uuids_of_answers hW
      rw [done_of_answers hW, List.countP_append]
      by_cases hg : gives uuid (ended w r) = true
      · obtain ⟨hfresh, hmem⟩ := hgiven uuid hg
        have hzero : (done s).countP (gives uuid) = 0 := by
          by_contra hpos
          exact hfresh (hJ.2 (Nat.pos_of_ne_zero hpos))
        rw [hzero, List.countP_cons_of_pos hg]
        exact ⟨by simp, fun _ => hmem⟩
      · rw [List.countP_cons_of_neg hg, List.countP_nil, Nat.add_zero]
        exact ⟨hJ.1, fun hpos => hgrow uuid (hJ.2 hpos)⟩
    · simp [done, hlog]
  exact hcount.1

theorem text_unique {x : LoginWorld × List (LoginPart Unit)} (h : Reaches Answers Begins s x)
    (hlog : s.log = []) {d d' : Deed} (hd : d ∈ x.1.log) (hd' : d' ∈ x.1.log)
    (hw : writes uuid (ended d.call d.answer) = true) (hw' : writes uuid (ended d'.call d'.answer) = true) :
    ended d.call d.answer = ended d'.call d'.answer := by
  have hbalanced : (done x.1).countP (writes uuid) ≤ (done x.1).countP (gives uuid) := by
    refine h.countP_le (fun _ _ _ _ hW => done_of_answers hW) (by simp [done, hlog]) ?_
    rintro t (⟨caller, obj⟩ | ⟨caller, obj⟩ | ⟨members, accounts⟩)
    · exact silent_startRequest.balanced
    · exact balanced_completeRequest
    · exact (silent_ask fun _ => rfl).balanced
  have hmem : ∀ d ∈ x.1.log, writes uuid (ended d.call d.answer) = true →
      ended d.call d.answer ∈ (done x.1).filter (writes uuid) :=
    fun d hd hw => List.mem_filter.mpr ⟨List.mem_map_of_mem hd, hw⟩
  have hone : ((done x.1).filter (writes uuid)).length = 1 := by
    have hpos := List.length_pos_of_mem (hmem d hd hw)
    have hle := hbalanced.trans (countP_gives_le h hlog)
    rw [List.countP_eq_length_filter] at hle
    omega
  obtain ⟨e, he⟩ := List.length_eq_one_iff.mp hone
  have hall : ∀ d ∈ x.1.log, writes uuid (ended d.call d.answer) = true → ended d.call d.answer = e := by
    intro d hd hw
    have hde := hmem d hd hw
    rw [he] at hde
    exact List.mem_singleton.mp hde
  rw [hall d hd hw, hall d' hd' hw']

/-! ## The arguments of the command line -/

theorem suffixOf_sessionName {key : String} (hkey : key ≠ "") :
    suffixOf (sessionName key).toList = ".session".toList := by
  have hname : (sessionName key).toList = key.toList ++ '.' :: "session".toList := by
    simp [sessionName]
  have hext : ((sessionName key).toList.reverse.takeWhile (· ≠ '.')).reverse = "session".toList := by
    rw [hname]
    simp
  have hlength : 0 < key.toList.length := by
    rw [List.length_pos_iff]
    exact fun h => hkey (String.toList_inj.mp h)
  unfold suffixOf
  simp only [hext]
  rw [if_pos]
  · rfl
  · refine ⟨?_, by decide, ?_⟩
    · rw [hname]
      exact List.mem_append_right _ List.mem_cons_self
    · rw [hname]
      simp
      omega

theorem withSuffix_sessionName {key : String} (hkey : key ≠ "") :
    withSuffix (sessionName key) ".json" = metaName key := by
  unfold withSuffix
  rw [suffixOf_sessionName hkey]
  have hlength : (sessionName key).length - ".session".toList.length = key.toList.length := by
    rw [sessionName, String.length_append, String.length_toList]
    exact Nat.add_sub_cancel ..
  have htake : (sessionName key).toList.take key.toList.length = key.toList := by
    rw [sessionName, String.toList_append]
    exact List.take_left
  rw [hlength, htake, String.ofList_toList]
  rfl

theorem accountSessionCliArgs_eq {files : SecretRef → Option File} {c : Client} (repr : Json → String)
    (hsession : (files file).isSome = true)
    (hmeta : files ⟨file.batch, withSuffix file.name ".json"⟩ = some (.text (some (metaOf c)))) :
    accountSessionCliArgs repr files (some file) = some (
      if c.apiId = 0 ∨ c.apiHash = "" then
        .error ⟨.request, "账号会话或 API 凭据缺失,无法自动进群(重新导入/登录该账号)"⟩
      else .ok (file, repr (.int c.apiId), c.apiHash)) := by
  have hpresent : (files file).isNone = false := by
    rw [Option.isNone_eq_false_iff]
    exact hsession
  have hget : (metaOf c).get "app_id" = some (.int c.apiId) ∧
      (metaOf c).get "app_hash" = some (.str c.apiHash) := ⟨rfl, rfl⟩
  by_cases hid : c.apiId = 0
  · simp [accountSessionCliArgs, hmeta, hpresent, hget, Json.truthy, hid]
  · by_cases hhash : c.apiHash = ""
    · simp [accountSessionCliArgs, hmeta, hpresent, hget, Json.truthy, hhash]
    · simp [accountSessionCliArgs, hmeta, hpresent, hget, Json.truthy, Json.toStr, hid, hhash]

/-- However the requests take turns, the session of an account that a login has added is where the row
says, and the credentials beside it are those that the login was begun with: they are given wherever the
request had named any. -/
theorem session_usable {x : LoginWorld × List (LoginPart Unit)} (repr : Json → String)
    (h : Reaches Answers Begins s x) (hlog : s.log = []) (hpending : ∀ loginId, s.pending loginId = none)
    {d : Deed} {row : Account} (hd : d ∈ x.1.log) (hrow : d.call = .commit row) :
    ∃ h : LoginHistory, h.account = row ∧ h.Proper ∧ Tells h.steps x.1.log ∧
      accountSessionCliArgs repr x.1.files row.secretRef = some (
        if h.start.client.apiId = 0 ∨ h.start.client.apiHash = "" then
          .error ⟨.request, "账号会话或 API 凭据缺失,无法自动进群(重新导入/登录该账号)"⟩
        else .ok (⟨loginDir h.uuid, sessionName h.key⟩, repr (.int h.start.client.apiId),
          h.start.client.apiHash)) := by
  obtain ⟨pre, post, hx⟩ := List.append_of_mem hd
  have hlaw : Lawful pre d.call := (inv_of_reaches h hlog hpending).lawful pre d post hx
  rw [hrow] at hlaw
  obtain ⟨h', hacc, hproper, htold⟩ := hlaw
  have htells : Tells h'.steps x.1.log := htold.mono ⟨_, hx.symm⟩
  refine ⟨h', hacc, hproper, htells, ?_⟩
  have hshelved := shelved_of_reaches h hlog hpending
  obtain ⟨_, hmove, time, rfl⟩ := htells.exists_mem (p := h'.moveStep) (by simp [LoginHistory.steps])
  obtain ⟨_, hwrite, time', rfl⟩ := htells.exists_mem (p := h'.writeStep) (by simp [LoginHistory.steps])
  have hsession := hshelved.moved _ _ _ hmove
  obtain ⟨value, time'', answer, hfile, hdeed⟩ := hshelved.written _ _ _ _ hwrite
  have hwrites : ∀ value answer, writes h'.uuid
      (ended (.writeText ⟨loginDir h'.uuid, metaName h'.key⟩ value) answer) = true :=
    fun _ _ => decide_eq_true rfl
  have hsame := text_unique h hlog hwrite hdeed (hwrites _ _) (hwrites _ _)
  have hvalue : value = metaOf h'.start.client := by
    cases hsame
    rfl
  subst hacc hvalue
  refine accountSessionCliArgs_eq repr hsession ?_
  dsimp only
  rw [withSuffix_sessionName hproper.named]
  exact hfile

theorem session_usable_member : ∃ x, Reaches Answers Begins projectWorld x ∧
    accountSessionCliArgs (fun _ => "5") x.1.files memberAccount.secretRef =
      some (.ok (⟨"login-b", "100.session"⟩, "5", "hash")) := by
  obtain ⟨x, hx, hlog⟩ := reaches_memberAccount
  refine ⟨x, hx, ?_⟩
  have hd : (⟨0, .commit memberAccount, some ()⟩ : Deed) ∈ x.1.log := by
    rw [hlog]
    exact List.mem_append_right _ (List.mem_singleton_self _)
  obtain ⟨h, hacc, -, htells, hargs⟩ := session_usable (fun _ => "5") hx rfl (fun _ => rfl) hd rfl
  have href : (⟨loginDir h.uuid, sessionName h.key⟩ : SecretRef) = ⟨"login-b", "100.session"⟩ :=
    Option.some.inj (congrArg (fun a => a.secretRef) hacc)
  -- the only text of the run has the credentials of the member
  obtain ⟨_, hwrite, time, rfl⟩ := htells.exists_mem (p := h.writeStep) (by simp [LoginHistory.steps])
  have hmeta : metaOf h.start.client = metaOf memberStart.client := by
    rw [hlog] at hwrite
    have hwritten : time = 0 ∧ (loginDir h.uuid = "login-b" ∧ metaName h.key = "100.json") ∧
        metaOf h.start.client = metaOf memberStart.client := by simpa [memberDeeds] using hwrite
    exact hwritten.2.2
  have hcredentials : h.start.client.apiId = 5 ∧ h.start.client.apiHash = "hash" := by
    simp only [metaOf, Json.dict.injEq, List.cons.injEq, Prod.mk.injEq, Json.int.injEq, Json.str.injEq,
      true_and] at hmeta
    exact ⟨hmeta.1, hmeta.2.1⟩
  rw [hargs, href, hcredentials.1, hcredentials.2]
  rfl

end TgPlatform.CodeLogin
