import TgPlatform.Lib.Trace
import TgPlatform.Platform.Sessions

/-! # What is behind a token that is accepted

A token is accepted only while Redis gives it back: it was written less than a
day ago and has been neither replaced nor deleted since. It was written for a
session that a verified user had begun, or by a renewal that presented the
refresh token that Redis gave back at that time, and so on back to the login.
-/

namespace TgPlatform.Sessions

open Coroutine
open Trace (Tells)

/-! ## The calls of the parts -/

def Housekeeping : SessionCall → Prop
  | .mget _ | .smembers _ | .sadd .. | .srem .. | .expire .. | .delete _ | .disconnect .. => True
  | _ => False

def Issued (jwt : Jwt) (userId : ℕ) (sessionUuid : String) (text : RedisText) : Prop :=
  ∃ jti exp, text = .token (jwt.encode ⟨sessionUuid, jti, exp, userId⟩)

def Stores (jwt : Jwt) (userId : ℕ) (sessionUuid : String) : SessionCall → Prop
  | .now | .uuid4 | .set (.extraInfo ..) .. => True
  | .set (.access u sid) text ex =>
    u = userId ∧ sid = sessionUuid ∧ ex = tokenExpire ∧ Issued jwt userId sessionUuid text
  | .set (.refresh u sid) text ex =>
    u = userId ∧ sid = sessionUuid ∧ ex = tokenRefreshExpire ∧ Issued jwt userId sessionUuid text
  | w => Housekeeping w

abbrev Only {α : Type} (p : SessionCall → Prop) (Q : α → Prop) (t : Part α) : Prop :=
  Until (fun _ _ => False) p Q t

section Parts

variable {α β : Type} {p : SessionCall → Prop} {Q : β → Prop} {t : Part α} {k : α → Part β}
  {userId : ℕ} {sessionUuid : String}

theorem stores_of_housekeeping {w : SessionCall} (h : Housekeeping w) : Stores jwt userId sessionUuid w := by
  cases w with
  | now | uuid4 => trivial
  | set key text ex => exact h.elim
  | _ => exact h

theorem only_then (h : Only p (fun _ => True) t) (hk : ∀ a, Only p Q (k a)) : Only p Q (t.andThen k) :=
  until_then h fun a _ => hk a

theorem only_ask {w : SessionCall} {k : w.Answer → Part β} (hw : p w) (hk : ∀ a, Only p Q (k a)) :
    Only p Q ((ask w).andThen k) :=
  Until.andThen (until_request hw fun a _ => hk a)

theorem only_request {w : SessionCall} (hw : p w) : Only p (fun _ => True) (ask w) :=
  until_request hw fun _ _ => trivial

theorem only_pipeline {ws : List SessionCall} (h : ∀ w ∈ ws, p w) : Only p (fun _ => True) (pipeline ws) := by
  induction ws with
  | nil => trivial
  | cons w ws ih =>
    have hrest : ∀ w' ∈ ws, p w' := fun w' hw' => h w' (List.mem_cons_of_mem w hw')
    refine ⟨h w List.mem_cons_self, fun _ _ => ih hrest, ?_⟩
    refine only_then (until_each fun w' hw' => ?_) fun _ => trivial
    exact only_then (until_attempt (hrest w' hw')) fun _ => trivial

theorem only_collect {γ : Type} {f : γ → Part β} {l : List γ} (h : ∀ c ∈ l, Only p (fun _ => True) (f c)) :
    Only p (fun _ => True) (collect f l) := by
  induction l with
  | nil => trivial
  | cons c l ih =>
    refine only_then (h c List.mem_cons_self) fun _ => ?_
    exact only_then (ih fun c' hc' => h c' (List.mem_cons_of_mem c hc')) fun _ => trivial

theorem only_mgetBatched {keys : List RedisKey} :
    Only Housekeeping (fun _ => True) (mgetBatched keys) :=
  only_then (only_collect fun _ _ => only_request trivial) fun _ => trivial

theorem only_sremMembers {key : RedisKey} {members : List String} :
    Only Housekeeping (fun _ => True) (sremMembers key members) :=
  until_each fun _ _ => only_request trivial

theorem only_getUserSessions : Only Housekeeping (fun _ => True) (getUserSessions userId) := by
  refine only_ask trivial fun indexed => only_then ?_ fun found => only_then ?_ fun _ =>
    only_then (only_pipeline ?_) fun _ => trivial
  · split
    · trivial
    · exact only_then only_mgetBatched fun _ => only_then only_mgetBatched fun _ =>
        only_then only_mgetBatched fun _ => trivial
  · unfold moveSwagger
    split
    · trivial
    · refine only_then only_sremMembers fun _ => only_pipeline fun w hw => ?_
      rcases List.mem_pair.mp hw with rfl | rfl <;> trivial
  · intro w hw
    unfold indexCommands at hw
    rcases List.mem_append.mp hw with hw | hw
    · split at hw
      · exact (List.not_mem_nil hw).elim
      · rcases List.mem_singleton.mp hw with rfl
        trivial
    · split at hw <;> rcases List.mem_pair.mp hw with rfl | rfl <;> trivial

theorem only_loggedInElsewhere {user : User} :
    Only Housekeeping (fun _ => True) (loggedInElsewhere user sessionUuid) := by
  unfold loggedInElsewhere
  split
  · trivial
  · exact only_then only_getUserSessions fun _ => trivial

theorem only_revokeSessions {sessionUuids : List String} :
    Only Housekeeping (fun _ => True) (revokeSessions userId sessionUuids) := by
  unfold revokeSessions
  split
  · trivial
  · refine only_then (only_collect fun _ _ => only_request trivial) fun _ => ?_
    refine only_then (until_each fun _ _ => only_request trivial) fun _ => ?_
    refine only_then only_sremMembers fun _ => only_then only_sremMembers fun _ => ?_
    refine only_ask trivial fun left => only_then ?_ fun _ => until_each fun sid _ => ?_
    · split
      · exact only_request trivial
      · trivial
    · exact only_then (until_attempt trivial) fun _ => only_then (until_attempt trivial) fun _ => trivial

theorem only_revokeUserTokens {exclude : Option String} {swagger : Bool} :
    Only Housekeeping (fun _ => True) (revokeUserTokens userId exclude swagger) := by
  refine only_then only_getUserSessions fun live => only_then ?_ fun _ => only_revokeSessions
  split
  · exact only_request trivial
  · trivial

variable {jwt : Jwt} {multiLogin swagger : Bool} {kwargs : List (String × Json)} {expire : Moment}

theorem only_storeAccessToken : Only (Stores jwt userId sessionUuid) (fun a => a.sessionUuid = sessionUuid)
    (storeAccessToken jwt userId multiLogin sessionUuid swagger kwargs expire) := by
  refine only_ask trivial fun jti => only_then ?_ fun _ => only_then (only_pipeline ?_) fun _ => rfl
  · split
    · exact only_revokeUserTokens.imp (fun _ _ h => h) (fun _ => stores_of_housekeeping) fun _ h => h
    · trivial
  · intro w hw
    simp only [accessCommands, List.mem_append, List.mem_singleton] at hw
    rcases hw with (rfl | hw) | hw
    · exact ⟨rfl, rfl, rfl, _, _, rfl⟩
    · have hextra : ∃ text ex, w = .set (.extraInfo userId sessionUuid) text ex := by
        generalize (if swagger = true then ("swagger", Json.bool true) :: kwargs else kwargs) = extra at hw
        by_cases hextra : extra.isEmpty = true
        · rw [if_pos hextra] at hw
          exact (List.not_mem_nil hw).elim
        · rw [if_neg hextra] at hw
          exact ⟨_, _, List.mem_singleton.mp hw⟩
      obtain ⟨text, ex, rfl⟩ := hextra
      trivial
    · split at hw
      · rcases List.mem_pair.mp hw with rfl | rfl <;> trivial
      · simp only [List.mem_cons, List.not_mem_nil, or_false] at hw
        rcases hw with rfl | rfl | rfl <;> trivial

theorem only_createRefreshToken : Only (Stores jwt userId sessionUuid) (fun _ => True)
    (createRefreshToken jwt sessionUuid userId) := by
  refine only_ask trivial fun now => only_ask trivial fun jti =>
    only_then (only_pipeline fun w hw => ?_) fun _ => trivial
  simp only [refreshCommands, List.mem_cons, List.not_mem_nil, or_false] at hw
  rcases hw with rfl | rfl | rfl | rfl
  · exact ⟨rfl, rfl, rfl, _, _, rfl⟩
  · trivial
  · trivial
  · trivial

end Parts

/-! ## What a request may write -/

/-- The call has been answered with `r`. -/
def Did (w : SessionCall) (r : w.Answer) (d : Deed) : Prop := ∃ time, d = ⟨time, w, some r⟩

/-- What entitles a request, by what it has done itself, to write tokens of a session: it has verified the
user and made the session, or it has found the user enabled and read back the refresh token that it has
come with. -/
inductive Grounds (jwt : Jwt) (request : Part Unit) (own : List Deed)
    (userId : ℕ) (sessionUuid : String) : Prop
  | login {user : User} (hrequest : (∃ kwargs, request = login jwt kwargs) ∨ request = swaggerLogin jwt)
      (hid : user.id = userId) (h : Tells [Did .verify user, Did .uuid4 sessionUuid] own)
  | renewal {id : ℕ} {user : User} {token : String} {kwargs : List (String × Json)}
      (hrequest : request = refreshToken jwt (some token) kwargs) (hid : user.id = userId)
      (hstatus : user.status = true)
      (h : Tells [Did (.getUser id) (some user),
        Did (.get (.refresh userId sessionUuid)) (some (.token token))] own)

def Lawful (jwt : Jwt) (request : Part Unit) (own : List Deed) : SessionCall → Prop
  | .set (.access userId sessionUuid) text ex =>
    ex = tokenExpire ∧ Issued jwt userId sessionUuid text ∧ Grounds jwt request own userId sessionUuid
  | .set (.refresh userId sessionUuid) text ex =>
    ex = tokenRefreshExpire ∧ Issued jwt userId sessionUuid text ∧ Grounds jwt request own userId sessionUuid
  | .respond (.authenticated userId sessionUuid token) => request = jwtAuthentication jwt token ∧
      Tells [Did (.get (.access userId sessionUuid)) (some (.token token))] own
  | _ => True

def Deed.entry (d : Deed) : (w : SessionCall) × Option w.Answer := ⟨d.call, d.answer⟩

abbrev Sound (jwt : Jwt) (request : Part Unit) {α : Type} (Q : α → List Deed → Prop) (own : List Deed)
    (t : Part α) : Prop :=
  Safe (Records Sigma.mk Deed.entry) (Trace.Throughout fun own d => Lawful jwt request own d.call)
    (· <+: ·) Q own t

section Requests

variable {own own' : List Deed} {w : SessionCall} {r : Option w.Answer} {α : Type} {Q : α → List Deed → Prop}
  {P : α → Prop} {t : Part α} {steps : List (Deed → Prop)} {jwt : Jwt} {request : Part Unit} {user : User}
  {userId : ℕ} {sessionUuid token : String} {multiLogin swagger : Bool} {kwargs : List (String × Json)}

theorem Grounds.mono (h : Grounds jwt request own userId sessionUuid) (hle : own <+: own') :
    Grounds jwt request own' userId sessionUuid := by
  cases h with
  | login hrequest hid h => exact .login hrequest hid (h.mono hle)
  | renewal hrequest hid hstatus h => exact .renewal hrequest hid hstatus (h.mono hle)

theorem snoc_of_records (h : Records Sigma.mk Deed.entry own w r own') :
    ∃ time, own' = own ++ [⟨time, w, r⟩] := by
  obtain ⟨⟨time, w', r'⟩, he, rfl⟩ := h
  cases he
  exact ⟨time, rfl⟩

theorem prefix_of_records (h : Records Sigma.mk Deed.entry own w r own') : own <+: own' := by
  obtain ⟨_, -, rfl⟩ := h
  exact List.prefix_append ..

theorem tells_of_records {a : w.Answer} (h : Tells steps own)
    (hW : Records Sigma.mk Deed.entry own w (some a) own') :
    Tells (steps ++ [Did w a]) own' := by
  obtain ⟨time, rfl⟩ := snoc_of_records hW
  exact h.snoc ⟨time, rfl⟩

theorem throughout_of_records (h : Trace.Throughout (fun own d => Lawful jwt request own d.call) own)
    (hlaw : Lawful jwt request own w) (hW : Records Sigma.mk Deed.entry own w r own') :
    Trace.Throughout (fun own d => Lawful jwt request own d.call) own' := by
  obtain ⟨time, rfl⟩ := snoc_of_records hW
  exact h.snoc hlaw

theorem sound_call {k : w.Answer → Part α} (hlaw : ∀ own', own <+: own' → Lawful jwt request own' w)
    (hk : ∀ a own₁ own₂, own <+: own₁ → Records Sigma.mk Deed.entry own₁ w (some a) own₂ →
      Sound jwt request Q own₂ (k a)) : Sound jwt request Q own ((ask w).andThen k) := by
  intro own₁ hle hown
  have hcall : Lawful jwt request own₁ w := hlaw own₁ hle
  exact ⟨fun a own₂ hW => ⟨throughout_of_records hown hcall hW, prefix_of_records hW, hk a own₁ own₂ hle hW⟩,
    fun own₂ hW => ⟨throughout_of_records hown hcall hW, prefix_of_records hW, trivial⟩⟩

theorem sound_ask (hlaw : ∀ own', own <+: own' → Lawful jwt request own' w) :
    Sound jwt request (fun _ _ => True) own (ask w) := by
  have hlast : Sound jwt request (fun _ _ => True) own ((ask w).andThen ret) :=
    sound_call hlaw fun _ _ _ _ _ _ _ _ => trivial
  exact hlast

theorem sound_refuse {e : SessionError} : Sound jwt request Q own (refuse e) := by
  intro own₁ _ hown
  have hlaw : Lawful jwt request own₁ (.respond (.error e)) := trivial
  exact ⟨fun _ _ hW => ⟨throughout_of_records hown hlaw hW, prefix_of_records hW, trivial⟩,
    fun _ hW => ⟨throughout_of_records hown hlaw hW, prefix_of_records hW, trivial⟩⟩

theorem lawful_of_housekeeping (hw : Housekeeping w) : Lawful jwt request own w := by
  cases w with
  | set _ _ _ | respond _ => exact hw.elim
  | _ => trivial

theorem lawful_of_stores (hgrounds : Grounds jwt request own userId sessionUuid)
    (hw : Stores jwt userId sessionUuid w) : Lawful jwt request own w := by
  cases w with
  | set key _ _ =>
    cases key with
    | access _ _ | refresh _ _ =>
      obtain ⟨rfl, rfl, hex, hissued⟩ := hw
      exact ⟨hex, hissued, hgrounds⟩
    | _ => trivial
  | respond _ => exact hw.elim
  | _ => trivial

theorem sound_housekeeping (h : Only Housekeeping P t) : Sound jwt request (fun a _ => P a) own t := by
  refine h.safe (fun own w r own' hw hown hW => ?_) fun _ _ _ _ _ _ hno => hno
  exact ⟨throughout_of_records hown (lawful_of_housekeeping hw) hW, prefix_of_records hW⟩

theorem sound_stores (hgrounds : Grounds jwt request own userId sessionUuid)
    (h : Only (Stores jwt userId sessionUuid) P t) : Sound jwt request (fun a _ => P a) own t := by
  have hsafe : Safe (Records Sigma.mk Deed.entry)
      (fun own => Trace.Throughout (fun own d => Lawful jwt request own d.call) own ∧
        Grounds jwt request own userId sessionUuid) (· <+: ·) (fun a _ => P a) own t := by
    refine h.safe (fun own w r own' hw ⟨hown, hgrounds⟩ hW => ⟨⟨?_, ?_⟩, prefix_of_records hW⟩)
      fun _ _ _ _ _ _ hno => hno
    · exact throughout_of_records hown (lawful_of_stores hgrounds hw) hW
    · exact hgrounds.mono (prefix_of_records hW)
  exact hsafe.assume (fun _ _ hle hgrounds => hgrounds.mono hle) hgrounds

theorem sound_createAccessToken
    (hrequest : (∃ kwargs, request = login jwt kwargs) ∨ request = swaggerLogin jwt) (hid : user.id = userId)
    (h : Tells [Did .verify user] own) :
    Sound jwt request (fun access own' => Grounds jwt request own' userId access.sessionUuid) own
      (createAccessToken jwt userId multiLogin none swagger kwargs) := by
  refine sound_call (fun _ _ => trivial) fun now own₁ own₂ hle hnow => ?_
  have hnew : Sound jwt request (fun access own' => Grounds jwt request own' userId access.sessionUuid) own₂
      ((ask .uuid4).andThen fun (sid : String) =>
        storeAccessToken jwt userId multiLogin sid swagger kwargs (now + tokenExpire)) := by
    refine sound_call (fun _ _ => trivial) fun (sid : String) own₃ own₄ hle' huuid => ?_
    have hlater : own <+: own₃ := (hle.trans (prefix_of_records hnow)).trans hle'
    have hgrounds : Grounds jwt request own₄ userId sid :=
      .login hrequest hid (tells_of_records (h.mono hlater) huuid)
    refine (sound_stores hgrounds only_storeAccessToken).imp fun access own₅ hle'' _ hsid => ?_
    rw [hsid]
    exact hgrounds.mono hle''
  exact hnew

theorem sound_login : Sound jwt (login jwt kwargs) (fun _ _ => True) [] (login jwt kwargs) := by
  refine sound_call (fun _ _ => trivial) fun user own₁ own₂ _ hverify => ?_
  have hverified : Tells [Did .verify user] own₂ := tells_of_records Trace.tells_nil hverify
  refine Safe.andThen ((sound_createAccessToken (.inl ⟨_, rfl⟩) rfl hverified).imp
    fun access own₃ _ _ hgrounds => ?_)
  refine Safe.andThen ((sound_stores hgrounds only_createRefreshToken).imp fun refresh own₄ _ _ _ => ?_)
  exact sound_ask fun _ _ => trivial

theorem sound_swaggerLogin : Sound jwt (swaggerLogin jwt) (fun _ _ => True) [] (swaggerLogin jwt) := by
  refine sound_call (fun _ _ => trivial) fun user own₁ own₂ _ hverify => ?_
  have hverified : Tells [Did .verify user] own₂ := tells_of_records Trace.tells_nil hverify
  refine Safe.andThen ((sound_createAccessToken (.inr rfl) rfl hverified).imp fun access own₃ _ _ _ => ?_)
  exact sound_ask fun _ _ => trivial

theorem storedToken_eq_some {stored : Option RedisText} (h : storedToken stored = some token) :
    stored = some (.token token) := by
  unfold storedToken at h
  split at h
  · rw [Option.some.inj (truthy_eq_some.mp h).1]
  · cases h

theorem sessionUuidOr_of_ne (h : sessionUuid ≠ "") :
    sessionUuidOr (some sessionUuid) = ret sessionUuid := by
  have htruthy : truthy (some sessionUuid) = some sessionUuid := truthy_eq_some.mpr ⟨rfl, h⟩
  unfold sessionUuidOr
  rw [htruthy]

/-- The token of a renewal is read back before new ones are written. -/
theorem sound_createNewToken {id : ℕ} {kwargs' : List (String × Json)}
    (hrequest : request = refreshToken jwt (some token) kwargs') (hid : user.id = userId)
    (hstatus : user.status = true) (huser : Tells [Did (.getUser id) (some user)] own)
    (hsid : sessionUuid ≠ "") :
    Sound jwt request (fun _ _ => True) own
      (createNewToken jwt token sessionUuid userId multiLogin kwargs) := by
  refine sound_call (fun _ _ => trivial) fun (stored : Option RedisText) own₁ own₂ hle hread => ?_
  split
  · exact sound_refuse
  · rename_i hstored
    rw [storedToken_eq_some (not_not.mp hstored)] at hread
    have hgrounds : Grounds jwt request own₂ userId sessionUuid :=
      .renewal hrequest hid hstatus (tells_of_records (huser.mono hle) hread)
    have haccess : Sound jwt request (fun _ _ => True) own₂
        (createAccessToken jwt userId multiLogin (some sessionUuid) false kwargs) := by
      refine sound_call (fun _ _ => trivial) fun now own₃ own₄ hle' hnow => ?_
      rw [sessionUuidOr_of_ne hsid]
      have hlater : own₂ <+: own₄ := hle'.trans (prefix_of_records hnow)
      exact (sound_stores (hgrounds.mono hlater) only_storeAccessToken).imp fun _ _ _ _ _ => trivial
    refine Safe.andThen (haccess.imp fun access own₃ hle' _ _ => ?_)
    refine Safe.andThen ((sound_stores (hgrounds.mono hle') only_createRefreshToken).imp fun _ _ _ _ _ => ?_)
    exact fun _ _ _ => trivial

theorem sessionUuid_of_jwtDecode {now : Moment} {p : Payload} (h : jwt.jwtDecode now token = .ok p) :
    p.sessionUuid ≠ "" := by
  unfold Jwt.jwtDecode at h
  split at h
  · cases h
  · split at h
    · cases h
    · split at h
      · cases h
      · cases h
        assumption

theorem sound_jwtDecodeNow : Sound jwt request (fun r _ => ∀ p, r = .ok p → p.sessionUuid ≠ "") own
    (jwtDecodeNow jwt token) :=
  sound_call (fun _ _ => trivial) fun _ _ _ _ _ _ _ _ _ hp => sessionUuid_of_jwtDecode hp

theorem sound_refreshToken {cookie : Option String} :
    Sound jwt (refreshToken jwt cookie kwargs) (fun _ _ => True) [] (refreshToken jwt cookie kwargs) := by
  obtain ⟨request, hrequest⟩ : ∃ request, request = refreshToken jwt cookie kwargs := ⟨_, rfl⟩
  rw [← hrequest]
  nth_rewrite 2 [hrequest]
  unfold refreshToken
  split
  · exact sound_refuse
  · rename_i token htoken
    rw [(truthy_eq_some.mp htoken).1] at hrequest
    refine Safe.andThen (sound_jwtDecodeNow.imp ?_)
    rintro (e | p) own₁ - - hp
    · exact sound_refuse
    · refine sound_call (fun _ _ => trivial) ?_
      rintro (_ | user) own₂ own₃ - hget
      · exact sound_refuse
      · have huser : Tells [Did (.getUser p.sub) (some user)] own₃ := tells_of_records Trace.tells_nil hget
        dsimp only
        split
        · exact sound_refuse
        · rename_i hstatus
          refine Safe.andThen ((sound_housekeeping only_loggedInElsewhere).imp
            fun elsewhere own₄ hle _ _ => ?_)
          split
          · exact sound_refuse
          · refine Safe.andThen ((sound_createNewToken hrequest rfl (by simpa using hstatus) (huser.mono hle)
              (hp p rfl)).imp fun _ _ _ _ _ => ?_)
            exact sound_ask fun _ _ => trivial

theorem sound_jwtAuthentication :
    Sound jwt (jwtAuthentication jwt token) (fun _ _ => True) [] (jwtAuthentication jwt token) := by
  refine Safe.andThen (sound_jwtDecodeNow.imp ?_)
  rintro (e | p) own₁ - - -
  · exact sound_refuse
  · refine sound_call (fun _ _ => trivial) fun (stored : Option RedisText) own₂ own₃ _ hread => ?_
    split
    · exact sound_refuse
    · split
      · exact sound_refuse
      · rename_i hstored
        rw [storedToken_eq_some (not_not.mp hstored)] at hread
        have hback := tells_of_records Trace.tells_nil hread
        exact sound_ask fun own' hle => ⟨rfl, hback.mono hle⟩

theorem sound_logout {token : Option String} :
    Sound jwt request (fun _ _ => True) own (logout jwt token) := by
  unfold logout
  split
  · exact sound_ask fun _ _ => trivial
  · refine Safe.andThen (sound_jwtDecodeNow.imp ?_)
    rintro (e | p) own₁ - - -
    · exact sound_ask fun _ _ => trivial
    · refine Safe.andThen ((sound_housekeeping only_revokeSessions).imp fun _ _ _ _ _ => ?_)
      exact sound_ask fun _ _ => trivial

theorem sound_of_begins {t : Part Unit} (h : Begins jwt t) : Sound jwt t (fun _ _ => True) [] t := by
  cases h with
  | login kwargs => exact sound_login
  | swaggerLogin => exact sound_swaggerLogin
  | refreshToken cookie kwargs => exact sound_refreshToken
  | authenticate token => exact sound_jwtAuthentication
  | logout token => exact sound_logout
  | getUserSessions userId =>
    exact sound_housekeeping (only_then only_getUserSessions fun _ => trivial)
  | revokeToken userId sessionUuid => exact sound_housekeeping only_revokeSessions
  | revokeUserTokens userId exclude => exact sound_housekeeping only_revokeUserTokens
  | elsewhere users online => exact sound_ask fun _ _ => trivial

end Requests

/-! ## What Redis answers -/

/-- The call sets the key or deletes it. -/
def SessionCall.Writes (key : RedisKey) : SessionCall → Prop
  | .set key' .. => key = key'
  | .delete keys => key ∈ keys
  | _ => False

/-- The key has been set or deleted, and Redis has said so. -/
def Deed.Clears (key : RedisKey) (d : Deed) : Prop := d.answer.isSome = true ∧ d.call.Writes key

/-- What has been read was the last to be written, and less long ago than it was to be kept. -/
def Truthful (pre : List Deed) (d : Deed) : Prop :=
  (∀ key text, Did (.get key) (some text) d → ∃ before savedAt ex r mid,
    pre = before ++ ⟨savedAt, .set key text ex, r⟩ :: mid ∧ d.time < savedAt + ex ∧
      ∀ d ∈ mid, ¬ d.Clears key) ∧
  ∀ id user, Did (.getUser id) (some user) d → user.id = id

/-- All answers have been truthful, and what Redis keeps was the last to be written under its key. -/
structure Inv (s : SessionWorld) : Prop where
  truthful : Trace.Throughout Truthful s.log
  kept : ∀ key text stop, s.strings key = some (text, stop) → ∃ pre savedAt ex r mid,
    s.log = pre ++ ⟨savedAt, .set key text ex, r⟩ :: mid ∧ stop = savedAt + ex ∧ ∀ d ∈ mid, ¬ d.Clears key

def Later (s s' : SessionWorld) : Prop := s.log <+: s'.log

instance : IsPreorder SessionWorld Later where
  refl s := List.prefix_refl s.log
  trans _ _ _ h h' := List.IsPrefix.trans h h'

/-- A world in which nothing has been done and Redis keeps nothing. -/
structure Fresh (s : SessionWorld) : Prop where
  log : s.log = []
  strings : ∀ key, s.strings key = none

section Log

variable {s s' : SessionWorld} {w : SessionCall} {r : Option w.Answer} {key : RedisKey} {text : RedisText}
  {stop : Moment}

@[simp]
theorem log_record {d : Deed} : (s.record d).log = s.log ++ [d] := rfl

@[simp]
theorem log_at {now : Moment} : (s.at_ now).log = s.log := rfl

@[simp]
theorem log_effect (a : w.Answer) : (w.effect s a).log = s.log := by
  cases w <;> rfl

theorem log_of_answers (h : Answers s w r s') : ∃ now, s'.log = s.log ++ [⟨now, w, r⟩] := by
  cases h with
  | @answer _ _ a now _ _ => exact ⟨now, congrArg (· ++ _) (log_effect a)⟩
  | @raise _ _ now _ => exact ⟨now, rfl⟩
  | @lose _ _ a now _ _ => exact ⟨now, congrArg (· ++ _) (log_effect a)⟩

theorem later_of_answers (h : Answers s w r s') : Later s s' := by
  obtain ⟨now, hlog⟩ := log_of_answers h
  exact ⟨_, hlog.symm⟩

theorem strings_effect {a : w.Answer} (h : (w.effect s a).strings key = some (text, stop)) :
    (s.strings key = some (text, stop) ∧ ¬ w.Writes key) ∨
      ∃ ex, w = .set key text ex ∧ stop = s.clock + ex := by
  cases w with
  | set key' text' ex =>
    change Function.update s.strings key' (some (text', s.clock + ex)) key = _ at h
    by_cases hkey : key = key'
    · subst hkey
      rw [Function.update_self] at h
      cases h
      exact .inr ⟨ex, rfl, rfl⟩
    · rw [Function.update_of_ne hkey] at h
      exact .inl ⟨h, hkey⟩
  | delete keys =>
    change (if key ∈ keys then none else s.strings key) = _ at h
    split at h
    · cases h
    · exact .inl ⟨h, ‹_›⟩
  | _ => exact .inl ⟨h, id⟩

theorem strings_of_answers (h : Answers s w r s') (hkey : s'.strings key = some (text, stop)) :
    (s.strings key = some (text, stop) ∧ ∀ now, ¬ Deed.Clears key ⟨now, w, r⟩) ∨
      ∃ now ex r', s'.log = s.log ++ [⟨now, .set key text ex, r'⟩] ∧ stop = now + ex := by
  cases h with
  | @answer _ _ a now _ _ =>
    rcases strings_effect (s := s.at_ now) hkey with ⟨hold, hw⟩ | ⟨ex, rfl, hstop⟩
    · exact .inl ⟨hold, fun _ hc => hw hc.2⟩
    · exact .inr ⟨now, ex, some (), rfl, hstop⟩
  | raise _ => exact .inl ⟨hkey, fun _ hc => Bool.false_ne_true hc.1⟩
  | @lose _ _ a now _ _ =>
    rcases strings_effect (s := s.at_ now) hkey with ⟨hold, hw⟩ | ⟨ex, rfl, hstop⟩
    · exact .inl ⟨hold, fun _ hc => hw hc.2⟩
    · exact .inr ⟨now, ex, none, rfl, hstop⟩

theorem Inv.truthful_of_answers (hI : Inv s) (h : Answers s w r s') :
    ∃ d, s'.log = s.log ++ [d] ∧ Truthful s.log d := by
  obtain ⟨now, hlog⟩ := log_of_answers h
  refine ⟨_, hlog, ?_, ?_⟩
  · rintro key text ⟨time, he⟩
    cases he
    cases h with
    | @answer _ _ _ now' hnow hread =>
      cases (List.append_cancel_left hlog)
      obtain ⟨⟨text', stop⟩, hx, rfl⟩ := Option.map_eq_some_iff.mp (Eq.symm hread)
      obtain ⟨hkept, hlive⟩ := Option.filter_eq_some_iff.mp hx
      obtain ⟨pre, savedAt, ex, r, mid, hsplit, rfl, hmid⟩ := hI.kept key text' stop hkept
      exact ⟨pre, savedAt, ex, r, mid, hsplit, of_decide_eq_true hlive, hmid⟩
  · rintro id user ⟨time, he⟩
    cases he
    cases h with
    | answer _ hfound => simpa using List.find?_some (Eq.symm hfound)

theorem Inv.call (hI : Inv s) (h : Answers s w r s') : Inv s' := by
  constructor
  · obtain ⟨d, hlog, htruthful⟩ := hI.truthful_of_answers h
    rw [hlog]
    exact hI.truthful.snoc htruthful
  · intro key text stop hkey
    rcases strings_of_answers h hkey with ⟨hold, hclears⟩ | ⟨now, ex, r', hlog, hstop⟩
    · obtain ⟨now, hlog⟩ := log_of_answers h
      obtain ⟨pre, savedAt, ex, r', mid, hsplit, hstop, hmid⟩ := hI.kept key text stop hold
      refine ⟨pre, savedAt, ex, r', mid ++ [⟨now, w, r⟩], by simp [hlog, hsplit], hstop, ?_⟩
      intro d hd
      rcases List.mem_append.mp hd with hd | hd
      · exact hmid d hd
      · rcases List.mem_singleton.mp hd with rfl
        exact hclears now
    · exact ⟨s.log, now, ex, r', [], hlog, hstop, fun _ hd => (List.not_mem_nil hd).elim⟩

theorem Fresh.inv (h : Fresh s) : Inv s := by
  refine ⟨h.log ▸ Trace.throughout_nil, fun key text stop hkey => ?_⟩
  rw [h.strings key] at hkey
  cases hkey

theorem inv_of_reaches {jwt : Jwt} {x : SessionWorld × List (Part Unit)}
    (h : Reaches Answers (Begins jwt) s x)
    (hs : Fresh s) : Inv x.1 :=
  h.keeps (fun _ _ _ _ hW hI => hI.call hW) hs.inv

end Log

/-! ## Back to the login -/

/-- After `pre` the request `writer` has set the text for a time `ex`, and the request `reader` has read
it back in this time, with no write of the key in between. -/
def ReadBack (key : RedisKey) (text : RedisText) (ex : Moment) (pre : List (ℕ × Deed)) (writer reader : ℕ)
    (log : List (ℕ × Deed)) : Prop :=
  ∃ savedAt r mid readAt rest, log = pre ++ (writer, ⟨savedAt, .set key text ex, r⟩) ::
    (mid ++ (reader, ⟨readAt, .get key, some (some text)⟩) :: rest) ∧ readAt < savedAt + ex ∧
    ∀ x ∈ mid, ¬ x.2.Clears key

/-- What entitles a request to write tokens of a session: it has verified the user and made the session
itself, or it has come with a refresh token, found the user enabled and read the token back, and the
request that had written it was so entitled. -/
inductive Entitled (jwt : Jwt) (requests : ℕ → Part Unit) (userId : ℕ) (sessionUuid : String) :
    List (ℕ × Deed) → ℕ → Prop
  | login {log : List (ℕ × Deed)} {i : ℕ} {user : User}
      (hrequest : (∃ kwargs, requests i = login jwt kwargs) ∨ requests i = swaggerLogin jwt)
      (hid : user.id = userId) (h : Tells [Did .verify user, Did .uuid4 sessionUuid] (own i log)) :
      Entitled jwt requests userId sessionUuid log i
  | renewal {pre log : List (ℕ × Deed)} {writer i : ℕ} {user : User} {token : String}
      {kwargs : List (String × Json)} (h : Entitled jwt requests userId sessionUuid pre writer)
      (hrequest : requests i = refreshToken jwt (some token) kwargs) (hid : user.id = userId)
      (hstatus : user.status = true) (huser : ∃ d ∈ own i log, Did (.getUser userId) (some user) d)
      (hissued : Issued jwt userId sessionUuid (.token token))
      (hread : ReadBack (.refresh userId sessionUuid) (.token token) tokenRefreshExpire pre writer i log) :
      Entitled jwt requests userId sessionUuid log i

section History

variable {jwt : Jwt} {requests : ℕ → Part Unit} {l pre : List (ℕ × Deed)} {i userId : ℕ}
  {sessionUuid token : String} {key : RedisKey} {text : RedisText}

/-- The calls in the log are those of the requests, each in the order of its own. -/
abbrev ByRequests (jwt : Jwt) (requests : ℕ → Part Unit) (l : List (ℕ × Deed)) : Prop :=
  Numbered Sigma.mk Deed.entry (Begins jwt) requests l

theorem lawful_of_byRequests (h : ByRequests jwt requests l) :
    Trace.Throughout (fun pre x => Lawful jwt (requests x.1) (own x.1 pre) x.2.call) l :=
  h.throughout (P := fun request own d => Lawful jwt request own d.call) fun _ => sound_of_begins

theorem readBack_of_did (hrequests : ByRequests jwt requests l)
    (htruthful : Trace.Throughout Truthful (l.map Prod.snd)) (hle : pre <+: l)
    (h : ∃ d ∈ own i pre, Did (.get key) (some text) d) :
    ∃ before writer ex, ReadBack key text ex before writer i pre ∧ before.length < pre.length ∧
      before <+: l ∧ Lawful jwt (requests writer) (own writer before) (.set key text ex) := by
  obtain ⟨d, hd, time, rfl⟩ := h
  obtain ⟨front, rest, rfl⟩ := List.mem_iff_append.mp (mem_own.mp hd)
  obtain ⟨more, rfl⟩ := hle
  obtain ⟨before, savedAt, ex, r, mid, hsplit, hlive, hmid⟩ :=
    (htruthful (front.map Prod.snd) _ ((rest ++ more).map Prod.snd) (by simp)).1 key text ⟨time, rfl⟩
  obtain ⟨before, wmid, rfl, rfl, hwmid⟩ := List.map_eq_append_iff.mp hsplit
  obtain ⟨⟨writer, d⟩, mid, rfl, rfl, rfl⟩ := List.map_eq_cons_iff.mp hwmid
  refine ⟨before, writer, ex, ⟨savedAt, r, mid, time, rest, by simp, hlive, fun x hx => ?_⟩, ?_, ?_, ?_⟩
  · exact hmid x.2 (List.mem_map_of_mem hx)
  · simp
  · simp
  · exact lawful_of_byRequests hrequests before (writer, ⟨savedAt, .set key text ex, r⟩)
      (mid ++ (i, ⟨time, .get key, some (some text)⟩) :: (rest ++ more)) (by simp)

theorem entitled_of_grounds (hrequests : ByRequests jwt requests l)
    (htruthful : Trace.Throughout Truthful (l.map Prod.snd)) (hle : pre <+: l)
    (hgrounds : Grounds jwt (requests i) (own i pre) userId sessionUuid) :
    Entitled jwt requests userId sessionUuid pre i := by
  induction hn : pre.length using Nat.strong_induction_on generalizing pre i with
  | _ n ih =>
    cases hgrounds with
    | login hrequest hid h => exact .login hrequest hid h
    | @renewal id user token kwargs hrequest hid hstatus h =>
      obtain ⟨d, hd, huser⟩ := h.exists_mem List.mem_cons_self
      have hget := h.exists_mem (List.mem_cons_of_mem _ List.mem_cons_self)
      obtain ⟨before, writer, ex, hback, hlt, hle', rfl, hissued, hgrounds⟩ :=
        readBack_of_did hrequests htruthful hle hget
      have hsame : user.id = id := by
        have hmem : d ∈ l.map Prod.snd := List.mem_map_of_mem (hle.subset (mem_own.mp hd))
        obtain ⟨front, rest, hsplit⟩ := List.mem_iff_append.mp hmem
        exact (htruthful front d rest hsplit).2 id user huser
      subst hsame hid
      exact .renewal (ih before.length (hn ▸ hlt) hle' hgrounds rfl) hrequest rfl hstatus ⟨d, hd, huser⟩
        hissued hback

/-- However the requests take turns and whichever calls raise, a token is accepted only after it has been
read back from Redis in time, not replaced and not deleted, and the request that had written it had
verified the user and made the session, or had read back the refresh token that it had come with, and so
on back to the login. -/
theorem accepted_history {s : SessionWorld} {x : SessionWorld × List (Part Unit)}
    (h : Reaches Answers (Begins jwt) s x) (hs : Fresh s) :
    (∃ requests l, l.map Prod.snd = x.1.log ∧ ByRequests jwt requests l) ∧
      ∀ requests l, l.map Prod.snd = x.1.log → ByRequests jwt requests l →
        ∀ pre i d post userId sessionUuid token, l = pre ++ (i, d) :: post →
          d.call = .respond (.authenticated userId sessionUuid token) →
          requests i = jwtAuthentication jwt token ∧ Issued jwt userId sessionUuid (.token token) ∧
            ∃ begun writer, Entitled jwt requests userId sessionUuid begun writer ∧
              ReadBack (.access userId sessionUuid) (.token token) tokenExpire begun writer i pre := by
  refine ⟨h.numbered (fun _ _ _ _ hW => ?_) hs.log, ?_⟩
  · obtain ⟨now, hlog⟩ := log_of_answers hW
    exact ⟨_, rfl, hlog⟩
  · intro requests l hl hrequests pre i d post userId sessionUuid token hsplit hd
    have htruthful : Trace.Throughout Truthful (l.map Prod.snd) := hl ▸ (inv_of_reaches h hs).truthful
    have hle : pre <+: l := ⟨_, hsplit.symm⟩
    have hlaw : Lawful jwt (requests i) (own i pre) d.call :=
      lawful_of_byRequests hrequests pre (i, d) post hsplit
    rw [hd] at hlaw
    obtain ⟨hrequest, hget⟩ := hlaw
    obtain ⟨before, writer, ex, hback, -, hle', rfl, hissued, hgrounds⟩ :=
      readBack_of_did hrequests htruthful hle (hget.exists_mem List.mem_cons_self)
    exact ⟨hrequest, hissued, before, writer, entitled_of_grounds hrequests htruthful hle' hgrounds, hback⟩

end History

/-! ## A login, a renewal and the first request -/

/-- Tokens by their ids, of which some are well known. -/
def plainJwt : Jwt where
  encode p := p.jti
  decode token :=
    if token = "c" then some ⟨"a", "c", tokenRefreshExpire, 7⟩
    else if token = "b" ∨ token = "d" then some ⟨"a", token, tokenExpire, 7⟩
    else none

def onlyUser : User := ⟨7, true, true⟩

def emptyWorld : SessionWorld where
  clock := 0
  users := [onlyUser]
  strings _ := none
  sets _ := none
  uuids := []
  log := []

def storeDeeds (key : RedisKey) (token : String) (ex : Moment) : List Deed := [
  ⟨0, .set key (.token token) ex, some ()⟩,
  ⟨0, .sadd (.sessions 7) ["a"], some ()⟩,
  ⟨0, .expire (.sessions 7) sessionTtl, some ()⟩,
  ⟨0, .sadd .users ["7"], some ()⟩]

def loginDeeds : List Deed := [
  ⟨0, .verify, some onlyUser⟩,
  ⟨0, .now, some (0 : ℕ)⟩,
  ⟨0, .uuid4, some "a"⟩,
  ⟨0, .uuid4, some "b"⟩] ++ storeDeeds (.access 7 "a") "b" tokenExpire ++ [
  ⟨0, .now, some (0 : ℕ)⟩,
  ⟨0, .uuid4, some "c"⟩] ++ storeDeeds (.refresh 7 "a") "c" tokenRefreshExpire ++ [
  ⟨0, .respond (.loggedIn ⟨"b", tokenExpire, "a"⟩ ⟨"c", tokenRefreshExpire⟩), some ()⟩]

def renewalDeeds : List Deed := [
  ⟨0, .now, some (0 : ℕ)⟩,
  ⟨0, .getUser 7, some (some onlyUser)⟩,
  ⟨0, .get (.refresh 7 "a"), some (some (.token "c"))⟩,
  ⟨0, .now, some (0 : ℕ)⟩,
  ⟨0, .uuid4, some "d"⟩] ++ storeDeeds (.access 7 "a") "d" tokenExpire ++ [
  ⟨0, .now, some (0 : ℕ)⟩,
  ⟨0, .uuid4, some "e"⟩] ++ storeDeeds (.refresh 7 "a") "e" tokenRefreshExpire ++ [
  ⟨0, .respond (.renewed ⟨"d", tokenExpire, "e", tokenRefreshExpire, "a"⟩), some ()⟩]

def readDeeds (token : String) : List Deed := [
  ⟨0, .now, some (0 : ℕ)⟩,
  ⟨0, .get (.access 7 "a"), some (some (.token token))⟩]

theorem reaches_answer {jwt : Jwt} {s s₁ : SessionWorld} {w : SessionCall} {answered : w.Answer → Part Unit}
    {raised : Part Unit} {ts : List (Part Unit)}
    (h : Reaches Answers (Begins jwt) s (s₁, call w answered raised :: ts)) (hclock : s₁.clock = 0)
    (a : w.Answer) (hallows : w.Allows (s₁.at_ 0) a) :
    Reaches Answers (Begins jwt) s ((w.effect (s₁.at_ 0) a).record ⟨0, w, some a⟩, answered a :: ts) :=
  h.answer (.answer hclock.le hallows)

theorem reaches_loginDeeds : ∃ s, Reaches Answers (Begins plainJwt) emptyWorld (s, [ret ()]) ∧
    s.log = loginDeeds ∧ s.clock = 0 ∧ s.users = [onlyUser] ∧ s.uuids = ["c", "b", "a"] ∧
    s.sets (.online "a") = none ∧ s.strings (.access 7 "a") = some (.token "b", tokenExpire) ∧
    s.strings (.refresh 7 "a") = some (.token "c", tokenRefreshExpire) := by
  have h : Reaches Answers (Begins plainJwt) emptyWorld (emptyWorld, []) := Reaches.refl
  have h := h.begin (.login [])
  have h := reaches_answer h rfl onlyUser List.mem_cons_self
  have h := reaches_answer h rfl (0 : ℕ) rfl
  have h := reaches_answer h rfl "a" ⟨by decide, show "a" ∉ [] by decide⟩
  have h := reaches_answer h rfl "b" ⟨by decide, show "b" ∉ ["a"] by decide⟩
  have h := reaches_answer h rfl () trivial
  have h := reaches_answer h rfl () trivial
  have h := reaches_answer h rfl () trivial
  have h := reaches_answer h rfl () trivial
  have h := reaches_answer h rfl (0 : ℕ) rfl
  have h := reaches_answer h rfl "c" ⟨by decide, show "c" ∉ ["b", "a"] by decide⟩
  have h := reaches_answer h rfl () trivial
  have h := reaches_answer h rfl () trivial
  have h := reaches_answer h rfl () trivial
  have h := reaches_answer h rfl () trivial
  have h := reaches_answer h rfl () trivial
  exact ⟨_, h, rfl, rfl, rfl, rfl, rfl, rfl, rfl⟩

theorem reaches_renewalDeeds : ∃ s,
    Reaches Answers (Begins plainJwt) emptyWorld (s, [ret (), ret (), ret ()]) ∧
    s.log = loginDeeds ++ renewalDeeds ++ readDeeds "d" ++
      [⟨0, .respond (.authenticated 7 "a" "d"), some ()⟩] := by
  obtain ⟨s, h, hlog, hclock, husers, huuids, -, -, hrefresh⟩ := reaches_loginDeeds
  have hfound : some onlyUser = s.users.find? fun user => user.id = 7 := by
    rw [husers]
    rfl
  have hback : some (.token "c") =
      ((s.strings (.refresh 7 "a")).filter fun x => 0 < x.2).map Prod.fst := by
    rw [hrefresh]
    rfl
  have hd : "d" ∉ s.uuids := by
    rw [huuids]
    decide
  have he : "e" ∉ "d" :: s.uuids := by
    rw [huuids]
    decide
  have h := h.begin (.refreshToken (some "c") [])
  have h := reaches_answer h hclock (0 : ℕ) rfl
  have h := reaches_answer h rfl (some onlyUser) hfound
  have h := reaches_answer h rfl (some (.token "c")) hback
  have h := reaches_answer h rfl (0 : ℕ) rfl
  have h := reaches_answer h rfl "d" ⟨by decide, hd⟩
  have h := reaches_answer h rfl () trivial
  have h := reaches_answer h rfl () trivial
  have h := reaches_answer h rfl () trivial
  have h := reaches_answer h rfl () trivial
  have h := reaches_answer h rfl (0 : ℕ) rfl
  have h := reaches_answer h rfl "e" ⟨by decide, he⟩
  have h := reaches_answer h rfl () trivial
  have h := reaches_answer h rfl () trivial
  have h := reaches_answer h rfl () trivial
  have h := reaches_answer h rfl () trivial
  have h := reaches_answer h rfl () trivial
  have h := h.begin (.authenticate "d")
  have h := reaches_answer h rfl (0 : ℕ) rfl
  have h := reaches_answer h rfl (some (.token "d")) rfl
  have h := reaches_answer h rfl () trivial
  refine ⟨_, h, ?_⟩
  simp only [log_record, log_effect, log_at, hlog, List.append_assoc]
  rfl

/-- The request that has presented the renewed token has been accepted by the renewal, and the renewal by
the login. -/
theorem accepted_history_renewed : ∃ requests pre i begun writer,
    pre.map Prod.snd = loginDeeds ++ renewalDeeds ++ readDeeds "d" ∧
      requests i = jwtAuthentication plainJwt "d" ∧ Issued plainJwt 7 "a" (.token "d") ∧
      Entitled plainJwt requests 7 "a" begun writer ∧
      ReadBack (.access 7 "a") (.token "d") tokenExpire begun writer i pre := by
  obtain ⟨s, hs, hlog⟩ := reaches_renewalDeeds
  obtain ⟨⟨requests, l, hl, hrequests⟩, hall⟩ := accepted_history hs ⟨rfl, fun _ => rfl⟩
  obtain ⟨pre, last, rfl, hpre, hlast⟩ := List.map_eq_append_iff.mp (hl.trans hlog)
  obtain ⟨⟨i, d⟩, post, rfl, hd, hpost⟩ := List.map_eq_cons_iff.mp hlast
  obtain ⟨hrequest, hissued, begun, writer, hentitled, hback⟩ :=
    hall requests _ hl hrequests pre i d post 7 "a" "d" rfl (congrArg Deed.call hd)
  exact ⟨requests, pre, i, begun, writer, hpre, hrequest, hissued, hentitled, hback⟩

end TgPlatform.Sessions
