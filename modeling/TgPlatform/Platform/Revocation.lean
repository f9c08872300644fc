import TgPlatform.Platform.SessionHistory

/-! # Revoking a session

Once Redis has deleted the tokens of a session, no token of it is accepted any
more, whatever requests come, unless a request is under way that had made the
session or read one of its tokens before. Only such a request can write new
tokens for the session.
-/

namespace TgPlatform.Sessions

open Coroutine
open Trace (Tells)

/-- The answer lets a request go on with the session: it has just been made, or one of its tokens has
been read. -/
def Joins (userId : ℕ) (sessionUuid : String) : (w : SessionCall) → w.Answer → Prop
  | .uuid4, (uuid : String) => uuid = sessionUuid
  | .get (.access u sid), (r : Option RedisText) => u = userId ∧ sid = sessionUuid ∧ r.isSome = true
  | .get (.refresh u sid), (r : Option RedisText) => u = userId ∧ sid = sessionUuid ∧ r.isSome = true
  | _, _ => False

/-- Calls that neither write a token of the session nor accept one. -/
def Aloof (userId : ℕ) (sessionUuid : String) : SessionCall → Prop
  | .set (.access u sid) .. | .set (.refresh u sid) .. | .respond (.authenticated u sid _) =>
    ¬ (u = userId ∧ sid = sessionUuid)
  | _ => True

/-- The request has ended, or it has begun and none of its answers so far lets it go on with the
session. -/
def Idle (jwt : Jwt) (userId : ℕ) (sessionUuid : String) (t : Part Unit) : Prop :=
  t = ret () ∨ t = raise ∨ ∃ t₀ l, Begins jwt t₀ ∧ Path Sigma.mk t₀ l t ∧
    ∀ w r, ⟨w, some r⟩ ∈ l → ¬ Joins userId sessionUuid w r

abbrev Aside (userId : ℕ) (sessionUuid : String) {α : Type} (Q : α → Prop) (t : Part α) : Prop :=
  Until (Joins userId sessionUuid) (Aloof userId sessionUuid) Q t

section Parts

variable {jwt : Jwt} {userId u : ℕ} {sessionUuid sid token : String} {w : SessionCall} {α β : Type}
  {Q : β → Prop} {P : α → Prop} {t : Part α} {k : α → Part β} {kwargs : List (String × Json)}

theorem aloof_of_housekeeping (hw : Housekeeping w) : Aloof userId sessionUuid w := by
  cases w with
  | set _ _ _ | respond _ => exact hw.elim
  | _ => trivial

theorem aloof_of_stores (hne : ¬ (u = userId ∧ sid = sessionUuid)) (hw : Stores jwt u sid w) :
    Aloof userId sessionUuid w := by
  cases w with
  | set key _ _ =>
    cases key with
    | access _ _ | refresh _ _ =>
      obtain ⟨rfl, rfl, -⟩ := hw
      exact hne
    | _ => trivial
  | respond _ => exact hw.elim
  | _ => trivial

theorem aside_of_housekeeping (h : Only Housekeeping P t) : Aside userId sessionUuid P t :=
  h.imp (fun _ _ h => h.elim) (fun _ => aloof_of_housekeeping) fun _ h => h

theorem aside_of_stores (hne : ¬ (u = userId ∧ sid = sessionUuid)) (h : Only (Stores jwt u sid) P t) :
    Aside userId sessionUuid P t :=
  h.imp (fun _ _ h => h.elim) (fun _ => aloof_of_stores hne) fun _ h => h

theorem aside_call {k : w.Answer → Part β} (hw : Aloof userId sessionUuid w)
    (hk : ∀ a, ¬ Joins userId sessionUuid w a → Aside userId sessionUuid Q (k a)) :
    Aside userId sessionUuid Q ((ask w).andThen k) :=
  Until.andThen (until_request hw hk)

theorem aside_ask (hw : Aloof userId sessionUuid w) : Aside userId sessionUuid (fun _ => True) (ask w) :=
  until_request hw fun _ _ => trivial

theorem aside_refuse {e : SessionError} : Aside userId sessionUuid P (refuse e) :=
  ⟨trivial, fun _ _ => trivial, trivial⟩

theorem aside_createAccessToken {multiLogin swagger : Bool} :
    Aside userId sessionUuid (fun access => access.sessionUuid ≠ sessionUuid)
      (createAccessToken jwt u multiLogin none swagger kwargs) := by
  refine aside_call trivial fun now _ => ?_
  have hnew : Aside userId sessionUuid (fun access => access.sessionUuid ≠ sessionUuid)
      ((ask .uuid4).andThen fun (sid : String) =>
        storeAccessToken jwt u multiLogin sid swagger kwargs (now + tokenExpire)) := by
    refine aside_call trivial fun (sid : String) hsid => ?_
    have hne : sid ≠ sessionUuid := hsid
    refine (aside_of_stores (fun h => hne h.2) only_storeAccessToken).imp (fun _ _ h => h) (fun _ h => h) ?_
    intro access haccess
    rwa [haccess]
  exact hnew

theorem aside_login : Aside userId sessionUuid (fun _ => True) (login jwt kwargs) := by
  refine aside_call trivial fun user _ => until_then aside_createAccessToken fun access hne => ?_
  exact until_then (aside_of_stores (fun h => hne h.2) only_createRefreshToken) fun _ _ => aside_ask trivial

theorem aside_swaggerLogin : Aside userId sessionUuid (fun _ => True) (swaggerLogin jwt) :=
  aside_call trivial fun _ _ => until_then aside_createAccessToken fun _ _ => aside_ask trivial

theorem aside_jwtDecodeNow : Aside userId sessionUuid (fun r => ∀ p, r = .ok p → p.sessionUuid ≠ "")
    (jwtDecodeNow jwt token) :=
  aside_call trivial fun _ _ _ hp => sessionUuid_of_jwtDecode hp

theorem aside_createNewToken {multiLogin : Bool} (hsid : sid ≠ "") :
    Aside userId sessionUuid (fun _ => True) (createNewToken jwt token sid u multiLogin kwargs) := by
  refine aside_call trivial fun (stored : Option RedisText) hjoins => ?_
  split
  · exact aside_refuse
  · rename_i hstored
    have hsome : stored = some (.token token) := storedToken_eq_some (not_not.mp hstored)
    have hne : ¬ (u = userId ∧ sid = sessionUuid) := by
      rintro ⟨rfl, rfl⟩
      exact hjoins ⟨rfl, rfl, by rw [hsome]; rfl⟩
    have haccess : Aside userId sessionUuid (fun _ => True)
        (createAccessToken jwt u multiLogin (some sid) false kwargs) := by
      refine aside_call trivial fun now _ => ?_
      rw [sessionUuidOr_of_ne hsid]
      exact (aside_of_stores hne only_storeAccessToken).imp (fun _ _ h => h) (fun _ h => h) fun _ _ => trivial
    exact until_then haccess fun _ _ =>
      until_then (aside_of_stores hne only_createRefreshToken) fun _ _ => trivial

theorem aside_refreshToken {cookie : Option String} :
    Aside userId sessionUuid (fun _ => True) (refreshToken jwt cookie kwargs) := by
  unfold refreshToken
  split
  · exact aside_refuse
  · refine until_then aside_jwtDecodeNow ?_
    rintro (e | p) hp
    · exact aside_refuse
    · refine aside_call trivial ?_
      rintro (_ | user) -
      · exact aside_refuse
      · dsimp only
        split
        · exact aside_refuse
        · refine until_then (aside_of_housekeeping only_loggedInElsewhere) fun elsewhere _ => ?_
          split
          · exact aside_refuse
          · exact until_then (aside_createNewToken (hp p rfl)) fun _ _ => aside_ask trivial

theorem aside_jwtAuthentication : Aside userId sessionUuid (fun _ => True) (jwtAuthentication jwt token) := by
  refine until_then aside_jwtDecodeNow ?_
  rintro (e | p) -
  · exact aside_refuse
  · refine aside_call trivial fun (stored : Option RedisText) hjoins => ?_
    split
    · exact aside_refuse
    · split
      · exact aside_refuse
      · rename_i hstored
        have hsome : stored = some (.token token) := storedToken_eq_some (not_not.mp hstored)
        refine aside_ask ?_
        rintro ⟨hu, hsid⟩
        exact hjoins ⟨hu, hsid, by rw [hsome]; rfl⟩

theorem aside_logout {token : Option String} :
    Aside userId sessionUuid (fun _ => True) (logout jwt token) := by
  unfold logout
  split
  · exact aside_ask trivial
  · refine until_then aside_jwtDecodeNow ?_
    rintro (e | p) -
    · exact aside_ask trivial
    · exact until_then (aside_of_housekeeping only_revokeSessions) fun _ _ => aside_ask trivial

theorem aside_of_begins {t : Part Unit} (h : Begins jwt t) : Aside userId sessionUuid (fun _ => True) t := by
  cases h with
  | login kwargs => exact aside_login
  | swaggerLogin => exact aside_swaggerLogin
  | refreshToken cookie kwargs => exact aside_refreshToken
  | authenticate token => exact aside_jwtAuthentication
  | logout token => exact aside_logout
  | getUserSessions userId =>
    exact aside_of_housekeeping (only_then only_getUserSessions fun _ => trivial)
  | revokeToken userId sessionUuid => exact aside_of_housekeeping only_revokeSessions
  | revokeUserTokens userId exclude => exact aside_of_housekeeping only_revokeUserTokens
  | elsewhere users online => exact aside_ask trivial

theorem Idle.aside {t : Part Unit} (h : Idle jwt userId sessionUuid t) :
    Aside userId sessionUuid (fun _ => True) t := by
  rcases h with rfl | rfl | ⟨t₀, l, hbegins, hpath, hl⟩
  · trivial
  · trivial
  · exact (aside_of_begins hbegins).path hpath hl

end Parts

/-! ## After the deletion -/

/-- The session has been made, its tokens are gone, and no token of it has been accepted since. -/
structure Dead (userId : ℕ) (sessionUuid : String) (before : List Deed) (s : SessionWorld) : Prop where
  made : sessionUuid ∈ s.uuids
  access : s.live (.access userId sessionUuid) = none
  refresh : s.live (.refresh userId sessionUuid) = none
  since : ∃ l, s.log = before ++ l ∧
    ∀ d ∈ l, ∀ token, d.call ≠ .respond (.authenticated userId sessionUuid token)

section Run

variable {jwt : Jwt} {s s' : SessionWorld} {w : SessionCall} {r : Option w.Answer} {userId : ℕ}
  {sessionUuid : String} {key : RedisKey} {before pre : List Deed} {x y : SessionWorld × List (Part Unit)}

theorem live_eq_none : s.live key = none ↔
      ∀ text stop, s.strings key = some (text, stop) → stop ≤ s.clock := by
  unfold SessionWorld.live
  rw [Option.map_eq_none_iff, Option.filter_eq_none_iff]
  constructor
  · intro h text stop hkey
    simpa using h _ hkey
  · rintro h ⟨text, stop⟩ hkey
    simpa using h text stop hkey

theorem clock_of_answers (h : Answers s w r s') : s.clock ≤ s'.clock := by
  have heffect : ∀ {s : SessionWorld} (a : w.Answer), (w.effect s a).clock = s.clock := by
    intro s a
    cases w <;> rfl
  cases h with
  | @answer _ _ a now hnow _ | @lose _ _ a now hnow _ => exact hnow.trans (heffect (s := s.at_ now) a).ge
  | raise hnow => exact hnow

theorem uuids_of_answers (h : Answers s w r s') : s.uuids ⊆ s'.uuids := by
  have heffect : ∀ {s : SessionWorld} (a : w.Answer), s.uuids ⊆ (w.effect s a).uuids := by
    intro s a
    cases w with
    | uuid4 => exact List.subset_cons_self ..
    | _ => exact List.Subset.refl _
  cases h with
  | @answer _ _ a now _ _ | @lose _ _ a now _ _ => exact heffect (s := s.at_ now) a
  | raise _ => exact List.Subset.refl _

/-- Nothing comes back under a key that no call sets. -/
theorem live_of_answers (hkey : s.live key = none) (hset : ∀ text ex, w ≠ .set key text ex)
    (h : Answers s w r s') : s'.live key = none := by
  rw [live_eq_none] at hkey ⊢
  intro text stop hstop
  rcases strings_of_answers h hstop with ⟨hold, -⟩ | ⟨now, ex, r', hlog, -⟩
  · exact (hkey text stop hold).trans (clock_of_answers h)
  · obtain ⟨now', hlog'⟩ := log_of_answers h
    rw [hlog'] at hlog
    have hcall := congrArg Deed.call (List.cons.inj (List.append_cancel_left hlog)).1
    exact absurd hcall (hset text ex)

theorem Dead.call (hD : Dead userId sessionUuid before s) (hw : Aloof userId sessionUuid w)
    (h : Answers s w r s') : Dead userId sessionUuid before s' := by
  refine ⟨uuids_of_answers h hD.made, live_of_answers hD.access ?_ h, live_of_answers hD.refresh ?_ h, ?_⟩
  · rintro text ex rfl
    exact hw ⟨rfl, rfl⟩
  · rintro text ex rfl
    exact hw ⟨rfl, rfl⟩
  · obtain ⟨l, hlog, hl⟩ := hD.since
    obtain ⟨now, hlog'⟩ := log_of_answers h
    refine ⟨l ++ [⟨now, w, r⟩], by rw [hlog', hlog, List.append_assoc], fun d hd => ?_⟩
    rcases List.mem_append.mp hd with hd | hd
    · exact hl d hd
    · rcases List.mem_singleton.mp hd with rfl
      rintro token rfl
      exact hw ⟨rfl, rfl⟩

theorem Dead.not_joins (hD : Dead userId sessionUuid before s) {a : w.Answer}
    (h : Answers s w (some a) s') : ¬ Joins userId sessionUuid w a := by
  cases h with
  | @answer _ _ _ now hnow hallows =>
    have hlate : ∀ key, s.live key = none → (s.at_ now).live key = none := by
      intro key hkey
      rw [live_eq_none] at hkey ⊢
      exact fun text stop hstop => (hkey text stop hstop).trans hnow
    cases w with
    | uuid4 =>
      rintro rfl
      exact hallows.2 hD.made
    | get key =>
      cases key with
      | access u sid =>
        rintro ⟨rfl, rfl, hsome⟩
        rw [show a = none from Eq.trans hallows (hlate _ hD.access)] at hsome
        cases hsome
      | refresh u sid =>
        rintro ⟨rfl, rfl, hsome⟩
        rw [show a = none from Eq.trans hallows (hlate _ hD.refresh)] at hsome
        cases hsome
      | _ => exact id
    | _ => exact id

theorem Dead.safe {t : Part Unit} (h : Aside userId sessionUuid (fun _ => True) t) :
    Safe Answers (Dead userId sessionUuid before) Later (fun _ _ => True) s t :=
  h.safe (fun _ _ _ _ hw hD hW => ⟨hD.call hw hW, later_of_answers hW⟩) fun _ _ _ _ hD hW => hD.not_joins hW

theorem uuids_of_reaches (h : Reaches Answers (Begins jwt) s x) (hs : s.log = []) :
    ∀ d ∈ x.1.log, ∀ uuid time, d = ⟨time, .uuid4, some uuid⟩ → uuid ∈ x.1.uuids := by
  refine h.keeps (J := fun s => ∀ d ∈ s.log, ∀ uuid time, d = ⟨time, .uuid4, some uuid⟩ → uuid ∈ s.uuids)
    ?_ ?_
  · intro s w r s' hW hJ d hd uuid time he
    obtain ⟨now, hlog⟩ := log_of_answers hW
    rw [hlog] at hd
    rcases List.mem_append.mp hd with hd | hd
    · exact uuids_of_answers hW (hJ d hd uuid time he)
    · cases (List.mem_singleton.mp hd).symm.trans he
      cases hW with
      | answer _ _ => exact List.mem_cons_self
  · rw [hs]
    exact fun _ hd => (List.not_mem_nil hd).elim

theorem live_of_deleted (hI : Inv s) {d : Deed} (hlast : s.log = pre ++ [d]) (hd : d.Clears key)
    (hset : ∀ text ex, d.call ≠ .set key text ex) : s.live key = none := by
  rw [live_eq_none]
  intro text stop hkey
  obtain ⟨before, savedAt, ex, r, mid, hlog, -, hmid⟩ := hI.kept key text stop hkey
  rw [hlast] at hlog
  rcases List.eq_nil_or_concat mid with rfl | ⟨mid, d', rfl⟩
  · obtain ⟨-, he⟩ := List.append_inj' hlog rfl
    rcases List.cons.inj he with ⟨rfl, -⟩
    exact absurd rfl (hset text ex)
  · have hsplit : pre ++ [d] = (before ++ ⟨savedAt, .set key text ex, r⟩ :: mid) ++ [d'] := by
      rw [hlog]
      simp
    obtain ⟨-, he⟩ := List.append_inj' hsplit rfl
    rcases List.cons.inj he with ⟨rfl, -⟩
    exact absurd hd (hmid d (by simp))

/-- Once Redis keeps no token of a session that has been made, and every request under way has neither
made the session nor read one of its tokens, no token of it is accepted any more, whatever requests
come. -/
theorem revoked_for_good (h : Reaches Answers (Begins jwt) s x) (hs : s.log = [])
    (hmade : Tells [Did .uuid4 sessionUuid] x.1.log) (haccess : x.1.live (.access userId sessionUuid) = none)
    (hrefresh : x.1.live (.refresh userId sessionUuid) = none)
    (hidle : ∀ t ∈ x.2, Idle jwt userId sessionUuid t)
    (hy : Relation.ReflTransGen (Turn Answers (Begins jwt)) x y) :
    ∃ l, y.1.log = x.1.log ++ l ∧
      ∀ d ∈ l, ∀ token, d.call ≠ .respond (.authenticated userId sessionUuid token) := by
  have hdead : Dead userId sessionUuid x.1.log x.1 := by
    obtain ⟨d, hd, made, hdid⟩ := hmade.exists_mem List.mem_cons_self
    refine ⟨uuids_of_reaches h hs d hd _ made hdid, haccess, hrefresh, [], (List.append_nil _).symm, ?_⟩
    exact fun _ hd => (List.not_mem_nil hd).elim
  exact (invariant_of_turns hy hdead (fun t ht => Dead.safe (hidle t ht).aside)
    fun t s' ht _ => Dead.safe (aside_of_begins ht)).1.since

end Run

/-! ## A session that is revoked -/

def revokedDeeds : List Deed := loginDeeds ++ readDeeds "b" ++ [
  ⟨0, .respond (.authenticated 7 "a" "b"), some ()⟩,
  ⟨0, .smembers (.online "a"), some []⟩,
  ⟨0, .delete (sessionKeys 7 "a"), some ()⟩]

def refusedDeeds : List Deed := [
  ⟨0, .now, some (0 : ℕ)⟩,
  ⟨0, .get (.access 7 "a"), some none⟩,
  ⟨0, .respond (.error ⟨.token, "Token 已过期"⟩), some ()⟩]

theorem turns_answer {jwt : Jwt} {x : SessionWorld × List (Part Unit)} {s : SessionWorld} {w : SessionCall}
    {answered : w.Answer → Part Unit} {raised : Part Unit} {ts : List (Part Unit)}
    (h : Relation.ReflTransGen (Turn Answers (Begins jwt)) x (s, call w answered raised :: ts))
    (hclock : s.clock = 0) (a : w.Answer) (hallows : w.Allows (s.at_ 0) a) :
    Relation.ReflTransGen (Turn Answers (Begins jwt)) x
      ((w.effect (s.at_ 0) a).record ⟨0, w, some a⟩, answered a :: ts) :=
  .tail h (@Turn.answer _ _ _ _ _ _ _ [] ts _ _ _ _ (.answer hclock.le hallows))

theorem turns_refused {s : SessionWorld} {ts : List (Part Unit)} (hclock : s.clock = 0)
    (hgone : none = (s.at_ 0).live (.access 7 "a")) :
    ∃ y, Relation.ReflTransGen (Turn Answers (Begins plainJwt)) (s, ts) y ∧
      y.1.log = s.log ++ refusedDeeds := by
  have h : Relation.ReflTransGen (Turn Answers (Begins plainJwt)) (s, ts)
      (s, jwtAuthentication plainJwt "b" :: ts) := .single (.begin (.authenticate "b"))
  have h := turns_answer h hclock (0 : ℕ) rfl
  have h := turns_answer h rfl none hgone
  have h := turns_answer h rfl () trivial
  refine ⟨_, h, ?_⟩
  simp only [log_record, log_effect, log_at, List.append_assoc]
  rfl

theorem reaches_revokedDeeds : ∃ s ts, Reaches Answers (Begins plainJwt) emptyWorld (s, ts) ∧
    s.log = revokedDeeds ∧ s.clock = 0 ∧ none = (s.at_ 0).live (.access 7 "a") ∧
    ∀ t ∈ ts, Idle plainJwt 7 "a" t := by
  obtain ⟨s, h, hlog, hclock, -, -, honline, haccess, -⟩ := reaches_loginDeeds
  have hback : some (.token "b") = ((s.strings (.access 7 "a")).filter fun x => 0 < x.2).map Prod.fst := by
    rw [haccess]
    rfl
  have hnone : ([] : List String).toFinset =
      (((s.sets (.online "a")).filter fun x => x.2.all fun stop => 0 < stop).map Prod.fst).getD ∅ := by
    rw [honline]
    rfl
  have h := h.begin (.authenticate "b")
  have h := reaches_answer h hclock (0 : ℕ) rfl
  have h := reaches_answer h rfl (some (.token "b")) hback
  have h := reaches_answer h rfl () trivial
  have h := h.begin (.revokeToken 7 "a")
  have h := reaches_answer h rfl [] ⟨List.nodup_nil, hnone⟩
  have h := reaches_answer h rfl () trivial
  refine ⟨_, _, h, ?_, rfl, rfl, ?_⟩
  · simp only [log_record, log_effect, log_at, hlog, List.append_assoc]
    rfl
  · intro t ht
    simp only [List.mem_cons, List.not_mem_nil, or_false] at ht
    rcases ht with rfl | rfl | rfl
    · have hpath : Path Sigma.mk (revokeToken 7 "a") [] (revokeToken 7 "a") := .refl _
      have hpath := Path.snoc_answer (r := []) hpath
      have hpath := Path.snoc_answer (r := ()) hpath
      refine .inr (.inr ⟨_, _, .revokeToken 7 "a", hpath, fun w r hr => ?_⟩)
      rcases List.mem_pair.mp hr with hr | hr <;> cases hr <;> exact id
    · exact .inl rfl
    · exact .inl rfl

theorem revoked_for_good_first : ∃ l, revokedDeeds ++ refusedDeeds = revokedDeeds ++ l ∧
    ∀ d ∈ l, ∀ token, d.call ≠ .respond (.authenticated 7 "a" token) := by
  obtain ⟨s, ts, hs, hlog, hclock, hgone, hidle⟩ := reaches_revokedDeeds
  obtain ⟨y, hy, hlog'⟩ := @turns_refused s ts hclock hgone
  have hmade : Tells [Did .uuid4 "a"] s.log := by
    rw [hlog]
    exact .cons_right (.cons_right (.cons ⟨0, rfl⟩ .nil))
  have hI : Inv s := inv_of_reaches hs ⟨rfl, fun _ => rfl⟩
  have hlast : s.log = revokedDeeds.dropLast ++ [⟨0, .delete (sessionKeys 7 "a"), some ()⟩] := hlog
  have hgone' : ∀ key ∈ sessionKeys 7 "a", s.live key = none := fun key hkey =>
    live_of_deleted hI hlast ⟨rfl, hkey⟩ nofun
  rw [← hlog, ← hlog']
  exact revoked_for_good hs rfl hmade (hgone' _ (by decide)) (hgone' _ (by decide)) hidle hy

end TgPlatform.Sessions
